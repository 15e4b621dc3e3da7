import Cc2530Zigbee.EdWireCodec
import Cc2530Zigbee.CcmStarCorrect

/-!
# Protected frames

A frame that is sealed opens to itself under the same key, and a frame opens
only if sealing what comes out of it, under the counter it carries, gives it
back. The three level bits on the air stand aside: they are sent cleared and
their value is not looked at.
-/
namespace EdWire

set_option maxRecDepth 8000

open Octets NwkFrame CcmStar

/-- The longest frame of a layer. -/
def maxBody : Layer → Nat
  | .nwk => NwkFrame.maxBody
  | .aps => ApsFrame.maxBody

/-- Two frames with the same header of `h` octets, but for the layer's security bit. -/
structure Alike (layer : Layer) (h : Nat) (f g : Bytes) : Prop where
  left : h ≤ f.length
  right : h ≤ g.length
  marked : byteAt f (securityIndex layer) &&& ~~~ securityBit layer =
    byteAt g (securityIndex layer) &&& ~~~ securityBit layer
  others : ∀ j < h, j ≠ securityIndex layer → byteAt f j = byteAt g j

theorem Alike.nwkSize {h : Nat} {f g : Bytes} (a : Alike .nwk h f g) : nwkSize f = nwkSize g := by
  have hb : ∀ b : UInt8, b &&& 8 = (b &&& ~~~ 2) &&& 8 ∧ b &&& 16 = (b &&& ~~~ 2) &&& 16 := by decide
  have hm : byteAt f 1 &&& ~~~ 2 = byteAt g 1 &&& ~~~ 2 := a.marked
  unfold EdWire.nwkSize
  rw [(hb (byteAt f 1)).1, (hb (byteAt f 1)).2, hm, ← (hb (byteAt g 1)).1, ← (hb (byteAt g 1)).2]

theorem readNwk_alike {f g : Bytes} {info : NwkFrame.Info} (hf : readNwk f = .ok info)
    (a : Alike .nwk info.payloadOffset f g) (hg : g.length ≤ NwkFrame.maxBody) :
    ∃ info', readNwk g = .ok info' ∧ info'.payloadOffset = info.payloadOffset := by
  have hoffset := readNwk_offset hf
  obtain ⟨-, htype, hsize, plain, hd, rfl⟩ := readNwk_ok.1 hf
  have hb := nwkSize_bounds f
  rw [hoffset] at a
  have h0 : byteAt f 0 = byteAt g 0 := a.others 0 (by omega) (by decide)
  have hm : byteAt f 1 &&& ~~~ 2 = byteAt g 1 &&& ~~~ 2 := a.marked
  have hplain : plainHead g = plainHead f := by
    unfold plainHead
    rw [← h0, ← hm, ← a.nwkSize, slice_congr a.left a.right]
    intro j h2 hj
    have hne : j ≠ 1 := by omega
    exact a.others j hj hne
  have hbounds : plain.payloadOffset ≤ g.length := by
    have ho : plain.payloadOffset = EdWire.nwkSize f := hoffset
    rw [ho]
    exact a.right
  have hd' := decode_again hd hbounds hg
  refine ⟨restoreNwk g { plain with payloadLength := g.length - plain.payloadOffset }, ?_, rfl⟩
  apply readNwk_ok.2
  refine ⟨hg, by rw [← h0]; exact htype, by rw [← a.nwkSize]; exact a.right, _, by rw [hplain]; exact hd', rfl⟩

/-- Nothing but the security flag itself depends on the security bit of an APS control octet. -/
theorem aps_octet : ∀ c : UInt8, (Refused c ↔ Refused (c &&& ~~~ ApsFrame.security)) ∧
    isShort c = isShort (c &&& ~~~ ApsFrame.security) ∧ c &&& 3 = (c &&& ~~~ ApsFrame.security) &&& 3 ∧
    c &&& ApsFrame.ackRequest = (c &&& ~~~ ApsFrame.security) &&& ApsFrame.ackRequest := by
  unfold Refused
  decide

theorem readAps_alike {f g : Bytes} {info : ApsFrame.Info} (hf : readAps f = .ok info)
    (a : Alike .aps info.payloadOffset f g) (hg : g.length ≤ ApsFrame.maxBody) :
    ∃ info', readAps g = .ok info' ∧ info'.payloadOffset = info.payloadOffset ∧
      info'.header.type = info.header.type := by
  have hm : byteAt f 0 &&& ~~~ ApsFrame.security = byteAt g 0 &&& ~~~ ApsFrame.security := a.marked
  obtain ⟨hf1, hf2, hf3, hf4⟩ := aps_octet (byteAt f 0)
  obtain ⟨hg1, hg2, hg3, hg4⟩ := aps_octet (byteAt g 0)
  rw [hm] at hf1 hf2 hf3 hf4
  have htype : byteAt g 0 &&& 3 = byteAt f 0 &&& 3 := hg3.trans hf3.symm
  obtain ⟨-, -, hrefused, ⟨hshort, rfl⟩ | ⟨hshort, h8, plain, hd, rfl⟩⟩ := readAps_ok.1 hf
  · exact ⟨_, readAps_ok.2 ⟨a.right, hg, fun hn => hrefused (hf1.2 (hg1.1 hn)),
      .inl ⟨(hg2.trans hf2.symm).trans hshort, rfl⟩⟩, rfl, htype⟩
  · have h8g : 8 ≤ g.length := a.right
    have hplain : plainAps g = plainAps f := by
      unfold plainAps
      rw [hg4, ← hf4, slice_congr a.left a.right]
      intro j h1 hj
      have hne : j ≠ 0 := by omega
      exact a.others j hj hne
    have hd' := ApsFrame.decode_again hd h8g hg
    rw [← hplain] at hd'
    exact ⟨_, readAps_ok.2 ⟨by omega, hg, fun hn => hrefused (hf1.2 (hg1.1 hn)),
      .inr ⟨(hg2.trans hf2.symm).trans hshort, h8g, _, hd', rfl⟩⟩, rfl, htype⟩

/-- The header of a frame does not depend on its security bit or on what stands behind it. -/
theorem header_alike {layer : Layer} {f g : Bytes} {h : Nat} {type : UInt8} (hf : header layer f = .ok (h, type))
    (a : Alike layer h f g) (hg : g.length ≤ maxBody layer) : header layer g = .ok (h, type) := by
  cases layer with
  | nwk =>
    unfold header at hf
    simp only at hf
    split at hf
    · cases hf
    rename_i info hr
    cases hf
    obtain ⟨info', hr', ho⟩ := readNwk_alike hr a hg
    simp only [header, hr', ho]
  | aps =>
    unfold header at hf
    simp only at hf
    split at hf
    · cases hf
    rename_i info hr
    cases hf
    obtain ⟨info', hr', ho, ht⟩ := readAps_alike hr a hg
    simp only [header, hr', ho, ht]

/-- What the header readers promise of a frame. -/
theorem header_bounds {layer : Layer} {f : Bytes} {h : Nat} {type : UInt8} (hf : header layer f = .ok (h, type)) :
    securityIndex layer < h ∧ h ≤ 24 ∧ h ≤ f.length ∧ f.length ≤ maxBody layer := by
  cases layer with
  | nwk =>
    unfold header at hf
    simp only at hf
    split at hf
    · cases hf
    rename_i info hr
    cases hf
    have ho := readNwk_offset hr
    have hb := nwkSize_bounds f
    obtain ⟨hmax, -, hsize, -⟩ := readNwk_ok.1 hr
    rw [ho]
    exact ⟨Nat.lt_of_lt_of_le (by decide) hb.1, hb.2, hsize, hmax⟩
  | aps =>
    unfold header at hf
    simp only at hf
    split at hf
    · cases hf
    rename_i info hr
    cases hf
    obtain ⟨h2, hmax, -, ⟨-, rfl⟩ | ⟨-, h8, plain, -, rfl⟩⟩ := readAps_ok.1 hr
    · exact ⟨Nat.zero_lt_two, (by decide : 2 ≤ 24), h2, hmax⟩
    · exact ⟨(by decide : 0 < 8), (by decide : 8 ≤ 24), h8, hmax⟩

/-! The auxiliary header. -/

/-- The security control octet of a key identifier, with the level bits `low`. -/
def controlOctet (low identifier : UInt8) : UInt8 := ((0x20 : UInt8) ||| low) ||| (identifier <<< 3)

/-- The auxiliary header a key and a counter give. -/
def auxiliary (key : Key) (low : UInt8) : Bytes :=
  [controlOctet low key.keyIdentifier] ++ put32 key.counter ++ key.source.toList ++
    (if key.keyIdentifier = 1 then [key.keySequence] else [])

/-- The fields of a control octet that is sent. -/
theorem controlOctet_fields {low identifier : UInt8} (hl : low = 0 ∨ low = 5) (hi : identifier ≤ 3) :
    controlOctet low identifier &&& 0x20 ≠ 0 ∧ controlOctet low identifier &&& 0xC0 = 0 ∧
      (controlOctet low identifier >>> 3) &&& 3 = identifier ∧
      (controlOctet low identifier &&& 0xF8) ||| 5 = controlOctet 5 identifier ∧
      controlOctet low identifier &&& 0xF8 = controlOctet 0 identifier := by
  have hi' : identifier = 0 ∨ identifier = 1 ∨ identifier = 2 ∨ identifier = 3 := by
    revert identifier
    decide
  obtain rfl | rfl := hl <;> obtain rfl | rfl | rfl | rfl := hi' <;> decide

/-- A control octet that was read. -/
theorem controlOctet_read : ∀ c : UInt8, c &&& 0x20 ≠ 0 → c &&& 0xC0 = 0 →
    c &&& (0xF8 : UInt8) = controlOctet 0 ((c >>> 3) &&& 3) ∧
      (c &&& (0xF8 : UInt8)) ||| (5 : UInt8) = controlOctet 5 ((c >>> 3) &&& 3) := by
  decide

/-- The key identifiers of a layer. -/
theorem selects_le {layer : Layer} {key : Key} (h : selects layer key = true) : key.keyIdentifier ≤ 3 := by
  cases layer with
  | nwk =>
    have he : key.keyIdentifier = 1 := by simpa [selects] using h
    rw [he]
    decide
  | aps => exact (by simpa [selects] using h : key.keyIdentifier ≠ 1 ∧ key.keyIdentifier ≤ 3).2

/-- The octets in front of the payload, as they are authenticated and as they are sent. -/
theorem put_control {front rest : Bytes} {h : Nat} (hf : front.length = h) (key : Key) (low v : UInt8) :
    put (front ++ auxiliary key low ++ rest) h v = front ++ (v :: (auxiliary key low).tail) ++ rest := by
  subst hf
  unfold put auxiliary
  simp

/-- The nonce names the sender, the counter and the control octet. -/
theorem nonce_congr (source : Ieee) {f g : Bytes} {h : Nat} (hf : h + 5 ≤ f.length) (hg : h + 5 ≤ g.length)
    (he : ∀ j, h ≤ j → j < h + 5 → byteAt f j = byteAt g j) : nonce source f h = nonce source g h := by
  have ht (s : Bytes) : (s.drop (h + 1)).take 4 = (s.take (h + 5)).drop (h + 1) := by
    rw [List.drop_take]
    congr 1
    omega
  unfold nonce
  rw [ht f, ht g, slice_congr hf hg fun j h1 h2 => he j (by omega) h2, he h (Nat.le_refl h) (by omega)]

/-- The key identifier of a protected frame with its header at `h`. -/
def identifierAt (f : Bytes) (h : Nat) : UInt8 := (byteAt f h >>> 3) &&& 3

/-- The size of its auxiliary header. -/
def auxiliarySize (identifier : UInt8) : Nat := if identifier = 1 then 14 else 13

theorem auxiliary_size (key : Key) (low : UInt8) : (auxiliary key low).length = auxiliarySize key.keyIdentifier := by
  unfold auxiliary auxiliarySize
  split <;> simp

/-- The key identifiers a layer lets a frame name. -/
def Selected (layer : Layer) (type identifier : UInt8) : Prop :=
  match layer with
  | .nwk => identifier = 1
  | .aps => identifier ≠ 1 ∧ (type ≠ apsCommand → identifier = 0)

/-- What the auxiliary header of a frame says. -/
def metaAt (f : Bytes) (h : Nat) : Meta where
  counter := u32At f (h + 1)
  source := fieldAt f (h + 5) 8
  level := 5
  keyIdentifier := identifierAt f h
  keySequence := if identifierAt f h = 1 then byteAt f (h + 13) else 0
  extendedNonce := 1
  headerLength := h
  auxiliaryLength := auxiliarySize (identifierAt f h)
  payloadLength := f.length - h - auxiliarySize (identifierAt f h) - 4

/-- A frame whose source is not written out names no key of a layer. -/
theorem inspect_short {layer : Layer} {f : Bytes} {h : Nat} {type : UInt8} (hh : header layer f = .ok (h, type))
    (hx : byteAt f h &&& 0x20 = 0) (r : Meta × UInt8) : inspect layer f ≠ .ok r := by
  intro hi
  unfold inspect at hi
  rw [hh] at hi
  simp only [hx, ne_eq, not_true, not_false_iff, or_true, true_or, and_true, if_false] at hi
  generalize (if (byteAt f h >>> 3) &&& 3 = 1 then 1 else 0) = last at hi
  cases layer <;> simp only [reduceCtorEq, if_true, if_false] at hi <;> repeat' split at hi
  all_goals cases hi

/-- The key identifiers a layer lets a frame name, as the code asks for them. -/
theorem selected_iff (layer : Layer) (type identifier : UInt8) :
    (¬ (layer = .nwk ∧ (identifier ≠ 1 ∨ ¬ True)) ∧
      ¬ (layer = .aps ∧ (identifier = 1 ∨ ¬ True ∨ (type ≠ apsCommand ∧ identifier ≠ 0)))) ↔
      Selected layer type identifier := by
  cases layer <;> simp [Selected]

/-- What `inspect` checks and yields. -/
theorem inspect_ok {layer : Layer} {f : Bytes} {m : Meta} {type : UInt8} :
    inspect layer f = .ok (m, type) ↔ ∃ h, header layer f = .ok (h, type) ∧
      byteAt f (securityIndex layer) &&& securityBit layer ≠ 0 ∧
      byteAt f h &&& 0x20 ≠ 0 ∧ byteAt f h &&& 0xC0 = 0 ∧
      h + auxiliarySize (identifierAt f h) + 4 ≤ f.length ∧ u32At f (h + 1) ≠ 0xFFFFFFFF ∧
      Selected layer type (identifierAt f h) ∧ m = metaAt f h := by
  have hext : ∀ c : UInt8, c &&& 0x20 ≠ 0 → (c >>> 5) &&& 1 = 1 := by decide
  cases hh : header layer f with
  | error e => simp [inspect, hh]
  | ok ht =>
    obtain ⟨h, t⟩ := ht
    by_cases hx : byteAt f h &&& 0x20 = 0
    · constructor
      · exact fun hi => absurd hi (inspect_short hh hx _)
      · rintro ⟨h', hh', -, hx', -⟩
        cases hh'
        exact absurd hx hx'
    · have hsize : (5 + 8 + if identifierAt f h = 1 then 1 else 0) = auxiliarySize (identifierAt f h) := by
        unfold auxiliarySize
        split <;> rfl
      have hlast : (if identifierAt f h = 1 then byteAt f (h + auxiliarySize (identifierAt f h) - 1) else 0) =
          if identifierAt f h = 1 then byteAt f (h + 13) else 0 := by
        unfold auxiliarySize
        split <;> rfl
      have hident : (byteAt f h >>> 3) &&& 3 = identifierAt f h := rfl
      have hmeta : metaAt f h = ⟨u32At f (h + 1), fieldAt f (h + 5) 8, 5, identifierAt f h,
          if identifierAt f h = 1 then byteAt f (h + auxiliarySize (identifierAt f h) - 1) else 0,
          (byteAt f h >>> 5) &&& 1, h, auxiliarySize (identifierAt f h),
          f.length - h - auxiliarySize (identifierAt f h) - 4⟩ := by
        rw [hlast, hext _ hx]
        rfl
      have hsel := selected_iff layer t (identifierAt f h)
      have hx : byteAt f h &&& 0x20 ≠ 0 := hx
      unfold inspect
      rw [hh]
      simp only [hident, eq_true hx, if_true, hsize, ← hmeta]
      constructor
      · intro hi
        split at hi
        · cases hi
        rename_i hbit
        split at hi
        · cases hi
        split at hi
        · cases hi
        rename_i hroom
        split at hi
        · cases hi
        rename_i hcounter
        split at hi
        · cases hi
        rename_i hnwk
        split at hi
        · cases hi
        rename_i haps
        cases hi
        simp only [not_or, not_not, Nat.not_lt] at hroom
        exact ⟨h, rfl, hbit, hx, hroom.1, hroom.2, hcounter, hsel.1 ⟨hnwk, haps⟩, rfl⟩
      · rintro ⟨h', hh', hbit, -, hc, hroom, hcounter, hs, rfl⟩
        cases hh'
        obtain ⟨hnwk, haps⟩ := hsel.2 hs
        have hlen : ¬ f.length < h + 5 := by
          unfold auxiliarySize at hroom
          split at hroom <;> omega
        have hroom' : ¬ (byteAt f h &&& 0xC0 ≠ 0 ∨ f.length < h + auxiliarySize (identifierAt f h) + 4) := by
          simp only [not_or, not_not, Nat.not_lt]
          exact ⟨hc, hroom⟩
        rw [if_neg hbit, if_neg hlen, if_neg hroom', if_neg hcounter, if_neg hnwk, if_neg haps]

/-! What is sealed. -/

/-- The header with the layer's security bit set. -/
def marked (layer : Layer) (frame : Bytes) (h : Nat) : Bytes :=
  (put frame (securityIndex layer) (byteAt frame (securityIndex layer) ||| securityBit layer)).take h

/-- The header with it cleared. -/
def unmarked (layer : Layer) (frame : Bytes) (h : Nat) : Bytes :=
  (put frame (securityIndex layer) (byteAt frame (securityIndex layer) &&& ~~~ securityBit layer)).take h

/-- A key that sends with a counter, in a frame of a type. -/
def Sends (layer : Layer) (key : Key) (type : UInt8) : Prop :=
  (key.level = 5 ∧ key.extendedNonce = 1) ∧ selects layer key = true ∧ key.counter ≠ 0xFFFFFFFF ∧
    ¬ (layer = .aps ∧ type ≠ apsCommand ∧ key.keyIdentifier ≠ 0)

theorem sealFrame_ok {aes : Aes} {layer : Layer} {key : Key} {frame : Bytes} {capacity : Nat} {out : Bytes} :
    sealFrame aes layer key frame capacity = .ok out ↔ ∃ h type text, header layer frame = .ok (h, type) ∧
      byteAt frame (securityIndex layer) &&& securityBit layer = 0 ∧ Sends layer key type ∧
      h + auxiliarySize key.keyIdentifier + (frame.length - h) + 4 ≤ maxBody layer ∧
      badSize layer type (frame.length - h) = false ∧
      h + auxiliarySize key.keyIdentifier + (frame.length - h) + 4 ≤ capacity ∧
      CcmStar.crypt aes false key.key (nonce key.source (marked layer frame h ++ auxiliary key 5) h)
        (marked layer frame h ++ auxiliary key 5) (frame.drop h) 4 116 key.limits = .ok text ∧
      out = put (marked layer frame h ++ auxiliary key 5) h
        (byteAt (marked layer frame h ++ auxiliary key 5) h &&& 0xF8) ++ text := by
  have haux : [(0x25 : UInt8) ||| (key.keyIdentifier <<< 3)] ++ put32 key.counter ++ key.source.toList ++
      (if key.keyIdentifier = 1 then [key.keySequence] else []) = auxiliary key 5 := rfl
  have hsize : (if key.keyIdentifier = 1 then 14 else 13) = auxiliarySize key.keyIdentifier := rfl
  constructor
  · intro hs
    cases layer
    all_goals
      unfold sealFrame at hs
      split at hs
      · cases hs
      rename_i hlevel
      split at hs
      · cases hs
      rename_i hselects
      split at hs
      · cases hs
      rename_i h type hh
      simp only [haux, hsize] at hs
      split at hs
      · cases hs
      rename_i hbit
      split at hs
      · cases hs
      rename_i hcounter
      split at hs
      · cases hs
      rename_i hkind
      split at hs
      · cases hs
      rename_i hmax
      split at hs
      · cases hs
      rename_i hbad
      split at hs
      · cases hs
      rename_i hcap
      split at hs
      · cases hs
      rename_i text hcrypt
      cases hs
      simp only [not_or, not_not] at hlevel
      exact ⟨h, type, text, hh, not_not.1 hbit, ⟨hlevel, by simpa using hselects, hcounter, by simpa using hkind⟩,
        Nat.le_of_not_lt hmax, Bool.eq_false_iff.2 hbad, Nat.le_of_not_lt hcap, hcrypt, rfl⟩
  · rintro ⟨h, type, text, hh, hbit, ⟨hlevel, hselects, hcounter, hkind⟩, hmax, hbad, hcap, hcrypt, rfl⟩
    have hlevel' : ¬ (key.level ≠ 5 ∨ key.extendedNonce ≠ 1) := by
      simp only [not_or, not_not]
      exact hlevel
    cases layer
    all_goals
      simp only [maxBody] at hmax
      unfold sealFrame
      rw [if_neg hlevel', if_neg (by simp [hselects]), hh]
      simp only [haux, hsize]
      rw [if_neg (not_not_intro hbit), if_neg hcounter, if_neg (by simpa using hkind), if_neg (Nat.not_lt.2 hmax),
        if_neg (Bool.eq_false_iff.1 hbad), if_neg (Nat.not_lt.2 hcap)]
      unfold marked at hcrypt ⊢
      rw [hcrypt]

/-- What is opened, and what comes out of it. -/
theorem openFrame_ok {aes : Aes} {layer : Layer} {key : Key} {frame : Bytes} {capacity : Nat} {out : Bytes} :
    openFrame aes layer key frame capacity = .ok out ↔ ∃ m type text, inspect layer frame = .ok (m, type) ∧
      (key.level = 5 ∧ key.extendedNonce = 1) ∧ selects layer key = true ∧
      (m.keyIdentifier = key.keyIdentifier ∧ (key.keyIdentifier = 1 → m.keySequence = key.keySequence) ∧
        m.source = key.source) ∧
      badSize layer type m.payloadLength = false ∧ m.headerLength + m.payloadLength ≤ capacity ∧
      CcmStar.crypt aes true key.key
        (nonce key.source (put frame m.headerLength ((byteAt frame m.headerLength &&& 0xF8) ||| 5)) m.headerLength)
        ((put frame m.headerLength ((byteAt frame m.headerLength &&& 0xF8) ||| 5)).take
          (m.headerLength + m.auxiliaryLength))
        ((put frame m.headerLength ((byteAt frame m.headerLength &&& 0xF8) ||| 5)).drop
          (m.headerLength + m.auxiliaryLength)) 4 116 key.limits = .ok text ∧
      out = unmarked layer (put frame m.headerLength ((byteAt frame m.headerLength &&& 0xF8) ||| 5)) m.headerLength ++
        text := by
  unfold openFrame
  constructor
  · intro ho
    split at ho
    · cases ho
    rename_i hlevel
    split at ho
    · cases ho
    rename_i hselects
    split at ho
    · cases ho
    rename_i m type hi
    split at ho
    · cases ho
    rename_i hsource
    split at ho
    · cases ho
    rename_i hbad
    split at ho
    · cases ho
    rename_i hcap
    simp only at ho
    split at ho
    · cases ho
    rename_i text hcrypt
    cases ho
    simp only [not_or, not_not, not_and] at hlevel hsource
    exact ⟨m, type, text, hi, hlevel, by simpa using hselects, hsource, Bool.eq_false_iff.2 hbad, Nat.le_of_not_lt hcap,
      hcrypt, rfl⟩
  · rintro ⟨m, type, text, hi, hlevel, hselects, hsource, hbad, hcap, hcrypt, rfl⟩
    have hlevel' : ¬ (key.level ≠ 5 ∨ key.extendedNonce ≠ 1) := by
      simp only [not_or, not_not]
      exact hlevel
    have hsource' : ¬ (m.keyIdentifier ≠ key.keyIdentifier ∨
        (key.keyIdentifier = 1 ∧ m.keySequence ≠ key.keySequence) ∨ m.source ≠ key.source) := by
      simp only [not_or, not_not, not_and]
      exact hsource
    rw [if_neg hlevel', if_neg (by simp [hselects]), hi]
    simp only
    rw [if_neg hsource', if_neg (Bool.eq_false_iff.1 hbad), if_neg (Nat.not_lt.2 hcap), hcrypt]
    rfl

/-! Frames put together from their parts. -/

theorem byteAt_put (f : Bytes) {i : Nat} (h : i < f.length) (v : UInt8) (j : Nat) :
    byteAt (put f i v) j = if j = i then v else byteAt f j := by
  unfold put byteAt
  simp only [List.getD_eq_getElem?_getD, List.getElem?_set]
  by_cases hj : i = j
  · subst hj
    simp [h]
  · rw [if_neg hj, if_neg (Ne.symm hj)]

theorem byteAt_take (f : Bytes) {h j : Nat} (hj : j < h) : byteAt (f.take h) j = byteAt f j := by
  simp [byteAt, List.getD, hj]

theorem byteAt_left {s : Bytes} {j : Nat} (h : j < s.length) (t : Bytes) : byteAt (s ++ t) j = byteAt s j := by
  simp [byteAt, List.getD, List.getElem?_append_left h]

theorem put_length (f : Bytes) (i : Nat) (v : UInt8) : (put f i v).length = f.length := List.length_set

theorem marked_length (layer : Layer) {f : Bytes} {h : Nat} (hf : h ≤ f.length) : (marked layer f h).length = h := by
  unfold marked
  rw [List.length_take, put_length, Nat.min_eq_left hf]

theorem unmarked_length (layer : Layer) {f : Bytes} {h : Nat} (hf : h ≤ f.length) :
    (unmarked layer f h).length = h := by
  unfold unmarked
  rw [List.length_take, put_length, Nat.min_eq_left hf]

theorem byteAt_marked (layer : Layer) {f : Bytes} {h j : Nat} (hi : securityIndex layer < h) (hf : h ≤ f.length)
    (hj : j < h) : byteAt (marked layer f h) j =
      if j = securityIndex layer then byteAt f (securityIndex layer) ||| securityBit layer else byteAt f j := by
  unfold marked
  rw [byteAt_take _ hj, byteAt_put f (by omega)]

theorem byteAt_unmarked (layer : Layer) {f : Bytes} {h j : Nat} (hi : securityIndex layer < h) (hf : h ≤ f.length)
    (hj : j < h) : byteAt (unmarked layer f h) j =
      if j = securityIndex layer then byteAt f (securityIndex layer) &&& ~~~ securityBit layer else byteAt f j := by
  unfold unmarked
  rw [byteAt_take _ hj, byteAt_put f (by omega)]

/-- Setting, clearing and testing a layer's bit. -/
theorem security_bits (layer : Layer) : ∀ b : UInt8,
    (b ||| securityBit layer) &&& ~~~ securityBit layer = b &&& ~~~ securityBit layer ∧
    (b &&& ~~~ securityBit layer) &&& ~~~ securityBit layer = b &&& ~~~ securityBit layer ∧
    (b ||| securityBit layer) &&& securityBit layer ≠ 0 ∧ (b &&& ~~~ securityBit layer) &&& securityBit layer = 0 ∧
    (b &&& securityBit layer = 0 → b &&& ~~~ securityBit layer = b) ∧
    (b &&& securityBit layer ≠ 0 → (b &&& ~~~ securityBit layer) ||| securityBit layer = b) := by
  cases layer <;> decide

/-- Two strings with the same front. -/
theorem take_congr {s t : Bytes} {n : Nat} (hs : n ≤ s.length) (ht : n ≤ t.length)
    (h : ∀ j, j < n → byteAt s j = byteAt t j) : s.take n = t.take n := by
  have hd := slice_congr hs ht fun j (_ : 0 ≤ j) hj => h j hj
  simpa using hd

/-- The header of a frame, marked and unmarked again. -/
theorem unmarked_marked (layer : Layer) {f : Bytes} {h : Nat} (hi : securityIndex layer < h) (hf : h ≤ f.length)
    (hb : byteAt f (securityIndex layer) &&& securityBit layer = 0) (rest : Bytes) :
    unmarked layer (marked layer f h ++ rest) h = f.take h := by
  obtain ⟨h1, -, -, -, h5, -⟩ := security_bits layer (byteAt f (securityIndex layer))
  have hm := marked_length layer hf
  have hl : h ≤ (marked layer f h ++ rest).length := by
    rw [List.length_append, hm]
    exact Nat.le_add_right ..
  have ht : (unmarked layer (marked layer f h ++ rest) h).take h = f.take h := by
    apply take_congr (unmarked_length layer hl).ge hf
    intro j hj
    rw [byteAt_unmarked layer hi hl hj, byteAt_left (by rw [hm]; exact hi), byteAt_left (by rw [hm]; exact hj),
      byteAt_marked layer hi hf hi, byteAt_marked layer hi hf hj, if_pos rfl, h1, h5 hb]
    split
    · rename_i he
      rw [he]
    · rfl
  rw [← ht, List.take_of_length_le (unmarked_length layer hl).le]

/-- The header of a marked frame, unmarked and marked again. -/
theorem marked_unmarked (layer : Layer) {f : Bytes} {h : Nat} (hi : securityIndex layer < h) (hf : h ≤ f.length)
    (hb : byteAt f (securityIndex layer) &&& securityBit layer ≠ 0) (rest : Bytes) :
    marked layer (unmarked layer f h ++ rest) h = f.take h := by
  obtain ⟨-, -, -, -, -, h6⟩ := security_bits layer (byteAt f (securityIndex layer))
  have hm := unmarked_length layer hf
  have hl : h ≤ (unmarked layer f h ++ rest).length := by
    rw [List.length_append, hm]
    exact Nat.le_add_right ..
  have ht : (marked layer (unmarked layer f h ++ rest) h).take h = f.take h := by
    apply take_congr (marked_length layer hl).ge hf
    intro j hj
    rw [byteAt_marked layer hi hl hj, byteAt_left (by rw [hm]; exact hi), byteAt_left (by rw [hm]; exact hj),
      byteAt_unmarked layer hi hf hi, byteAt_unmarked layer hi hf hj, if_pos rfl, h6 hb]
    split
    · rename_i he
      rw [he]
    · rfl
  rw [← ht, List.take_of_length_le (marked_length layer hl).le]

theorem alike_marked (layer : Layer) {f : Bytes} {h : Nat} (hi : securityIndex layer < h) (hf : h ≤ f.length)
    (rest : Bytes) : Alike layer h f (marked layer f h ++ rest) := by
  obtain ⟨h1, -⟩ := security_bits layer (byteAt f (securityIndex layer))
  have hm := marked_length layer hf
  refine ⟨hf, by rw [List.length_append, hm]; exact Nat.le_add_right .., ?_, ?_⟩
  · rw [byteAt_left (by rw [hm]; exact hi), byteAt_marked layer hi hf hi, if_pos rfl, h1]
  · intro j hj hne
    rw [byteAt_left (by rw [hm]; exact hj), byteAt_marked layer hi hf hj, if_neg hne]

theorem alike_unmarked (layer : Layer) {f : Bytes} {h : Nat} (hi : securityIndex layer < h) (hf : h ≤ f.length)
    (rest : Bytes) : Alike layer h f (unmarked layer f h ++ rest) := by
  obtain ⟨-, h2, -⟩ := security_bits layer (byteAt f (securityIndex layer))
  have hm := unmarked_length layer hf
  refine ⟨hf, by rw [List.length_append, hm]; exact Nat.le_add_right .., ?_, ?_⟩
  · rw [byteAt_left (by rw [hm]; exact hi), byteAt_unmarked layer hi hf hi, if_pos rfl, h2]
  · intro j hj hne
    rw [byteAt_left (by rw [hm]; exact hj), byteAt_unmarked layer hi hf hj, if_neg hne]

/-! The parts of a protected frame. -/

theorem auxiliarySize_bounds (identifier : UInt8) : 13 ≤ auxiliarySize identifier ∧ auxiliarySize identifier ≤ 14 := by
  unfold auxiliarySize
  split <;> omega

theorem auxiliary_cons (key : Key) (low low' : UInt8) :
    controlOctet low' key.keyIdentifier :: (auxiliary key low).tail = auxiliary key low' := rfl

/-- The auxiliary header reads back from behind the header. -/
theorem auxiliary_read {front : Bytes} {h : Nat} (hf : front.length = h) (key : Key) (low : UInt8) (rest : Bytes) :
    byteAt (front ++ auxiliary key low ++ rest) h = controlOctet low key.keyIdentifier ∧
      u32At (front ++ auxiliary key low ++ rest) (h + 1) = key.counter ∧
      fieldAt (front ++ auxiliary key low ++ rest) (h + 5) 8 = key.source ∧
      (key.keyIdentifier = 1 → byteAt (front ++ auxiliary key low ++ rest) (h + 13) = key.keySequence) := by
  have hshape : front ++ auxiliary key low ++ rest = (front ++ [controlOctet low key.keyIdentifier]) ++
      (put32 key.counter ++ (key.source.toList ++ ((if key.keyIdentifier = 1 then [key.keySequence] else []) ++ rest))) := by
    unfold auxiliary
    simp only [List.append_assoc]
  have h1 : (front ++ [controlOctet low key.keyIdentifier]).length = h + 1 := by
    rw [List.length_append, hf]
    rfl
  rw [hshape]
  refine ⟨?_, ?_, ?_, fun hi => ?_⟩
  · rw [byteAt_left (by omega), byteAt_skip front _ h hf.le, hf, Nat.sub_self]
    rfl
  · rw [u32At_skip _ _ _ h1.le, h1, Nat.sub_self]
    exact u32At_here key.counter _
  · rw [fieldAt_skip _ _ _ _ (by omega), h1, show h + 5 - (h + 1) = 4 by omega, fieldAt_skip _ _ _ _ (by simp),
      put32_length, Nat.sub_self]
    exact fieldAt_here key.source _
  · rw [byteAt_skip _ _ _ (by omega), h1, show h + 13 - (h + 1) = 12 by omega, byteAt_skip _ _ _ (by simp), put32_length,
      byteAt_skip _ _ _ (by simp), Vector.length_toList, if_pos hi]
    rfl

/-- Putting another control octet in. -/
theorem put_auxiliary {front : Bytes} {h : Nat} (hf : front.length = h) (key : Key) (low low' : UInt8) (rest : Bytes) :
    put (front ++ auxiliary key low ++ rest) h (controlOctet low' key.keyIdentifier) =
      front ++ auxiliary key low' ++ rest := by
  rw [put_control hf, auxiliary_cons]

/-- A frame whose auxiliary header names a key is made of it. -/
theorem auxiliary_of_read {f : Bytes} {h : Nat} {key : Key} (hx : byteAt f h &&& 0x20 ≠ 0) (hc : byteAt f h &&& 0xC0 = 0)
    (hroom : h + auxiliarySize (identifierAt f h) ≤ f.length) (hid : identifierAt f h = key.keyIdentifier)
    (hseq : key.keyIdentifier = 1 → byteAt f (h + 13) = key.keySequence) (hsrc : fieldAt f (h + 5) 8 = key.source)
    (hctr : u32At f (h + 1) = key.counter) :
    put f h ((byteAt f h &&& 0xF8) ||| 5) =
        f.take h ++ auxiliary key 5 ++ f.drop (h + auxiliarySize key.keyIdentifier) ∧
      put f h (byteAt f h &&& 0xF8) =
        f.take h ++ auxiliary key 0 ++ f.drop (h + auxiliarySize key.keyIdentifier) := by
  obtain ⟨h0, h5⟩ := controlOctet_read (byteAt f h) hx hc
  have hb := auxiliarySize_bounds (identifierAt f h)
  rw [hid] at hroom hb
  have hctl : (byteAt f h >>> 3) &&& 3 = key.keyIdentifier := hid
  rw [hctl] at h0 h5
  have hlt : h < f.length := by omega
  have hput (v : UInt8) : put f h v = f.take h ++ v :: f.drop (h + 1) := by
    unfold put
    rw [List.set_eq_take_append_cons_drop, if_pos hlt]
  have htail (low : UInt8) : f.drop (h + 1) = (auxiliary key low).tail ++ f.drop (h + auxiliarySize key.keyIdentifier) := by
    have hsplit (i n : Nat) : f.drop i = (f.drop i).take n ++ f.drop (i + n) := by
      rw [← List.drop_drop, List.take_append_drop]
    have hcounter : put32 key.counter = (f.drop (h + 1)).take 4 := by
      rw [← hctr]
      exact put32_u32At f (h + 1) (by omega)
    have hsource : key.source.toList = (f.drop (h + 5)).take 8 := by
      rw [← hsrc]
      exact fieldAt_toList f (h + 5) 8 (by omega)
    have hlast : (if key.keyIdentifier = 1 then [key.keySequence] else []) ++
        f.drop (h + auxiliarySize key.keyIdentifier) = f.drop (h + 13) := by
      unfold auxiliarySize at hroom ⊢
      split
      · rename_i hi
        rw [if_pos hi] at hroom
        rw [← hseq hi, byteAt_toList f (h + 13) (by omega)]
        exact (hsplit (h + 13) 1).symm
      · rfl
    have haux : (auxiliary key low).tail = put32 key.counter ++ (key.source.toList ++
        (if key.keyIdentifier = 1 then [key.keySequence] else [])) := by
      unfold auxiliary
      simp only [List.append_assoc]
      rfl
    rw [haux, List.append_assoc, List.append_assoc, hlast, hcounter, hsource, ← hsplit (h + 5) 8, ← hsplit (h + 1) 4]
  rw [h5, h0, hput, hput]
  constructor
  · rw [htail 5, ← auxiliary_cons key 5 5]
    simp
  · rw [htail 0, ← auxiliary_cons key 0 0]
    simp

/-! Sealing and opening. -/

theorem crypt_usable {aes : Aes} {opening : Bool} {key : Block} {nonce : Vector UInt8 13} {aad input out : Bytes}
    {n capacity : Nat} {limits : Limits} (h : crypt aes opening key nonce aad input n capacity limits = .ok out) :
    limits.usable = true := by
  unfold crypt at h
  split at h
  · cases h
  · rename_i hu
    simpa using hu

theorem maxBody_le (layer : Layer) : maxBody layer ≤ 116 := by
  cases layer <;> decide

theorem tagLength4 : TagLength 4 := .inl rfl

/-- Opening a message of any tag that stands: the tag is its own, and sealing gives the octets back. -/
theorem crypt_accepts {E : Block → Block → Block} {key : Block} {nonce : Vector UInt8 13} {aad input out : Bytes}
    {limits : Limits} (ha : aad.length ≤ maxAad) (hm : input.length ≤ 116) (h4 : 4 ≤ input.length)
    (h : crypt (cipher E) true key nonce aad input 4 116 limits = .ok out) :
    CcmMode.sealMessage (E key) nonce aad out 4 = input ∧ out.length + 4 = input.length := by
  have hu := crypt_usable h
  obtain ⟨c, t, ht, rfl⟩ : ∃ c t : Bytes, t.length = 4 ∧ input = c ++ t :=
    ⟨input.take (input.length - 4), input.drop (input.length - 4), by rw [List.length_drop]; omega,
      (List.take_append_drop _ input).symm⟩
  have hlen : (CcmMode.cipherText (E key) nonce c).length = c.length := CcmMode.cipherText_length nonce c
  have hback : CcmMode.cipherText (E key) nonce (CcmMode.cipherText (E key) nonce c) = c :=
    CcmMode.cipherText_cipherText nonce c
  rw [List.length_append, ht] at hm
  have hopen := @crypt_open E key nonce aad (CcmMode.cipherText (E key) nonce c) t 4 116 limits hu tagLength4 ha
    (by rw [hlen, maxMessage]; omega) (by rw [hlen]; omega) ht
  rw [hback, h] at hopen
  split at hopen
  · rename_i htag
    cases hopen
    refine ⟨?_, by rw [hlen, List.length_append, ht]⟩
    rw [CcmMode.sealMessage, htag, hback]
  · cases hopen

/-- The shape of a sealed frame. -/
theorem seal_shape {E : Block → Block → Block} {layer : Layer} {key : Key} {frame out : Bytes} {capacity : Nat}
    (hs : sealFrame (cipher E) layer key frame capacity = .ok out) :
    ∃ h type, header layer frame = .ok (h, type) ∧ byteAt frame (securityIndex layer) &&& securityBit layer = 0 ∧
      Sends layer key type ∧ h + auxiliarySize key.keyIdentifier + (frame.length - h) + 4 ≤ maxBody layer ∧
      badSize layer type (frame.length - h) = false ∧ key.limits.usable = true ∧
      out = marked layer frame h ++ auxiliary key 0 ++ CcmMode.sealMessage (E key.key)
        (nonce key.source (marked layer frame h ++ auxiliary key 5) h) (marked layer frame h ++ auxiliary key 5)
        (frame.drop h) 4 := by
  obtain ⟨h, type, text, hh, hbit, hsends, hmax, hbad, -, hcrypt, rfl⟩ := sealFrame_ok.1 hs
  have hu := crypt_usable hcrypt
  obtain ⟨hi, h24, hf, -⟩ := header_bounds hh
  have hfront := marked_length layer hf
  have hbound := maxBody_le layer
  have hsize := auxiliarySize_bounds key.keyIdentifier
  rw [@crypt_seal E key.key _ _ _ 4 116 key.limits hu tagLength4
    (by rw [List.length_append, hfront, auxiliary_size, maxAad]; omega)
    (by rw [List.length_drop, maxMessage]; omega) (by rw [List.length_drop]; omega)] at hcrypt
  cases hcrypt
  refine ⟨h, type, hh, hbit, hsends, hmax, hbad, hu, ?_⟩
  have hctl := (auxiliary_read hfront key 5 []).1
  have hput := put_auxiliary hfront key 5 0 []
  rw [List.append_nil] at hctl
  rw [List.append_nil, List.append_nil] at hput
  rw [hctl, (controlOctet_fields (.inr rfl) (selects_le hsends.2.1)).2.2.2.2, hput]

/-- The nonce is read in front of the payload. -/
theorem nonce_append (source : Ieee) {w : Bytes} {h : Nat} (hw : h + 5 ≤ w.length) (rest : Bytes) :
    nonce source (w ++ rest) h = nonce source w h := by
  apply nonce_congr source (by rw [List.length_append]; omega) hw
  intro j _ hj
  exact byteAt_left (by omega) rest

/-- A key that is selected and may send in a frame is one the layer lets a frame name. -/
theorem Sends.selected {layer : Layer} {key : Key} {type : UInt8} (h : Sends layer key type) :
    Selected layer type key.keyIdentifier := by
  obtain ⟨-, hselects, -, hkind⟩ := h
  cases layer with
  | nwk =>
    have he : key.keyIdentifier = 1 := by simpa [selects] using hselects
    exact he
  | aps =>
    have hne : key.keyIdentifier ≠ 1 ∧ key.keyIdentifier ≤ 3 := by simpa [selects] using hselects
    exact ⟨hne.1, fun ht => by simpa [ht] using hkind⟩

/-- What a frame on the air says of itself. -/
theorem metaAt_sealed {front : Bytes} {h : Nat} (hf : front.length = h) {key : Key} (hle : key.keyIdentifier ≤ 3)
    (text : Bytes) :
    (metaAt (front ++ auxiliary key 0 ++ text) h).keyIdentifier = key.keyIdentifier ∧
      (key.keyIdentifier = 1 → (metaAt (front ++ auxiliary key 0 ++ text) h).keySequence = key.keySequence) ∧
      (metaAt (front ++ auxiliary key 0 ++ text) h).source = key.source ∧
      (metaAt (front ++ auxiliary key 0 ++ text) h).auxiliaryLength = auxiliarySize key.keyIdentifier ∧
      (metaAt (front ++ auxiliary key 0 ++ text) h).payloadLength = text.length - 4 := by
  obtain ⟨hctl, -, hsrc, hseq⟩ := auxiliary_read hf key 0 text
  obtain ⟨-, -, hident, -, -⟩ := controlOctet_fields (.inl rfl) hle
  have hid : identifierAt (front ++ auxiliary key 0 ++ text) h = key.keyIdentifier := by
    rw [identifierAt, hctl, hident]
  refine ⟨hid, fun h1 => ?_, hsrc, congrArg auxiliarySize hid, ?_⟩
  · have hs : (metaAt (front ++ auxiliary key 0 ++ text) h).keySequence =
        byteAt (front ++ auxiliary key 0 ++ text) (h + 13) := if_pos (hid.trans h1)
    exact hs.trans (hseq h1)
  · unfold metaAt
    simp only [hid, List.length_append, hf, auxiliary_size]
    omega

/-- A frame on the air is accepted for inspection. -/
theorem inspect_sealed {layer : Layer} {key : Key} {frame : Bytes} {h : Nat} {type : UInt8}
    (hh : header layer frame = .ok (h, type)) (hs : Sends layer key type) {text : Bytes} (h4 : 4 ≤ text.length)
    (hmax : h + auxiliarySize key.keyIdentifier + text.length ≤ maxBody layer) :
    inspect layer (marked layer frame h ++ auxiliary key 0 ++ text) =
      .ok (metaAt (marked layer frame h ++ auxiliary key 0 ++ text) h, type) := by
  obtain ⟨hi, -, hf, -⟩ := header_bounds hh
  have hfront := marked_length layer hf
  obtain ⟨hctl, hctr, -, -⟩ := auxiliary_read hfront key 0 text
  obtain ⟨hx, hc, hident, -, -⟩ := controlOctet_fields (.inl rfl) (selects_le hs.2.1)
  have hid : identifierAt (marked layer frame h ++ auxiliary key 0 ++ text) h = key.keyIdentifier := by
    rw [identifierAt, hctl, hident]
  have hlen : (marked layer frame h ++ auxiliary key 0 ++ text).length =
      h + auxiliarySize key.keyIdentifier + text.length := by
    rw [List.length_append, List.length_append, hfront, auxiliary_size]
  have hread : header layer (marked layer frame h ++ auxiliary key 0 ++ text) = .ok (h, type) := by
    apply header_alike hh
    · rw [List.append_assoc]
      exact alike_marked layer hi hf _
    · rw [hlen]
      exact hmax
  have hset : byteAt (marked layer frame h ++ auxiliary key 0 ++ text) (securityIndex layer) &&& securityBit layer ≠ 0 := by
    rw [List.append_assoc, byteAt_left (by rw [hfront]; exact hi), byteAt_marked layer hi hf hi, if_pos rfl]
    exact (security_bits layer _).2.2.1
  apply inspect_ok.2
  exact ⟨h, hread, hset, by rw [hctl]; exact hx, by rw [hctl]; exact hc, by rw [hid, hlen]; omega,
    by rw [hctr]; exact hs.2.2.1, by rw [hid]; exact hs.selected, rfl⟩

/-- A frame that is sealed opens to itself, for every block function. -/
theorem open_seal {E : Block → Block → Block} {layer : Layer} {key : Key} {frame out : Bytes} {capacity room : Nat}
    (hs : sealFrame (cipher E) layer key frame capacity = .ok out) (hroom : frame.length ≤ room) :
    openFrame (cipher E) layer key out room = .ok frame := by
  obtain ⟨h, type, hh, hbit, hsends, hmax, hbad, hu, rfl⟩ := seal_shape hs
  obtain ⟨hi, h24, hf, -⟩ := header_bounds hh
  have hfront := marked_length layer hf
  have hbound := maxBody_le layer
  have hsize := auxiliarySize_bounds key.keyIdentifier
  have hle := selects_le hsends.2.1
  generalize hW : marked layer frame h ++ auxiliary key 5 = W
  generalize hn : nonce key.source W h = n
  have htag : (CcmMode.tag (E key.key) n W (frame.drop h) 4).length = 4 :=
    CcmMode.tag_length n W (frame.drop h) 4 (by decide)
  generalize htext : CcmMode.sealMessage (E key.key) n W (frame.drop h) 4 = text
  have htl : text.length = frame.length - h + 4 := by
    rw [← htext, CcmMode.sealMessage, List.length_append, htag, CcmMode.cipherText_length, List.length_drop]
  have hWl : W.length = h + auxiliarySize key.keyIdentifier := by
    rw [← hW, List.length_append, hfront, auxiliary_size]
  obtain ⟨hid, hseq, hsrc, haux, hp⟩ := metaAt_sealed hfront hle text
  have hctl := (auxiliary_read hfront key 0 text).1
  have hput : put (marked layer frame h ++ auxiliary key 0 ++ text) h
      ((byteAt (marked layer frame h ++ auxiliary key 0 ++ text) h &&& 0xF8) ||| 5) = W ++ text := by
    rw [hctl, (controlOctet_fields (.inl rfl) hle).2.2.2.1, put_auxiliary hfront, hW]
  have hp' : (metaAt (marked layer frame h ++ auxiliary key 0 ++ text) h).payloadLength = frame.length - h := by
    rw [hp, htl, Nat.add_sub_cancel]
  have hhead : (metaAt (marked layer frame h ++ auxiliary key 0 ++ text) h).headerLength = h := rfl
  apply openFrame_ok.2
  refine ⟨metaAt (marked layer frame h ++ auxiliary key 0 ++ text) h, type, frame.drop h,
    inspect_sealed hh hsends (by omega) (by omega), hsends.1, hsends.2.1, ⟨hid, hseq, hsrc⟩, by rw [hp']; exact hbad,
    by rw [hhead, hp']; omega, ?_, ?_⟩
  · -- The octets in front of the payload are the ones that were authenticated.
    rw [hhead, haux, hput, nonce_append _ (by rw [hWl]; omega), hn, ← hWl, List.take_left' rfl, List.drop_left' rfl, ← htext,
      CcmMode.sealMessage, @crypt_open E key.key n W (frame.drop h) _ 4 116 key.limits hu tagLength4
        (by rw [hWl, maxAad]; omega) (by rw [List.length_drop, maxMessage]; omega) (by rw [List.length_drop]; omega) htag,
      if_pos rfl]
  · rw [hhead, hput, ← hW, List.append_assoc, unmarked_marked layer hi hf hbit, List.take_append_drop]

/-- A network key and a frame it protects. -/
def sampleKey : Key :=
  ⟨zeroBlock, Vector.replicate 8 3, 5, 5, 1, 2, 1, ⟨1, 1⟩⟩

def sampleFrame : Bytes := [0x48, 0, 1, 0, 2, 0, 30, 9, 0xAA]

theorem open_seal_sample : ∃ out, sealFrame (cipher xor) .nwk sampleKey sampleFrame 35 = .ok out ∧
    openFrame (cipher xor) .nwk sampleKey out 9 = .ok sampleFrame := by
  cases h : sealFrame (cipher xor) .nwk sampleKey sampleFrame 35 with
  | error e =>
    have hok : (sealFrame (cipher xor) .nwk sampleKey sampleFrame 35).isOk = true := by decide +kernel
    rw [h] at hok
    cases hok
  | ok out => exact ⟨out, rfl, open_seal h (by decide)⟩

/-- A protected frame's header, unmarked in front of another payload. -/
theorem header_unmarked {layer : Layer} {frame : Bytes} {h : Nat} {type : UInt8}
    (hh : header layer frame = .ok (h, type)) (hbit : byteAt frame (securityIndex layer) &&& securityBit layer ≠ 0)
    (rest : Bytes) {text : Bytes} (hmax : h + text.length ≤ maxBody layer) {out : Bytes}
    (ho : out = unmarked layer (frame.take h ++ rest) h ++ text) :
    header layer out = .ok (h, type) ∧ byteAt out (securityIndex layer) &&& securityBit layer = 0 ∧
      marked layer out h = frame.take h ∧ out.drop h = text ∧ out.length - h = text.length := by
  obtain ⟨hi, -, hf, -⟩ := header_bounds hh
  have hfl : (frame.take h).length = h := List.length_take_of_le hf
  have hfront (j : Nat) (hj : j < h) : byteAt (frame.take h ++ rest) j = byteAt frame j := by
    rw [byteAt_left (by rw [hfl]; exact hj), byteAt_take frame hj]
  have hlen : h ≤ (frame.take h ++ rest).length := by
    rw [List.length_append, hfl]
    exact Nat.le_add_right ..
  have hum := unmarked_length layer hlen
  subst ho
  refine ⟨?_, ?_, ?_, List.drop_left' hum, by rw [List.length_append, hum, Nat.add_sub_cancel_left]⟩
  · obtain ⟨-, hr, hm, hothers⟩ := alike_unmarked layer hi hlen text
    rw [hfront _ hi] at hm
    apply header_alike hh ⟨hf, hr, hm, fun j hj hne => (hfront j hj).symm.trans (hothers j hj hne)⟩
    rw [List.length_append, hum]
    exact hmax
  · rw [byteAt_left (by rw [hum]; exact hi), byteAt_unmarked layer hi hlen hi, if_pos rfl]
    exact (security_bits layer _).2.2.2.1
  · rw [marked_unmarked layer hi hlen (by rw [hfront _ hi]; exact hbit), List.take_left' hfl]

/-- What opens is the sealing of what comes out, under the counter the frame carries. -/
theorem seal_open {E : Block → Block → Block} {layer : Layer} {key : Key} {frame out : Bytes} {room : Nat}
    (ho : openFrame (cipher E) layer key frame room = .ok out) :
    ∃ h type, header layer frame = .ok (h, type) ∧ ∀ capacity, frame.length ≤ capacity →
      sealFrame (cipher E) layer { key with counter := u32At frame (h + 1) } out capacity =
        .ok (put frame h (byteAt frame h &&& 0xF8)) := by
  obtain ⟨m, type, text, hinspect, hlevel, hselects, ⟨hid, hseq, hsrc⟩, hbad, -, hcrypt, rfl⟩ := openFrame_ok.1 ho
  obtain ⟨h, hh, hbit, hx, hc, hroom, hcounter, hsel, rfl⟩ := inspect_ok.1 hinspect
  obtain ⟨hi, h24, hf, hmax⟩ := header_bounds hh
  have hbound := maxBody_le layer
  refine ⟨h, type, hh, fun capacity hcap => ?_⟩
  -- The key that sends with the counter of the frame.
  obtain ⟨key', hkey⟩ : ∃ k : Key, k = { key with counter := u32At frame (h + 1) } := ⟨_, rfl⟩
  have hkid : key'.keyIdentifier = key.keyIdentifier := by rw [hkey]
  have hid' : identifierAt frame h = key'.keyIdentifier := hid.trans hkid.symm
  have hseq' : key'.keyIdentifier = 1 → byteAt frame (h + 13) = key'.keySequence := by
    intro h1
    have h2 : (metaAt frame h).keySequence = byteAt frame (h + 13) := if_pos (hid'.trans h1)
    rw [← h2, hkey]
    exact hseq (hkid.symm.trans h1)
  have hsize := auxiliarySize_bounds key'.keyIdentifier
  rw [hid'] at hroom
  obtain ⟨hput5, hput0⟩ := @auxiliary_of_read frame h key' hx hc (by rw [hid']; omega) hid' hseq'
    (by rw [hkey]; exact hsrc) (by rw [hkey])
  have hhead : (metaAt frame h).headerLength = h := rfl
  have haux : (metaAt frame h).auxiliaryLength = auxiliarySize key'.keyIdentifier := congrArg auxiliarySize hid'
  have hp : (metaAt frame h).payloadLength = frame.length - h - auxiliarySize key'.keyIdentifier - 4 := by
    rw [← hid']
    rfl
  have hfl : (frame.take h).length = h := List.length_take_of_le hf
  rw [hhead, haux, hput5] at hcrypt
  rw [hhead, hput5, ← hkey, List.append_assoc]
  generalize htail : frame.drop (h + auxiliarySize key'.keyIdentifier) = tail at hcrypt hput0
  have htl : tail.length = frame.length - (h + auxiliarySize key'.keyIdentifier) := by
    rw [← htail, List.length_drop]
  have hWl : (frame.take h ++ auxiliary key' 5).length = h + auxiliarySize key'.keyIdentifier := by
    rw [List.length_append, hfl, auxiliary_size]
  rw [nonce_append _ (by rw [hWl]; omega), ← hWl, List.take_left' rfl, List.drop_left' rfl] at hcrypt
  have hu := crypt_usable hcrypt
  obtain ⟨hseal, hout⟩ := crypt_accepts (by rw [hWl, maxAad]; omega) (by omega) (by omega) hcrypt
  obtain ⟨hread, hclear, hmark, hdrop, hlen⟩ := header_unmarked hh hbit (auxiliary key' 5 ++ tail)
    (show h + text.length ≤ maxBody layer by omega) rfl
  have hle : key'.keyIdentifier ≤ 3 := by
    rw [hkid]
    exact selects_le hselects
  apply sealFrame_ok.2
  refine ⟨h, type, tail, hread, hclear, ⟨by rw [hkey]; exact hlevel, by rw [hkey]; exact hselects,
    by rw [hkey]; exact hcounter, ?_⟩, by rw [hlen]; omega, ?_, by rw [hlen]; omega, ?_, ?_⟩
  · rintro ⟨rfl, ht, hne⟩
    exact hne (hid'.symm.trans (hsel.2 ht))
  · have htext : (metaAt frame h).payloadLength = text.length := by omega
    rw [hlen, ← htext]
    exact hbad
  · have hk : key'.key = key.key ∧ key'.limits = key.limits ∧ key'.source = key.source := by
      rw [hkey]
      exact ⟨rfl, rfl, rfl⟩
    rw [hmark, hdrop, hk.1, hk.2.1, hk.2.2, @crypt_seal E key.key _ _ text 4 116 key.limits hu tagLength4
      (by rw [hWl, maxAad]; omega) (by rw [maxMessage]; omega) (by omega), hseal]
  · have hctl := (auxiliary_read hfl key' 5 []).1
    have hputs := put_auxiliary hfl key' 5 0 []
    rw [List.append_nil] at hctl
    rw [List.append_nil, List.append_nil] at hputs
    rw [hmark, hctl, (controlOctet_fields (.inr rfl) hle).2.2.2.2, hputs, hput0]

/-- The frame on the air, with level bits of its own. -/
def sampleSealed : Bytes :=
  ((sealFrame (cipher xor) .nwk sampleKey sampleFrame 35).toOption.getD []).set 8 0x2D

theorem seal_open_sample : ∃ out, openFrame (cipher xor) .nwk sampleKey sampleSealed 9 = .ok out ∧
    ∃ h type, header .nwk sampleSealed = .ok (h, type) ∧ ∀ capacity, sampleSealed.length ≤ capacity →
      sealFrame (cipher xor) .nwk { sampleKey with counter := u32At sampleSealed (h + 1) } out capacity =
        .ok (put sampleSealed h (byteAt sampleSealed h &&& 0xF8)) := by
  cases h : openFrame (cipher xor) .nwk sampleKey sampleSealed 9 with
  | error e =>
    have hok : (openFrame (cipher xor) .nwk sampleKey sampleSealed 9).isOk = true := by decide +kernel
    rw [h] at hok
    cases hok
  | ok out => exact ⟨out, rfl, seal_open h⟩

end EdWire
