import Cc2530Zigbee.MacFrame
import Cc2530Zigbee.OctetBits

/-!
# MAC frames there and back

A header that passes the shape check determines where each field lies. What is
emitted reads back as the header with its absent fields zero, and what is read
is emitted again octet for octet.
-/
namespace MacFrame

set_option maxRecDepth 8000

open Octets

/-- The octets of an address on the wire. -/
def addressSize (mode : UInt8) : Nat :=
  if mode = addressNone then 0 else if mode = addressShort then 2 else 8

theorem addressSize_le (mode : UInt8) : addressSize mode ≤ 8 := by
  unfold addressSize
  split
  · omega
  · split <;> omega

theorem addressSize_zero (mode : UInt8) : addressSize mode = 0 ↔ mode = addressNone := by
  revert mode
  decide

/-- What a header with a shape is like. -/
structure Shaped (h : Header) (s : Shape) : Prop where
  type : h.type < 4
  version : h.version < 4
  flags : h.flags &&& 0x8F = 0
  destinationMode : h.destinationMode < 4
  sourceMode : h.sourceMode < 4
  compressed : has h.flags panCompression = true → h.destinationMode ≠ addressNone ∧ h.sourceMode ≠ addressNone
  bare : h.type = ack → h.destinationMode = addressNone
  sender : h.type = beacon → h.sourceMode ≠ addressNone
  destinationSize : s.destinationSize = addressSize h.destinationMode
  sourceSize : s.sourceSize = addressSize h.sourceMode
  headerSize : s.headerSize = sourceStart s +
    (if s.sourceSize = 0 then 0 else (if has h.flags panCompression then 0 else 2) + s.sourceSize)

theorem flags_known (f : UInt8) (h : has f security ≠ true)
    (h' : has f (~~~ (pending ||| ackRequest ||| panCompression)) ≠ true) : f &&& 0x8F = 0 := by
  revert f
  decide

theorem flags_uncompressed (f : UInt8) (h : has f (ackRequest ||| panCompression) ≠ true) :
    has f panCompression = false := by
  revert f
  decide

theorem version_small (v : UInt8) (h : ¬ 1 < v) : v < 4 := by
  revert v
  decide

theorem mode_small (m : UInt8) (h : ¬ addressExtended < m) : m < 4 := by
  revert m
  decide

theorem headerShape_shaped {h : Header} {s : Shape} (hs : headerShape h = .ok s) : Shaped h s := by
  unfold headerShape at hs
  split at hs
  · cases hs
  rename_i hversion
  split at hs
  · cases hs
  rename_i hsecurity
  split at hs
  · cases hs
  rename_i hflags
  have hv := version_small h.version fun hv => hversion (.inl hv)
  have hf := flags_known h.flags hsecurity hflags
  split at hs
  · -- beacons
    rename_i ht
    split at hs
    · cases hs
    rename_i hmode
    split at hs
    · cases hs
    rename_i hc
    have hc := flags_uncompressed h.flags hc
    cases hs
    have hd : h.destinationMode = addressNone := by
      by_contra hd
      exact hmode (.inl hd)
    have hm : h.sourceMode = addressShort ∨ h.sourceMode = addressExtended := by
      by_contra hm
      exact hmode (.inr ⟨fun hs => hm (.inl hs), fun hs => hm (.inr hs)⟩)
    rcases hm with hm | hm <;>
      exact ⟨by rw [ht]; decide, hv, hf, by rw [hd]; decide, by rw [hm]; decide, by simp [hc],
        fun _ => hd, fun _ => by rw [hm]; decide, by rw [hd]; rfl, by rw [hm]; rfl,
        by simp [hc, hm, sourceStart]; try decide⟩
  split at hs
  · -- acknowledgments
    rename_i ht
    split at hs
    · cases hs
    rename_i hmode
    cases hs
    obtain ⟨hd, hm, hc⟩ := not_or.1 hmode |>.imp_right not_or.1
    have hd := not_not.1 hd
    have hm := not_not.1 hm
    have hc := flags_uncompressed h.flags hc
    exact ⟨by rw [ht]; decide, hv, hf, by rw [hd]; decide, by rw [hm]; decide, by simp [hc],
      fun _ => hd, fun hb => absurd hb (by rw [ht]; decide), by rw [hd]; rfl, by rw [hm]; rfl, rfl⟩
  rename_i hnb hna
  split at hs
  · cases hs
  rename_i ht
  split at hs
  · cases hs
  rename_i hmode
  split at hs
  · cases hs
  rename_i hboth
  cases hs
  have ht : h.type < 4 := by
    have : h.type = data ∨ h.type = command := by
      by_contra hn
      exact ht ⟨fun hd => hn (.inl hd), fun hc => hn (.inr hc)⟩
    rcases this with ht | ht <;> rw [ht] <;> decide
  obtain ⟨hd, -, hm, -⟩ := not_or.1 hmode |>.imp_right fun h => not_or.1 h |>.imp_right not_or.1
  refine ⟨ht, hv, hf, mode_small _ hd, mode_small _ hm, fun hc => ?_, fun ha => absurd ha hna,
    fun hb => absurd hb hnb, rfl, rfl, ?_⟩
  · exact ⟨fun hn => hboth ⟨.inl hn, .inr (.inl hc)⟩, fun hn => hboth ⟨.inr hn, .inr (.inl hc)⟩⟩
  · simp only [sourceStart]
    generalize (if h.destinationMode = addressNone then 0 else if h.destinationMode = addressShort then 2 else 8) = d
    generalize (if h.sourceMode = addressNone then 0 else if h.sourceMode = addressShort then 2 else 8) = n
    generalize has h.flags panCompression = c
    by_cases hd : d = 0 <;> by_cases hn : n = 0 <;> cases c <;> simp [hd, hn] <;> omega

/-- The sizes of a header. -/
theorem headerSize_small {h : Header} {s : Shape} (hs : Shaped h s) : 3 ≤ s.headerSize ∧ s.headerSize ≤ 23 := by
  have hd := addressSize_le h.destinationMode
  have hm := addressSize_le h.sourceMode
  rw [← hs.destinationSize] at hd
  rw [← hs.sourceSize] at hm
  rw [hs.headerSize, sourceStart]
  split <;> split <;> (try split) <;> omega

/-- The shape is of the control octets alone. -/
theorem headerShape_congr {h h' : Header} (ht : h.type = h'.type) (hv : h.version = h'.version)
    (hf : h.flags = h'.flags) (hd : h.destinationMode = h'.destinationMode) (hs : h.sourceMode = h'.sourceMode) :
    headerShape h = headerShape h' := by
  unfold headerShape
  rw [ht, hv, hf, hd, hs]

/-! Control octets. -/

theorem first_type : ∀ f : UInt8, f &&& 0x8F = 0 → ∀ t : Fin 4, (UInt8.ofNat t ||| f) &&& 7 = UInt8.ofNat t := by
  decide

theorem first_flags : ∀ f : UInt8, f &&& 0x8F = 0 → ∀ t : Fin 4, (UInt8.ofNat t ||| f) &&& 0xF8 = f := by
  decide

/-- The second octet of three fields of two bits. -/
def second (d v m : UInt8) : UInt8 := (d <<< 2) ||| (v <<< 4) ||| (m <<< 6)

theorem second_fields : ∀ d v m : Fin 4,
    let b := second (UInt8.ofNat d) (UInt8.ofNat v) (UInt8.ofNat m)
    (b >>> 2) &&& 3 = UInt8.ofNat d ∧ (b >>> 4) &&& 3 = UInt8.ofNat v ∧ (b >>> 6) &&& 3 = UInt8.ofNat m ∧
      has b 3 = false := by
  decide

theorem first_again (b : UInt8) : (b &&& 7) ||| (b &&& 0xF8) = b := by
  revert b
  decide

theorem second_again (b : UInt8) (h : has b 3 = false) :
    second ((b >>> 2) &&& 3) ((b >>> 4) &&& 3) ((b >>> 6) &&& 3) = b := by
  revert b
  decide

/-- A number of two bits. -/
theorem small_eq (x : UInt8) (h : x < 4) : ∃ i : Fin 4, x = UInt8.ofNat i :=
  ⟨⟨x.toNat, h⟩, by simp⟩

/-! Addresses. -/

/-- The octets of an address a frame carries. -/
def trimmed (a : Address) (size : Nat) : Address :=
  Vector.ofFn fun k => if k.val < size then getElem a k (index8_lt k) else 0

theorem addressAt_skip (l s : Bytes) (i size : Nat) (h : l.length ≤ i) :
    addressAt (l ++ s) i size = addressAt s (i - l.length) size := by
  ext k hk
  simp only [addressAt, Vector.getElem_ofFn]
  rw [byteAt_skip l s (i + k) (by omega), Nat.sub_add_comm h]

theorem addressAt_here (a : Address) (s : Bytes) (size : Nat) :
    addressAt (a.toList.take size ++ s) 0 size = trimmed a size := by
  ext k hk
  simp only [addressAt, trimmed, Vector.getElem_ofFn]
  by_cases hks : k < size
  · have hl : k < (a.toList.take size).length := by simp; omega
    simp [hks, byteAt, List.getD, List.getElem?_append_left hl, hk]
  · simp [hks]

theorem addressAt_take (s : Bytes) (i size : Nat) (h : size ≤ 8) (hl : i + size ≤ s.length) :
    (addressAt s i size).toList.take size = (s.drop i).take size := by
  apply List.ext_getElem
  · simp
    omega
  · intro k hk _
    have hk : k < size := by simp at hk; omega
    simp [addressAt, hk, byteAt_getElem s (i + k) (by omega)]

theorem trimmed_whole (a : Address) : trimmed a 8 = a := by
  ext k hk
  simp [trimmed]

theorem short_trimmed (a : Address) : short (trimmed a 2) = short a := by
  simp [short, trimmed]

/-! What is sent reads back. -/

/-- A header as it reads back: absent fields and unused address octets are zero. -/
def canonical (h : Header) : Header :=
  { h with
    destinationPan := if h.destinationMode = addressNone then 0 else h.destinationPan
    destination := trimmed h.destination (addressSize h.destinationMode)
    sourcePan := if h.sourceMode = addressNone then 0 else h.sourcePan
    source := trimmed h.source (addressSize h.sourceMode) }

/-- The destination fields of a frame. -/
def destinationPart (h : Header) (s : Shape) : Bytes :=
  if s.destinationSize ≠ 0 then put16 h.destinationPan ++ h.destination.toList.take s.destinationSize else []

/-- The source fields. -/
def sourcePart (h : Header) (s : Shape) : Bytes :=
  if s.sourceSize ≠ 0 then (if has h.flags panCompression then [] else put16 h.sourcePan) ++
    h.source.toList.take s.sourceSize else []

/-- The octets in front of the addresses. -/
def front (h : Header) : Bytes :=
  [h.type ||| h.flags, second h.destinationMode h.version h.sourceMode, h.sequence]

theorem emitFrame_eq (h : Header) (s : Shape) (payload : Bytes) :
    emitFrame h s payload = front h ++ (destinationPart h s ++ (sourcePart h s ++ payload)) := by
  simp [emitFrame, front, destinationPart, sourcePart, second]

theorem destinationPart_length {h : Header} {s : Shape} (hs : Shaped h s) :
    (front h).length + (destinationPart h s).length = sourceStart s := by
  have hd := addressSize_le h.destinationMode
  rw [← hs.destinationSize] at hd
  unfold destinationPart sourceStart front
  split
  · simp [put16]
    omega
  · rfl

theorem sourcePart_length {h : Header} {s : Shape} (hs : Shaped h s) :
    sourceStart s + (sourcePart h s).length = s.headerSize := by
  have hm := addressSize_le h.sourceMode
  rw [← hs.sourceSize] at hm
  rw [hs.headerSize]
  unfold sourcePart
  by_cases hz : s.sourceSize = 0
  · simp [hz]
  · cases has h.flags panCompression <;> simp [hz, put16] <;> omega

theorem emitFrame_length {h : Header} {s : Shape} (hs : Shaped h s) (payload : Bytes) :
    (emitFrame h s payload).length = s.headerSize + payload.length := by
  have hd := destinationPart_length hs
  have hm := sourcePart_length hs
  rw [emitFrame_eq, List.length_append, List.length_append, List.length_append]
  omega

theorem emitFrame_drop {h : Header} {s : Shape} (hs : Shaped h s) (payload : Bytes) :
    (emitFrame h s payload).drop s.headerSize = payload := by
  have hd := destinationPart_length hs
  have hm := sourcePart_length hs
  rw [emitFrame_eq, ← List.append_assoc, ← List.append_assoc]
  exact List.drop_left' (by simp only [List.length_append]; omega)

theorem control_emit {h : Header} {s : Shape} (hs : Shaped h s) (payload : Bytes) :
    control (emitFrame h s payload) = { h with
      destinationPan := 0, sourcePan := 0, destination := Vector.replicate 8 0, source := Vector.replicate 8 0 } ∧
      has (byteAt (emitFrame h s payload) 1) 3 = false := by
  obtain ⟨t, ht⟩ := small_eq h.type hs.type
  obtain ⟨d, hd⟩ := small_eq h.destinationMode hs.destinationMode
  obtain ⟨v, hv⟩ := small_eq h.version hs.version
  obtain ⟨m, hm⟩ := small_eq h.sourceMode hs.sourceMode
  obtain ⟨h1, h2, h3, h4⟩ := second_fields d v m
  have h5 := first_type h.flags hs.flags t
  have h6 := first_flags h.flags hs.flags t
  rw [← hd, ← hv, ← hm] at h1 h2 h3 h4
  rw [← ht] at h5 h6
  rw [emitFrame_eq]
  exact ⟨by simp [control, front, h1, h2, h3, h5, h6], h4⟩

theorem destinationPan_emit {h : Header} {s : Shape} (payload : Bytes) (hz : s.destinationSize ≠ 0) :
    u16At (emitFrame h s payload) 3 = h.destinationPan := by
  rw [emitFrame_eq, u16At_skip (front h) _ 3 (by simp [front]), destinationPart, if_pos hz]
  simp [front]

theorem destination_emit {h : Header} {s : Shape} (payload : Bytes) (hz : s.destinationSize ≠ 0) :
    addressAt (emitFrame h s payload) 5 s.destinationSize = trimmed h.destination s.destinationSize := by
  rw [emitFrame_eq, addressAt_skip (front h) _ 5 _ (by simp [front]), destinationPart, if_pos hz,
    List.append_assoc, addressAt_skip _ _ _ _ (by simp [front])]
  simp [front, addressAt_here]

theorem sourcePan_emit {h : Header} {s : Shape} (hs : Shaped h s) (payload : Bytes) (hz : s.sourceSize ≠ 0)
    (hc : has h.flags panCompression = false) :
    u16At (emitFrame h s payload) (sourceStart s) = h.sourcePan := by
  have hl := destinationPart_length hs
  rw [emitFrame_eq, ← List.append_assoc, u16At_skip _ _ _ (by rw [List.length_append]; omega), sourcePart,
    if_pos hz, List.length_append, hl]
  simp [hc]

theorem source_emit {h : Header} {s : Shape} (hs : Shaped h s) (payload : Bytes) (hz : s.sourceSize ≠ 0) :
    addressAt (emitFrame h s payload) (if has h.flags panCompression then sourceStart s else sourceStart s + 2)
      s.sourceSize = trimmed h.source s.sourceSize := by
  have hl := destinationPart_length hs
  rw [emitFrame_eq, ← List.append_assoc, sourcePart, if_pos hz]
  cases hc : has h.flags panCompression with
  | true =>
    rw [addressAt_skip _ _ _ _ (by simp only [List.length_append, if_true]; omega)]
    simp [hl, addressAt_here]
  | false =>
    simp only [Bool.false_eq_true, if_false, List.append_assoc]
    rw [← List.append_assoc, addressAt_skip _ _ _ _ (by rw [List.length_append]; omega), List.length_append, hl,
      addressAt_skip _ _ _ _ (by simp)]
    simp [addressAt_here]

theorem trimmed_zero (a : Address) : trimmed a 0 = Vector.replicate 8 0 := by
  ext k hk
  simp [trimmed]

/-- A compressed header names one PAN. -/
theorem compressed_pans {h : Header} {s : Shape} (hs : Shaped h s) (hp : addressPolicy h = .ok)
    (hc : has h.flags panCompression = true) : h.sourcePan = h.destinationPan := by
  by_contra hne
  unfold addressPolicy at hp
  split at hp
  · rename_i ha
    exact (hs.compressed hc).1 (hs.bare ha)
  · rw [if_pos ⟨hc, hne⟩] at hp
    cases hp

theorem addresses_emit {h : Header} {s : Shape} (hs : Shaped h s) (hp : addressPolicy h = .ok) (payload : Bytes) :
    addresses (control (emitFrame h s payload)) s (emitFrame h s payload) = canonical h := by
  have hd : s.destinationSize = 0 ↔ h.destinationMode = addressNone := by
    rw [hs.destinationSize, addressSize_zero]
  have hm : s.sourceSize = 0 ↔ h.sourceMode = addressNone := by
    rw [hs.sourceSize, addressSize_zero]
  rw [(control_emit hs payload).1, addresses, canonical, ← hs.destinationSize, ← hs.sourceSize]
  have h1 : (if s.destinationSize ≠ 0 then u16At (emitFrame h s payload) 3 else 0) =
      if h.destinationMode = addressNone then 0 else h.destinationPan := by
    by_cases hz : s.destinationSize = 0
    · rw [if_neg (not_not.2 hz), if_pos (hd.1 hz)]
    · rw [if_pos hz, if_neg (mt hd.2 hz), destinationPan_emit payload hz]
  have h2 : (if s.destinationSize ≠ 0 then addressAt (emitFrame h s payload) 5 s.destinationSize
      else Vector.replicate 8 0) = trimmed h.destination s.destinationSize := by
    by_cases hz : s.destinationSize = 0
    · rw [if_neg (not_not.2 hz), hz, trimmed_zero]
    · rw [if_pos hz, destination_emit payload hz]
  have h3 : (if s.sourceSize = 0 then Vector.replicate 8 0
      else addressAt (emitFrame h s payload)
        (if has h.flags panCompression then sourceStart s else sourceStart s + 2) s.sourceSize) =
      trimmed h.source s.sourceSize := by
    by_cases hz : s.sourceSize = 0
    · rw [if_pos hz, hz, trimmed_zero]
    · rw [if_neg hz, source_emit hs payload hz]
  have h4 : (if s.sourceSize = 0 then 0 else if has h.flags panCompression then
      (if h.destinationMode = addressNone then 0 else h.destinationPan)
      else u16At (emitFrame h s payload) (sourceStart s)) =
      if h.sourceMode = addressNone then 0 else h.sourcePan := by
    by_cases hz : s.sourceSize = 0
    · rw [if_pos hz, if_pos (hm.1 hz)]
    · rw [if_neg hz, if_neg (mt hm.2 hz)]
      cases hc : has h.flags panCompression with
      | true =>
        rw [if_pos rfl, if_neg (hs.compressed hc).1]
        exact (compressed_pans hs hp hc).symm
      | false => exact sourcePan_emit hs payload hz hc
  simp only [h1, h2, h3, h4]

/-! The policies look at present fields only. -/

theorem short_present (a : Address) {mode : UInt8} (h : mode = addressShort) :
    short (trimmed a (addressSize mode)) = short a := by
  rw [h]
  exact short_trimmed a

theorem addressPolicy_canonical {h : Header} {s : Shape} (hs : Shaped h s) :
    addressPolicy (canonical h) = addressPolicy h := by
  have hc : has h.flags panCompression = true →
      ((canonical h).sourcePan ≠ (canonical h).destinationPan ↔ h.sourcePan ≠ h.destinationPan) := by
    intro hc
    obtain ⟨hd, hm⟩ := hs.compressed hc
    rw [canonical, if_neg hd, if_neg hm]
  have hsource : h.sourceMode = addressShort → short (canonical h).source = short h.source :=
    short_present h.source
  have hdestination : h.destinationMode = addressShort → short (canonical h).destination = short h.destination :=
    short_present h.destination
  have hpan : h.type = beacon → (canonical h).sourcePan = h.sourcePan := by
    intro hb
    rw [canonical, if_neg (hs.sender hb)]
  unfold addressPolicy
  refine if_congr Iff.rfl rfl (if_congr (and_congr_right hc) rfl ?_)
  refine if_congr (and_congr_right fun hm => by rw [hsource hm]) rfl ?_
  refine if_congr (and_congr_right fun hb => ?_) rfl ?_
  · rw [hpan hb]
    exact or_congr Iff.rfl (and_congr_right fun hm => by rw [hsource hm])
  · exact if_congr (and_congr_right fun _ => and_congr_right fun hd => by rw [hdestination hd]) rfl rfl

theorem commandHeaderPolicy_canonical (h : Header) (payload : Bytes) (mode : UInt8) :
    commandHeaderPolicy (canonical h) payload mode = commandHeaderPolicy h payload mode := by
  have hsource : h.sourceMode = addressShort → short (canonical h).source = short h.source :=
    short_present h.source
  have hdestination : h.destinationMode = addressShort → short (canonical h).destination = short h.destination :=
    short_present h.destination
  have hdpan : h.destinationMode = addressShort → (canonical h).destinationPan = h.destinationPan := by
    intro hd
    rw [canonical, hd]
    rfl
  have hspan : h.sourceMode = addressExtended → (canonical h).sourcePan = h.sourcePan := by
    intro hm
    rw [canonical, hm]
    rfl
  unfold commandHeaderPolicy
  refine if_congr Iff.rfl rfl ?_
  cases commandDecode payload with
  | error e => rfl
  | ok c =>
    refine if_congr Iff.rfl rfl (if_congr Iff.rfl (if_congr ?_ rfl rfl) (if_congr ?_ rfl ?_))
    · by_cases hd : h.destinationMode = addressShort
      · rw [hdestination hd, hdpan hd]
        exact Iff.rfl
      · exact ⟨fun _ => .inl hd, fun _ => .inl hd⟩
    · exact or_congr Iff.rfl (or_congr (and_congr_right fun hd => by rw [hdestination hd])
        (and_congr_right fun hm => by rw [hsource hm]))
    · refine if_congr Iff.rfl rfl (ite_congr rfl (fun _ => rfl) fun hm => ?_)
      have hm : h.sourceMode = addressExtended := by
        by_contra hm'
        exact hm (.inl hm')
      rw [hspan hm]
      rfl

theorem payloadPolicy_canonical (h : Header) (payload : Bytes) (mode : UInt8) :
    payloadPolicy (canonical h) payload mode = payloadPolicy h payload mode := by
  unfold payloadPolicy
  rw [commandHeaderPolicy_canonical]
  rfl

/-- What may be sent may be received. -/
theorem commandHeaderPolicy_receive {h : Header} {payload : Bytes} (hp : commandHeaderPolicy h payload 1 = .ok) :
    commandHeaderPolicy h payload 0 = .ok := by
  unfold commandHeaderPolicy at hp ⊢
  split at hp
  · cases hp
  · rename_i hl
    rw [if_neg hl]
    cases hc : commandDecode payload with
    | error e =>
      rw [hc] at hp
      exact hp
    | ok c =>
      rw [hc] at hp
      simp only at hp ⊢
      split at hp
      · cases hp
      · rw [if_neg (by simp)]
        simpa using hp

theorem payloadPolicy_receive {h : Header} {payload : Bytes} (hp : payloadPolicy h payload 1 = .ok) :
    payloadPolicy h payload 0 = .ok := by
  unfold payloadPolicy at hp ⊢
  split at hp
  · rename_i ht
    rw [if_pos ht]
    exact commandHeaderPolicy_receive hp
  · rename_i ht
    rw [if_neg ht]
    exact hp

/-! The two calls, once each. -/

theorem encode_ok {h : Header} {payload f : Bytes} {capacity : Nat} :
    encode h payload capacity = .ok f ↔ ∃ s, headerShape h = .ok s ∧ addressPolicy h = .ok ∧
      ¬ (h.type = ack ∧ payload.length ≠ 0) ∧ payload.length ≤ maxBody - s.headerSize ∧
      payloadPolicy h payload 1 = .ok ∧ s.headerSize + payload.length ≤ capacity ∧ f = emitFrame h s payload := by
  constructor
  · intro he
    unfold encode at he
    split at he
    · cases he
    rename_i s hs
    split at he
    · rename_i hp
      split at he
      · cases he
      rename_i ha
      split at he
      · cases he
      rename_i hl
      split at he
      · rename_i hq
        split at he
        · cases he
        rename_i hc
        cases he
        exact ⟨s, hs, hp, ha, Nat.le_of_not_lt hl, hq, Nat.le_of_not_lt hc, rfl⟩
      · cases he
    · cases he
  · rintro ⟨s, hs, hp, ha, hl, hq, hc, rfl⟩
    unfold encode
    simp only [hs, hp, hq]
    rw [if_neg ha, if_neg (Nat.not_lt.2 hl), if_neg (Nat.not_lt.2 hc)]

theorem decodeProfile_ok {f : Bytes} {profile : UInt8} {info : Info} :
    decodeProfile f profile = .ok info ↔ ¬ rxR22AssociationResponse < profile ∧ f.length ≤ maxBody ∧
      3 ≤ f.length ∧ has (byteAt f 1) 3 = false ∧ ∃ s, headerShape (control f) = .ok s ∧
      s.headerSize ≤ f.length ∧ ¬ ((control f).type = ack ∧ f.length ≠ s.headerSize) ∧
      addressPolicy (addresses (control f) s f) = .ok ∧
      payloadPolicy (addresses (control f) s f) (f.drop s.headerSize) (profile <<< 1) = .ok ∧
      info = ⟨addresses (control f) s f, s.headerSize, f.length - s.headerSize⟩ := by
  constructor
  · intro he
    unfold decodeProfile at he
    split at he
    · cases he
    rename_i hp
    split at he
    · cases he
    rename_i hl
    split at he
    · cases he
    rename_i h3
    split at he
    · cases he
    rename_i hb
    split at he
    · cases he
    rename_i s hs
    split at he
    · cases he
    rename_i hh
    split at he
    · cases he
    rename_i ha
    simp only at he
    split at he
    · rename_i hq
      split at he
      · rename_i hr
        cases he
        exact ⟨hp, Nat.le_of_not_lt hl, Nat.le_of_not_lt h3, by simpa using hb, s, hs, Nat.le_of_not_lt hh, ha,
          hq, hr, rfl⟩
      · cases he
    · cases he
  · rintro ⟨hp, hl, h3, hb, s, hs, hh, ha, hq, hr, rfl⟩
    unfold decodeProfile
    simp only [hs, hq, hr]
    rw [if_neg hp, if_neg (Nat.not_lt.2 hl), if_neg (Nat.not_lt.2 h3), if_neg (by simp [hb]),
      if_neg (Nat.not_lt.2 hh), if_neg ha]

/-- What is encoded decodes to its canonical header and its payload. -/
theorem decode_encode {h : Header} {payload f : Bytes} {capacity : Nat} (he : encode h payload capacity = .ok f) :
    ∃ n, decode f = .ok ⟨canonical h, n, payload.length⟩ ∧ f.drop n = payload := by
  obtain ⟨s, hs, hp, ha, hl, hq, hc, rfl⟩ := encode_ok.1 he
  have hsh := headerShape_shaped hs
  have hcontrol := control_emit hsh payload
  have haddress := addresses_emit hsh hp payload
  have hlength := emitFrame_length hsh payload
  have hdrop := emitFrame_drop hsh payload
  have hshape : headerShape (control (emitFrame h s payload)) = .ok s := by
    rw [← hs, hcontrol.1]
    exact headerShape_congr rfl rfl rfl rfl rfl
  have hsmall := headerSize_small hsh
  refine ⟨s.headerSize, decodeProfile_ok.2 ⟨by decide, ?_, ?_, hcontrol.2, s, hshape, ?_, ?_, ?_, ?_, ?_⟩, hdrop⟩
  · simp only [maxBody] at hl ⊢
    omega
  · omega
  · omega
  · rintro ⟨ht, hne⟩
    rw [hcontrol.1] at ht
    exact ha ⟨ht, by omega⟩
  · rw [haddress, addressPolicy_canonical hsh, hp]
  · rw [haddress, hdrop, payloadPolicy_canonical]
    exact payloadPolicy_receive hq
  · rw [haddress, hlength, Nat.add_sub_cancel_left]

/-! What is received is sent again. -/

theorem front_read (f : Bytes) (s : Shape) (hl : 3 ≤ f.length) (hb : has (byteAt f 1) 3 = false) :
    front (addresses (control f) s f) = f.take 3 := by
  have h2 := second_again (byteAt f 1) hb
  match f, hl with
  | a :: b :: c :: f, _ =>
    simp only [front, addresses, control, byteAt_here, byteAt_cons, first_again] at h2 ⊢
    rw [h2]
    rfl

theorem pan_read (f : Bytes) (i : Nat) (h : i + 2 ≤ f.length) : put16 (u16At f i) = (f.drop i).take 2 := by
  rw [u16At, put16_le16, byteAt_getElem f i (by omega), byteAt_getElem f (i + 1) (by omega),
    List.drop_eq_getElem_cons (show i < f.length by omega),
    List.drop_eq_getElem_cons (show i + 1 < f.length by omega)]
  rfl

/-- Two neighbouring stretches of a string. -/
theorem stretch_append (f : Bytes) (i m n : Nat) :
    (f.drop i).take m ++ (f.drop (i + m)).take n = (f.drop i).take (m + n) := by
  rw [List.take_add, List.drop_drop]

theorem destinationPart_read {f : Bytes} {s : Shape} (hs : Shaped (control f) s) (hl : s.headerSize ≤ f.length) :
    destinationPart (addresses (control f) s f) s = (f.drop 3).take (sourceStart s - 3) := by
  have hd := addressSize_le (control f).destinationMode
  rw [← hs.destinationSize] at hd
  have hh := hs.headerSize
  unfold destinationPart
  split
  · rename_i hz
    rw [sourceStart, if_pos hz] at hh ⊢
    simp only [addresses, if_pos hz]
    rw [pan_read f 3 (by omega), addressAt_take f 5 _ hd (by omega), stretch_append]
    congr 1
    omega
  · rename_i hz
    rw [sourceStart, if_neg hz]
    rfl

theorem sourcePart_read {f : Bytes} {s : Shape} (hs : Shaped (control f) s) (hl : s.headerSize ≤ f.length) :
    sourcePart (addresses (control f) s f) s = (f.drop (sourceStart s)).take (s.headerSize - sourceStart s) := by
  have hm := addressSize_le (control f).sourceMode
  rw [← hs.sourceSize] at hm
  have hh := hs.headerSize
  unfold sourcePart
  split
  · rename_i hz
    simp only [addresses, if_neg hz]
    rw [if_neg hz] at hh
    cases hc : has (control f).flags panCompression with
    | true =>
      simp only [hc, if_true] at hh ⊢
      rw [addressAt_take f _ _ hm (by omega), List.nil_append]
      congr 1
      omega
    | false =>
      simp only [hc, Bool.false_eq_true, if_false] at hh ⊢
      rw [pan_read f _ (by omega), addressAt_take f _ _ hm (by omega), stretch_append]
      congr 1
      omega
  · rename_i hz
    rw [if_pos (not_not.1 hz)] at hh
    rw [hh]
    simp

theorem emitFrame_read {f : Bytes} {s : Shape} (hs : Shaped (control f) s) (hl : s.headerSize ≤ f.length)
    (hb : has (byteAt f 1) 3 = false) :
    emitFrame (addresses (control f) s f) s (f.drop s.headerSize) = f := by
  have hsmall := headerSize_small hs
  have hstart : 3 ≤ sourceStart s := by
    unfold sourceStart
    split <;> omega
  have hend : sourceStart s ≤ s.headerSize := by
    rw [hs.headerSize]
    omega
  rw [emitFrame_eq, front_read f s (by omega) hb, destinationPart_read hs hl, sourcePart_read hs hl]
  have h1 : (f.drop (sourceStart s)).take (s.headerSize - sourceStart s) ++ f.drop s.headerSize =
      f.drop (sourceStart s) := by
    rw [show f.drop s.headerSize = (f.drop (sourceStart s)).drop (s.headerSize - sourceStart s) by
      rw [List.drop_drop]; congr 1; omega, List.take_append_drop]
  have h2 : (f.drop 3).take (sourceStart s - 3) ++ f.drop (sourceStart s) = f.drop 3 := by
    rw [show f.drop (sourceStart s) = (f.drop 3).drop (sourceStart s - 3) by
      rw [List.drop_drop]; congr 1; omega, List.take_append_drop]
  rw [h1, h2, List.take_append_drop]

/-- The forms that are received and never sent. -/
def ReceiveOnly (profile : UInt8) (h : Header) (payload : Bytes) : Prop :=
  h.type = command ∧ (has h.flags pending = true ∨ (profile = rxR22AssociationResponse ∧
    byteAt payload 0 = associationResponse ∧ has h.flags panCompression = false))

theorem commandDecode_identifier {payload : Bytes} {c : Command} (h : commandDecode payload = .ok c) :
    c.identifier = byteAt payload 0 := by
  unfold commandDecode at h
  split at h
  · cases h
  split at h
  · cases h
  simp only at h
  split at h
  · cases h
  split at h
  · cases h
  split at h
  · cases h
  split at h
  · cases h
    rfl
  · cases h

theorem commandDecode_error {payload : Bytes} {e : Codec} (h : commandDecode payload = .error e) : e ≠ .ok := by
  unfold commandDecode at h
  split at h
  · cases h
    decide
  split at h
  · cases h
    decide
  simp only at h
  split at h
  · cases h
    decide
  split at h
  · cases h
    decide
  split at h
  · cases h
    decide
  split at h
  · cases h
  · rename_i hne
    cases h
    exact hne

/-- Of what is received, all but two forms may be sent. -/
theorem commandHeaderPolicy_send {h : Header} {payload : Bytes} {profile : UInt8}
    (hprofile : ¬ rxR22AssociationResponse < profile) (hp : commandHeaderPolicy h payload (profile <<< 1) = .ok) :
    commandHeaderPolicy h payload 1 = .ok ↔ ¬ (has h.flags pending = true ∨
      (profile = rxR22AssociationResponse ∧ byteAt payload 0 = associationResponse ∧
        has h.flags panCompression = false)) := by
  have hmode : ∀ p : UInt8, ¬ rxR22AssociationResponse < p →
      p <<< 1 ≠ 1 ∧ (p <<< 1 = 2 ↔ p = rxR22AssociationResponse) := by
    decide
  obtain ⟨hm1, hm2⟩ := hmode profile hprofile
  unfold commandHeaderPolicy at hp ⊢
  split at hp
  · cases hp
  rename_i hl
  rw [if_neg hl]
  cases hc : commandDecode payload with
  | error e =>
    rw [hc] at hp
    exact absurd hp (commandDecode_error hc)
  | ok c =>
    have hid := commandDecode_identifier hc
    rw [hc] at hp
    simp only at hp ⊢
    rw [if_neg (fun h => hm1 h.1)] at hp
    rw [← hid]
    cases hpending : has h.flags pending with
    | true => simp
    | false =>
      simp only [Bool.false_eq_true, and_false, if_false, false_or]
      by_cases hb : c.identifier = beaconRequest
      · have hne : c.identifier ≠ associationResponse := by rw [hb]; decide
        rw [if_pos hb] at hp ⊢
        rw [hp]
        simp [hne]
      rw [if_neg hb] at hp ⊢
      split at hp
      · cases hp
      rename_i haddress
      rw [if_neg haddress]
      by_cases hd : c.identifier = dataRequest
      · have hne : c.identifier ≠ associationResponse := by rw [hd]; decide
        rw [if_pos hd] at hp ⊢
        rw [hp]
        simp [hne]
      rw [if_neg hd] at hp ⊢
      split at hp
      · cases hp
      rename_i hext
      rw [if_neg hext]
      by_cases hr : c.identifier = associationRequest
      · have hne : c.identifier ≠ associationResponse := by rw [hr]; decide
        rw [if_pos hr] at hp ⊢
        rw [hp]
        simp [hne]
      rw [if_neg hr] at hp ⊢
      split at hp
      · cases hp
      rename_i hlast
      rw [hm2] at hlast
      cases hcompressed : has h.flags panCompression with
      | true => simp_all
      | false => simp_all

theorem payloadPolicy_send {h : Header} {payload : Bytes} {profile : UInt8}
    (hprofile : ¬ rxR22AssociationResponse < profile) (hp : payloadPolicy h payload (profile <<< 1) = .ok) :
    payloadPolicy h payload 1 = .ok ↔ ¬ ReceiveOnly profile h payload := by
  unfold payloadPolicy at hp ⊢
  unfold ReceiveOnly
  by_cases ht : h.type = command
  · rw [if_pos ht] at hp ⊢
    rw [commandHeaderPolicy_send hprofile hp]
    simp [ht]
  · rw [if_neg ht] at hp ⊢
    simp [hp, ht]

/-- What is decoded is encoded again, octet for octet, unless it is a form that
is only received. -/
theorem encode_decode {f : Bytes} {profile : UInt8} {info : Info} (hd : decodeProfile f profile = .ok info)
    (capacity : Nat) (hc : f.length ≤ capacity) :
    encode info.header (f.drop info.payloadOffset) capacity = .ok f ↔
      ¬ ReceiveOnly profile info.header (f.drop info.payloadOffset) := by
  obtain ⟨hprofile, hl, h3, hb, s, hs, hh, ha, hp, hq, rfl⟩ := decodeProfile_ok.1 hd
  have hsh := headerShape_shaped hs
  have hread := emitFrame_read hsh hh hb
  have hshape : headerShape (addresses (control f) s f) = .ok s := by
    rw [← hs]
    exact headerShape_congr rfl rfl rfl rfl rfl
  rw [← payloadPolicy_send hprofile hq]
  constructor
  · intro he
    obtain ⟨-, -, -, -, -, hsend, -, -⟩ := encode_ok.1 he
    exact hsend
  · intro hsend
    refine encode_ok.2 ⟨s, hshape, hp, ?_, ?_, hsend, ?_, hread.symm⟩
    · rintro ⟨ht, hne⟩
      exact ha ⟨ht, fun heq => hne (by simp [heq])⟩
    · simp only [List.length_drop]
      omega
    · simp only [List.length_drop]
      omega

/-- The codec. An encoded header and payload decode to the canonical header and
the same payload. A decoded string splits into header and payload, and is what
these encode to, unless it is one of the two forms that are only received, which
the encoder refuses. A call that fails writes nothing. -/
theorem frame_codec :
    (∀ h payload capacity f, encode h payload capacity = .ok f →
      ∃ n, decode f = .ok ⟨canonical h, n, payload.length⟩ ∧ f.drop n = payload) ∧
    (∀ f profile info, decodeProfile f profile = .ok info →
      info.payloadOffset + info.payloadLength = f.length ∧
      ∀ capacity, f.length ≤ capacity →
        (¬ ReceiveOnly profile info.header (f.drop info.payloadOffset) →
          encode info.header (f.drop info.payloadOffset) capacity = .ok f) ∧
        (ReceiveOnly profile info.header (f.drop info.payloadOffset) →
          ∃ e, encode info.header (f.drop info.payloadOffset) capacity = .error e)) ∧
    (∀ body result profile, (decodeInto body result profile).1 ≠ .ok →
      (decodeInto body result profile).2 = result) ∧
    (∀ h payload body length, (encodeInto h payload body length).1 ≠ .ok →
      (encodeInto h payload body length).2 = (body, length)) := by
  refine ⟨fun h payload capacity f he => decode_encode he, fun f profile info hd => ⟨?_, fun capacity hc => ⟨?_, ?_⟩⟩,
    fun body result profile hne => ?_, fun h payload body length hne => ?_⟩
  · obtain ⟨-, -, -, -, s, -, hh, -, -, -, rfl⟩ := decodeProfile_ok.1 hd
    simp only
    omega
  · exact (encode_decode hd capacity hc).2
  · intro hr
    cases he : encode info.header (f.drop info.payloadOffset) capacity with
    | error e => exact ⟨e, rfl⟩
    | ok g =>
      obtain ⟨hprofile, -, -, -, s, -, -, -, -, hq, rfl⟩ := decodeProfile_ok.1 hd
      obtain ⟨-, -, -, -, -, hsend, -, -⟩ := encode_ok.1 he
      exact absurd hr ((payloadPolicy_send hprofile hq).1 hsend)
  · unfold decodeInto at hne ⊢
    split
    · rfl
    · rename_i hok
      rw [hok] at hne
      exact absurd rfl hne
  · unfold encodeInto at hne ⊢
    split
    · rfl
    · rename_i hok
      rw [hok] at hne
      exact absurd rfl hne

end MacFrame
