import Cc2530Zigbee.OctetBits
import Cc2530Zigbee.ZdoNode

/-!
# Node descriptors there and back

An encoded response decodes to what it says, what its status leaves out
zeroed, whatever stands behind it. A response that decodes is encoded again
octet for octet: the decoder refuses the reserved bits the encoder clears.
-/
namespace ZdoNode

set_option maxRecDepth 8000

open Octets

/-- What a valid descriptor is like, field by field. -/
structure Fits (d : Descriptor) : Prop where
  logicalType : d.logicalType ≤ 2
  available : d.available ≤ 3
  frequencyBand : d.frequencyBand &&& 0xE2 = 0
  serverFlags : d.serverFlags ≤ 0x7F
  stackRevision : d.stackRevision ≤ 0x7F

theorem descriptorValid_fits {d : Descriptor} (h : descriptorValid d = true) : Fits d := by
  simp only [descriptorValid, Bool.and_eq_true, decide_eq_true_eq, beq_iff_eq] at h
  obtain ⟨⟨⟨⟨⟨⟨⟨⟨⟨h1, h2⟩, h3⟩, -⟩, -⟩, -⟩, -⟩, h8⟩, h9⟩, -⟩ := h
  exact ⟨h1, h2, h3, h8, h9⟩

/-- The first octet packs the type and two flags. -/
theorem packed_type (t a : UInt8) (ht : t ≤ 2) (ha : a ≤ 3) :
    (t ||| (a <<< 3)) &&& 7 = t ∧ ((t ||| (a <<< 3)) >>> 3) &&& 3 = a ∧
      (t ||| (a <<< 3)) &&& 0xE0 = 0 := by
  have ht' : t = 0 ∨ t = 1 ∨ t = 2 := by
    revert t
    decide
  have ha' : a = 0 ∨ a = 1 ∨ a = 2 ∨ a = 3 := by
    clear ht'
    revert a
    decide
  obtain rfl | rfl | rfl := ht' <;> obtain rfl | rfl | rfl | rfl := ha' <;> decide

theorem packed_band : ∀ f : UInt8, f &&& 0xE2 = 0 → (f <<< 3) >>> 3 = f ∧ (f <<< 3) &&& 7 = 0 := by
  decide

/-- The server mask packs the flags and the revision into one octet each. -/
theorem packed_revision : ∀ r : UInt8, r ≤ 0x7F →
    (r <<< 1).toUInt16 <<< 8 = r.toUInt16 <<< 9 ∧ (r <<< 1) >>> 1 = r ∧ (r <<< 1) &&& 1 = 0 := by
  decide

theorem packed_flags : ∀ s : UInt8, s ≤ 0x7F → s &&& 0x7F = s ∧ s &&& 0x80 = 0 := by
  decide

theorem put16_mask (s : UInt8) {r : UInt8} (hr : r ≤ 0x7F) :
    put16 (s.toUInt16 ||| (r.toUInt16 <<< 9)) = [s, r <<< 1] := by
  rw [← (packed_revision r hr).1, ← le16_eq_or, put16_le16]

/-- The octets of a valid descriptor. -/
theorem writeDescriptor_eq {d : Descriptor} (h : Fits d) :
    writeDescriptor d = [d.logicalType ||| (d.available <<< 3), d.frequencyBand <<< 3, d.macCapability] ++
      put16 d.manufacturer ++ [d.maxBuffer] ++ put16 d.maxIncoming ++ [d.serverFlags, d.stackRevision <<< 1] ++
      put16 d.maxOutgoing ++ [d.descriptorCapability] := by
  unfold writeDescriptor
  rw [put16_mask d.serverFlags h.stackRevision]

/-- A descriptor reads back from its octets. -/
theorem readDescriptor_write {d : Descriptor} (h : Fits d) (rest : Bytes) :
    readDescriptor (writeDescriptor d ++ rest) = d := by
  obtain ⟨h1, h2, -⟩ := packed_type d.logicalType d.available h.logicalType h.available
  have h3 := (packed_band d.frequencyBand h.frequencyBand).1
  have h4 := (packed_revision d.stackRevision h.stackRevision).2.1
  have h5 := (packed_flags d.serverFlags h.serverFlags).1
  have hm : u16At (writeDescriptor d ++ rest) 3 = d.manufacturer := le16_put d.manufacturer
  have hi : u16At (writeDescriptor d ++ rest) 6 = d.maxIncoming := le16_put d.maxIncoming
  have ho : u16At (writeDescriptor d ++ rest) 10 = d.maxOutgoing := le16_put d.maxOutgoing
  unfold readDescriptor
  rw [hm, hi, ho, writeDescriptor_eq h]
  simp only [put16, List.cons_append, List.nil_append, byteAt_here, byteAt_cons, h1, h2, h3, h4, h5]

/-- The reserved bits of a descriptor's octets are clear. -/
theorem writeDescriptor_reserved {d : Descriptor} (h : Fits d) (rest : Bytes) :
    ¬ (byteAt (writeDescriptor d ++ rest) 0 &&& 0xE0 ≠ 0 ∨ byteAt (writeDescriptor d ++ rest) 1 &&& 7 ≠ 0 ∨
      byteAt (writeDescriptor d ++ rest) 8 &&& 0x80 ≠ 0 ∨ byteAt (writeDescriptor d ++ rest) 9 &&& 1 ≠ 0) := by
  obtain ⟨-, -, h0⟩ := packed_type d.logicalType d.available h.logicalType h.available
  have h1 := (packed_band d.frequencyBand h.frequencyBand).2
  have h8 := (packed_flags d.serverFlags h.serverFlags).2
  have h9 := (packed_revision d.stackRevision h.stackRevision).2.2
  rw [writeDescriptor_eq h]
  simp only [put16, List.cons_append, List.nil_append, byteAt_here, byteAt_cons, h0, h1, h8, h9, ne_eq, not_true,
    or_false, not_false_iff]

theorem responseSize_cases {status : UInt8} {size : Nat} (h : responseSize status = some size) :
    status = success ∧ size = 17 ∨ status ≠ success ∧ (size = 4 ∨ size = 2) := by
  unfold responseSize at h
  split at h
  next hs => exact .inl ⟨hs, (Option.some.inj h).symm⟩
  next hs =>
    refine .inr ⟨hs, ?_⟩
    split at h
    · exact .inl (Option.some.inj h).symm
    · split at h
      · exact .inr (Option.some.inj h).symm
      · cases h

/-- The octets of a response of a size. -/
def rspOctets (r : Response) (size : Nat) : Bytes :=
  [r.sequence, r.status] ++ (if 4 ≤ size then put16 r.address else []) ++
    if r.status = success then writeDescriptor r.descriptor else []

/-- What an encoded response says: what its status leaves out is zeroed. -/
def canonical (r : Response) (size : Nat) : Response where
  descriptor := if r.status = success then r.descriptor else .zero
  address := if 4 ≤ size then r.address else 0
  sequence := r.sequence
  status := r.status
  hasAddress := 4 ≤ size
  consumed := UInt8.ofNat size

theorem rspOctets_length {r : Response} {size : Nat} (h : responseSize r.status = some size) :
    (rspOctets r size).length = size := by
  obtain ⟨hs, rfl⟩ | ⟨hs, rfl | rfl⟩ := responseSize_cases h
  · simp only [rspOctets, hs]
    rfl
  · simp only [rspOctets, if_neg hs]
    rfl
  · simp only [rspOctets, if_neg hs]
    rfl

/-- An encoder that answers has a size, a valid descriptor and the room. -/
theorem rspEncode_sent {r : Response} {capacity : Nat} {octets : Bytes} :
    rspEncode r capacity = .ok octets ↔ ∃ size, responseSize r.status = some size ∧
      (r.status = success → descriptorValid r.descriptor = true) ∧ size ≤ capacity ∧ octets = rspOctets r size := by
  unfold rspEncode
  cases hsize : responseSize r.status with
  | none => simp
  | some size =>
    by_cases hv : r.status = success ∧ (!descriptorValid r.descriptor) = true
    · simp only [if_pos hv, reduceCtorEq, false_iff]
      rintro ⟨_, -, hvalid, -⟩
      simp [hvalid hv.1] at hv
    · have hvalid : r.status = success → descriptorValid r.descriptor = true := fun hs => by
        simpa [hs] using hv
      by_cases hc : capacity < size
      · simp only [if_neg hv, if_pos hc, reduceCtorEq, false_iff]
        rintro ⟨_, hsome, -, hle, -⟩
        obtain rfl := Option.some.inj hsome
        omega
      · simp only [if_neg hv, if_neg hc, Except.ok.injEq]
        constructor
        · rintro rfl
          exact ⟨size, rfl, hvalid, Nat.le_of_not_lt hc, rfl⟩
        · rintro ⟨_, hsome, -, -, rfl⟩
          obtain rfl := Option.some.inj hsome
          rfl

/-- A response with a descriptor. -/
theorem rspDecode_success {body : Bytes} (hs : byteAt body 1 = success) (h17 : 17 ≤ body.length)
    (hmax : body.length ≤ maxBody) :
    rspDecode body =
      if byteAt body 4 &&& 0xE0 ≠ 0 ∨ byteAt body 5 &&& 7 ≠ 0 ∨ byteAt body 12 &&& 0x80 ≠ 0 ∨
        byteAt body 13 &&& 1 ≠ 0 then .error .invalidDescriptor
      else if !descriptorValid (readDescriptor (body.drop 4)) then .error .invalidDescriptor
      else .ok ⟨readDescriptor (body.drop 4), u16At body 2, byteAt body 0, success, true, 17⟩ := by
  unfold rspDecode
  rw [if_neg (Nat.not_lt.2 hmax), if_neg (by omega), hs]
  simp only [responseSize, if_true, if_neg (Nat.not_lt.2 h17)]
  rfl

/-- A response without one. -/
theorem rspDecode_other {body : Bytes} {size : Nat} (h : responseSize (byteAt body 1) = some size)
    (hs : byteAt body 1 ≠ success) (hmax : body.length ≤ maxBody) (h2 : 2 ≤ body.length) (hlen : size ≤ body.length) :
    rspDecode body = .ok ⟨.zero, if 4 ≤ size then u16At body 2 else 0, byteAt body 0, byteAt body 1, 4 ≤ size,
      UInt8.ofNat size⟩ := by
  unfold rspDecode
  rw [if_neg (Nat.not_lt.2 hmax), if_neg (Nat.not_lt.2 h2), h]
  simp only [if_neg (Nat.not_lt.2 hlen), ne_eq, hs, not_false_iff, if_true]

/-- An encoded response decodes to what it says, whatever stands behind it. -/
theorem rsp_decodes {r : Response} {capacity : Nat} {octets rest : Bytes} (h : rspEncode r capacity = .ok octets)
    (hmax : (octets ++ rest).length ≤ maxBody) :
    rspDecode (octets ++ rest) = .ok (canonical r octets.length) := by
  obtain ⟨size, hsize, hvalid, -, rfl⟩ := rspEncode_sent.1 h
  rw [rspOctets_length hsize]
  obtain ⟨hs, rfl⟩ | ⟨hs, hn⟩ := responseSize_cases hsize
  · have hfits := descriptorValid_fits (hvalid hs)
    have hform : rspOctets r 17 ++ rest = [r.sequence, success] ++ put16 r.address ++
        (writeDescriptor r.descriptor ++ rest) := by
      simp only [rspOctets, hs, if_true, if_pos (by decide : 4 ≤ 17), List.append_assoc]
    have hreserved := writeDescriptor_reserved hfits rest
    have haddress : u16At ([r.sequence, success] ++ put16 r.address ++ (writeDescriptor r.descriptor ++ rest)) 2 =
        r.address := le16_put r.address
    have htail : ([r.sequence, success] ++ put16 r.address ++ (writeDescriptor r.descriptor ++ rest)).drop 4 =
        writeDescriptor r.descriptor ++ rest := rfl
    rw [hform] at hmax ⊢
    rw [rspDecode_success rfl (by simp [writeDescriptor, put16]) hmax, htail, haddress,
      readDescriptor_write hfits, hvalid hs]
    refine (if_neg hreserved).trans ?_
    simp only [canonical, hs]
    rfl
  · have hlen := rspOctets_length hsize
    have h1 : byteAt (rspOctets r size ++ rest) 1 = r.status := rfl
    rw [rspDecode_other (by rw [h1]; exact hsize) (by rwa [h1]) hmax
      (by rw [List.length_append, hlen]; omega) (by rw [List.length_append, hlen]; omega)]
    simp only [canonical, if_neg hs]
    obtain rfl | rfl := hn
    · have h2 : u16At (rspOctets r 4 ++ rest) 2 = r.address := le16_put r.address
      rw [if_pos (Nat.le_refl 4), if_pos (Nat.le_refl 4), h2]
      rfl
    · rfl

/-- A router's descriptor. -/
def routerDescriptor : Descriptor := ⟨0x115F, 128, 128, 1, 0, 8, 0x8E, 82, 0, 22, 0⟩

theorem rsp_decodes_sample :
    rspDecode (rspOctets ⟨routerDescriptor, 0x1234, 5, success, false, 0⟩ 17 ++ [7]) =
      .ok ⟨routerDescriptor, 0x1234, 5, success, true, 17⟩ :=
  @rsp_decodes ⟨routerDescriptor, 0x1234, 5, success, false, 0⟩ 17 _ [7] rfl (by decide)

theorem byteAt_behind (s : Bytes) (n i : Nat) : byteAt (s.drop n) i = byteAt s (n + i) := by
  simp [byteAt]

/-- The first octets of a string, one by one. -/
theorem take_octets {s : Bytes} {n : Nat} (h : n ≤ s.length) : s.take n = (List.range n).map (byteAt s) := by
  apply List.ext_getElem
  · simp [h]
  · intro i h1 h2
    have hi : i < s.length := by
      simp at h1
      omega
    simp [byteAt_getElem s i hi]

theorem put16_u16At (s : Bytes) (i : Nat) : put16 (u16At s i) = [byteAt s i, byteAt s (i + 1)] :=
  put16_le16 _ _

theorem octet_type : ∀ b : UInt8, b &&& 0xE0 = 0 →
    (b &&& (7 : UInt8)) ||| ((b >>> 3 &&& (3 : UInt8)) <<< (3 : UInt8)) = b := by
  decide

theorem octet_band : ∀ b : UInt8, b &&& 7 = 0 → (b >>> 3) <<< 3 = b := by
  decide

theorem octet_flags : ∀ b : UInt8, b &&& 0x80 = 0 → b &&& 0x7F = b := by
  decide

theorem octet_revision : ∀ b : UInt8, b &&& 1 = 0 → (b >>> 1) <<< 1 = b := by
  decide

/-- A descriptor read without a reserved bit is written back as it stood. -/
theorem writeDescriptor_read {p : Bytes} (h : 13 ≤ p.length) (hfits : Fits (readDescriptor p))
    (h0 : byteAt p 0 &&& 0xE0 = 0) (h1 : byteAt p 1 &&& 7 = 0) (h8 : byteAt p 8 &&& 0x80 = 0)
    (h9 : byteAt p 9 &&& 1 = 0) : writeDescriptor (readDescriptor p) = p.take 13 := by
  rw [writeDescriptor_eq hfits, take_octets h]
  simp only [readDescriptor, put16_u16At, octet_type _ h0, octet_band _ h1, octet_flags _ h8, octet_revision _ h9]
  rfl

theorem rspDecode_sized {body : Bytes} {r : Response} (h : rspDecode body = .ok r) :
    body.length ≤ maxBody ∧ 2 ≤ body.length ∧ ∃ size, responseSize (byteAt body 1) = some size ∧ size ≤ body.length := by
  unfold rspDecode at h
  by_cases hmax : maxBody < body.length
  · rw [if_pos hmax] at h
    cases h
  rw [if_neg hmax] at h
  by_cases h2 : body.length < 2
  · rw [if_pos h2] at h
    cases h
  rw [if_neg h2] at h
  refine ⟨Nat.le_of_not_lt hmax, Nat.le_of_not_lt h2, ?_⟩
  cases hsize : responseSize (byteAt body 1) with
  | none =>
    rw [hsize] at h
    cases h
  | some size =>
    rw [hsize] at h
    refine ⟨size, rfl, Nat.le_of_not_lt fun hlt => ?_⟩
    simp only [if_pos hlt] at h
    cases h

/-- A decoded response is encoded again octet for octet. -/
theorem rsp_encodes {body : Bytes} {r : Response} {capacity : Nat} (h : rspDecode body = .ok r)
    (hroom : r.consumed.toNat ≤ capacity) : rspEncode r capacity = .ok (body.take r.consumed.toNat) := by
  obtain ⟨hmax, h2, size, hsize, hlen⟩ := rspDecode_sized h
  obtain ⟨hs, rfl⟩ | ⟨hs, hn⟩ := responseSize_cases hsize
  · rw [rspDecode_success hs hlen hmax] at h
    split at h
    · cases h
    next hreserved =>
      push Not at hreserved
      obtain ⟨h0, h1, h8, h9⟩ := hreserved
      split at h
      · cases h
      next hvalid =>
        obtain rfl := Except.ok.inj h
        have hvalid' : descriptorValid (readDescriptor (body.drop 4)) = true := by simpa using hvalid
        refine rspEncode_sent.2 ⟨17, rfl, fun _ => hvalid', hroom, ?_⟩
        have hback := writeDescriptor_read (by simp; omega) (descriptorValid_fits hvalid')
          (by rwa [byteAt_behind]) (by rwa [byteAt_behind]) (by rwa [byteAt_behind]) (by rwa [byteAt_behind])
        have hhead : body.take 4 = [byteAt body 0, success] ++ put16 (u16At body 2) := by
          rw [take_octets (by omega), put16_u16At, ← hs]
          rfl
        calc body.take 17 = body.take 4 ++ (body.drop 4).take 13 := @List.take_add _ body 4 13
          _ = _ := by
            rw [hhead, ← hback]
            rfl
  · rw [rspDecode_other hsize hs hmax h2 hlen] at h
    obtain rfl := Except.ok.inj h
    obtain rfl | rfl := hn
    · refine rspEncode_sent.2 ⟨4, hsize, fun h' => absurd h' hs, hroom, ?_⟩
      simp only [rspOctets, if_neg hs, if_pos (Nat.le_refl 4), put16_u16At]
      exact take_octets hlen
    · refine rspEncode_sent.2 ⟨2, hsize, fun h' => absurd h' hs, hroom, ?_⟩
      simp only [rspOctets, if_neg hs]
      exact take_octets hlen

theorem rsp_encodes_sample :
    rspEncode ⟨.zero, 0x1234, 5, noDescriptor, true, 4⟩ 17 = .ok [5, noDescriptor, 0x34, 0x12] :=
  @rsp_encodes [5, noDescriptor, 0x34, 0x12, 9] ⟨.zero, 0x1234, 5, noDescriptor, true, 4⟩ 17 rfl (by decide)

end ZdoNode
