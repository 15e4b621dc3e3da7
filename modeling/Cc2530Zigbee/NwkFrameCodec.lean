import Cc2530Zigbee.NwkFrame
import Cc2530Zigbee.OctetBits

/-!
# NWK frames there and back

A header with a shape is emitted and read back, its absent addresses zero. What
is read is emitted again octet for octet, except that a received route request
of the reserved value 2 is sent on as an enabled one.
-/
namespace NwkFrame

set_option maxRecDepth 8000

open Octets

/-- What a header with a shape is like. -/
structure Shaped (h : Header) : Prop where
  type : h.type = 0
  version : h.version = 2
  route : h.discoverRoute = 0 ∨ h.discoverRoute = 1
  flags : h.flags &&& 0xC7FF = 0

theorem route_small (d : UInt8) (h : ¬ 1 < d) : d = 0 ∨ d = 1 := by
  revert d
  decide

theorem headerShape_shaped {h : Header} {size : Nat} (hs : headerShape h = .ok size) : Shaped h := by
  unfold headerShape at hs
  split at hs
  · cases hs
  rename_i htype
  split at hs
  · cases hs
  rename_i hversion
  split at hs
  · cases hs
  split at hs
  · cases hs
  split at hs
  · cases hs
  rename_i hflags
  split at hs
  · cases hs
  rename_i hroute
  have hmask : ~~~ (destinationIeeeFlag ||| sourceIeeeFlag ||| endDeviceInitiator) = 0xC7FF := by decide
  have hf : h.flags &&& 0xC7FF = 0 := by simpa [has, hmask] using hflags
  exact ⟨not_not.1 htype, not_not.1 hversion, route_small _ fun hd => hroute (.inl hd), hf⟩

/-- A header as it reads back: absent addresses are zero. -/
def canonical (h : Header) : Header :=
  { h with
    destinationIeee := if has h.flags destinationIeeeFlag then h.destinationIeee else Vector.replicate 8 0
    sourceIeee := if has h.flags sourceIeeeFlag then h.sourceIeee else Vector.replicate 8 0 }

/-! What is sent reads back. -/

/-- The octets in front of the addresses. -/
def front (h : Header) : Bytes :=
  [h.type ||| (h.version <<< 2) ||| (h.discoverRoute <<< 6), (h.flags >>> 8).toUInt8] ++
  put16 h.destination ++ put16 h.source ++ [h.radius, h.sequence]

/-- The addresses a frame carries. -/
def destinationPart (h : Header) : Bytes := if has h.flags destinationIeeeFlag then h.destinationIeee.toList else []
def sourcePart (h : Header) : Bytes := if has h.flags sourceIeeeFlag then h.sourceIeee.toList else []

theorem emitFrame_eq (h : Header) (payload : Bytes) :
    emitFrame h payload = front h ++ (destinationPart h ++ (sourcePart h ++ payload)) := by
  simp only [emitFrame, front, destinationPart, sourcePart, List.append_assoc]

theorem front_length (h : Header) : (front h).length = 8 := by simp [front]

theorem destinationPart_length (h : Header) :
    (destinationPart h).length = if has h.flags destinationIeeeFlag then 8 else 0 := by
  unfold destinationPart
  split <;> simp

theorem sourcePart_length (h : Header) :
    (sourcePart h).length = if has h.flags sourceIeeeFlag then 8 else 0 := by
  unfold sourcePart
  split <;> simp

theorem emitFrame_drop (h : Header) (payload : Bytes) :
    (emitFrame h payload).drop (headerSize h.flags) = payload := by
  rw [emitFrame_eq, ← List.append_assoc, ← List.append_assoc]
  apply List.drop_left'
  rw [List.length_append, List.length_append, front_length, destinationPart_length, sourcePart_length, headerSize,
    minHeader]

/-- The first octet. -/
def control (type version route : UInt8) : UInt8 := type ||| (version <<< 2) ||| (route <<< 6)

theorem control_fields (d : UInt8) (h : d = 0 ∨ d = 1) :
    control 0 2 d &&& 3 = 0 ∧ (control 0 2 d >>> 2) &&& 15 = 2 ∧ control 0 2 d >>> 6 = d := by
  obtain rfl | rfl := h <;> decide

/-- Flags live in the high octet. -/
theorem flags_high (f : UInt16) (h : f &&& 0xC7FF = 0) : f &&& 0xFF = 0 := by
  have hm : (0xFF : UInt16) = 0xC7FF &&& 0xFF := by decide
  rw [hm, ← UInt16.and_assoc, h, UInt16.zero_and]

theorem candidate_emit {h : Header} (hs : Shaped h) (payload : Bytes) :
    candidate (emitFrame h payload) =
      { h with destinationIeee := Vector.replicate 8 0, sourceIeee := Vector.replicate 8 0 } := by
  obtain ⟨h1, h2, h3⟩ := control_fields h.discoverRoute hs.route
  have hf := high_restore h.flags (flags_high h.flags hs.flags)
  have hd : ¬ (h.discoverRoute = 2 ∧ h.destination < 0xFFF8) := by
    obtain hr | hr := hs.route <;> rw [hr] <;> exact fun hn => absurd hn.1 (by decide)
  have hcontrol : u16At (emitFrame h payload) 0 =
      le16 (control 0 2 h.discoverRoute) (h.flags >>> 8).toUInt8 := by
    rw [emitFrame_eq, front, hs.type, hs.version]
    rfl
  have hdestination : u16At (emitFrame h payload) 2 = h.destination := by
    rw [emitFrame_eq, front]
    simp only [List.append_assoc]
    rw [u16At_skip _ _ 2 (by simp)]
    exact u16At_here h.destination _
  have hsource : u16At (emitFrame h payload) 4 = h.source := by
    rw [emitFrame_eq, front]
    simp only [List.append_assoc]
    rw [u16At_skip _ _ 4 (by simp), u16At_skip _ _ _ (by simp)]
    exact u16At_here h.source _
  have hradius : byteAt (emitFrame h payload) 6 = h.radius := rfl
  have hsequence : byteAt (emitFrame h payload) 7 = h.sequence := rfl
  unfold candidate
  simp only [hcontrol, hdestination, hsource, hradius, hsequence, le16_low2, le16_next4, le16_top2, le16_high, h1, h2, h3,
    if_neg hd, hf]
  have ht := hs.type
  have hv := hs.version
  cases h
  subst ht hv
  rfl

theorem destination_emit (h : Header) (payload : Bytes) (hd : has h.flags destinationIeeeFlag = true) :
    fieldAt (emitFrame h payload) minHeader 8 = h.destinationIeee := by
  rw [emitFrame_eq, fieldAt_skip _ _ minHeader _ (front_length h).le, front_length, destinationPart, if_pos hd]
  exact fieldAt_here h.destinationIeee _

theorem source_emit (h : Header) (payload : Bytes) (hm : has h.flags sourceIeeeFlag = true) :
    fieldAt (emitFrame h payload) (minHeader + if has h.flags destinationIeeeFlag then 8 else 0) 8 = h.sourceIeee := by
  have hl : (front h ++ destinationPart h).length = minHeader + if has h.flags destinationIeeeFlag then 8 else 0 := by
    rw [List.length_append, front_length, destinationPart_length, minHeader]
  rw [emitFrame_eq, ← List.append_assoc, fieldAt_skip _ _ _ _ hl.le, hl, Nat.sub_self, sourcePart, if_pos hm]
  exact fieldAt_here h.sourceIeee _

/-- A header reads back from its frame, whatever stands behind it. -/
theorem decode_emit {h : Header} {size : Nat} (hs : headerShape h = .ok size) (payload : Bytes) (length : Nat)
    (hl : size ≤ length) (hm : length ≤ maxBody) :
    decode (emitFrame h payload) length = .ok ⟨canonical h, size, length - size⟩ := by
  have hsize := headerShape_ok hs
  have hmin : minHeader ≤ length := by
    rw [hsize, headerSize] at hl
    omega
  have hc := candidate_emit (headerShape_shaped hs) payload
  have hshape : headerShape (candidate (emitFrame h payload)) = .ok size := by
    rw [hc]
    exact hs
  unfold decode
  rw [if_neg (Nat.not_lt.2 hm), if_neg (Nat.not_lt.2 hmin)]
  simp only [hshape]
  rw [if_neg (Nat.not_lt.2 hl), hc]
  have h1 : (if has h.flags destinationIeeeFlag then fieldAt (emitFrame h payload) minHeader 8
      else Vector.replicate 8 0) = (canonical h).destinationIeee := by
    unfold canonical
    split
    · rename_i hd
      exact destination_emit h payload hd
    · rfl
  have h2 : (if has h.flags sourceIeeeFlag then
      fieldAt (emitFrame h payload) (minHeader + if has h.flags destinationIeeeFlag then 8 else 0) 8
      else Vector.replicate 8 0) = (canonical h).sourceIeee := by
    unfold canonical
    split
    · rename_i hd
      exact source_emit h payload hd
    · rfl
  simp only [h1, h2]
  rfl

/-! What is read is sent again. -/

/-- The control octet as it is sent on: a unicast's route request 2 becomes 1. -/
def routedOctet (b : UInt8) (destination : UInt16) : UInt8 :=
  if b >>> 6 = 2 ∧ destination < 0xFFF8 then (b &&& 0x3F) ||| 0x40 else b

/-- A frame as it is sent on. -/
def routed (body : Bytes) : Bytes := body.modifyHead (routedOctet · (u16At body 2))

theorem routedOctet_eq (b : UInt8) (destination : UInt16) (ht : b &&& 3 = 0) (hv : (b >>> 2) &&& 15 = 2) :
    control 0 2 (if b >>> 6 = 2 ∧ destination < 0xFFF8 then 1 else b >>> 6) = routedOctet b destination := by
  have h1 : ∀ b : UInt8, b &&& 3 = 0 → (b >>> 2) &&& 15 = 2 → b >>> 6 = 2 →
      control 0 2 1 = (b &&& 0x3F) ||| 0x40 := by decide
  have h2 : ∀ b : UInt8, b &&& 3 = 0 → (b >>> 2) &&& 15 = 2 → control 0 2 (b >>> 6) = b := by decide
  unfold routedOctet
  split
  · rename_i hr
    exact h1 b ht hv hr.1
  · exact h2 b ht hv

/-- The addresses of a header stand behind its eight fixed octets. -/
theorem addresses_read (fixed rest : Bytes) (h8 : fixed.length = 8) (d m : Bool)
    (hl : (if d then 8 else 0) + (if m then 8 else 0) ≤ rest.length) :
    (if d then (fieldAt (fixed ++ rest) 8 8).toList else []) ++
      (if m then (fieldAt (fixed ++ rest) (8 + if d then 8 else 0) 8).toList else []) =
      rest.take ((if d then 8 else 0) + (if m then 8 else 0)) := by
  have hd (i : Nat) : (fixed ++ rest).drop (8 + i) = rest.drop i := drop_past h8 rest i
  have h0 : (fixed ++ rest).drop 8 = rest := hd 0
  cases d <;> cases m <;>
    simp only [Bool.false_eq_true, if_false, if_true, List.nil_append, List.append_nil, Nat.zero_add, Nat.add_zero,
      List.take_zero] at hl ⊢
  · rw [fieldAt_toList _ _ _ (by rw [List.length_append]; omega), h0]
  · rw [fieldAt_toList _ _ _ (by rw [List.length_append]; omega), h0]
  · rw [fieldAt_toList _ _ _ (by rw [List.length_append]; omega), fieldAt_toList _ _ _ (by rw [List.length_append]; omega),
      h0, hd 8, ← List.take_add]

/-- The header as it is read, its addresses included. -/
def readHeader (body : Bytes) : Header :=
  { candidate body with
    destinationIeee := if has (candidate body).flags destinationIeeeFlag then fieldAt body 8 8 else Vector.replicate 8 0
    sourceIeee := if has (candidate body).flags sourceIeeeFlag then
      fieldAt body (8 + if has (candidate body).flags destinationIeeeFlag then 8 else 0) 8 else Vector.replicate 8 0 }

theorem front_read {fixed : Bytes} (h8 : fixed.length = 8) (rest : Bytes) (hs : Shaped (candidate (fixed ++ rest))) :
    front (readHeader (fixed ++ rest)) = routed fixed := by
  obtain ⟨b0, b1, b2, b3, b4, b5, b6, b7, rfl⟩ := eight_octets h8
  have ht : b0 &&& 3 = 0 := (le16_low2 b0 b1).symm.trans hs.type
  have hv : (b0 >>> 2) &&& 15 = 2 := (le16_next4 b0 b1).symm.trans hs.version
  have hroute : (readHeader ([b0, b1, b2, b3, b4, b5, b6, b7] ++ rest)).discoverRoute =
      if b0 >>> 6 = 2 ∧ le16 b2 b3 < 0xFFF8 then (1 : UInt8) else b0 >>> 6 := by
    rw [← le16_top2 b0 b1]
    rfl
  have hflags : ((readHeader ([b0, b1, b2, b3, b4, b5, b6, b7] ++ rest)).flags >>> 8).toUInt8 = b1 := by
    have hf : (readHeader ([b0, b1, b2, b3, b4, b5, b6, b7] ++ rest)).flags = b1.toUInt16 <<< 8 := le16_high b0 b1
    rw [hf, high_octet]
  have htype : (readHeader ([b0, b1, b2, b3, b4, b5, b6, b7] ++ rest)).type = 0 := hs.type
  have hversion : (readHeader ([b0, b1, b2, b3, b4, b5, b6, b7] ++ rest)).version = 2 := hs.version
  have hdestination : put16 (readHeader ([b0, b1, b2, b3, b4, b5, b6, b7] ++ rest)).destination = [b2, b3] :=
    put16_le16 b2 b3
  have hsource : put16 (readHeader ([b0, b1, b2, b3, b4, b5, b6, b7] ++ rest)).source = [b4, b5] := put16_le16 b4 b5
  have hcontrol := routedOctet_eq b0 (le16 b2 b3) ht hv
  unfold control at hcontrol
  unfold front
  rw [hroute, hflags, htype, hversion, hdestination, hsource, hcontrol]
  rfl

theorem routed_append {fixed : Bytes} (h8 : fixed.length = 8) (rest : Bytes) :
    routed (fixed ++ rest) = routed fixed ++ rest := by
  obtain ⟨b0, b1, b2, b3, b4, b5, b6, b7, rfl⟩ := eight_octets h8
  rfl

theorem routed_length (body : Bytes) : (routed body).length = body.length := List.length_modifyHead ..

/-- A header that was read is emitted again. -/
theorem emit_read {body : Bytes} {size : Nat} (hs : headerShape (candidate body) = .ok size) (hb : size ≤ body.length)
    (payload : Bytes) : emitFrame (readHeader body) payload = (routed body).take size ++ payload := by
  have hsize : size = 8 + ((if has (candidate body).flags destinationIeeeFlag then 8 else 0) +
      (if has (candidate body).flags sourceIeeeFlag then 8 else 0)) := by
    rw [headerShape_ok hs, headerSize, minHeader, Nat.add_assoc]
  obtain ⟨fixed, rest, h8, rfl⟩ := split_front (show 8 ≤ body.length by omega)
  have hr8 : (routed fixed).length = 8 := (routed_length fixed).trans h8
  rw [emitFrame_eq, front_read h8 rest (headerShape_shaped hs), routed_append h8 rest, ← List.append_assoc,
    ← List.append_assoc, hsize, take_past hr8, List.append_assoc (routed fixed)]
  congr 2
  rw [List.length_append, hsize, h8] at hb
  have hr := addresses_read fixed rest h8 (has (candidate (fixed ++ rest)).flags destinationIeeeFlag)
    (has (candidate (fixed ++ rest)).flags sourceIeeeFlag) (by omega)
  rw [← hr]
  unfold destinationPart sourcePart
  have hf : (readHeader (fixed ++ rest)).flags = (candidate (fixed ++ rest)).flags := rfl
  rw [hf]
  congr 1
  · split <;> simp_all [readHeader]
  · split <;> simp_all [readHeader]

/-- The header that was read stands in front of the body. -/
structure Heads (body : Bytes) (length : Nat) (info : Info) : Prop where
  shape : headerShape info.header = .ok info.payloadOffset
  bounds : info.payloadOffset ≤ length ∧ length ≤ maxBody
  size : info.payloadLength = length - info.payloadOffset
  canonical : NwkFrame.canonical info.header = info.header
  emitted : ∀ payload, info.payloadOffset ≤ body.length →
    emitFrame info.header payload = (routed body).take info.payloadOffset ++ payload

theorem decode_heads {body : Bytes} {length : Nat} {info : Info} (hd : decode body length = .ok info) :
    Heads body length info := by
  unfold decode at hd
  split at hd
  · cases hd
  rename_i hmax
  split at hd
  · cases hd
  simp only at hd
  split at hd
  · cases hd
  rename_i size hs
  split at hd
  · cases hd
  rename_i hlen
  cases hd
  refine ⟨hs, ⟨Nat.le_of_not_lt hlen, Nat.le_of_not_lt hmax⟩, rfl, ?_, fun payload hb => emit_read hs hb payload⟩
  simp only [NwkFrame.canonical]
  congr 1 <;> split <;> rfl

theorem decode_flags {body : Bytes} {length : Nat} {info : Info} (hd : decode body length = .ok info) :
    info.header.flags = (candidate body).flags := by
  unfold decode at hd
  split at hd
  · cases hd
  split at hd
  · cases hd
  simp only at hd
  split at hd
  · cases hd
  split at hd
  · cases hd
  cases hd
  rfl

/-- The header is read from the header's octets alone. -/
theorem decode_again {body : Bytes} {length : Nat} {info : Info} (hd : decode body length = .ok info) {n : Nat}
    (hl : info.payloadOffset ≤ n) (hm : n ≤ maxBody) :
    decode body n = .ok { info with payloadLength := n - info.payloadOffset } := by
  unfold decode at hd ⊢
  split at hd
  · cases hd
  split at hd
  · cases hd
  simp only at hd ⊢
  split at hd
  · cases hd
  rename_i size hs
  split at hd
  · cases hd
  cases hd
  simp only at hl
  have hmin : minHeader ≤ n := by
    rw [headerShape_ok hs, headerSize] at hl
    omega
  rw [if_neg (Nat.not_lt.2 hm), if_neg (Nat.not_lt.2 hmin)]
  simp only
  rw [if_neg (Nat.not_lt.2 hl)]

/-- The encoder's checks. -/
theorem encode_ok {h : Header} {payload frame : Bytes} {capacity : Nat} :
    encode h payload capacity = .ok frame ↔ ∃ size, headerShape h = .ok size ∧ size + payload.length ≤ maxBody ∧
      size + payload.length ≤ capacity ∧ frame = emitFrame h payload := by
  unfold encode
  cases hs : headerShape h with
  | error e => simp
  | ok size =>
    have hsize : size ≤ maxBody := by
      rw [headerShape_ok hs, headerSize, minHeader, maxBody]
      split <;> split <;> omega
    simp only
    constructor
    · intro he
      split at he
      · cases he
      split at he
      · cases he
      cases he
      exact ⟨size, rfl, by omega, by omega, rfl⟩
    · rintro ⟨size', hs', hl, hc, rfl⟩
      cases hs'
      rw [if_neg (by omega), if_neg (by omega)]

/-- A frame that is encoded decodes to its header, absent addresses zeroed, with the payload behind it. -/
theorem frame_decodes {h : Header} {payload frame : Bytes} {capacity : Nat} (he : encode h payload capacity = .ok frame) :
    decode frame frame.length = .ok ⟨canonical h, headerSize h.flags, payload.length⟩ ∧
      frame.drop (headerSize h.flags) = payload := by
  obtain ⟨size, hs, hl, -, rfl⟩ := encode_ok.1 he
  have hsize := headerShape_ok hs
  subst hsize
  refine ⟨?_, emitFrame_drop h payload⟩
  rw [emitFrame_length, decode_emit hs payload _ (Nat.le_add_right ..) hl, Nat.add_sub_cancel_left]

/-- A frame to a broadcast address. -/
theorem frame_decodes_sample : ∃ frame,
    encode ⟨0, 2, 0, 0x1000, 0xFFFD, 5, 30, 9, Vector.replicate 8 1, Vector.replicate 8 2⟩ [7, 8] 18 = .ok frame ∧
      decode frame frame.length =
        .ok ⟨canonical ⟨0, 2, 0, 0x1000, 0xFFFD, 5, 30, 9, Vector.replicate 8 1, Vector.replicate 8 2⟩, 16, 2⟩ := by
  cases h : encode ⟨0, 2, 0, 0x1000, 0xFFFD, 5, 30, 9, Vector.replicate 8 1, Vector.replicate 8 2⟩ [7, 8] 18 with
  | error e =>
    have hok : (encode ⟨0, 2, 0, 0x1000, 0xFFFD, 5, 30, 9, Vector.replicate 8 1, Vector.replicate 8 2⟩ [7, 8] 18).isOk =
        true := by decide
    rw [h] at hok
    cases hok
  | ok frame => exact ⟨frame, rfl, (frame_decodes h).1⟩

/-- A frame that decodes is encoded again octet for octet, a received route request aside. -/
theorem frame_encodes {body : Bytes} {info : Info} (hd : decode body body.length = .ok info) {capacity : Nat}
    (hc : body.length ≤ capacity) :
    encode info.header (body.drop info.payloadOffset) capacity = .ok (routed body) := by
  have hh := decode_heads hd
  obtain ⟨hoff, hmax⟩ := hh.bounds
  apply encode_ok.2
  refine ⟨info.payloadOffset, hh.shape, by rw [List.length_drop]; omega, by rw [List.length_drop]; omega, ?_⟩
  have hsize := headerShape_ok hh.shape
  have hpos : 0 < info.payloadOffset := by
    rw [hsize, headerSize, minHeader]
    omega
  obtain ⟨n, hn⟩ := Nat.exists_eq_add_of_le' hpos
  have hdrop : body.drop info.payloadOffset = (routed body).drop info.payloadOffset := by
    rw [hn]
    unfold routed
    cases body <;> rfl
  rw [hh.emitted _ hoff, hdrop, List.take_append_drop]

theorem frame_encodes_sample : ∃ info, decode [0x88, 0, 1, 0, 2, 0, 30, 9, 0xAA] 9 = .ok info ∧
    encode info.header ([0x88, 0, 1, 0, 2, 0, 30, 9, 0xAA].drop info.payloadOffset) 9 =
      .ok (routed [0x88, 0, 1, 0, 2, 0, 30, 9, 0xAA]) := by
  cases h : decode [0x88, 0, 1, 0, 2, 0, 30, 9, 0xAA] 9 with
  | error e =>
    have hok : (decode [0x88, 0, 1, 0, 2, 0, 30, 9, 0xAA] 9).isOk = true := by decide
    rw [h] at hok
    cases hok
  | ok info => exact ⟨info, rfl, frame_encodes h (Nat.le_refl 9)⟩

end NwkFrame
