import Cc2530Zigbee.EdWire
import Cc2530Zigbee.NwkFrameCodec
import Cc2530Zigbee.ApsFrameCodec

/-!
# Packets there and back

A packet that is encoded decodes to itself, the fields its frame does not carry
zeroed. A frame that decodes is encoded again octet for octet, a received route
request aside. The header readers depend on the header alone.
-/
namespace EdWire

set_option maxRecDepth 8000

open Octets NwkFrame

/-! The NWK header. -/

/-- The size of the header that the second octet announces. -/
def nwkSize (frame : Bytes) : Nat :=
  8 + (if byteAt frame 1 &&& 8 ≠ 0 then 8 else 0) + (if byteAt frame 1 &&& 16 ≠ 0 then 8 else 0)

/-- The header with its type and its security bit cleared. -/
def plainHead (frame : Bytes) : Bytes :=
  (byteAt frame 0 &&& 0xFC) :: (byteAt frame 1 &&& ~~~ 2) :: (frame.take (nwkSize frame)).drop 2

/-- The header as the frame carries it, over the plain one. -/
def restoreNwk (frame : Bytes) (info : NwkFrame.Info) : NwkFrame.Info :=
  { info with header := { info.header with
      type := byteAt frame 0 &&& 3
      flags := info.header.flags ||| ((byteAt frame 1 &&& 2).toUInt16 <<< 8) } }

theorem nwkSize_bounds (frame : Bytes) : 8 ≤ nwkSize frame ∧ nwkSize frame ≤ 24 := by
  unfold nwkSize
  split <;> split <;> omega

/-- What `read_nwk` checks and yields. -/
theorem readNwk_ok {frame : Bytes} {info : NwkFrame.Info} :
    readNwk frame = .ok info ↔
      frame.length ≤ NwkFrame.maxBody ∧ ¬ nwkCommand < byteAt frame 0 &&& 3 ∧ nwkSize frame ≤ frame.length ∧
        ∃ plain, NwkFrame.decode (plainHead frame) frame.length = .ok plain ∧ info = restoreNwk frame plain := by
  have hb := nwkSize_bounds frame
  have hsize : 8 + (if byteAt frame 1 &&& 8 ≠ 0 then 8 else 0) + (if byteAt frame 1 &&& 16 ≠ 0 then 8 else 0) =
      nwkSize frame := rfl
  unfold readNwk
  simp only [hsize]
  constructor
  · intro h
    split at h
    · cases h
    rename_i hlen
    split at h
    · cases h
    rename_i htype
    split at h
    · cases h
    rename_i hsize
    split at h
    · cases h
    · rename_i plain hd
      cases h
      exact ⟨by omega, htype, Nat.le_of_not_lt hsize, plain, hd, rfl⟩
  · rintro ⟨hlen, htype, hsize, plain, hd, rfl⟩
    unfold plainHead at hd
    rw [if_neg (by omega), if_neg htype, if_neg (Nat.not_lt.2 hsize), hd]
    rfl

/-- The flags of the plain header name the size the octet announced. -/
theorem plain_flags : ∀ b : UInt8,
    has ((b &&& ~~~ 2).toUInt16 <<< 8) destinationIeeeFlag = (b &&& 8 != 0) ∧
    has ((b &&& ~~~ 2).toUInt16 <<< 8) sourceIeeeFlag = (b &&& 16 != 0) := by
  decide

theorem plainHead_flags (frame : Bytes) :
    (candidate (plainHead frame)).flags = (byteAt frame 1 &&& ~~~ 2).toUInt16 <<< 8 :=
  le16_high (byteAt frame 0 &&& 0xFC) (byteAt frame 1 &&& ~~~ 2)

theorem plainHead_size (frame : Bytes) : headerSize (candidate (plainHead frame)).flags = nwkSize frame := by
  obtain ⟨h1, h2⟩ := plain_flags (byteAt frame 1)
  rw [plainHead_flags]
  unfold headerSize nwkSize minHeader
  simp only [h1, h2, bne_iff_ne]

theorem two_front {frame : Bytes} (h : 2 ≤ frame.length) : ∃ b0 b1 tail, frame = b0 :: b1 :: tail := by
  obtain ⟨b0, rest, rfl⟩ := List.exists_cons_of_length_pos (show 0 < frame.length by omega)
  simp only [List.length_cons] at h
  obtain ⟨b1, tail, rfl⟩ := List.exists_cons_of_length_pos (show 0 < rest.length by omega)
  exact ⟨b0, b1, tail, rfl⟩

theorem plainHead_eq (b0 b1 : UInt8) (tail : Bytes) :
    plainHead (b0 :: b1 :: tail) =
      (b0 &&& 0xFC) :: (b1 &&& ~~~ 2) :: tail.take (nwkSize (b0 :: b1 :: tail) - 2) := by
  obtain ⟨n, hn⟩ := Nat.exists_eq_add_of_le' (show 2 ≤ nwkSize (b0 :: b1 :: tail) from
    Nat.le_trans (by decide) (nwkSize_bounds _).1)
  unfold plainHead
  rw [hn]
  rfl

theorem plainHead_length {frame : Bytes} (h : nwkSize frame ≤ frame.length) :
    (plainHead frame).length = nwkSize frame := by
  have hb := nwkSize_bounds frame
  unfold plainHead
  simp only [List.length_cons, List.length_drop, List.length_take]
  omega

/-- The payload starts behind the header that the second octet announced. -/
theorem readNwk_offset {frame : Bytes} {info : NwkFrame.Info} (h : readNwk frame = .ok info) :
    info.payloadOffset = nwkSize frame := by
  obtain ⟨-, -, hsize, plain, hd, rfl⟩ := readNwk_ok.1 h
  have hh := decode_heads hd
  have hl := (headerShape_ok hh.shape).trans (congrArg headerSize (decode_flags hd))
  exact hl.trans (plainHead_size frame)

/-! A header that was emitted reads back. -/

theorem emitFrame_append (h : NwkFrame.Header) (payload : Bytes) :
    NwkFrame.emitFrame h payload = NwkFrame.emitFrame h [] ++ payload := by
  simp only [NwkFrame.emitFrame, List.append_nil, List.append_assoc]

/-- The type goes into the two low bits, and the flags hold no security bit. -/
theorem typed_control : ∀ t d : UInt8, ¬ nwkCommand < t → d = 0 ∨ d = 1 →
    (NwkFrame.control 0 2 d ||| t) &&& 3 = t ∧ (NwkFrame.control 0 2 d ||| t) &&& 0xFC = NwkFrame.control 0 2 d := by
  intro t d ht hd
  have ht : t = 0 ∨ t = 1 := route_small t ht
  obtain rfl | rfl := ht <;> obtain rfl | rfl := hd <;> decide

theorem shaped_octet {f : UInt16} (h : f &&& 0xC7FF = 0) :
    (f >>> 8).toUInt8 &&& 2 = 0 ∧ (f >>> 8).toUInt8 &&& ~~~ (2 : UInt8) = (f >>> 8).toUInt8 ∧
      ((f >>> 8).toUInt8 &&& ~~~ (2 : UInt8)).toUInt16 <<< 8 = f := by
  have hf := high_restore f (flags_high f h)
  have hb : ∀ b : UInt8, (b.toUInt16 <<< 8) &&& 0xC7FF = 0 → b &&& 2 = 0 ∧ b &&& ~~~ 2 = b := by decide
  obtain ⟨h1, h2⟩ := hb (f >>> 8).toUInt8 (by rw [hf]; exact h)
  exact ⟨h1, h2, by rw [h2]; exact hf⟩

/-- A header without its type. -/
def untyped (h : NwkFrame.Header) : NwkFrame.Header := { h with type := 0 }

theorem readNwk_emit {h : NwkFrame.Header} {size : Nat} (hs : headerShape (untyped h) = .ok size)
    (ht : ¬ nwkCommand < h.type) (body : Bytes) (hl : size + body.length ≤ NwkFrame.maxBody) :
    readNwk ((NwkFrame.emitFrame (untyped h) body).modifyHead (· ||| h.type)) =
      .ok ⟨NwkFrame.canonical h, size, body.length⟩ := by
  have hshape := headerShape_shaped hs
  obtain ⟨ht1, ht2⟩ := typed_control h.type h.discoverRoute ht hshape.route
  obtain ⟨hb1, hb2, hb3⟩ := @shaped_octet h.flags hshape.flags
  have hsize : size = headerSize h.flags := @headerShape_ok (untyped h) size hs
  have hemit : NwkFrame.emitFrame (untyped h) [] = NwkFrame.control 0 h.version h.discoverRoute ::
      (h.flags >>> 8).toUInt8 :: (NwkFrame.emitFrame (untyped h) []).drop 2 := rfl
  have hlen : (NwkFrame.emitFrame (untyped h) []).length = size := by
    rw [NwkFrame.emitFrame_length, hsize]
    rfl
  have hdecode := decode_emit hs [] (size + body.length) (Nat.le_add_right ..) hl
  have hv : h.version = 2 := hshape.version
  rw [emitFrame_append]
  rw [hv] at hemit
  generalize NwkFrame.emitFrame (untyped h) [] = front at hemit hlen hdecode ⊢
  obtain ⟨tail, htail⟩ : ∃ tail, tail = front.drop 2 := ⟨_, rfl⟩
  rw [← htail] at hemit
  subst hemit
  simp only [List.length_cons] at hlen
  simp only [List.cons_append, List.modifyHead_cons]
  have hn : nwkSize ((NwkFrame.control 0 2 h.discoverRoute ||| h.type) :: (h.flags >>> 8).toUInt8 :: (tail ++ body)) =
      size := by
    rw [← plainHead_size, plainHead_flags]
    simp only [byteAt_cons, byteAt_here]
    refine (congrArg headerSize ?_).trans hsize.symm
    exact hb3
  have hplain : plainHead ((NwkFrame.control 0 2 h.discoverRoute ||| h.type) :: (h.flags >>> 8).toUInt8 ::
      (tail ++ body)) = NwkFrame.control 0 2 h.discoverRoute :: (h.flags >>> 8).toUInt8 :: tail := by
    rw [plainHead_eq, hn, ht2, hb2, ← hlen]
    simp
  apply readNwk_ok.2
  refine ⟨?_, ?_, ?_, ⟨NwkFrame.canonical (untyped h), size, body.length⟩, ?_, ?_⟩
  · simp only [List.length_cons, List.length_append]
    omega
  · rw [byteAt_here, ht1]
    exact ht
  · rw [hn]
    simp only [List.length_cons, List.length_append]
    omega
  · rw [hplain]
    have hlen' : ((NwkFrame.control 0 2 h.discoverRoute ||| h.type) :: (h.flags >>> 8).toUInt8 :: (tail ++ body)).length =
        size + body.length := by
      simp only [List.length_cons, List.length_append]
      omega
    rw [hlen', hdecode, Nat.add_sub_cancel_left]
  · unfold restoreNwk
    simp only [byteAt_cons, byteAt_here]
    rw [ht1, hb1]
    have hf : (NwkFrame.canonical (untyped h)).flags ||| (0 : UInt8).toUInt16 <<< 8 = h.flags := UInt16.or_zero
    rw [hf]
    rfl

/-! A header that was read is emitted again. -/

/-- The type bits ride on the control octet as it is sent on. -/
theorem typed_octet (b : UInt8) (destination : UInt16) :
    routedOctet (b &&& 0xFC) destination ||| (b &&& 3) = routedOctet b destination := by
  have h1 : ∀ b : UInt8, (b &&& 0xFC) >>> 6 = b >>> 6 ∧ (b &&& 0xFC) ||| (b &&& 3) = b ∧
      (((b &&& 0xFC) &&& 0x3F) ||| 0x40) ||| (b &&& 3) = (b &&& 0x3F) ||| 0x40 := by decide
  obtain ⟨hr, hb, hu⟩ := h1 b
  unfold routedOctet
  rw [hr]
  split
  · exact hu
  · exact hb

theorem encode_readNwk {frame : Bytes} {info : NwkFrame.Info} (h : readNwk frame = .ok info)
    (hs : byteAt frame 1 &&& 2 = 0) :
    NwkFrame.encode (untyped info.header) (frame.drop info.payloadOffset) NwkFrame.maxBody =
        .ok (NwkFrame.emitFrame (untyped info.header) (frame.drop info.payloadOffset)) ∧
      (NwkFrame.emitFrame (untyped info.header) (frame.drop info.payloadOffset)).modifyHead (· ||| info.header.type) =
        routed frame := by
  obtain ⟨hmax, htype, hsize, plain, hd, rfl⟩ := readNwk_ok.1 h
  have hh := decode_heads hd
  have hoffset : plain.payloadOffset = nwkSize frame := @readNwk_offset frame (restoreNwk frame plain) h
  have hb := nwkSize_bounds frame
  have hflags : plain.header.flags ||| (0 : UInt8).toUInt16 <<< 8 = plain.header.flags := UInt16.or_zero
  have hplain : untyped (restoreNwk frame plain).header = plain.header := by
    have ht := (headerShape_shaped hh.shape).type
    unfold restoreNwk untyped
    rw [hs]
    simp only [hflags]
    rw [← ht]
  have hdrop : (restoreNwk frame plain).payloadOffset = nwkSize frame := hoffset
  rw [hplain, hdrop]
  constructor
  · apply NwkFrame.encode_ok.2
    refine ⟨plain.payloadOffset, hh.shape, ?_, ?_, rfl⟩
    · rw [hoffset, List.length_drop]
      omega
    · rw [hoffset, List.length_drop]
      omega
  · have hhead := plainHead_length hsize
    have hwhole : (routed (plainHead frame)).take (nwkSize frame) = routed (plainHead frame) :=
      List.take_of_length_le (by rw [routed_length, hhead])
    rw [hh.emitted _ (by rw [hhead, hoffset]), hoffset, hwhole]
    obtain ⟨b0, b1, tail, rfl⟩ := two_front (show 2 ≤ frame.length by omega)
    have hclear : ∀ b : UInt8, b &&& 2 = 0 → b &&& ~~~ 2 = b := by decide
    have h1 : b1 &&& ~~~ 2 = b1 := hclear b1 hs
    rw [plainHead_eq, h1]
    generalize nwkSize (b0 :: b1 :: tail) = n at hb
    obtain ⟨k, rfl⟩ := Nat.exists_eq_add_of_le' (show 2 ≤ n by omega)
    have hdestination : u16At ((b0 &&& 0xFC) :: b1 :: tail.take k) 2 = u16At (b0 :: b1 :: tail) 2 := by
      obtain ⟨j, rfl⟩ := Nat.exists_eq_add_of_le' (show 2 ≤ k by omega)
      cases tail with
      | nil => rfl
      | cons b2 tail => cases tail <;> rfl
    unfold routed
    rw [Nat.add_sub_cancel, hdestination]
    simp only [List.modifyHead_cons, List.cons_append, List.drop_succ_cons, List.take_append_drop]
    exact congrArg (· :: b1 :: tail) (typed_octet b0 _)

/-! The APS header. -/

/-- The control octet of an APS header. -/
def apsControl (h : ApsFrame.Header) : UInt8 := ApsFrame.control h.type h.deliveryMode h.flags

/-- A control octet no frame may have. -/
def Refused (c : UInt8) : Prop :=
  apsAck < c &&& 3 ∨ ((c >>> 2) &&& 3 ≠ 0 ∧ (c >>> 2) &&& 3 ≠ ApsFrame.deliveryBroadcast) ∨
    ApsFrame.has (c &&& 0xF0) ApsFrame.extendedHeader = true ∨ (c &&& 3 ≠ 0 ∧ (c >>> 2) &&& 3 ≠ 0) ∨
    (c &&& 3 ≠ apsAck ∧ ApsFrame.has (c &&& 0xF0) ApsFrame.ackFormat = true) ∨
    ((c &&& 3 = apsAck ∨ (c >>> 2) &&& 3 ≠ 0) ∧ ApsFrame.has (c &&& 0xF0) ApsFrame.ackRequest = true)

/-- The fields a control octet sets. -/
def restoreAps (c : UInt8) (h : ApsFrame.Header) : ApsFrame.Header :=
  { h with type := c &&& 3, deliveryMode := (c >>> 2) &&& 3, flags := c &&& 0xF0 }

/-- A control octet announces a header of two octets. -/
def isShort (c : UInt8) : Bool := shortHeader (c &&& 3) (c &&& 0xF0)

/-- The header with the control octet reduced to the acknowledgment request. -/
def plainAps (frame : Bytes) : Bytes := (byteAt frame 0 &&& ApsFrame.ackRequest) :: (frame.take 8).drop 1

/-- What `read_aps` checks and yields. -/
theorem readAps_ok {frame : Bytes} {info : ApsFrame.Info} :
    readAps frame = .ok info ↔
      2 ≤ frame.length ∧ frame.length ≤ ApsFrame.maxBody ∧ ¬ Refused (byteAt frame 0) ∧
        ((isShort (byteAt frame 0) = true ∧
            info = ⟨restoreAps (byteAt frame 0) { ApsFrame.Header.zero with counter := byteAt frame 1 }, 2,
              frame.length - 2⟩) ∨
          (isShort (byteAt frame 0) = false ∧ 8 ≤ frame.length ∧
            ∃ plain, ApsFrame.decode (plainAps frame) frame.length = .ok plain ∧
              info = ⟨restoreAps (byteAt frame 0) plain.header, 8, frame.length - 8⟩)) := by
  unfold readAps
  constructor
  · intro h
    split at h
    · cases h
    rename_i hlen
    simp only at h
    split at h
    · cases h
    rename_i hcontrol
    split at h
    · rename_i hshort
      cases h
      exact ⟨by omega, by omega, hcontrol, .inl ⟨hshort, rfl⟩⟩
    · rename_i hshort
      split at h
      · cases h
      rename_i h8
      split at h
      · cases h
      rename_i plain hd
      cases h
      have ho : plain.payloadOffset = 8 := (ApsFrame.decode_heads hd).offset
      refine ⟨by omega, by omega, hcontrol, .inr ⟨Bool.eq_false_iff.2 hshort, Nat.le_of_not_lt h8, plain, hd, ?_⟩⟩
      rw [ho]
      rfl
  · rintro ⟨h2, hmax, hcontrol, h⟩
    unfold Refused at hcontrol
    rw [if_neg (by omega)]
    simp only
    rw [if_neg hcontrol]
    obtain ⟨hshort, rfl⟩ | ⟨hshort, h8, plain, hd, rfl⟩ := h
    · unfold isShort at hshort
      rw [if_pos hshort]
      rfl
    · have ho : plain.payloadOffset = 8 := (ApsFrame.decode_heads hd).offset
      unfold isShort at hshort
      unfold plainAps at hd
      rw [if_neg (Bool.eq_false_iff.1 hshort), if_neg (Nat.not_lt.2 h8), hd]
      simp only [ho]
      rfl

/-- A control octet is put together and taken apart. -/
theorem control_restore : ∀ t d f : UInt8, ¬ apsAck < t → ¬ 3 < d → f &&& 0x0F = 0 →
    ApsFrame.control t d f &&& 3 = t ∧ (ApsFrame.control t d f >>> 2) &&& 3 = d ∧ ApsFrame.control t d f &&& 0xF0 = f := by
  intro t d f ht hd hf
  have ht' : t = 0 ∨ t = 1 ∨ t = 2 := by
    revert t
    decide
  have hd' : d = 0 ∨ d = 1 ∨ d = 2 ∨ d = 3 := by
    clear ht'
    revert d
    decide
  clear ht hd
  obtain rfl | rfl | rfl := ht' <;> obtain rfl | rfl | rfl | rfl := hd' <;> revert f <;> decide

/-! Packets that are encoded. -/

/-- The payload of a packet. -/
def Packet.text (p : Packet) : Bytes := p.payload.toList.take p.length.toNat

/-- The header the strict codec is given for an APS header of eight octets. -/
def strictAps (h : ApsFrame.Header) : ApsFrame.Header :=
  { h with type := 0, deliveryMode := 0, flags := h.flags &&& ApsFrame.ackRequest }

/-- Only commands carry a payload of their own, acknowledgments carry none. -/
def WrongSize (p : Packet) : Prop := (p.aps.type = apsAck ∧ p.length ≠ 0) ∨ (p.aps.type = apsCommand ∧ p.length = 0)

theorem encodeAps_ok {p : Packet} {body : Bytes} :
    encodeAps p = .ok body ↔
      (∃ info, readAps body = .ok info) ∧ ¬ WrongSize p ∧
        ((shortHeader p.aps.type p.aps.flags = true ∧ body = apsControl p.aps :: p.aps.counter :: p.text) ∨
          (shortHeader p.aps.type p.aps.flags = false ∧ ∃ e, ApsFrame.encode (strictAps p.aps) p.text 116 = .ok e ∧
            body = apsControl p.aps :: e.drop 1)) := by
  unfold encodeAps
  simp only
  constructor
  · intro h
    split at h
    · cases h
    rename_i body' hbody
    split at h
    · cases h
    rename_i info hread
    split at h
    · cases h
    rename_i hsize
    cases h
    refine ⟨⟨info, hread⟩, hsize, ?_⟩
    split at hbody
    · rename_i hshort
      cases hbody
      exact .inl ⟨hshort, rfl⟩
    · rename_i hshort
      split at hbody
      · cases hbody
      rename_i e he
      cases hbody
      exact .inr ⟨Bool.eq_false_iff.2 hshort, e, he, rfl⟩
  · rintro ⟨⟨info, hread⟩, hsize, ⟨hshort, rfl⟩ | ⟨hshort, e, he, rfl⟩⟩
    · unfold apsControl Packet.text ApsFrame.control at hread ⊢
      unfold WrongSize at hsize
      rw [if_pos hshort]
      simp only
      rw [hread]
      simp only
      rw [if_neg hsize]
    · unfold strictAps Packet.text at he
      unfold apsControl ApsFrame.control at hread ⊢
      unfold WrongSize at hsize
      rw [if_neg (Bool.eq_false_iff.1 hshort), he]
      simp only
      rw [hread]
      simp only
      rw [if_neg hsize]

/-- An APS header as its frame carries it. -/
def canonicalAps (h : ApsFrame.Header) : ApsFrame.Header :=
  if shortHeader h.type h.flags then
    { ApsFrame.Header.zero with
      type := h.type, deliveryMode := h.deliveryMode, flags := h.flags, counter := h.counter }
  else h

theorem restoreAps_control {h : ApsFrame.Header} (ht : ¬ apsAck < h.type) (hd : ¬ 3 < h.deliveryMode)
    (hf : h.flags &&& 0x0F = 0) (k : ApsFrame.Header) :
    restoreAps (apsControl h) k = { k with type := h.type, deliveryMode := h.deliveryMode, flags := h.flags } := by
  obtain ⟨h1, h2, h3⟩ := control_restore h.type h.deliveryMode h.flags ht hd hf
  unfold restoreAps apsControl
  rw [h1, h2, h3]

theorem isShort_control {h : ApsFrame.Header} (ht : ¬ apsAck < h.type) (hd : ¬ 3 < h.deliveryMode)
    (hf : h.flags &&& 0x0F = 0) : isShort (apsControl h) = shortHeader h.type h.flags := by
  obtain ⟨h1, -, h3⟩ := control_restore h.type h.deliveryMode h.flags ht hd hf
  unfold isShort apsControl
  rw [h1, h3]

/-- The body of an APS packet reads back. -/
theorem encodeAps_reads {p : Packet} {body : Bytes} (h : encodeAps p = .ok body) (ht : ¬ apsAck < p.aps.type)
    (hd : ¬ 3 < p.aps.deliveryMode) (hf : p.aps.flags &&& 0x0F = 0) :
    ∃ offset, readAps body = .ok ⟨canonicalAps p.aps, offset, p.text.length⟩ ∧ body.length = offset + p.text.length ∧
      body.drop offset = p.text := by
  obtain ⟨⟨info, hread⟩, -, ⟨hshort, rfl⟩ | ⟨hshort, e, he, rfl⟩⟩ := encodeAps_ok.1 h
  · refine ⟨2, ?_, by simp only [List.length_cons]; omega, rfl⟩
    obtain ⟨h2, hmax, hcontrol, -⟩ := readAps_ok.1 hread
    apply readAps_ok.2
    refine ⟨h2, hmax, hcontrol, .inl ⟨?_, ?_⟩⟩
    · rw [byteAt_here, isShort_control ht hd hf, hshort]
    · rw [byteAt_here, restoreAps_control ht hd hf, canonicalAps, if_pos hshort]
      rfl
  · obtain ⟨hvalid, hl, hc, rfl⟩ := ApsFrame.encode_ok.1 he
    have hlen : (apsControl p.aps :: (ApsFrame.emitFrame (strictAps p.aps) p.text).drop 1).length = 8 + p.text.length := by
      rw [List.length_cons, List.length_drop, ApsFrame.emitFrame_length, ApsFrame.headerSize]
      omega
    obtain ⟨h2, hmax, hcontrol, -⟩ := readAps_ok.1 hread
    refine ⟨8, ?_, hlen, rfl⟩
    apply readAps_ok.2
    refine ⟨h2, hmax, hcontrol, .inr ⟨?_, by omega, ⟨strictAps p.aps, 8, p.text.length⟩, ?_, ?_⟩⟩
    · rw [byteAt_here, isShort_control ht hd hf, hshort]
    · have hplain : plainAps (apsControl p.aps :: (ApsFrame.emitFrame (strictAps p.aps) p.text).drop 1) =
          ApsFrame.emitFrame (strictAps p.aps) [] := by
        have hcontrol : apsControl p.aps &&& ApsFrame.ackRequest =
            ApsFrame.control 0 0 (p.aps.flags &&& ApsFrame.ackRequest) := by
          have hr : ∀ c : UInt8, c &&& ApsFrame.ackRequest =
              ApsFrame.control 0 0 ((c &&& 0xF0) &&& ApsFrame.ackRequest) := by decide
          rw [hr (apsControl p.aps)]
          exact congrArg (fun f => ApsFrame.control 0 0 (f &&& ApsFrame.ackRequest))
            (control_restore p.aps.type p.aps.deliveryMode p.aps.flags ht hd hf).2.2
        unfold plainAps
        rw [byteAt_here, hcontrol]
        rfl
      have hdecode := ApsFrame.decode_emit hvalid [] (8 + p.text.length) (Nat.le_add_right ..) hl
      rw [hplain, hlen, hdecode, ApsFrame.headerSize, Nat.add_sub_cancel_left]
    · rw [byteAt_here, restoreAps_control ht hd hf, canonicalAps, if_neg (by simp [hshort]), hlen, Nat.add_sub_cancel_left]
      rfl

/-- A packet as its frame carries it. -/
def canonical (p : Packet) : Packet where
  nwk := NwkFrame.canonical p.nwk
  aps := if p.nwk.type = 0 then canonicalAps p.aps else ApsFrame.Header.zero
  length := p.length
  payload := buffer p.text 0 p.text.length

/-- What stands behind the NWK header. -/
def body (p : Packet) : Except Result Bytes :=
  if p.nwk.type ≠ 0 then if p.length = 0 then .error .length else .ok p.text else encodeAps p

theorem encode_ok {p : Packet} {capacity : Nat} {frame : Bytes} :
    encode p capacity = .ok frame ↔
      (p.length.toNat ≤ payloadMax ∧ ¬ nwkCommand < p.nwk.type ∧ has p.nwk.flags NwkFrame.security = false ∧
        ApsFrame.has p.aps.flags ApsFrame.security = false) ∧
      (p.nwk.type = 0 → ¬ apsAck < p.aps.type ∧ ¬ 3 < p.aps.deliveryMode ∧ p.aps.flags &&& 0x0F = 0) ∧
      ∃ s f, body p = .ok s ∧ NwkFrame.encode (untyped p.nwk) s NwkFrame.maxBody = .ok f ∧ f.length ≤ capacity ∧
        frame = f.modifyHead (· ||| p.nwk.type) := by
  have hbody : body p = if p.nwk.type ≠ 0 then
        if p.length = 0 then .error .length else .ok (p.payload.toList.take p.length.toNat)
      else encodeAps p := rfl
  unfold encode
  simp only [← hbody]
  constructor
  · intro h
    split at h
    · cases h
    rename_i h1
    split at h
    · cases h
    rename_i h2
    simp only [not_or, Bool.not_eq_true] at h1
    refine ⟨⟨Nat.le_of_not_lt h1.1, h1.2⟩, fun ht => ?_, ?_⟩
    · simp only [not_and, not_or] at h2
      obtain ⟨ha, hb, hc⟩ := h2 ht
      exact ⟨ha, hb, not_not.1 hc⟩
    · split at h
      · cases h
      rename_i s hs
      split at h
      · cases h
      rename_i f hf
      split at h
      · cases h
      rename_i hcap
      cases h
      exact ⟨s, f, hs, hf, Nat.le_of_not_lt hcap, rfl⟩
  · rintro ⟨⟨h1, h2, h3, h4⟩, h5, s, f, hs, hf, hcap, rfl⟩
    rw [if_neg (by simp [Nat.not_lt.2 h1, h2, h3, h4])]
    rw [if_neg]
    · rw [hs]
      simp only
      unfold untyped at hf
      rw [hf]
      simp only
      rw [if_neg (Nat.not_lt.2 hcap)]
    · rintro ⟨ht, hn⟩
      obtain ⟨ha, hb, hc⟩ := h5 ht
      obtain hn | hn | hn := hn
      · exact ha hn
      · exact hb hn
      · exact hn hc

theorem text_length {p : Packet} (h : p.length.toNat ≤ payloadMax) : p.text.length = p.length.toNat := by
  unfold payloadMax at h
  unfold Packet.text
  rw [List.length_take, Vector.length_toList]
  omega

theorem buffer_drop (frame : Bytes) (offset size : Nat) : buffer frame offset size = buffer (frame.drop offset) 0 size := by
  ext k hk
  simp [buffer, byteAt]

/-- What the decoder does behind the NWK header. -/
theorem decode_ok {frame : Bytes} {p : Packet} :
    decode frame = .ok p ↔ ∃ nwk, readNwk frame = .ok nwk ∧ has nwk.header.flags NwkFrame.security = false ∧
      ((nwk.header.type = 0 ∧ ∃ aps, readAps (frame.drop nwk.payloadOffset) = .ok aps ∧
          ApsFrame.has aps.header.flags ApsFrame.security = false ∧
          ¬ (aps.header.type = apsAck ∧ aps.payloadLength ≠ 0) ∧
          ¬ (aps.header.type = apsCommand ∧ aps.payloadLength = 0) ∧ aps.payloadLength ≤ payloadMax ∧
          p = ⟨nwk.header, aps.header, UInt8.ofNat aps.payloadLength,
            buffer frame (nwk.payloadOffset + aps.payloadOffset) aps.payloadLength⟩) ∨
        (nwk.header.type ≠ 0 ∧ nwk.payloadLength ≠ 0 ∧ nwk.payloadLength ≤ payloadMax ∧
          p = ⟨nwk.header, ApsFrame.Header.zero, UInt8.ofNat nwk.payloadLength,
            buffer frame nwk.payloadOffset nwk.payloadLength⟩)) := by
  unfold decode
  cases hr : readNwk frame with
  | error e => simp
  | ok nwk =>
    simp only
    constructor
    · intro h
      refine ⟨nwk, rfl, ?_⟩
      split at h
      · cases h
      rename_i hsec
      refine ⟨Bool.eq_false_iff.2 hsec, ?_⟩
      split at h
      · rename_i ht
        split at h
        · cases h
        rename_i aps ha
        split at h
        · cases h
        rename_i hasec
        split at h
        · cases h
        rename_i hack
        split at h
        · cases h
        rename_i hcommand
        split at h
        · cases h
        rename_i hsize
        cases h
        exact .inl ⟨ht, aps, ha, Bool.eq_false_iff.2 hasec, hack, hcommand, Nat.le_of_not_lt hsize, rfl⟩
      · rename_i ht
        split at h
        · cases h
        rename_i hlen
        split at h
        · cases h
        rename_i hsize
        cases h
        exact .inr ⟨ht, hlen, Nat.le_of_not_lt hsize, rfl⟩
    · rintro ⟨nwk', hr', hsec, h⟩
      cases hr'
      rw [if_neg (by simp [hsec])]
      obtain ⟨ht, aps, ha, hasec, hack, hcommand, hsize, rfl⟩ | ⟨ht, hlen, hsize, rfl⟩ := h
      · rw [if_pos ht, ha]
        simp only
        rw [if_neg (by simp [hasec]), if_neg hack, if_neg hcommand, if_neg (Nat.not_lt.2 hsize)]
      · rw [if_neg ht, if_neg hlen, if_neg (Nat.not_lt.2 hsize)]

theorem modifyHead_drop {α : Type} (f : α → α) (l : List α) {n : Nat} (h : 0 < n) : (l.modifyHead f).drop n = l.drop n := by
  obtain ⟨n, rfl⟩ := Nat.exists_eq_add_of_le' h
  cases l <;> rfl

theorem canonicalAps_fields (h : ApsFrame.Header) : (canonicalAps h).type = h.type ∧ (canonicalAps h).flags = h.flags := by
  unfold canonicalAps
  split <;> exact ⟨rfl, rfl⟩

/-- A packet that is encoded decodes to itself, what its frame does not carry zeroed. -/
theorem packet_decode_encode {p : Packet} {capacity : Nat} {frame : Bytes} (h : encode p capacity = .ok frame) :
    decode frame = .ok (canonical p) := by
  obtain ⟨⟨hlen, htype, hsec, hasec⟩, hfields, s, f, hbody, hf, -, rfl⟩ := encode_ok.1 h
  obtain ⟨size, hs, hl, -, rfl⟩ := NwkFrame.encode_ok.1 hf
  have hread := readNwk_emit hs htype s hl
  have hmin : 0 < size := by
    rw [headerShape_ok hs, headerSize, minHeader]
    omega
  have hdrop : ((NwkFrame.emitFrame (untyped p.nwk) s).modifyHead (· ||| p.nwk.type)).drop size = s := by
    rw [modifyHead_drop _ _ hmin, headerShape_ok hs]
    exact NwkFrame.emitFrame_drop (untyped p.nwk) s
  have htext := text_length hlen
  have hofNat : UInt8.ofNat p.text.length = p.length := by rw [htext, UInt8.ofNat_toNat]
  apply decode_ok.2
  refine ⟨_, hread, hsec, ?_⟩
  unfold body at hbody
  by_cases ht : p.nwk.type = 0
  · rw [if_neg (not_not_intro ht)] at hbody
    obtain ⟨ha, hb, hc⟩ := hfields ht
    obtain ⟨offset, hr, hlength, htail⟩ := encodeAps_reads hbody ha hb hc
    obtain ⟨-, hwrong, -⟩ := encodeAps_ok.1 hbody
    obtain ⟨hk1, hk2⟩ := canonicalAps_fields p.aps
    have hzero : p.text.length = 0 ↔ p.length = 0 := by
      rw [htext]
      exact @UInt8.toNat_inj p.length 0
    refine .inl ⟨ht, _, by rw [hdrop]; exact hr, by rw [hk2]; exact hasec, ?_, ?_, by rw [htext]; exact hlen, ?_⟩
    · rw [hk1, Ne, hzero]
      exact fun hn => hwrong (.inl hn)
    · rw [hk1, hzero]
      exact fun hn => hwrong (.inr hn)
    · rw [buffer_drop, ← List.drop_drop, hdrop, htail, hofNat]
      unfold canonical
      rw [if_pos ht]
  · rw [if_pos ht] at hbody
    split at hbody
    · cases hbody
    rename_i hpos
    cases hbody
    refine .inr ⟨ht, ?_, by rw [htext]; exact hlen, ?_⟩
    · rw [htext]
      exact fun hn => hpos (UInt8.toNat_inj.1 hn)
    · rw [buffer_drop, hdrop, hofNat]
      unfold canonical
      rw [if_neg ht]

/-- A report of one octet. -/
def sample : Packet where
  nwk := ⟨0, 2, 1, 0, 1, 2, 30, 9, Vector.replicate 8 3, Vector.replicate 8 4⟩
  aps := ⟨0, 0, 0x40, 1, 6, 0x0104, 1, 7⟩
  length := 1
  payload := Vector.replicate 82 0xAA

theorem packet_decode_encode_sample : ∃ frame, encode sample 17 = .ok frame ∧ decode frame = .ok (canonical sample) := by
  cases h : encode sample 17 with
  | error e =>
    have hok : (encode sample 17).isOk = true := by decide +kernel
    rw [h] at hok
    cases hok
  | ok frame => exact ⟨frame, rfl, packet_decode_encode h⟩

/-- The payload that was read, as it is sent again. -/
theorem buffer_text (s : Bytes) (h : s.length ≤ payloadMax) :
    (buffer s 0 s.length).toList.take s.length = s := by
  unfold payloadMax at h
  apply List.ext_getElem
  · simp
    omega
  · intro k hk hk'
    simp [buffer, byteAt, List.getD, hk']

theorem restored_control (c : UInt8) (k : ApsFrame.Header) : apsControl (restoreAps c k) = c := ApsFrame.control_again c

theorem restored_range (c : UInt8) (k : ApsFrame.Header) (hc : ¬ Refused c) :
    ¬ apsAck < (restoreAps c k).type ∧ ¬ 3 < (restoreAps c k).deliveryMode ∧ (restoreAps c k).flags &&& 0x0F = 0 := by
  have h : ∀ c : UInt8, ¬ (3 : UInt8) < (c >>> 2) &&& 3 ∧ (c &&& 0xF0) &&& 0x0F = 0 := by decide
  exact ⟨fun ht => hc (.inl ht), h c⟩

theorem strictAps_restore (c : UInt8) {k : ApsFrame.Header} (ht : k.type = 0) (hd : k.deliveryMode = 0)
    (hf : k.flags = (c &&& 0xF0) &&& ApsFrame.ackRequest) : strictAps (restoreAps c k) = k := by
  cases k
  simp only at ht hd hf
  subst ht hd hf
  rfl

/-- The body of an APS packet that was read is put together again. -/
theorem encodeAps_again {body : Bytes} {info : ApsFrame.Info} (h : readAps body = .ok info) {p : Packet}
    (hp : p.aps = info.header) (htext : p.text = body.drop info.payloadOffset) (hsize : ¬ WrongSize p) :
    encodeAps p = .ok body := by
  apply encodeAps_ok.2
  refine ⟨⟨info, h⟩, hsize, ?_⟩
  rw [hp, htext]
  obtain ⟨h2, hmax, hcontrol, ⟨hshort, rfl⟩ | ⟨hshort, h8, plain, hd, rfl⟩⟩ := readAps_ok.1 h
  · obtain ⟨c, k, tail, rfl⟩ := two_front h2
    refine .inl ⟨hshort, ?_⟩
    simp only [restored_control]
    rfl
  · have hh := ApsFrame.decode_heads hd
    have hoffset : plain.payloadOffset = 8 := hh.offset
    obtain ⟨front, tail, hfront, rfl⟩ := split_front h8
    obtain ⟨b0, b1, b2, b3, b4, b5, b6, b7, rfl⟩ := eight_octets hfront
    refine .inr ⟨hshort, ApsFrame.emitFrame plain.header tail, ?_, ?_⟩
    · have hshape := ApsFrame.validateHeader_shaped hh.valid
      have hflags : plain.header.flags = (b0 &&& ApsFrame.ackRequest) &&& 0xF0 := ApsFrame.decode_flags hd
      have hb : ∀ c : UInt8, (c &&& 0xF0) &&& ApsFrame.ackRequest = (c &&& ApsFrame.ackRequest) &&& 0xF0 := by
        decide
      have hstrict := strictAps_restore b0 hshape.type hshape.deliveryMode (hflags.trans (hb b0).symm)
      apply ApsFrame.encode_ok.2
      simp only [byteAt_here, List.cons_append]
      rw [hstrict]
      have hlen : 8 + tail.length ≤ 108 := by
        rw [List.length_append, hfront] at hmax
        exact hmax
      refine ⟨hh.valid, ?_, ?_, rfl⟩
      · simp [ApsFrame.headerSize, ApsFrame.maxBody]
        omega
      · simp [ApsFrame.headerSize]
        omega
    · rw [restored_control]
      have he := hh.emitted tail (Nat.le_refl 8)
      rw [he]
      rfl

theorem security_octet : ∀ b : UInt8,
    has (((b &&& ~~~ 2).toUInt16 <<< 8) ||| ((b &&& 2).toUInt16 <<< 8)) NwkFrame.security = (b &&& 2 != 0) := by
  decide

/-- What was read of the NWK header besides its fields. -/
theorem readNwk_fields {frame : Bytes} {info : NwkFrame.Info} (h : readNwk frame = .ok info) :
    ¬ nwkCommand < info.header.type ∧ has info.header.flags NwkFrame.security = (byteAt frame 1 &&& 2 != 0) ∧
      info.payloadOffset ≤ frame.length ∧ info.payloadLength = frame.length - info.payloadOffset := by
  obtain ⟨-, htype, hsize, plain, hd, rfl⟩ := readNwk_ok.1 h
  have hh := decode_heads hd
  refine ⟨htype, ?_, hh.bounds.1, hh.size⟩
  have hflags : (restoreNwk frame plain).header.flags =
      ((byteAt frame 1 &&& ~~~ 2).toUInt16 <<< 8) ||| ((byteAt frame 1 &&& 2).toUInt16 <<< 8) := by
    rw [← plainHead_flags, ← decode_flags hd]
    rfl
  rw [hflags]
  exact security_octet (byteAt frame 1)

theorem readAps_length {frame : Bytes} {info : ApsFrame.Info} (h : readAps frame = .ok info) :
    info.payloadOffset ≤ frame.length ∧ info.payloadLength = frame.length - info.payloadOffset ∧
      ¬ Refused (byteAt frame 0) ∧ ∃ k, info.header = restoreAps (byteAt frame 0) k := by
  obtain ⟨h2, hmax, hcontrol, ⟨-, rfl⟩ | ⟨-, h8, plain, -, rfl⟩⟩ := readAps_ok.1 h
  · exact ⟨h2, rfl, hcontrol, _, rfl⟩
  · exact ⟨h8, rfl, hcontrol, _, rfl⟩

/-- The payload of a packet that was read. -/
theorem text_read (frame : Bytes) {offset : Nat} (h : frame.length - offset ≤ payloadMax) (nwk : NwkFrame.Header)
    (aps : ApsFrame.Header) :
    (Packet.mk nwk aps (UInt8.ofNat (frame.length - offset)) (buffer frame offset (frame.length - offset))).text =
      frame.drop offset := by
  have hlt : (UInt8.ofNat (frame.length - offset)).toNat = frame.length - offset := by
    unfold payloadMax at h
    exact UInt8.toNat_ofNat_of_lt (Nat.lt_of_le_of_lt h (by decide))
  unfold Packet.text
  rw [hlt, buffer_drop, ← List.length_drop]
  exact buffer_text (frame.drop offset) (by rw [List.length_drop]; exact h)

/-- A frame that decodes is encoded again octet for octet, a received route request aside. -/
theorem packet_encode_decode {frame : Bytes} {p : Packet} (h : decode frame = .ok p) {capacity : Nat}
    (hc : frame.length ≤ capacity) : encode p capacity = .ok (routed frame) := by
  obtain ⟨nwk, hr, hsec, h⟩ := decode_ok.1 h
  obtain ⟨htype, hflag, hoff, hlen⟩ := readNwk_fields hr
  have hclear : byteAt frame 1 &&& 2 = 0 := by
    rw [hsec] at hflag
    simpa using hflag.symm
  obtain ⟨hemit, hrouted⟩ := encode_readNwk hr hclear
  have hroom : (NwkFrame.emitFrame (untyped nwk.header) (frame.drop nwk.payloadOffset)).length ≤ capacity := by
    have hl := congrArg List.length hrouted
    rw [List.length_modifyHead, routed_length] at hl
    omega
  apply encode_ok.2
  obtain ⟨ht, aps, ha, hasec, hack, hcommand, hsize, rfl⟩ | ⟨ht, hpos, hsize, rfl⟩ := h
  · obtain ⟨haoff, halen, hrefused, k, hk⟩ := readAps_length ha
    have hrange := restored_range (byteAt (frame.drop nwk.payloadOffset) 0) k hrefused
    rw [← hk] at hrange
    have hsize' : frame.length - (nwk.payloadOffset + aps.payloadOffset) = aps.payloadLength := by
      rw [halen, List.length_drop]
      omega
    have hlt : (UInt8.ofNat aps.payloadLength).toNat = aps.payloadLength := by
      unfold payloadMax at hsize
      exact UInt8.toNat_ofNat_of_lt (Nat.lt_of_le_of_lt hsize (by decide))
    have hzero : UInt8.ofNat aps.payloadLength = 0 ↔ aps.payloadLength = 0 := by
      rw [← hlt, ← UInt8.toNat_inj, UInt8.ofNat_toNat]
      rfl
    have htext := text_read frame (by rw [hsize']; exact hsize) nwk.header aps.header
    rw [hsize'] at htext
    have hbody := encodeAps_again ha (p := Packet.mk nwk.header aps.header (UInt8.ofNat aps.payloadLength)
      (buffer frame (nwk.payloadOffset + aps.payloadOffset) aps.payloadLength)) rfl
      (by rw [htext, List.drop_drop]) (by
        unfold WrongSize
        rw [Ne, hzero]
        exact fun hn => hn.elim hack hcommand)
    refine ⟨⟨by rw [hlt]; exact hsize, htype, hsec, hasec⟩, fun _ => hrange, frame.drop nwk.payloadOffset, _, ?_, hemit,
      hroom, hrouted.symm⟩
    unfold body
    rw [if_neg (not_not_intro ht)]
    exact hbody
  · have hlt : (UInt8.ofNat nwk.payloadLength).toNat = nwk.payloadLength := by
      unfold payloadMax at hsize
      exact UInt8.toNat_ofNat_of_lt (Nat.lt_of_le_of_lt hsize (by decide))
    have hplain : ApsFrame.has 0 ApsFrame.security = false := by decide
    refine ⟨⟨by rw [hlt]; exact hsize, htype, hsec, hplain⟩, fun hn => absurd hn ht, frame.drop nwk.payloadOffset, _, ?_, hemit,
      hroom, hrouted.symm⟩
    unfold body
    rw [if_pos ht, if_neg]
    · rw [hlen] at hsize ⊢
      rw [text_read frame hsize]
    · intro hn
      apply hpos
      rw [← hlt, show UInt8.ofNat nwk.payloadLength = 0 from hn]
      rfl

/-- A unicast that asks for the reserved route discovery 2 is sent on asking for 1. -/
theorem packet_encode_decode_sample : ∃ p,
    decode [0x88, 0, 1, 0, 2, 0, 30, 9, 0, 1, 6, 0, 4, 1, 1, 7, 0xAA] = .ok p ∧
      encode p 17 = .ok (routed [0x88, 0, 1, 0, 2, 0, 30, 9, 0, 1, 6, 0, 4, 1, 1, 7, 0xAA]) := by
  cases h : decode [0x88, 0, 1, 0, 2, 0, 30, 9, 0, 1, 6, 0, 4, 1, 1, 7, 0xAA] with
  | error e =>
    have hok : (decode [0x88, 0, 1, 0, 2, 0, 30, 9, 0, 1, 6, 0, 4, 1, 1, 7, 0xAA]).isOk = true := by decide +kernel
    rw [h] at hok
    cases hok
  | ok p => exact ⟨p, rfl, packet_encode_decode h (by decide)⟩

end EdWire
