import Cc2530Zigbee.ApsFrame
import Cc2530Zigbee.OctetBits

/-!
# APS data frames there and back
-/
namespace ApsFrame

set_option maxRecDepth 8000

open Octets

/-- What a valid header is like. -/
structure Shaped (h : Header) : Prop where
  type : h.type = 0
  deliveryMode : h.deliveryMode = 0
  flags : h.flags &&& 0xBF = 0

theorem validateHeader_shaped {h : Header} (hv : validateHeader h = .ok) : Shaped h := by
  unfold validateHeader at hv
  split at hv
  · cases hv
  rename_i htype
  split at hv
  · cases hv
  split at hv
  · cases hv
  split at hv
  · cases hv
  rename_i hflags
  split at hv
  · cases hv
  split at hv
  · cases hv
  rename_i hdelivery
  have hmask : ~~~ ackRequest = 0xBF := by decide
  have hf : h.flags &&& 0xBF = 0 := by simpa [has, hmask] using hflags
  exact ⟨not_not.1 htype, not_not.1 hdelivery, hf⟩

/-- The first octet. -/
def control (type deliveryMode flags : UInt8) : UInt8 := type ||| (deliveryMode <<< 2) ||| flags

theorem control_fields (f : UInt8) (h : f &&& 0xBF = 0) :
    control 0 0 f &&& 3 = 0 ∧ (control 0 0 f >>> 2) &&& 3 = 0 ∧ control 0 0 f &&& 0xF0 = f := by
  revert f
  decide

theorem control_again (b : UInt8) : control (b &&& 3) ((b >>> 2) &&& 3) (b &&& 0xF0) = b := by
  revert b
  decide

theorem emitFrame_length (h : Header) (payload : Bytes) :
    (emitFrame h payload).length = headerSize + payload.length := by
  simp [emitFrame, headerSize]
  omega

theorem emitFrame_drop (h : Header) (payload : Bytes) : (emitFrame h payload).drop headerSize = payload := rfl

/-- A header reads back from its frame, whatever stands behind it. -/
theorem decode_emit {h : Header} (hv : validateHeader h = .ok) (payload : Bytes) (length : Nat)
    (hl : headerSize ≤ length) (hm : length ≤ maxBody) :
    decode (emitFrame h payload) length = .ok ⟨h, headerSize, length - headerSize⟩ := by
  have hs := validateHeader_shaped hv
  obtain ⟨h1, h2, h3⟩ := control_fields h.flags hs.flags
  have hcontrol : byteAt (emitFrame h payload) 0 = control 0 0 h.flags := by
    have hc : byteAt (emitFrame h payload) 0 = control h.type h.deliveryMode h.flags := rfl
    rw [hc, hs.type, hs.deliveryMode]
  have hcluster : u16At (emitFrame h payload) 2 = h.clusterId := le16_put h.clusterId
  have hprofile : u16At (emitFrame h payload) 4 = h.profileId := le16_put h.profileId
  have hread : ({ type := byteAt (emitFrame h payload) 0 &&& 3
                  deliveryMode := (byteAt (emitFrame h payload) 0 >>> 2) &&& 3
                  flags := byteAt (emitFrame h payload) 0 &&& 0xF0
                  destinationEndpoint := byteAt (emitFrame h payload) 1
                  clusterId := u16At (emitFrame h payload) 2
                  profileId := u16At (emitFrame h payload) 4
                  sourceEndpoint := byteAt (emitFrame h payload) 6
                  counter := byteAt (emitFrame h payload) 7 } : Header) = h := by
    rw [hcontrol, h1, h2, h3, hcluster, hprofile]
    have ht := hs.type
    have hd := hs.deliveryMode
    cases h
    subst ht hd
    rfl
  have h0 : length ≠ 0 := by
    unfold headerSize at hl
    omega
  unfold decode
  rw [if_neg (Nat.not_lt.2 hm), if_neg h0, if_neg (by rw [hcontrol, h1]; exact not_not_intro rfl), if_neg (Nat.not_lt.2 hl)]
  simp only [hread, hv]

/-- The header that was read stands in front of the body. -/
structure Heads (body : Bytes) (length : Nat) (info : Info) : Prop where
  valid : validateHeader info.header = .ok
  offset : info.payloadOffset = headerSize
  bounds : headerSize ≤ length ∧ length ≤ maxBody
  size : info.payloadLength = length - headerSize
  emitted : ∀ payload, headerSize ≤ body.length → emitFrame info.header payload = body.take headerSize ++ payload

theorem decode_heads {body : Bytes} {length : Nat} {info : Info} (hd : decode body length = .ok info) :
    Heads body length info := by
  unfold decode at hd
  split at hd
  · cases hd
  rename_i hmax
  split at hd
  · cases hd
  split at hd
  · cases hd
  split at hd
  · cases hd
  rename_i hmin
  simp only at hd
  split at hd
  · rename_i hv
    cases hd
    have hs := validateHeader_shaped hv
    refine ⟨hv, rfl, ⟨Nat.le_of_not_lt hmin, Nat.le_of_not_lt hmax⟩, rfl, ?_⟩
    intro payload hb
    obtain ⟨fixed, rest, h8, rfl⟩ := split_front hb
    obtain ⟨b0, b1, b2, b3, b4, b5, b6, b7, rfl⟩ := eight_octets h8
    have h0 := control_again b0
    have h2 : put16 (u16At ([b0, b1, b2, b3, b4, b5, b6, b7] ++ rest) 2) = [b2, b3] := put16_le16 b2 b3
    have h4 : put16 (u16At ([b0, b1, b2, b3, b4, b5, b6, b7] ++ rest) 4) = [b4, b5] := put16_le16 b4 b5
    unfold control at h0
    unfold emitFrame
    simp only [h2, h4]
    exact congrArg (· :: b1 :: b2 :: b3 :: b4 :: b5 :: b6 :: b7 :: payload) h0
  · cases hd

theorem decode_flags {body : Bytes} {length : Nat} {info : Info} (hd : decode body length = .ok info) :
    info.header.flags = byteAt body 0 &&& 0xF0 := by
  unfold decode at hd
  split at hd
  · cases hd
  split at hd
  · cases hd
  split at hd
  · cases hd
  split at hd
  · cases hd
  simp only at hd
  split at hd
  · cases hd
    rfl
  · cases hd

/-- The header is read from its eight octets alone. -/
theorem decode_again {body : Bytes} {length : Nat} {info : Info} (hd : decode body length = .ok info) {n : Nat}
    (hl : headerSize ≤ n) (hm : n ≤ maxBody) :
    decode body n = .ok { info with payloadLength := n - headerSize } := by
  unfold decode at hd ⊢
  split at hd
  · cases hd
  split at hd
  · cases hd
  split at hd
  · cases hd
  rename_i htype
  split at hd
  · cases hd
  have h0 : n ≠ 0 := by
    unfold headerSize at hl
    omega
  rw [if_neg (Nat.not_lt.2 hm), if_neg h0, if_neg htype, if_neg (Nat.not_lt.2 hl)]
  simp only at hd ⊢
  split at hd
  · cases hd
    simp only
  · cases hd

/-- The encoder's checks. -/
theorem encode_ok {h : Header} {payload frame : Bytes} {capacity : Nat} :
    encode h payload capacity = .ok frame ↔ validateHeader h = .ok ∧ headerSize + payload.length ≤ maxBody ∧
      headerSize + payload.length ≤ capacity ∧ frame = emitFrame h payload := by
  unfold encode
  cases hv : validateHeader h with
  | ok =>
    simp only
    constructor
    · intro he
      split at he
      · cases he
      rename_i hl
      split at he
      · cases he
      rename_i hc
      cases he
      unfold maxBody headerSize at *
      exact ⟨trivial, by omega, by omega, rfl⟩
    · rintro ⟨-, hl, hc, rfl⟩
      unfold maxBody headerSize at *
      rw [if_neg (by omega), if_neg (by omega)]
  | _ => simp

/-- A data frame that is encoded decodes to its own header, with the payload behind it. -/
theorem data_decodes {h : Header} {payload frame : Bytes} {capacity : Nat} (he : encode h payload capacity = .ok frame) :
    decode frame frame.length = .ok ⟨h, headerSize, payload.length⟩ ∧ frame.drop headerSize = payload := by
  obtain ⟨hv, hl, -, rfl⟩ := encode_ok.1 he
  refine ⟨?_, emitFrame_drop h payload⟩
  rw [emitFrame_length, decode_emit hv payload _ (Nat.le_add_right ..) hl, Nat.add_sub_cancel_left]

theorem data_decodes_sample : ∃ frame, encode ⟨0, 0, 0x40, 1, 6, 0x0104, 1, 7⟩ [2] 9 = .ok frame ∧
    decode frame frame.length = .ok ⟨⟨0, 0, 0x40, 1, 6, 0x0104, 1, 7⟩, headerSize, 1⟩ := by
  cases h : encode ⟨0, 0, 0x40, 1, 6, 0x0104, 1, 7⟩ [2] 9 with
  | error e =>
    have hok : (encode ⟨0, 0, 0x40, 1, 6, 0x0104, 1, 7⟩ [2] 9).isOk = true := by decide
    rw [h] at hok
    cases hok
  | ok frame => exact ⟨frame, rfl, (data_decodes h).1⟩

/-- A data frame that decodes is encoded again octet for octet. -/
theorem data_encodes {body : Bytes} {info : Info} (hd : decode body body.length = .ok info) {capacity : Nat}
    (hc : body.length ≤ capacity) : encode info.header (body.drop info.payloadOffset) capacity = .ok body := by
  have hh := decode_heads hd
  obtain ⟨hoff, hmax⟩ := hh.bounds
  apply encode_ok.2
  rw [hh.offset]
  refine ⟨hh.valid, by rw [List.length_drop]; omega, by rw [List.length_drop]; omega, ?_⟩
  rw [hh.emitted _ hoff, List.take_append_drop]

theorem data_encodes_sample : ∃ info, decode [0x40, 1, 6, 0, 4, 1, 1, 7, 0xAA] 9 = .ok info ∧
    encode info.header ([0x40, 1, 6, 0, 4, 1, 1, 7, 0xAA].drop info.payloadOffset) 9 =
      .ok [0x40, 1, 6, 0, 4, 1, 1, 7, 0xAA] := by
  cases h : decode [0x40, 1, 6, 0, 4, 1, 1, 7, 0xAA] 9 with
  | error e =>
    have hok : (decode [0x40, 1, 6, 0, 4, 1, 1, 7, 0xAA] 9).isOk = true := by decide
    rw [h] at hok
    cases hok
  | ok info => exact ⟨info, rfl, data_encodes h (Nat.le_refl 9)⟩

end ApsFrame
