import Cc2530Zigbee.NvRecordPages

/-!
# A completed record is valid

The scan feeds the CRC in read-sized chunks, the replacement in three parts.
Both are one fold over the first 2040 octets of the page, so the page a
completed replacement leaves is erased nowhere it should not be, has clean
padding, and passes its CRC.
-/
namespace NvRecord

open Octets Flash

variable {max : Nat}

def planes (crc : UInt32) : Planes :=
  ⟨octet crc.toNat 0, octet crc.toNat 1, octet crc.toNat 2, octet crc.toNat 3⟩

def join (c : Planes) : UInt32 := le32 c.c0 c.c1 c.c2 c.c3

theorem planes_join (c : Planes) : planes (join c) = c := by
  obtain ⟨a, b, c, d⟩ := c
  have ha := a.toNat_lt; have hb := b.toNat_lt; have hc := c.toNat_lt; have hd := d.toNat_lt
  simp only [planes, join, le32, Planes.mk.injEq]
  refine ⟨?_, ?_, ?_, ?_⟩ <;> apply UInt8.toNat_inj.1 <;> simp <;> omega

/-- Any number of octets fed to the CRC is one fold. -/
theorem crcLoop_some (s : Bytes) (n : Nat) (c : Planes) (h : n ≤ s.length) :
    crcLoop (some s) n c = (s.take n).foldl crcStep c := by
  induction n generalizing s c with
  | zero => simp [crcLoop]
  | succ n ih =>
    cases s with
    | nil => simp at h
    | cons b s =>
      rw [crcLoop, List.tail_cons, ih s _ (by simpa using h)]
      rfl

theorem crcLoop_none (n : Nat) (c : Planes) :
    crcLoop none n c = (List.replicate n 255).foldl crcStep c := by
  induction n generalizing c with
  | zero => rfl
  | succ n ih => rw [crcLoop, ih, List.replicate_succ, List.foldl_cons]

theorem crcUpdate_some (crc : UInt32) (s : Bytes) (n : Nat) (h : n ≤ s.length) :
    crcUpdate crc (some s) n = join ((s.take n).foldl crcStep (planes crc)) := by
  rw [← crcLoop_some s n _ h]
  rfl

theorem crcUpdate_none (crc : UInt32) (n : Nat) :
    crcUpdate crc none n = join ((List.replicate n 255).foldl crcStep (planes crc)) := by
  rw [← crcLoop_none]
  rfl

/-- The CRC of the octets of a page below `n`. -/
def pageCrc (page : Page) (n : Nat) : UInt32 :=
  join (((List.range n).map page).foldl crcStep (planes 0xFFFFFFFF))

theorem pageCrc_add (page : Page) (n m : Nat) :
    join (((List.range m).map fun i => page (n + i)).foldl crcStep (planes (pageCrc page n))) =
      pageCrc page (n + m) := by
  rw [pageCrc, planes_join, ← List.foldl_append, pageCrc, List.range_add, List.map_append, List.map_map]
  rfl

theorem recordCrc_eq (data : Bytes) (generation : UInt32) (hl : data.length ≤ 2028) :
    recordCrc data generation = pageCrc (bodyByte data generation) 2040 ^^^ 0xFFFFFFFF := by
  have hh : (List.range 12).map (header data.length generation) =
      (List.range 12).map (bodyByte data generation) :=
    List.map_congr_left fun i hi => by rw [bodyByte, if_pos (List.mem_range.1 hi)]
  have hd : data = (List.range data.length).map fun i => bodyByte data generation (12 + i) := by
    apply List.ext_getElem
    · simp
    · intro k hk _
      rw [List.getElem_map, List.getElem_range, bodyByte, if_neg (by omega), if_pos (by omega)]
      simp [byteAt, hk]
  have hp : List.replicate (2028 - data.length) 255 =
      (List.range (2028 - data.length)).map fun i => bodyByte data generation (12 + data.length + i) := by
    apply List.ext_getElem
    · simp
    · intro k _ _
      rw [List.getElem_map, List.getElem_range, bodyByte, if_neg (by omega), if_neg (by omega)]
      simp
  simp only [recordCrc]
  rw [crcUpdate_none, crcUpdate_some _ data _ (Nat.le_refl _), crcUpdate_some _ _ 12 (by simp), hh,
    List.take_of_length_le (by simp), List.take_of_length_le (Nat.le_refl _), hp]
  have h12 : join (((List.range 12).map (bodyByte data generation)).foldl crcStep (planes 0xFFFFFFFF)) =
      pageCrc (bodyByte data generation) 12 := rfl
  have hdc : join (data.foldl crcStep (planes (pageCrc (bodyByte data generation) 12))) =
      pageCrc (bodyByte data generation) (12 + data.length) := by
    rw [← pageCrc_add, ← hd]
  rw [h12, hdc, pageCrc_add, show 12 + data.length + (2028 - data.length) = 2040 by omega]

/-! The flags of the scan. -/

/-- The two flags after the positions below `n`. -/
structure FlagsUpTo (page : Page) (n : Nat) (s : Scan) : Prop where
  erased : s.erased = true ↔ ∀ k, k < n → page k = 255
  padding : s.padding = true ↔ ∃ k, k < n ∧ k < 2040 ∧ 12 + (page 6).toNat ≤ k ∧ page k ≠ 255

theorem scanByte_flags (capture : Bool) (page : Page) (offset i : Nat) (s : Scan)
    (hr : ReadUpTo max capture page (offset + i) s) (h : FlagsUpTo page (offset + i) s) :
    FlagsUpTo page (offset + i + 1) (scanByte max capture page offset s i) := by
  have hd : ∀ k, k < offset + i + 1 ↔ k < offset + i ∨ k = offset + i := fun k => by omega
  constructor
  · simp only [scanByte, Bool.and_eq_true, beq_iff_eq, h.erased, hd]
    grind
  · have h6 : 12 ≤ offset + i → (if offset + i < 12 then assign s.header (offset + i) (page (offset + i))
        else s.header) 6 = page 6 := fun hp => by
      rw [if_neg (by omega), hr.header 6 (by omega) (by omega)]
    simp only [scanByte, Bool.or_eq_true, decide_eq_true_eq, h.padding, hd]
    grind

theorem fold_flags (capture : Bool) (page : Page) (offset n : Nat) (s : Scan)
    (hr : ReadUpTo max capture page offset s) (h : FlagsUpTo page offset s) :
    FlagsUpTo page (offset + n) ((List.range n).foldl (scanByte max capture page offset) s) := by
  induction n with
  | zero => simpa using h
  | succ n ih =>
    rw [List.range_succ, List.foldl_append]
    simp only [List.foldl_cons, List.foldl_nil]
    exact scanByte_flags capture page offset n _ (fold_read capture page offset n s hr) ih

theorem fold_crc (capture : Bool) (page : Page) (offset : Nat) (l : List Nat) (s : Scan) :
    (l.foldl (scanByte max capture page offset) s).crc = s.crc := by
  induction l generalizing s with
  | nil => rfl
  | cons i l ih => rw [List.foldl_cons, ih]; rfl

theorem chunks_flags (capture : Bool) (page : Page) (n : Nat) (s : Scan)
    (hr : ReadUpTo max capture page 0 s) (h : FlagsUpTo page 0 s) :
    FlagsUpTo page (n * readMax)
      (((List.range n).map (· * readMax)).foldl (scanChunk max capture page) s) := by
  induction n with
  | zero => simpa using h
  | succ n ih =>
    have hn := chunks_read capture page n s hr
    rw [List.range_succ, List.map_append, List.foldl_append, Nat.succ_mul]
    simp only [List.map_cons, List.map_nil, List.foldl_cons, List.foldl_nil]
    unfold scanChunk at ih hn ⊢
    apply fold_flags
    · exact ⟨hn.header, hn.footer, hn.stage⟩
    · exact ⟨ih.erased, ih.padding⟩

theorem chunks_crc (capture : Bool) (page : Page) (n : Nat) (hn : n ≤ 64) (s : Scan)
    (h : s.crc = pageCrc page 0) :
    (((List.range n).map (· * readMax)).foldl (scanChunk max capture page) s).crc =
      pageCrc page (min (n * readMax) 2040) := by
  induction n with
  | zero => simpa using h
  | succ n ih =>
    rw [List.range_succ, List.map_append, List.foldl_append]
    simp only [List.map_cons, List.map_nil, List.foldl_cons, List.foldl_nil, scanChunk, fold_crc,
      ih (by omega)]
    unfold readMax
    -- The last chunk of a page stops short of the CRC itself.
    split
    · rw [crcUpdate_some _ _ _ (by simp), List.take_of_length_le (by simp),
        show min (n * 32) 2040 = n * 32 by omega, pageCrc_add,
        show n * 32 + 32 = min ((n + 1) * 32) 2040 by omega]
    · rw [crcUpdate_some _ _ _ (by simp; omega), ← List.map_take, List.take_range,
        show min (n * 32) 2040 = n * 32 by omega, pageCrc_add]
      congr 1
      omega

theorem scan_flags (capture : Bool) (page : Page) : FlagsUpTo page pageSize (scan max capture page) := by
  unfold scan
  exact chunks_flags capture page (pageSize / readMax) _ ⟨by simp, by simp, by simp⟩ ⟨by simp, by simp⟩

theorem scan_crc (capture : Bool) (page : Page) :
    (scan max capture page).crc = pageCrc page 2040 := by
  unfold scan
  exact chunks_crc capture page (pageSize / readMax) (by decide) _ (le32_put 0xFFFFFFFF).symm

/-- An erased page is empty. -/
theorem scanPage_blank (capture : Bool) : (scanPage max capture blank).state = .empty := by
  have he : (scan max capture blank).erased = true := (scan_flags capture blank).erased.2 fun _ _ => rfl
  simp only [scanPage, pageState, he, if_true]

/-! The image of a record. -/

/-- The page a completed replacement leaves. -/
def image (data : Bytes) (generation : UInt32) : Page := applied blank (recordWrites data generation)

theorem image_body (data : Bytes) (generation : UInt32) (hl : data.length ≤ 2028) (i : Nat)
    (hi : i < 2040) : image data generation i = bodyByte data generation i := by
  rw [image, recordWrites_eq, applied, List.foldl_append, List.foldl_append]
  refine (write_other _ _ _ _ _ (.inl (show i < 2044 by omega))).trans ?_
  refine (write_other _ _ _ _ _ (.inl (show i < 2040 by omega))).trans ?_
  refine (applied_bodyWrites data generation _ i).trans ?_
  split
  · rfl
  · rw [bodyByte, if_neg (by omega), if_neg (by omega)]

theorem image_crc (data : Bytes) (generation : UInt32) (hl : data.length ≤ 2028) (k : Nat) (hk : k < 4) :
    image data generation (2040 + k) = octet (recordCrc data generation).toNat k := by
  rw [image, recordWrites_eq, applied, List.foldl_append, List.foldl_append]
  refine (write_other _ _ _ _ _ (.inl (show 2040 + k < 2044 by omega))).trans ?_
  refine (write_noBits _ 2040 _ k hk ?_).trans ?_
  · refine (applied_bodyWrites data generation _ _).trans ?_
    rw [if_neg (by omega)]
  · simp [word]

theorem pageCrc_image (data : Bytes) (generation : UInt32) (hl : data.length ≤ 2028) :
    pageCrc (image data generation) 2040 = pageCrc (bodyByte data generation) 2040 := by
  unfold pageCrc
  rw [List.map_congr_left fun i hi => image_body data generation hl i (List.mem_range.1 hi)]

/-- The verification scan of a completed replacement succeeds. -/
theorem scanPage_image (data : Bytes) (generation : UInt32) (hpos : 0 < data.length)
    (hm : data.length ≤ max) (h255 : data.length < 256) (hg : generation ≠ 0) (capture : Bool) :
    (scanPage max capture (image data generation)).state = .valid := by
  have hl : data.length ≤ 2028 := by omega
  have hh : ∀ k, k < 12 → (scan max capture (image data generation)).header k =
      header data.length generation k := fun k hk => by
    rw [scan_header capture _ k hk, image_body data generation hl k (by omega), bodyByte, if_pos hk]
  have h6 : (image data generation 6) = UInt8.ofNat data.length := by
    rw [image_body data generation hl 6 (by omega)]
    rfl
  have h6n : (UInt8.ofNat data.length).toNat = data.length := by simp; omega
  have hfoot : ∀ k : Fin 4, (scan max capture (image data generation)).footer (4 + k) = commit[k] := by
    intro k
    rw [scan_footer capture _ _ (by omega), ← Nat.add_assoc]
    exact (written_applied data generation hl).commit k
  have herased : (scan max capture (image data generation)).erased = false := by
    rw [Bool.eq_false_iff]
    intro he
    have := (scan_flags capture (image data generation)).erased.1 he 4 (by decide)
    rw [image_body data generation hl 4 (by omega)] at this
    exact absurd (show (1 : UInt8) = 255 from this) (by decide)
  have hpad : (scan max capture (image data generation)).padding = false := by
    rw [Bool.eq_false_iff]
    intro hp
    obtain ⟨k, -, hk, hb, hne⟩ := (scan_flags capture (image data generation)).padding.1 hp
    rw [h6, h6n] at hb
    rw [image_body data generation hl k hk, bodyByte, if_neg (by omega), if_neg (by omega)] at hne
    exact hne rfl
  have hcommit : word (scan max capture (image data generation)).footer 4 = commit := by
    apply Vector.ext
    intro k hk
    simp only [word, Vector.getElem_ofFn]
    exact hfoot ⟨k, hk⟩
  have hmagic : word (scan max capture (image data generation)).header 0 = magic := by
    apply Vector.ext
    intro k hk
    simp only [word, Vector.getElem_ofFn]
    rw [hh _ (by omega), header, dif_pos (by omega)]
    simp
  have hgen : decode (scan max capture (image data generation)).header 8 = generation := by
    rw [decode, hh 8 (by decide), hh (8 + 1) (by decide), hh (8 + 2) (by decide), hh (8 + 3) (by decide)]
    exact le32_put generation
  have hcrc : decode (scan max capture (image data generation)).footer 0 =
      (scan max capture (image data generation)).crc ^^^ 0xFFFFFFFF := by
    rw [scan_crc, pageCrc_image data generation hl, ← recordCrc_eq data generation hl, decode,
      scan_footer _ _ 0 (by decide), scan_footer _ _ (0 + 1) (by decide), scan_footer _ _ (0 + 2) (by decide),
      scan_footer _ _ (0 + 3) (by decide), image_crc data generation hl 0 (by decide),
      image_crc data generation hl (0 + 1) (by decide), image_crc data generation hl (0 + 2) (by decide),
      image_crc data generation hl (0 + 3) (by decide)]
    exact le32_put _
  have h4 : (scan max capture (image data generation)).header 4 = 1 := (hh 4 (by decide)).trans rfl
  have h5 : (scan max capture (image data generation)).header 5 = 0 := (hh 5 (by decide)).trans rfl
  have h7 : (scan max capture (image data generation)).header 7 = 0 := (hh 7 (by decide)).trans rfl
  have h6' : (scan max capture (image data generation)).header 6 = UInt8.ofNat data.length :=
    (hh 6 (by decide)).trans rfl
  have h6z : UInt8.ofNat data.length ≠ 0 := fun he => by
    rw [he] at h6n
    exact absurd h6n.symm hpos.ne'
  simp [scanPage, pageState, herased, hcommit, hmagic, h4, h5, h7, h6', h6z, h6n, hm, hpad, hgen, hg, hcrc]

end NvRecord
