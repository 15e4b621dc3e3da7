import Cc2530Zigbee.NvRecord

/-!
# What a page scan reads and what a replacement programs

The scan is a fold over the page in read-sized chunks. Its header, footer and
stage are the page's own octets, and the classification is settled by them.
A replacement interrupted anywhere leaves a page without commit word unless
every word of the record is in place.
-/
namespace NvRecord

open Octets Flash

variable {max : Nat}

/-- The private arrays after the positions below `n` have been read. -/
structure ReadUpTo (max : Nat) (capture : Bool) (page : Page) (n : Nat) (s : Scan) : Prop where
  header : ∀ k, k < 12 → k < n → s.header k = page k
  footer : ∀ k, k < 8 → 2040 + k < n → s.footer k = page (2040 + k)
  stage : capture = true → ∀ k, k < max → 12 + k < 2040 → 12 + k < n → s.stage k = page (12 + k)

theorem scanByte_read (capture : Bool) (page : Page) (offset i : Nat) (s : Scan)
    (h : ReadUpTo max capture page (offset + i) s) :
    ReadUpTo max capture page (offset + i + 1) (scanByte max capture page offset s i) := by
  constructor
  · intro k hk hn
    have hb := h.header k hk
    simp only [scanByte]
    split
    · simp only [assign]
      split
      · rename_i he; rw [he]
      · exact hb (by omega)
    · exact hb (by omega)
  · intro k hk hn
    have hb := h.footer k hk
    simp only [scanByte]
    split
    · exact hb (by omega)
    · simp only [assign]
      split
      · rename_i he; rw [show 2040 + k = offset + i by omega]
      · exact hb (by omega)
  · intro hc k hk hl hn
    have hb := h.stage hc k hk hl
    simp only [scanByte]
    split
    · simp only [assign]
      split
      · rename_i he; rw [show 12 + k = offset + i by omega]
      · exact hb (by omega)
    · rename_i hp
      have he : offset + i ≠ 12 + k := fun he => hp ⟨by omega, hc, by omega, by omega⟩
      exact hb (by omega)

theorem fold_read (capture : Bool) (page : Page) (offset n : Nat) (s : Scan)
    (h : ReadUpTo max capture page offset s) :
    ReadUpTo max capture page (offset + n)
      ((List.range n).foldl (scanByte max capture page offset) s) := by
  induction n with
  | zero => simpa using h
  | succ n ih =>
    rw [List.range_succ, List.foldl_append]
    simp only [List.foldl_cons, List.foldl_nil]
    exact scanByte_read capture page offset n _ ih

theorem scanChunk_read (capture : Bool) (page : Page) (offset : Nat) (s : Scan)
    (h : ReadUpTo max capture page offset s) :
    ReadUpTo max capture page (offset + readMax) (scanChunk max capture page s offset) := by
  unfold scanChunk
  apply fold_read
  exact ⟨h.header, h.footer, h.stage⟩

theorem chunks_read (capture : Bool) (page : Page) (n : Nat) (s : Scan)
    (h : ReadUpTo max capture page 0 s) :
    ReadUpTo max capture page (n * readMax)
      (((List.range n).map (· * readMax)).foldl (scanChunk max capture page) s) := by
  induction n with
  | zero => simpa using h
  | succ n ih =>
    rw [List.range_succ, List.map_append, List.foldl_append, Nat.succ_mul]
    simp only [List.map_cons, List.map_nil, List.foldl_cons, List.foldl_nil]
    exact scanChunk_read capture page (n * readMax) _ ih

/-- The whole scan has read the whole page. -/
theorem scan_read (capture : Bool) (page : Page) :
    ReadUpTo max capture page pageSize (scan max capture page) := by
  unfold scan
  exact chunks_read capture page (pageSize / readMax) _ ⟨by simp, by simp, by simp⟩

/-! Capturing the record changes nothing but the stage. -/

def unstaged (s : Scan) : Scan := { s with stage := fun _ => 0 }

theorem bytes_unstaged (capture : Bool) (page : Page) (offset : Nat) (l : List Nat) (s : Scan) :
    l.foldl (scanByte max false page offset) (unstaged s) =
      unstaged (l.foldl (scanByte max capture page offset) s) := by
  induction l generalizing s with
  | nil => rfl
  | cons i l ih =>
    have hb : scanByte max false page offset (unstaged s) i =
        unstaged (scanByte max capture page offset s i) := by
      simp only [scanByte, unstaged, Bool.false_eq_true, false_and, and_false, if_false]
      rfl
    rw [List.foldl_cons, List.foldl_cons, hb, ih]

theorem chunks_unstaged (capture : Bool) (page : Page) (l : List Nat) (s : Scan) :
    l.foldl (scanChunk max false page) (unstaged s) =
      unstaged (l.foldl (scanChunk max capture page) s) := by
  induction l generalizing s with
  | nil => rfl
  | cons offset l ih =>
    have hc : scanChunk max false page (unstaged s) offset =
        unstaged (scanChunk max capture page s offset) := by
      unfold scanChunk
      rw [← bytes_unstaged]
      rfl
    rw [List.foldl_cons, List.foldl_cons, hc, ih]

theorem scan_unstaged (capture : Bool) (page : Page) :
    scan max false page = unstaged (scan max capture page) := by
  unfold scan
  rw [← chunks_unstaged, unstaged]

theorem scanPage_capture (page : Page) :
    (scanPage max true page).state = (scanPage max false page).state ∧
    (scanPage max true page).generation = (scanPage max false page).generation ∧
    (scanPage max true page).length = (scanPage max false page).length := by
  unfold scanPage
  rw [scan_unstaged true page]
  exact ⟨rfl, rfl, rfl⟩

theorem scan_header (capture : Bool) (page : Page) (k : Nat) (h : k < 12) :
    (scan max capture page).header k = page k :=
  (scan_read capture page).header k h (by unfold pageSize; omega)

theorem scan_footer (capture : Bool) (page : Page) (k : Nat) (h : k < 8) :
    (scan max capture page).footer k = page (2040 + k) :=
  (scan_read capture page).footer k h (by unfold pageSize; omega)

theorem scanPage_generation (capture : Bool) (page : Page) :
    (scanPage max capture page).generation = decode page 8 := by
  unfold scanPage
  simp only [decode, scan_header capture page _ (show 8 < 12 by decide),
    scan_header capture page _ (show 8 + 1 < 12 by decide),
    scan_header capture page _ (show 8 + 2 < 12 by decide),
    scan_header capture page _ (show 8 + 3 < 12 by decide)]

theorem scanPage_length (capture : Bool) (page : Page) :
    (scanPage max capture page).length = page 6 := by
  unfold scanPage
  exact scan_header capture page 6 (by decide)

theorem scanPage_stage (page : Page) (k : Nat) (hk : k < max) (h : 12 + k < 2040) :
    (scanPage max true page).stage k = page (12 + k) := by
  unfold scanPage
  exact (scan_read true page).stage rfl k hk h (by unfold pageSize; omega)

/-- Without the commit word a page is empty or incomplete. -/
theorem scanPage_uncommitted (capture : Bool) (page : Page) (h : Uncommitted page) :
    (scanPage max capture page).state = .empty ∨ (scanPage max capture page).state = .incomplete := by
  obtain ⟨k, hk⟩ := h
  have hw : word (scan max capture page).footer 4 ≠ commit := by
    intro he
    apply hk
    rw [← he, word, Fin.getElem_fin, Vector.getElem_ofFn, scan_footer capture page _ (by simp; omega),
      ← Nat.add_assoc]
  simp only [scanPage, pageState]
  by_cases he : (scan max capture page).erased = true
  · exact .inl (by simp [he])
  · exact .inr (by simp [he, hw])

/-! The programmed image. -/

/-- A page after a list of completed program commands. -/
def applied (p : Page) (ws : List Write) : Page :=
  ws.foldl (fun p w => write p w.offset w.word noBits) p

theorem applied_other (p : Page) (ws : List Write) (i : Nat)
    (h : ∀ w ∈ ws, i < w.offset ∨ w.offset + 4 ≤ i) : applied p ws i = p i := by
  induction ws generalizing p with
  | nil => rfl
  | cons w ws ih =>
    have hw := h w List.mem_cons_self
    have hs := ih (write p w.offset w.word noBits) fun v hv => h v (List.mem_cons_of_mem w hv)
    exact hs.trans (write_other p w.offset w.word noBits i hw)

/-- The call stopped: by a latched failure, or with the supply lost. -/
def Stopped (r : Except Device (Option Result × State)) (d : Device) : Prop :=
  r = .error d ∨ ∃ s, r = .ok (some .writeFailed, s) ∧ s.device = d ∧ s.fault = some .writeFailed

theorem programAll_cases (s : State) (b : Bool) (ws : List Write) :
    (∃ s', programAll s b ws = .ok (none, s') ∧
      s'.device.page b = applied (s.device.page b) ws ∧ s'.device.page (!b) = s.device.page (!b) ∧
      s'.fault = s.fault ∧ ∃ ph, s'.status = { s.status with phase := ph }) ∨
    (∃ d' pre w post kept, Stopped (programAll s b ws) d' ∧ ws = pre ++ w :: post ∧
      d'.page b = write (applied (s.device.page b) pre) w.offset w.word kept ∧
      d'.page (!b) = s.device.page (!b)) := by
  induction ws generalizing s with
  | nil => exact .inl ⟨s, rfl, rfl, rfl, rfl, s.status.phase, rfl⟩
  | cons w ws ih =>
    obtain ⟨d, hd, hp, ho⟩ | ⟨d, kept, hd, hp, ho⟩ := program_cases s.device b w.offset w.word
    · have hw : programAll s b (w :: ws) =
          programAll { setPhase s w.phase with device := d } b ws := by
        simp [programAll, program, setPhase, hd]
      rw [hw]
      obtain ⟨s', h, hb, hn, hf, ph, hs⟩ | ⟨d', pre, v, post, kept, h, hl, hb, hn⟩ :=
        ih { setPhase s w.phase with device := d }
      · exact .inl ⟨s', h, by rw [hb, hp]; rfl, by rw [hn, ho], hf, ph, hs⟩
      · exact .inr ⟨d', w :: pre, v, post, kept, h, by rw [hl]; rfl, by rw [hb, hp]; rfl, by rw [hn, ho]⟩
    · refine .inr ⟨d, [], w, ws, kept, ?_, rfl, hp, ho⟩
      obtain hd | hd := hd
      · exact .inr ⟨_, by simp [programAll, program, setPhase, hd, fault, finish]; rfl, rfl, rfl⟩
      · exact .inl (by simp [programAll, program, setPhase, hd])

/-- All words of a record are in place, the commit word included. -/
structure Written (data : Bytes) (generation : UInt32) (p : Page) : Prop where
  body : ∀ i, i < 12 + data.length → p i = bodyByte data generation i
  commit : ∀ k : Fin 4, p (2044 + k) = getElem commit k (index4_lt k)

def bodyWrites (data : Bytes) (generation : UInt32) (n : Nat) : List Write :=
  (List.range n).map fun m => ⟨4, 4 * m, word (bodyByte data generation) (4 * m)⟩

theorem recordWrites_eq (data : Bytes) (generation : UInt32) :
    recordWrites data generation = (bodyWrites data generation ((12 + data.length + 3) / 4) ++
      [⟨5, 2040, word (octet (recordCrc data generation).toNat) 0⟩]) ++ [⟨6, 2044, commit⟩] := by
  simp [recordWrites, bodyWrites, bodyPositions, Function.comp_def]

theorem applied_bodyWrites (data : Bytes) (generation : UInt32) (n i : Nat) :
    applied blank (bodyWrites data generation n) i =
      if i < 4 * n then bodyByte data generation i else 255 := by
  induction n with
  | zero => rfl
  | succ n ih =>
    have hs : applied blank (bodyWrites data generation (n + 1)) =
        write (applied blank (bodyWrites data generation n)) (4 * n)
          (word (bodyByte data generation) (4 * n)) noBits := by
      simp [applied, bodyWrites, List.range_succ]
    rw [hs]
    by_cases h : 4 * n ≤ i ∧ i < 4 * n + 4
    · obtain ⟨k, rfl⟩ := Nat.exists_eq_add_of_le h.1
      have hb : applied blank (bodyWrites data generation n) (4 * n + k) = 255 := by
        rw [ih, if_neg (by omega)]
      rw [write_noBits _ _ _ k (by omega) hb, if_pos (by omega), word, Vector.getElem_ofFn]
    · rw [write_other _ _ _ _ _ (by omega), ih]
      split <;> split <;> first | rfl | omega

/-- Before the commit word, every command stays below it. -/
theorem offset_lt (data : Bytes) (generation : UInt32) (hl : data.length ≤ 2028) (w : Write)
    (h : w ∈ bodyWrites data generation ((12 + data.length + 3) / 4) ++
      [⟨5, 2040, word (octet (recordCrc data generation).toNat) 0⟩]) : w.offset + 4 ≤ 2044 := by
  simp only [bodyWrites, List.mem_append, List.mem_map, List.mem_range, List.mem_singleton] at h
  obtain ⟨m, hm, rfl⟩ | rfl := h
  · simp only; omega
  · simp only; omega

theorem body_applied (data : Bytes) (generation : UInt32) (i : Nat) (hl : data.length ≤ 2028)
    (hi : i < 12 + data.length) :
    applied blank (bodyWrites data generation ((12 + data.length + 3) / 4) ++
      [⟨5, 2040, word (octet (recordCrc data generation).toNat) 0⟩]) i = bodyByte data generation i := by
  rw [applied, List.foldl_append]
  exact (write_other _ _ _ _ _ (.inl (show i < 2040 by omega))).trans
    ((applied_bodyWrites data generation _ i).trans (if_pos (by omega)))

/-- A page with one command of the record stopped anywhere lacks the commit
word, or is the whole record. -/
theorem torn_page (data : Bytes) (generation : UInt32) (hl : data.length ≤ 2028)
    (pre post : List Write) (w : Write) (kept : Word)
    (h : recordWrites data generation = pre ++ w :: post) :
    Uncommitted (write (applied blank pre) w.offset w.word kept) ∨
      Written data generation (write (applied blank pre) w.offset w.word kept) := by
  rw [recordWrites_eq] at h
  obtain rfl | ⟨init, last, rfl⟩ := List.eq_nil_or_concat post
  · obtain ⟨hpre, hw⟩ := List.append_inj' h rfl
    cases hw
    by_cases hc : ∀ k : Fin 4, write (applied blank pre) 2044 commit kept (2044 + k) = commit[k]
    · refine .inr ⟨fun i hi => ?_, hc⟩
      rw [write_other _ _ _ _ _ (.inl (show i < 2044 by omega)), ← hpre, body_applied data generation i hl hi]
    · exact .inl (by simpa [Uncommitted] using hc)
  · -- The commit word is still erased: no command up to `w` reaches it.
    rw [List.concat_eq_append, ← List.cons_append, ← List.append_assoc] at h
    have hm := (List.append_inj' h rfl).1
    have ht : ∀ v ∈ pre ++ w :: init, v.offset + 4 ≤ 2044 := fun v hv =>
      offset_lt data generation hl v (hm ▸ hv)
    refine .inl ⟨0, ?_⟩
    change write (applied blank pre) w.offset w.word kept 2044 ≠ _
    rw [write_other _ _ _ _ _ (.inr (ht w (by simp))), applied_other _ _ _ fun v hv =>
      .inr (ht v (by simp [hv]))]
    decide

theorem written_applied (data : Bytes) (generation : UInt32) (hl : data.length ≤ 2028) :
    Written data generation (applied blank (recordWrites data generation)) := by
  rw [recordWrites_eq, applied, List.foldl_append]
  constructor
  · intro i hi
    exact (write_other _ _ _ _ _ (.inl (show i < 2044 by omega))).trans (body_applied data generation i hl hi)
  · intro k
    refine write_noBits _ 2044 commit k k.isLt ?_
    exact applied_other blank _ _ fun w hw => .inr ((offset_lt data generation hl w hw).trans (by omega))

/-- A complete record scans with its own generation, length and octets, and
never as an unsupported version. -/
theorem scanPage_written {data : Bytes} {generation : UInt32} {p : Page}
    (h : Written data generation p) (capture : Bool) :
    (scanPage max capture p).generation = generation ∧
    (scanPage max capture p).length = UInt8.ofNat data.length ∧
    (scanPage max capture p).state ≠ .unsupported := by
  have hb : ∀ i, i < 12 → p i = header data.length generation i := fun i hi => by
    rw [h.body i (by omega), bodyByte, if_pos hi]
  refine ⟨?_, ?_, ?_⟩
  · rw [scanPage_generation, decode, hb 8 (by decide), hb (8 + 1) (by decide), hb (8 + 2) (by decide),
      hb (8 + 3) (by decide)]
    exact le32_put generation
  · rw [scanPage_length, hb 6 (by decide)]
    rfl
  · have h4 : (scan max capture p).header 4 = 1 := by
      rw [scan_header capture p 4 (by decide), hb 4 (by decide)]
      rfl
    simp only [scanPage, pageState, h4]
    split
    · simp
    · split
      · simp
      · split
        · simp
        · simp only [ne_eq, not_true_eq_false, if_false]
          split
          · simp
          · split <;> simp

theorem stage_written {data : Bytes} {generation : UInt32} {p : Page}
    (h : Written data generation p) (hm : data.length ≤ max) (hl : data.length ≤ 2028) :
    (List.range data.length).map (scanPage max true p).stage = data := by
  apply List.ext_getElem
  · simp
  · intro k hk hd
    simp only [List.length_map, List.length_range] at hk
    rw [List.getElem_map, List.getElem_range, scanPage_stage p k (by omega) (by omega),
      h.body (12 + k) (by omega), bodyByte, if_neg (by omega), if_pos (by omega)]
    simp [byteAt, hk]

end NvRecord
