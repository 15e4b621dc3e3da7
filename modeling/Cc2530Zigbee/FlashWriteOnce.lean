import Cc2530Zigbee.FlashWrite

/-!
# One attempt a word

What the flash was asked tells which pages read back erased behind their last erase, and
which words were programmed since. The writer's bits never fall behind.
-/
namespace FlashWrite

open Octets

/-- What a log says: how far each page has been read back erased since its last erase, and
the words programmed since their page was. -/
structure Observed where
  swept : UInt8 → Option Nat
  programmed : Nat → Bool

def Observed.reset : Observed := ⟨fun _ => none, fun _ => false⟩

/-- The number of a word, over both pages. -/
def wordAt (page : UInt8) (offset : UInt16) : Nat := 512 * page.toNat + offset.toNat / 4

/-- The last erase of the page was accepted, and every octet has been read back erased. -/
def Observed.verified (o : Observed) (page : UInt8) : Bool := (o.swept page).any (pageSize.toNat ≤ ·)

def observe (o : Observed) : Event → Observed
  | .read page position octets reader =>
    if reader = flashOk ∧ octets.all (· == 0xff) ∧ o.swept page = some position then
      let swept := Function.update o.swept page (some (position + octets.length))
      if pageSize.toNat ≤ position + octets.length then
        { swept := swept, programmed := fun k => o.programmed k && decide (k / 512 ≠ page.toNat) }
      else { o with swept := swept }
    else o
  | .erase page executor =>
    { o with swept := Function.update o.swept page (if executor = some execIdle then some 0 else none) }
  | .program page offset _ _ => { o with programmed := fun k => decide (k = wordAt page offset) || o.programmed k }

/-- What a whole log says. -/
def observed (log : List Entry) : Observed := log.foldl (fun o e => observe o e.event) Observed.reset

@[simp] theorem observed_append (log : List Entry) (e : Entry) : observed (log ++ [e]) = observe (observed log) e.event := by
  simp [observed]

/-- The writer takes the page for known. -/
def Writer.knows (w : Writer) (page : UInt8) : Bool := w.known &&& pageMask page ≠ 0

/-- The writer takes the word for used. -/
def Writer.uses (w : Writer) (k : Nat) : Bool := BitTable.has w.used k

/-- A request is in order: a known page has been read back erased, and a word that is
programmed is of such a page, was not programmed since, and is already used. -/
structure Entry.Fits (before : List Entry) (e : Entry) : Prop where
  known : ∀ page < pageCount, e.writer.knows page = true → (observed before).verified page = true
  program : ∀ page offset octets executor, e.event = .program page offset octets executor →
    (observed before).verified page = true ∧ (observed before).programmed (wordAt page offset) = false ∧
      e.writer.uses (wordAt page offset) = true

/-- The writer's bits cover what the log says, at every request and now. -/
structure Sound (w : World) : Prop where
  known : ∀ page < pageCount, w.writer.knows page = true → (observed w.log).verified page = true
  used : ∀ k < 1024, (observed w.log).programmed k = true → w.writer.uses k = true
  log : ∀ before e after, w.log = before ++ e :: after → e.Fits before

/-! ## What a request changes -/

theorem observe_read_programmed {o : Observed} {page : UInt8} {position : Nat} {octets : Bytes} {reader : UInt8} {k : Nat}
    (h : (observe o (.read page position octets reader)).programmed k = true) : o.programmed k = true := by
  unfold observe at h
  simp only at h
  split at h
  · split at h
    · exact (Bool.and_eq_true_iff.1 h).1
    · exact h
  · exact h

/-- A verified page stays so, whatever is read of it. -/
theorem observe_read_verified {o : Observed} {page : UInt8} {position : Nat} {octets : Bytes} {reader : UInt8}
    (hposition : position < pageSize.toNat) {other : UInt8} (h : o.verified other = true) :
    (observe o (.read page position octets reader)).verified other = true := by
  unfold observe
  simp only
  split
  next hread =>
    have hne : other ≠ page := by
      rintro rfl
      rw [Observed.verified, hread.2.2, Option.any_some, decide_eq_true_eq] at h
      omega
    split
    · simpa [Observed.verified, hne] using h
    · simpa [Observed.verified, hne] using h
  · exact h

/-- A log stays in order when a request that fits is added. -/
theorem fits_append {log : List Entry} {e : Entry} (hlog : ∀ before e after, log = before ++ e :: after → e.Fits before)
    (he : e.Fits log) : ∀ before f after, log ++ [e] = before ++ f :: after → f.Fits before := by
  intro before f after h
  obtain rfl | ⟨last, rest, rfl⟩ : after = [] ∨ ∃ last rest, after = rest ++ [last] := by
    rcases List.eq_nil_or_concat after with h | ⟨rest, last, h⟩
    · exact .inl h
    · exact .inr ⟨last, rest, by simpa using h⟩
  · obtain ⟨rfl, hlast⟩ := List.append_inj' h rfl
    obtain ⟨rfl, -⟩ := List.cons.inj hlast
    exact he
  · rw [show before ++ f :: (rest ++ [last]) = (before ++ f :: rest) ++ [last] by simp] at h
    obtain ⟨hrest, -⟩ := List.append_inj' h rfl
    exact hlog _ _ _ hrest

variable {hw : Hardware} {w : World}

/-- The known pages and the used words are what counts of a writer. -/
theorem Sound.status (h : Sound w) (status : Diagnostic) :
    Sound { w with writer := { w.writer with status := status } } := ⟨h.known, h.used, h.log⟩

theorem Sound.read (h : Sound w) (hw : Hardware) (page : UInt8) {position : Nat} (length : Nat) (hposition : position < pageSize.toNat) :
    Sound (flashNvRead hw w page position length).2 := by
  constructor
  case known =>
    intro other hother hknown
    simp only [flashNvRead, observed_append]
    exact observe_read_verified hposition (h.known other hother hknown)
  case used =>
    intro k hk hprogrammed
    simp only [flashNvRead, observed_append] at hprogrammed
    exact h.used k hk (observe_read_programmed hprogrammed)
  case log => exact fits_append h.log ⟨h.known, nofun⟩

/-! ## The bits of pages and words -/

theorem page_cases {page : UInt8} (h : page < pageCount) : page = 0 ∨ page = 1 := by
  have hnat : page.toNat < 2 := h
  obtain hzero | hone : page.toNat = 0 ∨ page.toNat = 1 := by omega
  · exact .inl (UInt8.toNat_inj.1 hzero)
  · exact .inr (UInt8.toNat_inj.1 hone)

/-- A forgotten page is not known, and the other one is as before. -/
theorem knows_forget {page other : UInt8} (hpage : page < pageCount) (hother : other < pageCount) (known : UInt8) :
    known &&& ~~~(pageMask page) &&& pageMask other ≠ 0 ↔ other ≠ page ∧ known &&& pageMask other ≠ 0 := by
  obtain rfl | rfl := page_cases hpage <;> obtain rfl | rfl := page_cases hother <;> revert known <;> decide +kernel

theorem knows_settle {page other : UInt8} (hpage : page < pageCount) (hother : other < pageCount) (known : UInt8) :
    (known ||| pageMask page) &&& pageMask other ≠ 0 ↔ other = page ∨ known &&& pageMask other ≠ 0 := by
  obtain rfl | rfl := page_cases hpage <;> obtain rfl | rfl := page_cases hother <;> revert known <;> decide +kernel

theorem wordAt_lt {page : UInt8} {offset : UInt16} (hpage : page < pageCount) (hoffset : offset < pageSize) :
    wordAt page offset < 1024 := by
  have hp : page.toNat < 2 := hpage
  have ho : offset.toNat < 2048 := hoffset
  unfold wordAt
  omega

theorem wordAt_page {page : UInt8} {offset : UInt16} (hoffset : offset < pageSize) :
    wordAt page offset / 512 = page.toNat := by
  have ho : offset.toNat < 2048 := hoffset
  unfold wordAt
  omega

theorem usedIndex_eq {page : UInt8} {offset : UInt16} (hoffset : offset < pageSize) :
    usedIndex page offset = wordAt page offset / 8 := by
  have ho : offset.toNat < 2048 := hoffset
  rw [usedIndex, wordAt, Nat.shiftLeft_eq, Nat.shiftRight_eq_div_pow]
  omega

theorem usedMask_eq (page : UInt8) (offset : UInt16) : usedMask offset = BitTable.bit (wordAt page offset % 8) := by
  rw [usedMask, BitTable.bit, Nat.and_two_pow_sub_one_eq_mod _ 3, Nat.shiftRight_eq_div_pow, wordAt]
  congr 2
  omega

/-- A word that passed the check is not used. -/
theorem uses_word {page : UInt8} {offset : UInt16} (hoffset : offset < pageSize) (w : Writer) :
    w.uses (wordAt page offset) = decide (BitTable.octetAt w.used (usedIndex page offset) &&& usedMask offset ≠ 0) := by
  rw [usedIndex_eq hoffset, usedMask_eq page]
  rfl

/-- The word of a program becomes used, and no other. -/
theorem uses_mark {page : UInt8} {offset : UInt16} (hpage : page < pageCount) (hoffset : offset < pageSize)
    (used : Vector UInt8 128) (k : Nat) :
    BitTable.has (BitTable.mark used (usedIndex page offset) (usedMask offset)) k =
      (decide (k = wordAt page offset) || BitTable.has used k) := by
  have hlt := wordAt_lt hpage hoffset
  rw [usedIndex_eq hoffset, usedMask_eq page, BitTable.has_mark _ (by omega)]

/-- The words of a verified page are free again, and no other. -/
theorem uses_clear (page : UInt8) (used : Vector UInt8 128) (k : Nat) :
    BitTable.has (BitTable.clear used (page.toNat <<< 6) 64) k = (BitTable.has used k && decide (k / 512 ≠ page.toNat)) := by
  rw [BitTable.has_clear, ← decide_not]
  congr 2
  rw [Nat.shiftLeft_eq, eq_iff_iff]
  omega

/-! ## The stages of an operation -/

/-- The calls that get past the range check. -/
structure Call.InRange (call : Call) : Prop where
  page : call.page < pageCount
  offset : call.offset < pageSize

/-- What a call that is not refused has: a word to program is of a known page, and free. -/
theorem refuse_none {build : Build} {writer : Writer} {call : Call} (h : refuse build writer call = none) :
    call.InRange ∧ (call.operation = .program →
      writer.knows call.page = true ∧ writer.uses (wordAt call.page call.offset) = false) := by
  unfold refuse at h
  split at h
  · cases h
  next hargument =>
  split at h
  · cases h
  next hrange =>
  simp only [not_or, ge_iff_le, UInt8.not_le, UInt16.not_le] at hrange
  refine ⟨⟨hrange.1, hrange.2.1⟩, fun hprogram => ?_⟩
  rw [uses_word hrange.2.1]
  obtain ⟨word, hword⟩ : ∃ word, call.word = some word := by
    rw [← Option.isSome_iff_exists, Option.isSome_iff_ne_none]
    intro hnone
    exact hargument (.inr ⟨hprogram, by rw [hnone]; rfl⟩)
  simp only [hprogram, hword, refuseWord] at h
  split at h
  · cases h
  next hall =>
  split at hall
  · cases hall
  split at hall
  · cases hall
  split at hall
  · cases hall
  split at hall
  · cases hall
  next hknown =>
  split at hall
  · cases hall
  next hused =>
  exact ⟨by rw [Writer.knows, decide_eq_true_eq]; exact hknown, by rw [decide_eq_false_iff_not]; exact hused⟩

/-- The word is used, or the page forgotten, before the command. -/
theorem sound_consume {call : Call} (h : Sound w) (hrange : call.InRange) : Sound (consume w call) := by
  unfold consume
  split
  · refine ⟨h.known, fun k hk hprogrammed => ?_, h.log⟩
    rw [Writer.uses, uses_mark hrange.page hrange.offset, Bool.or_eq_true]
    exact .inr (h.used k hk hprogrammed)
  · refine ⟨fun other hother hknown => ?_, h.used, h.log⟩
    rw [Writer.knows, decide_eq_true_eq, knows_forget hrange.page hother] at hknown
    exact h.known other hother (by rw [Writer.knows, decide_eq_true_eq]; exact hknown.2)

theorem exec_bits (call : Call) (octets : Vector UInt8 4) (page : UInt8) (k : Nat) :
    (flashExecCommand hw w call octets).2.writer.knows page = w.writer.knows page ∧
      (flashExecCommand hw w call octets).2.writer.uses k = w.writer.uses k := by
  simp only [flashExecCommand]
  cases hw.executor w.log.length <;> exact ⟨rfl, rfl⟩

/-- A command on a known page and a free word that is marked. -/
theorem Sound.exec_program {call : Call} {octets : Vector UInt8 4} (h : Sound w) (hop : call.operation = .program)
    (hrange : call.InRange) (hknown : w.writer.knows call.page = true)
    (hfree : (observed w.log).programmed (wordAt call.page call.offset) = false)
    (hmarked : w.writer.uses (wordAt call.page call.offset) = true) : Sound (flashExecCommand hw w call octets).2 := by
  have hlog : (flashExecCommand hw w call octets).2.log =
      w.log ++ [⟨w.writer, .program call.page call.offset octets (hw.executor w.log.length)⟩] := by
    simp only [flashExecCommand, hop]
  constructor
  case known =>
    intro page hpage hpageKnown
    rw [hlog, observed_append]
    exact h.known page hpage ((exec_bits call octets page 0).1 ▸ hpageKnown)
  case used =>
    intro k hk hprogrammed
    rw [hlog, observed_append] at hprogrammed
    rw [(exec_bits call octets call.page k).2]
    obtain heq | hbefore := Bool.or_eq_true_iff.1 hprogrammed
    · rw [of_decide_eq_true heq]
      exact hmarked
    · exact h.used k hk hbefore
  case log =>
    rw [hlog]
    refine fits_append h.log ⟨h.known, fun page offset octets' executor he => ?_⟩
    obtain ⟨rfl, rfl, -, -⟩ := Event.program.inj he
    exact ⟨h.known _ hrange.page hknown, hfree, hmarked⟩

/-- An erase of a page that is not known. -/
theorem Sound.exec_erase {call : Call} {octets : Vector UInt8 4} (h : Sound w) (hop : call.operation = .erase)
    (hunknown : w.writer.knows call.page = false) :
    Sound (flashExecCommand hw w call octets).2 ∧
      ((flashExecCommand hw w call octets).1 = some execIdle →
        (observed (flashExecCommand hw w call octets).2.log).swept call.page = some 0) := by
  have hlog : (flashExecCommand hw w call octets).2.log =
      w.log ++ [⟨w.writer, .erase call.page (hw.executor w.log.length)⟩] := by
    simp only [flashExecCommand, hop]
  constructor
  · constructor
    case known =>
      intro page hpage hpageKnown
      rw [(exec_bits call octets page 0).1] at hpageKnown
      have hne : page ≠ call.page := by
        rintro rfl
        rw [hunknown] at hpageKnown
        cases hpageKnown
      rw [hlog, observed_append]
      simpa [observe, Observed.verified, hne] using h.known page hpage hpageKnown
    case used =>
      intro k hk hprogrammed
      rw [hlog, observed_append] at hprogrammed
      rw [(exec_bits call octets call.page k).2]
      exact h.used k hk hprogrammed
    case log =>
      rw [hlog]
      exact fits_append h.log ⟨h.known, nofun⟩
  · intro hidle
    have hexecutor : hw.executor w.log.length = some execIdle := hidle
    rw [hlog, observed_append, hexecutor]
    simp [observe]

/-- Reads keep the bits of the writer. -/
theorem verify_bits (call : Call) (octets : Vector UInt8 4) (fuel position : Nat) (w : World) :
    (verify hw call octets fuel position w).2.writer.known = w.writer.known ∧
      (verify hw call octets fuel position w).2.writer.used = w.writer.used := by
  induction fuel generalizing position w with
  | zero => exact ⟨rfl, rfl⟩
  | succ fuel ih =>
    unfold verify
    simp only
    split
    · exact ⟨rfl, rfl⟩
    split
    · exact ⟨rfl, rfl⟩
    split
    · exact ih _ _
    · exact ⟨rfl, rfl⟩

theorem sound_verify {position : Nat} (h : Sound w) (hw : Hardware) (call : Call) (octets : Vector UInt8 4) (fuel : Nat)
    (hposition : position < pageSize.toNat) : Sound (verify hw call octets fuel position w).2 := by
  induction fuel generalizing position w with
  | zero => exact h
  | succ fuel ih =>
    have hread := h.read hw call.page (expected call.operation octets).length hposition
    unfold verify
    simp only
    split
    · exact hread
    split
    · exact hread
    split
    next hmore => exact ih hread hmore.2
    · exact hread

/-- A page whose reads all pass is verified, and nothing on it is programmed. -/
theorem verify_swept {call : Call} {octets : Vector UInt8 4} {fuel position : Nat} (hop : call.operation = .erase)
    (hswept : (observed w.log).swept call.page = some position) (hposition : position < pageSize.toNat)
    (hfuel : pageSize.toNat ≤ position + readMax * fuel) (hok : (verify hw call octets fuel position w).1 = none) :
    (observed (verify hw call octets fuel position w).2.log).verified call.page = true ∧
      ∀ k, (observed (verify hw call octets fuel position w).2.log).programmed k = true → k / 512 ≠ call.page.toNat := by
  induction fuel generalizing position w with
  | zero => simp only [Nat.mul_zero] at hfuel; omega
  | succ fuel ih =>
    have hlength : (expected call.operation octets).length = readMax := by
      rw [hop]
      rfl
    unfold verify at hok ⊢
    simp only [hlength] at hok ⊢
    split at hok
    · cases hok
    next hreader =>
    split at hok
    · cases hok
    next hoctets =>
    rw [not_not] at hreader hoctets
    have hsize : (List.map (hw.octet w.log.length) (List.range readMax)).length = readMax := by simp
    have hff : (List.map (hw.octet w.log.length) (List.range readMax)).all (· == 0xff) = true := by
      rw [show List.map (hw.octet w.log.length) (List.range readMax) = expected call.operation octets from hoctets, hop]
      rfl
    have hsweep := observed_append w.log ⟨w.writer, .read call.page position
      (List.map (hw.octet w.log.length) (List.range readMax)) (hw.reader w.log.length)⟩
    rw [observe, if_pos ⟨hreader, hff, hswept⟩] at hsweep
    simp only [hsize] at hsweep
    rw [if_neg (not_not_intro hreader), if_neg (not_not_intro hoctets)]
    split
    next hmore =>
      rw [if_pos hmore] at hok
      refine ih ?_ hmore.2 (by rw [Nat.mul_succ] at hfuel; omega) hok
      rw [flashNvRead, hsweep, if_neg (by omega)]
      exact Function.update_self _ _ _
    next hlast =>
      have hend : pageSize.toNat ≤ position + readMax := by
        rw [not_and, Nat.not_lt] at hlast
        exact hlast hop
      rw [flashNvRead, hsweep, if_pos hend]
      refine ⟨?_, fun k hk => of_decide_eq_true (Bool.and_eq_true_iff.1 hk).2⟩
      simpa [Observed.verified] using hend

/-- The page of a verified erase is known, and its words are free. -/
theorem sound_settle {call : Call} (h : Sound w) (hrange : call.InRange)
    (hverified : call.operation = .erase → (observed w.log).verified call.page = true ∧
      ∀ k, (observed w.log).programmed k = true → k / 512 ≠ call.page.toNat) : Sound (settle w call) := by
  unfold settle
  split
  · exact h
  next hop =>
    obtain ⟨hpage, hfree⟩ := hverified hop
    refine ⟨fun other hother hknown => ?_, fun k hk hprogrammed => ?_, h.log⟩
    · rw [Writer.knows, decide_eq_true_eq, knows_settle hrange.page hother] at hknown
      obtain rfl | hbefore := hknown
      · exact hpage
      · exact h.known other hother (by rw [Writer.knows, decide_eq_true_eq]; exact hbefore)
    · rw [Writer.uses, uses_clear, Bool.and_eq_true]
      exact ⟨h.used k hk hprogrammed, decide_eq_true (hfree k hprogrammed)⟩

/-- The command of an operation whose word is free, or that erases. -/
theorem sound_command {call : Call} {octets : Vector UInt8 4} (h : Sound w) (hrange : call.InRange)
    (hword : call.operation = .program → w.writer.knows call.page = true ∧
      (observed w.log).programmed (wordAt call.page call.offset) = false)
    (hstart : call.operation = .erase → call.offset = 0) : Sound (command hw call octets w).2 := by
  have hconsumed := (sound_consume h hrange).status { (consume w call).writer.status with phase := .command }
  have hposition : call.offset.toNat < pageSize.toNat := hrange.offset
  have hexec : Sound (flashExecCommand hw (phase (consume w call) .command) call octets).2 ∧
      (call.operation = .erase → (flashExecCommand hw (phase (consume w call) .command) call octets).1 = some execIdle →
        (observed (flashExecCommand hw (phase (consume w call) .command) call octets).2.log).swept call.page = some 0) := by
    cases hop : call.operation with
    | program =>
      obtain ⟨hknown, hfree⟩ := hword hop
      refine ⟨hconsumed.exec_program hop hrange ?_ ?_ ?_, nofun⟩
      · simpa [phase, consume, hop, Writer.knows] using hknown
      · simpa [phase, consume, hop] using hfree
      · simp [consume, hop, Writer.uses, uses_mark hrange.page hrange.offset]
    | erase =>
      obtain ⟨hsound, hswept⟩ := hconsumed.exec_erase hop (by
        rw [Writer.knows, decide_eq_false_iff_not]
        simp only [consume, hop, knows_forget hrange.page hrange.page]
        exact fun hno => hno.1 rfl)
      exact ⟨hsound, fun _ => hswept⟩
  unfold command
  generalize flashExecCommand hw (phase (consume w call) .command) call octets = r at hexec ⊢
  obtain ⟨_ | executor, w'⟩ := r
  · exact hexec.1
  simp only
  split
  · exact hexec.1.status _
  next hidle =>
    have hsound := sound_verify (hexec.1.status { w'.writer.status with phase := .verify }) hw call octets 64 hposition
    have hverified : (verify hw call octets 64 call.offset.toNat (phase w' .verify)).1 = none →
        call.operation = .erase →
        (observed (verify hw call octets 64 call.offset.toNat (phase w' .verify)).2.log).verified call.page = true ∧
          ∀ k, (observed (verify hw call octets 64 call.offset.toNat (phase w' .verify)).2.log).programmed k = true →
            k / 512 ≠ call.page.toNat := by
      intro hnone hop
      refine verify_swept hop ?_ hposition (le_trans (show pageSize.toNat ≤ readMax * 64 by decide) (Nat.le_add_left _ _)) hnone
      rw [hstart hop]
      exact hexec.2 hop (congrArg some (not_not.1 hidle))
    rw [show phase w' .verify = { w' with writer := { w'.writer with status := { w'.writer.status with phase := .verify } } }
      from rfl] at hverified ⊢
    generalize verify hw call octets 64 call.offset.toNat _ = v at hsound hverified ⊢
    obtain ⟨_ | result, w''⟩ := v
    · have hsettled := sound_settle hsound hrange (hverified rfl)
      exact (hsettled.status { (settle w'' call).writer.status with phase := .done }).status _
    · exact hsound.status _

theorem sound_admitted {build : Build} {call : Call} (h : Sound w) (hrefuse : refuse build w.writer call = none)
    (hstart : call.operation = .erase → call.offset = 0) : Sound (admitted hw call w).2 := by
  obtain ⟨hrange, hword⟩ := refuse_none hrefuse
  have hposition : call.offset.toNat < pageSize.toNat := hrange.offset
  have hread := (h.status (begun call)).read hw call.page (if call.operation = .program then 4 else 1) hposition
  unfold admitted
  simp only
  generalize (if call.operation = .program then 4 else 1) = length at hread ⊢
  split
  · exact hread.status _
  split
  · exact hread.status _
  · refine sound_command hread hrange (fun hop => ⟨(hword hop).1, ?_⟩) hstart
    rw [Bool.eq_false_iff]
    intro hprogrammed
    rw [flashNvRead, observed_append] at hprogrammed
    have hused := h.used _ (wordAt_lt hrange.page hrange.offset) (observe_read_programmed hprogrammed)
    rw [(hword hop).2] at hused
    cases hused

theorem sound_operate {call : Call} (h : Sound w) (build : Build) (hstart : call.operation = .erase → call.offset = 0) :
    Sound (operate hw build w call).2 := by
  unfold operate
  split
  · exact h
  split
  · exact h
  next hrefuse => exact sound_admitted h hrefuse hstart

/-! ## Runs -/

/-- A call of one of the two services. -/
inductive Request where
  | erase (page : UInt8) (pollLimit : UInt16) (entered : Bool)
  | program (page : UInt8) (offset : UInt16) (word : Option Word) (pollLimit : UInt16) (entered : Bool)

def Request.call : Request → Call
  | .erase page pollLimit entered => flashNvErase page pollLimit entered
  | .program page offset word pollLimit entered => flashNvProgram page offset word pollLimit entered

/-- The result of a request and the world behind it. -/
def perform (hw : Hardware) (build : Build) (w : World) (r : Request) : Option Result × World := operate hw build w r.call

/-- Requests one after the other. Behind a call that does not return there are none in truth;
here they find the writer as it was left. -/
def run (hw : Hardware) (build : Build) (requests : List Request) (w : World) : World :=
  requests.foldl (fun w r => (perform hw build w r).2) w

/-- The world after a reset. -/
def World.reset : World := ⟨Writer.reset, []⟩

theorem sound_reset : Sound World.reset := by
  refine ⟨fun page hpage h => ?_, nofun, fun before e after h => ?_⟩
  · rw [Writer.knows, decide_eq_true_eq] at h
    exact absurd (UInt8.zero_and) h
  · cases before <;> cases h

theorem sound_run (hw : Hardware) (build : Build) (requests : List Request) (h : Sound w) :
    Sound (run hw build requests w) := by
  induction requests generalizing w with
  | nil => exact h
  | cons r requests ih =>
    refine ih (sound_operate h build fun hop => ?_)
    cases r with
    | erase => rfl
    | program => cases hop

/-! ## Latching -/

/-- A latched result answers every call. -/
theorem latched_perform {result : Result} (h : w.writer.status.result = result) (hne : result ≠ .ok) (hw : Hardware)
    (build : Build) (r : Request) : perform hw build w r = (some result, w) := by
  rw [perform, operate, if_pos (by rw [h]; exact hne), h]

theorem latched_run {result : Result} (h : w.writer.status.result = result) (hne : result ≠ .ok) (hw : Hardware)
    (build : Build) (requests : List Request) : run hw build requests w = w := by
  induction requests with
  | nil => rfl
  | cons r requests ih =>
    rw [run, List.foldl_cons, latched_perform h hne]
    exact ih

/-- An operation that asked the flash keeps what it returned, or that it did not return. -/
def Kept (log : List Entry) (r : Option Result × World) : Prop :=
  log.length < r.2.log.length ∧ r.2.writer.status.result = r.1.getD .pending

theorem verify_grows (call : Call) (octets : Vector UInt8 4) (fuel position : Nat) (w : World) :
    w.log.length ≤ (verify hw call octets fuel position w).2.log.length := by
  induction fuel generalizing position w with
  | zero => exact le_refl _
  | succ fuel ih =>
    have hread : ∀ n, w.log.length ≤ (flashNvRead hw w call.page position n).2.log.length := fun n => by simp [flashNvRead]
    unfold verify
    simp only
    split
    · exact hread _
    split
    · exact hread _
    split
    · exact (hread _).trans (ih _ _)
    · exact hread _

theorem consume_grows (call : Call) : (consume w call).log = w.log ∧
    (consume w call).writer.status = w.writer.status := by
  unfold consume
  split <;> exact ⟨rfl, rfl⟩

theorem settle_log (call : Call) : (settle w call).log = w.log := by
  unfold settle
  split <;> rfl

theorem kept_command {call : Call} {octets : Vector UInt8 4} {log : List Entry} (hlog : log.length < w.log.length)
    (hpending : w.writer.status.result = .pending) : Kept log (command hw call octets w) := by
  have hexec : log.length < (flashExecCommand hw (phase (consume w call) .command) call octets).2.log.length ∧
      (flashExecCommand hw (phase (consume w call) .command) call octets).2.writer.status.result = .pending := by
    constructor
    · simp only [flashExecCommand, phase, (consume_grows call).1, List.length_append]
      omega
    · simp only [flashExecCommand, phase, (consume_grows call).1]
      cases hw.executor w.log.length <;> simpa [(consume_grows call).2] using hpending
  unfold command
  generalize flashExecCommand hw (phase (consume w call) .command) call octets = r at hexec ⊢
  obtain ⟨_ | executor, w'⟩ := r
  · exact hexec
  simp only
  split
  · exact ⟨hexec.1, rfl⟩
  · have hgrows := @verify_grows hw call octets 64 call.offset.toNat (phase w' .verify)
    generalize verify hw call octets 64 call.offset.toNat (phase w' .verify) = v at hgrows ⊢
    obtain ⟨_ | result, w''⟩ := v
    · refine ⟨hexec.1.trans_le ?_, rfl⟩
      show w'.log.length ≤ (settle w'' call).log.length
      rw [settle_log]
      exact hgrows
    · exact ⟨hexec.1.trans_le hgrows, rfl⟩

theorem kept_admitted (call : Call) : Kept w.log (admitted hw call w) := by
  unfold admitted
  simp only
  generalize (if call.operation = .program then 4 else 1) = length
  split
  · exact ⟨by simp [finish, flashNvRead], rfl⟩
  split
  · exact ⟨by simp [finish, flashNvRead], rfl⟩
  · exact kept_command (by simp [flashNvRead]) rfl

/-- The results of a refusal before the flash is touched. -/
def Result.benign : Result → Bool
  | .invalidArgument | .invalidRange | .bufferOwnership | .historyUnknown | .wordUsed => true
  | _ => false

theorem refuseWord_benign {build : Build} {writer : Writer} {page : UInt8} {offset : UInt16} {word : Word} {result : Result}
    (h : refuseWord build writer page offset word = some result) : result.benign = true := by
  unfold refuseWord at h
  split at h
  · cases h; rfl
  split at h
  · cases h; rfl
  split at h
  · cases h; rfl
  split at h
  · cases h; rfl
  split at h
  · cases h; rfl
  · cases h

theorem refuse_benign {build : Build} {writer : Writer} {call : Call} {result : Result}
    (h : refuse build writer call = some result) : result.benign = true := by
  unfold refuse at h
  split at h
  · cases h; rfl
  split at h
  · cases h; rfl
  simp only at h
  split at h
  next hword =>
    cases h
    split at hword
    · exact refuseWord_benign hword
    · cases hword
  · split at h
    · cases h; rfl
    · cases h

/-- A call finds a latched result, is refused, or asks the flash and keeps its result. -/
theorem perform_cases (hw : Hardware) (build : Build) (w : World) (r : Request) :
    (w.writer.status.result ≠ .ok ∧ perform hw build w r = (some w.writer.status.result, w)) ∨
    (∃ result, result.benign = true ∧ perform hw build w r = (some result, w)) ∨
      Kept w.log (perform hw build w r) := by
  unfold perform operate
  split
  next hlatched => exact .inl ⟨hlatched, rfl⟩
  split
  next result hrefuse => exact .inr (.inl ⟨result, refuse_benign hrefuse, rfl⟩)
  · exact .inr (.inr (kept_admitted r.call))

/-- In every run: requests to the flash are in order, known pages are verified, a call that does
not ask the flash changes nothing and is latched or refused, and the result of one that asks and
fails answers every later call. -/
theorem word_once (hw : Hardware) (build : Build) (requests : List Request) (r : Request) :
    (∀ before e after, (run hw build requests .reset).log = before ++ e :: after → e.Fits before) ∧
    (∀ page < pageCount, (run hw build requests .reset).writer.knows page = true →
      (observed (run hw build requests .reset).log).verified page = true) ∧
    ((perform hw build (run hw build requests .reset) r).2.log = (run hw build requests .reset).log →
      (perform hw build (run hw build requests .reset) r).2 = run hw build requests .reset ∧
      ∃ result, (perform hw build (run hw build requests .reset) r).1 = some result ∧
        (result.benign = true ∨ result = (run hw build requests .reset).writer.status.result ∧ result ≠ .ok)) ∧
    ((perform hw build (run hw build requests .reset) r).2.log ≠ (run hw build requests .reset).log →
      ∀ result, (perform hw build (run hw build requests .reset) r).1 = some result → result ≠ .ok →
        ∀ later next, perform hw build (run hw build later (perform hw build (run hw build requests .reset) r).2) next =
          (some result, (perform hw build (run hw build requests .reset) r).2)) := by
  have hsound := sound_run hw build requests sound_reset
  have hcases := perform_cases hw build (run hw build requests .reset) r
  refine ⟨hsound.log, hsound.known, fun hlog => ?_, fun hlog result hresult hne later next => ?_⟩
  · obtain ⟨hne, h⟩ | ⟨result, hbenign, h⟩ | h := hcases
    · rw [h]
      exact ⟨rfl, _, rfl, .inr ⟨rfl, hne⟩⟩
    · rw [h]
      exact ⟨rfl, _, rfl, .inl hbenign⟩
    · exact absurd (congrArg List.length hlog) (by have := h.1; omega)
  · obtain ⟨-, h⟩ | ⟨result', -, h⟩ | h := hcases
    · exact absurd (congrArg (·.2.log) h) hlog
    · exact absurd (congrArg (·.2.log) h) hlog
    · have hkept := h.2
      rw [hresult, Option.getD_some] at hkept
      rw [latched_run hkept hne]
      exact latched_perform hkept hne hw build next

end FlashWrite
