import Cc2530Zigbee.Octets

/-!
# Two flash pages and the power supply

An erase sets every octet of a page to `0xFF`, a program command only clears
bits of one four-octet word. Each command meets one entry of a schedule: it
completes, it reports a failure, or the supply is lost before, inside or after
it. An interrupted program leaves any subset of the bits to be cleared still
set; an interrupted erase leaves any page of the set `T`. Reads always succeed
and an exhausted schedule lets every later command complete.
-/
namespace Flash

abbrev Page := Nat → UInt8
abbrev Word := Vector UInt8 4

def pageSize : Nat := 2048

def blank : Page := fun _ => 0xFF

/-- Programming one word. `kept` holds the bits an interrupted command did not
reach; a completed command keeps none. -/
def write (p : Page) (offset : Nat) (word kept : Word) : Page := fun i =>
  if h : offset ≤ i ∧ i < offset + 4 then
    p i &&& (word[i - offset] ||| kept[i - offset])
  else p i

def noBits : Word := Vector.replicate 4 0

theorem write_other (p : Page) (offset : Nat) (word kept : Word) (i : Nat)
    (h : i < offset ∨ offset + 4 ≤ i) : write p offset word kept i = p i := by
  have hn : ¬ (offset ≤ i ∧ i < offset + 4) := by omega
  simp [write, hn]

theorem write_noBits (p : Page) (offset : Nat) (word : Word) (k : Nat) (h : k < 4)
    (hp : p (offset + k) = 0xFF) : write p offset word noBits (offset + k) = word[k] := by
  have hi : offset ≤ offset + k ∧ offset + k < offset + 4 := by omega
  have hz : (255 : UInt8) &&& word[k] = word[k] := UInt8.neg_one_and
  simp [write, hi, hp, noBits, hz]

/-- Where a command was when it stopped. -/
inductive Moment (T : Page → Prop) where
  | before : Moment T
  | during : Word → {p : Page // T p} → Moment T
  | after : Moment T

inductive Outcome (T : Page → Prop) where
  | done : Outcome T
  | failed : Moment T → Outcome T
  | cut : Moment T → Outcome T

/-- What survives a reset: both pages, and the supply's future. -/
structure Device (T : Page → Prop) where
  page : Bool → Page
  schedule : List (Outcome T)

variable {T : Page → Prop}

def Device.put (d : Device T) (b : Bool) (p : Page) : Device T :=
  { d with page := fun c => if c = b then p else d.page c }

@[simp] theorem Device.put_same (d : Device T) (b : Bool) (p : Page) : (d.put b p).page b = p := by
  simp [Device.put]

@[simp] theorem Device.put_other (d : Device T) (b : Bool) (p : Page) :
    (d.put b p).page (!b) = d.page (!b) := by
  cases b <;> simp [Device.put]

/-- One command: `full` is its completed effect on the page, `part` the effect
of one stopped inside. The error carries the device after a loss of power. -/
def command (d : Device T) (b : Bool) (full : Page) (part : Word → {p : Page // T p} → Page) :
    Except (Device T) (Bool × Device T) :=
  let stopped (d : Device T) : Moment T → Device T
    | .before => d
    | .during w p => d.put b (part w p)
    | .after => d.put b full
  match d.schedule with
  | [] => .ok (true, d.put b full)
  | .done :: rest => .ok (true, { d with schedule := rest }.put b full)
  | .failed m :: rest => .ok (false, stopped { d with schedule := rest } m)
  | .cut m :: rest => .error (stopped { d with schedule := rest } m)

/-- `flash_nv_erase`: true is `FLASH_WRITE_OK`. -/
def erase (d : Device T) (b : Bool) : Except (Device T) (Bool × Device T) :=
  command d b blank fun _ p => p.1

/-- `flash_nv_program`. -/
def program (d : Device T) (b : Bool) (offset : Nat) (word : Word) :
    Except (Device T) (Bool × Device T) :=
  command d b (write (d.page b) offset word noBits) fun kept _ => write (d.page b) offset word kept

theorem write_allBits (p : Page) (offset : Nat) (word : Word) :
    write p offset word (Vector.replicate 4 255) = p := by
  funext i
  by_cases h : offset ≤ i ∧ i < offset + 4
  · have hz : ∀ b : UInt8, b ||| 255 = 255 := fun b => UInt8.or_neg_one
    have ha : ∀ b : UInt8, b &&& 255 = b := fun b => UInt8.and_neg_one
    simp [write, h, hz, ha]
  · simp [write, h]

/-- A command touches its own page only, and reports success only with its
full effect in place; otherwise the page is old, new or torn. -/
theorem command_cases (d : Device T) (b : Bool) (full : Page)
    (part : Word → {p : Page // T p} → Page) :
    (∃ d', command d b full part = .ok (true, d') ∧ d'.page b = full ∧ d'.page (!b) = d.page (!b)) ∨
    (∃ d', (command d b full part = .ok (false, d') ∨ command d b full part = .error d') ∧
      (d'.page b = d.page b ∨ d'.page b = full ∨ ∃ w q, d'.page b = part w q) ∧
      d'.page (!b) = d.page (!b)) := by
  unfold command
  cases d with
  | mk page schedule =>
    cases schedule with
    | nil => exact .inl ⟨_, rfl, by simp, by simp⟩
    | cons o rest =>
      cases o with
      | done => exact .inl ⟨_, rfl, by simp, by simp⟩
      | failed m =>
        refine .inr ⟨_, .inl rfl, ?_, by cases m <;> simp⟩
        cases m with
        | before => exact .inl (by simp)
        | during w p => exact .inr (.inr ⟨w, p, by simp⟩)
        | after => exact .inr (.inl (by simp))
      | cut m =>
        refine .inr ⟨_, .inr rfl, ?_, by cases m <;> simp⟩
        cases m with
        | before => exact .inl (by simp)
        | during w p => exact .inr (.inr ⟨w, p, by simp⟩)
        | after => exact .inr (.inl (by simp))

theorem erase_cases (d : Device T) (b : Bool) :
    (∃ d', erase d b = .ok (true, d') ∧ d'.page b = blank ∧ d'.page (!b) = d.page (!b)) ∨
    (∃ d', (erase d b = .ok (false, d') ∨ erase d b = .error d') ∧
      (d'.page b = d.page b ∨ d'.page b = blank ∨ T (d'.page b)) ∧ d'.page (!b) = d.page (!b)) := by
  obtain h | ⟨d', hr, hp, ho⟩ := command_cases d b blank (fun _ (p : {p : Page // T p}) => p.1)
  · exact .inl h
  · refine .inr ⟨d', hr, ?_, ho⟩
    obtain h | h | ⟨w, q, h⟩ := hp
    · exact .inl h
    · exact .inr (.inl h)
    · exact .inr (.inr (h ▸ q.2))

/-- However a program command ends, the page is the old one with some of the
bits of one word cleared; on success all of them. -/
theorem program_cases (d : Device T) (b : Bool) (offset : Nat) (word : Word) :
    (∃ d', program d b offset word = .ok (true, d') ∧
      d'.page b = write (d.page b) offset word noBits ∧ d'.page (!b) = d.page (!b)) ∨
    (∃ d' kept, (program d b offset word = .ok (false, d') ∨ program d b offset word = .error d') ∧
      d'.page b = write (d.page b) offset word kept ∧ d'.page (!b) = d.page (!b)) := by
  obtain h | ⟨d', hr, hp, ho⟩ := command_cases d b (write (d.page b) offset word noBits)
    (fun kept (_ : {p : Page // T p}) => write (d.page b) offset word kept)
  · exact .inl h
  · obtain h | h | ⟨w, q, h⟩ := hp
    · exact .inr ⟨d', _, hr, h.trans (write_allBits _ offset word).symm, ho⟩
    · exact .inr ⟨d', _, hr, h, ho⟩
    · exact .inr ⟨d', w, hr, h, ho⟩

end Flash
