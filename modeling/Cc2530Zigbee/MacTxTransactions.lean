import Cc2530Zigbee.MacTxRuns

/-!
# Transactions of the transmitter

The actions an engine asks for come in one fixed order: by generation, retry,
backoff and kind. Each is asked for once, and a transaction has few of them.
-/
namespace MacTx

variable {link : Bool}

/-- How far a phase is on the way of one backoff. -/
def rank : Phase → Nat
  | .draw => 0
  | .drawWait => 1
  | .radio | .ackWait => 2
  | .idle | .stopping | .done | .fault => 3

/-- The phase an action belongs to. -/
def ActionKind.rank : ActionKind → Nat
  | .random => 0
  | .attempt => 1
  | .quiesce => 2
  | .none | .collect => 3

/-- A place in the order of all actions an engine can ask for. -/
def place (generation : UInt32) (retry nb : UInt8) (rank : Nat) : Nat :=
  ((generation.toNat * 4 + retry.toNat) * 8 + nb.toNat) * 4 + rank

/-- Everything before this place has been asked for. -/
def mark (tx : Tx) : Nat := place tx.generation tx.retries tx.nb (rank tx.phase)

def Action.place (a : Action) : Nat := MacTx.place a.generation a.retry a.nb a.kind.rank

theorem rank_le (p : Phase) : rank p ≤ 3 := by
  cases p <;> decide

/-- The counters fit their digits. -/
theorem Bounded.nb_le {tx : Tx} (hb : Bounded tx) : tx.nb.toNat ≤ 5 := by
  have hc := hb.counts
  unfold Counts at hc
  split at hc <;> omega

/-- The identity of the attempt under way. -/
structure SameTry (c c' : Tx) : Prop where
  generation : c'.generation = c.generation
  retries : c'.retries = c.retries
  nb : c'.nb = c.nb

theorem SameTry.mark_le {c c' : Tx} (h : SameTry c c') (hr : rank c.phase ≤ rank c'.phase) : mark c ≤ mark c' := by
  simp only [mark, place, h.generation, h.retries, h.nb]
  omega

theorem SameTry.asks {c c' : Tx} (h : SameTry c c') (now : UInt32) {kind : ActionKind} (hn : c.nb.toNat ≤ 4)
    (hr : rank c.phase = kind.rank) (hr' : kind.rank < rank c'.phase) :
    c'.nb.toNat ≤ 4 ∧ mark c ≤ (publish c' now kind).place ∧ (publish c' now kind).place < mark c' := by
  refine ⟨by rw [h.nb]; exact hn, ?_, ?_⟩
  · simp [mark, Action.place, publish, hr, h.generation, h.retries, h.nb]
  · simp only [mark, Action.place, place, publish, h.generation, h.retries, h.nb]
    omega

/-- A move asks for nothing and goes no way back, or asks for what is next. -/
theorem move_mark {now : UInt32} {signal : Option Signal} {c c' : Tx} {kind : ActionKind}
    (hb : Bounded c) (hm : Move link now signal c c' kind) :
    (kind = .none ∧ mark c ≤ mark c') ∨
    (kind ≠ .none ∧ c'.nb.toNat ≤ 4 ∧ mark c ≤ (publish c' now kind).place ∧ (publish c' now kind).place < mark c') := by
  have hr := hb.retries
  have hn := hb.nb_le
  have hc := hb.counts
  cases hm with
  | fails outcome ho steps room again => exact .inl ⟨rfl, SameTry.mark_le ⟨rfl, rfl, rfl⟩ (rank_le c.phase)⟩
  | waits h => exact .inl ⟨rfl, Nat.le_refl _⟩
  | holds h outcome room again ha => exact .inl ⟨rfl, Nat.le_refl _⟩
  | retries h ha stamp hs room =>
    refine .inl ⟨rfl, ?_⟩
    have hg := (rested_slot c stamp).generation
    have hsucc := @succ_toNat c.retries (by omega)
    simp only [mark, place, rank, h, hg, hsucc]
    simp
    omega
  | ends h stamp hs outcome ho room =>
    refine .inl ⟨rfl, SameTry.mark_le ?_ (rank_le c.phase)⟩
    unfold rested
    split <;> exact ⟨rfl, rfl, rfl⟩
  | abandons h => exact .inl ⟨rfl, SameTry.mark_le ⟨rfl, rfl, rfl⟩ (rank_le c.phase)⟩
  | expires h value hs => exact .inl ⟨rfl, SameTry.mark_le ⟨rfl, rfl, rfl⟩ (rank_le c.phase)⟩
  | sends h stamp hs ha => exact .inl ⟨rfl, SameTry.mark_le ⟨rfl, rfl, rfl⟩ (by rw [h]; exact Nat.le_refl 2)⟩
  | defers h stamp hs hn' =>
    refine .inl ⟨rfl, ?_⟩
    have hsucc := @succ_toNat c.nb (by omega)
    simp only [mark, place, rank, h, hsucc]
    omega
  | jams h stamp hs hn' =>
    refine .inl ⟨rfl, ?_⟩
    have hsucc := @succ_toNat c.nb (by omega)
    simp only [mark, place, rank, h, hsucc]
    omega
  | leaves h =>
    simp only [Counts, h] at hc
    refine .inr ⟨by decide, SameTry.asks ?_ now hc.1 (by rw [h]; rfl) (Nat.lt_succ_self 2)⟩
    unfold stopped
    split <;> exact ⟨rfl, rfl, rfl⟩
  | draws h =>
    simp only [Counts, h] at hc
    refine .inr ⟨by decide, SameTry.asks ?_ now hc.1 (by rw [h]; rfl) (Nat.lt_succ_self 0)⟩
    exact ⟨rfl, rfl, rfl⟩
  | starts h value hs hd =>
    simp only [Counts, h] at hc
    refine .inr ⟨by decide, SameTry.asks ?_ now hc.1 (by rw [h]; rfl) (Nat.lt_succ_self 1)⟩
    exact ⟨rfl, rfl, rfl⟩
  | silences h =>
    simp only [Counts, h] at hc
    refine .inr ⟨by decide, SameTry.asks ?_ now hc.1 (by rw [h]; rfl) (Nat.lt_succ_self 2)⟩
    exact ⟨rfl, rfl, rfl⟩
  | finishes h stamp hs ha =>
    simp only [Counts, h] at hc
    refine .inr ⟨by decide, SameTry.asks ?_ now hc.1 (by rw [h]; rfl) (Nat.lt_succ_self 2)⟩
    exact ⟨rfl, rfl, rfl⟩
  | hears h stamp length bytes hs ha more =>
    simp only [Counts, h] at hc
    refine .inr ⟨by decide, SameTry.asks ?_ now hc.1 (by rw [h]; rfl) (Nat.lt_succ_self 2)⟩
    exact ⟨rfl, rfl, rfl⟩
  | misses h =>
    simp only [Counts, h] at hc
    refine .inr ⟨by decide, SameTry.asks ?_ now hc.1 (by rw [h]; rfl) (Nat.lt_succ_self 2)⟩
    exact ⟨rfl, rfl, rfl⟩

/-- The actions of a run, polls without one left out. -/
def asked (reports : List Report) : List Action :=
  (reports.filterMap Report.action).filter fun a => a.kind ≠ .none

/-- The attempts of one transaction. -/
def attempts (reports : List Report) (generation : UInt32) : List Action :=
  (asked reports).filter fun a => a.kind = .attempt ∧ a.generation = generation

/-- The generations of the transactions of a run. -/
def opened (reports : List Report) : List UInt32 := reports.filterMap Report.opened

/-- What a history of calls has asked for, against the engine it ends with. -/
structure Accounted (reports : List Report) (tx : Tx) : Prop where
  bounded : Bounded tx
  ordered : (asked reports).Pairwise fun a b => a.place < b.place
  passed : ∀ a ∈ asked reports, a.place < mark tx ∧ a.retry.toNat ≤ 3 ∧ a.nb.toNat ≤ 4
  fresh : (opened reports).Pairwise (· < ·)
  known : ∀ g ∈ opened reports, g ≤ tx.generation

theorem asked_snoc (reports : List Report) (r : Report) :
    asked (reports ++ [r]) = asked reports ++ asked [r] := by
  simp [asked]

theorem opened_snoc (reports : List Report) (r : Report) :
    opened (reports ++ [r]) = opened reports ++ opened [r] := by
  simp [opened]

/-- A turn that asks for nothing and opens nothing. -/
theorem Accounted.quiet {reports : List Report} {tx tx' : Tx} {r : Report} (h : Accounted reports tx)
    (hb : Bounded tx') (ha : asked [r] = []) (ho : opened [r] = []) (hm : mark tx ≤ mark tx')
    (hg : tx'.generation = tx.generation) : Accounted (reports ++ [r]) tx' := by
  refine ⟨hb, ?_, ?_, ?_, ?_⟩
  · rw [asked_snoc, ha, List.append_nil]
    exact h.ordered
  · rw [asked_snoc, ha, List.append_nil]
    exact fun a hmem => ⟨Nat.lt_of_lt_of_le (h.passed a hmem).1 hm, (h.passed a hmem).2⟩
  · rw [opened_snoc, ho, List.append_nil]
    exact h.fresh
  · rw [opened_snoc, ho, List.append_nil, hg]
    exact h.known

/-- A turn that asks for the next action. -/
theorem Accounted.asks {reports : List Report} {tx tx' : Tx} {a : Action} (h : Accounted reports tx)
    (hb : Bounded tx') (hk : a.kind ≠ .none) (hr : a.retry.toNat ≤ 3) (hn : a.nb.toNat ≤ 4)
    (hm : mark tx ≤ a.place) (hm' : a.place < mark tx') (hg : tx'.generation = tx.generation) :
    Accounted (reports ++ [⟨.ok, none, some a⟩]) tx' := by
  have ha : asked [⟨.ok, none, some a⟩] = [a] := by simp [asked, hk]
  refine ⟨hb, ?_, ?_, ?_, ?_⟩
  · rw [asked_snoc, ha, List.pairwise_append]
    refine ⟨h.ordered, List.pairwise_singleton _ a, fun b hmem c hc => ?_⟩
    rw [List.mem_singleton.1 hc]
    exact Nat.lt_of_lt_of_le (h.passed b hmem).1 hm
  · rw [asked_snoc, ha]
    intro b hmem
    rcases List.mem_append.1 hmem with hmem | hmem
    · exact ⟨Nat.lt_trans (Nat.lt_of_lt_of_le (h.passed b hmem).1 hm) hm', (h.passed b hmem).2⟩
    · rw [List.mem_singleton.1 hmem]
      exact ⟨hm', hr, hn⟩
  · rw [opened_snoc]
    simpa [opened] using h.fresh
  · rw [opened_snoc, hg]
    simpa [opened] using h.known

/-- The next generation is above all before it. -/
theorem generation_succ {g : UInt32} (h : g ≠ 0xFFFFFFFF) : (g + 1).toNat = g.toNat + 1 := by
  have hlt := g.toNat_lt
  have hne : g.toNat ≠ 4294967295 := fun he => h (UInt32.toNat_inj.1 he)
  rw [UInt32.toNat_add]
  exact Nat.mod_eq_of_lt (by simp; omega)

/-- A turn that opens a transaction. -/
theorem Accounted.opens {reports : List Report} {tx tx' : Tx} {now lifetime : UInt32} (h : Accounted reports tx)
    (hb : Bounded tx') (ha : Admitted tx tx' now lifetime) :
    Accounted (reports ++ [⟨.ok, some tx'.generation, none⟩]) tx' := by
  have hsucc := generation_succ ha.room
  rw [← ha.generation] at hsucc
  have hm : mark tx ≤ mark tx' := by
    have hr := h.bounded.retries
    have hn := h.bounded.nb_le
    have hk := rank_le tx.phase
    simp only [mark, place, hsucc]
    omega
  refine ⟨hb, ?_, ?_, ?_, ?_⟩
  · rw [asked_snoc]
    simpa [asked] using h.ordered
  · rw [asked_snoc]
    simp only [asked, List.filterMap_cons_none, List.filterMap_nil, List.filter_nil, List.append_nil]
    exact fun a hmem => ⟨Nat.lt_of_lt_of_le (h.passed a hmem).1 hm, (h.passed a hmem).2⟩
  · rw [opened_snoc, List.pairwise_append]
    refine ⟨h.fresh, List.pairwise_singleton _ _, fun g hmem g' hg' => ?_⟩
    rw [show g' = tx'.generation by simpa [opened] using hg', UInt32.lt_iff_toNat_lt, hsucc]
    exact Nat.lt_succ_of_le (UInt32.le_iff_toNat_le.1 (h.known g hmem))
  · rw [opened_snoc]
    intro g hmem
    rcases List.mem_append.1 hmem with hmem | hmem
    · rw [UInt32.le_iff_toNat_le, hsucc]
      exact Nat.le_succ_of_le (UInt32.le_iff_toNat_le.1 (h.known g hmem))
    · rw [show g = tx'.generation by simpa [opened] using hmem]
      exact UInt32.le_refl _

theorem turn_accounted {reports : List Report} {tx tx' : Tx} {op : Op} {report : Report}
    (h : Accounted reports tx) (ht : Turn link tx op report tx') : Accounted (reports ++ [report]) tx' := by
  have hb := turn_bounded h.bounded ht
  cases ht with
  | refuses result hr => exact h.quiet hb rfl rfl (Nat.le_refl _) rfl
  | opens body now lifetime workLimit tx' ha => exact h.opens hb ha
  | rests now event hp => exact h.quiet hb rfl rfl (Nat.le_refl _) rfl
  | strays now event hp hc => exact h.quiet hb rfl rfl (SameTry.mark_le ⟨rfl, rfl, rfl⟩ (rank_le tx.phase)) rfl
  | moves now event hp hw hc tx' kind hm =>
    have hslot := (move_slot hm).generation
    rcases move_mark (c := clocked tx now) ⟨h.bounded.retries, h.bounded.counts⟩ hm with ⟨rfl, hle⟩ | ⟨hk, hn, hle, hlt⟩
    · exact h.quiet hb rfl rfl hle hslot
    · exact h.asks hb hk hb.retries hn hle hlt hslot
  | frees hd =>
    refine h.quiet hb rfl rfl (SameTry.mark_le ⟨rfl, rfl, rfl⟩ ?_) rfl
    rw [hd]
    exact Nat.le_refl 3

theorem run_accounted (dsn : UInt8) (now : UInt32) (ops : List Op) :
    Accounted (Runs.run (perform link) (init dsn now) ops).1 (Runs.run (perform link) (init dsn now) ops).2 := by
  refine Runs.run_invariant (perform link) Accounted (init dsn now) [] ?_ ?_ ops
  · exact ⟨init_bounded dsn now, .nil, by simp [asked], .nil, by simp [opened]⟩
  · intro reports tx op h
    exact turn_accounted h (perform_turn tx op)

/-- The identity of an action. -/
def Action.identity (a : Action) : ActionKind × UInt32 × UInt8 × UInt8 := (a.kind, a.generation, a.retry, a.nb)

theorem place_identity {a b : Action} (h : a.place < b.place) : a.identity ≠ b.identity := by
  intro he
  simp only [Action.identity, Prod.mk.injEq] at he
  simp [Action.place, he] at h

/-- Retries and backoffs of a transaction. -/
def tries : Finset (Nat × Nat) := Finset.range 4 ×ˢ Finset.range 5

theorem attempts_few {reports : List Report} {tx : Tx} (h : Accounted reports tx) (g : UInt32) :
    (attempts reports g).length ≤ 20 := by
  have hnodup : ((attempts reports g).map fun a => (a.retry.toNat, a.nb.toNat)).Nodup := by
    rw [List.Nodup, List.pairwise_map]
    refine (List.Pairwise.filter _ h.ordered).imp_of_mem ?_
    intro a b ha hb hab he
    have ha := (List.mem_filter.1 ha).2
    have hb := (List.mem_filter.1 hb).2
    simp only [decide_eq_true_eq] at ha hb
    simp only [Prod.mk.injEq] at he
    simp [Action.place, place, ha, hb, he] at hab
  have hsub : ((attempts reports g).map fun a => (a.retry.toNat, a.nb.toNat)).toFinset ⊆ tries := by
    intro x hx
    obtain ⟨a, ha, rfl⟩ := List.mem_map.1 (List.mem_toFinset.1 hx)
    obtain ⟨-, hr, hn⟩ := h.passed a (List.mem_filter.1 ha).1
    simp only [tries, Finset.mem_product, Finset.mem_range]
    omega
  have hcard := Finset.card_le_card hsub
  rw [List.toFinset_card_of_nodup hnodup, List.length_map] at hcard
  exact hcard

theorem spent_le {tx : Tx} (h : Bounded tx) : spent tx ≤ tx.retries.toNat + 1 := by
  have hc := h.counts
  unfold Counts at hc
  split at hc
  · exact hc.1
  · exact hc.1
  · simp [spent, hc]
  · simp [spent, hc]
  · simp [spent, hc]
  · simp [spent, hc]
  · exact hc.2.1
  · exact hc.2

theorem backoffs_le {tx : Tx} (h : Bounded tx) :
    tx.nb ≤ maxBackoffs ∨ (tx.phase = .done ∨ tx.phase = .idle) ∧ tx.outcome = .channelAccess := by
  have hc := h.counts
  have hle : tx.nb.toNat ≤ 4 → tx.nb ≤ maxBackoffs := fun hn => UInt8.le_iff_toNat_le.2 hn
  cases hp : tx.phase <;> simp only [Counts, hp] at hc
  case done => exact hc.2.imp hle fun hn => ⟨.inl rfl, hn.2⟩
  case idle => exact hc.2.imp hle fun hn => ⟨.inr rfl, hn.2⟩
  all_goals exact .inl (hle hc.1)

theorem run_slot {tx : Tx} {more : List Op}
    (h : Runs.Throughout (perform link) (fun tx => tx.phase ≠ .idle) tx more) :
    SameSlot tx (Runs.run (perform link) tx more).2 := by
  refine Runs.throughout_invariant (perform link) (fun _ _ => True) (fun tx => tx.phase ≠ .idle) (SameSlot tx) tx
    ⟨rfl, rfl, rfl, rfl, rfl⟩ ?_ more (Runs.meets_true _ _ _) h
  intro s op _ hi _ hs
  exact hs.trans (turn_slot hi (perform_turn s op))

theorem run_fault {tx : Tx} (h : tx.phase = .fault) (more : List Op) :
    (Runs.run (perform link) tx more).2 = tx := by
  refine Runs.state_invariant (perform link) (fun s => s = tx) tx rfl ?_ more
  rintro s op rfl
  exact turn_fault h (perform_turn s op)

/-- The bounds of every transaction, over every run of an engine. At most three
retries, and one transmission more than retries, also when an attempt was stopped
before its report. At most four backoffs but for a jammed channel, which ends the
transaction and shows in the slot until the next one; an exponent that follows the
backoffs at every draw. Few attempts, no action twice, no generation
twice. The frame stays until the release, which alone empties the slot, and a
fault stays for ever. -/
theorem transactions_bounded (link : Bool) (dsn : UInt8) (now : UInt32) (ops : List Op) :
    let r := Runs.run (perform link) (init dsn now) ops
    (r.2.retries ≤ maxRetries ∧ spent r.2 ≤ r.2.retries.toNat + 1 ∧
      (r.2.nb ≤ maxBackoffs ∨ (r.2.phase = .done ∨ r.2.phase = .idle) ∧ r.2.outcome = .channelAccess) ∧
      (r.2.phase = .draw ∨ r.2.phase = .drawWait → r.2.be.toNat = min (minBe.toNat + r.2.nb.toNat) maxBe.toNat)) ∧
    ((∀ generation, (attempts r.1 generation).length ≤ (maxBackoffs.toNat + 1) * (maxRetries.toNat + 1)) ∧
      (asked r.1).Pairwise (fun a b => a.identity ≠ b.identity) ∧ (opened r.1).Nodup) ∧
    (∀ more, Runs.Throughout (perform link) (fun tx => tx.phase ≠ .idle) r.2 more →
      SameSlot r.2 (Runs.run (perform link) r.2 more).2) ∧
    (∀ op, r.2.phase ≠ .idle → (perform link r.2 op).2.phase = .idle → op = .release ∧ r.2.phase = .done) ∧
    (∀ more, r.2.phase = .fault → (Runs.run (perform link) r.2 more).2 = r.2) := by
  intro r
  have h : Accounted r.1 r.2 := run_accounted dsn now ops
  refine ⟨⟨UInt8.le_iff_toNat_le.2 h.bounded.retries, spent_le h.bounded, backoffs_le h.bounded, ?_⟩,
    ⟨attempts_few h, h.ordered.imp place_identity, h.fresh.imp (fun hlt => UInt32.ne_of_lt hlt)⟩,
    fun more => run_slot, fun op hi => turn_idle hi (perform_turn r.2 op), fun more hf => run_fault hf more⟩
  have hc := h.bounded.counts
  rintro (hp | hp) <;> simp only [Counts, hp] at hc <;> exact hc.2.1

end MacTx
