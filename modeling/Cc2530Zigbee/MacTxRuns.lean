import Cc2530Zigbee.MacTxMoves
import Cc2530Zigbee.Runs

/-!
# Runs of the transmitter

The caller submits, polls and releases in any order, with any times and events.
Every call is one of a few turns; the bounds on a transaction hold in every state
and survive every turn.
-/
namespace MacTx

open Octets

variable {link : Bool}

/-- A call. -/
inductive Op where
  | submit (body : Bytes) (now lifetime : UInt32) (workLimit : UInt16)
  | step (now : UInt32) (event : Option Event)
  | release

/-- What a call returns, with the generation of the transaction it opened. -/
structure Report where
  result : Result
  opened : Option UInt32
  action : Option Action

def perform (link : Bool) (tx : Tx) : Op → Report × Tx
  | .submit body now lifetime workLimit =>
    let r := submit tx body now lifetime workLimit
    (⟨r.1, if r.1 = .ok then some r.2.generation else none, none⟩, r.2)
  | .step now event =>
    let r := step link tx now event
    (⟨r.1, none, r.2.2⟩, r.2.1)
  | .release =>
    let r := release tx
    (⟨r.1, none, none⟩, r.2)

/-- The slot after an admission. -/
structure Admitted (tx tx' : Tx) (now lifetime : UInt32) : Prop where
  idle : tx.phase = .idle
  clock : now - tx.last < half
  room : tx.generation ≠ 0xFFFFFFFF
  life : 0 < lifetime ∧ lifetime < half
  generation : tx'.generation = tx.generation + 1
  readyAt : tx'.readyAt = readyFrom tx now
  last : tx'.last = now
  deadline : tx'.deadline = now + lifetime
  phase : tx'.phase = .draw
  nb : tx'.nb = 0
  be : tx'.be = minBe
  retries : tx'.retries = 0
  outcome : tx'.outcome = .none
  transmissions : tx'.transmissions = 0
  uncertain : tx'.uncertain = false
  retryPending : tx'.retryPending = false

/-- What a call can do. -/
inductive Turn (link : Bool) (tx : Tx) : Op → Report → Tx → Prop
  | refuses (op : Op) (result : Result) (h : result ≠ .ok) : Turn link tx op ⟨result, none, none⟩ tx
  | opens (body : Bytes) (now lifetime : UInt32) (workLimit : UInt16) (tx' : Tx) (h : Admitted tx tx' now lifetime) :
      Turn link tx (.submit body now lifetime workLimit) ⟨.ok, some tx'.generation, none⟩ tx'
  | rests (now : UInt32) (event : Option Event) (h : tx.phase = .done ∨ tx.phase = .fault) :
      Turn link tx (.step now event) ⟨.ok, none, some (publish tx now .none)⟩ tx
  | strays (now : UInt32) (event : Option Event) (h : tx.phase ≠ .idle ∧ tx.phase ≠ .done ∧ tx.phase ≠ .fault)
      (hc : half ≤ now - tx.last) :
      Turn link tx (.step now event) ⟨.ok, none, some (publish (fault tx .clockError) now .none)⟩
        (fault tx .clockError)
  | moves (now : UInt32) (event : Option Event) (h : tx.phase ≠ .idle ∧ tx.phase ≠ .done ∧ tx.phase ≠ .fault)
      (hw : event.all Event.wellFormed = true) (hc : now - tx.last < half) (tx' : Tx) (kind : ActionKind)
      (hm : Move link now (heard tx now event) (clocked tx now) tx' kind) :
      Turn link tx (.step now event) ⟨.ok, none, some (publish tx' now kind)⟩ tx'
  | frees (h : tx.phase = .done) : Turn link tx .release ⟨.ok, none, none⟩ { tx with phase := .idle }

theorem submit_cases (tx : Tx) (body : Bytes) (now lifetime : UInt32) (workLimit : UInt16) :
    (∃ result, result ≠ .ok ∧ submit tx body now lifetime workLimit = (result, tx)) ∨
    ∃ tx', submit tx body now lifetime workLimit = (.ok, tx') ∧ Admitted tx tx' now lifetime := by
  unfold submit
  split
  · exact .inl ⟨_, by decide, rfl⟩
  rename_i hargs
  split
  · exact .inl ⟨_, by decide, rfl⟩
  rename_i hidle
  split
  · exact .inl ⟨_, by decide, rfl⟩
  rename_i hclock
  split
  · exact .inl ⟨_, by decide, rfl⟩
  rename_i hroom
  split
  · exact .inl ⟨_, by decide, rfl⟩
  split
  · exact .inl ⟨_, by decide, rfl⟩
  · obtain ⟨hz, hh, -⟩ := not_or.1 hargs |>.imp_right not_or.1
    refine .inr ⟨_, rfl, ⟨not_not.1 hidle, UInt32.not_le.1 hclock, hroom, ⟨?_, UInt32.not_le.1 hh⟩, rfl, rfl, rfl, rfl,
      rfl, rfl, rfl, rfl, rfl, rfl, rfl, rfl⟩⟩
    exact UInt32.pos_iff_ne_zero.2 hz

/-- Every call takes one turn. -/
theorem perform_turn (tx : Tx) (op : Op) : Turn link tx op (perform link tx op).1 (perform link tx op).2 := by
  cases op with
  | submit body now lifetime workLimit =>
    rcases submit_cases tx body now lifetime workLimit with ⟨result, hr, he⟩ | ⟨tx', he, ha⟩
    · simp only [perform, he, if_neg hr]
      exact .refuses _ result hr
    · simp only [perform, he]
      exact .opens body now lifetime workLimit tx' ha
  | step now event =>
    unfold perform step
    simp only
    split
    · exact .refuses _ .invalid (by decide)
    rename_i hw
    split
    · exact .refuses _ .state (by decide)
    rename_i hi
    rcases @advance_cases link now tx hi event with ⟨hp, he⟩ | ⟨hc, he⟩ | ⟨hc, hd, hf, hm⟩
    · rw [he]
      exact .rests now event hp
    · by_cases hp : tx.phase = .done ∨ tx.phase = .fault
      · rw [show advance link tx now event = (tx, .none) from if_pos hp]
        exact .rests now event hp
      · rw [he]
        exact .strays now event ⟨hi, not_or.1 hp⟩ hc
    · exact .moves now event ⟨hi, hd, hf⟩ (by simpa using hw) hc _ _ hm
  | release =>
    unfold perform release
    simp only
    split
    · exact .refuses _ .state (by decide)
    · rename_i hd
      exact .frees (not_not.1 hd)

/-! Bounds. -/

/-- Reported transmissions, and one that may have been. -/
def spent (tx : Tx) : Nat := tx.transmissions.toNat + if tx.uncertain then 1 else 0

/-- The counters of a transaction, phase by phase. -/
def Counts (tx : Tx) : Prop :=
  match tx.phase with
  | .idle | .done => spent tx ≤ tx.retries.toNat + 1 ∧ (tx.nb.toNat ≤ 4 ∨ tx.nb.toNat = 5 ∧ tx.outcome = .channelAccess)
  | .draw | .drawWait | .radio => tx.nb.toNat ≤ 4 ∧ tx.be.toNat = min (3 + tx.nb.toNat) 5 ∧
      tx.transmissions.toNat = tx.retries.toNat ∧ tx.uncertain = false ∧ tx.retryPending = false
  | .ackWait => tx.nb.toNat ≤ 4 ∧ tx.transmissions.toNat = tx.retries.toNat + 1 ∧ tx.uncertain = false ∧
      tx.retryPending = false ∧ tx.ackRequested = true
  | .stopping => tx.nb.toNat ≤ 4 ∧ spent tx ≤ tx.retries.toNat + 1 ∧
      (tx.retryPending = true → tx.retries.toNat < 3 ∧ tx.transmissions.toNat = tx.retries.toNat + 1 ∧
        tx.uncertain = false)
  | .fault => tx.nb.toNat ≤ 4 ∧ spent tx ≤ tx.retries.toNat + 1

structure Bounded (tx : Tx) : Prop where
  retries : tx.retries.toNat ≤ 3
  counts : Counts tx

theorem init_bounded (dsn : UInt8) (now : UInt32) : Bounded (init dsn now) :=
  ⟨by simp [init], by simp [Counts, init, spent]⟩

/-- The counters stay far from wrapping. -/
theorem succ_toNat {n : UInt8} (h : n.toNat ≤ 5) : (n + 1).toNat = n.toNat + 1 := by
  rw [UInt8.toNat_add]
  exact Nat.mod_eq_of_lt (by simp; omega)

/-- The backoff exponent grows with the backoffs up to its limit. -/
theorem backoff_succ {nb be : UInt8} (h : be.toNat = min (3 + nb.toNat) 5) (hs : (nb + 1).toNat = nb.toNat + 1) :
    (if be < maxBe then be + 1 else be).toNat = min (3 + (nb + 1).toNat) 5 := by
  have hb := @succ_toNat be (by omega)
  split
  · rename_i hlt
    have hlt : be.toNat < 5 := UInt8.lt_iff_toNat_lt.1 hlt
    omega
  · rename_i hlt
    have hlt : 5 ≤ be.toNat := UInt8.le_iff_toNat_le.1 (UInt8.not_lt.1 hlt)
    omega

theorem move_bounded {now : UInt32} {signal : Option Signal} {c c' : Tx} {kind : ActionKind}
    (hb : Bounded c) (hp : c.phase ≠ .idle ∧ c.phase ≠ .done ∧ c.phase ≠ .fault)
    (hm : Move link now signal c c' kind) : Bounded c' := by
  have hr := hb.retries
  have hc := hb.counts
  cases hm with
  | fails outcome ho steps room again =>
    refine ⟨hr, ?_⟩
    revert hc hp
    simp only [Counts, spent]
    cases c.phase <;> simp
    all_goals (intros; simp_all; try omega)
  | waits h =>
    refine ⟨hr, ?_⟩
    rcases h with h | h | h <;> simp only [Counts, h] at hc ⊢ <;> exact hc
  | holds h outcome room again ha =>
    refine ⟨hr, ?_⟩
    simp only [Counts, h, spent] at hc ⊢
    refine ⟨hc.1, hc.2.1, fun hagain => hc.2.2 ?_⟩
    rcases ha with ha | ha
    · exact ha.1 ▸ hagain
    · exact ha.1
  | retries h ha stamp hs room =>
    simp only [Counts, h, spent] at hc
    obtain ⟨hn, hsp, hagain⟩ := hc
    obtain ⟨hlt, ht, hu⟩ := hagain ha
    have hsucc := @succ_toNat c.retries (by omega)
    refine ⟨?_, ?_⟩
    · simp only [hsucc]
      omega
    · simp [Counts, rested, hu, hsucc, ht, minBe]
  | ends h stamp hs outcome ho room =>
    simp only [Counts, h] at hc
    unfold rested
    split
    · exact ⟨hr, hc.2.1, .inl hc.1⟩
    · exact ⟨hr, hc.2.1, .inl hc.1⟩
  | abandons h =>
    refine ⟨hr, ?_⟩
    rcases h with h | h <;> simp only [Counts, h, spent] at hc ⊢ <;>
      exact ⟨by simp [hc], .inl hc.1⟩
  | silences h =>
    refine ⟨hr, ?_⟩
    simp only [Counts, h] at hc
    simp [Counts, stopped, spent, hc]
  | leaves h =>
    refine ⟨?_, ?_⟩
    · simp only [stopped]
      split <;> exact hr
    · simp only [Counts, h] at hc
      simp [Counts, stopped, spacing, spent, hc]
  | draws h =>
    refine ⟨hr, ?_⟩
    simp only [Counts, h] at hc ⊢
    exact hc
  | starts h value hs hd =>
    refine ⟨hr, ?_⟩
    simp only [Counts, h] at hc ⊢
    exact hc
  | expires h value hs =>
    refine ⟨hr, ?_⟩
    simp only [Counts, h] at hc
    simp [Counts, spent, hc]
  | defers h stamp hs hn =>
    refine ⟨hr, ?_⟩
    simp only [Counts, h] at hc
    have hsucc := @succ_toNat c.nb (by omega)
    have hn : (c.nb + 1).toNat ≤ 4 := UInt8.le_iff_toNat_le.1 (UInt8.not_lt.1 hn)
    have hbe := backoff_succ hc.2.1 hsucc
    exact ⟨hn, hbe, hc.2.2⟩
  | jams h stamp hs hn =>
    refine ⟨hr, ?_⟩
    simp only [Counts, h] at hc
    have hsucc := @succ_toNat c.nb (by omega)
    have hn : 4 < (c.nb + 1).toNat := UInt8.lt_iff_toNat_lt.1 hn
    simp only [Counts, spent, hsucc, hc]
    simp only [hsucc] at hn
    simp
    omega
  | sends h stamp hs ha =>
    refine ⟨hr, ?_⟩
    simp only [Counts, h] at hc
    have hsucc := @succ_toNat c.transmissions (by omega)
    simp [Counts, hc, hsucc, ha]
  | finishes h stamp hs ha =>
    refine ⟨hr, ?_⟩
    simp only [Counts, h] at hc
    have hsucc := @succ_toNat c.transmissions (by omega)
    simp [Counts, stopped, spacing, spent, hc, hsucc]
  | hears h stamp length bytes hs ha more =>
    refine ⟨hr, ?_⟩
    simp only [Counts, h] at hc
    simp [Counts, stopped, spacing, spent, hc]
  | misses h =>
    refine ⟨hr, ?_⟩
    simp only [Counts, h] at hc
    simp [Counts, stopped, spacing, spent, hc, maxRetries, UInt8.lt_iff_toNat_lt]

theorem turn_bounded {tx tx' : Tx} {op : Op} {report : Report} (hb : Bounded tx)
    (ht : Turn link tx op report tx') : Bounded tx' := by
  cases ht with
  | refuses result h => exact hb
  | opens body now lifetime workLimit tx' h =>
    refine ⟨by simp [h.retries], ?_⟩
    simp [Counts, h.phase, h.nb, h.be, h.retries, h.transmissions, h.uncertain, h.retryPending, minBe]
  | rests now event h => exact hb
  | strays now event h hc =>
    exact move_bounded hb h (@Move.fails link now none tx .clockError (by decide) tx.steps tx.stopSteps tx.retryPending)
  | moves now event h hw hc tx' kind hm => exact move_bounded (c := clocked tx now) ⟨hb.retries, hb.counts⟩ h hm
  | frees h =>
    have hc := hb.counts
    simp only [Counts, h] at hc
    exact ⟨hb.retries, hc⟩

/-! The slot. -/

/-- The frame a transaction is about. -/
structure SameSlot (tx tx' : Tx) : Prop where
  frame : tx'.frame = tx.frame
  length : tx'.length = tx.length
  ackRequested : tx'.ackRequested = tx.ackRequested
  nextDsn : tx'.nextDsn = tx.nextDsn
  generation : tx'.generation = tx.generation

theorem SameSlot.trans {a b c : Tx} (h : SameSlot a b) (h' : SameSlot b c) : SameSlot a c :=
  ⟨h'.frame.trans h.frame, h'.length.trans h.length, h'.ackRequested.trans h.ackRequested,
    h'.nextDsn.trans h.nextDsn, h'.generation.trans h.generation⟩

theorem rested_slot (c : Tx) (stamp : UInt32) : SameSlot c (rested c stamp) := by
  unfold rested
  split <;> exact ⟨rfl, rfl, rfl, rfl, rfl⟩

theorem move_slot {now : UInt32} {signal : Option Signal} {c c' : Tx} {kind : ActionKind}
    (hm : Move link now signal c c' kind) : SameSlot c c' := by
  cases hm with
  | retries h ha stamp hs room =>
    have hr := rested_slot c stamp
    exact ⟨hr.frame, hr.length, hr.ackRequested, hr.nextDsn, hr.generation⟩
  | ends h stamp hs outcome ho room =>
    have hr := rested_slot c stamp
    exact ⟨hr.frame, hr.length, hr.ackRequested, hr.nextDsn, hr.generation⟩
  | leaves h =>
    unfold stopped
    split <;> exact ⟨rfl, rfl, rfl, rfl, rfl⟩
  | _ => exact ⟨rfl, rfl, rfl, rfl, rfl⟩

/-- Only an admission touches the slot. -/
theorem turn_slot {tx tx' : Tx} {op : Op} {report : Report} (hi : tx.phase ≠ .idle)
    (ht : Turn link tx op report tx') : SameSlot tx tx' := by
  cases ht with
  | opens body now lifetime workLimit tx' h => exact absurd h.idle hi
  | moves now event h hw hc tx' kind hm =>
    have hm := move_slot hm
    exact ⟨hm.frame, hm.length, hm.ackRequested, hm.nextDsn, hm.generation⟩
  | _ => exact ⟨rfl, rfl, rfl, rfl, rfl⟩

/-- The phase after a move. -/
theorem move_phase {now : UInt32} {signal : Option Signal} {c c' : Tx} {kind : ActionKind}
    (hp : c.phase ≠ .idle) (hm : Move link now signal c c' kind) : c'.phase ≠ .idle := by
  cases hm with
  | waits h => exact hp
  | holds h outcome room again ha => exact hp
  | _ => simp [stopped]

theorem turn_idle {tx tx' : Tx} {op : Op} {report : Report} (hi : tx.phase ≠ .idle)
    (ht : Turn link tx op report tx') (hi' : tx'.phase = .idle) : op = .release ∧ tx.phase = .done := by
  cases ht with
  | opens body now lifetime workLimit tx' h => exact absurd h.idle hi
  | moves now event h hw hc tx' kind hm => exact absurd hi' (move_phase (c := clocked tx now) hi hm)
  | frees h => exact ⟨rfl, h⟩
  | strays now event h hc => cases hi'
  | _ => exact absurd hi' hi

theorem turn_fault {tx tx' : Tx} {op : Op} {report : Report} (hf : tx.phase = .fault)
    (ht : Turn link tx op report tx') : tx' = tx := by
  cases ht with
  | opens body now lifetime workLimit tx' h => exact absurd h.idle (by rw [hf]; decide)
  | strays now event h hc => exact absurd hf h.2.2
  | moves now event h hw hc tx' kind hm => exact absurd hf h.2.2
  | frees h => exact absurd h (by rw [hf]; decide)
  | _ => rfl

end MacTx
