import Cc2530Zigbee.RadioQueueRuns

/-!
# The radio queue is first in, first out

What every call does to the three lists, and from it what a whole run does: all
that went in has come out in order or still waits.
-/
namespace RadioQueue

open Octets

/-- One call on the three lists: what was there and came in is what went out and
is there now. -/
structure Turn (q : Queue) (r : Report) (q' : Queue) : Prop where
  sound : Sound q'
  result : r.result ≠ .corrupt
  requests : q.requests ++ r.accepted = r.taken ++ r.discarded ++ q'.requests
  dropped : q'.dropped.toNat = min 255 (q.dropped.toNat + r.refused)
  cancelled : q'.cancelled.toNat = min 255 (q.cancelled.toNat + r.discarded.length)
  rx : q.rxFrames ++ r.delivered = r.read ++ q'.rxFrames
  tx : q.txFrames ++ r.submitted = r.sent ++ r.withdrawn ++ q'.txFrames
  /-- A call that takes and one that discards are different calls. -/
  apart : r.taken = [] ∨ r.discarded = []

/-- A call that changes none of the lists. -/
theorem Turn.of_same {q q' : Queue} {r : Report} (h : Sound q) (hr : r.result ≠ .corrupt)
    (ha : r.accepted = []) (hf : r.refused = 0) (ht : r.taken = []) (hd : r.discarded = []) (hv : r.delivered = [])
    (hread : r.read = []) (hs : r.submitted = []) (hsent : r.sent = []) (hw : r.withdrawn = [])
    (hq : q' = q) : Turn q r q' := by
  subst hq
  exact
    { sound := h, result := hr
      requests := by simp [ha, ht, hd]
      dropped := by have := q'.dropped.toNat_lt; simp only [hf]; omega
      cancelled := by have := q'.cancelled.toNat_lt; simp only [hd, List.length_nil]; omega
      rx := by simp [hv, hread]
      tx := by simp [hs, hsent, hw]
      apart := .inl ht }

theorem requestRx_turn (layout : Layout) (q : Queue) (h : Sound q) (cookie : UInt8) :
    Turn q (perform layout q (.requestRx cookie true)).1 (perform layout q (.requestRx cookie true)).2 := by
  have hd := q.dropped.toNat_lt
  have hk := q.cancelled.toNat_lt
  rcases requestRx_cases q h cookie with ⟨-, hr⟩ | hr | ⟨hlt, hr⟩
  · apply Turn.of_same h <;> simp [perform, hr]
  · simp only [perform, hr]
    exact
      { sound := { h with }, result := by simp, requests := by simp [Queue.requests]
        dropped := saturatingIncrement_toNat q.dropped
        cancelled := by simp; omega
        rx := by simp [Queue.rxFrames, Queue.rxSlots], tx := by simp [Queue.txFrames], apart := .inl rfl }
  · have hpush := cookie_push q.events q.eventHead q.eventTail cookie hlt
    have hlen := congrArg List.length hpush
    simp only [Ring.contents_length, List.length_append, List.length_singleton] at hlen
    simp only [perform, hr]
    exact
      { sound := { h with requests := by simp only; omega }, result := by simp
        requests := by simpa [Queue.requests] using hpush.symm
        dropped := by simp; omega
        cancelled := by simp; omega
        rx := by simp [Queue.rxFrames, Queue.rxSlots], tx := by simp [Queue.txFrames], apart := .inl rfl }

theorem service_turn (layout : Layout) (q : Queue) (h : Sound q) (channel : UInt8) (timeout : UInt32)
    (limit : UInt16) (irqActive : Bool) (driver : RxResult) (filled : RxFrame)
    (hdriver : driver = .ok → 1 ≤ filled.length.toNat ∧ filled.length.toNat ≤ bodyMax) :
    Turn q (perform layout q (.service channel timeout limit irqActive driver filled)).1
      (perform layout q (.service channel timeout limit irqActive driver filled)).2 := by
  have hd := q.dropped.toNat_lt
  have hk := q.cancelled.toNat_lt
  rcases service_cases q h channel timeout limit irqActive driver filled with
    ⟨result, hne, hnc, hr⟩ | ⟨hsome, hroom, hf, served, hserved, hr⟩
  · apply Turn.of_same h <;> simp [perform, hr, hne, hnc]
  -- The cookie leaves in all three answers; they differ in what becomes of the slot.
  have hpop := cookie_pop q.events q.eventHead q.eventTail hsome
  have hlen := congrArg List.length hpop
  simp only [Ring.contents_length, List.length_cons] at hlen
  have hle := h.requests
  have hmoved : q.eventTail + 1 ≠ q.eventTail := by
    intro he
    have hz : (1 : UInt8) = 0 := by simpa using he
    exact absurd hz (by decide)
  have hfree := frame_free q.rx q.rxHead q.rxTail q.rxCount filled hroom h.tail
  have hpush := frame_push q.rx q.rxHead q.rxTail q.rxCount filled hroom h.tail
  have hlengths : ∀ f ∈ served.rxSlots, 1 ≤ f.length.toNat ∧ f.length.toNat ≤ bodyMax := by
    rw [hserved, Queue.rxSlots, hfree]
    exact h.lengths
  subst hserved
  rcases hr with hr | hr | ⟨hok, hr⟩
  · simp only [perform, hr]
    exact
      { sound := { h with requests := by simp only; omega, lengths := hlengths }
        result := by simp
        requests := by simpa [Queue.requests, hmoved] using hpop
        dropped := by simp; omega
        cancelled := by simp; omega
        rx := by simp [Queue.rxFrames, Queue.rxSlots, hfree]
        tx := by simp [Queue.txFrames], apart := .inr rfl }
  · simp only [perform, hr]
    exact
      { sound := { h with requests := by simp only; omega, lengths := hlengths, fault := .inr rfl }
        result := by simp
        requests := by simpa [Queue.requests, hmoved] using hpop
        dropped := by simp; omega
        cancelled := by simp; omega
        rx := by simp [Queue.rxFrames, Queue.rxSlots, hfree]
        tx := by simp [Queue.txFrames], apart := .inr rfl }
  · have hcount : (q.rxCount + 1).toNat = q.rxCount.toNat + 1 := by
      have hlen' := congrArg List.length hpush
      simpa using hlen'
    have htail : (q.rxTail ^^^ 1).toNat = (q.rxHead.toNat + (q.rxCount + 1).toNat) % 2 := by
      have ht := h.tail
      rw [flip1 q.rxTail (by omega)]
      omega
    simp only [perform, hr]
    exact
      { sound := { h with
          requests := by simp only; omega
          count := by simp only; omega
          tail := htail
          lengths := by
            intro f hfmem
            simp only [Queue.rxSlots, hpush, List.mem_append, List.mem_singleton] at hfmem
            rcases hfmem with hfmem | rfl
            · exact h.lengths f hfmem
            · exact hdriver hok }
        result := by simp
        requests := by simpa [Queue.requests, hmoved] using hpop
        dropped := by simp; omega
        cancelled := by simp; omega
        rx := by
          simp only [Queue.rxFrames, Queue.rxSlots, hpush, List.map_append, List.map_cons, List.map_nil, if_true,
            List.nil_append]
        tx := by simp [Queue.txFrames], apart := .inr rfl }

theorem rxRead_turn (layout : Layout) (q : Queue) (h : Sound q) (output : Option (Object RxFrame)) :
    Turn q (perform layout q (.rxRead output)).1 (perform layout q (.rxRead output)).2 := by
  have hd := q.dropped.toNat_lt
  have hk := q.cancelled.toNat_lt
  rcases rxRead_cases layout q h output with ⟨result, value, hne, hnc, hr⟩ | ⟨hsome, frame, hframe, hr⟩
  · apply Turn.of_same h <;> simp [perform, hr, hne, hnc]
  · have hpop := frame_pop q.rx q.rxHead q.rxCount h.head hsome
    have hlen := congrArg List.length hpop
    simp only [Ring.contents_length, List.length_cons] at hlen
    have hhead := h.head
    have hcount := h.count
    have htail := h.tail
    have hflip := flip1 q.rxHead hhead
    simp only [perform, hr]
    exact
      { sound := { h with
          head := by simp only; omega
          count := by simp only; omega
          tail := by simp only; omega
          lengths := by
            intro f hf
            apply h.lengths f
            rw [Queue.rxSlots, hpop]
            exact List.mem_cons_of_mem _ hf }
        result := by simp
        requests := by simp [Queue.requests]
        dropped := by simp; omega
        cancelled := by simp; omega
        rx := by simp [Queue.rxFrames, Queue.rxSlots, hpop, hframe]
        tx := by simp [Queue.txFrames], apart := .inl rfl }

theorem txSubmit_turn (layout : Layout) (q : Queue) (h : Sound q) (body : Option (Object (Nat → UInt8)))
    (length : UInt8) :
    Turn q (perform layout q (.txSubmit body length)).1 (perform layout q (.txSubmit body length)).2 := by
  have hd := q.dropped.toNat_lt
  have hk := q.cancelled.toNat_lt
  rcases txSubmit_cases layout q h body length with ⟨result, hne, hnc, hr⟩ | ⟨b, rfl, hzero, hlo, hhi, hr⟩
  · apply Turn.of_same h <;> simp [perform, hr, hne, hnc]
  · simp only [perform, hr]
    exact
      { sound := { h with txCount := by simp, txLength := fun _ => ⟨hlo, hhi⟩ }
        result := by simp
        requests := by simp [Queue.requests]
        dropped := by simp; omega
        cancelled := by simp; omega
        rx := by simp [Queue.rxFrames, Queue.rxSlots]
        tx := by simp [Queue.txFrames, hzero, TxFrame.octets, copyBody_octets b.value length q.tx.body hhi]
        apart := .inl rfl }

theorem txRead_turn (layout : Layout) (q : Queue) (h : Sound q) (output : Option (Object TxFrame)) :
    Turn q (perform layout q (.txRead output)).1 (perform layout q (.txRead output)).2 := by
  have hd := q.dropped.toNat_lt
  have hk := q.cancelled.toNat_lt
  rcases txRead_cases layout q h output with ⟨result, value, hne, hnc, hr⟩ | ⟨hsome, frame, hframe, hr⟩
  · apply Turn.of_same h <;> simp [perform, hr, hne, hnc]
  · simp only [perform, hr]
    exact
      { sound := { h with txCount := by simp, txLength := by simp }
        result := by simp
        requests := by simp [Queue.requests]
        dropped := by simp; omega
        cancelled := by simp; omega
        rx := by simp [Queue.rxFrames, Queue.rxSlots]
        tx := by simp [Queue.txFrames, hsome, hframe], apart := .inl rfl }

theorem txCancel_turn (layout : Layout) (q : Queue) (h : Sound q) :
    Turn q (perform layout q .txCancel).1 (perform layout q .txCancel).2 := by
  have hd := q.dropped.toNat_lt
  have hk := q.cancelled.toNat_lt
  rcases txCancel_cases q h with hr | ⟨hsome, hr⟩
  · apply Turn.of_same h <;> simp [perform, hr]
  · simp only [perform, hr]
    exact
      { sound := { h with txCount := by simp, txLength := by simp }
        result := by simp
        requests := by simp [Queue.requests]
        dropped := by simp; omega
        cancelled := by simp; omega
        rx := by simp [Queue.rxFrames, Queue.rxSlots]
        tx := by simp [Queue.txFrames], apart := .inl rfl }

theorem cancelRequests_turn (layout : Layout) (q : Queue) (h : Sound q) :
    Turn q (perform layout q (.cancelRequests true)).1 (perform layout q (.cancelRequests true)).2 := by
  have hd := q.dropped.toNat_lt
  simp only [perform, cancelRequests_eq q h]
  exact
    { sound := { h with requests := by simp }
      result := by simp
      requests := by simp [Queue.requests]
      dropped := by simp; omega
      cancelled := by simp [cancelled_toNat, Queue.requests]
      rx := by simp [Queue.rxFrames, Queue.rxSlots]
      tx := by simp [Queue.txFrames], apart := .inl rfl }

/-- What one lawful call does. -/
theorem perform_turn (layout : Layout) (q : Queue) (h : Sound q) (op : Op) (hop : op.Lawful) :
    Turn q (perform layout q op).1 (perform layout q op).2 := by
  cases op with
  | requestRx cookie restored =>
    obtain rfl : restored = true := hop
    exact requestRx_turn layout q h cookie
  | service channel timeout limit irqActive driver filled =>
    exact service_turn layout q h channel timeout limit irqActive driver filled hop
  | rxRead output => exact rxRead_turn layout q h output
  | txSubmit body length => exact txSubmit_turn layout q h body length
  | txRead output => exact txRead_turn layout q h output
  | txCancel => exact txCancel_turn layout q h
  | cancelRequests restored =>
    obtain rfl : restored = true := hop
    exact cancelRequests_turn layout q h
  | snapshot output restored =>
    obtain rfl : restored = true := hop
    cases output with
    | none => apply Turn.of_same h <;> simp [perform, Queue.snapshot]
    | some output =>
      by_cases hown : layout.caller output.address 9 = true
      · apply Turn.of_same h <;> simp [perform, Queue.snapshot, hown]
      · apply Turn.of_same h <;> simp [perform, Queue.snapshot, hown]

/-! ## Whole runs -/

/-- All that the calls of a run did, added up. -/
structure Ledger (reports : List Report) (q : Queue) : Prop where
  sound : Sound q
  results : ∀ r ∈ reports, r.result ≠ .corrupt
  requests : reports.flatMap Report.accepted = (reports.flatMap fun r => r.taken ++ r.discarded) ++ q.requests
  dropped : q.dropped.toNat = min 255 (reports.map Report.refused).sum
  cancelled : q.cancelled.toNat = min 255 (reports.flatMap Report.discarded).length
  rx : reports.flatMap Report.delivered = reports.flatMap Report.read ++ q.rxFrames
  tx : reports.flatMap Report.submitted = (reports.flatMap fun r => r.sent ++ r.withdrawn) ++ q.txFrames
  apart : ∀ r ∈ reports, r.taken = [] ∨ r.discarded = []

/-- A call after a run adds its turn to the ledger. -/
theorem Ledger.turn {reports : List Report} {q q' : Queue} {r : Report} (h : Ledger reports q) (ht : Turn q r q') :
    Ledger (reports ++ [r]) q' where
  sound := ht.sound
  results := by
    intro r' hr'
    rcases List.mem_append.1 hr' with hold | hnew
    · exact h.results r' hold
    · rw [List.mem_singleton.1 hnew]
      exact ht.result
  requests := by
    simp only [List.flatMap_append, List.flatMap_singleton, h.requests, List.append_assoc]
    rw [ht.requests]
    simp only [List.append_assoc]
  dropped := by
    have h1 := h.dropped
    have h2 := ht.dropped
    simp only [List.map_append, List.map_cons, List.map_nil, List.sum_append, List.sum_cons, List.sum_nil]
    omega
  cancelled := by
    have h1 := h.cancelled
    have h2 := ht.cancelled
    simp only [List.flatMap_append, List.flatMap_singleton, List.length_append]
    omega
  rx := by
    simp only [List.flatMap_append, List.flatMap_singleton, h.rx, List.append_assoc]
    rw [ht.rx]
  tx := by
    simp only [List.flatMap_append, List.flatMap_singleton, h.tx, List.append_assoc]
    rw [ht.tx]
    simp only [List.append_assoc]
  apart := by
    intro r' hr'
    rcases List.mem_append.1 hr' with hold | hnew
    · exact h.apart r' hold
    · rw [List.mem_singleton.1 hnew]
      exact ht.apart

end RadioQueue
