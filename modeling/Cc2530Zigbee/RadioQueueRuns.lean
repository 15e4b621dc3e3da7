import Cc2530Zigbee.RadioQueue
import Cc2530Zigbee.Runs

/-!
# Runs of the radio queue

Seen from outside the queue is three bounded lists: the cookies, the received
frames and the frame to transmit. Every call appends to the back of a list or
takes from its front, for as many calls as there are.
-/
namespace RadioQueue

open Octets

/-- The octets that count in a body. -/
def bodyOctets (body : Vector UInt8 bodyMax) (length : UInt8) : Bytes := body.toList.take length.toNat

/-- A received frame as its reader sees it. -/
structure Received where
  octets : Bytes
  rssiRaw : UInt8
  correlation : UInt8
  deriving DecidableEq

def RxFrame.received (f : RxFrame) : Received := ⟨bodyOctets f.body f.length, f.rssiRaw, f.correlation⟩

def TxFrame.octets (f : TxFrame) : Bytes := bodyOctets f.body f.length

/-- The cookies that wait. -/
def Queue.requests (q : Queue) : List UInt8 :=
  Ring.contents q.events 0 q.eventTail.toNat (q.eventHead - q.eventTail).toNat

/-- The slots that hold a received frame. -/
def Queue.rxSlots (q : Queue) : List RxFrame := Ring.contents q.rx blankRx q.rxHead.toNat q.rxCount.toNat

/-- The received frames that wait. -/
def Queue.rxFrames (q : Queue) : List Received := q.rxSlots.map RxFrame.received

/-- The frame that waits for transmission. -/
def Queue.txFrames (q : Queue) : List Bytes := if q.txCount = 0 then [] else [q.tx.octets]

inductive Op where
  | requestRx (cookie : UInt8) (restored : Bool)
  | service (channel : UInt8) (timeout : UInt32) (limit : UInt16) (irqActive : Bool) (driver : RxResult)
    (filled : RxFrame)
  | rxRead (output : Option (Object RxFrame))
  | txSubmit (body : Option (Object (Nat → UInt8))) (length : UInt8)
  | txRead (output : Option (Object TxFrame))
  | txCancel
  | cancelRequests (restored : Bool)
  | snapshot (output : Option (Object Status)) (restored : Bool)

/-- What a call did, as its caller and the receiver see it. -/
structure Report where
  result : Result
  /-- Cookies the call put in. -/
  accepted : List UInt8 := []
  /-- Requests the call refused because the ring was full. -/
  refused : Nat := 0
  /-- Cookies the call took for a reception. -/
  taken : List UInt8 := []
  /-- Cookies the call discarded. -/
  discarded : List UInt8 := []
  /-- Frames the receiver delivered. -/
  delivered : List Received := []
  /-- Frames handed to a reader. -/
  read : List Received := []
  /-- Frames accepted for transmission. -/
  submitted : List Bytes := []
  /-- Frames handed to the transmitter. -/
  sent : List Bytes := []
  /-- Frames withdrawn. -/
  withdrawn : List Bytes := []

/-- One call. A service call took a cookie exactly when it moved the tail. -/
def perform (layout : Layout) (q : Queue) : Op → Report × Queue
  | .requestRx cookie restored =>
    let r := q.requestRx cookie restored
    ({ result := r.1
       accepted := if r.1 = .ok then [cookie] else []
       refused := if r.1 = .full then 1 else 0 }, r.2)
  | .service channel timeout limit irqActive driver filled =>
    let r := q.service channel timeout limit irqActive driver filled
    ({ result := r.1
       taken := if r.2.eventTail ≠ q.eventTail then [r.2.lastCookie] else []
       delivered := if r.1 = .ok then [filled.received] else [] }, r.2)
  | .rxRead output =>
    let r := q.rxRead layout output
    ({ result := r.1.1
       read := if r.1.1 = .ok then (r.1.2.map RxFrame.received).toList else [] }, r.2)
  | .txSubmit body length =>
    let r := q.txSubmit layout body length
    ({ result := r.1
       submitted :=
        if r.1 = .ok then (body.map fun b => (List.range length.toNat).map b.value).toList else [] }, r.2)
  | .txRead output =>
    let r := q.txRead layout output
    ({ result := r.1.1
       sent := if r.1.1 = .ok then (r.1.2.map TxFrame.octets).toList else [] }, r.2)
  | .txCancel =>
    let r := q.txCancel
    ({ result := r.1, withdrawn := if r.1 = .ok then q.txFrames else [] }, r.2)
  | .cancelRequests restored =>
    let r := q.cancelRequests restored
    ({ result := r.1, discarded := if r.1 = .ok then q.requests else [] }, r.2)
  | .snapshot output restored =>
    let r := q.snapshot layout output restored
    ({ result := r.1.1 }, r.2)

/-- The receiver succeeds only with a body of 1 to 125 octets, and the interrupt
guard can be undone. -/
def Op.Lawful : Op → Prop
  | .requestRx _ restored => restored = true
  | .service _ _ _ _ driver filled => driver = .ok → 1 ≤ filled.length.toNat ∧ filled.length.toNat ≤ bodyMax
  | .cancelRequests restored => restored = true
  | .snapshot _ restored => restored = true
  | _ => True

/-! ## The invariant of the indices -/

structure Sound (q : Queue) : Prop where
  requests : (q.eventHead - q.eventTail).toNat ≤ 4
  head : q.rxHead.toNat < 2
  count : q.rxCount.toNat ≤ 2
  tail : q.rxTail.toNat = (q.rxHead.toNat + q.rxCount.toNat) % 2
  lengths : ∀ f ∈ q.rxSlots, 1 ≤ f.length.toNat ∧ f.length.toNat ≤ bodyMax
  txCount : q.txCount.toNat ≤ 1
  txLength : q.txCount ≠ 0 → 1 ≤ q.tx.length.toNat ∧ q.tx.length.toNat ≤ bodyMax
  fault : q.fault = .ok ∨ q.fault = .radioFailed

theorem mask3 (i : UInt8) : (i &&& 3).toNat = i.toNat % 4 := by
  rw [UInt8.toNat_and]
  exact Nat.and_two_pow_sub_one_eq_mod i.toNat 2

theorem flip1 (i : UInt8) (h : i.toNat < 2) : (i ^^^ 1).toNat = (i.toNat + 1) % 2 := by
  have hi : i = 0 ∨ i = 1 := by
    rcases Nat.lt_succ_iff_lt_or_eq.1 h with h0 | h1
    · exact .inl (UInt8.toNat_inj.1 (by simp; omega))
    · exact .inr (UInt8.toNat_inj.1 (by simpa using h1))
  rcases hi with rfl | rfl <;> rfl

theorem saturatingIncrement_toNat (n : UInt8) : (saturatingIncrement n).toNat = min 255 (n.toNat + 1) := by
  have hn := n.toNat_lt
  unfold saturatingIncrement
  split
  next h =>
    have hne : n.toNat ≠ 255 := fun he => h (UInt8.toNat_inj.1 he)
    rw [UInt8.toNat_add]
    simp only [UInt8.toNat_one]
    omega
  next h =>
    simp only [ne_eq, not_not] at h
    simp [h]

theorem Sound.rxValid {q : Queue} (h : Sound q) : q.rxValid = true := by
  have ht := h.tail
  have hh := h.head
  have hc := h.count
  have hmask : ((q.rxHead + q.rxCount) &&& 1).toNat = (q.rxHead.toNat + q.rxCount.toNat) % 2 := by
    rw [UInt8.toNat_and, UInt8.toNat_add]
    have h1 := Nat.and_two_pow_sub_one_eq_mod ((q.rxHead.toNat + q.rxCount.toNat) % 2 ^ 8) 1
    simp only [Nat.reducePow, Nat.reduceSub, UInt8.reduceToNat] at h1 ⊢
    omega
  have heq : q.rxTail = (q.rxHead + q.rxCount) &&& 1 := by
    apply UInt8.toNat_inj.1
    omega
  simp only [Queue.rxValid, Bool.and_eq_true, decide_eq_true_eq, beq_iff_eq, UInt8.lt_iff_toNat_lt,
    UInt8.le_iff_toNat_le, UInt8.reduceToNat]
  exact ⟨⟨⟨hh, by omega⟩, hc⟩, heq⟩

theorem copyBody_getElem? (source : Nat → UInt8) (n : Nat) (body : Vector UInt8 bodyMax) (i : Nat) (hi : i < n)
    (hn : n ≤ bodyMax) : (copyBody source n body)[i]? = some (source i) := by
  induction n with
  | zero => omega
  | succ n ih =>
    rw [copyBody]
    by_cases he : n = i
    · subst he
      exact Vector.getElem?_setIfInBounds_self_of_lt (by omega)
    · rw [Vector.getElem?_setIfInBounds_ne he]
      exact ih (by omega) (by omega)

/-- The copied octets are the source's. -/
theorem copyBody_octets (source : Nat → UInt8) (length : UInt8) (body : Vector UInt8 bodyMax)
    (h : length.toNat ≤ bodyMax) :
    bodyOctets (copyBody source length.toNat body) length = (List.range length.toNat).map source := by
  apply List.ext_getElem?
  intro i
  by_cases hi : i < length.toNat
  · have hc := copyBody_getElem? source length.toNat body i hi h
    rw [← Vector.getElem?_toList] at hc
    simp [bodyOctets, hi, List.getElem?_take, hc]
  · have hlen : (bodyOctets (copyBody source length.toNat body) length).length ≤ i := by
      simp only [bodyOctets, List.length_take, Vector.length_toList]
      omega
    rw [List.getElem?_eq_none hlen, List.getElem?_eq_none (by simpa using Nat.not_lt.1 hi)]

theorem octets_eq_range (body : Vector UInt8 bodyMax) (length : UInt8) (h : length.toNat ≤ bodyMax) :
    bodyOctets body length = (List.range length.toNat).map (octet body) := by
  apply List.ext_getElem?
  intro i
  by_cases hi : i < length.toNat
  · have hb : i < bodyMax := by omega
    simp [bodyOctets, octet, hi, List.getElem?_take, hb]
  · have hlen : (bodyOctets body length).length ≤ i := by
      simp only [bodyOctets, List.length_take, Vector.length_toList]
      omega
    rw [List.getElem?_eq_none hlen, List.getElem?_eq_none (by simpa using Nat.not_lt.1 hi)]

/-- A copied body reads as the body it was copied from. -/
theorem copyBody_same (source target : Vector UInt8 bodyMax) (length : UInt8) (h : length.toNat ≤ bodyMax) :
    bodyOctets (copyBody (octet source) length.toNat target) length = bodyOctets source length := by
  rw [copyBody_octets _ _ _ h, octets_eq_range source length h]

/-! ## The rings -/

theorem cookie_push (events : Vector UInt8 4) (head tail cookie : UInt8) (h : (head - tail).toNat < 4) :
    Ring.contents (events.setIfInBounds (head &&& 3).toNat cookie) 0 tail.toNat (head + 1 - tail).toNat =
      Ring.contents events 0 tail.toNat (head - tail).toNat ++ [cookie] := by
  have ht := tail.toNat_lt
  have hh := head.toNat_lt
  rw [UInt8.toNat_sub] at h
  have hindex : (head &&& 3).toNat = (tail.toNat + (head - tail).toNat) % 4 := by
    rw [mask3, UInt8.toNat_sub]
    omega
  have hcount : (head + 1 - tail).toNat = (head - tail).toNat + 1 := by
    rw [UInt8.toNat_sub, UInt8.toNat_sub, UInt8.toNat_add]
    simp only [UInt8.toNat_one]
    omega
  rw [hindex, hcount]
  exact Ring.contents_push events 0 cookie tail.toNat (head - tail).toNat (by rw [UInt8.toNat_sub]; omega)

theorem cookie_pop (events : Vector UInt8 4) (head tail : UInt8) (h : head - tail ≠ 0) :
    Ring.contents events 0 tail.toNat (head - tail).toNat =
      events[(tail &&& 3).toNat]?.getD 0 :: Ring.contents events 0 (tail + 1).toNat (head - (tail + 1)).toNat := by
  have ht := tail.toNat_lt
  have hh := head.toNat_lt
  have hpos : (head - tail).toNat ≠ 0 := fun hz => h (UInt8.toNat_inj.1 hz)
  have hcount : (head - tail).toNat = (head - (tail + 1)).toNat + 1 := by
    rw [UInt8.toNat_sub] at hpos ⊢
    rw [UInt8.toNat_sub, UInt8.toNat_add]
    simp only [UInt8.toNat_one]
    omega
  have hfirst : (tail.toNat + 1) % 4 = (tail + 1).toNat % 4 := by
    rw [UInt8.toNat_add]
    simp only [UInt8.toNat_one]
    omega
  rw [hcount, Ring.contents_pop, mask3, Ring.contents_congr events 0 _ _ _ hfirst]

theorem frame_free (rx : Vector RxFrame 2) (head tail count : UInt8) (filled : RxFrame) (hc : count.toNat < 2)
    (ht : tail.toNat = (head.toNat + count.toNat) % 2) :
    Ring.contents (rx.setIfInBounds tail.toNat filled) blankRx head.toNat count.toNat =
      Ring.contents rx blankRx head.toNat count.toNat := by
  rw [ht]
  exact Ring.contents_set_free rx blankRx filled head.toNat count.toNat hc

theorem frame_push (rx : Vector RxFrame 2) (head tail count : UInt8) (filled : RxFrame) (hc : count.toNat < 2)
    (ht : tail.toNat = (head.toNat + count.toNat) % 2) :
    Ring.contents (rx.setIfInBounds tail.toNat filled) blankRx head.toNat (count + 1).toNat =
      Ring.contents rx blankRx head.toNat count.toNat ++ [filled] := by
  have hcount : (count + 1).toNat = count.toNat + 1 := by
    rw [UInt8.toNat_add]
    simp only [UInt8.toNat_one]
    omega
  rw [ht, hcount]
  exact Ring.contents_push rx blankRx filled head.toNat count.toNat hc

theorem frame_pop (rx : Vector RxFrame 2) (head count : UInt8) (hh : head.toNat < 2) (hc : count ≠ 0) :
    Ring.contents rx blankRx head.toNat count.toNat =
      rx[head.toNat]?.getD blankRx :: Ring.contents rx blankRx (head ^^^ 1).toNat (count - 1).toNat := by
  have hpos : count.toNat ≠ 0 := fun hz => hc (UInt8.toNat_inj.1 hz)
  have hb := count.toNat_lt
  have hcount : count.toNat = (count - 1).toNat + 1 := by
    rw [UInt8.toNat_sub]
    simp only [UInt8.toNat_one]
    omega
  have hfirst : (head.toNat + 1) % 2 = (head ^^^ 1).toNat % 2 := by
    rw [flip1 head hh]
    omega
  rw [hcount, Ring.contents_pop, Nat.mod_eq_of_lt hh, Ring.contents_congr rx blankRx _ _ _ hfirst]

/-! ## One call -/

theorem requestRx_cases (q : Queue) (h : Sound q) (cookie : UInt8) :
    (q.fault = .radioFailed ∧ q.requestRx cookie true = (.radioFailed, q)) ∨
    (q.requestRx cookie true = (.full, { q with dropped := saturatingIncrement q.dropped })) ∨
    ((q.eventHead - q.eventTail).toNat < 4 ∧
      q.requestRx cookie true = (.ok, { q with
        events := q.events.setIfInBounds (q.eventHead &&& 3).toNat cookie
        eventHead := q.eventHead + 1 })) := by
  have hle := h.requests
  have hnot : ¬ (4 : UInt8) < q.eventHead - q.eventTail := by
    rw [UInt8.lt_iff_toNat_lt]
    simpa using hle
  rcases h.fault with hf | hf
  · by_cases hfull : q.eventHead - q.eventTail = 4
    · exact .inr (.inl (by simp [Queue.requestRx, hf, hfull]))
    · have hne : (q.eventHead - q.eventTail).toNat ≠ 4 := fun he => hfull (UInt8.toNat_inj.1 he)
      exact .inr (.inr ⟨by omega, by simp [Queue.requestRx, hf, hnot, hfull]⟩)
  · exact .inl ⟨hf, by simp [Queue.requestRx, hf]⟩

theorem service_cases (q : Queue) (h : Sound q) (channel : UInt8) (timeout : UInt32) (limit : UInt16)
    (irqActive : Bool) (driver : RxResult) (filled : RxFrame) :
    (∃ result, result ≠ .ok ∧ result ≠ .corrupt ∧
      q.service channel timeout limit irqActive driver filled = (result, q)) ∨
    (q.eventHead - q.eventTail ≠ 0 ∧ q.rxCount.toNat < 2 ∧ q.fault = .ok ∧
      ∃ served : Queue, served = { q with
          lastCookie := q.events[(q.eventTail &&& 3).toNat]?.getD 0
          eventTail := q.eventTail + 1
          rx := q.rx.setIfInBounds q.rxTail.toNat filled
          driverResult := some driver } ∧
        (q.service channel timeout limit irqActive driver filled =
            (.badCrc, { served with badCrc := saturatingIncrement q.badCrc }) ∨
          q.service channel timeout limit irqActive driver filled =
            (.radioFailed, { served with fault := .radioFailed }) ∨
          (driver = .ok ∧ q.service channel timeout limit irqActive driver filled =
            (.ok, { served with rxTail := q.rxTail ^^^ 1, rxCount := q.rxCount + 1 })))) := by
  have hle := h.requests
  have hcount := h.count
  have hnot : ¬ (4 : UInt8) < q.eventHead - q.eventTail := by
    rw [UInt8.lt_iff_toNat_lt]
    simpa using hle
  have hvalid : ¬ (!q.rxValid ∨ (4 : UInt8) < q.eventHead - q.eventTail) := by simp [h.rxValid, hnot]
  unfold Queue.service
  rcases h.fault with hf | hf
  case inr => exact .inl ⟨.radioFailed, by decide, by decide, by simp [hf]⟩
  simp only [hf, ne_eq, not_true_eq_false, if_false, if_neg hvalid]
  split
  · exact .inl ⟨.invalidArgument, by decide, by decide, rfl⟩
  split
  · exact .inl ⟨.empty, by decide, by decide, rfl⟩
  next hsome =>
    split
    · exact .inl ⟨.full, by decide, by decide, rfl⟩
    next hroom =>
      have hlt : q.rxCount.toNat < 2 := by
        have hne : q.rxCount.toNat ≠ 2 := fun he => hroom (UInt8.toNat_inj.1 he)
        omega
      split
      · exact .inl ⟨.irqActive, by decide, by decide, rfl⟩
      refine .inr ⟨hsome, hlt, trivial, _, rfl, ?_⟩
      split
      · exact .inl rfl
      split
      · exact .inr (.inl (by simp [Queue.latch]))
      next hok => exact .inr (.inr ⟨not_not.1 hok, rfl⟩)

theorem rxRead_cases (layout : Layout) (q : Queue) (h : Sound q) (output : Option (Object RxFrame)) :
    (∃ result value, result ≠ .ok ∧ result ≠ .corrupt ∧ q.rxRead layout output = ((result, value), q)) ∨
    (q.rxCount ≠ 0 ∧
      ∃ frame : RxFrame, frame.received = (q.rx[q.rxHead.toNat]?.getD blankRx).received ∧
        q.rxRead layout output =
          ((.ok, some frame), { q with rxHead := q.rxHead ^^^ 1, rxCount := q.rxCount - 1 })) := by
  unfold Queue.rxRead
  cases output with
  | none => exact .inl ⟨.invalidArgument, none, by decide, by decide, rfl⟩
  | some output =>
    simp only [h.rxValid, Bool.not_true, Bool.false_eq_true, if_false]
    split
    · exact .inl ⟨.bufferOwnership, _, by decide, by decide, rfl⟩
    split
    · exact .inl ⟨.empty, _, by decide, by decide, rfl⟩
    next hsome =>
      have hmem : q.rx[q.rxHead.toNat]?.getD blankRx ∈ q.rxSlots := by
        rw [Queue.rxSlots, frame_pop q.rx q.rxHead q.rxCount h.head hsome]
        exact List.mem_cons_self
      obtain ⟨hlo, hhi⟩ := h.lengths _ hmem
      generalize q.rx[q.rxHead.toNat]?.getD blankRx = slot at hlo hhi ⊢
      have hlength : ¬ (slot.length = 0 ∨ 125 < slot.length) := by
        rw [UInt8.lt_iff_toNat_lt]
        rintro (h0 | h1)
        · simp [h0] at hlo
        · simp only [UInt8.reduceToNat, bodyMax] at h1 hhi
          omega
      rw [if_neg hlength]
      refine .inr ⟨hsome, _, ?_, rfl⟩
      simp only [RxFrame.received, copyBody_same slot.body output.value.body slot.length hhi]

theorem txSubmit_cases (layout : Layout) (q : Queue) (h : Sound q) (body : Option (Object (Nat → UInt8)))
    (length : UInt8) :
    (∃ result, result ≠ .ok ∧ result ≠ .corrupt ∧ q.txSubmit layout body length = (result, q)) ∨
    (∃ b, body = some b ∧ q.txCount = 0 ∧ 1 ≤ length.toNat ∧ length.toNat ≤ bodyMax ∧
      q.txSubmit layout body length = (.ok, { q with
        tx := { length := length, body := copyBody b.value length.toNat q.tx.body }
        txCount := 1 })) := by
  have hcount : ¬ (1 : UInt8) < q.txCount := by
    rw [UInt8.lt_iff_toNat_lt]
    simpa using h.txCount
  unfold Queue.txSubmit
  rcases h.fault with hf | hf
  case inr => exact .inl ⟨.radioFailed, by decide, by decide, by simp [hf]⟩
  simp only [hf, ne_eq, not_true_eq_false, if_false, hcount]
  cases body with
  | none => exact .inl ⟨.invalidArgument, by decide, by decide, rfl⟩
  | some b =>
    simp only
    split
    · exact .inl ⟨.invalidArgument, by decide, by decide, rfl⟩
    next hlength =>
      split
      · exact .inl ⟨.bufferOwnership, by decide, by decide, rfl⟩
      split
      · exact .inl ⟨.full, by decide, by decide, rfl⟩
      next hempty =>
        rw [not_or, UInt8.lt_iff_toNat_lt] at hlength
        have hpos : length.toNat ≠ 0 := fun he => hlength.1 (UInt8.toNat_inj.1 he)
        have hhi := hlength.2
        simp only [UInt8.reduceToNat] at hhi
        exact .inr ⟨b, rfl, not_not.1 hempty, by omega, by unfold bodyMax; omega, rfl⟩

theorem txRead_cases (layout : Layout) (q : Queue) (h : Sound q) (output : Option (Object TxFrame)) :
    (∃ result value, result ≠ .ok ∧ result ≠ .corrupt ∧ q.txRead layout output = ((result, value), q)) ∨
    (q.txCount ≠ 0 ∧ ∃ frame : TxFrame, frame.octets = q.tx.octets ∧
      q.txRead layout output = ((.ok, some frame), { q with txCount := 0 })) := by
  have hcount : ¬ (1 : UInt8) < q.txCount := by
    rw [UInt8.lt_iff_toNat_lt]
    simpa using h.txCount
  unfold Queue.txRead
  cases output with
  | none => exact .inl ⟨.invalidArgument, none, by decide, by decide, rfl⟩
  | some output =>
    simp only [hcount, if_false]
    split
    · exact .inl ⟨.bufferOwnership, _, by decide, by decide, rfl⟩
    split
    · exact .inl ⟨.empty, _, by decide, by decide, rfl⟩
    next hsome =>
      obtain ⟨hlo, hhi⟩ := h.txLength hsome
      have hlength : ¬ (q.tx.length = 0 ∨ 125 < q.tx.length) := by
        rw [UInt8.lt_iff_toNat_lt]
        rintro (h0 | h1)
        · simp [h0] at hlo
        · simp only [UInt8.reduceToNat, bodyMax] at h1 hhi
          omega
      rw [if_neg hlength]
      refine .inr ⟨hsome, _, ?_, rfl⟩
      simp only [TxFrame.octets, copyBody_same q.tx.body output.value.body q.tx.length hhi]

theorem txCancel_cases (q : Queue) (h : Sound q) :
    q.txCancel = (.empty, q) ∨ (q.txCount ≠ 0 ∧ q.txCancel = (.ok, { q with txCount := 0 })) := by
  have hcount : ¬ (1 : UInt8) < q.txCount := by
    rw [UInt8.lt_iff_toNat_lt]
    simpa using h.txCount
  unfold Queue.txCancel
  rw [if_neg hcount]
  split
  · exact .inl rfl
  next hsome => exact .inr ⟨hsome, rfl⟩

theorem cancelRequests_eq (q : Queue) (h : Sound q) :
    q.cancelRequests true = (.ok, { q with
      eventTail := q.eventHead
      cancelled :=
        if 255 - q.cancelled < q.eventHead - q.eventTail then 255 else q.cancelled + (q.eventHead - q.eventTail) }) := by
  have hnot : ¬ (4 : UInt8) < q.eventHead - q.eventTail := by
    rw [UInt8.lt_iff_toNat_lt]
    simpa using h.requests
  simp [Queue.cancelRequests, hnot]

theorem cancelled_toNat (cancelled count : UInt8) :
    (if 255 - cancelled < count then 255 else cancelled + count).toNat = min 255 (cancelled.toNat + count.toNat) := by
  have hc := cancelled.toNat_lt
  have hle : cancelled ≤ 255 := UInt8.le_iff_toNat_le.2 (by simp; omega)
  have hsub : (255 - cancelled).toNat = 255 - cancelled.toNat := UInt8.toNat_sub_of_le _ _ hle
  split
  next hlt =>
    rw [UInt8.lt_iff_toNat_lt, hsub] at hlt
    simp only [UInt8.reduceToNat]
    omega
  next hge =>
    rw [UInt8.lt_iff_toNat_lt, hsub] at hge
    rw [UInt8.toNat_add]
    omega

end RadioQueue
