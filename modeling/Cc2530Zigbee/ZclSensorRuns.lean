import Cc2530Zigbee.Runs
import Cc2530Zigbee.ZclSensorBinding

/-!
# Runs of the sensor application

The owner polls: a tick, then what is to be served, and a report that was built goes to
the queue, which takes it or not. Beside the state stand, for every reportable
attribute, the value that the last accepted report carried and the seconds since then.
The state says the same, with an accepted report counted at the next tick.
-/
namespace ZclSensor

open Octets
open EdWire (Packet)

/-- One poll: the runtime as it is then, the converters, and the answer of the queue. -/
structure Poll where
  host : Host
  reading : Reading
  accepted : Bool
  deriving DecidableEq

structure World where
  state : State
  /-- What the last accepted report of an attribute carried. -/
  reported : Nat → UInt16
  /-- The whole seconds since that report was accepted. -/
  since : Nat → Nat

/-- The reportable attribute and its value in a report. -/
def carriedBy (packet : Packet) : Option (Nat × UInt16) :=
  let octets := packet.payload.toList
  match find packet.aps.clusterId (u16At octets 3) with
  | none => none
  | some entry =>
    if entry < reports then
      some (entry, if width (byteAt octets 5) = 1 then (byteAt octets 6).toUInt16 else u16At octets 6)
    else none

/-- The whole seconds from the last one that was counted. -/
def secondsPassed (s : State) (last : UInt32) : Nat := (last - s.second).toNat / secondSymbols.toNat

/-- The state in which a poll serves. -/
def served (v : Variant) (w : World) (e : Poll) : State := tick v e.host.last e.reading w.state

/-- One poll of the owner, with the report that the queue accepted. -/
def poll (v : Variant) (cfg : Config) (w : World) (e : Poll) : Option Packet × World :=
  let r := serve v cfg e.host (served v w e)
  let since := fun i => w.since i + secondsPassed w.state e.host.last
  if r.1 = .report ∧ e.accepted then
    let packet := r.2.1.application
    let state := { r.2.2 with sent := true }
    match carriedBy packet with
    | some (entry, value) => (some packet, ⟨state, Function.update w.reported entry value, Function.update since entry 0⟩)
    | none => (some packet, ⟨state, w.reported, since⟩)
  else (none, ⟨r.2.2, w.reported, since⟩)

/-- The application as it starts: every attribute counts as reported with its value then. -/
def World.start (v : Variant) (last : UInt32) (s : State) : World := ⟨s, value v last s, fun _ => 0⟩

/-! ## What a request leaves alone -/

/-- What was reported last, and how long ago. -/
def marks (s : State) : Vector (UInt16 × UInt16) 4 := s.report.map fun r => (r.last, r.age)

/-- A request may change bindings, intervals and the identify time. -/
structure Kept (s s' : State) : Prop where
  marks : marks s' = marks s
  sent : s'.sent = s.sent
  center : s'.tcIeee = s.tcIeee
  single : 0xff ∉ s.bound.toList → 0xff ∉ s'.bound.toList

theorem Kept.refl (s : State) : Kept s s := ⟨rfl, rfl, rfl, id⟩

theorem Kept.trans {a b c : State} (h : Kept a b) (g : Kept b c) : Kept a c :=
  ⟨g.marks.trans h.marks, g.sent.trans h.sent, g.center.trans h.center, fun hs => g.single (h.single hs)⟩

theorem reporting_eq (s : State) {i : Nat} (h : i < 4) : reporting s i = s.report[i] := by
  simp [reporting, h]

/-- An update that keeps the marks of its attribute keeps all. -/
theorem setReporting_kept (s : State) (entry : Nat) (r : Reporting) (hlast : r.last = (reporting s entry).last)
    (hage : r.age = (reporting s entry).age) : Kept s (setReporting s entry r) := by
  refine ⟨Vector.ext fun i hi => ?_, rfl, rfl, id⟩
  simp only [marks, setReporting, Vector.getElem_map, Vector.getElem_setIfInBounds]
  split
  next hsame =>
    subst hsame
    rw [hlast, hage, reporting_eq s hi]
  next => rfl

theorem writeVisit_kept (r : WriteRecord) (x : State × Bytes) : Kept x.1 (writeVisit r x).1 := by
  unfold writeVisit
  split
  · exact ⟨rfl, rfl, rfl, id⟩
  · exact .refl _

theorem configureVisit_kept (r : ConfigureRecord) (x : State × Bytes) : Kept x.1 (configureVisit r x).1 := by
  unfold configureVisit
  split
  · simp only [configured, restore]
    split
    · exact setReporting_kept _ _ _ rfl rfl
    · exact setReporting_kept _ _ _ rfl rfl
  · exact .refl _

theorem foldl_kept {ρ : Type} {visit : ρ → State × Bytes → State × Bytes} (hvisit : ∀ r x, Kept x.1 (visit r x).1)
    (records : List ρ) (x : State × Bytes) : Kept x.1 (records.foldl (fun x r => visit r x) x).1 := by
  induction records generalizing x with
  | nil => exact .refl _
  | cons r records ih => exact (hvisit r x).trans (ih _)

theorem twoPasses_kept {ρ : Type} (parse : Bytes → Option ρ) (taken : ρ → Nat)
    {visit : ρ → State × Bytes → State × Bytes} (hvisit : ∀ r x, Kept x.1 (visit r x).1) (s : State) (command : UInt8)
    (head p : Bytes) : Kept s (twoPasses parse taken visit s command head p).2 := by
  obtain ⟨-, hbad⟩ | ⟨-, hgood⟩ := twoPasses_cases parse taken visit s command head p
  · rw [hbad]
    exact .refl s
  · rw [hgood]
    exact foldl_kept hvisit _ (s, [])

theorem specific_kept (s : State) (cluster : UInt16) (command sequence : UInt8) (p : Bytes) :
    Kept s (specific s cluster command sequence p).2 := by
  unfold specific
  split_ifs
  · exact .refl s
  · exact .refl s
  · exact ⟨rfl, rfl, rfl, id⟩
  · exact .refl s
  · exact .refl s

theorem answer_kept (v : Variant) (last : UInt32) (s : State) (cluster : UInt16) (p : Bytes) (header : Nat) :
    Kept s (answer v last s cluster p header).2 := by
  unfold answer
  simp only
  split_ifs
  · exact .refl s
  · exact .refl s
  · exact specific_kept _ _ _ _ _
  · exact .refl s
  · exact twoPasses_kept _ _ writeVisit_kept _ _ _ _
  · exact twoPasses_kept _ _ configureVisit_kept _ _ _ _
  · exact .refl s
  · exact .refl s

theorem zcl_kept (v : Variant) (cfg : Config) (host : Host) (s : State) : Kept s (zcl v cfg host s).2.2 := by
  obtain ⟨hstate, -⟩ | ⟨-, hstate, -⟩ := zcl_cases v cfg host s
  · rw [hstate]
    exact .refl s
  · rw [hstate]
    exact answer_kept _ _ _ _ _ _

theorem bindTable_kept (cfg : Config) (s : State) (dir : Bool) (b : Binding) : Kept s (bindTable cfg s dir b).2 := by
  obtain ⟨-, hsame⟩ | ⟨entry, hadmitted, -, htable⟩ := bindTable_cases cfg s dir b
  · rw [hsame]
    exact .refl s
  · rw [htable]
    refine ⟨rfl, rfl, rfl, fun hsingle hmem => ?_⟩
    have hset : 0xff ∈ s.bound.set entry.val (if dir then b.target else 0) entry.isLt := Vector.mem_toList_iff.1 hmem
    obtain hold | hnew := Vector.mem_or_eq_of_mem_set hset
    · exact hsingle (Vector.mem_toList_iff.2 hold)
    · cases dir with
      | false => exact absurd hnew (by simp)
      | true => exact hadmitted.single hnew.symm

theorem bind_kept (cfg : Config) (host : Host) (s : State) : Kept s (bind cfg host s).2.2 := by
  unfold bind
  simp only
  split
  · exact .refl s
  · split
    · exact .refl s
    · exact bindTable_kept _ _ _ _

/-! ## Reports -/

section Reports

variable {v : Variant} {cfg : Config} {last : UInt32}

/-- A search ends at a bound attribute that is due, and leaves its value. It would end
there whatever was left before. -/
theorem search_found {left entry found : Nat} {s s' : State} (h : search v last left entry s = (s', some found)) :
    found < entry + left ∧ s' = { s with value := value v last s found } ∧
      ∀ x y, search v last left entry { s with value := x, pending := y } = ({ s' with pending := y }, some found) := by
  induction left generalizing entry s with
  | zero => simp [search] at h
  | succ left ih =>
    simp only [search] at h ⊢
    by_cases hfree : boundFor s entry = 0
    · rw [if_pos hfree] at h
      obtain ⟨hlt, hstate, hagain⟩ := ih h
      refine ⟨by omega, hstate, fun x y => ?_⟩
      rw [if_pos (show boundFor { s with value := x, pending := y } entry = 0 from hfree)]
      exact hagain x y
    · rw [if_neg hfree] at h
      by_cases hdue : due v last { s with value := value v last s entry } entry = true
      · rw [if_pos hdue] at h
        obtain ⟨rfl, hfound⟩ := Prod.mk.inj h
        obtain rfl := Option.some.inj hfound
        refine ⟨by omega, rfl, fun x y => ?_⟩
        rw [if_neg (show ¬ boundFor { s with value := x, pending := y } entry = 0 from hfree)]
        exact if_pos hdue
      · rw [if_neg hdue] at h
        obtain ⟨hlt, hstate, hagain⟩ := ih h
        refine ⟨by omega, hstate, fun x y => ?_⟩
        rw [if_neg (show ¬ boundFor { s with value := x, pending := y } entry = 0 from hfree)]
        refine (if_neg hdue).trans ?_
        exact hagain (value v last s entry) y

theorem search_none {left entry : Nat} {s s' : State} (h : search v last left entry s = (s', none)) :
    ∃ x, s' = { s with value := x } := by
  induction left generalizing entry s with
  | zero =>
    obtain rfl := (Prod.mk.inj h).1
    exact ⟨s.value, rfl⟩
  | succ left ih =>
    simp only [search] at h
    split at h
    · exact ih h
    · split at h
      · cases h
      · obtain ⟨x, hx⟩ := ih h
        exact ⟨x, hx⟩

/-- The battery values take one octet. -/
theorem value_octet (s : State) {entry : Nat} (h : entry = 2 ∨ entry = 3) :
    (value v last s entry).toUInt8.toUInt16 = value v last s entry := by
  have hback : ∀ b : UInt8, b.toUInt16.toUInt8.toUInt16 = b.toUInt16 := fun b => by rw [UInt8.toUInt8_toUInt16]
  obtain rfl | rfl := h
  · simp only [value, if_true, decivolts]
    split_ifs
    · rfl
    · exact hback _
    · exact hback _
  · simp only [value, show ¬ 3 = 2 by decide, if_false, if_true, halfPercent]
    split_ifs
    · rfl
    · rfl
    · rfl
    · exact hback _
    · exact hback _

/-- The octets of a buffer that holds a shorter string. -/
theorem byteAt_buffer (octets : Bytes) {i : Nat} (h : i < 82) :
    byteAt (Vector.ofFn fun k : Fin 82 => byteAt octets k).toList i = byteAt octets i := by
  simp [byteAt, h]

section Octets

variable (s : State) (entry : Nat) (endpoint : UInt8)

theorem report_cluster : (reportPacket v cfg last s entry endpoint).aps.clusterId = (entryOf entry).cluster := rfl

theorem report_id : u16At (reportPacket v cfg last s entry endpoint).payload.toList 3 = (entryOf entry).id := by
  simp only [reportPacket, u16At, byteAt_buffer _ (show 3 < 82 by decide), byteAt_buffer _ (show 3 + 1 < 82 by decide)]
  simpa [byteAt, put16] using le16_put (entryOf entry).id

theorem report_type : byteAt (reportPacket v cfg last s entry endpoint).payload.toList 5 = (entryOf entry).type := by
  simp only [reportPacket, byteAt_buffer _ (show 5 < 82 by decide)]
  simp [byteAt, put16]

theorem report_octet : byteAt (reportPacket v cfg last s entry endpoint).payload.toList 6 = byteAt (put v last s entry) 0 := by
  simp only [reportPacket, byteAt_buffer _ (show 6 < 82 by decide)]
  simp [byteAt, put16]

theorem report_word : u16At (reportPacket v cfg last s entry endpoint).payload.toList 6 = u16At (put v last s entry) 0 := by
  simp only [reportPacket, u16At, byteAt_buffer _ (show 6 < 82 by decide), byteAt_buffer _ (show 6 + 1 < 82 by decide)]
  simp [byteAt, put16]

end Octets

/-- The value of a reportable attribute on the wire. -/
theorem put_report (s : State) {entry : Nat} (h : entry < reports) :
    width (entryOf entry).type = 1 ∧ (byteAt (put v last s entry) 0).toUInt16 = value v last s entry ∨
      width (entryOf entry).type ≠ 1 ∧ u16At (put v last s entry) 0 = value v last s entry := by
  have hplain : entry ≠ manufacturerEntry ∧ entry ≠ modelEntry := by
    simp only [reports] at h
    simp only [manufacturerEntry, modelEntry]
    omega
  have hsize : size v entry = (width (entryOf entry).type).toNat := by simp [size, hplain]
  have hput : put v last s entry =
      if (width (entryOf entry).type).toNat > 1 then put16 (value v last s entry) else [(value v last s entry).toUInt8] := by
    simp [put, hplain, hsize]
  have hword : ∀ n, u16At (put16 n) 0 = n := fun n => by simpa using u16At_here n []
  rw [hput]
  have hentry : entry = 0 ∨ entry = 1 ∨ entry = 2 ∨ entry = 3 := by
    simp only [reports] at h
    omega
  obtain rfl | rfl | hoctet := hentry
  · exact .inr ⟨by decide, hword _⟩
  · exact .inr ⟨by decide, hword _⟩
  · refine .inl ⟨by obtain rfl | rfl := hoctet <;> decide, ?_⟩
    have hone : ¬ (width (entryOf entry).type).toNat > 1 := by obtain rfl | rfl := hoctet <;> decide
    rw [if_neg hone]
    exact value_octet s hoctet

theorem find_entry : ∀ entry < attributes.length, find (entryOf entry).cluster (entryOf entry).id = some entry := by decide

/-- A report carries the value of its attribute. -/
theorem carriedBy_report (s : State) {entry : Nat} (endpoint : UInt8) (h : entry < reports) :
    carriedBy (reportPacket v cfg last s entry endpoint) = some (entry, value v last s entry) := by
  have hfind := find_entry entry (Nat.lt_trans h (by decide))
  simp only [carriedBy, report_cluster, report_id, report_type, report_octet, report_word, hfind, if_pos h]
  obtain ⟨hone, hvalue⟩ | ⟨htwo, hvalue⟩ := @put_report v last s entry h
  · rw [if_pos hone, hvalue]
  · rw [if_neg htwo, hvalue]

theorem carriedBy_model (s : State) (endpoint : UInt8) : carriedBy (reportPacket v cfg last s modelEntry endpoint) = none := by
  have hfind := find_entry modelEntry (by decide)
  simp only [carriedBy, report_cluster, report_id, hfind]
  rfl

/-- A report that is built leaves the marks alone. It is of an attribute and carries what
was looked at, or it is that of the model. It would be built the same again. -/
structure Built (v : Variant) (cfg : Config) (last : UInt32) (s s' : State) (packet : Packet) : Prop where
  kept : Kept s s'
  report : s'.report = s.report
  bound : s'.bound = s.bound
  basic : s'.basic = s.basic
  tsn : s'.tsn = s.tsn
  carries : s'.pending = basicReport ∧ carriedBy packet = none ∨
    s'.pending.toNat < reports ∧ carriedBy packet = some (s'.pending.toNat, s'.value)
  again : ZclSensor.report v cfg last s' = (s', some packet)

theorem report_built {s s' : State} {packet : Packet} (h : report v cfg last s = (s', some packet)) :
    Built v cfg last s s' packet := by
  by_cases hbasic : s.basic = true
  · simp only [report, hbasic, if_true] at h
    obtain ⟨rfl, hpacket⟩ := Prod.mk.inj h
    obtain rfl := Option.some.inj hpacket
    exact ⟨⟨rfl, rfl, rfl, id⟩, rfl, rfl, hbasic.symm, rfl, .inl ⟨rfl, carriedBy_model _ _⟩, by simp [report]⟩
  · simp only [report, if_neg hbasic] at h
    cases hsearch : search v last reports 0 s with
    | mk found entry =>
      rw [hsearch] at h
      cases entry with
      | none => cases h
      | some entry =>
        obtain ⟨hlt, rfl, hagain⟩ := search_found hsearch
        rw [Nat.zero_add] at hlt
        obtain ⟨rfl, hpacket⟩ := Prod.mk.inj h
        obtain rfl := Option.some.inj hpacket
        have hentry : (UInt8.ofNat entry).toNat = entry :=
          UInt8.toNat_ofNat_of_lt' (by simp only [UInt8.size]; simp only [reports] at hlt; omega)
        refine ⟨⟨rfl, rfl, rfl, id⟩, rfl, rfl, rfl, rfl, .inr ⟨by rw [hentry]; exact hlt, ?_⟩, ?_⟩
        · rw [carriedBy_report _ _ hlt, hentry]
          rfl
        · simp only [report, if_neg hbasic]
          rw [hagain]
          rfl

theorem report_idle {s s' : State} (h : report v cfg last s = (s', none)) : Kept s s' := by
  by_cases hbasic : s.basic = true
  · simp [report, hbasic] at h
  · simp only [report, if_neg hbasic] at h
    cases hsearch : search v last reports 0 s with
    | mk found entry =>
      rw [hsearch] at h
      cases entry with
      | some entry => cases h
      | none =>
        obtain ⟨x, rfl⟩ := search_none hsearch
        obtain rfl := (Prod.mk.inj h).1
        exact ⟨rfl, rfl, rfl, id⟩

theorem zcl_served (host : Host) (s : State) : (zcl v cfg host s).1 ≠ .report := by
  unfold zcl
  simp only
  split
  · nofun
  · split
    · nofun
    · split <;> nofun

theorem bind_served (host : Host) (s : State) : (bind cfg host s).1 ≠ .report := by
  unfold bind
  simp only
  split
  · nofun
  · split <;> nofun

theorem managementBind_served (host : Host) (s : State) : (managementBind cfg host s).1 ≠ .report := by
  unfold managementBind
  simp only
  split
  · nofun
  · split
    · nofun
    · split <;> nofun

/-- What serving does: it builds a report, or changes nothing that was reported. -/
theorem serve_cases (host : Host) (s : State) :
    (serve v cfg host s).1 ≠ .report ∧ Kept s (serve v cfg host s).2.2 ∨
      ∃ s' packet, serve v cfg host s = (.report, { host with application := packet }, s') ∧
        host.applicationReady = false ∧ host.applicationPending = false ∧ host.applicationDone = false ∧
        Built v cfg host.last s s' packet := by
  unfold serve
  simp only
  split
  · left
    split_ifs
    · exact ⟨nofun, .refl s⟩
    · exact ⟨managementBind_served host s, .refl s⟩
    · exact ⟨bind_served host s, bind_kept cfg host s⟩
    · exact ⟨nofun, .refl s⟩
    · exact ⟨zcl_served host s, zcl_kept v cfg host s⟩
  next hready =>
    split
    · exact .inl ⟨nofun, .refl s⟩
    next hfree =>
      simp only [not_or, Bool.not_eq_true] at hfree
      cases hreport : report v cfg host.last s with
      | mk s' packet =>
        cases packet with
        | none => exact .inl ⟨nofun, report_idle hreport⟩
        | some packet =>
          exact .inr ⟨s', packet, rfl, by simpa using hready, hfree.1, hfree.2, report_built hreport⟩

end Reports

/-! ## Ticks -/

/-- The clock of a mark after some seconds: it stops at its limit. -/
theorem passSecond_marks (v : Variant) (s : State) {i : Nat} (h : i < 4) :
    (marks (passSecond v s))[i].1 = (marks s)[i].1 ∧
      (marks (passSecond v s))[i].2.toNat = min 65535 ((marks s)[i].2.toNat + 1) := by
  simp only [marks, passSecond, Vector.getElem_map]
  split
  next hrunning =>
    have hlimit : s.report[i].age.toNat ≠ 65535 := fun hend => hrunning (UInt16.toNat_inj.1 hend)
    have hlt := s.report[i].age.toNat_lt
    refine ⟨rfl, ?_⟩
    rw [UInt16.toNat_add]
    simp only [UInt16.reduceToNat]
    omega
  next hend =>
    rw [not_not] at hend
    simp [hend]

theorem passSeconds_eq (v : Variant) (last : UInt32) (fuel : Nat) (s : State) (hfuel : secondsPassed s last ≤ fuel) :
    passSeconds v last fuel s = (passSecond v)^[secondsPassed s last] s := by
  induction fuel generalizing s with
  | zero =>
    obtain hnone := Nat.le_zero.1 hfuel
    rw [hnone]
    rfl
  | succ fuel ih =>
    simp only [passSeconds]
    have hsecond : secondSymbols.toNat = 62500 := rfl
    split
    next hover =>
      have hle : secondSymbols ≤ last - s.second := hover
      have hrest : secondsPassed s last = secondsPassed (passSecond v s) last + 1 := by
        simp only [secondsPassed, passSecond]
        rw [← sub_sub, UInt32.toNat_sub_of_le _ _ hle, hsecond]
        have := UInt32.le_iff_toNat_le.1 hle
        omega
      rw [ih _ (by omega), hrest, Function.iterate_succ_apply]
    next hunder =>
      have hlt : (last - s.second).toNat < secondSymbols.toNat := by
        rw [ge_iff_le, UInt32.le_iff_toNat_le] at hunder
        omega
      rw [secondsPassed, Nat.div_eq_of_lt hlt]
      rfl

theorem passSecond_iterate_marks (v : Variant) (s : State) (n : Nat) {i : Nat} (h : i < 4) :
    (marks ((passSecond v)^[n] s))[i].1 = (marks s)[i].1 ∧
      (marks ((passSecond v)^[n] s))[i].2.toNat = min 65535 ((marks s)[i].2.toNat + n) := by
  induction n with
  | zero =>
    have hlt := (marks s)[i].2.toNat_lt
    exact ⟨rfl, by simp only [Function.iterate_zero, id]; omega⟩
  | succ n ih =>
    rw [Function.iterate_succ_apply']
    obtain ⟨hlast, hage⟩ := passSecond_marks v ((passSecond v)^[n] s) h
    exact ⟨hlast.trans ih.1, by rw [hage, ih.2]; omega⟩

theorem passSecond_iterate_frame (v : Variant) (s : State) (n : Nat) :
    ((passSecond v)^[n] s).sent = s.sent ∧ ((passSecond v)^[n] s).tcIeee = s.tcIeee ∧
      ((passSecond v)^[n] s).bound = s.bound := by
  induction n with
  | zero => exact ⟨rfl, rfl, rfl⟩
  | succ n ih =>
    rw [Function.iterate_succ_apply']
    exact ih

theorem measure_frame (s : State) (r : Reading) :
    (measure s r).report = s.report ∧ (measure s r).sent = s.sent ∧ (measure s r).tcIeee = s.tcIeee ∧
      (measure s r).bound = s.bound := by
  unfold measure
  split <;> exact ⟨rfl, rfl, rfl, rfl⟩

theorem climate_frame (s : State) (r : Reading) :
    (climate s r).report = s.report ∧ (climate s r).sent = s.sent ∧ (climate s r).tcIeee = s.tcIeee ∧
      (climate s r).bound = s.bound := by
  unfold climate
  split <;> exact ⟨rfl, rfl, rfl, rfl⟩

/-- A tick counts the report that was accepted, and then the seconds. -/
theorem tick_marks (v : Variant) (last : UInt32) (r : Reading) (s : State) :
    (∀ i, (h : i < 4) →
      (marks (tick v last r s))[i].1 = (marks (commit s))[i].1 ∧
        (marks (tick v last r s))[i].2.toNat = min 65535 ((marks (commit s))[i].2.toNat + secondsPassed s last)) ∧
      (tick v last r s).sent = (commit s).sent ∧ (tick v last r s).tcIeee = (commit s).tcIeee ∧
      (tick v last r s).bound = (commit s).bound := by
  have hsecond : (commit s).second = s.second := by
    unfold commit
    split
    · simp only
      split <;> rfl
    · rfl
  have hpassed : secondsPassed (commit s) last = secondsPassed s last := by rw [secondsPassed, hsecond, secondsPassed]
  have hfuel : secondsPassed (commit s) last ≤ (last - (commit s).second).toNat := Nat.div_le_self _ _
  have hseconds := passSeconds_eq v last (last - (commit s).second).toNat (commit s) hfuel
  rw [hpassed] at hseconds
  have hmarks := fun i (h : i < 4) => passSecond_iterate_marks v (commit s) (secondsPassed s last) h
  have hframe := passSecond_iterate_frame v (commit s) (secondsPassed s last)
  rw [← hseconds] at hmarks hframe
  unfold tick
  simp only
  split
  · obtain ⟨hreport, hsent, hcenter, hbound⟩ := measure_frame
      (passSeconds v last (last - (commit s).second).toNat (commit s)) r
    split
    · obtain ⟨hreport', hsent', hcenter', hbound'⟩ := climate_frame
        (measure (passSeconds v last (last - (commit s).second).toNat (commit s)) r) r
      refine ⟨fun i h => ?_, hsent'.trans (hsent.trans hframe.1), hcenter'.trans (hcenter.trans hframe.2.1),
        hbound'.trans (hbound.trans hframe.2.2)⟩
      simp only [marks, hreport', hreport]
      exact hmarks i h
    · refine ⟨fun i h => ?_, hsent.trans hframe.1, hcenter.trans hframe.2.1, hbound.trans hframe.2.2⟩
      simp only [marks, hreport]
      exact hmarks i h
  · exact ⟨hmarks, hframe⟩

/-! ## The lifecycle of a report -/

/-- The state knows of an attribute what the last accepted report carried and when that
was. A report of it that was accepted in the last poll counts from the next tick on. -/
def Told (w : World) (i : Nat) : Prop :=
  if w.state.sent = true ∧ w.state.pending.toNat = i then w.state.value = w.reported i ∧ w.since i = 0
  else (reporting w.state i).last = w.reported i ∧ (reporting w.state i).age.toNat = min 65535 (w.since i)

theorem commit_told {w : World} {i : Nat} (hi : i < 4) (h : Told w i) :
    (marks (commit w.state))[i].1 = w.reported i ∧
      (marks (commit w.state))[i].2.toNat = min 65535 (w.since i) := by
  unfold Told at h
  rw [reporting_eq _ hi] at h
  unfold commit
  by_cases hsent : w.state.sent = true
  · simp only [hsent, true_and, if_true] at h ⊢
    by_cases hbasic : w.state.pending = basicReport
    · rw [if_neg (by rw [hbasic]; simp only [basicReport, UInt8.reduceToNat]; omega)] at h
      simp only [if_pos hbasic]
      simpa [marks] using h
    · simp only [if_neg hbasic, marks, setReporting, Vector.getElem_map, Vector.getElem_setIfInBounds]
      by_cases hpending : w.state.pending.toNat = i
      · rw [if_pos hpending] at h ⊢
        exact ⟨h.1, by simp [h.2]⟩
      · rw [if_neg hpending] at h ⊢
        exact h
  · simp only [hsent, false_and, if_false] at h ⊢
    simpa [marks] using h

theorem commit_frame (s : State) : (commit s).sent = false ∧ (commit s).tcIeee = s.tcIeee ∧ (commit s).bound = s.bound := by
  unfold commit
  split
  · simp only
    split <;> exact ⟨rfl, rfl, rfl⟩
  next hsent => exact ⟨by simpa using hsent, rfl, rfl⟩

/-- What holds in every run: the reports are told, and the bindings can be listed. -/
structure Sound (cfg : Config) (w : World) : Prop where
  told : ∀ i < reports, Told w i
  listable : Listable cfg w.state

theorem told_of_marks {s : State} {reported : Nat → UInt16} {since : Nat → Nat} {i : Nat} (hi : i < 4)
    (hidle : ¬(s.sent = true ∧ s.pending.toNat = i)) (hlast : (marks s)[i].1 = reported i)
    (hage : (marks s)[i].2.toNat = min 65535 (since i)) : Told ⟨s, reported, since⟩ i := by
  unfold Told
  rw [if_neg hidle, reporting_eq _ hi]
  simp only [marks, Vector.getElem_map] at hlast hage
  exact ⟨hlast, hage⟩

theorem Kept.listable {cfg : Config} {s s' : State} (h : Kept s s') (hs : Listable cfg s) : Listable cfg s' :=
  ⟨hs.own, by rw [h.center]; exact hs.center, hs.endpoint, hs.ordinary, h.single hs.single⟩

section Polls

variable {v : Variant} {cfg : Config} {w : World} {e : Poll}

/-- What was reported when a poll serves. -/
theorem served_marks (h : Sound cfg w) {i : Nat} (hi : i < 4) :
    (marks (served v w e))[i].1 = w.reported i ∧
      (marks (served v w e))[i].2.toNat = min 65535 (w.since i + secondsPassed w.state e.host.last) := by
  obtain ⟨hlast, hage⟩ := (tick_marks v e.host.last e.reading w.state).1 i hi
  obtain ⟨hlast', hage'⟩ := commit_told hi (h.told i hi)
  exact ⟨hlast.trans hlast', by rw [served, hage, hage']; omega⟩

theorem served_sent : (served v w e).sent = false :=
  (tick_marks v e.host.last e.reading w.state).2.1.trans (commit_frame w.state).1

theorem served_listable (h : Sound cfg w) : Listable cfg (served v w e) := by
  obtain ⟨-, -, hcenter, hbound⟩ := tick_marks v e.host.last e.reading w.state
  obtain ⟨-, hcenter', hbound'⟩ := commit_frame w.state
  refine ⟨h.listable.own, ?_, h.listable.endpoint, h.listable.ordinary, ?_⟩
  · rw [served, hcenter, hcenter']
    exact h.listable.center
  · rw [served, hbound, hbound']
    exact h.listable.single

theorem poll_sound (h : Sound cfg w) : Sound cfg (poll v cfg w e).2 := by
  have hmarks := fun i (hi : i < 4) => @served_marks v cfg w e h i hi
  have hsent : (served v w e).sent = false := served_sent
  have hlist : Listable cfg (served v w e) := served_listable h
  unfold poll
  simp only
  -- a poll without an accepted report keeps the marks and leaves nothing to count
  have hquiet : ∀ s', Kept (served v w e) s' →
      Sound cfg ⟨s', w.reported, fun i => w.since i + secondsPassed w.state e.host.last⟩ := by
    intro s' hkept
    refine ⟨fun i hi => told_of_marks hi ?_ ?_ ?_, hkept.listable hlist⟩
    · rw [hkept.sent, hsent]
      nofun
    · rw [hkept.marks]
      exact (hmarks i hi).1
    · rw [hkept.marks]
      exact (hmarks i hi).2
  obtain ⟨hother, hkept⟩ | ⟨s', packet, hserve, -, -, -, hbuilt⟩ := serve_cases e.host (served v w e)
  · rw [if_neg fun hreport => hother hreport.1]
    exact hquiet _ hkept
  · rw [hserve]
    by_cases haccepted : e.accepted = true
    · rw [if_pos ⟨rfl, haccepted⟩]
      have hlistable := hbuilt.kept.listable hlist
      have hlistable' : Listable cfg { s' with sent := true } :=
        ⟨hlistable.own, hlistable.center, hlistable.endpoint, hlistable.ordinary, hlistable.single⟩
      have hsame : marks { s' with sent := true } = marks (served v w e) := hbuilt.kept.marks
      obtain ⟨hpending, hcarried⟩ | ⟨hpending, hcarried⟩ := hbuilt.carries
      · simp only [hcarried]
        refine ⟨fun i hi => told_of_marks hi ?_ ?_ ?_, hlistable'⟩
        · simp only [hpending, basicReport, UInt8.reduceToNat, true_and]
          simp only [reports] at hi
          omega
        · rw [hsame]
          exact (hmarks i hi).1
        · rw [hsame]
          exact (hmarks i hi).2
      · simp only [hcarried]
        refine ⟨fun i hi => ?_, hlistable'⟩
        by_cases hentry : s'.pending.toNat = i
        · subst hentry
          simp [Told]
        · refine told_of_marks hi (fun hthis => hentry hthis.2) ?_ ?_
          · rw [hsame, Function.update_of_ne (Ne.symm hentry)]
            exact (hmarks i hi).1
          · rw [hsame, Function.update_of_ne (Ne.symm hentry)]
            exact (hmarks i hi).2
    · rw [if_neg fun hreport => haccepted hreport.2]
      exact hquiet _ hbuilt.kept

/-- A refused report leaves everything as the tick left it, but what was looked at, and the
same frame is built again. -/
theorem poll_refused (hreport : (serve v cfg e.host (served v w e)).1 = .report) (hrefused : e.accepted = false) :
    ∃ s' packet, (poll v cfg w e).2.state = s' ∧ Built v cfg e.host.last (served v w e) s' packet ∧
      serve v cfg e.host (served v w e) = (.report, { e.host with application := packet }, s') ∧
      serve v cfg e.host s' = (.report, { e.host with application := packet }, s') := by
  obtain ⟨hother, -⟩ | ⟨s', packet, hserve, hready, hpending, hdone, hbuilt⟩ := serve_cases e.host (served v w e)
  · exact absurd hreport hother
  · refine ⟨s', packet, ?_, hbuilt, hserve, ?_⟩
    · simp [poll, hserve, hrefused]
    · simp [serve, hready, hpending, hdone, hbuilt.again]

end Polls

/-! ## The start -/

theorem install_value (v : Variant) (last : UInt32) (s : State) (entry : Nat) :
    value v last (install v last s entry) = value v last s := rfl

theorem install_reporting (v : Variant) (last : UInt32) (s : State) (entry : Nat) {i : Nat} (h : i < 4) :
    (reporting (install v last s entry) i).last = (if i = entry then value v last s i else (reporting s i).last) ∧
      (reporting (install v last s entry) i).age = (reporting s i).age := by
  simp only [reporting_eq _ h, install, restore, setReporting, Vector.getElem_setIfInBounds]
  by_cases hentry : entry = i
  · subst hentry
    simp [reporting, h]
    rfl
  · simp [hentry, Ne.symm hentry]

theorem install_all (v : Variant) (last : UInt32) (entries : List Nat) (s : State) {i : Nat} (h : i < 4) :
    (reporting (entries.foldl (install v last) s) i).last =
        (if i ∈ entries then value v last s i else (reporting s i).last) ∧
      (reporting (entries.foldl (install v last) s) i).age = (reporting s i).age := by
  induction entries generalizing s with
  | nil => simp
  | cons entry entries ih =>
    obtain ⟨hlast, hage⟩ := ih (install v last s entry)
    obtain ⟨hlast', hage'⟩ := install_reporting v last s entry h
    rw [List.foldl_cons]
    refine ⟨?_, hage.trans hage'⟩
    rw [hlast, hlast', install_value]
    by_cases hrest : i ∈ entries
    · simp [hrest]
    · simp [hrest]

theorem install_frame (v : Variant) (last : UInt32) (entries : List Nat) (s : State) :
    value v last (entries.foldl (install v last) s) = value v last s ∧
      (entries.foldl (install v last) s).sent = s.sent ∧ (entries.foldl (install v last) s).tcIeee = s.tcIeee := by
  induction entries generalizing s with
  | nil => exact ⟨rfl, rfl, rfl⟩
  | cons entry entries ih => exact ih (install v last s entry)

theorem measuredFirst_frame (v : Variant) (tcIeee : Vector UInt8 8) (r : Reading) :
    (measuredFirst v tcIeee r).report = Vector.replicate 4 .zero ∧ (measuredFirst v tcIeee r).sent = false ∧
      (measuredFirst v tcIeee r).tcIeee = tcIeee := by
  obtain ⟨hreport, hsent, hcenter, -⟩ := measure_frame (State.zero tcIeee) r
  have hmeasure : ∀ s, s = (if v.chipSense = true then measure (State.zero tcIeee) r else State.zero tcIeee) →
      s.report = Vector.replicate 4 .zero ∧ s.sent = false ∧ s.tcIeee = tcIeee := by
    rintro s rfl
    split
    · exact ⟨hreport, hsent, hcenter⟩
    · exact ⟨rfl, rfl, rfl⟩
  unfold measuredFirst
  simp only
  split
  · obtain ⟨hreport', hsent', hcenter', -⟩ := climate_frame
      (if v.chipSense = true then measure (State.zero tcIeee) r else State.zero tcIeee) r
    rw [hreport', hsent', hcenter']
    exact hmeasure _ rfl
  · exact hmeasure _ rfl

/-- The last touches of the start change nothing that was installed. -/
theorem start_frame (v : Variant) (last : UInt32) (s : State) (bound : Vector UInt8 3) (second : UInt32) (basic : Bool) :
    value v last { s with bound := bound, second := second, basic := basic } = value v last s := rfl

/-- At the start every attribute counts as reported, and the application knows who and
where it is. -/
theorem init_sound {v : Variant} {cfg : Config} {last : UInt32} {r : Reading} {ownIeee tcIeee : Vector UInt8 8} {s : State}
    (h : init v cfg last r ownIeee tcIeee = some s) : Sound cfg (World.start v last s) := by
  unfold init at h
  split at h
  · cases h
  next hgood =>
    simp only [not_or, Decidable.not_not] at hgood
    obtain ⟨hown, hcenter, hsame, hendpoint, hordinary⟩ := hgood
    obtain ⟨hreport, hidle, hcenter'⟩ := measuredFirst_frame v tcIeee r
    obtain ⟨hvalue, hsent, hcenter''⟩ := install_frame v last (List.range reports) (measuredFirst v tcIeee r)
    have hinstalled := fun i (hi : i < 4) => install_all v last (List.range reports) (measuredFirst v tcIeee r) hi
    have hs := Option.some.inj h
    generalize (List.range reports).foldl (install v last) (measuredFirst v tcIeee r) = installed at *
    have hvalues : value v last s = value v last (measuredFirst v tcIeee r) := by
      rw [← hs, start_frame]
      exact hvalue
    have hreports : s.report = installed.report := by rw [← hs]
    have hunsent : s.sent = false := by
      rw [← hs]
      exact hsent.trans hidle
    have hidentity : s.tcIeee = tcIeee := by
      rw [← hs]
      exact hcenter''.trans hcenter'
    refine ⟨fun i (hi : i < 4) => ?_, ⟨hsame ▸ hown, hidentity ▸ hcenter, hendpoint, hordinary, ?_⟩⟩
    · obtain ⟨hlast, hage⟩ := hinstalled i hi
      rw [if_pos (List.mem_range.2 (show i < reports from hi))] at hlast
      rw [reporting_eq _ hi] at hlast hage
      have hmark : (marks s)[i] = (installed.report[i].last, installed.report[i].age) := by
        simp only [marks, Vector.getElem_map, hreports]
      refine told_of_marks hi (by rw [hunsent]; nofun) ?_ ?_
      · rw [hmark]
        exact hlast.trans (congrFun hvalues.symm i)
      · rw [hmark, hage]
        simp [reporting, hreport, Reporting.zero, show i < 4 from hi]
    · have hbound : s.bound = Vector.replicate 3 1 := by rw [← hs]
      rw [show (World.start v last s).state.bound = _ from hbound]
      decide

/-! ## Every run -/

/-- The request to undo a Bind. -/
def unbindOf (host : Host) : Host :=
  { host with application := { host.application with aps := { host.application.aps with clusterId := unbindRequest } } }

theorem bind_again (cfg : Config) (host : Host) (s : State) (h : host.application.aps.clusterId = bindRequest) :
    bind cfg host (bind cfg host s).2.2 = bind cfg host s := by
  unfold bind
  simp only
  split
  · rfl
  · split
    · rfl
    · simp only [h, decide_true, bindTable_again]

/-- What a Bind or Unbind request that can be answered does to the table. -/
theorem bind_state (cfg : Config) (host : Host) (s : State) :
    (bind cfg host s).2.2 =
      if bindLength host.application = true ∧ host.responsePending = false then
        (bindTable cfg s (host.application.aps.clusterId = bindRequest) (bindingOf host.application)).2
      else s := by
  unfold bind reply
  by_cases hlength : bindLength host.application = true
  · cases hpending : host.responsePending with
    | false => simp [hlength]
    | true => simp [hlength]
  · simp [hlength]

/-- An Unbind behind a Bind that added something. -/
theorem unbind_after_bind (cfg : Config) (host : Host) (s : State) (h : host.application.aps.clusterId = bindRequest)
    (hadded : (bind cfg host s).2.2 ≠ s) : (bind cfg (unbindOf host) (bind cfg host s).2.2).2.2 = s := by
  by_cases hanswered : bindLength host.application = true ∧ host.responsePending = false
  · have hbind : (bind cfg host s).2.2 = (bindTable cfg s true (bindingOf host.application)).2 := by
      rw [bind_state, if_pos hanswered]
      simp [h]
    rw [hbind] at hadded ⊢
    rw [bind_state, if_pos (show bindLength (unbindOf host).application = true ∧ (unbindOf host).responsePending = false
      from hanswered)]
    exact congrArg Prod.snd (unbind_bind cfg s (bindingOf host.application) hadded)
  · rw [bind_state, if_neg hanswered] at hadded
    exact absurd rfl hadded

/-- An Unbind removes the one binding it names, or nothing. -/
theorem unbind_exact (cfg : Config) (host : Host) (s : State) (h : host.application.aps.clusterId = unbindRequest) :
    (bind cfg host s).2.2 = s ∨
      ∃ entry, bindEntry (bindingOf host.application).cluster = some entry ∧
        s.bound[entry] = (bindingOf host.application).target ∧
        (bind cfg host s).2.2 = { s with bound := s.bound.set entry 0 } := by
  rw [bind_state]
  split
  · rw [h]
    exact unbind_frame cfg s (bindingOf host.application)
  · exact .inl rfl

theorem run_sound {v : Variant} {cfg : Config} {w : World} (h : Sound cfg w) (polls : List Poll) :
    Sound cfg (Runs.run (poll v cfg) w polls).2 :=
  Runs.state_invariant (poll v cfg) (Sound cfg) w h (fun _ _ => poll_sound) polls

/-- In every run the state knows of each attribute what the last accepted report carried
and the seconds since then; a refused report changes neither, and the same frame is
built again. A repeated Bind changes nothing more, an Unbind takes away what the Bind
added, and the pages of the table list every binding once and in its order. -/
theorem reports_and_bindings (v : Variant) (cfg : Config) (last : UInt32) (r : Reading) (ownIeee tcIeee : Vector UInt8 8)
    (s : State) (hinit : init v cfg last r ownIeee tcIeee = some s) (polls : List Poll) :
    let w := (Runs.run (poll v cfg) (World.start v last s) polls).2
    (∀ i < reports, Told w i) ∧
    (∀ e, (serve v cfg e.host (served v w e)).1 = .report → e.accepted = false →
      ∃ s' packet, (poll v cfg w e).2.state = s' ∧ Built v cfg e.host.last (served v w e) s' packet ∧
        serve v cfg e.host (served v w e) = (.report, { e.host with application := packet }, s') ∧
        serve v cfg e.host s' = (.report, { e.host with application := packet }, s')) ∧
    (∀ host, host.application.aps.clusterId = bindRequest →
      bind cfg host (bind cfg host w.state).2.2 = bind cfg host w.state) ∧
    (∀ host, host.application.aps.clusterId = bindRequest → (bind cfg host w.state).2.2 ≠ w.state →
      (bind cfg (unbindOf host) (bind cfg host w.state).2.2).2.2 = w.state) ∧
    (∀ host, host.application.aps.clusterId = unbindRequest →
      (bind cfg host w.state).2.2 = w.state ∨
        ∃ entry, bindEntry (bindingOf host.application).cluster = some entry ∧
          w.state.bound[entry] = (bindingOf host.application).target ∧
          (bind cfg host w.state).2.2 = { w.state with bound := w.state.bound.set entry 0 }) ∧
    (∀ sequence start capacity, 5 ≤ capacity → capacity ≤ EdWire.payloadMax →
      ∃ octets, bindingPage cfg w.state sequence start capacity = some octets ∧ octets.length ≤ capacity ∧
        pageEntries octets = (((bindings w.state).drop start.toNat).take ((capacity - 5) / recordLength)).map
          (bindingRecord cfg w.state)) ∧
    (∀ sequence capacity fuel, 5 + recordLength ≤ capacity → capacity ≤ EdWire.payloadMax → 3 < fuel →
      RecordWalk.pages (fun start => pageEntries ((bindingPage cfg w.state sequence (UInt8.ofNat start) capacity).getD []))
        fuel 0 = (bindings w.state).map (bindingRecord cfg w.state)) := by
  intro w
  have hsound : Sound cfg w := run_sound (init_sound hinit) polls
  refine ⟨hsound.told, fun e => poll_refused, fun host => bind_again cfg host w.state,
    fun host => unbind_after_bind cfg host w.state, fun host => unbind_exact cfg host w.state, ?_, ?_⟩
  · intro sequence start capacity hfive hlimit
    exact bindingPage_entries hsound.listable sequence start hfive hlimit
  · intro sequence capacity fuel hroom hlimit hfuel
    exact pages_listed hsound.listable sequence hroom hlimit hfuel

def syntheticVariant : Variant := ⟨false, false, false, nofun⟩

def deviceIeee : Vector UInt8 8 := #v[1, 0, 0, 0, 0, 0, 0, 0]
def centerIeee : Vector UInt8 8 := #v[2, 0, 0, 0, 0, 0, 0, 0]
def deviceConfig : Config := ⟨0x0104, 1, deviceIeee⟩

def noReading : Reading := ⟨-1, -1, none⟩

def quietHost (last : UInt32) : Host where
  last := last
  applicationReady := false
  application := NwkAps.Packet.zero
  responsePending := false
  response := NwkAps.Packet.zero
  responseResult := .ok
  applicationPending := false
  applicationDone := false

/-- A frame to the application. -/
def requestHost (last : UInt32) (cluster : UInt16) (octets : Bytes) : Host :=
  { quietHost last with
    applicationReady := true
    application := { NwkAps.Packet.zero with
      aps := { ApsFrame.Header.zero with clusterId := cluster, profileId := 0x0104, destinationEndpoint := 1 }
      length := UInt8.ofNat octets.length
      payload := Vector.ofFn fun i => byteAt octets i } }

/-- The model report goes out, then a temperature report is due: refused once, then accepted. -/
theorem reports_and_bindings_first :
    ∃ s, init syntheticVariant deviceConfig 0 noReading deviceIeee centerIeee = some s ∧
      ∀ i < reports, Told (Runs.run (poll syntheticVariant deviceConfig) (World.start syntheticVariant 0 s)
        [⟨quietHost 0, noReading, true⟩, ⟨quietHost 18750000, noReading, false⟩,
          ⟨quietHost 18750001, noReading, true⟩]).2 i :=
  ⟨_, rfl, (reports_and_bindings syntheticVariant deviceConfig 0 noReading deviceIeee centerIeee _ rfl _).1⟩

end ZclSensor
