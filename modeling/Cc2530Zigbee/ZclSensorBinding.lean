import Cc2530Zigbee.ZclSensorRequests

/-!
# Bindings of the sensor application

One coordinator endpoint for each of three clusters, in RAM only. Bind and Unbind change
the table, Mgmt_Bind lists it in pages, and `serve` gives each poll to a request that
came or to a report that is due.
-/
namespace ZclSensor

open Octets
open EdWire (Packet)

def bindRequest : UInt16 := 0x0021
def unbindRequest : UInt16 := 0x0022
def mgmtBindRequest : UInt16 := 0x0033

def clusters : Nat := 3

/-- The place of a cluster in the table. -/
def bindEntry (cluster : UInt16) : Option (Fin 3) :=
  if cluster = 0x0001 then some 2 else if cluster = 0x0405 then some 1 else if cluster = 0x0402 then some 0 else none

/-- The fields of a Bind or Unbind request. -/
structure Binding where
  source : Vector UInt8 8
  endpoint : UInt8
  cluster : UInt16
  mode : UInt8
  destination : Vector UInt8 8
  target : UInt8
  deriving DecidableEq

def bindingOf (rx : Packet) : Binding where
  source := rx.field 1 8
  endpoint := byteAt rx.payload.toList 9
  cluster := u16At rx.payload.toList 10
  mode := byteAt rx.payload.toList 12
  destination := rx.field 13 8
  target := byteAt rx.payload.toList 21

/-- What the place of a cluster has to hold before a Bind (`dir`) or an Unbind. -/
def placeFor (dir : Bool) (bound target : UInt8) : UInt8 := if dir ∧ bound = 0 then 0 else target

/-- The status of a Bind (`dir`) or Unbind request, and the table. -/
def bindTable (cfg : Config) (s : State) (dir : Bool) (b : Binding) : UInt8 × State :=
  if b.source = cfg.ownIeee ∧ b.mode = 3 then
    if b.endpoint = cfg.endpoint ∧ b.target ≠ 0 ∧ b.target ≠ 0xff then
      match bindEntry b.cluster with
      | none => (if dir then 0x8c else 0x88, s)
      | some entry =>
        if b.destination = s.tcIeee ∧
            getElem s.bound entry (index3_lt entry) = placeFor dir (getElem s.bound entry (index3_lt entry)) b.target then
          (0, { s with bound := s.bound.set entry (if dir then b.target else 0) (index3_lt entry) })
        else (if dir then 0x8c else 0x88, s)
    else (0x82, s)
  else (0x84, s)

/-- The request is long enough for its address mode. -/
def bindLength (rx : Packet) : Bool :=
  let mode := byteAt rx.payload.toList 12
  ¬(rx.length < 13 ∨ (mode = 3 ∧ rx.length < 22) ∨ (mode = 1 ∧ rx.length < 15))

def bind (cfg : Config) (host : Host) (s : State) : Served × Host × State :=
  let rx := host.application
  if ¬ bindLength rx then (.discarded, host, s)
  else
    match reply host (rx.aps.clusterId ||| 0x8000) with
    | none => (.discarded, { host with responseResult := .full }, s)
    | some packet =>
      let r := bindTable cfg s (rx.aps.clusterId = bindRequest) (bindingOf rx)
      (.handled, respond host packet [byteAt rx.payload.toList 0, r.1], r.2)

/-! ## Pages of the table -/

/-- A binding on the wire. -/
def bindingRecord (cfg : Config) (s : State) (i : Nat) : Bytes :=
  cfg.ownIeee.toList ++ cfg.endpoint :: put16 (entryOf i).cluster ++ 3 :: s.tcIeee.toList ++ [s.bound[i]?.getD 0]

def recordLength : Nat := 21

/-- The bindings from `start` on that fit behind the octets that are used. -/
def pageRecords (cfg : Config) (s : State) (start : UInt8) (capacity : Nat) :
    List Nat → (index used : Nat) → List Bytes
  | [], _, _ => []
  | i :: rest, index, used =>
    if s.bound[i]?.getD 0 = 0 then pageRecords cfg s start capacity rest index used
    else if index < start.toNat then pageRecords cfg s start capacity rest (index + 1) used
    else if capacity - used < recordLength then []
    else bindingRecord cfg s i :: pageRecords cfg s start capacity rest (index + 1) (used + recordLength)

/-- The bound clusters, in the order of the table. -/
def bindings (s : State) : List Nat := (List.range clusters).filter fun i => s.bound[i]?.getD 0 ≠ 0

/-- `zcl_sensor_binding_page`. -/
def bindingPage (cfg : Config) (s : State) (sequence start : UInt8) (capacity : Nat) : Option Bytes :=
  if capacity < 5 ∨ capacity > EdWire.payloadMax ∨ ¬ knownIeee cfg.ownIeee ∨ ¬ knownIeee s.tcIeee ∨
      cfg.endpoint = 0 ∨ cfg.endpoint > 0xf0 ∨ 0xff ∈ s.bound.toList then none
  else
    let total := UInt8.ofNat (bindings s).length
    let records := pageRecords cfg s start capacity (List.range clusters) 0 5
    some ([sequence, 0, total, if total ≠ 0 then start else 0, UInt8.ofNat records.length] ++ records.flatten)

def managementBind (cfg : Config) (host : Host) (s : State) : Served × Host :=
  let rx := host.application
  if rx.nwk.type ≠ 0 ∨ rx.aps.type ≠ 0 ∨ rx.aps.sourceEndpoint ≠ 0 ∨ ApsFrame.has rx.aps.flags (~~~ ApsFrame.ackRequest) ∨
      rx.length < 2 ∨ rx.length.toNat > EdWire.payloadMax then (.discarded, host)
  else
    match reply host (mgmtBindRequest ||| 0x8000) with
    | none => (.discarded, { host with responseResult := .full })
    | some packet =>
      match bindingPage cfg s (byteAt rx.payload.toList 0) (byteAt rx.payload.toList 1) EdWire.payloadMax with
      | none => (.discarded, { host with response := packet })
      | some octets =>
        (.handled,
          respond host { packet with aps := { packet.aps with destinationEndpoint := rx.aps.sourceEndpoint } } octets)

/-! ## Serving -/

/-- The first address of the broadcasts. -/
def broadcast : UInt16 := 0xfffb

/-- `zcl_sensor_serve`: a published frame comes first, then a report, in the place of the
frame. -/
def serve (v : Variant) (cfg : Config) (host : Host) (s : State) : Served × Host × State :=
  let rx := host.application
  if host.applicationReady then
    if rx.nwk.destination ≥ broadcast ∨ rx.aps.deliveryMode ≠ 0 then (.discarded, host, s)
    else if rx.aps.profileId = 0 ∧ rx.aps.destinationEndpoint = 0 then
      if rx.aps.clusterId = mgmtBindRequest then
        let r := managementBind cfg host s
        (r.1, r.2, s)
      else if rx.aps.clusterId = bindRequest ∨ rx.aps.clusterId = unbindRequest then bind cfg host s
      else (.discarded, host, s)
    else zcl v cfg host s
  else if host.applicationPending ∨ host.applicationDone then (.idle, host, s)
  else
    match report v cfg host.last s with
    | (s, none) => (.idle, host, s)
    | (s, some packet) => (.report, { host with application := packet }, s)

/-! ## Bind and Unbind -/

/-- A binding from this device to the trust center, of a cluster that has a place. -/
structure Admitted (cfg : Config) (s : State) (b : Binding) (entry : Fin 3) : Prop where
  source : b.source = cfg.ownIeee
  mode : b.mode = 3
  endpoint : b.endpoint = cfg.endpoint
  target : b.target ≠ 0
  single : b.target ≠ 0xff
  place : bindEntry b.cluster = some entry
  destination : b.destination = s.tcIeee

theorem Admitted.table {cfg : Config} {s : State} {b : Binding} {entry : Fin 3} (h : Admitted cfg s b entry) {dir : Bool}
    (hplace : getElem s.bound entry (index3_lt entry) = placeFor dir (getElem s.bound entry (index3_lt entry)) b.target) :
    bindTable cfg s dir b = (0, { s with bound := s.bound.set entry (if dir then b.target else 0) (index3_lt entry) }) := by
  unfold bindTable
  rw [if_pos ⟨h.source, h.mode⟩, if_pos ⟨h.endpoint, h.target, h.single⟩, h.place]
  exact if_pos ⟨h.destination, hplace⟩

/-- A request changes the one place of its cluster, or nothing. -/
theorem bindTable_cases (cfg : Config) (s : State) (dir : Bool) (b : Binding) :
    (bindTable cfg s dir b).1 ≠ 0 ∧ (bindTable cfg s dir b).2 = s ∨
      ∃ entry, Admitted cfg s b entry ∧
        getElem s.bound entry (index3_lt entry) = placeFor dir (getElem s.bound entry (index3_lt entry)) b.target ∧
        bindTable cfg s dir b = (0, { s with bound := s.bound.set entry (if dir then b.target else 0) (index3_lt entry) }) := by
  unfold bindTable
  split
  next hsource =>
    split
    next hours =>
      cases hentry : bindEntry b.cluster with
      | none => exact .inl ⟨by cases dir <;> simp, rfl⟩
      | some entry =>
        simp only
        split
        next hfree =>
          exact .inr ⟨entry, ⟨hsource.1, hsource.2, hours.1, hours.2.1, hours.2.2, hentry, hfree.1⟩, hfree.2, rfl⟩
        next => exact .inl ⟨by cases dir <;> simp, rfl⟩
    next => exact .inl ⟨by simp, rfl⟩
  next => exact .inl ⟨by simp, rfl⟩

theorem Admitted.bound {cfg : Config} {s : State} {b : Binding} {entry : Fin 3} (h : Admitted cfg s b entry)
    (bound : Vector UInt8 3) : Admitted cfg { s with bound := bound } b entry :=
  ⟨h.source, h.mode, h.endpoint, h.target, h.single, h.place, h.destination⟩

/-- A repeated Bind says the same and changes nothing more. -/
theorem bindTable_again (cfg : Config) (s : State) (b : Binding) :
    bindTable cfg (bindTable cfg s true b).2 true b = bindTable cfg s true b := by
  obtain ⟨-, hsame⟩ | ⟨entry, hadmitted, -, htable⟩ := bindTable_cases cfg s true b
  · rw [hsame]
  · rw [htable]
    rw [(hadmitted.bound _).table (by simp [placeFor, hadmitted.target])]
    simp

/-- What a Bind added, the Unbind with the same fields removes. -/
theorem unbind_bind (cfg : Config) (s : State) (b : Binding) (hadded : (bindTable cfg s true b).2 ≠ s) :
    bindTable cfg (bindTable cfg s true b).2 false b = (0, s) := by
  obtain ⟨-, hsame⟩ | ⟨entry, hadmitted, hplace, htable⟩ := bindTable_cases cfg s true b
  · exact absurd hsame hadded
  · rw [htable] at hadded ⊢
    have hempty : s.bound[entry] = 0 := by
      by_contra hbound
      have hheld : s.bound[entry] = b.target := hplace.trans (if_neg fun hfree => hbound hfree.2)
      apply hadded
      simp [← hheld]
    rw [(hadmitted.bound _).table (by simp [placeFor])]
    have hback : (s.bound.set entry b.target).set entry 0 = s.bound := by
      rw [Vector.set_set, ← hempty]
      exact Vector.set_getElem_self _
    simp [hback]

/-- An Unbind removes the binding it names, or nothing. -/
theorem unbind_frame (cfg : Config) (s : State) (b : Binding) :
    (bindTable cfg s false b).2 = s ∨
      ∃ entry, bindEntry b.cluster = some entry ∧ getElem s.bound entry (index3_lt entry) = b.target ∧
        (bindTable cfg s false b).2 = { s with bound := s.bound.set entry 0 (index3_lt entry) } := by
  obtain ⟨-, hsame⟩ | ⟨entry, hadmitted, hplace, htable⟩ := bindTable_cases cfg s false b
  · exact .inl hsame
  · exact .inr ⟨entry, hadmitted.place, by simpa [placeFor] using hplace, by rw [htable]; rfl⟩

/-! ## Pages -/

theorem bindingRecord_length (cfg : Config) (s : State) (i : Nat) : (bindingRecord cfg s i).length = recordLength := by
  simp [bindingRecord, recordLength]

theorem pageRecords_eq (cfg : Config) (s : State) (start : UInt8) (capacity : Nat) (l : List Nat) (index used : Nat) :
    pageRecords cfg s start capacity l index used =
      (((l.filter fun i => s.bound[i]?.getD 0 ≠ 0).drop (start.toNat - index)).take ((capacity - used) / recordLength)).map
        (bindingRecord cfg s) := by
  induction l generalizing index used with
  | nil => simp [pageRecords]
  | cons i l ih =>
    simp only [pageRecords]
    split
    next hfree => rw [ih, List.filter_cons_of_neg (by simpa using hfree)]
    next hbound =>
      rw [List.filter_cons_of_pos (by simpa using hbound)]
      split
      next hbefore =>
        rw [ih, show start.toNat - index = start.toNat - (index + 1) + 1 by omega, List.drop_succ_cons]
      next hfrom =>
        rw [show start.toNat - index = 0 by omega, List.drop_zero]
        split
        next hfull => rw [Nat.div_eq_of_lt hfull, List.take_zero, List.map_nil]
        next hroom =>
          have hrooms : (capacity - used) / recordLength = (capacity - (used + recordLength)) / recordLength + 1 := by
            rw [← Nat.sub_sub]
            exact Nat.div_eq_sub_div (by decide) (not_lt.1 hroom)
          rw [ih, hrooms, List.take_succ_cons, List.map_cons, show start.toNat - (index + 1) = 0 by omega, List.drop_zero]

/-- The application has all that a page tells. -/
structure Listable (cfg : Config) (s : State) : Prop where
  own : knownIeee cfg.ownIeee = true
  center : knownIeee s.tcIeee = true
  endpoint : cfg.endpoint ≠ 0
  ordinary : ¬ cfg.endpoint > 0xf0
  single : 0xff ∉ s.bound.toList

/-- The records that a reader finds in a page. -/
def pageEntries (octets : Bytes) : List Bytes :=
  (List.range (byteAt octets 4).toNat).map fun k => ((octets.drop 5).drop (recordLength * k)).take recordLength

theorem bindings_length_le (s : State) : (bindings s).length ≤ 3 :=
  (List.length_filter_le _ _).trans_eq List.length_range

/-- A page has the bindings from its index on, as many as have room. -/
theorem bindingPage_entries {cfg : Config} {s : State} (h : Listable cfg s) (sequence start : UInt8) {capacity : Nat}
    (hfive : 5 ≤ capacity) (hlimit : capacity ≤ EdWire.payloadMax) :
    ∃ octets, bindingPage cfg s sequence start capacity = some octets ∧ octets.length ≤ capacity ∧
      pageEntries octets =
        (((bindings s).drop start.toNat).take ((capacity - 5) / recordLength)).map (bindingRecord cfg s) := by
  unfold bindingPage
  rw [if_neg (by
    simp only [not_or]
    exact ⟨not_lt.2 hfive, not_lt.2 hlimit, not_not.2 h.own, not_not.2 h.center, h.endpoint, h.ordinary, h.single⟩)]
  simp only [pageRecords_eq, Nat.sub_zero]
  rw [show (List.range clusters).filter (fun i => s.bound[i]?.getD 0 ≠ 0) = bindings s from rfl]
  set records := (((bindings s).drop start.toNat).take ((capacity - 5) / recordLength)).map (bindingRecord cfg s)
    with hrecords
  have hwhole : ∀ r ∈ records, r.length = recordLength := by
    intro r hr
    obtain ⟨i, -, rfl⟩ := List.mem_map.1 hr
    exact bindingRecord_length cfg s i
  have hcount : records.length ≤ 3 ∧ records.length ≤ (capacity - 5) / recordLength := by
    have := bindings_length_le s
    simp only [hrecords, List.length_map, List.length_take, List.length_drop]
    omega
  have hflat : records.flatten.length = records.length * recordLength := by
    rw [List.length_flatten, List.map_congr_left hwhole, List.map_const', List.sum_replicate, smul_eq_mul]
  refine ⟨_, rfl, ?_, ?_⟩
  · have hfits := Nat.mul_le_mul_right recordLength hcount.2
    have hroom := Nat.div_mul_le_self (capacity - 5) recordLength
    simp only [List.length_append, List.length_cons, List.length_nil, hflat]
    omega
  · have hoctet : (UInt8.ofNat records.length).toNat = records.length :=
      UInt8.toNat_ofNat_of_lt' (by simp only [UInt8.size]; omega)
    have hcut := RecordWalk.cut_flatten recordLength records hwhole
    simpa [pageEntries, byteAt, hoctet] using hcut

/-- Pages with room for a binding list every binding, once and in the order of the table. -/
theorem pages_listed {cfg : Config} {s : State} (h : Listable cfg s) (sequence : UInt8) {capacity : Nat}
    (hroom : 5 + recordLength ≤ capacity) (hlimit : capacity ≤ EdWire.payloadMax) {fuel : Nat} (hfuel : 3 < fuel) :
    RecordWalk.pages (fun start => pageEntries ((bindingPage cfg s sequence (UInt8.ofNat start) capacity).getD [])) fuel 0 =
      (bindings s).map (bindingRecord cfg s) := by
  have hlength := bindings_length_le s
  have hrooms : 0 < (capacity - 5) / recordLength := Nat.div_pos (by omega) (by decide)
  refine RecordWalk.pages_all _ hrooms _ _ (fun start hstart => ?_) fuel 0 (Nat.zero_le _) ?_
  · rw [List.length_map] at hstart
    have hindex : (UInt8.ofNat start).toNat = start := UInt8.toNat_ofNat_of_lt' (by simp only [UInt8.size]; omega)
    obtain ⟨octets, hpage, -, hentries⟩ := bindingPage_entries h sequence (UInt8.ofNat start) (by omega) hlimit
    rw [hpage, Option.getD_some, hentries, hindex, List.map_take, List.map_drop]
  · rw [List.length_map]
    omega

end ZclSensor
