import Cc2530Zigbee.NwkApsMoves
import Cc2530Zigbee.Runs
import Cc2530Zigbee.WrappedClock

/-!
# The records of recent frames mean what they say

Beside the layer runs the true time, with a log of the frames that were
published and of the broadcasts that were recorded. A record in a table is an
entry of the log, and counts exactly as long as its lifetime, provided nobody
asks about a record that expired half a range of the clock ago.
-/
namespace NwkAps

open Octets
open EdWire (Packet)
open MacTx (reached)
open WrappedClock (shown)

/-! ## The logs -/

/-- What the table of duplicates knows a frame by. -/
structure Identity where
  source : UInt16
  counter : UInt8
  kind : UInt8
  deriving DecidableEq

def Entry.identity (e : Entry) : Identity := ⟨e.source, e.counter, e.kind⟩

def identityOf (p : Packet) : Identity := ⟨p.nwk.source, p.aps.counter, p.aps.type⟩

/-- The layer, the true time, when each record was made, and the logs. -/
structure Timed where
  layer : Layer
  time : Nat
  duplicateAt : Vector Nat 8
  broadcastAt : Vector Nat 8
  accepted : List (Nat × Identity)
  heard : List (Nat × UInt16 × UInt8)

/-- A slot of a table has a new record. -/
def written (before after : Table) (i : Fin 8) : Bool := after[i].used && after[i] != before[i]

def stamped (before after : Table) (stamps : Vector Nat 8) (time : Nat) : Vector Nat 8 :=
  Vector.ofFn fun i => if written before after i then time else stamps[i]

/-- The frame a call has put into the slot of received packets. -/
def published (l : Layer) : Call → Layer → Option SecurityKeys.Received
  | .receive _ _ (.ok r), l' => if !l.receiveReady && l'.receiveReady then some r else none
  | _, _ => none

/-- The frame a call has published past the table of duplicates. -/
def ordinary (l : Layer) (c : Call) (l' : Layer) : Option SecurityKeys.Received :=
  (published l c l').filter fun r => !isControl r

/-- The broadcasts a call has recorded. -/
def broadcasts (before after : Table) : List (UInt16 × UInt8) :=
  ((List.finRange 8).filter (written before after)).map fun i => (after[i].source, after[i].counter)

section Observe
variable (link : Bool) (build : Build)

/-- One call and what it adds to the logs. -/
def observe (s : Timed) (c : Call) : Answer × Timed :=
  let r := perform link build s.layer c
  let time := s.time + (r.2.last - s.layer.last).toNat
  (r.1, {
    layer := r.2
    time := time
    duplicateAt := stamped s.layer.duplicate r.2.duplicate s.duplicateAt time
    broadcastAt := stamped s.layer.broadcast r.2.broadcast s.broadcastAt time
    accepted := s.accepted ++ (ordinary s.layer c r.2).toList.map fun p => (time, identityOf p.packet)
    heard := s.heard ++ (broadcasts s.layer.broadcast r.2.broadcast).map fun b => (time, b) })

/-- A layer at its initialization. -/
def start (l : Layer) : Timed where
  layer := l
  time := l.last.toNat
  duplicateAt := Vector.replicate 8 0
  broadcastAt := Vector.replicate 8 0
  accepted := []
  heard := []

/-! ## What the tables promise -/

/-- A log entry is within a lifetime. -/
def recent (life : UInt32) (time born : Nat) : Bool := time < born + life.toNat

/-- No used record of a table has been past its lifetime for half a range. -/
def Young (table : Table) (stamps : Vector Nat 8) (life : UInt32) (time : Nat) : Prop :=
  ∀ i : Fin 8, table[i].used = true → time < stamps[i] + life.toNat + 2 ^ 31

instance (table : Table) (stamps : Vector Nat 8) (life : UInt32) (time : Nat) :
    Decidable (Young table stamps life time) :=
  inferInstanceAs (Decidable (∀ i : Fin 8, table[i].used = true → time < stamps[i] + life.toNat + 2 ^ 31))

/-- The key owner admits a frame that the table of duplicates filters. -/
def filters : Except SecurityKeys.Result SecurityKeys.Received → Bool
  | .ok r => !isControl r
  | .error _ => false

/-- The source and sequence number of a broadcast, as its header has them. -/
def broadcastHint (npdu : Bytes) : Option (UInt16 × UInt8) :=
  match EdWire.readNwk npdu with
  | .ok hint => if isBroadcast hint.header.destination then some (hint.header.source, hint.header.sequence) else none
  | .error _ => none

/-- The true time at which a call is made. -/
def Timed.at (s : Timed) (now : UInt32) : Nat := s.time + (now - s.layer.last).toNat

/-- A received frame meets no record that expired half a range ago. -/
def Fresh (s : Timed) : Call → Prop
  | .receive npdu now admitted =>
    (filters admitted = true → Young s.layer.duplicate s.duplicateAt s.layer.duplicateTime (s.at now)) ∧
      ((broadcastHint npdu).isSome = true →
        Young s.layer.broadcast s.broadcastAt s.layer.broadcastTime (s.at now))
  | _ => True

instance (s : Timed) : (c : Call) → Decidable (Fresh s c)
  | .receive npdu now admitted => inferInstanceAs (Decidable
      ((filters admitted = true → Young s.layer.duplicate s.duplicateAt s.layer.duplicateTime (s.at now)) ∧
        ((broadcastHint npdu).isSome = true →
          Young s.layer.broadcast s.broadcastAt s.layer.broadcastTime (s.at now))))
  | .queue .. | .keyExchange .. | .rejoin .. | .poll .. | .step .. | .take | .confirm | .cancel .. | .stop ..
  | .armed .. | .disarmed .. => isTrue trivial

/-- The identities accepted within the lifetime of a duplicate. -/
def identities (s : Timed) : List Identity :=
  (s.accepted.filter fun e => recent s.layer.duplicateTime s.time e.1).map Prod.snd

/-- After the call at most eight distinct identities are recent. -/
def Few (s : Timed) (c : Call) : Prop := (identities (observe link build s c).2).dedup.length ≤ 8

instance (s : Timed) (c : Call) : Decidable (Few link build s c) :=
  inferInstanceAs (Decidable ((identities (observe link build s c).2).dedup.length ≤ 8))

/-- What a received frame is answered from the tables. -/
structure Truthful (s : Timed) (npdu : Bytes) (now : UInt32)
    (admitted : Except SecurityKeys.Result SecurityKeys.Received) (result : Result) (after : Layer) : Prop where
  /-- A duplicate was recorded within its lifetime, and is acknowledged if it asks for that. -/
  duplicate : result = .duplicate →
    (∃ source sequence born, broadcastHint npdu = some (source, sequence) ∧ (born, source, sequence) ∈ s.heard ∧
      recent s.layer.broadcastTime (s.at now) born = true) ∨
    (∃ r born, admitted = .ok r ∧ (born, identityOf r.packet) ∈ s.accepted ∧
      recent s.layer.duplicateTime (s.at now) born = true ∧
      (asksAck r.packet = true → after.reply = true ∧
        after.acknowledgment = (acknowledge s.layer r.packet r.apsSecured).acknowledgment))
  /-- The layer is full with nothing to take and nothing to send only while eight broadcasts are recent. -/
  full : result = .full → s.layer.receiveReady = false → s.layer.reply = false →
    8 ≤ s.heard.countP fun e => recent s.layer.broadcastTime (s.at now) e.1

/-- Every call of `nwk_aps_receive` is answered truthfully. -/
def Answers (s : Timed) : Call → Prop
  | .receive npdu now admitted =>
    let r := receive s.layer npdu now admitted
    Truthful s npdu now admitted r.1 r.2
  | _ => True

/-- No frame is published while a publication of the same identity is recent. -/
def Once (s : Timed) (c : Call) : Prop :=
  ∀ r, ordinary s.layer c (observe link build s c).2.layer = some r →
    ∀ born, (born, identityOf r.packet) ∈ s.accepted →
      recent s.layer.duplicateTime (observe link build s c).2.time born = false

end Observe

variable {link : Bool} {build : Build}

/-! ## The invariant -/

/-- The deadlines of the used records of a table. -/
def Stamped (table : Table) (stamps : Vector Nat 8) (life : UInt32) (time : Nat) : Prop :=
  ∀ i : Fin 8, table[i].used = true → stamps[i] ≤ time ∧ table[i].expires = shown (stamps[i] + life.toNat)

/-- The layer, the tables and the logs agree. -/
structure Sound (s : Timed) : Prop where
  clock : shown s.time = s.layer.last
  lifetime : 0 < s.layer.duplicateTime.toNat
  duplicateTime : s.layer.duplicateTime.toNat < 2 ^ 31
  broadcastTime : s.layer.broadcastTime.toNat < 2 ^ 31
  duplicates : Stamped s.layer.duplicate s.duplicateAt s.layer.duplicateTime s.time
  broadcasts : Stamped s.layer.broadcast s.broadcastAt s.layer.broadcastTime s.time
  accepted : ∀ i : Fin 8, s.layer.duplicate[i].used = true →
    (s.duplicateAt[i], s.layer.duplicate[i].identity) ∈ s.accepted
  heard : ∀ i : Fin 8, s.layer.broadcast[i].used = true →
    (s.broadcastAt[i], s.layer.broadcast[i].source, s.layer.broadcast[i].counter) ∈ s.heard
  /-- Each record of a broadcast has its own entry in the log. -/
  counted : ∀ p : Nat → Bool,
    (List.finRange 8).countP (fun i => s.layer.broadcast[i].used && p s.broadcastAt[i]) ≤ s.heard.countP fun e => p e.1
  /-- No two records of the table of duplicates have one identity. -/
  distinct : ∀ i j : Fin 8, s.layer.duplicate[i].used = true → s.layer.duplicate[j].used = true →
    s.layer.duplicate[i].identity = s.layer.duplicate[j].identity → i = j

theorem reached_stamp (now born : Nat) (life : UInt32) (hborn : born ≤ now) (hlife : life.toNat < 2 ^ 31)
    (hyoung : now < born + life.toNat + 2 ^ 31) :
    reached (shown now) (shown (born + life.toNat)) = !recent life now born := by
  have h := WrappedClock.since_lt_half now born life.toNat hborn hlife hyoung
  have hhalf : MacTx.half.toNat = 2 ^ 31 := rfl
  have hiff : reached (shown now) (shown (born + life.toNat)) = true ↔ born + life.toNat ≤ now := by
    simp only [reached, decide_eq_true_eq, UInt32.lt_iff_toNat_lt, hhalf]
    exact h
  unfold recent
  by_cases hr : born + life.toNat ≤ now
  · rw [hiff.mpr hr]
    simpa using hr
  · rw [Bool.eq_false_iff.mpr (mt hiff.mp hr)]
    simpa using hr

/-- A record that counts is recent. -/
theorem Stamped.recent {table : Table} {stamps : Vector Nat 8} {life : UInt32} {before now : Nat}
    (h : Stamped table stamps life before) (hle : before ≤ now) (hlife : life.toNat < 2 ^ 31)
    (hyoung : Young table stamps life now) (i : Fin 8) (hlive : table[i].live (shown now) = true) :
    NwkAps.recent life now stamps[i] = true := by
  simp only [Entry.live, Bool.and_eq_true, Bool.not_eq_true'] at hlive
  obtain ⟨hborn, hexpires⟩ := h i hlive.1
  have hreached := hlive.2
  rw [hexpires, reached_stamp now _ life (Nat.le_trans hborn hle) hlife (hyoung i hlive.1)] at hreached
  simpa using hreached

/-- A recent record counts, however old the others are. -/
theorem Stamped.live {table : Table} {stamps : Vector Nat 8} {life : UInt32} {before now : Nat}
    (h : Stamped table stamps life before) (hle : before ≤ now) (hlife : life.toNat < 2 ^ 31) (i : Fin 8)
    (hused : table[i].used = true) (hrecent : NwkAps.recent life now stamps[i] = true) :
    reached (shown now) table[i].expires = false := by
  obtain ⟨hborn, hexpires⟩ := h i hused
  have hlt : now < stamps[i] + life.toNat := by simpa [NwkAps.recent] using hrecent
  rw [hexpires, reached_stamp now _ life (Nat.le_trans hborn hle) hlife (by omega), hrecent]
  rfl

@[simp] theorem stamped_get (before after : Table) (stamps : Vector Nat 8) (time : Nat) (i : Fin 8) :
    (stamped before after stamps time)[i] = if written before after i then time else stamps[i] := by
  simp [stamped]

/-- A used record that was not written is the one that stood there. -/
theorem unwritten {before after : Table} {i : Fin 8} (hused : after[i].used = true)
    (h : written before after i = false) : after[i] = before[i] := by
  rw [written, hused, Bool.true_and] at h
  simpa using h

/-- The deadlines stay right when every new record gets the lifetime from now. -/
theorem Stamped.step {before after : Table} {stamps : Vector Nat 8} {life : UInt32} {time time' : Nat}
    (h : Stamped before stamps life time) (hle : time ≤ time')
    (hnew : ∀ i : Fin 8, written before after i = true → after[i].expires = shown time' + life) :
    Stamped after (stamped before after stamps time') life time' := by
  intro i hused
  rw [stamped_get]
  cases hw : written before after i with
  | true =>
    refine ⟨Nat.le_refl _, ?_⟩
    rw [hnew i hw, WrappedClock.shown_add]
    rfl
  | false =>
    have hsame := unwritten hused hw
    rw [hsame] at hused ⊢
    obtain ⟨hborn, hexpires⟩ := h i hused
    exact ⟨Nat.le_trans hborn hle, hexpires⟩

/-! ## What a call does to the table of duplicates -/

theorem purged_get (table : Table) (now : UInt32) (i : Fin 8) :
    (purged table now)[i] = if reached now table[i].expires then { table[i] with used := false } else table[i] := by
  simp [purged]

/-- A record that survives a purge was there and counts. -/
theorem purged_used {table : Table} {now : UInt32} {i : Fin 8} (h : (purged table now)[i].used = true) :
    (purged table now)[i] = table[i] ∧ reached now table[i].expires = false := by
  rw [purged_get] at h ⊢
  by_cases hr : reached now table[i].expires = true
  · rw [if_pos hr] at h
    cases h
  · exact ⟨if_neg hr, Bool.eq_false_iff.mpr hr⟩

theorem purged_of_live {table : Table} {now : UInt32} {i : Fin 8} (h : reached now table[i].expires = false) :
    (purged table now)[i] = table[i] := by
  rw [purged_get, h]
  simp

theorem known_iff (table : Table) (p : Packet) :
    known table p.nwk.source p.aps.counter p.aps.type = true ↔
      ∃ i : Fin 8, table[i].used = true ∧ table[i].identity = identityOf p := by
  simp [known, Entry.identity, identityOf, and_assoc]

/-- A new record takes an unused slot, unless all are used. -/
theorem victim_cases {table : Table} {now : UInt32} {slot : Fin 8} (hslot : victim table now = slot) :
    table[slot].used = false ∨ ∀ i : Fin 8, table[i].used = true := by
  unfold victim at hslot
  cases h : (List.finRange 8).foldl (fun slot i => if table[i].used then slot else some i) none with
  | some found =>
    rw [h] at hslot
    cases hslot
    exact .inl (foldl_free (fun i => table[i].used) _ none (by simp) found h)
  | none =>
    have hfull := (foldl_full (fun i => table[i].used) _ none h).2
    exact .inr fun i => hfull i (List.mem_finRange i)

theorem accepted_victim (table : Table) (p : Packet) (now life : UInt32) :
    (accepted table p now life)[victim (purged table now) now] = Entry.of p (now + life) := by
  simp [accepted]

theorem accepted_other (table : Table) (p : Packet) (now life : UInt32) (i : Fin 8)
    (h : i ≠ victim (purged table now) now) : (accepted table p now life)[i] = (purged table now)[i] := by
  simp only [accepted, Fin.getElem_fin]
  exact Vector.getElem_set_ne _ _ fun he => h (Fin.ext he.symm)

/-- What a call makes of the table of duplicates. -/
inductive Admits (l : Layer) (c : Call) (l' : Layer) : Prop where
  | keeps (hnone : ordinary l c l' = none) (hsame : l'.duplicate = l.duplicate)
  | purges (hnone : ordinary l c l' = none) (hpurged : l'.duplicate = purged l.duplicate l'.last)
  | accepts (npdu : Bytes) (now : UInt32) (r : SecurityKeys.Received) (hc : c = .receive npdu now (.ok r))
      (hnow : l'.last = now) (hcontrol : isControl r = false) (hsome : ordinary l c l' = some r)
      (hnew : known (purged l.duplicate now) r.packet.nwk.source r.packet.aps.counter r.packet.aps.type = false)
      (haccepted : l'.duplicate = accepted l.duplicate r.packet now l.duplicateTime)

theorem perform_admits (l : Layer) (c : Call) : Admits l c (perform link build l c).2 := by
  by_cases hc : ∃ npdu now admitted, c = .receive npdu now admitted
  · obtain ⟨npdu, now, admitted, rfl⟩ := hc
    simp only [perform]
    rcases advance_cases l.toTransport now with ⟨-, h⟩ | ⟨hnow, -⟩
    · have hsame : (receive l npdu now admitted).2 = l := by
        unfold receive
        simp only [h, ne_eq, reduceCtorEq, not_false_eq_true, if_true]
      rw [hsame]
      refine .keeps ?_ rfl
      cases admitted <;> simp [ordinary, published]
    have hheard := receive_heard l npdu now admitted hnow
    generalize (receive l npdu now admitted).1 = result at hheard
    generalize (receive l npdu now admitted).2 = after at hheard ⊢
    cases hheard with
    | refused _ _ hs hready _ =>
      refine .keeps ?_ hs.duplicate
      cases admitted with
      | error e => rfl
      | ok r => simp [ordinary, published, hready]
    | repeated _ _ _ _ _ _ _ =>
      refine .keeps ?_ rfl
      cases admitted <;> simp [ordinary, published]
    | crowded _ _ _ _ =>
      refine .keeps ?_ rfl
      cases admitted <;> simp [ordinary, published]
    | delivered r hr slot hslot hready hreply =>
      subst hr
      have hfree : l.receiveReady = false := hready
      have hsame : l.duplicate = (recorded { l with last := now } slot r.packet now).duplicate := by
        cases slot <;> rfl
      have hidle : (recorded { l with last := now } slot r.packet now).receiveReady = false := by
        cases slot <;> exact hready
      have hquiet : (recorded { l with last := now } slot r.packet now).reply = false := by
        cases slot <;> exact hreply
      have htime : (recorded { l with last := now } slot r.packet now).duplicateTime = l.duplicateTime := by
        cases slot <;> rfl
      have hlast : (deliver (recorded { l with last := now } slot r.packet now) r now).2.last = now := by
        rw [(deliver_other _ r now).2.2.2]
        cases slot <;> rfl
      have hdelivered := deliver_delivered (recorded { l with last := now } slot r.packet now) r now
      generalize recorded { l with last := now } slot r.packet now = m at *
      generalize (deliver m r now).1 = result at hdelivered
      generalize (deliver m r now).2 = after at hdelivered hlast ⊢
      cases hdelivered with
      | dropped _ _ hs hkeep _ =>
        refine .keeps ?_ (hs.duplicate.trans hsame.symm)
        simp [ordinary, published, hkeep, hidle]
      | control _ hs hcontrol =>
        refine .keeps ?_ (hs.duplicate.trans hsame.symm)
        simp [ordinary, published, hcontrol]
      | filtered n hs hkeep hsilent _ hcontrol =>
        have hfiltered := filter_filtered n r now
        generalize (filter n r now).1 = answer at hfiltered
        generalize (filter n r now).2 = after at hfiltered hlast ⊢
        cases hfiltered with
        | full _ hd hbusy => simp [hkeep, hsilent, hidle, hquiet] at hbusy
        | duplicate _ hd _ hready' _ =>
          refine .purges ?_ ?_
          · simp [ordinary, published, hready', hkeep, hidle]
          · rw [hd, hlast, hs.duplicate, hsame]
        | accepted _ hd hknown hready' =>
          rw [hs.duplicate, ← hsame] at hknown hd
          rw [hs.duplicateTime, htime] at hd
          refine .accepts npdu now r rfl hlast hcontrol ?_ hknown hd
          simp [ordinary, published, hfree, hready', hcontrol]
  · refine .keeps ?_ (perform_duplicate l c fun npdu now admitted h => hc ⟨npdu, now, admitted, h⟩)
    cases c <;> first | rfl | exact absurd ⟨_, _, _, rfl⟩ hc

/-- Where a new record stands and what it says. -/
theorem Admits.written {l l' : Layer} {c : Call} (h : Admits l c l') (i : Fin 8)
    (hw : written l.duplicate l'.duplicate i = true) :
    ∃ r, ordinary l c l' = some r ∧ l'.duplicate[i] = Entry.of r.packet (l'.last + l.duplicateTime) := by
  have hboth : l'.duplicate[i].used = true ∧ l'.duplicate[i] ≠ l.duplicate[i] := by
    simpa only [NwkAps.written, Bool.and_eq_true, bne_iff_ne] using hw
  cases h with
  | keeps _ hsame => exact absurd (by rw [hsame]) hboth.2
  | purges _ hpurged =>
    have hused := hboth.1
    rw [hpurged] at hused
    exact absurd (by rw [hpurged, (purged_used hused).1]) hboth.2
  | accepts npdu now r _ hnow _ hsome _ haccepted =>
    refine ⟨r, hsome, ?_⟩
    rw [haccepted, hnow]
    by_cases hi : i = victim (purged l.duplicate now) now
    · subst hi
      exact accepted_victim _ _ _ _
    · have hused := hboth.1
      have hother := accepted_other l.duplicate r.packet now l.duplicateTime i hi
      rw [haccepted, hother] at hused
      exact absurd (by rw [haccepted, hother, (purged_used hused).1]) hboth.2

/-- A used record was there before, or is new. -/
theorem Admits.distinct {l l' : Layer} {c : Call} (h : Admits l c l')
    (hd : ∀ i j : Fin 8, l.duplicate[i].used = true → l.duplicate[j].used = true →
      l.duplicate[i].identity = l.duplicate[j].identity → i = j) (i j : Fin 8)
    (hi : l'.duplicate[i].used = true) (hj : l'.duplicate[j].used = true)
    (hid : l'.duplicate[i].identity = l'.duplicate[j].identity) : i = j := by
  have hpurge : ∀ now, (purged l.duplicate now)[i].used = true → (purged l.duplicate now)[j].used = true →
      (purged l.duplicate now)[i].identity = (purged l.duplicate now)[j].identity → i = j := by
    intro now hi hj hid
    have hi' := (purged_used hi).1
    have hj' := (purged_used hj).1
    rw [hi', hj'] at hid
    exact hd i j (hi' ▸ hi) (hj' ▸ hj) hid
  cases h with
  | keeps _ hsame =>
    rw [hsame] at hi hj hid
    exact hd i j hi hj hid
  | purges _ hpurged =>
    rw [hpurged] at hi hj hid
    exact hpurge _ hi hj hid
  | accepts npdu now r _ _ _ _ hnew haccepted =>
    rw [haccepted] at hi hj hid
    -- Nothing that survived the purge has the identity of the new record.
    have hother : ∀ k : Fin 8, (purged l.duplicate now)[k].used = true →
        (purged l.duplicate now)[k].identity ≠ identityOf r.packet := by
      intro k hk heq
      rw [(known_iff _ _).mpr ⟨k, hk, heq⟩] at hnew
      cases hnew
    have hvictim := accepted_victim l.duplicate r.packet now l.duplicateTime
    by_cases hvi : i = victim (purged l.duplicate now) now <;> by_cases hvj : j = victim (purged l.duplicate now) now
    · exact hvi.trans hvj.symm
    · subst hvi
      rw [accepted_other _ _ _ _ j hvj] at hj hid
      rw [hvictim] at hid
      exact absurd hid.symm (hother j hj)
    · subst hvj
      rw [accepted_other _ _ _ _ i hvi] at hi hid
      rw [hvictim] at hid
      exact absurd hid (hother i hi)
    · rw [accepted_other _ _ _ _ i hvi] at hi hid
      rw [accepted_other _ _ _ _ j hvj] at hj hid
      exact hpurge now hi hj hid

/-! ## One call -/

theorem Called.written {l l' : Layer} (h : Called l l') (i : Fin 8)
    (hw : NwkAps.written l.broadcast l'.broadcast i = true) : l'.broadcast[i].expires = l'.last + l.broadcastTime := by
  have hne : l'.broadcast[i] ≠ l.broadcast[i] := by
    have := hw
    simp only [NwkAps.written, Bool.and_eq_true, bne_iff_ne] at this
    exact this.2
  rcases h.broadcast with hsame | ⟨slot, source, sequence, -, hput⟩
  · exact absurd (by rw [hsame]) hne
  · rw [hput] at hne ⊢
    by_cases hi : i = slot
    · subst hi
      simp [broadcastPut]
    · refine absurd ?_ hne
      simp only [broadcastPut, Fin.getElem_fin]
      exact Vector.getElem_set_ne _ _ fun he => hi (Fin.ext he.symm)

/-- The slots that count after a call were counted before it or are new. -/
theorem countP_written (before after : Table) (stamps : Vector Nat 8) (time : Nat) (p : Nat → Bool) :
    (List.finRange 8).countP (fun i => after[i].used && p (stamped before after stamps time)[i]) ≤
      (List.finRange 8).countP (fun i => before[i].used && p stamps[i]) +
        (if p time then (List.finRange 8).countP (written before after) else 0) := by
  have hsplit : ∀ is : List (Fin 8),
      is.countP (fun i => after[i].used && p (stamped before after stamps time)[i]) ≤
        is.countP (fun i => before[i].used && p stamps[i]) +
          (if p time then is.countP (written before after) else 0) := by
    intro is
    induction is with
    | nil => simp
    | cons i is ih =>
      rw [List.countP_cons, List.countP_cons, List.countP_cons, stamped_get]
      have hone : (if (after[i].used && p (if written before after i then time else stamps[i])) = true then 1 else 0) ≤
          (if (before[i].used && p stamps[i]) = true then 1 else 0) +
            (if p time then (if written before after i = true then 1 else 0) else 0) := by
        cases hu : after[i].used with
        | false => simp
        | true =>
          cases hw : written before after i with
          | true => cases hp : p time <;> simp [hp]
          | false =>
            rw [← unwritten hu hw, hu]
            simp
      split at ih <;> rename_i hp <;> simp only [hp, if_true] at hone ⊢
      · omega
      · simp only [Bool.false_eq_true, if_false] at hone ⊢
        omega
  exact hsplit _

theorem countP_broadcasts (before after : Table) (time : Nat) (p : Nat → Bool) :
    ((broadcasts before after).map fun b => (time, b)).countP (fun e => p e.1) =
      if p time then (List.finRange 8).countP (written before after) else 0 := by
  rw [List.countP_map]
  split
  · rename_i hp
    have hall : (broadcasts before after).countP ((fun e => p e.1) ∘ fun b => (time, b)) =
        (broadcasts before after).length := List.countP_eq_length.mpr fun b _ => hp
    rw [hall]
    simp [broadcasts, List.countP_eq_length_filter]
  · rename_i hp
    exact List.countP_eq_zero.mpr fun b _ => hp

theorem Sound.call {s : Timed} (h : Sound s) (c : Call) : Sound (observe link build s c).2 := by
  have hcalled := @perform_called link build s.layer c
  have hadmits := @perform_admits link build s.layer c
  simp only [observe]
  generalize (perform link build s.layer c).2 = l' at *
  have hle : s.time ≤ s.time + (l'.last - s.layer.last).toNat := Nat.le_add_right _ _
  have hclock : shown (s.time + (l'.last - s.layer.last).toNat) = l'.last := WrappedClock.shown_advance h.clock
  generalize s.time + (l'.last - s.layer.last).toNat = time at *
  constructor
  case clock => exact hclock
  case lifetime => exact hcalled.duplicateTime ▸ h.lifetime
  case duplicateTime => exact hcalled.duplicateTime ▸ h.duplicateTime
  case broadcastTime => exact hcalled.broadcastTime ▸ h.broadcastTime
  case duplicates =>
    rw [hcalled.duplicateTime]
    refine h.duplicates.step hle fun i hw => ?_
    obtain ⟨r, -, hentry⟩ := hadmits.written i hw
    rw [hentry, hclock]
    rfl
  case broadcasts =>
    rw [hcalled.broadcastTime]
    refine h.broadcasts.step hle fun i hw => ?_
    rw [hcalled.written i hw, hclock]
  case accepted =>
    intro i hused
    rw [stamped_get]
    cases hw : written s.layer.duplicate l'.duplicate i with
    | true =>
      obtain ⟨r, hr, hentry⟩ := hadmits.written i hw
      refine List.mem_append_right _ ?_
      rw [hr, hentry]
      exact List.mem_cons_self
    | false =>
      have hsame : l'.duplicate[i] = s.layer.duplicate[i] := unwritten hused hw
      simp only [hsame] at hused ⊢
      exact List.mem_append_left _ (h.accepted i hused)
  case heard =>
    intro i hused
    rw [stamped_get]
    cases hw : written s.layer.broadcast l'.broadcast i with
    | true =>
      refine List.mem_append_right _ (List.mem_map.mpr ⟨_, ?_, rfl⟩)
      exact List.mem_map.mpr ⟨i, List.mem_filter.mpr ⟨List.mem_finRange i, hw⟩, rfl⟩
    | false =>
      have hsame : l'.broadcast[i] = s.layer.broadcast[i] := unwritten hused hw
      simp only [hsame] at hused ⊢
      exact List.mem_append_left _ (h.heard i hused)
  case counted =>
    intro p
    rw [List.countP_append, countP_broadcasts]
    exact (countP_written _ _ _ _ p).trans (Nat.add_le_add_right (h.counted p) _)
  case distinct => exact hadmits.distinct h.distinct

/-! ## Truthful answers -/

theorem recorded_duplicate (l : Layer) (slot : Option (Fin 8)) (p : Packet) (now : UInt32) :
    (recorded l slot p now).duplicate = l.duplicate := by
  cases slot <;> rfl

theorem acknowledge_endpoint {l m : Layer} (p : Packet) (secured : Bool) (h : m.endpoint = l.endpoint) :
    (acknowledge m p secured).acknowledgment = (acknowledge l p secured).acknowledgment := by
  simp [acknowledge, h]

theorem broadcastHint_of {npdu : Bytes} {hint : NwkFrame.Info} (h : EdWire.readNwk npdu = .ok hint)
    (hcast : isBroadcast hint.header.destination = true) :
    broadcastHint npdu = some (hint.header.source, hint.header.sequence) := by
  simp [broadcastHint, h, hcast]

theorem Timed.le_at (s : Timed) (now : UInt32) : s.time ≤ s.at now := Nat.le_add_right _ _

theorem Sound.at_clock {s : Timed} (h : Sound s) (now : UInt32) : shown (s.at now) = now :=
  WrappedClock.shown_advance h.clock

/-- A filtered frame is called a duplicate only while its identity is recent. -/
theorem Sound.filtered {s : Timed} (h : Sound s) {r : SecurityKeys.Received} {now : UInt32} {m after : Layer}
    (hyoung : Young s.layer.duplicate s.duplicateAt s.layer.duplicateTime (s.at now))
    (hm : m.duplicate = s.layer.duplicate) (hendpoint : m.endpoint = s.layer.endpoint) {result : Result}
    (hready : m.receiveReady = false) (hreply : m.reply = false) (hf : Filtered m r now result after) :
    result ≠ .full ∧ (result = .duplicate → ∃ born, (born, identityOf r.packet) ∈ s.accepted ∧
      recent s.layer.duplicateTime (s.at now) born = true ∧
      (asksAck r.packet = true → after.reply = true ∧
        after.acknowledgment = (acknowledge s.layer r.packet r.apsSecured).acknowledgment)) := by
  cases hf with
  | full _ _ hbusy => simp [hready, hreply] at hbusy
  | accepted _ _ _ _ => exact ⟨by simp, by simp⟩
  | duplicate _ _ hknown _ hack =>
    refine ⟨by simp, fun _ => ?_⟩
    rw [hm] at hknown
    obtain ⟨i, hused, hid⟩ := (known_iff _ _).mp hknown
    obtain ⟨hsame, hlive⟩ := purged_used hused
    rw [hsame] at hused hid
    refine ⟨s.duplicateAt[i], ?_, ?_, fun hasks => ?_⟩
    · rw [← hid]
      exact h.accepted i hused
    · refine h.duplicates.recent (s.le_at now) h.duplicateTime hyoung i ?_
      rw [h.at_clock now]
      simp only [Entry.live, hused, hlive, Bool.not_false, Bool.and_self]
    · rw [← acknowledge_endpoint r.packet r.apsSecured hendpoint]
      exact hack hasks

theorem Sound.answers {s : Timed} (h : Sound s) (c : Call) (hfresh : Fresh s c) : Answers s c := by
  cases c with
  | receive npdu now admitted =>
    obtain ⟨hyoung, hyoung'⟩ := hfresh
    simp only [Answers]
    rcases advance_cases s.layer.toTransport now with ⟨-, hadvance⟩ | ⟨hnow, -⟩
    · have hclock : (receive s.layer npdu now admitted).1 = .clock := by
        unfold receive
        simp only [hadvance, ne_eq, reduceCtorEq, not_false_eq_true, if_true]
      rw [hclock]
      exact ⟨by simp, by simp⟩
    have hheard := receive_heard s.layer npdu now admitted hnow
    have hcount : ∀ i : Fin 8, (broadcastHint npdu).isSome = true → s.layer.broadcast[i].live now = true →
        recent s.layer.broadcastTime (s.at now) s.broadcastAt[i] = true := by
      intro i hsome hlive
      refine h.broadcasts.recent (s.le_at now) h.broadcastTime (hyoung' hsome) i ?_
      rwa [h.at_clock now]
    generalize (receive s.layer npdu now admitted).1 = result at hheard ⊢
    generalize (receive s.layer npdu now admitted).2 = after at hheard ⊢
    cases hheard with
    | refused _ _ _ _ hresult =>
      refine ⟨fun hd => ?_, fun hf hready hreply => ?_⟩
      · simp [hd] at hresult
      · subst hf
        simp [hready, hreply] at hresult
    | repeated hint hnpdu hcast i hlive hsource hcounter =>
      have hsome := broadcastHint_of hnpdu hcast
      refine ⟨fun _ => .inl ⟨_, _, s.broadcastAt[i], hsome, ?_, ?_⟩, by simp⟩
      · rw [← hsource, ← hcounter]
        simp only [Entry.live, Bool.and_eq_true] at hlive
        exact h.heard i hlive.1
      · exact hcount i (by simp [hsome]) hlive
    | crowded hint hnpdu hcast hlive =>
      have hsome := broadcastHint_of hnpdu hcast
      refine ⟨by simp, fun _ _ _ => ?_⟩
      refine Nat.le_trans ?_ (h.counted fun born => recent s.layer.broadcastTime (s.at now) born)
      -- All eight records count, so all eight are recent.
      rw [List.countP_eq_length.mpr ?_]
      · simp
      · intro i _
        have hi := hlive i
        have hrecent := hcount i (by simp [hsome]) hi
        simp only [Entry.live, Bool.and_eq_true] at hi
        simp only [Bool.and_eq_true]
        exact ⟨hi.1, hrecent⟩
    | delivered r hr slot hslot hready hreply =>
      have hdelivered := deliver_delivered (recorded { s.layer with last := now } slot r.packet now) r now
      have hsame := recorded_duplicate { s.layer with last := now } slot r.packet now
      have hidle : (recorded { s.layer with last := now } slot r.packet now).receiveReady = false := by
        cases slot <;> exact hready
      have hquiet : (recorded { s.layer with last := now } slot r.packet now).reply = false := by
        cases slot <;> exact hreply
      have hend : (recorded { s.layer with last := now } slot r.packet now).endpoint = s.layer.endpoint := by
        cases slot <;> rfl
      generalize recorded { s.layer with last := now } slot r.packet now = m at *
      generalize (deliver m r now).1 = result at hdelivered ⊢
      generalize (deliver m r now).2 = after at hdelivered ⊢
      cases hdelivered with
      | dropped _ _ _ _ hresult =>
        refine ⟨fun hd => ?_, fun hf _ _ => ?_⟩
        · simp [hd] at hresult
        · simp [hf] at hresult
      | control _ _ _ => exact ⟨by simp, by simp⟩
      | filtered n hs hkeep hsilent hendpoint hcontrol =>
        have hf := h.filtered (hyoung (by simp [hr, filters, hcontrol])) (hs.duplicate.trans hsame)
          (hendpoint.trans hend) (hkeep.trans hidle) (hsilent.trans hquiet) (filter_filtered n r now)
        refine ⟨fun hd => ?_, fun hfull _ _ => absurd hfull hf.1⟩
        obtain ⟨born, hborn⟩ := hf.2 hd
        exact .inr ⟨r, born, hr, hborn⟩
  | _ => trivial

/-! ## One publication for each identity -/

/-- Every recent publication still has its record. -/
def Kept (s : Timed) : Prop :=
  ∀ born id, (born, id) ∈ s.accepted → recent s.layer.duplicateTime s.time born = true →
    ∃ i : Fin 8, s.layer.duplicate[i].used = true ∧ s.layer.duplicate[i].identity = id ∧ born ≤ s.duplicateAt[i]

theorem recent_mono {life : UInt32} {time time' born born' : Nat} (h : recent life time' born = true)
    (htime : time ≤ time') (hborn : born ≤ born') : recent life time born' = true := by
  simp only [recent, decide_eq_true_eq] at h ⊢
  omega

/-- The record of a recent publication survives a purge. -/
theorem Kept.survives {s : Timed} (h : Kept s) (hs : Sound s) {time : Nat} (hle : s.time ≤ time) {born : Nat}
    {id : Identity} (hmem : (born, id) ∈ s.accepted) (hrecent : recent s.layer.duplicateTime time born = true) :
    ∃ i : Fin 8, (purged s.layer.duplicate (shown time))[i] = s.layer.duplicate[i] ∧
      s.layer.duplicate[i].used = true ∧ s.layer.duplicate[i].identity = id ∧ born ≤ s.duplicateAt[i] := by
  obtain ⟨i, hused, hid, hborn⟩ := h born id hmem (recent_mono hrecent hle (Nat.le_refl _))
  have hlive := hs.duplicates.live hle hs.duplicateTime i hused (recent_mono hrecent (Nat.le_refl _) hborn)
  exact ⟨i, purged_of_live hlive, hused, hid, hborn⟩

theorem Kept.once {s : Timed} (h : Kept s) (hs : Sound s) (c : Call) : Once link build s c := by
  intro r hr born hmem
  have hadmits := @perform_admits link build s.layer c
  have hclock : shown (observe link build s c).2.time = (perform link build s.layer c).2.last :=
    WrappedClock.shown_advance hs.clock
  have hle : s.time ≤ (observe link build s c).2.time := Nat.le_add_right _ _
  simp only [observe] at hr
  cases hadmits with
  | keeps hnone _ => simp [hnone] at hr
  | purges hnone _ => simp [hnone] at hr
  | accepts npdu now q _ hnow _ hsome hnew _ =>
    have hq : q = r := by simpa [hsome] using hr
    subst hq
    by_contra hrecent
    obtain ⟨i, hsame, hused, hid, -⟩ := h.survives hs hle hmem (by simpa using hrecent)
    rw [hclock, hnow] at hsame
    rw [(known_iff _ _).mpr ⟨i, by rw [hsame]; exact hused, by rw [hsame]; exact hid⟩] at hnew
    cases hnew

/-- A full table and a new frame make nine identities. -/
theorem nine_identities {s : Timed} (hs : Sound s) {time : Nat} (hle : s.time ≤ time)
    (hyoung : Young s.layer.duplicate s.duplicateAt s.layer.duplicateTime time)
    (hall : ∀ i : Fin 8, (purged s.layer.duplicate (shown time))[i].used = true) {p : Packet}
    (hnew : known (purged s.layer.duplicate (shown time)) p.nwk.source p.aps.counter p.aps.type = false)
    {log : List (Nat × Identity)} (hlog : s.accepted ++ [(time, identityOf p)] ⊆ log) :
    9 ≤ (((log.filter fun e => recent s.layer.duplicateTime time e.1).map Prod.snd).dedup).length := by
  have hsame : ∀ i : Fin 8, s.layer.duplicate[i].used = true ∧ reached (shown time) s.layer.duplicate[i].expires = false ∧
      s.layer.duplicate[i].identity ≠ identityOf p := by
    intro i
    obtain ⟨hkeep, hlive⟩ := purged_used (hall i)
    refine ⟨hkeep ▸ hall i, hlive, fun hid => ?_⟩
    rw [(known_iff _ _).mpr ⟨i, hall i, by rw [hkeep]; exact hid⟩] at hnew
    cases hnew
  let nine := ((List.finRange 8).map fun i => s.layer.duplicate[i].identity) ++ [identityOf p]
  have hnodup : nine.Nodup := by
    refine List.nodup_append.mpr ⟨?_, List.nodup_singleton _, fun a ha b hb => ?_⟩
    · refine List.Nodup.map_on (fun i _ j _ hid => ?_) (List.nodup_finRange 8)
      exact hs.distinct i j (hsame i).1 (hsame j).1 hid
    · obtain ⟨i, -, rfl⟩ := List.mem_map.mp ha
      rw [List.mem_singleton.mp hb]
      exact (hsame i).2.2
  have hsub : nine ⊆ ((log.filter fun e => recent s.layer.duplicateTime time e.1).map Prod.snd).dedup := by
    intro id hid
    rw [List.mem_dedup]
    rcases List.mem_append.mp hid with hid | hid
    · obtain ⟨i, -, rfl⟩ := List.mem_map.mp hid
      have hrecent := hs.duplicates.recent hle hs.duplicateTime hyoung i (by simp only [Entry.live, hsame i]; rfl)
      exact List.mem_map.mpr ⟨(s.duplicateAt[i], s.layer.duplicate[i].identity), List.mem_filter.mpr
        ⟨hlog (List.mem_append_left _ (hs.accepted i (hsame i).1)), hrecent⟩, rfl⟩
    · rw [List.mem_singleton.mp hid]
      refine List.mem_map.mpr ⟨(time, identityOf p), List.mem_filter.mpr ⟨hlog (by simp), ?_⟩, rfl⟩
      simp only [recent, decide_eq_true_eq]
      exact Nat.lt_add_of_pos_right hs.lifetime
  have hlength := (hnodup.subperm hsub).length_le
  simpa [nine] using hlength

/-- A new record is a change of its slot. -/
theorem written_victim {s : Timed} (hs : Sound s) {time : Nat} (hle : s.time ≤ time) {p : Packet}
    (hnew : known (purged s.layer.duplicate (shown time)) p.nwk.source p.aps.counter p.aps.type = false) {slot : Fin 8}
    {after : Table} (hafter : after[slot] = Entry.of p (shown time + s.layer.duplicateTime)) :
    written s.layer.duplicate after slot = true := by
  by_contra hw
  have hsame : after[slot] = s.layer.duplicate[slot] :=
    unwritten (by rw [hafter]; rfl) (Bool.eq_false_iff.mpr hw)
  rw [hafter] at hsame
  have hlive : reached (shown time) s.layer.duplicate[slot].expires = false := by
    have h := reached_stamp time time s.layer.duplicateTime (Nat.le_refl _) hs.duplicateTime (by omega)
    rw [← hsame]
    simp only [Entry.of, WrappedClock.shown_add, h, recent]
    simpa using hs.lifetime
  have hkeep := purged_of_live hlive
  rw [(known_iff _ _).mpr ⟨slot, by rw [hkeep, ← hsame]; rfl, by rw [hkeep, ← hsame]; rfl⟩] at hnew
  cases hnew

theorem Kept.call {s : Timed} (h : Kept s) (hs : Sound s) (c : Call) (hfresh : Fresh s c) (hfew : Few link build s c) :
    Kept (observe link build s c).2 := by
  have hcalled := @perform_called link build s.layer c
  have hadmits := @perform_admits link build s.layer c
  have hclock : shown (s.time + ((perform link build s.layer c).2.last - s.layer.last).toNat) =
    (perform link build s.layer c).2.last := WrappedClock.shown_advance hs.clock
  have hle : s.time ≤ s.time + ((perform link build s.layer c).2.last - s.layer.last).toNat := Nat.le_add_right _ _
  unfold Few at hfew
  simp only [observe] at hfew ⊢
  generalize (perform link build s.layer c).2 = l' at *
  intro born id hmem hrecent
  rw [hcalled.duplicateTime] at hrecent
  -- A record that stays as it was keeps its stamp.
  have hstay : ∀ i : Fin 8, l'.duplicate[i] = s.layer.duplicate[i] → s.layer.duplicate[i].used = true →
      s.layer.duplicate[i].identity = id → born ≤ s.duplicateAt[i] → ∃ i : Fin 8, l'.duplicate[i].used = true ∧
        l'.duplicate[i].identity = id ∧ born ≤ (stamped s.layer.duplicate l'.duplicate s.duplicateAt
          (s.time + (l'.last - s.layer.last).toNat))[i] := by
    intro i hsame hused hid hborn
    have hw : written s.layer.duplicate l'.duplicate i = false := by simp only [written, hsame]; simp
    refine ⟨i, by rw [hsame]; exact hused, by rw [hsame]; exact hid, ?_⟩
    rw [stamped_get, hw]
    exact hborn
  cases hadmits with
  | keeps hnone hsame =>
    simp only [hnone, Option.toList_none, List.map_nil, List.append_nil] at hmem
    obtain ⟨i, -, hused, hid, hborn⟩ := h.survives hs hle hmem hrecent
    exact hstay i (by rw [hsame]) hused hid hborn
  | purges hnone hpurged =>
    simp only [hnone, Option.toList_none, List.map_nil, List.append_nil] at hmem
    obtain ⟨i, hkeep, hused, hid, hborn⟩ := h.survives hs hle hmem hrecent
    rw [hclock] at hkeep
    exact hstay i (by rw [hpurged]; exact hkeep) hused hid hborn
  | accepts npdu now r hc hnow hcontrol hsome hnew haccepted =>
    subst hnow hc
    have hyoung := hfresh.1 (by simp [filters, hcontrol])
    simp only [Timed.at] at hyoung
    simp only [hsome, Option.toList_some, List.map_cons, List.map_nil] at hmem hfew
    rw [← hclock] at hnew
    have hfree : (purged s.layer.duplicate l'.last)[victim (purged s.layer.duplicate l'.last) l'.last].used = false := by
      have hslot : victim (purged s.layer.duplicate l'.last) l'.last = _ := rfl
      rcases victim_cases hslot with hfree | hall
      · exact hfree
      · rw [← hclock] at hall
        have hnine := nine_identities hs hle hyoung hall hnew (List.Subset.refl _)
        simp only [identities] at hfew
        rw [hcalled.duplicateTime] at hfew
        omega
    rcases List.mem_append.mp hmem with hmem | hmem
    · obtain ⟨i, hkeep, hused, hid, hborn⟩ := h.survives hs hle hmem hrecent
      rw [hclock] at hkeep
      have hi : i ≠ victim (purged s.layer.duplicate l'.last) l'.last := by
        intro hi
        subst hi
        rw [hkeep, hused] at hfree
        cases hfree
      refine hstay i ?_ hused hid hborn
      rw [haccepted, accepted_other _ _ _ _ i hi]
      exact hkeep
    · obtain ⟨slot, hvictim⟩ : ∃ slot : Fin 8,
          l'.duplicate[slot] = Entry.of r.packet (l'.last + s.layer.duplicateTime) := by
        rw [haccepted]
        exact ⟨_, accepted_victim s.layer.duplicate r.packet l'.last s.layer.duplicateTime⟩
      have hwritten : written s.layer.duplicate l'.duplicate slot = true := by
        refine written_victim hs hle hnew ?_
        rw [hclock]
        exact hvictim
      obtain ⟨rfl, rfl⟩ := Prod.mk.inj (List.mem_singleton.mp hmem)
      refine ⟨slot, by rw [hvictim]; rfl, by rw [hvictim]; rfl, ?_⟩
      rw [stamped_get, hwritten]
      exact Nat.le_refl _

/-! ## Every run -/

theorem duplicateTimeOf_bounds (ackWait : UInt32) (h : ackWait < 0x10000000) :
    0 < (duplicateTimeOf link ackWait).toNat ∧ (duplicateTimeOf link ackWait).toNat < 2 ^ 31 := by
  have hwait : ackWait.toNat < 0x10000000 := UInt32.lt_iff_toNat_lt.mp h
  have hfloor : duplicateFloor.toNat = 1000000 := rfl
  have hlife : txLifetime.toNat = 500000 := rfl
  have hstop : (MacTx.stopSymbols link).toNat ≤ 6144 := by cases link <;> decide
  have hfour : (4 : UInt32).toNat = 4 := rfl
  unfold duplicateTimeOf
  simp only
  split
  · simp only [hfloor]
    omega
  · rename_i hlong
    rw [UInt32.lt_iff_toNat_lt, hfloor] at hlong
    rw [UInt32.toNat_mul, UInt32.toNat_add, UInt32.toNat_add, hlife, hfour] at hlong ⊢
    omega

/-- A new layer has no records. -/
theorem init_sound {owner : MacTx.IntervalTx} {config : Config} {now : UInt32} {l : Layer}
    (h : init link owner config now = .ok l) : Sound (start l) ∧ Kept (start l) := by
  unfold init at h
  split at h
  · cases h
  rename_i hvalid
  split at h
  · cases h
  cases h
  simp only [Config.valid, Bool.not_eq_true', Bool.not_eq_false, Bool.and_eq_true, decide_eq_true_eq] at hvalid
  obtain ⟨⟨⟨-, hwait⟩, -⟩, hcast⟩ := hvalid
  obtain ⟨hpos, hlt⟩ := @duplicateTimeOf_bounds link config.ackWait hwait
  refine ⟨?_, fun born id hmem => by cases hmem⟩
  constructor
  case clock => exact WrappedClock.shown_of_toNat now
  case lifetime => exact hpos
  case duplicateTime => exact hlt
  case broadcastTime => exact UInt32.lt_iff_toNat_lt.mp hcast
  case counted =>
    intro p
    simp [start, Entry.zero]
  all_goals simp [start, Entry.zero, Stamped]

/-- As long as no frame meets a record that expired half a range ago, every answer of the tables is the truth,
and while at most eight identities are recent, no identity is published again. -/
theorem records_truthful (owner : MacTx.IntervalTx) (config : Config) (now : UInt32) (l : Layer)
    (hinit : init link owner config now = .ok l) (calls : List Call)
    (hfresh : Runs.Meets (observe link build) Fresh (start l) calls) :
    Runs.Meets (observe link build) Answers (start l) calls ∧
      (Runs.Meets (observe link build) (Few link build) (start l) calls →
        Runs.Meets (observe link build) (Once link build) (start l) calls) := by
  obtain ⟨hsound, hkept⟩ := @init_sound link owner config now l hinit
  refine ⟨?_, fun hfew => ?_⟩
  · exact Runs.meets_imp _ _ _ Sound (fun s c h _ => h.call c) (fun s c h hf => h.answers c hf) _ hsound calls hfresh
  · have hboth := Runs.Meets.and (observe link build) hfresh hfew
    exact Runs.meets_imp _ _ _ (fun s => Sound s ∧ Kept s)
      (fun s c h hf => ⟨h.1.call c, h.2.call h.1 c hf.1 hf.2⟩) (fun s c h _ => h.2.once h.1 c) _ ⟨hsound, hkept⟩ calls hboth

/-- An acknowledgment time and a broadcast time in symbols, the profile and the endpoint. -/
def settings : Config := ⟨100000, 500000, 0x0104, 1⟩

/-- A frame of a kind with a counter and the event it means to the key owner. -/
def admittedFrame (kind counter : UInt8) (event : SecurityKeys.Event) : SecurityKeys.Received where
  packet := { Packet.zero with aps := { Packet.zero.aps with type := kind, counter := counter } }
  event := event
  apsSecured := true

/-- A frame to this device from the coordinator. -/
def unicast (sequence : UInt8) : Bytes := [0x08, 0x02, 0x34, 0x12, 0, 0, 30, sequence]

/-- A frame, its repetition, and the frame once more after its lifetime. -/
def repetition : List Call :=
  [.receive (unicast 1) 0 (.ok (admittedFrame 0 7 .data)), .take,
    .receive (unicast 2) 1000 (.ok (admittedFrame 0 7 .data)),
    .receive (unicast 3) 3000000 (.ok (admittedFrame 0 7 .data))]

theorem records_truthful_repetition :
    ∃ l, init false (MacTx.intervalInit 0 0) settings 0 = .ok l ∧
      Runs.Meets (observe false .plain) Answers (start l) repetition ∧
      Runs.Meets (observe false .plain) (Once false .plain) (start l) repetition := by
  refine ⟨_, rfl, ?_⟩
  have h := records_truthful (MacTx.intervalInit 0 0) settings 0 _ rfl repetition
    (show Runs.Meets (observe false .plain) Fresh _ _ by decide +kernel)
  exact ⟨h.1, h.2 (by decide +kernel)⟩

/-- The same key transport, secured anew, is published twice within the lifetime of a duplicate. -/
theorem transition_published_twice :
    ∃ l, init false (MacTx.intervalInit 0 0) settings 0 = .ok l ∧
      let r := admittedFrame EdWire.apsCommand 7 .networkKey
      let first := (perform false .plain l (.receive (unicast 1) 0 (.ok r))).2
      let taken := (perform false .plain first .take).2
      let second := (perform false .plain taken (.receive (unicast 2) 1000 (.ok r))).2
      published l (.receive (unicast 1) 0 (.ok r)) first = some r ∧
        published taken (.receive (unicast 2) 1000 (.ok r)) second = some r ∧ 1000 < l.duplicateTime := by
  refine ⟨_, rfl, ?_⟩
  decide +kernel

end NwkAps
