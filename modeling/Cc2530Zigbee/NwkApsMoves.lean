import Cc2530Zigbee.NwkApsStep

/-!
# What a call does to the tables of recent frames

Only a received frame and a broadcast of this device touch the tables. The
table of duplicates is purged and may take one new entry; the table of
broadcasts takes a new entry in a slot that no longer counts.
-/
namespace NwkAps

open Octets
open EdWire (Packet)
open MacTx (IntervalEvent)

variable {link : Bool} {build : Build}

/-- The tables, their times and the clock are as before. -/
structure Steady (l l' : Layer) : Prop where
  last : l'.last = l.last
  duplicate : l'.duplicate = l.duplicate
  broadcast : l'.broadcast = l.broadcast
  duplicateTime : l'.duplicateTime = l.duplicateTime
  broadcastTime : l'.broadcastTime = l.broadcastTime

theorem Steady.refl (l : Layer) : Steady l l := ⟨rfl, rfl, rfl, rfl, rfl⟩

theorem Steady.trans {a b c : Layer} (h : Steady a b) (g : Steady b c) : Steady a c :=
  ⟨g.last.trans h.last, g.duplicate.trans h.duplicate, g.broadcast.trans h.broadcast,
    g.duplicateTime.trans h.duplicateTime, g.broadcastTime.trans h.broadcastTime⟩

/-- The entry a frame leaves in the table of duplicates. -/
def Entry.of (p : Packet) (expires : UInt32) : Entry := ⟨expires, p.nwk.source, p.aps.counter, p.aps.type, true⟩

/-- The table of duplicates after a new frame. -/
def accepted (table : Table) (p : Packet) (now time : UInt32) : Table :=
  let table := purged table now
  table.set (victim table now) (Entry.of p (now + time)) (index8_lt (victim table now))

/-- At most a broadcast is recorded at a time. -/
structure Moves (l l' : Layer) (now : UInt32) : Prop where
  last : l'.last = l.last
  duplicate : l'.duplicate = l.duplicate
  duplicateTime : l'.duplicateTime = l.duplicateTime
  broadcastTime : l'.broadcastTime = l.broadcastTime
  broadcast : l'.broadcast = l.broadcast ∨
    ∃ (slot : Fin 8) (source : UInt16) (sequence : UInt8),
      (getElem l.broadcast slot (index8_lt slot)).live now = false ∧
      l'.broadcast = (broadcastPut l slot source sequence now).broadcast

theorem Steady.moves {l l' : Layer} (h : Steady l l') (now : UInt32) : Moves l l' now :=
  ⟨h.last, h.duplicate, h.duplicateTime, h.broadcastTime, .inl h.broadcast⟩

theorem Moves.steady {a b c : Layer} {now : UInt32} (h : Moves a b now) (g : Steady b c) : Moves a c now :=
  ⟨g.last.trans h.last, g.duplicate.trans h.duplicate, g.duplicateTime.trans h.duplicateTime,
    g.broadcastTime.trans h.broadcastTime, g.broadcast ▸ h.broadcast⟩

theorem Steady.then {a b c : Layer} {now : UInt32} (h : Steady a b) (g : Moves b c now) : Moves a c now where
  last := g.last.trans h.last
  duplicate := g.duplicate.trans h.duplicate
  duplicateTime := g.duplicateTime.trans h.duplicateTime
  broadcastTime := g.broadcastTime.trans h.broadcastTime
  broadcast := by
    have hg := g.broadcast
    simp only [broadcastPut, h.broadcast, h.broadcastTime] at hg ⊢
    exact hg

/-! ## The table of broadcasts -/

/-- What the search for a free slot has found so far is free. -/
theorem foldl_free (q : Fin 8 → Bool) (is : List (Fin 8)) (start : Option (Fin 8))
    (hstart : ∀ i, start = some i → q i = false) (slot : Fin 8)
    (h : is.foldl (fun slot i => if q i then slot else some i) start = some slot) : q slot = false := by
  induction is generalizing start with
  | nil => exact hstart slot h
  | cons i is ih =>
    refine ih _ (fun j hj => ?_) h
    simp only at hj
    split at hj
    · exact hstart j hj
    · rename_i hlive
      cases hj
      simpa using hlive

theorem foldl_full (q : Fin 8 → Bool) (is : List (Fin 8)) (start : Option (Fin 8))
    (h : is.foldl (fun slot i => if q i then slot else some i) start = none) :
    start = none ∧ ∀ i ∈ is, q i = true := by
  induction is generalizing start with
  | nil => exact ⟨h, by simp⟩
  | cons i is ih =>
    obtain ⟨hnone, hrest⟩ := ih _ h
    simp only at hnone
    split at hnone
    · rename_i hlive
      refine ⟨hnone, fun j hj => ?_⟩
      rcases List.mem_cons.mp hj with rfl | hj
      · exact hlive
      · exact hrest j hj
    · cases hnone

/-- What a search of the table of broadcasts answers. -/
theorem broadcastSlot_cases (table : Table) (source : UInt16) (sequence : UInt8) (now : UInt32) :
    (broadcastSlot table source sequence now = .error .duplicate ∧
      ∃ i : Fin 8, (getElem table i (index8_lt i)).live now = true ∧
        (getElem table i (index8_lt i)).source = source ∧ (getElem table i (index8_lt i)).counter = sequence) ∨
    (broadcastSlot table source sequence now = .error .full ∧
      ∀ i : Fin 8, (getElem table i (index8_lt i)).live now = true) ∨
    ∃ slot : Fin 8, broadcastSlot table source sequence now = .ok slot ∧
      (getElem table slot (index8_lt slot)).live now = false := by
  unfold broadcastSlot
  split
  · rename_i hany
    simp only [List.any_eq_true, List.mem_finRange, true_and, Bool.and_eq_true, beq_iff_eq] at hany
    obtain ⟨i, ⟨hlive, hsource⟩, hcounter⟩ := hany
    exact .inl ⟨rfl, i, hlive, hsource, hcounter⟩
  · cases hfree : freeSlot table now with
    | none =>
      have hfull := (foldl_full (fun i => table[i].live now) _ none hfree).2
      exact .inr (.inl ⟨rfl, fun i => hfull i (List.mem_finRange i)⟩)
    | some slot => exact .inr (.inr ⟨slot, rfl, foldl_free (fun i => table[i].live now) _ none (by simp) slot hfree⟩)

/-! ## Sending -/

theorem numbered_steady (l : Layer) (acknowledgment : Bool) (p : Packet) : Steady l (numbered l acknowledgment p) := by
  unfold numbered
  split <;> exact ⟨rfl, rfl, rfl, rfl, rfl⟩

theorem complete_times (t : Transport) (result : Result) (status : Except SecurityKeys.Result SecurityKeys.Status) :
    (complete t result status).duplicateTime = t.duplicateTime ∧ (complete t result status).last = t.last := by
  unfold complete
  simp only
  split
  · exact ⟨rfl, rfl⟩
  split
  · exact ⟨rfl, rfl⟩
  split <;> exact ⟨rfl, rfl⟩

theorem complete_steady (l : Layer) (result : Result) (k : Keys) :
    Steady l { l with toTransport := complete l.toTransport result k.final } :=
  ⟨(complete_times l.toTransport result k.final).2, rfl, rfl, (complete_times l.toTransport result k.final).1, rfl⟩

theorem transmitFrame_steady (l : Layer) (acknowledgment : Bool) (p : Packet) (s : SecurityKeys.Status) (npdu : Bytes)
    (now : UInt32) : Steady l (transmitFrame link build l acknowledgment p s npdu now).2 := by
  unfold transmitFrame
  split
  · exact .refl l
  split
  · exact .refl l
  simp only
  split
  · exact ⟨rfl, rfl, rfl, rfl, rfl⟩
  · split <;> exact ⟨rfl, rfl, rfl, rfl, rfl⟩

theorem recordOwn_moves (l l' : Layer) (acknowledgment : Bool) (p : Packet) (s : SecurityKeys.Status) (now : UInt32)
    (h : recordOwn l acknowledgment p s now = .ok l') : Moves l l' now := by
  unfold recordOwn at h
  split at h
  · rcases broadcastSlot_cases l.broadcast s.config.address p.nwk.sequence now with
      ⟨hs, -⟩ | ⟨hs, -⟩ | ⟨slot, hs, hfree⟩
    · simp [hs] at h
    · simp [hs] at h
    · simp only [hs, Except.ok.injEq] at h
      subst h
      exact ⟨rfl, rfl, rfl, rfl, .inr ⟨slot, _, _, hfree, rfl⟩⟩
  · cases h
    exact (Steady.refl l).moves now

theorem transmit_moves (l : Layer) (acknowledgment : Bool) (now : UInt32) (k : Keys) :
    Moves l (transmit link build l acknowledgment now k).2 now := by
  unfold transmit
  split
  · exact (Steady.refl l).moves now
  simp only
  rename_i s _
  have hnumbered := numbered_steady l acknowledgment (outbound l acknowledgment s)
  generalize numbered l acknowledgment (outbound l acknowledgment s) = b at hnumbered ⊢
  split
  · refine (hnumbered.trans ?_).moves now
    exact ⟨rfl, rfl, rfl, rfl, rfl⟩
  split
  · refine (hnumbered.trans ?_).moves now
    exact ⟨(complete_times _ _ _).2, rfl, rfl, (complete_times _ _ _).1, rfl⟩
  split
  · refine (hnumbered.trans ?_).moves now
    exact ⟨rfl, rfl, rfl, rfl, rfl⟩
  · rename_i l' hrecord
    have hmoves := recordOwn_moves _ l' _ _ _ _ hrecord
    refine (hnumbered.then (Steady.then ?_ hmoves)).steady (transmitFrame_steady l' _ _ _ _ _)
    exact ⟨rfl, rfl, rfl, rfl, rfl⟩

theorem transmitPoll_steady (l : Layer) (now : UInt32) (k : Keys) :
    Steady l (transmitPoll link build l now k).2 := by
  unfold transmitPoll
  split
  · exact .refl l
  split
  · exact .refl l
  simp only
  split
  · exact ⟨rfl, rfl, rfl, rfl, rfl⟩
  · split <;> exact ⟨rfl, rfl, rfl, rfl, rfl⟩

theorem arm_steady (l : Layer) : Steady l (arm l).1 := ⟨rfl, rfl, rfl, rfl, rfl⟩

theorem launch_moves (l : Layer) (now : UInt32) (k : Keys) : Moves l (launch link build l now k).2.1 now := by
  unfold launch
  simp only
  split
  · have htransmit := @transmit_moves link build l l.reply now k
    generalize transmit link build l l.reply now k = r at htransmit ⊢
    split
    · split
      · exact htransmit
      · exact htransmit.steady (complete_steady r.2 r.1 k)
    split
    · exact htransmit
    split
    · exact htransmit.steady (arm_steady r.2)
    · refine htransmit.steady ?_
      exact ⟨rfl, rfl, rfl, rfl, rfl⟩
  split
  · have hpoll := @transmitPoll_steady link build l now k
    generalize transmitPoll link build l now k = r at hpoll ⊢
    split
    · refine (hpoll.trans ?_).moves now
      exact ⟨rfl, rfl, rfl, rfl, rfl⟩
    split
    · exact hpoll.moves now
    split
    · exact (hpoll.trans (arm_steady r.2)).moves now
    · refine (hpoll.trans ?_).moves now
      exact ⟨rfl, rfl, rfl, rfl, rfl⟩
  · exact (Steady.refl l).moves now

theorem stopped_steady (l : Layer) (k : Keys) : Steady l (stopped l k) := by
  unfold stopped
  simp only
  split <;> split <;> exact ⟨rfl, rfl, rfl, rfl, rfl⟩

theorem ite_steady {c : Prop} [Decidable c] {l a b : Layer} (ha : Steady l a) (hb : Steady l b) :
    Steady l (if c then a else b) := by
  split
  · exact ha
  · exact hb

theorem settled_steady (l : Layer) (now : UInt32) (k : Keys) : Steady l (settled l now k) := by
  have hcancel : ∀ b : Layer,
      Steady b (if b.cancel ∧ b.queued then { b with toTransport := complete b.toTransport b.cancelResult k.final }
        else b) :=
    fun b => ite_steady (complete_steady b _ k) (.refl b)
  have hack : ∀ b : Layer,
      Steady b (if b.waiting ∧ b.seenAck then { b with toTransport := complete b.toTransport .ok k.final } else b) :=
    fun b => ite_steady (complete_steady b _ k) (.refl b)
  unfold settled
  simp only
  have h := (hcancel l).trans (hack _)
  refine h.trans (ite_steady (ite_steady ?_ ?_) (.refl _))
  · exact ⟨(complete_times _ _ _).2, rfl, rfl, (complete_times _ _ _).1, rfl⟩
  · exact ⟨rfl, rfl, rfl, rfl, rfl⟩

theorem finished_steady (l : Layer) (outcome : MacTx.Outcome) (now : UInt32) (k : Keys) :
    Steady l (finished l outcome now k).2 := by
  unfold finished
  simp only
  split
  · split <;> exact ⟨rfl, rfl, rfl, rfl, rfl⟩
  split
  · exact ⟨rfl, rfl, rfl, rfl, rfl⟩
  split
  · exact complete_steady l _ k
  split
  · exact complete_steady l _ k
  split
  · exact ⟨rfl, rfl, rfl, rfl, rfl⟩
  · exact complete_steady l _ k

theorem stepped_steady (l : Layer) (output : Output) (now : UInt32) (k : Keys) :
    Steady l (stepped link l output now k).2.1 := by
  unfold stepped
  simp only
  generalize harm : (if link ∧ l.owner.engine.phase = .draw ∧ !stopsNow l then arm l else (l, output)) = a
  have ha : Steady l a.1 := by
    rw [← harm]
    split
    · exact arm_steady l
    · exact .refl l
  generalize hsent : (if (!a.1.activeAck) = true ∧ (!a.1.activePoll) = true ∧ l.owner.engine.transmissions ≠ 0 then
    { a.1 with sent := true } else a.1) = b
  have hb : Steady l b := by
    rw [← hsent]
    refine ha.trans (ite_steady ?_ (.refl _))
    exact ⟨rfl, rfl, rfl, rfl, rfl⟩
  split
  · exact hb.trans ⟨rfl, rfl, rfl, rfl, rfl⟩
  split
  · exact hb
  split
  · split
    · refine hb.trans ?_
      exact ⟨rfl, rfl, rfl, rfl, rfl⟩
    · exact hb
  split
  · refine hb.trans ?_
    exact ⟨rfl, rfl, rfl, rfl, rfl⟩
  · refine (hb.trans ?_).trans (finished_steady _ _ now k)
    refine ite_steady ?_ ?_ <;> exact ⟨rfl, rfl, rfl, rfl, rfl⟩

theorem drive_steady (l : Layer) (now : UInt32) (event : Option IntervalEvent) (k : Keys) :
    Steady l (drive link l now event k).2.1 := by
  unfold drive
  simp only
  split
  · exact ⟨rfl, rfl, rfl, rfl, rfl⟩
  · refine Steady.trans ?_ (stepped_steady _ _ now k)
    exact ⟨rfl, rfl, rfl, rfl, rfl⟩

theorem stepActive_steady (l : Layer) (now : UInt32) (event : Option IntervalEvent) (k : Keys) :
    Steady l (stepActive link l now event k).2.1 := by
  unfold stepActive
  split
  · simp only
    split
    · exact arm_steady l
    · exact .refl l
  split
  · refine Steady.trans ?_ (drive_steady _ now _ k)
    exact ⟨rfl, rfl, rfl, rfl, rfl⟩
  · exact drive_steady l now event k

theorem stepIdle_moves (l : Layer) (now : UInt32) (event : Option IntervalEvent) (k : Keys) :
    Moves l (stepIdle link build l now event k).2.1 now := by
  unfold stepIdle
  split
  · exact (Steady.refl l).moves now
  split
  · exact (Steady.refl l).moves now
  split
  · exact (stopped_steady l k).moves now
  · exact (settled_steady l now k).then (launch_moves _ now k)

theorem advance_cases (t : Transport) (now : UInt32) :
    (MacTx.half ≤ now - t.last ∧ advance t now = (.clock, t)) ∨
      (now - t.last < MacTx.half ∧ advance t now = (.ok, { t with last := now })) := by
  unfold advance
  split
  · rename_i h
    exact .inl ⟨h, rfl⟩
  · rename_i h
    exact .inr ⟨UInt32.not_le.mp h, rfl⟩

/-! ## Receiving -/

theorem acknowledge_steady (l : Layer) (p : Packet) (secured : Bool) : Steady l (acknowledge l p secured) :=
  ⟨rfl, rfl, rfl, rfl, rfl⟩

/-- What the table of duplicates makes of an ordinary frame. -/
inductive Filtered (l : Layer) (r : SecurityKeys.Received) (now : UInt32) : Result → Layer → Prop where
  /-- The slot or the place of the acknowledgment is taken. -/
  | full (l' : Layer) (hd : l'.duplicate = purged l.duplicate now)
      (hbusy : l.receiveReady = true ∨ l.reply = true) : Filtered l r now .full l'
  | duplicate (l' : Layer) (hd : l'.duplicate = purged l.duplicate now)
      (hknown : known (purged l.duplicate now) r.packet.nwk.source r.packet.aps.counter r.packet.aps.type = true)
      (hready : l'.receiveReady = l.receiveReady)
      (hack : asksAck r.packet = true → l'.reply = true ∧
        l'.acknowledgment = (acknowledge l r.packet r.apsSecured).acknowledgment) : Filtered l r now .duplicate l'
  | accepted (l' : Layer) (hd : l'.duplicate = accepted l.duplicate r.packet now l.duplicateTime)
      (hknown : known (purged l.duplicate now) r.packet.nwk.source r.packet.aps.counter r.packet.aps.type = false)
      (hready : l'.receiveReady = true) : Filtered l r now .ok l'

theorem filter_filtered (l : Layer) (r : SecurityKeys.Received) (now : UInt32) :
    Filtered l r now (filter l r now).1 (filter l r now).2 := by
  unfold filter
  simp only
  split
  · rename_i hfull
    exact .full _ rfl (.inl hfull.2)
  split
  · rename_i hfull
    exact .full _ rfl (.inr hfull.2)
  split
  · rename_i hknown
    refine .duplicate _ ?_ hknown ?_ fun hack => ?_
    · simp only [discard]
      split <;> rfl
    · simp only [discard]
      split <;> rfl
    · simp [discard, hack, acknowledge]
  · rename_i hknown
    refine .accepted _ ?_ (by simpa using hknown) rfl
    split <;> rfl

theorem filter_other (l : Layer) (r : SecurityKeys.Received) (now : UInt32) :
    (filter l r now).2.broadcast = l.broadcast ∧ (filter l r now).2.duplicateTime = l.duplicateTime ∧
      (filter l r now).2.broadcastTime = l.broadcastTime ∧ (filter l r now).2.last = l.last := by
  unfold filter discard
  simp only
  split
  · exact ⟨rfl, rfl, rfl, rfl⟩
  split
  · exact ⟨rfl, rfl, rfl, rfl⟩
  split <;> split <;> exact ⟨rfl, rfl, rfl, rfl⟩

/-- A frame that goes past the table leaves it alone. -/
inductive Delivered (l : Layer) (r : SecurityKeys.Received) (now : UInt32) : Result → Layer → Prop where
  | dropped (result : Result) (l' : Layer) (hs : Steady l l') (hready : l'.receiveReady = l.receiveReady)
      (hresult : result = .wire ∨ result = .ignored ∨ result = .ok) : Delivered l r now result l'
  | control (l' : Layer) (hs : Steady l l') (hcontrol : isControl r = true) : Delivered l r now .ok l'
  | filtered (m : Layer) (hs : Steady l m) (hready : m.receiveReady = l.receiveReady) (hreply : m.reply = l.reply)
      (hendpoint : m.endpoint = l.endpoint) (hcontrol : isControl r = false) : Delivered l r now (filter m r now).1 (filter m r now).2

theorem deliver_delivered (l : Layer) (r : SecurityKeys.Received) (now : UInt32) :
    Delivered l r now (deliver l r now).1 (deliver l r now).2 := by
  unfold deliver
  simp only
  split
  · exact .dropped _ _ ⟨rfl, rfl, rfl, rfl, rfl⟩ rfl (.inl rfl)
  split
  · split
    · exact .dropped _ _ ⟨rfl, rfl, rfl, rfl, rfl⟩ rfl (.inr (.inl rfl))
    · exact .dropped _ _ ⟨rfl, rfl, rfl, rfl, rfl⟩ rfl (.inr (.inr rfl))
  split
  · exact .dropped _ _ ⟨rfl, rfl, rfl, rfl, rfl⟩ rfl (.inr (.inl rfl))
  generalize hm : (if interrupts l r = true then
    { l with ready := false, cancel := l.cancel || l.queued,
             cancelResult := if l.queued then .cancelled else l.cancelResult } else l) = m
  have hs : Steady l m := by
    rw [← hm]
    refine ite_steady ?_ (.refl l)
    exact ⟨rfl, rfl, rfl, rfl, rfl⟩
  have hready : m.receiveReady = l.receiveReady := by
    rw [← hm]
    split <;> rfl
  have hreply : m.reply = l.reply := by
    rw [← hm]
    split <;> rfl
  have hendpoint : m.endpoint = l.endpoint := by
    rw [← hm]
    split <;> rfl
  split
  · rename_i hcontrol
    refine .control _ (hs.trans ?_) hcontrol
    split <;> exact ⟨rfl, rfl, rfl, rfl, rfl⟩
  · rename_i hcontrol
    exact .filtered m hs hready hreply hendpoint (by simpa using hcontrol)

/-- Delivering a frame moves nothing but the table of duplicates. -/
theorem deliver_other (l : Layer) (r : SecurityKeys.Received) (now : UInt32) :
    (deliver l r now).2.broadcast = l.broadcast ∧ (deliver l r now).2.duplicateTime = l.duplicateTime ∧
      (deliver l r now).2.broadcastTime = l.broadcastTime ∧ (deliver l r now).2.last = l.last := by
  have hdelivered := deliver_delivered l r now
  generalize (deliver l r now).1 = result at hdelivered
  generalize (deliver l r now).2 = after at hdelivered ⊢
  cases hdelivered with
  | dropped _ _ hs _ _ => exact ⟨hs.broadcast, hs.duplicateTime, hs.broadcastTime, hs.last⟩
  | control _ hs _ => exact ⟨hs.broadcast, hs.duplicateTime, hs.broadcastTime, hs.last⟩
  | filtered m hs _ _ _ _ =>
    obtain ⟨hb, hd, ht, hl⟩ := filter_other m r now
    exact ⟨hb.trans hs.broadcast, hd.trans hs.duplicateTime, ht.trans hs.broadcastTime, hl.trans hs.last⟩

/-- The layer with an admitted frame, recorded if it is a broadcast. -/
def recorded (l : Layer) (slot : Option (Fin 8)) (p : Packet) (now : UInt32) : Layer :=
  let l := { l with incoming := p }
  match slot with
  | none => l
  | some i => broadcastPut l i p.nwk.source p.nwk.sequence now

/-- What `nwk_aps_receive` answers a frame whose time it accepts. -/
inductive Heard (l : Layer) (npdu : Bytes) (now : UInt32) (admitted : Except SecurityKeys.Result SecurityKeys.Received) :
    Result → Layer → Prop where
  | refused (result : Result) (l' : Layer) (hs : Steady l l') (hready : l'.receiveReady = l.receiveReady)
      (hresult : result = .state ∨ (result = .full ∧ (l.receiveReady = true ∨ l.reply = true)) ∨ result = .wire ∨
        result = .security) : Heard l npdu now admitted result l'
  | repeated (hint : NwkFrame.Info) (hnpdu : EdWire.readNwk npdu = .ok hint)
      (hcast : isBroadcast hint.header.destination = true) (i : Fin 8)
      (hlive : (getElem l.broadcast i (index8_lt i)).live now = true)
      (hsource : (getElem l.broadcast i (index8_lt i)).source = hint.header.source)
      (hcounter : (getElem l.broadcast i (index8_lt i)).counter = hint.header.sequence) :
      Heard l npdu now admitted .duplicate l
  | crowded (hint : NwkFrame.Info) (hnpdu : EdWire.readNwk npdu = .ok hint)
      (hcast : isBroadcast hint.header.destination = true)
      (hlive : ∀ i : Fin 8, (getElem l.broadcast i (index8_lt i)).live now = true) : Heard l npdu now admitted .full l
  | delivered (r : SecurityKeys.Received) (hadmitted : admitted = .ok r) (slot : Option (Fin 8))
      (hslot : ∀ i, slot = some i → (getElem l.broadcast i (index8_lt i)).live now = false)
      (hready : l.receiveReady = false) (hreply : l.reply = false) :
      Heard l npdu now admitted (deliver (recorded l slot r.packet now) r now).1
        (deliver (recorded l slot r.packet now) r now).2

theorem receive_heard (l : Layer) (npdu : Bytes) (now : UInt32)
    (admitted : Except SecurityKeys.Result SecurityKeys.Received) (hnow : now - l.last < MacTx.half) :
    Heard { l with last := now } npdu now admitted (receive l npdu now admitted).1 (receive l npdu now admitted).2 := by
  have hadvance : advance l.toTransport now = (.ok, { l.toTransport with last := now }) := by
    rcases advance_cases l.toTransport now with ⟨h, -⟩ | ⟨-, h⟩
    · exact absurd hnow (UInt32.not_lt.mpr h)
    · exact h
  unfold receive
  simp only [hadvance, ne_eq, not_true_eq_false, if_false]
  split
  · exact .refused _ _ (.refl _) rfl (.inl rfl)
  split
  · rename_i hbusy
    exact .refused _ _ (.refl _) rfl (.inr (.inl ⟨rfl, hbusy⟩))
  rename_i hidle
  rw [not_or, Bool.not_eq_true, Bool.not_eq_true] at hidle
  split
  · exact .refused _ _ (.refl _) rfl (.inr (.inr (.inl rfl)))
  rename_i hint hnpdu
  have hslots := broadcastSlot_cases l.broadcast hint.header.source hint.header.sequence now
  cases hcast : isBroadcast hint.header.destination with
  | false =>
    have hof : broadcastOf { l with last := now } hint.header now = .ok none := by simp [broadcastOf, hcast]
    rw [hof]
    simp only
    split
    · exact .refused _ _ ⟨rfl, rfl, rfl, rfl, rfl⟩ rfl (.inr (.inr (.inr rfl)))
    · rename_i r
      exact .delivered r rfl none (by simp) hidle.1 hidle.2
  | true =>
    have hof : broadcastOf { l with last := now } hint.header now =
        (broadcastSlot l.broadcast hint.header.source hint.header.sequence now).map some := by
      simp [broadcastOf, hcast]
    rw [hof]
    rcases hslots with ⟨hs, i, hlive, hsource, hcounter⟩ | ⟨hs, hlive⟩ | ⟨slot, hs, hfree⟩
    · simp only [hs, Except.map]
      exact .repeated hint hnpdu hcast i hlive hsource hcounter
    · simp only [hs, Except.map]
      exact .crowded hint hnpdu hcast hlive
    · simp only [hs, Except.map]
      split
      · exact .refused _ _ ⟨rfl, rfl, rfl, rfl, rfl⟩ rfl (.inr (.inr (.inr rfl)))
      · rename_i r
        refine .delivered r rfl (some slot) (fun i hi => ?_) hidle.1 hidle.2
        cases hi
        exact hfree

/-! ## Any call -/

/-- A call may move the clock, by less than half its range, and then record a broadcast. -/
structure Called (l l' : Layer) : Prop where
  clock : l'.last - l.last < MacTx.half
  duplicateTime : l'.duplicateTime = l.duplicateTime
  broadcastTime : l'.broadcastTime = l.broadcastTime
  broadcast : l'.broadcast = l.broadcast ∨
    ∃ (slot : Fin 8) (source : UInt16) (sequence : UInt8),
      (getElem l.broadcast slot (index8_lt slot)).live l'.last = false ∧
      l'.broadcast = (broadcastPut l slot source sequence l'.last).broadcast

theorem called_of_steady {l l' : Layer} (h : Steady l l') : Called l l' where
  clock := by
    rw [h.last, UInt32.sub_self]
    decide
  duplicateTime := h.duplicateTime
  broadcastTime := h.broadcastTime
  broadcast := .inl h.broadcast

/-- A call that moves the clock first. -/
theorem called_of_advance {l l' : Layer} {now : UInt32} (hnow : now - l.last < MacTx.half)
    (h : Moves { l with last := now } l' now) : Called l l' := by
  have hlast : l'.last = now := h.last
  refine ⟨by rwa [hlast], h.duplicateTime, h.broadcastTime, ?_⟩
  rw [hlast]
  exact h.broadcast

theorem called_of_ticked {l l' : Layer} {now : UInt32} (hnow : now - l.last < MacTx.half)
    (h : Steady { l with last := now } l') : Called l l' :=
  called_of_advance hnow (h.moves now)

/-- What the slots of a request keep of the clock and the tables. -/
theorem reserve_times (t : Transport) (now : UInt32) (aps : Bool) :
    (reserve t now aps).2.duplicateTime = t.duplicateTime ∧
      ((reserve t now aps).2.last = t.last ∨
        (now - t.last < MacTx.half ∧ (reserve t now aps).2.last = now)) := by
  unfold reserve
  rcases advance_cases t now with ⟨-, h⟩ | ⟨hnow, h⟩
  · simp [h]
  · rw [h]
    simp only [ne_eq, not_true_eq_false, if_false]
    split
    · exact ⟨rfl, .inr ⟨hnow, rfl⟩⟩
    split
    · split <;> exact ⟨rfl, .inr ⟨hnow, rfl⟩⟩
    · exact ⟨rfl, .inr ⟨hnow, rfl⟩⟩

theorem allocated_times (t : Transport) (now : UInt32) (aps : Bool) :
    (allocated t now aps).duplicateTime = t.duplicateTime ∧ (allocated t now aps).last = t.last := by
  unfold allocated
  split <;> exact ⟨rfl, rfl⟩

/-- A call that only fills the slot. -/
theorem called_of_times {l : Layer} {t : Transport} (now : UInt32) (hd : t.duplicateTime = l.duplicateTime)
    (hl : t.last = l.last ∨ (now - l.last < MacTx.half ∧ t.last = now)) : Called l { l with toTransport := t } := by
  rcases hl with hl | ⟨hnow, hl⟩
  · exact called_of_steady ⟨hl, rfl, rfl, hd, rfl⟩
  · exact called_of_ticked hnow ⟨hl, rfl, rfl, hd, rfl⟩

theorem queue_called (l : Layer) (packet : Packet) (apsSecure : Bool) (now : UInt32) :
    Called l (l.queue packet apsSecure now).2 := by
  unfold Layer.queue NwkAps.queue
  obtain ⟨hd, hl⟩ := reserve_times l.toTransport now (packet.nwk.type == 0)
  split
  · exact called_of_steady (.refl l)
  simp only
  split
  · exact called_of_times now hd hl
  split
  · exact called_of_times now hd hl
  split
  · exact called_of_times now hd hl
  · refine called_of_times now ((allocated_times _ now _).1.trans hd) ?_
    rw [(allocated_times _ now _).2]
    exact hl

theorem keyExchange_called (l : Layer) (which : UInt8) (now : UInt32) : Called l (keyExchange l which now).2 := by
  unfold keyExchange
  obtain ⟨hd, hl⟩ := reserve_times l.toTransport now (which != 3)
  split
  · exact called_of_steady (.refl l)
  simp only
  split
  · exact called_of_times now hd hl
  · refine called_of_times now ((allocated_times _ now _).1.trans hd) ?_
    rw [(allocated_times _ now _).2]
    exact hl

theorem rejoin_called (l : Layer) (capability : UInt8) (now : UInt32) (k : Keys) :
    Called l (rejoin build l capability now k).2 := by
  unfold rejoin
  obtain ⟨hd, hl⟩ := reserve_times l.toTransport now false
  simp only
  split
  · exact called_of_times now hd hl
  split
  · exact called_of_times now hd hl
  · refine called_of_times now ((allocated_times _ now _).1.trans hd) ?_
    rw [(allocated_times _ now _).2]
    exact hl

theorem step_moves (l : Layer) (now : UInt32) (event : Option IntervalEvent) (k : Keys) :
    (step link build l now event k).2.1 = l ∨
      (now - l.last < MacTx.half ∧ Moves { l with last := now } (step link build l now event k).2.1 now) := by
  unfold step
  rcases advance_cases l.toTransport now with ⟨-, h⟩ | ⟨hnow, h⟩
  · simp only [h, ne_eq, reduceCtorEq, not_false_eq_true, if_true]
    exact .inl trivial
  simp only [h, ne_eq, not_true_eq_false, if_false]
  refine .inr ⟨hnow, ?_⟩
  generalize hm : (if l.queued = true ∧ (!l.cancel) = true ∧ MacTx.reached now l.transactionUntil = true then
    ({ l with toTransport := { l.toTransport with last := now, cancel := true, cancelResult := .timeout } } : Layer)
    else { l with last := now }) = m
  have hs : Steady { l with last := now } m := by
    rw [← hm]
    exact ite_steady ⟨rfl, rfl, rfl, rfl, rfl⟩ (.refl _)
  split
  · exact (hs.trans (stepActive_steady m now event k)).moves now
  · exact hs.then (stepIdle_moves m now event k)

theorem step_called (l : Layer) (now : UInt32) (event : Option IntervalEvent) (k : Keys) :
    Called l (step link build l now event k).2.1 := by
  rcases @step_moves link build l now event k with h | ⟨hnow, h⟩
  · rw [h]
    exact called_of_steady (.refl l)
  · exact called_of_advance hnow h

theorem recorded_moves (l : Layer) (slot : Option (Fin 8)) (p : Packet) (now : UInt32)
    (h : ∀ i, slot = some i → (getElem l.broadcast i (index8_lt i)).live now = false) :
    Moves l (recorded l slot p now) now := by
  cases slot with
  | none =>
    have hs : Steady l (recorded l none p now) := ⟨rfl, rfl, rfl, rfl, rfl⟩
    exact hs.moves now
  | some i => exact ⟨rfl, rfl, rfl, rfl, .inr ⟨i, _, _, h i rfl, rfl⟩⟩

theorem receive_called (l : Layer) (npdu : Bytes) (now : UInt32)
    (admitted : Except SecurityKeys.Result SecurityKeys.Received) : Called l (receive l npdu now admitted).2 := by
  rcases advance_cases l.toTransport now with ⟨-, h⟩ | ⟨hnow, -⟩
  · unfold receive
    simp only [h, ne_eq, reduceCtorEq, not_false_eq_true, if_true]
    exact called_of_steady (.refl l)
  have hheard := receive_heard l npdu now admitted hnow
  generalize (receive l npdu now admitted).1 = result at hheard
  generalize (receive l npdu now admitted).2 = after at hheard ⊢
  cases hheard with
  | refused _ _ hs _ _ => exact called_of_ticked hnow hs
  | repeated _ _ _ _ _ _ _ => exact called_of_ticked hnow (.refl _)
  | crowded _ _ _ _ => exact called_of_ticked hnow (.refl _)
  | delivered r _ slot hslot _ _ =>
    have hput := called_of_advance hnow (recorded_moves { l with last := now } slot r.packet now hslot)
    obtain ⟨hb, hd, ht, hl⟩ := deliver_other (recorded { l with last := now } slot r.packet now) r now
    refine ⟨hl ▸ hput.clock, hd.trans hput.duplicateTime, ht.trans hput.broadcastTime, ?_⟩
    rw [hb, hl]
    exact hput.broadcast

theorem perform_called (l : Layer) (c : Call) : Called l (perform link build l c).2 := by
  cases c with
  | queue packet apsSecure now => exact queue_called l packet apsSecure now
  | keyExchange which now => exact keyExchange_called l which now
  | rejoin capability now k => exact rejoin_called l capability now k
  | poll rejoin now =>
    simp only [perform, pollRequest]
    rcases advance_cases l.toTransport now with ⟨-, h⟩ | ⟨hnow, h⟩
    · simp only [h, ne_eq, reduceCtorEq, not_false_eq_true, if_true]
      exact called_of_steady (.refl l)
    · simp only [h, ne_eq, not_true_eq_false, if_false]
      refine called_of_ticked hnow ?_
      split
      · exact .refl _
      split
      · exact .refl _
      · exact ⟨rfl, rfl, rfl, rfl, rfl⟩
  | step now event k => exact step_called l now event k
  | receive npdu now admitted => exact receive_called l npdu now admitted
  | take =>
    simp only [perform, Layer.take, NwkAps.take]
    split <;> exact called_of_steady ⟨rfl, rfl, rfl, rfl, rfl⟩
  | confirm =>
    simp only [perform, Layer.confirm, NwkAps.confirm]
    split <;> exact called_of_steady ⟨rfl, rfl, rfl, rfl, rfl⟩
  | cancel now =>
    simp only [perform, Layer.cancelRequest, NwkAps.cancel]
    rcases advance_cases l.toTransport now with ⟨-, h⟩ | ⟨hnow, h⟩
    · simp only [h, ne_eq, reduceCtorEq, not_false_eq_true, if_true]
      exact called_of_steady (.refl l)
    · simp only [h, ne_eq, not_true_eq_false, if_false]
      refine called_of_ticked hnow ?_
      split <;> exact ⟨rfl, rfl, rfl, rfl, rfl⟩
  | stop now =>
    simp only [perform, stop]
    rcases advance_cases l.toTransport now with ⟨-, h⟩ | ⟨hnow, h⟩
    · simp only [h, ne_eq, reduceCtorEq, not_false_eq_true, if_true]
      exact called_of_steady (.refl l)
    · simp only [h, ne_eq, not_true_eq_false, if_false]
      refine called_of_ticked hnow ?_
      split <;> exact ⟨rfl, rfl, rfl, rfl, rfl⟩
  | armed generation retry nb =>
    simp only [perform, confirmArmed]
    split <;> exact called_of_steady ⟨rfl, rfl, rfl, rfl, rfl⟩
  | disarmed generation retry nb =>
    simp only [perform, confirmDisarmed]
    split <;> exact called_of_steady ⟨rfl, rfl, rfl, rfl, rfl⟩

/-- Only a received frame touches the table of duplicates. -/
theorem perform_duplicate (l : Layer) (c : Call) (hc : ∀ npdu now admitted, c ≠ .receive npdu now admitted) :
    (perform link build l c).2.duplicate = l.duplicate := by
  cases c with
  | queue packet apsSecure now => rfl
  | keyExchange which now =>
    simp only [perform, keyExchange]
    split
    · rfl
    split <;> rfl
  | rejoin capability now k =>
    simp only [perform, rejoin]
    split
    · rfl
    split <;> rfl
  | poll rejoin now =>
    simp only [perform, pollRequest]
    split
    · rfl
    split
    · rfl
    split <;> rfl
  | step now event k =>
    simp only [perform]
    rcases @step_moves link build l now event k with h | ⟨-, h⟩
    · rw [h]
    · exact h.duplicate
  | receive npdu now admitted => exact absurd rfl (hc npdu now admitted)
  | take => rfl
  | confirm => rfl
  | cancel now => rfl
  | stop now =>
    simp only [perform, stop]
    split
    · rfl
    split <;> rfl
  | armed generation retry nb =>
    simp only [perform, confirmArmed]
    split <;> rfl
  | disarmed generation retry nb =>
    simp only [perform, confirmDisarmed]
    split <;> rfl

end NwkAps
