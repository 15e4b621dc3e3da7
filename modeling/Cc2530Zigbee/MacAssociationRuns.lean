import Cc2530Zigbee.MacAssociation

/-!
# The safety of the association exchange

What a recorded response rests on, how often one is recorded and when an
exchange ends, over any sequence of calls.
-/
namespace MacAssociation

open Octets

/-! ## What the codec promises -/

/-- The payload of a decoded command frame passed the rules of its command. -/
theorem decodeProfile_command {body : Bytes} {profile : UInt8} {frame : MacFrame.Info}
    (h : MacFrame.decodeProfile body profile = .ok frame) (htype : frame.header.type = MacFrame.command) :
    MacFrame.commandHeaderPolicy frame.header (payloadOf body frame) (profile <<< 1) = .ok := by
  unfold MacFrame.decodeProfile at h
  split at h
  · cases h
  split at h
  · cases h
  split at h
  · cases h
  split at h
  · cases h
  split at h
  · cases h
  rename_i s _
  split at h
  · cases h
  split at h
  · cases h
  simp only at h
  split at h
  · split at h
    · rename_i hpolicy
      cases h
      have hpayload : payloadOf body
          ⟨MacFrame.addresses (MacFrame.control body) s body, s.headerSize, body.length - s.headerSize⟩ =
          body.drop s.headerSize := by
        rw [payloadOf]
        exact List.take_of_length_le (by simp)
      rw [hpayload]
      rw [MacFrame.payloadPolicy, if_pos htype] at hpolicy
      exact hpolicy
    · cases h
  · cases h

/-- An Association Response goes from an extended address to an extended address. -/
theorem response_extended {h : MacFrame.Header} {payload : Bytes} {mode : UInt8} {command : MacFrame.Command}
    (hpolicy : MacFrame.commandHeaderPolicy h payload mode = .ok)
    (hdecode : MacFrame.commandDecode payload = .ok command)
    (hresponse : command.identifier = MacFrame.associationResponse) :
    h.destinationMode = MacFrame.addressExtended ∧ h.sourceMode = MacFrame.addressExtended := by
  unfold MacFrame.commandHeaderPolicy at hpolicy
  simp only [hdecode, hresponse] at hpolicy
  split at hpolicy
  · cases hpolicy
  split at hpolicy
  · cases hpolicy
  rw [if_neg (by decide)] at hpolicy
  split at hpolicy
  · cases hpolicy
  rw [if_neg (by decide)] at hpolicy
  split at hpolicy
  · cases hpolicy
  rename_i hmodes
  rw [if_neg (by decide)] at hpolicy
  split at hpolicy
  · cases hpolicy
  rename_i hdestination
  rw [not_or, not_not] at hmodes
  rw [not_or] at hdestination
  refine ⟨?_, hmodes.1⟩
  by_contra hne
  exact hdestination.1 ⟨trivial, hne⟩

/-! ## One step -/

/-- What a recorded response rests on. -/
structure Accepted (c : Association) (now : UInt32) (e : Event) (profile : UInt8) (frame : MacFrame.Info)
    (command : MacFrame.Command) : Prop where
  armed : c.phase = .wait
  kind : e.kind = frameKind
  crc : e.crcValid = 1
  epoch : e.epoch = c.request.epoch
  generation : e.generation = c.generation
  channel : e.channel = c.request.channel
  decoded : MacFrame.decodeProfile e.body profile = .ok frame
  type : frame.header.type = MacFrame.command
  content : MacFrame.commandDecode (payloadOf e.body frame) = .ok command
  identifier : command.identifier = MacFrame.associationResponse
  mode : frame.header.destinationMode = MacFrame.addressExtended
  destination : frame.header.destination = c.request.localAddress
  sourcePan : frame.header.sourcePan = c.request.panId
  destinationPan : frame.header.destinationPan = c.request.panId ∨
    (profile = MacFrame.rxR22AssociationResponse ∧ frame.header.destinationPan = 0xFFFF)
  coordinator : c.request.coordinatorMode = MacFrame.addressExtended →
    frame.header.source = c.request.coordinator

/-- The time stamp lies between the last call and this one, in the lifetime. -/
structure InWindow (c : Association) (now : UInt32) (e : Event) : Prop where
  after : (c.last - c.opened).toNat ≤ (e.stamp - c.opened).toNat
  before : (e.stamp - c.opened).toNat ≤ (now - c.opened).toNat
  lifetime : (now - c.opened).toNat < c.request.lifetime.toNat

/-- While an exchange waits it has work left and time is in its lifetime. -/
structure Armed (c : Association) : Prop where
  time : c.phase = .wait → (c.last - c.opened).toNat < c.request.lifetime.toNat
  lifetime : c.phase = .wait → c.request.lifetime.toNat ≤ 65535
  work : c.phase = .wait → 0 < c.remaining.toNat

theorem examine_ok {c : Association} {now : UInt32} {e : Event} {profile : UInt8} {frame : MacFrame.Info}
    {command : MacFrame.Command} (h : examine c now e profile = .ok (frame, command)) :
    e.epoch = c.request.epoch ∧ e.generation = c.generation ∧ e.kind ≠ cancelKind ∧ e.stamp - c.last < MacTx.half ∧
      now - e.stamp < MacTx.half ∧ e.channel = c.request.channel ∧ e.crcValid ≠ 0 ∧
      MacFrame.decodeProfile e.body profile = .ok frame ∧ frame.header.type = MacFrame.command ∧
      MacFrame.commandDecode (payloadOf e.body frame) = .ok command ∧
      command.identifier = MacFrame.associationResponse ∧ addressed c.request frame profile = true := by
  unfold examine at h
  split at h
  · cases h
  rename_i hfence
  split at h
  · cases h
  rename_i hkind
  split at h
  · cases h
  rename_i hstamp
  split at h
  · cases h
  rename_i hchannel
  split at h
  · cases h
  rename_i hcrc
  split at h
  · cases h
  rename_i hdecode
  split at h
  · cases h
  rename_i htype
  split at h
  · cases h
  rename_i hcommand
  split at h
  · cases h
  rename_i haddressed
  cases h
  rw [not_or, not_not, not_not] at hfence
  rw [not_or, UInt32.not_le, UInt32.not_le] at hstamp
  rw [not_not] at hchannel htype
  rw [not_or, not_not] at haddressed
  exact ⟨hfence.1, hfence.2, hkind, hstamp.1, hstamp.2, hchannel, hcrc, hdecode, htype, hcommand, haddressed.1,
    by simpa using haddressed.2⟩

/-- What a unit of work can do. -/
theorem work_cases (c : Association) (now : UInt32) (event : Option Event) (profile : UInt8) :
    ((work c now event profile).1 ≠ .response ∧
      (work c now event profile).2 = { c with remaining := c.remaining - 1 } ∧
      (c.remaining - 1 = 0 → (work c now event profile).1.terminal = true)) ∨
    (∃ e frame command, event = some e ∧ examine c now e profile = .ok (frame, command) ∧
      work c now event profile =
        (.response, { c with remaining := c.remaining - 1, record := recorded c e frame command })) := by
  have hexamine (e : Event) : examine { c with remaining := c.remaining - 1 } now e profile =
      examine c now e profile := rfl
  unfold work
  cases event with
  | none =>
    left
    simp only
    split
    · exact ⟨by simp, rfl, fun _ => rfl⟩
    · rename_i hwork
      refine ⟨by simp, rfl, fun hzero => ?_⟩
      exact absurd ⟨by simp, by simp, hzero⟩ hwork
  | some e =>
    simp only [hexamine]
    cases hex : examine c now e profile with
    | ok found =>
      obtain ⟨frame, command⟩ := found
      right
      exact ⟨e, frame, command, rfl, hex, by simp [recorded]⟩
    | error decision =>
      left
      have hne : decision ≠ .response := by
        rintro rfl
        unfold examine at hex
        split at hex
        · cases hex
        split at hex
        · cases hex
        split at hex
        · cases hex
        split at hex
        · cases hex
        split at hex
        · cases hex
        split at hex
        · cases hex
        split at hex
        · cases hex
        split at hex
        · cases hex
        split at hex <;> cases hex
      simp only
      split
      · exact ⟨by simp, rfl, fun _ => rfl⟩
      · rename_i hwork
        refine ⟨hne, rfl, fun hzero => ?_⟩
        have hcancel : decision = .cancelled := by
          by_contra hc
          exact hwork ⟨hne, hc, hzero⟩
        rw [hcancel]
        rfl

/-- What a step can do: refuse, or observe and settle. -/
theorem stepRx_cases (c : Association) (now : UInt32) (event : Option Event) (profile : UInt8) :
    ((stepRx c now event profile).1 ≠ .ok ∧ (stepRx c now event profile).2 = (none, c)) ∨
    (c.phase = .wait ∧ wellFormed c now event = true ∧
      stepRx c now event profile = (.ok, some (observe c now event profile).1,
        settle (observe c now event profile).2 now (observe c now event profile).1)) := by
  unfold stepRx
  split
  · exact .inl ⟨by simp, rfl⟩
  split
  · exact .inl ⟨by simp, rfl⟩
  rename_i hphase
  split
  · exact .inl ⟨by simp, rfl⟩
  rename_i hformed
  rw [not_not] at hphase
  exact .inr ⟨hphase, by simpa using hformed, rfl⟩

/-- What an observation can do: end the exchange, spend a unit of work, or record a response. -/
theorem observe_cases (c : Association) (now : UInt32) (event : Option Event) (profile : UInt8) :
    ((observe c now event profile).1 = .expired ∨ (observe c now event profile).1 = .exhausted ∧ c.remaining = 0) ∧
      (observe c now event profile).2 = c ∨
    (now - c.opened < c.request.lifetime ∧ c.remaining ≠ 0 ∧ (observe c now event profile).1 ≠ .response ∧
      (observe c now event profile).2 = { c with remaining := c.remaining - 1 } ∧
      (c.remaining - 1 = 0 → (observe c now event profile).1.terminal = true)) ∨
    (∃ e frame command, now - c.opened < c.request.lifetime ∧ c.remaining ≠ 0 ∧ event = some e ∧
      examine c now e profile = .ok (frame, command) ∧ observe c now event profile =
        (.response, { c with remaining := c.remaining - 1, record := recorded c e frame command })) := by
  unfold observe
  split
  · exact .inl ⟨.inl rfl, rfl⟩
  rename_i hlife
  rw [UInt32.not_le] at hlife
  split
  · rename_i hzero
    exact .inl ⟨.inr ⟨rfl, hzero⟩, rfl⟩
  rename_i hwork
  rcases work_cases c now event profile with ⟨hne, hstate, hlast⟩ | ⟨e, frame, command, he, hex, heq⟩
  · exact .inr (.inl ⟨hlife, hwork, hne, hstate, hlast⟩)
  · exact .inr (.inr ⟨e, frame, command, hlife, hwork, he, hex, heq⟩)

/-- A response is recorded only from a frame that answers the exchange in its window. -/
theorem response_accepted {c : Association} (harmed : Armed c) {now : UInt32} {event : Option Event} {profile : UInt8}
    (h : (stepRx c now event profile).2.1 = some .response) :
    ∃ e frame command, event = some e ∧ Accepted c now e profile frame command ∧ InWindow c now e ∧
      (stepRx c now event profile).2.2.record = { recorded c e frame command with outcome := .response } := by
  rcases stepRx_cases c now event profile with ⟨-, hnone⟩ | ⟨hphase, hformed, heq⟩
  · rw [hnone] at h
    cases h
  rw [heq] at h ⊢
  simp only [Option.some_inj] at h
  rcases observe_cases c now event profile with ⟨hend, -⟩ | ⟨-, -, hne, -⟩ | ⟨e, frame, command, hlife, -, he, hex, hobs⟩
  · rw [h] at hend
    simp at hend
  · exact absurd h hne
  obtain ⟨hepoch, hgeneration, hcancel, hstamp, hnow, hchannel, hcrc, hdecode, htype, hcommand, hidentifier,
    haddressed⟩ := examine_ok hex
  subst he
  simp only [wellFormed, Bool.and_eq_true, Bool.or_eq_true, bne_iff_ne, ne_eq, beq_iff_eq, decide_eq_true_eq,
    Bool.not_eq_true', decide_eq_false_iff_not] at hformed
  obtain ⟨hclock, hkinds, hframe⟩ := hformed
  have hkind : e.kind = frameKind := hkinds.resolve_right hcancel
  have hone : e.crcValid = 1 := by
    have hle := (hframe.resolve_left fun hne => hne hkind).1.1
    rw [UInt8.le_iff_toNat_le] at hle
    apply UInt8.toNat_inj.mp
    have hpos : e.crcValid.toNat ≠ 0 := fun hz => hcrc (UInt8.toNat_inj.mp hz)
    simp at hle ⊢
    omega
  obtain ⟨hmode, -⟩ := response_extended (decodeProfile_command hdecode htype) hcommand hidentifier
  simp only [addressed, Bool.and_eq_true, Bool.or_eq_true, beq_iff_eq, bne_iff_ne, ne_eq] at haddressed
  obtain ⟨⟨⟨hsource, hpan⟩, hlocal⟩, hcoordinator⟩ := haddressed
  refine ⟨e, frame, command, rfl, ⟨hphase, hkind, hone, hepoch, hgeneration, hchannel, hdecode, htype, hcommand,
    hidentifier, hmode, hlocal, hsource, hpan, fun hext => hcoordinator.resolve_left fun hne => hne hext⟩, ?_, ?_⟩
  · -- The distances are short enough for the 32-bit differences to add up.
    have htime := harmed.time hphase
    have hbound := harmed.lifetime hphase
    rw [UInt32.lt_iff_toNat_lt] at hlife hstamp hnow
    rw [UInt32.not_le, UInt32.lt_iff_toNat_lt] at hclock
    simp only [MacTx.half, UInt32.toNat_sub, UInt32.reduceToNat] at hlife hstamp hnow hclock htime
    have h1 := c.last.toNat_lt
    have h2 := c.opened.toNat_lt
    have h3 := e.stamp.toNat_lt
    have h4 := now.toNat_lt
    constructor <;> simp only [UInt32.toNat_sub] <;> omega
  · rw [hobs]
    rfl

/-- Every call keeps a waiting exchange armed. -/
theorem Armed.call {c : Association} (h : Armed c) (op : Op) : Armed (call c op).2 := by
  cases op with
  | start request now =>
    change Armed (start c request now).2
    unfold start
    split
    · exact h
    rename_i hvalid
    split
    · exact h
    split
    · exact h
    split
    · exact h
    rw [not_or] at hvalid
    have hrequest : validRequest request = true := by simpa using hvalid.2
    simp only [validRequest, Bool.and_eq_true, bne_iff_ne, ne_eq, decide_eq_true_eq] at hrequest
    obtain ⟨⟨⟨⟨⟨⟨⟨⟨⟨-, hlife⟩, hmax⟩, hwork⟩, -⟩, -⟩, -⟩, -⟩, -⟩, -⟩ := hrequest
    have hlife' : request.lifetime.toNat ≠ 0 := fun hz => hlife (UInt32.toNat_inj.mp hz)
    have hwork' : request.workLimit.toNat ≠ 0 := fun hz => hwork (UInt16.toNat_inj.mp hz)
    rw [UInt32.le_iff_toNat_le] at hmax
    refine ⟨fun _ => ?_, fun _ => hmax, fun _ => by simp only; omega⟩
    simp only [UInt32.sub_self, UInt32.toNat_zero]
    omega
  | step now event profile =>
    change Armed (stepRx c now event profile).2.2
    rcases stepRx_cases c now event profile with ⟨-, hnone⟩ | ⟨hphase, hformed, heq⟩
    · rw [hnone]
      exact h
    rw [heq]
    simp only
    unfold settle
    by_cases hterminal : (observe c now event profile).1.terminal = true
    · rw [if_pos hterminal]
      exact ⟨by simp, by simp, by simp⟩
    rw [if_neg hterminal]
    rcases observe_cases c now event profile with ⟨hend, -⟩ | ⟨hlife, hwork, -, hstate, hlast⟩ |
      ⟨e, frame, command, -, -, -, -, hobs⟩
    · rcases hend with hend | ⟨hend, -⟩ <;> rw [hend] at hterminal <;> exact absurd rfl hterminal
    · rw [hstate]
      refine ⟨fun _ => ?_, h.lifetime, fun _ => ?_⟩
      · exact UInt32.lt_iff_toNat_lt.mp hlife
      · have hne : c.remaining - 1 ≠ 0 := fun hz => hterminal (hlast hz)
        have hpos : (c.remaining - 1).toNat ≠ 0 := fun hz => hne (UInt16.toNat_inj.mp hz)
        simp only
        omega
    · rw [hobs] at hterminal
      exact absurd rfl hterminal
  | take =>
    change Armed (take c).2.2
    unfold take
    split
    · exact h
    split
    · exact h
    · exact ⟨by simp, by simp, by simp⟩

/-! ## Whole runs -/

/-- A response was recorded in this generation. -/
def Report.isResponse (generation : UInt32) (r : Report) : Bool :=
  r.decision == some .response && r.generation == generation

/-- The call was a step that was processed. -/
def Report.processed (r : Report) : Bool := r.decision.isSome

/-- The call ended an exchange. -/
def Report.ended (r : Report) : Bool := r.decision.any Decision.terminal

/-- A call that is refused leaves the context unchanged. -/
theorem call_refused (c : Association) (op : Op) (h : (call c op).1.result ≠ .ok) : (call c op).2 = c := by
  cases op with
  | start request now =>
    change (start c request now).1 ≠ .ok at h
    change (start c request now).2 = c
    unfold start at h ⊢
    split
    · rfl
    split
    · rfl
    split
    · rfl
    split
    · rfl
    · simp_all
  | step now event profile =>
    change (stepRx c now event profile).1 ≠ .ok at h
    change (stepRx c now event profile).2.2 = c
    rcases stepRx_cases c now event profile with ⟨-, hnone⟩ | ⟨-, -, heq⟩
    · rw [hnone]
    · rw [heq] at h
      exact absurd rfl h
  | take =>
    change (take c).1 ≠ .ok at h
    change (take c).2.2 = c
    unfold take at h ⊢
    split
    · rfl
    split
    · rfl
    · simp_all

/-- At most one response a generation, and none yet while an exchange waits. -/
structure Once (outs : List Report) (c : Association) : Prop where
  most : ∀ g, outs.countP (Report.isResponse g) ≤ 1
  later : ∀ g, c.generation.toNat < g.toNat → outs.countP (Report.isResponse g) = 0
  waiting : c.phase = .wait → outs.countP (Report.isResponse c.generation) = 0

theorem Once.silent {outs : List Report} {c c' : Association} (h : Once outs c) {r : Report}
    (hr : r.decision ≠ some .response) (hgeneration : c'.generation = c.generation)
    (hphase : c'.phase = .wait → c.phase = .wait) : Once (outs ++ [r]) c' := by
  have hnone (g : UInt32) : [r].countP (Report.isResponse g) = 0 := by
    simp [Report.isResponse, hr]
  refine ⟨fun g => ?_, fun g hg => ?_, fun hwait => ?_⟩ <;> rw [List.countP_append, hnone, Nat.add_zero]
  · exact h.most g
  · rw [hgeneration] at hg
    exact h.later g hg
  · rw [hgeneration]
    exact h.waiting (hphase hwait)

theorem Once.call {outs : List Report} {c : Association} (h : Once outs c) (op : Op) :
    Once (outs ++ [(call c op).1]) (call c op).2 := by
  cases op with
  | start request now =>
    by_cases hok : (start c request now).1 = .ok
    swap
    · have hsame : (MacAssociation.call c (.start request now)).2 = c := call_refused c _ hok
      rw [hsame]
      exact h.silent (by simp [MacAssociation.call]) rfl id
    · have hgeneration : (start c request now).2.generation.toNat = c.generation.toNat + 1 := by
        unfold start at hok ⊢
        split
        · simp_all
        split
        · simp_all
        split
        · simp_all
        split
        · simp_all
        · rename_i hlimit
          have hlt := c.generation.toNat_lt
          have hne : c.generation.toNat ≠ 0xFFFFFFFF := fun heq => hlimit (UInt32.toNat_inj.mp heq)
          simp only [UInt32.toNat_add]
          simp
          omega
      have hcount (g : UInt32) : (outs ++ [(MacAssociation.call c (.start request now)).1]).countP
          (Report.isResponse g) = outs.countP (Report.isResponse g) := by
        simp [List.countP_append, Report.isResponse, MacAssociation.call]
      refine ⟨fun g => ?_, fun g hg => ?_, fun _ => ?_⟩ <;> rw [hcount]
      · exact h.most g
      · change (start c request now).2.generation.toNat < g.toNat at hg
        exact h.later g (by omega)
      · change outs.countP (Report.isResponse (start c request now).2.generation) = 0
        exact h.later _ (by omega)
  | step now event profile =>
    rcases stepRx_cases c now event profile with ⟨hne, hnone⟩ | ⟨hphase, -, heq⟩
    · have hsame : (MacAssociation.call c (.step now event profile)).2 = c := call_refused c _ hne
      rw [hsame]
      refine h.silent ?_ rfl id
      simp [MacAssociation.call, hnone]
    · have hgeneration : (MacAssociation.call c (.step now event profile)).2.generation = c.generation := by
        change (stepRx c now event profile).2.2.generation = c.generation
        rw [heq]
        have hobs : (observe c now event profile).2.generation = c.generation := by
          rcases observe_cases c now event profile with ⟨-, hs⟩ | ⟨-, -, -, hs, -⟩ | ⟨e, frame, command, -, -, -, -, hs⟩
          · rw [hs]
          · rw [hs]
          · rw [hs]
        simp only [settle]
        split <;> exact hobs
      by_cases hresponse : (observe c now event profile).1 = .response
      · have hdone : (MacAssociation.call c (.step now event profile)).2.phase = .done := by
          change (stepRx c now event profile).2.2.phase = .done
          rw [heq, hresponse]
          rfl
        have hcount (g : UInt32) : [(MacAssociation.call c (.step now event profile)).1].countP (Report.isResponse g) =
            if c.generation = g then 1 else 0 := by
          simp [List.countP_cons, Report.isResponse, MacAssociation.call, heq, hresponse]
        refine ⟨fun g => ?_, fun g hg => ?_, fun hwait => ?_⟩
        · rw [List.countP_append, hcount]
          split
          · rename_i hg
            rw [← hg, h.waiting hphase]
          · exact h.most g
        · rw [hgeneration] at hg
          rw [List.countP_append, hcount, h.later g hg, if_neg (by rintro rfl; omega)]
        · rw [hdone] at hwait
          cases hwait
      · refine h.silent ?_ hgeneration fun _ => hphase
        simp [MacAssociation.call, heq, hresponse]
  | take =>
    refine h.silent (by simp [MacAssociation.call]) ?_ ?_
    · change (take c).2.2.generation = c.generation
      unfold take
      split
      · rfl
      split <;> rfl
    · change (take c).2.2.phase = .wait → c.phase = .wait
      unfold take
      split
      · exact id
      split
      · exact id
      · simp

/-- An exchange has ended, or its work is what was spent and what is left. -/
def Spent (limit : Nat) (outs : List Report) (c : Association) : Prop :=
  (∃ r ∈ outs, r.ended = true) ∨
    (c.phase = .wait ∧ Armed c ∧ outs.countP Report.processed + c.remaining.toNat = limit)

theorem Spent.call {limit : Nat} {outs : List Report} {c : Association} (h : Spent limit outs c) (op : Op) :
    Spent limit (outs ++ [(call c op).1]) (call c op).2 := by
  rcases h with ⟨r, hr, hended⟩ | ⟨hphase, harmed, hsum⟩
  · exact .inl ⟨r, List.mem_append_left _ hr, hended⟩
  cases op with
  | start request now =>
    right
    have hsame : (MacAssociation.call c (.start request now)).2 = c := by
      apply call_refused
      change (start c request now).1 ≠ .ok
      unfold start
      split
      · simp
      · rw [if_pos (by simp [hphase])]
        simp
    rw [hsame]
    exact ⟨hphase, harmed, by simpa [List.countP_append, List.countP_cons, Report.processed, MacAssociation.call] using hsum⟩
  | step now event profile =>
    rcases stepRx_cases c now event profile with ⟨hne, hnone⟩ | ⟨-, -, heq⟩
    · right
      have hsame : (MacAssociation.call c (.step now event profile)).2 = c := call_refused c _ hne
      rw [hsame]
      refine ⟨hphase, harmed, ?_⟩
      simpa [List.countP_append, List.countP_cons, Report.processed, MacAssociation.call, hnone] using hsum
    by_cases hterminal : (observe c now event profile).1.terminal = true
    · left
      refine ⟨(MacAssociation.call c (.step now event profile)).1, by simp, ?_⟩
      simp [Report.ended, MacAssociation.call, heq, hterminal]
    · right
      have harmed' := harmed.call (.step now event profile)
      have hstate : (stepRx c now event profile).2.2 = { c with remaining := c.remaining - 1, last := now } := by
        rw [heq]
        simp only [settle]
        rw [if_neg hterminal]
        rcases observe_cases c now event profile with ⟨hend, -⟩ | ⟨-, -, -, hs, -⟩ | ⟨e, frame, command, -, -, -, -, hs⟩
        · rcases hend with hend | ⟨hend, -⟩ <;> rw [hend] at hterminal <;> exact absurd rfl hterminal
        · rw [hs]
        · rw [hs] at hterminal
          exact absurd rfl hterminal
      refine ⟨?_, harmed', ?_⟩
      · change (stepRx c now event profile).2.2.phase = .wait
        rw [hstate]
        exact hphase
      · have hpos := harmed.work hphase
        have hone : (MacAssociation.call c (.step now event profile)).2.remaining.toNat = c.remaining.toNat - 1 := by
          change (stepRx c now event profile).2.2.remaining.toNat = _
          rw [hstate]
          have hlt := c.remaining.toNat_lt
          simp only [UInt16.toNat_sub, UInt16.reduceToNat]
          omega
        rw [hone]
        simp [List.countP_append, List.countP_cons, Report.processed, MacAssociation.call, heq] at hsum ⊢
        omega
  | take =>
    right
    have hsame : (MacAssociation.call c .take).2 = c := by
      apply call_refused
      change (take c).1 ≠ .ok
      unfold take
      split
      · simp
      · rw [if_pos (by simp [hphase])]
        simp
    rw [hsame]
    exact ⟨hphase, harmed, by simpa [List.countP_append, List.countP_cons, Report.processed, MacAssociation.call] using hsum⟩

theorem start_spent {c : Association} {request : Request} {now : UInt32} (harmed : Armed c)
    (h : (start c request now).1 = .ok) : Spent request.workLimit.toNat [] (start c request now).2 := by
  right
  have harmed' : Armed (start c request now).2 := harmed.call (.start request now)
  unfold start at h harmed' ⊢
  split
  · simp_all
  split
  · simp_all
  split
  · simp_all
  split
  · simp_all
  · rename_i hv hp hc hg
    rw [if_neg hv, if_neg hp, if_neg hc, if_neg hg] at harmed'
    exact ⟨rfl, harmed', by simp⟩

/-- Over any sequence of calls: what a recorded response rests on, that there is at
most one in a generation, that an exchange ends within its limit of work, and that
a refused call changes nothing. -/
theorem association_safe (opening : UInt32) (ops : List Op) :
    (∀ now event profile,
      (stepRx (Runs.run call (init opening) ops).2 now event profile).2.1 = some .response →
      ∃ e frame command, event = some e ∧
        Accepted (Runs.run call (init opening) ops).2 now e profile frame command ∧
        InWindow (Runs.run call (init opening) ops).2 now e ∧
        (stepRx (Runs.run call (init opening) ops).2 now event profile).2.2.record =
          { recorded (Runs.run call (init opening) ops).2 e frame command with outcome := .response }) ∧
    (∀ generation, (Runs.run call (init opening) ops).1.countP (Report.isResponse generation) ≤ 1) ∧
    (∀ request now later, (start (Runs.run call (init opening) ops).2 request now).1 = .ok →
      request.workLimit.toNat ≤
        (Runs.run call (start (Runs.run call (init opening) ops).2 request now).2 later).1.countP Report.processed →
      ∃ r ∈ (Runs.run call (start (Runs.run call (init opening) ops).2 request now).2 later).1, r.ended = true) ∧
    (∀ c op, (call c op).1.result ≠ .ok → (call c op).2 = c) := by
  have hinit : Armed (init opening) := ⟨by simp [init], by simp [init], by simp [init]⟩
  have harmed := Runs.state_invariant call Armed (init opening) hinit (fun c op h => h.call op) ops
  have honce := Runs.run_invariant call Once (init opening) []
    ⟨by simp, by simp, by simp⟩ (fun outs c op h => h.call op) ops
  refine ⟨fun now event profile h => response_accepted harmed h, by simpa using honce.most, ?_, call_refused⟩
  intro request now later hstart henough
  have hspent := Runs.run_invariant call (Spent request.workLimit.toNat) _ [] (start_spent harmed hstart)
    (fun outs c op h => h.call op) later
  rw [List.nil_append] at hspent
  rcases hspent with hended | ⟨hphase, harmed', hsum⟩
  · exact hended
  · have hpos := harmed'.work hphase
    omega

/-! ## Fixed exchanges -/

/-- An exchange with the coordinator of short address zero. -/
def shortRequest : Request :=
  ⟨1, 1000, 10, 0x1A62, 11, MacFrame.addressShort, Vector.replicate 8 0, Vector.replicate 8 1⟩

/-- An Association Response from an extended address, with compressed PAN identifiers. -/
def sampleResponse (source : UInt8) : Event :=
  { epoch := 1, generation := 1, stamp := 1, kind := frameKind, channel := 11, crcValid := 1
    body := [0x63, 0xCC, 9, 0x62, 0x1A] ++ List.replicate 8 1 ++ List.replicate 8 source ++ [2, 0x34, 0x12, 0] }

/-- The same without compression, to the broadcast PAN. -/
def broadcastResponse : Event :=
  { sampleResponse 5 with
    body := [0x23, 0xCC, 9, 0xFF, 0xFF] ++ List.replicate 8 1 ++ [0x62, 0x1A] ++ List.replicate 8 5 ++
      [2, 0x34, 0x12, 0] }

theorem association_safe_response :
    (stepRx (Runs.run call (init 0) [.start shortRequest 0]).2 1 (some (sampleResponse 5)) 0).2.1 = some .response ∧
    ∃ e frame command, some (sampleResponse 5) = some e ∧
      Accepted (Runs.run call (init 0) [.start shortRequest 0]).2 1 e 0 frame command ∧
      InWindow (Runs.run call (init 0) [.start shortRequest 0]).2 1 e := by
  have hresponse : (stepRx (Runs.run call (init 0) [.start shortRequest 0]).2 1 (some (sampleResponse 5)) 0).2.1 =
      some .response := by decide +kernel
  obtain ⟨e, frame, command, he, haccepted, hwindow, -⟩ :=
    (association_safe 0 [.start shortRequest 0]).1 1 (some (sampleResponse 5)) 0 hresponse
  exact ⟨hresponse, e, frame, command, he, haccepted, hwindow⟩

/-- A coordinator that was chosen by its short address is answered for by any
extended address, and in the second profile also towards the broadcast PAN. -/
theorem association_unbound :
    (stepRx (start (init 0) shortRequest 0).2 1 (some (sampleResponse 5)) 0).2.1 = some .response ∧
    (stepRx (start (init 0) shortRequest 0).2 1 (some (sampleResponse 6)) 0).2.1 = some .response ∧
    (stepRx (start (init 0) shortRequest 0).2 1 (some broadcastResponse) 1).2.1 = some .response ∧
    (MacFrame.decode (sampleResponse 5).body).toOption.map (fun f => f.header.source) =
      some (Vector.replicate 8 5) ∧
    (MacFrame.decode (sampleResponse 6).body).toOption.map (fun f => f.header.source) =
      some (Vector.replicate 8 6) ∧
    (MacFrame.decodeProfile broadcastResponse.body 1).toOption.map (fun f => f.header.destinationPan) =
      some 0xFFFF := by
  decide +kernel

end MacAssociation
