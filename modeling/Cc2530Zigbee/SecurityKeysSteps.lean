import Cc2530Zigbee.SecurityKeysSend

/-!
# Key custody: calls as steps

A plan meets the journal here, and every public call becomes one step. A call
in which the supply is lost ends in a start from the surviving pages; the log
of its encryptions survives in the report.
-/
namespace SecurityKeys

open NvRecord (Device)

variable (build : Build)

/-- The results a call reports, its encryptions, and the state it leaves. -/
abbrev Outcome := Except (Device × List Sealing) (Reply × List Sealing × State)

/-- The end of a call. -/
def done (log : List Sealing) (s : State) (reply : Reply) : Outcome :=
  .ok ((finish s reply).1, log, (finish s reply).2)

/-- A save that may be absent. -/
def commit (s : State) (r : Option Record) (polls : UInt16) : Except Device (Bool × State) :=
  match r with
  | none => .ok (true, s)
  | some r => save build s r polls

/-- Save, then reply. -/
def store (s : State) (r : Record) (reply : Reply) (polls : UInt16) : Outcome :=
  match save build s r polls with
  | .error d => .error (d, [])
  | .ok (false, s) => done [] s (.of .storage)
  | .ok (true, s) => done [] s reply

/-- The tail of the sending calls after their tests. -/
def transmit (s : State) (t : Transmission) : Outcome :=
  match sealPacket build t.output.call t.limits s t.record t.packet t.apsSecure with
  | .error e => .error e
  | .ok (.error e, log, s) => done log s (.of e)
  | .ok (.ok frame, log, s) =>
    if t.preflight = true ∧ t.output.capacity.toNat < frame.length then done log s (.of .space)
    else match commit build s t.commit t.output.call.polls with
      | .error d => .error (d, log)
      | .ok (false, s) => done log s (.of .storage)
      | .ok (true, s) =>
        let s := match t.pending with
          | some r => keepVolatile build s r
          | none => s
        done log s (publish t.output frame)

def execute (s : State) (polls : UInt16) : Plan → Outcome
  | .stop r => done [] s (.of r)
  | .store r reply => store build s r reply polls
  | .stage r image phase =>
    let c := SecurityCounter.restage build s.counter .accepted image
    let s := { s with counter := c.2 }
    if c.1 = .ok then done [] { s with phase := phase } (.of .ok) else store build s r (.of .ok) polls
  | .keep r reply => done [] (keepVolatile build s r) reply
  | .transmit t => transmit build s t

/-- The calls of a build that work on the loaded record. -/
inductive Task (build : Build) where
  | upgradeParent (polls : UInt16) : build.parentRecovery = true → Task build
  | rememberParent (parent : Option Parent) (polls : UInt16) : build.parentRecovery = true → Task build
  | selectParent (router updateId : UInt8) (polls : UInt16) : build.parentRecovery = true → Task build
  | associate (shortAddress polls : UInt16) : Task build
  | routerParent (routerAddress polls : UInt16) : build.routerJoin = true → Task build
  | receive (d : Delivery) : Task build
  | request (nwkSeq apsCounter : UInt8) (o : Output) : Task build
  | verify (nwkSeq apsCounter : UInt8) (o : Output) : Task build
  | leave (nwkSeq : UInt8) (o : Output) : Task build
  | send (packet : Option EdWire.Packet) (apsSecure : UInt8) (o : Output) : Task build

/-- The calls of a build, and the reset. -/
inductive Op (build : Build) where
  | keysOpen : Op build
  | provision (config : Option Config) (installCode : Option (Vector UInt8 18)) (nwkFloor apsFloor : UInt32)
      (call : Call) : Op build
  | recommission : build.defaultTcKey = true → Op build
  | status (output : Bool) : Op build
  | task : Task build → Op build
  | reset : Op build

variable {build}

/-- What a call decides on the record it loaded. -/
def Task.plan (c : Context) : Task build → Plan
  | .upgradeParent polls _ => SecurityKeys.upgradeParent c polls
  | .rememberParent parent polls _ => SecurityKeys.rememberParent build c parent polls
  | .selectParent router updateId polls _ => SecurityKeys.selectParent build c router updateId polls
  | .associate shortAddress polls => SecurityKeys.associate c shortAddress polls
  | .routerParent routerAddress polls _ => SecurityKeys.routerParent build c routerAddress polls
  | .receive d => SecurityKeys.receive build c d
  | .request nwkSeq apsCounter o => SecurityKeys.request build c nwkSeq apsCounter o
  | .verify nwkSeq apsCounter o => SecurityKeys.verify build c nwkSeq apsCounter o
  | .leave nwkSeq o => SecurityKeys.leave c nwkSeq o
  | .send packet apsSecure o => SecurityKeys.send build c packet apsSecure o

/-- The polls of its save. -/
def Task.polls : Task build → UInt16
  | .upgradeParent polls _ => polls
  | .rememberParent _ polls _ => polls
  | .selectParent _ _ polls _ => polls
  | .associate _ polls => polls
  | .routerParent _ polls _ => polls
  | .receive d => d.call.polls
  | .request _ _ o => o.call.polls
  | .verify _ _ o => o.call.polls
  | .leave _ o => o.call.polls
  | .send _ _ o => o.call.polls

/-- The working storage of a receiving call at its verdict. -/
def Task.work (c : Context) : Task build → Option Work
  | .receive d => match verdict build c d with
    | .ok v => some v.2
    | .error _ => none
  | _ => none

/-- What a step shows: the reply, absent after a reset or a lost supply, the
frames that authenticated and the encryptions made. -/
structure Report where
  reply : Option Reply
  nwkHeard : Option NwkHeard
  apsHeard : Option ApsHeard
  sealed : List Sealing

/-- A reset, or a supply lost outside a receiving or sending call. -/
def Report.dark : Report := ⟨none, none, none, []⟩

def quiet (r : Reply × State) : Report × State := (⟨some r.1, none, none, []⟩, r.2)

/-- The report of an outcome; a lost supply ends in a start. -/
def settle (w : Option Work) : Outcome → Report × State
  | .error (d, log) => (⟨none, w.bind Work.nwkHeard, w.bind Work.apsHeard, log⟩, cold d)
  | .ok (reply, log, s) => (⟨some reply, w.bind Work.nwkHeard, w.bind Work.apsHeard, log⟩, s)

variable (build)

/-- A call on the record `load` finds. -/
def perform (s : State) (t : Task build) : Report × State :=
  match load build s with
  | (.error r, s) => quiet (finish s (.of r))
  | (.ok (size, record), s) =>
    let c : Context := ⟨s.phase, size, record⟩
    settle (t.work c) (execute build s t.polls (t.plan c))

def step (s : State) : Op build → Report × State
  | .keysOpen => quiet (keysOpen build s)
  | .provision config installCode nwkFloor apsFloor call =>
    match provision build s config installCode nwkFloor apsFloor call with
    | .error d => (.dark, cold d)
    | .ok r => quiet r
  | .recommission _ => quiet (recommission s)
  | .status output => quiet (status build s output)
  | .task t => perform build s t
  | .reset => (.dark, cold s.counter.nv.device)

end SecurityKeys
