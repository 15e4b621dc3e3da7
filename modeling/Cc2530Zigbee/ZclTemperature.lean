import Cc2530Zigbee.Runs
import Cc2530Zigbee.WrappedClock
import Cc2530Zigbee.ZclDispatch

/-!
# The temperature server and its report lease

`zcl_temperature.c`. The context keeps how long ago, in seconds of the caller's clock,
reporting was configured or the last report was issued. Every call first measures the
time since the last one that succeeded; nothing is written before the last step that
can fail, but a clock that jumps, a lease that is too old or the last token latch a
fault.
-/
namespace Zcl.Temperature
open Octets

/-- Reporting: the intervals in seconds and the change worth a report. -/
structure Cfg where
  minimum : UInt16
  maximum : UInt16
  change : Int16
  deriving DecidableEq, Repr

inductive Fault where
  | none | time | token
  deriving DecidableEq, Repr

structure Context where
  stamp : UInt32
  pendingAt : UInt32
  age : UInt16
  serial : UInt16
  minimum : Int16
  maximum : Int16
  value : Int16
  baseline : Int16
  pendingValue : Int16
  defaults : Cfg
  reporting : Cfg
  configured : Bool
  pending : Bool
  fault : Fault
  deriving DecidableEq, Repr

structure Report where
  token : UInt16
  ready : Bool
  length : Nat
  deriving DecidableEq, Repr

def unknown : Int16 := -32768
def pendingLimit : UInt32 := 65535

def commandConfigure : UInt8 := 0x06
def commandConfigResponse : UInt8 := 0x07
def commandReadConfig : UInt8 := 0x08
def commandReadResponse : UInt8 := 0x09
def commandReport : UInt8 := 0x0a
def statusNotFound : UInt8 := 0x8b
def statusUnreportable : UInt8 := 0x8c
def statusInvalidValue : UInt8 := 0x87

def validCfg (c : Cfg) : Bool :=
  c.maximum = 0xffff ∨ ((c.maximum = 0 ∨ c.minimum ≤ c.maximum) ∧ c.change ≠ unknown)

/-- The age behind a call at `now`, or the context with its fault. -/
def advance (ctx : Context) (now : UInt32) : Except Context UInt16 :=
  let elapsed := now - ctx.stamp
  if ctx.fault ≠ .none then .error ctx
  else if elapsed ≥ 0x80000000 ∨ (ctx.pending ∧ now - ctx.pendingAt > pendingLimit) then
    .error { ctx with fault := .time }
  else
    let elapsed := elapsed + ctx.age.toUInt32
    .ok (if elapsed > 65535 then 65535 else elapsed.toUInt16)

def configure (ctx : Context) (cfg : Cfg) : Context :=
  let configured := cfg.maximum ≠ 0xffff
  { ctx with
    reporting := if configured then cfg else { cfg with change := 0 }
    configured := configured
    age := 0
    baseline := ctx.value }

/-- Limits and defaults a context may start with. -/
def initAccepts (minimum maximum : Int16) (defaults : Cfg) : Bool :=
  ¬((minimum ≠ unknown ∧ (minimum < -27315 ∨ minimum > 32766)) ∨
    (maximum ≠ unknown ∧ maximum < -27314) ∨
    (minimum ≠ unknown ∧ maximum ≠ unknown ∧ maximum ≤ minimum) ∨
    (defaults.minimum = 0xffff ∧ defaults.maximum = 0) ∨
    ¬ validCfg defaults)

def tempInit (ctx : Context) (now : UInt32) (minimum maximum : Int16) (defaults : Cfg) : Codec × Context :=
  if ¬ initAccepts minimum maximum defaults then (.invalidValue, ctx)
  else
    let defaults := if defaults.maximum = 0xffff then { defaults with change := 0 } else defaults
    (.ok, configure
      { stamp := now, pendingAt := 0, age := 0, serial := 0, minimum := minimum, maximum := maximum, value := unknown
        baseline := 0, pendingValue := 0, defaults := defaults, reporting := ⟨0, 0, 0⟩, configured := false
        pending := false, fault := .none } defaults)

def tempSample (ctx : Context) (now : UInt32) (value : Int16) : Codec × Context :=
  match advance ctx now with
  | .error ctx => (.invalidValue, ctx)
  | .ok nextAge =>
    if value ≠ unknown ∧ (value < -27315 ∨ (ctx.minimum ≠ unknown ∧ value < ctx.minimum) ∨
        (ctx.maximum ≠ unknown ∧ value > ctx.maximum)) then (.invalidValue, ctx)
    else (.ok, { ctx with value := value, stamp := now, age := nextAge })

/-! ## Reporting configuration -/

/-- The octets of the reportable change: only analog types have one. -/
def changeWidth (type : UInt8) : Option Nat :=
  if 0x20 ≤ type ∧ type ≤ 0x2f then some ((type &&& 7).toNat + 1)
  else if 0x38 ≤ type ∧ type ≤ 0x3a then some (2 <<< (type - 0x38).toNat)
  else if 0xe0 ≤ type ∧ type ≤ 0xe2 then some 4
  else if valueTypeSupported type ∨ type = 0x43 ∨ type = 0x44 ∨ type = 0x48 ∨ type = 0x4c ∨ type = 0x50 ∨
      type = 0x51 ∨ (0xe8 ≤ type ∧ type ≤ 0xea) ∨ type = 0xf0 ∨ type = 0xf1 then some 0
  else none

def known (id : UInt16) : Bool := id ≤ 2 ∨ id = 0xfffd

structure ReportingState where
  body : Bytes
  accepted : Option Cfg
  count : Nat
  returned : Nat
  full : Bool
  deriving DecidableEq, Repr

/-- The configuration a record asks for. The change is read only where it has the type of
the attribute. -/
def recordCfg (p : Bytes) : Cfg :=
  ⟨u16At p 1, u16At p 3, if byteAt p 0 = typeInt16 then (u16At p 5).toInt16 else 0⟩

/-- The status of a configuration record for reports from here, and the configuration it
stands for. -/
def recordStatus (ctx : Context) (id : UInt16) (type : UInt8) (cfg : Cfg) : UInt8 × Cfg :=
  if ¬ known id then (statusUnsupportedAttribute, cfg)
  else if id ≠ 0 ∨ type = 0x48 ∨ type = 0x4c ∨ type = 0x50 ∨ type = 0x51 then (statusUnreportable, cfg)
  else if type ≠ typeInt16 then (statusInvalidDataType, cfg)
  else if cfg.minimum = 0xffff ∧ cfg.maximum = 0 then (statusSuccess, ctx.defaults)
  else (if validCfg cfg then statusSuccess else statusInvalidValue, cfg)

/-- One Configure Reporting record behind its direction and identifier: the octets it takes
and the state behind it. No result: it is cut short. -/
def configureRecord (ctx : Context) (direction : UInt8) (id : UInt16) (p : Bytes) (s : ReportingState) :
    Except Codec (Option (Nat × ReportingState)) :=
  let fails (status : UInt8) : ReportingState :=
    { s with body := s.body ++ [status, direction] ++ put16 id, returned := s.returned + 1, count := s.count + 1 }
  if direction ≠ 0 then .ok (if p.length < 2 then none else some (2, fails statusUnreportable))
  else if p.length < 5 then .ok none
  else
    match changeWidth (byteAt p 0) with
    | none => .error .unsupportedDataType
    | some width =>
      if p.length < width + 5 then .ok none
      else
        let r := recordStatus ctx id (byteAt p 0) (recordCfg p)
        .ok (some (width + 5,
          if r.1 = statusSuccess then { s with accepted := some r.2, count := s.count + 1 } else fails r.1))

/-- The status of a Read Reporting Configuration record. -/
def readConfigStatus (ctx : Context) (direction : UInt8) (id : UInt16) : UInt8 :=
  if direction = 0 ∧ known id then
    if id ≠ 0 then statusUnreportable else if ctx.configured then statusSuccess else statusNotFound
  else statusUnsupportedAttribute

/-- One Read Reporting Configuration record: it is left out with all that follow when it
does not fit. -/
def readConfigRecord (ctx : Context) (budget : Nat) (direction : UInt8) (id : UInt16) (s : ReportingState) : ReportingState :=
  let status := readConfigStatus ctx direction id
  let record := if status = statusSuccess then 11 else 4
  let full := s.full ∨ s.body.length + record > budget
  if full then { s with full := true, count := s.count + 1 }
  else
    { s with
      body := s.body ++ [status, direction] ++ put16 id ++
        if status = statusSuccess then
          typeInt16 :: (put16 ctx.reporting.minimum ++ put16 ctx.reporting.maximum ++
            put16 ctx.reporting.change.toUInt16)
        else []
      returned := s.returned + 1
      count := s.count + 1 }

/-- The records of a request: whether it is malformed, and the state it leaves. -/
def reportingRecords (ctx : Context) (command : UInt8) (budget : Nat) : (fuel : Nat) → (p : Bytes) → ReportingState →
    Except Codec (Bool × ReportingState)
  | 0, _, s => .ok (false, s)
  | fuel + 1, p, s =>
    if p.length = 0 then .ok (false, s)
    else if p.length < 3 ∨ byteAt p 0 > 1 then .ok (true, s)
    else
      let rest := p.drop 3
      if command = commandConfigure then
        match configureRecord ctx (byteAt p 0) (u16At p 1) rest s with
        | .error e => .error e
        | .ok none => .ok (true, s)
        | .ok (some (width, s)) => reportingRecords ctx command budget fuel (rest.drop width) s
      else reportingRecords ctx command budget fuel rest (readConfigRecord ctx budget (byteAt p 0) (u16At p 1) s)

/-- The command, payload and information of the answer, and the configuration to take. -/
structure ReportingAnswer where
  commandId : UInt8
  body : Bytes
  info : DispatchInfo
  accepted : Option Cfg

def reportingAnswer (h : Header) (malformed : Bool) (s : ReportingState) : Except Codec ReportingAnswer :=
  let info := { DispatchInfo.zero with sequence := h.sequence }
  if malformed then
    .ok ⟨commandDefaultResponse, [h.commandId, statusMalformedCommand],
      { info with
        defaultCommand := h.commandId
        defaultStatus := statusMalformedCommand
        defaultRawStatus := statusMalformedCommand }, none⟩
  else
    let success := h.commandId = commandConfigure ∧ s.body.length = 0
    let body := if success then [statusSuccess] else s.body
    if body.length = 0 then .error .bufferTooSmall
    else
      .ok ⟨if h.commandId = commandConfigure then commandConfigResponse else commandReadResponse, body,
        { info with
          requestedCount := s.count
          returnedCount := if success then 1 else s.returned }, s.accepted⟩

/-- Configure Reporting and Read Reporting Configuration: the status, the buffer, the
information, and the configuration to take. -/
def reportingCommand (ctx : Context) (frame : FrameInfo) (p response : Bytes) (capacity : Nat) :
    Codec × Bytes × DispatchInfo × Option Cfg :=
  let h := frame.header
  if h.commandId = commandConfigure ∧ ctx.pending then (.unsupportedContext, response, .zero, none)
  else
    match reportingRecords ctx h.commandId (budget capacity - 3) p.length p ⟨[], none, 0, 0, false⟩ with
    | .error e => (e, response, .zero, none)
    | .ok (malformed, s) =>
      match reportingAnswer h (malformed ∨ p.length = 0) s with
      | .error e => (e, response, .zero, none)
      | .ok answer =>
        let reply := { h with flags := flagServerToClient ||| flagDisableDefaultResponse, commandId := answer.commandId }
        match frameEncodeInto reply answer.body response capacity 0 with
        | (.ok, response, length) =>
          (.ok, response, { answer.info with length := length.toNat, commandId := answer.commandId }, answer.accepted)
        | (e, response, _) => (e, response, .zero, none)

/-- The four attributes the other global commands see. -/
def view (ctx : Context) : AttributeSet where
  attributes := [⟨0, 1, ⟨typeInt16, 0, put16 ctx.value.toUInt16⟩⟩, ⟨1, 1, ⟨typeInt16, 0, put16 ctx.minimum.toUInt16⟩⟩,
    ⟨2, 1, ⟨typeInt16, 0, put16 ctx.maximum.toUInt16⟩⟩, ⟨0xfffd, 1, ⟨typeUint16, 0, put16 3⟩⟩]
  side := 0
  manufacturerSpecific := 0
  manufacturerCode := 0

/-- The answer to a request: its status, the buffer, the information, and the configuration to take. -/
def rxAnswer (ctx : Context) (request response : Bytes) (capacity : Nat) : Codec × Bytes × DispatchInfo × Option Cfg :=
  match frameDecode request with
  | .error e => (e, response, .zero, none)
  | .ok frame =>
    let h := frame.header
    if has h.flags flagServerToClient then (.unsupportedContext, response, .zero, none)
    else if h.type = frameGlobal ∧ ¬ has h.flags flagManufacturerSpecific ∧
        (h.commandId = commandConfigure ∨ h.commandId = commandReadConfig) then
      reportingCommand ctx frame (request.drop frame.payloadOffset) response capacity
    else
      match dispatchUnicast (view ctx) request response capacity .zero with
      | (rc, response, candidate) => (rc, response, candidate, none)

def tempRx (ctx : Context) (now : UInt32) (request response : Bytes) (capacity : Nat) (info : DispatchInfo) :
    Codec × Context × Bytes × DispatchInfo :=
  match advance ctx now with
  | .error ctx => (.invalidValue, ctx, response, info)
  | .ok nextAge =>
    match rxAnswer ctx request response capacity with
    | (.ok, response, candidate, some cfg) => (.ok, { configure ctx cfg with stamp := now }, response, candidate)
    | (.ok, response, candidate, none) => (.ok, { ctx with stamp := now, age := nextAge }, response, candidate)
    | (e, response, _, _) => (e, ctx, response, info)

/-! ## Reports -/

def due (ctx : Context) (nextAge : UInt16) : Bool :=
  if ¬ ctx.configured ∨ nextAge < ctx.reporting.minimum then false
  else if ctx.reporting.maximum ≠ 0 ∧ nextAge ≥ ctx.reporting.maximum then true
  else if ctx.value = ctx.baseline then false
  else if ctx.value = unknown ∨ ctx.baseline = unknown then true
  else decide ((ctx.value.toInt - ctx.baseline.toInt).natAbs ≥ ctx.reporting.change.toInt.natAbs)

/-- The frame of a report. -/
def reportFrame (ctx : Context) (sequence : UInt8) : Except Codec (Header × Bytes) :=
  match valueEncode ⟨typeInt16, 0, put16 ctx.value.toUInt16⟩ 2 with
  | .error e => .error e
  | .ok octets =>
    .ok (⟨frameGlobal, flagServerToClient ||| flagDisableDefaultResponse, 0, sequence, commandReport⟩,
      [0, 0, typeInt16] ++ octets)

def tempPrepare (ctx : Context) (now : UInt32) (sequence routes : UInt8) (response : Bytes) (capacity : Nat)
    (report : Report) : Codec × Context × Bytes × Report :=
  if routes > 1 then (.invalidValue, ctx, response, report)
  else
    match advance ctx now with
    | .error ctx => (.invalidValue, ctx, response, report)
    | .ok nextAge =>
      if ctx.pending then (.unsupportedContext, ctx, response, report)
      else if routes ≠ 0 ∧ due ctx nextAge then
        if ctx.serial = 0xffff then (.invalidValue, { ctx with fault := .token }, response, report)
        else
          match reportFrame ctx sequence with
          | .error e => (e, ctx, response, report)
          | .ok (header, payload) =>
            match frameEncodeInto header payload response capacity 0 with
            | (.ok, response, length) =>
              (.ok,
                { ctx with
                  serial := ctx.serial + 1
                  pending := true
                  pendingAt := now
                  pendingValue := ctx.value
                  stamp := now
                  age := nextAge },
                response, ⟨ctx.serial + 1, true, length.toNat⟩)
            | (e, response, _) => (e, ctx, response, report)
      else (.ok, { ctx with stamp := now, age := nextAge }, response, ⟨0, false, 0⟩)

def tempFinish (ctx : Context) (now : UInt32) (token : UInt16) (sent : UInt8) (issuedAt : UInt32) : Codec × Context :=
  if sent > 1 ∨ (sent = 0 ∧ issuedAt ≠ 0) ∨ ¬ ctx.pending ∨ token ≠ ctx.serial then (.invalidValue, ctx)
  else
    match advance ctx now with
    | .error ctx => (.invalidValue, ctx)
    | .ok nextAge =>
      if sent ≠ 0 then
        if issuedAt - ctx.pendingAt > now - ctx.pendingAt then (.invalidValue, ctx)
        else
          (.ok, { ctx with
            baseline := ctx.pendingValue
            pending := false
            pendingAt := 0
            pendingValue := 0
            stamp := now
            age := (now - issuedAt).toUInt16 })
      else
        (.ok, { ctx with pending := false, pendingAt := 0, pendingValue := 0, stamp := now, age := nextAge })

/-! ## What a call does -/

/-- A context in which at most the fault differs. -/
def Kept (ctx ctx' : Context) : Prop := ∃ fault, ctx' = { ctx with fault := fault }

theorem Kept.refl (ctx : Context) : Kept ctx ctx := ⟨ctx.fault, rfl⟩

/-- The clock accepts a call: the fault is clear, less than half its range has passed, and a
report on loan is not too old. -/
structure OnTime (ctx : Context) (now : UInt32) (nextAge : UInt16) : Prop where
  elapsed : (now - ctx.stamp).toNat < 2 ^ 31
  loan : ctx.pending = true → (now - ctx.pendingAt).toNat ≤ 65535
  age : nextAge.toNat = min 65535 (ctx.age.toNat + (now - ctx.stamp).toNat)

theorem advance_cases (ctx : Context) (now : UInt32) :
    (∃ nextAge, advance ctx now = .ok nextAge ∧ OnTime ctx now nextAge) ∨
      ∃ ctx', advance ctx now = .error ctx' ∧ Kept ctx ctx' := by
  unfold advance
  simp only
  split
  · exact .inr ⟨ctx, rfl, Kept.refl ctx⟩
  split
  · exact .inr ⟨_, rfl, ⟨.time, rfl⟩⟩
  next hgood =>
    obtain ⟨hhalf, hloan⟩ := not_or.1 hgood
    have hlt : (now - ctx.stamp).toNat < 2 ^ 31 :=
      Nat.lt_of_not_le fun hle => hhalf (UInt32.le_iff_toNat_le.2 hle)
    have hage := ctx.age.toNat_lt
    have hsum : (now - ctx.stamp + ctx.age.toUInt32).toNat = (now - ctx.stamp).toNat + ctx.age.toNat := by
      rw [UInt32.toNat_add, UInt16.toNat_toUInt32]
      omega
    refine .inl ⟨_, rfl, hlt, fun hpending => ?_, ?_⟩
    · by_contra hgt
      exact hloan ⟨hpending, UInt32.lt_iff_toNat_lt.2 (Nat.lt_of_not_le hgt)⟩
    · split
      next hbig =>
        have := UInt32.lt_iff_toNat_lt.1 hbig
        rw [hsum] at this
        have h65535 : (65535 : UInt32).toNat = 65535 := rfl
        have hmax : (65535 : UInt16).toNat = 65535 := rfl
        omega
      next hsmall =>
        have hle : (now - ctx.stamp + ctx.age.toUInt32).toNat ≤ 65535 :=
          Nat.le_of_not_lt fun hlt => hsmall (UInt32.lt_iff_toNat_lt.2 hlt)
        rw [UInt32.toNat_toUInt16, hsum]
        rw [hsum] at hle
        omega

/-- What moves the reporting clock apart from time itself. -/
inductive Event where
  | quiet | configured | issued | confirmed (issuedAt : UInt32) | cancelled
  deriving DecidableEq, Repr

/-- What a call does to the context. -/
inductive Effect (ctx : Context) (now : UInt32) : Codec → Event → Context → Prop
  | refused {e : Codec} {ctx' : Context} (hne : e ≠ .ok) (hkept : Kept ctx ctx') : Effect ctx now e .quiet ctx'
  | aged {nextAge : UInt16} (value : Int16) (htime : OnTime ctx now nextAge) :
      Effect ctx now .ok .quiet { ctx with value := value, stamp := now, age := nextAge }
  | configured {nextAge : UInt16} (cfg : Cfg) (htime : OnTime ctx now nextAge) (hfree : ctx.pending = false) :
      Effect ctx now .ok .configured { configure ctx cfg with stamp := now }
  | issued {nextAge : UInt16} (htime : OnTime ctx now nextAge) (hfree : ctx.pending = false) (hserial : ctx.serial ≠ 0xffff) :
      Effect ctx now .ok .issued
        { ctx with
          serial := ctx.serial + 1
          pending := true
          pendingAt := now
          pendingValue := ctx.value
          stamp := now
          age := nextAge }
  | confirmed {nextAge : UInt16} {issuedAt : UInt32} (htime : OnTime ctx now nextAge) (hpending : ctx.pending = true)
      (hwithin : (issuedAt - ctx.pendingAt).toNat ≤ (now - ctx.pendingAt).toNat) :
      Effect ctx now .ok (.confirmed issuedAt)
        { ctx with
          baseline := ctx.pendingValue
          pending := false
          pendingAt := 0
          pendingValue := 0
          stamp := now
          age := (now - issuedAt).toUInt16 }
  | cancelled {nextAge : UInt16} (htime : OnTime ctx now nextAge) (hpending : ctx.pending = true) :
      Effect ctx now .ok .cancelled
        { ctx with pending := false, pendingAt := 0, pendingValue := 0, stamp := now, age := nextAge }

theorem tempSample_effect (ctx : Context) (now : UInt32) (value : Int16) :
    Effect ctx now (tempSample ctx now value).1 .quiet (tempSample ctx now value).2 := by
  unfold tempSample
  rcases advance_cases ctx now with ⟨nextAge, heq, htime⟩ | ⟨ctx', heq, hkept⟩
  · simp only [heq]
    split
    · exact .refused (e := .invalidValue) (by decide) (Kept.refl ctx)
    · exact .aged value htime
  · simp only [heq]
    exact .refused (e := .invalidValue) (by decide) hkept

/-- A request fails and leaves the buffer alone, or succeeds; a configuration is taken only
while no report is on loan. -/
def Answered (ctx : Context) (response : Bytes) (out : Codec × Bytes × DispatchInfo × Option Cfg) : Prop :=
  (∃ e info, e ≠ .ok ∧ out = (e, response, info, none)) ∨
    ∃ response' info accepted, out = (.ok, response', info, accepted) ∧ (accepted ≠ none → ctx.pending = false)

theorem readConfigRecord_accepted (ctx : Context) (budget : Nat) (direction : UInt8) (id : UInt16) (s : ReportingState) :
    (readConfigRecord ctx budget direction id s).accepted = s.accepted := by
  unfold readConfigRecord
  simp only
  split_ifs <;> rfl

/-- Only Configure Reporting accepts a configuration. -/
theorem reportingRecords_accepted {ctx : Context} {command : UInt8} {budget fuel : Nat} {p : Bytes}
    {s s' : ReportingState} {malformed : Bool} (hcommand : command ≠ commandConfigure)
    (h : reportingRecords ctx command budget fuel p s = .ok (malformed, s')) : s'.accepted = s.accepted := by
  induction fuel generalizing p s with
  | zero =>
    cases h
    rfl
  | succ fuel ih =>
    simp only [reportingRecords] at h
    split at h
    · cases h
      rfl
    split at h
    · cases h
      rfl
    rw [ih h, readConfigRecord_accepted]

theorem configureRecord_error {ctx : Context} {direction : UInt8} {id : UInt16} {p : Bytes} {s : ReportingState} {e : Codec}
    (h : configureRecord ctx direction id p s = .error e) : e = .unsupportedDataType := by
  unfold configureRecord at h
  simp only at h
  split at h
  · cases h
  split at h
  · cases h
  split at h
  · cases h
    rfl
  split at h <;> cases h

theorem reportingRecords_error {ctx : Context} {command : UInt8} {budget fuel : Nat} {p : Bytes} {s : ReportingState}
    {e : Codec} (h : reportingRecords ctx command budget fuel p s = .error e) : e = .unsupportedDataType := by
  induction fuel generalizing p s with
  | zero => cases h
  | succ fuel ih =>
    simp only [reportingRecords] at h
    split at h
    · cases h
    split at h
    · cases h
    split at h
    · split at h
      next e' he' =>
        cases h
        exact configureRecord_error he'
      · cases h
      · exact ih h
    · exact ih h

theorem reportingAnswer_error {h : Header} {malformed : Bool} {s : ReportingState} {e : Codec}
    (he : reportingAnswer h malformed s = .error e) : e = .bufferTooSmall := by
  unfold reportingAnswer at he
  simp only at he
  split_ifs at he <;> cases he <;> rfl

/-- The answer passes on what the records accepted, or nothing. -/
theorem reportingAnswer_accepted {h : Header} {malformed : Bool} {s : ReportingState} {answer : ReportingAnswer}
    (he : reportingAnswer h malformed s = .ok answer) : answer.accepted = none ∨ answer.accepted = s.accepted := by
  unfold reportingAnswer at he
  simp only at he
  split_ifs at he <;> cases he <;> simp

theorem reportingCommand_answered (ctx : Context) (frame : FrameInfo) (p response : Bytes) (capacity : Nat) :
    Answered ctx response (reportingCommand ctx frame p response capacity) := by
  unfold reportingCommand
  simp only
  split
  · exact .inl ⟨_, _, by decide, rfl⟩
  next hfree =>
    split
    next e he => exact .inl ⟨e, _, by rw [reportingRecords_error he]; decide, rfl⟩
    next malformed s hs =>
      split
      next e he => exact .inl ⟨e, _, by rw [reportingAnswer_error he]; decide, rfl⟩
      next answer hanswer =>
        rcases frameEncodeInto_cases
            { frame.header with
              flags := flagServerToClient ||| flagDisableDefaultResponse
              commandId := answer.commandId } answer.body response capacity 0 with
          ⟨octets, _, heq⟩ | ⟨e, hne, _, heq⟩
        · simp only [heq]
          refine .inr ⟨_, _, answer.accepted, rfl, fun haccepted => ?_⟩
          by_cases hcommand : frame.header.commandId = commandConfigure
          · by_contra hpending
            exact hfree ⟨hcommand, by simpa using hpending⟩
          · have hnone := reportingRecords_accepted hcommand hs
            rcases reportingAnswer_accepted hanswer with hn | hn
            · exact absurd hn haccepted
            · exact absurd (hn.trans hnone) haccepted
        · refine .inl ⟨e, .zero, hne, ?_⟩
          cases e <;> first
            | exact absurd rfl hne
            | simp only [heq]

theorem rxAnswer_answered (ctx : Context) (request response : Bytes) (capacity : Nat) :
    Answered ctx response (rxAnswer ctx request response capacity) := by
  unfold rxAnswer
  split
  next e he => exact .inl ⟨e, _, fun hok => frameDecode_error request (hok ▸ he), rfl⟩
  next frame _ =>
    simp only
    split
    · exact .inl ⟨_, _, by decide, rfl⟩
    split
    · exact reportingCommand_answered ctx frame _ response capacity
    · rcases dispatchUnicast_settled (view ctx) request response capacity .zero with
        ⟨e, hne, heq⟩ | ⟨response', info', heq⟩
      · simp only [heq]
        exact .inl ⟨e, _, hne, rfl⟩
      · simp only [heq]
        exact .inr ⟨_, _, none, rfl, fun hne => absurd rfl hne⟩

/-- Whether a request was taken as a configuration. -/
def configures (ctx : Context) (request response : Bytes) (capacity : Nat) : Bool :=
  (rxAnswer ctx request response capacity).1 = .ok ∧ (rxAnswer ctx request response capacity).2.2.2 ≠ none

def rxEvent (ctx : Context) (now : UInt32) (request response : Bytes) (capacity : Nat) (info : DispatchInfo) : Event :=
  if (tempRx ctx now request response capacity info).1 = .ok ∧ configures ctx request response capacity then .configured
  else .quiet

theorem tempRx_effect (ctx : Context) (now : UInt32) (request response : Bytes) (capacity : Nat) (info : DispatchInfo) :
    Effect ctx now (tempRx ctx now request response capacity info).1 (rxEvent ctx now request response capacity info)
        (tempRx ctx now request response capacity info).2.1 ∧
      ((tempRx ctx now request response capacity info).1 ≠ .ok →
        (tempRx ctx now request response capacity info).2.2 = (response, info)) := by
  unfold rxEvent configures tempRx
  rcases advance_cases ctx now with ⟨nextAge, heq, htime⟩ | ⟨ctx', heq, hkept⟩
  · simp only [heq]
    rcases rxAnswer_answered ctx request response capacity with
      ⟨e, info', hne, hanswer⟩ | ⟨response', info', accepted, hanswer, hfree⟩
    · simp only [hanswer]
      cases e <;> first
        | exact absurd rfl hne
        | exact ⟨.refused (by simp) (Kept.refl ctx), fun _ => rfl⟩
    · cases accepted with
      | none =>
        simp only [hanswer]
        exact ⟨.aged ctx.value htime, fun h => absurd rfl h⟩
      | some cfg =>
        simp only [hanswer]
        exact ⟨.configured cfg htime (hfree (by simp)), fun h => absurd rfl h⟩
  · simp only [heq]
    exact ⟨.refused (by simp) hkept, fun _ => trivial⟩

def prepareEvent (out : Codec × Context × Bytes × Report) : Event :=
  if out.1 = .ok ∧ out.2.2.2.ready then .issued else .quiet

theorem reportFrame_error {ctx : Context} {sequence : UInt8} {e : Codec} (h : reportFrame ctx sequence = .error e) :
    e ≠ .ok := by
  unfold reportFrame at h
  split at h
  next e' he' =>
    cases h
    intro hok
    exact valueEncode_error _ _ (hok ▸ he')
  · cases h

theorem tempPrepare_effect (ctx : Context) (now : UInt32) (sequence routes : UInt8) (response : Bytes) (capacity : Nat)
    (report : Report) :
    let out := tempPrepare ctx now sequence routes response capacity report
    Effect ctx now out.1 (prepareEvent out) out.2.1 ∧ (out.1 ≠ .ok → out.2.2 = (response, report)) ∧
      (prepareEvent out = .issued → out.2.2.2.token = ctx.serial + 1) := by
  unfold tempPrepare prepareEvent
  split
  · exact ⟨.refused (by simp) (Kept.refl ctx), fun _ => rfl, by simp⟩
  rcases advance_cases ctx now with ⟨nextAge, heq, htime⟩ | ⟨ctx', heq, hkept⟩
  · simp only [heq]
    split
    · exact ⟨.refused (by simp) (Kept.refl ctx), fun _ => rfl, by simp⟩
    next hfree =>
      split
      · split
        · exact ⟨.refused (by simp) ⟨.token, rfl⟩, fun _ => rfl, by simp⟩
        next hserial =>
          split
          next e he =>
            have hne := reportFrame_error he
            simp only [hne, false_and, if_false]
            exact ⟨.refused hne (Kept.refl ctx), fun _ => trivial, by simp⟩
          next header payload _ =>
            rcases frameEncodeInto_cases header payload response capacity 0 with ⟨octets, _, henc⟩ | ⟨e, hne, _, henc⟩
            · simp only [henc]
              exact ⟨.issued htime (by simpa using hfree) hserial, fun h => absurd rfl h, fun _ => trivial⟩
            · simp only [henc]
              cases e <;> first
                | exact absurd rfl hne
                | exact ⟨.refused (by simp) (Kept.refl ctx), fun _ => trivial, by simp⟩
      · exact ⟨.aged ctx.value htime, fun h => absurd rfl h, by simp⟩
  · simp only [heq]
    exact ⟨.refused (by simp) hkept, fun _ => trivial, by simp⟩

def finishEvent (status : Codec) (sent : UInt8) (issuedAt : UInt32) : Event :=
  if status ≠ .ok then .quiet else if sent ≠ 0 then .confirmed issuedAt else .cancelled

theorem tempFinish_effect (ctx : Context) (now : UInt32) (token : UInt16) (sent : UInt8) (issuedAt : UInt32) :
    let out := tempFinish ctx now token sent issuedAt
    Effect ctx now out.1 (finishEvent out.1 sent issuedAt) out.2 ∧
      (out.1 = .ok → ctx.pending = true ∧ token = ctx.serial) := by
  unfold tempFinish finishEvent
  split
  · exact ⟨.refused (by simp) (Kept.refl ctx), by simp⟩
  next hgood =>
    simp only [not_or] at hgood
    obtain ⟨_, _, hpending, htoken⟩ := hgood
    have hp : ctx.pending = true := not_not.1 hpending
    have ht : token = ctx.serial := not_not.1 htoken
    rcases advance_cases ctx now with ⟨nextAge, heq, htime⟩ | ⟨ctx', heq, hkept⟩
    · simp only [heq]
      split
      next hsent =>
        split
        · exact ⟨.refused (by simp) (Kept.refl ctx), by simp⟩
        next hwithin =>
          simp only [ne_eq, not_true_eq_false, if_false]
          have hle : (issuedAt - ctx.pendingAt).toNat ≤ (now - ctx.pendingAt).toNat :=
            Nat.le_of_not_lt fun hlt => hwithin (UInt32.lt_iff_toNat_lt.2 hlt)
          exact ⟨.confirmed htime hp hle, fun _ => ⟨hp, ht⟩⟩
      next hsent =>
        simp only [ne_eq, not_true_eq_false, if_false]
        exact ⟨.cancelled htime hp, fun _ => ⟨hp, ht⟩⟩
    · simp only [heq]
      exact ⟨.refused (by simp) hkept, by simp⟩

/-! ## Runs -/

inductive Call where
  | sample (value : Int16)
  | receive (request response : Bytes) (capacity : Nat) (info : DispatchInfo)
  | prepare (sequence routes : UInt8) (response : Bytes) (capacity : Nat) (report : Report)
  | finish (token : UInt16) (sent : UInt8) (issuedAt : UInt32)
  deriving DecidableEq, Repr

/-- What a call answered. The token is the one a report was issued under, or the one a
lease was given back with. -/
structure Answer where
  status : Codec
  event : Event
  token : UInt16
  deriving DecidableEq, Repr

def call (ctx : Context) (now : UInt32) : Call → Answer × Context
  | .sample value =>
    let out := tempSample ctx now value
    (⟨out.1, .quiet, 0⟩, out.2)
  | .receive request response capacity info =>
    let out := tempRx ctx now request response capacity info
    (⟨out.1, rxEvent ctx now request response capacity info, 0⟩, out.2.1)
  | .prepare sequence routes response capacity report =>
    let out := tempPrepare ctx now sequence routes response capacity report
    (⟨out.1, prepareEvent out, out.2.2.2.token⟩, out.2.1)
  | .finish token sent issuedAt =>
    let out := tempFinish ctx now token sent issuedAt
    (⟨out.1, finishEvent out.1 sent issuedAt, token⟩, out.2)

/-- The tokens an answer speaks of are those of the context. -/
def Token (ctx : Context) (answer : Answer) : Prop :=
  match answer.event with
  | .issued => answer.token = ctx.serial + 1
  | .confirmed _ | .cancelled => answer.token = ctx.serial
  | .quiet | .configured => True

theorem call_effect (ctx : Context) (now : UInt32) (c : Call) :
    Effect ctx now (call ctx now c).1.status (call ctx now c).1.event (call ctx now c).2 := by
  cases c with
  | sample value => exact tempSample_effect ctx now value
  | receive request response capacity info => exact (tempRx_effect ctx now request response capacity info).1
  | prepare sequence routes response capacity report =>
    exact (tempPrepare_effect ctx now sequence routes response capacity report).1
  | finish token sent issuedAt => exact (tempFinish_effect ctx now token sent issuedAt).1

theorem call_token (ctx : Context) (now : UInt32) (c : Call) : Token ctx (call ctx now c).1 := by
  cases c with
  | sample value => trivial
  | receive request response capacity info =>
    unfold Token call rxEvent
    simp only
    split_ifs <;> trivial
  | prepare sequence routes response capacity report =>
    have htoken := (tempPrepare_effect ctx now sequence routes response capacity report).2.2
    unfold Token call
    simp only
    split
    next hissued => exact htoken hissued
    next hconfirmed =>
      unfold prepareEvent at hconfirmed
      split at hconfirmed <;> cases hconfirmed
    next hcancelled =>
      unfold prepareEvent at hcancelled
      split at hcancelled <;> cases hcancelled
    all_goals trivial
  | finish token sent issuedAt =>
    have htoken := (tempFinish_effect ctx now token sent issuedAt).2
    unfold Token call finishEvent
    simp only
    split_ifs with hbad hsent
    · trivial
    · exact (htoken (not_not.1 hbad)).2
    · exact (htoken (not_not.1 hbad)).2

/-- A call and the true time it is made at, in seconds. -/
structure Timed where
  time : Nat
  call : Call
  deriving DecidableEq, Repr

/-- The context, and in true time: the last call that succeeded, the configuration or
report the age counts from, and the issue of the report on loan. -/
structure World where
  ctx : Context
  stamped : Nat
  based : Nat
  loaned : Nat
  deriving DecidableEq, Repr

/-- Where the age counts from after an event. -/
def basedAfter (based time : Nat) (now : UInt32) : Event → Nat
  | .configured => time
  | .confirmed issuedAt => time - (now - issuedAt).toNat
  | _ => based

def World.step (w : World) (i : Timed) : Answer × World :=
  let out := Zcl.Temperature.call w.ctx (WrappedClock.shown i.time) i.call
  (out.1,
    { ctx := out.2
      stamped := if out.1.status = .ok then i.time else w.stamped
      based := basedAfter w.based i.time (WrappedClock.shown i.time) out.1.event
      loaned := if out.1.event = .issued then i.time else w.loaned })

/-- A call less than half the range of the clock after the last one that succeeded. -/
def World.Timely (w : World) (i : Timed) : Prop := w.stamped ≤ i.time ∧ i.time < w.stamped + 2 ^ 31

instance (w : World) (i : Timed) : Decidable (w.Timely i) :=
  inferInstanceAs (Decidable (_ ∧ _))

/-- The age is the time from the last configuration or issued report to the last call that
succeeded. -/
structure World.Aged (w : World) : Prop where
  stamp : w.ctx.stamp = WrappedClock.shown w.stamped
  based : w.based ≤ w.stamped
  age : w.ctx.age.toNat = min 65535 (w.stamped - w.based)

/-- The age is right, and the report on loan is young. -/
structure World.Steady (w : World) : Prop extends World.Aged w where
  loan : w.ctx.pending = true →
    w.ctx.pendingAt = WrappedClock.shown w.loaned ∧ w.loaned ≤ w.stamped ∧ w.stamped ≤ w.loaned + 65535

/-- What a call may change: a failing one at most the fault, and the reported baseline moves
with a confirmed report or a configuration only. -/
structure World.Careful (w : World) (i : Timed) : Prop where
  failing : (w.step i).1.status ≠ .ok → Kept w.ctx (w.step i).2.ctx
  baseline : (w.step i).2.ctx.baseline ≠ w.ctx.baseline →
    (w.step i).1.event = .configured ∨ ∃ issuedAt, (w.step i).1.event = .confirmed issuedAt

theorem World.step_careful (w : World) (i : Timed) : w.Careful i := by
  have heffect := call_effect w.ctx (WrappedClock.shown i.time) i.call
  constructor
  · intro hbad
    unfold World.step at *
    simp only at *
    generalize (Temperature.call w.ctx (WrappedClock.shown i.time) i.call) = out at *
    obtain ⟨⟨status, event, token⟩, ctx'⟩ := out
    cases heffect with
    | refused _ hkept => exact hkept
    | _ => exact absurd rfl hbad
  · intro hmoved
    unfold World.step at *
    simp only at *
    generalize (Temperature.call w.ctx (WrappedClock.shown i.time) i.call) = out at *
    obtain ⟨⟨status, event, token⟩, ctx'⟩ := out
    cases heffect with
    | refused _ hkept =>
      obtain ⟨fault, rfl⟩ := hkept
      exact absurd rfl hmoved
    | configured => exact .inl rfl
    | confirmed => exact .inr ⟨_, rfl⟩
    | _ => exact absurd rfl hmoved

/-- A timely call finds the time since the last one as it is, and the age behind it. -/
theorem World.Steady.onTime {w : World} {i : Timed} {nextAge : UInt16} (hw : w.Steady) (hi : w.Timely i)
    (htime : OnTime w.ctx (WrappedClock.shown i.time) nextAge) : nextAge.toNat = min 65535 (i.time - w.based) := by
  have helapsed := htime.age
  rw [hw.stamp, WrappedClock.shown_sub hi.1 (by have := hi.2; omega), hw.age] at helapsed
  have := hw.based
  have := hi.1
  omega

theorem World.Steady.lent {w : World} {i : Timed} {nextAge : UInt16} (hw : w.Steady) (hi : w.Timely i)
    (htime : OnTime w.ctx (WrappedClock.shown i.time) nextAge) (hpending : w.ctx.pending = true) :
    w.loaned ≤ i.time ∧ i.time ≤ w.loaned + 65535 ∧
      (WrappedClock.shown i.time - w.ctx.pendingAt).toNat = i.time - w.loaned := by
  obtain ⟨hat, hle, hyoung⟩ := hw.loan hpending
  have hlimit := htime.loan hpending
  have hfirst := hi.1
  have hlast := hi.2
  have hsince : (WrappedClock.shown i.time - w.ctx.pendingAt).toNat = i.time - w.loaned := by
    rw [hat, WrappedClock.shown_sub (hle.trans hfirst) (by omega)]
  rw [hsince] at hlimit
  exact ⟨hle.trans hfirst, by omega, hsince⟩

/-- Measured backwards from `now`, a time between issue and `now` is no older than the issue. -/
theorem sub_le_of_within {now issuedAt pendingAt : UInt32}
    (h : (issuedAt - pendingAt).toNat ≤ (now - pendingAt).toNat) :
    (now - issuedAt).toNat ≤ (now - pendingAt).toNat := by
  rw [UInt32.toNat_sub, UInt32.toNat_sub] at *
  have := now.toNat_lt
  have := issuedAt.toNat_lt
  have := pendingAt.toNat_lt
  omega

theorem World.step_steady (w : World) (i : Timed) (hw : w.Steady) (hi : w.Timely i) : (w.step i).2.Steady := by
  have heffect := call_effect w.ctx (WrappedClock.shown i.time) i.call
  have hbased := hw.based
  have hfirst := hi.1
  unfold World.step
  simp only
  generalize (Temperature.call w.ctx (WrappedClock.shown i.time) i.call) = out at *
  obtain ⟨⟨status, event, token⟩, ctx'⟩ := out
  cases heffect with
  | refused hne hkept =>
    obtain ⟨fault, rfl⟩ := hkept
    simp only at hne
    simp only [if_neg hne, basedAfter, reduceCtorEq, if_false]
    exact ⟨⟨hw.stamp, hw.based, hw.age⟩, hw.loan⟩
  | aged value htime =>
    exact ⟨⟨rfl, hbased.trans hfirst, hw.onTime hi htime⟩, fun hpending =>
      have hlent := hw.lent hi htime hpending
      ⟨(hw.loan hpending).1, hlent.1, hlent.2.1⟩⟩
  | configured cfg htime hfree =>
    refine ⟨⟨rfl, Nat.le_refl _, ?_⟩, fun hpending => ?_⟩
    · simp [configure, basedAfter]
    · exact absurd hpending (by simp [configure, hfree])
  | issued htime hfree hserial =>
    exact ⟨⟨rfl, hbased.trans hfirst, hw.onTime hi htime⟩, fun _ => ⟨rfl, Nat.le_refl _, Nat.le_add_right _ _⟩⟩
  | confirmed htime hpending hwithin =>
    obtain ⟨hle, hyoung, hsince⟩ := hw.lent hi htime hpending
    have hback := sub_le_of_within hwithin
    rw [hsince] at hback
    refine ⟨⟨rfl, Nat.sub_le _ _, ?_⟩, fun hlent => by cases hlent⟩
    simp only [basedAfter, UInt32.toNat_toUInt16, if_true]
    omega
  | cancelled htime hpending =>
    exact ⟨⟨rfl, hbased.trans hfirst, hw.onTime hi htime⟩, fun hlent => by cases hlent⟩

/-! ## Tokens -/

/-- The tokens reports were issued under. -/
def issuedTokens (answers : List Answer) : List UInt16 :=
  answers.filterMap fun a => if a.event = .issued then some a.token else none

/-- The tokens leases were given back with, the report sent or not. -/
def finishedTokens (answers : List Answer) : List UInt16 :=
  answers.filterMap fun a =>
    match a.event with
    | .confirmed _ | .cancelled => some a.token
    | _ => none

/-- Tokens grow, and only the last one can still be given back. -/
structure Ledger (answers : List Answer) (ctx : Context) : Prop where
  issued : ∀ token ∈ issuedTokens answers, token ≤ ctx.serial
  fresh : (issuedTokens answers).Nodup
  lent : ctx.pending = true → ctx.serial ∈ issuedTokens answers ∧ ctx.serial ∉ finishedTokens answers
  finished : ∀ token ∈ finishedTokens answers, token ∈ issuedTokens answers
  once : (finishedTokens answers).Nodup

theorem issuedTokens_snoc (answers : List Answer) (a : Answer) :
    issuedTokens (answers ++ [a]) = issuedTokens answers ++ if a.event = .issued then [a.token] else [] := by
  unfold issuedTokens
  rw [List.filterMap_append, List.filterMap_cons]
  split_ifs <;> rfl

theorem finishedTokens_snoc (answers : List Answer) (a : Answer) :
    finishedTokens (answers ++ [a]) =
      finishedTokens answers ++
        match a.event with
        | .confirmed _ | .cancelled => [a.token]
        | _ => [] := by
  unfold finishedTokens
  rw [List.filterMap_append, List.filterMap_cons]
  cases a.event <;> rfl

theorem Ledger.empty {ctx : Context} (hfree : ctx.pending = false) : Ledger [] ctx where
  issued := fun _ hmem => absurd hmem List.not_mem_nil
  fresh := List.nodup_nil
  lent := fun hpending => absurd (hfree.symm.trans hpending) (by decide)
  finished := fun _ hmem => absurd hmem List.not_mem_nil
  once := List.nodup_nil

/-- An answer that names no token keeps the ledger. -/
theorem Ledger.silent {answers : List Answer} {ctx ctx' : Context} {a : Answer} (h : Ledger answers ctx)
    (hquiet : a.event = .quiet ∨ a.event = .configured) (hserial : ctx'.serial = ctx.serial)
    (hpending : ctx'.pending = ctx.pending) : Ledger (answers ++ [a]) ctx' := by
  have hissued : issuedTokens (answers ++ [a]) = issuedTokens answers := by
    rw [issuedTokens_snoc]
    rcases hquiet with heq | heq <;> simp [heq]
  have hfinished : finishedTokens (answers ++ [a]) = finishedTokens answers := by
    rw [finishedTokens_snoc]
    rcases hquiet with heq | heq <;> simp [heq]
  rcases h with ⟨h1, h2, h3, h4, h5⟩
  constructor
  all_goals simpa only [hissued, hfinished, hserial, hpending]

/-- A report is issued under a token above all before. -/
theorem Ledger.issue {answers : List Answer} {ctx ctx' : Context} {a : Answer} (h : Ledger answers ctx)
    (hevent : a.event = .issued) (htoken : a.token = ctx.serial + 1) (hserial : ctx.serial ≠ 0xffff)
    (hnext : ctx'.serial = ctx.serial + 1) : Ledger (answers ++ [a]) ctx' := by
  have hissued : issuedTokens (answers ++ [a]) = issuedTokens answers ++ [ctx.serial + 1] := by
    rw [issuedTokens_snoc, if_pos hevent, htoken]
  have hfinished : finishedTokens (answers ++ [a]) = finishedTokens answers := by
    rw [finishedTokens_snoc]
    simp [hevent]
  have hgrows : ctx.serial.toNat < (ctx.serial + 1).toNat := by
    have hbound := ctx.serial.toNat_lt
    have hne : ctx.serial.toNat ≠ 65535 := fun heq => hserial (UInt16.toNat_inj.1 heq)
    rw [UInt16.toNat_add]
    simp
    omega
  have hnew : ctx.serial + 1 ∉ issuedTokens answers := fun hmem =>
    absurd (UInt16.le_iff_toNat_le.1 (h.issued _ hmem)) (by omega)
  constructor
  · intro token hmem
    rw [hissued, List.mem_append, List.mem_singleton] at hmem
    rw [hnext]
    rcases hmem with hold | rfl
    · exact UInt16.le_iff_toNat_le.2 ((UInt16.le_iff_toNat_le.1 (h.issued token hold)).trans hgrows.le)
    · exact UInt16.le_iff_toNat_le.2 (Nat.le_refl _)
  · rw [hissued]
    exact List.nodup_append.2 ⟨h.fresh, List.nodup_singleton _, fun x hx y hy heq =>
      hnew (by rw [List.mem_singleton] at hy; exact hy ▸ heq ▸ hx)⟩
  · intro _
    rw [hissued, hfinished, hnext]
    exact ⟨by simp, fun hmem => hnew (h.finished _ hmem)⟩
  · intro token hmem
    rw [hissued]
    rw [hfinished] at hmem
    exact List.mem_append_left _ (h.finished token hmem)
  · rw [hfinished]
    exact h.once

/-- A lease is given back once: nothing is on loan behind it. -/
theorem Ledger.giveBack {answers : List Answer} {ctx ctx' : Context} {a : Answer} (h : Ledger answers ctx)
    (hevent : a.event = .cancelled ∨ ∃ issuedAt, a.event = .confirmed issuedAt) (htoken : a.token = ctx.serial)
    (hpending : ctx.pending = true) (hserial : ctx'.serial = ctx.serial) (hfree : ctx'.pending = false) :
    Ledger (answers ++ [a]) ctx' := by
  obtain ⟨hin, hout⟩ := h.lent hpending
  have hissued : issuedTokens (answers ++ [a]) = issuedTokens answers := by
    rw [issuedTokens_snoc]
    rcases hevent with heq | ⟨_, heq⟩ <;> simp [heq]
  have hfinished : finishedTokens (answers ++ [a]) = finishedTokens answers ++ [ctx.serial] := by
    rw [finishedTokens_snoc]
    rcases hevent with heq | ⟨_, heq⟩ <;> simp [heq, htoken]
  constructor
  · rw [hissued, hserial]
    exact h.issued
  · rw [hissued]
    exact h.fresh
  · intro hlent
    rw [hfree] at hlent
    cases hlent
  · intro token hmem
    rw [hissued]
    rw [hfinished, List.mem_append, List.mem_singleton] at hmem
    rcases hmem with hold | rfl
    · exact h.finished token hold
    · exact hin
  · rw [hfinished]
    exact List.nodup_append.2 ⟨h.once, List.nodup_singleton _, fun x hx y hy heq =>
      hout (by rw [List.mem_singleton] at hy; exact hy ▸ heq ▸ hx)⟩

theorem Ledger.step {answers : List Answer} {w : World} (i : Timed) (h : Ledger answers w.ctx) :
    Ledger (answers ++ [(w.step i).1]) (w.step i).2.ctx := by
  have heffect := call_effect w.ctx (WrappedClock.shown i.time) i.call
  have htoken := call_token w.ctx (WrappedClock.shown i.time) i.call
  unfold World.step
  simp only
  generalize (Temperature.call w.ctx (WrappedClock.shown i.time) i.call) = out at *
  obtain ⟨⟨status, event, token⟩, ctx'⟩ := out
  cases heffect with
  | refused hne hkept =>
    obtain ⟨fault, rfl⟩ := hkept
    exact h.silent (.inl rfl) rfl rfl
  | aged value htime => exact h.silent (.inl rfl) rfl rfl
  | configured cfg htime hfree => exact h.silent (.inr rfl) rfl rfl
  | issued htime hfree hserial => exact h.issue rfl htoken hserial rfl
  | confirmed htime hpending hwithin => exact h.giveBack (.inr ⟨_, rfl⟩) htoken hpending rfl rfl
  | cancelled htime hpending => exact h.giveBack (.inl rfl) htoken hpending rfl rfl

/-- The world right behind an initialization. -/
def World.fresh (ctx : Context) (start : Nat) : World := ⟨ctx, start, start, 0⟩

theorem fresh_steady {old ctx : Context} {start : Nat} {minimum maximum : Int16} {defaults : Cfg}
    (hinit : tempInit old (WrappedClock.shown start) minimum maximum defaults = (.ok, ctx)) :
    (World.fresh ctx start).Steady ∧ ctx.pending = false := by
  unfold tempInit at hinit
  split at hinit
  · cases hinit
  · cases hinit
    exact ⟨⟨⟨rfl, Nat.le_refl _, by simp [World.fresh, configure]⟩, fun hpending => by cases hpending⟩, rfl⟩

/-- From every initialization, in every run of timely calls: the age in every state is the
time from the last configuration or issued report to the last call that succeeded; no
call moves the baseline but a configuration or a confirmed report; failing calls leave
the context as it was but for the fault; and each token that was issued is taken back at
most once. -/
theorem reporting_clock_path_independent (old ctx : Context) (start : Nat) (minimum maximum : Int16) (defaults : Cfg)
    (hinit : tempInit old (WrappedClock.shown start) minimum maximum defaults = (.ok, ctx)) (is : List Timed)
    (htimely : Runs.Meets World.step World.Timely (World.fresh ctx start) is) :
    let out := Runs.run World.step (World.fresh ctx start) is
    Runs.Throughout World.step World.Aged (World.fresh ctx start) is ∧
      Runs.Meets World.step World.Careful (World.fresh ctx start) is ∧
      (finishedTokens out.1).Nodup ∧ (issuedTokens out.1).Nodup ∧
      ∀ token ∈ finishedTokens out.1, token ∈ issuedTokens out.1 := by
  obtain ⟨hsteady, hfree⟩ := fresh_steady hinit
  have hledger : Ledger ([] ++ (Runs.run World.step (World.fresh ctx start) is).1)
      (Runs.run World.step (World.fresh ctx start) is).2.ctx := by
    refine Runs.run_invariant World.step (fun answers w => Ledger answers w.ctx) _ [] ?_ ?_ is
    · exact Ledger.empty hfree
    · exact fun answers w i h => h.step i
  rw [List.nil_append] at hledger
  refine ⟨?_, ?_, hledger.once, hledger.fresh, hledger.finished⟩
  · exact Runs.throughout_of_invariant World.step World.Timely World.Aged World.Steady
      (fun w i hw hi => World.step_steady w i hw hi) (fun w hw => hw.toAged) _ hsteady is htimely
  · exact Runs.meets_imp World.step World.Timely World.Careful (fun _ => True)
      (fun _ _ _ _ => trivial) (fun w i _ _ => World.step_careful w i) _ trivial is htimely

/-- A context before its first initialization. -/
def blank : Context where
  stamp := 0
  pendingAt := 0
  age := 0
  serial := 0
  minimum := 0
  maximum := 0
  value := 0
  baseline := 0
  pendingValue := 0
  defaults := ⟨0, 0, 0⟩
  reporting := ⟨0, 0, 0⟩
  configured := false
  pending := false
  fault := .none

/-- Reports every ten to sixty seconds, no limits. -/
def minutely : Context := (tempInit blank 0 unknown unknown ⟨10, 60, 100⟩).2

/-- A report is issued at 20, sent at 25 and confirmed at 30; the confirmation is repeated and
refused, and a sample at 40 finds the report fifteen seconds old. -/
theorem reporting_clock_path_independent_report :
    let is : List Timed :=
      [⟨5, .sample 2500⟩, ⟨20, .prepare 1 1 (List.replicate 16 0) 16 ⟨0, false, 0⟩⟩, ⟨30, .finish 1 1 25⟩,
        ⟨35, .finish 1 1 25⟩, ⟨40, .sample 2510⟩]
    let out := Runs.run World.step (World.fresh minutely 0) is
    out.1.map Answer.status = [.ok, .ok, .ok, .invalidValue, .ok] ∧ out.2.ctx.age = 15 ∧ out.2.based = 25 ∧
      finishedTokens out.1 = [1] ∧ Runs.Throughout World.step World.Aged (World.fresh minutely 0) is :=
  ⟨by decide +kernel, by decide +kernel, by decide +kernel, by decide +kernel,
    (reporting_clock_path_independent blank minutely 0 unknown unknown ⟨10, 60, 100⟩ (by decide +kernel) _
      (by decide +kernel)).1⟩

/-- The clock counts whole seconds, not milliseconds: a sample 1000 ticks after the start
finds an age of 1000 and not of one. And a refused call does not take the time: two
refused ones carry the clock almost round, and a sample that follows finds five seconds
where more than `2 ^ 32` passed, though every call comes less than `2 ^ 31` after the one
before. -/
theorem reporting_clock_refused_calls :
    let spaced (times : List Nat) : Prop := times.IsChain fun a b => a ≤ b ∧ b < a + 2 ^ 31
    let age (is : List Timed) : Nat := (Runs.run World.step (World.fresh minutely 0) is).2.ctx.age.toNat
    tempInit blank 0 unknown unknown ⟨10, 60, 100⟩ = (.ok, minutely) ∧
      spaced [0, 1000] ∧ age [⟨1000, .sample 2500⟩] ≠ min 65535 (1000 / 1000) ∧
      spaced [0, 2 ^ 31 - 1, 2 ^ 32 - 2, 2 ^ 32 + 5] ∧
      age [⟨2 ^ 31 - 1, .finish 1 0 0⟩, ⟨2 ^ 32 - 2, .finish 1 0 0⟩, ⟨2 ^ 32 + 5, .sample 2500⟩] ≠
        min 65535 (2 ^ 32 + 5) := by
  refine ⟨by decide +kernel, ?_, by decide +kernel, ?_, by decide +kernel⟩
  · simp
  · simp

end Zcl.Temperature
