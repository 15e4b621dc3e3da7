import Cc2530Zigbee.BitTable
import Cc2530Zigbee.Octets

/-!
# Flash writes

`flash_nv_erase` and `flash_nv_program` over any flash: what a read gives and how a
command ends are the hardware's. Everything the service asks of the flash is in a log.
-/
namespace FlashWrite

open Octets

/-- `FLASH_EXEC_ERASE` and `FLASH_EXEC_PROGRAM`. -/
inductive Operation where
  | erase | program
  deriving DecidableEq, Repr

/-- `flash_write_result_t`. -/
inductive Result where
  | ok | invalidArgument | invalidRange | bufferOwnership | historyUnknown | wordUsed | executorFailed | readerFailed
  | verifyFailed | notErased | pending
  deriving DecidableEq, Repr

/-- `flash_write_phase_t`. -/
inductive Phase where
  | reset | preflight | command | verify | done
  deriving DecidableEq, Repr

/-- `flash_write_diagnostic_t`. -/
structure Diagnostic where
  result : Result
  operation : Option Operation
  page : UInt8
  offset : UInt16
  phase : Phase
  executor : UInt8
  reader : UInt8
  deriving DecidableEq, Repr

/-- `flash_write_status`, `flash_write_known` and `flash_write_used`. -/
structure Writer where
  status : Diagnostic
  known : UInt8
  used : Vector UInt8 128
  deriving DecidableEq

/-- The state after a reset. -/
def Writer.reset : Writer :=
  { status := ⟨.ok, none, 0, 0, .reset, 0, 0⟩
    known := 0
    used := Vector.replicate 128 0 }

def pageCount : UInt8 := 2
def pageSize : UInt16 := 2048
def readMax : Nat := 32
/-- `FLASH_OK` and `FLASH_EXEC_IDLE`. -/
def flashOk : UInt8 := 0
def execIdle : UInt8 := 0

/-- What the flash is asked. A command ends with the executor's result, or never. -/
inductive Event where
  | read (page : UInt8) (position : Nat) (octets : Bytes) (reader : UInt8)
  | erase (page : UInt8) (executor : Option UInt8)
  | program (page : UInt8) (offset : UInt16) (octets : Vector UInt8 4) (executor : Option UInt8)
  deriving DecidableEq

/-- A request, and the writer that made it. -/
structure Entry where
  writer : Writer
  event : Event

structure World where
  writer : Writer
  log : List Entry

/-- How the flash answers each request in turn. -/
structure Hardware where
  reader : Nat → UInt8
  octet : Nat → Nat → UInt8
  executor : Nat → Option UInt8

/-- What a build has around the writer: which addresses its workspace rules allow, and
`flash_write_reserved_end`. -/
structure Build where
  external : UInt16 → Bool
  inside : UInt16 → Bool
  reservedEnd : UInt16

/-- Four octets and where they are. -/
structure Word where
  address : UInt16
  octets : Vector UInt8 4

/-- A call. `entered` is the answer of `child_work_enter`, true in a build without it. -/
structure Call where
  operation : Operation
  page : UInt8
  offset : UInt16
  word : Option Word
  pollLimit : UInt16
  entered : Bool

/-- `flash_nv_erase`. -/
def flashNvErase (page : UInt8) (pollLimit : UInt16) (entered : Bool) : Call := ⟨.erase, page, 0, none, pollLimit, entered⟩

/-- `flash_nv_program`. -/
def flashNvProgram (page : UInt8) (offset : UInt16) (word : Option Word) (pollLimit : UInt16) (entered : Bool) : Call :=
  ⟨.program, page, offset, word, pollLimit, entered⟩

def pageMask (page : UInt8) : UInt8 := (1 : UInt8) <<< page
def usedIndex (page : UInt8) (offset : UInt16) : Nat := (page.toNat <<< 6) + (offset.toNat >>> 5)
def usedMask (offset : UInt16) : UInt8 := (1 : UInt8) <<< UInt8.ofNat ((offset.toNat >>> 2) &&& 7)

/-- The checks on a word to program. -/
def refuseWord (build : Build) (w : Writer) (page : UInt8) (offset : UInt16) (word : Word) : Option Result :=
  if ¬ build.external word.address then some .bufferOwnership
  else if word.address > 0x1dfc then some .invalidRange
  else if ¬ build.inside word.address ∧ word.address ≤ build.reservedEnd then some .bufferOwnership
  else if w.known &&& pageMask page = 0 then some .historyUnknown
  else if BitTable.octetAt w.used (usedIndex page offset) &&& usedMask offset ≠ 0 then some .wordUsed
  else none

/-- The checks before the flash is touched. -/
def refuse (build : Build) (w : Writer) (call : Call) : Option Result :=
  if call.pollLimit = 0 ∨ (call.operation = .program ∧ call.word.isNone) then some .invalidArgument
  else if call.page ≥ pageCount ∨ call.offset ≥ pageSize ∨ call.offset &&& 3 ≠ 0 then some .invalidRange
  else
    let refused := match call.operation, call.word with
      | .program, some word => refuseWord build w call.page call.offset word
      | _, _ => none
    match refused with
    | some result => some result
    | none => if ¬ call.entered then some .bufferOwnership else none

/-- `flash_write_status` as an operation begins. -/
def begun (call : Call) : Diagnostic := ⟨.pending, some call.operation, call.page, call.offset, .preflight, 0xff, 0xff⟩

/-- `flash_nv_read` of a page. -/
def flashNvRead (hw : Hardware) (w : World) (page : UInt8) (position length : Nat) : Bytes × World :=
  let octets := (List.range length).map (hw.octet w.log.length)
  let reader := hw.reader w.log.length
  (octets, { writer := { w.writer with status := { w.writer.status with reader := reader } }
             log := w.log ++ [⟨w.writer, .read page position octets reader⟩] })

/-- `failed`, and the end of a success. -/
def finish (w : World) (result : Result) : Option Result × World :=
  (some result, { w with writer := { w.writer with status := { w.writer.status with result := result } } })

def phase (w : World) (phase : Phase) : World :=
  { w with writer := { w.writer with status := { w.writer.status with phase := phase } } }

/-- The page or the word is no longer free before its command. -/
def consume (w : World) (call : Call) : World :=
  match call.operation with
  | .program => { w with writer := { w.writer with
      used := BitTable.mark w.writer.used (usedIndex call.page call.offset) (usedMask call.offset) } }
  | .erase => { w with writer := { w.writer with known := w.writer.known &&& ~~~(pageMask call.page) } }

/-- `flash_exec_command`: nothing when it does not return. -/
def flashExecCommand (hw : Hardware) (w : World) (call : Call) (octets : Vector UInt8 4) : Option UInt8 × World :=
  let executor := hw.executor w.log.length
  let event : Event := match call.operation with
    | .erase => .erase call.page executor
    | .program => .program call.page call.offset octets executor
  let writer := match executor with
    | some executor => { w.writer with status := { w.writer.status with executor := executor } }
    | none => w.writer
  (executor, { writer := writer, log := w.log ++ [⟨w.writer, event⟩] })

/-- What a verified flash reads. -/
def expected (operation : Operation) (octets : Vector UInt8 4) : Bytes :=
  match operation with
  | .program => octets.toList
  | .erase => List.replicate readMax 0xff

/-- The reads behind a command, from some position on: the failure, if any. -/
def verify (hw : Hardware) (call : Call) (octets : Vector UInt8 4) : (fuel : Nat) → Nat → World → Option Result × World
  | 0, _, w => (none, w)
  | fuel + 1, position, w =>
    let length := (expected call.operation octets).length
    let r := flashNvRead hw w call.page position length
    if r.2.writer.status.reader ≠ flashOk then (some .readerFailed, r.2)
    else if r.1 ≠ expected call.operation octets then (some .verifyFailed, r.2)
    else if call.operation = .erase ∧ position + length < pageSize.toNat then
      verify hw call octets fuel (position + length) r.2
    else (none, r.2)

/-- A verified page is free, word by word. -/
def settle (w : World) (call : Call) : World :=
  match call.operation with
  | .program => w
  | .erase => { w with writer := { w.writer with
      used := BitTable.clear w.writer.used (call.page.toNat <<< 6) 64
      known := w.writer.known ||| pageMask call.page } }

/-- The command of an operation and its verification. -/
def command (hw : Hardware) (call : Call) (octets : Vector UInt8 4) (w : World) : Option Result × World :=
  match flashExecCommand hw (phase (consume w call) .command) call octets with
  | (none, w) => (none, w)
  | (some executor, w) =>
    if executor ≠ execIdle then finish w .executorFailed
    else
      match verify hw call octets 64 call.offset.toNat (phase w .verify) with
      | (some result, w) => finish w result
      | (none, w) => finish (phase (settle w call) .done) .ok

/-- The operation behind its checks. -/
def admitted (hw : Hardware) (call : Call) (w : World) : Option Result × World :=
  let octets := (call.word.map Word.octets).getD (Vector.replicate 4 0)
  let w := { w with writer := { w.writer with status := begun call } }
  let r := flashNvRead hw w call.page call.offset.toNat (if call.operation = .program then 4 else 1)
  if r.2.writer.status.reader ≠ flashOk then finish r.2 .readerFailed
  else if call.operation = .program ∧ ¬ r.1.all (· == 0xff) then finish r.2 .notErased
  else command hw call octets r.2

/-- `operate`. The result is nothing when the call does not return. -/
def operate (hw : Hardware) (build : Build) (w : World) (call : Call) : Option Result × World :=
  if w.writer.status.result ≠ .ok then (some w.writer.status.result, w)
  else match refuse build w.writer call with
    | some result => (some result, w)
    | none => admitted hw call w

end FlashWrite
