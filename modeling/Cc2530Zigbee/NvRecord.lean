import Cc2530Zigbee.Flash

/-!
# The two-page record journal

One opaque record of 1 to `max` octets (`NV_RECORD_MAX`: 128, or 160 with
parent recovery) alternates between two flash pages. A page holds a 12-octet
header, the record, `0xFF` padding, a CRC at 2040 and a commit word at 2044
that is programmed last. The diagnostic block of the last call doubles as the
cache of its selection.
-/
namespace NvRecord

open Octets Flash

inductive Result where
  | ok | recovered | empty | invalidArgument | bufferOwnership | noSpace | recoveryRequired
  | corrupt | conflict | generationExhausted | eraseLimitReached | readFailed | writeFailed
  | pending | unsupported
  deriving DecidableEq, Repr

inductive PageState where
  | unchecked | empty | valid | incomplete | format | integrity | unsupported
  deriving DecidableEq, Repr

/-- What `caller` and the null test say of a caller's object. -/
inductive Pointer where
  | null | refused | accepted
  deriving DecidableEq, Repr

def eraseLimit : Nat := 32

def magic : Word := #v[0x4E, 0x56, 0x52, 0x31]
def commit : Word := #v[0x43, 0x4D, 0x54, 0x31]

/-- Pages without the commit word: all that an interrupted erase can leave. -/
def Uncommitted (p : Page) : Prop := ∃ k : Fin 4, p (2044 + k) ≠ getElem commit k (index4_lt k)

abbrev Device := Flash.Device Uncommitted

/-- `nv_record_status_t` without the two service results. -/
structure Status where
  generation : UInt32
  result : Result
  selected : Option Bool
  length : UInt8
  phase : Nat
  recovered : Bool
  pages : Bool → PageState
  eraseAttempts : Bool → Nat

structure State where
  fault : Option Result
  status : Status
  device : Device

/-- Static storage after a reset. -/
def coldStatus : Status where
  generation := 0
  result := .ok
  selected := some false
  length := 0
  phase := 0
  recovered := false
  pages := fun _ => .unchecked
  eraseAttempts := fun _ => 0

def reset (d : Device) : State := ⟨none, coldStatus, d⟩

def finish (s : State) (r : Result) : Result × State :=
  (r, { s with status := { s.status with result := r } })

def fault (s : State) (r : Result) : Result × State := finish { s with fault := some r } r

def begin (st : Status) : Status where
  generation := 0
  result := .pending
  selected := none
  length := 0
  phase := 1
  recovered := false
  pages := fun _ => .unchecked
  eraseAttempts := st.eraseAttempts

/-- The previous call ended with a clean selection. -/
def known (st : Status) : Bool :=
  st.phase == 8 && st.result == .ok && st.selected.isSome && !st.recovered

def resume (st : Status) : Bool × Status :=
  if known st then
    (true, { begin st with
      selected := st.selected, length := st.length, generation := st.generation, pages := st.pages })
  else (false, begin st)

def crcLow : Vector (Vector UInt8 16) 4 := #v[
  #v[0x00, 0x96, 0x2c, 0xba, 0x19, 0x8f, 0x35, 0xa3, 0x32, 0xa4, 0x1e, 0x88, 0x2b, 0xbd, 0x07, 0x91],
  #v[0x00, 0x30, 0x61, 0x51, 0xc4, 0xf4, 0xa5, 0x95, 0x88, 0xb8, 0xe9, 0xd9, 0x4c, 0x7c, 0x2d, 0x1d],
  #v[0x00, 0x07, 0x0e, 0x09, 0x6d, 0x6a, 0x63, 0x64, 0xdb, 0xdc, 0xd5, 0xd2, 0xb6, 0xb1, 0xb8, 0xbf],
  #v[0x00, 0x77, 0xee, 0x99, 0x07, 0x70, 0xe9, 0x9e, 0x0e, 0x79, 0xe0, 0x97, 0x09, 0x7e, 0xe7, 0x90]]

def crcHigh : Vector (Vector UInt8 16) 4 := #v[
  #v[0x00, 0x64, 0xc8, 0xac, 0x90, 0xf4, 0x58, 0x3c, 0x20, 0x44, 0xe8, 0x8c, 0xb0, 0xd4, 0x78, 0x1c],
  #v[0x00, 0x10, 0x20, 0x30, 0x41, 0x51, 0x61, 0x71, 0x83, 0x93, 0xa3, 0xb3, 0xc2, 0xd2, 0xe2, 0xf2],
  #v[0x00, 0xb7, 0x6e, 0xd9, 0xdc, 0x6b, 0xb2, 0x05, 0xb8, 0x0f, 0xd6, 0x61, 0x64, 0xd3, 0x0a, 0xbd],
  #v[0x00, 0x1d, 0x3b, 0x26, 0x76, 0x6b, 0x4d, 0x50, 0xed, 0xf0, 0xd6, 0xcb, 0x9b, 0x86, 0xa0, 0xbd]]

/-- The table entry of one byte plane: the exclusive or of a nibble's entries. -/
def crcEntry (plane : Fin 4) (value : UInt8) : UInt8 :=
  (getElem crcLow plane (index4_lt plane))[value.toNat % 16] ^^^
    (getElem crcHigh plane (index4_lt plane))[value.toNat / 16 % 16]

structure Planes where
  c0 : UInt8
  c1 : UInt8
  c2 : UInt8
  c3 : UInt8
  deriving DecidableEq, Repr

def crcStep (c : Planes) (byte : UInt8) : Planes :=
  let value := c.c0 ^^^ byte
  ⟨c.c1 ^^^ crcEntry 0 value, c.c2 ^^^ crcEntry 1 value, c.c3 ^^^ crcEntry 2 value, crcEntry 3 value⟩

/-- The byte loop; no input stands for erased octets. -/
def crcLoop : Option Bytes → Nat → Planes → Planes
  | _, 0, c => c
  | none, n + 1, c => crcLoop none n (crcStep c 255)
  | some s, n + 1, c => crcLoop (some s.tail) n (crcStep c (s.headD 0))

def crcUpdate (crc : UInt32) (bytes : Option Bytes) (count : Nat) : UInt32 :=
  let c := crcLoop bytes count
    ⟨octet crc.toNat 0, octet crc.toNat 1, octet crc.toNat 2, octet crc.toNat 3⟩
  le32 c.c0 c.c1 c.c2 c.c3

/-- A small private array. -/
abbrev Array8 := Nat → UInt8

def assign (a : Array8) (i : Nat) (v : UInt8) : Array8 := fun k => if k = i then v else a k

def word (a : Array8) (i : Nat) : Word := Vector.ofFn fun k => a (i + k)

def decode (a : Array8) (i : Nat) : UInt32 := le32 (a i) (a (i + 1)) (a (i + 2)) (a (i + 3))

/-- The variables of the page scan. -/
structure Scan where
  crc : UInt32
  erased : Bool
  padding : Bool
  header : Array8
  footer : Array8
  stage : Array8

def readMax : Nat := 32

variable (max : Nat)

def scanByte (capture : Bool) (page : Page) (offset : Nat) (s : Scan) (i : Nat) : Scan :=
  let position := offset + i
  let value := page position
  let header := if position < 12 then assign s.header position value else s.header
  { crc := s.crc
    erased := s.erased && value == 255
    header := header
    padding := s.padding ||
      decide (position < 2040 ∧ 12 + (header 6).toNat ≤ position ∧ value ≠ 255)
    stage := if position < 2040 ∧ capture = true ∧ 12 ≤ position ∧ position < 12 + max then
      assign s.stage (position - 12) value else s.stage
    footer := if position < 2040 then s.footer else assign s.footer (position - 2040) value }

def scanChunk (capture : Bool) (page : Page) (s : Scan) (offset : Nat) : Scan :=
  let chunk := (List.range readMax).map fun i => page (offset + i)
  let count := if offset < 2040 - readMax then readMax else 2040 - offset
  (List.range readMax).foldl (scanByte max capture page offset)
    { s with crc := crcUpdate s.crc (some chunk) count }

/-- The offsets of the read loop. -/
def offsets : List Nat := (List.range (pageSize / readMax)).map (· * readMax)

/-- Every private array is overwritten before it is read, so the scan starts
from cleared ones. -/
@[irreducible] def scan (capture : Bool) (page : Page) : Scan :=
  offsets.foldl (scanChunk max capture page)
    ⟨0xFFFFFFFF, true, false, fun _ => 0, fun _ => 0, fun _ => 0⟩

def pageState (s : Scan) : PageState :=
  if s.erased then .empty
  else if word s.footer 4 ≠ commit then .incomplete
  else if word s.header 0 ≠ magic then .format
  else if s.header 4 ≠ 1 then .unsupported
  else if s.header 5 ≠ 0 ∨ s.header 7 ≠ 0 ∨ s.header 6 = 0 ∨ max < (s.header 6).toNat ∨
      s.padding = true ∨ decode s.header 8 = 0 then .format
  else if decode s.footer 0 ≠ s.crc ^^^ 0xFFFFFFFF then .integrity
  else .valid

/-- What `scan_page` leaves behind for one page. -/
structure Scanned where
  state : PageState
  generation : UInt32
  length : UInt8
  stage : Array8

def scanPage (capture : Bool) (page : Page) : Scanned :=
  let s := scan max capture page
  ⟨pageState max s, decode s.header 8, s.header 6, s.stage⟩

/-- `nv_record_diagnostic.pages[page]`. -/
def setPage (st : Status) (b : Bool) (p : PageState) : Status :=
  { st with pages := fun c => if c = b then p else st.pages c }

/-- The page with the newer of two generations. -/
def newer (scans : Bool → Scanned) : Bool := decide ((scans false).generation < (scans true).generation)

def selectRecord (d : Device) (st : Status) : Result × Status :=
  let scans b := scanPage max false (d.page b)
  let st := { st with pages := fun b => (scans b).state }
  let valid b := (scans b).state = .valid
  let pick (selected : Bool) : Result × Status :=
    let st := { st with
      selected := some selected, length := (scans selected).length,
      generation := (scans selected).generation }
    if st.pages (!selected) ≠ .valid ∧ st.pages (!selected) ≠ .empty then
      (.recovered, { st with recovered := true })
    else (.ok, st)
  if st.pages false = .unsupported ∨ st.pages true = .unsupported then (.unsupported, st)
  else if ¬ valid false ∧ ¬ valid true then
    (if st.pages false = .empty ∧ st.pages true = .empty then .empty else .corrupt, st)
  else if valid false ∧ valid true then
    let selected := newer scans
    if (scans selected).generation = 0 ∨
        (scans selected).generation - (scans !selected).generation ≠ 1 then (.conflict, st)
    else pick selected
  else pick (decide (valid true))

/-- The recheck of the selected page before publication. -/
def agrees (c : Scanned) (st : Status) : Prop :=
  c.state = .valid ∧ c.generation = st.generation ∧ c.length = st.length

instance (c : Scanned) (st : Status) : Decidable (agrees c st) := by
  unfold agrees; infer_instance

def publish (s : State) (c : Scanned) (r : Result) : Result × Option Bytes × State :=
  let bytes := (List.range s.status.length.toNat).map c.stage
  let f := finish { s with status := { s.status with phase := 8 } } r
  (f.1, some bytes, f.2)

/-- A result that publishes nothing. -/
def silent (f : Result × State) : Result × Option Bytes × State := (f.1, none, f.2)

/-- Full selection, recheck of the selected page, publication. -/
def loadSelected (s : State) (capacity : UInt8) : Result × Option Bytes × State :=
  let sel := selectRecord max s.device s.status
  let s := { s with status := sel.2 }
  if sel.1 ≠ .ok ∧ sel.1 ≠ .recovered then silent (finish s sel.1)
  else if capacity < s.status.length then silent (finish s .noSpace)
  else match s.status.selected with
    | none => silent (finish s .corrupt)
    | some selected =>
      let c := scanPage max true (s.device.page selected)
      let s := { s with status := setPage { s.status with phase := 2 } selected c.state }
      if ¬ agrees c s.status then silent (finish s .corrupt)
      else publish s c sel.1

/-- `nv_record_load`: the result, the octets published, and the new state. -/
def load (s : State) (output : Pointer) (capacity : UInt8) : Result × Option Bytes × State :=
  match s.fault with
  | some r => (r, none, s)
  | none =>
    if output = .null ∨ capacity = 0 then (.invalidArgument, none, s)
    else if output = .refused then (.bufferOwnership, none, s)
    else
      let res := resume s.status
      let s := { s with status := res.2 }
      match res.1, s.status.selected with
      | true, some selected =>
        if capacity < s.status.length then silent (finish s .noSpace)
        else
          let c := scanPage max true (s.device.page selected)
          let s := { s with status := setPage { s.status with phase := 2 } selected c.state }
          if agrees c s.status then publish s c .ok
          else loadSelected max { s with status := begin s.status } capacity
      | _, _ => loadSelected max s capacity

/-- The header `nv_record_replace` writes. -/
def header (length : Nat) (generation : UInt32) : Array8 := fun i =>
  if h : i < 4 then magic[i]
  else if i = 4 then 1
  else if i = 6 then UInt8.ofNat length
  else if 8 ≤ i ∧ i < 12 then octet generation.toNat (i - 8)
  else 0

def recordCrc (data : Bytes) (generation : UInt32) : UInt32 :=
  let crc := crcUpdate 0xFFFFFFFF (some ((List.range 12).map (header data.length generation))) 12
  let crc := crcUpdate crc (some data) data.length
  crcUpdate crc none (2028 - data.length) ^^^ 0xFFFFFFFF

/-- The octet the body loop stages for one position. -/
def bodyByte (data : Bytes) (generation : UInt32) (i : Nat) : UInt8 :=
  if i < 12 then header data.length generation i
  else if i < 12 + data.length then byteAt data (i - 12)
  else 255

/-- The word positions below a limit, in programming order. -/
def bodyPositions (limit : Nat) : List Nat := (List.range ((limit + 3) / 4)).map (4 * ·)

/-- `program`: one word of a page, a failed command is latched. -/
def program (s : State) (b : Bool) (offset : Nat) (w : Word) : Except Device (Option Result × State) :=
  match Flash.program s.device b offset w with
  | .error d => .error d
  | .ok (true, d) => .ok (none, { s with device := d })
  | .ok (false, d) =>
    let f := fault { s with device := d } .writeFailed
    .ok (some f.1, f.2)

/-- One `program` call of a replacement and the diagnostic phase it runs in. -/
structure Write where
  phase : Nat
  offset : Nat
  word : Word

def setPhase (s : State) (phase : Nat) : State :=
  { s with status := { s.status with phase := phase } }

/-- Successive `program` calls, up to the first failure. -/
def programAll (s : State) (b : Bool) : List Write → Except Device (Option Result × State)
  | [] => .ok (none, s)
  | w :: rest =>
    match program (setPhase s w.phase) b w.offset w.word with
    | .error d => .error d
    | .ok (some r, s) => .ok (some r, s)
    | .ok (none, s) => programAll s b rest

/-- The words of one replacement: header and record, CRC, commit word last. -/
def recordWrites (data : Bytes) (generation : UInt32) : List Write :=
  ((bodyPositions (12 + data.length)).map fun position =>
    ⟨4, position, word (bodyByte data generation) position⟩) ++
  [⟨5, 2040, word (octet (recordCrc data generation).toNat) 0⟩, ⟨6, 2044, commit⟩]

/-- Erase, program and verify the inactive page. -/
def rewrite (s : State) (page : Bool) (data : Bytes) : Except Device (Result × State) :=
  let generation := s.status.generation + 1
  match Flash.erase s.device page with
  | .error d => .error d
  | .ok (false, d) => .ok (fault { s with device := d } .writeFailed)
  | .ok (true, d) =>
    match programAll { s with device := d } page (recordWrites data generation) with
    | .error d => .error d
    | .ok (some r, s) => .ok (r, s)
    | .ok (none, s) =>
      let c := scanPage max false (s.device.page page)
      let s := { s with status := setPage { s.status with phase := 7 } page c.state }
      if c.state ≠ .valid ∨ c.generation ≠ generation ∨ c.length.toNat ≠ data.length then
        .ok (fault s .corrupt)
      else
        let s := { s with status := { s.status with
          selected := some page, length := UInt8.ofNat data.length, generation := generation,
          phase := 8 } }
        .ok (finish s (if s.status.recovered then .recovered else .ok))

/-- The page to rewrite: the first one, or the other one. -/
def inactive : Option Bool → Bool
  | none => false
  | some selected => !selected

/-- The checks of `nv_record_replace` behind its argument tests. -/
def replaceSelected (s : State) (r : Result) (data : Bytes) (allowRecovery : UInt8) :
    Except Device (Result × State) :=
  if r = .recovered ∧ allowRecovery = 0 then .ok (finish s .recoveryRequired)
  else if r ≠ .ok ∧ r ≠ .recovered ∧ r ≠ .empty then .ok (finish s r)
  else if s.status.generation = 0xFFFFFFFF then .ok (finish s .generationExhausted)
  else
    let page := inactive s.status.selected
    if eraseLimit ≤ s.status.eraseAttempts page then .ok (finish s .eraseLimitReached)
    else
      let attempts b := if b = page then s.status.eraseAttempts b + 1 else s.status.eraseAttempts b
      rewrite max { s with status := { s.status with phase := 3, eraseAttempts := attempts } } page data

/-- `nv_record_replace`. -/
def replace (s : State) (pointer : Pointer) (data : Bytes) (pollLimit : UInt16)
    (allowRecovery : UInt8) : Except Device (Result × State) :=
  match s.fault with
  | some r => .ok (r, s)
  | none =>
    if pointer = .null ∨ data.length = 0 ∨ max < data.length ∨ pollLimit = 0 ∨ 1 < allowRecovery then
      .ok (.invalidArgument, s)
    else if pointer = .refused then .ok (.bufferOwnership, s)
    else
      let res := resume s.status
      let s := { s with status := res.2 }
      let sel := if res.1 then (Result.ok, s.status) else selectRecord max s.device s.status
      replaceSelected max { s with status := sel.2 } sel.1 data allowRecovery

end NvRecord
