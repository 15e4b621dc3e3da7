import Mathlib.Data.Fintype.Card
import Cc2530Zigbee.LinkedStack
import Cc2530Zigbee.Runs

/-!
# The shared workspace of the link

One arena serves every operation of the link. An operation enters a frame, which
leases a region of the arena, and leaves it, which clears the region. Frames
nest by a table of callers; the frames of the transmitter share one region.
-/
namespace LinkWorkspace

open LinkedStack

/-- The operations that hold a frame, `LW_KEYS` to `LW_NWK_BEACON`. -/
inductive Frame where
  | keys
  | joinInit | joinStart | joinStep | joinOther
  | pollInit | pollStart | pollStep | pollOther
  | txSubmit | txStep | txInterval | txObserved
  | macEncode | macDecode | beacon
  | association | scan | parent | nwkHint | nwkBuild | nwkCancel
  | zdoInit | zdoRx | zdoServer | zdoDecode | zdoEncode
  | nwkBeacon
  deriving DecidableEq, Repr

/-- The frames in the order of their numbers, from one. -/
def frames : List Frame :=
  [.keys, .joinInit, .joinStart, .joinStep, .joinOther, .pollInit, .pollStart, .pollStep, .pollOther,
    .txSubmit, .txStep, .txInterval, .txObserved, .macEncode, .macDecode, .beacon, .association, .scan,
    .parent, .nwkHint, .nwkBuild, .nwkCancel, .zdoInit, .zdoRx, .zdoServer, .zdoDecode, .zdoEncode, .nwkBeacon]

instance : Fintype Frame := ⟨⟨frames, by decide⟩, fun f => by cases f <;> decide⟩

/-- The frame with a number; zero and the numbers from `LW_FRAMES` on have none. -/
def frameOf (number : UInt8) : Option Frame := if number = 0 then none else frames[number.toNat - 1]?

/-- The call grants, `LW_COUNTER_READ` to `LW_HINT`. -/
inductive Permission where
  | counterRead | counterCreate | counterSave | counterTake
  | wireNwk | wireDecode | wireEncode | wireInspect | wireCrypt
  | hashKey | hashVerify | installCode
  | hint
  deriving DecidableEq, Repr

def permissions : List Permission :=
  [.counterRead, .counterCreate, .counterSave, .counterTake, .wireNwk, .wireDecode, .wireEncode, .wireInspect,
    .wireCrypt, .hashKey, .hashVerify, .installCode, .hint]

def permissionOf (number : UInt8) : Option Permission :=
  if number = 0 then none else permissions[number.toNat - 1]?

/-- The frame that has to be on top for a grant. -/
def Permission.owner : Permission → Frame
  | .hint => .nwkHint
  | _ => .keys

/-! ## The tables -/

/-- The members of `link_work_arena_t` that frames lease. -/
inductive Member where
  | keys | join | poll | tx | candidate | beacon | association | scan | decoded | selected | nwk
  | zdoWork | zdoServer | zdoNode

/-- Where a compiler puts the members. `fenced` is the admission check of the
target build on the address of the arena; a native build has none. -/
structure Layout where
  size : Nat
  offset : Member → Nat
  extent : Member → Nat
  fits : ∀ m, offset m + extent m ≤ size
  scanned : offset .scan ≤ offset .decoded
  fenced : Bool

structure Region where
  first : Nat
  size : Nat
  deriving DecidableEq

def Region.Holds (r : Region) (i : Nat) : Prop := r.first ≤ i ∧ i < r.first + r.size

instance (r : Region) (i : Nat) : Decidable (r.Holds i) := inferInstanceAs (Decidable (_ ∧ _))

def Layout.region (L : Layout) (m : Member) : Region := ⟨L.offset m, L.extent m⟩

def regions (L : Layout) : Frame → Region
  | .keys => L.region .keys
  | .joinInit | .joinStart | .joinStep | .joinOther => L.region .join
  | .pollInit | .pollStart | .pollStep | .pollOther => L.region .poll
  | .txSubmit | .txStep | .txInterval | .txObserved => L.region .tx
  | .macEncode => ⟨0, 0⟩
  | .macDecode => L.region .candidate
  | .beacon => L.region .beacon
  | .association => L.region .association
  | .scan => ⟨L.offset .scan, L.offset .decoded - L.offset .scan⟩
  | .parent => L.region .selected
  | .nwkHint | .nwkBuild | .nwkCancel => L.region .nwk
  | .zdoInit | .zdoRx => L.region .zdoWork
  | .zdoServer => L.region .zdoServer
  | .zdoDecode => L.region .zdoNode
  | .zdoEncode => ⟨0, 0⟩
  | .nwkBeacon => L.region .decoded

/-- The frames that may enter a frame. Every frame may also be entered from the
root, which is no frame. -/
def callers : Frame → List Frame
  | .keys | .joinInit | .joinStart | .joinStep | .joinOther => []
  | .pollInit => [.joinInit]
  | .pollStart | .pollStep | .pollOther => [.joinStep]
  | .txSubmit => [.joinStep, .pollStep, .nwkBuild]
  | .txStep => [.txInterval]
  | .txInterval => [.txObserved]
  | .txObserved => [.joinStep, .nwkCancel]
  | .macEncode => [.joinStart, .pollStart, .nwkBuild]
  | .macDecode => [.pollStep, .txSubmit, .txStep, .txInterval, .association, .scan]
  | .beacon => [.macEncode, .macDecode, .scan]
  | .association => [.joinStep]
  | .scan | .parent | .nwkHint | .nwkBuild | .nwkCancel => []
  | .zdoInit | .zdoRx => []
  | .zdoServer | .zdoDecode => [.zdoRx]
  | .zdoEncode => [.zdoInit, .zdoServer]
  | .nwkBeacon => [.scan]

/-- `CALLER_ALLOWED`. -/
def callerAllowed (frame : Frame) (top : Option Frame) : Bool := top.all fun p => p ∈ callers frame

def txFrame : Frame → Bool
  | .txSubmit | .txStep | .txInterval | .txObserved => true
  | _ => false

/-! ## The operations -/

/-- The ownership record and the bytes of the arena. -/
structure Workspace where
  top : Option Frame
  grant : Option Permission
  ancestors : Frame → Option Frame
  arena : Nat → UInt8

/-- After a reset everything is zero. -/
def reset : Workspace := ⟨none, none, fun _ => none, fun _ => 0⟩

/-- `LW_FRAMES`, more than there are frames to walk over. -/
def frameCount : Nat := 29

/-- Two regions have a byte in common. -/
def overlap (r q : Region) : Bool :=
  r.size != 0 && q.size != 0 && (if r.first ≤ q.first then q.first - r.first < r.size else r.first - q.first < q.size)

/-- A frame may not be entered over a live one. -/
def clash (L : Layout) (frame p : Frame) : Bool :=
  overlap (regions L frame) (regions L p) && !(txFrame frame && txFrame p)

/-- `link_work_root`. -/
def root (w : Workspace) : Bool := w.top.isNone && w.grant.isNone

/-- The frames that have been entered and not left, the last one first. -/
def live (w : Workspace) : List Frame := walk w.ancestors frameCount w.top

def held (w : Workspace) (frame : Frame) : Option Bool := search w.ancestors (· == frame) frameCount w.top

/-- `link_work_enter`; there is no answer if the walk over the live frames does
not end. -/
def enter (L : Layout) (w : Workspace) (number : UInt8) : Option Bool × Workspace :=
  match frameOf number with
  | none => (some false, w)
  | some frame =>
    if w.grant.isSome ∨ !callerAllowed frame w.top ∨ !L.fenced then (some false, w)
    else match search w.ancestors (fun p => p == frame || clash L frame p) frameCount w.top with
      | none => (none, w)
      | some true => (some false, w)
      | some false => (some true, { w with ancestors := Function.update w.ancestors frame w.top, top := some frame })

/-- The bytes `link_work_leave` clears: none for a transmit frame under another
transmit frame, which owns the control they share. -/
def wiped (L : Layout) (w : Workspace) (frame : Frame) : Region :=
  if txFrame frame && (w.ancestors frame).any txFrame then ⟨0, 0⟩ else regions L frame

def wipe (r : Region) (arena : Nat → UInt8) : Nat → UInt8 := fun i => if r.Holds i then 0 else arena i

/-- `link_work_leave`. -/
def leave (L : Layout) (w : Workspace) (number : UInt8) : Bool × Workspace :=
  match frameOf number with
  | none => (false, w)
  | some frame =>
    if w.top ≠ some frame ∨ w.grant.isSome then (false, w)
    else (true, { w with
      arena := wipe (wiped L w frame) w.arena
      top := w.ancestors frame
      ancestors := Function.update w.ancestors frame none })

/-- `link_work_grant`. -/
def grant (w : Workspace) (number : UInt8) : Bool × Workspace :=
  match permissionOf number with
  | none => (false, w)
  | some permission =>
    if w.grant.isSome ∨ w.top ≠ some permission.owner then (false, w)
    else (true, { w with grant := some permission })

/-- `link_work_call_result`. -/
def callResult (w : Workspace) (result : UInt8) : UInt8 × Workspace :=
  if w.grant.isNone then (255, w) else (result, { w with grant := none })

/-- `link_work_clean`. -/
def clean (L : Layout) (w : Workspace) : Bool :=
  w.top.isNone && w.grant.isNone && frames.all (fun f => (w.ancestors f).isNone) &&
    (List.range L.size).all fun i => w.arena i == 0

/-! ## Calls -/

/-- The calls of the lease, and a store to the arena by the running code. -/
inductive Call where
  | enter (number : UInt8)
  | leave (number : UInt8)
  | grant (number : UInt8)
  | callResult (result : UInt8)
  | store (offset : Nat) (value : UInt8)

/-- The answer of a call, none if it does not return. A store counts only
where a live frame leases the byte. -/
def call (L : Layout) (w : Workspace) : Call → Option UInt8 × Workspace
  | .enter number =>
    let r := enter L w number
    (r.1.map Bool.toUInt8, r.2)
  | .leave number =>
    let r := leave L w number
    (some r.1.toUInt8, r.2)
  | .grant number =>
    let r := grant w number
    (some r.1.toUInt8, r.2)
  | .callResult result =>
    let r := callResult w result
    (some r.1, r.2)
  | .store offset value =>
    if (live w).any fun f => (regions L f).Holds offset then
      (some 0, { w with arena := Function.update w.arena offset value })
    else (some 0, w)

/-- The number of a frame. -/
def numberOf (frame : Frame) : UInt8 := UInt8.ofNat (frames.idxOf frame + 1)

/-- The pending grant is returned and all frames are left, the last one first. -/
def unwind (L : Layout) (w : Workspace) : Workspace :=
  (live w).foldl (fun w frame => (leave L w (numberOf frame)).2) (callResult w 0).2

end LinkWorkspace
