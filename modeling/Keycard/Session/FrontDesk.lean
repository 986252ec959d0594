import Keycard.Reasoning.Custody
import Keycard.Session.Lifecycle
import Keycard.Session.KeptRooms

/-!
# All sessions and the rooms kept for them

Any number of sessions run next to each other over one backend, and share the registry of kept rooms.  A sandbox is
a container or a microVM, and its number says when `backend.open` has created it: a room object refers to one, and
so does a `Kept`, from which `resume` makes another room object for the same sandbox.
-/

open Reasoning

namespace Keycard.Session

structure SandboxRoom where
  sandbox : Nat
  pausable : Bool
deriving DecidableEq, Repr

instance : Room SandboxRoom where
  canPause := SandboxRoom.pausable

/-- `kept` is the identity of the object. -/
structure SandboxKept where
  kept : Nat
  sandbox : Nat
deriving DecidableEq, Repr

/-- A session, with the username it was built for. -/
structure Guest (υ : Type) where
  username : υ
  session : RoomSession SandboxRoom SandboxKept

structure FrontDesk (υ : Type) where
  guests : List (Guest υ)
  kept : KeptRooms υ SandboxKept
  /-- the username of the session for which each sandbox was opened -/
  openedFor : List υ

inductive DeskEvent (υ : Type) where
  /-- a `RoomSession` is built -/
  | connects (username : υ)
  | session (i : Nat) (e : Event SandboxRoom SandboxKept)
  /-- `_run` begins, and takes the room that is kept for its username -/
  | pumpStarts (i : Nat)
  /-- `open` or `resume` returns a room -/
  | opens (i : Nat) (pausable broken : Bool)
  /-- `_run_teardown` begins, and calls `keep` where it has to -/
  | teardownStarts (i : Nat)
  /-- `room.pause()` comes back, with a new object where it returns -/
  | pauseEnds (i : Nat) (reply : Reply Nat)
  /-- an expiry timer, or a sweep -/
  | registry (e : KeptEvent υ SandboxKept)
deriving DecidableEq, Repr

namespace FrontDesk

variable {υ : Type}

def initial : FrontDesk υ where
  guests := []
  kept := .initial
  openedFor := []

/-- What goes through the registry, or creates a sandbox, is an event of its own here. -/
def isOwnSession : Event SandboxRoom SandboxKept → Bool
  | .pumpStarts _ => true
  | .openEnds (.returned _) _ => true
  | .teardownStarts => true
  | .keepEnds _ => true
  | _ => false

def isOwnRegistry : KeptEvent υ SandboxKept → Bool
  | .keep _ => true
  | .pauseEnds _ _ => true
  | .take _ => true
  | _ => false

def setSession (s : FrontDesk υ) (i : Nat) (g : Guest υ) (session : RoomSession SandboxRoom SandboxKept) :
    FrontDesk υ :=
  { s with guests := s.guests.set i { g with session } }

@[simp] theorem setSession_kept (s : FrontDesk υ) (i : Nat) (g : Guest υ)
    (session : RoomSession SandboxRoom SandboxKept) : (s.setSession i g session).kept = s.kept := rfl

@[simp] theorem setSession_openedFor (s : FrontDesk υ) (i : Nat) (g : Guest υ)
    (session : RoomSession SandboxRoom SandboxKept) : (s.setSession i g session).openedFor = s.openedFor := rfl

/-- `_run` gets to `self._kept.take(self._username)`. -/
def claims (cfg : SessionConfig) (g : Guest υ) : Bool :=
  cfg.keepWindow.isSome && g.session.pump = some (.created false)

/-- The room that the teardown is pausing. -/
def pausing (session : RoomSession SandboxRoom SandboxKept) : Option SandboxRoom :=
  match session.teardown with
  | some { task := .suspended (.pausing room) _, .. } => some room
  | _ => none

/-- What `keep` passes on of `pause()`. -/
def outcome : Reply Nat → Outcome
  | .returned _ => .returned ()
  | .raised => .raised
  | .cancelled => .cancelled

def pauseReply (room : SandboxRoom) : Reply Nat → Reply SandboxKept
  | .returned kept => .returned ⟨kept, room.sandbox⟩
  | .raised => .raised
  | .cancelled => .cancelled

variable [DecidableEq υ]

def step (cfg : SessionConfig) (s : FrontDesk υ) : DeskEvent υ → Option (FrontDesk υ)
  | .connects username => some { s with guests := s.guests ++ [⟨username, .initial⟩] }
  | .session i e => do
    let g ← s.guests[i]?
    if isOwnSession e then none
    else (Session.step cfg g.session e).map (s.setSession i g)
  | .pumpStarts i => do
    let g ← s.guests[i]?
    if claims cfg g then
      let session ← Session.step cfg g.session (.pumpStarts (s.kept.byUsername.get? g.username))
      let kept ← s.kept.step (.take g.username)
      return { s.setSession i g session with kept }
    else (Session.step cfg g.session (.pumpStarts none)).map (s.setSession i g)
  | .opens i pausable broken => do
    let g ← s.guests[i]?
    match g.session.pump with
    | some (.suspended (.opening none) _) =>
      let room := ⟨s.openedFor.length, pausable⟩
      let session ← Session.step cfg g.session (.openEnds (.returned room) broken)
      return { s.setSession i g session with openedFor := s.openedFor ++ [g.username] }
    | some (.suspended (.opening (some kept)) _) =>
      (Session.step cfg g.session (.openEnds (.returned ⟨kept.sandbox, pausable⟩) broken)).map (s.setSession i g)
    | _ => none
  | .teardownStarts i => do
    let g ← s.guests[i]?
    let session ← Session.step cfg g.session .teardownStarts
    match pausing session with
    | some _ =>
      let kept ← s.kept.step (.keep g.username)
      return { s.setSession i g session with kept }
    | none => return s.setSession i g session
  | .pauseEnds i reply => do
    let g ← s.guests[i]?
    let room ← pausing g.session
    let session ← Session.step cfg g.session (.keepEnds (outcome reply))
    let kept ← s.kept.step (.pauseEnds g.username (pauseReply room reply))
    return { s.setSession i g session with kept }
  | .registry e =>
    if isOwnRegistry e then none
    else (s.kept.step e).map fun kept ↦ { s with kept }

def machine (υ : Type) [DecidableEq υ] (cfg : SessionConfig) : Machine (FrontDesk υ) (DeskEvent υ) where
  init := .initial
  step := step cfg

end FrontDesk

/-! ## Who has a sandbox -/

/-- What the pump has in hand; what it reads from is in `self._room`, or with the teardown. -/
def PumpPoint.sandbox : PumpPoint SandboxRoom SandboxKept → Option Nat
  | .opening kept => kept.map SandboxKept.sandbox
  | .destroyingKept kept => some kept.sandbox
  | .checkingOut room => some room.sandbox
  | .reading _ => none
  | .joining _ _ => none

def TeardownPoint.sandbox : TeardownPoint SandboxRoom → Nat
  | .pausing room => room.sandbox
  | .destroying room => room.sandbox

def pumpSandbox (s : RoomSession SandboxRoom SandboxKept) : Option Nat :=
  (s.pump.bind LoopTask.point?).bind PumpPoint.sandbox

def teardownSandbox (s : RoomSession SandboxRoom SandboxKept) : Option Nat :=
  (s.teardown.bind fun td ↦ td.task.point?).map TeardownPoint.sandbox

/-- The session has a claim on the sandbox, has it as its room, or is about to be rid of it. -/
def HasSandbox (s : RoomSession SandboxRoom SandboxKept) (x : Nat) : Prop :=
  pumpSandbox s = some x ∨ s.room.map SandboxRoom.sandbox = some x ∨ teardownSandbox s = some x

instance (s : RoomSession SandboxRoom SandboxKept) (x : Nat) : Decidable (HasSandbox s x) :=
  inferInstanceAs (Decidable (_ ∨ _))

/-- Where a sandbox can be: with the `i`-th session, or kept under a username. -/
inductive Place (υ : Type) where
  | session (i : Nat)
  | desk (username : υ)
deriving DecidableEq, Repr

namespace FrontDesk

variable {υ : Type} [DecidableEq υ]

def Has (s : FrontDesk υ) : Place υ → Nat → Prop
  | .session i, x => ∃ g, s.guests[i]? = some g ∧ HasSandbox g.session x
  | .desk username, x => ∃ kept, s.kept.byUsername.get? username = some kept ∧ kept.sandbox = x

/-- Whose place it is. -/
def actsFor (s : FrontDesk υ) : Place υ → Option υ
  | .session i => s.guests[i]?.map Guest.username
  | .desk username => some username

end FrontDesk

end Keycard.Session
