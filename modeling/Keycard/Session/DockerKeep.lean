import Keycard.Backends.DockerDestroy
import Keycard.Session.KeptRooms

/-!
# A disconnect with a keep window, down to `container.pause()`

`DockerRoom.pause` decides what counts as a failure, `KeptRooms.keep` registers whatever it is given, and
`_run_teardown` falls back to `destroy()` on an exception.  What is registered is what `pause` returned, so
an error that `pause` only logs is nobody's.
-/

open Reasoning

namespace Keycard.Docker

/-- A `DockerKept` is known by its identity. -/
structure DockerKept where
  object : Nat
  containerId : Nat
deriving DecidableEq, Repr

/-- Where `_run_teardown` is. -/
inductive KeepPoint where
  | created
  /-- in `room.pause()`, with the job of `_pause` -/
  | pausing (job : Job Unit (DockerReply Unit))
  | destroying
  | ended
deriving DecidableEq, Repr

/-- One teardown, next to the registry it shares with the other sessions. -/
structure KeepTeardown where
  kept : KeptRooms String DockerKept
  /-- the container is frozen -/
  frozen : Bool
  room : DestroyCalls
  point : KeepPoint

inductive KeepTeardownEvent where
  | starts
  | threadStarts
  /-- `container.pause()` comes back, and leaves the container frozen or not -/
  | pauseEnds (reply : DockerReply Unit) (frozen : Bool)
  | resumes (object : Nat)
  | destroys (e : DestroyEvent)
  | checkedOut
  /-- another session, a timer or the sweep at the registry -/
  | elsewhere (e : KeptEvent String DockerKept)
deriving DecidableEq, Repr

/-- How `DockerRoom.pause` comes back: a `DockerException` is logged and forgotten. -/
def pause (kept : DockerKept) : DockerReply Unit → Reply DockerKept
  | .returned () => .returned kept
  | .notFound => .returned kept
  | .dockerException => .returned kept
  | .raised => .raised

namespace KeepTeardown

def initial : KeepTeardown where
  kept := .initial
  frozen := false
  room := .initial
  point := .created

/-- What comes of `await kept.keep(..)`: an exception falls back to `_checkout`. -/
def afterKeep (s : KeepTeardown) (kept : KeptRooms String DockerKept) : Reply DockerKept → KeepTeardown
  | .returned _ => { s with kept := kept, point := .ended }
  | .raised => { s with kept := kept, room := s.room.destroy, point := .destroying }
  | .cancelled => { s with kept := kept, point := .ended }

/-- The job of `_destroy` goes on; nobody else calls `destroy()`, and nobody cancels it. -/
def byThread : DestroyEvent → Bool
  | .threadStarts => true
  | .reloadEnds _ _ => true
  | .killEnds _ => true
  | .removeEnds _ => true
  | _ => false

/-- Once the teardown has begun, the others are at other containers, and the `keep` of the teardown is its
own. -/
def foreign (s : KeepTeardown) (username : String) (containerId : Nat) (e : KeptEvent String DockerKept) : Bool :=
  match s.point, e with
  | .created, _ => true
  | _, .pauseEnds name (.returned kept) =>
    name ∈ s.kept.pausing.erase username && kept.containerId ≠ containerId
  | _, .pauseEnds name _ => name ∈ s.kept.pausing.erase username
  | _, _ => true

/-- Nothing is registered for the container. -/
def unkept (s : KeepTeardown) (containerId : Nat) : Bool :=
  s.kept.byUsername.items.all fun item ↦ item.2.containerId ≠ containerId

def step (username : String) (containerId : Nat) (s : KeepTeardown) : KeepTeardownEvent → Option KeepTeardown
  | .starts =>
    match s.point with
    | .created =>
      -- a room that was kept before has been taken out again, else no session would have it
      if s.unkept containerId then
        (s.kept.step (.keep username)).map fun kept ↦ { s with kept := kept, point := .pausing .queued }
      else none
    | _ => none
  | .threadStarts =>
    match s.point with
    | .pausing .queued => some { s with point := .pausing (.running ()) }
    | _ => none
  | .pauseEnds reply frozen =>
    match s.point with
    | .pausing (.running ()) =>
      if reply = .returned () && !frozen then none
      else some { s with frozen := frozen, point := .pausing (.finished reply) }
    | _ => none
  | .resumes object =>
    match s.point with
    | .pausing (.finished reply) =>
      let reply := pause ⟨object, containerId⟩ reply
      (s.kept.step (.pauseEnds username reply)).map fun kept ↦ s.afterKeep kept reply
    | _ => none
  | .destroys e =>
    match s.point with
    | .destroying => if byThread e then (s.room.step e).map fun room ↦ { s with room := room } else none
    | _ => none
  | .checkedOut =>
    match s.point with
    | .destroying => (s.room.step (.resumes 0)).map fun room ↦ { s with room := room, point := .ended }
    | _ => none
  | .elsewhere e =>
    match s.point with
    | .ended => none
    | _ =>
      if s.foreign username containerId e then (s.kept.step e).map fun kept ↦ { s with kept := kept } else none

end KeepTeardown

/-- A teardown of a session of `username`, in a room that is the container `containerId`. -/
def keepMachine (username : String) (containerId : Nat) : Machine KeepTeardown KeepTeardownEvent where
  init := .initial
  step := KeepTeardown.step username containerId

namespace KeepTeardown

/-- Nothing is registered for the container. -/
def Unkept (s : KeepTeardown) (containerId : Nat) : Prop :=
  ∀ name kept, s.kept.byUsername.get? name = some kept → kept.containerId ≠ containerId

/-- The room is paused and kept, or it is gone and not kept. -/
def Settled (s : KeepTeardown) (username : String) (containerId : Nat) : Prop :=
  (s.frozen = true ∧ ∃ kept, s.kept.byUsername.get? username = some kept ∧ kept.containerId = containerId) ∨
    (s.room.container = false ∧ s.Unkept containerId)

end KeepTeardown

/-- `container.pause()` fails with what `DockerRoom.pause` swallows. -/
def KeepTeardownEvent.swallows : KeepTeardownEvent → Bool
  | .pauseEnds .notFound frozen => !frozen
  | .pauseEnds .dockerException frozen => !frozen
  | _ => false

/-- `container.pause()` fails with anything else. -/
def KeepTeardownEvent.raises : KeepTeardownEvent → Bool
  | .pauseEnds .raised _ => true
  | _ => false

/-- The fallback has removed the container, or found it gone. -/
def KeepTeardownEvent.removes : KeepTeardownEvent → Bool
  | .destroys e => e.findsNone || e.removes
  | _ => false

end Keycard.Docker
