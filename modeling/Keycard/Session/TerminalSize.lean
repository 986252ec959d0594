import Keycard.Session.RoomSession

/-!
# The size of the terminal

A size comes to a room in two ways: `open` and `resume` are called with the one recorded when they begin,
and each later change is a task of its own that calls `room.resize`.  The recorded size merges a zero with
what it was before, the task passes it on.  What a task has handed to a thread of the executor takes effect
when the thread gets there.
-/

open Reasoning

namespace Keycard.Session

structure Size where
  width : Nat
  height : Nat
deriving DecidableEq, Repr

/-- `self._size = (width or self._size[0], height or self._size[1])` -/
def Size.merge (size : Size) (width height : Nat) : Size where
  width := if width = 0 then size.width else width
  height := if height = 0 then size.height else height

/-- Where a call of `room.resize` is; for a microVM, the socket is in the place of the thread. -/
inductive ResizePoint where
  | created
  | queued
  | running
  | back
  | ended
deriving DecidableEq, Repr

/-- `asyncio.create_task(self._room.resize(width, height))` -/
structure Resize where
  size : Size
  point : ResizePoint
  /-- the container has taken the size -/
  applied : Bool
deriving DecidableEq, Repr

structure SizedSession (ρ κ : Type) where
  session : RoomSession ρ κ
  /-- `self._size` -/
  size : Size
  /-- what `open` or `resume` was called with -/
  args : Size
  /-- in the order in which they were started -/
  resizes : List Resize
  /-- the size that was last applied to the room -/
  applied : Option Size
deriving DecidableEq, Repr

namespace SizedSession

variable {ρ κ : Type}

def initial : SizedSession ρ κ where
  session := .initial
  size := ⟨80, 24⟩
  args := ⟨80, 24⟩
  resizes := []
  applied := none

/-- `pty_requested` -/
def ptyRequested (s : SizedSession ρ κ) (width height : Nat) : SizedSession ρ κ :=
  { s with size := Size.merge ⟨80, 24⟩ width height }

/-- `terminal_size_changed` -/
def terminalSizeChanged (s : SizedSession ρ κ) (width height : Nat) : SizedSession ρ κ :=
  let s := { s with size := s.size.merge width height }
  match s.session.room with
  | some _ => { s with resizes := s.resizes ++ [⟨⟨width, height⟩, .created, false⟩] }
  | none => s

/-- What a step of the session to `t` does here: `fits` says that the room which `open` or `resume` returns
has taken the size it was asked to. -/
def follow (s : SizedSession ρ κ) (e : Event ρ κ) (fits : Bool) (t : RoomSession ρ κ) : SizedSession ρ κ :=
  let s' := { s with session := t }
  match e with
  | .pumpStarts _ => { s' with args := s.size }
  | .openEnds (.returned _) _ => if fits then { s' with applied := some s.args } else s'
  | _ => s'

end SizedSession

/-! ## One `room.resize` -/

/-- The event loop runs the task, up to its `await` or from there to its end. -/
def Resize.run (resize : Resize) : Option Resize :=
  match resize.point with
  | .created => some { resize with point := .queued }
  | .back => some { resize with point := .ended }
  | _ => none

/-- A thread of the executor takes the call up. -/
def Resize.start (resize : Resize) : Option Resize :=
  match resize.point with
  | .queued => some { resize with point := .running }
  | _ => none

/-- `container.resize` comes back; `taken` says that it has not raised. -/
def Resize.finish (resize : Resize) (taken : Bool) : Option Resize :=
  match resize.point with
  | .running => some { resize with point := .back, applied := taken }
  | _ => none

inductive SizedEvent (ρ κ : Type) where
  | session (e : Event ρ κ) (fits : Bool)
  | ptyRequested (width height : Nat)
  | terminalSizeChanged (width height : Nat)
  | resizeRuns (i : Nat)
  | resizeStarts (i : Nat)
  | resizeFinishes (i : Nat) (taken : Bool)
deriving DecidableEq, Repr

namespace SizedSession

variable {ρ κ : Type}

/-- The call with this number goes on. -/
def advance (s : SizedSession ρ κ) (i : Nat) (f : Resize → Option Resize) : Option (SizedSession ρ κ) :=
  match s.resizes[i]? with
  | some resize => (f resize).map fun resize' ↦ { s with resizes := s.resizes.set i resize' }
  | none => none

def finish (s : SizedSession ρ κ) (i : Nat) (taken : Bool) : Option (SizedSession ρ κ) :=
  match s.resizes[i]? with
  | some resize => (s.advance i fun resize ↦ resize.finish taken).map fun t ↦
      if taken then { t with applied := some resize.size } else t
  | none => none

def step [Room ρ] (cfg : SessionConfig) (s : SizedSession ρ κ) : SizedEvent ρ κ → Option (SizedSession ρ κ)
  | .session e fits => (Session.step cfg s.session e).map (s.follow e fits)
  -- a pty is requested before the shell is
  | .ptyRequested width height => if s.session.pump.isNone then some (s.ptyRequested width height) else none
  | .terminalSizeChanged width height => some (s.terminalSizeChanged width height)
  | .resizeRuns i => s.advance i Resize.run
  | .resizeStarts i => s.advance i Resize.start
  | .resizeFinishes i taken => s.finish i taken

def machine (ρ κ : Type) [Room ρ] (cfg : SessionConfig) :
    Machine (SizedSession ρ κ) (SizedEvent ρ κ) where
  init := .initial
  step := step cfg

/-- The room is open, and no call of `room.resize` is under way. -/
def Quiet (s : SizedSession ρ κ) : Prop :=
  s.session.room ≠ none ∧ ∀ resize ∈ s.resizes, resize.point = .ended

instance (s : SizedSession ρ κ) : Decidable s.Quiet :=
  inferInstanceAs (Decidable (_ ∧ _))

/-- `open` or `resume` comes back with a room. -/
def returnsRoom : Event ρ κ → Bool
  | .openEnds (.returned _) _ => true
  | _ => false

/-- What keeps the room at the recorded size: at the end of `open` or `resume` that is still the size it was
called with, later sizes are complete, no call is overtaken by one that was started after it, and the container
takes what it is given. -/
def Settles (s : SizedSession ρ κ) : SizedEvent ρ κ → Prop
  | .session e fits => returnsRoom e = true → s.session.teardown = none → s.size = s.args ∧ fits = true
  | .ptyRequested _ _ => True
  | .terminalSizeChanged width height => s.session.room ≠ none → width ≠ 0 ∧ height ≠ 0
  | .resizeRuns _ => True
  | .resizeStarts _ => True
  | .resizeFinishes i taken =>
    s.session.room ≠ none → taken = true ∧ ∀ later ∈ s.resizes.drop (i + 1), later.applied = false

instance (s : SizedSession ρ κ) : ∀ e, Decidable (s.Settles e)
  | .session _ _ => inferInstanceAs (Decidable (_ → _ → _))
  | .ptyRequested _ _ => .isTrue trivial
  | .terminalSizeChanged _ _ => inferInstanceAs (Decidable (_ → _))
  | .resizeRuns _ => .isTrue trivial
  | .resizeStarts _ => .isTrue trivial
  | .resizeFinishes _ _ => inferInstanceAs (Decidable (_ → _))

end SizedSession

end Keycard.Session
