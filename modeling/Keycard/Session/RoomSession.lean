import Mathlib.Data.Rat.Defs
import Keycard.Backends.Base
import Keycard.Reasoning.Machine
import Keycard.Reasoning.Task

/-!
# One `RoomSession`

`session.py`, cut at its `await`s.  The pump (`_run`), the idle watchdog, the teardown and the
`force_close` call of a drain are tasks of one event loop: each function below is what one of them
does from the reply it was waiting for to its next suspension, and nothing else runs meanwhile.

What the session calls into (the backend, the room, the channel) is the environment.  A call that is
awaited may come back in any way, at any time; a channel operation may raise although
`is_closing()` is false, which is what `broken` says of the step it is a part of.
-/

open Reasoning

namespace Keycard

/-- `KeptRooms.enabled`, for the window of the registry a session was given, if any. -/
def keepEnabled (window : Option ℚ) : Bool :=
  match window with
  | none => false
  | some seconds => 0 < seconds

namespace Session

def idleExitStatus : Int := 124

def shutdownExitStatus : Int := 143

/-- The channel, as far as `is_closing`, `exit` and `close` go. -/
structure Channel where
  closing : Bool
  lost : Bool
  statuses : List Int
deriving DecidableEq, Repr

/-- `chan.exit(status)`; a closing channel sends nothing. -/
def Channel.exit (chan : Channel) (status : Int) : Channel :=
  if chan.closing then chan else { chan with closing := true, statuses := chan.statuses ++ [status] }

def Channel.close (chan : Channel) : Channel :=
  { chan with closing := true }

/-- The four paths that can each decide the room should end. -/
inductive Trigger where
  | pump
  | connectionLost
  | watchdog
  | forceClose
deriving DecidableEq, Repr

/-- Where `_run` suspends. -/
inductive PumpPoint (ρ κ : Type) where
  /-- in `backend.resume(kept, ..)`, or in `backend.open(..)` when nothing was kept -/
  | opening (kept : Option κ)
  /-- in `backend.destroy_kept(kept)`, after a resume that raised -/
  | destroyingKept (kept : κ)
  /-- in `_checkout(room)`, for a room that opened after the session had ended -/
  | checkingOut (room : ρ)
  | reading (room : ρ)
  /-- in the `finally` of the read loop, waiting for the teardown; `unwinding` says that a
  `CancelledError` is on its way through -/
  | joining (ours unwinding : Bool)
deriving DecidableEq, Repr

/-- Where `_idle_watchdog` suspends. -/
inductive WatchdogPoint where
  | sleeping
  | joining
deriving DecidableEq, Repr

/-- Where `_run_teardown` suspends; in both cases it has taken the room out of `self._room`. -/
inductive TeardownPoint (ρ : Type) where
  | pausing (room : ρ)
  | destroying (room : ρ)
deriving DecidableEq, Repr

def PumpPoint.joins {ρ κ : Type} : PumpPoint ρ κ → Bool
  | .joining _ _ => true
  | _ => false

def WatchdogPoint.joins : WatchdogPoint → Bool
  | .joining => true
  | .sleeping => false

/-- `self._teardown`, with the tasks that wait for it in the order they began to. -/
structure Teardown (ρ : Type) where
  allowKeep : Bool
  task : LoopTask (TeardownPoint ρ)
  waiters : List Trigger
deriving DecidableEq, Repr

/-- Who calls `destroy()` on a room: `_run_teardown`, or `_run` for a room that came too late. -/
inductive Owner where
  | pump
  | teardown
deriving DecidableEq, Repr

/-- What a session has done so far, in order.  Nothing in the code reads these. -/
inductive Mark (ρ κ : Type) where
  /-- `_begin_teardown` was reached, with this in `self._room` -/
  | reached (trigger : Trigger) (room : Option ρ)
  | took (kept : κ)
  | opened (kept : Option κ) (room : ρ)
  | destroyKept (kept : κ)
  /-- `_run_teardown` found no room to take -/
  | foundNone
  | taken (room : ρ)
  | pause (room : ρ)
  | kept (room : ρ)
  | keepRaised (room : ρ)
  | destroy (owner : Owner) (room : ρ)
  /-- a `destroy()` came back, with a status or an exception -/
  | destroyEnded (room : ρ)
  /-- a `CancelledError` was sent into the pump where it is suspended -/
  | pumpCancelled (point : PumpPoint ρ κ)
  /-- a `CancelledError` was sent into the teardown, before its first line or where it is suspended -/
  | teardownCancelled (point : Option (TeardownPoint ρ))
deriving DecidableEq, Repr

def cancelMarks {ρ κ : Type} : Option (PumpPoint ρ κ) → List (Mark ρ κ)
  | some p => [.pumpCancelled p]
  | none => []

def takeMarks {ρ κ : Type} : Option κ → List (Mark ρ κ)
  | some k => [.took k]
  | none => []

/-- What a session is built with: the window of its registry of kept rooms, `none` without one, and
the idle limit. -/
structure SessionConfig where
  keepWindow : Option ℚ
  idleSeconds : ℚ

end Session

open Session

/-- A `RoomSession` after `connection_made`; `closer` is the `force_close` call of the drain. -/
structure RoomSession (ρ κ : Type) where
  chan : Channel
  room : Option ρ
  pump : Option (LoopTask (PumpPoint ρ κ))
  watchdog : Option (LoopTask WatchdogPoint)
  teardown : Option (Teardown ρ)
  status : Option Int
  closer : Option (LoopTask Unit)
  released : Bool
  marks : List (Mark ρ κ)
deriving DecidableEq, Repr

namespace RoomSession

variable {ρ κ : Type}

def initial : RoomSession ρ κ where
  chan := { closing := false, lost := false, statuses := [] }
  room := none
  pump := none
  watchdog := none
  teardown := none
  status := none
  closer := none
  released := false
  marks := []

def note (s : RoomSession ρ κ) (m : Mark ρ κ) : RoomSession ρ κ :=
  { s with marks := s.marks ++ [m] }

def noteAll (s : RoomSession ρ κ) (ms : List (Mark ρ κ)) : RoomSession ρ κ :=
  { s with marks := s.marks ++ ms }

def endPump (s : RoomSession ρ κ) (how : Outcome) : RoomSession ρ κ :=
  { s with pump := some (.ended how) }

def endWatchdog (s : RoomSession ρ κ) (how : Outcome) : RoomSession ρ κ :=
  { s with watchdog := some (.ended how) }

def endCloser (s : RoomSession ρ κ) (how : Outcome) : RoomSession ρ κ :=
  { s with closer := some (.ended how) }

def setTeardown (s : RoomSession ρ κ) (td : Teardown ρ) (task : LoopTask (TeardownPoint ρ)) :
    RoomSession ρ κ :=
  { s with teardown := some { td with task } }

/-- How the teardown ended, if it has. -/
def teardownOver (s : RoomSession ρ κ) : Option Outcome :=
  match s.teardown with
  | some { task := .ended how, .. } => some how
  | _ => none

/-! ## The channel lifecycle -/

/-- `session_started` -/
def sessionStarted (s : RoomSession ρ κ) : RoomSession ρ κ :=
  { s with pump := some (.created false), watchdog := some (.created false) }

/-- `_begin_teardown` -/
def beginTeardown (s : RoomSession ρ κ) (trigger : Trigger) (allowKeep : Bool) :
    RoomSession ρ κ :=
  let s := s.note (.reached trigger s.room)
  match s.teardown with
  | none => { s with teardown := some { allowKeep, task := .created false, waiters := [] } }
  | some _ => s

/-- `task.cancel()` on a task that may be waiting for the teardown, at the points `joins` picks out;
`own` is the log entry for a request that stops at the task itself. -/
def cancelTask {π : Type} (s : RoomSession ρ κ) (joins : π → Bool)
    (own : Option π → List (Mark ρ κ)) (t : LoopTask π) : LoopTask π × RoomSession ρ κ :=
  match s.teardown with
  | none => (t.cancel, s.noteAll (own t.point?))
  | some td =>
    let (t', task) := t.cancelThrough joins td.task
    -- `cancel()` goes down the chain of awaits, and stops where something can still be cancelled
    if t.waitsIn joins && !td.task.isEnded then
      (t', (s.setTeardown td task).note (.teardownCancelled td.task.point?))
    else (t', (s.setTeardown td task).noteAll (own t.point?))

def cancelPump (s : RoomSession ρ κ) : RoomSession ρ κ :=
  match s.pump with
  | none => s
  | some pump =>
    let (pump, s) := s.cancelTask PumpPoint.joins cancelMarks pump
    { s with pump := some pump }

def cancelWatchdog (s : RoomSession ρ κ) : RoomSession ρ κ :=
  match s.watchdog with
  | none => s
  | some watchdog =>
    let (watchdog, s) := s.cancelTask WatchdogPoint.joins (fun _ ↦ []) watchdog
    { s with watchdog := some watchdog }

/-- The FORCE_CLOSE_TIMEOUT of `_drain` cancelling this session's `force_close`, which suspends
nowhere but in its `await` of the teardown. -/
def cancelCloser (s : RoomSession ρ κ) : RoomSession ρ κ :=
  match s.closer with
  | none => s
  | some closer =>
    let (closer, s) := s.cancelTask (fun _ ↦ true) (fun _ ↦ []) closer
    { s with closer := some closer }

/-- `connection_lost` -/
def connectionLost (s : RoomSession ρ κ) : RoomSession ρ κ :=
  let s := { s with chan := { s.chan with closing := true, lost := true } }
  -- the two tasks are cancelled before `_begin_teardown` is reached
  s.cancelPump.cancelWatchdog.beginTeardown .connectionLost true

/-! ## The teardown -/

/-- `_release`, on the way out of `_run_teardown` -/
def release (s : RoomSession ρ κ) (td : Teardown ρ) (how : Outcome) : RoomSession ρ κ :=
  { s.setTeardown td (.ended how) with released := true }

/-- `_checkout(room)`, up to its `await` -/
def checkout (s : RoomSession ρ κ) (td : Teardown ρ) (room : ρ) : RoomSession ρ κ :=
  (s.note (.destroy .teardown room)).setTeardown td (.suspended (.destroying room) false)

/-- `_run_teardown`, up to its first `await` -/
def runTeardown [Room ρ] (cfg : SessionConfig) (s : RoomSession ρ κ) (td : Teardown ρ) : RoomSession ρ κ :=
  match s.room with
  | none => (s.note .foundNone).release td (.returned ())
  | some room =>
    -- `room, self._room = self._room, None`
    let s := { s with room := none }.note (.taken room)
    if td.allowKeep && keepEnabled cfg.keepWindow && Room.canPause room then
      (s.note (.pause room)).setTeardown td (.suspended (.pausing room) false)
    else s.checkout td room

/-- `kept.keep(..)` came back: an exception falls back to `_checkout`, a `CancelledError` is not
an `Exception` and goes straight to the `finally`. -/
def afterKeep (s : RoomSession ρ κ) (td : Teardown ρ) (room : ρ) : Outcome → RoomSession ρ κ
  | .returned () => (s.note (.kept room)).release td (.returned ())
  | .raised => (s.note (.keepRaised room)).checkout td room
  | .cancelled => s.release td .cancelled

/-- `room.destroy()` came back to `_checkout` in `_run_teardown`. -/
def afterDestroy (s : RoomSession ρ κ) (td : Teardown ρ) (room : ρ) :
    Reply Int → RoomSession ρ κ
  | .returned status =>
    ({ s with status := some status }.note (.destroyEnded room)).release td (.returned ())
  | .raised => ({ s with status := some 1 }.note (.destroyEnded room)).release td (.returned ())
  | .cancelled => s.release td .cancelled

/-- A task begins to wait for the teardown. -/
def enqueue (s : RoomSession ρ κ) (who : Trigger) : RoomSession ρ κ :=
  match s.teardown with
  | none => s
  | some td => { s with teardown := some { td with waiters := td.waiters ++ [who] } }

/-- The finished teardown wakes the task that has waited longest. -/
def dequeue (s : RoomSession ρ κ) : RoomSession ρ κ :=
  match s.teardown with
  | none => s
  | some td => { s with teardown := some { td with waiters := td.waiters.tail } }

/-! ## The pump -/

/-- The first segment of `_run`: claim a kept room, then resume it or open a new one. -/
def run (s : RoomSession ρ κ) (kept : Option κ) : RoomSession ρ κ :=
  { s.noteAll (takeMarks kept) with pump := some (.suspended (.opening kept) false) }

/-- `chan.write(b"keycard: no room available"); chan.exit(1); return` -/
def noRoomAvailable (s : RoomSession ρ κ) (broken : Bool) : RoomSession ρ κ :=
  if broken then s.endPump .raised
  else { s with chan := s.chan.exit 1 }.endPump (.returned ())

/-- `_run` from the reply of `resume` or `open` on. -/
def afterOpen (s : RoomSession ρ κ) (kept : Option κ) (reply : Reply ρ) (broken : Bool) :
    RoomSession ρ κ :=
  match reply with
  | .cancelled => s.endPump .cancelled
  | .raised =>
    match kept with
    | some k => { s.note (.destroyKept k) with pump := some (.suspended (.destroyingKept k) false) }
    | none => s.noRoomAvailable broken
  | .returned room =>
    let s := s.note (.opened kept room)
    match s.teardown with
    -- `self._teardown is not None`: the teardown has found no room, or is about to
    | some _ =>
      { s.note (.destroy .pump room) with
        room := none
        pump := some (.suspended (.checkingOut room) false) }
    | none =>
      -- the banner is written outside the `try` of the read loop
      if broken then { s with room := some room }.endPump .raised
      else { s with room := some room, pump := some (.suspended (.reading room) false) }

/-- `destroy_kept` came back; its own failure is only logged. -/
def afterDestroyKept (s : RoomSession ρ κ) (reply : Outcome) (broken : Bool) : RoomSession ρ κ :=
  match reply with
  | .cancelled => s.endPump .cancelled
  | _ => s.noRoomAvailable broken

/-- `destroy()` came back to the `_checkout` of a room that opened too late. -/
def afterLateDestroy (s : RoomSession ρ κ) (room : ρ) : Reply Int → RoomSession ρ κ
  | .cancelled => s.endPump .cancelled
  | _ => (s.note (.destroyEnded room)).endPump (.returned ())

/-- The end of `_run`, once the teardown it waits for is over: the goodbye, then whatever was on
its way through the `finally`. -/
def goodbye (s : RoomSession ρ κ) (ours unwinding cancelled broken : Bool) (how : Outcome) :
    RoomSession ρ κ :=
  -- a `CancelledError` at the `await` replaces whatever was on its way through
  if cancelled then s.endPump .cancelled
  else
    match how with
    | .returned () =>
      let s := match s.status with
        | some status =>
          if ours && !s.chan.closing && !broken then { s with chan := s.chan.exit status } else s
        | none => s
      s.endPump (if unwinding then .cancelled else .returned ())
    | how => s.endPump how

/-- The `finally` of the read loop, up to its `await` if it has to wait at all. -/
def finishReading (s : RoomSession ρ κ) (unwinding broken : Bool) : RoomSession ρ κ :=
  -- asked before `_begin_teardown`, which would make it false
  let ours := s.teardown.isNone
  let s := s.beginTeardown .pump false
  match s.teardownOver with
  | some how => s.goodbye ours unwinding false broken how
  | none => { s.enqueue .pump with pump := some (.suspended (.joining ours unwinding) false) }

/-- `room.read()` came back: `returned true` is a chunk of output, `returned false` the end of it. -/
def afterRead (s : RoomSession ρ κ) (room : ρ) (reply : Reply Bool) (broken : Bool) :
    RoomSession ρ κ :=
  match reply with
  | .returned true =>
    if broken then s.finishReading false broken
    else { s with pump := some (.suspended (.reading room) false) }
  | .returned false => s.finishReading false broken
  | .raised => s.finishReading false broken
  | .cancelled => s.finishReading true broken

/-! ## The idle watchdog and `force_close`

Both end with `if not chan.is_closing(): chan.exit(status); chan.close()`. -/

/-- `if not chan.is_closing(): chan.write(..)` does not raise. -/
def writes (s : RoomSession ρ κ) (broken : Bool) : Bool :=
  s.chan.closing || !broken

/-- The end of `_idle_watchdog` and `force_close`: how they leave the channel, and how they end. -/
def reportAndClose (s : RoomSession ρ κ) (status : Int) (cancelled broken : Bool) (how : Outcome) :
    Channel × Outcome :=
  if cancelled then (s.chan, .cancelled)
  else
    match how with
    | .returned () =>
      if s.chan.closing then (s.chan, .returned ())
      else if broken then (s.chan, .raised)
      else ((s.chan.exit status).close, .returned ())
    | how => (s.chan, how)

def watchdogAfterTeardown (s : RoomSession ρ κ) (cancelled broken : Bool) (how : Outcome) :
    RoomSession ρ κ :=
  let (chan, how) := s.reportAndClose idleExitStatus cancelled broken how
  { s with chan }.endWatchdog how

/-- One turn of the watchdog's loop; `idle` says that nothing happened for `idle_seconds`. -/
def idleWatchdog (s : RoomSession ρ κ) (idle broken : Bool) : RoomSession ρ κ :=
  if !idle then { s with watchdog := some (.suspended .sleeping false) }
  else if !s.writes broken then s.endWatchdog .raised
  else
    let s := s.beginTeardown .watchdog false
    match s.teardownOver with
    | some how => s.watchdogAfterTeardown false broken how
    | none => { s.enqueue .watchdog with watchdog := some (.suspended .joining false) }

def closerAfterTeardown (s : RoomSession ρ κ) (cancelled broken : Bool) (how : Outcome) :
    RoomSession ρ κ :=
  let (chan, how) := s.reportAndClose shutdownExitStatus cancelled broken how
  { s with chan }.endCloser how

/-- `force_close`, up to its `await` if it has to wait at all -/
def forceClose (s : RoomSession ρ κ) (broken : Bool) : RoomSession ρ κ :=
  if !s.writes broken then s.endCloser .raised
  else
    let s := s.beginTeardown .forceClose false
    match s.teardownOver with
    | some how => s.closerAfterTeardown false broken how
    | none => { s.enqueue .forceClose with closer := some (.suspended () false) }

end RoomSession

/-! ## Every interleaving -/

namespace Session

/-- What can happen to a session next: a callback of asyncssh or of the drain, or one of its tasks
being resumed with the reply it waited for. -/
inductive Event (ρ κ : Type) where
  | sessionStarted
  | channelCloses
  | connectionLost
  | pumpStarts (kept : Option κ)
  | openEnds (reply : Reply ρ) (broken : Bool)
  | destroyKeptEnds (reply : Outcome) (broken : Bool)
  | lateDestroyEnds (reply : Reply Int)
  | readEnds (reply : Reply Bool) (broken : Bool)
  | pumpResumes (broken : Bool)
  | watchdogRuns (idle broken : Bool)
  | watchdogResumes (broken : Bool)
  | forceClose
  | closerStarts (broken : Bool)
  | closerResumes (broken : Bool)
  | forceCloseTimeout
  | teardownStarts
  | keepEnds (reply : Outcome)
  | destroyEnds (reply : Reply Int)
deriving DecidableEq, Repr

section Steps

variable {ρ κ : Type}

/-- The outcome of the teardown for `who`, when it is over and `who` has waited for it longest. -/
def wakes (s : RoomSession ρ κ) (who : Trigger) : Option Outcome :=
  match s.teardown with
  | some { task := .ended how, waiters := w :: _, .. } => if w = who then some how else none
  | _ => none

def stepPump (cfg : SessionConfig) (s : RoomSession ρ κ) :
    Event ρ κ → Option (RoomSession ρ κ)
  | .pumpStarts kept =>
    match s.pump with
    | some (.created true) => some (s.endPump .cancelled)
    | some (.created false) =>
      -- without a registry there is no `take()` to return anything
      if cfg.keepWindow.isNone && kept.isSome then none else some (s.run kept)
    | _ => none
  | .openEnds reply broken =>
    match s.pump with
    | some (.suspended (.opening kept) c) =>
      if reply.allowed c then some (s.afterOpen kept reply broken) else none
    | _ => none
  | .destroyKeptEnds reply broken =>
    match s.pump with
    | some (.suspended (.destroyingKept _) c) =>
      if reply.allowed c then some (s.afterDestroyKept reply broken) else none
    | _ => none
  | .lateDestroyEnds reply =>
    match s.pump with
    | some (.suspended (.checkingOut room) c) =>
      if reply.allowed c then some (s.afterLateDestroy room reply) else none
    | _ => none
  | .readEnds reply broken =>
    match s.pump with
    | some (.suspended (.reading room) c) =>
      if reply.allowed c then some (s.afterRead room reply broken) else none
    | _ => none
  | .pumpResumes broken =>
    match s.pump, wakes s .pump with
    | some (.suspended (.joining ours unwinding) c), some how =>
      some (s.dequeue.goodbye ours unwinding c broken how)
    | _, _ => none
  | _ => none

def stepWatchdog (cfg : SessionConfig) (s : RoomSession ρ κ) :
    Event ρ κ → Option (RoomSession ρ κ)
  | .watchdogRuns idle broken =>
    match s.watchdog with
    | some (.created true) => some (s.endWatchdog .cancelled)
    | some (.created false) =>
      -- the watchdog is switched off
      if cfg.idleSeconds ≤ 0 then some (s.endWatchdog (.returned ()))
      else some (s.idleWatchdog idle broken)
    | some (.suspended .sleeping true) => some (s.endWatchdog .cancelled)
    | some (.suspended .sleeping false) => some (s.idleWatchdog idle broken)
    | _ => none
  | .watchdogResumes broken =>
    match s.watchdog, wakes s .watchdog with
    | some (.suspended .joining c), some how =>
      some (s.dequeue.watchdogAfterTeardown c broken how)
    | _, _ => none
  | _ => none

/-- The `force_close` call: created by the `gather` of the drain, cancelled by its timeout. -/
def stepCloser (s : RoomSession ρ κ) : Event ρ κ → Option (RoomSession ρ κ)
  | .forceClose =>
    if s.closer.isNone then some { s with closer := some (.created false) } else none
  | .closerStarts broken =>
    match s.closer with
    | some (.created true) => some (s.endCloser .cancelled)
    | some (.created false) => some (s.forceClose broken)
    | _ => none
  | .closerResumes broken =>
    match s.closer, wakes s .forceClose with
    | some (.suspended () c), some how => some (s.dequeue.closerAfterTeardown c broken how)
    | _, _ => none
  | .forceCloseTimeout => if s.closer.isSome then some s.cancelCloser else none
  | _ => none

def stepTeardown [Room ρ] (cfg : SessionConfig) (s : RoomSession ρ κ) :
    Event ρ κ → Option (RoomSession ρ κ)
  | .teardownStarts =>
    match s.teardown with
    | none => none
    | some td =>
      match td.task with
      -- cancelled before its first line: not even the `finally` runs
      | .created true => some (s.setTeardown td (.ended .cancelled))
      | .created false => some (s.runTeardown cfg td)
      | _ => none
  | .keepEnds reply =>
    match s.teardown with
    | none => none
    | some td =>
      match td.task with
      | .suspended (.pausing room) c =>
        if reply.allowed c then some (s.afterKeep td room reply) else none
      | _ => none
  | .destroyEnds reply =>
    match s.teardown with
    | none => none
    | some td =>
      match td.task with
      | .suspended (.destroying room) c =>
        if reply.allowed c then some (s.afterDestroy td room reply) else none
      | _ => none
  | _ => none

def step [Room ρ] (cfg : SessionConfig) (s : RoomSession ρ κ) (e : Event ρ κ) :
    Option (RoomSession ρ κ) :=
  match e with
  | .sessionStarted => if s.pump.isNone then some s.sessionStarted else none
  | .channelCloses => some { s with chan := s.chan.close }
  | .connectionLost => if s.chan.lost then none else some s.connectionLost
  | .pumpStarts _ | .openEnds _ _ | .destroyKeptEnds _ _ | .lateDestroyEnds _ | .readEnds _ _
  | .pumpResumes _ => stepPump cfg s e
  | .watchdogRuns _ _ | .watchdogResumes _ => stepWatchdog cfg s e
  | .forceClose | .closerStarts _ | .closerResumes _ | .forceCloseTimeout => stepCloser s e
  | .teardownStarts | .keepEnds _ | .destroyEnds _ => stepTeardown cfg s e

end Steps

def machine (ρ κ : Type) [Room ρ] (cfg : SessionConfig) :
    Machine (RoomSession ρ κ) (Event ρ κ) where
  init := .initial
  step := step cfg

end Session

end Keycard
