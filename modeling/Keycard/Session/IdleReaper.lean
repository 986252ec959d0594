import Keycard.Session.Turn

/-!
# The idle reaper and the clock

`_idle_watchdog` sleeps for what is left of `idle_seconds` and then looks again, while `data_received` and the
read loop move `_last_activity` forward.  Time passes between the steps of a session, counted from its
construction; a sleep may be over at any time, and `Prompt` says that it is over when it should be.
-/

open Reasoning

namespace Keycard.Session

/-- The watchdog has come to `_begin_teardown`. -/
structure Reap where
  time : ℚ
  /-- the traffic until then -/
  before : List ℚ
deriving DecidableEq, Repr

structure TimedSession (ρ κ : Type) where
  session : RoomSession ρ κ
  /-- `time.monotonic()` -/
  clock : ℚ
  lastActivity : ℚ
  /-- when the sleep of the watchdog should be over -/
  wake : ℚ
  /-- the construction, and then when there was input or output -/
  traffic : List ℚ
  reaps : List Reap
deriving DecidableEq, Repr

inductive TimedEvent (ρ κ : Type) where
  | passes (seconds : ℚ)
  | dataReceived
  | watchdogRuns (broken : Bool)
  | session (e : Event ρ κ)
deriving DecidableEq, Repr

namespace TimedSession

variable {ρ κ : Type}

def initial : TimedSession ρ κ where
  session := .initial
  clock := 0
  lastActivity := 0
  wake := 0
  traffic := [0]
  reaps := []

/-- `self._last_activity = time.monotonic()` -/
def active (s : TimedSession ρ κ) : TimedSession ρ κ :=
  { s with lastActivity := s.clock, traffic := s.traffic ++ [s.clock] }

/-- `self._idle_seconds - (time.monotonic() - self._last_activity)` -/
def remaining (cfg : SessionConfig) (s : TimedSession ρ κ) : ℚ :=
  cfg.idleSeconds - (s.clock - s.lastActivity)

/-- How often the watchdog has come to `_begin_teardown`. -/
def reapings (s : RoomSession ρ κ) : Nat :=
  s.marks.countP fun
    | .reached .watchdog _ => true
    | _ => false

/-- One turn of the watchdog's loop, which takes the session to `t`. -/
def afterWatchdog (cfg : SessionConfig) (s : TimedSession ρ κ) (t : RoomSession ρ κ) : TimedSession ρ κ :=
  { s with
    session := t
    wake := s.clock + s.remaining cfg
    reaps := if reapings s.session < reapings t then s.reaps ++ [⟨s.clock, s.traffic⟩] else s.reaps }

/-- A step of the session to `t`; a chunk of output is activity. -/
def follow (s : TimedSession ρ κ) (e : Event ρ κ) (t : RoomSession ρ κ) : TimedSession ρ κ :=
  match e with
  | .readEnds (.returned true) _ => { s with session := t }.active
  | _ => { s with session := t }

/-- The watchdog runs with what the clock says. -/
def isWatchdogRuns : Event ρ κ → Bool
  | .watchdogRuns _ _ => true
  | _ => false

def step [Room ρ] (cfg : SessionConfig) (s : TimedSession ρ κ) : TimedEvent ρ κ → Option (TimedSession ρ κ)
  | .passes seconds => if 0 ≤ seconds then some { s with clock := s.clock + seconds } else none
  | .dataReceived => some s.active
  | .watchdogRuns broken =>
    (Session.step cfg s.session (.watchdogRuns (s.remaining cfg ≤ 0) broken)).map (s.afterWatchdog cfg)
  | .session e => if isWatchdogRuns e then none else (Session.step cfg s.session e).map (s.follow e)

def machine (ρ κ : Type) [Room ρ] (cfg : SessionConfig) : Machine (TimedSession ρ κ) (TimedEvent ρ κ) where
  init := .initial
  step := step cfg

/-- The watchdog has yet to start. -/
def unstarted (s : RoomSession ρ κ) : Bool :=
  match s.watchdog with
  | none => true
  | some (.created false) => true
  | _ => false

/-- The watchdog sleeps, and nobody has cancelled it. -/
def sleeps (s : RoomSession ρ κ) : Bool :=
  match s.watchdog with
  | some (.suspended .sleeping false) => true
  | _ => false

/-- The watchdog starts within `idle_seconds` of the construction, and `asyncio.sleep(d)` wakes exactly `d`
later. -/
def Prompt (cfg : SessionConfig) (s : TimedSession ρ κ) : TimedEvent ρ κ → Prop
  | .passes seconds =>
    (unstarted s.session = true → s.clock + seconds ≤ cfg.idleSeconds) ∧
      (sleeps s.session = true → s.clock + seconds ≤ s.wake)
  | .watchdogRuns _ => sleeps s.session = true → s.clock = s.wake
  | _ => True

instance (cfg : SessionConfig) (s : TimedSession ρ κ) : ∀ e, Decidable (s.Prompt cfg e)
  | .passes _ => inferInstanceAs (Decidable (_ ∧ _))
  | .dataReceived => .isTrue trivial
  | .watchdogRuns _ => inferInstanceAs (Decidable (_ → _))
  | .session _ => .isTrue trivial

/-- Where the watchdog is about to reap, the channel takes the banner. -/
def TakesBanner (cfg : SessionConfig) (s : TimedSession ρ κ) : TimedEvent ρ κ → Prop
  | .watchdogRuns broken => s.remaining cfg ≤ 0 → s.session.writes broken = true
  | _ => True

instance (cfg : SessionConfig) (s : TimedSession ρ κ) : ∀ e, Decidable (s.TakesBanner cfg e)
  | .watchdogRuns _ => inferInstanceAs (Decidable (_ → _))
  | .passes _ | .dataReceived | .session _ => .isTrue trivial

end TimedSession

end Keycard.Session
