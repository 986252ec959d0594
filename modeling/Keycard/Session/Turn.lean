import Mathlib.Algebra.Order.Ring.Rat
import Keycard.Session.Frame

/-!
# One turn of a session

`Turn` says what a step of a session is: which task or callback it belongs to, where that stood, and
which function of `session.py` ran.  It keeps all of the session, where `Move` keeps the part that
decides about the room.
-/

open Reasoning

namespace Keycard.Session

variable {ρ κ : Type}

inductive Turn [Room ρ] (cfg : SessionConfig) (s : RoomSession ρ κ) :
    Event ρ κ → RoomSession ρ κ → Prop
  | sessionStarted (hp : s.pump = none) : Turn cfg s .sessionStarted s.sessionStarted
  | channelCloses : Turn cfg s .channelCloses { s with chan := s.chan.close }
  | connectionLost (hlost : s.chan.lost = false) : Turn cfg s .connectionLost s.connectionLost
  -- the pump
  | pumpCutOff {kept : Option κ} (hp : s.pump = some (.created true)) :
      Turn cfg s (.pumpStarts kept) (s.endPump .cancelled)
  | pumpStarts {kept : Option κ} (hp : s.pump = some (.created false)) :
      Turn cfg s (.pumpStarts kept) (s.run kept)
  | openEnds {kept : Option κ} {c : Bool} {reply : Reply ρ} {broken : Bool}
      (hp : s.pump = some (.suspended (.opening kept) c)) (hreply : reply.allowed c = true) :
      Turn cfg s (.openEnds reply broken) (s.afterOpen kept reply broken)
  | destroyKeptEnds {k : κ} {c : Bool} {reply : Outcome} {broken : Bool}
      (hp : s.pump = some (.suspended (.destroyingKept k) c)) (hreply : reply.allowed c = true) :
      Turn cfg s (.destroyKeptEnds reply broken) (s.afterDestroyKept reply broken)
  | lateDestroyEnds {room : ρ} {c : Bool} {reply : Reply Int}
      (hp : s.pump = some (.suspended (.checkingOut room) c)) (hreply : reply.allowed c = true) :
      Turn cfg s (.lateDestroyEnds reply) (s.afterLateDestroy room reply)
  | readEnds {room : ρ} {c : Bool} {reply : Reply Bool} {broken : Bool}
      (hp : s.pump = some (.suspended (.reading room) c)) (hreply : reply.allowed c = true) :
      Turn cfg s (.readEnds reply broken) (s.afterRead room reply broken)
  | pumpResumes {ours unwinding c broken : Bool} {how : Outcome}
      (hp : s.pump = some (.suspended (.joining ours unwinding) c)) (hwakes : wakes s .pump = some how) :
      Turn cfg s (.pumpResumes broken) (s.dequeue.goodbye ours unwinding c broken how)
  -- the watchdog
  | watchdogCutOff {idle broken : Bool}
      (hw : s.watchdog = some (.created true) ∨ s.watchdog = some (.suspended .sleeping true)) :
      Turn cfg s (.watchdogRuns idle broken) (s.endWatchdog .cancelled)
  | watchdogOff {idle broken : Bool} (hw : s.watchdog = some (.created false))
      (hidle : cfg.idleSeconds ≤ 0) :
      Turn cfg s (.watchdogRuns idle broken) (s.endWatchdog (.returned ()))
  | watchdogRuns {idle broken : Bool}
      (hw : s.watchdog = some (.created false) ∧ 0 < cfg.idleSeconds ∨
        s.watchdog = some (.suspended .sleeping false)) :
      Turn cfg s (.watchdogRuns idle broken) (s.idleWatchdog idle broken)
  | watchdogResumes {c broken : Bool} {how : Outcome} (hw : s.watchdog = some (.suspended .joining c))
      (hwakes : wakes s .watchdog = some how) :
      Turn cfg s (.watchdogResumes broken) (s.dequeue.watchdogAfterTeardown c broken how)
  -- `force_close`
  | forceClose (hc : s.closer = none) : Turn cfg s .forceClose { s with closer := some (.created false) }
  | closerCutOff {broken : Bool} (hc : s.closer = some (.created true)) :
      Turn cfg s (.closerStarts broken) (s.endCloser .cancelled)
  | closerStarts {broken : Bool} (hc : s.closer = some (.created false)) :
      Turn cfg s (.closerStarts broken) (s.forceClose broken)
  | closerResumes {c broken : Bool} {how : Outcome} (hc : s.closer = some (.suspended () c))
      (hwakes : wakes s .forceClose = some how) :
      Turn cfg s (.closerResumes broken) (s.dequeue.closerAfterTeardown c broken how)
  | forceCloseTimeout : Turn cfg s .forceCloseTimeout s.cancelCloser
  -- the teardown
  | teardownCutOff {td : Teardown ρ} (htd : s.teardown = some td) (htask : td.task = .created true) :
      Turn cfg s .teardownStarts (s.setTeardown td (.ended .cancelled))
  | teardownStarts {td : Teardown ρ} (htd : s.teardown = some td) (htask : td.task = .created false) :
      Turn cfg s .teardownStarts (s.runTeardown cfg td)
  | keepEnds {td : Teardown ρ} {room : ρ} {c : Bool} {reply : Outcome} (htd : s.teardown = some td)
      (htask : td.task = .suspended (.pausing room) c) (hreply : reply.allowed c = true) :
      Turn cfg s (.keepEnds reply) (s.afterKeep td room reply)
  | destroyEnds {td : Teardown ρ} {room : ρ} {c : Bool} {reply : Reply Int} (htd : s.teardown = some td)
      (htask : td.task = .suspended (.destroying room) c) (hreply : reply.allowed c = true) :
      Turn cfg s (.destroyEnds reply) (s.afterDestroy td room reply)

/-! ## Every step is a turn -/

section Turns

variable [Room ρ] {cfg : SessionConfig} {s t : RoomSession ρ κ} {e : Event ρ κ}

theorem stepPump_turn (h : stepPump cfg s e = some t) : Turn cfg s e t := by
  unfold stepPump at h
  split at h
  · split at h
    · cases h
      exact .pumpCutOff ‹_›
    · split at h <;> cases h
      exact .pumpStarts ‹_›
    · cases h
  · split at h
    · split at h <;> cases h
      exact .openEnds ‹_› ‹_›
    · cases h
  · split at h
    · split at h <;> cases h
      exact .destroyKeptEnds ‹_› ‹_›
    · cases h
  · split at h
    · split at h <;> cases h
      exact .lateDestroyEnds ‹_› ‹_›
    · cases h
  · split at h
    · split at h <;> cases h
      exact .readEnds ‹_› ‹_›
    · cases h
  · split at h <;> cases h
    exact .pumpResumes ‹_› ‹_›
  · cases h

theorem stepWatchdog_turn (h : stepWatchdog cfg s e = some t) : Turn cfg s e t := by
  unfold stepWatchdog at h
  split at h
  · split at h
    · cases h
      exact .watchdogCutOff (.inl ‹_›)
    · split at h <;> cases h
      · exact .watchdogOff ‹_› ‹_›
      · exact .watchdogRuns (.inl ⟨‹_›, not_le.mp ‹_›⟩)
    · cases h
      exact .watchdogCutOff (.inr ‹_›)
    · cases h
      exact .watchdogRuns (.inr ‹_›)
    · cases h
  · split at h <;> cases h
    exact .watchdogResumes ‹_› ‹_›
  · cases h

theorem stepCloser_turn (h : stepCloser s e = some t) : Turn cfg s e t := by
  unfold stepCloser at h
  split at h
  · split at h <;> cases h
    exact .forceClose (Option.isNone_iff_eq_none.mp ‹_›)
  · split at h
    · cases h
      exact .closerCutOff ‹_›
    · cases h
      exact .closerStarts ‹_›
    · cases h
  · split at h <;> cases h
    exact .closerResumes ‹_› ‹_›
  · split at h <;> cases h
    exact .forceCloseTimeout
  · cases h

theorem stepTeardown_turn (h : stepTeardown cfg s e = some t) : Turn cfg s e t := by
  unfold stepTeardown at h
  split at h
  · split at h
    · cases h
    · split at h <;> cases h
      · exact .teardownCutOff ‹_› ‹_›
      · exact .teardownStarts ‹_› ‹_›
  · split at h
    · cases h
    · split at h
      · split at h <;> cases h
        exact .keepEnds ‹_› ‹_› ‹_›
      · cases h
  · split at h
    · cases h
    · split at h
      · split at h <;> cases h
        exact .destroyEnds ‹_› ‹_› ‹_›
      · cases h
  · cases h

theorem step_turn (h : step cfg s e = some t) : Turn cfg s e t := by
  cases e with
  | sessionStarted =>
    simp only [step] at h
    split at h <;> cases h
    exact .sessionStarted (Option.isNone_iff_eq_none.mp ‹_›)
  | channelCloses =>
    cases h
    exact .channelCloses
  | connectionLost =>
    simp only [step] at h
    split at h <;> cases h
    exact .connectionLost (by simpa using ‹¬ s.chan.lost = true›)
  | pumpStarts _ | openEnds _ _ | destroyKeptEnds _ _ | lateDestroyEnds _ | readEnds _ _
  | pumpResumes _ => exact stepPump_turn h
  | watchdogRuns _ _ | watchdogResumes _ => exact stepWatchdog_turn h
  | forceClose | closerStarts _ | closerResumes _ | forceCloseTimeout => exact stepCloser_turn h
  | teardownStarts | keepEnds _ | destroyEnds _ => exact stepTeardown_turn h

end Turns

end Keycard.Session
