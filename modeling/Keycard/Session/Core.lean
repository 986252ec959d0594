import Keycard.Session.Turn

/-!
# The life of a session's room

What the watchdog, the drain and the channel do to a session comes down to two things: they reach
`_begin_teardown`, and they send cancellations.  `Core` is the part of a session that decides what
becomes of its room, `Move` says what can happen to it, and `step_moves` that a step of the session
is a sequence of such moves.
-/

open Reasoning

namespace Keycard.Session

structure Core (ρ κ : Type) where
  room : Option ρ
  pump : Option (LoopTask (PumpPoint ρ κ))
  teardown : Option (Bool × LoopTask (TeardownPoint ρ))
  released : Bool
  marks : List (Mark ρ κ)

/-- The moves that come from outside the pump and the teardown carry what they did as a label, and
so do the claim of a kept room and the moves in which a `CancelledError` cuts one of the two tasks
off before it has disposed of its room. -/
inductive Act (ρ κ : Type) where
  | starts
  | begins (trigger : Trigger)
  | cancelsPump (point : Option (PumpPoint ρ κ))
  | cancelsTeardown (point : Option (TeardownPoint ρ))
  | claims (kept : Option κ)
  | pumpCut (point : PumpPoint ρ κ)
  | teardownCut (point : TeardownPoint ρ)
  | neverRuns (room : Option ρ)
  | findsNone
  | goesOn

variable {ρ κ : Type}

/-- How the pump can end from where it is, without being cut off or disposing of a room. -/
def mayEnd : LoopTask (PumpPoint ρ κ) → Outcome → Bool
  | .created _, _ => true
  | .suspended (.opening _) _, .cancelled => false
  | .suspended (.opening kept) _, _ => kept.isNone
  | .suspended (.checkingOut _) _, _ => false
  | .suspended _ _, _ => true
  | .ended _, _ => false

inductive Move [Room ρ] (cfg : SessionConfig) : Core ρ κ → Act ρ κ → Core ρ κ → Prop
  -- what a callback, the watchdog or the drain does
  | starts (c : Core ρ κ) : c.pump = none →
      Move cfg c .starts { c with pump := some (.created false) }
  | begins (c : Core ρ κ) (trigger : Trigger) :
      Move cfg c (.begins trigger) { c with
        teardown := some (c.teardown.getD (trigger == .connectionLost, .created false))
        marks := c.marks ++ [.reached trigger c.room] }
  | cancelsPump (c : Core ρ κ) (pump : LoopTask (PumpPoint ρ κ)) : c.pump = some pump →
      Move cfg c (.cancelsPump pump.point?) { c with
        pump := some pump.cancel, marks := c.marks ++ cancelMarks pump.point? }
  | cancelsTeardown (c : Core ρ κ) (keep : Bool) (task : LoopTask (TeardownPoint ρ)) :
      c.teardown = some (keep, task) → task.isEnded = false →
      Move cfg c (.cancelsTeardown task.point?) { c with
        teardown := some (keep, task.cancel)
        marks := c.marks ++ [.teardownCancelled task.point?] }
  -- the pump, in the order of `_run`
  | pumpStarts (c : Core ρ κ) (kept : Option κ) : c.pump = some (.created false) →
      Move cfg c (.claims kept) { c with
        pump := some (.suspended (.opening kept) false), marks := c.marks ++ takeMarks kept }
  | pumpEnds (c : Core ρ κ) (pump : LoopTask (PumpPoint ρ κ)) (how : Outcome) :
      c.pump = some pump → mayEnd pump how = true →
      Move cfg c .goesOn { c with pump := some (.ended how) }
  | openCut (c : Core ρ κ) (kept : Option κ) :
      c.pump = some (.suspended (.opening kept) true) →
      Move cfg c (.pumpCut (.opening kept)) { c with pump := some (.ended .cancelled) }
  | resumeFails (c : Core ρ κ) (k : κ) (b : Bool) :
      c.pump = some (.suspended (.opening (some k)) b) →
      Move cfg c .goesOn { c with
        pump := some (.suspended (.destroyingKept k) false), marks := c.marks ++ [.destroyKept k] }
  -- the room opened after the session had ended: `_checkout`, not `self._room`
  | opensLate (c : Core ρ κ) (kept : Option κ) (b : Bool) (room : ρ) :
      c.pump = some (.suspended (.opening kept) b) → c.teardown ≠ none →
      Move cfg c .goesOn { c with
        room := none
        pump := some (.suspended (.checkingOut room) false)
        marks := c.marks ++ [.opened kept room, .destroy .pump room] }
  | opens (c : Core ρ κ) (kept : Option κ) (b : Bool) (room : ρ) :
      c.pump = some (.suspended (.opening kept) b) → c.teardown = none →
      Move cfg c .goesOn { c with
        room := some room
        pump := some (.suspended (.reading room) false)
        marks := c.marks ++ [.opened kept room] }
  | lateDestroyed (c : Core ρ κ) (room : ρ) (b : Bool) :
      c.pump = some (.suspended (.checkingOut room) b) →
      Move cfg c .goesOn { c with
        pump := some (.ended (.returned ())), marks := c.marks ++ [.destroyEnded room] }
  | lateCut (c : Core ρ κ) (room : ρ) :
      c.pump = some (.suspended (.checkingOut room) true) →
      Move cfg c (.pumpCut (.checkingOut room)) { c with pump := some (.ended .cancelled) }
  | reads (c : Core ρ κ) (room : ρ) (b : Bool) (p : PumpPoint ρ κ) :
      c.pump = some (.suspended (.reading room) b) → p = .reading room ∨ p.joins = true →
      Move cfg c .goesOn { c with pump := some (.suspended p false) }
  -- the teardown, in the order of `_run_teardown`
  | neverRuns (c : Core ρ κ) (keep : Bool) : c.teardown = some (keep, .created true) →
      Move cfg c (.neverRuns c.room) { c with teardown := some (keep, .ended .cancelled) }
  | findsNone (c : Core ρ κ) (keep : Bool) : c.teardown = some (keep, .created false) →
      c.room = none →
      Move cfg c .findsNone { c with
        teardown := some (keep, .ended (.returned ())), released := true
        marks := c.marks ++ [.foundNone] }
  | pauses (c : Core ρ κ) (room : ρ) : c.teardown = some (true, .created false) →
      c.room = some room → keepEnabled cfg.keepWindow = true → Room.canPause room = true →
      Move cfg c .goesOn { c with
        room := none, teardown := some (true, .suspended (.pausing room) false)
        marks := c.marks ++ [.taken room, .pause room] }
  | destroys (c : Core ρ κ) (keep : Bool) (room : ρ) :
      c.teardown = some (keep, .created false) → c.room = some room →
      Move cfg c .goesOn { c with
        room := none, teardown := some (keep, .suspended (.destroying room) false)
        marks := c.marks ++ [.taken room, .destroy .teardown room] }
  | keeps (c : Core ρ κ) (keep : Bool) (room : ρ) (b : Bool) :
      c.teardown = some (keep, .suspended (.pausing room) b) →
      Move cfg c .goesOn { c with
        teardown := some (keep, .ended (.returned ())), released := true
        marks := c.marks ++ [.kept room] }
  | keepFails (c : Core ρ κ) (keep : Bool) (room : ρ) (b : Bool) :
      c.teardown = some (keep, .suspended (.pausing room) b) →
      Move cfg c .goesOn { c with
        teardown := some (keep, .suspended (.destroying room) false)
        marks := c.marks ++ [.keepRaised room, .destroy .teardown room] }
  | destroyed (c : Core ρ κ) (keep : Bool) (room : ρ) (b : Bool) :
      c.teardown = some (keep, .suspended (.destroying room) b) →
      Move cfg c .goesOn { c with
        teardown := some (keep, .ended (.returned ())), released := true
        marks := c.marks ++ [.destroyEnded room] }
  | cut (c : Core ρ κ) (keep : Bool) (p : TeardownPoint ρ) :
      c.teardown = some (keep, .suspended p true) →
      Move cfg c (.teardownCut p) { c with
        teardown := some (keep, .ended .cancelled), released := true }

/-! ## Every step of a session is a sequence of moves -/

def core (s : RoomSession ρ κ) : Core ρ κ where
  room := s.room
  pump := s.pump
  teardown := s.teardown.map fun td ↦ (td.allowKeep, td.task)
  released := s.released
  marks := s.marks

/-- The pump waits for the teardown. -/
def pumpWaits (s : RoomSession ρ κ) : Bool :=
  s.pump.any (·.waitsIn PumpPoint.joins)

def watchdogWaits (s : RoomSession ρ κ) : Bool :=
  s.watchdog.any (·.waitsIn WatchdogPoint.joins)

def closerWaits (s : RoomSession ρ κ) : Bool :=
  s.closer.any (·.waitsIn fun _ ↦ true)

/-- The labels the moves of a step can have. -/
def acts (s : RoomSession ρ κ) : Event ρ κ → Act ρ κ → Prop
  | .sessionStarted, a => a = .starts
  -- the cancellation of a task that waits for the teardown goes through to it
  | .connectionLost, a =>
    a = .begins .connectionLost ∨
    (∃ pump, s.pump = some pump ∧ a = .cancelsPump pump.point?) ∨
    ∃ td, s.teardown = some td ∧ td.task.isEnded = false ∧ a = .cancelsTeardown td.task.point? ∧
      (pumpWaits s = true ∨ watchdogWaits s = true)
  | .forceCloseTimeout, a =>
    ∃ td, s.teardown = some td ∧ td.task.isEnded = false ∧ a = .cancelsTeardown td.task.point? ∧
      closerWaits s = true
  | .readEnds _ _, a => a = .begins .pump ∨ a = .goesOn
  | .watchdogRuns _ _, a => a = .begins .watchdog ∨ a = .goesOn
  | .closerStarts _, a => a = .begins .forceClose ∨ a = .goesOn
  | .pumpStarts kept, a => a = .claims kept ∨ a = .goesOn
  | .openEnds reply _, a =>
    a = .goesOn ∨ reply = .cancelled ∧ ∃ kept c,
      s.pump = some (.suspended (.opening kept) c) ∧ a = .pumpCut (.opening kept)
  | .lateDestroyEnds reply, a =>
    a = .goesOn ∨ reply = .cancelled ∧ ∃ room, a = .pumpCut (.checkingOut room)
  | .teardownStarts, a =>
    a = .goesOn ∨ a = .findsNone ∨
      ∃ td, s.teardown = some td ∧ td.task = .created true ∧ a = .neverRuns s.room
  | .keepEnds reply, a => a = .goesOn ∨ reply = .cancelled ∧ ∃ p, a = .teardownCut p
  | .destroyEnds reply, a => a = .goesOn ∨ reply = .cancelled ∧ ∃ p, a = .teardownCut p
  | _, a => a = .goesOn

@[simp] theorem core_enqueue (s : RoomSession ρ κ) (who : Trigger) :
    core (s.enqueue who) = core s := by
  cases h : s.teardown <;> simp [RoomSession.enqueue, core, h]

@[simp] theorem core_dequeue (s : RoomSession ρ κ) : core s.dequeue = core s := by
  cases h : s.teardown <;> simp [RoomSession.dequeue, core, h]

theorem beginTeardown_pump (s : RoomSession ρ κ) (trigger : Trigger) (allowKeep : Bool) :
    (s.beginTeardown trigger allowKeep).pump = s.pump := by
  rw [beginTeardown_eq]

theorem teardown_eta {s : RoomSession ρ κ} {td : Teardown ρ} (h : s.teardown = some td) :
    s.setTeardown td td.task = s := by
  cases s
  simp only at h
  simp [RoomSession.setTeardown, h]

/-- The tasks that `joins` picks out wait for a teardown that is not over. -/
def Forwards {π : Type} (s : RoomSession ρ κ) (joins : π → Bool) (task : LoopTask π) : Prop :=
  task.waitsIn joins = true ∧ ∃ td, s.teardown = some td ∧ td.task.isEnded = false

section Cancel

variable {π : Type} {s : RoomSession ρ κ} {joins : π → Bool} {own : Option π → List (Mark ρ κ)}
  {task : LoopTask π}

theorem cancelTask_of_alone (h : ¬ Forwards s joins task) :
    s.cancelTask joins own task = (task.cancel, s.noteAll (own task.point?)) := by
  unfold RoomSession.cancelTask
  split
  · rfl
  · rename_i td htd
    by_cases hend : td.task.isEnded = true
    · rw [LoopTask.cancelThrough_of_isEnded _ _ hend]
      simp [hend, teardown_eta htd]
    -- a live teardown, so the task waits for something else
    · have hw : task.waitsIn joins = false := by
        by_contra hw
        exact h ⟨by simpa using hw, td, htd, by simpa using hend⟩
      rw [LoopTask.cancelThrough_of_not_waitsIn hw]
      simp [hw, teardown_eta htd]

theorem cancelTask_of_waits {td : Teardown ρ} (htd : s.teardown = some td)
    (hend : td.task.isEnded = false) (hw : task.waitsIn joins = true) :
    s.cancelTask joins own task =
      (task, (s.setTeardown td td.task.cancel).note (.teardownCancelled td.task.point?)) := by
  unfold RoomSession.cancelTask
  rw [htd]
  simp only [LoopTask.cancelThrough_of_waitsIn hw hend, hw, hend, Bool.not_false, Bool.and_self,
    if_true]

/-- A cancellation leaves the teardown where it was. -/
theorem cancelTask_teardown {td' : Teardown ρ}
    (h : (s.cancelTask joins own task).2.teardown = some td') :
    ∃ td, s.teardown = some td ∧ td'.task.point? = td.task.point? ∧
      td'.task.isEnded = td.task.isEnded := by
  by_cases hf : Forwards s joins task
  · obtain ⟨hw, td, htd, hend⟩ := hf
    rw [cancelTask_of_waits htd hend hw] at h
    simp only [RoomSession.note, RoomSession.setTeardown, Option.some.injEq] at h
    subst h
    exact ⟨td, htd, LoopTask.point?_cancel _, LoopTask.isEnded_cancel _⟩
  · rw [cancelTask_of_alone hf] at h
    exact ⟨td', h, rfl, rfl⟩

end Cancel

theorem cancelCloser_released (s : RoomSession ρ κ) : s.cancelCloser.released = s.released := by
  rw [cancelCloser_eq]

theorem cancelPump_teardown {s : RoomSession ρ κ} {td' : Teardown ρ}
    (h : s.cancelPump.teardown = some td') :
    ∃ td, s.teardown = some td ∧ td'.task.point? = td.task.point? ∧
      td'.task.isEnded = td.task.isEnded := by
  unfold RoomSession.cancelPump at h
  split at h
  · exact ⟨td', h, rfl, rfl⟩
  · exact cancelTask_teardown h

theorem cancelPump_watchdog (s : RoomSession ρ κ) : s.cancelPump.watchdog = s.watchdog := by
  rw [cancelPump_eq]

section Moves

variable [Room ρ] {cfg : SessionConfig} {s t : RoomSession ρ κ} {ok : Act ρ κ → Prop}

theorem begins_move (s : RoomSession ρ κ) (trigger : Trigger) {allowKeep : Bool}
    (h : allowKeep = (trigger == .connectionLost)) :
    Move cfg (core s) (.begins trigger) (core (s.beginTeardown trigger allowKeep)) := by
  have hmove : Move cfg (core s) (.begins trigger) _ := .begins (core s) trigger
  subst h
  cases htd : s.teardown <;>
    simpa [core, RoomSession.beginTeardown, RoomSession.note, htd] using hmove

/-- Waiting for the teardown that was begun is no further move. -/
theorem begins_enqueue_move (s : RoomSession ρ κ) (who : Trigger)
    (h : false = (who == .connectionLost)) :
    Move cfg (core s) (.begins who) (core ((s.beginTeardown who false).enqueue who)) := by
  rw [core_enqueue]
  exact begins_move s who h

theorem cancelsTeardown_move {td : Teardown ρ} (htd : s.teardown = some td)
    (hend : td.task.isEnded = false) :
    Move cfg (core s) (.cancelsTeardown td.task.point?)
      (core ((s.setTeardown td td.task.cancel).note (.teardownCancelled td.task.point?))) :=
  .cancelsTeardown (core s) td.allowKeep td.task (by simp [core, htd]) hend

theorem cancelPump_moves
    (hpump : ∀ pump, s.pump = some pump → ok (.cancelsPump pump.point?))
    (htask : ∀ td, s.teardown = some td → td.task.isEnded = false → pumpWaits s = true →
      ok (.cancelsTeardown td.task.point?)) :
    Moves (Move cfg) ok (core s) (core s.cancelPump) := by
  unfold RoomSession.cancelPump
  split
  · exact .refl _
  · rename_i pump hp
    -- either the pump is cancelled or the teardown it waits for, never both
    by_cases hf : Forwards s PumpPoint.joins pump
    · obtain ⟨hw, td, htd, hend⟩ := hf
      rw [cancelTask_of_waits htd hend hw]
      have hok := htask td htd hend (by simp [pumpWaits, hp, hw])
      have hmove : Move cfg (core s) _ _ := cancelsTeardown_move htd hend
      refine .single hok ?_
      simpa [core, RoomSession.note, RoomSession.setTeardown, hp] using hmove
    · rw [cancelTask_of_alone hf]
      exact .single (hpump pump hp) (.cancelsPump (core s) pump hp)

theorem cancelWatchdog_moves
    (htask : ∀ td, s.teardown = some td → td.task.isEnded = false → watchdogWaits s = true →
      ok (.cancelsTeardown td.task.point?)) :
    Moves (Move cfg) ok (core s) (core s.cancelWatchdog) := by
  unfold RoomSession.cancelWatchdog
  split
  · exact .refl _
  · rename_i watchdog hw
    by_cases hf : Forwards s WatchdogPoint.joins watchdog
    · obtain ⟨hwait, td, htd, hend⟩ := hf
      rw [cancelTask_of_waits htd hend hwait]
      exact .single (htask td htd hend (by simp [watchdogWaits, hw, hwait]))
        (cancelsTeardown_move htd hend)
    · rw [cancelTask_of_alone hf]
      simp only [RoomSession.noteAll, List.append_nil]
      exact .refl _

theorem cancelCloser_moves
    (htask : ∀ td, s.teardown = some td → td.task.isEnded = false → closerWaits s = true →
      ok (.cancelsTeardown td.task.point?)) :
    Moves (Move cfg) ok (core s) (core s.cancelCloser) := by
  unfold RoomSession.cancelCloser
  split
  · exact .refl _
  · rename_i closer hc
    by_cases hf : Forwards s (fun _ ↦ true) closer
    · obtain ⟨hwait, td, htd, hend⟩ := hf
      rw [cancelTask_of_waits htd hend hwait]
      exact .single (htask td htd hend (by simp [closerWaits, hc, hwait]))
        (cancelsTeardown_move htd hend)
    · rw [cancelTask_of_alone hf]
      simp only [RoomSession.noteAll, List.append_nil]
      exact .refl _

theorem connectionLost_moves (s : RoomSession ρ κ) :
    Moves (Move cfg) (acts s .connectionLost) (core s) (core s.connectionLost) := by
  let s' := { s with chan := { s.chan with closing := true, lost := true } }
  have hpump : Moves (Move cfg) (acts s .connectionLost) (core s') (core s'.cancelPump) :=
    cancelPump_moves (fun pump hp ↦ .inr (.inl ⟨pump, hp, rfl⟩))
      fun td htd hend hw ↦ .inr (.inr ⟨td, htd, hend, rfl, .inl hw⟩)
  have hwatchdog : Moves (Move cfg) (acts s .connectionLost) (core s'.cancelPump)
      (core s'.cancelPump.cancelWatchdog) := by
    refine cancelWatchdog_moves fun td' htd' hend' hw ↦ ?_
    obtain ⟨td, htd, hpoint, hend⟩ := cancelPump_teardown htd'
    have hwaits : watchdogWaits s = true := by
      simpa only [watchdogWaits, cancelPump_watchdog] using hw
    exact .inr (.inr ⟨td, htd, hend ▸ hend', by rw [hpoint], .inr hwaits⟩)
  have hbegin : Moves (Move cfg) (acts s .connectionLost) (core s'.cancelPump.cancelWatchdog)
      (core s.connectionLost) :=
    .single (.inl rfl) (begins_move _ .connectionLost rfl)
  exact (hpump.trans hwatchdog).trans hbegin

/-! The pump -/

theorem endPump_move {pump : LoopTask (PumpPoint ρ κ)} (hp : s.pump = some pump) (how : Outcome)
    (hend : mayEnd pump how = true) : Move cfg (core s) .goesOn (core (s.endPump how)) :=
  .pumpEnds (core s) pump how hp hend

theorem noRoomAvailable_move {pump : LoopTask (PumpPoint ρ κ)} (hp : s.pump = some pump)
    (hraised : mayEnd pump .raised = true) (hreturned : mayEnd pump (.returned ()) = true)
    (broken : Bool) : Move cfg (core s) .goesOn (core (s.noRoomAvailable broken)) := by
  unfold RoomSession.noRoomAvailable
  split
  · exact endPump_move hp _ hraised
  · exact .pumpEnds (core s) pump _ hp hreturned

theorem afterOpen_moves {kept : Option κ} {c : Bool}
    (hp : s.pump = some (.suspended (.opening kept) c)) (reply : Reply ρ)
    (hreply : reply.allowed c = true) (broken : Bool) :
    Moves (Move cfg) (acts s (.openEnds reply broken)) (core s)
      (core (s.afterOpen kept reply broken)) := by
  cases reply with
  | cancelled =>
    have hc : c = true := hreply
    exact .single (.inr ⟨rfl, kept, c, hp, rfl⟩) (.openCut (core s) kept (hc ▸ hp))
  | raised =>
    cases kept with
    | some k => exact .single (.inl rfl) (.resumeFails (core s) k c hp)
    | none => exact .single (.inl rfl) (noRoomAvailable_move hp rfl rfl broken)
  | returned room =>
    cases htd : s.teardown with
    | some td =>
      have hmove : Move cfg (core s) .goesOn _ :=
        .opensLate (core s) kept c room hp (by simp [core, htd])
      refine .single (.inl rfl) ?_
      simpa [RoomSession.afterOpen, RoomSession.note, core, htd] using hmove
    | none =>
      have hmove : Move cfg (core s) .goesOn _ :=
        .opens (core s) kept c room hp (by simp [core, htd])
      cases broken with
      | false =>
        refine .single (.inl rfl) ?_
        simpa [RoomSession.afterOpen, RoomSession.note, core, htd] using hmove
      | true =>
        -- the room is in `self._room`, but the banner could not be written
        refine .head (.inl rfl) hmove (.single (.inl rfl) ?_)
        have hend : Move cfg _ .goesOn _ :=
          .pumpEnds { core s with
            room := some room, pump := some (.suspended (.reading room) false)
            marks := s.marks ++ [Mark.opened kept room] } _ .raised rfl rfl
        simpa [RoomSession.afterOpen, RoomSession.note, RoomSession.endPump, core, htd] using hend

theorem afterDestroyKept_move {k : κ} {c : Bool}
    (hp : s.pump = some (.suspended (.destroyingKept k) c)) (reply : Outcome) (broken : Bool) :
    Move cfg (core s) .goesOn (core (s.afterDestroyKept reply broken)) := by
  cases reply with
  | cancelled => exact endPump_move hp _ rfl
  | raised => exact noRoomAvailable_move hp rfl rfl broken
  | returned u => exact noRoomAvailable_move hp rfl rfl broken

theorem afterLateDestroy_moves {room : ρ} {c : Bool}
    (hp : s.pump = some (.suspended (.checkingOut room) c)) (reply : Reply Int)
    (hreply : reply.allowed c = true) :
    Moves (Move cfg) (acts s (.lateDestroyEnds reply)) (core s)
      (core (s.afterLateDestroy room reply)) := by
  cases reply with
  | cancelled =>
    have hc : c = true := hreply
    exact .single (.inr ⟨rfl, room, rfl⟩) (.lateCut (core s) room (hc ▸ hp))
  | raised => exact .single (.inl rfl) (.lateDestroyed (core s) room c hp)
  | returned status => exact .single (.inl rfl) (.lateDestroyed (core s) room c hp)

theorem goodbye_move {pump : LoopTask (PumpPoint ρ κ)} (hp : s.pump = some pump)
    (hend : ∀ how, mayEnd pump how = true) (ours unwinding cancelled broken : Bool)
    (how : Outcome) :
    Move cfg (core s) .goesOn (core (s.goodbye ours unwinding cancelled broken how)) := by
  unfold RoomSession.goodbye
  split
  · exact endPump_move hp _ (hend _)
  · split
    · split
      · split
        · exact .pumpEnds (core s) pump _ hp (hend _)
        · exact endPump_move hp _ (hend _)
      · exact endPump_move hp _ (hend _)
    · exact endPump_move hp _ (hend _)

theorem finishReading_moves {room : ρ} {c : Bool}
    (hp : s.pump = some (.suspended (.reading room) c)) (unwinding broken : Bool) :
    Moves (Move cfg) (fun a ↦ a = .begins .pump ∨ a = .goesOn) (core s)
      (core (s.finishReading unwinding broken)) := by
  have hp' := (beginTeardown_pump s .pump false).trans hp
  have hbegin : Move cfg (core s) (.begins .pump) (core (s.beginTeardown .pump false)) :=
    begins_move s .pump rfl
  refine .head (.inl rfl) hbegin (.single (.inr rfl) ?_)
  unfold RoomSession.finishReading
  simp only []
  -- a teardown that is over already is not waited for
  split
  · exact goodbye_move hp' (fun how ↦ by cases how <;> rfl) _ _ _ _ _
  · change Move cfg _ _ { core ((s.beginTeardown .pump false).enqueue .pump) with
      pump := some (.suspended (.joining s.teardown.isNone unwinding) false) }
    rw [core_enqueue]
    exact .reads _ room c _ hp' (.inr rfl)

theorem afterRead_moves {room : ρ} {c : Bool}
    (hp : s.pump = some (.suspended (.reading room) c)) (reply : Reply Bool) (broken : Bool) :
    Moves (Move cfg) (fun a ↦ a = .begins .pump ∨ a = .goesOn) (core s)
      (core (s.afterRead room reply broken)) := by
  rcases reply with (_ | _) | _ | _
  · exact finishReading_moves hp _ _
  · unfold RoomSession.afterRead
    simp only []
    split
    · exact finishReading_moves hp _ _
    · exact .single (.inr rfl) (.reads (core s) room c _ hp (.inl rfl))
  · exact finishReading_moves hp _ _
  · exact finishReading_moves hp _ _

/-! The watchdog and `force_close`: all they do to the room is to reach `_begin_teardown`. -/

theorem idleWatchdog_moves (s : RoomSession ρ κ) (idle broken : Bool) :
    Moves (Move cfg) (fun a ↦ a = .begins .watchdog ∨ a = .goesOn) (core s)
      (core (s.idleWatchdog idle broken)) := by
  unfold RoomSession.idleWatchdog
  split
  -- not idle yet: it only sleeps again
  · exact .refl _
  · split
    · exact .refl _
    · simp only []
      split
      · exact .single (.inl rfl) (begins_move s .watchdog rfl)
      · exact .single (.inl rfl) (begins_enqueue_move s .watchdog rfl)

theorem forceClose_moves (s : RoomSession ρ κ) (broken : Bool) :
    Moves (Move cfg) (fun a ↦ a = .begins .forceClose ∨ a = .goesOn) (core s)
      (core (s.forceClose broken)) := by
  unfold RoomSession.forceClose
  split
  · exact .refl _
  · simp only []
    split
    · exact .single (.inl rfl) (begins_move s .forceClose rfl)
    · exact .single (.inl rfl) (begins_enqueue_move s .forceClose rfl)

/-! The teardown -/

theorem runTeardown_move {td : Teardown ρ} (htd : s.teardown = some td)
    (htask : td.task = .created false) :
    ∃ a, acts s .teardownStarts a ∧ Move cfg (core s) a (core (s.runTeardown cfg td)) := by
  obtain ⟨keep, task, waiters⟩ := td
  simp only at htask
  subst htask
  unfold RoomSession.runTeardown
  split
  · rename_i hroom
    exact ⟨_, .inr (.inl rfl), .findsNone (core s) keep (by simp [core, htd]) hroom⟩
  · rename_i room hroom
    split
    · rename_i hif
      simp only [Bool.and_eq_true] at hif
      obtain ⟨⟨hkeep, henabled⟩, hcan⟩ := hif
      subst hkeep
      have hmove : Move cfg (core s) .goesOn _ :=
        .pauses (core s) room (by simp [core, htd]) hroom henabled hcan
      refine ⟨_, .inl rfl, ?_⟩
      simpa [core, RoomSession.note, RoomSession.setTeardown] using hmove
    · have hmove : Move cfg (core s) .goesOn _ :=
        .destroys (core s) keep room (by simp [core, htd]) hroom
      refine ⟨_, .inl rfl, ?_⟩
      simpa [core, RoomSession.note, RoomSession.setTeardown, RoomSession.checkout] using hmove

theorem afterKeep_move {td : Teardown ρ} {room : ρ} {c : Bool} (htd : s.teardown = some td)
    (htask : td.task = .suspended (.pausing room) c) (reply : Outcome)
    (hreply : reply.allowed c = true) :
    ∃ a, acts s (.keepEnds reply) a ∧ Move cfg (core s) a (core (s.afterKeep td room reply)) := by
  have hcore : (core s).teardown = some (td.allowKeep, .suspended (.pausing room) c) := by
    simp [core, htd, htask]
  cases reply with
  | returned u => exact ⟨_, .inl rfl, .keeps (core s) td.allowKeep room c hcore⟩
  | raised =>
    have hmove : Move cfg (core s) .goesOn _ := .keepFails (core s) td.allowKeep room c hcore
    refine ⟨_, .inl rfl, ?_⟩
    simpa [core, RoomSession.afterKeep, RoomSession.note, RoomSession.checkout,
      RoomSession.setTeardown] using hmove
  | cancelled =>
    have hc : c = true := hreply
    subst hc
    exact ⟨_, .inr ⟨rfl, _, rfl⟩, .cut (core s) td.allowKeep _ hcore⟩

theorem afterDestroy_move {td : Teardown ρ} {room : ρ} {c : Bool} (htd : s.teardown = some td)
    (htask : td.task = .suspended (.destroying room) c) (reply : Reply Int)
    (hreply : reply.allowed c = true) :
    ∃ a, acts s (.destroyEnds reply) a ∧ Move cfg (core s) a (core (s.afterDestroy td room reply)) := by
  have hcore : (core s).teardown = some (td.allowKeep, .suspended (.destroying room) c) := by
    simp [core, htd, htask]
  cases reply with
  | returned status => exact ⟨_, .inl rfl, .destroyed (core s) td.allowKeep room c hcore⟩
  | raised => exact ⟨_, .inl rfl, .destroyed (core s) td.allowKeep room c hcore⟩
  | cancelled =>
    have hc : c = true := hreply
    subst hc
    exact ⟨_, .inr ⟨rfl, _, rfl⟩, .cut (core s) td.allowKeep _ hcore⟩

/-! The step function -/

theorem pumpStarts_move {kept : Option κ} (h : step cfg s (.pumpStarts kept) = some t) :
    ∃ a, acts s (.pumpStarts kept) a ∧ Move cfg (core s) a (core t) := by
  cases step_turn h with
  | pumpCutOff hp => exact ⟨_, .inr rfl, endPump_move hp _ rfl⟩
  | pumpStarts hp => exact ⟨_, .inl rfl, .pumpStarts (core s) kept hp⟩

theorem teardownStarts_move (h : step cfg s .teardownStarts = some t) :
    ∃ a, acts s .teardownStarts a ∧ Move cfg (core s) a (core t) := by
  cases step_turn h with
  | @teardownCutOff td htd htask =>
    exact ⟨_, .inr (.inr ⟨td, htd, htask, rfl⟩), .neverRuns (core s) td.allowKeep (by simp [core, htd, htask])⟩
  | teardownStarts htd htask => exact runTeardown_move htd htask

/-- A step of a session is a sequence of moves, and `acts` names those that are not a task's own
progress. -/
theorem step_moves {e : Event ρ κ} (h : step cfg s e = some t) :
    Moves (Move cfg) (fun a ↦ acts s e a) (core s) (core t) := by
  cases step_turn h with
  | sessionStarted hp => exact .single rfl (.starts (core s) hp)
  | channelCloses => exact .refl _
  | connectionLost => exact connectionLost_moves s
  | pumpCutOff | pumpStarts =>
    obtain ⟨a, ha, hmove⟩ := pumpStarts_move h
    exact .single ha hmove
  | openEnds hp hreply => exact afterOpen_moves hp _ hreply _
  | destroyKeptEnds hp => exact .single rfl (afterDestroyKept_move hp _ _)
  | lateDestroyEnds hp hreply => exact afterLateDestroy_moves hp _ hreply
  | readEnds hp => exact afterRead_moves hp _ _
  | @pumpResumes ours unwinding c broken how hp hwakes =>
    -- waking up takes the pump off the queue, which is no part of the core
    have hp' : s.dequeue.pump = some (.suspended (.joining ours unwinding) c) := by
      rw [dequeue_eq]
      exact hp
    rw [← core_dequeue s]
    exact .single rfl (goodbye_move hp' (fun how ↦ by cases how <;> rfl) _ _ _ _ _)
  | watchdogCutOff | watchdogOff => exact .refl _
  | watchdogRuns => exact idleWatchdog_moves s _ _
  | watchdogResumes | closerResumes =>
    rw [← core_dequeue s]
    exact .refl _
  | forceClose | closerCutOff => exact .refl _
  | closerStarts => exact forceClose_moves s _
  | forceCloseTimeout => exact cancelCloser_moves fun td htd hend hw ↦ ⟨td, htd, hend, rfl, hw⟩
  | teardownCutOff | teardownStarts =>
    obtain ⟨a, ha, hmove⟩ := teardownStarts_move h
    exact .single ha hmove
  | keepEnds htd htask hreply =>
    obtain ⟨a, ha, hmove⟩ := afterKeep_move htd htask _ hreply
    exact .single ha hmove
  | destroyEnds htd htask hreply =>
    obtain ⟨a, ha, hmove⟩ := afterDestroy_move htd htask _ hreply
    exact .single ha hmove

end Moves

end Keycard.Session
