import Keycard.Session.RoomSession

/-!
# What the functions of a session touch

One equation for each function of a session names the fields it may write to.  That a function leaves another
field alone is then one rewrite.
-/

open Reasoning

namespace Keycard.Session

variable {ρ κ : Type} (s : RoomSession ρ κ)

/-! ## The teardown, and those who wait for it -/

theorem enqueue_eq (who : Trigger) : s.enqueue who = { s with teardown := (s.enqueue who).teardown } := by
  unfold RoomSession.enqueue
  split <;> rfl

theorem dequeue_eq : s.dequeue = { s with teardown := s.dequeue.teardown } := by
  unfold RoomSession.dequeue
  split <;> rfl

theorem beginTeardown_eq (trigger : Trigger) (allowKeep : Bool) :
    s.beginTeardown trigger allowKeep = { s with
      teardown := (s.beginTeardown trigger allowKeep).teardown
      marks := s.marks ++ [Mark.reached trigger s.room] } := by
  unfold RoomSession.beginTeardown
  simp only []
  split <;> rfl

theorem cancelTask_eq {π : Type} (joins : π → Bool) (own : Option π → List (Mark ρ κ)) (task : LoopTask π) :
    (s.cancelTask joins own task).2 = { s with
      teardown := (s.cancelTask joins own task).2.teardown
      marks := (s.cancelTask joins own task).2.marks } := by
  unfold RoomSession.cancelTask
  split
  · rfl
  · simp only []
    split <;> rfl

theorem cancelPump_eq : s.cancelPump = { s with
    pump := s.cancelPump.pump
    teardown := s.cancelPump.teardown
    marks := s.cancelPump.marks } := by
  unfold RoomSession.cancelPump
  split
  · rfl
  · simp only []
    rw [cancelTask_eq]

theorem cancelWatchdog_eq : s.cancelWatchdog = { s with
    watchdog := s.cancelWatchdog.watchdog
    teardown := s.cancelWatchdog.teardown
    marks := s.cancelWatchdog.marks } := by
  unfold RoomSession.cancelWatchdog
  split
  · rfl
  · simp only []
    rw [cancelTask_eq]

theorem cancelCloser_eq : s.cancelCloser = { s with
    closer := s.cancelCloser.closer
    teardown := s.cancelCloser.teardown
    marks := s.cancelCloser.marks } := by
  unfold RoomSession.cancelCloser
  split
  · rfl
  · simp only []
    rw [cancelTask_eq]

theorem connectionLost_eq : s.connectionLost = { s with
    chan := { s.chan with closing := true, lost := true }
    pump := s.connectionLost.pump
    watchdog := s.connectionLost.watchdog
    teardown := s.connectionLost.teardown
    marks := s.connectionLost.marks } := by
  unfold RoomSession.connectionLost
  rw [beginTeardown_eq, cancelWatchdog_eq, cancelPump_eq]

theorem runTeardown_eq [Room ρ] (cfg : SessionConfig) (td : Teardown ρ) : s.runTeardown cfg td = { s with
    room := none
    teardown := (s.runTeardown cfg td).teardown
    released := (s.runTeardown cfg td).released
    marks := (s.runTeardown cfg td).marks } := by
  unfold RoomSession.runTeardown
  split
  · rename_i hroom
    rw [← hroom]
    rfl
  · simp only []
    split <;> rfl

theorem afterKeep_eq (td : Teardown ρ) (room : ρ) (reply : Outcome) : s.afterKeep td room reply = { s with
    teardown := (s.afterKeep td room reply).teardown
    released := (s.afterKeep td room reply).released
    marks := (s.afterKeep td room reply).marks } := by
  cases reply <;> rfl

theorem afterDestroy_eq (td : Teardown ρ) (room : ρ) (reply : Reply Int) :
    s.afterDestroy td room reply = { s with
      teardown := (s.afterDestroy td room reply).teardown
      status := (s.afterDestroy td room reply).status
      released := (s.afterDestroy td room reply).released
      marks := (s.afterDestroy td room reply).marks } := by
  cases reply <;> rfl

/-! ## The pump -/

theorem noRoomAvailable_eq (broken : Bool) : s.noRoomAvailable broken = { s with
    chan := (s.noRoomAvailable broken).chan
    pump := (s.noRoomAvailable broken).pump } := by
  cases broken <;> rfl

theorem afterOpen_eq (kept : Option κ) (reply : Reply ρ) (broken : Bool) :
    s.afterOpen kept reply broken = { s with
      chan := (s.afterOpen kept reply broken).chan
      room := (s.afterOpen kept reply broken).room
      pump := (s.afterOpen kept reply broken).pump
      marks := (s.afterOpen kept reply broken).marks } := by
  cases reply with
  | cancelled => rfl
  | raised =>
    cases kept with
    | none => cases broken <;> rfl
    | some k => rfl
  | returned room =>
    unfold RoomSession.afterOpen
    simp only []
    split
    · rfl
    · split <;> rfl

theorem afterDestroyKept_eq (reply : Outcome) (broken : Bool) : s.afterDestroyKept reply broken = { s with
    chan := (s.afterDestroyKept reply broken).chan
    pump := (s.afterDestroyKept reply broken).pump } := by
  cases reply with
  | cancelled => rfl
  | returned | raised => exact noRoomAvailable_eq s broken

theorem afterLateDestroy_eq (room : ρ) (reply : Reply Int) : s.afterLateDestroy room reply = { s with
    pump := (s.afterLateDestroy room reply).pump
    marks := (s.afterLateDestroy room reply).marks } := by
  cases reply <;> rfl

theorem goodbye_eq (ours unwinding cancelled broken : Bool) (how : Outcome) :
    s.goodbye ours unwinding cancelled broken how = { s with
      chan := (s.goodbye ours unwinding cancelled broken how).chan
      pump := (s.goodbye ours unwinding cancelled broken how).pump } := by
  unfold RoomSession.goodbye
  split
  · rfl
  · split
    · split
      · split <;> rfl
      · rfl
    · rfl

theorem finishReading_eq (unwinding broken : Bool) : s.finishReading unwinding broken = { s with
    chan := (s.finishReading unwinding broken).chan
    pump := (s.finishReading unwinding broken).pump
    teardown := (s.finishReading unwinding broken).teardown
    marks := (s.finishReading unwinding broken).marks } := by
  unfold RoomSession.finishReading
  simp only []
  split
  · rw [goodbye_eq, beginTeardown_eq]
  · rw [enqueue_eq, beginTeardown_eq]

theorem afterRead_eq (room : ρ) (reply : Reply Bool) (broken : Bool) :
    s.afterRead room reply broken = { s with
      chan := (s.afterRead room reply broken).chan
      pump := (s.afterRead room reply broken).pump
      teardown := (s.afterRead room reply broken).teardown
      marks := (s.afterRead room reply broken).marks } := by
  unfold RoomSession.afterRead
  split
  · split
    · exact finishReading_eq s _ _
    · rfl
  · exact finishReading_eq s _ _
  · exact finishReading_eq s _ _
  · exact finishReading_eq s _ _

/-! ## The idle watchdog and `force_close` -/

theorem idleWatchdog_eq (idle broken : Bool) : s.idleWatchdog idle broken = { s with
    chan := (s.idleWatchdog idle broken).chan
    watchdog := (s.idleWatchdog idle broken).watchdog
    teardown := (s.idleWatchdog idle broken).teardown
    marks := (s.idleWatchdog idle broken).marks } := by
  unfold RoomSession.idleWatchdog
  split
  · rfl
  · split
    · rfl
    · simp only []
      split
      · rw [beginTeardown_eq]
        rfl
      · rw [enqueue_eq, beginTeardown_eq]

theorem forceClose_eq (broken : Bool) : s.forceClose broken = { s with
    chan := (s.forceClose broken).chan
    teardown := (s.forceClose broken).teardown
    closer := (s.forceClose broken).closer
    marks := (s.forceClose broken).marks } := by
  unfold RoomSession.forceClose
  split
  · rfl
  · simp only []
    split
    · rw [beginTeardown_eq]
      rfl
    · rw [enqueue_eq, beginTeardown_eq]

end Keycard.Session
