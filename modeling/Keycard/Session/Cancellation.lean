import Keycard.Session.Lifecycle

/-!
# Who can cancel a teardown

`_begin_teardown` hands every caller the one teardown task, and every caller awaits that task as it
is.  A cancellation of the caller therefore goes on to the teardown, unless the teardown is over:
the task keeps a destroy apart from the pump only as long as the pump does not wait for it.
-/

open Reasoning

namespace Keycard.Session

variable {ρ κ : Type}

/-- The teardown has taken the room and is not done with it. -/
def holdsRoom (s : RoomSession ρ κ) : Bool :=
  s.teardown.any fun td ↦ td.task.point?.isSome

/-- Nobody who is about to be cancelled waits for a teardown that holds a room. -/
def Spares (s : RoomSession ρ κ) : Event ρ κ → Prop
  | .connectionLost => holdsRoom s = true → pumpWaits s = false ∧ watchdogWaits s = false
  | .forceCloseTimeout => holdsRoom s = true → closerWaits s = false
  | _ => True

instance (s : RoomSession ρ κ) (e : Event ρ κ) : Decidable (Spares s e) := by
  unfold Spares
  split <;> infer_instance

structure Uninterrupted (s : RoomSession ρ κ) : Prop where
  /-- no `CancelledError` reached the teardown once it had taken the room -/
  spared (point : TeardownPoint ρ) : .teardownCancelled (some point) ∉ s.marks
  /-- and it has kept the room, or has seen its `destroy()` come back, before it releases -/
  finished : s.released = true → ∀ room, .taken room ∈ s.marks →
    .kept room ∈ s.marks ∨ .destroyEnded room ∈ s.marks

theorem holdsRoom_of_point? {s : RoomSession ρ κ} {td : Teardown ρ} {p : TeardownPoint ρ}
    (htd : s.teardown = some td) (hp : td.task.point? = some p) : holdsRoom s = true := by
  simp [holdsRoom, htd, hp]

theorem point?_of_holdsRoom {s : RoomSession ρ κ} (h : holdsRoom s = true) :
    ∃ td p, s.teardown = some td ∧ td.task.point? = some p ∧ td.task.isEnded = false := by
  cases htd : s.teardown with
  | none => simp [holdsRoom, htd] at h
  | some td =>
    obtain ⟨p, hp⟩ : ∃ p, td.task.point? = some p := by
      simpa [holdsRoom, htd, Option.isSome_iff_exists] using h
    refine ⟨td, p, rfl, hp, ?_⟩
    cases ht : td.task with
    | suspended q b => rfl
    | created b => rfl
    | ended how =>
      rw [ht] at hp
      cases hp

/-! ## A run without such a cancellation -/

/-- What spares the teardown cancels it, if at all, before its first line. -/
theorem Spares.acts {s : RoomSession ρ κ} {e : Event ρ κ} (h : Spares s e) {p : TeardownPoint ρ} :
    ¬ acts s e (.cancelsTeardown (some p)) := by
  intro ha
  cases e with
  | connectionLost =>
    rcases ha with ha | ⟨pump, -, ha⟩ | ⟨td, htd, -, ha, hw⟩
    · cases ha
    · cases ha
    · have hp : td.task.point? = some p := by simpa using ha.symm
      obtain ⟨hpump, hdog⟩ := h (holdsRoom_of_point? htd hp)
      simp [hpump, hdog] at hw
  | forceCloseTimeout =>
    obtain ⟨td, htd, -, ha, hw⟩ := ha
    have hp : td.task.point? = some p := by simpa using ha.symm
    rw [h (holdsRoom_of_point? htd hp)] at hw
    cases hw
  | pumpStarts _ | readEnds _ _ | watchdogRuns _ _ | closerStarts _ => rcases ha with ha | ha <;> cases ha
  | openEnds _ _ => rcases ha with ha | ⟨-, _, _, -, ha⟩ <;> cases ha
  | lateDestroyEnds _ | keepEnds _ | destroyEnds _ => rcases ha with ha | ⟨-, _, ha⟩ <;> cases ha
  | teardownStarts => rcases ha with ha | ha | ⟨_, -, -, ha⟩ <;> cases ha
  | _ => cases ha

theorem Core.BusyAt.not_released {c : Core ρ κ} {point : TeardownPoint ρ} (hb : c.BusyAt point)
    (hc : c.Lifecycle) (hspared : .teardownCancelled (some point) ∉ c.marks) :
    c.released = false := by
  by_contra hr
  obtain ⟨keep, how, ht⟩ := hc.released (by simpa using hr)
  obtain ⟨keep', task, ht', htask⟩ := hb
  rw [ht] at ht'
  cases ht'
  rcases htask with h | ⟨-, hm⟩
  · cases h
  · exact hspared hm

theorem Core.Lifecycle.finished {c : Core ρ κ} (hc : c.Lifecycle)
    (hspared : ∀ p, .teardownCancelled (some p) ∉ c.marks) (hr : c.released = true) {room : ρ}
    (ht : .taken room ∈ c.marks) : .kept room ∈ c.marks ∨ .destroyEnded room ∈ c.marks := by
  have hmem {m : Mark ρ κ} (hm : m ∈ c.roomMarks) : m ∈ c.marks := List.mem_of_mem_filter hm
  have ht : .taken room ∈ c.roomMarks := List.mem_filter.mpr ⟨ht, rfl⟩
  rcases hc.staged with hu | ⟨kept, r, phase, hfit, hlog⟩
  · rw [hu.log] at ht
    cases ht
  · rw [hlog] at hmem ht
    have hbusy {point : TeardownPoint ρ} (hb : c.BusyAt point) : False := by
      rw [hb.not_released hc (hspared point)] at hr
      cases hr
    cases phase with
    | held | late | lateDone => simp [Phase.trace] at ht
    | pausing => exact (hbusy hfit.task).elim
    | destroying afterPause => exact (hbusy hfit.task).elim
    | kept =>
      obtain rfl : room = r := by simpa [Phase.trace] using ht
      exact .inl (hmem (by simp [Phase.trace]))
    | destroyed afterPause =>
      obtain rfl : room = r := by cases afterPause <;> simpa [Phase.trace] using ht
      exact .inr (hmem (by cases afterPause <;> simp [Phase.trace]))

section

variable [Room ρ] {cfg : SessionConfig} {s : RoomSession ρ κ}

theorem not_mem_of_move {c d : Core ρ κ} {a : Act ρ κ} {m : Mark ρ κ} (h : Move cfg c a d)
    (hm : m ∉ c.marks) {p : TeardownPoint ρ} (hp : m = .teardownCancelled (some p))
    (ha : a ≠ .cancelsTeardown (some p)) : m ∉ d.marks := by
  subst hp
  cases h with
  | cancelsTeardown keep task ht hend =>
    have hne : some p ≠ task.point? := fun h ↦ ha (by rw [h])
    simp [hm, hne]
  | cancelsPump pump hp => cases hq : pump.point? <;> simp [hm, cancelMarks]
  | pumpStarts kept hp => cases kept <;> simp [hm, takeMarks]
  | _ => simpa using hm

theorem reached_spared (h : (machine ρ κ cfg).ReachedBy Spares s) (p : TeardownPoint ρ) :
    .teardownCancelled (some p) ∉ (core s).marks := by
  refine reached_invariant (I := fun c ↦ .teardownCancelled (some p) ∉ c.marks) h (by simp [core, RoomSession.initial]) ?_
  intro s e _ he c a d ha hm _ hc
  exact not_mem_of_move hm hc rfl fun h ↦ he.acts (h ▸ ha)

theorem reached_uninterrupted (h : (machine ρ κ cfg).ReachedBy Spares s) : Uninterrupted s where
  spared := reached_spared h
  finished hr _ ht := (reachable_lifecycle h.reachable).finished (reached_spared h) hr ht

end

/-! ## A step that does cancel one -/

section Cancel

variable {s : RoomSession ρ κ} {π : Type} {joins : π → Bool} {own : Option π → List (Mark ρ κ)}
  {task : LoopTask π}

theorem cancelTask_reaches (hw : task.waitsIn joins = true) (hh : holdsRoom s = true) :
    ∃ p, .teardownCancelled (some p) ∈ (s.cancelTask joins own task).2.marks := by
  obtain ⟨td, p, htd, hp, hend⟩ := point?_of_holdsRoom hh
  rw [cancelTask_of_waits htd hend hw, hp]
  exact ⟨p, by simp [RoomSession.note, RoomSession.setTeardown]⟩

theorem cancelTask_keeps_marks : s.marks ⊆ (s.cancelTask joins own task).2.marks := by
  unfold RoomSession.cancelTask
  split
  · simp [RoomSession.noteAll]
  · dsimp only
    split <;> simp [RoomSession.note, RoomSession.noteAll, RoomSession.setTeardown]

theorem cancelTask_holdsRoom : holdsRoom (s.cancelTask joins own task).2 = holdsRoom s := by
  by_cases hf : Forwards s joins task
  · obtain ⟨hw, td, htd, hend⟩ := hf
    rw [cancelTask_of_waits htd hend hw]
    simp [holdsRoom, RoomSession.note, RoomSession.setTeardown, htd]
  · rw [cancelTask_of_alone hf]
    rfl

theorem cancelPump_holdsRoom : holdsRoom s.cancelPump = holdsRoom s := by
  unfold RoomSession.cancelPump
  split
  · rfl
  · exact cancelTask_holdsRoom

theorem cancelPump_reaches (hw : pumpWaits s = true) (hh : holdsRoom s = true) :
    ∃ p, .teardownCancelled (some p) ∈ s.cancelPump.marks := by
  unfold RoomSession.cancelPump
  cases ht : s.pump with
  | none => simp [pumpWaits, ht] at hw
  | some task => exact cancelTask_reaches (by simpa [pumpWaits, ht] using hw) hh

theorem cancelWatchdog_reaches (hw : watchdogWaits s = true) (hh : holdsRoom s = true) :
    ∃ p, .teardownCancelled (some p) ∈ s.cancelWatchdog.marks := by
  unfold RoomSession.cancelWatchdog
  cases ht : s.watchdog with
  | none => simp [watchdogWaits, ht] at hw
  | some task => exact cancelTask_reaches (by simpa [watchdogWaits, ht] using hw) hh

theorem cancelCloser_reaches (hw : closerWaits s = true) (hh : holdsRoom s = true) :
    ∃ p, .teardownCancelled (some p) ∈ s.cancelCloser.marks := by
  unfold RoomSession.cancelCloser
  cases ht : s.closer with
  | none => simp [closerWaits, ht] at hw
  | some task => exact cancelTask_reaches (by simpa [closerWaits, ht] using hw) hh

theorem cancelWatchdog_keeps_marks : s.marks ⊆ s.cancelWatchdog.marks := by
  unfold RoomSession.cancelWatchdog
  split
  · exact List.Subset.refl _
  · exact cancelTask_keeps_marks

theorem beginTeardown_keeps_marks (trigger : Trigger) (allowKeep : Bool) :
    s.marks ⊆ (s.beginTeardown trigger allowKeep).marks := by
  cases htd : s.teardown <;> simp [RoomSession.beginTeardown, RoomSession.note, htd]

/-- The three cancellers reach a teardown that holds a room through whoever waits for it. -/
theorem connectionLost_reaches (hw : pumpWaits s = true ∨ watchdogWaits s = true)
    (hh : holdsRoom s = true) : ∃ p, .teardownCancelled (some p) ∈ s.connectionLost.marks := by
  let s' := { s with chan := { s.chan with closing := true, lost := true } }
  have hlost {m : Mark ρ κ} (hm : m ∈ s'.cancelPump.cancelWatchdog.marks) :
      m ∈ s.connectionLost.marks := beginTeardown_keeps_marks _ _ hm
  rcases hw with hw | hw
  · obtain ⟨p, hp⟩ := cancelPump_reaches (s := s') hw hh
    exact ⟨p, hlost (cancelWatchdog_keeps_marks hp)⟩
  · have hdog : watchdogWaits s'.cancelPump = true := by
      rw [watchdogWaits, cancelPump_watchdog]
      exact hw
    obtain ⟨p, hp⟩ := cancelWatchdog_reaches hdog (cancelPump_holdsRoom.trans hh)
    exact ⟨p, hlost hp⟩

end Cancel

section

variable [Room ρ] {cfg : SessionConfig} {s t : RoomSession ρ κ}

theorem spares_of_uninterrupted {e : Event ρ κ} (h : step cfg s e = some t)
    (ht : Uninterrupted t) : Spares s e := by
  cases e with
  | connectionLost =>
    cases step_turn h
    intro hh
    by_contra hne
    have hw : pumpWaits s = true ∨ watchdogWaits s = true := by
      cases hp : pumpWaits s <;> cases hd : watchdogWaits s <;> simp_all
    obtain ⟨p, hp⟩ := connectionLost_reaches hw hh
    exact ht.spared p hp
  | forceCloseTimeout =>
    cases step_turn h
    intro hh
    by_contra hw
    obtain ⟨p, hp⟩ := cancelCloser_reaches (by simpa using hw) hh
    exact ht.spared p hp
  | _ => trivial

/-- A run leaves every teardown that has taken its room to finish, exactly if none of its steps
cancels a caller that waits for one. -/
theorem uninterrupted_iff_spares {es : List (Event ρ κ)}
    (h : (machine ρ κ cfg).run .initial es = some s) :
    (machine ρ κ cfg).Keeps Uninterrupted .initial es ↔
      (machine ρ κ cfg).Follows Spares .initial es :=
  Machine.ReachedBy.keeps_iff_follows (fun _ ↦ reached_uninterrupted)
    (fun _ _ _ _ hst ↦ spares_of_uninterrupted hst) .init h

end

/-- The shell exits, and the client hangs up while the room is being destroyed: the pump waits for
the teardown, so its cancellation is the teardown's. -/
def hangUpInGoodbye : List (Event BuiltRoom Nat) :=
  [.sessionStarted, .pumpStarts none, .openEnds (.returned (.docker 0)) false,
    .readEnds (.returned false) false, .teardownStarts, .connectionLost]

theorem hangUp_interrupts : ¬ ∀ (cfg : SessionConfig) (es : List (Event BuiltRoom Nat))
    (s : RoomSession BuiltRoom Nat),
    (machine BuiltRoom Nat cfg).run .initial es = some s → Uninterrupted s := by
  intro h
  have hcut := (h ⟨none, 0⟩ hangUpInGoodbye _ rfl).spared (.destroying (.docker 0))
  exact hcut (by decide)

/-- A typed exit that nobody disturbs. -/
def typedExit : List (Event BuiltRoom Nat) :=
  [.sessionStarted, .pumpStarts none, .openEnds (.returned (.docker 0)) false,
    .readEnds (.returned false) false, .teardownStarts, .destroyEnds (.returned 0),
    .pumpResumes false, .connectionLost]

theorem typedExit_uninterrupted :
    ∃ s, (machine BuiltRoom Nat ⟨none, 0⟩).run .initial typedExit = some s ∧
      .destroyEnded (.docker 0) ∈ s.marks ∧
      (machine BuiltRoom Nat ⟨none, 0⟩).Keeps Uninterrupted .initial typedExit :=
  ⟨_, rfl, by decide, (uninterrupted_iff_spares rfl).mpr (by decide)⟩

end Keycard.Session
