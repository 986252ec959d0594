import Keycard.Session.Lifecycle

/-!
# What a session leaves behind when it is released

`_release` tells the drain that a session is done.  It runs on the way out of `_run_teardown`, also
when that found no room because `open()` had not returned yet.
-/

open Reasoning

namespace Keycard.Session

variable {ρ κ : Type}

/-- No `open()` or `resume()` is in flight, and every room that one returned was destroyed or
kept. -/
structure Core.Settled (c : Core ρ κ) : Prop where
  notOpening (kept : Option κ) (b : Bool) : c.pump ≠ some (.suspended (.opening kept) b)
  disposed (kept : Option κ) (room : ρ) : .opened kept room ∈ c.marks →
    .kept room ∈ c.marks ∨ .destroyEnded room ∈ c.marks

def Settled (s : RoomSession ρ κ) : Prop :=
  (core s).Settled

/-- The pump is past `open()`, and a room that came late is gone. -/
structure Core.PastOpening (c : Core ρ κ) : Prop where
  notOpening (kept : Option κ) (b : Bool) : c.pump ≠ some (.suspended (.opening kept) b)
  lateGone (room : ρ) : .destroy .pump room ∈ c.marks → .destroyEnded room ∈ c.marks

/-- The teardown does not take its first step while a room is opening or a room that opened too late
is being destroyed, a pump does not start in a session that was released, and no `CancelledError`
comes out of `keep()` or `destroy()` in the teardown. -/
def ReleasesLast (s : RoomSession ρ κ) : Event ρ κ → Prop
  | .teardownStarts =>
    (∃ td, s.teardown = some td ∧ td.task = .created false) → (core s).PastOpening
  | .pumpStarts _ => s.pump = some (.created false) → s.released = false
  | .keepEnds reply => reply ≠ .cancelled
  | .destroyEnds reply => reply ≠ .cancelled
  | _ => True

/-- The same as a condition on a move. -/
def Act.ReleasesLast (c : Core ρ κ) : Act ρ κ → Prop
  | .findsNone => c.PastOpening
  | .claims _ => c.released = false
  | .teardownCut _ => False
  | _ => True

section

variable {c d : Core ρ κ}

theorem Core.Settled.frame (h : c.Settled) (hmarks : c.marks ⊆ d.marks)
    (hp : ∀ kept b, d.pump = some (.suspended (.opening kept) b) →
      ∃ b', c.pump = some (.suspended (.opening kept) b'))
    (ho : ∀ kept room, .opened kept room ∈ d.marks → .opened kept room ∈ c.marks) :
    d.Settled where
  notOpening kept b hp' := by
    obtain ⟨b', hp'⟩ := hp kept b hp'
    exact h.notOpening kept b' hp'
  disposed kept room ho' := (h.disposed kept room (ho kept room ho')).imp (hmarks ·) (hmarks ·)

/-- Once the pump has its room, it is not opening. -/
theorem Phase.Fits.notOpening {room : ρ} {phase : Phase} (h : phase.Fits c room)
    (kept : Option κ) (b : Bool) : c.pump ≠ some (.suspended (.opening kept) b) := by
  intro hp
  cases h.pump.not_before hp rfl

/-- Neither is it while the teardown is at work. -/
theorem Core.Lifecycle.notOpening_of_suspended (hc : c.Lifecycle) {keep b : Bool}
    {p : TeardownPoint ρ} (ht : c.teardown = some (keep, .suspended p b)) (kept : Option κ)
    (b' : Bool) : c.pump ≠ some (.suspended (.opening kept) b') := by
  rcases hc.staged with hu | ⟨kept', room, phase, hfit, -⟩
  · have hnone := hu.task
    rw [Core.holding, ht] at hnone
    cases hnone
  · exact hfit.notOpening kept b'

/-- A `CancelledError` out of `keep()` or `destroy()` releases a session whose room is still there. -/
theorem not_settled_of_cut {s : RoomSession ρ κ} {td : Teardown ρ} {p : TeardownPoint ρ} {b : Bool}
    (htd : s.teardown = some td) (htask : td.task = .suspended p b) (hlife : (core s).Lifecycle) :
    ¬ Settled (s.release td .cancelled) := by
  intro hsettled
  have htd' : (core s).teardown = some (td.allowKeep, .suspended p b) := by
    simp [core, htd, htask]
  rcases hlife.staged with hu | ⟨kept, r, phase, hfit, hlog⟩
  · have hnone := hu.task
    rw [Core.holding, htd'] at hnone
    cases hnone
  · have hopened : .opened kept r ∈ (core s).roomMarks := by
      rw [hlog]
      simp
    have hdone := hsettled.disposed kept r ((Core.mem_roomMarks rfl).mp hopened)
    have hdone : .kept r ∈ (core s).roomMarks ∨ .destroyEnded r ∈ (core s).roomMarks :=
      hdone.imp (Core.mem_roomMarks rfl).mpr (Core.mem_roomMarks rfl).mpr
    rw [hlog] at hdone
    rcases hfit.task.of_suspended htd' with ⟨-, rfl⟩ | ⟨-, afterPause, rfl⟩
    · simp [Phase.trace] at hdone
    · cases afterPause <;> simp [Phase.trace] at hdone

end

section

variable [Room ρ] {cfg : SessionConfig} {c d : Core ρ κ} {a : Act ρ κ}

theorem Core.settled_step (hm : Move cfg c a d) (ha : a.ReleasesLast c) (hlife : c.Lifecycle)
    (h : c.released = true → c.Settled) (hd : d.released = true) : d.Settled := by
  cases hm with
  | findsNone keep ht hroom =>
    refine ⟨ha.notOpening, fun kept room ho ↦ ?_⟩
    have ho : .opened kept room ∈ c.marks := by simpa using ho
    obtain ⟨phase, hfit, hlog⟩ := hlife.staged.of_opened ho
    have hmem {m : Mark ρ κ} (hof : m.ofRoom = true) (hm : m ∈ Phase.trace room phase) :
        m ∈ c.marks := by
      rw [← Core.mem_roomMarks hof, hlog]
      exact List.mem_cons_of_mem _ hm
    rcases hfit.task.of_created ht with rfl | hl
    · have hleft : c.room = some room := hfit.left
      rw [hroom] at hleft
      cases hleft
    · cases phase with
      | late =>
        have hgone := ha.lateGone room (hmem rfl (by simp [Phase.trace]))
        exact .inr (by simp [hgone])
      | lateDone =>
        have hended : .destroyEnded room ∈ c.marks := hmem rfl (by simp [Phase.trace])
        exact .inr (by simp [hended])
      | _ => cases hl
  | keeps keep r b ht =>
    refine ⟨hlife.notOpening_of_suspended ht, fun kept room ho ↦ ?_⟩
    obtain ⟨phase, hfit, hlog⟩ := hlife.staged.of_opened (by simpa using ho)
    rcases hfit.task.of_suspended ht with ⟨hr, -⟩ | ⟨hr, -⟩
    · cases hr
      exact .inl (by simp)
    · cases hr
  | destroyed keep r b ht =>
    refine ⟨hlife.notOpening_of_suspended ht, fun kept room ho ↦ ?_⟩
    obtain ⟨phase, hfit, hlog⟩ := hlife.staged.of_opened (by simpa using ho)
    rcases hfit.task.of_suspended ht with ⟨hr, -⟩ | ⟨hr, -⟩
    · cases hr
    · cases hr
      exact .inr (by simp)
  | cut keep p ht => exact ha.elim
  | pumpStarts kept hp =>
    rw [show c.released = false from ha] at hd
    cases hd
  | opensLate kept b room hp ht => exact absurd hp ((h hd).notOpening kept b)
  | opens kept b room hp ht => exact absurd hp ((h hd).notOpening kept b)
  | starts hp => exact (h hd).frame (List.Subset.refl _) (fun _ _ hp' ↦ by cases hp') fun _ _ ↦ id
  | begins trigger => exact (h hd).frame (by simp) (fun _ b hp' ↦ ⟨b, hp'⟩) (by simp)
  | cancelsPump pump hp =>
    refine (h hd).frame (by simp) (fun kept b hp' ↦ ?_) fun kept room ho ↦ ?_
    · cases pump with
      | suspended p b' =>
        cases hp'
        exact ⟨b', hp⟩
      | created b' => cases hp'
      | ended how => cases hp'
    · cases hq : pump.point? <;> simpa [hq, cancelMarks] using ho
  | cancelsTeardown keep task ht hend =>
    exact (h hd).frame (by simp) (fun _ b hp' ↦ ⟨b, hp'⟩) (by simp)
  | pumpEnds pump how hp hmay =>
    exact (h hd).frame (List.Subset.refl _) (fun _ _ hp' ↦ by cases hp') fun _ _ ↦ id
  | openCut kept hp => exact absurd hp ((h hd).notOpening kept true)
  | resumeFails k b hp => exact absurd hp ((h hd).notOpening (some k) b)
  | lateDestroyed room b hp => exact (h hd).frame (by simp) (fun _ _ hp' ↦ by cases hp') (by simp)
  | lateCut room hp =>
    exact (h hd).frame (List.Subset.refl _) (fun _ _ hp' ↦ by cases hp') fun _ _ ↦ id
  | reads room b p hp hnext =>
    refine (h hd).frame (List.Subset.refl _) (fun kept b' hp' ↦ ?_) fun _ _ ↦ id
    rcases hnext with rfl | hj
    · cases hp'
    · cases hp'
      cases hj
  | neverRuns keep ht =>
    exact (h hd).frame (List.Subset.refl _) (fun _ b hp' ↦ ⟨b, hp'⟩) fun _ _ ↦ id
  | pauses room ht hroom henabled hcan =>
    exact (h hd).frame (by simp) (fun _ b hp' ↦ ⟨b, hp'⟩) (by simp)
  | destroys keep room ht hroom =>
    exact (h hd).frame (by simp) (fun _ b hp' ↦ ⟨b, hp'⟩) (by simp)
  | keepFails keep room b ht =>
    exact (h hd).frame (by simp) (fun _ b hp' ↦ ⟨b, hp'⟩) (by simp)

end

/-! ## Every run -/

theorem teardown_of_core {s : RoomSession ρ κ} {keep : Bool} {task : LoopTask (TeardownPoint ρ)}
    (h : (core s).teardown = some (keep, task)) :
    ∃ td, s.teardown = some td ∧ td.allowKeep = keep ∧ td.task = task := by
  cases htd : s.teardown with
  | none => simp [core, htd] at h
  | some td => simpa [core, htd] using h

/-- Only four events can break the condition on the moves. -/
theorem acts_releasesLast {s : RoomSession ρ κ} {e : Event ρ κ} {a : Act ρ κ} (ha : acts s e a)
    (hteardown : e ≠ .teardownStarts) (hpump : ∀ kept, e ≠ .pumpStarts kept)
    (hkeep : e ≠ .keepEnds .cancelled) (hdestroy : e ≠ .destroyEnds .cancelled) (c : Core ρ κ) :
    a.ReleasesLast c := by
  cases e with
  | connectionLost => rcases ha with rfl | ⟨pump, -, rfl⟩ | ⟨td, -, -, rfl, -⟩ <;> trivial
  | forceCloseTimeout =>
    obtain ⟨td, -, -, rfl, -⟩ := ha
    trivial
  | pumpStarts kept => exact absurd rfl (hpump kept)
  | readEnds _ _ | watchdogRuns _ _ | closerStarts _ => rcases ha with rfl | rfl <;> trivial
  | openEnds reply _ => rcases ha with rfl | ⟨-, _, _, -, rfl⟩ <;> trivial
  | lateDestroyEnds reply => rcases ha with rfl | ⟨-, _, rfl⟩ <;> trivial
  | keepEnds reply =>
    rcases ha with rfl | ⟨rfl, -⟩
    · trivial
    · exact absurd rfl hkeep
  | destroyEnds reply =>
    rcases ha with rfl | ⟨rfl, -⟩
    · trivial
    · exact absurd rfl hdestroy
  | teardownStarts => exact absurd rfl hteardown
  | _ =>
    cases ha
    trivial

section

variable [Room ρ] {cfg : SessionConfig} {c d : Core ρ κ} {a : Act ρ κ} {s t : RoomSession ρ κ}

theorem Move.pump_of_claims (hm : Move cfg c a d) {kept : Option κ} (ha : a = .claims kept) :
    c.pump = some (.created false) := by
  cases hm with
  | pumpStarts kept' hp => exact hp
  | _ => cases ha

theorem Move.teardown_of_findsNone (hm : Move cfg c a d) (ha : a = .findsNone) :
    ∃ keep, c.teardown = some (keep, .created false) := by
  cases hm with
  | findsNone keep ht hroom => exact ⟨keep, ht⟩
  | _ => cases ha

theorem settled_of_step {e : Event ρ κ} (h : step cfg s e = some t) (he : ReleasesLast s e)
    (hlife : (core s).Lifecycle) (hs : s.released = true → Settled s) :
    t.released = true → Settled t := by
  by_cases hteardown : e = .teardownStarts
  · subst hteardown
    obtain ⟨a, ha, hm⟩ := teardownStarts_move h
    refine Core.settled_step hm ?_ hlife hs
    rcases ha with rfl | rfl | ⟨td, -, -, rfl⟩
    · trivial
    · obtain ⟨keep, ht⟩ := hm.teardown_of_findsNone rfl
      obtain ⟨td, htd, -, htask⟩ := teardown_of_core ht
      exact he ⟨td, htd, htask⟩
    · trivial
  · by_cases hpump : ∃ kept, e = .pumpStarts kept
    · obtain ⟨kept, rfl⟩ := hpump
      obtain ⟨a, ha, hm⟩ := pumpStarts_move h
      refine Core.settled_step hm ?_ hlife hs
      rcases ha with rfl | rfl
      · exact he (hm.pump_of_claims rfl)
      · trivial
    · have hkeep : e ≠ .keepEnds .cancelled := fun h ↦ by
        subst h
        exact he rfl
      have hdestroy : e ≠ .destroyEnds .cancelled := fun h ↦ by
        subst h
        exact he rfl
      have hboth : (core t).Lifecycle ∧ ((core t).released = true → (core t).Settled) := by
        refine (step_moves h).invariant
          (I := fun c ↦ c.Lifecycle ∧ (c.released = true → c.Settled)) ⟨hlife, hs⟩ ?_
        rintro c a d ⟨hc, hsettled⟩ ha hm
        have hok := acts_releasesLast ha hteardown (fun kept h ↦ hpump ⟨kept, h⟩) hkeep hdestroy c
        exact ⟨hc.step hm, Core.settled_step hm hok hc hsettled⟩
      exact hboth.2

theorem reached_settled (h : (machine ρ κ cfg).ReachedBy ReleasesLast s) :
    s.released = true → Settled s := by
  refine h.invariant (I := fun s ↦ s.released = true → Settled s) ?_ ?_
  · intro hr
    cases hr
  · intro s e t hs hi he hst
    exact settled_of_step hst he (reachable_lifecycle hs.reachable) hi

/-! ## A step that releases too early -/

theorem teardownStarts_of_room_none {td : Teardown ρ} (h : step cfg s .teardownStarts = some t)
    (htd : s.teardown = some td) (htask : td.task = .created false) (hroom : s.room = none) :
    t = (s.note .foundNone).release td (.returned ()) := by
  simp only [step, stepTeardown, htd, htask, RoomSession.runTeardown, hroom, Option.some.injEq] at h
  exact h.symm

theorem pastOpening_of_settled {td : Teardown ρ} (h : step cfg s .teardownStarts = some t)
    (htd : s.teardown = some td) (htask : td.task = .created false) (hlife : (core s).Lifecycle)
    (ht : t.released = true → Settled t) : (core s).PastOpening := by
  refine ⟨fun kept b hp ↦ ?_, fun room hm ↦ ?_⟩
  · have hroom : s.room = none := by
      rcases hlife.staged with hu | ⟨kept', r, phase, hfit, -⟩
      · exact hu.left
      · exact absurd hp (hfit.notOpening kept b)
    obtain rfl := teardownStarts_of_room_none h htd htask hroom
    exact (ht rfl).notOpening kept b hp
  · obtain ⟨kept, phase, hlate, hfit, hlog⟩ := hlife.staged.of_late hm
    have hroom : s.room = none := by
      refine hfit.left.trans ?_
      cases phase with
      | late | lateDone => rfl
      | _ => cases hlate
    have hopened : .opened kept room ∈ (core s).marks := by
      rw [← Core.mem_roomMarks rfl, hlog]
      simp
    have hended (hm : .kept room ∈ s.marks ∨ .destroyEnded room ∈ s.marks) :
        .destroyEnded room ∈ s.marks := by
      refine hm.resolve_left fun hk ↦ ?_
      have hk : .kept room ∈ (core s).roomMarks := (Core.mem_roomMarks rfl).mpr hk
      rw [hlog] at hk
      cases phase with
      | late | lateDone => simp [Phase.trace] at hk
      | _ => cases hlate
    obtain rfl := teardownStarts_of_room_none h htd htask hroom
    have hsettled := (ht rfl).disposed kept room
    simp only [core, RoomSession.release, RoomSession.note, RoomSession.setTeardown,
      List.mem_append, List.mem_singleton, reduceCtorEq, or_false] at hsettled
    exact hended (hsettled hopened)

theorem releasesLast_of_settled {e : Event ρ κ} (h : step cfg s e = some t)
    (hlife : (core s).Lifecycle) (ht : t.released = true → Settled t) : ReleasesLast s e := by
  cases e with
  | teardownStarts =>
    rintro ⟨td, htd, htask⟩
    exact pastOpening_of_settled h htd htask hlife ht
  | pumpStarts kept =>
    intro hp
    by_contra hr
    have hr : s.released = true := by simpa using hr
    cases step_turn h with
    | pumpCutOff hp' => cases hp.symm.trans hp'
    | pumpStarts => exact (ht hr).notOpening kept false rfl
  | keepEnds reply =>
    rintro rfl
    cases step_turn h with
    | keepEnds htd htask => exact not_settled_of_cut htd htask hlife (ht rfl)
  | destroyEnds reply =>
    rintro rfl
    cases step_turn h with
    | destroyEnds htd htask => exact not_settled_of_cut htd htask hlife (ht rfl)
  | _ => trivial

end

end Keycard.Session
