import Keycard.Session.Lifecycle

/-!
# Checking a room out

Which trigger came first decides whether a room may be kept, and the order of the log decides the
rest: at most one `destroy()`, at most one `pause()`, and a `destroy()` after a `pause()` only when
`keep()` raised.
-/

open Reasoning

namespace Keycard.Session

variable {ρ κ : Type}

def Mark.isReached : Mark ρ κ → Bool
  | .reached _ _ => true
  | _ => false

def Mark.isOpened : Mark ρ κ → Bool
  | .opened _ _ => true
  | _ => false

def Mark.isPause : Mark ρ κ → Bool
  | .pause _ => true
  | _ => false

def Mark.isDestroy : Mark ρ κ → Bool
  | .destroy _ _ => true
  | _ => false

/-- The first trigger to reach `_begin_teardown`, and what was in `self._room` then. -/
def firstReached (marks : List (Mark ρ κ)) : Option (Mark ρ κ) :=
  marks.find? Mark.isReached

/-- The trigger that starts the teardown is the first to be recorded, and until the teardown runs
the room stays what it was then. -/
structure Core.Triggered [Room ρ] (cfg : SessionConfig) (c : Core ρ κ) : Prop where
  untouched : c.teardown = none → firstReached c.marks = none
  touched : c.teardown ≠ none → (firstReached c.marks).isSome = true
  waiting (keep b : Bool) : c.teardown = some (keep, .created b) →
    ∃ trigger, firstReached c.marks = some (.reached trigger c.room) ∧
      keep = (trigger == .connectionLost)
  paused (room : ρ) : .pause room ∈ c.marks →
    firstReached c.marks = some (.reached .connectionLost (some room)) ∧
      keepEnabled cfg.keepWindow = true ∧ Room.canPause room = true

theorem firstReached_append {ms : List (Mark ρ κ)} (marks : List (Mark ρ κ))
    (hms : ∀ m ∈ ms, m.isReached = false) :
    firstReached (marks ++ ms) = firstReached marks := by
  have hnone : ms.find? Mark.isReached = none := by
    simpa [List.find?_eq_none] using hms
  rw [firstReached, List.find?_append, hnone, Option.or_none]
  rfl

theorem firstReached_append_of_isSome {marks : List (Mark ρ κ)} (ms : List (Mark ρ κ))
    (h : (firstReached marks).isSome = true) :
    firstReached (marks ++ ms) = firstReached marks := by
  obtain ⟨m, hm⟩ := Option.isSome_iff_exists.mp h
  rw [firstReached, List.find?_append, show marks.find? Mark.isReached = some m from hm, Option.some_or]
  exact hm.symm

section

variable [Room ρ] {cfg : SessionConfig} {c d : Core ρ κ} {a : Act ρ κ}

/-- A move that neither reaches `_begin_teardown` nor pauses. -/
theorem Core.Triggered.frame (hc : c.Triggered cfg) (ms : List (Mark ρ κ))
    (hmarks : d.marks = c.marks ++ ms)
    (hms : ∀ m ∈ ms, m.isReached = false ∧ m.isPause = false)
    (hnone : d.teardown = none ↔ c.teardown = none)
    (hcreated : ∀ keep b, d.teardown = some (keep, .created b) →
      d.room = c.room ∧ ∃ b', c.teardown = some (keep, .created b')) : d.Triggered cfg := by
  have hfirst : firstReached d.marks = firstReached c.marks := by
    rw [hmarks]
    exact firstReached_append _ fun m hm ↦ (hms m hm).1
  refine ⟨fun h ↦ ?_, fun h ↦ ?_, fun keep b h ↦ ?_, fun room hp ↦ ?_⟩
  · rw [hfirst]
    exact hc.untouched (hnone.mp h)
  · rw [hfirst]
    exact hc.touched fun h' ↦ h (hnone.mpr h')
  · obtain ⟨hroom, b', h'⟩ := hcreated keep b h
    rw [hfirst, hroom]
    exact hc.waiting keep b' h'
  · rw [hmarks] at hp
    rcases List.mem_append.mp hp with hp | hp
    · rw [hfirst]
      exact hc.paused room hp
    · cases (hms _ hp).2

/-- A move adds to the log, and only those that reach `_begin_teardown` record a trigger. -/
theorem Move.appends (hm : Move cfg c a d) : ∃ ms, d.marks = c.marks ++ ms ∧
      ∀ m ∈ ms, m.isReached = true → ∃ trigger, a = .begins trigger ∧ m = .reached trigger c.room := by
  cases hm with
  | begins trigger => exact ⟨_, rfl, fun m hm _ ↦ ⟨trigger, rfl, List.mem_singleton.mp hm⟩⟩
  | cancelsPump pump hp =>
    refine ⟨_, rfl, fun m hm hr ↦ ?_⟩
    cases hq : pump.point? <;> simp [hq, cancelMarks] at hm
    subst hm
    cases hr
  | pumpStarts kept hp =>
    refine ⟨_, rfl, fun m hm hr ↦ ?_⟩
    cases kept <;> simp [takeMarks] at hm
    subst hm
    cases hr
  | starts | pumpEnds | openCut | lateCut | reads | neverRuns | cut =>
    exact ⟨[], (List.append_nil _).symm, fun m hm ↦ absurd hm List.not_mem_nil⟩
  | cancelsTeardown | resumeFails | opensLate | opens | lateDestroyed | findsNone | pauses | destroys | keeps
  | keepFails | destroyed => exact ⟨_, rfl, by simp [Mark.isReached]⟩

theorem Move.firstReached (hm : Move cfg c a d) : firstReached d.marks = firstReached c.marks ∨
      firstReached c.marks = none ∧ ∃ trigger, a = .begins trigger := by
  obtain ⟨ms, hmarks, hms⟩ := hm.appends
  cases hfirst : Session.firstReached c.marks with
  | some m =>
    rw [hmarks, firstReached_append_of_isSome ms (by rw [hfirst]; rfl)]
    exact .inl hfirst
  | none =>
    by_cases hany : ∃ m ∈ ms, m.isReached = true
    · obtain ⟨m, hmem, hr⟩ := hany
      exact .inr ⟨rfl, (hms m hmem hr).imp fun _ ↦ And.left⟩
    · rw [hmarks, firstReached_append _ fun m hmem ↦ by simpa using fun hr ↦ hany ⟨m, hmem, hr⟩]
      exact .inl hfirst

theorem Core.Triggered.step (h : Move cfg c a d) (hlife : c.Lifecycle) (hc : c.Triggered cfg) :
    d.Triggered cfg := by
  cases h with
  | begins trigger =>
    by_cases ht : c.teardown = none
    · have hfirst : firstReached (c.marks ++ [Mark.reached trigger c.room]) =
          some (.reached trigger c.room) := by
        have hnone : c.marks.find? Mark.isReached = none := hc.untouched ht
        rw [firstReached, List.find?_append, hnone]
        rfl
      refine ⟨fun h ↦ (by cases h), fun _ ↦ ?_, fun keep b h ↦ ?_, fun room hp ↦ ?_⟩
      · rw [hfirst]
        rfl
      · simp only [ht, Option.getD_none, Option.some.injEq, Prod.mk.injEq] at h
        exact ⟨trigger, hfirst, h.1.symm⟩
      · have hp : .pause room ∈ c.marks := by simpa using hp
        have hfst := (hc.paused room hp).1
        rw [hc.untouched ht] at hfst
        cases hfst
    · have hfirst := firstReached_append_of_isSome [.reached trigger c.room] (hc.touched ht)
      obtain ⟨td, ht'⟩ := Option.ne_none_iff_exists'.mp ht
      refine ⟨fun h ↦ (by cases h), fun _ ↦ ?_, fun keep b h ↦ ?_, fun room hp ↦ ?_⟩
      · rw [hfirst]
        exact hc.touched ht
      · rw [hfirst]
        exact hc.waiting keep b (by simpa [ht'] using h)
      · rw [hfirst]
        exact hc.paused room (by simpa using hp)
  | pauses room ht hroom henabled hcan =>
    obtain ⟨trigger, hfst, hkeep⟩ := hc.waiting true false ht
    have hfirst : firstReached (c.marks ++ [Mark.taken room, .pause room]) = firstReached c.marks :=
      firstReached_append _ (by simp [Mark.isReached])
    refine ⟨fun h ↦ (by cases h), fun _ ↦ ?_, fun keep b h ↦ (by cases h), fun r hp ↦ ?_⟩
    · rw [hfirst, hfst]
      rfl
    · rw [hfirst]
      by_cases hr : .pause r ∈ c.marks
      · exact hc.paused r hr
      · have hr : r = room := by simpa [hr] using hp
        have htrigger : trigger = .connectionLost := by simpa using hkeep.symm
        subst hr htrigger
        exact ⟨by rw [hfst, hroom], henabled, hcan⟩
  | starts hp => exact hc.frame [] (by simp) (by simp) Iff.rfl fun keep b h ↦ ⟨rfl, b, h⟩
  | cancelsPump pump hp =>
    refine hc.frame _ rfl (fun m hm ↦ ?_) Iff.rfl fun keep b h ↦ ⟨rfl, b, h⟩
    cases hq : pump.point? <;> simp [hq, cancelMarks] at hm
    simp [hm, Mark.isReached, Mark.isPause]
  | cancelsTeardown keep task ht hend =>
    refine hc.frame _ rfl (by simp [Mark.isReached, Mark.isPause]) (by simp [ht]) fun keep' b h ↦ ?_
    cases task with
    | created b' =>
      cases h
      exact ⟨rfl, b', ht⟩
    | suspended p b' => cases h
    | ended how => cases hend
  | pumpStarts kept hp =>
    refine hc.frame _ rfl (fun m hm ↦ ?_) Iff.rfl fun keep b h ↦ ⟨rfl, b, h⟩
    cases kept <;> simp [takeMarks] at hm
    simp [hm, Mark.isReached, Mark.isPause]
  | pumpEnds pump how hp hmay =>
    exact hc.frame [] (by simp) (by simp) Iff.rfl fun keep b h ↦ ⟨rfl, b, h⟩
  | openCut kept hp => exact hc.frame [] (by simp) (by simp) Iff.rfl fun keep b h ↦ ⟨rfl, b, h⟩
  | resumeFails k b hp =>
    exact hc.frame _ rfl (by simp [Mark.isReached, Mark.isPause]) Iff.rfl fun keep b h ↦ ⟨rfl, b, h⟩
  | opensLate kept b room hp ht =>
    refine hc.frame _ rfl (by simp [Mark.isReached, Mark.isPause]) Iff.rfl fun keep b h ↦ ⟨?_, b, h⟩
    -- nothing was in `self._room` yet
    rcases hlife.staged with hu | ⟨kept', r, phase, hfit, -⟩
    · exact hu.left.symm
    · cases hfit.pump.not_before hp rfl
  | opens kept b room hp ht =>
    refine hc.frame _ rfl (by simp [Mark.isReached, Mark.isPause]) Iff.rfl fun keep b h ↦ ?_
    rw [ht] at h
    cases h
  | lateDestroyed room b hp =>
    exact hc.frame _ rfl (by simp [Mark.isReached, Mark.isPause]) Iff.rfl fun keep b h ↦ ⟨rfl, b, h⟩
  | lateCut room hp => exact hc.frame [] (by simp) (by simp) Iff.rfl fun keep b h ↦ ⟨rfl, b, h⟩
  | reads room b p hp hnext =>
    exact hc.frame [] (by simp) (by simp) Iff.rfl fun keep b h ↦ ⟨rfl, b, h⟩
  | neverRuns keep ht =>
    exact hc.frame [] (by simp) (by simp) (by simp [ht]) fun keep b h ↦ (by cases h)
  | cut keep p ht =>
    exact hc.frame [] (by simp) (by simp) (by simp [ht]) fun keep b h ↦ (by cases h)
  | findsNone keep ht hroom | destroys keep room ht hroom | keeps keep room b ht
  | keepFails keep room b ht | destroyed keep room b ht =>
    exact hc.frame _ rfl (by simp [Mark.isReached, Mark.isPause]) (by simp [ht])
      fun keep b h ↦ (by cases h)

theorem reachable_triggered {s : RoomSession ρ κ} (h : (machine ρ κ cfg).Reachable s) :
    (core s).Triggered cfg := by
  refine reached_invariant h ⟨fun _ ↦ rfl, fun h ↦ absurd rfl h, ?_, ?_⟩ ?_
  · intro keep b h
    cases h
  · intro room h
    cases h
  · intro s e _ _ c a d _ hm hlife hc
    exact hc.step hm hlife

end

/-! ## What the log of every session looks like -/

section

variable {c : Core ρ κ}

theorem Core.Staged.log_cases (h : c.Staged) : c.roomMarks = [] ∨
    ∃ kept room phase, c.roomMarks = .opened kept room :: Phase.trace room phase := by
  rcases h with hu | ⟨kept, room, phase, -, hlog⟩
  · exact .inl hu.log
  · exact .inr ⟨kept, room, phase, hlog⟩

theorem Core.countP_roomMarks (c : Core ρ κ) {p : Mark ρ κ → Bool}
    (hp : ∀ m, p m = true → m.ofRoom = true) : c.marks.countP p = c.roomMarks.countP p := by
  rw [Core.roomMarks, List.countP_filter]
  congr 1
  funext m
  cases hm : p m
  · rfl
  · rw [hp m hm]
    rfl

/-- Entries about the room that follow one another do so among the entries about the room. -/
theorem Core.sublist_roomMarks (c : Core ρ κ) {ms : List (Mark ρ κ)}
    (hms : ∀ m ∈ ms, m.ofRoom = true) : ms.Sublist c.marks ↔ ms.Sublist c.roomMarks := by
  constructor
  · intro h
    have hfilter := h.filter Mark.ofRoom
    rwa [List.filter_eq_self.mpr hms] at hfilter
  · intro h
    exact h.trans List.filter_sublist

theorem Core.Staged.countP_le_one (h : c.Staged) {p : Mark ρ κ → Bool}
    (hp : ∀ m, p m = true → m.ofRoom = true)
    (honce : ∀ kept room phase, (Mark.opened kept room :: Phase.trace room phase).countP p ≤ 1) :
    c.marks.countP p ≤ 1 := by
  rw [c.countP_roomMarks hp]
  rcases h.log_cases with hlog | ⟨kept, room, phase, hlog⟩
  · rw [hlog]
    exact Nat.zero_le 1
  · rw [hlog]
    exact honce kept room phase

end

theorem Core.Lifecycle.pause_mem {c : Core ρ κ} (hc : c.Lifecycle) {keep b : Bool} {room : ρ}
    (ht : c.teardown = some (keep, .suspended (.pausing room) b)) : .pause room ∈ c.marks := by
  rcases hc.staged with hu | ⟨kept, r, phase, hfit, hlog⟩
  · have htask := hu.task
    simp [Core.holding, ht] at htask
  · rcases hfit.task.of_suspended ht with ⟨hp, rfl⟩ | ⟨hp, -⟩
    · cases hp
      have hm : Mark.pause room ∈ c.roomMarks := by
        rw [hlog]
        simp [Phase.trace]
      exact List.mem_of_mem_filter hm
    · cases hp

structure CheckedOut [Room ρ] (cfg : SessionConfig) (s : RoomSession ρ κ) : Prop where
  opensOnce : s.marks.countP Mark.isOpened ≤ 1
  destroysOnce : s.marks.countP Mark.isDestroy ≤ 1
  pausesOnce : s.marks.countP Mark.isPause ≤ 1
  eligible (room : ρ) : .pause room ∈ s.marks →
    firstReached s.marks = some (.reached .connectionLost (some room)) ∧
      keepEnabled cfg.keepWindow = true ∧ Room.canPause room = true
  /-- `destroy()` follows `pause()` only when `keep()` raised in between -/
  fallback (owner : Owner) (room : ρ) :
    [Mark.pause room, .destroy owner room].Sublist s.marks →
      [Mark.pause room, .keepRaised room, .destroy owner room].Sublist s.marks
  /-- a room that opens after the teardown found none is destroyed by `_run` -/
  late (kept : Option κ) (room : ρ) :
    [Mark.foundNone, .opened kept room].Sublist s.marks →
      [Mark.opened kept room, .destroy .pump room].Sublist s.marks

theorem Core.Staged.fallback {c : Core ρ κ} (h : c.Staged) {owner : Owner} {room : ρ}
    (hsub : [Mark.pause room, .destroy owner room].Sublist c.marks) :
    [Mark.pause room, .keepRaised room, .destroy owner room].Sublist c.marks := by
  rw [c.sublist_roomMarks (by simp [Mark.ofRoom])] at hsub ⊢
  rcases h.log_cases with hlog | ⟨kept, r, phase, hlog⟩
  · rw [hlog] at hsub
    cases hsub
  · rw [hlog] at hsub ⊢
    -- the only story with both in it is the one of a pause that raised
    cases phase with
    | destroying afterPause | destroyed afterPause =>
      cases afterPause <;> simp [Phase.trace, List.cons_sublist_cons'] at hsub ⊢
      simp [hsub]
    | _ => simp [Phase.trace, List.cons_sublist_cons'] at hsub

theorem Core.Staged.late {c : Core ρ κ} (h : c.Staged) {kept : Option κ} {room : ρ}
    (hfound : .foundNone ∈ c.marks) (hopened : .opened kept room ∈ c.marks) :
    [Mark.opened kept room, .destroy .pump room].Sublist c.marks := by
  rw [c.sublist_roomMarks (by simp [Mark.ofRoom])]
  obtain ⟨phase, hfit, hlog⟩ := h.of_opened hopened
  have hlate : phase.isLate = true := by
    by_contra hlate
    exact hfit.found (by simpa using hlate) hfound
  rw [hlog]
  cases phase with
  | late | lateDone => simp [Phase.trace]
  | _ => cases hlate

/-- Every session, after any run, has checked its room out as it should. -/
theorem reachable_checkedOut [Room ρ] {cfg : SessionConfig} {s : RoomSession ρ κ}
    (h : (machine ρ κ cfg).Reachable s) : CheckedOut cfg s where
  opensOnce := by
    refine (reachable_lifecycle h).staged.countP_le_one (fun m hm ↦ ?_) fun kept room phase ↦ ?_
    · cases m <;> first | rfl | cases hm
    · rcases phase with _ | _ | _ | _ | _ | ⟨_ | _⟩ | ⟨_ | _⟩ <;>
        simp [Phase.trace, List.countP_cons, Mark.isOpened]
  destroysOnce := by
    refine (reachable_lifecycle h).staged.countP_le_one (fun m hm ↦ ?_) fun kept room phase ↦ ?_
    · cases m <;> first | rfl | cases hm
    · rcases phase with _ | _ | _ | _ | _ | ⟨_ | _⟩ | ⟨_ | _⟩ <;>
        simp [Phase.trace, List.countP_cons, Mark.isDestroy]
  pausesOnce := by
    refine (reachable_lifecycle h).staged.countP_le_one (fun m hm ↦ ?_) fun kept room phase ↦ ?_
    · cases m <;> first | rfl | cases hm
    · rcases phase with _ | _ | _ | _ | _ | ⟨_ | _⟩ | ⟨_ | _⟩ <;>
        simp [Phase.trace, List.countP_cons, Mark.isPause]
  eligible := (reachable_triggered h).paused
  fallback _ _ hsub := (reachable_lifecycle h).staged.fallback hsub
  late kept room hsub := by
    have hmem {m : Mark ρ κ} (hm : m ∈ [Mark.foundNone, .opened kept room]) : m ∈ s.marks :=
      hsub.subset hm
    exact (reachable_lifecycle h).staged.late (hmem (by simp)) (hmem (by simp))

/-- The same on every schedule, and for routed rooms it is the room underneath that is asked. -/
theorem checkedOut_on_every_schedule [Room ρ] {cfg : SessionConfig} :
    (∀ s : RoomSession ρ κ, (machine ρ κ cfg).Reachable s → CheckedOut cfg s) ∧
      ∀ s : RoomSession (RoutedRoom ρ) κ, (machine (RoutedRoom ρ) κ cfg).Reachable s →
        ∀ room, .pause room ∈ s.marks → Room.canPause room.inner = true :=
  ⟨fun _ h ↦ reachable_checkedOut h, fun _ h room hp ↦
    ((reachable_checkedOut h).eligible room hp).2.2⟩

/-- The network drops while the shell runs, and `keep()` fails. -/
def droppedAndNotKept : List (Event BuiltRoom Nat) :=
  [.sessionStarted, .pumpStarts none, .openEnds (.returned (.docker 0)) false, .connectionLost,
    .teardownStarts, .keepEnds .raised, .destroyEnds (.returned 0)]

theorem droppedAndNotKept_checkedOut : ∃ s : RoomSession BuiltRoom Nat,
    (machine BuiltRoom Nat ⟨some 60, 0⟩).run .initial droppedAndNotKept = some s ∧
      .keepRaised (.docker 0) ∈ s.marks ∧ CheckedOut ⟨some 60, 0⟩ s := by
  have hrun : (machine BuiltRoom Nat ⟨some 60, 0⟩).run .initial droppedAndNotKept = some _ := rfl
  exact ⟨_, hrun, by decide, checkedOut_on_every_schedule.1 _ (.of_run hrun)⟩

end Keycard.Session
