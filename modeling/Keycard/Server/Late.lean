import Keycard.Server.Drain

/-!
# Sessions that come after the drain has looked

`_drain` works from snapshots of the active sessions.  As long as no `force_close` is left to its
timeout, every session it saw is gone when `backend.close()` is called; those that were made after
its last look are nobody's business.
-/

open Reasoning

namespace Keycard.Server

open Session

variable {ι ρ κ : Type} [DecidableEq ι]

def Event.timely : Event ι ρ κ → Bool
  | .forceCloseTimeout => false
  | _ => true

/-- Every `force_close` completes within FORCE_CLOSE_TIMEOUT. -/
def timelyMachine (ι ρ κ : Type) [DecidableEq ι] [Room ρ] (cfg : ServerConfig) :
    Machine (Server ι ρ κ) (Event ι ρ κ) :=
  (machine ι ρ κ cfg).restrict Event.timely

/-- Whoever is active was seen by the drain, or came later. -/
structure LateRight (w : Server ι ρ κ) : Prop where
  forcing (members : Finset ι) (timedOut : Bool) (g : Option Outcome) :
    w.phase = .forcing members timedOut g →
      timedOut = false ∧ ∀ i ∈ w.active.sessions, i ∈ members ∨ i ∈ w.late
  after : w.phase = .closing ∨ w.phase = .sweeping → w.active.sessions ⊆ w.late

/-- `ActiveSessions` is empty when `backend.close()` is called. -/
def NoneLeft (w : Server ι ρ κ) : Prop :=
  ∀ left late, w.phase = .backendClosing left late → left = ∅

/-- When `backend.close()` is called, the sessions made since the drain's last look are over. -/
def LateGone (w : Server ι ρ κ) : Event ι ρ κ → Prop
  | .sweepEnds false => ∀ i ∈ w.late, i ∉ w.active.sessions
  | _ => True

instance (w : Server ι ρ κ) (e : Event ι ρ κ) : Decidable (LateGone w e) := by
  unfold LateGone
  split <;> infer_instance

section

variable [Room ρ] {cfg : ServerConfig} {w w' : Server ι ρ κ} {e : Event ι ρ κ}

/-- A `gather` that has come to a return leaves none of its sessions active. -/
theorem not_active_of_gathered (h : (machine ι ρ κ cfg).Reachable w) {members : Finset ι}
    (hg : Gathered w members (some (.returned ()))) {i : ι} (hi : i ∈ members) :
    i ∉ w.active.sessions := by
  intro hactive
  have hany := (reachable_activeRight h i).mp hactive
  cases hs : w.sessions i with
  | none => simp [hs] at hany
  | some s =>
    have hc : s.closer = some (.ended (.returned ())) :=
      (closer_of_session hs).symm.trans (hg i hi)
    have hr := released_of_closer_returned (reachable_session h hs) hc
    simp [hs, hr] at hany

theorem LateRight.step (hst : Server.step cfg w e = some w') (he : e.timely = true)
    (hw : (machine ι ρ κ cfg).Reachable w) (h : LateRight w) : LateRight w' := by
  cases step_stepped hst with
  | made i hnone =>
    refine ⟨fun members timedOut g hp ↦ ?_, fun hp ↦ ?_⟩
    · obtain ⟨htimely, hall⟩ := h.forcing members timedOut g hp
      refine ⟨htimely, fun j hj ↦ ?_⟩
      rcases Finset.mem_insert.mp hj with rfl | hj
      · exact .inr (Finset.mem_insert_self _ _)
      · exact (hall j hj).imp_right fun hl ↦ Finset.mem_insert_of_mem hl
    · exact Finset.insert_subset_insert i (h.after hp)
  | session i e s t hs hstep hforce htimeout =>
    have hactive : (w.put i s t).active.sessions ⊆ w.active.sessions := by
      rw [put_active]
      split
      · exact Finset.erase_subset i _
      · exact Finset.Subset.refl _
    rcases put_phase_cases w i s t with hphase | ⟨members, timedOut, how, hp, -, -, -, hphase⟩
    · refine ⟨fun members timedOut g hp ↦ ?_, fun hp ↦ ?_⟩
      · obtain ⟨htimely, hall⟩ := h.forcing members timedOut g (hphase ▸ hp)
        rw [put_late]
        exact ⟨htimely, fun j hj ↦ hall j (hactive hj)⟩
      · rw [put_late]
        exact hactive.trans (h.after (hphase ▸ hp))
    · refine ⟨fun members' timedOut' g hp' ↦ ?_, fun hp' ↦ ?_⟩
      · rw [hphase] at hp'
        cases hp'
        obtain ⟨htimely, hall⟩ := h.forcing members timedOut none hp
        rw [put_late]
        exact ⟨htimely, fun j hj ↦ hall j (hactive hj)⟩
      · rw [hphase] at hp'
        rcases hp' with hp' | hp' <;> cases hp'
  | drained e hp hempty =>
    refine ⟨fun members timedOut g hp' ↦ (by cases hp'), fun _ ↦ ?_⟩
    simp [hempty]
  | forces e hp hne =>
    refine ⟨fun members timedOut g hp' ↦ ?_, fun hp' ↦ ?_⟩
    · cases hp'
      exact ⟨rfl, fun i hi ↦ .inl hi⟩
    · rcases hp' with hp' | hp' <;> cases hp'
  | timesOut members hp hstarted => cases he
  | timesOutLate members how hp hstarted => cases he
  | resumes members timedOut how hp hstarted =>
    obtain ⟨rfl, hall⟩ := h.forcing members timedOut _ hp
    have hg := (reachable_gathering hw).gathered members false _ hp
    cases how with
    | returned u =>
      refine ⟨fun members timedOut g hp' ↦ (by cases hp'), fun _ i hi ↦ ?_⟩
      exact (hall i hi).resolve_left fun hm ↦ not_active_of_gathered hw hg hm hi
    | raised =>
      refine ⟨fun members timedOut g hp' ↦ (by cases hp'), fun hp' ↦ ?_⟩
      rcases hp' with hp' | hp' <;> cases hp'
    | cancelled =>
      refine ⟨fun members timedOut g hp' ↦ (by cases hp'), fun hp' ↦ ?_⟩
      rcases hp' with hp' | hp' <;> cases hp'
  | closeEnds hp => exact ⟨fun _ _ _ hp' ↦ (by cases hp'), fun _ ↦ h.after (.inl hp)⟩
  | _ =>
    refine ⟨fun _ _ _ hp' ↦ (by cases hp'), fun hp' ↦ ?_⟩
    rcases hp' with hp' | hp' <;> cases hp'

theorem reached_lateRight {ok : Server ι ρ κ → Event ι ρ κ → Prop}
    (h : (timelyMachine ι ρ κ cfg).ReachedBy ok w) : LateRight w := by
  refine h.invariant (I := LateRight) ⟨fun _ _ _ hp ↦ (by cases hp), fun hp ↦ ?_⟩ ?_
  · rcases hp with hp | hp <;> cases hp
  · intro s e t hs hi _ hst
    obtain ⟨he, hst⟩ := Machine.restrict_step hst
    exact hi.step hst he hs.reachable.of_restrict

theorem NoneLeft.step (hst : Server.step cfg w e = some w') (he : LateGone w e)
    (hlate : LateRight w) (h : NoneLeft w) : NoneLeft w' := by
  intro left late hp'
  cases step_stepped hst with
  | made i hnone => exact h left late hp'
  | session i e s t hs hstep hforce htimeout =>
    rcases put_phase_cases w i s t with hphase | ⟨members, timedOut, how, -, -, -, -, hphase⟩
    · exact h left late (hphase ▸ hp')
    · rw [hphase] at hp'
      cases hp'
  | sweepEnds hp =>
    cases hp'
    refine Finset.eq_empty_of_forall_notMem fun i hi ↦ ?_
    exact he i (hlate.after (.inr hp) hi) hi
  | resumes members timedOut how hp hstarted =>
    cases how with
    | returned u => cases hp'
    | raised => cases hp'
    | cancelled => cases timedOut <;> cases hp'
  | _ => cases hp'

theorem reached_noneLeft (h : (timelyMachine ι ρ κ cfg).ReachedBy LateGone w) : NoneLeft w := by
  refine h.invariant (I := NoneLeft) (fun left late hp ↦ by cases hp) ?_
  intro s e t hs hi he hst
  exact hi.step (Machine.restrict_step hst).2 he (reached_lateRight hs)

theorem lateGone_of_noneLeft (hst : Server.step cfg w e = some w') (h : NoneLeft w') :
    LateGone w e := by
  cases e with
  | sweepEnds raised =>
    cases raised with
    | true => trivial
    | false =>
      simp only [Server.step] at hst
      split at hst
      · cases hst
        have hempty : w.active.sessions = ∅ := h _ _ rfl
        intro i _
        simp [hempty]
      · cases hst
  | _ => trivial

/-- In a run in which no `force_close` times out, `backend.close()` is called with no session left
exactly if those that came after the drain's last look are over by then. -/
theorem noneLeft_iff_lateGone {es : List (Event ι ρ κ)}
    (h : (timelyMachine ι ρ κ cfg).run .initial es = some w) :
    (timelyMachine ι ρ κ cfg).Keeps NoneLeft .initial es ↔
      (timelyMachine ι ρ κ cfg).Follows LateGone .initial es :=
  Machine.ReachedBy.keeps_iff_follows (fun _ ↦ reached_noneLeft)
    (fun _ _ _ _ hst ↦ lateGone_of_noneLeft (Machine.restrict_step hst).2) .init h

end

/-- One session is cut short, another comes late and goes again. -/
def cutAndLate : List (Event Nat BuiltRoom Nat) :=
  [.connectionMade 0, .shutdown fun _ ↦ false, .session 0 (.closerStarts false),
    .session 0 .teardownStarts, .session 0 (.closerResumes false), .connectionMade 1,
    .session 1 .connectionLost, .drainResumes, .session 1 .teardownStarts, .closeEnds,
    .sweepEnds false]

theorem cutAndLate_noneLeft :
    ∃ w, (timelyMachine Nat BuiltRoom Nat ⟨⟨none, 0⟩, 0⟩).run .initial cutAndLate = some w ∧ 1 ∈ w.late ∧
      (timelyMachine Nat BuiltRoom Nat ⟨⟨none, 0⟩, 0⟩).Keeps NoneLeft .initial cutAndLate :=
  ⟨_, rfl, by decide, (noneLeft_iff_lateGone rfl).mpr (by decide)⟩

/-- A connection that was accepted before the shutdown opens its session while `serve` waits for it
to close. -/
def lateSession : List (Event Nat BuiltRoom Nat) :=
  [.shutdown fun _ ↦ false, .connectionMade 0, .closeEnds, .sweepEnds false]

theorem lateSession_left : ¬ ∀ (cfg : ServerConfig) (es : List (Event Nat BuiltRoom Nat))
    (w : Server Nat BuiltRoom Nat),
    (timelyMachine Nat BuiltRoom Nat cfg).run .initial es = some w → NoneLeft w := by
  intro h
  have hleft := h ⟨⟨none, 0⟩, 0⟩ lateSession _ rfl _ _ rfl
  revert hleft
  decide

end Keycard.Server
