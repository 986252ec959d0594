import Keycard.Session.DestroyAll

/-!
# A paused room is disposed of once

Expiry timers go on after `take()`, and a sweep walks a snapshot while everybody else changes the
registry.  A `Kept` leaves only while it is registered, and it is never registered again, so whoever
finds it first is the only one: nobody takes or destroys it a second time.
-/

open Reasoning

namespace Keycard

/-- `take()` has returned the `Kept`, or it has been passed to `destroy_kept()`. -/
def KeptMark.disposesOf {υ κ : Type} [DecidableEq κ] (k : κ) : KeptMark υ κ → Bool
  | .left kept .taken => kept = k
  | .left kept .destroyed => kept = k
  | _ => false

namespace KeptRooms

variable {υ κ : Type} [DecidableEq υ] [DecidableEq κ]

def disposals (s : KeptRooms υ κ) (k : κ) : Nat :=
  s.marks.countP (KeptMark.disposesOf k)

/-- What the timer of `k` does when it fires under `u`: `k` was kept there, it destroys nothing but
`k`, and every other room that is registered stays so. -/
structure OwnTimer (s t : KeptRooms υ κ) (u : υ) (k : κ) : Prop where
  started : .paused u k ∈ s.marks
  destroys : ∀ k', .left k' .destroyed ∈ t.marks → .left k' .destroyed ∈ s.marks ∨ k' = k
  spares : ∀ u' k', k' ≠ k → s.byUsername.get? u' = some k' → t.byUsername.get? u' = some k'

variable {s t : KeptRooms υ κ}

theorem disposals_eq_zero_of_found (hs : s.Accounted) {u : υ} {k : κ}
    (hu : s.byUsername.get? u = some k) : s.disposals k = 0 := by
  rw [disposals, List.countP_eq_zero]
  intro m hm hdisposes
  unfold KeptMark.disposesOf at hdisposes
  split at hdisposes
  · exact hs.not_left hu ((of_decide_eq_true hdisposes) ▸ hm)
  · exact hs.not_left hu ((of_decide_eq_true hdisposes) ▸ hm)
  · cases hdisposes

omit [DecidableEq υ] in
theorem countP_replaced (k : κ) (old : Option κ) :
    (old.map fun old ↦ (KeptMark.left old .replaced : KeptMark υ κ)).toList.countP
      (KeptMark.disposesOf k) = 0 := by
  cases old <;> rfl

/-- Only a `Kept` that was not disposed of before is disposed of by a change. -/
theorem Change.disposals_le_one {p : Option (υ × κ)} (h : Change s t p) (hs : s.Accounted)
    (hone : ∀ k, s.disposals k ≤ 1) (k : κ) : t.disposals k ≤ 1 := by
  cases h with
  | same hb hm =>
    rw [disposals, hm]
    exact hone k
  | removed u k' f hu hf hb hm =>
    rw [disposals, hm, List.countP_cons]
    by_cases hk : k' = k
    · -- it was registered until now, so this is the first time
      subst hk
      have hzero : s.marks.countP (KeptMark.disposesOf k') = 0 := disposals_eq_zero_of_found hs hu
      rw [hzero]
      split <;> omega
    · have hother : KeptMark.disposesOf k (.left k' f : KeptMark υ κ) = false := by
        cases f <;> simp [KeptMark.disposesOf, hk]
      rw [hother]
      exact hone k
  | registered u k' hnew hb hm =>
    rw [disposals, hm, List.cons_append, List.countP_cons, List.countP_append, countP_replaced]
    simp only [KeptMark.disposesOf, Nat.zero_add]
    exact hone k

theorem reachable_disposals (h : (machine υ κ).Reachable s) (k : κ) : s.disposals k ≤ 1 := by
  have hall : ∀ k, s.disposals k ≤ 1 := by
    refine h.invariant (I := fun s ↦ ∀ k, s.disposals k ≤ 1) (fun k ↦ Nat.zero_le _) ?_
    intro s e t hs hone hst
    exact (step_change hst).disposals_le_one (reachable_accounted hs) hone
  exact hall k

/-! ## Timers -/

theorem sweepFrom_sleeping (s : KeptRooms υ κ) (rest : List (υ × κ)) :
    (s.sweepFrom rest).1.sleeping = s.sleeping := by
  induction rest with
  | nil => rfl
  | cons p rest ih =>
    rw [sweepFrom]
    split
    · rfl
    · exact ih

theorem sweepEnds_sleeping (s : KeptRooms υ κ) (n : Nat) (began rest : List (υ × κ)) (reply : Outcome) :
    (s.sweepEnds n began rest reply).1.sleeping = s.sleeping := by
  cases reply with
  | returned =>
    rw [sweepEnds, sweepOn_fst]
    exact sweepFrom_sleeping s rest
  | raised => rfl
  | cancelled => rfl

/-- A timer is started where a room is registered, and nowhere else. -/
theorem mem_sleeping {e : KeptEvent υ κ} (h : s.step e = some t) {p : υ × κ} (hp : p ∈ t.sleeping) :
    p ∈ s.sleeping ∨ e.registers = some p := by
  cases e with
  | keep u =>
    cases h
    exact .inl hp
  | pauseEnds u reply =>
    simp only [step] at h
    split at h
    case isFalse => cases h
    cases reply with
    | returned k =>
      dsimp only at h
      split at h
      · cases h
        rcases List.mem_cons.mp hp with rfl | hp
        · exact .inr rfl
        · exact .inl hp
      · cases h
    | raised =>
      cases h
      exact .inl hp
    | cancelled =>
      cases h
      exact .inl hp
  | take u =>
    cases h
    unfold take at hp
    split at hp <;> exact .inl hp
  | expires u k =>
    simp only [step] at h
    split at h
    case isFalse => cases h
    cases h
    unfold expire at hp
    split at hp <;> exact .inl (List.mem_of_mem_erase hp)
  | expireEnds k =>
    simp only [step] at h
    split at h
    case isFalse => cases h
    cases h
    exact .inl hp
  | destroyAll =>
    cases h
    have hsame := sweepFrom_sleeping s s.byUsername.items
    rw [← sweepOn_fst s s.sweeps.length s.byUsername.items] at hsame
    exact .inl (hsame ▸ hp)
  | sweepEnds n reply =>
    simp only [step] at h
    split at h
    case h_2 => cases h
    cases h
    exact .inl (sweepEnds_sleeping s n _ _ reply ▸ hp)

theorem Change.paused_of_registers {u : υ} {k : κ} (h : Change s t (some (u, k))) :
    .paused u k ∈ t.marks := by
  cases h with
  | registered u k hk hb hm => simp [hm]

/-- Every timer was started by the `keep` that paused its room. -/
theorem reachable_started (h : (machine υ κ).Reachable s) {u : υ} {k : κ} (hp : (u, k) ∈ s.sleeping) :
    .paused u k ∈ s.marks := by
  have hall : ∀ u k, (u, k) ∈ s.sleeping → .paused u k ∈ s.marks := by
    refine h.invariant (I := fun s ↦ ∀ u k, (u, k) ∈ s.sleeping → .paused u k ∈ s.marks) ?_ ?_
    · intro u k hp
      cases hp
    · intro s e t _ hi hst u k hp
      rcases mem_sleeping hst hp with hp | hreg
      · exact (step_change hst).marks_subset (hi u k hp)
      · exact (hreg ▸ step_change hst).paused_of_registers
  exact hall u k hp

theorem expires_ownTimer (hs : (machine υ κ).Reachable s) {u : υ} {k : κ}
    (h : s.step (.expires u k) = some t) : OwnTimer s t u k := by
  simp only [step] at h
  split at h
  case isFalse => cases h
  rename_i hsleeping
  cases h
  have hstarted := reachable_started hs hsleeping
  unfold expire
  split
  · refine ⟨hstarted, fun k' hm ↦ ?_, fun u' k' hne hu' ↦ ?_⟩
    · rcases List.mem_cons.mp hm with hm | hm
      · cases hm
        exact .inr rfl
      · exact .inl hm
    · -- another room cannot be the one found under `u`
      rename_i hfound
      have hne' : u' ≠ u := by
        rintro rfl
        exact hne (Option.some.inj (hu'.symm.trans hfound))
      change (s.byUsername.erase u).get? u' = some k'
      rwa [Dict.get?_erase, Function.update_of_ne hne']
  · exact ⟨hstarted, fun k' hm ↦ .inl hm, fun u' k' _ hu' ↦ hu'⟩

/-- In every state each `Kept` has been disposed of at most once, and a timer that fires there
destroys at most the one it was started for. -/
theorem disposed_at_most_once (h : (machine υ κ).Reachable s) :
    (∀ k, s.disposals k ≤ 1) ∧ ∀ u k t, s.step (.expires u k) = some t → OwnTimer s t u k :=
  ⟨reachable_disposals h, fun _ _ _ hst ↦ expires_ownTimer h hst⟩

/-- A reconnect within the window: the first timer fires while the second room is kept. -/
def keptAgain : List (KeptEvent Nat Nat) :=
  [.keep 0, .pauseEnds 0 (.returned 1), .take 0, .keep 0, .pauseEnds 0 (.returned 2)]

theorem keptAgain_disposed_once : ∃ s t : KeptRooms Nat Nat,
    (machine Nat Nat).run .initial keptAgain = some s ∧ s.step (.expires 0 1) = some t ∧
      s.disposals 1 ≤ 1 ∧ OwnTimer s t 0 1 := by
  refine ⟨_, _, rfl, rfl, ?_, ?_⟩
  · have hrun : (machine Nat Nat).run .initial keptAgain = some _ := rfl
    exact (disposed_at_most_once (Machine.Reachable.of_run hrun)).1 1
  · have hrun : (machine Nat Nat).run .initial keptAgain = some _ := rfl
    exact (disposed_at_most_once (Machine.Reachable.of_run hrun)).2 0 1 _ rfl

end KeptRooms

end Keycard
