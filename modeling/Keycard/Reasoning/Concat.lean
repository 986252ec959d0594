import Mathlib.Data.List.Basic
import Mathlib.Data.Nat.Init
import Mathlib.Logic.Function.Basic

/-!
# Streams made of segments

A stream to which several parties contribute one after another is the concatenation of one segment for each
of them, in their order.
-/

namespace Reasoning

universe u

variable {α : Type u}

/-- The segments of the first `n` parties, one behind the other. -/
def concat (segment : Nat → List α) (n : Nat) : List α :=
  (List.range n).flatMap segment

variable {f g : Nat → List α} {k m n : Nat}

@[simp] theorem concat_zero (f : Nat → List α) : concat f 0 = [] := rfl

theorem concat_succ (f : Nat → List α) (n : Nat) : concat f (n + 1) = concat f n ++ f n := by
  simp [concat, List.range_succ]

theorem concat_congr (h : ∀ k < n, f k = g k) : concat f n = concat g n := by
  induction n with
  | zero => rfl
  | succ n ih =>
    rw [concat_succ, concat_succ, ih fun k hk ↦ h k (Nat.lt_succ_of_lt hk), h n (Nat.lt_succ_self n)]

/-- Parties that have contributed nothing yet make no difference. -/
theorem concat_of_le (hmn : m ≤ n) (h : ∀ k, m ≤ k → f k = []) : concat f n = concat f m := by
  induction n, hmn using Nat.le_induction with
  | base => rfl
  | succ n hmn ih => rw [concat_succ, h n hmn, List.append_nil, ih]

/-- Whoever contributes last extends the whole stream. -/
theorem concat_update_append (hk : k < n) (hlater : ∀ j, k < j → f j = []) (xs : List α) :
    concat (Function.update f k (f k ++ xs)) n = concat f n ++ xs := by
  have hlater' : ∀ j, k + 1 ≤ j → Function.update f k (f k ++ xs) j = [] := by
    intro j hj
    rw [Function.update_of_ne (Nat.ne_of_gt hj)]
    exact hlater j hj
  have hbefore : concat (Function.update f k (f k ++ xs)) k = concat f k :=
    concat_congr fun j hj ↦ Function.update_of_ne (Nat.ne_of_lt hj) _ _
  rw [concat_of_le hk hlater', concat_of_le hk hlater, concat_succ, concat_succ, hbefore,
    Function.update_self, List.append_assoc]

theorem concat_update_succ (f : Nat → List α) (n : Nat) (xs : List α) :
    concat (Function.update f n xs) (n + 1) = concat f n ++ xs := by
  rw [concat_succ, Function.update_self, concat_congr fun k hk ↦ Function.update_of_ne (Nat.ne_of_lt hk) xs f]

theorem update_prefix {xs : List α} (h : ∀ k, g k <+: f k) (hxs : xs <+: f n) (k : Nat) :
    Function.update g n xs k <+: f k := by
  by_cases hk : k = n
  · rw [hk, Function.update_self]
    exact hxs
  · rw [Function.update_of_ne hk]
    exact h k

/-- A prefix of the stream is made of prefixes of the segments. -/
theorem exists_concat_of_prefix {xs : List α} (h : xs <+: concat f n) :
    ∃ g, (∀ k, g k <+: f k) ∧ xs = concat g n := by
  induction n generalizing xs with
  | zero => exact ⟨fun _ ↦ [], fun k ↦ List.nil_prefix, List.prefix_nil.mp h⟩
  | succ n ih =>
    rw [concat_succ] at h
    obtain ⟨rest, hrest⟩ := h
    rcases List.append_eq_append_iff.mp hrest with ⟨more, hbefore, -⟩ | ⟨last, hxs, hlast⟩
    -- it ends before the last segment
    · obtain ⟨g, hg, rfl⟩ := ih ⟨more, hbefore.symm⟩
      exact ⟨Function.update g n [], update_prefix hg List.nil_prefix, by simp [concat_update_succ]⟩
    · refine ⟨Function.update f n last, update_prefix (fun k ↦ List.prefix_refl _) ⟨rest, hlast.symm⟩, ?_⟩
      rw [concat_update_succ, hxs]

end Reasoning
