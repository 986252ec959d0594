import Mathlib
import Keycard.Reasoning.Dict

/-!
# Counting what is where

What a list of parts adds up to changes with one part by what the new one adds and the old one did, and so does the
number of values of a dictionary that meet a predicate.
-/

namespace Reasoning

universe u v

/-! ## The parts of a system -/

section Parts

variable {α : Type u} (f : α → Nat)

/-- One part is replaced: the sum loses what `a` added, and gains what `b` adds. -/
theorem sum_map_set {l : List α} {i : Nat} {a : α} (h : l[i]? = some a) (b : α) :
    ((l.set i b).map f).sum + f a = (l.map f).sum + f b := by
  induction l generalizing i with
  | nil => cases h
  | cons c rest ih =>
    cases i with
    | zero =>
      cases h
      simp only [List.set_cons_zero, List.map_cons, List.sum_cons]
      omega
    | succ i =>
      have hrest : ((rest.set i b).map f).sum + f a = (rest.map f).sum + f b := ih h
      simp only [List.set_cons_succ, List.map_cons, List.sum_cons]
      omega

theorem le_sum_map {l : List α} {i : Nat} {a : α} (h : l[i]? = some a) : f a ≤ (l.map f).sum := by
  induction l generalizing i with
  | nil => cases h
  | cons c rest ih =>
    rw [List.map_cons, List.sum_cons]
    cases i with
    | zero =>
      cases h
      omega
    | succ i =>
      have hrest : f a ≤ (rest.map f).sum := ih h
      omega

end Parts

/-! ## The values of a dictionary -/

namespace Dict

variable {α : Type u} {β : Type v}

/-- How many of the values meet `p`. -/
def count (d : Dict α β) (p : β → Bool) : Nat :=
  d.items.countP fun item ↦ p item.2

variable [DecidableEq α]

theorem countP_setItem (a : α) (b : β) (p : β → Bool) (items : List (α × β)) :
    (setItem a b items).countP (fun item ↦ p item.2) + (items.lookup a).toList.countP p =
      items.countP (fun item ↦ p item.2) + [b].countP p := by
  induction items with
  | nil => simp [setItem, List.countP_cons]
  | cons item rest ih =>
    obtain ⟨a', b'⟩ := item
    by_cases h : a' = a
    · simp only [setItem, if_pos h, lookup_cons_ite, if_pos h.symm, List.countP_cons, Option.toList_some]
      omega
    · rw [setItem, if_neg h, lookup_cons_ite, if_neg (Ne.symm h), List.countP_cons, List.countP_cons]
      omega

/-- The value that is replaced counts no more. -/
theorem count_set (d : Dict α β) (a : α) (b : β) (p : β → Bool) :
    (d.set a b).count p + (d.get? a).toList.countP p = d.count p + [b].countP p :=
  countP_setItem a b p d.items

theorem countP_eraseItem {items : List (α × β)} (hnd : (items.map Prod.fst).Nodup) (a : α) (p : β → Bool) :
    (items.filter fun item ↦ item.1 ≠ a).countP (fun item ↦ p item.2) + (items.lookup a).toList.countP p =
      items.countP fun item ↦ p item.2 := by
  induction items with
  | nil => rfl
  | cons item rest ih =>
    obtain ⟨a', b'⟩ := item
    obtain ⟨hnot, hrest⟩ := List.nodup_cons.mp hnd
    by_cases h : a' = a
    · -- the other keys are different
      have hall : rest.filter (fun item ↦ item.1 ≠ a) = rest := by
        refine List.filter_eq_self.mpr fun item hmem ↦ decide_eq_true fun heq ↦ hnot ?_
        have hkey : item.1 ∈ rest.map Prod.fst := List.mem_map_of_mem hmem
        rwa [heq, ← h] at hkey
      rw [lookup_cons_ite, if_pos h.symm, List.filter_cons_of_neg (by simpa using h), hall]
      simp [List.countP_cons]
    · rw [lookup_cons_ite, if_neg (Ne.symm h), List.filter_cons_of_pos (by simpa using h)]
      have hih := ih hrest
      simp only [List.countP_cons]
      omega

theorem count_erase (d : Dict α β) (a : α) (p : β → Bool) :
    (d.erase a).count p + (d.get? a).toList.countP p = d.count p :=
  countP_eraseItem d.nodup a p

end Dict

end Reasoning
