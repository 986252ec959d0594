import Mathlib.Data.List.Nodup

/-!
# Insertion-ordered dictionaries

A dictionary lists its items in the order in which their keys were first set: setting a key that is
already there replaces its value in place.  The keys are distinct by construction, so an item is in
the list exactly if looking its key up finds it (`mem_items_iff`).
-/

namespace Reasoning

universe u v

/-- `d[a] = b` on the bare list of items. -/
def setItem {α : Type u} {β : Type v} [DecidableEq α] (a : α) (b : β) : List (α × β) → List (α × β)
  | [] => [(a, b)]
  | (a', b') :: rest => if a' = a then (a, b) :: rest else (a', b') :: setItem a b rest

structure Dict (α : Type u) (β : Type v) where
  items : List (α × β)
  nodup : (items.map Prod.fst).Nodup

namespace Dict

variable {α : Type u} {β : Type v}

def empty : Dict α β where
  items := []
  nodup := List.nodup_nil

@[simp] theorem items_empty : (empty : Dict α β).items = [] := rfl

variable [DecidableEq α]

theorem map_fst_setItem (a : α) (b : β) (items : List (α × β)) :
    (setItem a b items).map Prod.fst =
      if a ∈ items.map Prod.fst then items.map Prod.fst else items.map Prod.fst ++ [a] := by
  induction items with
  | nil => simp [setItem]
  | cons p rest ih =>
    obtain ⟨a', b'⟩ := p
    by_cases h : a' = a
    · simp [setItem, h]
    · simp only [setItem, if_neg h, List.map_cons, ih, List.mem_cons, Ne.symm h, false_or]
      split <;> rfl

theorem nodup_setItem {a : α} {b : β} {items : List (α × β)} (h : (items.map Prod.fst).Nodup) :
    ((setItem a b items).map Prod.fst).Nodup := by
  rw [map_fst_setItem]
  split
  · exact h
  · rename_i ha
    rw [List.nodup_append]
    refine ⟨h, List.nodup_singleton a, fun x hx y hy hxy ↦ ha ?_⟩
    rw [← List.mem_singleton.mp hy, ← hxy]
    exact hx

def get? (d : Dict α β) (a : α) : Option β :=
  d.items.lookup a

def set (d : Dict α β) (a : α) (b : β) : Dict α β where
  items := setItem a b d.items
  nodup := nodup_setItem d.nodup

def erase (d : Dict α β) (a : α) : Dict α β where
  items := d.items.filter fun p ↦ p.1 ≠ a
  nodup := (List.filter_sublist.map Prod.fst).nodup d.nodup

/-- `{**d, **e}` -/
def update (d e : Dict α β) : Dict α β :=
  e.items.foldl (fun d item ↦ d.set item.1 item.2) d

/-- The items whose keys meet `p`. -/
def filter (d : Dict α β) (p : α → Bool) : Dict α β where
  items := d.items.filter fun item ↦ p item.1
  nodup := (List.filter_sublist.map Prod.fst).nodup d.nodup

/-! ## Looking up -/

theorem lookup_cons_ite (a : α) (p : α × β) (rest : List (α × β)) :
    (p :: rest).lookup a = if a = p.1 then some p.2 else rest.lookup a := by
  obtain ⟨a', b⟩ := p
  by_cases h : a = a'
  · simp [h]
  · have hne : (a == a') = false := beq_eq_false_iff_ne.mpr h
    simp [List.lookup_cons, hne, h]

theorem lookup_eq_some_iff {items : List (α × β)} (hnd : (items.map Prod.fst).Nodup) (a : α) (b : β) :
    items.lookup a = some b ↔ (a, b) ∈ items := by
  induction items with
  | nil => simp
  | cons p rest ih =>
    obtain ⟨a', b'⟩ := p
    obtain ⟨hnot, hrest⟩ := List.nodup_cons.mp hnd
    rw [lookup_cons_ite]
    by_cases h : a = a'
    · subst h
      simp only [if_true, List.mem_cons, Prod.mk.injEq, true_and]
      refine ⟨fun hb ↦ Or.inl (Option.some.inj hb).symm, fun hb ↦ ?_⟩
      rcases hb with hb | hb
      · exact congrArg some hb.symm
      · exact absurd (List.mem_map_of_mem hb) hnot
    · simp [h, ih hrest]

theorem mem_items_iff {d : Dict α β} {a : α} {b : β} : (a, b) ∈ d.items ↔ d.get? a = some b :=
  (lookup_eq_some_iff d.nodup a b).symm

@[simp] theorem get?_empty (a : α) : (empty : Dict α β).get? a = none := rfl

theorem lookup_setItem (a a' : α) (b : β) (items : List (α × β)) :
    (setItem a b items).lookup a' = if a' = a then some b else items.lookup a' := by
  induction items with
  | nil => rw [setItem, lookup_cons_ite]
  | cons p rest ih =>
    obtain ⟨k, b'⟩ := p
    by_cases hk : k = a
    · rw [setItem, if_pos hk, lookup_cons_ite, lookup_cons_ite, hk]
      split <;> rfl
    · simp only [setItem, if_neg hk, lookup_cons_ite, ih]
      by_cases h : a' = k
      · rw [if_pos h, if_pos h, if_neg (h ▸ hk)]
      · rw [if_neg h, if_neg h]

theorem get?_set (d : Dict α β) (a : α) (b : β) :
    (d.set a b).get? = Function.update d.get? a (some b) := by
  funext a'
  rw [Function.update_apply]
  exact lookup_setItem a a' b d.items

theorem get?_foldl_set {items : List (α × β)} (hnd : (items.map Prod.fst).Nodup) (d : Dict α β) (a : α) :
    (items.foldl (fun d item ↦ d.set item.1 item.2) d).get? a = (items.lookup a).or (d.get? a) := by
  induction items generalizing d with
  | nil => rfl
  | cons item rest ih =>
    obtain ⟨hnot, hrest⟩ := List.nodup_cons.mp hnd
    rw [List.foldl_cons, ih hrest, get?_set, lookup_cons_ite]
    by_cases h : a = item.1
    · have hnone : rest.lookup item.1 = none := by
        cases hlookup : rest.lookup item.1 with
        | none => rfl
        | some b => exact absurd (List.mem_map_of_mem ((lookup_eq_some_iff hrest _ b).mp hlookup)) hnot
      rw [if_pos h, h, Function.update_self, hnone]
      rfl
    · rw [if_neg h, Function.update_of_ne h]

theorem get?_update (d e : Dict α β) (a : α) : (d.update e).get? a = (e.get? a).or (d.get? a) :=
  get?_foldl_set e.nodup d a

theorem mem_items_erase {d : Dict α β} {a a' : α} {b : β} :
    (a', b) ∈ (d.erase a).items ↔ (a', b) ∈ d.items ∧ a' ≠ a := by
  simp [erase]

theorem get?_erase (d : Dict α β) (a : α) :
    (d.erase a).get? = Function.update d.get? a none := by
  funext a'
  ext b
  rw [← mem_items_iff, mem_items_erase, mem_items_iff]
  by_cases h : a' = a
  · simp [h]
  · rw [Function.update_of_ne h]
    exact and_iff_left h

end Dict

end Reasoning
