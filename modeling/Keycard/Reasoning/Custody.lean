import Mathlib.Logic.Basic

/-!
# Who has what

Things that are created one after another, and places that have them.  In good custody no two places have the same
thing, and whoever has a thing has it on behalf of the one it was created for.  Steps keep that in which
things are dropped, a new one comes up, or one place hands a thing to another; and what nobody has any more is gone
for good.
-/

namespace Reasoning

universe u v w

/-- `has` says which place has which thing, `made` for whom a thing was created, if it was, and `acts` on whose behalf
a place has what it has. -/
structure Custody {π : Type u} {α : Type v} {β : Type w} (has : π → α → Prop) (made : α → Option β)
    (acts : π → Option β) : Prop where
  alone {p q : π} {x : α} : has p x → has q x → p = q
  behalf {p : π} {x : α} : has p x → ∃ b, made x = some b ∧ acts p = some b

namespace Custody

variable {π : Type u} {α : Type v} {β : Type w} {has : π → α → Prop} {made : α → Option β} {acts : π → Option β}

theorem of_none (hnone : ∀ p x, ¬ has p x) : Custody has made acts :=
  ⟨fun h ↦ absurd h (hnone _ _), fun h ↦ absurd h (hnone _ _)⟩

/-- Nobody has what was not created. -/
theorem not_has (h : Custody has made acts) {x : α} (hnew : made x = none) (p : π) : ¬ has p x := by
  intro hp
  obtain ⟨b, hb, -⟩ := h.behalf hp
  cases hnew.symm.trans hb

end Custody

/-- A step in which things are dropped, one is created, or one is handed over. -/
inductive Passes {π : Type u} {α : Type v} {β : Type w} (has has' : π → α → Prop) (made made' : α → Option β)
    (acts acts' : π → Option β) : Prop
  /-- there may be new places, which have nothing -/
  | drops (hmade : made' = made) (hacts : ∀ p x, has p x → acts' p = acts p) (hsame : ∀ p x, has' p x → has p x)
  /-- `p` has the new thing -/
  | creates (p : π) (x : α) (b : β) (hnew : made x = none) (hmade : made' x = some b)
      (hkept : ∀ y b, made y = some b → made' y = some b) (hp : acts p = some b) (hacts : acts' = acts)
      (hsame : ∀ q y, has' q y → has q y ∨ q = p ∧ y = x)
  /-- `p` hands it to `q`, who acts for the same one -/
  | hands (p q : π) (x : α) (hp : has p x) (hgone : ¬ has' p x) (hpq : acts q = acts p) (hmade : made' = made)
      (hacts : acts' = acts) (hsame : ∀ r y, has' r y → has r y ∨ r = q ∧ y = x)

namespace Passes

variable {π : Type u} {α : Type v} {β : Type w} {has has' : π → α → Prop} {made made' : α → Option β}
  {acts acts' : π → Option β}

theorem custody (hpass : Passes has has' made made' acts acts') (h : Custody has made acts) :
    Custody has' made' acts' := by
  cases hpass with
  | drops hmade hacts hsame =>
    subst hmade
    refine ⟨fun hp hq ↦ h.alone (hsame _ _ hp) (hsame _ _ hq), fun hp ↦ ?_⟩
    obtain ⟨b, hb, hp'⟩ := h.behalf (hsame _ _ hp)
    exact ⟨b, hb, (hacts _ _ (hsame _ _ hp)).trans hp'⟩
  | creates p x b hnew hmade hkept hp hacts hsame =>
    subst hacts
    constructor
    · intro q r y hq hr
      rcases hsame q y hq with hq | ⟨rfl, rfl⟩
      · rcases hsame r y hr with hr | ⟨rfl, rfl⟩
        · exact h.alone hq hr
        · exact absurd hq (h.not_has hnew q)
      · rcases hsame r y hr with hr | ⟨rfl, -⟩
        · exact absurd hr (h.not_has hnew r)
        · rfl
    · intro q y hq
      rcases hsame q y hq with hq | ⟨rfl, rfl⟩
      · obtain ⟨b', hb', hb⟩ := h.behalf hq
        exact ⟨b', hkept y b' hb', hb⟩
      · exact ⟨b, hmade, hp⟩
  | hands p q x hp hgone hpq hmade hacts hsame =>
    subst hmade hacts
    -- whoever else had the thing is `p`, and has it no more
    have honly (r : π) (hr : has' r x) : r = q := by
      rcases hsame r x hr with hold | ⟨rfl, -⟩
      · exact absurd (h.alone hold hp ▸ hr) hgone
      · rfl
    constructor
    · intro r r' y hr hr'
      rcases hsame r y hr with hold | ⟨rfl, rfl⟩
      · rcases hsame r' y hr' with hold' | ⟨rfl, rfl⟩
        · exact h.alone hold hold'
        · exact honly r hr
      · exact (honly r' hr').symm
    · intro r y hr
      rcases hsame r y hr with hr | ⟨rfl, rfl⟩
      · exact h.behalf hr
      · rw [hpq]
        exact h.behalf hp

/-- What somebody has, somebody had, unless it is new. -/
theorem had (hpass : Passes has has' made made' acts acts') {p : π} {x : α} (h : has' p x) :
    (∃ q, has q x) ∨ made x = none := by
  cases hpass with
  | drops _ _ hsame => exact .inl ⟨p, hsame p x h⟩
  | creates q y b hnew _ _ _ _ hsame =>
    rcases hsame p x h with hold | ⟨-, rfl⟩
    · exact .inl ⟨p, hold⟩
    · exact .inr hnew
  | hands q r y hq _ _ _ _ hsame =>
    rcases hsame p x h with hold | ⟨-, rfl⟩
    · exact .inl ⟨p, hold⟩
    · exact .inl ⟨q, hq⟩

/-- What was created stays so. -/
theorem made_some (hpass : Passes has has' made made' acts acts') {x : α} {b : β} (h : made x = some b) :
    made' x = some b := by
  cases hpass with
  | drops hmade => rw [hmade, h]
  | creates _ _ _ _ _ hkept => exact hkept x b h
  | hands _ _ _ _ _ _ hmade => rw [hmade, h]

end Passes

end Reasoning
