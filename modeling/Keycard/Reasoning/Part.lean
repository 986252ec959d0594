import Keycard.Reasoning.Machine

/-!
# Parts of a machine

A machine that is put together from others shows each of them through a view of its state.  A step of the
whole is then one step of the part, or leaves the part as it is, and whatever holds in every run of the part
holds in the view of every run of the whole.
-/

namespace Reasoning

universe u v

variable {σ τ : Type u} {ε φ : Type v}

/-- `n` as a part of `m`. -/
structure Machine.Part (m : Machine σ ε) (n : Machine τ φ) where
  view : σ → τ
  /-- the step of the part in a step of the whole -/
  label : ε → Option φ
  init : view m.init = n.init
  idle {s t : σ} {e : ε} : m.step s e = some t → label e = none → view t = view s
  acts {s t : σ} {e : ε} {f : φ} : m.step s e = some t → label e = some f → n.step (view s) f = some (view t)

theorem Machine.Reachable.exists_run {m : Machine σ ε} {s : σ} (h : m.Reachable s) :
    ∃ es, m.run m.init es = some s := by
  induction h with
  | init => exact ⟨[], rfl⟩
  | @step s t e hs _ hst ih =>
    obtain ⟨es, hrun⟩ := ih
    exact ⟨es ++ [e], by rw [Machine.run_append _ hrun, Machine.run, hst]; rfl⟩

namespace Machine.Part

variable {m : Machine σ ε} {n : Machine τ φ} (p : m.Part n)

/-- What the part does in a run of the whole. -/
def labels (es : List ε) : List φ :=
  es.filterMap p.label

theorem mem_labels {f : φ} {es : List ε} : f ∈ p.labels es ↔ ∃ e ∈ es, p.label e = some f :=
  List.mem_filterMap

/-- A run of the whole is a run of the part. -/
theorem run {s t : σ} {es : List ε} (h : m.run s es = some t) :
    n.run (p.view s) (p.labels es) = some (p.view t) := by
  induction es generalizing s with
  | nil =>
    simp only [Machine.run, Option.some.injEq] at h
    rw [h]
    rfl
  | cons e es ih =>
    obtain ⟨u, hu, hrun⟩ := Option.bind_eq_some_iff.mp h
    have hrest := ih hrun
    cases hlabel : p.label e with
    | none =>
      rw [p.idle hu hlabel] at hrest
      rw [labels, List.filterMap_cons_none hlabel]
      exact hrest
    | some f =>
      rw [labels, List.filterMap_cons_some hlabel, Machine.run, p.acts hu hlabel]
      exact hrest

theorem run_init {t : σ} {es : List ε} (h : m.run m.init es = some t) :
    n.run n.init (p.labels es) = some (p.view t) := by
  rw [← p.init]
  exact p.run h

/-- What the steps of the whole have to meet carries over to the part. -/
theorem reachedBy {ok : σ → ε → Prop} {ok' : τ → φ → Prop}
    (hok : ∀ s e f, m.ReachedBy ok s → ok s e → p.label e = some f → ok' (p.view s) f) {s : σ}
    (h : m.ReachedBy ok s) : n.ReachedBy ok' (p.view s) := by
  induction h with
  | init =>
    rw [p.init]
    exact .init
  | @step s t e hs he hst ih =>
    cases hlabel : p.label e with
    | none =>
      rw [p.idle hst hlabel]
      exact ih
    | some f => exact .step ih (hok s e f hs he hlabel) (p.acts hst hlabel)

theorem reachable {s : σ} (h : m.Reachable s) : n.Reachable (p.view s) :=
  p.reachedBy (fun _ _ _ _ _ _ ↦ trivial) h

end Machine.Part

/-- Where a machine has any number of copies of another in it, and each of its steps starts a copy or moves some of
them by one step each, every copy is where it could be on its own. -/
theorem Machine.Reachable.members {m : Machine σ ε} {n : Machine τ φ} (members : σ → List τ)
    (hinit : members m.init = [])
    (hstep : ∀ s e t, m.step s e = some t →
      ∀ y ∈ members t, y ∈ members s ∨ y = n.init ∨ ∃ x ∈ members s, ∃ f, n.step x f = some y)
    {s : σ} (h : m.Reachable s) : ∀ x ∈ members s, n.Reachable x := by
  refine h.invariant (I := fun s ↦ ∀ x ∈ members s, n.Reachable x) ?_ fun s e t _ hi hst y hy ↦ ?_
  · rw [hinit]
    exact fun x hx ↦ absurd hx List.not_mem_nil
  · rcases hstep s e t hst y hy with hold | rfl | ⟨x, hx, f, hf⟩
    · exact hi y hold
    · exact .init
    · exact (hi x hx).step hf

end Reasoning
