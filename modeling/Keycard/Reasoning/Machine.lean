import Mathlib.Data.List.Induction
import Mathlib.Data.Option.Basic

/-!
# Machines and their runs

A machine has one initial state and a partial step function over labels: `step s e` is `none` when
`e` is not possible in `s`.  A schedule is a list of labels.  Everything here is about arbitrary
states and labels: reachability under a condition on the steps, the invariant rule, and the two
ways of speaking about every state and every step of one run.
-/

namespace Reasoning

universe u v

structure Machine (σ : Type u) (ε : Type v) where
  init : σ
  step : σ → ε → Option σ

namespace Machine

variable {σ : Type u} {ε : Type v} (m : Machine σ ε)

/-- The state a schedule leads to, if every one of its steps is possible. -/
def run : σ → List ε → Option σ
  | s, [] => some s
  | s, e :: es => (m.step s e).bind fun t ↦ run t es

/-- States reached by runs each of whose steps meets `ok` in the state it starts from. -/
inductive ReachedBy (ok : σ → ε → Prop) : σ → Prop
  | init : ReachedBy ok m.init
  | step {s t : σ} {e : ε} : ReachedBy ok s → ok s e → m.step s e = some t → ReachedBy ok t

/-- States reached by any run at all. -/
def Reachable : σ → Prop :=
  m.ReachedBy fun _ _ ↦ True

/-- `P` holds in the state the schedule starts from and in every state along it. -/
def Keeps (P : σ → Prop) : σ → List ε → Prop
  | s, [] => P s
  | s, e :: es => P s ∧ ∀ t, m.step s e = some t → Keeps P t es

/-- Every step of the schedule meets `ok` in the state it is taken in. -/
def Follows (ok : σ → ε → Prop) : σ → List ε → Prop
  | _, [] => True
  | s, e :: es => ok s e ∧ ∀ t, m.step s e = some t → Follows ok t es

/-- The same machine without the labels that `p` rules out. -/
def restrict (p : ε → Bool) : Machine σ ε where
  init := m.init
  step s e := if p e then m.step s e else none

variable {m}

theorem restrict_step {p : ε → Bool} {s t : σ} {e : ε} (h : (m.restrict p).step s e = some t) :
    p e = true ∧ m.step s e = some t := by
  simp only [restrict] at h
  split at h
  · exact ⟨‹_›, h⟩
  · cases h

theorem run_append {s t : σ} {es : List ε} (fs : List ε) (h : m.run s es = some t) :
    m.run s (es ++ fs) = m.run t fs := by
  induction es generalizing s with
  | nil =>
    simp only [run, Option.some.injEq] at h
    rw [List.nil_append, h]
  | cons e es ih =>
    obtain ⟨u, hu, hrun⟩ := Option.bind_eq_some_iff.mp h
    simp only [List.cons_append, run, hu, Option.bind_some]
    exact ih hrun

theorem run_append_none {s : σ} {es : List ε} (fs : List ε) (h : m.run s es = none) :
    m.run s (es ++ fs) = none := by
  induction es generalizing s with
  | nil => cases h
  | cons e es ih =>
    rw [run, Option.bind_eq_none_iff] at h
    rw [List.cons_append, run, Option.bind_eq_none_iff]
    exact fun u hu ↦ ih (h u hu)

/-- Induction over a run from its end: what relates the labels so far to the state reached. -/
theorem run_induction {P : List ε → σ → Prop} {t : σ} {es : List ε} (hrun : m.run m.init es = some t)
    (hinit : P [] m.init)
    (hstep : ∀ es s e t, P es s → m.step s e = some t → P (es ++ [e]) t) : P es t := by
  induction es using List.reverseRecOn generalizing t with
  | nil =>
    simp only [run, Option.some.injEq] at hrun
    exact hrun ▸ hinit
  | append_singleton es e ih =>
    have hsplit : ∃ s, m.run m.init es = some s := by
      rw [← Option.isSome_iff_exists, Option.isSome_iff_ne_none]
      intro hnone
      rw [run_append_none [e] hnone] at hrun
      cases hrun
    obtain ⟨s, hs⟩ := hsplit
    rw [run_append [e] hs] at hrun
    obtain ⟨u, hu, hrest⟩ := Option.bind_eq_some_iff.mp hrun
    simp only [run, Option.some.injEq] at hrest
    exact hstep es s e t (ih hs) (hrest ▸ hu)

theorem ReachedBy.mono {ok ok' : σ → ε → Prop} {s : σ} (h : m.ReachedBy ok s)
    (hok : ∀ s e, ok s e → ok' s e) : m.ReachedBy ok' s := by
  induction h with
  | init => exact .init
  | step _ he hstep ih => exact .step ih (hok _ _ he) hstep

theorem ReachedBy.reachable {ok : σ → ε → Prop} {s : σ} (h : m.ReachedBy ok s) :
    m.Reachable s :=
  h.mono fun _ _ _ ↦ trivial

theorem Reachable.init : m.Reachable m.init :=
  ReachedBy.init

theorem Reachable.step {s t : σ} {e : ε} (h : m.Reachable s) (hstep : m.step s e = some t) :
    m.Reachable t :=
  ReachedBy.step h trivial hstep

/-- The invariant rule.  A step may use that the state it starts from was itself reached, so one
invariant can lean on another that is already proved. -/
theorem ReachedBy.invariant {ok : σ → ε → Prop} {I : σ → Prop} {s : σ} (h : m.ReachedBy ok s)
    (hinit : I m.init)
    (hstep : ∀ s e t, m.ReachedBy ok s → I s → ok s e → m.step s e = some t → I t) : I s := by
  induction h with
  | init => exact hinit
  | step hs he hst ih => exact hstep _ _ _ hs ih he hst

theorem Reachable.invariant {I : σ → Prop} {s : σ} (h : m.Reachable s) (hinit : I m.init)
    (hstep : ∀ s e t, m.Reachable s → I s → m.step s e = some t → I t) : I s :=
  ReachedBy.invariant h hinit fun s e t hs hi _ hst ↦ hstep s e t hs hi hst

theorem Reachable.run {s t : σ} {es : List ε} (h : m.Reachable s) (hrun : m.run s es = some t) :
    m.Reachable t := by
  induction es generalizing s with
  | nil =>
    simp only [Machine.run, Option.some.injEq] at hrun
    exact hrun ▸ h
  | cons e es ih =>
    obtain ⟨u, hu, hrest⟩ := Option.bind_eq_some_iff.mp hrun
    exact ih (h.step hu) hrest

theorem Reachable.of_run {s : σ} {es : List ε} (hrun : m.run m.init es = some s) :
    m.Reachable s :=
  Reachable.init.run hrun

theorem Reachable.of_restrict {p : ε → Bool} {s : σ} (h : (m.restrict p).Reachable s) :
    m.Reachable s :=
  h.invariant .init fun _ _ _ _ hi hst ↦ hi.step (restrict_step hst).2

/-- A run whose every step meets `ok` reaches only states that are reached by `ok`. -/
theorem ReachedBy.run {ok : σ → ε → Prop} {s t : σ} {es : List ε} (h : m.ReachedBy ok s)
    (hok : m.Follows ok s es) (hrun : m.run s es = some t) : m.ReachedBy ok t := by
  induction es generalizing s with
  | nil =>
    simp only [Machine.run, Option.some.injEq] at hrun
    exact hrun ▸ h
  | cons e es ih =>
    obtain ⟨u, hu, hrest⟩ := Option.bind_eq_some_iff.mp hrun
    exact ih (h.step hok.1 hu) (hok.2 u hu) hrest

theorem Follows.cons {ok : σ → ε → Prop} {s t : σ} {e : ε} {es : List ε} (he : ok s e)
    (hstep : m.step s e = some t) (h : m.Follows ok t es) : m.Follows ok s (e :: es) := by
  refine ⟨he, fun u hu ↦ ?_⟩
  rw [hstep] at hu
  cases hu
  exact h

theorem follows_of_forall {ok : σ → ε → Prop} {es : List ε} (h : ∀ e ∈ es, ∀ s, ok s e) (s : σ) :
    m.Follows ok s es := by
  induction es generalizing s with
  | nil => exact trivial
  | cons e es ih =>
    exact ⟨h e List.mem_cons_self s, fun t _ ↦ ih (fun f hf ↦ h f (List.mem_cons_of_mem e hf)) t⟩

/-- If a step that breaks `ok` leads into `B`, and `B` is never left, then a run that ends outside `B`
meets `ok` in every step. -/
theorem Reachable.follows_of_trap {ok : σ → ε → Prop} {B : σ → Prop}
    (hbreak : ∀ s e t, m.Reachable s → m.step s e = some t → ¬ ok s e → B t)
    (htrap : ∀ s e t, m.Reachable s → m.step s e = some t → B s → B t)
    {s t : σ} {es : List ε} (h : m.Reachable s) (hrun : m.run s es = some t) (ht : ¬ B t) :
    ¬ B s ∧ m.Follows ok s es := by
  induction es generalizing s with
  | nil =>
    simp only [Machine.run, Option.some.injEq] at hrun
    exact ⟨hrun ▸ ht, trivial⟩
  | cons e es ih =>
    obtain ⟨u, hu, hrest⟩ := Option.bind_eq_some_iff.mp hrun
    obtain ⟨hnot, hf⟩ := ih (h.step hu) hrest
    exact ⟨fun hs ↦ hnot (htrap s e u h hu hs),
      .cons (Classical.byContradiction fun hok ↦ hnot (hbreak s e u h hu hok)) hu hf⟩

instance Follows.decidable (ok : σ → ε → Prop) [∀ s e, Decidable (ok s e)] :
    ∀ (s : σ) (es : List ε), Decidable (m.Follows ok s es)
  | _, [] => .isTrue trivial
  | s, e :: es =>
    match h : m.step s e with
    | none => decidable_of_iff (ok s e) ⟨fun he ↦ ⟨he, by simp [h]⟩, And.left⟩
    | some t =>
      have := Follows.decidable ok t es
      decidable_of_iff (ok s e ∧ m.Follows ok t es)
        ⟨fun hok ↦ .cons hok.1 h hok.2, fun hok ↦ ⟨hok.1, hok.2 t h⟩⟩

/-- When a step keeps `P` exactly if it meets `ok`, a run keeps `P` in all its states exactly if
all its steps meet `ok`. -/
theorem ReachedBy.keeps_iff_follows {ok : σ → ε → Prop} {P : σ → Prop}
    (hP : ∀ s, m.ReachedBy ok s → P s)
    (hstep : ∀ s e t, m.ReachedBy ok s → m.step s e = some t → P t → ok s e)
    {s t : σ} {es : List ε} (h : m.ReachedBy ok s) (hrun : m.run s es = some t) :
    m.Keeps P s es ↔ m.Follows ok s es := by
  induction es generalizing s with
  | nil => exact ⟨fun _ ↦ trivial, fun _ ↦ hP s h⟩
  | cons e es ih =>
    obtain ⟨u, hu, hrest⟩ := Option.bind_eq_some_iff.mp hrun
    have hstart (hk : m.Keeps P u es) : P u := by
      cases es with
      | nil => exact hk
      | cons => exact hk.1
    constructor
    · rintro ⟨-, hk⟩
      have hok : ok s e := hstep s e u h hu (hstart (hk u hu))
      refine ⟨hok, fun v hv ↦ ?_⟩
      have huv : u = v := Option.some.inj (hu.symm.trans hv)
      exact huv ▸ (ih (h.step hok hu) hrest).mp (hk u hu)
    · rintro ⟨hok, hf⟩
      refine ⟨hP s h, fun v hv ↦ ?_⟩
      have huv : u = v := Option.some.inj (hu.symm.trans hv)
      exact huv ▸ (ih (h.step hok hu) hrest).mpr (hf u hu)

end Machine

/-! ## Runs of some of the labels -/

/-- From `s` there is a run to a state with `Q` all of whose labels `p` allows. -/
inductive Machine.Attains {σ : Type u} {ε : Type v} (m : Machine σ ε) (p : ε → Bool) (Q : σ → Prop) :
    σ → Prop
  | here {s : σ} : Q s → m.Attains p Q s
  | step {s t : σ} {e : ε} : p e = true → m.step s e = some t → m.Attains p Q t → m.Attains p Q s

namespace Machine

variable {σ : Type u} {ε : Type v} {m : Machine σ ε} {p : ε → Bool} {Q : σ → Prop}

theorem attains_iff_run {s : σ} :
    m.Attains p Q s ↔ ∃ es t, (∀ e ∈ es, p e = true) ∧ m.run s es = some t ∧ Q t := by
  constructor
  · intro h
    induction h with
    | here hq => exact ⟨[], _, by simp, rfl, hq⟩
    | @step s t e he hst _ ih =>
      obtain ⟨es, u, hes, hrun, hq⟩ := ih
      refine ⟨e :: es, u, ?_, ?_, hq⟩
      · exact List.forall_mem_cons.mpr ⟨he, hes⟩
      · rw [Machine.run, hst]
        exact hrun
  · rintro ⟨es, t, hes, hrun, hq⟩
    induction es generalizing s with
    | nil =>
      simp only [Machine.run, Option.some.injEq] at hrun
      exact .here (hrun ▸ hq)
    | cons e es ih =>
      obtain ⟨u, hu, hrest⟩ := Option.bind_eq_some_iff.mp hrun
      exact .step (hes e List.mem_cons_self) hu (ih (fun e he ↦ hes e (List.mem_cons_of_mem _ he)) hrest)

/-- What the allowed labels preserve, and what excludes `Q`, keeps `Q` out of reach. -/
theorem not_attains {I : σ → Prop} (hstep : ∀ s e t, I s → p e = true → m.step s e = some t → I t)
    (hnot : ∀ s, I s → ¬ Q s) {s : σ} (hs : I s) : ¬ m.Attains p Q s := by
  intro h
  induction h with
  | here hq => exact hnot _ hs hq
  | step he hst _ ih => exact ih (hstep _ _ _ hs he hst)

theorem Reachable.keeps_congr {P P' : σ → Prop} (h : ∀ s, m.Reachable s → (P s ↔ P' s)) {s : σ}
    (hs : m.Reachable s) (es : List ε) : m.Keeps P s es ↔ m.Keeps P' s es := by
  induction es generalizing s with
  | nil => exact h s hs
  | cons e es ih => exact and_congr (h s hs) (forall_congr' fun t ↦ forall_congr' fun ht ↦ ih (hs.step ht))

/-! ## What a run puts out -/

section Trace

variable {α : Type v} {out : σ → ε → List α}

/-- What the steps of a run put out, in order. -/
def trace (m : Machine σ ε) (out : σ → ε → List α) : σ → List ε → List α
  | _, [] => []
  | s, e :: es =>
    match m.step s e with
    | none => []
    | some t => out s e ++ trace m out t es

theorem trace_append {s t : σ} {es : List ε} (fs : List ε) (h : m.run s es = some t) :
    m.trace out s (es ++ fs) = m.trace out s es ++ m.trace out t fs := by
  induction es generalizing s with
  | nil =>
    simp only [run, Option.some.injEq] at h
    rw [h]
    rfl
  | cons e es ih =>
    obtain ⟨u, hu, hrun⟩ := Option.bind_eq_some_iff.mp h
    simp only [List.cons_append, trace, hu, List.append_assoc]
    rw [ih hrun]

/-- Where every step adds to `f` what it puts out, `f` of the state reached is the whole of it. -/
theorem trace_eq {f : σ → List α} (hstep : ∀ s e t, m.step s e = some t → f t = f s ++ out s e) {s t : σ}
    {es : List ε} (h : m.run s es = some t) : f t = f s ++ m.trace out s es := by
  induction es generalizing s with
  | nil =>
    simp only [run, Option.some.injEq] at h
    rw [h, trace, List.append_nil]
  | cons e es ih =>
    obtain ⟨u, hu, hrun⟩ := Option.bind_eq_some_iff.mp h
    simp only [trace, hu]
    rw [ih hrun, hstep s e u hu, List.append_assoc]

end Trace

end Machine

/-! ## Schedules as histories -/

/-- One of the labels so far is of the kind `p`. -/
def Happened {ε : Type v} (p : ε → Bool) (es : List ε) : Prop :=
  ∃ e ∈ es, p e = true

instance Happened.decidable {ε : Type v} (p : ε → Bool) (es : List ε) : Decidable (Happened p es) :=
  inferInstanceAs (Decidable (∃ e ∈ es, p e = true))

theorem not_happened_nil {ε : Type v} (p : ε → Bool) : ¬ Happened p [] := by
  rintro ⟨e, hm, -⟩
  exact List.not_mem_nil hm

@[grind =] theorem happened_append {ε : Type v} {p : ε → Bool} {es : List ε} {e : ε} :
    Happened p (es ++ [e]) ↔ Happened p es ∨ p e = true := by
  constructor
  · rintro ⟨e', hm, hp⟩
    rcases List.mem_append.mp hm with hm | hm
    · exact .inl ⟨e', hm, hp⟩
    · exact .inr (List.mem_singleton.mp hm ▸ hp)
  · rintro (⟨e', hm, hp⟩ | hp)
    · exact ⟨e', List.mem_append_left _ hm, hp⟩
    · exact ⟨e, List.mem_append_right _ (List.mem_singleton.mpr rfl), hp⟩

/-! ## Moves of a coarser system

A step of a machine is often several moves of the model above it.  `Moves R ok` is a sequence of
labelled moves whose labels all meet `ok`. -/

inductive Moves {τ : Type u} {α : Type v} (R : τ → α → τ → Prop) (ok : α → Prop) : τ → τ → Prop
  | refl (x : τ) : Moves R ok x x
  | head {x y z : τ} {a : α} : ok a → R x a y → Moves R ok y z → Moves R ok x z

namespace Moves

variable {τ : Type u} {α : Type v} {R : τ → α → τ → Prop} {ok ok' : α → Prop} {x y z : τ}

theorem single {a : α} (ha : ok a) (h : R x a y) : Moves R ok x y :=
  .head ha h (.refl y)

theorem trans (h : Moves R ok x y) (h' : Moves R ok y z) : Moves R ok x z := by
  induction h with
  | refl => exact h'
  | head ha hr _ ih => exact .head ha hr (ih h')

theorem mono (h : Moves R ok x y) (hok : ∀ a, ok a → ok' a) : Moves R ok' x y := by
  induction h with
  | refl => exact .refl _
  | head ha hr _ ih => exact .head (hok _ ha) hr ih

/-- What every move with an allowed label preserves, a sequence of them preserves. -/
theorem invariant {I : τ → Prop} (h : Moves R ok x y) (hx : I x)
    (hstep : ∀ x a y, I x → ok a → R x a y → I y) : I y := by
  induction h with
  | refl => exact hx
  | head ha hr _ ih => exact ih (hstep _ _ _ hx ha hr)

end Moves

end Reasoning
