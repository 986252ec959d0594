import Keycard.Reasoning.Dict
import Keycard.Reasoning.Machine
import Keycard.Reasoning.Task

/-!
# `KeptRooms`

The rooms paused on disconnect, by username.  Any number of `keep` calls, expiry timers and sweeps
run next to each other and next to `take()`; a `Kept` is known by its identity.
-/

open Reasoning

namespace Keycard

/-- How a `Kept` left the registry. -/
inductive Fate where
  | taken
  | destroyed
  | replaced
deriving DecidableEq, Repr

inductive KeptMark (υ κ : Type) where
  | paused (username : υ) (kept : κ)
  | left (kept : κ) (fate : Fate)
deriving DecidableEq, Repr

def KeptMark.paused? {υ κ : Type} : KeptMark υ κ → Option κ
  | .paused _ kept => some kept
  | .left _ _ => none

/-- One call of `destroy_all`: the items it began with, and while it waits in `destroy_kept`, the
items it has yet to look at and the `Kept` it waits for.  An ended one remembers what was the case
at its end. -/
inductive Sweep (υ κ : Type) where
  | running (began rest : List (υ × κ)) (kept : κ)
  | ended (began : List (υ × κ)) (marks : List (KeptMark υ κ)) (calls : List κ)
deriving DecidableEq, Repr

def Sweep.awaited? {υ κ : Type} : Sweep υ κ → Option κ
  | .running _ _ kept => some kept
  | .ended _ _ _ => none

structure KeptRooms (υ κ : Type) where
  byUsername : Dict υ κ
  /-- `keep` calls waiting in `room.pause()`. -/
  pausing : List υ
  /-- `_expire` tasks whose window has not passed. -/
  sleeping : List (υ × κ)
  /-- `_expire` tasks waiting in `destroy_kept`. -/
  expiring : List κ
  sweeps : List (Sweep υ κ)
  marks : List (KeptMark υ κ)

inductive KeptEvent (υ κ : Type) where
  | keep (username : υ)
  | pauseEnds (username : υ) (reply : Reply κ)
  | take (username : υ)
  | expires (username : υ) (kept : κ)
  | expireEnds (kept : κ)
  | destroyAll
  | sweepEnds (n : Nat) (reply : Outcome)
deriving DecidableEq, Repr

/-- The `Kept` the event puts into the registry. -/
def KeptEvent.registers {υ κ : Type} : KeptEvent υ κ → Option (υ × κ)
  | .pauseEnds username (.returned kept) => some (username, kept)
  | _ => none

namespace KeptRooms

variable {υ κ : Type}

def initial : KeptRooms υ κ where
  byUsername := .empty
  pausing := []
  sleeping := []
  expiring := []
  sweeps := []
  marks := []

/-- The `destroy_kept` calls in flight, but for one that sweep `n` waits for. -/
def callsBut (s : KeptRooms υ κ) (n : Nat) : List κ :=
  s.expiring ++ (s.sweeps.eraseIdx n).filterMap Sweep.awaited?

variable [DecidableEq υ] [DecidableEq κ]

/-- A `Kept` that `pause()` returns is a new object. -/
def isNew (s : KeptRooms υ κ) (kept : κ) : Bool :=
  s.marks.all fun m ↦ m.paused? ≠ some kept

def remove (s : KeptRooms υ κ) (username : υ) (kept : κ) (fate : Fate) : KeptRooms υ κ :=
  { s with
    byUsername := s.byUsername.erase username
    marks := .left kept fate :: s.marks }

def take (s : KeptRooms υ κ) (username : υ) : KeptRooms υ κ :=
  match s.byUsername.get? username with
  | none => s
  | some kept => s.remove username kept .taken

/-- `keep` once the pause has returned. -/
def register (s : KeptRooms υ κ) (username : υ) (kept : κ) : KeptRooms υ κ :=
  { s with
    byUsername := s.byUsername.set username kept
    sleeping := (username, kept) :: s.sleeping
    marks := .paused username kept ::
      ((s.byUsername.get? username).map fun old ↦ KeptMark.left old .replaced).toList ++ s.marks }

/-- `_expire` once the window has passed. -/
def expire (s : KeptRooms υ κ) (username : υ) (kept : κ) : KeptRooms υ κ :=
  -- `is kept`: the entry may be gone, or be a newer `Kept` of the same username
  if s.byUsername.get? username = some kept then
    { s.remove username kept .destroyed with expiring := kept :: s.expiring }
  else s

/-- The loop of `destroy_all` up to its next `destroy_kept`, or to its end. -/
def sweepFrom (s : KeptRooms υ κ) : List (υ × κ) → KeptRooms υ κ × Option (List (υ × κ) × κ)
  | [] => (s, none)
  | (username, kept) :: rest =>
    -- the items are a snapshot, so the entry may have changed since
    if s.byUsername.get? username = some kept then
      (s.remove username kept .destroyed, some (rest, kept))
    else s.sweepFrom rest

/-- `destroy_all` as the `n`-th sweep, with `rest` still to be looked at. -/
def sweepOn (s : KeptRooms υ κ) (n : Nat) (began rest : List (υ × κ)) : KeptRooms υ κ × Sweep υ κ :=
  match s.sweepFrom rest with
  | (t, some (rest, kept)) => (t, .running began rest kept)
  | (t, none) => (t, .ended began t.marks (t.callsBut n))

def sweepEnds (s : KeptRooms υ κ) (n : Nat) (began rest : List (υ × κ)) :
    Outcome → KeptRooms υ κ × Sweep υ κ
  | .returned () => s.sweepOn n began rest
  -- an exception leaves the loop with the rest of the items unvisited
  | .raised => (s, .ended began s.marks (s.callsBut n))
  | .cancelled => (s, .ended began s.marks (s.callsBut n))

def step (s : KeptRooms υ κ) : KeptEvent υ κ → Option (KeptRooms υ κ)
  | .keep username => some { s with pausing := username :: s.pausing }
  | .pauseEnds username reply =>
    if username ∈ s.pausing then
      let s := { s with pausing := s.pausing.erase username }
      match reply with
      | .returned kept => if s.isNew kept then some (s.register username kept) else none
      | .raised => some s
      | .cancelled => some s
    else none
  | .take username => some (s.take username)
  | .expires username kept =>
    if (username, kept) ∈ s.sleeping then
      some ({ s with sleeping := s.sleeping.erase (username, kept) }.expire username kept)
    else none
  -- however the call ends, the task ends with it
  | .expireEnds kept =>
    if kept ∈ s.expiring then some { s with expiring := s.expiring.erase kept } else none
  | .destroyAll =>
    let (t, sweep) := s.sweepOn s.sweeps.length s.byUsername.items s.byUsername.items
    some { t with sweeps := t.sweeps ++ [sweep] }
  | .sweepEnds n reply =>
    match s.sweeps[n]? with
    | some (.running began rest _) =>
      let (t, sweep) := s.sweepEnds n began rest reply
      some { t with sweeps := t.sweeps.set n sweep }
    | _ => none

def machine (υ κ : Type) [DecidableEq υ] [DecidableEq κ] : Machine (KeptRooms υ κ) (KeptEvent υ κ) where
  init := initial
  step := step

end KeptRooms

/-! ## Where a paused room is

What matters about the registry is which `Kept` each username finds.  Every `Kept` that was paused
is found under its username or has left, and it leaves only once. -/

section Accounting

variable {υ κ : Type} [DecidableEq υ]

structure Accounted (found : υ → Option κ) (marks : List (KeptMark υ κ)) : Prop where
  found_or_left : ∀ {u k}, .paused u k ∈ marks → found u = some k ∨ ∃ f, .left k f ∈ marks
  paused_of_found : ∀ {u k}, found u = some k → .paused u k ∈ marks
  not_left : ∀ {u k f}, found u = some k → .left k f ∉ marks
  paused_of_left : ∀ {k f}, .left k f ∈ marks → ∃ u, .paused u k ∈ marks
  left_once : ∀ {k f f'}, .left k f ∈ marks → .left k f' ∈ marks → f = f'
  one_name : ∀ {u u' k}, .paused u k ∈ marks → .paused u' k ∈ marks → u = u'

variable {found : υ → Option κ} {marks : List (KeptMark υ κ)} {u : υ} {k : κ}

theorem Accounted.remove (h : Accounted found marks) (hu : found u = some k) (f : Fate) :
    Accounted (Function.update found u none) (.left k f :: marks) where
  found_or_left := by
    intro u' k' hm
    rcases List.mem_cons.mp hm with hm | hm
    · cases hm
    -- only `k` itself stops being found, and its mark says so
    rcases h.found_or_left hm with hfound | ⟨f', hleft⟩
    · by_cases hne : u' = u
      · subst hne
        rw [hu] at hfound
        cases hfound
        exact .inr ⟨f, List.mem_cons_self⟩
      · exact .inl (by rwa [Function.update_of_ne hne])
    · exact .inr ⟨f', List.mem_cons_of_mem _ hleft⟩
  paused_of_found := by
    intro u' k' hfound
    by_cases hne : u' = u
    · simp [hne] at hfound
    · rw [Function.update_of_ne hne] at hfound
      exact List.mem_cons_of_mem _ (h.paused_of_found hfound)
  not_left := by
    intro u' k' f' hfound hm
    by_cases hne : u' = u
    · simp [hne] at hfound
    rw [Function.update_of_ne hne] at hfound
    rcases List.mem_cons.mp hm with hm | hm
    · cases hm
      -- the same `Kept` under another name
      exact hne (h.one_name (h.paused_of_found hfound) (h.paused_of_found hu))
    · exact h.not_left hfound hm
  paused_of_left := by
    intro k' f' hm
    rcases List.mem_cons.mp hm with hm | hm
    · cases hm
      exact ⟨u, List.mem_cons_of_mem _ (h.paused_of_found hu)⟩
    · obtain ⟨u', hp⟩ := h.paused_of_left hm
      exact ⟨u', List.mem_cons_of_mem _ hp⟩
  left_once := by
    intro k' f₁ f₂ h₁ h₂
    have hnew (f' : Fate) : .left k f' ∉ marks := h.not_left hu
    rcases List.mem_cons.mp h₁ with h₁ | h₁ <;> rcases List.mem_cons.mp h₂ with h₂ | h₂
    · cases h₁
      cases h₂
      rfl
    · cases h₁
      exact absurd h₂ (hnew f₂)
    · cases h₂
      exact absurd h₁ (hnew f₁)
    · exact h.left_once h₁ h₂
  one_name := by
    intro u₁ u₂ k' h₁ h₂
    simp only [List.mem_cons, reduceCtorEq, false_or] at h₁ h₂
    exact h.one_name h₁ h₂

theorem Accounted.add (h : Accounted found marks) (hu : found u = none)
    (hk : ∀ u', .paused u' k ∉ marks) :
    Accounted (Function.update found u (some k)) (.paused u k :: marks) where
  found_or_left := by
    intro u' k' hm
    rcases List.mem_cons.mp hm with hm | hm
    · cases hm
      exact .inl (Function.update_self ..)
    rcases h.found_or_left hm with hfound | ⟨f, hleft⟩
    · have hne : u' ≠ u := by
        rintro rfl
        rw [hu] at hfound
        cases hfound
      exact .inl (by rwa [Function.update_of_ne hne])
    · exact .inr ⟨f, List.mem_cons_of_mem _ hleft⟩
  paused_of_found := by
    intro u' k' hfound
    by_cases hne : u' = u
    · subst hne
      rw [Function.update_self] at hfound
      cases hfound
      exact List.mem_cons_self
    · rw [Function.update_of_ne hne] at hfound
      exact List.mem_cons_of_mem _ (h.paused_of_found hfound)
  not_left := by
    intro u' k' f hfound hm
    simp only [List.mem_cons, reduceCtorEq, false_or] at hm
    by_cases hne : u' = u
    · subst hne
      rw [Function.update_self] at hfound
      cases hfound
      obtain ⟨u'', hp⟩ := h.paused_of_left hm
      exact hk u'' hp
    · rw [Function.update_of_ne hne] at hfound
      exact h.not_left hfound hm
  paused_of_left := by
    intro k' f hm
    simp only [List.mem_cons, reduceCtorEq, false_or] at hm
    obtain ⟨u', hp⟩ := h.paused_of_left hm
    exact ⟨u', List.mem_cons_of_mem _ hp⟩
  left_once := by
    intro k' f₁ f₂ h₁ h₂
    simp only [List.mem_cons, reduceCtorEq, false_or] at h₁ h₂
    exact h.left_once h₁ h₂
  one_name := by
    intro u₁ u₂ k' h₁ h₂
    rcases List.mem_cons.mp h₁ with h₁ | h₁ <;> rcases List.mem_cons.mp h₂ with h₂ | h₂
    · cases h₁
      cases h₂
      rfl
    · cases h₁
      exact absurd h₂ (hk u₂)
    · cases h₂
      exact absurd h₁ (hk u₁)
    · exact h.one_name h₁ h₂

end Accounting

namespace KeptRooms

section Statements

variable {υ κ : Type}

theorem not_paused_of_isNew [DecidableEq κ] {s : KeptRooms υ κ} {k : κ} (h : s.isNew k = true)
    (u : υ) : .paused u k ∉ s.marks := by
  intro hm
  have hne := List.all_eq_true.mp h _ hm
  simp [KeptMark.paused?] at hne

variable [DecidableEq υ]

def Accounted (s : KeptRooms υ κ) : Prop :=
  Keycard.Accounted s.byUsername.get? s.marks

/-- Every paused room is registered, taken, or passed to `destroy_kept`. -/
def Conserved (s : KeptRooms υ κ) : Prop :=
  ∀ u k, .paused u k ∈ s.marks →
    s.byUsername.get? u = some k ∨ .left k .taken ∈ s.marks ∨ .left k .destroyed ∈ s.marks

/-- No pause returns while its username has another room registered. -/
def Unoccupied (s : KeptRooms υ κ) (e : KeptEvent υ κ) : Prop :=
  ∀ u k, e.registers = some (u, k) → s.byUsername.get? u = none

instance (s : KeptRooms υ κ) (e : KeptEvent υ κ) : Decidable (s.Unoccupied e) :=
  decidable_of_iff (∀ entry ∈ e.registers, s.byUsername.get? entry.1 = none)
    ⟨fun h u k hentry ↦ h (u, k) hentry, fun h entry hentry ↦ h entry.1 entry.2 hentry⟩

theorem Accounted.conserved_iff {s : KeptRooms υ κ} (h : s.Accounted) :
    s.Conserved ↔ ∀ k, .left k .replaced ∉ s.marks := by
  constructor
  · intro hs k hm
    obtain ⟨u, hp⟩ := h.paused_of_left hm
    rcases hs u k hp with hfound | htaken | hdestroyed
    · exact h.not_left hfound hm
    · cases h.left_once hm htaken
    · cases h.left_once hm hdestroyed
  · intro hnone u k hp
    rcases h.found_or_left hp with hfound | ⟨f, hm⟩
    · exact .inl hfound
    · cases f with
      | taken => exact .inr (.inl hm)
      | destroyed => exact .inr (.inr hm)
      | replaced => exact absurd hm (hnone k)

end Statements

variable {υ κ : Type} [DecidableEq υ] [DecidableEq κ]

/-! ## What a step does to the registry -/

inductive Change (s t : KeptRooms υ κ) : Option (υ × κ) → Prop
  | same : t.byUsername = s.byUsername → t.marks = s.marks → Change s t none
  | removed (u : υ) (k : κ) (f : Fate) : s.byUsername.get? u = some k → f ≠ .replaced →
      t.byUsername = s.byUsername.erase u → t.marks = .left k f :: s.marks → Change s t none
  | registered (u : υ) (k : κ) : s.isNew k = true → t.byUsername = s.byUsername.set u k →
      t.marks = .paused u k ::
        ((s.byUsername.get? u).map fun old ↦ KeptMark.left old .replaced).toList ++ s.marks →
      Change s t (some (u, k))

theorem sweepFrom_change (s : KeptRooms υ κ) (rest : List (υ × κ)) :
    Change s (s.sweepFrom rest).1 none := by
  induction rest with
  | nil => exact .same rfl rfl
  | cons p rest ih =>
    obtain ⟨u, k⟩ := p
    by_cases h : s.byUsername.get? u = some k
    · rw [sweepFrom, if_pos h]
      exact .removed u k .destroyed h (by decide) rfl rfl
    · rw [sweepFrom, if_neg h]
      exact ih

/-- The list of sweeps is no part of a change. -/
theorem Change.with_sweeps {s t : KeptRooms υ κ} {p : Option (υ × κ)} (h : Change s t p)
    (sweeps : List (Sweep υ κ)) : Change s { t with sweeps := sweeps } p := by
  cases h with
  | same hb hm => exact .same hb hm
  | removed u k f hu hf hb hm => exact .removed u k f hu hf hb hm
  | registered u k hk hb hm => exact .registered u k hk hb hm

theorem sweepOn_fst (s : KeptRooms υ κ) (n : Nat) (began rest : List (υ × κ)) :
    (s.sweepOn n began rest).1 = (s.sweepFrom rest).1 := by
  unfold sweepOn
  split <;> rename_i h <;> rw [h]

theorem sweepEnds_change (s : KeptRooms υ κ) (n : Nat) (began rest : List (υ × κ)) (reply : Outcome) :
    Change s (s.sweepEnds n began rest reply).1 none := by
  cases reply with
  | returned =>
    rw [sweepEnds, sweepOn_fst]
    exact sweepFrom_change s rest
  | raised => exact .same rfl rfl
  | cancelled => exact .same rfl rfl

theorem step_change {s t : KeptRooms υ κ} {e : KeptEvent υ κ} (h : s.step e = some t) :
    Change s t e.registers := by
  cases e with
  | keep u =>
    cases h
    exact .same rfl rfl
  | pauseEnds u reply =>
    simp only [step] at h
    split at h
    case isFalse => cases h
    cases reply with
    | returned k =>
      dsimp only at h
      split at h
      · rename_i hk
        cases h
        exact .registered u k hk rfl rfl
      · cases h
    | raised =>
      cases h
      exact .same rfl rfl
    | cancelled =>
      cases h
      exact .same rfl rfl
  | take u =>
    cases h
    unfold take
    split
    · exact .same rfl rfl
    · rename_i k hk
      exact .removed u k .taken hk (by decide) rfl rfl
  | expires u k =>
    simp only [step] at h
    split at h
    case isFalse => cases h
    cases h
    unfold expire
    split
    · rename_i hk
      exact .removed u k .destroyed hk (by decide) rfl rfl
    · exact .same rfl rfl
  | expireEnds k =>
    simp only [step] at h
    split at h
    · cases h
      exact .same rfl rfl
    · cases h
  | destroyAll =>
    cases h
    have hc := sweepFrom_change s s.byUsername.items
    rw [← sweepOn_fst s s.sweeps.length s.byUsername.items] at hc
    exact hc.with_sweeps _
  | sweepEnds n reply =>
    simp only [step] at h
    split at h
    case h_2 => cases h
    rename_i began rest kept _
    cases h
    exact (sweepEnds_change s n began rest reply).with_sweeps _

/-! ## Every paused room is accounted for -/

theorem Change.accounted {s t : KeptRooms υ κ} {p : Option (υ × κ)} (h : Change s t p)
    (hs : s.Accounted) : t.Accounted := by
  unfold Accounted at *
  cases h with
  | same hb hm => rwa [hb, hm]
  | removed u k f hu hf hb hm =>
    rw [hb, hm, Dict.get?_erase]
    exact hs.remove hu f
  | registered u k hk hb hm =>
    have hnew := not_paused_of_isNew hk
    rw [hb, hm, Dict.get?_set]
    cases hu : s.byUsername.get? u with
    | none => exact hs.add hu hnew
    | some old =>
      -- what the username found before is replaced first
      have hgone : Function.update s.byUsername.get? u none u = none := by
        rw [Function.update_self]
      have hadd := (hs.remove hu .replaced).add hgone fun u' hm' ↦ hnew u' (by simpa using hm')
      rwa [Function.update_idem] at hadd

theorem reachable_accounted {s : KeptRooms υ κ} (h : (machine υ κ).Reachable s) : s.Accounted :=
  h.invariant
    ⟨by simp [machine, initial], by simp [machine, initial], by simp [machine, initial],
      by simp [machine, initial], by simp [machine, initial], by simp [machine, initial]⟩
    fun _ _ _ _ hs hst ↦ (step_change hst).accounted hs

/-! ## No paused room is lost -/

/-- A room is replaced exactly when another one is registered under its username. -/
theorem Change.replaced_iff {s t : KeptRooms υ κ} {p : Option (υ × κ)} (h : Change s t p) (old : κ) :
    .left old .replaced ∈ t.marks ↔
      .left old .replaced ∈ s.marks ∨ ∃ u k, p = some (u, k) ∧ s.byUsername.get? u = some old := by
  cases h with
  | same hb hm => simp [hm]
  | removed u k f hu hf hb hm => simp [hm, hf.symm]
  | registered u k hk hb hm =>
    rw [hm]
    cases hu : s.byUsername.get? u with
    | none => simp [hu]
    | some old' => simp [hu, eq_comm, or_comm]

theorem none_replaced_iff {s t : KeptRooms υ κ} {e : KeptEvent υ κ} (h : s.step e = some t)
    (hs : ∀ k, .left k .replaced ∉ s.marks) :
    (∀ k, .left k .replaced ∉ t.marks) ↔ Unoccupied s e := by
  have hiff (k : κ) := (step_change h).replaced_iff k
  constructor
  · intro ht u k he
    rw [Option.eq_none_iff_forall_ne_some]
    intro old hu
    exact ht old ((hiff old).mpr (.inr ⟨u, k, he, hu⟩))
  · intro hok k hm
    rcases (hiff k).mp hm with hm | ⟨u, k', he, hu⟩
    · exact hs k hm
    · rw [hok u k' he] at hu
      cases hu

theorem reached_none_replaced {s : KeptRooms υ κ} (h : (machine υ κ).ReachedBy Unoccupied s) (k : κ) :
    .left k .replaced ∉ s.marks :=
  h.invariant (I := fun s ↦ ∀ k, .left k .replaced ∉ s.marks) (fun _ ↦ List.not_mem_nil)
    (fun _ _ _ _ hs hok hst ↦ (none_replaced_iff hst hs).mpr hok) k

/-- A run loses no paused room exactly if it never registers one over another. -/
theorem conserved_iff_unoccupied {s : KeptRooms υ κ} {es : List (KeptEvent υ κ)}
    (h : (machine υ κ).run .initial es = some s) :
    (machine υ κ).Keeps Conserved .initial es ↔ (machine υ κ).Follows Unoccupied .initial es := by
  refine Machine.ReachedBy.keeps_iff_follows ?_ ?_ .init h
  · intro s hs
    exact (reachable_accounted hs.reachable).conserved_iff.mpr (reached_none_replaced hs)
  · intro s e t hs hst ht
    have hacc : t.Accounted := reachable_accounted (hs.reachable.step hst)
    exact (none_replaced_iff hst (reached_none_replaced hs)).mp (hacc.conserved_iff.mp ht)

/-- Two sessions of one username drop, and the second pause returns while the first room is still
kept: nothing leads to that room any more, not even its own timer. -/
def bothDrop : List (KeptEvent Nat Nat) :=
  [.keep 0, .keep 0, .pauseEnds 0 (.returned 1), .pauseEnds 0 (.returned 2), .expires 0 1]

theorem bothDrop_loses : ¬ ∀ (es : List (KeptEvent Nat Nat)) (s : KeptRooms Nat Nat),
    (machine Nat Nat).run .initial es = some s → s.Conserved := by
  intro h
  have hkept := h bothDrop _ rfl 0 1 (by decide)
  exact absurd hkept (by decide)

/-- One username drops and comes back, another one runs out of its window. -/
def dropAndReturn : List (KeptEvent Nat Nat) :=
  [.keep 0, .pauseEnds 0 (.returned 1), .keep 5, .take 0, .pauseEnds 5 (.returned 2), .expires 5 2,
    .expireEnds 2, .keep 0, .pauseEnds 0 (.returned 3), .expires 0 1, .destroyAll]

theorem dropAndReturn_conserved :
    ∃ s, (machine Nat Nat).run .initial dropAndReturn = some s ∧ .paused 0 3 ∈ s.marks ∧
      (machine Nat Nat).Keeps Conserved .initial dropAndReturn :=
  ⟨_, rfl, by decide, (conserved_iff_unoccupied rfl).mpr (by decide)⟩

end KeptRooms

end Keycard
