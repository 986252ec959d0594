import Keycard.Session.KeptRooms

/-!
# `destroy_all`

The sweep deletes an entry before it awaits its destruction, and so does an expiry timer.  Whether
everything is destroyed when a sweep ends depends on how its last `destroy_kept` came back, on what
is still registered then, and on the calls that others have in flight.
-/

open Reasoning

namespace Keycard.KeptRooms

variable {υ κ : Type} [DecidableEq υ]

/-- Whether the loop will find something to destroy among `rest`. -/
def Pending (s : KeptRooms υ κ) (rest : List (υ × κ)) : Prop :=
  ∃ u k, (u, k) ∈ rest ∧ s.byUsername.get? u = some k

/-- When a sweep has ended, `destroy_kept` had been called for all it began with, and no such call
was still running. -/
def Swept (s : KeptRooms υ κ) : Prop :=
  ∀ began marks calls, .ended began marks calls ∈ s.sweeps →
    (∀ u k, (u, k) ∈ began → .left k .destroyed ∈ marks) ∧ calls = []

/-- Nothing that the sweep began with has been taken, or replaced by a later room. -/
def Undiverted (s : KeptRooms υ κ) (began : List (υ × κ)) : Prop :=
  ∀ u k, (u, k) ∈ began → .left k .taken ∉ s.marks ∧ .left k .replaced ∉ s.marks

/-- The condition on a step.  While the sweep has something left to destroy, its `destroy_kept` calls
return; and when it has not, nothing went another way and no other call is in flight. -/
def SweepsOut (s : KeptRooms υ κ) : KeptEvent υ κ → Prop
  | .destroyAll => s.byUsername.items = [] → s.callsBut s.sweeps.length = []
  | .sweepEnds n reply => ∀ began rest kept, s.sweeps[n]? = some (.running began rest kept) →
      (s.Pending rest → reply = .returned ()) ∧
        (¬ s.Pending rest → s.Undiverted began ∧ s.callsBut n = [])
  | _ => True

instance Pending.decidable [DecidableEq κ] (s : KeptRooms υ κ) (rest : List (υ × κ)) :
    Decidable (s.Pending rest) :=
  decidable_of_iff (∃ p ∈ rest, s.byUsername.get? p.1 = some p.2)
    ⟨fun ⟨(u, k), hm, hf⟩ ↦ ⟨u, k, hm, hf⟩, fun ⟨u, k, hm, hf⟩ ↦ ⟨(u, k), hm, hf⟩⟩

instance Undiverted.decidable [DecidableEq κ] (s : KeptRooms υ κ) (began : List (υ × κ)) :
    Decidable (s.Undiverted began) :=
  decidable_of_iff
    (∀ p ∈ began, KeptMark.left p.2 .taken ∉ s.marks ∧ KeptMark.left p.2 .replaced ∉ s.marks)
    ⟨fun h u k hm ↦ h (u, k) hm, fun h p hm ↦ h p.1 p.2 hm⟩

instance SweepsOut.decidable [DecidableEq κ] (s : KeptRooms υ κ) :
    ∀ e, Decidable (s.SweepsOut e)
  | .sweepEnds n reply =>
    match h : s.sweeps[n]? with
    | some (.running began rest kept) =>
      decidable_of_iff ((s.Pending rest → reply = .returned ()) ∧
          (¬ s.Pending rest → s.Undiverted began ∧ s.callsBut n = [])) <| by
        simp [SweepsOut, h]
    | some (.ended _ _ _) => .isTrue fun _ _ _ hrun ↦ by simp [h] at hrun
    | none => .isTrue fun _ _ _ hrun ↦ by simp [h] at hrun
  | .destroyAll =>
    inferInstanceAs (Decidable (s.byUsername.items = [] → s.callsBut s.sweeps.length = []))
  | .keep _ | .pauseEnds _ _ | .take _ | .expires _ _ | .expireEnds _ => .isTrue trivial

/-- A sweep that began with paused rooms, none of which is registered any more once it has been
looked at. -/
structure Visited (s : KeptRooms υ κ) (began rest : List (υ × κ)) : Prop where
  paused : ∀ u k, (u, k) ∈ began → .paused u k ∈ s.marks
  subset : rest ⊆ began
  gone : ∀ u k, (u, k) ∈ began → (u, k) ∉ rest → s.byUsername.get? u ≠ some k

theorem Visited.destroyed_iff {s : KeptRooms υ κ} {began rest : List (υ × κ)}
    (h : s.Visited began rest) (hs : s.Accounted) :
    (∀ u k, (u, k) ∈ began → .left k .destroyed ∈ s.marks) ↔
      ¬ s.Pending rest ∧ s.Undiverted began := by
  constructor
  · intro hall
    refine ⟨?_, fun u k hm ↦ ⟨fun ht ↦ ?_, fun hr ↦ ?_⟩⟩
    · rintro ⟨u, k, hm, hf⟩
      exact hs.not_left hf (hall u k (h.subset hm))
    · cases hs.left_once (hall u k hm) ht
    · cases hs.left_once (hall u k hm) hr
  · rintro ⟨hnone, hund⟩ u k hm
    have hfound : s.byUsername.get? u ≠ some k := by
      by_cases hrest : (u, k) ∈ rest
      · exact fun hf ↦ hnone ⟨u, k, hrest, hf⟩
      · exact h.gone u k hm hrest
    rcases hs.found_or_left (h.paused u k hm) with hf | ⟨f, hleft⟩
    · exact absurd hf hfound
    · cases f with
      | taken => exact absurd hleft (hund u k hm).1
      | destroyed => exact hleft
      | replaced => exact absurd hleft (hund u k hm).2

theorem pending_items_iff (s : KeptRooms υ κ) :
    s.Pending s.byUsername.items ↔ s.byUsername.items ≠ [] := by
  constructor
  · rintro ⟨u, k, hm, -⟩
    exact List.ne_nil_of_mem hm
  · intro hne
    obtain ⟨⟨u, k⟩, hm⟩ := List.exists_mem_of_ne_nil _ hne
    exact ⟨u, k, hm, Dict.mem_items_iff.mp hm⟩

/-! ## What a step does to the sweeps -/

/-- The rest of a sweep after it has gone on from `rest`. -/
structure LooksOn (t : KeptRooms υ κ) (rest rest' : List (υ × κ)) : Prop where
  subset : rest' ⊆ rest
  gone : ∀ u k, (u, k) ∈ rest → (u, k) ∉ rest' → t.byUsername.get? u ≠ some k

theorem LooksOn.refl (t : KeptRooms υ κ) (rest : List (υ × κ)) : t.LooksOn rest rest :=
  ⟨List.Subset.refl _, fun _ _ hm hnot ↦ absurd hm hnot⟩

/-- The sweeps a step from `s` to `t` can write. -/
inductive Writes (s t : KeptRooms υ κ) : KeptEvent υ κ → Sweep υ κ → Prop
  | begins (rest : List (υ × κ)) (kept : κ) : s.byUsername.items ≠ [] →
      t.LooksOn s.byUsername.items rest →
      Writes s t .destroyAll (.running s.byUsername.items rest kept)
  | findsNone : s.byUsername.items = [] →
      Writes s t .destroyAll (.ended [] s.marks (s.callsBut s.sweeps.length))
  | goesOn (n : Nat) (began rest rest' : List (υ × κ)) (kept kept' : κ) :
      s.sweeps[n]? = some (.running began rest kept) → s.Pending rest → t.LooksOn rest rest' →
      Writes s t (.sweepEnds n (.returned ())) (.running began rest' kept')
  | ends (n : Nat) (began rest : List (υ × κ)) (kept : κ) (reply : Outcome) :
      s.sweeps[n]? = some (.running began rest kept) → ¬ (reply = .returned () ∧ s.Pending rest) →
      Writes s t (.sweepEnds n reply) (.ended began s.marks (s.callsBut n))

variable [DecidableEq κ]

/-- Nothing that has been paused before comes into the registry again. -/
theorem Change.found {s t : KeptRooms υ κ} {p : Option (υ × κ)} {u : υ} {k : κ} (h : Change s t p)
    (hp : .paused u k ∈ s.marks ∨ p = none) (ht : t.byUsername.get? u = some k) :
    s.byUsername.get? u = some k := by
  cases h with
  | same hb hm => rwa [hb] at ht
  | removed u' k' f hu hf hb hm =>
    rw [hb, Dict.get?_erase, Function.update_apply] at ht
    split at ht
    · cases ht
    · exact ht
  | registered u' k' hk hb hm =>
    rw [hb, Dict.get?_set, Function.update_apply] at ht
    split at ht
    · cases ht
      rcases hp with hp | hp
      · exact absurd hp (not_paused_of_isNew hk u)
      · cases hp
    · exact ht

theorem sweepFrom_cases (s : KeptRooms υ κ) (rest : List (υ × κ)) :
    (s.Pending rest ∧ ∃ t rest' kept, s.sweepFrom rest = (t, some (rest', kept)) ∧ t.LooksOn rest rest') ∨
      (¬ s.Pending rest ∧ s.sweepFrom rest = (s, none)) := by
  induction rest with
  | nil =>
    refine .inr ⟨?_, rfl⟩
    rintro ⟨u, k, hm, -⟩
    exact List.not_mem_nil hm
  | cons p rest ih =>
    obtain ⟨u, k⟩ := p
    by_cases h : s.byUsername.get? u = some k
    · refine .inl ⟨⟨u, k, List.mem_cons_self, h⟩, s.remove u k .destroyed, rest, k, ?_, ?_, ?_⟩
      · rw [sweepFrom, if_pos h]
      · exact List.subset_cons_self _ _
      · intro u' k' hm hrest
        rcases List.mem_cons.mp hm with hm | hm
        · cases hm
          simp [remove, Dict.get?_erase]
        · exact absurd hm hrest
    · have hchange := s.sweepFrom_change rest
      rw [sweepFrom, if_neg h]
      rcases ih with ⟨⟨u', k', hm, hf⟩, t, rest', kept, hfrom, hlooks⟩ | ⟨hnone, hfrom⟩
      · rw [hfrom] at hchange
        refine .inl ⟨⟨u', k', List.mem_cons_of_mem _ hm, hf⟩, t, rest', kept, hfrom,
          List.subset_cons_of_subset _ hlooks.subset, ?_⟩
        intro u'' k'' hm'' hrest ht
        rcases List.mem_cons.mp hm'' with hm'' | hm''
        · cases hm''
          exact h (hchange.found (.inr rfl) ht)
        · exact hlooks.gone u'' k'' hm'' hrest ht
      · refine .inr ⟨?_, hfrom⟩
        rintro ⟨u', k', hm, hf⟩
        rcases List.mem_cons.mp hm with hm | hm
        · cases hm
          exact h hf
        · exact hnone ⟨u', k', hm, hf⟩

theorem sweepOn_cases (s : KeptRooms υ κ) (n : Nat) (began rest : List (υ × κ)) :
    (s.Pending rest ∧ ∃ t rest' kept,
        s.sweepOn n began rest = (t, .running began rest' kept) ∧ t.LooksOn rest rest') ∨
      (¬ s.Pending rest ∧ s.sweepOn n began rest = (s, .ended began s.marks (s.callsBut n))) := by
  rcases s.sweepFrom_cases rest with ⟨hp, t, rest', kept, h, hlooks⟩ | ⟨hp, h⟩
  · exact .inl ⟨hp, t, rest', kept, by rw [sweepOn, h], hlooks⟩
  · exact .inr ⟨hp, by rw [sweepOn, h]⟩

theorem sweepEnds_cases (s : KeptRooms υ κ) (n : Nat) (began rest : List (υ × κ)) (reply : Outcome) :
    ((reply = .returned () ∧ s.Pending rest) ∧ ∃ t rest' kept,
        s.sweepEnds n began rest reply = (t, .running began rest' kept) ∧ t.LooksOn rest rest') ∨
      (¬ (reply = .returned () ∧ s.Pending rest) ∧
        s.sweepEnds n began rest reply = (s, .ended began s.marks (s.callsBut n))) := by
  cases reply with
  | returned =>
    rcases s.sweepOn_cases n began rest with ⟨hp, h⟩ | ⟨hp, h⟩
    · exact .inl ⟨⟨rfl, hp⟩, h⟩
    · exact .inr ⟨fun hh ↦ hp hh.2, h⟩
  | raised => exact .inr ⟨by simp, rfl⟩
  | cancelled => exact .inr ⟨by simp, rfl⟩

theorem sweepFrom_sweeps (s : KeptRooms υ κ) (rest : List (υ × κ)) :
    (s.sweepFrom rest).1.sweeps = s.sweeps := by
  induction rest with
  | nil => rfl
  | cons p rest ih =>
    rw [sweepFrom]
    split
    · rfl
    · exact ih

theorem sweepEnds_sweeps (s : KeptRooms υ κ) (n : Nat) (began rest : List (υ × κ)) (reply : Outcome) :
    (s.sweepEnds n began rest reply).1.sweeps = s.sweeps := by
  cases reply with
  | returned => rw [sweepEnds, sweepOn_fst, sweepFrom_sweeps]
  | raised => rfl
  | cancelled => rfl

variable {s t : KeptRooms υ κ} {e : KeptEvent υ κ}

theorem step_destroyAll (h : s.step .destroyAll = some t) :
    ∃ w, Writes s t .destroyAll w ∧ t.sweeps = s.sweeps ++ [w] := by
  simp only [step, Option.some.injEq] at h
  subst h
  rcases s.sweepOn_cases s.sweeps.length s.byUsername.items s.byUsername.items with
    ⟨hp, t, rest, kept, h, hlooks⟩ | ⟨hp, h⟩
  · refine ⟨_, .begins rest kept (s.pending_items_iff.mp hp) ?_, ?_⟩
    · rw [h]
      exact ⟨hlooks.subset, hlooks.gone⟩
    have hsweeps := s.sweepEnds_sweeps s.sweeps.length s.byUsername.items s.byUsername.items
      (.returned ())
    rw [sweepEnds, h] at hsweeps
    rw [h]
    exact congrArg (· ++ _) hsweeps
  · rw [pending_items_iff, not_not] at hp
    refine ⟨_, .findsNone hp, ?_⟩
    rw [h, hp]

theorem step_sweepEnds {n : Nat} {reply : Outcome} (h : s.step (.sweepEnds n reply) = some t) :
    ∃ w, Writes s t (.sweepEnds n reply) w ∧ n < s.sweeps.length ∧ t.sweeps = s.sweeps.set n w := by
  simp only [step] at h
  split at h
  case h_2 => cases h
  rename_i began rest kept hn
  have hlt : n < s.sweeps.length := (List.getElem?_eq_some_iff.mp hn).1
  have hsweeps := s.sweepEnds_sweeps n began rest reply
  cases h
  rcases s.sweepEnds_cases n began rest reply with ⟨⟨rfl, hp⟩, t, rest', kept', h, hlooks⟩ | ⟨hnot, h⟩
  · rw [h] at hsweeps
    refine ⟨_, .goesOn n began rest rest' kept kept' hn hp ?_, hlt, by rw [h, hsweeps]⟩
    rw [h]
    exact ⟨hlooks.subset, hlooks.gone⟩
  · exact ⟨_, .ends n began rest kept reply hn hnot, hlt, by rw [h]⟩

theorem mem_sweeps {w : Sweep υ κ} (h : s.step e = some t) (hw : w ∈ t.sweeps) :
    w ∈ s.sweeps ∨ Writes s t e w := by
  cases e with
  | destroyAll =>
    obtain ⟨w', hwrites, ht⟩ := step_destroyAll h
    rw [ht, List.mem_append, List.mem_singleton] at hw
    rcases hw with hw | rfl
    · exact .inl hw
    · exact .inr hwrites
  | sweepEnds n reply =>
    obtain ⟨w', hwrites, -, ht⟩ := step_sweepEnds h
    rw [ht] at hw
    rcases List.mem_or_eq_of_mem_set hw with hw | rfl
    · exact .inl hw
    · exact .inr hwrites
  | keep u =>
    cases h
    exact .inl hw
  | pauseEnds u reply =>
    left
    simp only [step] at h
    split at h
    case isFalse => cases h
    cases reply with
    | returned k =>
      dsimp only at h
      split at h <;> cases h
      exact hw
    | raised =>
      cases h
      exact hw
    | cancelled =>
      cases h
      exact hw
  | take u =>
    left
    cases h
    unfold take at hw
    split at hw <;> exact hw
  | expires u k =>
    left
    simp only [step] at h
    split at h <;> cases h
    unfold expire at hw
    split at hw <;> exact hw
  | expireEnds k =>
    left
    simp only [step] at h
    split at h <;> cases h
    exact hw

theorem Change.marks_subset {p : Option (υ × κ)} (h : Change s t p) : s.marks ⊆ t.marks := by
  cases h with
  | same hb hm => exact hm ▸ List.Subset.refl _
  | removed u k f hu hf hb hm => exact hm ▸ List.subset_cons_self _ _
  | registered u k hk hb hm =>
    rw [hm]
    exact List.subset_append_right _ _

theorem Visited.change {p : Option (υ × κ)} {began rest rest' : List (υ × κ)}
    (h : s.Visited began rest) (hc : Change s t p) (hlooks : t.LooksOn rest rest') :
    t.Visited began rest' where
  paused u k hm := hc.marks_subset (h.paused u k hm)
  subset := List.Subset.trans hlooks.subset h.subset
  gone u k hm hrest' := by
    by_cases hrest : (u, k) ∈ rest
    · exact hlooks.gone u k hrest hrest'
    · exact fun ht ↦ h.gone u k hm hrest (hc.found (.inl (h.paused u k hm)) ht)

theorem reachable_visited (h : (machine υ κ).Reachable s) :
    ∀ began rest kept, .running began rest kept ∈ s.sweeps → s.Visited began rest := by
  refine h.invariant (I := fun s ↦ ∀ began rest kept, .running began rest kept ∈ s.sweeps →
    s.Visited began rest) (fun _ _ _ hm ↦ absurd hm List.not_mem_nil) fun s e t hr hs hst ↦ ?_
  have hc := step_change hst
  intro began rest kept hw
  rcases mem_sweeps hst hw with hw | hw
  · exact (hs began rest kept hw).change hc (.refl t rest)
  · cases hw with
    | begins _ _ _ hlooks =>
      have hbegan : s.Visited s.byUsername.items s.byUsername.items :=
        ⟨fun u k hm ↦ (reachable_accounted hr).paused_of_found (Dict.mem_items_iff.mp hm),
          List.Subset.refl _, fun _ _ hm hnot ↦ absurd hm hnot⟩
      exact hbegan.change hc hlooks
    | goesOn n _ rest₀ _ kept₀ _ hn _ hlooks =>
      exact (hs _ _ _ (List.mem_of_getElem? hn)).change hc hlooks

/-! ## When a sweep ends -/

theorem reached_swept (h : (machine υ κ).ReachedBy SweepsOut s) : s.Swept := by
  refine h.invariant (fun _ _ _ hm ↦ absurd hm List.not_mem_nil) fun s e t hr hs hok hst ↦ ?_
  intro began marks calls hw
  rcases mem_sweeps hst hw with hw | hw
  · exact hs began marks calls hw
  cases hw with
  | findsNone hitems => exact ⟨fun _ _ hm ↦ absurd hm List.not_mem_nil, hok hitems⟩
  | ends n _ rest kept reply hn hnot =>
    have hvisited := reachable_visited hr.reachable _ _ _ (List.mem_of_getElem? hn)
    obtain ⟨hgo, hout⟩ := hok began rest kept hn
    have hnone : ¬ s.Pending rest := fun hp ↦ hnot ⟨hgo hp, hp⟩
    obtain ⟨hund, hcalls⟩ := hout hnone
    exact ⟨(hvisited.destroyed_iff (reachable_accounted hr.reachable)).mpr ⟨hnone, hund⟩, hcalls⟩

theorem sweepsOut_of_swept (hr : (machine υ κ).Reachable s) (h : s.step e = some t) (ht : t.Swept) :
    SweepsOut s e := by
  cases e with
  | destroyAll =>
    intro hitems
    obtain ⟨w, hw, hsweeps⟩ := step_destroyAll h
    cases hw with
    | begins _ _ hne => exact absurd hitems hne
    | findsNone =>
      exact (ht [] s.marks _ (hsweeps ▸ List.mem_append_right _ List.mem_cons_self)).2
  | sweepEnds n reply =>
    intro began rest kept hn
    obtain ⟨w, hw, hlt, hsweeps⟩ := step_sweepEnds h
    cases hw with
    | goesOn _ _ _ _ _ _ hn' hp =>
      rw [hn] at hn'
      cases hn'
      exact ⟨fun _ ↦ rfl, fun hnone ↦ absurd hp hnone⟩
    | ends _ _ _ _ _ hn' hnot =>
      rw [hn] at hn'
      cases hn'
      obtain ⟨hall, hcalls⟩ := ht began s.marks _ (hsweeps ▸ List.mem_set hlt _)
      have hvisited := reachable_visited hr _ _ _ (List.mem_of_getElem? hn)
      obtain ⟨hnone, hund⟩ := (hvisited.destroyed_iff (reachable_accounted hr)).mp hall
      exact ⟨fun hp ↦ absurd hp hnone, fun _ ↦ ⟨hund, hcalls⟩⟩
  | _ => trivial

/-- In a run every sweep that ends has swept, exactly if none of them stops short or ends beside
another call. -/
theorem swept_iff_sweepsOut {es : List (KeptEvent υ κ)} (h : (machine υ κ).run .initial es = some s) :
    (machine υ κ).Keeps Swept .initial es ↔ (machine υ κ).Follows SweepsOut .initial es :=
  Machine.ReachedBy.keeps_iff_follows (fun _ ↦ reached_swept)
    (fun _ _ _ hr hst ↦ sweepsOut_of_swept hr.reachable hst) .init h

/-- Two rooms are kept when the shutdown sweeps, and destroying the first one raises. -/
def firstRaises : List (KeptEvent Nat Nat) :=
  [.keep 0, .keep 5, .pauseEnds 0 (.returned 1), .pauseEnds 5 (.returned 2), .destroyAll,
    .sweepEnds 0 .raised]

theorem firstRaises_leaves : ¬ ∀ (es : List (KeptEvent Nat Nat)) (s : KeptRooms Nat Nat),
    (machine Nat Nat).run .initial es = some s → s.Swept := by
  intro h
  have hall := (h firstRaises _ rfl [(0, 1), (5, 2)] _ _ List.mem_cons_self).1 5 2 (by decide)
  exact absurd hall (by decide)

/-- A timer fires while the sweep waits, and its call is over before the sweep's is. -/
def timerAmidSweep : List (KeptEvent Nat Nat) :=
  [.keep 0, .keep 5, .pauseEnds 0 (.returned 1), .pauseEnds 5 (.returned 2), .destroyAll,
    .expires 5 2, .expireEnds 2, .sweepEnds 0 (.returned ())]

theorem timerAmidSweep_swept :
    ∃ s, (machine Nat Nat).run .initial timerAmidSweep = some s ∧
      s.sweeps = [.ended [(0, 1), (5, 2)] s.marks []] ∧
      (machine Nat Nat).Keeps Swept .initial timerAmidSweep :=
  ⟨_, rfl, by decide, (swept_iff_sweepsOut rfl).mpr (by decide)⟩

end Keycard.KeptRooms
