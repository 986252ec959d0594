import Keycard.Server.Sessions
import Keycard.Session.ForceClose

/-!
# The drain and its `gather`

What the `gather` has come to says how the `force_close` calls stand: nothing while one of them is
alive and none has failed, a return once all of them have returned.
-/

open Reasoning

namespace Keycard.Server

open Session

variable {ι ρ κ : Type}

theorem closer_of_session {w : Server ι ρ κ} {i : ι} {s : RoomSession ρ κ}
    (hs : w.sessions i = some s) : w.closer i = s.closer := by
  simp [closer, hs]

/-- How the calls stand when the `gather` has come to this. -/
def Gathered (w : Server ι ρ κ) (members : Finset ι) : Option Outcome → Prop
  | none =>
    -- no call has failed, and one is still alive
    (∀ i ∈ members, ∃ c, w.closer i = some c ∧ ∀ how, c = .ended how → how = .returned ()) ∧
      ∃ i ∈ members, w.closerEnded i = false
  | some (.returned ()) => ∀ i ∈ members, w.closer i = some (.ended (.returned ()))
  -- `gather` passes the first failure on; the other calls may be anywhere
  | some _ => True

structure Gathering (w : Server ι ρ κ) : Prop where
  notYet : w.phase = .serving ∨ w.phase = .grace → ∀ i, w.closer i = none
  gathered (members : Finset ι) (timedOut : Bool) (g : Option Outcome) :
    w.phase = .forcing members timedOut g → Gathered w members g

section

variable {w w' : Server ι ρ κ} {members : Finset ι} {g : Option Outcome}

theorem Gathered.congr (h : ∀ j ∈ members, w'.closer j = w.closer j) (hg : Gathered w members g) :
    Gathered w' members g := by
  match g with
  | none =>
    obtain ⟨hall, i, hi, hlive⟩ := hg
    refine ⟨fun j hj ↦ ?_, i, hi, ?_⟩
    · rw [h j hj]
      exact hall j hj
    · rw [closerEnded, h i hi]
      exact hlive
  | some (.returned ()) =>
    intro j hj
    rw [h j hj]
    exact hg j hj
  | some .raised => trivial
  | some .cancelled => trivial

/-- Cancelling the calls ends none of them. -/
theorem Gathered.cancelAll (h : ∀ j, w'.closer j = w.closer j ∨
    w'.closer j = (w.closer j).map LoopTask.cancel) (hg : Gathered w members none) :
    Gathered w' members none := by
  obtain ⟨hall, i, hi, hlive⟩ := hg
  refine ⟨fun j hj ↦ ?_, i, hi, ?_⟩
  · obtain ⟨c, hc, hret⟩ := hall j hj
    rcases h j with h | h
    · exact ⟨c, h.trans hc, hret⟩
    · refine ⟨c.cancel, by rw [h, hc]; rfl, fun how hend ↦ ?_⟩
      cases c with
      | ended how' => exact hret how hend
      | created b => cases hend
      | suspended p b => cases hend
  · rw [closerEnded] at hlive ⊢
    rcases h i with h | h
    · rw [h]
      exact hlive
    · rw [h]
      cases hc : w.closer i with
      | none => rfl
      | some c => simpa [hc] using hlive

theorem Gathering.other (hserving : w.phase ≠ .serving) (hgrace : w.phase ≠ .grace)
    (hforcing : ∀ members timedOut g, w.phase = .forcing members timedOut g →
      Gathered w members g) : Gathering w where
  notYet h := by
    rcases h with h | h
    · exact absurd h hserving
    · exact absurd h hgrace
  gathered := hforcing

end

variable [DecidableEq ι]

section Put

variable {w : Server ι ρ κ} {i : ι} {s t : RoomSession ρ κ}

@[simp] theorem put_closer_self : (w.put i s t).closer i = t.closer := by
  simp [closer]

theorem put_closer_of_ne {j : ι} (h : j ≠ i) : (w.put i s t).closer j = w.closer j := by
  simp [closer, h]

theorem put_phase_of_closer (h : t.closer = s.closer) : (w.put i s t).phase = w.phase := by
  unfold put
  dsimp only
  split
  · rename_i members timedOut how hp hc
    rw [if_neg]
    rintro ⟨-, hend⟩
    rw [← h, hc] at hend
    cases hend
  · rfl

theorem put_phase_of_live {c : LoopTask Unit} (h : t.closer = some c) (hc : c.isEnded = false) :
    (w.put i s t).phase = w.phase := by
  unfold put
  dsimp only
  split
  · rename_i members timedOut how hp hc'
    rw [h] at hc'
    cases hc'
    cases hc
  · rfl

theorem put_phase_of_not_forcing (h : ∀ members timedOut, w.phase ≠ .forcing members timedOut none) :
    (w.put i s t).phase = w.phase := by
  unfold put
  dsimp only
  split
  · rename_i members timedOut how hp hc
    exact absurd hp (h members timedOut)
  · rfl

theorem put_phase_of_not_mem {members : Finset ι} {timedOut : Bool} {g : Option Outcome}
    (hp : w.phase = .forcing members timedOut g) (hi : i ∉ members) :
    (w.put i s t).phase = w.phase := by
  unfold put
  dsimp only
  split
  · rename_i members' timedOut' how hp' hc
    rw [hp] at hp'
    cases hp'
    rw [if_neg fun h ↦ hi h.1]
  · rfl

theorem put_phase_of_ended {members : Finset ι} {timedOut : Bool} {how : Outcome}
    (hp : w.phase = .forcing members timedOut none) (hi : i ∈ members)
    (hs : s.closer.any LoopTask.isEnded = false) (ht : t.closer = some (.ended how)) :
    (w.put i s t).phase =
      .forcing members timedOut ((w.put i s t).gathers members how) := by
  unfold put
  simp only [hp, ht]
  rw [if_pos ⟨hi, hs⟩]
  rfl

/-- A session changes nothing of the phase but what the `gather` has come to. -/
theorem put_phase_cases (w : Server ι ρ κ) (i : ι) (s t : RoomSession ρ κ) :
    (w.put i s t).phase = w.phase ∨ ∃ members timedOut how, w.phase = .forcing members timedOut none ∧
      i ∈ members ∧ s.closer.any LoopTask.isEnded = false ∧ t.closer = some (.ended how) ∧
        (w.put i s t).phase = .forcing members timedOut ((w.put i s t).gathers members how) := by
  -- only the end of a member, while the `gather` is open, is of interest to the drain
  by_cases hf : ∃ members timedOut how, w.phase = .forcing members timedOut none ∧ i ∈ members ∧
      s.closer.any LoopTask.isEnded = false ∧ t.closer = some (.ended how)
  · obtain ⟨members, timedOut, how, hp, hi, hs, ht⟩ := hf
    exact .inr ⟨members, timedOut, how, hp, hi, hs, ht, put_phase_of_ended hp hi hs ht⟩
  · refine .inl ?_
    unfold put
    dsimp only
    split
    · rename_i members timedOut how hp hc
      rw [if_neg fun h ↦ hf ⟨members, timedOut, how, hp, h.1, h.2, hc⟩]
    · rfl

end Put

/-! ## The calls under each kind of step -/

section Closers

variable {w w' : Server ι ρ κ} {members : Finset ι} {g : Option Outcome}

theorem connectionMade_closer {i : ι} (h : w.sessions i = none) (j : ι) :
    (w.connectionMade i).closer j = w.closer j := by
  by_cases hji : j = i
  · subst hji
    simp [closer, connectionMade, h, RoomSession.initial]
  · simp [closer, connectionMade, hji]

theorem forceCloseAll_closer {j : ι} {s : RoomSession ρ κ} (hj : j ∈ members)
    (hs : w.sessions j = some s) (hc : s.closer = none) :
    (w.forceCloseAll members j).bind (·.closer) = some (.created false) := by
  simp [forceCloseAll, hj, hs, stepCloser, hc]

theorem cancelAll_closer (j : ι) : (w.cancelAll members j).bind (·.closer) = w.closer j ∨
    (w.cancelAll members j).bind (·.closer) = (w.closer j).map LoopTask.cancel := by
  unfold cancelAll closer
  split
  · cases hs : w.sessions j with
    | none => exact .inl rfl
    | some s =>
      cases hc : s.closer with
      | none => exact .inl (by simp [stepCloser, hc])
      | some c =>
        rcases cancelCloser_closer (s := s) with h | h
        · exact .inl (by simp [stepCloser, hc, h])
        · exact .inr (by simp [stepCloser, hc, h])
  · exact .inl rfl

/-- A call goes on to its `await`. -/
theorem Gathered.live {i : ι} {c : LoopTask Unit} (hi : i ∈ members)
    (hc : w'.closer i = some c) (hlive : c.isEnded = false)
    (hother : ∀ j, j ≠ i → w'.closer j = w.closer j) (hg : Gathered w members none) :
    Gathered w' members none := by
  refine ⟨fun j hj ↦ ?_, i, hi, by simp [closerEnded, hc, hlive]⟩
  by_cases hji : j = i
  · subst hji
    refine ⟨c, hc, fun how hend ↦ ?_⟩
    subst hend
    cases hlive
  · rw [hother j hji]
    exact hg.1 j hj

/-- A call ends. -/
theorem Gathered.ended {i : ι} {how : Outcome} (hi : i ∈ members)
    (hc : w'.closer i = some (.ended how)) (hother : ∀ j, j ≠ i → w'.closer j = w.closer j)
    (hg : Gathered w members none) : Gathered w' members (w'.gathers members how) := by
  match how with
  -- a failure decides the `gather` at once
  | .raised => trivial
  | .cancelled => trivial
  | .returned () =>
    have hall : ∀ j ∈ members, ∃ c, w'.closer j = some c ∧
        ∀ how, c = .ended how → how = .returned () := by
      intro j hj
      by_cases hji : j = i
      · subst hji
        refine ⟨_, hc, fun how hend ↦ ?_⟩
        cases hend
        rfl
      · rw [hother j hji]
        exact hg.1 j hj
    simp only [gathers]
    split
    · rename_i hended
      intro j hj
      obtain ⟨c, hcj, hret⟩ := hall j hj
      have hend := hended j hj
      rw [closerEnded, hcj] at hend
      cases c with
      | ended how =>
        rw [hcj, hret how rfl]
      | created b => cases hend
      | suspended p b => cases hend
    · rename_i hnot
      refine ⟨hall, ?_⟩
      simpa using hnot

end Closers

section Reach

variable [Room ρ] {cfg : ServerConfig} {w w' : Server ι ρ κ} {e : Event ι ρ κ}

theorem Gathering.session (h : Gathering w) {i : ι} {s t : RoomSession ρ κ} {e : Session.Event ρ κ}
    (hs : w.sessions i = some s) (hst : Session.step cfg.session s e = some t)
    (hforce : e ≠ .forceClose) (htimeout : e ≠ .forceCloseTimeout) : Gathering (w.put i s t) := by
  rcases step_closer_cases hst hforce htimeout with hc | ⟨c, c', hc, hlive, hc', hcases⟩
  · have hclosers (j : ι) : (w.put i s t).closer j = w.closer j := by
      by_cases hji : j = i
      · subst hji
        rw [put_closer_self, closer_of_session hs, hc]
      · exact put_closer_of_ne hji
    have hphase : (w.put i s t).phase = w.phase := put_phase_of_closer hc
    refine ⟨fun hp j ↦ ?_, fun members timedOut g hp ↦ ?_⟩
    · rw [hclosers j]
      exact h.notYet (hphase ▸ hp) j
    · exact (h.gathered members timedOut g (hphase ▸ hp)).congr fun j _ ↦ hclosers j
  · have hclosers (j : ι) (hji : j ≠ i) : (w.put i s t).closer j = w.closer j := put_closer_of_ne hji
    have hself : (w.put i s t).closer i = some c' := by
      rw [put_closer_self]
      exact hc'
    have hbefore : w.closer i = some c := (closer_of_session hs).trans hc
    have hnot : ¬ (w.phase = .serving ∨ w.phase = .grace) := by
      intro hp
      rw [h.notYet hp i] at hbefore
      cases hbefore
    by_cases hf : ∃ members timedOut, w.phase = .forcing members timedOut none ∧ i ∈ members
    · obtain ⟨members, timedOut, hp, hi⟩ := hf
      have hg : Gathered w members none := h.gathered members timedOut none hp
      rcases hcases with rfl | hend
      · have hphase : (w.put i s t).phase = w.phase := put_phase_of_live hc' rfl
        refine .other (by rw [hphase, hp]; simp) (by rw [hphase, hp]; simp) ?_
        intro members' timedOut' g hp'
        rw [hphase, hp] at hp'
        cases hp'
        exact hg.live hi hself rfl hclosers
      · cases c' with
        | ended how =>
          have hs' : s.closer.any LoopTask.isEnded = false := by
            rw [hc]
            exact hlive
          have hphase := put_phase_of_ended hp hi hs' hc'
          refine .other (by rw [hphase]; simp) (by rw [hphase]; simp) ?_
          intro members' timedOut' g hp'
          rw [hphase] at hp'
          cases hp'
          exact hg.ended hi hself hclosers
        | created b => cases hend
        | suspended p b => cases hend
    · have hphase : (w.put i s t).phase = w.phase := by
        cases hp : w.phase with
        | forcing members timedOut g =>
          cases g with
          | none => exact (put_phase_of_not_mem hp fun hi ↦ hf ⟨members, timedOut, hp, hi⟩).trans hp
          | some how =>
            exact (put_phase_of_not_forcing fun _ _ h ↦ by rw [hp] at h; cases h).trans hp
        | _ => exact (put_phase_of_not_forcing fun _ _ h ↦ by rw [hp] at h; cases h).trans hp
      refine .other (fun h ↦ hnot (.inl (hphase ▸ h))) (fun h ↦ hnot (.inr (hphase ▸ h))) ?_
      intro members timedOut g hp
      rw [hphase] at hp
      have hg := h.gathered members timedOut g hp
      match g with
      | none =>
        refine hg.congr fun j hj ↦ hclosers j ?_
        rintro rfl
        exact hf ⟨members, timedOut, hp, hj⟩
      | some (.returned ()) =>
        refine hg.congr fun j hj ↦ hclosers j ?_
        rintro rfl
        have hret := hg j hj
        rw [hbefore] at hret
        cases hret
        cases hlive
      | some .raised => trivial
      | some .cancelled => trivial

theorem Gathering.step (hst : Server.step cfg w e = some w') (hactive : ActiveRight w)
    (h : Gathering w) : Gathering w' := by
  cases step_stepped hst with
  | made i hnone =>
    refine ⟨fun hp j ↦ ?_, fun members timedOut g hp ↦ ?_⟩
    · rw [connectionMade_closer hnone]
      exact h.notYet hp j
    · exact (h.gathered members timedOut g hp).congr fun j _ ↦ connectionMade_closer hnone j
  | session i e s t hs hstep hforce htimeout => exact h.session hs hstep hforce htimeout
  | notifies broken hp => exact ⟨fun _ ↦ h.notYet (.inl hp), fun _ _ _ hp' ↦ by cases hp'⟩
  | forces e hp hne =>
    refine .other (by simp) (by simp) fun members timedOut g hp' ↦ ?_
    cases hp'
    have hcreated (j : ι) (hj : j ∈ w.active.sessions) :
        (w.forceCloseAll w.active.sessions j).bind (·.closer) = some (.created false) := by
      have hany := (hactive j).mp hj
      cases hs : w.sessions j with
      | none => simp [hs] at hany
      | some s =>
        have hc : s.closer = none := (closer_of_session hs).symm.trans (h.notYet hp j)
        exact forceCloseAll_closer hj hs hc
    refine ⟨fun j hj ↦ ⟨_, hcreated j hj, fun how hend ↦ by cases hend⟩, ?_⟩
    obtain ⟨j, hj⟩ := Finset.nonempty_iff_ne_empty.mpr hne
    refine ⟨j, hj, ?_⟩
    have hc := hcreated j hj
    simp only [closerEnded, closer, hc]
    rfl
  | timesOut members hp hstarted =>
    refine .other (by simp) (by simp) fun members' timedOut g hp' ↦ ?_
    cases hp'
    exact (h.gathered members false none hp).cancelAll cancelAll_closer
  | timesOutLate members how hp hstarted =>
    refine .other (by simp) (by simp) fun members' timedOut g hp' ↦ ?_
    cases hp'
    trivial
  | resumes members timedOut how hp hstarted =>
    have hphase : afterGather timedOut how = (.closing : Shutdown ι) ∨
        afterGather timedOut how = (.aborted : Shutdown ι) := by
      cases how with
      | returned u => exact .inl rfl
      | raised => exact .inr rfl
      | cancelled => cases timedOut <;> simp [afterGather]
    refine .other ?_ ?_ fun members' timedOut' g hp' ↦ ?_
    · rcases hphase with hphase | hphase <;> simp [hphase]
    · rcases hphase with hphase | hphase <;> simp [hphase]
    · rcases hphase with hphase | hphase <;> simp [hphase] at hp'
  | _ => exact .other (by simp) (by simp) fun members timedOut g hp ↦ (by cases hp)

theorem reachable_gathering (h : (machine ι ρ κ cfg).Reachable w) : Gathering w := by
  refine h.invariant (I := Gathering) ?_ fun s e t hs hi hst ↦
    hi.step hst (reachable_activeRight hs)
  exact ⟨fun _ _ ↦ rfl, fun _ _ _ hp ↦ by cases hp⟩

end Reach

end Keycard.Server
