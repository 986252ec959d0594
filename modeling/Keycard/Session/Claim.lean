import Keycard.Session.Lifecycle

/-!
# A claimed room

Once `take()` has handed a `Kept` to a session, nothing else will ever find it.  `Claimed` says where
it can be: in the call that resumes it, in a room the session still has to dispose of, or disposed
of.  Every step keeps it in one of these places, except a `CancelledError` that cuts off the call it
is in.
-/

open Reasoning

namespace Keycard.Session

variable {ρ κ : Type}

/-- Where the `Kept` is. -/
inductive Core.Claimed (c : Core ρ κ) (k : κ) : Prop
  | resuming (b : Bool) : c.pump = some (.suspended (.opening (some k)) b) → Claimed c k
  | passedOn : .destroyKept k ∈ c.marks → Claimed c k
  | held (room : ρ) : .opened (some k) room ∈ c.marks → c.room = some room →
      c.teardown.any (·.2.isEnded) = false → Claimed c k
  | late (room : ρ) (b : Bool) : .opened (some k) room ∈ c.marks →
      c.pump = some (.suspended (.checkingOut room) b) → Claimed c k
  | inTeardown (room : ρ) (keep b : Bool) (p : TeardownPoint ρ) :
      .opened (some k) room ∈ c.marks → c.teardown = some (keep, .suspended p b) →
      p = .pausing room ∨ p = .destroying room → Claimed c k
  | done (room : ρ) : .opened (some k) room ∈ c.marks →
      .kept room ∈ c.marks ∨ .destroyEnded room ∈ c.marks → Claimed c k

/-- A move that loses no claimed room. -/
def Act.LeavesClaim : Act ρ κ → Prop
  | .pumpCut _ => False
  | .teardownCut _ => False
  | .neverRuns room => room = none
  | _ => True

section Frame

variable {c d : Core ρ κ} {k : κ}

/-- A move of the pump, which does not touch what the teardown has. -/
theorem Core.Claimed.pump_frame (h : c.Claimed k) (hroom : d.room = c.room)
    (ht : d.teardown = c.teardown) (hmarks : c.marks ⊆ d.marks)
    (hresuming : ∀ b, c.pump = some (.suspended (.opening (some k)) b) → d.Claimed k)
    (hlate : ∀ room b, .opened (some k) room ∈ c.marks →
      c.pump = some (.suspended (.checkingOut room) b) → d.Claimed k) : d.Claimed k := by
  cases h with
  | resuming b hp => exact hresuming b hp
  | passedOn hm => exact .passedOn (hmarks hm)
  | held room hm hr hend => exact .held room (hmarks hm) (hroom.trans hr) (ht ▸ hend)
  | late room b hm hp => exact hlate room b hm hp
  | inTeardown room keep b p hm ht' hp =>
    exact .inTeardown room keep b p (hmarks hm) (ht.trans ht') hp
  | done room hm hdone => exact .done room (hmarks hm) (hdone.imp (hmarks ·) (hmarks ·))

/-- A move of the teardown, which does not touch what the pump has. -/
theorem Core.Claimed.teardown_frame (h : c.Claimed k) (hp : d.pump = c.pump)
    (hmarks : c.marks ⊆ d.marks)
    (hheld : ∀ room, .opened (some k) room ∈ d.marks → c.room = some room →
      c.teardown.any (·.2.isEnded) = false → d.Claimed k)
    (hbusy : ∀ room keep b p, .opened (some k) room ∈ d.marks →
      c.teardown = some (keep, .suspended p b) → p = .pausing room ∨ p = .destroying room →
      d.Claimed k) : d.Claimed k := by
  cases h with
  | resuming b hp' => exact .resuming b (hp.trans hp')
  | passedOn hm => exact .passedOn (hmarks hm)
  | held room hm hr hend => exact hheld room (hmarks hm) hr hend
  | late room b hm hp' => exact .late room b (hmarks hm) (hp.trans hp')
  | inTeardown room keep b p hm ht hp' => exact hbusy room keep b p (hmarks hm) ht hp'
  | done room hm hdone => exact .done room (hmarks hm) (hdone.imp (hmarks ·) (hmarks ·))

end Frame

section

variable [Room ρ] {cfg : SessionConfig} {c d : Core ρ κ} {a : Act ρ κ} {k : κ}

theorem Core.Claimed.step (hm : Move cfg c a d) (ha : a.LeavesClaim) (hlife : c.Lifecycle)
    (h : c.Claimed k) : d.Claimed k := by
  -- once the kept room is open, the pump is past every point before the opening
  have hopened {room : ρ} (ho : .opened (some k) room ∈ c.marks)
      {p : Option (LoopTask (PumpPoint ρ κ))} (hp : c.pump = p) (hb : pumpBefore p = true) :
      p.any LoopTask.isEnded = true := by
    obtain ⟨phase, hfit, -⟩ := hlife.staged.of_opened ho
    exact hfit.pump.not_before hp hb
  cases hm with
  | starts hp =>
    refine h.pump_frame rfl rfl (List.Subset.refl _) (fun b hp' ↦ ?_) fun room b _ hp' ↦ ?_
    · rw [hp] at hp'
      cases hp'
    · rw [hp] at hp'
      cases hp'
  | begins trigger =>
    refine h.teardown_frame rfl (by simp) (fun room ho hr hend ↦ .held room ho hr ?_)
      fun room keep b p ho ht hp ↦ .inTeardown room keep b p ho (by simp [ht]) hp
    cases ht : c.teardown with
    | none => rfl
    | some td => simpa [ht] using hend
  | cancelsPump pump hp =>
    refine h.pump_frame rfl rfl (by simp) (fun b hp' ↦ ?_) fun room b ho hp' ↦ ?_
    · rw [hp] at hp'
      cases hp'
      exact .resuming true rfl
    · rw [hp] at hp'
      cases hp'
      exact .late room true (by simp [ho]) rfl
  | cancelsTeardown keep task ht hend =>
    refine h.teardown_frame rfl (by simp) (fun room ho hr _ ↦ .held room ho hr (by simpa using hend))
      fun room keep' b p ho ht' hp ↦ ?_
    rw [ht] at ht'
    cases ht'
    exact .inTeardown room keep true p ho rfl hp
  | pumpStarts kept hp =>
    refine h.pump_frame rfl rfl (by simp) (fun b hp' ↦ ?_) fun room b _ hp' ↦ ?_
    · rw [hp] at hp'
      cases hp'
    · rw [hp] at hp'
      cases hp'
  | pumpEnds pump how hp hmay =>
    refine h.pump_frame rfl rfl (List.Subset.refl _) (fun b hp' ↦ ?_) fun room b _ hp' ↦ ?_
    · rw [hp] at hp'
      cases hp'
      cases how <;> cases hmay
    · rw [hp] at hp'
      cases hp'
      cases hmay
  -- the one move of the opening that loses the claim
  | openCut kept hp => exact ha.elim
  -- `destroy_kept` takes the claim over
  | resumeFails k' b hp =>
    refine h.pump_frame rfl rfl (by simp) (fun b' hp' ↦ ?_) fun room b' _ hp' ↦ ?_
    · rw [hp] at hp'
      cases hp'
      exact .passedOn (by simp)
    · rw [hp] at hp'
      cases hp'
  -- the kept room becomes a room of the session, late or in time
  | opensLate kept b room hp ht =>
    cases h with
    | resuming b' hp' =>
      rw [hp] at hp'
      cases hp'
      exact .late room false (by simp) rfl
    | passedOn hm => exact .passedOn (by simp [hm])
    | held r ho hr hend => cases hopened ho hp rfl
    | late r b' ho hp' => cases hopened ho hp rfl
    | inTeardown r keep b' p ho ht' hp' => cases hopened ho hp rfl
    | done r ho hdone => cases hopened ho hp rfl
  | opens kept b room hp ht =>
    cases h with
    | resuming b' hp' =>
      rw [hp] at hp'
      cases hp'
      exact .held room (by simp) rfl (by simp [ht])
    | passedOn hm => exact .passedOn (by simp [hm])
    | held r ho hr hend => cases hopened ho hp rfl
    | late r b' ho hp' => cases hopened ho hp rfl
    | inTeardown r keep b' p ho ht' hp' => cases hopened ho hp rfl
    | done r ho hdone => cases hopened ho hp rfl
  | lateDestroyed r b hp =>
    refine h.pump_frame rfl rfl (by simp) (fun b' hp' ↦ ?_) fun room b' ho hp' ↦ ?_
    · rw [hp] at hp'
      cases hp'
    · rw [hp] at hp'
      cases hp'
      exact .done r (by simp [ho]) (.inr (by simp))
  | lateCut r hp => exact ha.elim
  | reads r b p hp hnext =>
    refine h.pump_frame rfl rfl (List.Subset.refl _) (fun b' hp' ↦ ?_) fun room b' ho hp' ↦ ?_
    · rw [hp] at hp'
      cases hp'
    · rw [hp] at hp'
      cases hp'
  | neverRuns keep ht =>
    -- `LeavesClaim`: there was no room to lose
    have hroom : c.room = none := ha
    refine h.teardown_frame rfl (List.Subset.refl _) (fun room ho hr _ ↦ ?_)
      fun room keep' b p ho ht' hp ↦ ?_
    · rw [hroom] at hr
      cases hr
    · rw [ht] at ht'
      cases ht'
  | findsNone keep ht hroom =>
    refine h.teardown_frame rfl (by simp) (fun room ho hr _ ↦ ?_) fun room keep' b p ho ht' hp ↦ ?_
    · rw [hroom] at hr
      cases hr
    · rw [ht] at ht'
      cases ht'
  | pauses r ht hroom henabled hcan =>
    refine h.teardown_frame rfl (by simp) (fun room ho hr _ ↦ ?_) fun room keep' b p ho ht' hp ↦ ?_
    · rw [hroom] at hr
      cases hr
      exact .inTeardown r true false _ ho rfl (.inl rfl)
    · rw [ht] at ht'
      cases ht'
  | destroys keep r ht hroom =>
    refine h.teardown_frame rfl (by simp) (fun room ho hr _ ↦ ?_) fun room keep' b p ho ht' hp ↦ ?_
    · rw [hroom] at hr
      cases hr
      exact .inTeardown r keep false _ ho rfl (.inr rfl)
    · rw [ht] at ht'
      cases ht'
  | keeps keep r b ht =>
    refine h.teardown_frame rfl (by simp) (fun room ho hr hend ↦ ?_)
      fun room keep' b' p ho ht' hp ↦ ?_
    -- a teardown at work has taken the room out of `self._room`
    · rw [hlife.room_of_suspended ht] at hr
      cases hr
    · rw [ht] at ht'
      cases ht'
      rcases hp with hp | hp
      · cases hp
        exact .done r ho (.inl (by simp))
      · cases hp
  | keepFails keep r b ht =>
    refine h.teardown_frame rfl (by simp) (fun room ho hr hend ↦ .held room ho hr rfl)
      fun room keep' b' p ho ht' hp ↦ ?_
    rw [ht] at ht'
    cases ht'
    rcases hp with hp | hp
    · cases hp
      exact .inTeardown r keep false _ ho rfl (.inr rfl)
    · cases hp
  | destroyed keep r b ht =>
    refine h.teardown_frame rfl (by simp) (fun room ho hr hend ↦ ?_)
      fun room keep' b' p ho ht' hp ↦ ?_
    · rw [hlife.room_of_suspended ht] at hr
      cases hr
    · rw [ht] at ht'
      cases ht'
      rcases hp with hp | hp
      · cases hp
      · cases hp
        exact .done r ho (.inr (by simp))
  | cut keep p ht => exact ha.elim

theorem claims_of_took (hm : Move cfg c a d) (hc : .took k ∉ c.marks) (hd : .took k ∈ d.marks) :
    a = .claims (some k) ∧ d.Claimed k := by
  cases hm with
  | pumpStarts kept hp =>
    cases kept with
    | none => exact absurd (by simpa [takeMarks] using hd) hc
    | some k' =>
      obtain rfl : k = k' := by simpa [takeMarks, hc] using hd
      exact ⟨rfl, .resuming false rfl⟩
  | cancelsPump pump hp =>
    cases hq : pump.point? <;> simp [hq, cancelMarks, hc] at hd
  | starts | pumpEnds | openCut | lateCut | reads | neverRuns | cut => exact absurd hd hc
  | _ => simp [hc] at hd

end

/-! ## Every run -/

/-- No `CancelledError` comes out of the call that a room which is still to be disposed of is in,
and none cancels a teardown that has not yet taken such a room. -/
def Uncut (s : RoomSession ρ κ) : Event ρ κ → Prop
  | .openEnds reply _ => reply ≠ .cancelled
  | .lateDestroyEnds reply => reply ≠ .cancelled
  | .keepEnds reply => reply ≠ .cancelled
  | .destroyEnds reply => reply ≠ .cancelled
  | .teardownStarts => s.room ≠ none → ∀ td, s.teardown = some td → td.task ≠ .created true
  | _ => True

/-- The condition on the sessions that have claimed a kept room; the others may be cut as they
like. -/
def LeavesClaim (s : RoomSession ρ κ) (e : Event ρ κ) : Prop :=
  (∃ k, .took k ∈ s.marks) → Uncut s e

/-- Once both tasks are over, what `take()` returned was destroyed, or became a room that was
destroyed or kept again. -/
def Disposed (s : RoomSession ρ κ) : Prop :=
  ∀ k, .took k ∈ s.marks → s.pump.any LoopTask.isEnded = true →
    s.teardown.any (·.task.isEnded) = true →
      .destroyKept k ∈ s.marks ∨ ∃ room, .opened (some k) room ∈ s.marks ∧
        (.kept room ∈ s.marks ∨ .destroyEnded room ∈ s.marks)

theorem Uncut.acts {s : RoomSession ρ κ} {e : Event ρ κ} (h : Uncut s e) {a : Act ρ κ}
    (ha : acts s e a) : a.LeavesClaim := by
  cases e with
  | connectionLost =>
    rcases ha with rfl | ⟨pump, -, rfl⟩ | ⟨td, -, -, rfl, -⟩ <;> trivial
  | forceCloseTimeout =>
    obtain ⟨td, -, -, rfl, -⟩ := ha
    trivial
  | pumpStarts _ | readEnds _ _ | watchdogRuns _ _ | closerStarts _ =>
    rcases ha with rfl | rfl <;> trivial
  | openEnds reply _ =>
    rcases ha with rfl | ⟨hr, -⟩
    · trivial
    · exact absurd hr h
  | lateDestroyEnds reply | keepEnds reply | destroyEnds reply =>
    rcases ha with rfl | ⟨hr, -⟩
    · trivial
    · exact absurd hr h
  | teardownStarts =>
    rcases ha with rfl | rfl | ⟨td, htd, htask, rfl⟩
    · trivial
    · trivial
    · by_contra hroom
      exact h hroom td htd htask
  | _ =>
    cases ha
    trivial

theorem acts_claims {s : RoomSession ρ κ} {e : Event ρ κ} {kept : Option κ}
    (ha : acts s e (.claims kept)) : e = .pumpStarts kept := by
  cases e with
  | connectionLost => rcases ha with ha | ⟨pump, -, ha⟩ | ⟨td, -, -, ha, -⟩ <;> cases ha
  | forceCloseTimeout =>
    obtain ⟨td, -, -, ha, -⟩ := ha
    cases ha
  | pumpStarts _ =>
    rcases ha with ha | ha
    · cases ha
      rfl
    · cases ha
  | readEnds _ _ | watchdogRuns _ _ | closerStarts _ => rcases ha with ha | ha <;> cases ha
  | openEnds reply _ => rcases ha with ha | ⟨-, _, _, -, ha⟩ <;> cases ha
  | lateDestroyEnds reply | keepEnds reply | destroyEnds reply =>
    rcases ha with ha | ⟨-, _, ha⟩ <;> cases ha
  | teardownStarts => rcases ha with ha | ha | ⟨td, -, -, ha⟩ <;> cases ha
  | _ => cases ha

theorem Core.Claimed.disposed {c : Core ρ κ} {k : κ} (h : c.Claimed k)
    (hp : c.pump.any LoopTask.isEnded = true) (ht : c.teardown.any (·.2.isEnded) = true) :
    .destroyKept k ∈ c.marks ∨ ∃ room, .opened (some k) room ∈ c.marks ∧
      (.kept room ∈ c.marks ∨ .destroyEnded room ∈ c.marks) := by
  cases h with
  | resuming b hp' =>
    rw [hp'] at hp
    cases hp
  | passedOn hm => exact .inl hm
  | held room ho hr hend =>
    rw [hend] at ht
    cases ht
  | late room b ho hp' =>
    rw [hp'] at hp
    cases hp
  | inTeardown room keep b p ho ht' hp' =>
    rw [ht'] at ht
    cases ht
  | done room ho hdone => exact .inr ⟨room, ho, hdone⟩

section

variable [Room ρ] {cfg : SessionConfig} {s : RoomSession ρ κ}

theorem reached_claimed (h : (machine ρ κ cfg).ReachedBy LeavesClaim s) (k : κ)
    (hk : .took k ∈ s.marks) : (core s).Claimed k := by
  have hall : ∀ k, .took k ∈ s.marks → (core s).Claimed k := by
    refine h.invariant (I := fun s ↦ ∀ k, .took k ∈ s.marks → (core s).Claimed k) ?_ ?_
    · intro k hk
      cases hk
    · intro s e t hs hi he hst
      have hlife : (core s).Lifecycle := reachable_lifecycle hs.reachable
      by_cases hsafe : ∀ a, acts s e a → a.LeavesClaim
      · refine ((step_moves hst).invariant
          (I := fun c ↦ c.Lifecycle ∧ ∀ k, .took k ∈ c.marks → c.Claimed k) ⟨hlife, hi⟩ ?_).2
        rintro c a d ⟨hc, hclaimed⟩ ha hm
        refine ⟨hc.step hm, fun k hk ↦ ?_⟩
        by_cases hkc : .took k ∈ c.marks
        · exact (hclaimed k hkc).step hm (hsafe a ha) hc
        · exact (claims_of_took hm hkc hk).2
      · -- nothing was claimed before this step, and it is not the step that claims
        have hnone : ∀ k, .took k ∉ (core s).marks := by
          intro k hk
          exact hsafe fun a ha ↦ (he ⟨k, hk⟩).acts ha
        have hnone' := (step_moves hst).invariant (I := fun c ↦ ∀ k, .took k ∉ c.marks) hnone ?_
        · exact fun k hk ↦ absurd hk (hnone' k)
        · intro c a d hc ha hm k hk
          obtain ⟨rfl, -⟩ := claims_of_took hm (hc k) hk
          obtain rfl := acts_claims ha
          exact hsafe fun a ha ↦ by rcases ha with rfl | rfl <;> trivial
  exact hall k hk

/-- In every run in which no claimed room is cut off, every state has it disposed of once the two
tasks are over. -/
theorem disposed_of_uncut (h : (machine ρ κ cfg).ReachedBy LeavesClaim s) : Disposed s := by
  intro k hk hp ht
  refine (reached_claimed h k hk).disposed hp ?_
  cases htd : s.teardown with
  | none => simp [htd] at ht
  | some td => simpa [core, htd] using ht

end

/-- A reconnect: the kept room is resumed, and destroyed when the shell exits. -/
def reconnect : List (Event BuiltRoom Nat) :=
  [.sessionStarted, .pumpStarts (some 7), .openEnds (.returned (.docker 7)) false,
    .readEnds (.returned false) false, .teardownStarts, .destroyEnds (.returned 0),
    .pumpResumes false]

theorem reconnect_disposed : ∃ s : RoomSession BuiltRoom Nat,
    (machine BuiltRoom Nat ⟨some 60, 0⟩).run .initial reconnect = some s ∧
      .took 7 ∈ s.marks ∧ Disposed s := by
  have hrun : (machine BuiltRoom Nat ⟨some 60, 0⟩).run .initial reconnect = some _ := rfl
  refine ⟨_, hrun, by decide, disposed_of_uncut (Machine.ReachedBy.run .init ?_ hrun)⟩
  refine .cons (fun _ ↦ trivial) rfl (.cons (fun _ ↦ trivial) rfl (.cons (fun _ ↦ ?_) rfl
    (.cons (fun _ ↦ trivial) rfl (.cons (fun _ _ td htd ↦ ?_) rfl (.cons (fun _ ↦ ?_) rfl
      (.cons (fun _ ↦ trivial) rfl trivial))))))
  · intro h
    cases h
  · cases htd
    intro h
    cases h
  · intro h
    cases h

/-- The client hangs up while its kept room is being resumed. -/
def hangUpInResume : List (Event BuiltRoom Nat) :=
  [.sessionStarted, .pumpStarts (some 7), .connectionLost, .openEnds .cancelled false,
    .teardownStarts]

theorem hangUp_loses_kept : ¬ ∀ (cfg : SessionConfig) (es : List (Event BuiltRoom Nat))
    (s : RoomSession BuiltRoom Nat),
    (machine BuiltRoom Nat cfg).run .initial es = some s → Disposed s := by
  intro h
  rcases h ⟨some 60, 0⟩ hangUpInResume _ rfl 7 (by decide) rfl rfl with hm | ⟨room, ho, -⟩
  · revert hm
    decide
  · have ho : .opened (some 7) room ∈ [Mark.took 7, .pumpCancelled (.opening (some 7)),
      .reached .connectionLost none, .foundNone] := ho
    simp at ho

end Keycard.Session
