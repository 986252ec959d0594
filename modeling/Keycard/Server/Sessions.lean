import Keycard.Server.Shutdown
import Keycard.Session.Release

/-!
# The sessions of a server

Every session of the server is a session by itself: what holds in every state a session can reach
holds of each of them, under the same conditions on its steps.  And `ActiveSessions` holds exactly
those that have not been released.
-/

open Reasoning

namespace Keycard.Server

open Session

variable {ι ρ κ : Type}

/-- The registry is right about who is left. -/
def ActiveRight (w : Server ι ρ κ) : Prop :=
  ∀ i, i ∈ w.active.sessions ↔ (w.sessions i).any (!·.released) = true

theorem ActiveRight.released {w : Server ι ρ κ} (h : ActiveRight w) {i : ι} {s : RoomSession ρ κ}
    (hs : w.sessions i = some s) : i ∉ w.active.sessions ↔ s.released = true := by
  rw [h i, hs]
  simp

variable [DecidableEq ι]

/-- What a step of the server is for the session `j`. -/
inductive Evolves [Room ρ] (cfg : ServerConfig) (e : Event ι ρ κ) (j : ι) :
    Option (RoomSession ρ κ) → RoomSession ρ κ → Prop
  | made : e = .connectionMade j → Evolves cfg e j none .initial
  | stays (s : RoomSession ρ κ) : Evolves cfg e j (some s) s
  | steps (s s' : RoomSession ρ κ) (e' : Session.Event ρ κ) :
      Session.step cfg.session s e' = some s' →
      e = .session j e' ∨ e' = .forceClose ∨ e' = .forceCloseTimeout → Evolves cfg e j (some s) s'

section Put

variable (w : Server ι ρ κ) (i : ι) (s t : RoomSession ρ κ)

theorem put_eq : ∃ phase, w.put i s t = { w with
    sessions := Function.update w.sessions i (some t)
    active := if t.released then w.active.discard i else w.active
    phase } := by
  unfold put
  dsimp only
  split
  · split
    · exact ⟨_, rfl⟩
    · exact ⟨_, rfl⟩
  · exact ⟨_, rfl⟩

@[simp] theorem put_sessions :
    (w.put i s t).sessions = Function.update w.sessions i (some t) := by
  obtain ⟨phase, h⟩ := put_eq w i s t
  rw [h]

@[simp] theorem put_active :
    (w.put i s t).active = if t.released then w.active.discard i else w.active := by
  obtain ⟨phase, h⟩ := put_eq w i s t
  rw [h]

@[simp] theorem put_forced : (w.put i s t).forced = w.forced := by
  obtain ⟨phase, h⟩ := put_eq w i s t
  rw [h]

@[simp] theorem put_late : (w.put i s t).late = w.late := by
  obtain ⟨phase, h⟩ := put_eq w i s t
  rw [h]

end Put

theorem forceCloseAll_released (w : Server ι ρ κ) (members : Finset ι) (i : ι) :
    (w.forceCloseAll members i).any (!·.released) = (w.sessions i).any (!·.released) := by
  unfold forceCloseAll
  split
  · cases w.sessions i with
    | none => rfl
    | some s => cases hc : s.closer <;> simp [stepCloser, hc]
  · rfl

theorem cancelAll_released (w : Server ι ρ κ) (members : Finset ι) (i : ι) :
    (w.cancelAll members i).any (!·.released) = (w.sessions i).any (!·.released) := by
  unfold cancelAll
  split
  · cases w.sessions i with
    | none => rfl
    | some s => cases hc : s.closer <;> simp [stepCloser, hc, cancelCloser_released]
  · rfl

section Reach

variable [Room ρ] {cfg : ServerConfig} {w w' : Server ι ρ κ} {e : Event ι ρ κ}

theorem forceCloseAll_evolves {members : Finset ι} {j : ι} {s' : RoomSession ρ κ}
    (h : w.forceCloseAll members j = some s') : Evolves cfg e j (w.sessions j) s' := by
  simp only [forceCloseAll] at h
  split at h
  · obtain ⟨s, hs, rfl⟩ := Option.map_eq_some_iff.mp h
    rw [hs]
    cases hstep : stepCloser s .forceClose with
    | none => exact .stays s
    | some t => exact .steps s t .forceClose hstep (.inr (.inl rfl))
  · rw [h]
    exact .stays s'

theorem cancelAll_evolves {members : Finset ι} {j : ι} {s' : RoomSession ρ κ}
    (h : w.cancelAll members j = some s') : Evolves cfg e j (w.sessions j) s' := by
  simp only [cancelAll] at h
  split at h
  · obtain ⟨s, hs, rfl⟩ := Option.map_eq_some_iff.mp h
    rw [hs]
    cases hstep : stepCloser s .forceCloseTimeout with
    | none => exact .stays s
    | some t => exact .steps s t .forceCloseTimeout hstep (.inr (.inr rfl))
  · rw [h]
    exact .stays s'

theorem step_evolves (h : step cfg w e = some w') {j : ι} {s' : RoomSession ρ κ}
    (hj : w'.sessions j = some s') : Evolves cfg e j (w.sessions j) s' := by
  have hsame (hj : w.sessions j = some s') : Evolves cfg e j (w.sessions j) s' := by
    rw [hj]
    exact .stays s'
  -- the drain reaches into many sessions at once, everything else into one
  cases step_stepped h with
  | made i hnone =>
    by_cases hji : j = i
    · subst hji
      simp only [connectionMade, Function.update_self, Option.some.injEq] at hj
      subst hj
      rw [hnone]
      exact .made rfl
    · simp only [connectionMade, Function.update_of_ne hji] at hj
      exact hsame hj
  | session i e s t hs hst hforce htimeout =>
    rw [put_sessions] at hj
    by_cases hji : j = i
    · subst hji
      simp only [Function.update_self, Option.some.injEq] at hj
      subst hj
      rw [hs]
      exact .steps s t e hst (.inl rfl)
    · rw [Function.update_of_ne hji] at hj
      exact hsame hj
  | forces e hp hne => exact forceCloseAll_evolves hj
  | timesOut members hp hstarted => exact cancelAll_evolves hj
  | _ => exact hsame hj

/-- Each session is reached by itself, under whatever condition the steps of the server put on
its. -/
theorem reached_session {ok : RoomSession ρ κ → Session.Event ρ κ → Prop}
    {okw : Server ι ρ κ → Event ι ρ κ → Prop}
    (hok : ∀ w i e s, okw w (.session i e) → w.sessions i = some s → ok s e)
    (hforce : ∀ s, ok s .forceClose) (htimeout : ∀ s, ok s .forceCloseTimeout)
    (h : (machine ι ρ κ cfg).ReachedBy okw w) {j : ι} {s : RoomSession ρ κ}
    (hj : w.sessions j = some s) :
    (Session.machine ρ κ cfg.session).ReachedBy ok s := by
  have hall : ∀ j s, w.sessions j = some s →
      (Session.machine ρ κ cfg.session).ReachedBy ok s := by
    refine h.invariant (I := fun w ↦ ∀ j s, w.sessions j = some s →
      (Session.machine ρ κ cfg.session).ReachedBy ok s) ?_ ?_
    · intro j s hj
      cases hj
    · intro w e w' _ hi he hst j s' hj
      have hev := step_evolves hst hj
      -- the state of `j` before the step, whether or not the step was its own
      generalize hs : w.sessions j = o at hev
      cases hev with
      | made => exact .init
      | stays => exact hi j s' hs
      | steps s s' e' hstep hwhy =>
        refine .step (hi j s hs) ?_ hstep
        rcases hwhy with rfl | rfl | rfl
        · exact hok w j e' s he hs
        · exact hforce s
        · exact htimeout s
  exact hall j s hj

theorem reachable_session (h : (machine ι ρ κ cfg).Reachable w) {j : ι} {s : RoomSession ρ κ}
    (hj : w.sessions j = some s) : (Session.machine ρ κ cfg.session).Reachable s := by
  have hall : (Session.machine ρ κ cfg.session).ReachedBy (fun _ _ ↦ True) s :=
    reached_session (fun _ _ _ _ _ _ ↦ trivial) (fun _ ↦ trivial) (fun _ ↦ trivial) h hj
  exact hall

theorem step_activeRight (hst : step cfg w e = some w') (h : ActiveRight w) : ActiveRight w' := by
  cases step_stepped hst with
  | made i hnone =>
    intro j
    by_cases hji : j = i
    · subst hji
      simp [connectionMade, RoomSession.initial]
    · simp [connectionMade, hji, h j]
  | session i e s t hs hstep hforce htimeout =>
    intro j
    rw [put_sessions, put_active]
    by_cases hji : j = i
    · subst hji
      rw [Function.update_self]
      cases ht : t.released with
      | true => simp [ht]
      | false =>
        have hsr : s.released = false := by
          by_contra hsr
          rw [step_released hstep (by simpa using hsr)] at ht
          cases ht
        simp [ht, h j, hs, hsr]
    · rw [Function.update_of_ne hji]
      split
      · simp [hji, h j]
      · exact h j
  | forces e hp hne =>
    intro i
    rw [forceCloseAll_released]
    exact h i
  | timesOut members hp hstarted =>
    intro i
    rw [cancelAll_released]
    exact h i
  | _ => exact h

theorem reachable_activeRight (h : (machine ι ρ κ cfg).Reachable w) : ActiveRight w := by
  refine h.invariant (I := ActiveRight) ?_ fun s e t _ hi hst ↦ step_activeRight hst hi
  intro i
  simp [machine, initial]

/-! ## What a session that has left `ActiveSessions` leaves behind -/

def LeftSettled (w : Server ι ρ κ) : Prop :=
  ∀ i s, w.sessions i = some s → i ∉ w.active.sessions → Settled s

/-- The condition on the session whose task takes the step. -/
def ReleasesLast (w : Server ι ρ κ) : Event ι ρ κ → Prop
  | .session i e => ∀ s, w.sessions i = some s → Session.ReleasesLast s e
  | _ => True

theorem reached_leftSettled (h : (machine ι ρ κ cfg).ReachedBy ReleasesLast w) : LeftSettled w := by
  intro i s hs hleft
  have hsession : (Session.machine ρ κ cfg.session).ReachedBy Session.ReleasesLast s :=
    reached_session (fun _ _ _ s he hs ↦ he s hs) (fun _ ↦ trivial) (fun _ ↦ trivial) h hs
  exact reached_settled hsession (((reachable_activeRight h.reachable).released hs).mp hleft)

theorem releasesLast_of_leftSettled (h : (machine ι ρ κ cfg).ReachedBy ReleasesLast w)
    (hst : step cfg w e = some w') (ht : LeftSettled w') : ReleasesLast w e := by
  cases e with
  | session i e =>
    intro s hs
    obtain ⟨s', t, hs', hstep, -, -, rfl⟩ := step_session hst
    obtain rfl : s = s' := Option.some.inj (hs.symm.trans hs')
    have hlife : (core s).Lifecycle := reachable_lifecycle (reachable_session h.reachable hs)
    refine releasesLast_of_settled hstep hlife fun hr ↦ ht i t ?_ ?_
    · simp
    · simp [hr]
  | _ => trivial

/-- In every state of a run whatever a session that has left opened is disposed of, exactly if no
step of the run releases a session too early. -/
theorem leftSettled_iff_releasesLast {es : List (Event ι ρ κ)}
    (h : (machine ι ρ κ cfg).run .initial es = some w) :
    (machine ι ρ κ cfg).Keeps LeftSettled .initial es ↔
      (machine ι ρ κ cfg).Follows ReleasesLast .initial es :=
  Machine.ReachedBy.keeps_iff_follows (fun _ ↦ reached_leftSettled)
    (fun _ _ _ hs hst ↦ releasesLast_of_leftSettled hs hst) .init h

end Reach

/-- One session that comes and goes. -/
def quietVisit : List (Event Nat BuiltRoom Nat) :=
  [.connectionMade 0, .session 0 .sessionStarted, .session 0 (.pumpStarts none),
    .session 0 (.openEnds (.returned (.docker 0)) false), .session 0 .connectionLost,
    .session 0 (.readEnds .cancelled false), .session 0 .teardownStarts,
    .session 0 (.destroyEnds (.returned 0)), .session 0 (.pumpResumes false)]

theorem quietVisit_follows :
    (machine Nat BuiltRoom Nat ⟨⟨none, 0⟩, 0⟩).Follows ReleasesLast .initial quietVisit := by
  refine .cons trivial rfl (.cons (fun _ _ ↦ trivial) rfl (.cons ?pumpStarts rfl ?opened))
  case pumpStarts =>
    rintro s ⟨⟩ -
    rfl
  refine .cons (fun _ _ ↦ trivial) rfl (.cons (fun _ _ ↦ trivial) rfl ?cancelled)
  refine .cons (fun _ _ ↦ trivial) rfl (.cons ?teardownStarts rfl ?destroyed)
  case teardownStarts =>
    rintro s ⟨⟩ -
    exact ⟨by nofun, fun room ↦ by nofun⟩
  exact .cons (fun _ _ ↦ by nofun) rfl (.cons (fun _ _ ↦ trivial) rfl trivial)

theorem quietVisit_leftSettled :
    ∃ w, (machine Nat BuiltRoom Nat ⟨⟨none, 0⟩, 0⟩).run .initial quietVisit = some w ∧
      0 ∉ w.active.sessions ∧ ((w.sessions 0).any fun s ↦ .opened none (.docker 0) ∈ s.marks) = true ∧
      (machine Nat BuiltRoom Nat ⟨⟨none, 0⟩, 0⟩).Keeps LeftSettled .initial quietVisit :=
  ⟨_, rfl, by decide, by decide, (leftSettled_iff_releasesLast rfl).mpr quietVisit_follows⟩

/-- A shutdown without grace, while a room is opening. -/
def shutdownWhileOpening : List (Event Nat BuiltRoom Nat) :=
  [.connectionMade 0, .session 0 .sessionStarted, .session 0 (.pumpStarts none),
    .shutdown fun _ ↦ false, .session 0 (.closerStarts false), .session 0 .teardownStarts]

theorem shutdown_releases_early : ¬ ∀ (cfg : ServerConfig) (es : List (Event Nat BuiltRoom Nat))
    (w : Server Nat BuiltRoom Nat),
    (machine Nat BuiltRoom Nat cfg).run .initial es = some w → LeftSettled w := by
  intro h
  have hsettled := h ⟨⟨none, 0⟩, 0⟩ shutdownWhileOpening _ rfl 0 _ rfl (by decide)
  exact hsettled.notOpening none false rfl

end Keycard.Server
