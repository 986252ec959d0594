import Mathlib.Data.Finset.Basic
import Mathlib.Logic.Function.Basic
import Keycard.Session.ActiveSessions
import Keycard.Session.RoomSession

/-!
# The shutdown block of `serve`

`server.py`: any number of sessions, `_drain`, and what `serve` does after it.  Connections that are
already accepted go on making sessions in every phase.  `gather` settles on the first `force_close`
that fails, or on the last of them; the others go on.
-/

open Reasoning

namespace Keycard

open Session

structure ServerConfig where
  session : SessionConfig
  shutdownGrace : ℚ

/-- Where `serve` is. -/
inductive Shutdown (ι : Type) where
  | serving
  /-- in `wait_empty`, under the timeout of the grace period -/
  | grace
  /-- in the `gather` of the `force_close` calls of `members`, which has come to `gathered` -/
  | forcing (members : Finset ι) (timedOut : Bool) (gathered : Option Outcome)
  /-- in `server.wait_closed`, under CLOSE_TIMEOUT -/
  | closing
  /-- in `kept.destroy_all` -/
  | sweeping
  /-- in `backend.close`; `left` were active when it was called, and `late` those that were made
  after the drain had looked for the last time -/
  | backendClosing (left late : Finset ι)
  | stopped
  /-- an exception has left `_drain` -/
  | aborted
  | sweepRaised

structure Server (ι ρ κ : Type) where
  sessions : ι → Option (RoomSession ρ κ)
  active : ActiveSessions ι
  phase : Shutdown ι
  /-- the sessions that were active when the grace period ended -/
  forced : Finset ι
  /-- the sessions made since the drain last looked at the active ones -/
  late : Finset ι

namespace Server

inductive Event (ι ρ κ : Type) where
  | connectionMade (i : ι)
  | session (i : ι) (e : Session.Event ρ κ)
  /-- up to the first `await` of `_drain`; `broken` are the channels whose write raises -/
  | shutdown (broken : ι → Bool)
  | graceEnds
  | forceCloseTimeout
  | drainResumes
  | closeEnds
  | sweepEnds (raised : Bool)
  | backendCloses

section Steps

variable {ι ρ κ : Type} [DecidableEq ι]

def initial : Server ι ρ κ where
  sessions := fun _ ↦ none
  active := .initial
  phase := .serving
  forced := ∅
  late := ∅

/-- `connection_made` of a new session -/
def connectionMade (w : Server ι ρ κ) (i : ι) : Server ι ρ κ :=
  { w with
    sessions := Function.update w.sessions i (some .initial)
    active := w.active.add i
    late := insert i w.late }

/-- `notify_shutdown` raises: it writes unless the channel is closing. -/
def notifyRaises (w : Server ι ρ κ) (broken : ι → Bool) (i : ι) : Bool :=
  (w.sessions i).any fun s ↦ broken i && !s.chan.closing

/-- The `force_close` call for a session, if the drain has made one. -/
def closer (w : Server ι ρ κ) (i : ι) : Option (LoopTask Unit) :=
  (w.sessions i).bind (·.closer)

def closerStarted (w : Server ι ρ κ) (i : ι) : Bool :=
  (w.closer i).any fun c ↦ c.isEnded || c.point?.isSome

def closerEnded (w : Server ι ρ κ) (i : ι) : Bool :=
  (w.closer i).any LoopTask.isEnded

/-- `session.force_close()` for every one of `members` -/
def forceCloseAll (w : Server ι ρ κ) (members : Finset ι) : ι → Option (RoomSession ρ κ) :=
  fun i ↦ if i ∈ members then (w.sessions i).map fun s ↦ (stepCloser s .forceClose).getD s
    else w.sessions i

/-- The timeout of `wait_for` cancels the `gather`, and that cancels the calls that are not over. -/
def cancelAll (w : Server ι ρ κ) (members : Finset ι) : ι → Option (RoomSession ρ κ) :=
  fun i ↦ if i ∈ members then
      (w.sessions i).map fun s ↦ (stepCloser s .forceCloseTimeout).getD s
    else w.sessions i

/-- `_drain`, once the grace period is over or there is none -/
def afterGrace (w : Server ι ρ κ) : Server ι ρ κ :=
  if w.active.sessions = ∅ then { w with phase := .closing, late := ∅ }
  else { w with
    sessions := w.forceCloseAll w.active.sessions
    phase := .forcing w.active.sessions false none
    forced := w.active.sessions
    late := ∅ }

/-- The shutdown block, up to its first `await` in `_drain`. -/
def shutdown (cfg : ServerConfig) (w : Server ι ρ κ) (broken : ι → Bool) : Server ι ρ κ :=
  if w.active.sessions = ∅ then { w with phase := .closing, late := ∅ }
  else if 0 < cfg.shutdownGrace then
    if ∃ i ∈ w.active.sessions, w.notifyRaises broken i = true then { w with phase := .aborted }
    else { w with phase := .grace }
  else w.afterGrace

/-- What a `force_close` that ends with `how` makes of the `gather`. -/
def gathers (w : Server ι ρ κ) (members : Finset ι) (how : Outcome) : Option Outcome :=
  match how with
  | .returned () => if ∀ j ∈ members, w.closerEnded j = true then some (.returned ()) else none
  | how => some how

/-- A session has gone from `s` to `t`: whether it was released, and whether its `force_close`
ended. -/
def put (w : Server ι ρ κ) (i : ι) (s t : RoomSession ρ κ) : Server ι ρ κ :=
  let w := { w with
    sessions := Function.update w.sessions i (some t)
    active := if t.released then w.active.discard i else w.active }
  match w.phase, t.closer with
  | .forcing members timedOut none, some (.ended how) =>
    if i ∈ members ∧ s.closer.any LoopTask.isEnded = false then
      { w with phase := .forcing members timedOut (w.gathers members how) }
    else w
  | _, _ => w

/-- `wait_for` comes back to `_drain`: a timeout that is due takes the place of any outcome, and only
a `TimeoutError` is caught. -/
def afterGather (timedOut : Bool) (how : Outcome) : Shutdown ι :=
  match how with
  | .returned () => .closing
  | .cancelled => if timedOut then .closing else .aborted
  | .raised => .aborted

def step [Room ρ] (cfg : ServerConfig) (w : Server ι ρ κ) (e : Event ι ρ κ) :
    Option (Server ι ρ κ) :=
  match e with
  | .connectionMade i => if (w.sessions i).isNone then some (w.connectionMade i) else none
  | .session _ .forceClose => none
  | .session _ .forceCloseTimeout => none
  | .session i e =>
    match w.sessions i with
    | none => none
    | some s => (Session.step cfg.session s e).map fun t ↦ w.put i s t
  | .shutdown broken =>
    match w.phase with
    | .serving => some (w.shutdown cfg broken)
    | _ => none
  | .graceEnds =>
    match w.phase with
    | .grace => some w.afterGrace
    | _ => none
  | .forceCloseTimeout =>
    match w.phase with
    | .forcing members false gathered =>
      -- every call has run up to its first `await` long before
      if ∀ i ∈ members, w.closerStarted i = true then
        match gathered with
        | none => some { w with sessions := w.cancelAll members, phase := .forcing members true none }
        | some _ => some { w with phase := .forcing members true (some .cancelled) }
      else none
    | _ => none
  | .drainResumes =>
    match w.phase with
    | .forcing members timedOut (some how) =>
      if ∀ i ∈ members, w.closerStarted i = true then
        some { w with phase := afterGather timedOut how }
      else none
    | _ => none
  | .closeEnds =>
    match w.phase with
    | .closing => some { w with phase := .sweeping }
    | _ => none
  | .sweepEnds raised =>
    match w.phase with
    | .sweeping =>
      some { w with
        phase := if raised then .sweepRaised else .backendClosing w.active.sessions w.late }
    | _ => none
  | .backendCloses =>
    match w.phase with
    | .backendClosing _ _ => some { w with phase := .stopped }
    | _ => none

end Steps

/-! ## What a step can be -/

section Stepped

variable {ι ρ κ : Type} [DecidableEq ι] [Room ρ] {cfg : ServerConfig} {w w' : Server ι ρ κ}
  {e : Event ι ρ κ}

inductive Stepped (cfg : ServerConfig) (w : Server ι ρ κ) : Event ι ρ κ → Server ι ρ κ → Prop
  | made (i : ι) : w.sessions i = none → Stepped cfg w (.connectionMade i) (w.connectionMade i)
  | session (i : ι) (e : Session.Event ρ κ) (s t : RoomSession ρ κ) : w.sessions i = some s →
      Session.step cfg.session s e = some t → e ≠ .forceClose → e ≠ .forceCloseTimeout →
      Stepped cfg w (.session i e) (w.put i s t)
  | drained (e : Event ι ρ κ) : w.phase = .serving ∨ w.phase = .grace → w.active.sessions = ∅ →
      Stepped cfg w e { w with phase := .closing, late := ∅ }
  | notifyRaises (broken : ι → Bool) (i : ι) : w.phase = .serving → i ∈ w.active.sessions →
      0 < cfg.shutdownGrace → w.notifyRaises broken i = true →
      Stepped cfg w (.shutdown broken) { w with phase := .aborted }
  | notifies (broken : ι → Bool) : w.phase = .serving →
      Stepped cfg w (.shutdown broken) { w with phase := .grace }
  | forces (e : Event ι ρ κ) : w.phase = .serving ∨ w.phase = .grace → w.active.sessions ≠ ∅ →
      Stepped cfg w e { w with
        sessions := w.forceCloseAll w.active.sessions
        phase := .forcing w.active.sessions false none
        forced := w.active.sessions
        late := ∅ }
  | timesOut (members : Finset ι) : w.phase = .forcing members false none →
      (∀ i ∈ members, w.closerStarted i = true) →
      Stepped cfg w .forceCloseTimeout
        { w with sessions := w.cancelAll members, phase := .forcing members true none }
  | timesOutLate (members : Finset ι) (how : Outcome) :
      w.phase = .forcing members false (some how) →
      (∀ i ∈ members, w.closerStarted i = true) →
      Stepped cfg w .forceCloseTimeout { w with phase := .forcing members true (some .cancelled) }
  | resumes (members : Finset ι) (timedOut : Bool) (how : Outcome) :
      w.phase = .forcing members timedOut (some how) →
      (∀ i ∈ members, w.closerStarted i = true) →
      Stepped cfg w .drainResumes { w with phase := afterGather timedOut how }
  | closeEnds : w.phase = .closing → Stepped cfg w .closeEnds { w with phase := .sweeping }
  | sweepRaises : w.phase = .sweeping →
      Stepped cfg w (.sweepEnds true) { w with phase := .sweepRaised }
  | sweepEnds : w.phase = .sweeping → Stepped cfg w (.sweepEnds false)
      { w with phase := .backendClosing w.active.sessions w.late }
  | backendCloses (left late : Finset ι) : w.phase = .backendClosing left late →
      Stepped cfg w .backendCloses { w with phase := .stopped }

theorem afterGrace_stepped (h : w.phase = .serving ∨ w.phase = .grace) :
    Stepped cfg w e w.afterGrace := by
  unfold afterGrace
  split
  · rename_i hempty
    exact .drained e h hempty
  · rename_i hne
    exact .forces e h hne

theorem step_session {i : ι} {e : Session.Event ρ κ} (h : step cfg w (.session i e) = some w') :
    ∃ s t, w.sessions i = some s ∧ Session.step cfg.session s e = some t ∧ e ≠ .forceClose ∧
      e ≠ .forceCloseTimeout ∧ w' = w.put i s t := by
  have hcases : e ≠ .forceClose ∧ e ≠ .forceCloseTimeout ∧ (match w.sessions i with
      | none => none
      | some s => (Session.step cfg.session s e).map fun t ↦ w.put i s t) = some w' := by
    cases e <;> first | exact ⟨by simp, by simp, h⟩ | cases h
  obtain ⟨hforce, htimeout, hcases⟩ := hcases
  split at hcases
  · cases hcases
  · rename_i s hs
    obtain ⟨t, ht, rfl⟩ := Option.map_eq_some_iff.mp hcases
    exact ⟨s, t, hs, ht, hforce, htimeout, rfl⟩

theorem step_stepped (h : step cfg w e = some w') : Stepped cfg w e w' := by
  cases e with
  | connectionMade i =>
    simp only [step] at h
    split at h
    · rename_i hnone
      cases h
      exact .made i (Option.isNone_iff_eq_none.mp hnone)
    · cases h
  | session i e =>
    obtain ⟨s, t, hs, hst, hforce, htimeout, rfl⟩ := step_session h
    exact .session i e s t hs hst hforce htimeout
  | shutdown broken =>
    simp only [step] at h
    split at h
    · rename_i hp
      cases h
      unfold shutdown
      split
      · rename_i hempty
        exact .drained _ (.inl hp) hempty
      · split
        · rename_i hgrace
          split
          · rename_i hraises
            obtain ⟨i, hi, hraises⟩ := hraises
            exact .notifyRaises broken i hp hi hgrace hraises
          · exact .notifies broken hp
        · exact afterGrace_stepped (.inl hp)
    · cases h
  | graceEnds =>
    simp only [step] at h
    split at h
    · rename_i hp
      cases h
      exact afterGrace_stepped (.inr hp)
    · cases h
  | forceCloseTimeout =>
    simp only [step] at h
    split at h
    · rename_i members gathered hp
      split at h
      · rename_i hstarted
        split at h
        · cases h
          exact .timesOut members hp hstarted
        · rename_i how
          cases h
          exact .timesOutLate members how hp hstarted
      · cases h
    · cases h
  | drainResumes =>
    simp only [step] at h
    split at h
    · rename_i members timedOut how hp
      split at h
      · rename_i hstarted
        cases h
        exact .resumes members timedOut how hp hstarted
      · cases h
    · cases h
  | closeEnds =>
    simp only [step] at h
    split at h
    · rename_i hp
      cases h
      exact .closeEnds hp
    · cases h
  | sweepEnds raised =>
    simp only [step] at h
    split at h
    · rename_i hp
      cases h
      cases raised with
      | true => exact .sweepRaises hp
      | false => exact .sweepEnds hp
    · cases h
  | backendCloses =>
    simp only [step] at h
    split at h
    · rename_i left late hp
      cases h
      exact .backendCloses left late hp
    · cases h

end Stepped

def machine (ι ρ κ : Type) [DecidableEq ι] [Room ρ] (cfg : ServerConfig) :
    Machine (Server ι ρ κ) (Event ι ρ κ) where
  init := .initial
  step := step cfg

end Server

end Keycard
