import Keycard.Session.Feeder

/-!
# Type-ahead

Input is queued before there is a room, and goes on being queued beside the feeder.  What the queue has
taken is at every moment what the feeder has passed on, followed by what still waits, and a chunk that the
queue does not take leaves no trace.
-/

open Reasoning

namespace Keycard.Session.FedSession

variable {ρ κ : Type}

/-- `put_nowait` raises `QueueFull`. -/
def Rejects (s : FedSession ρ κ) (data : Bytes) : Prop :=
  (s.dataReceived data).input ≠ s.input ++ [data]

instance (s : FedSession ρ κ) (data : Bytes) : Decidable (s.Rejects data) :=
  inferInstanceAs (Decidable (_ ≠ _))

/-- What the queue takes in a step. -/
def took (s : FedSession ρ κ) : FedEvent ρ κ → List Bytes
  | .dataReceived data => if s.Rejects data then [] else [data]
  | _ => []

/-- The accepted chunks of a run, in the order of their arrival. -/
def accepted [AttachedRoom ρ] (cfg : SessionConfig) (es : List (FedEvent ρ κ)) : List Bytes :=
  (machine ρ κ cfg).trace took .initial es

/-- What a run has to do with the chunks that arrived in it. -/
structure InOrder [AttachedRoom ρ] (cfg : SessionConfig) (es : List (FedEvent ρ κ)) (s : FedSession ρ κ) :
    Prop where
  delivered : s.writes <+: accepted cfg es
  once (data : Bytes) : s.writes.count data ≤ (accepted cfg es).count data
  /-- the queue is full of accepted chunks that were not passed on -/
  rejects (data : Bytes) : s.Rejects data ↔ (accepted cfg es).length = s.writes.length + inputBacklog
  /-- whatever comes after a rejected chunk, it is as if the chunk had not come -/
  apart (data : Bytes) : s.Rejects data → ∀ es',
    (machine ρ κ cfg).run .initial (es ++ FedEvent.dataReceived data :: es') =
        (machine ρ κ cfg).run .initial (es ++ es') ∧
      accepted cfg (es ++ FedEvent.dataReceived data :: es') = accepted cfg (es ++ es')

/-! ## One step of the queue -/

/-- What a step does to the input, by its event. -/
inductive InputStep (s t : FedSession ρ κ) : FedEvent ρ κ → Prop
  | accepts (data : Bytes) : s.input.length < inputBacklog → t = { s with input := s.input ++ [data] } →
      InputStep s t (.dataReceived data)
  | rejects (data : Bytes) : inputBacklog ≤ s.input.length → t = s → InputStep s t (.dataReceived data)
  | passes (data : Bytes) : s.input = data :: t.input → t.writes = s.writes ++ [data] →
      InputStep s t .feederRuns
  | same (e : FedEvent ρ κ) : s.took e = [] → t.input = s.input → t.writes = s.writes → InputStep s t e

section Steps

variable {s t : FedSession ρ κ}

theorem dataReceived_inputStep (s : FedSession ρ κ) (data : Bytes) :
    InputStep s (s.dataReceived data) (.dataReceived data) := by
  unfold dataReceived
  split
  · exact .accepts data ‹_› rfl
  · exact .rejects data (by omega) rfl

theorem rejects_iff (data : Bytes) : s.Rejects data ↔ inputBacklog ≤ s.input.length := by
  unfold Rejects dataReceived
  split
  · rename_i hspace
    apply iff_of_false
    · exact fun hne ↦ hne rfl
    · omega
  · rename_i hfull
    apply iff_of_true
    · exact fun heq ↦ List.cons_ne_nil data [] (List.self_eq_append_right.mp heq)
    · omega

/-- A rejected chunk leaves everything as it is. -/
theorem dataReceived_of_rejects {data : Bytes} (h : s.Rejects data) : s.dataReceived data = s := by
  rw [rejects_iff] at h
  unfold dataReceived
  rw [if_neg (Nat.not_lt.mpr h)]

theorem stopFeeder_input : s.stopFeeder.input = s.input := by
  unfold stopFeeder
  split <;> rfl

theorem stopFeeder_writes : s.stopFeeder.writes = s.writes := by
  unfold stopFeeder
  split <;> rfl

theorem follow_input [AttachedRoom ρ] (e : Event ρ κ) (u : RoomSession ρ κ) :
    (s.follow e u).input = s.input := by
  unfold follow
  split
  · exact stopFeeder_input
  · split
    · rfl
    · split <;> rfl
  · split
    · rfl
    · exact stopFeeder_input
  · split <;> rfl
  · split <;> rfl
  · rfl

theorem follow_writes [AttachedRoom ρ] (e : Event ρ κ) (u : RoomSession ρ κ) :
    (s.follow e u).writes = s.writes := by
  unfold follow
  split
  · exact stopFeeder_writes
  · split
    · rfl
    · split <;> rfl
  · split
    · rfl
    · exact stopFeeder_writes
  · split <;> rfl
  · split <;> rfl
  · rfl

theorem runFeeder_inputStep (h : s.runFeeder = some t) : InputStep s t .feederRuns := by
  unfold runFeeder at h
  split at h
  · cases h
    exact .same _ rfl rfl rfl
  · cases h
    exact .same _ rfl rfl rfl
  · cases h
    exact .same _ rfl rfl rfl
  · split at h
    · cases h
    · rename_i data rest hinput
      cases h
      exact .passes data hinput rfl
  · cases h
    exact .same _ rfl rfl rfl
  · cases h

theorem step_inputStep [AttachedRoom ρ] {cfg : SessionConfig} {e : FedEvent ρ κ} (h : step cfg s e = some t) :
    InputStep s t e := by
  cases e with
  | session e =>
    simp only [step] at h
    split at h
    · obtain ⟨u, -, rfl⟩ := Option.map_eq_some_iff.mp h
      exact .same _ rfl (follow_input e u) (follow_writes e u)
    · cases h
  | readEnds sock broken =>
    simp only [step] at h
    split at h
    · obtain ⟨u, -, rfl⟩ := Option.map_eq_some_iff.mp h
      exact .same _ rfl (follow_input _ u) (follow_writes _ u)
    · cases h
  | dataReceived data =>
    cases h
    exact dataReceived_inputStep s data
  | feederRuns => exact runFeeder_inputStep h
  | readComesBack =>
    simp only [step] at h
    split at h <;> cases h
    exact .same _ rfl rfl rfl
  | writeComesBack =>
    simp only [step] at h
    split at h
    · split at h <;> cases h
      exact .same _ rfl rfl rfl
    · cases h
  | attachmentCloses =>
    simp only [step] at h
    split at h <;> cases h
    exact .same _ rfl rfl rfl

/-- What was passed on and what waits, together, grow by what the queue takes. -/
theorem InputStep.conserves {e : FedEvent ρ κ} (h : InputStep s t e) :
    t.writes ++ t.input = s.writes ++ s.input ++ s.took e := by
  cases h with
  | accepts data hspace ht =>
    have hno : ¬ s.Rejects data := by
      rw [rejects_iff]
      omega
    rw [ht, took, if_neg hno, List.append_assoc]
  | rejects data hfull ht => rw [ht, took, if_pos ((rejects_iff data).mpr hfull), List.append_nil]
  | passes data hinput hwrites =>
    show t.writes ++ t.input = s.writes ++ s.input ++ []
    rw [hwrites, hinput, List.append_nil, List.append_assoc]
    rfl
  | same e htook hinput hwrites => rw [hinput, hwrites, htook, List.append_nil]

theorem InputStep.bounded {e : FedEvent ρ κ} (h : InputStep s t e) (hs : s.input.length ≤ inputBacklog) :
    t.input.length ≤ inputBacklog := by
  cases h with
  | accepts data hspace ht =>
    rw [ht, List.length_append]
    exact hspace
  | rejects data hfull ht => rw [ht]; exact hs
  | passes data hinput hwrites =>
    rw [hinput, List.length_cons] at hs
    omega
  | same e htook hinput hwrites => rw [hinput]; exact hs

end Steps

/-! ## Every run -/

section Runs

variable [AttachedRoom ρ] {cfg : SessionConfig} {s : FedSession ρ κ} {es : List (FedEvent ρ κ)}

/-- What the queue has taken is what was passed on, and then what waits. -/
theorem accepted_eq (h : (machine ρ κ cfg).run .initial es = some s) :
    accepted cfg es = s.writes ++ s.input := by
  have htrace : s.writes ++ s.input = (initial : FedSession ρ κ).writes ++ initial.input ++ accepted cfg es :=
    Machine.trace_eq (f := fun s ↦ s.writes ++ s.input) (fun _ _ _ hst ↦ (step_inputStep hst).conserves) h
  exact htrace.symm

theorem input_bounded (h : (machine ρ κ cfg).run .initial es = some s) : s.input.length ≤ inputBacklog :=
  (Machine.Reachable.of_run h).invariant (I := fun s ↦ s.input.length ≤ inputBacklog) (Nat.zero_le _)
    fun _ _ _ _ hs hst ↦ (step_inputStep hst).bounded hs

/-- The chunks passed to `room.write` are the accepted ones in their order, up to those that still wait;
and a chunk is rejected exactly if `INPUT_BACKLOG` of them wait, without any consequence for the others. -/
theorem typeAhead_inOrder (h : (machine ρ κ cfg).run .initial es = some s) : InOrder cfg es s where
  delivered := by
    rw [accepted_eq h]
    exact List.prefix_append s.writes s.input
  once data := by
    rw [accepted_eq h, List.count_append]
    omega
  rejects data := by
    have hbound : s.input.length ≤ inputBacklog := input_bounded h
    rw [accepted_eq h, List.length_append, rejects_iff]
    omega
  apart data hrejects es' := by
    have hsame : (machine ρ κ cfg).step s (.dataReceived data) = some s := by
      show some (s.dataReceived data) = some s
      rw [dataReceived_of_rejects hrejects]
    have htook : s.took (.dataReceived data) = [] := if_pos hrejects
    constructor
    · rw [Machine.run_append _ h, Machine.run_append _ h, Machine.run, hsame, Option.bind_some]
    · rw [accepted, accepted, Machine.trace_append _ h, Machine.trace_append _ h, Machine.trace, hsame]
      show _ ++ (s.took _ ++ _) = _
      rw [htook, List.nil_append]

end Runs

/-- Two chunks are typed while the room opens, and a third while the second is being written. -/
def typedWhileOpening : List (FedEvent BuiltRoom Nat) :=
  [.session .sessionStarted, .dataReceived [111, 110, 101], .session (.pumpStarts none),
    .dataReceived [116, 119, 111], .session (.openEnds (.returned (.docker 0)) false), .feederRuns, .feederRuns,
    .writeComesBack, .feederRuns, .feederRuns, .dataReceived [3], .session .connectionLost, .feederRuns]

theorem typedWhileOpening_inOrder : ∃ s : FedSession BuiltRoom Nat,
    (machine BuiltRoom Nat ⟨none, 0⟩).run .initial typedWhileOpening = some s ∧
      s.writes = [[111, 110, 101], [116, 119, 111]] ∧ s.input = [[3]] ∧
      InOrder ⟨none, 0⟩ typedWhileOpening s :=
  ⟨_, rfl, rfl, rfl, typeAhead_inOrder rfl⟩

end Keycard.Session.FedSession
