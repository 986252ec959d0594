import Keycard.GuestAgent.ShellExit
import Keycard.Reasoning.Part

/-!
# The agent

`run_vsock` accepts one pair of connections after another, and `serve` hands each to the session there is, or to a
new one when the shell of that has exited.  The session before it goes away when `serve` returns.
-/

open Reasoning

namespace Keycard.GuestAgent

structure Agent where
  /-- every session so far, in the order in which they were started -/
  sessions : List Session
  /-- which of them each pair of connections was handed to -/
  handed : List Nat
  /-- `run_vsock` has returned with an error, and the agent with it -/
  failed : Bool

inductive AgentEvent where
  /-- a pair of connections is there; `started` says that a shell could be started, if one had to be -/
  | accepts (started : Bool)
  | acceptFails
  /-- `serve` returns, and what was `live` is dropped -/
  | returns (i : Nat)
  | session (i : Nat) (e : Event)

namespace Agent

def initial : Agent where
  sessions := []
  handed := []
  failed := false

/-- The loop waits for connections: the last call of `serve` has returned. -/
def isAccepting (a : Agent) : Bool :=
  match a.sessions.getLast? with
  | none => true
  | some s => s.holder = .accepting && a.sessions.all fun s ↦ s.holder ≠ .replaced

/-- What the accept loop does is an event of its own here. -/
def isOwn : Event → Bool
  | .serves => true
  | .sessionDropped => true
  | _ => false

/-- `Session::start`, in `serve`; an error is the end of the agent. -/
def starts (a : Agent) (started : Bool) : Agent :=
  if started then { a with sessions := a.sessions ++ [.start], handed := a.handed ++ [a.sessions.length] }
  else { a with failed := true }

def set (a : Agent) (i : Nat) (s : Session) : Agent :=
  { a with sessions := a.sessions.set i s }

def step (window : Nat) (a : Agent) (e : AgentEvent) : Option Agent :=
  if a.failed then none
  else
    match e with
    | .accepts started =>
      if a.isAccepting then
        match a.sessions.getLast? with
        | none => some (a.starts started)
        | some s => do
          let i := a.sessions.length - 1
          let t ← GuestAgent.step window s .serves
          return if s.running then { a.set i t with handed := a.handed ++ [i] } else (a.set i t).starts started
      else none
    | .acceptFails => if a.isAccepting then some { a with failed := true } else none
    | .returns i => do
      let s ← a.sessions[i]?
      -- `attach` has to have returned before
      if a.sessions.getLast?.all fun s ↦ s.holder = .accepting then
        (GuestAgent.step window s .sessionDropped).map (a.set i)
      else none
    | .session i e => do
      let s ← a.sessions[i]?
      if isOwn e then none else (GuestAgent.step window s e).map (a.set i)

/-- `window` is that of the streams of every session. -/
def machine (window : Nat) : Machine Agent AgentEvent where
  init := .initial
  step := step window

end Agent

/-! ## One session -/

variable {window : Nat}

/-- A shell that has exited does not run again. -/
theorem Step.running {s t : Session} {e : Event} (h : Step window s e t) (ht : t.running = true) : s.running = true := by
  cases h with
  | exitStops => cases ht
  | exitDetaches _ hd | attachDetaches _ hd =>
    rw [Session.detaches_eq hd] at ht
    exact ht
  | _ => exact ht

theorem Step.conns {s t : Session} {e : Event} (h : Step window s e t) (he : e ≠ .serves) : t.conns = s.conns := by
  cases h with
  | reattaches | replaces => exact absurd rfl he
  | exitDetaches _ hd | attachDetaches _ hd => rw [Session.detaches_eq hd]
  | _ => rfl

/-- The accept loop has let go of the session. -/
def Session.isPast (s : Session) : Bool :=
  s.holder = .replaced || s.holder = .dropped

theorem Step.holder {s t : Session} {e : Event} (h : Step window s e t) (hpast : s.isPast = true) :
    t.isPast = true ∧ (e ≠ .sessionDropped → t.holder = s.holder) := by
  have hnot (k : Nat) (point : AttachPoint) (hholder : s.holder = .attaching k point) : False := by
    simp [Session.isPast, hholder] at hpast
  cases h with
  | reattaches hholder | replaces hholder => simp [Session.isPast, hholder] at hpast
  | attachDetaches hholder | installsData hholder | installsCtrl hholder | spawns hholder | registers hholder =>
    exact (hnot _ _ hholder).elim
  | drops => exact ⟨rfl, fun he ↦ absurd rfl he⟩
  | exitDetaches _ hd =>
    rw [Session.detaches_eq hd]
    exact ⟨hpast, fun _ ↦ rfl⟩
  | _ => exact ⟨hpast, fun _ ↦ rfl⟩

namespace Agent

variable {a b : Agent} {e : AgentEvent}

/-- What a step does to the sessions. -/
inductive Moves (window : Nat) (a : Agent) : Agent → Prop
  | first (hnone : a.sessions = []) :
      Moves window a { a with sessions := [.start], handed := a.handed ++ [0] }
  | reattaches {before : List Session} {s t : Session} (hsessions : a.sessions = before ++ [s])
      (hst : GuestAgent.step window s .serves = some t) (hrunning : s.running = true) :
      Moves window a
        { a with sessions := before ++ [t], handed := a.handed ++ [before.length] }
  | replaces {before : List Session} {s t : Session} (hsessions : a.sessions = before ++ [s])
      (hst : GuestAgent.step window s .serves = some t) (hrunning : s.running = false)
      (hdropped : ∀ s ∈ before, s.holder ≠ .replaced) :
      Moves window a
        { a with sessions := before ++ [t] ++ [.start], handed := a.handed ++ [before.length + 1] }
  | startFails {before : List Session} {s t : Session} (hsessions : a.sessions = before ++ [s])
      (hst : GuestAgent.step window s .serves = some t) (hrunning : s.running = false) :
      Moves window a { a with sessions := before ++ [t], failed := true }
  | fails : Moves window a { a with failed := true }
  | moves {i : Nat} {s t : Session} {f : Event} (hs : a.sessions[i]? = some s) (hf : f ≠ .serves)
      (hst : GuestAgent.step window s f = some t) : Moves window a (a.set i t)

theorem set_last (before : List Session) (s t : Session) :
    (before ++ [s]).set ((before ++ [s]).length - 1) t = before ++ [t] := by
  have hlast : (before ++ [s]).length - 1 = before.length := by simp
  rw [hlast, List.set_append_right _ _ (Nat.le_refl _), Nat.sub_self]
  rfl

theorem step_moves (h : step window a e = some b) : Moves window a b := by
  unfold step at h
  split at h
  · cases h
  · cases e with
    | accepts started =>
      simp only [] at h
      split at h
      · rename_i hready
        split at h
        · rename_i hlast
          have hnone := List.getLast?_eq_none_iff.mp hlast
          cases h
          cases started with
          | true =>
            simp only [starts, hnone, if_true]
            exact .first hnone
          | false => exact .fails
        · rename_i s hlast
          obtain ⟨before, hsessions⟩ := List.getLast?_eq_some_iff.mp hlast
          obtain ⟨t, hst, h⟩ := Option.bind_eq_some_iff.mp h
          cases h
          simp only [set, hsessions, set_last]
          have hlength : (before ++ [s]).length - 1 = before.length := by simp
          cases hrunning : s.running with
          | true =>
            rw [if_pos rfl, hlength]
            exact .reattaches hsessions hst hrunning
          | false =>
            rw [if_neg Bool.false_ne_true]
            cases started with
            | true =>
              have hdropped : ∀ s ∈ before, s.holder ≠ .replaced := by
                intro u hu
                simp only [isAccepting, hlast, Bool.and_eq_true, List.all_eq_true] at hready
                exact of_decide_eq_true (hready.2 u (hsessions ▸ List.mem_append_left _ hu))
              have hnext : (before ++ [t]).length = before.length + 1 := by simp
              simp only [starts, if_true, hnext]
              exact .replaces hsessions hst hrunning hdropped
            | false => exact .startFails hsessions hst hrunning
      · cases h
    | acceptFails =>
      simp only [] at h
      split at h <;> cases h
      exact .fails
    | returns i =>
      obtain ⟨s, hs, h⟩ := Option.bind_eq_some_iff.mp h
      split at h
      · obtain ⟨t, hst, rfl⟩ := Option.map_eq_some_iff.mp h
        exact .moves (f := .sessionDropped) hs nofun hst
      · cases h
    | session i f =>
      obtain ⟨s, hs, h⟩ := Option.bind_eq_some_iff.mp h
      split at h
      · cases h
      · rename_i hown
        obtain ⟨t, hst, rfl⟩ := Option.map_eq_some_iff.mp h
        refine .moves hs ?_ hst
        rintro rfl
        exact hown rfl

/-- Every session is where it could be on its own. -/
theorem reachable_sessions (h : (machine window).Reachable a) :
    ∀ s ∈ a.sessions, (GuestAgent.machine window).Reachable s := by
  refine h.members sessions rfl fun a e b hst s hs ↦ ?_
  -- the last session moves by one step
  have hlast {before : List Session} {s' t : Session} (hsessions : a.sessions = before ++ [s'])
      (hstep : GuestAgent.step window s' .serves = some t) (hs : s ∈ before ++ [t]) :
      s ∈ a.sessions ∨ s = (GuestAgent.machine window).init ∨
        ∃ x ∈ a.sessions, ∃ f, (GuestAgent.machine window).step x f = some s := by
    rw [hsessions]
    rcases List.mem_append.mp hs with hs | hs
    · exact .inl (List.mem_append_left _ hs)
    · cases List.mem_singleton.mp hs
      exact .inr (.inr ⟨s', by simp, .serves, hstep⟩)
  cases step_moves hst with
  | first => exact .inr (.inl (List.mem_singleton.mp hs))
  | reattaches hsessions hstep | startFails hsessions hstep => exact hlast hsessions hstep hs
  | replaces hsessions hstep =>
    rcases List.mem_append.mp hs with hs | hs
    · exact hlast hsessions hstep hs
    · exact .inr (.inl (List.mem_singleton.mp hs))
  | fails => exact .inl hs
  | @moves i s' t f hget _ hstep =>
    rcases List.mem_or_eq_of_mem_set hs with hs | rfl
    · exact .inl hs
    · exact .inr (.inr ⟨s', List.mem_of_getElem? hget, f, hstep⟩)

/-! ## One shell at a time -/

/-- The sessions before the last one are over, and the agent keeps no more than one of them. -/
structure Ordered (a : Agent) : Prop where
  past : ∀ i s, a.sessions[i]? = some s → i + 1 < a.sessions.length → s.isPast = true ∧ s.running = false
  dropped : ∀ i s, a.sessions[i]? = some s → i + 2 < a.sessions.length → s.holder = .dropped
  conns : ∀ i s, a.sessions[i]? = some s → s.conns = a.handed.count i
  inOrder : a.handed.Pairwise (· ≤ ·)
  known : ∀ i ∈ a.handed, i < a.sessions.length

/-- What holds of the last session may change with it. -/
theorem getElem?_last {before : List Session} {s t u : Session} {i : Nat} (h : (before ++ [t])[i]? = some u) :
    (i < before.length ∧ (before ++ [s])[i]? = some u) ∨ i = before.length ∧ u = t := by
  rw [List.getElem?_append] at h
  split at h
  · rename_i hi
    exact .inl ⟨hi, by rw [List.getElem?_append_left hi]; exact h⟩
  · rename_i hi
    obtain ⟨hlt, -⟩ := List.getElem?_eq_some_iff.mp h
    have heq : i = before.length := by
      simp only [List.length_singleton] at hlt
      omega
    subst heq
    rw [Nat.sub_self] at h
    cases h
    exact .inr ⟨rfl, rfl⟩

theorem serves_cases {s t : Session} (h : GuestAgent.step window s .serves = some t) :
    s.running = true ∧ t.conns = s.conns + 1 ∨
      s.running = false ∧ t.running = false ∧ t.isPast = true ∧ t.conns = s.conns := by
  cases step_step h with
  | reattaches hholder hrunning => exact .inl ⟨hrunning, rfl⟩
  | replaces hholder hrunning => exact .inr ⟨hrunning, hrunning, rfl, rfl⟩

/-- The last session changes, and is handed another connection or not. -/
theorem Ordered.setLast (h : a.Ordered) {before : List Session} {s t : Session} (hsessions : a.sessions = before ++ [s])
    (more : List Nat) (hmore : ∀ i ∈ more, i = before.length) (hconns : t.conns = s.conns + more.length) :
    Ordered { a with sessions := before ++ [t], handed := a.handed ++ more } := by
  have hlength : a.sessions.length = before.length + 1 := by simp [hsessions]
  have hreplicate : more = List.replicate more.length before.length := List.eq_replicate_of_mem hmore
  refine ⟨fun i u hu hi ↦ ?_, fun i u hu hi ↦ ?_, fun i u hu ↦ ?_, ?_, fun i hi ↦ ?_⟩
  · rcases getElem?_last (s := s) hu with ⟨-, hu⟩ | ⟨rfl, -⟩
    · exact h.past i u (hsessions ▸ hu) (by simpa [hsessions] using hi)
    · simp at hi
  · rcases getElem?_last (s := s) hu with ⟨-, hu⟩ | ⟨rfl, -⟩
    · exact h.dropped i u (hsessions ▸ hu) (by simpa [hsessions] using hi)
    · simp at hi
  · rw [List.count_append, hreplicate, List.count_replicate]
    rcases getElem?_last (s := s) hu with ⟨hlt, hu⟩ | ⟨rfl, rfl⟩
    · have hne : (before.length == i) = false := by simpa using (Nat.ne_of_lt hlt).symm
      rw [hne, if_neg Bool.false_ne_true, Nat.add_zero]
      exact h.conns i u (hsessions ▸ hu)
    · rw [beq_self_eq_true, if_pos rfl, hconns, h.conns before.length s (by simp [hsessions])]
  · show (a.handed ++ more).Pairwise (· ≤ ·)
    rw [hreplicate]
    refine List.pairwise_append.mpr ⟨h.inOrder, List.pairwise_replicate.mpr (.inr (Nat.le_refl _)), fun i hi j hj ↦ ?_⟩
    have hknown := h.known i hi
    rw [List.eq_of_mem_replicate hj]
    omega
  · have hlast : (before ++ [t]).length = before.length + 1 := by simp
    rcases List.mem_append.mp hi with hi | hi
    · rw [hlast, ← hlength]
      exact h.known i hi
    · rw [hlast, hmore i hi]
      exact Nat.lt_succ_self _

/-- A new session is started when the ones before it are over. -/
theorem Ordered.starts (h : a.Ordered) (hpast : ∀ s ∈ a.sessions, s.isPast = true ∧ s.running = false)
    (hdropped : ∀ i s, a.sessions[i]? = some s → i + 1 < a.sessions.length → s.holder = .dropped) :
    Ordered { a with sessions := a.sessions ++ [.start], handed := a.handed ++ [a.sessions.length] } := by
  have hold {i : Nat} {s : Session} (hs : (a.sessions ++ [.start])[i]? = some s) (hi : i < a.sessions.length) :
      a.sessions[i]? = some s := by
    rwa [List.getElem?_append_left hi] at hs
  have hlength : (a.sessions ++ [Session.start]).length = a.sessions.length + 1 := by simp
  refine ⟨fun i s hs hi ↦ ?_, fun i s hs hi ↦ ?_, fun i s hs ↦ ?_, ?_, fun i hi ↦ ?_⟩
  · have hi : i + 1 < (a.sessions ++ [Session.start]).length := hi
    exact hpast s (List.mem_of_getElem? (hold hs (by omega)))
  · have hi : i + 2 < (a.sessions ++ [Session.start]).length := hi
    exact hdropped i s (hold hs (by omega)) (by omega)
  · rw [List.count_append, List.count_singleton]
    by_cases hi : i < a.sessions.length
    · have hne : (a.sessions.length == i) = false := by simpa using (Nat.ne_of_lt hi).symm
      rw [hne, if_neg Bool.false_ne_true, Nat.add_zero]
      exact h.conns i s (hold hs hi)
    · obtain ⟨hlt, -⟩ := List.getElem?_eq_some_iff.mp hs
      have heq : i = a.sessions.length := by
        rw [hlength] at hlt
        omega
      subst heq
      rw [List.getElem?_concat_length] at hs
      cases hs
      have hnone : a.handed.count a.sessions.length = 0 :=
        List.count_eq_zero.mpr fun hmem ↦ Nat.lt_irrefl _ (h.known _ hmem)
      rw [beq_self_eq_true, if_pos rfl, hnone]
      rfl
  · exact List.pairwise_append.mpr ⟨h.inOrder, List.pairwise_singleton _ _, fun i hi j hj ↦ by
      rw [List.mem_singleton.mp hj]
      exact Nat.le_of_lt (h.known i hi)⟩
  · rw [hlength]
    rcases List.mem_append.mp hi with hi | hi
    · exact Nat.lt_succ_of_lt (h.known i hi)
    · rw [List.mem_singleton.mp hi]
      exact Nat.lt_succ_self _

/-- One session moves on. -/
theorem Ordered.moves (h : a.Ordered) {i : Nat} {s t : Session} {f : Event} (hs : a.sessions[i]? = some s)
    (hf : f ≠ .serves) (hst : GuestAgent.step window s f = some t) : (a.set i t).Ordered := by
  have hmoved {P : Session → Prop} (hP : P s → P t) {j : Nat} {u : Session} (hu : (a.sessions.set i t)[j]? = some u)
      (hall : ∀ u, a.sessions[j]? = some u → P u) : P u := by
    rw [List.getElem?_set] at hu
    split at hu
    · rename_i hij
      split at hu
      · cases hu
        exact hP (hall s (hij ▸ hs))
      · cases hu
    · exact hall u hu
  have hstep := step_step hst
  have hlength : (a.sessions.set i t).length = a.sessions.length := List.length_set
  refine ⟨fun j u hu hj ↦ ?_, fun j u hu hj ↦ ?_, fun j u hu ↦ ?_, h.inOrder, fun j hj ↦ ?_⟩
  · refine hmoved (P := fun u ↦ u.isPast = true ∧ u.running = false) (fun hpast ↦ ⟨(hstep.holder hpast.1).1, ?_⟩) hu
      fun u hu ↦ h.past j u hu (hlength ▸ hj)
    exact Bool.eq_false_iff.mpr fun ht ↦ absurd (hstep.running ht) (by simp [hpast.2])
  · refine hmoved (P := fun u ↦ u.holder = .dropped) (fun hdropped ↦ ?_) hu fun u hu ↦ h.dropped j u hu (hlength ▸ hj)
    -- what was dropped is not dropped again
    have hnot : f ≠ .sessionDropped := by
      rintro rfl
      cases hstep with
      | drops hreplaced => cases hdropped.symm.trans hreplaced
    exact ((hstep.holder (by simp [Session.isPast, hdropped])).2 hnot).trans hdropped
  · exact hmoved (P := fun u ↦ u.conns = a.handed.count j) (hstep.conns hf).trans hu (h.conns j)
  · show j < (a.sessions.set i t).length
    rw [hlength]
    exact h.known j hj

theorem Ordered.step (h : a.Ordered) (hst : Moves window a b) : b.Ordered := by
  cases hst with
  | first hnone =>
    have hstarts := h.starts (by simp [hnone]) (by simp [hnone])
    rwa [hnone] at hstarts
  | @reattaches before s t hsessions hst hrunning =>
    rcases serves_cases hst with ⟨-, hconns⟩ | ⟨hstopped, -⟩
    · exact h.setLast hsessions [before.length] (by simp) hconns
    · cases hrunning.symm.trans hstopped
  | @replaces before s t hsessions hst hrunning hdropped =>
    rcases serves_cases hst with ⟨hruns, -⟩ | ⟨-, hstopped, hpast, hconns⟩
    · cases hrunning.symm.trans hruns
    · have hlast := h.setLast hsessions [] nofun hconns
      have hbefore {i : Nat} {u : Session} (hu : (before ++ [t])[i]? = some u) (hi : i < before.length) :
          u ∈ before ∧ u.isPast = true ∧ u.running = false := by
        rw [List.getElem?_append_left hi] at hu
        have hmem := List.mem_of_getElem? hu
        refine ⟨hmem, h.past i u ?_ (by simpa [hsessions] using hi)⟩
        rw [hsessions, List.getElem?_append_left hi]
        exact hu
      have hstarts := hlast.starts (fun u hu ↦ ?_) fun i u hu hi ↦ ?_
      · simpa using hstarts
      · obtain ⟨i, hi⟩ := List.mem_iff_getElem?.mp hu
        rcases getElem?_last (s := s) hi with ⟨hlt, -⟩ | ⟨-, rfl⟩
        · exact (hbefore hi hlt).2
        · exact ⟨hpast, hstopped⟩
      · have hlt : i < before.length := by simpa using hi
        obtain ⟨hmem, hpast, -⟩ := hbefore hu hlt
        simp only [Session.isPast, Bool.or_eq_true, decide_eq_true_eq] at hpast
        exact hpast.resolve_left (hdropped u hmem)
  | @startFails before s t hsessions hst hrunning =>
    rcases serves_cases hst with ⟨hruns, -⟩ | ⟨-, -, -, hconns⟩
    · cases hrunning.symm.trans hruns
    · have hlast := h.setLast hsessions [] nofun hconns
      rw [List.append_nil] at hlast
      exact ⟨hlast.past, hlast.dropped, hlast.conns, hlast.inOrder, hlast.known⟩
  | fails => exact ⟨h.past, h.dropped, h.conns, h.inOrder, h.known⟩
  | moves hs hf hst => exact h.moves hs hf hst

theorem ordered_initial : initial.Ordered where
  past := by simp [initial]
  dropped := by simp [initial]
  conns := by simp [initial]
  inOrder := .nil
  known := by simp [initial]

theorem reachable_ordered (h : (machine window).Reachable a) : a.Ordered :=
  h.invariant ordered_initial fun _ _ _ _ hi hst ↦ hi.step (step_moves hst)

/-- Every session of an agent is in a state it could be in on its own, and only the last one has a shell that has not
exited.  Each connection goes to one session, none of them to an earlier one than the connection before, and the
agent keeps no more than the last two sessions. -/
theorem one_shell (window : Nat) {a : Agent} (h : (machine window).Reachable a) :
    (∀ s ∈ a.sessions, (GuestAgent.machine window).Reachable s) ∧
      (∀ i s, a.sessions[i]? = some s → s.exitTask = .waiting → i + 1 = a.sessions.length) ∧
        (∀ i s, a.sessions[i]? = some s → s.conns = a.handed.count i) ∧ a.handed.Pairwise (· ≤ ·) ∧
          ∀ i s, a.sessions[i]? = some s → s.holder ≠ .dropped → a.sessions.length ≤ i + 2 := by
  have hordered := reachable_ordered h
  refine ⟨reachable_sessions h, fun i s hs hwaiting ↦ ?_, hordered.conns, hordered.inOrder, fun i s hs hheld ↦ ?_⟩
  · obtain ⟨hlt, -⟩ := List.getElem?_eq_some_iff.mp hs
    by_contra hne
    obtain ⟨-, hstopped⟩ := hordered.past i s hs (by omega)
    have hflagged : s.Flagged := Session.reachable_flagged (reachable_sessions h s (List.mem_of_getElem? hs))
    rw [Session.Flagged, hstopped, hwaiting] at hflagged
    cases hflagged
  · by_contra hlt
    exact hheld (hordered.dropped i s hs (by omega))

/-- The shell exits between two connections, so the second connection has another shell. -/
def exitsBetween : List AgentEvent :=
  [.accepts true] ++ List.replicate 8 (AgentEvent.session 0 .attachRuns) ++
    ([.session 0 (.shellExits 3), .session 0 .exitRuns, .session 0 .exitRuns, .session 0 .pumpDropped,
      .session 0 .exitRuns, .session 0 .exitRuns, .accepts true] : List AgentEvent)

theorem exitsBetween_one_shell : ∃ a : Agent, (machine 4096).run .initial exitsBetween = some a ∧
    a.sessions.length = 2 ∧ a.handed = [0, 1] ∧
      ∀ i s, a.sessions[i]? = some s → s.exitTask = .waiting → i + 1 = a.sessions.length := by
  have hrun : (machine 4096).run .initial exitsBetween = some _ := rfl
  exact ⟨_, hrun, rfl, rfl, (one_shell 4096 (Machine.Reachable.of_run hrun)).2.1⟩

end Agent

end Keycard.GuestAgent
