import Keycard.Backends.DockerDestroy
import Keycard.Backends.Firecracker

/-!
# `FirecrackerRoom.destroy`, called any number of times

As for a container the flag comes first.  The call that set it then waits for the guest's exit line,
stops the process and removes the directory, and it can be cut off at two of these three.
-/

open Reasoning

namespace Keycard

namespace Firecracker

/-- Where `destroy` is: in the wait for `_exit_watch`, in `_stop`, or in `_remove_dir`. -/
inductive DestroyPoint where
  | watching
  | stopping (p : StopPoint)
  | removing
deriving DecidableEq, Repr

structure DestroyCalls where
  destroyed : Bool
  calls : List (RoomCall DestroyPoint)
  exitStatus : Option Int
  remove : Option (Job Unit Unit)
  directory : Bool
  process : Process
deriving DecidableEq, Repr

inductive DestroyEvent where
  | call
  | exitLine (status : Int)
  | watchEnds (n : Nat) (reply : Attempt Unit)
  | stops (n : Nat) (reply : Attempt Unit)
  | removeStarts
  /-- `rmtree` ignores errors, so something may be left. -/
  | removeFinishes (all : Bool)
  | removeResumes (n : Nat)
  | removeCancelled (n : Nat)
  | removeDropped
  | vmmExits
deriving DecidableEq, Repr

/-- What `_stop` can find out: that the process is gone, only if it is. -/
def stopAllowed (process : Process) : StopPoint → Attempt Unit → Bool
  | .terminating, .caught => process = .gone
  | .waiting, .returned () => process = .gone
  | .killing, .caught => process = .gone
  | .reaping, .returned () => process = .gone
  | _, _ => true

namespace DestroyCalls

def initial : DestroyCalls where
  destroyed := false
  calls := []
  exitStatus := none
  remove := none
  directory := true
  process := .running

/-- `destroy`, up to its `await` if it has one -/
def destroy (s : DestroyCalls) : DestroyCalls :=
  if s.destroyed then { s with calls := s.calls ++ [.ended (.returned 0)] }
  else { s with destroyed := true, calls := s.calls ++ [.suspended .watching] }

def move (s : DestroyCalls) (n : Nat) (call : RoomCall DestroyPoint) : DestroyCalls :=
  { s with calls := s.calls.set n call }

/-- The wait for the exit line is over, also if it timed out or was cancelled. -/
def afterWatch (s : DestroyCalls) (n : Nat) : Attempt Unit → DestroyCalls
  | .raised => s.move n (.ended .raised)
  | _ => s.move n (.suspended (.stopping .terminating))

def afterStop (s : DestroyCalls) (n : Nat) (p : StopPoint) (reply : Attempt Unit) :
    Option DestroyCalls :=
  if reply = .raised then some (s.move n (.ended .raised))
  else (stopNext p reply).map fun
    | .goesTo p => s.move n (.suspended (.stopping p))
    | .returns => { s.move n (.suspended .removing) with remove := some .queued }
    | .raises => s.move n (.ended .cancelled)

def step (s : DestroyCalls) : DestroyEvent → Option DestroyCalls
  | .call => some s.destroy
  -- `_watch_exit` returns after the first
  | .exitLine status =>
    if s.exitStatus = none then some { s with exitStatus := some status } else none
  | .watchEnds n reply =>
    if s.calls[n]? = some (.suspended .watching) then some (s.afterWatch n reply) else none
  | .stops n reply =>
    match s.calls[n]? with
    | some (.suspended (.stopping p)) =>
      if stopAllowed s.process p reply then s.afterStop n p reply else none
    | _ => none
  | .removeStarts =>
    if s.remove = some .queued then some { s with remove := some (.running ()) } else none
  | .removeFinishes all =>
    if s.remove = some (.running ()) then
      some { s with remove := some (.finished ()), directory := s.directory && !all }
    else none
  | .removeResumes n =>
    if s.calls[n]? = some (.suspended .removing) ∧ s.remove = some (.finished ()) then
      some (s.move n (.ended (.returned (s.exitStatus.getD 0))))
    else none
  | .removeCancelled n =>
    if s.calls[n]? = some (.suspended .removing) then some (s.move n (.ended .cancelled)) else none
  | .removeDropped =>
    if s.remove = some .queued ∧ .ended .cancelled ∈ s.calls then some { s with remove := some .dropped }
    else none
  | .vmmExits => if s.process = .running then some { s with process := .gone } else none

end DestroyCalls

def destroyMachine : Machine DestroyCalls DestroyEvent where
  init := .initial
  step := DestroyCalls.step

/-! ## What the work of the first call comes to -/

/-- The call that does the work ends before it has come to `_remove_dir`, or something is left. -/
def DestroyEvent.fails : DestroyEvent → Bool
  | .watchEnds _ .raised => true
  | .stops _ .raised => true
  | .stops _ .cancelled => true
  | .removeFinishes false => true
  | _ => false

def DestroyEvent.cuts : DestroyEvent → Bool
  | .removeCancelled _ => true
  | _ => false

def DestroyEvent.removes : DestroyEvent → Bool
  | .removeFinishes true => true
  | _ => false

/-- The condition under which another call may be told that all is done. -/
def Finishes (es : List DestroyEvent) : Prop :=
  ¬ Happened DestroyEvent.fails es ∧
    (Happened DestroyEvent.cuts es → Happened DestroyEvent.removes es)

/-- Call `n` is at `p`. -/
def At (calls : List (RoomCall DestroyPoint)) (n : Nat) (p : DestroyPoint) : Prop :=
  calls[n]? = some (.suspended p)

@[grind ←=] theorem at_def {calls : List (RoomCall DestroyPoint)} {n : Nat} {p : DestroyPoint} :
    (calls[n]? = some (.suspended p)) = At calls n p := rfl

@[grind =] theorem at_nil (n : Nat) (p : DestroyPoint) : At [] n p ↔ False := by
  simp [At]

@[grind =] theorem at_append_ended {calls : List (RoomCall DestroyPoint)} {how : Reply Int} {n : Nat}
    {p : DestroyPoint} : At (calls ++ [RoomCall.ended how]) n p ↔ At calls n p := by
  unfold At
  grind -linarith

@[grind =] theorem at_first {n : Nat} {p q : DestroyPoint} : At [.suspended q] n p ↔ n = 0 ∧ p = q := by
  unfold At
  grind -linarith

@[grind =] theorem at_set_suspended {calls : List (RoomCall DestroyPoint)} {n m : Nat} {p q : DestroyPoint} :
    At (calls.set n (.suspended q)) m p ↔ if m = n then n < calls.length ∧ p = q else At calls m p := by
  unfold At
  grind -linarith

@[grind =] theorem at_set_ended {calls : List (RoomCall DestroyPoint)} {n m : Nat} {p : DestroyPoint}
    {how : Reply Int} : At (calls.set n (.ended how)) m p ↔ m ≠ n ∧ At calls m p := by
  unfold At
  grind -linarith

@[grind →] theorem At.lt {calls : List (RoomCall DestroyPoint)} {n : Nat} {p : DestroyPoint}
    (h : At calls n p) : n < calls.length := by
  unfold At at h
  grind -linarith

@[grind →] theorem At.unique {calls : List (RoomCall DestroyPoint)} {n : Nat} {p q : DestroyPoint}
    (h : At calls n p) (h' : At calls n q) : p = q := by
  unfold At at h h'
  grind -linarith

/-- No call is suspended. -/
def Idle (calls : List (RoomCall DestroyPoint)) : Prop :=
  ∀ n p, ¬ At calls n p

@[grind =] theorem idle_append_ended {calls : List (RoomCall DestroyPoint)} {how : Reply Int} :
    Idle (calls ++ [RoomCall.ended how]) ↔ Idle calls := by
  simp only [Idle, at_append_ended]

@[grind →] theorem At.not_idle {calls : List (RoomCall DestroyPoint)} {n : Nat} {p : DestroyPoint}
    (h : At calls n p) : ¬ Idle calls :=
  fun hidle ↦ hidle n p h

@[grind =] theorem idle_first (q : DestroyPoint) : Idle [.suspended q] ↔ False :=
  ⟨fun h ↦ h 0 q rfl, False.elim⟩

@[grind =>] theorem At.idle_set_suspended {calls : List (RoomCall DestroyPoint)} {n : Nat} {p q : DestroyPoint}
    (h : At calls n p) : ¬ Idle (calls.set n (.suspended q)) :=
  fun hidle ↦ hidle n q (at_set_suspended.mpr (by simpa using h.lt))

theorem At.idle_set_ended {calls : List (RoomCall DestroyPoint)} {n : Nat} {p : DestroyPoint} (how : Reply Int)
    (h : At calls n p) (halone : ∀ m q, At calls m q → m = 0) : Idle (calls.set n (.ended how)) := by
  intro m q hm
  obtain ⟨hne, hat⟩ := at_set_ended.mp hm
  exact hne ((halone m q hat).trans (halone n p h).symm)

/-- What the events so far say about the state. -/
@[grind cases]
structure DestroyTraced (es : List DestroyEvent) (s : DestroyCalls) : Prop where
  removed : s.directory = false ↔ Happened DestroyEvent.removes es
  once : Happened DestroyEvent.fails es → ¬ Happened DestroyEvent.removes es
  finished : s.remove = some (.finished ()) →
    Happened DestroyEvent.fails es ∨ Happened DestroyEvent.removes es
  ended : Happened DestroyEvent.removes es → s.remove = some (.finished ())
  stopped : s.remove ≠ none → s.process = .gone
  /-- after a failure nothing is still to come that could remove the directory -/
  failed : Happened DestroyEvent.fails es → s.remove = some (.finished ()) ∨
    s.remove = none ∧ Idle s.calls
  alone : ∀ n p, At s.calls n p → n = 0
  place : ∀ n p, At s.calls n p → (p = .removing ↔ s.remove ≠ none)
  untouched : s.destroyed = false → s.calls = [] ∧ s.remove = none ∧ ¬ Happened DestroyEvent.fails es
  waits : s.destroyed = true → ¬ Idle s.calls ∨
    Happened DestroyEvent.fails es ∨ Happened DestroyEvent.cuts es ∨ Happened DestroyEvent.removes es

section Steps

variable {es : List DestroyEvent} {s t : DestroyCalls} {e : DestroyEvent}

theorem DestroyTraced.call (h : DestroyTraced es s) : DestroyTraced (es ++ [DestroyEvent.call]) s.destroy := by
  have hfails : DestroyEvent.call.fails = false := rfl
  have hcuts : DestroyEvent.call.cuts = false := rfl
  have hremoves : DestroyEvent.call.removes = false := rfl
  unfold DestroyCalls.destroy
  split
  · constructor <;> grind -linarith
  · rename_i hfirst
    have hcalls : s.calls = [] := (h.untouched (by simpa using hfirst)).1
    rw [hcalls, List.nil_append]
    constructor <;> grind -linarith

/-- The call that does the work goes on to another point of it. -/
theorem DestroyTraced.goes (h : DestroyTraced es s) {n : Nat} {p q : DestroyPoint}
    (hn : At s.calls n p) (hp : p ≠ .removing) (hq : q ≠ .removing)
    (hfails : e.fails = false) (hremoves : e.removes = false) :
    DestroyTraced (es ++ [e]) (s.move n (.suspended q)) := by
  unfold DestroyCalls.move
  constructor <;> grind -linarith

/-- It comes to `_remove_dir`, and has seen the process gone. -/
theorem DestroyTraced.stops (h : DestroyTraced es s) {n : Nat} {p : DestroyPoint}
    (hn : At s.calls n p) (hp : p ≠ .removing) (hgone : s.process = .gone)
    (hfails : e.fails = false) (hremoves : e.removes = false) :
    DestroyTraced (es ++ [e]) { s.move n (.suspended .removing) with remove := some .queued } := by
  unfold DestroyCalls.move
  constructor <;> grind -linarith

/-- It ends before `_remove_dir`. -/
theorem DestroyTraced.fails (h : DestroyTraced es s) {n : Nat} {p : DestroyPoint} (how : Reply Int)
    (hn : At s.calls n p) (hp : p ≠ .removing)
    (hfails : e.fails = true) (hremoves : e.removes = false) :
    DestroyTraced (es ++ [e]) (s.move n (.ended how)) := by
  have hidle : Idle (s.calls.set n (.ended how)) := hn.idle_set_ended how h.alone
  unfold DestroyCalls.move
  constructor <;> grind -linarith

/-- It ends in `_remove_dir`. -/
theorem DestroyTraced.leaves (h : DestroyTraced es s) {n : Nat} (how : Reply Int)
    (hn : At s.calls n .removing) (hfails : e.fails = false) (hremoves : e.removes = false)
    (hwhy : s.remove = some (.finished ()) ∨ e.cuts = true) :
    DestroyTraced (es ++ [e]) (s.move n (.ended how)) := by
  unfold DestroyCalls.move
  constructor <;> grind -linarith

/-- A step that leaves the calls and the directory alone. -/
theorem DestroyTraced.other (h : DestroyTraced es s) (hcalls : t.calls = s.calls)
    (hdestroyed : t.destroyed = s.destroyed) (hdirectory : t.directory = s.directory)
    (hfinished : t.remove = some (.finished ()) ↔ s.remove = some (.finished ()))
    (hnone : t.remove = none ↔ s.remove = none) (hgone : s.process = .gone → t.process = .gone)
    (hfails : e.fails = false) (hremoves : e.removes = false) : DestroyTraced (es ++ [e]) t := by
  constructor <;> grind -linarith

/-- The job of `_remove_dir` is over. -/
theorem DestroyTraced.removeFinishes (h : DestroyTraced es s) (hjob : s.remove = some (.running ()))
    (all : Bool) : DestroyTraced (es ++ [DestroyEvent.removeFinishes all])
      { s with remove := some (.finished ()), directory := s.directory && !all } := by
  cases all with
  | true =>
    have hfails : (DestroyEvent.removeFinishes true).fails = false := rfl
    have hremoves : (DestroyEvent.removeFinishes true).removes = true := rfl
    constructor <;> grind -linarith
  | false =>
    have hfails : (DestroyEvent.removeFinishes false).fails = true := rfl
    have hremoves : (DestroyEvent.removeFinishes false).removes = false := rfl
    constructor <;> grind -linarith

theorem DestroyTraced.watchEnds (h : DestroyTraced es s) {n : Nat} (hn : At s.calls n .watching)
    (reply : Attempt Unit) : DestroyTraced (es ++ [DestroyEvent.watchEnds n reply]) (s.afterWatch n reply) := by
  cases reply with
  | returned => exact h.goes hn nofun nofun rfl rfl
  | caught => exact h.goes hn nofun nofun rfl rfl
  | raised => exact h.fails _ hn nofun rfl rfl
  | cancelled => exact h.goes hn nofun nofun rfl rfl

/-- Where `_stop` returns, the process is gone. -/
theorem stopNext_returns {p : StopPoint} {reply : Attempt Unit} {process : Process}
    (hallowed : stopAllowed process p reply = true) (hnext : stopNext p reply = some .returns) :
    process = .gone := by
  cases p <;> cases reply <;> simp_all [stopNext, stopAllowed]

theorem stopNext_raises {p : StopPoint} {reply : Attempt Unit} (hnext : stopNext p reply = some .raises) :
    reply = .cancelled := by
  cases p <;> cases reply <;> simp_all [stopNext]

/-- Only a cancellation goes through `_stop`. -/
theorem stopNext_reply {p : StopPoint} {reply : Attempt Unit} {next : Next StopPoint}
    (hnext : stopNext p reply = some next) (hne : next ≠ .raises) :
    reply = .returned () ∨ reply = .caught := by
  cases p <;> cases reply <;> simp_all [stopNext]

theorem DestroyTraced.afterStop (h : DestroyTraced es s) {n : Nat} {p : StopPoint} {reply : Attempt Unit}
    (hn : At s.calls n (.stopping p)) (hallowed : stopAllowed s.process p reply = true)
    (hst : s.afterStop n p reply = some t) : DestroyTraced (es ++ [DestroyEvent.stops n reply]) t := by
  unfold DestroyCalls.afterStop at hst
  split at hst
  · rename_i hraised
    cases hst
    rw [hraised]
    exact h.fails _ hn nofun rfl rfl
  · obtain ⟨next, hnext, hst⟩ := Option.map_eq_some_iff.mp hst
    cases next with
    | goesTo q =>
      cases hst
      rcases stopNext_reply hnext nofun with hreply | hreply
      · exact hreply ▸ h.goes hn nofun nofun rfl rfl
      · exact hreply ▸ h.goes hn nofun nofun rfl rfl
    | returns =>
      cases hst
      have hgone : s.process = .gone := stopNext_returns hallowed hnext
      rcases stopNext_reply hnext nofun with hreply | hreply
      · exact hreply ▸ h.stops hn nofun hgone rfl rfl
      · exact hreply ▸ h.stops hn nofun hgone rfl rfl
    | raises =>
      cases hst
      rw [stopNext_raises hnext]
      exact h.fails _ hn nofun rfl rfl

theorem DestroyTraced.step (h : DestroyTraced es s) (hst : s.step e = some t) :
    DestroyTraced (es ++ [e]) t := by
  cases e with
  | call =>
    cases hst
    exact h.call
  | exitLine status =>
    simp only [DestroyCalls.step] at hst
    split at hst <;> cases hst
    exact h.other rfl rfl rfl Iff.rfl Iff.rfl id rfl rfl
  | watchEnds n reply =>
    simp only [DestroyCalls.step] at hst
    split at hst <;> cases hst
    rename_i hn
    exact h.watchEnds hn reply
  | stops n reply =>
    simp only [DestroyCalls.step] at hst
    split at hst
    · rename_i p hn
      split at hst
      · rename_i hallowed
        exact h.afterStop hn hallowed hst
      · cases hst
    · cases hst
  | removeStarts =>
    simp only [DestroyCalls.step] at hst
    split at hst <;> cases hst
    rename_i hjob
    exact h.other rfl rfl rfl (by simp [hjob]) (by simp [hjob]) id rfl rfl
  | removeFinishes all =>
    simp only [DestroyCalls.step] at hst
    split at hst <;> cases hst
    rename_i hjob
    exact h.removeFinishes hjob all
  | removeResumes n =>
    simp only [DestroyCalls.step] at hst
    split at hst <;> cases hst
    rename_i hif
    exact h.leaves _ hif.1 rfl rfl (.inl hif.2)
  | removeCancelled n =>
    simp only [DestroyCalls.step] at hst
    split at hst <;> cases hst
    rename_i hn
    exact h.leaves _ hn rfl rfl (.inr rfl)
  | removeDropped =>
    simp only [DestroyCalls.step] at hst
    split at hst <;> cases hst
    rename_i hif
    exact h.other rfl rfl rfl (by simp [hif.1]) (by simp [hif.1]) id rfl rfl
  | vmmExits =>
    simp only [DestroyCalls.step] at hst
    split at hst <;> cases hst
    exact h.other rfl rfl rfl Iff.rfl Iff.rfl (fun _ ↦ rfl) rfl rfl

end Steps

theorem run_destroyTraced {es : List DestroyEvent} {s : DestroyCalls}
    (h : destroyMachine.run .initial es = some s) : DestroyTraced es s := by
  refine Machine.run_induction (m := destroyMachine) h ?_ fun _ _ _ _ ht hst ↦ ht.step hst
  have hnone (p : DestroyEvent → Bool) : ¬ Happened p [] := not_happened_nil p
  constructor <;> simp [destroyMachine, DestroyCalls.initial, hnone, at_nil]

namespace DestroyCalls

/-- All calls made so far have ended, and one of them returned. -/
def Answered (s : DestroyCalls) : Prop :=
  (∀ call ∈ s.calls, ∃ how, call = .ended how) ∧ ∃ status, .ended (.returned status) ∈ s.calls

/-- The firecracker process has ended and the instance directory is removed. -/
def TornDown (s : DestroyCalls) : Prop :=
  s.process = .gone ∧ s.directory = false

end DestroyCalls

/-- When all calls are over and one has returned, nothing is left of the microVM exactly if the work of
the first one came to its end. -/
theorem tornDown_iff_finishes {es : List DestroyEvent} {s : DestroyCalls}
    (h : destroyMachine.run .initial es = some s) (hover : s.Answered) : s.TornDown ↔ Finishes es := by
  have ht := run_destroyTraced h
  obtain ⟨hended, status, hstatus⟩ := hover
  have htouched : s.destroyed = true := by
    by_contra hno
    rw [(ht.untouched (by simpa using hno)).1] at hstatus
    cases hstatus
  have hidle : Idle s.calls := by
    intro n p hat
    obtain ⟨how, hcall⟩ := hended _ (List.mem_of_getElem? hat)
    cases hcall
  unfold DestroyCalls.TornDown Finishes
  constructor
  · rintro ⟨-, hgone⟩
    have hremoves := ht.removed.mp hgone
    exact ⟨fun hfails ↦ ht.once hfails hremoves, fun _ ↦ hremoves⟩
  · rintro ⟨hfails, hcut⟩
    have hremoves : Happened DestroyEvent.removes es := by
      rcases ht.waits htouched with hw | hw | hw | hw
      · exact absurd hidle hw
      · exact absurd hw hfails
      · exact hcut hw
      · exact hw
    have hjob : s.remove ≠ none := by
      rw [ht.ended hremoves]
      nofun
    exact ⟨ht.stopped hjob, ht.removed.mpr hremoves⟩

end Firecracker

/-! ## Any room -/

/-- Once all the calls of `destroy` on a room are over and one of them has returned, the sandbox is torn
down exactly if the call that set the flag, or the job it left in the executor, came to its end. -/
theorem tornDown_exactly_if_first_finishes (ds : List Docker.DestroyEvent) (d : Docker.DestroyCalls)
    (fs : List Firecracker.DestroyEvent) (f : Firecracker.DestroyCalls) :
    (Docker.destroyMachine.run .initial ds = some d → d.Answered → (d.TornDown ↔ Docker.Finishes ds)) ∧
    (Firecracker.destroyMachine.run .initial fs = some f → f.Answered →
      (f.TornDown ↔ Firecracker.Finishes fs)) :=
  ⟨Docker.tornDown_iff_finishes, Firecracker.tornDown_iff_finishes⟩

namespace Firecracker

/-- A microVM that exits in time, and a second call. -/
def destroyedTwice : List DestroyEvent :=
  [.call, .exitLine 3, .call, .watchEnds 0 (.returned ()), .stops 0 (.returned ()), .vmmExits,
    .stops 0 (.returned ()), .removeStarts, .removeFinishes true, .removeResumes 0]

end Firecracker

namespace Docker

/-- A container that exits in time, and a second call. -/
def destroyedTwice : List DestroyEvent :=
  [.call, .threadStarts, .call, .reloadEnds (.returned ⟨false, some 3⟩) false, .removeEnds (.returned ()),
    .resumes 0]

end Docker

theorem destroyedTwice_tornDown :
    (∃ s : Docker.DestroyCalls, Docker.destroyMachine.run .initial Docker.destroyedTwice = some s ∧
      Docker.Finishes Docker.destroyedTwice ∧ s.TornDown) ∧
    (∃ s : Firecracker.DestroyCalls,
      Firecracker.destroyMachine.run .initial Firecracker.destroyedTwice = some s ∧
        Firecracker.Finishes Firecracker.destroyedTwice ∧ s.TornDown) := by
  obtain ⟨hdocker, hfirecracker⟩ :=
    tornDown_exactly_if_first_finishes Docker.destroyedTwice _ Firecracker.destroyedTwice _
  have hd : Docker.Finishes Docker.destroyedTwice := .inr (by decide)
  have hf : Firecracker.Finishes Firecracker.destroyedTwice := ⟨by decide, by decide⟩
  refine ⟨⟨_, rfl, hd, (hdocker rfl ⟨?_, 3, .head _⟩).mpr hd⟩,
    ⟨_, rfl, hf, (hfirecracker rfl ⟨?_, 3, .head _⟩).mpr hf⟩⟩
  · exact List.forall_mem_cons.mpr ⟨⟨_, rfl⟩, List.forall_mem_cons.mpr ⟨⟨_, rfl⟩, nofun⟩⟩
  · exact List.forall_mem_cons.mpr ⟨⟨_, rfl⟩, List.forall_mem_cons.mpr ⟨⟨_, rfl⟩, nofun⟩⟩

/-- The first call is cut off before its work has started, and the second returns 0. -/
theorem second_call_leaves_sandbox :
    ¬ ((∀ (es : List Docker.DestroyEvent) (s : Docker.DestroyCalls),
        Docker.destroyMachine.run .initial es = some s → s.Answered → s.TornDown) ∧
      (∀ (es : List Firecracker.DestroyEvent) (s : Firecracker.DestroyCalls),
        Firecracker.destroyMachine.run .initial es = some s → s.Answered → s.TornDown)) := by
  rintro ⟨hdocker, -⟩
  have hdown := hdocker [.call, .cancelled 0, .jobDropped, .call] _ rfl ⟨?_, 0, .tail _ (.head _)⟩
  · cases hdown
  · exact List.forall_mem_cons.mpr ⟨⟨_, rfl⟩, List.forall_mem_cons.mpr ⟨⟨_, rfl⟩, nofun⟩⟩

end Keycard
