import Keycard.Reasoning.Executor
import Keycard.Reasoning.Machine

/-!
# `DockerRoom.destroy`, called any number of times

The flag is set before the work is done.  Nothing suspends under the lock, so it is never contended:
the first call sets the flag and waits for its job in the executor, and every other call returns 0
before its first `await`.
-/

open Reasoning

namespace Keycard

/-- One call of a coroutine of a room: suspended at a point of type `π`, or over. -/
inductive RoomCall (π : Type) where
  | suspended (point : π)
  | ended (how : Reply Int)
deriving DecidableEq, Repr

namespace Docker

/-- How a call into docker-py comes back; `NotFound` is a `DockerException` as well. -/
inductive DockerReply (α : Type) where
  | returned (value : α)
  | notFound
  | dockerException
  | raised
deriving DecidableEq, Repr

/-- `container.attrs["State"]` -/
structure ContainerState where
  running : Bool
  exitCode : Option Int
deriving DecidableEq, Repr

/-- Where the thread of `_destroy` is. -/
inductive DestroyPoint where
  | reloading
  | killing
  | removing (status : Int)
deriving DecidableEq, Repr

structure DestroyCalls where
  destroyed : Bool
  calls : List (RoomCall Unit)
  job : Option (Job DestroyPoint (Option Int))
  /-- The container is there. -/
  container : Bool
deriving DecidableEq, Repr

inductive DestroyEvent where
  | call
  | threadStarts
  /-- `late`: the deadline of EXIT_GRACE has passed. -/
  | reloadEnds (reply : DockerReply ContainerState) (late : Bool)
  | killEnds (reply : DockerReply Unit)
  | removeEnds (reply : DockerReply Unit)
  | resumes (n : Nat)
  | cancelled (n : Nat)
  | jobDropped
deriving DecidableEq, Repr

namespace DestroyCalls

def initial : DestroyCalls where
  destroyed := false
  calls := []
  job := none
  container := true

def go (s : DestroyCalls) (p : DestroyPoint) : DestroyCalls :=
  { s with job := some (.running p) }

def finish (s : DestroyCalls) (result : Option Int) : DestroyCalls :=
  { s with job := some (.finished result) }

/-- The polling loop, from one `reload` to the next. -/
def afterReload (s : DestroyCalls) (late : Bool) : DockerReply ContainerState → DestroyCalls
  | .returned state =>
    if !state.running then s.go (.removing (state.exitCode.getD 0))
    else if late then s.go .killing
    else s.go .reloading
  | .notFound => { s with container := false }.go (.removing 0)
  | .dockerException => s.go (.removing 0)
  | .raised => s.finish none

def afterKill (s : DestroyCalls) : DockerReply Unit → DestroyCalls
  | .returned () => s.go (.removing 0)
  | .notFound => { s with container := false }.go (.removing 0)
  | .dockerException => s.go (.removing 0)
  | .raised => s.finish none

/-- `container.remove(force=True)`; any `DockerException` is only logged. -/
def afterRemove (s : DestroyCalls) (status : Int) : DockerReply Unit → DestroyCalls
  | .returned () => { s with container := false }.finish (some status)
  | .notFound => { s with container := false }.finish (some status)
  | .dockerException => s.finish (some status)
  | .raised => s.finish none

/-- `destroy`, up to its `await` if it has one -/
def destroy (s : DestroyCalls) : DestroyCalls :=
  if s.destroyed then { s with calls := s.calls ++ [.ended (.returned 0)] }
  else { s with destroyed := true, calls := s.calls ++ [.suspended ()], job := some .queued }

def step (s : DestroyCalls) : DestroyEvent → Option DestroyCalls
  | .call => some s.destroy
  | .threadStarts => if s.job = some .queued then some (s.go .reloading) else none
  | .reloadEnds reply late =>
    if s.job = some (.running .reloading) then some (s.afterReload late reply) else none
  | .killEnds reply => if s.job = some (.running .killing) then some (s.afterKill reply) else none
  | .removeEnds reply =>
    match s.job with
    | some (.running (.removing status)) => some (s.afterRemove status reply)
    | _ => none
  | .resumes n =>
    match s.calls[n]?, s.job with
    | some (.suspended ()), some (.finished (some status)) =>
      some { s with calls := s.calls.set n (.ended (.returned status)) }
    | some (.suspended ()), some (.finished none) =>
      some { s with calls := s.calls.set n (.ended .raised) }
    | _, _ => none
  | .cancelled n =>
    if s.calls[n]? = some (.suspended ()) then
      some { s with calls := s.calls.set n (.ended .cancelled) }
    else none
  -- the cancellation takes back a job that has not started
  | .jobDropped =>
    if s.job = some .queued ∧ .ended .cancelled ∈ s.calls then some { s with job := some .dropped }
    else none

end DestroyCalls

def destroyMachine : Machine DestroyCalls DestroyEvent where
  init := .initial
  step := DestroyCalls.step

/-! ## What the work of the first call comes to -/

/-- Docker has said that there is no such container. -/
def DestroyEvent.findsNone : DestroyEvent → Bool
  | .reloadEnds .notFound _ => true
  | .killEnds .notFound => true
  | .removeEnds .notFound => true
  | _ => false

/-- The thread ends without removing the container. -/
def DestroyEvent.fails : DestroyEvent → Bool
  | .reloadEnds .raised _ => true
  | .killEnds .raised => true
  | .removeEnds .dockerException => true
  | .removeEnds .raised => true
  | _ => false

def DestroyEvent.removes : DestroyEvent → Bool
  | .removeEnds (.returned ()) => true
  | _ => false

def DestroyEvent.cuts : DestroyEvent → Bool
  | .cancelled _ => true
  | _ => false

/-- The condition under which another call may be told that all is done: unless the container is gone
anyway, the thread does not fail, and if the call that waits for it is cut off, it still comes to its
end. -/
def Finishes (es : List DestroyEvent) : Prop :=
  Happened DestroyEvent.findsNone es ∨
    ¬ Happened DestroyEvent.fails es ∧
      (Happened DestroyEvent.cuts es → Happened DestroyEvent.removes es)

/-- The thread has come to its end. -/
def DestroyCalls.threadEnded (s : DestroyCalls) : Bool :=
  match s.job with
  | some (.finished _) => true
  | _ => false

/-- What one step of the thread can do. -/
inductive ThreadStep (e : DestroyEvent) (s : DestroyCalls) : DestroyCalls → Prop
  | goesOn (p : DestroyPoint) : e.findsNone = false → e.fails = false → e.removes = false →
      ThreadStep e s (s.go p)
  | findsNone (p : DestroyPoint) : e.findsNone = true → e.fails = false → e.removes = false →
      ThreadStep e s ({ s with container := false }.go p)
  | fails (result : Option Int) : e.findsNone = false → e.fails = true → e.removes = false →
      ThreadStep e s (s.finish result)
  | removes (status : Int) : e.findsNone = true ∨ e.removes = true → e.fails = false →
      ThreadStep e s ({ s with container := false }.finish (some status))

theorem afterReload_step (s : DestroyCalls) (late : Bool) (reply : DockerReply ContainerState) :
    ThreadStep (.reloadEnds reply late) s (s.afterReload late reply) := by
  cases reply with
  | returned state =>
    unfold DestroyCalls.afterReload
    dsimp only
    split
    · exact .goesOn _ rfl rfl rfl
    · split
      · exact .goesOn _ rfl rfl rfl
      · exact .goesOn _ rfl rfl rfl
  | notFound => exact .findsNone _ rfl rfl rfl
  | dockerException => exact .goesOn _ rfl rfl rfl
  | raised => exact .fails none rfl rfl rfl

theorem afterKill_step (s : DestroyCalls) (reply : DockerReply Unit) :
    ThreadStep (.killEnds reply) s (s.afterKill reply) := by
  cases reply with
  | returned => exact .goesOn _ rfl rfl rfl
  | notFound => exact .findsNone _ rfl rfl rfl
  | dockerException => exact .goesOn _ rfl rfl rfl
  | raised => exact .fails none rfl rfl rfl

theorem afterRemove_step (s : DestroyCalls) (status : Int) (reply : DockerReply Unit) :
    ThreadStep (.removeEnds reply) s (s.afterRemove status reply) := by
  cases reply with
  | returned => exact .removes status (.inr rfl) rfl
  | notFound => exact .removes status (.inl rfl) rfl
  | dockerException => exact .fails (some status) rfl rfl rfl
  | raised => exact .fails none rfl rfl rfl

/-- What the events so far say about the state. -/
@[grind cases]
structure DestroyTraced (es : List DestroyEvent) (s : DestroyCalls) : Prop where
  removed : s.container = false ↔
    Happened DestroyEvent.findsNone es ∨ Happened DestroyEvent.removes es
  /-- before the end of the thread neither of the two has happened -/
  before : s.threadEnded = false →
    ¬ Happened DestroyEvent.fails es ∧ ¬ Happened DestroyEvent.removes es
  finished : s.threadEnded = true → Happened DestroyEvent.fails es ∨ s.container = false
  once : Happened DestroyEvent.fails es → ¬ Happened DestroyEvent.removes es
  untouched : s.destroyed = false → s.calls = [] ∧ s.job = none
  /-- whoever set the flag still waits, or can have its answer, or was cut off -/
  waits : s.destroyed = true → .suspended () ∈ s.calls ∨ s.threadEnded = true ∨
    Happened DestroyEvent.cuts es

section Steps

variable {es : List DestroyEvent} {s t : DestroyCalls} {e : DestroyEvent}

@[grind =] theorem threadEnded_go (s : DestroyCalls) (p : DestroyPoint) : (s.go p).threadEnded = false := rfl

@[grind =] theorem threadEnded_finish (s : DestroyCalls) (result : Option Int) :
    (s.finish result).threadEnded = true := rfl

theorem DestroyTraced.thread (h : DestroyTraced es s) (hended : s.threadEnded = false)
    (hjob : s.job ≠ none) (hst : ThreadStep e s t) : DestroyTraced (es ++ [e]) t := by
  have htouched : s.destroyed = true := by
    by_contra hno
    exact hjob (h.untouched (by simpa using hno)).2
  cases hst with
  | goesOn p hfinds hfails hremoves => constructor <;> grind -linarith [DestroyCalls.go]
  | findsNone p hfinds hfails hremoves => constructor <;> grind -linarith [DestroyCalls.go]
  | fails result hfinds hfails hremoves => constructor <;> grind -linarith [DestroyCalls.finish]
  | removes status hgone hfails => constructor <;> grind -linarith [DestroyCalls.finish]

/-- A step of a call, which leaves the thread alone. -/
theorem DestroyTraced.caller (h : DestroyTraced es s) (hcontainer : t.container = s.container)
    (hended : t.threadEnded = s.threadEnded)
    (hfinds : e.findsNone = false) (hfails : e.fails = false) (hremoves : e.removes = false)
    (huntouched : t.destroyed = false → t.calls = [] ∧ t.job = none)
    (hwaits : t.destroyed = true → .suspended () ∈ t.calls ∨ t.threadEnded = true ∨
      Happened DestroyEvent.cuts (es ++ [e])) : DestroyTraced (es ++ [e]) t := by
  constructor <;> grind -linarith

theorem destroy_destroyed (s : DestroyCalls) : s.destroy.destroyed = true := by
  unfold DestroyCalls.destroy
  split
  · assumption
  · rfl

theorem DestroyTraced.call (h : DestroyTraced es s) : DestroyTraced (es ++ [DestroyEvent.call]) s.destroy := by
  refine h.caller ?_ ?_ rfl rfl rfl ?_ ?_
  · unfold DestroyCalls.destroy
    split <;> rfl
  · unfold DestroyCalls.destroy
    split
    · rfl
    · rename_i hfirst
      rw [DestroyCalls.threadEnded, DestroyCalls.threadEnded, (h.untouched (by simpa using hfirst)).2]
  · intro hno
    rw [destroy_destroyed] at hno
    cases hno
  · intro _
    unfold DestroyCalls.destroy
    split
    · rename_i hdone
      rcases h.waits hdone with hw | hw | hw
      · exact .inl (List.mem_append_left _ hw)
      · exact .inr (.inl hw)
      · exact .inr (.inr (happened_append.mpr (.inl hw)))
    · exact .inl (by simp)

/-- A call that was suspended ends. -/
theorem DestroyTraced.ends (h : DestroyTraced es s) {n : Nat} (how : Reply Int)
    (hn : s.calls[n]? = some (.suspended ()))
    (hfinds : e.findsNone = false) (hfails : e.fails = false) (hremoves : e.removes = false)
    (hwhy : s.threadEnded = true ∨ e.cuts = true) :
    DestroyTraced (es ++ [e]) { s with calls := s.calls.set n (.ended how) } := by
  refine h.caller rfl rfl hfinds hfails hremoves (fun hno ↦ ?_) fun _ ↦ ?_
  · have hcalls : s.calls = [] := (h.untouched hno).1
    rw [hcalls] at hn
    cases hn
  · rcases hwhy with hended | hcut
    · exact .inr (.inl hended)
    · exact .inr (.inr (happened_append.mpr (.inr hcut)))

theorem DestroyTraced.step (h : DestroyTraced es s) (hst : s.step e = some t) :
    DestroyTraced (es ++ [e]) t := by
  cases e with
  | call =>
    cases hst
    exact h.call
  | threadStarts =>
    simp only [DestroyCalls.step] at hst
    split at hst <;> cases hst
    rename_i hjob
    exact h.thread (by simp [DestroyCalls.threadEnded, hjob]) (by simp [hjob]) (.goesOn _ rfl rfl rfl)
  | reloadEnds reply late =>
    simp only [DestroyCalls.step] at hst
    split at hst <;> cases hst
    rename_i hjob
    exact h.thread (by simp [DestroyCalls.threadEnded, hjob]) (by simp [hjob]) (afterReload_step s late reply)
  | killEnds reply =>
    simp only [DestroyCalls.step] at hst
    split at hst <;> cases hst
    rename_i hjob
    exact h.thread (by simp [DestroyCalls.threadEnded, hjob]) (by simp [hjob]) (afterKill_step s reply)
  | removeEnds reply =>
    simp only [DestroyCalls.step] at hst
    split at hst <;> cases hst
    rename_i status hjob
    exact h.thread (by simp [DestroyCalls.threadEnded, hjob]) (by simp [hjob])
      (afterRemove_step s status reply)
  | resumes n =>
    simp only [DestroyCalls.step] at hst
    split at hst <;> cases hst
    · rename_i status hn hjob
      exact h.ends _ hn rfl rfl rfl (.inl (by simp [DestroyCalls.threadEnded, hjob]))
    · rename_i hn hjob
      exact h.ends _ hn rfl rfl rfl (.inl (by simp [DestroyCalls.threadEnded, hjob]))
  | cancelled n =>
    simp only [DestroyCalls.step] at hst
    split at hst <;> cases hst
    rename_i hn
    exact h.ends _ hn rfl rfl rfl (.inr rfl)
  | jobDropped =>
    simp only [DestroyCalls.step] at hst
    split at hst <;> cases hst
    rename_i hif
    obtain ⟨hjob, hcalls⟩ := hif
    refine h.caller rfl (by simp [DestroyCalls.threadEnded, hjob]) rfl rfl rfl (fun hno ↦ ?_) fun htouched ↦ ?_
    · have hnone : s.job = none := (h.untouched hno).2
      rw [hjob] at hnone
      cases hnone
    · rcases h.waits htouched with hw | hw | hw
      · exact .inl hw
      · simp [DestroyCalls.threadEnded, hjob] at hw
      · exact .inr (.inr (happened_append.mpr (.inl hw)))

end Steps

theorem run_destroyTraced {es : List DestroyEvent} {s : DestroyCalls}
    (h : destroyMachine.run .initial es = some s) : DestroyTraced es s := by
  refine Machine.run_induction (m := destroyMachine) h ?_ fun _ _ _ _ ht hst ↦ ht.step hst
  constructor <;> simp [destroyMachine, DestroyCalls.initial, not_happened_nil, DestroyCalls.threadEnded]

namespace DestroyCalls

/-- All calls made so far have ended, and one of them returned. -/
def Answered (s : DestroyCalls) : Prop :=
  (∀ call ∈ s.calls, ∃ how, call = .ended how) ∧ ∃ status, .ended (.returned status) ∈ s.calls

def TornDown (s : DestroyCalls) : Prop :=
  s.container = false

end DestroyCalls

/-- When all calls are over and one has returned, the container is gone exactly if the work of the
first one came to its end. -/
theorem tornDown_iff_finishes {es : List DestroyEvent} {s : DestroyCalls}
    (h : destroyMachine.run .initial es = some s) (hover : s.Answered) : s.TornDown ↔ Finishes es := by
  have ht := run_destroyTraced h
  obtain ⟨hended, status, hstatus⟩ := hover
  have htouched : s.destroyed = true := by
    by_contra hno
    rw [(ht.untouched (by simpa using hno)).1] at hstatus
    cases hstatus
  unfold DestroyCalls.TornDown Finishes
  constructor
  · intro hgone
    rcases ht.removed.mp hgone with hfinds | hremoves
    · exact .inl hfinds
    · exact .inr ⟨fun hfails ↦ ht.once hfails hremoves, fun _ ↦ hremoves⟩
  · rintro (hfinds | ⟨hfails, hcut⟩)
    · exact ht.removed.mpr (.inl hfinds)
    · rcases ht.waits htouched with hw | hw | hw
      · obtain ⟨how, hcall⟩ := hended _ hw
        cases hcall
      · exact (ht.finished hw).resolve_left hfails
      · exact ht.removed.mpr (.inr (hcut hw))

end Docker

end Keycard
