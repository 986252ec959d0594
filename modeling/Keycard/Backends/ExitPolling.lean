import Keycard.Backends.DockerDestroy
import Mathlib.Algebra.Order.Field.Rat
import Mathlib.Tactic.Linarith
import Mathlib.Tactic.NormNum

/-!
# The polling loop of `_destroy`, against a clock

The thread of `DockerRoom.destroy` asks for the state of the container until it has exited or `EXIT_GRACE`
has passed.  Here the answers of docker-py and the readings of the clock are given in advance, and the thread
is driven through them.
-/

namespace Keycard.Docker

/-- `EXIT_GRACE`, in seconds. -/
def exitGrace : Rat := 1

/-- `EXIT_POLL`, in seconds. -/
def exitPoll : Rat := 1 / 20

/-- What docker-py and `time.monotonic()` answer to one `_destroy`. -/
structure PollEnv where
  started : Rat
  /-- how `reload()` comes back in the `n`-th poll -/
  reload : Nat → DockerReply ContainerState
  now : Nat → Rat
  kill : DockerReply Unit
  remove : DockerReply Unit

namespace PollEnv

/-- `time.monotonic() >= deadline`, in the `n`-th poll -/
def late (env : PollEnv) (n : Nat) : Bool :=
  env.started + exitGrace ≤ env.now n

/-- The clock goes on by `EXIT_POLL` at least from one poll to the next. -/
structure Ticks (env : PollEnv) : Prop where
  first : env.started ≤ env.now 0
  next : ∀ n, env.now n + exitPoll ≤ env.now (n + 1)

/-- What comes back to the thread after `n` calls. -/
def answer (env : PollEnv) (n : Nat) : DestroyPoint → DestroyEvent
  | .reloading => .reloadEnds (env.reload n) (env.late n)
  | .killing => .killEnds env.kill
  | .removing _ => .removeEnds env.remove

/-- The thread with `n` calls behind it: what comes back to it until it is over, and the state then. -/
def thread (env : PollEnv) (n : Nat) (s : DestroyCalls) : Nat → Option (List DestroyEvent × DestroyCalls)
  | 0 => none
  | fuel + 1 =>
    match s.job with
    | some (.running p) =>
      (s.step (env.answer n p)).bind fun t ↦
        (env.thread (n + 1) t fuel).map fun r ↦ (env.answer n p :: r.1, r.2)
    | _ => some ([], s)

/-- The container runs, and the thread sleeps for `EXIT_POLL`. -/
def goesOn (env : PollEnv) (n : Nat) : Bool :=
  match env.reload n with
  | .returned state => state.running && !env.late n
  | _ => false

/-- The `n`-th poll ends in an exception that is not a `DockerException`. -/
def escapesAt (env : PollEnv) (n : Nat) : Bool :=
  match env.reload n with
  | .raised => true
  | .returned state => state.running && env.late n && env.kill = .raised
  | _ => false

/-- The first poll from the `n`-th on that does not go on escapes both handlers. -/
inductive Escapes (env : PollEnv) : Nat → Prop
  | now {n : Nat} : env.escapesAt n = true → Escapes env n
  | later {n : Nat} : env.goesOn n = true → Escapes env (n + 1) → Escapes env n

end PollEnv

/-- `container.remove(force=True)` has been tried. -/
def DestroyEvent.triesRemove : DestroyEvent → Bool
  | .removeEnds _ => true
  | _ => false

def DestroyEvent.kills : DestroyEvent → Bool
  | .killEnds _ => true
  | _ => false

/-- The exit code of a container that was seen not to run. -/
def DestroyEvent.stopped? : DestroyEvent → Option Int
  | .reloadEnds (.returned state) _ => if state.running then none else some (state.exitCode.getD 0)
  | _ => none

/-- The exit code if a poll before the kill saw the container not running, else 0. -/
def exitSeen (es : List DestroyEvent) : Int :=
  ((es.takeWhile fun e ↦ !e.kills).findSome? DestroyEvent.stopped?).getD 0

/-- The thread comes to an end, has tried to remove the container once, and answers with the exit code. -/
def PollEnv.RemovesOnce (env : PollEnv) (s : DestroyCalls) : Prop :=
  ∃ fuel es t, env.thread 0 s fuel = some (es, t) ∧ es.countP DestroyEvent.triesRemove = 1 ∧
    ∀ status, t.job = some (.finished (some status)) → status = exitSeen es

namespace PollEnv

variable {env : PollEnv} {n fuel : Nat} {s t : DestroyCalls} {es : List DestroyEvent}

/-! ## One call of the thread -/

theorem thread_reloading (hjob : s.job = some (.running .reloading)) :
    env.thread n s (fuel + 1) =
      (env.thread (n + 1) (s.afterReload (env.late n) (env.reload n)) fuel).map
        fun r ↦ (.reloadEnds (env.reload n) (env.late n) :: r.1, r.2) := by
  simp only [thread, hjob, answer, DestroyCalls.step, if_true, Option.bind_some]

theorem thread_killing (hjob : s.job = some (.running .killing)) :
    env.thread n s (fuel + 1) =
      (env.thread (n + 1) (s.afterKill env.kill) fuel).map fun r ↦ (.killEnds env.kill :: r.1, r.2) := by
  simp only [thread, hjob, answer, DestroyCalls.step, if_true, Option.bind_some]

theorem thread_removing {status : Int} (hjob : s.job = some (.running (.removing status))) :
    env.thread n s (fuel + 1) =
      (env.thread (n + 1) (s.afterRemove status env.remove) fuel).map
        fun r ↦ (.removeEnds env.remove :: r.1, r.2) := by
  simp only [thread, hjob, answer, DestroyCalls.step, Option.bind_some]

theorem thread_finished {result : Option Int} (hjob : s.job = some (.finished result)) :
    env.thread n s (fuel + 1) = some ([], s) := by
  simp only [thread, hjob]

/-- What the thread does is a run of the calls it belongs to. -/
theorem thread_run (h : env.thread n s fuel = some (es, t)) : destroyMachine.run s es = some t := by
  induction fuel generalizing n s es with
  | zero => cases h
  | succ fuel ih =>
    unfold thread at h
    split at h
    · rw [Option.bind_eq_some_iff] at h
      obtain ⟨u, hu, h⟩ := h
      rw [Option.map_eq_some_iff] at h
      obtain ⟨r, hr, heq⟩ := h
      cases heq
      show (s.step _).bind _ = some _
      rw [hu]
      exact ih hr
    · cases h
      rfl

/-! ## How the loop is left -/

/-- The thread has come through, with the removal tried once. -/
structure Removed (es : List DestroyEvent) (t : DestroyCalls) : Prop where
  once : es.countP DestroyEvent.triesRemove = 1
  answers : ∀ status, t.job = some (.finished (some status)) → status = exitSeen es

theorem thread_from_removing {status : Int} (hjob : s.job = some (.running (.removing status)))
    (h : env.thread n s fuel = some (es, t)) :
    es = [.removeEnds env.remove] ∧
      ∀ status', t.job = some (.finished (some status')) → status' = status := by
  have hfinished : ∃ result, (s.afterRemove status env.remove).job = some (.finished result) ∧
      ∀ status', result = some status' → status' = status := by
    cases env.remove with
    | returned | notFound | dockerException => exact ⟨some status, rfl, fun _ h ↦ (Option.some.inj h).symm⟩
    | raised => exact ⟨none, rfl, fun _ h ↦ by cases h⟩
  obtain ⟨result, hresult, hstatus⟩ := hfinished
  match fuel with
  | 0 => cases h
  | 1 =>
    rw [thread_removing hjob] at h
    cases h
  | fuel + 2 =>
    rw [thread_removing hjob, thread_finished hresult] at h
    cases h
    refine ⟨rfl, fun status' h ↦ hstatus status' ?_⟩
    rw [hresult] at h
    cases h
    rfl

theorem afterKill_job (s : DestroyCalls) (reply : DockerReply Unit) :
    (s.afterKill reply).job =
      if reply = .raised then some (.finished none) else some (.running (.removing 0)) := by
  cases reply <;> rfl

theorem thread_from_killing (hjob : s.job = some (.running .killing))
    (h : env.thread n s fuel = some (es, t)) :
    env.kill = .raised ∧ es = [.killEnds env.kill] ∨
      env.kill ≠ .raised ∧ es = [.killEnds env.kill, .removeEnds env.remove] ∧
        ∀ status, t.job = some (.finished (some status)) → status = 0 := by
  cases fuel with
  | zero => cases h
  | succ fuel =>
    rw [thread_killing hjob, Option.map_eq_some_iff] at h
    obtain ⟨r, hr, heq⟩ := h
    cases heq
    have hafter := afterKill_job s env.kill
    split at hafter
    · rename_i hraised
      refine .inl ⟨hraised, ?_⟩
      cases fuel with
      | zero => cases hr
      | succ fuel =>
        rw [thread_finished hafter] at hr
        cases hr
        rfl
    · rename_i hraised
      obtain ⟨hes, hstatus⟩ := thread_from_removing hafter hr
      exact .inr ⟨hraised, by rw [hes], hstatus⟩

theorem afterReload_of_goesOn (h : env.goesOn n = true) :
    s.afterReload (env.late n) (env.reload n) = s.go .reloading := by
  unfold goesOn at h
  split at h
  · rename_i state hreload
    rw [Bool.and_eq_true, Bool.not_eq_true'] at h
    simp [hreload, DestroyCalls.afterReload, h.1, h.2]
  · cases h

theorem not_escapesAt_of_goesOn (h : env.goesOn n = true) : env.escapesAt n = false := by
  unfold goesOn at h
  split at h
  · rename_i state hreload
    rw [Bool.and_eq_true, Bool.not_eq_true'] at h
    simp [escapesAt, hreload, h.2]
  · cases h

theorem escapes_of_goesOn (h : env.goesOn n = true) : env.Escapes n ↔ env.Escapes (n + 1) := by
  constructor
  · intro he
    cases he with
    | now hat =>
      rw [not_escapesAt_of_goesOn h] at hat
      cases hat
    | later _ he => exact he
  · exact .later h

theorem escapes_of_not_goesOn (h : env.goesOn n = false) : env.Escapes n ↔ env.escapesAt n = true := by
  constructor
  · intro he
    cases he with
    | now hat => exact hat
    | later hon _ =>
      rw [h] at hon
      cases hon
  · exact .now

/-- The last poll, and what comes after it. -/
theorem last_poll (hjob : s.job = some (.running .reloading)) (hon : env.goesOn n = false)
    (h : env.thread n s fuel = some (es, t)) :
    env.escapesAt n = true ∧ es.countP DestroyEvent.triesRemove = 0 ∨
      env.escapesAt n = false ∧ Removed es t := by
  cases fuel with
  | zero => cases h
  | succ fuel =>
    rw [thread_reloading hjob, Option.map_eq_some_iff] at h
    obtain ⟨r, hr, heq⟩ := h
    cases heq
    cases hreload : env.reload n with
    | returned state =>
      rw [hreload] at hr
      cases hrunning : state.running with
      | false =>
        have hremoving : (s.afterReload (env.late n) (.returned state)).job =
            some (.running (.removing (state.exitCode.getD 0))) := by
          simp [DestroyCalls.afterReload, hrunning, DestroyCalls.go]
        obtain ⟨hes, hstatus⟩ := thread_from_removing hremoving hr
        refine .inr ⟨by simp [escapesAt, hreload, hrunning], ?_, ?_⟩
        · rw [hes]
          rfl
        · rw [hes]
          simpa [exitSeen, DestroyEvent.kills, DestroyEvent.stopped?, hrunning] using hstatus
      | true =>
        -- it runs and the thread does not go on, so the deadline has passed
        have hlate : env.late n = true := by
          simpa [goesOn, hreload, hrunning] using hon
        have hkilling : (s.afterReload (env.late n) (.returned state)).job = some (.running .killing) := by
          simp [DestroyCalls.afterReload, hrunning, hlate, DestroyCalls.go]
        rcases thread_from_killing hkilling hr with ⟨hraised, hes⟩ | ⟨hraised, hes, hstatus⟩
        · refine .inl ⟨by simp [escapesAt, hreload, hrunning, hlate, hraised], ?_⟩
          rw [hes]
          rfl
        · refine .inr ⟨by simp [escapesAt, hreload, hrunning, hlate, hraised], ?_, ?_⟩
          · rw [hes]
            rfl
          · rw [hes]
            simpa [exitSeen, DestroyEvent.kills, DestroyEvent.stopped?, hrunning] using hstatus
    | notFound | dockerException =>
      rw [hreload] at hr
      obtain ⟨hes, hstatus⟩ := thread_from_removing rfl hr
      refine .inr ⟨by simp [escapesAt, hreload], ?_, ?_⟩
      · rw [hes]
        rfl
      · rw [hes]
        exact hstatus
    | raised =>
      rw [hreload] at hr
      refine .inl ⟨by simp [escapesAt, hreload], ?_⟩
      cases fuel with
      | zero => cases hr
      | succ fuel =>
        rw [thread_finished rfl] at hr
        cases hr
        rfl

/-- A poll that goes on adds nothing to what counts. -/
theorem Removed.goesOn (hon : env.goesOn n = true) (h : Removed es t) :
    Removed (.reloadEnds (env.reload n) (env.late n) :: es) t := by
  unfold PollEnv.goesOn at hon
  split at hon
  · rename_i state hreload
    rw [Bool.and_eq_true] at hon
    refine ⟨?_, fun status hstatus ↦ ?_⟩
    · rw [List.countP_cons, h.once]
      rfl
    · rw [h.answers status hstatus]
      simp [exitSeen, DestroyEvent.kills, DestroyEvent.stopped?, hreload, hon.1]
  · cases hon

/-- Whatever the thread does, the removal is left out exactly if an exception escapes. -/
theorem thread_spec (hjob : s.job = some (.running .reloading)) (h : env.thread n s fuel = some (es, t)) :
    env.Escapes n ∧ es.countP DestroyEvent.triesRemove = 0 ∨ ¬ env.Escapes n ∧ Removed es t := by
  induction fuel generalizing n s es with
  | zero => cases h
  | succ fuel ih =>
    cases hon : env.goesOn n with
    | true =>
      rw [thread_reloading hjob, Option.map_eq_some_iff] at h
      obtain ⟨r, hr, heq⟩ := h
      cases heq
      rw [afterReload_of_goesOn hon] at hr
      rw [escapes_of_goesOn hon]
      rcases ih rfl hr with ⟨hescapes, hzero⟩ | ⟨hescapes, hremoved⟩
      · refine .inl ⟨hescapes, ?_⟩
        rw [List.countP_cons, hzero]
        rfl
      · exact .inr ⟨hescapes, hremoved.goesOn hon⟩
    | false =>
      rw [escapes_of_not_goesOn hon, Bool.not_eq_true]
      exact last_poll hjob hon h

/-! ## The deadline comes -/

/-- After `n` polls the clock has gone on by `n` times `EXIT_POLL`. -/
theorem Ticks.le_now (h : env.Ticks) (n : Nat) : env.started + n * exitPoll ≤ env.now n := by
  induction n with
  | zero => simpa using h.first
  | succ n ih =>
    have hnext := h.next n
    push_cast
    linarith

theorem Ticks.lt_of_goesOn (h : env.Ticks) (hon : env.goesOn n = true) : n < 20 := by
  unfold goesOn at hon
  split at hon
  · rw [Bool.and_eq_true, Bool.not_eq_true'] at hon
    have hearly : env.now n < env.started + exitGrace := not_le.mp (of_decide_eq_false hon.2)
    have hnow := h.le_now n
    unfold exitGrace at hearly
    unfold exitPoll at hnow
    have hlt : (n : Rat) < 20 := by linarith
    exact_mod_cast hlt
  · cases hon

theorem thread_ends_removing {status : Int} (hjob : s.job = some (.running (.removing status))) :
    ∃ r, env.thread n s (fuel + 2) = some r := by
  rw [thread_removing hjob]
  cases env.remove with
  | _ => exact ⟨_, by rw [thread_finished rfl]; rfl⟩

theorem thread_ends_killing (hjob : s.job = some (.running .killing)) :
    ∃ r, env.thread n s (fuel + 3) = some r := by
  rw [thread_killing hjob]
  have hafter := afterKill_job s env.kill
  split at hafter
  · rw [thread_finished hafter]
    exact ⟨_, rfl⟩
  · obtain ⟨r, hr⟩ : ∃ r, env.thread (n + 1) (s.afterKill env.kill) (fuel + 2) = some r :=
      thread_ends_removing hafter
    rw [hr]
    exact ⟨_, rfl⟩

theorem last_poll_ends (hjob : s.job = some (.running .reloading)) (hon : env.goesOn n = false) :
    ∃ r, env.thread n s (fuel + 4) = some r := by
  rw [thread_reloading hjob]
  suffices h : ∃ r, env.thread (n + 1) (s.afterReload (env.late n) (env.reload n)) (fuel + 3) = some r by
    obtain ⟨r, hr⟩ := h
    rw [hr]
    exact ⟨_, rfl⟩
  cases hreload : env.reload n with
  | returned state =>
    cases hrunning : state.running with
    | false =>
      have hremoving : (s.afterReload (env.late n) (.returned state)).job =
          some (.running (.removing (state.exitCode.getD 0))) := by
        simp [DestroyCalls.afterReload, hrunning, DestroyCalls.go]
      exact thread_ends_removing hremoving
    | true =>
      have hlate : env.late n = true := by
        simpa [goesOn, hreload, hrunning] using hon
      apply thread_ends_killing
      simp [DestroyCalls.afterReload, hrunning, hlate, DestroyCalls.go]
  | notFound | dockerException => exact thread_ends_removing rfl
  | raised => exact ⟨_, thread_finished rfl⟩

/-- No more than 21 polls: with the deadline at most `k` polls away, `k + 4` calls are enough. -/
theorem thread_ends (h : env.Ticks) (k : Nat) (hn : n + k = 20) (hjob : s.job = some (.running .reloading)) :
    ∃ r, env.thread n s (k + 4) = some r := by
  induction k generalizing n s with
  | zero =>
    apply last_poll_ends hjob
    rw [← Bool.not_eq_true]
    intro hon
    have hlt : n < 20 := h.lt_of_goesOn hon
    omega
  | succ k ih =>
    cases hon : env.goesOn n with
    | true =>
      obtain ⟨r, hr⟩ : ∃ r, env.thread (n + 1) (s.go .reloading) (k + 4) = some r := by
        apply ih
        · omega
        · rfl
      rw [thread_reloading hjob, afterReload_of_goesOn hon, hr]
      exact ⟨_, rfl⟩
    | false => exact last_poll_ends hjob hon

/-- The removal is tried once and the exit code is right, however docker-py answers, exactly if no
exception escapes the loop. -/
theorem removesOnce_iff (h : env.Ticks) (hjob : s.job = some (.running .reloading)) :
    env.RemovesOnce s ↔ ¬ env.Escapes 0 := by
  constructor
  · rintro ⟨fuel, es, t, hrun, honce, -⟩ hescapes
    rcases thread_spec hjob hrun with ⟨-, hzero⟩ | ⟨hno, -⟩
    · omega
    · exact hno hescapes
  · intro hno
    obtain ⟨⟨es, t⟩, hrun⟩ := thread_ends h 20 (Nat.zero_add 20) hjob
    rcases thread_spec hjob hrun with ⟨hescapes, -⟩ | ⟨-, hremoved⟩
    · exact absurd hescapes hno
    · exact ⟨24, es, t, hrun, hremoved.once, hremoved.answers⟩

/-- The shell ends with 3 after two polls. -/
def exits : PollEnv where
  started := 0
  reload n := if n < 2 then .returned ⟨true, none⟩ else .returned ⟨false, some 3⟩
  now n := n * exitPoll
  kill := .returned ()
  remove := .returned ()

theorem exits_not_escapes : ¬ exits.Escapes 0 := by
  rw [escapes_of_goesOn (by decide +kernel), escapes_of_goesOn (by decide +kernel),
    escapes_of_not_goesOn (by decide +kernel)]
  decide +kernel

theorem exits_removesOnce :
    exits.RemovesOnce (DestroyCalls.initial.destroy.go .reloading) ∧
      ((exits.thread 0 (DestroyCalls.initial.destroy.go .reloading) 6).map fun r ↦ r.2.job) =
        some (some (.finished (some 3))) := by
  refine ⟨(removesOnce_iff ?_ rfl).mpr exits_not_escapes, by decide +kernel⟩
  exact ⟨by simp [exits], fun n ↦ by simp [exits, add_mul]⟩

/-- The HTTP connection to the daemon times out in the first poll. -/
def timesOut : PollEnv where
  started := 0
  reload _ := .raised
  now n := n * exitPoll
  kill := .returned ()
  remove := .returned ()

theorem timesOut_leaves : ¬ ∀ (env : PollEnv) (s : DestroyCalls), env.Ticks → s.job = some (.running .reloading) →
    env.RemovesOnce s := by
  intro h
  have hticks : timesOut.Ticks := ⟨by simp [timesOut], fun n ↦ by simp [timesOut, add_mul]⟩
  obtain ⟨fuel, es, t, hrun, honce, -⟩ := h timesOut (DestroyCalls.initial.destroy.go .reloading) hticks rfl
  match fuel with
  | 0 | 1 => cases hrun
  | fuel + 2 =>
    cases hrun
    cases honce

end PollEnv

end Keycard.Docker
