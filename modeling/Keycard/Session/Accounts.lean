import Keycard.Session.Exclusive

/-!
# What a session answers for

A session answers for a sandbox from when it has taken or opened it until it calls `destroy` or `destroy_kept` on it,
or has had it kept.  Its log tells which one that is, and the log balances: what has come to the session is still
with it, was destroyed by it or passed on.
-/

open Reasoning

namespace Keycard.Session

/-! ## The log of one session -/

abbrev Log := List (Mark SandboxRoom SandboxKept)

/-- The sandbox that a session answers for after this, if it did for `x?` before. -/
def Mark.answers (x? : Option Nat) : Mark SandboxRoom SandboxKept → Option Nat
  | .took k => some k.sandbox
  | .opened _ room => some room.sandbox
  | .destroyKept _ => none
  | .destroy _ _ => none
  | .kept _ => none
  | _ => x?

/-- How the session comes to answer for the sandbox. -/
def Mark.acquires (x : Nat) : Mark SandboxRoom SandboxKept → Bool
  | .took k => k.sandbox = x
  -- a room that was resumed is of the sandbox that was taken
  | .opened none room => room.sandbox = x
  | _ => false

def Mark.destroys (x : Nat) : Mark SandboxRoom SandboxKept → Bool
  | .destroyKept k => k.sandbox = x
  | .destroy _ room => room.sandbox = x
  | _ => false

def Mark.passesOn (x : Nat) : Mark SandboxRoom SandboxKept → Bool
  | .kept room => room.sandbox = x
  | _ => false

/-- The mark is none of these. -/
def Mark.isQuiet : Mark SandboxRoom SandboxKept → Bool
  | .took _ | .opened _ _ | .destroyKept _ | .destroy _ _ | .kept _ => false
  | _ => true

namespace Log

def answersFor (marks : Log) : Option Nat :=
  marks.foldl Mark.answers none

def destroyed (marks : Log) (x : Nat) : Nat :=
  marks.countP (Mark.destroys x)

def passedOn (marks : Log) (x : Nat) : Nat :=
  marks.countP (Mark.passesOn x)

def acquired (marks : Log) (x : Nat) : Nat :=
  marks.countP (Mark.acquires x)

/-- Whatever `resume` returned is a room of the sandbox it was called for. -/
def Resumes (marks : Log) : Prop :=
  ∀ k room, Mark.opened (some k) room ∈ marks → room.sandbox = k.sandbox

/-- What came to the session is still with it, or was destroyed by it or passed on. -/
def Balanced (marks : Log) : Prop :=
  ∀ x, (if answersFor marks = some x then 1 else 0) + destroyed marks x + passedOn marks x = acquired marks x

variable {marks more : Log}

theorem Resumes.mono (h : Resumes more) (hsub : marks ⊆ more) : Resumes marks :=
  fun k room hm ↦ h k room (hsub hm)

theorem answersFor_append : answersFor (marks ++ more) = more.foldl Mark.answers (answersFor marks) :=
  List.foldl_append

theorem balanced_nil : Balanced [] :=
  fun _ ↦ rfl

/-- The balance after one more entry: only what this one changes has to be looked at. -/
theorem Balanced.snoc (h : Balanced marks) (m : Mark SandboxRoom SandboxKept)
    (hm : ∀ x, (if m.answers (answersFor marks) = some x then 1 else 0) + (if m.destroys x then 1 else 0) +
        (if m.passesOn x then 1 else 0) =
      (if answersFor marks = some x then 1 else 0) + if m.acquires x then 1 else 0) : Balanced (marks ++ [m]) := by
  intro x
  have hx := h x
  have hmx := hm x
  simp only [destroyed, passedOn, acquired, answersFor_append, List.countP_append, List.countP_singleton,
    List.foldl_cons, List.foldl_nil] at hx ⊢
  omega

theorem Balanced.opened (h : Balanced marks) {kept : Option SandboxKept} {room : SandboxRoom}
    (hkept : answersFor marks = kept.map SandboxKept.sandbox) (hsame : ∀ k, kept = some k → room.sandbox = k.sandbox) :
    Balanced (marks ++ [.opened kept room]) := by
  refine h.snoc _ fun x ↦ ?_
  rw [hkept]
  cases kept with
  | none => simp [Mark.answers, Mark.destroys, Mark.passesOn, Mark.acquires]
  | some k => simp [Mark.answers, Mark.destroys, Mark.passesOn, Mark.acquires, hsame k rfl]

theorem answers_of_isQuiet {m : Mark SandboxRoom SandboxKept} (h : m.isQuiet = true) (x? : Option Nat) :
    m.answers x? = x? := by
  cases m <;> first | rfl | cases h

theorem answersFor_quiet (h : ∀ m ∈ more, m.isQuiet = true) : answersFor (marks ++ more) = answersFor marks := by
  rw [answersFor_append]
  induction more with
  | nil => rfl
  | cons m more ih =>
    obtain ⟨hm, hrest⟩ := List.forall_mem_cons.mp h
    rw [List.foldl_cons, answers_of_isQuiet hm]
    exact ih hrest

/-- What tells nothing of a sandbox does not count. -/
theorem countP_quiet {p : Mark SandboxRoom SandboxKept → Bool} (hp : ∀ m, m.isQuiet = true → p m = false)
    (h : ∀ m ∈ more, m.isQuiet = true) : (marks ++ more).countP p = marks.countP p := by
  have hmore : more.countP p = 0 := List.countP_eq_zero.mpr fun m hm ↦ by simp [hp m (h m hm)]
  rw [List.countP_append, hmore, Nat.add_zero]

theorem destroyed_quiet (h : ∀ m ∈ more, m.isQuiet = true) (x : Nat) :
    destroyed (marks ++ more) x = destroyed marks x :=
  countP_quiet (fun m hm ↦ by cases m <;> first | rfl | cases hm) h

theorem passedOn_quiet (h : ∀ m ∈ more, m.isQuiet = true) (x : Nat) : passedOn (marks ++ more) x = passedOn marks x :=
  countP_quiet (fun m hm ↦ by cases m <;> first | rfl | cases hm) h

theorem acquired_quiet (h : ∀ m ∈ more, m.isQuiet = true) (x : Nat) : acquired (marks ++ more) x = acquired marks x :=
  countP_quiet (fun m hm ↦ by cases m <;> first | rfl | cases hm) h

theorem Balanced.quiet (h : Balanced marks) (hmore : ∀ m ∈ more, m.isQuiet = true) : Balanced (marks ++ more) := by
  intro x
  rw [answersFor_quiet hmore, destroyed_quiet hmore, passedOn_quiet hmore, acquired_quiet hmore]
  exact h x

end Log

/-! ## Where the sandbox is while the session answers for it -/

/-- It is in use, being resumed or being paused, unless a `CancelledError` has ended the task that was at it. -/
inductive Core.InHand (c : Core SandboxRoom SandboxKept) (x : Nat) : Prop
  | resuming (k : SandboxKept) (b : Bool) (hp : c.pump = some (.suspended (.opening (some k)) b)) (hx : k.sandbox = x)
  | room (r : SandboxRoom) (hr : c.room = some r) (hx : r.sandbox = x)
  | pausing (keep : Bool) (r : SandboxRoom) (b : Bool) (ht : c.teardown = some (keep, .suspended (.pausing r) b))
      (hx : r.sandbox = x)
  | pumpCut (hp : c.pump = some (.ended .cancelled))
  | teardownCut (keep : Bool) (ht : c.teardown = some (keep, .ended .cancelled))

/-- The teardown goes on from where it had no sandbox to pause. -/
theorem Core.InHand.settled {c : Core SandboxRoom SandboxKept} {x : Nat} (h : c.InHand x) {keep : Bool}
    {task : LoopTask (TeardownPoint SandboxRoom)} (ht : c.teardown = some (keep, task))
    (hpausing : ∀ r b, task ≠ .suspended (.pausing r) b) (hlive : task ≠ .ended .cancelled)
    {td : Option (Bool × LoopTask (TeardownPoint SandboxRoom))} {released : Bool} {marks : Log} :
    Core.InHand { c with teardown := td, released := released, marks := marks } x := by
  cases h with
  | resuming k b hp hk => exact .resuming k b hp hk
  | room r hr hx => exact .room r hr hx
  | pausing keep' r b ht' hx =>
    cases ht.symm.trans ht'
    exact absurd rfl (hpausing r b)
  | pumpCut hp => exact .pumpCut hp
  | teardownCut keep' ht' =>
    cases ht.symm.trans ht'
    exact absurd rfl hlive

structure Core.Answers (c : Core SandboxRoom SandboxKept) : Prop where
  fresh : c.pump = none ∨ (∃ b, c.pump = some (.created b)) → Log.answersFor c.marks = none
  opening (kept : Option SandboxKept) (b : Bool) : c.pump = some (.suspended (.opening kept) b) →
    Log.answersFor c.marks = kept.map SandboxKept.sandbox
  room (r : SandboxRoom) : c.room = some r → Log.answersFor c.marks = some r.sandbox
  pausing (keep : Bool) (r : SandboxRoom) (b : Bool) : c.teardown = some (keep, .suspended (.pausing r) b) →
    Log.answersFor c.marks = some r.sandbox
  inHand (x : Nat) : Log.answersFor c.marks = some x → c.InHand x
  balanced : Log.Balanced c.marks

variable {cfg : SessionConfig} {c d : Core SandboxRoom SandboxKept} {a : Act SandboxRoom SandboxKept}

/-- A move of the pump that tells nothing of a sandbox. -/
theorem Core.Answers.pump_frame (h : c.Answers) (hroom : d.room = c.room) (ht : d.teardown = c.teardown) {more : Log}
    (hmarks : d.marks = c.marks ++ more) (hquiet : ∀ m ∈ more, m.isQuiet = true)
    (hfresh : d.pump = none ∨ (∃ b, d.pump = some (.created b)) → c.pump = none ∨ ∃ b, c.pump = some (.created b))
    (hopening : ∀ kept b, d.pump = some (.suspended (.opening kept) b) →
      Log.answersFor c.marks = kept.map SandboxKept.sandbox)
    (hresuming : ∀ k b, c.pump = some (.suspended (.opening (some k)) b) → d.InHand k.sandbox)
    (hcut : c.pump = some (.ended .cancelled) → d.pump = some (.ended .cancelled)) : d.Answers := by
  have hsame : Log.answersFor d.marks = Log.answersFor c.marks := by rw [hmarks, Log.answersFor_quiet hquiet]
  refine ⟨fun hf ↦ ?_, fun kept b hp ↦ ?_, fun r hr ↦ ?_, fun keep r b hpause ↦ ?_, fun x hx ↦ ?_, ?_⟩
  · rw [hsame]
    exact h.fresh (hfresh hf)
  · rw [hsame]
    exact hopening kept b hp
  · rw [hsame]
    exact h.room r (hroom ▸ hr)
  · rw [hsame]
    exact h.pausing keep r b (ht ▸ hpause)
  · cases h.inHand x (hsame ▸ hx) with
    | resuming k b hp hk => exact hk ▸ hresuming k b hp
    | room r hr hx => exact .room r (hroom ▸ hr) hx
    | pausing keep r b hpause hx => exact .pausing keep r b (ht ▸ hpause) hx
    | pumpCut hp => exact .pumpCut (hcut hp)
    | teardownCut keep hended => exact .teardownCut keep (ht ▸ hended)
  · rw [hmarks]
    exact h.balanced.quiet hquiet

/-- A move of the teardown that tells nothing of a sandbox. -/
theorem Core.Answers.teardown_frame (h : c.Answers) (hp : d.pump = c.pump) {more : Log}
    (hmarks : d.marks = c.marks ++ more) (hquiet : ∀ m ∈ more, m.isQuiet = true)
    (hroom : ∀ r, d.room = some r → c.room = some r)
    (hpausing : ∀ keep r b, d.teardown = some (keep, .suspended (.pausing r) b) →
      Log.answersFor c.marks = some r.sandbox)
    (hinHand : ∀ x, c.InHand x → d.InHand x) : d.Answers := by
  have hsame : Log.answersFor d.marks = Log.answersFor c.marks := by rw [hmarks, Log.answersFor_quiet hquiet]
  refine ⟨fun hf ↦ ?_, fun kept b hopening ↦ ?_, fun r hr ↦ ?_, fun keep r b hpause ↦ ?_, fun x hx ↦ ?_, ?_⟩
  · rw [hsame]
    exact h.fresh (hp ▸ hf)
  · rw [hsame]
    exact h.opening kept b (hp ▸ hopening)
  · rw [hsame]
    exact h.room r (hroom r hr)
  · rw [hsame]
    exact hpausing keep r b hpause
  · exact hinHand x (h.inHand x (hsame ▸ hx))
  · rw [hmarks]
    exact h.balanced.quiet hquiet

/-- Before it has a room, a session has no other sandbox than what the pump is to resume. -/
theorem Core.Lifecycle.before (h : c.Lifecycle) {p : Option (LoopTask (PumpPoint SandboxRoom SandboxKept))}
    (hp : c.pump = p) (hbefore : pumpBefore p = true) (hlive : p.any LoopTask.isEnded = false) :
    c.room = none ∧ c.holding = none := by
  rcases h.staged with hu | ⟨kept, room, phase, hfit, -⟩
  · exact ⟨hu.left, hu.task⟩
  · cases hlive.symm.trans (hfit.pump.not_before hp hbefore)

theorem not_pausing_of_holding (h : c.holding = none) {keep b : Bool} {r : SandboxRoom} :
    c.teardown ≠ some (keep, .suspended (.pausing r) b) := by
  intro ht
  rw [Core.holding, ht] at h
  cases h

/-- Once it has a room, the pump is past the opening. -/
theorem Core.Lifecycle.not_opening (h : c.Lifecycle) (hroom : c.room ≠ none ∨ c.holding ≠ none)
    {kept : Option SandboxKept} {b : Bool} : c.pump ≠ some (.suspended (.opening kept) b) := by
  intro hp
  obtain ⟨hnone, hholding⟩ := h.before hp rfl rfl
  rcases hroom with hroom | hroom
  · exact hroom hnone
  · exact hroom hholding

theorem Core.Lifecycle.not_fresh (h : c.Lifecycle) (hroom : c.room ≠ none ∨ c.holding ≠ none) :
    ¬ (c.pump = none ∨ ∃ b, c.pump = some (.created b)) := by
  have hno {p : Option (LoopTask (PumpPoint SandboxRoom SandboxKept))} (hp : c.pump = p) (hb : pumpBefore p = true)
      (hlive : p.any LoopTask.isEnded = false) : False := by
    obtain ⟨hnone, hholding⟩ := h.before hp hb hlive
    rcases hroom with hroom | hroom
    · exact hroom hnone
    · exact hroom hholding
  rintro (hp | ⟨b, hp⟩)
  · exact hno hp rfl rfl
  · exact hno hp rfl rfl

/-- The session disposes of the sandbox it answers for, and has no other. -/
theorem Core.Answers.settles (h : c.Answers) (hroom : d.room = none)
    (hpump : ¬ (d.pump = none ∨ ∃ b, d.pump = some (.created b)) ∧ ∀ kept b, d.pump ≠ some (.suspended (.opening kept) b))
    (hpausing : ∀ keep r b, d.teardown ≠ some (keep, .suspended (.pausing r) b)) {more : Log}
    {m : Mark SandboxRoom SandboxKept} (hmarks : d.marks = c.marks ++ more ++ [m])
    (hquiet : ∀ m ∈ more, m.isQuiet = true) {x : Nat} (hx : Log.answersFor c.marks = some x)
    (hm : ∀ x?, m.answers x? = none)
    (hcount : ∀ y, (if m.destroys y then 1 else 0) + (if m.passesOn y then 1 else 0) = if x = y then 1 else 0)
    (hacquires : ∀ y, m.acquires y = false) : d.Answers := by
  have hnone : Log.answersFor d.marks = none := by
    rw [hmarks, Log.answersFor_append]
    exact hm _
  refine ⟨fun hf ↦ absurd hf hpump.1, fun kept b hp ↦ absurd hp (hpump.2 kept b), fun r hr ↦ ?_,
    fun keep r b ht ↦ absurd ht (hpausing keep r b), fun y hy ↦ ?_, ?_⟩
  · cases hroom.symm.trans hr
  · cases hnone.symm.trans hy
  · rw [hmarks]
    refine (h.balanced.quiet hquiet).snoc m fun y ↦ ?_
    have hy := hcount y
    rw [hm, Log.answersFor_quiet hquiet, hx, hacquires y]
    simp only [reduceCtorEq, if_false, Option.some.injEq, Bool.false_eq_true] at hy ⊢
    omega

theorem Core.Answers.step (hm : Move cfg c a d) (hlife : c.Lifecycle) (hresumes : Log.Resumes d.marks)
    (h : c.Answers) : d.Answers := by
  cases hm with
  | starts hp =>
    refine h.pump_frame rfl rfl (List.append_nil _).symm (by simp) (fun _ ↦ .inl hp) (by simp) (fun k b hp' ↦ ?_) fun hp' ↦ ?_
    · cases hp.symm.trans hp'
    · cases hp.symm.trans hp'
  | begins trigger =>
    refine h.teardown_frame rfl rfl (by simp [Mark.isQuiet]) (fun _ hr ↦ hr) (fun keep r b ht ↦ ?_) fun x hx ↦ ?_
    · cases htd : c.teardown with
      | none => simp [htd] at ht
      | some td => exact h.pausing keep r b (by simpa [htd] using ht)
    · cases hx with
      | resuming k b hp hk => exact .resuming k b hp hk
      | room r hr hx => exact .room r hr hx
      | pausing keep r b ht hx => exact .pausing keep r b (by simp [ht]) hx
      | pumpCut hp => exact .pumpCut hp
      | teardownCut keep ht => exact .teardownCut keep (by simp [ht])
  | cancelsPump pump hp =>
    refine h.pump_frame rfl rfl rfl (fun m hm ↦ ?_) (fun hf ↦ ?_) (fun kept b hp' ↦ ?_) (fun k b hp' ↦ ?_) fun hp' ↦ ?_
    · cases hq : pump.point? <;> simp [hq, cancelMarks] at hm
      subst hm
      rfl
    · rcases hf with hf | ⟨b, hf⟩
      · cases hf
      · cases pump <;> cases hf
        exact .inr ⟨_, hp⟩
    · cases pump <;> cases hp'
      exact h.opening kept _ hp
    · cases hp.symm.trans hp'
      exact .resuming k true rfl rfl
    · cases hp.symm.trans hp'
      rfl
  | cancelsTeardown keep task ht hend =>
    refine h.teardown_frame rfl rfl (by simp [Mark.isQuiet]) (fun _ hr ↦ hr) (fun keep' r b ht' ↦ ?_) fun x hx ↦ ?_
    · cases task <;> cases ht'
      exact h.pausing keep r _ ht
    · cases hx with
      | resuming k b hp hk => exact .resuming k b hp hk
      | room r hr hx => exact .room r hr hx
      | pausing keep' r b ht' hx =>
        cases ht.symm.trans ht'
        exact .pausing keep r true rfl hx
      | pumpCut hp => exact .pumpCut hp
      | teardownCut keep' ht' =>
        cases ht.symm.trans ht'
        cases hend
  | pumpStarts kept hp =>
    have hfresh : Log.answersFor c.marks = none := h.fresh (.inr ⟨_, hp⟩)
    cases kept with
    | none =>
      refine h.pump_frame rfl rfl rfl (by simp [takeMarks]) (by simp) (fun kept b hp' ↦ ?_) (fun k b hp' ↦ ?_) fun hp' ↦ ?_
      · cases hp'
        exact hfresh
      · cases hp.symm.trans hp'
      · cases hp.symm.trans hp'
    | some k =>
      obtain ⟨hroom, hholding⟩ := hlife.before hp rfl rfl
      have htook : Log.answersFor (c.marks ++ [.took k]) = some k.sandbox := Log.answersFor_append
      refine ⟨(by simp), fun kept b hp' ↦ ?_, fun r hr ↦ ?_, fun keep r b ht ↦ ?_, fun x hx ↦ ?_, ?_⟩
      · cases hp'
        exact htook
      · cases hroom.symm.trans hr
      · exact absurd ht (not_pausing_of_holding hholding)
      · cases htook.symm.trans hx
        exact .resuming k false rfl rfl
      · refine h.balanced.snoc _ fun x ↦ ?_
        simp only [hfresh, Mark.answers, Mark.destroys, Mark.passesOn, Mark.acquires, Option.some.injEq, reduceCtorEq,
          if_false, Bool.false_eq_true, decide_eq_true_eq]
        omega
  | pumpEnds pump how hp hmay =>
    refine h.pump_frame rfl rfl (List.append_nil _).symm (by simp) (by simp) (by simp) (fun k b hp' ↦ ?_) fun hp' ↦ ?_
    · cases hp.symm.trans hp'
      cases how <;> cases hmay
    · cases hp.symm.trans hp'
      cases hmay
  | openCut kept hp =>
    exact h.pump_frame rfl rfl (List.append_nil _).symm (by simp) (by simp) (by simp) (fun k b _ ↦ .pumpCut rfl) fun _ ↦ rfl
  | resumeFails k b hp =>
    obtain ⟨hroom, hholding⟩ := hlife.before hp rfl rfl
    have hmarks : c.marks ++ [.destroyKept k] = c.marks ++ [] ++ [.destroyKept k] := by rw [List.append_nil]
    exact h.settles hroom ⟨(by simp), (by simp)⟩ (fun _ _ _ ↦ not_pausing_of_holding hholding) hmarks (by simp) (h.opening _ b hp)
      (fun _ ↦ rfl) (fun y ↦ by simp [Mark.destroys, Mark.passesOn]) fun _ ↦ rfl
  | opensLate kept b room hp ht =>
    obtain ⟨-, hholding⟩ := hlife.before hp rfl rfl
    have hopened := h.balanced.opened (h.opening kept b hp) fun k hk ↦ hresumes k room (by simp [hk])
    have hroom : Log.answersFor (c.marks ++ [.opened kept room]) = some room.sandbox := Log.answersFor_append
    have hmarks : c.marks ++ [.opened kept room, .destroy .pump room] =
        c.marks ++ [.opened kept room] ++ [.destroy .pump room] := by simp
    have hnone : Log.answersFor (c.marks ++ [.opened kept room, .destroy .pump room]) = none := by
      rw [hmarks, Log.answersFor_append]
      rfl
    refine ⟨(by simp), (by simp), (by simp), fun keep r b ht ↦ absurd ht (not_pausing_of_holding hholding), fun x hx ↦ ?_, ?_⟩
    · cases hnone.symm.trans hx
    · show Log.Balanced (c.marks ++ [.opened kept room, .destroy .pump room])
      rw [hmarks]
      refine hopened.snoc _ fun x ↦ ?_
      rw [hroom]
      simp [Mark.answers, Mark.destroys, Mark.passesOn, Mark.acquires]
  | opens kept b room hp ht =>
    have hopened := h.balanced.opened (h.opening kept b hp) fun k hk ↦ hresumes k room (by simp [hk])
    have hroom : Log.answersFor (c.marks ++ [.opened kept room]) = some room.sandbox := Log.answersFor_append
    refine ⟨(by simp), (by simp), fun r hr ↦ ?_, fun keep r b htd ↦ ?_, fun x hx ↦ ?_, hopened⟩
    · cases hr
      exact hroom
    · cases ht.symm.trans htd
    · cases hroom.symm.trans hx
      exact .room room rfl rfl
  | lateDestroyed room b hp =>
    refine h.pump_frame rfl rfl rfl (by simp [Mark.isQuiet]) (by simp) (by simp) (fun k b hp' ↦ ?_) fun hp' ↦ ?_
    · cases hp.symm.trans hp'
    · cases hp.symm.trans hp'
  | lateCut room hp =>
    refine h.pump_frame rfl rfl (List.append_nil _).symm (by simp) (by simp) (by simp) (fun k b hp' ↦ ?_) fun _ ↦ rfl
    cases hp.symm.trans hp'
  | reads room b p hp hnext =>
    refine h.pump_frame rfl rfl (List.append_nil _).symm (by simp) (by simp) (fun kept b' hp' ↦ ?_) (fun k b' hp' ↦ ?_)
      fun hp' ↦ ?_
    · rcases hnext with rfl | hjoins
      · cases hp'
      · cases hp'
        cases hjoins
    · cases hp.symm.trans hp'
    · cases hp.symm.trans hp'
  | neverRuns keep ht =>
    exact h.teardown_frame rfl (List.append_nil _).symm (by simp) (fun _ hr ↦ hr) (by simp) fun _ _ ↦ .teardownCut keep rfl
  | findsNone keep ht hroom =>
    refine h.teardown_frame rfl rfl (by simp [Mark.isQuiet]) (fun _ hr ↦ hr) (by simp) fun x hx ↦ ?_
    exact hx.settled ht (by simp) (by simp)
  | pauses room ht hroom henabled hcan =>
    refine h.teardown_frame rfl rfl (by simp [Mark.isQuiet]) (by simp) (fun keep r b ht' ↦ ?_) fun x hx ↦ ?_
    · cases ht'
      exact h.room room hroom
    · cases hx with
      | resuming k b hp hk => exact .resuming k b hp hk
      | room r hr hx =>
        cases hroom.symm.trans hr
        exact .pausing true room false rfl hx
      | pausing keep r b ht' hx => cases ht.symm.trans ht'
      | pumpCut hp => exact .pumpCut hp
      | teardownCut keep ht' => cases ht.symm.trans ht'
  | destroys keep room ht hroom =>
    have hhas : c.room ≠ none ∨ c.holding ≠ none := .inl (by simp [hroom])
    have hmarks : c.marks ++ [.taken room, .destroy .teardown room] =
        c.marks ++ [.taken room] ++ [.destroy .teardown room] := by simp
    exact h.settles rfl ⟨hlife.not_fresh hhas, fun _ _ ↦ hlife.not_opening hhas⟩ (by simp) hmarks (by simp [Mark.isQuiet])
      (h.room room hroom) (fun _ ↦ rfl) (fun y ↦ by simp [Mark.destroys, Mark.passesOn]) fun _ ↦ rfl
  | keeps keep room b ht =>
    have hhas : c.room ≠ none ∨ c.holding ≠ none := .inr (by simp [Core.holding, ht])
    have hmarks : c.marks ++ [.kept room] = c.marks ++ [] ++ [.kept room] := by rw [List.append_nil]
    exact h.settles (hlife.room_of_suspended ht) ⟨hlife.not_fresh hhas, fun _ _ ↦ hlife.not_opening hhas⟩ (by simp) hmarks
      (by simp) (h.pausing keep room b ht) (fun _ ↦ rfl) (fun y ↦ by simp [Mark.destroys, Mark.passesOn]) fun _ ↦ rfl
  | keepFails keep room b ht =>
    have hhas : c.room ≠ none ∨ c.holding ≠ none := .inr (by simp [Core.holding, ht])
    have hmarks : c.marks ++ [.keepRaised room, .destroy .teardown room] =
        c.marks ++ [.keepRaised room] ++ [.destroy .teardown room] := by simp
    exact h.settles (hlife.room_of_suspended ht) ⟨hlife.not_fresh hhas, fun _ _ ↦ hlife.not_opening hhas⟩ (by simp) hmarks
      (by simp [Mark.isQuiet]) (h.pausing keep room b ht) (fun _ ↦ rfl)
      (fun y ↦ by simp [Mark.destroys, Mark.passesOn]) fun _ ↦ rfl
  | destroyed keep room b ht =>
    refine h.teardown_frame rfl rfl (by simp [Mark.isQuiet]) (fun _ hr ↦ hr) (by simp) fun x hx ↦ ?_
    exact hx.settled ht (by simp) (by simp)
  | cut keep p ht =>
    exact h.teardown_frame rfl (List.append_nil _).symm (by simp) (fun _ hr ↦ hr) (by simp) fun _ _ ↦ .teardownCut keep rfl

/-! ## What a step tells of sandboxes that come and go -/

/-- The sandbox comes to the session, or leaves it for the registry. -/
def Mark.isMove : Mark SandboxRoom SandboxKept → Bool
  | .took _ | .opened _ _ | .kept _ => true
  | _ => false

variable {s t u : RoomSession SandboxRoom SandboxKept} {e : Event SandboxRoom SandboxKept}

/-- Nothing comes or goes in between. -/
def Stays (s t : RoomSession SandboxRoom SandboxKept) : Prop :=
  ∃ more : Log, t.marks = s.marks ++ more ∧ ∀ m ∈ more, m.isMove = false

namespace Stays

theorem of_eq (h : t.marks = s.marks) : Stays s t :=
  ⟨[], by rw [h, List.append_nil], nofun⟩

theorem of_append (more : Log) (h : t.marks = s.marks ++ more) (hmore : ∀ m ∈ more, m.isMove = false) : Stays s t :=
  ⟨more, h, hmore⟩

theorem trans (h : Stays s t) (h' : Stays t u) : Stays s u := by
  obtain ⟨more, hm, hmore⟩ := h
  obtain ⟨more', hm', hmore'⟩ := h'
  refine ⟨more ++ more', by rw [hm', hm, List.append_assoc], fun m hmem ↦ ?_⟩
  exact (List.mem_append.mp hmem).elim (hmore m) (hmore' m)

/-- Only the log counts. -/
theorem congr (h : Stays s t) (hu : u.marks = t.marks) : Stays s u :=
  h.trans (of_eq hu)

theorem beginTeardown (trigger : Trigger) (allowKeep : Bool) : Stays s (s.beginTeardown trigger allowKeep) := by
  refine of_append [.reached trigger s.room] ?_ (by simp [Mark.isMove])
  rw [beginTeardown_eq]

theorem cancelTask {π : Type} (joins : π → Bool) (own : Option π → Log) (task : LoopTask π)
    (hown : ∀ m ∈ own task.point?, m.isMove = false) : Stays s (s.cancelTask joins own task).2 := by
  unfold RoomSession.cancelTask
  split
  · exact of_append _ rfl hown
  · simp only []
    split
    · exact of_append _ rfl (by simp [Mark.isMove])
    · exact of_append _ rfl hown

theorem cancelPump : Stays s s.cancelPump := by
  unfold RoomSession.cancelPump
  split
  · exact of_eq rfl
  · rename_i pump hp
    refine (cancelTask PumpPoint.joins cancelMarks pump fun m hm ↦ ?_).congr rfl
    cases hq : pump.point? <;> simp [hq, cancelMarks] at hm
    subst hm
    rfl

theorem cancelWatchdog : Stays s s.cancelWatchdog := by
  unfold RoomSession.cancelWatchdog
  split
  · exact of_eq rfl
  · exact (cancelTask WatchdogPoint.joins (fun _ ↦ []) _ nofun).congr rfl

theorem cancelCloser : Stays s s.cancelCloser := by
  unfold RoomSession.cancelCloser
  split
  · exact of_eq rfl
  · exact (cancelTask (fun _ ↦ true) (fun _ ↦ []) _ nofun).congr rfl

theorem finishReading (unwinding broken : Bool) : Stays s (s.finishReading unwinding broken) := by
  unfold RoomSession.finishReading
  simp only []
  split
  · exact (beginTeardown .pump false).congr (by rw [goodbye_eq])
  · exact (beginTeardown .pump false).congr (by rw [enqueue_eq])

theorem idleWatchdog (idle broken : Bool) : Stays s (s.idleWatchdog idle broken) := by
  unfold RoomSession.idleWatchdog
  split
  · exact of_eq rfl
  · split
    · exact of_eq rfl
    · simp only []
      split
      · exact (beginTeardown .watchdog false).congr rfl
      · exact (beginTeardown .watchdog false).congr (by rw [enqueue_eq])

theorem forceClose (broken : Bool) : Stays s (s.forceClose broken) := by
  unfold RoomSession.forceClose
  split
  · exact of_eq rfl
  · simp only []
    split
    · exact (beginTeardown .forceClose false).congr rfl
    · exact (beginTeardown .forceClose false).congr (by rw [enqueue_eq])

theorem runTeardown (td : Teardown SandboxRoom) : Stays s (s.runTeardown cfg td) := by
  unfold RoomSession.runTeardown
  split
  · exact of_append [.foundNone] rfl (by simp [Mark.isMove])
  · rename_i room _
    simp only []
    split
    · exact of_append [.taken room, .pause room] (List.append_assoc ..) (by simp [Mark.isMove])
    · exact of_append [.taken room, .destroy .teardown room] (List.append_assoc ..) (by simp [Mark.isMove])

theorem afterOpen {kept : Option SandboxKept} {reply : Reply SandboxRoom} (broken : Bool)
    (hreply : ∀ room, reply ≠ .returned room) : Stays s (s.afterOpen kept reply broken) := by
  cases reply with
  | returned room => exact absurd rfl (hreply room)
  | cancelled => exact of_eq rfl
  | raised =>
    cases kept with
    | some k => exact of_append [.destroyKept k] rfl (by simp [Mark.isMove])
    | none =>
      refine of_eq ?_
      unfold RoomSession.afterOpen
      rw [noRoomAvailable_eq]

end Stays

/-- Only the claim of a kept room, the opening and the end of `keep` tell of a sandbox that comes or goes. -/
theorem Turn.stays (h : Turn cfg s e t) (hpump : ∀ k, e ≠ .pumpStarts (some k))
    (hopen : ∀ room broken, e ≠ .openEnds (.returned room) broken) (hkeep : e ≠ .keepEnds (.returned ())) :
    Stays s t := by
  cases h with
  | sessionStarted | channelCloses | pumpCutOff | watchdogCutOff | watchdogOff | forceClose | closerCutOff
  | teardownCutOff => exact .of_eq rfl
  | connectionLost =>
    unfold RoomSession.connectionLost
    have hlost : Stays s { s with chan := { s.chan with closing := true, lost := true } } := .of_eq rfl
    exact ((hlost.trans .cancelPump).trans .cancelWatchdog).trans (.beginTeardown _ _)
  | @pumpStarts kept hp =>
    cases kept with
    | some k => exact absurd rfl (hpump k)
    | none => exact .of_append [] rfl nofun
  | openEnds hp hreply => exact .afterOpen _ fun room hr ↦ hopen room _ (by rw [hr])
  | destroyKeptEnds => exact .of_eq (by rw [afterDestroyKept_eq])
  | @lateDestroyEnds room c reply hp hreply =>
    cases reply with
    | cancelled => exact .of_eq rfl
    | returned | raised => exact .of_append [.destroyEnded room] rfl (by simp [Mark.isMove])
  | @readEnds room c reply broken hp hreply =>
    unfold RoomSession.afterRead
    split
    · split
      · exact .finishReading _ _
      · exact .of_eq rfl
    · exact .finishReading _ _
    · exact .finishReading _ _
    · exact .finishReading _ _
  | pumpResumes => exact .of_eq (by rw [goodbye_eq, dequeue_eq])
  | watchdogRuns => exact .idleWatchdog _ _
  | watchdogResumes | closerResumes => exact .of_eq (by rw [dequeue_eq]; rfl)
  | closerStarts => exact .forceClose _
  | forceCloseTimeout => exact .cancelCloser
  | teardownStarts => exact .runTeardown _
  | @keepEnds td room c reply htd htask hreply =>
    cases reply with
    | returned => exact absurd rfl hkeep
    | raised =>
      exact .of_append [.keepRaised room, .destroy .teardown room] (List.append_assoc ..) (by simp [Mark.isMove])
    | cancelled => exact .of_eq rfl
  | @destroyEnds td room c reply htd htask hreply =>
    cases reply with
    | cancelled => exact .of_eq rfl
    | returned | raised => exact .of_append [.destroyEnded room] rfl (by simp [Mark.isMove])

theorem reachable_answers (h : (machine SandboxRoom SandboxKept cfg).Reachable s) (hresumes : Log.Resumes s.marks) :
    (core s).Answers := by
  have hinv : (core s).Lifecycle ∧ (Log.Resumes (core s).marks → (core s).Answers) := by
    refine h.invariant (I := fun s ↦ (core s).Lifecycle ∧ (Log.Resumes (core s).marks → (core s).Answers))
      ⟨.initial, fun _ ↦ ?_⟩ fun s e t _ hi hst ↦ ?_
    · exact ⟨fun _ ↦ rfl, nofun, nofun, nofun, nofun, Log.balanced_nil⟩
    · refine (step_moves hst).invariant (I := fun c ↦ c.Lifecycle ∧ (Log.Resumes c.marks → c.Answers)) hi ?_
      intro c a d hc _ hm
      exact ⟨hc.1.step hm, fun hd ↦ (hc.2 (hd.mono hm.marks)).step hm hc.1 hd⟩
  exact hinv.2 hresumes

/-- How much of the sandbox the session accounts for: it answers for it, or has destroyed it. -/
def Log.share (marks : Log) (x : Nat) : Nat :=
  (if answersFor marks = some x then 1 else 0) + destroyed marks x

/-- What comes and goes is all that changes the share of a session. -/
theorem share_add (hs : Log.Balanced s.marks) (ht : Log.Balanced t.marks) {more : Log} (hmarks : t.marks = s.marks ++ more)
    (x : Nat) : Log.share t.marks x + more.countP (Mark.passesOn x) = Log.share s.marks x + more.countP (Mark.acquires x) := by
  have hsx := hs x
  have htx := ht x
  rw [hmarks] at htx ⊢
  simp only [Log.share, Log.passedOn, Log.acquired, List.countP_append] at hsx htx ⊢
  omega

theorem Stays.share (h : Stays s t) (hs : Log.Balanced s.marks) (ht : Log.Balanced t.marks) (x : Nat) :
    Log.share t.marks x = Log.share s.marks x := by
  obtain ⟨more, hmarks, hmore⟩ := h
  have hadd := share_add hs ht hmarks x
  have hnone {p : Mark SandboxRoom SandboxKept → Bool} (hp : ∀ m, m.isMove = false → p m = false) : more.countP p = 0 :=
    List.countP_eq_zero.mpr fun m hm ↦ by simp [hp m (hmore m hm)]
  have hpassed : more.countP (Mark.passesOn x) = 0 := hnone fun m hm ↦ by cases m <;> first | rfl | cases hm
  have hacquired : more.countP (Mark.acquires x) = 0 := hnone fun m hm ↦ by cases m <;> first | rfl | cases hm
  omega

theorem Stays.resumes (h : Stays s t) (hs : Log.Resumes s.marks) : Log.Resumes t.marks := by
  obtain ⟨more, hmarks, hmore⟩ := h
  intro k room hm
  rw [hmarks] at hm
  rcases List.mem_append.mp hm with hm | hm
  · exact hs k room hm
  · cases hmore _ hm

/-- The log of a session whose room opens. -/
theorem afterOpen_marks (kept : Option SandboxKept) (room : SandboxRoom) (broken : Bool) :
    (s.afterOpen kept (.returned room) broken).marks = s.marks ++ [.opened kept room] ∨
      (s.afterOpen kept (.returned room) broken).marks = s.marks ++ [.opened kept room, .destroy .pump room] := by
  unfold RoomSession.afterOpen
  simp only []
  split
  · exact .inr (List.append_assoc ..)
  · split
    · exact .inl rfl
    · exact .inl rfl

end Keycard.Session
