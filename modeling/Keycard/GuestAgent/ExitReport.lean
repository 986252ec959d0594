import Keycard.GuestAgent.Reattach

/-!
# What the agent says about the shell

`exit_code` makes one number of the way the shell ended, and the exit task writes it, once, to the control
channel that is attached at that moment.
-/

open Reasoning

namespace Keycard.GuestAgent

/-! ## `exit_code` -/

/-- What `wait` reports, as the kernel encodes it. -/
abbrev WaitStatus := BitVec 32

namespace WaitStatus

/-- `ExitStatus::code` -/
def code (status : WaitStatus) : Option (BitVec 32) :=
  if status &&& 0x7f = 0 then some ((status >>> 8) &&& 0xff) else none

/-- `ExitStatus::signal`; 0x7f is a process that has only been stopped -/
def signal (status : WaitStatus) : Option (BitVec 32) :=
  if status &&& 0x7f ≠ 0 ∧ status &&& 0x7f ≠ 0x7f then some (status &&& 0x7f) else none

end WaitStatus

/-- `exit_code` -/
def exitCode (status : WaitStatus) : Int32 :=
  .ofBitVec (status.code.getD (128 + status.signal.getD 0))

/-- What the exit task reports; `none` where `child.wait()` fails. -/
def reportedCode : Option WaitStatus → Int32
  | some status => exitCode status
  | none => 1

example : exitCode (7 <<< 8) = 7 ∧ exitCode 9 = 137 := by decide

theorem toInt_ofBitVec {b : BitVec 32} (h : b.toNat < 256) :
    0 ≤ (Int32.ofBitVec b).toInt ∧ (Int32.ofBitVec b).toInt < 256 := by
  have hint : (Int32.ofBitVec b).toInt = b.toNat := by
    show b.toInt = b.toNat
    exact BitVec.toInt_eq_toNat_of_lt (by omega)
  omega

/-- Whatever has happened to the shell, its status is one byte. -/
theorem reportedCode_range (status : Option WaitStatus) :
    0 ≤ (reportedCode status).toInt ∧ (reportedCode status).toInt < 256 := by
  cases status with
  | none => decide
  | some status =>
    apply toInt_ofBitVec
    -- the exit code is what is left of a mask, and so is the signal
    have hcode : ((status >>> 8) &&& 0xff).toNat ≤ 255 := by
      rw [BitVec.toNat_and]
      exact Nat.and_le_right
    have hsignal : (status &&& 0x7f).toNat ≤ 127 := by
      rw [BitVec.toNat_and]
      exact Nat.and_le_right
    unfold WaitStatus.code WaitStatus.signal
    split
    · exact Nat.lt_succ_of_le hcode
    · split
      · simp only [Option.getD_none, Option.getD_some, BitVec.toNat_add]
        have h128 : (128 : BitVec 32).toNat = 128 := rfl
        omega
      · decide

/-! ## The line on the control channel -/

/-- The status of the shell, where this is its exit. -/
def Event.exits : Event → Option Int32
  | .shellExits code => some code
  | _ => none

namespace Session

/-- What the agent has written to the control channel of a connection. -/
def said (s : Session) (k : Nat) : Bytes :=
  (s.host ⟨k, .ctrl⟩).written

/-- The connection has been told the status, or the beginning of it, and nobody else anything. -/
def Told (s : Session) (code : Option Int32) (rest : Bytes) (k : Nat) : Prop :=
  (∃ c, code = some c ∧ s.said k ++ rest <+: exitLine c) ∧ ∀ j, j ≠ k → s.said j = []

/-- What the exit task has said so far; `code` is what the shell has exited with. -/
def Reports (s : Session) (code : Option Int32) : Prop :=
  match s.exitTask with
  | .waiting => code = none ∧ ∀ k, s.said k = []
  | .reaped c | .draining c | .joining c | .locking c => code = some c ∧ ∀ k, s.said k = []
  | .reporting rest => ∃ k, s.ctrlOut = some k ∧ s.Told code rest k
  | .detaching _ | .done => ∃ k, s.Told code [] k

end Session

open Session

section

variable {window : Nat} {s t : Session} {e : Event} {code : Option Int32}

theorem said_setHost {x : Stream} {v : HostEnd} (hv : x.channel = .ctrl → v.written = (s.host x).written)
    (k : Nat) : (s.setHost x v).said k = s.said k := by
  unfold said Session.setHost
  by_cases hx : x = ⟨k, .ctrl⟩
  · subst hx
    simp only [Function.update_self]
    exact hv rfl
  · simp only [Function.update_of_ne (Ne.symm hx)]

/-- Nobody else writes to a control channel. -/
theorem Step.said (h : Step window s e t) (he : ∀ n, e ≠ .exitWrites n) (k : Nat) : t.said k = s.said k := by
  cases h with
  | hostTakes | hostLeaves =>
    apply said_setHost
    exact fun _ ↦ rfl
  | exitShuts =>
    show (s.setHost _ _).said k = s.said k
    apply said_setHost
    exact fun _ ↦ rfl
  | pumpWrites =>
    show (s.setHost _ _).said k = s.said k
    apply said_setHost
    nofun
  | exitWrites => exact absurd rfl (he _)
  | @exitDetaches d u next _ hd =>
    show (u.host ⟨k, .ctrl⟩).written = s.said k
    rw [(detaches_host hd).1]
    rfl
  | @attachDetaches _ d u next _ hd =>
    show (u.host ⟨k, .ctrl⟩).written = s.said k
    rw [(detaches_host hd).1]
    rfl
  | _ => rfl

/-- While the exit task reports, the slot stays as it is. -/
theorem Step.ctrlOut (h : Step window s e t) {rest : Bytes} (hexit : s.exitTask = .reporting rest) :
    t.ctrlOut = s.ctrlOut := by
  have hlocked : s.ctrlLocked = true := by simp only [ctrlLocked, hexit]
  cases h with
  | exitDetaches hexit' => cases hexit.symm.trans hexit'
  | attachDetaches _ hd =>
    cases hd with
    | clearsCtrl hfree => cases hfree.symm.trans hlocked
    | takes | joined | joins | clearsData => rfl
  | installsCtrl _ hfree => cases hfree.symm.trans hlocked
  | _ => rfl

end

namespace Session

variable {window : Nat} {s t : Session} {e : Event} {code : Option Int32}

theorem Told.congr {rest : Bytes} {k : Nat} (h : s.Told code rest k) (hsaid : ∀ j, t.said j = s.said j) :
    t.Told code rest k := by
  refine ⟨?_, fun j hj ↦ (hsaid j).trans (h.2 j hj)⟩
  rw [hsaid]
  exact h.1

theorem Told.stops {rest : Bytes} {k : Nat} (h : s.Told code rest k) : s.Told code [] k := by
  obtain ⟨⟨c, hc, hbegun⟩, hothers⟩ := h
  refine ⟨⟨c, hc, ?_⟩, hothers⟩
  rw [List.append_nil]
  exact (List.prefix_append _ _).trans hbegun

/-- A step of anybody but the exit task. -/
theorem Reports.keeps (h : s.Reports code) (hexit : t.exitTask = s.exitTask)
    (hsaid : ∀ k, t.said k = s.said k)
    (hslot : ∀ rest, s.exitTask = .reporting rest → t.ctrlOut = s.ctrlOut) : t.Reports code := by
  have hsilent : (∀ k, s.said k = []) → ∀ k, t.said k = [] := fun hs k ↦ (hsaid k).trans (hs k)
  unfold Reports at h ⊢
  rw [hexit]
  split <;> rename_i heq <;> simp only [heq] at h
  · exact ⟨h.1, hsilent h.2⟩
  · exact ⟨h.1, hsilent h.2⟩
  · exact ⟨h.1, hsilent h.2⟩
  · exact ⟨h.1, hsilent h.2⟩
  · exact ⟨h.1, hsilent h.2⟩
  · obtain ⟨k, hk, htold⟩ := h
    exact ⟨k, (hslot _ heq).trans hk, htold.congr hsaid⟩
  · obtain ⟨k, htold⟩ := h
    exact ⟨k, htold.congr hsaid⟩
  · obtain ⟨k, htold⟩ := h
    exact ⟨k, htold.congr hsaid⟩

/-- The first piece of the exit line, or the next one. -/
theorem Told.writes {rest : Bytes} {k : Nat} (h : s.Told code rest k) (n : Nat) (exitTask : ExitTask) :
    ({ s.deliver ⟨k, .ctrl⟩ (rest.take n) with exitTask := exitTask } : Session).Told code (rest.drop n) k := by
  obtain ⟨⟨c, hc, hbegun⟩, hothers⟩ := h
  have hself : (s.deliver ⟨k, .ctrl⟩ (rest.take n)).said k = s.said k ++ rest.take n := by
    simp only [Session.said, deliver, setHost, Function.update_self, HostEnd.receive]
  refine ⟨⟨c, hc, ?_⟩, fun j hj ↦ ?_⟩
  · show (s.deliver ⟨k, .ctrl⟩ (rest.take n)).said k ++ rest.drop n <+: exitLine c
    rw [hself, List.append_assoc, List.take_append_drop]
    exact hbegun
  · have hne : (⟨j, .ctrl⟩ : Stream) ≠ ⟨k, .ctrl⟩ := by
      simpa using hj
    show ((s.deliver ⟨k, .ctrl⟩ (rest.take n)).host ⟨j, .ctrl⟩).written = []
    simp only [deliver, setHost, Function.update_of_ne hne]
    exact hothers j hj

theorem told_of_silent {c : Int32} (hcode : code = some c) (hsilent : ∀ k, s.said k = []) {rest : Bytes}
    (hrest : rest <+: exitLine c) (k : Nat) : s.Told code rest k := by
  refine ⟨⟨c, hcode, ?_⟩, fun j _ ↦ hsilent j⟩
  rw [hsilent, List.nil_append]
  exact hrest

theorem reports_next {d : Option Detach} (h : ∃ k, s.Told code [] k)
    (hexit : s.exitTask = d.elim .done .detaching) : s.Reports code := by
  cases d with
  | none => simpa [Reports, hexit] using h
  | some d => simpa [Reports, hexit] using h

theorem Reports.exits (h : s.Reports code) (hexit : s.exitTask = .waiting) (c : Int32) :
    code = none ∧ ({ s with exitTask := .reaped c } : Session).Reports (some c) := by
  simp only [Reports, hexit] at h
  exact ⟨h.1, rfl, h.2⟩

theorem Reports.step (h : s.Reports code) (he : e.exits = none) (hst : Step window s e t) : t.Reports code := by
  have hsaid := hst.said
  have hslots (rest : Bytes) := @Step.ctrlOut window s t e hst rest
  cases hst with
  | shellExits => cases he
  | exitStops hexit | exitAborts hexit | exitJoins hexit =>
    simp only [Reports, hexit] at h
    exact h
  | exitSkips hexit =>
    simp only [Reports, hexit] at h
    -- nobody is attached, and nobody is told
    exact ⟨0, told_of_silent h.1 h.2 List.nil_prefix 0⟩
  | exitLocks hexit hslot =>
    simp only [Reports, hexit] at h
    exact ⟨_, hslot, told_of_silent h.1 h.2 (List.prefix_refl _) _⟩
  | exitWrites hexit hslot =>
    simp only [Reports, hexit] at h
    obtain ⟨k, hk, htold⟩ := h
    cases hslot.symm.trans hk
    exact ⟨_, hk, htold.writes _ _⟩
  | exitWriteFails hexit hslot =>
    simp only [Reports, hexit] at h
    obtain ⟨k, hk, htold⟩ := h
    exact ⟨k, hk, htold.stops⟩
  | exitShuts hexit =>
    simp only [Reports, hexit] at h
    obtain ⟨k, -, htold⟩ := h
    exact ⟨k, htold.congr (hsaid nofun)⟩
  | exitDetaches hexit hd =>
    simp only [Reports, hexit] at h
    obtain ⟨k, htold⟩ := h
    exact reports_next ⟨k, htold.congr (hsaid nofun)⟩ rfl
  | attachDetaches _ hd => exact h.keeps (by rw [detaches_eq hd]) (hsaid nofun) hslots
  | _ => exact h.keeps rfl (hsaid nofun) hslots

/-- The shell's exit, if there has been one. -/
def exited (es : List Event) : Option Int32 :=
  es.findSome? Event.exits

theorem exited_concat (es : List Event) (e : Event) : exited (es ++ [e]) = (exited es).or e.exits := by
  rw [exited, List.findSome?_append, List.findSome?_singleton]
  rfl

theorem mem_of_exited {es : List Event} {c : Int32} (h : exited es = some c) : .shellExits c ∈ es := by
  obtain ⟨e, hmem, he⟩ := List.exists_of_findSome?_eq_some h
  cases e with
  | shellExits c' =>
    cases he
    exact hmem
  | _ => cases he

/-- In every run the agent says what the shell has exited with, to one connection at most and no more than once. -/
theorem run_reports {es : List Event} (hrun : (machine window).run .start es = some s) :
    s.Reports (exited es) := by
  refine Machine.run_induction (P := fun es s ↦ s.Reports (exited es)) hrun ⟨rfl, fun _ ↦ rfl⟩ ?_
  intro es s e t h hst
  rw [exited_concat]
  have hst := step_step hst
  cases he : e.exits with
  | none =>
    rw [Option.or_none]
    exact h.step he hst
  | some c =>
    cases hst with
    | shellExits hexit =>
      cases he
      obtain ⟨hnone, hreports⟩ := h.exits hexit c
      rw [hnone]
      exact hreports
    | _ => cases he

/-- Whoever was told anything was told the status, or the beginning of it. -/
theorem Reports.said_begins (h : s.Reports code) {k : Nat} (hsaid : s.said k ≠ []) :
    ∃ c, code = some c ∧ s.said k <+: exitLine c ∧ ∀ j, j ≠ k → s.said j = [] := by
  have htold {rest : Bytes} {k' : Nat} (ht : s.Told code rest k') :
      ∃ c, code = some c ∧ s.said k <+: exitLine c ∧ ∀ j, j ≠ k → s.said j = [] := by
    by_cases hk : k = k'
    · subst hk
      obtain ⟨⟨c, hc, hbegun⟩, hothers⟩ := ht
      exact ⟨c, hc, (List.prefix_append _ _).trans hbegun, hothers⟩
    · exact absurd (ht.2 k hk) hsaid
  unfold Reports at h
  split at h
  · exact absurd (h.2 k) hsaid
  · exact absurd (h.2 k) hsaid
  · exact absurd (h.2 k) hsaid
  · exact absurd (h.2 k) hsaid
  · exact absurd (h.2 k) hsaid
  · obtain ⟨k', -, ht⟩ := h
    exact htold ht
  · obtain ⟨k', ht⟩ := h
    exact htold ht
  · obtain ⟨k', ht⟩ := h
    exact htold ht

end Session

end Keycard.GuestAgent
