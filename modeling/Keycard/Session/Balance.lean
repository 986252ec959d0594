import Mathlib
import Keycard.Reasoning.Tally
import Keycard.Session.Accounts

/-!
# What becomes of every sandbox

Over all sessions and the registry nothing is counted twice, and nothing is left out: a sandbox is with one session or
kept under one username, or was destroyed once, or `keep` has put another one in its place.
-/

open Reasoning

namespace Keycard.Session

variable {υ : Type} {s t : KeptRooms υ SandboxKept} {x : Nat}

/-! ## The registry -/

/-- A `Kept` of the sandbox left the registry in this way. -/
def leftAs (fate : Fate) (x : Nat) : KeptMark υ SandboxKept → Bool
  | .left k f => f = fate && k.sandbox = x
  | .paused _ _ => false

/-- Under how many usernames the sandbox is kept. -/
def keptFor (s : KeptRooms υ SandboxKept) (x : Nat) : Nat :=
  s.byUsername.count fun k ↦ k.sandbox = x

def leftCount (s : KeptRooms υ SandboxKept) (fate : Fate) (x : Nat) : Nat :=
  s.marks.countP (leftAs fate x)

variable [DecidableEq υ]

/-- A timer or a sweep goes on: it finds nothing to destroy, or takes out what it destroys. -/
inductive Expires (s t : KeptRooms υ SandboxKept) : Prop
  | same (hby : t.byUsername = s.byUsername) (hmarks : t.marks = s.marks)
  | destroys (u : υ) (k : SandboxKept) (hk : s.byUsername.get? u = some k) (hby : t.byUsername = s.byUsername.erase u)
      (hmarks : t.marks = .left k .destroyed :: s.marks)

theorem sweepFrom_expires (s : KeptRooms υ SandboxKept) (rest : List (υ × SandboxKept)) :
    Expires s (s.sweepFrom rest).1 := by
  induction rest with
  | nil => exact .same rfl rfl
  | cons p rest ih =>
    obtain ⟨u, k⟩ := p
    by_cases h : s.byUsername.get? u = some k
    · rw [KeptRooms.sweepFrom, if_pos h]
      exact .destroys u k h rfl rfl
    · rw [KeptRooms.sweepFrom, if_neg h]
      exact ih

theorem Expires.with_sweeps (h : Expires s t) (sweeps : List (Sweep υ SandboxKept)) :
    Expires s { t with sweeps := sweeps } := by
  cases h with
  | same hby hmarks => exact .same hby hmarks
  | destroys u k hk hby hmarks => exact .destroys u k hk hby hmarks

theorem step_expires {e : KeptEvent υ SandboxKept} (h : s.step e = some t) (hown : FrontDesk.isOwnRegistry e = false) :
    Expires s t := by
  cases e with
  | keep | pauseEnds | take => cases hown
  | expires u k =>
    simp only [KeptRooms.step] at h
    split at h
    · cases h
      unfold KeptRooms.expire
      split
      · exact .destroys u k ‹_› rfl rfl
      · exact .same rfl rfl
    · cases h
  | expireEnds k =>
    simp only [KeptRooms.step] at h
    split at h
    · cases h
      exact .same rfl rfl
    · cases h
  | destroyAll =>
    cases h
    have hsweep := sweepFrom_expires s s.byUsername.items
    rw [← KeptRooms.sweepOn_fst s s.sweeps.length s.byUsername.items] at hsweep
    exact hsweep.with_sweeps _
  | sweepEnds n reply =>
    simp only [KeptRooms.step] at h
    split at h
    · rename_i began rest kept _
      cases h
      cases reply with
      | returned =>
        have hsweep := sweepFrom_expires s rest
        rw [← KeptRooms.sweepOn_fst s n began rest] at hsweep
        exact hsweep.with_sweeps _
      | raised | cancelled => exact .same rfl rfl
    · cases h

/-- What the registry no longer keeps it has destroyed. -/
theorem Expires.balance (h : Expires s t) (x : Nat) :
    keptFor t x + leftCount t .destroyed x = keptFor s x + leftCount s .destroyed x ∧
      leftCount t .replaced x = leftCount s .replaced x := by
  cases h with
  | same hby hmarks => rw [keptFor, keptFor, leftCount, leftCount, leftCount, leftCount, hby, hmarks]; exact ⟨rfl, rfl⟩
  | destroys u k hk hby hmarks =>
    have herase := s.byUsername.count_erase u fun k ↦ k.sandbox = x
    simp only [hk, Option.toList_some, List.countP_singleton] at herase
    simp only [keptFor, leftCount, hby, hmarks, List.countP_cons, leftAs, decide_true, Bool.true_and]
    refine ⟨?_, by simp⟩
    omega

/-- `take` gives away what it finds. -/
theorem take_balance {u : υ} {k : SandboxKept} (hk : s.byUsername.get? u = some k) (ht : s.step (.take u) = some t)
    (x : Nat) : keptFor t x + (if k.sandbox = x then 1 else 0) = keptFor s x ∧
      leftCount t .destroyed x = leftCount s .destroyed x ∧ leftCount t .replaced x = leftCount s .replaced x := by
  cases ht
  have herase := s.byUsername.count_erase u fun k ↦ k.sandbox = x
  simp only [hk, Option.toList_some, List.countP_singleton, decide_eq_true_eq] at herase
  rw [KeptRooms.take, hk]
  simp only [keptFor, leftCount, KeptRooms.remove, List.countP_cons, leftAs]
  refine ⟨herase, ?_, ?_⟩ <;> simp

/-- `keep` adds one, and counts what was there before as replaced. -/
theorem register_balance {u : υ} {k : SandboxKept} (h : KeptRooms.Change s t (some (u, k))) (x : Nat) :
    keptFor t x + leftCount t .replaced x = keptFor s x + leftCount s .replaced x + (if k.sandbox = x then 1 else 0) ∧
      leftCount t .destroyed x = leftCount s .destroyed x := by
  cases h with
  | registered _ _ _ hby hmarks =>
    have hset := s.byUsername.count_set u k fun k ↦ k.sandbox = x
    simp only [List.countP_singleton, decide_eq_true_eq] at hset
    simp only [keptFor, leftCount, hby, hmarks]
    cases hold : s.byUsername.get? u with
    | none =>
      simp only [hold, Option.toList_none, List.countP_nil] at hset
      simp only [Option.map_none, Option.toList_none, List.cons_append, List.nil_append, List.countP_cons, leftAs,
        Bool.false_eq_true, if_false]
      omega
    | some old =>
      simp only [hold, Option.toList_some, List.countP_singleton, decide_eq_true_eq] at hset
      simp only [Option.map_some, Option.toList_some, List.cons_append, List.nil_append, List.countP_cons, leftAs,
        Bool.false_eq_true, if_false, decide_true, Bool.true_and, decide_eq_true_eq, reduceCtorEq, decide_false,
        Bool.false_and]
      omega

/-! ## All of them -/

namespace FrontDesk

variable {cfg : SessionConfig} {d d' : FrontDesk υ} {e : DeskEvent υ} {i : Nat} {g : Guest υ}
  {session : RoomSession SandboxRoom SandboxKept}

section

omit [DecidableEq υ]

/-- How many sessions answer for the sandbox. -/
def answering (d : FrontDesk υ) (x : Nat) : Nat :=
  (d.guests.map fun g ↦ if Log.answersFor g.session.marks = some x then 1 else 0).sum

/-- How often `destroy` or `destroy_kept` was called on the sandbox, by whomever. -/
def destroyed (d : FrontDesk υ) (x : Nat) : Nat :=
  (d.guests.map fun g ↦ Log.destroyed g.session.marks x).sum + leftCount d.kept .destroyed x

def shares (d : FrontDesk υ) (x : Nat) : Nat :=
  (d.guests.map fun g ↦ Log.share g.session.marks x).sum

theorem shares_eq (d : FrontDesk υ) (x : Nat) :
    d.shares x + leftCount d.kept .destroyed x = d.answering x + d.destroyed x := by
  have hsum : d.shares x = d.answering x + (d.guests.map fun g ↦ Log.destroyed g.session.marks x).sum :=
    List.sum_map_add
  rw [hsum, destroyed]
  omega

structure Balanced (d : FrontDesk υ) : Prop where
  resumes : ∀ g ∈ d.guests, Log.Resumes g.session.marks
  balance (x : Nat) : d.shares x + leftCount d.kept .destroyed x + keptFor d.kept x + leftCount d.kept .replaced x =
    if x < d.openedFor.length then 1 else 0

/-- The sessions account for what they did, and for what came to the `i`-th one. -/
theorem shares_set (hg : d.guests[i]? = some g) (hguests : d'.guests = d.guests.set i { g with session })
    (hs : Log.Balanced g.session.marks) (ht : Log.Balanced session.marks) {more : Log}
    (hmarks : session.marks = g.session.marks ++ more) (x : Nat) :
    d'.shares x + more.countP (Mark.passesOn x) = d.shares x + more.countP (Mark.acquires x) := by
  have hset : (d'.guests.map _).sum + Log.share g.session.marks x = d.shares x + Log.share session.marks x :=
    hguests ▸ sum_map_set (fun g : Guest υ ↦ Log.share g.session.marks x) hg { g with session }
  have hadd := share_add hs ht hmarks x
  rw [shares]
  omega

theorem resumes_set (h : ∀ g ∈ d.guests, Log.Resumes g.session.marks)
    (hguests : d'.guests = d.guests.set i { g with session }) (ht : Log.Resumes session.marks) :
    ∀ g ∈ d'.guests, Log.Resumes g.session.marks := by
  intro g' hg'
  rw [hguests] at hg'
  rcases List.mem_or_eq_of_mem_set hg' with hmem | rfl
  · exact h g' hmem
  · exact ht

end

/-- A session and a step of it, in a system that balances: the logs balance on both sides. -/
theorem logs_balanced (hreach : (machine υ cfg).Reachable d) (h : d.Balanced) (hg : d.guests[i]? = some g)
    {f : Event SandboxRoom SandboxKept} (hst : Session.step cfg g.session f = some session)
    (ht : Log.Resumes session.marks) : Log.Balanced g.session.marks ∧ Log.Balanced session.marks := by
  have hmem := List.mem_of_getElem? hg
  have hsession := reachable_sessions hreach g.session (List.mem_map_of_mem hmem)
  exact ⟨(reachable_answers hsession (h.resumes g hmem)).balanced, (reachable_answers (hsession.step hst) ht).balanced⟩

/-- The session keeps what it has or destroys it, and so does the registry. -/
theorem Balanced.stays (hreach : (machine υ cfg).Reachable d) (h : d.Balanced) (hg : d.guests[i]? = some g)
    (hguests : d'.guests = d.guests.set i { g with session }) {f : Event SandboxRoom SandboxKept}
    (hst : Session.step cfg g.session f = some session) (hstays : Stays g.session session)
    (hopened : d'.openedFor = d.openedFor) (hby : d'.kept.byUsername = d.kept.byUsername)
    (hmarks : d'.kept.marks = d.kept.marks) : d'.Balanced := by
  have hresumes := hstays.resumes (h.resumes g (List.mem_of_getElem? hg))
  obtain ⟨hs, ht⟩ := logs_balanced hreach h hg hst hresumes
  refine ⟨resumes_set h.resumes hguests hresumes, fun x ↦ ?_⟩
  have hset := sum_map_set (fun g : Guest υ ↦ Log.share g.session.marks x) hg { g with session }
  rw [hstays.share hs ht x, Nat.add_right_cancel_iff, ← hguests] at hset
  have hbalance := h.balance x
  simp only [shares, keptFor, leftCount, hset, hopened, hby, hmarks] at hbalance ⊢
  exact hbalance

/-- What comes to the session, or leaves it, comes from elsewhere or goes there. -/
theorem Balanced.moves (hreach : (machine υ cfg).Reachable d) (h : d.Balanced) (hg : d.guests[i]? = some g)
    (hguests : d'.guests = d.guests.set i { g with session }) {f : Event SandboxRoom SandboxKept}
    (hst : Session.step cfg g.session f = some session) {more : Log} (hmarks : session.marks = g.session.marks ++ more)
    (hmore : Log.Resumes more)
    (helse : ∀ x, more.countP (Mark.acquires x) + (leftCount d'.kept .destroyed x + keptFor d'.kept x +
        leftCount d'.kept .replaced x) + (if x < d.openedFor.length then 1 else 0) =
      more.countP (Mark.passesOn x) + (leftCount d.kept .destroyed x + keptFor d.kept x +
        leftCount d.kept .replaced x) + if x < d'.openedFor.length then 1 else 0) : d'.Balanced := by
  have hresumes : Log.Resumes session.marks := by
    intro k room hm
    rw [hmarks] at hm
    exact (List.mem_append.mp hm).elim (h.resumes g (List.mem_of_getElem? hg) k room) (hmore k room)
  obtain ⟨hs, ht⟩ := logs_balanced hreach h hg hst hresumes
  refine ⟨resumes_set h.resumes hguests hresumes, fun x ↦ ?_⟩
  have hshares := shares_set hg hguests hs ht hmarks x
  have hbalance := h.balance x
  have hx := helse x
  omega

/-- What the log says of a room that opens. -/
theorem opened_marks {s t : RoomSession SandboxRoom SandboxKept} {kept : Option SandboxKept} {c : Bool}
    (hp : s.pump = some (.suspended (.opening kept) c)) {room : SandboxRoom} {broken : Bool}
    (hst : Session.step cfg s (.openEnds (.returned room) broken) = some t) :
    ∃ more : Log, t.marks = s.marks ++ more ∧
      (∀ k room', .opened (some k) room' ∈ more → (Mark.opened (some k) room' : Mark SandboxRoom SandboxKept) =
        .opened kept room) ∧
      (∀ x, more.countP (Mark.acquires x) = if kept = none ∧ room.sandbox = x then 1 else 0) ∧
        ∀ x, more.countP (Mark.passesOn x) = 0 := by
  cases step_turn hst with
  | openEnds hp' =>
    cases hp.symm.trans hp'
    rcases afterOpen_marks kept room broken with hmarks | hmarks
    · refine ⟨_, hmarks, fun k room' hm ↦ List.mem_singleton.mp hm, fun x ↦ ?_, fun x ↦ rfl⟩
      cases kept <;> simp [Mark.acquires]
    · refine ⟨_, hmarks, fun k room' hm ↦ ?_, fun x ↦ ?_, fun x ↦ rfl⟩
      · simpa using hm
      · cases kept <;> simp [Mark.acquires, List.countP_cons]

theorem pauseEnds_same {kept kept' : KeptRooms υ SandboxKept} {u : υ} {reply : Reply SandboxKept}
    (h : kept.step (.pauseEnds u reply) = some kept') (hreply : ∀ k, reply ≠ .returned k) :
    kept'.byUsername = kept.byUsername ∧ kept'.marks = kept.marks := by
  simp only [KeptRooms.step] at h
  split at h
  · cases reply with
    | returned k => exact absurd rfl (hreply k)
    | raised | cancelled =>
      cases h
      exact ⟨rfl, rfl⟩
  · cases h

theorem Balanced.step (hreach : (machine υ cfg).Reachable d) (h : d.Balanced) (hst : Moves cfg d e d') :
    d'.Balanced := by
  cases hst with
  | connects =>
    refine ⟨fun g hg ↦ ?_, fun x ↦ ?_⟩
    · rcases List.mem_append.mp hg with hg | hg
      · exact h.resumes g hg
      · cases List.mem_singleton.mp hg
        exact fun k room hm ↦ absurd hm List.not_mem_nil
    · have hbalance := h.balance x
      simp only [shares, List.map_append, List.sum_append] at hbalance ⊢
      exact hbalance
  | session hg hown hst =>
    refine h.stays hreach hg rfl hst ((step_turn hst).stays ?_ ?_ ?_) rfl rfl rfl
    · rintro k rfl
      cases hown
    · rintro room broken rfl
      cases hown
    · rintro rfl
      cases hown
  | @takes i g session kept hg hp hst htake =>
    cases hfound : d.kept.byUsername.get? g.username with
    | none =>
      rw [hfound] at hst
      have hsame : kept = d.kept := by
        cases htake
        rw [KeptRooms.take, hfound]
      have hstays := (step_turn hst).stays (by simp) (by simp) (by simp)
      exact h.stays hreach hg rfl hst hstays rfl (by rw [hsame]) (by rw [hsame])
    | some k =>
      rw [hfound] at hst
      have hmarks : session.marks = g.session.marks ++ [.took k] := by
        cases step_turn hst with
        | pumpCutOff hp' => cases hp.symm.trans hp'
        | pumpStarts => rfl
      refine h.moves hreach hg rfl hst hmarks (by simp [Log.Resumes]) fun x ↦ ?_
      obtain ⟨hkeptFor, hdestroyed, hreplaced⟩ := take_balance hfound htake x
      show _ + (leftCount kept .destroyed x + keptFor kept x + leftCount kept .replaced x) + _ =
        _ + _ + if x < d.openedFor.length then 1 else 0
      rw [hdestroyed, hreplaced, ← hkeptFor]
      simp only [List.countP_singleton, Mark.passesOn, Mark.acquires, decide_eq_true_eq, Bool.false_eq_true, if_false]
      omega
  | pumpStarts hg hst =>
    exact h.stays hreach hg rfl hst ((step_turn hst).stays (by simp) (by simp) (by simp)) rfl rfl rfl
  | @opens i g pausable broken session c hg hp hst =>
    obtain ⟨more, hmarks, hmore, hacquires, hpasses⟩ := opened_marks hp hst
    refine h.moves hreach hg rfl hst hmarks (fun k room hm ↦ ?_) fun x ↦ ?_
    · cases hmore k room hm
    · rw [hacquires, hpasses]
      show _ + _ + _ = _ + _ + if x < (d.openedFor ++ [g.username]).length then 1 else 0
      rw [List.length_append, List.length_singleton]
      by_cases hx : d.openedFor.length = x
      · simp [hx, Nat.add_comm]
      · have hiff : x < d.openedFor.length + 1 ↔ x < d.openedFor.length := by omega
        simp [hx, hiff]
  | @resumes i g pausable broken session k c hg hp hst =>
    obtain ⟨more, hmarks, hmore, hacquires, hpasses⟩ := opened_marks hp hst
    refine h.moves hreach hg rfl hst hmarks (fun k' room hm ↦ ?_) fun x ↦ ?_
    · cases hmore k' room hm
      rfl
    · rw [hacquires, hpasses, if_neg (by simp)]
      rfl
  | teardownStarts hg hst hkept =>
    exact h.stays hreach hg rfl hst ((step_turn hst).stays (by simp) (by simp) (by simp)) rfl hkept.1 hkept.2
  | @pauseEnds i g reply room session kept hg hroom hst hkept =>
    have hpausing := pauseEnds_same hkept
    cases reply with
    | raised | cancelled =>
      obtain ⟨hby, hmarks⟩ := hpausing (by simp [pauseReply])
      exact h.stays hreach hg rfl hst ((step_turn hst).stays (by simp) (by simp) (by simp [outcome])) rfl hby hmarks
    | returned k =>
      have hmarks : session.marks = g.session.marks ++ [.kept room] := by
        obtain ⟨td, c, htd, htask⟩ := pausing_eq hroom
        cases step_turn hst with
        | keepEnds htd' htask' =>
          cases htd.symm.trans htd'
          cases htask.symm.trans htask'
          rfl
      refine h.moves hreach hg rfl hst hmarks (fun k room hm ↦ by simp at hm) fun x ↦ ?_
      obtain ⟨hregistered, hdestroyed⟩ := register_balance (KeptRooms.step_change hkept) x
      have hkeptFor : keptFor kept x + leftCount kept .replaced x =
          keptFor d.kept x + leftCount d.kept .replaced x + if room.sandbox = x then 1 else 0 := hregistered
      show _ + (leftCount kept .destroyed x + keptFor kept x + leftCount kept .replaced x) + _ =
        _ + _ + if x < d.openedFor.length then 1 else 0
      simp only [List.countP_singleton, Mark.passesOn, Mark.acquires, decide_eq_true_eq, Bool.false_eq_true, if_false]
      omega
  | @registry f kept hown hkept =>
    refine ⟨h.resumes, fun x ↦ ?_⟩
    have hbalance := h.balance x
    obtain ⟨hkeptFor, hreplaced⟩ := (step_expires hkept hown).balance x
    simp only [shares] at hbalance ⊢
    omega

/-! ## Every run -/

omit [DecidableEq υ] in
theorem balanced_initial : Balanced (initial : FrontDesk υ) where
  resumes := by simp [initial]
  balance x := by simp [initial, shares, leftCount, keptFor, KeptRooms.initial, Dict.count]

theorem reachable_balanced (h : (machine υ cfg).Reachable d) : d.Balanced :=
  h.invariant balanced_initial fun _ _ _ hd hi hst ↦ hi.step hd (step_moves hst)

theorem reachable_session_answers (h : (machine υ cfg).Reachable d) (hg : d.guests[i]? = some g) :
    (core g.session).Answers := by
  have hmem := List.mem_of_getElem? hg
  exact reachable_answers (reachable_sessions h g.session (List.mem_map_of_mem hmem))
    ((reachable_balanced h).resumes g hmem)

omit [DecidableEq υ] in
theorem answering_pos (hg : d.guests[i]? = some g) (hx : Log.answersFor g.session.marks = some x) :
    0 < d.answering x := by
  have hle := le_sum_map (fun g : Guest υ ↦ if Log.answersFor g.session.marks = some x then 1 else 0) hg
  simp only [hx, if_true] at hle
  exact hle

/-- A `CancelledError` has ended the pump of the session, or its teardown. -/
def CutShort (s : RoomSession SandboxRoom SandboxKept) : Prop :=
  s.pump = some (.ended .cancelled) ∨ s.teardown.map Teardown.task = some (.ended .cancelled)

theorem hasSandbox_of_inHand {s : RoomSession SandboxRoom SandboxKept} (h : (core s).InHand x) :
    HasSandbox s x ∨ CutShort s := by
  cases h with
  | resuming k b hp hx =>
    have hp : s.pump = some (.suspended (.opening (some k)) b) := hp
    exact .inl (.inl (by rw [pumpSandbox, hp, ← hx]; rfl))
  | room r hr hx =>
    have hr : s.room = some r := hr
    exact .inl (.inr (.inl (by rw [hr, ← hx]; rfl)))
  | pausing keep r b ht hx =>
    obtain ⟨td, htd, heq⟩ := Option.map_eq_some_iff.mp ht
    have htask : td.task = .suspended (.pausing r) b := congrArg Prod.snd heq
    refine .inl (.inr (.inr ?_))
    rw [teardownSandbox, htd, Option.bind_some, htask, ← hx]
    rfl
  | pumpCut hp => exact .inr (.inl hp)
  | teardownCut keep ht =>
    obtain ⟨td, htd, heq⟩ := Option.map_eq_some_iff.mp ht
    have htask : td.task = .ended .cancelled := congrArg Prod.snd heq
    exact .inr (.inr (by rw [htd, ← htask]; rfl))

/-- For every sandbox that was ever opened there is exactly one of these: a session that answers for it, a username
under which it is kept, a call that destroyed it, a time it was replaced in the registry.  A session that answers for a
sandbox has it, unless a `CancelledError` has ended one of its tasks, and no room that a session uses has been
destroyed. -/
theorem sandbox_accounted (υ : Type) [DecidableEq υ] (cfg : SessionConfig) {d : FrontDesk υ}
    (h : (machine υ cfg).Reachable d) (x : Nat) :
    d.answering x + keptFor d.kept x + d.destroyed x + leftCount d.kept .replaced x =
        (if x < d.openedFor.length then 1 else 0) ∧
      ∀ (i : Nat) (g : Guest υ), d.guests[i]? = some g →
        (Log.answersFor g.session.marks = some x → HasSandbox g.session x ∨ CutShort g.session) ∧
          (g.session.room.map SandboxRoom.sandbox = some x → d.destroyed x = 0) := by
  have hsum : d.answering x + keptFor d.kept x + d.destroyed x + leftCount d.kept .replaced x =
      if x < d.openedFor.length then 1 else 0 := by
    have hbalance := (reachable_balanced h).balance x
    have hshares := d.shares_eq x
    omega
  refine ⟨hsum, fun i g hg ↦ ⟨fun hx ↦ ?_, fun hroom ↦ ?_⟩⟩
  · exact hasSandbox_of_inHand ((reachable_session_answers h hg).inHand x hx)
  · obtain ⟨room, hr, hx⟩ := Option.map_eq_some_iff.mp hroom
    have hpos := answering_pos hg (hx ▸ (reachable_session_answers h hg).room room hr)
    split at hsum <;> omega

/-- The client is gone for longer than the window. -/
def goneTooLong : List (DeskEvent String) :=
  [.connects "python", .session 0 .sessionStarted, .pumpStarts 0, .opens 0 true false, .session 0 .connectionLost,
    .teardownStarts 0, .pauseEnds 0 (.returned 7), .registry (.expires "python" ⟨7, 0⟩)]

theorem goneTooLong_accounted : ∃ d : FrontDesk String,
    (machine String ⟨some 600, 0⟩).run .initial goneTooLong = some d ∧ d.destroyed 0 = 1 ∧ d.answering 0 = 0 ∧
      keptFor d.kept 0 = 0 := by
  have hends : ((machine String ⟨some 600, 0⟩).run .initial goneTooLong).map
      (fun d ↦ (d.destroyed 0, d.openedFor)) = some (1, ["python"]) := by
    decide +kernel
  obtain ⟨d, hrun, hd⟩ := Option.map_eq_some_iff.mp hends
  obtain ⟨hdestroyed, hopened⟩ := Prod.mk.inj hd
  have hsum := (sandbox_accounted String ⟨some 600, 0⟩ (Machine.Reachable.of_run hrun) 0).1
  rw [hdestroyed, hopened] at hsum
  have hone : (if 0 < ["python"].length then 1 else 0) = 1 := rfl
  rw [hone] at hsum
  exact ⟨d, hrun, hdestroyed, by omega, by omega⟩

end FrontDesk

end Keycard.Session
