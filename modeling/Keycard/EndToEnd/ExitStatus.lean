import Keycard.GuestAgent.ControlProtocol
import Keycard.GuestAgent.ExitReport
import Keycard.GuestAgent.HostEnds
import Keycard.Reasoning.Part
import Keycard.Session.GuestStatus

/-!
# The exit status, from the shell to the client

A room of the firecracker backend with the agent of this repository in its guest: what the agent writes to the
control channel, `_watch_exit` reads, and `_run` passes to `chan.exit`.
-/

open Reasoning

namespace Keycard.EndToEnd

open GuestAgent (Bytes WaitStatus Stream HostEnd reportedCode)
open Session (GuestSession GuestEvent SessionConfig)
open Firecracker (Recv heard exitStatus destroyStatus InRange)

/-- The room is a connection of the agent. -/
structure StatusPath (ρ κ : Type) where
  agent : GuestAgent.Session
  host : GuestSession ρ κ

inductive StatusEvent (ρ κ : Type) where
  /-- `child.wait()` is over -/
  | shellEnds (how : Option WaitStatus)
  | agent (e : GuestAgent.Event)
  /-- a `sock_recv` on the control channel comes back with this -/
  | receives (chunk : Bytes)
  /-- the channel is closed, or the VMM is gone -/
  | cut (r : Recv)
  | session (e : Session.Event ρ κ)

namespace StatusPath

variable {ρ κ : Type}

def initial : StatusPath ρ κ where
  agent := .start
  host := .initial

/-- The control channel of the room. -/
def ctrl (conn : Nat) : Stream := ⟨conn, .ctrl⟩

/-- The agent's end of the channel. -/
def wire (conn : Nat) (s : StatusPath ρ κ) : HostEnd :=
  s.agent.host (ctrl conn)

/-- What is an event of its own here. -/
def isOwn (conn : Nat) : GuestAgent.Event → Bool
  | .shellExits _ => true
  | .hostTakes x _ => x = ctrl conn
  | _ => false

def step [Room ρ] (window conn : Nat) (cfg : SessionConfig) (s : StatusPath ρ κ) :
    StatusEvent ρ κ → Option (StatusPath ρ κ)
  | .shellEnds how => do
    let agent ← GuestAgent.step window s.agent (.shellExits (reportedCode how))
    return { s with agent }
  | .agent e =>
    if isOwn conn e then none
    else (GuestAgent.step window s.agent e).map fun agent ↦ { s with agent }
  | .receives chunk =>
    if chunk.isPrefixOf (s.wire conn).rest then do
      let agent ← GuestAgent.step window s.agent (.hostTakes (ctrl conn) chunk.length)
      let host ← GuestSession.step cfg s.host (.receives (.data chunk))
      return { agent, host }
    else none
  | .cut r =>
    if r.isLast then (GuestSession.step cfg s.host (.receives r)).map fun host ↦ { s with host } else none
  | .session e => (GuestSession.step cfg s.host (.session e)).map fun host ↦ { s with host }

/-- `window` is that of the agent's streams, and `conn` the connection of the room. -/
def machine (ρ κ : Type) [Room ρ] (window conn : Nat) (cfg : SessionConfig) :
    Machine (StatusPath ρ κ) (StatusEvent ρ κ) where
  init := .initial
  step := step window conn cfg

section

variable [Room ρ] {window conn : Nat} {cfg : SessionConfig} {s t : StatusPath ρ κ} {e : StatusEvent ρ κ}

/-! ## The two parts -/

def agentLabel (conn : Nat) : StatusEvent ρ κ → Option GuestAgent.Event
  | .shellEnds how => some (.shellExits (reportedCode how))
  | .agent e => if isOwn conn e then none else some e
  | .receives chunk => some (.hostTakes (ctrl conn) chunk.length)
  | .cut _ => none
  | .session _ => none

def hostLabel : StatusEvent ρ κ → Option (GuestEvent ρ κ)
  | .shellEnds _ => none
  | .agent _ => none
  | .receives chunk => some (.receives (.data chunk))
  | .cut r => some (.receives r)
  | .session e => some (.session e)

/-- What a step does to the two ends. -/
inductive Moves (window conn : Nat) (cfg : SessionConfig) (s : StatusPath ρ κ) :
    StatusEvent ρ κ → StatusPath ρ κ → Prop
  | shellEnds {how : Option WaitStatus} {agent : GuestAgent.Session}
      (h : GuestAgent.step window s.agent (.shellExits (reportedCode how)) = some agent) :
      Moves window conn cfg s (.shellEnds how) { s with agent }
  | agent {e : GuestAgent.Event} {agent : GuestAgent.Session} (hown : isOwn conn e = false)
      (h : GuestAgent.step window s.agent e = some agent) : Moves window conn cfg s (.agent e) { s with agent }
  | receives {chunk : Bytes} {agent : GuestAgent.Session} {host : GuestSession ρ κ}
      (hnext : chunk <+: (s.wire conn).rest)
      (hagent : GuestAgent.step window s.agent (.hostTakes (ctrl conn) chunk.length) = some agent)
      (hhost : GuestSession.step cfg s.host (.receives (.data chunk)) = some host) :
      Moves window conn cfg s (.receives chunk) { agent, host }
  | cut {r : Recv} {host : GuestSession ρ κ} (hlast : r.isLast = true)
      (h : GuestSession.step cfg s.host (.receives r) = some host) :
      Moves window conn cfg s (.cut r) { s with host }
  | session {e : Session.Event ρ κ} {host : GuestSession ρ κ}
      (h : GuestSession.step cfg s.host (.session e) = some host) :
      Moves window conn cfg s (.session e) { s with host }

theorem step_moves (h : step window conn cfg s e = some t) : Moves window conn cfg s e t := by
  cases e with
  | shellEnds how =>
    obtain ⟨agent, hagent, heq⟩ := Option.bind_eq_some_iff.mp h
    cases heq
    exact .shellEnds hagent
  | agent e =>
    simp only [step] at h
    split at h
    · cases h
    · obtain ⟨agent, hagent, rfl⟩ := Option.map_eq_some_iff.mp h
      exact .agent (Bool.eq_false_iff.mpr ‹_›) hagent
  | receives chunk =>
    simp only [step] at h
    split at h
    · obtain ⟨agent, hagent, hrest⟩ := Option.bind_eq_some_iff.mp h
      obtain ⟨host, hhost, heq⟩ := Option.bind_eq_some_iff.mp hrest
      cases heq
      exact .receives (List.isPrefixOf_iff_prefix.mp ‹_›) hagent hhost
    · cases h
  | cut r =>
    simp only [step] at h
    split at h
    · obtain ⟨host, hhost, rfl⟩ := Option.map_eq_some_iff.mp h
      exact .cut ‹_› hhost
    · cases h
  | session e =>
    obtain ⟨host, hhost, rfl⟩ := Option.map_eq_some_iff.mp h
    exact .session hhost

/-- The agent, whose host is this one. -/
def agentPart (window conn : Nat) (cfg : SessionConfig) :
    (machine ρ κ window conn cfg).Part (GuestAgent.machine window) where
  view := agent
  label := agentLabel conn
  init := rfl
  idle h hlabel := by
    cases step_moves h with
    | cut | session => rfl
    | agent hown => simp [agentLabel, hown] at hlabel
    | shellEnds | receives => cases hlabel
  acts h hlabel := by
    cases step_moves h with
    | shellEnds hagent | receives _ hagent =>
      cases hlabel
      exact hagent
    | agent hown hagent =>
      simp only [agentLabel, hown, Bool.false_eq_true, if_false, Option.some.injEq] at hlabel
      exact hlabel ▸ hagent
    | cut | session => cases hlabel

/-- The session, whose guest is this one. -/
def hostPart (window conn : Nat) (cfg : SessionConfig) :
    (machine ρ κ window conn cfg).Part (GuestSession.machine ρ κ cfg) where
  view := host
  label := hostLabel
  init := rfl
  idle h hlabel := by
    cases step_moves h with
    | shellEnds | agent => rfl
    | receives | cut | session => cases hlabel
  acts h hlabel := by
    cases step_moves h with
    | receives _ _ hhost | cut _ hhost | session hhost =>
      cases hlabel
      exact hhost
    | shellEnds | agent => cases hlabel

/-! ## What arrives -/

/-- The stream has not ended for the host. -/
def Uncut (received : List Recv) : Prop :=
  ∀ r ∈ received, r.isLast = false

theorem heard_append {received : List Recv} (h : Uncut received) (more : List Recv) :
    heard (received ++ more) = heard received ++ heard more := by
  induction received with
  | nil => rfl
  | cons r received ih =>
    obtain ⟨hr, hrest⟩ := List.forall_mem_cons.mp h
    rcases r with (_ | ⟨b, chunk⟩) | _
    · cases hr
    · simp only [List.cons_append, heard, ih hrest, List.append_assoc]
    · cases hr

theorem heard_of_cut {received : List Recv} (h : ¬ Uncut received) (more : List Recv) :
    heard (received ++ more) = heard received := by
  induction received with
  | nil => exact absurd (fun _ hmem ↦ absurd hmem List.not_mem_nil) h
  | cons r received ih =>
    rcases r with (_ | ⟨b, chunk⟩) | _
    · rfl
    · have hrest : ¬ Uncut received := fun hu ↦ h (List.forall_mem_cons.mpr ⟨rfl, hu⟩)
      simp only [List.cons_append, heard, ih hrest]
    · rfl

/-- Unless the stream was cut, the host has heard all it has read. -/
def Carried (conn : Nat) (s : StatusPath ρ κ) : Prop :=
  heard s.host.received <+: (s.wire conn).text ∧ (Uncut s.host.received → heard s.host.received = (s.wire conn).text)

theorem hostStep_receives {host : GuestSession ρ κ} {r : Recv}
    (h : GuestSession.step cfg s.host (.receives r) = some host) :
    host = { s.host with received := s.host.received ++ [r] } := by
  cases h
  rfl

theorem hostStep_session {host : GuestSession ρ κ} {e : Session.Event ρ κ}
    (h : GuestSession.step cfg s.host (.session e) = some host) : host.received = s.host.received := by
  simp only [GuestSession.step] at h
  split at h
  · obtain ⟨u, -, rfl⟩ := Option.map_eq_some_iff.mp h
    rfl
  · cases h

omit [Room ρ] in
theorem agent_text {agent : GuestAgent.Session} {e : GuestAgent.Event} (hpaid : s.agent.Paid)
    (hown : isOwn conn e = false) (h : GuestAgent.step window s.agent e = some agent) :
    (({ s with agent } : StatusPath ρ κ).wire conn).text = (s.wire conn).text := by
  apply GuestAgent.Step.text (GuestAgent.step_step h) hpaid
  rintro n rfl
  simp [isOwn] at hown

theorem Carried.step (h : s.Carried conn) (hpaid : s.agent.Paid) (hst : Moves window conn cfg s e t) :
    t.Carried conn := by
  cases hst with
  | shellEnds hagent =>
    have htext := GuestAgent.Step.text (x := ctrl conn) (GuestAgent.step_step hagent) hpaid nofun
    unfold Carried wire
    rw [htext]
    exact h
  | agent hown hagent =>
    unfold Carried
    rw [agent_text hpaid hown hagent]
    exact h
  | @receives chunk agent host hnext hagent hhost =>
    have htext : (agent.host (ctrl conn)).text = (s.wire conn).text ++ chunk := GuestAgent.hostTakes_text hnext hagent
    cases hostStep_receives hhost
    unfold Carried wire
    simp only [htext]
    by_cases hcut : Uncut s.host.received
    · have hchunk : heard [Recv.data chunk] = chunk := by
        cases chunk with
        | nil => rfl
        | cons b chunk => simp only [heard, List.append_nil]
      rw [heard_append hcut, hchunk, h.2 hcut]
      exact ⟨List.prefix_refl _, fun _ ↦ rfl⟩
    · rw [heard_of_cut hcut]
      refine ⟨h.1.trans (List.prefix_append _ _), fun hu ↦ absurd ?_ hcut⟩
      exact fun r hr ↦ hu r (List.mem_append_left _ hr)
  | @cut r host hlast hhost =>
    cases hostStep_receives hhost
    unfold Carried
    have hend : heard [r] = [] := by
      rcases r with (_ | ⟨b, chunk⟩) | _
      · rfl
      · cases hlast
      · rfl
    refine ⟨?_, fun hu ↦ absurd (hu r (List.mem_append_right _ (List.mem_singleton.mpr rfl))) (by simp [hlast])⟩
    by_cases hcut : Uncut s.host.received
    · simp only [heard_append hcut, hend, List.append_nil]
      exact h.1
    · simp only [heard_of_cut hcut]
      exact h.1
  | session hhost =>
    unfold Carried
    simp only [hostStep_session hhost]
    exact h

theorem reachable_carried (h : (machine ρ κ window conn cfg).Reachable s) : s.Carried conn := by
  refine h.invariant ⟨List.prefix_refl _, fun _ ↦ rfl⟩ fun s e t hs hi hst ↦ ?_
  exact hi.step (GuestAgent.Session.reachable_paid ((agentPart window conn cfg).reachable hs)) (step_moves hst)

/-! ## What the host makes of it -/

/-- The whole line says the status. -/
theorem exitStatus_line {received : List Recv} {c : Int32} (h : heard received = GuestAgent.Session.exitLine c) :
    exitStatus received = some c.toInt := by
  have hnone : ∀ line ∈ ([] : List Bytes), GuestAgent.newline ∉ line := nofun
  have hlines := GuestAgent.lines_exitStream hnone c []
  rw [List.append_nil] at hlines
  rw [Firecracker.exitStatus_eq, h, show GuestAgent.Session.exitLine c = GuestAgent.exitStream [] c from rfl,
    show Firecracker.newline = GuestAgent.newline from rfl, hlines]
  simp [GuestAgent.parseExit_exitText]

/-- A beginning of it says nothing. -/
theorem exitStatus_begun {received : List Recv} {c : Int32} (h : heard received <+: GuestAgent.Session.exitLine c)
    (hne : heard received ≠ GuestAgent.Session.exitLine c) : exitStatus received = none := by
  have hnone : ∀ line ∈ ([] : List Bytes), GuestAgent.newline ∉ line := nofun
  have hbegun : heard received <+: GuestAgent.exitStream [] c := h
  have hlines := GuestAgent.lines_of_prefix hnone hbegun hne
  rw [Firecracker.exitStatus_eq, show Firecracker.newline = GuestAgent.newline from rfl, List.prefix_nil.mp hlines]
  rfl

/-- The shell has ended, and the status is what the agent makes of that. -/
def OfShell (es : List (StatusEvent ρ κ)) (status : Int) : Prop :=
  ∃ how, .shellEnds how ∈ es ∧ status = (reportedCode how).toInt

omit [Room ρ] in
theorem OfShell.append {es : List (StatusEvent ρ κ)} {status : Int} (h : OfShell es status)
    (more : List (StatusEvent ρ κ)) : OfShell (es ++ more) status := by
  obtain ⟨how, hmem, hstatus⟩ := h
  exact ⟨how, List.mem_append_left _ hmem, hstatus⟩

omit [Room ρ] in
theorem OfShell.encodes {es : List (StatusEvent ρ κ)} {status : Int} (h : OfShell es status) :
    Firecracker.Encodes status := by
  obtain ⟨how, -, rfl⟩ := h
  have := GuestAgent.reportedCode_range how
  constructor <;> omega

section

variable {es : List (StatusEvent ρ κ)}

theorem ofShell_of_exited {c : Int32}
    (h : GuestAgent.Session.exited ((agentPart window conn cfg).labels es) = some c) : OfShell es c.toInt := by
  obtain ⟨e, he, hlabel⟩ := (agentPart window conn cfg).mem_labels.mp (GuestAgent.Session.mem_of_exited h)
  cases e with
  | shellEnds how =>
    cases hlabel
    exact ⟨how, he, rfl⟩
  | agent e =>
    -- the exit of the shell is an event of its own
    simp only [agentPart, agentLabel] at hlabel
    split at hlabel
    · cases hlabel
    · cases hlabel
      exact absurd rfl ‹_›
  | receives | cut | session => cases hlabel

/-- Whatever the host has heard is the shell's status, or the beginning of it. -/
theorem heard_ofShell (hrun : (machine ρ κ window conn cfg).run .initial es = some s)
    (hne : heard s.host.received ≠ []) :
    ∃ c, OfShell es c.toInt ∧ heard s.host.received <+: GuestAgent.Session.exitLine c := by
  have hcarried := (reachable_carried (.of_run hrun)).1.trans (s.wire conn).text_begins
  have hreports := GuestAgent.Session.run_reports ((agentPart window conn cfg).run_init hrun)
  have hsaid : s.agent.said conn ≠ [] := by
    intro hnil
    rw [show (s.wire conn).written = [] from hnil] at hcarried
    exact hne (List.prefix_nil.mp hcarried)
  obtain ⟨c, hexited, hbegun, -⟩ := hreports.said_begins hsaid
  exact ⟨c, ofShell_of_exited hexited, hcarried.trans hbegun⟩

/-- What `destroy` reports is 0 as long as the whole line was not heard, and from then on the status of the shell. -/
theorem destroyStatus_cases (hrun : (machine ρ κ window conn cfg).run .initial es = some s) :
    (∀ c, heard s.host.received ≠ GuestAgent.Session.exitLine c) ∧ exitStatus s.host.received = none ∧
        destroyStatus s.host.received = 0 ∨
      ∃ c, OfShell es c.toInt ∧ heard s.host.received = GuestAgent.Session.exitLine c ∧
        destroyStatus s.host.received = c.toInt := by
  have hunheard (hnone : exitStatus s.host.received = none) :
      (∀ c, heard s.host.received ≠ GuestAgent.Session.exitLine c) ∧ exitStatus s.host.received = none ∧
        destroyStatus s.host.received = 0 := by
    refine ⟨fun c hwhole ↦ ?_, hnone, by rw [destroyStatus, hnone]; rfl⟩
    cases (exitStatus_line hwhole).symm.trans hnone
  by_cases hne : heard s.host.received = []
  · refine .inl (hunheard ?_)
    rw [Firecracker.exitStatus_eq, hne]
    rfl
  · obtain ⟨c, hshell, hbegun⟩ := heard_ofShell hrun hne
    by_cases hwhole : heard s.host.received = GuestAgent.Session.exitLine c
    · exact .inr ⟨c, hshell, hwhole, by rw [destroyStatus, exitStatus_line hwhole]; rfl⟩
    · exact .inl (hunheard (exitStatus_begun hbegun hwhole))

theorem inRange (h : (machine ρ κ window conn cfg).Reachable s) : InRange s.host.received := by
  obtain ⟨es, hrun⟩ := h.exists_run
  rw [← Firecracker.destroyStatus_encodes]
  rcases destroyStatus_cases hrun with ⟨-, -, hzero⟩ | ⟨c, hshell, -, hstatus⟩
  · rw [hzero]
    decide
  · rw [hstatus]
    exact hshell.encodes

/-! ## What the client is told -/

/-- What `_run` passes to `chan.exit` is the status of the session, and that is what `destroy()` came to. -/
theorem hostStep_tells {host host' : GuestSession ρ κ} {e : Session.Event ρ κ}
    (h : GuestSession.step cfg host (.session e) = some host') :
    (∀ n, host'.session.status = some n → host.session.status = some n ∨
      (e = .destroyEnds (.returned n) ∧ n = destroyStatus host.received) ∨ e = .destroyEnds .raised ∧ n = 1) ∧
      ∀ n ∈ host'.passed, n ∈ host.passed ∨ host.session.status = some n := by
  simp only [GuestSession.step] at h
  split at h
  · rename_i hmay
    obtain ⟨u, hu, rfl⟩ := Option.map_eq_some_iff.mp h
    have hturn : Session.Turn cfg host.session e u := Session.step_turn hu
    constructor
    · intro n hn
      have hstatus : u.status = some n := by
        simp only [GuestSession.follow] at hn
        split at hn
        · exact hn
        · exact hn
      rcases hturn.status with hsame | ⟨m, rfl, hm⟩ | ⟨rfl, hone⟩
      · exact .inl (hsame ▸ hstatus)
      · cases hstatus.symm.trans hm
        exact .inr (.inl ⟨rfl, of_decide_eq_true hmay⟩)
      · cases hstatus.symm.trans hone
        exact .inr (.inr ⟨rfl, rfl⟩)
    · intro n hn
      rcases List.mem_append.mp hn with hn | hn
      · exact .inl hn
      · exact .inr (GuestSession.farewells_status hturn n hn)
  · cases h

/-- What can become of a session, from the numbers it knows. -/
def Tells (s : StatusPath ρ κ) (n : Int) : Prop :=
  s.host.session.status = some n ∨ n ∈ s.host.passed

/-- A number that is said was said before, or comes from a `destroy()` that ends now. -/
theorem Moves.tells (hst : Moves window conn cfg s e t) {n : Int} (h : t.Tells n) : s.Tells n ∨
    (e = .session (.destroyEnds (.returned n)) ∧ n = destroyStatus s.host.received) ∨
      e = .session (.destroyEnds .raised) ∧ n = 1 := by
  cases hst with
  | shellEnds | agent => exact .inl h
  | receives _ _ hhost =>
    cases hostStep_receives hhost
    exact .inl h
  | cut _ hhost =>
    cases hostStep_receives hhost
    exact .inl h
  | session hhost =>
    obtain ⟨hstatus, hpassed⟩ := hostStep_tells hhost
    rcases h with h | h
    · rcases hstatus n h with hsame | ⟨rfl, hn⟩ | ⟨rfl, hn⟩
      · exact .inl (.inl hsame)
      · exact .inr (.inl ⟨rfl, hn⟩)
      · exact .inr (.inr ⟨rfl, hn⟩)
    · exact .inl ((hpassed n h).elim .inr .inl)

/-- How a call of `destroy()` ends. -/
def destroyReply : StatusEvent ρ κ → Option (Reply Int)
  | .session (.destroyEnds reply) => some reply
  | _ => none

/-- A `destroy()` that ends does not raise, and by then `_watch_exit` has found the status. -/
def Heard (s : StatusPath ρ κ) (e : StatusEvent ρ κ) : Prop :=
  ∀ reply, destroyReply e = some reply → reply ≠ .raised ∧ exitStatus s.host.received ≠ none

instance (s : StatusPath ρ κ) (e : StatusEvent ρ κ) : Decidable (s.Heard e) :=
  inferInstanceAs (Decidable (∀ reply ∈ destroyReply e, _))

/-- Once the status was found, it stays what it is. -/
theorem Moves.found (hst : Moves window conn cfg s e t) (h : exitStatus s.host.received ≠ none) :
    exitStatus t.host.received = exitStatus s.host.received := by
  have hreceives {r : Recv} {host : GuestSession ρ κ}
      (hhost : GuestSession.step cfg s.host (.receives r) = some host) :
      exitStatus host.received = exitStatus s.host.received := by
    cases hostStep_receives hhost
    unfold Firecracker.exitStatus Firecracker.watchExit at h ⊢
    rw [List.foldl_append]
    cases hw : s.host.received.foldl Firecracker.Watch.recv (.receiving []) with
    | receiving buffer =>
      rw [hw] at h
      exact absurd rfl h
    | ended status => rfl
  cases hst with
  | shellEnds | agent => rfl
  | receives _ _ hhost => exact hreceives hhost
  | cut _ hhost => exact hreceives hhost
  | session hhost => rw [hostStep_session hhost]

/-- A number that is said is 0, 1 or the status of the shell. -/
theorem run_tells (hrun : (machine ρ κ window conn cfg).run .initial es = some s) {n : Int} (h : s.Tells n) :
    n = 0 ∨ n = 1 ∨ OfShell es n := by
  have hall : (machine ρ κ window conn cfg).run .initial es = some s ∧
      ∀ n, s.Tells n → n = 0 ∨ n = 1 ∨ OfShell es n := by
    refine Machine.run_induction (P := fun es s ↦ (machine ρ κ window conn cfg).run .initial es = some s ∧
      ∀ n, s.Tells n → n = 0 ∨ n = 1 ∨ OfShell es n) hrun ⟨rfl, fun n hn ↦ ?_⟩ ?_
    · rcases hn with hn | hn
      · cases hn
      · cases hn
    · intro es s e t hs hst
      refine ⟨?_, fun n hn ↦ ?_⟩
      · rw [Machine.run_append _ hs.1, Machine.run, hst]
        rfl
      · rcases (step_moves hst).tells hn with hold | ⟨-, hn⟩ | ⟨-, hn⟩
        · rcases hs.2 n hold with h | h | h
          · exact .inl h
          · exact .inr (.inl h)
          · exact .inr (.inr (h.append _))
        · rcases destroyStatus_cases hs.1 with ⟨-, -, hzero⟩ | ⟨c, hshell, -, hc⟩
          · exact .inl (hn.trans hzero)
          · rw [hn, hc]
            exact .inr (.inr (hshell.append _))
        · exact .inr (.inl hn)
  exact hall.2 n h

/-- If every `destroy()` comes back with the status in hand, then what is said is what was found. -/
theorem reached_tells (h : (machine ρ κ window conn cfg).ReachedBy Heard s) :
    ∀ n, s.Tells n → exitStatus s.host.received = some n := by
  refine h.invariant (I := fun s ↦ ∀ n, s.Tells n → exitStatus s.host.received = some n) (fun n hn ↦ ?_) ?_
  · rcases hn with hn | hn
    · cases hn
    · cases hn
  · intro s e t hs hi hok hst n hn
    have hmoves := step_moves hst
    rcases hmoves.tells hn with hold | ⟨rfl, hn⟩ | ⟨rfl, -⟩
    · have hfound := hi n hold
      rw [hmoves.found (by simp [hfound]), hfound]
    · obtain ⟨-, hfound⟩ := hok _ rfl
      rw [hmoves.found hfound]
      obtain ⟨status, hstatus⟩ := Option.ne_none_iff_exists'.mp hfound
      rw [hn, destroyStatus, hstatus]
      rfl
    · exact absurd rfl (hok _ rfl).1

/-- A `destroy()` that returns here returns what `_watch_exit` has found, or 0. -/
theorem destroyEnds_status {n : Int}
    (h : (machine ρ κ window conn cfg).step s (.session (.destroyEnds (.returned n))) = some t) :
    n = destroyStatus s.host.received := by
  obtain ⟨host, hhost, -⟩ := Option.map_eq_some_iff.mp h
  simp only [GuestSession.step] at hhost
  split at hhost
  · rename_i hmay
    exact of_decide_eq_true hmay
  · cases hhost

/-- With the agent of this repository in the guest, `destroy()` returns the status of the shell if by then the line
that says it has been read, and 0 otherwise.  `_run` never has to pass `chan.exit` a number that does not fit: the
client is told 0, 1 or the status of its shell; and it is told the status of its shell wherever no `destroy()` comes
back before that has arrived, or raises. -/
theorem status_comes_through (ρ κ : Type) [Room ρ] (window conn : Nat) (cfg : SessionConfig)
    {es : List (StatusEvent ρ κ)} {s : StatusPath ρ κ}
    (hrun : (machine ρ κ window conn cfg).run .initial es = some s) :
    ((∀ c, heard s.host.received ≠ GuestAgent.Session.exitLine c) ∧ destroyStatus s.host.received = 0 ∨
        ∃ c, OfShell es c.toInt ∧ heard s.host.received = GuestAgent.Session.exitLine c ∧
          destroyStatus s.host.received = c.toInt) ∧
      (∀ n t, (machine ρ κ window conn cfg).step s (.session (.destroyEnds (.returned n))) = some t →
        n = destroyStatus s.host.received) ∧
      s.host.Told ∧ (∀ status ∈ s.host.passed, status = 0 ∨ status = 1 ∨ OfShell es status) ∧
      ((machine ρ κ window conn cfg).Follows Heard .initial es → ∀ status ∈ s.host.passed, OfShell es status) := by
  have hreports := destroyStatus_cases hrun
  refine ⟨hreports.imp_left fun hnot ↦ ⟨hnot.1, hnot.2.2⟩, fun n t hst ↦ destroyEnds_status hst, ?_,
    fun status hmem ↦ run_tells hrun (.inr hmem), fun hheard status hmem ↦ ?_⟩
  · have hreached : (GuestSession.machine ρ κ cfg).ReachedBy GuestSession.Encodable s.host :=
      (hostPart window conn cfg).reachedBy (fun _ _ _ hs _ _ _ ↦ inRange hs) (Machine.Reachable.of_run hrun)
    exact (GuestSession.reached_told hreached).2
  · have hfound := reached_tells (.run .init hheard hrun) status (.inr hmem)
    rcases hreports with ⟨-, hnone, -⟩ | ⟨c, hshell, hwhole, -⟩
    · cases hnone.symm.trans hfound
    · cases (exitStatus_line hwhole).symm.trans hfound
      exact hshell

end

end

/-- The shell exits with 7 while the client is there. -/
def exitsWithSeven : List (StatusEvent BuiltRoom Nat) :=
  [.session .sessionStarted, .session (.pumpStarts none), .session (.openEnds (.returned (.firecracker 0)) false)] ++
    List.replicate 8 (.agent .attachRuns) ++
    [.shellEnds (some (7 <<< 8)), .agent .exitRuns, .agent .exitRuns, .agent .pumpDropped, .agent .exitRuns,
      .agent .exitRuns, .agent (.exitWrites 5), .receives (ascii "exi"), .agent (.exitWrites 2),
      .receives (ascii "t 7\n"), .session (.readEnds (.returned false) false), .session .teardownStarts,
      .session (.destroyEnds (.returned 7)), .session (.pumpResumes false)]

theorem exitsWithSeven_comesThrough :
    ∃ s, (machine BuiltRoom Nat 4096 0 ⟨none, 0⟩).run .initial exitsWithSeven = some s ∧
      s.host.passed = [7] ∧ destroyStatus s.host.received = 7 ∧ OfShell exitsWithSeven 7 := by
  have hpassed : ((machine BuiltRoom Nat 4096 0 ⟨none, 0⟩).run .initial exitsWithSeven).map
      (fun s ↦ (s.host.passed, destroyStatus s.host.received)) = some ([7], 7) := by
    decide +kernel
  obtain ⟨s, hrun, hs⟩ := Option.map_eq_some_iff.mp hpassed
  obtain ⟨hpassed, hstatus⟩ := Prod.mk.inj hs
  have hfollows : (machine BuiltRoom Nat 4096 0 ⟨none, 0⟩).Follows Heard .initial exitsWithSeven := by
    decide +kernel
  obtain ⟨-, -, -, -, hshell⟩ := status_comes_through BuiltRoom Nat 4096 0 ⟨none, 0⟩ hrun
  refine ⟨s, hrun, hpassed, hstatus, hshell hfollows 7 ?_⟩
  rw [hpassed]
  exact List.mem_singleton.mpr rfl

end StatusPath

end Keycard.EndToEnd
