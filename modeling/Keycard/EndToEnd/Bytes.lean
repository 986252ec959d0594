import Keycard.GuestAgent.HostEnds
import Keycard.GuestAgent.OneConnection
import Keycard.Reasoning.Part
import Keycard.Reasoning.Text
import Keycard.Session.Attachment
import Keycard.Session.ExitStatus
import Keycard.Session.Resized
import Keycard.Session.TypeAhead

/-!
# The bytes of a session, both ways

A client of the firecracker backend and its shell.  What the client types goes through the queue and the feeder to
the data channel, and from there through the agent to the pty; what the shell prints goes the other way through the
pump of the agent and the one of the session.  The host attaches once, since a room of this backend cannot be paused.
-/

open Reasoning

namespace Keycard.EndToEnd

open GuestAgent (Bytes Stream HostEnd)
open Session (FedSession FedEvent SessionConfig AttachedRoom FeedPoint)

structure DataPath (ρ κ : Type) where
  agent : GuestAgent.Session
  host : FedSession ρ κ
  /-- what the socket has taken -/
  sent : Bytes
  /-- what the `sock_sendall` under way has yet to send -/
  pending : Bytes
  /-- a write has failed, and so will every later one -/
  broken : Bool
  /-- what the `sock_recv` of the pump has come back with -/
  inHand : Bytes
  /-- what of the shell's output was written to the client's channel -/
  shown : Bytes

inductive DataEvent (ρ κ : Type) where
  | agent (e : GuestAgent.Event)
  /-- the data reader of the agent reads this -/
  | agentReads (chunk : Bytes)
  | host (e : FedEvent ρ κ)
  | feederRuns
  /-- the socket takes some more of a write -/
  | sends (n : Nat)
  | writeComesBack (failed : Bool)
  /-- empty at the end of the stream, or where `sock_recv` raises -/
  | readComesBack (chunk : Bytes)
  | readEnds (sock : Reply Bool) (broken : Bool)

namespace DataPath

variable {ρ κ : Type}

def initial : DataPath ρ κ where
  agent := .start
  host := .initial
  sent := []
  pending := []
  broken := false
  inHand := []
  shown := []

/-- The data channel of the room. -/
def data : Stream := ⟨0, .data⟩

/-- What the agent does with the data channel is an event of its own here, and there is no other connection. -/
def isOwnAgent : GuestAgent.Event → Bool
  | .hostTakes x _ => x = data
  | .dataReads _ (some _) => true
  | .serves => true
  | _ => false

def isOwnHost : FedEvent ρ κ → Bool
  | .readEnds _ _ => true
  | .readComesBack => true
  | .writeComesBack => true
  | .feederRuns => true
  | _ => false

/-- What the next `sock_sendall` is to send, when `_feed` has just called it; on a closed socket that is nothing. -/
def afterFeeder (s : DataPath ρ κ) (host : FedSession ρ κ) : Bytes :=
  match host.feeder with
  | some (.suspended (.writing data _) _) => if host.closed then [] else data
  | _ => s.pending

/-- What comes out of the `sock_recv` is what it has come back with, unless the pump was cancelled meanwhile. -/
def mayTake (s : DataPath ρ κ) : Reply Bool → Bool
  | .returned more => more = !s.inHand.isEmpty
  | .raised => s.inHand.isEmpty
  | .cancelled => true

/-- `chan.write(data)`: a channel that is closing sends nothing. -/
def afterRead (s : DataPath ρ κ) (sock : Reply Bool) (broken : Bool) : Bytes :=
  if sock = .returned true ∧ broken = false ∧ s.host.session.chan.closing = false then s.shown ++ s.inHand
  else s.shown

def step [AttachedRoom ρ] (window : Nat) (cfg : SessionConfig) (s : DataPath ρ κ) :
    DataEvent ρ κ → Option (DataPath ρ κ)
  | .agent e =>
    if isOwnAgent e then none
    else (GuestAgent.step window s.agent e).map fun agent ↦ { s with agent }
  | .agentReads chunk =>
    if (s.agent.received 0 ++ chunk).isPrefixOf s.sent then
      (GuestAgent.step window s.agent (.dataReads 0 (some chunk))).map fun agent ↦ { s with agent }
    else none
  | .host e =>
    if isOwnHost e then none
    else (FedSession.step cfg s.host e).map fun host ↦ { s with host }
  | .feederRuns =>
    (FedSession.step cfg s.host .feederRuns).map fun host ↦ { s with host, pending := s.afterFeeder host }
  | .sends n =>
    if s.host.writePending && !s.host.closed && !s.broken && 0 < n && n ≤ s.pending.length then
      some { s with sent := s.sent ++ s.pending.take n, pending := s.pending.drop n }
    else none
  | .writeComesBack failed =>
    if failed || s.pending.isEmpty && !s.broken then
      (FedSession.step cfg s.host .writeComesBack).map fun host ↦
        { s with host, pending := [], broken := s.broken || failed }
    else none
  | .readComesBack chunk =>
    if chunk = [] then
      (FedSession.step cfg s.host .readComesBack).map fun host ↦ { s with host, inHand := [] }
    else if chunk.isPrefixOf (s.agent.host data).rest then do
      let agent ← GuestAgent.step window s.agent (.hostTakes data chunk.length)
      let host ← FedSession.step cfg s.host .readComesBack
      return { s with agent, host, inHand := chunk }
    else none
  | .readEnds sock broken =>
    if s.mayTake sock then
      (FedSession.step cfg s.host (.readEnds sock broken)).map fun host ↦
        { s with host, inHand := [], shown := s.afterRead sock broken }
    else none

/-- `window` is that of the agent's streams. -/
def machine (ρ κ : Type) [AttachedRoom ρ] (window : Nat) (cfg : SessionConfig) :
    Machine (DataPath ρ κ) (DataEvent ρ κ) where
  init := .initial
  step := step window cfg

section

variable [AttachedRoom ρ] {window : Nat} {cfg : SessionConfig} {s t : DataPath ρ κ} {e : DataEvent ρ κ}

/-! ## The two parts -/

/-- What a step does to the two ends. -/
inductive Moves (window : Nat) (cfg : SessionConfig) (s : DataPath ρ κ) : DataEvent ρ κ → DataPath ρ κ → Prop
  | agent {e : GuestAgent.Event} {agent : GuestAgent.Session} (hown : isOwnAgent e = false)
      (hagent : GuestAgent.step window s.agent e = some agent) : Moves window cfg s (.agent e) { s with agent }
  | agentReads {chunk : Bytes} {agent : GuestAgent.Session} (hnext : s.agent.received 0 ++ chunk <+: s.sent)
      (hagent : GuestAgent.step window s.agent (.dataReads 0 (some chunk)) = some agent) :
      Moves window cfg s (.agentReads chunk) { s with agent }
  | host {e : FedEvent ρ κ} {host : FedSession ρ κ} (hown : isOwnHost e = false)
      (hhost : FedSession.step cfg s.host e = some host) : Moves window cfg s (.host e) { s with host }
  | feederRuns {host : FedSession ρ κ} (hhost : FedSession.step cfg s.host .feederRuns = some host) :
      Moves window cfg s .feederRuns { s with host, pending := s.afterFeeder host }
  | sends {n : Nat} (hpending : s.host.writePending = true) (hopen : s.host.closed = false)
      (hwhole : s.broken = false) :
      Moves window cfg s (.sends n) { s with sent := s.sent ++ s.pending.take n, pending := s.pending.drop n }
  | writeComesBack {failed : Bool} {host : FedSession ρ κ}
      (hdone : failed = true ∨ s.pending = [] ∧ s.broken = false)
      (hhost : FedSession.step cfg s.host .writeComesBack = some host) :
      Moves window cfg s (.writeComesBack failed) { s with host, pending := [], broken := s.broken || failed }
  | readEmpty {host : FedSession ρ κ} (hhost : FedSession.step cfg s.host .readComesBack = some host) :
      Moves window cfg s (.readComesBack []) { s with host, inHand := [] }
  | readComesBack {chunk : Bytes} {agent : GuestAgent.Session} {host : FedSession ρ κ} (hne : chunk ≠ [])
      (hnext : chunk <+: (s.agent.host data).rest)
      (hagent : GuestAgent.step window s.agent (.hostTakes data chunk.length) = some agent)
      (hhost : FedSession.step cfg s.host .readComesBack = some host) :
      Moves window cfg s (.readComesBack chunk) { s with agent, host, inHand := chunk }
  | readEnds {sock : Reply Bool} {broken : Bool} {host : FedSession ρ κ} (htake : s.mayTake sock = true)
      (hhost : FedSession.step cfg s.host (.readEnds sock broken) = some host) :
      Moves window cfg s (.readEnds sock broken) { s with host, inHand := [], shown := s.afterRead sock broken }

theorem step_moves (h : step window cfg s e = some t) : Moves window cfg s e t := by
  cases e with
  | agent e =>
    simp only [step] at h
    split at h
    · cases h
    · obtain ⟨agent, hagent, rfl⟩ := Option.map_eq_some_iff.mp h
      exact .agent (Bool.eq_false_iff.mpr ‹_›) hagent
  | agentReads chunk =>
    simp only [step] at h
    split at h
    · obtain ⟨agent, hagent, rfl⟩ := Option.map_eq_some_iff.mp h
      exact .agentReads (List.isPrefixOf_iff_prefix.mp ‹_›) hagent
    · cases h
  | host e =>
    simp only [step] at h
    split at h
    · cases h
    · obtain ⟨host, hhost, rfl⟩ := Option.map_eq_some_iff.mp h
      exact .host (Bool.eq_false_iff.mpr ‹_›) hhost
  | feederRuns =>
    obtain ⟨host, hhost, rfl⟩ := Option.map_eq_some_iff.mp h
    exact .feederRuns hhost
  | sends n =>
    simp only [step] at h
    split at h
    · rename_i hcan
      simp only [Bool.and_eq_true, Bool.not_eq_true', decide_eq_true_eq] at hcan
      cases h
      exact .sends hcan.1.1.1.1 hcan.1.1.1.2 hcan.1.1.2
    · cases h
  | writeComesBack failed =>
    simp only [step] at h
    split at h
    · rename_i hdone
      obtain ⟨host, hhost, rfl⟩ := Option.map_eq_some_iff.mp h
      exact .writeComesBack (by simpa using hdone) hhost
    · cases h
  | readComesBack chunk =>
    simp only [step] at h
    split at h
    · rename_i hnil
      obtain ⟨host, hhost, rfl⟩ := Option.map_eq_some_iff.mp h
      rw [hnil]
      exact .readEmpty hhost
    · split at h
      · obtain ⟨agent, hagent, hrest⟩ := Option.bind_eq_some_iff.mp h
        obtain ⟨host, hhost, heq⟩ := Option.bind_eq_some_iff.mp hrest
        cases heq
        exact .readComesBack ‹_› (List.isPrefixOf_iff_prefix.mp ‹_›) hagent hhost
      · cases h
  | readEnds sock broken =>
    simp only [step] at h
    split at h
    · obtain ⟨host, hhost, rfl⟩ := Option.map_eq_some_iff.mp h
      exact .readEnds ‹_› hhost
    · cases h

def agentLabel : DataEvent ρ κ → Option GuestAgent.Event
  | .agent e => if isOwnAgent e then none else some e
  | .agentReads chunk => some (.dataReads 0 (some chunk))
  | .readComesBack [] => none
  | .readComesBack chunk => some (.hostTakes data chunk.length)
  | _ => none

def hostLabel : DataEvent ρ κ → Option (FedEvent ρ κ)
  | .host e => if isOwnHost e then none else some e
  | .feederRuns => some .feederRuns
  | .writeComesBack _ => some .writeComesBack
  | .readComesBack _ => some .readComesBack
  | .readEnds sock broken => some (.readEnds sock broken)
  | _ => none

omit [AttachedRoom ρ] in
theorem agentLabel_reads {chunk : Bytes} (hne : chunk ≠ []) :
    (agentLabel (.readComesBack chunk : DataEvent ρ κ)) = some (.hostTakes data chunk.length) := by
  cases chunk with
  | nil => exact absurd rfl hne
  | cons b chunk => rfl

/-- The agent, whose host is this one. -/
def agentPart (window : Nat) (cfg : SessionConfig) : (machine ρ κ window cfg).Part (GuestAgent.machine window) where
  view := agent
  label := agentLabel
  init := rfl
  idle h hlabel := by
    cases step_moves h with
    | agent hown => simp [agentLabel, hown] at hlabel
    | agentReads => cases hlabel
    | readComesBack hne => cases (agentLabel_reads hne).symm.trans hlabel
    | _ => rfl
  acts h hlabel := by
    cases step_moves h with
    | agent hown hagent =>
      simp only [agentLabel, hown, Bool.false_eq_true, if_false, Option.some.injEq] at hlabel
      exact hlabel ▸ hagent
    | agentReads _ hagent =>
      cases hlabel
      exact hagent
    | readComesBack hne _ hagent =>
      cases (agentLabel_reads hne).symm.trans hlabel
      exact hagent
    | _ => cases hlabel

/-- The session, whose room is this one. -/
def hostPart (window : Nat) (cfg : SessionConfig) :
    (machine ρ κ window cfg).Part (FedSession.machine ρ κ cfg) where
  view := host
  label := hostLabel
  init := rfl
  idle h hlabel := by
    cases step_moves h with
    | host hown => simp [hostLabel, hown] at hlabel
    | agent | agentReads | sends => rfl
    | _ => cases hlabel
  acts h hlabel := by
    cases step_moves h with
    | host hown hhost =>
      simp only [hostLabel, hown, Bool.false_eq_true, if_false, Option.some.injEq] at hlabel
      exact hlabel ▸ hhost
    | feederRuns hhost | writeComesBack _ hhost | readEmpty hhost | readComesBack _ _ _ hhost | readEnds _ hhost =>
      cases hlabel
      exact hhost
    | _ => cases hlabel

/-- Nobody attaches again. -/
theorem serves_not_mem (es : List (DataEvent ρ κ)) : .serves ∉ (agentPart window cfg).labels es := by
  intro hmem
  obtain ⟨e, -, hlabel⟩ := (agentPart window cfg).mem_labels.mp hmem
  cases e with
  | agent e =>
    simp only [agentPart, agentLabel] at hlabel
    split at hlabel
    · cases hlabel
    · cases hlabel
      exact absurd rfl ‹_›
  | readComesBack chunk => cases chunk <;> cases hlabel
  | _ => cases hlabel

/-! ## The feeder and the socket -/

/-- The feeder may still pass something on. -/
def feeds : Option (LoopTask FeedPoint) → Bool
  | none => true
  | some (.created cancelled) => !cancelled
  | some (.suspended _ cancelled) => !cancelled
  | some (.ended _) => false

theorem feeds_cancel {feeder : Option (LoopTask FeedPoint)} (h : feeds (feeder.map LoopTask.cancel) = true) :
    feeder = none := by
  cases feeder with
  | none => rfl
  | some task => cases task <;> cases h

/-- What the steps of the session do to the feeder. -/
theorem follow_feeder (s : FedSession ρ κ) (e : Session.Event ρ κ) (u : RoomSession ρ κ) :
    (s.follow e u).feeder = s.feeder ∨ (s.follow e u).feeder = s.feeder.map LoopTask.cancel ∨
      (∃ reply broken, e = .openEnds reply broken) ∧ FedSession.reads u = true ∧
        (s.follow e u).feeder = some (.created false) := by
  have hstop (s : FedSession ρ κ) : s.stopFeeder.feeder = s.feeder ∨
      s.stopFeeder.feeder = s.feeder.map LoopTask.cancel := by
    unfold FedSession.stopFeeder
    split
    · exact .inr rfl
    · exact .inl rfl
  unfold FedSession.follow
  simp only
  split
  · exact (hstop _).elim .inl fun h ↦ .inr (.inl h)
  · split
    · exact .inr (.inr ⟨⟨_, _, rfl⟩, ‹_›, rfl⟩)
    · split
      · exact .inl rfl
      · exact .inl rfl
  · split
    · exact .inl rfl
    · exact (hstop _).elim .inl fun h ↦ .inr (.inl h)
  · split
    · exact .inl rfl
    · exact .inl rfl
  · split
    · exact .inl rfl
    · exact .inl rfl
  · exact .inl rfl

theorem follow_closed {s : FedSession ρ κ} {e : Session.Event ρ κ} {u : RoomSession ρ κ}
    (h : (s.follow e u).closed = false) : s.closed = false := by
  have hstop (s : FedSession ρ κ) : s.stopFeeder.closed = s.closed := by
    unfold FedSession.stopFeeder
    split <;> rfl
  unfold FedSession.follow at h
  simp only at h
  split at h
  · rwa [hstop] at h
  · split at h
    · exact h
    · split at h
      · cases h
      · exact h
  · split at h
    · exact h
    · rwa [hstop] at h
  · split at h
    · cases h
    · exact h
  · split at h
    · cases h
    · exact h
  · exact h

theorem follow_session (s : FedSession ρ κ) (e : Session.Event ρ κ) (u : RoomSession ρ κ) :
    (s.follow e u).session = u := by
  have hstop (s : FedSession ρ κ) : s.stopFeeder.session = s.session := by
    unfold FedSession.stopFeeder
    split <;> rfl
  unfold FedSession.follow
  simp only
  split
  · exact hstop _
  · split
    · rfl
    · split <;> rfl
  · split
    · rfl
    · exact hstop _
  · split <;> rfl
  · split <;> rfl
  · rfl

/-- What has become of what was passed to `room.write`. -/
structure Written (s : DataPath ρ κ) : Prop where
  unopened : Session.Unopened s.host.session.pump → s.host.feeder = none
  begun : s.host.feeder = none → s.sent = [] ∧ s.pending = [] ∧ s.host.writes = []
  sent : s.sent <+: s.host.writes.flatten
  whole : s.broken = false → s.host.closed = false → feeds s.host.feeder = true →
    s.sent ++ s.pending = s.host.writes.flatten
  idle : feeds s.host.feeder = true → s.host.writePending = false → s.pending = []
  received : s.agent.received 0 <+: s.sent

omit [AttachedRoom ρ] in
theorem not_unopened_of_reads {u : RoomSession ρ κ} (h : FedSession.reads u = true) : ¬ Session.Unopened u.pump := by
  unfold FedSession.reads at h
  split at h
  · rename_i hp
    rw [hp]
    rintro (h | ⟨c, h⟩ | ⟨kept, c, h⟩) <;> cases h
  · cases h

theorem unopened_of_openEnds {u v : RoomSession ρ κ} {reply : Reply ρ} {broken : Bool}
    (h : Session.step cfg u (.openEnds reply broken) = some v) : Session.Unopened u.pump := by
  cases Session.step_turn h with
  | openEnds hp => exact .inr (.inr ⟨_, _, hp⟩)

theorem Written.follows (h : s.Written) {e : Session.Event ρ κ} {u : RoomSession ρ κ}
    (hst : Session.step cfg s.host.session e = some u) {inHand shown : Bytes} :
    ({ s with host := s.host.follow e u, inHand, shown } : DataPath ρ κ).Written := by
  have hwrites := FedSession.follow_writes (s := s.host) e u
  have hfeeder := follow_feeder s.host e u
  refine ⟨fun hu ↦ ?_, fun hnone ↦ ?_, ?_, fun hbroken hclosed hfeeds ↦ ?_, fun hfeeds hidle ↦ ?_, h.received⟩
  · rw [follow_session] at hu
    have hnone := h.unopened (Session.unopened_of_step hst hu)
    rcases hfeeder with hsame | hcancel | ⟨-, hreads, -⟩
    · exact hsame.trans hnone
    · rw [hcancel, hnone]
      rfl
    · exact absurd hu (not_unopened_of_reads hreads)
  · have hbefore : s.host.feeder = none := by
      rcases hfeeder with hsame | hcancel | ⟨-, -, hstarts⟩
      · exact hsame.symm.trans hnone
      · exact Option.map_eq_none_iff.mp (hcancel.symm.trans hnone)
      · cases hstarts.symm.trans hnone
    obtain ⟨hsent, hpending, hnil⟩ := h.begun hbefore
    exact ⟨hsent, hpending, hwrites.trans hnil⟩
  · show s.sent <+: (s.host.follow e u).writes.flatten
    rw [hwrites]
    exact h.sent
  · show s.sent ++ s.pending = (s.host.follow e u).writes.flatten
    rw [hwrites]
    have hnothing (hnone : s.host.feeder = none) : s.sent ++ s.pending = s.host.writes.flatten := by
      obtain ⟨hsent, hpending, hnil⟩ := h.begun hnone
      rw [hsent, hpending, hnil]
      rfl
    rcases hfeeder with hsame | hcancel | ⟨⟨reply, broken, rfl⟩, -, -⟩
    · exact h.whole hbroken (follow_closed hclosed) (hsame ▸ hfeeds)
    · exact hnothing (feeds_cancel (hcancel ▸ hfeeds))
    · exact hnothing (h.unopened (unopened_of_openEnds hst))
  · have hnothing (hnone : s.host.feeder = none) : s.pending = [] := (h.begun hnone).2.1
    rcases hfeeder with hsame | hcancel | ⟨⟨reply, broken, rfl⟩, -, -⟩
    · refine h.idle (hsame ▸ hfeeds) ?_
      unfold FedSession.writePending at hidle ⊢
      simp only [hsame] at hidle
      exact hidle
    · exact hnothing (feeds_cancel (hcancel ▸ hfeeds))
    · exact hnothing (h.unopened (unopened_of_openEnds hst))

omit [AttachedRoom ρ] in
theorem Written.opened (h : s.Written) {task : LoopTask FeedPoint} (hfeeder : s.host.feeder = some task) :
    ¬ Session.Unopened s.host.session.pump := by
  intro hu
  cases hfeeder.symm.trans (h.unopened hu)

omit [AttachedRoom ρ] in
/-- `_feed` passes a chunk on once the one before it has been sent, or is on its way out. -/
theorem Written.feederRuns (h : s.Written) {host : FedSession ρ κ} (hst : s.host.runFeeder = some host) :
    ({ s with host, pending := s.afterFeeder host } : DataPath ρ κ).Written := by
  unfold FedSession.runFeeder at hst
  split at hst
  · rename_i hfeeder
    cases hst
    exact ⟨fun hu ↦ absurd hu (h.opened hfeeder), (by simp [FedSession.endFeeder]), h.sent, fun _ _ hfeeds ↦ (by cases hfeeds),
      fun hfeeds ↦ (by cases hfeeds), h.received⟩
  · rename_i hfeeder
    cases hst
    have hidle := h.idle (by rw [hfeeder]; rfl) (by unfold FedSession.writePending; rw [hfeeder])
    exact ⟨fun hu ↦ absurd hu (h.opened hfeeder), (by simp), h.sent,
      fun hbroken hclosed _ ↦ h.whole hbroken hclosed (by rw [hfeeder]; rfl), fun _ _ ↦ hidle, h.received⟩
  · rename_i hfeeder
    cases hst
    exact ⟨fun hu ↦ absurd hu (h.opened hfeeder), (by simp [FedSession.endFeeder]), h.sent, fun _ _ hfeeds ↦ (by cases hfeeds),
      fun hfeeds ↦ (by cases hfeeds), h.received⟩
  · rename_i hfeeder
    split at hst
    · cases hst
    · rename_i data rest hinput
      cases hst
      have hidle := h.idle (by rw [hfeeder]; rfl) (by unfold FedSession.writePending; rw [hfeeder])
      have hflatten : (s.host.writes ++ [data]).flatten = s.host.writes.flatten ++ data := by
        rw [List.flatten_append, List.flatten_singleton]
      refine ⟨fun hu ↦ absurd hu (h.opened hfeeder), (by simp [FedSession.feed]), ?_, fun hbroken hclosed _ ↦ ?_,
        fun _ hwaits ↦ ?_, h.received⟩
      · show s.sent <+: (s.host.writes ++ [data]).flatten
        rw [hflatten]
        exact h.sent.trans (List.prefix_append _ _)
      · have hopen : s.host.closed = false := hclosed
        have hwhole := h.whole hbroken hopen (by rw [hfeeder]; rfl)
        rw [hidle, List.append_nil] at hwhole
        show s.sent ++ (if s.host.closed then [] else data) = (s.host.writes ++ [data]).flatten
        rw [hflatten, hopen, if_neg Bool.false_ne_true, hwhole]
      · -- on a closed socket the call comes back at once
        show (if s.host.closed then [] else data) = []
        cases hclosed : s.host.closed with
        | true => rfl
        | false => simp [FedSession.writePending, FedSession.feed, hclosed] at hwaits
  · rename_i hfeeder
    cases hst
    have hidle := h.idle (by rw [hfeeder]; rfl) (by unfold FedSession.writePending; rw [hfeeder])
    exact ⟨fun hu ↦ absurd hu (h.opened hfeeder), (by simp), h.sent,
      fun hbroken hclosed _ ↦ h.whole hbroken hclosed (by rw [hfeeder]; rfl), fun _ _ ↦ hidle, h.received⟩
  · cases hst

omit [AttachedRoom ρ] in
theorem Written.sends (h : s.Written) (hpending : s.host.writePending = true) (hopen : s.host.closed = false)
    (hwhole : s.broken = false) (n : Nat) :
    ({ s with sent := s.sent ++ s.pending.take n, pending := s.pending.drop n } : DataPath ρ κ).Written := by
  have hfeeds : feeds s.host.feeder = true ∧ s.host.feeder ≠ none := by
    unfold FedSession.writePending at hpending
    split at hpending
    · rename_i hfeeder
      rw [hfeeder]
      exact ⟨rfl, (by simp)⟩
    · cases hpending
  have hall := h.whole hwhole hopen hfeeds.1
  have hsplit : s.sent ++ s.pending.take n ++ s.pending.drop n = s.host.writes.flatten := by
    rw [List.append_assoc, List.take_append_drop, hall]
  refine ⟨h.unopened, fun hnone ↦ absurd hnone hfeeds.2, ⟨_, hsplit⟩, fun _ _ _ ↦ hsplit, fun _ hidle ↦ ?_,
    h.received.trans (List.prefix_append _ _)⟩
  cases hpending.symm.trans hidle

theorem Written.writeComesBack (h : s.Written) {failed : Bool} {host : FedSession ρ κ}
    (hdone : failed = true ∨ s.pending = [] ∧ s.broken = false)
    (hst : FedSession.step cfg s.host .writeComesBack = some host) :
    ({ s with host, pending := [], broken := s.broken || failed } : DataPath ρ κ).Written := by
  simp only [FedSession.step] at hst
  split at hst
  · rename_i data hfeeder
    split at hst <;> cases hst
    refine ⟨fun hu ↦ absurd hu (h.opened hfeeder), (by simp), h.sent, fun hbroken hclosed _ ↦ ?_,
      fun _ _ ↦ rfl, h.received⟩
    simp only [Bool.or_eq_false_iff] at hbroken
    rcases hdone with hfailed | ⟨hnil, -⟩
    · cases hfailed.symm.trans hbroken.2
    · have hwhole := h.whole hbroken.1 hclosed (by rw [hfeeder]; rfl)
      rw [hnil] at hwhole
      exact hwhole
  · cases hst

theorem agent_received {agent agent' : GuestAgent.Session} {e : GuestAgent.Event}
    (hst : GuestAgent.Step window agent e agent') (he : ∀ chunk, e ≠ .dataReads 0 (some chunk)) :
    agent'.received 0 = agent.received 0 := by
  cases hst with
  | @dataReads k c chunk =>
    by_cases hk : 0 = k
    · subst hk
      exact absurd rfl (he chunk)
    · exact Function.update_of_ne hk _ _
  | exitDetaches _ hd | attachDetaches _ hd => rw [GuestAgent.Session.detaches_eq hd]
  | _ => rfl

omit [AttachedRoom ρ] in
theorem Written.agent (h : s.Written) {agent : GuestAgent.Session}
    (hreceived : agent.received 0 <+: s.sent) : ({ s with agent } : DataPath ρ κ).Written :=
  ⟨h.unopened, h.begun, h.sent, h.whole, h.idle, hreceived⟩

theorem Written.step (h : s.Written) (hst : Moves window cfg s e t) : t.Written := by
  cases hst with
  | @agent e agent hown hagent =>
    refine h.agent ?_
    rw [agent_received (GuestAgent.step_step hagent) (by rintro chunk rfl; cases hown)]
    exact h.received
  | @agentReads chunk agent hnext hagent =>
    refine h.agent ?_
    cases GuestAgent.step_step hagent with
    | dataReads => simpa using hnext
  | @host e host hown hhost =>
    cases e with
    | session e =>
      simp only [FedSession.step] at hhost
      split at hhost
      · obtain ⟨u, hu, rfl⟩ := Option.map_eq_some_iff.mp hhost
        exact h.follows hu
      · cases hhost
    | dataReceived data =>
      cases hhost
      have hsame : s.host.dataReceived data = { s.host with input := (s.host.dataReceived data).input } := by
        unfold FedSession.dataReceived
        split <;> rfl
      rw [hsame]
      exact ⟨h.unopened, h.begun, h.sent, h.whole, h.idle, h.received⟩
    | attachmentCloses =>
      simp only [FedSession.step] at hhost
      split at hhost <;> cases hhost
      exact ⟨h.unopened, h.begun, h.sent, (by simp [FedSession.closeAttachment]), h.idle, h.received⟩
    | readEnds | feederRuns | readComesBack | writeComesBack => cases hown
  | feederRuns hhost => exact h.feederRuns hhost
  | sends hpending hopen hwhole => exact h.sends hpending hopen hwhole _
  | writeComesBack hdone hhost => exact h.writeComesBack hdone hhost
  | readEmpty hhost =>
    simp only [FedSession.step] at hhost
    split at hhost <;> cases hhost
    exact ⟨h.unopened, h.begun, h.sent, h.whole, h.idle, h.received⟩
  | readComesBack _ _ hagent hhost =>
    simp only [FedSession.step] at hhost
    split at hhost <;> cases hhost
    refine ⟨h.unopened, h.begun, h.sent, h.whole, h.idle, ?_⟩
    rw [agent_received (GuestAgent.step_step hagent) (by simp)]
    exact h.received
  | readEnds _ hhost =>
    simp only [FedSession.step] at hhost
    split at hhost
    · obtain ⟨u, hu, rfl⟩ := Option.map_eq_some_iff.mp hhost
      exact h.follows hu
    · cases hhost

omit [AttachedRoom ρ] in
theorem written_initial : (initial : DataPath ρ κ).Written where
  unopened _ := rfl
  begun _ := ⟨rfl, rfl, rfl⟩
  sent := List.nil_prefix
  whole _ _ _ := rfl
  idle _ _ := rfl
  received := List.nil_prefix

theorem reachable_written (h : (machine ρ κ window cfg).Reachable s) : s.Written :=
  h.invariant written_initial fun _ _ _ _ hi hst ↦ hi.step (step_moves hst)

/-! ## The pump and the channel -/

theorem follow_readBack {s : FedSession ρ κ} {e : Session.Event ρ κ} {u : RoomSession ρ κ}
    (he : ∀ reply broken, e ≠ .readEnds reply broken) :
    (s.follow e u).readBack = s.readBack ∨ ∃ reply broken, e = .openEnds reply broken := by
  have hstop (s : FedSession ρ κ) : s.stopFeeder.readBack = s.readBack := by
    unfold FedSession.stopFeeder
    split <;> rfl
  unfold FedSession.follow
  simp only
  split
  · exact .inl (hstop _)
  · exact .inr ⟨_, _, rfl⟩
  · exact absurd rfl (he _ _)
  · left
    split <;> rfl
  · left
    split <;> rfl
  · exact .inl rfl

/-- A pump that reads has been reading, or `open` has just come back. -/
theorem reads_before {u v : RoomSession ρ κ} {e : Session.Event ρ κ} (hst : Session.step cfg u e = some v)
    (he : ∀ reply broken, e ≠ .readEnds reply broken) (hreads : FedSession.reads v = true) :
    FedSession.reads u = true ∨ ∃ reply broken, e = .openEnds reply broken := by
  have hturn := Session.step_turn hst
  cases e with
  | openEnds reply broken => exact .inr ⟨reply, broken, rfl⟩
  | connectionLost =>
    cases hturn with
    | connectionLost => cases hreads.symm.trans FedSession.reads_connectionLost
  | readEnds reply broken => exact absurd rfl (he _ _)
  | _ =>
    rw [hturn.reads_eq (by simp) (by simp) (by simp)] at hreads
    exact .inl hreads

theorem closing_before {u v : RoomSession ρ κ} {e : Session.Event ρ κ} (hst : Session.step cfg u e = some v)
    (hopen : v.chan.closing = false) : u.chan.closing = false := by
  have hsends := (Session.step_turn hst).sends
  cases hclosing : u.chan.closing with
  | false => rfl
  | true =>
    cases hsends with
    | quiet _ hstays => cases (hstays hclosing).symm.trans hopen
    | exits _ _ _ hcloses => cases hcloses.symm.trans hopen

/-- What the pump has read off the data channel. -/
def text (s : DataPath ρ κ) : Bytes :=
  (s.agent.host data).text

/-- What has become of what was read. -/
structure Printed (s : DataPath ρ κ) : Prop where
  unopened : Session.Unopened s.host.session.pump → s.inHand = [] ∧ s.shown = [] ∧ s.text = []
  empty : s.host.readBack = false → s.inHand = []
  shown : s.shown <+: s.text
  whole : FedSession.reads s.host.session = true → s.host.session.chan.closing = false →
    s.shown ++ s.inHand = s.text

theorem Printed.follows (h : s.Printed) {e : Session.Event ρ κ} {u : RoomSession ρ κ}
    (hst : Session.step cfg s.host.session e = some u) (he : ∀ reply broken, e ≠ .readEnds reply broken) :
    ({ s with host := s.host.follow e u } : DataPath ρ κ).Printed := by
  refine ⟨fun hu ↦ ?_, fun hback ↦ ?_, h.shown, fun hreads hopen ↦ ?_⟩
  · rw [follow_session] at hu
    exact h.unopened (Session.unopened_of_step hst hu)
  · rcases follow_readBack (s := s.host) (u := u) he with hsame | ⟨reply, broken, rfl⟩
    · exact h.empty (hsame.symm.trans hback)
    · exact (h.unopened (unopened_of_openEnds hst)).1
  · rw [follow_session] at hreads hopen
    rcases reads_before hst he hreads with hbefore | ⟨reply, broken, rfl⟩
    · exact h.whole hbefore (closing_before hst hopen)
    · obtain ⟨hhand, hshown, htext⟩ := h.unopened (unopened_of_openEnds hst)
      show s.shown ++ s.inHand = s.text
      rw [hhand, hshown, htext]
      rfl

omit [AttachedRoom ρ] in
theorem Printed.agent (h : s.Printed) {agent : GuestAgent.Session}
    (htext : (agent.host data).text = s.text) : ({ s with agent } : DataPath ρ κ).Printed := by
  have hsame : ({ s with agent } : DataPath ρ κ).text = s.text := htext
  refine ⟨fun hu ↦ ?_, h.empty, ?_, fun hreads hopen ↦ ?_⟩
  · rw [hsame]
    exact h.unopened hu
  · rw [hsame]
    exact h.shown
  · rw [hsame]
    exact h.whole hreads hopen

omit [AttachedRoom ρ] in
theorem Printed.host (h : s.Printed) {host : FedSession ρ κ} (hsession : host.session = s.host.session)
    (hback : host.readBack = s.host.readBack) {sent pending : Bytes} {broken : Bool} :
    ({ s with host, sent, pending, broken } : DataPath ρ κ).Printed := by
  refine ⟨fun hu ↦ h.unopened (hsession ▸ hu), fun hb ↦ h.empty (hback ▸ hb), h.shown, fun hreads hopen ↦ ?_⟩
  exact h.whole (hsession ▸ hreads) (hsession ▸ hopen)

/-- A chunk is read while nothing is in hand. -/
theorem Printed.reads (h : s.Printed) {agent : GuestAgent.Session} {host : FedSession ρ κ} {chunk : Bytes}
    (htext : (agent.host data).text = s.text ++ chunk)
    (hst : FedSession.step cfg s.host .readComesBack = some host) :
    ({ s with agent, host, inHand := chunk } : DataPath ρ κ).Printed := by
  simp only [FedSession.step] at hst
  split at hst
  · rename_i hcan
    cases hst
    simp only [FedSession.readPending, Bool.and_eq_true, Bool.not_eq_true'] at hcan
    have hhand := h.empty hcan.1.2
    have hsame : ({ s with agent, host := { s.host with readBack := true }, inHand := chunk } : DataPath ρ κ).text =
      s.text ++ chunk := htext
    refine ⟨fun hu ↦ absurd hu (not_unopened_of_reads hcan.1.1), (by simp), ?_, fun hreads hopen ↦ ?_⟩
    · rw [hsame]
      exact h.shown.trans (List.prefix_append _ _)
    · rw [hsame, ← h.whole hreads hopen, hhand, List.append_nil]
  · cases hst

omit [AttachedRoom ρ] in
theorem reads_of_mayRead {s : FedSession ρ κ} {sock : Reply Bool} (h : s.mayRead sock = true)
    (hsock : sock ≠ .cancelled) : FedSession.reads s.session = true := by
  unfold FedSession.mayRead at h
  split at h
  · rename_i c hp
    unfold FedSession.reads
    rw [hp]
    cases c with
    | true => exact absurd (of_decide_eq_true h) hsock
    | false => rfl
  · cases h

/-- The read loop goes on after a chunk that was written. -/
theorem goesOn_of_reads {u v : RoomSession ρ κ} {sock : Reply Bool} {broken : Bool}
    (hst : Session.step cfg u (.readEnds (Session.read sock) broken) = some v) (hreads : FedSession.reads v = true) :
    sock = .returned true ∧ broken = false := by
  cases Session.step_turn hst with
  | readEnds hp =>
    obtain ⟨hreply, -⟩ := FedSession.afterRead_reads hreads
    have hsock : sock = .returned true := by
      cases sock with
      | returned more =>
        cases hreply
        rfl
      | raised => cases hreply
      | cancelled => cases hreply
    refine ⟨hsock, ?_⟩
    cases broken with
    | false => rfl
    | true =>
      rw [hsock] at hreads
      simp [Session.read, RoomSession.afterRead, FedSession.reads_finishReading] at hreads

/-- What is in hand is written to the channel, or lost for good. -/
theorem Printed.readEnds (h : s.Printed) {sock : Reply Bool} {broken : Bool} {host : FedSession ρ κ}
    (hst : FedSession.step cfg s.host (.readEnds sock broken) = some host) :
    ({ s with host, inHand := [], shown := s.afterRead sock broken } : DataPath ρ κ).Printed := by
  simp only [FedSession.step] at hst
  split at hst
  · rename_i hmay
    obtain ⟨u, hu, rfl⟩ := Option.map_eq_some_iff.mp hst
    have hnot : ¬ Session.Unopened u.pump := fun hopen ↦ by
      have hbefore := Session.unopened_of_step hu hopen
      unfold FedSession.mayRead at hmay
      split at hmay
      · rename_i hp
        rw [hp] at hbefore
        rcases hbefore with hb | ⟨c, hb⟩ | ⟨kept, c, hb⟩ <;> cases hb
      · cases hmay
    refine ⟨fun hopen ↦ ?_, fun _ ↦ rfl, ?_, fun hreads hopen ↦ ?_⟩
    · rw [follow_session] at hopen
      exact absurd hopen hnot
    · -- what is written to the channel was in hand while the pump was reading
      show s.afterRead sock broken <+: s.text
      unfold afterRead
      split
      · rename_i hshows
        exact (h.whole (reads_of_mayRead hmay (by simp [hshows.1])) hshows.2.2) ▸ List.prefix_refl _
      · exact h.shown
    · rw [follow_session] at hreads hopen
      have hclosing := closing_before hu hopen
      obtain ⟨rfl, rfl⟩ := goesOn_of_reads hu hreads
      show s.afterRead (.returned true) false ++ [] = s.text
      rw [List.append_nil, afterRead, if_pos ⟨rfl, rfl, hclosing⟩]
      exact h.whole (reads_of_mayRead hmay (by simp)) hclosing
  · cases hst

theorem Printed.step (h : s.Printed) (hpaid : s.agent.Paid) (hst : Moves window cfg s e t) : t.Printed := by
  cases hst with
  | @agent e agent hown hagent =>
    refine h.agent (GuestAgent.Step.text (GuestAgent.step_step hagent) hpaid ?_)
    rintro n rfl
    simp [isOwnAgent] at hown
  | agentReads _ hagent => exact h.agent (GuestAgent.Step.text (GuestAgent.step_step hagent) hpaid (by simp))
  | @host e host hown hhost =>
    cases e with
    | session e =>
      simp only [FedSession.step] at hhost
      split at hhost
      · rename_i hmay
        obtain ⟨u, hu, rfl⟩ := Option.map_eq_some_iff.mp hhost
        refine h.follows hu ?_
        rintro reply broken rfl
        cases hmay
      · cases hhost
    | dataReceived data =>
      cases hhost
      have hsame : s.host.dataReceived data = { s.host with input := (s.host.dataReceived data).input } := by
        unfold FedSession.dataReceived
        split <;> rfl
      exact h.host (by rw [hsame]) (by rw [hsame])
    | attachmentCloses =>
      have hsame : host.session = s.host.session ∧ host.readBack = s.host.readBack := by
        simp only [FedSession.step] at hhost
        split at hhost <;> cases hhost
        exact ⟨rfl, rfl⟩
      exact h.host hsame.1 hsame.2
    | readEnds | feederRuns | readComesBack | writeComesBack => cases hown
  | @feederRuns host hhost =>
    have hsame : host.session = s.host.session ∧ host.readBack = s.host.readBack := by
      simp only [FedSession.step, FedSession.runFeeder] at hhost
      split at hhost
      · cases hhost
        exact ⟨rfl, rfl⟩
      · cases hhost
        exact ⟨rfl, rfl⟩
      · cases hhost
        exact ⟨rfl, rfl⟩
      · split at hhost <;> cases hhost
        exact ⟨rfl, rfl⟩
      · cases hhost
        exact ⟨rfl, rfl⟩
      · cases hhost
    exact h.host hsame.1 hsame.2
  | sends => exact h.host rfl rfl
  | @writeComesBack _ host _ hhost =>
    have hsame : host.session = s.host.session ∧ host.readBack = s.host.readBack := by
      simp only [FedSession.step] at hhost
      split at hhost
      · split at hhost <;> cases hhost
        exact ⟨rfl, rfl⟩
      · cases hhost
    exact h.host hsame.1 hsame.2
  | readEmpty hhost => exact h.reads (List.append_nil _).symm hhost
  | readComesBack _ hnext hagent hhost => exact h.reads (GuestAgent.hostTakes_text hnext hagent) hhost
  | readEnds _ hhost => exact h.readEnds hhost

theorem reachable_printed (h : (machine ρ κ window cfg).Reachable s) : s.Printed := by
  refine h.invariant ⟨fun _ ↦ ⟨rfl, rfl, rfl⟩, fun _ ↦ rfl, List.prefix_refl _, fun h ↦ by cases h⟩ fun s e t hs hi hst ↦ ?_
  exact hi.step (GuestAgent.Session.reachable_paid ((agentPart window cfg).reachable hs)) (step_moves hst)

/-! ## End to end -/

theorem flatten_begins {xs ys : List Bytes} (h : xs <+: ys) : xs.flatten <+: ys.flatten := by
  obtain ⟨more, rfl⟩ := h
  rw [List.flatten_append]
  exact List.prefix_append _ _

/-- The shell is sent what the client has typed, in order, with nothing left out before the end and nothing twice; and
the client is shown a prefix of what the agent has sent on this connection, which is one piece of what the shell has
printed: it begins where the pump stopped discarding because nobody was attached. -/
theorem bytes_come_through (ρ κ : Type) [AttachedRoom ρ] (window : Nat) (cfg : SessionConfig)
    {es : List (DataEvent ρ κ)} {s : DataPath ρ κ} (hrun : (machine ρ κ window cfg).run .initial es = some s) :
    s.agent.typed <+: (FedSession.accepted cfg ((hostPart window cfg).labels es)).flatten ∧
      s.shown <+: (s.agent.host data).written ∧
      ∃ before after, s.agent.output = before ++ (s.agent.host data).written ++ after ∧
        before <+: (GuestAgent.machine window).trace GuestAgent.Session.discards .start
          ((agentPart window cfg).labels es) := by
  have hreached := Machine.Reachable.of_run hrun
  obtain ⟨htyped, hpiece⟩ :=
    GuestAgent.Session.one_connection ((agentPart window cfg).run_init hrun) (serves_not_mem es)
  have hwritten := reachable_written hreached
  refine ⟨?_, (reachable_printed hreached).shown.trans (HostEnd.text_begins _), hpiece⟩
  have hdelivered := (FedSession.typeAhead_inOrder ((hostPart window cfg).run_init hrun)).delivered
  have hreceived : s.agent.typed <+: s.sent := htyped.trans hwritten.received
  exact (hreceived.trans hwritten.sent).trans (flatten_begins hdelivered)

end

/-- A command goes to the shell, and the first half of what it prints comes back. -/
def runsCommand : List (DataEvent BuiltRoom Nat) :=
  [.host (.session .sessionStarted), .host (.session (.pumpStarts none)),
      .host (.session (.openEnds (.returned (.firecracker 0)) false)), .feederRuns] ++
    List.replicate 8 (.agent .attachRuns) ++
    [.host (.dataReceived (ascii "id\n")), .feederRuns, .sends 2, .agentReads (ascii "i"), .sends 1,
      .writeComesBack false, .feederRuns, .agent (.dataSends 0), .agent .writerReceives, .agent (.writerWrites 1),
      .agentReads (ascii "d\n"), .agent (.dataSends 0), .agent .writerReceives, .agent (.writerWrites 2),
      .agent (.pumpReads (some (ascii "uid=0"))), .agent .pumpLocks, .agent (.pumpWrites 5),
      .readComesBack (ascii "uid"), .readEnds (.returned true) false]

theorem runsCommand_shown : ∃ s, (machine BuiltRoom Nat 4096 ⟨none, 0⟩).run .initial runsCommand = some s ∧
    s.agent.typed = ascii "id\n" ∧ s.shown = ascii "uid" ∧ s.agent.output = ascii "uid=0" ∧
      s.agent.typed <+: (FedSession.accepted ⟨none, 0⟩ ((hostPart 4096 ⟨none, 0⟩).labels runsCommand)).flatten ∧
      s.shown <+: (s.agent.host data).written ∧
      ∃ before after, s.agent.output = before ++ (s.agent.host data).written ++ after ∧
        before <+: (GuestAgent.machine 4096).trace GuestAgent.Session.discards .start
          ((agentPart 4096 ⟨none, 0⟩).labels runsCommand) := by
  have hends : ((machine BuiltRoom Nat 4096 ⟨none, 0⟩).run .initial runsCommand).map
      (fun s ↦ (s.agent.typed, s.shown, s.agent.output)) = some (ascii "id\n", ascii "uid", ascii "uid=0") := by
    decide +kernel
  obtain ⟨s, hrun, hs⟩ := Option.map_eq_some_iff.mp hends
  simp only [Prod.mk.injEq] at hs
  exact ⟨s, hrun, hs.1, hs.2.1, hs.2.2, bytes_come_through BuiltRoom Nat 4096 ⟨none, 0⟩ hrun⟩

end DataPath

end Keycard.EndToEnd
