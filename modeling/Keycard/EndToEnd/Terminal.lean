import Keycard.GuestAgent.Reattach
import Keycard.GuestAgent.SizeLines
import Keycard.Reasoning.Part
import Keycard.Session.Resized

/-!
# The size of the terminal, from the client to the pty

A session on a room of the firecracker backend: each `room.resize` sends a line on the control channel, and the
control reader of the agent sets the size of the pty.
-/

open Reasoning

namespace Keycard.EndToEnd

open GuestAgent (Bytes CtrlReader Winsize winsizeOf sizeStream fallbackSize)
open Session (SizedSession SizedEvent SessionConfig Size)

structure TerminalPath (ρ κ : Type) where
  host : SizedSession ρ κ
  agent : GuestAgent.Session
  /-- the `BufReader` of the control reader -/
  reader : CtrlReader
  /-- the sizes whose lines the socket has taken -/
  sent : List Size
  /-- what of them was read -/
  arrived : Bytes
  /-- how many of the lines that were read the loop is done with -/
  handled : Nat

inductive TerminalEvent (ρ κ : Type) where
  | host (e : SizedEvent ρ κ)
  | agent (e : GuestAgent.Event)
  /-- a read of the control reader -/
  | arrives (chunk : Bytes)
  /-- the loop goes round -/
  | handles

namespace TerminalPath

variable {ρ κ : Type}

def initial : TerminalPath ρ κ where
  host := .initial
  agent := .start
  reader := .start
  sent := []
  arrived := []
  handled := 0

/-- What the control reader does is an event of its own here, and there is no other connection. -/
def isOwn : GuestAgent.Event → Bool
  | .ctrlReads _ (some _) => true
  | .serves => true
  | _ => false

/-- The size whose line a step sends: `open` sends the first before it returns. -/
def sends (host : SizedSession ρ κ) : SizedEvent ρ κ → List Size
  | .session (.openEnds (.returned _) _) fits => if fits then [host.args] else []
  | .resizeFinishes i taken => if taken then (host.resizes[i]?.map fun resize ↦ resize.size).toList else []
  | _ => []

def step [Room ρ] (window : Nat) (cfg : SessionConfig) (s : TerminalPath ρ κ) :
    TerminalEvent ρ κ → Option (TerminalPath ρ κ)
  | .host e => (SizedSession.step cfg s.host e).map fun host ↦ { s with host, sent := s.sent ++ sends s.host e }
  | .agent e =>
    if isOwn e then none
    else (GuestAgent.step window s.agent e).map fun agent ↦ { s with agent }
  -- the reader asks for more when it is out of lines
  | .arrives chunk =>
    if chunk ≠ [] ∧ s.handled = s.reader.sizes.length ∧ s.agent.tasks.isEnded ⟨0, .ctrl⟩ = false ∧
        (s.arrived ++ chunk).isPrefixOf (sizeStream s.sent) then
      some { s with reader := s.reader.receive (some chunk), arrived := s.arrived ++ chunk }
    else none
  | .handles =>
    match s.reader.sizes[s.handled]? with
    | none => none
    | some line => (GuestAgent.step window s.agent (.ctrlReads 0 (some line))).map fun agent ↦
        { s with agent, handled := s.handled + 1 }

/-- `window` is that of the agent's streams. -/
def machine (ρ κ : Type) [Room ρ] (window : Nat) (cfg : SessionConfig) :
    Machine (TerminalPath ρ κ) (TerminalEvent ρ κ) where
  init := .initial
  step := step window cfg

/-- The session does what keeps the room at the recorded size. -/
def Settles (s : TerminalPath ρ κ) : TerminalEvent ρ κ → Prop
  | .host e => s.host.Settles e
  | _ => True

instance (s : TerminalPath ρ κ) : ∀ e, Decidable (s.Settles e)
  | .host e => inferInstanceAs (Decidable (s.host.Settles e))
  | .agent _ | .arrives _ | .handles => .isTrue trivial

section

variable [Room ρ] {window : Nat} {cfg : SessionConfig} {s t : TerminalPath ρ κ} {e : TerminalEvent ρ κ}

/-- What a step does to the two ends. -/
inductive Moves (window : Nat) (cfg : SessionConfig) (s : TerminalPath ρ κ) :
    TerminalEvent ρ κ → TerminalPath ρ κ → Prop
  | host {e : SizedEvent ρ κ} {host : SizedSession ρ κ} (hhost : SizedSession.step cfg s.host e = some host) :
      Moves window cfg s (.host e) { s with host, sent := s.sent ++ sends s.host e }
  | agent {e : GuestAgent.Event} {agent : GuestAgent.Session} (hown : isOwn e = false)
      (hagent : GuestAgent.step window s.agent e = some agent) : Moves window cfg s (.agent e) { s with agent }
  | arrives {chunk : Bytes} (hne : chunk ≠ []) (hnext : s.arrived ++ chunk <+: sizeStream s.sent) :
      Moves window cfg s (.arrives chunk)
        { s with reader := s.reader.receive (some chunk), arrived := s.arrived ++ chunk }
  | handles {line : Option Winsize} {agent : GuestAgent.Session} (hline : s.reader.sizes[s.handled]? = some line)
      (hagent : GuestAgent.step window s.agent (.ctrlReads 0 (some line)) = some agent) :
      Moves window cfg s .handles { s with agent, handled := s.handled + 1 }

theorem step_moves (h : step window cfg s e = some t) : Moves window cfg s e t := by
  cases e with
  | host e =>
    obtain ⟨host, hhost, rfl⟩ := Option.map_eq_some_iff.mp h
    exact .host hhost
  | agent e =>
    simp only [step] at h
    split at h
    · cases h
    · obtain ⟨agent, hagent, rfl⟩ := Option.map_eq_some_iff.mp h
      exact .agent (Bool.eq_false_iff.mpr ‹_›) hagent
  | arrives chunk =>
    simp only [step] at h
    split at h
    · rename_i hcan
      cases h
      exact .arrives hcan.1 (List.isPrefixOf_iff_prefix.mp hcan.2.2.2)
    · cases h
  | handles =>
    simp only [step] at h
    split at h
    · cases h
    · obtain ⟨agent, hagent, rfl⟩ := Option.map_eq_some_iff.mp h
      exact .handles ‹_› hagent

/-- The session, whose room is this one. -/
def hostPart (window : Nat) (cfg : SessionConfig) :
    (machine ρ κ window cfg).Part (SizedSession.machine ρ κ cfg) where
  view := host
  label
    | .host e => some e
    | _ => none
  init := rfl
  idle h hlabel := by
    cases step_moves h with
    | host => cases hlabel
    | agent | arrives | handles => rfl
  acts h hlabel := by
    cases step_moves h with
    | host hhost =>
      cases hlabel
      exact hhost
    | agent | arrives | handles => cases hlabel

/-! ## What is sent -/

/-- The size that a step of the session applies to the room is the one whose line it sends. -/
theorem applied_of_step {host host' : SizedSession ρ κ} {e : SizedEvent ρ κ}
    (hst : SizedSession.step cfg host e = some host') :
    host'.applied = ((sends host e).getLast?).or host.applied := by
  cases e with
  | session e fits =>
    obtain ⟨session, -, rfl⟩ := Option.map_eq_some_iff.mp hst
    unfold SizedSession.follow sends
    split
    · rfl
    · cases fits with
      | true => rfl
      | false => rfl
    · rename_i hopen
      split
      · rename_i heq
        cases heq
        exact absurd rfl (hopen _ _)
      · rename_i heq
        cases heq
      · rfl
  | ptyRequested width height =>
    simp only [SizedSession.step] at hst
    split at hst
    · cases hst
      rfl
    · cases hst
  | terminalSizeChanged width height =>
    cases hst
    unfold SizedSession.terminalSizeChanged
    simp only []
    split
    · rfl
    · rfl
  | resizeRuns i | resizeStarts i =>
    obtain ⟨resize, resize', -, -, rfl⟩ := SizedSession.advance_cases hst
    rfl
  | resizeFinishes i taken =>
    simp only [SizedSession.step, SizedSession.finish] at hst
    split at hst
    · rename_i resize hget
      obtain ⟨u, hadvance, rfl⟩ := Option.map_eq_some_iff.mp hst
      obtain ⟨-, -, -, -, rfl⟩ := SizedSession.advance_cases hadvance
      cases taken with
      | true => simp [sends, hget]
      | false => rfl
    · cases hst

/-! ## What the pty is set to -/

/-- The last of some lines that had a size for the pty. -/
def lastSize (lines : List (Option Winsize)) : Winsize :=
  (lines.filterMap id).getLast?.getD fallbackSize

theorem lastSize_concat (lines : List (Option Winsize)) (line : Option Winsize) :
    lastSize (lines ++ [line]) = line.getD (lastSize lines) := by
  cases line with
  | none => simp [lastSize]
  | some size => simp [lastSize]

/-- No step but that of a control reader sets the size, and a shell that has exited does not run again. -/
theorem agent_winsize {agent agent' : GuestAgent.Session} {e : GuestAgent.Event}
    (hst : GuestAgent.Step window agent e agent') (hown : isOwn e = false) :
    agent'.winsize = agent.winsize ∧ (agent'.running = true → agent.running = true) := by
  cases hst with
  | ctrlReads => cases hown
  | exitDetaches _ hd | attachDetaches _ hd =>
    rw [GuestAgent.Session.detaches_eq hd]
    exact ⟨rfl, id⟩
  | exitStops => exact ⟨rfl, nofun⟩
  | _ => exact ⟨rfl, id⟩

structure Relayed (s : TerminalPath ρ κ) : Prop where
  last : s.host.applied = s.sent.getLast?
  begun : s.arrived <+: sizeStream s.sent
  got : s.reader.Got s.arrived
  handled : s.handled ≤ s.reader.sizes.length
  winsize : s.agent.running = true → s.agent.winsize = lastSize (s.reader.sizes.take s.handled)

theorem Relayed.step (h : s.Relayed) (hst : Moves window cfg s e t) : t.Relayed := by
  cases hst with
  | @host e host hhost =>
    refine ⟨?_, ?_, h.got, h.handled, h.winsize⟩
    · show host.applied = (s.sent ++ sends s.host e).getLast?
      rw [applied_of_step hhost, List.getLast?_append, h.last]
    · show s.arrived <+: sizeStream (s.sent ++ sends s.host e)
      rw [GuestAgent.sizeStream_append]
      exact h.begun.trans (List.prefix_append _ _)
  | @agent e agent hown hagent =>
    obtain ⟨hwinsize, hrunning⟩ := agent_winsize (GuestAgent.step_step hagent) hown
    refine ⟨h.last, h.begun, h.got, h.handled, fun hr ↦ ?_⟩
    exact hwinsize.trans (h.winsize (hrunning hr))
  | @arrives chunk hne hnext =>
    have hgot := h.got.receive hne (GuestAgent.readLines_begun hnext)
    have hsizes := h.got.sizes_receive hne (GuestAgent.readLines_begun hnext)
    refine ⟨h.last, hnext, hgot, h.handled.trans hsizes.length_le, fun hr ↦ ?_⟩
    -- the lines that are done with are the same
    obtain ⟨more, hmore⟩ := hsizes
    show s.agent.winsize = lastSize ((s.reader.receive (some chunk)).sizes.take s.handled)
    rw [← hmore, List.take_append_of_le_length h.handled]
    exact h.winsize hr
  | @handles line agent hline hagent =>
    obtain ⟨hlength, -⟩ := List.getElem?_eq_some_iff.mp hline
    have htake : s.reader.sizes.take (s.handled + 1) = s.reader.sizes.take s.handled ++ [line] := by
      rw [List.take_add_one, hline]
      rfl
    cases GuestAgent.step_step hagent with
    | ctrlReads =>
      refine ⟨h.last, h.begun, h.got, hlength, fun hr ↦ ?_⟩
      have hrunning : s.agent.running = true := hr
      show (if s.agent.running then line.getD s.agent.winsize else s.agent.winsize) = _
      rw [htake, lastSize_concat, hrunning, if_pos rfl, h.winsize hrunning]

theorem reachable_relayed (h : (machine ρ κ window cfg).Reachable s) : s.Relayed := by
  refine h.invariant ⟨rfl, List.nil_prefix, CtrlReader.got_start, Nat.le_refl 0, fun _ ↦ rfl⟩ ?_
  exact fun _ _ _ _ hi hst ↦ hi.step (step_moves hst)

omit [Room ρ] in
/-- The lines that are done with are the first ones sent. -/
theorem Relayed.handled_sent (h : s.Relayed) :
    s.handled ≤ s.sent.length ∧ s.reader.sizes.take s.handled = (s.sent.take s.handled).map winsizeOf := by
  have hsizes := h.got.sizes h.begun
  have hlength := hsizes.length_le
  have hhandled := h.handled
  rw [List.length_map] at hlength
  refine ⟨by omega, ?_⟩
  obtain ⟨more, hmore⟩ := hsizes
  rw [List.map_take, ← hmore, List.take_append_of_le_length hhandled]

/-- While the shell runs, its terminal has the last size that fits among those whose lines are done with.  If the
session settles and no change is under way, and every line that was sent is done with, then that is the recorded
size, provided that it fits. -/
theorem terminal_follows (ρ κ : Type) [Room ρ] (window : Nat) (cfg : SessionConfig) {es : List (TerminalEvent ρ κ)}
    {s : TerminalPath ρ κ} (hrun : (machine ρ κ window cfg).run .initial es = some s)
    (hrunning : s.agent.running = true) :
    s.agent.winsize = lastSize ((s.sent.take s.handled).map winsizeOf) ∧
      ((machine ρ κ window cfg).Follows Settles .initial es → s.host.Quiet → s.handled = s.sent.length →
        ∀ size, winsizeOf s.host.size = some size → s.agent.winsize = size) := by
  have hrelayed := reachable_relayed (.of_run hrun)
  have hwinsize : s.agent.winsize = lastSize ((s.sent.take s.handled).map winsizeOf) := by
    rw [← hrelayed.handled_sent.2]
    exact hrelayed.winsize hrunning
  refine ⟨hwinsize, fun hsettles hquiet hall size hsize ↦ ?_⟩
  have hreached : (SizedSession.machine ρ κ cfg).ReachedBy SizedSession.Settles s.host := by
    refine (hostPart window cfg).reachedBy (fun s e f _ hok hlabel ↦ ?_) (.run .init hsettles hrun)
    cases e with
    | host e =>
      cases hlabel
      exact hok
    | agent | arrives | handles => cases hlabel
  have happlied := ((SizedSession.sized_of_reached hreached).opened hquiet.1).quiet hquiet.2
  -- the last line sent is for the recorded size
  obtain ⟨before, hsent⟩ := List.getLast?_eq_some_iff.mp (hrelayed.last.symm.trans happlied)
  rw [hwinsize, hall, List.take_length, hsent, List.map_append, List.map_singleton, lastSize_concat, hsize]
  rfl

end

/-- The window is made larger while the first line is on its way. -/
def growsWindow : List (TerminalEvent BuiltRoom Nat) :=
  [.host (.ptyRequested 80 24), .host (.session .sessionStarted false), .host (.session (.pumpStarts none) false),
      .host (.session (.openEnds (.returned (.firecracker 0)) false) true)] ++
    List.replicate 8 (.agent .attachRuns) ++
    [.arrives (ascii "resize 8"), .host (.terminalSizeChanged 132 70000), .host (.terminalSizeChanged 132 50),
      .host (.resizeRuns 0), .host (.resizeStarts 0), .host (.resizeFinishes 0 true), .host (.resizeRuns 1),
      .host (.resizeStarts 1), .host (.resizeFinishes 1 true), .host (.resizeRuns 0), .host (.resizeRuns 1),
      .arrives (ascii "0 24\nresize 132 70000\nres"), .handles, .handles, .arrives (ascii "ize 132 50\n"), .handles]

theorem growsWindow_follows : ∃ s, (machine BuiltRoom Nat 4096 ⟨none, 0⟩).run .initial growsWindow = some s ∧
    s.host.size = ⟨132, 50⟩ ∧ s.agent.winsize = ⟨50, 132⟩ := by
  have hends : ((machine BuiltRoom Nat 4096 ⟨none, 0⟩).run .initial growsWindow).map
      (fun s ↦ (s.host.size, s.agent.running, decide s.host.Quiet, s.handled, s.sent.length)) =
      some (⟨132, 50⟩, true, true, 3, 3) := by
    decide +kernel
  obtain ⟨s, hrun, hs⟩ := Option.map_eq_some_iff.mp hends
  simp only [Prod.mk.injEq, decide_eq_true_eq] at hs
  obtain ⟨hsize, hrunning, hquiet, hhandled, hsent⟩ := hs
  have hsettles : (machine BuiltRoom Nat 4096 ⟨none, 0⟩).Follows Settles .initial growsWindow := by
    decide +kernel
  have hfits : winsizeOf s.host.size = some ⟨50, 132⟩ := by
    rw [hsize]
    rfl
  exact ⟨s, hrun, hsize, (terminal_follows BuiltRoom Nat 4096 ⟨none, 0⟩ hrun hrunning).2 hsettles hquiet
    (hhandled.trans hsent.symm) _ hfits⟩

end TerminalPath

end Keycard.EndToEnd
