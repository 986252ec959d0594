import Keycard.Backends.ControlChannel
import Keycard.Reasoning.Machine

/-!
# The first connection to a guest

`vsock.connect`, `connect_with_retry` and `_attach` on the host, against `run_vsock` in a guest that is still
booting.  The device answers a `CONNECT` as soon as the guest's kernel does: it acknowledges it when a
listener is bound to the port, and drops the connection when none is.  The agent accepts what is waiting in
the two backlogs in turns.  Times are in milliseconds.
-/

open Reasoning

namespace Keycard.Vsock

open Firecracker (Bytes bytesInt isSpaceByte resizeLine)

/-! ## The handshake -/

/-- `_MAX_ACK` -/
def maxAck : Nat := 64

/-- `_RETRY_DELAY` -/
def retryDelay : Nat := 50

/-- `DATA_PORT` -/
def dataPort : Nat := 10000

/-- `CTRL_PORT` -/
def ctrlPort : Nat := 10001

/-- `parse_ack` -/
def parseAck (line : Bytes) : Option Int :=
  if (ascii "OK").isPrefixOf line then
    let rest := match cut 32 line with
      | some (_, rest) => rest
      | none => []
    bytesInt ((rest.dropWhile isSpaceByte).rdropWhile isSpaceByte)
  else none

/-- `_read_ack`, of all that the device sends before it closes the connection or waits for more. -/
def readAck (reply : Bytes) : Bytes :=
  (reply.take maxAck).takeWhile fun b ↦ b ≠ 10

/-- How the device answers a `CONNECT`: with bytes, or with a failure of the socket. -/
inductive Answer where
  | reply (bytes : Bytes)
  | oserror (exc : String)
deriving DecidableEq, Repr

inductive VsockError where
  /-- vsock connect to guest port `port` failed: `exc` -/
  | connectFailed (port : Nat) (exc : String)
  /-- no listener on guest port `port` (handshake said `handshake`) -/
  | noListener (port : Nat) (handshake : Bytes)
  /-- guest did not answer on port `port` within `timeout` (`attempts` attempts): `exc` -/
  | noAnswer (port timeout attempts : Nat) (exc : VsockError)
deriving DecidableEq, Repr

/-- `connect`, once the device has answered; `none` is the connection. -/
def connect (port : Nat) : Answer → Option VsockError
  | .reply bytes => if (parseAck (readAck bytes)).isSome then none else some (.noListener port (readAck bytes))
  | .oserror exc => some (.connectFailed port exc)

/-- The acknowledgement, with the port that was assigned on the host's side. -/
def ackLine (assigned : UInt32) : Bytes :=
  ascii ("OK " ++ toString (assigned.toNat : Int) ++ "\n")

/-- A connection that is dropped ends, or is reset. -/
def refusal : Option String → Answer
  | none => .reply []
  | some exc => .oserror exc

/-! ## The two parties -/

/-- Where `run_vsock` is. -/
inductive Agent where
  | starting
  | boundData
  | acceptingData
  | acceptingCtrl (data : Nat)
  | serving (data ctrl : Nat)
deriving DecidableEq, Repr

/-- Where `_attach` is.  Every `connect` opens a socket of its own, and sockets are counted. -/
inductive Attach where
  | starting
  | askingData (data : Nat)
  /-- answered at `time`, which no code sees -/
  | answeredData (data : Nat) (answer : Answer) (time : Nat)
  | sleeping (wake : Nat)
  | askingCtrl (data ctrl : Nat)
  | answeredCtrl (data ctrl : Nat) (answer : Answer)
  | resizing (data ctrl : Nat)
  | attached (data ctrl : Nat)
  | failed (error : VsockError)
deriving DecidableEq, Repr

structure Boot where
  clock : Nat
  agent : Agent
  /-- when the agent had bound both ports -/
  boundAt : Option Nat
  dataBacklog : List Nat
  ctrlBacklog : List Nat
  /-- the pairs that were handed to `serve` -/
  served : List (Nat × Nat)
  attach : Attach
  deadline : Nat
  attempts : Nat
  /-- how many sockets there have been -/
  sockets : Nat
  /-- what was sent on a socket after the handshake -/
  sent : List (Nat × Bytes)
deriving DecidableEq, Repr

inductive Event where
  | passes (time : Nat)
  | agentRuns
  | acknowledges (assigned : UInt32)
  | refuses (exc : Option String)
  | attachRuns
deriving DecidableEq, Repr

namespace Boot

def start : Boot where
  clock := 0
  agent := .starting
  boundAt := none
  dataBacklog := []
  ctrlBacklog := []
  served := []
  attach := .starting
  deadline := 0
  attempts := 0
  sockets := 0
  sent := []

def dataBound (s : Boot) : Bool :=
  s.agent ≠ .starting

def ctrlBound (s : Boot) : Bool :=
  s.agent ≠ .starting && s.agent ≠ .boundData

/-- `run_vsock`; to accept is to wait for the backlog. -/
def agentRuns (s : Boot) : Option Boot :=
  match s.agent with
  | .starting => some { s with agent := .boundData }
  | .boundData => some { s with agent := .acceptingData, boundAt := some s.clock }
  | .acceptingData =>
    match s.dataBacklog with
    | [] => none
    | data :: rest => some { s with agent := .acceptingCtrl data, dataBacklog := rest }
  | .acceptingCtrl data =>
    match s.ctrlBacklog with
    | [] => none
    | ctrl :: rest =>
      some { s with agent := .serving data ctrl, ctrlBacklog := rest, served := s.served ++ [(data, ctrl)] }
  | .serving _ _ => some { s with agent := .acceptingData }

def acknowledges (s : Boot) (assigned : UInt32) : Option Boot :=
  match s.attach with
  | .askingData data =>
    if s.dataBound then
      some { s with
        attach := .answeredData data (.reply (ackLine assigned)) s.clock, dataBacklog := s.dataBacklog ++ [data] }
    else none
  | .askingCtrl data ctrl =>
    if s.ctrlBound then
      some { s with
        attach := .answeredCtrl data ctrl (.reply (ackLine assigned)), ctrlBacklog := s.ctrlBacklog ++ [ctrl] }
    else none
  | _ => none

def refuses (s : Boot) (exc : Option String) : Option Boot :=
  match s.attach with
  | .askingData data =>
    if s.dataBound then none else some { s with attach := .answeredData data (refusal exc) s.clock }
  | .askingCtrl data ctrl =>
    if s.ctrlBound then none else some { s with attach := .answeredCtrl data ctrl (refusal exc) }
  | _ => none

/-- `_attach`, and `connect_with_retry` under it, from one suspension to the next. -/
def attachRuns (timeout : Nat) (width height : Int) (s : Boot) : Option Boot :=
  match s.attach with
  | .starting =>
    some { s with
      attach := .askingData s.sockets, deadline := s.clock + timeout, attempts := 1, sockets := s.sockets + 1 }
  | .answeredData data answer _ =>
    match connect dataPort answer with
    | none => some { s with attach := .askingCtrl data s.sockets, sockets := s.sockets + 1 }
    | some exc =>
      if s.deadline ≤ s.clock then some { s with attach := .failed (.noAnswer dataPort timeout s.attempts exc) }
      else some { s with attach := .sleeping (s.clock + retryDelay) }
  | .sleeping wake =>
    if wake ≤ s.clock then
      some { s with attach := .askingData s.sockets, attempts := s.attempts + 1, sockets := s.sockets + 1 }
    else none
  | .answeredCtrl data ctrl answer =>
    match connect ctrlPort answer with
    | none => some { s with attach := .resizing data ctrl }
    | some exc => some { s with attach := .failed exc }
  | .resizing data ctrl =>
    some { s with attach := .attached data ctrl, sent := s.sent ++ [(ctrl, resizeLine width height)] }
  | _ => none

end Boot

open Boot

def step (timeout : Nat) (width height : Int) (s : Boot) : Event → Option Boot
  | .passes time => some { s with clock := s.clock + time }
  | .agentRuns => s.agentRuns
  | .acknowledges assigned => s.acknowledges assigned
  | .refuses exc => s.refuses exc
  | .attachRuns => s.attachRuns timeout width height

def machine (timeout : Nat) (width height : Int) : Machine Boot Event where
  init := .start
  step := step timeout width height

/-! ## What an answer comes to -/

theorem readAck_ackLine (assigned : UInt32) :
    readAck (ackLine assigned) = ascii "OK" ++ 32 :: ascii (toString (assigned.toNat : Int)) := by
  have hsplit : ackLine assigned = (ascii "OK" ++ 32 :: ascii (toString (assigned.toNat : Int))) ++ [10] := by
    rw [ackLine, ascii_append, ascii_append]
    rfl
  have hlength : (ackLine assigned).length ≤ maxAck := by
    have hdigits := Firecracker.length_toString_le (n := (assigned.toNat : Int)) (k := 10) (by decide)
      (Nat.lt_trans assigned.toNat_lt (by decide))
    rw [hsplit]
    simp only [ascii, List.length_append, List.length_cons, List.length_map, List.length_nil] at hdigits ⊢
    exact Nat.le_trans (Nat.add_le_add_right (Nat.add_le_add_left (Nat.succ_le_succ hdigits) _) 1) (by decide)
  rw [readAck, List.take_of_length_le hlength, hsplit, List.takeWhile_append_of_pos]
  · exact List.append_nil _
  · intro b hb
    refine decide_eq_true fun hnewline ↦ ?_
    rcases List.mem_append.mp hb with hb | hb
    · exact absurd (hnewline ▸ hb) (by decide)
    · rcases List.mem_cons.mp hb with rfl | hb
      · cases hnewline
      · rw [hnewline] at hb
        cases Firecracker.isSpaceByte_numeral 10 hb

theorem connect_ackLine (port : Nat) (assigned : UInt32) : connect port (.reply (ackLine assigned)) = none := by
  have hdigits := Firecracker.length_toString_le (n := (assigned.toNat : Int)) (k := 10) (by decide)
    (Nat.lt_trans assigned.toNat_lt (by decide))
  have hack : parseAck (readAck (ackLine assigned)) = some (assigned.toNat : Int) := by
    rw [readAck_ackLine, parseAck, if_pos (by rfl)]
    exact (congrArg bytesInt (strip_eq_self Firecracker.isSpaceByte_numeral)).trans
      (Firecracker.bytesInt_ascii (Nat.le_trans hdigits (by decide)))
  rw [connect, hack]
  rfl

theorem connect_refusal (port : Nat) (exc : Option String) : (connect port (refusal exc)).isSome = true := by
  cases exc with
  | none => rfl
  | some exc => rfl

/-! ## The steps -/

inductive Step (timeout : Nat) (width height : Int) (s : Boot) : Event → Boot → Prop
  | passes {time : Nat} : Step timeout width height s (.passes time) { s with clock := s.clock + time }
  -- the agent
  | bindsData (hagent : s.agent = .starting) :
      Step timeout width height s .agentRuns { s with agent := .boundData }
  | bindsCtrl (hagent : s.agent = .boundData) :
      Step timeout width height s .agentRuns { s with agent := .acceptingData, boundAt := some s.clock }
  | acceptsData {data : Nat} {rest : List Nat} (hagent : s.agent = .acceptingData)
      (hbacklog : s.dataBacklog = data :: rest) :
      Step timeout width height s .agentRuns { s with agent := .acceptingCtrl data, dataBacklog := rest }
  | acceptsCtrl {data ctrl : Nat} {rest : List Nat} (hagent : s.agent = .acceptingCtrl data)
      (hbacklog : s.ctrlBacklog = ctrl :: rest) : Step timeout width height s .agentRuns
        { s with agent := .serving data ctrl, ctrlBacklog := rest, served := s.served ++ [(data, ctrl)] }
  | returns {data ctrl : Nat} (hagent : s.agent = .serving data ctrl) :
      Step timeout width height s .agentRuns { s with agent := .acceptingData }
  -- the device
  | acksData {assigned : UInt32} {data : Nat} (hattach : s.attach = .askingData data)
      (hbound : s.dataBound = true) : Step timeout width height s (.acknowledges assigned) { s with
        attach := .answeredData data (.reply (ackLine assigned)) s.clock, dataBacklog := s.dataBacklog ++ [data] }
  | acksCtrl {assigned : UInt32} {data ctrl : Nat} (hattach : s.attach = .askingCtrl data ctrl)
      (hbound : s.ctrlBound = true) : Step timeout width height s (.acknowledges assigned) { s with
        attach := .answeredCtrl data ctrl (.reply (ackLine assigned)), ctrlBacklog := s.ctrlBacklog ++ [ctrl] }
  | refusesData {exc : Option String} {data : Nat} (hattach : s.attach = .askingData data)
      (hbound : s.dataBound = false) : Step timeout width height s (.refuses exc)
        { s with attach := .answeredData data (refusal exc) s.clock }
  | refusesCtrl {exc : Option String} {data ctrl : Nat} (hattach : s.attach = .askingCtrl data ctrl)
      (hbound : s.ctrlBound = false) : Step timeout width height s (.refuses exc)
        { s with attach := .answeredCtrl data ctrl (refusal exc) }
  -- the host
  | begins (hattach : s.attach = .starting) : Step timeout width height s .attachRuns { s with
      attach := .askingData s.sockets, deadline := s.clock + timeout, attempts := 1, sockets := s.sockets + 1 }
  | connectsData {data time : Nat} {answer : Answer} (hattach : s.attach = .answeredData data answer time)
      (hanswer : connect dataPort answer = none) : Step timeout width height s .attachRuns
        { s with attach := .askingCtrl data s.sockets, sockets := s.sockets + 1 }
  | givesUp {data time : Nat} {answer : Answer} {exc : VsockError}
      (hattach : s.attach = .answeredData data answer time) (hanswer : connect dataPort answer = some exc)
      (hlate : s.deadline ≤ s.clock) : Step timeout width height s .attachRuns
        { s with attach := .failed (.noAnswer dataPort timeout s.attempts exc) }
  | waits {data time : Nat} {answer : Answer} {exc : VsockError} (hattach : s.attach = .answeredData data answer time)
      (hanswer : connect dataPort answer = some exc) (hearly : s.clock < s.deadline) :
      Step timeout width height s .attachRuns { s with attach := .sleeping (s.clock + retryDelay) }
  | retries {wake : Nat} (hattach : s.attach = .sleeping wake) (hwake : wake ≤ s.clock) :
      Step timeout width height s .attachRuns
        { s with attach := .askingData s.sockets, attempts := s.attempts + 1, sockets := s.sockets + 1 }
  | connectsCtrl {data ctrl : Nat} {answer : Answer} (hattach : s.attach = .answeredCtrl data ctrl answer)
      (hanswer : connect ctrlPort answer = none) :
      Step timeout width height s .attachRuns { s with attach := .resizing data ctrl }
  | fails {data ctrl : Nat} {answer : Answer} {exc : VsockError} (hattach : s.attach = .answeredCtrl data ctrl answer)
      (hanswer : connect ctrlPort answer = some exc) :
      Step timeout width height s .attachRuns { s with attach := .failed exc }
  | attaches {data ctrl : Nat} (hattach : s.attach = .resizing data ctrl) : Step timeout width height s .attachRuns
      { s with attach := .attached data ctrl, sent := s.sent ++ [(ctrl, resizeLine width height)] }

section

variable {timeout : Nat} {width height : Int} {s t : Boot} {e : Event}

theorem agentRuns_step (h : s.agentRuns = some t) : Step timeout width height s .agentRuns t := by
  unfold Boot.agentRuns at h
  split at h
  · cases h
    exact .bindsData ‹_›
  · cases h
    exact .bindsCtrl ‹_›
  · split at h <;> cases h
    exact .acceptsData ‹_› ‹_›
  · split at h <;> cases h
    exact .acceptsCtrl ‹_› ‹_›
  · cases h
    exact .returns ‹_›

theorem attachRuns_step (h : s.attachRuns timeout width height = some t) :
    Step timeout width height s .attachRuns t := by
  unfold Boot.attachRuns at h
  split at h
  · cases h
    exact .begins ‹_›
  · split at h
    · cases h
      exact .connectsData ‹_› ‹_›
    · split at h <;> cases h
      · exact .givesUp ‹_› ‹_› ‹_›
      · exact .waits ‹_› ‹_› (Nat.lt_of_not_le ‹_›)
  · split at h <;> cases h
    exact .retries ‹_› ‹_›
  · split at h <;> cases h
    · exact .connectsCtrl ‹_› ‹_›
    · exact .fails ‹_› ‹_›
  · cases h
    exact .attaches ‹_›
  · cases h

theorem step_step (h : step timeout width height s e = some t) : Step timeout width height s e t := by
  cases e with
  | passes time =>
    cases h
    exact .passes
  | agentRuns => exact agentRuns_step h
  | acknowledges assigned =>
    simp only [step, Boot.acknowledges] at h
    split at h
    · split at h <;> cases h
      exact .acksData ‹_› ‹_›
    · split at h <;> cases h
      exact .acksCtrl ‹_› ‹_›
    · cases h
  | refuses exc =>
    simp only [step, Boot.refuses] at h
    split at h
    · split at h <;> cases h
      exact .refusesData ‹_› (by simpa using ‹¬ s.dataBound = true›)
    · split at h <;> cases h
      exact .refusesCtrl ‹_› (by simpa using ‹¬ s.ctrlBound = true›)
    · cases h
  | attachRuns => exact attachRuns_step h

end

end Keycard.Vsock
