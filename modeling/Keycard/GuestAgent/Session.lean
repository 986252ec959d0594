import Keycard.Reasoning.Machine
import Keycard.Reasoning.Spawned

/-!
# The session of the guest agent

One shell on a pty, and the connections that attach to it one after another.  The agent's tasks run on
several threads: the pump and the writer of the pty, two readers for each connection, the task that waits
for the shell to exit, and the accept loop with `serve` and `attach`.  A step of the model is what one of
them does up to its next `await` on the others or on the host.

The slots `data_out` and `ctrl_out` are behind locks of their own.  Only the pump holds the first across
an `await`, and only the exit task the second, both while they write to the host; every other use of a
slot is one step that needs its lock to be free.
-/

open Reasoning

namespace Keycard.GuestAgent

abbrev Bytes := List UInt8

/-- `BUF_SIZE` -/
def bufSize : Nat := 8192

/-- `INPUT_QUEUE` -/
def inputQueue : Nat := 64

structure Winsize where
  rows : UInt16
  cols : UInt16
deriving DecidableEq, Repr

/-- `FALLBACK_ROWS`, `FALLBACK_COLS` -/
def fallbackSize : Winsize := ⟨24, 80⟩

inductive Channel where
  | data
  | ctrl
deriving DecidableEq, Repr

/-- A channel of a connection; connections are counted in the order in which they are handed to the
session.  It also names the task that reads from it. -/
structure Stream where
  conn : Nat
  channel : Channel
deriving DecidableEq, Repr

/-- The host's end of a stream: what the agent has written to it, and how much of that was taken. -/
structure HostEnd where
  written : Bytes
  taken : Nat
  /-- closed or reset, so that a write fails -/
  gone : Bool
  /-- the agent has shut down its own direction -/
  shut : Bool
deriving DecidableEq, Repr

namespace HostEnd

def fresh : HostEnd := ⟨[], 0, false, false⟩

def unread (h : HostEnd) : Nat :=
  h.written.length - h.taken

/-- How much can be written before a write has to wait for the host. -/
def space (window : Nat) (h : HostEnd) : Nat :=
  window - h.unread

/-- One round of `write_all` gets `n` bytes of `rest` through. -/
def accepts (window : Nat) (h : HostEnd) (n : Nat) (rest : Bytes) : Bool :=
  0 < n && n ≤ rest.length && n ≤ h.space window && !h.gone

def receive (h : HostEnd) (bs : Bytes) : HostEnd :=
  { h with written := h.written ++ bs }

end HostEnd

/-- Where a reader suspends; the one of a control channel only reads. -/
inductive ReadPoint where
  | reading
  | sending (chunk : Bytes)
deriving DecidableEq, Repr

/-- Where `pump_out` suspends; while it writes it holds the lock of `data_out`. -/
inductive PumpPoint where
  | reading
  | locking (chunk : Bytes)
  | writing (rest : Bytes)
deriving DecidableEq, Repr

/-- The task that feeds the queued input to the pty. -/
inductive PtyWriter where
  | receiving
  | writing (rest : Bytes)
  | ended
deriving DecidableEq, Repr

/-- The next point of a `write_all` that has `rest` still to write. -/
def PumpPoint.next : Bytes → PumpPoint
  | [] => .reading
  | b :: rest => .writing (b :: rest)

def PtyWriter.next : Bytes → PtyWriter
  | [] => .receiving
  | b :: rest => .writing (b :: rest)

/-- How far a call of `detach` is.  The first reader of `joining` has been aborted. -/
inductive Detach where
  | taking
  | joining (readers : List Stream)
  | clearingData
  | clearingCtrl
deriving DecidableEq, Repr

/-- The task that waits for the shell; while it reports it holds the lock of `ctrl_out`. -/
inductive ExitTask where
  | waiting
  | reaped (code : Int32)
  | draining (code : Int32)
  | joining (code : Int32)
  | locking (code : Int32)
  | reporting (rest : Bytes)
  | detaching (d : Detach)
  | done
deriving DecidableEq, Repr

inductive AttachPoint where
  | detaching (d : Detach)
  | installingData
  | installingCtrl
  | spawning
  | registering
deriving DecidableEq, Repr

/-- Who has the `Session`. -/
inductive Holder where
  /-- `serve` has found it running, or has just started it, and attaches `conn` to it -/
  | attaching (conn : Nat) (point : AttachPoint)
  /-- the accept loop, waiting for the next connection -/
  | accepting
  /-- `serve` has found it finished, and gives the connection to another session -/
  | replaced
  | dropped
deriving DecidableEq, Repr

structure Session where
  running : Bool
  exitTask : ExitTask
  pump : Spawned PumpPoint
  ptyWriter : PtyWriter
  input : List Bytes
  dataOut : Option Nat
  ctrlOut : Option Nat
  tasks : Tasks Stream ReadPoint
  readers : List Stream
  holder : Holder
  /-- how many connections it has been handed -/
  conns : Nat
  winsize : Winsize
  host : Stream → HostEnd
  /-- what was read from the pty -/
  output : Bytes
  /-- what was written to the pty -/
  typed : Bytes
  /-- what the data reader of a connection has read -/
  received : Nat → Bytes

inductive Event where
  /-- `child.wait()` is over -/
  | shellExits (code : Int32)
  | hostTakes (x : Stream) (n : Nat)
  | hostLeaves (x : Stream)
  /-- `none` is the end of the pty, or an error -/
  | pumpReads (reply : Option Bytes)
  | pumpLocks
  | pumpWrites (n : Nat)
  | pumpWriteFails
  | pumpDropped
  | writerReceives
  | writerWrites (n : Nat)
  | writerFails
  | writerEnds
  | dataReads (conn : Nat) (reply : Option Bytes)
  | dataSends (conn : Nat)
  /-- what `parse_resize` makes of the next line, if there is one -/
  | ctrlReads (conn : Nat) (line : Option (Option Winsize))
  | readerDropped (x : Stream)
  | exitRuns
  | exitWrites (n : Nat)
  | exitWriteFails
  /-- the accept loop has the next pair of connections -/
  | serves
  | attachRuns
  | sessionDropped
deriving DecidableEq, Repr

namespace Session

/-- `Session::start`; `serve` goes on to attach the connection it was started for. -/
def start : Session where
  running := true
  exitTask := .waiting
  pump := .alive .reading false
  ptyWriter := .receiving
  input := []
  dataOut := none
  ctrlOut := none
  tasks := fun _ ↦ none
  readers := []
  holder := .attaching 0 (.detaching .taking)
  conns := 1
  winsize := fallbackSize
  host := fun _ ↦ .fresh
  output := []
  typed := []
  received := fun _ ↦ []

def dataLocked (s : Session) : Bool :=
  match s.pump with
  | .alive (.writing _) _ => true
  | _ => false

def ctrlLocked (s : Session) : Bool :=
  match s.exitTask with
  | .reporting _ => true
  | _ => false

def setHost (s : Session) (x : Stream) (h : HostEnd) : Session :=
  { s with host := Function.update s.host x h }

def deliver (s : Session) (x : Stream) (bs : Bytes) : Session :=
  s.setHost x ((s.host x).receive bs)

def setReader (s : Session) (x : Stream) (t : Spawned ReadPoint) : Session :=
  { s with tasks := s.tasks.set x t }

/-- `take_readers`, and the abort of the first of them. -/
def takeReaders (s : Session) : Session :=
  { s with tasks := s.tasks.abortHead s.readers, readers := [] }

/-- `detach`, one suspension after another; `none` beside the new state is its return. -/
def detach (s : Session) : Detach → Option (Session × Option Detach)
  | .taking => some (s.takeReaders, some (.joining s.readers))
  | .joining [] => some (s, some .clearingData)
  | .joining (x :: rest) =>
    if s.tasks.isEnded x then
      some ({ s with tasks := s.tasks.abortHead rest }, some (.joining rest))
    else none
  | .clearingData => if s.dataLocked then none else some ({ s with dataOut := none }, some .clearingCtrl)
  | .clearingCtrl => if s.ctrlLocked then none else some ({ s with ctrlOut := none }, none)

/-! ## The tasks of the pty -/

/-- A read fills at most the buffer, and is never empty before the end. -/
def isChunk (chunk : Bytes) : Bool :=
  0 < chunk.length && chunk.length ≤ bufSize

def pumpReads (s : Session) (reply : Option Bytes) : Option Session :=
  match s.pump with
  | .alive .reading c =>
    match reply with
    | none => some { s with pump := .ended }
    | some chunk =>
      if isChunk chunk then
        some { s with pump := .alive (.locking chunk) c, output := s.output ++ chunk }
      else none
  | _ => none

/-- What is read while nobody is attached is discarded. -/
def pumpLocks (s : Session) : Option Session :=
  match s.pump with
  | .alive (.locking chunk) c =>
    match s.dataOut with
    | none => some { s with pump := .alive .reading c }
    | some _ => some { s with pump := .alive (.writing chunk) c }
  | _ => none

def pumpWrites (window : Nat) (s : Session) (n : Nat) : Option Session :=
  match s.pump, s.dataOut with
  | .alive (.writing rest) c, some k =>
    if (s.host ⟨k, .data⟩).accepts window n rest then
      some { s.deliver ⟨k, .data⟩ (rest.take n) with pump := .alive (.next (rest.drop n)) c }
    else none
  | _, _ => none

/-- A failed write means that the connection is gone, not that the session is. -/
def pumpWriteFails (s : Session) : Option Session :=
  match s.pump, s.dataOut with
  | .alive (.writing _) c, some k =>
    if (s.host ⟨k, .data⟩).gone then some { s with pump := .alive .reading c, dataOut := none } else none
  | _, _ => none

def pumpDropped (s : Session) : Option Session :=
  match s.pump with
  | .alive _ true => some { s with pump := .ended }
  | _ => none

def writerReceives (s : Session) : Option Session :=
  match s.ptyWriter, s.input with
  | .receiving, chunk :: rest => some { s with ptyWriter := .next chunk, input := rest }
  | _, _ => none

def writerWrites (s : Session) (n : Nat) : Option Session :=
  match s.ptyWriter with
  | .writing rest =>
    if 0 < n && n ≤ rest.length then
      some { s with ptyWriter := .next (rest.drop n), typed := s.typed ++ rest.take n }
    else none
  | _ => none

def writerFails (s : Session) : Option Session :=
  match s.ptyWriter with
  | .writing _ => some { s with ptyWriter := .ended }
  | _ => none

/-- `rx.recv()` comes back with nothing when the session and every reader's sender are gone. -/
def writerEnds (s : Session) : Option Session :=
  if s.holder = .dropped && s.ptyWriter = .receiving && s.input.isEmpty &&
      (List.range s.conns).all fun k ↦ s.tasks.isEnded ⟨k, .data⟩ then
    some { s with ptyWriter := .ended }
  else none

/-! ## The readers of a connection -/

def dataReads (s : Session) (conn : Nat) (reply : Option Bytes) : Option Session :=
  match s.tasks ⟨conn, .data⟩ with
  | some (.alive .reading c) =>
    match reply with
    | none => some (s.setReader ⟨conn, .data⟩ .ended)
    | some chunk =>
      if isChunk chunk then
        some { s.setReader ⟨conn, .data⟩ (.alive (.sending chunk) c) with
          received := Function.update s.received conn (s.received conn ++ chunk) }
      else none
  | _ => none

/-- `input.send` waits for a place in the queue, and fails when nobody receives any more. -/
def dataSends (s : Session) (conn : Nat) : Option Session :=
  match s.tasks ⟨conn, .data⟩ with
  | some (.alive (.sending chunk) c) =>
    if s.ptyWriter = .ended then some (s.setReader ⟨conn, .data⟩ .ended)
    else if s.input.length < inputQueue then
      some { s.setReader ⟨conn, .data⟩ (.alive .reading c) with input := s.input ++ [chunk] }
    else none
  | _ => none

def ctrlReads (s : Session) (conn : Nat) (line : Option (Option Winsize)) : Option Session :=
  match s.tasks ⟨conn, .ctrl⟩ with
  | some (.alive .reading _) =>
    match line with
    | none => some (s.setReader ⟨conn, .ctrl⟩ .ended)
    -- checked because the fd belongs to a pty that only exists while the shell does
    | some resize => some { s with winsize := if s.running then resize.getD s.winsize else s.winsize }
  | _ => none

def readerDropped (s : Session) (x : Stream) : Option Session :=
  match s.tasks x with
  | some (.alive _ true) => some (s.setReader x .ended)
  | _ => none

/-! ## The exit of the shell -/

/-- `format!("exit {code}\n")` -/
def exitLine (code : Int32) : Bytes :=
  ("exit " ++ toString code.toInt ++ "\n").toList.map fun c ↦ c.toUInt8

def exitRuns (s : Session) : Option Session :=
  match s.exitTask with
  | .waiting => none
  | .reaped code => some { s with running := false, exitTask := .draining code }
  -- the sleep is over
  | .draining code => some { s with pump := s.pump.abort, exitTask := .joining code }
  | .joining code => if s.pump = .ended then some { s with exitTask := .locking code } else none
  | .locking code =>
    match s.ctrlOut with
    | none => some { s with exitTask := .detaching .taking }
    | some _ => some { s with exitTask := .reporting (exitLine code) }
  | .reporting [] =>
    match s.ctrlOut with
    | none => none
    | some k =>
      some { s.setHost ⟨k, .ctrl⟩ { s.host ⟨k, .ctrl⟩ with shut := true } with exitTask := .detaching .taking }
  | .reporting _ => none
  | .detaching d =>
    (s.detach d).map fun (t, next) ↦ { t with exitTask := next.elim .done .detaching }
  | .done => none

def exitWrites (window : Nat) (s : Session) (n : Nat) : Option Session :=
  match s.exitTask, s.ctrlOut with
  | .reporting rest, some k =>
    if (s.host ⟨k, .ctrl⟩).accepts window n rest then
      some { s.deliver ⟨k, .ctrl⟩ (rest.take n) with exitTask := .reporting (rest.drop n) }
    else none
  | _, _ => none

/-- An error is ignored. -/
def exitWriteFails (s : Session) : Option Session :=
  match s.exitTask, s.ctrlOut with
  | .reporting (_ :: _), some k =>
    if (s.host ⟨k, .ctrl⟩).gone then some { s with exitTask := .reporting [] } else none
  | _, _ => none

/-! ## The accept loop -/

/-- `is_running` decides whether the next connection is handed to this session. -/
def serves (s : Session) : Option Session :=
  match s.holder with
  | .accepting =>
    if s.running then
      some { s with holder := .attaching s.conns (.detaching .taking), conns := s.conns + 1 }
    else some { s with holder := .replaced }
  | _ => none

def attachRuns (s : Session) : Option Session :=
  match s.holder with
  | .attaching k (.detaching d) =>
    (s.detach d).map fun (t, next) ↦
      { t with holder := .attaching k (next.elim .installingData .detaching) }
  | .attaching k .installingData =>
    if s.dataLocked then none else some { s with dataOut := some k, holder := .attaching k .installingCtrl }
  | .attaching k .installingCtrl =>
    if s.ctrlLocked then none else some { s with ctrlOut := some k, holder := .attaching k .spawning }
  | .attaching k .spawning =>
    some { (s.setReader ⟨k, .data⟩ (.alive .reading false)).setReader ⟨k, .ctrl⟩ (.alive .reading false) with
      holder := .attaching k .registering }
  | .attaching k .registering =>
    some { s with readers := s.readers ++ [⟨k, .data⟩, ⟨k, .ctrl⟩], holder := .accepting }
  | _ => none

/-- The readers are aborted, but `drop` cannot wait for them. -/
def drop (s : Session) : Option Session :=
  match s.holder with
  | .replaced =>
    some { s with tasks := s.tasks.abortAll s.readers, readers := [], holder := .dropped }
  | _ => none

end Session

open Session

def step (window : Nat) (s : Session) : Event → Option Session
  | .shellExits code => if s.exitTask = .waiting then some { s with exitTask := .reaped code } else none
  | .hostTakes x n =>
    if 0 < n && n ≤ (s.host x).unread then
      some (s.setHost x { s.host x with taken := (s.host x).taken + n })
    else none
  | .hostLeaves x => some (s.setHost x { s.host x with gone := true })
  | .pumpReads reply => s.pumpReads reply
  | .pumpLocks => s.pumpLocks
  | .pumpWrites n => s.pumpWrites window n
  | .pumpWriteFails => s.pumpWriteFails
  | .pumpDropped => s.pumpDropped
  | .writerReceives => s.writerReceives
  | .writerWrites n => s.writerWrites n
  | .writerFails => s.writerFails
  | .writerEnds => s.writerEnds
  | .dataReads conn reply => s.dataReads conn reply
  | .dataSends conn => s.dataSends conn
  | .ctrlReads conn line => s.ctrlReads conn line
  | .readerDropped x => s.readerDropped x
  | .exitRuns => s.exitRuns
  | .exitWrites n => s.exitWrites window n
  | .exitWriteFails => s.exitWriteFails
  | .serves => s.serves
  | .attachRuns => s.attachRuns
  | .sessionDropped => s.drop

/-- `window` is how much a stream holds that the host has yet to take. -/
def machine (window : Nat) : Machine Session Event where
  init := .start
  step := step window

end Keycard.GuestAgent
