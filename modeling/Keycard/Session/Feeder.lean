import Keycard.Session.RoomSession

/-!
# The feeder, and the socket of the room

`_feed` is a task of its own beside the pump: while the pump waits in `room.read()`, the feeder may wait
in `room.write()`, on the same data socket.  `pause()` and `destroy()` close that socket, which neither
wakes a call that waits on it nor takes its registration back from the event loop.
-/

open Reasoning

namespace Keycard.Session

abbrev Bytes := List UInt8

/-- `DockerRoom.destroy` closes the attachment before its first `await`, `FirecrackerRoom.destroy` when
the exit watch has ended; `pause` closes it at once in both. -/
class AttachedRoom (ρ : Type) extends Room ρ where
  closesFirst : ρ → Bool

instance : AttachedRoom BuiltRoom where
  closesFirst
    | .docker _ => true
    | .firecracker _ => false

instance {ρ : Type} [AttachedRoom ρ] : AttachedRoom (RoutedRoom ρ) where
  closesFirst room := AttachedRoom.closesFirst room.inner

/-- `INPUT_BACKLOG` -/
def inputBacklog : Nat := 512

/-- `room.read()`: an `OSError` or a `CancelledError` in `sock_recv` is the end of the stream. -/
def read : Reply Bool → Reply Bool
  | .returned more => .returned more
  | .raised => .returned false
  | .cancelled => .returned false

/-- Where `_feed` suspends; `back` says that the `sock_sendall` has come back. -/
inductive FeedPoint where
  | getting
  | writing (data : Bytes) (back : Bool)
deriving DecidableEq, Repr

/-- What was still waiting on the socket when it was closed. -/
structure Closing where
  reading : Bool
  writing : Bool
deriving DecidableEq, Repr

/-- A `RoomSession` with its input, its feeder and the data socket of its room. -/
structure FedSession (ρ κ : Type) where
  session : RoomSession ρ κ
  input : List Bytes
  feeder : Option (LoopTask FeedPoint)
  /-- `self._feeder` still refers to the task -/
  held : Bool
  /-- the `sock_recv` of the pump has come back -/
  readBack : Bool
  /-- what was passed to `room.write` -/
  writes : List Bytes
  closed : Bool
  closings : List Closing
deriving DecidableEq, Repr

namespace FedSession

variable {ρ κ : Type}

def initial : FedSession ρ κ where
  session := .initial
  input := []
  feeder := none
  held := false
  readBack := false
  writes := []
  closed := false
  closings := []

/-- The pump is in its read loop, and nobody has cancelled it. -/
def reads (s : RoomSession ρ κ) : Bool :=
  match s.pump with
  | some (.suspended (.reading _) false) => true
  | _ => false

/-- `sock_recv` is registered: a cancelled one no longer is. -/
def readPending (s : FedSession ρ κ) : Bool :=
  reads s.session && !s.readBack

def writePending (s : FedSession ρ κ) : Bool :=
  match s.feeder with
  | some (.suspended (.writing _ false) false) => true
  | _ => false

/-- `_close_attachment` -/
def closeAttachment (s : FedSession ρ κ) : FedSession ρ κ :=
  { s with closed := true, closings := s.closings ++ [⟨s.readPending, s.writePending⟩] }

/-- `data_received`: past the backlog the newest chunk is dropped. -/
def dataReceived (s : FedSession ρ κ) (data : Bytes) : FedSession ρ κ :=
  if s.input.length < inputBacklog then { s with input := s.input ++ [data] } else s

/-- `_stop_feeder` -/
def stopFeeder (s : FedSession ρ κ) : FedSession ρ κ :=
  if s.held then { s with feeder := s.feeder.map LoopTask.cancel, held := false } else s

/-- `self._feeder = asyncio.create_task(self._feed(room))`, and the first `room.read()` -/
def startFeeder (s : FedSession ρ κ) : FedSession ρ κ :=
  { s with feeder := some (.created false), held := true, readBack := s.closed }

/-- The next `room.read()`; on a closed socket it comes back at once. -/
def readAgain (s : FedSession ρ κ) : FedSession ρ κ :=
  { s with readBack := s.closed }

/-! ## The feeder -/

/-- `data = await self._input.get()`, then `await room.write(data)` up to its suspension -/
def feed (s : FedSession ρ κ) (data : Bytes) (rest : List Bytes) : FedSession ρ κ :=
  { s with
    input := rest
    writes := s.writes ++ [data]
    feeder := some (.suspended (.writing data s.closed) false) }

def endFeeder (s : FedSession ρ κ) : FedSession ρ κ :=
  { s with feeder := some (.ended .cancelled) }

def runFeeder (s : FedSession ρ κ) : Option (FedSession ρ κ) :=
  match s.feeder with
  | some (.created true) => some s.endFeeder
  | some (.created false) => some { s with feeder := some (.suspended .getting false) }
  | some (.suspended _ true) => some s.endFeeder
  | some (.suspended .getting false) =>
    match s.input with
    | [] => none
    | data :: rest => some (s.feed data rest)
  -- `room.write` swallows an `OSError`
  | some (.suspended (.writing _ true) false) => some { s with feeder := some (.suspended .getting false) }
  | _ => none

/-! ## What the steps of the session do to the feeder and the socket -/

/-- The call a step has just made closes the socket before it suspends. -/
def closesNow [AttachedRoom ρ] (t : RoomSession ρ κ) : Event ρ κ → Bool
  | .teardownStarts | .keepEnds _ =>
    match t.teardown with
    | some { task := .suspended (.pausing _) _, .. } => true
    | some { task := .suspended (.destroying room) _, .. } => AttachedRoom.closesFirst room
    | _ => false
  | .openEnds _ _ =>
    match t.pump with
    | some (.suspended (.checkingOut room) _) => AttachedRoom.closesFirst room
    | _ => false
  | _ => false

/-- What `e` does here besides taking the session to `t`. -/
def follow [AttachedRoom ρ] (s : FedSession ρ κ) (e : Event ρ κ) (t : RoomSession ρ κ) :
    FedSession ρ κ :=
  let s := { s with session := t }
  match e with
  | .connectionLost => s.stopFeeder
  | .openEnds _ _ =>
    if reads t then s.startFeeder
    else if closesNow t e then s.closeAttachment else s
  -- the `finally` of the read loop stops the feeder
  | .readEnds _ _ => if reads t then s.readAgain else s.stopFeeder
  | .teardownStarts | .keepEnds _ => if closesNow t e then s.closeAttachment else s
  | _ => s

/-- The firecracker room that is being destroyed has yet to close its attachment. -/
def closesLater [AttachedRoom ρ] (s : FedSession ρ κ) : Bool :=
  match s.session.teardown, s.session.pump with
  | some { task := .suspended (.destroying room) _, .. }, _ => !AttachedRoom.closesFirst room
  | _, some (.suspended (.checkingOut room) _) => !AttachedRoom.closesFirst room
  | _, _ => false

end FedSession

inductive FedEvent (ρ κ : Type) where
  | session (e : Event ρ κ)
  /-- the pump is resumed with what `sock_recv` came back with -/
  | readEnds (sock : Reply Bool) (broken : Bool)
  | dataReceived (data : Bytes)
  | feederRuns
  | readComesBack
  | writeComesBack
  | attachmentCloses
deriving DecidableEq, Repr

namespace FedSession

variable {ρ κ : Type}

/-- What can come out of a `sock_recv`: a cancellation always does, and nothing else before it has come
back. -/
def mayRead (s : FedSession ρ κ) (sock : Reply Bool) : Bool :=
  match s.session.pump with
  | some (.suspended (.reading _) c) => if c then sock = .cancelled else s.readBack && sock ≠ .cancelled
  | _ => false

/-- `destroy()` gets past the close of the attachment unless an exception leaves it before. -/
def mayEnd (s : FedSession ρ κ) (e : Event ρ κ) : Bool :=
  match e with
  | .destroyEnds reply => s.closed || reply = .raised
  | .lateDestroyEnds reply => s.closed || reply = .raised
  -- see `FedEvent.readEnds`
  | .readEnds _ _ => false
  | _ => true

def step [AttachedRoom ρ] (cfg : SessionConfig) (s : FedSession ρ κ) :
    FedEvent ρ κ → Option (FedSession ρ κ)
  | .session e => if s.mayEnd e then (Session.step cfg s.session e).map (s.follow e) else none
  | .readEnds sock broken =>
    if s.mayRead sock then
      (Session.step cfg s.session (.readEnds (read sock) broken)).map (s.follow (.readEnds (read sock) broken))
    else none
  | .dataReceived data => some (s.dataReceived data)
  | .feederRuns => s.runFeeder
  -- nothing comes back from a socket that is closed
  | .readComesBack => if s.readPending && !s.closed then some { s with readBack := true } else none
  | .writeComesBack =>
    match s.feeder with
    | some (.suspended (.writing data false) false) =>
      if s.closed then none else some { s with feeder := some (.suspended (.writing data true) false) }
    | _ => none
  | .attachmentCloses => if s.closesLater && !s.closed then some s.closeAttachment else none

def machine (ρ κ : Type) [AttachedRoom ρ] (cfg : SessionConfig) :
    Machine (FedSession ρ κ) (FedEvent ρ κ) where
  init := .initial
  step := step cfg

end FedSession

end Keycard.Session
