import Keycard.Backends.ControlChannel
import Keycard.Session.ExitStatus

/-!
# The exit status of a guest

What `FirecrackerRoom.destroy` returns is a number that the guest has written to the control channel, and
`_run` passes it to `chan.exit`.  An exit status goes over the wire as an unsigned 32-bit integer; any other
number raises an `OverflowError` there, which the handler of `_run` does not catch.
-/

open Reasoning

namespace Keycard

/-! ## From the control channel to `destroy` -/

namespace Firecracker

/-- What `_watch_exit` has left in `_exit_status`. -/
def Watch.status : Watch → Option Int
  | .ended status => status
  | .receiving _ => none

def exitStatus (received : List Recv) : Option Int :=
  (watchExit received).status

/-- What `destroy` returns. -/
def destroyStatus (received : List Recv) : Int :=
  (exitStatus received).getD 0

/-- All that arrives before the stream ends, or reading it fails. -/
def heard : List Recv → Bytes
  | .data (b :: chunk) :: received => b :: chunk ++ heard received
  | _ => []

theorem heard_nil {buffer : Bytes} (hbuffer : newline ∉ buffer) :
    (lines newline (buffer ++ [])).1.findSome? parseExit = none := by
  rw [List.append_nil, lines_of_not_mem hbuffer]
  rfl

theorem foldl_recv_heard {buffer : Bytes} (hbuffer : newline ∉ buffer) (received : List Recv) :
    (received.foldl Watch.recv (.receiving buffer)).status =
      (lines newline (buffer ++ heard received)).1.findSome? parseExit := by
  induction received generalizing buffer with
  | nil => exact (heard_nil hbuffer).symm
  | cons r received ih =>
    rcases r with (_ | ⟨b, chunk⟩) | _
    · -- the end of the stream
      show (received.foldl Watch.recv (.ended none)).status = _
      rw [foldl_recv_ended]
      exact (heard_nil hbuffer).symm
    · -- a chunk: either a line in it is accepted, or the rest of it is the new buffer
      show (received.foldl Watch.recv (scan (buffer ++ b :: chunk))).status =
        (lines newline (buffer ++ (b :: chunk ++ heard received))).1.findSome? parseExit
      rw [scan_eq, ← List.append_assoc, lines_append (buffer ++ b :: chunk), verdict, List.findSome?_append]
      cases (lines newline (buffer ++ b :: chunk)).1.findSome? parseExit with
      | some status =>
        show (received.foldl Watch.recv (.ended (some status))).status = some status
        rw [foldl_recv_ended]
        rfl
      | none => exact ih (not_mem_left _ _)
    · -- an `OSError`
      show (received.foldl Watch.recv (.ended none)).status = _
      rw [foldl_recv_ended]
      exact (heard_nil hbuffer).symm

/-- The status is that of the first complete line which `parse_exit` accepts. -/
theorem exitStatus_eq (received : List Recv) :
    exitStatus received = (lines newline (heard received)).1.findSome? parseExit :=
  foldl_recv_heard List.not_mem_nil received

/-- `UInt32(status)` of asyncssh does not raise. -/
def Encodes (status : Int) : Prop :=
  0 ≤ status ∧ status < 2 ^ 32

instance (status : Int) : Decidable (Encodes status) :=
  inferInstanceAs (Decidable (_ ∧ _))

/-- The first status that the guest writes in a complete line, if there is one, is an unsigned 32-bit integer. -/
def InRange (received : List Recv) : Prop :=
  ∀ status, (lines newline (heard received)).1.findSome? parseExit = some status → Encodes status

instance (received : List Recv) : Decidable (InRange received) :=
  inferInstanceAs (Decidable (∀ status ∈ (lines newline (heard received)).1.findSome? parseExit, Encodes status))

theorem destroyStatus_encodes (received : List Recv) : Encodes (destroyStatus received) ↔ InRange received := by
  unfold destroyStatus InRange
  rw [exitStatus_eq]
  cases (lines newline (heard received)).1.findSome? parseExit with
  | none =>
    apply iff_of_true
    · decide
    · nofun
  | some status =>
    constructor
    · rintro hfits _ ⟨⟩
      exact hfits
    · exact fun hfits ↦ hfits status rfl

end Firecracker

/-! ## From `destroy` to `chan.exit` -/

namespace Session

open Firecracker (Recv destroyStatus Encodes InRange)

/-- A session in a microVM, with what its control channel has received. -/
structure GuestSession (ρ κ : Type) where
  session : RoomSession ρ κ
  received : List Recv
  /-- what `_run` has passed to `chan.exit` after a checkout, on an open channel -/
  passed : List Int
deriving DecidableEq, Repr

inductive GuestEvent (ρ κ : Type) where
  | receives (r : Recv)
  | session (e : Event ρ κ)
deriving DecidableEq, Repr

namespace GuestSession

variable {ρ κ : Type}

def initial : GuestSession ρ κ where
  session := .initial
  received := []
  passed := []

/-- What the goodbye of `_run` passes to `chan.exit` in a step from `s` to `t`. -/
def farewells (s t : RoomSession ρ κ) : Event ρ κ → List Int
  | .pumpResumes _ => t.chan.statuses.drop s.chan.statuses.length
  | .readEnds _ _ => t.chan.statuses.drop s.chan.statuses.length
  | _ => []

/-- A step of the session to `t`.  Where `chan.exit` raises, the channel is left as it was, and the
`OverflowError` comes out of `_run`. -/
def follow (s : GuestSession ρ κ) (e : Event ρ κ) (t : RoomSession ρ κ) : GuestSession ρ κ :=
  let said := farewells s.session t e
  { s with
    session := if ∀ status ∈ said, Encodes status then t else { t with chan := s.session.chan }.endPump .raised
    passed := s.passed ++ said }

/-- A `destroy()` that comes back brings what the guest has written. -/
def mayEnd (s : GuestSession ρ κ) : Event ρ κ → Bool
  | .destroyEnds (.returned status) => status = destroyStatus s.received
  | .lateDestroyEnds (.returned status) => status = destroyStatus s.received
  | _ => true

def step [Room ρ] (cfg : SessionConfig) (s : GuestSession ρ κ) : GuestEvent ρ κ → Option (GuestSession ρ κ)
  | .receives r => some { s with received := s.received ++ [r] }
  | .session e => if s.mayEnd e then (Session.step cfg s.session e).map (s.follow e) else none

def machine (ρ κ : Type) [Room ρ] (cfg : SessionConfig) : Machine (GuestSession ρ κ) (GuestEvent ρ κ) where
  init := .initial
  step := step cfg

/-- A `destroy()` comes back with a status. -/
def destroys : GuestEvent ρ κ → Bool
  | .session (.destroyEnds (.returned _)) => true
  | _ => false

/-- When a room has been destroyed, the status that the guest has written first is one that can be sent. -/
def Encodable (s : GuestSession ρ κ) (e : GuestEvent ρ κ) : Prop :=
  destroys e = true → InRange s.received

instance (s : GuestSession ρ κ) (e : GuestEvent ρ κ) : Decidable (s.Encodable e) :=
  inferInstanceAs (Decidable (_ → _))

/-- Whatever `_run` passes to `chan.exit` is sent, and the channel is closed. -/
structure Told (s : GuestSession ρ κ) : Prop where
  encodes (status : Int) : status ∈ s.passed → Encodes status
  sent (status : Int) : status ∈ s.passed → status ∈ s.session.chan.statuses
  closes : s.passed ≠ [] → s.session.chan.closing = true

/-! ## What a step says -/

section Steps

variable {s t : RoomSession ρ κ} {e : Event ρ κ}

theorem goodbye_farewells (ours unwinding c broken : Bool) (how : Outcome) :
    ∀ status ∈ (s.goodbye ours unwinding c broken how).chan.statuses.drop s.chan.statuses.length,
      s.status = some status := by
  intro status hmem
  rcases goodbye_cases s ours unwinding c broken how with ⟨out, heq, -⟩ | ⟨n, out, -, -, hstatus, heq⟩
  · rw [heq] at hmem
    simp [RoomSession.endPump] at hmem
  · rw [heq] at hmem
    by_cases hclosing : s.chan.closing = true
    · simp [RoomSession.endPump, Channel.exit, hclosing] at hmem
    · simp [RoomSession.endPump, Channel.exit, hclosing] at hmem
      rw [hmem]
      exact hstatus

theorem finishReading_farewells (unwinding broken : Bool) :
    ∀ status ∈ (s.finishReading unwinding broken).chan.statuses.drop s.chan.statuses.length,
      s.status = some status := by
  intro status hmem
  unfold RoomSession.finishReading at hmem
  simp only [] at hmem
  have hsame : (s.beginTeardown .pump false).chan = s.chan := by rw [beginTeardown_eq]
  split at hmem
  · rw [← hsame] at hmem
    have hstatus := goodbye_farewells _ _ _ _ _ status hmem
    rw [beginTeardown_eq] at hstatus
    exact hstatus
  · rw [enqueue_eq, beginTeardown_eq] at hmem
    simp at hmem

variable [Room ρ] {cfg : SessionConfig}

/-- The goodbye says what `destroy()` came back with. -/
theorem farewells_status (h : Turn cfg s e t) : ∀ status ∈ farewells s t e, s.status = some status := by
  intro status hmem
  cases h with
  | @readEnds room c reply broken =>
    have hquiet : status ∉ s.chan.statuses.drop s.chan.statuses.length := by simp
    rcases reply with (_ | _) | _ | _
    · exact finishReading_farewells _ _ status hmem
    · cases broken with
      | true => exact finishReading_farewells _ _ status hmem
      -- output that was passed on is no reason to say goodbye
      | false => exact absurd hmem hquiet
    · exact finishReading_farewells _ _ status hmem
    · exact finishReading_farewells _ _ status hmem
  | @pumpResumes ours unwinding c broken how =>
    have hsame : s.dequeue.chan = s.chan := by rw [dequeue_eq]
    have hstatus : s.dequeue.status = s.status := by rw [dequeue_eq]
    rw [← hstatus]
    apply goodbye_farewells (s := s.dequeue)
    rw [hsame]
    exact hmem
  | _ => exact absurd hmem List.not_mem_nil

/-- What it says reaches the channel, and closes it. -/
theorem farewells_sent (h : Turn cfg s e t) : (∀ status ∈ farewells s t e, status ∈ t.chan.statuses) ∧
    (farewells s t e ≠ [] → t.chan.closing = true) := by
  have hdrop : farewells s t e = t.chan.statuses.drop s.chan.statuses.length ∨ farewells s t e = [] := by
    unfold farewells
    split
    · exact .inl rfl
    · exact .inl rfl
    · exact .inr rfl
  rcases hdrop with hdrop | hnone
  · rw [hdrop]
    refine ⟨fun status hmem ↦ List.mem_of_mem_drop hmem, fun hne ↦ ?_⟩
    cases h.sends with
    | quiet hsame => simp [hsame] at hne
    | exits n hopen hstatuses hclosing => exact hclosing
  · rw [hnone]
    exact ⟨fun status hmem ↦ absurd hmem List.not_mem_nil, fun hne ↦ absurd rfl hne⟩

end Steps

/-! ## Whole runs -/

section Runs

variable {s : GuestSession ρ κ}

theorem Told.keeps {u : RoomSession ρ κ} (h : Told s) (hsends : Sends s.session.chan u.chan) {passed : List Int}
    (hencodes : ∀ status ∈ passed, Encodes status) (hsent : ∀ status ∈ passed, status ∈ u.chan.statuses)
    (hcloses : passed ≠ [] → u.chan.closing = true) :
    Told { s with session := u, passed := s.passed ++ passed } := by
  have hgrows : ∀ status ∈ s.session.chan.statuses, status ∈ u.chan.statuses := by
    intro status hmem
    cases hsends with
    | quiet hsame => rwa [hsame]
    | exits n hopen hstatuses => rw [hstatuses]; exact List.mem_append_left _ hmem
  have hstays : s.session.chan.closing = true → u.chan.closing = true := by
    intro hclosing
    cases hsends with
    | quiet _ hstays => exact hstays hclosing
    | exits n hopen hstatuses hcloses => exact hcloses
  refine ⟨fun status hmem ↦ ?_, fun status hmem ↦ ?_, fun hne ↦ ?_⟩
  · exact (List.mem_append.mp hmem).elim (h.encodes status) (hencodes status)
  · exact (List.mem_append.mp hmem).elim (fun hm ↦ hgrows status (h.sent status hm)) (hsent status)
  · by_cases hold : s.passed = []
    · exact hcloses (by simpa [hold] using hne)
    · exact hstays (h.closes hold)

/-- The status of a session can be sent, and whatever has been said was. -/
theorem reached_told [Room ρ] {cfg : SessionConfig} (h : (machine ρ κ cfg).ReachedBy Encodable s) :
    (∀ status, s.session.status = some status → Encodes status) ∧ Told s := by
  refine h.invariant (I := fun s ↦ (∀ status, s.session.status = some status → Encodes status) ∧ Told s)
    ⟨nofun, ⟨nofun, nofun, nofun⟩⟩ fun s e t _ hs hok hst ↦ ?_
  cases e with
  | receives r =>
    cases hst
    exact ⟨hs.1, ⟨hs.2.encodes, hs.2.sent, hs.2.closes⟩⟩
  | session e =>
    simp only [machine, step] at hst
    split at hst
    · rename_i hmay
      obtain ⟨u, hu, rfl⟩ := Option.map_eq_some_iff.mp hst
      have hturn : Turn cfg s.session e u := step_turn hu
      have hsaid : ∀ status ∈ farewells s.session u e, Encodes status :=
        fun status hmem ↦ hs.1 status (farewells_status hturn status hmem)
      obtain ⟨hsent, hcloses⟩ := farewells_sent hturn
      unfold follow
      simp only [if_pos hsaid]
      refine ⟨fun status hstatus ↦ ?_, hs.2.keeps hturn.sends hsaid hsent hcloses⟩
      -- the status stays, is what the guest has written, or is the 1 of a `destroy()` that raised
      rcases hturn.status with hsame | ⟨n, rfl, hn⟩ | ⟨rfl, hone⟩
      · exact hs.1 status (hsame ▸ hstatus)
      · cases hstatus.symm.trans hn
        rw [show status = destroyStatus s.received from of_decide_eq_true hmay]
        exact (Firecracker.destroyStatus_encodes _).mpr (hok rfl)
      · cases hstatus.symm.trans hone
        decide
    · cases hst

end Runs

/-- What `destroy` returns can be sent exactly if the first status the guest writes can be; and where that is so
whenever a room is destroyed, whatever `_run` passes to `chan.exit` is sent, and the channel is closed. -/
theorem encodes_iff_inRange (ρ κ : Type) [Room ρ] :
    (∀ received, Encodes (destroyStatus received) ↔ InRange received) ∧
      ∀ (cfg : SessionConfig) (s : GuestSession ρ κ), (machine ρ κ cfg).ReachedBy Encodable s → s.Told :=
  ⟨Firecracker.destroyStatus_encodes, fun _ _ h ↦ (reached_told h).2⟩

/-- The shell ends, and the guest writes this to the control channel. -/
def shellExits (line : String) : List (GuestEvent BuiltRoom Nat) :=
  [.session .sessionStarted, .session (.pumpStarts none), .session (.openEnds (.returned (.firecracker 0)) false),
    .session (.readEnds (.returned false) false), .receives (.data (ascii line)), .session .teardownStarts]

def exitsWithSeven : List (GuestEvent BuiltRoom Nat) :=
  shellExits "exit 7\n" ++ [.session (.destroyEnds (.returned 7)), .session (.pumpResumes false)]

theorem exitsWithSeven_told : ∃ s, (machine BuiltRoom Nat ⟨none, 0⟩).run .initial exitsWithSeven = some s ∧
    s.passed = [7] ∧ s.Told := by
  have hpassed : ((machine BuiltRoom Nat ⟨none, 0⟩).run .initial exitsWithSeven).map passed = some [7] := by
    decide +kernel
  obtain ⟨s, hrun, hs⟩ := Option.map_eq_some_iff.mp hpassed
  have hfollows : (machine BuiltRoom Nat ⟨none, 0⟩).Follows Encodable .initial exitsWithSeven := by decide +kernel
  exact ⟨s, hrun, hs, (encodes_iff_inRange BuiltRoom Nat).2 _ s (.run .init hfollows hrun)⟩

def exitsNegative : List (GuestEvent BuiltRoom Nat) :=
  shellExits "exit -1\n" ++ [.session (.destroyEnds (.returned (-1))), .session (.pumpResumes false)]

/-- The status of a checkout is not sent, and the channel is not closed. -/
theorem exitsNegative_untold : ¬ (∀ received, Encodes (destroyStatus received)) ∧
    ∃ s, (machine BuiltRoom Nat ⟨none, 0⟩).run .initial exitsNegative = some s ∧ s.passed = [-1] ∧
      s.session.chan = ⟨false, false, []⟩ ∧ s.session.pump = some (.ended .raised) := by
  constructor
  · intro hall
    exact absurd (hall [.data (ascii "exit -1\n")]) (by decide +kernel)
  · have hleft : ((machine BuiltRoom Nat ⟨none, 0⟩).run .initial exitsNegative).map
        (fun s ↦ (s.passed, s.session.chan, s.session.pump)) =
          some ([-1], ⟨false, false, []⟩, some (.ended .raised)) := by decide +kernel
    obtain ⟨s, hrun, hs⟩ := Option.map_eq_some_iff.mp hleft
    simp only [Prod.mk.injEq] at hs
    exact ⟨s, hrun, hs⟩

end GuestSession

end Session

end Keycard
