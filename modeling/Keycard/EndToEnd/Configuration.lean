import Keycard.Backends.ApiCalls
import Keycard.Reasoning.Machine

/-!
# The configuration of a microVM, through its API socket

One call after the other, each on a connection of its own: the client on one end, on the other a firecracker that
answers with 2xx what it has applied, and with anything else what it has not.
-/

open Reasoning

namespace Keycard.EndToEnd

open FcApi
open Firecracker (Bytes)

/-- How a call raises. -/
inductive CallError where
  | api (error : ApiError)
  /-- `OSError`, of `open_unix_connection`, `drain` or the reader -/
  | os
  | read (fault : Fault)
  | cancelled
deriving DecidableEq, Repr

/-- Where the client is: in `open_unix_connection`, with the request and its response, in `wait_closed`, or behind
the last call. -/
inductive ClientPoint where
  | connecting
  | exchanging
  | closing (result : Except CallError Response)
  | returned
  | raised (error : CallError)

/-- The connection of the call that is under way, or that was when the client gave up. -/
structure ApiConnection (J : Type) (limit : Nat) where
  call : Request J
  /-- what of the request has come to the server -/
  sent : Bytes
  answer : Option (ServerAnswer limit)
  /-- what of the answer has come to the client -/
  received : Bytes
  /-- closed by the server -/
  closed : Bool

structure ApiPath (J : Type) (limit : Nat) where
  /-- the calls that have returned -/
  answered : List (Request J)
  /-- the call that is under way, and those behind it -/
  todo : List (Request J)
  client : ClientPoint
  connection : Option (ApiConnection J limit)
  /-- what the server has applied -/
  applied : List (Request J)

inductive ApiEvent (limit : Nat) where
  | connects (made : Bool)
  /-- more of the request comes to the server -/
  | sends (n : Nat)
  | serves (answer : ServerAnswer limit)
  /-- more of the answer comes to the client -/
  | answers (n : Nat)
  /-- the server closes the connection, or is gone -/
  | closes
  | reads
  /-- `drain` or the reader raises `OSError` -/
  | breaks
  /-- `wait_closed` is over; an `OSError` of it is swallowed -/
  | closed
  | timesOut
  | cancelled

namespace ApiConnection

variable {J : Type} {limit : Nat}

def fresh (call : Request J) : ApiConnection J limit where
  call := call
  sent := []
  answer := none
  received := []
  closed := false

/-- What the server has applied of the connection. -/
def taken (connection : ApiConnection J limit) : List (Request J) :=
  match connection.answer with
  | some answer => if answer.response.ok then [connection.call] else []
  | none => []

end ApiConnection

namespace ApiPath

variable {J : Type} {limit : Nat}

/-- Where the client goes for the rest of the calls. -/
def nextPoint : List (Request J) → ClientPoint
  | [] => .returned
  | _ :: _ => .connecting

def start (calls : List (Request J)) : ApiPath J limit where
  answered := []
  todo := calls
  client := nextPoint calls
  connection := none
  applied := []

/-- The calls are not over. -/
def isCalling (s : ApiPath J limit) : Bool :=
  match s.client with
  | .connecting | .exchanging | .closing _ => true
  | .returned | .raised _ => false

/-- The rest of `request`, behind the exchange. -/
def request (s : ApiPath J limit) (call : Request J) (rest : List (Request J)) :
    Except CallError Response → ApiPath J limit
  | .error error => { s with client := .raised error }
  | .ok response =>
    if response.ok then
      { s with answered := s.answered ++ [call], todo := rest, client := nextPoint rest, connection := none }
    else { s with client := .raised (.api ⟨call.method, call.path, response.status, response.body⟩) }

/-- `read_response`, of what has come -/
def read (s : ApiPath J limit) (connection : ApiConnection J limit) : Option (ApiPath J limit) :=
  match readResponse limit connection.received with
  | .ok (response, _) => some { s with client := .closing (.ok response) }
  | .error fault =>
    -- the reader waits for more
    if fault = .incompleteRead ∧ connection.closed = false then none
    else some { s with client := .closing (.error (.read fault)) }

def serve (json : Json J) (s : ApiPath J limit) (connection : ApiConnection J limit) (answer : ServerAnswer limit) :
    Option (ApiPath J limit) :=
  if connection.answer.isNone ∧ connection.closed = false then
    (readRequest json connection.sent).map fun (request, _) ↦
      { s with
        connection := some { connection with answer := some answer }
        applied := if answer.response.ok then s.applied ++ [request] else s.applied }
  else none

def step (json : Json J) (s : ApiPath J limit) : ApiEvent limit → Option (ApiPath J limit)
  | .connects made =>
    match s.client, s.todo with
    | .connecting, call :: _ =>
      some (if made then { s with client := .exchanging, connection := some (.fresh call) }
        else { s with client := .raised .os })
    | _, _ => none
  -- what is in the buffer of the socket also comes after the client has given up
  | .sends n => s.connection.map fun connection ↦
      { s with connection := some { connection with
          sent := (callBytes json connection.call).take (connection.sent.length + n) } }
  | .serves answer => s.connection.bind fun connection ↦ s.serve json connection answer
  | .answers n => s.connection.bind fun connection ↦
      match connection.answer with
      | some answer =>
        if connection.closed then none
        else some { s with connection := some { connection with
            received := answer.bytes.take (connection.received.length + n) } }
      | none => none
  | .closes => s.connection.map fun connection ↦ { s with connection := some { connection with closed := true } }
  | .reads =>
    match s.client with
    | .exchanging => s.connection.bind s.read
    | _ => none
  | .breaks =>
    match s.client with
    | .exchanging => some { s with client := .closing (.error .os) }
    | _ => none
  | .closed =>
    match s.client, s.todo with
    | .closing result, call :: rest => some (s.request call rest result)
    | _, _ => none
  | .timesOut =>
    match s.todo with
    | call :: _ =>
      if s.isCalling then some { s with client := .raised (.api (.timedOut call.method call.path)) } else none
    | [] => none
  | .cancelled => if s.isCalling then some { s with client := .raised .cancelled } else none

def machine (json : Json J) (limit : Nat) (calls : List (Request J)) : Machine (ApiPath J limit) (ApiEvent limit) where
  init := start calls
  step := step json

/-- What is known of a call that has raised. -/
def Reported (s : ApiPath J limit) : CallError → Prop
  | .api error => ∃ call rest, s.todo = call :: rest ∧ (error = .timedOut call.method call.path ∨
      ∃ connection answer, s.connection = some connection ∧ connection.answer = some answer ∧
        answer.response.ok = false ∧ error = ⟨call.method, call.path, answer.status, answer.body⟩)
  -- the server has closed the connection before its answer was whole
  | .read fault => fault = .incompleteRead ∧ ∃ connection, s.connection = some connection ∧ connection.closed = true
  | .os | .cancelled => True

/-- What is known at each point of the client. -/
def AtPoint (s : ApiPath J limit) : ClientPoint → Prop
  | .connecting => s.connection = none ∧ s.todo ≠ []
  | .exchanging => s.connection.isSome
  | .closing (.ok response) => ∃ connection answer, s.connection = some connection ∧
      connection.answer = some answer ∧ response = answer.response
  | .closing (.error error) => s.connection.isSome ∧ s.Reported error
  | .returned => s.connection = none ∧ s.todo = []
  | .raised error => s.Reported error

/-- What is known of the connection. -/
structure Carries (json : Json J) (todo : List (Request J)) (connection : ApiConnection J limit) : Prop where
  current : ∃ rest, todo = connection.call :: rest
  sent : connection.sent <+: callBytes json connection.call
  received : ∀ answer, connection.answer = some answer → connection.received <+: answer.bytes
  silent : connection.answer = none → connection.received = []

structure Configuring (json : Json J) (calls : List (Request J)) (s : ApiPath J limit) : Prop where
  split : calls = s.answered ++ s.todo
  applied : s.applied = s.answered ++ (s.connection.map ApiConnection.taken).getD []
  carries : ∀ connection, s.connection = some connection → Carries json s.todo connection
  point : s.AtPoint s.client

/-! ## What a step can do -/

section Steps

variable {json : Json J} {calls : List (Request J)} {s t : ApiPath J limit}

/-- The server goes on with the connection. -/
structure Grows (json : Json J) (connection connection' : ApiConnection J limit) : Prop where
  call : connection'.call = connection.call
  answer : ∀ answer, connection.answer = some answer → connection'.answer = some answer
  closed : connection.closed = true → connection'.closed = true
  sent : connection.sent <+: callBytes json connection.call → connection'.sent <+: callBytes json connection.call
  received : ∀ answer, connection'.answer = some answer → connection.received <+: answer.bytes →
    connection'.received <+: answer.bytes
  silent : connection'.answer = none → connection'.received = connection.received

/-- The step, and where it leads. -/
inductive Moves (json : Json J) (s : ApiPath J limit) : ApiEvent limit → ApiPath J limit → Prop
  | connects {call : Request J} {rest : List (Request J)} (hpoint : s.client = .connecting)
      (htodo : s.todo = call :: rest) :
      Moves json s (.connects true) { s with client := .exchanging, connection := some (.fresh call) }
  | grows {e : ApiEvent limit} {connection connection' : ApiConnection J limit}
      (hconnection : s.connection = some connection) (hgrows : Grows json connection connection')
      (hsame : connection'.answer = connection.answer) :
      Moves json s e { s with connection := some connection' }
  | serves {connection : ApiConnection J limit} {request : Request J} {rest : Bytes} (answer : ServerAnswer limit)
      (hconnection : s.connection = some connection) (hfirst : connection.answer = none)
      (hrequest : readRequest json connection.sent = some (request, rest)) :
      Moves json s (.serves answer) { s with
        connection := some { connection with answer := some answer }
        applied := if answer.response.ok then s.applied ++ [request] else s.applied }
  | reads {connection : ApiConnection J limit} {response : Response} {left : Bytes}
      (hconnection : s.connection = some connection)
      (hread : readResponse limit connection.received = .ok (response, left)) :
      Moves json s .reads { s with client := .closing (.ok response) }
  | faults {connection : ApiConnection J limit} {fault : Fault}
      (hconnection : s.connection = some connection) (hread : readResponse limit connection.received = .error fault)
      (hover : fault ≠ .incompleteRead ∨ connection.closed = true) :
      Moves json s .reads { s with client := .closing (.error (.read fault)) }
  | breaks (hpoint : s.client = .exchanging) : Moves json s .breaks { s with client := .closing (.error .os) }
  | returns {call : Request J} {rest : List (Request J)} {response : Response} (htodo : s.todo = call :: rest)
      (hpoint : s.client = .closing (.ok response)) (hok : response.ok = true) :
      Moves json s .closed { s with
        answered := s.answered ++ [call], todo := rest, client := nextPoint rest, connection := none }
  | rejected {call : Request J} {rest : List (Request J)} {response : Response} (htodo : s.todo = call :: rest)
      (hpoint : s.client = .closing (.ok response)) (hok : response.ok = false) :
      Moves json s .closed { s with client := .raised (.api ⟨call.method, call.path, response.status, response.body⟩) }
  | fails {error : CallError} (hpoint : s.client = .closing (.error error)) :
      Moves json s .closed { s with client := .raised error }
  | timesOut {call : Request J} {rest : List (Request J)} (htodo : s.todo = call :: rest) :
      Moves json s .timesOut { s with client := .raised (.api (.timedOut call.method call.path)) }
  | gives {e : ApiEvent limit} (error : CallError) (hplain : error = .os ∨ error = .cancelled) :
      Moves json s e { s with client := .raised error }

variable {e : ApiEvent limit}

theorem request_moves {call : Request J} {rest : List (Request J)} {result : Except CallError Response}
    (htodo : s.todo = call :: rest) (hpoint : s.client = .closing result) :
    Moves json s .closed (s.request call rest result) := by
  cases result with
  | error error => exact .fails hpoint
  | ok response =>
    unfold request
    simp only []
    split
    · exact .returns htodo hpoint ‹_›
    · exact .rejected htodo hpoint (Bool.eq_false_iff.mpr ‹_›)

theorem read_moves {connection : ApiConnection J limit} (hconnection : s.connection = some connection)
    (h : s.read connection = some t) : Moves json s .reads t := by
  unfold read at h
  split at h
  · cases h
    exact .reads hconnection ‹_›
  · rename_i fault hread
    split at h
    · cases h
    · rename_i hwait
      cases h
      refine .faults hconnection hread ?_
      by_cases hfault : fault = .incompleteRead
      · exact .inr (by simpa [hfault] using hwait)
      · exact .inl hfault

theorem step_moves (h : step json s e = some t) : Moves json s e t := by
  cases e with
  | connects made =>
    simp only [step] at h
    split at h
    · rename_i call rest hpoint htodo
      cases h
      cases made with
      | true => exact .connects hpoint htodo
      | false => exact .gives .os (.inl rfl)
    · cases h
  | sends n =>
    obtain ⟨connection, hconnection, rfl⟩ := Option.map_eq_some_iff.mp h
    exact .grows hconnection ⟨rfl, fun _ ↦ id, id, fun _ ↦ List.take_prefix _ _, fun _ _ ↦ id, fun _ ↦ rfl⟩ rfl
  | serves answer =>
    obtain ⟨connection, hconnection, hserve⟩ := Option.bind_eq_some_iff.mp h
    unfold serve at hserve
    split at hserve
    · rename_i hopen
      obtain ⟨⟨request, rest⟩, hrequest, rfl⟩ := Option.map_eq_some_iff.mp hserve
      exact .serves answer hconnection (Option.isNone_iff_eq_none.mp hopen.1) hrequest
    · cases hserve
  | answers n =>
    obtain ⟨connection, hconnection, hanswers⟩ := Option.bind_eq_some_iff.mp h
    split at hanswers
    · rename_i answer hanswer
      split at hanswers
      · cases hanswers
      · cases hanswers
        refine .grows hconnection ⟨rfl, fun _ ↦ id, id, id, fun answer' hanswer' _ ↦ ?_, fun hnone ↦ ?_⟩ rfl
        · rw [show answer' = answer from Option.some.inj (hanswer'.symm.trans hanswer)]
          exact List.take_prefix _ _
        · exact absurd (hnone.symm.trans hanswer) (by simp)
    · cases hanswers
  | closes =>
    obtain ⟨connection, hconnection, rfl⟩ := Option.map_eq_some_iff.mp h
    exact .grows hconnection ⟨rfl, fun _ ↦ id, fun _ ↦ rfl, id, fun _ _ ↦ id, fun _ ↦ rfl⟩ rfl
  | reads =>
    simp only [step] at h
    split at h
    · obtain ⟨connection, hconnection, hread⟩ := Option.bind_eq_some_iff.mp h
      exact read_moves hconnection hread
    · cases h
  | breaks =>
    simp only [step] at h
    split at h
    · rename_i hpoint
      cases h
      exact .breaks hpoint
    · cases h
  | closed =>
    simp only [step] at h
    split at h
    · rename_i result call rest hpoint htodo
      cases h
      exact request_moves htodo hpoint
    · cases h
  | timesOut =>
    simp only [step] at h
    split at h
    · rename_i call rest htodo
      split at h
      · cases h
        exact .timesOut htodo
      · cases h
    · cases h
  | cancelled =>
    simp only [step] at h
    split at h
    · cases h
      exact .gives .cancelled (.inr rfl)
    · cases h

/-! ## What is kept -/

theorem Grows.reported {connection connection' : ApiConnection J limit} (hgrows : Grows json connection connection')
    {applied : List (Request J)} (hconnection : s.connection = some connection) {error : CallError}
    (h : s.Reported error) :
    ({ s with connection := some connection', applied := applied } : ApiPath J limit).Reported error := by
  cases error with
  | api error =>
    obtain ⟨call, rest, htodo, htimed | ⟨c, answer, hc, hanswer, hnot, herror⟩⟩ := h
    · exact ⟨call, rest, htodo, .inl htimed⟩
    · rw [Option.some.inj (hc.symm.trans hconnection)] at hanswer
      exact ⟨call, rest, htodo, .inr ⟨connection', answer, rfl, hgrows.answer answer hanswer, hnot, herror⟩⟩
  | read fault =>
    obtain ⟨hfault, c, hc, hclosed⟩ := h
    rw [Option.some.inj (hc.symm.trans hconnection)] at hclosed
    exact ⟨hfault, connection', rfl, hgrows.closed hclosed⟩
  | os => trivial
  | cancelled => trivial

/-- What is known of the client stays true while the server goes on. -/
theorem Grows.atPoint {connection connection' : ApiConnection J limit} (hgrows : Grows json connection connection')
    {applied : List (Request J)} (hconnection : s.connection = some connection) {point : ClientPoint}
    (h : s.AtPoint point) :
    ({ s with connection := some connection', applied := applied } : ApiPath J limit).AtPoint point := by
  cases point with
  | connecting => exact absurd (hconnection.symm.trans h.1) (by simp)
  | exchanging => rfl
  | closing result =>
    cases result with
    | error error => exact ⟨rfl, hgrows.reported hconnection h.2⟩
    | ok response =>
      obtain ⟨c, answer, hc, hanswer, hresponse⟩ := h
      rw [Option.some.inj (hc.symm.trans hconnection)] at hanswer
      exact ⟨connection', answer, rfl, hgrows.answer answer hanswer, hresponse⟩
  | returned => exact absurd (hconnection.symm.trans h.1) (by simp)
  | raised error => exact hgrows.reported hconnection h

theorem Carries.grows {todo : List (Request J)} {connection connection' : ApiConnection J limit}
    (h : Carries json todo connection) (hgrows : Grows json connection connection') :
    Carries json todo connection' := by
  refine ⟨?_, ?_, fun answer hanswer ↦ ?_, fun hnone ↦ ?_⟩
  · rw [hgrows.call]
    exact h.current
  · rw [hgrows.call]
    exact hgrows.sent h.sent
  · apply hgrows.received answer hanswer
    cases hbefore : connection.answer with
    | none =>
      rw [h.silent hbefore]
      exact List.nil_prefix
    | some earlier =>
      have hsame : answer = earlier := Option.some.inj (hanswer.symm.trans (hgrows.answer earlier hbefore))
      rw [hsame]
      exact h.received earlier hbefore
  · rw [hgrows.silent hnone]
    apply h.silent
    cases hbefore : connection.answer with
    | none => rfl
    | some earlier => exact absurd (hnone.symm.trans (hgrows.answer earlier hbefore)) (by simp)

/-- What the client has read is what the server has answered. -/
theorem Carries.read {todo : List (Request J)} {connection : ApiConnection J limit}
    (h : Carries json todo connection) {response : Response} {left : Bytes}
    (hread : readResponse limit connection.received = .ok (response, left)) :
    ∃ answer, connection.answer = some answer ∧ response = answer.response := by
  cases hanswer : connection.answer with
  | none =>
    rw [h.silent hanswer] at hread
    cases hread
  | some answer =>
    rw [ServerAnswer.readResponse_received (h.received answer hanswer)] at hread
    split at hread
    · cases hread
      exact ⟨answer, rfl, rfl⟩
    · cases hread

/-- Reading only fails where something is missing. -/
theorem Carries.fault {todo : List (Request J)} {connection : ApiConnection J limit}
    (h : Carries json todo connection) {fault : Fault}
    (hread : readResponse limit connection.received = .error fault) : fault = .incompleteRead := by
  cases hanswer : connection.answer with
  | none =>
    rw [h.silent hanswer] at hread
    have hnothing : readResponse limit [] = .error .incompleteRead := by
      have hshort : (0 : Nat) < limit + 4 := by omega
      show (readuntil limit blankLine [] >>= _) = _
      simp [readuntil, readUntil, blankLine, bind, Except.bind]
    rw [hnothing] at hread
    exact (Except.error.inj hread).symm
  | some answer =>
    rw [ServerAnswer.readResponse_received (h.received answer hanswer)] at hread
    split at hread
    · cases hread
    · exact (Except.error.inj hread).symm

theorem Configuring.step (hcalls : ∀ call ∈ calls, IsCall call) (h : s.Configuring json calls)
    (hst : Moves json s e t) : t.Configuring json calls := by
  have hpoint := h.point
  cases hst with
  | @connects call rest hat htodo =>
    rw [hat] at hpoint
    refine ⟨h.split, ?_, ?_, rfl⟩
    · show s.applied = s.answered ++ []
      rw [h.applied, hpoint.1]
      rfl
    · rintro connection ⟨⟩
      exact ⟨⟨rest, htodo⟩, List.nil_prefix, fun _ hnone ↦ (by cases hnone), fun _ ↦ rfl⟩
  | @grows _ connection connection' hconnection hgrows hsame =>
    refine ⟨h.split, ?_, ?_, hgrows.atPoint hconnection hpoint⟩
    · show s.applied = s.answered ++ connection'.taken
      rw [h.applied, hconnection, Option.map_some, Option.getD_some, ApiConnection.taken, ApiConnection.taken, hsame,
        hgrows.call]
    · rintro _ ⟨⟩
      exact (h.carries connection hconnection).grows hgrows
  | @serves connection request rest answer hconnection hfirst hrequest =>
    have hcarries := h.carries connection hconnection
    obtain ⟨todo, htodo⟩ := hcarries.current
    have hgrows : Grows json connection { connection with answer := some answer } := by
      refine ⟨rfl, fun _ hanswer ↦ ?_, id, id, fun _ _ ↦ id, fun hnone ↦ by cases hnone⟩
      exact absurd (hfirst.symm.trans hanswer) (by simp)
    -- the request that was read is the one that was sent
    have hcall : IsCall connection.call := by
      apply hcalls
      rw [h.split, htodo]
      exact List.mem_append_right _ List.mem_cons_self
    have hrequest := readRequest_sent hcall hcarries.sent hrequest
    refine ⟨h.split, ?_, ?_, hgrows.atPoint hconnection hpoint⟩
    · have hbefore : s.applied = s.answered := by
        rw [h.applied, hconnection, Option.map_some, Option.getD_some, ApiConnection.taken, hfirst, List.append_nil]
      show (if answer.response.ok then s.applied ++ [request] else s.applied) =
        s.answered ++ (if answer.response.ok then [connection.call] else [])
      rw [hbefore, hrequest]
      split
      · rfl
      · exact (List.append_nil _).symm
    · rintro _ ⟨⟩
      exact hcarries.grows hgrows
  | @reads connection response left hconnection hread =>
    obtain ⟨answer, hanswer, hresponse⟩ := (h.carries connection hconnection).read hread
    exact ⟨h.split, h.applied, h.carries, connection, answer, hconnection, hanswer, hresponse⟩
  | @faults connection fault hconnection hread hover =>
    have hfault := (h.carries connection hconnection).fault hread
    refine ⟨h.split, h.applied, h.carries, ?_, hfault, connection, hconnection, hover.resolve_left fun hne ↦ hne hfault⟩
    show s.connection.isSome
    rw [hconnection]
    rfl
  | breaks hat =>
    rw [hat] at hpoint
    exact ⟨h.split, h.applied, h.carries, hpoint, trivial⟩
  | @returns call rest response htodo hat hok =>
    rw [hat] at hpoint
    obtain ⟨connection, answer, hconnection, hanswer, rfl⟩ := hpoint
    obtain ⟨todo, hcurrent⟩ := (h.carries connection hconnection).current
    obtain ⟨rfl, rfl⟩ := List.cons.inj (htodo.symm.trans hcurrent)
    refine ⟨?_, ?_, fun _ hnone ↦ (by cases hnone), ?_⟩
    · rw [h.split, htodo, List.append_assoc]
      rfl
    · show s.applied = s.answered ++ [connection.call] ++ []
      rw [h.applied, hconnection, Option.map_some, Option.getD_some, ApiConnection.taken, hanswer, List.append_nil]
      simp only [hok, if_true]
    · show ApiPath.AtPoint _ (nextPoint rest)
      cases rest with
      | nil => exact ⟨rfl, rfl⟩
      | cons next rest => exact ⟨rfl, List.cons_ne_nil _ _⟩
  | @rejected call rest response htodo hat hok =>
    rw [hat] at hpoint
    obtain ⟨connection, answer, hconnection, hanswer, rfl⟩ := hpoint
    exact ⟨h.split, h.applied, h.carries, call, rest, htodo, .inr ⟨connection, answer, hconnection, hanswer, hok, rfl⟩⟩
  | fails hat =>
    rw [hat] at hpoint
    exact ⟨h.split, h.applied, h.carries, hpoint.2⟩
  | @timesOut call rest htodo => exact ⟨h.split, h.applied, h.carries, call, rest, htodo, .inl rfl⟩
  | gives error hplain =>
    refine ⟨h.split, h.applied, h.carries, ?_⟩
    rcases hplain with rfl | rfl
    · trivial
    · trivial

theorem reachable_configuring (hcalls : ∀ call ∈ calls, IsCall call) (h : (machine json limit calls).Reachable s) :
    s.Configuring json calls := by
  refine h.invariant ⟨rfl, rfl, fun _ hnone ↦ (by cases hnone), ?_⟩ fun _ _ _ _ hi hst ↦ hi.step hcalls (step_moves hst)
  show ApiPath.AtPoint _ (nextPoint calls)
  cases calls with
  | nil => exact ⟨rfl, rfl⟩
  | cons call rest => exact ⟨rfl, List.cons_ne_nil _ _⟩

/-! ## The body of `open` -/

/-- Where the body of `open` is when these calls are still to return. -/
def bodyPoint : List (Request J) → Firecracker.BodyPoint
  | [] => .attachingData
  | call :: rest => .calling call.path (rest.map Request.path)

theorem firstCall_eq (kernel bootArgs dir : String) (config : Firecracker.MachineConfig) :
    Firecracker.firstCall = bodyPoint (openCalls kernel bootArgs dir config) :=
  rfl

/-- The body of `open` stays at its point, goes to the next, or raises. -/
theorem follows_body (hst : step json s e = some t) :
    bodyPoint t.todo = bodyPoint s.todo ∨
      Firecracker.plainNext (bodyPoint s.todo) (.returned ()) = some (.goesTo (bodyPoint t.todo)) ∨
      ∃ error, t.client = .raised error ∧ Firecracker.plainNext (bodyPoint s.todo) .raised = some .raises := by
  have hraises (todo : List (Request J)) : Firecracker.plainNext (bodyPoint todo) .raised = some .raises := by
    rcases todo with _ | ⟨call, _ | ⟨next, rest⟩⟩
    · rfl
    · rfl
    · rfl
  cases step_moves hst with
  | connects | grows | serves | reads | faults | breaks => exact .inl rfl
  | @returns call rest response htodo hpoint hok =>
    refine .inr (.inl ?_)
    rw [htodo]
    cases rest with
    | nil => rfl
    | cons next rest => rfl
  | rejected | fails | timesOut | gives => exact .inr (.inr ⟨_, rfl, hraises _⟩)

/-! ## The calls of `open` -/

theorem Configuring.taken_prefix (h : s.Configuring json calls) :
    (s.connection.map ApiConnection.taken).getD [] <+: s.todo.take 1 := by
  cases hconnection : s.connection with
  | none => exact List.nil_prefix
  | some connection =>
    obtain ⟨rest, htodo⟩ := (h.carries connection hconnection).current
    rw [htodo, Option.map_some, Option.getD_some, List.take_one]
    unfold ApiConnection.taken
    split
    · split
      · exact List.prefix_refl _
      · exact List.nil_prefix
    · exact List.nil_prefix

/-- The server has applied the calls that have returned, and perhaps the one under way. -/
theorem Configuring.in_order (h : s.Configuring json calls) :
    s.answered <+: s.applied ∧ s.applied <+: calls ∧ s.applied.length ≤ s.answered.length + 1 := by
  have htaken := h.taken_prefix
  rw [h.applied]
  refine ⟨List.prefix_append _ _, ?_, ?_⟩
  · rw [h.split, List.prefix_append_right_inj]
    exact htaken.trans (List.take_prefix _ _)
  · have hlength := htaken.length_le
    rw [List.length_take] at hlength
    rw [List.length_append]
    omega

theorem Configuring.all (h : s.Configuring json calls) (hpoint : s.client = .returned) : s.applied = calls := by
  have hreturned := h.point
  rw [hpoint] at hreturned
  rw [h.applied, h.split, hreturned.1, hreturned.2]
  rfl

/-- When the calls are over nothing more can happen. -/
theorem Configuring.over (h : s.Configuring json calls) (hpoint : s.client = .returned) (e : ApiEvent limit) :
    ApiPath.step json s e = none := by
  have hreturned := h.point
  rw [hpoint] at hreturned
  obtain ⟨hconnection, htodo⟩ := hreturned
  cases e with
  | connects | reads | breaks => simp only [ApiPath.step, hpoint]
  | sends | serves | answers | closes => simp only [ApiPath.step, hconnection, Option.map_none, Option.bind_none]
  | closed => simp only [ApiPath.step, hpoint]
  | timesOut => simp only [ApiPath.step, htodo]
  | cancelled => simp only [ApiPath.step, isCalling, hpoint, Bool.false_eq_true, if_false]

/-- A step of firecracker applies the next of the calls or nothing, and the others apply nothing. -/
theorem Configuring.applies (hcalls : ∀ call ∈ calls, IsCall call) (h : s.Configuring json calls)
    (hst : ApiPath.step json s e = some t) :
    t.applied = s.applied ∨ ∃ request answer, e = .serves answer ∧ t.applied = s.applied ++ [request] ∧
      calls[s.applied.length]? = some request := by
  have ht := (h.step hcalls (step_moves hst)).in_order.2.1
  cases e with
  | serves answer =>
    obtain ⟨connection, -, hserve⟩ := Option.bind_eq_some_iff.mp hst
    unfold serve at hserve
    split at hserve
    · obtain ⟨⟨request, rest⟩, -, rfl⟩ := Option.map_eq_some_iff.mp hserve
      by_cases hok : answer.response.ok = true
      · simp only [hok, if_true] at ht ⊢
        refine .inr ⟨request, answer, rfl, rfl, ?_⟩
        obtain ⟨more, hmore⟩ := ht
        rw [← hmore]
        simp
      · simp only [hok]
        exact .inl rfl
    · cases hserve
  | _ =>
    left
    cases step_moves hst with
    | _ => rfl

/-- An error is about the call that was under way, and if it has a status the server has not applied it. -/
theorem Configuring.error (h : s.Configuring json calls) {error : ApiError} (hpoint : s.client = .raised (.api error)) :
    ∃ call, calls[s.answered.length]? = some call ∧ error.method = call.method ∧ error.path = call.path ∧
      (error = .timedOut call.method call.path ∨ s.applied = s.answered) := by
  have hraised := h.point
  rw [hpoint] at hraised
  obtain ⟨call, rest, htodo, hreason⟩ := hraised
  have hcall : calls[s.answered.length]? = some call := by
    rw [h.split, htodo]
    simp
  rcases hreason with rfl | ⟨connection, answer, hconnection, hanswer, hnot, rfl⟩
  · exact ⟨call, hcall, rfl, rfl, .inl rfl⟩
  · refine ⟨call, hcall, rfl, rfl, .inr ?_⟩
    rw [h.applied, hconnection, Option.map_some, Option.getD_some, ApiConnection.taken, hanswer]
    simp [hnot]

theorem start_last {kernel bootArgs dir : String} {config : Firecracker.MachineConfig} {before : List (Request Body)}
    (hbefore : before <+: openCalls kernel bootArgs dir config) (hstart : instanceStart ∈ before) :
    before = openCalls kernel bootArgs dir config := by
  rcases List.prefix_concat_iff.mp hbefore with hall | hpart
  · exact hall
  · -- none of the calls of `_configure` is that one
    have hpaths : ∀ call ∈ configureCalls kernel bootArgs dir config, call.path ≠ instanceStart.path := by
      simp [configureCalls, put, instanceStart]
    exact absurd rfl (hpaths _ (hpart.subset hstart))

/-- Whatever becomes of the calls of `open`, and whenever they are cut off, firecracker has applied the first of them,
in their order and each once: those that have returned, and at most the one under way.  If the machine starts, it has
been given exactly what `open` asks for. -/
theorem starts_as_configured (limit : Nat) (kernel bootArgs dir : String) (config : Firecracker.MachineConfig)
    {s : ApiPath Body limit} (h : (machine jsonBody limit (openCalls kernel bootArgs dir config)).Reachable s) :
    (s.answered <+: s.applied ∧ s.applied <+: openCalls kernel bootArgs dir config ∧
      s.applied.length ≤ s.answered.length + 1) ∧
    (instanceStart ∈ s.applied ∨ s.client = .returned → s.applied = openCalls kernel bootArgs dir config) ∧
    ∀ error, s.client = .raised (.api error) →
      ∃ call, (openCalls kernel bootArgs dir config)[s.answered.length]? = some call ∧
        error.method = call.method ∧ error.path = call.path ∧
        (error = .timedOut call.method call.path ∨ s.applied = s.answered) := by
  have hconfiguring := reachable_configuring (isCall_openCalls kernel bootArgs dir config) h
  have horder := hconfiguring.in_order
  refine ⟨horder, ?_, fun error ↦ hconfiguring.error⟩
  rintro (hstart | hreturned)
  · exact start_last horder.2.1 hstart
  · exact hconfiguring.all hreturned

end Steps

/-! ## Runs in which firecracker does what it is asked -/

section Runs

variable {json : Json J} {call : Request J} {answer : ServerAnswer limit}

/-- A call that firecracker applies. -/
def returning (json : Json J) (answer : ServerAnswer limit) (call : Request J) : List (ApiEvent limit) :=
  [.connects true, .sends (callBytes json call).length, .serves answer, .answers answer.bytes.length, .reads, .closed]

/-- The client has given up when the request comes to firecracker. -/
def late (json : Json J) (answer : ServerAnswer limit) (call : Request J) : List (ApiEvent limit) :=
  [.connects true, .sends 9, .timesOut, .sends (callBytes json call).length, .serves answer]

theorem readRequest_callBytes (hcall : IsCall call) : readRequest json (callBytes json call) = some (call, []) :=
  readRequest_encodeRequest json hcall.1 hcall.2 call.body

theorem readResponse_bytes (answer : ServerAnswer limit) :
    readResponse limit answer.bytes = .ok (answer.response, []) := by
  rw [ServerAnswer.readResponse_received (List.prefix_refl _), if_pos rfl]

theorem run_returning {calls done rest : List (Request J)} (hcall : IsCall call) (hok : answer.response.ok = true) :
    (machine json limit calls).run ⟨done, call :: rest, .connecting, none, done⟩ (returning json answer call) =
      some ⟨done ++ [call], rest, nextPoint rest, none, done ++ [call]⟩ := by
  simp only [returning, Machine.run, machine, step, ApiConnection.fresh, Option.map_some, Option.bind_some, if_true,
    List.length_nil, Nat.zero_add, List.take_length, serve, Option.isNone_none, true_and, readRequest_callBytes hcall,
    hok, Bool.false_eq_true, if_false, read, readResponse_bytes, request]

/-- Where firecracker applies each of the calls, the client comes to the rest of them. -/
theorem run_done {calls : List (Request J)} (hok : answer.response.ok = true) (done rest : List (Request J))
    (hcalls : ∀ call ∈ rest, IsCall call) (more : List (Request J)) :
    (machine json limit calls).run ⟨done, rest ++ more, nextPoint (rest ++ more), none, done⟩
        (rest.flatMap (returning json answer)) =
      some ⟨done ++ rest, more, nextPoint more, none, done ++ rest⟩ := by
  induction rest generalizing done with
  | nil =>
    rw [List.append_nil]
    rfl
  | cons call rest ih =>
    obtain ⟨hcall, hrest⟩ := List.forall_mem_cons.mp hcalls
    have hfirst : (machine json limit calls).run ⟨done, call :: (rest ++ more), .connecting, none, done⟩
        (returning json answer call) =
        some ⟨done ++ [call], rest ++ more, nextPoint (rest ++ more), none, done ++ [call]⟩ :=
      run_returning hcall hok
    rw [List.flatMap_cons, List.cons_append]
    show (machine json limit calls).run ⟨done, call :: (rest ++ more), .connecting, none, done⟩ _ = _
    rw [Machine.run_append _ hfirst, ih (done ++ [call]) hrest, List.append_assoc]
    rfl

theorem run_late {calls done rest : List (Request J)} (hcall : IsCall call) (hok : answer.response.ok = true) :
    ∃ connection, (machine json limit calls).run ⟨done, call :: rest, .connecting, none, done⟩ (late json answer call) =
      some ⟨done, call :: rest, .raised (.api (.timedOut call.method call.path)), some connection, done ++ [call]⟩ := by
  have hwhole : (callBytes json call).take (((callBytes json call).take 9).length + (callBytes json call).length) =
      callBytes json call := by
    rw [List.take_of_length_le]
    omega
  refine ⟨⟨call, callBytes json call, some answer, [], false⟩, ?_⟩
  simp only [late, Machine.run, machine, step, ApiConnection.fresh, Option.map_some, Option.bind_some, if_true,
    List.length_nil, Nat.zero_add, isCalling, hwhole, serve, Option.isNone_none, true_and,
    readRequest_callBytes hcall, hok]

end Runs

/-- What firecracker answers where it has nothing to tell. -/
def noContent : ServerAnswer 65536 where
  status := 204
  reason := []
  before := [serverHeader]
  sized := false
  after := []
  body := []
  isShort := by unfold IsShort; decide
  isShortBody := by unfold IsShort; decide
  isPlain := fun _ hc ↦ by cases hc
  areOthers := by unfold IsOther; decide
  noBody := fun _ ↦ rfl
  fits := by decide +kernel

def smallConfig : Firecracker.MachineConfig where
  vcpuCount := 2
  memSizeMib := 512

def smallConfigure : List (Request Body) :=
  configureCalls "/srv/vmlinux" "console=ttyS0" "/run/ubuntu-5f4e3d2c1b0a" smallConfig

def smallCalls : List (Request Body) :=
  openCalls "/srv/vmlinux" "console=ttyS0" "/run/ubuntu-5f4e3d2c1b0a" smallConfig

/-- The machine starts when the client has given up. -/
theorem startsLate_as_configured : ∃ s, (machine jsonBody 65536 smallCalls).Reachable s ∧
    s.client = .raised (.api (.timedOut "PUT" "/actions")) ∧ s.applied = smallCalls := by
  have hok : noContent.response.ok = true := by decide
  obtain ⟨hconfigure, hstart⟩ := List.forall_mem_append.mp
    (isCall_openCalls "/srv/vmlinux" "console=ttyS0" "/run/ubuntu-5f4e3d2c1b0a" smallConfig)
  have hdone : (machine jsonBody 65536 smallCalls).run (start smallCalls)
      (smallConfigure.flatMap (returning jsonBody noContent)) =
      some ⟨smallConfigure, [instanceStart], .connecting, none, smallConfigure⟩ :=
    run_done hok [] smallConfigure hconfigure [instanceStart]
  have hlate : ∃ connection, (machine jsonBody 65536 smallCalls).run
      ⟨smallConfigure, [instanceStart], .connecting, none, smallConfigure⟩ (late jsonBody noContent instanceStart) =
      some ⟨smallConfigure, [instanceStart], .raised (.api (.timedOut "PUT" "/actions")), some connection,
        smallConfigure ++ [instanceStart]⟩ :=
    run_late (hstart instanceStart List.mem_cons_self) hok
  obtain ⟨connection, hrun⟩ := hlate
  have hreachable := (Machine.Reachable.of_run hdone).run hrun
  have hconfigured := starts_as_configured 65536 "/srv/vmlinux" "console=ttyS0" "/run/ubuntu-5f4e3d2c1b0a" smallConfig
    hreachable
  exact ⟨_, hreachable, rfl, hconfigured.2.1 (.inl (List.mem_append_right _ List.mem_cons_self))⟩

end ApiPath

end Keycard.EndToEnd
