import Keycard.GuestAgent.Session

/-!
# The steps of a session

What each step can do, once and for all, with what it has checked.  Most steps are those of the pump, the
writer, the readers and the hosts: they leave the exit task and the accept loop where they are, and no
reader comes to life in them.
-/

open Reasoning

namespace Keycard.GuestAgent

open Session

/-- One suspension of `detach`. -/
inductive Detaches (s : Session) : Detach → Session → Option Detach → Prop
  | takes : Detaches s .taking s.takeReaders (some (.joining s.readers))
  | joined : Detaches s (.joining []) s (some .clearingData)
  | joins {x : Stream} {rest : List Stream} (hended : s.tasks x = some .ended) :
      Detaches s (.joining (x :: rest)) { s with tasks := s.tasks.abortHead rest } (some (.joining rest))
  | clearsData (hfree : s.dataLocked = false) :
      Detaches s .clearingData { s with dataOut := none } (some .clearingCtrl)
  | clearsCtrl (hfree : s.ctrlLocked = false) : Detaches s .clearingCtrl { s with ctrlOut := none } none

theorem detach_detaches {s t : Session} {d : Detach} {next : Option Detach}
    (h : s.detach d = some (t, next)) : Detaches s d t next := by
  unfold Session.detach at h
  split at h
  · cases h
    exact .takes
  · cases h
    exact .joined
  · split at h <;> cases h
    exact .joins (Tasks.isEnded_iff.mp ‹_›)
  · split at h <;> cases h
    exact .clearsData (by simpa using ‹¬ s.dataLocked = true›)
  · split at h <;> cases h
    exact .clearsCtrl (by simpa using ‹¬ s.ctrlLocked = true›)

inductive Step (window : Nat) (s : Session) : Event → Session → Prop
  | shellExits {code : Int32} (hwaiting : s.exitTask = .waiting) :
      Step window s (.shellExits code) { s with exitTask := .reaped code }
  -- the host
  | hostTakes {x : Stream} {n : Nat} (hn : n ≤ (s.host x).unread) :
      Step window s (.hostTakes x n) (s.setHost x { s.host x with taken := (s.host x).taken + n })
  | hostLeaves {x : Stream} : Step window s (.hostLeaves x) (s.setHost x { s.host x with gone := true })
  -- the pump
  | pumpEnds {c : Bool} (hp : s.pump = .alive .reading c) :
      Step window s (.pumpReads none) { s with pump := .ended }
  | pumpReads {chunk : Bytes} {c : Bool} (hp : s.pump = .alive .reading c) (hchunk : isChunk chunk = true) :
      Step window s (.pumpReads (some chunk))
        { s with pump := .alive (.locking chunk) c, output := s.output ++ chunk }
  | pumpDiscards {chunk : Bytes} {c : Bool} (hp : s.pump = .alive (.locking chunk) c)
      (hslot : s.dataOut = none) : Step window s .pumpLocks { s with pump := .alive .reading c }
  | pumpLocks {chunk : Bytes} {c : Bool} {k : Nat} (hp : s.pump = .alive (.locking chunk) c)
      (hslot : s.dataOut = some k) : Step window s .pumpLocks { s with pump := .alive (.writing chunk) c }
  | pumpWrites {rest : Bytes} {c : Bool} {k n : Nat} (hp : s.pump = .alive (.writing rest) c)
      (hslot : s.dataOut = some k) (hn : (s.host ⟨k, .data⟩).accepts window n rest = true) :
      Step window s (.pumpWrites n)
        { s.deliver ⟨k, .data⟩ (rest.take n) with pump := .alive (.next (rest.drop n)) c }
  | pumpWriteFails {rest : Bytes} {c : Bool} {k : Nat} (hp : s.pump = .alive (.writing rest) c)
      (hslot : s.dataOut = some k) (hgone : (s.host ⟨k, .data⟩).gone = true) :
      Step window s .pumpWriteFails { s with pump := .alive .reading c, dataOut := none }
  | pumpDropped {p : PumpPoint} (hp : s.pump = .alive p true) :
      Step window s .pumpDropped { s with pump := .ended }
  -- the writer of the pty
  | writerReceives {chunk : Bytes} {rest : List Bytes} (hw : s.ptyWriter = .receiving)
      (hinput : s.input = chunk :: rest) :
      Step window s .writerReceives { s with ptyWriter := .next chunk, input := rest }
  | writerWrites {rest : Bytes} {n : Nat} (hw : s.ptyWriter = .writing rest) (hn : 0 < n ∧ n ≤ rest.length) :
      Step window s (.writerWrites n)
        { s with ptyWriter := .next (rest.drop n), typed := s.typed ++ rest.take n }
  | writerFails {rest : Bytes} (hw : s.ptyWriter = .writing rest) :
      Step window s .writerFails { s with ptyWriter := .ended }
  | writerEnds (hw : s.ptyWriter = .receiving) (hholder : s.holder = .dropped) :
      Step window s .writerEnds { s with ptyWriter := .ended }
  -- the readers
  | dataEnds {k : Nat} {c : Bool} (ht : s.tasks ⟨k, .data⟩ = some (.alive .reading c)) :
      Step window s (.dataReads k none) (s.setReader ⟨k, .data⟩ .ended)
  | dataReads {k : Nat} {c : Bool} {chunk : Bytes} (ht : s.tasks ⟨k, .data⟩ = some (.alive .reading c))
      (hchunk : isChunk chunk = true) :
      Step window s (.dataReads k (some chunk)) { s.setReader ⟨k, .data⟩ (.alive (.sending chunk) c) with
        received := Function.update s.received k (s.received k ++ chunk) }
  | dataRefused {k : Nat} {c : Bool} {chunk : Bytes}
      (ht : s.tasks ⟨k, .data⟩ = some (.alive (.sending chunk) c)) (hw : s.ptyWriter = .ended) :
      Step window s (.dataSends k) (s.setReader ⟨k, .data⟩ .ended)
  | dataSends {k : Nat} {c : Bool} {chunk : Bytes}
      (ht : s.tasks ⟨k, .data⟩ = some (.alive (.sending chunk) c)) (hroom : s.input.length < inputQueue) :
      Step window s (.dataSends k)
        { s.setReader ⟨k, .data⟩ (.alive .reading c) with input := s.input ++ [chunk] }
  | ctrlEnds {k : Nat} {c : Bool} (ht : s.tasks ⟨k, .ctrl⟩ = some (.alive .reading c)) :
      Step window s (.ctrlReads k none) (s.setReader ⟨k, .ctrl⟩ .ended)
  | ctrlReads {k : Nat} {c : Bool} {resize : Option Winsize}
      (ht : s.tasks ⟨k, .ctrl⟩ = some (.alive .reading c)) : Step window s (.ctrlReads k (some resize))
        { s with winsize := if s.running then resize.getD s.winsize else s.winsize }
  | readerDropped {x : Stream} {p : ReadPoint} (ht : s.tasks x = some (.alive p true)) :
      Step window s (.readerDropped x) (s.setReader x .ended)
  -- the exit task
  | exitStops {code : Int32} (hexit : s.exitTask = .reaped code) :
      Step window s .exitRuns { s with running := false, exitTask := .draining code }
  | exitAborts {code : Int32} (hexit : s.exitTask = .draining code) :
      Step window s .exitRuns { s with pump := s.pump.abort, exitTask := .joining code }
  | exitJoins {code : Int32} (hexit : s.exitTask = .joining code) (hp : s.pump = .ended) :
      Step window s .exitRuns { s with exitTask := .locking code }
  | exitSkips {code : Int32} (hexit : s.exitTask = .locking code) (hslot : s.ctrlOut = none) :
      Step window s .exitRuns { s with exitTask := .detaching .taking }
  | exitLocks {code : Int32} {k : Nat} (hexit : s.exitTask = .locking code) (hslot : s.ctrlOut = some k) :
      Step window s .exitRuns { s with exitTask := .reporting (exitLine code) }
  | exitWrites {rest : Bytes} {k n : Nat} (hexit : s.exitTask = .reporting rest) (hslot : s.ctrlOut = some k)
      (hn : (s.host ⟨k, .ctrl⟩).accepts window n rest = true) : Step window s (.exitWrites n)
        { s.deliver ⟨k, .ctrl⟩ (rest.take n) with exitTask := .reporting (rest.drop n) }
  | exitWriteFails {rest : Bytes} {k : Nat} (hexit : s.exitTask = .reporting rest)
      (hslot : s.ctrlOut = some k) (hgone : (s.host ⟨k, .ctrl⟩).gone = true) :
      Step window s .exitWriteFails { s with exitTask := .reporting [] }
  | exitShuts {k : Nat} (hexit : s.exitTask = .reporting []) (hslot : s.ctrlOut = some k) :
      Step window s .exitRuns
        { s.setHost ⟨k, .ctrl⟩ { s.host ⟨k, .ctrl⟩ with shut := true } with exitTask := .detaching .taking }
  | exitDetaches {d : Detach} {t : Session} {next : Option Detach} (hexit : s.exitTask = .detaching d)
      (hd : Detaches s d t next) : Step window s .exitRuns { t with exitTask := next.elim .done .detaching }
  -- the accept loop
  | reattaches (hholder : s.holder = .accepting) (hrunning : s.running = true) : Step window s .serves
      { s with holder := .attaching s.conns (.detaching .taking), conns := s.conns + 1 }
  | replaces (hholder : s.holder = .accepting) (hrunning : s.running = false) :
      Step window s .serves { s with holder := .replaced }
  | attachDetaches {k : Nat} {d : Detach} {t : Session} {next : Option Detach}
      (hholder : s.holder = .attaching k (.detaching d)) (hd : Detaches s d t next) : Step window s .attachRuns
        { t with holder := .attaching k (next.elim .installingData .detaching) }
  | installsData {k : Nat} (hholder : s.holder = .attaching k .installingData) (hfree : s.dataLocked = false) :
      Step window s .attachRuns { s with dataOut := some k, holder := .attaching k .installingCtrl }
  | installsCtrl {k : Nat} (hholder : s.holder = .attaching k .installingCtrl) (hfree : s.ctrlLocked = false) :
      Step window s .attachRuns { s with ctrlOut := some k, holder := .attaching k .spawning }
  | spawns {k : Nat} (hholder : s.holder = .attaching k .spawning) : Step window s .attachRuns
      { (s.setReader ⟨k, .data⟩ (.alive .reading false)).setReader ⟨k, .ctrl⟩ (.alive .reading false) with
        holder := .attaching k .registering }
  | registers {k : Nat} (hholder : s.holder = .attaching k .registering) : Step window s .attachRuns
      { s with readers := s.readers ++ [⟨k, .data⟩, ⟨k, .ctrl⟩], holder := .accepting }
  | drops (hholder : s.holder = .replaced) : Step window s .sessionDropped
      { s with tasks := s.tasks.abortAll s.readers, readers := [], holder := .dropped }

section

variable {window : Nat} {s t : Session} {e : Event}

theorem exitRuns_step (h : s.exitRuns = some t) : Step window s .exitRuns t := by
  unfold Session.exitRuns at h
  split at h
  · cases h
  · cases h
    exact .exitStops ‹_›
  · cases h
    exact .exitAborts ‹_›
  · split at h <;> cases h
    exact .exitJoins ‹_› ‹_›
  · split at h <;> cases h
    · exact .exitSkips ‹_› ‹_›
    · exact .exitLocks ‹_› ‹_›
  · split at h <;> cases h
    exact .exitShuts ‹_› ‹_›
  · cases h
  · obtain ⟨⟨u, next⟩, hd, rfl⟩ := Option.map_eq_some_iff.mp h
    exact .exitDetaches ‹_› (detach_detaches hd)
  · cases h

theorem attachRuns_step (h : s.attachRuns = some t) : Step window s .attachRuns t := by
  unfold Session.attachRuns at h
  split at h
  · obtain ⟨⟨u, next⟩, hd, rfl⟩ := Option.map_eq_some_iff.mp h
    exact .attachDetaches ‹_› (detach_detaches hd)
  · split at h <;> cases h
    exact .installsData ‹_› (by simpa using ‹¬ s.dataLocked = true›)
  · split at h <;> cases h
    exact .installsCtrl ‹_› (by simpa using ‹¬ s.ctrlLocked = true›)
  · cases h
    exact .spawns ‹_›
  · cases h
    exact .registers ‹_›
  · cases h

theorem step_step (h : step window s e = some t) : Step window s e t := by
  cases e with
  | shellExits code =>
    simp only [step] at h
    split at h <;> cases h
    exact .shellExits ‹_›
  | hostTakes x n =>
    simp only [step] at h
    split at h <;> cases h
    exact .hostTakes (by simp_all)
  | hostLeaves x =>
    cases h
    exact .hostLeaves
  | pumpReads reply =>
    simp only [step, Session.pumpReads] at h
    split at h
    · split at h
      · cases h
        exact .pumpEnds ‹_›
      · split at h <;> cases h
        exact .pumpReads ‹_› ‹_›
    · cases h
  | pumpLocks =>
    simp only [step, Session.pumpLocks] at h
    split at h
    · split at h <;> cases h
      · exact .pumpDiscards ‹_› ‹_›
      · exact .pumpLocks ‹_› ‹_›
    · cases h
  | pumpWrites n =>
    simp only [step, Session.pumpWrites] at h
    split at h
    · split at h <;> cases h
      exact .pumpWrites ‹_› ‹_› ‹_›
    · cases h
  | pumpWriteFails =>
    simp only [step, Session.pumpWriteFails] at h
    split at h
    · split at h <;> cases h
      exact .pumpWriteFails ‹_› ‹_› ‹_›
    · cases h
  | pumpDropped =>
    simp only [step, Session.pumpDropped] at h
    split at h <;> cases h
    exact .pumpDropped ‹_›
  | writerReceives =>
    simp only [step, Session.writerReceives] at h
    split at h <;> cases h
    exact .writerReceives ‹_› ‹_›
  | writerWrites n =>
    simp only [step, Session.writerWrites] at h
    split at h
    · split at h <;> cases h
      rename_i hn
      exact .writerWrites ‹_› (by simpa using hn)
    · cases h
  | writerFails =>
    simp only [step, Session.writerFails] at h
    split at h <;> cases h
    exact .writerFails ‹_›
  | writerEnds =>
    simp only [step, Session.writerEnds] at h
    split at h <;> cases h
    exact .writerEnds (by simp_all) (by simp_all)
  | dataReads k reply =>
    simp only [step, Session.dataReads] at h
    split at h
    · split at h
      · cases h
        exact .dataEnds ‹_›
      · split at h <;> cases h
        exact .dataReads ‹_› ‹_›
    · cases h
  | dataSends k =>
    simp only [step, Session.dataSends] at h
    split at h
    · split at h
      · cases h
        exact .dataRefused ‹_› ‹_›
      · split at h <;> cases h
        exact .dataSends ‹_› ‹_›
    · cases h
  | ctrlReads k line =>
    simp only [step, Session.ctrlReads] at h
    split at h
    · split at h <;> cases h
      · exact .ctrlEnds ‹_›
      · exact .ctrlReads ‹_›
    · cases h
  | readerDropped x =>
    simp only [step, Session.readerDropped] at h
    split at h <;> cases h
    exact .readerDropped ‹_›
  | exitRuns => exact exitRuns_step h
  | exitWrites n =>
    simp only [step, Session.exitWrites] at h
    split at h
    · split at h <;> cases h
      exact .exitWrites ‹_› ‹_› ‹_›
    · cases h
  | exitWriteFails =>
    simp only [step, Session.exitWriteFails] at h
    split at h
    · split at h <;> cases h
      exact .exitWriteFails ‹_› ‹_› ‹_›
    · cases h
  | serves =>
    simp only [step, Session.serves] at h
    split at h
    · split at h <;> cases h
      · exact .reattaches ‹_› ‹_›
      · exact .replaces ‹_› (by simpa using ‹¬ s.running = true›)
    · cases h
  | attachRuns => exact attachRuns_step h
  | sessionDropped =>
    simp only [step, Session.drop] at h
    split at h <;> cases h
    exact .drops ‹_›

end

/-! ## Steps aside -/

/-- A step of the host, of a pty task or of a reader. -/
def Event.isAside : Event → Bool
  | .shellExits _ => false
  | .exitRuns | .exitWrites _ | .exitWriteFails => false
  | .serves | .attachRuns | .sessionDropped => false
  | _ => true

/-- What such a step leaves alone; the pump may clear the slot of a connection that is gone. -/
structure Aside (s t : Session) : Prop where
  running : t.running = s.running
  exitTask : t.exitTask = s.exitTask
  dataOut : t.dataOut = s.dataOut ∨ t.dataOut = none
  ctrlOut : t.ctrlOut = s.ctrlOut
  tasks : s.tasks.Wanes t.tasks
  readers : t.readers = s.readers
  holder : t.holder = s.holder
  conns : t.conns = s.conns

theorem Aside.of_tasks {s t : Session} (htasks : s.tasks.Wanes t.tasks)
    (h : t = { s with
      tasks := t.tasks, ptyWriter := t.ptyWriter, input := t.input, winsize := t.winsize,
      received := t.received, typed := t.typed, pump := t.pump, output := t.output, host := t.host }) :
    Aside s t := by
  refine ⟨?_, ?_, .inl ?_, ?_, htasks, ?_, ?_, ?_⟩ <;> rw [h]

theorem Step.aside {window : Nat} {s t : Session} {e : Event} (h : Step window s e t)
    (he : e.isAside = true) : Aside s t := by
  cases h with
  | shellExits | exitStops | exitAborts | exitJoins | exitSkips | exitLocks | exitWrites | exitWriteFails
  | exitShuts | exitDetaches | reattaches | replaces | attachDetaches | installsData | installsCtrl | spawns
  | registers | drops => cases he
  | pumpWriteFails => exact ⟨rfl, rfl, .inr rfl, rfl, .refl _, rfl, rfl, rfl⟩
  | dataEnds ht | dataRefused ht | ctrlEnds ht | readerDropped ht =>
    exact .of_tasks (Tasks.wanes_end (by simp [Tasks.Begun, ht])) rfl
  | dataReads ht | dataSends ht => exact .of_tasks (Tasks.wanes_move ht _) rfl
  | _ => exact .of_tasks (.refl _) rfl

end Keycard.GuestAgent
