import Keycard.Reasoning.Concat
import Keycard.GuestAgent.ShellExit

/-!
# Bytes and connections

What is typed is made of one prefix of each connection's data, in the order in which they attached, and what
each connection is sent is one piece of what the shell prints, in the same order.  The first rests on `attach`
waiting for every reader it has aborted before it spawns its own, and on the queue between them and the pty;
the second on the slot only ever being handed on to a later connection.
-/

open Reasoning

namespace Keycard.GuestAgent

open Session

/-- What has been taken from the queue and not been written to the pty yet. -/
def PtyWriter.inHand : PtyWriter → Bytes
  | .writing rest => rest
  | _ => []

/-- What has been read from the pty and not been sent anywhere yet. -/
def PumpPoint.inHand : PumpPoint → Bytes
  | .reading => []
  | .locking chunk => chunk
  | .writing rest => rest

@[simp] theorem PtyWriter.inHand_next (bs : Bytes) : (PtyWriter.next bs).inHand = bs := by
  cases bs <;> rfl

@[simp] theorem PumpPoint.inHand_next (bs : Bytes) : (PumpPoint.next bs).inHand = bs := by
  cases bs <;> rfl

namespace AttachPoint

def hasTaken : AttachPoint → Bool
  | .detaching .taking => false
  | _ => true

/-- The writers of the connection are not in the slots yet. -/
def hasWriters : AttachPoint → Bool
  | .detaching _ => true
  | .installingData => true
  | _ => false

end AttachPoint

namespace Session

section

variable {window : Nat} {s t : Session} {e : Event}

/-! ## One connection at a time -/

/-- The connection that is being attached is the last one there has been. -/
def Newest (s : Session) : Prop :=
  ∀ k p, s.holder = .attaching k p → s.conns = k + 1

theorem Newest.keeps (h : s.Newest) (hconns : t.conns = s.conns)
    (hholder : ∀ k p, t.holder = .attaching k p → ∃ p', s.holder = .attaching k p') : t.Newest := by
  intro k p hk
  obtain ⟨p', hk'⟩ := hholder k p hk
  exact hconns.trans (h k p' hk')

theorem Newest.step (h : s.Newest) (hst : Step window s e t) : t.Newest := by
  have haside := hst.aside
  cases hst with
  | shellExits | exitStops | exitAborts | exitJoins | exitSkips | exitLocks | exitWrites | exitWriteFails
  | exitShuts => exact h
  | exitDetaches _ hd =>
    rw [detaches_eq hd]
    exact h
  | reattaches =>
    intro k p hk
    rw [← (Holder.attaching.inj hk).1]
  | replaces | registers | drops => exact fun k p hk ↦ (by cases hk)
  | attachDetaches hholder hd =>
    rw [detaches_eq hd]
    exact h.keeps rfl fun k p hk ↦ ⟨_, (Holder.attaching.inj hk).1 ▸ hholder⟩
  | installsData hholder | installsCtrl hholder | spawns hholder =>
    exact h.keeps rfl fun k p hk ↦ ⟨_, (Holder.attaching.inj hk).1 ▸ hholder⟩
  | _ =>
    have ha := haside rfl
    exact h.keeps ha.conns fun k p hk ↦ ⟨p, ha.holder ▸ hk⟩

theorem reachable_newest (h : (machine window).Reachable s) : s.Newest :=
  h.invariant (fun k p hk ↦ by cases hk; rfl) fun _ _ _ _ hi hst ↦ hi.step (step_step hst)

/-- Nobody registers a reader between the moment `attach` takes them and its end. -/
def Emptied (s : Session) : Prop :=
  ∀ k p, s.holder = .attaching k p → p.hasTaken = true → s.readers = []

theorem Emptied.step (h : s.Emptied) (hst : Step window s e t) : t.Emptied := by
  have haside := hst.aside
  cases hst with
  | shellExits | exitStops | exitAborts | exitJoins | exitSkips | exitLocks | exitWrites | exitWriteFails
  | exitShuts => exact h
  | exitDetaches _ hd =>
    cases hd with
    | takes => exact fun _ _ _ _ ↦ rfl
    | joined | joins | clearsData | clearsCtrl => exact h
  | reattaches =>
    intro k p hk htaken
    cases hk
    cases htaken
  | replaces | registers | drops => exact fun k p hk ↦ (by cases hk)
  | attachDetaches hholder hd =>
    cases hd with
    | takes => exact fun _ _ _ _ ↦ rfl
    | joined | joins | clearsData | clearsCtrl => exact fun _ _ _ _ ↦ h _ _ hholder rfl
  | installsData hholder | installsCtrl hholder | spawns hholder => exact fun _ _ _ _ ↦ h _ _ hholder rfl
  | _ =>
    have ha := haside rfl
    intro k p hk htaken
    exact ha.readers.trans (h k p (ha.holder ▸ hk) htaken)

theorem reachable_emptied (h : (machine window).Reachable s) : s.Emptied :=
  h.invariant (fun k p hk htaken ↦ by cases hk; cases htaken) fun _ _ _ _ hi hst ↦ hi.step (step_step hst)

/-- When `attach` is about to spawn its readers, all those before have ended. -/
theorem none_live (haccounted : s.Accounted) (hretreated : s.Retreated) (hemptied : s.Emptied) {k : Nat}
    (hholder : s.holder = .attaching k .spawning) (x : Stream) : ¬ s.tasks.Live x := by
  intro hlive
  have hnot : ¬ s.exitTask.hasTaken = true := by
    intro htaken
    have hidle := (hretreated htaken).idle
    simp [attaching, hholder] at hidle
  have hexit : s.exitJoins = [] := by
    unfold exitJoins
    split
    · rename_i d hd
      cases d with
      | joining rest => exact absurd (by rw [hd]; rfl) hnot
      | taking | clearingData | clearingCtrl => rfl
    · rfl
  rcases haccounted.live x hlive with hx | hx | ⟨hx, -⟩
  · rw [mem_handles, hemptied k _ hholder rfl, hexit] at hx
    simp [attachJoins, hholder] at hx
  · rw [hholder] at hx
    cases hx
  · rw [hholder] at hx
    cases hx

/-- The data reader of a connection is not alive any more when that of a later one is spawned. -/
def Alone (s : Session) : Prop :=
  ∀ j k, s.tasks.Live ⟨k, .data⟩ → s.tasks.Begun ⟨j, .data⟩ → j ≤ k

theorem Alone.wanes (h : s.Alone) (hwanes : s.tasks.Wanes t.tasks) : t.Alone :=
  fun j k hlive hbegun ↦ h j k (hwanes.live _ hlive) ((hwanes.begun _).mp hbegun)

theorem Alone.spawns (haccounted : s.Accounted) (hnewest : s.Newest) {k : Nat}
    (hholder : s.holder = .attaching k .spawning) (hnone : ∀ x, ¬ s.tasks.Live x) :
    ({ (s.setReader ⟨k, .data⟩ (.alive .reading false)).setReader ⟨k, .ctrl⟩ (.alive .reading false) with
      holder := .attaching k .registering } : Session).Alone := by
  have hold (i : Nat) (hi : i ≠ k) : ((s.setReader ⟨k, .data⟩ (.alive .reading false)).setReader ⟨k, .ctrl⟩
      (.alive .reading false)).tasks ⟨i, .data⟩ = s.tasks ⟨i, .data⟩ := by
    simp only [setReader]
    rw [Tasks.set_of_ne (by simp), Tasks.set_of_ne (by simp [hi])]
  intro j i hlive hbegun
  have hi : i = k := by
    by_contra hi
    exact hnone ⟨i, .data⟩ (by simpa only [Tasks.Live, hold i hi] using hlive)
  by_cases hj : j = k
  · exact Nat.le_of_eq (hj.trans hi.symm)
  · rw [Tasks.Begun, hold j hj] at hbegun
    have hlt := (haccounted.fresh ⟨j, .data⟩ hbegun).1
    rw [hnewest k _ hholder] at hlt
    exact hi ▸ Nat.le_of_lt_succ hlt

theorem Alone.step (h : s.Alone) (haccounted : s.Accounted) (hretreated : s.Retreated) (hemptied : s.Emptied)
    (hnewest : s.Newest) (hst : Step window s e t) : t.Alone := by
  have haside := hst.aside
  cases hst with
  | shellExits | exitStops | exitAborts | exitJoins | exitSkips | exitLocks | exitWrites | exitWriteFails
  | exitShuts | reattaches | replaces | installsData | installsCtrl | registers => exact h
  | exitDetaches _ hd | attachDetaches _ hd =>
    cases hd with
    | takes | joins => exact h.wanes (Tasks.wanes_abortHead _ _)
    | joined | clearsData | clearsCtrl => exact h
  | spawns hholder =>
    exact .spawns haccounted hnewest hholder (none_live haccounted hretreated hemptied hholder)
  | drops => exact h.wanes (Tasks.wanes_abortAll _ _)
  | _ => exact h.wanes (haside rfl).tasks

theorem reached_alone (h : (machine window).ReachedBy TakesLast s) : s.Alone := by
  refine h.invariant (fun j k _ hbegun ↦ absurd rfl hbegun) fun s e t hs hi _ hst ↦ ?_
  exact hi.step (reachable_accounted hs.reachable) (reached_retreated hs) (reachable_emptied hs.reachable)
    (reachable_newest hs.reachable) (step_step hst)

/-! ## What is typed -/

/-- How much of what the data reader of `k` has read is in the queue, or was. -/
def Reads (s : Session) (k : Nat) (accepted : Bytes) : Prop :=
  match s.tasks.point? ⟨k, .data⟩ with
  | none => accepted = [] ∧ s.received k = []
  | some (some .reading) => s.received k = accepted
  | some (some (.sending chunk)) => s.received k = accepted ++ chunk
  | some none => accepted <+: s.received k

theorem Reads.begins {k : Nat} {accepted : Bytes} (h : s.Reads k accepted) : accepted <+: s.received k := by
  unfold Reads at h
  split at h
  · rw [h.1]
    exact List.nil_prefix
  · exact ⟨[], by rw [h, List.append_nil]⟩
  · exact ⟨_, h.symm⟩
  · exact h

theorem Reads.congr {k : Nat} {accepted : Bytes} (h : s.Reads k accepted)
    (htasks : t.tasks.point? ⟨k, .data⟩ = s.tasks.point? ⟨k, .data⟩) (hreceived : t.received k = s.received k) :
    t.Reads k accepted := by
  rw [Reads, htasks, hreceived]
  exact h

theorem Reads.eq_nil {k : Nat} {accepted : Bytes} (h : s.Reads k accepted)
    (hbegun : ¬ s.tasks.Begun ⟨k, .data⟩) : accepted = [] ∧ s.received k = [] := by
  have hnone : s.tasks.point? ⟨k, .data⟩ = none := by
    simpa [Tasks.point?, Tasks.Begun] using hbegun
  rw [Reads, hnone] at h
  exact h

/-- `accepted k` is what connection `k` has had put into the queue. -/
structure Typed (s : Session) (accepted : Nat → Bytes) : Prop where
  reads : ∀ k, s.Reads k (accepted k)
  flow : s.ptyWriter ≠ .ended →
    s.typed ++ s.ptyWriter.inHand ++ s.input.flatten = concat accepted s.conns
  typed : s.typed <+: concat accepted s.conns

theorem Typed.keeps {accepted : Nat → Bytes} (h : s.Typed accepted) (hreads : ∀ k, t.Reads k (accepted k))
    (hw : t.ptyWriter = s.ptyWriter) (htyped : t.typed = s.typed) (hinput : t.input = s.input)
    (hconns : t.conns = s.conns) : t.Typed accepted := by
  refine ⟨hreads, ?_, ?_⟩
  · rw [hw, htyped, hinput, hconns]
    exact h.flow
  · rw [htyped, hconns]
    exact h.typed

/-- The reader of one stream goes on, or ends. -/
theorem Typed.moves {accepted : Nat → Bytes} (h : s.Typed accepted) (x : Stream) (v : Spawned ReadPoint)
    (hx : ∀ k, x = ⟨k, .data⟩ → (s.setReader x v).Reads k (accepted k)) : (s.setReader x v).Typed accepted := by
  refine h.keeps (fun k ↦ ?_) rfl rfl rfl rfl
  by_cases hk : x = ⟨k, .data⟩
  · exact hx k hk
  · exact (h.reads k).congr (Tasks.point?_set_of_ne (Ne.symm hk) _ _) rfl

theorem Typed.ends {accepted : Nat → Bytes} (h : s.Typed accepted) (x : Stream) :
    (s.setReader x .ended).Typed accepted := by
  refine h.moves x .ended fun k hk ↦ ?_
  subst hk
  simpa [Reads, setReader, Spawned.point?] using (h.reads k).begins

theorem Typed.reattaches {accepted : Nat → Bytes} (h : s.Typed accepted) (haccounted : s.Accounted)
    (holder : Holder) : ({ s with holder, conns := s.conns + 1 } : Session).Typed accepted := by
  have hnew : accepted s.conns = [] := by
    refine ((h.reads s.conns).eq_nil fun hbegun ↦ ?_).1
    exact Nat.lt_irrefl _ (haccounted.fresh _ hbegun).1
  have hconcat : concat accepted (s.conns + 1) = concat accepted s.conns := by
    rw [concat_succ, hnew, List.append_nil]
  have htyped : s.typed <+: concat accepted (s.conns + 1) := by
    rw [hconcat]
    exact h.typed
  exact ⟨h.reads, fun hw ↦ (h.flow hw).trans hconcat.symm, htyped⟩

theorem Typed.spawns {accepted : Nat → Bytes} (h : s.Typed accepted) (haccounted : s.Accounted) {k : Nat}
    (hholder : s.holder = .attaching k .spawning) :
    ((s.setReader ⟨k, .data⟩ (.alive .reading false)).setReader ⟨k, .ctrl⟩ (.alive .reading false)).Typed
      accepted := by
  have hnew : ¬ s.tasks.Begun ⟨k, .data⟩ :=
    fun hbegun ↦ (haccounted.fresh _ hbegun).2 ⟨_, hholder, by simp⟩
  obtain ⟨haccepted, hreceived⟩ := (h.reads k).eq_nil hnew
  have hdata : (s.setReader ⟨k, .data⟩ (.alive .reading false)).Typed accepted := by
    refine h.moves _ _ fun j hj ↦ ?_
    cases hj
    simpa [Reads, setReader, Spawned.point?, haccepted] using hreceived
  exact hdata.moves _ _ fun j hj ↦ (by cases hj)

theorem Typed.dataReads {accepted : Nat → Bytes} (h : s.Typed accepted) {k : Nat} {c : Bool} (chunk : Bytes)
    (ht : s.tasks ⟨k, .data⟩ = some (.alive .reading c)) :
    ({ s.setReader ⟨k, .data⟩ (.alive (.sending chunk) c) with
      received := Function.update s.received k (s.received k ++ chunk) } : Session).Typed accepted := by
  refine h.keeps (fun j ↦ ?_) rfl rfl rfl rfl
  by_cases hj : j = k
  · subst hj
    have hreads : s.received j = accepted j := by
      simpa [Reads, Tasks.point?, ht, Spawned.point?] using h.reads j
    simpa [Reads, setReader, Spawned.point?] using hreads
  · refine (h.reads j).congr (Tasks.point?_set_of_ne (by simp [hj]) _ _) ?_
    exact Function.update_of_ne hj _ _

/-- The one reader that is alive puts its chunk behind everything that was put into the queue before. -/
theorem Typed.dataSends {accepted : Nat → Bytes} (h : s.Typed accepted) (haccounted : s.Accounted)
    (halone : s.Alone) {k : Nat} {c : Bool} {chunk : Bytes}
    (ht : s.tasks ⟨k, .data⟩ = some (.alive (.sending chunk) c)) :
    ({ s.setReader ⟨k, .data⟩ (.alive .reading c) with input := s.input ++ [chunk] } : Session).Typed
      (Function.update accepted k (accepted k ++ chunk)) := by
  have hlive : s.tasks.Live ⟨k, .data⟩ := ⟨_, c, ht⟩
  have hk : k < s.conns := (haccounted.fresh _ hlive.begun).1
  have hlater (j : Nat) (hj : k < j) : accepted j = [] := by
    refine ((h.reads j).eq_nil fun hbegun ↦ ?_).1
    exact Nat.not_le_of_lt hj (halone j k hlive hbegun)
  have hconcat := concat_update_append hk hlater chunk
  refine ⟨fun j ↦ ?_, fun hw ↦ ?_, ?_⟩
  · by_cases hj : j = k
    · subst hj
      have hreads : s.received j = accepted j ++ chunk := by
        simpa [Reads, Tasks.point?, ht, Spawned.point?] using h.reads j
      simpa [Reads, setReader, Spawned.point?] using hreads
    · rw [Function.update_of_ne hj]
      exact (h.reads j).congr (Tasks.point?_set_of_ne (by simp [hj]) _ _) rfl
  · have hflow : s.typed ++ s.ptyWriter.inHand ++ (s.input ++ [chunk]).flatten =
        concat (Function.update accepted k (accepted k ++ chunk)) s.conns := by
      rw [hconcat, ← h.flow hw]
      simp
    exact hflow
  · exact h.typed.trans ⟨chunk, hconcat.symm⟩

theorem Typed.writerReceives {accepted : Nat → Bytes} (h : s.Typed accepted) {chunk : Bytes}
    {rest : List Bytes} (hw : s.ptyWriter = .receiving) (hinput : s.input = chunk :: rest) :
    ({ s with ptyWriter := .next chunk, input := rest } : Session).Typed accepted := by
  refine ⟨h.reads, fun _ ↦ ?_, h.typed⟩
  have hflow := h.flow (by simp [hw])
  rw [hw, hinput] at hflow
  rw [PtyWriter.inHand_next]
  simpa [PtyWriter.inHand] using hflow

theorem Typed.writerWrites {accepted : Nat → Bytes} (h : s.Typed accepted) {rest : Bytes}
    (hw : s.ptyWriter = .writing rest) (n : Nat) :
    ({ s with ptyWriter := .next (rest.drop n), typed := s.typed ++ rest.take n } : Session).Typed
      accepted := by
  have hflow := h.flow (by simp [hw])
  simp only [hw, PtyWriter.inHand] at hflow
  have hsplit : s.typed ++ rest.take n ++ (rest.drop n ++ s.input.flatten) = concat accepted s.conns := by
    rw [← hflow, List.append_assoc, ← List.append_assoc (rest.take n), List.take_append_drop,
      List.append_assoc]
  refine ⟨h.reads, fun _ ↦ ?_, ⟨_, hsplit⟩⟩
  rw [PtyWriter.inHand_next, List.append_assoc]
  exact hsplit

theorem Typed.writerEnds {accepted : Nat → Bytes} (h : s.Typed accepted) :
    ({ s with ptyWriter := .ended } : Session).Typed accepted :=
  ⟨h.reads, fun hw ↦ absurd rfl hw, h.typed⟩

theorem Typed.exists_step {accepted : Nat → Bytes} (h : s.Typed accepted) (haccounted : s.Accounted)
    (halone : s.Alone) (hst : Step window s e t) : ∃ accepted', t.Typed accepted' := by
  cases hst with
  | writerReceives hw hinput => exact ⟨accepted, h.writerReceives hw hinput⟩
  | writerWrites hw => exact ⟨accepted, h.writerWrites hw _⟩
  | writerFails | writerEnds => exact ⟨accepted, h.writerEnds⟩
  | dataEnds | dataRefused | ctrlEnds | readerDropped => exact ⟨accepted, h.ends _⟩
  | dataReads ht => exact ⟨accepted, h.dataReads _ ht⟩
  | dataSends ht => exact ⟨_, h.dataSends haccounted halone ht⟩
  | reattaches => exact ⟨accepted, h.reattaches haccounted _⟩
  | exitDetaches _ hd | attachDetaches _ hd =>
    refine ⟨accepted, ?_⟩
    cases hd with
    | takes | joins =>
      exact h.keeps (fun k ↦ (h.reads k).congr (Tasks.point?_abortHead _ _ _) rfl) rfl rfl rfl rfl
    | joined | clearsData | clearsCtrl => exact h.keeps h.reads rfl rfl rfl rfl
  | spawns hholder =>
    have hspawned := h.spawns haccounted hholder
    exact ⟨accepted, hspawned.keeps hspawned.reads rfl rfl rfl rfl⟩
  | drops =>
    exact ⟨accepted, h.keeps (fun k ↦ (h.reads k).congr (Tasks.point?_abortAll _ _ _) rfl) rfl rfl rfl rfl⟩
  | _ => exact ⟨accepted, h.keeps h.reads rfl rfl rfl rfl⟩

theorem reached_typed (h : (machine window).ReachedBy TakesLast s) : ∃ accepted, s.Typed accepted := by
  have hinit : Session.start.Typed fun _ ↦ [] :=
    ⟨fun k ↦ ⟨rfl, rfl⟩, fun _ ↦ by simp [Session.start, concat, PtyWriter.inHand], List.nil_prefix⟩
  refine h.invariant (I := fun s ↦ ∃ accepted, s.Typed accepted) ⟨_, hinit⟩ fun s e t hs hi _ hst ↦ ?_
  obtain ⟨accepted, htyped⟩ := hi
  exact htyped.exists_step (reachable_accounted hs.reachable) (reached_alone hs) (step_step hst)

/-! ## What the connections are sent -/

/-- What the pump has read and not sent anywhere yet. -/
def inHand (s : Session) : Bytes :=
  match s.pump with
  | .alive p _ => p.inHand
  | .ended => []

def written (s : Session) (k : Nat) : Bytes :=
  (s.host ⟨k, .data⟩).written

/-- How many connections have been in the slot so far. -/
def opened (s : Session) : Nat :=
  match s.holder with
  | .attaching k p => if p.hasWriters then k else k + 1
  | _ => s.conns

theorem Newest.opened_le (h : s.Newest) : s.opened ≤ s.conns := by
  unfold opened
  split
  · rename_i k p hholder
    rw [h k p hholder]
    split
    · exact Nat.le_succ k
    · exact Nat.le_refl _
  · exact Nat.le_refl _

/-- `gap k` was discarded before connection `k` was sent anything, and `idle` since the last one was. -/
structure Poured (s : Session) (gap : Nat → Bytes) (idle : Bytes) : Prop where
  flow : s.output = concat (fun k ↦ gap k ++ s.written k) s.conns ++ idle ++ s.inHand
  whole : ∀ k, s.dataOut = some k → s.pump ≠ .ended → s.written k ≠ [] → idle = []
  last : ∀ k, s.dataOut = some k → k + 1 = s.opened
  unopened : ∀ j, s.opened ≤ j → gap j = [] ∧ s.written j = []

section

variable {gap : Nat → Bytes} {idle : Bytes}

theorem Poured.keeps (h : s.Poured gap idle) (houtput : t.output = s.output) (hhand : t.inHand = s.inHand)
    (hwritten : ∀ k, t.written k = s.written k) (hconns : t.conns = s.conns) (hopened : t.opened = s.opened)
    (hslot : t.dataOut = s.dataOut ∨ t.dataOut = none) (hpump : t.pump ≠ .ended → s.pump ≠ .ended) :
    t.Poured gap idle := by
  have hstays {k : Nat} (hk : t.dataOut = some k) : s.dataOut = some k := by
    rcases hslot with hsame | hnone
    · exact hsame ▸ hk
    · rw [hnone] at hk
      cases hk
  refine ⟨?_, fun k hk halive ↦ ?_, fun k hk ↦ ?_, fun j hj ↦ ?_⟩
  · simp only [houtput, hhand, hwritten, hconns]
    exact h.flow
  · rw [hwritten]
    exact h.whole k (hstays hk) (hpump halive)
  · rw [hopened]
    exact h.last k (hstays hk)
  · rw [hwritten]
    exact h.unopened j (hopened ▸ hj)

theorem Poured.host (h : s.Poured gap idle) {x : Stream} {v : HostEnd}
    (hv : x.channel = .ctrl ∨ v.written = (s.host x).written) : (s.setHost x v).Poured gap idle := by
  refine h.keeps rfl rfl (fun k ↦ ?_) rfl rfl (.inl rfl) id
  by_cases hx : (⟨k, .data⟩ : Stream) = x
  · subst hx
    rcases hv with hv | hv
    · cases hv
    · simpa [written, setHost] using hv
  · simp [written, setHost, Function.update_of_ne hx]

/-- What the pump had in its hand is discarded. -/
theorem Poured.discards (h : s.Poured gap idle) (houtput : t.output = s.output) (hhand : t.inHand = [])
    (hhost : t.host = s.host) (hconns : t.conns = s.conns) (hholder : t.holder = s.holder)
    (hslot : t.dataOut = s.dataOut ∨ t.dataOut = none) (hstops : t.dataOut = none ∨ t.pump = .ended) :
    t.Poured gap (idle ++ s.inHand) := by
  have hwritten (k : Nat) : t.written k = s.written k := by simp only [written, hhost]
  have hopened : t.opened = s.opened := by simp only [opened, hholder, hconns]
  refine ⟨?_, fun k hk halive ↦ ?_, fun k hk ↦ ?_, fun j hj ↦ ?_⟩
  · simp only [houtput, hhand, hwritten, hconns, List.append_nil]
    rw [h.flow, List.append_assoc]
  · rcases hstops with hnone | hended
    · rw [hnone] at hk
      cases hk
    · exact absurd hended halive
  · rcases hslot with hsame | hnone
    · rw [hopened]
      exact h.last k (hsame ▸ hk)
    · rw [hnone] at hk
      cases hk
  · rw [hwritten]
    exact h.unopened j (hopened ▸ hj)

theorem Poured.pumpReads (h : s.Poured gap idle) {c : Bool} (hp : s.pump = .alive .reading c) (chunk : Bytes) :
    ({ s with pump := .alive (.locking chunk) c, output := s.output ++ chunk } : Session).Poured gap idle := by
  have hhand : s.inHand = [] := by simp only [inHand, hp, PumpPoint.inHand]
  have hflow := h.flow
  rw [hhand, List.append_nil] at hflow
  refine ⟨?_, fun k hk _ ↦ h.whole k hk (by simp [hp]), h.last, h.unopened⟩
  exact congrArg (· ++ chunk) hflow

/-- The connection in the slot is sent the next piece, behind what was discarded before it was sent anything. -/
theorem Poured.pumpWrites (h : s.Poured gap idle) (hnewest : s.Newest) {rest : Bytes} {c : Bool} {k : Nat}
    (hp : s.pump = .alive (.writing rest) c) (hslot : s.dataOut = some k) (n : Nat) :
    ({ s.deliver ⟨k, .data⟩ (rest.take n) with pump := .alive (.next (rest.drop n)) c } : Session).Poured
      (Function.update gap k (gap k ++ idle)) [] := by
  set t : Session := { s.deliver ⟨k, .data⟩ (rest.take n) with pump := .alive (.next (rest.drop n)) c } with ht
  have hk : k + 1 = s.opened := h.last k hslot
  have hself : t.written k = s.written k ++ rest.take n := by
    simp [ht, written, deliver, setHost, HostEnd.receive]
  have hother (j : Nat) (hj : j ≠ k) : t.written j = s.written j := by
    simp [ht, written, deliver, setHost, Function.update_of_ne, hj]
  have hpiece : gap k ++ idle ++ t.written k = gap k ++ s.written k ++ (idle ++ rest.take n) := by
    by_cases hfirst : s.written k = []
    · simp [hself, hfirst]
    · simp [hself, h.whole k hslot (by simp [hp]) hfirst]
  have hsegments : (fun j ↦ Function.update gap k (gap k ++ idle) j ++ t.written j) =
      Function.update (fun j ↦ gap j ++ s.written j) k (gap k ++ s.written k ++ (idle ++ rest.take n)) := by
    funext j
    by_cases hj : j = k
    · subst hj
      rw [Function.update_self, Function.update_self, hpiece]
    · rw [Function.update_of_ne hj, Function.update_of_ne hj, hother j hj]
  have hlater (j : Nat) (hj : k < j) : gap j ++ s.written j = [] := by
    obtain ⟨hgap, hwritten⟩ := h.unopened j (hk ▸ hj)
    rw [hgap, hwritten, List.nil_append]
  have hlt : k < s.conns := Nat.lt_of_lt_of_le (Nat.lt_of_succ_le (Nat.le_of_eq hk)) hnewest.opened_le
  refine ⟨?_, fun _ _ _ _ ↦ rfl, h.last, fun j hj ↦ ?_⟩
  · have hflow := h.flow
    simp only [inHand, hp, PumpPoint.inHand] at hflow
    have hconns : t.conns = s.conns := rfl
    have hhand : t.inHand = rest.drop n := PumpPoint.inHand_next _
    rw [hsegments, hconns, concat_update_append hlt hlater, hhand, List.append_nil, List.append_assoc,
      List.append_assoc, List.take_append_drop, ← List.append_assoc]
    exact hflow
  · have hne : j ≠ k := Nat.ne_of_gt (Nat.lt_of_lt_of_le (Nat.lt_of_succ_le (Nat.le_of_eq hk)) hj)
    rw [Function.update_of_ne hne, hother j hne]
    exact h.unopened j hj

theorem Poured.reattaches (h : s.Poured gap idle) (hholder : s.holder = .accepting) :
    ({ s with holder := .attaching s.conns (.detaching .taking), conns := s.conns + 1 } : Session).Poured
      gap idle := by
  have hopened : s.opened = s.conns := by simp only [opened, hholder]
  obtain ⟨hgap, hwritten⟩ := h.unopened s.conns (Nat.le_of_eq hopened)
  have hconcat : concat (fun k ↦ gap k ++ s.written k) (s.conns + 1) =
      concat (fun k ↦ gap k ++ s.written k) s.conns := by
    rw [concat_succ, hgap, hwritten, List.append_nil, List.append_nil]
  refine ⟨?_, h.whole, fun k hk ↦ (h.last k hk).trans hopened, fun j hj ↦ h.unopened j (hopened ▸ hj)⟩
  exact h.flow.trans (congrArg (· ++ idle ++ s.inHand) hconcat.symm)

/-- A connection that comes into the slot has been sent nothing yet. -/
theorem Poured.installsData (h : s.Poured gap idle) {k : Nat} (hholder : s.holder = .attaching k .installingData) :
    ({ s with dataOut := some k, holder := .attaching k .installingCtrl } : Session).Poured gap idle := by
  have hopened : s.opened = k := by simp [opened, hholder, AttachPoint.hasWriters]
  refine ⟨h.flow, fun j hj _ hne ↦ ?_, fun j hj ↦ ?_, fun j hj ↦ ?_⟩
  · cases hj
    exact absurd (h.unopened k (Nat.le_of_eq hopened)).2 hne
  · cases hj
    rfl
  · exact h.unopened j (Nat.le_trans (Nat.le_of_eq hopened) (Nat.le_of_succ_le hj))

theorem Poured.exists_step (h : s.Poured gap idle) (hnewest : s.Newest) (hst : Step window s e t) :
    ∃ gap' idle', t.Poured gap' idle' := by
  cases hst with
  | hostTakes | hostLeaves => exact ⟨gap, idle, h.host (.inr rfl)⟩
  | pumpEnds hp =>
    exact ⟨gap, idle, h.keeps rfl (by simp [inHand, hp, PumpPoint.inHand]) (fun _ ↦ rfl) rfl rfl (.inl rfl)
      (fun halive ↦ absurd rfl halive)⟩
  | pumpReads hp => exact ⟨gap, idle, h.pumpReads hp _⟩
  | pumpDiscards _ hslot => exact ⟨gap, _, h.discards rfl rfl rfl rfl rfl (.inl rfl) (.inl hslot)⟩
  | pumpLocks hp =>
    exact ⟨gap, idle, h.keeps rfl (by simp [inHand, hp, PumpPoint.inHand]) (fun _ ↦ rfl) rfl rfl (.inl rfl)
      (fun _ ↦ by simp [hp])⟩
  | pumpWrites hp hslot => exact ⟨_, _, h.pumpWrites hnewest hp hslot _⟩
  | pumpWriteFails => exact ⟨gap, _, h.discards rfl rfl rfl rfl rfl (.inr rfl) (.inl rfl)⟩
  | pumpDropped => exact ⟨gap, _, h.discards rfl rfl rfl rfl rfl (.inl rfl) (.inr rfl)⟩
  | exitAborts =>
    refine ⟨gap, idle, h.keeps rfl ?_ (fun _ ↦ rfl) rfl rfl (.inl rfl) fun halive ↦ ?_⟩
    · cases hp : s.pump <;> simp [inHand, hp]
    · rintro hp
      exact halive (by simp [hp])
  | @exitWrites _ k | @exitShuts k =>
    refine ⟨gap, idle, (h.host (x := ⟨k, .ctrl⟩) ?_).keeps rfl rfl (fun _ ↦ rfl) rfl rfl (.inl rfl) id⟩
    exact .inl rfl
  | exitDetaches _ hd =>
    refine ⟨gap, idle, ?_⟩
    cases hd with
    | clearsData => exact h.keeps rfl rfl (fun _ ↦ rfl) rfl rfl (.inr rfl) id
    | takes | joined | joins | clearsCtrl => exact h.keeps rfl rfl (fun _ ↦ rfl) rfl rfl (.inl rfl) id
  | reattaches hholder => exact ⟨gap, idle, h.reattaches hholder⟩
  | replaces hholder | drops hholder =>
    exact ⟨gap, idle, h.keeps rfl rfl (fun _ ↦ rfl) rfl (by simp only [opened, hholder]) (.inl rfl) id⟩
  | @attachDetaches k d _ _ hholder hd =>
    refine ⟨gap, idle, ?_⟩
    have hopened : s.opened = k := by simp [opened, hholder, AttachPoint.hasWriters]
    cases hd with
    | clearsData => exact h.keeps rfl rfl (fun _ ↦ rfl) rfl hopened.symm (.inr rfl) id
    | takes | joined | joins | clearsCtrl => exact h.keeps rfl rfl (fun _ ↦ rfl) rfl hopened.symm (.inl rfl) id
  | installsData hholder => exact ⟨gap, idle, h.installsData hholder⟩
  | installsCtrl hholder | spawns hholder =>
    refine ⟨gap, idle, h.keeps rfl rfl (fun _ ↦ rfl) rfl ?_ (.inl rfl) id⟩
    simp [opened, hholder, AttachPoint.hasWriters]
  | registers hholder =>
    refine ⟨gap, idle, h.keeps rfl rfl (fun _ ↦ rfl) rfl ?_ (.inl rfl) id⟩
    simp [opened, hholder, AttachPoint.hasWriters, hnewest _ _ hholder]
  | _ => exact ⟨gap, idle, h.keeps rfl rfl (fun _ ↦ rfl) rfl rfl (.inl rfl) id⟩

end

theorem reachable_poured (h : (machine window).Reachable s) : ∃ gap idle, s.Poured gap idle := by
  have hinit : Session.start.Poured (fun _ ↦ []) [] :=
    ⟨rfl, fun _ hk ↦ (by cases hk), fun _ hk ↦ (by cases hk), fun _ _ ↦ ⟨rfl, rfl⟩⟩
  refine h.invariant (I := fun s ↦ ∃ gap idle, s.Poured gap idle) ⟨_, _, hinit⟩ fun s e t hs hi hst ↦ ?_
  obtain ⟨gap, idle, hpoured⟩ := hi
  exact hpoured.exists_step (reachable_newest hs) (step_step hst)

/-! ## No byte crosses from one connection to another -/

/-- What the pty is sent is one prefix of each connection's data after another; what the connections are
sent are pieces of the pty's output, one after another, with what nobody was there to receive between them.
If the exit task runs at all, then it must not take the readers of a connection that is being attached. -/
theorem no_byte_crosses {es : List Event} (hrun : (machine window).run .start es = some s)
    (hexit : .exitRuns ∈ es → (machine window).Follows TakesLast .start es) :
    (∃ accepted : Nat → Bytes, (∀ k, accepted k <+: s.received k) ∧ s.typed = concat accepted s.conns) ∧
      ∃ (gap : Nat → Bytes) (rest : Bytes),
        s.output = concat (fun k ↦ gap k ++ (s.host ⟨k, .data⟩).written) s.conns ++ rest := by
  constructor
  · have hok : (machine window).Follows TakesLast .start es := by
      by_cases he : .exitRuns ∈ es
      · exact hexit he
      · refine Machine.follows_of_forall (fun e hm s hexits ↦ ?_) _
        subst hexits
        exact absurd hm he
    obtain ⟨accepted, htyped⟩ := reached_typed (Machine.ReachedBy.init.run hok hrun)
    obtain ⟨sent, hsent, heq⟩ := exists_concat_of_prefix htyped.typed
    exact ⟨sent, fun k ↦ (hsent k).trans (htyped.reads k).begins, heq⟩
  · obtain ⟨gap, idle, hpoured⟩ := reachable_poured (.of_run hrun)
    exact ⟨gap, idle ++ s.inHand, hpoured.flow.trans (List.append_assoc _ _ _)⟩

end

/-- A second connection takes over while the first one's input is still in the queue and its reader has more. -/
def reattachesMidStream : List Event :=
  List.replicate 8 Event.attachRuns ++
      ([.dataReads 0 (some [1, 2]), .dataSends 0, .dataReads 0 (some [3]), .pumpReads (some [7, 8]), .pumpLocks,
        .pumpWrites 1, .pumpWrites 1, .serves, .attachRuns, .readerDropped ⟨0, .data⟩, .attachRuns,
        .readerDropped ⟨0, .ctrl⟩, .attachRuns, .attachRuns, .attachRuns, .pumpReads (some [9]), .pumpLocks] :
        List Event) ++
    List.replicate 5 Event.attachRuns ++
      ([.dataReads 1 (some [4]), .dataSends 1, .writerReceives, .writerWrites 2, .writerReceives, .writerWrites 1,
        .pumpReads (some [10]), .pumpLocks, .pumpWrites 1] : List Event)

theorem reattachesMidStream_apart : ∃ s : Session, (machine 4096).run .start reattachesMidStream = some s ∧
    s.typed = [1, 2, 4] ∧ s.output = [7, 8, 9, 10] ∧
    (∃ accepted : Nat → Bytes, (∀ k, accepted k <+: s.received k) ∧ s.typed = concat accepted s.conns) ∧
      ∃ (gap : Nat → Bytes) (rest : Bytes),
        s.output = concat (fun k ↦ gap k ++ (s.host ⟨k, .data⟩).written) s.conns ++ rest := by
  have hrun : (machine 4096).run .start reattachesMidStream = some _ := rfl
  exact ⟨_, hrun, rfl, rfl, no_byte_crosses hrun (by decide)⟩

end Session

end Keycard.GuestAgent
