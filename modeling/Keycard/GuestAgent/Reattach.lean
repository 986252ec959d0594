import Keycard.GuestAgent.Readers

/-!
# A connection that displaces one that has stalled

`attach` ends the readers of the old connection by itself, but for the slot of its writer it needs a lock
that the pump holds while it writes.  As long as the shell runs nobody ends the pump, so whether `attach`
comes to its end is decided by how much room the old connection still has.
-/

open Reasoning

namespace Keycard.GuestAgent

open Session

/-- A step of the agent's own tasks: neither the shell's nor a host's. -/
def Event.isAgents : Event → Bool
  | .shellExits _ => false
  | .hostTakes _ _ | .hostLeaves _ => false
  | _ => true

/-- A call of `detach` that has yet to clear `data_out`. -/
def Detach.beforeData : Detach → Bool
  | .clearingCtrl => false
  | _ => true

namespace Session

/-- `attach` can run to its end in steps of the agent alone. -/
def Completes (window : Nat) (s : Session) : Prop :=
  ∃ es t, (∀ e ∈ es, e.isAgents = true) ∧ (machine window).run s es = some t ∧ t.attaching = false

/-- A call of `attach` on a session whose shell runs does not depend on any host. -/
def Independent (window : Nat) (s : Session) : Prop :=
  s.attaching = true → s.exitTask = .waiting → s.Completes window

/-- `attach` has yet to clear the slot, and the pump is writing more to the old connection than that has
room for. -/
structure Wedged (window : Nat) (s : Session) : Prop where
  waiting : s.exitTask = .waiting
  detaching : ∃ k d, s.holder = .attaching k (.detaching d) ∧ d.beforeData = true
  writing : ∃ rest c k, s.pump = .alive (.writing rest) c ∧ s.dataOut = some k ∧
    (s.host ⟨k, .data⟩).gone = false ∧ (s.host ⟨k, .data⟩).space window < rest.length

section

variable {window : Nat} {s t : Session} {e : Event}

/-! ## The pump and its slot -/

structure Piped (s : Session) : Prop where
  unaborted : s.exitTask = .waiting → ∀ p, s.pump ≠ .alive p true
  locking : ∀ chunk c, s.pump = .alive (.locking chunk) c → chunk ≠ []
  writing : ∀ rest c, s.pump = .alive (.writing rest) c → rest ≠ [] ∧ s.dataOut ≠ none
  cleared : ∀ k, s.holder = .attaching k (.detaching .clearingCtrl) ∨ s.holder = .attaching k .installingData →
    s.dataOut = none

theorem dataLocked_eq_true : s.dataLocked = true ↔ ∃ rest c, s.pump = .alive (.writing rest) c := by
  unfold dataLocked
  split
  · rename_i rest c hp
    exact ⟨fun _ ↦ ⟨rest, c, hp⟩, fun _ ↦ rfl⟩
  · rename_i hno
    exact ⟨fun h ↦ (by cases h), fun ⟨rest, c, hp⟩ ↦ absurd hp (hno rest c)⟩

/-- Whoever changes the slot has seen that the pump does not write. -/
theorem Piped.keeps (h : s.Piped) (hexit : t.exitTask = .waiting → s.exitTask = .waiting)
    (hpump : t.pump = s.pump) (hslot : t.dataOut = s.dataOut ∨ s.dataLocked = false)
    (hcleared : ∀ k, t.holder = .attaching k (.detaching .clearingCtrl) ∨
      t.holder = .attaching k .installingData → t.dataOut = none) : t.Piped where
  unaborted hw p := hpump ▸ h.unaborted (hexit hw) p
  locking chunk c := hpump ▸ h.locking chunk c
  writing rest c hp := by
    rw [hpump] at hp
    obtain ⟨hrest, hsome⟩ := h.writing rest c hp
    refine ⟨hrest, ?_⟩
    rcases hslot with hslot | hfree
    · exact hslot ▸ hsome
    · exact absurd (dataLocked_eq_true.mpr ⟨rest, c, hp⟩) (by simp [hfree])
  cleared := hcleared

/-- A step of the pump itself, with the flag it had. -/
theorem Piped.moves (h : s.Piped) {p q : PumpPoint} {c : Bool} (hp : s.pump = .alive p c)
    (hq : t.pump = .alive q c) (hexit : t.exitTask = s.exitTask) (hholder : t.holder = s.holder)
    (hslot : t.dataOut = s.dataOut ∨ t.dataOut = none) (hlocking : ∀ chunk, q = .locking chunk → chunk ≠ [])
    (hwriting : ∀ rest, q = .writing rest → rest ≠ [] ∧ t.dataOut ≠ none) : t.Piped where
  unaborted hw p' hp' := by
    cases hq.symm.trans hp'
    exact h.unaborted (hexit ▸ hw) p hp
  locking chunk c' hp' := by
    cases hq.symm.trans hp'
    exact hlocking chunk rfl
  writing rest c' hp' := by
    cases hq.symm.trans hp'
    exact hwriting rest rfl
  cleared k hk := by
    rw [hholder] at hk
    rcases hslot with hslot | hnone
    · exact hslot.trans (h.cleared k hk)
    · exact hnone

theorem Piped.ends (h : s.Piped) (hp : t.pump = .ended) (hholder : t.holder = s.holder)
    (hslot : t.dataOut = s.dataOut) : t.Piped where
  unaborted _ p hp' := by cases hp.symm.trans hp'
  locking chunk c hp' := by cases hp.symm.trans hp'
  writing rest c hp' := by cases hp.symm.trans hp'
  cleared k hk := by
    rw [hholder] at hk
    exact hslot.trans (h.cleared k hk)

/-- The shell has exited, and the exit task ends the pump. -/
theorem Piped.aborts (h : s.Piped) (code : Int32) :
    ({ s with pump := s.pump.abort, exitTask := .joining code } : Session).Piped where
  unaborted hw := by cases hw
  locking chunk c hp := by
    cases hs : s.pump with
    | alive p c' =>
      simp only [hs, Spawned.abort_alive] at hp
      cases hp
      exact h.locking chunk c' hs
    | ended => simp [hs] at hp
  writing rest c hp := by
    cases hs : s.pump with
    | alive p c' =>
      simp only [hs, Spawned.abort_alive] at hp
      cases hp
      exact h.writing rest c' hs
    | ended => simp [hs] at hp
  cleared := h.cleared

theorem next_eq_writing {bs rest : Bytes} (h : PumpPoint.next bs = .writing rest) : rest ≠ [] := by
  cases bs with
  | nil => cases h
  | cons b bs =>
    cases h
    exact List.cons_ne_nil b bs

theorem next_ne_locking (bs chunk : Bytes) : PumpPoint.next bs ≠ .locking chunk := by
  cases bs <;> simp [PumpPoint.next]

theorem Piped.exitDetaches (h : s.Piped) {d : Detach} {next : Option Detach} (hd : Detaches s d t next) :
    ({ t with exitTask := next.elim .done .detaching } : Session).Piped := by
  have hno : (next.elim .done .detaching : ExitTask) ≠ .waiting := by cases next <;> simp
  cases hd with
  | clearsData hfree => exact h.keeps (fun hw ↦ absurd hw hno) rfl (.inr hfree) fun _ _ ↦ rfl
  | takes | joined | joins | clearsCtrl => exact h.keeps (fun hw ↦ absurd hw hno) rfl (.inl rfl) h.cleared

theorem Piped.attachDetaches (h : s.Piped) {k : Nat} {d : Detach} {next : Option Detach}
    (hholder : s.holder = .attaching k (.detaching d)) (hd : Detaches s d t next) :
    ({ t with holder := .attaching k (next.elim .installingData .detaching) } : Session).Piped := by
  cases hd with
  | clearsData hfree => exact h.keeps id rfl (.inr hfree) fun _ _ ↦ rfl
  | clearsCtrl => exact h.keeps id rfl (.inl rfl) fun _ _ ↦ h.cleared k (.inl hholder)
  | takes | joined | joins =>
    exact h.keeps id rfl (.inl rfl) fun k' hk ↦ (by rcases hk with hk | hk <;> cases hk)

theorem Piped.step (h : s.Piped) (hst : Step window s e t) : t.Piped := by
  cases hst with
  | pumpEnds | pumpDropped => exact h.ends rfl rfl rfl
  | pumpReads hp hchunk =>
    refine h.moves hp rfl rfl rfl (.inl rfl) (fun chunk hq ↦ ?_) (fun rest hq ↦ by cases hq)
    cases hq
    rintro rfl
    cases hchunk
  | pumpDiscards hp =>
    exact h.moves hp rfl rfl rfl (.inl rfl) (fun chunk hq ↦ by cases hq) (fun rest hq ↦ by cases hq)
  | pumpLocks hp hslot =>
    refine h.moves hp rfl rfl rfl (.inl rfl) (fun chunk hq ↦ by cases hq) fun rest hq ↦ ?_
    cases hq
    exact ⟨h.locking _ _ hp, by simp [hslot]⟩
  | pumpWrites hp hslot =>
    refine h.moves hp rfl rfl rfl (.inl rfl) (fun chunk hq ↦ absurd hq (next_ne_locking _ _)) fun rest hq ↦ ?_
    exact ⟨next_eq_writing hq, by simp [deliver, setHost, hslot]⟩
  | pumpWriteFails hp =>
    exact h.moves hp rfl rfl rfl (.inr rfl) (fun chunk hq ↦ by cases hq) (fun rest hq ↦ by cases hq)
  | exitAborts => exact h.aborts _
  | shellExits | exitStops | exitJoins | exitSkips | exitLocks | exitWrites | exitWriteFails | exitShuts =>
    exact h.keeps (fun hw ↦ by cases hw) rfl (.inl rfl) h.cleared
  | exitDetaches _ hd => exact h.exitDetaches hd
  | attachDetaches hholder hd => exact h.attachDetaches hholder hd
  | installsData _ hfree =>
    exact h.keeps id rfl (.inr hfree) fun k' hk ↦ (by rcases hk with hk | hk <;> cases hk)
  | reattaches | replaces | installsCtrl | spawns | registers | drops =>
    exact h.keeps id rfl (.inl rfl) fun k' hk ↦ (by rcases hk with hk | hk <;> cases hk)
  | _ => exact h.keeps id rfl (.inl rfl) h.cleared

theorem piped_start : Session.start.Piped where
  unaborted _ p hp := by cases hp
  locking chunk c hp := by cases hp
  writing rest c hp := by cases hp
  cleared k hk := by rcases hk with hk | hk <;> cases hk

theorem reachable_piped (h : (machine window).Reachable s) : s.Piped :=
  h.invariant piped_start fun _ _ _ _ hi hst ↦ hi.step (step_step hst)

/-! ## What the host has taken -/

/-- The host does not take what has not been written. -/
def Paid (s : Session) : Prop :=
  ∀ x, (s.host x).taken ≤ (s.host x).written.length

theorem Paid.setHost (h : s.Paid) {x : Stream} {v : HostEnd} (hv : v.taken ≤ v.written.length) :
    (s.setHost x v).Paid := by
  intro y
  simp only [Session.setHost]
  by_cases hy : y = x
  · subst hy
    rwa [Function.update_self]
  · rw [Function.update_of_ne hy]
    exact h y

theorem Paid.deliver (h : s.Paid) (x : Stream) (bs : Bytes) : (s.deliver x bs).Paid :=
  h.setHost (by simpa [HostEnd.receive] using Nat.le_add_right_of_le (h x))

theorem detaches_host {d : Detach} {next : Option Detach} (hd : Detaches s d t next) :
    t.host = s.host ∧ t.pump = s.pump := by
  rw [detaches_eq hd]
  exact ⟨rfl, rfl⟩

theorem Paid.step (h : s.Paid) (hst : Step window s e t) : t.Paid := by
  cases hst with
  | @hostTakes x n hn =>
    have hx := h x
    rw [HostEnd.unread] at hn
    exact h.setHost (by simp only []; omega)
  | hostLeaves => exact h.setHost (h _)
  | exitShuts => exact h.setHost (h _)
  | pumpWrites | exitWrites => exact h.deliver _ _
  | exitDetaches _ hd | attachDetaches _ hd =>
    intro x
    simp only [(detaches_host hd).1]
    exact h x
  | _ => exact h

theorem reachable_paid (h : (machine window).Reachable s) : s.Paid :=
  h.invariant (fun _ ↦ Nat.le_refl 0) fun _ _ _ _ hi hst ↦ hi.step (step_step hst)

/-- What gets through takes its room. -/
theorem space_receive {v : HostEnd} (hv : v.taken ≤ v.written.length) (bs : Bytes) :
    (v.receive bs).space window = v.space window - bs.length := by
  simp only [HostEnd.space, HostEnd.unread, HostEnd.receive, List.length_append]
  omega

/-! ## Nobody but the host gets the pump on -/

theorem Wedged.same (h : s.Wedged window) (hexit : t.exitTask = s.exitTask) (hholder : t.holder = s.holder)
    (hpump : t.pump = s.pump) (hslot : t.dataOut = s.dataOut) (hhost : t.host = s.host) : t.Wedged window where
  waiting := hexit.trans h.waiting
  detaching := hholder ▸ h.detaching
  writing := by
    rw [hpump, hslot, hhost]
    exact h.writing

theorem Wedged.locked (h : s.Wedged window) : s.dataLocked = true := by
  obtain ⟨rest, c, -, hp, -⟩ := h.writing
  exact dataLocked_eq_true.mpr ⟨rest, c, hp⟩

theorem Wedged.writes (h : s.Wedged window) (hpaid : s.Paid) {rest : Bytes} {c : Bool} {k n : Nat}
    (hp : s.pump = .alive (.writing rest) c) (hslot : s.dataOut = some k)
    (hn : (s.host ⟨k, .data⟩).accepts window n rest = true) :
    ({ s.deliver ⟨k, .data⟩ (rest.take n) with pump := .alive (.next (rest.drop n)) c } :
      Session).Wedged window := by
  obtain ⟨rest', c', k', hp', hslot', hgone, hspace⟩ := h.writing
  cases hp.symm.trans hp'
  cases hslot.symm.trans hslot'
  obtain ⟨⟨⟨-, hle⟩, hroom⟩, -⟩ : ((0 < n ∧ n ≤ rest.length) ∧
      n ≤ (s.host ⟨k, .data⟩).space window) ∧ (s.host ⟨k, .data⟩).gone = false := by
    simpa [HostEnd.accepts] using hn
  have htake : (rest.take n).length = n := List.length_take_of_le hle
  have hdrop : (rest.drop n).length = rest.length - n := List.length_drop
  have hnext : PumpPoint.next (rest.drop n) = .writing (rest.drop n) := by
    cases hr : rest.drop n with
    | nil =>
      rw [hr, List.length_nil] at hdrop
      omega
    | cons => rfl
  refine ⟨h.waiting, h.detaching, rest.drop n, c, k, by rw [hnext], hslot, ?_, ?_⟩
  · simpa [deliver, setHost, HostEnd.receive] using hgone
  · simp only [deliver, setHost, Function.update_self]
    rw [space_receive (hpaid _), htake, hdrop]
    omega

theorem Wedged.step (h : s.Wedged window) (hpiped : s.Piped) (hpaid : s.Paid) (he : e.isAgents = true)
    (hst : Step window s e t) : t.Wedged window := by
  obtain ⟨rest, c, k, hp, hslot, hgone, -⟩ := h.writing
  obtain ⟨k', d, hholder, hbefore⟩ := h.detaching
  cases hst with
  | shellExits | hostTakes | hostLeaves => cases he
  | pumpEnds hp' | pumpReads hp' | pumpDiscards hp' | pumpLocks hp' => cases hp.symm.trans hp'
  | pumpWrites hp' hslot' hn => exact h.writes hpaid hp' hslot' hn
  | pumpWriteFails _ hslot' hgone' =>
    cases hslot.symm.trans hslot'
    cases hgone.symm.trans hgone'
  | pumpDropped hp' => exact absurd hp' (hpiped.unaborted h.waiting _)
  | exitStops hexit | exitAborts hexit | exitJoins hexit | exitSkips hexit | exitLocks hexit
  | exitWrites hexit | exitWriteFails hexit | exitShuts hexit | exitDetaches hexit =>
    cases h.waiting.symm.trans hexit
  | reattaches hholder' | replaces hholder' | installsData hholder' | installsCtrl hholder' | spawns hholder'
  | registers hholder' | drops hholder' => cases hholder.symm.trans hholder'
  | attachDetaches hholder' hd =>
    cases hholder.symm.trans hholder'
    cases hd with
    | takes | joined | joins => exact ⟨h.waiting, ⟨_, _, rfl, rfl⟩, h.writing⟩
    | clearsData hfree => cases hfree.symm.trans h.locked
    | clearsCtrl => cases hbefore
  | _ => exact h.same rfl rfl rfl rfl rfl

theorem Wedged.attaching (h : s.Wedged window) : s.attaching = true := by
  obtain ⟨k, d, hholder, -⟩ := h.detaching
  simp [Session.attaching, hholder]

/-! ## Otherwise it comes to its end -/

/-- The agent's own steps can take `attach` to its end. -/
abbrev Ends (window : Nat) (s : Session) : Prop :=
  (machine window).Attains Event.isAgents (fun t ↦ t.attaching = false) s

/-- Whatever the pump is writing gets through, or fails. -/
def Passable (window : Nat) (s : Session) : Prop :=
  ∀ rest c k, s.pump = .alive (.writing rest) c → s.dataOut = some k →
    (s.host ⟨k, .data⟩).gone = true ∨ rest.length ≤ (s.host ⟨k, .data⟩).space window

theorem Piped.attach (h : s.Piped) (hst : s.attachRuns = some t) : t.Piped :=
  h.step (@attachRuns_step 0 s t hst)

theorem Ends.attach (hst : s.attachRuns = some t) (h : t.Ends window) : s.Ends window :=
  .step (e := .attachRuns) rfl hst h

theorem ends_of_registering {k : Nat} (h : s.holder = .attaching k .registering) : s.Ends window := by
  have hst : s.attachRuns =
      some { s with readers := s.readers ++ [⟨k, .data⟩, ⟨k, .ctrl⟩], holder := .accepting } := by
    simp only [attachRuns, h]
  exact .attach hst (.here rfl)

theorem ends_of_spawning {k : Nat} (h : s.holder = .attaching k .spawning) : s.Ends window := by
  have hst : s.attachRuns = some
      { (s.setReader ⟨k, .data⟩ (.alive .reading false)).setReader ⟨k, .ctrl⟩ (.alive .reading false) with
        holder := .attaching k .registering } := by
    simp only [attachRuns, h]
  exact .attach hst (ends_of_registering rfl)

theorem ctrlLocked_of_waiting (h : s.exitTask = .waiting) : s.ctrlLocked = false := by
  simp only [ctrlLocked, h]

theorem ends_of_installingCtrl {k : Nat} (h : s.holder = .attaching k .installingCtrl)
    (hwaiting : s.exitTask = .waiting) : s.Ends window := by
  have hst : s.attachRuns = some { s with ctrlOut := some k, holder := .attaching k .spawning } := by
    simp only [attachRuns, h, ctrlLocked_of_waiting hwaiting, Bool.false_eq_true, if_false]
  exact .attach hst (ends_of_spawning rfl)

/-- A pump that finds no connection does not write. -/
theorem Piped.free (h : s.Piped) (hslot : s.dataOut = none) : s.dataLocked = false := by
  by_contra hlocked
  obtain ⟨rest, c, hp⟩ := dataLocked_eq_true.mp (by simpa using hlocked)
  exact (h.writing rest c hp).2 hslot

theorem ends_of_installingData (hpiped : s.Piped) {k : Nat} (h : s.holder = .attaching k .installingData)
    (hwaiting : s.exitTask = .waiting) : s.Ends window := by
  have hfree := hpiped.free (hpiped.cleared k (.inr h))
  have hst : s.attachRuns = some { s with dataOut := some k, holder := .attaching k .installingCtrl } := by
    simp only [attachRuns, h, hfree, Bool.false_eq_true, if_false]
  exact .attach hst (ends_of_installingCtrl rfl hwaiting)

theorem ends_of_clearingCtrl (hpiped : s.Piped) {k : Nat}
    (h : s.holder = .attaching k (.detaching .clearingCtrl)) (hwaiting : s.exitTask = .waiting) :
    s.Ends window := by
  have hst : s.attachRuns = some { s with ctrlOut := none, holder := .attaching k .installingData } := by
    simp only [attachRuns, h, detach, ctrlLocked_of_waiting hwaiting, Bool.false_eq_true, if_false,
      Option.map_some, Option.elim_none]
  have hpiped' : ({ s with ctrlOut := none, holder := .attaching k .installingData } : Session).Piped :=
    hpiped.attach hst
  exact .attach hst (ends_of_installingData hpiped' rfl hwaiting)

theorem ends_of_free (hpiped : s.Piped) {k : Nat} (h : s.holder = .attaching k (.detaching .clearingData))
    (hwaiting : s.exitTask = .waiting) (hfree : s.dataLocked = false) : s.Ends window := by
  have hst : s.attachRuns =
      some { s with dataOut := none, holder := .attaching k (.detaching .clearingCtrl) } := by
    simp only [attachRuns, h, detach, hfree, Bool.false_eq_true, if_false, Option.map_some, Option.elim_some]
  have hpiped' : ({ s with dataOut := none, holder := .attaching k (.detaching .clearingCtrl) } :
      Session).Piped := hpiped.attach hst
  exact .attach hst (ends_of_clearingCtrl hpiped' rfl hwaiting)

/-- A pump that can go on lets go of the lock. -/
theorem ends_of_clearingData (hpiped : s.Piped) (hpass : s.Passable window) {k : Nat}
    (h : s.holder = .attaching k (.detaching .clearingData)) (hwaiting : s.exitTask = .waiting) :
    s.Ends window := by
  by_cases hlocked : s.dataLocked = true
  · obtain ⟨rest, c, hp⟩ := dataLocked_eq_true.mp hlocked
    obtain ⟨hrest, hsome⟩ := hpiped.writing rest c hp
    obtain ⟨k', hslot⟩ := Option.ne_none_iff_exists'.mp hsome
    by_cases hgone : (s.host ⟨k', .data⟩).gone = true
    · have hst : step window s .pumpWriteFails =
          some { s with pump := .alive .reading c, dataOut := none } := by
        simp only [GuestAgent.step, pumpWriteFails, hp, hslot, hgone, if_true]
      have hpiped' := hpiped.step (step_step hst)
      exact .step (e := .pumpWriteFails) rfl hst (ends_of_free hpiped' h hwaiting rfl)
    · have hroom : rest.length ≤ (s.host ⟨k', .data⟩).space window :=
        (hpass rest c k' hp hslot).resolve_left hgone
      have haccepts : (s.host ⟨k', .data⟩).accepts window rest.length rest = true := by
        simp [HostEnd.accepts, List.length_pos_iff.mpr hrest, hroom, hgone]
      have hst : step window s (.pumpWrites rest.length) =
          some { s.deliver ⟨k', .data⟩ rest with pump := .alive .reading c } := by
        simp only [GuestAgent.step, pumpWrites, hp, hslot, haccepts, if_true, List.take_length,
          List.drop_length, PumpPoint.next]
      have hpiped' := hpiped.step (step_step hst)
      exact .step (e := .pumpWrites rest.length) rfl hst (ends_of_free hpiped' h hwaiting rfl)
  · exact ends_of_free hpiped h hwaiting (by simpa using hlocked)

/-- The readers of the old connection end one after another, whatever they wait for. -/
theorem ends_of_joining (haccounted : s.Accounted) (hpiped : s.Piped) (hpass : s.Passable window) {k : Nat}
    {rest : List Stream} (h : s.holder = .attaching k (.detaching (.joining rest)))
    (hwaiting : s.exitTask = .waiting) : s.Ends window := by
  induction rest generalizing s with
  | nil =>
    have hst : s.attachRuns = some { s with holder := .attaching k (.detaching .clearingData) } := by
      simp only [attachRuns, h, detach, Option.map_some, Option.elim_some]
    have hpiped' := hpiped.attach hst
    exact .attach hst (ends_of_clearingData hpiped' hpass rfl hwaiting)
  | cons x rest ih =>
    have hended (u : Session) (haccounted : u.Accounted) (hpiped : u.Piped) (hpass : u.Passable window)
        (h : u.holder = .attaching k (.detaching (.joining (x :: rest)))) (hwaiting : u.exitTask = .waiting)
        (hx : u.tasks x = some .ended) : u.Ends window := by
      have hst : u.attachRuns = some { u with
          tasks := u.tasks.abortHead rest, holder := .attaching k (.detaching (.joining rest)) } := by
        simp only [attachRuns, h, detach, Tasks.isEnded_iff.mpr hx, if_true, Option.map_some, Option.elim_some]
      have hstep : Step window u .attachRuns _ := attachRuns_step hst
      exact .attach hst (ih (haccounted.step hstep) (hpiped.step hstep) hpass rfl hwaiting)
    have hjoins : s.attachJoins = x :: rest := by simp only [attachJoins, h, Detach.joins]
    have hbegun : s.tasks.Begun x :=
      haccounted.begun x (mem_handles.mpr (.inr (.inr (hjoins ▸ List.mem_cons_self))))
    by_cases hlive : s.tasks.Live x
    · obtain ⟨p, hp⟩ := haccounted.attachHead x (by rw [hjoins]; rfl) hlive
      have hst : GuestAgent.step window s (.readerDropped x) = some (s.setReader x .ended) := by
        simp only [GuestAgent.step, readerDropped, hp]
      have hstep := step_step hst
      exact .step (e := .readerDropped x) rfl hst (hended _ (haccounted.step hstep) (hpiped.step hstep) hpass h
        hwaiting (Tasks.set_self _ _ _))
    · exact hended s haccounted hpiped hpass h hwaiting (Tasks.ended_of_not_live hbegun hlive)

theorem ends_of_taking (haccounted : s.Accounted) (hpiped : s.Piped) (hpass : s.Passable window) {k : Nat}
    (h : s.holder = .attaching k (.detaching .taking)) (hwaiting : s.exitTask = .waiting) :
    s.Ends window := by
  have hst : s.attachRuns =
      some { s.takeReaders with holder := .attaching k (.detaching (.joining s.readers)) } := by
    simp only [attachRuns, h, detach, Option.map_some, Option.elim_some]
  have hstep : Step window s .attachRuns _ := attachRuns_step hst
  exact .attach hst (ends_of_joining (haccounted.step hstep) (hpiped.step hstep) hpass rfl hwaiting)

theorem passable_of_not_wedged {k : Nat} {d : Detach} (hnot : ¬ s.Wedged window)
    (h : s.holder = .attaching k (.detaching d)) (hd : d.beforeData = true) (hwaiting : s.exitTask = .waiting) :
    s.Passable window := by
  intro rest c k' hp hslot
  by_contra hstuck
  obtain ⟨hgone, hroom⟩ := not_or.mp hstuck
  exact hnot ⟨hwaiting, ⟨k, d, h, hd⟩, rest, c, k', hp, hslot, by simpa using hgone, Nat.lt_of_not_le hroom⟩

theorem ends_of_not_wedged (hreach : (machine window).Reachable s) (hattaching : s.attaching = true)
    (hwaiting : s.exitTask = .waiting) (hnot : ¬ s.Wedged window) : s.Ends window := by
  have haccounted := reachable_accounted hreach
  have hpiped := reachable_piped hreach
  cases hholder : s.holder with
  | attaching k p =>
    cases p with
    | detaching d =>
      cases d with
      | taking =>
        exact ends_of_taking haccounted hpiped (passable_of_not_wedged hnot hholder rfl hwaiting) hholder hwaiting
      | joining rest =>
        exact ends_of_joining haccounted hpiped (passable_of_not_wedged hnot hholder rfl hwaiting) hholder
          hwaiting
      | clearingData =>
        exact ends_of_clearingData hpiped (passable_of_not_wedged hnot hholder rfl hwaiting) hholder hwaiting
      | clearingCtrl => exact ends_of_clearingCtrl hpiped hholder hwaiting
    | installingData => exact ends_of_installingData hpiped hholder hwaiting
    | installingCtrl => exact ends_of_installingCtrl hholder hwaiting
    | spawning => exact ends_of_spawning hholder
    | registering => exact ends_of_registering hholder
  | accepting | replaced | dropped => simp [attaching, hholder] at hattaching

theorem not_ends_of_wedged (hreach : (machine window).Reachable s) (h : s.Wedged window) : ¬ s.Ends window := by
  refine Machine.not_attains (I := fun s ↦ (machine window).Reachable s ∧ s.Wedged window) ?_ ?_ ⟨hreach, h⟩
  · rintro u e v ⟨hu, hwedged⟩ he hst
    exact ⟨hu.step hst, hwedged.step (reachable_piped hu) (reachable_paid hu) he (step_step hst)⟩
  · rintro u ⟨-, hwedged⟩ hidle
    cases hwedged.attaching.symm.trans hidle

theorem independent_iff (hreach : (machine window).Reachable s) :
    s.Independent window ↔ ¬ s.Wedged window := by
  constructor
  · intro hind hwedged
    exact not_ends_of_wedged hreach hwedged
      (Machine.attains_iff_run.mpr (hind hwedged.attaching hwedged.waiting))
  · intro hnot hattaching hwaiting
    exact Machine.attains_iff_run.mp (ends_of_not_wedged hreach hattaching hwaiting hnot)

/-- In a run no reconnect ever depends on a host exactly if the pump is never caught in a write that is too
long for the old connection while `attach` has yet to clear its slot. -/
theorem independent_iff_never_wedged (window : Nat) (es : List Event) :
    (machine window).Keeps (Independent window) .start es ↔
      (machine window).Keeps (fun s ↦ ¬ s.Wedged window) .start es :=
  Machine.Reachable.init.keeps_congr (fun _ hs ↦ independent_iff hs) es

end

/-- The host stops reading while the shell prints, and comes back with a second connection. -/
def reconnectsStalled : List Event :=
  List.replicate 8 Event.attachRuns ++ ([.pumpReads (some [1, 2, 3]), .pumpLocks, .serves] : List Event)

theorem reconnectsStalled_stuck : ¬ ∀ (window : Nat) (es : List Event) (s : Session),
    (machine window).run .start es = some s → s.Independent window := by
  intro hall
  have hrun : (machine 2).run .start reconnectsStalled = some _ := rfl
  refine (independent_iff (.of_run hrun)).mp (hall 2 reconnectsStalled _ hrun) ⟨rfl, ⟨1, .taking, rfl, rfl⟩, ?_⟩
  exact ⟨[1, 2, 3], false, 0, rfl, rfl, rfl, by decide⟩

end Session

end Keycard.GuestAgent
