import Keycard.GuestAgent.Steps

/-!
# Where the readers are

A reader that is still there is registered with the session, or somebody who has taken it from there is
about to wait for it, or `attach` has just spawned it and is about to register it.  Only the readers that
were taken by `drop` belong to nobody, and these have been aborted.
-/

open Reasoning

namespace Keycard.GuestAgent

open Session

/-- The readers a call of `detach` still waits for. -/
def Detach.joins : Detach → List Stream
  | .joining rest => rest
  | _ => []

namespace Session

def exitJoins (s : Session) : List Stream :=
  match s.exitTask with
  | .detaching d => d.joins
  | _ => []

def attachJoins (s : Session) : List Stream :=
  match s.holder with
  | .attaching _ (.detaching d) => d.joins
  | _ => []

/-- The readers that somebody has a handle of. -/
def handles (s : Session) : List Stream :=
  s.readers ++ s.exitJoins ++ s.attachJoins

/-- `attach` is under way. -/
def attaching (s : Session) : Bool :=
  match s.holder with
  | .attaching _ _ => true
  | _ => false

/-- The first of the readers that somebody waits for has been aborted. -/
def HeadAborted (s : Session) (rest : List Stream) : Prop :=
  ∀ x, rest.head? = some x → s.tasks.Live x → s.tasks.Aborted x

/-- `attach` has yet to spawn the readers of `k`. -/
def Unspawned (s : Session) (k : Nat) : Prop :=
  ∃ p, s.holder = .attaching k p ∧ p ≠ .registering

structure Accounted (s : Session) : Prop where
  begun : ∀ x ∈ s.handles, s.tasks.Begun x
  live : ∀ x, s.tasks.Live x → x ∈ s.handles ∨ s.holder = .attaching x.conn .registering ∨
    s.holder = .dropped ∧ s.tasks.Aborted x
  exitHead : s.HeadAborted s.exitJoins
  attachHead : s.HeadAborted s.attachJoins
  fresh : ∀ x, s.tasks.Begun x → x.conn < s.conns ∧ ¬ s.Unspawned x.conn
  spawned : ∀ k ch, s.holder = .attaching k .registering → s.tasks.Begun ⟨k, ch⟩
  latest : ∀ k p, s.holder = .attaching k p → k < s.conns

section

variable {window : Nat} {s t : Session} {e : Event}

theorem mem_handles {x : Stream} :
    x ∈ s.handles ↔ x ∈ s.readers ∨ x ∈ s.exitJoins ∨ x ∈ s.attachJoins := by
  simp [handles]

theorem attaching_congr (h : t.holder = s.holder) : t.attaching = s.attaching := by
  simp only [attaching, h]

theorem HeadAborted.wanes {rest : List Stream} (h : s.HeadAborted rest) (hwanes : s.tasks.Wanes t.tasks) :
    t.HeadAborted rest :=
  fun x hx hlive ↦ hwanes.aborted x (h x hx (hwanes.live x hlive)) hlive

theorem headAborted_abortHead (s : Session) (rest : List Stream) :
    ({ s with tasks := s.tasks.abortHead rest } : Session).HeadAborted rest := by
  intro x hx hlive
  cases rest with
  | nil => cases hx
  | cons y rest =>
    cases hx
    exact Tasks.aborted_abort ((Tasks.wanes_abort s.tasks x).live x hlive)

/-- What an aside step and the steps before the readers are taken have in common. -/
theorem Accounted.wanes (h : s.Accounted) (htasks : s.tasks.Wanes t.tasks) (hreaders : t.readers = s.readers)
    (hexit : t.exitJoins = s.exitJoins) (hholder : t.holder = s.holder) (hconns : t.conns = s.conns) :
    t.Accounted := by
  have hattach : t.attachJoins = s.attachJoins := by simp only [attachJoins, hholder]
  have hhandles : t.handles = s.handles := by simp only [handles, hreaders, hexit, hattach]
  refine ⟨fun x hx ↦ ?_, fun x hlive ↦ ?_, ?_, ?_, fun x hx ↦ ?_, fun k ch hk ↦ ?_, fun k p hk ↦ ?_⟩
  · exact (htasks.begun x).mpr (h.begun x (hhandles ▸ hx))
  · rw [hhandles, hholder]
    refine (h.live x (htasks.live x hlive)).imp_right (Or.imp_right fun ⟨hd, ha⟩ ↦ ⟨hd, ?_⟩)
    exact htasks.aborted x ha hlive
  · exact hexit ▸ h.exitHead.wanes htasks
  · exact hattach ▸ h.attachHead.wanes htasks
  · rw [hconns, Unspawned, hholder]
    exact h.fresh x ((htasks.begun x).mp hx)
  · exact (htasks.begun _).mpr (h.spawned k ch (hholder ▸ hk))
  · exact hconns ▸ h.latest k p (hholder ▸ hk)

theorem Accounted.aside (h : s.Accounted) (ha : Aside s t) : t.Accounted :=
  h.wanes ha.tasks ha.readers (by simp only [exitJoins, ha.exitTask]) ha.holder ha.conns

/-- What one suspension of `detach` does with the readers; `joins` are those its caller waits for. -/
structure Passes (s t : Session) (joins joins' : List Stream) : Prop where
  tasks : s.tasks.Wanes t.tasks
  head : t.HeadAborted joins'
  kept : ∀ x, t.tasks.Live x → x ∈ s.readers ∨ x ∈ joins → x ∈ t.readers ∨ x ∈ joins'
  taken : ∀ x, x ∈ t.readers ∨ x ∈ joins' → x ∈ s.readers ∨ x ∈ joins

theorem detaches_passes {d : Detach} {next : Option Detach} (hd : Detaches s d t next)
    (hhead : s.HeadAborted d.joins) : s.Passes t d.joins (next.elim [] Detach.joins) := by
  cases hd with
  | takes =>
    refine ⟨Tasks.wanes_abortHead _ _, headAborted_abortHead s s.readers, fun x _ hx ↦ ?_, fun x hx ↦ ?_⟩
    · exact .inr (by simpa [Detach.joins] using hx)
    · exact .inl (by simpa [Detach.joins, takeReaders] using hx)
  | joins hended =>
    refine ⟨Tasks.wanes_abortHead _ _, headAborted_abortHead s _, fun y hlive hy ↦ hy.imp_right fun hy ↦ ?_,
      fun y hy ↦ hy.imp_right (List.mem_cons_of_mem _)⟩
    -- the one that has ended is not there any more
    rcases List.mem_cons.mp hy with rfl | hy
    · exact absurd ((Tasks.wanes_abortHead _ _).live y hlive) (Tasks.not_live_of_ended hended)
    · exact hy
  | joined => exact ⟨.refl _, hhead, fun _ _ hx ↦ hx, fun _ hx ↦ hx⟩
  | clearsData => exact ⟨.refl _, hhead, fun _ _ hx ↦ hx, fun _ hx ↦ hx⟩
  | clearsCtrl => exact ⟨.refl _, hhead, fun _ _ hx ↦ hx, fun _ hx ↦ hx⟩

theorem detaches_eq {d : Detach} {next : Option Detach} (hd : Detaches s d t next) : t = { s with
    readers := t.readers, tasks := t.tasks, dataOut := t.dataOut, ctrlOut := t.ctrlOut } := by
  cases hd <;> rfl

/-- Nobody's handle is lost on the way from one list to the other, and none appears. -/
theorem Passes.handles {joins joins' : List Stream} (hp : s.Passes t joins joins') (others : List Stream)
    (hs : ∀ x, x ∈ s.handles ↔ (x ∈ s.readers ∨ x ∈ joins) ∨ x ∈ others)
    (ht : ∀ x, x ∈ t.handles ↔ (x ∈ t.readers ∨ x ∈ joins') ∨ x ∈ others) :
    (∀ x ∈ t.handles, x ∈ s.handles) ∧ ∀ x, t.tasks.Live x → x ∈ s.handles → x ∈ t.handles :=
  ⟨fun x hx ↦ (hs x).mpr (((ht x).mp hx).imp_left (hp.taken x)),
    fun x hlive hx ↦ (ht x).mpr (((hs x).mp hx).imp_left (hp.kept x hlive))⟩

theorem Accounted.exitDetaches (h : s.Accounted) {d : Detach} {next : Option Detach}
    (hexit : s.exitTask = .detaching d) (hd : Detaches s d t next) :
    ({ t with exitTask := next.elim .done .detaching } : Session).Accounted := by
  have hjoins : s.exitJoins = d.joins := by simp only [exitJoins, hexit]
  have hjoins' : ({ t with exitTask := next.elim .done .detaching } : Session).exitJoins =
      next.elim [] Detach.joins := by cases next <;> rfl
  have hp := detaches_passes hd (hjoins ▸ h.exitHead)
  have hholder : t.holder = s.holder := by rw [detaches_eq hd]
  have hconns : t.conns = s.conns := by rw [detaches_eq hd]
  have hattach : t.attachJoins = s.attachJoins := by simp only [attachJoins, hholder]
  have hpasses : s.Passes { t with exitTask := next.elim .done .detaching } d.joins
      (next.elim [] Detach.joins) := ⟨hp.tasks, hp.head, hp.kept, hp.taken⟩
  obtain ⟨hback, hforth⟩ := hpasses.handles s.attachJoins
    (fun x ↦ by rw [mem_handles, hjoins, or_assoc])
    (fun x ↦ by rw [mem_handles, hjoins', ← hattach, or_assoc]; rfl)
  refine ⟨fun x hx ↦ (hp.tasks.begun x).mpr (h.begun x (hback x hx)), fun x hlive ↦ ?_, hjoins' ▸ hp.head,
    hattach ▸ h.attachHead.wanes hp.tasks, fun x hx ↦ ?_, fun k ch hk ↦ ?_, fun k p hk ↦ ?_⟩
  · rcases h.live x (hp.tasks.live x hlive) with hx | hx | ⟨hdropped, ha⟩
    · exact .inl (hforth x hlive hx)
    · exact .inr (.inl (hholder.trans hx))
    · exact .inr (.inr ⟨hholder.trans hdropped, hp.tasks.aborted x ha hlive⟩)
  · simp only [Unspawned, hholder, hconns]
    exact h.fresh x ((hp.tasks.begun x).mp hx)
  · exact (hp.tasks.begun _).mpr (h.spawned k ch (hholder ▸ hk))
  · exact hconns ▸ h.latest k p (hholder ▸ hk)

theorem Accounted.attachDetaches (h : s.Accounted) {k : Nat} {d : Detach} {next : Option Detach}
    (hholder : s.holder = .attaching k (.detaching d)) (hd : Detaches s d t next) :
    ({ t with holder := .attaching k (next.elim .installingData .detaching) } : Session).Accounted := by
  have hjoins : s.attachJoins = d.joins := by simp only [attachJoins, hholder]
  have hjoins' : ({ t with holder := .attaching k (next.elim .installingData .detaching) } :
      Session).attachJoins = next.elim [] Detach.joins := by cases next <;> rfl
  have hpoint : next.elim .installingData .detaching ≠ AttachPoint.registering := by cases next <;> simp
  have hp := detaches_passes hd (hjoins ▸ h.attachHead)
  have hexitTask : t.exitTask = s.exitTask := by rw [detaches_eq hd]
  have hconns : t.conns = s.conns := by rw [detaches_eq hd]
  have hexit : t.exitJoins = s.exitJoins := by simp only [exitJoins, hexitTask]
  have hpasses : s.Passes { t with holder := .attaching k (next.elim .installingData .detaching) } d.joins
      (next.elim [] Detach.joins) := ⟨hp.tasks, hp.head, hp.kept, hp.taken⟩
  obtain ⟨hback, hforth⟩ := hpasses.handles s.exitJoins
    (fun x ↦ by rw [mem_handles, hjoins, or_right_comm, or_assoc])
    (fun x ↦ by rw [mem_handles, hjoins', ← hexit, or_right_comm, or_assoc]; rfl)
  refine ⟨fun x hx ↦ (hp.tasks.begun x).mpr (h.begun x (hback x hx)), fun x hlive ↦ ?_,
    hexit ▸ h.exitHead.wanes hp.tasks, hjoins' ▸ hp.head, fun x hx ↦ ?_, fun k' ch hk ↦ ?_, fun k' p hk ↦ ?_⟩
  · rcases h.live x (hp.tasks.live x hlive) with hx | hx | ⟨hdropped, -⟩
    · exact .inl (hforth x hlive hx)
    · rw [hholder] at hx
      cases hx
    · rw [hholder] at hdropped
      cases hdropped
  · obtain ⟨hlt, hspawned⟩ := h.fresh x ((hp.tasks.begun x).mp hx)
    refine ⟨hconns ▸ hlt, fun ⟨p, hk, _⟩ ↦ hspawned ?_⟩
    cases hk
    exact ⟨_, hholder, by simp⟩
  · exact absurd (Holder.attaching.inj hk).2 hpoint
  · cases hk
    exact hconns ▸ h.latest k _ hholder

/-- The accept loop goes on without touching a reader. -/
theorem Accounted.rehold (h : s.Accounted) (htasks : t.tasks = s.tasks) (hreaders : t.readers = s.readers)
    (hexit : t.exitTask = s.exitTask) (hjoins : s.attachJoins = []) (hjoins' : t.attachJoins = [])
    (hspawned : ∀ k, s.holder ≠ .attaching k .registering) (hdropped : s.holder ≠ .dropped)
    (hspawned' : ∀ k, t.holder ≠ .attaching k .registering)
    (hfresh : ∀ x, s.tasks.Begun x → x.conn < t.conns ∧ ¬ t.Unspawned x.conn)
    (hlatest : ∀ k p, t.holder = .attaching k p → k < t.conns) : t.Accounted := by
  have hexitJoins : t.exitJoins = s.exitJoins := by simp only [exitJoins, hexit]
  have hhandles : t.handles = s.handles := by simp only [handles, hreaders, hexitJoins, hjoins, hjoins']
  refine ⟨fun x hx ↦ ?_, fun x hlive ↦ ?_, fun x hx ↦ ?_, fun x hx ↦ ?_, fun x hx ↦ ?_,
    fun k ch hk ↦ absurd hk (hspawned' k), hlatest⟩
  · exact htasks ▸ h.begun x (hhandles ▸ hx)
  · rcases h.live x (htasks ▸ hlive) with hx | hx | ⟨hx, -⟩
    · exact .inl (hhandles ▸ hx)
    · exact absurd hx (hspawned _)
    · exact absurd hx hdropped
  · rw [htasks]
    exact h.exitHead x (hexitJoins ▸ hx)
  · rw [hjoins'] at hx
    cases hx
  · exact hfresh x (htasks ▸ hx)

theorem Accounted.reattaches (h : s.Accounted) (hholder : s.holder = .accepting) :
    ({ s with holder := .attaching s.conns (.detaching .taking), conns := s.conns + 1 } :
      Session).Accounted := by
  refine h.rehold rfl rfl rfl (by simp [attachJoins, hholder]) rfl (by simp [hholder]) (by simp [hholder])
    (by simp) (fun x hx ↦ ⟨Nat.lt_succ_of_lt (h.fresh x hx).1, ?_⟩) fun k p hk ↦ ?_
  -- the new connection is not one of those there have been
  · rintro ⟨p, hk, -⟩
    exact absurd (Holder.attaching.inj hk).1 (Nat.ne_of_gt (h.fresh x hx).1)
  · rw [← (Holder.attaching.inj hk).1]
    exact Nat.lt_succ_self _

theorem Accounted.installs (h : s.Accounted) {k : Nat} {p p' : AttachPoint}
    (hholder : s.holder = .attaching k p) (hjoins : s.attachJoins = []) (hp : p ≠ .registering)
    (hp' : p' = .installingCtrl ∨ p' = .spawning) (dataOut ctrlOut : Option Nat) :
    ({ s with holder := .attaching k p', dataOut, ctrlOut } : Session).Accounted := by
  have hne : p' ≠ .registering := by rcases hp' with rfl | rfl <;> simp
  refine h.rehold rfl rfl rfl hjoins (by rcases hp' with rfl | rfl <;> rfl) (by simp [hholder, hp])
    (by simp [hholder]) (by simp [hne]) (fun x hx ↦ ⟨(h.fresh x hx).1, ?_⟩) fun k' p'' hk ↦ ?_
  · rintro ⟨p'', hk, -⟩
    cases hk
    exact (h.fresh x hx).2 ⟨p, hholder, hp⟩
  · cases hk
    exact h.latest k p hholder

/-- The readers of a new connection come to life. -/
theorem Accounted.spawns (h : s.Accounted) {k : Nat} (hholder : s.holder = .attaching k .spawning) :
    ({ (s.setReader ⟨k, .data⟩ (.alive .reading false)).setReader ⟨k, .ctrl⟩ (.alive .reading false) with
      holder := .attaching k .registering } : Session).Accounted := by
  set t : Session :=
    { (s.setReader ⟨k, .data⟩ (.alive .reading false)).setReader ⟨k, .ctrl⟩ (.alive .reading false) with
      holder := .attaching k .registering } with ht
  have hnew (ch : Channel) : t.tasks.Begun ⟨k, ch⟩ := by
    cases ch <;> simp [ht, setReader, Tasks.Begun, Tasks.set_of_ne]
  have hold (x : Stream) (hx : x.conn ≠ k) : t.tasks x = s.tasks x := by
    simp only [ht, setReader]
    rw [Tasks.set_of_ne (by rintro rfl; exact hx rfl), Tasks.set_of_ne (by rintro rfl; exact hx rfl)]
  have hne (x : Stream) (hx : s.tasks.Begun x) : x.conn ≠ k :=
    fun heq ↦ (h.fresh x hx).2 (heq ▸ ⟨_, hholder, by simp⟩)
  have hhandles : t.handles = s.handles := by simp [handles, attachJoins, hholder, ht, setReader, exitJoins]
  have hspawned (k' : Nat) : ¬ t.Unspawned k' := by
    rintro ⟨p, hk, hp⟩
    exact hp (Holder.attaching.inj hk).2.symm
  refine ⟨fun x hx ↦ ?_, fun x hlive ↦ ?_, fun x hx hlive ↦ ?_, fun x hx ↦ (by cases hx), fun x hx ↦ ?_,
    fun k' ch hk ↦ ?_, fun k' p hk ↦ ?_⟩
  · have hbegun := h.begun x (hhandles ▸ hx)
    rw [Tasks.Begun, hold x (hne x hbegun)]
    exact hbegun
  · by_cases hx : x.conn = k
    · exact .inr (.inl (by rw [hx]))
    · rw [Tasks.Live, hold x hx] at hlive
      rcases h.live x hlive with hx | hx | ⟨hx, -⟩
      · exact .inl (hhandles ▸ hx)
      · rw [hholder] at hx
        cases hx
      · rw [hholder] at hx
        cases hx
  · have hmem : x ∈ s.exitJoins := List.mem_of_head? hx
    have hxk := hold x (hne x (h.begun x (mem_handles.mpr (.inr (.inl hmem)))))
    rw [Tasks.Live, hxk] at hlive
    rw [Tasks.Aborted, hxk]
    exact h.exitHead x hx hlive
  · refine ⟨?_, hspawned _⟩
    by_cases hxk : x.conn = k
    · exact hxk ▸ h.latest k _ hholder
    · rw [Tasks.Begun, hold x hxk] at hx
      exact (h.fresh x hx).1
  · rw [← (Holder.attaching.inj hk).1]
    exact hnew ch
  · rw [← (Holder.attaching.inj hk).1]
    exact h.latest k _ hholder

theorem Accounted.registers (h : s.Accounted) {k : Nat} (hholder : s.holder = .attaching k .registering) :
    ({ s with readers := s.readers ++ [⟨k, .data⟩, ⟨k, .ctrl⟩], holder := .accepting } :
      Session).Accounted := by
  have hstreams (x : Stream) : x ∈ [⟨k, .data⟩, ⟨k, .ctrl⟩] ↔ x.conn = k := by
    obtain ⟨conn, ch⟩ := x
    cases ch <;> simp
  have hattach : s.attachJoins = [] := by simp only [attachJoins, hholder]
  refine ⟨fun x hx ↦ ?_, fun x hlive ↦ ?_, h.exitHead, fun x hx ↦ (by cases hx), fun x hx ↦ ?_,
    fun k' ch hk ↦ (by cases hk), fun k' p hk ↦ (by cases hk)⟩
  · rcases mem_handles.mp hx with hx | hx | hx
    · rcases List.mem_append.mp hx with hx | hx
      · exact h.begun x (mem_handles.mpr (.inl hx))
      · obtain ⟨conn, ch⟩ := x
        have hk : conn = k := (hstreams _).mp hx
        exact hk ▸ h.spawned k ch hholder
    · exact h.begun x (mem_handles.mpr (.inr (.inl hx)))
    · cases hx
  · refine .inl (mem_handles.mpr ?_)
    rcases h.live x hlive with hx | hx | ⟨hx, -⟩
    · rcases mem_handles.mp hx with hx | hx | hx
      · exact .inl (List.mem_append_left _ hx)
      · exact .inr (.inl hx)
      · rw [hattach] at hx
        cases hx
    · have hxk : x.conn = k := (Holder.attaching.inj (hholder.symm.trans hx)).1.symm
      exact .inl (List.mem_append_right _ ((hstreams x).mpr hxk))
    · rw [hholder] at hx
      cases hx
  · refine ⟨(h.fresh x hx).1, ?_⟩
    rintro ⟨p, hk, -⟩
    cases hk

/-- `drop` takes the registered readers without waiting for them. -/
theorem Accounted.drops (h : s.Accounted) (hholder : s.holder = .replaced) :
    ({ s with tasks := s.tasks.abortAll s.readers, readers := [], holder := .dropped } : Session).Accounted := by
  have hwanes := Tasks.wanes_abortAll s.tasks s.readers
  have hattach : s.attachJoins = [] := by simp only [attachJoins, hholder]
  refine ⟨fun x hx ↦ (hwanes.begun x).mpr (h.begun x ?_), fun x hlive ↦ ?_, h.exitHead.wanes hwanes,
    fun x hx ↦ (by cases hx), fun x hx ↦ ⟨(h.fresh x ((hwanes.begun x).mp hx)).1, ?_⟩,
    fun k' ch hk ↦ (by cases hk), fun k' p hk ↦ (by cases hk)⟩
  · rcases mem_handles.mp hx with hx | hx | hx
    · cases hx
    · exact mem_handles.mpr (.inr (.inl hx))
    · cases hx
  · rcases h.live x (hwanes.live x hlive) with hx | hx | ⟨hx, -⟩
    · rcases mem_handles.mp hx with hx | hx | hx
      · exact .inr (.inr ⟨rfl, Tasks.aborted_abortAll hx hlive⟩)
      · exact .inl (mem_handles.mpr (.inr (.inl hx)))
      · rw [hattach] at hx
        cases hx
    · rw [hholder] at hx
      cases hx
    · rw [hholder] at hx
      cases hx
  · rintro ⟨p, hk, -⟩
    cases hk

theorem Accounted.step (h : s.Accounted) (hst : Step window s e t) : t.Accounted := by
  have haside := hst.aside
  cases hst with
  | shellExits hexit | exitStops hexit | exitAborts hexit | exitJoins hexit | exitSkips hexit
  | exitLocks hexit | exitWrites hexit | exitWriteFails hexit | exitShuts hexit =>
    exact h.wanes (.refl _) rfl (by simp [Session.exitJoins, Detach.joins, hexit]) rfl rfl
  | exitDetaches hexit hd => exact h.exitDetaches hexit hd
  | reattaches hholder => exact h.reattaches hholder
  | replaces hholder =>
    exact h.rehold rfl rfl rfl (by simp [attachJoins, hholder]) rfl (by simp [hholder]) (by simp [hholder])
      (by simp) (fun x hx ↦ ⟨(h.fresh x hx).1, fun ⟨_, hk, _⟩ ↦ by cases hk⟩) (fun k p hk ↦ by cases hk)
  | attachDetaches hholder hd => exact h.attachDetaches hholder hd
  | installsData hholder =>
    exact h.installs hholder (by simp [attachJoins, hholder]) (by simp) (.inl rfl) _ _
  | installsCtrl hholder =>
    exact h.installs hholder (by simp [attachJoins, hholder]) (by simp) (.inr rfl) _ _
  | spawns hholder => exact h.spawns hholder
  | registers hholder => exact h.registers hholder
  | drops hholder => exact h.drops hholder
  | _ => exact h.aside (haside rfl)

theorem accounted_start : Session.start.Accounted where
  begun x hx := by cases hx
  live x hlive := by
    obtain ⟨p, c, hp⟩ := hlive
    cases hp
  exitHead x hx := by cases hx
  attachHead x hx := by cases hx
  fresh x hx := absurd rfl hx
  spawned k ch hk := by cases hk
  latest k p hk := by
    cases hk
    exact Nat.one_pos

theorem reachable_accounted (h : (machine window).Reachable s) : s.Accounted :=
  h.invariant accounted_start fun _ _ _ _ hi hst ↦ hi.step (step_step hst)

end

end Session

end Keycard.GuestAgent
