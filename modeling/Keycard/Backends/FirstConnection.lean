import Keycard.Backends.Vsock

/-!
# Which connections a booting guest gets

Whatever the host has connected, the agent has handed to `serve`, has in its hand, or has in a backlog, in the
order in which the host connected it: this is what pairs data with control.  What can go wrong is the
connecting itself.  Only the first of the two connections is retried, on the ground that the agent is past its
`accept` for data by then; but the acknowledgement says no more than that the data port is bound.
-/

open Reasoning

namespace Keycard.Vsock

/-- What the host has connected so far, as long as it has not given up. -/
def Attach.connected : Attach → Option (List Nat × List Nat)
  | .starting => some ([], [])
  | .askingData _ => some ([], [])
  | .sleeping _ => some ([], [])
  | .answeredData data answer _ => some (if connect dataPort answer = none then [data] else [], [])
  | .askingCtrl data _ => some ([data], [])
  | .answeredCtrl data ctrl answer => some ([data], if connect ctrlPort answer = none then [ctrl] else [])
  | .resizing data ctrl => some ([data], [ctrl])
  | .attached data ctrl => some ([data], [ctrl])
  | .failed _ => none

def Attach.isOver : Attach → Bool
  | .attached _ _ => true
  | .failed _ => true
  | _ => false

namespace Boot

/-- What the agent has accepted for data without having accepted for control. -/
def inHand (s : Boot) : List Nat :=
  match s.agent with
  | .acceptingCtrl data => [data]
  | _ => []

/-- The connections to the data port in the order in which the agent gets them. -/
def dataStream (s : Boot) : List Nat :=
  s.served.map Prod.fst ++ s.inHand ++ s.dataBacklog

def ctrlStream (s : Boot) : List Nat :=
  s.served.map Prod.snd ++ s.ctrlBacklog

/-- `_attach` has two connections, which the agent serves together as soon as it gets to them, and it has
served no others. -/
def Attaches (timeout : Nat) (width height : Int) (s : Boot) : Prop :=
  ∃ data ctrl, s.attach = .attached data ctrl ∧ (s.served = [] ∨ s.served = [(data, ctrl)]) ∧
    ∃ n t, (machine timeout width height).run s (List.replicate n .agentRuns) = some t ∧
      t.served = [(data, ctrl)]

/-- The agent has bound both ports within the boot timeout. -/
def BindsInTime (s : Boot) : Prop :=
  ∃ time, s.boundAt = some time ∧ time ≤ s.deadline

def isTimely (s : Boot) (e : Event) : Bool :=
  match e, s.attach with
  | .refuses _, .askingCtrl _ _ => false
  | .attachRuns, .answeredData _ answer time =>
    (connect dataPort answer).isNone || decide (s.deadline < time) || decide (s.clock < s.deadline)
  | _, _ => true

/-- The control port is bound when the host asks for it, and what was refused by the deadline the host learns
before the deadline. -/
def Timely (s : Boot) (e : Event) : Prop :=
  s.isTimely e = true

instance (s : Boot) (e : Event) : Decidable (s.Timely e) :=
  inferInstanceAs (Decidable (_ = _))

section

variable {timeout : Nat} {width height : Int} {s t : Boot} {e : Event}

/-! ## Data is paired with control -/

def Paired (s : Boot) : Prop :=
  ∀ datas ctrls, s.attach.connected = some (datas, ctrls) → s.dataStream = datas ∧ s.ctrlStream = ctrls

theorem Paired.keeps (h : s.Paired) (hdata : t.dataStream = s.dataStream) (hctrl : t.ctrlStream = s.ctrlStream)
    (hattach : t.attach.connected = s.attach.connected) : t.Paired := by
  intro datas ctrls hconnected
  rw [hdata, hctrl]
  exact h datas ctrls (hattach ▸ hconnected)

theorem Paired.step (h : s.Paired) (hst : Step timeout width height s e t) : t.Paired := by
  cases hst with
  | passes => exact h
  | bindsData hagent | bindsCtrl hagent | returns hagent =>
    exact h.keeps (by simp [dataStream, inHand, hagent]) rfl rfl
  | acceptsData hagent hbacklog => exact h.keeps (by simp [dataStream, inHand, hagent, hbacklog]) rfl rfl
  | acceptsCtrl hagent hbacklog =>
    exact h.keeps (by simp [dataStream, inHand, hagent]) (by simp [ctrlStream, hbacklog]) rfl
  | acksData hattach =>
    obtain ⟨hdata, hctrl⟩ := h [] [] (by rw [hattach]; rfl)
    intro datas ctrls hconnected
    simp only [Attach.connected, connect_ackLine, if_true, Option.some.injEq, Prod.mk.injEq] at hconnected
    obtain ⟨rfl, rfl⟩ := hconnected
    refine ⟨?_, hctrl⟩
    exact (List.append_assoc _ _ _).symm.trans (congrArg (· ++ _) hdata)
  | @acksCtrl _ data _ hattach =>
    obtain ⟨hdata, hctrl⟩ := h [data] [] (by rw [hattach]; rfl)
    intro datas ctrls hconnected
    simp only [Attach.connected, connect_ackLine, if_true, Option.some.injEq, Prod.mk.injEq] at hconnected
    obtain ⟨rfl, rfl⟩ := hconnected
    refine ⟨hdata, ?_⟩
    exact (List.append_assoc _ _ _).symm.trans (congrArg (· ++ _) hctrl)
  | @refusesData exc _ hattach =>
    have hrefused : connect dataPort (refusal exc) ≠ none := Option.isSome_iff_ne_none.mp (connect_refusal _ _)
    exact h.keeps rfl rfl (by simp [Attach.connected, hattach, hrefused])
  | @refusesCtrl exc _ _ hattach =>
    have hrefused : connect ctrlPort (refusal exc) ≠ none := Option.isSome_iff_ne_none.mp (connect_refusal _ _)
    exact h.keeps rfl rfl (by simp [Attach.connected, hattach, hrefused])
  | begins hattach | retries hattach | attaches hattach =>
    exact h.keeps rfl rfl (by simp [Attach.connected, hattach])
  | connectsData hattach hanswer | connectsCtrl hattach hanswer | waits hattach hanswer =>
    exact h.keeps rfl rfl (by simp [Attach.connected, hattach, hanswer])
  | givesUp | fails => exact fun _ _ hconnected ↦ (by cases hconnected)

theorem reachable_paired (h : (machine timeout width height).Reachable s) : s.Paired := by
  refine h.invariant (fun datas ctrls hconnected ↦ ?_) fun _ _ _ _ hi hst ↦ hi.step (step_step hst)
  cases hconnected
  exact ⟨rfl, rfl⟩

theorem served_of_streams {data ctrl : Nat} (hdata : s.dataStream = [data]) (hctrl : s.ctrlStream = [ctrl]) :
    s.served = [] ∨ s.served = [(data, ctrl)] := by
  cases hserved : s.served with
  | nil => exact .inl rfl
  | cons pair more =>
    simp [dataStream, hserved] at hdata
    simp [ctrlStream, hserved] at hctrl
    refine .inr ?_
    rw [hdata.2.1, ← hdata.1, ← hctrl.1]

/-- Once it listens on both ports, the agent gets to the pair in a few steps. -/
theorem serves_of_streams {data ctrl : Nat} (hdata : s.dataStream = [data]) (hctrl : s.ctrlStream = [ctrl])
    (hbound : s.ctrlBound = true) : ∃ n t,
      (machine timeout width height).run s (List.replicate n .agentRuns) = some t ∧ t.served = [(data, ctrl)] := by
  rcases served_of_streams hdata hctrl with hnone | hserved
  · have hctrl : s.ctrlBacklog = [ctrl] := by simpa [ctrlStream, hnone] using hctrl
    have hdata : s.inHand ++ s.dataBacklog = [data] := by simpa [dataStream, hnone] using hdata
    cases hagent : s.agent with
    | starting | boundData => simp [ctrlBound, hagent] at hbound
    | acceptingData =>
      have hdata : s.dataBacklog = [data] := by simpa [inHand, hagent] using hdata
      exact ⟨2, _, by simp [Machine.run, machine, Vsock.step, Boot.agentRuns, hagent, hdata, hctrl]; rfl, by
        simp [hnone]⟩
    | acceptingCtrl x =>
      obtain ⟨rfl, -⟩ : x = data ∧ s.dataBacklog = [] := by simpa [inHand, hagent] using hdata
      exact ⟨1, _, by simp [Machine.run, machine, Vsock.step, Boot.agentRuns, hagent, hctrl]; rfl, by simp [hnone]⟩
    | serving x y =>
      have hdata : s.dataBacklog = [data] := by simpa [inHand, hagent] using hdata
      exact ⟨3, _, by simp [Machine.run, machine, Vsock.step, Boot.agentRuns, hagent, hdata, hctrl]; rfl, by
        simp [hnone]⟩
  · exact ⟨0, s, rfl, hserved⟩

/-! ## When the host gives up -/

structure Timed (s : Boot) : Prop where
  bound : s.ctrlBound = s.boundAt.isSome
  refused : ∀ data answer time, s.attach = .answeredData data answer time → connect dataPort answer ≠ none →
    time ≤ s.clock ∧ ∀ b, s.boundAt = some b → time ≤ b

theorem Timed.step (h : s.Timed) (hst : Step timeout width height s e t) : t.Timed := by
  cases hst with
  | passes =>
    refine ⟨h.bound, fun data answer time hattach hrefused ↦ ?_⟩
    obtain ⟨htime, hbound⟩ := h.refused data answer time hattach hrefused
    exact ⟨Nat.le_add_right_of_le htime, hbound⟩
  | bindsData hagent =>
    refine ⟨?_, h.refused⟩
    rw [← h.bound]
    simp [ctrlBound, hagent]
  | bindsCtrl hagent =>
    refine ⟨rfl, fun data answer time hattach hrefused ↦ ?_⟩
    obtain ⟨htime, -⟩ := h.refused data answer time hattach hrefused
    exact ⟨htime, fun b hb ↦ Option.some.inj hb ▸ htime⟩
  | acceptsData hagent | acceptsCtrl hagent | returns hagent =>
    refine ⟨?_, h.refused⟩
    rw [← h.bound]
    simp [ctrlBound, hagent]
  | acksData =>
    refine ⟨h.bound, fun data answer time hattach hrefused ↦ ?_⟩
    cases hattach
    exact absurd (connect_ackLine _ _) hrefused
  | refusesData hattach hbound =>
    refine ⟨h.bound, fun data answer time hattach' hrefused ↦ ?_⟩
    cases hattach'
    refine ⟨Nat.le_refl _, fun b hb ↦ ?_⟩
    -- nothing was bound then
    have hnone : s.ctrlBound = true := by rw [h.bound, hb]; rfl
    simp [ctrlBound, dataBound] at hnone hbound
    exact absurd hbound hnone.1
  | acksCtrl | refusesCtrl | begins | connectsData | givesUp | waits | retries | connectsCtrl | fails | attaches =>
    exact ⟨h.bound, fun data answer time hattach ↦ (by cases hattach)⟩

theorem reachable_timed (h : (machine timeout width height).Reachable s) : s.Timed :=
  h.invariant ⟨rfl, fun _ _ _ hattach ↦ by cases hattach⟩ fun _ _ _ _ hi hst ↦ hi.step (step_step hst)

/-- The deadline has passed without both ports being bound. -/
def Late (s : Boot) : Prop :=
  s.deadline < s.clock ∧ ∀ time, s.boundAt = some time → s.deadline < time

/-- As long as every step is timely, only a guest that is late is given up. -/
structure Excused (s : Boot) : Prop where
  failed : ∀ exc, s.attach = .failed exc → s.Late
  answered : ∀ data ctrl answer, s.attach = .answeredCtrl data ctrl answer → connect ctrlPort answer = none

theorem Excused.step (h : s.Excused) (htimed : s.Timed) (hok : s.Timely e)
    (hst : Step timeout width height s e t) : t.Excused := by
  cases hst with
  | passes =>
    refine ⟨fun exc hattach ↦ ?_, h.answered⟩
    obtain ⟨hclock, hbound⟩ := h.failed exc hattach
    exact ⟨Nat.lt_add_right _ hclock, hbound⟩
  | bindsCtrl =>
    refine ⟨fun exc hattach ↦ ?_, h.answered⟩
    have hclock := (h.failed exc hattach).1
    exact ⟨hclock, fun time htime ↦ Option.some.inj htime ▸ hclock⟩
  | bindsData | acceptsData | acceptsCtrl | returns => exact ⟨h.failed, h.answered⟩
  | acksCtrl =>
    refine ⟨fun exc hattach ↦ (by cases hattach), fun data ctrl answer hattach ↦ ?_⟩
    cases hattach
    exact connect_ackLine _ _
  | refusesCtrl hattach => simp [Timely, isTimely, hattach] at hok
  | @givesUp data time answer exc hattach hanswer hlate =>
    refine ⟨fun _ _ ↦ ?_, fun _ _ _ hattach' ↦ (by cases hattach')⟩
    obtain ⟨htime, hbound⟩ := htimed.refused _ _ _ hattach (by simp [hanswer])
    have hpast : s.deadline < time := by
      simp [Timely, isTimely, hattach, hanswer] at hok
      omega
    exact ⟨Nat.lt_of_lt_of_le hpast htime, fun b hb ↦ Nat.lt_of_lt_of_le hpast (hbound b hb)⟩
  | fails hattach hanswer =>
    rw [h.answered _ _ _ hattach] at hanswer
    cases hanswer
  | acksData | refusesData | begins | connectsData | waits | retries | connectsCtrl | attaches =>
    exact ⟨fun _ hattach ↦ (by cases hattach), fun _ _ _ hattach ↦ (by cases hattach)⟩

theorem reached_excused (h : (machine timeout width height).ReachedBy Timely s) : s.Excused :=
  h.invariant ⟨fun _ hattach ↦ (by cases hattach), fun _ _ _ hattach ↦ (by cases hattach)⟩
    fun _ _ _ hs hi hok hst ↦ hi.step (reachable_timed hs.reachable) hok (step_step hst)

/-- The host has given up, or is about to. -/
def Doomed (s : Boot) : Prop :=
  (∃ exc, s.attach = .failed exc) ∨
    ∃ data ctrl answer, s.attach = .answeredCtrl data ctrl answer ∧ connect ctrlPort answer ≠ none

theorem doomed_of_not_timely (hst : Step timeout width height s e t) (hnot : ¬ s.Timely e) : t.Doomed := by
  cases hst with
  | refusesCtrl hattach =>
    exact .inr ⟨_, _, _, rfl, Option.isSome_iff_ne_none.mp (connect_refusal _ _)⟩
  | givesUp => exact .inl ⟨_, rfl⟩
  | waits hattach hanswer hearly => exact absurd (by simp [Timely, isTimely, hattach, hearly]) hnot
  | connectsData hattach hanswer => exact absurd (by simp [Timely, isTimely, hattach, hanswer]) hnot
  | refusesData hattach | begins hattach | retries hattach | connectsCtrl hattach | fails hattach
  | attaches hattach => exact absurd (by simp [Timely, isTimely, hattach]) hnot
  | _ => exact absurd rfl hnot

theorem Doomed.step (h : s.Doomed) (hst : Step timeout width height s e t) : t.Doomed := by
  rcases h with ⟨exc, hfailed⟩ | ⟨data, ctrl, answer, hattach, hrefused⟩
  · cases hst with
    | passes | bindsData | bindsCtrl | acceptsData | acceptsCtrl | returns => exact .inl ⟨exc, hfailed⟩
    | _ => simp_all
  · cases hst with
    | passes | bindsData | bindsCtrl | acceptsData | acceptsCtrl | returns =>
      exact .inr ⟨data, ctrl, answer, hattach, hrefused⟩
    | fails => exact .inl ⟨_, rfl⟩
    | connectsCtrl hattach' hanswer =>
      rw [hattach] at hattach'
      cases hattach'
      exact absurd hanswer hrefused
    | _ => simp_all

/-- When the guest binds both ports in time, `_attach` comes out with the pair that the agent serves together
exactly if every step was timely. -/
theorem attaches_iff_timely {es : List Event} (hrun : (machine timeout width height).run .start es = some s)
    (hover : s.attach.isOver = true) (hbound : s.BindsInTime) :
    s.Attaches timeout width height ↔ (machine timeout width height).Follows Timely .start es := by
  have hreach : (machine timeout width height).Reachable s := .of_run hrun
  obtain ⟨time, hboundAt, htime⟩ := hbound
  constructor
  · rintro ⟨data, ctrl, hattach, -⟩
    have hnot : ¬ s.Doomed := by
      rintro (⟨exc, hfailed⟩ | ⟨_, _, _, hanswered, -⟩)
      · rw [hattach] at hfailed
        cases hfailed
      · rw [hattach] at hanswered
        cases hanswered
    refine (Machine.Reachable.init.follows_of_trap (fun _ _ _ _ hst hok ↦ ?_) (fun _ _ _ _ hst hd ↦ ?_)
      hrun hnot).2
    · exact doomed_of_not_timely (step_step hst) hok
    · exact hd.step (step_step hst)
  · intro hok
    have hexcused := reached_excused (Machine.ReachedBy.init.run hok hrun)
    cases hattach : s.attach with
    | failed exc => exact absurd htime (Nat.not_le_of_lt ((hexcused.failed exc hattach).2 time hboundAt))
    | attached data ctrl =>
      obtain ⟨hdata, hctrl⟩ := reachable_paired hreach [data] [ctrl] (by rw [hattach]; rfl)
      have hlistens : s.ctrlBound = true := by rw [(reachable_timed hreach).bound, hboundAt]; rfl
      exact ⟨data, ctrl, hattach, served_of_streams hdata hctrl, serves_of_streams hdata hctrl hlistens⟩
    | _ =>
      rw [hattach] at hover
      cases hover

end

/-- The guest boots for a while; the second attempt finds both ports bound. -/
def bootsSlowly : List Event :=
  [.attachRuns, .refuses none, .attachRuns, .passes 60, .agentRuns, .agentRuns, .attachRuns, .acknowledges 49152,
    .attachRuns, .agentRuns, .acknowledges 49153, .attachRuns, .attachRuns]

theorem bootsSlowly_attaches : ∃ s, (machine 30000 80 24).run .start bootsSlowly = some s ∧
    s.Attaches 30000 80 24 := by
  have hrun : (machine 30000 80 24).run .start bootsSlowly = some _ := rfl
  exact ⟨_, hrun, (attaches_iff_timely hrun rfl ⟨60, rfl, by decide⟩).mpr (by decide)⟩

/-- The host is acknowledged on the data port and asks for the control port before that one is bound. -/
def asksBetweenBinds : List Event :=
  [.agentRuns, .attachRuns, .acknowledges 49152, .attachRuns, .refuses none, .agentRuns, .attachRuns]

theorem asksBetweenBinds_fails : ¬ ∀ (timeout : Nat) (width height : Int) (es : List Event) (s : Boot),
    (machine timeout width height).run .start es = some s → s.attach.isOver = true → s.BindsInTime →
      s.Attaches timeout width height := by
  intro hall
  obtain ⟨data, ctrl, hattach, -⟩ := hall 30000 80 24 asksBetweenBinds _ rfl rfl ⟨0, rfl, by decide⟩
  cases hattach

end Boot

end Keycard.Vsock
