import Keycard.GuestAgent.Streams

/-!
# A session with one connection

A room that cannot be paused is attached to once.  Nobody is displaced then, and the shell may exit whenever it
likes: its input is what the connection has brought, and the connection is sent one piece of its output.
-/

open Reasoning

namespace Keycard.GuestAgent

namespace Session

variable {window : Nat} {s t : Session} {e : Event}

/-- No second connection is handed to the session. -/
def OneOnly (_ : Session) (e : Event) : Prop :=
  e ≠ .serves

theorem conns_step (hok : s.OneOnly e) (hst : Step window s e t) : t.conns = s.conns := by
  cases hst with
  | reattaches | replaces => exact absurd rfl hok
  | exitDetaches _ hd | attachDetaches _ hd => rw [detaches_eq hd]
  | _ => rfl

theorem reached_conns (h : (machine window).ReachedBy OneOnly s) : s.conns = 1 := by
  refine h.invariant (I := fun s ↦ s.conns = 1) rfl fun s e t _ hi hok hst ↦ ?_
  exact (conns_step hok (step_step hst)).trans hi

/-- There is no other reader to come between. -/
theorem alone_of_conns (haccounted : s.Accounted) (hconns : s.conns = 1) : s.Alone := by
  intro j k _ hbegun
  have hj := (haccounted.fresh _ hbegun).1
  simp only [hconns] at hj
  omega

theorem typed_of_one (h : (machine window).ReachedBy OneOnly s) : ∃ accepted, s.Typed accepted := by
  have hinit : Session.start.Typed fun _ ↦ [] :=
    ⟨fun k ↦ ⟨rfl, rfl⟩, fun _ ↦ by simp [Session.start, concat, PtyWriter.inHand], List.nil_prefix⟩
  refine h.invariant (I := fun s ↦ ∃ accepted, s.Typed accepted) ⟨_, hinit⟩ fun s e t hs hi _ hst ↦ ?_
  obtain ⟨accepted, htyped⟩ := hi
  have haccounted := reachable_accounted hs.reachable
  exact htyped.exists_step haccounted (alone_of_conns haccounted (reached_conns hs)) (step_step hst)

theorem reachedBy_oneOnly {es : List Event} (hrun : (machine window).run .start es = some s)
    (hone : .serves ∉ es) : (machine window).ReachedBy OneOnly s := by
  refine Machine.ReachedBy.init.run (Machine.follows_of_forall (fun e he s heq ↦ ?_) _) hrun
  subst heq
  exact hone he

/-! ## What the connection is sent -/

/-- A chunk that `pump_out` has read, and that it drops because nobody is attached. -/
def discards (s : Session) : Event → Bytes
  | .pumpLocks =>
    match s.pump, s.dataOut with
    | .alive (.locking chunk) _, none => chunk
    | _, _ => []
  | _ => []

theorem discards_of_ne (he : e ≠ .pumpLocks) : s.discards e = [] := by
  cases e <;> first | rfl | exact absurd rfl he

/-- With `lost` discarded so far, `before` was read before the connection was sent anything, and `after` was
not sent to it. -/
structure Sent (s : Session) (lost before after : Bytes) : Prop where
  flow : s.output = before ++ s.written 0 ++ after ++ s.inHand
  begins : before <+: lost
  unopened : s.opened = 0 → s.written 0 = [] ∧ (s.pump ≠ .ended → before = lost)
  whole : s.opened = 0 ∨ s.dataOut ≠ none → s.pump ≠ .ended → after = []

section

variable {lost before after : Bytes}

theorem Sent.keeps (h : s.Sent lost before after) (houtput : t.output = s.output) (hhand : t.inHand = s.inHand)
    (hwritten : t.written 0 = s.written 0) (hopened : t.opened = s.opened)
    (hslot : t.dataOut = s.dataOut ∨ t.dataOut = none) (hpump : t.pump ≠ .ended → s.pump ≠ .ended) :
    t.Sent lost before after := by
  refine ⟨?_, h.begins, fun ho ↦ ?_, fun hopen halive ↦ h.whole ?_ (hpump halive)⟩
  · rw [houtput, hhand, hwritten]
    exact h.flow
  · rw [hwritten]
    obtain ⟨hnil, hall⟩ := h.unopened (hopened ▸ ho)
    exact ⟨hnil, fun halive ↦ hall (hpump halive)⟩
  · rcases hopen with ho | ho
    · exact .inl (hopened ▸ ho)
    · rcases hslot with hsame | hnone
      · exact .inr (hsame ▸ ho)
      · exact absurd hnone ho

theorem Sent.host (h : s.Sent lost before after) {x : Stream} {v : HostEnd}
    (hv : x.channel = .ctrl ∨ v.written = (s.host x).written) : (s.setHost x v).Sent lost before after := by
  refine h.keeps rfl rfl ?_ rfl (.inl rfl) id
  by_cases hx : (⟨0, .data⟩ : Stream) = x
  · subst hx
    rcases hv with hv | hv
    · cases hv
    · simpa [written, setHost] using hv
  · simp [written, setHost, Function.update_of_ne hx]

theorem Sent.pumpReads (h : s.Sent lost before after) {c : Bool} (hp : s.pump = .alive .reading c) (chunk : Bytes) :
    ({ s with pump := .alive (.locking chunk) c, output := s.output ++ chunk } : Session).Sent lost before after := by
  have halive : s.pump ≠ .ended := by simp [hp]
  have hflow := h.flow
  rw [show s.inHand = [] by simp only [inHand, hp, PumpPoint.inHand], List.append_nil] at hflow
  refine ⟨congrArg (· ++ chunk) hflow, h.begins, fun ho ↦ ?_, fun hopen _ ↦ h.whole hopen halive⟩
  exact ⟨(h.unopened ho).1, fun _ ↦ (h.unopened ho).2 halive⟩

/-- Until the connection is in the slot, what is discarded comes before all that it will be sent. -/
theorem Sent.pumpDiscards (h : s.Sent lost before after) {chunk : Bytes} {c : Bool}
    (hp : s.pump = .alive (.locking chunk) c) (hslot : s.dataOut = none) :
    ∃ before' after', ({ s with pump := .alive .reading c } : Session).Sent (lost ++ chunk) before' after' := by
  have halive : s.pump ≠ .ended := by simp [hp]
  have hflow := h.flow
  rw [show s.inHand = chunk by simp only [inHand, hp, PumpPoint.inHand]] at hflow
  by_cases ho : s.opened = 0
  · obtain ⟨hnil, hall⟩ := h.unopened ho
    have hbefore := hall halive
    refine ⟨lost ++ chunk, [], ?_, List.prefix_refl _, fun _ ↦ ⟨hnil, fun _ ↦ rfl⟩, fun _ _ ↦ rfl⟩
    rw [hnil, h.whole (.inl ho) halive, hbefore, List.append_nil, List.append_nil] at hflow
    have hwritten : ({ s with pump := .alive .reading c } : Session).written 0 = [] := hnil
    simp only [hwritten, inHand, PumpPoint.inHand, List.append_nil]
    exact hflow
  · refine ⟨before, after ++ chunk, ?_, h.begins.trans (List.prefix_append _ _), fun h0 ↦ absurd h0 ho,
      fun hopen ↦ absurd hslot (hopen.resolve_left ho)⟩
    simp only [inHand, PumpPoint.inHand, List.append_nil, ← List.append_assoc]
    exact hflow

theorem Sent.pumpWrites (h : s.Sent lost before after) (hopened : s.opened ≠ 0) {rest : Bytes} {c : Bool}
    (hp : s.pump = .alive (.writing rest) c) (hslot : s.dataOut = some 0) (n : Nat) :
    ({ s.deliver ⟨0, .data⟩ (rest.take n) with pump := .alive (.next (rest.drop n)) c } : Session).Sent
      lost before after := by
  have hafter : after = [] := h.whole (.inr (by simp [hslot])) (by simp [hp])
  refine ⟨?_, h.begins, fun ho ↦ absurd ho hopened, fun _ _ ↦ hafter⟩
  have hflow := h.flow
  rw [show s.inHand = rest by simp only [inHand, hp, PumpPoint.inHand], hafter, List.append_nil] at hflow
  have hwritten : ({ s.deliver ⟨0, .data⟩ (rest.take n) with
      pump := .alive (.next (rest.drop n)) c } : Session).written 0 = s.written 0 ++ rest.take n := by
    simp [written, deliver, setHost, HostEnd.receive]
  rw [hwritten, hafter, show inHand { s.deliver ⟨0, .data⟩ (rest.take n) with
    pump := .alive (.next (rest.drop n)) c } = rest.drop n from PumpPoint.inHand_next _, List.append_nil,
    List.append_assoc, List.append_assoc, List.take_append_drop, ← List.append_assoc]
  exact hflow

/-- What the pump had in its hand does not reach the connection any more. -/
theorem Sent.drops (h : s.Sent lost before after) (houtput : t.output = s.output) (hhand : t.inHand = [])
    (hhost : t.host = s.host) (hopened : t.opened = s.opened)
    (hstops : s.opened ≠ 0 ∧ t.dataOut = none ∨ t.pump = .ended) : t.Sent lost before (after ++ s.inHand) := by
  have hwritten : t.written 0 = s.written 0 := by simp only [written, hhost]
  refine ⟨?_, h.begins, fun ho ↦ ⟨?_, fun halive ↦ ?_⟩, fun hopen halive ↦ ?_⟩
  · rw [houtput, hhand, hwritten, List.append_nil, ← List.append_assoc]
    exact h.flow
  · rw [hwritten]
    exact (h.unopened (hopened ▸ ho)).1
  · rcases hstops with ⟨hne, -⟩ | hended
    · exact absurd (hopened ▸ ho) hne
    · exact absurd hended halive
  · rcases hstops with ⟨hne, hnone⟩ | hended
    · exact absurd hnone (hopen.resolve_left (hopened ▸ hne))
    · exact absurd hended halive

/-- The connection comes into the slot. -/
theorem Sent.installsData (h : s.Sent lost before after) (k : Nat) (hfirst : s.opened = 0) :
    ({ s with dataOut := some k, holder := .attaching k .installingCtrl } : Session).Sent lost before after := by
  refine ⟨h.flow, h.begins, fun ho ↦ ?_, fun _ halive ↦ h.whole (.inl hfirst) halive⟩
  simp [opened, AttachPoint.hasWriters] at ho

theorem Sent.exists_step (h : s.Sent lost before after) (hnewest : s.Newest) (hconns : s.conns = 1)
    (hlast : ∀ k, s.dataOut = some k → k + 1 = s.opened) (hok : s.OneOnly e) (hst : Step window s e t) :
    ∃ before' after', t.Sent (lost ++ s.discards e) before' after' := by
  have hle : s.opened ≤ 1 := hconns ▸ hnewest.opened_le
  have hslot {k : Nat} (hk : s.dataOut = some k) : k = 0 ∧ s.opened ≠ 0 := by
    have := hlast k hk
    omega
  by_cases he : e = .pumpLocks
  · subst he
    cases hst with
    | @pumpDiscards chunk _ hp hnone =>
      rw [show s.discards .pumpLocks = chunk by simp only [discards, hp, hnone]]
      exact h.pumpDiscards hp hnone
    | pumpLocks hp hk =>
      rw [show s.discards .pumpLocks = [] by simp only [discards, hp, hk], List.append_nil]
      exact ⟨before, after, h.keeps rfl (by simp [inHand, hp, PumpPoint.inHand]) rfl rfl (.inl rfl)
        fun _ ↦ by simp [hp]⟩
  rw [discards_of_ne he, List.append_nil]
  cases hst with
  | pumpDiscards | pumpLocks => exact absurd rfl he
  | hostTakes | hostLeaves => exact ⟨before, after, h.host (.inr rfl)⟩
  | pumpEnds hp =>
    exact ⟨before, after, h.keeps rfl (by simp [inHand, hp, PumpPoint.inHand]) rfl rfl (.inl rfl)
      fun halive ↦ absurd rfl halive⟩
  | pumpReads hp => exact ⟨before, after, h.pumpReads hp _⟩
  | pumpWrites hp hk =>
    obtain ⟨rfl, hopened⟩ := hslot hk
    exact ⟨before, after, h.pumpWrites hopened hp hk _⟩
  | pumpWriteFails _ hk => exact ⟨before, _, h.drops rfl rfl rfl rfl (.inl ⟨(hslot hk).2, rfl⟩)⟩
  | pumpDropped => exact ⟨before, _, h.drops rfl rfl rfl rfl (.inr rfl)⟩
  | exitAborts =>
    refine ⟨before, after, h.keeps rfl ?_ rfl rfl (.inl rfl) fun halive ↦ ?_⟩
    · cases hp : s.pump <;> simp [inHand, hp]
    · rintro hp
      exact halive (by simp [hp])
  | @exitWrites _ k | @exitShuts k =>
    refine ⟨before, after, (h.host (x := ⟨k, .ctrl⟩) ?_).keeps rfl rfl rfl rfl (.inl rfl) id⟩
    exact .inl rfl
  | exitDetaches _ hd =>
    refine ⟨before, after, ?_⟩
    cases hd with
    | clearsData => exact h.keeps rfl rfl rfl rfl (.inr rfl) id
    | takes | joined | joins | clearsCtrl => exact h.keeps rfl rfl rfl rfl (.inl rfl) id
  | reattaches | replaces => exact absurd rfl hok
  | drops hholder =>
    exact ⟨before, after, h.keeps rfl rfl rfl (by simp only [opened, hholder]) (.inl rfl) id⟩
  | @attachDetaches k d _ _ hholder hd =>
    refine ⟨before, after, ?_⟩
    have hopened : s.opened = k := by simp [opened, hholder, AttachPoint.hasWriters]
    cases hd with
    | clearsData => exact h.keeps rfl rfl rfl hopened.symm (.inr rfl) id
    | takes | joined | joins | clearsCtrl => exact h.keeps rfl rfl rfl hopened.symm (.inl rfl) id
  | @installsData k hholder =>
    have hopened : s.opened = k := by simp [opened, hholder, AttachPoint.hasWriters]
    have hk := hnewest k _ hholder
    exact ⟨before, after, h.installsData k (by omega)⟩
  | installsCtrl hholder | spawns hholder =>
    refine ⟨before, after, h.keeps rfl rfl rfl ?_ (.inl rfl) id⟩
    simp [opened, hholder, AttachPoint.hasWriters]
  | registers hholder =>
    refine ⟨before, after, h.keeps rfl rfl rfl ?_ (.inl rfl) id⟩
    simp [opened, hholder, AttachPoint.hasWriters, hnewest _ _ hholder]
  | _ => exact ⟨before, after, h.keeps rfl rfl rfl rfl (.inl rfl) id⟩

end

theorem sent_start : Session.start.Sent [] [] [] :=
  ⟨rfl, List.prefix_refl _, fun _ ↦ ⟨rfl, fun _ ↦ rfl⟩, fun _ _ ↦ rfl⟩

theorem run_sent {es : List Event} (hrun : (machine window).run .start es = some s) (hone : .serves ∉ es) :
    ∃ before after, s.Sent ((machine window).trace discards .start es) before after := by
  have hall : .serves ∉ es → (machine window).run .start es = some s ∧
      ∃ before after, s.Sent ((machine window).trace discards .start es) before after := by
    refine Machine.run_induction (P := fun es s ↦ .serves ∉ es → (machine window).run .start es = some s ∧
      ∃ before after, s.Sent ((machine window).trace discards .start es) before after) hrun ?_ ?_
    · exact fun _ ↦ ⟨rfl, [], [], sent_start⟩
    · intro es s e t hs hst hno
      have hbefore : .serves ∉ es := fun hm ↦ hno (List.mem_append_left _ hm)
      obtain ⟨hrun, before, after, hsent⟩ := hs hbefore
      have hreached := reachedBy_oneOnly hrun hbefore
      have hok : s.OneOnly e := fun he ↦ hno (List.mem_append_right _ (List.mem_singleton.mpr he.symm))
      obtain ⟨gap, idle, hpoured⟩ := reachable_poured hreached.reachable
      obtain ⟨before', after', hsent'⟩ := hsent.exists_step (reachable_newest hreached.reachable)
        (reached_conns hreached) hpoured.last hok (step_step hst)
      refine ⟨?_, before', after', ?_⟩
      · rw [Machine.run_append _ hrun, Machine.run, hst]
        rfl
      · rw [Machine.trace_append _ hrun]
        simpa [Machine.trace, hst] using hsent'
  exact (hall hone).2

/-- What the shell was sent is a prefix of what was read from the connection, and what the connection was sent is
one piece of what was read from the shell: all but what was discarded before the connection was there. -/
theorem one_connection {es : List Event} (hrun : (machine window).run .start es = some s) (hone : .serves ∉ es) :
    s.typed <+: s.received 0 ∧ ∃ before after, s.output = before ++ (s.host ⟨0, .data⟩).written ++ after ∧
      before <+: (machine window).trace discards .start es := by
  have hreached := reachedBy_oneOnly hrun hone
  have hconns := reached_conns hreached
  constructor
  · obtain ⟨accepted, htyped⟩ := typed_of_one hreached
    have hprefix := htyped.typed
    rw [hconns, concat_succ, concat_zero, List.nil_append] at hprefix
    exact hprefix.trans (htyped.reads 0).begins
  · obtain ⟨before, after, hsent⟩ := run_sent hrun hone
    refine ⟨before, after ++ s.inHand, ?_, hsent.begins⟩
    rw [← List.append_assoc]
    exact hsent.flow

end Session

end Keycard.GuestAgent
