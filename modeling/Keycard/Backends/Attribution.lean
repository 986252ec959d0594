import Keycard.Backends.HistorySteps

/-!
# Whose directory it is

A sweep may run at any time while another keycard creates an instance.  What keeps the two apart is
that the sweep reads the creator's pid, so everything depends on the pid being there when it looks, and
on the sweep looking at the instance directory itself.
-/

open Reasoning

namespace Keycard.Firecracker

namespace History

variable {root : RuntimeDir} {s t : History} {e : HostEvent}

/-! ## The instance directories -/

/-- No earlier instance directory is on the way to the new one. -/
def ApartFrom (s : History) (new : Creation) : Prop :=
  ∀ old ∈ s.instances, ¬ old.dir <+: new.dir ∧ old.dir ∉ new.parents

structure Apart (s : History) : Prop where
  linkless : s.files.Linkless
  bound : ∀ {n : Nat} {made : Creation}, s.instances[n]? = some made → made.keycard < s.keycards.length
  nested : ∀ {n m : Nat} {made made' : Creation}, s.instances[n]? = some made →
    s.instances[m]? = some made' → made.dir <+: made'.dir → n = m
  passed : ∀ {n m : Nat} {made made' : Creation}, s.instances[n]? = some made →
    s.instances[m]? = some made' → made.dir ∉ made'.parents

theorem initial_get? (root : RuntimeDir) {p : Path} {node : Node File}
    (h : (initial root).files.get? p = some node) : p <+: root.path ∧ node = .dir := by
  have hfold : ∀ (ps : List Path) (files : Files), (ps.foldl (fun files p ↦ files.set p .dir) files).get? p = some node →
      files.get? p = some node ∨ p ∈ ps ∧ node = .dir := by
    intro ps
    induction ps with
    | nil => exact fun files hp ↦ .inl hp
    | cons q rest ih =>
      intro files hp
      rcases ih (files.set q .dir) hp with hp | ⟨hm, hnode⟩
      · rcases get?_set_cases hp with hp | ⟨rfl, hnode⟩
        · exact .inl hp
        · exact .inr ⟨List.mem_cons_self, hnode⟩
      · exact .inr ⟨List.mem_cons_of_mem _ hm, hnode⟩
  rcases hfold _ _ h with hp | ⟨hm, hnode⟩
  · cases hp
  · exact ⟨(List.mem_inits _ _).mp hm, hnode⟩

theorem apart_initial (root : RuntimeDir) : (initial root).Apart where
  linkless := by
    intro p target hp
    cases (initial_get? root hp).2
  bound hn := by cases hn
  nested hn := by cases hn
  passed hn := by cases hn

theorem Apart.step (h : s.Apart) (hst : Effect root s e t)
    (hok : ∀ k roomName uuid, e = .creates k roomName uuid → s.ApartFrom (creation root k roomName uuid)) :
    t.Apart := by
  have hnew : ∀ {made : Creation}, Enters root s e made → s.ApartFrom made := by
    intro made henters
    obtain ⟨k, roomName, uuid, he, hmade⟩ := henters.event
    exact hmade ▸ hok k roomName uuid he
  constructor
  · intro p target hp
    rcases hst.files hp with hold | hwrites
    · exact h.linkless p target hold
    · cases hwrites
  · intro n made hn
    rcases hst.instances hn with hold | ⟨-, henters, -⟩
    · exact Nat.lt_of_lt_of_le (h.bound hold) hst.keycards.length_le
    · obtain ⟨keycard, entry, hkeycard, -⟩ := keycardAlive_iff.mp henters.alive
      exact Nat.lt_of_lt_of_le (List.getElem?_eq_some_iff.mp hkeycard).1 hst.keycards.length_le
  · intro n m made made' hn hm hbelow
    rcases hst.instances hn with hn | ⟨hlast, henters, -⟩
    · rcases hst.instances hm with hm | ⟨hlast', henters', -⟩
      · exact h.nested hn hm hbelow
      · exact absurd hbelow ((hnew henters') made (List.mem_of_getElem? hn)).1
    · rcases hst.instances hm with hm | ⟨hlast', henters', -⟩
      · exact absurd hbelow (henters.fresh.2 made' (List.mem_of_getElem? hm)).1
      · exact hlast.trans hlast'.symm
  · intro n m made made' hn hm
    rcases hst.instances hn with hn | ⟨hlast, henters, -⟩
    · rcases hst.instances hm with hm | ⟨hlast', henters', -⟩
      · exact h.passed hn hm
      · exact ((hnew henters') made (List.mem_of_getElem? hn)).2
    · rcases hst.instances hm with hm | ⟨hlast', henters', -⟩
      · exact (henters.fresh.2 made' (List.mem_of_getElem? hm)).2
      · have hsame : made = made' := by
          rw [hlast, ← hlast'] at hn
          exact Option.some.inj (hn.symm.trans hm)
        exact hsame ▸ henters.fresh.1

/-- Where two instance directories meet, they are one. -/
theorem Apart.eq_of_below (h : s.Apart) {n m : Nat} {made made' : Creation} {name : String}
    (hn : s.instances[n]? = some made) (hm : s.instances[m]? = some made')
    (hbelow : made'.dir <+: made.dir ++ [name]) : n = m := by
  rcases List.prefix_concat_iff.mp hbelow with heq | hbelow
  · exact h.nested hn hm (heq ▸ List.prefix_append _ _)
  · exact (h.nested hm hn hbelow).symm

/-! ## What a sweep can come across -/

/-- `name` is in `runtime_dir`, or was there when some sweep listed it. -/
def Shows (root : RuntimeDir) (s : History) (name : String) : Prop :=
  s.files.get? (root.path ++ [name]) ≠ none ∨ ∃ k, name ∈ (s.reaping k).names

theorem Advances.names {k : Nat} {reaping : Reaping} (h : Advances root s k e reaping) {name : String}
    (hm : name ∈ reaping.names) : s.Shows root name := by
  unfold Shows
  cases h with
  | lists =>
    obtain ⟨node, hnode⟩ := FileTree.mem_names.mp hm
    exact .inl (by simp [hnode])
  | picks hat => exact .inr ⟨k, by rw [hat]; exact hm⟩
  | looks hat hlooks =>
    refine .inr ⟨k, ?_⟩
    rw [hat]
    cases hlooks with
    | passesBy | spares | sparesVmm => exact List.mem_cons_of_mem _ hm
    | raises => cases hm
    | _ => exact hm
  | ends hat => exact .inr ⟨k, by rw [hat]; exact List.mem_cons_of_mem _ hm⟩
  | returns => cases hm
  | starts => cases hm

theorem Shows.of_step (hst : Effect root s e t) {name : String} (h : t.Shows root name) :
    s.Shows root name ∨ ∃ node, Writes s t (root.path ++ [name]) node := by
  unfold Shows at h ⊢
  rcases h with hthere | ⟨k, hm⟩
  · obtain ⟨node, hnode⟩ := Option.ne_none_iff_exists'.mp hthere
    rcases hst.files hnode with hold | hwrites
    · exact .inl (.inl (by simp [hold]))
    · exact .inr ⟨node, hwrites⟩
  · rcases hst.reaping k with hsame | hadvances
    · exact .inl (.inr ⟨k, hsame ▸ hm⟩)
    · exact .inl (hadvances.names hm)

/-! ## What a sweep knows of the owner -/

/-- Directly below `runtime_dir`, or not below it at all. -/
def Placed (root : RuntimeDir) (dir : Path) : Prop :=
  dir ≠ root.path ∧ (root.path <+: dir → dir.dropLast = root.path)

/-- `owner.pid` holds the pid of the keycard that made the directory. -/
def NamesOwner (root : RuntimeDir) (s : History) (made : Creation) : Prop :=
  (s.keycards[made.keycard]?).map (fun keycard ↦ ((keycard.pid : Nat) : Int)) =
    readPid root.unicode s.files (ownerPid made.dir)

/-- When a sweep reads `owner.pid` for a living keycard, the file holds its pid. -/
def FindsOwner (root : RuntimeDir) (s : History) (k : Nat) : Prop :=
  match s.reaping k with
  | .looking name .readingOwner _ => ∀ made ∈ s.instances,
      made.dir = root.path ++ [name] → s.keycardAlive made.keycard = true → NamesOwner root s made
  | _ => True

/-- The condition under which no sweep takes a living keycard's directory: instances lie directly in
`runtime_dir` or outside it, apart from one another, and are swept only once their owner is known. -/
def Attributable (root : RuntimeDir) (s : History) : HostEvent → Prop
  | .creates k roomName uuid =>
    s.ApartFrom (creation root k roomName uuid) ∧ Placed root (creation root k roomName uuid).dir
  | .sweeps k => FindsOwner root s k
  | _ => True

instance (s : History) (new : Creation) : Decidable (s.ApartFrom new) :=
  inferInstanceAs (Decidable (∀ _ ∈ _, _))

instance (root : RuntimeDir) (dir : Path) : Decidable (Placed root dir) :=
  inferInstanceAs (Decidable (_ ∧ _))

instance (root : RuntimeDir) (s : History) (made : Creation) : Decidable (NamesOwner root s made) :=
  inferInstanceAs (Decidable (_ = _))

instance (root : RuntimeDir) (s : History) (k : Nat) : Decidable (FindsOwner root s k) := by
  unfold FindsOwner
  split <;> infer_instance

instance (root : RuntimeDir) (s : History) (e : HostEvent) : Decidable (Attributable root s e) := by
  unfold Attributable
  split <;> infer_instance

/-- What a sweep at an instance of a living keycard has found out. -/
def SeesOwner (s : History) (made : Creation) : Look → Prop
  | .testing => True
  | .readingOwner => True
  | .checkingOwner pid => ∃ keycard, s.keycards[made.keycard]? = some keycard ∧ pid = (keycard.pid : Nat)
  | _ => False

structure Attributed (root : RuntimeDir) (s : History) : Prop where
  apart : s.Apart
  placed : ∀ {n : Nat} {made : Creation}, s.instances[n]? = some made → Placed root made.dir
  known : ∀ {name : String}, s.Shows root name → ∃ (n : Nat) (made : Creation), s.instances[n]? = some made ∧
    (made.dir = root.path ++ [name] ∨ root.path ++ [name] ∈ made.parents)
  /-- no `mkdir` can still make a directory that a sweep has listed -/
  settled : ∀ {name : String} {n : Nat} {made : Creation}, s.Shows root name →
    s.instances[n]? = some made → made.dir = root.path ++ [name] → s.creating n ≠ .making
  looked : ∀ {k : Nat} {name : String} {look : Look} {rest : List String} {n : Nat} {made : Creation},
    s.reaping k = .looking name look rest → s.instances[n]? = some made →
      made.dir = root.path ++ [name] → s.keycardAlive made.keycard = true → s.SeesOwner made look

theorem attributed_initial (root : RuntimeDir) : (initial root).Attributed root where
  apart := apart_initial root
  placed hn := by cases hn
  known h := by
    rcases h with hthere | ⟨k, hm⟩
    · obtain ⟨node, hnode⟩ := Option.ne_none_iff_exists'.mp hthere
      have hle := (initial_get? root hnode).1.length_le
      rw [List.length_append] at hle
      exact absurd hle (Nat.not_succ_le_self _)
    · cases hm
  settled _ hn := by cases hn
  looked hat := by cases hat

/-- A write that shows in `runtime_dir` is a `mkdir`, of an instance or on the way to one. -/
theorem Attributed.writes (h : s.Attributed root) {name : String} {node : Node File}
    (hwrites : Writes s t (root.path ++ [name]) node) :
    ∃ n made, s.instances[n]? = some made ∧
      (made.dir = root.path ++ [name] ∧ t.creating n = .made ∨ root.path ++ [name] ∈ made.parents) := by
  generalize hp : root.path ++ [name] = p at hwrites
  cases hwrites with
  | parent hn hparents => exact ⟨_, _, hn, .inr hparents⟩
  | own hn halive hmade => exact ⟨_, _, hn, .inl ⟨rfl, hmade⟩⟩
  | inside hn =>
    have hroot : root.path = _ := (List.append_inj' hp rfl).1
    exact absurd hroot.symm (h.placed hn).1

theorem Attributed.known_step (h : s.Attributed root) (hst : Effect root s e t) {name : String}
    (hshows : t.Shows root name) : ∃ (n : Nat) (made : Creation), s.instances[n]? = some made ∧
      (made.dir = root.path ++ [name] ∨ root.path ++ [name] ∈ made.parents) := by
  rcases hshows.of_step hst with hshows | ⟨node, hwrites⟩
  · exact h.known hshows
  · obtain ⟨n, made, hn, hmade⟩ := h.writes hwrites
    exact ⟨n, made, hn, hmade.imp_left And.left⟩

theorem Attributed.settled_step (h : s.Attributed root) (hst : Effect root s e t) {name : String} {n : Nat}
    {made : Creation} (hshows : t.Shows root name) (hn : t.instances[n]? = some made)
    (hdir : made.dir = root.path ++ [name]) : t.creating n ≠ .making := by
  rcases hst.instances hn with hold | ⟨-, henters, -⟩
  · rcases hshows.of_step hst with hshows | ⟨node, hwrites⟩
    · exact hst.creating hold (h.settled hshows hold hdir)
    · obtain ⟨m, made', hm, ⟨hdir', hmade⟩ | hparents⟩ := h.writes hwrites
      · have hsame : n = m := h.apart.nested hold hm (hdir.trans hdir'.symm ▸ List.prefix_refl _)
        rw [hsame, hmade]
        nofun
      · exact absurd (hdir ▸ hparents) (h.apart.passed hold hm)
  · obtain ⟨m, made', hm, hdir' | hparents⟩ := h.known_step hst hshows
    · have hbelow : made.dir <+: made'.dir := hdir.trans hdir'.symm ▸ List.prefix_refl _
      exact absurd hbelow (henters.fresh.2 made' (List.mem_of_getElem? hm)).1
    · exact absurd (hdir ▸ hparents) (henters.fresh.2 made' (List.mem_of_getElem? hm)).2

theorem FindsOwner.read {k : Nat} {name : String} {rest : List String} {made : Creation}
    (h : FindsOwner root s k) (hat : s.reaping k = .looking name .readingOwner rest)
    (hmade : made ∈ s.instances) (hdir : made.dir = root.path ++ [name])
    (halive : s.keycardAlive made.keycard = true) :
    ∃ keycard, s.keycards[made.keycard]? = some keycard ∧
      readPid root.unicode s.files (ownerPid (root.path ++ [name])) = some ((keycard.pid : Nat) : Int) := by
  rw [FindsOwner, hat] at h
  have hnames := h made hmade hdir halive
  obtain ⟨keycard, entry, hkeycard, -⟩ := keycardAlive_iff.mp halive
  rw [NamesOwner, hkeycard, Option.map_some, hdir] at hnames
  exact ⟨keycard, hkeycard, hnames.symm⟩

/-- One look of a sweep at the instance of a living keycard. -/
theorem Attributed.looks (h : s.Attributed root) {k n : Nat} {name : String} {look look' : Look}
    {rest rest' : List String} {made : Creation} (hfinds : FindsOwner root s k)
    (hat : s.reaping k = .looking name look' rest')
    (hlooks : Looks root.unicode s (root.path ++ [name]) name rest' look' (.looking name look rest))
    (hn : s.instances[n]? = some made) (hdir : made.dir = root.path ++ [name])
    (halive : s.keycardAlive made.keycard = true) : s.SeesOwner made look := by
  have hsees := h.looked hat hn hdir halive
  cases hlooks with
  | tests => trivial
  | readsOwner hpid =>
    obtain ⟨keycard, hkeycard, hread⟩ := hfinds.read hat (List.mem_of_getElem? hn) hdir halive
    rw [hpid] at hread
    exact ⟨keycard, hkeycard, Option.some.inj hread⟩
  | readsNoOwner hno =>
    obtain ⟨keycard, hkeycard, hread⟩ := hfinds.read hat (List.mem_of_getElem? hn) hdir halive
    rw [hno] at hread
    cases hread
  | missesOwner hproc =>
    obtain ⟨keycard, hkeycard, hpid⟩ := hsees
    obtain ⟨keycard', entry, hkeycard', hentry, -⟩ := keycardAlive_iff.mp halive
    cases hkeycard.symm.trans hkeycard'
    rw [hpid, proc_natCast] at hproc
    cases hentry.symm.trans hproc
  | readsVmm => exact hsees
  | readsNoVmm => exact hsees
  | missesVmm => exact hsees

theorem Attributed.step (h : s.Attributed root) (hok : Attributable root s e) (hst : Effect root s e t) :
    t.Attributed root where
  apart := h.apart.step hst fun k roomName uuid he ↦ by
    subst he
    exact hok.1
  placed hn := by
    rcases hst.instances hn with hold | ⟨-, henters, -⟩
    · exact h.placed hold
    · obtain ⟨k, roomName, uuid, he, hmade⟩ := henters.event
      subst he hmade
      exact hok.2
  known hshows := by
    obtain ⟨n, made, hn, hmade⟩ := h.known_step hst hshows
    exact ⟨n, made, hst.getElem?_instances hn, hmade⟩
  settled hshows hn hdir := h.settled_step hst hshows hn hdir
  looked {k name look rest n made} hat hn hdir halive := by
    have hshows : t.Shows root name := .inr ⟨k, by rw [hat]; exact List.mem_cons_self⟩
    rcases hst.instances hn with hold | ⟨-, -, hmaking, -⟩
    · have hlives : s.keycardAlive made.keycard = true := hst.keycardAlive (h.apart.bound hold) halive
      have hsees : s.SeesOwner made look := by
        rcases hst.reaping k with hsame | hadvances
        · exact h.looked (hsame ▸ hat) hold hdir hlives
        · rw [hat] at hadvances
          cases hadvances with
          | picks => trivial
          | looks hat' hlooks =>
            obtain ⟨rfl, rfl⟩ := hlooks.same
            exact h.looks hok hat' hlooks hold hdir hlives
      cases look with
      | testing | readingOwner => trivial
      | checkingOwner pid =>
        obtain ⟨keycard, hkeycard, hpid⟩ := hsees
        exact ⟨keycard, (hst.getElem?_keycards (h.apart.bound hold)).trans hkeycard, hpid⟩
      | _ => exact hsees
    · exact absurd hmaking (h.settled_step hst hshows hn hdir)

theorem reachedBy_attributed (h : (hostMachine root).ReachedBy (Attributable root) s) : s.Attributed root :=
  h.invariant (attributed_initial root) fun _ _ _ _ hi hok hst ↦ hi.step hok (step_effect hst)

/-- An instance at or below an entry of `runtime_dir` is that entry. -/
theorem Placed.eq_entry {dir : Path} {name : String} (h : Placed root dir)
    (hbelow : root.path ++ [name] <+: dir) : dir = root.path ++ [name] := by
  have hroot : root.path <+: dir := (List.prefix_append _ _).trans hbelow
  have hdrop := h.2 hroot
  obtain ⟨more, hmore⟩ := hbelow
  have hnil : more = [] := by
    by_contra hne
    have hlen := congrArg List.length hdrop
    rw [← hmore] at hlen
    have hpos := List.length_pos_of_ne_nil hne
    simp only [List.length_dropLast, List.length_append, List.length_singleton] at hlen
    omega
  rw [← hmore, hnil, List.append_nil]

/-- No sweep is in `rmtree` at or above the directory of a living keycard. -/
theorem Attributed.not_removing (h : s.Attributed root) {k n : Nat} {name : String} {rest : List String}
    {made : Creation} (hat : s.reaping k = .looking name .removing rest) (hn : s.instances[n]? = some made)
    (halive : s.keycardAlive made.keycard = true) : ¬ root.path ++ [name] <+: made.dir :=
  fun hbelow ↦ h.looked hat hn ((h.placed hn).eq_entry hbelow) halive

/-- What is removed is not, and does not contain, the directory of a living keycard. -/
def SparesLiving (s : History) (p : Path) : Prop :=
  ∀ n made, s.instances[n]? = some made → s.creating n ≠ .making → s.keycardAlive made.keycard = true →
    ¬ p <+: made.dir

/-- In a history whose steps all meet the condition, no sweep takes a living keycard's room. -/
theorem sweep_spares_living {k : Nat} {p : Path}
    (h : (hostMachine root).ReachedBy (Attributable root) s)
    (hst : (hostMachine root).step s (.removes k p) = some t) : s.SparesLiving p := by
  intro n made hn _ halive hbelow
  have heffect : Effect root s (.removes k p) t := step_effect hst
  cases heffect with
  | removes hat hentry =>
    exact (reachedBy_attributed h).not_removing hat hn halive (hentry.trans hbelow)

/-- `/run` -/
def runDir : RuntimeDir where
  path := ["run"]
  no_dots := by decide
  unicode := .ofAscii

/-- Two keycards each create an instance, and the first of them is killed.  A third one sweeps. -/
def oneOfTwoKilled : List HostEvent :=
  [.starts 10 "keycard" "/bin/firecracker", .sweeps 0, .returns 0, .creates 0 "ubuntu" "5f4e3d2c1b0a",
    .makes 0, .opensOwner 0, .writesOwner 0, .starts 11 "keycard" "/bin/firecracker", .sweeps 1, .sweeps 1,
    .sweeps 1, .sweeps 1, .sweeps 1, .returns 1, .creates 1 "ubuntu" "0a1b2c3d4e5f", .makes 1, .opensOwner 1,
    .writesOwner 1, .exits 10, .waits 10, .starts 12 "keycard" "/bin/firecracker", .sweeps 2,
    .sweeps 2, .sweeps 2, .sweeps 2, .sweeps 2, .sweeps 2, .sweeps 2, .sweeps 2, .sweeps 2, .sweeps 2]

/-- The third keycard has passed the instance of the second, and removes that of the first. -/
theorem oneOfTwoKilled_spares_living :
    ∃ s made, (hostMachine runDir).run (hostMachine runDir).init oneOfTwoKilled = some s ∧
      s.instances[1]? = some made ∧ made.dir = ["run", "ubuntu-0a1b2c3d4e5f"] ∧ s.creating 1 = .created ∧
      s.keycardAlive made.keycard = true ∧ s.reaping 2 = .looking "ubuntu-5f4e3d2c1b0a" .removing [] ∧
      s.SparesLiving ["run", "ubuntu-5f4e3d2c1b0a", "owner.pid"] := by
  have hok : (hostMachine runDir).Follows (Attributable runDir) (hostMachine runDir).init oneOfTwoKilled := by
    decide
  exact ⟨_, _, rfl, rfl, rfl, rfl, rfl, rfl, sweep_spares_living (k := 2) (.run .init hok rfl) rfl⟩

/-- The sweep comes between `mkdir` and the creation of `owner.pid`. -/
def sweptWhileMade : List HostEvent :=
  [.starts 10 "keycard" "/bin/firecracker", .sweeps 0, .returns 0, .creates 0 "ubuntu" "0a1b2c3d4e5f",
    .makes 0, .starts 11 "keycard" "/bin/firecracker", .sweeps 1, .sweeps 1, .sweeps 1, .sweeps 1,
    .sweeps 1]

theorem swept_while_made :
    ¬ ∀ (root : RuntimeDir) (s t : History) (k : Nat) (p : Path), (hostMachine root).Reachable s →
      (hostMachine root).step s (.removes k p) = some t → s.SparesLiving p := by
  intro hall
  obtain ⟨s, hrun⟩ : ∃ s, (hostMachine runDir).run (hostMachine runDir).init sweptWhileMade = some s := ⟨_, rfl⟩
  have hreach : (hostMachine runDir).Reachable s := .of_run hrun
  cases hrun
  exact hall runDir _ _ 1 ["run", "ubuntu-0a1b2c3d4e5f"] hreach rfl 0 _ rfl nofun rfl (List.prefix_refl _)

end History

end Keycard.Firecracker
