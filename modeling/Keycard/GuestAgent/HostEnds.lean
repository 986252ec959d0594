import Keycard.GuestAgent.Reattach

/-!
# What the host has read

The bytes the host has taken off a stream are a prefix of what the agent has written to it, and no step but the
host's own changes them.
-/

open Reasoning

namespace Keycard.GuestAgent

namespace HostEnd

/-- What was read. -/
def text (h : HostEnd) : Bytes :=
  h.written.take h.taken

/-- What is there to be read. -/
def rest (h : HostEnd) : Bytes :=
  h.written.drop h.taken

theorem text_begins (h : HostEnd) : h.text <+: h.written :=
  List.take_prefix _ _

theorem text_receive {h : HostEnd} (hpaid : h.taken ≤ h.written.length) (bs : Bytes) : (h.receive bs).text = h.text :=
  List.take_append_of_le_length hpaid

/-- Reading the next bytes. -/
theorem text_take {h : HostEnd} {chunk : Bytes} (hnext : chunk <+: h.rest) :
    ({ h with taken := h.taken + chunk.length } : HostEnd).text = h.text ++ chunk := by
  have htake : h.rest.take chunk.length = chunk := List.prefix_iff_eq_take.mp hnext |>.symm
  rw [rest] at htake
  simp only [text]
  rw [List.take_add, htake]

end HostEnd

open Session

variable {window : Nat} {s t : Session} {e : Event}

theorem text_setHost {x y : Stream} {v : HostEnd} (hv : x = y → v.text = (s.host y).text) :
    ((s.setHost x v).host y).text = (s.host y).text := by
  unfold Session.setHost
  by_cases hx : y = x
  · subst hx
    simp only [Function.update_self]
    exact hv rfl
  · simp only [Function.update_of_ne hx]

theorem Step.text (h : Step window s e t) (hpaid : s.Paid) {x : Stream} (he : ∀ n, e ≠ .hostTakes x n) :
    (t.host x).text = (s.host x).text := by
  cases h with
  | @hostTakes y n =>
    apply text_setHost
    rintro rfl
    exact absurd rfl (he n)
  | hostLeaves =>
    apply text_setHost
    rintro rfl
    rfl
  | exitShuts =>
    show ((s.setHost _ _).host x).text = (s.host x).text
    apply text_setHost
    rintro rfl
    rfl
  | pumpWrites | exitWrites =>
    show ((s.setHost _ _).host x).text = (s.host x).text
    apply text_setHost
    rintro rfl
    exact HostEnd.text_receive (hpaid _) _
  | @exitDetaches d u next _ hd =>
    show (u.host x).text = (s.host x).text
    rw [(detaches_host hd).1]
  | @attachDetaches _ d u next _ hd =>
    show (u.host x).text = (s.host x).text
    rw [(detaches_host hd).1]
  | _ => rfl

/-- The host reads the next bytes of a stream, and of no other. -/
theorem hostTakes_text {x : Stream} {chunk : Bytes} (hnext : chunk <+: (s.host x).rest)
    (h : step window s (.hostTakes x chunk.length) = some t) : (t.host x).text = (s.host x).text ++ chunk := by
  simp only [step] at h
  split at h
  · cases h
    simp only [Session.setHost, Function.update_self]
    exact HostEnd.text_take hnext
  · cases h

end Keycard.GuestAgent
