import Keycard.Backends.Vsock

/-!
# The handshake, byte by byte

`_read_ack` takes one byte after another off the socket, and stops at a newline, at the end of the stream or
when it has 64 of them; its caller cannot tell which.  What comes behind the newline stays in the socket.
-/

open Reasoning

namespace Keycard.Vsock

open Firecracker (Bytes bytesInt isSpaceByte newline)

/-! ## Sockets -/

/-- What the peer sends, in the segments it comes in; at the end the stream is closed, or the socket raises. -/
structure Stream where
  segments : List Bytes
  oserror : Option String
deriving DecidableEq, Repr

def Stream.bytes (stream : Stream) : Bytes :=
  stream.segments.flatten

structure Sock where
  unread : Stream
  sent : Bytes
  closed : Bool
deriving DecidableEq, Repr

/-- A socket before anything is done with it. -/
def Sock.new (stream : Stream) : Sock where
  unread := stream
  sent := []
  closed := false

/-- The first byte of some segments. -/
def popByte : List Bytes → Option (UInt8 × List Bytes)
  | [] => none
  | [] :: segments => popByte segments
  | (b :: segment) :: segments => some (b, segment :: segments)

/-! ## `connect` -/

/-- The loop of `_read_ack`, while another `n` bytes would fit into the line. -/
def readAckLoop : Nat → Bytes → Stream → Except String Bytes × Stream
  | 0, line, stream => (.ok line, stream)
  | n + 1, line, stream =>
    match popByte stream.segments with
    | none =>
      match stream.oserror with
      | none => (.ok line, stream)
      | some exc => (.error exc, stream)
    | some (b, segments) =>
      if b = newline then (.ok line, { stream with segments })
      else readAckLoop n (line ++ [b]) { stream with segments }

/-- `connect`; an `OSError` may come from connecting as well, before there is anything to read. -/
def Sock.connect (sock : Sock) (port : Nat) : Sock × Option VsockError :=
  let sock := { sock with sent := sock.sent ++ ascii ("CONNECT " ++ toString port ++ "\n") }
  match readAckLoop maxAck [] sock.unread with
  | (.error exc, unread) => ({ sock with unread, closed := true }, some (.connectFailed port exc))
  | (.ok ack, unread) =>
    if (parseAck ack).isSome then ({ sock with unread }, none)
    else ({ sock with unread, closed := true }, some (.noListener port ack))

/-! ## `connect_with_retry` -/

/-- The connections to a guest, in the order in which they are made. -/
structure Net where
  socks : Nat → Sock
  opened : Nat

def Net.connect (net : Net) (port : Nat) : Net × Except VsockError Nat :=
  let (sock, failed) := (net.socks net.opened).connect port
  ({ socks := Function.update net.socks net.opened sock, opened := net.opened + 1 },
    match failed with
    | none => .ok net.opened
    | some exc => .error exc)

/-- The loop of `connect_with_retry`; `now n` is what the clock says after `n` attempts.  It may go on for as
long as the clock allows, so the result is `none` where the fuel ends. -/
def retryLoop (port timeout : Nat) (now : Nat → Nat) : Nat → Nat → Net → Option (Net × Except VsockError Nat)
  | 0, _, _ => none
  | fuel + 1, attempts, net =>
    match net.connect port with
    | (net, .ok sock) => some (net, .ok sock)
    | (net, .error exc) =>
      if now 0 + timeout ≤ now attempts then some (net, .error (.noAnswer port timeout attempts exc))
      else retryLoop port timeout now fuel (attempts + 1) net

/-- `connect_with_retry` -/
def Net.connectWithRetry (net : Net) (port timeout : Nat) (now : Nat → Nat) (fuel : Nat) :
    Option (Net × Except VsockError Nat) :=
  retryLoop port timeout now fuel 1 net

/-! ## What the loop has read, and what it has left -/

theorem popByte_eq_none {segments : List Bytes} (h : popByte segments = none) : segments.flatten = [] := by
  induction segments using popByte.induct with
  | case1 => rfl
  | case2 segments ih => exact ih h
  | case3 b segment segments => cases h

theorem popByte_eq_some {segments rest : List Bytes} {b : UInt8} (h : popByte segments = some (b, rest)) :
    segments.flatten = b :: rest.flatten := by
  induction segments using popByte.induct with
  | case1 => cases h
  | case2 segments ih => exact ih h
  | case3 b segment segments =>
    cases h
    rfl

theorem popByte_cons {segments : List Bytes} {b : UInt8} {text : Bytes} (h : segments.flatten = b :: text) :
    ∃ rest, popByte segments = some (b, rest) ∧ rest.flatten = text := by
  cases hpop : popByte segments with
  | none =>
    rw [popByte_eq_none hpop] at h
    cases h
  | some popped =>
    obtain ⟨c, rest⟩ := popped
    rw [popByte_eq_some hpop] at h
    cases h
    exact ⟨rest, rfl, rfl⟩

section

variable {n : Nat} {segments : List Bytes} {text payload : Bytes} (oserror : Option String)

/-- A newline ends the line, and is the last byte that is read. -/
theorem readAckLoop_line (line : Bytes) (h : segments.flatten = text ++ newline :: payload) (htext : newline ∉ text)
    (hn : text.length < n) : ∃ rest, readAckLoop n line ⟨segments, oserror⟩ = (.ok (line ++ text), ⟨rest, oserror⟩) ∧
      rest.flatten = payload := by
  induction n generalizing line segments text with
  | zero => omega
  | succ n ih =>
    cases text with
    | nil =>
      obtain ⟨rest, hpop, hrest⟩ := popByte_cons h
      refine ⟨rest, ?_, hrest⟩
      simp only [readAckLoop, hpop, if_true, List.append_nil]
    | cons b text =>
      obtain ⟨rest, hpop, hrest⟩ := popByte_cons h
      have hb : b ≠ newline := (List.ne_of_not_mem_cons htext).symm
      obtain ⟨rest', hread, hrest'⟩ := ih (line ++ [b]) hrest (List.not_mem_of_not_mem_cons htext)
        (Nat.lt_of_succ_lt_succ hn)
      refine ⟨rest', ?_, hrest'⟩
      simp only [readAckLoop, hpop, if_neg hb, hread, List.append_assoc, List.singleton_append]

/-- A line that is too long is cut off. -/
theorem readAckLoop_full (line : Bytes) (hn : n ≤ segments.flatten.length)
    (htext : newline ∉ segments.flatten.take n) :
    ∃ rest, readAckLoop n line ⟨segments, oserror⟩ = (.ok (line ++ segments.flatten.take n), ⟨rest, oserror⟩) := by
  induction n generalizing line segments with
  | zero =>
    refine ⟨segments, ?_⟩
    rw [List.take_zero, List.append_nil]
    rfl
  | succ n ih =>
    cases hflat : segments.flatten with
    | nil =>
      rw [hflat] at hn
      cases hn
    | cons b text =>
      obtain ⟨rest, hpop, hrest⟩ := popByte_cons hflat
      rw [hflat, List.take_succ_cons] at htext
      rw [hflat, List.length_cons] at hn
      have hb : b ≠ newline := (List.ne_of_not_mem_cons htext).symm
      obtain ⟨rest', hread⟩ := ih (line ++ [b]) (hrest ▸ Nat.le_of_succ_le_succ hn)
        (hrest ▸ List.not_mem_of_not_mem_cons htext)
      refine ⟨rest', ?_⟩
      simp only [readAckLoop, hpop, if_neg hb, hread, hrest, List.append_assoc, List.singleton_append,
        List.take_succ_cons]

/-- A line that the end of the stream cuts off passes for a whole one. -/
theorem readAckLoop_cut (line : Bytes) (hn : segments.flatten.length < n) (htext : newline ∉ segments.flatten) :
    (readAckLoop n line ⟨segments, oserror⟩).1 =
      match oserror with
      | none => .ok (line ++ segments.flatten)
      | some exc => .error exc := by
  induction n generalizing line segments with
  | zero => omega
  | succ n ih =>
    cases hflat : segments.flatten with
    | nil =>
      have hpop : popByte segments = none := by
        cases hpop : popByte segments with
        | none => rfl
        | some popped =>
          rw [popByte_eq_some hpop] at hflat
          cases hflat
      simp only [readAckLoop, hpop, List.append_nil]
      cases oserror <;> rfl
    | cons b text =>
      obtain ⟨rest, hpop, hrest⟩ := popByte_cons hflat
      rw [hflat] at htext hn
      have hb : b ≠ newline := (List.ne_of_not_mem_cons htext).symm
      have hread := ih (line ++ [b]) (hrest ▸ Nat.lt_of_succ_lt_succ hn)
        (hrest ▸ List.not_mem_of_not_mem_cons htext)
      simp only [readAckLoop, hpop, if_neg hb]
      rw [hread, hrest, List.append_assoc]
      rfl

end

/-! ## What `connect` comes to -/

/-- The line ends before reading from the socket fails. -/
def Stream.Delivers (stream : Stream) : Prop :=
  stream.oserror = none ∨ maxAck ≤ stream.bytes.length ∨ newline ∈ stream.bytes

instance (stream : Stream) : Decidable stream.Delivers :=
  inferInstanceAs (Decidable (_ ∨ _))

theorem not_newline {text : Bytes} (h : newline ∉ text) : ∀ b ∈ text, decide (b ≠ 10) = true := by
  intro b hb
  apply decide_eq_true
  intro hnewline
  apply h
  rw [← show b = newline from hnewline]
  exact hb

/-- A newline among the first bytes ends a line that is short enough. -/
theorem newline_mem_take_iff {bytes : Bytes} : newline ∈ bytes.take maxAck ↔
    ∃ text payload, bytes = text ++ newline :: payload ∧ newline ∉ text ∧ text.length < maxAck := by
  constructor
  · intro hmem
    obtain ⟨text, rest, htake, htext⟩ := List.eq_append_cons_of_mem hmem
    refine ⟨text, rest ++ bytes.drop maxAck, ?_, htext, ?_⟩
    · conv_lhs => rw [← List.take_append_drop maxAck bytes, htake]
      rw [List.append_assoc, List.cons_append]
    · have hlength := congrArg List.length htake
      rw [List.length_append, List.length_cons] at hlength
      have := List.length_take_le maxAck bytes
      omega
  · rintro ⟨text, payload, rfl, -, hlength⟩
    rw [List.mem_take_iff_getElem]
    refine ⟨text.length, ?_, ?_⟩
    · rw [List.length_append, List.length_cons]
      omega
    · rw [List.getElem_append_right (Nat.le_refl _)]
      simp

theorem readAck_line {text payload : Bytes} (htext : newline ∉ text) (hlength : text.length < maxAck) :
    readAck (text ++ newline :: payload) = text := by
  have htake : (text ++ newline :: payload).take maxAck =
      text ++ newline :: payload.take (maxAck - text.length - 1) := by
    rw [List.take_append, List.take_of_length_le (Nat.le_of_lt hlength)]
    obtain ⟨k, hk⟩ : ∃ k, maxAck - text.length = k + 1 := ⟨maxAck - text.length - 1, by omega⟩
    rw [hk, List.take_succ_cons]
    rfl
  rw [readAck, htake, List.takeWhile_append_of_pos (not_newline htext)]
  exact List.append_nil text

theorem readAck_of_not_mem {text : Bytes} (h : newline ∉ text.take maxAck) : readAck text = text.take maxAck := by
  rw [readAck, List.takeWhile_eq_self_iff]
  exact not_newline h

/-- What the stream answers to a `CONNECT`. -/
def Stream.answer (stream : Stream) : Answer :=
  if stream.Delivers then .reply stream.bytes else .oserror (stream.oserror.getD "")

/-- What the loop returns, or raises. -/
theorem readAckLoop_eq (stream : Stream) : (readAckLoop maxAck [] stream).1 =
    if stream.Delivers then .ok (readAck stream.bytes) else .error (stream.oserror.getD "") := by
  obtain ⟨segments, oserror⟩ := stream
  show (readAckLoop maxAck [] ⟨segments, oserror⟩).1 =
    if Stream.Delivers ⟨segments, oserror⟩ then .ok (readAck segments.flatten) else .error (oserror.getD "")
  by_cases hnewline : newline ∈ segments.flatten.take maxAck
  · -- the line ends within the first 64 bytes
    obtain ⟨text, payload, hsplit, htext, hlength⟩ := newline_mem_take_iff.mp hnewline
    obtain ⟨left, hread, -⟩ := readAckLoop_line oserror [] hsplit htext hlength
    rw [hread, if_pos (.inr (.inr (List.mem_of_mem_take hnewline))), hsplit, readAck_line htext hlength]
    rfl
  · by_cases hlength : maxAck ≤ segments.flatten.length
    · -- there are 64 bytes, and no newline among them
      obtain ⟨left, hread⟩ := readAckLoop_full oserror [] hlength hnewline
      rw [hread, if_pos (.inr (.inl hlength)), readAck_of_not_mem hnewline]
      rfl
    · -- the stream ends before that, or fails
      have htake : segments.flatten.take maxAck = segments.flatten := List.take_of_length_le (by omega)
      have hread := readAckLoop_cut oserror [] (Nat.lt_of_not_le hlength) (htake ▸ hnewline)
      rw [hread]
      cases oserror with
      | none =>
        rw [if_pos (.inl rfl), readAck_of_not_mem hnewline, htake]
        rfl
      | some exc =>
        rw [if_neg]
        · rfl
        · intro hdelivers
          rcases hdelivers with hnone | hfull | hmem
          · cases hnone
          · exact hlength hfull
          · exact hnewline (htake.symm ▸ hmem)

/-- `connect` sees no more of the stream than its answer. -/
theorem connect_answer (port : Nat) (sock : Sock) : (sock.connect port).2 = connect port sock.unread.answer := by
  have hread := readAckLoop_eq sock.unread
  unfold Sock.connect Stream.answer
  simp only []
  split
  · rename_i exc unread hloop
    rw [hloop] at hread
    by_cases hdelivers : sock.unread.Delivers
    · rw [if_pos hdelivers] at hread
      cases hread
    · rw [if_neg hdelivers] at hread ⊢
      cases hread
      rfl
  · rename_i ack unread hloop
    rw [hloop] at hread
    by_cases hdelivers : sock.unread.Delivers
    · rw [if_pos hdelivers] at hread ⊢
      cases hread
      rw [connect]
      split
      · rfl
      · rfl
    · rw [if_neg hdelivers] at hread
      cases hread

/-- `connect` returns a socket exactly if `_read_ack` returns a line that `parse_ack` accepts. -/
theorem connect_eq_none_iff (port : Nat) (sock : Sock) : (sock.connect port).2 = none ↔
    sock.unread.Delivers ∧ (parseAck (readAck sock.unread.bytes)).isSome := by
  rw [connect_answer, Stream.answer]
  by_cases hdelivers : sock.unread.Delivers
  · rw [if_pos hdelivers, connect]
    simp [hdelivers, Option.isSome_iff_ne_none]
  · rw [if_neg hdelivers, connect]
    simp [hdelivers]

/-- The socket is closed exactly if `connect` raises. -/
theorem connect_closed (port : Nat) {sock : Sock} (hopen : sock.closed = false) :
    (sock.connect port).1.closed = (sock.connect port).2.isSome := by
  unfold Sock.connect
  simp only []
  split
  · rfl
  · split
    · exact hopen
    · rfl

/-! ## What passes for an acknowledgement -/

def isDigitByte (b : UInt8) : Bool :=
  48 ≤ b && b ≤ 57

/-- The stream begins with `OK`, a space, a decimal number and a newline, in a line that is not too long. -/
def IsAck (bytes : Bytes) : Prop :=
  ∃ number payload, bytes = ascii "OK " ++ number ++ newline :: payload ∧ number ≠ [] ∧
    (∀ b ∈ number, isDigitByte b = true) ∧ (ascii "OK " ++ number).length < maxAck

/-- A word that begins with `OK`, a space, and what `int` takes for a number. -/
def Passes (line : Bytes) : Prop :=
  ∃ word number, line = word ++ 32 :: number ∧ 32 ∉ word ∧ ascii "OK" <+: word ∧ (bytesInt number).isSome

theorem strip_strip (b : Bytes) :
    (((b.dropWhile isSpaceByte).rdropWhile isSpaceByte).dropWhile isSpaceByte).rdropWhile isSpaceByte =
      (b.dropWhile isSpaceByte).rdropWhile isSpaceByte := by
  have hdrop : ((b.dropWhile isSpaceByte).rdropWhile isSpaceByte).dropWhile isSpaceByte =
      (b.dropWhile isSpaceByte).rdropWhile isSpaceByte := by
    rw [List.dropWhile_eq_self_iff]
    intro hlength
    have hfirst := List.rdropWhile_prefix isSpaceByte (l := b.dropWhile isSpaceByte)
    rw [hfirst.getElem hlength]
    apply List.dropWhile_get_zero_not
  rw [hdrop, List.rdropWhile_idempotent]

theorem bytesInt_strip (b : Bytes) : bytesInt ((b.dropWhile isSpaceByte).rdropWhile isSpaceByte) = bytesInt b := by
  unfold bytesInt
  rw [strip_strip]

theorem parseAck_isSome_iff (line : Bytes) : (parseAck line).isSome ↔ Passes line := by
  have hok : (32 : UInt8) ∉ ascii "OK" := by decide
  unfold parseAck
  simp only [bytesInt_strip, List.isPrefixOf_iff_prefix]
  cases hcut : cut 32 line with
  | none =>
    -- without a space there is nothing behind it for `int`
    apply iff_of_false
    · split
      · decide
      · nofun
    · rintro ⟨word, number, rfl, -⟩
      exact cut_eq_none hcut (List.mem_append_right _ List.mem_cons_self)
  | some split =>
    obtain ⟨word, number⟩ := split
    obtain ⟨rfl, hword⟩ := cut_eq_some hcut
    simp only [begins_line hok]
    constructor
    · intro hack
      split at hack
      · exact ⟨word, number, rfl, hword, ‹_›, hack⟩
      · cases hack
    · rintro ⟨word', number', heq, hword', hstart, hnumber⟩
      rw [heq, cut_line hword'] at hcut
      cases hcut
      rw [if_pos hstart]
      exact hnumber

/-! ## A decimal number is one that `int` takes -/

theorem bounds_of_isDigitByte {b : UInt8} (h : isDigitByte b = true) : 48 ≤ b.toNat ∧ b.toNat ≤ 57 := by
  simpa [isDigitByte, UInt8.le_iff_toNat_le] using h

theorem isDigit_of_isDigitByte {b : UInt8} (h : isDigitByte b = true) : (Char.ofNat b.toNat).isDigit = true := by
  obtain ⟨hlow, hhigh⟩ := bounds_of_isDigitByte h
  have hnat : (Char.ofNat b.toNat).val.toNat = b.toNat := by
    rw [Char.ofNat, dif_pos (.inl (by omega))]
    rfl
  simp only [Char.isDigit, Bool.and_eq_true, decide_eq_true_eq, ge_iff_le, UInt32.le_iff_toNat_le, hnat]
  exact ⟨hlow, hhigh⟩

theorem isSpaceByte_of_isDigitByte {b : UInt8} (h : isDigitByte b = true) : isSpaceByte b = false := by
  obtain ⟨hlow, hhigh⟩ := bounds_of_isDigitByte h
  have hne : b ≠ 32 := by
    rintro rfl
    exact absurd hlow (by decide)
  simp only [isSpaceByte, hne, decide_false, Bool.false_or, Bool.and_eq_false_iff, decide_eq_false_iff_not,
    UInt8.le_iff_toNat_le]
  exact .inr (by simp only [UInt8.toNat_ofNat]; omega)

theorem newline_not_mem {number : Bytes} (h : ∀ b ∈ number, isDigitByte b = true) :
    newline ∉ ascii "OK " ++ number := by
  intro hmem
  rcases List.mem_append.mp hmem with hstart | hnumber
  · exact absurd hstart (by decide)
  · exact absurd (h _ hnumber) (by decide)

theorem signed_digits {cs : List Char} (hne : cs ≠ []) (h : ∀ c ∈ cs, c.isDigit = true) :
    (Firecracker.signed cs).isSome := by
  have hnatural : (Firecracker.natural cs).isSome := by
    cases cs with
    | nil => exact absurd rfl hne
    | cons c rest =>
      rw [Firecracker.natural, if_pos (h c List.mem_cons_self),
        Firecracker.digits_of_isDigit fun d hd ↦ h d (List.mem_cons_of_mem _ hd)]
      rfl
  unfold Firecracker.signed
  split
  · exact absurd (h _ List.mem_cons_self) (by decide)
  · exact absurd (h _ List.mem_cons_self) (by decide)
  · rw [Option.isSome_map]
    exact hnatural

theorem bytesInt_digits {number : Bytes} (hne : number ≠ []) (h : ∀ b ∈ number, isDigitByte b = true)
    (hlength : number.length ≤ Firecracker.maxStrDigits) : (bytesInt number).isSome := by
  have hdigits : ∀ c ∈ Firecracker.chars number, c.isDigit = true := by
    intro c hc
    obtain ⟨b, hb, rfl⟩ := List.mem_map.mp hc
    exact isDigit_of_isDigitByte (h b hb)
  have hcount : (Firecracker.chars number).countP Char.isDigit ≤ Firecracker.maxStrDigits := by
    apply Nat.le_trans List.countP_le_length
    rw [Firecracker.chars, List.length_map]
    exact hlength
  rw [bytesInt, strip_eq_self fun b hb ↦ isSpaceByte_of_isDigitByte (h b hb), if_pos hcount]
  exact signed_digits (by simpa [Firecracker.chars] using hne) hdigits

/-- An acknowledgement is delivered, and passes for one. -/
theorem IsAck.passes {bytes : Bytes} (h : IsAck bytes) : newline ∈ bytes ∧ Passes (readAck bytes) := by
  obtain ⟨number, payload, rfl, hne, hnumber, hlength⟩ := h
  refine ⟨List.mem_append_right _ List.mem_cons_self, ?_⟩
  rw [readAck_line (newline_not_mem hnumber) hlength]
  refine ⟨ascii "OK", number, rfl, by decide, List.prefix_rfl, bytesInt_digits hne hnumber ?_⟩
  rw [List.length_append] at hlength
  exact Nat.le_trans (by omega) (show maxAck ≤ Firecracker.maxStrDigits by decide)

/-! ## What `connect` accepts -/

/-- `connect` accepts an acknowledgement and nothing else, and has closed the socket where it raises. -/
structure AcceptsExactly (port : Nat) (stream : Stream) : Prop where
  accepts : ((Sock.new stream).connect port).2 = none ↔ IsAck stream.bytes
  leaves : IsAck stream.bytes → ((Sock.new stream).connect port).1.closed = false
  closes : ¬ IsAck stream.bytes → ((Sock.new stream).connect port).1.closed = true

/-- What is read passes for an acknowledgement, but the line is cut off, or has another word in it, or a number
that is written in another way. -/
def FalseAck (stream : Stream) : Prop :=
  stream.Delivers ∧ ∃ word number, readAck stream.bytes = word ++ 32 :: number ∧ 32 ∉ word ∧ ascii "OK" <+: word ∧
    (bytesInt number).isSome ∧
      (newline ∉ stream.bytes.take maxAck ∨ word ≠ ascii "OK" ∨ ¬ ∀ b ∈ number, isDigitByte b = true)

theorem isAck_iff (word number : Bytes) {bytes : Bytes} (hline : readAck bytes = word ++ 32 :: number)
    (hword : 32 ∉ word) (hnumber : (bytesInt number).isSome) : IsAck bytes ↔
      newline ∈ bytes.take maxAck ∧ word = ascii "OK" ∧ ∀ b ∈ number, isDigitByte b = true := by
  constructor
  · rintro ⟨digits, payload, rfl, hne, hdigits, hlength⟩
    have hnewline := newline_not_mem hdigits
    rw [readAck_line hnewline hlength] at hline
    have hcut := cut_line hword number
    rw [← hline, show ascii "OK " ++ digits = ascii "OK" ++ 32 :: digits from rfl, cut_line (by decide)] at hcut
    cases hcut
    exact ⟨newline_mem_take_iff.mpr ⟨_, payload, rfl, hnewline, hlength⟩, rfl, hdigits⟩
  · rintro ⟨hmem, rfl, hdigits⟩
    obtain ⟨text, payload, rfl, htext, hlength⟩ := newline_mem_take_iff.mp hmem
    rw [readAck_line htext hlength] at hline
    refine ⟨number, payload, by rw [hline]; rfl, ?_, hdigits, hline ▸ hlength⟩
    -- `int` takes no empty text
    rintro rfl
    cases hnumber

theorem falseAck_iff (stream : Stream) : FalseAck stream ↔
    ¬ IsAck stream.bytes ∧ stream.Delivers ∧ Passes (readAck stream.bytes) := by
  constructor
  · rintro ⟨hdelivers, word, number, hline, hword, hok, hnumber, hother⟩
    refine ⟨?_, hdelivers, word, number, hline, hword, hok, hnumber⟩
    rw [isAck_iff word number hline hword hnumber]
    tauto
  · rintro ⟨hother, hdelivers, word, number, hline, hword, hok, hnumber⟩
    refine ⟨hdelivers, word, number, hline, hword, hok, hnumber, ?_⟩
    rw [isAck_iff word number hline hword hnumber] at hother
    tauto

/-- `connect` accepts exactly the acknowledgements, unless it is sent something else that passes for one. -/
theorem acceptsExactly_iff (port : Nat) (stream : Stream) : AcceptsExactly port stream ↔ ¬ FalseAck stream := by
  have hnone : ((Sock.new stream).connect port).2 = none ↔ stream.Delivers ∧ Passes (readAck stream.bytes) := by
    rw [← parseAck_isSome_iff]
    exact connect_eq_none_iff port (Sock.new stream)
  have hclosed : ((Sock.new stream).connect port).1.closed = ((Sock.new stream).connect port).2.isSome :=
    connect_closed port rfl
  rw [falseAck_iff]
  constructor
  · rintro ⟨haccepts, -, -⟩ ⟨hother, hpasses⟩
    exact hother (haccepts.mp (hnone.mpr hpasses))
  · intro hfalse
    have haccepts : ((Sock.new stream).connect port).2 = none ↔ IsAck stream.bytes := by
      constructor
      · intro hsome
        by_contra hother
        exact hfalse ⟨hother, hnone.mp hsome⟩
      · intro hack
        exact hnone.mpr ⟨.inr (.inr hack.passes.1), hack.passes.2⟩
    refine ⟨haccepts, fun hack ↦ ?_, fun hother ↦ ?_⟩
    · rw [hclosed, haccepts.mpr hack]
      rfl
    · rw [hclosed, Option.isSome_iff_ne_none]
      exact fun hsome ↦ hother (haccepts.mp hsome)

/-! Another word, a line that the end of the stream cuts off, and one of which 64 bytes are read. -/

def okay : Stream :=
  ⟨[ascii "OKAY 1\n"], none⟩

def cutOff : Stream :=
  ⟨[ascii "OK 12"], none⟩

def overlong : Stream :=
  ⟨[ascii ("OK " ++ String.ofList (List.replicate 70 '1') ++ "\n")], none⟩

theorem falseAcks_accepted :
    (¬ IsAck okay.bytes ∧ ((Sock.new okay).connect 10000).2 = none) ∧
      (¬ IsAck cutOff.bytes ∧ ((Sock.new cutOff).connect 10000).2 = none) ∧
      (¬ IsAck overlong.bytes ∧ ((Sock.new overlong).connect 10000).2 = none) := by
  have hokay : ¬ IsAck okay.bytes := by
    show ¬ IsAck (ascii "OKAY 1\n")
    rw [isAck_iff (ascii "OKAY") (ascii "1") (by decide) (by decide) (by decide)]
    decide
  have hcut : ¬ IsAck cutOff.bytes := by
    show ¬ IsAck (ascii "OK 12")
    rw [isAck_iff (ascii "OK") (ascii "12") (by decide) (by decide) (by decide)]
    decide
  have hlong : ¬ IsAck overlong.bytes := by
    rw [isAck_iff (ascii "OK") (List.replicate 61 49) (by decide +kernel) (by decide)
      (by decide +kernel)]
    decide +kernel
  exact ⟨⟨hokay, by decide +kernel⟩, ⟨hcut, by decide +kernel⟩, ⟨hlong, by decide +kernel⟩⟩

/-! ## What `connect` leaves -/

/-- Behind the newline of an acknowledgement the stream is left as it is. -/
theorem connect_leaves (port : Nat) {line payload : Bytes} (hlength : line.length < maxAck) (hline : newline ∉ line)
    (hack : (parseAck line).isSome) {stream : Stream} (hbytes : stream.bytes = line ++ newline :: payload) :
    ∃ sock, (Sock.new stream).connect port = (sock, none) ∧ sock.closed = false ∧ sock.unread.bytes = payload ∧
      sock.unread.oserror = stream.oserror := by
  obtain ⟨segments, oserror⟩ := stream
  obtain ⟨rest, hread, hrest⟩ := readAckLoop_line oserror [] hbytes hline hlength
  refine ⟨{ Sock.new ⟨rest, oserror⟩ with sent := ascii ("CONNECT " ++ toString port ++ "\n") }, ?_, rfl, hrest, rfl⟩
  rw [List.nil_append] at hread
  unfold Sock.connect
  simp only [Sock.new, hread, hack]
  rfl

/-! ## What an attempt leaves -/

namespace Net

variable (port : Nat) (net : Net)

/-- After `n` attempts. -/
def after (n : Nat) : Net :=
  (fun net ↦ (Net.connect net port).1)^[n] net

theorem after_succ (n : Nat) : net.after port (n + 1) = ((net.after port n).connect port).1 :=
  Function.iterate_succ_apply' _ n net

theorem connect_socks : (net.connect port).1.socks =
    Function.update net.socks net.opened ((net.socks net.opened).connect port).1 := rfl

theorem after_opened (n : Nat) : (net.after port n).opened = net.opened + n := by
  induction n with
  | zero => rfl
  | succ n ih =>
    rw [after_succ]
    show (net.after port n).opened + 1 = _
    omega

/-- Every attempt has a socket of its own, and leaves the others alone. -/
theorem after_socks (n i : Nat) : (net.after port n).socks i =
    if net.opened ≤ i ∧ i < net.opened + n then ((net.socks i).connect port).1 else net.socks i := by
  induction n with
  | zero => rw [if_neg (by omega)]; rfl
  | succ n ih =>
    rw [after_succ, connect_socks, after_opened]
    by_cases hi : i = net.opened + n
    · -- the socket of this attempt, which none of the attempts before has touched
      rw [hi] at ih ⊢
      rw [Function.update_self, if_pos (by omega), ih, if_neg (by omega)]
    · rw [Function.update_of_ne hi, ih]
      by_cases hbefore : net.opened ≤ i ∧ i < net.opened + n
      · rw [if_pos hbefore, if_pos (by omega)]
      · rw [if_neg hbefore, if_neg (by omega)]

variable {port net}

theorem connect_ok {sock : Nat} (h : (net.connect port).2 = .ok sock) :
    sock = net.opened ∧ ((net.socks sock).connect port).2 = none := by
  unfold Net.connect at h
  simp only [] at h
  split at h
  · rename_i hnone
    cases h
    exact ⟨rfl, hnone⟩
  · cases h

/-- A socket that `connect_with_retry` returns is that of the last attempt. -/
theorem retryLoop_ok {timeout fuel attempts n sock : Nat} {now : Nat → Nat} {net' : Net}
    (h : retryLoop port timeout now fuel attempts (net.after port n) = some (net', .ok sock)) :
    ∃ m, n ≤ m ∧ net' = net.after port (m + 1) ∧ sock = net.opened + m ∧
      ((net.socks sock).connect port).2 = none := by
  induction fuel generalizing attempts n with
  | zero => cases h
  | succ fuel ih =>
    have hafter := after_succ port net n
    rw [retryLoop] at h
    split at h
    · -- this attempt is the last
      rename_i net₁ sock₁ hconnect
      cases h
      obtain ⟨hsock, hnone⟩ := connect_ok (congrArg Prod.snd hconnect)
      rw [after_opened] at hsock
      rw [after_socks, if_neg (by omega)] at hnone
      refine ⟨n, Nat.le_refl n, ?_, hsock, hnone⟩
      rw [hafter, hconnect]
    · -- this one has failed: either the time is up, or the loop goes on behind it
      rename_i net₁ exc hconnect
      split at h
      · cases h
      · rw [show net₁ = net.after port (n + 1) by rw [hafter, hconnect]] at h
        obtain ⟨m, hm, hlast⟩ := ih h
        exact ⟨m, Nat.le_of_succ_le hm, hlast⟩

end Net

/-- `connect` takes an acknowledgement off the stream and nothing of what is behind it; the attempts that fail
take nothing off the streams of those that are still to come, and so what `connect_with_retry` returns has all of
it as well. -/
theorem handshake_keeps_payload (port : Nat) {line payload : Bytes} (hlength : line.length ≤ 63)
    (hline : newline ∉ line) (hack : (parseAck line).isSome) :
    (∀ stream : Stream, stream.bytes = line ++ newline :: payload →
      ∃ sock, (Sock.new stream).connect port = (sock, none) ∧ sock.closed = false ∧ sock.unread.bytes = payload ∧
        sock.unread.oserror = stream.oserror) ∧
    ∀ net : Net, (∀ n i, net.opened + n ≤ i → (net.after port n).socks i = net.socks i) ∧
      ∀ timeout now fuel net' sock, net.connectWithRetry port timeout now fuel = some (net', .ok sock) →
        ∀ stream : Stream, net.socks sock = Sock.new stream → stream.bytes = line ++ newline :: payload →
          (net'.socks sock).closed = false ∧ (net'.socks sock).unread.bytes = payload := by
  have hmax : line.length < maxAck := Nat.lt_succ_of_le hlength
  refine ⟨fun stream hbytes ↦ connect_leaves port hmax hline hack hbytes, fun net ↦ ⟨fun n i hi ↦ ?_, ?_⟩⟩
  · rw [Net.after_socks, if_neg (by omega)]
  · intro timeout now fuel net' sock hretry stream hnew hbytes
    obtain ⟨m, -, rfl, hsock, -⟩ := Net.retryLoop_ok (n := 0) hretry
    obtain ⟨left, hconnect, hopen, hpayload, -⟩ := connect_leaves port hmax hline hack hbytes
    rw [Net.after_socks, if_pos (by omega), hnew, hconnect]
    exact ⟨hopen, hpayload⟩

/-- The first attempt comes too early, and the shell's prompt comes with the acknowledgement of the second. -/
def prompting : Net where
  socks i := .new (if i = 0 then ⟨[], none⟩ else ⟨[ascii "OK 10", ascii "000\nroot@keycard:~# "], none⟩)
  opened := 0

theorem prompting_keeps : ∃ net, prompting.connectWithRetry 10000 1000 (fun n ↦ 50 * n) 2 = some (net, .ok 1) ∧
    (net.socks 1).unread.bytes = ascii "root@keycard:~# " := by
  have hresult : (prompting.connectWithRetry 10000 1000 (fun n ↦ 50 * n) 2).map Prod.snd = some (.ok 1) := by
    decide +kernel
  obtain ⟨⟨net, result⟩, hretry, hok⟩ := Option.map_eq_some_iff.mp hresult
  rw [show result = .ok 1 from hok] at hretry
  have hline : newline ∉ ascii "OK 10000" := by decide
  have hbytes : Stream.bytes ⟨[ascii "OK 10", ascii "000\nroot@keycard:~# "], none⟩ =
      ascii "OK 10000" ++ newline :: ascii "root@keycard:~# " := by decide
  exact ⟨net, hretry, (((handshake_keeps_payload 10000 (by decide) hline (by decide)).2 prompting).2
    1000 _ 2 net 1 hretry _ rfl hbytes).2⟩

end Keycard.Vsock
