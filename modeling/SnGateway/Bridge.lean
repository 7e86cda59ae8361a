import SnGateway.SerialCodec

/-!
# The handshake with the bridge

`LinuxSerialSocket::loop` and `LinuxTelnetSocket::loop` ask the bridge for a message. Between the
two lines of numbers they skip lines until the one they wait for has come (`waitFor`). The classes
have the same members and differ in the line end of their commands, and in a length check that
`LinuxTelnetSocket::waitFor` makes after the store it should guard; no run gets that far here.
-/

namespace SnGateway
open RecordStore

/-- `UINT16_MAX`, the size of the array `data`. -/
def DATA_SIZE : Nat := 65535

/-- The comparison of `waitFor`: `strlen(toCompare) == buffer_read` and `strcmp(buffer, toCompare)
== 0`. -/
def isAwaited (toCompare line : List UInt8) : Bool :=
  toCompare.length = line.length ∧ cstr line = toCompare

/-- What waits behind the first line that is accepted, `buffer` being the stored part of the current
one. `none`: the stream ends before, or a character does not fit into the buffer. -/
def awaitLine (accepts : List UInt8 → Bool) : List UInt8 → List UInt8 → Option (List UInt8)
  | _, [] => none
  | buffer, c :: input =>
    if LINE_BUFFER_SIZE ≤ buffer.length then none
    else if c ≠ 10 then awaitLine accepts (buffer ++ [c]) input
    else if accepts (buffer ++ [c]) then some input
    else awaitLine accepts [] input

namespace SerialSocket

def waitFor (toCompare : List UInt8) (s : SerialSocket) : Option SerialSocket :=
  (awaitLine (isAwaited toCompare) [] s.input).map fun rest => { s with input := rest }

def okSendAddress : List UInt8 := ascii "OK SEND_ADDRESS\n"
def okSendData : List UInt8 := ascii "OK SEND_DATA\n"
def okIdle : List UInt8 := ascii "OK IDLE\n"

def waitForOkSendAddress (s : SerialSocket) : Option SerialSocket := s.waitFor okSendAddress
def waitForOkSendData (s : SerialSocket) : Option SerialSocket := s.waitFor okSendData
def waitForOKIdle (s : SerialSocket) : Option SerialSocket := s.waitFor okIdle

/-- The whole array `data`. -/
def dataArray (data : List UInt8) : List UInt8 := data ++ List.replicate (DATA_SIZE - data.length) 0

/-- The `loop` of both classes. The descriptor 0 reaches the end of the function without a `return`;
the delivery is decided by the first byte of the address alone. -/
def receive (receiveCmd : List UInt8) (fd : Int) (s : SerialSocket) :
    Option (Bool × SerialSocket × List Notice) :=
  if fd < 0 then some (false, s, [])
  else if fd = 0 then none
  else do
    let s := { s with output := s.output ++ receiveCmd }
    let s ← s.waitForOkSendAddress
    let s ← s.readSendAddress
    let s ← s.waitForOkSendData
    let s ← s.readData
    let s ← s.waitForOKIdle
    some (true, s, if s.fromAddress.bytes.headD 0 ≠
      0 then [.receiveData s.fromAddress (dataArray s.data)] else [])

end SerialSocket

def LinuxSerialSocket.loop (fd : Int) (s : SerialSocket) :
    Option (Bool × SerialSocket × List Notice) :=
  s.receive (ascii "RECEIVE\n") fd

def LinuxTelnetSocket.loop (sock : Int) (s : SerialSocket) :
    Option (Bool × SerialSocket × List Notice) :=
  s.receive (ascii "RECEIVE\r\n") sock

/-- The two classes. -/
inductive BridgeSocket where
  | linuxSerialSocket
  | linuxTelnetSocket

def BridgeSocket.loop :
    BridgeSocket → Int → SerialSocket → Option (Bool × SerialSocket × List Notice)
  | .linuxSerialSocket => LinuxSerialSocket.loop
  | .linuxTelnetSocket => LinuxTelnetSocket.loop

/-! ### Waiting for a line -/

/-- A line a bridge can send: its characters before the newline, of which the buffer takes all. -/
structure Line where
  chars : List UInt8
  noNewline : 10 ∉ chars
  length_lt : chars.length < LINE_BUFFER_SIZE

/-- A text to wait for. The buffer holds it with a terminator. -/
structure Awaited extends Line where
  noNul : 0 ∉ chars
  terminated : chars.length + 1 < LINE_BUFFER_SIZE

def Line.text (l : Line) : List UInt8 := l.chars ++ [10]

def linesText (lines : List Line) : List UInt8 := lines.flatMap Line.text

theorem linesText_cons (l : Line) (lines : List Line) :
    linesText (l :: lines) = l.text ++ linesText lines :=
  List.flatMap_cons

theorem linesText_append (lines lines' : List Line) :
    linesText (lines ++ lines') = linesText lines ++ linesText lines' :=
  List.flatMap_append

theorem linesText_concat (lines : List Line) (l : Line) :
    linesText (lines ++ [l]) = linesText lines ++ l.text := by
  rw [linesText_append, linesText, linesText, List.flatMap_singleton]

variable {accepts : List UInt8 → Bool}

theorem awaitLine_chars {chars buffer : List UInt8} (hc : 10 ∉ chars)
    (hlen : buffer.length + chars.length < LINE_BUFFER_SIZE) (rest : List UInt8) :
    awaitLine accepts buffer (chars ++ 10 :: rest) =
      if accepts (buffer ++ chars ++ [10]) then some rest else awaitLine accepts [] rest := by
  induction chars generalizing buffer with
  | nil =>
    rw [List.length_nil, Nat.add_zero] at hlen
    rw [List.nil_append, awaitLine, if_neg (Nat.not_le.2 hlen), if_neg (by simp), List.append_nil]
  | cons c chars ih =>
    rw [List.length_cons] at hlen
    have hne : c ≠ 10 := fun h => hc (by simp [h])
    rw [List.cons_append, awaitLine, if_neg (by omega), if_pos hne,
      ih (fun h => hc (List.mem_cons_of_mem _ h))
      (by rw [List.length_append, List.length_singleton]; omega)]
    simp

theorem awaitLine_line (l : Line) (rest : List UInt8) :
    awaitLine accepts [] (l.text ++ rest) = if accepts l.text then some rest
      else awaitLine accepts [] rest := by
  rw [Line.text, List.append_assoc, List.singleton_append]
  exact awaitLine_chars l.noNewline (by simpa using l.length_lt) rest

theorem awaitLine_lines {lines : List Line} (hl : ∀ l ∈ lines, accepts l.text = false)
    (rest : List UInt8) :
    awaitLine accepts [] (linesText lines ++ rest) = awaitLine accepts [] rest := by
  induction lines with
  | nil => rfl
  | cons l lines ih =>
    rw [linesText_cons, List.append_assoc, awaitLine_line, hl l (List.mem_cons_self ..)]
    exact ih fun l' hl' => hl l' (List.mem_cons_of_mem _ hl')

theorem lines_of_awaitLine {buffer input rest : List UInt8} (hb : 10 ∉ buffer)
    (h : awaitLine accepts buffer input = some rest) :
    ∃ (lines : List Line) (l : Line), buffer ++ input = linesText lines ++ (l.text ++ rest) ∧
      accepts l.text = true ∧
      ∀ l' ∈ lines, accepts l'.text = false := by
  induction input generalizing buffer with
  | nil => cases h
  | cons c input ih =>
    rw [awaitLine] at h
    split at h
    · cases h
    · next hroom =>
      split at h
      · next hc =>
        obtain ⟨lines, l, heq, hacc⟩ := ih (by simp [hb, Ne.symm hc]) h
        exact ⟨lines, l, by simpa using heq, hacc⟩
      · next hc =>
        obtain rfl : c = 10 := not_not.1 hc
        split at h
        · next hacc =>
          cases h
          exact ⟨[], ⟨buffer, hb, Nat.not_le.1 hroom⟩, by simp [linesText, Line.text],
            hacc, by simp⟩
        · next hskip =>
          obtain ⟨lines, l, heq, hacc, hlines⟩ := ih (List.not_mem_nil) h
          refine ⟨⟨buffer, hb, Nat.not_le.1 hroom⟩ :: lines, l, ?_, hacc,
            List.forall_mem_cons.2 ⟨Bool.eq_false_iff.2 hskip, hlines⟩⟩
          rw [List.nil_append] at heq
          simp [heq, linesText, Line.text]

theorem isSome_awaitLine_lines (lines : List Line) {l : Line} (hl : accepts l.text = true)
    (rest : List UInt8) : (awaitLine accepts [] (linesText lines ++ (l.text ++ rest))).isSome := by
  induction lines with
  | nil => simp [linesText, awaitLine_line, hl]
  | cons l' lines ih =>
    rw [linesText_cons, List.append_assoc, awaitLine_line]
    split
    · rfl
    · exact ih

/-- The awaited line comes, behind lines that fit into the buffer. -/
theorem isSome_awaitLine_iff (input : List UInt8) :
    (awaitLine accepts [] input).isSome ↔
      ∃ (lines : List Line) (l : Line) (rest : List UInt8),
        input = linesText lines ++ (l.text ++ rest) ∧ accepts l.text = true := by
  constructor
  · intro h
    obtain ⟨rest, hrest⟩ := Option.isSome_iff_exists.1 h
    obtain ⟨lines, l, heq, hacc, -⟩ := lines_of_awaitLine List.not_mem_nil hrest
    exact ⟨lines, l, rest, heq, hacc⟩
  · rintro ⟨lines, l, rest, rfl, hacc⟩
    exact isSome_awaitLine_lines lines hacc rest

theorem Awaited.nul_notMem_text (awaited : Awaited) : 0 ∉ awaited.text := by
  rw [Line.text, List.mem_append]
  exact fun h => h.elim awaited.noNul (by decide)

theorem isAwaited_iff {toCompare : List UInt8} (h0 : 0 ∉ toCompare) (line : List UInt8) :
    isAwaited toCompare line = true ↔ line = toCompare := by
  rw [isAwaited, decide_eq_true_eq]
  constructor
  · rintro ⟨hlen, hstr⟩
    have hpre : cstr line <+: line := List.takeWhile_prefix _
    rw [← hpre.eq_of_length (by rw [hstr, hlen]), hstr]
  · rintro rfl
    exact ⟨rfl, cstr_eq_self h0⟩

theorem Line.text_injective : Function.Injective Line.text := by
  rintro ⟨chars, _, _⟩ ⟨chars', _, _⟩ h
  obtain rfl := List.append_cancel_right h
  rfl

theorem Awaited.text_ne_of_notMem {awaited : Awaited} {lines : List Line}
    (h : awaited.toLine ∉ lines) : ∀ l ∈ lines, l.text ≠ awaited.text :=
  fun _ hl heq => h (Line.text_injective heq ▸ hl)

/-- The lines that are not the awaited one are skipped, and nothing behind that one is read. -/
theorem awaitLine_awaited (awaited : Awaited) {lines : List Line}
    (hl : ∀ l ∈ lines, l.text ≠ awaited.text) (rest : List UInt8) :
    awaitLine (isAwaited awaited.text) [] (linesText lines ++ (awaited.text ++ rest)) =
      some rest := by
  have hskip : ∀ l ∈ lines, isAwaited awaited.text l.text = false := fun l hmem =>
    Bool.eq_false_iff.2 fun h => hl l hmem ((isAwaited_iff awaited.nul_notMem_text l.text).1 h)
  have hlast : isAwaited awaited.text awaited.text = true :=
    (isAwaited_iff awaited.nul_notMem_text _).2 rfl
  rw [awaitLine_lines hskip, awaitLine_line, if_pos hlast]

namespace SerialSocket

def sendAddressLine : Awaited :=
  ⟨⟨ascii "OK SEND_ADDRESS", by decide, by decide⟩, by decide, by decide⟩
def sendDataLine : Awaited := ⟨⟨ascii "OK SEND_DATA", by decide, by decide⟩, by decide, by decide⟩
def idleLine : Awaited := ⟨⟨ascii "OK IDLE", by decide, by decide⟩, by decide, by decide⟩

variable {s : SerialSocket} {lines : List Line} {rest : List UInt8}

theorem waitFor_lines (awaited : Awaited) (hl : ∀ l ∈ lines, l.text ≠ awaited.text)
    (hs : s.input = linesText lines ++ (awaited.text ++ rest)) :
    s.waitFor awaited.text = some { s with input := rest } := by
  rw [waitFor, hs, awaitLine_awaited awaited hl]
  rfl

theorem waitForOkSendAddress_lines (hl : ∀ l ∈ lines, l.text ≠ okSendAddress)
    (hs : s.input = linesText lines ++ (okSendAddress ++ rest)) :
    s.waitForOkSendAddress = some { s with input := rest } :=
  waitFor_lines sendAddressLine hl hs

theorem waitForOkSendData_lines (hl : ∀ l ∈ lines, l.text ≠ okSendData)
    (hs : s.input = linesText lines ++ (okSendData ++ rest)) :
    s.waitForOkSendData = some { s with input := rest } :=
  waitFor_lines sendDataLine hl hs

theorem waitForOKIdle_lines (hl : ∀ l ∈ lines, l.text ≠ okIdle)
    (hs : s.input = linesText lines ++ (okIdle ++ rest)) :
    s.waitForOKIdle = some { s with input := rest } :=
  waitFor_lines idleLine hl hs

end SerialSocket

end SnGateway
