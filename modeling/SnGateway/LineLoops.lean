import SnGateway.Bridge

/-!
# The loops that read lines

The eight loops of each class that read a line: they store one character after the other at
`buffer[buffer_read++]` and look at nothing but the character. Its variable lives in the body of the
loop, and a `read` that fails leaves it indeterminate, so the end of the input ends no loop. Only
`LinuxTelnetSocket::waitFor` checks the fill level, once the character is stored.
-/

namespace SnGateway
open RecordStore

/-- The bytes that come, and what is found in `c` after the reads that fail behind them. -/
structure Source where
  input : List UInt8
  junk : Nat → UInt8

def Source.read (source : Source) : UInt8 × Source :=
  match source.input with
  | [] => (source.junk 0, { source with junk := fun i => source.junk (i + 1) })
  | c :: input => (c, { source with input := input })

/-- The indices a loop has stored at; its result and what is left of the source once it
has ended. -/
structure LoopRun where
  stores : List Nat
  outcome : Option (Bool × Source)

def LoopRun.after (index : Nat) (run : LoopRun) : LoopRun :=
  { run with stores := index :: run.stores }

def emptyBuffer : List UInt8 := List.replicate LINE_BUFFER_SIZE 0

/-- The loop over `read` with at most so many steps. `accepts` decides at a newline, from the buffer
and `buffer_read`, whether the loop is left. A store behind the end of `buffer` is recorded and
changes nothing in it. -/
def lineLoop (lengthCheck : Bool) (accepts : List UInt8 → Nat → Bool) :
    Nat → Source → List UInt8 → Nat → LoopRun
  | 0, _, _, _ => ⟨[], none⟩
  | steps + 1, source, buffer, index =>
    let (c, source) := source.read
    let buffer := buffer.set index c
    let bufferRead := (index + 1) % 2 ^ 16
    if lengthCheck = true ∧ LINE_BUFFER_SIZE < bufferRead then ⟨[index], some (false, source)⟩
    else if c ≠ 10 then (lineLoop lengthCheck accepts steps source buffer bufferRead).after index
    else if accepts buffer bufferRead then ⟨[index], some (true, source)⟩
    else (lineLoop lengthCheck accepts steps source emptyBuffer 0).after index

/-- The functions with such a loop. -/
inductive LineLoop where
  | waitFor (toCompare : Awaited)
  | readStatus
  | readOwnAddress
  | readBroadcastAddress
  | readMaximumMessageLength
  | readSerialBufferSize
  | readSendAddress
  | readData

/-- The readers leave their loop at the first newline. -/
def LineLoop.accepts : LineLoop → List UInt8 → Nat → Bool
  | .waitFor toCompare, buffer, bufferRead =>
    toCompare.text.length = bufferRead ∧ cstr buffer = toCompare.text
  | _, _, _ => true

def LinuxSerialSocket.lineLoop (loop : LineLoop) (steps : Nat) (source : Source) : LoopRun :=
  SnGateway.lineLoop false loop.accepts steps source emptyBuffer 0

def LinuxTelnetSocket.lineLoop (loop : LineLoop) (steps : Nat) (source : Source) : LoopRun :=
  match loop with
  | .waitFor _ => SnGateway.lineLoop true loop.accepts steps source emptyBuffer 0
  | _ => SnGateway.lineLoop false loop.accepts steps source emptyBuffer 0

def BridgeSocket.lineLoop : BridgeSocket → LineLoop → Nat → Source → LoopRun
  | .linuxSerialSocket => LinuxSerialSocket.lineLoop
  | .linuxTelnetSocket => LinuxTelnetSocket.lineLoop

/-- The loop returns true behind the text, after a step for each character, and has stored at
indices of its buffer only. -/
structure ReturnsBehind (run : Nat → LoopRun) (text : List UInt8) (source : Source) : Prop where
  outcome : ∀ steps, (run steps).outcome = if text.length ≤ steps then some (true, source) else none
  stores : ∀ steps, ∀ i ∈ (run steps).stores, i < LINE_BUFFER_SIZE

/-- The loop ends, and stores at indices of its buffer only. -/
def EndsInBounds (run : Nat → LoopRun) : Prop :=
  ∃ steps, (run steps).outcome.isSome ∧ ∀ i ∈ (run steps).stores, i < LINE_BUFFER_SIZE

/-! ### Lines that fit -/

/-- The buffer with a line in it. -/
def filled (line : List UInt8) : List UInt8 :=
  line ++ List.replicate (LINE_BUFFER_SIZE - line.length) 0

theorem filled_set {line : List UInt8} (h : line.length < LINE_BUFFER_SIZE) (c : UInt8) :
    (filled line).set line.length c = filled (line ++ [c]) := by
  obtain ⟨k, hk⟩ : ∃ k, LINE_BUFFER_SIZE - line.length = k + 1 :=
    Nat.exists_eq_add_one.2 (Nat.sub_pos_of_lt h)
  have hk' : LINE_BUFFER_SIZE - (line ++ [c]).length = k := by simp; omega
  rw [filled, filled, hk, hk', List.set_append_right _ _ (Nat.le_refl _)]
  simp [List.replicate_succ]

theorem cstr_filled (line : List UInt8) : cstr (filled line) = cstr line := by
  rcases cstr_append line (List.replicate (LINE_BUFFER_SIZE - line.length) 0) with h | ⟨hline, h⟩
  · exact h
  · rw [filled, h, hline, cstr_replicate_zero, List.append_nil]

variable {lengthCheck : Bool} {accepts : List UInt8 → Nat → Bool} {p : List UInt8 → Bool}
    {line input : List UInt8} {junk : Nat → UInt8}

/-- One step, while there is room. -/
theorem lineLoop_char (hline : line.length < LINE_BUFFER_SIZE) (steps : Nat) (c : UInt8) :
    lineLoop lengthCheck accepts (steps + 1) ⟨c :: input, junk⟩ (filled line) line.length =
      if c ≠ 10 then
        (lineLoop lengthCheck accepts steps ⟨input, junk⟩ (filled (line ++ [c]))
          (line ++ [c]).length).after line.length
      else if accepts (filled (line ++ [c])) (line ++ [c]).length then ⟨[line.length],
        some (true, ⟨input, junk⟩)⟩
      else (lineLoop lengthCheck accepts steps ⟨input, junk⟩ emptyBuffer 0).after line.length := by
  have hsize : LINE_BUFFER_SIZE = 1024 := rfl
  have hnext : (line.length + 1) % 2 ^ 16 = (line ++ [c]).length := by
    rw [List.length_append, List.length_singleton]
    exact Nat.mod_eq_of_lt (by omega)
  have hroom : ¬ (lengthCheck = true ∧ LINE_BUFFER_SIZE < (line ++ [c]).length) := by
    rw [List.length_append, List.length_singleton]
    omega
  simp only [lineLoop, Source.read, filled_set hline, hnext, if_neg hroom]

section
variable {run run' : Nat → LoopRun} {text : List UInt8} {source : Source} {index : Nat}

theorem ReturnsBehind.last (h0 : run 0 = ⟨[], none⟩)
    (h : ∀ steps, run (steps + 1) = ⟨[index], some (true, source)⟩)
    (hindex : index < LINE_BUFFER_SIZE) (c : UInt8) : ReturnsBehind run [c] source := by
  constructor <;> rintro (_ | steps)
  · rw [h0]; rfl
  · rw [h, if_pos (by simp)]
  · rw [h0]; exact fun _ hi => absurd hi List.not_mem_nil
  · rw [h]; exact List.forall_mem_singleton.2 hindex

theorem ReturnsBehind.cons (hrun' : ReturnsBehind run' text source) (h0 : run 0 = ⟨[], none⟩)
    (h : ∀ steps, run (steps + 1) = (run' steps).after index) (hindex : index < LINE_BUFFER_SIZE)
    (c : UInt8) : ReturnsBehind run (c :: text) source := by
  constructor <;> rintro (_ | steps)
  · rw [h0, if_neg (by simp)]
  · rw [h, LoopRun.after, hrun'.outcome steps]
    simp only [List.length_cons, Nat.add_le_add_iff_right]
  · rw [h0]; exact fun _ hi => absurd hi List.not_mem_nil
  · rw [h]; exact List.forall_mem_cons.2 ⟨hindex, hrun'.stores steps⟩

end

/-- Where the lines fit into the buffer, the loop returns where `awaitLine` says. -/
theorem lineLoop_returns
    (hp : ∀ line, line.length ≤ LINE_BUFFER_SIZE → accepts (filled line) line.length = p line)
    {rest : List UInt8} (h : awaitLine p line input = some rest) (junk : Nat → UInt8) :
    ∃ text, input = text ++ rest ∧
      ReturnsBehind
        (fun steps => lineLoop lengthCheck accepts steps ⟨input, junk⟩ (filled line) line.length)
        text ⟨rest, junk⟩ := by
  induction input generalizing line with
  | nil => cases h
  | cons c input ih =>
    rw [awaitLine] at h
    split at h
    · cases h
    · next hroom =>
      have hline := Nat.not_le.1 hroom
      have hacc := hp (line ++ [c]) (by simpa using hline)
      by_cases hc : c ≠ 10
      · rw [if_pos hc] at h
        obtain ⟨text, rfl, htext⟩ := ih h
        refine ⟨c :: text, rfl, htext.cons rfl (fun steps => ?_) hline c⟩
        rw [lineLoop_char hline, if_pos hc]
      · rw [if_neg hc] at h
        split at h
        · next hlast =>
          cases h
          refine ⟨[c], rfl, .last rfl (fun steps => ?_) hline c⟩
          rw [lineLoop_char hline, if_neg hc, hacc, if_pos hlast]
        · next hskip =>
          obtain ⟨text, rfl, htext⟩ := ih h
          refine ⟨c :: text, rfl, htext.cons rfl (fun steps => ?_) hline c⟩
          rw [lineLoop_char hline, if_neg hc, hacc, if_neg hskip]
          rfl

theorem lineLoop_empty (lengthCheck : Bool)
    (hp : ∀ line, line.length ≤ LINE_BUFFER_SIZE → accepts (filled line) line.length = p line)
    {rest : List UInt8} (h : awaitLine p [] input = some rest) (junk : Nat → UInt8) :
    ∃ text, input = text ++ rest ∧
      ReturnsBehind (fun steps => lineLoop lengthCheck accepts steps ⟨input, junk⟩ emptyBuffer 0)
      text ⟨rest, junk⟩ :=
  lineLoop_returns hp h junk

/-! ### Lines that never end -/

/-- The loop has not ended yet, or it has stored outside of its buffer. -/
def OutOfBounds (run : LoopRun) : Prop :=
  run.outcome = none ∨ ∃ i ∈ run.stores, LINE_BUFFER_SIZE ≤ i

theorem OutOfBounds.after {run : LoopRun} (h : OutOfBounds run) (index : Nat) :
    OutOfBounds (run.after index) := by
  rcases h with h | ⟨i, hi, hle⟩
  · exact .inl h
  · exact .inr ⟨i, List.mem_cons_of_mem _ hi, hle⟩

theorem outOfBounds_of_index {index : Nat} (h : LINE_BUFFER_SIZE ≤ index) (steps : Nat)
    (source : Source) (buffer : List UInt8) :
    OutOfBounds (lineLoop lengthCheck accepts steps source buffer index) := by
  cases steps with
  | zero => exact .inl rfl
  | succ steps =>
    refine .inr ⟨index, ?_, h⟩
    simp only [lineLoop]
    split
    · exact List.mem_singleton_self _
    · split
      · exact List.mem_cons_self ..
      · split
        · exact List.mem_singleton_self _
        · exact List.mem_cons_self ..

/-- Behind the end of the input without a newline in `c`. -/
theorem outOfBounds_end (hj : ∀ i, junk i ≠ 10) (steps : Nat) (buffer : List UInt8) (index : Nat) :
    OutOfBounds (lineLoop lengthCheck accepts steps ⟨[], junk⟩ buffer index) := by
  induction steps generalizing junk buffer index with
  | zero => exact .inl rfl
  | succ steps ih =>
    rw [lineLoop]
    dsimp only [Source.read]
    split
    · next hfull =>
      have := Nat.mod_le (index + 1) (2 ^ 16)
      exact .inr ⟨index, List.mem_singleton_self _, by omega⟩
    · rw [if_pos (hj 0)]
      exact (ih (fun i => hj (i + 1)) _ _).after index

theorem outOfBounds_none
    (hp : ∀ line, line.length ≤ LINE_BUFFER_SIZE → accepts (filled line) line.length = p line)
    (hj : ∀ i, junk i ≠ 10) (hline : line.length ≤ LINE_BUFFER_SIZE)
    (h : awaitLine p line input = none) (steps : Nat) :
    OutOfBounds (lineLoop lengthCheck accepts steps ⟨input, junk⟩ (filled line) line.length) := by
  induction input generalizing line steps with
  | nil => exact outOfBounds_end hj steps _ _
  | cons c input ih =>
    cases steps with
    | zero => exact .inl rfl
    | succ steps =>
      rw [awaitLine] at h
      split at h
      · next hfull => exact outOfBounds_of_index hfull _ _ _
      · next hroom =>
        have hlt := Nat.not_le.1 hroom
        have hle : (line ++ [c]).length ≤ LINE_BUFFER_SIZE := by simpa using hlt
        rw [lineLoop_char hlt, hp _ hle]
        by_cases hc : c ≠ 10
        · rw [if_pos hc] at h ⊢
          exact (ih hle h steps).after _
        · rw [if_neg hc] at h ⊢
          split at h
          · cases h
          · next hacc =>
            rw [if_neg hacc]
            exact (ih (Nat.zero_le _) h steps).after _

theorem endsInBounds_iff
    (hp : ∀ line, line.length ≤ LINE_BUFFER_SIZE → accepts (filled line) line.length = p line)
    (input : List UInt8) :
    (∀ junk, EndsInBounds fun steps => lineLoop lengthCheck accepts steps ⟨input, junk⟩
      emptyBuffer 0) ↔
      (awaitLine p [] input).isSome := by
  constructor
  · intro h
    by_contra hnone
    rw [Option.not_isSome_iff_eq_none] at hnone
    obtain ⟨steps, hend, hstores⟩ := h fun _ => 0
    have hrun :
      OutOfBounds (lineLoop lengthCheck accepts steps ⟨input, fun _ => 0⟩ emptyBuffer 0) :=
      outOfBounds_none hp (fun _ => by decide) (Nat.zero_le _) hnone steps
    rcases hrun with hout | ⟨i, hi, hle⟩
    · rw [hout] at hend
      cases hend
    · exact absurd (hstores i hi) (Nat.not_lt.2 hle)
  · intro h junk
    obtain ⟨rest, hrest⟩ := Option.isSome_iff_exists.1 h
    obtain ⟨text, rfl, htext⟩ := lineLoop_empty lengthCheck hp hrest junk
    refine ⟨text.length, ?_, htext.stores text.length⟩
    rw [htext.outcome, if_pos le_rfl]
    rfl

/-! ### The sixteen loops -/

/-- The line a loop is left at. -/
def LineLoop.isLast : LineLoop → List UInt8 → Bool
  | .waitFor toCompare => isAwaited toCompare.text
  | _ => fun _ => true

theorem LineLoop.accepts_filled (loop : LineLoop) (line : List UInt8) :
    loop.accepts (filled line) line.length = loop.isLast line := by
  cases loop with
  | waitFor toCompare => rw [accepts, cstr_filled, isLast, isAwaited]
  | _ => rfl

/-- The stream holds the line the loop is left at, and neither it nor a line before it is longer
than the buffer. The readers are left at the first line. -/
def LineLoop.Served (loop : LineLoop) (input : List UInt8) : Prop :=
  match loop with
  | .waitFor toCompare =>
    ∃ (lines : List Line) (rest : List UInt8), input = linesText lines ++ (toCompare.text ++ rest)
  | _ => ∃ (l : Line) (rest : List UInt8), input = l.text ++ rest

theorem exists_first_line_iff (input : List UInt8) :
    (∃ (lines : List Line) (l : Line) (rest : List UInt8), input = linesText lines ++
      (l.text ++ rest)) ↔
      ∃ (l : Line) (rest : List UInt8), input = l.text ++ rest := by
  constructor
  · rintro ⟨lines, l, rest, rfl⟩
    cases lines with
    | nil => exact ⟨l, rest, rfl⟩
    | cons l' lines => exact ⟨l', linesText lines ++ (l.text ++ rest), by simp [linesText]⟩
  · rintro ⟨l, rest, rfl⟩
    exact ⟨[], l, rest, rfl⟩

theorem LineLoop.isSome_awaitLine_iff (loop : LineLoop) (input : List UInt8) :
    (awaitLine loop.isLast [] input).isSome ↔ loop.Served input := by
  rw [SnGateway.isSome_awaitLine_iff]
  cases loop with
  | waitFor toCompare =>
    constructor
    · rintro ⟨lines, l, rest, rfl, hl⟩
      rw [(isAwaited_iff toCompare.nul_notMem_text l.text).1 hl]
      exact ⟨lines, rest, rfl⟩
    · rintro ⟨lines, rest, rfl⟩
      exact ⟨lines, toCompare.toLine, rest, rfl, (isAwaited_iff toCompare.nul_notMem_text _).2 rfl⟩
  | _ => simpa [isLast, Served] using exists_first_line_iff input

theorem BridgeSocket.lineLoop_eq (socket : BridgeSocket) (loop : LineLoop) : ∃ lengthCheck,
    socket.lineLoop loop =
      fun steps source => SnGateway.lineLoop lengthCheck loop.accepts steps source
      emptyBuffer 0 := by
  cases socket with
  | linuxSerialSocket => exact ⟨false, rfl⟩
  | linuxTelnetSocket => cases loop <;> exact ⟨_, rfl⟩

/-- Whatever failing reads leave behind, the loop ends within its buffer: exactly on the streams
that serve it. -/
theorem line_loop_bounded_iff (socket : BridgeSocket) (loop : LineLoop) (input : List UInt8) :
    (∀ junk, EndsInBounds fun steps => socket.lineLoop loop steps ⟨input, junk⟩) ↔
      loop.Served input := by
  obtain ⟨lengthCheck, hloop⟩ := socket.lineLoop_eq loop
  rw [← loop.isSome_awaitLine_iff, hloop]
  exact endsInBounds_iff (fun line _ => loop.accepts_filled line) input

/-- The bridge closes the connection before it sends anything. -/
theorem readStatus_unbounded :
    ¬ ∀ junk, EndsInBounds fun steps => BridgeSocket.linuxSerialSocket.lineLoop .readStatus steps
      ⟨[], junk⟩ := by
  intro h
  have hserved := (endsInBounds_iff (fun line _ => LineLoop.readStatus.accepts_filled line) []).1 h
  cases hserved

/-! ### The readers of whole lines -/

theorem BridgeSocket.lineLoop_returns (socket : BridgeSocket) (loop : LineLoop)
    {input rest : List UInt8} (h : awaitLine loop.isLast [] input = some rest)
    (junk : Nat → UInt8) :
    ∃ text, input = text ++ rest ∧
      ReturnsBehind (fun steps => socket.lineLoop loop steps ⟨input, junk⟩) text ⟨rest, junk⟩ := by
  obtain ⟨lengthCheck, hloop⟩ := socket.lineLoop_eq loop
  rw [hloop]
  exact lineLoop_empty lengthCheck (fun line _ => loop.accepts_filled line) h junk

theorem BridgeSocket.lineLoop_awaitLine (socket : BridgeSocket) (loop : LineLoop)
    {input rest : List UInt8} (h : awaitLine loop.isLast [] input = some rest)
    (junk : Nat → UInt8) :
    (socket.lineLoop loop input.length ⟨input, junk⟩).outcome = some (true, ⟨rest, junk⟩) := by
  obtain ⟨text, rfl, htext⟩ := socket.lineLoop_returns loop h junk
  exact (htext.outcome _).trans (if_pos (by simp))

/-- Where `SerialSocket.waitFor` returns, the loop of either class does, at the same place. -/
theorem lineLoop_waitFor (socket : BridgeSocket) (awaited : Awaited) {s s' : SerialSocket}
    (h : s.waitFor awaited.text = some s') (junk : Nat → UInt8) :
    (socket.lineLoop (.waitFor awaited) s.input.length ⟨s.input, junk⟩).outcome =
      some (true, ⟨s'.input, junk⟩) := by
  obtain ⟨rest, hrest, rfl⟩ := Option.map_eq_some_iff.1 h
  exact socket.lineLoop_awaitLine (.waitFor awaited) hrest junk

theorem awaitLine_of_nextLine {input line rest buffer : List UInt8}
    (h : SerialSocket.nextLine input = some (line, rest))
    (hlen : buffer.length + line.length ≤ LINE_BUFFER_SIZE) :
    awaitLine (fun _ => true) buffer input = some rest := by
  induction input generalizing line buffer with
  | nil => cases h
  | cons c input ih =>
    rw [SerialSocket.nextLine] at h
    split at h
    · next hc =>
      cases h
      rw [List.length_singleton] at hlen
      rw [awaitLine, if_neg (by omega), if_neg (by simpa using hc), if_pos rfl]
    · next hc =>
      obtain ⟨⟨line', rest'⟩, hnext, heq⟩ := Option.map_eq_some_iff.1 h
      cases heq
      rw [List.length_cons] at hlen
      rw [awaitLine, if_neg (by omega), if_pos hc]
      refine ih hnext ?_
      rw [List.length_append, List.length_singleton, Nat.add_assoc, Nat.add_comm 1]
      exact hlen

/-- Where `SerialSocket.readLine` has a line, the loops of the readers end behind it. -/
theorem lineLoop_readLine (socket : BridgeSocket) {loop : LineLoop}
    (hloop : loop.isLast = fun _ => true) {input text rest : List UInt8}
    (h : SerialSocket.readLine input = some (text, rest)) (junk : Nat → UInt8) :
    (socket.lineLoop loop input.length ⟨input, junk⟩).outcome = some (true, ⟨rest, junk⟩) := by
  refine socket.lineLoop_awaitLine loop ?_ junk
  rw [SerialSocket.readLine] at h
  split at h
  · cases h
  · next line rest' hnext =>
    split at h
    · next hlen =>
      cases h
      rw [hloop]
      exact awaitLine_of_nextLine hnext (by simpa using hlen.le)
    · cases h

/-! ### Back in step -/

/-- `waitFor` returns true and has read the lines up to the first awaited one, which is where the
next reader starts. -/
theorem waitFor_resynchronises (socket : BridgeSocket) (awaited : Awaited) {lines : List Line}
    (h : awaited.toLine ∈ lines) (rest : List UInt8) (junk : Nat → UInt8) :
    ∃ before after, lines = before ++ awaited.toLine :: after ∧ awaited.toLine ∉ before ∧
      ReturnsBehind
        (fun steps => socket.lineLoop (.waitFor awaited) steps ⟨linesText lines ++ rest, junk⟩)
        (linesText (before ++ [awaited.toLine])) ⟨linesText after ++ rest, junk⟩ := by
  obtain ⟨before, after, rfl, hbefore⟩ := List.eq_append_cons_of_mem h
  refine ⟨before, after, rfl, hbefore, ?_⟩
  have hawait := awaitLine_awaited awaited (Awaited.text_ne_of_notMem hbefore)
    (linesText after ++ rest)
  have hsplit : linesText (before ++ awaited.toLine :: after) ++ rest =
      linesText before ++ (awaited.text ++ (linesText after ++ rest)) := by
    rw [linesText_append, linesText_cons, List.append_assoc, List.append_assoc]
  have hread : linesText before ++ (awaited.text ++ (linesText after ++ rest)) =
      linesText (before ++ [awaited.toLine]) ++ (linesText after ++ rest) := by
    rw [linesText_concat, List.append_assoc]
  obtain ⟨text, htext, hreturns⟩ := socket.lineLoop_returns (.waitFor awaited) hawait junk
  rw [hsplit]
  rwa [List.append_cancel_right (hread.symm.trans htext)]

/-- Up to its NUL it is "OK IDLE". -/
def idleNulLine : Line := ⟨ascii "OK IDLE" ++ [0, 73], by decide, by decide⟩

theorem waitFor_resynchronises_idle :
    let lines :=
      [idleNulLine, SerialSocket.idleLine.toLine, idleNulLine, SerialSocket.idleLine.toLine]
    ∃ before after, lines = before ++ SerialSocket.idleLine.toLine :: after ∧
      SerialSocket.idleLine.toLine ∉ before ∧
      ReturnsBehind
        (fun steps => BridgeSocket.linuxTelnetSocket.lineLoop (.waitFor SerialSocket.idleLine) steps
          ⟨linesText lines ++ [], fun _ => 0⟩)
        (linesText (before ++ [SerialSocket.idleLine.toLine]))
        ⟨linesText after ++ [], fun _ => 0⟩ :=
  waitFor_resynchronises .linuxTelnetSocket SerialSocket.idleLine (by simp) [] fun _ => 0

end SnGateway
