import SnGateway.Bridge

/-!
# Receiving frames

What a bridge answers to one RECEIVE command is a `Frame`: handshake lines around a line of numbers
for the address and one for the data. The readers take less than a well-formed line: the keyword may
be continued, and what stands behind a NUL is not seen (`readNumbers`). A line of data they refuse
empties `data` but leaves the address, whose first byte alone decides the delivery. `receive_frame`
says what one call of `loop` delivers for any frame, whatever the members were before.
-/

namespace SnGateway
open RecordStore

namespace SerialSocket

/-! ### The numbers of a line -/

/-- The value of a token that is a number in 0..255 to its end. -/
def numeral (token : List UInt8) : Option UInt8 :=
  let r := strtol 0 token
  if r.converted = true ∧ r.rest = [] ∧ 0 ≤ r.value ∧
    r.value ≤ UINT8_MAX then some (UInt8.ofNat r.value.toNat)
  else none

/-- The numbers of a line that consists of the keyword and numbers. -/
def lineNumbers (keyword line : List UInt8) : Option (List UInt8) :=
  match line.splitOn 32 with
  | [] => none
  | token :: tokens => if token = keyword then tokens.mapM numeral else none

/-- The numbers of a line that starts with the keyword and has numbers up to its end or a NUL. -/
def readNumbers (keyword line : List UInt8) : Option (List UInt8) :=
  match (cstr line).splitOn 32 with
  | [] => none
  | token :: tokens => if hasKeyword keyword token then tokens.mapM numeral else none

theorem parseLong_concat_newline (token : List UInt8) :
    parseLong (token ++ [10]) = parseLong token := by
  simp only [parseLong, strtol_concat_newline]
  cases (strtol 0 token).rest with
  | nil => simp
  | cons c rest => simp

theorem parseNumbers_concat_newline (capacity : Option Nat) (tokens : List (List UInt8))
    (token : List UInt8) (stored : List UInt8) :
    parseNumbers capacity (tokens ++ [token ++ [10]]) stored = parseNumbers capacity
      (tokens ++ [token]) stored := by
  induction tokens generalizing stored with
  | nil => simp only [List.nil_append, parseNumbers, parseLong_concat_newline]
  | cons t tokens ih => simp only [List.cons_append, parseNumbers, ih]

theorem parseLong_eq_true_iff {token : List UInt8} (h : 10 ∉ token)
    (hrange : ¬ (UINT8_MAX < (parseLong token).2 ∨ (parseLong token).2 < 0)) :
    (parseLong token).1 = true ↔ (strtol 0 token).converted = true ∧
      (strtol 0 token).rest = [] := by
  have hv : ¬ (UINT8_MAX < (strtol 0 token).value ∨ (strtol 0 token).value < 0) := hrange
  have hmin : (strtol 0 token).value ≠ LONG_MIN := fun heq => by rw [heq] at hv; revert hv; decide
  have hmax : (strtol 0 token).value ≠ LONG_MAX := fun heq => by rw [heq] at hv; revert hv; decide
  have hrest : (strtol 0 token).rest ≠ [] → (strtol 0 token).rest.head? ≠ some 10 := by
    intro _ hhead
    exact h ((strtol_rest_suffix token).subset (List.mem_of_mem_head? hhead))
  simp only [parseLong, hmin, hmax]
  simp
  tauto

/-- What the loops over numbers take from a token. -/
theorem numeral_eq {token : List UInt8} (h : 10 ∉ token) :
    numeral token = if !(parseLong token).1 then none
      else if UINT8_MAX < (parseLong token).2 ∨ (parseLong token).2 < 0 then none
      else some (UInt8.ofNat (parseLong token).2.toNat) := by
  have hvalue : (parseLong token).2 = (strtol 0 token).value := rfl
  by_cases hrange : UINT8_MAX < (parseLong token).2 ∨ (parseLong token).2 < 0
  · rw [if_pos hrange, ite_self]
    rw [hvalue] at hrange
    exact if_neg fun hn => by omega
  · have hiff := parseLong_eq_true_iff h hrange
    rw [if_neg hrange]
    rw [hvalue] at hrange ⊢
    have hle : 0 ≤ (strtol 0 token).value ∧ (strtol 0 token).value ≤ UINT8_MAX := by omega
    rw [numeral]
    by_cases hrc : (parseLong token).1 = true
    · rw [if_pos ⟨(hiff.1 hrc).1, (hiff.1 hrc).2, hle⟩, if_neg (by simp [hrc])]
    · rw [if_neg fun hn => hrc (hiff.2 ⟨hn.1, hn.2.1⟩), if_pos (by simp [hrc])]

theorem parseNumbers_cons_eq (capacity : Option Nat) {token : List UInt8} (h : 10 ∉ token)
    (tokens : List (List UInt8)) (stored : List UInt8) :
    parseNumbers capacity (token :: tokens) stored = (numeral token).bind fun b =>
      if capacity.any fun n => n < stored.length + 1 then none
      else parseNumbers capacity tokens (stored ++ [b]) := by
  rw [numeral_eq h, parseNumbers]
  by_cases hrc : (parseLong token).1 = true
  · by_cases hrange : UINT8_MAX < (parseLong token).2 ∨ (parseLong token).2 < 0 <;>
      simp [hrc, hrange]
  · simp [hrc]

theorem parseNumbers_none {tokens : List (List UInt8)} (h : ∀ t ∈ tokens, 10 ∉ t)
    (stored : List UInt8) :
    parseNumbers none tokens stored = (tokens.mapM numeral).map (stored ++ ·) := by
  induction tokens generalizing stored with
  | nil => simp [parseNumbers]
  | cons t tokens ih =>
    rw [parseNumbers_cons_eq none (h t (List.mem_cons_self ..)), List.mapM_cons]
    cases numeral t with
    | none => rfl
    | some b =>
      have ih := ih (fun t' ht' => h t' (List.mem_cons_of_mem _ ht')) (stored ++ [b])
      cases hm : tokens.mapM numeral <;> simp [ih, hm]

/-- A bound on the numbers only refuses the lines that have more. -/
theorem parseNumbers_some {n : Nat} {tokens : List (List UInt8)} (h : ∀ t ∈ tokens, 10 ∉ t)
    {stored : List UInt8} (hn : stored.length ≤ n) :
    parseNumbers (some n) tokens stored = (parseNumbers none tokens stored).filter fun bytes =>
      bytes.length ≤ n := by
  induction tokens generalizing stored with
  | nil => simp [parseNumbers, Option.filter, hn]
  | cons t tokens ih =>
    have htokens : ∀ t ∈ tokens, 10 ∉ t := fun t' ht' => h t' (List.mem_cons_of_mem _ ht')
    simp only [parseNumbers_cons_eq _ (h t (List.mem_cons_self ..)), Option.any_some,
      Option.any_none]
    cases numeral t with
    | none => rfl
    | some b =>
      by_cases hroom : n < stored.length + 1
      · simp only [Option.bind_some, hroom, parseNumbers_none htokens]
        cases tokens.mapM numeral with
        | none => simp
        | some bytes =>
          have hmore : ¬ ((stored ++ [b]) ++ bytes).length ≤ n := by simp; omega
          simp only [decide_true, if_true, Option.map_some, Option.filter, hmore, decide_false,
            Bool.false_eq_true,
            if_false]
      · simp only [Option.bind_some, hroom]
        simpa using ih htokens (by simp; omega)

theorem hasKeyword_concat_newline {keyword : List UInt8} (hk : 10 ∉ keyword) (token : List UInt8) :
    hasKeyword keyword (token ++ [10]) = hasKeyword keyword token := by
  rw [hasKeyword, hasKeyword, Bool.eq_iff_iff, decide_eq_true_eq, decide_eq_true_eq]
  rcases Nat.lt_or_ge token.length keyword.length with hlt | hle
  · rw [List.take_of_length_le hlt.le, List.take_of_length_le (by simpa using hlt)]
    constructor
    · intro h; exact absurd (h ▸ by simp) hk
    · intro h; rw [h] at hlt; exact absurd hlt (Nat.lt_irrefl _)
  · rw [List.take_append_of_le_length hle]

theorem cstr_line (l : Line) : cstr l.text = cstr l.chars ∨ cstr l.text = cstr l.chars ++ [10] := by
  rcases cstr_append l.chars [10] with h | ⟨hchars, h⟩
  · exact .inl h
  · exact .inr (by rw [Line.text, h, hchars]; rfl)

/-- The newline changes nothing about the tokens of a line but the end of the last one, which no
reader sees. -/
theorem strsepTokens_line (l : Line) : ∃ token tokens token' tokens',
    strsepTokens 32 (cstr l.text) = token :: tokens ∧ strsepTokens 32 (cstr l.chars) =
      token' :: tokens' ∧
    (∀ keyword, 10 ∉ keyword → hasKeyword keyword token = hasKeyword keyword token') ∧
    ∀ capacity, parseNumbers capacity tokens [] = parseNumbers capacity tokens' [] := by
  rcases cstr_line l with h | h
  · obtain ⟨token, tokens, ht⟩ := List.exists_cons_of_ne_nil (List.splitOn_ne_nil 32 (cstr l.chars))
    exact ⟨token, tokens, token, tokens, by rw [h]; exact ht, ht, fun _ _ => rfl, fun _ => rfl⟩
  · obtain ⟨tokens, token, h1, h2⟩ := strsepTokens_concat (show (10 : UInt8) ≠ 32 by decide)
      (cstr l.chars)
    cases tokens with
    | nil =>
      exact ⟨token ++ [10], [], token, [], by rw [h, h2]; rfl, h1,
        fun _ hk => hasKeyword_concat_newline hk token, fun _ => rfl⟩
    | cons t tokens =>
      exact ⟨t, tokens ++ [token ++ [10]], t, tokens ++ [token], by rw [h, h2]; rfl, h1,
        fun _ _ => rfl, fun capacity => parseNumbers_concat_newline capacity tokens token []⟩

theorem readLine_line (l : Line) (rest : List UInt8) :
    readLine (l.text ++ rest) = if l.text.length < LINE_BUFFER_SIZE then some (cstr l.text, rest)
      else none := by
  have hnext : nextLine (l.text ++ rest) = some (l.text, rest) := by
    rw [Line.text, List.append_assoc, List.singleton_append]
    exact nextLine_append l.noNewline rest
  rw [readLine, hnext]

/-! ### The two readers -/

/-- What `from_address` is after the numbers of a line. -/
def addressOf (numbers : Option (List UInt8)) : DeviceAddress :=
  match numbers with
  | some bytes => if h : bytes.length = 6 then ⟨bytes, h⟩ else Record.zero 6
  | none => Record.zero 6

variable {s : SerialSocket} {l : Line} {rest : List UInt8}

theorem readNumbers_tokens {token : List UInt8} {tokens : List (List UInt8)}
    (ht : strsepTokens 32 (cstr l.chars) = token :: tokens) (keyword : List UInt8) :
    (∀ t ∈ tokens, 10 ∉ t) ∧
      readNumbers keyword l.chars = if hasKeyword keyword token then tokens.mapM numeral
      else none := by
  constructor
  · intro t hmem h10
    have hline : 10 ∈ cstr l.chars :=
      (mem_strsepTokens_iff (show (10 : UInt8) ≠ 32 by decide) _).1
        ⟨t, by rw [ht]; exact List.mem_cons_of_mem _ hmem, h10⟩
    exact l.noNewline ((List.takeWhile_sublist _).subset hline)
  · rw [strsepTokens] at ht
    rw [readNumbers, ht]

theorem readSendAddress_line (h : s.input = l.text ++ rest)
    (hlen : l.text.length < LINE_BUFFER_SIZE) :
    s.readSendAddress =
      some { s with
        input := rest, fromAddress := addressOf (readNumbers (ascii "ADDRESS") l.chars) } := by
  obtain ⟨token, tokens, token', tokens', ht, ht', hkey, hnum⟩ := strsepTokens_line l
  obtain ⟨h10, hread⟩ := readNumbers_tokens ht' (ascii "ADDRESS")
  rw [readSendAddress, h, readLine_line, if_pos hlen]
  dsimp only
  rw [ht, hread]
  dsimp only
  rw [hkey _ (by decide), hnum, parseNumbers_some h10 (Nat.zero_le _), parseNumbers_none h10]
  cases hasKeyword (ascii "ADDRESS") token' with
  | false => rfl
  | true =>
    cases tokens'.mapM numeral with
    | none => rfl
    | some bytes =>
      by_cases hb : bytes.length = 6
      · simp [Option.filter, addressOf, hb]
      · by_cases hle : bytes.length ≤ 6 <;> simp [Option.filter, addressOf, hb, hle]

theorem readData_line (h : s.input = l.text ++ rest) (hlen : l.text.length < LINE_BUFFER_SIZE) :
    s.readData = some { s with
      input := rest
      data := (readNumbers (ascii "DATA") l.chars).getD []
      dataLength := ((readNumbers (ascii "DATA") l.chars).getD []).length % 2 ^ 16 } := by
  obtain ⟨token, tokens, token', tokens', ht, ht', hkey, hnum⟩ := strsepTokens_line l
  obtain ⟨h10, hread⟩ := readNumbers_tokens ht' (ascii "DATA")
  rw [readData, h, readLine_line, if_pos hlen]
  dsimp only
  rw [ht, hread]
  dsimp only
  rw [hkey _ (by decide), hnum, parseNumbers_none h10]
  cases hasKeyword (ascii "DATA") token' with
  | false => rfl
  | true => cases tokens'.mapM numeral <;> rfl

theorem readSendAddress_overrun (h : s.input = l.text ++ rest)
    (hlen : ¬ l.text.length < LINE_BUFFER_SIZE) : s.readSendAddress = none := by
  rw [readSendAddress, h, readLine_line, if_neg hlen]

theorem readData_overrun (h : s.input = l.text ++ rest)
    (hlen : ¬ l.text.length < LINE_BUFFER_SIZE) : s.readData = none := by
  rw [readData, h, readLine_line, if_neg hlen]

end SerialSocket

/-! ### Frames -/

/-- The answer to one RECEIVE command. -/
structure Frame where
  beforeAddress : List Line
  address : Line
  beforeData : List Line
  data : Line
  beforeIdle : List Line
  skipped_address : ∀ l ∈ beforeAddress, l.text ≠ SerialSocket.okSendAddress
  skipped_data : ∀ l ∈ beforeData, l.text ≠ SerialSocket.okSendData
  skipped_idle : ∀ l ∈ beforeIdle, l.text ≠ SerialSocket.okIdle

namespace Frame
open SerialSocket

def stream (f : Frame) : List UInt8 :=
  linesText f.beforeAddress ++ (okSendAddress ++ (f.address.text ++ (linesText f.beforeData ++
    (okSendData ++ (f.data.text ++ (linesText f.beforeIdle ++ okIdle))))))

/-- Both lines leave a terminator in their buffers. -/
def Fits (f : Frame) : Prop :=
  f.address.text.length < LINE_BUFFER_SIZE ∧ f.data.text.length < LINE_BUFFER_SIZE

instance (f : Frame) : Decidable f.Fits := inferInstanceAs (Decidable (_ ∧ _))

/-- A delivery of the address and the bytes, the rest of the array being 0. -/
def notices (address : DeviceAddress) (bytes : List UInt8) : List Notice :=
  [.receiveData address (dataArray bytes)]

/-- The delivery of a well-formed frame, and none for any other. -/
def expected (f : Frame) : List Notice :=
  match lineNumbers (ascii "ADDRESS") f.address.chars, lineNumbers (ascii "DATA") f.data.chars with
  | some numbers, some bytes =>
    if h : numbers.length = 6 then
      if numbers = List.replicate 6 0 then [] else notices ⟨numbers, h⟩ bytes
    else []
  | _, _ => []

/-- The ADDRESS line is six numbers and the DATA line is numbers. -/
structure WellFormed (f : Frame) (numbers bytes : List UInt8) : Prop where
  address : lineNumbers (ascii "ADDRESS") f.address.chars = some numbers
  six : numbers.length = 6
  data : lineNumbers (ascii "DATA") f.data.chars = some bytes

/-- The address reader finds six numbers of which the first is not 0. -/
def Addressed (f : Frame) : Prop :=
  ∃ numbers, readNumbers (ascii "ADDRESS") f.address.chars = some numbers ∧ numbers.length = 6 ∧
    numbers.headD 0 ≠ 0

/-- The frames that are handled as they should. The buffers hold both lines; where an address is
found with a first byte other than 0, nothing follows the keyword or hides behind a NUL and the DATA
line is good; and no address of a well-formed frame has a 0 before other numbers. -/
structure Regular (f : Frame) : Prop where
  fits : f.Fits
  address_exact : f.Addressed →
    0 ∉ f.address.chars ∧ (f.address.chars.splitOn 32).head? = some (ascii "ADDRESS")
  data_exact : f.Addressed → (lineNumbers (ascii "DATA") f.data.chars).isSome
  head_ne_zero : ∀ numbers bytes, f.WellFormed numbers bytes → numbers ≠ List.replicate 6 0 →
    numbers.headD 0 ≠ 0

/-- What `loop` delivers. -/
def delivered (f : Frame) : List Notice :=
  let address := addressOf (readNumbers (ascii "ADDRESS") f.address.chars)
  if address.bytes.headD 0 ≠ 0 then
    notices address ((readNumbers (ascii "DATA") f.data.chars).getD [])
  else []

end Frame

namespace SerialSocket

variable {s : SerialSocket} {rest : List UInt8} {fd : Int}

/-- One call of `loop` on a frame, whatever is in the members. -/
theorem receive_frame (receiveCmd : List UInt8) (hfd : 0 < fd) (f : Frame)
    (h : s.input = f.stream ++ rest) :
    if f.Fits then ∃ s', s.receive receiveCmd fd = some (true, s', f.delivered) ∧ s'.input = rest
    else s.receive receiveCmd fd = none := by
  obtain ⟨idle, hidle⟩ : ∃ idle, linesText f.beforeIdle ++ (okIdle ++ rest) = idle := ⟨_, rfl⟩
  obtain ⟨data, hdata⟩ : ∃ data, linesText f.beforeData ++ (okSendData ++ (f.data.text ++ idle)) =
      data := ⟨_, rfl⟩
  have hinput : s.input = linesText f.beforeAddress ++
      (okSendAddress ++ (f.address.text ++ data)) := by
    rw [h, ← hdata, ← hidle]
    simp [Frame.stream]
  have hwaitAddress : { s with output := s.output ++ receiveCmd }.waitForOkSendAddress = _ :=
    waitForOkSendAddress_lines f.skipped_address hinput
  have hwaitData (s : SerialSocket) (hs : s.input = data) :=
    waitForOkSendData_lines f.skipped_data (hs.trans hdata.symm)
  have hwaitIdle (s : SerialSocket) (hs : s.input = idle) :=
    waitForOKIdle_lines f.skipped_idle (hs.trans hidle.symm)
  simp only [receive, if_neg (Int.not_lt.2 hfd.le), if_neg hfd.ne', Option.bind_eq_bind]
  simp only [hwaitAddress, Option.bind_some]
  by_cases ha : f.address.text.length < LINE_BUFFER_SIZE
  · have haddress (s : SerialSocket) (hs : s.input = f.address.text ++ data) :=
      readSendAddress_line hs ha
    simp only [haddress, hwaitData, Option.bind_some]
    by_cases hd : f.data.text.length < LINE_BUFFER_SIZE
    · have hbytes (s : SerialSocket) (hs : s.input = f.data.text ++ idle) := readData_line hs hd
      simp only [if_pos (show f.Fits from ⟨ha, hd⟩), hbytes, hwaitIdle, Option.bind_some]
      exact ⟨_, rfl, rfl⟩
    · have hover (s : SerialSocket) (hs : s.input = f.data.text ++ idle) := readData_overrun hs hd
      simp only [if_neg fun hf : f.Fits => hd hf.2, hover, Option.bind_none]
  · have hover (s : SerialSocket) (hs : s.input = f.address.text ++ data) :=
      readSendAddress_overrun hs ha
    simp only [if_neg fun hf : f.Fits => ha hf.1, hover, Option.bind_none]

/-- The notices of `n` calls. -/
def runLoop (loop : SerialSocket → Option (Bool × SerialSocket × List Notice)) :
    Nat → SerialSocket → Option (List (List Notice))
  | 0, _ => some []
  | n + 1, s => do
    let (_, s, notices) ← loop s
    let later ← runLoop loop n s
    some (notices :: later)

def framesText (frames : List Frame) : List UInt8 := frames.flatMap Frame.stream

theorem runLoop_frames (receiveCmd : List UInt8) (hfd : 0 < fd) (frames : List Frame)
    (h : s.input = framesText frames) :
    runLoop (fun s => s.receive receiveCmd fd) frames.length s =
      if ∀ f ∈ frames, f.Fits then some (frames.map Frame.delivered) else none := by
  induction frames generalizing s with
  | nil => simp [runLoop]
  | cons f frames ih =>
    have hstep := receive_frame receiveCmd hfd f (h : s.input = f.stream ++ framesText frames)
    by_cases hf : f.Fits
    · rw [if_pos hf] at hstep
      obtain ⟨s', hs', hrest⟩ := hstep
      simp only [List.length_cons, runLoop, hs', ih hrest, Option.bind_eq_bind, Option.bind_some]
      by_cases hall : ∀ f ∈ frames, f.Fits
      · rw [if_pos hall, if_pos (List.forall_mem_cons.2 ⟨hf, hall⟩)]
        rfl
      · rw [if_neg hall, if_neg fun h => hall (List.forall_mem_cons.1 h).2]
        rfl
    · rw [if_neg hf] at hstep
      simp [List.length_cons, runLoop, hstep, hf]

/-! ### Well-formed lines are read as they are -/

theorem isSome_numeral_of_mapM {tokens : List (List UInt8)} {numbers : List UInt8}
    (h : tokens.mapM numeral = some numbers) : ∀ t ∈ tokens, (numeral t).isSome := by
  induction tokens generalizing numbers with
  | nil => simp
  | cons t tokens ih =>
    rw [List.mapM_cons] at h
    obtain ⟨b, hb, h⟩ := Option.bind_eq_some_iff.1 h
    obtain ⟨bs, hbs, -⟩ := Option.bind_eq_some_iff.1 h
    exact List.forall_mem_cons.2 ⟨by rw [hb]; rfl, ih hbs⟩

theorem nul_notMem_of_numeral {token : List UInt8} (h : (numeral token).isSome) : 0 ∉ token := by
  rw [numeral, Option.isSome_ite] at h
  exact nul_notMem_of_strtol h.2.1

theorem readNumbers_eq_lineNumbers {keyword line : List UInt8} (hline : 0 ∉ line)
    (hhead : (line.splitOn 32).head? = some keyword) :
    readNumbers keyword line = lineNumbers keyword line := by
  obtain ⟨token, tokens, ht⟩ := List.exists_cons_of_ne_nil (List.splitOn_ne_nil 32 line)
  obtain rfl : token = keyword := by simpa [ht] using hhead
  rw [readNumbers, cstr_eq_self hline, lineNumbers, ht]
  simp [hasKeyword]

theorem exact_of_lineNumbers {keyword line numbers : List UInt8} (h0 : 0 ∉ keyword)
    (h : lineNumbers keyword line = some numbers) :
    0 ∉ line ∧ (line.splitOn 32).head? = some keyword := by
  obtain ⟨token, tokens, ht⟩ := List.exists_cons_of_ne_nil (List.splitOn_ne_nil 32 line)
  rw [lineNumbers, ht] at h
  obtain ⟨rfl, hnum⟩ : token = keyword ∧ tokens.mapM numeral = some numbers := by
    dsimp only at h
    split at h
    · next heq => exact ⟨heq, h⟩
    · cases h
  refine ⟨?_, by rw [ht]; rfl⟩
  rw [← mem_strsepTokens_iff (show (0 : UInt8) ≠ 32 by decide), strsepTokens, ht]
  rintro ⟨t, hmem, hnul⟩
  rcases List.mem_cons.1 hmem with rfl | hmem
  · exact h0 hnul
  · exact nul_notMem_of_numeral (isSome_numeral_of_mapM hnum t hmem) hnul

theorem readNumbers_of_lineNumbers {keyword line numbers : List UInt8} (h0 : 0 ∉ keyword)
    (h : lineNumbers keyword line = some numbers) : readNumbers keyword line = some numbers := by
  obtain ⟨hline, hhead⟩ := exact_of_lineNumbers h0 h
  rw [readNumbers_eq_lineNumbers hline hhead, h]

end SerialSocket

namespace Frame
open SerialSocket
variable {f : Frame} {numbers bytes : List UInt8}

theorem expected_wellFormed (h : f.WellFormed numbers bytes) :
    f.expected = if numbers = List.replicate 6 0 then [] else notices ⟨numbers, h.six⟩ bytes := by
  rw [expected, h.address, h.data]
  exact dif_pos h.six

theorem wellFormed_of_expected (h : f.expected ≠ []) :
    ∃ numbers bytes, f.WellFormed numbers bytes := by
  rw [expected] at h
  split at h
  · next numbers bytes haddress hdata =>
    split at h
    · next hsix => exact ⟨numbers, bytes, haddress, hsix, hdata⟩
    · exact absurd rfl h
  · exact absurd rfl h

theorem delivered_addressed (hr : readNumbers (ascii "ADDRESS") f.address.chars = some numbers)
    (hsix : numbers.length = 6) (hhead : numbers.headD 0 ≠ 0) :
    f.delivered = notices ⟨numbers, hsix⟩ ((readNumbers (ascii "DATA") f.data.chars).getD []) := by
  simp only [delivered, hr, addressOf, hsix, dif_pos]
  exact if_pos hhead

theorem delivered_not_addressed (h : ¬ f.Addressed) : f.delivered = [] := by
  have hhead : (addressOf (readNumbers (ascii "ADDRESS") f.address.chars)).bytes.headD 0 = 0 := by
    by_contra hne
    refine h ?_
    cases hr : readNumbers (ascii "ADDRESS") f.address.chars with
    | none => rw [hr] at hne; exact absurd rfl hne
    | some numbers =>
      rw [hr, addressOf] at hne
      by_cases hsix : numbers.length = 6
      · rw [dif_pos hsix] at hne
        exact ⟨numbers, hr, hsix, hne⟩
      · rw [dif_neg hsix] at hne
        exact absurd rfl hne
  rw [delivered]
  exact if_neg (not_not.2 hhead)

theorem Regular.wellFormed (h : f.Regular) (hfound : f.Addressed) :
    ∃ numbers bytes, f.WellFormed numbers bytes := by
  obtain ⟨hline, hhead⟩ := h.address_exact hfound
  obtain ⟨bytes, hdata⟩ := Option.isSome_iff_exists.1 (h.data_exact hfound)
  obtain ⟨numbers, hr, hsix, -⟩ := hfound
  rw [readNumbers_eq_lineNumbers hline hhead] at hr
  exact ⟨numbers, bytes, hr, hsix, hdata⟩

theorem delivered_eq_expected_iff (f : Frame) (hfits : f.Fits) :
    f.delivered = f.expected ↔ f.Regular := by
  constructor
  · intro heq
    have hwell (hfound : f.Addressed) : ∃ numbers bytes, f.WellFormed numbers bytes := by
      obtain ⟨numbers, hr, hsix, hhead⟩ := hfound
      refine wellFormed_of_expected ?_
      rw [← heq, delivered_addressed hr hsix hhead]
      exact List.cons_ne_nil _ _
    refine ⟨hfits, fun hfound => ?_, fun hfound => ?_, ?_⟩
    · obtain ⟨numbers, bytes, hw⟩ := hwell hfound
      exact exact_of_lineNumbers (by decide) hw.address
    · obtain ⟨numbers, bytes, hw⟩ := hwell hfound
      rw [hw.data]; rfl
    · intro numbers bytes hw hne hzero
      have hr := readNumbers_of_lineNumbers (by decide) hw.address
      have hnone : f.delivered = [] := by
        refine delivered_not_addressed ?_
        rintro ⟨numbers', hr', -, hhead⟩
        rw [hr] at hr'
        cases hr'
        exact hhead hzero
      rw [hnone, expected_wellFormed hw, if_neg hne] at heq
      exact List.cons_ne_nil _ _ heq.symm
  · intro hreg
    by_cases hfound : f.Addressed
    · obtain ⟨numbers, bytes, hw⟩ := hreg.wellFormed hfound
      obtain ⟨numbers', hr, hsix, hhead⟩ := hfound
      rw [readNumbers_of_lineNumbers (by decide) hw.address] at hr
      cases hr
      have hne : numbers ≠ List.replicate 6 0 := fun h => hhead (by rw [h]; rfl)
      have hr := readNumbers_of_lineNumbers (by decide) hw.address
      have hd := readNumbers_of_lineNumbers (by decide) hw.data
      rw [delivered_addressed hr hw.six hhead, hd, expected_wellFormed hw, if_neg hne]
      rfl
    · rw [delivered_not_addressed hfound]
      by_contra hne
      obtain ⟨numbers, bytes, hw⟩ := wellFormed_of_expected (Ne.symm hne)
      rw [expected_wellFormed hw] at hne
      split at hne
      · exact hne rfl
      · next hzero =>
        have hr := readNumbers_of_lineNumbers (by decide) hw.address
        exact hfound ⟨numbers, hr, hw.six, hreg.head_ne_zero numbers bytes hw hzero⟩

/-- Over any frames, whatever the socket received before: every one is delivered as it should be. -/
def Delivers (loop : SerialSocket → Option (Bool × SerialSocket × List Notice))
    (frames : List Frame) : Prop :=
  ∀ s : SerialSocket, s.input = framesText frames →
    runLoop loop frames.length s = some (frames.map Frame.expected)

theorem delivers_receive_iff (receiveCmd : List UInt8) {fd : Int} (hfd : 0 < fd)
    (frames : List Frame) :
    Delivers (fun s => s.receive receiveCmd fd) frames ↔ ∀ f ∈ frames, f.Regular := by
  constructor
  · intro h
    have hrun := h { idleSocket with input := framesText frames } rfl
    rw [runLoop_frames receiveCmd hfd frames rfl] at hrun
    split at hrun
    · next hfits =>
      intro f hf
      have heq : ∀ f ∈ frames, f.delivered = f.expected :=
        List.map_inj_left.1 (Option.some.inj hrun)
      exact (delivered_eq_expected_iff f (hfits f hf)).1 (heq f hf)
    · cases hrun
  · intro h s hs
    rw [runLoop_frames receiveCmd hfd frames hs, if_pos fun f hf => (h f hf).fits]
    congr 1
    exact List.map_congr_left fun f hf => (delivered_eq_expected_iff f (h f hf).fits).2 (h f hf)

/-- Exactly the well-formed frames are delivered, of the streams whose frames are all regular. -/
theorem delivers_well_formed_iff (socket : BridgeSocket) {fd : Int} (hfd : 0 < fd)
    (frames : List Frame) : Delivers (socket.loop fd) frames ↔ ∀ f ∈ frames, f.Regular := by
  cases socket with
  | linuxSerialSocket => exact delivers_receive_iff _ hfd frames
  | linuxTelnetSocket => exact delivers_receive_iff _ hfd frames

/-- A frame without handshake lines of its own. -/
def ofLines (address data : Line) : Frame :=
  ⟨[], address, [], data, [], by simp, by simp, by simp⟩

def plainFrame : Frame :=
  ofLines ⟨ascii "ADDRESS 10 0 0 7 7 208", by decide, by decide⟩
    ⟨ascii "DATA 2 1", by decide, by decide⟩

def garbledFrame : Frame :=
  ofLines ⟨ascii "ADDRESS 10 0 0 7 7 208", by decide, by decide⟩
    ⟨ascii "DATA 2 x", by decide, by decide⟩

theorem delivers_well_formed_iff_plain :
    Delivers (BridgeSocket.linuxSerialSocket.loop 3) [plainFrame] := by
  have hw : plainFrame.WellFormed [10, 0, 0, 7, 7, 208] [2, 1] :=
    ⟨by decide +kernel, rfl, by decide +kernel⟩
  refine (delivers_well_formed_iff .linuxSerialSocket (by decide) [plainFrame]).2 ?_
  rw [List.forall_mem_singleton]
  refine ⟨by decide +kernel, fun _ => exact_of_lineNumbers (by decide) hw.address,
    fun _ => by rw [hw.data]; rfl,
    fun numbers bytes h hne => ?_⟩
  obtain rfl : [10, 0, 0, 7, 7, 208] = numbers := Option.some.inj (hw.address.symm.trans h.address)
  decide

/-- The address is good and the data is not: an empty message is delivered. -/
theorem garbled_data_delivered :
    ¬ Delivers (BridgeSocket.linuxSerialSocket.loop 3) [garbledFrame] := by
  intro h
  have hreg := (delivers_receive_iff _ (show (0 : Int) < 3 by decide) [garbledFrame]).1 h
    garbledFrame (List.mem_singleton_self _)
  have hdata := hreg.data_exact ⟨[10, 0, 0, 7, 7, 208], by decide +kernel, rfl, by decide⟩
  revert hdata
  decide +kernel

end Frame

end SnGateway
