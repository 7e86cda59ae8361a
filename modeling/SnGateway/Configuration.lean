import SnGateway.Receive

/-!
# The configuration of the bridge

`updateConfiguration` of `LinuxSerialSocket` and `LinuxTelnetSocket`: the bridge answers
CONFIGURATION with five lines, each announced by a line of its own, and five readers store what is
in them. The readers take their line apart with `strsep`; the newline sticks to the last token,
where none of them sees it (`lineReader_line`).
-/

namespace SnGateway
open RecordStore SerialSocket

inductive TransmissionProtocolUartBridgeStatus where
  | starting
  | idle
  | send
  | receive
  | configuration
  | parseFailure
  | error
deriving DecidableEq

namespace TransmissionProtocolUartBridgeStatus

def text : TransmissionProtocolUartBridgeStatus → List UInt8
  | starting => ascii "STARTING"
  | idle => ascii "IDLE"
  | send => ascii "SEND"
  | receive => ascii "RECEIVE"
  | configuration => ascii "CONFIGURATION"
  | parseFailure => ascii "PARSE_FAILURE"
  | error => ascii "ERROR"

/-- In the order of the comparisons. -/
def all : List TransmissionProtocolUartBridgeStatus :=
  [starting, idle, send, receive, configuration, parseFailure, error]

end TransmissionProtocolUartBridgeStatus

/-- The socket with the members for the configuration. -/
structure ConfiguredSocket extends SerialSocket where
  ownAddress : DeviceAddress
  broadcastAddress : DeviceAddress
  maximumMessageLength : Nat
  serialBufferSize : Nat
  status : TransmissionProtocolUartBridgeStatus
deriving DecidableEq

namespace ConfiguredSocket

/-- The loop of a reader over its line, then what it does with the tokens. -/
def lineReader (body : ConfiguredSocket → List (List UInt8) → Bool × ConfiguredSocket)
    (s : ConfiguredSocket) : Option (Bool × ConfiguredSocket) :=
  match SerialSocket.readLine s.input with
  | none => none
  | some (line, rest) => some (body { s with input := rest } (strsepTokens 32 line))

def statusTokens (s : ConfiguredSocket) : List (List UInt8) → Bool × ConfiguredSocket
  | [] => (false, { s with status := .error })
  | token :: tokens =>
    if !hasKeyword (ascii "STATUS") token then (false, { s with status := .error })
    else
      let s := { s with fromAddress := Record.zero 6 }
      match tokens with
      | [] => (true, s)
      | token :: _ =>
        match TransmissionProtocolUartBridgeStatus.all.find? fun status =>
          hasKeyword status.text token with
        | none => (false, s)
        -- `uint8_t status` of this block hides the member
        | some _ => (true, s)

/-- How the loop over the numbers of an address ends. -/
inductive AddressNumbers where
  | notAvailable
  | refused
  | numbers (stored : List UInt8)
deriving DecidableEq

def parseAddress : List (List UInt8) → List UInt8 → AddressNumbers
  | [], stored => .numbers stored
  | token :: tokens, stored =>
    if hasKeyword (ascii "N/A") token then .notAvailable
    else
      let (rc, number) := parseLong token
      if !rc then .refused
      else if UINT8_MAX < number ∨ number < 0 then .refused
      else if 6 < stored.length + 1 then .refused
      else parseAddress tokens (stored ++ [UInt8.ofNat number.toNat])

/-- The numbers go into the zeroed member one by one. Where there are too few, another member is
cleared. -/
def ownAddressTokens (s : ConfiguredSocket) : List (List UInt8) → Bool × ConfiguredSocket
  | [] => (false, { s with ownAddress := Record.zero 6 })
  | token :: tokens =>
    if !hasKeyword (ascii "OWN_ADDRESS") token then (false, { s with ownAddress := Record.zero 6 })
    else
      match parseAddress tokens [] with
      | .notAvailable => (false, { s with ownAddress := Record.zero 6 })
      | .refused => (false, { s with ownAddress := Record.zero 6 })
      | .numbers stored =>
        let s := { s with ownAddress := Record.fill 6 stored }
        if stored.length ≠ 6 then (false, { s with fromAddress := Record.zero 6 }) else (true, s)

/-- `N/A` counts as an address of zeros. -/
def broadcastAddressTokens (s : ConfiguredSocket) : List (List UInt8) → Bool × ConfiguredSocket
  | [] => (false, { s with broadcastAddress := Record.zero 6 })
  | token :: tokens =>
    if !hasKeyword (ascii "BROADCAST_ADDRESS") token then
      (false, { s with broadcastAddress := Record.zero 6 })
    else
      match parseAddress tokens [] with
      | .notAvailable => (true, { s with broadcastAddress := Record.zero 6 })
      | .refused => (false, { s with broadcastAddress := Record.zero 6 })
      | .numbers stored =>
        if stored.length ≠ 6 then (false, { s with broadcastAddress := Record.zero 6 })
        else (true, { s with broadcastAddress := Record.fill 6 stored })

/-- The loop of the two readers of a number: the last one counts, and 0 when there is none. -/
def lastNumber : List (List UInt8) → Int → Option Int
  | [], number => some number
  | token :: tokens, _ =>
    let (rc, number) := parseLong token
    if !rc then none
    else if UINT8_MAX < number ∨ number < 0 then none
    else lastNumber tokens number

/-- A number for the member that `store` sets. -/
def numberTokens (keyword : List UInt8) (store : ConfiguredSocket → Nat → ConfiguredSocket)
    (s : ConfiguredSocket) :
    List (List UInt8) → Bool × ConfiguredSocket
  | [] => (false, store s 0)
  | token :: tokens =>
    if !hasKeyword keyword token then (false, store s 0)
    else
      match lastNumber tokens 0 with
      | none => (false, store s 0)
      | some number => (true, store s (number % 2 ^ 16).toNat)

def readStatus : ConfiguredSocket → Option (Bool × ConfiguredSocket) := lineReader statusTokens
def readOwnAddress : ConfiguredSocket → Option (Bool × ConfiguredSocket) :=
  lineReader ownAddressTokens
def readBroadcastAddress : ConfiguredSocket → Option (Bool × ConfiguredSocket) :=
  lineReader broadcastAddressTokens

def readMaximumMessageLength : ConfiguredSocket → Option (Bool × ConfiguredSocket) :=
  lineReader (numberTokens (ascii "MAXIMUM_MESSAGE_LENGTH") fun s n =>
    { s with maximumMessageLength := n })

/-- A `uint16_t` member with the limit of a `uint8_t`. -/
def readSerialBufferSize : ConfiguredSocket → Option (Bool × ConfiguredSocket) :=
  lineReader (numberTokens (ascii "SERIAL_BUFFER_SIZE") fun s n => { s with serialBufferSize := n })

/-- What sending and receiving do to the members they use. -/
def liftSocket (f : SerialSocket → Option SerialSocket) (s : ConfiguredSocket) :
    Option ConfiguredSocket :=
  (f s.toSerialSocket).map fun t => { s with toSerialSocket := t }

def readSendAddress : ConfiguredSocket → Option ConfiguredSocket :=
  liftSocket SerialSocket.readSendAddress

/-- `waitFor` does not return before the line has come. -/
def waitFor (toCompare : List UInt8) (s : ConfiguredSocket) : Option (Bool × ConfiguredSocket) :=
  (liftSocket (SerialSocket.waitFor toCompare) s).map fun s => (true, s)

/-- `if (!_) return false;` in front of what follows. -/
def check (result : Option (Bool × ConfiguredSocket))
    (next : ConfiguredSocket → Option (Bool × ConfiguredSocket)) :
    Option (Bool × ConfiguredSocket) :=
  match result with
  | none => none
  | some (true, s) => next s
  | some (false, s) => some (false, s)

def okSendStatus : List UInt8 := ascii "OK SEND_STATUS\n"
def okSendOwnAddress : List UInt8 := ascii "OK SEND_OWN_ADDRESS\n"
def okSendBroadcastAddress : List UInt8 := ascii "OK SEND_BROADCAST_ADDRESS\n"
def okSendMaximumMessageLength : List UInt8 := ascii "OK SEND_MAXIMUM_MESSAGE_LENGTH\n"
def okSendSerialBufferSize : List UInt8 := ascii "OK SEND_SERIAL_BUFFER_SIZE\n"

def configure (configurationCmd : List UInt8) (s : ConfiguredSocket) :
    Option (Bool × ConfiguredSocket) :=
  check (waitFor okSendStatus { s with output := s.output ++ configurationCmd }) fun s =>
  check (readStatus s) fun s =>
  check (waitFor okSendOwnAddress s) fun s =>
  check (readOwnAddress s) fun s =>
  check (waitFor okSendBroadcastAddress s) fun s =>
  check (readBroadcastAddress s) fun s =>
  check (waitFor okSendMaximumMessageLength s) fun s =>
  check (readMaximumMessageLength s) fun s =>
  check (waitFor okSendSerialBufferSize s) fun s =>
  check (readSerialBufferSize s) fun s =>
  waitFor okIdle s

end ConfiguredSocket

def LinuxSerialSocket.updateConfiguration : ConfiguredSocket → Option (Bool × ConfiguredSocket) :=
  ConfiguredSocket.configure (ascii "CONFIGURATION\n")

def LinuxTelnetSocket.updateConfiguration : ConfiguredSocket → Option (Bool × ConfiguredSocket) :=
  ConfiguredSocket.configure (ascii "CONFIGURATION\r\n")

def BridgeSocket.updateConfiguration :
    BridgeSocket → ConfiguredSocket → Option (Bool × ConfiguredSocket)
  | .linuxSerialSocket => LinuxSerialSocket.updateConfiguration
  | .linuxTelnetSocket => LinuxTelnetSocket.updateConfiguration

/-- A new socket, with something to read. -/
def newSocket (input : List UInt8) : ConfiguredSocket where
  toSerialSocket := { idleSocket with input := input }
  ownAddress := Record.zero 6
  broadcastAddress := Record.zero 6
  maximumMessageLength := 0
  serialBufferSize := 0
  status := .starting

/-! ### The tokens of a line -/

namespace ConfiguredSocket

/-- The newline that sticks to the last token does not matter to `f`. -/
def IgnoresNewline {α : Type} (f : List (List UInt8) → α) : Prop :=
  ∀ tokens token, f (tokens ++ [token ++ [10]]) = f (tokens ++ [token])

/-- So it does not matter to a reader that looks for its keyword first. -/
theorem IgnoresNewline.keyword {α : Type} {keyword : List UInt8} (hk : 10 ∉ keyword) {other : α}
    {g : List (List UInt8) → α} (hg : IgnoresNewline g) {f : List (List UInt8) → α}
    (hf : ∀ token tokens, f (token :: tokens) = if !hasKeyword keyword token then other
      else g tokens) : IgnoresNewline f := by
  intro tokens token
  rcases tokens with - | ⟨t, tokens⟩
  · rw [List.nil_append, List.nil_append, hf, hf, hasKeyword_concat_newline hk]
  · rw [List.cons_append, List.cons_append, hf, hf, hg]

theorem apply_tokens {α : Type} {f : List (List UInt8) → α} (hf : IgnoresNewline f) (l : Line) :
    f (strsepTokens 32 (cstr l.text)) = f (strsepTokens 32 (cstr l.chars)) := by
  rcases cstr_line l with h | h
  · rw [h]
  · obtain ⟨tokens, token, h1, h2⟩ := strsepTokens_concat (show (10 : UInt8) ≠ 32 by decide)
      (cstr l.chars)
    rw [h, h1, h2, hf]

theorem ignoresNewline_parseAddress (stored : List UInt8) :
    IgnoresNewline fun tokens => parseAddress tokens stored := by
  intro tokens token
  induction tokens generalizing stored with
  | nil =>
    simp only [List.nil_append, parseAddress, parseLong_concat_newline,
      hasKeyword_concat_newline (show (10 : UInt8) ∉ ascii "N/A" by decide)]
  | cons t tokens ih =>
    simp only at ih
    simp only [List.cons_append, parseAddress, ih]

theorem ignoresNewline_lastNumber (number : Int) :
    IgnoresNewline fun tokens => lastNumber tokens number := by
  intro tokens token
  induction tokens generalizing number with
  | nil => simp only [List.nil_append, lastNumber, parseLong_concat_newline]
  | cons t tokens ih =>
    simp only at ih
    simp only [List.cons_append, lastNumber, ih]

/-! ### The readers on a line -/

/-- `N/A` is no number. -/
theorem numeral_notAvailable {token : List UInt8} (h : hasKeyword (ascii "N/A") token = true) :
    numeral token = none := by
  obtain ⟨rest, rfl⟩ : ∃ rest, token = 78 :: rest := by
    rcases token with - | ⟨c, rest⟩
    · exact absurd h (by decide)
    · have htake : c :: rest.take 2 = [78, 47, 65] := of_decide_eq_true h
      exact ⟨rest, by rw [(List.cons.inj htake).1]⟩
  have hspace : (78 :: rest).dropWhile isSpace = 78 :: rest :=
    List.dropWhile_cons_of_neg (by decide)
  have hnot : (strtol 0 (78 :: rest)).converted = false := by
    have hdigits : (78 :: rest).takeWhile (isDigit 10) = [] :=
      List.takeWhile_cons_of_neg (by decide)
    simp [strtol, hspace, signed, selectBase, hdigits]
  simp [numeral, hnot]

theorem parseAddress_some {tokens : List (List UInt8)} (h : ∀ t ∈ tokens, 10 ∉ t)
    {numbers stored : List UInt8} (hn : tokens.mapM numeral = some numbers)
    (hs : stored.length ≤ 6) :
    parseAddress tokens stored =
      if stored.length + numbers.length ≤ 6 then .numbers (stored ++ numbers) else .refused := by
  induction tokens generalizing numbers stored with
  | nil =>
    obtain rfl : [] = numbers := by simpa using hn
    rw [parseAddress, if_pos (by simpa using hs), List.append_nil]
  | cons t tokens ih =>
    obtain ⟨ht, htokens⟩ := List.forall_mem_cons.1 h
    rw [List.mapM_cons] at hn
    obtain ⟨b, hb, hn⟩ := Option.bind_eq_some_iff.1 hn
    obtain ⟨bs, hbs, hn⟩ := Option.bind_eq_some_iff.1 hn
    cases hn
    have hkey : ¬ hasKeyword (ascii "N/A") t = true := fun hk => by
      rw [numeral_notAvailable hk] at hb
      cases hb
    have hnumeral := numeral_eq ht
    rw [hb] at hnumeral
    rw [parseAddress, if_neg hkey]
    dsimp only
    split at hnumeral
    · cases hnumeral
    · next hrc =>
      rw [if_neg hrc]
      split at hnumeral
      · cases hnumeral
      · next hrange =>
        rw [if_neg hrange, ← Option.some.inj hnumeral]
        by_cases hroom : 6 < stored.length + 1
        · rw [if_pos hroom, if_neg (by rw [List.length_cons]; omega)]
        · have hlen : (stored ++ [b]).length = stored.length + 1 := by simp
          have hsum : stored.length + 1 + bs.length = stored.length + (b :: bs).length := by
            rw [List.length_cons]
            omega
          rw [if_neg hroom, ih htokens hbs (by omega), hlen, hsum, List.append_assoc,
            List.singleton_append]

theorem parseAddress_none {tokens : List (List UInt8)} (h : ∀ t ∈ tokens, 10 ∉ t)
    (hn : tokens.mapM numeral = none) (stored : List UInt8) :
    parseAddress tokens stored = .notAvailable ∨ parseAddress tokens stored = .refused := by
  induction tokens generalizing stored with
  | nil => cases hn
  | cons t tokens ih =>
    obtain ⟨ht, htokens⟩ := List.forall_mem_cons.1 h
    rw [parseAddress]
    by_cases hkey : hasKeyword (ascii "N/A") t = true
    · exact .inl (if_pos hkey)
    · have hnumeral := numeral_eq ht
      rw [if_neg hkey]
      dsimp only
      split
      · exact .inr rfl
      · next hrc =>
        rw [if_neg hrc] at hnumeral
        split
        · exact .inr rfl
        · next hrange =>
          rw [if_neg hrange] at hnumeral
          split
          · exact .inr rfl
          · refine ih htokens ?_ _
            rw [List.mapM_cons, hnumeral] at hn
            cases hm : tokens.mapM numeral with
            | none => rfl
            | some bs => rw [hm] at hn; cases hn

theorem lastNumber_one {token : List UInt8} (h : 10 ∉ token) (number : Int) :
    lastNumber [token] number = (numeral token).map fun b => (b.toNat : Int) := by
  rw [numeral_eq h, lastNumber]
  dsimp only
  split
  · rfl
  · split
    · rfl
    · next hrange =>
      have hmax : UINT8_MAX = 255 := rfl
      have hbyte : (parseLong token).2.toNat < UInt8.size := by
        show _ < 256
        omega
      rw [lastNumber, Option.map_some, UInt8.toNat_ofNat_of_lt' hbyte]
      congr 1
      omega

variable {s : ConfiguredSocket} {l : Line} {rest : List UInt8}

theorem lineReader_line {body : ConfiguredSocket → List (List UInt8) → Bool × ConfiguredSocket}
    (hbody : ∀ s, IgnoresNewline (body s)) (h : s.input = l.text ++ rest) :
    lineReader body s = if l.text.length < LINE_BUFFER_SIZE then
      some (body { s with input := rest } (strsepTokens 32 (cstr l.chars))) else none := by
  rw [lineReader, h, readLine_line]
  by_cases hlen : l.text.length < LINE_BUFFER_SIZE
  · rw [if_pos hlen, if_pos hlen]
    exact congrArg some (apply_tokens (hbody _) l)
  · rw [if_neg hlen, if_neg hlen]

theorem ignoresNewline_ownAddress (s : ConfiguredSocket) : IgnoresNewline (ownAddressTokens s) := by
  refine IgnoresNewline.keyword (by decide) (g := fun tokens => _) (fun tokens token => ?_)
    fun token tokens => rfl
  have h := ignoresNewline_parseAddress [] tokens token
  dsimp only at h ⊢
  rw [h]

theorem ignoresNewline_broadcastAddress (s : ConfiguredSocket) :
    IgnoresNewline (broadcastAddressTokens s) := by
  refine IgnoresNewline.keyword (by decide) (g := fun tokens => _) (fun tokens token => ?_)
    fun token tokens => rfl
  have h := ignoresNewline_parseAddress [] tokens token
  dsimp only at h ⊢
  rw [h]

theorem ignoresNewline_number {keyword : List UInt8} (hk : 10 ∉ keyword)
    (store : ConfiguredSocket → Nat → ConfiguredSocket) (s : ConfiguredSocket) :
    IgnoresNewline (numberTokens keyword store s) := by
  refine IgnoresNewline.keyword hk (g := fun tokens => _) (fun tokens token => ?_)
    fun token tokens => rfl
  have h := ignoresNewline_lastNumber 0 tokens token
  dsimp only at h ⊢
  rw [h]

theorem ignoresNewline_status (s : ConfiguredSocket) : IgnoresNewline (statusTokens s) := by
  refine IgnoresNewline.keyword (by decide) (g := fun tokens => _) (fun tokens token => ?_)
    fun token tokens => rfl
  rcases tokens with - | ⟨t, tokens⟩
  · have hkey : ∀ status : TransmissionProtocolUartBridgeStatus,
        hasKeyword status.text (token ++ [10]) = hasKeyword status.text token := fun status =>
      hasKeyword_concat_newline (by cases status <;> decide) token
    simp only [List.nil_append, hkey]
  · rfl

/-- Too few numbers stay in the member. -/
theorem ownAddressTokens_line (l : Line) (s : ConfiguredSocket) :
    ownAddressTokens s (strsepTokens 32 (cstr l.chars)) =
      match readNumbers (ascii "OWN_ADDRESS") l.chars with
      | none => (false, { s with ownAddress := Record.zero 6 })
      | some numbers =>
        if 6 < numbers.length then (false, { s with ownAddress := Record.zero 6 })
        else if numbers.length = 6 then (true, { s with ownAddress := Record.fill 6 numbers })
        else
          (false,
            { s with ownAddress := Record.fill 6 numbers, fromAddress := Record.zero 6 }) := by
  obtain ⟨token, tokens, ht⟩ := List.exists_cons_of_ne_nil (List.splitOn_ne_nil 32 (cstr l.chars))
  obtain ⟨h10, hread⟩ := readNumbers_tokens ht (ascii "OWN_ADDRESS")
  rw [strsepTokens, ht, hread, ownAddressTokens]
  cases hasKeyword (ascii "OWN_ADDRESS") token with
  | false => rfl
  | true =>
    rw [if_neg (by simp), if_pos rfl]
    cases hm : tokens.mapM numeral with
    | none => rcases parseAddress_none h10 hm [] with hp | hp <;> rw [hp]
    | some numbers =>
      rw [parseAddress_some h10 hm (Nat.zero_le _), List.length_nil, Nat.zero_add, List.nil_append]
      dsimp only
      by_cases hle : numbers.length ≤ 6
      · rw [if_pos hle, if_neg (Nat.not_lt.2 hle)]
        by_cases hsix : numbers.length = 6
        · rw [if_pos hsix]
          exact if_neg (not_not.2 hsix)
        · rw [if_neg hsix]
          exact if_pos hsix
      · rw [if_neg hle, if_pos (Nat.lt_of_not_le hle)]

theorem broadcastAddressTokens_line (l : Line) (s : ConfiguredSocket) :
    ∃ ok, broadcastAddressTokens s (strsepTokens 32 (cstr l.chars)) =
        (ok,
          { s with
            broadcastAddress := addressOf (readNumbers (ascii "BROADCAST_ADDRESS") l.chars) }) ∧
      ∀ numbers, readNumbers (ascii "BROADCAST_ADDRESS") l.chars = some numbers →
      numbers.length = 6 → ok = true := by
  obtain ⟨token, tokens, ht⟩ := List.exists_cons_of_ne_nil (List.splitOn_ne_nil 32 (cstr l.chars))
  obtain ⟨h10, hread⟩ := readNumbers_tokens ht (ascii "BROADCAST_ADDRESS")
  rw [strsepTokens, ht, hread, broadcastAddressTokens]
  cases hasKeyword (ascii "BROADCAST_ADDRESS") token with
  | false => exact ⟨false, rfl, by simp⟩
  | true =>
    rw [if_neg (by simp), if_pos rfl]
    cases hm : tokens.mapM numeral with
    | none =>
      rcases parseAddress_none h10 hm [] with hp | hp <;> exact ⟨_, by rw [hp]; rfl, by simp⟩
    | some numbers =>
      rw [parseAddress_some h10 hm (Nat.zero_le _), List.length_nil, Nat.zero_add, List.nil_append]
      by_cases hsix : numbers.length = 6
      · have hfill : Record.fill 6 numbers = ⟨numbers, hsix⟩ := Record.fill_bytes ⟨numbers, hsix⟩
        exact ⟨true, by simp [hsix, addressOf, hfill], fun _ _ _ => rfl⟩
      · by_cases hle : numbers.length ≤ 6
        · exact ⟨false, by simp [hle, hsix, addressOf], by simp [hsix]⟩
        · exact ⟨false, by simp [hle, hsix, addressOf], by simp [hsix]⟩

theorem readSendAddress_line (h : s.input = l.text ++ rest)
    (hlen : l.text.length < LINE_BUFFER_SIZE) :
    s.readSendAddress =
      some { s with
        input := rest, fromAddress := addressOf (readNumbers (ascii "ADDRESS") l.chars) } := by
  rw [readSendAddress, liftSocket, SerialSocket.readSendAddress_line h hlen]
  rfl

end ConfiguredSocket

end SnGateway
