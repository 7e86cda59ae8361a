import SnGateway.Configuration

/-!
# What the configuration leaves in the members

An answer to CONFIGURATION is a `ConfigurationAnswer`: five value lines behind their announcements.
For a well-formed one every step of `updateConfiguration` is said exactly (`step_iff`), the steps
compose, and two differences to what the bridge has sent remain: `readStatus` stores into a variable
of its own, and `readSerialBufferSize` takes no more than a `uint8_t`.
-/

namespace SnGateway
open RecordStore SerialSocket

def UINT16_MAX : Int := 65535

/-- The value of a token that is a number in 0..limit to its end. -/
def boundedNumeral (limit : Int) (token : List UInt8) : Option Nat :=
  let r := strtol 0 token
  if r.converted = true ∧ r.rest = [] ∧ 0 ≤ r.value ∧ r.value ≤ limit then
    some r.value.toNat
  else none

/-- The number of a line that consists of the keyword and a number. -/
def lineNumber (limit : Int) (keyword line : List UInt8) : Option Nat :=
  match line.splitOn 32 with
  | [first, token] => if first = keyword then boundedNumeral limit token else none
  | _ => none

/-- What a bridge reports. It may have no broadcast address. -/
structure Configuration where
  status : TransmissionProtocolUartBridgeStatus
  ownAddress : DeviceAddress
  broadcastAddress : Option DeviceAddress
  maximumMessageLength : Nat
  serialBufferSize : Nat

/-- A value line behind the line that announces it, and other lines before. -/
structure Announced (announcement : List UInt8) where
  before : List Line
  line : Line
  skipped : ∀ l ∈ before, l.text ≠ announcement

def Announced.stream {announcement : List UInt8} (a : Announced announcement) : List UInt8 :=
  linesText a.before ++ (announcement ++ a.line.text)

open ConfiguredSocket in
structure ConfigurationAnswer where
  status : Announced okSendStatus
  ownAddress : Announced okSendOwnAddress
  broadcastAddress : Announced okSendBroadcastAddress
  maximumMessageLength : Announced okSendMaximumMessageLength
  serialBufferSize : Announced okSendSerialBufferSize
  beforeIdle : List Line
  skipped_idle : ∀ l ∈ beforeIdle, l.text ≠ okIdle

namespace ConfigurationAnswer

def stream (a : ConfigurationAnswer) : List UInt8 :=
  a.status.stream ++
    (a.ownAddress.stream ++ (a.broadcastAddress.stream ++ (a.maximumMessageLength.stream ++
    (a.serialBufferSize.stream ++ (linesText a.beforeIdle ++ okIdle)))))

/-- The lines report `c`. -/
structure WellFormed (a : ConfigurationAnswer) (c : Configuration) : Prop where
  status : a.status.line.chars = ascii "STATUS" ++ 32 :: c.status.text
  ownAddress : lineNumbers (ascii "OWN_ADDRESS") a.ownAddress.line.chars = some c.ownAddress.bytes
  broadcastAddress : match c.broadcastAddress with
    | some address =>
      lineNumbers (ascii "BROADCAST_ADDRESS") a.broadcastAddress.line.chars = some address.bytes
    | none => a.broadcastAddress.line.chars = ascii "BROADCAST_ADDRESS N/A"
  maximumMessageLength :
    lineNumber UINT8_MAX (ascii "MAXIMUM_MESSAGE_LENGTH") a.maximumMessageLength.line.chars =
      some c.maximumMessageLength
  serialBufferSize :
    lineNumber UINT16_MAX (ascii "SERIAL_BUFFER_SIZE") a.serialBufferSize.line.chars =
      some c.serialBufferSize

/-- The value lines leave a terminator in their buffers. -/
def Fits (a : ConfigurationAnswer) : Prop :=
  a.status.line.text.length < LINE_BUFFER_SIZE ∧ a.ownAddress.line.text.length < LINE_BUFFER_SIZE ∧
  a.broadcastAddress.line.text.length < LINE_BUFFER_SIZE ∧
  a.maximumMessageLength.line.text.length < LINE_BUFFER_SIZE ∧
  a.serialBufferSize.line.text.length < LINE_BUFFER_SIZE

instance (a : ConfigurationAnswer) : Decidable a.Fits := inferInstanceAs (Decidable (_ ∧ _))

end ConfigurationAnswer

/-- The members hold what the bridge has reported. -/
structure HoldsConfiguration (c : Configuration) (s : ConfiguredSocket) : Prop where
  status : s.status = c.status
  ownAddress : s.ownAddress = c.ownAddress
  broadcastAddress : s.broadcastAddress = c.broadcastAddress.getD (Record.zero 6)
  maximumMessageLength : s.maximumMessageLength = c.maximumMessageLength
  serialBufferSize : s.serialBufferSize = c.serialBufferSize

/-! ### Numbers -/

theorem nul_notMem_of_boundedNumeral {limit : Int} {token : List UInt8} {n : Nat}
    (h : boundedNumeral limit token = some n) : 0 ∉ token := by
  rw [boundedNumeral] at h
  split at h
  · next hn => exact nul_notMem_of_strtol hn.2.1
  · cases h

theorem lineNumber_eq_some {limit : Int} {keyword line : List UInt8} {n : Nat}
    (h : lineNumber limit keyword line = some n) :
    ∃ token, line.splitOn 32 = [keyword, token] ∧ boundedNumeral limit token = some n := by
  rw [lineNumber] at h
  split at h
  · next first token ht =>
    split at h
    · next hfirst => exact ⟨token, by rw [ht, hfirst], h⟩
    · cases h
  · cases h

/-- What the readers see of a number they have too small a limit for. -/
theorem numeral_of_boundedNumeral {limit : Int} {token : List UInt8} {n : Nat}
    (h : boundedNumeral limit token = some n) :
    numeral token = if (n : Int) ≤ UINT8_MAX then some (UInt8.ofNat n) else none := by
  rw [boundedNumeral] at h
  split at h
  · next hn =>
    obtain ⟨hconverted, hrest, hpos, -⟩ := hn
    obtain rfl := Option.some.inj h
    rw [numeral, Int.toNat_of_nonneg hpos]
    by_cases hle : (strtol 0 token).value ≤ UINT8_MAX
    · rw [if_pos hle]
      exact if_pos ⟨hconverted, hrest, hpos, hle⟩
    · rw [if_neg hle]
      exact if_neg fun hn => hle hn.2.2.2
  · cases h

/-! ### The readers on well-formed lines -/

namespace ConfiguredSocket

variable {s s' : ConfiguredSocket} {l : Line} {rest : List UInt8} {keyword : List UInt8} {n : Nat}

theorem statusTokens_line {status : TransmissionProtocolUartBridgeStatus}
    (hl : l.chars = ascii "STATUS" ++ 32 :: status.text) (s : ConfiguredSocket) :
    statusTokens s (strsepTokens 32 (cstr l.chars)) =
      (true, { s with fromAddress := Record.zero 6 }) := by
  have htokens : strsepTokens 32 (cstr l.chars) = [ascii "STATUS", status.text] := by
    rw [hl]
    cases status <;> decide +kernel
  have hkey : hasKeyword (ascii "STATUS") (ascii "STATUS") = true := by decide
  have hfound : TransmissionProtocolUartBridgeStatus.all.find?
      (fun known => hasKeyword known.text status.text) = some status := by
    cases status <;> decide +kernel
  rw [htokens, statusTokens, hkey, if_neg (by decide)]
  dsimp only
  rw [hfound]

/-- Both readers of a number, for a number that may exceed their limit. -/
theorem numberTokens_line {limit : Int} (h0 : 0 ∉ keyword)
    (store : ConfiguredSocket → Nat → ConfiguredSocket)
    (hl : lineNumber limit keyword l.chars = some n) (s : ConfiguredSocket) :
    numberTokens keyword store s (strsepTokens 32 (cstr l.chars)) =
      if (n : Int) ≤ UINT8_MAX then (true, store s n) else (false, store s 0) := by
  obtain ⟨token, ht, hn⟩ := lineNumber_eq_some hl
  have hmem (c : UInt8) (hc : c ≠ 32) : c ∈ l.chars ↔ c ∈ keyword ∨ c ∈ token := by
    rw [← mem_strsepTokens_iff hc, strsepTokens, ht]
    simp
  have hline : 0 ∉ l.chars := fun h =>
    ((hmem 0 (by decide)).1 h).elim h0 (nul_notMem_of_boundedNumeral hn)
  have htoken : 10 ∉ token := fun h => l.noNewline ((hmem 10 (by decide)).2 (.inr h))
  have hkey : hasKeyword keyword keyword = true := by simp [hasKeyword]
  rw [cstr_eq_self hline, strsepTokens, ht, numberTokens, hkey, if_neg (by decide),
    lastNumber_one htoken,
    numeral_of_boundedNumeral hn]
  by_cases hle : (n : Int) ≤ UINT8_MAX
  · have hmax : UINT8_MAX = 255 := rfl
    have hbyte : n < UInt8.size := by
      show n < 256
      omega
    have hstored : ((n : Int) % 2 ^ 16).toNat = n := by omega
    rw [if_pos hle, if_pos hle, Option.map_some, UInt8.toNat_ofNat_of_lt' hbyte]
    dsimp only
    rw [hstored]
  · rw [if_neg hle, if_neg hle, Option.map_none]

/-! ### One step of the handshake -/

theorem check_eq_true_iff {result : Option (Bool × ConfiguredSocket)}
    {next : ConfiguredSocket → Option (Bool × ConfiguredSocket)} :
    check result next = some (true, s') ↔ ∃ t, result = some (true, t) ∧
      next t = some (true, s') := by
  rcases result with - | ⟨ok, t⟩
  · simp [check]
  · cases ok <;> simp [check]

theorem waitFor_lines {before : List Line} (awaited : Awaited)
    (hb : ∀ l ∈ before, l.text ≠ awaited.text)
    (h : s.input = linesText before ++ (awaited.text ++ rest)) :
    waitFor awaited.text s = some (true, { s with input := rest }) := by
  rw [waitFor, liftSocket, SerialSocket.waitFor_lines awaited hb h]
  rfl

/-- The announcement has come and the reader is at its line. -/
theorem step_iff {announcement : List UInt8} (awaited : Awaited)
    (htext : awaited.text = announcement) (a : Announced announcement)
    {read next : ConfiguredSocket → Option (Bool × ConfiguredSocket)} {good : Prop}
    {store : ConfiguredSocket → ConfiguredSocket}
    (hread : ∀ s t : ConfiguredSocket, s.input = a.line.text ++ rest →
      (read s = some (true, t) ↔ good ∧ t = store s))
    (h : s.input = a.stream ++ rest) :
    check (waitFor announcement s) (fun s => check (read s) next) = some (true, s') ↔
      good ∧ next (store { s with input := a.line.text ++ rest }) = some (true, s') := by
  subst htext
  rw [Announced.stream, List.append_assoc, List.append_assoc] at h
  rw [check_eq_true_iff, waitFor_lines awaited a.skipped h]
  constructor
  · rintro ⟨t, ht, hnext⟩
    cases ht
    obtain ⟨t, ht, hnext⟩ := check_eq_true_iff.1 hnext
    obtain ⟨hgood, rfl⟩ := (hread _ t rfl).1 ht
    exact ⟨hgood, hnext⟩
  · rintro ⟨hgood, hnext⟩
    exact ⟨_, rfl, check_eq_true_iff.2 ⟨_, (hread _ _ rfl).2 ⟨hgood, rfl⟩, hnext⟩⟩

theorem lineReader_iff {body : ConfiguredSocket → List (List UInt8) → Bool × ConfiguredSocket}
    (hbody : ∀ s, IgnoresNewline (body s)) (h : s.input = l.text ++ rest) :
    lineReader body s = some (true, s') ↔ l.text.length < LINE_BUFFER_SIZE ∧
      body { s with input := rest } (strsepTokens 32 (cstr l.chars)) = (true, s') := by
  rw [lineReader_line hbody h]
  by_cases hlen : l.text.length < LINE_BUFFER_SIZE
  · simp [hlen]
  · simp [hlen]

theorem readStatus_iff {status : TransmissionProtocolUartBridgeStatus}
    (hl : l.chars = ascii "STATUS" ++ 32 :: status.text) (s t : ConfiguredSocket)
    (h : s.input = l.text ++ rest) :
    s.readStatus = some (true, t) ↔
      l.text.length < LINE_BUFFER_SIZE ∧
      t = { s with input := rest, fromAddress := Record.zero 6 } := by
  rw [readStatus, lineReader_iff ignoresNewline_status h, statusTokens_line hl, Prod.mk.injEq,
    eq_comm (b := t)]
  exact and_congr_right fun _ => and_iff_right rfl

theorem readOwnAddress_iff {address : DeviceAddress}
    (hl : lineNumbers (ascii "OWN_ADDRESS") l.chars = some address.bytes) (s t : ConfiguredSocket)
    (h : s.input = l.text ++ rest) :
    s.readOwnAddress = some (true, t) ↔
      l.text.length < LINE_BUFFER_SIZE ∧ t = { s with input := rest, ownAddress := address } := by
  have hsix := address.size_eq
  rw [readOwnAddress, lineReader_iff ignoresNewline_ownAddress h, ownAddressTokens_line,
    readNumbers_of_lineNumbers (by decide) hl]
  dsimp only
  rw [if_neg (Nat.not_lt.2 hsix.le), if_pos hsix, Record.fill_bytes, Prod.mk.injEq,
    eq_comm (b := t)]
  exact and_congr_right fun _ => and_iff_right rfl

theorem readBroadcastAddress_iff {address : Option DeviceAddress}
    (hl : match address with
      | some address => lineNumbers (ascii "BROADCAST_ADDRESS") l.chars = some address.bytes
      | none =>
        l.chars = ascii "BROADCAST_ADDRESS N/A") (s t : ConfiguredSocket)
          (h : s.input = l.text ++ rest) :
    s.readBroadcastAddress = some (true, t) ↔ l.text.length < LINE_BUFFER_SIZE ∧
      t = { s with input := rest, broadcastAddress := address.getD (Record.zero 6) } := by
  have hbody (s : ConfiguredSocket) : broadcastAddressTokens s (strsepTokens 32 (cstr l.chars)) =
      (true, { s with broadcastAddress := address.getD (Record.zero 6) }) := by
    cases address with
    | none =>
      have htokens : strsepTokens 32 (cstr l.chars) = [ascii "BROADCAST_ADDRESS", ascii "N/A"] := by
        rw [hl]
        decide +kernel
      have hparse : parseAddress [ascii "N/A"] [] = .notAvailable := by decide +kernel
      have hkey : hasKeyword (ascii "BROADCAST_ADDRESS") (ascii "BROADCAST_ADDRESS") = true := by
        decide +kernel
      rw [htokens, broadcastAddressTokens, hkey, if_neg (by decide), hparse]
      rfl
    | some address =>
      obtain ⟨ok, htokens, hok⟩ := broadcastAddressTokens_line l s
      rw [readNumbers_of_lineNumbers (by decide) hl] at htokens hok
      rw [htokens, hok _ rfl address.size_eq]
      congr 2
      exact dif_pos address.size_eq
  rw [readBroadcastAddress, lineReader_iff ignoresNewline_broadcastAddress h, hbody, Prod.mk.injEq,
    eq_comm (b := t)]
  exact and_congr_right fun _ => and_iff_right rfl

/-- Both readers of a number, for a number that may exceed their limit. -/
theorem numberReader_iff {limit : Int} (h0 : 0 ∉ keyword) (h10 : 10 ∉ keyword)
    (store : ConfiguredSocket → Nat → ConfiguredSocket)
    (hl : lineNumber limit keyword l.chars = some n) (s t : ConfiguredSocket)
    (h : s.input = l.text ++ rest) :
    lineReader (numberTokens keyword store) s = some (true, t) ↔
      (l.text.length < LINE_BUFFER_SIZE ∧ (n : Int) ≤ UINT8_MAX) ∧
      t = store { s with input := rest } n := by
  rw [lineReader_iff (ignoresNewline_number h10 store) h, numberTokens_line h0 store hl, and_assoc]
  refine and_congr_right fun _ => ?_
  by_cases hle : (n : Int) ≤ UINT8_MAX
  · rw [if_pos hle, Prod.mk.injEq, eq_comm (b := t)]
    exact and_congr_left fun _ => ⟨fun _ => hle, fun _ => rfl⟩
  · simp [hle]

theorem le_of_lineNumber {limit : Int} (hl : lineNumber limit keyword l.chars = some n) :
    (n : Int) ≤ limit := by
  obtain ⟨token, -, hn⟩ := lineNumber_eq_some hl
  rw [boundedNumeral] at hn
  split at hn
  · next h =>
    obtain rfl := Option.some.inj hn
    rw [Int.toNat_of_nonneg h.2.2.1]
    exact h.2.2.2
  · cases hn

theorem readMaximumMessageLength_iff
    (hl : lineNumber UINT8_MAX (ascii "MAXIMUM_MESSAGE_LENGTH") l.chars = some n)
    (s t : ConfiguredSocket) (h : s.input = l.text ++ rest) :
    s.readMaximumMessageLength = some (true, t) ↔
      l.text.length < LINE_BUFFER_SIZE ∧
      t = { s with input := rest, maximumMessageLength := n } := by
  have hiff :=
    numberReader_iff (by decide) (by decide) (fun s n => { s with maximumMessageLength := n }) hl s
      t h
  rw [and_iff_left (le_of_lineNumber hl)] at hiff
  exact hiff

theorem readSerialBufferSize_iff
    (hl : lineNumber UINT16_MAX (ascii "SERIAL_BUFFER_SIZE") l.chars = some n)
    (s t : ConfiguredSocket) (h : s.input = l.text ++ rest) :
    s.readSerialBufferSize = some (true, t) ↔
      (l.text.length < LINE_BUFFER_SIZE ∧ (n : Int) ≤ UINT8_MAX) ∧
      t = { s with input := rest, serialBufferSize := n } :=
  numberReader_iff (by decide) (by decide) (fun s n => { s with serialBufferSize := n }) hl s t h

def statusAnnouncement : Awaited :=
  ⟨⟨ascii "OK SEND_STATUS", by decide, by decide⟩, by decide, by decide⟩
def ownAddressAnnouncement : Awaited :=
  ⟨⟨ascii "OK SEND_OWN_ADDRESS", by decide, by decide⟩, by decide, by decide⟩

def broadcastAddressAnnouncement : Awaited :=
  ⟨⟨ascii "OK SEND_BROADCAST_ADDRESS", by decide, by decide⟩, by decide, by decide⟩

def maximumMessageLengthAnnouncement : Awaited :=
  ⟨⟨ascii "OK SEND_MAXIMUM_MESSAGE_LENGTH", by decide, by decide⟩, by decide, by decide⟩

def serialBufferSizeAnnouncement : Awaited :=
  ⟨⟨ascii "OK SEND_SERIAL_BUFFER_SIZE", by decide, by decide⟩, by decide, by decide⟩

/-- What `updateConfiguration` makes of a well-formed answer. -/
theorem configure_iff (configurationCmd : List UInt8) {a : ConfigurationAnswer} {c : Configuration}
    (hw : a.WellFormed c) (h : s.input = a.stream ++ rest) :
    configure configurationCmd s = some (true, s') ↔
      (a.Fits ∧ (c.serialBufferSize : Int) ≤ UINT8_MAX) ∧
      s' = { s with
        input := rest
        output := s.output ++ configurationCmd
        fromAddress := Record.zero 6
        ownAddress := c.ownAddress
        broadcastAddress := c.broadcastAddress.getD (Record.zero 6)
        maximumMessageLength := c.maximumMessageLength
        serialBufferSize := c.serialBufferSize } := by
  have hstatusText : statusAnnouncement.text = okSendStatus := rfl
  have hownText : ownAddressAnnouncement.text = okSendOwnAddress := rfl
  have hbroadcastText : broadcastAddressAnnouncement.text = okSendBroadcastAddress := rfl
  have hlengthText : maximumMessageLengthAnnouncement.text = okSendMaximumMessageLength := rfl
  have hsizeText : serialBufferSizeAnnouncement.text = okSendSerialBufferSize := rfl
  have hidle (t : ConfiguredSocket) (ht : t.input = linesText a.beforeIdle ++ (okIdle ++ rest)) :
      waitFor okIdle t = some (true, { t with input := rest }) :=
        waitFor_lines idleLine a.skipped_idle ht
  rw [ConfigurationAnswer.stream] at h
  simp only [List.append_assoc] at h
  rw [configure]
  refine Iff.trans (step_iff statusAnnouncement hstatusText a.status (readStatus_iff hw.status) h)
    ?_
  dsimp only
  refine Iff.trans (and_congr_right fun _ =>
    step_iff ownAddressAnnouncement hownText a.ownAddress (readOwnAddress_iff hw.ownAddress) rfl) ?_
  dsimp only
  refine Iff.trans (and_congr_right fun _ => and_congr_right fun _ =>
    step_iff broadcastAddressAnnouncement hbroadcastText a.broadcastAddress
      (readBroadcastAddress_iff hw.broadcastAddress) rfl) ?_
  dsimp only
  refine Iff.trans (and_congr_right fun _ => and_congr_right fun _ => and_congr_right fun _ =>
    step_iff maximumMessageLengthAnnouncement hlengthText a.maximumMessageLength
      (readMaximumMessageLength_iff hw.maximumMessageLength) rfl) ?_
  dsimp only
  refine Iff.trans (and_congr_right fun _ => and_congr_right fun _ => and_congr_right fun _ =>
    and_congr_right fun _ =>
    step_iff serialBufferSizeAnnouncement hsizeText a.serialBufferSize
      (readSerialBufferSize_iff hw.serialBufferSize) rfl) ?_
  dsimp only
  rw [hidle _ rfl, Option.some.injEq, Prod.mk.injEq, ConfigurationAnswer.Fits]
  constructor
  · rintro ⟨hstatus, hown, hbroadcast, hlength, ⟨hsize, hle⟩, -, rfl⟩
    exact ⟨⟨⟨hstatus, hown, hbroadcast, hlength, hsize⟩, hle⟩, rfl⟩
  · rintro ⟨⟨⟨hstatus, hown, hbroadcast, hlength, hsize⟩, hle⟩, rfl⟩
    exact ⟨hstatus, hown, hbroadcast, hlength, ⟨hsize, hle⟩, rfl, rfl⟩

theorem configure_configured_iff (configurationCmd : List UInt8) {a : ConfigurationAnswer}
    {c : Configuration} (hw : a.WellFormed c) (h : s.input = a.stream ++ rest) :
    (∃ s', configure configurationCmd s = some (true, s') ∧ HoldsConfiguration c s') ↔
      a.Fits ∧ s.status = c.status ∧ (c.serialBufferSize : Int) ≤ UINT8_MAX := by
  constructor
  · rintro ⟨s', hs', hc⟩
    obtain ⟨⟨hfits, hle⟩, rfl⟩ := (configure_iff configurationCmd hw h).1 hs'
    exact ⟨hfits, hc.status, hle⟩
  · rintro ⟨hfits, hstatus, hle⟩
    exact ⟨_, (configure_iff configurationCmd hw h).2 ⟨⟨hfits, hle⟩, rfl⟩, hstatus, rfl,
      rfl, rfl, rfl⟩

end ConfiguredSocket

/-- The handshake succeeds with everything in its member if and only if the buffers hold the lines,
the status is the one the member has already, and the buffer size is small. -/
theorem BridgeSocket.updateConfiguration_iff (socket : BridgeSocket) (a : ConfigurationAnswer)
    (c : Configuration) (s : ConfiguredSocket) (rest : List UInt8) (hw : a.WellFormed c)
    (h : s.input = a.stream ++ rest) :
    (∃ s', socket.updateConfiguration s = some (true, s') ∧ HoldsConfiguration c s') ↔
      a.Fits ∧ s.status = c.status ∧ (c.serialBufferSize : Int) ≤ UINT8_MAX := by
  cases socket with
  | linuxSerialSocket => exact ConfiguredSocket.configure_configured_iff _ hw h
  | linuxTelnetSocket => exact ConfiguredSocket.configure_configured_iff _ hw h

namespace ConfigurationAnswer

theorem skipped_nil (announcement : List UInt8) : ∀ l ∈ ([] : List Line),
    l.text ≠ announcement := by
  simp

/-- An answer without other lines. -/
def ofLines (status ownAddress broadcastAddress maximumMessageLength serialBufferSize : Line) :
    ConfigurationAnswer where
  status := ⟨[], status, skipped_nil _⟩
  ownAddress := ⟨[], ownAddress, skipped_nil _⟩
  broadcastAddress := ⟨[], broadcastAddress, skipped_nil _⟩
  maximumMessageLength := ⟨[], maximumMessageLength, skipped_nil _⟩
  serialBufferSize := ⟨[], serialBufferSize, skipped_nil _⟩
  beforeIdle := []
  skipped_idle := skipped_nil _

def startingBridge : Configuration := ⟨.starting, bridgeAddress, none, 30, 255⟩

/-- Idle, with a larger buffer. -/
def idleBridge : Configuration := ⟨.idle, bridgeAddress, none, 30, 512⟩

def startingAnswer : ConfigurationAnswer :=
  ofLines ⟨ascii "STATUS STARTING", by decide, by decide⟩
    ⟨ascii "OWN_ADDRESS 10 0 0 7 7 208", by decide, by decide⟩
    ⟨ascii "BROADCAST_ADDRESS N/A", by decide, by decide⟩
    ⟨ascii "MAXIMUM_MESSAGE_LENGTH 30", by decide, by decide⟩
    ⟨ascii "SERIAL_BUFFER_SIZE 255", by decide, by decide⟩

def idleAnswer : ConfigurationAnswer :=
  ofLines ⟨ascii "STATUS IDLE", by decide, by decide⟩
    ⟨ascii "OWN_ADDRESS 10 0 0 7 7 208", by decide, by decide⟩
    ⟨ascii "BROADCAST_ADDRESS N/A", by decide, by decide⟩
    ⟨ascii "MAXIMUM_MESSAGE_LENGTH 30", by decide, by decide⟩
    ⟨ascii "SERIAL_BUFFER_SIZE 512", by decide, by decide⟩

theorem startingAnswer_wellFormed : startingAnswer.WellFormed startingBridge :=
  ⟨rfl, by decide +kernel, rfl, by decide +kernel, by decide +kernel⟩

theorem idleAnswer_wellFormed : idleAnswer.WellFormed idleBridge :=
  ⟨rfl, by decide +kernel, rfl, by decide +kernel, by decide +kernel⟩

theorem updateConfiguration_iff_starting :
    ∃ s', BridgeSocket.linuxSerialSocket.updateConfiguration (newSocket startingAnswer.stream) =
      some (true, s') ∧
      HoldsConfiguration startingBridge s' :=
  (BridgeSocket.updateConfiguration_iff .linuxSerialSocket startingAnswer startingBridge
    (newSocket startingAnswer.stream) [] startingAnswer_wellFormed (List.append_nil _).symm).2
    ⟨by decide, rfl, by decide⟩

/-- The size is refused, and the status would not have been stored. -/
theorem idle_bridge_refused :
    idleAnswer.WellFormed idleBridge ∧
      ¬ ∃ s', BridgeSocket.linuxSerialSocket.updateConfiguration (newSocket idleAnswer.stream) =
      some (true, s') ∧
        HoldsConfiguration idleBridge s' := by
  have hinput : (newSocket idleAnswer.stream).input = idleAnswer.stream ++ [] :=
    (List.append_nil _).symm
  refine ⟨idleAnswer_wellFormed, fun h => ?_⟩
  have hiff := ConfiguredSocket.configure_configured_iff (ascii "CONFIGURATION\n")
    idleAnswer_wellFormed hinput
  obtain ⟨-, -, hsize⟩ := hiff.1 h
  exact absurd hsize (by decide)

end ConfigurationAnswer

end SnGateway
