import SnGateway.LineLoops

/-!
# Sending over the bridge

`send` of `LinuxSerialSocket` and `LinuxTelnetSocket` gives the bridge an address and data when it
asks for them. It drops what its calls of `waitFor` return, so the place in the stream alone keeps
it in step: it returns on the streams in which the four lines come in this order, and nothing behind
the last one is read (`BridgeSocket.send_eq_some_iff`).
-/

namespace SnGateway
open RecordStore

namespace SerialSocket

def okAwaitAddress : List UInt8 := ascii "OK AWAIT_ADDRESS\n"
def okAwaitData : List UInt8 := ascii "OK AWAIT_DATA\n"
def okSending : List UInt8 := ascii "OK SENDING\n"

def waitForOkAwaitAddress (s : SerialSocket) : Option SerialSocket := s.waitFor okAwaitAddress
def waitForOkAwaitData (s : SerialSocket) : Option SerialSocket := s.waitFor okAwaitData
def waitForOkSending (s : SerialSocket) : Option SerialSocket := s.waitFor okSending

def write (bytes : List UInt8) (s : SerialSocket) : SerialSocket :=
  { s with output := s.output ++ bytes }

/-- `numberLine` with the termination of the class. -/
def commandLine (cmdTermination keyword bytes : List UInt8) : List UInt8 :=
  keyword ++ (bytes.flatMap fun b => 32 :: decimal b.toNat) ++ cmdTermination

/-- The `send` of both classes. `sendData` takes the length as a `uint8_t`. -/
def send (sendCmd cmdTermination : List UInt8) (destination : DeviceAddress) (bytes : List UInt8)
    (s : SerialSocket) : Option (Bool × SerialSocket) := do
  let s := s.write sendCmd
  let s ← s.waitForOkAwaitAddress
  let s := s.write (commandLine cmdTermination (ascii "ADDRESS") destination.bytes)
  let s ← s.waitForOkAwaitData
  let s := s.write (commandLine cmdTermination (ascii "DATA") (bytes.take (bytes.length % 2 ^ 8)))
  let s ← s.waitForOkSending
  let s ← s.waitForOKIdle
  some (true, s)

/-- What `send` writes. -/
def sentText (sendCmd cmdTermination : List UInt8) (destination : DeviceAddress)
    (bytes : List UInt8) : List UInt8 :=
  sendCmd ++ commandLine cmdTermination (ascii "ADDRESS") destination.bytes ++
    commandLine cmdTermination (ascii "DATA") (bytes.take (bytes.length % 2 ^ 8))

end SerialSocket

def LinuxSerialSocket.send (destination : DeviceAddress) (bytes : List UInt8) (s : SerialSocket) :
    Option (Bool × SerialSocket) :=
  s.send (ascii "SEND\n") (ascii "\n") destination bytes

def LinuxTelnetSocket.send (destination : DeviceAddress) (bytes : List UInt8) (s : SerialSocket) :
    Option (Bool × SerialSocket) :=
  s.send (ascii "SEND\r\n") (ascii "\r\n") destination bytes

def BridgeSocket.send :
    BridgeSocket → DeviceAddress → List UInt8 → SerialSocket → Option (Bool × SerialSocket)
  | .linuxSerialSocket => LinuxSerialSocket.send
  | .linuxTelnetSocket => LinuxTelnetSocket.send

/-- The first line that is awaited, behind others. -/
structure FirstLine (awaited : Awaited) where
  before : List Line
  skipped : awaited.toLine ∉ before

def FirstLine.stream {awaited : Awaited} (f : FirstLine awaited) : List UInt8 :=
  linesText f.before ++ awaited.text

namespace SerialSocket

def awaitAddressLine : Awaited :=
  ⟨⟨ascii "OK AWAIT_ADDRESS", by decide, by decide⟩, by decide, by decide⟩
def awaitDataLine : Awaited := ⟨⟨ascii "OK AWAIT_DATA", by decide, by decide⟩, by decide, by decide⟩
def sendingLine : Awaited := ⟨⟨ascii "OK SENDING", by decide, by decide⟩, by decide, by decide⟩

/-- What a bridge says that takes a message. -/
structure SendAnswer where
  awaitAddress : FirstLine awaitAddressLine
  awaitData : FirstLine awaitDataLine
  sending : FirstLine sendingLine
  idle : FirstLine idleLine

def SendAnswer.stream (a : SendAnswer) : List UInt8 :=
  a.awaitAddress.stream ++ (a.awaitData.stream ++ (a.sending.stream ++ a.idle.stream))

variable {s s' : SerialSocket}

/-- `waitFor` returns exactly behind a first line. -/
theorem waitFor_eq_some_iff (awaited : Awaited) :
    s.waitFor awaited.text = some s' ↔
      ∃ (f : FirstLine awaited) (rest : List UInt8), s.input = f.stream ++ rest ∧
      s' = { s with input := rest } := by
  constructor
  · intro h
    obtain ⟨rest, hrest, rfl⟩ := Option.map_eq_some_iff.1 h
    obtain ⟨before, l, heq, hl, hbefore⟩ := lines_of_awaitLine List.not_mem_nil hrest
    have hskipped : awaited.toLine ∉ before := fun hmem =>
      Bool.false_ne_true
        ((hbefore _ hmem).symm.trans ((isAwaited_iff awaited.nul_notMem_text _).2 rfl))
    rw [(isAwaited_iff awaited.nul_notMem_text l.text).1 hl] at heq
    exact ⟨⟨before, hskipped⟩, rest, by rw [FirstLine.stream, List.append_assoc]; exact heq, rfl⟩
  · rintro ⟨f, rest, hs, rfl⟩
    rw [FirstLine.stream, List.append_assoc] at hs
    exact waitFor_lines awaited (Awaited.text_ne_of_notMem f.skipped) hs

theorem waitFor_bind_eq_some_iff {β : Type} (awaited : Awaited) {next : SerialSocket → Option β}
    {r : β} :
    (s.waitFor awaited.text).bind next = some r ↔
      ∃ (f : FirstLine awaited) (rest : List UInt8), s.input = f.stream ++ rest ∧
      next { s with input := rest } = some r := by
  rw [Option.bind_eq_some_iff]
  constructor
  · rintro ⟨s', hs', hnext⟩
    obtain ⟨f, rest, hs, rfl⟩ := (waitFor_eq_some_iff awaited).1 hs'
    exact ⟨f, rest, hs, hnext⟩
  · rintro ⟨f, rest, hs, hnext⟩
    exact ⟨_, (waitFor_eq_some_iff awaited).2 ⟨f, rest, hs, rfl⟩, hnext⟩

theorem send_eq_some_iff (sendCmd cmdTermination : List UInt8) (destination : DeviceAddress)
    (bytes : List UInt8) {r : Bool × SerialSocket} :
    s.send sendCmd cmdTermination destination bytes = some r ↔
      ∃ (a : SendAnswer) (rest : List UInt8), s.input = a.stream ++ rest ∧
        r = (true,
          { s with
            input := rest,
            output := s.output ++ sentText sendCmd cmdTermination destination bytes }) := by
  show ((s.write sendCmd).waitFor awaitAddressLine.text).bind (fun s =>
    ((s.write (commandLine cmdTermination (ascii "ADDRESS") destination.bytes)).waitFor
      awaitDataLine.text).bind fun s =>
    ((s.write
      (commandLine cmdTermination (ascii "DATA") (bytes.take (bytes.length % 2 ^ 8)))).waitFor
      sendingLine.text).bind fun s =>
    (s.waitFor idleLine.text).bind fun s => some (true, s)) = some r ↔ _
  simp only [waitFor_bind_eq_some_iff, write, Option.some.injEq,
    sentText, ← List.append_assoc s.output]
  constructor
  · rintro ⟨address, _, hs, data, _, rfl, sending, _, rfl, idle, rest, rfl, rfl⟩
    refine ⟨⟨address, data, sending, idle⟩, rest, ?_, rfl⟩
    simpa [SendAnswer.stream] using hs
  · rintro ⟨a, rest, hs, rfl⟩
    refine ⟨a.awaitAddress, _, ?_, a.awaitData, _, rfl, a.sending, _, rfl, a.idle, rest, rfl, rfl⟩
    simpa [SendAnswer.stream] using hs

end SerialSocket

def BridgeSocket.sentText : BridgeSocket → DeviceAddress → List UInt8 → List UInt8
  | .linuxSerialSocket => SerialSocket.sentText (ascii "SEND\n") (ascii "\n")
  | .linuxTelnetSocket => SerialSocket.sentText (ascii "SEND\r\n") (ascii "\r\n")

/-- `send` returns for the answers of a bridge that takes the message, and the next line is read
from behind the answer. -/
theorem BridgeSocket.send_eq_some_iff (socket : BridgeSocket) (destination : DeviceAddress)
    (bytes : List UInt8) {s : SerialSocket} {r : Bool × SerialSocket} :
    socket.send destination bytes s = some r ↔
      ∃ (a : SerialSocket.SendAnswer) (rest : List UInt8), s.input = a.stream ++ rest ∧
        r = (true,
          { s with input := rest, output := s.output ++ socket.sentText destination bytes }) := by
  cases socket <;> exact SerialSocket.send_eq_some_iff _ _ destination bytes

end SnGateway
