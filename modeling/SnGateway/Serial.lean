import SnGateway.Entries

/-!
# The serial bridge

`LinuxSerialSocket` exchanges lines of text with a bridge: a keyword and decimal numbers, separated
by spaces. A line is read into a buffer of 1024 characters that was filled with NULs, one character
after the other and without a check of the index. A line of 1024 characters leaves no terminator and
a longer one is stored behind the end of the buffer, so a reader has a defined result only for lines
that are shorter (`readLine`).
-/

namespace SnGateway
open RecordStore

/-- `sizeof(buffer)` of the line readers. -/
def LINE_BUFFER_SIZE : Nat := 1024

def UINT8_MAX : Int := 255

/-- The members of the socket that sending and receiving use, with the bytes that wait at `fd` and
those that were written to it. -/
structure SerialSocket where
  input : List UInt8
  output : List UInt8
  fromAddress : DeviceAddress
  /-- The bytes stored in the array; those behind them are 0. -/
  data : List UInt8
  dataLength : Nat
deriving DecidableEq

namespace SerialSocket

/-- The characters of the next line with its newline, and what waits behind it; `none` while the
newline is missing. -/
def nextLine : List UInt8 → Option (List UInt8 × List UInt8)
  | [] => none
  | c :: input =>
    if c = 10 then some ([c], input) else (nextLine input).map fun r => (c :: r.1, r.2)

/-- The number of characters the loop over the next line stores in its buffer. -/
def storedChars (input : List UInt8) : Nat :=
  ((nextLine input).map fun r => r.1.length).getD input.length

/-- The text in the buffer after a line was read, and what waits behind the line. -/
def readLine (input : List UInt8) : Option (List UInt8 × List UInt8) :=
  match nextLine input with
  | none => none
  | some (line, rest) => if line.length < LINE_BUFFER_SIZE then some (cstr line, rest) else none

/-- `parseLong`: the result and the number. -/
def parseLong (str : List UInt8) : Bool × Int :=
  let r := strtol 0 str
  let bad := r.converted = false ∨ (r.rest ≠ [] ∧ r.rest.head? ≠ some 10) ∨
    ((r.value = LONG_MIN ∨ r.value = LONG_MAX) ∧ r.erange = true)
  (!decide bad, r.value)

/-- `memcmp(token, keyword, strlen(keyword)) == 0`. -/
def hasKeyword (keyword token : List UInt8) : Bool := token.take keyword.length = keyword

/-- The loops over the numbers of a line: `none` when a token is not a number in 0..255, or when
there are more numbers than the destination takes; a loop without that check has no `capacity`. -/
def parseNumbers (capacity : Option Nat) : List (List UInt8) → List UInt8 → Option (List UInt8)
  | [], stored => some stored
  | token :: tokens, stored =>
    let (rc, number) := parseLong token
    if !rc then none
    else if UINT8_MAX < number ∨ number < 0 then none
    else if capacity.any fun n => n < stored.length + 1 then none
    else parseNumbers capacity tokens (stored ++ [UInt8.ofNat number.toNat])

/-- A keyword and the numbers of `bytes`, as `sendAddress` and `sendData` write them. -/
def numberLine (keyword bytes : List UInt8) : List UInt8 :=
  keyword ++ (bytes.flatMap fun b => 32 :: decimal b.toNat) ++ [10]

def sendAddress (address : DeviceAddress) (s : SerialSocket) : SerialSocket :=
  { s with output := s.output ++ numberLine (ascii "ADDRESS") address.bytes }

def sendData (buf : Payload) (s : SerialSocket) : SerialSocket :=
  { s with output := s.output ++ numberLine (ascii "DATA") buf.bytes }

/-- `none`: the reader waits for ever or its buffer overflows. Every failure leaves the address
zeroed. -/
def readSendAddress (s : SerialSocket) : Option SerialSocket :=
  match readLine s.input with
  | none => none
  | some (line, rest) =>
    let s := { s with input := rest }
    match strsepTokens 32 line with
    | [] => some { s with fromAddress := Record.zero 6 }
    | token :: tokens =>
      if !hasKeyword (ascii "ADDRESS") token then some { s with fromAddress := Record.zero 6 }
      else
        match parseNumbers (some 6) tokens [] with
        | none => some { s with fromAddress := Record.zero 6 }
        | some stored =>
          if h : stored.length = 6 then some { s with fromAddress := ⟨stored, h⟩ }
          else some { s with fromAddress := Record.zero 6 }

/-- `none` as for `readSendAddress`. Every failure leaves no data. -/
def readData (s : SerialSocket) : Option SerialSocket :=
  match readLine s.input with
  | none => none
  | some (line, rest) =>
    let s := { s with input := rest }
    match strsepTokens 32 line with
    | [] => some { s with data := [], dataLength := 0 }
    | token :: tokens =>
      if !hasKeyword (ascii "DATA") token then some { s with data := [], dataLength := 0 }
      else
        match parseNumbers none tokens [] with
        | none => some { s with data := [], dataLength := 0 }
        | some stored => some { s with data := stored, dataLength := stored.length % 2 ^ 16 }

end SerialSocket

end SnGateway
