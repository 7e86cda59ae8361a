import SnGateway.Subscriptions

/-!
# Topic registrations and predefined topics

The `.REG` file of a client maps topic ids to names; `TOPICS.PRE` is a text file with one
`<id> <name>` per line. `read_line` is the line reader all text files go through: at most
`buffer_size` characters, the newline is consumed and not stored.
-/

namespace SnGateway
open RecordStore

/-- `readLine` into a buffer of `size` bytes: the line and what is left of the file. -/
def readLine : Nat → List UInt8 → List UInt8 × List UInt8
  | 0, c => ([], c)
  | _ + 1, [] => ([], [])
  | size + 1, ch :: c =>
    if ch = 10 then ([], c) else (ch :: (readLine size c).1, (readLine size c).2)

namespace EntryRegistration

def isEmpty (e : EntryRegistration) : Bool := e.getNat topicId = 0 ∧ e.text topicName = []

/-- `topic_id == i && strlen(topic_name) < MAXIMUM_TOPIC_NAME_LENGTH`. -/
def hasTopicId (i : UInt16) (e : EntryRegistration) : Bool :=
  e.getNat topicId = i.toNat ∧ (e.text topicName).length < MAXIMUM_TOPIC_NAME_LENGTH

def hasName (t : CString) (e : EntryRegistration) : Bool :=
  e.getNat topicId ≠ 0 ∧ (e.text topicName).length < MAXIMUM_TOPIC_NAME_LENGTH ∧
    e.text topicName = t.bytes

end EntryRegistration

namespace Persistent

/-- No check that the client is registered. -/
def getTopicName (topicId : UInt16) (s : Persistent) : Option (List UInt8) :=
  if s.blocked then none
  else if topicId = 0 then none
  else
    let scanner : Scanner 258 :=
      { hole := fun _ => false, hit := EntryRegistration.hasTopicId topicId, breakOnShort := false,
        counterMod := 2 ^ 16 }
    match scanner.scan (s.fs.contents (s.clientFile .registration)) with
    | .found _ e => some (e.text EntryRegistration.topicName)
    | .exhausted _ _ _ => none

/-- Not implemented in the source. -/
def getTopicId (_topicName : CString) (_s : Persistent) : Nat := 0

/-- Behind its loop the function ends without a `return`: `none`. -/
def isTopicKnown (topicId : UInt16) (s : Persistent) : Option Bool × Persistent :=
  if s.blocked then (some false, s)
  else if s.notInClientRegistry then (some false, s)
  else if topicId = 0 then (some false, { s with error := true })
  else
    let scanner : Scanner 258 :=
      { hole := EntryRegistration.isEmpty
        hit := EntryRegistration.hasTopicId topicId
        breakOnShort := true
        counterMod := 2 ^ 16 }
    match scanner.scan (s.fs.contents (s.clientFile .registration)) with
    | .found _ e => (some (e.getNat EntryRegistration.known ≠ 0), s)
    | .exhausted _ _ _ => (none, s)

/-- Not implemented in the source. -/
def setTopicKnown (_topicId : UInt16) (_known : Bool) (_s : Persistent) : Bool := false

def registrationScanner (t : CString) : Scanner 258 where
  hole := EntryRegistration.isEmpty
  hit := EntryRegistration.hasName t
  breakOnShort := true
  counterMod := 2 ^ 16

/-- The result is what is stored in `*topic_id`, `none` when it stays untouched. A name of 255
characters passes the length check, and its terminator lands on `known`, which is set afterwards. -/
def addClientRegistration (p : Platform) (topicName : CString) (s : Persistent) :
    Option Nat × Persistent :=
  if s.blocked then (none, s)
  else if s.notInClientRegistry then (none, s)
  else if MAXIMUM_TOPIC_NAME_LENGTH < topicName.length then (none, { s with error := true })
  else
    let name := s.clientFile .registration
    match (registrationScanner topicName).scan (s.fs.contents name) with
    | .found _ e => (some (e.getNat EntryRegistration.topicId), s)
    | .exhausted counter hole buffer =>
      let entry :=
        ((buffer.putNat EntryRegistration.topicId counter).strcpy EntryRegistration.topicName
        topicName.bytes).putNat EntryRegistration.known true.toNat
      let fs' := s.fs.writeAt p name (sizeMul (firstEmptySpace counter hole) 258) entry.bytes
      (some (entry.getNat EntryRegistration.topicId), { s with fs := fs' })

/-- What one line of `TOPICS.PRE` gives: `some none` when it does not name the topic, `none` when
`strlen` is taken of a missing second token or `strtok` runs out of a full buffer. A number above
`UINT16_MAX` is impossible after the cast, and the inner loop ends after its first round. -/
def predefinedLine (topicId : UInt16) (line : List UInt8) : Option (Option (List UInt8)) :=
  let unterminated := line.length = 262 ∧ 0 ∉ line
  match strtokTokens 32 (cstr line) with
  | [] => if unterminated then none else some none
  | [_] => none
  | first :: name :: more =>
    if unterminated ∧ more = [] ∧ line.getLast? ≠ some 32 then none
    else if MAXIMUM_TOPIC_NAME_LENGTH ≤ name.length then some none
    else if (atoi first % 2 ^ 16).toNat = topicId.toNat then some (some name)
    else some none

/-- The loop over the lines of `TOPICS.PRE`; a line read fills at most the 262 bytes of
the buffer. -/
def predefinedLoop (topicId : UInt16) : Nat → List UInt8 → Option (Option (List UInt8))
  | 0, _ => some none
  | fuel + 1, c =>
    let (line, rest) := readLine 262 c
    if line.length > 3 then
      match predefinedLine topicId line with
      | none => none
      | some (some name) => some (some name)
      | some none => predefinedLoop topicId fuel rest
    else if line.length > 0 then predefinedLoop topicId fuel rest
    else some none

/-- `none`: undefined behaviour, `some none`: a null pointer. -/
def getPredefinedTopicName (topicId : UInt16) (s : Persistent) : Option (Option (List UInt8)) :=
  if s.error then some none
  else
    let c := s.fs.contents predefinedTopic
    predefinedLoop topicId (c.length + 1) c

end Persistent

end SnGateway
