import SnGateway.Persistent

/-!
# Subscriptions

The subscription file of a client (`is_subscribed` … `get_client_subscription_count`) and the
gateway-wide subscription counts in `MQTT.SUB`.

In `is_subscribed` and `add_subscription` the `return` for a subscription that exists stands inside
`#if PERSISTENT_DEBUG`, so both take the build as a parameter.
-/

namespace SnGateway
open RecordStore

/-- `topic_name == nullptr || strlen(topic_name) == 0 || strlen(topic_name) >=
MAXIMUM_TOPIC_NAME_LENGTH` fails: the name is returned. -/
def checkTopicName (topicName : Option CString) : Option CString :=
  match topicName with
  | none => none
  | some t => if t.length = 0 ∨ MAXIMUM_TOPIC_NAME_LENGTH ≤ t.length then none else some t

theorem checkTopicName_eq_some {t t' : CString} (h : checkTopicName (some t) = some t') :
    t' = t ∧ t.bytes ≠ [] ∧ t.length < MAXIMUM_TOPIC_NAME_LENGTH := by
  unfold checkTopicName at h
  dsimp only at h
  split at h
  · cases h
  · next hno =>
    rw [not_or] at hno
    cases h
    exact ⟨rfl, fun h0 => hno.1 (by rw [CString.length, h0]; rfl), Nat.lt_of_not_le hno.2⟩

theorem checkTopicName_of_length {t : CString} (h1 : 1 ≤ t.length) (h2 : t.length < 255) :
    checkTopicName (some t) = some t := by
  unfold checkTopicName
  dsimp only
  rw [if_neg]
  rintro (h | h)
  · omega
  · exact absurd h2 (Nat.not_lt_of_le h)

namespace EntrySubscription

def isEmpty (e : EntrySubscription) : Bool := e.getNat topicId = 0 ∧ e.text topicName = []

/-- `strlen(topic_name) < MAXIMUM_TOPIC_NAME_LENGTH && strcmp(topic_name, _) == 0`. -/
def hasName (t : CString) (e : EntrySubscription) : Bool :=
  (e.text topicName).length < MAXIMUM_TOPIC_NAME_LENGTH ∧ e.text topicName = t.bytes

def hasTopicId (i : UInt16) (e : EntrySubscription) : Bool := e.getNat topicId = i.toNat

/-- The record `add_subscription` writes. -/
def make (topicName' : CString) (topicId' : UInt16) (qos' : UInt8) : EntrySubscription :=
  (((Record.zero 258).putNat topicId topicId'.toNat).putNat qos qos'.toNat).strcpy topicName
    topicName'.bytes

end EntrySubscription

namespace EntryMqttSubscription

def isEmpty (e : EntryMqttSubscription) : Bool :=
  e.getNat clientSubscriptionCount = 0 ∧ e.text topicName = []

def hasName (t : CString) (e : EntryMqttSubscription) : Bool :=
  e.getNat clientSubscriptionCount ≠ 0 ∧
    (e.text topicName).length < MAXIMUM_TOPIC_NAME_LENGTH ∧ e.text topicName = t.bytes

end EntryMqttSubscription

namespace Persistent

/-- The loops over a subscription file that return the first record satisfying `p`. -/
def subscriptionScanner (p : EntrySubscription → Bool) (counterMod : Nat) : Scanner 258 where
  hole := fun _ => false
  hit := p
  breakOnShort := false
  counterMod := counterMod

/-- The first record of the client's subscription file that has the name `t`. -/
def findSubscription (t : CString) (s : Persistent) : Option EntrySubscription :=
  match (subscriptionScanner (EntrySubscription.hasName t) (2 ^ 16)).scan
    (s.fs.contents (s.clientFile .subscribe)) with
  | .found _ e => some e
  | .exhausted _ _ _ => none

def isSubscribed (debug : Bool) (topicName : Option CString) (s : Persistent) : Bool :=
  if s.blocked then false
  else if s.notInClientRegistry then false
  else match checkTopicName topicName with
    | none => false
    | some t =>
      match s.findSubscription t with
      | some _ => debug
      | none => false

/-- The loop of `add_subscription`; only the debug build leaves it at a subscription that exists. -/
def addSubscriptionScanner (debug : Bool) (t : CString) (topicId : UInt16) : Scanner 258 where
  hole := EntrySubscription.isEmpty
  hit := fun e => debug && EntrySubscription.hasTopicId topicId e && EntrySubscription.hasName t e
  breakOnShort := false
  counterMod := 2 ^ 16

/-- `first_empty_space`: the last free slot, or the slot behind the last record. -/
def firstEmptySpace (counter : Nat) (hole : Option Nat) : Int :=
  match hole with
  | some k => k
  | none => (counter : Int) - 1

theorem firstEmptySpace_succ (n : Nat) (hole : Option Nat) :
    firstEmptySpace (n + 1) hole = (hole.getD n : Nat) := by
  cases hole <;> simp [firstEmptySpace]

def addSubscription (p : Platform) (debug : Bool) (topicName : Option CString) (topicId : UInt16)
    (qos : UInt8) (s : Persistent) : Persistent :=
  if s.blocked then s
  else if s.notInClientRegistry then s
  else match checkTopicName topicName with
    | none => s
    | some t =>
      if topicId = 0 then s
      else
        let name := s.clientFile .subscribe
        match (addSubscriptionScanner debug t topicId).scan (s.fs.contents name) with
        | .found _ _ => s
        | .exhausted counter hole _ =>
          let entry := EntrySubscription.make t topicId qos
          { s with
            fs := s.fs.writeAt p name (sizeMul (firstEmptySpace counter hole) 258) entry.bytes }

/-- No check that the client is registered. The `seek` to a record that was just read succeeds. -/
def deleteSubscription (p : Platform) (topicId : UInt16) (s : Persistent) : Persistent :=
  if s.blocked then s
  else if topicId = 0 then s
  else
    let name := s.clientFile .subscribe
    match (subscriptionScanner (EntrySubscription.hasTopicId topicId) (2 ^ 16)).scan
      (s.fs.contents name) with
    | .found line _ => { s with fs := s.fs.writeAt p name (line * 258) (Record.zero 258).bytes }
    | .exhausted _ _ _ => { s with error := true }

/-- An `int8_t`; the guards return `false`. -/
def getSubscriptionQos (topicName : Option CString) (s : Persistent) : Int :=
  if s.blocked then 0
  else if s.notInClientRegistry then 0
  else match checkTopicName topicName with
    | none => 0
    | some t =>
      match s.findSubscription t with
      | some e => Int.bmod (e.getNat EntrySubscription.qos) (2 ^ 8)
      | none => -1

def getSubscriptionTopicId (topicName : Option CString) (s : Persistent) : Nat :=
  if s.blocked then 0
  else if s.notInClientRegistry then 0
  else match checkTopicName topicName with
    | none => 0
    | some t =>
      match s.findSubscription t with
      | some e => e.getNat EntrySubscription.topicId
      | none => 0

/-- No check that the client is registered. -/
def getNthSubscribedTopicId (p : Platform) (n : UInt16) (s : Persistent) : Nat :=
  if s.blocked then 0
  else
    let got := s.fs.readAt p (s.clientFile .subscribe) (n.toNat * 258) 258
    let entry : EntrySubscription := Record.fill 258 got
    if got.length = 258 ∧ entry.getNat EntrySubscription.topicId ≠ 0 then
      entry.getNat EntrySubscription.topicId
    else 0

/-- The counting loop; the counter is a `uint16_t`. -/
def countSubscriptions : Nat → List (Nat × EntrySubscription) → Nat
  | count, [] => count
  | count, (got, e) :: rest =>
    if got = 258 ∧ e.getNat EntrySubscription.topicId ≠ 0 then
      countSubscriptions ((count + 1) % 2 ^ 16) rest
    else countSubscriptions count rest

def getClientSubscriptionCount (s : Persistent) : Nat :=
  if s.blocked then 0
  else if s.notInClientRegistry then 0
  else countSubscriptions 0 (reads 258 (s.fs.contents (s.clientFile .subscribe)))

/-! ### Gateway-wide counts -/

def mqttSubScanner (t : CString) : Scanner 260 where
  hole := EntryMqttSubscription.isEmpty
  hit := EntryMqttSubscription.hasName t
  breakOnShort := true
  counterMod := 2 ^ 16

/-- The length test behind `checkTopicName` (`strlen > MAXIMUM_TOPIC_NAME_LENGTH`, which would set
`_error`) can no longer fire. `none`: the debug build prints the count behind the end of
`uint16_buf`, and what it does after that is not defined; the state is the one without the print. -/
def decrementGlobalSubscriptionCount (p : Platform) (debug : Bool) (topicName : Option CString)
    (s : Persistent) : Option Bool × Persistent :=
  if s.error then (some false, s)
  else match checkTopicName topicName with
    | none => (some false, s)
    | some t =>
      match (mqttSubScanner t).scan (s.fs.contents mqttSub) with
      | .found k e =>
        let count := e.getNat EntryMqttSubscription.clientSubscriptionCount - 1
        let e' : EntryMqttSubscription :=
          if count = 0 then
            Record.zero 260
          else e.putNat EntryMqttSubscription.clientSubscriptionCount count
        (if logFits debug 6 count then some true else none,
          { s with fs := s.fs.writeAt p mqttSub (k * 260) e'.bytes })
      | .exhausted _ _ _ => (some true, s)

/-- `none` is as for the decrement; the first count fits. -/
def incrementGlobalSubscriptionCount (p : Platform) (debug : Bool) (topicName : Option CString)
    (s : Persistent) : Option Bool × Persistent :=
  if s.error then (some false, s)
  else match checkTopicName topicName with
    | none => (some false, s)
    | some t =>
      match (mqttSubScanner t).scan (s.fs.contents mqttSub) with
      | .found k e =>
        let count := (e.getNat EntryMqttSubscription.clientSubscriptionCount + 1) % 2 ^ 32
        let e' := e.putNat EntryMqttSubscription.clientSubscriptionCount count
        (if logFits debug 6 count then some true else none,
          { s with fs := s.fs.writeAt p mqttSub (k * 260) e'.bytes })
      | .exhausted counter hole buffer =>
        let e' := (buffer.strcpy EntryMqttSubscription.topicName t.bytes).putNat
          EntryMqttSubscription.clientSubscriptionCount 1
        (some true,
          { s with
            fs := s.fs.writeAt p mqttSub (sizeMul (firstEmptySpace counter hole) 260) e'.bytes })

/-- This loop has no branch for free slots, which `hasName` passes over all the same. `none` is as
for the decrement. -/
def getGlobalTopicSubscriptionCount (debug : Bool) (topicName : Option CString) (s : Persistent) :
    Option Nat :=
  if s.error then some 0
  else match checkTopicName topicName with
    | none => some 0
    | some t =>
      match (mqttSubScanner t).scan (s.fs.contents mqttSub) with
      | .found _ e =>
        let count := e.getNat EntryMqttSubscription.clientSubscriptionCount
        if logFits debug 6 count then some count else none
      | .exhausted _ _ _ => some 0

end Persistent

end SnGateway
