import SnGateway.Subscriptions

/-!
# Buffered publishes

The `.PUB` file of a client. A record whose `publish_id` is 0 is free; otherwise `publish_id` is the
slot number plus 1. New publishes take the last free slot and `get_next_publish` returns the last
record in use.
-/

namespace SnGateway
open RecordStore

/-- What `get_next_publish` stores in its output parameters besides the lengths. -/
structure NextPublish where
  data : List UInt8
  dataLen : Nat
  topicId : Nat
  retain : Bool
  qos : Nat
  dup : Bool
  publishId : Nat
deriving DecidableEq

namespace EntryPublish

def isEmpty (e : EntryPublish) : Bool := e.getNat publishId = 0

/-- The record `add_client_publish` writes to slot `slot`; its arguments `dup` and `msg_id` are
ignored. -/
def make (data : Payload) (topicId' : UInt16) (retain' : Bool) (qos' : UInt8) (slot : Int) :
    EntryPublish :=
  let e := (Record.zero 272).putAt msg.off data.bytes
  let e := e.putNat msgLength data.bytes.length
  let e := e.putNat topicId topicId'.toNat
  let e := e.putNat qos qos'.toNat
  let e := e.putNat retain retain'.toNat
  let e := e.putNat dup false.toNat
  let e := e.putNat msgId 0
  let e := e.putNat publishId ((slot + 1) % 2 ^ 16).toNat
  e.putNat retransmitionTimeout 0

def next (e : EntryPublish) : NextPublish where
  data := (e.get msg).take (e.getNat msgLength)
  dataLen := e.getNat msgLength
  topicId := e.getNat topicId
  retain := e.getNat retain ≠ 0
  qos := e.getNat qos
  dup := e.getNat dup ≠ 0
  publishId := e.getNat publishId

end EntryPublish

namespace Persistent

/-- The loops over a publish file: `mark` is the record whose last position is kept, `stop` the one
that ends the loop. -/
def publishScanner (mark stop : EntryPublish → Bool) : Scanner 272 where
  hole := mark
  hit := stop
  breakOnShort := true
  counterMod := 2 ^ 16

def hasClientPublishes (s : Persistent) : Bool :=
  if s.blocked then false
  else if s.notInClientRegistry then false
  else
    match (publishScanner (fun _ => false) fun e => !EntryPublish.isEmpty e).scan
        (s.fs.contents (s.clientFile .publish)) with
    | .found _ _ => true
    | .exhausted _ _ _ => false

def addClientPublish (p : Platform) (data : Payload) (topicId : UInt16) (retain : Bool)
    (qos : UInt8) (_dup : Bool) (_msgId : UInt16) (s : Persistent) : Persistent :=
  if s.blocked then s
  else if s.notInClientRegistry then s
  else
    let name := s.clientFile .publish
    match (publishScanner EntryPublish.isEmpty fun _ => false).scan (s.fs.contents name) with
    | .found _ _ => s
    | .exhausted counter hole _ =>
      let slot := firstEmptySpace counter hole
      let entry := EntryPublish.make data topicId retain qos slot
      { s with fs := s.fs.writeAt p name (sizeMul slot 272) entry.bytes }

/-- `none`: the length and the publish id are set to 0 and the other output parameters stay
untouched. -/
def getNextPublish (p : Platform) (s : Persistent) : Option NextPublish :=
  if s.blocked then none
  else if s.notInClientRegistry then none
  else
    let name := s.clientFile .publish
    match (publishScanner (fun e => !EntryPublish.isEmpty e) fun _ => false).scan
      (s.fs.contents name) with
    | .found _ _ => none
    | .exhausted _ none _ => none
    | .exhausted _ (some last) _ =>
      some (EntryPublish.next (Record.fill 272 (s.fs.readAt p name (last * 272) 272)))

/-- Read the record of `publish_id` and write `f` of it back; a record with another id is
an error. -/
def updatePublish (p : Platform) (publishId : UInt16) (f : EntryPublish → EntryPublish)
    (s : Persistent) : Persistent :=
  if s.blocked then s
  else if s.notInClientRegistry then s
  else
    let name := s.clientFile .publish
    let target := sizeMul ((publishId.toNat : Int) - 1) 272
    let got := s.fs.readAt p name target 272
    if got.length = 272 then
      let entry : EntryPublish := Record.fill 272 got
      if entry.getNat EntryPublish.publishId = publishId.toNat then
        { s with fs := s.fs.writeAt p name target (f entry).bytes }
      else { s with error := true }
    else s

def setPublishMsgId (p : Platform) (publishId msgId : UInt16) : Persistent → Persistent :=
  updatePublish p publishId fun e => e.putNat EntryPublish.msgId msgId.toNat

def removePublishByPublishId (p : Platform) (publishId : UInt16) : Persistent → Persistent :=
  updatePublish p publishId fun _ => Record.zero 272

/-- A message id of 0 sets the error flag, and the loop runs all the same. The write is
`sizeof(buffer_size)`, that is 2, bytes at the record number times 2. -/
def removePublishByMsgId (p : Platform) (msgId : UInt16) (s : Persistent) : Persistent :=
  if s.blocked then s
  else if s.notInClientRegistry then s
  else
    let s := if msgId = 0 then { s with error := true } else s
    let name := s.clientFile .publish
    match (publishScanner (fun _ => false) fun e => e.getNat EntryPublish.msgId = msgId.toNat).scan
        (s.fs.contents name) with
    | .found k _ => { s with fs := s.fs.writeAt p name (k * 2) ((Record.zero 272).bytes.take 2) }
    | .exhausted _ _ _ => s

end Persistent

end SnGateway
