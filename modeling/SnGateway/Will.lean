import SnGateway.Persistent

/-! # Wills: the `.WIL` file of a client holds at most one `entry_will`. -/

namespace SnGateway
open RecordStore

structure ClientWill where
  willtopic : List UInt8
  willmsg : List UInt8
  willmsgLength : Nat
  qos : Nat
  retain : Bool
deriving DecidableEq

namespace Persistent

def readWill (s : Persistent) : List UInt8 := (s.fs.contents (s.clientFile .will)).take 513

def hasClientWill (s : Persistent) : Bool :=
  if s.blocked then false
  else if s.notInClientRegistry then false
  else
    let entry : EntryWill := Record.fill 513 s.readWill
    decide (s.readWill.length = 513) && decide (entry.text EntryWill.willtopic ≠ [])

/-- `none` when the output parameters stay untouched. -/
def getClientWill (s : Persistent) : Option ClientWill :=
  if s.blocked then none
  else if s.notInClientRegistry then none
  else if s.readWill.length = 513 then
    let entry : EntryWill := Record.fill 513 s.readWill
    some
      { willtopic := entry.text EntryWill.willtopic
        willmsg := (entry.get EntryWill.willmsg).take (entry.getNat EntryWill.willmsgLength)
        willmsgLength := entry.getNat EntryWill.willmsgLength
        qos := entry.getNat EntryWill.qos
        retain := entry.getNat EntryWill.retain ≠ 0 }
  else none

/-- Both setters change the record that is there, or an empty one, and write it back. -/
def updateWill (p : Platform) (f : EntryWill → EntryWill) (s : Persistent) : Persistent :=
  let entry := f (Record.fill 513 s.readWill)
  { s with fs := s.fs.writeAt p (s.clientFile .will) 0 entry.bytes }

def setClientWilltopic (p : Platform) (willtopic : CString) (qos : UInt8) (retain : Bool)
    (s : Persistent) : Persistent :=
  if s.blocked then s
  else if s.notInClientRegistry then s
  else if MAXIMUM_TOPIC_NAME_LENGTH ≤ willtopic.length then s
  else
    s.updateWill p fun e =>
      (((e.putAt EntryWill.willtopic.off (List.replicate 255 0)).strcpy EntryWill.willtopic
        willtopic.bytes).putNat
        EntryWill.qos qos.toNat).putNat EntryWill.retain retain.toNat

def setClientWillmessage (p : Platform) (willmsg : Payload) (s : Persistent) : Persistent :=
  if s.blocked then s
  else if s.notInClientRegistry then s
  else
    s.updateWill p fun e =>
      ((e.putAt EntryWill.willmsg.off (List.replicate 255 0)).putAt EntryWill.willmsg.off
        willmsg.bytes).putNat
        EntryWill.willmsgLength willmsg.bytes.length

def deleteWill (s : Persistent) : Persistent :=
  if s.blocked then s
  else if s.notInClientRegistry then s
  else
    let name := s.clientFile .will
    { s with fs := s.fs.remove name }.createFile name

end Persistent

end SnGateway
