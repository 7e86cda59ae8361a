import SnGateway.Subscriptions

/-!
# The client registry

`CLIENTS` holds one `entry_client` per slot; a deleted client leaves an all-zero record, whose slot
the next new client takes. The slot number, rendered with `"%08d"`, is the client's `file_number`
and names its four files.
-/

namespace SnGateway
open RecordStore

namespace Persistent

/-- `find_empty_entry_space_in_registry`: the loop over the records; `entry_number` is a `uint16_t`,
and a short read counts like a record. -/
def findEmptyEntrySpace : Nat → List (Nat × EntryClient) → Nat
  | k, [] => k
  | k, (got, e) :: rest =>
    if got = 0 then k
    else if (e.text EntryClient.clientId).length = 0 then k
    else findEmptyEntrySpace ((k + 1) % 2 ^ 16) rest

def findEmptyEntrySpaceInRegistry (s : Persistent) : Nat :=
  findEmptyEntrySpace 0 (reads 57 (s.fs.contents clientRegistry))

def parseFileNumberToInt (e : EntryClient) : Int := atoi (e.text EntryClient.fileNumber)

/-- What `add_client` and `reset_client` set besides the name: a fresh, active session. -/
def freshSession (p : Platform) (address : DeviceAddress) (duration : UInt32) (e : EntryClient) :
    EntryClient :=
  ((((((e.putAt EntryClient.clientAddress.off address.bytes).putNat EntryClient.duration
    duration.toNat).putNat
    EntryClient.timeout 0).putNat EntryClient.clientStatus p.ACTIVE.toNat).putNat
    EntryClient.awaitMessageId 0).putNat EntryClient.awaitMessage p.MQTTSN_PINGREQ.toNat)

def newEntryClient (p : Platform) (clientId : CString) (slot : Nat) (address : DeviceAddress)
    (duration : UInt32) : EntryClient :=
  freshSession p address duration
    (((Record.zero 57).strcpy EntryClient.clientId clientId.bytes).strcpy EntryClient.fileNumber
      (zeroPadded 8 slot))

/-- `add_client` prints the duration into `octed`, if it gets that far. -/
def addClientLogs (debug : Bool) (clientId : CString) (duration : UInt32) (s : Persistent) : Bool :=
  s.blocked || !s.notInClientRegistry || MAXIMUM_CLIENT_ID_LENGTH ≤ clientId.length ||
    logFits debug 10 duration.toNat

def addClient (p : Platform) (clientId : CString) (address : DeviceAddress) (duration : UInt32)
    (s : Persistent) : Persistent :=
  if !s.transactionStarted then s
  else if s.error then s
  else if !s.notInClientRegistry then { s with error := true }
  else if MAXIMUM_CLIENT_ID_LENGTH ≤ clientId.length then { s with error := true }
  else
    let emptySpace := s.findEmptyEntrySpaceInRegistry
    let entry := newEntryClient p clientId emptySpace address duration
    let s := { s with entryClient := entry }
    let s := s.createFile (s.clientFile .registration)
    let s := s.createFile (s.clientFile .subscribe)
    let s := s.createFile (s.clientFile .will)
    let s := s.createFile (s.clientFile .publish)
    { s with
      fs := s.fs.writeAt p clientRegistry (emptySpace * 57) entry.bytes,
      notInClientRegistry := false }

def deleteClient (p : Platform) (clientId : CString) (s : Persistent) : Persistent :=
  if s.blocked then s
  else if s.notInClientRegistry then s
  else if MAXIMUM_CLIENT_ID_LENGTH ≤ clientId.length then { s with error := true }
  else if 0 < s.getClientSubscriptionCount then { s with error := true }
  else
    let s := s.deleteFile (s.clientFile .registration)
    let s := s.deleteFile (s.clientFile .subscribe)
    let s := s.deleteFile (s.clientFile .will)
    let s := s.deleteFile (s.clientFile .publish)
    match (clientScanner (hasClientId clientId)).scan (s.fs.contents clientRegistry) with
    | .found line _ =>
      { s with
        entryClient := Record.zero 57
        fs := s.fs.writeAt p clientRegistry (line * 57) (Record.zero 57).bytes
        notInClientRegistry := true }
    | .exhausted _ _ e => { s with entryClient := e, notInClientRegistry := true }

def resetEntryClient (p : Platform) (clientId : CString) (address : DeviceAddress)
    (duration : UInt32) (e : EntryClient) : EntryClient :=
  let e := e.putNat EntryClient.clientStatus p.ACTIVE.toNat
  let e := e.putAt EntryClient.clientAddress.off address.bytes
  let e := e.putAt EntryClient.clientId.off (List.replicate 24 0)
  let e := e.strcpy EntryClient.clientId clientId.bytes
  let e := e.putNat EntryClient.duration duration.toNat
  let e := e.putNat EntryClient.timeout 0
  let e := e.putNat EntryClient.clientStatus p.ACTIVE.toNat
  let e := e.putNat EntryClient.awaitMessageId 0
  e.putNat EntryClient.awaitMessage p.MQTTSN_PINGREQ.toNat

def resetClient (p : Platform) (clientId : CString) (address : DeviceAddress) (duration : UInt32)
    (s : Persistent) : Persistent :=
  if s.blocked then s
  else if s.notInClientRegistry then s
  else if MAXIMUM_CLIENT_ID_LENGTH ≤ clientId.length then { s with error := true }
  else if s.entryClient.text EntryClient.clientId ≠ clientId.bytes then { s with error := true }
  else
    match (clientScanner (hasClientId clientId)).scan (s.fs.contents clientRegistry) with
    | .found line e =>
      let entry := resetEntryClient p clientId address duration e
      { s with
        entryClient := entry
        fs := s.fs.writeAt p clientRegistry (line * 57) entry.bytes
        notInClientRegistry := false }
    | .exhausted _ _ e => { s with entryClient := e, error := true, notInClientRegistry := true }

/-! ### Setters

All four change the cached record and write it back whole at the slot its `file_number` names. -/

def updateEntryClient (p : Platform) (f : EntryClient → EntryClient) (s : Persistent) :
    Persistent :=
  if s.blocked then s
  else if s.notInClientRegistry then s
  else
    let entry := f s.entryClient
    let position := sizeMul (parseFileNumberToInt s.entryClient) 57
    { s with entryClient := entry, fs := s.fs.writeAt p clientRegistry position entry.bytes }

/-- `set_client_await_message` prints the message type into `buf`. -/
def setClientAwaitMessageLogs (debug : Bool) (msgType : UInt32) (s : Persistent) : Bool :=
  s.blocked || s.notInClientRegistry || logFits debug 10 msgType.toNat

def setClientAwaitMessage (p : Platform) (msgType : UInt32) : Persistent → Persistent :=
  updateEntryClient p fun e => e.putNat EntryClient.awaitMessage msgType.toNat

def setTimeout (p : Platform) (timeout : UInt32) : Persistent → Persistent :=
  updateEntryClient p fun e => e.putNat EntryClient.timeout timeout.toNat

def setClientState (p : Platform) (status : UInt32) : Persistent → Persistent :=
  updateEntryClient p fun e => e.putNat EntryClient.clientStatus status.toNat

def setClientAwaitMsgId (p : Platform) (msgId : UInt16) : Persistent → Persistent :=
  updateEntryClient p fun e => e.putNat EntryClient.awaitMessageId msgId.toNat

/-- Not implemented in the source. -/
def setClientDuration (_duration : UInt32) (s : Persistent) : Persistent := s

/-! ### Getters -/

def getClientAwaitMessageType (p : Platform) (s : Persistent) : Nat :=
  if s.blocked then p.MQTTSN_PINGREQ.toNat
  else if s.notInClientRegistry then p.MQTTSN_PINGREQ.toNat
  else s.entryClient.getNat EntryClient.awaitMessage

def getClientStatus (p : Platform) (s : Persistent) : Nat :=
  if s.blocked then p.LOST.toNat
  else if s.notInClientRegistry then p.LOST.toNat
  else s.entryClient.getNat EntryClient.clientStatus

def getClientAwaitMsgId (s : Persistent) : Nat :=
  if s.blocked then 0
  else if s.notInClientRegistry then 0
  else s.entryClient.getNat EntryClient.awaitMessageId

/-- The address of the last record that is not `EMPTY`; `none` when the argument stays untouched. -/
def getLastClientAddress (p : Platform) (s : Persistent) : Option (List UInt8) :=
  (reads 57 (s.fs.contents clientRegistry)).foldl
    (fun last (got, e) =>
      if got = 57 ∧ Record.getNat e EntryClient.clientStatus ≠ p.EMPTY.toNat then
        some (Record.get e EntryClient.clientAddress)
      else last) none

structure NthClient where
  clientId : List UInt8
  address : List UInt8
  status : Nat
  duration : Nat
  timeout : Nat
deriving DecidableEq

def getNthClient (p : Platform) (n : UInt64) (s : Persistent) : NthClient :=
  let e : EntryClient := Record.fill 57 (s.fs.readAt p clientRegistry (sizeMul n.toNat 57) 57)
  { clientId := e.text EntryClient.clientId
    address := e.get EntryClient.clientAddress
    status := e.getNat EntryClient.clientStatus
    duration := e.getNat EntryClient.duration
    timeout := e.getNat EntryClient.timeout }

end Persistent

end SnGateway
