import SnGateway.Entries

/-!
# The state of `LinuxPersistent` and its transactions

The members of the class that its operations read: the directory, the cached record `_entry_client`,
the transaction flags and the two connection flags. `_registration_entry` and
`_predefined_registration_entry` are scratch buffers whose contents are returned at once, so the
operations return the text they hold instead of a pointer to it. The logger has no effect on the
store; what the debug build does besides logging is kept (parameter `debug` where it matters), and
so are its log texts that may be too long for their arrays (`logFits`).
-/

namespace SnGateway
open RecordStore

structure Persistent where
  fs : Files
  entryClient : EntryClient
  notInClientRegistry : Bool
  transactionStarted : Bool
  error : Bool
  isMqttsnOnline : Bool
  isMqttOnline : Bool
  core : Bool
  logger : Bool

namespace Persistent

/-- `!_transaction_started || _error`: the guard most operations start with. -/
def blocked (s : Persistent) : Bool := !s.transactionStarted || s.error

/-- A number that the debug build prints with `%d` has room in an array of `size` bytes. -/
def logFits (debug : Bool) (size n : Nat) : Bool := !debug || (decimalInt n).length < size

theorem logFits_iff {size n : Nat} (hn : n < 2 ^ 31) :
    logFits true (size + 2) n = true ↔ n < 10 ^ (size + 1) := by
  simp only [logFits, Bool.not_true, Bool.false_or, decide_eq_true_eq, Nat.lt_succ_iff]
  exact length_decimalInt_le_iff hn (Nat.succ_pos size)

theorem error_of_open {s : Persistent} (hopen : s.blocked = false) : s.error = false := by
  cases he : s.error with
  | true => simp [blocked, he] at hopen
  | false => rfl

/-- The name of one of the four files of the transaction's client. -/
def clientFile (s : Persistent) (ending : FileEnding) : FileName := s.entryClient.fileName ending

def createFile (s : Persistent) (name : FileName) : Persistent :=
  { s with fs := s.fs.openWrite name }

def deleteFile (s : Persistent) (name : FileName) : Persistent :=
  if s.fs.existsFile name then { s with fs := s.fs.remove name } else s

theorem deleteFile_eq (s : Persistent) (n : FileName) :
    s.deleteFile n = { s with fs := s.fs.remove n } := by
  rw [deleteFile]
  split
  · rfl
  · next h =>
    have hnone : s.fs n = none := by simpa [Files.existsFile] using h
    rw [Files.remove_of_none hnone]

/-- `begin`: `none` when the debug build logs through a logger that is not set. -/
def begin (debug : Bool) (s : Persistent) : Option Bool × Persistent :=
  if !s.core then (if debug && !s.logger then none else some false, s)
  else if !s.logger then (if debug then none else some false, s)
  else
    let s := { s with transactionStarted := false, notInClientRegistry := false,
                      fs := s.fs.remove mqttSub }
    (some true, (s.createFile clientRegistry).createFile mqttSub)

/-! ### Transactions -/

/-- The loops over `CLIENTS` that look for a record. -/
def clientScanner (p : EntryClient → Bool) : Scanner 57 where
  hole := fun _ => false
  hit := fun e => decide ((e.text EntryClient.clientId).length < MAXIMUM_CLIENT_ID_LENGTH) && p e
  breakOnShort := false
  counterMod := 2 ^ 32

def hasClientId (clientId : CString) (e : EntryClient) : Bool :=
  e.text EntryClient.clientId = clientId.bytes

def hasAddress (address : DeviceAddress) (e : EntryClient) : Bool :=
  e.get EntryClient.clientAddress = address.bytes

/-- Attach the transaction to the first record that satisfies `p`. -/
def attach (p : EntryClient → Bool) (s : Persistent) : Persistent :=
  match (clientScanner p).scan (s.fs.contents clientRegistry) with
  | .found _ e => { s with entryClient := e, notInClientRegistry := false }
  | .exhausted _ _ e => { s with entryClient := e, notInClientRegistry := true }

def startClientTransaction (clientId : CString) (s : Persistent) : Persistent :=
  if s.transactionStarted then { s with error := true }
  else if MAXIMUM_CLIENT_ID_LENGTH ≤ clientId.length then { s with error := true }
  else
    attach (hasClientId clientId)
      { s with transactionStarted := true, error := false, notInClientRegistry := true }

def startClientTransactionByAddress (address : DeviceAddress) (s : Persistent) : Persistent :=
  if s.transactionStarted then { s with error := true }
  else
    attach (hasAddress address)
      { s with transactionStarted := true, error := false, notInClientRegistry := false }

def applyTransaction (s : Persistent) : Nat × Persistent :=
  let s' := { s with error := false, transactionStarted := false, notInClientRegistry := false }
  if s.transactionStarted then
    if s.error then (0, s')
    else if s.notInClientRegistry then (0, s')
    else (1, s')
  else (0, s')

theorem applyTransaction_state (s : Persistent) : s.applyTransaction.2 =
    { s with error := false, transactionStarted := false, notInClientRegistry := false } := by
  unfold applyTransaction
  split
  · split
    · rfl
    · split <;> rfl
  · rfl

def clientExist (s : Persistent) : Bool := if s.blocked then false else !s.notInClientRegistry

def getClientId (s : Persistent) : Option (List UInt8) :=
  if s.blocked then none
  else if s.notInClientRegistry then none
  else if MAXIMUM_CLIENT_ID_LENGTH ≤ (s.entryClient.text EntryClient.clientId).length then none
  else some (s.entryClient.text EntryClient.clientId)

/-! ### The gateway's connections -/

def setMqttsnDisconnected (s : Persistent) : Persistent := { s with isMqttsnOnline := false }
def setMqttDisconnected (s : Persistent) : Persistent := { s with isMqttOnline := false }
def setMqttConnected (s : Persistent) : Persistent := { s with isMqttOnline := true }
def setMqttsnConnected (s : Persistent) : Persistent := { s with isMqttsnOnline := true }

end Persistent

end SnGateway
