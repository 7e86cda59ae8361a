import SnGateway.Effects
import SnGateway.RegistryTable

/-!
# What an operation does to the registry

The callers' side of the store is a transaction `Tx` that is tracked beside the state (`track`):
whose transaction is open and whether it was opened by client id. `Allowed` lists what the core
promises about its calls. `RegInv g s rs` ties the state to the records `rs` of `CLIENTS`: they form
a `RegTable`, and the cached record of an open transaction is the record in its own slot, or
all-zero when the client is not registered.

`Effect` says once what an operation can do in such a state, guards included (`effect_of_allowed`);
what is proved about whole runs is derived from it.
-/

namespace SnGateway
open RecordStore

/-- An open transaction: the id of its client, if there is one, and whether it was opened by id. -/
structure Tx where
  client : Option (List UInt8)
  byId : Bool
deriving DecidableEq

/-- The transaction that is open after `op` led to `s'`. -/
def track (g : Option Tx) (op : Op) (s' : Persistent) : Option Tx :=
  if s'.transactionStarted then
    match g, op with
    | some t, _ => some t
    | none, .startClientTransaction c => some ⟨some c.bytes, true⟩
    | none, _ => some ⟨s'.getClientId, false⟩
  else none

namespace Files

/-- The directory after the four files of a slot were created, or opened where they existed. -/
def createSlot (fs : Files) (k : Nat) : Files :=
  (((fs.openWrite (slotFile k .registration)).openWrite (slotFile k .subscribe)).openWrite
    (slotFile k .will)).openWrite (slotFile k .publish)

/-- The directory without the four files of a slot. -/
def removeSlot (fs : Files) (k : Nat) : Files :=
  (((fs.remove (slotFile k .registration)).remove (slotFile k .subscribe)).remove
    (slotFile k .will)).remove (slotFile k .publish)

variable {fs : Files} {n : FileName}

theorem createSlot_ne {k : Nat} (h : ∀ x, n ≠ slotFile k x) : fs.createSlot k n = fs n := by
  rw [createSlot, openWrite_ne (h _), openWrite_ne (h _), openWrite_ne (h _), openWrite_ne (h _)]

theorem removeSlot_ne {k : Nat} (h : ∀ x, n ≠ slotFile k x) : fs.removeSlot k n = fs n := by
  rw [removeSlot, remove_ne (h _), remove_ne (h _), remove_ne (h _), remove_ne (h _)]

theorem slotFile_ne_of_ending {k : Nat} {x y : FileEnding} (h : x ≠ y) :
    slotFile k x ≠ slotFile k y :=
  fun he => h (slotFile_injective he).2

theorem removeSlot_self (k : Nat) (x : FileEnding) : fs.removeSlot k (slotFile k x) = none := by
  have hne : ∀ {x y : FileEnding}, x ≠ y → slotFile k x ≠ slotFile k y := slotFile_ne_of_ending
  cases x
  · rw [removeSlot, remove_ne (hne (by decide)), remove_ne (hne (by decide)),
      remove_ne (hne (by decide)), remove_self]
  · rw [removeSlot, remove_ne (hne (by decide)), remove_ne (hne (by decide)), remove_self]
  · rw [removeSlot, remove_ne (hne (by decide)), remove_self]
  · rw [removeSlot, remove_self]

theorem contents_openWrite (m : FileName) : (fs.openWrite m).contents n = fs.contents n := by
  by_cases h : n = m
  · subst h; rw [contents, openWrite_self]; rfl
  · exact contents_congr (openWrite_ne h)

/-- `begin` empties `MQTT.SUB` and keeps what the other files hold. -/
theorem contents_begin (h : n ≠ mqttSub) :
    (((fs.remove mqttSub).openWrite clientRegistry).openWrite mqttSub).contents n =
      fs.contents n := by
  rw [contents_openWrite, contents_openWrite]
  exact contents_congr (remove_ne h)

theorem contents_mqttSub_begin :
    (((fs.remove mqttSub).openWrite clientRegistry).openWrite mqttSub).contents mqttSub = [] := by
  rw [contents_openWrite, contents_openWrite]
  exact contents_of_none remove_self

theorem slotFile_begin (j : Nat) (x : FileEnding) :
    (((fs.remove mqttSub).openWrite clientRegistry).openWrite mqttSub) (slotFile j x) =
      fs (slotFile j x) := by
  rw [openWrite_ne (slotFile_ne_mqttSub j x), openWrite_ne (slotFile_ne_clientRegistry j x),
    remove_ne (slotFile_ne_mqttSub j x)]

theorem contents_createSlot (k : Nat) : (fs.createSlot k).contents n = fs.contents n := by
  rw [createSlot, contents_openWrite, contents_openWrite, contents_openWrite, contents_openWrite]

end Files

namespace Persistent

def registeredCount (s : Persistent) : Nat :=
  (reads 57 (s.fs.contents clientRegistry)).countP fun (got, e) => got = 57 ∧
    e.text EntryClient.clientId ≠ []

theorem registeredCount_eq {s : Persistent} {rs : List EntryClient}
    (h : s.fs.contents clientRegistry = encode rs) : s.registeredCount = clientCount rs := by
  rw [registeredCount, h, reads_encode (by omega), List.countP_append, List.countP_map, clientCount]
  simp [Function.comp_def]

theorem hasClientId_zero {c : CString} (hc : c.bytes ≠ []) :
    hasClientId c (Record.zero 57) = false := by
  simp [hasClientId, text_clientId_zero, hc.symm]

theorem hasAddress_zero {a : DeviceAddress} (ha : a ≠ Record.zero 6) :
    hasAddress a (Record.zero 57) = false := by
  have hne : List.replicate 6 0 ≠ a.bytes := fun h0 => ha (Record.ext h0.symm)
  simpa [hasAddress, EntryClient.clientAddress] using hne

end Persistent

/-- What the core promises about a call in state `s` with transaction `g`: ids have 1 to 23
characters, addresses are not all zero, the operations on a client are called for the transaction's
own client, only a transaction opened by id registers a client, and there are never
65536 clients. -/
def Allowed (p : Platform) (g : Option Tx) (s : Persistent) (op : Op) : Prop :=
  (s.next p op).registeredCount < 2 ^ 16 ∧
    match op with
    | .startClientTransaction c => 1 ≤ c.length ∧ c.length ≤ 23
    | .startClientTransactionByAddress a => a ≠ Record.zero 6
    | .addClient c a _ => a ≠ Record.zero 6 ∧ ∀ t ∈ g, t.byId = true ∧ t.client = some c.bytes
    | .deleteClient c => ∀ t ∈ g, t.client = some c.bytes
    | .resetClient c a _ => a ≠ Record.zero 6 ∧ ∀ t ∈ g, t.client = some c.bytes
    | _ => True

instance decidableAllowed (p : Platform) (g : Option Tx) (s : Persistent) (op : Op) :
    Decidable (Allowed p g s op) := by
  unfold Allowed
  cases op <;> infer_instance

/-- The record the registry keeps for the transaction's client. -/
inductive Cached (t : Tx) (s : Persistent) (rs : List EntryClient) : Prop where
  | registered (i : Nat) (hin : s.notInClientRegistry = false) (hslot : rs[i]? = some s.entryClient)
      (hlive : Live i s.entryClient)
        (hid : t.client = some (s.entryClient.text EntryClient.clientId))
  | unregistered (hout : s.notInClientRegistry = true) (hzero : s.entryClient = Record.zero 57)
      (hfree : ∀ c ∈ t.client, ∀ (j : Nat) (b : EntryClient), rs[j]? = some b →
        b.text EntryClient.clientId ≠ c)

structure RegInv (g : Option Tx) (s : Persistent) (rs : List EntryClient) : Prop where
  file : s.fs.contents clientRegistry = encode rs
  table : RegTable rs
  started : s.transactionStarted = g.isSome
  client : ∀ t ∈ g, ∀ c ∈ t.client, c ≠ [] ∧ c.length < 24
  cached : ∀ t ∈ g, Cached t s rs

/-! ### The effect of an operation -/

/-- The record looked for when a transaction is opened. -/
def Op.wanted : Op → Option (EntryClient → Bool)
  | .startClientTransaction c => some (Persistent.hasClientId c)
  | .startClientTransactionByAddress a => some (Persistent.hasAddress a)
  | _ => none

/-- How the operations on a registered client change its record. -/
def Op.rewrite (p : Platform) : Op → EntryClient → Option EntryClient
  | .resetClient c a d, e => some (Persistent.resetEntryClient p c a d e)
  | .setClientAwaitMessage t, e => some (e.putNat EntryClient.awaitMessage t.toNat)
  | .setTimeout t, e => some (e.putNat EntryClient.timeout t.toNat)
  | .setClientState st, e => some (e.putNat EntryClient.clientStatus st.toNat)
  | .setClientAwaitMsgId i, e => some (e.putNat EntryClient.awaitMessageId i.toNat)
  | _, _ => none

/-- The guards under which a registry operation returns at once. -/
def Skips (s : Persistent) : Op → Prop
  | .begin => s.core = false ∨ s.logger = false
  | .addClient .. => s.blocked = true
  | .deleteClient _ | .resetClient .. | .setClientAwaitMessage _ | .setTimeout _ | .setClientState _
  | .setClientAwaitMsgId _ => s.blocked = true ∨ s.notInClientRegistry = true
  | _ => False

/-- The guards under which a registry operation sets the error flag. -/
def Raises (s : Persistent) : Op → Prop
  | .startClientTransaction _ | .startClientTransactionByAddress _ => s.transactionStarted = true
  | .addClient .. => s.blocked = false ∧ s.notInClientRegistry = false
  | .deleteClient _ =>
    s.blocked = false ∧ s.notInClientRegistry = false ∧ 0 < s.getClientSubscriptionCount
  | _ => False

inductive Effect (p : Platform) (s : Persistent) (rs : List EntryClient) (op : Op) :
    Persistent → Prop where
  | other {s' : Persistent} (hop : op.isRegistry = false) (hlocal : Persistent.Local s s') :
      Effect p s rs op s'
  | skip (h : Skips s op) : Effect p s rs op s
  | raise (h : Raises s op) : Effect p s rs op { s with error := true }
  | begin (hop : op = .begin) (hcore : s.core = true) (hlogger : s.logger = true) :
      Effect p s rs op
        { s with
          transactionStarted := false
          notInClientRegistry := false
          fs := ((s.fs.remove mqttSub).openWrite clientRegistry).openWrite mqttSub }
  | found (q : EntryClient → Bool) (i : Nat) (e : EntryClient) (hop : op.wanted = some q)
      (hclosed : s.transactionStarted = false) (hslot : rs[i]? = some e) (hlive : Live i e)
        (hq : q e = true)
      (hfirst : ∀ (j : Nat) (b : EntryClient), j < i → rs[j]? = some b → q b = false) :
      Effect p s rs op
        { s with
          transactionStarted := true, error := false, notInClientRegistry := false,
          entryClient := e }
  | missing (q : EntryClient → Bool) (hop : op.wanted = some q)
      (hclosed : s.transactionStarted = false)
      (hnone : ∀ (j : Nat) (b : EntryClient), rs[j]? = some b → q b = false) :
      Effect p s rs op
        { s with
          transactionStarted := true
          error := false
          notInClientRegistry := true
          entryClient := Record.zero 57 }
  | apply (hop : op = .applyTransaction) :
      Effect p s rs op
        { s with error := false, transactionStarted := false, notInClientRegistry := false }
  | rewrite (i : Nat) (e' : EntryClient) (hopen : s.blocked = false)
      (hin : s.notInClientRegistry = false)
      (hslot : rs[i]? = some s.entryClient) (hlive : Live i s.entryClient)
      (he : op.rewrite p s.entryClient = some e')
      (hid : e'.text EntryClient.clientId = s.entryClient.text EntryClient.clientId)
      (hnum : e'.text EntryClient.fileNumber = s.entryClient.text EntryClient.fileNumber) :
      Effect p s rs op
        { s with
          entryClient := e', fs := s.fs.set clientRegistry (encode (SlotTable.place rs i e')) }
  | add (c : CString) (a : DeviceAddress) (d : UInt32) (k : Nat) (hop : op = .addClient c a d)
      (hopen : s.blocked = false) (hout : s.notInClientRegistry = true) (hk : k ≤ rs.length)
        (hlt : k < 2 ^ 16 - 1)
      (hfree : ∀ e, rs[k]? = some e → e = Record.zero 57)
      (hlive : Live k (Persistent.newEntryClient p c k a d))
      (hid : (Persistent.newEntryClient p c k a d).text EntryClient.clientId = c.bytes) :
      Effect p s rs op
        { s with
          entryClient := Persistent.newEntryClient p c k a d
          notInClientRegistry := false
          fs := (s.fs.createSlot k).set clientRegistry
            (encode (SlotTable.place rs k (Persistent.newEntryClient p c k a d))) }
  | delete (c : CString) (i : Nat) (hop : op = .deleteClient c) (hopen : s.blocked = false)
      (hin : s.notInClientRegistry = false) (hsubs : s.getClientSubscriptionCount = 0)
      (hslot : rs[i]? = some s.entryClient) (hlive : Live i s.entryClient) :
      Effect p s rs op
        { s with
          entryClient := Record.zero 57
          notInClientRegistry := true
          fs :=
            (s.fs.removeSlot i).set clientRegistry
              (encode (SlotTable.place rs i (Record.zero 57))) }

namespace RegInv

open Persistent

variable {p : Platform} {g : Option Tx} {s : Persistent} {rs : List EntryClient}

theorem tx_of_open (h : RegInv g s rs) (hopen : s.blocked = false) :
    ∃ t, g = some t ∧ Cached t s rs := by
  have hst : s.transactionStarted = true := by
    cases hs : s.transactionStarted <;> simp [blocked, hs] at hopen ⊢
  rw [h.started] at hst
  obtain ⟨t, rfl⟩ := Option.isSome_iff_exists.1 hst
  exact ⟨t, rfl, h.cached t rfl⟩

theorem slot_of_registered (h : RegInv g s rs) (hopen : s.blocked = false)
    (hin : s.notInClientRegistry = false) :
    ∃ t i, g = some t ∧ rs[i]? = some s.entryClient ∧ Live i s.entryClient ∧
      t.client = some (s.entryClient.text EntryClient.clientId) := by
  obtain ⟨t, rfl, hc⟩ := h.tx_of_open hopen
  cases hc with
  | registered i _ hslot hlive hid => exact ⟨t, i, rfl, hslot, hlive, hid⟩
  | unregistered hout => rw [hin] at hout; cases hout

theorem effect_attach (h : RegInv g s rs) {op : Op} {q : EntryClient → Bool}
    (hop : op.wanted = some q) (hclosed : s.transactionStarted = false)
    (hq : q (Record.zero 57) = false) (b : Bool) :
    Effect p s rs op
      (attach q
        { s with transactionStarted := true, error := false, notInClientRegistry := b }) := by
  unfold attach
  rw [h.file]
  rcases h.table.scan_cases hq with ⟨i, e, hslot, hlive, hqe, hfirst, hscan⟩ | ⟨hnone, hscan⟩
  · rw [hscan]
    exact .found q i e hop hclosed hslot hlive hqe hfirst
  · rw [hscan]
    exact .missing q hop hclosed hnone

theorem effect_startClientTransaction (h : RegInv g s rs) {c : CString} (h1 : 1 ≤ c.length)
    (h23 : c.length ≤ 23) :
    Effect p s rs (.startClientTransaction c) (s.startClientTransaction c) := by
  unfold startClientTransaction
  split
  · next hs => exact .raise hs
  · next hs =>
    rw [if_neg (by simp [MAXIMUM_CLIENT_ID_LENGTH]; omega)]
    have hne : c.bytes ≠ [] := fun h0 => by simp [CString.length, h0] at h1
    exact h.effect_attach rfl (blocked_of_not hs) (hasClientId_zero hne) true

theorem effect_startClientTransactionByAddress (h : RegInv g s rs) {a : DeviceAddress}
    (ha : a ≠ Record.zero 6) :
    Effect p s rs (.startClientTransactionByAddress a) (s.startClientTransactionByAddress a) := by
  unfold startClientTransactionByAddress
  split
  · next hs => exact .raise hs
  · next hs => exact h.effect_attach rfl (blocked_of_not hs) (hasAddress_zero ha) false

theorem effect_begin : Effect p s rs .begin (s.begin PERSISTENT_DEBUG).2 := by
  unfold begin
  split
  · next hc => exact .skip (.inl (by simpa using hc))
  · next hc =>
    split
    · next hl => exact .skip (.inr (by simpa using hl))
    · next hl => exact .begin rfl (by simpa using hc) (by simpa using hl)

theorem effect_apply : Effect p s rs .applyTransaction s.applyTransaction.2 := by
  rw [applyTransaction_state]
  exact .apply rfl

theorem effect_update (h : RegInv g s rs) (op : Op) (w : Field) (v : Nat)
    (hop : ∀ e, op.rewrite p e = some (e.putNat w v))
    (hskip : s.blocked = true ∨ s.notInClientRegistry = true → Skips s op)
    (hid : EntryClient.clientId.Disjoint w) (hnum : EntryClient.fileNumber.Disjoint w) :
    Effect p s rs op (s.updateEntryClient p fun e => e.putNat w v) := by
  cases hb : s.blocked with
  | true =>
    have hs : s.updateEntryClient p (fun e => e.putNat w v) = s := by simp [updateEntryClient, hb]
    rw [hs]; exact .skip (hskip (.inl hb))
  | false =>
    cases hn : s.notInClientRegistry with
    | true =>
      have hs : s.updateEntryClient p (fun e => e.putNat w v) = s := by simp [updateEntryClient, hn]
      rw [hs]; exact .skip (hskip (.inr hn))
    | false =>
      obtain ⟨t, i, -, hslot, hlive, -⟩ := h.slot_of_registered hb hn
      have hi := RegTable.index_lt hslot
      rw [hlive.updateEntryClient hi (hi.trans h.table.len) hb hn h.file]
      exact .rewrite i _ hb hn hslot hlive (hop _)
        (Record.text_putNat_of_disjoint hid) (Record.text_putNat_of_disjoint hnum)

/-- Rescanning for the id of the transaction's client finds the client's own slot: ids
are distinct. -/
theorem scan_own (h : RegInv g s rs) {c : CString} (hc : ∀ t ∈ g, t.client = some c.bytes)
    (hopen : s.blocked = false) (hin : s.notInClientRegistry = false) :
    ∃ i, rs[i]? = some s.entryClient ∧ Live i s.entryClient ∧
      s.entryClient.text EntryClient.clientId = c.bytes ∧ c.length < MAXIMUM_CLIENT_ID_LENGTH ∧
      (clientScanner (hasClientId c)).scan (encode rs) = .found i s.entryClient := by
  obtain ⟨t, i, rfl, hslot, hlive, hid⟩ := h.slot_of_registered hopen hin
  have hcid : s.entryClient.text EntryClient.clientId = c.bytes := by
    have := hc t rfl
    rw [hid] at this; exact Option.some.inj this
  have hq0 : hasClientId c (Record.zero 57) = false :=
    hasClientId_zero (by rw [← hcid]; exact hlive.id_ne)
  refine ⟨i, hslot, hlive, hcid, by rw [CString.length, ← hcid]; exact hlive.id_lt, ?_⟩
  rcases h.table.scan_cases hq0 with ⟨j, e, hj, hlj, hqe, -, hscan⟩ | ⟨hnone, -⟩
  · have hje : e.text EntryClient.clientId = c.bytes := by simpa [hasClientId] using hqe
    have hk : clientKey e = clientKey s.entryClient := by rw [hlj.key, hlive.key, hje, hcid]
    obtain rfl := h.table.distinct j i e _ _ hj hslot (hk.trans hlive.key) hlive.key
    rw [hslot] at hj; cases hj
    exact hscan
  · have := hnone i _ hslot
    simp [hasClientId, hcid] at this

theorem effect_resetClient (h : RegInv g s rs) {c : CString} {a : DeviceAddress} {d : UInt32}
    (hc : ∀ t ∈ g, t.client = some c.bytes) :
    Effect p s rs (.resetClient c a d) (s.resetClient p c a d) := by
  unfold resetClient
  split
  · next hb => exact .skip (.inl hb)
  · next hb =>
    split
    · next hn => exact .skip (.inr hn)
    · next hn =>
      have hin := blocked_of_not hn
      obtain ⟨i, hslot, hlive, hcid, hlt, hscan⟩ := h.scan_own hc (blocked_of_not hb) hin
      have hs : ∀ (e' : EntryClient) (fs' : Files),
          { s with entryClient := e', fs := fs', notInClientRegistry := false } =
            { s with entryClient := e', fs := fs' } := by
        intro e' fs'
        rw [← hin]
      rw [if_neg (by omega), if_neg (by simp [hcid]), h.file, hscan]
      dsimp only
      rw [hs, Files.writeAt_encode p _ h.file (RegTable.index_lt hslot).le]
      exact .rewrite i _ (blocked_of_not hb) hin hslot hlive rfl
        ((text_clientId_resetEntryClient hlt).trans hcid.symm)
          (text_fileNumber_resetEntryClient hlt)

theorem effect_deleteClient (h : RegInv g s rs) {c : CString}
    (hc : ∀ t ∈ g, t.client = some c.bytes) :
    Effect p s rs (.deleteClient c) (s.deleteClient p c) := by
  unfold deleteClient
  split
  · next hb => exact .skip (.inl hb)
  · next hb =>
    split
    · next hn => exact .skip (.inr hn)
    · next hn =>
      obtain ⟨i, hslot, hlive, hcid, hlt, hscan⟩ :=
        h.scan_own hc (blocked_of_not hb) (blocked_of_not hn)
      rw [if_neg (by omega)]
      split
      · next hsub => exact .raise ⟨blocked_of_not hb, blocked_of_not hn, hsub⟩
      · next hsub =>
        simp only [deleteFile_eq, clientFile, hlive.fileName]
        rw [← Files.removeSlot]
        have hfile : (s.fs.removeSlot i).contents clientRegistry = encode rs := by
          rw [← h.file]
          exact Files.contents_congr (Files.removeSlot_ne fun x =>
            (slotFile_ne_clientRegistry i x).symm)
        rw [hfile, hscan]
        dsimp only
        rw [Files.writeAt_encode p _ hfile (RegTable.index_lt hslot).le]
        exact .delete c i rfl (blocked_of_not hb) (blocked_of_not hn) (by omega) hslot hlive

/-- The new client's slot is free or the one behind the last, and never the 65536th: all others
would be in use. -/
theorem effect_addClient (h : RegInv g s rs) {c : CString} {a : DeviceAddress} {d : UInt32}
    (hc : ∀ t ∈ g, t.byId = true ∧ t.client = some c.bytes)
    (hcount : (s.addClient p c a d).registeredCount < 2 ^ 16) :
    Effect p s rs (.addClient c a d) (s.addClient p c a d) := by
  unfold addClient at hcount ⊢
  split
  · next hs => exact .skip (by simp at hs; simp [Skips, blocked, hs])
  · next hs =>
    split
    · next he => exact .skip (by simp [Skips, blocked, he])
    · next he =>
      have hopen : s.blocked = false := by simp at hs he; simp [blocked, hs, he]
      split
      · next hn => exact .raise ⟨hopen, by simpa using hn⟩
      · next hn =>
        obtain ⟨t, rfl, -⟩ := h.tx_of_open hopen
        obtain ⟨hne, hlt⟩ := h.client t rfl c.bytes (hc t rfl).2
        have hlt' : ¬ MAXIMUM_CLIENT_ID_LENGTH ≤ c.length := by
          simpa [MAXIMUM_CLIENT_ID_LENGTH, CString.length]
        obtain ⟨k, hk, hkle, hfree, hbelow⟩ := h.table.findEmptyEntrySpace_spec
        have hspace : s.findEmptyEntrySpaceInRegistry = k := by
          rw [findEmptyEntrySpaceInRegistry, h.file, hk]
        have hlen := h.table.len
        have hid := text_clientId_newEntryClient (p := p) (a := a) (d := d) k hlt (by omega)
        have hnum := text_fileNumber_newEntryClient (p := p) (c := c) (a := a) (d := d) k (by omega)
        have hlive : Live k (newEntryClient p c k a d) :=
          ⟨by rw [hid]; exact hne, by rw [hid]; exact hlt, hnum⟩
        have hfile : (s.fs.createSlot k).contents clientRegistry = encode rs := by
          rw [Files.contents_createSlot, h.file]
        rw [if_neg hs, if_neg he, if_neg hn, if_neg hlt'] at hcount
        rw [if_neg hlt']
        simp only [createFile, clientFile, hspace, hlive.fileName] at hcount ⊢
        rw [← Files.createSlot, Files.writeAt_encode p _ hfile hkle] at hcount ⊢
        have hk16 : k < 2 ^ 16 - 1 := by
          by_contra hge
          obtain rfl : k = rs.length := by omega
          rw [registeredCount_eq (Files.contents_set_self _), SlotTable.place, if_neg (by omega),
            clientCount,
            List.countP_append, ← clientCount] at hcount
          rw [RegTable.clientCount_of_full fun j b hj => hbelow j b (RegTable.index_lt hj) hj]
            at hcount
          simp [hid, hne] at hcount
          omega
        exact .add c a d k rfl hopen (by simpa using hn) hkle hk16 hfree hlive hid

theorem effect_of_allowed (h : RegInv g s rs) {op : Op} (ha : Allowed p g s op) :
    Effect p s rs op (s.next p op) := by
  obtain ⟨hcount, hop⟩ := ha
  cases op with
  | begin => exact effect_begin
  | startClientTransaction c => exact h.effect_startClientTransaction hop.1 hop.2
  | startClientTransactionByAddress a => exact h.effect_startClientTransactionByAddress hop
  | applyTransaction => exact effect_apply
  | addClient c a d => exact h.effect_addClient hop.2 hcount
  | deleteClient c => exact h.effect_deleteClient hop
  | resetClient c a d => exact h.effect_resetClient hop.2
  | setClientAwaitMessage t =>
    exact h.effect_update (.setClientAwaitMessage t) EntryClient.awaitMessage t.toNat (fun _ => rfl)
      id (by decide) (by decide)
  | setTimeout t =>
    exact h.effect_update (.setTimeout t) EntryClient.timeout t.toNat (fun _ => rfl) id (by decide)
      (by decide)
  | setClientState st =>
    exact h.effect_update (.setClientState st) EntryClient.clientStatus st.toNat (fun _ => rfl) id
      (by decide) (by decide)
  | setClientAwaitMsgId i =>
    exact h.effect_update (.setClientAwaitMsgId i) EntryClient.awaitMessageId i.toNat (fun _ => rfl)
      id (by decide) (by decide)
  | _ => exact .other rfl (local_next rfl)

end RegInv

end SnGateway
