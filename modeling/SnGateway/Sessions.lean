import SnGateway.RegistryInv

/-!
# The registry as a map of sessions

What the registry is for: a finite map from client ids to sessions, of which one can be worked on at
a time. `Sessions` is that map with the open transaction and the error flag, `Sessions.Step` what
the operations do to it; slots, files and the cached record do not occur in it. `busy` stands for
the subscriptions of the transaction's client, which keep it from being deleted, and opening a
transaction by address may pick any client that has the address.

`abs` reads the map off the records of `CLIENTS`; `RegInv.simulates` says that the store refines it.
-/

namespace SnGateway
open RecordStore Persistent

structure Session where
  address : List UInt8
  status : Nat
  duration : Nat
  timeout : Nat
  awaitMessageId : Nat
  awaitMessage : Nat

def Session.fresh (p : Platform) (address : DeviceAddress) (duration : UInt32) : Session where
  address := address.bytes
  status := p.ACTIVE.toNat
  duration := duration.toNat
  timeout := 0
  awaitMessageId := 0
  awaitMessage := p.MQTTSN_PINGREQ.toNat

structure Sessions where
  map : List UInt8 → Option Session
  tx : Option Tx
  error : Bool

namespace Sessions

/-- A transaction is open and has met no error. -/
def Open (A : Sessions) : Prop := A.tx.isSome = true ∧ A.error = false

def current (A : Sessions) : Option Session := A.tx.bind fun t => t.client.bind A.map

/-- How the operations on a registered client change its session. -/
def change (p : Platform) : Op → Session → Option Session
  | .resetClient _ a d, _ => some (.fresh p a d)
  | .setClientAwaitMessage t, σ => some { σ with awaitMessage := t.toNat }
  | .setTimeout t, σ => some { σ with timeout := t.toNat }
  | .setClientState st, σ => some { σ with status := st.toNat }
  | .setClientAwaitMsgId i, σ => some { σ with awaitMessageId := i.toNat }
  | _, _ => none

def opens : Op → Bool
  | .startClientTransaction _ | .startClientTransactionByAddress _ => true
  | _ => false

def onClient : Op → Bool
  | .deleteClient _ | .resetClient .. | .setClientAwaitMessage _ | .setTimeout _ | .setClientState _
  | .setClientAwaitMsgId _ => true
  | _ => false

def registers : Op → Bool
  | .addClient .. => true
  | _ => false

inductive Step (p : Platform) (busy : Bool) (A : Sessions) : Op → Sessions → Prop where
  | startById (c : CString) (h : A.tx = none) :
      Step p busy A (.startClientTransaction c)
        { A with tx := some ⟨some c.bytes, true⟩, error := false }
  | startByAddress (a : DeviceAddress) (k : List UInt8) (σ : Session) (h : A.tx = none)
      (hk : A.map k = some σ)
      (ha : σ.address = a.bytes) :
      Step p busy A (.startClientTransactionByAddress a)
        { A with tx := some ⟨some k, false⟩, error := false }
  | startByUnknownAddress (a : DeviceAddress) (h : A.tx = none)
      (ha : ∀ k σ, A.map k = some σ → σ.address ≠ a.bytes) :
      Step p busy A (.startClientTransactionByAddress a)
        { A with tx := some ⟨none, false⟩, error := false }
  | nested (op : Op) (hop : opens op = true) (h : A.tx.isSome = true) : Step p busy A op
      { A with error := true }
  | apply : Step p busy A .applyTransaction { A with tx := none, error := false }
  | begin : Step p busy A .begin { A with tx := none }
  | beginFails : Step p busy A .begin A
  | closed (op : Op) (hop : onClient op = true ∨ registers op = true) (h : ¬ A.Open) :
      Step p busy A op A
  | missing (op : Op) (hop : onClient op = true) (h : A.Open) (hcur : A.current = none) :
      Step p busy A op A
  | add (c : CString) (a : DeviceAddress) (d : UInt32) (h : A.Open) (hcur : A.current = none) :
      Step p busy A (.addClient c a d)
        { A with map := Function.update A.map c.bytes (some (.fresh p a d)) }
  | addTwice (c : CString) (a : DeviceAddress) (d : UInt32) (h : A.Open)
      (hcur : A.current.isSome = true) :
      Step p busy A (.addClient c a d) { A with error := true }
  | change (op : Op) (k : List UInt8) (σ σ' : Session) (h : A.Open)
      (hk : ∀ t ∈ A.tx, t.client = some k)
      (hcur : A.current = some σ) (hσ : Sessions.change p op σ = some σ') :
      Step p busy A op { A with map := Function.update A.map k (some σ') }
  | delete (c : CString) (h : A.Open) (hcur : A.current.isSome = true) (hbusy : busy = false) :
      Step p busy A (.deleteClient c) { A with map := Function.update A.map c.bytes none }
  | deleteBusy (c : CString) (h : A.Open) (hcur : A.current.isSome = true) (hbusy : busy = true) :
      Step p busy A (.deleteClient c) { A with error := true }
  | other (op : Op) (error' : Bool) (hop : op.isRegistry = false)
      (he : A.error = true → error' = true) :
      Step p busy A op { A with error := error' }

def empty (error : Bool) : Sessions := { map := fun _ => none, tx := none, error := error }

inductive Reachable (p : Platform) (A₀ : Sessions) : Sessions → Prop where
  | init : Reachable p A₀ A₀
  | step {A A' : Sessions} {busy : Bool} {op : Op} (h : Reachable p A₀ A)
      (hs : Step p busy A op A') : Reachable p A₀ A'

/-- The replies that the map determines. -/
def reply (p : Platform) (A : Sessions) : Op → Option Reply
  | .applyTransaction =>
    some (.nat (if A.tx.isSome ∧ A.error = false ∧ A.current.isSome then 1 else 0))
  | .clientExist => some (.bool (A.tx.isSome && !A.error && A.current.isSome))
  | .getClientId =>
    some (.text
      (if A.tx.isSome ∧ A.error = false ∧ A.current.isSome then A.tx.bind Tx.client else none))
  | .getClientStatus =>
    some (.nat (if A.tx.isSome ∧ A.error = false then
      (A.current.map Session.status).getD p.LOST.toNat else p.LOST.toNat))
  | .getClientAwaitMsgId =>
    some (.nat (if A.tx.isSome ∧ A.error = false then
      (A.current.map Session.awaitMessageId).getD 0 else 0))
  | .getClientAwaitMessageType =>
    some (.nat (if A.tx.isSome ∧ A.error = false then
      (A.current.map Session.awaitMessage).getD p.MQTTSN_PINGREQ.toNat else p.MQTTSN_PINGREQ.toNat))
  | _ => none

end Sessions

/-! ### Abstraction -/

/-- The session a record stands for. -/
def EntryClient.session (e : EntryClient) : Session where
  address := e.get EntryClient.clientAddress
  status := e.getNat EntryClient.clientStatus
  duration := e.getNat EntryClient.duration
  timeout := e.getNat EntryClient.timeout
  awaitMessageId := e.getNat EntryClient.awaitMessageId
  awaitMessage := e.getNat EntryClient.awaitMessage

def Persistent.records (s : Persistent) : List EntryClient :=
  whole 57 (s.fs.contents clientRegistry)

def Persistent.abs (g : Option Tx) (s : Persistent) : Sessions where
  map := fun k => (SlotTable.lookup clientKey s.records k).map EntryClient.session
  tx := g
  error := s.error

theorem Persistent.records_of_contents {s : Persistent} {rs : List EntryClient}
    (h : s.fs.contents clientRegistry = encode rs) : s.records = rs := by
  rw [records, h, whole_encode (by omega)]

namespace Persistent

variable {p : Platform} {c : CString} {a : DeviceAddress} {d : UInt32} {e : EntryClient}

theorem toNat_mod_32 (n : UInt32) : n.toNat % 256 ^ 4 = n.toNat := Nat.mod_eq_of_lt n.toNat_lt

theorem toNat_mod_16 (n : UInt16) : n.toNat % 256 ^ 2 = n.toNat := Nat.mod_eq_of_lt n.toNat_lt

theorem session_freshNumbers (b : EntryClient) (hb : b.get EntryClient.clientAddress = a.bytes) :
    EntryClient.session
      (((((b.putNat EntryClient.duration d.toNat).putNat EntryClient.timeout 0).putNat
      EntryClient.clientStatus p.ACTIVE.toNat).putNat EntryClient.awaitMessageId 0).putNat
      EntryClient.awaitMessage p.MQTTSN_PINGREQ.toNat) = .fresh p a d := by
  simp (disch := decide) only [EntryClient.session, Session.fresh, Record.get_putNat_of_disjoint,
    Record.getNat_putNat_of_disjoint, Record.getNat_putNat_self, Session.mk.injEq]
  exact ⟨hb, toNat_mod_32 _, toNat_mod_32 _, rfl, rfl, toNat_mod_32 _⟩

theorem session_newEntryClient (slot : Nat) :
    EntryClient.session (newEntryClient p c slot a d) = .fresh p a d :=
  session_freshNumbers _ (Record.get_putAt_self a.size_eq (by decide))

theorem session_resetEntryClient (hc : c.length < 24) :
    EntryClient.session (resetEntryClient p c a d e) = .fresh p a d := by
  refine session_freshNumbers _ ?_
  rw [Record.strcpy, Record.get_putAt_of_field_disjoint (by decide)
    (by simpa [EntryClient.clientId, CString.length] using hc),
    Record.get_putAt_of_field_disjoint (by decide) (by simp [EntryClient.clientId])]
  exact Record.get_putAt_self a.size_eq (by decide)

theorem address_newEntryClient {slot : Nat} :
    (newEntryClient p c slot a d).get EntryClient.clientAddress = a.bytes := by
  have h := session_newEntryClient (p := p) (c := c) (a := a) (d := d) slot
  generalize newEntryClient p c slot a d = r at h ⊢
  exact congrArg Session.address h

theorem address_resetEntryClient (hc : c.length < 24) :
    (resetEntryClient p c a d e).get EntryClient.clientAddress = a.bytes := by
  have h := session_resetEntryClient (p := p) (a := a) (d := d) (e := e) hc
  generalize resetEntryClient p c a d e = r at h ⊢
  exact congrArg Session.address h

theorem change_session {op : Op} {e' : EntryClient}
    (hc : ∀ c a d, op = .resetClient c a d → c.length < 24) (he : op.rewrite p e = some e') :
    Sessions.change p op (EntryClient.session e) = some (EntryClient.session e') := by
  cases op <;> simp only [Op.rewrite, reduceCtorEq, Option.some.injEq] at he
  case resetClient c a d => rw [← he, session_resetEntryClient (hc c a d rfl)]; rfl
  all_goals
    rw [← he]
    simp (disch := decide) only [Sessions.change, EntryClient.session,
      Record.get_putNat_of_disjoint,
      Record.getNat_putNat_of_disjoint, Record.getNat_putNat_self]
  case setClientAwaitMsgId i =>
    rw [show i.toNat % 256 ^ EntryClient.awaitMessageId.len = i.toNat from toNat_mod_16 i]
  case setClientAwaitMessage t =>
    rw [show t.toNat % 256 ^ EntryClient.awaitMessage.len = t.toNat from toNat_mod_32 t]
  case setTimeout t =>
    rw [show t.toNat % 256 ^ EntryClient.timeout.len = t.toNat from toNat_mod_32 t]
  case setClientState t =>
    rw [show t.toNat % 256 ^ EntryClient.clientStatus.len = t.toNat from toNat_mod_32 t]

end Persistent

/-! ### The map of a table -/

namespace RegInv

variable {p : Platform} {g : Option Tx} {s s' : Persistent} {rs : List EntryClient} {op : Op}

theorem map_eq (h : RegInv g s rs) (k : List UInt8) :
    (s.abs g).map k = (SlotTable.lookup clientKey rs k).map EntryClient.session := by
  rw [Persistent.abs, records_of_contents h.file]

theorem map_eq_some (h : RegInv g s rs) {k : List UInt8} {σ : Session} :
    (s.abs g).map k = some σ ↔
      ∃ (i : Nat) (e : EntryClient), rs[i]? = some e ∧ clientKey e = some k ∧
      EntryClient.session e = σ := by
  rw [h.map_eq, Option.map_eq_some_iff]
  constructor
  · rintro ⟨e, he, rfl⟩
    obtain ⟨i, hi, hk⟩ := (SlotTable.lookup_eq_some h.table.distinct).1 he
    exact ⟨i, e, hi, hk, rfl⟩
  · rintro ⟨i, e, hi, hk, rfl⟩
    exact ⟨e, (SlotTable.lookup_eq_some h.table.distinct).2 ⟨i, hi, hk⟩, rfl⟩

theorem open_iff (h : RegInv g s rs) : (s.abs g).Open ↔ s.blocked = false := by
  show (g.isSome = true ∧ s.error = false) ↔ (!s.transactionStarted || s.error) = false
  rw [← h.started]
  cases s.transactionStarted <;> cases s.error <;> simp

theorem current_registered (h : RegInv g s rs) (hopen : s.blocked = false)
    (hin : s.notInClientRegistry = false) :
    (s.abs g).current = some (EntryClient.session s.entryClient) := by
  obtain ⟨t, i, rfl, hslot, hlive, hid⟩ := h.slot_of_registered hopen hin
  show t.client.bind _ = _
  rw [hid]
  exact h.map_eq_some.2 ⟨i, _, hslot, hlive.key, rfl⟩

theorem current_unregistered (h : RegInv g s rs) (hopen : s.blocked = false)
    (hout : s.notInClientRegistry = true) : (s.abs g).current = none := by
  obtain ⟨t, rfl, hc⟩ := h.tx_of_open hopen
  show t.client.bind _ = _
  cases hc with
  | registered _ hin => rw [hout] at hin; cases hin
  | unregistered _ _ hfree =>
    cases ht : t.client with
    | none => rfl
    | some c =>
      refine Option.eq_none_iff_forall_ne_some.2 fun σ hσ => ?_
      obtain ⟨i, e, hi, hk, -⟩ := h.map_eq_some.1 hσ
      exact hfree c ht i e hi (clientKey_eq_some.1 hk).1

theorem map_place (h : RegInv g s rs) {g' : Option Tx} {i : Nat} {e : EntryClient}
    (h' : RegInv g' s' (SlotTable.place rs i e)) (hi : i ≤ rs.length)
    (hfresh : ∀ (j : Nat) (b : EntryClient) (k : List UInt8), j ≠ i → rs[j]? = some b →
      clientKey b = some k → clientKey e ≠ some k)
    (k : List UInt8) :
    (s'.abs g').map k =
      if clientKey e = some k then some (EntryClient.session e)
      else if (rs[i]?).bind clientKey = some k then none
      else (s.abs g).map k := by
  rw [h'.map_eq, h.map_eq, SlotTable.lookup_place h.table.distinct hi hfresh]
  split
  · rfl
  · split <;> rfl

theorem map_place_live (h : RegInv g s rs) {g' : Option Tx} {i : Nat} {e : EntryClient}
    (h' : RegInv g' s' (SlotTable.place rs i e)) (hi : i ≤ rs.length) (hlive : Live i e)
    (hold : ∀ b k, rs[i]? = some b → clientKey b = some k → k = e.text EntryClient.clientId) :
    (s'.abs g').map =
      Function.update (s.abs g).map (e.text EntryClient.clientId)
      (some (EntryClient.session e)) := by
  have hfresh : ∀ (j : Nat) (b : EntryClient) (k : List UInt8), j ≠ i → rs[j]? = some b →
    clientKey b = some k →
      clientKey e ≠ some k := by
    intro j b k hj hb hbk hek
    have hj' : (SlotTable.place rs i e)[j]? = some b := by
      rw [SlotTable.getElem?_place hi, if_neg hj]
      exact hb
    have hi' : (SlotTable.place rs i e)[i]? = some e := by
      rw [SlotTable.getElem?_place hi, if_pos rfl]
    exact hj (h'.table.distinct j i b e k hj' hi' hbk hek)
  funext k
  rw [h.map_place h' hi hfresh, hlive.key]
  by_cases hk : k = e.text EntryClient.clientId
  · subst hk; rw [if_pos rfl, Function.update_self]
  · rw [if_neg fun h => hk (Option.some.inj h).symm, Function.update_of_ne hk, if_neg]
    intro hb
    obtain ⟨b, hb, hbk⟩ := Option.bind_eq_some_iff.1 hb
    exact hk (hold b k hb hbk)

theorem map_place_zero (h : RegInv g s rs) {g' : Option Tx} {i : Nat} {e : EntryClient}
    (h' : RegInv g' s' (SlotTable.place rs i (Record.zero 57))) (hslot : rs[i]? = some e)
    (hlive : Live i e) :
    (s'.abs g').map = Function.update (s.abs g).map (e.text EntryClient.clientId) none := by
  funext k
  rw [h.map_place h' (RegTable.index_lt hslot).le (by simp), hslot, clientKey_zero,
    Option.bind_some, hlive.key]
  by_cases hk : k = e.text EntryClient.clientId
  · subst hk; rw [if_neg (by simp), if_pos rfl, Function.update_self]
  · rw [if_neg (by simp), if_neg fun h => hk (Option.some.inj h).symm, Function.update_of_ne hk]

/-! ### Simulation -/

theorem abs_keep (h : RegInv g s rs) (hfile : s'.fs.contents clientRegistry = encode rs)
    (hs : s'.transactionStarted = s.transactionStarted) :
    s'.abs (track g op s') = { s.abs g with error := s'.error } := by
  rw [track_of_started_eq (hs.trans h.started)]
  simp only [Persistent.abs, records_of_contents hfile, records_of_contents h.file]

theorem abs_close (h : RegInv g s rs) (hfile : s'.fs.contents clientRegistry = encode rs)
    (hs : s'.transactionStarted = false) :
    s'.abs (track g op s') = { s.abs g with tx := none, error := s'.error } := by
  rw [track_of_closed hs]
  simp only [Persistent.abs, records_of_contents hfile, records_of_contents h.file]

theorem abs_write (h : RegInv g s rs) {m : List UInt8 → Option Session}
    (hmap : (s'.abs (track g op s')).map = m) (hs : s'.transactionStarted = s.transactionStarted)
    (he : s'.error = s.error) : s'.abs (track g op s') = { s.abs g with map := m } := by
  have ht : track g op s' = g := track_of_started_eq (hs.trans h.started)
  rw [ht] at hmap ⊢
  rw [← hmap]
  simp only [Persistent.abs, he]

theorem simulates_skip (h : RegInv g s rs) (hskip : Skips s op) (busy : Bool) :
    Sessions.Step p busy (s.abs g) op (s.abs (track g op s)) := by
  have hs : s.abs (track g op s) = s.abs g := h.abs_keep h.file rfl
  have hclient : s.blocked = true ∨ s.notInClientRegistry = true → Sessions.onClient op = true →
      Sessions.Step p busy (s.abs g) op (s.abs g) := by
    intro hb hop
    by_cases hbl : s.blocked = true
    · exact .closed op (.inl hop) fun ho => by rw [h.open_iff.1 ho] at hbl; cases hbl
    · have hopen := blocked_of_not hbl
      exact .missing op hop (h.open_iff.2 hopen)
        (h.current_unregistered hopen (hb.resolve_left hbl))
  rw [hs]
  cases op <;> simp only [Skips] at hskip
  case begin => exact .beginFails
  case addClient =>
    exact .closed _ (.inr rfl) fun ho => by rw [h.open_iff.1 ho] at hskip; cases hskip
  all_goals exact hclient hskip rfl

theorem simulates_raise (h : RegInv g s rs) (hraise : Raises s op)
    (hs' : s' = { s with error := true }) :
    Sessions.Step p (decide (0 < s.getClientSubscriptionCount)) (s.abs g) op
      (s'.abs (track g op s')) := by
  have herr : s'.error = true := by rw [hs']
  rw [h.abs_keep (by rw [hs']; exact h.file) (by rw [hs']), herr]
  cases op <;> simp only [Raises] at hraise
  case startClientTransaction => exact .nested _ rfl (h.started.symm.trans hraise)
  case startClientTransactionByAddress => exact .nested _ rfl (h.started.symm.trans hraise)
  case addClient =>
    exact .addTwice _ _ _ (h.open_iff.2 hraise.1)
      (by rw [h.current_registered hraise.1 hraise.2]; rfl)
  case deleteClient =>
    exact .deleteBusy _ (h.open_iff.2 hraise.1)
      (by rw [h.current_registered hraise.1 hraise.2.1]; rfl)
      (by simpa using hraise.2.2)

theorem simulates_found (h : RegInv g s rs) {q : EntryClient → Bool} {i : Nat} {e : EntryClient}
    (hop : op.wanted = some q) (hclosed : s.transactionStarted = false) (hslot : rs[i]? = some e)
      (hlive : Live i e)
    (hq : q e = true) (busy : Bool)
    (hs' : s' = { s with
      transactionStarted := true, error := false, notInClientRegistry := false,
      entryClient := e }) :
    Sessions.Step p busy (s.abs g) op (s'.abs (track g op s')) := by
  have hst : s'.transactionStarted = true := by rw [hs']
  have hget : s'.getClientId = some (e.text EntryClient.clientId) := by
    rw [hs']
    exact getClientId_found hlive
  obtain rfl : g = none := by simpa [hclosed] using h.started
  have habs : ∀ t, s'.abs (some t) = { s.abs none with tx := some t, error := false } := by
    intro t
    rw [hs']
    rfl
  cases op <;> simp only [Op.wanted, reduceCtorEq, Option.some.injEq] at hop <;> subst hop
  case startClientTransaction c =>
    have ht : track none (.startClientTransaction c) s' = some ⟨some c.bytes, true⟩ := by
      simp [track, hst]
    rw [ht, habs]
    exact .startById c rfl
  case startClientTransactionByAddress a =>
    have ht : track none (.startClientTransactionByAddress a) s' =
        some ⟨some (e.text EntryClient.clientId), false⟩ := by
      simp [track, hst, hget]
    rw [ht, habs]
    exact .startByAddress a _ _ rfl (h.map_eq_some.2 ⟨i, e, hslot, hlive.key, rfl⟩)
      (by simpa [hasAddress, EntryClient.session] using hq)

theorem simulates_missing (h : RegInv g s rs) {q : EntryClient → Bool} (hop : op.wanted = some q)
    (hclosed : s.transactionStarted = false)
    (hnone : ∀ (j : Nat) (b : EntryClient), rs[j]? = some b → q b = false) (busy : Bool)
    (hs' : s' = { s with
      transactionStarted := true, error := false, notInClientRegistry := true,
      entryClient := Record.zero 57 }) :
    Sessions.Step p busy (s.abs g) op (s'.abs (track g op s')) := by
  have hst : s'.transactionStarted = true := by rw [hs']
  have hget : s'.getClientId = none := by rw [hs']; simp [getClientId]
  obtain rfl : g = none := by simpa [hclosed] using h.started
  have habs : ∀ t, s'.abs (some t) = { s.abs none with tx := some t, error := false } := by
    intro t
    rw [hs']
    rfl
  cases op <;> simp only [Op.wanted, reduceCtorEq, Option.some.injEq] at hop <;> subst hop
  case startClientTransaction c =>
    have ht : track none (.startClientTransaction c) s' = some ⟨some c.bytes, true⟩ := by
      simp [track, hst]
    rw [ht, habs]
    exact .startById c rfl
  case startClientTransactionByAddress a =>
    have ht : track none (.startClientTransactionByAddress a) s' = some ⟨none, false⟩ := by
      simp [track, hst, hget]
    rw [ht, habs]
    refine .startByUnknownAddress a rfl fun k σ hσ => ?_
    obtain ⟨j, b, hb, -, rfl⟩ := h.map_eq_some.1 hσ
    simpa [hasAddress, EntryClient.session] using hnone j b hb

theorem simulates_rewrite (h : RegInv g s rs) {i : Nat} {e' : EntryClient} (ha : Allowed p g s op)
    (hopen : s.blocked = false) (hin : s.notInClientRegistry = false)
    (hslot : rs[i]? = some s.entryClient) (hlive : Live i s.entryClient)
    (hrw : op.rewrite p s.entryClient = some e')
    (hid : e'.text EntryClient.clientId = s.entryClient.text EntryClient.clientId)
    (hnum : e'.text EntryClient.fileNumber = s.entryClient.text EntryClient.fileNumber)
    {busy : Bool}
    (hs' : s' =
      { s with
        entryClient := e', fs := s.fs.set clientRegistry (encode (SlotTable.place rs i e')) }) :
    Sessions.Step p busy (s.abs g) op (s'.abs (track g op s')) := by
  obtain ⟨t, j, rfl, -, -, ht⟩ := h.slot_of_registered hopen hin
  have h' : RegInv (track (some t) op s') s' _ := h.rewrite hin hslot hlive hid hnum hs'
  have hlive' : Live i e' := hlive.rewrite hid hnum
  have hmap := h.map_place_live h' (RegTable.index_lt hslot).le hlive' fun b k hb hbk => by
    rw [hslot] at hb
    cases hb
    rw [hid]; exact (clientKey_eq_some.1 hbk).1.symm
  have hlen : ∀ c a d, op = .resetClient c a d → c.length < 24 := by
    rintro c a d rfl
    exact (h.client t rfl c.bytes (ha.2.2 t rfl)).2
  rw [h.abs_write hmap (by rw [hs']) (by rw [hs'])]
  refine .change op _ _ _ (h.open_iff.2 hopen) ?_ (h.current_registered hopen hin)
    (change_session hlen hrw)
  rintro t' ⟨⟩
  rw [ht, hid]

theorem simulates_add (h : RegInv g s rs) {c : CString} {a : DeviceAddress} {d : UInt32} {k : Nat}
    (hc : ∀ t ∈ g, t.client = some c.bytes) (hopen : s.blocked = false)
      (hout : s.notInClientRegistry = true)
    (hk : k ≤ rs.length) (hlt : k < 2 ^ 16 - 1) (hfree : ∀ e, rs[k]? = some e → e = Record.zero 57)
    (hlive : Live k (newEntryClient p c k a d))
    (hid : (newEntryClient p c k a d).text EntryClient.clientId = c.bytes) (busy : Bool)
    (hs' : s' = { s with
      entryClient := newEntryClient p c k a d
      notInClientRegistry := false
      fs := (s.fs.createSlot k).set clientRegistry
        (encode (SlotTable.place rs k (newEntryClient p c k a d))) }) :
    Sessions.Step p busy (s.abs g) (.addClient c a d) (s'.abs (track g (.addClient c a d) s')) := by
  have h' : RegInv (track g (.addClient c a d) s') s' _ :=
    h.add hopen hc hout hk hlt hlive hid (Files.contents_set_self _) hs'
  have hmap := h.map_place_live h' hk hlive fun b k' hb hbk => by
    rw [hfree b hb] at hbk
    simp at hbk
  rw [hid, session_newEntryClient] at hmap
  rw [h.abs_write hmap (by rw [hs']) (by rw [hs'])]
  exact .add c a d (h.open_iff.2 hopen) (h.current_unregistered hopen hout)

theorem simulates_delete (h : RegInv g s rs) {c : CString} {i : Nat}
    (hc : ∀ t ∈ g, t.client = some c.bytes)
    (hopen : s.blocked = false) (hin : s.notInClientRegistry = false)
      (hsubs : s.getClientSubscriptionCount = 0)
    (hslot : rs[i]? = some s.entryClient) (hlive : Live i s.entryClient)
    (hs' : s' = { s with
      entryClient := Record.zero 57
      notInClientRegistry := true
      fs := (s.fs.removeSlot i).set clientRegistry (encode (SlotTable.place rs i (Record.zero 57)))
      }) :
    Sessions.Step p (decide (0 < s.getClientSubscriptionCount)) (s.abs g) (.deleteClient c)
      (s'.abs (track g (.deleteClient c) s')) := by
  obtain ⟨t, j, rfl, -, -, ht⟩ := h.slot_of_registered hopen hin
  have h' : RegInv (track (some t) (.deleteClient c) s') s' _ :=
    h.delete hin hslot hlive (Files.contents_set_self _) hs'
  have hmap := h.map_place_zero h' hslot hlive
  have hcid : s.entryClient.text EntryClient.clientId = c.bytes := by
    have := hc t rfl
    rw [ht] at this; exact Option.some.inj this
  rw [hcid] at hmap
  rw [h.abs_write hmap (by rw [hs']) (by rw [hs'])]
  exact .delete c (h.open_iff.2 hopen) (by rw [h.current_registered hopen hin]; rfl)
    (by simp [hsubs])

/-- The store refines the map of sessions: every allowed operation is a step of the map. -/
theorem simulates (h : RegInv g s rs) (ha : Allowed p g s op) (he : Effect p s rs op s') :
    Sessions.Step p (decide (0 < s.getClientSubscriptionCount)) (s.abs g) op
      (s'.abs (track g op s')) := by
  cases he with
  | other hop hl =>
    rw [h.abs_keep (h.contents_of_local hl) hl.transactionStarted]
    exact .other op _ hop hl.error
  | skip hskip => exact h.simulates_skip hskip _
  | raise hraise => exact h.simulates_raise hraise rfl
  | begin hop _ _ =>
    subst hop
    rw [h.abs_close ?_ rfl]
    · exact .begin
    · exact (Files.contents_begin clientRegistry_ne_mqttSub).trans h.file
  | found q i e hop hclosed hslot hlive hq _ =>
    exact h.simulates_found hop hclosed hslot hlive hq _ rfl
  | missing q hop hclosed hnone => exact h.simulates_missing hop hclosed hnone _ rfl
  | apply hop =>
    subst hop
    rw [h.abs_close ?_ rfl]
    · exact .apply
    · exact h.file
  | rewrite i e' hopen hin hslot hlive hrw hid hnum =>
    exact h.simulates_rewrite ha hopen hin hslot hlive hrw hid hnum rfl
  | add c a d k hop hopen hout hk hlt hfree hlive hid =>
    subst hop
    exact h.simulates_add (fun t ht => (ha.2.2 t ht).2) hopen hout hk hlt hfree hlive hid _ rfl
  | delete c i hop hopen hin hsubs hslot hlive =>
    subst hop
    exact h.simulates_delete ha.2 hopen hin hsubs hslot hlive rfl

/-! ### Replies -/

theorem reply_of_blocked (h : RegInv g s rs) (hb : s.blocked = true) {r : Reply}
    (hr : (s.abs g).reply p op = some r) : (s.step p PERSISTENT_DEBUG op).1 = r := by
  have htx : (s.abs g).tx.isSome = s.transactionStarted := h.started.symm
  have herr : (s.abs g).error = s.error := rfl
  have hno : ¬ (s.transactionStarted = true ∧ s.error = false) := by
    rintro ⟨h1, h2⟩
    simp [blocked, h1, h2] at hb
  have happly : s.applyTransaction.1 = 0 := by
    unfold applyTransaction
    split
    · next h1 => rw [if_pos]; simpa [h1] using hno
    · rfl
  have hand : (s.transactionStarted && !s.error) = false := by
    cases h1 : s.transactionStarted <;> cases h2 : s.error <;> simp_all [blocked]
  cases op <;> simp only [Sessions.reply, reduceCtorEq, Option.some.injEq, htx, herr]
    at hr <;> subst hr
  case applyTransaction => simp [step, happly, hno, ← and_assoc]
  case clientExist => simp [step, clientExist, hb, hand]
  case getClientId => simp [step, getClientId, hb, hno, ← and_assoc]
  case getClientStatus => simp [step, getClientStatus, hb, hno]
  case getClientAwaitMsgId => simp [step, getClientAwaitMsgId, hb, hno]
  case getClientAwaitMessageType => simp [step, getClientAwaitMessageType, hb, hno]

theorem reply_of_unregistered (h : RegInv g s rs) (hopen : s.blocked = false)
    (hout : s.notInClientRegistry = true) {r : Reply} (hr : (s.abs g).reply p op = some r) :
    (s.step p PERSISTENT_DEBUG op).1 = r := by
  have htx : (s.abs g).tx.isSome = s.transactionStarted := h.started.symm
  have herr : (s.abs g).error = s.error := rfl
  have hcur := h.current_unregistered hopen hout
  obtain ⟨hs, he⟩ : s.transactionStarted = true ∧ s.error = false := by simpa [blocked] using hopen
  cases op <;> simp only [Sessions.reply, reduceCtorEq, Option.some.injEq, htx, herr, hcur]
    at hr <;> subst hr
  all_goals
    simp [step, applyTransaction, clientExist, getClientId, getClientStatus, getClientAwaitMsgId,
      getClientAwaitMessageType, hopen, hout, hs, he]

theorem reply_of_registered (h : RegInv g s rs) (hopen : s.blocked = false)
    (hin : s.notInClientRegistry = false) {r : Reply} (hr : (s.abs g).reply p op = some r) :
    (s.step p PERSISTENT_DEBUG op).1 = r := by
  have htx : (s.abs g).tx.isSome = s.transactionStarted := h.started.symm
  have herr : (s.abs g).error = s.error := rfl
  have hcur := h.current_registered hopen hin
  obtain ⟨hs, he⟩ : s.transactionStarted = true ∧ s.error = false := by simpa [blocked] using hopen
  obtain ⟨t, i, rfl, -, hlive, hid⟩ := h.slot_of_registered hopen hin
  have hclient : (s.abs (some t)).tx.bind Tx.client =
      some (s.entryClient.text EntryClient.clientId) := hid
  have hlen : ¬ MAXIMUM_CLIENT_ID_LENGTH ≤ (s.entryClient.text EntryClient.clientId).length :=
    Nat.not_le.2 hlive.id_lt
  cases op <;> simp only [Sessions.reply, reduceCtorEq, Option.some.injEq, htx, herr, hcur, hclient]
    at hr <;> subst hr
  all_goals
    simp [step, applyTransaction, clientExist, getClientId, getClientStatus, getClientAwaitMsgId,
      getClientAwaitMessageType, hopen, hin, hs, he, hlen, EntryClient.session]

theorem reply_eq (h : RegInv g s rs) {r : Reply} (hr : (s.abs g).reply p op = some r) :
    (s.step p PERSISTENT_DEBUG op).1 = r := by
  by_cases hb : s.blocked = true
  · exact h.reply_of_blocked hb hr
  · have hopen := blocked_of_not hb
    cases hin : s.notInClientRegistry with
    | true => exact h.reply_of_unregistered hopen hin hr
    | false => exact h.reply_of_registered hopen hin hr

end RegInv

variable {p : Platform} {g : Option Tx} {s s₀ : Persistent}

theorem Reachable.sessions (h : Reachable p s₀ g s) (h₀ : Fresh s₀) :
    Sessions.Reachable p (.empty s₀.error) (s.abs g) := by
  induction h with
  | init =>
    have hempty : s₀.abs none = .empty s₀.error := by
      have hrec : s₀.records = [] := records_of_contents h₀.noClients
      simp only [Persistent.abs, hrec, Sessions.empty]
      rfl
    rw [hempty]
    exact .init
  | step op hr ha ih =>
    obtain ⟨rs, hi⟩ := hr.inv h₀
    exact .step ih (hi.simulates ha (hi.effect_of_allowed ha))

/-- The registry, from an empty `CLIENTS` file on: in every reachable state the file is a sequence
of whole records, each of them all-zero or a client in the slot its `file_number` names, no client
id occurs twice, the cached record of an open transaction is the one on file, and the file stands
for the map of sessions that the operations so far have built; the next operation changes the map,
and replies, as the map says. -/
theorem registry_refines_sessions (h₀ : Fresh s₀) (h : Reachable p s₀ g s) :
    (∃ rs : List EntryClient, s.fs.contents clientRegistry = encode rs ∧
      (∀ (i : Nat) (e : EntryClient), rs[i]? = some e → e = Record.zero 57 ∨ Live i e) ∧
      (∀ (i j : Nat) (e b : EntryClient), rs[i]? = some e → rs[j]? = some b →
        e.text EntryClient.clientId ≠ [] → e.text EntryClient.clientId =
          b.text EntryClient.clientId → i = j) ∧
      ∀ t ∈ g, Cached t s rs) ∧
    Sessions.Reachable p (.empty s₀.error) (s.abs g) ∧
    ∀ op, Allowed p g s op →
      Sessions.Step p (decide (0 < s.getClientSubscriptionCount)) (s.abs g) op
        ((s.next p op).abs (track g op (s.next p op))) ∧
      ∀ r ∈ (s.abs g).reply p op, (s.step p PERSISTENT_DEBUG op).1 = r := by
  obtain ⟨rs, hi⟩ := h.inv h₀
  refine ⟨⟨rs, hi.file, hi.table.slot, ?_, hi.cached⟩, h.sessions h₀, fun op ha =>
    ⟨hi.simulates ha (hi.effect_of_allowed ha), fun r hr => hi.reply_eq hr⟩⟩
  intro i j e b he hb hne hid
  have hke : clientKey e = some (e.text EntryClient.clientId) := clientKey_eq_some.2 ⟨rfl, hne⟩
  have hkb : clientKey b = some (e.text EntryClient.clientId) := clientKey_eq_some.2 ⟨hid.symm, hne⟩
  exact hi.table.distinct i j e b _ he hb hke hkb

theorem registry_refines_sessions_two_clients :
    let ops : List Op :=
      [.begin, .startClientTransaction device1, .addClient device1 address1 60, .applyTransaction,
        .startClientTransaction device2, .addClient device2 address2 60, .setTimeout 5,
        .applyTransaction]
    (setUp.run posix ops).registeredCount = 2 ∧
      Sessions.Reachable posix (.empty false)
        ((setUp.run posix ops).abs (runTx posix none setUp ops)) := by
  intro ops
  have h : Reachable posix setUp (runTx posix none setUp ops) (setUp.run posix ops) :=
    Reachable.init.run (by decide +kernel)
  exact ⟨by decide +kernel, (registry_refines_sessions ⟨rfl, rfl⟩ h).2.1⟩

end SnGateway
