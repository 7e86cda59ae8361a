import SnGateway.Sessions

/-!
# Isolation between clients

A client that is not the one of the open transaction keeps its record and its four files
(`RegInv.frame`): slots of different clients are different, and so are the names of their files.

`SameClient` relates two states whose transactions look the same from inside: same record, same
flags, same four files. The queries of a transaction cannot tell such states apart
(`SameClient.replies`).
-/

namespace SnGateway
open RecordStore Persistent

variable {p : Platform} {g : Option Tx} {s s' s₀ : Persistent} {rs : List EntryClient} {op : Op}

/-! ### One operation -/

theorem bytes_ne_slotFile (x y : FileEnding) (j : Nat) : slotFile j y ≠ x.bytes := by
  intro h
  have hl := length_slotFile_ge j y
  rw [h, FileEnding.length_bytes] at hl
  omega

theorem slotFile_ne_of_slot {i j : Nat} (h : i ≠ j) (x y : FileEnding) :
    slotFile i x ≠ slotFile j y :=
  fun he => h (slotFile_injective he).1

namespace RegInv

theorem slot_ne (h : RegInv g s rs) (hopen : s.blocked = false)
    (hin : s.notInClientRegistry = false) {i j : Nat} {e : EntryClient}
    (hi : rs[i]? = some s.entryClient) (hj : rs[j]? = some e)
    (hother : ∀ t ∈ g, t.client ≠ some (e.text EntryClient.clientId)) : j ≠ i := by
  rintro rfl
  obtain ⟨t, -, rfl, -, -, hid⟩ := h.slot_of_registered hopen hin
  rw [hi] at hj; cases hj
  exact hother t rfl hid

/-- What an operation leaves alone: every client but the one of the open transaction. -/
theorem frame (h : RegInv g s rs) (he : Effect p s rs op s') {j : Nat} {e : EntryClient}
    (hj : rs[j]? = some e) (hl : Live j e)
    (hother : ∀ t ∈ g, t.client ≠ some (e.text EntryClient.clientId)) :
    s'.records[j]? = some e ∧ ∀ x, s'.fs (slotFile j x) = s.fs (slotFile j x) := by
  have hkeep : ∀ {u : Persistent}, u.fs.contents clientRegistry = encode rs →
      u.records[j]? = some e := by
    intro u hu
    rw [records_of_contents hu]
    exact hj
  cases he with
  | other hop hlocal =>
    refine ⟨hkeep (h.contents_of_local hlocal), fun x =>
      hlocal.fs_eq (slotFile_ne_mqttSub j x) fun y hopen => ?_⟩
    rcases h.clientFile_cases hopen with ⟨i, hin, hi, -, hf⟩ | ⟨-, hf⟩
    · rw [hf]; exact slotFile_ne_of_slot (h.slot_ne hopen hin hi hj hother) x y
    · rw [hf]; exact bytes_ne_slotFile y x j
  | skip | raise | found | missing | apply => exact ⟨hkeep h.file, fun _ => rfl⟩
  | begin _ _ _ =>
    refine ⟨hkeep ?_, fun x => Files.slotFile_begin j x⟩
    exact (Files.contents_begin clientRegistry_ne_mqttSub).trans h.file
  | rewrite i e' hopen hin hslot _ _ _ _ =>
    have hne := h.slot_ne hopen hin hslot hj hother
    refine ⟨?_, fun x => Files.set_ne _ (slotFile_ne_clientRegistry j x)⟩
    rw [records_of_contents (Files.contents_set_self _),
      SlotTable.getElem?_place (RegTable.index_lt hslot).le, if_neg hne]
    exact hj
  | add c a d k _ _ _ hk _ hfree _ _ =>
    have hne : j ≠ k := by
      rintro rfl
      have := hl.id_ne
      rw [hfree e hj, text_clientId_zero] at this
      exact this rfl
    refine ⟨?_, fun x => ?_⟩
    · rw [records_of_contents (Files.contents_set_self _), SlotTable.getElem?_place hk, if_neg hne]
      exact hj
    · exact (Files.set_ne _ (slotFile_ne_clientRegistry j x)).trans
        (Files.createSlot_ne fun y => slotFile_ne_of_slot hne x y)
  | delete c i _ hopen hin _ hslot _ =>
    have hne := h.slot_ne hopen hin hslot hj hother
    refine ⟨?_, fun x => ?_⟩
    · rw [records_of_contents (Files.contents_set_self _),
        SlotTable.getElem?_place (RegTable.index_lt hslot).le, if_neg hne]
      exact hj
    · exact (Files.set_ne _ (slotFile_ne_clientRegistry j x)).trans
        (Files.removeSlot_ne fun y => slotFile_ne_of_slot hne x y)

end RegInv

/-! ### Queries of a transaction -/

/-- The operations that ask for the data of the transaction's client. -/
def Op.isClientQuery : Op → Bool
  | .clientExist | .getClientId | .getClientStatus | .getClientAwaitMsgId |
    .getClientAwaitMessageType
  | .hasClientWill | .getClientWill | .getTopicName _ | .getTopicId _ | .isTopicKnown _ |
      .isSubscribed _
  | .getSubscriptionQos _ | .getSubscriptionTopicId _ | .hasClientPublishes |
      .getNthSubscribedTopicId _
  | .getClientSubscriptionCount | .getNextPublish => true
  | _ => false

/-- The transactions of two states look the same from inside. -/
structure SameClient (s s' : Persistent) : Prop where
  entryClient : s'.entryClient = s.entryClient
  notInClientRegistry : s'.notInClientRegistry = s.notInClientRegistry
  transactionStarted : s'.transactionStarted = s.transactionStarted
  error : s'.error = s.error
  files : ∀ x, s'.fs (s.clientFile x) = s.fs (s.clientFile x)

namespace SameClient

theorem blocked (h : SameClient s s') : s'.blocked = s.blocked := by
  rw [Persistent.blocked, Persistent.blocked, h.transactionStarted, h.error]

theorem clientFile (h : SameClient s s') (x : FileEnding) : s'.clientFile x = s.clientFile x := by
  rw [Persistent.clientFile, Persistent.clientFile, h.entryClient]

theorem contents (h : SameClient s s') (x : FileEnding) :
    s'.fs.contents (s'.clientFile x) = s.fs.contents (s.clientFile x) := by
  rw [h.clientFile, Files.contents_congr (h.files x)]

theorem readAt (h : SameClient s s') (x : FileEnding) (target n : Nat) :
    s'.fs.readAt p (s'.clientFile x) target n = s.fs.readAt p (s.clientFile x) target n := by
  rw [Files.readAt, Files.readAt, h.contents]

theorem findSubscription (h : SameClient s s') (t : CString) :
    s'.findSubscription t = s.findSubscription t := by
  rw [Persistent.findSubscription, Persistent.findSubscription, h.contents]

theorem readWill (h : SameClient s s') : s'.readWill = s.readWill := by
  rw [Persistent.readWill, Persistent.readWill, h.contents]

theorem raise (h : SameClient s s') :
    SameClient { s with error := true } { s' with error := true } :=
  ⟨h.entryClient, h.notInClientRegistry, h.transactionStarted, rfl, h.files⟩

theorem isTopicKnown (h : SameClient s s') (i : UInt16) :
    (s'.isTopicKnown i).1 = (s.isTopicKnown i).1 ∧
      SameClient (s.isTopicKnown i).2 (s'.isTopicKnown i).2 := by
  unfold Persistent.isTopicKnown
  by_cases hb : s.blocked = true
  · rw [if_pos hb, if_pos (h.blocked.trans hb)]
    exact ⟨rfl, h⟩
  rw [if_neg hb, if_neg (by rw [h.blocked]; exact hb)]
  by_cases hn : s.notInClientRegistry = true
  · rw [if_pos hn, if_pos (h.notInClientRegistry.trans hn)]
    exact ⟨rfl, h⟩
  rw [if_neg hn, if_neg (by rw [h.notInClientRegistry]; exact hn)]
  by_cases hi : i = 0
  · rw [if_pos hi, if_pos hi]
    exact ⟨rfl, h.raise⟩
  rw [if_neg hi, if_neg hi, h.contents]
  dsimp only
  split <;> exact ⟨rfl, h⟩

theorem step (h : SameClient s s') (hq : op.isClientQuery = true) :
    (s'.step p PERSISTENT_DEBUG op).1 = (s.step p PERSISTENT_DEBUG op).1 ∧
      SameClient (s.next p op) (s'.next p op) := by
  have hc := h.contents
  cases op <;> simp only [Op.isClientQuery, Bool.false_eq_true] at hq
  case isTopicKnown i =>
    obtain ⟨h1, h2⟩ := h.isTopicKnown i
    exact ⟨congrArg (Reply.ofOption .bool) h1, h2⟩
  all_goals
    refine ⟨?_, h⟩
    simp only [Persistent.step, clientExist, getClientId, getClientStatus, getClientAwaitMsgId,
      getClientAwaitMessageType, hasClientWill, getClientWill, getTopicName, getTopicId,
      isSubscribed,
      getSubscriptionQos, getSubscriptionTopicId, hasClientPublishes, getNthSubscribedTopicId,
      getClientSubscriptionCount, getNextPublish, h.blocked, h.notInClientRegistry, h.entryClient,
      h.findSubscription, h.readWill, h.readAt, hc]

end SameClient

def Persistent.replies (p : Platform) : Persistent → List Op → List Reply
  | _, [] => []
  | s, op :: ops => (s.step p PERSISTENT_DEBUG op).1 :: (s.next p op).replies p ops

theorem SameClient.replies (h : SameClient s s') {qs : List Op}
    (hqs : ∀ q ∈ qs, q.isClientQuery = true) : s'.replies p qs = s.replies p qs := by
  induction qs generalizing s s' with
  | nil => rfl
  | cons q qs ih =>
    obtain ⟨hr, hnext⟩ := h.step (p := p) (hqs q (List.mem_cons_self ..))
    rw [Persistent.replies, Persistent.replies, hr, ih hnext fun q' hq' =>
      hqs q' (List.mem_cons_of_mem _ hq')]

/-! ### Runs of other clients -/

/-- No operation of the run is executed in a transaction on the client with id `b`. -/
def Elsewhere (p : Platform) (b : List UInt8) : Option Tx → Persistent → List Op → Prop
  | _, _, [] => True
  | g, s, op :: ops =>
    (∀ t ∈ g, t.client ≠ some b) ∧ Elsewhere p b (track g op (s.next p op)) (s.next p op) ops

def decidableElsewhere (p : Platform) (b : List UInt8) :
    ∀ (g : Option Tx) (s : Persistent) (ops : List Op), Decidable (Elsewhere p b g s ops)
  | _, _, [] => .isTrue trivial
  | g, s, op :: ops =>
    have := decidableElsewhere p b (track g op (s.next p op)) (s.next p op) ops
    inferInstanceAs (Decidable (_ ∧ _))

instance (p : Platform) (b : List UInt8) (g : Option Tx) (s : Persistent) (ops : List Op) :
    Decidable (Elsewhere p b g s ops) :=
  decidableElsewhere p b g s ops

/-- The transaction that is opened by `start` once the current one is closed. -/
def Persistent.opened (p : Platform) (s : Persistent) (start : Op) : Persistent :=
  (s.next p .applyTransaction).next p start

/-- The ways to open a transaction on the client with id `b`: by its id or by some address. -/
def OpensOn (b : CString) (start : Op) : Prop :=
  start = .startClientTransaction b ∨ ∃ a, a ≠ Record.zero 6 ∧
    start = .startClientTransactionByAddress a

namespace Persistent

theorem opened_startClientTransaction {b : CString} (hlen : b.length < MAXIMUM_CLIENT_ID_LENGTH) :
    s.opened p (.startClientTransaction b) = attach (hasClientId b)
      { s with transactionStarted := true, error := false, notInClientRegistry := true } := by
  show startClientTransaction b s.applyTransaction.2 = _
  rw [applyTransaction_state]
  simp [startClientTransaction, Nat.not_le.2 hlen]

theorem opened_startClientTransactionByAddress (a : DeviceAddress) :
    s.opened p (.startClientTransactionByAddress a) = attach (hasAddress a)
      { s with transactionStarted := true, error := false, notInClientRegistry := false } := by
  show startClientTransactionByAddress a s.applyTransaction.2 = _
  rw [applyTransaction_state]
  simp [startClientTransactionByAddress]

end Persistent

namespace RegInv

theorem frame_run (h : RegInv g s rs) {ops : List Op} {j : Nat} {e : EntryClient}
    (ha : AllowedRun p g s ops) (hl : Live j e)
    (hother : Elsewhere p (e.text EntryClient.clientId) g s ops) (hj : rs[j]? = some e) :
    (s.run p ops).records[j]? = some e ∧ ∀ x, (s.run p ops).fs (slotFile j x) =
      s.fs (slotFile j x) := by
  induction ops generalizing g s rs with
  | nil => exact ⟨by rw [run, List.foldl_nil, records_of_contents h.file]; exact hj, fun _ => rfl⟩
  | cons op ops ih =>
    obtain ⟨rs', h'⟩ := h.next ha.1
    obtain ⟨hrec, hfiles⟩ := h.frame (h.effect_of_allowed ha.1) hj hl hother.1
    rw [records_of_contents h'.file] at hrec
    obtain ⟨hrun, hfiles'⟩ := ih h' ha.2 hother.2 hrec
    exact ⟨hrun, fun x => (hfiles' x).trans (hfiles x)⟩

theorem attach_on (h : RegInv g s rs) {q : EntryClient → Bool} {j : Nat}
    {e : EntryClient} {m : Bool}
    (hq : q (Record.zero 57) = false) (hj : rs[j]? = some e) (hl : Live j e)
    (hid : (attach q { s with
      transactionStarted := true, error := false, notInClientRegistry := m }).getClientId =
        some (e.text EntryClient.clientId)) :
    attach q { s with transactionStarted := true, error := false, notInClientRegistry := m } =
      { s with
        transactionStarted := true, error := false, notInClientRegistry := false,
        entryClient := e } := by
  unfold attach at hid ⊢
  rw [h.file] at hid ⊢
  rcases h.table.scan_cases hq with ⟨i, e', hi, hl', -, -, hscan⟩ | ⟨-, hscan⟩
  · rw [hscan] at hid ⊢
    rw [getClientId_found hl'] at hid
    have hk : clientKey e' = some (e.text EntryClient.clientId) := by rw [hl'.key]; exact hid
    obtain rfl := h.table.distinct i j e' e _ hi hj hk hl.key
    rw [hi] at hj; cases hj
    rfl
  · rw [hscan] at hid
    simp [getClientId] at hid

theorem opened_on (h : RegInv g s rs) {b : CString} {start : Op} {j : Nat} {e : EntryClient}
    (hj : rs[j]? = some e) (hl : Live j e) (hb : e.text EntryClient.clientId = b.bytes)
    (hstart : OpensOn b start) (hid : (s.opened p start).getClientId = some b.bytes) :
    s.opened p start = { s with
      transactionStarted := true, error := false, notInClientRegistry := false,
      entryClient := e } := by
  have hlen : b.length < MAXIMUM_CLIENT_ID_LENGTH := by rw [CString.length, ← hb]; exact hl.id_lt
  have hne : b.bytes ≠ [] := by rw [← hb]; exact hl.id_ne
  rw [← hb] at hid
  rcases hstart with rfl | ⟨a, ha, rfl⟩
  · rw [opened_startClientTransaction hlen] at hid ⊢
    exact h.attach_on (hasClientId_zero hne) hj hl hid
  · rw [opened_startClientTransactionByAddress] at hid ⊢
    exact h.attach_on (hasAddress_zero ha) hj hl hid

theorem opened_byId (h : RegInv g s rs) {b : CString} {j : Nat} {e : EntryClient}
    (hj : rs[j]? = some e) (hl : Live j e) (hb : e.text EntryClient.clientId = b.bytes) :
    (s.opened p (.startClientTransaction b)).getClientId = some b.bytes := by
  have hlen : b.length < MAXIMUM_CLIENT_ID_LENGTH := by rw [CString.length, ← hb]; exact hl.id_lt
  have hne : b.bytes ≠ [] := by rw [← hb]; exact hl.id_ne
  rw [opened_startClientTransaction hlen]
  unfold attach
  rw [h.file]
  rcases h.table.scan_cases (hasClientId_zero hne) with ⟨i, e', hi, hl', hq, -, hscan⟩ | ⟨hnone, -⟩
  · rw [hscan]
    have hq' : e'.text EntryClient.clientId = b.bytes := by simpa [hasClientId] using hq
    rw [← hq']
    exact getClientId_found hl'
  · have := hnone j e hj
    simp [hasClientId, hb] at this

end RegInv

/-- While transactions are on other clients, a registered client keeps its record and its four files
byte for byte, it stays registered, and queries in a transaction on it get the replies they got
before. -/
theorem other_clients_isolated (h₀ : Fresh s₀) (h : Reachable p s₀ g s) {b : CString} {j : Nat}
    {e : EntryClient} (hj : s.records[j]? = some e) (hb : e.text EntryClient.clientId = b.bytes)
    (hne : b.bytes ≠ []) {ops : List Op} (ha : AllowedRun p g s ops)
    (hother : Elsewhere p b.bytes g s ops) :
    (s.run p ops).records[j]? = some e ∧
    (∀ x, (s.run p ops).fs (EntryClient.fileName e x) = s.fs (EntryClient.fileName e x)) ∧
    ((s.run p ops).opened p (.startClientTransaction b)).getClientId = some b.bytes ∧
    ∀ start qs, OpensOn b start → (s.opened p start).getClientId = some b.bytes →
      ((s.run p ops).opened p start).getClientId = some b.bytes →
      (∀ q ∈ qs, q.isClientQuery = true) →
      ((s.run p ops).opened p start).replies p qs = (s.opened p start).replies p qs := by
  obtain ⟨rs, hi⟩ := h.inv h₀
  obtain ⟨rs', hi'⟩ := (h.run ha).inv h₀
  rw [records_of_contents hi.file] at hj
  have hl : Live j e := hi.table.live_of_key hj (clientKey_eq_some.2 ⟨hb, hne⟩)
  rw [← hb] at hother
  obtain ⟨hrec, hfiles⟩ := hi.frame_run ha hl hother hj
  have hj' : rs'[j]? = some e := by rw [← records_of_contents hi'.file]; exact hrec
  have hfiles' : ∀ x, (s.run p ops).fs (EntryClient.fileName e x) =
      s.fs (EntryClient.fileName e x) := by
    intro x
    rw [hl.fileName]
    exact hfiles x
  refine ⟨hrec, hfiles', hi'.opened_byId hj' hl hb, fun start qs hstart hon hon' hqs => ?_⟩
  have hs := hi.opened_on hj hl hb hstart hon
  have hs' := hi'.opened_on hj' hl hb hstart hon'
  have hsame : SameClient (s.opened p start) ((s.run p ops).opened p start) := by
    rw [hs, hs']
    exact ⟨rfl, rfl, rfl, rfl, hfiles'⟩
  exact hsame.replies hqs

theorem other_clients_isolated_delete :
    let before : List Op :=
      [.begin, .startClientTransaction device1, .addClient device1 address1 60,
        .applyTransaction, .startClientTransaction device2, .addClient device2 address2 60,
        .setClientWillmessage ⟨[1, 2, 3], by decide⟩, .applyTransaction]
    let during : List Op :=
      [.startClientTransaction device1, .deleteClient device1, .applyTransaction]
    let queries : List Op := [.getClientId, .hasClientWill, .getClientWill]
    let s := setUp.run posix before
    let s' := s.run posix during
    s'.registeredCount = 1 ∧ s'.records[1]? = some (newEntryClient posix device2 1 address2 60) ∧
      (s'.opened posix (.startClientTransaction device2)).replies posix queries =
        (s.opened posix (.startClientTransaction device2)).replies posix queries := by
  intro before during queries s s'
  have hr : Reachable posix setUp (runTx posix none setUp before) s :=
    Reachable.init.run (by decide +kernel)
  have hj : s.records[1]? = some (newEntryClient posix device2 1 address2 60) := by decide +kernel
  have ha : AllowedRun posix (runTx posix none setUp before) s during := by decide +kernel
  have he : Elsewhere posix device2.bytes (runTx posix none setUp before) s during := by
    decide +kernel
  obtain ⟨hrec, -, hon', hqs⟩ := other_clients_isolated ⟨rfl, rfl⟩ hr hj (by decide +kernel)
    (by decide) ha he
  exact ⟨by decide +kernel, hrec, hqs _ queries (.inl rfl) (by decide +kernel) hon' (by decide)⟩

end SnGateway
