import SnGateway.RegistrySpec

/-!
# The registry invariant over whole runs

`RegInv` holds when the registry is empty and no transaction is open, and every allowed operation
keeps it (`RegInv.next`), so it holds in every reachable state (`Reachable.inv`).
-/

namespace SnGateway
open RecordStore Persistent

/-- The states the core can bring the store to from `s₀`, with the transaction that is open. -/
inductive Reachable (p : Platform) (s₀ : Persistent) : Option Tx → Persistent → Prop where
  | init : Reachable p s₀ none s₀
  | step {g : Option Tx} {s : Persistent} (op : Op) (h : Reachable p s₀ g s)
      (ha : Allowed p g s op) :
      Reachable p s₀ (track g op (s.next p op)) (s.next p op)

/-- No client is registered and no transaction is open. -/
structure Fresh (s : Persistent) : Prop where
  noClients : s.fs.contents clientRegistry = []
  closed : s.transactionStarted = false

variable {p : Platform} {g : Option Tx} {s s' : Persistent} {rs rs' : List EntryClient} {op : Op}

/-! ### The open transaction -/

theorem track_of_closed (h : s'.transactionStarted = false) : track g op s' = none := by
  simp [track, h]

theorem track_of_started_eq (h : s'.transactionStarted = g.isSome) : track g op s' = g := by
  cases g with
  | none => exact track_of_closed h
  | some t => simp [track, h]

theorem track_of_opened {q : EntryClient → Bool} (hop : op.wanted = some q)
    (h : s'.transactionStarted = true) :
    track none op s' = some ⟨s'.getClientId, false⟩ ∨
      ∃ c, op = .startClientTransaction c ∧ q = hasClientId c ∧
      track none op s' = some ⟨some c.bytes, true⟩ := by
  cases op <;> simp only [Op.wanted, reduceCtorEq, Option.some.injEq] at hop
  case startClientTransaction c => exact .inr ⟨c, rfl, hop.symm, by simp [track, h]⟩
  case startClientTransactionByAddress a => exact .inl (by simp [track, h])

/-! ### Operations outside the registry -/

theorem Persistent.Local.fs_eq (h : Local s s') {n : FileName} (hshared : n ≠ mqttSub)
    (hown : ∀ x, s.blocked = false → n ≠ s.clientFile x) : s'.fs n = s.fs n := by
  cases h.touch with
  | quiet hfs => rw [hfs]
  | own x hopen hfs => exact hfs n (hown x hopen)
  | shared _ hfs => exact hfs n hshared

namespace RegInv

theorem init (h : Fresh s) : RegInv none s [] :=
  ⟨h.noClients, .nil, h.closed, by simp, by simp⟩

/-- The files an open transaction works on: those of its client's slot, or four names that belong to
no slot. -/
theorem clientFile_cases (h : RegInv g s rs) (hopen : s.blocked = false) :
    (∃ i, s.notInClientRegistry = false ∧ rs[i]? = some s.entryClient ∧ Live i s.entryClient ∧
        ∀ x, s.clientFile x = slotFile i x) ∨
      (s.notInClientRegistry = true ∧ ∀ x, s.clientFile x = x.bytes) := by
  obtain ⟨t, -, hc⟩ := h.tx_of_open hopen
  cases hc with
  | registered i hin hslot hlive _ => exact .inl ⟨i, hin, hslot, hlive, hlive.fileName⟩
  | unregistered hout hzero _ =>
    refine .inr ⟨hout, fun x => ?_⟩
    rw [clientFile, hzero, EntryClient.fileName, text_fileNumber_zero, List.nil_append]

theorem clientFile_ne_clientRegistry (h : RegInv g s rs) (hopen : s.blocked = false)
    (x : FileEnding) : s.clientFile x ≠ clientRegistry := by
  rcases h.clientFile_cases hopen with ⟨i, -, -, -, hf⟩ | ⟨-, hf⟩
  · rw [hf]; exact slotFile_ne_clientRegistry i x
  · rw [hf]; cases x <;> decide

theorem contents_of_local (h : RegInv g s rs) (hl : Local s s') :
    s'.fs.contents clientRegistry = encode rs := by
  rw [← h.file]
  exact Files.contents_congr (hl.fs_eq clientRegistry_ne_mqttSub fun x hopen =>
    (h.clientFile_ne_clientRegistry hopen x).symm)

end RegInv

theorem Cached.congr {t : Tx} (h : Cached t s rs) (he : s'.entryClient = s.entryClient)
    (hn : s'.notInClientRegistry = s.notInClientRegistry) : Cached t s' rs := by
  cases h with
  | registered i hin hslot hlive hid =>
    exact .registered i (hn.trans hin) (by rw [he]; exact hslot) (by rw [he]; exact hlive)
      (by rw [he]; exact hid)
  | unregistered hout hzero hfree => exact .unregistered (hn.trans hout) (he.trans hzero) hfree

theorem getClientId_found {i : Nat} {e : EntryClient} (hlive : Live i e) :
    getClientId { s with
      transactionStarted := true, error := false, notInClientRegistry := false, entryClient := e } =
        some (e.text EntryClient.clientId) := by
  simp [getClientId, blocked, MAXIMUM_CLIENT_ID_LENGTH, Nat.not_le.2 hlive.id_lt]

namespace RegInv

theorem keep (h : RegInv g s rs) (hfile : s'.fs.contents clientRegistry = encode rs)
    (he : s'.entryClient = s.entryClient) (hn : s'.notInClientRegistry = s.notInClientRegistry)
    (hs : s'.transactionStarted = s.transactionStarted) : RegInv (track g op s') s' rs := by
  have hs' : s'.transactionStarted = g.isSome := hs.trans h.started
  rw [track_of_started_eq hs']
  exact ⟨hfile, h.table, hs', h.client, fun t ht => (h.cached t ht).congr he hn⟩

theorem close (h : RegInv g s rs) (hfile : s'.fs.contents clientRegistry = encode rs)
    (hs : s'.transactionStarted = false) : RegInv (track g op s') s' rs := by
  rw [track_of_closed hs]
  exact ⟨hfile, h.table, hs, by simp, by simp⟩

theorem found (h : RegInv g s rs) {q : EntryClient → Bool} {i : Nat} {e : EntryClient}
    (hop : op.wanted = some q)
    (hclosed : s.transactionStarted = false) (hslot : rs[i]? = some e) (hlive : Live i e)
      (hq : q e = true)
    (hs' : s' = { s with
      transactionStarted := true, error := false, notInClientRegistry := false,
      entryClient := e }) : RegInv (track g op s') s' rs := by
  obtain rfl : g = none := by simpa [hclosed] using h.started
  have hst : s'.transactionStarted = true := by rw [hs']
  have hget : s'.getClientId = some (e.text EntryClient.clientId) := by
    rw [hs']
    exact getClientId_found hlive
  -- either way the transaction is on the client that was found
  obtain ⟨b, ht⟩ : ∃ b, track none op s' = some ⟨some (e.text EntryClient.clientId), b⟩ := by
    rcases track_of_opened hop hst with ht | ⟨c, -, rfl, ht⟩
    · exact ⟨false, by rw [ht, hget]⟩
    · have hc : e.text EntryClient.clientId = c.bytes := by simpa [hasClientId] using hq
      exact ⟨true, by rw [ht, hc]⟩
  rw [ht]
  subst hs'
  refine ⟨h.file, h.table, rfl, ?_, ?_⟩
  · rintro t ⟨⟩ c ⟨⟩; exact ⟨hlive.id_ne, hlive.id_lt⟩
  · rintro t ⟨⟩; exact .registered i rfl hslot hlive rfl

theorem missing (h : RegInv g s rs) {q : EntryClient → Bool} (ha : Allowed p g s op)
    (hop : op.wanted = some q)
    (hclosed : s.transactionStarted = false)
    (hnone : ∀ (j : Nat) (b : EntryClient), rs[j]? = some b → q b = false)
    (hs' : s' = { s with
      transactionStarted := true, error := false, notInClientRegistry := true,
      entryClient := Record.zero 57 }) : RegInv (track g op s') s' rs := by
  obtain rfl : g = none := by simpa [hclosed] using h.started
  have hst : s'.transactionStarted = true := by rw [hs']
  have hfile : s'.fs.contents clientRegistry = encode rs := by rw [hs']; exact h.file
  have hout : s'.notInClientRegistry = true := by rw [hs']
  have hzero : s'.entryClient = Record.zero 57 := by rw [hs']
  have hget : s'.getClientId = none := by simp [getClientId, hout]
  rcases track_of_opened hop hst with ht | ⟨c, rfl, rfl, ht⟩
  · rw [ht, hget]
    exact ⟨hfile, h.table, hst, by simp, by rintro t ⟨⟩; exact .unregistered hout hzero (by simp)⟩
  · obtain ⟨-, h1, h23⟩ := ha
    rw [ht]
    refine ⟨hfile, h.table, hst, ?_, ?_⟩
    · rintro t ⟨⟩ c' ⟨⟩
      refine ⟨fun h0 => ?_, Nat.lt_of_le_of_lt h23 (by decide)⟩
      simp [CString.length, h0] at h1
    · rintro t ⟨⟩
      refine .unregistered hout hzero ?_
      rintro c' ⟨⟩ j b hb
      simpa [hasClientId] using hnone j b hb

theorem write (h : RegInv g s rs) (hfile : s'.fs.contents clientRegistry = encode rs')
    (htable : RegTable rs') (hs : s'.transactionStarted = s.transactionStarted)
    (hcached : ∀ t ∈ g, Cached t s rs → Cached t s' rs') : RegInv (track g op s') s' rs' := by
  have hs' : s'.transactionStarted = g.isSome := hs.trans h.started
  rw [track_of_started_eq hs']
  exact ⟨hfile, htable, hs', h.client, fun t ht => hcached t ht (h.cached t ht)⟩

theorem rewrite (h : RegInv g s rs) {i : Nat} {e' : EntryClient}
    (hin : s.notInClientRegistry = false) (hslot : rs[i]? = some s.entryClient)
    (hlive : Live i s.entryClient)
    (hid : e'.text EntryClient.clientId = s.entryClient.text EntryClient.clientId)
    (hnum : e'.text EntryClient.fileNumber = s.entryClient.text EntryClient.fileNumber)
    (hs' : s' =
      { s with
        entryClient := e', fs := s.fs.set clientRegistry (encode (SlotTable.place rs i e')) }) :
    RegInv (track g op s') s' (SlotTable.place rs i e') := by
  subst hs'
  have htable := h.table.replace hslot hlive hid hnum
  have hslot' : (SlotTable.place rs i e')[i]? = some e' := by
    rw [SlotTable.getElem?_place (RegTable.index_lt hslot).le, if_pos rfl]
  have hkey : clientKey e' = some (e'.text EntryClient.clientId) :=
    if_neg (by rw [hid]; exact hlive.id_ne)
  refine h.write (Files.contents_set_self _) htable rfl fun t _ hc => ?_
  cases hc with
  | registered _ _ _ _ ht =>
    exact .registered i hin hslot' (htable.live_of_key hslot' hkey)
      (ht.trans (congrArg some hid.symm))
  | unregistered hout => rw [hin] at hout; cases hout

theorem add (h : RegInv g s rs) {c : CString} {e : EntryClient} {k : Nat} {fs' : Files}
    (hopen : s.blocked = false) (hc : ∀ t ∈ g, t.client = some c.bytes)
    (hout : s.notInClientRegistry = true) (hk : k ≤ rs.length) (hlt : k < 2 ^ 16 - 1)
    (hlive : Live k e) (hid : e.text EntryClient.clientId = c.bytes)
    (hfile : fs'.contents clientRegistry = encode (SlotTable.place rs k e))
    (hs' : s' = { s with entryClient := e, notInClientRegistry := false, fs := fs' }) :
    RegInv (track g op s') s' (SlotTable.place rs k e) := by
  subst hs'
  obtain ⟨t, rfl, hcached⟩ := h.tx_of_open hopen
  -- the transaction's client was not registered, so its id stands in no slot
  have hfresh : ∀ (j : Nat) (b : EntryClient), j ≠ k → rs[j]? = some b →
      b.text EntryClient.clientId ≠ e.text EntryClient.clientId := by
    intro j b _ hb
    rw [hid]
    cases hcached with
    | registered _ hin => rw [hout] at hin; cases hin
    | unregistered _ _ hfree => exact hfree c.bytes (hc t rfl) j b hb
  have hslot : (SlotTable.place rs k e)[k]? = some e := by
    rw [SlotTable.getElem?_place hk, if_pos rfl]
  refine h.write hfile (h.table.place hk hlt hlive hfresh) rfl ?_
  rintro t' ⟨⟩ -
  exact .registered k rfl hslot hlive ((hc t rfl).trans (congrArg some hid.symm))

theorem delete (h : RegInv g s rs) {i : Nat} {fs' : Files} (hin : s.notInClientRegistry = false)
    (hslot : rs[i]? = some s.entryClient) (hlive : Live i s.entryClient)
    (hfile : fs'.contents clientRegistry = encode (SlotTable.place rs i (Record.zero 57)))
    (hs' : s' = { s with entryClient := Record.zero 57, notInClientRegistry := true, fs := fs' }) :
    RegInv (track g op s') s' (SlotTable.place rs i (Record.zero 57)) := by
  subst hs'
  have hi := RegTable.index_lt hslot
  refine h.write hfile (h.table.clear hi) rfl fun t _ hc => ?_
  cases hc with
  | unregistered hout => rw [hin] at hout; cases hout
  | registered _ _ _ _ ht =>
    refine .unregistered rfl rfl fun c hct j b hb hbc => ?_
    obtain rfl : s.entryClient.text EntryClient.clientId = c := by
      rw [ht] at hct
      exact Option.some.inj hct
    rw [SlotTable.getElem?_place hi.le] at hb
    split at hb
    · cases hb; exact hlive.id_ne (hbc.symm.trans text_clientId_zero)
    · next hne =>
      -- the id stood in the deleted slot only
      have hkb : clientKey b = some (s.entryClient.text EntryClient.clientId) :=
        clientKey_eq_some.2 ⟨hbc, hlive.id_ne⟩
      exact hne (h.table.distinct j i b _ _ hb hslot hkb hlive.key)

theorem effect (h : RegInv g s rs) (ha : Allowed p g s op) (he : Effect p s rs op s') :
    ∃ rs', RegInv (track g op s') s' rs' := by
  cases he with
  | other hop hl =>
    exact ⟨rs, h.keep (h.contents_of_local hl) hl.entryClient hl.notInClientRegistry
      hl.transactionStarted⟩
  | skip _ => exact ⟨rs, h.keep h.file rfl rfl rfl⟩
  | raise _ => exact ⟨rs, h.keep h.file rfl rfl rfl⟩
  | begin _ _ _ =>
    exact ⟨rs, h.close ((Files.contents_begin clientRegistry_ne_mqttSub).trans h.file) rfl⟩
  | found q i e hop hclosed hslot hlive hq _ => exact ⟨rs, h.found hop hclosed hslot hlive hq rfl⟩
  | missing q hop hclosed hnone => exact ⟨rs, h.missing ha hop hclosed hnone rfl⟩
  | apply _ => exact ⟨rs, h.close h.file rfl⟩
  | rewrite i e' _ hin hslot hlive _ hid hnum => exact ⟨_, h.rewrite hin hslot hlive hid hnum rfl⟩
  | add c a d k hop hopen hout hk hlt _ hlive hid =>
    subst hop
    exact ⟨_, h.add hopen (fun t ht => (ha.2.2 t ht).2) hout hk hlt hlive hid
      (Files.contents_set_self _) rfl⟩
  | delete c i _ _ hin _ hslot hlive =>
    exact ⟨_, h.delete hin hslot hlive (Files.contents_set_self _) rfl⟩

theorem next (h : RegInv g s rs) (ha : Allowed p g s op) :
    ∃ rs', RegInv (track g op (s.next p op)) (s.next p op) rs' :=
  h.effect ha (h.effect_of_allowed ha)

end RegInv

/-- The registry invariant holds in every reachable state. -/
theorem Reachable.inv {s₀ : Persistent} (h : Reachable p s₀ g s) (h₀ : Fresh s₀) :
    ∃ rs, RegInv g s rs := by
  induction h with
  | init => exact ⟨[], .init h₀⟩
  | step op _ ha ih =>
    obtain ⟨rs, hi⟩ := ih
    exact hi.next ha

/-! ### Runs given by their operations -/

def AllowedRun (p : Platform) : Option Tx → Persistent → List Op → Prop
  | _, _, [] => True
  | g, s, op :: ops => Allowed p g s op ∧ AllowedRun p (track g op (s.next p op)) (s.next p op) ops

def decidableAllowedRun (p : Platform) :
    ∀ (g : Option Tx) (s : Persistent) (ops : List Op), Decidable (AllowedRun p g s ops)
  | _, _, [] => .isTrue trivial
  | g, s, op :: ops =>
    have := decidableAllowedRun p (track g op (s.next p op)) (s.next p op) ops
    inferInstanceAs (Decidable (_ ∧ _))

instance (p : Platform) (g : Option Tx) (s : Persistent) (ops : List Op) :
    Decidable (AllowedRun p g s ops) :=
  decidableAllowedRun p g s ops

def runTx (p : Platform) : Option Tx → Persistent → List Op → Option Tx
  | g, _, [] => g
  | g, s, op :: ops => runTx p (track g op (s.next p op)) (s.next p op) ops

theorem Reachable.run {s₀ : Persistent} {ops : List Op} (h : Reachable p s₀ g s)
    (ha : AllowedRun p g s ops) : Reachable p s₀ (runTx p g s ops) (s.run p ops) := by
  induction ops generalizing g s with
  | nil => exact h
  | cons op ops ih => exact ih (.step op h ha.1) ha.2

end SnGateway
