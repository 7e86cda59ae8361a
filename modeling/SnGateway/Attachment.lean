import SnGateway.Sessions
import SnGateway.SubscriptionStore

/-!
# Which client a transaction acts on

The loops over `CLIENTS` compare deleted slots like any other: an all-zero record has the empty
client id and the all-zero address. A transaction opened with one of these can be on a deleted slot,
and the record found there names slot 0. `delete_client` takes the files it removes from the
transaction's client and the record it clears from its argument.

`RegistryRun` allows every call but the ones that would write a record without an id, whatever
transactions are opened.
-/

namespace SnGateway
open RecordStore Persistent

variable {p : Platform} {s s' : Persistent} {rs : List EntryClient} {op : Op}

/-- The setters of a record. -/
def Op.isSetter : Op → Bool
  | .setClientAwaitMessage _ | .setTimeout _ | .setClientState _ | .setClientAwaitMsgId _ => true
  | _ => false

/-- No record without an id is written: clients are added and reset under an id, and the setters are
not called in a transaction on a deleted slot. -/
def KeepsIds (s : Persistent) (op : Op) : Prop :=
  match op with
  | .addClient c .. | .resetClient c .. => c.bytes ≠ []
  | op => op.isSetter = true → s.clientExist = true → s.entryClient.text EntryClient.clientId ≠ []

/-- The states that clients being added, reset and deleted lead to. -/
inductive RegistryRun (p : Platform) : Persistent → Prop
  | init {s : Persistent} (h : Fresh s) : RegistryRun p s
  | step {s : Persistent} (op : Op) (h : RegistryRun p s) (hop : KeepsIds s op) :
      RegistryRun p (s.next p op)

/-- The registry and the cached record of such a state. -/
structure SlotInv (s : Persistent) (rs : List EntryClient) : Prop where
  file : s.fs.contents clientRegistry = encode rs
  len : rs.length ≤ 2 ^ 16
  slots : Slots rs
  cached : s.transactionStarted = true → s.entryClient = Record.zero 57 ∨ ∃ i < rs.length,
    Live i s.entryClient

namespace SlotInv

theorem fileName_ne_clientRegistry (e : EntryClient) (x : FileEnding) :
    EntryClient.fileName e x ≠ clientRegistry := by
  intro h
  have hdrop := congrArg (fun l => l.reverse.take 1) h
  simp only [EntryClient.fileName, List.reverse_append] at hdrop
  cases x <;> revert hdrop <;> simp [FileEnding.bytes, clientRegistry, ascii]

theorem keep (h : SlotInv s rs)
    (hfile : s'.fs.contents clientRegistry = s.fs.contents clientRegistry)
    (he : s'.entryClient = s.entryClient)
    (hs : s'.transactionStarted = true → s.transactionStarted = true) : SlotInv s' rs :=
  ⟨hfile.trans h.file, h.len, h.slots, fun hs' => by rw [he]; exact h.cached (hs hs')⟩

theorem other (h : SlotInv s rs) (hl : Local s s') : SlotInv s' rs := by
  refine h.keep (Files.contents_congr ?_) hl.entryClient fun hs => hl.transactionStarted ▸ hs
  exact hl.fs_eq clientRegistry_ne_mqttSub fun x _ => (fileName_ne_clientRegistry _ x).symm

theorem place (h : SlotInv s rs) {i : Nat} {e : EntryClient} (hi : i ≤ rs.length) (hlt : i < 2 ^ 16)
    (he : e = Record.zero 57 ∨ Live i e)
    (hfile : s'.fs.contents clientRegistry = encode (SlotTable.place rs i e))
    (hcached : s'.entryClient = e) : SlotInv s' (SlotTable.place rs i e) := by
  have hlen := h.len
  have hlen' := SlotTable.length_place hi e
  refine ⟨hfile, by omega, h.slots.place hi he, fun _ => ?_⟩
  rw [hcached]
  exact he.imp_right fun hl => ⟨i, by omega, hl⟩

theorem reopen (h : SlotInv s rs) (q : EntryClient → Bool) (b : Bool) :
    SlotInv
      (Persistent.attach q
        { s with transactionStarted := true, error := false, notInClientRegistry := b }) rs := by
  unfold Persistent.attach
  rw [h.file]
  rcases h.slots.scan_cases h.len q with ⟨i, e, he, -, -, hscan⟩ | ⟨-, hscan⟩
  · rw [hscan]
    exact ⟨h.file, h.len, h.slots, fun _ => (h.slots i e he).imp_right fun hl =>
      ⟨i, RegTable.index_lt he, hl⟩⟩
  · rw [hscan]
    exact ⟨h.file, h.len, h.slots, fun _ => .inl rfl⟩

theorem findEmptyEntrySpace_le (ts : List EntryClient) {c : Nat} (hc : c < 2 ^ 16) :
    findEmptyEntrySpace c (ts.map (fun r => (57, r)) ++ [(0, Record.zero 57)]) < 2 ^ 16 ∧
      findEmptyEntrySpace c (ts.map (fun r => (57, r)) ++ [(0, Record.zero 57)]) ≤ c +
      ts.length := by
  have hle : ts.findIdx EntryClient.isUnnamed ≤ ts.length := List.findIdx_le_length
  rw [findEmptyEntrySpace_append ts _ hc]
  split
  · omega
  · rw [findEmptyEntrySpace, if_pos rfl]
    omega

theorem addClient (h : SlotInv s rs) {c : CString} (hc : c.bytes ≠ []) (a : DeviceAddress)
    (d : UInt32) : ∃ rs', SlotInv (s.addClient p c a d) rs' := by
  unfold Persistent.addClient
  split
  · exact ⟨rs, h⟩
  · split
    · exact ⟨rs, h⟩
    · split
      · exact ⟨rs, h.keep rfl rfl id⟩
      · split
        · exact ⟨rs, h.keep rfl rfl id⟩
        · next hlt =>
          obtain ⟨hk, hle⟩ := findEmptyEntrySpace_le rs (c := 0) (by omega)
          rw [← reads_encode (by omega), ← h.file, ← findEmptyEntrySpaceInRegistry] at hk hle
          have hid :=
            text_clientId_newEntryClient (p := p) (a := a) (d := d) s.findEmptyEntrySpaceInRegistry
            (Nat.lt_of_not_le hlt) (by omega)
          have hnum :=
            text_fileNumber_newEntryClient (p := p) (c := c) (a := a) (d := d)
              s.findEmptyEntrySpaceInRegistry (by omega)
          have hlive :
            Live s.findEmptyEntrySpaceInRegistry
              (newEntryClient p c s.findEmptyEntrySpaceInRegistry a d) :=
            ⟨by rw [hid]; exact hc, by rw [hid]; exact Nat.lt_of_not_le hlt, hnum⟩
          refine ⟨_, h.place (by omega) hk (.inr hlive) ?_ rfl⟩
          dsimp only [createFile]
          have hopen : ∀ n₁ n₂ n₃ n₄,
            ((((s.fs.openWrite n₁).openWrite n₂).openWrite n₃).openWrite n₄).contents
              clientRegistry =
                encode rs := by
            intro n₁ n₂ n₃ n₄
            rw [Files.contents_openWrite, Files.contents_openWrite, Files.contents_openWrite,
              Files.contents_openWrite, h.file]
          rw [Files.writeAt_encode p _ (hopen _ _ _ _) (by omega), Files.contents_set_self]

theorem resetClient (h : SlotInv s rs) {c : CString} (hc : c.bytes ≠ []) (a : DeviceAddress)
    (d : UInt32) : ∃ rs', SlotInv (s.resetClient p c a d) rs' := by
  unfold Persistent.resetClient
  split
  · exact ⟨rs, h⟩
  · split
    · exact ⟨rs, h⟩
    · split
      · exact ⟨rs, h.keep rfl rfl id⟩
      · next hlt =>
        split
        · exact ⟨rs, h.keep rfl rfl id⟩
        · rw [h.file]
          rcases h.slots.scan_cases h.len (hasClientId c) with ⟨i, e, he, hq, -, hscan⟩ | ⟨-, hscan⟩
          · rw [hscan]
            dsimp only
            have hi := RegTable.index_lt he
            have hlen := h.len
            have hid : e.text EntryClient.clientId = c.bytes := by simpa [hasClientId] using hq
            have hl : Live i e := by
              rcases h.slots i e he with rfl | hl
              · rw [text_clientId_zero] at hid; exact absurd hid.symm hc
              · exact hl
            refine ⟨_, h.place hi.le (by omega) (.inr (hl.rewrite ?_ ?_)) ?_ rfl⟩
            · exact (text_clientId_resetEntryClient (Nat.lt_of_not_le hlt)).trans hid.symm
            · exact text_fileNumber_resetEntryClient (Nat.lt_of_not_le hlt)
            · rw [Files.writeAt_encode p _ h.file hi.le, Files.contents_set_self]
          · rw [hscan]
            exact ⟨rs, h.file, h.len, h.slots, fun _ => .inl rfl⟩

theorem deleteClient (h : SlotInv s rs) (c : CString) :
    ∃ rs', SlotInv (s.deleteClient p c) rs' := by
  unfold Persistent.deleteClient
  split
  · exact ⟨rs, h⟩
  · split
    · exact ⟨rs, h⟩
    · split
      · exact ⟨rs, h.keep rfl rfl id⟩
      · split
        · exact ⟨rs, h.keep rfl rfl id⟩
        · simp only [deleteFile_eq, clientFile]
          have hne : ∀ x, clientRegistry ≠ EntryClient.fileName s.entryClient x :=
            fun x => (fileName_ne_clientRegistry _ x).symm
          have hfile : ((((s.fs.remove (EntryClient.fileName s.entryClient .registration)).remove
              (EntryClient.fileName s.entryClient .subscribe)).remove
              (EntryClient.fileName s.entryClient .will)).remove
                (EntryClient.fileName s.entryClient .publish)).contents clientRegistry =
                  encode rs := by
            rw [← h.file]
            refine Files.contents_congr ?_
            rw [Files.remove_ne (hne _), Files.remove_ne (hne _), Files.remove_ne (hne _),
              Files.remove_ne (hne _)]
          rw [hfile]
          rcases h.slots.scan_cases h.len (hasClientId c) with ⟨i, e, he, -, -, hscan⟩ | ⟨-, hscan⟩
          · rw [hscan]
            dsimp only
            have hi := RegTable.index_lt he
            have hlen := h.len
            refine ⟨_, h.place hi.le (by omega) (.inl rfl) ?_ rfl⟩
            rw [Files.writeAt_encode p _ hfile hi.le, Files.contents_set_self]
          · rw [hscan]
            exact ⟨rs, hfile, h.len, h.slots, fun _ => .inl rfl⟩

theorem live_of_id (h : SlotInv s rs) (hopen : s.blocked = false)
    (hid : s.entryClient.text EntryClient.clientId ≠ []) :
    ∃ i < rs.length, Live i s.entryClient := by
  have hs : s.transactionStarted = true := by
    cases hs : s.transactionStarted <;> simp [blocked, hs] at hopen ⊢
  rcases h.cached hs with hz | hl
  · rw [hz, text_clientId_zero] at hid; exact absurd rfl hid
  · exact hl

theorem update (h : SlotInv s rs) {w : Field} (v : Nat) (hid : EntryClient.clientId.Disjoint w)
    (hnum : EntryClient.fileNumber.Disjoint w)
    (hop : s.clientExist = true → s.entryClient.text EntryClient.clientId ≠ []) :
    ∃ rs', SlotInv (s.updateEntryClient p fun e => e.putNat w v) rs' := by
  cases hb : s.blocked with
  | true => exact ⟨rs, by simpa [updateEntryClient, hb] using h⟩
  | false =>
    cases hn : s.notInClientRegistry with
    | true => exact ⟨rs, by simpa [updateEntryClient, hn] using h⟩
    | false =>
      obtain ⟨i, hi, hl⟩ := h.live_of_id hb (hop (by simp [clientExist, hb, hn]))
      have hlen := h.len
      rw [hl.updateEntryClient hi (by omega) hb hn h.file]
      refine ⟨_, h.place hi.le (by omega) (.inr (hl.rewrite ?_ ?_)) (Files.contents_set_self _) rfl⟩
      · exact Record.text_putNat_of_disjoint hid
      · exact Record.text_putNat_of_disjoint hnum

theorem next (h : SlotInv s rs) (hop : KeepsIds s op) : ∃ rs', SlotInv (s.next p op) rs' := by
  cases op with
  | begin =>
    show ∃ rs', SlotInv (s.begin PERSISTENT_DEBUG).2 rs'
    unfold Persistent.begin
    split
    · exact ⟨rs, h⟩
    · split
      · exact ⟨rs, h⟩
      · exact ⟨rs, h.keep (Files.contents_begin clientRegistry_ne_mqttSub)
          rfl (fun hs => by cases hs)⟩
  | startClientTransaction c =>
    show ∃ rs', SlotInv (s.startClientTransaction c) rs'
    unfold startClientTransaction
    split
    · exact ⟨rs, h.keep rfl rfl id⟩
    · split
      · exact ⟨rs, h.keep rfl rfl id⟩
      · exact ⟨rs, h.reopen _ _⟩
  | startClientTransactionByAddress a =>
    show ∃ rs', SlotInv (s.startClientTransactionByAddress a) rs'
    unfold startClientTransactionByAddress
    split
    · exact ⟨rs, h.keep rfl rfl id⟩
    · exact ⟨rs, h.reopen _ _⟩
  | applyTransaction =>
    show ∃ rs', SlotInv s.applyTransaction.2 rs'
    rw [applyTransaction_state]
    exact ⟨rs, h.keep rfl rfl (fun hs => by cases hs)⟩
  | deleteClient c => exact h.deleteClient c
  | addClient c a d => exact h.addClient hop a d
  | resetClient c a d => exact h.resetClient hop a d
  | setClientAwaitMessage t => exact h.update t.toNat (by decide) (by decide) (hop rfl)
  | setTimeout t => exact h.update t.toNat (by decide) (by decide) (hop rfl)
  | setClientState st => exact h.update st.toNat (by decide) (by decide) (hop rfl)
  | setClientAwaitMsgId i => exact h.update i.toNat (by decide) (by decide) (hop rfl)
  | _ => exact ⟨rs, h.other (local_next rfl)⟩

theorem of_run (h : RegistryRun p s) : ∃ rs, SlotInv s rs := by
  induction h with
  | init h =>
    exact ⟨[],
      h.noClients, by simp, by intro i e he; simp at he, fun hs => by rw [h.closed] at hs; cases hs⟩
  | step op _ hop ih =>
    obtain ⟨rs, ih⟩ := ih
    exact ih.next hop

end SlotInv

/-! ### Attaching to a record -/

/-- The transaction opened in `s'` for the records that satisfy `q` is on a client, and its setters
write slots of such clients only. -/
structure OnLive (p : Platform) (q : EntryClient → Bool) (s s' : Persistent) : Prop where
  exist_iff : s'.clientExist = true ↔ ∃ e ∈ s.records, e ≠ Record.zero 57 ∧ q e = true
  writes : ∀ ops : List Op, (∀ op ∈ ops, op.isSetter = true) → ∀ k : Nat,
    (s'.run p ops).records[k]? ≠ s.records[k]? →
    ∃ e, s.records[k]? = some e ∧ e ≠ Record.zero 57 ∧ q e = true

theorem next_setter (h : op.isSetter = true) :
    ∃ (w : Field) (v : Nat), EntryClient.clientId.Disjoint w ∧
    EntryClient.fileNumber.Disjoint w ∧ ∀ s : Persistent,
      s.next p op = s.updateEntryClient p fun e => e.putNat w v := by
  cases op <;> simp only [Op.isSetter, Bool.false_eq_true] at h
  case setClientAwaitMessage t =>
    exact ⟨EntryClient.awaitMessage, t.toNat, by decide, by decide, fun _ => rfl⟩
  case setTimeout t => exact ⟨EntryClient.timeout, t.toNat, by decide, by decide, fun _ => rfl⟩
  case setClientState st =>
    exact ⟨EntryClient.clientStatus, st.toNat, by decide, by decide, fun _ => rfl⟩
  case setClientAwaitMsgId i =>
    exact ⟨EntryClient.awaitMessageId, i.toNat, by decide, by decide, fun _ => rfl⟩

/-- The setters write the slot of the transaction's client. -/
theorem records_run_setters {i : Nat} (hl : Live i s.entryClient) (hi : i < rs.length)
    (hlt : i < 2 ^ 16) (hopen : s.blocked = false) (hin : s.notInClientRegistry = false)
    (hfile : s.fs.contents clientRegistry = encode rs) {ops : List Op}
    (hops : ∀ op ∈ ops, op.isSetter = true) {k : Nat} (hk : k ≠ i) :
    (s.run p ops).records[k]? = rs[k]? := by
  induction ops generalizing s rs with
  | nil =>
    show s.records[k]? = rs[k]?
    rw [records_of_contents hfile]
  | cons op ops ih =>
    obtain ⟨w, v, hid, hnum, hnext⟩ := next_setter (p := p) (hops op List.mem_cons_self)
    show ((s.next p op).run p ops).records[k]? = rs[k]?
    rw [hnext, hl.updateEntryClient hi hlt hopen hin hfile]
    have hplace := SlotTable.getElem?_place hi.le (s.entryClient.putNat w v) k
    rw [if_neg hk] at hplace
    rw [← hplace]
    refine ih (hl.rewrite ?_ ?_) ?_ hopen hin (Files.contents_set_self _) fun op' h' =>
      hops op' (List.mem_cons_of_mem _ h')
    · exact Record.text_putNat_of_disjoint hid
    · exact Record.text_putNat_of_disjoint hnum
    · rw [SlotTable.length_place hi.le]; omega

theorem run_setters_unregistered (hout : s.notInClientRegistry = true) {ops : List Op}
    (hops : ∀ op ∈ ops, op.isSetter = true) : s.run p ops = s := by
  induction ops with
  | nil => rfl
  | cons op ops ih =>
    obtain ⟨w, v, -, -, hnext⟩ := next_setter (p := p) (hops op List.mem_cons_self)
    have hs : s.next p op = s := by rw [hnext]; simp [updateEntryClient, hout]
    show (s.next p op).run p ops = s
    rw [hs]
    exact ih fun op' h' => hops op' (List.mem_cons_of_mem _ h')

/-- A setter of a transaction on a deleted slot writes slot 0. -/
theorem SlotInv.records_setTimeout_zero (h : SlotInv s rs) (hne : 0 < rs.length)
    (hopen : s.blocked = false) (hin : s.notInClientRegistry = false)
    (hz : s.entryClient = Record.zero 57) (v : UInt32) :
    (s.run p [.setTimeout v]).records[0]? =
      some ((Record.zero 57).putNat EntryClient.timeout v.toNat) := by
  have hpos : sizeMul (parseFileNumberToInt (Record.zero 57)) 57 = 0 * 57 := by
    rw [parseFileNumberToInt, text_fileNumber_zero]
    rfl
  show (s.setTimeout p v).records[0]? = _
  unfold setTimeout updateEntryClient
  rw [if_neg (by simp [hopen]), if_neg (by simp [hin]), hz]
  dsimp only
  rw [hpos, Files.writeAt_encode p _ h.file hne.le, records_of_contents (Files.contents_set_self _),
    SlotTable.getElem?_place hne.le, if_pos rfl]

/-- A transaction is on a client exactly when the first record it looks for is not a deleted one. -/
theorem SlotInv.onLive_attach_iff (h : SlotInv s rs) {q : EntryClient → Bool} (b : Bool)
    (hq : q ((Record.zero 57).putNat EntryClient.timeout 1) = q (Record.zero 57)) :
    OnLive p q s
      (attach q { s with transactionStarted := true, error := false, notInClientRegistry := b }) ↔
      (q (Record.zero 57) = true → ∀ k : Nat, s.records[k]? = some (Record.zero 57) →
        ∃ (j : Nat) (e : EntryClient), j < k ∧ s.records[j]? = some e ∧ e ≠ Record.zero 57 ∧
        q e = true) := by
  have hrec := records_of_contents h.file
  have hlen := h.len
  rw [hrec]
  rcases h.slots.scan_cases h.len q with ⟨i, e, he, hqe, hfirst, hscan⟩ | ⟨hnone, hscan⟩
  · have hi := RegTable.index_lt he
    have hattach :
      attach q { s with transactionStarted := true, error := false, notInClientRegistry := b } =
        { s with
          transactionStarted := true, error := false, notInClientRegistry := false,
          entryClient := e } := by
      unfold Persistent.attach
      rw [h.file, hscan]
    rw [hattach]
    by_cases hz : e = Record.zero 57
    · -- slot 0 is written, which has another address or is the deleted slot itself
      subst hz
      refine ⟨fun hon => ?_, fun hcond => ?_⟩
      · exfalso
        have hwrite := records_setTimeout_zero (p := p) (v := 1) (s := { s with
          transactionStarted := true, error := false, notInClientRegistry := false,
          entryClient := Record.zero 57 })
          ⟨h.file, h.len, h.slots, fun _ => .inl rfl⟩ (Nat.zero_lt_of_lt hi) rfl rfl rfl
        by_cases hsame : some ((Record.zero 57).putNat EntryClient.timeout 1) = rs[0]?
        · rcases Nat.eq_zero_or_pos i with rfl | hpos
          · rw [he, Option.some.injEq] at hsame
            have := congrArg (fun r => Record.getNat r EntryClient.timeout) hsame
            revert this; decide
          · have := hfirst 0 _ hpos hsame.symm
            rw [hq, hqe] at this; cases this
        · obtain ⟨b₀, hb₀, hne, hqb⟩ := hon.writes [.setTimeout 1] (by simp [Op.isSetter]) 0
            (by rw [hwrite, hrec]; exact hsame)
          rw [hrec] at hb₀
          rcases Nat.eq_zero_or_pos i with rfl | hpos
          · exact hne (Option.some.inj (hb₀.symm.trans he))
          · rw [hfirst 0 b₀ hpos hb₀] at hqb; cases hqb
      · obtain ⟨j, e, hj, hej, -, hqej⟩ := hcond hqe i he
        rw [hfirst j e hj hej] at hqej; cases hqej
    · have hl := (h.slots i e he).resolve_left hz
      refine ⟨fun _ hq0 k hk => ⟨i, e, ?_, he, hz, hqe⟩, fun _ => ⟨?_, fun ops hops k hk => ?_⟩⟩
      · by_contra hge
        rcases Nat.eq_or_lt_of_le (Nat.le_of_not_lt hge) with rfl | hlt
        · exact hz (Option.some.inj (he.symm.trans hk))
        · rw [hfirst k _ hlt hk] at hq0; cases hq0
      · rw [hrec]
        exact ⟨fun _ => ⟨e, List.mem_of_getElem? he, hz, hqe⟩,
          fun _ => by simp [clientExist, blocked]⟩
      · rw [hrec] at hk ⊢
        obtain rfl : k = i := by
          by_contra hki
          refine hk (records_run_setters (s := { s with
            transactionStarted := true, error := false, notInClientRegistry := false,
            entryClient := e }) ?_ hi
            (by omega) rfl rfl h.file hops hki)
          exact hl
        exact ⟨e, he, hz, hqe⟩
  · have hattach :
      attach q { s with transactionStarted := true, error := false, notInClientRegistry := b } =
        { s with
          transactionStarted := true, error := false, notInClientRegistry := true,
          entryClient := Record.zero 57 } := by
      unfold Persistent.attach
      rw [h.file, hscan]
    rw [hattach]
    refine ⟨fun _ hq0 k hk => ?_, fun _ => ⟨?_, fun ops hops k hk => ?_⟩⟩
    · rw [hnone k _ hk] at hq0; cases hq0
    · rw [hrec]
      refine ⟨fun hex => ?_, ?_⟩
      · simp [clientExist] at hex
      · rintro ⟨e, he, -, hqe⟩
        obtain ⟨j, hj⟩ := List.getElem?_of_mem he
        rw [hnone j e hj] at hqe; cases hqe
    · rw [run_setters_unregistered rfl hops] at hk
      exact absurd rfl hk

/-- A transaction opened by an id is on a client exactly when the id is not empty or no slot is
deleted; one opened by an address when the address is not all-zero or a client in front of the
deleted slots has it. -/
theorem attaches_to_live_iff (h : RegistryRun p s) (hclosed : s.transactionStarted = false) :
    (∀ c : CString, c.length < 24 →
      (OnLive p (hasClientId c) s (s.startClientTransaction c) ↔ c.bytes ≠ [] ∨
        Record.zero 57 ∉ s.records)) ∧
    ∀ a : DeviceAddress,
      OnLive p (hasAddress a) s (s.startClientTransactionByAddress a) ↔
        a ≠ Record.zero 6 ∨ ∀ k : Nat, s.records[k]? = some (Record.zero 57) →
          ∃ (j : Nat) (e : EntryClient), j < k ∧ s.records[j]? = some e ∧ e ≠ Record.zero 57 ∧
          hasAddress a e = true := by
  obtain ⟨rs, h⟩ := SlotInv.of_run h
  refine ⟨fun c hc => ?_, fun a => ?_⟩
  · have hstart : s.startClientTransaction c =
        attach (hasClientId c)
        { s with transactionStarted := true, error := false, notInClientRegistry := true } := by
      unfold startClientTransaction
      rw [if_neg (by simp [hclosed]),
        if_neg (show ¬ MAXIMUM_CLIENT_ID_LENGTH ≤ c.length from Nat.not_le_of_lt hc)]
    have hq : hasClientId c ((Record.zero 57).putNat EntryClient.timeout 1) = hasClientId c
        (Record.zero 57) := by
      unfold hasClientId
      rw [Record.text_putNat_of_disjoint (by decide)]
    rw [hstart, h.onLive_attach_iff true hq]
    by_cases hne : c.bytes = []
    · have hzero : hasClientId c (Record.zero 57) = true := by
        simp [hasClientId, text_clientId_zero, hne]
      simp only [hzero, hne, not_true_eq_false, ne_eq, false_or, true_implies]
      constructor
      · intro hcond hmem
        obtain ⟨k, hk⟩ := List.getElem?_of_mem hmem
        obtain ⟨j, e, -, hj, hez, hid⟩ := hcond k hk
        rw [records_of_contents h.file] at hj
        have hl := (h.slots j e hj).resolve_left hez
        exact hl.id_ne (by rw [← hne]; simpa [hasClientId] using hid)
      · exact fun hno k hk => absurd (List.mem_of_getElem? hk) hno
    · simp [hasClientId_zero hne, hne]
  · have hstart : s.startClientTransactionByAddress a =
        attach (hasAddress a)
        { s with transactionStarted := true, error := false, notInClientRegistry := false } := by
      unfold startClientTransactionByAddress
      rw [if_neg (by simp [hclosed])]
    have hq : hasAddress a ((Record.zero 57).putNat EntryClient.timeout 1) =
        hasAddress a (Record.zero 57) := by
      unfold hasAddress
      rw [Record.get_putNat_of_disjoint (by decide)]
    rw [hstart, h.onLive_attach_iff false hq]
    by_cases hne : a = Record.zero 6
    · subst hne
      have hzero : hasAddress (Record.zero 6) (Record.zero 57) = true := by decide
      simp only [hzero, not_true_eq_false, ne_eq, false_or, true_implies]
    · simp [hasAddress_zero hne, hne]

def noId : CString := ⟨[], by decide⟩

/-- A client registers, leaves and its slot is deleted. -/
theorem registryRun_deleted :
    RegistryRun posix (setUp.run posix [.begin, .startClientTransaction device1,
      .addClient device1 address1 60, .deleteClient device1, .applyTransaction]) := by
  have hop : ∀ (s : Persistent) (op : Op), op.isSetter = false → (∀ c a d, op ≠ .addClient c a d) →
      (∀ c a d, op ≠ .resetClient c a d) → KeepsIds s op := by
    intro s op h1 h2 h3
    cases op <;> simp_all [KeepsIds, Op.isSetter]
  have hinit : RegistryRun posix setUp := .init ⟨rfl, rfl⟩
  have hstart := (hinit.step .begin (hop _ _ rfl (by simp) (by simp))).step
    (.startClientTransaction device1) (hop _ _ rfl (by simp) (by simp))
  have hadd :=
    hstart.step (.addClient device1 address1 60) (show device1.bytes ≠ [] by decide)
  exact (hadd.step (.deleteClient device1) (hop _ _ rfl (by simp) (by simp))).step .applyTransaction
    (hop _ _ rfl (by simp) (by simp))

theorem attaches_to_live_iff_deleted :
    let s :=
      setUp.run posix [.begin, .startClientTransaction device1, .addClient device1 address1 60,
        .deleteClient device1, .applyTransaction]
    s.transactionStarted = false ∧ OnLive posix (hasClientId device1) s
      (s.startClientTransaction device1) := by
  intro s
  have hs : s = setUp.run posix _ := rfl
  have hstart : s.transactionStarted = false := by
    rw [hs]
    decide +kernel
  exact ⟨hstart, ((attaches_to_live_iff registryRun_deleted hstart).1 device1 (by decide)).2
    (.inl (by decide))⟩

/-- The empty client id and the all-zero address find the deleted slot. -/
theorem attached_to_deleted_slot :
    let s :=
      setUp.run posix [.begin, .startClientTransaction device1, .addClient device1 address1 60,
        .deleteClient device1, .applyTransaction]
    RegistryRun posix s ∧ s.transactionStarted = false ∧ s.records = [Record.zero 57] ∧
      (s.startClientTransaction noId).clientExist = true ∧
      (s.startClientTransactionByAddress (Record.zero 6)).clientExist = true ∧
      ¬ OnLive posix (hasClientId noId) s (s.startClientTransaction noId) ∧
      ¬ OnLive posix (hasAddress (Record.zero 6)) s
        (s.startClientTransactionByAddress (Record.zero 6)) := by
  intro s
  have hs : s = setUp.run posix _ := rfl
  have hrun : s.transactionStarted = false ∧ s.records = [Record.zero 57] ∧
      (s.startClientTransaction noId).clientExist = true ∧
      (s.startClientTransactionByAddress (Record.zero 6)).clientExist = true := by
    rw [hs]
    decide +kernel
  obtain ⟨hstart, hrec, hex, hex'⟩ := hrun
  have hnone : ∀ q : EntryClient → Bool, ¬ ∃ e ∈ s.records, e ≠ Record.zero 57 ∧ q e = true := by
    intro q
    rw [hrec]
    rintro ⟨e, he, hne, -⟩
    exact hne (List.mem_singleton.1 he)
  exact ⟨registryRun_deleted, hstart, hrec, hex, hex', fun h => hnone _ (h.exist_iff.1 hex),
    fun h => hnone _ (h.exist_iff.1 hex')⟩

/-! ### Deleting another client -/

/-- `delete_client` fails and changes no file. -/
def Refused (p : Platform) (c : CString) (s : Persistent) : Prop :=
  (s.deleteClient p c).fs = s.fs ∧ (s.deleteClient p c).error = true

/-- Whether `delete_client` fails does not depend on whose id it is given. -/
theorem delete_refused_iff {c : CString} (hopen : s.blocked = false)
    (hin : s.notInClientRegistry = false) :
    Refused p c s ↔ 24 ≤ c.length ∨ s.subscribedIds.length % 2 ^ 16 ≠ 0 := by
  have hcount : s.getClientSubscriptionCount = s.subscribedIds.length % 2 ^ 16 :=
    getClientSubscriptionCount_mod hopen hin
  have herr : s.error = false := (Bool.or_eq_false_iff.1 hopen).2
  unfold Refused Persistent.deleteClient
  rw [if_neg (by simp [hopen]), if_neg (by simp [hin])]
  by_cases hlen : MAXIMUM_CLIENT_ID_LENGTH ≤ c.length
  · rw [if_pos hlen]
    exact ⟨fun _ => .inl hlen, fun _ => ⟨rfl, rfl⟩⟩
  · rw [if_neg hlen]
    by_cases hsub : 0 < s.getClientSubscriptionCount
    · rw [if_pos hsub]
      exact ⟨fun _ => .inr (by omega), fun _ => ⟨rfl, rfl⟩⟩
    · -- the files are removed and the flag stays as it is
      rw [if_neg hsub]
      refine ⟨fun h => ?_, ?_⟩
      · have herr' := h.2
        simp only [deleteFile_eq] at herr'
        split at herr'
        · rw [herr] at herr'; cases herr'
        · rw [herr] at herr'; cases herr'
      · rintro (h | h)
        · exact absurd h hlen
        · omega

theorem delete_refused_iff_subscribed :
    let s := subscriber.run posix [.addSubscription (some topicA) 5 1]
    Refused posix device2 s ∧ Refused posix device1 s := by
  intro s
  have hs : s = subscriber.run posix _ := rfl
  have hrun : s.blocked = false ∧ s.notInClientRegistry = false ∧
      s.subscribedIds.length % 2 ^ 16 ≠ 0 := by
    rw [hs]
    decide +kernel
  obtain ⟨hopen, hin, hsub⟩ := hrun
  exact ⟨(delete_refused_iff hopen hin).2 (.inr hsub), (delete_refused_iff hopen hin).2 (.inr hsub)⟩

/-- In a transaction of one client another is deleted: the first loses its files and stays
registered, the other is no longer registered and keeps its files. -/
theorem deleted_other_client :
    let s :=
      setUp.run posix [.begin, .startClientTransaction device2, .addClient device2 address2 60,
        .applyTransaction,
        .startClientTransaction device1, .addClient device1 address1 60, .applyTransaction,
        .startClientTransactionByAddress address1]
    let s' := s.deleteClient posix device2
    s.clientExist = true ∧ s.getClientId = some device1.bytes ∧ device1.bytes ≠ device2.bytes ∧
      ¬ Refused posix device2 s ∧
      s'.records.map (fun e => e.text EntryClient.clientId) = [[], device1.bytes] ∧
      (∀ x, s'.fs (slotFile 1 x) = none) ∧ ∀ x, s'.fs (slotFile 0 x) = some [] := by
  intro s s'
  have hs : s = setUp.run posix _ := rfl
  have hs' : s' = s.deleteClient posix device2 := rfl
  have hrun : s.clientExist = true ∧ s.getClientId = some device1.bytes ∧ s'.error = false ∧
      s'.records.map (fun e => e.text EntryClient.clientId) = [[], device1.bytes] ∧
      ∀ x ∈ [FileEnding.registration, .subscribe, .will, .publish],
        s'.fs (slotFile 1 x) = none ∧ s'.fs (slotFile 0 x) = some [] := by
    rw [hs', hs]
    decide +kernel
  obtain ⟨hex, hid, herr, hrecords, hfiles⟩ := hrun
  have hmem : ∀ x : FileEnding, x ∈ [FileEnding.registration, .subscribe, .will, .publish] := by
    intro x
    cases x <;> simp
  refine ⟨hex, hid, by decide, fun h => ?_, hrecords, fun x => (hfiles x (hmem x)).1, fun x =>
    (hfiles x (hmem x)).2⟩
  have htrue : s'.error = true := h.2
  rw [herr] at htrue
  cases htrue

end SnGateway
