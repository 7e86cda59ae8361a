import SnGateway.Effects

/-!
# Errors inside a transaction

An operation that fails sets `_error`; every operation looks at the flag first, so from then on
nothing changes a file until `apply_transaction` reports the failure and clears the flag
(`Failed.run`). The failing operation itself must not have changed a file either. One path breaks
this: `remove_publish_by_msg_id` with message id 0 sets the flag and goes on to its loop
(`WritesAfterError`); all others keep it (`failsCleanly_iff`).
-/

namespace SnGateway
open RecordStore Persistent

variable {p : Platform} {s s' : Persistent} {op : Op}

/-! ### The failing operation -/

/-- `remove_publish_by_msg_id(0)` for a registered client whose publish file has a record with
message id 0, the first of them in slot `k`, where bytes `2 * k` and `2 * k + 1` of the file are not
both 0. -/
def WritesAfterError (s : Persistent) (op : Op) : Prop :=
  op = .removePublishByMsgId 0 ∧ s.blocked = false ∧ s.notInClientRegistry = false ∧
    ∃ k, s.msgIdSlot 0 = some k ∧ ((s.fs.contents (s.clientFile .publish)).drop (k * 2)).take 2 ≠
      [0, 0]

namespace Persistent

theorem msgIdSlot_bound {m : UInt16} {k : Nat} (hk : s.msgIdSlot m = some k) :
    k * 272 + 272 ≤ (s.fs.contents (s.clientFile .publish)).length := by
  unfold msgIdSlot at hk
  split at hk
  · next i e hscan =>
    cases hk
    exact Scanner.scan_found_bound _ rfl hscan
  · cases hk

theorem writeAt_zeros_iff {m : UInt16} {k : Nat} (hk : s.msgIdSlot m = some k) :
    s.fs.writeAt p (s.clientFile .publish) (k * 2) [0, 0] = s.fs ↔
      ((s.fs.contents (s.clientFile .publish)).drop (k * 2)).take 2 = [0, 0] := by
  have hb := msgIdSlot_bound hk
  have hfile : s.fs.contents (s.clientFile .publish) ≠ [] := by
    intro h0
    rw [h0, List.length_nil] at hb
    omega
  rw [Files.writeAt_eq_self_iff p _ (by simp) hfile, p.seek_of_le true (by omega)]
  rfl

theorem removePublishByMsgId_zero {k : Nat} (hopen : s.blocked = false)
    (hin : s.notInClientRegistry = false) (hk : s.msgIdSlot 0 = some k) :
    s.removePublishByMsgId p 0 =
      { s with error := true, fs := s.fs.writeAt p (s.clientFile .publish) (k * 2) [0, 0] } := by
  have hwrite : (Record.zero 272).bytes.take 2 = [0, 0] := by decide
  unfold msgIdSlot at hk
  split at hk
  · next i e hscan =>
    cases hk
    unfold removePublishByMsgId
    rw [if_neg (by simp [hopen]), if_neg (by simp [hin]), hwrite]
    have hname : ({ s with error := true } : Persistent).clientFile .publish =
        s.clientFile .publish := rfl
    simp only [if_true, hname, hscan]
  · cases hk

/-- An operation that stays in the transaction and changes the error flag or files, not both. -/
structure Atomic (s s' : Persistent) : Prop where
  started : s'.transactionStarted = s.transactionStarted
  quiet : s'.error = s.error ∨ s'.fs = s.fs

theorem atomic_updateEntryClient (f : EntryClient → EntryClient) :
    Atomic s (s.updateEntryClient p f) := by
  unfold updateEntryClient
  split
  · exact ⟨rfl, .inl rfl⟩
  · split <;> exact ⟨rfl, .inl rfl⟩

theorem atomic_addClient (c : CString) (a : DeviceAddress) (d : UInt32) :
    Atomic s (s.addClient p c a d) := by
  unfold addClient
  split
  · exact ⟨rfl, .inl rfl⟩
  · split
    · exact ⟨rfl, .inl rfl⟩
    · split
      · exact ⟨rfl, .inr rfl⟩
      · split
        · exact ⟨rfl, .inr rfl⟩
        · exact ⟨rfl, .inl rfl⟩

theorem atomic_deleteClient (c : CString) : Atomic s (s.deleteClient p c) := by
  unfold deleteClient
  simp only [deleteFile_eq]
  split
  · exact ⟨rfl, .inl rfl⟩
  · split
    · exact ⟨rfl, .inl rfl⟩
    · split
      · exact ⟨rfl, .inr rfl⟩
      · split
        · exact ⟨rfl, .inr rfl⟩
        · split <;> exact ⟨rfl, .inl rfl⟩

theorem atomic_resetClient (c : CString) (a : DeviceAddress) (d : UInt32) :
    Atomic s (s.resetClient p c a d) := by
  unfold resetClient
  split
  · exact ⟨rfl, .inl rfl⟩
  · split
    · exact ⟨rfl, .inl rfl⟩
    · split
      · exact ⟨rfl, .inr rfl⟩
      · split
        · exact ⟨rfl, .inr rfl⟩
        · split
          · exact ⟨rfl, .inl rfl⟩
          · exact ⟨rfl, .inr rfl⟩

theorem atomic_registry (hreg : op.isRegistry = true) (hop : op ≠ .begin)
    (hop' : op ≠ .applyTransaction) (hst : s.transactionStarted = true) :
    Atomic s (s.next p op) := by
  cases op <;> simp only [Op.isRegistry, Bool.false_eq_true] at hreg
  case begin => exact absurd rfl hop
  case applyTransaction => exact absurd rfl hop'
  case startClientTransaction c =>
    show Atomic s (startClientTransaction c s)
    rw [startClientTransaction, if_pos hst]
    exact ⟨rfl, .inr rfl⟩
  case startClientTransactionByAddress a =>
    show Atomic s (startClientTransactionByAddress a s)
    rw [startClientTransactionByAddress, if_pos hst]
    exact ⟨rfl, .inr rfl⟩
  case deleteClient c => exact atomic_deleteClient c
  case addClient c a d => exact atomic_addClient c a d
  case resetClient c a d => exact atomic_resetClient c a d
  case setClientAwaitMessage t =>
    exact atomic_updateEntryClient fun e => e.putNat EntryClient.awaitMessage t.toNat
  case setTimeout t => exact atomic_updateEntryClient fun e => e.putNat EntryClient.timeout t.toNat
  case setClientState t =>
    exact atomic_updateEntryClient fun e => e.putNat EntryClient.clientStatus t.toNat
  case setClientAwaitMsgId t =>
    exact atomic_updateEntryClient fun e => e.putNat EntryClient.awaitMessageId t.toNat

structure Failed (s : Persistent) : Prop where
  started : s.transactionStarted = true
  error : s.error = true

/-- An operation that sets the error flag in an open transaction changes no file, but for the one
path. -/
theorem fails_quietly (hop : op ≠ .begin) (hst : s.transactionStarted = true)
    (hok : s.error = false) (herr : (s.next p op).error = true) (hcond : ¬ WritesAfterError s op) :
    (s.next p op).fs = s.fs ∧ Failed (s.next p op) := by
  have happly : op ≠ .applyTransaction := by
    rintro rfl
    rw [show s.next p .applyTransaction = s.applyTransaction.2 from rfl, applyTransaction_state]
      at herr
    cases herr
  cases hreg : op.isRegistry with
  | true =>
    obtain ⟨hs, hquiet⟩ := atomic_registry (p := p) hreg hop happly hst
    refine ⟨hquiet.resolve_left fun he => ?_, hs.trans hst, herr⟩
    rw [he, hok] at herr; cases herr
  | false =>
    refine ⟨?_, (local_next hreg).transactionStarted.trans hst, herr⟩
    have hout : Outcome p s op (s.next p op) := outcome_step PERSISTENT_DEBUG hreg
    generalize s.next p op = u at hout herr
    cases hout with
    | same | online | raise => rfl
    | own | shared => rw [show s.error = true from herr] at hok; cases hok
    | fallThrough k hop' hopen hin hk =>
      rw [writeAt_zeros_iff hk]
      by_contra hne
      exact hcond ⟨hop', hopen, hin, k, hk, hne⟩

/-! ### After the error -/

theorem Failed.blocked (h : Failed s) : s.blocked = true := by simp [Persistent.blocked, h.error]

/-- Nothing but `begin` and `apply_transaction` changes a file or leaves the failed transaction. -/
theorem Failed.next (h : Failed s) (hop : op ≠ .begin) (hop' : op ≠ .applyTransaction) :
    (s.next p op).fs = s.fs ∧ Failed (s.next p op) := by
  have hb := h.blocked
  have hraise : ({ s with error := true } : Persistent) = s := by rw [← h.error]
  cases hreg : op.isRegistry with
  | true =>
    have hsame : s.next p op = s := by
      cases op <;> simp only [Op.isRegistry, Bool.false_eq_true] at hreg
      case begin => exact absurd rfl hop
      case applyTransaction => exact absurd rfl hop'
      case startClientTransaction c =>
        show startClientTransaction c s = s
        rw [startClientTransaction, if_pos h.started, hraise]
      case startClientTransactionByAddress a =>
        show startClientTransactionByAddress a s = s
        rw [startClientTransactionByAddress, if_pos h.started, hraise]
      all_goals
        simp [Persistent.next, Persistent.step, addClient, deleteClient, resetClient,
          setClientAwaitMessage,
          setTimeout, setClientState, setClientAwaitMsgId, updateEntryClient, h.started,
          h.error, hb]
    rw [hsame]
    exact ⟨rfl, h⟩
  | false =>
    have hl := local_next (p := p) (s := s) hreg
    refine ⟨?_, hl.transactionStarted.trans h.started, hl.error h.error⟩
    cases hl.touch with
    | quiet hfs => exact hfs
    | own _ hopen _ => rw [hb] at hopen; cases hopen
    | shared hok _ => rw [h.error] at hok; cases hok

theorem Failed.run (h : Failed s) {ops : List Op}
    (hops : ∀ o ∈ ops, o ≠ .begin ∧ o ≠ .applyTransaction) :
    (s.run p ops).fs = s.fs ∧ Failed (s.run p ops) := by
  induction ops generalizing s with
  | nil => exact ⟨rfl, h⟩
  | cons op ops ih =>
    obtain ⟨h1, h2⟩ := hops op (List.mem_cons_self ..)
    obtain ⟨hfs, hnext⟩ := h.next (p := p) h1 h2
    obtain ⟨hfs', hrun⟩ := ih hnext fun o ho => hops o (List.mem_cons_of_mem _ ho)
    exact ⟨hfs'.trans hfs, hrun⟩

theorem Failed.apply (h : Failed s) :
    s.applyTransaction.1 = 0 ∧ s.applyTransaction.2.error = false ∧
      s.applyTransaction.2.fs = s.fs := by
  refine ⟨?_, ?_, ?_⟩
  · simp [applyTransaction, h.started, h.error]
  · rw [applyTransaction_state]
  · rw [applyTransaction_state]

end Persistent

/-! ### Runs -/

/-- If `op` sets the error flag in the open transaction of `s`, it changes no file, nothing changes
a file up to the next `apply_transaction`, and that returns 0 and clears the flag. -/
def FailsCleanly (p : Platform) (s : Persistent) (op : Op) : Prop :=
  op ≠ .begin → s.transactionStarted = true → s.error = false → (s.next p op).error = true →
    (s.next p op).fs = s.fs ∧
    ∀ later : List Op, (∀ o ∈ later, o ≠ .begin ∧ o ≠ .applyTransaction) →
      ((s.next p op).run p later).fs = s.fs ∧
      ((s.next p op).run p later).applyTransaction.1 = 0 ∧
      ((s.next p op).run p later).applyTransaction.2.error = false ∧
      ((s.next p op).run p later).applyTransaction.2.fs = s.fs

theorem failsCleanly_iff : FailsCleanly p s op ↔ ¬ WritesAfterError s op := by
  constructor
  · rintro h ⟨rfl, hopen, hin, k, hk, hne⟩
    have hz := removePublishByMsgId_zero (p := p) hopen hin hk
    have hnext : s.next p (.removePublishByMsgId 0) = _ := hz
    obtain ⟨hst, hok⟩ : s.transactionStarted = true ∧ s.error = false := by
      simpa [blocked] using hopen
    obtain ⟨hfs, -⟩ := h (by simp) hst hok (by rw [hnext])
    rw [hnext] at hfs
    exact hne ((writeAt_zeros_iff hk).1 hfs)
  · intro hcond hop hst hok herr
    obtain ⟨hfs, hfailed⟩ := fails_quietly hop hst hok herr hcond
    refine ⟨hfs, fun later hlater => ?_⟩
    obtain ⟨hrun, hfailed'⟩ := hfailed.run (p := p) hlater
    obtain ⟨hzero, hclear, hkeep⟩ := hfailed'.apply
    exact ⟨hrun.trans hfs, hzero, hclear, hkeep.trans (hrun.trans hfs)⟩

/-- In a run the errors are atomic and sticky exactly when no step takes the path that goes on after
the error. -/
theorem errors_atomic_and_sticky (p : Platform) (s₀ : Persistent) (ops : List Op) :
    (∀ pre op post, ops = pre ++ op :: post → FailsCleanly p (s₀.run p pre) op) ↔
      ∀ pre op post, ops = pre ++ op :: post → ¬ WritesAfterError (s₀.run p pre) op := by
  constructor
  · exact fun h pre op post hops => failsCleanly_iff.1 (h pre op post hops)
  · exact fun h pre op post hops => failsCleanly_iff.2 (h pre op post hops)

/-- A buffered publish has message id 0 until it is sent: `remove_publish_by_msg_id(0)` reports an
error and overwrites the front of its data. -/
theorem errors_not_atomic :
    let s :=
      setUp.run posix [.begin, .startClientTransaction device1, .addClient device1 address1 60,
        .addClientPublish ⟨[1, 2, 3], by decide⟩ 1 false 0 false 0]
    let s' := s.next posix (.removePublishByMsgId 0)
    s.transactionStarted = true ∧ s.error = false ∧ s'.error = true ∧
      (s.fs.contents (slotFile 0 .publish)).take 3 = [1, 2, 3] ∧
      (s'.fs.contents (slotFile 0 .publish)).take 3 = [0, 0, 3] ∧ s'.fs ≠ s.fs ∧
      ¬ FailsCleanly posix s (.removePublishByMsgId 0) := by
  intro s s'
  have hs : s = setUp.run posix _ := rfl
  have hs' : s' = s.next posix _ := rfl
  have hrun : s.transactionStarted = true ∧ s.error = false ∧ s'.error = true ∧
      (s.fs.contents (slotFile 0 .publish)).take 3 = [1, 2, 3] ∧
      (s'.fs.contents (slotFile 0 .publish)).take 3 = [0, 0, 3] := by
    rw [hs', hs]
    decide +kernel
  obtain ⟨hst, hok, herr, hold, hnew⟩ := hrun
  have hne : s'.fs ≠ s.fs := by
    intro h
    rw [h, hold] at hnew
    revert hnew; decide
  exact ⟨hst, hok, herr, hold, hnew, hne, fun h => hne (h (by simp) hst hok herr).1⟩

end SnGateway
