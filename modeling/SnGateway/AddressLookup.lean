import SnGateway.Isolation

/-!
# Finding a client by its address

A record keeps its address until its own client is reset or deleted; registering a client from an
address does not touch other clients that were registered from it. A transaction opened by an
address is on the client in the lowest slot that has it, so it is on the client that used the
address last only when no lower slot has it as well.
-/

namespace SnGateway
open RecordStore Persistent

variable {p : Platform} {g : Option Tx} {s s' s₀ : Persistent} {rs : List EntryClient} {op : Op}
    {c : CString} {a : DeviceAddress} {d : UInt32}

theorem Persistent.applyTransaction_eq_one (h : s.applyTransaction.1 = 1) :
    s.blocked = false ∧ s.notInClientRegistry = false := by
  unfold applyTransaction at h
  split at h
  · next hs =>
    split at h
    · simp at h
    · next he =>
      split at h
      · simp at h
      · next hn => exact ⟨by simp [blocked, hs, blocked_of_not he], blocked_of_not hn⟩
  · simp at h

/-- The operations that start a session of client `c` from address `a`. -/
def StartsSession (c : CString) (a : DeviceAddress) (d : UInt32) (op : Op) : Prop :=
  op = .addClient c a d ∨ op = .resetClient c a d

theorem RegInv.session_started (h : RegInv g s rs) (ha : Allowed p g s op)
    (he : Effect p s rs op s') (hop : StartsSession c a d op) (hok : s'.applyTransaction.1 = 1) :
    ∃ j, s'.records[j]? = some s'.entryClient ∧ Live j s'.entryClient ∧
      s'.entryClient.text EntryClient.clientId = c.bytes ∧
      s'.entryClient.get EntryClient.clientAddress = a.bytes := by
  obtain ⟨hopen', hin'⟩ := applyTransaction_eq_one hok
  cases he with
  | other hreg => rcases hop with rfl | rfl <;> simp [Op.isRegistry] at hreg
  | skip hs =>
    rcases hop with rfl | rfl
    · rw [show s.blocked = true from hs] at hopen'; cases hopen'
    · rcases hs with hb | hn
      · rw [hb] at hopen'; cases hopen'
      · rw [hn] at hin'; cases hin'
  | raise => simp [blocked] at hopen'
  | begin hreg => rcases hop with rfl | rfl <;> cases hreg
  | found _ _ _ hreg => rcases hop with rfl | rfl <;> simp [Op.wanted] at hreg
  | missing _ hreg => rcases hop with rfl | rfl <;> simp [Op.wanted] at hreg
  | apply hreg => rcases hop with rfl | rfl <;> cases hreg
  | delete _ _ hreg => rcases hop with rfl | rfl <;> cases hreg
  | rewrite i e' hopen hin hslot hlive hrw hid hnum =>
    rcases hop with rfl | rfl
    · simp [Op.rewrite] at hrw
    · obtain ⟨t, -, rfl, -, -, ht⟩ := h.slot_of_registered hopen hin
      have hc : s.entryClient.text EntryClient.clientId = c.bytes := by
        have := ha.2.2 t rfl
        rw [ht] at this; exact Option.some.inj this
      have hlen : c.length < 24 := by rw [CString.length, ← hc]; exact hlive.id_lt
      obtain rfl : resetEntryClient p c a d s.entryClient = e' := Option.some.inj hrw
      refine ⟨i, ?_, ?_, hid.trans hc, address_resetEntryClient hlen⟩
      · rw [records_of_contents (Files.contents_set_self _),
          SlotTable.getElem?_place (RegTable.index_lt hslot).le, if_pos rfl]
      · exact hlive.rewrite hid hnum
  | add c' a' d' k hreg _ _ hk _ _ hlive hid =>
    rcases hop with rfl | rfl
    · cases hreg
      refine ⟨k, ?_, hlive, hid, address_newEntryClient⟩
      rw [records_of_contents (Files.contents_set_self _), SlotTable.getElem?_place hk, if_pos rfl]
    · cases hreg

theorem RegInv.opened_byAddress (h : RegInv g s rs) (ha : a ≠ Record.zero 6) {j : Nat}
    {e : EntryClient} (hj : rs[j]? = some e) (hea : e.get EntryClient.clientAddress = a.bytes) :
    ∃ (i : Nat) (b : EntryClient), rs[i]? = some b ∧ Live i b ∧
      b.get EntryClient.clientAddress = a.bytes ∧
      (∀ (k : Nat) (b' : EntryClient), k < i → rs[k]? = some b' →
        b'.get EntryClient.clientAddress ≠ a.bytes) ∧
      (s.opened p (.startClientTransactionByAddress a)).getClientId =
        some (b.text EntryClient.clientId) := by
  rw [opened_startClientTransactionByAddress]
  unfold attach
  rw [h.file]
  rcases h.table.scan_cases (hasAddress_zero ha) with ⟨i, b, hi, hl, hq, hfirst, hscan⟩ | ⟨hnone, -⟩
  · refine ⟨i, b, hi, hl, by simpa [hasAddress] using hq, fun k b' hk hb' => ?_, ?_⟩
    · simpa [hasAddress] using hfirst k b' hk hb'
    · rw [hscan]; exact getClientId_found hl
  · have := hnone j e hj
    simp [hasAddress, hea] at this

/-- After a session of client `c` was started from address `a` and applied, a transaction opened by
`a` is on the client in the lowest slot that has the address; it is on `c` exactly when no slot
below the one of `c` has it. -/
theorem address_finds_lowest_slot (h₀ : Fresh s₀) (h : Reachable p s₀ g s) (ha : Allowed p g s op)
    (hop : StartsSession c a d op) (hok : (s.next p op).applyTransaction.1 = 1) :
    ∃ (j : Nat) (e : EntryClient), (s.next p op).records[j]? = some e ∧
      e.text EntryClient.clientId = c.bytes ∧
      e.get EntryClient.clientAddress = a.bytes ∧
      (∃ (i : Nat) (b : EntryClient), (s.next p op).records[i]? = some b ∧ Live i b ∧
        b.get EntryClient.clientAddress = a.bytes ∧
        (∀ (k : Nat) (b' : EntryClient), k < i → (s.next p op).records[k]? = some b' →
          b'.get EntryClient.clientAddress ≠ a.bytes) ∧
        ((s.next p op).opened p (.startClientTransactionByAddress a)).getClientId =
          some (b.text EntryClient.clientId)) ∧
      (((s.next p op).opened p (.startClientTransactionByAddress a)).getClientId = some c.bytes ↔
        ∀ (i : Nat) (b : EntryClient), i < j → (s.next p op).records[i]? = some b →
          b.get EntryClient.clientAddress ≠ a.bytes) := by
  have haddr : a ≠ Record.zero 6 := by rcases hop with rfl | rfl <;> exact ha.2.1
  obtain ⟨rs, hi⟩ := h.inv h₀
  obtain ⟨j, hj, hl, hc, hea⟩ := hi.session_started ha (hi.effect_of_allowed ha) hop hok
  obtain ⟨rs', hi'⟩ := hi.next ha
  have hrec := records_of_contents hi'.file
  rw [hrec] at hj
  obtain ⟨i, b, hslot, hlb, hba, hfirst, hget⟩ := hi'.opened_byAddress (p := p) haddr hj hea
  rw [hrec]
  refine ⟨j, _, hj, hc, hea, ⟨i, b, hslot, hlb, hba, hfirst, hget⟩, ?_⟩
  rw [hget, Option.some.injEq]
  constructor
  · -- the client found has the id of `c`, so it stands in the slot of `c`
    intro hbc
    have hkb : clientKey b = some c.bytes := by rw [hlb.key, hbc]
    have hkc : clientKey (s.next p op).entryClient = some c.bytes := by rw [hl.key, hc]
    obtain rfl := hi'.table.distinct i j b _ _ hslot hj hkb hkc
    exact fun k b' hk hb' => hfirst k b' hk hb'
  · intro hlow
    have hij : i = j := by
      rcases Nat.lt_trichotomy i j with hlt | heq | hgt
      · exact absurd hba (hlow i b hlt hslot)
      · exact heq
      · exact absurd hea (hfirst j _ hgt hj)
    subst hij
    rw [hslot] at hj; cases hj
    exact hc

/-- The first of two clients moves to the address of the second one: the transaction opened by this
address is on the first. -/
theorem address_finds_lowest_slot_moved :
    let before : List Op :=
      [.begin, .startClientTransaction device1, .addClient device1 address1 60,
        .applyTransaction, .startClientTransaction device2, .addClient device2 address2 60,
        .applyTransaction,
        .startClientTransaction device1]
    let s := (setUp.run posix before).next posix (.resetClient device1 address2 60)
    s.records.map (fun e => e.get EntryClient.clientAddress) = [address2.bytes, address2.bytes] ∧
      (s.opened posix (.startClientTransactionByAddress address2)).getClientId =
        some device1.bytes := by
  intro before s
  have hr : Reachable posix setUp (runTx posix none setUp before) (setUp.run posix before) :=
    Reachable.init.run (by decide +kernel)
  have ha : Allowed posix (runTx posix none setUp before) (setUp.run posix before)
      (.resetClient device1 address2 60) := by decide +kernel
  have hnames : s.records.map (fun e => e.text EntryClient.clientId) =
      [device1.bytes, device2.bytes] := by decide +kernel
  obtain ⟨j, e, hj, hc, -, -, hiff⟩ := address_finds_lowest_slot ⟨rfl, rfl⟩ hr ha (.inr rfl)
    (by decide +kernel)
  have hname : [device1.bytes, device2.bytes][j]? = some device1.bytes := by
    rw [← hnames, List.getElem?_map, hj, Option.map_some, hc]
  have hlt : j < 2 := (List.getElem?_eq_some_iff.1 hname).1
  have hne : j ≠ 1 := by
    rintro rfl
    exact absurd hname (by decide +kernel)
  exact ⟨by decide +kernel, hiff.2 fun i b hi => absurd hi (by omega)⟩

/-- Two clients register from one address: the transaction opened by the address afterwards is on
the first of them, not on the one that registered last. -/
theorem address_finds_earlier_client :
    let before : List Op :=
      [.begin, .startClientTransaction device1, .addClient device1 address1 60,
        .applyTransaction, .startClientTransaction device2]
    let s := setUp.run posix before
    let s' := s.next posix (.addClient device2 address1 60)
    Fresh setUp ∧ Reachable posix setUp (runTx posix none setUp before) s ∧
      Allowed posix (runTx posix none setUp before) s (.addClient device2 address1 60) ∧
      s'.applyTransaction.1 = 1 ∧
      (s'.opened posix (.startClientTransactionByAddress address1)).getClientId =
        some device1.bytes ∧
      device1.bytes ≠ device2.bytes := by
  intro before s s'
  exact ⟨⟨rfl, rfl⟩, Reachable.init.run (by decide +kernel), by decide +kernel, by decide +kernel,
    by decide +kernel, by decide⟩

end SnGateway
