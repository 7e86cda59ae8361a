import SnGateway.Registry

/-!
# The registry as a table

The records `rs` of `CLIENTS` form a table whose key is the client id: a slot is all-zero or holds a
client whose `file_number` is the slot number (`RegTable`). This module says what the loops over
`CLIENTS` find in such a table and what the operations write into a slot.
-/

namespace SnGateway
open RecordStore

/-! ### Fields of the records that are written -/

namespace Persistent

variable {p : Platform} {c : CString} {a : DeviceAddress} {d : UInt32} {e : EntryClient}

theorem get_freshSession {f : Field} (h : f = EntryClient.clientId ∨ f = EntryClient.fileNumber) :
    (freshSession p a d e).get f = e.get f := by
  have ha : ∀ f : Field, f = EntryClient.clientId ∨ f = EntryClient.fileNumber →
      (e.putAt EntryClient.clientAddress.off a.bytes).get f = e.get f := by
    rintro f (rfl | rfl) <;>
      exact Record.get_putAt_of_field_disjoint (g := EntryClient.clientAddress)
        (by decide) a.size_eq.le
  rw [freshSession]
  rcases h with rfl | rfl <;>
    rw [Record.get_putNat_of_disjoint (by decide), Record.get_putNat_of_disjoint (by decide),
      Record.get_putNat_of_disjoint (by decide), Record.get_putNat_of_disjoint (by decide),
      Record.get_putNat_of_disjoint (by decide), ha _ (by simp)]

theorem text_clientId_newEntryClient (slot : Nat) (hc : c.length < 24) (hs : slot < 10 ^ 8) :
    (newEntryClient p c slot a d).text EntryClient.clientId = c.bytes := by
  have hl := length_zeroPadded (w := 8) (by omega) hs
  rw [newEntryClient, Record.text, get_freshSession (.inl rfl), Record.strcpy,
    Record.get_putAt_of_field_disjoint (by decide) (by simp [hl, EntryClient.fileNumber])]
  exact Record.text_strcpy_self c.noNul hc (by decide)

theorem text_fileNumber_newEntryClient (slot : Nat) (hs : slot < 10 ^ 8) :
    (newEntryClient p c slot a d).text EntryClient.fileNumber = zeroPadded 8 slot := by
  have hl := length_zeroPadded (w := 8) (by omega) hs
  rw [newEntryClient, Record.text, get_freshSession (.inr rfl)]
  exact Record.text_strcpy_self (zero_notMem_digits fun x hx => mem_zeroPadded hx)
    (by rw [hl]; decide) (by decide)

theorem text_clientId_resetEntryClient (hc : c.length < 24) :
    (resetEntryClient p c a d e).text EntryClient.clientId = c.bytes := by
  simp only [resetEntryClient]
  rw [Record.text_putNat_of_disjoint (by decide), Record.text_putNat_of_disjoint (by decide),
    Record.text_putNat_of_disjoint (by decide), Record.text_putNat_of_disjoint (by decide),
    Record.text_putNat_of_disjoint (by decide)]
  exact Record.text_strcpy_self c.noNul hc (by decide)

theorem text_fileNumber_resetEntryClient (hc : c.length < 24) :
    (resetEntryClient p c a d e).text EntryClient.fileNumber = e.text EntryClient.fileNumber := by
  simp only [resetEntryClient]
  rw [Record.text_putNat_of_disjoint (by decide), Record.text_putNat_of_disjoint (by decide),
    Record.text_putNat_of_disjoint (by decide), Record.text_putNat_of_disjoint (by decide),
    Record.text_putNat_of_disjoint (by decide), Record.text, Record.strcpy,
    Record.get_putAt_of_field_disjoint (by decide)
    (by simpa [EntryClient.clientId, CString.length] using hc),
    Record.get_putAt_of_field_disjoint (by decide) (by simp [EntryClient.clientId]),
    Record.get_putAt_of_field_disjoint (by decide) a.size_eq.le,
    Record.get_putNat_of_disjoint (by decide), Record.text]

end Persistent

/-! ### The loop for an empty slot -/

/-- The test of `find_empty_entry_space_in_registry`: `strlen(client_id) == 0`. -/
def EntryClient.isUnnamed (e : EntryClient) : Bool := (e.text EntryClient.clientId).length = 0

theorem EntryClient.isUnnamed_iff {e : EntryClient} :
    e.isUnnamed = true ↔ e.text EntryClient.clientId = [] := by
  rw [isUnnamed, decide_eq_true_iff, List.length_eq_zero_iff]

/-- The loop returns at the first record without a client id, or goes on behind the
whole records. -/
theorem Persistent.findEmptyEntrySpace_append (rs : List EntryClient)
    (tail : List (Nat × EntryClient)) {k : Nat} (hk : k < 2 ^ 16) :
    findEmptyEntrySpace k (rs.map (fun r => (57, r)) ++ tail) =
      if rs.findIdx EntryClient.isUnnamed < rs.length then
        (k + rs.findIdx EntryClient.isUnnamed) % 2 ^ 16
      else findEmptyEntrySpace ((k + rs.length) % 2 ^ 16) tail := by
  induction rs generalizing k with
  | nil =>
    rw [List.findIdx_nil, if_neg (by simp), List.length_nil, Nat.add_zero, Nat.mod_eq_of_lt hk]; rfl
  | cons e rs ih =>
    have hnext : (k + 1) % 2 ^ 16 < 2 ^ 16 := Nat.mod_lt _ (by omega)
    rw [List.map_cons, List.cons_append, findEmptyEntrySpace, if_neg (by omega), List.findIdx_cons,
      List.length_cons]
    cases he : e.isUnnamed with
    | true =>
      rw [if_pos (by simpa [EntryClient.isUnnamed] using he), cond_true, if_pos (Nat.succ_pos _),
        Nat.add_zero,
        Nat.mod_eq_of_lt hk]
    | false =>
      have hshift : ∀ m, ((k + 1) % 2 ^ 16 + m) % 2 ^ 16 = (k + (m + 1)) % 2 ^ 16 := by omega
      rw [if_neg (by simpa [EntryClient.isUnnamed] using he), ih hnext, hshift, hshift, cond_false]
      simp only [Nat.add_lt_add_iff_right]

/-! ### Slots -/

def clientKey (e : EntryClient) : Option (List UInt8) :=
  if e.text EntryClient.clientId = [] then none else some (e.text EntryClient.clientId)

/-- Slot `i` holds a client. -/
structure Live (i : Nat) (e : EntryClient) : Prop where
  id_ne : e.text EntryClient.clientId ≠ []
  id_lt : (e.text EntryClient.clientId).length < 24
  number : e.text EntryClient.fileNumber = zeroPadded 8 i

theorem text_clientId_zero : (Record.zero 57).text EntryClient.clientId = [] :=
  Record.text_zero _ (by decide)

theorem text_fileNumber_zero : (Record.zero 57).text EntryClient.fileNumber = [] :=
  Record.text_zero _ (by decide)

@[simp] theorem clientKey_zero : clientKey (Record.zero 57) = none := if_pos text_clientId_zero

theorem clientKey_eq_some {e : EntryClient} {k : List UInt8} :
    clientKey e = some k ↔ e.text EntryClient.clientId = k ∧ k ≠ [] := by
  rw [clientKey]
  split
  · next h => simp only [reduceCtorEq, false_iff, h]; rintro ⟨rfl, h'⟩; exact h' rfl
  · next h =>
    constructor
    · intro hk; cases hk; exact ⟨rfl, h⟩
    · rintro ⟨rfl, -⟩; rfl

theorem Live.key {i : Nat} {e : EntryClient} (h : Live i e) :
    clientKey e = some (e.text EntryClient.clientId) :=
  if_neg h.id_ne

theorem Live.rewrite {i : Nat} {e e' : EntryClient} (h : Live i e)
    (hid : e'.text EntryClient.clientId = e.text EntryClient.clientId)
    (hnum : e'.text EntryClient.fileNumber = e.text EntryClient.fileNumber) : Live i e' where
  id_ne := by rw [hid]; exact h.id_ne
  id_lt := by rw [hid]; exact h.id_lt
  number := by rw [hnum]; exact h.number

theorem Live.fileName {i : Nat} {e : EntryClient} (h : Live i e) (x : FileEnding) :
    EntryClient.fileName e x = slotFile i x := by
  rw [EntryClient.fileName, h.number, slotFile]

theorem Live.position {i : Nat} {e : EntryClient} (h : Live i e) (hi : i < 2 ^ 16) :
    sizeMul (Persistent.parseFileNumberToInt e) 57 = i * 57 := by
  rw [Persistent.parseFileNumberToInt, h.number, atoi_zeroPadded (by omega),
    sizeMul_natCast (by omega)]

/-- A setter writes the slot of the cached record. -/
theorem Live.updateEntryClient {p : Platform} {s : Persistent} {rs : List EntryClient} {i : Nat}
    (h : Live i s.entryClient) (hi : i < rs.length) (hlt : i < 2 ^ 16) (hopen : s.blocked = false)
    (hin : s.notInClientRegistry = false) (hfile : s.fs.contents clientRegistry = encode rs)
    (f : EntryClient → EntryClient) :
    s.updateEntryClient p f =
      { s with
        entryClient := f s.entryClient
        fs := s.fs.set clientRegistry (encode (SlotTable.place rs i (f s.entryClient))) } := by
  unfold Persistent.updateEntryClient
  rw [if_neg (by simp [hopen]), if_neg (by simp [hin])]
  dsimp only
  rw [h.position hlt, Files.writeAt_encode p _ hfile hi.le]

/-- Every slot is all-zero or holds a client, whose `file_number` is the slot number. -/
def Slots (rs : List EntryClient) : Prop :=
  ∀ (i : Nat) (e : EntryClient), rs[i]? = some e → e = Record.zero 57 ∨ Live i e

namespace Slots

variable {rs : List EntryClient}

theorem place (h : Slots rs) {i : Nat} {e : EntryClient} (hi : i ≤ rs.length)
    (he : e = Record.zero 57 ∨ Live i e) : Slots (SlotTable.place rs i e) := by
  intro j b hj
  rw [SlotTable.getElem?_place hi] at hj
  split at hj
  · next hji => cases hj; subst hji; exact he
  · exact h j b hj

/-- The loops over the registry find the first record they look for, in use or not. -/
theorem scan_cases (h : Slots rs) (hlen : rs.length ≤ 2 ^ 16) (q : EntryClient → Bool) :
    (∃ i e, rs[i]? = some e ∧ q e = true ∧ (∀ (j : Nat) (b : EntryClient), j < i → rs[j]? = some b →
      q b = false) ∧
        (Persistent.clientScanner q).scan (encode rs) = .found i e) ∨
      ((∀ (j : Nat) (b : EntryClient), rs[j]? = some b → q b = false) ∧
        (Persistent.clientScanner q).scan (encode rs) = .exhausted (rs.length + 1)
        none (Record.zero 57)) := by
  have hstops : ∀ (j : Nat) (b : EntryClient), rs[j]? = some b →
      (Persistent.clientScanner q).stops b = q b := by
    intro j b hb
    rcases h j b hb with rfl | hl
    · simp [Scanner.stops, Persistent.clientScanner, MAXIMUM_CLIENT_ID_LENGTH, text_clientId_zero]
    · simp [Scanner.stops, Persistent.clientScanner, MAXIMUM_CLIENT_ID_LENGTH, hl.id_lt]
  rcases (Persistent.clientScanner q).scan_cases (by omega) rs (by show _ < 2 ^ 32; omega) with
    ⟨i, e, he, hstop, hfirst, hscan⟩ | ⟨hnone, hscan⟩
  · refine .inl ⟨i, e, he, by rw [← hstops i e he]; exact hstop, fun j b hj hb => ?_, hscan⟩
    rw [← hstops j b hb]; exact hfirst j b hj hb
  · have hhole : lastIdx? (Persistent.clientScanner q).hole rs = none :=
      lastIdx?_eq_none.2 fun _ _ => rfl
    refine .inr ⟨fun j b hb => ?_, by rw [hscan, hhole]⟩
    rw [← hstops j b hb]; exact hnone j b hb

end Slots

/-- The records of `CLIENTS`: every slot is all-zero or holds a client, whose `file_number` is the
slot number; no client id occurs twice. -/
structure RegTable (rs : List EntryClient) : Prop where
  len : rs.length < 2 ^ 16
  slot : ∀ (i : Nat) (e : EntryClient), rs[i]? = some e → e = Record.zero 57 ∨ Live i e
  distinct : SlotTable.Distinct clientKey rs

def clientCount (rs : List EntryClient) : Nat := rs.countP fun e => e.text EntryClient.clientId ≠ []

namespace RegTable

variable {rs : List EntryClient} {p : Platform}

theorem nil : RegTable [] := ⟨by decide, by simp, .nil clientKey⟩

theorem live_of_key (h : RegTable rs) {i : Nat} {e : EntryClient} {k : List UInt8}
    (he : rs[i]? = some e) (hk : clientKey e = some k) : Live i e := by
  rcases h.slot i e he with rfl | hl
  · simp at hk
  · exact hl

theorem index_lt {i : Nat} {e : EntryClient} (he : rs[i]? = some e) : i < rs.length :=
  (List.getElem?_eq_some_iff.1 he).1

theorem place (h : RegTable rs) {i : Nat} {e : EntryClient} (hi : i ≤ rs.length)
    (hlen : i < 2 ^ 16 - 1) (hl : Live i e)
    (hfresh : ∀ (j : Nat) (b : EntryClient), j ≠ i → rs[j]? = some b → b.text EntryClient.clientId ≠
      e.text EntryClient.clientId) : RegTable (SlotTable.place rs i e) := by
  refine ⟨?_, Slots.place h.slot hi (.inr hl), h.distinct.place hi ?_⟩
  · have := h.len
    rw [SlotTable.length_place hi]; omega
  · intro j b k hji hj hb he
    obtain ⟨hb, -⟩ := clientKey_eq_some.1 hb
    obtain ⟨he, -⟩ := clientKey_eq_some.1 he
    exact hfresh j b hji hj (hb.trans he.symm)

theorem replace (h : RegTable rs) {i : Nat} {e e' : EntryClient} (he : rs[i]? = some e)
    (hl : Live i e) (hid : e'.text EntryClient.clientId = e.text EntryClient.clientId)
    (hnum : e'.text EntryClient.fileNumber = e.text EntryClient.fileNumber) :
    RegTable (SlotTable.place rs i e') := by
  have hi := index_lt he
  have hl' : Live i e' := hl.rewrite hid hnum
  refine ⟨?_, Slots.place h.slot hi.le (.inr hl'), h.distinct.place hi.le ?_⟩
  · have := h.len
    rw [SlotTable.length_place hi.le]; omega
  · intro j b k hji hj hb he'
    rw [clientKey_eq_some, hid, ← clientKey_eq_some] at he'
    exact hji (h.distinct j i b e k hj he hb he')

theorem clear (h : RegTable rs) {i : Nat} (hi : i < rs.length) :
    RegTable (SlotTable.place rs i (Record.zero 57)) := by
  refine ⟨?_, Slots.place h.slot hi.le (.inl rfl), h.distinct.place hi.le ?_⟩
  · have := h.len
    rw [SlotTable.length_place hi.le]; omega
  · intro j b k _ _ _ he; simp at he

/-! ### The loops over the registry -/

theorem scan_cases (h : RegTable rs) {q : EntryClient → Bool} (hq : q (Record.zero 57) = false) :
    (∃ i e, rs[i]? = some e ∧ Live i e ∧ q e = true ∧
        (∀ (j : Nat) (b : EntryClient), j < i → rs[j]? = some b → q b = false) ∧
        (Persistent.clientScanner q).scan (encode rs) = .found i e) ∨
      ((∀ (j : Nat) (b : EntryClient), rs[j]? = some b → q b = false) ∧
        (Persistent.clientScanner q).scan (encode rs) =
          .exhausted (rs.length + 1) none (Record.zero 57)) := by
  rcases Slots.scan_cases h.slot h.len.le q with ⟨i, e, he, hqe, hfirst, hscan⟩ | ⟨hnone, hscan⟩
  · have hl : Live i e := by
      rcases h.slot i e he with rfl | hl
      · rw [hq] at hqe; cases hqe
      · exact hl
    exact .inl ⟨i, e, he, hl, hqe, hfirst, hscan⟩
  · exact .inr ⟨hnone, hscan⟩

theorem findEmptyEntrySpace_spec (h : RegTable rs) :
    ∃ k, Persistent.findEmptyEntrySpace 0 (reads 57 (encode rs)) = k ∧ k ≤ rs.length ∧
      (∀ e, rs[k]? = some e → e = Record.zero 57) ∧
      (∀ (j : Nat) (b : EntryClient), j < k → rs[j]? = some b → Live j b) := by
  refine ⟨rs.findIdx EntryClient.isUnnamed, ?_, List.findIdx_le_length, fun e he => ?_,
    fun j b hj hb => ?_⟩
  · have hle : rs.findIdx EntryClient.isUnnamed ≤ rs.length := List.findIdx_le_length
    have hlen := h.len
    rw [reads_encode (by omega), Persistent.findEmptyEntrySpace_append rs _ (by omega),
      Nat.zero_add, Nat.zero_add]
    split
    · exact Nat.mod_eq_of_lt (by omega)
    · rw [Persistent.findEmptyEntrySpace, if_pos rfl, Nat.mod_eq_of_lt (by omega)]
      omega
  · obtain ⟨hlt, rfl⟩ := List.getElem?_eq_some_iff.1 he
    rcases h.slot _ _ he with h0 | hl
    · exact h0
    · exact absurd (EntryClient.isUnnamed_iff.1 List.findIdx_getElem) hl.id_ne
  · obtain ⟨hlt, rfl⟩ := List.getElem?_eq_some_iff.1 hb
    have hnamed : ¬ EntryClient.isUnnamed rs[j] = true := by simpa using List.not_of_lt_findIdx hj
    rcases h.slot j _ hb with h0 | hl
    · exact absurd (EntryClient.isUnnamed_iff.2 (by rw [h0, text_clientId_zero])) hnamed
    · exact hl

theorem clientCount_of_full (h : ∀ (j : Nat) (b : EntryClient), rs[j]? = some b → Live j b) :
    clientCount rs = rs.length := by
  rw [clientCount, List.countP_eq_length]
  intro e he
  obtain ⟨j, hj⟩ := List.getElem?_of_mem he
  simpa using (h j e hj).id_ne

end RegTable

end SnGateway
