import SnGateway.ClientCalls
import SnGateway.Lib.Numbering

/-!
# Topic registrations as a numbering

`add_client_registration` numbers the names of a client in the order in which they come: the `.REG`
file of a client is the table of the names registered so far (`Joined.registrations`), record `i`
holding id `i + 1`. A name of 255 characters is stored but never found again, so it gets a new
record each time.

As long as a file has fewer than 65535 records, the scan counter tells them apart.
-/

namespace SnGateway
open RecordStore Persistent Numbering

namespace EntryRegistration

/-- The record that is written behind the last one. -/
def make (i : Nat) (t : CString) : EntryRegistration :=
  (((Record.zero 258).putNat topicId i).strcpy topicName t.bytes).putNat known true.toNat

variable {i : Nat} {t : CString}

/-- The name is written behind the id, however long it is. -/
theorem getNat_topicId_fill (buffer : EntryRegistration) (hi : i < 2 ^ 16) :
    (((buffer.putNat topicId i).strcpy topicName t.bytes).putNat known true.toNat).getNat topicId =
      i := by
  have hdisj : topicId.off + topicId.len ≤ topicName.off := by decide
  rw [Record.getNat_putNat_of_disjoint (by decide), Record.getNat, Record.strcpy,
    Record.get_putAt_of_disjoint (.inl hdisj), ← Record.getNat,
    Record.getNat_putNat_self _ (by decide)]
  exact Nat.mod_eq_of_lt hi

theorem getNat_topicId_make (hi : i < 2 ^ 16) : (make i t).getNat topicId = i :=
  getNat_topicId_fill _ hi

theorem text_topicName_make (ht : t.length ≤ 255) : (make i t).text topicName = t.bytes := by
  rw [make, Record.text_putNat_of_disjoint (by decide)]
  exact Record.text_strcpy_le t.noNul ht (by decide)

theorem getNat_known_make : (make i t).getNat known = 1 := by
  rw [make, Record.getNat_putNat_self _ (by decide)]
  decide

end EntryRegistration

/-- A name that the lookups recognise. -/
def shortName (t : CString) : Bool := t.length < MAXIMUM_TOPIC_NAME_LENGTH

/-- The records of the names `l`. -/
def nameTable (l : List CString) : List EntryRegistration := l.mapIdx fun i t => .make (i + 1) t

/-- The names a `.REG` file can hold: each fits its record, and the scan counter reaches behind the
last. -/
structure Nameable (l : List CString) : Prop where
  fits : ∀ t ∈ l, t.length ≤ 255
  room : l.length < 65535

variable {p : Platform} {s : Persistent} {l : List CString} {t : CString} {e : EntryRegistration}

@[simp] theorem length_nameTable : (nameTable l).length = l.length := List.length_mapIdx

theorem nameTable_snoc : nameTable (l ++ [t]) = nameTable l ++ [.make (l.length + 1) t] :=
  List.mapIdx_concat

theorem getElem?_nameTable {i : Nat} :
    (nameTable l)[i]? = some e ↔ ∃ t, l[i]? = some t ∧ e = .make (i + 1) t := by
  rw [nameTable, List.getElem?_mapIdx, Option.map_eq_some_iff]
  constructor <;> rintro ⟨t, ht, he⟩ <;> exact ⟨t, ht, he.symm⟩

namespace Nameable

theorem fields (h : Nameable l) {i : Nat} (he : (nameTable l)[i]? = some e) :
    ∃ t, l[i]? = some t ∧ e.getNat EntryRegistration.topicId = i + 1 ∧
      e.text EntryRegistration.topicName = t.bytes ∧ e.getNat EntryRegistration.known = 1 := by
  obtain ⟨t, ht, rfl⟩ := getElem?_nameTable.1 he
  have hi := (List.getElem?_eq_some_iff.1 ht).1
  have hroom := h.room
  exact ⟨t, ht, EntryRegistration.getNat_topicId_make (by omega),
    EntryRegistration.text_topicName_make (h.fits t (List.mem_of_getElem? ht)),
    EntryRegistration.getNat_known_make⟩

theorem isEmpty_eq_false (h : Nameable l) (he : e ∈ nameTable l) : e.isEmpty = false := by
  obtain ⟨i, hi⟩ := List.getElem?_of_mem he
  obtain ⟨t, -, hid, -, -⟩ := h.fields hi
  simp [EntryRegistration.isEmpty, hid]

theorem hasName_iff (h : Nameable l) {i : Nat} (he : (nameTable l)[i]? = some e) :
    e.hasName t = true ↔ shortName t = true ∧ l[i]? = some t := by
  obtain ⟨u, hu, hid, htext, -⟩ := h.fields he
  rw [EntryRegistration.hasName, htext, hid, hu, Option.some.injEq, decide_eq_true_iff, shortName,
    decide_eq_true_iff]
  constructor
  · rintro ⟨-, hlt, hb⟩
    obtain rfl := CString.ext hb
    exact ⟨hlt, rfl⟩
  · rintro ⟨hlt, rfl⟩
    exact ⟨Nat.succ_ne_zero i, hlt, rfl⟩

theorem hasTopicId_iff (h : Nameable l) {i : Nat} {j : UInt16} (he : (nameTable l)[i]? = some e) :
    e.hasTopicId j = true ↔ j.toNat = i + 1 ∧ ∃ t, l[i]? = some t ∧ shortName t = true := by
  obtain ⟨u, hu, hid, htext, -⟩ := h.fields he
  rw [EntryRegistration.hasTopicId, htext, hid, hu, decide_eq_true_iff]
  constructor
  · rintro ⟨hj, hlt⟩
    exact ⟨hj.symm, u, rfl, decide_eq_true hlt⟩
  · rintro ⟨hj, t, ht, hlt⟩
    cases ht
    exact ⟨hj.symm, of_decide_eq_true hlt⟩

/-- An id finds the name at its place, unless the name is too long. -/
theorem find?_hasTopicId (h : Nameable l) {i : UInt16} :
    (nameTable l).find? (EntryRegistration.hasTopicId i) = some e ↔
      ∃ k t, i.toNat = k + 1 ∧ l[k]? = some t ∧ shortName t = true ∧ e = .make (k + 1) t := by
  rw [List.find?_eq_some_iff_getElem]
  constructor
  · rintro ⟨hid, k, hk, rfl, -⟩
    have he := List.getElem?_eq_getElem hk
    obtain ⟨hi, t, ht, hshort⟩ := (h.hasTopicId_iff he).1 hid
    obtain ⟨t', ht', hmake⟩ := getElem?_nameTable.1 he
    rw [ht] at ht'; cases ht'
    exact ⟨k, t, hi, ht, hshort, hmake⟩
  · rintro ⟨k, t, hi, ht, hshort, rfl⟩
    have he : (nameTable l)[k]? = some (.make (k + 1) t) := getElem?_nameTable.2 ⟨t, ht, rfl⟩
    obtain ⟨hk, hget⟩ := List.getElem?_eq_some_iff.1 he
    refine ⟨(h.hasTopicId_iff he).2 ⟨hi, t, ht, hshort⟩, k, hk, hget, fun j hj => ?_⟩
    rw [Bool.not_eq_true', ← Bool.not_eq_true]
    intro hid
    have := ((h.hasTopicId_iff (List.getElem?_eq_getElem (Nat.lt_trans hj hk))).1 hid).1
    omega

end Nameable

namespace Persistent

/-! ### The lookups by id -/

/-- The records of the transaction's registration file. -/
def registrations (s : Persistent) : List EntryRegistration :=
  whole 258 (s.fs.contents (s.clientFile .registration))

theorem getTopicName_eq (hopen : s.blocked = false) {i : UInt16} (hi : i ≠ 0) :
    s.getTopicName i =
      (s.registrations.find? (EntryRegistration.hasTopicId i)).map fun e =>
      e.text EntryRegistration.topicName := by
  unfold getTopicName
  rw [if_neg (by simp [hopen]), if_neg hi]
  dsimp only
  generalize hsc : Scanner.mk (fun _ => false) (EntryRegistration.hasTopicId i) false (2 ^ 16) = sc
  have hstops : sc.stops = EntryRegistration.hasTopicId i := by
    subst hsc
    funext e
    simp [Scanner.stops]
  rcases sc.scan_find? (by omega) (by subst hsc; exact Nat.two_pow_pos 16)
    (s.fs.contents (s.clientFile .registration)) with
    ⟨k, e, hfind, hscan⟩ | ⟨hnone, k, hole, b, hscan⟩
  · rw [hscan, registrations, ← hstops, hfind]; rfl
  · rw [hscan, registrations, ← hstops, hnone]; rfl

theorem isTopicKnown_eq (hopen : s.blocked = false) (hin : s.notInClientRegistry = false)
    {i : UInt16} (hi : i ≠ 0) :
    (s.isTopicKnown i).1 =
      (s.registrations.find? (EntryRegistration.hasTopicId i)).map fun e =>
      decide (e.getNat EntryRegistration.known ≠ 0) := by
  unfold isTopicKnown
  rw [if_neg (by simp [hopen]), if_neg (by simp [hin]), if_neg hi]
  dsimp only
  generalize hsc : Scanner.mk EntryRegistration.isEmpty (EntryRegistration.hasTopicId i) true
    (2 ^ 16) = sc
  have hstops : sc.stops = EntryRegistration.hasTopicId i := by
    subst hsc
    funext e
    have hne : i.toNat ≠ 0 := fun h => hi (UInt16.toNat_inj.1 h)
    -- a free slot has id 0, which is not looked for
    by_cases hid : e.getNat EntryRegistration.topicId = i.toNat
    · simp [Scanner.stops, EntryRegistration.isEmpty, hid, hne]
    · simp [Scanner.stops, EntryRegistration.hasTopicId, hid]
  rcases sc.scan_find? (by omega) (by subst hsc; exact Nat.two_pow_pos 16)
    (s.fs.contents (s.clientFile .registration)) with
    ⟨k, e, hfind, hscan⟩ | ⟨hnone, k, hole, b, hscan⟩
  · rw [hscan, registrations, ← hstops, hfind]; rfl
  · rw [hscan, registrations, ← hstops, hnone]; rfl

/-! ### Registering in a table of names -/

theorem addClientRegistration_refused (hopen : s.blocked = false)
    (hin : s.notInClientRegistry = false) (ht : ¬ t.length ≤ 255) :
    s.addClientRegistration p t = (none, { s with error := true }) := by
  unfold addClientRegistration
  rw [if_neg (by simp [hopen]), if_neg (by simp [hin]),
    if_pos (by simpa [MAXIMUM_TOPIC_NAME_LENGTH] using ht)]

/-- Registering a name in a table of names: its number is returned, and the table grows unless the
name was found. -/
theorem addClientRegistration_nameTable (hopen : s.blocked = false)
    (hin : s.notInClientRegistry = false) (hl : Nameable l)
    (hfile : s.fs.contents (s.clientFile .registration) = encode (nameTable l))
    (ht : t.length ≤ 255) :
    s.addClientRegistration p t = (some (number shortName l t),
      if shortName t = true ∧ t ∈ l then s
      else
      { s with fs := s.fs.set (s.clientFile .registration) (encode (nameTable (l ++ [t]))) }) := by
  have hroom := hl.room
  have hlen : (nameTable l).length + 1 < (registrationScanner t).counterMod := by
    rw [length_nameTable]
    exact Nat.succ_lt_succ hroom
  unfold addClientRegistration
  rw [if_neg (by simp [hopen]), if_neg (by simp [hin]),
    if_neg (by simpa [MAXIMUM_TOPIC_NAME_LENGTH] using ht)]
  dsimp only
  rw [hfile]
  have hhit : ∀ e ∈ nameTable l, (registrationScanner t).stops e = e.hasName t := by
    intro e he
    simp [Scanner.stops, registrationScanner, hl.isEmpty_eq_false he]
  rcases (registrationScanner t).scan_cases (by omega) (nameTable l) hlen with
    ⟨i, e, he, hstop, hfirst, hscan⟩ | ⟨hno, hscan⟩
  · -- the first record with the name is at the name's first place
    rw [hhit e (List.mem_of_getElem? he)] at hstop
    obtain ⟨hshort, hi⟩ := (hl.hasName_iff he).1 hstop
    have hbefore : ∀ j < i, l[j]? ≠ some t := by
      intro j hj ht
      have hj' : (nameTable l)[j]? = some (.make (j + 1) t) := getElem?_nameTable.2 ⟨t, ht, rfl⟩
      have hnot := hfirst j _ hj hj'
      rw [hhit _ (List.mem_of_getElem? hj'), (hl.hasName_iff hj').2 ⟨hshort, ht⟩] at hnot
      cases hnot
    obtain ⟨u, -, hid, -, -⟩ := hl.fields he
    rw [hscan, number_of_first hshort hi hbefore, if_pos ⟨hshort, List.mem_of_getElem? hi⟩, ← hid]
  · -- the record is appended: there is no free slot
    have hnew : ¬ (shortName t = true ∧ t ∈ l) := by
      rintro ⟨hshort, hmem⟩
      obtain ⟨i, hi⟩ := List.getElem?_of_mem hmem
      have hi' : (nameTable l)[i]? = some (.make (i + 1) t) := getElem?_nameTable.2 ⟨t, hi, rfl⟩
      have hnot := hno i _ hi'
      rw [hhit _ (List.mem_of_getElem? hi'), (hl.hasName_iff hi').2 ⟨hshort, hi⟩] at hnot
      cases hnot
    have hfull : lastIdx? (registrationScanner t).hole (nameTable l) = none :=
      lastIdx?_eq_none.2 fun e he => hl.isEmpty_eq_false he
    have hpos : sizeMul (firstEmptySpace (l.length + 1) none) 258 = (nameTable l).length * 258 := by
      rw [firstEmptySpace_succ, Option.getD_none, sizeMul_natCast (by omega), length_nameTable]
    have hmake : (((Record.zero 258).putNat EntryRegistration.topicId (l.length + 1)).strcpy
        EntryRegistration.topicName t.bytes).putNat EntryRegistration.known true.toNat =
          EntryRegistration.make (l.length + 1) t := rfl
    rw [hscan, number_of_notMem hnew, if_neg hnew, hfull, length_nameTable]
    dsimp only
    rw [hmake, EntryRegistration.getNat_topicId_make (by omega), hpos,
      Files.writeAt_encode p _ hfile (le_refl _),
      SlotTable.place, if_neg (lt_irrefl _), nameTable_snoc]

/-- The names that are answered are the short ones, each for the number of its place. -/
theorem getTopicName_nameTable (hopen : s.blocked = false) (hl : Nameable l)
    (hregs : s.registrations = nameTable l) {i : UInt16} {n : List UInt8} :
    s.getTopicName i = some n ↔ ∃ k t, i.toNat = k + 1 ∧ l[k]? = some t ∧ shortName t = true ∧
      t.bytes = n := by
  by_cases hi : i = 0
  · subst hi
    have hnone : s.getTopicName 0 = none := by simp [getTopicName]
    rw [hnone]
    refine iff_of_false (Option.some_ne_none n).symm ?_
    rintro ⟨k, -, hk, -⟩
    exact Nat.succ_ne_zero k hk.symm
  · rw [getTopicName_eq hopen hi, hregs, Option.map_eq_some_iff]
    constructor
    · rintro ⟨e, he, rfl⟩
      obtain ⟨k, t, hk, ht, hshort, rfl⟩ := hl.find?_hasTopicId.1 he
      exact ⟨k, t, hk, ht, hshort,
        (EntryRegistration.text_topicName_make (hl.fits t (List.mem_of_getElem? ht))).symm⟩
    · rintro ⟨k, t, hk, ht, hshort, rfl⟩
      exact ⟨_, hl.find?_hasTopicId.2 ⟨k, t, hk, ht, hshort, rfl⟩,
        EntryRegistration.text_topicName_make (hl.fits t (List.mem_of_getElem? ht))⟩

end Persistent

/-! ### The calls for a registration file -/

/-- The names that registration calls were made with. -/
def namesOf (h : List (Op × Reply)) : List CString :=
  h.filterMap fun c => match c.1 with
    | .addClientRegistration t => some t
    | _ => none

/-- The ids that were issued, each with the name it was issued for. -/
def issued (h : List (Op × Reply)) : List (CString × Nat) :=
  h.filterMap fun c => match c with
    | (.addClientRegistration t, .topicId (some i)) => some (t, i)
    | _ => none

/-- The names in the order of their records; one that does not fit is refused. -/
def tableOf (h : List (Op × Reply)) : List CString :=
  registerAll shortName ((namesOf h).filter fun t => t.length ≤ 255)

/-- An id was issued for a name exactly when the name stands at its place. -/
def Numbered (h : List (Op × Reply)) : Prop :=
  ∀ t i, (t, i) ∈ issued h ↔ ∃ k, i = k + 1 ∧ (tableOf h)[k]? = some t

variable {h : List (Op × Reply)}

theorem mem_tableOf : t ∈ tableOf h ↔ t ∈ namesOf h ∧ t.length ≤ 255 := by
  rw [tableOf, mem_registerAll, List.mem_filter, decide_eq_true_iff]

theorem nameable_tableOf (hroom : (tableOf h).length < 65535) : Nameable (tableOf h) :=
  ⟨fun _ ht => (mem_tableOf.1 ht).2, hroom⟩

theorem prefix_tableOf (h h' : List (Op × Reply)) : tableOf h <+: tableOf (h ++ h') := by
  rw [tableOf, tableOf, namesOf, namesOf, List.filterMap_append, List.filter_append]
  exact prefix_registerAll

theorem tableOf_snoc (ht : t.length ≤ 255) (r : Reply) :
    tableOf (h ++ [(.addClientRegistration t, r)]) = register shortName (tableOf h) t := by
  rw [tableOf, namesOf, List.filterMap_append, List.filter_append, ← namesOf]
  simp [ht, registerAll_snoc, tableOf]

theorem tableOf_refused (ht : ¬ t.length ≤ 255) (r : Reply) :
    tableOf (h ++ [(.addClientRegistration t, r)]) = tableOf h := by
  rw [tableOf, namesOf, List.filterMap_append, List.filter_append, ← namesOf]
  simp [ht, tableOf]

theorem Numbered.snoc (hn : Numbered h) (ht : t.length ≤ 255) :
    Numbered
      (h ++ [(.addClientRegistration t, .topicId (some (number shortName (tableOf h) t)))]) := by
  intro u i
  rw [tableOf_snoc ht, issued, List.filterMap_append, ← issued, List.mem_append, hn]
  simp only [List.filterMap_cons, List.filterMap_nil, List.mem_singleton, Prod.mk.injEq,
    getElem?_register_eq_some]
  constructor
  · rintro (⟨k, rfl, hk⟩ | ⟨rfl, rfl⟩)
    · exact ⟨k, rfl, .inl hk⟩
    · obtain ⟨k, hk, -⟩ := getElem?_register shortName (tableOf h) u
      exact ⟨k, hk, .inr ⟨hk, rfl⟩⟩
  · rintro ⟨k, rfl, hk | ⟨hk, rfl⟩⟩
    · exact .inl ⟨k, rfl, hk⟩
    · exact .inr ⟨rfl, hk.symm⟩

theorem Numbered.refused (hn : Numbered h) (ht : ¬ t.length ≤ 255) :
    Numbered (h ++ [(.addClientRegistration t, .topicId none)]) := by
  intro u i
  rw [tableOf_refused ht, issued, List.filterMap_append, ← issued]
  simpa using hn u i

theorem Numbered.eq_iff (hn : Numbered h) (hnodup : (tableOf h).Nodup) {u : CString} {i j : Nat}
    (hi : (t, i) ∈ issued h) (hj : (u, j) ∈ issued h) : t = u ↔ i = j := by
  obtain ⟨k, rfl, hk⟩ := (hn t i).1 hi
  obtain ⟨m, rfl, hm⟩ := (hn u j).1 hj
  constructor
  · rintro rfl
    rw [(List.getElem?_inj (List.getElem?_eq_some_iff.1 hk).1 hnodup).1 (hk.trans hm.symm)]
  · intro hkm
    obtain rfl : k = m := by omega
    rw [hk] at hm
    exact Option.some.inj hm

/-- What a registration call does to the file and to the numbering. -/
theorem registrations_step {h : List (Op × Reply)} (hopen : s.blocked = false)
    (hin : s.notInClientRegistry = false) (hroom : (tableOf h).length < 65535) (hn : Numbered h)
    (hfile : s.fs.contents (s.clientFile .registration) = encode (nameTable (tableOf h)))
    (t : CString) :
    let h' := h ++ [(.addClientRegistration t, .topicId (s.addClientRegistration p t).1)]
    Numbered h' ∧
      (s.addClientRegistration p t).2.fs.contents (s.clientFile .registration) =
        encode (nameTable (tableOf h')) := by
  intro h'
  by_cases ht : t.length ≤ 255
  · have heq := addClientRegistration_nameTable (p := p) hopen hin (nameable_tableOf hroom) hfile ht
    have hh :
        h' = h ++
          [(.addClientRegistration t, .topicId (some (number shortName (tableOf h) t)))] := by
      show h ++ _ = _
      rw [heq]
    rw [hh, heq]
    refine ⟨hn.snoc ht, ?_⟩
    rw [tableOf_snoc ht]
    by_cases hmem : shortName t = true ∧ t ∈ tableOf h
    · rw [if_pos hmem, register_of_mem hmem.1 hmem.2]
      exact hfile
    · rw [if_neg hmem, register_of_notMem hmem]
      exact Files.contents_set_self _
  · have heq := addClientRegistration_refused (p := p) hopen hin ht
    have hh : h' = h ++ [(.addClientRegistration t, .topicId none)] := by
      show h ++ _ = _
      rw [heq]
    rw [hh, heq]
    exact ⟨hn.refused ht, by rw [tableOf_refused ht]; exact hfile⟩

/-- At every moment the registration file of a client is the table of the names registered
so far. -/
theorem Joined.registrations {b : CString} {g : Option Tx} (hj : Joined p b g s) {ops : List Op}
    (ha : AllowedRun p g s ops) (hstay : Stays p b s ops)
    (hroom : (tableOf (calls p b .registration s ops)).length < 65535) :
    Numbered (calls p b .registration s ops) ∧
      (s.run p ops).fs.contents (s.clientFile .registration) =
        encode (nameTable (tableOf (calls p b .registration s ops))) := by
  refine hj.file_run (Q := fun h c => (tableOf h).length < 65535 → Numbered h ∧
    c = encode (nameTable (tableOf h)))
    (fun _ => ⟨fun t i => by simp [issued, tableOf, namesOf, registerAll], rfl⟩) ?_ ha hstay hroom
  intro s op h hid hop hQ hroom
  obtain ⟨hopen, hin, -⟩ := open_of_getClientId hid
  cases op <;> simp only [Op.ending, Option.some.injEq, reduceCtorEq] at hop
  case addClientRegistration t =>
    have hroom' : (tableOf h).length < 65535 := (prefix_tableOf h _).length_le.trans_lt hroom
    obtain ⟨hn, hfile⟩ := hQ hroom'
    exact registrations_step hopen hin hroom' hn hfile t

/-! ### The numbering over a client's life -/

variable {b : CString} {g : Option Tx} {ops : List Op}

theorem Joined.registrations_of_open (hj : Joined p b g s) (ha : AllowedRun p g s ops)
    (hstay : Stays p b s ops) (hroom : (tableOf (calls p b .registration s ops)).length < 65535)
    (hid : (s.run p ops).getClientId = some b.bytes) :
    (s.run p ops).fs.contents ((s.run p ops).clientFile .registration) =
      encode (nameTable (tableOf (calls p b .registration s ops))) := by
  rw [hj.clientFile ha hstay hid]
  exact (hj.registrations ha hstay hroom).2

/-- Distinct names get distinct ids, a name that is registered again gets the id it had and nothing
changes, records are never modified, and an id names exactly what it was issued for. -/
theorem registration_is_numbering (hj : Joined p b g s) (ha : AllowedRun p g s ops)
    (hstay : Stays p b s ops) (hlen : ∀ t ∈ namesOf (calls p b .registration s ops), t.length < 255)
    (hcount : (namesOf (calls p b .registration s ops)).toFinset.card < 65535) :
    let h := calls p b .registration s ops
    let s' := s.run p ops
    (∀ t ∈ namesOf h, ∃ i, (t, i) ∈ issued h) ∧
    (∀ t i, (t, i) ∈ issued h → i ≠ 0) ∧
    (∀ t i u j, (t, i) ∈ issued h → (u, j) ∈ issued h → (t = u ↔ i = j)) ∧
    (∀ ops₁ ops₂, ops = ops₁ ++ ops₂ →
      (s.run p ops₁).fs.contents (s.clientFile .registration) <+:
        s'.fs.contents (s.clientFile .registration)) ∧
    (s'.getClientId = some b.bytes →
      (∀ t i, (t, i) ∈ issued h → s'.addClientRegistration p t = (some i, s')) ∧
      ∀ (i : UInt16) n, s'.getTopicName i = some n ↔
        ∃ t, (t, i.toNat) ∈ issued h ∧ t.bytes = n) := by
  intro h s'
  have hnames : (namesOf h).filter (fun t => t.length ≤ 255) = namesOf h :=
    List.filter_eq_self.2 fun t ht => decide_eq_true (hlen t ht).le
  have hshort : ∀ t ∈ namesOf h, shortName t = true := fun t ht => decide_eq_true (hlen t ht)
  have hroom : (tableOf h).length < 65535 := by
    rw [tableOf, hnames, length_registerAll hshort]
    exact hcount
  have hnodup : (tableOf h).Nodup := by
    rw [tableOf, hnames]
    exact nodup_registerAll hshort
  have hmem : ∀ {k : Nat} {t : CString}, (tableOf h)[k]? = some t → shortName t = true :=
    fun ht => hshort _ (mem_tableOf.1 (List.mem_of_getElem? ht)).1
  obtain ⟨hn, hfile⟩ := hj.registrations ha hstay hroom
  refine ⟨fun t ht => ?_, fun t i hi => ?_, fun t i u j hi hj => hn.eq_iff hnodup hi hj,
    fun ops₁ ops₂ hops => ?_,
    fun hid => ⟨?_, ?_⟩⟩
  · obtain ⟨k, hk⟩ := List.getElem?_of_mem (mem_tableOf.2 ⟨ht, (hlen t ht).le⟩)
    exact ⟨k + 1, (hn t (k + 1)).2 ⟨k, rfl, hk⟩⟩
  · obtain ⟨k, rfl, -⟩ := (hn t i).1 hi
    exact Nat.succ_ne_zero k
  · -- the table of the first part is a prefix
    subst hops
    have hpre : tableOf (calls p b .registration s ops₁) <+: tableOf h := by
      show _ <+: tableOf (calls p b .registration s (ops₁ ++ ops₂))
      rw [calls_append]
      exact prefix_tableOf _ _
    rw [(hj.registrations ha.left hstay.left (hpre.length_le.trans_lt hroom)).2, hfile]
    obtain ⟨rest, hrest⟩ := hpre
    rw [← hrest, nameTable, nameTable, List.mapIdx_append, encode_append]
    exact List.prefix_append _ _
  · intro t i hi
    obtain ⟨hopen, hin, -⟩ := open_of_getClientId hid
    obtain ⟨k, rfl, hk⟩ := (hn t i).1 hi
    have hfirst : ∀ j < k, (tableOf h)[j]? ≠ some t := by
      intro j hj ht
      have := (List.getElem?_inj (List.getElem?_eq_some_iff.1 hk).1 hnodup).1 (hk.trans ht.symm)
      omega
    have ht := List.mem_of_getElem? hk
    rw [addClientRegistration_nameTable hopen hin (nameable_tableOf hroom)
      (hj.registrations_of_open ha hstay hroom hid)
      (mem_tableOf.1 ht).2, number_of_first (hmem hk) hk hfirst, if_pos ⟨hmem hk, ht⟩]
  · intro i n
    obtain ⟨hopen, -, -⟩ := open_of_getClientId hid
    have hregs : s'.registrations = nameTable (tableOf h) := by
      rw [Persistent.registrations, hj.registrations_of_open ha hstay hroom hid,
        whole_encode (by omega)]
    rw [getTopicName_nameTable hopen (nameable_tableOf hroom) hregs]
    constructor
    · rintro ⟨k, t, hk, ht, -, rfl⟩
      exact ⟨t, (hn t _).2 ⟨k, hk, ht⟩, rfl⟩
    · rintro ⟨t, ht, rfl⟩
      obtain ⟨k, hk, hget⟩ := (hn t _).1 ht
      exact ⟨k, t, hk, hget, hmem hget, rfl⟩

theorem registration_is_numbering_reset :
    let ops : List Op :=
      [.addClientRegistration device1, .addClientRegistration device2, .applyTransaction,
        .startClientTransaction device1, .resetClient device1 address1 60,
        .addClientRegistration device1]
    let s := firstClient.run posix ops
    issued (calls posix device1 .registration firstClient ops) =
      [(device1, 1), (device2, 2), (device1, 1)] ∧
      s.getTopicName 2 = some device2.bytes ∧ s.getTopicName 3 = none := by
  intro ops s
  have hissued : issued (calls posix device1 .registration firstClient ops) =
      [(device1, 1), (device2, 2), (device1, 1)] := by decide +kernel
  have ha : AllowedRun posix (some ⟨some device1.bytes, true⟩) firstClient ops := by decide +kernel
  obtain ⟨-, -, -, -, hopen⟩ := registration_is_numbering firstClient_joined ha (by decide +kernel)
    (by decide +kernel) (by decide +kernel)
  obtain ⟨-, hnames⟩ := hopen (by decide +kernel)
  rw [hissued] at hnames
  refine ⟨hissued, (hnames 2 _).2 ⟨device2, by simp, rfl⟩,
    Option.eq_none_iff_forall_ne_some.2 fun n hn => ?_⟩
  obtain ⟨t, ht, -⟩ := (hnames 3 n).1 hn
  simp at ht

/-! ### Known topics -/

/-- The query has an answer, it tells whether the id was issued, and `get_topic_name` agrees. -/
def KnowsTopic (h : List (Op × Reply)) (i : UInt16) (s : Persistent) : Prop :=
  ∃ v, (s.isTopicKnown i).1 = some v ∧ (v = true ↔ ∃ t, (t, i.toNat) ∈ issued h) ∧
    (v = true ↔ s.getTopicName i ≠ none)

theorem knowsTopic_iff_find (hopen : s.blocked = false) (hin : s.notInClientRegistry = false)
    {i : UInt16} (hi : i ≠ 0) :
    KnowsTopic h i s ↔ (∃ t, (t, i.toNat) ∈ issued h) ∧
      ∃ e, s.registrations.find? (EntryRegistration.hasTopicId i) = some e ∧
      e.getNat EntryRegistration.known ≠ 0 := by
  rw [KnowsTopic, isTopicKnown_eq hopen hin hi, getTopicName_eq hopen hi]
  cases hfind : s.registrations.find? (EntryRegistration.hasTopicId i) with
  | none => simp
  | some e =>
    simp only [Option.map_some, Option.some.injEq, exists_eq_left', ne_eq, reduceCtorEq,
      not_false_eq_true, iff_true]
    constructor
    · rintro ⟨hissued, hknown⟩
      exact ⟨hissued.1 hknown, of_decide_eq_true hknown⟩
    · rintro ⟨hissued, hknown⟩
      exact ⟨⟨fun _ => hissued, fun _ => decide_eq_true hknown⟩, decide_eq_true hknown⟩

/-- Only an id that was issued has an answer. As long as the file has fewer than 65535 records this
is every id that was issued for a name the lookups recognise. -/
theorem knows_topic_iff (hj : Joined p b g s) (ha : AllowedRun p g s ops) (hstay : Stays p b s ops)
    (hid : (s.run p ops).getClientId = some b.bytes) {i : UInt16} (hi : i ≠ 0) :
    (KnowsTopic (calls p b .registration s ops) i (s.run p ops) ↔
      (∃ t, (t, i.toNat) ∈ issued (calls p b .registration s ops)) ∧
        ∃ e, (s.run p ops).registrations.find? (EntryRegistration.hasTopicId i) = some e ∧
          e.getNat EntryRegistration.known ≠ 0) ∧
    ((tableOf (calls p b .registration s ops)).length < 65535 →
      (KnowsTopic (calls p b .registration s ops) i (s.run p ops) ↔
        ∃ t, (t, i.toNat) ∈ issued (calls p b .registration s ops) ∧ t.length < 255)) := by
  obtain ⟨hopen, hin, -⟩ := open_of_getClientId hid
  have hiff := knowsTopic_iff_find (h := calls p b .registration s ops) hopen hin hi
  refine ⟨hiff, fun hroom => hiff.trans ?_⟩
  have hl := nameable_tableOf hroom
  obtain ⟨hn, -⟩ := hj.registrations ha hstay hroom
  rw [Persistent.registrations, hj.registrations_of_open ha hstay hroom hid,
    whole_encode (by omega)]
  constructor
  · rintro ⟨-, e, he, -⟩
    obtain ⟨k, t, hk, ht, hshort, -⟩ := hl.find?_hasTopicId.1 he
    exact ⟨t, (hn t _).2 ⟨k, hk, ht⟩, of_decide_eq_true hshort⟩
  · rintro ⟨t, ht, hlt⟩
    obtain ⟨k, hk, hget⟩ := (hn t _).1 ht
    refine ⟨⟨t, ht⟩, _, hl.find?_hasTopicId.2 ⟨k, t, hk, hget, decide_eq_true hlt, rfl⟩, ?_⟩
    rw [EntryRegistration.getNat_known_make]
    exact Nat.one_ne_zero

theorem knows_topic_iff_first :
    KnowsTopic (calls posix device1 .registration firstClient [.addClientRegistration device2]) 1
      (firstClient.run posix [.addClientRegistration device2]) := by
  have ha : AllowedRun posix (some ⟨some device1.bytes, true⟩) firstClient
      [.addClientRegistration device2] := by
    decide +kernel
  obtain ⟨-, hiff⟩ := knows_topic_iff firstClient_joined ha (by decide +kernel) (by decide +kernel)
    (show (1 : UInt16) ≠ 0 by decide)
  exact (hiff (by decide +kernel)).2 ⟨device2, by decide +kernel, by decide⟩

/-- An id that was not issued has no answer. -/
theorem unissued_topic_unanswered :
    Joined posix device1 (some ⟨some device1.bytes, true⟩) firstClient ∧
      firstClient.getClientId = some device1.bytes ∧ (firstClient.isTopicKnown 1).1 = none ∧
      ¬ KnowsTopic (calls posix device1 .registration firstClient []) 1 firstClient := by
  have hnone : (firstClient.isTopicKnown 1).1 = none := by decide +kernel
  refine ⟨firstClient_joined, by decide +kernel, hnone, ?_⟩
  rintro ⟨v, hv, -⟩
  rw [hnone] at hv; cases hv

end SnGateway
