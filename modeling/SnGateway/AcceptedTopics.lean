import SnGateway.Registrations

/-!
# Registrations that cannot be used

A name of exactly 255 characters passes the length check of `add_client_registration`, and no lookup
ever finds it (`accepted_usable_iff`). The other names are found under the id they get, in any file,
unless the scan counter has come round to 0.
-/

namespace SnGateway
open RecordStore Persistent

variable {p : Platform} {s : Persistent} {t : CString}

namespace Persistent

/-- The scan counter behind the last record: the id of the next one. -/
def nextTopicId (s : Persistent) : Nat :=
  (s.registrations.length + if (s.fs.contents (s.clientFile .registration)).length % 258 = 0 then 1
    else 0) % 2 ^ 16

theorem registrationScanner_stops :
    (registrationScanner t).stops = EntryRegistration.hasName t := by
  funext e
  by_cases hid : e.getNat EntryRegistration.topicId = 0
  · simp [Scanner.stops, registrationScanner, EntryRegistration.hasName, hid]
  · simp [Scanner.stops, registrationScanner, EntryRegistration.isEmpty, hid]

/-- A name that is found keeps its id and nothing changes. -/
theorem addClientRegistration_found (hopen : s.blocked = false)
    (hin : s.notInClientRegistry = false) (ht : t.length ≤ 255) {e : EntryRegistration}
    (he : s.registrations.find? (EntryRegistration.hasName t) = some e) :
    s.addClientRegistration p t = (some (e.getNat EntryRegistration.topicId), s) := by
  unfold addClientRegistration
  rw [if_neg (by simp [hopen]), if_neg (by simp [hin]),
    if_neg (by simpa [MAXIMUM_TOPIC_NAME_LENGTH] using ht)]
  dsimp only
  rcases (registrationScanner t).scan_find? (by omega) (Nat.two_pow_pos 16)
    (s.fs.contents (s.clientFile .registration)) with ⟨k, e', hfind, hscan⟩ | ⟨hnone, -⟩
  · rw [registrationScanner_stops, ← registrations, he] at hfind
    cases hfind
    rw [hscan]
  · rw [registrationScanner_stops, ← registrations, he] at hnone
    cases hnone

/-- A name that is not found gets the next id. Unless that is 0, it is written over a whole record
or behind the last one. -/
theorem addClientRegistration_new (hopen : s.blocked = false) (hin : s.notInClientRegistry = false)
    (ht : t.length ≤ 255) (hnew : s.registrations.find? (EntryRegistration.hasName t) = none) :
    ∃ fs', s.addClientRegistration p t = (some s.nextTopicId, { s with fs := fs' }) ∧
      (s.nextTopicId ≠ 0 → ∃ (k : Nat) (e : EntryRegistration), k ≤ s.registrations.length ∧
        ({ s with fs := fs' } : Persistent).registrations = SlotTable.place s.registrations k e ∧
        e.getNat EntryRegistration.topicId = s.nextTopicId ∧
        e.text EntryRegistration.topicName = t.bytes) := by
  have hlt : s.nextTopicId < 2 ^ 16 := Nat.mod_lt _ (Nat.two_pow_pos 16)
  have hno : ∀ e ∈ whole 258 (s.fs.contents (s.clientFile .registration)),
      (registrationScanner t).stops e = false := by
    intro e he
    rw [registrationScanner_stops]
    simpa using List.find?_eq_none.1 hnew e he
  obtain ⟨buffer, hscan⟩ :=
    (registrationScanner t).scan_breakOnShort (by omega) rfl (Nat.two_pow_pos 16) _ hno
  rw [← registrations, show (registrationScanner t).counterMod = 2 ^ 16 from rfl, ← nextTopicId]
    at hscan
  generalize hhole : (lastIdx? (registrationScanner t).hole s.registrations).map
    (fun k => k % 2 ^ 16) = hole at hscan
  -- the fields of the record that is written
  have hdisj : EntryRegistration.topicId.off + EntryRegistration.topicId.len ≤
      EntryRegistration.topicName.off := by
    decide
  obtain ⟨e, he⟩ : ∃ e : EntryRegistration,
    e = ((buffer.putNat EntryRegistration.topicId s.nextTopicId).strcpy
      EntryRegistration.topicName t.bytes).putNat EntryRegistration.known true.toNat := ⟨_, rfl⟩
  have hid : e.getNat EntryRegistration.topicId = s.nextTopicId := by
    rw [he, Record.getNat_putNat_of_disjoint (by decide), Record.getNat, Record.strcpy,
      Record.get_putAt_of_disjoint (.inl hdisj), ← Record.getNat,
      Record.getNat_putNat_self _ (by decide)]
    exact Nat.mod_eq_of_lt hlt
  have htext : e.text EntryRegistration.topicName = t.bytes := by
    rw [he, Record.text_putNat_of_disjoint (by decide)]
    exact Record.text_strcpy_le t.noNul ht (by decide)
  refine ⟨s.fs.writeAt p (s.clientFile .registration)
    (sizeMul (firstEmptySpace s.nextTopicId hole) 258) e.bytes, ?_, ?_⟩
  · unfold addClientRegistration
    rw [if_neg (by simp [hopen]), if_neg (by simp [hin]),
      if_neg (by simpa [MAXIMUM_TOPIC_NAME_LENGTH] using ht)]
    dsimp only
    rw [hscan]
    dsimp only
    rw [← he, hid]
  · intro hne
    -- the slot is a whole record, or the one behind the last in a file of whole records
    obtain ⟨k, hk, hk16, hslot⟩ : ∃ k : Nat, firstEmptySpace s.nextTopicId hole = k ∧ k < 2 ^ 16 ∧
        (k < s.registrations.length ∨
          k = s.registrations.length ∧ (s.fs.contents (s.clientFile .registration)).length % 258 =
            0) := by
      cases hl : lastIdx? (registrationScanner t).hole s.registrations with
      | some i =>
        obtain ⟨hi, -⟩ := lastIdx?_eq_some hl
        rw [hl] at hhole
        subst hhole
        exact ⟨i % 2 ^ 16, rfl, Nat.mod_lt _ (Nat.two_pow_pos 16),
          .inl ((Nat.mod_le _ _).trans_lt hi)⟩
      | none =>
        rw [hl] at hhole
        subst hhole
        refine ⟨s.nextTopicId - 1, by simp only [firstEmptySpace, Option.map_none]; omega, by omega,
          ?_⟩
        have hle := Nat.mod_le (s.registrations.length +
          if (s.fs.contents (s.clientFile .registration)).length % 258 = 0 then 1 else 0) (2 ^ 16)
        rw [← nextTopicId] at hle
        split at hle <;> omega
    have hkle : k ≤ s.registrations.length := by rcases hslot with h | ⟨h, -⟩ <;> omega
    have hpos : k * 258 ≤ (s.fs.contents (s.clientFile .registration)).length :=
      (Nat.mul_le_mul_right 258 hkle).trans (length_whole_mul_le (by omega) _)
    refine ⟨k, e, hkle, ?_, hid, htext⟩
    show whole 258 (Files.contents _ (s.clientFile .registration)) = _
    rw [Files.writeAt, Files.contents_set_self, hk, sizeMul_natCast (by omega),
      p.seek_of_le true hpos]
    exact whole_overwrite_place (by omega) e hslot

/-- The id of a record that some name finds finds a name. -/
theorem getTopicName_of_hasName (hopen : s.blocked = false) {e : EntryRegistration}
    (he : e ∈ s.registrations) (hname : e.hasName t = true) :
    s.getTopicName (UInt16.ofNat (e.getNat EntryRegistration.topicId)) ≠ none := by
  obtain ⟨hid, hlen, -⟩ := of_decide_eq_true hname
  have hlt : e.getNat EntryRegistration.topicId < 2 ^ 16 :=
    Record.getNat_lt e EntryRegistration.topicId (by decide)
  have hnat : (UInt16.ofNat (e.getNat EntryRegistration.topicId)).toNat =
    e.getNat EntryRegistration.topicId :=
    UInt16.toNat_ofNat_of_lt' hlt
  have hne : UInt16.ofNat (e.getNat EntryRegistration.topicId) ≠ 0 := by
    intro h0
    rw [h0] at hnat
    exact hid hnat.symm
  rw [getTopicName_eq hopen hne, Ne, Option.map_eq_none_iff, List.find?_eq_none]
  intro hnone
  refine hnone e he ?_
  rw [EntryRegistration.hasTopicId, hnat]
  exact decide_eq_true ⟨rfl, hlen⟩

end Persistent

/-- An id that is returned without error can be used: the name fits its field with a terminator, the
id finds a name, and the name finds the id. Names that cannot be stored are rejected. -/
def Usable (p : Platform) (t : CString) (s : Persistent) : Prop :=
  let r := s.addClientRegistration p t
  (∀ i, r.1 = some i → r.2.error = false →
    t.length < EntryRegistration.topicName.len ∧ r.2.getTopicName (UInt16.ofNat i) ≠ none ∧
      (r.2.addClientRegistration p t).1 = some i) ∧
  (EntryRegistration.topicName.len ≤ t.length → r.1 = none ∧ r.2.error = true ∧ r.2.fs = s.fs)

theorem usable_of_found (hopen : s.blocked = false) (hin : s.notInClientRegistry = false)
    (ht : t.length < 255) {e : EntryRegistration}
    (he : s.registrations.find? (EntryRegistration.hasName t) = some e) : Usable p t s := by
  have hadd := addClientRegistration_found (p := p) hopen hin ht.le he
  unfold Usable
  rw [hadd]
  refine ⟨?_, fun hge => absurd ht (Nat.not_lt.2 hge)⟩
  rintro i ⟨⟩ -
  exact ⟨ht, getTopicName_of_hasName hopen (List.mem_of_find?_eq_some he)
    (List.find?_some he), by rw [hadd]⟩

theorem usable_of_new (hopen : s.blocked = false) (hin : s.notInClientRegistry = false)
    (ht : t.length < 255) (hnew : s.registrations.find? (EntryRegistration.hasName t) = none) :
    Usable p t s ↔ s.nextTopicId ≠ 0 := by
  obtain ⟨fs', hadd, hplace⟩ := addClientRegistration_new (p := p) hopen hin ht.le hnew
  unfold Usable
  rw [hadd]
  constructor
  · rintro ⟨h, -⟩ h0
    obtain ⟨-, hname, -⟩ := h _ rfl (error_of_open hopen)
    rw [h0] at hname
    exact hname (by simp [getTopicName])
  · intro hne
    refine ⟨?_, fun hge => absurd ht (Nat.not_lt.2 hge)⟩
    rintro i ⟨⟩ -
    obtain ⟨k, e, hk, hregs, hid, htext⟩ := hplace hne
    have hopen' : ({ s with fs := fs' } : Persistent).blocked = false := hopen
    have hmem : e ∈ ({ s with fs := fs' } : Persistent).registrations := by
      rw [hregs]
      exact List.mem_of_getElem? (i := k) (by rw [SlotTable.getElem?_place hk, if_pos rfl])
    have hlen : (e.text EntryRegistration.topicName).length < MAXIMUM_TOPIC_NAME_LENGTH := by
      rw [htext]
      exact ht
    have hname : e.hasName t = true := decide_eq_true ⟨by rw [hid]; exact hne, hlen, htext⟩
    refine ⟨ht, ?_, ?_⟩
    · rw [← hid]
      exact getTopicName_of_hasName hopen' hmem hname
    · -- the record that was written is the only one with the name
      obtain ⟨e', hfind⟩ : ∃ e', ({ s with fs := fs' } : Persistent).registrations.find?
        (EntryRegistration.hasName t) =
          some e' := by
        rw [← Option.isSome_iff_exists, List.find?_isSome]
        exact ⟨e, hmem, hname⟩
      have hsame : e' = e := by
        obtain ⟨j, hj⟩ := List.getElem?_of_mem (List.mem_of_find?_eq_some hfind)
        rw [hregs, SlotTable.getElem?_place hk] at hj
        split at hj
        · exact (Option.some.inj hj).symm
        · exact absurd (List.find?_some hfind)
            (List.find?_eq_none.1 hnew e' (List.mem_of_getElem? hj))
      subst hsame
      rw [addClientRegistration_found hopen' hin ht.le hfind, hid]

/-- An id can be used unless the name has 255 characters, or it is new and the counter came round to
0. -/
theorem accepted_usable_iff (hopen : s.blocked = false) (hin : s.notInClientRegistry = false) :
    Usable p t s ↔ t.length ≠ 255 ∧
      (t.length < 255 → (∃ e ∈ s.registrations, EntryRegistration.hasName t e = true) ∨
        s.nextTopicId ≠ 0) := by
  rcases Nat.lt_trichotomy t.length 255 with hlt | heq | hgt
  · cases hfind : s.registrations.find? (EntryRegistration.hasName t) with
    | some e =>
      have hmem : ∃ e ∈ s.registrations, EntryRegistration.hasName t e = true :=
        ⟨e, List.mem_of_find?_eq_some hfind, List.find?_some hfind⟩
      exact ⟨fun _ => ⟨hlt.ne, fun _ => .inl hmem⟩, fun _ => usable_of_found hopen hin hlt hfind⟩
    | none =>
      have hno : ¬ ∃ e ∈ s.registrations, EntryRegistration.hasName t e = true := by
        rintro ⟨e, he, hname⟩
        exact List.find?_eq_none.1 hfind e he hname
      rw [usable_of_new hopen hin hlt hfind]
      exact ⟨fun hne => ⟨hlt.ne, fun _ => .inr hne⟩, fun h => (h.2 hlt).resolve_left hno⟩
  · -- no lookup recognises the name, and it is written all the same
    have hnew : s.registrations.find? (EntryRegistration.hasName t) = none := by
      refine List.find?_eq_none.2 fun e _ hname => ?_
      obtain ⟨-, hlen, hb⟩ := of_decide_eq_true hname
      rw [hb] at hlen
      exact hlen.ne heq
    obtain ⟨fs', hadd, -⟩ := addClientRegistration_new (p := p) hopen hin heq.le hnew
    unfold Usable
    rw [hadd]
    refine ⟨fun ⟨h, _⟩ => ?_, fun ⟨hne, _⟩ => absurd heq hne⟩
    exact absurd heq (h _ rfl (error_of_open hopen)).1.ne
  · have hadd := addClientRegistration_refused (p := p) hopen hin (Nat.not_le.2 hgt)
    unfold Usable
    rw [hadd]
    refine ⟨fun _ => ⟨hgt.ne', fun hlt => absurd hlt (Nat.not_lt.2 hgt.le)⟩, fun _ =>
      ⟨?_, fun _ => ⟨rfl, rfl, rfl⟩⟩⟩
    rintro i ⟨⟩

theorem accepted_usable_iff_first : Usable posix device2 firstClient :=
  (accepted_usable_iff (by decide +kernel) (by decide +kernel)).2
    ⟨by decide, fun _ => .inr (by decide +kernel)⟩

/-- A name of 255 characters. -/
def longName : CString :=
  ⟨List.replicate 255 97, fun h => absurd (List.eq_of_mem_replicate h) (by decide)⟩

/-- The name gets an id without an error; the id finds no name, and the name gets another id. -/
theorem accepted_name_unusable :
    (firstClient.addClientRegistration posix longName).1 = some 1 ∧
      (firstClient.addClientRegistration posix longName).2.error = false ∧
      (firstClient.addClientRegistration posix longName).2.getTopicName 1 = none ∧
      ((firstClient.addClientRegistration posix longName).2.addClientRegistration posix
        longName).1 = some 2 ∧
      ¬ Usable posix longName firstClient := by
  refine ⟨by decide +kernel, by decide +kernel, by decide +kernel, by decide +kernel, fun h => ?_⟩
  obtain ⟨hlen, -⟩ := h.1 1 (by decide +kernel) (by decide +kernel)
  exact absurd hlen (by decide +kernel)

end SnGateway
