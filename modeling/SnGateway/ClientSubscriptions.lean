import SnGateway.Effects

/-!
# The subscriptions of a client

A record of a `.SUB` file is all-zero or holds a subscription: a topic id that is not 0 and a topic
name of 1 to 254 characters (`SubTable`). The topics of the file are the names of its subscriptions;
this module says what the operations on subscriptions do to them.
-/

namespace SnGateway
open RecordStore

namespace EntrySubscription

def key (e : EntrySubscription) : Option (List UInt8) :=
  if e.getNat topicId = 0 then none else some (e.text topicName)

def topics (c : List UInt8) : List (List UInt8) := SlotTable.keys key (whole 258 c)

theorem topics_encode (rs : List EntrySubscription) :
    topics (encode rs) = SlotTable.keys key rs := by
  rw [topics, whole_encode (by omega)]

/-- The topic ids of the subscriptions of a file, in the order of their slots. -/
def topicIds (c : List UInt8) : List Nat :=
  ((whole 258 c).map fun e => e.getNat topicId).filter (· ≠ 0)

theorem topicIds_encode (rs : List EntrySubscription) :
    topicIds (encode rs) = (rs.map fun e => e.getNat topicId).filter (· ≠ 0) := by
  rw [topicIds, whole_encode (by omega)]

theorem length_keys {κ : Type} {f : EntrySubscription → Option κ}
    (hf : ∀ e, (f e).isSome = decide (e.getNat topicId ≠ 0)) (rs : List EntrySubscription) :
    (SlotTable.keys f rs).length = (topicIds (encode rs)).length := by
  rw [SlotTable.keys, List.length_filterMap_eq_countP,
    topicIds_encode, ← List.countP_eq_length_filter, List.countP_map]
  exact congrArg (fun q => List.countP q rs) (funext hf)

theorem isSome_key (e : EntrySubscription) : (key e).isSome = decide (e.getNat topicId ≠ 0) := by
  rw [key]
  split <;> simp [*]

structure Live (e : EntrySubscription) : Prop where
  id_ne : e.getNat topicId ≠ 0
  name_ne : e.text topicName ≠ []
  name_lt : (e.text topicName).length < 255

theorem Live.key_eq {e : EntrySubscription} (h : Live e) : key e = some (e.text topicName) :=
  if_neg h.id_ne

theorem Live.isEmpty_eq {e : EntrySubscription} (h : Live e) : isEmpty e = false := by
  simp [isEmpty, h.id_ne]

theorem getNat_topicId_zero : (Record.zero 258).getNat topicId = 0 :=
  Record.getNat_zero _ (by decide)

theorem text_topicName_zero : (Record.zero 258).text topicName = [] :=
  Record.text_zero _ (by decide)

theorem key_zero : key (Record.zero 258) = none := if_pos getNat_topicId_zero

/-- The record of the subscription `(t, i)`. -/
def Is (t : CString) (i : UInt16) (e : EntrySubscription) : Prop :=
  e.text topicName = t.bytes ∧ e.getNat topicId = i.toNat

theorem live_make {t : CString} {i : UInt16} (q : UInt8) (ht : checkTopicName (some t) = some t)
    (hi : i ≠ 0) : Live (make t i q) ∧ Is t i (make t i q) := by
  obtain ⟨-, hne, hlt⟩ := checkTopicName_eq_some ht
  have hname : (make t i q).text topicName = t.bytes :=
    Record.text_strcpy_self t.noNul hlt (by decide)
  have hid : (make t i q).getNat topicId = i.toNat := by
    have hfit : (t.bytes ++ [0]).length ≤ topicName.len := by rw [List.length_append]; exact hlt
    rw [make, Record.getNat, Record.strcpy, Record.get_putAt_of_field_disjoint (by decide) hfit,
      ← Record.getNat]
    simp (disch := decide) only [Record.getNat_putNat_of_disjoint, Record.getNat_putNat_self]
    exact Nat.mod_eq_of_lt i.toNat_lt
  refine ⟨⟨?_, by rw [hname]; exact hne, by rw [hname]; exact hlt⟩, hname, hid⟩
  rw [hid]
  exact fun h0 => hi (UInt16.toNat_inj.1 h0)

/-- The loop of `add_subscription` ends at the record of the subscription. -/
theorem stops_addSubscription {t : CString} {i : UInt16} {e : EntrySubscription} (hi : i ≠ 0)
    (hlt : t.length < 255) :
    (Persistent.addSubscriptionScanner PERSISTENT_DEBUG t i).stops e = true ↔ Is t i e := by
  have hi0 : i.toNat ≠ 0 := fun h0 => hi (UInt16.toNat_inj.1 h0)
  simp only [Scanner.stops, Persistent.addSubscriptionScanner, isEmpty, hasTopicId, hasName, Is,
    PERSISTENT_DEBUG,
    Bool.and_eq_true, Bool.not_eq_true', decide_eq_true_eq, decide_eq_false_iff_not, Bool.true_and]
  constructor
  · rintro ⟨-, hid, -, hname⟩
    exact ⟨hname, hid⟩
  · rintro ⟨hname, hid⟩
    exact ⟨fun h => hi0 (hid ▸ h.1), hid, by rw [hname]; exact hlt, hname⟩

end EntrySubscription

open EntrySubscription (key)

structure SubTable (rs : List EntrySubscription) : Prop where
  len : rs.length ≤ 65534
  slot : ∀ e ∈ rs, e = Record.zero 258 ∨ EntrySubscription.Live e

namespace SubTable

variable {rs : List EntrySubscription}

theorem nil : SubTable [] := ⟨by decide, by simp⟩

theorem live_of_key (h : SubTable rs) {e : EntrySubscription} {k : List UInt8} (he : e ∈ rs)
    (hk : key e = some k) : EntrySubscription.Live e ∧ e.text EntrySubscription.topicName = k := by
  rcases h.slot e he with rfl | hl
  · rw [EntrySubscription.key_zero] at hk; cases hk
  · rw [hl.key_eq] at hk; exact ⟨hl, Option.some.inj hk⟩

theorem place (h : SubTable rs) {i : Nat} {e : EntrySubscription} (hi : i ≤ rs.length)
    (hlen : (SlotTable.place rs i e).length ≤ 65534)
    (he : e = Record.zero 258 ∨ EntrySubscription.Live e) : SubTable (SlotTable.place rs i e) := by
  refine ⟨hlen, fun b hb => ?_⟩
  obtain ⟨j, hj⟩ := List.getElem?_of_mem hb
  rw [SlotTable.getElem?_place hi] at hj
  split at hj
  · cases hj; exact he
  · exact h.slot b (List.mem_of_getElem? hj)

theorem checkTopicName_of_mem (h : SubTable rs) {t : CString}
    (ht : t.bytes ∈ SlotTable.keys key rs) : checkTopicName (some t) = some t := by
  obtain ⟨i, e, hi, hk⟩ := SlotTable.mem_keys.1 ht
  obtain ⟨hl, hname⟩ := h.live_of_key (List.mem_of_getElem? hi) hk
  have hne := hl.name_ne
  have hlt := hl.name_lt
  rw [hname] at hne hlt
  exact checkTopicName_of_length (List.length_pos_iff.2 hne) hlt

end SubTable

namespace Persistent

/-- The transaction's client is registered and its subscription file holds the records `rs`. -/
structure Subscribed (s : Persistent) (rs : List EntrySubscription) : Prop where
  isOpen : s.blocked = false
  isIn : s.notInClientRegistry = false
  file : s.fs.contents (s.clientFile .subscribe) = encode rs
  table : SubTable rs

def setSubscriptions (s : Persistent) (rs : List EntrySubscription) : Persistent :=
  { s with fs := s.fs.set (s.clientFile .subscribe) (encode rs) }

theorem countSubscriptions_mod {c : Nat} (hc : c < 2 ^ 16) (l : List (Nat × EntrySubscription)) :
    countSubscriptions c l =
      (c + ((l.filter fun r => r.1 = 258).map fun r => r.2.getNat EntrySubscription.topicId).countP
        (· ≠ 0)) % 2 ^ 16 := by
  induction l generalizing c with
  | nil => rw [countSubscriptions]; exact (Nat.mod_eq_of_lt hc).symm
  | cons r l ih =>
    obtain ⟨got, e⟩ := r
    rw [countSubscriptions]
    split
    · next h =>
      rw [ih (Nat.mod_lt _ (by omega)), List.filter_cons_of_pos (by simpa using h.1), List.map_cons,
        List.countP_cons_of_pos (by simpa using h.2)]
      omega
    · next h =>
      rw [ih hc]
      by_cases hgot : got = 258
      · rw [List.filter_cons_of_pos (by simpa using hgot), List.map_cons, List.countP_cons_of_neg]
        simpa [hgot] using h
      · rw [List.filter_cons_of_neg (by simpa using hgot)]

/-- The count is that of the records in use, whatever the file holds. -/
theorem getClientSubscriptionCount_mod {s : Persistent} (hopen : s.blocked = false)
    (hin : s.notInClientRegistry = false) :
    s.getClientSubscriptionCount =
      (EntrySubscription.topicIds (s.fs.contents (s.clientFile .subscribe))).length % 2 ^ 16 := by
  unfold getClientSubscriptionCount
  rw [if_neg (by simp [hopen]), if_neg (by simp [hin]), countSubscriptions_mod (by omega),
    Nat.zero_add,
    EntrySubscription.topicIds, whole, List.map_map, ← List.countP_eq_length_filter]
  rfl

namespace Subscribed

variable {p : Platform} {s : Persistent} {rs : List EntrySubscription} {t : CString}

theorem isSubscribed_iff (h : Subscribed s rs) :
    s.isSubscribed PERSISTENT_DEBUG (some t) = true ↔ t.bytes ∈ SlotTable.keys key rs := by
  unfold isSubscribed
  rw [if_neg (by simp [h.isOpen]), if_neg (by simp [h.isIn])]
  cases ht : checkTopicName (some t) with
  | none =>
    simp only [Bool.false_eq_true, false_iff]
    intro hmem
    rw [h.table.checkTopicName_of_mem hmem] at ht; cases ht
  | some t' =>
    obtain ⟨rfl, hne, -⟩ := checkTopicName_eq_some ht
    have hlen := h.table.len
    dsimp only
    unfold findSubscription
    rw [h.file]
    rcases (subscriptionScanner (EntrySubscription.hasName t') (2 ^ 16)).scan_cases (by omega) rs
      (by show _ < 2 ^ 16; omega) with ⟨i, e, hi, hstop, -, hscan⟩ | ⟨hnone, hscan⟩
    · rw [hscan]
      have hname : e.text EntrySubscription.topicName = t'.bytes := by
        have : EntrySubscription.hasName t' e = true := by
          simpa [Scanner.stops, subscriptionScanner] using hstop
        simp [EntrySubscription.hasName] at this
        exact this.2
      refine ⟨fun _ => SlotTable.mem_keys.2 ⟨i, e, hi, ?_⟩, fun _ => rfl⟩
      rcases h.table.slot e (List.mem_of_getElem? hi) with rfl | hl
      · rw [EntrySubscription.text_topicName_zero] at hname
        exact absurd hname.symm hne
      · rw [hl.key_eq, hname]
    · rw [hscan]
      simp only [Bool.false_eq_true, false_iff]
      intro hmem
      obtain ⟨i, e, hi, hk⟩ := SlotTable.mem_keys.1 hmem
      obtain ⟨hl, hname⟩ := h.table.live_of_key (List.mem_of_getElem? hi) hk
      have := hnone i e hi
      simp [Scanner.stops, subscriptionScanner, EntrySubscription.hasName, hname] at this
      exact absurd hl.name_lt (by rw [hname]; exact Nat.not_lt_of_le this)

/-- A subscription that is new takes a slot that is free, or the one behind the last. -/
theorem addSubscription_cases (h : Subscribed s rs) {i : UInt16} {q : UInt8}
    (ht : checkTopicName (some t) = some t) (hi : i ≠ 0) :
    ((∃ e ∈ rs, EntrySubscription.Is t i e) ∧
      s.addSubscription p PERSISTENT_DEBUG (some t) i q = s) ∨
      (∀ e ∈ rs, ¬ EntrySubscription.Is t i e) ∧
        ∃ k, k ≤ rs.length ∧ (∀ e, rs[k]? = some e → e = Record.zero 258) ∧
          s.addSubscription p PERSISTENT_DEBUG (some t) i q =
            s.setSubscriptions (SlotTable.place rs k (EntrySubscription.make t i q)) := by
  obtain ⟨-, -, hlt⟩ := checkTopicName_eq_some ht
  have hlen := h.table.len
  unfold addSubscription
  rw [if_neg (by simp [h.isOpen]), if_neg (by simp [h.isIn]), ht]
  dsimp only
  rw [if_neg hi, h.file]
  rcases (addSubscriptionScanner PERSISTENT_DEBUG t i).scan_cases (by omega) rs
    (by show _ < 2 ^ 16; omega) with
    ⟨k, e, hk, hstop, -, hscan⟩ | ⟨hno, hscan⟩
  · rw [hscan]
    exact .inl
      ⟨⟨e, List.mem_of_getElem? hk, (EntrySubscription.stops_addSubscription hi hlt).1 hstop⟩, rfl⟩
  · refine .inr ⟨fun e he his => ?_, ?_⟩
    · obtain ⟨j, hj⟩ := List.getElem?_of_mem he
      have hstop := (EntrySubscription.stops_addSubscription hi hlt).2 his
      rw [hno j e hj] at hstop; cases hstop
    obtain ⟨k, hk, hle, hfree, -⟩ := lastIdx?_slot EntrySubscription.isEmpty rs
    refine ⟨k, hle, fun e he => ?_, ?_⟩
    · have hempty := hfree e he
      rcases h.table.slot e (List.mem_of_getElem? he) with rfl | hl
      · rfl
      · rw [hl.isEmpty_eq] at hempty; cases hempty
    · rw [hscan]
      dsimp only
      rw [show (addSubscriptionScanner PERSISTENT_DEBUG t i).hole =
        EntrySubscription.isEmpty from rfl,
        firstEmptySpace_succ, hk, sizeMul_natCast (by omega), Files.writeAt_encode p _ h.file hle]
      rfl

theorem deleteSubscription_cases (h : Subscribed s rs) {i : UInt16} (hi : i ≠ 0) :
    (∃ (k : Nat) (e : EntrySubscription), rs[k]? = some e ∧
      e.getNat EntrySubscription.topicId = i.toNat ∧
        s.deleteSubscription p i = s.setSubscriptions (SlotTable.place rs k (Record.zero 258))) ∨
      (∀ e ∈ rs, e.getNat EntrySubscription.topicId ≠ i.toNat) ∧ s.deleteSubscription p i =
        { s with error := true } := by
  have hlen := h.table.len
  have hstops : ∀ e,
      (subscriptionScanner (EntrySubscription.hasTopicId i) (2 ^ 16)).stops e = true ↔
      e.getNat EntrySubscription.topicId = i.toNat := by
    intro e
    simp [Scanner.stops, subscriptionScanner, EntrySubscription.hasTopicId]
  unfold deleteSubscription
  rw [if_neg (by simp [h.isOpen]), if_neg hi]
  dsimp only
  rw [h.file]
  rcases (subscriptionScanner (EntrySubscription.hasTopicId i) (2 ^ 16)).scan_cases (by omega) rs
    (by show _ < 2 ^ 16; omega) with ⟨k, e, hk, hstop, -, hscan⟩ | ⟨hno, hscan⟩
  · rw [hscan]
    dsimp only
    rw [Files.writeAt_encode p _ h.file (List.getElem?_eq_some_iff.1 hk).1.le]
    exact .inl ⟨k, e, hk, (hstops e).1 hstop, rfl⟩
  · rw [hscan]
    refine .inr ⟨fun e he hid => ?_, rfl⟩
    obtain ⟨j, hj⟩ := List.getElem?_of_mem he
    have := (hstops e).2 hid
    rw [hno j e hj] at this; cases this

theorem getClientSubscriptionCount_eq_keys {κ : Type} {f : EntrySubscription → Option κ}
    (h : Subscribed s rs)
    (hf : ∀ e, (f e).isSome = decide (e.getNat EntrySubscription.topicId ≠ 0)) :
    s.getClientSubscriptionCount = (SlotTable.keys f rs).length := by
  have hlen := h.table.len
  have hle : (SlotTable.keys f rs).length ≤ rs.length := List.length_filterMap_le _ _
  rw [getClientSubscriptionCount_mod h.isOpen h.isIn, h.file, ← EntrySubscription.length_keys hf,
    Nat.mod_eq_of_lt (by omega)]

theorem getClientSubscriptionCount_eq (h : Subscribed s rs) :
    s.getClientSubscriptionCount = (SlotTable.keys key rs).length :=
  h.getClientSubscriptionCount_eq_keys EntrySubscription.isSome_key

theorem contents_setSubscriptions (rs' : List EntrySubscription) :
    (s.setSubscriptions rs').fs.contents (s.clientFile .subscribe) = encode rs' :=
  Files.contents_set_self _

/-- In `s'` the subscription file of the client has the topics of `rs`, up to one. -/
def OneTopic (s s' : Persistent) (rs : List EntrySubscription) : Prop :=
  ∃ rs' n, s'.fs.contents (s.clientFile .subscribe) = encode rs' ∧ SubTable rs' ∧
    ∀ k, k ≠ n → (k ∈ SlotTable.keys key rs' ↔ k ∈ SlotTable.keys key rs)

theorem oneTopic_of_fs_eq (h : Subscribed s rs) {s' : Persistent} (hs : s'.fs = s.fs) :
    OneTopic s s' rs :=
  ⟨rs, [], by rw [hs]; exact h.file, h.table, fun _ _ => Iff.rfl⟩

theorem oneTopic_of_place (h : Subscribed s rs) {s' : Persistent} {k : Nat} {e : EntrySubscription}
    {n : List UInt8} (hs : s' = s.setSubscriptions (SlotTable.place rs k e)) (hk : k ≤ rs.length)
    (he : e = Record.zero 258 ∨ EntrySubscription.Live e) (hnew : ∀ m, key e = some m → m = n)
    (hold : ∀ b, rs[k]? = some b → ∀ m, key b = some m → m = n)
    (hfits : (s'.fs.contents (s.clientFile .subscribe)).length ≤ 65534 * 258) :
    OneTopic s s' rs := by
  rw [hs, contents_setSubscriptions, length_encode] at hfits
  refine ⟨_, n, by rw [hs]; exact contents_setSubscriptions _, h.table.place hk (by omega) he,
    fun m hm => ?_⟩
  rw [SlotTable.mem_keys_place hk, SlotTable.mem_keys]
  constructor
  · rintro (hke | ⟨j, b, -, hj, hb⟩)
    exacts [absurd (hnew m hke) hm, ⟨j, b, hj, hb⟩]
  · rintro ⟨j, b, hj, hb⟩
    refine .inr ⟨j, b, ?_, hj, hb⟩
    rintro rfl
    exact hm (hold b hj m hb)

theorem oneTopic_addSubscription (h : Subscribed s rs) (topicName : Option CString) (i : UInt16)
    (q : UInt8)
    (hfits : ((s.addSubscription p PERSISTENT_DEBUG topicName i q).fs.contents
      (s.clientFile .subscribe)).length ≤ 65534 * 258) :
    OneTopic s (s.addSubscription p PERSISTENT_DEBUG topicName i q) rs := by
  cases hcheck : checkTopicName topicName with
  | none =>
    have hs : s.addSubscription p PERSISTENT_DEBUG topicName i q = s := by
      simp [addSubscription, h.isOpen, h.isIn, hcheck]
    rw [hs]; exact h.oneTopic_of_fs_eq rfl
  | some t =>
    obtain ⟨t', rfl⟩ : ∃ t', topicName = some t' := by
      cases topicName with
      | none => cases hcheck
      | some t' => exact ⟨t', rfl⟩
    obtain ⟨rfl, -⟩ := checkTopicName_eq_some hcheck
    by_cases hi : i = 0
    · have hs : s.addSubscription p PERSISTENT_DEBUG (some t) i q = s := by
        simp [addSubscription, h.isOpen, h.isIn, hcheck, hi]
      rw [hs]; exact h.oneTopic_of_fs_eq rfl
    · rcases h.addSubscription_cases (p := p) (q := q) hcheck hi with ⟨-, hs⟩ |
        ⟨-, k, hk, hfree, hs⟩
      · rw [hs]; exact h.oneTopic_of_fs_eq rfl
      · obtain ⟨hl, hname, -⟩ := EntrySubscription.live_make q hcheck hi
        refine h.oneTopic_of_place (n := t.bytes) hs hk (.inr hl) (fun m hm => ?_)
          (fun b hb m hm => ?_) hfits
        · rw [hl.key_eq, hname] at hm; exact (Option.some.inj hm).symm
        · rw [hfree b hb, EntrySubscription.key_zero] at hm; cases hm

theorem oneTopic_deleteSubscription (h : Subscribed s rs) (i : UInt16) :
    OneTopic s (s.deleteSubscription p i) rs := by
  by_cases hi : i = 0
  · have hs : s.deleteSubscription p i = s := by simp [deleteSubscription, h.isOpen, hi]
    rw [hs]; exact h.oneTopic_of_fs_eq rfl
  · rcases h.deleteSubscription_cases (p := p) hi with ⟨k, e, hk, -, hs⟩ | ⟨-, hs⟩
    · have hlt : k < rs.length := (List.getElem?_eq_some_iff.1 hk).1
      have hlen := h.table.len
      refine h.oneTopic_of_place (n := e.text EntrySubscription.topicName) hs hlt.le (.inl rfl)
        (fun m hm => ?_) (fun b hb m hm => ?_) ?_
      · rw [EntrySubscription.key_zero] at hm; cases hm
      · rw [hk] at hb; cases hb
        exact (h.table.live_of_key (List.mem_of_getElem? hk) hm).2.symm
      · rw [hs, contents_setSubscriptions, length_encode, SlotTable.length_place hlt.le]; omega
    · rw [hs]; exact h.oneTopic_of_fs_eq rfl

theorem oneTopic_next (h : Subscribed s rs) {op : Op} (hop : op.ending = some .subscribe)
    (hfits : ((s.next p op).fs.contents (s.clientFile .subscribe)).length ≤ 65534 * 258) :
    OneTopic s (s.next p op) rs := by
  cases op <;> simp only [Op.ending, reduceCtorEq, Option.some.injEq] at hop
  case addSubscription t i q => exact h.oneTopic_addSubscription t i q hfits
  case deleteSubscription i => exact h.oneTopic_deleteSubscription i

end Subscribed

end Persistent

end SnGateway
