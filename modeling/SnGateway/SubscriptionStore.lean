import SnGateway.ClientSubscriptions

/-!
# The subscriptions as a set, as a list and by name

A `.SUB` file stands for a finite set of pairs of a topic name and a topic id. Adding inserts a
pair, deleting erases the first pair with an id. Three keys are at work: a subscription is added
under its pair, looked up by its name and deleted by its id; and `get_nth_subscribed_topic_id`
counts slots, where `get_client_subscription_count` counts the slots in use.
-/

namespace SnGateway
open RecordStore

namespace EntrySubscription

def pair (e : EntrySubscription) : Option (List UInt8 × Nat) :=
  if e.getNat topicId = 0 then none else some (e.text topicName, e.getNat topicId)

theorem Live.pair_eq {e : EntrySubscription} (h : Live e) :
    pair e = some (e.text topicName, e.getNat topicId) :=
  if_neg h.id_ne

theorem pair_zero : pair (Record.zero 258) = none := if_pos getNat_topicId_zero

theorem isSome_pair (e : EntrySubscription) : (pair e).isSome = decide (e.getNat topicId ≠ 0) := by
  rw [pair]
  split <;> simp [*]

theorem hasName_zero {t : CString} (ht : t.bytes ≠ []) : hasName t (Record.zero 258) = false := by
  simp [hasName, text_topicName_zero, ht.symm]

end EntrySubscription

open EntrySubscription (pair)

namespace Persistent

/-- The records of the transaction's subscription file. -/
def subscriptions (s : Persistent) : List EntrySubscription :=
  whole 258 (s.fs.contents (s.clientFile .subscribe))

/-! ### Enumeration -/

/-- The values of `get_nth_subscribed_topic_id` below the count. -/
def enumerated (p : Platform) (s : Persistent) : List Nat :=
  (List.range s.getClientSubscriptionCount).map fun n =>
    s.getNthSubscribedTopicId p (UInt16.ofNat n)

/-- The topic ids of the subscriptions. -/
def subscribedIds (s : Persistent) : List Nat :=
  EntrySubscription.topicIds (s.fs.contents (s.clientFile .subscribe))

section
variable {p : Platform} {s : Persistent}

theorem getNthSubscribedTopicId_slot (hopen : s.blocked = false) {n : UInt16}
    {e : EntrySubscription} (he : s.subscriptions[n.toNat]? = some e) :
    s.getNthSubscribedTopicId p n = e.getNat EntrySubscription.topicId := by
  obtain ⟨hle, hbytes⟩ := (getElem?_whole (by omega)).1 he
  have hread : s.fs.readAt p (s.clientFile .subscribe) (n.toNat * 258) 258 = e.bytes := by
    rw [hbytes, Files.readAt, p.seek_of_le false (Nat.le_of_add_right_le hle)]
  unfold getNthSubscribedTopicId
  rw [if_neg (by simp [hopen])]
  simp only [hread, e.size_eq, Record.fill_bytes, true_and]
  split
  · rfl
  · next h => exact (not_not.1 h).symm

theorem enumerated_eq_take (hopen : s.blocked = false) (hin : s.notInClientRegistry = false) :
    s.enumerated p = (s.subscriptions.map fun e => e.getNat EntrySubscription.topicId).take
      s.getClientSubscriptionCount := by
  have hcount := getClientSubscriptionCount_mod hopen hin
  have hle : s.getClientSubscriptionCount ≤ s.subscriptions.length := by
    rw [hcount]
    refine (Nat.mod_le _ _).trans ((List.length_filter_le _ _).trans ?_)
    rw [List.length_map]; exact Nat.le_refl _
  apply List.ext_getElem?
  intro n
  rw [enumerated, List.getElem?_take, List.getElem?_map, List.getElem?_map]
  split
  · next hn =>
    have hlt : n < 2 ^ 16 := hn.trans (by rw [hcount]; exact Nat.mod_lt _ (by omega))
    have he := List.getElem?_eq_getElem (hn.trans_le hle)
    rw [List.getElem?_range hn, he, Option.map_some, Option.map_some]
    refine congrArg some (getNthSubscribedTopicId_slot hopen ?_)
    rw [UInt16.toNat_ofNat_of_lt' hlt, he]
  · next hn => rw [List.getElem?_eq_none (by simpa using hn)]; rfl

/-- The enumeration is that of the subscriptions exactly when the count does not wrap around and no
free slot is in front of a subscription. -/
theorem enumerated_iff (hopen : s.blocked = false) (hin : s.notInClientRegistry = false) :
    (s.enumerated p).Perm s.subscribedIds ∧ 0 ∉ s.enumerated p ↔
      s.subscribedIds.length < 2 ^ 16 ∧ s.subscriptions.Pairwise fun a b =>
        b.getNat EntrySubscription.topicId ≠ 0 → a.getNat EntrySubscription.topicId ≠ 0 := by
  have hcount : s.getClientSubscriptionCount = s.subscribedIds.length % 2 ^ 16 :=
    getClientSubscriptionCount_mod hopen hin
  have hno : (s.enumerated p).Perm s.subscribedIds → 0 ∉ s.enumerated p := by
    intro h h0
    exact absurd rfl (of_decide_eq_true (List.mem_filter.1 (h.mem_iff.1 h0)).2)
  have hwrap : s.getClientSubscriptionCount = s.subscribedIds.length ↔
      s.subscribedIds.length < 2 ^ 16 := by
    rw [hcount, Nat.mod_eq_iff_lt (by omega)]
  rw [and_iff_left_of_imp hno, enumerated_eq_take hopen hin, ← hwrap]
  refine (SlotTable.take_perm_filter_iff ?_).trans (and_congr_right' ?_)
  · rw [hcount]; exact Nat.mod_le _ _
  · rw [List.pairwise_map]; simp

/-! ### Unsubscribing by name -/

theorem scan_subscriptions (q : EntrySubscription → Bool) :
    let scan := (subscriptionScanner q (2 ^ 16)).scan (s.fs.contents (s.clientFile .subscribe))
    (∃ (k : Nat) (e : EntrySubscription), s.subscriptions.findIdx? q = some k ∧
      s.subscriptions[k]? = some e ∧
        scan = .found (k % 2 ^ 16) e) ∨
      (s.subscriptions.findIdx? q = none ∧ ∃ k hole b, scan = .exhausted k hole b) := by
  intro scan
  have hstops : (subscriptionScanner q (2 ^ 16)).stops = q := by
    funext e
    simp [Scanner.stops, subscriptionScanner]
  have h := (subscriptionScanner q (2 ^ 16)).scan_findIdx? (by omega) (Nat.two_pow_pos 16)
    (s.fs.contents (s.clientFile .subscribe))
  rw [hstops] at h
  rcases h with ⟨k, e, hfind, hk, hscan⟩ | ⟨hnone, k, b, hscan⟩
  · exact .inl ⟨k, e, hfind, hk, hscan⟩
  · exact .inr ⟨hnone, k, _, b, hscan⟩

theorem findSubscription_eq (t : CString) :
    s.findSubscription t = s.subscriptions.find? (EntrySubscription.hasName t) := by
  have hstops : (subscriptionScanner (EntrySubscription.hasName t) (2 ^ 16)).stops =
      EntrySubscription.hasName t := by
    funext e
    simp [Scanner.stops, subscriptionScanner]
  have h := (subscriptionScanner (EntrySubscription.hasName t) (2 ^ 16)).scan_find? (by omega)
    (Nat.two_pow_pos 16)
    (s.fs.contents (s.clientFile .subscribe))
  rw [hstops] at h
  unfold findSubscription
  rcases h with ⟨k, e, hfind, hscan⟩ | ⟨hnone, k, hole, b, hscan⟩
  · rw [hscan]; exact hfind.symm
  · rw [hscan]; exact hnone.symm

theorem isSubscribed_iff_find (hopen : s.blocked = false) (hin : s.notInClientRegistry = false)
    {t : CString} :
    s.isSubscribed PERSISTENT_DEBUG (some t) = true ↔
      checkTopicName (some t) = some t ∧ ∃ e ∈ s.subscriptions,
      EntrySubscription.hasName t e = true := by
  unfold isSubscribed
  rw [if_neg (by simp [hopen]), if_neg (by simp [hin])]
  cases ht : checkTopicName (some t) with
  | none => simp
  | some t' =>
    obtain ⟨rfl, -⟩ := checkTopicName_eq_some ht
    dsimp only
    rw [findSubscription_eq]
    cases hfind : s.subscriptions.find? (EntrySubscription.hasName t') with
    | none =>
      have hno := List.find?_eq_none.1 hfind
      simp only [Bool.false_eq_true, false_iff, true_and, not_exists, not_and]
      exact hno
    | some e =>
      exact ⟨fun _ => ⟨rfl, e, List.mem_of_find?_eq_some hfind, List.find?_some hfind⟩,
        fun _ => rfl⟩

/-- The first record with the topic id is cleared; its number is a `uint16_t`. -/
theorem subscriptions_deleteSubscription (hopen : s.blocked = false) {i : UInt16} (hi : i ≠ 0)
    {k : Nat} (hk : s.subscriptions.findIdx? (EntrySubscription.hasTopicId i) = some k) :
    (s.deleteSubscription p i).subscriptions = s.subscriptions.set (k % 2 ^ 16) (Record.zero 258) ∧
      (s.deleteSubscription p i).blocked = false ∧
      (s.deleteSubscription p i).notInClientRegistry = s.notInClientRegistry := by
  rcases s.scan_subscriptions (EntrySubscription.hasTopicId i) with ⟨k', e, hfind, hk', hscan⟩ |
    ⟨hnone, -⟩
  · obtain rfl : k' = k := Option.some.inj (hfind.symm.trans hk)
    have hlt : k' % 2 ^ 16 < s.subscriptions.length :=
      (Nat.mod_le _ _).trans_lt (List.getElem?_eq_some_iff.1 hk').1
    obtain ⟨b, hb⟩ : ∃ b, s.subscriptions[k' % 2 ^ 16]? = some b :=
      ⟨_, List.getElem?_eq_getElem hlt⟩
    have hle := ((getElem?_whole (by omega)).1 hb).1
    have hs : s.deleteSubscription p i =
        { s with
          fs := s.fs.writeAt p (s.clientFile .subscribe) (k' % 2 ^ 16 * 258)
            (Record.zero 258).bytes } := by
      unfold deleteSubscription
      rw [if_neg (by simp [hopen]), if_neg hi]
      dsimp only
      rw [hscan]
    rw [hs]
    refine ⟨?_, hopen, rfl⟩
    rw [Files.writeAt, p.seek_of_le true (Nat.le_of_add_right_le hle)]
    show whole 258 ((s.fs.set _ _).contents (s.clientFile .subscribe)) = _
    rw [Files.contents_set_self, whole_overwrite (by omega) _ hlt]
    rfl
  · rw [hnone] at hk; cases hk

/-- Deleting the topic id of `t` unsubscribes `t` and no other name. -/
structure Unsubscribes (p : Platform) (t : CString) (s : Persistent) : Prop where
  gone : (s.deleteSubscription p (UInt16.ofNat (s.getSubscriptionTopicId (some t)))).isSubscribed
    PERSISTENT_DEBUG (some t) = false
  others : ∀ u, u ≠ t →
    let s' := s.deleteSubscription p (UInt16.ofNat (s.getSubscriptionTopicId (some t)))
    s'.isSubscribed PERSISTENT_DEBUG (some u) = s.isSubscribed PERSISTENT_DEBUG (some u) ∧
      s'.getSubscriptionQos (some u) = s.getSubscriptionQos (some u) ∧
      s'.getSubscriptionTopicId (some u) = s.getSubscriptionTopicId (some u)

/-- Slot `k` holds the only record with the name `t`, and the first with its topic id. -/
structure OnlyAt (t : CString) (s : Persistent) (k : Nat) (e : EntrySubscription) : Prop where
  slot : s.subscriptions[k]? = some e
  name : EntrySubscription.hasName t e = true
  only : ∀ (j : Nat) (b : EntrySubscription), j ≠ k → s.subscriptions[j]? = some b →
    EntrySubscription.hasName t b = false
  id_ne : e.getNat EntrySubscription.topicId ≠ 0
  first : ∀ (j : Nat) (b : EntrySubscription), j < k → s.subscriptions[j]? = some b →
    b.getNat EntrySubscription.topicId ≠ e.getNat EntrySubscription.topicId
  reached : k < 2 ^ 16

/-- The answers about a name depend on the first record with it. -/
theorem answers_of_find {s' : Persistent} {u : CString} (hblocked : s'.blocked = s.blocked)
    (hin : s'.notInClientRegistry = s.notInClientRegistry)
    (hfind : checkTopicName (some u) = some u → s'.findSubscription u = s.findSubscription u) :
    s'.isSubscribed PERSISTENT_DEBUG (some u) = s.isSubscribed PERSISTENT_DEBUG (some u) ∧
      s'.getSubscriptionQos (some u) = s.getSubscriptionQos (some u) ∧
      s'.getSubscriptionTopicId (some u) = s.getSubscriptionTopicId (some u) := by
  unfold isSubscribed getSubscriptionQos getSubscriptionTopicId
  rw [hblocked, hin]
  cases hu : checkTopicName (some u) with
  | none => simp
  | some u' =>
    obtain ⟨rfl, -⟩ := checkTopicName_eq_some hu
    simp only [hfind hu, and_self]

theorem OnlyAt.eq_of_name {t : CString} {k j : Nat} {e b : EntrySubscription} (h : OnlyAt t s k e)
    (hj : s.subscriptions[j]? = some b) (hb : EntrySubscription.hasName t b = true) :
    j = k ∧ b = e := by
  obtain rfl : j = k := by
    by_contra hne
    rw [h.only j b hne hj] at hb; cases hb
  exact ⟨rfl, Option.some.inj (hj.symm.trans h.slot)⟩

theorem not_isSubscribed_of_cleared {s' : Persistent} {t : CString} {k : Nat}
    (hopen : s'.blocked = false) (hin : s'.notInClientRegistry = false)
    (hcheck : checkTopicName (some t) = some t)
    (hsubs : s'.subscriptions = s.subscriptions.set k (Record.zero 258)) :
    s'.isSubscribed PERSISTENT_DEBUG (some t) = false ↔
      ∀ (j : Nat) (b : EntrySubscription), j ≠ k → s.subscriptions[j]? = some b →
      EntrySubscription.hasName t b = false := by
  obtain ⟨-, hne, -⟩ := checkTopicName_eq_some hcheck
  rw [← Bool.not_eq_true, isSubscribed_iff_find hopen hin, hsubs]
  constructor
  · intro h j b hj hb
    rw [← Bool.not_eq_true]
    intro hname
    refine h ⟨hcheck, b, List.mem_of_getElem? (i := j) ?_, hname⟩
    rw [List.getElem?_set_ne (Ne.symm hj), hb]
  · rintro h ⟨-, b, hb, hname⟩
    obtain ⟨j, hj⟩ := List.getElem?_of_mem hb
    rw [List.getElem?_set] at hj
    split at hj
    · split at hj
      · cases hj
        rw [EntrySubscription.hasName_zero hne] at hname; cases hname
      · cases hj
    · next hjk =>
      rw [h j b (Ne.symm hjk) hj] at hname; cases hname

/-- Unsubscribing a name works exactly when the name has one record only, no record in front of it
has its topic id, and it is in one of the slots a `uint16_t` counts. -/
theorem unsubscribes_iff {t : CString} (hopen : s.blocked = false)
    (hin : s.notInClientRegistry = false) (ht : s.isSubscribed PERSISTENT_DEBUG (some t) = true) :
    Unsubscribes p t s ↔ ∃ k e, OnlyAt t s k e := by
  obtain ⟨hcheck, hex⟩ := (isSubscribed_iff_find hopen hin).1 ht
  obtain ⟨e, hfind⟩ : ∃ e, s.subscriptions.find? (EntrySubscription.hasName t) = some e := by
    rw [← Option.isSome_iff_exists, List.find?_isSome]
    exact hex
  have hid : s.getSubscriptionTopicId (some t) = e.getNat EntrySubscription.topicId := by
    unfold getSubscriptionTopicId
    rw [if_neg (by simp [hopen]), if_neg (by simp [hin]), hcheck]
    dsimp only
    rw [findSubscription_eq, hfind]
  obtain ⟨hname, j, hlt, rfl, -⟩ := List.find?_eq_some_iff_getElem.1 hfind
  have hj := List.getElem?_eq_getElem hlt
  obtain ⟨i, hi⟩ : ∃ i, i = UInt16.ofNat (s.getSubscriptionTopicId (some t)) := ⟨_, rfl⟩
  have hi' : i.toNat = s.subscriptions[j].getNat EntrySubscription.topicId := by
    rw [hi, hid]
    exact UInt16.toNat_ofNat_of_lt' (Record.getNat_lt _ EntrySubscription.topicId (by decide))
  by_cases h0 : i = 0
  · -- `delete_subscription(0)` does nothing
    have hs : s.deleteSubscription p i = s := by simp [deleteSubscription, h0]
    constructor
    · intro h
      have hgone := h.gone
      rw [← hi, hs, ht] at hgone; cases hgone
    · rintro ⟨k, e, honly⟩
      obtain ⟨-, he⟩ := honly.eq_of_name hj hname
      exact absurd (by rw [← he, ← hi', h0]; rfl) honly.id_ne
  obtain ⟨k, hk⟩ : ∃ k, s.subscriptions.findIdx? (EntrySubscription.hasTopicId i) = some k := by
    rw [← Option.isSome_iff_exists, List.findIdx?_isSome, List.any_eq_true]
    exact ⟨s.subscriptions[j], List.getElem_mem hlt, by simp [EntrySubscription.hasTopicId, hi']⟩
  obtain ⟨hklt, hkid, hkfirst⟩ := List.findIdx?_eq_some_iff_getElem.1 hk
  obtain ⟨hsubs, hopen', hin'⟩ := subscriptions_deleteSubscription (p := p) hopen h0 hk
  rw [hin] at hin'
  have hgone := not_isSubscribed_of_cleared hopen' hin' hcheck hsubs
  have hkj : k ≤ j := by
    by_contra hlt'
    exact hkfirst j (Nat.lt_of_not_le hlt') (by simp [EntrySubscription.hasTopicId, hi'])
  constructor
  · intro h
    have hgone := hgone.1 (by rw [hi]; exact h.gone)
    have hmod : k % 2 ^ 16 = j := by
      by_contra hne
      have := hgone j _ (Ne.symm hne) hj
      rw [hname] at this; cases this
    obtain ⟨rfl, hreach⟩ : k = j ∧ k < 2 ^ 16 := by omega
    refine ⟨k, _, hj, hname, fun l b hl hb => hgone l b (by omega) hb, ?_, fun l b hl hb =>
      ?_, hreach⟩
    · rw [← hi']
      exact fun h => h0 (UInt16.toNat_inj.1 h)
    · have := hkfirst l hl
      obtain ⟨-, rfl⟩ := List.getElem?_eq_some_iff.1 hb
      simpa [EntrySubscription.hasTopicId, hi'] using this
  · rintro ⟨k₀, e, honly⟩
    obtain ⟨rfl, rfl⟩ := honly.eq_of_name hj hname
    have hreach := honly.reached
    obtain rfl : k = j := by
      by_contra hne
      have hid := honly.first k _ (by omega) (List.getElem?_eq_getElem hklt)
      exact hid (by rw [← hi']; simpa [EntrySubscription.hasTopicId] using hkid)
    rw [Nat.mod_eq_of_lt hreach] at hsubs hgone
    refine ⟨by rw [← hi]; exact hgone.2 honly.only, fun u hu => ?_⟩
    rw [← hi]
    refine answers_of_find (hopen'.trans hopen.symm) (hin'.trans hin.symm) fun hcheck' => ?_
    obtain ⟨-, hne, -⟩ := checkTopicName_eq_some hcheck'
    rw [findSubscription_eq, findSubscription_eq, hsubs]
    refine SlotTable.find?_set_of_neg (EntrySubscription.hasName_zero hne) fun b hb => ?_
    obtain rfl := Option.some.inj (hj.symm.trans hb)
    simp only [EntrySubscription.hasName, decide_eq_true_eq, decide_eq_false_iff_not] at hname ⊢
    exact fun h => hu (CString.ext (h.2.symm.trans hname.2))

/-! ### The set of subscriptions -/

/-- The set a subscription file stands for. -/
def subscriptionSet (s : Persistent) : Finset (List UInt8 × Nat) :=
  (SlotTable.keys pair s.subscriptions).toFinset

end

/-- A subscription file that `add_subscription` and `delete_subscription` made of an empty one.
Between the client's transactions anything may happen that leaves the file alone. -/
inductive SubscriptionRun (p : Platform) : Persistent → Prop
  | empty {s : Persistent} (hin : s.notInClientRegistry = false)
      (hfile : s.fs.contents (s.clientFile .subscribe) = []) : SubscriptionRun p s
  | add {s : Persistent} (t : CString) (i : UInt16) (q : UInt8) (h : SubscriptionRun p s)
      (h1 : 1 ≤ t.length)
      (h2 : t.length < 255) (hi : i ≠ 0)
      (hfits : (s.addSubscription p PERSISTENT_DEBUG (some t) i q).subscriptions.length < 65535) :
      SubscriptionRun p (s.addSubscription p PERSISTENT_DEBUG (some t) i q)
  | delete {s : Persistent} (i : UInt16) (h : SubscriptionRun p s) : SubscriptionRun p
      (s.deleteSubscription p i)
  | others {s : Persistent} (ops : List Op) (h : SubscriptionRun p s)
      (hin : (s.run p ops).notInClientRegistry = false)
      (hfile : (s.run p ops).fs.contents ((s.run p ops).clientFile .subscribe) =
        s.fs.contents (s.clientFile .subscribe)) : SubscriptionRun p (s.run p ops)

section
variable {p : Platform} {s : Persistent} {rs : List EntrySubscription}

/-- The records of a file that stands for a set: no pair occurs in two of them. -/
structure SetFile (s : Persistent) (rs : List EntrySubscription) : Prop where
  isIn : s.notInClientRegistry = false
  file : s.fs.contents (s.clientFile .subscribe) = encode rs
  table : SubTable rs
  distinct : SlotTable.Distinct pair rs

namespace SetFile

theorem subscribed (h : SetFile s rs) (hopen : s.blocked = false) : Subscribed s rs :=
  ⟨hopen, h.isIn, h.file, h.table⟩

theorem subscriptions_eq (h : SetFile s rs) : s.subscriptions = rs := by
  rw [subscriptions, h.file, whole_encode (by omega)]

theorem mem_set (h : SetFile s rs) {x : List UInt8 × Nat} :
    x ∈ s.subscriptionSet ↔ ∃ e ∈ rs, pair e = some x := by
  rw [subscriptionSet, h.subscriptions_eq, List.mem_toFinset, SlotTable.keys, List.mem_filterMap]

theorem is_iff {t : CString} {i : UInt16} {e : EntrySubscription} (hi : i ≠ 0) :
    EntrySubscription.Is t i e ↔ pair e = some (t.bytes, i.toNat) := by
  have hi0 : i.toNat ≠ 0 := fun h0 => hi (UInt16.toNat_inj.1 h0)
  unfold EntrySubscription.Is pair
  split
  · next h0 => simp [h0, hi0.symm]
  · simp

theorem place (h : SetFile s rs) {k : Nat} {e : EntrySubscription} (hk : k ≤ rs.length)
    (hlen : (SlotTable.place rs k e).length ≤ 65534)
    (he : e = Record.zero 258 ∨ EntrySubscription.Live e)
    (hnew : ∀ b ∈ rs, ∀ x, pair b = some x → pair e ≠ some x) :
    SetFile (s.setSubscriptions (SlotTable.place rs k e)) (SlotTable.place rs k e) :=
  ⟨h.isIn, Subscribed.contents_setSubscriptions _, h.table.place hk hlen he,
    h.distinct.place hk fun _ b x _ hb hx => hnew b (List.mem_of_getElem? hb) x hx⟩

theorem subscriptions_setSubscriptions (rs : List EntrySubscription) :
    (s.setSubscriptions rs).subscriptions = rs := by
  show whole 258 ((s.setSubscriptions rs).fs.contents (s.clientFile .subscribe)) = rs
  rw [Subscribed.contents_setSubscriptions, whole_encode (by omega)]

theorem add_cases (h : SetFile s rs) (hopen : s.blocked = false) {t : CString} {i : UInt16}
    {q : UInt8} (h1 : 1 ≤ t.length) (h2 : t.length < 255) (hi : i ≠ 0) :
    ((t.bytes, i.toNat) ∈ s.subscriptionSet ∧ s.addSubscription p PERSISTENT_DEBUG (some t) i q =
      s) ∨
      (t.bytes, i.toNat) ∉ s.subscriptionSet ∧ ∃ k e, k ≤ rs.length ∧
      (∀ b, rs[k]? = some b → b = Record.zero 258) ∧
        EntrySubscription.Live e ∧ pair e = some (t.bytes, i.toNat) ∧
        s.addSubscription p PERSISTENT_DEBUG (some t) i q =
          s.setSubscriptions (SlotTable.place rs k e) := by
  have hcheck := checkTopicName_of_length h1 h2
  rcases (h.subscribed hopen).addSubscription_cases (p := p) (q := q) hcheck hi with
    ⟨⟨e, he, his⟩, hs⟩ | ⟨hno, k, hk, hfree, hs⟩
  · exact .inl ⟨h.mem_set.2 ⟨e, he, (is_iff hi).1 his⟩, hs⟩
  · obtain ⟨hl, his⟩ := EntrySubscription.live_make q hcheck hi
    refine .inr ⟨fun hmem => ?_, k, _, hk, hfree, hl, (is_iff hi).1 his, hs⟩
    obtain ⟨e, he, hx⟩ := h.mem_set.1 hmem
    exact hno e he ((is_iff hi).2 hx)

theorem delete_cases (h : SetFile s rs) (hopen : s.blocked = false) {i : UInt16} (hi : i ≠ 0) :
    (∃ (k : Nat) (e : EntrySubscription), rs[k]? = some e ∧
      pair e = some (e.text EntrySubscription.topicName, i.toNat) ∧
        s.deleteSubscription p i = s.setSubscriptions (SlotTable.place rs k (Record.zero 258))) ∨
      (∀ x ∈ s.subscriptionSet, x.2 ≠ i.toNat) ∧ s.deleteSubscription p i =
        { s with error := true } := by
  have hi0 : i.toNat ≠ 0 := fun h0 => hi (UInt16.toNat_inj.1 h0)
  rcases (h.subscribed hopen).deleteSubscription_cases (p := p) hi with ⟨k, e, hk, hid, hs⟩ |
    ⟨hno, hs⟩
  · exact .inl ⟨k, e, hk, by rw [pair, hid, if_neg hi0], hs⟩
  · refine .inr ⟨fun x hx => ?_, hs⟩
    obtain ⟨e, he, hpair⟩ := h.mem_set.1 hx
    rw [pair] at hpair
    split at hpair
    · cases hpair
    · cases hpair
      exact hno e he

theorem add (h : SetFile s rs) {t : CString} {i : UInt16} {q : UInt8} (h1 : 1 ≤ t.length)
    (h2 : t.length < 255) (hi : i ≠ 0)
    (hfits : (s.addSubscription p PERSISTENT_DEBUG (some t) i q).subscriptions.length < 65535) :
    ∃ rs', SetFile (s.addSubscription p PERSISTENT_DEBUG (some t) i q) rs' := by
  cases hopen : s.blocked with
  | true =>
    have hs : s.addSubscription p PERSISTENT_DEBUG (some t) i q = s := by
      simp [addSubscription, hopen]
    exact ⟨rs, by rw [hs]; exact h⟩
  | false =>
    rcases h.add_cases (p := p) (q := q) hopen h1 h2 hi with ⟨-, hs⟩ |
      ⟨hno, k, e, hk, -, hl, hpair, hs⟩
    · exact ⟨rs, by rw [hs]; exact h⟩
    · rw [hs] at hfits ⊢
      rw [subscriptions_setSubscriptions] at hfits
      refine ⟨_, h.place hk (by omega) (.inr hl) fun b hb x hx hxe => hno ?_⟩
      rw [← Option.some.inj (hxe.symm.trans hpair)]
      exact h.mem_set.2 ⟨b, hb, hx⟩

theorem delete (h : SetFile s rs) (i : UInt16) : ∃ rs', SetFile (s.deleteSubscription p i) rs' := by
  have hlen := h.table.len
  by_cases hopen : s.blocked = true ∨ i = 0
  · have hs : s.deleteSubscription p i = s := by
      rcases hopen with hopen | h0 <;> simp [deleteSubscription, *]
    exact ⟨rs, by rw [hs]; exact h⟩
  · rw [not_or, Bool.not_eq_true] at hopen
    rcases h.delete_cases (p := p) hopen.1 hopen.2 with ⟨k, e, hk, -, hs⟩ | ⟨-, hs⟩
    · have hlt : k < rs.length := (List.getElem?_eq_some_iff.1 hk).1
      rw [hs]
      refine ⟨_, h.place hlt.le ?_ (.inl rfl) fun b _ x _ hx => ?_⟩
      · rw [SlotTable.length_place hlt.le]; omega
      · rw [EntrySubscription.pair_zero] at hx; cases hx
    · rw [hs]
      exact ⟨rs, h.isIn, h.file, h.table, h.distinct⟩

theorem of_run (h : SubscriptionRun p s) : ∃ rs, SetFile s rs := by
  induction h with
  | empty hin hfile => exact ⟨[], hin, hfile, SubTable.nil, SlotTable.Distinct.nil _⟩
  | add t i q _ h1 h2 hi hfits ih =>
    obtain ⟨rs, ih⟩ := ih
    exact ih.add h1 h2 hi hfits
  | delete i _ ih =>
    obtain ⟨rs, ih⟩ := ih
    exact ih.delete i
  | others ops _ hin hfile ih =>
    obtain ⟨rs, ih⟩ := ih
    exact ⟨rs, hin, hfile.trans ih.file, ih.table, ih.distinct⟩

theorem set_place {k : Nat} (hk : k ≤ rs.length) (e : EntrySubscription) {x : List UInt8 × Nat} :
    x ∈ (s.setSubscriptions (SlotTable.place rs k e)).subscriptionSet ↔
      pair e = some x ∨ ∃ (j : Nat) (b : EntrySubscription), j ≠ k ∧ rs[j]? = some b ∧
      pair b = some x := by
  rw [subscriptionSet, subscriptions_setSubscriptions, List.mem_toFinset,
    SlotTable.mem_keys_place hk]

theorem set_add (h : SetFile s rs) {k : Nat} (hk : k ≤ rs.length) {e : EntrySubscription}
    {x : List UInt8 × Nat} (hfree : ∀ b, rs[k]? = some b → b = Record.zero 258)
    (he : pair e = some x) :
    (s.setSubscriptions (SlotTable.place rs k e)).subscriptionSet = insert x s.subscriptionSet := by
  ext y
  rw [set_place hk, Finset.mem_insert, h.mem_set, he, Option.some.injEq]
  refine or_congr eq_comm ⟨?_, ?_⟩
  · rintro ⟨j, b, -, hb, hy⟩
    exact ⟨b, List.mem_of_getElem? hb, hy⟩
  · rintro ⟨b, hb, hy⟩
    obtain ⟨j, hj⟩ := List.getElem?_of_mem hb
    refine ⟨j, b, ?_, hj, hy⟩
    rintro rfl
    rw [hfree b hj, EntrySubscription.pair_zero] at hy; cases hy

theorem set_delete (h : SetFile s rs) {k : Nat} {e : EntrySubscription} {x : List UInt8 × Nat}
    (hk : rs[k]? = some e) (he : pair e = some x) :
    (s.setSubscriptions (SlotTable.place rs k (Record.zero 258))).subscriptionSet =
      s.subscriptionSet.erase x := by
  ext y
  rw [set_place (List.getElem?_eq_some_iff.1 hk).1.le, Finset.mem_erase, h.mem_set,
    EntrySubscription.pair_zero]
  simp only [reduceCtorEq, false_or]
  constructor
  · rintro ⟨j, b, hj, hb, hy⟩
    refine ⟨?_, b, List.mem_of_getElem? hb, hy⟩
    rintro rfl
    exact hj (h.distinct j k b e y hb hk hy he)
  · rintro ⟨hne, b, hb, hy⟩
    obtain ⟨j, hj⟩ := List.getElem?_of_mem hb
    refine ⟨j, b, ?_, hj, hy⟩
    rintro rfl
    obtain rfl := Option.some.inj (hj.symm.trans hk)
    exact hne (Option.some.inj (hy.symm.trans he))

theorem isSubscribed_iff_set (h : SetFile s rs) (hopen : s.blocked = false) (t : CString) :
    s.isSubscribed PERSISTENT_DEBUG (some t) = true ↔ ∃ i, (t.bytes, i) ∈ s.subscriptionSet := by
  rw [(h.subscribed hopen).isSubscribed_iff, SlotTable.keys, List.mem_filterMap]
  constructor
  · rintro ⟨e, he, hk⟩
    obtain ⟨hl, hname⟩ := h.table.live_of_key he hk
    exact ⟨_, h.mem_set.2 ⟨e, he, by rw [hl.pair_eq, hname]⟩⟩
  · rintro ⟨i, hi⟩
    obtain ⟨e, he, hpair⟩ := h.mem_set.1 hi
    rcases h.table.slot e he with rfl | hl
    · rw [EntrySubscription.pair_zero] at hpair; cases hpair
    · rw [hl.pair_eq] at hpair
      exact ⟨e,
        he, by rw [hl.key_eq]; exact congrArg some (congrArg Prod.fst (Option.some.inj hpair))⟩

end SetFile

/-- The subscription file is a finite set of pairs: adding inserts a pair into a free slot, deleting
erases one pair with the id, and the count and the test for a name are those of the set. -/
theorem subscription_store (h : SubscriptionRun p s) (hopen : s.blocked = false) :
    (SlotTable.keys pair s.subscriptions).Nodup ∧
    (∀ (t : CString) (i : UInt16) (q : UInt8), 1 ≤ t.length → t.length < 255 → i ≠ 0 →
      let s' := s.addSubscription p PERSISTENT_DEBUG (some t) i q
      ((t.bytes, i.toNat) ∈ s.subscriptionSet → s' = s) ∧
      ((t.bytes, i.toNat) ∉ s.subscriptionSet → s'.subscriptionSet =
        insert (t.bytes, i.toNat) s.subscriptionSet ∧
        ∀ (j : Nat) (e : EntrySubscription), s.subscriptions[j]? = some e → pair e ≠ none →
          s'.subscriptions[j]? = some e)) ∧
    (∀ i : UInt16, i ≠ 0 →
      let s' := s.deleteSubscription p i
      ((∃ x ∈ s.subscriptionSet, x.2 = i.toNat) →
        s'.error = false ∧ ∃ x ∈ s.subscriptionSet, x.2 = i.toNat ∧ s'.subscriptionSet =
        s.subscriptionSet.erase x ∧
          ∀ (j : Nat) (e : EntrySubscription), s.subscriptions[j]? = some e → pair e ≠ some x →
            s'.subscriptions[j]? = some e) ∧
      ((∀ x ∈ s.subscriptionSet, x.2 ≠ i.toNat) → s'.fs = s.fs ∧ s'.error = true)) ∧
    s.getClientSubscriptionCount = s.subscriptionSet.card ∧
    ∀ t : CString, s.isSubscribed PERSISTENT_DEBUG (some t) = true ↔
      ∃ i, (t.bytes, i) ∈ s.subscriptionSet := by
  obtain ⟨rs, h⟩ := SetFile.of_run h
  have hnodup : (SlotTable.keys pair s.subscriptions).Nodup := by
    rw [h.subscriptions_eq]
    exact h.distinct.nodup_keys
  refine ⟨hnodup, fun t i q h1 h2 hi => ?_, fun i hi => ?_, ?_, h.isSubscribed_iff_set hopen⟩
  · rcases h.add_cases (p := p) (q := q) hopen h1 h2 hi with ⟨hmem, hs⟩ |
      ⟨hno, k, e, hk, hfree, -, hpair, hs⟩
    · exact ⟨fun _ => hs, fun hno => absurd hmem hno⟩
    · refine ⟨fun hmem => absurd hmem hno, fun _ => ?_⟩
      rw [hs]
      refine ⟨h.set_add hk hfree hpair, fun j b hb hlive => ?_⟩
      rw [h.subscriptions_eq] at hb
      rw [SetFile.subscriptions_setSubscriptions, SlotTable.getElem?_place hk, if_neg, hb]
      rintro rfl
      exact hlive (by rw [hfree b hb, EntrySubscription.pair_zero])
  · rcases h.delete_cases (p := p) hopen hi with ⟨k, e, hk, hpair, hs⟩ | ⟨hno, hs⟩
    · have hmem := h.mem_set.2 ⟨e, List.mem_of_getElem? hk, hpair⟩
      refine ⟨fun _ => ⟨?_, _, hmem, rfl, ?_, fun j b hb hother => ?_⟩, fun hno =>
        absurd rfl (hno _ hmem)⟩
      · rw [hs]; exact (Bool.or_eq_false_iff.1 hopen).2
      · rw [hs]; exact h.set_delete hk hpair
      · rw [h.subscriptions_eq] at hb
        rw [hs, SetFile.subscriptions_setSubscriptions,
          SlotTable.getElem?_place (List.getElem?_eq_some_iff.1 hk).1.le,
          if_neg, hb]
        rintro rfl
        obtain rfl := Option.some.inj (hk.symm.trans hb)
        exact hother hpair
    · refine ⟨?_, fun _ => by rw [hs]; exact ⟨rfl, rfl⟩⟩
      rintro ⟨x, hx, hid⟩
      exact absurd hid (hno x hx)
  · rw [(h.subscribed hopen).getClientSubscriptionCount_eq_keys EntrySubscription.isSome_pair,
      subscriptionSet,
      List.toFinset_card_of_nodup hnodup, h.subscriptions_eq]

end

end Persistent

def topicA : CString := ⟨ascii "a", by decide⟩
def topicB : CString := ⟨ascii "b", by decide⟩

/-- A registered client in its transaction. -/
def subscriber : Persistent :=
  Persistent.setUp.run posix [.begin, .startClientTransaction device1,
    .addClient device1 address1 60]

theorem enumerated_iff_refilled :
    let s :=
      subscriber.run posix [.addSubscription (some topicA) 5 1, .addSubscription (some topicB) 6 0,
        .deleteSubscription 5, .addSubscription (some topicA) 7 1]
    s.enumerated posix = [7, 6] ∧ (s.enumerated posix).Perm s.subscribedIds ∧
      0 ∉ s.enumerated posix := by
  intro s
  have hs : s = subscriber.run posix _ := rfl
  have hrun : s.blocked = false ∧ s.notInClientRegistry = false ∧ s.enumerated posix = [7, 6] ∧
      s.subscribedIds.length < 2 ^ 16 ∧ s.subscriptions.Pairwise fun a b =>
        b.getNat EntrySubscription.topicId ≠ 0 → a.getNat EntrySubscription.topicId ≠ 0 := by
    rw [hs]
    decide +kernel
  obtain ⟨hopen, hin, hvals, hfront⟩ := hrun
  exact ⟨hvals, (Persistent.enumerated_iff hopen hin).2 hfront⟩

/-- After the first of two subscriptions is deleted, the enumeration returns 0 for the other. -/
theorem enumerated_misses_subscription :
    let s :=
      subscriber.run posix [.addSubscription (some topicA) 5 1, .addSubscription (some topicB) 6 0,
        .deleteSubscription 5]
    s.blocked = false ∧ s.notInClientRegistry = false ∧ s.subscribedIds = [6] ∧
      s.enumerated posix = [0] ∧
      ¬ (s.enumerated posix).Perm s.subscribedIds := by
  intro s
  have hs : s = subscriber.run posix _ := rfl
  have hrun : s.blocked = false ∧ s.notInClientRegistry = false ∧ s.subscribedIds = [6] ∧
      s.enumerated posix = [0] := by
    rw [hs]
    decide +kernel
  obtain ⟨hopen, hin, hids, hvals⟩ := hrun
  refine ⟨hopen, hin, hids, hvals, ?_⟩
  rw [hids, hvals]
  decide

theorem unsubscribes_iff_own_id :
    let s :=
      subscriber.run posix [.addSubscription (some topicA) 5 1, .addSubscription (some topicB) 6 0]
    s.isSubscribed PERSISTENT_DEBUG (some topicB) = true ∧
      Persistent.Unsubscribes posix topicB s := by
  intro s
  have hs : s = subscriber.run posix _ := rfl
  have hrun : s.blocked = false ∧ s.notInClientRegistry = false ∧
    s.isSubscribed PERSISTENT_DEBUG (some topicB) = true ∧
      s.subscriptions = [EntrySubscription.make topicA 5 1, EntrySubscription.make topicB 6 0] := by
    rw [hs]
    decide +kernel
  obtain ⟨hopen, hin, ht, hsubs⟩ := hrun
  refine ⟨ht, (Persistent.unsubscribes_iff hopen hin ht).2
    ⟨1, EntrySubscription.make topicB 6 0, by rw [hsubs]; rfl, by decide +kernel,
      ?_, by decide +kernel, ?_, by decide⟩⟩
  · rintro (_ | _ | j) b hj hb <;> rw [hsubs] at hb
    · obtain rfl := Option.some.inj hb; decide +kernel
    · exact absurd rfl hj
    · simp at hb
  · rintro (_ | j) b hj hb <;> rw [hsubs] at hb
    · obtain rfl := Option.some.inj hb; decide +kernel
    · omega

/-- Two names with one topic id: the name that was subscribed first goes. A name with two topic ids
stays. -/
theorem unsubscribed_other_topic :
    let s :=
      subscriber.run posix [.addSubscription (some topicA) 5 1, .addSubscription (some topicB) 5 0]
    let s₂ :=
      subscriber.run posix [.addSubscription (some topicA) 5 1, .addSubscription (some topicA) 6 1]
    (s.isSubscribed PERSISTENT_DEBUG (some topicB) = true ∧
      ¬ Persistent.Unsubscribes posix topicB s ∧
      (s.deleteSubscription posix 5).isSubscribed PERSISTENT_DEBUG (some topicA) = false) ∧
    s₂.isSubscribed PERSISTENT_DEBUG (some topicA) = true ∧
    ¬ Persistent.Unsubscribes posix topicA s₂ := by
  intro s s₂
  have hs : s = subscriber.run posix _ := rfl
  have hs₂ : s₂ = subscriber.run posix _ := rfl
  have hrun : s.isSubscribed PERSISTENT_DEBUG (some topicB) = true ∧
      (s.deleteSubscription posix
        (UInt16.ofNat (s.getSubscriptionTopicId (some topicB)))).isSubscribed
        PERSISTENT_DEBUG (some topicB) = true ∧
      (s.deleteSubscription posix 5).isSubscribed PERSISTENT_DEBUG (some topicA) = false := by
    rw [hs]
    decide +kernel
  have hrun₂ : s₂.isSubscribed PERSISTENT_DEBUG (some topicA) = true ∧
      (s₂.deleteSubscription posix
        (UInt16.ofNat (s₂.getSubscriptionTopicId (some topicA)))).isSubscribed
        PERSISTENT_DEBUG (some topicA) = true := by
    rw [hs₂]
    decide +kernel
  obtain ⟨ht, hstays, hgone⟩ := hrun
  obtain ⟨ht₂, hstays₂⟩ := hrun₂
  refine ⟨⟨ht, fun h => ?_, hgone⟩, ht₂, fun h => ?_⟩
  · rw [h.gone] at hstays; cases hstays
  · rw [h.gone] at hstays₂; cases hstays₂

theorem subscription_store_reopened :
    let s := (subscriber.addSubscription posix PERSISTENT_DEBUG (some topicA) 5 1).addSubscription
      posix PERSISTENT_DEBUG (some topicB) 5 0
    let s := ((s.deleteSubscription posix 5).deleteSubscription posix 7).run posix
      [.applyTransaction, .startClientTransaction device1]
    s.subscriptionSet = {(topicB.bytes, 5)} ∧
      s.getClientSubscriptionCount = s.subscriptionSet.card := by
  intro s₀ s
  have hstart : Persistent.SubscriptionRun posix subscriber :=
    .empty (by decide +kernel) (by decide +kernel)
  have hadd := hstart.add topicA 5 1 (by decide) (by decide) (by decide) (by decide +kernel)
  have hadd₂ := hadd.add topicB 5 0 (by decide) (by decide) (by decide) (by decide +kernel)
  have hrun :=
    ((hadd₂.delete 5).delete 7).others [.applyTransaction, .startClientTransaction device1]
      (by decide +kernel) (by decide +kernel)
  exact ⟨by decide +kernel, (Persistent.subscription_store hrun (by decide +kernel)).2.2.2.1⟩

end SnGateway
