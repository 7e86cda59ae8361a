import SnGateway.SubscriptionStore

/-!
# What the lookups of a subscription file answer

A record of a subscription file stands for a pair of topic name and topic id, and the lookups by
name answer with the first record that has the name. So a subscription is seen as it was made unless
its pair was there before, when nothing is written, or a record in front of it has the name
(`latest_subscribe_iff`). The three lookups by name agree when they look at all
(`lookups_agree_iff`).
-/

namespace SnGateway
open RecordStore Persistent

variable {p : Platform} {s : Persistent} {rs : List EntrySubscription} {t : CString} {i : UInt16}
    {q : UInt8}

namespace Persistent

/-! ### The slot of a new subscription -/

/-- The slot `add_subscription` writes in a file of the records `rs`. -/
def subscriptionSlot (rs : List EntrySubscription) : Nat :=
  (lastIdx? EntrySubscription.isEmpty rs).getD rs.length % 2 ^ 16

/-- There is a free slot, or the `uint16_t` counter tells where the last record ends. -/
def HasRoom (rs : List EntrySubscription) : Prop :=
  (∃ e ∈ rs, EntrySubscription.isEmpty e = true) ∨ rs.length % 2 ^ 16 ≠ 2 ^ 16 - 1

theorem subscriptionSlot_le : subscriptionSlot rs ≤ rs.length := by
  obtain ⟨k, hk, hle, -⟩ := lastIdx?_slot EntrySubscription.isEmpty rs
  rw [subscriptionSlot, hk]
  exact (Nat.mod_le _ _).trans hle

theorem firstEmptySpace_of_room (h : HasRoom rs) :
    firstEmptySpace ((rs.length + 1) % 2 ^ 16) ((lastIdx? EntrySubscription.isEmpty rs).map fun k =>
      k % 2 ^ 16) =
        (subscriptionSlot rs : Nat) := by
  rw [subscriptionSlot]
  cases hl : lastIdx? EntrySubscription.isEmpty rs with
  | some k => rfl
  | none =>
    have hfull := lastIdx?_eq_none.1 hl
    have hne : rs.length % 2 ^ 16 ≠ 2 ^ 16 - 1 := by
      rcases h with ⟨e, he, hempty⟩ | h
      · rw [hfull e he] at hempty; cases hempty
      · exact h
    simp only [firstEmptySpace, Option.map_none, Option.getD_none]
    omega

theorem addSubscription_found (hopen : s.blocked = false) (hin : s.notInClientRegistry = false)
    (ht : checkTopicName (some t) = some t) (hi : i ≠ 0)
    (hfile : s.fs.contents (s.clientFile .subscribe) = encode rs)
    (hex : ∃ e ∈ rs, EntrySubscription.Is t i e) :
    s.next p (.addSubscription (some t) i q) = s := by
  obtain ⟨-, -, hlt⟩ := checkTopicName_eq_some ht
  show s.addSubscription p PERSISTENT_DEBUG (some t) i q = s
  unfold addSubscription
  rw [if_neg (by simp [hopen]), if_neg (by simp [hin]), ht]
  dsimp only
  rw [if_neg hi, hfile]
  rcases (addSubscriptionScanner PERSISTENT_DEBUG t i).scan_whole (by omega) (Nat.two_pow_pos 16)
    (encode rs) with
    ⟨k, e, -, -, -, hscan⟩ | ⟨hno, -⟩
  · rw [hscan]
  · obtain ⟨e, he, his⟩ := hex
    rw [whole_encode (by omega)] at hno
    have := (EntrySubscription.stops_addSubscription hi hlt).2 his
    rw [hno e he] at this
    cases this

theorem addSubscription_new (hopen : s.blocked = false) (hin : s.notInClientRegistry = false)
    (ht : checkTopicName (some t) = some t) (hi : i ≠ 0)
    (hfile : s.fs.contents (s.clientFile .subscribe) = encode rs) (hroom : HasRoom rs)
    (hno : ∀ e ∈ rs, ¬ EntrySubscription.Is t i e) :
    s.next p (.addSubscription (some t) i q) =
      s.setSubscriptions
        (SlotTable.place rs (subscriptionSlot rs) (EntrySubscription.make t i q)) := by
  obtain ⟨-, -, hlt⟩ := checkTopicName_eq_some ht
  have hstops : ∀ e ∈ rs, (addSubscriptionScanner PERSISTENT_DEBUG t i).stops e = false := by
    intro e he
    rw [← Bool.not_eq_true, EntrySubscription.stops_addSubscription hi hlt]
    exact hno e he
  have hslot : subscriptionSlot rs < 2 ^ 16 := Nat.mod_lt _ (Nat.two_pow_pos 16)
  show s.addSubscription p PERSISTENT_DEBUG (some t) i q = _
  unfold addSubscription
  rw [if_neg (by simp [hopen]), if_neg (by simp [hin]), ht]
  dsimp only
  rw [if_neg hi, hfile, Scanner.scan_encode_mod _ (by omega) rs (Nat.two_pow_pos 16) hstops]
  dsimp only
  rw [show (addSubscriptionScanner PERSISTENT_DEBUG t i).hole = EntrySubscription.isEmpty from rfl,
    show (addSubscriptionScanner PERSISTENT_DEBUG t i).counterMod = 2 ^ 16 from rfl,
      firstEmptySpace_of_room hroom,
    sizeMul_natCast (by omega), Files.writeAt_encode p _ hfile subscriptionSlot_le]
  rfl

/-! ### The lookups by name -/

theorem getSubscriptionQos_eq (hopen : s.blocked = false) (hin : s.notInClientRegistry = false)
    (ht : checkTopicName (some t) = some t) : s.getSubscriptionQos (some t) =
      ((s.subscriptions.find? (EntrySubscription.hasName t)).map fun e =>
        Int.bmod (e.getNat EntrySubscription.qos) (2 ^ 8)).getD (-1) := by
  unfold getSubscriptionQos
  rw [if_neg (by simp [hopen]), if_neg (by simp [hin]), ht]
  dsimp only
  rw [findSubscription_eq]
  cases s.subscriptions.find? (EntrySubscription.hasName t) with
  | none => rfl
  | some e => rw [Option.map_some, Option.getD_some]

theorem getSubscriptionTopicId_eq (hopen : s.blocked = false) (hin : s.notInClientRegistry = false)
    (ht : checkTopicName (some t) = some t) : s.getSubscriptionTopicId (some t) =
      ((s.subscriptions.find? (EntrySubscription.hasName t)).map fun e =>
        e.getNat EntrySubscription.topicId).getD 0 := by
  unfold getSubscriptionTopicId
  rw [if_neg (by simp [hopen]), if_neg (by simp [hin]), ht]
  dsimp only
  rw [findSubscription_eq]
  cases s.subscriptions.find? (EntrySubscription.hasName t) with
  | none => rfl
  | some e => rw [Option.map_some, Option.getD_some]

/-- The subscription is seen with the given qos and topic id. -/
def Sees (t : CString) (i : UInt16) (q : UInt8) (s : Persistent) : Prop :=
  s.getSubscriptionQos (some t) = q.toNat ∧ s.getSubscriptionTopicId (some t) = i.toNat

instance : Decidable (Sees t i q s) := inferInstanceAs (Decidable (_ ∧ _))

theorem sees_iff_find (hopen : s.blocked = false) (hin : s.notInClientRegistry = false)
    (ht : checkTopicName (some t) = some t) (hq : q.toNat ≤ 2) :
    Sees t i q s ↔ ∃ e, s.subscriptions.find? (EntrySubscription.hasName t) = some e ∧
      e.getNat EntrySubscription.topicId = i.toNat ∧ e.getNat EntrySubscription.qos = q.toNat := by
  rw [Sees, getSubscriptionQos_eq hopen hin ht, getSubscriptionTopicId_eq hopen hin ht]
  cases s.subscriptions.find? (EntrySubscription.hasName t) with
  | none =>
    simp only [Option.map_none, Option.getD_none, reduceCtorEq, false_and, exists_false]
  | some e =>
    have hlt : e.getNat EntrySubscription.qos < 256 :=
      Record.getNat_lt e EntrySubscription.qos (by decide)
    have hbmod : Int.bmod (e.getNat EntrySubscription.qos) (2 ^ 8) = q.toNat ↔
        e.getNat EntrySubscription.qos = q.toNat := by
      rw [Int.bmod_def]
      split <;> omega
    simp only [Option.map_some, Option.getD_some, Option.some.injEq, exists_eq_left', hbmod]
    exact and_comm

end Persistent

namespace EntrySubscription

theorem hasName_of_is {e : EntrySubscription} (ht : t.length < 255) (h : Is t i e) :
    hasName t e = true := by
  rw [hasName, h.1]
  exact decide_eq_true ⟨ht, rfl⟩

theorem is_of_hasName {e : EntrySubscription} (h : hasName t e = true)
    (hid : e.getNat topicId = i.toNat) : Is t i e :=
  ⟨(of_decide_eq_true h).2, hid⟩

theorem getNat_qos_make (ht : t.length < 255) : (make t i q).getNat qos = q.toNat := by
  have hfit : (t.bytes ++ [0]).length ≤ topicName.len := by rw [List.length_append]; exact ht
  rw [make, Record.getNat, Record.strcpy, Record.get_putAt_of_field_disjoint (by decide) hfit,
    ← Record.getNat,
    Record.getNat_putNat_self _ (by decide)]
  exact Nat.mod_eq_of_lt q.toNat_lt

end EntrySubscription

/-- A subscription is seen as it was made exactly when the first record with the name was made so
before, or its pair is new and no record with the name is in front of the slot that is written. -/
theorem latest_subscribe_iff (hopen : s.blocked = false) (hin : s.notInClientRegistry = false)
    (hfile : s.fs.contents (s.clientFile .subscribe) = encode rs) (hroom : HasRoom rs)
    (h1 : 1 ≤ t.length) (h2 : t.length < 255) (hi : i ≠ 0) (hq : q.toNat ≤ 2) :
    Sees t i q (s.next p (.addSubscription (some t) i q)) ↔
      (∃ e, rs.find? (EntrySubscription.hasName t) = some e ∧
        e.getNat EntrySubscription.topicId = i.toNat ∧
        e.getNat EntrySubscription.qos = q.toNat) ∨
      (∀ e ∈ rs, ¬ EntrySubscription.Is t i e) ∧
        ∀ e ∈ rs.take (subscriptionSlot rs), EntrySubscription.hasName t e = false := by
  have ht := checkTopicName_of_length h1 h2
  have hsubs : s.subscriptions = rs := by rw [subscriptions, hfile, whole_encode (by omega)]
  by_cases hex : ∃ e ∈ rs, EntrySubscription.Is t i e
  · -- nothing is written
    have hnot : ¬ ∀ e ∈ rs, ¬ EntrySubscription.Is t i e := by
      obtain ⟨e, he, his⟩ := hex
      exact fun h => h e he his
    rw [addSubscription_found hopen hin ht hi hfile hex, sees_iff_find hopen hin ht hq, hsubs]
    exact ⟨.inl, fun h => h.resolve_right fun h => hnot h.1⟩
  · have hno : ∀ e ∈ rs, ¬ EntrySubscription.Is t i e := fun e he his => hex ⟨e, he, his⟩
    have hfirst : ¬ ∃ e, rs.find? (EntrySubscription.hasName t) = some e ∧
        e.getNat EntrySubscription.topicId = i.toNat ∧ e.getNat EntrySubscription.qos =
          q.toNat := by
      rintro ⟨e, he, hid, -⟩
      exact hno e (List.mem_of_find?_eq_some he)
        (EntrySubscription.is_of_hasName (List.find?_some he) hid)
    have hself : EntrySubscription.hasName t (EntrySubscription.make t i q) = true :=
      EntrySubscription.hasName_of_is h2 (EntrySubscription.live_make q ht hi).2
    rw [addSubscription_new hopen hin ht hi hfile hroom hno,
      sees_iff_find (show (s.setSubscriptions _).blocked = false from hopen) hin ht hq,
      SetFile.subscriptions_setSubscriptions, SlotTable.find?_place subscriptionSlot_le,
      if_pos hself]
    cases hfront : (rs.take (subscriptionSlot rs)).find? (EntrySubscription.hasName t) with
    | some e =>
      -- the record in front has the name, but not the id
      have he := List.mem_of_find?_eq_some hfront
      have hid : e.getNat EntrySubscription.topicId ≠ i.toNat := fun hid =>
        hno e (List.mem_of_mem_take he)
          (EntrySubscription.is_of_hasName (List.find?_some hfront) hid)
      constructor
      · rintro ⟨e', he', hid', -⟩
        cases he'
        exact absurd hid' hid
      · rintro (h | ⟨-, h⟩)
        · exact absurd h hfirst
        · have := h e he
          rw [List.find?_some hfront] at this
          cases this
    | none =>
      have hnone : ∀ e ∈ rs.take (subscriptionSlot rs), EntrySubscription.hasName t e = false := by
        intro e he
        simpa using List.find?_eq_none.1 hfront e he
      refine ⟨fun _ => .inr ⟨hno, hnone⟩, fun _ =>
        ⟨_, rfl, ?_, EntrySubscription.getNat_qos_make h2⟩⟩
      exact (EntrySubscription.live_make q ht hi).2.2

theorem latest_subscribe_iff_refilled :
    let s :=
      subscriber.run posix [.addSubscription (some topicA) 5 1, .addSubscription (some topicB) 6 0,
        .deleteSubscription 5]
    Sees topicA 7 2 (s.next posix (.addSubscription (some topicA) 7 2)) := by
  intro s
  have hfile : s.fs.contents (s.clientFile .subscribe) =
      encode [Record.zero 258, EntrySubscription.make topicB 6 0] := by decide +kernel
  have hroom : HasRoom [Record.zero 258, EntrySubscription.make topicB 6 0] :=
    .inl ⟨Record.zero 258, List.mem_cons_self, by decide +kernel⟩
  have hnone : ∀ e ∈ [Record.zero 258, EntrySubscription.make topicB 6 0],
      EntrySubscription.hasName topicA e = false := by
    decide +kernel
  refine (latest_subscribe_iff (by decide +kernel) (by decide +kernel) hfile hroom (by decide)
    (by decide) (by decide) (by decide)).2
    (.inr ⟨fun e he his => ?_, fun e he => hnone e (List.mem_of_mem_take he)⟩)
  have hname : EntrySubscription.hasName topicA e = true :=
    EntrySubscription.hasName_of_is (by decide) his
  rw [hnone e he] at hname
  cases hname

/-- A client that subscribes again keeps the qos and the topic id of its first subscription. -/
theorem resubscribe_keeps_first :
    let s := subscriber.run posix [.addSubscription (some topicA) 5 0]
    s.blocked = false ∧ s.notInClientRegistry = false ∧
      ¬ Sees topicA 5 2 (s.next posix (.addSubscription (some topicA) 5 2)) ∧
      ¬ Sees topicA 6 0 (s.next posix (.addSubscription (some topicA) 6 0)) := by
  decide +kernel

/-! ### The three lookups -/

/-- A name is subscribed exactly when it has a topic id, and exactly when it has a qos. -/
def LookupsAgree (topicName : Option CString) (s : Persistent) : Prop :=
  (s.isSubscribed PERSISTENT_DEBUG topicName = true ↔ s.getSubscriptionTopicId topicName ≠ 0) ∧
    (s.isSubscribed PERSISTENT_DEBUG topicName = true ↔ 0 ≤ s.getSubscriptionQos topicName)

/-- The guards of `get_subscription_qos` answer 0, which is a qos. -/
theorem not_lookupsAgree_of_guard {n : Option CString}
    (h : s.blocked = true ∨ s.notInClientRegistry = true ∨ checkTopicName n = none) :
    ¬ LookupsAgree n s := by
  have hsub : s.isSubscribed PERSISTENT_DEBUG n = false := by
    unfold isSubscribed
    rcases h with h | h | h <;> simp [h]
  have hqos : s.getSubscriptionQos n = 0 := by
    unfold getSubscriptionQos
    rcases h with h | h | h <;> simp [h]
  rintro ⟨-, hagree⟩
  rw [hsub, hqos] at hagree
  exact absurd (hagree.2 (le_refl _)) Bool.false_ne_true

/-- The lookups agree exactly behind their guards: in a transaction without error on a registered
client, for a name that is not empty and not too long (when the first record with the name has an id
and a qos). -/
theorem lookups_agree_iff (n : Option CString) :
    LookupsAgree n s ↔ s.blocked = false ∧ s.notInClientRegistry = false ∧ ∃ t,
      checkTopicName n = some t ∧
      ∀ e, s.subscriptions.find? (EntrySubscription.hasName t) = some e →
        e.getNat EntrySubscription.topicId ≠ 0 ∧ e.getNat EntrySubscription.qos < 128 := by
  by_cases hguard : s.blocked = true ∨ s.notInClientRegistry = true ∨ checkTopicName n = none
  · refine iff_of_false (not_lookupsAgree_of_guard hguard) ?_
    rintro ⟨hopen, hin, t, ht, -⟩
    rcases hguard with h | h | h
    · rw [hopen] at h; cases h
    · rw [hin] at h; cases h
    · rw [ht] at h; cases h
  rw [not_or, not_or] at hguard
  obtain ⟨hb, hn, hc⟩ := hguard
  have hopen := blocked_of_not hb
  have hin := blocked_of_not hn
  obtain ⟨t, ht⟩ := Option.ne_none_iff_exists'.1 hc
  obtain rfl : n = some t := by
    cases n with
    | none => cases ht
    | some u => rw [(checkTopicName_eq_some ht).1]
  have hsub : s.isSubscribed PERSISTENT_DEBUG (some t) = true ↔
      ∃ e, s.subscriptions.find? (EntrySubscription.hasName t) = some e := by
    rw [isSubscribed_iff_find hopen hin, ← Option.isSome_iff_exists, List.find?_isSome]
    exact and_iff_right ht
  rw [LookupsAgree, hsub, getSubscriptionTopicId_eq hopen hin ht,
    getSubscriptionQos_eq hopen hin ht]
  cases hfind : s.subscriptions.find? (EntrySubscription.hasName t) with
  | none => simp [hopen, hin, ht, hfind]
  | some e =>
    have hlt : e.getNat EntrySubscription.qos < 256 :=
      Record.getNat_lt e EntrySubscription.qos (by decide)
    have hbmod : 0 ≤ Int.bmod (e.getNat EntrySubscription.qos) (2 ^ 8) ↔
        e.getNat EntrySubscription.qos < 128 := by
      rw [Int.bmod_def]
      split <;> omega
    simp only [Option.map_some, Option.getD_some, hbmod, hopen, hin, ht, hfind, Option.some.injEq,
      exists_eq', true_iff,
      exists_eq_left', true_and, forall_eq']

/-- Without a transaction a name that is not subscribed has the qos 0. -/
theorem unsubscribed_has_qos :
    setUp.isSubscribed PERSISTENT_DEBUG (some topicA) = false ∧
      setUp.getSubscriptionQos (some topicA) = 0 ∧
      ¬ LookupsAgree (some topicA) setUp :=
  ⟨rfl, rfl, not_lookupsAgree_of_guard (.inl rfl)⟩

end SnGateway
