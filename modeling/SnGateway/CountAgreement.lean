import SnGateway.SlotReuse
import SnGateway.GlobalCounts
import SnGateway.ClientSubscriptions
import Mathlib.Data.Finset.Card

/-!
# Gateway-wide counts and the clients' subscriptions

The core counts a subscription in `MQTT.SUB` when it adds it to a client's file and takes it out
again when it deletes it (`CoreAction`). As long as the gateway restarts only while no client has a
subscription, the count of a topic is the number of clients that are subscribed to it
(`counts_agree`): `begin` removes `MQTT.SUB` and keeps the files of the clients.

The clients are counted by their slots (`holders`). A free slot has no files, so a slot with
subscriptions is the slot of a client.
-/

namespace SnGateway
open RecordStore Persistent

namespace Persistent

def registered (s : Persistent) : List EntryClient :=
  s.records.filter fun e => e.text EntryClient.clientId ≠ []

def topicsOf (s : Persistent) (e : EntryClient) : List (List UInt8) :=
  EntrySubscription.topics (s.fs.contents (EntryClient.fileName e .subscribe))

def clientTopics (s : Persistent) : List (List UInt8) := s.topicsOf s.entryClient

/-- The number of registered clients that are subscribed to `t`. -/
def subscriberCount (s : Persistent) (t : CString) : Nat :=
  s.registered.countP fun e => t.bytes ∈ s.topicsOf e

def subscribedTopics (s : Persistent) : List (List UInt8) := (s.registered.flatMap s.topicsOf).dedup

def slotTopics (s : Persistent) (j : Nat) : List (List UInt8) :=
  EntrySubscription.topics (s.fs.contents (slotFile j .subscribe))

/-- The number of slots whose subscription file has the topic `k`. -/
def holders (s : Persistent) (k : List UInt8) : Nat :=
  ((Finset.range (2 ^ 16)).filter fun j => k ∈ s.slotTopics j).card

end Persistent

variable {p : Platform} {g : Option Tx} {s s' s₀ : Persistent} {rs : List EntryClient} {op : Op}

/-! ### Counting clients by slots -/

theorem countP_eq_card {α : Type} {q : α → Bool} {l : List α} {n : Nat} (hn : l.length ≤ n)
    (r : Nat → Prop) [DecidablePred r] (h : ∀ j, r j ↔ ∃ a, l[j]? = some a ∧ q a = true) :
    l.countP q = ((Finset.range n).filter r).card := by
  induction l using List.reverseRecOn generalizing r with
  | nil =>
    rw [Finset.filter_false_of_mem fun j _ hj => by simpa using (h j).1 hj]
    rfl
  | append_singleton l a ih =>
    rw [List.length_append, List.length_singleton] at hn
    have hl : ∀ j, (r j ∧ j ≠ l.length) ↔ ∃ b, l[j]? = some b ∧ q b = true := by
      intro j
      rw [h]
      constructor
      · rintro ⟨⟨b, hb, hq⟩, hne⟩
        refine ⟨b, ?_, hq⟩
        have hlt : j < l.length := by
          have := (List.getElem?_eq_some_iff.1 hb).1
          rw [List.length_append, List.length_singleton] at this
          omega
        rw [List.getElem?_append_left hlt] at hb
        exact hb
      · rintro ⟨b, hb, hq⟩
        have hlt := (List.getElem?_eq_some_iff.1 hb).1
        exact ⟨⟨b, by rw [List.getElem?_append_left hlt]; exact hb, hq⟩, hlt.ne⟩
    rw [List.countP_append, ih (by omega) (fun j => r j ∧ j ≠ l.length) hl, List.countP_singleton]
    have hlast : r l.length ↔ q a = true := by
      rw [h, List.getElem?_append_right (le_refl _), Nat.sub_self]
      simp
    by_cases hq : q a = true
    · have hfilter : (Finset.range n).filter r =
          insert l.length ((Finset.range n).filter fun j => r j ∧ j ≠ l.length) := by
        ext j
        simp only [Finset.mem_filter, Finset.mem_range, Finset.mem_insert]
        by_cases hj : j = l.length
        · simp [hj, hlast.2 hq]; omega
        · simp [hj]
      rw [if_pos hq, hfilter, Finset.card_insert_of_notMem (by simp)]
    · have hfilter : (Finset.range n).filter r = (Finset.range n).filter fun j => r j ∧
          j ≠ l.length := by
        refine Finset.filter_congr fun j _ => ⟨fun hj => ⟨hj, ?_⟩, fun hj => hj.1⟩
        rintro rfl
        exact hq (hlast.1 hj)
      rw [if_neg hq, hfilter, Nat.add_zero]

theorem topics_nil : EntrySubscription.topics [] = [] := EntrySubscription.topics_encode []

namespace RegInv

theorem live_of_topic (h : RegInv g s rs) (hfree : FreeSlots s) {j : Nat} {k : List UInt8}
    (hk : k ∈ s.slotTopics j) : ∃ e, rs[j]? = some e ∧ Live j e := by
  by_contra hno
  have hslot : FreeSlot s.records j := by
    intro e he
    rw [records_of_contents h.file] at he
    exact (h.table.slot j e he).resolve_right fun hl => hno ⟨e, he, hl⟩
  rw [slotTopics, Files.contents_of_none (hfree j hslot .subscribe), topics_nil] at hk
  cases hk

theorem topicsOf_eq {j : Nat} {e : EntryClient} (hl : Live j e) :
    s.topicsOf e = s.slotTopics j := by
  rw [topicsOf, hl.fileName, slotTopics]

theorem subscriberCount_eq (h : RegInv g s rs) (hfree : FreeSlots s) (t : CString) :
    s.subscriberCount t = s.holders t.bytes := by
  have hlen := h.table.len
  rw [subscriberCount, registered, records_of_contents h.file, List.countP_filter, holders]
  refine countP_eq_card (by omega) _ fun j => ?_
  simp only [Bool.and_eq_true, decide_eq_true_eq]
  constructor
  · intro hk
    obtain ⟨e, he, hl⟩ := h.live_of_topic hfree hk
    exact ⟨e, he, by rw [topicsOf_eq hl]; exact hk, hl.id_ne⟩
  · rintro ⟨e, he, hk, hid⟩
    rcases h.table.slot j e he with rfl | hl
    · exact absurd text_clientId_zero hid
    · rw [← topicsOf_eq hl]; exact hk

theorem mem_subscribedTopics (h : RegInv g s rs) (hfree : FreeSlots s) {j : Nat} {k : List UInt8}
    (hk : k ∈ s.slotTopics j) : k ∈ s.subscribedTopics := by
  obtain ⟨e, he, hl⟩ := h.live_of_topic hfree hk
  rw [subscribedTopics, List.mem_dedup, List.mem_flatMap]
  refine ⟨e, ?_, by rw [topicsOf_eq hl]; exact hk⟩
  rw [registered, records_of_contents h.file, List.mem_filter]
  exact ⟨List.mem_of_getElem? he, by simpa using hl.id_ne⟩

end RegInv

theorem holders_insert {i : Nat} {t : List UInt8} (hi : i < 2 ^ 16)
    (hframe : ∀ j, j ≠ i → s'.slotTopics j = s.slotTopics j)
    (hchange : ∀ k, k ≠ t → (k ∈ s'.slotTopics i ↔ k ∈ s.slotTopics i)) (hin : t ∈ s'.slotTopics i)
    (hnew : t ∉ s.slotTopics i) (k : List UInt8) :
    s'.holders k = if k = t then s.holders k + 1 else s.holders k := by
  have hmem : ∀ j k, k ∈ s'.slotTopics j ↔ k ∈ s.slotTopics j ∨ (j = i ∧ k = t) := by
    intro j k
    by_cases hj : j = i
    · subst hj
      by_cases hk : k = t
      · subst hk; simp only [hin, and_self, or_true]
      · simp only [hchange k hk, hk, and_false, or_false]
    · simp only [hframe j hj, hj, false_and, or_false]
  rw [holders, holders]
  split
  · next hk =>
    subst hk
    have hfilter : ((Finset.range (2 ^ 16)).filter fun j => k ∈ s'.slotTopics j) =
        insert i ((Finset.range (2 ^ 16)).filter fun j => k ∈ s.slotTopics j) := by
      ext j
      simp only [Finset.mem_filter, Finset.mem_range, Finset.mem_insert, hmem]
      by_cases hj : j = i
      · simp only [hj, hi, true_and, and_true, or_true, true_or]
      · simp only [hj, false_and, or_false, false_or]
    have hnot : i ∉ (Finset.range (2 ^ 16)).filter fun j => k ∈ s.slotTopics j := by
      rw [Finset.mem_filter]
      exact fun h => hnew h.2
    rw [hfilter, Finset.card_insert_of_notMem hnot]
  · next hk =>
    have hfilter : ((Finset.range (2 ^ 16)).filter fun j => k ∈ s'.slotTopics j) =
        (Finset.range (2 ^ 16)).filter fun j => k ∈ s.slotTopics j := by
      refine Finset.filter_congr fun j _ => ?_
      rw [hmem]
      simp only [hk, and_false, or_false]
    rw [hfilter]

/-! ### The subscription files -/

/-- Every slot's subscription file is a table of subscriptions. -/
def SubFiles (s : Persistent) : Prop :=
  ∀ j, ∃ subs : List EntrySubscription, s.fs.contents (slotFile j .subscribe) = encode subs ∧
    SubTable subs

theorem SubFiles.congr (h : SubFiles s)
    (hfs : ∀ j, s'.fs.contents (slotFile j .subscribe) = s.fs.contents (slotFile j .subscribe)) :
    SubFiles s' := by
  intro j
  obtain ⟨subs, hfile, htable⟩ := h j
  exact ⟨subs, (hfs j).trans hfile, htable⟩

namespace RegInv

theorem clientFile_ne (h : RegInv g s rs) (hopen : s.blocked = false) {x y : FileEnding}
    (hxy : x ≠ y) (j : Nat) : slotFile j y ≠ s.clientFile x := by
  rcases h.clientFile_cases hopen with ⟨i, -, -, -, hf⟩ | ⟨-, hf⟩
  · rw [hf]; exact fun he => hxy (slotFile_injective he).2.symm
  · rw [hf]; exact bytes_ne_slotFile x y j

theorem mqttSub_ne_clientFile (h : RegInv g s rs) (hopen : s.blocked = false) (x : FileEnding) :
    mqttSub ≠ s.clientFile x := by
  rcases h.clientFile_cases hopen with ⟨i, -, -, -, hf⟩ | ⟨-, hf⟩
  · rw [hf]; exact (slotFile_ne_mqttSub i x).symm
  · rw [hf]; cases x <;> decide

theorem subscribe_frame (h : RegInv g s rs) (hop : op.isRegistry = false) (j : Nat)
    (hj : op.ending = some .subscribe → s.blocked = false →
      slotFile j .subscribe ≠ s.clientFile .subscribe) :
    (s.next p op).fs (slotFile j .subscribe) = s.fs (slotFile j .subscribe) := by
  have hout : Outcome p s op (s.next p op) := outcome_step PERSISTENT_DEBUG hop
  revert hout
  generalize s.next p op = u
  intro hout
  cases hout with
  | same | online | raise => rfl
  | own x fs' hx hopen hfs =>
    refine hfs _ ?_
    by_cases hxs : x = .subscribe
    · subst hxs; exact hj hx hopen
    · exact h.clientFile_ne hopen hxs j
  | shared fs' _ _ hfs => exact hfs _ (slotFile_ne_mqttSub j _)
  | fallThrough k _ hopen _ _ => exact Files.writeAt_ne p _ _ (h.clientFile_ne hopen (by decide) j)

theorem mqttSub_frame (h : RegInv g s rs) (hop : op.isRegistry = false)
    (hcount : op.isCounting = false) : (s.next p op).fs mqttSub = s.fs mqttSub := by
  have hout : Outcome p s op (s.next p op) := outcome_step PERSISTENT_DEBUG hop
  revert hout
  generalize s.next p op = u
  intro hout
  cases hout with
  | same | online | raise => rfl
  | own x fs' _ hopen hfs => exact hfs _ (h.mqttSub_ne_clientFile hopen x)
  | shared fs' hc => rw [hcount] at hc; cases hc
  | fallThrough k _ hopen _ _ => exact Files.writeAt_ne p _ _ (h.mqttSub_ne_clientFile hopen _)

theorem client_slot (h : RegInv g s rs) (hex : s.clientExist = true) :
    s.blocked = false ∧ s.notInClientRegistry = false ∧
      ∃ i, i < 2 ^ 16 ∧ rs[i]? = some s.entryClient ∧ Live i s.entryClient := by
  have hopen : s.blocked = false := by
    cases hb : s.blocked with
    | true => simp [clientExist, hb] at hex
    | false => rfl
  have hin : s.notInClientRegistry = false := by simpa [clientExist, hopen] using hex
  obtain ⟨t, i, -, hslot, hlive, -⟩ := h.slot_of_registered hopen hin
  have := RegTable.index_lt hslot
  have hlen := h.table.len
  exact ⟨hopen, hin, i, by omega, hslot, hlive⟩

theorem subscribed_of_slot (hs : SubFiles s) {i : Nat} (hopen : s.blocked = false)
    (hin : s.notInClientRegistry = false) (hl : Live i s.entryClient) :
    ∃ subs, Subscribed s subs ∧ s.clientFile .subscribe = slotFile i .subscribe ∧
      s.clientTopics = SlotTable.keys EntrySubscription.key subs := by
  obtain ⟨subs, hfile, htable⟩ := hs i
  have hname : s.clientFile .subscribe = slotFile i .subscribe := hl.fileName .subscribe
  refine ⟨subs, ⟨hopen, hin, by rw [hname]; exact hfile, htable⟩, hname, ?_⟩
  rw [clientTopics, topicsOf_eq hl, slotTopics, hfile, EntrySubscription.topics_encode]

/-- An operation on subscriptions changes at most one topic, in the client's own slot. -/
theorem subscription_op (h : RegInv g s rs) (hs : SubFiles s) (hop : op.ending = some .subscribe)
    (hex : s.clientExist = true)
    (hfits : ((s.next p op).fs.contents (s.clientFile .subscribe)).length ≤ 65534 * 258) :
    SubFiles (s.next p op) ∧ ∃ i n, i < 2 ^ 16 ∧ s.clientTopics = s.slotTopics i ∧
      (s.next p op).clientTopics = (s.next p op).slotTopics i ∧
      (∀ j, j ≠ i → (s.next p op).slotTopics j = s.slotTopics j) ∧
      ∀ k, k ≠ n → (k ∈ (s.next p op).slotTopics i ↔ k ∈ s.slotTopics i) := by
  obtain ⟨hopen, hin, i, hi, -, hl⟩ := h.client_slot hex
  obtain ⟨subs, hsub, hname, htopics⟩ := subscribed_of_slot hs hopen hin hl
  have hreg : op.isRegistry = false := by cases op <;> first | rfl | cases hop
  have hentry : (s.next p op).entryClient = s.entryClient := (local_next hreg).entryClient
  have hframe : ∀ j, j ≠ i → (s.next p op).fs (slotFile j .subscribe) =
      s.fs (slotFile j .subscribe) := by
    intro j hj
    refine h.subscribe_frame hreg j fun _ _ => ?_
    rw [hname]; exact slotFile_ne_of_slot hj _ _
  obtain ⟨subs', n, hfile', htable', hchange⟩ := hsub.oneTopic_next hop hfits
  rw [hname] at hfile'
  refine ⟨fun j => ?_, i, n, hi, ?_, ?_, fun j hj => ?_, fun k hk => ?_⟩
  · by_cases hj : j = i
    · subst hj; exact ⟨subs', hfile', htable'⟩
    · rw [Files.contents_congr (hframe j hj)]; exact hs j
  · exact topicsOf_eq hl
  · rw [clientTopics, hentry]; exact topicsOf_eq hl
  · rw [slotTopics, slotTopics, Files.contents_congr (hframe j hj)]
  · have hold : s.slotTopics i = SlotTable.keys EntrySubscription.key subs :=
      (topicsOf_eq hl).symm.trans htopics
    rw [hold, slotTopics, hfile', EntrySubscription.topics_encode]
    exact hchange k hk

end RegInv

/-! ### Agreement -/

/-- The counts in `MQTT.SUB` are those of the slots. -/
structure Agrees (s : Persistent) : Prop where
  subs : SubFiles s
  counts : ∃ cs : List EntryMqttSubscription, CountTable cs ∧ s.fs.contents mqttSub = encode cs ∧
    ∀ t : CString, countOf cs t.bytes = s.holders t.bytes

theorem holders_congr (h : ∀ j k, k ∈ s'.slotTopics j ↔ k ∈ s.slotTopics j) (k : List UInt8) :
    s'.holders k = s.holders k := by
  rw [holders, holders]
  refine congrArg Finset.card (Finset.filter_congr fun j _ => ?_)
  exact h j k

namespace Agrees

theorem congr (h : Agrees s) (hsubs : SubFiles s')
    (htopics : ∀ j k, k ∈ s'.slotTopics j ↔ k ∈ s.slotTopics j)
    (hmqtt : s'.fs.contents mqttSub = s.fs.contents mqttSub) : Agrees s' := by
  obtain ⟨cs, htable, hfile, hcount⟩ := h.counts
  exact ⟨hsubs, cs, htable, hmqtt.trans hfile, fun t =>
    (hcount t).trans (holders_congr htopics _).symm⟩

theorem congr_contents (h : Agrees s)
    (hsub : ∀ j, s'.fs.contents (slotFile j .subscribe) = s.fs.contents (slotFile j .subscribe))
    (hmqtt : s'.fs.contents mqttSub = s.fs.contents mqttSub) : Agrees s' :=
  h.congr (h.subs.congr hsub) (fun j k => by rw [slotTopics, slotTopics, hsub]) hmqtt

theorem effect (ha : Agrees s) (hop : op.isRegistry = true) (he : Effect p s rs op s')
    (hbegin : op = .begin → ∀ k, s.holders k = 0) : Agrees s' := by
  cases he with
  | other hno => rw [hop] at hno; cases hno
  | skip | raise | found | missing | apply => exact ha.congr_contents (fun _ => rfl) rfl
  | begin hb _ _ =>
    have hsub : ∀ j, (((s.fs.remove mqttSub).openWrite clientRegistry).openWrite mqttSub).contents
        (slotFile j .subscribe) = s.fs.contents (slotFile j .subscribe) :=
      fun j => Files.contents_begin (slotFile_ne_mqttSub j _)
    refine ⟨ha.subs.congr hsub, [], .nil, Files.contents_mqttSub_begin, fun t => ?_⟩
    exact ((holders_congr (fun j k => by rw [slotTopics, slotTopics, hsub]) _).trans
      (hbegin hb _)).symm
  | rewrite i e' _ _ _ _ _ _ _ =>
    refine ha.congr_contents (fun j => ?_) ?_
    · exact Files.contents_set_ne (encode (SlotTable.place rs i e'))
        (slotFile_ne_clientRegistry j _)
    · exact Files.contents_set_ne (encode (SlotTable.place rs i e')) clientRegistry_ne_mqttSub.symm
  | add c a d k _ _ _ _ _ _ _ _ =>
    refine ha.congr_contents (fun j => ?_) ?_
    · exact (Files.contents_set_ne _ (slotFile_ne_clientRegistry j _)).trans
        (Files.contents_createSlot k)
    · exact (Files.contents_set_ne _ clientRegistry_ne_mqttSub.symm).trans
        (Files.contents_createSlot k)
  | delete c i _ hopen hin hzero hslot hlive =>
    -- the files of the slot are removed, but it had no subscriptions
    obtain ⟨subs, hsub, -, htopics⟩ := RegInv.subscribed_of_slot ha.subs hopen hin hlive
    have hnone : s.slotTopics i = [] := by
      rw [hsub.getClientSubscriptionCount_eq] at hzero
      rw [← RegInv.topicsOf_eq hlive, show s.topicsOf s.entryClient = s.clientTopics from rfl,
        htopics]
      exact List.eq_nil_of_length_eq_zero hzero
    have hother : ∀ j, j ≠ i → ((s.fs.removeSlot i).set clientRegistry
        (encode (SlotTable.place rs i (Record.zero 57)))).contents (slotFile j .subscribe) =
          s.fs.contents (slotFile j .subscribe) := fun j hj =>
      Files.contents_congr ((Files.set_ne _ (slotFile_ne_clientRegistry j _)).trans
        (Files.removeSlot_ne fun y => slotFile_ne_of_slot hj _ y))
    have hown : ((s.fs.removeSlot i).set clientRegistry
        (encode (SlotTable.place rs i (Record.zero 57)))).contents (slotFile i .subscribe) = [] :=
      Files.contents_of_none ((Files.set_ne _ (slotFile_ne_clientRegistry i _)).trans
        (Files.removeSlot_self i _))
    refine ha.congr (fun j => ?_) (fun j k => ?_) ?_
    · by_cases hj : j = i
      · subst hj; exact ⟨[], hown, .nil⟩
      · rw [hother j hj]; exact ha.subs j
    · by_cases hj : j = i
      · subst hj; rw [hnone, slotTopics, hown, topics_nil]
      · rw [slotTopics, hother j hj, slotTopics]
    · exact (Files.contents_set_ne _ clientRegistry_ne_mqttSub.symm).trans
        (Files.contents_congr (Files.removeSlot_ne fun y => (slotFile_ne_mqttSub i y).symm))

/-- An operation on subscriptions that leaves the topics of the client as they are, and every other
operation that does not count. -/
theorem other (ha : Agrees s) (h : RegInv g s rs) (hop : op.isRegistry = false)
    (hcount : op.isCounting = false)
    (hsilent : op.ending = some .subscribe → (s.next p op).clientTopics.toFinset =
      s.clientTopics.toFinset)
    (hfits : s.clientExist = true → ((s.next p op).fs.contents (s.clientFile .subscribe)).length ≤
      65534 * 258) : Agrees (s.next p op) := by
  have hmqtt := Files.contents_congr (h.mqttSub_frame (p := p) hop hcount)
  by_cases hsub : op.ending = some .subscribe ∧ s.clientExist = true
  · obtain ⟨hend, hex⟩ := hsub
    obtain ⟨hsubs, i, n, -, hold, hnew, hframe, -⟩ := h.subscription_op ha.subs hend hex (hfits hex)
    refine ha.congr hsubs (fun j k => ?_) hmqtt
    by_cases hj : j = i
    · subst hj
      rw [← hold, ← hnew, ← List.mem_toFinset, hsilent hend, List.mem_toFinset]
    · rw [hframe j hj]
  · refine ha.congr_contents
      (fun j => Files.contents_congr (h.subscribe_frame hop j fun hend hopen => ?_)) hmqtt
    -- the client is not registered, so the operation works on no slot
    rcases h.clientFile_cases hopen with ⟨i, hin, -⟩ | ⟨-, hf⟩
    · exact absurd ⟨hend, by simp [clientExist, hopen, hin]⟩ hsub
    · rw [hf]; exact bytes_ne_slotFile _ _ j

end Agrees

/-! ### Adding or deleting a subscription -/

theorem SubFiles.checkTopicName_of_mem (h : SubFiles s) {j : Nat} {t : CString}
    (ht : t.bytes ∈ s.slotTopics j) : checkTopicName (some t) = some t := by
  obtain ⟨subs, hfile, htable⟩ := h j
  rw [slotTopics, hfile, EntrySubscription.topics_encode] at ht
  exact htable.checkTopicName_of_mem ht

/-- A client gained the topic of `c`, or lost it. -/
structure Moved (c : CountCall) (s s' : Persistent) : Prop where
  subs : SubFiles s'
  error : s'.error = false
  valid : checkTopicName (some c.topic) = some c.topic
  holders : ∀ k, s'.holders k = if k = c.topic.bytes then CountCall.count (s.holders k) c
    else s.holders k
  gained : ∀ t, c = .increment t →
    (∀ j k, k ∈ s.slotTopics j → k ∈ s'.slotTopics j) ∧ ∃ i, t.bytes ∈ s'.slotTopics i

/-- What a counting call stands for: the topics of a client before and after. -/
def CountCall.Changes (c : CountCall) (before after : List (List UInt8)) : Prop :=
  match c with
  | .increment t => t.bytes ∉ before ∧ t.bytes ∈ after
  | .decrement t => t.bytes ∈ before ∧ t.bytes ∉ after

namespace RegInv

theorem error_of_changed (hop : op.ending = some .subscribe) (hne : (s.next p op).fs ≠ s.fs) :
    (s.next p op).error = s.error := by
  have hreg : op.isRegistry = false := by cases op <;> first | rfl | cases hop
  have hout : Outcome p s op (s.next p op) := outcome_step PERSISTENT_DEBUG hreg
  revert hout hne
  generalize s.next p op = u
  intro hne hout
  cases hout with
  | same | online => rfl
  | raise => exact absurd rfl hne
  | own | shared => rfl
  | fallThrough k hrem => rw [hrem] at hop; cases hop

theorem moved (h : RegInv g s rs) (hs : SubFiles s) {c : CountCall}
    (hop : op.ending = some .subscribe) (hex : s.clientExist = true)
    (hfits : ((s.next p op).fs.contents (s.clientFile .subscribe)).length ≤ 65534 * 258)
    (hc : c.Changes s.clientTopics (s.next p op).clientTopics) : Moved c s (s.next p op) := by
  obtain ⟨hsubs, i, n, hi, hold, hnew, hframe, hchange⟩ := h.subscription_op hs hop hex hfits
  have herr : (s.next p op).error = false := by
    rw [error_of_changed hop ?_, error_of_open (h.client_slot hex).1]
    intro hfs
    have hsame : (s.next p op).clientTopics = s.clientTopics := by
      rw [hold, hnew, slotTopics, slotTopics, hfs]
    rw [hsame] at hc
    cases c with
    | increment t => exact hc.1 hc.2
    | decrement t => exact hc.2 hc.1
  rw [hold, hnew] at hc
  -- the one topic that may change is the one that is counted
  have hn : n = c.topic.bytes := by
    by_contra hne
    have := hchange c.topic.bytes (Ne.symm hne)
    cases c with
    | increment t => exact hc.1 (this.1 hc.2)
    | decrement t => exact hc.2 (this.2 hc.1)
  subst hn
  cases c with
  | increment t =>
    refine ⟨hsubs, herr, hsubs.checkTopicName_of_mem hc.2,
      holders_insert hi hframe hchange hc.2 hc.1, ?_⟩
    rintro t' ⟨⟩
    refine ⟨fun j k hk => ?_, i, hc.2⟩
    by_cases hj : j = i
    · subst hj
      by_cases hkt : k = t.bytes
      · rw [hkt]; exact hc.2
      · exact (hchange k hkt).2 hk
    · rw [hframe j hj]; exact hk
  | decrement t =>
    refine ⟨hsubs, herr, hs.checkTopicName_of_mem hc.1, fun k => ?_, fun _ hno => by cases hno⟩
    have hback :=
      holders_insert hi (fun j hj => (hframe j hj).symm) (fun k hk => (hchange k hk).symm)
        hc.1 hc.2 k
    rw [hback]
    by_cases hk : k = (CountCall.decrement t).topic.bytes
    · rw [if_pos hk, if_pos hk, CountCall.count, Nat.add_sub_cancel]
    · rw [if_neg hk, if_neg hk]

end RegInv

/-! ### The core's actions -/

/-- An action of the core: a subscription is added and counted, deleted and counted, in either
order, or some other operation is called. -/
inductive CoreAction where
  | call (op : Op)
  | subscribe (t : CString) (topicId : UInt16) (qos : UInt8) (countFirst : Bool)
  | unsubscribe (t : CString) (topicId : UInt16) (countFirst : Bool)

namespace CoreAction

def pair (countFirst : Bool) (op count : Op) : List Op :=
  if countFirst then [count, op] else [op, count]

def ops : CoreAction → List Op
  | .call op => [op]
  | .subscribe t i q f =>
    pair f (.addSubscription (some t) i q) (.incrementGlobalSubscriptionCount (some t))
  | .unsubscribe t i f =>
    pair f (.deleteSubscription i) (.decrementGlobalSubscriptionCount (some t))

/-- The other operations: they count nothing and leave the topics of the client as they are, and the
gateway starts again only in the states `restart`. -/
def Silent (p : Platform) (restart : Persistent → Prop) (s : Persistent) (op : Op) : Prop :=
  match op with
  | .begin => restart s
  | .incrementGlobalSubscriptionCount _ | .decrementGlobalSubscriptionCount _ => False
  | .addSubscription t i q =>
    (s.next p (.addSubscription t i q)).clientTopics.toFinset = s.clientTopics.toFinset
  | .deleteSubscription i =>
    (s.next p (.deleteSubscription i)).clientTopics.toFinset = s.clientTopics.toFinset
  | _ => True

instance (p : Platform) (restart : Persistent → Prop) [DecidablePred restart] (s : Persistent)
    (op : Op) : Decidable (Silent p restart s op) := by
  unfold Silent
  rcases op <;> infer_instance

/-- What the core promises: it counts a topic up exactly when it adds a subscription to the topic
for a client for which `is_subscribed` was false, and down exactly when it deletes a client's
subscription. -/
def Admits (p : Platform) (restart : Persistent → Prop) (g : Option Tx) (s : Persistent)
    (a : CoreAction) : Prop :=
  match a with
  | .call op => Allowed p g s op ∧ Silent p restart s op
  | .subscribe t _ _ _ => s.clientExist = true ∧ s.isSubscribed PERSISTENT_DEBUG (some t) = false ∧
      t.bytes ∈ (s.run p a.ops).clientTopics
  | .unsubscribe t _ _ => s.clientExist = true ∧ t.bytes ∈ s.clientTopics ∧
      t.bytes ∉ (s.run p a.ops).clientTopics

instance (p : Platform) (restart : Persistent → Prop) [DecidablePred restart] (g : Option Tx)
    (s : Persistent) (a : CoreAction) : Decidable (a.Admits p restart g s) := by
  unfold Admits
  cases a <;> infer_instance

end CoreAction

/-- What the loop counters of the store can count: 65534 records in the subscription file of a
client and 65534 topics in `MQTT.SUB`. -/
structure Persistent.Fits (s : Persistent) : Prop where
  files : ∀ e ∈ s.registered, (s.fs.contents (EntryClient.fileName e .subscribe)).length ≤
    65534 * 258
  topics : s.subscribedTopics.length ≤ 65534

instance (s : Persistent) : Decidable s.Fits :=
  decidable_of_iff (_ ∧ _) ⟨fun h => ⟨h.1, h.2⟩, fun h => ⟨h.1, h.2⟩⟩

/-- The states such a core can bring the store to from `s₀`, with the transaction that is open. -/
inductive CoreRun (p : Platform) (restart : Persistent → Prop) (s₀ : Persistent) :
    Option Tx → Persistent → Prop where
  | init : CoreRun p restart s₀ none s₀
  | step {g : Option Tx} {s : Persistent} (a : CoreAction) (h : CoreRun p restart s₀ g s)
      (ha : a.Admits p restart g s)
      (hfits : (s.run p a.ops).Fits) : CoreRun p restart s₀ (runTx p g s a.ops) (s.run p a.ops)

theorem RegInv.allowed_of_local (h : RegInv g s rs) (hop : op.isRegistry = false) :
    Allowed p g s op := by
  refine ⟨?_, ?_⟩
  · rw [registeredCount_eq (h.contents_of_local (local_next hop))]
    exact Nat.lt_of_le_of_lt List.countP_le_length h.table.len
  · cases op <;> trivial

theorem CoreAction.allowedRun_pair (h : RegInv g s rs) {countFirst : Bool} {op count : Op}
    (hop : op.isRegistry = false) (hcount : count.isRegistry = false) :
    AllowedRun p g s (pair countFirst op count) := by
  have htwo : ∀ {a b : Op}, a.isRegistry = false → b.isRegistry = false →
      AllowedRun p g s [a, b] := by
    intro a b ha hb
    obtain ⟨rs', h'⟩ := h.next (h.allowed_of_local (p := p) ha)
    exact ⟨h.allowed_of_local ha, h'.allowed_of_local hb, trivial⟩
  cases countFirst
  · exact htwo hop hcount
  · exact htwo hcount hop

theorem CoreRun.reachable {restart : Persistent → Prop} (h : CoreRun p restart s₀ g s)
    (h₀ : Fresh s₀) : Reachable p s₀ g s := by
  induction h with
  | init => exact .init
  | @step g s a _ ha _ ih =>
    obtain ⟨rs, hi⟩ := ih.inv h₀
    refine ih.run ?_
    cases a with
    | call op => exact ⟨ha.1, trivial⟩
    | subscribe t i q f => exact CoreAction.allowedRun_pair hi rfl rfl
    | unsubscribe t i f => exact CoreAction.allowedRun_pair hi rfl rfl

/-! ### Both steps -/

namespace RegInv

theorem next_local (h : RegInv g s rs) (hop : op.isRegistry = false) :
    RegInv (track g op (s.next p op)) (s.next p op) rs :=
  have hl : Local s (s.next p op) := local_next hop
  h.keep (h.contents_of_local hl) hl.entryClient hl.notInClientRegistry hl.transactionStarted

theorem contents_count (h : RegInv g s rs) (c : CountCall) (j : Nat) :
    (s.next p c.op).fs.contents (slotFile j .subscribe) = s.fs.contents (slotFile j .subscribe) :=
  Files.contents_congr
    (h.subscribe_frame (by cases c <;> rfl) j (by cases c <;> (intro hop; cases hop)))

theorem slotTopics_count (h : RegInv g s rs) (c : CountCall) (j : Nat) :
    (s.next p c.op).slotTopics j = s.slotTopics j := by
  rw [slotTopics, slotTopics, h.contents_count]

theorem holders_count (h : RegInv g s rs) (c : CountCall) (k : List UInt8) :
    (s.next p c.op).holders k = s.holders k :=
  holders_congr (fun j k => by rw [h.slotTopics_count]) k

theorem subFiles_count (h : RegInv g s rs) (hs : SubFiles s) (c : CountCall) :
    SubFiles (s.next p c.op) :=
  hs.congr fun j => h.contents_count c j

theorem fits_client (h : RegInv g s rs) (hfits : s.Fits) {i : Nat} {e : EntryClient}
    (hslot : rs[i]? = some e) (hl : Live i e) :
    (s.fs.contents (slotFile i .subscribe)).length ≤ 65534 * 258 := by
  have hmem : e ∈ s.registered := by
    rw [registered, records_of_contents h.file, List.mem_filter]
    exact ⟨List.mem_of_getElem? hslot, by simpa using hl.id_ne⟩
  rw [← hl.fileName]
  exact hfits.files e hmem

/-- A topic that is counted for the first time finds room. -/
theorem room (h : RegInv g s' rs) (hfree : FreeSlots s') (hfits : s'.Fits)
    {cs : List EntryMqttSubscription} (htable : CountTable cs)
    (hcount : ∀ t : CString, countOf cs t.bytes = s.holders t.bytes)
    (hsub : ∀ j k, k ∈ s.slotTopics j → k ∈ s'.slotTopics j) {i : Nat} {t : List UInt8}
    (ht : t ∈ s'.slotTopics i) (hnew : t ∉ SlotTable.keys EntryMqttSubscription.key cs) :
    (SlotTable.keys EntryMqttSubscription.key cs).length < 65534 := by
  have hnodup : (t :: SlotTable.keys EntryMqttSubscription.key cs).Nodup :=
    List.nodup_cons.2 ⟨hnew, htable.distinct.nodup_keys⟩
  have hsubset : (t :: SlotTable.keys EntryMqttSubscription.key cs) ⊆ s'.subscribedTopics := by
    refine List.cons_subset.2 ⟨h.mem_subscribedTopics hfree ht, fun k hk => ?_⟩
    -- a topic with a count has a slot
    obtain ⟨j, e, hj, hke⟩ := SlotTable.mem_keys.1 hk
    have hname := (htable.live_of_key (List.mem_of_getElem? hj) hke).2
    have hnul : 0 ∉ k := by rw [← hname]; exact zero_notMem_cstr _
    have hpos : 0 < s.holders k := by
      rw [← hcount ⟨k, hnul⟩]
      exact htable.mem_keys_iff.1 hk
    obtain ⟨l, hl⟩ := Finset.card_pos.1 hpos
    exact h.mem_subscribedTopics hfree (hsub l k (Finset.mem_filter.1 hl).2)
  have hlen := (hnodup.subperm hsubset).length_le
  have := hfits.topics
  rw [List.length_cons] at hlen
  omega

end RegInv

theorem holders_le (k : List UInt8) : s.holders k ≤ 2 ^ 16 := by
  have h := Finset.card_filter_le (Finset.range (2 ^ 16)) fun j => k ∈ s.slotTopics j
  rw [Finset.card_range] at h
  exact h

theorem Op.local_of_subscribe (hop : op.ending = some .subscribe) :
    op.isRegistry = false ∧ op.isCounting = false := by
  cases op <;> first | exact ⟨rfl, rfl⟩ | cases hop

theorem CountCall.isRegistry_op (c : CountCall) : c.op.isRegistry = false := by cases c <;> rfl

namespace Agrees

variable {c : CountCall}

theorem count_max {cs : List EntryMqttSubscription}
    (hcount : ∀ t : CString, countOf cs t.bytes = s.holders t.bytes) (t : CString) :
    countOf cs t.bytes + 1 < 2 ^ 32 := by
  have := holders_le (s := s) t.bytes
  rw [hcount]; omega

theorem count_last (ha : Agrees s) (h : RegInv g s rs) (hop : op.ending = some .subscribe)
    (hex : s.clientExist = true) (hfits : ((s.next p op).next p c.op).Fits)
    (hfree : FreeSlots ((s.next p op).next p c.op))
    (hc : c.Changes s.clientTopics ((s.next p op).next p c.op).clientTopics) :
    Agrees ((s.next p op).next p c.op) := by
  obtain ⟨hreg, hncount⟩ := Op.local_of_subscribe hop
  obtain ⟨-, -, i, -, hslot, hl⟩ := h.client_slot hex
  obtain ⟨cs, htable, hfile, hcount⟩ := ha.counts
  have h1 := h.next_local (p := p) hreg
  have h2 := h1.next_local (p := p) c.isRegistry_op
  have he : ((s.next p op).next p c.op).entryClient = (s.next p op).entryClient :=
    (local_next c.isRegistry_op).entryClient
  have he1 : (s.next p op).entryClient = s.entryClient := (local_next hreg).entryClient
  have htopics := h1.slotTopics_count (p := p) c
  have hfits1 : ((s.next p op).fs.contents (s.clientFile .subscribe)).length ≤ 65534 * 258 := by
    have := h2.fits_client hfits hslot hl
    rw [h1.contents_count] at this
    rw [show s.clientFile .subscribe = slotFile i .subscribe from hl.fileName .subscribe]
    exact this
  have hclient : ((s.next p op).next p c.op).clientTopics = (s.next p op).clientTopics := by
    rw [clientTopics, clientTopics, he, he1, RegInv.topicsOf_eq hl, RegInv.topicsOf_eq hl, htopics]
  rw [hclient] at hc
  have hm := h.moved ha.subs hop hex hfits1 hc
  have hmqtt : (s.next p op).fs.contents mqttSub = encode cs :=
    (Files.contents_congr (h.mqttSub_frame hreg hncount)).trans hfile
  have hroom : ∀ t, c = .increment t → t.bytes ∉ SlotTable.keys EntryMqttSubscription.key cs →
      (SlotTable.keys EntryMqttSubscription.key cs).length < 65534 := by
    intro t ht hnew
    obtain ⟨hmono, j, hj⟩ := hm.gained t ht
    refine h2.room hfree hfits htable hcount (fun j k hk => ?_) (i := j) ?_ hnew
    · rw [htopics]; exact hmono j k hk
    · rw [htopics]; exact hj
  obtain ⟨cs', hrec, hcs'⟩ :=
    htable.call (p := p) hmqtt hm.error hm.valid hroom (count_max hcount _)
  refine ⟨h1.subFiles_count hm.subs c, cs', hrec.table, hrec.file, fun t => ?_⟩
  rw [hcs', hcount, h1.holders_count, hm.holders]

theorem count_first (ha : Agrees s) (h : RegInv g s rs) (hop : op.ending = some .subscribe)
    (hex : s.clientExist = true) (hfits : ((s.next p c.op).next p op).Fits)
    (hfree : FreeSlots ((s.next p c.op).next p op))
    (hc : c.Changes s.clientTopics ((s.next p c.op).next p op).clientTopics) :
    Agrees ((s.next p c.op).next p op) := by
  obtain ⟨hreg, hncount⟩ := Op.local_of_subscribe hop
  obtain ⟨hopen, -, i, -, hslot, hl⟩ := h.client_slot hex
  obtain ⟨cs, htable, hfile, hcount⟩ := ha.counts
  have h1 := h.next_local (p := p) c.isRegistry_op
  have h2 := h1.next_local (p := p) hreg
  have he1 : (s.next p c.op).entryClient = s.entryClient := (local_next c.isRegistry_op).entryClient
  have htopics := h.slotTopics_count (p := p) c
  have hex1 : (s.next p c.op).clientExist = true := by rw [c.next_rest p s]; exact hex
  have hname1 : (s.next p c.op).clientFile .subscribe = slotFile i .subscribe := by
    rw [clientFile, he1]
    exact hl.fileName .subscribe
  have hfits1 :
      (((s.next p c.op).next p op).fs.contents ((s.next p c.op).clientFile .subscribe)).length ≤
        65534 * 258 := by
    rw [hname1]
    exact h2.fits_client hfits hslot hl
  have hclient : (s.next p c.op).clientTopics = s.clientTopics := by
    rw [clientTopics, clientTopics, he1, RegInv.topicsOf_eq hl, RegInv.topicsOf_eq hl, htopics]
  rw [← hclient] at hc
  have hm := h1.moved (h.subFiles_count ha.subs c) hop hex1 hfits1 hc
  have hroom : ∀ t, c = .increment t → t.bytes ∉ SlotTable.keys EntryMqttSubscription.key cs →
      (SlotTable.keys EntryMqttSubscription.key cs).length < 65534 := by
    intro t ht hnew
    obtain ⟨hmono, j, hj⟩ := hm.gained t ht
    refine h2.room hfree hfits htable hcount (fun j k hk => hmono j k ?_) hj hnew
    rw [htopics]; exact hk
  obtain ⟨cs', hrec, hcs'⟩ := htable.call (p := p) hfile (error_of_open hopen) hm.valid hroom
    (count_max hcount _)
  have hmqtt : ((s.next p c.op).next p op).fs.contents mqttSub = encode cs' :=
    (Files.contents_congr (h1.mqttSub_frame hreg hncount)).trans hrec.file
  refine ⟨hm.subs, cs', hrec.table, hmqtt, fun t => ?_⟩
  rw [hcs', hcount, hm.holders, h.holders_count]

theorem pair (ha : Agrees s) (h : RegInv g s rs) {f : Bool} (hop : op.ending = some .subscribe)
    (hex : s.clientExist = true) (hfits : (s.run p (CoreAction.pair f op c.op)).Fits)
    (hfree : FreeSlots (s.run p (CoreAction.pair f op c.op)))
    (hc : c.Changes s.clientTopics (s.run p (CoreAction.pair f op c.op)).clientTopics) :
    Agrees (s.run p (CoreAction.pair f op c.op)) := by
  cases f
  · exact ha.count_last h hop hex hfits hfree hc
  · exact ha.count_first h hop hex hfits hfree hc

end Agrees

/-! ### Runs -/

/-- No registered client has a subscription. -/
def Persistent.NoSubscriptions (s : Persistent) : Prop := s.subscribedTopics = []

theorem RegInv.holders_eq_zero (h : RegInv g s rs) (hfree : FreeSlots s) (hno : s.NoSubscriptions)
    (k : List UInt8) : s.holders k = 0 := by
  refine Finset.card_eq_zero.2 (Finset.filter_eq_empty_iff.2 fun j _ hk => ?_)
  have := h.mem_subscribedTopics hfree hk
  rw [show s.subscribedTopics = [] from hno] at this
  cases this

theorem Agrees.call (ha : Agrees s) (h : RegInv g s rs) (hfree : FreeSlots s)
    (hadm : (CoreAction.call op).Admits p NoSubscriptions g s) (hfits : (s.next p op).Fits) :
    Agrees (s.next p op) := by
  obtain ⟨hallowed, hsilent⟩ := hadm
  by_cases hreg : op.isRegistry = true
  · refine ha.effect hreg (h.effect_of_allowed hallowed) ?_
    rintro rfl
    exact h.holders_eq_zero hfree hsilent
  · have hreg' : op.isRegistry = false := by simpa using hreg
    have hncount : op.isCounting = false := by
      cases op <;> first | rfl | exact absurd hsilent id
    refine ha.other h hreg' hncount (fun hend => ?_) fun hex => ?_
    · cases op <;> first | exact hsilent | cases hend
    · obtain ⟨-, -, i, -, hslot, hl⟩ := h.client_slot hex
      rw [show s.clientFile .subscribe = slotFile i .subscribe from hl.fileName .subscribe]
      exact (h.next_local hreg').fits_client hfits hslot hl

theorem CoreRun.agrees (h : CoreRun p NoSubscriptions s₀ g s) (h₀ : Fresh s₀)
    (hdir : ∀ n, s₀.fs n = none) : Agrees s := by
  induction h with
  | init =>
    have hempty : ∀ n, s₀.fs.contents n = [] := fun n => Files.contents_of_none (hdir n)
    refine ⟨fun j => ⟨[], hempty _, .nil⟩, [], .nil, hempty _, fun t => ?_⟩
    refine (Finset.card_eq_zero.2 (Finset.filter_eq_empty_iff.2 fun j _ hk => ?_)).symm
    rw [slotTopics, hempty, topics_nil] at hk
    cases hk
  | @step g s a hrun hadm hfits ih =>
    have hr := hrun.reachable h₀
    obtain ⟨rs, hi⟩ := hr.inv h₀
    have hfree := hr.freeSlots h₀ hdir
    have hfree' := ((hrun.step a hadm hfits).reachable h₀).freeSlots h₀ hdir
    cases a with
    | call op => exact ih.call hi hfree hadm hfits
    | subscribe t i q f =>
      obtain ⟨hex, hno, hafter⟩ := hadm
      obtain ⟨hopen, hin, l, -, -, hl⟩ := hi.client_slot hex
      obtain ⟨subs, hsub, -, htopics⟩ := RegInv.subscribed_of_slot ih.subs hopen hin hl
      refine Agrees.pair (c := .increment t) ih hi rfl hex hfits hfree' ⟨fun hmem => ?_, hafter⟩
      rw [htopics, ← hsub.isSubscribed_iff, hno] at hmem
      cases hmem
    | unsubscribe t i f =>
      obtain ⟨hex, hbefore, hafter⟩ := hadm
      exact Agrees.pair (c := .decrement t) ih hi rfl hex hfits hfree' ⟨hbefore, hafter⟩

/-- As long as the gateway restarts only while no client has a subscription, the count of a topic is
the number of clients that are subscribed to it. -/
theorem counts_agree (h₀ : Fresh s₀) (hdir : ∀ n, s₀.fs n = none)
    (h : CoreRun p NoSubscriptions s₀ g s) (herr : s.error = false) (t : CString) :
    s.getGlobalTopicSubscriptionCount PERSISTENT_DEBUG (some t) = some (s.subscriberCount t) := by
  have hr := h.reachable h₀
  obtain ⟨rs, hi⟩ := hr.inv h₀
  have ha := h.agrees h₀ hdir
  obtain ⟨cs, htable, hfile, hcount⟩ := ha.counts
  rw [hi.subscriberCount_eq (hr.freeSlots h₀ hdir) t, ← hcount]
  cases ht : checkTopicName (some t) with
  | some t' =>
    obtain ⟨rfl, -⟩ := checkTopicName_eq_some ht
    -- a count is a number of slots, and so has at most five digits
    have hle := holders_le (s := s) t'.bytes
    rw [← hcount] at hle
    have hfits := (count_fits_iff (n := countOf cs t'.bytes) (by omega)).2 (by omega)
    rw [htable.getGlobalTopicSubscriptionCount_eq hfile herr ht, if_pos hfits]
  | none =>
    -- no client is subscribed to such a name
    have hzero : countOf cs t.bytes = 0 := by
      rw [hcount]
      refine Finset.card_eq_zero.2 (Finset.filter_eq_empty_iff.2 fun j _ hk => ?_)
      rw [ha.subs.checkTopicName_of_mem hk] at ht
      cases ht
    rw [hzero, getGlobalTopicSubscriptionCount, herr, ht]
    rfl

/-- Every action of a run is one the core may take. -/
def CoreAction.AdmitsAll (p : Platform) (restart : Persistent → Prop) :
    Option Tx → Persistent → List CoreAction → Prop
  | _, _, [] => True
  | g, s, a :: as => a.Admits p restart g s ∧ (s.run p a.ops).Fits ∧
      AdmitsAll p restart (runTx p g s a.ops) (s.run p a.ops) as

def CoreAction.decidableAdmitsAll (p : Platform) (restart : Persistent → Prop)
    [DecidablePred restart] :
    ∀ (g : Option Tx) (s : Persistent) (as : List CoreAction),
      Decidable (AdmitsAll p restart g s as)
  | _, _, [] => .isTrue trivial
  | g, s, a :: as =>
    have := decidableAdmitsAll p restart (runTx p g s a.ops) (s.run p a.ops) as
    inferInstanceAs (Decidable (_ ∧ _ ∧ _))

instance (p : Platform) (restart : Persistent → Prop) [DecidablePred restart] (g : Option Tx)
    (s : Persistent) (as : List CoreAction) : Decidable (CoreAction.AdmitsAll p restart g s as) :=
  CoreAction.decidableAdmitsAll p restart g s as

theorem CoreRun.run {restart : Persistent → Prop} {as : List CoreAction}
    (h : CoreRun p restart s₀ g s) (ha : CoreAction.AdmitsAll p restart g s as) :
    ∃ g', CoreRun p restart s₀ g' (s.run p (as.flatMap CoreAction.ops)) := by
  induction as generalizing g s with
  | nil => exact ⟨g, h⟩
  | cons a as ih =>
    rw [List.flatMap_cons, Persistent.run, List.foldl_append]
    exact ih (h.step a ha.1 ha.2.1) ha.2.2

instance : DecidablePred NoSubscriptions :=
  fun s => inferInstanceAs (Decidable (s.subscribedTopics = []))

def temperature : CString := ⟨ascii "temperature", by decide⟩

def twoSubscribers : List CoreAction :=
  [.call .begin, .call (.startClientTransaction device1), .call (.addClient device1 address1 60),
    .subscribe temperature 1 0 false, .call .applyTransaction,
    .call (.startClientTransaction device2),
    .call (.addClient device2 address2 60), .subscribe temperature 5 1 true,
    .unsubscribe temperature 5 false]

theorem counts_agree_two_subscribers :
    let s := setUp.run posix (twoSubscribers.flatMap CoreAction.ops)
    s.subscriberCount temperature = 1 ∧
      s.getGlobalTopicSubscriptionCount PERSISTENT_DEBUG (some temperature) =
        some (s.subscriberCount temperature) := by
  intro s
  have hs : s = setUp.run posix _ := rfl
  have ha : CoreAction.AdmitsAll posix NoSubscriptions none setUp twoSubscribers := by
    decide +kernel
  have hend : s.subscriberCount temperature = 1 ∧ s.error = false := by
    rw [hs]
    decide +kernel
  obtain ⟨g, h⟩ := CoreRun.init.run ha
  exact ⟨hend.1, counts_agree ⟨rfl, rfl⟩ (fun _ => rfl) h hend.2 temperature⟩

/-- The gateway restarts while a client has a subscription: the count is lost. -/
theorem counts_lost_at_restart :
    let run : List CoreAction := [.call .begin, .call (.startClientTransaction device1),
      .call (.addClient device1 address1 60), .subscribe temperature 1 0 false,
      .call .applyTransaction, .call .begin]
    ∃ g, CoreRun posix (fun _ => True) setUp g (setUp.run posix (run.flatMap CoreAction.ops)) ∧
      (setUp.run posix (run.flatMap CoreAction.ops)).error = false ∧
      (setUp.run posix (run.flatMap CoreAction.ops)).getGlobalTopicSubscriptionCount
      PERSISTENT_DEBUG
        (some temperature) = some 0 ∧
      (setUp.run posix (run.flatMap CoreAction.ops)).subscriberCount temperature = 1 := by
  intro run
  have ha : CoreAction.AdmitsAll posix (fun _ => True) none setUp run := by decide +kernel
  have hend : (setUp.run posix (run.flatMap CoreAction.ops)).error = false ∧
      (setUp.run posix (run.flatMap CoreAction.ops)).getGlobalTopicSubscriptionCount
      PERSISTENT_DEBUG
        (some temperature) = some 0 ∧
      (setUp.run posix (run.flatMap CoreAction.ops)).subscriberCount temperature = 1 := by
        decide +kernel
  obtain ⟨g, h⟩ := CoreRun.init.run ha
  exact ⟨g, h, hend⟩

end SnGateway
