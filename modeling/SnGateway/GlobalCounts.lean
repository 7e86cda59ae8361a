import SnGateway.Effects

/-!
# Gateway-wide subscription counts

`MQTT.SUB` is a table whose key is a topic name: a record is all-zero or holds a topic with its
count, which is not 0, and no topic occurs twice (`CountTable`). The slots of topics whose count
drops to 0 are used again, the last of them first. The table stands for a map from topics to counts
(`countOf`), and the two counting operations are updates of that map (`CountTable.increment`,
`CountTable.decrement`). They print the new count into an array of six bytes, so that the counts are
right as long as none of them gets to 100000 (`global_counts_iff`).
-/

namespace SnGateway
open RecordStore

namespace EntryMqttSubscription

def key (e : EntryMqttSubscription) : Option (List UInt8) :=
  if e.getNat clientSubscriptionCount = 0 then none else some (e.text topicName)

structure Live (e : EntryMqttSubscription) : Prop where
  count_ne : e.getNat clientSubscriptionCount ≠ 0
  name_ne : e.text topicName ≠ []
  name_lt : (e.text topicName).length < 255

theorem Live.key_eq {e : EntryMqttSubscription} (h : Live e) : key e = some (e.text topicName) :=
  if_neg h.count_ne

@[simp] theorem key_zero : key (Record.zero 260) = none := if_pos (Record.getNat_zero _ (by decide))

theorem isEmpty_zero : isEmpty (Record.zero 260) = true := by
  have h1 : (Record.zero 260).getNat clientSubscriptionCount = 0 := Record.getNat_zero _ (by decide)
  have h2 : (Record.zero 260).text topicName = [] := Record.text_zero _ (by decide)
  simp [isEmpty, h1, h2]

theorem Live.isEmpty_eq {e : EntryMqttSubscription} (h : Live e) : isEmpty e = false := by
  simp [isEmpty, h.count_ne]

end EntryMqttSubscription

open EntryMqttSubscription (key)

structure CountTable (rs : List EntryMqttSubscription) : Prop where
  len : rs.length ≤ 65534
  slot : ∀ e ∈ rs, e = Record.zero 260 ∨ EntryMqttSubscription.Live e
  distinct : SlotTable.Distinct key rs

def countOf (rs : List EntryMqttSubscription) (k : List UInt8) : Nat :=
  ((SlotTable.lookup key rs k).map fun e =>
    e.getNat EntryMqttSubscription.clientSubscriptionCount).getD 0

namespace CountTable

variable {rs : List EntryMqttSubscription} {t : CString}

theorem nil : CountTable [] := ⟨by decide, by simp, .nil _⟩

theorem live_of_key (h : CountTable rs) {e : EntryMqttSubscription} {k : List UInt8} (he : e ∈ rs)
    (hk : key e = some k) :
    EntryMqttSubscription.Live e ∧ e.text EntryMqttSubscription.topicName = k := by
  rcases h.slot e he with rfl | hl
  · simp at hk
  · rw [hl.key_eq] at hk; exact ⟨hl, Option.some.inj hk⟩

theorem countOf_of_slot (h : CountTable rs) {i : Nat} {e : EntryMqttSubscription} {k : List UInt8}
    (hi : rs[i]? = some e) (hk : key e = some k) :
    countOf rs k = e.getNat EntryMqttSubscription.clientSubscriptionCount := by
  rw [countOf, (SlotTable.lookup_eq_some h.distinct).2 ⟨i, hi, hk⟩]
  rfl

theorem countOf_of_not_holds {k : List UInt8} (h : ¬ SlotTable.Holds key rs k) :
    countOf rs k = 0 := by
  rw [countOf, SlotTable.lookup_eq_none.2 h]
  rfl

theorem mem_keys_iff (h : CountTable rs) {k : List UInt8} :
    k ∈ SlotTable.keys key rs ↔ 0 < countOf rs k := by
  rw [SlotTable.mem_keys]
  constructor
  · rintro ⟨i, e, hi, hk⟩
    rw [h.countOf_of_slot hi hk]
    exact Nat.pos_of_ne_zero (h.live_of_key (List.mem_of_getElem? hi) hk).1.count_ne
  · intro hpos
    by_contra hno
    rw [countOf_of_not_holds hno] at hpos
    exact absurd hpos (lt_irrefl 0)

/-- The loops over `MQTT.SUB` find the slot of the topic, or the place for a new one. -/
theorem scan_cases (h : CountTable rs) (t : CString) :
    (∃ (i : Nat) (e : EntryMqttSubscription), rs[i]? = some e ∧ EntryMqttSubscription.Live e ∧
        e.text EntryMqttSubscription.topicName = t.bytes ∧
        (Persistent.mqttSubScanner t).scan (encode rs) = .found i e) ∨
      (¬ SlotTable.Holds key rs t.bytes ∧
        (Persistent.mqttSubScanner t).scan (encode rs) =
          .exhausted (rs.length + 1) (lastIdx? EntryMqttSubscription.isEmpty rs)
          (Record.zero 260)) := by
  have hstops : ∀ e ∈ rs, (Persistent.mqttSubScanner t).stops e =
      decide (key e = some t.bytes) := by
    intro e he
    rcases h.slot e he with rfl | hl
    · simp [Scanner.stops, Persistent.mqttSubScanner, EntryMqttSubscription.isEmpty_zero]
    · simp [Scanner.stops, Persistent.mqttSubScanner, hl.isEmpty_eq, hl.key_eq,
        EntryMqttSubscription.hasName,
        hl.count_ne, MAXIMUM_TOPIC_NAME_LENGTH, hl.name_lt]
  have hlen : rs.length + 1 < (Persistent.mqttSubScanner t).counterMod := by
    have := h.len
    show rs.length + 1 < 2 ^ 16
    omega
  rcases (Persistent.mqttSubScanner t).scan_cases (by omega) rs hlen with
    ⟨i, e, hi, hstop, -, hscan⟩ | ⟨hnone, hscan⟩
  · have he := List.mem_of_getElem? hi
    rw [hstops e he, decide_eq_true_eq] at hstop
    obtain ⟨hl, hname⟩ := h.live_of_key he hstop
    exact .inl ⟨i, e, hi, hl, hname, hscan⟩
  · refine .inr ⟨?_, hscan⟩
    rintro ⟨i, e, hi, hk⟩
    have := hnone i e hi
    rw [hstops e (List.mem_of_getElem? hi), hk] at this
    simp at this

theorem place (h : CountTable rs) {i : Nat} {e : EntryMqttSubscription} (hi : i ≤ rs.length)
    (hlt : i < 65534) (hl : e = Record.zero 260 ∨ EntryMqttSubscription.Live e)
    (hfresh : ∀ (j : Nat) (b : EntryMqttSubscription) (k : List UInt8), j ≠ i → rs[j]? = some b →
      key b = some k → key e ≠ some k) : CountTable (SlotTable.place rs i e) := by
  refine ⟨?_, ?_, h.distinct.place hi hfresh⟩
  · have := h.len
    rw [SlotTable.length_place hi]; omega
  · intro b hb
    obtain ⟨j, hj⟩ := List.getElem?_of_mem hb
    rw [SlotTable.getElem?_place hi] at hj
    split at hj
    · cases hj; exact hl
    · exact h.slot b (List.mem_of_getElem? hj)

theorem countOf_place (h : CountTable rs) {i : Nat} {e : EntryMqttSubscription} (hi : i ≤ rs.length)
    (hfresh : ∀ (j : Nat) (b : EntryMqttSubscription) (k : List UInt8), j ≠ i → rs[j]? = some b →
      key b = some k → key e ≠ some k)
    (k : List UInt8) :
    countOf (SlotTable.place rs i e) k =
      if key e = some k then e.getNat EntryMqttSubscription.clientSubscriptionCount
      else if (rs[i]?).bind key = some k then 0
      else countOf rs k := by
  rw [countOf, SlotTable.lookup_place h.distinct hi hfresh]
  split
  · rfl
  · split <;> rfl

end CountTable

/-! ### The operations -/

namespace EntryMqttSubscription

theorem live_first {t : CString} (ht : t.length < 255) (hne : t.bytes ≠ []) :
    Live (((Record.zero 260).strcpy topicName t.bytes).putNat clientSubscriptionCount 1) ∧
      (((Record.zero 260).strcpy topicName t.bytes).putNat clientSubscriptionCount 1).text
      topicName = t.bytes ∧
      (((Record.zero 260).strcpy topicName t.bytes).putNat clientSubscriptionCount 1).getNat
        clientSubscriptionCount = 1 := by
  have hname : (((Record.zero 260).strcpy topicName t.bytes).putNat clientSubscriptionCount 1).text
    topicName =
      t.bytes := by
    rw [Record.text_putNat_of_disjoint (by decide)]
    exact Record.text_strcpy_self t.noNul ht (by decide)
  have hcount :
    (((Record.zero 260).strcpy topicName t.bytes).putNat clientSubscriptionCount 1).getNat
      clientSubscriptionCount = 1 := by
    rw [Record.getNat_putNat_self 1 (by decide)]
    rfl
  exact ⟨⟨by rw [hcount]; decide, by rw [hname]; exact hne, by rw [hname]; exact ht⟩, hname, hcount⟩

theorem Live.recount {e : EntryMqttSubscription} (h : Live e) {n : Nat} (hn : n ≠ 0)
    (hlt : n < 2 ^ 32) :
    Live (e.putNat clientSubscriptionCount n) ∧
      (e.putNat clientSubscriptionCount n).text topicName = e.text topicName ∧
      (e.putNat clientSubscriptionCount n).getNat clientSubscriptionCount = n := by
  have hname : (e.putNat clientSubscriptionCount n).text topicName = e.text topicName :=
    Record.text_putNat_of_disjoint (by decide)
  have hcount : (e.putNat clientSubscriptionCount n).getNat clientSubscriptionCount = n := by
    rw [Record.getNat_putNat_self n (by decide)]
    exact Nat.mod_eq_of_lt hlt
  exact ⟨⟨by rw [hcount]; exact hn, by rw [hname]; exact h.name_ne, by rw [hname]; exact h.name_lt⟩,
    hname, hcount⟩

end EntryMqttSubscription

namespace CountTable

open Persistent

variable {p : Platform} {debug : Bool} {s : Persistent} {rs : List EntryMqttSubscription}
    {t : CString}

theorem replace (h : CountTable rs) {i : Nat} {e e' : EntryMqttSubscription} {k : List UInt8}
    (hi : rs[i]? = some e) (hk : key e = some k)
    (hl : e' = Record.zero 260 ∨ EntryMqttSubscription.Live e')
    (hk' : key e' = none ∨ key e' = some k) :
    CountTable (SlotTable.place rs i e') ∧ ∀ k', countOf (SlotTable.place rs i e') k' =
      if k' = k then (if key e' = none then 0
        else e'.getNat EntryMqttSubscription.clientSubscriptionCount)
      else countOf rs k' := by
  have hlt : i < rs.length := (List.getElem?_eq_some_iff.1 hi).1
  have hlen := h.len
  have hfresh : ∀ (j : Nat) (b : EntryMqttSubscription) (k' : List UInt8), j ≠ i → rs[j]? = some b →
      key b = some k' → key e' ≠ some k' := by
    intro j b k' hj hb hbk he'
    rcases hk' with h0 | h0
    · rw [h0] at he'; cases he'
    · rw [h0] at he'; cases he'
      exact hj (h.distinct j i b e _ hb hi hbk hk)
  refine ⟨h.place hlt.le (by omega) hl hfresh, fun k' => ?_⟩
  rw [h.countOf_place hlt.le hfresh, hi, Option.bind_some, hk]
  by_cases hkk : k' = k
  · subst hkk
    rcases hk' with h0 | h0 <;> simp [h0]
  · have h1 : key e' ≠ some k' := by
      intro he'
      rcases hk' with h0 | h0
      · rw [h0] at he'; cases he'
      · rw [h0] at he'; exact hkk (Option.some.inj he').symm
    rw [if_neg h1, if_neg fun h2 => hkk (Option.some.inj h2).symm, if_neg hkk]

theorem insert (h : CountTable rs) {e : EntryMqttSubscription} {k : List UInt8}
    (hl : EntryMqttSubscription.Live e) (hk : key e = some k) (hnew : ¬ SlotTable.Holds key rs k)
    (hroom : (SlotTable.keys key rs).length < 65534) :
    ∃ i : Nat, firstEmptySpace (rs.length + 1) (lastIdx? EntryMqttSubscription.isEmpty rs) = i ∧
      i ≤ rs.length ∧
      i < 65534 ∧ CountTable (SlotTable.place rs i e) ∧ ∀ k', countOf (SlotTable.place rs i e) k' =
        if k' = k then e.getNat EntryMqttSubscription.clientSubscriptionCount
        else countOf rs k' := by
  obtain ⟨i, hi, hle, hfree, hfull⟩ := lastIdx?_slot EntryMqttSubscription.isEmpty rs
  have hspace : firstEmptySpace (rs.length + 1) (lastIdx? EntryMqttSubscription.isEmpty rs) =
      i := by
    rw [firstEmptySpace_succ, hi]
  have hlen := h.len
  have hlt : i < 65534 := by
    rcases Nat.lt_or_eq_of_le hle with hlt | heq
    · omega
    · -- no slot is free, so every slot holds a topic
      have hall : ∀ b ∈ rs, key b ≠ none := by
        intro b hb
        rcases h.slot b hb with rfl | hlb
        · have := hfull heq _ hb
          rw [EntryMqttSubscription.isEmpty_zero] at this; cases this
        · rw [hlb.key_eq]; simp
      have hkeys : (SlotTable.keys key rs).length = rs.length := by
        rw [SlotTable.keys, List.length_filterMap_eq_countP, List.countP_eq_length]
        intro b hb
        exact Option.isSome_iff_ne_none.2 (hall b hb)
      omega
  have hfresh : ∀ (j : Nat) (b : EntryMqttSubscription) (k' : List UInt8), j ≠ i → rs[j]? = some b →
      key b = some k' → key e ≠ some k' := by
    intro j b k' _ hb hbk he
    rw [hk] at he; cases he
    exact hnew ⟨j, b, hb, hbk⟩
  refine ⟨i, hspace, hle, hlt, h.place hle hlt (.inr hl) hfresh, fun k' => ?_⟩
  rw [h.countOf_place hle hfresh, hk]
  have hold : (rs[i]?).bind key = none := by
    cases hri : rs[i]? with
    | none => rfl
    | some b =>
      rcases h.slot b (List.mem_of_getElem? hri) with rfl | hlb
      · simp
      · have := hfree b hri
        rw [hlb.isEmpty_eq] at this; cases this
  rw [hold, if_neg (show ¬ (none : Option (List UInt8)) = some k' by simp)]
  by_cases hkk : k' = k
  · rw [if_pos (by rw [hkk]), if_pos hkk]
  · rw [if_neg fun h => hkk (Option.some.inj h).symm, if_neg hkk]

/-- A state that differs in the records of `MQTT.SUB` only. -/
structure Recounted (s s' : Persistent) (rs' : List EntryMqttSubscription) : Prop where
  table : CountTable rs'
  file : s'.fs.contents mqttSub = encode rs'
  frame : ∀ n, n ≠ mqttSub → s'.fs n = s.fs n
  rest : s' = { s with fs := s'.fs }

theorem Recounted.set {rs' : List EntryMqttSubscription} (h : CountTable rs') :
    Recounted s { s with fs := s.fs.set mqttSub (encode rs') } rs' :=
  ⟨h, Files.contents_set_self _, fun _ hn => Files.set_ne _ hn, rfl⟩

theorem increment (h : CountTable rs) (hfile : s.fs.contents mqttSub = encode rs)
    (herr : s.error = false) (ht : checkTopicName (some t) = some t)
    (hroom : t.bytes ∉ SlotTable.keys key rs → (SlotTable.keys key rs).length < 65534)
    (hmax : countOf rs t.bytes + 1 < 2 ^ 32) :
    ∃ rs', Recounted s (s.incrementGlobalSubscriptionCount p debug (some t)).2 rs' ∧
      ∀ k, countOf rs' k = if k = t.bytes then countOf rs k + 1 else countOf rs k := by
  obtain ⟨-, hne, hlt⟩ := checkTopicName_eq_some ht
  unfold incrementGlobalSubscriptionCount
  rw [if_neg (by simp [herr]), ht]
  dsimp only
  rw [hfile]
  rcases h.scan_cases t with ⟨i, e, hi, hl, hname, hscan⟩ | ⟨hnew, hscan⟩
  · have hk : key e = some t.bytes := by rw [hl.key_eq, hname]
    rw [hscan]
    rw [h.countOf_of_slot hi hk] at hmax
    obtain ⟨hl', hname', hcount'⟩ := hl.recount (Nat.add_one_ne_zero _) hmax
    have hk' : key (e.putNat EntryMqttSubscription.clientSubscriptionCount
        (e.getNat EntryMqttSubscription.clientSubscriptionCount + 1)) = some t.bytes := by
      rw [hl'.key_eq, hname', hname]
    obtain ⟨htable, hcounts⟩ := h.replace hi hk (.inr hl') (.inr hk')
    dsimp only
    rw [Nat.mod_eq_of_lt hmax, Files.writeAt_encode p _ hfile (List.getElem?_eq_some_iff.1 hi).1.le]
    refine ⟨_, .set htable, fun k => ?_⟩
    rw [hcounts, hk', hcount']
    by_cases hkk : k = t.bytes
    · rw [if_pos hkk, if_pos hkk, hkk, h.countOf_of_slot hi hk]; rfl
    · rw [if_neg hkk, if_neg hkk]
  · obtain ⟨hl, hname, hcount⟩ := EntryMqttSubscription.live_first hlt hne
    obtain ⟨i, hspace, hle, hi, htable, hcounts⟩ :=
      h.insert hl (hl.key_eq.trans (by rw [hname])) hnew
      (hroom fun hmem => hnew (SlotTable.mem_keys.1 hmem))
    rw [hscan]
    dsimp only
    rw [hspace, sizeMul_natCast (by omega), Files.writeAt_encode p _ hfile hle]
    refine ⟨_, .set htable, fun k => ?_⟩
    rw [hcounts, hcount]
    by_cases hkk : k = t.bytes
    · rw [if_pos hkk, if_pos hkk, hkk, countOf_of_not_holds hnew]
    · rw [if_neg hkk, if_neg hkk]

theorem increment_reply (h : CountTable rs) (hfile : s.fs.contents mqttSub = encode rs)
    (herr : s.error = false) (ht : checkTopicName (some t) = some t)
    (hmax : countOf rs t.bytes + 1 < 2 ^ 32) :
    (s.incrementGlobalSubscriptionCount p debug (some t)).1 =
      if logFits debug 6 (countOf rs t.bytes + 1) then some true else none := by
  unfold incrementGlobalSubscriptionCount
  rw [if_neg (by simp [herr]), ht]
  dsimp only
  rw [hfile]
  rcases h.scan_cases t with ⟨i, e, hi, hl, hname, hscan⟩ | ⟨hnew, hscan⟩
  · have hcount := h.countOf_of_slot hi (by rw [hl.key_eq, hname])
    rw [hcount] at hmax
    rw [hscan, hcount]
    dsimp only
    rw [Nat.mod_eq_of_lt hmax]
  · have hone : logFits debug 6 (0 + 1) = true := by cases debug <;> decide +kernel
    rw [hscan, countOf_of_not_holds hnew, hone]
    rfl

theorem decrement (h : CountTable rs) (hfile : s.fs.contents mqttSub = encode rs)
    (herr : s.error = false) (ht : checkTopicName (some t) = some t) :
    ∃ rs', Recounted s (s.decrementGlobalSubscriptionCount p debug (some t)).2 rs' ∧
      ∀ k, countOf rs' k = if k = t.bytes then countOf rs k - 1 else countOf rs k := by
  unfold decrementGlobalSubscriptionCount
  rw [if_neg (by simp [herr]), ht]
  dsimp only
  rw [hfile]
  rcases h.scan_cases t with ⟨i, e, hi, hl, hname, hscan⟩ | ⟨hnew, hscan⟩
  · have hk : key e = some t.bytes := by rw [hl.key_eq, hname]
    have hcount := h.countOf_of_slot hi hk
    rw [hscan]
    dsimp only
    rw [Files.writeAt_encode p _ hfile (List.getElem?_eq_some_iff.1 hi).1.le]
    by_cases hone : e.getNat EntryMqttSubscription.clientSubscriptionCount - 1 = 0
    · rw [if_pos hone]
      obtain ⟨htable, hcounts⟩ := h.replace hi hk (.inl rfl) (.inl EntryMqttSubscription.key_zero)
      refine ⟨_, .set htable, fun k => ?_⟩
      rw [hcounts]
      by_cases hkk : k = t.bytes
      · rw [if_pos hkk, if_pos hkk, if_pos EntryMqttSubscription.key_zero, hkk, hcount, hone]
      · rw [if_neg hkk, if_neg hkk]
    · rw [if_neg hone]
      have hlt : e.getNat EntryMqttSubscription.clientSubscriptionCount - 1 < 2 ^ 32 := by
        have : e.getNat EntryMqttSubscription.clientSubscriptionCount < 256 ^ 4 :=
          Record.getNat_lt e _ (by decide)
        omega
      obtain ⟨hl', hname', hcount'⟩ := hl.recount hone hlt
      have hk' := hl'.key_eq
      rw [hname', hname] at hk'
      obtain ⟨htable, hcounts⟩ := h.replace hi hk (.inr hl') (.inr hk')
      refine ⟨_, .set htable, fun k => ?_⟩
      rw [hcounts, hk', hcount']
      by_cases hkk : k = t.bytes
      · rw [if_pos hkk, if_pos hkk, hkk, hcount]; rfl
      · rw [if_neg hkk, if_neg hkk]
  · rw [hscan]
    refine ⟨rs, ⟨h, hfile, fun _ _ => rfl, rfl⟩, fun k => ?_⟩
    by_cases hkk : k = t.bytes
    · rw [if_pos hkk, hkk, countOf_of_not_holds hnew]
    · rw [if_neg hkk]

theorem decrement_reply (h : CountTable rs) (hfile : s.fs.contents mqttSub = encode rs)
    (herr : s.error = false) (ht : checkTopicName (some t) = some t) :
    (s.decrementGlobalSubscriptionCount p debug (some t)).1 =
      if logFits debug 6 (countOf rs t.bytes - 1) then some true else none := by
  unfold decrementGlobalSubscriptionCount
  rw [if_neg (by simp [herr]), ht]
  dsimp only
  rw [hfile]
  rcases h.scan_cases t with ⟨i, e, hi, hl, hname, hscan⟩ | ⟨hnew, hscan⟩
  · rw [hscan, h.countOf_of_slot hi (by rw [hl.key_eq, hname])]
  · have hzero : logFits debug 6 (0 - 1) = true := by cases debug <;> decide +kernel
    rw [hscan, countOf_of_not_holds hnew, hzero]
    rfl

theorem getGlobalTopicSubscriptionCount_eq (h : CountTable rs)
    (hfile : s.fs.contents mqttSub = encode rs) (herr : s.error = false)
    (ht : checkTopicName (some t) = some t) :
    s.getGlobalTopicSubscriptionCount debug (some t) =
      if logFits debug 6 (countOf rs t.bytes) then some (countOf rs t.bytes) else none := by
  unfold getGlobalTopicSubscriptionCount
  rw [herr, ht, hfile]
  simp only [Bool.false_eq_true, if_false]
  rcases h.scan_cases t with ⟨i, e, hi, hl, hname, hscan⟩ | ⟨hnew, hscan⟩
  · rw [hscan, h.countOf_of_slot hi (by rw [hl.key_eq, hname])]
  · have hzero : logFits debug 6 0 = true := by cases debug <;> decide +kernel
    rw [hscan, countOf_of_not_holds hnew, hzero]
    rfl

end CountTable

/-! ### Sequences of calls -/

/-- A call of one of the counting operations. -/
inductive CountCall where
  | increment (topicName : CString)
  | decrement (topicName : CString)
deriving DecidableEq

namespace CountCall

def topic : CountCall → CString
  | .increment t => t
  | .decrement t => t

def op : CountCall → Op
  | .increment t => .incrementGlobalSubscriptionCount (some t)
  | .decrement t => .decrementGlobalSubscriptionCount (some t)

def count (n : Nat) : CountCall → Nat
  | .increment _ => n + 1
  | .decrement _ => n - 1

theorem next_rest (c : CountCall) (p : Platform) (s : Persistent) :
    s.next p c.op = { s with fs := (s.next p c.op).fs } := by
  cases c with
  | increment t =>
    show (s.incrementGlobalSubscriptionCount p PERSISTENT_DEBUG (some t)).2 =
      { s with fs := (s.incrementGlobalSubscriptionCount p PERSISTENT_DEBUG (some t)).2.fs }
    unfold Persistent.incrementGlobalSubscriptionCount
    split
    · rfl
    · split
      · rfl
      · split <;> rfl
  | decrement t =>
    show (s.decrementGlobalSubscriptionCount p PERSISTENT_DEBUG (some t)).2 =
      { s with fs := (s.decrementGlobalSubscriptionCount p PERSISTENT_DEBUG (some t)).2.fs }
    unfold Persistent.decrementGlobalSubscriptionCount
    split
    · rfl
    · split
      · rfl
      · split <;> rfl

/-- The calls for `t` alone, one after the other. -/
def fold (t : CString) (calls : List CountCall) : Nat :=
  (calls.filter fun c => c.topic = t).foldl count 0

theorem count_le (n : Nat) (c : CountCall) : count n c ≤ n + 1 := by
  cases c with
  | increment => exact le_refl _
  | decrement => exact (Nat.pred_le n).trans (Nat.le_succ n)

theorem fold_le_length (t : CString) (calls : List CountCall) : fold t calls ≤ calls.length := by
  have hle : ∀ (l : List CountCall) (n : Nat), l.foldl count n ≤ n + l.length := by
    intro l
    induction l with
    | nil => intro n; exact le_refl n
    | cons c l ih =>
      intro n
      have hc := count_le n c
      refine (ih _).trans ?_
      rw [List.length_cons]
      omega
  have hfilter := hle (calls.filter fun c => c.topic = t) 0
  rw [Nat.zero_add] at hfilter
  exact hfilter.trans (List.length_filter_le ..)

def liveTopics (calls : List CountCall) : List CString :=
  (calls.map topic).dedup.filter fun t => 0 < fold t calls

theorem fold_append_self (calls : List CountCall) (c : CountCall) :
    fold c.topic (calls ++ [c]) = count (fold c.topic calls) c := by
  simp [fold]

theorem fold_append_ne {t : CString} (calls : List CountCall) {c : CountCall} (h : c.topic ≠ t) :
    fold t (calls ++ [c]) = fold t calls := by
  simp [fold, h]

theorem mem_liveTopics {t : CString} {calls : List CountCall} :
    t ∈ liveTopics calls ↔ 0 < fold t calls := by
  rw [liveTopics, List.mem_filter, List.mem_dedup, decide_eq_true_eq, and_iff_right_iff_imp]
  intro hpos
  by_contra hno
  have hnil : (calls.filter fun c => c.topic = t) = [] := by
    rw [List.filter_eq_nil_iff]
    intro c hc hct
    exact hno (List.mem_map.2 ⟨c, hc, by simpa using hct⟩)
  rw [fold, hnil] at hpos
  exact absurd hpos (lt_irrefl 0)

/-- The promises of the callers: topic names of 1 to 254 characters, at most 65534 topics with a
count and counts below `2 ^ 32 - 1` at any time. -/
structure Bounded (calls : List CountCall) : Prop where
  names : ∀ c ∈ calls, 1 ≤ c.topic.length ∧ c.topic.length < 255
  topics : ∀ pre, pre <+: calls → (liveTopics pre).length ≤ 65534
  counts : ∀ pre, pre <+: calls → ∀ t, fold t pre < 2 ^ 32 - 1

theorem Bounded.of_prefix {calls calls' : List CountCall} (h : Bounded calls')
    (hpre : calls <+: calls') : Bounded calls where
  names := fun d hd => h.names d (hpre.mem hd)
  topics := fun pre hpre' => h.topics pre (hpre'.trans hpre)
  counts := fun pre hpre' => h.counts pre (hpre'.trans hpre)

end CountCall

open CountTable CountCall Persistent

variable {p : Platform} {s : Persistent} {rs : List EntryMqttSubscription}

theorem CountTable.call (h : CountTable rs) {c : CountCall}
    (hfile : s.fs.contents mqttSub = encode rs) (herr : s.error = false)
    (ht : checkTopicName (some c.topic) = some c.topic)
    (hroom : ∀ t, c = .increment t → t.bytes ∉ SlotTable.keys key rs →
      (SlotTable.keys key rs).length < 65534)
    (hmax : countOf rs c.topic.bytes + 1 < 2 ^ 32) :
    ∃ rs', Recounted s (s.next p c.op) rs' ∧
      ∀ k, countOf rs' k = if k = c.topic.bytes then count (countOf rs k) c else countOf rs k := by
  cases c with
  | increment t => exact h.increment hfile herr ht (hroom t rfl) hmax
  | decrement t => exact h.decrement hfile herr ht

theorem CountTable.Recounted.error_eq {s' : Persistent} (h : Recounted s s' rs) :
    s'.error = s.error := by
  rw [h.rest]

/-- `MQTT.SUB` holds the counts that the calls so far add up to. -/
structure Counted (s : Persistent) (rs : List EntryMqttSubscription) (calls : List CountCall) :
    Prop where
  table : CountTable rs
  file : s.fs.contents mqttSub = encode rs
  error : s.error = false
  count : ∀ t : CString, countOf rs t.bytes = fold t calls

namespace Counted

theorem keys_subset {calls : List CountCall} (h : Counted s rs calls) :
    SlotTable.keys key rs ⊆ (liveTopics calls).map CString.bytes := by
  intro k hk
  obtain ⟨i, e, hi, hke⟩ := SlotTable.mem_keys.1 hk
  have hname := (h.table.live_of_key (List.mem_of_getElem? hi) hke).2
  have hnul : 0 ∉ k := by rw [← hname]; exact zero_notMem_cstr _
  refine List.mem_map.2 ⟨⟨k, hnul⟩, mem_liveTopics.2 ?_, rfl⟩
  rw [← h.count ⟨k, hnul⟩]
  exact h.table.mem_keys_iff.1 hk

theorem room {calls : List CountCall} {t : CString} (h : Counted s rs calls)
    (hbound : Bounded (calls ++ [.increment t])) (hnew : t.bytes ∉ SlotTable.keys key rs) :
    (SlotTable.keys key rs).length < 65534 := by
  have hnodup : (t.bytes :: SlotTable.keys key rs).Nodup :=
    List.nodup_cons.2 ⟨hnew, h.table.distinct.nodup_keys⟩
  have hsub : (t.bytes :: SlotTable.keys key rs) ⊆ (liveTopics (calls ++ [.increment t])).map
      CString.bytes := by
    refine List.cons_subset.2 ⟨List.mem_map.2 ⟨t, mem_liveTopics.2 ?_, rfl⟩, fun k hk => ?_⟩
    · have hfold : fold t (calls ++ [.increment t]) = fold t calls + 1 :=
        fold_append_self calls (.increment t)
      rw [hfold]
      exact Nat.succ_pos _
    · obtain ⟨t', ht', rfl⟩ := List.mem_map.1 (h.keys_subset hk)
      have hne : (CountCall.increment t).topic ≠ t' := by rintro rfl; exact hnew hk
      exact List.mem_map.2
        ⟨t', mem_liveTopics.2 (by rw [fold_append_ne calls hne]; exact mem_liveTopics.1 ht'), rfl⟩
  have hlen := (hnodup.subperm hsub).length_le
  have := hbound.topics _ (List.prefix_refl _)
  rw [List.length_cons, List.length_map] at hlen
  omega

theorem next {calls : List CountCall} {c : CountCall} (h : Counted s rs calls)
    (hbound : Bounded (calls ++ [c])) : ∃ rs', Counted (s.next p c.op) rs' (calls ++ [c]) := by
  obtain ⟨h1, h2⟩ := hbound.names c (by simp)
  have hmax : countOf rs c.topic.bytes + 1 < 2 ^ 32 := by
    have := hbound.counts calls (List.prefix_append ..) c.topic
    rw [h.count]; omega
  have hroom : ∀ t, c = .increment t → t.bytes ∉ SlotTable.keys key rs →
      (SlotTable.keys key rs).length < 65534 := by
    rintro t rfl
    exact h.room hbound
  obtain ⟨rs', hrec, hrs'⟩ :=
    h.table.call (p := p) h.file h.error (checkTopicName_of_length h1 h2) hroom hmax
  refine ⟨rs', hrec.table, hrec.file, hrec.error_eq.trans h.error, fun t => ?_⟩
  rw [hrs', h.count]
  by_cases htc : c.topic = t
  · subst htc; rw [if_pos rfl, fold_append_self]
  · rw [if_neg fun hb => htc (CString.ext hb).symm, fold_append_ne calls htc]

theorem run {calls : List CountCall} (h : Counted s [] []) (hbound : Bounded calls) :
    ∃ rs, Counted (s.run p (calls.map CountCall.op)) rs calls := by
  induction calls using List.reverseRecOn with
  | nil => exact ⟨[], h⟩
  | append_singleton calls c ih =>
    obtain ⟨rs, hrs⟩ := ih (hbound.of_prefix (List.prefix_append ..))
    obtain ⟨rs', hrs'⟩ := hrs.next (p := p) hbound
    refine ⟨rs', ?_⟩
    rw [List.map_append, Persistent.run, List.foldl_append]
    exact hrs'

end Counted

theorem counted_begin (hcore : s.core = true) (hlogger : s.logger = true) (herr : s.error = false) :
    Counted (s.next p .begin) [] [] := by
  have hbegin : s.next p .begin = { s with
      transactionStarted := false
      notInClientRegistry := false
      fs := ((s.fs.remove mqttSub).openWrite clientRegistry).openWrite mqttSub } := by
    simp [Persistent.next, Persistent.step, Persistent.begin, Persistent.createFile, hcore, hlogger]
  rw [hbegin]
  refine ⟨.nil, ?_, herr, fun t => rfl⟩
  dsimp only
  rw [Files.contents_of_some Files.openWrite_self,
    Files.contents_congr (Files.openWrite_ne clientRegistry_ne_mqttSub.symm),
    Files.contents_of_none Files.remove_self, encode_nil]

/-- `uint16_buf` has room for five characters. -/
theorem count_fits_iff {n : Nat} (hn : n < 2 ^ 31) :
    logFits PERSISTENT_DEBUG 6 n = true ↔ n < 100000 :=
  logFits_iff hn

/-- The reply of a counting call: it prints the new count. -/
theorem Counted.reply {calls : List CountCall} {c : CountCall} (h : Counted s rs calls)
    (hbound : Bounded (calls ++ [c])) :
    (s.step p PERSISTENT_DEBUG c.op).1 =
      if logFits PERSISTENT_DEBUG 6 (fold c.topic (calls ++ [c])) then .bool true
      else .undefined := by
  obtain ⟨h1, h2⟩ := hbound.names c (by simp)
  have ht := checkTopicName_of_length h1 h2
  have hmax : countOf rs c.topic.bytes + 1 < 2 ^ 32 := by
    have := hbound.counts calls (List.prefix_append ..) c.topic
    rw [h.count]; omega
  rw [fold_append_self, ← h.count]
  cases c with
  | increment t =>
    refine (congrArg (Reply.ofOption .bool) (h.table.increment_reply h.file h.error ht hmax)).trans
      ?_
    exact apply_ite (Reply.ofOption .bool) _ _ _
  | decrement t =>
    refine (congrArg (Reply.ofOption .bool) (h.table.decrement_reply h.file h.error ht)).trans ?_
    exact apply_ite (Reply.ofOption .bool) _ _ _

/-- Every call returns, the count of a topic is what the calls for this topic alone add up to, and
`MQTT.SUB` has at most one record in use for a topic. -/
structure CountsRight (p : Platform) (s : Persistent) (calls : List CountCall) : Prop where
  returns : ∀ pre c, pre ++ [c] <+: calls →
    ((s.run p (pre.map CountCall.op)).step p PERSISTENT_DEBUG c.op).1 ≠ .undefined
  count : ∀ t : CString, 1 ≤ t.length → t.length < 255 →
    (s.run p (calls.map CountCall.op)).getGlobalTopicSubscriptionCount PERSISTENT_DEBUG (some t) =
      some (fold t calls)
  distinct : ∃ rs : List EntryMqttSubscription,
    (s.run p (calls.map CountCall.op)).fs.contents mqttSub = encode rs ∧
    ∀ (i j : Nat) (e b : EntryMqttSubscription), rs[i]? = some e → rs[j]? = some b →
      e.getNat EntryMqttSubscription.clientSubscriptionCount ≠ 0 →
      b.getNat EntryMqttSubscription.clientSubscriptionCount ≠ 0 →
      e.text EntryMqttSubscription.topicName = b.text EntryMqttSubscription.topicName → i = j

/-- The first count with six digits is printed by the call that comes to it. -/
theorem Counted.lt_of_returns {calls : List CountCall} (h : Counted s [] [])
    (hbound : Bounded calls)
    (hreturns : ∀ pre c, pre ++ [c] <+: calls →
      ((s.run p (pre.map CountCall.op)).step p PERSISTENT_DEBUG c.op).1 ≠ .undefined)
    {pre : List CountCall} (hpre : pre <+: calls) (t : CString) : fold t pre < 100000 := by
  induction pre using List.reverseRecOn with
  | nil => exact Nat.succ_pos _
  | append_singleton pre c ih =>
    have hlt := ih ((List.prefix_append ..).trans hpre)
    by_cases htc : c.topic = t
    · subst htc
      have hbound' := hbound.of_prefix hpre
      obtain ⟨rs, hrs⟩ := h.run (p := p) (hbound'.of_prefix (List.prefix_append ..))
      have hreply := hrs.reply (p := p) hbound'
      have hfits : logFits PERSISTENT_DEBUG 6 (fold c.topic (pre ++ [c])) = true := by
        by_contra hno
        rw [if_neg hno] at hreply
        exact hreturns pre c hpre hreply
      have hnext : fold c.topic (pre ++ [c]) ≤ 100000 := by
        rw [fold_append_self]
        exact (count_le _ c).trans hlt
      exact (count_fits_iff (by omega)).1 hfits
    · rw [fold_append_ne pre htc]
      exact hlt

/-- After any sequence of counting calls the counts are right, if and only if none of them has come
to 100000 on the way. -/
theorem global_counts_iff (hcore : s.core = true) (hlogger : s.logger = true)
    (herr : s.error = false) {calls : List CountCall} (hbound : Bounded calls) :
    CountsRight p (s.next p .begin) calls ↔ ∀ pre, pre <+: calls → ∀ t, fold t pre < 100000 := by
  have hstart := counted_begin (p := p) hcore hlogger herr
  refine ⟨fun h pre hpre t => hstart.lt_of_returns hbound h.returns hpre t, fun hlt =>
    ⟨fun pre c hpre => ?_, ?_, ?_⟩⟩
  · have hbound' := hbound.of_prefix hpre
    obtain ⟨rs, hrs⟩ := hstart.run (p := p) (hbound'.of_prefix (List.prefix_append ..))
    have hcount := hlt _ hpre c.topic
    rw [hrs.reply hbound', if_pos ((count_fits_iff (hcount.trans (by decide))).2 hcount)]
    exact fun h => by cases h
  · obtain ⟨rs, hrs⟩ := hstart.run (p := p) hbound
    intro t h1 h2
    have hcount := hlt _ (List.prefix_refl _) t
    rw [hrs.table.getGlobalTopicSubscriptionCount_eq hrs.file hrs.error
      (checkTopicName_of_length h1 h2), hrs.count,
      if_pos ((count_fits_iff (hcount.trans (by decide))).2 hcount)]
  · obtain ⟨rs, hrs⟩ := hstart.run (p := p) hbound
    refine ⟨rs, hrs.file, fun i j e b hi hj he hb hname => ?_⟩
    have hke : key e = some (e.text EntryMqttSubscription.topicName) := if_neg he
    have hkb : key b = some (e.text EntryMqttSubscription.topicName) := by
      rw [hname]
      exact if_neg hb
    exact hrs.table.distinct i j e b _ hi hj hke hkb

def twoTopics : List CountCall :=
  [.increment device1, .increment device2, .decrement device1, .increment device2]

theorem twoTopics_bounded : Bounded twoTopics where
  names := by decide
  topics := by
    have h : ∀ pre ∈ twoTopics.inits, (liveTopics pre).length ≤ 65534 := by decide
    exact fun pre hpre => h pre ((List.mem_inits _ _).2 hpre)
  counts := by
    intro pre hpre t
    have hfold := fold_le_length t pre
    have hlen : pre.length ≤ 4 := hpre.length_le
    omega

theorem global_counts_iff_two_topics :
    let s := (Persistent.setUp.next posix .begin).run posix (twoTopics.map CountCall.op)
    s.getGlobalTopicSubscriptionCount PERSISTENT_DEBUG (some device1) = some 0 ∧
      s.getGlobalTopicSubscriptionCount PERSISTENT_DEBUG (some device2) = some 2 := by
  have hlt : ∀ pre, pre <+: twoTopics → ∀ t, fold t pre < 100000 := by
    intro pre hpre t
    have hfold := fold_le_length t pre
    have hlen : pre.length ≤ 4 := hpre.length_le
    omega
  have h :=
    ((global_counts_iff (p := posix) (s := Persistent.setUp) rfl rfl rfl twoTopics_bounded).2
      hlt).count
  exact ⟨h device1 (by decide) (by decide), h device2 (by decide) (by decide)⟩

/-! ### A count of six digits -/

theorem CountCall.fold_replicate (t : CString) (n : Nat) :
    fold t (List.replicate n (.increment t)) = n := by
  induction n with
  | zero => rfl
  | succ n ih =>
    rw [List.replicate_succ']
    exact (fold_append_self _ (.increment t)).trans (congrArg Nat.succ ih)

theorem CountCall.Bounded.replicate {t : CString} (h1 : 1 ≤ t.length) (h2 : t.length < 255)
    {n : Nat} (hn : n < 2 ^ 32 - 1) : Bounded (List.replicate n (.increment t)) where
  names c hc := by
    rw [(List.mem_replicate.1 hc).2]
    exact ⟨h1, h2⟩
  topics pre hpre := by
    have hsub : liveTopics pre ⊆ [t] := by
      intro t' ht'
      obtain ⟨c, hc, rfl⟩ := List.mem_map.1 (List.mem_dedup.1 (List.mem_filter.1 ht').1)
      rw [(List.mem_replicate.1 (hpre.mem hc)).2]
      exact List.mem_singleton_self _
    have hle := ((List.nodup_dedup _).filter _).subperm hsub |>.length_le
    exact hle.trans (show 1 ≤ 65534 by omega)
  counts pre hpre t' := by
    have hfold := fold_le_length t' pre
    have hlen := hpre.length_le
    rw [List.length_replicate] at hlen
    omega

/-- Subscribing to one topic 100000 times prints behind the array. -/
theorem counts_overrun_buffer :
    let calls := List.replicate 100000 (CountCall.increment device1)
    Bounded calls ∧ ¬ CountsRight posix (Persistent.setUp.next posix .begin) calls := by
  intro calls
  have hbound : Bounded calls := .replicate (by decide) (by decide) (by decide)
  refine ⟨hbound, fun h => ?_⟩
  have hlt := (counted_begin (s := Persistent.setUp) rfl rfl rfl).lt_of_returns hbound h.returns
    (List.prefix_refl _) device1
  rw [CountCall.fold_replicate] at hlt
  exact absurd hlt (lt_irrefl _)

end SnGateway
