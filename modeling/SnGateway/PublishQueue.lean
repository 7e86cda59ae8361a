import SnGateway.Effects

/-!
# The publish queue of a client

The `.PUB` file is a table whose slot `i` is free or holds the publish id `i + 1` (`PubTable`), so
the publish ids are distinct and a publish id leads back to its record. Adding a publish takes a
free slot, a delivery step empties the slot of the record it returned.

`QueueRun` follows the queue through a run: beside the state it keeps what was added, in order,
which of the adds each queued publish id stands for, and what the delivery steps returned.
-/

namespace SnGateway
open RecordStore

namespace EntryPublish

def key (e : EntryPublish) : Option Nat := if isEmpty e then none else some (e.getNat publishId)

theorem key_eq_none {e : EntryPublish} : key e = none ↔ isEmpty e = true := by
  rw [key]
  split <;> simp_all

theorem key_eq_some {e : EntryPublish} {i : Nat} :
    key e = some i ↔ e.getNat publishId = i ∧ i ≠ 0 := by
  rw [key, isEmpty]
  by_cases h : e.getNat publishId = 0
  · rw [if_pos (by simpa using h)]
    simp only [reduceCtorEq, false_iff, not_and, not_not]
    exact fun hi => hi.symm.trans h
  · rw [if_neg (by simpa using h), Option.some.injEq]
    exact ⟨fun hi => ⟨hi, hi ▸ h⟩, fun hi => hi.1⟩

theorem key_zero : key (Record.zero 272) = none :=
  key_eq_none.2 (by simpa [isEmpty] using Record.getNat_zero publishId (by decide))

end EntryPublish

/-- A publish as it is handed to `add_client_publish`. -/
structure Message where
  data : Payload
  topicId : UInt16
  retain : Bool
  qos : UInt8
deriving DecidableEq

/-- What `get_next_publish` is to return for `m`. -/
def Message.next (m : Message) (publishId : Nat) : NextPublish where
  data := m.data.bytes
  dataLen := m.data.bytes.length
  topicId := m.topicId.toNat
  retain := m.retain
  qos := m.qos.toNat
  dup := false
  publishId := publishId

namespace EntryPublish

def ofMessage (m : Message) (slot : Int) : EntryPublish := make m.data m.topicId m.retain m.qos slot

theorem get_msg_ofMessage (m : Message) (slot : Int) :
    (ofMessage m slot).get msg = m.data.bytes ++ List.replicate (255 - m.data.bytes.length) 0 := by
  simp (disch := decide) only [ofMessage, make, Record.get_putNat_of_disjoint]
  rw [Record.get_putAt_front (f := msg) m.data.length_le (by decide),
    Record.get_zero msg (by decide), List.drop_replicate]
  rfl

theorem getNat_msgLength_ofMessage (m : Message) (slot : Int) :
    (ofMessage m slot).getNat msgLength = m.data.bytes.length := by
  simp (disch := decide) only [ofMessage, make, Record.getNat_putNat_of_disjoint,
    Record.getNat_putNat_self]
  have := m.data.length_le
  exact Nat.mod_eq_of_lt (by show _ < 256; omega)

theorem getNat_publishId_ofMessage_mod (m : Message) (slot : Int) :
    (ofMessage m slot).getNat publishId = ((slot + 1) % 2 ^ 16).toNat := by
  simp (disch := decide) only [ofMessage, make, Record.getNat_putNat_of_disjoint,
    Record.getNat_putNat_self]
  simp only [publishId]
  omega

theorem getNat_publishId_ofMessage (m : Message) {slot : Nat} (h : slot < 65535) :
    (ofMessage m slot).getNat publishId = slot + 1 := by
  rw [getNat_publishId_ofMessage_mod]
  omega

theorem next_ofMessage (m : Message) {slot : Nat} (h : slot < 65535) :
    next (ofMessage m slot) = m.next (slot + 1) := by
  have htopic : (ofMessage m slot).getNat topicId = m.topicId.toNat := by
    simp (disch := decide) only [ofMessage, make, Record.getNat_putNat_of_disjoint,
      Record.getNat_putNat_self]
    exact Nat.mod_eq_of_lt m.topicId.toNat_lt
  have hqos : (ofMessage m slot).getNat qos = m.qos.toNat := by
    simp (disch := decide) only [ofMessage, make, Record.getNat_putNat_of_disjoint,
      Record.getNat_putNat_self]
    exact Nat.mod_eq_of_lt m.qos.toNat_lt
  have hretain : (ofMessage m slot).getNat retain = m.retain.toNat := by
    simp (disch := decide) only [ofMessage, make, Record.getNat_putNat_of_disjoint,
      Record.getNat_putNat_self]
    cases m.retain <;> rfl
  have hdup : (ofMessage m slot).getNat dup = 0 := by
    simp (disch := decide) only [ofMessage, make, Record.getNat_putNat_of_disjoint,
      Record.getNat_putNat_self]
    rfl
  rw [next, get_msg_ofMessage, getNat_msgLength_ofMessage, getNat_publishId_ofMessage m h, htopic,
    hqos, hretain, hdup, Message.next]
  simp

theorem next_setMsgId (e : EntryPublish) (m : Nat) : next (e.putNat msgId m) = next e := by
  simp (disch := decide) only [next, Record.get_putNat_of_disjoint,
    Record.getNat_putNat_of_disjoint]

end EntryPublish

open EntryPublish (key)

structure PubTable (rs : List EntryPublish) : Prop where
  len : rs.length ≤ 65534
  slot : ∀ (i : Nat) (e : EntryPublish), rs[i]? = some e → key e = none ∨ key e = some (i + 1)

namespace PubTable

variable {rs : List EntryPublish}

theorem key_of_slot (h : PubTable rs) {i k : Nat} {e : EntryPublish} (hi : rs[i]? = some e)
    (hk : key e = some k) : k = i + 1 := by
  rcases h.slot i e hi with h0 | h0
  · rw [h0] at hk; cases hk
  · rw [h0] at hk; exact (Option.some.inj hk).symm

theorem distinct (h : PubTable rs) : SlotTable.Distinct key rs := by
  intro i j a b k hi hj ha hb
  have h1 := h.key_of_slot hi ha
  have h2 := h.key_of_slot hj hb
  omega

theorem mem_keys (h : PubTable rs) {k : Nat} :
    k ∈ SlotTable.keys key rs ↔ ∃ (i : Nat) (e : EntryPublish), k = i + 1 ∧ rs[i]? = some e ∧
      key e = some k := by
  rw [SlotTable.mem_keys]
  constructor
  · rintro ⟨i, e, hi, hk⟩
    exact ⟨i, e, h.key_of_slot hi hk, hi, hk⟩
  · rintro ⟨i, e, -, hi, hk⟩
    exact ⟨i, e, hi, hk⟩

theorem place (h : PubTable rs) {i : Nat} {e : EntryPublish} (hi : i ≤ rs.length)
    (hlen : (SlotTable.place rs i e).length ≤ 65534) (he : key e = none ∨ key e = some (i + 1)) :
    PubTable (SlotTable.place rs i e) := by
  refine ⟨hlen, fun j b hj => ?_⟩
  rw [SlotTable.getElem?_place hi] at hj
  split at hj
  · next hji => cases hj; rw [hji]; exact he
  · exact h.slot j b hj

theorem mem_keys_place (h : PubTable rs) {i k : Nat} {e : EntryPublish} (hi : i ≤ rs.length)
    (he : key e = none ∨ key e = some (i + 1)) :
    k ∈ SlotTable.keys key (SlotTable.place rs i e) ↔
      if k = i + 1 then key e = some (i + 1) else k ∈ SlotTable.keys key rs := by
  rw [SlotTable.mem_keys_place hi]
  split
  · next hk =>
    subst hk
    refine ⟨fun hor => hor.resolve_right ?_, .inl⟩
    rintro ⟨j, b, hji, hj, hb⟩
    have := h.key_of_slot hj hb
    omega
  · next hk =>
    rw [h.mem_keys]
    constructor
    · rintro (hke | ⟨j, b, -, hj, hb⟩)
      · rcases he with he | he
        · rw [he] at hke; cases hke
        · rw [he] at hke; exact absurd (Option.some.inj hke).symm hk
      · exact ⟨j, b, h.key_of_slot hj hb, hj, hb⟩
    · rintro ⟨j, b, hkj, hj, hb⟩
      exact .inr ⟨j, b, by omega, hj, hb⟩

theorem notMem_keys_of_free (h : PubTable rs) {k : Nat}
    (hfree : ∀ e, rs[k]? = some e → key e = none) : k + 1 ∉ SlotTable.keys key rs := by
  intro hmem
  obtain ⟨j, e, hj, he, hke⟩ := h.mem_keys.1 hmem
  obtain rfl : k = j := by omega
  rw [hfree e he] at hke; cases hke

/-- A record that takes a free slot brings one new publish id. -/
theorem mem_keys_add (h : PubTable rs) {k id : Nat} {e : EntryPublish} (hk : k ≤ rs.length)
    (hkey : key e = some (k + 1)) :
    id ∈ SlotTable.keys key (SlotTable.place rs k e) ↔ id ∈ SlotTable.keys key rs ∨ id = k + 1 := by
  rw [h.mem_keys_place hk (.inr hkey)]
  by_cases hid : id = k + 1
  · simp [hid, hkey]
  · simp [hid]

theorem newKeys_add (h : PubTable rs) {k : Nat} {e : EntryPublish} (hk : k ≤ rs.length)
    (hfree : ∀ e, rs[k]? = some e → key e = none) (hkey : key e = some (k + 1))
    (hlen : (SlotTable.place rs k e).length ≤ 65534) :
    ((SlotTable.keys key (SlotTable.place rs k e)).filter fun id => id ∉ SlotTable.keys key rs) =
      [k + 1] := by
  have hnodup := (h.place hk hlen (.inr hkey)).distinct.nodup_keys
  rw [← List.perm_singleton]
  refine (List.perm_ext_iff_of_nodup (hnodup.filter _) (List.nodup_singleton _)).2 fun id => ?_
  rw [List.mem_filter, decide_eq_true_eq, h.mem_keys_add hk hkey, List.mem_singleton]
  constructor
  · rintro ⟨hid | hid, hno⟩
    exacts [absurd hid hno, hid]
  · rintro rfl; exact ⟨.inr rfl, h.notMem_keys_of_free hfree⟩

end PubTable

/-! ### The operations -/

namespace Persistent

/-- The transaction's client is registered and its publish file holds the records `rs`. -/
structure Queue (s : Persistent) (rs : List EntryPublish) : Prop where
  isOpen : s.blocked = false
  isIn : s.notInClientRegistry = false
  file : s.fs.contents (s.clientFile .publish) = encode rs
  table : PubTable rs

def setPublishes (s : Persistent) (rs : List EntryPublish) : Persistent :=
  { s with fs := s.fs.set (s.clientFile .publish) (encode rs) }

namespace Queue

variable {p : Platform} {s : Persistent} {rs rs' : List EntryPublish}

theorem set (h : Queue s rs) (ht : PubTable rs') : Queue (s.setPublishes rs') rs' :=
  ⟨h.isOpen, h.isIn, Files.contents_set_self _, ht⟩

theorem scan_mark (h : Queue s rs) (mark : EntryPublish → Bool) :
    (publishScanner mark fun _ => false).scan (s.fs.contents (s.clientFile .publish)) =
      .exhausted (rs.length + 1) (lastIdx? mark rs) (Record.zero 272) := by
  have hlen := h.table.len
  rw [h.file]
  rcases (publishScanner mark fun _ => false).scan_cases (by omega) rs
    (by show _ < 2 ^ 16; omega) with
    ⟨i, e, -, hstop, -⟩ | ⟨-, hscan⟩
  · simp [Scanner.stops, publishScanner] at hstop
  · exact hscan

theorem addClientPublish_eq (h : Queue s rs) (m : Message) (u : Bool) (i : UInt16) :
    ∃ k, k ≤ rs.length ∧ (∀ e, rs[k]? = some e → key e = none) ∧
      (k = rs.length → ∀ e ∈ rs, key e ≠ none) ∧
      s.addClientPublish p m.data m.topicId m.retain m.qos u i =
        s.setPublishes (SlotTable.place rs k (EntryPublish.ofMessage m k)) := by
  obtain ⟨k, hk, hle, hfree, hfull⟩ := lastIdx?_slot EntryPublish.isEmpty rs
  have hlen := h.table.len
  refine ⟨k, hle, fun e he => EntryPublish.key_eq_none.2 (hfree e he), fun hkl e he hnone => ?_, ?_⟩
  · have := hfull hkl e he
    rw [EntryPublish.key_eq_none.1 hnone] at this
    cases this
  unfold addClientPublish
  rw [if_neg (by simp [h.isOpen]), if_neg (by simp [h.isIn])]
  dsimp only
  rw [h.scan_mark]
  dsimp only
  rw [firstEmptySpace_succ, hk, sizeMul_natCast (by omega), Files.writeAt_encode p _ h.file hle]
  rfl

/-- The record in the last used slot is returned. -/
theorem getNextPublish_cases (h : Queue s rs) :
    (∃ (i : Nat) (e : EntryPublish), rs[i]? = some e ∧ key e = some (i + 1) ∧
        (∀ (j : Nat) (b : EntryPublish), i < j → rs[j]? = some b → key b = none) ∧
        s.getNextPublish p = some (EntryPublish.next e)) ∨
      (SlotTable.keys key rs = [] ∧ s.getNextPublish p = none) := by
  unfold getNextPublish
  rw [if_neg (by simp [h.isOpen]), if_neg (by simp [h.isIn])]
  dsimp only
  rw [h.scan_mark]
  cases hlast : lastIdx? (fun e => !EntryPublish.isEmpty e) rs with
  | none =>
    refine .inr ⟨List.filterMap_eq_nil_iff.2 fun e he => EntryPublish.key_eq_none.2 ?_, rfl⟩
    simpa using lastIdx?_eq_none.1 hlast e he
  | some i =>
    obtain ⟨hi, hused, hlast⟩ := lastIdx?_eq_some hlast
    have hslot : rs[i]? = some rs[i] := List.getElem?_eq_getElem hi
    have hkey : key rs[i] = some (i + 1) := by
      refine (h.table.slot i _ hslot).resolve_left fun h0 => ?_
      rw [EntryPublish.key_eq_none.1 h0] at hused; cases hused
    refine .inl ⟨i, rs[i], hslot, hkey, fun j b hij hj => ?_, ?_⟩
    · obtain ⟨hjl, rfl⟩ := List.getElem?_eq_some_iff.1 hj
      exact EntryPublish.key_eq_none.2 (by simpa using hlast j hjl hij)
    dsimp only
    rw [Files.readAt_encode p h.file hi.le, hslot, Option.map_some, Option.getD_some,
      Record.fill_bytes]

theorem hasClientPublishes_iff (h : Queue s rs) :
    s.hasClientPublishes = true ↔ SlotTable.keys key rs ≠ [] := by
  have hlen := h.table.len
  unfold hasClientPublishes
  rw [if_neg (by simp [h.isOpen]), if_neg (by simp [h.isIn]), h.file]
  rcases (publishScanner (fun _ => false) fun e => !EntryPublish.isEmpty e).scan_cases (by omega) rs
    (by show _ < 2 ^ 16; omega) with ⟨i, e, hi, hstop, -, hscan⟩ | ⟨hnone, hscan⟩
  · rw [hscan]
    have hused : key e ≠ none := by
      rw [Ne, EntryPublish.key_eq_none]
      simpa [Scanner.stops, publishScanner] using hstop
    simp only [true_iff]
    intro hnil
    exact hused (List.filterMap_eq_nil_iff.1 hnil e (List.mem_of_getElem? hi))
  · rw [hscan]
    simp only [Bool.false_eq_true, false_iff, not_not]
    refine List.filterMap_eq_nil_iff.2 fun e he => EntryPublish.key_eq_none.2 ?_
    obtain ⟨i, hi⟩ := List.getElem?_of_mem he
    simpa [Scanner.stops, publishScanner] using hnone i e hi

theorem updatePublish_eq (h : Queue s rs) {i : Nat} {e : EntryPublish} {publishId : UInt16}
    (f : EntryPublish → EntryPublish) (hi : rs[i]? = some e) (hk : key e = some (i + 1))
    (hid : publishId.toNat = i + 1) :
    s.updatePublish p publishId f = s.setPublishes (SlotTable.place rs i (f e)) := by
  have hlt : i < rs.length := (List.getElem?_eq_some_iff.1 hi).1
  have hlen := h.table.len
  have htarget : sizeMul ((publishId.toNat : Int) - 1) 272 = i * 272 := by
    rw [hid, show ((i + 1 : Nat) : Int) - 1 = (i : Nat) by omega, sizeMul_natCast (by omega)]
  have hread : s.fs.readAt p (s.clientFile .publish) (i * 272) 272 = e.bytes := by
    rw [Files.readAt_encode p h.file hlt.le, hi]
    rfl
  unfold updatePublish
  rw [if_neg (by simp [h.isOpen]), if_neg (by simp [h.isIn])]
  dsimp only
  rw [htarget, hread, if_pos e.size_eq, Record.fill_bytes,
    if_pos (by rw [(EntryPublish.key_eq_some.1 hk).1, hid]), Files.writeAt_encode p _ h.file hlt.le]
  rfl

end Queue

end Persistent

/-! ### Runs -/

namespace Persistent

def publishes (s : Persistent) : List EntryPublish :=
  whole 272 (s.fs.contents (s.clientFile .publish))

def queuedIds (s : Persistent) : List Nat := SlotTable.keys key s.publishes

theorem publishes_of_contents {s : Persistent} {rs : List EntryPublish}
    (h : s.fs.contents (s.clientFile .publish) = encode rs) : s.publishes = rs := by
  rw [publishes, h, whole_encode (by omega)]

theorem Queue.publishes_eq {s : Persistent} {rs : List EntryPublish} (h : Queue s rs) :
    s.publishes = rs :=
  publishes_of_contents h.file

theorem Queue.queuedIds_eq {s : Persistent} {rs : List EntryPublish} (h : Queue s rs) :
    s.queuedIds = SlotTable.keys key rs := by
  rw [queuedIds, h.publishes_eq]

end Persistent

inductive QueueOp where
  | add (m : Message) (dup : Bool) (msgId : UInt16)
  | setMsgId (publishId msgId : UInt16)
  | deliver
  /-- What happens until the client's next transaction. -/
  | others (ops : List Op)

/-- A run of the queue. `queued` tells for each publish id which add it stands for, `returned` what
the delivery steps returned and which add its publish id stood for. -/
structure QueueRun where
  s : Persistent
  added : List Message
  queued : List (Nat × Nat)
  returned : List (Option Nat × NextPublish)

namespace QueueRun

def start (s : Persistent) : QueueRun := ⟨s, [], [], []⟩

def step (p : Platform) (q : QueueRun) : QueueOp → QueueRun
  | .add m u i =>
    let s' := q.s.next p (.addClientPublish m.data m.topicId m.retain m.qos u i)
    { q with
      s := s'
      added := q.added ++ [m]
      queued := q.queued ++
        (s'.queuedIds.filter fun id => id ∉ q.s.queuedIds).map fun id => (id, q.added.length) }
  | .setMsgId id i => { q with s := q.s.next p (.setPublishMsgId id i) }
  | .deliver =>
    match q.s.getNextPublish p with
    | none => q
    | some n =>
      if n.publishId = 0 then q
      else
        { q with
          s := q.s.next p (.removePublishByPublishId (UInt16.ofNat n.publishId))
          queued := q.queued.filter fun x => x.1 ≠ n.publishId
          returned := q.returned ++ [(q.queued.lookup n.publishId, n)] }
  | .others ops => { q with s := q.s.run p ops }

def run (p : Platform) (q : QueueRun) (ops : List QueueOp) : QueueRun := ops.foldl (step p) q

/-- Message ids are set for queued publishes only; what happens elsewhere leaves the publish file
alone and ends in a transaction of the client. -/
def Admits (p : Platform) (q : QueueRun) : QueueOp → Prop
  | .setMsgId id _ => id.toNat ∈ q.s.queuedIds
  | .others ops =>
    (q.s.run p ops).blocked = false ∧ (q.s.run p ops).notInClientRegistry = false ∧
      (q.s.run p ops).fs.contents ((q.s.run p ops).clientFile .publish) =
        q.s.fs.contents (q.s.clientFile .publish)
  | _ => True

instance (p : Platform) (q : QueueRun) (op : QueueOp) : Decidable (q.Admits p op) := by
  unfold Admits
  cases op <;> infer_instance

/-- The publish file never holds more than 65534 records. -/
def Fits (q : QueueRun) : Prop := (q.s.fs.contents (q.s.clientFile .publish)).length ≤ 65534 * 272

instance (q : QueueRun) : Decidable q.Fits := inferInstanceAs (Decidable (_ ≤ _))

def AdmitsRun (p : Platform) : QueueRun → List QueueOp → Prop
  | _, [] => True
  | q, op :: ops => q.Admits p op ∧ (q.step p op).Fits ∧ AdmitsRun p (q.step p op) ops

def decidableAdmitsRun (p : Platform) :
    ∀ (q : QueueRun) (ops : List QueueOp), Decidable (q.AdmitsRun p ops)
  | _, [] => .isTrue trivial
  | q, op :: ops =>
    have := decidableAdmitsRun p (q.step p op) ops
    inferInstanceAs (Decidable (_ ∧ _ ∧ _))

instance (p : Platform) (q : QueueRun) (ops : List QueueOp) : Decidable (q.AdmitsRun p ops) :=
  decidableAdmitsRun p q ops

end QueueRun

open Persistent

/-- What holds at any time in a run of the queue whose publish file holds the records `rs`. -/
structure QueueInv (q : QueueRun) (rs : List EntryPublish) : Prop where
  queue : Queue q.s rs
  ids : (q.queued.map Prod.fst).Perm (SlotTable.keys key rs)
  owner : ∀ x ∈ q.queued, ∃ (i : Nat) (e : EntryPublish) (m : Message), x.1 = i + 1 ∧
    rs[i]? = some e ∧
    key e = some (i + 1) ∧ q.added[x.2]? = some m ∧ EntryPublish.next e = m.next (i + 1)
  tags : (q.returned.map Prod.fst ++ q.queued.map fun x => some x.2).Perm
    ((List.range q.added.length).map some)
  back : ∀ x ∈ q.returned, ∃ (i : Nat) (m : Message), x.1 = some i ∧ q.added[i]? = some m ∧
    x.2 = m.next x.2.publishId

namespace QueueInv

variable {p : Platform} {q : QueueRun} {rs rs' : List EntryPublish}

theorem start {s : Persistent} (h : Queue s rs) (hempty : s.queuedIds = []) :
    QueueInv (.start s) rs := by
  refine ⟨h, ?_, by simp [QueueRun.start], by simp [QueueRun.start], by simp [QueueRun.start]⟩
  rw [← h.queuedIds_eq, hempty]; rfl

theorem nodup_ids (h : QueueInv q rs) : (q.queued.map Prod.fst).Nodup :=
  h.ids.nodup_iff.2 h.queue.table.distinct.nodup_keys

/-- An add takes a free slot, or the one behind the last when there is none. -/
theorem add (h : QueueInv q rs) {m : Message} {u : Bool} {i : UInt16}
    (hfits : (q.step p (.add m u i)).Fits) :
    ∃ k, k ≤ rs.length ∧ (∀ e, rs[k]? = some e → key e = none) ∧
      (k = rs.length → ∀ e ∈ rs, key e ≠ none) ∧
      (q.step p (.add m u i)).queued = q.queued ++ [(k + 1, q.added.length)] ∧
      QueueInv (q.step p (.add m u i)) (SlotTable.place rs k (EntryPublish.ofMessage m k)) := by
  obtain ⟨k, hk, hfree, hfull, hadd⟩ := h.queue.addClientPublish_eq (p := p) m u i
  have hs : (q.step p (.add m u i)).s = q.s.setPublishes
      (SlotTable.place rs k (EntryPublish.ofMessage m k)) := hadd
  have hlen : (SlotTable.place rs k (EntryPublish.ofMessage m k)).length ≤ 65534 := by
    rw [QueueRun.Fits, hs] at hfits
    rw [show (q.s.setPublishes _).fs.contents ((q.s.setPublishes _).clientFile .publish) = _ from
      Files.contents_set_self _, length_encode] at hfits
    omega
  have hklt : k < 65535 := by
    rw [SlotTable.length_place hk] at hlen
    omega
  have hnext := EntryPublish.next_ofMessage m hklt
  have hkey : key (EntryPublish.ofMessage m k) = some (k + 1) :=
    EntryPublish.key_eq_some.2 ⟨EntryPublish.getNat_publishId_ofMessage m hklt, Nat.succ_ne_zero k⟩
  have htable := h.queue.table.place hk hlen (.inr hkey)
  have hqueue :
      Queue (q.step p (.add m u i)).s (SlotTable.place rs k (EntryPublish.ofMessage m k)) := by
    rw [hs]
    exact h.queue.set htable
  have hfresh := h.queue.table.notMem_keys_of_free hfree
  have hnew : ((q.step p (.add m u i)).s.queuedIds.filter fun id => id ∉ q.s.queuedIds) =
      [k + 1] := by
    rw [hqueue.queuedIds_eq, h.queue.queuedIds_eq]
    exact h.queue.table.newKeys_add hk hfree hkey hlen
  have hqueued : (q.step p (.add m u i)).queued = q.queued ++ [(k + 1, q.added.length)] := by
    show q.queued ++ ((q.step p (.add m u i)).s.queuedIds.filter fun id => id ∉ q.s.queuedIds).map
      _ = _
    rw [hnew]; rfl
  have hadded : (q.step p (.add m u i)).added = q.added ++ [m] := rfl
  have hold : ∀ {j : Nat} {m' : Message}, q.added[j]? = some m' → (q.added ++ [m])[j]? =
      some m' := by
    intro j m' hj
    rw [List.getElem?_append_left (List.getElem?_eq_some_iff.1 hj).1]; exact hj
  refine ⟨k, hk, hfree, hfull, hqueued, hqueue, ?_, fun x hx => ?_, ?_, fun x hx => ?_⟩
  · rw [hqueued, List.map_append]
    refine (List.perm_ext_iff_of_nodup ?_ htable.distinct.nodup_keys).2 fun id => ?_
    · refine h.nodup_ids.append (List.nodup_singleton _) ?_
      rw [List.map_singleton, List.disjoint_singleton, h.ids.mem_iff]
      exact hfresh
    · rw [List.mem_append, h.ids.mem_iff, h.queue.table.mem_keys_add hk hkey, List.map_singleton,
        List.mem_singleton]
  · rw [hqueued, List.mem_append, List.mem_singleton] at hx
    rw [hadded]
    rcases hx with hx | rfl
    · obtain ⟨j, e, m', hj, he, hke, hm', hne⟩ := h.owner x hx
      have hjk : j ≠ k := by
        rintro rfl
        rw [hfree e he] at hke; cases hke
      exact ⟨j, e, m', hj, by rw [SlotTable.getElem?_place hk, if_neg hjk]; exact he, hke,
        hold hm', hne⟩
    · exact ⟨k, _, m, rfl, by rw [SlotTable.getElem?_place hk, if_pos rfl], hkey, by simp, hnext⟩
  · rw [hqueued, hadded, List.map_append, ← List.append_assoc, List.length_append,
      List.length_singleton,
      List.range_succ, List.map_append]
    exact h.tags.append_right _
  · obtain ⟨j, m', hj, hm', hx'⟩ := h.back x hx
    exact ⟨j, m', hj, hold hm', hx'⟩

theorem setMsgId (h : QueueInv q rs) {id i : UInt16} (hid : id.toNat ∈ q.s.queuedIds) :
    ∃ rs', QueueInv (q.step p (.setMsgId id i)) rs' ∧ rs'.length = rs.length := by
  rw [h.queue.queuedIds_eq, h.queue.table.mem_keys] at hid
  obtain ⟨k, e, hidk, he, hk⟩ := hid
  rw [hidk] at hk
  have hlt : k < rs.length := (List.getElem?_eq_some_iff.1 he).1
  have hlen := h.queue.table.len
  obtain ⟨e', he'⟩ : ∃ e', e.putNat EntryPublish.msgId i.toNat = e' := ⟨_, rfl⟩
  have hnext : EntryPublish.next e' = EntryPublish.next e := by
    rw [← he', EntryPublish.next_setMsgId]
  have hk' : key e' = some (k + 1) := by
    rw [EntryPublish.key_eq_some] at hk ⊢
    rw [← he', Record.getNat_putNat_of_disjoint (by decide)]
    exact hk
  have hs : (q.step p (.setMsgId id i)).s = q.s.setPublishes (SlotTable.place rs k e') := by
    rw [← he']
    exact h.queue.updatePublish_eq (fun e => e.putNat EntryPublish.msgId i.toNat) he hk hidk
  have hplace : (SlotTable.place rs k e').length = rs.length := by
    rw [SlotTable.length_place hlt.le]
    omega
  have htable := h.queue.table.place hlt.le (by omega) (.inr hk')
  refine ⟨SlotTable.place rs k e', ⟨by rw [hs]; exact h.queue.set htable, ?_, fun x hx => ?_,
    h.tags, h.back⟩, hplace⟩
  · refine h.ids.trans ((List.perm_ext_iff_of_nodup h.queue.table.distinct.nodup_keys
      htable.distinct.nodup_keys).2 fun id' => ?_)
    rw [h.queue.table.mem_keys_place hlt.le (.inr hk')]
    split
    · next hid' =>
      rw [hid', h.queue.table.mem_keys]
      exact ⟨fun _ => hk', fun _ => ⟨k, e, rfl, he, hk⟩⟩
    · rfl
  · obtain ⟨j, b, m, hj, hb, hkb, hm, hnb⟩ := h.owner x hx
    by_cases hjk : j = k
    · subst hjk
      rw [he] at hb; cases hb
      exact ⟨j, e', m, hj, by rw [SlotTable.getElem?_place hlt.le, if_pos rfl], hk', hm,
        hnext.trans hnb⟩
    · exact ⟨j, b, m, hj, by rw [SlotTable.getElem?_place hlt.le, if_neg hjk]; exact hb,
        hkb, hm, hnb⟩

theorem split_queued (h : QueueInv q rs) {i : Nat} {e : EntryPublish} (he : rs[i]? = some e)
    (hk : key e = some (i + 1)) :
    ∃ (tag : Nat) (l₁ l₂ : List (Nat × Nat)), q.queued = l₁ ++ (i + 1, tag) :: l₂ ∧
      q.queued.lookup (i + 1) = some tag ∧ (q.queued.filter fun x => x.1 ≠ i + 1) = l₁ ++ l₂ := by
  have hmem : i + 1 ∈ q.queued.map Prod.fst :=
    h.ids.mem_iff.2 (h.queue.table.mem_keys.2 ⟨i, e, rfl, he, hk⟩)
  obtain ⟨⟨id, tag⟩, hx, hid⟩ := List.mem_map.1 hmem
  obtain rfl : id = i + 1 := hid
  obtain ⟨l₁, l₂, hl⟩ := List.append_of_mem hx
  have hnodup := h.nodup_ids
  rw [hl, List.map_append, List.map_cons, List.nodup_middle, List.nodup_cons, List.mem_append]
    at hnodup
  have h1 : ∀ x ∈ l₁, x.1 ≠ i + 1 := fun x hx1 hx' => hnodup.1 (.inl (List.mem_map.2 ⟨x, hx1, hx'⟩))
  have h2 : ∀ x ∈ l₂, x.1 ≠ i + 1 := fun x hx2 hx' => hnodup.1 (.inr (List.mem_map.2 ⟨x, hx2, hx'⟩))
  refine ⟨tag, l₁, l₂, hl, ?_, ?_⟩
  · exact List.lookup_eq_some_iff.2 ⟨l₁, l₂, hl, fun x hx1 => by simpa using (h1 x hx1).symm⟩
  · rw [hl, List.filter_append, List.filter_cons_of_neg (by simp),
      List.filter_eq_self.2 (by simpa using h1),
      List.filter_eq_self.2 (by simpa using h2)]

theorem deliver (h : QueueInv q rs) :
    ∃ rs', QueueInv (q.step p .deliver) rs' ∧ rs'.length = rs.length := by
  rcases h.queue.getNextPublish_cases (p := p) with ⟨i, e, he, hk, -, hnext⟩ | ⟨-, hnext⟩
  swap
  · exact ⟨rs, by rw [QueueRun.step, hnext]; exact h, rfl⟩
  obtain ⟨tag, l₁, l₂, hqueued, hlookup, hfilter⟩ := h.split_queued he hk
  have hlt : i < rs.length := (List.getElem?_eq_some_iff.1 he).1
  have hlen := h.queue.table.len
  have hid : (EntryPublish.next e).publishId = i + 1 := (EntryPublish.key_eq_some.1 hk).1
  have hremove : q.s.next p (.removePublishByPublishId (UInt16.ofNat (i + 1))) =
      q.s.setPublishes (SlotTable.place rs i (Record.zero 272)) :=
    h.queue.updatePublish_eq (fun _ => Record.zero 272) he hk
      (UInt16.toNat_ofNat_of_lt (by show _ < 65536; omega))
  have hstep : q.step p .deliver = { q with
      s := q.s.setPublishes (SlotTable.place rs i (Record.zero 272))
      queued := l₁ ++ l₂
      returned := q.returned ++ [(some tag, EntryPublish.next e)] } := by
    rw [QueueRun.step, hnext]
    dsimp only
    rw [hid, if_neg (Nat.succ_ne_zero i), hremove, hlookup, hfilter]
  have hplace : (SlotTable.place rs i (Record.zero 272)).length = rs.length := by
    rw [SlotTable.length_place hlt.le]
    omega
  have htable := h.queue.table.place hlt.le (by omega) (.inl EntryPublish.key_zero)
  have hsub : ∀ x ∈ l₁ ++ l₂, x ∈ q.queued ∧ x.1 ≠ i + 1 := by
    intro x hx
    rw [← hfilter, List.mem_filter, decide_eq_true_eq] at hx
    exact hx
  rw [hstep]
  refine ⟨_, ⟨h.queue.set htable, ?_, fun x hx => ?_, ?_, fun x hx => ?_⟩, hplace⟩
  · have hnodup := h.nodup_ids
    rw [hqueued, List.map_append, List.map_cons, List.nodup_middle, ← List.map_append,
      List.nodup_cons] at hnodup
    refine (List.perm_ext_iff_of_nodup hnodup.2 htable.distinct.nodup_keys).2 fun id => ?_
    rw [h.queue.table.mem_keys_place hlt.le (.inl EntryPublish.key_zero), EntryPublish.key_zero,
      ← h.ids.mem_iff,
      hqueued, List.map_append, List.map_append, List.map_cons, List.mem_append, List.mem_append,
      List.mem_cons]
    split
    · next hidi =>
      subst hidi
      simp only [reduceCtorEq, iff_false]
      rw [← List.mem_append, ← List.map_append]
      exact hnodup.1
    · next hidi => simp [hidi]
  · obtain ⟨hx1, hx2⟩ := hsub x hx
    obtain ⟨j, b, m, hj, hb, hkb, hm, hnb⟩ := h.owner x hx1
    exact ⟨j, b, m, hj, by rw [SlotTable.getElem?_place hlt.le, if_neg (by omega)]; exact hb,
      hkb, hm, hnb⟩
  · have htags := h.tags
    rw [hqueued, List.map_append, List.map_cons] at htags
    refine List.Perm.trans ?_ htags
    dsimp only
    rw [List.map_append, List.map_singleton, List.append_assoc, List.singleton_append,
      List.map_append]
    exact (List.perm_middle (a := some tag)).symm.append_left _
  · rw [List.mem_append, List.mem_singleton] at hx
    rcases hx with hx | rfl
    · exact h.back x hx
    · obtain ⟨j, b, m, hj, hb, -, hm, hnb⟩ := h.owner (i + 1, tag) (by rw [hqueued]; simp)
      obtain rfl : i = j := by simpa using hj
      rw [he] at hb; cases hb
      exact ⟨tag, m, rfl, hm, by rw [hid]; exact hnb⟩

theorem others (h : QueueInv q rs) {ops : List Op} (ha : q.Admits p (.others ops)) :
    QueueInv (q.step p (.others ops)) rs :=
  ⟨⟨ha.1, ha.2.1, ha.2.2.trans h.queue.file, h.queue.table⟩, h.ids, h.owner, h.tags, h.back⟩

theorem step (h : QueueInv q rs) {op : QueueOp} (ha : q.Admits p op) (hfits : (q.step p op).Fits) :
    ∃ rs', QueueInv (q.step p op) rs' := by
  cases op with
  | add m u i =>
    obtain ⟨k, -, -, -, -, h'⟩ := h.add hfits
    exact ⟨_, h'⟩
  | setMsgId id i =>
    obtain ⟨rs', h', -⟩ := h.setMsgId (p := p) (i := i) ha
    exact ⟨rs', h'⟩
  | deliver =>
    obtain ⟨rs', h', -⟩ := h.deliver (p := p)
    exact ⟨rs', h'⟩
  | others ops => exact ⟨rs, h.others ha⟩

theorem run (h : QueueInv q rs) {ops : List QueueOp} (ha : q.AdmitsRun p ops) :
    ∃ rs', QueueInv (q.run p ops) rs' := by
  induction ops generalizing q rs with
  | nil => exact ⟨rs, h⟩
  | cons op ops ih =>
    obtain ⟨rs', h'⟩ := h.step ha.1 ha.2.1
    exact ih h' ha.2.2

end QueueInv

/-- Each added publish is returned by one delivery step, as it was added, or its record is still in
the file; publish ids are distinct and name their slots, and `has_client_publishes` tells whether
`get_next_publish` has something to return. -/
theorem publishes_returned_once {p : Platform} {s : Persistent} {rs : List EntryPublish}
    {ops : List QueueOp} (hopen : s.blocked = false) (hin : s.notInClientRegistry = false)
    (hfile : s.fs.contents (s.clientFile .publish) = encode rs) (hlen : rs.length ≤ 65534)
    (hempty : s.queuedIds = []) (ha : (QueueRun.start s).AdmitsRun p ops) :
    let q := (QueueRun.start s).run p ops
    (q.returned.map Prod.fst ++ q.queued.map fun x => some x.2).Perm
      ((List.range q.added.length).map some) ∧
    (∀ x ∈ q.returned, ∃ (i : Nat) (m : Message), x.1 = some i ∧ q.added[i]? = some m ∧
      x.2 = m.next x.2.publishId) ∧
    (q.queued.map Prod.fst).Perm q.s.queuedIds ∧
    (∀ x ∈ q.queued, ∃ (i : Nat) (e : EntryPublish) (m : Message), x.1 = i + 1 ∧
      q.s.publishes[i]? = some e ∧
      q.added[x.2]? = some m ∧ EntryPublish.next e = m.next x.1) ∧
    (∀ (i : Nat) (e : EntryPublish), q.s.publishes[i]? = some e →
      e.getNat EntryPublish.publishId = 0 ∨ e.getNat EntryPublish.publishId = i + 1) ∧
    q.s.queuedIds.Nodup ∧ (∀ id ∈ q.s.queuedIds, id ≠ 0) ∧
    (q.s.hasClientPublishes = true ↔ ∃ n, q.s.getNextPublish p = some n ∧ n.publishId ≠ 0) := by
  intro q
  have hnone : ∀ (i : Nat) (e : EntryPublish), rs[i]? = some e → key e = none ∨
      key e = some (i + 1) := by
    intro i e he
    rw [queuedIds, publishes_of_contents hfile, SlotTable.keys, List.filterMap_eq_nil_iff] at hempty
    exact .inl (hempty e (List.mem_of_getElem? he))
  obtain ⟨rs', h⟩ : ∃ rs', QueueInv q rs' :=
    (QueueInv.start ⟨hopen, hin, hfile, hlen, hnone⟩ hempty).run ha
  have hids := h.queue.queuedIds_eq
  have hpubs := h.queue.publishes_eq
  refine ⟨h.tags, h.back, by rw [hids]; exact h.ids, fun x hx => ?_, fun i e he => ?_, ?_,
    fun id hid => ?_, ?_⟩
  · obtain ⟨i, e, m, hi, he, -, hm, hn⟩ := h.owner x hx
    exact ⟨i, e, m, hi, by rw [hpubs]; exact he, hm, by rw [hi]; exact hn⟩
  · rw [hpubs] at he
    rcases h.queue.table.slot i e he with h0 | h0
    · exact .inl (by simpa [EntryPublish.isEmpty] using EntryPublish.key_eq_none.1 h0)
    · exact .inr (EntryPublish.key_eq_some.1 h0).1
  · rw [hids]; exact h.queue.table.distinct.nodup_keys
  · rw [hids, h.queue.table.mem_keys] at hid
    obtain ⟨i, -, rfl, -⟩ := hid
    exact Nat.succ_ne_zero i
  · rw [h.queue.hasClientPublishes_iff]
    rcases h.queue.getNextPublish_cases (p := p) with ⟨i, e, he, hk, -, hnext⟩ | ⟨hnil, hnext⟩
    · have hmem := h.queue.table.mem_keys.2 ⟨i, e, rfl, he, hk⟩
      refine ⟨fun _ => ⟨_, hnext, ?_⟩, fun _ => List.ne_nil_of_mem hmem⟩
      rw [show (EntryPublish.next e).publishId = i + 1 from (EntryPublish.key_eq_some.1 hk).1]
      exact Nat.succ_ne_zero i
    · simp [hnil, hnext]

def message1 : Message := ⟨⟨[1, 2, 3], by decide⟩, 7, false, 1⟩
def message2 : Message := ⟨⟨[], by decide⟩, 8, true, 2⟩

theorem publishes_returned_once_reused :
    let s :=
      setUp.run posix [.begin, .startClientTransaction device1, .addClient device1 address1 60]
    let ops : List QueueOp := [.add message1 true 5, .add message2 false 0, .deliver, .setMsgId 1 9,
      .others [.applyTransaction, .startClientTransaction device1], .add message1 false 0, .deliver]
    let q := (QueueRun.start s).run posix ops
    q.returned = [(some 1, message2.next 2), (some 2, message1.next 2)] ∧ q.queued = [(1, 0)] ∧
      q.s.queuedIds.Nodup := by
  intro s ops q
  have hq : q = (QueueRun.start s).run posix _ := rfl
  have hrs : s.fs.contents (s.clientFile .publish) = encode ([] : List EntryPublish) := by
    decide +kernel
  have hrun : (QueueRun.start s).AdmitsRun posix ops ∧
      q.returned = [(some 1, message2.next 2), (some 2, message1.next 2)] ∧
      q.queued = [(1, 0)] := by
    rw [hq]
    decide +kernel
  obtain ⟨ha, hreturned, hqueued⟩ := hrun
  obtain ⟨-, -, -, -, -, hnodup, -⟩ :=
    publishes_returned_once (by decide +kernel) (by decide +kernel) hrs (by decide)
      (by decide +kernel) ha
  rw [← hq] at hnodup
  exact ⟨hreturned, hqueued, hnodup⟩

end SnGateway
