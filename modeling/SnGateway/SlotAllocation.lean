import SnGateway.PublishQueue
import SnGateway.Registrations

/-!
# Where a new record goes

Five operations write a new record into a file (`Insertion`): each looks for an empty slot, or else
for the end of the file, and three of them put a number into the record. An `Allocator` is what such
an operation takes from the file, and `allocator_writes` says that it writes just that. The counters
of the loops have 16 bits: `indexSound_iff` and `registry_indexSound_iff` say for which files the
slot is the one it should be, whatever their length and their contents. The tables the store keeps
are among them (`fits_regTable`, `fits_pubTable`, `fits_nameTable`), up to the number of records at
which a counter wraps.
-/

namespace SnGateway
open RecordStore Persistent

/-- An operation that writes a new record of `n` bytes: the records that count as empty, the index
and the record it writes to a file, if it writes a new one, and the number that is stored in a
record, if there is one; 0 may be no number to be given. -/
structure Allocator (n : Nat) where
  empty : Record n → Bool
  allocate : List UInt8 → Option (Int × Record n)
  id : Option (Record n → Int)
  zeroIsEmpty : Bool

namespace Allocator

/-- The slot is empty, or it is the one behind the last record. -/
def IndexSound {n : Nat} (empty : Record n → Bool) (rs : List (Record n)) (index : Int) : Prop :=
  ∃ i : Nat, index = i ∧ ((∃ e, rs[i]? = some e ∧ empty e = true) ∨ i = rs.length)

/-- The number is not negative, means no empty record and is not in use. -/
structure IdSound {n : Nat} (a : Allocator n) (rs : List (Record n)) (id : Record n → Int)
    (record : Record n) : Prop where
  nonneg : 0 ≤ id record
  ne_zero : a.zeroIsEmpty = true → id record ≠ 0
  unused : ∀ e ∈ rs, a.empty e = false → id e ≠ id record

/-- What is written to a file with the contents `c` hits no live record. -/
structure Sound {n : Nat} (a : Allocator n) (c : List UInt8) (index : Int) (record : Record n) :
    Prop where
  index : IndexSound a.empty (whole n c) index
  id : ∀ id ∈ a.id, a.IdSound (whole n c) id record

variable {n : Nat} {a : Allocator n} {c : List UInt8} {index : Int} {record : Record n}

theorem sound_iff_of_id {id : Record n → Int} (h : a.id = some id) :
    a.Sound c index record ↔ IndexSound a.empty (whole n c) index ∧
      a.IdSound (whole n c) id record := by
  constructor
  · exact fun hs => ⟨hs.index, hs.id id h⟩
  · rintro ⟨hindex, hid⟩
    refine ⟨hindex, fun id' h' => ?_⟩
    obtain rfl : id = id' := Option.some.inj (h.symm.trans h')
    exact hid

theorem idSound_iff {rs : List (Record n)} {id : Record n → Int} {k : Nat} (hk : id record = k) :
    a.IdSound rs id record ↔ (a.zeroIsEmpty = true → k ≠ 0) ∧ ∀ e ∈ rs, a.empty e = false →
      id e ≠ k := by
  rw [← hk]
  constructor
  · exact fun h => ⟨fun hz h0 => h.ne_zero hz (by omega), h.unused⟩
  · exact fun h => ⟨by omega, fun hz h0 => h.1 hz (by omega), h.2⟩

theorem sound_iff_of_none (h : a.id = none) :
    a.Sound c index record ↔ IndexSound a.empty (whole n c) index := by
  refine ⟨Sound.index, fun hindex => ⟨hindex, fun id h' => ?_⟩⟩
  rw [h] at h'
  cases h'

end Allocator

/-- What a loop over the records leaves behind, if it finds no record to return at. -/
def exhausted {n : Nat} (sc : Scanner n) (c : List UInt8) : Option (Nat × Option Nat × Record n) :=
  match sc.scan c with
  | .found _ _ => none
  | .exhausted counter hole buffer => some (counter, hole, buffer)

/-- The five operations, with the arguments the new record is made of. -/
inductive Insertion where
  | addClient (clientId : CString) (address : DeviceAddress) (duration : UInt32)
  | addClientRegistration (topicName : CString)
  | addSubscription (debug : Bool) (topicName : CString) (topicId : UInt16) (qos : UInt8)
  | addClientPublish (data : Payload) (topicId : UInt16) (retain : Bool) (qos : UInt8) (dup : Bool)
      (msgId : UInt16)
  | incrementGlobalSubscriptionCount (topicName : CString)

namespace Insertion

def size : Insertion → Nat
  | addClient .. => 57
  | addClientRegistration .. => 258
  | addSubscription .. => 258
  | addClientPublish .. => 272
  | incrementGlobalSubscriptionCount .. => 260

/-- The file the record is written to. -/
def file (s : Persistent) : Insertion → FileName
  | addClient .. => clientRegistry
  | addClientRegistration _ => s.clientFile .registration
  | addSubscription .. => s.clientFile .subscribe
  | addClientPublish .. => s.clientFile .publish
  | incrementGlobalSubscriptionCount _ => mqttSub

/-- The call of the operation. -/
def run (p : Platform) (s : Persistent) : Insertion → Persistent
  | addClient clientId address duration => s.addClient p clientId address duration
  | addClientRegistration topicName => (s.addClientRegistration p topicName).2
  | addSubscription debug topicName topicId qos =>
    s.addSubscription p debug (some topicName) topicId qos
  | addClientPublish data topicId retain qos dup msgId =>
    s.addClientPublish p data topicId retain qos dup msgId
  | incrementGlobalSubscriptionCount topicName =>
    (s.incrementGlobalSubscriptionCount p PERSISTENT_DEBUG (some topicName)).2

/-- The guards of the operation let it come to its loop. -/
def Ready (s : Persistent) : Insertion → Prop
  | addClient clientId _ _ =>
    s.blocked = false ∧ s.notInClientRegistry = true ∧ clientId.length < MAXIMUM_CLIENT_ID_LENGTH
  | addClientRegistration topicName =>
    s.blocked = false ∧ s.notInClientRegistry = false ∧ topicName.length ≤ MAXIMUM_TOPIC_NAME_LENGTH
  | addSubscription _ topicName topicId _ =>
    s.blocked = false ∧ s.notInClientRegistry = false ∧ checkTopicName (some topicName) =
      some topicName ∧ topicId ≠ 0
  | addClientPublish .. => s.blocked = false ∧ s.notInClientRegistry = false
  | incrementGlobalSubscriptionCount topicName =>
    s.error = false ∧ checkTopicName (some topicName) = some topicName

/-- No record in use is the one the loop looks for, so that a new one is needed. -/
def Fresh : Insertion → List UInt8 → Prop
  | addClient .., _ => True
  | addClientRegistration topicName, c =>
    ∀ e ∈ whole 258 c, (registrationScanner topicName).stops e = false
  | addSubscription debug topicName topicId _, c =>
    ∀ e ∈ whole 258 c, (addSubscriptionScanner debug topicName topicId).stops e = false
  | addClientPublish .., _ => True
  | incrementGlobalSubscriptionCount topicName, c =>
    ∀ e ∈ whole 260 c, (mqttSubScanner topicName).stops e = false

/-- The call writes `record` at `index` into its file, which has not been written before. -/
def Writes (op : Insertion) (p : Platform) (s : Persistent) (index : Int)
    (record : Record op.size) : Prop :=
  ∃ fs : Files, fs.contents (op.file s) = s.fs.contents (op.file s) ∧
    (op.run p s).fs = fs.writeAt p (op.file s) (sizeMul index op.size) record.bytes

def allocator (p : Platform) : (op : Insertion) → Allocator op.size
  | addClient clientId address duration =>
    { empty := EntryClient.isUnnamed
      allocate := fun c =>
        let slot := findEmptyEntrySpace 0 (reads 57 c)
        some (slot, newEntryClient p clientId slot address duration)
      id := some parseFileNumberToInt
      zeroIsEmpty := false }
  | addClientRegistration topicName =>
    { empty := EntryRegistration.isEmpty
      allocate := fun c =>
        (exhausted (registrationScanner topicName) c).map fun (counter, hole, buffer) =>
          (firstEmptySpace counter hole,
            ((buffer.putNat EntryRegistration.topicId counter).strcpy EntryRegistration.topicName
              topicName.bytes).putNat EntryRegistration.known true.toNat)
      id := some fun e => e.getNat EntryRegistration.topicId
      zeroIsEmpty := true }
  | addSubscription debug topicName topicId qos =>
    { empty := EntrySubscription.isEmpty
      allocate := fun c =>
        (exhausted (addSubscriptionScanner debug topicName topicId) c).map fun (counter, hole, _) =>
          (firstEmptySpace counter hole, EntrySubscription.make topicName topicId qos)
      id := none
      zeroIsEmpty := false }
  | addClientPublish data topicId retain qos _ _ =>
    { empty := EntryPublish.isEmpty
      allocate := fun c =>
        (exhausted (publishScanner EntryPublish.isEmpty fun _ => false) c).map
        fun (counter, hole, _) =>
          (firstEmptySpace counter hole, EntryPublish.make data topicId retain qos
            (firstEmptySpace counter hole))
      id := some fun e => e.getNat EntryPublish.publishId
      zeroIsEmpty := true }
  | incrementGlobalSubscriptionCount topicName =>
    { empty := EntryMqttSubscription.isEmpty
      allocate := fun c =>
        (exhausted (mqttSubScanner topicName) c).map fun (counter, hole, buffer) =>
          (firstEmptySpace counter hole,
            (buffer.strcpy EntryMqttSubscription.topicName topicName.bytes).putNat
              EntryMqttSubscription.clientSubscriptionCount 1)
      id := none
      zeroIsEmpty := false }

end Insertion

/-! ### The loops that remember an empty record -/

namespace Allocator

/-- The last empty record is where the 16 bits of its index lead to; without one, the file ends with
a whole record and the counter reaches behind it. -/
def SlotFound {n : Nat} (empty : Record n → Bool) (c : List UInt8) : Prop :=
  match lastIdx? empty (whole n c) with
  | some i => ∃ e, (whole n c)[i % 2 ^ 16]? = some e ∧ empty e = true
  | none => c.length % n = 0 ∧ (whole n c).length < 2 ^ 16 - 1

variable {n : Nat} {sc : Scanner n} {c : List UInt8} {counter : Nat} {hole : Option Nat}
    {buffer : Record n}

theorem exhausted_eq (hn : 0 < n) (hc : sc.counterMod = 2 ^ 16)
    (h : exhausted sc c = some (counter, hole, buffer)) :
    counter = ((whole n c).length + sc.endReads c) % 2 ^ 16 ∧
      hole = (lastIdx? sc.hole (whole n c)).map fun k => k % 2 ^ 16 := by
  have hpos : 0 < sc.counterMod := by omega
  rw [exhausted] at h
  rcases sc.scan_whole hn hpos c with ⟨i, e, -, -, -, hscan⟩ | ⟨hno, -⟩
  · rw [hscan] at h
    cases h
  · obtain ⟨b, hscan⟩ := sc.scan_passed hn hpos c hno
    rw [hscan, hc] at h
    cases h
    exact ⟨rfl, rfl⟩

theorem indexSound_iff (hn : 0 < n) (hc : sc.counterMod = 2 ^ 16)
    (h : exhausted sc c = some (counter, hole, buffer)) :
    IndexSound sc.hole (whole n c) (firstEmptySpace counter hole) ↔ SlotFound sc.hole c := by
  obtain ⟨rfl, rfl⟩ := exhausted_eq hn hc h
  rw [SlotFound]
  cases hlast : lastIdx? sc.hole (whole n c) with
  | some i =>
    obtain ⟨hi, -⟩ := lastIdx?_eq_some hlast
    have hmod : i % 2 ^ 16 ≤ i := Nat.mod_le _ _
    constructor
    · rintro ⟨j, hj, he⟩
      obtain rfl : i % 2 ^ 16 = j := Int.ofNat.inj hj
      exact he.resolve_right (by omega)
    · exact fun he => ⟨_, rfl, .inl he⟩
  | none =>
    have hno := lastIdx?_eq_none.1 hlast
    simp only [firstEmptySpace, Option.map_none, Scanner.endReads]
    constructor
    · rintro ⟨j, hj, ⟨e, he, hempty⟩ | rfl⟩
      · rw [hno e (List.mem_of_getElem? he)] at hempty
        cases hempty
      · split at hj
        · exact ⟨‹_›, by omega⟩
        · split at hj <;> omega
    · rintro ⟨hmod, hlt⟩
      rw [if_pos hmod]
      exact ⟨_, by omega, .inr rfl⟩

/-- The place of the last empty record, or the one behind all records, in 16 bits. -/
def slot {n : Nat} (empty : Record n → Bool) (c : List UInt8) : Nat :=
  ((lastIdx? empty (whole n c)).getD (whole n c).length) % 2 ^ 16

theorem firstEmptySpace_eq_slot (hn : 0 < n) (hc : sc.counterMod = 2 ^ 16)
    (h : exhausted sc c = some (counter, hole, buffer)) (hs : SlotFound sc.hole c) :
    firstEmptySpace counter hole = slot sc.hole c := by
  obtain ⟨rfl, rfl⟩ := exhausted_eq hn hc h
  rw [SlotFound] at hs
  rw [slot]
  cases hlast : lastIdx? sc.hole (whole n c) with
  | some i => rfl
  | none =>
    rw [hlast] at hs
    obtain ⟨hmod, hlt⟩ := hs
    rw [Option.map_none, firstEmptySpace, Option.getD_none, Scanner.endReads, if_pos hmod]
    omega

/-! ### The loop over the registry -/

/-- The first record without a client id has an index of 16 bits; if there is none, what follows the
last whole record is not read as a client either. -/
def HasEntrySpace (c : List UInt8) : Prop :=
  (whole 57 c).findIdx EntryClient.isUnnamed < 2 ^ 16 ∧
    ((whole 57 c).findIdx EntryClient.isUnnamed < (whole 57 c).length ∨
      EntryClient.isUnnamed (Record.fill 57 (c.drop ((whole 57 c).length * 57))) = true)

theorem findEmptyEntrySpace_eq (c : List UInt8) :
    findEmptyEntrySpace 0 (reads 57 c) =
      if (whole 57 c).findIdx EntryClient.isUnnamed < (whole 57 c).length ∨
          EntryClient.isUnnamed (Record.fill 57 (c.drop ((whole 57 c).length * 57))) = true
      then (whole 57 c).findIdx EntryClient.isUnnamed % 2 ^ 16
      else ((whole 57 c).length + 1) % 2 ^ 16 := by
  obtain ⟨rs, rest, hrest, rfl⟩ := exists_encode (by omega : 0 < 57) c
  have hle : rs.findIdx EntryClient.isUnnamed ≤ rs.length := List.findIdx_le_length
  have hdrop : (encode rs ++ rest).drop (rs.length * 57) = rest := by
    rw [← length_encode, List.drop_left]
  rw [whole_encode_append (by omega) rs hrest, hdrop, reads_append_short (by omega) rs hrest,
    findEmptyEntrySpace_append rs _ (by omega), Nat.zero_add, Nat.zero_add]
  by_cases hlt : rs.findIdx EntryClient.isUnnamed < rs.length
  · rw [if_pos hlt, if_pos (.inl hlt)]
  · have heq : rs.findIdx EntryClient.isUnnamed = rs.length := by omega
    rw [if_neg hlt, heq]
    by_cases h0 : rest = []
    · subst h0
      have hfree : EntryClient.isUnnamed (Record.fill 57 []) = true := by decide
      rw [if_pos rfl, if_pos (.inr hfree), List.nil_append, findEmptyEntrySpace, if_pos rfl]
    · have hlen : rest.length ≠ 0 := fun h => h0 (List.length_eq_zero_iff.1 h)
      rw [if_neg h0, List.singleton_append, findEmptyEntrySpace, if_neg hlen]
      by_cases hfree : EntryClient.isUnnamed (Record.fill 57 rest) = true
      · rw [if_pos (of_decide_eq_true hfree), if_pos (.inr hfree)]
      · rw [if_neg (fun h => hfree (decide_eq_true h)), if_neg (by simp [hfree]),
          findEmptyEntrySpace, if_pos rfl]
        omega

theorem HasEntrySpace.findEmptyEntrySpace_eq {c : List UInt8} (h : HasEntrySpace c) :
    findEmptyEntrySpace 0 (reads 57 c) = (whole 57 c).findIdx EntryClient.isUnnamed := by
  rw [Allocator.findEmptyEntrySpace_eq, if_pos h.2, Nat.mod_eq_of_lt h.1]

theorem registry_indexSound_iff (c : List UInt8) :
    IndexSound EntryClient.isUnnamed (whole 57 c) (findEmptyEntrySpace 0 (reads 57 c)) ↔
      HasEntrySpace c := by
  have hle : (whole 57 c).findIdx EntryClient.isUnnamed ≤ (whole 57 c).length :=
    List.findIdx_le_length
  constructor
  · rintro ⟨i, hi, h⟩
    obtain rfl : findEmptyEntrySpace 0 (reads 57 c) = i := Int.ofNat.inj hi
    -- no record before the first one without an id is empty
    have hfirst : ∀ i, i < (whole 57 c).findIdx EntryClient.isUnnamed →
        ¬ ((∃ e, (whole 57 c)[i]? = some e ∧ EntryClient.isUnnamed e = true) ∨
          i = (whole 57 c).length) := by
      rintro i hi (⟨e, he, hempty⟩ | rfl)
      · obtain ⟨hlt, rfl⟩ := List.getElem?_eq_some_iff.1 he
        rw [List.not_of_lt_findIdx hi] at hempty
        cases hempty
      · omega
    rw [findEmptyEntrySpace_eq] at h
    split at h
    · next hspace =>
      refine ⟨?_, hspace⟩
      by_contra hge
      exact hfirst ((whole 57 c).findIdx EntryClient.isUnnamed % 2 ^ 16) (by omega) h
    · next hspace =>
      obtain ⟨hfull, -⟩ := not_or.1 hspace
      rcases h with ⟨e, he, hempty⟩ | h
      · obtain ⟨hlt, -⟩ := List.getElem?_eq_some_iff.1 he
        exact absurd (.inl ⟨e, he, hempty⟩) (hfirst (((whole 57 c).length + 1) % 2 ^ 16) (by omega))
      · omega
  · intro h
    refine ⟨_, rfl, ?_⟩
    rw [h.findEmptyEntrySpace_eq]
    rcases Nat.lt_or_eq_of_le hle with hlt | heq
    · exact .inl ⟨_, List.getElem?_eq_getElem hlt, List.findIdx_getElem⟩
    · exact .inr heq

end Allocator

/-! ### Which files are safe -/

namespace Insertion
open Allocator

/-- The topic id a new registration gets: one more than the file has whole records if it ends with
one. -/
def nextTopicId (c : List UInt8) : Nat :=
  ((whole 258 c).length + if c.length % 258 = 0 then 1 else 0) % 2 ^ 16

/-- The file has a place for the new record, and its number, where it gets one, is not taken. -/
def Fits : Insertion → List UInt8 → Prop
  | addClient .., c =>
    HasEntrySpace c ∧ ∀ e ∈ whole 57 c, EntryClient.isUnnamed e = false →
      parseFileNumberToInt e ≠ (whole 57 c).findIdx EntryClient.isUnnamed
  | addClientRegistration _, c =>
    SlotFound EntryRegistration.isEmpty c ∧ nextTopicId c ≠ 0 ∧
      ∀ e ∈ whole 258 c, EntryRegistration.isEmpty e = false →
        e.getNat EntryRegistration.topicId ≠ nextTopicId c
  | addSubscription .., c => SlotFound EntrySubscription.isEmpty c
  | addClientPublish .., c =>
    SlotFound EntryPublish.isEmpty c ∧ slot EntryPublish.isEmpty c + 1 < 2 ^ 16 ∧
      ∀ e ∈ whole 272 c, EntryPublish.isEmpty e = false →
        e.getNat EntryPublish.publishId ≠ slot EntryPublish.isEmpty c + 1
  | incrementGlobalSubscriptionCount _, c => SlotFound EntryMqttSubscription.isEmpty c

variable {p : Platform} {c : List UInt8} {index : Int}

theorem parseFileNumberToInt_newEntryClient {clientId : CString} {a : DeviceAddress} {d : UInt32}
    {k : Nat} (hk : k < 2 ^ 16) : parseFileNumberToInt (newEntryClient p clientId k a d) = k := by
  rw [parseFileNumberToInt, text_fileNumber_newEntryClient k (by omega), atoi_zeroPadded (by omega)]

theorem addClient_sound_iff {clientId : CString} {a : DeviceAddress} {d : UInt32}
    {record : Record 57}
    (h : ((addClient clientId a d).allocator p).allocate c = some (index, record)) :
    ((addClient clientId a d).allocator p).Sound c index record ↔
      (addClient clientId a d).Fits c := by
  refine (sound_iff_of_id rfl).trans ?_
  cases h
  refine (and_congr_left' (registry_indexSound_iff c)).trans (and_congr_right fun hspace => ?_)
  rw [hspace.findEmptyEntrySpace_eq]
  refine (idSound_iff (parseFileNumberToInt_newEntryClient hspace.1)).trans ?_
  exact and_iff_right nofun

theorem addClientRegistration_sound_iff {t : CString} {record : Record 258}
    (h : ((addClientRegistration t).allocator p).allocate c = some (index, record)) :
    ((addClientRegistration t).allocator p).Sound c index record ↔
      (addClientRegistration t).Fits c := by
  refine (sound_iff_of_id rfl).trans ?_
  obtain ⟨⟨counter, hole, buffer⟩, hex, hout⟩ := Option.map_eq_some_iff.1 h
  obtain ⟨hindex, hrecord⟩ := Prod.mk.inj hout
  obtain ⟨hcounter, -⟩ := exhausted_eq (by omega) rfl hex
  have hid : (record.getNat EntryRegistration.topicId : Int) = nextTopicId c := by
    rw [← hrecord, EntryRegistration.getNat_topicId_fill buffer (by omega), hcounter]
    rfl
  rw [← hindex]
  refine and_congr (indexSound_iff (by omega) rfl hex) ((idSound_iff hid).trans ?_)
  refine and_congr (forall_prop_of_true rfl) ?_
  exact forall₃_congr fun e _ _ => Nat.cast_injective.ne_iff

theorem addClientPublish_sound_iff {data : Payload} {topicId : UInt16} {retain : Bool} {qos : UInt8}
    {dup : Bool} {msgId : UInt16} {record : Record 272}
    (h : ((addClientPublish data topicId retain qos dup msgId).allocator p).allocate c =
      some (index, record)) :
    ((addClientPublish data topicId retain qos dup msgId).allocator p).Sound c index record ↔
      (addClientPublish data topicId retain qos dup msgId).Fits c := by
  refine (sound_iff_of_id rfl).trans ?_
  obtain ⟨⟨counter, hole, buffer⟩, hex, hout⟩ := Option.map_eq_some_iff.1 h
  obtain ⟨hindex, hrecord⟩ := Prod.mk.inj hout
  rw [← hindex]
  refine (and_congr_left' (indexSound_iff (by omega) rfl hex)).trans
    (and_congr_right fun hslot => ?_)
  have hlt : slot EntryPublish.isEmpty c < 2 ^ 16 := Nat.mod_lt _ (Nat.two_pow_pos 16)
  have hid : (record.getNat EntryPublish.publishId : Int) =
      ((slot EntryPublish.isEmpty c + 1) % 2 ^ 16 : Nat) := by
    have hspace : firstEmptySpace counter hole = slot EntryPublish.isEmpty c :=
      firstEmptySpace_eq_slot (by omega) rfl hex hslot
    have hmake :=
      EntryPublish.getNat_publishId_ofMessage_mod ⟨data, topicId, retain, qos⟩
        (firstEmptySpace counter hole)
    rw [EntryPublish.ofMessage, hrecord, hspace] at hmake
    rw [hmake]
    omega
  -- slot 65535 would get the id 0
  have hne : (slot EntryPublish.isEmpty c + 1) % 2 ^ 16 ≠ 0 ↔
      slot EntryPublish.isEmpty c + 1 < 2 ^ 16 := by omega
  refine (idSound_iff hid).trans ?_
  refine (and_congr_left' ((forall_prop_of_true rfl).trans hne)).trans
    (and_congr_right fun hroom => ?_)
  rw [Nat.mod_eq_of_lt hroom]
  exact forall₃_congr fun e _ _ => Nat.cast_injective.ne_iff

theorem slotFound_encode {n : Nat} {empty : Record n → Bool} (hn : 0 < n) {rs : List (Record n)}
    (h : rs.length < 2 ^ 16 - 1) : SlotFound empty (encode rs) := by
  rw [SlotFound, whole_encode hn]
  cases hlast : lastIdx? empty rs with
  | some i =>
    obtain ⟨hi, hempty, -⟩ := lastIdx?_eq_some hlast
    dsimp only
    rw [Nat.mod_eq_of_lt (by omega)]
    exact ⟨_, List.getElem?_eq_getElem hi, hempty⟩
  | none => exact ⟨by rw [length_encode, Nat.mul_mod_left], h⟩

theorem sound_iff_of_index {n : Nat} {a : Allocator n} (sc : Scanner n)
    {f : Nat × Option Nat × Record n → Record n} (hn : 0 < n) (hid : a.id = none)
    (hc : sc.counterMod = 2 ^ 16) (hempty : sc.hole = a.empty) {record : Record n}
    (h : ((exhausted sc c).map fun r => (firstEmptySpace r.1 r.2.1, f r)) = some (index, record)) :
    a.Sound c index record ↔ SlotFound a.empty c := by
  obtain ⟨⟨counter, hole, buffer⟩, hex, hout⟩ := Option.map_eq_some_iff.1 h
  obtain ⟨hindex, -⟩ := Prod.mk.inj hout
  rw [sound_iff_of_none hid, ← hindex, ← hempty]
  exact indexSound_iff hn hc hex

/-- A file of publishes of which none in use has the number of the slot. -/
theorem fits_publishes {data : Payload} {topicId : UInt16} {retain : Bool} {qos : UInt8}
    {dup : Bool} {msgId : UInt16} {rs : List EntryPublish} {k : Nat} (hlen : rs.length < 2 ^ 16 - 1)
    (hk : (lastIdx? EntryPublish.isEmpty rs).getD rs.length = k)
    (hid : ∀ e ∈ rs, EntryPublish.isEmpty e = false → e.getNat EntryPublish.publishId ≠ k + 1) :
    (addClientPublish data topicId retain qos dup msgId).Fits (encode rs) := by
  have hle : k ≤ rs.length := by
    rw [← hk]
    cases hlast : lastIdx? EntryPublish.isEmpty rs with
    | none => exact le_refl _
    | some i => exact (lastIdx?_eq_some hlast).1.le
  have hslot : slot EntryPublish.isEmpty (encode rs) = k := by
    rw [slot, whole_encode (by omega), hk, Nat.mod_eq_of_lt (by omega)]
  rw [Fits, hslot, whole_encode (by omega)]
  exact ⟨slotFound_encode (by omega) hlen, by omega, hid⟩

theorem sound_iff_fits (op : Insertion) {record : Record op.size}
    (h : (op.allocator p).allocate c = some (index, record)) :
    (op.allocator p).Sound c index record ↔ op.Fits c := by
  cases op with
  | addClient clientId a d => exact addClient_sound_iff h
  | addClientRegistration t => exact addClientRegistration_sound_iff h
  | addClientPublish data topicId retain qos dup msgId => exact addClientPublish_sound_iff h
  | addSubscription debug t topicId qos =>
    exact sound_iff_of_index (addSubscriptionScanner debug t topicId) (by decide) rfl rfl rfl h
  | incrementGlobalSubscriptionCount t =>
    exact sound_iff_of_index (mqttSubScanner t) (by decide) rfl rfl rfl h

/-! ### The operations -/

theorem exists_exhausted {n : Nat} (sc : Scanner n) (hn : 0 < n) (hc : sc.counterMod = 2 ^ 16)
    (h : ∀ e ∈ whole n c, sc.stops e = false) : ∃ r, exhausted sc c = some r := by
  obtain ⟨buffer, hscan⟩ := sc.scan_passed hn (by omega) c h
  rw [exhausted, hscan]
  exact ⟨_, rfl⟩

/-- A file without the record that is looked for gets a new one. -/
theorem exists_allocate (op : Insertion) (hfresh : op.Fresh c) :
    ∃ index record, (op.allocator p).allocate c = some (index, record) := by
  cases op with
  | addClient clientId a d => exact ⟨_, _, rfl⟩
  | addClientRegistration t =>
    obtain ⟨r, hr⟩ := exists_exhausted (registrationScanner t) (by decide) rfl hfresh
    exact ⟨_, _, congrArg (Option.map _) hr⟩
  | addSubscription debug t topicId qos =>
    obtain ⟨r, hr⟩ := exists_exhausted (addSubscriptionScanner debug t topicId)
      (by decide) rfl hfresh
    exact ⟨_, _, congrArg (Option.map _) hr⟩
  | addClientPublish data topicId retain qos dup msgId =>
    obtain ⟨r, hr⟩ := exists_exhausted (c := c) (publishScanner EntryPublish.isEmpty fun _ => false)
      (by decide) rfl
      fun e _ => Bool.and_false _
    exact ⟨_, _, congrArg (Option.map _) hr⟩
  | incrementGlobalSubscriptionCount t =>
    obtain ⟨r, hr⟩ := exists_exhausted (mqttSubScanner t) (by decide) rfl hfresh
    exact ⟨_, _, congrArg (Option.map _) hr⟩

section
variable {s : Persistent}

theorem findEmptyEntrySpace_lt (c : List UInt8) : findEmptyEntrySpace 0 (reads 57 c) < 2 ^ 16 := by
  rw [Allocator.findEmptyEntrySpace_eq]
  split <;> exact Nat.mod_lt _ (Nat.two_pow_pos 16)

/-- The four files of the client are opened before the record is written. -/
theorem addClient_writes {clientId : CString} {a : DeviceAddress} {d : UInt32} {record : Record 57}
    (hready : (addClient clientId a d).Ready s)
    (h : ((addClient clientId a d).allocator p).allocate (s.fs.contents clientRegistry) =
      some (index, record)) : (addClient clientId a d).Writes p s index record := by
  obtain ⟨hopen, hout, hlen⟩ := hready
  obtain ⟨hstarted, herror⟩ : s.transactionStarted = true ∧ s.error = false := by
    simpa [blocked] using hopen
  have hlt := findEmptyEntrySpace_lt (s.fs.contents clientRegistry)
  obtain ⟨rfl, rfl⟩ := Prod.mk.inj (Option.some.inj h)
  let entry :=
    newEntryClient p clientId (findEmptyEntrySpace 0 (reads 57 (s.fs.contents clientRegistry))) a d
  refine ⟨(((s.fs.openWrite (entry.fileName .registration)).openWrite
    (entry.fileName .subscribe)).openWrite
    (entry.fileName .will)).openWrite (entry.fileName .publish), ?_, ?_⟩
  · rw [Files.contents_openWrite, Files.contents_openWrite, Files.contents_openWrite,
      Files.contents_openWrite]
  · dsimp only [run, size]
    rw [Persistent.addClient, if_neg (by simp [hstarted]), if_neg (by simp [herror]),
      if_neg (by simp [hout]),
      if_neg (Nat.not_le.2 hlen), sizeMul_natCast (by omega)]
    rfl

theorem addClientRegistration_writes {t : CString} {record : Record 258}
    (hready : (addClientRegistration t).Ready s)
    (h : ((addClientRegistration t).allocator p).allocate
      (s.fs.contents (s.clientFile .registration)) = some (index, record)) :
    (addClientRegistration t).Writes p s index record := by
  obtain ⟨hopen, hin, hlen⟩ := hready
  refine ⟨s.fs, rfl, ?_⟩
  dsimp only [allocator, exhausted] at h
  rw [run, Persistent.addClientRegistration, if_neg (by simp [hopen]), if_neg (by simp [hin]),
    if_neg (Nat.not_lt.2 hlen)]
  dsimp only
  cases hscan : (registrationScanner t).scan (s.fs.contents (s.clientFile .registration)) with
  | found k e =>
    rw [hscan] at h
    cases h
  | exhausted counter hole buffer =>
    rw [hscan] at h
    cases h
    rfl

theorem addSubscription_writes {debug : Bool} {t : CString} {topicId : UInt16} {qos : UInt8}
    {record : Record 258} (hready : (addSubscription debug t topicId qos).Ready s)
    (h : ((addSubscription debug t topicId qos).allocator p).allocate
      (s.fs.contents (s.clientFile .subscribe)) = some (index, record)) :
    (addSubscription debug t topicId qos).Writes p s index record := by
  obtain ⟨hopen, hin, ht, hid⟩ := hready
  refine ⟨s.fs, rfl, ?_⟩
  dsimp only [allocator, exhausted] at h
  rw [run, Persistent.addSubscription, if_neg (by simp [hopen]), if_neg (by simp [hin]), ht]
  dsimp only
  rw [if_neg hid]
  cases hscan : (addSubscriptionScanner debug t topicId).scan
    (s.fs.contents (s.clientFile .subscribe)) with
  | found k e =>
    rw [hscan] at h
    cases h
  | exhausted counter hole buffer =>
    rw [hscan] at h
    cases h
    rfl

theorem addClientPublish_writes {data : Payload} {topicId : UInt16} {retain : Bool} {qos : UInt8}
    {dup : Bool} {msgId : UInt16} {record : Record 272}
    (hready : (addClientPublish data topicId retain qos dup msgId).Ready s)
    (h : ((addClientPublish data topicId retain qos dup msgId).allocator p).allocate
      (s.fs.contents (s.clientFile .publish)) = some (index, record)) :
    (addClientPublish data topicId retain qos dup msgId).Writes p s index record := by
  obtain ⟨hopen, hin⟩ := hready
  refine ⟨s.fs, rfl, ?_⟩
  dsimp only [allocator, exhausted] at h
  rw [run, Persistent.addClientPublish, if_neg (by simp [hopen]), if_neg (by simp [hin])]
  dsimp only
  cases hscan : (publishScanner EntryPublish.isEmpty fun _ => false).scan
    (s.fs.contents (s.clientFile .publish)) with
  | found k e =>
    rw [hscan] at h
    cases h
  | exhausted counter hole buffer =>
    rw [hscan] at h
    cases h
    rfl

theorem incrementGlobalSubscriptionCount_writes {t : CString} {record : Record 260}
    (hready : (incrementGlobalSubscriptionCount t).Ready s)
    (h : ((incrementGlobalSubscriptionCount t).allocator p).allocate (s.fs.contents mqttSub) =
      some (index, record)) : (incrementGlobalSubscriptionCount t).Writes p s index record := by
  obtain ⟨herror, ht⟩ := hready
  refine ⟨s.fs, rfl, ?_⟩
  dsimp only [allocator, exhausted] at h
  rw [run, Persistent.incrementGlobalSubscriptionCount, if_neg (by simp [herror]), ht]
  dsimp only
  cases hscan : (mqttSubScanner t).scan (s.fs.contents mqttSub) with
  | found k e =>
    rw [hscan] at h
    cases h
  | exhausted counter hole buffer =>
    rw [hscan] at h
    cases h
    rfl

theorem allocator_writes (op : Insertion) {record : Record op.size} (hready : op.Ready s)
    (h : (op.allocator p).allocate (s.fs.contents (op.file s)) = some (index, record)) :
    op.Writes p s index record := by
  cases op with
  | addClient clientId a d => exact addClient_writes hready h
  | addClientRegistration t => exact addClientRegistration_writes hready h
  | addSubscription debug t topicId qos => exact addSubscription_writes hready h
  | addClientPublish data topicId retain qos dup msgId => exact addClientPublish_writes hready h
  | incrementGlobalSubscriptionCount t => exact incrementGlobalSubscriptionCount_writes hready h

/-- An operation that needs a new record writes one, and what it writes hits no live record exactly
if the file is one of those that fit. -/
theorem slot_allocation_iff (op : Insertion) (hready : op.Ready s)
    (hfresh : op.Fresh (s.fs.contents (op.file s))) :
    ∃ index record, (op.allocator p).allocate (s.fs.contents (op.file s)) = some (index, record) ∧
      op.Writes p s index record ∧
      ((op.allocator p).Sound (s.fs.contents (op.file s)) index record ↔
        op.Fits (s.fs.contents (op.file s))) := by
  obtain ⟨index, record, h⟩ := op.exists_allocate (p := p) hfresh
  exact ⟨index, record, h, op.allocator_writes hready h, op.sound_iff_fits h⟩

end

def payload (b : UInt8) : Payload := ⟨[b], Nat.succ_pos _⟩

/-- A client with three buffered publishes, of which the second one is removed. -/
def holedPublishes : Persistent :=
  setUp.run posix [.begin, .startClientTransaction device1, .addClient device1 address1 60,
    .addClientPublish (payload 1) 1 false 0 false 0,
    .addClientPublish (payload 2) 1 false 0 false 0,
    .addClientPublish (payload 3) 1 false 0 false 0, .removePublishByPublishId 2]

def holedRecords : List EntryPublish :=
  [EntryPublish.make (payload 1) 1 false 0 0, Record.zero 272,
    EntryPublish.make (payload 3) 1 false 0 2]

theorem contents_holedPublishes :
    holedPublishes.fs.contents (holedPublishes.clientFile .publish) = encode holedRecords := by
  decide +kernel

theorem length_holedRecords : holedRecords.length = 3 := rfl

theorem allocate_addClientPublish (data : Payload) (topicId : UInt16) (retain : Bool) (qos : UInt8)
    (dup : Bool) (msgId : UInt16) :
    ((addClientPublish data topicId retain qos dup msgId).allocator p).allocate c =
      ((exhausted (publishScanner EntryPublish.isEmpty fun _ => false) c).map fun r =>
        (firstEmptySpace r.1 r.2.1, EntryPublish.make data topicId retain qos
          (firstEmptySpace r.1 r.2.1))) := rfl

theorem allocate_holedRecords :
    ((exhausted (publishScanner EntryPublish.isEmpty fun _ => false) (encode holedRecords)).map
      fun r => (firstEmptySpace r.1 r.2.1, EntryPublish.make (payload 4) 1 false 0
        (firstEmptySpace r.1 r.2.1))) =
      some (1, EntryPublish.make (payload 4) 1 false 0 1) := by
  decide +kernel

theorem fits_holedRecords :
    (addClientPublish (payload 4) 1 false 0 false 0).Fits (encode holedRecords) := by
  refine fits_publishes (k := 1) ?_ ?_ ?_
  · rw [length_holedRecords]
    omega
  · decide +kernel
  · decide +kernel

theorem slot_allocation_iff_hole :
    let op := addClientPublish (payload 4) 1 false 0 false 0
    let record := EntryPublish.make (payload 4) 1 false 0 1
    op.Writes posix holedPublishes 1 record ∧
      (op.allocator posix).Sound (holedPublishes.fs.contents (holedPublishes.clientFile .publish)) 1
      record := by
  intro op record
  have hc := contents_holedPublishes
  have hready : holedPublishes.blocked = false ∧ holedPublishes.notInClientRegistry = false := by
    decide +kernel
  obtain ⟨index, record', h, hwrites, hsound⟩ := slot_allocation_iff (p := posix) op hready trivial
  have h1 :
    (op.allocator posix).allocate
      (holedPublishes.fs.contents (holedPublishes.clientFile .publish)) =
        some (1, record) := by
    rw [hc]
    exact (allocate_addClientPublish ..).trans allocate_holedRecords
  obtain ⟨rfl, rfl⟩ := Prod.mk.inj (Option.some.inj (h.symm.trans h1))
  exact ⟨hwrites, hsound.2 ((congrArg op.Fits hc).mpr fits_holedRecords)⟩

/-! ### The tables of the store -/

/-- In a registry every client has the number of its slot. -/
theorem fits_regTable {rs : List EntryClient} (h : RegTable rs) (clientId : CString)
    (a : DeviceAddress) (d : UInt32) : (addClient clientId a d).Fits (encode rs) := by
  have hle : rs.findIdx EntryClient.isUnnamed ≤ rs.length := List.findIdx_le_length
  have hlen := h.len
  have hrest : (encode rs).drop (rs.length * 57) = [] :=
    List.drop_of_length_le (length_encode rs).le
  rw [Fits, HasEntrySpace, whole_encode (by omega), hrest]
  refine ⟨⟨by omega, .inr (by decide)⟩, fun e he hlive hnum => ?_⟩
  obtain ⟨i, hi, rfl⟩ := List.getElem_of_mem he
  rcases h.slot i _ (List.getElem?_eq_getElem hi) with h0 | hl
  · rw [h0, EntryClient.isUnnamed_iff.2 text_clientId_zero] at hlive
    cases hlive
  · rw [parseFileNumberToInt, hl.number, atoi_zeroPadded (by omega)] at hnum
    obtain rfl : i = rs.findIdx EntryClient.isUnnamed := Int.ofNat.inj hnum
    have hunnamed : EntryClient.isUnnamed rs[rs.findIdx EntryClient.isUnnamed] = true :=
      List.findIdx_getElem
    rw [hunnamed] at hlive
    cases hlive

theorem fits_pubTable {rs : List EntryPublish} (h : PubTable rs) (data : Payload) (topicId : UInt16)
    (retain : Bool) (qos : UInt8) (dup : Bool) (msgId : UInt16) :
    (addClientPublish data topicId retain qos dup msgId).Fits (encode rs) := by
  obtain ⟨k, hk, hle, hfree, -⟩ := lastIdx?_slot EntryPublish.isEmpty rs
  have hlen := h.len
  refine fits_publishes (by omega) hk fun e he hlive hid => ?_
  obtain ⟨i, hi⟩ := List.getElem?_of_mem he
  have hkey : EntryPublish.key e = some (k + 1) :=
    EntryPublish.key_eq_some.2 ⟨hid, Nat.succ_ne_zero k⟩
  obtain rfl : k = i := Nat.succ.inj (h.key_of_slot hi hkey)
  rw [hfree e hi] at hlive
  cases hlive

theorem fits_nameTable {l : List CString} (h : Nameable l) (t : CString) :
    (addClientRegistration t).Fits (encode (nameTable l)) := by
  have hroom := h.room
  have hnext : nextTopicId (encode (nameTable l)) = l.length + 1 := by
    rw [nextTopicId, whole_encode (by omega), length_encode, Nat.mul_mod_left, if_pos rfl,
      length_nameTable,
      Nat.mod_eq_of_lt (by omega)]
  rw [Fits, hnext, whole_encode (by omega)]
  refine ⟨slotFound_encode (by omega) (by rw [length_nameTable]; omega), Nat.succ_ne_zero _,
    fun e he _ hid => ?_⟩
  obtain ⟨i, hi⟩ := List.getElem?_of_mem he
  obtain ⟨t, ht, hid', -⟩ := h.fields hi
  have hlt := (List.getElem?_eq_some_iff.1 ht).1
  omega

/-! ### A file the counter does not reach the end of -/

theorem passed_nameTable {l : List CString} (hlen : l.length < 2 ^ 16)
    (hfits : ∀ u ∈ l, u.length ≤ 255) {t : CString} (hnew : t ∉ l) {e : EntryRegistration}
    (he : e ∈ nameTable l) : e.isEmpty = false ∧ e.hasName t = false := by
  obtain ⟨i, hi⟩ := List.getElem?_of_mem he
  obtain ⟨u, hu, rfl⟩ := getElem?_nameTable.1 hi
  have hlt := (List.getElem?_eq_some_iff.1 hu).1
  have hmem := List.mem_of_getElem? hu
  have hne : u.bytes ≠ t.bytes := fun h => hnew (CString.ext h ▸ hmem)
  constructor
  · simp [EntryRegistration.isEmpty, EntryRegistration.getNat_topicId_make
      (show i + 1 < 2 ^ 16 by omega)]
  · simp [EntryRegistration.hasName, EntryRegistration.text_topicName_make (hfits u hmem), hne]

theorem fresh_nameTable {l : List CString} (hlen : l.length < 2 ^ 16)
    (hfits : ∀ u ∈ l, u.length ≤ 255) {t : CString} (hnew : t ∉ l) :
    (addClientRegistration t).Fresh (encode (nameTable l)) := by
  rw [Fresh, whole_encode (by omega)]
  intro e he
  obtain ⟨hempty, hname⟩ := passed_nameTable hlen hfits hnew he
  simp [Scanner.stops, registrationScanner, hempty, hname]

/-- After 65535 registrations a new name goes to the index -1 and gets the topic id 0. -/
theorem allocate_full_nameTable {l : List CString} (hlen : l.length = 65535)
    (hfits : ∀ u ∈ l, u.length ≤ 255) {t : CString} (hnew : t ∉ l) :
    ((addClientRegistration t).allocator p).allocate (encode (nameTable l)) =
      some (-1, EntryRegistration.make 0 t) := by
  have hfresh := fresh_nameTable (by omega) hfits hnew
  rw [Fresh, whole_encode (by omega)] at hfresh
  have hnone : lastIdx? EntryRegistration.isEmpty (nameTable l) = none :=
    lastIdx?_eq_none.2 fun e he => (passed_nameTable (by omega) hfits hnew he).1
  have hscan : (registrationScanner t).scan (encode (nameTable l)) =
      .exhausted 0 none (Record.zero 258) := by
    have hpass := (registrationScanner t).scan_encode_mod (by omega) (nameTable l)
      (Nat.two_pow_pos 16) hfresh
    rw [length_nameTable, hlen, show (registrationScanner t).counterMod = 2 ^ 16 from rfl,
      show (registrationScanner t).hole = EntryRegistration.isEmpty from rfl, hnone] at hpass
    rw [hpass, Option.map_none, show (65535 + 1) % 2 ^ 16 = 0 by decide]
  dsimp only [allocator, exhausted]
  rw [hscan]
  rfl

/-- The numbers below 65535, each with five digits. -/
def fiveDigits : List CString :=
  (List.range 65535).map fun i => ⟨zeroPadded 5 i, zero_notMem_digits fun _ h => mem_zeroPadded h⟩

def newTopic : CString := ⟨[97], by decide⟩

theorem length_fiveDigits {t : CString} (ht : t ∈ fiveDigits) : t.length = 5 := by
  obtain ⟨i, hi, rfl⟩ := List.mem_map.1 ht
  have hlt := List.mem_range.1 hi
  exact length_zeroPadded (by omega) (by omega)

/-- A transaction of a client whose registrations are the records of the list. -/
def registeredNames (l : List CString) : Persistent :=
  { setUp.run posix [.begin, .startClientTransaction device1, .addClient device1 address1 60] with
    fs := Files.set (fun _ => none) (slotFile 0 .registration) (encode (nameTable l)) }

theorem clientFile_registeredNames (l : List CString) :
    (registeredNames l).clientFile .registration = slotFile 0 .registration :=
  show (setUp.run posix _).clientFile .registration = _ by decide +kernel

theorem registrations_overflow :
    let op := addClientRegistration newTopic
    let s := registeredNames fiveDigits
    let c := s.fs.contents (op.file s)
    op.Ready s ∧ op.Fresh c ∧ ∃ index record, (op.allocator posix).allocate c =
      some (index, record) ∧
      op.Writes posix s index record ∧ ¬ (op.allocator posix).Sound c index record := by
  intro op s c
  have hlen : fiveDigits.length = 65535 := by rw [fiveDigits, List.length_map, List.length_range]
  have hnew : newTopic ∉ fiveDigits := by
    intro h
    have h5 := length_fiveDigits h
    revert h5
    decide
  have hfits : ∀ u ∈ fiveDigits, u.length ≤ 255 := by
    intro u hu
    rw [length_fiveDigits hu]
    omega
  have hc : c = encode (nameTable fiveDigits) :=
    (congrArg s.fs.contents (clientFile_registeredNames _)).trans (Files.contents_set_self _)
  have hready : op.Ready s := ⟨rfl, rfl, by decide⟩
  have h : (op.allocator posix).allocate c = some (-1, EntryRegistration.make 0 newTopic) := by
    rw [hc]
    exact allocate_full_nameTable hlen hfits hnew
  refine ⟨hready, ?_, _, _, h, op.allocator_writes hready h, fun hsound => ?_⟩
  · rw [hc]
    exact fresh_nameTable (by omega) hfits hnew
  · obtain ⟨i, hi, -⟩ := hsound.index
    omega

end Insertion

end SnGateway
