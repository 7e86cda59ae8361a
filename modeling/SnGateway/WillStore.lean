import SnGateway.ClientCalls

/-!
# The will of a client

A will has a topic part and a message part, each with its setter; both setters read the one record
of the `.WIL` file, change their own fields and write it back. What the file holds is a function of
the calls made so far: the last topic and the last message since the last deletion
(`Joined.will_file`).
-/

namespace SnGateway
open RecordStore Persistent

namespace EntryWill

/-- The record with another topic part. -/
def withTopic (t : CString) (q : UInt8) (r : Bool) (e : EntryWill) : EntryWill :=
  (((e.putAt willtopic.off (List.replicate 255 0)).strcpy willtopic t.bytes).putNat qos
    q.toNat).putNat retain r.toNat

/-- The record with another message part. -/
def withMessage (m : Payload) (e : EntryWill) : EntryWill :=
  ((e.putAt willmsg.off (List.replicate 255 0)).putAt willmsg.off m.bytes).putNat willmsgLength
    m.bytes.length

def topicFields : List Field := [willtopic, qos, retain]

def messageFields : List Field := [willmsg, willmsgLength]

variable {e e' : EntryWill} {t : CString} {q : UInt8} {r : Bool} {m : Payload}

theorem ext_parts (htopic : ∀ f ∈ topicFields, e.get f = e'.get f)
    (hmessage : ∀ f ∈ messageFields, e.get f = e'.get f) : e = e' := by
  refine Record.ext_fields (topicFields ++ messageFields) (fun i hi => ?_) fun f hf => ?_
  · simp only [topicFields, messageFields, List.cons_append, List.nil_append, List.mem_cons,
      List.not_mem_nil, or_false,
      exists_eq_or_imp, exists_eq_left, willtopic, willmsg, willmsgLength, qos, retain]
    omega
  · rcases List.mem_append.1 hf with hf | hf
    · exact htopic f hf
    · exact hmessage f hf

/-! ### What a setter writes -/

theorem get_willtopic_withTopic (ht : t.length < 255) :
    (withTopic t q r e).get willtopic = t.bytes ++ List.replicate (255 - t.length) 0 := by
  have hlen : (t.bytes ++ [0]).length ≤ willtopic.len := by
    rw [List.length_append]
    exact ht
  have hpad : List.replicate (255 - t.length) (0 : UInt8) = 0 ::
      List.replicate (255 - (t.length + 1)) 0 := by
    rw [← List.replicate_succ]
    congr 1
    omega
  rw [withTopic, Record.get_putNat_of_disjoint (by decide),
    Record.get_putNat_of_disjoint (by decide), Record.strcpy,
    show (255 : Nat) = willtopic.len from rfl, Record.get_putAt_cleared hlen (by decide),
      List.append_assoc,
    List.singleton_append, List.length_append, List.length_singleton]
  exact congrArg _ hpad.symm

theorem get_qos_withTopic : (withTopic t q r e).get qos = leBytes 1 q.toNat := by
  rw [withTopic, Record.get_putNat_of_disjoint (by decide), Record.get_putNat_self _ (by decide)]
  rfl

theorem get_retain_withTopic : (withTopic t q r e).get retain = leBytes 1 r.toNat := by
  rw [withTopic, Record.get_putNat_self _ (by decide)]
  rfl

/-- A topic setter does not touch the message part. -/
theorem get_withTopic {f : Field} (ht : t.length < 255) (hf : f ∈ messageFields) :
    (withTopic t q r e).get f = e.get f := by
  have hlen : (t.bytes ++ [0]).length ≤ willtopic.len := by
    rw [List.length_append]
    exact ht
  have hdisj : f.Disjoint willtopic ∧ f.Disjoint qos ∧ f.Disjoint retain := by
    revert f; decide
  rw [withTopic, Record.get_putNat_of_disjoint hdisj.2.2, Record.get_putNat_of_disjoint hdisj.2.1,
    Record.strcpy,
    Record.get_putAt_of_field_disjoint hdisj.1 hlen]
  exact Record.get_putAt_of_field_disjoint hdisj.1 List.length_replicate.le

theorem get_willmsg_withMessage :
    (withMessage m e).get willmsg = m.bytes ++ List.replicate (255 - m.bytes.length) 0 := by
  rw [withMessage, Record.get_putNat_of_disjoint (by decide),
    show (255 : Nat) = willmsg.len from rfl,
    Record.get_putAt_cleared m.length_le (by decide)]

theorem get_willmsgLength_withMessage :
    (withMessage m e).get willmsgLength = leBytes 1 m.bytes.length := by
  rw [withMessage, Record.get_putNat_self _ (by decide)]
  rfl

/-- A message setter does not touch the topic part. -/
theorem get_withMessage {f : Field} (hf : f ∈ topicFields) : (withMessage m e).get f = e.get f := by
  have hdisj : f.Disjoint willmsg ∧ f.Disjoint willmsgLength := by
    revert f; decide
  rw [withMessage, Record.get_putNat_of_disjoint hdisj.2,
    Record.get_putAt_of_field_disjoint hdisj.1 m.length_le]
  exact Record.get_putAt_of_field_disjoint hdisj.1 List.length_replicate.le

/-- The topic part does not depend on what was there before. -/
theorem get_withTopic_self {f : Field} (ht : t.length < 255) (hf : f ∈ topicFields) :
    (withTopic t q r e).get f = (withTopic t q r e').get f := by
  simp only [topicFields, List.mem_cons, List.not_mem_nil, or_false] at hf
  rcases hf with rfl | rfl | rfl
  · rw [get_willtopic_withTopic ht, get_willtopic_withTopic ht]
  · rw [get_qos_withTopic, get_qos_withTopic]
  · rw [get_retain_withTopic, get_retain_withTopic]

theorem get_withMessage_self {f : Field} (hf : f ∈ messageFields) :
    (withMessage m e).get f = (withMessage m e').get f := by
  simp only [messageFields, List.mem_cons, List.not_mem_nil, or_false] at hf
  rcases hf with rfl | rfl
  · rw [get_willmsg_withMessage, get_willmsg_withMessage]
  · rw [get_willmsgLength_withMessage, get_willmsgLength_withMessage]

theorem withTopic_withMessage (ht : t.length < 255) :
    withTopic t q r (withMessage m e) = withMessage m (withTopic t q r e) := by
  refine ext_parts (fun f hf => ?_) fun f hf => ?_
  · rw [get_withMessage hf]; exact get_withTopic_self ht hf
  · rw [get_withTopic ht hf]; exact get_withMessage_self hf

theorem withTopic_withTopic {t' : CString} {q' : UInt8} {r' : Bool} (ht : t.length < 255)
    (ht' : t'.length < 255) : withTopic t q r (withTopic t' q' r' e) = withTopic t q r e := by
  refine ext_parts (fun f hf => get_withTopic_self ht hf) fun f hf => ?_
  rw [get_withTopic ht hf, get_withTopic ht' hf, get_withTopic ht hf]

theorem withMessage_withMessage {m' : Payload} :
    withMessage m (withMessage m' e) = withMessage m e := by
  refine ext_parts (fun f hf => ?_) fun f hf => get_withMessage_self hf
  rw [get_withMessage hf, get_withMessage hf, get_withMessage hf]

/-! ### What a getter reads -/

/-- The will that a record stands for. -/
def will (e : EntryWill) : ClientWill where
  willtopic := e.text willtopic
  willmsg := (e.get willmsg).take (e.getNat willmsgLength)
  willmsgLength := e.getNat willmsgLength
  qos := e.getNat qos
  retain := e.getNat retain ≠ 0

theorem will_zero : will (Record.zero 513) = ⟨[], [], 0, 0, false⟩ := by
  have hretain : (Record.zero 513).getNat retain = 0 := Record.getNat_zero _ (by decide)
  have hlen : (Record.zero 513).getNat willmsgLength = 0 := Record.getNat_zero _ (by decide)
  have hqos : (Record.zero 513).getNat qos = 0 := Record.getNat_zero _ (by decide)
  have htext : (Record.zero 513).text willtopic = [] := Record.text_zero _ (by decide)
  simp only [will, hretain, hlen, hqos, htext, List.take_zero, ne_eq, not_true_eq_false,
    decide_false]

theorem will_withTopic (ht : t.length < 255) :
    (withTopic t q r e).will =
      { e.will with willtopic := t.bytes, qos := q.toNat, retain := r } := by
  have htext : (withTopic t q r e).text willtopic = t.bytes := by
    rw [Record.text, get_willtopic_withTopic ht]
    exact cstr_append_replicate_zero t.noNul _
  have hqos : (withTopic t q r e).getNat qos = q.toNat := by
    rw [Record.getNat, get_qos_withTopic, leVal_leBytes]
    exact Nat.mod_eq_of_lt q.toNat_lt
  have hretain : (withTopic t q r e).getNat retain = r.toNat := by
    rw [Record.getNat, get_retain_withTopic, leVal_leBytes]
    cases r <;> rfl
  have hlen : (withTopic t q r e).getNat willmsgLength = e.getNat willmsgLength := by
    rw [Record.getNat, get_withTopic ht (by simp [messageFields]), Record.getNat]
  have hmsg : (withTopic t q r e).get willmsg = e.get willmsg :=
    get_withTopic ht (by simp [messageFields])
  simp only [will, htext, hqos, hretain, hlen, hmsg]
  cases r <;> rfl

theorem will_withMessage :
    (withMessage m e).will =
      { e.will with willmsg := m.bytes, willmsgLength := m.bytes.length } := by
  have hlen : (withMessage m e).getNat willmsgLength = m.bytes.length := by
    rw [Record.getNat, get_willmsgLength_withMessage, leVal_leBytes]
    exact Nat.mod_eq_of_lt (Nat.lt_succ_of_le m.length_le)
  have hmsg : ((withMessage m e).get willmsg).take m.bytes.length = m.bytes := by
    rw [get_willmsg_withMessage, List.take_left]
  have htext : (withMessage m e).text willtopic = e.text willtopic := by
    rw [Record.text, get_withMessage (by simp [topicFields]), Record.text]
  have hqos : (withMessage m e).getNat qos = e.getNat qos := by
    rw [Record.getNat, get_withMessage (by simp [topicFields]), Record.getNat]
  have hretain : (withMessage m e).getNat retain = e.getNat retain := by
    rw [Record.getNat, get_withMessage (by simp [topicFields]), Record.getNat]
  simp only [will, hlen, hmsg, htext, hqos, hretain]

end EntryWill

variable {p : Platform} {g : Option Tx} {s : Persistent} {b : CString} {ops : List Op}
    {h : List (Op × Reply)} {t : CString} {q : UInt8} {r : Bool} {m : Payload}

namespace Persistent

/-! ### The setters and the file -/

theorem setClientWilltopic_eq (hopen : s.blocked = false) (hin : s.notInClientRegistry = false)
    (ht : t.length < 255) :
    s.setClientWilltopic p t q r = s.updateWill p (EntryWill.withTopic t q r) := by
  unfold setClientWilltopic
  rw [if_neg (by simp [hopen]), if_neg (by simp [hin]),
    if_neg (by simpa [MAXIMUM_TOPIC_NAME_LENGTH] using ht)]
  rfl

theorem setClientWilltopic_of_long (ht : ¬ t.length < 255) : s.setClientWilltopic p t q r = s := by
  unfold setClientWilltopic
  rw [if_pos (show MAXIMUM_TOPIC_NAME_LENGTH ≤ t.length from Nat.not_lt.1 ht)]
  split
  · rfl
  · exact ite_self s

theorem setClientWillmessage_eq (hopen : s.blocked = false) (hin : s.notInClientRegistry = false) :
    s.setClientWillmessage p m = s.updateWill p (EntryWill.withMessage m) := by
  unfold setClientWillmessage
  rw [if_neg (by simp [hopen]), if_neg (by simp [hin])]
  rfl

/-- The state after the record of the will file was written. -/
def putWill (e : EntryWill) (s : Persistent) : Persistent :=
  let name := s.clientFile .will
  { s with fs := s.fs.set name (e.bytes ++ (s.fs.contents name).drop 513) }

theorem updateWill_eq (f : EntryWill → EntryWill) :
    s.updateWill p f = s.putWill (f (Record.fill 513 s.readWill)) := by
  generalize he : f (Record.fill 513 s.readWill) = e
  have hwrite : overwrite (s.fs.contents (s.clientFile .will)) 0 e.bytes =
      e.bytes ++ (s.fs.contents (s.clientFile .will)).drop 513 := by
    simp [overwrite, e.size_eq]
  unfold updateWill
  dsimp only
  rw [he, Files.writeAt, p.seek_of_le true (Nat.zero_le _), hwrite]
  rfl

theorem readWill_putWill (e : EntryWill) : (s.putWill e).readWill = e.bytes := by
  show ((s.fs.set (s.clientFile .will) _).contents (s.clientFile .will)).take 513 = e.bytes
  rw [Files.contents_set_self, List.take_append_of_le_length e.size_eq.ge,
    List.take_of_length_le e.size_eq.le]

theorem putWill_putWill (e e' : EntryWill) : (s.putWill e).putWill e' = s.putWill e' := by
  have hdrop : ((s.putWill e).fs.contents (s.clientFile .will)).drop 513 =
      (s.fs.contents (s.clientFile .will)).drop 513 := by
    show ((s.fs.set (s.clientFile .will) _).contents (s.clientFile .will)).drop 513 = _
    rw [Files.contents_set_self, List.drop_append_of_le_length e.size_eq.ge,
      List.drop_of_length_le e.size_eq.le,
      List.nil_append]
  show { s with fs := ((s.putWill e).fs.set (s.clientFile .will)
    (e'.bytes ++ ((s.putWill e).fs.contents (s.clientFile .will)).drop 513)) } = s.putWill e'
  rw [hdrop]
  show { s with fs := (s.fs.set (s.clientFile .will) _).set (s.clientFile .will) _ } = s.putWill e'
  rw [Files.set_set]
  rfl

/-- A setter reads back what the one before it wrote. -/
theorem updateWill_updateWill (f f' : EntryWill → EntryWill) :
    (s.updateWill p f).updateWill p f' = s.updateWill p fun e => f' (f e) := by
  rw [updateWill_eq f, updateWill_eq f', readWill_putWill, Record.fill_bytes, putWill_putWill,
    updateWill_eq]

theorem willSetters_of_closed (hclosed : s.blocked = true ∨ s.notInClientRegistry = true) :
    s.setClientWilltopic p t q r = s ∧ s.setClientWillmessage p m = s := by
  unfold setClientWilltopic setClientWillmessage
  rcases hclosed with hb | hn
  · exact ⟨if_pos hb, if_pos hb⟩
  · rw [if_pos hn, if_pos hn]
    exact ⟨ite_self s, ite_self s⟩

/-- Setters of the two kinds commute, in every state. -/
theorem setters_commute : (s.setClientWilltopic p t q r).setClientWillmessage p m =
    (s.setClientWillmessage p m).setClientWilltopic p t q r := by
  by_cases hclosed : s.blocked = true ∨ s.notInClientRegistry = true
  · obtain ⟨htopic, hmessage⟩ := willSetters_of_closed (p := p) (t := t) (q := q) (r := r)
      (m := m) hclosed
    rw [htopic, hmessage, htopic]
  · obtain ⟨hb, hn⟩ := not_or.1 hclosed
    have hopen := blocked_of_not hb
    have hin := blocked_of_not hn
    by_cases ht : t.length < 255
    · have hcomm : (fun e => EntryWill.withMessage m (EntryWill.withTopic t q r e)) =
          fun e => EntryWill.withTopic t q r (EntryWill.withMessage m e) :=
        funext fun e => (EntryWill.withTopic_withMessage ht).symm
      rw [setClientWilltopic_eq hopen hin ht, setClientWillmessage_eq hopen hin,
        setClientWillmessage_eq (show (s.updateWill p _).blocked = false from hopen) hin,
        setClientWilltopic_eq (show (s.updateWill p _).blocked = false from hopen) hin ht,
        updateWill_updateWill, updateWill_updateWill, hcomm]
    · rw [setClientWilltopic_of_long ht, setClientWilltopic_of_long ht]

/-- The record that setters and getters read. -/
def willEntry (s : Persistent) : EntryWill := Record.fill 513 s.readWill

theorem willEntry_updateWill (f : EntryWill → EntryWill) :
    (s.updateWill p f).willEntry = f s.willEntry := by
  rw [willEntry, updateWill_eq, readWill_putWill, Record.fill_bytes, willEntry]

/-- A topic setter never changes the message fields. -/
theorem get_setClientWilltopic {f : Field} (hf : f ∈ EntryWill.messageFields) :
    (s.setClientWilltopic p t q r).willEntry.get f = s.willEntry.get f := by
  by_cases hclosed : s.blocked = true ∨ s.notInClientRegistry = true
  · rw [(willSetters_of_closed (m := ⟨[], by decide⟩) hclosed).1]
  · obtain ⟨hb, hn⟩ := not_or.1 hclosed
    by_cases ht : t.length < 255
    · rw [setClientWilltopic_eq (blocked_of_not hb) (blocked_of_not hn) ht, willEntry_updateWill]
      exact EntryWill.get_withTopic ht hf
    · rw [setClientWilltopic_of_long ht]

/-- A message setter never changes the topic fields. -/
theorem get_setClientWillmessage {f : Field} (hf : f ∈ EntryWill.topicFields) :
    (s.setClientWillmessage p m).willEntry.get f = s.willEntry.get f := by
  by_cases hclosed : s.blocked = true ∨ s.notInClientRegistry = true
  · rw [(willSetters_of_closed (t := device1) (q := 0) (r := false) hclosed).2]
  · obtain ⟨hb, hn⟩ := not_or.1 hclosed
    rw [setClientWillmessage_eq (blocked_of_not hb) (blocked_of_not hn), willEntry_updateWill]
    exact EntryWill.get_withMessage hf

end Persistent

/-! ### The calls for a will file -/

/-- Topic, qos and retain flag of the last topic setter since the last deletion; topics of 255
characters and more are ignored. -/
def lastTopic (h : List (Op × Reply)) : Option (CString × UInt8 × Bool) :=
  h.foldl (fun w c => match c.1 with
    | .setClientWilltopic t q r => if t.length < 255 then some (t, q, r) else w
    | .deleteWill => none
    | _ => w) none

/-- The message of the last message setter since the last deletion. -/
def lastMessage (h : List (Op × Reply)) : Option Payload :=
  h.foldl (fun m c => match c.1 with
    | .setClientWillmessage m' => some m'
    | .deleteWill => none
    | _ => m) none

variable {x : Reply} {w : Option (CString × UInt8 × Bool)} {n : Option Payload}

theorem lastTopic_topic : lastTopic (h ++ [(.setClientWilltopic t q r, x)]) =
    if t.length < 255 then some (t, q, r) else lastTopic h := by
  simp [lastTopic]

theorem lastTopic_message : lastTopic (h ++ [(.setClientWillmessage m, x)]) = lastTopic h := by
  simp [lastTopic]

theorem lastTopic_delete : lastTopic (h ++ [(.deleteWill, x)]) = none := by simp [lastTopic]

theorem lastMessage_topic : lastMessage (h ++ [(.setClientWilltopic t q r, x)]) =
    lastMessage h := by
  simp [lastMessage]

theorem lastMessage_message : lastMessage (h ++ [(.setClientWillmessage m, x)]) = some m := by
  simp [lastMessage]

theorem lastMessage_delete : lastMessage (h ++ [(.deleteWill, x)]) = none := by simp [lastMessage]

theorem lastTopic_short (ht : lastTopic h = some (t, q, r)) : t.length < 255 := by
  induction h using List.reverseRecOn with
  | nil => cases ht
  | append_singleton h c ih =>
    obtain ⟨op, x⟩ := c
    rw [lastTopic, List.foldl_append, ← lastTopic] at ht
    dsimp only [List.foldl_cons, List.foldl_nil] at ht
    split at ht
    · split at ht
      · next hlt => cases ht; exact hlt
      · exact ih ht
    · cases ht
    · exact ih ht

def Op.setsWilltopic : Op → Bool
  | .setClientWilltopic .. => true
  | _ => false

/-- Without a topic setter there is no topic. -/
theorem lastTopic_append_of_none {h' : List (Op × Reply)} (ht : lastTopic h = none)
    (hno : ∀ c ∈ h', c.1.setsWilltopic = false) : lastTopic (h ++ h') = none := by
  induction h' using List.reverseRecOn with
  | nil => rw [List.append_nil]; exact ht
  | append_singleton h' c ih =>
    have ih := ih fun c hc => hno c (List.mem_append_left _ hc)
    have hc := hno c (by simp)
    rw [← List.append_assoc, lastTopic, List.foldl_append, ← lastTopic, ih]
    dsimp only [List.foldl_cons, List.foldl_nil]
    split
    · next t q r hop => rw [hop] at hc; cases hc
    · rfl
    · rfl

/-! ### The file and the calls -/

/-- The record with the given topic and message part. -/
def willRecord (w : Option (CString × UInt8 × Bool)) (n : Option Payload) : EntryWill :=
  let e := match w with
    | some (t, q, r) => EntryWill.withTopic t q r (Record.zero 513)
    | none => Record.zero 513
  match n with
  | some m => e.withMessage m
  | none => e

/-- The file holds no record until a part is set. -/
def willBytes (w : Option (CString × UInt8 × Bool)) (n : Option Payload) : List UInt8 :=
  if w.isNone && n.isNone then [] else (willRecord w n).bytes

theorem withTopic_willRecord (ht : t.length < 255)
    (hw : ∀ t' q' r', w = some (t', q', r') → t'.length < 255) :
    (willRecord w n).withTopic t q r = willRecord (some (t, q, r)) n := by
  cases w with
  | none => cases n with
    | none => rfl
    | some m => exact EntryWill.withTopic_withMessage ht
  | some w =>
    obtain ⟨t', q', r'⟩ := w
    have ht' := hw t' q' r' rfl
    cases n with
    | none => exact EntryWill.withTopic_withTopic ht ht'
    | some m =>
      exact (EntryWill.withTopic_withMessage ht).trans
        (congrArg _ (EntryWill.withTopic_withTopic ht ht'))

theorem withMessage_willRecord : (willRecord w n).withMessage m = willRecord w (some m) := by
  cases n with
  | none => rfl
  | some m' => exact EntryWill.withMessage_withMessage

theorem take_willBytes : (willBytes w n).take 513 = willBytes w n := by
  rw [willBytes]
  split
  · rfl
  · exact List.take_of_length_le (Record.size_eq _).le

theorem drop_willBytes : (willBytes w n).drop 513 = [] := by
  rw [willBytes]
  split
  · rfl
  · exact List.drop_of_length_le (Record.size_eq _).le

theorem fill_willBytes : Record.fill 513 (willBytes w n) = willRecord w n := by
  by_cases hnone : (w.isNone && n.isNone) = true
  · rw [willBytes, if_pos hnone, Record.fill_nil]
    obtain ⟨hw, hn⟩ := Bool.and_eq_true_iff.1 hnone
    rw [Option.isNone_iff_eq_none.1 hw, Option.isNone_iff_eq_none.1 hn, willRecord]
  · rw [willBytes, if_neg hnone, Record.fill_bytes]

/-- What a setter leaves in a file that was written by the calls `h`. -/
theorem contents_updateWill (hfile : s.fs.contents (s.clientFile .will) = willBytes w n)
    (f : EntryWill → EntryWill) :
    (s.updateWill p f).fs.contents (s.clientFile .will) = (f (willRecord w n)).bytes := by
  rw [updateWill_eq, readWill, hfile, take_willBytes, fill_willBytes]
  show (s.fs.set (s.clientFile .will) _).contents (s.clientFile .will) = _
  rw [Files.contents_set_self, hfile, drop_willBytes, List.append_nil]

theorem contents_deleteWill (hopen : s.blocked = false) (hin : s.notInClientRegistry = false) :
    s.deleteWill.fs.contents (s.clientFile .will) = [] := by
  unfold deleteWill
  rw [if_neg (by simp [hopen]), if_neg (by simp [hin])]
  show ((s.fs.remove (s.clientFile .will)).openWrite (s.clientFile .will)).contents
    (s.clientFile .will) = []
  rw [Files.contents_openWrite]
  exact Files.contents_of_none Files.remove_self

/-- At every moment the will file of a client holds the last topic and the last message. -/
theorem Joined.will_file (hj : Joined p b g s) (ha : AllowedRun p g s ops)
    (hstay : Stays p b s ops) :
    (s.run p ops).fs.contents (s.clientFile .will) =
      willBytes (lastTopic (calls p b .will s ops)) (lastMessage (calls p b .will s ops)) := by
  refine hj.file_run (Q := fun h c => c = willBytes (lastTopic h) (lastMessage h)) rfl ?_ ha hstay
  intro s op h hid hop hfile
  obtain ⟨hopen, hin, -⟩ := open_of_getClientId hid
  cases op <;> simp only [Op.ending, Option.some.injEq, reduceCtorEq] at hop
  case setClientWilltopic t q r =>
    show (s.setClientWilltopic p t q r).fs.contents (s.clientFile .will) = _
    rw [lastTopic_topic, lastMessage_topic]
    by_cases ht : t.length < 255
    · rw [if_pos ht, setClientWilltopic_eq hopen hin ht, contents_updateWill hfile,
        withTopic_willRecord ht fun _ _ _ => lastTopic_short]
      rfl
    · rw [if_neg ht, setClientWilltopic_of_long ht]
      exact hfile
  case setClientWillmessage m =>
    show (s.setClientWillmessage p m).fs.contents (s.clientFile .will) = _
    rw [lastTopic_message, lastMessage_message, setClientWillmessage_eq hopen hin,
      contents_updateWill hfile,
      withMessage_willRecord, willBytes, Option.isNone_some, Bool.and_false]
    rfl
  case deleteWill =>
    show s.deleteWill.fs.contents (s.clientFile .will) = _
    rw [lastTopic_delete, lastMessage_delete, contents_deleteWill hopen hin]
    rfl

/-! ### The getters -/

/-- The will with the given parts; a part that was not set is zero and empty. -/
def willOf (w : Option (CString × UInt8 × Bool)) (n : Option Payload) : ClientWill where
  willtopic := (w.map fun w => w.1.bytes).getD []
  willmsg := (n.map Payload.bytes).getD []
  willmsgLength := (n.map fun m => m.bytes.length).getD 0
  qos := (w.map fun w => w.2.1.toNat).getD 0
  retain := (w.map fun w => w.2.2).getD false

theorem will_willRecord (hw : ∀ t q r, w = some (t, q, r) → t.length < 255) :
    (willRecord w n).will = willOf w n := by
  have htopic : (willRecord w none).will = willOf w none := by
    cases w with
    | none => exact EntryWill.will_zero
    | some w =>
      obtain ⟨t, q, r⟩ := w
      have h := EntryWill.will_withTopic (e := Record.zero 513) (q := q) (r := r) (hw t q r rfl)
      rw [EntryWill.will_zero] at h
      exact h
  cases n with
  | none => exact htopic
  | some m =>
    have h := EntryWill.will_withMessage (e := willRecord w none) (m := m)
    rw [htopic] at h
    exact h

namespace Persistent

theorem getClientWill_eq (hopen : s.blocked = false) (hin : s.notInClientRegistry = false)
    (hfile : s.fs.contents (s.clientFile .will) = willBytes w n)
    (hw : ∀ t q r, w = some (t, q, r) → t.length < 255) :
    s.getClientWill = if w.isNone && n.isNone then none else some (willOf w n) := by
  have hread : s.readWill = willBytes w n := by rw [readWill, hfile, take_willBytes]
  unfold getClientWill
  rw [if_neg (by simp [hopen]), if_neg (by simp [hin]), hread, fill_willBytes]
  show (if (willBytes w n).length = 513 then some (willRecord w n).will else none) = _
  rw [will_willRecord hw, willBytes]
  split
  · rfl
  · exact if_pos (Record.size_eq _)

theorem hasClientWill_iff (hopen : s.blocked = false) (hin : s.notInClientRegistry = false)
    (hfile : s.fs.contents (s.clientFile .will) = willBytes w n)
    (hw : ∀ t q r, w = some (t, q, r) → t.length < 255) :
    s.hasClientWill = true ↔ ∃ t q r, w = some (t, q, r) ∧ t.bytes ≠ [] := by
  have hread : s.readWill = willBytes w n := by rw [readWill, hfile, take_willBytes]
  unfold hasClientWill
  rw [if_neg (by simp [hopen]), if_neg (by simp [hin]), hread, fill_willBytes]
  show (decide ((willBytes w n).length = 513) && decide ((willRecord w n).will.willtopic ≠ [])) =
    true ↔ _
  rw [will_willRecord hw, Bool.and_eq_true, decide_eq_true_iff, decide_eq_true_iff]
  cases w with
  | none => simp [willOf]
  | some w =>
    obtain ⟨t, q, r⟩ := w
    have hlen : (willBytes (some (t, q, r)) n).length = 513 := Record.size_eq _
    simp [hlen, willOf]

end Persistent

/-- A client's will is made of the last topic and the last message since the last deletion; it
exists as long as its topic is not empty, and the setters of the two parts leave each other's fields
alone. -/
theorem will_store (hj : Joined p b g s) (ha : AllowedRun p g s ops) (hstay : Stays p b s ops)
    (hid : (s.run p ops).getClientId = some b.bytes) :
    let h := calls p b .will s ops
    let s' := s.run p ops
    s'.getClientWill = (if (lastTopic h).isNone && (lastMessage h).isNone then none
      else some (willOf (lastTopic h) (lastMessage h))) ∧
    (s'.hasClientWill = true ↔ ∃ t q r, lastTopic h = some (t, q, r) ∧ t.bytes ≠ []) ∧
    (∀ ops₁ ops₂, ops = ops₁ ++ .deleteWill :: ops₂ → (s.run p ops₁).getClientId = some b.bytes →
      (∀ c ∈ calls p b .will ((s.run p ops₁).next p .deleteWill) ops₂, c.1.setsWilltopic = false) →
      s'.hasClientWill = false) ∧
    (∀ t q r m, (s'.setClientWilltopic p t q r).setClientWillmessage p m =
      (s'.setClientWillmessage p m).setClientWilltopic p t q r) ∧
    (∀ t q r, ∀ f ∈ EntryWill.messageFields, (s'.setClientWilltopic p t q r).willEntry.get f =
      s'.willEntry.get f) ∧
    ∀ m, ∀ f ∈ EntryWill.topicFields, (s'.setClientWillmessage p m).willEntry.get f =
      s'.willEntry.get f := by
  intro h s'
  obtain ⟨hopen, hin, -⟩ := open_of_getClientId hid
  have hfile : s'.fs.contents (s'.clientFile .will) = willBytes (lastTopic h) (lastMessage h) := by
    rw [hj.clientFile ha hstay hid]
    exact hj.will_file ha hstay
  have hshort : ∀ t q r, lastTopic h = some (t, q, r) → t.length < 255 :=
    fun _ _ _ => lastTopic_short
  have hhas := hasClientWill_iff hopen hin hfile hshort
  refine ⟨getClientWill_eq hopen hin hfile hshort, hhas, fun ops₁ ops₂ hops hid₁ hno => ?_,
    fun t q r m => setters_commute,
    fun t q r f hf => get_setClientWilltopic hf, fun m f hf => get_setClientWillmessage hf⟩
  -- the deletion is the last call that decides about the topic
  have hcalls : h = (calls p b .will s ops₁ ++ [(.deleteWill, .void)]) ++
      calls p b .will ((s.run p ops₁).next p .deleteWill) ops₂ := by
    show calls p b .will s ops = _
    rw [hops, calls_append, calls, if_pos ⟨hid₁, rfl⟩, List.append_assoc]
    rfl
  rw [← Bool.not_eq_true, hhas, hcalls, lastTopic_append_of_none lastTopic_delete hno]
  rintro ⟨t, q, r, ht, -⟩
  cases ht

theorem will_store_deleted :
    let ops : List Op :=
      [.setClientWilltopic device2 1 true, .setClientWillmessage ⟨[1, 2, 3], by decide⟩,
        .deleteWill,
        .setClientWillmessage ⟨[4], by decide⟩, .applyTransaction, .startClientTransaction device1,
        .setClientWilltopic device1 2 false]
    (firstClient.run posix ops).getClientWill = some ⟨device1.bytes, [4], 1, 2, false⟩ ∧
      (firstClient.run posix (ops.take 6)).hasClientWill = false := by
  intro ops
  have ha : AllowedRun posix (some ⟨some device1.bytes, true⟩) firstClient ops := by decide +kernel
  have ha' : AllowedRun posix (some ⟨some device1.bytes, true⟩) firstClient (ops.take 6) := by
    decide +kernel
  obtain ⟨hwill, -⟩ := will_store firstClient_joined ha (by decide +kernel) (by decide +kernel)
  obtain ⟨-, -, hdeleted, -⟩ := will_store firstClient_joined ha' (by decide +kernel)
    (by decide +kernel)
  refine ⟨hwill.trans (by decide +kernel),
    hdeleted (ops.take 2) ((ops.drop 3).take 3) rfl (by decide +kernel)
    (by decide +kernel)⟩

end SnGateway
