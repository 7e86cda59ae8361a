import SnGateway.MqttPublish

/-!
# SUBSCRIBE, UNSUBSCRIBE and their acknowledgements

`MQTTSubscribeClient.c`, `MQTTUnsubscribeClient.c` and the broker's side of both. A list of topic
filters is read back as it was written. `char` has a sign on some platforms, so a return code of
0x80 is -128 there (`charToInt`).
-/

namespace SnGateway
open RecordStore

/-- A `char` as an `int`. -/
def charToInt (signedChar : Bool) (c : UInt8) : Int :=
  if signedChar ∧ 128 ≤ c.toNat then c.toNat - 256 else c.toNat

/-- An `int` cut to a `char`. -/
def intToChar (n : Int) : UInt8 := UInt8.ofNat (n % 256).toNat

namespace MqttSerialize

def subscribeLength (topicFilters : List MqttString) : Nat :=
  2 + (topicFilters.map fun f => 2 + f.strlen + 1).sum

def subscribe (buflen dup packetid : Nat) (topicFilters : List (MqttString × Int)) :
    Except Int (List UInt8) :=
  let remLen := subscribeLength (topicFilters.map Prod.fst)
  if buflen < MqttPacket.len remLen then .error bufferTooShort
  else
    .ok (MqttHeader.byte MsgType.subscribe.code dup 1 0 ::
      (MqttPacket.encode remLen ++ (MqttPacket.writeInt packetid ++
    topicFilters.flatMap fun f => MqttPacket.writeMqttString f.1 ++ [intToChar f.2])))

def unsubscribeLength (topicFilters : List MqttString) : Nat :=
  2 + (topicFilters.map fun f => 2 + f.strlen).sum

def unsubscribe (buflen dup packetid : Nat) (topicFilters : List MqttString) :
    Except Int (List UInt8) :=
  let remLen := unsubscribeLength topicFilters
  if buflen < MqttPacket.len remLen then .error bufferTooShort
  else
    .ok (MqttHeader.byte MsgType.unsubscribe.code dup 1 0 ::
      (MqttPacket.encode remLen ++ (MqttPacket.writeInt packetid ++
    topicFilters.flatMap MqttPacket.writeMqttString)))

/-- The check of the length leaves out the header. -/
def suback (buflen packetid : Nat) (grantedQoSs : List Int) : Except Int (List UInt8) :=
  if buflen < 2 + grantedQoSs.length then .error bufferTooShort
  else
    .ok (MqttHeader.byte MsgType.suback.code 0 0 0 :: (MqttPacket.encode (2 + grantedQoSs.length) ++
      (MqttPacket.writeInt packetid ++ grantedQoSs.map intToChar)))

def unsuback (buflen packetid : Nat) : Except Int (List UInt8) :=
  if buflen < 2 then .error bufferTooShort
  else
    .ok (MqttHeader.byte MsgType.unsuback.code 0 0 0 ::
      (MqttPacket.encode 2 ++ MqttPacket.writeInt packetid))

end MqttSerialize

namespace MqttDeserialize

/-- The loop that reads members up to `enddata`, one a turn, of which each takes a byte at least.
`item` gives no member where it goes to `exit`; nothing checks that an array has room for it. -/
def items {α : Type} (item : Cursor → Option (Option α × Cursor)) (maxcount : Nat) :
    (turns count : Nat) → Cursor → Option (Bool × List α)
  | 0, _, _ => some (true, [])
  | turns + 1, count, c =>
    if c.left ≤ 0 then some (true, [])
    else if maxcount ≤ count then none
    else
      match item c with
      | none => none
      | some (none, _) => some (false, [])
      | some (some a, c) =>
        (items item maxcount turns (count + 1) c).map fun (ok, as) => (ok, a :: as)

/-- What the readers of packets with a packet id and a list store. -/
structure ListOut (α : Type) where
  dup : Nat
  packetid : Nat
  members : List α
deriving DecidableEq

/-- The part these readers share: where the type is right, the packet id and the members. `rc` is
what it was set to first. -/
def list {α : Type} (type : MsgType) (rc : Int) (item : Cursor → Option (Option α × Cursor))
    (maxcount : Nat) (buf : List UInt8) : Option (Int × Option (ListOut α)) :=
  match buf with
  | [] => none
  | header :: curdata =>
    if MqttHeader.type header ≠ type.code then some (rc, none)
    else do
      let (rc, mylen) ← MqttPacket.decodeBuf curdata
      let (packetid, c) ← MqttPacket.readInt ⟨curdata.drop rc, mylen⟩
      let (ok, members) ← items item maxcount mylen 0 c
      some (if ok then 1 else rc, some ⟨MqttHeader.dup header, packetid, members⟩)

/-- A topic filter and a requested QoS. -/
def subscribeItem (signedChar : Bool) (c : Cursor) : Option (Option (List UInt8 × Int) × Cursor) :=
  match MqttPacket.readMqttLenString .initializer c with
  | none => none
  | some (false, _, c) => some (none, c)
  | some (true, topicFilter, c) =>
    if c.left ≤ 0 then some (none, c)
    else (MqttPacket.readChar c).map fun (qos, c) =>
      (some (topicFilter.data.getD [], charToInt signedChar qos), c)

def subscribe (signedChar : Bool) (maxcount : Nat) (buf : List UInt8) :
    Option (Int × Option (ListOut (List UInt8 × Int))) :=
  list .subscribe (-1) (subscribeItem signedChar) maxcount buf

def unsubscribeItem (c : Cursor) : Option (Option (List UInt8) × Cursor) :=
  match MqttPacket.readMqttLenString .initializer c with
  | none => none
  | some (false, _, c) => some (none, c)
  | some (true, topicFilter, c) => some (some (topicFilter.data.getD []), c)

def unsubscribe (maxcount : Nat) (buf : List UInt8) :
    Option (Int × Option (ListOut (List UInt8))) :=
  list .unsubscribe 0 unsubscribeItem maxcount buf

/-- What `MQTTDeserialize_suback` stores; the return codes only where it comes to them. -/
structure SubackOut where
  packetid : Option Nat
  grantedQoSs : List Int
deriving DecidableEq

/-- `*count > maxcount` is seen too late: the member in front of it is already behind the end of the
array. -/
def suback (signedChar : Bool) (maxcount : Nat) (buf : List UInt8) : Option (Int × SubackOut) :=
  match buf with
  | [] => none
  | header :: curdata =>
    if MqttHeader.type header ≠ MsgType.suback.code then some (0, ⟨none, []⟩)
    else do
      let (rc, mylen) ← MqttPacket.decodeBuf curdata
      if mylen < 2 then some (rc, ⟨none, []⟩)
      else
        let (packetid, c) ← MqttPacket.readInt ⟨curdata.drop rc, mylen⟩
        let item := fun c => (MqttPacket.readChar c).map fun (b, c) =>
          (some (charToInt signedChar b), c)
        let (_, grantedQoSs) ← items item maxcount mylen 0 c
        some (1, ⟨some packetid, grantedQoSs⟩)

/-- The result is 1 also for a packet that is too short, if its type is right. -/
def unsuback (buf : List UInt8) : Option Int :=
  (ack buf).map fun (rc, out) => if out.packettype = MsgType.unsuback.code then 1 else rc

/-! ### Round trips -/

/-- `item` reads `write a` back, whatever stands behind it. -/
structure ReadsItem {α : Type} (item : Cursor → Option (Option α × Cursor)) (write : α → List UInt8)
    (a : α) : Prop where
  ne_nil : write a ≠ []
  read : ∀ stale left, (write a).length ≤ left →
    item ⟨write a ++ stale, (left : Nat)⟩ = some (some a, ⟨stale, (left : Int) - (write a).length⟩)

theorem items_flatMap {α : Type} {item : Cursor → Option (Option α × Cursor)}
    {write : α → List UInt8} {as : List α} (has : ∀ a ∈ as, ReadsItem item write a)
    {maxcount turns count : Nat} (hturns : (as.flatMap write).length ≤ turns)
    (hcount : count + as.length ≤ maxcount) (stale : List UInt8) :
    items item maxcount turns count ⟨as.flatMap write ++ stale, (as.flatMap write).length⟩ =
      some (true, as) := by
  induction as generalizing turns count with
  | nil => cases turns <;> simp [items]
  | cons a as ih =>
    obtain ⟨⟨hne, hread⟩, has⟩ := List.forall_mem_cons.1 has
    have hpos := List.length_pos_iff.2 hne
    rw [List.flatMap_cons, List.length_append] at hturns
    obtain ⟨turns, rfl⟩ : ∃ k, turns = k + 1 := ⟨turns - 1, by omega⟩
    rw [List.length_cons] at hcount
    have hitem := hread (as.flatMap write ++ stale) ((write a).length + (as.flatMap write).length)
      (by omega)
    rw [Nat.cast_add, add_sub_cancel_left] at hitem
    rw [List.flatMap_cons, List.append_assoc, List.length_append, Nat.cast_add, items, hitem]
    dsimp only
    rw [if_neg (by omega), if_neg (by omega), ih has (by omega) (by omega)]
    rfl

/-- The bytes of a topic filter and its requested QoS. -/
def subscribeBytes (f : List UInt8 × Int) : List UInt8 :=
  MqttPacket.lenString f.1 ++ [intToChar f.2]

theorem charToInt_intToChar (signedChar : Bool) {n : Int} (h : 0 ≤ n) (hn : n < 128) :
    charToInt signedChar (intToChar n) = n := by
  have hval : (intToChar n).toNat = n.toNat := by
    rw [intToChar, Int.emod_eq_of_lt h (by omega), MqttPacket.toNat_ofNat_of_lt (by omega)]
  rw [charToInt, hval, if_neg (by omega)]
  omega

theorem readsItem_subscribe (signedChar : Bool) {f : List UInt8 × Int} (hlen : f.1.length < 2 ^ 16)
    (h0 : 0 ≤ f.2) (hqos : f.2 < 128) : ReadsItem (subscribeItem signedChar) subscribeBytes f where
  ne_nil := by simp [subscribeBytes]
  read stale left hleft := by
    rw [subscribeBytes, List.length_append, MqttPacket.length_lenString, List.length_singleton]
      at hleft ⊢
    rw [subscribeItem, List.append_assoc, MqttPacket.readMqttLenString_lenString hlen _ _ _
      (by omega)]
    dsimp only
    rw [if_neg (by omega), List.singleton_append, MqttPacket.readChar_cons, Option.map_some,
      charToInt_intToChar _ h0 hqos]
    simp only [Option.getD_some, Prod.mk.eta, Option.some.injEq, Prod.mk.injEq,
      Cursor.mk.injEq, true_and]
    push_cast
    ring

theorem readsItem_unsubscribe {f : List UInt8} (hlen : f.length < 2 ^ 16) :
    ReadsItem unsubscribeItem MqttPacket.lenString f where
  ne_nil := by simp [MqttPacket.lenString, MqttPacket.writeInt]
  read stale left hleft := by
    rw [MqttPacket.length_lenString] at hleft ⊢
    rw [unsubscribeItem, MqttPacket.readMqttLenString_lenString hlen _ _ _ (by omega)]
    rfl

/-- The packet id and the members of a frame are read back. -/
theorem list_frame {α : Type} {type : MsgType} {rc : Int}
    {item : Cursor → Option (Option α × Cursor)} {write : α → List UInt8} {as : List α}
    (has : ∀ a ∈ as, ReadsItem item write a) {maxcount packetid : Nat}
    (hcount : as.length ≤ maxcount) (hid : packetid < 2 ^ 16) {f : MqttFrame}
    (htype : f.type = type.code) (hbody : f.body = MqttPacket.writeInt packetid ++ as.flatMap write)
    (hf : f.body.length < 128 ^ 4) (stale : List UInt8) :
    list type rc item maxcount (f.bytes ++ stale) =
      some (1, some ⟨MqttHeader.dup f.header, packetid, as⟩) := by
  have hlen : f.body.length = (as.flatMap write).length + 2 := by
    rw [hbody, List.length_append, MqttPacket.length_writeInt, Nat.add_comm]
  have hread : MqttPacket.readInt ⟨f.body ++ stale, f.body.length⟩ =
      some (packetid, ⟨as.flatMap write ++ stale, (as.flatMap write).length⟩) := by
    rw [hlen, hbody, List.append_assoc, MqttPacket.readInt_writeInt hid]
    simp
  have hitems :
    items item maxcount f.body.length 0 ⟨as.flatMap write ++ stale, (as.flatMap write).length⟩ =
      some (true, as) := items_flatMap has (by omega) (by omega) stale
  unfold MqttFrame.type at htype
  show list type rc item maxcount
    (f.header :: (MqttPacket.encode f.body.length ++ f.body ++ stale)) = _
  simp only [list, htype, ne_eq, not_true_eq_false, if_false, decodeBuf_frame f stale hf,
    Option.bind_eq_bind,
    Option.bind_some, drop_frame, hread, hitems, if_true]

end MqttDeserialize

namespace MqttSerialize
open MqttDeserialize

def subscribeFrame (dup packetid : Nat) (topicFilters : List (List UInt8 × Int)) : MqttFrame where
  header := MqttHeader.byte MsgType.subscribe.code dup 1 0
  body := MqttPacket.writeInt packetid ++ topicFilters.flatMap subscribeBytes

def unsubscribeFrame (dup packetid : Nat) (topicFilters : List (List UInt8)) : MqttFrame where
  header := MqttHeader.byte MsgType.unsubscribe.code dup 1 0
  body := MqttPacket.writeInt packetid ++ topicFilters.flatMap MqttPacket.lenString

theorem subscribe_eq {topicFilters : List (MqttString × Int)} (h : ∀ f ∈ topicFilters, f.1.Valid)
    (buflen dup packetid : Nat) :
    let f := subscribeFrame dup packetid (topicFilters.map fun f => (f.1.text, f.2))
    subscribe buflen dup packetid topicFilters =
      if buflen < MqttPacket.len f.body.length then .error bufferTooShort else .ok f.bytes := by
  intro f
  have hbytes : (topicFilters.flatMap fun f => MqttPacket.writeMqttString f.1 ++ [intToChar f.2]) =
      (topicFilters.map fun f => (f.1.text, f.2)).flatMap subscribeBytes := by
    rw [List.flatMap_map]
    exact List.flatMap_congr fun f hf => by rw [MqttString.writeMqttString_eq (h f hf)]; rfl
  have hlen : subscribeLength (topicFilters.map Prod.fst) = f.body.length := by
    show _ = (MqttPacket.writeInt packetid ++ _).length
    rw [← hbytes, List.length_append, MqttPacket.length_writeInt, List.length_flatMap,
      subscribeLength, List.map_map]
    congr 2
    refine List.map_congr_left fun f hf => ?_
    rw [Function.comp_apply, List.length_append, MqttString.writeMqttString_eq (h f hf),
      MqttPacket.length_lenString,
      MqttString.length_text (h f hf), List.length_singleton]
    omega
  unfold subscribe
  rw [hlen, hbytes]
  rfl

theorem unsubscribe_eq {topicFilters : List MqttString} (h : ∀ f ∈ topicFilters, f.Valid)
    (buflen dup packetid : Nat) :
    let f := unsubscribeFrame dup packetid (topicFilters.map MqttString.text)
    unsubscribe buflen dup packetid topicFilters =
      if buflen < MqttPacket.len f.body.length then .error bufferTooShort else .ok f.bytes := by
  intro f
  have hbytes : topicFilters.flatMap MqttPacket.writeMqttString =
      (topicFilters.map MqttString.text).flatMap MqttPacket.lenString := by
    rw [List.flatMap_map]
    exact List.flatMap_congr fun f hf => MqttString.writeMqttString_eq (h f hf)
  have hlen : unsubscribeLength topicFilters = f.body.length := by
    show _ = (MqttPacket.writeInt packetid ++ _).length
    rw [← hbytes, List.length_append, MqttPacket.length_writeInt, List.length_flatMap,
      unsubscribeLength]
    congr 2
    refine List.map_congr_left fun f hf => ?_
    rw [MqttString.writeMqttString_eq (h f hf), MqttPacket.length_lenString,
      MqttString.length_text (h f hf), Nat.add_comm]
  unfold unsubscribe
  rw [hlen, hbytes]
  rfl

end MqttSerialize

end SnGateway
