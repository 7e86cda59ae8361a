import SnGateway.MqttPacket

/-!
# PUBLISH packets and acknowledgements

`MQTTSerializePublish.c` and `MQTTDeserializePublish.c`. What is written is read back, whatever
stands behind it in the buffer (`publish_publishFrame`). The variable that holds the result of a
reader is also used for the number of length bytes: where a reader gives up behind a length of one
byte, it returns 1, which is the code for success (`publish_accepts`).
-/

namespace SnGateway
open RecordStore

namespace MqttSerialize

def publishLength (qos : Nat) (topicName : MqttString) (payloadlen : Nat) : Nat :=
  2 + topicName.strlen + payloadlen + if 0 < qos then 2 else 0

/-- The bytes written, or the error code. -/
def publish (buflen dup qos retained packetid : Nat) (topicName : MqttString)
    (payload : List UInt8) : Except Int (List UInt8) :=
  let remLen := publishLength qos topicName payload.length
  if buflen < MqttPacket.len remLen then .error bufferTooShort
  else .ok (MqttHeader.byte MsgType.publish.code dup qos retained :: (MqttPacket.encode remLen ++
    (MqttPacket.writeMqttString topicName ++
      ((if 0 < qos then MqttPacket.writeInt packetid else []) ++ payload))))

def ack (buflen packettype dup packetid : Nat) : Except Int (List UInt8) :=
  if buflen < 4 then .error bufferTooShort
  else .ok (MqttHeader.byte packettype dup (if packettype = MsgType.pubrel.code then 1 else 0) 0 ::
    (MqttPacket.encode 2 ++ MqttPacket.writeInt packetid))

def puback (buflen packetid : Nat) : Except Int (List UInt8) :=
  ack buflen MsgType.puback.code 0 packetid

end MqttSerialize

/-- What `MQTTDeserialize_publish` stores; `none` is left as it was. -/
structure PublishOut where
  dup : Nat
  qos : Nat
  retained : Nat
  packetid : Option Nat
  topicName : MqttString
  /-- The bytes from the payload to the end of the buffer. -/
  payload : Option (List UInt8)
  payloadlen : Option Int
deriving DecidableEq

/-- What `MQTTDeserialize_ack` stores. -/
structure AckOut where
  packettype : Nat
  dup : Nat
  packetid : Option Nat
deriving DecidableEq

namespace MqttDeserialize

/-- The result and what was stored, for a `topicName` that was initialised; `none` where the type is
another one. -/
def publish (buf : List UInt8) : Option (Int × Option PublishOut) :=
  match buf with
  | [] => none
  | header :: curdata =>
    if MqttHeader.type header ≠ MsgType.publish.code then some (0, none)
    else do
      let qos := MqttHeader.qos header
      let out : PublishOut :=
        ⟨MqttHeader.dup header, qos, MqttHeader.retain header, none, .initializer, none, none⟩
      let (rc, mylen) ← MqttPacket.decodeBuf curdata
      let (ok, topicName, c) ← MqttPacket.readMqttLenString .initializer ⟨curdata.drop rc, mylen⟩
      let out := { out with topicName := topicName }
      if !ok || c.left < 0 then some (rc, some out)
      else if 0 < qos then
        let (packetid, c) ← MqttPacket.readInt c
        some (1,
          some { out with
            packetid := some packetid, payload := some c.data, payloadlen := some c.left })
      else some (1, some { out with payload := some c.data, payloadlen := some c.left })

def ack (buf : List UInt8) : Option (Int × AckOut) :=
  match buf with
  | [] => none
  | header :: curdata => do
    let out : AckOut := ⟨MqttHeader.type header, MqttHeader.dup header, none⟩
    let (rc, mylen) ← MqttPacket.decodeBuf curdata
    if mylen < 2 then some (rc, out)
    else
      let (packetid, _) ← MqttPacket.readInt ⟨curdata.drop rc, mylen⟩
      some (1, { out with packetid := some packetid })

end MqttDeserialize

/-! ### Round trips -/

namespace MqttSerialize

/-- What stands behind the topic name in front of the payload. -/
def idBytes (qos packetid : Nat) : List UInt8 :=
  if 0 < qos then MqttPacket.writeInt packetid else []

def publishFrame (dup qos retained packetid : Nat) (topicName payload : List UInt8) :
    MqttFrame where
  header := MqttHeader.byte MsgType.publish.code dup qos retained
  body := MqttPacket.lenString topicName ++ (idBytes qos packetid ++ payload)

def ackFrame (packettype dup packetid : Nat) : MqttFrame where
  header := MqttHeader.byte packettype dup (if packettype = MsgType.pubrel.code then 1 else 0) 0
  body := MqttPacket.writeInt packetid

theorem length_idBytes (qos packetid : Nat) :
    (idBytes qos packetid).length = if 0 < qos then 2 else 0 := by
  unfold idBytes
  split_ifs <;> rfl

theorem publishLength_eq (dup retained packetid : Nat) {qos : Nat} {topicName : MqttString}
    (h : topicName.Valid) (payload : List UInt8) :
    publishLength qos topicName payload.length =
      (publishFrame dup qos retained packetid topicName.text payload).body.length := by
  simp only [publishFrame, List.length_append, MqttPacket.length_lenString, length_idBytes,
    publishLength,
    MqttString.length_text h]
  omega

theorem publish_eq {topicName : MqttString} (h : topicName.Valid)
    (buflen dup qos retained packetid : Nat) (payload : List UInt8) :
    let f := publishFrame dup qos retained packetid topicName.text payload
    publish buflen dup qos retained packetid topicName payload =
      if buflen < MqttPacket.len f.body.length then .error bufferTooShort else .ok f.bytes := by
  intro f
  unfold publish
  rw [publishLength_eq dup retained packetid h, MqttString.writeMqttString_eq h]
  rfl

theorem publish_of_lt {buflen dup qos retained packetid : Nat} {topicName : MqttString}
    {payload : List UInt8}
    (h : buflen < MqttPacket.len (publishLength qos topicName payload.length)) :
    publish buflen dup qos retained packetid topicName payload = .error bufferTooShort := if_pos h

theorem publish_of_le {buflen dup qos retained packetid : Nat} {topicName : MqttString}
    {payload : List UInt8}
    (h : ¬ buflen < MqttPacket.len (publishLength qos topicName payload.length)) :
    ∃ bytes, publish buflen dup qos retained packetid topicName payload = .ok bytes := ⟨_, if_neg h⟩

theorem ack_eq (buflen packettype dup packetid : Nat) :
    ack buflen packettype dup packetid = if buflen < 4 then .error bufferTooShort
      else .ok (ackFrame packettype dup packetid).bytes :=
  rfl

end MqttSerialize

namespace MqttDeserialize

variable {f : MqttFrame} {stale : List UInt8}

/-- The readers see a frame at the start of the buffer. -/
theorem decodeBuf_frame (f : MqttFrame) (stale : List UInt8) (hf : f.body.length < 128 ^ 4) :
    MqttPacket.decodeBuf (MqttPacket.encode f.body.length ++ f.body ++ stale) =
      some ((MqttPacket.encode f.body.length).length, f.body.length) := by
  rw [List.append_assoc]
  exact MqttPacket.decodeBuf_encode hf (f.body ++ stale)

theorem drop_frame (f : MqttFrame) (stale : List UInt8) :
    (MqttPacket.encode f.body.length ++ f.body ++ stale).drop
      (MqttPacket.encode f.body.length).length = f.body ++ stale := by
  rw [List.append_assoc, List.drop_left]

/-- What is stored before the topic name is read. -/
def headerOut (f : MqttFrame) : PublishOut :=
  ⟨MqttHeader.dup f.header, MqttHeader.qos f.header, MqttHeader.retain f.header, none, .initializer,
    none, none⟩

theorem publish_topic {topic tail : List UInt8} (htype : f.type = MsgType.publish.code)
    (hf : f.body.length < 128 ^ 4) (htopic : topic.length < 2 ^ 16)
    (hbody : f.body = MqttPacket.lenString topic ++ tail) :
    publish (f.bytes ++ stale) =
      let out := { headerOut f with topicName := ⟨none, topic.length, some topic⟩ }
      if 0 < MqttHeader.qos f.header then
        (MqttPacket.readInt ⟨tail ++ stale, tail.length⟩).map fun r =>
          (1, some { out with
            packetid := some r.1, payload := some r.2.data, payloadlen := some r.2.left })
      else
        some (1,
          some { out with payload := some (tail ++ stale), payloadlen := some tail.length }) := by
  have hlen : (f.body.length : Int) = topic.length + 2 + tail.length := by
    rw [hbody, List.length_append, MqttPacket.length_lenString]
    push_cast
    ring
  have hread := MqttPacket.readMqttLenString_lenString htopic .initializer (tail ++ stale)
    f.body.length (by omega)
  rw [← List.append_assoc, ← hbody, show (f.body.length : Int) - (topic.length + 2) =
    tail.length by omega] at hread
  unfold MqttFrame.type at htype
  show publish (f.header :: (MqttPacket.encode f.body.length ++ f.body ++ stale)) = _
  simp only [publish, htype, ne_eq, not_true_eq_false, if_false, decodeBuf_frame f stale hf,
    Option.bind_eq_bind,
    Option.bind_some, drop_frame, hread]
  rw [if_neg (by simp)]
  split
  · cases MqttPacket.readInt ⟨tail ++ stale, tail.length⟩ <;> rfl
  · rfl

/-- The topic name does not fit: the result is the number of length bytes. -/
theorem publish_of_not_ok {topicName : MqttString} {c : Cursor}
    (htype : f.type = MsgType.publish.code) (hf : f.body.length < 128 ^ 4)
    (hread : MqttPacket.readMqttLenString .initializer ⟨f.body ++ stale, f.body.length⟩ =
      some (false, topicName, c)) :
    publish (f.bytes ++ stale) =
      some (((MqttPacket.encode f.body.length).length : Int),
        some { headerOut f with topicName := topicName }) := by
  unfold MqttFrame.type at htype
  show publish (f.header :: (MqttPacket.encode f.body.length ++ f.body ++ stale)) = _
  simp only [publish, htype, ne_eq, not_true_eq_false, if_false, decodeBuf_frame f stale hf,
    Option.bind_eq_bind,
    Option.bind_some, drop_frame, hread, Bool.not_false, Bool.true_or, if_true]
  rfl

theorem publish_short (htype : f.type = MsgType.publish.code) (hbody : f.body.length < 2) :
    publish (f.bytes ++ stale) = some (1, some (headerOut f)) := by
  rw [publish_of_not_ok htype (by omega)
    (MqttPacket.readMqttLenString_short hbody .initializer stale),
    MqttPacket.encode_of_lt (by omega)]
  rfl

theorem publish_long {n : Nat} {tail : List UInt8} (htype : f.type = MsgType.publish.code)
    (hf : f.body.length < 128 ^ 4) (hn : n < 2 ^ 16) (htail : tail.length < n)
    (hbody : f.body = MqttPacket.writeInt n ++ tail) :
    publish (f.bytes ++ stale) =
      some (((MqttPacket.encode f.body.length).length : Int),
        some { headerOut f with topicName := ⟨none, n, none⟩ }) :=
  publish_of_not_ok htype hf
    (by rw [hbody]; exact MqttPacket.readMqttLenString_long hn htail .initializer stale)

/-- A PUBLISH is taken as read when its topic name fits, and also when it does not but the packet is
shorter than 128 bytes. -/
theorem publish_accepts (htype : f.type = MsgType.publish.code) (hf : f.body.length < 128 ^ 4)
    (hstale : 2 ≤ stale.length) :
    (∃ out, publish (f.bytes ++ stale) = some (1, out)) ↔
      (∃ topic tail, topic.length < 2 ^ 16 ∧ f.body = MqttPacket.lenString topic ++ tail) ∨
      f.body.length < 128 := by
  have hone : (MqttPacket.encode f.body.length).length = 1 ↔ f.body.length < 128 := by
    have hpos := (MqttPacket.closed_encode f.body.length).length_pos
    have := MqttPacket.length_encode_le_iff (n := f.body.length) (k := 0)
    simp only [Nat.zero_add, Nat.pow_one] at this
    omega
  rcases MqttPacket.lenString_cases f.body with ⟨topic, tail, htopic, hbody⟩ | hshort |
    ⟨n, tail, hn, htail, hbody⟩
  · refine iff_of_true ?_ (.inl ⟨topic, tail, htopic, hbody⟩)
    rw [publish_topic htype hf htopic hbody]
    dsimp only
    split
    · have htwo : 2 ≤ (tail ++ stale).length := by rw [List.length_append]; omega
      match tail ++ stale, htwo with
      | a :: b :: rest, _ => exact ⟨_, rfl⟩
    · exact ⟨_, rfl⟩
  · exact iff_of_true ⟨_, publish_short htype hshort⟩ (.inr (by omega))
  · rw [publish_long htype hf hn htail hbody]
    simp only [Option.some.injEq, Prod.mk.injEq, exists_and_left, exists_eq', and_true,
      Nat.cast_eq_one, hone]
    refine (or_iff_right ?_).symm
    rintro ⟨topic, htopic, tail', h⟩
    rw [hbody, MqttPacket.lenString, List.append_assoc] at h
    obtain ⟨hint, rfl⟩ := List.append_inj h rfl
    rw [MqttPacket.writeInt_inj hn htopic hint, List.length_append] at htail
    omega

/-- What was written is read back. -/
theorem publish_publishFrame {dup qos retained packetid : Nat} (hqos : qos < 4)
    (hid : packetid < 2 ^ 16) {topic payload : List UInt8} (htopic : topic.length < 2 ^ 16)
    (hf : (MqttSerialize.publishFrame dup qos retained packetid topic payload).body.length <
      128 ^ 4)
    (stale : List UInt8) :
    publish ((MqttSerialize.publishFrame dup qos retained packetid topic payload).bytes ++ stale) =
      some (1, some ⟨dup % 2, qos, retained % 2, if 0 < qos then some packetid else none,
        ⟨none, topic.length, some topic⟩, some (payload ++ stale), some payload.length⟩) := by
  have htype : (MqttSerialize.publishFrame dup qos retained packetid topic payload).type =
    MsgType.publish.code :=
    MqttHeader.type_byte _ _ _ _
  have hheader :
    MqttHeader.qos (MqttSerialize.publishFrame dup qos retained packetid topic payload).header =
      qos :=
    (MqttHeader.qos_byte _ _ _ _).trans (Nat.mod_eq_of_lt hqos)
  rw [publish_topic htype hf htopic rfl]
  simp only [hheader]
  split_ifs with hpos
  · rw [MqttSerialize.idBytes, if_pos hpos, List.append_assoc, MqttPacket.readInt_writeInt hid]
    simp [headerOut, MqttSerialize.publishFrame, Nat.mod_eq_of_lt hqos]
  · rw [MqttSerialize.idBytes, if_neg hpos]
    simp [headerOut, MqttSerialize.publishFrame, Nat.mod_eq_of_lt hqos]

end MqttDeserialize

end SnGateway
