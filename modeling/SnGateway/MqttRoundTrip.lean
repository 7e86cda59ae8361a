import SnGateway.MqttConnect
import SnGateway.MqttSubscribe

/-!
# What is written is read back

The serialisers and the readers of the packets against each other. A serialiser writes a whole
packet into the buffer, never behind its end, or it refuses; it refuses also a packet that just fits
when its remaining length is one of four numbers that `MQTTPacket_len` counts wrong (`Refused`).
-/

namespace SnGateway
open RecordStore

/-- The packet does not fit into the buffer, or it does and its length is counted wrong. -/
def MqttFrame.Refused (buflen : Nat) (f : MqttFrame) : Prop :=
  buflen < f.bytes.length ∨ f.bytes.length = buflen ∧ f.body.length ∈ [127, 16383, 2097150, 2097151]

instance (buflen : Nat) (f : MqttFrame) : Decidable (f.Refused buflen) :=
  inferInstanceAs (Decidable (_ ∨ _))

namespace MqttSerialize

theorem lt_len_iff {buflen : Nat} {f : MqttFrame} (hf : f.body.length < 128 ^ 4) :
    buflen < MqttPacket.len f.body.length ↔ f.Refused buflen := by
  rw [MqttPacket.len_eq hf, MqttFrame.Refused, MqttFrame.length_bytes]
  split_ifs with h <;> simp only [h, and_true, and_false, or_false] <;> omega

/-- Either nothing is written, or a packet that fits. -/
theorem written {buflen : Nat} {f : MqttFrame} {r : Except Int (List UInt8)}
    (hf : f.body.length < 128 ^ 4)
    (hr : r = if buflen < MqttPacket.len f.body.length then .error bufferTooShort
      else .ok f.bytes) :
    f.Refused buflen ∧ r = .error bufferTooShort ∨ ¬ f.Refused buflen ∧ r = .ok f.bytes ∧
      f.bytes.length ≤ buflen := by
  rw [hr]
  by_cases h : f.Refused buflen
  · exact .inl ⟨h, if_pos ((lt_len_iff hf).2 h)⟩
  · exact .inr ⟨h, if_neg (mt (lt_len_iff hf).1 h), Nat.le_of_not_lt fun hlt => h (.inl hlt)⟩

end MqttSerialize

namespace MqttDeserialize
open MqttSerialize

/-- A PUBLISH that is written is read back. -/
theorem publish_roundTrip (dup retained : Nat) {qos packetid : Nat} {topicName : MqttString}
    (payload : List UInt8) (hqos : qos < 4) (hid : packetid < 2 ^ 16) (hvalid : topicName.Valid)
    (htopic : topicName.text.length < 2 ^ 16)
    (hf : (publishFrame dup qos retained packetid topicName.text payload).body.length < 128 ^ 4)
    (buflen : Nat) :
    let f := publishFrame dup qos retained packetid topicName.text payload
    if f.Refused buflen then MqttSerialize.publish buflen dup qos retained packetid topicName
      payload = .error bufferTooShort
    else ∃ bytes, MqttSerialize.publish buflen dup qos retained packetid topicName payload =
      .ok bytes ∧ bytes.length ≤ buflen ∧
      ∀ stale, publish (bytes ++ stale) =
      some (1, some ⟨dup % 2, qos, retained % 2, if 0 < qos then some packetid else none,
        .ofText topicName.text, some (payload ++ stale), some payload.length⟩) := by
  intro f
  rcases written hf (MqttSerialize.publish_eq hvalid buflen dup qos retained packetid payload) with
    ⟨hrefused, herror⟩ | ⟨hfits, hok, hlen⟩
  · rw [if_pos hrefused]
    exact herror
  · rw [if_neg hfits]
    exact ⟨f.bytes, hok, hlen, fun stale => publish_publishFrame hqos hid htopic hf stale⟩

theorem publish_roundTrip_qos :
    ∃ bytes, MqttSerialize.publish 64 0 1 0 7 ⟨some [97], 0, none⟩ [104] = .ok bytes ∧
    bytes.length ≤ 64 ∧ ∀ stale, publish (bytes ++ stale) =
      some (1, some ⟨0, 1, 0, some 7, .ofText [97], some ([104] ++ stale), some 1⟩) := by
  have h := publish_roundTrip 0 0 [104] (show 1 < 4 by decide) (show 7 < 2 ^ 16 by decide)
    (MqttString.valid_cstring [97]) (by decide) (by decide) 64
  extract_lets f at h
  rwa [if_neg (by decide +kernel)] at h

/-- A SUBSCRIBE that is written is read back, up to as many filters as there is room for. -/
theorem subscribe_roundTrip (signedChar : Bool) (dup : Nat) {packetid maxcount : Nat}
    {topicFilters : List (MqttString × Int)} (hid : packetid < 2 ^ 16)
    (hvalid : ∀ f ∈ topicFilters, f.1.Valid ∧ f.1.text.length < 2 ^ 16 ∧ 0 ≤ f.2 ∧ f.2 < 128)
    (hcount : topicFilters.length ≤ maxcount)
    (hf : (subscribeFrame dup packetid (topicFilters.map fun f => (f.1.text, f.2))).body.length <
      128 ^ 4)
    (buflen : Nat) :
    let members := topicFilters.map fun f => (f.1.text, f.2)
    let f := subscribeFrame dup packetid members
    if f.Refused buflen then MqttSerialize.subscribe buflen dup packetid topicFilters =
      .error bufferTooShort
    else ∃ bytes, MqttSerialize.subscribe buflen dup packetid topicFilters = .ok bytes ∧
      bytes.length ≤ buflen ∧
      ∀ stale, subscribe signedChar maxcount (bytes ++ stale) =
        some (1, some ⟨dup % 2, packetid, members⟩) := by
  intro members f
  rcases written hf
    (MqttSerialize.subscribe_eq (fun g hg => (hvalid g hg).1) buflen dup packetid) with
    ⟨hrefused, herror⟩ | ⟨hfits, hok, hlen⟩
  · rw [if_pos hrefused]
    exact herror
  · rw [if_neg hfits]
    refine ⟨f.bytes, hok, hlen, fun stale => ?_⟩
    have hitems : ∀ g ∈ members, ReadsItem (subscribeItem signedChar) subscribeBytes g := by
      intro g hg
      obtain ⟨t, ht, rfl⟩ := List.mem_map.1 hg
      obtain ⟨-, htext, h0, hqos⟩ := hvalid t ht
      exact readsItem_subscribe signedChar htext h0 hqos
    have htype : f.type = MsgType.subscribe.code := MqttHeader.type_byte _ _ _ _
    have hdup : MqttHeader.dup f.header = dup % 2 := MqttHeader.dup_byte _ _ _ _
    rw [subscribe, list_frame hitems (by rw [List.length_map]; exact hcount) hid htype rfl hf stale,
      hdup]

theorem subscribe_roundTrip_filter :
    ∃ bytes, MqttSerialize.subscribe 64 0 7 [(⟨some [97], 0, none⟩, 1)] = .ok bytes ∧
    bytes.length ≤ 64 ∧ ∀ stale, subscribe true 1 (bytes ++ stale) =
      some (1, some ⟨0, 7, [([97], 1)]⟩) := by
  have hcount : [((⟨some [97], 0, none⟩ : MqttString), (1 : Int))].length ≤ 1 := by decide
  have h := subscribe_roundTrip true 0 (show 7 < 2 ^ 16 by decide)
    (by simp [MqttString.valid_cstring, MqttString.text, cstr])
    hcount (by decide) 64
  extract_lets members f at h
  rwa [if_neg (by decide +kernel)] at h

theorem unsubscribe_roundTrip (dup : Nat) {packetid maxcount : Nat} {topicFilters : List MqttString}
    (hid : packetid < 2 ^ 16) (hvalid : ∀ f ∈ topicFilters, f.Valid ∧ f.text.length < 2 ^ 16)
    (hcount : topicFilters.length ≤ maxcount)
    (hf : (unsubscribeFrame dup packetid (topicFilters.map MqttString.text)).body.length < 128 ^ 4)
    (buflen : Nat) :
    let members := topicFilters.map MqttString.text
    let f := unsubscribeFrame dup packetid members
    if f.Refused buflen then MqttSerialize.unsubscribe buflen dup packetid topicFilters =
      .error bufferTooShort
    else ∃ bytes, MqttSerialize.unsubscribe buflen dup packetid topicFilters = .ok bytes ∧
      bytes.length ≤ buflen ∧
      ∀ stale, unsubscribe maxcount (bytes ++ stale) =
        some (1, some ⟨dup % 2, packetid, members⟩) := by
  intro members f
  rcases written hf (MqttSerialize.unsubscribe_eq (fun g hg => (hvalid g hg).1) buflen dup
    packetid) with
    ⟨hrefused, herror⟩ | ⟨hfits, hok, hlen⟩
  · rw [if_pos hrefused]
    exact herror
  · rw [if_neg hfits]
    refine ⟨f.bytes, hok, hlen, fun stale => ?_⟩
    have hitems : ∀ g ∈ members, ReadsItem unsubscribeItem MqttPacket.lenString g := by
      intro g hg
      obtain ⟨t, ht, rfl⟩ := List.mem_map.1 hg
      exact readsItem_unsubscribe (hvalid t ht).2
    have htype : f.type = MsgType.unsubscribe.code := MqttHeader.type_byte _ _ _ _
    have hdup : MqttHeader.dup f.header = dup % 2 := MqttHeader.dup_byte _ _ _ _
    rw [unsubscribe, list_frame hitems (by rw [List.length_map]; exact hcount) hid htype rfl hf
      stale, hdup]

/-- A CONNECT that is written is read back, but for a login that the reader refuses. -/
theorem connect_roundTrip {o : PacketConnectData} (hwritable : o.Writable)
    (hf : (connectFrame o).body.length < 128 ^ 4) (buflen : Nat) (data : PacketConnectData) :
    let f := connectFrame o
    if f.Refused buflen then MqttSerialize.connect buflen o = .error bufferTooShort
    else ∃ bytes, MqttSerialize.connect buflen o = .ok bytes ∧ bytes.length ≤ buflen ∧
      ∀ stale, ∃ rc data', connect data (bytes ++ stale) bytes.length = some (rc, data') ∧
        (rc = 1 ↔ o.LoginReadable) ∧ (rc = 1 → data' = o.readInto data) := by
  intro f
  rcases written hf (MqttSerialize.connect_eq hwritable buflen) with ⟨hrefused, herror⟩ |
    ⟨hfits, hok, hlen⟩
  · rw [if_pos hrefused]
    exact herror
  · rw [if_neg hfits]
    exact ⟨f.bytes, hok, hlen, fun stale => connect_frame hwritable data stale hf⟩

theorem connect_roundTrip_clean :
    ∃ bytes, MqttSerialize.connect 64 .clean = .ok bytes ∧ bytes.length ≤ 64 ∧
    ∀ stale, ∃ rc data', connect .clean (bytes ++ stale) bytes.length = some (rc, data') ∧
      (rc = 1 ↔ PacketConnectData.clean.LoginReadable) ∧
      (rc = 1 → data' = PacketConnectData.clean.readInto .clean) := by
  have h := connect_roundTrip PacketConnectData.writable_clean (by decide) 64 .clean
  extract_lets f at h
  rwa [if_neg (by decide +kernel)] at h

end MqttDeserialize

end SnGateway
