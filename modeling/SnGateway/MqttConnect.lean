import SnGateway.MqttPublish
import SnGateway.Paho

/-!
# CONNECT and CONNACK

`MQTTConnectClient.c` and `MQTTConnectServer.c`. The reader asks for three bytes more before it
reads a user name or a password, so an empty one at the end of the packet is refused; everything
else that fits into the buffer is read back (`MqttDeserialize.connect_frame`).
-/

namespace SnGateway
open RecordStore

/-- The `will` of `MQTTPacket_connectData` with strings of either kind. -/
structure PacketWill where
  topicName : MqttString
  message : MqttString
  retained : Nat
  qos : Nat
deriving DecidableEq

/-- `MQTTPacket_connectData` with strings of either kind. -/
structure PacketConnectData where
  mqttVersion : Nat
  clientId : MqttString
  keepAliveInterval : Nat
  cleansession : Nat
  willFlag : Nat
  will : PacketWill
  username : MqttString
  password : MqttString
deriving DecidableEq

/-- A member that is set to a C string or not at all. -/
def MqttString.ofCString (cstring : Option (List UInt8)) : MqttString := ⟨cstring, 0, none⟩

theorem MqttString.valid_ofCString (cstring : Option (List UInt8)) :
    (MqttString.ofCString cstring).Valid :=
  ⟨.inr rfl, Nat.le_refl 0⟩

/-- Either of the pointers is set. -/
def MqttString.present (s : MqttString) : Bool := s.cstring.isSome || s.data.isSome

/-- The data `PahoMqttMessageHandler` hands over. -/
def ConnectData.packet (d : ConnectData) : PacketConnectData where
  mqttVersion := d.mqttVersion.toNat
  clientId := .ofCString d.clientId
  keepAliveInterval := d.keepAliveInterval.toNat
  cleansession := d.cleansession.toNat
  willFlag := d.willFlag.toNat
  will := ⟨.ofCString d.will.topicName, .ofCString d.will.message, d.will.retained.toNat,
    d.will.qos.toNat⟩
  username := .ofCString d.username
  password := .ofCString d.password

/-! ### The flags of CONNECT -/

namespace MqttConnectFlags

/-- The bit fields, each cut to its width. -/
def all (cleansession will willQoS willRetain password username : Nat) : UInt8 :=
  UInt8.ofNat (username % 2 * 128 + password % 2 * 64 + willRetain % 2 * 32 + willQoS % 4 * 8 +
    will % 2 * 4 + cleansession % 2 * 2)

def cleansession (b : UInt8) : Nat := b.toNat / 2 % 2
def will (b : UInt8) : Nat := b.toNat / 4 % 2
def willQoS (b : UInt8) : Nat := b.toNat / 8 % 4
def willRetain (b : UInt8) : Nat := b.toNat / 32 % 2
def password (b : UInt8) : Nat := b.toNat / 64 % 2
def username (b : UInt8) : Nat := b.toNat / 128

variable (c w q r p u : Nat)

theorem toNat_all :
    (all c w q r p u).toNat =
      u % 2 * 128 + p % 2 * 64 + r % 2 * 32 + q % 4 * 8 + w % 2 * 4 + c % 2 * 2 :=
  UInt8.toNat_ofNat_of_lt' (by show _ < 256; omega)

@[simp] theorem cleansession_all : cleansession (all c w q r p u) = c % 2 := by
  rw [cleansession, toNat_all]
  omega
@[simp] theorem will_all : will (all c w q r p u) = w % 2 := by rw [will, toNat_all]; omega
@[simp] theorem willQoS_all : willQoS (all c w q r p u) = q % 4 := by rw [willQoS, toNat_all]; omega
@[simp] theorem willRetain_all : willRetain (all c w q r p u) = r % 2 := by
  rw [willRetain, toNat_all]
  omega
@[simp] theorem password_all : password (all c w q r p u) = p % 2 := by
  rw [password, toNat_all]
  omega
@[simp] theorem username_all : username (all c w q r p u) = u % 2 := by
  rw [username, toNat_all]
  omega

end MqttConnectFlags

namespace MqttSerialize

/-- The length of the string and of its number. -/
def stringLength (s : MqttString) : Nat := s.strlen + 2

def connectLength (options : PacketConnectData) : Nat :=
  (if options.mqttVersion = 3 then 12 else if options.mqttVersion = 4 then 10 else 0) +
    stringLength options.clientId +
    (if options.willFlag ≠ 0 then stringLength options.will.topicName +
      stringLength options.will.message else 0) +
    (if options.username.present then stringLength options.username else 0) +
    (if options.password.present then stringLength options.password else 0)

def connectFlags (options : PacketConnectData) : UInt8 :=
  let will := if options.willFlag ≠ 0 then 1 else 0
  MqttConnectFlags.all options.cleansession will (if will = 1 then options.will.qos else 0)
    (if will = 1 then options.will.retained else 0) options.password.present.toNat
      options.username.present.toNat

/-- The bytes written, or the error code. -/
def connect (buflen : Nat) (options : PacketConnectData) : Except Int (List UInt8) :=
  let len := connectLength options
  if buflen < MqttPacket.len len then .error bufferTooShort
  else .ok (MqttHeader.byte MsgType.connect.code 0 0 0 :: (MqttPacket.encode len ++
    ((if options.mqttVersion = 4 then MqttPacket.writeCString (ascii "MQTT") ++ [4]
      else MqttPacket.writeCString (ascii "MQIsdp") ++ [3]) ++
    (connectFlags options :: (MqttPacket.writeInt options.keepAliveInterval ++
    (MqttPacket.writeMqttString options.clientId ++
    ((if options.willFlag ≠ 0 then
        MqttPacket.writeMqttString options.will.topicName ++
        MqttPacket.writeMqttString options.will.message else []) ++
    ((if options.username.present then MqttPacket.writeMqttString options.username else []) ++
      (if options.password.present then MqttPacket.writeMqttString options.password else [])))))))))

def zero (buflen packettype : Nat) : Except Int (List UInt8) :=
  if buflen < 2 then
    .error bufferTooShort
  else .ok (MqttHeader.byte packettype 0 0 0 :: MqttPacket.encode 0)

def disconnect (buflen : Nat) : Except Int (List UInt8) := zero buflen MsgType.disconnect.code

def pingreq (buflen : Nat) : Except Int (List UInt8) := zero buflen MsgType.pingreq.code

/-- The check of the length is that of a packet without its body. -/
def connack (buflen : Nat) (connackRc : UInt8) (sessionPresent : Nat) : Except Int (List UInt8) :=
  if buflen < 2 then .error bufferTooShort
  else .ok (MqttHeader.byte MsgType.connack.code 0 0 0 :: (MqttPacket.encode 2 ++
    [UInt8.ofNat (sessionPresent % 2 * 128), connackRc]))

end MqttSerialize

namespace MqttDeserialize

/-- `memcmp` over the shorter one of the two names. -/
def checkVersion (protocol : List UInt8) (version : Nat) : Bool :=
  (version = 3 ∧ protocol.take 6 = (ascii "MQIsdp").take protocol.length) ∨
    (version = 4 ∧ protocol.take 4 = (ascii "MQTT").take protocol.length)

/-- `enddata - curdata < 3 || !readMQTTLenString(…)`. -/
def credential (s : MqttString) (c : Cursor) : Option (Bool × MqttString × Cursor) :=
  if c.left < 3 then some (false, s, c) else MqttPacket.readMqttLenString s c

/-- The user name and the password; a password needs a user name. -/
def credentials (flags : UInt8) (data : PacketConnectData) (c : Cursor) :
    Option (Int × PacketConnectData) :=
  if MqttConnectFlags.username flags ≠ 0 then do
    let (ok, username, c) ← credential data.username c
    let data := { data with username := username }
    if !ok then some (0, data)
    else if MqttConnectFlags.password flags ≠ 0 then
      let (ok, password, _) ← credential data.password c
      some (if ok then 1 else 0, { data with password := password })
    else some (1, data)
  else if MqttConnectFlags.password flags ≠ 0 then some (0, data)
  else some (1, data)

/-- What `connect` reads behind the protocol. -/
def connectBody (data : PacketConnectData) (c : Cursor) : Option (Int × PacketConnectData) := do
  let (flags, c) ← MqttPacket.readChar c
  let (keepAliveInterval, c) ← MqttPacket.readInt c
  let data :=
    { data with
      cleansession := MqttConnectFlags.cleansession flags, keepAliveInterval := keepAliveInterval }
  let (ok, clientId, c) ← MqttPacket.readMqttLenString data.clientId c
  let data := { data with clientId := clientId }
  if !ok then some (0, data)
  else
    let data := { data with willFlag := MqttConnectFlags.will flags }
    if MqttConnectFlags.will flags ≠ 0 then
      let will :=
        { data.will with
          qos := MqttConnectFlags.willQoS flags, retained := MqttConnectFlags.willRetain flags }
      let (ok, topicName, c) ← MqttPacket.readMqttLenString will.topicName c
      let will := { will with topicName := topicName }
      if !ok then some (0, { data with will := will })
      else
        let (ok, message, c) ← MqttPacket.readMqttLenString will.message c
        let data := { data with will := { will with message := message } }
        if !ok then some (0, data) else credentials flags data c
    else credentials flags data c

/-- `enddata` is where the caller says the buffer ends; the remaining length is skipped. -/
def connect (data : PacketConnectData) (buf : List UInt8) (len : Nat) :
    Option (Int × PacketConnectData) :=
  match buf with
  | [] => none
  | header :: curdata =>
    if MqttHeader.type header ≠ MsgType.connect.code then some (0, data)
    else do
      let (k, _) ← MqttPacket.decodeBuf curdata
      let (ok, protocol, c) ← MqttPacket.readMqttLenString .initializer
        ⟨curdata.drop k, (len : Int) - 1 - k⟩
      if !ok || c.left < 0 then some (0, data)
      else
        let (version, c) ← MqttPacket.readChar c
        if checkVersion (protocol.data.getD []) version.toNat then
          connectBody data c
        else some (0, data)

/-- What `MQTTDeserialize_connack` stores. -/
structure ConnackOut where
  sessionPresent : Nat
  connackRc : UInt8
deriving DecidableEq

/-- `none` where it stores nothing. -/
def connack (buf : List UInt8) : Option (Int × Option ConnackOut) :=
  match buf with
  | [] => none
  | header :: curdata =>
    if MqttHeader.type header ≠ MsgType.connack.code then some (0, none)
    else do
      let (rc, mylen) ← MqttPacket.decodeBuf curdata
      if mylen < 2 then some (rc, none)
      else
        let (flags, c) ← MqttPacket.readChar ⟨curdata.drop rc, mylen⟩
        let (connackRc, _) ← MqttPacket.readChar c
        some (1, some ⟨flags.toNat / 128, connackRc⟩)

end MqttDeserialize

/-! ### What is written is read back -/

/-- A string as the readers leave it. -/
def MqttString.ofText (text : List UInt8) : MqttString := ⟨none, text.length, some text⟩

namespace PacketConnectData

/-- Strings that fit into their lengths, and a version the serialiser knows. -/
structure Writable (o : PacketConnectData) : Prop where
  version : o.mqttVersion = 3 ∨ o.mqttVersion = 4
  keepAlive : o.keepAliveInterval < 2 ^ 16
  valid : o.clientId.Valid ∧ o.will.topicName.Valid ∧ o.will.message.Valid ∧ o.username.Valid ∧
    o.password.Valid
  short : o.clientId.text.length < 2 ^ 16 ∧ o.will.topicName.text.length < 2 ^ 16 ∧
    o.will.message.text.length < 2 ^ 16 ∧ o.username.text.length < 2 ^ 16 ∧
    o.password.text.length < 2 ^ 16

/-- The login that is written. -/
def user (o : PacketConnectData) : Option (List UInt8) :=
  if o.username.present then some o.username.text else none
def pass (o : PacketConnectData) : Option (List UInt8) :=
  if o.password.present then some o.password.text else none

/-- No password without a user name, and no empty string at the end. -/
def LoginReadable (o : PacketConnectData) : Prop :=
  (o.user = some [] → o.password.present = true) ∧
    (o.password.present = true → o.username.present = true ∧ o.pass ≠ some [])

/-- `o` as it is read into `data`. -/
def readInto (o data : PacketConnectData) : PacketConnectData :=
  { data with
    cleansession := o.cleansession % 2
    keepAliveInterval := o.keepAliveInterval
    clientId := .ofText o.clientId.text
    willFlag := if o.willFlag ≠ 0 then 1 else 0
    will := if o.willFlag ≠ 0 then
      ⟨.ofText o.will.topicName.text, .ofText o.will.message.text, o.will.retained % 2,
        o.will.qos % 4⟩ else data.will
    username := (o.user.map MqttString.ofText).getD data.username
    password := (o.pass.map MqttString.ofText).getD data.password }

end PacketConnectData

namespace MqttSerialize

def optionBytes (text : Option (List UInt8)) : List UInt8 := (text.map MqttPacket.lenString).getD []

def willBytes (o : PacketConnectData) : List UInt8 :=
  if o.willFlag ≠ 0 then
    MqttPacket.lenString o.will.topicName.text ++ MqttPacket.lenString o.will.message.text
  else []

def protocolName (version : Nat) : List UInt8 :=
  if version = 4 then ascii "MQTT" else ascii "MQIsdp"

def connectFrame (o : PacketConnectData) : MqttFrame where
  header := MqttHeader.byte MsgType.connect.code 0 0 0
  body := MqttPacket.lenString (protocolName o.mqttVersion) ++
    (UInt8.ofNat o.mqttVersion :: connectFlags o ::
    (MqttPacket.writeInt o.keepAliveInterval ++ (MqttPacket.lenString o.clientId.text ++
      (willBytes o ++ (optionBytes o.user ++ optionBytes o.pass)))))

theorem writeProtocol_eq {version : Nat} (h : version = 3 ∨ version = 4) :
    (if version = 4 then MqttPacket.writeCString (ascii "MQTT") ++ [4]
      else MqttPacket.writeCString (ascii "MQIsdp") ++ [3]) =
        MqttPacket.lenString (protocolName version) ++ [UInt8.ofNat version] := by
  rcases h with rfl | rfl <;> decide

theorem length_protocol {version : Nat} (h : version = 3 ∨ version = 4) :
    (MqttPacket.lenString (protocolName version)).length = if version = 3 then 8 else 6 := by
  rcases h with rfl | rfl <;> decide

theorem connectLength_eq {o : PacketConnectData} (h : o.Writable) :
    connectLength o = (connectFrame o).body.length := by
  obtain ⟨hid, htopic, hmsg, huser, hpass⟩ := h.valid
  have huserLen : (optionBytes o.user).length = if o.username.present then stringLength o.username
      else 0 := by
    unfold PacketConnectData.user optionBytes
    split_ifs
    · exact (MqttPacket.length_lenString _).trans
        (by rw [MqttString.length_text huser, stringLength])
    · rfl
  have hpassLen : (optionBytes o.pass).length = if o.password.present then stringLength o.password
      else 0 := by
    unfold PacketConnectData.pass optionBytes
    split_ifs
    · exact (MqttPacket.length_lenString _).trans
        (by rw [MqttString.length_text hpass, stringLength])
    · rfl
  have hwillLen : (willBytes o).length =
      if o.willFlag ≠ 0 then
        stringLength o.will.topicName + stringLength o.will.message
      else 0 := by
    unfold willBytes
    split_ifs
    · rw [List.length_append, MqttPacket.length_lenString, MqttPacket.length_lenString,
        MqttString.length_text htopic,
        MqttString.length_text hmsg, stringLength, stringLength]
    · rfl
  show _ = (MqttPacket.lenString (protocolName o.mqttVersion) ++
    (UInt8.ofNat o.mqttVersion :: connectFlags o ::
    (MqttPacket.writeInt o.keepAliveInterval ++ (MqttPacket.lenString o.clientId.text ++
      (willBytes o ++ (optionBytes o.user ++ optionBytes o.pass)))))).length
  simp only [List.length_append, List.length_cons, length_protocol h.version,
    MqttPacket.length_writeInt,
    MqttPacket.length_lenString, MqttString.length_text hid, huserLen, hpassLen, hwillLen,
    connectLength]
  have hstart : (if o.mqttVersion = 3 then 12 else if o.mqttVersion = 4 then 10 else 0) =
      (if o.mqttVersion = 3 then 8 else 6) + 4 := by
    rcases h.version with h3 | h4
    · rw [h3]; rfl
    · rw [h4]; rfl
  rw [hstart, stringLength]
  omega

theorem connect_eq {o : PacketConnectData} (h : o.Writable) (buflen : Nat) :
    connect buflen o =
      if buflen < MqttPacket.len (connectFrame o).body.length then .error bufferTooShort
      else .ok (connectFrame o).bytes := by
  obtain ⟨hid, htopic, hmsg, huser, hpass⟩ := h.valid
  have hwill : (if o.willFlag ≠ 0 then
        MqttPacket.writeMqttString o.will.topicName ++ MqttPacket.writeMqttString o.will.message
        else []) = willBytes o := by
    rw [MqttString.writeMqttString_eq htopic, MqttString.writeMqttString_eq hmsg]
    rfl
  have huserBytes : (if o.username.present then MqttPacket.writeMqttString o.username else []) =
      optionBytes o.user := by
    rw [MqttString.writeMqttString_eq huser]
    unfold PacketConnectData.user optionBytes
    split_ifs <;> rfl
  have hpassBytes : (if o.password.present then MqttPacket.writeMqttString o.password else []) =
      optionBytes o.pass := by
    rw [MqttString.writeMqttString_eq hpass]
    unfold PacketConnectData.pass optionBytes
    split_ifs <;> rfl
  unfold connect
  rw [connectLength_eq h, writeProtocol_eq h.version, hwill, huserBytes, hpassBytes,
    MqttString.writeMqttString_eq hid,
    List.append_assoc]
  rfl

end MqttSerialize

namespace MqttDeserialize
open MqttSerialize

theorem credential_lenString {text : List UInt8} (htext : text.length < 2 ^ 16) (s : MqttString)
    (rest : List UInt8) (left : Int) (hleft : text.length + 2 ≤ left) :
    credential s ⟨MqttPacket.lenString text ++ rest, left⟩ =
      if left < 3 then some (false, s, ⟨MqttPacket.lenString text ++ rest, left⟩)
      else some (true, .ofText text, ⟨rest, left - (text.length + 2)⟩) := by
  rw [credential, MqttPacket.readMqttLenString_lenString htext s rest left hleft]
  rfl

theorem credentials_user {flags : UInt8} (huser : MqttConnectFlags.username flags ≠ 0)
    (hpass : MqttConnectFlags.password flags = 0) {user : List UInt8} (hlen : user.length < 2 ^ 16)
    (data : PacketConnectData) (stale : List UInt8) :
    credentials flags data ⟨MqttPacket.lenString user ++ stale, (user.length + 2 : Nat)⟩ =
      if user = [] then some (0, data) else some (1, { data with username := .ofText user }) := by
  have hread := credential_lenString hlen data.username stale (user.length + 2 : Nat) (by omega)
  rw [credentials, if_pos huser, hread]
  by_cases hnil : user = []
  · rw [if_pos hnil, if_pos (by simp [hnil])]
    rfl
  · have hpos := List.length_pos_iff.2 hnil
    rw [if_neg hnil, if_neg (by omega)]
    simp [hpass]

theorem credentials_both {flags : UInt8} (huser : MqttConnectFlags.username flags ≠ 0)
    (hpass : MqttConnectFlags.password flags ≠ 0) {user pass : List UInt8}
    (hlen : user.length < 2 ^ 16) (hlen' : pass.length < 2 ^ 16) (data : PacketConnectData)
    (stale : List UInt8) :
    credentials flags data
        ⟨MqttPacket.lenString user ++ (MqttPacket.lenString pass ++ stale),
          (user.length + 2 + (pass.length + 2) : Nat)⟩ =
      if pass = [] then some (0, { data with username := .ofText user })
      else some (1, { data with username := .ofText user, password := .ofText pass }) := by
  have hread := credential_lenString hlen data.username (MqttPacket.lenString pass ++ stale)
    (user.length + 2 + (pass.length + 2) : Nat) (by omega)
  have hread' := credential_lenString hlen' data.password stale (pass.length + 2 : Nat) (by omega)
  have hleft : ((user.length + 2 + (pass.length + 2) : Nat) : Int) - (user.length + 2) =
      (pass.length + 2 : Nat) := by omega
  rw [credentials, if_pos huser, hread, if_neg (by omega), hleft]
  simp only [Option.bind_eq_bind, Option.bind_some, hread', Bool.not_true, Bool.false_eq_true,
    if_false, if_pos hpass]
  by_cases hnil : pass = []
  · rw [if_pos hnil, if_pos (by simp [hnil])]
    simp
  · have hpos := List.length_pos_iff.2 hnil
    rw [if_neg hnil, if_neg (by omega)]
    simp

/-- The credentials are read back if none is empty at the end of the packet. -/
theorem credentials_eq {o : PacketConnectData} (h : o.Writable) {flags : UInt8}
    (huser : MqttConnectFlags.username flags = o.username.present.toNat)
    (hpass : MqttConnectFlags.password flags = o.password.present.toNat) (data : PacketConnectData)
    (stale : List UInt8) :
    ∃ rc data', credentials flags data
        ⟨optionBytes o.user ++ (optionBytes o.pass ++ stale),
          ((optionBytes o.user).length + (optionBytes o.pass).length : Nat)⟩ =
      some (rc, data') ∧ (rc = 1 ↔ o.LoginReadable) ∧
      (rc = 1 → data' = { data with
        username := (o.user.map MqttString.ofText).getD data.username
        password := (o.pass.map MqttString.ofText).getD data.password }) := by
  obtain ⟨-, -, -, hu, hp⟩ := h.short
  unfold PacketConnectData.LoginReadable PacketConnectData.user PacketConnectData.pass
  cases hup : o.username.present <;> cases hpp : o.password.present <;>
    rw [hup] at huser <;> rw [hpp] at hpass
  · exact ⟨1, data, by simp [credentials, huser, hpass], by simp, fun _ => rfl⟩
  · exact ⟨0, data, by simp [credentials, huser, hpass], by simp, by simp⟩
  · have hread := credentials_user (by simp [huser]) hpass hu data stale
    simp only [if_true, Bool.false_eq_true, if_false, optionBytes, Option.map_some, Option.map_none,
      Option.getD_some,
      Option.getD_none, List.nil_append, List.length_nil, Nat.add_zero, MqttPacket.length_lenString,
      hread]
    by_cases hnil : o.username.text = []
    · exact ⟨0, data, by rw [if_pos hnil], by simp [hnil], by simp⟩
    · exact ⟨1, _, by rw [if_neg hnil], by simp [hnil], fun _ => rfl⟩
  · have hne : MqttConnectFlags.username flags ≠ 0 ∧ MqttConnectFlags.password flags ≠ 0 := by
      simp [huser, hpass]
    have hread := credentials_both hne.1 hne.2 hu hp data stale
    simp only [if_true, optionBytes, Option.map_some, Option.getD_some, MqttPacket.length_lenString,
      hread]
    by_cases hnil : o.password.text = []
    · exact ⟨0, _, by rw [if_pos hnil], by simp [hnil], by simp⟩
    · exact ⟨1, _, by rw [if_neg hnil], by simp [hnil], fun _ => rfl⟩

theorem flags_connectFlags (o : PacketConnectData) :
    MqttConnectFlags.username (connectFlags o) = o.username.present.toNat ∧
      MqttConnectFlags.password (connectFlags o) = o.password.present.toNat ∧
      MqttConnectFlags.cleansession (connectFlags o) = o.cleansession % 2 ∧
      MqttConnectFlags.will (connectFlags o) = (if o.willFlag ≠ 0 then 1 else 0) ∧
      (o.willFlag ≠ 0 → MqttConnectFlags.willQoS (connectFlags o) = o.will.qos % 4 ∧
        MqttConnectFlags.willRetain (connectFlags o) = o.will.retained % 2) := by
  unfold connectFlags
  refine ⟨?_, ?_, ?_, ?_, fun hwill => ?_⟩
  · cases o.username.present <;> simp
  · cases o.password.present <;> simp
  · simp
  · by_cases hwill : o.willFlag = 0 <;> simp [hwill]
  · simp [hwill]

theorem readMqttLenString_eq {text : List UInt8} (htext : text.length < 2 ^ 16) (s : MqttString)
    (rest : List UInt8) (more : Nat) :
    MqttPacket.readMqttLenString s ⟨MqttPacket.lenString text ++ rest,
      (text.length + 2 + more : Nat)⟩ =
        some (true, .ofText text, ⟨rest, more⟩) := by
  rw [MqttPacket.readMqttLenString_lenString htext s rest _ (by omega),
    show ((text.length + 2 + more : Nat) : Int) - (text.length + 2) = more by omega]
  rfl

/-- What is written behind the protocol is read back. -/
theorem connectBody_eq {o : PacketConnectData} (h : o.Writable) (data : PacketConnectData)
    (stale : List UInt8) :
    let bytes :=
      connectFlags o ::
        (MqttPacket.writeInt o.keepAliveInterval ++ (MqttPacket.lenString o.clientId.text ++
      (willBytes o ++ (optionBytes o.user ++ optionBytes o.pass))))
    ∃ rc data', connectBody data ⟨bytes ++ stale, bytes.length⟩ = some (rc, data') ∧
      (rc = 1 ↔ o.LoginReadable) ∧
      (rc = 1 → data' = o.readInto data) := by
  intro bytes
  obtain ⟨hid, htopic, hmsg, -, -⟩ := h.short
  obtain ⟨huser, hpass, hclean, hwill, hwillBits⟩ := flags_connectFlags o
  set login := (optionBytes o.user).length + (optionBytes o.pass).length
  have hbytes : bytes ++ stale = connectFlags o :: (MqttPacket.writeInt o.keepAliveInterval ++
      (MqttPacket.lenString o.clientId.text ++
        (willBytes o ++ (optionBytes o.user ++ (optionBytes o.pass ++ stale))))) := by
    simp [bytes]
  have hlen : (bytes.length : Int) - 1 - 2 =
      (o.clientId.text.length + 2 + ((willBytes o).length + login) : Nat) := by
    simp only [bytes, List.length_cons, List.length_append, MqttPacket.length_writeInt,
      MqttPacket.length_lenString]
    omega
  rw [hbytes]
  simp only [connectBody, MqttPacket.readChar_cons, MqttPacket.readInt_writeInt h.keepAlive,
    Option.bind_eq_bind,
    Option.bind_some, hlen, readMqttLenString_eq hid, Bool.not_true, Bool.false_eq_true, if_false,
    hclean, hwill]
  by_cases hflag : o.willFlag = 0
  · have hno : willBytes o = [] := by rw [willBytes, if_neg (by simp [hflag])]
    obtain ⟨rc, data', hcred, hok, hdata⟩ := credentials_eq h huser hpass
      { data with
        cleansession := o.cleansession % 2
        keepAliveInterval := o.keepAliveInterval
        clientId := .ofText o.clientId.text
        willFlag := 0 } stale
    refine ⟨rc, data', ?_, hok, fun hrc => ?_⟩
    · simp only [hflag, hno, ne_eq, not_true_eq_false, if_false, List.nil_append, List.length_nil,
        Nat.zero_add]
      exact hcred
    · rw [hdata hrc]
      simp [PacketConnectData.readInto, hflag]
  · have hyes : willBytes o = MqttPacket.lenString o.will.topicName.text ++
        MqttPacket.lenString o.will.message.text := by
      rw [willBytes, if_pos hflag]
    obtain ⟨hqos, hretain⟩ := hwillBits hflag
    obtain ⟨rc, data', hcred, hok, hdata⟩ := credentials_eq h huser hpass
      { data with
        cleansession := o.cleansession % 2
        keepAliveInterval := o.keepAliveInterval
        clientId := .ofText o.clientId.text
        willFlag := 1
        will := ⟨.ofText o.will.topicName.text, .ofText o.will.message.text, o.will.retained % 2,
          o.will.qos % 4⟩ } stale
    refine ⟨rc, data', ?_, hok, fun hrc => ?_⟩
    · rw [hyes, List.length_append, MqttPacket.length_lenString, MqttPacket.length_lenString,
        List.append_assoc, Nat.add_assoc]
      simp only [ne_eq, hflag, not_false_eq_true, if_true, one_ne_zero, readMqttLenString_eq htopic,
        readMqttLenString_eq hmsg, Option.bind_some, Bool.not_true, Bool.false_eq_true, if_false,
        hqos, hretain]
      exact hcred
    · rw [hdata hrc]
      simp [PacketConnectData.readInto, hflag]

theorem checkVersion_protocolName {version : Nat} (h : version = 3 ∨ version = 4) :
    checkVersion (protocolName version) (UInt8.ofNat version).toNat = true ∧
      (protocolName version).length < 2 ^ 16 := by
  rcases h with rfl | rfl <;> decide

/-- A CONNECT packet is read back unless its login ends in an empty string or is a
password alone. -/
theorem connect_frame {o : PacketConnectData} (h : o.Writable) (data : PacketConnectData)
    (stale : List UInt8) (hf : (connectFrame o).body.length < 128 ^ 4) :
    ∃ rc data', connect data ((connectFrame o).bytes ++ stale) (connectFrame o).bytes.length =
      some (rc, data') ∧
      (rc = 1 ↔ o.LoginReadable) ∧ (rc = 1 → data' = o.readInto data) := by
  obtain ⟨hversion, hname⟩ := checkVersion_protocolName h.version
  obtain ⟨rc, data', hbody, hok, hdata⟩ := connectBody_eq h data stale
  refine ⟨rc, data', ?_, hok, hdata⟩
  set bytes :=
    connectFlags o ::
      (MqttPacket.writeInt o.keepAliveInterval ++ (MqttPacket.lenString o.clientId.text ++
    (willBytes o ++ (optionBytes o.user ++ optionBytes o.pass)))) with hbytes
  set f := connectFrame o with hframe
  have htype : MqttHeader.type f.header = MsgType.connect.code := MqttHeader.type_byte _ _ _ _
  have hfbody : f.body ++ stale =
      MqttPacket.lenString (protocolName o.mqttVersion) ++
        (UInt8.ofNat o.mqttVersion :: (bytes ++ stale)) := by
    rw [hframe, connectFrame, List.append_assoc]
    rfl
  have hlen : f.body.length = (protocolName o.mqttVersion).length + 2 + (bytes.length + 1) := by
    rw [hframe, connectFrame, List.length_append, MqttPacket.length_lenString]
    rfl
  have hleft : ((f.bytes.length : Nat) : Int) - 1 -
    ((MqttPacket.encode f.body.length).length : Nat) =
      ((protocolName o.mqttVersion).length + 2 + (bytes.length + 1) : Nat) := by
    rw [MqttFrame.length_bytes, ← hlen]
    omega
  show connect data (f.header :: (MqttPacket.encode f.body.length ++ f.body ++ stale))
    f.bytes.length = _
  simp only [connect, htype, ne_eq, not_true_eq_false, if_false, decodeBuf_frame f stale hf,
    drop_frame,
    Option.bind_eq_bind, Option.bind_some, hleft, hfbody, readMqttLenString_eq hname,
    MqttPacket.readChar_cons]
  rw [if_neg (by simp; omega)]
  simp only [MqttString.ofText, Option.getD_some, hversion, if_true]
  rw [show ((bytes.length + 1 : Nat) : Int) - 1 = bytes.length by omega]
  exact hbody

end MqttDeserialize

/-- A clean session with the client id `gw`, without a will and a login. -/
def PacketConnectData.clean : PacketConnectData :=
  ⟨4, .ofCString (some (ascii "gw")), 60, 1, 0, ⟨.ofCString none, .ofCString none, 0, 0⟩,
    .ofCString none, .ofCString none⟩

theorem PacketConnectData.writable_clean : PacketConnectData.clean.Writable where
  version := .inr rfl
  keepAlive := by decide
  valid := by simp only [clean, MqttString.valid_ofCString, and_self]
  short := by decide

end SnGateway
