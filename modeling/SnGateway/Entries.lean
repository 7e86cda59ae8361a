import SnGateway.Card

/-!
# The structs the store writes to its files

Layouts of `LinuxPersistent.h`: `entry_client` is packed, the other structs have the natural
alignment of their members (little-endian machine, 4-byte `uint32_t`; padding bytes are never set
and stay NUL). `CLIENT_STATUS` and `message_type` are enumerations of the core, stored as 4-byte
integers; `device_address` is 6 bytes.
-/

namespace SnGateway
open RecordStore

def MAXIMUM_CLIENT_ID_LENGTH : Nat := 24
def MAXIMUM_TOPIC_NAME_LENGTH : Nat := 255

abbrev DeviceAddress := Record 6

abbrev EntryClient := Record 57
abbrev EntryRegistration := Record 258
abbrev EntrySubscription := Record 258
abbrev EntryMqttSubscription := Record 260
abbrev EntryWill := Record 513
abbrev EntryPublish := Record 272

namespace EntryClient
def clientId : Field := ⟨0, 24⟩
def fileNumber : Field := ⟨24, 9⟩
def clientAddress : Field := ⟨33, 6⟩
def clientStatus : Field := ⟨39, 4⟩
def duration : Field := ⟨43, 4⟩
def timeout : Field := ⟨47, 4⟩
def awaitMessageId : Field := ⟨51, 2⟩
def awaitMessage : Field := ⟨53, 4⟩
end EntryClient

namespace EntryRegistration
def topicId : Field := ⟨0, 2⟩
def topicName : Field := ⟨2, 255⟩
def known : Field := ⟨257, 1⟩
end EntryRegistration

namespace EntrySubscription
def topicId : Field := ⟨0, 2⟩
def qos : Field := ⟨2, 1⟩
def topicName : Field := ⟨3, 255⟩
end EntrySubscription

namespace EntryMqttSubscription
def clientSubscriptionCount : Field := ⟨0, 4⟩
def topicName : Field := ⟨4, 255⟩
end EntryMqttSubscription

namespace EntryWill
def willtopic : Field := ⟨0, 255⟩
def willmsg : Field := ⟨255, 255⟩
def willmsgLength : Field := ⟨510, 1⟩
def qos : Field := ⟨511, 1⟩
def retain : Field := ⟨512, 1⟩
end EntryWill

namespace EntryPublish
def msg : Field := ⟨0, 255⟩
def msgLength : Field := ⟨255, 1⟩
def topicId : Field := ⟨256, 2⟩
def qos : Field := ⟨258, 1⟩
def retain : Field := ⟨259, 1⟩
def dup : Field := ⟨260, 1⟩
def msgId : Field := ⟨262, 2⟩
def publishId : Field := ⟨264, 2⟩
def retransmitionTimeout : Field := ⟨268, 4⟩
end EntryPublish

/-- A buffer of at most 255 bytes with its `uint8_t` length. -/
structure Payload where
  bytes : List UInt8
  length_le : bytes.length ≤ 255
deriving DecidableEq

/-- What a socket tells the message handler. -/
inductive Notice where
  | socketConnected
  | socketDisconnected
  | receiveData (address : DeviceAddress) (buf : List UInt8)
deriving DecidableEq

/-! ### File names -/

def clientRegistry : FileName := ascii "CLIENTS"
def mqttSub : FileName := ascii "MQTT.SUB"
def predefinedTopic : FileName := ascii "TOPICS.PRE"
def mqttConfiguration : FileName := ascii "MQTT.CON"
def mqttsnConfiguration : FileName := ascii "MQTTSN.CON"

inductive FileEnding where
  | registration
  | subscribe
  | will
  | publish
deriving DecidableEq

def FileEnding.bytes : FileEnding → List UInt8
  | .registration => ascii ".REG"
  | .subscribe => ascii ".SUB"
  | .will => ascii ".WIL"
  | .publish => ascii ".PUB"

/-- `filename_with_extension`: the text of `file_number` and the ending. -/
def EntryClient.fileName (e : EntryClient) (ending : FileEnding) : FileName :=
  e.text EntryClient.fileNumber ++ ending.bytes

def slotFile (i : Nat) (ending : FileEnding) : FileName := zeroPadded 8 i ++ ending.bytes

@[simp] theorem FileEnding.length_bytes (x : FileEnding) : x.bytes.length = 4 := by
  cases x <;> decide

theorem FileEnding.bytes_injective {x y : FileEnding} (h : x.bytes = y.bytes) : x = y := by
  revert h; cases x <;> cases y <;> decide

theorem slotFile_injective {i j : Nat} {x y : FileEnding} (h : slotFile i x = slotFile j y) :
    i = j ∧ x = y := by
  obtain ⟨h1, h2⟩ := List.append_inj' h (by simp)
  exact ⟨zeroPadded_injective 8 h1, FileEnding.bytes_injective h2⟩

theorem length_slotFile_ge (i : Nat) (x : FileEnding) : 12 ≤ (slotFile i x).length := by
  simp [slotFile, zeroPadded]
  omega

theorem slotFile_ne_clientRegistry (i : Nat) (x : FileEnding) : slotFile i x ≠ clientRegistry := by
  intro h
  have hl := length_slotFile_ge i x
  rw [h] at hl; revert hl; decide

theorem slotFile_ne_mqttSub (i : Nat) (x : FileEnding) : slotFile i x ≠ mqttSub := by
  intro h
  have hl := length_slotFile_ge i x
  rw [h] at hl; revert hl; decide

theorem clientRegistry_ne_mqttSub : clientRegistry ≠ mqttSub := by decide

end SnGateway
