import SnGateway.Registry
import SnGateway.Will
import SnGateway.Publishes
import SnGateway.Config

/-!
# The whole interface of `LinuxPersistent`

`Op` lists the operations with their arguments, `step` runs one and returns its reply: the result
and the output parameters. `PERSISTENT_DEBUG` is 1 in the source.
-/

namespace SnGateway
open RecordStore

def PERSISTENT_DEBUG : Bool := true

inductive Op where
  | begin
  | startClientTransaction (clientId : CString)
  | startClientTransactionByAddress (address : DeviceAddress)
  | applyTransaction
  | clientExist
  | deleteClient (clientId : CString)
  | addClient (clientId : CString) (address : DeviceAddress) (duration : UInt32)
  | resetClient (clientId : CString) (address : DeviceAddress) (duration : UInt32)
  | setClientAwaitMessage (msgType : UInt32)
  | getClientAwaitMessageType
  | setTimeout (timeout : UInt32)
  | hasClientWill
  | getClientWill
  | setClientWilltopic (willtopic : CString) (qos : UInt8) (retain : Bool)
  | setClientWillmessage (willmsg : Payload)
  | deleteWill
  | getLastClientAddress
  | getNthClient (n : UInt64)
  | getTopicName (topicId : UInt16)
  | getTopicId (topicName : CString)
  | isTopicKnown (topicId : UInt16)
  | setTopicKnown (topicId : UInt16) (known : Bool)
  | addClientRegistration (topicName : CString)
  | getPredefinedTopicName (topicId : UInt16)
  | setClientState (status : UInt32)
  | setClientDuration (duration : UInt32)
  | getClientStatus
  | getClientAwaitMsgId
  | setClientAwaitMsgId (msgId : UInt16)
  | isSubscribed (topicName : Option CString)
  | addSubscription (topicName : Option CString) (topicId : UInt16) (qos : UInt8)
  | deleteSubscription (topicId : UInt16)
  | getSubscriptionQos (topicName : Option CString)
  | getSubscriptionTopicId (topicName : Option CString)
  | hasClientPublishes
  | getNthSubscribedTopicId (n : UInt16)
  | getClientSubscriptionCount
  | decrementGlobalSubscriptionCount (topicName : Option CString)
  | incrementGlobalSubscriptionCount (topicName : Option CString)
  | getGlobalTopicSubscriptionCount (topicName : Option CString)
  | addClientPublish (data : Payload) (topicId : UInt16) (retain : Bool) (qos : UInt8) (dup : Bool)
      (msgId : UInt16)
  | getNextPublish
  | setPublishMsgId (publishId msgId : UInt16)
  | removePublishByMsgId (msgId : UInt16)
  | removePublishByPublishId (publishId : UInt16)
  | getAdvertiseDuration
  | getTimeoutCheckDuration
  | getGatewayId (gatewayId : UInt8)
  | getMqttConfig (out : MqttConfig)
  | getMqttLoginConfig (out : MqttLogin)
  | getMqttWill (out : MqttWill)
  | setMqttsnDisconnected
  | setMqttDisconnected
  | setMqttConnected
  | setMqttsnConnected
  | isMqttsnOnline
  | isMqttOnline
  | getClientId

/-- The result of an operation and its output parameters; `undefined` where the source has no
defined result, whatever the state is that stands beside it. -/
inductive Reply where
  | void
  | undefined
  | bool (b : Bool)
  | nat (n : Nat)
  | int (n : Int)
  /-- A `char *`, null for `none`, or a text output parameter, untouched for `none`. -/
  | text (t : Option (List UInt8))
  | client (c : Persistent.NthClient)
  | will (w : Option ClientWill)
  | topicId (i : Option Nat)
  | publish (n : Option NextPublish)
  | gatewayId (result : Bool) (n : Nat)
  | config (result : Bool) (out : MqttConfig)
  | login (result : Bool) (out : MqttLogin)
  | mqttWill (result : Bool) (out : MqttWill)
deriving DecidableEq

/-- A call that returns nothing. -/
def Reply.voidIf (defined : Bool) : Reply := if defined then .void else .undefined

def Reply.ofOption {α : Type} (f : α → Reply) : Option α → Reply
  | some a => f a
  | none => .undefined

namespace Persistent

/-- One operation of the store: its reply and the state it leaves. -/
def step (p : Platform) (debug : Bool) (s : Persistent) : Op → Reply × Persistent
  | .begin => (.ofOption .bool (s.begin debug).1, (s.begin debug).2)
  | .startClientTransaction c => (.void, s.startClientTransaction c)
  | .startClientTransactionByAddress a => (.void, s.startClientTransactionByAddress a)
  | .applyTransaction => (.nat s.applyTransaction.1, s.applyTransaction.2)
  | .clientExist => (.bool s.clientExist, s)
  | .deleteClient c => (.void, s.deleteClient p c)
  | .addClient c a d => (.voidIf (s.addClientLogs debug c d), s.addClient p c a d)
  | .resetClient c a d => (.void, s.resetClient p c a d)
  | .setClientAwaitMessage t =>
    (.voidIf (s.setClientAwaitMessageLogs debug t), s.setClientAwaitMessage p t)
  | .getClientAwaitMessageType => (.nat (s.getClientAwaitMessageType p), s)
  | .setTimeout t => (.void, s.setTimeout p t)
  | .hasClientWill => (.bool s.hasClientWill, s)
  | .getClientWill => (.will s.getClientWill, s)
  | .setClientWilltopic t q r => (.void, s.setClientWilltopic p t q r)
  | .setClientWillmessage m => (.void, s.setClientWillmessage p m)
  | .deleteWill => (.void, s.deleteWill)
  | .getLastClientAddress => (.text (s.getLastClientAddress p), s)
  | .getNthClient n => (.client (s.getNthClient p n), s)
  | .getTopicName i => (.text (s.getTopicName i), s)
  | .getTopicId t => (.nat (s.getTopicId t), s)
  | .isTopicKnown i => (.ofOption .bool (s.isTopicKnown i).1, (s.isTopicKnown i).2)
  | .setTopicKnown i k => (.bool (s.setTopicKnown i k), s)
  | .addClientRegistration t =>
    (.topicId (s.addClientRegistration p t).1, (s.addClientRegistration p t).2)
  | .getPredefinedTopicName i => (.ofOption .text (s.getPredefinedTopicName i), s)
  | .setClientState st => (.void, s.setClientState p st)
  | .setClientDuration d => (.void, s.setClientDuration d)
  | .getClientStatus => (.nat (s.getClientStatus p), s)
  | .getClientAwaitMsgId => (.nat s.getClientAwaitMsgId, s)
  | .setClientAwaitMsgId i => (.void, s.setClientAwaitMsgId p i)
  | .isSubscribed t => (.bool (s.isSubscribed debug t), s)
  | .addSubscription t i q => (.void, s.addSubscription p debug t i q)
  | .deleteSubscription i => (.void, s.deleteSubscription p i)
  | .getSubscriptionQos t => (.int (s.getSubscriptionQos t), s)
  | .getSubscriptionTopicId t => (.nat (s.getSubscriptionTopicId t), s)
  | .hasClientPublishes => (.bool s.hasClientPublishes, s)
  | .getNthSubscribedTopicId n => (.nat (s.getNthSubscribedTopicId p n), s)
  | .getClientSubscriptionCount => (.nat s.getClientSubscriptionCount, s)
  | .decrementGlobalSubscriptionCount t =>
    (.ofOption .bool (s.decrementGlobalSubscriptionCount p debug t).1,
      (s.decrementGlobalSubscriptionCount p debug t).2)
  | .incrementGlobalSubscriptionCount t =>
    (.ofOption .bool (s.incrementGlobalSubscriptionCount p debug t).1,
      (s.incrementGlobalSubscriptionCount p debug t).2)
  | .getGlobalTopicSubscriptionCount t =>
    (.ofOption .nat (s.getGlobalTopicSubscriptionCount debug t), s)
  | .addClientPublish d i r q u m => (.void, s.addClientPublish p d i r q u m)
  | .getNextPublish => (.publish (s.getNextPublish p), s)
  | .setPublishMsgId i m => (.void, s.setPublishMsgId p i m)
  | .removePublishByMsgId m => (.void, s.removePublishByMsgId p m)
  | .removePublishByPublishId i => (.void, s.removePublishByPublishId p i)
  | .getAdvertiseDuration => (.ofOption .nat (s.getAdvertiseDuration debug), s)
  | .getTimeoutCheckDuration => (.ofOption .nat (s.getTimeoutCheckDuration debug), s)
  | .getGatewayId g => (.ofOption (fun r => .gatewayId r.1 r.2) (s.getGatewayId debug g), s)
  | .getMqttConfig out => (.ofOption (fun r => .config r.1 r.2) (s.getMqttConfig out), s)
  | .getMqttLoginConfig out => (.ofOption (fun r => .login r.1 r.2) (s.getMqttLoginConfig out), s)
  | .getMqttWill out => (.ofOption (fun r => .mqttWill r.1 r.2) (s.getMqttWill out), s)
  | .setMqttsnDisconnected => (.nat p.SUCCESS.toNat, s.setMqttsnDisconnected)
  | .setMqttDisconnected => (.nat p.SUCCESS.toNat, s.setMqttDisconnected)
  | .setMqttConnected => (.nat p.SUCCESS.toNat, s.setMqttConnected)
  | .setMqttsnConnected => (.nat p.SUCCESS.toNat, s.setMqttsnConnected)
  | .isMqttsnOnline => (.bool s.isMqttsnOnline, s)
  | .isMqttOnline => (.bool s.isMqttOnline, s)
  | .getClientId => (.text s.getClientId, s)

/-- The state after one operation of the store as it is built. -/
def next (p : Platform) (s : Persistent) (op : Op) : Persistent := (s.step p PERSISTENT_DEBUG op).2

/-- The state after a sequence of operations. -/
def run (p : Platform) (s : Persistent) (ops : List Op) : Persistent := ops.foldl (next p) s

/-- A gateway that was just set up on an empty directory. -/
def setUp : Persistent where
  fs := fun _ => none
  entryClient := Record.zero 57
  notInClientRegistry := false
  transactionStarted := false
  error := false
  isMqttsnOnline := false
  isMqttOnline := false
  core := true
  logger := true

end Persistent

/-! ### Values for concrete runs -/

/-- A seek behind the end goes there. -/
def posix : Platform where
  seekBeyond := fun _ _ target => (target, true)
  EMPTY := 0
  ACTIVE := 1
  LOST := 4
  MQTTSN_PINGREQ := 22
  SUCCESS := 0

def device1 : CString := ⟨ascii "device1", by decide⟩
def device2 : CString := ⟨ascii "device2", by decide⟩
def address1 : DeviceAddress := ⟨[192, 168, 0, 1, 7, 208], rfl⟩
def address2 : DeviceAddress := ⟨[192, 168, 0, 2, 7, 208], rfl⟩

end SnGateway
