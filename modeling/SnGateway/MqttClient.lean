import SnGateway.IpStack
import SnGateway.MqttConnect
import SnGateway.MqttSubscribe
import SnGateway.TopicMatch

/-!
# The MQTT client

`MQTT::Client` of `MQTTClient.h`, with `MQTTCLIENT_QOS1` set and `MQTTCLIENT_QOS2` not. The time and
the network are given with each call: what `write` returns until the timer has run out, and the
turns that a loop takes until then (`Exchange`). A call that does not come back, or that uses what
was never set, has no result (`none`). A `write` that fails returns -1; the signal that ends the
process when the broker has reset the connection is left out. The handlers do not call the client.
-/

namespace SnGateway
open RecordStore

/-- What a message handler is given; the payload is the rest of the buffer from where it starts. -/
structure MessageData where
  topicName : List UInt8
  payload : List UInt8
  payloadlen : Int
  qos : Nat
  retained : Nat
  dup : Nat
  id : Option Nat
deriving DecidableEq

/-- The first bytes of a packet are put on the wire, or a handler is called. -/
inductive MqttEvent (H : Type) where
  | sent (bytes : List UInt8)
  | called (handler : H) (data : MessageData)
deriving DecidableEq

/-- `messageHandlers[i]` and `topicFilters[i]`; the filter is a null pointer or points to that
array. -/
structure MessageHandler (H : Type) where
  topicFilter : Bool
  fp : Option H
  topicName : List UInt8
deriving DecidableEq

/-- One pass through `cycle`: what `write` returns for an acknowledgement, whether one of the
keep-alive timers has run out, and what `write` returns for the ping. A failed `write` is `none`. -/
structure Turn where
  acknowledge : List (Option Nat)
  pingDue : Bool
  ping : List (Option Nat)

/-- A packet is sent and an answer waited for. -/
structure Exchange where
  write : List (Option Nat)
  turns : List Turn

/-- The length of `readbuf` is `MAX_MQTT_PACKET_SIZE`, that of `messageHandlers` is
`MAX_MESSAGE_HANDLERS`. -/
structure MqttClient (H : Type) where
  ipstack : IpStack
  readbuf : List UInt8
  keepAliveInterval : Nat
  pingOutstanding : Bool
  cleansession : Bool
  packetid : Nat
  messageHandlers : List (MessageHandler H)
  defaultMessageHandler : Option H
  isconnected : Bool
  pubbuf : List UInt8
  inflightMsgid : Nat
  inflightQoS : Nat
  log : List (MqttEvent H)
deriving DecidableEq

/-- The filter of a slot in use is equal to the topic name or matches it. -/
def MessageHandler.isFor {H : Type} (m : MessageHandler H) (topicName : MqttString) : Option Bool :=
  if !m.topicFilter then some false
  else
    match MqttPacket.equals topicName m.topicName with
    | some true => some true
    | some false => MqttClient.isTopicMatched m.topicName topicName
    | none => none

/-- What the handlers see of a packet. -/
def PublishOut.message (out : PublishOut) : Option MessageData :=
  match out.payload, out.payloadlen with
  | some payload, some payloadlen => some
    ⟨(out.topicName.data.getD []).take out.topicName.len, payload, payloadlen, out.qos,
      out.retained, out.dup, out.packetid⟩
  | _, _ => none

namespace MqttClient
variable {H : Type}

/-- `PacketId::getNext`. -/
def nextPacketId (next : Nat) : Nat := if next = 65535 then 1 else next + 1

def cleanSession (c : MqttClient H) : MqttClient H :=
  { c with
    pingOutstanding := false
    messageHandlers := c.messageHandlers.map fun m => { m with topicFilter := false }
    isconnected := false
    inflightMsgid := 0
    inflightQoS := 0 }

/-- How many of `length` bytes are written before a call fails or the timer has run out. -/
def writeLoop : Nat → List (Option Nat) → Nat
  | 0, _ => 0
  | _ + 1, [] => 0
  | _ + 1, none :: _ => 0
  | length + 1, some n :: answers =>
    min n (length + 1) + writeLoop (length + 1 - min n (length + 1)) answers

/-- `SUCCESS` is 0 and `FAILURE` is -1. A `write` that fails is only seen as a failure: SIGPIPE is
not caught. -/
def sendPacket (bytes : List UInt8) (answers : List (Option Nat)) (c : MqttClient H) :
    Int × MqttClient H :=
  let sent := writeLoop bytes.length answers
  (if sent = bytes.length then 0 else -1, { c with log := c.log ++ [.sent (bytes.take sent)] })

/-- The handlers that a message with this topic name is for. -/
def handlersFor (topicName : MqttString) : List (MessageHandler H) → Option (List H)
  | [] => some []
  | m :: ms => do
    let matched ← m.isFor topicName
    let hs ← handlersFor topicName ms
    some ((if matched then m.fp.toList else []) ++ hs)

/-- The default handler is for the messages that no handler was called for. -/
def deliverMessage (out : PublishOut) (c : MqttClient H) : Option (MqttClient H) := do
  let hs ← handlersFor out.topicName c.messageHandlers
  let hs := if hs.isEmpty then c.defaultMessageHandler.toList else hs
  if hs.isEmpty then some c
  else
    let data ← out.message
    some { c with log := c.log ++ hs.map fun h => .called h data }

/-- A packet without an id has nothing to acknowledge with. -/
def sendAck (type : MsgType) (packetid : Option Nat) (answers : List (Option Nat))
    (c : MqttClient H) : Option (Int × MqttClient H) :=
  match packetid with
  | none => none
  | some packetid =>
    match MqttSerialize.ack c.readbuf.length type.code 0 packetid with
    | .error _ => some (-1, c)
    | .ok bytes => some (c.sendPacket bytes answers)

/-- `len` stays 0 for the QoS that is none. -/
def acknowledge (out : PublishOut) (answers : List (Option Nat)) (c : MqttClient H) :
    Option (Int × MqttClient H) :=
  if out.qos = 1 then c.sendAck .puback out.packetid answers
  else if out.qos = 2 then c.sendAck .pubrec out.packetid answers
  else some (-1, c)

def keepalive (turn : Turn) (c : MqttClient H) : MqttClient H :=
  if c.keepAliveInterval = 0 ∨ turn.pingDue = false ∨ c.pingOutstanding = true then c
  else
    match MqttSerialize.pingreq c.readbuf.length with
    | .error _ => c
    | .ok bytes =>
      let (rc, c) := c.sendPacket bytes turn.ping
      if rc = 0 then { c with pingOutstanding := true } else c

/-- The branch for PUBLISH: whether it goes to `exit`, and `rc`. -/
def cyclePublish (turn : Turn) (c : MqttClient H) : Option (Bool × Int × MqttClient H) := do
  let (rc, out) ← MqttDeserialize.publish c.readbuf
  match out with
  | none => some (true, 0, c)
  | some out =>
    if rc ≠ 1 then some (true, 0, c)
    else
      let c ← c.deliverMessage out
      if out.qos = 0 then some (false, 0, c)
      else
        let (rc, c) ← c.acknowledge out turn.acknowledge
        some (rc = -1, rc, c)

/-- The type of the packet that was read, or what failed. -/
def cycle (turn : Turn) (c : MqttClient H) : Option (Int × MqttClient H) := do
  let (packetType, readbuf, ipstack) ← IpStack.readPacket c.readbuf c.ipstack
  let c := { c with readbuf := readbuf, ipstack := ipstack }
  if packetType < 0 then some (packetType, c.keepalive turn)
  else if packetType = MsgType.publish.code then
    let (exit, rc, c) ← c.cyclePublish turn
    let c := if exit then c else c.keepalive turn
    some (if rc = 0 then packetType else rc, c)
  else if packetType = MsgType.pingresp.code then
    some (packetType, { c with pingOutstanding := false }.keepalive turn)
  else some (packetType, c.keepalive turn)

/-- Whether a packet of the type comes before the timer has run out. -/
def waitfor (type : MsgType) : List Turn → MqttClient H → Option (Bool × MqttClient H)
  | [], c => some (false, c)
  | turn :: turns, c => do
    let (rc, c) ← c.cycle turn
    if rc = type.code then some (true, c) else waitfor type turns c

def yield : List Turn → MqttClient H → Option (Int × MqttClient H)
  | [], c => some (0, c)
  | turn :: turns, c => do
    let (rc, c) ← c.cycle turn
    if rc < 0 then some (-1, c) else yield turns c

/-- The end of `subscribe`, `unsubscribe` and the inner `publish`. -/
def finish (r : Int × MqttClient H) : Int × MqttClient H :=
  if r.1 ≠ 0 then (r.1, r.2.cleanSession) else r

/-- The inner `publish`. What a PUBACK without an id says is not defined, which is seen only by a
client that has stored a message. -/
def publishPacket (bytes : List UInt8) (qos : Nat) (x : Exchange) (c : MqttClient H) :
    Option (Int × MqttClient H) := do
  let (rc, c) := c.sendPacket bytes x.write
  if rc ≠ 0 then some (finish (rc, c))
  else if qos ≠ 1 then some (rc, c)
  else
    let (ok, c) ← c.waitfor .puback x.turns
    if !ok then some (finish (-1, c))
    else
      let (rc, out) ← MqttDeserialize.ack c.readbuf
      if rc ≠ 1 then some (finish (-1, c))
      else
        match out.packetid with
        | some packetid =>
          some (0, if c.inflightMsgid = packetid then { c with inflightMsgid := 0 } else c)
        | none => if c.inflightMsgid = 0 then some (0, c) else none

/-- The return code is 255 until it is stored. -/
def connackCode (readbuf : List UInt8) : Option Int := do
  let (rc, out) ← MqttDeserialize.connack readbuf
  if rc = 1 then some ((out.map fun out => (out.connackRc.toNat : Int)).getD 255) else some (-1)

/-- A message that was stored is sent again, whatever the broker answered. -/
def connect (options : PacketConnectData) (x resend : Exchange) (c : MqttClient H) :
    Option (Int × MqttClient H) :=
  if c.isconnected then some (-1, c)
  else
    let c :=
      { c with
        keepAliveInterval := options.keepAliveInterval, cleansession := options.cleansession ≠ 0 }
    match MqttSerialize.connect c.readbuf.length options with
    | .error _ => some (-1, c)
    | .ok bytes => do
      let (rc, c) := c.sendPacket bytes x.write
      if rc ≠ 0 then some (rc, c)
      else
        let (ok, c) ← c.waitfor .connack x.turns
        let rc ← if ok then connackCode c.readbuf else some (-1)
        let (rc, c) ← if 0 < c.inflightMsgid then c.publishPacket c.pubbuf c.inflightQoS resend
          else some (rc, c)
        some (rc, if rc = 0 then { c with isconnected := true } else c)

/-- `messageHandlers[i]` is taken for a filter. A filter that does not fit leaves the array as it
was. -/
def MessageHandler.attach (topicFilter : List UInt8) (handler : H) (m : MessageHandler H) :
    MessageHandler H where
  topicFilter := true
  fp := some handler
  topicName := if (cstr topicFilter).length < 255 - 1 then IpStack.store m.topicName
    (cstr topicFilter ++ [0]) else m.topicName

/-- The first slot that is free is taken. -/
def addHandler (topicFilter : List UInt8) (handler : H) :
    List (MessageHandler H) → Option (List (MessageHandler H))
  | [] => none
  | m :: ms =>
    if m.topicFilter then (addHandler topicFilter handler ms).map (m :: ·)
    else some (MessageHandler.attach topicFilter handler m :: ms)

/-- The first slot with this filter is freed. -/
def removeHandler (topicFilter : List UInt8) : List (MessageHandler H) → List (MessageHandler H)
  | [] => []
  | m :: ms =>
    if m.topicFilter ∧ cstr m.topicName = cstr topicFilter then
      { m with topicFilter := false } :: ms
    else m :: removeHandler topicFilter ms

/-- The granted QoS is -1 until it is stored. -/
def subscribe (signedChar : Bool) (topicFilter : List UInt8) (qos : Nat) (handler : H)
    (x : Exchange) (c : MqttClient H) : Option (Int × MqttClient H) :=
  if !c.isconnected then some (finish (-1, c))
  else
    let c := { c with packetid := nextPacketId c.packetid }
    match MqttSerialize.subscribe c.readbuf.length 0 c.packetid
      [(⟨some topicFilter, 0, none⟩, qos)] with
    | .error _ => some (finish (-1, c))
    | .ok bytes => do
      let (rc, c) := c.sendPacket bytes x.write
      if rc ≠ 0 then some (finish (rc, c))
      else
        let (ok, c) ← c.waitfor .suback x.turns
        if !ok then some (finish (-1, c))
        else
          let (rc, out) ← MqttDeserialize.suback signedChar 1 c.readbuf
          let rc := if rc = 1 then out.grantedQoSs.headD (-1) else 0
          if rc = 0x80 then some (finish (rc, c))
          else
            match addHandler topicFilter handler c.messageHandlers with
            | some messageHandlers => some (0, { c with messageHandlers := messageHandlers })
            | none => some (finish (rc, c))

def unsubscribe (topicFilter : List UInt8) (x : Exchange) (c : MqttClient H) :
    Option (Int × MqttClient H) :=
  if !c.isconnected then some (finish (-1, c))
  else
    let c := { c with packetid := nextPacketId c.packetid }
    match MqttSerialize.unsubscribe c.readbuf.length 0 c.packetid [⟨some topicFilter, 0, none⟩] with
    | .error _ => some (finish (-1, c))
    | .ok bytes => do
      let (rc, c) := c.sendPacket bytes x.write
      if rc ≠ 0 then some (finish (rc, c))
      else
        let (ok, c) ← c.waitfor .unsuback x.turns
        if !ok then some (finish (-1, c))
        else
          let rc ← MqttDeserialize.unsuback c.readbuf
          some (0,
            if rc = 1 then
              { c with messageHandlers := removeHandler topicFilter c.messageHandlers }
            else c)

/-- The outer `publish`. -/
def publish (topicName payload : List UInt8) (qos : Nat) (retained : Bool) (x : Exchange)
    (c : MqttClient H) : Option (Int × MqttClient H) :=
  if !c.isconnected then some (-1, c)
  else
    let hasId := qos = 1 ∨ qos = 2
    let c := if hasId then { c with packetid := nextPacketId c.packetid } else c
    let id := if hasId then c.packetid else 0
    match MqttSerialize.publish c.readbuf.length 0 qos retained.toNat id ⟨some topicName, 0, none⟩
      payload with
    | .error _ => some (-1, c)
    | .ok bytes =>
      let c :=
        if !c.cleansession then
          { c with pubbuf := bytes, inflightMsgid := id, inflightQoS := qos }
        else c
      c.publishPacket bytes qos x

def disconnect (answers : List (Option Nat)) (c : MqttClient H) : Int × MqttClient H :=
  let (rc, c) :=
    match MqttSerialize.disconnect c.readbuf.length with
    | .error _ => (-1, c)
    | .ok bytes => c.sendPacket bytes answers
  (rc, if c.cleansession then c.cleanSession else { c with isconnected := false })

end MqttClient

end SnGateway
