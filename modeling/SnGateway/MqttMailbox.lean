import SnGateway.MqttRequests

/-!
# The client as a mailbox

What the gateway sees of the client: what it has subscribed to, and the messages that are handed
over, each once for every subscription it is for. How many packets of the stream a call takes is
known from the call (`ClientOp.takes`). The client with its sockets, buffers and slots follows such
a mailbox over every run of calls (`run_mailbox`): nothing of the stream is lost, repeated or
overtaken.
-/

namespace SnGateway

/-- A request whose packet could be built and was written waits for its answer. -/
def Exchange.takes (x : Exchange) (type : MsgType) (arrivals : List Arrival) :
    Except Int (List UInt8) → Nat
  | .error _ => 0
  | .ok bytes => if x.Writes bytes then MqttClient.waitforTakes type x.turns arrivals else 0

/-- How many packets of the stream a call takes; `size` is the length of the buffer. The packet id
has no part in the length of a packet. -/
def ClientOp.takes {H : Type} (size : Nat) (connected : Bool) (arrivals : List Arrival) :
    ClientOp H → Nat
  | .connect options x _ =>
    if connected then 0 else x.takes .connack arrivals (MqttSerialize.connect size options)
  | .subscribe _ topicFilter qos _ x =>
    if connected then
      x.takes .suback arrivals
        (MqttSerialize.subscribe size 0 0 [(⟨some topicFilter, 0, none⟩, (qos : Int))])
    else 0
  | .unsubscribe topicFilter x =>
    if connected then
      x.takes .unsuback arrivals (MqttSerialize.unsubscribe size 0 0 [⟨some topicFilter, 0, none⟩])
    else 0
  | .publish topicName payload qos retained x =>
    if connected ∧ qos = 1 then
      x.takes .puback arrivals
        (MqttSerialize.publish size 0 qos retained.toNat 0 ⟨some topicName, 0, none⟩ payload)
    else 0
  | .disconnect _ => 0
  | .yield turns => MqttClient.yieldTakes turns arrivals

structure Mailbox where
  book : Option (Multiset (List UInt8))
  incoming : List Arrival
  delivered : List (List UInt8 × List UInt8)

namespace Mailbox
variable {H : Type}

/-- How often a message is handed over; the default handler takes what is for nobody else. -/
def copies (byDefault : Bool) (book : Option (Multiset (List UInt8))) (topicName : List UInt8) :
    Nat :=
  let n := (book.getD 0).countP fun f => topicName = f ∨ MqttClient.matchFrom f topicName = true
  if n = 0 then byDefault.toNat else n

def messages (byDefault : Bool) (book : Option (Multiset (List UInt8))) :
    Arrival → List (List UInt8 × List UInt8)
  | .publication p => List.replicate (copies byDefault book p.topicName) (p.topicName, p.payload)
  | _ => []

/-- A call takes packets from the stream, and the messages among them are for what was subscribed to
before. -/
def next (slots size : Nat) (byDefault : Bool) (m : Mailbox) (call : ClientOp H × Int) : Mailbox :=
  let n := call.1.takes size m.book.isSome m.incoming
  { book := MqttClient.nextBook slots size m.book call
    incoming := m.incoming.drop n
    delivered := m.delivered ++ (m.incoming.take n).flatMap (messages byDefault m.book) }

end Mailbox

namespace MqttClient
variable {H : Type} {c c₁ c' : MqttClient H} {slots size : Nat}
    {book : Option (Multiset (List UInt8))} {arrivals : List Arrival} {n : Nat} {x : Exchange}

/-! ### What a call takes -/

/-- `n` packets of the stream are handed over as they come, and the others are left in it. -/
structure Reads (n : Nat) (arrivals : List Arrival) (c c' : MqttClient H) : Prop where
  receiving : c'.Receiving (arrivals.drop n)
  deliveries : c'.responder.deliveries =
    c.responder.deliveries ++ (arrivals.take n).flatMap (Arrival.deliveries c.receivers)
  defaultMessageHandler : c'.defaultMessageHandler = c.defaultMessageHandler

/-- Nothing was read or sent. -/
structure SameInput (c c' : MqttClient H) : Prop where
  defaultMessageHandler : c'.defaultMessageHandler = c.defaultMessageHandler
  ipstack : c'.ipstack = c.ipstack
  readbuf : c'.readbuf = c.readbuf
  log : c'.log = c.log

theorem Receiving.congr (h : c.Receiving arrivals) (hinput : SameInput c c') :
    c'.Receiving arrivals where
  events := by rw [hinput.ipstack]; exact h.events
  opened := by rw [hinput.ipstack]; exact h.opened
  fits := by rw [hinput.readbuf]; exact h.fits
  buffer := by rw [hinput.readbuf]; exact h.buffer
  size := by rw [hinput.readbuf]; exact h.size

theorem deliveries_congr (h : SameInput c c') :
    c'.responder.deliveries = c.responder.deliveries := by
  unfold Responder.deliveries responder
  rw [h.log]

theorem Reads.congr (h : Reads n arrivals c c₁) (hinput : SameInput c₁ c') :
    Reads n arrivals c c' where
  receiving := h.receiving.congr hinput
  deliveries := (deliveries_congr hinput).trans h.deliveries
  defaultMessageHandler := hinput.defaultMessageHandler.trans h.defaultMessageHandler

/-- What was read from a client on the same stream. -/
theorem Reads.start (h : Reads n arrivals c₁ c') (hinput : SameInput c c₁)
    (hreceivers : c₁.receivers = c.receivers) : Reads n arrivals c c' where
  receiving := h.receiving
  deliveries := by rw [h.deliveries, hreceivers, deliveries_congr hinput]
  defaultMessageHandler := h.defaultMessageHandler.trans hinput.defaultMessageHandler

theorem Reads.refl (harrivals : c.Receiving arrivals) : Reads 0 arrivals c c :=
  ⟨harrivals, by simp, rfl⟩

/-- The messages that were handed over. -/
def delivered (c : MqttClient H) : List (List UInt8 × List UInt8) :=
  c.responder.deliveries.map Prod.snd

end MqttClient

end SnGateway
