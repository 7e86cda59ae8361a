import SnGateway.MqttRuns

/-!
# What a request takes for its answer

On a stream of packets a request ends with the first packet of the type it waits for (`answer`).
That packet is looked at far less than the protocol asks: no packet id is compared, and a packet
that is too short will do. What is left of the answer decides over the result (`publish_answered`,
`subscribe_answered`, `unsubscribe_answered`, `connect_answered`).
-/

namespace SnGateway
open RecordStore

/-- All of the packet is written before the timer has run out. -/
def Exchange.Writes (x : Exchange) (bytes : List UInt8) : Prop :=
  MqttClient.writeLoop bytes.length x.write = bytes.length

instance (x : Exchange) (bytes : List UInt8) : Decidable (x.Writes bytes) :=
  inferInstanceAs (Decidable (_ = _))

/-- The packet that `waitfor` ends with. -/
def answer (type : MsgType) (x : Exchange) (arrivals : List Arrival) : Option MqttFrame :=
  (arrivals.take x.turns.length).findSome? fun a => a.frame.filter fun f => f.type = type.code

namespace MqttDeserialize
variable {f : MqttFrame}

/-- The return code that `subscribe` takes from a SUBACK: -1 where there is none, and `none` where
the second one is written behind the end of the array. -/
def granted (signedChar : Bool) (f : MqttFrame) : Option Int :=
  match f.body.drop 2 with
  | [] => some (-1)
  | [b] => some (charToInt signedChar b)
  | _ :: _ :: _ => none

/-- The return code that `connect` takes from a CONNACK. -/
def connackRc (f : MqttFrame) : Nat := ((f.body[1]?).map UInt8.toNat).getD 255

end MqttDeserialize

namespace MqttClient
variable {H : Type} {c c' : MqttClient H} {arrivals : List Arrival} {x : Exchange}

theorem Stays.receiving (h : Stays c c') (hread : c'.ipstack = c.ipstack)
    (harrivals : c.Receiving arrivals) : c'.Receiving arrivals where
  events := by rw [hread]; exact harrivals.events
  opened := by rw [hread]; exact harrivals.opened
  fits := by rw [h.readbuf]; exact harrivals.fits
  buffer := by rw [h.readbuf]; exact harrivals.buffer
  size := by rw [h.readbuf]; exact harrivals.size

end MqttClient

end SnGateway
