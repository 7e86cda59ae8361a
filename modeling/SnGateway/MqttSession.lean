import SnGateway.Lib.Run
import SnGateway.MqttCycle

/-!
# A session with the broker

What the loops of the client make of a stream of packets: how many of them they take (`yieldTakes`,
`waitforTakes`), and that each message among these is handed over once to every handler it is for
and acknowledged once, in the order of the stream (`Consumes`). No ping is sent before the one
before it was answered.
-/

namespace SnGateway
open RecordStore

/-- A handler, the topic name and the payload. -/
def MqttEffect.delivery {H : Type} : MqttEffect H → Option (H × List UInt8 × List UInt8)
  | delivered handler topicName payload => some (handler, topicName, payload)
  | sent _ => none

/-- Pings are sent, too. -/
def MqttEffect.acknowledgement {H : Type} : MqttEffect H → Option (List UInt8)
  | sent (header :: bytes) => if header = 0xC0 then none else some (header :: bytes)
  | _ => none

def MqttEffect.ping {H : Type} : MqttEffect H → Bool
  | sent bytes => bytes = Responder.pingreq
  | delivered _ _ _ => false

namespace Arrival

def deliveries {H : Type} (receivers : List UInt8 → List H) :
    Arrival → List (H × List UInt8 × List UInt8)
  | publication p => (receivers p.topicName).map fun h => (h, p.topicName, p.payload)
  | _ => []

def acknowledgements : Arrival → List (List UInt8)
  | publication p => (Responder.ackOf p).toList.map MqttFrame.bytes
  | _ => []

def isPingresp : Arrival → Bool
  | other f _ => f.type = MsgType.pingresp.code
  | _ => false

/-- The arrival is a packet of this type. -/
def HasType (type : MsgType) (a : Arrival) : Prop := ∃ f h, a = .other f h ∧ f.type = type.code

def isType (type : MsgType) : Arrival → Bool
  | other f _ => f.type = type.code
  | _ => false

theorem isType_iff {type : MsgType} {a : Arrival} : a.isType type = true ↔ a.HasType type := by
  cases a with
  | timeout => simp [isType, HasType]
  | publication p => simp [isType, HasType]
  | other f h => simp [isType, HasType, h]

end Arrival

/-- All of an acknowledgement is written. -/
def Turn.Acknowledges (turn : Turn) : Prop := MqttClient.writeLoop 4 turn.acknowledge = 4

instance (turn : Turn) : Decidable turn.Acknowledges := inferInstanceAs (Decidable (_ = _))

/-- `yield` goes on after this turn: a packet came, and what there is to acknowledge was
acknowledged. -/
def Turn.goesOn (turn : Turn) : Arrival → Bool
  | .timeout => false
  | .publication p => p.qos = 0 || decide turn.Acknowledges
  | .other _ _ => true

namespace Responder
variable {H : Type} {r : Responder H} {keepAlive : Bool} {receivers : List UInt8 → List H}
    {turn : Turn}

def deliveries (r : Responder H) : List (H × List UInt8 × List UInt8) :=
  r.effects.filterMap MqttEffect.delivery
def acknowledgements (r : Responder H) : List (List UInt8) :=
  r.effects.filterMap MqttEffect.acknowledgement
def pings (r : Responder H) : Nat := r.effects.countP MqttEffect.ping

theorem deliveries_keepalive : (r.keepalive keepAlive turn).deliveries = r.deliveries := by
  unfold keepalive send
  split_ifs
  · dsimp only
    split_ifs <;> simp [deliveries, MqttEffect.delivery]
  · rfl

theorem acknowledgements_keepalive :
    (r.keepalive keepAlive turn).acknowledgements = r.acknowledgements := by
  have hnone : ∀ n, MqttEffect.acknowledgement (MqttEffect.sent (pingreq.take n) : MqttEffect H) =
      none := by
    intro n
    match n with
    | 0 => rfl
    | 1 => rfl
    | n + 2 => rw [List.take_of_length_le (by rw [pingreq]; simp)]; rfl
  unfold keepalive send
  split_ifs
  · dsimp only
    split_ifs <;> simp [acknowledgements, hnone]
  · rfl

/-- A ping that is written whole is one to be answered. -/
theorem pings_keepalive (r : Responder H) (keepAlive : Bool) (turn : Turn) :
    (r.keepalive keepAlive turn).pings + r.pingOutstanding.toNat ≤ r.pings +
      (r.keepalive keepAlive turn).pingOutstanding.toNat := by
  unfold keepalive send
  split_ifs with hdue
  · have hping : r.pingOutstanding = false := by
      cases h : r.pingOutstanding
      · rfl
      · simp [h] at hdue
    dsimp only
    split_ifs with hall
    · have hall : MqttClient.writeLoop pingreq.length turn.ping = pingreq.length := by
        simpa using hall
      simp [pings, hping, hall, MqttEffect.ping]
    · have hall : MqttClient.writeLoop pingreq.length turn.ping ≠ pingreq.length := by
        simpa using hall
      have hpart : pingreq.take (MqttClient.writeLoop pingreq.length turn.ping) ≠ pingreq :=
        fun h =>
        hall (Nat.le_antisymm (MqttClient.writeLoop_le _ _) (List.take_eq_self_iff _ |>.1 h))
      simp [pings, hping, hpart, MqttEffect.ping]
  · exact Nat.le_refl _

theorem next_deliveries (a : Arrival) :
    (r.next keepAlive receivers (turn, a)).2.deliveries = r.deliveries ++
      a.deliveries receivers := by
  have hmap : ∀ (hs : List H) (topicName payload : List UInt8),
      (hs.map fun h => MqttEffect.delivered h topicName payload).filterMap MqttEffect.delivery =
        hs.map fun h => (h, topicName, payload) := by
    intro hs topicName payload
    simp [List.filterMap_map, Function.comp_def, MqttEffect.delivery]
  cases a with
  | timeout => simp [next, deliveries_keepalive, Arrival.deliveries]
  | other f h =>
    simp only [next, deliveries_keepalive, Arrival.deliveries, List.append_nil]
    split_ifs <;> rfl
  | publication p =>
    unfold next
    dsimp only
    cases ackOf p with
    | none => simp only [deliveries_keepalive]; simp [deliveries, hmap, Arrival.deliveries]
    | some ack =>
      simp only [send]
      by_cases hall : MqttClient.writeLoop ack.bytes.length turn.acknowledge = ack.bytes.length
      · simp only [hall, decide_true, if_true, deliveries_keepalive]
        simp [deliveries, hmap, Arrival.deliveries, MqttEffect.delivery]
      · simp only [hall, decide_false, Bool.false_eq_true, if_false]
        simp [deliveries, hmap, Arrival.deliveries, MqttEffect.delivery]

theorem ackOf_bytes {p : Publication} {ack : MqttFrame} (h : ackOf p = some ack) :
    ack.bytes.length = 4 ∧ MqttEffect.acknowledgement (MqttEffect.sent ack.bytes : MqttEffect H) =
      some ack.bytes := by
  unfold ackOf at h
  split_ifs at h <;> obtain rfl := Option.some.inj h <;>
    simp [MqttSerialize.ackFrame, MqttFrame.bytes, MqttPacket.encode_of_lt, MqttPacket.writeInt,
      MqttEffect.acknowledgement] <;> decide

theorem next_acknowledgements (a : Arrival) (hwrite : turn.Acknowledges) :
    (r.next keepAlive receivers (turn, a)).2.acknowledgements = r.acknowledgements ++
      a.acknowledgements := by
  have hnone : ∀ (hs : List H) (topicName payload : List UInt8),
      (hs.map fun h => MqttEffect.delivered h topicName payload).filterMap
      MqttEffect.acknowledgement = [] := by
    intro hs topicName payload
    simp [List.filterMap_map, Function.comp_def, MqttEffect.acknowledgement]
  cases a with
  | timeout => simp [next, acknowledgements_keepalive, Arrival.acknowledgements]
  | other f h =>
    simp only [next, acknowledgements_keepalive, Arrival.acknowledgements, List.append_nil]
    split_ifs <;> rfl
  | publication p =>
    unfold next
    dsimp only
    cases hack : ackOf p with
    | none =>
      simp only [acknowledgements_keepalive]
      simp [acknowledgements, hnone, Arrival.acknowledgements, hack]
    | some ack =>
      obtain ⟨hlen, hsome⟩ := ackOf_bytes (H := H) hack
      simp only [send, hlen, show MqttClient.writeLoop 4 turn.acknowledge = 4 from hwrite,
        decide_true, if_true,
        acknowledgements_keepalive, List.take_of_length_le hlen.le]
      simp [acknowledgements, hnone, hsome, Arrival.acknowledgements, hack]

/-- No part of an acknowledgement is a ping. -/
theorem ping_acknowledgement {bytes bs : List UInt8}
    (h : MqttEffect.acknowledgement (MqttEffect.sent bytes : MqttEffect H) = some bs) (n : Nat) :
    MqttEffect.ping (MqttEffect.sent (bytes.take n) : MqttEffect H) = false := by
  cases bytes with
  | nil => cases h
  | cons header bytes =>
    rw [MqttEffect.acknowledgement] at h
    split_ifs at h with hheader
    cases n with
    | zero => rfl
    | succ n => simp [MqttEffect.ping, pingreq, hheader]

theorem next_pings (a : Arrival) :
    (r.next keepAlive receivers (turn, a)).2.pings + r.pingOutstanding.toNat ≤
      r.pings + a.isPingresp.toNat +
      (r.next keepAlive receivers (turn, a)).2.pingOutstanding.toNat := by
  have hone : r.pingOutstanding.toNat ≤ 1 := Bool.toNat_le _
  cases a with
  | timeout => exact pings_keepalive _ _ _
  | other f h =>
    by_cases hresp : f.type = MsgType.pingresp.code
    · have hkeep := pings_keepalive { r with pingOutstanding := false } keepAlive turn
      have hpings : ({ r with pingOutstanding := false } : Responder H).pings = r.pings := rfl
      simp only [next, hresp, if_true, Arrival.isPingresp, decide_true, Bool.toNat_true]
      rw [hpings] at hkeep
      omega
    · simp only [next, hresp, if_false, Arrival.isPingresp, decide_false, Bool.toNat_false,
        Nat.add_zero]
      exact pings_keepalive _ _ _
  | publication p =>
    have hdelivered : ∀ (hs : List H) (topicName payload : List UInt8),
        (hs.map fun h => MqttEffect.delivered h topicName payload).countP MqttEffect.ping = 0 := by
      intro hs topicName payload
      simp [List.countP_map, Function.comp_def, MqttEffect.ping]
    simp only [Arrival.isPingresp, Bool.toNat_false, Nat.add_zero, next]
    cases hack : ackOf p with
    | none =>
      refine (pings_keepalive _ _ _).trans (Nat.add_le_add_right ?_ _)
      simp [pings, hdelivered]
    | some ack =>
      have hnot := ping_acknowledgement (ackOf_bytes (H := H) hack).2
      have hwhole := hnot ack.bytes.length
      rw [List.take_length] at hwhole
      simp only [send]
      by_cases hall : MqttClient.writeLoop ack.bytes.length turn.acknowledge = ack.bytes.length
      · simp only [hall, decide_true, if_true]
        refine (pings_keepalive _ _ _).trans (Nat.add_le_add_right ?_ _)
        simp [pings, hdelivered, hwhole]
      · simp only [hall, decide_false, Bool.false_eq_true, if_false]
        simp [pings, hdelivered, hnot]

end Responder

namespace MqttClient
variable {H : Type} {c c' c'' : MqttClient H} {turns turns' : List Turn}
    {arrivals rest done done' : List Arrival}

/-- The stream holds these packets, each fits into the buffer, and the connection stays open. -/
structure Receiving (c : MqttClient H) (arrivals : List Arrival) : Prop where
  events : c.ipstack.events = arrivals.flatMap Arrival.events
  opened : c.ipstack.closed = false
  fits : ∀ a ∈ arrivals, a.Fits c.readbuf.length
  buffer : 5 ≤ c.readbuf.length
  size : c.readbuf.length ≤ 128 ^ 4

/-- In these turns the packets `done` were taken from the stream and `rest` is left: the session is
the same, each message was handed over and acknowledged, and each ping but the last one was
answered. -/
structure Consumes (turns : List Turn) (done rest : List Arrival) (c c' : MqttClient H) : Prop where
  keeps : Keeps c c'
  receiving : c'.Receiving rest
  deliveries : c'.responder.deliveries = c.responder.deliveries ++
    done.flatMap (Arrival.deliveries c.receivers)
  acknowledgements : (∀ turn ∈ turns, turn.Acknowledges) →
    c'.responder.acknowledgements = c.responder.acknowledgements ++
      done.flatMap Arrival.acknowledgements
  pings : c'.responder.pings + c.pingOutstanding.toNat ≤
    c.responder.pings + done.countP Arrival.isPingresp + c'.pingOutstanding.toNat

theorem receivers_keeps (h : Keeps c c') : c'.receivers = c.receivers := by
  unfold receivers
  rw [h.messageHandlers, h.defaultMessageHandler]

theorem Consumes.refl (h : c.Receiving arrivals) (turns : List Turn) :
    Consumes turns [] arrivals c c where
  keeps := .refl c
  receiving := h
  deliveries := by simp
  acknowledgements _ := by simp
  pings := by simp

theorem Consumes.trans (h : Consumes turns done arrivals c c')
    (h' : Consumes turns' done' rest c' c'') :
    Consumes (turns ++ turns') (done ++ done') rest c c'' where
  keeps := h.keeps.trans h'.keeps
  receiving := h'.receiving
  deliveries := by
    rw [h'.deliveries, h.deliveries, receivers_keeps h.keeps, List.flatMap_append,
      List.append_assoc]
  acknowledgements hwrite := by
    rw [h'.acknowledgements fun t ht => hwrite t (List.mem_append_right _ ht),
      h.acknowledgements fun t ht => hwrite t (List.mem_append_left _ ht), List.flatMap_append,
      List.append_assoc]
  pings := by
    have h₁ := h.pings
    have h₂ := h'.pings
    rw [List.countP_append]
    omega

theorem Consumes.of_next {turn : Turn} {a : Arrival} {rc : Int} (hkeep : Keeps c c')
    (hrest : c'.Receiving rest)
    (hnext : (rc, c'.responder) = c.responder.next (0 < c.keepAliveInterval) c.receivers (turn, a))
    (hdone : done = [a] ∨ a = .timeout ∧ done = []) : Consumes [turn] done rest c c' := by
  have hresp :
      c'.responder = (c.responder.next (0 < c.keepAliveInterval) c.receivers (turn, a)).2 := by
        rw [← hnext]
  have hping :
      c'.pingOutstanding =
        (c.responder.next (0 < c.keepAliveInterval) c.receivers (turn, a)).2.pingOutstanding := by
    rw [← hresp]
    rfl
  have hdeliveries : done.flatMap (Arrival.deliveries c.receivers) = a.deliveries c.receivers := by
    rcases hdone with rfl | ⟨rfl, rfl⟩ <;> simp [Arrival.deliveries]
  have hacks : done.flatMap Arrival.acknowledgements = a.acknowledgements := by
    rcases hdone with rfl | ⟨rfl, rfl⟩ <;> simp [Arrival.acknowledgements]
  have hpings : done.countP Arrival.isPingresp = a.isPingresp.toNat := by
    rcases hdone with rfl | ⟨rfl, rfl⟩
    · cases h : a.isPingresp <;> simp [h]
    · rfl
  refine ⟨hkeep, hrest, ?_, fun hwrite => ?_, ?_⟩
  · rw [hresp, Responder.next_deliveries, hdeliveries]
  · rw [hresp, Responder.next_acknowledgements a (hwrite turn List.mem_cons_self), hacks]
  · rw [hresp, hping, hpings]
    exact Responder.next_pings a

theorem next_nonneg {r : Responder H} {keepAlive : Bool} {receivers : List UInt8 → List H}
    {turn : Turn} {a : Arrival} :
    0 ≤ (r.next keepAlive receivers (turn, a)).1 ↔ turn.goesOn a = true := by
  cases a with
  | timeout => simp [Responder.next, Turn.goesOn]
  | other f h => simp [Responder.next, Turn.goesOn]
  | publication p =>
    have hpublish : (0 : Int) ≤ MsgType.publish.code := by decide
    unfold Responder.next
    dsimp only
    cases hack : Responder.ackOf p with
    | none =>
      have hqos : p.qos = 0 := by
        have hle := p.qos_le
        unfold Responder.ackOf at hack
        split_ifs at hack
        omega
      simp [Turn.goesOn, hqos, hpublish]
    | some ack =>
      have hqos : p.qos ≠ 0 := by
        rintro hzero
        simp [Responder.ackOf, hzero] at hack
      simp only [Responder.send, (Responder.ackOf_bytes (H := H) hack).1, Turn.goesOn, hqos,
        decide_false, Bool.false_or]
      split_ifs with hall
      · exact iff_of_true hpublish hall
      · exact iff_of_false (Int.not_le.2 (by decide : (-1 : Int) < 0)) hall

/-- The result tells the type of the packet. -/
theorem next_rc {r : Responder H} {keepAlive : Bool} {receivers : List UInt8 → List H} {turn : Turn}
    {a : Arrival} {type : MsgType} (htype : type ≠ .publish) :
    (r.next keepAlive receivers (turn, a)).1 = type.code ↔ a.HasType type := by
  have hpublish : MsgType.publish.code ≠ type.code := fun h => htype (MsgType.code_injective h).symm
  have hneg : (-1 : Int) ≠ type.code := by omega
  cases a with
  | timeout => simp [Responder.next, hneg, Arrival.HasType]
  | other f h => simp [Responder.next, Arrival.HasType, h]
  | publication p =>
    have hno : ¬ (Arrival.publication p).HasType type := by rintro ⟨f, h, heq, -⟩; cases heq
    have hne : ((MsgType.publish.code : Nat) : Int) ≠ type.code := by exact_mod_cast hpublish
    refine iff_of_false ?_ hno
    unfold Responder.next
    dsimp only
    cases Responder.ackOf p with
    | none => exact hne
    | some ack =>
      dsimp only
      split_ifs
      · exact hne
      · exact hneg

/-- One turn takes one packet from the stream, or none where nothing comes. -/
theorem cycle_consumes (h : c.Receiving arrivals) (turn : Turn) :
    ∃ rc c', c.cycle turn = some (rc, c') ∧ Consumes [turn] (arrivals.take 1) arrivals.tail c c' ∧
      (∀ type, type ≠ .publish → (rc = type.code ↔ ∃ a ∈ arrivals.head?, a.HasType type)) ∧
      (0 ≤ rc ↔ ∃ a ∈ arrivals.head?, turn.goesOn a = true) ∧
      (∀ a ∈ arrivals.head?, ∀ f ∈ a.frame, ∃ stale, c'.readbuf = f.bytes ++ stale) := by
  cases arrivals with
  | nil =>
    obtain ⟨c', hcycle, hkeep, hresp, hevents, hclosed⟩ :=
      cycle_nothing turn h.events h.opened h.buffer
    have hrest : c'.Receiving [] :=
      ⟨hevents,
        hclosed.trans h.opened, by simp, by rw [hkeep.readbuf]; exact h.buffer, by
          rw [hkeep.readbuf]
          exact h.size⟩
    refine ⟨_, c', hcycle, Consumes.of_next hkeep hrest (Prod.ext rfl hresp) (.inr ⟨rfl, rfl⟩),
      fun type htype => ?_, ?_,
      by simp⟩
    · rw [next_rc htype]
      simp [Arrival.HasType]
    · rw [next_nonneg]
      simp [Turn.goesOn]
  | cons a arrivals =>
    have hevents := h.events
    rw [List.flatMap_cons] at hevents
    obtain ⟨hfits, hfits'⟩ := List.forall_mem_cons.1 h.fits
    obtain ⟨c', hcycle, hkeep, hresp, ⟨hevents', hclosed⟩, hbuf⟩ :=
      cycle_arrival turn hevents hfits h.buffer h.size
    have hrest : c'.Receiving arrivals :=
      ⟨hevents',
        hclosed.trans h.opened, by rw [hkeep.readbuf]; exact hfits', by
          rw [hkeep.readbuf]
          exact h.buffer,
        by rw [hkeep.readbuf]; exact h.size⟩
    refine ⟨_, c', hcycle, Consumes.of_next hkeep hrest (Prod.ext rfl hresp) (.inl rfl),
      fun type htype => ?_, ?_, ?_⟩
    · rw [next_rc htype]
      simp
    · rw [next_nonneg]
      simp
    · intro b hb
      obtain rfl : a = b := by simpa using hb
      exact hbuf

/-- How many packets a loop takes that ends behind the first one with which `goesOn` fails, or with
its turns. -/
def takes (goesOn : Turn → Arrival → Bool) : List Turn → List Arrival → Nat
  | [], _ => 0
  | _ :: _, [] => 0
  | turn :: turns, a :: arrivals => if goesOn turn a then takes goesOn turns arrivals + 1 else 1

theorem takes_nil (goesOn : Turn → Arrival → Bool) (turns : List Turn) :
    takes goesOn turns [] = 0 := by
  cases turns <;> rfl

/-- `yield` ends when nothing comes or an acknowledgement is not written. -/
def yieldTakes : List Turn → List Arrival → Nat := takes Turn.goesOn

/-- `waitfor` ends with the first packet of the type. -/
def waitforTakes (type : MsgType) : List Turn → List Arrival → Nat :=
  takes fun _ a => !a.isType type

/-- One turn of a loop, and what it takes after it. -/
theorem Consumes.cons {goesOn : Turn → Arrival → Bool} {turn : Turn}
    (h : Consumes [turn] (arrivals.take 1) arrivals.tail c c')
    (hgoes : ∀ a ∈ arrivals.head?, goesOn turn a = true)
    (h' : Consumes turns (arrivals.tail.take (takes goesOn turns arrivals.tail))
      (arrivals.tail.drop (takes goesOn turns arrivals.tail)) c' c'') :
    Consumes (turn :: turns) (arrivals.take (takes goesOn (turn :: turns) arrivals))
      (arrivals.drop (takes goesOn (turn :: turns) arrivals)) c c'' := by
  have htrans := h.trans h'
  cases arrivals with
  | nil => simpa [takes, takes_nil] using htrans
  | cons a arrivals =>
    rw [takes, if_pos (hgoes a rfl)]
    exact htrans

/-- The last turn of a loop. -/
theorem Consumes.last {goesOn : Turn → Arrival → Bool} {turn : Turn}
    (h : Consumes [turn] (arrivals.take 1) arrivals.tail c c')
    (hgoes : ∀ a ∈ arrivals.head?, ¬ goesOn turn a = true) (turns : List Turn) :
    Consumes (turn :: turns) (arrivals.take (takes goesOn (turn :: turns) arrivals))
      (arrivals.drop (takes goesOn (turn :: turns) arrivals)) c c' := by
  have htrans := h.trans (Consumes.refl h.receiving turns)
  rw [List.append_nil] at htrans
  cases arrivals with
  | nil => exact htrans
  | cons a arrivals =>
    rw [takes, if_neg (hgoes a rfl)]
    exact htrans

/-- The loop of `yield`. -/
theorem yield_consumes (h : c.Receiving arrivals) (turns : List Turn) :
    ∃ rc c', c.yield turns = some (rc, c') ∧
      Consumes turns (arrivals.take (yieldTakes turns arrivals))
      (arrivals.drop (yieldTakes turns arrivals)) c c' := by
  induction turns generalizing c arrivals with
  | nil => exact ⟨0, c, rfl, .refl h []⟩
  | cons turn turns ih =>
    obtain ⟨rc, c₁, hcycle, hcons, -, hrc, -⟩ := cycle_consumes h turn
    simp only [yield, hcycle, Option.bind_eq_bind, Option.bind_some]
    split_ifs with hneg
    · refine ⟨-1, c₁, rfl, hcons.last (fun a ha hgoes => ?_) turns⟩
      exact absurd (hrc.2 ⟨a, ha, hgoes⟩) (Int.not_le.2 hneg)
    · obtain ⟨a, ha, hgoes⟩ := hrc.1 (Int.not_lt.1 hneg)
      obtain ⟨rc', c', hyield, hcons'⟩ := ih hcons.receiving
      refine ⟨rc', c', hyield, hcons.cons (fun b hb => ?_) hcons'⟩
      obtain rfl := Option.some.inj (ha.symm.trans hb)
      exact hgoes

/-- A client that was never connected, and the bytes that are on the way. -/
def idle (slots size : Nat) (bytes : List UInt8) : MqttClient H where
  ipstack := ⟨[.bytes bytes], false⟩
  readbuf := List.replicate size 0
  keepAliveInterval := 0
  pingOutstanding := false
  cleansession := true
  packetid := 0
  messageHandlers := List.replicate slots ⟨false, none, []⟩
  defaultMessageHandler := none
  isconnected := false
  pubbuf := []
  inflightMsgid := 0
  inflightQoS := 0
  log := []

/-- The client in a session without subscriptions. -/
def online (slots size : Nat) (bytes : List UInt8) : MqttClient H :=
  { idle slots size bytes with isconnected := true }

/-- A message for the topic `a` that is to be acknowledged. -/
def hello : Publication := ⟨false, 1, false, 7, [97], [104, 105], by decide, by decide, by decide⟩

/-- Every `write` takes up to 64 bytes. -/
def prompt : Turn := ⟨[some 64], false, [some 64]⟩

/-- There is a subscription to `a`. -/
def subscribed (slots size : Nat) (bytes : List UInt8) : MqttClient Unit :=
  { online slots size bytes with messageHandlers := [⟨true, some (), [97, 0]⟩] }

/-- The loop of `waitfor`: it ends at the first packet of the type, or when the time is over. -/
theorem waitfor_consumes (h : c.Receiving arrivals) {type : MsgType} (htype : type ≠ .publish)
    (turns : List Turn) :
    let n := waitforTakes type turns arrivals
    ∃ ok c', c.waitfor type turns = some (ok, c') ∧
      Consumes turns (arrivals.take n) (arrivals.drop n) c c' ∧
      (ok = true → ∃ before f hf, arrivals.take n = before ++ [.other f hf] ∧ f.type = type.code ∧
        before.length < turns.length ∧ (∀ a ∈ before, ¬ a.HasType type) ∧ ∃ stale,
        c'.readbuf = f.bytes ++ stale) ∧
      (ok = false → ∀ a ∈ arrivals.take turns.length, ¬ a.HasType type) := by
  induction turns generalizing c arrivals with
  | nil => exact ⟨false, c, rfl, .refl h [], by simp, by simp⟩
  | cons turn turns ih =>
    obtain ⟨rc, c₁, hcycle, hcons, hrc, -, hbuf⟩ := cycle_consumes h turn
    simp only [waitfor, hcycle, Option.bind_eq_bind, Option.bind_some]
    split_ifs with hfound
    · obtain ⟨a, ha, f, hf, rfl, hftype⟩ := (hrc type htype).1 hfound
      obtain ⟨rest, rfl⟩ : ∃ rest, arrivals = .other f hf :: rest := by
        cases arrivals with
        | nil => cases ha
        | cons b rest => exact ⟨rest, by rw [show b = _ from Option.some.inj ha]⟩
      have hlast : ¬ (!(Arrival.other f hf).isType type) = true := by simp [Arrival.isType, hftype]
      have hone : waitforTakes type (turn :: turns) (.other f hf :: rest) = 1 := if_neg hlast
      refine ⟨true, c₁, rfl, hcons.last (fun b hb => Option.some.inj hb ▸ hlast) turns, fun _ =>
        ?_, by simp⟩
      exact ⟨[], f, hf, by rw [hone]; rfl, hftype, Nat.succ_pos _, by simp, hbuf _ rfl f rfl⟩
    · have hhead : ∀ a ∈ arrivals.head?, ¬ a.HasType type := fun a ha hatype =>
        hfound ((hrc type htype).2 ⟨a, ha, hatype⟩)
      have hgoes : ∀ a ∈ arrivals.head?, (!a.isType type) = true := fun a ha => by
        rw [Bool.not_eq_true', Bool.eq_false_iff, ne_eq, Arrival.isType_iff]
        exact hhead a ha
      obtain ⟨ok, c', hwait, hcons', htrue, hfalse⟩ := ih hcons.receiving
      refine ⟨ok, c', hwait, hcons.cons hgoes hcons', fun hok => ?_, fun hok => ?_⟩
      · obtain ⟨before, f, hf, hbefore, hftype, hlen, hnone, hstale⟩ := htrue hok
        cases arrivals with
        | nil => simp at hbefore
        | cons a arrivals =>
          have hsucc : waitforTakes type (turn :: turns) (a :: arrivals) =
            waitforTakes type turns arrivals + 1 :=
            if_pos (hgoes a rfl)
          refine ⟨a :: before, f, hf, ?_, hftype, Nat.succ_lt_succ hlen, ?_, hstale⟩
          · rw [hsucc, List.take_succ_cons, List.cons_append]
            exact congrArg (a :: ·) hbefore
          · exact List.forall_mem_cons.2 ⟨hhead a rfl, hnone⟩
      · cases arrivals with
        | nil => simp
        | cons a arrivals =>
          rw [List.length_cons, List.take_succ_cons]
          exact List.forall_mem_cons.2 ⟨hhead a rfl, hfalse hok⟩

/-- Packets of the stream are handed over as they come, and the others are left in it. -/
def Serves (c c' : MqttClient H) : Prop :=
  ∀ arrivals, c.Receiving arrivals → ∃ done rest, arrivals = done ++ rest ∧ c'.Receiving rest ∧
    c'.responder.deliveries = c.responder.deliveries ++
      done.flatMap (Arrival.deliveries c.receivers)

/-- Nothing is read. -/
theorem serves_of_eq (hipstack : c'.ipstack = c.ipstack) (hreadbuf : c'.readbuf = c.readbuf)
    (hdeliveries : c'.responder.deliveries = c.responder.deliveries) : Serves c c' := by
  intro arrivals h
  refine ⟨[], arrivals, rfl, ⟨?_, ?_, ?_, ?_, ?_⟩, by simpa using hdeliveries⟩
  · rw [hipstack]; exact h.events
  · rw [hipstack]; exact h.opened
  · rw [hreadbuf]; exact h.fits
  · rw [hreadbuf]; exact h.buffer
  · rw [hreadbuf]; exact h.size

theorem Serves.trans (h : Serves c c') (h' : Serves c' c'')
    (hreceivers : c'.receivers = c.receivers) : Serves c c'' := by
  intro arrivals harrivals
  obtain ⟨done, rest, rfl, hrest, hdone⟩ := h arrivals harrivals
  obtain ⟨done', rest', rfl, hrest', hdone'⟩ := h' rest hrest
  refine ⟨done ++ done', rest', (List.append_assoc _ _ _).symm, hrest', ?_⟩
  rw [hdone', hdone, hreceivers, List.flatMap_append, List.append_assoc]

theorem serves_sendPacket (bytes : List UInt8) (answers : List (Option Nat)) :
    Serves c (c.sendPacket bytes answers).2 :=
  serves_of_eq
    rfl rfl (by
        simp [sendPacket, responder, MqttEvent.effect, Responder.deliveries, MqttEffect.delivery])

theorem serves_waitfor {type : MsgType} (htype : type ≠ .publish) {ok : Bool}
    (h : c.waitfor type turns = some (ok, c')) : Serves c c' := by
  intro arrivals harrivals
  obtain ⟨ok', c₁, hwait, hcons, -, -⟩ := waitfor_consumes harrivals htype turns
  obtain ⟨-, rfl⟩ := Prod.mk.inj (Option.some.inj (h.symm.trans hwait))
  exact ⟨_, _, (List.take_append_drop _ _).symm, hcons.receiving, hcons.deliveries⟩

theorem serves_yield {rc : Int} (h : c.yield turns = some (rc, c')) : Serves c c' := by
  intro arrivals harrivals
  obtain ⟨rc', c₁, hyield, hcons⟩ := yield_consumes harrivals turns
  obtain ⟨-, rfl⟩ := Prod.mk.inj (Option.some.inj (h.symm.trans hyield))
  exact ⟨_, _, (List.take_append_drop _ _).symm, hcons.receiving, hcons.deliveries⟩

end MqttClient

end SnGateway
