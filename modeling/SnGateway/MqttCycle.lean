import SnGateway.MqttClient

/-!
# The turns of the client

`cycle` reads a packet, hands a message over, acknowledges it and keeps the connection alive. It
leaves the session alone (`SameSession`). On a stream of whole packets it does what a machine does
that sees the packets (`Responder`), however the stream is cut into calls of `recv`
(`cycle_arrival`).
-/

namespace SnGateway
open RecordStore

namespace MqttClient
variable {H : Type} {c c' : MqttClient H}

/-- The session is the same, and the log goes on. -/
structure SameSession (c c' : MqttClient H) : Prop where
  keepAliveInterval : c'.keepAliveInterval = c.keepAliveInterval
  cleansession : c'.cleansession = c.cleansession
  packetid : c'.packetid = c.packetid
  messageHandlers : c'.messageHandlers = c.messageHandlers
  defaultMessageHandler : c'.defaultMessageHandler = c.defaultMessageHandler
  isconnected : c'.isconnected = c.isconnected
  pubbuf : c'.pubbuf = c.pubbuf
  inflightMsgid : c'.inflightMsgid = c.inflightMsgid
  inflightQoS : c'.inflightQoS = c.inflightQoS
  log : c.log <+: c'.log

namespace SameSession

theorem refl (c : MqttClient H) : SameSession c c :=
  ⟨rfl, rfl, rfl, rfl, rfl, rfl, rfl, rfl, rfl, List.prefix_rfl⟩

theorem trans {c₁ c₂ c₃ : MqttClient H} (h : SameSession c₁ c₂) (h' : SameSession c₂ c₃) :
    SameSession c₁ c₃ where
  keepAliveInterval := h'.keepAliveInterval.trans h.keepAliveInterval
  cleansession := h'.cleansession.trans h.cleansession
  packetid := h'.packetid.trans h.packetid
  messageHandlers := h'.messageHandlers.trans h.messageHandlers
  defaultMessageHandler := h'.defaultMessageHandler.trans h.defaultMessageHandler
  isconnected := h'.isconnected.trans h.isconnected
  pubbuf := h'.pubbuf.trans h.pubbuf
  inflightMsgid := h'.inflightMsgid.trans h.inflightMsgid
  inflightQoS := h'.inflightQoS.trans h.inflightQoS
  log := h.log.trans h'.log

end SameSession

/-- And nothing is written behind the end of the buffer. -/
structure Keeps (c c' : MqttClient H) : Prop extends SameSession c c' where
  readbuf : c'.readbuf.length = c.readbuf.length

theorem Keeps.refl (c : MqttClient H) : Keeps c c := ⟨.refl c, rfl⟩

theorem Keeps.trans {c₁ c₂ c₃ : MqttClient H} (h : Keeps c₁ c₂) (h' : Keeps c₂ c₃) : Keeps c₁ c₃ :=
  ⟨h.toSameSession.trans h'.toSameSession, h'.readbuf.trans h.readbuf⟩

theorem keeps_log (es : List (MqttEvent H)) : Keeps c { c with log := c.log ++ es } :=
  ⟨⟨rfl, rfl, rfl, rfl, rfl, rfl, rfl, rfl, rfl, List.prefix_append _ _⟩, rfl⟩

theorem keeps_ping (b : Bool) : Keeps c { c with pingOutstanding := b } :=
  ⟨⟨rfl, rfl, rfl, rfl, rfl, rfl, rfl, rfl, rfl, List.prefix_rfl⟩, rfl⟩

theorem keeps_input {readbuf : List UInt8} (ipstack : IpStack)
    (h : readbuf.length = c.readbuf.length) :
    Keeps c { c with readbuf := readbuf, ipstack := ipstack } :=
  ⟨⟨rfl, rfl, rfl, rfl, rfl, rfl, rfl, rfl, rfl, List.prefix_rfl⟩, h⟩

theorem keeps_sendPacket (bytes : List UInt8) (answers : List (Option Nat)) :
    Keeps c (c.sendPacket bytes answers).2 :=
  keeps_log _

theorem sendPacket_rc (bytes : List UInt8) (answers : List (Option Nat)) :
    (c.sendPacket bytes answers).1 = 0 ∨ (c.sendPacket bytes answers).1 = -1 := by
  unfold sendPacket
  dsimp only
  split_ifs
  · exact .inl rfl
  · exact .inr rfl

theorem writeLoop_le (length : Nat) (answers : List (Option Nat)) :
    writeLoop length answers ≤ length := by
  induction length, answers using writeLoop.induct with
  | case1 | case2 | case3 => simp [writeLoop]
  | case4 length n answers ih => rw [writeLoop]; omega

theorem keeps_deliverMessage {out : PublishOut} (h : c.deliverMessage out = some c') :
    Keeps c c' := by
  unfold deliverMessage at h
  simp only [Option.bind_eq_bind, Option.bind_eq_some_iff] at h
  obtain ⟨hs, -, h⟩ := h
  split_ifs at h
  · cases h; exact .refl c
  all_goals
    obtain ⟨data, -, h⟩ := Option.bind_eq_some_iff.1 h
    cases h
    exact keeps_log _

theorem keeps_sendAck {type : MsgType} {packetid : Option Nat} {answers : List (Option Nat)}
    {rc : Int} (h : c.sendAck type packetid answers = some (rc, c')) :
    Keeps c c' ∧ (rc = 0 ∨ rc = -1) := by
  unfold sendAck at h
  cases packetid with
  | none => cases h
  | some packetid =>
    dsimp only at h
    split at h
    · cases h; exact ⟨.refl c, .inr rfl⟩
    · next bytes _ =>
      have hrc := sendPacket_rc (c := c) bytes answers
      obtain ⟨rfl, rfl⟩ := Prod.mk.inj (Option.some.inj h)
      exact ⟨keeps_sendPacket bytes answers, hrc⟩

theorem keeps_acknowledge {out : PublishOut} {answers : List (Option Nat)} {rc : Int}
    (h : c.acknowledge out answers = some (rc, c')) : Keeps c c' ∧ (rc = 0 ∨ rc = -1) := by
  unfold acknowledge at h
  split_ifs at h
  · exact keeps_sendAck h
  · exact keeps_sendAck h
  · cases h; exact ⟨.refl c, .inr rfl⟩

theorem keeps_keepalive (turn : Turn) : Keeps c (c.keepalive turn) := by
  unfold keepalive
  split_ifs
  · exact .refl c
  · split
    · exact .refl c
    · next bytes _ =>
      dsimp only
      split_ifs
      · exact (keeps_sendPacket bytes turn.ping).trans (keeps_ping true)
      · exact keeps_sendPacket bytes turn.ping

theorem keeps_cyclePublish {turn : Turn} {exit : Bool} {rc : Int}
    (h : c.cyclePublish turn = some (exit, rc, c')) : Keeps c c' ∧ (rc = 0 ∨ rc = -1) := by
  unfold cyclePublish at h
  simp only [Option.bind_eq_bind, Option.bind_eq_some_iff] at h
  obtain ⟨⟨r, out⟩, -, h⟩ := h
  cases out with
  | none => cases h; exact ⟨.refl c, .inl rfl⟩
  | some out =>
    dsimp only at h
    split_ifs at h
    · cases h; exact ⟨.refl c, .inl rfl⟩
    · obtain ⟨c₁, hdeliver, h⟩ := Option.bind_eq_some_iff.1 h
      cases h
      exact ⟨keeps_deliverMessage hdeliver, .inl rfl⟩
    · obtain ⟨c₁, hdeliver, h⟩ := Option.bind_eq_some_iff.1 h
      obtain ⟨⟨rc', c₂⟩, hack, h⟩ := Option.bind_eq_some_iff.1 h
      obtain ⟨hkeep, hrc⟩ := keeps_acknowledge hack
      cases h
      exact ⟨(keeps_deliverMessage hdeliver).trans hkeep, hrc⟩

/-- A turn leaves the session alone. -/
theorem keeps_cycle {turn : Turn} {rc : Int} (hbuf : 5 ≤ c.readbuf.length)
    (h : c.cycle turn = some (rc, c')) : Keeps c c' := by
  unfold cycle at h
  simp only [Option.bind_eq_bind, Option.bind_eq_some_iff] at h
  obtain ⟨⟨packetType, readbuf, ipstack⟩, hread, h⟩ := h
  have hkeep := keeps_input ipstack (IpStack.length_readPacket hbuf hread)
  dsimp only at h
  split_ifs at h
  · cases h
    exact hkeep.trans (keeps_keepalive turn)
  · obtain ⟨⟨exit, rc', c₁⟩, hpub, h⟩ := Option.bind_eq_some_iff.1 h
    have hkeep := hkeep.trans (keeps_cyclePublish hpub).1
    cases exit <;> cases h
    · exact hkeep.trans (keeps_keepalive turn)
    · exact hkeep
  · cases h
    exact (hkeep.trans (keeps_ping false)).trans (keeps_keepalive turn)
  · cases h
    exact hkeep.trans (keeps_keepalive turn)

theorem keeps_waitfor {type : MsgType} {turns : List Turn} {ok : Bool} (hbuf : 5 ≤ c.readbuf.length)
    (h : c.waitfor type turns = some (ok, c')) : Keeps c c' := by
  induction turns generalizing c with
  | nil => cases h; exact .refl _
  | cons turn turns ih =>
    simp only [waitfor, Option.bind_eq_bind, Option.bind_eq_some_iff] at h
    obtain ⟨⟨rc, c₁⟩, hcycle, h⟩ := h
    have hkeep := keeps_cycle hbuf hcycle
    dsimp only at h
    split_ifs at h
    · cases h; exact hkeep
    · exact hkeep.trans (ih (by rw [hkeep.readbuf]; exact hbuf) h)

theorem keeps_yield {turns : List Turn} {rc : Int} (hbuf : 5 ≤ c.readbuf.length)
    (h : c.yield turns = some (rc, c')) : Keeps c c' := by
  induction turns generalizing c with
  | nil => cases h; exact .refl _
  | cons turn turns ih =>
    simp only [yield, Option.bind_eq_bind, Option.bind_eq_some_iff] at h
    obtain ⟨⟨rc', c₁⟩, hcycle, h⟩ := h
    have hkeep := keeps_cycle hbuf hcycle
    dsimp only at h
    split_ifs at h
    · cases h; exact hkeep
    · exact hkeep.trans (ih (by rw [hkeep.readbuf]; exact hbuf) h)

end MqttClient

/-! ### What comes, and what is done about it -/

/-- A message of the broker. -/
structure Publication where
  dup : Bool
  qos : Nat
  retained : Bool
  packetid : Nat
  topicName : List UInt8
  payload : List UInt8
  qos_le : qos ≤ 2
  packetid_lt : packetid < 2 ^ 16
  topicName_lt : topicName.length < 2 ^ 16

def Publication.frame (p : Publication) : MqttFrame :=
  MqttSerialize.publishFrame p.dup.toNat p.qos p.retained.toNat p.packetid p.topicName p.payload

/-- Nothing comes before `recv` gives up, or a packet does. -/
inductive Arrival where
  | timeout
  | publication (p : Publication)
  | other (f : MqttFrame) (h : f.type ≠ MsgType.publish.code)

namespace Arrival

def frame : Arrival → Option MqttFrame
  | timeout => none
  | publication p => some p.frame
  | other f _ => some f

def events (a : Arrival) : List (Option UInt8) :=
  match a.frame with
  | none => [none]
  | some f => f.bytes.map some

/-- The packet is not longer than the buffer. -/
def Fits (size : Nat) (a : Arrival) : Prop := ∀ f ∈ a.frame, f.bytes.length ≤ size

instance (size : Nat) (a : Arrival) : Decidable (a.Fits size) :=
  inferInstanceAs (Decidable (∀ f ∈ a.frame, f.bytes.length ≤ size))

end Arrival

/-- What is seen of the client from outside. -/
inductive MqttEffect (H : Type) where
  | sent (bytes : List UInt8)
  | delivered (handler : H) (topicName payload : List UInt8)
deriving DecidableEq

/-- The handler reads as much of the payload as it is told. -/
def MqttEvent.effect {H : Type} : MqttEvent H → MqttEffect H
  | .sent bytes => .sent bytes
  | .called handler data =>
    .delivered handler data.topicName (data.payload.take data.payloadlen.toNat)

/-- The client as far as its answers go. -/
structure Responder (H : Type) where
  pingOutstanding : Bool
  effects : List (MqttEffect H)

namespace Responder
variable {H : Type}

/-- Whether all was written. -/
def send (bytes : List UInt8) (answers : List (Option Nat)) (r : Responder H) :
    Bool × Responder H :=
  let sent := MqttClient.writeLoop bytes.length answers
  (sent = bytes.length, { r with effects := r.effects ++ [.sent (bytes.take sent)] })

def pingreq : List UInt8 := [0xC0, 0]

def keepalive (keepAlive : Bool) (turn : Turn) (r : Responder H) : Responder H :=
  if keepAlive && turn.pingDue && !r.pingOutstanding then
    let (ok, r) := r.send pingreq turn.ping
    if ok then { r with pingOutstanding := true } else r
  else r

/-- The acknowledgement of a message, where there is one. -/
def ackOf (p : Publication) : Option MqttFrame :=
  if p.qos = 1 then some (MqttSerialize.ackFrame MsgType.puback.code 0 p.packetid)
  else if p.qos = 2 then some (MqttSerialize.ackFrame MsgType.pubrec.code 0 p.packetid)
  else none

/-- One arrival: the result of `cycle`, and what was done. -/
def next (keepAlive : Bool) (receivers : List UInt8 → List H) (r : Responder H)
    (step : Turn × Arrival) : Int × Responder H :=
  match step.2 with
  | .timeout => (-1, r.keepalive keepAlive step.1)
  | .other f _ =>
    let r := if f.type = MsgType.pingresp.code then { r with pingOutstanding := false } else r
    (f.type, r.keepalive keepAlive step.1)
  | .publication p =>
    let r :=
      { r with
        effects := r.effects ++ (receivers p.topicName).map fun h =>
          MqttEffect.delivered h p.topicName p.payload }
    match ackOf p with
    | none => (MsgType.publish.code, r.keepalive keepAlive step.1)
    | some ack =>
      let (ok, r) := r.send ack.bytes step.1.acknowledge
      if ok then (MsgType.publish.code, r.keepalive keepAlive step.1) else (-1, r)

end Responder

namespace MqttClient
variable {H : Type} {c c' : MqttClient H}

/-- The handlers whose filter is the topic name or matches it. -/
def handlersOf (ms : List (MessageHandler H)) (topicName : List UInt8) : List H :=
  ms.flatMap fun m =>
    if m.topicFilter ∧
      (topicName = cstr m.topicName ∨ matchFrom (cstr m.topicName) topicName =
        true) then m.fp.toList else []

/-- The handlers that are called, the default one if there is no other. -/
def receivers (c : MqttClient H) (topicName : List UInt8) : List H :=
  let hs := handlersOf c.messageHandlers topicName
  if hs.isEmpty then c.defaultMessageHandler.toList else hs

def responder (c : MqttClient H) : Responder H := ⟨c.pingOutstanding, c.log.map MqttEvent.effect⟩

theorem equals_text (text filter : List UInt8) :
    MqttPacket.equals ⟨none, text.length, some text⟩ filter =
      some (decide (text = cstr filter)) := by
  simp only [MqttPacket.equals, List.take_length]
  split_ifs with hlen
  · rw [Option.some.injEq, eq_comm, decide_eq_false_iff_not]
    rintro rfl
    exact hlen rfl
  · rfl

theorem isFor_text (m : MessageHandler H) (text : List UInt8) :
    m.isFor ⟨none, text.length, some text⟩ =
      some (decide
        (m.topicFilter ∧
          (text = cstr m.topicName ∨ matchFrom (cstr m.topicName) text = true))) := by
  unfold MessageHandler.isFor
  cases m.topicFilter with
  | false => simp
  | true =>
    rw [equals_text, isTopicMatched_text]
    by_cases heq : text = cstr m.topicName
    · simp [heq]
    · simp [heq]

theorem handlersFor_text (ms : List (MessageHandler H)) (text : List UInt8) :
    handlersFor ⟨none, text.length, some text⟩ ms = some (handlersOf ms text) := by
  induction ms with
  | nil => rfl
  | cons m ms ih =>
    simp only [handlersFor, isFor_text, ih, Option.bind_eq_bind, Option.bind_some,
      decide_eq_true_eq]
    rfl

/-- A message with a topic name and a payload is handed over. -/
theorem deliverMessage_text (out : PublishOut) {text payload : List UInt8} {n : Nat}
    (htopic : out.topicName = ⟨none, text.length, some text⟩)
    (hpayload : out.payload = some payload) (hlen : out.payloadlen = some (n : Int)) :
    ∃ c', c.deliverMessage out = some c' ∧ Keeps c c' ∧ c'.ipstack = c.ipstack ∧
      c'.readbuf = c.readbuf ∧
      c'.responder = { c.responder with
        effects := c.responder.effects ++ (c.receivers text).map fun h =>
        MqttEffect.delivered h text (payload.take n) } := by
  have hmsg : out.message = some ⟨text, payload, n, out.qos, out.retained, out.dup,
      out.packetid⟩ := by
    rw [PublishOut.message, htopic, hpayload, hlen]
    simp
  unfold deliverMessage receivers
  rw [htopic, handlersFor_text]
  simp only [Option.bind_eq_bind, Option.bind_some, hmsg]
  set hs := if (handlersOf c.messageHandlers text).isEmpty then c.defaultMessageHandler.toList
    else handlersOf c.messageHandlers text
  split_ifs with hnil
  · refine ⟨c, rfl, .refl c, rfl, rfl, ?_⟩
    rw [List.isEmpty_iff.1 hnil]
    simp
  · refine ⟨_, rfl, keeps_log _, rfl, rfl, ?_⟩
    simp [responder, MqttEvent.effect, Function.comp_def]

theorem sendPacket_responder (bytes : List UInt8) (answers : List (Option Nat)) :
    let r := c.responder.send bytes answers
    (c.sendPacket bytes answers).1 = (if r.1 then 0 else -1) ∧
      (c.sendPacket bytes answers).2.responder = r.2 := by
  simp [sendPacket, Responder.send, responder, MqttEvent.effect]

theorem keepalive_responder (hbuf : 5 ≤ c.readbuf.length) (turn : Turn) :
    (c.keepalive turn).responder = c.responder.keepalive (0 < c.keepAliveInterval) turn ∧
      (c.keepalive turn).ipstack = c.ipstack ∧ (c.keepalive turn).readbuf = c.readbuf := by
  have hping : MqttSerialize.pingreq c.readbuf.length = .ok Responder.pingreq := by
    rw [MqttSerialize.pingreq, MqttSerialize.zero, if_neg (by omega),
      MqttPacket.encode_of_lt (by omega)]
    rfl
  obtain ⟨hrc, hresp⟩ := sendPacket_responder (c := c) Responder.pingreq turn.ping
  unfold keepalive Responder.keepalive
  rw [hping]
  dsimp only
  by_cases hidle : c.keepAliveInterval = 0 ∨ turn.pingDue = false ∨ c.pingOutstanding = true
  · have hidle' :
        (decide (0 < c.keepAliveInterval) && turn.pingDue && !c.responder.pingOutstanding) =
          false := by
      show (decide (0 < c.keepAliveInterval) && turn.pingDue && !c.pingOutstanding) = false
      rcases hidle with h | h | h <;> simp [h]
    rw [if_pos hidle, hidle']
    exact ⟨rfl, rfl, rfl⟩
  · have hdue : (decide (0 < c.keepAliveInterval) && turn.pingDue && !c.responder.pingOutstanding) =
        true := by
      show (decide (0 < c.keepAliveInterval) && turn.pingDue && !c.pingOutstanding) = true
      simp only [not_or, Bool.not_eq_false, Bool.not_eq_true] at hidle
      simp [hidle, Nat.pos_of_ne_zero hidle.1]
    rw [if_neg hidle, if_pos hdue, hrc]
    cases hok : (c.responder.send Responder.pingreq turn.ping).1 with
    | false => exact ⟨hresp, rfl, rfl⟩
    | true =>
      refine ⟨?_, rfl, rfl⟩
      show (⟨true, (c.sendPacket Responder.pingreq turn.ping).2.responder.effects⟩ : Responder H) =
        _
      rw [hresp]
      rfl

/-- The acknowledgement of a message that has an id. -/
theorem acknowledge_responder (hbuf : 5 ≤ c.readbuf.length) (out : PublishOut) {p : Publication}
    (hqos : out.qos = p.qos) (hid : out.packetid = if 0 < p.qos then some p.packetid else none)
    {ack : MqttFrame} (hack : Responder.ackOf p = some ack) (answers : List (Option Nat)) :
    let r := c.responder.send ack.bytes answers
    ∃ c', c.acknowledge out answers = some (if r.1 then 0 else -1, c') ∧ c'.responder = r.2 ∧
      Keeps c c' ∧
      c'.ipstack = c.ipstack ∧ c'.readbuf = c.readbuf := by
  intro r
  obtain ⟨hrc, hresp⟩ := sendPacket_responder (c := c) ack.bytes answers
  refine ⟨_, ?_, hresp, keeps_sendPacket ack.bytes answers, rfl, rfl⟩
  unfold Responder.ackOf at hack
  rw [acknowledge, hqos, ← hrc]
  split_ifs at hack with h1 h2
  · obtain rfl := Option.some.inj hack
    rw [if_pos h1, hid, if_pos (by omega), sendAck, MqttSerialize.ack_eq, if_neg (by omega)]
  · obtain rfl := Option.some.inj hack
    rw [if_neg h1, if_pos h2, hid, if_pos (by omega), sendAck, MqttSerialize.ack_eq,
      if_neg (by omega)]

theorem body_lt_of_fits {f : MqttFrame} {size : Nat} (h : f.bytes.length ≤ size)
    (hsize : size ≤ 128 ^ 4) : f.body.length < 128 ^ 4 := by
  rw [MqttFrame.length_bytes] at h
  omega

/-- What the branch for PUBLISH makes of a message at the start of the buffer. -/
theorem cyclePublish_publication (p : Publication) {stale : List UInt8}
    (hread : c.readbuf = p.frame.bytes ++ stale) (hbuf : 5 ≤ c.readbuf.length)
    (hf : p.frame.body.length < 128 ^ 4) (turn : Turn) :
    let r := { c.responder with
      effects := c.responder.effects ++ (c.receivers p.topicName).map fun h =>
        MqttEffect.delivered h p.topicName p.payload }
    ∃ c' : MqttClient H, Keeps c c' ∧ c'.ipstack = c.ipstack ∧ c'.readbuf = c.readbuf ∧
      match Responder.ackOf p with
      | none => c.cyclePublish turn = some (false, 0, c') ∧ c'.responder = r
      | some ack =>
        let sent := r.send ack.bytes turn.acknowledge
        c.cyclePublish turn = some (!sent.1, if sent.1 then 0 else -1, c') ∧
          c'.responder = sent.2 := by
  intro r
  have hqos : p.qos < 4 := by have := p.qos_le; omega
  have hpublish := MqttDeserialize.publish_publishFrame hqos p.packetid_lt p.topicName_lt hf stale
  set out : PublishOut :=
    ⟨p.dup.toNat % 2, p.qos, p.retained.toNat % 2, if 0 < p.qos then some p.packetid else none,
    ⟨none, p.topicName.length, some p.topicName⟩, some (p.payload ++ stale), some p.payload.length⟩
  obtain ⟨c₁, hdeliver, hkeep, hip, hbuf₁, hresp⟩ :=
    deliverMessage_text (c := c) out rfl rfl rfl
  rw [List.take_left] at hresp
  have hcycle : c.cyclePublish turn = if out.qos = 0 then some (false, 0, c₁) else
      (c₁.acknowledge out turn.acknowledge).bind fun r => some (decide (r.1 = -1), r.1, r.2) := by
    rw [cyclePublish, hread]
    simp only [Publication.frame, hpublish, Option.bind_eq_bind, Option.bind_some]
    rw [if_neg (by simp)]
    simp only [hdeliver, Option.bind_some]
  cases hack : Responder.ackOf p with
  | none =>
    refine ⟨c₁, hkeep, hip, hbuf₁, ?_, hresp⟩
    have hzero : out.qos = 0 := by
      have := p.qos_le
      unfold Responder.ackOf at hack
      split_ifs at hack
      show p.qos = 0
      omega
    rw [hcycle, if_pos hzero]
  | some ack =>
    have hne : out.qos ≠ 0 := by
      intro hzero
      have hzero : p.qos = 0 := hzero
      rw [Responder.ackOf, hzero] at hack
      cases hack
    obtain ⟨c₂, hacked, hresp₂, hkeep₂, hip₂, hbuf₂⟩ :=
      acknowledge_responder (c := c₁) (by rw [hbuf₁]; exact hbuf) out rfl rfl hack turn.acknowledge
    refine ⟨c₂, hkeep.trans hkeep₂, hip₂.trans hip, hbuf₂.trans hbuf₁, ?_, ?_⟩
    · rw [hcycle, if_neg hne, hacked, hresp]
      show (some (if (Responder.send ack.bytes turn.acknowledge r).1 then (0 : Int) else -1,
        c₂)).bind _ = _
      cases (Responder.send ack.bytes turn.acknowledge r).1 <;> rfl
    · rw [hresp₂, hresp]

/-- One arrival. -/
theorem cycle_arrival (turn : Turn) {a : Arrival} {es : List (Option UInt8)}
    (hevents : c.ipstack.events = a.events ++ es) (hfits : a.Fits c.readbuf.length)
    (hbuf : 5 ≤ c.readbuf.length) (hsize : c.readbuf.length ≤ 128 ^ 4) :
    let r := c.responder.next (0 < c.keepAliveInterval) c.receivers (turn, a)
    ∃ c', c.cycle turn = some (r.1, c') ∧ Keeps c c' ∧ c'.responder = r.2 ∧
      (c'.ipstack.events = es ∧ c'.ipstack.closed = c.ipstack.closed) ∧
      (∀ f ∈ a.frame, ∃ stale, c'.readbuf = f.bytes ++ stale) := by
  intro r
  cases a with
  | timeout =>
    obtain ⟨s', hread, hstack⟩ := IpStack.readPacket_failed hevents c.readbuf
    set c₁ : MqttClient H := { c with readbuf := c.readbuf, ipstack := s' } with hc₁
    have hkeep : Keeps c c₁ := keeps_input s' rfl
    obtain ⟨hresp, hip, hrb⟩ := keepalive_responder (c := c₁) hbuf turn
    refine ⟨c₁.keepalive turn, ?_, hkeep.trans (keeps_keepalive turn),
      hresp, by rw [hip]; exact hstack,
      fun f hf => by cases hf⟩
    rw [cycle, hread]
    rfl
  | other f htype =>
    have hf := hfits f rfl
    obtain ⟨s', hread, hstack⟩ := IpStack.readPacket_frame hevents hf (body_lt_of_fits hf hsize)
    have hlen := IpStack.length_store hf
    set c₁ : MqttClient H :=
      { c with readbuf := IpStack.store c.readbuf f.bytes, ipstack := s' } with hc₁
    have hkeep : Keeps c c₁ := keeps_input s' hlen
    set c₂ : MqttClient H :=
      if f.type = MsgType.pingresp.code then { c₁ with pingOutstanding := false } else c₁ with hc₂
    have hkeep₂ : Keeps c₁ c₂ := by
      rw [hc₂]
      split_ifs
      · exact keeps_ping false
      · exact .refl c₁
    have hsame : c₂.ipstack = s' ∧ c₂.readbuf = IpStack.store c.readbuf f.bytes ∧
        c₂.responder = if f.type = MsgType.pingresp.code then { c.responder with
          pingOutstanding := false } else c.responder := by
      rw [hc₂]; split_ifs <;> exact ⟨rfl, rfl, rfl⟩
    obtain ⟨hip₂, hrb₂, hresp₂⟩ := hsame
    obtain ⟨hresp, hip, hrb⟩ := keepalive_responder (c := c₂) (by rw [hrb₂, hlen]; exact hbuf) turn
    refine ⟨c₂.keepalive turn, ?_, (hkeep.trans hkeep₂).trans (keeps_keepalive turn),
      ?_, by rw [hip, hip₂]; exact hstack, ?_⟩
    · rw [cycle, hread]
      simp only [Option.bind_eq_bind, Option.bind_some]
      rw [if_neg (by omega), if_neg (by exact_mod_cast htype)]
      split_ifs with hping
      · rw [hc₂, if_pos (by exact_mod_cast hping)]
        rfl
      · rw [hc₂, if_neg (by exact_mod_cast hping)]
        rfl
    · rw [hresp, hresp₂, (hkeep.trans hkeep₂).keepAliveInterval]
      rfl
    · intro g hg
      obtain rfl : f = g := Option.some.inj hg
      exact ⟨_, by rw [hrb, hrb₂]; rfl⟩
  | publication p =>
    have hf := hfits p.frame rfl
    have hbody := body_lt_of_fits hf hsize
    obtain ⟨s', hread, hstack⟩ := IpStack.readPacket_frame hevents hf hbody
    have hlen := IpStack.length_store hf
    set c₁ : MqttClient H :=
      { c with readbuf := IpStack.store c.readbuf p.frame.bytes, ipstack := s' } with hc₁
    have hkeep : Keeps c c₁ := keeps_input s' hlen
    have hbuf₁ : 5 ≤ c₁.readbuf.length := by rw [hkeep.readbuf]; exact hbuf
    obtain ⟨c₂, hkeep₂, hip₂, hrb₂, hmatch⟩ :=
      cyclePublish_publication (c := c₁) p rfl hbuf₁ hbody turn
    have hkeep₂ := hkeep.trans hkeep₂
    have htype : p.frame.type = MsgType.publish.code := MqttHeader.type_byte _ _ _ _
    have hcycle : c.cycle turn = (c₁.cyclePublish turn).bind fun r =>
        some (if r.2.1 = 0 then (MsgType.publish.code : Int) else r.2.1, if r.1 then r.2.2
          else r.2.2.keepalive turn) := by
      rw [cycle, hread]
      simp only [Option.bind_eq_bind, Option.bind_some, htype]
      rw [if_neg (by omega), if_pos trivial]
    obtain ⟨hresp, hip, hrb⟩ :=
      keepalive_responder (c := c₂) (by rw [hkeep₂.readbuf]; exact hbuf) turn
    rw [hkeep₂.keepAliveInterval] at hresp
    have hframe : ∀ f ∈ (Arrival.publication p).frame, ∃ stale, c₂.readbuf = f.bytes ++ stale := by
      intro f hf
      obtain rfl : p.frame = f := Option.some.inj hf
      exact ⟨_, hrb₂⟩
    have hstack₂ : c₂.ipstack.events = es ∧ c₂.ipstack.closed = c.ipstack.closed := by
      rw [hip₂]
      exact hstack
    rw [hcycle]
    simp only [r, Responder.next]
    cases hack : Responder.ackOf p with
    | none =>
      rw [hack] at hmatch
      obtain ⟨hpub, hresp₂⟩ := hmatch
      refine ⟨c₂.keepalive turn, by rw [hpub]; rfl, hkeep₂.trans (keeps_keepalive turn),
        ?_, by rw [hip]; exact hstack₂,
        by rw [hrb]; exact hframe⟩
      rw [hresp, hresp₂]
      rfl
    | some ack =>
      rw [hack] at hmatch
      obtain ⟨hpub, hresp₂⟩ := hmatch
      have hreceivers : c₁.receivers = c.receivers := rfl
      have hresponder : c₁.responder = c.responder := rfl
      rw [hreceivers, hresponder] at hpub hresp₂
      dsimp only at hpub hresp₂ ⊢
      set sent := Responder.send ack.bytes turn.acknowledge _
      rw [hpub]
      cases hok : sent.1 with
      | false => exact ⟨c₂, rfl, hkeep₂, hresp₂, hstack₂, hframe⟩
      | true =>
        refine ⟨c₂.keepalive turn, rfl, hkeep₂.trans (keeps_keepalive turn),
          ?_, by rw [hip]; exact hstack₂,
          by rw [hrb]; exact hframe⟩
        rw [hresp, hresp₂]
        rfl

/-- Behind the end of the stream a turn is one in which nothing comes. -/
theorem cycle_nothing (turn : Turn) (hevents : c.ipstack.events = [])
    (hopen : c.ipstack.closed = false) (hbuf : 5 ≤ c.readbuf.length) :
    let r := c.responder.next (0 < c.keepAliveInterval) c.receivers (turn, .timeout)
    ∃ c', c.cycle turn = some (r.1, c') ∧ Keeps c c' ∧ c'.responder = r.2 ∧
      c'.ipstack.events = [] ∧ c'.ipstack.closed = c.ipstack.closed := by
  intro r
  obtain ⟨s', hread, hstack⟩ := (IpStack.readPacket_nothing hevents c.readbuf).2 hopen
  set c₁ : MqttClient H := { c with readbuf := c.readbuf, ipstack := s' } with hc₁
  have hkeep : Keeps c c₁ := keeps_input s' rfl
  obtain ⟨hresp, hip, hrb⟩ := keepalive_responder (c := c₁) hbuf turn
  refine ⟨c₁.keepalive turn, ?_, hkeep.trans (keeps_keepalive turn),
    hresp, by rw [hip]; exact hstack⟩
  rw [cycle, hread]
  rfl

end MqttClient

end SnGateway
