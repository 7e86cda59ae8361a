import Mathlib.Data.Multiset.Filter
import Mathlib.Data.Multiset.AddSub
import SnGateway.Lib.Run
import SnGateway.MqttSession

/-!
# Runs of the client

The client against a book that holds, while there is a session, one entry for each subscription
(`nextBook`). It keeps to the book over every run of calls (`run_book`): a call that fails ends the
session and all of its subscriptions with it, a sixth subscription is dropped without notice when
the broker grants QoS 0, and reading never ends a session.
-/

namespace SnGateway
open RecordStore

/-- The calls of the client. -/
inductive ClientOp (H : Type) where
  | connect (options : PacketConnectData) (x resend : Exchange)
  | subscribe (signedChar : Bool) (topicFilter : List UInt8) (qos : Nat) (handler : H)
      (x : Exchange)
  | unsubscribe (topicFilter : List UInt8) (x : Exchange)
  | publish (topicName payload : List UInt8) (qos : Nat) (retained : Bool) (x : Exchange)
  | disconnect (answers : List (Option Nat))
  | yield (turns : List Turn)

namespace MqttClient
variable {H : Type} {c c' c'' : MqttClient H}

def exec (c : MqttClient H) : ClientOp H → Option (Int × MqttClient H)
  | .connect options x resend => c.connect options x resend
  | .subscribe signedChar topicFilter qos handler x =>
    c.subscribe signedChar topicFilter qos handler x
  | .unsubscribe topicFilter x => c.unsubscribe topicFilter x
  | .publish topicName payload qos retained x => c.publish topicName payload qos retained x
  | .disconnect answers => some (c.disconnect answers)
  | .yield turns => c.yield turns

/-- A call with this result. -/
def stepWith (c : MqttClient H) (call : ClientOp H × Int) : Option (MqttClient H) :=
  match c.exec call.1 with
  | some (rc, c') => if rc = call.2 then some c' else none
  | none => none

theorem stepWith_eq {call : ClientOp H × Int} :
    c.stepWith call = some c' ↔ c.exec call.1 = some (call.2, c') := by
  obtain ⟨op, rc⟩ := call
  unfold stepWith
  cases hexec : c.exec op with
  | none => simp
  | some r =>
    obtain ⟨rc', c₁⟩ := r
    rw [Option.some.injEq, Prod.mk.injEq]
    dsimp only
    split_ifs with hrc <;> simp [hrc]

/-! ### What a call leaves alone -/

/-- All that the book and the next session depend on. What comes meanwhile is handed over. -/
structure Stays (c c' : MqttClient H) : Prop where
  messageHandlers : c'.messageHandlers = c.messageHandlers
  defaultMessageHandler : c'.defaultMessageHandler = c.defaultMessageHandler
  isconnected : c'.isconnected = c.isconnected
  cleansession : c'.cleansession = c.cleansession
  inflightMsgid : c'.inflightMsgid = c.inflightMsgid
  readbuf : c'.readbuf.length = c.readbuf.length
  serves : Serves c c'

theorem Keeps.stays (h : Keeps c c') (hserves : Serves c c') : Stays c c' :=
  ⟨h.messageHandlers, h.defaultMessageHandler, h.isconnected, h.cleansession, h.inflightMsgid,
    h.readbuf, hserves⟩

theorem Stays.refl (c : MqttClient H) : Stays c c :=
  ⟨rfl, rfl, rfl, rfl, rfl, rfl, serves_of_eq rfl rfl rfl⟩

theorem Stays.receivers (h : Stays c c') : c'.receivers = c.receivers := by
  unfold MqttClient.receivers
  rw [h.messageHandlers, h.defaultMessageHandler]

theorem Stays.trans (h : Stays c c') (h' : Stays c' c'') : Stays c c'' where
  messageHandlers := h'.messageHandlers.trans h.messageHandlers
  defaultMessageHandler := h'.defaultMessageHandler.trans h.defaultMessageHandler
  isconnected := h'.isconnected.trans h.isconnected
  cleansession := h'.cleansession.trans h.cleansession
  inflightMsgid := h'.inflightMsgid.trans h.inflightMsgid
  readbuf := h'.readbuf.trans h.readbuf
  serves := h.serves.trans h'.serves h.receivers

theorem stays_packetid (n : Nat) : Stays c { c with packetid := n } :=
  ⟨rfl, rfl, rfl, rfl, rfl, rfl, serves_of_eq rfl rfl rfl⟩

theorem stays_sendPacket (bytes : List UInt8) (answers : List (Option Nat)) :
    Stays c (c.sendPacket bytes answers).2 :=
  (keeps_sendPacket bytes answers).stays (serves_sendPacket bytes answers)

theorem stays_waitfor {type : MsgType} (htype : type ≠ .publish) {turns : List Turn} {ok : Bool}
    (hbuf : 5 ≤ c.readbuf.length) (h : c.waitfor type turns = some (ok, c')) : Stays c c' :=
  (keeps_waitfor hbuf h).stays (serves_waitfor htype h)

/-- The session was ended. -/
def Dropped (c c' : MqttClient H) : Prop := ∃ c₁, Stays c c₁ ∧ c' = c₁.cleanSession

theorem Stays.dropped (h : Stays c c') (h' : Dropped c' c'') : Dropped c c'' := by
  obtain ⟨c₁, hstays, rfl⟩ := h'
  exact ⟨c₁, h.trans hstays, rfl⟩

theorem finish_dropped {rc rc' : Int} (h : Stays c c') (hrc : rc ≠ 0)
    (heq : some (finish (rc, c')) = some (rc', c'')) : rc' ≠ 0 ∧ Dropped c c'' := by
  rw [finish, if_pos hrc, Option.some.injEq, Prod.mk.injEq] at heq
  obtain ⟨rfl, rfl⟩ := heq
  exact ⟨hrc, c', h, rfl⟩

/-- A client that stores no messages, with nothing registered outside of a session. -/
structure Tidy (c : MqttClient H) : Prop where
  free : c.isconnected = false → ∀ m ∈ c.messageHandlers, m.topicFilter = false
  clean : c.isconnected = true → c.cleansession = true
  inflight : c.inflightMsgid = 0
  attached : ∀ m ∈ c.messageHandlers, m.topicFilter = true → m.fp.isSome = true
  buffer : 5 ≤ c.readbuf.length

theorem Tidy.stays (ht : c.Tidy) (h : Stays c c') : c'.Tidy where
  free hc := by rw [h.messageHandlers]; exact ht.free (by rw [← h.isconnected]; exact hc)
  clean hc := by rw [h.cleansession]; exact ht.clean (by rw [← h.isconnected]; exact hc)
  inflight := by rw [h.inflightMsgid]; exact ht.inflight
  attached := by rw [h.messageHandlers]; exact ht.attached
  buffer := by rw [h.readbuf]; exact ht.buffer

theorem Dropped.notConnected (h : Dropped c c') : c'.isconnected = false := by
  obtain ⟨c₁, -, rfl⟩ := h
  rfl

theorem Tidy.dropped (ht : c.Tidy) (h : Dropped c c') : c'.Tidy := by
  obtain ⟨c₁, hstays, rfl⟩ := h
  refine ⟨fun _ m hm => ?_, fun hc => Bool.noConfusion hc, rfl, fun m hm hf => ?_,
    (ht.stays hstays).buffer⟩
  · obtain ⟨m, -, rfl⟩ := List.mem_map.1 hm
    rfl
  · obtain ⟨m, -, rfl⟩ := List.mem_map.1 hm
    cases hf

/-! ### The calls -/

theorem publishPacket_cases {bytes : List UInt8} {qos : Nat} {x : Exchange} {rc : Int} (ht : c.Tidy)
    (h : c.publishPacket bytes qos x = some (rc, c')) :
    rc = 0 ∧ Stays c c' ∨ rc ≠ 0 ∧ Dropped c c' := by
  have hsend := stays_sendPacket (c := c) bytes x.write
  unfold publishPacket at h
  dsimp only at h
  split_ifs at h with hrc hqos
  · exact .inr (finish_dropped hsend hrc h)
  · rw [Option.some.injEq, Prod.mk.injEq] at h
    obtain ⟨rfl, rfl⟩ := h
    exact .inl ⟨by simpa using hrc, hsend⟩
  · rw [Option.bind_eq_bind, Option.bind_eq_some_iff] at h
    obtain ⟨⟨ok, c₁⟩, hwait, h⟩ := h
    have hstays := hsend.trans (stays_waitfor (by decide) (ht.stays hsend).buffer hwait)
    cases ok with
    | false => exact .inr (finish_dropped hstays (by decide) h)
    | true =>
      simp only [Bool.not_true, Bool.false_eq_true, if_false, Option.bind_eq_bind,
        Option.bind_eq_some_iff] at h
      obtain ⟨⟨rc', out⟩, -, h⟩ := h
      dsimp only at h
      have hinflight : c₁.inflightMsgid = 0 := hstays.inflightMsgid.trans ht.inflight
      split_ifs at h with hack
      · exact .inr (finish_dropped hstays (by decide) h)
      · split at h
        · next packetid _ =>
          rw [Option.some.injEq, Prod.mk.injEq] at h
          obtain ⟨rfl, rfl⟩ := h
          refine .inl ⟨rfl, ?_⟩
          split_ifs
          · exact hstays.trans ⟨rfl, rfl, rfl, rfl, hinflight.symm, rfl, serves_of_eq rfl rfl rfl⟩
          · exact hstays
        · obtain ⟨rfl, rfl⟩ := Prod.mk.inj (Option.some.inj h)
          exact .inl ⟨rfl, hstays⟩

/-- A message that does not fit into a packet. -/
def TooLong (size : Nat) (topicName payload : List UInt8) (qos : Nat) : Prop :=
  size < MqttPacket.len (MqttSerialize.publishLength qos ⟨some topicName, 0, none⟩ payload.length)

instance (size : Nat) (topicName payload : List UInt8) (qos : Nat) :
    Decidable (TooLong size topicName payload qos) :=
  inferInstanceAs (Decidable (_ < _))

theorem publish_cases {topicName payload : List UInt8} {qos : Nat} {retained : Bool} {x : Exchange}
    {rc : Int} (ht : c.Tidy) (h : c.publish topicName payload qos retained x = some (rc, c')) :
    Stays c c' ∧ (c.isconnected = true → rc = 0 ∨ TooLong c.readbuf.length topicName payload qos) ∨
      rc ≠ 0 ∧ c.isconnected = true ∧ ¬ TooLong c.readbuf.length topicName payload qos ∧
      Dropped c c' := by
  cases hconn : c.isconnected with
  | false =>
    rw [publish, hconn, Bool.not_false, if_pos rfl, Option.some.injEq, Prod.mk.injEq] at h
    obtain ⟨rfl, rfl⟩ := h
    exact .inl ⟨.refl c, by simp⟩
  | true =>
    rw [publish, if_neg (by simp [hconn])] at h
    dsimp only at h
    generalize hc₁ : (if qos = 1 ∨ qos = 2 then { c with packetid := nextPacketId c.packetid }
      else c) = c₁ at h
    have hstays : Stays c c₁ := by
      rw [← hc₁]
      split_ifs
      · exact stays_packetid _
      · exact .refl c
    have hclean : c₁.cleansession = true := hstays.cleansession.trans (ht.clean hconn)
    rw [hclean, hstays.readbuf] at h
    by_cases hlong : TooLong c.readbuf.length topicName payload qos
    · rw [MqttSerialize.publish_of_lt hlong] at h
      obtain ⟨rfl, rfl⟩ := Prod.mk.inj (Option.some.inj h)
      exact .inl ⟨hstays, fun _ => .inr hlong⟩
    · obtain ⟨bytes, hbytes⟩ := MqttSerialize.publish_of_le hlong
      rw [hbytes] at h
      rcases publishPacket_cases (ht.stays hstays) h with ⟨hrc, hstays'⟩ | ⟨hrc, hdropped⟩
      · exact .inl ⟨hstays.trans hstays', fun _ => .inl hrc⟩
      · exact .inr ⟨hrc, rfl, hlong, hstays.dropped hdropped⟩

/-- A call of `subscribe` that succeeds takes a slot, if one is free. -/
theorem subscribe_cases {signedChar : Bool} {topicFilter : List UInt8} {qos : Nat} {handler : H}
    {x : Exchange} {rc : Int} (ht : c.Tidy)
    (h : c.subscribe signedChar topicFilter qos handler x = some (rc, c')) :
    rc = 0 ∧ c.isconnected = true ∧ (∃ c₁, Stays c c₁ ∧ c' = { c₁ with
        messageHandlers :=
          (addHandler topicFilter handler c.messageHandlers).getD c.messageHandlers }) ∨
      rc ≠ 0 ∧ Dropped c c' := by
  cases hconn : c.isconnected with
  | false =>
    rw [subscribe, hconn, Bool.not_false, if_pos rfl] at h
    exact .inr (finish_dropped (.refl c) (by decide) h)
  | true =>
    rw [subscribe, if_neg (by simp [hconn])] at h
    dsimp only at h
    have hid : Stays c { c with packetid := nextPacketId c.packetid } := stays_packetid _
    split at h
    · exact .inr (finish_dropped hid (by decide) h)
    · next bytes _ =>
      have hsend := hid.trans (stays_sendPacket bytes x.write)
      split_ifs at h with hrc
      · exact .inr (finish_dropped hsend hrc h)
      rw [Option.bind_eq_bind, Option.bind_eq_some_iff] at h
      obtain ⟨⟨ok, c₁⟩, hwait, h⟩ := h
      have hstays := hsend.trans (stays_waitfor (by decide) (ht.stays hsend).buffer hwait)
      cases ok with
      | false => exact .inr (finish_dropped hstays (by decide) h)
      | true =>
        simp only [Bool.not_true, Bool.false_eq_true, if_false, Option.bind_eq_bind,
          Option.bind_eq_some_iff] at h
        obtain ⟨⟨rc', out⟩, -, h⟩ := h
        dsimp only at h
        generalize (if rc' = 1 then out.grantedQoSs.headD (-1) else 0) = granted at h
        split_ifs at h with hrefused
        · exact .inr (finish_dropped hstays (by omega) h)
        · rw [hstays.messageHandlers] at h
          cases hadd : addHandler topicFilter handler c.messageHandlers with
          | some messageHandlers =>
            rw [hadd] at h
            obtain ⟨rfl, rfl⟩ := Prod.mk.inj (Option.some.inj h)
            exact .inl ⟨rfl, rfl, c₁, hstays, rfl⟩
          | none =>
            rw [hadd] at h
            by_cases hgranted : granted = 0
            · subst hgranted
              obtain ⟨rfl, rfl⟩ := Prod.mk.inj (Option.some.inj h)
              refine .inl ⟨rfl, rfl, c₁, hstays, ?_⟩
              rw [Option.getD_none, ← hstays.messageHandlers]
            · exact .inr (finish_dropped hstays hgranted h)

theorem keepalive_readbuf (turn : Turn) : (c.keepalive turn).readbuf = c.readbuf := by
  unfold keepalive
  split_ifs
  · rfl
  · split
    · rfl
    · dsimp only
      split_ifs <;> rfl

theorem readPacket_type {readbuf buf : List UInt8} {s s' : IpStack} {n : Int}
    (h : s.readPacket readbuf = some (n, buf, s')) (hn : 0 ≤ n) :
    n = MqttHeader.type (buf.headD 0) := by
  unfold IpStack.readPacket at h
  simp only [Option.bind_eq_bind, Option.bind_eq_some_iff] at h
  obtain ⟨⟨rc, got, s₁⟩, -, h⟩ := h
  dsimp only at h
  split_ifs at h
  · cases h
    omega
  · obtain ⟨⟨len, remLen, s₂⟩, -, h⟩ := Option.bind_eq_some_iff.1 h
    dsimp only at h
    split_ifs at h
    · cases h
      exact absurd hn (by decide)
    · obtain ⟨⟨rc, body, s₃⟩, -, h⟩ := Option.bind_eq_some_iff.1 h
      dsimp only at h
      split_ifs at h
      · cases h
        omega
      · cases h
        rfl

/-- What `cycle` says came is what stands in the buffer. -/
theorem cycle_head {type : MsgType} {turn : Turn} (htype : type ≠ .publish)
    (h : c.cycle turn = some ((type.code : Int), c')) :
    MqttHeader.type (c'.readbuf.headD 0) = type.code := by
  unfold cycle at h
  simp only [Option.bind_eq_bind, Option.bind_eq_some_iff] at h
  obtain ⟨⟨packetType, readbuf, ipstack⟩, hread, h⟩ := h
  dsimp only at h
  split_ifs at h with hneg hpublish hpingresp
  · obtain ⟨rfl, -⟩ := Prod.mk.inj (Option.some.inj h)
    omega
  · obtain ⟨⟨exit, rc, c₁⟩, hcyclePublish, h⟩ := Option.bind_eq_some_iff.1 h
    have hrc := (keeps_cyclePublish hcyclePublish).2
    have hcode := congrArg Prod.fst (Option.some.inj h)
    dsimp only at hcode
    split_ifs at hcode
    · exact absurd (@MsgType.code_injective type .publish (by omega)) htype
    · omega
  all_goals
    obtain ⟨rfl, rfl⟩ := Prod.mk.inj (Option.some.inj h)
    rw [keepalive_readbuf]
    exact_mod_cast (readPacket_type hread (by omega)).symm

theorem waitfor_head {type : MsgType} {turns : List Turn} (htype : type ≠ .publish)
    (h : c.waitfor type turns = some (true, c')) :
    MqttHeader.type (c'.readbuf.headD 0) = type.code := by
  induction turns generalizing c with
  | nil => cases h
  | cons turn turns ih =>
    simp only [waitfor, Option.bind_eq_bind, Option.bind_eq_some_iff] at h
    obtain ⟨⟨rc, c₁⟩, hcycle, h⟩ := h
    dsimp only at h
    split_ifs at h with hrc
    · subst hrc
      cases h
      exact cycle_head htype hcycle
    · exact ih h

/-- The reader of an UNSUBACK looks at nothing but the type. -/
theorem unsuback_eq {buf : List UInt8} {rc : Int}
    (htype : MqttHeader.type (buf.headD 0) = MsgType.unsuback.code)
    (h : MqttDeserialize.unsuback buf = some rc) : rc = 1 := by
  unfold MqttDeserialize.unsuback at h
  obtain ⟨⟨rc', out⟩, hack, rfl⟩ := Option.map_eq_some_iff.1 h
  suffices hout : out.packettype = MsgType.unsuback.code from if_pos hout
  unfold MqttDeserialize.ack at hack
  cases buf with
  | nil => cases hack
  | cons header curdata =>
    simp only [Option.bind_eq_bind, Option.bind_eq_some_iff] at hack
    obtain ⟨⟨rc, mylen⟩, -, hack⟩ := hack
    dsimp only at hack
    split_ifs at hack
    · cases hack
      exact htype
    · obtain ⟨⟨packetid, cursor⟩, -, hack⟩ := Option.bind_eq_some_iff.1 hack
      cases hack
      exact htype

theorem unsubscribe_cases {topicFilter : List UInt8} {x : Exchange} {rc : Int} (ht : c.Tidy)
    (h : c.unsubscribe topicFilter x = some (rc, c')) :
    rc = 0 ∧ c.isconnected = true ∧ (∃ c₁, Stays c c₁ ∧
      c' = { c₁ with messageHandlers := removeHandler topicFilter c.messageHandlers }) ∨ rc ≠ 0 ∧
      Dropped c c' := by
  cases hconn : c.isconnected with
  | false =>
    rw [unsubscribe, hconn, Bool.not_false, if_pos rfl] at h
    exact .inr (finish_dropped (.refl c) (by decide) h)
  | true =>
    rw [unsubscribe, if_neg (by simp [hconn])] at h
    dsimp only at h
    have hid : Stays c { c with packetid := nextPacketId c.packetid } := stays_packetid _
    split at h
    · exact .inr (finish_dropped hid (by decide) h)
    · next bytes _ =>
      have hsend := hid.trans (stays_sendPacket bytes x.write)
      split_ifs at h with hrc
      · exact .inr (finish_dropped hsend hrc h)
      rw [Option.bind_eq_bind, Option.bind_eq_some_iff] at h
      obtain ⟨⟨ok, c₁⟩, hwait, h⟩ := h
      have hstays := hsend.trans (stays_waitfor (by decide) (ht.stays hsend).buffer hwait)
      cases ok with
      | false => exact .inr (finish_dropped hstays (by decide) h)
      | true =>
        simp only [Bool.not_true, Bool.false_eq_true, if_false, Option.bind_eq_bind,
          Option.bind_eq_some_iff] at h
        obtain ⟨rc', hunsuback, h⟩ := h
        rw [if_pos (unsuback_eq (waitfor_head (by decide) hwait) hunsuback), hstays.messageHandlers]
          at h
        obtain ⟨rfl, rfl⟩ := Prod.mk.inj (Option.some.inj h)
        exact .inl ⟨rfl, rfl, c₁, hstays, rfl⟩

theorem connect_cases {options : PacketConnectData} {x resend : Exchange} {rc : Int} (ht : c.Tidy)
    (h : c.connect options x resend = some (rc, c')) :
    (rc ≠ 0 ∧ c.isconnected = true ∧ c' = c) ∨ (c.isconnected = false ∧
      ∃ c₁, Stays { c with cleansession := options.cleansession ≠ 0 } c₁ ∧
        c' = if rc = 0 then { c₁ with isconnected := true } else c₁) := by
  by_cases hconn : c.isconnected = true
  · rw [connect, if_pos hconn] at h
    obtain ⟨rfl, rfl⟩ := Prod.mk.inj (Option.some.inj h)
    exact .inl ⟨by decide, hconn, rfl⟩
  · refine .inr ⟨Bool.eq_false_iff.2 hconn, ?_⟩
    rw [connect, if_neg hconn] at h
    dsimp only at h
    generalize hc₀ : ({ c with
      keepAliveInterval := options.keepAliveInterval, cleansession := options.cleansession ≠ 0 } :
        MqttClient H) = c₀ at h
    have hstart : Stays { c with cleansession := options.cleansession ≠ 0 } c₀ := by
      subst hc₀
      exact ⟨rfl, rfl, rfl, rfl, rfl, rfl, serves_of_eq rfl rfl rfl⟩
    split at h
    · obtain ⟨rfl, rfl⟩ := Prod.mk.inj (Option.some.inj h)
      exact ⟨c₀, hstart, rfl⟩
    · next bytes _ =>
      have hsend := hstart.trans (stays_sendPacket bytes x.write)
      split_ifs at h with hrc
      · obtain ⟨rfl, rfl⟩ := Prod.mk.inj (Option.some.inj h)
        exact ⟨_, hsend, by rw [if_neg hrc]⟩
      rw [Option.bind_eq_bind, Option.bind_eq_some_iff] at h
      obtain ⟨⟨ok, c₁⟩, hwait, h⟩ := h
      have hstays :=
        hsend.trans (stays_waitfor (by decide) (by rw [hsend.readbuf]; exact ht.buffer) hwait)
      have hnone : ¬ 0 < c₁.inflightMsgid := by
        rw [hstays.inflightMsgid]
        exact Nat.not_lt.2 ht.inflight.le
      simp only [if_neg hnone] at h
      cases ok with
      | false =>
        obtain ⟨rfl, rfl⟩ := Prod.mk.inj (Option.some.inj h)
        exact ⟨c₁, hstays, rfl⟩
      | true =>
        obtain ⟨rc', -, h⟩ := Option.bind_eq_some_iff.1 h
        obtain ⟨rfl, rfl⟩ := Prod.mk.inj (Option.some.inj h)
        exact ⟨c₁, hstays, rfl⟩

theorem yield_stays {turns : List Turn} {rc : Int} (ht : c.Tidy)
    (h : c.yield turns = some (rc, c')) : Stays c c' :=
  (keeps_yield ht.buffer h).stays (serves_yield h)

/-- Every session of a tidy client is a clean one. -/
theorem disconnect_cases (ht : c.Tidy) (answers : List (Option Nat)) :
    Dropped c (c.disconnect answers).2 ∨
      c.isconnected = false ∧ Stays c (c.disconnect answers).2 := by
  have hsend : ∀ r : Int × MqttClient H, Stays c r.2 →
      Dropped c (if r.2.cleansession then r.2.cleanSession else { r.2 with isconnected := false }) ∨
        c.isconnected = false ∧ Stays c
          (if r.2.cleansession then r.2.cleanSession else { r.2 with isconnected := false }) := by
    intro r hr
    by_cases hclean : r.2.cleansession = true
    · rw [if_pos hclean]
      exact .inl ⟨r.2, hr, rfl⟩
    · have hconn : c.isconnected = false :=
        Bool.eq_false_iff.2 fun hconn => hclean (hr.cleansession.trans (ht.clean hconn))
      rw [if_neg hclean]
      exact .inr
        ⟨hconn, hr.trans ⟨rfl, rfl, (hr.isconnected.trans hconn).symm, rfl, rfl, rfl,
          serves_of_eq rfl rfl rfl⟩⟩
  unfold disconnect
  cases MqttSerialize.disconnect c.readbuf.length with
  | error e => exact hsend (-1, c) (.refl c)
  | ok bytes => exact hsend (c.sendPacket bytes answers) (stays_sendPacket bytes answers)

/-! ### The book -/

/-- The filters of the slots in use. -/
def filters (ms : List (MessageHandler H)) : Multiset (List UInt8) :=
  ((ms.filter (·.topicFilter)).map fun m => cstr m.topicName : List (List UInt8))

theorem filters_cons (m : MessageHandler H) (ms : List (MessageHandler H)) :
    filters (m :: ms) = if m.topicFilter then cstr m.topicName ::ₘ filters ms else filters ms := by
  cases h : m.topicFilter <;> simp [filters, h]

theorem filters_eq_zero {ms : List (MessageHandler H)} (h : ∀ m ∈ ms, m.topicFilter = false) :
    filters ms = 0 := by
  have hnil : ms.filter (·.topicFilter) = [] := List.filter_eq_nil_iff.2 fun m hm => by
    simp [h m hm]
  rw [filters, hnil]
  rfl

theorem card_filters_le (ms : List (MessageHandler H)) : (filters ms).card ≤ ms.length := by
  rw [filters, Multiset.coe_card, List.length_map]
  exact List.length_filter_le _ _

theorem cstr_attach {topicFilter : List UInt8} (h : (cstr topicFilter).length < 254) (handler : H)
    (m : MessageHandler H) :
    cstr (MessageHandler.attach topicFilter handler m).topicName = cstr topicFilter := by
  unfold MessageHandler.attach IpStack.store
  rw [if_pos h, List.append_assoc]
  exact cstr_append_zero (zero_notMem_cstr topicFilter) _

/-- A slot is found as long as there are more slots than filters. -/
theorem addHandler_filters {topicFilter : List UInt8} (hlen : (cstr topicFilter).length < 254)
    (handler : H) (ms : List (MessageHandler H)) :
    filters ((addHandler topicFilter handler ms).getD ms) =
      if (filters ms).card < ms.length then cstr topicFilter ::ₘ filters ms else filters ms := by
  induction ms with
  | nil => rfl
  | cons m ms ih =>
    have hle := card_filters_le ms
    cases hused : m.topicFilter with
    | false =>
      have hadd : addHandler topicFilter handler (m :: ms) =
          some (MessageHandler.attach topicFilter handler m :: ms) := by
        rw [addHandler, if_neg (by simp [hused])]
      have hfree : filters (m :: ms) = filters ms := by rw [filters_cons, if_neg (by simp [hused])]
      rw [hadd, Option.getD_some, hfree, filters_cons, cstr_attach hlen, List.length_cons]
      rw [if_pos (Nat.lt_succ_of_le hle)]
      exact if_pos rfl
    | true =>
      rw [addHandler, if_pos hused]
      rw [filters_cons, if_pos hused, Multiset.card_cons, List.length_cons]
      simp only [Nat.add_lt_add_iff_right]
      cases hadd : addHandler topicFilter handler ms with
      | none =>
        rw [hadd, Option.getD_none] at ih
        rw [Option.map_none, Option.getD_none, filters_cons, if_pos hused]
        split_ifs with hfree
        · rw [if_pos hfree] at ih
          exact absurd (congrArg Multiset.card ih) (by simp)
        · rfl
      | some ms' =>
        rw [hadd, Option.getD_some] at ih
        rw [Option.map_some, Option.getD_some, filters_cons, if_pos hused, ih]
        split_ifs
        · exact Multiset.cons_swap _ _ _
        · rfl

theorem removeHandler_filters (topicFilter : List UInt8) (ms : List (MessageHandler H)) :
    filters (removeHandler topicFilter ms) = (filters ms).erase (cstr topicFilter) := by
  induction ms with
  | nil => rfl
  | cons m ms ih =>
    unfold removeHandler
    cases hused : m.topicFilter with
    | false => simp [hused, filters_cons, ih]
    | true =>
      rw [filters_cons, if_pos hused]
      split_ifs with heq
      · rw [filters_cons, if_neg (by simp), heq.2, Multiset.erase_cons_head]
      · rw [filters_cons, if_pos hused, ih, Multiset.erase_cons_tail _ (fun h => heq ⟨rfl, h⟩)]

theorem addHandler_mem {topicFilter : List UInt8} {handler : H} {ms ms' : List (MessageHandler H)}
    (h : addHandler topicFilter handler ms = some ms') :
    ms'.length = ms.length ∧ ∀ m' ∈ ms', m' ∈ ms ∨ m'.fp = some handler := by
  induction ms generalizing ms' with
  | nil => cases h
  | cons m ms ih =>
    unfold addHandler at h
    split_ifs at h
    · obtain ⟨ms'', hadd, rfl⟩ := Option.map_eq_some_iff.1 h
      obtain ⟨hlen, hmem⟩ := ih hadd
      refine ⟨by simp [hlen], fun m' hm' => ?_⟩
      rcases List.mem_cons.1 hm' with rfl | hm'
      · exact .inl List.mem_cons_self
      · exact (hmem m' hm').imp_left (List.mem_cons_of_mem _)
    · cases h
      refine ⟨rfl, fun m' hm' => ?_⟩
      rcases List.mem_cons.1 hm' with rfl | hm'
      · exact .inr rfl
      · exact .inl (List.mem_cons_of_mem _ hm')

theorem removeHandler_mem (topicFilter : List UInt8) (ms : List (MessageHandler H)) :
    (removeHandler topicFilter ms).length = ms.length ∧
      ∀ m' ∈ removeHandler topicFilter ms, m'.topicFilter = true → m' ∈ ms := by
  induction ms with
  | nil => exact ⟨rfl, fun m' hm' => by cases hm'⟩
  | cons m ms ih =>
    unfold removeHandler
    split_ifs
    · refine ⟨rfl, fun m' hm' hused => ?_⟩
      rcases List.mem_cons.1 hm' with rfl | hm'
      · cases hused
      · exact List.mem_cons_of_mem _ hm'
    · refine ⟨by simp [ih.1], fun m' hm' hused => ?_⟩
      rcases List.mem_cons.1 hm' with rfl | hm'
      · exact List.mem_cons_self
      · exact List.mem_cons_of_mem _ (ih.2 m' hm' hused)

/-- What is subscribed to after a call with this result; `none` where there is no session. -/
def nextBook (slots size : Nat) (book : Option (Multiset (List UInt8))) (call : ClientOp H × Int) :
    Option (Multiset (List UInt8)) :=
  match call.1 with
  | .connect _ _ _ => if call.2 = 0 then some 0 else book
  | .subscribe _ topicFilter _ _ _ =>
    if call.2 = 0 then book.map fun fs => if fs.card < slots then cstr topicFilter ::ₘ fs
      else fs else none
  | .unsubscribe topicFilter _ =>
    if call.2 = 0 then book.map fun fs => fs.erase (cstr topicFilter) else none
  | .publish topicName payload qos _ _ =>
    if call.2 = 0 ∨ TooLong size topicName payload qos then book else none
  | .disconnect _ => none
  | .yield _ => book

/-- Sessions are clean, and a filter fits into its array. -/
def Usual (call : ClientOp H × Int) : Prop :=
  match call.1 with
  | .connect options _ _ => options.cleansession ≠ 0
  | .subscribe _ topicFilter _ _ _ => (cstr topicFilter).length < 254
  | _ => True

structure InBook (slots size : Nat) (c : MqttClient H) (book : Option (Multiset (List UInt8))) :
    Prop where
  tidy : c.Tidy
  slots : c.messageHandlers.length = slots
  size : c.readbuf.length = size
  book : book = if c.isconnected then some (filters c.messageHandlers) else none

variable {slots size : Nat} {book : Option (Multiset (List UInt8))}

theorem InBook.stays (h : InBook slots size c book) (hstays : Stays c c') :
    InBook slots size c' book where
  tidy := h.tidy.stays hstays
  slots := by rw [hstays.messageHandlers, h.slots]
  size := by rw [hstays.readbuf, h.size]
  book := by rw [hstays.isconnected, hstays.messageHandlers, ← h.book]

theorem InBook.dropped (h : InBook slots size c book) (hdropped : Dropped c c') :
    InBook slots size c' none where
  tidy := h.tidy.dropped hdropped
  slots := by
    obtain ⟨c₁, hstays, rfl⟩ := hdropped
    rw [← h.slots, ← hstays.messageHandlers]
    exact List.length_map _
  size := by
    obtain ⟨c₁, hstays, rfl⟩ := hdropped
    exact hstays.readbuf.trans h.size
  book := by rw [hdropped.notConnected]; rfl

/-- Other slots, in a session that goes on. -/
theorem InBook.attach (h : InBook slots size c book) (hconn : c.isconnected = true)
    {ms : List (MessageHandler H)} (hlen : ms.length = c.messageHandlers.length)
    (hfp : ∀ m ∈ ms, m.topicFilter = true → m.fp.isSome = true) :
    InBook slots size { c with messageHandlers := ms } (some (filters ms)) where
  tidy := ⟨fun hc => Bool.noConfusion (hconn.symm.trans hc), h.tidy.clean, h.tidy.inflight, hfp,
    h.tidy.buffer⟩
  slots := hlen.trans h.slots
  size := h.size
  book := (if_pos hconn).symm

/-- A call keeps the client in step with the book. -/
theorem step_book {call : ClientOp H × Int} (h : InBook slots size c book) (husual : Usual call)
    (hstep : c.stepWith call = some c') : InBook slots size c' (nextBook slots size book call) := by
  have hexec := stepWith_eq.1 hstep
  obtain ⟨op, rc⟩ := call
  have hbook := h.book
  cases op with
  | connect options x resend =>
    unfold nextBook
    dsimp only
    rcases connect_cases h.tidy hexec with ⟨hrc, hconn, rfl⟩ | ⟨hconn, c₁, hstays, rfl⟩
    · rw [if_neg hrc]
      exact h
    · have hstart : InBook slots size { c with cleansession := options.cleansession ≠ 0 } book :=
        ⟨⟨h.tidy.free, fun _ => decide_eq_true husual, h.tidy.inflight, h.tidy.attached,
          h.tidy.buffer⟩, h.slots, h.size, h.book⟩
      have h₁ := hstart.stays hstays
      have hfree : ∀ m ∈ c₁.messageHandlers, m.topicFilter = false := by
        rw [hstays.messageHandlers]
        exact h.tidy.free hconn
      split_ifs
      · refine ⟨⟨fun hc => Bool.noConfusion hc, fun _ => ?_, h₁.tidy.inflight, h₁.tidy.attached,
          h₁.tidy.buffer⟩,
          h₁.slots, h₁.size, ?_⟩
        · exact hstays.cleansession.trans (decide_eq_true husual)
        · rw [if_pos rfl, filters_eq_zero hfree]
      · exact h₁
  | subscribe signedChar topicFilter qos handler x =>
    unfold nextBook
    dsimp only
    rcases subscribe_cases h.tidy hexec with ⟨rfl, hconn, c₁, hstays, rfl⟩ | ⟨hrc, hdropped⟩
    · have hadd := addHandler_filters husual handler c.messageHandlers
      rw [h.slots] at hadd
      rw [if_pos rfl, hbook, if_pos hconn, Option.map_some, ← hadd]
      refine (h.stays hstays).attach (hstays.isconnected.trans hconn) ?_ ?_
      · rw [hstays.messageHandlers]
        cases hadd : addHandler topicFilter handler c.messageHandlers with
        | none => rfl
        | some ms => exact (addHandler_mem hadd).1
      · cases hadd : addHandler topicFilter handler c.messageHandlers with
        | none => exact h.tidy.attached
        | some ms =>
          intro m hm hused
          rcases (addHandler_mem hadd).2 m hm with hm | hm
          · exact h.tidy.attached m hm hused
          · rw [hm]; rfl
    · rw [if_neg hrc]
      exact h.dropped hdropped
  | unsubscribe topicFilter x =>
    unfold nextBook
    dsimp only
    rcases unsubscribe_cases h.tidy hexec with ⟨rfl, hconn, c₁, hstays, rfl⟩ | ⟨hrc, hdropped⟩
    · rw [if_pos rfl, hbook, if_pos hconn, Option.map_some, ← removeHandler_filters]
      obtain ⟨hlen, hmem⟩ := removeHandler_mem topicFilter c.messageHandlers
      refine (h.stays hstays).attach (hstays.isconnected.trans hconn) ?_ fun m hm hused => ?_
      · rw [hlen, hstays.messageHandlers]
      · exact h.tidy.attached m (hmem m hm hused) hused
    · rw [if_neg hrc]
      exact h.dropped hdropped
  | publish topicName payload qos retained x =>
    unfold nextBook
    dsimp only
    rw [← h.size]
    rcases publish_cases h.tidy hexec with ⟨hstays, hrc⟩ | ⟨hrc, hconn, hlong, hdropped⟩
    · have h' : InBook slots c.readbuf.length c' book := h.size ▸ h.stays hstays
      cases hconn : c.isconnected with
      | false =>
        rw [hconn, if_neg Bool.false_ne_true] at hbook
        subst hbook
        rwa [ite_self]
      | true => rwa [if_pos (hrc hconn)]
    · rw [if_neg (by rintro (hrc' | hlong') <;> contradiction), h.size]
      exact h.dropped hdropped
  | disconnect answers =>
    cases hexec
    rcases disconnect_cases h.tidy answers with hdropped | ⟨hconn, hstays⟩
    · exact h.dropped hdropped
    · have h' := h.stays hstays
      rw [hconn, if_neg Bool.false_ne_true] at hbook
      rwa [hbook] at h'
  | yield turns => exact h.stays (yield_stays h.tidy hexec)

theorem length_handlersOf {ms : List (MessageHandler H)}
    (h : ∀ m ∈ ms, m.topicFilter = true → m.fp.isSome = true) (topicName : List UInt8) :
    (handlersOf ms topicName).length =
      (filters ms).countP fun f => topicName = f ∨ matchFrom f topicName = true := by
  induction ms with
  | nil => rfl
  | cons m ms ih =>
    obtain ⟨hm, hms⟩ := List.forall_mem_cons.1 h
    rw [handlersOf, List.flatMap_cons, List.length_append, ← handlersOf, ih hms, filters_cons]
    cases hused : m.topicFilter with
    | false => simp
    | true =>
      obtain ⟨fp, hfp⟩ := Option.isSome_iff_exists.1 (hm hused)
      rw [if_pos rfl, Multiset.countP_cons, hfp, Option.toList_some, add_comm]
      simp only [true_and]
      split_ifs <;> rfl

theorem InBook.isconnected (h : InBook slots size c book) : c.isconnected = book.isSome := by
  rw [h.book]
  cases c.isconnected <;> rfl

theorem InBook.length_handlersOf (h : InBook slots size c book) (topicName : List UInt8) :
    (handlersOf c.messageHandlers topicName).length =
      (book.getD 0).countP fun f => topicName = f ∨ matchFrom f topicName = true := by
  rw [MqttClient.length_handlersOf h.tidy.attached, h.book]
  cases hconn : c.isconnected with
  | true => rfl
  | false => rw [filters_eq_zero (h.tidy.free hconn)]; rfl

/-- After any calls, a message is handed over once for each subscription of the book that it
is for. -/
theorem run_book {calls : List (ClientOp H × Int)} (hc : c.Tidy) (hconn : c.isconnected = false)
    (husual : ∀ call ∈ calls, Usual call) (h : Run.run stepWith c calls = some c') :
    let book := calls.foldl (nextBook c.messageHandlers.length c.readbuf.length) none
    c'.isconnected = book.isSome ∧ ∀ topicName, (handlersOf c'.messageHandlers topicName).length =
      (book.getD 0).countP fun f => topicName = f ∨ matchFrom f topicName = true := by
  intro book
  have hstart : InBook c.messageHandlers.length c.readbuf.length c none :=
    ⟨hc, rfl, rfl, by rw [hconn]; rfl⟩
  have hend : InBook c.messageHandlers.length c.readbuf.length c' book :=
    Run.run_follows (fun _ _ _ _ hs hi hstep => step_book hs hi hstep) hstart husual h
  exact ⟨hend.isconnected, hend.length_handlersOf⟩

/-- A packet is written at once and waited for during one turn. -/
def atOnce : Exchange := ⟨[some 64], [prompt]⟩

/-- A session with one subscription, in which a message comes. -/
def subscribing : List (ClientOp Unit × Int) :=
  [(.connect .clean atOnce atOnce, 0), (.subscribe true [97] 1 () atOnce, 0), (.yield [prompt], 0)]

theorem usual_subscribing : ∀ call ∈ subscribing, Usual call := by
  simp [subscribing, Usual, PacketConnectData.clean, cstr]

/-- CONNACK, SUBACK and the message. -/
def answers : List UInt8 := [0x20, 2, 0, 0, 0x90, 3, 0, 1, 1, 0x32, 7, 0, 1, 97, 0, 7, 104, 105]

theorem tidy_idle (slots : Nat) {size : Nat} (bytes : List UInt8) (hsize : 5 ≤ size) :
    (idle slots size bytes : MqttClient H).Tidy where
  free _ m hm := by rw [(List.mem_replicate.1 hm).2]
  clean h := by cases h
  inflight := rfl
  attached m hm h := by rw [(List.mem_replicate.1 hm).2] at h; cases h
  buffer := hsize.trans_eq List.length_replicate.symm

theorem run_book_subscribing : ∃ c', Run.run stepWith (idle 1 64 answers) subscribing = some c' ∧
    c'.isconnected = true ∧ (handlersOf c'.messageHandlers [97]).length = 1 := by
  have hsome : (Run.run stepWith (idle 1 64 answers) subscribing).isSome = true := by decide +kernel
  obtain ⟨c', h⟩ := Option.isSome_iff_exists.1 hsome
  obtain ⟨hconn, hhandlers⟩ := run_book (tidy_idle 1 answers (by decide)) rfl usual_subscribing h
  exact ⟨c', h, hconn, hhandlers [97]⟩

end MqttClient

end SnGateway
