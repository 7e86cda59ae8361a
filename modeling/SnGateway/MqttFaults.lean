import SnGateway.MqttSession

/-!
# Packets that are not whole

A PUBLISH whose topic name does not fit into it is refused only from 128 bytes on: below that the
number of length bytes is 1, which is taken for success. The message then has no topic name, no id
and no payload, and whether the client survives depends on what is subscribed to
(`cycle_malformed`); where it does, nothing is handed over. When `recv` gives up inside of a packet,
the part that was read is lost and the next packet is looked for in the middle of this one
(`readPacket_interrupted`), and so it is in a packet that is longer than the buffer
(`cycle_overflow`). On a connection that the broker has closed the client never comes back
(`yield_closed`).
-/

namespace SnGateway
open RecordStore

namespace MessageHandler
variable {H : Type}

/-- A slot that uses what a message without a topic name does not have; `n` is the length of the
name. -/
def UsesNull (n : Nat) (m : MessageHandler H) : Prop :=
  m.topicFilter = true ∧ if n = 0 then cstr m.topicName = [] ∧ m.fp.isSome = true
    else cstr m.topicName ≠ []

instance (n : Nat) (m : MessageHandler H) : Decidable (m.UsesNull n) := by
  unfold UsesNull
  infer_instance

theorem isFor_null (n : Nat) (m : MessageHandler H) :
    m.isFor ⟨none, n, none⟩ =
      if m.topicFilter = false then some false
      else if cstr m.topicName = [] then some (decide (n = 0))
      else if n = 0 then some false else none := by
  unfold isFor
  cases hused : m.topicFilter with
  | false => rfl
  | true =>
    rw [if_neg (by simp), if_neg (by simp)]
    by_cases hempty : cstr m.topicName = []
    · cases n <;> simp [MqttPacket.equals, MqttClient.isTopicMatched, hempty]
    · have hlen : (cstr m.topicName).length ≠ 0 := by simpa using hempty
      rw [if_neg hempty]
      cases n with
      | zero => simp [MqttPacket.equals, MqttClient.isTopicMatched, hempty, hlen.symm]
      | succ n =>
        rw [if_neg (Nat.succ_ne_zero n)]
        by_cases heq : n + 1 = (cstr m.topicName).length
        · simp [MqttPacket.equals, ← heq]
        · simp [MqttPacket.equals, MqttClient.isTopicMatched, hempty, heq]

end MessageHandler

namespace MqttClient
variable {H : Type} {c c' : MqttClient H}

theorem handlersFor_null (n : Nat) (ms : List (MessageHandler H)) :
    if ∃ m ∈ ms, m.UsesNull n then
      handlersFor ⟨none, n, none⟩ ms = none ∨ ∃ h hs, handlersFor ⟨none, n, none⟩ ms =
        some (h :: hs)
    else handlersFor ⟨none, n, none⟩ ms = some [] := by
  induction ms with
  | nil => simp [handlersFor]
  | cons m ms ih =>
    rw [handlersFor, MessageHandler.isFor_null]
    simp only [List.exists_mem_cons_iff]
    by_cases huses : m.UsesNull n
    · rw [if_pos (.inl huses), if_neg (by simp [huses.1])]
      obtain ⟨-, hcase⟩ := huses
      split_ifs at hcase with hn
      · rw [if_pos hcase.1, hn]
        obtain ⟨fp, hfp⟩ := Option.isSome_iff_exists.1 hcase.2
        cases handlersFor ⟨none, 0, none⟩ ms with
        | none => exact .inl rfl
        | some hs => exact .inr ⟨fp, hs, by simp [hfp]⟩
      · rw [if_neg hcase, if_neg hn]
        exact .inl rfl
    · have hskip : ∀ r : Option Bool,
          r = (if m.topicFilter = false then some false
            else if cstr m.topicName = [] then some (decide (n = 0))
            else if n = 0 then some false else none) →
          ∃ b, r = some b ∧ (if b = true then m.fp.toList else []) = [] := by
        rintro r rfl
        unfold MessageHandler.UsesNull at huses
        cases hused : m.topicFilter with
        | false => exact ⟨false, rfl, rfl⟩
        | true =>
          rw [if_neg (by simp)]
          by_cases hempty : cstr m.topicName = []
          · rw [if_pos hempty]
            by_cases hn : n = 0
            · have hfp : m.fp = none := by simpa [hused, hn, hempty] using huses
              exact ⟨true, by simp [hn], by simp [hfp]⟩
            · exact ⟨false, by simp [hn], rfl⟩
          · rw [if_neg hempty]
            by_cases hn : n = 0
            · exact ⟨false, by simp [hn], rfl⟩
            · exact absurd ⟨hused, by rw [if_neg hn]; exact hempty⟩ huses
      obtain ⟨b, hb, hnil⟩ := hskip _ rfl
      simp only [hb, huses, false_or, Option.bind_eq_bind, Option.bind_some, hnil, List.nil_append]
      cases hrest : handlersFor ⟨none, n, none⟩ ms with
      | none => rw [hrest] at ih; simpa using ih
      | some hs => rw [hrest] at ih; simpa using ih

/-- A message without a topic name and a payload is for nobody, or the client is undone. -/
theorem deliverMessage_null {out : PublishOut} {n : Nat} (htopic : out.topicName = ⟨none, n, none⟩)
    (hpayload : out.payload = none) :
    c.deliverMessage out =
      if (∃ m ∈ c.messageHandlers, m.UsesNull n) ∨ c.defaultMessageHandler.isSome =
        true then none else some c := by
  have hmsg : out.message = none := by rw [PublishOut.message, hpayload]
  have hnull := handlersFor_null n c.messageHandlers
  unfold deliverMessage
  rw [htopic]
  by_cases huses : ∃ m ∈ c.messageHandlers, m.UsesNull n
  · rw [if_pos huses] at hnull
    rw [if_pos (.inl huses)]
    rcases hnull with hnone | ⟨h, hs, hsome⟩
    · rw [hnone]
      rfl
    · rw [hsome]
      simp [hmsg]
  · rw [if_neg huses] at hnull
    rw [hnull]
    cases hdefault : c.defaultMessageHandler with
    | none => simp [huses]
    | some h => simp [hmsg]

theorem acknowledge_null {out : PublishOut} (hid : out.packetid = none)
    (answers : List (Option Nat)) :
    c.acknowledge out answers = if out.qos = 1 ∨ out.qos = 2 then none else some (-1, c) := by
  unfold acknowledge sendAck
  rw [hid]
  by_cases h1 : out.qos = 1
  · rw [if_pos h1, if_pos (.inl h1)]
  · by_cases h2 : out.qos = 2
    · rw [if_neg h1, if_pos h2, if_pos (.inr h2)]
    · rw [if_neg h1, if_neg h2, if_neg (not_or.2 ⟨h1, h2⟩)]

/-- A frame whose topic name does not fit: `n` is the length that it names, or 0 where there is no
room for that. -/
def Malformed (f : MqttFrame) (n : Nat) : Prop :=
  f.type = MsgType.publish.code ∧
    (f.body.length < 2 ∧ n = 0 ∨ ∃ tail, n < 2 ^ 16 ∧ tail.length < n ∧
      f.body = MqttPacket.writeInt n ++ tail)

/-- What makes a malformed PUBLISH the end of the client. -/
def Undone (c : MqttClient H) (f : MqttFrame) (n : Nat) : Prop :=
  f.body.length < 128 ∧
    ((∃ m ∈ c.messageHandlers, m.UsesNull n) ∨ c.defaultMessageHandler.isSome = true ∨
    MqttHeader.qos f.header = 1 ∨ MqttHeader.qos f.header = 2)

/-- The session goes on, and nothing was handed over or acknowledged. -/
structure Ignores (c c' : MqttClient H) : Prop where
  keeps : Keeps c c'
  deliveries : c'.responder.deliveries = c.responder.deliveries
  acknowledgements : c'.responder.acknowledgements = c.responder.acknowledgements

theorem ignores_keepalive (hbuf : 5 ≤ c.readbuf.length) (turn : Turn) :
    Ignores c (c.keepalive turn) where
  keeps := keeps_keepalive turn
  deliveries := by rw [(keepalive_responder hbuf turn).1, Responder.deliveries_keepalive]
  acknowledgements := by
    rw [(keepalive_responder hbuf turn).1, Responder.acknowledgements_keepalive]

theorem cyclePublish_malformed {f : MqttFrame} {n : Nat} {readbuf : List UInt8}
    (hbuf : c.readbuf = IpStack.store readbuf f.bytes) (hf : f.body.length < 128 ^ 4)
    (hbad : Malformed f n) (turn : Turn) :
    c.Undone f n ∧ c.cyclePublish turn = none ∨
      ¬ c.Undone f n ∧ ∃ exit rc, c.cyclePublish turn = some (exit, rc, c) := by
  obtain ⟨htype, hbad⟩ := hbad
  have hdeserialize : ∃ out, MqttDeserialize.publish c.readbuf =
        some (((MqttPacket.encode f.body.length).length : Int), some out) ∧
      out.topicName = ⟨none, n, none⟩ ∧ out.payload = none ∧ out.packetid = none ∧
      out.qos = MqttHeader.qos f.header := by
    rw [hbuf]
    rcases hbad with ⟨hshort, rfl⟩ | ⟨tail, hn, htail, hbody⟩
    · refine ⟨MqttDeserialize.headerOut f, ?_, rfl, rfl, rfl, rfl⟩
      rw [MqttPacket.encode_of_lt (by omega)]
      exact MqttDeserialize.publish_short htype hshort
    · exact ⟨_, MqttDeserialize.publish_long htype hf hn htail hbody, rfl, rfl, rfl, rfl⟩
  obtain ⟨out, hout, htopic, hpayload, hid, hqos⟩ := hdeserialize
  have hone : ((MqttPacket.encode f.body.length).length : Int) = 1 ↔ f.body.length < 128 := by
    have hpos := (MqttPacket.closed_encode f.body.length).length_pos
    have := MqttPacket.length_encode_le_iff (n := f.body.length) (k := 0)
    simp only [Nat.zero_add, Nat.pow_one] at this
    omega
  unfold cyclePublish Undone
  simp only [hout, Option.bind_eq_bind, Option.bind_some]
  by_cases hlong : f.body.length < 128
  · rw [if_neg (not_not.2 (hone.2 hlong)), deliverMessage_null htopic hpayload, hqos]
    simp only [hlong, true_and]
    by_cases hnull : (∃ m ∈ c.messageHandlers, m.UsesNull n) ∨ c.defaultMessageHandler.isSome = true
    · rw [if_pos hnull]
      exact .inl ⟨or_assoc.1 (.inl hnull), rfl⟩
    · rw [if_neg hnull, Option.bind_some, ← or_assoc, or_iff_right hnull]
      by_cases hzero : MqttHeader.qos f.header = 0
      · rw [if_pos hzero]
        exact .inr ⟨by omega, false, 0, rfl⟩
      · rw [if_neg hzero, acknowledge_null hid, hqos]
        split_ifs with hack
        · exact .inl ⟨hack, rfl⟩
        · exact .inr ⟨hack, true, -1, rfl⟩
  · rw [if_pos (fun h => hlong (hone.1 h))]
    exact .inr ⟨fun h => hlong h.1, true, 0, rfl⟩

theorem cycle_read_malformed {f : MqttFrame} {s' : IpStack} {n : Nat}
    (hread : c.ipstack.readPacket c.readbuf =
      some ((f.type : Int), IpStack.store c.readbuf f.bytes, s'))
    (hf : f.body.length < 128 ^ 4) (hfits : f.bytes.length ≤ c.readbuf.length)
    (hbuf : 5 ≤ c.readbuf.length) (hbad : Malformed f n) (turn : Turn) :
    c.Undone f n ∧ c.cycle turn = none ∨
      ¬ c.Undone f n ∧ ∃ rc c', c.cycle turn = some (rc, c') ∧ Ignores c c' ∧ c'.ipstack = s' := by
  have htype := hbad.1
  set c₁ : MqttClient H := { c with readbuf := IpStack.store c.readbuf f.bytes, ipstack := s' } with
    hc₁
  have hkeep : Keeps c c₁ := keeps_input s' (IpStack.length_store hfits)
  have hcycle : c.cycle turn = (c₁.cyclePublish turn).bind fun r =>
      some (if r.2.1 = 0 then (f.type : Int) else r.2.1, if r.1 then r.2.2
        else r.2.2.keepalive turn) := by
    rw [cycle, hread]
    simp only [Option.bind_eq_bind, Option.bind_some, htype]
    rw [if_neg (by omega), if_pos trivial]
  rw [hcycle]
  rcases cyclePublish_malformed (c := c₁) rfl hf hbad turn with ⟨hundone, hnone⟩ |
    ⟨hundone, exit, rc, hsome⟩
  · rw [hnone]
    exact .inl ⟨hundone, rfl⟩
  · rw [hsome]
    refine .inr ⟨hundone, _, _, rfl, ?_⟩
    have hignores : Ignores c c₁ := ⟨hkeep, rfl, rfl⟩
    have hkeepalive := ignores_keepalive (c := c₁) (by rw [hkeep.readbuf]; exact hbuf) turn
    cases exit with
    | true => exact ⟨hignores, rfl⟩
    | false =>
      refine ⟨⟨hkeep.trans hkeepalive.keeps, hkeepalive.deliveries, hkeepalive.acknowledgements⟩,
        ?_⟩
      exact (keepalive_responder (c := c₁) (by rw [hkeep.readbuf]; exact hbuf) turn).2.1

/-- What a turn makes of a malformed PUBLISH that fits into the buffer. One that does not undo the
client is passed over. -/
theorem cycle_malformed {f : MqttFrame} {es : List (Option UInt8)} {n : Nat}
    (hevents : c.ipstack.events = f.bytes.map some ++ es)
    (hfits : f.bytes.length ≤ c.readbuf.length) (hbuf : 5 ≤ c.readbuf.length)
    (hsize : c.readbuf.length ≤ 128 ^ 4) (hbad : Malformed f n) (turn : Turn) :
    (c.cycle turn = none ↔ c.Undone f n) ∧
      (¬ c.Undone f n → ∃ rc c', c.cycle turn = some (rc, c') ∧ Ignores c c' ∧
        c'.ipstack.events = es ∧ c'.ipstack.closed = c.ipstack.closed) := by
  have hf := body_lt_of_fits hfits hsize
  obtain ⟨s', hread, hevents', hclosed⟩ := IpStack.readPacket_frame hevents hfits hf
  rcases cycle_read_malformed hread hf hfits hbuf hbad turn with ⟨hundone, hnone⟩ |
    ⟨hundone, rc, c', hcycle, hignores, hstack⟩
  · exact ⟨iff_of_true hnone hundone, fun h => absurd hundone h⟩
  · refine ⟨iff_of_false (by rw [hcycle]; simp) hundone, fun _ => ⟨rc, c', hcycle, hignores, ?_⟩⟩
    rw [hstack]
    exact ⟨hevents', hclosed⟩

/-- The topic name is to have five bytes, and there are none: with a default handler the client is
undone, without one the packet is passed over. -/
theorem cycle_malformed_handler :
    cycle prompt { (idle 1 64 [0x30, 2, 0, 5] : MqttClient Unit) with
      defaultMessageHandler := some () } = none ∧
      ∃ rc c', cycle prompt (idle 1 64 [0x30, 2, 0, 5] : MqttClient Unit) = some (rc, c') ∧
        c'.responder.deliveries = [] ∧ c'.ipstack.events = [] := by
  have hbad : Malformed ⟨0x30, [0, 5]⟩ 5 := ⟨rfl, .inr ⟨[], by decide, by decide, rfl⟩⟩
  have hevents : IpStack.events ⟨[.bytes [0x30, 2, 0, 5]], false⟩ =
      (MqttFrame.bytes ⟨0x30, [0, 5]⟩).map some ++ [] := by
    decide +kernel
  refine ⟨?_, ?_⟩
  · exact (cycle_malformed hevents (by decide +kernel) (by decide) (by decide) hbad prompt).1.2
      ⟨by decide, .inr (.inl rfl)⟩
  · have hsafe : ¬ (idle 1 64 [0x30, 2, 0, 5] : MqttClient Unit).Undone ⟨0x30, [0, 5]⟩ 5 := by
      simp [Undone, idle, MessageHandler.UsesNull, MqttHeader.qos]
    obtain ⟨rc, c', hcycle, hignores, hrest, -⟩ :=
      (cycle_malformed hevents (by decide +kernel) (by decide) (by decide) hbad prompt).2 hsafe
    exact ⟨rc, c', hcycle, hignores.deliveries, hrest⟩

end MqttClient

/-! ### Packets that `recv` gives up in -/

namespace MqttPacket

/-- Digits that are cut off stand for the number they hold so far. -/
theorem decodeFrom_cut {σ : Type} {getcharfn : σ → Option (Option UInt8 × σ)} {digits : List UInt8}
    {left multiplier value : Nat} {s s' s'' : σ} (hgives : Gives getcharfn s digits s')
    (hcut : getcharfn s' = some (none, s'')) (hdigits : ∀ b ∈ digits, 128 ≤ b.toNat)
    (hlen : digits.length < left) :
    decodeFrom getcharfn left multiplier value s =
      some (digits.length + 1, value + multiplier * Varint.value digits, s'') := by
  induction digits generalizing left multiplier value s with
  | nil =>
    obtain ⟨left, rfl⟩ : ∃ k, left = k + 1 := ⟨left - 1, by rw [List.length_nil] at hlen; omega⟩
    have hsame : s = s' := hgives
    rw [hsame, decodeFrom, hcut]
    simp [Varint.value]
  | cons b digits ih =>
    obtain ⟨t, hread, hgives⟩ := hgives
    obtain ⟨hb, hdigits⟩ := List.forall_mem_cons.1 hdigits
    rw [List.length_cons] at hlen
    obtain ⟨left, rfl⟩ : ∃ k, left = k + 1 := ⟨left - 1, by omega⟩
    rw [decodeFrom, hread]
    dsimp only
    rw [if_neg (by omega), ih hgives hdigits (by omega), Option.map_some, Varint.value,
      List.length_cons]
    exact congrArg some (Prod.ext rfl (Prod.ext (by dsimp only; ring) rfl))

end MqttPacket

namespace IpStack
variable {s : IpStack} {readbuf : List UInt8} {es : List (Option UInt8)}

/-- When `recv` gives up inside of the remaining length, what comes next is taken for the body, as
much of it as the digits before say. -/
theorem readPacket_cut (f : MqttFrame) (digits : List UInt8)
    (h : s.events = some f.header :: (digits.map some ++ none :: (f.body.map some ++ es)))
    (hdigits : ∀ b ∈ digits, 128 ≤ b.toNat) (hlen : digits.length < 4)
    (hbody : f.body.length = Varint.value digits) (hfits : f.bytes.length ≤ readbuf.length) :
    ∃ s' : IpStack, readPacket readbuf s = some ((f.type : Int), store readbuf f.bytes, s') ∧
      s'.events = es ∧ s'.closed = s.closed := by
  rw [MqttFrame.length_bytes] at hfits
  obtain ⟨s₁, hheader, hevents₁, hclosed₁⟩ := read_bytes [f.header] h
  obtain ⟨s₂, hgives, hevents₂, hclosed₂⟩ := gives_getchar hevents₁
  obtain ⟨s₃, hcut, hevents₃, hclosed₃⟩ := read_failed [] hevents₂ Nat.one_pos
  obtain ⟨s₄, hread, hevents₄, hclosed₄⟩ := read_bytes f.body hevents₃
  have hdecode : s₁.decodePacket = some (digits.length + 1, f.body.length, s₃) := by
    have hfail : getchar s₂ = some (none, s₃) := by rw [getchar, hcut]; rfl
    rw [decodePacket, MqttPacket.decode, MqttPacket.decodeFrom_cut hgives hfail hdigits hlen, hbody,
      Nat.zero_add, Nat.one_mul]
  refine ⟨s₄, ?_, hevents₄, ((hclosed₄.trans hclosed₃).trans hclosed₂).trans hclosed₁⟩
  simp only [readPacket, show s.read 1 = some (1, [f.header], s₁) from hheader, Option.bind_eq_bind,
    Option.bind_some, hdecode,
    hread]
  rw [if_neg (by simp), if_neg (by rw [length_head]; omega), if_neg (by simp), List.append_assoc]
  rfl

/-- When it gives up inside of the body, that part of the packet is lost, and what comes next is
taken for the next packet. -/
theorem readPacket_interrupted {f : MqttFrame} {part : List UInt8}
    (h : s.events = (f.header :: (MqttPacket.encode f.body.length ++ part)).map some ++ none :: es)
    (hpart : part.length < f.body.length) (hfits : f.bytes.length ≤ readbuf.length)
    (hf : f.body.length < 128 ^ 4) :
    ∃ s' : IpStack, readPacket readbuf s =
        some (-1, store readbuf (f.header :: (MqttPacket.encode f.body.length ++ part)), s') ∧
      s'.events = es ∧ s'.closed = s.closed := by
  rw [MqttFrame.length_bytes] at hfits
  rw [List.map_cons, List.cons_append, List.map_append, List.append_assoc] at h
  obtain ⟨s₁, hheader, hevents₁, hclosed₁⟩ := read_bytes [f.header] h
  obtain ⟨s₂, hgives, hevents₂, hclosed₂⟩ := gives_getchar hevents₁
  obtain ⟨s₃, hread, hevents₃, hclosed₃⟩ := read_failed part hevents₂ hpart
  have hdecode :
    s₁.decodePacket = some ((MqttPacket.encode f.body.length).length, f.body.length, s₂) :=
    MqttPacket.decode_gives hgives hf
  refine ⟨s₃, ?_, hevents₃, (hclosed₃.trans hclosed₂).trans hclosed₁⟩
  simp only [readPacket, show s.read 1 = some (1, [f.header], s₁) from hheader, Option.bind_eq_bind,
    Option.bind_some, hdecode,
    hread]
  rw [if_neg (by simp), if_neg (by rw [length_head]; omega), if_pos ⟨by omega, by omega⟩,
    List.append_assoc]
  rfl

theorem readPacket_interrupted_body : ∃ s' : IpStack,
    readPacket (List.replicate 64 0) ⟨[.bytes [0x32, 5, 0, 1], .failed, .bytes [97, 0, 7]], false⟩ =
        some (-1, store (List.replicate 64 0) (0x32 :: (MqttPacket.encode 5 ++ [0, 1])), s') ∧
      s'.events = [some 97, some 0, some 7] ∧ s'.closed = false :=
  readPacket_interrupted (f := ⟨0x32, [0, 1, 97, 0, 7]⟩) (by decide +kernel) (by decide)
    (by decide +kernel) (by decide)

end IpStack

namespace MqttClient
variable {H : Type} {c c' : MqttClient H}

/-- When `recv` gives up behind the first byte of a PUBLISH, an empty PUBLISH is read. -/
theorem cycle_header_cut {header : UInt8} {es : List (Option UInt8)}
    (hevents : c.ipstack.events = some header :: none :: es)
    (htype : MqttHeader.type header = MsgType.publish.code) (hbuf : 5 ≤ c.readbuf.length)
    (turn : Turn) :
    c.cycle turn = none ↔ (∃ m ∈ c.messageHandlers, m.topicFilter = true ∧ cstr m.topicName = [] ∧
      m.fp.isSome = true) ∨
      c.defaultMessageHandler.isSome = true ∨ MqttHeader.qos header = 1 ∨
      MqttHeader.qos header = 2 := by
  have hlen : MqttFrame.bytes ⟨header, []⟩ = [header, 0] := by
    rw [MqttFrame.bytes, List.length_nil, MqttPacket.encode_of_lt (by omega)]
    rfl
  have hfits : (MqttFrame.bytes ⟨header, []⟩).length ≤ c.readbuf.length := by
    rw [hlen]
    exact Nat.le_trans (show 2 ≤ 5 by omega) hbuf
  obtain ⟨s', hread, -⟩ := IpStack.readPacket_cut ⟨header, []⟩ [] hevents (by simp)
    (by simp) rfl hfits
  have hundone : c.cycle turn = none ↔ c.Undone ⟨header, []⟩ 0 := by
    rcases cycle_read_malformed hread (by simp) hfits hbuf ⟨htype, .inl ⟨by simp, rfl⟩⟩ turn with
      ⟨hundone, hnone⟩ | ⟨hundone, rc, c', hcycle, -⟩
    · exact iff_of_true hnone hundone
    · exact iff_of_false (by rw [hcycle]; simp) hundone
  rw [hundone]
  simp [Undone, MessageHandler.UsesNull]

theorem cycle_header_cut_ack :
    cycle prompt { (idle 1 64 [] : MqttClient Unit) with
      ipstack := ⟨[.bytes [0x32], .failed], false⟩ } = none := by
  have hevents : IpStack.events ⟨[.bytes [0x32], .failed], false⟩ = [some 0x32, none] := rfl
  exact (cycle_header_cut hevents rfl (by decide) prompt).2 (.inr (.inr (.inl rfl)))

/-- A message that is too long for the buffer is not skipped: only its length was read, and its
topic name and its payload are taken for the packets that come next. Who wrote the payload speaks as
the broker then. -/
theorem cycle_overflow {p : Publication} {inner arrivals : List Arrival} (hqos : p.qos = 0)
    (htopic : p.topicName.length < 128)
    (hpayload : p.payload.map some = inner.flatMap Arrival.events)
    (hevents : c.ipstack.events = p.frame.bytes.map some ++ arrivals.flatMap Arrival.events)
    (hopen : c.ipstack.closed = false) (hlong : c.readbuf.length < p.frame.bytes.length)
    (hf : p.frame.body.length < 128 ^ 4) (hname : p.topicName.length + 2 ≤ c.readbuf.length)
    (hfits : ∀ a ∈ inner ++ arrivals, a.Fits c.readbuf.length) (hbuf : 5 ≤ c.readbuf.length)
    (hsize : c.readbuf.length ≤ 128 ^ 4) (turn : Turn) :
    ∃ c' htype, c.cycle turn = some (IpStack.bufferOverflow, c') ∧ Keeps c c' ∧
      c'.responder.deliveries = c.responder.deliveries ∧
      c'.Receiving (.other ⟨0, p.topicName⟩ htype :: (inner ++ arrivals)) := by
  have hbody : p.frame.body = MqttFrame.bytes ⟨0, p.topicName⟩ ++ p.payload := by
    have hbyte : p.topicName.length < 256 := by omega
    rw [MqttFrame.bytes, MqttPacket.encode_of_lt htopic]
    simp [Publication.frame, MqttSerialize.publishFrame, MqttSerialize.idBytes, hqos,
      MqttPacket.lenString, MqttPacket.writeInt,
      Nat.div_eq_of_lt hbyte, Nat.mod_eq_of_lt hbyte]
  obtain ⟨s', hread, hevents', hclosed⟩ := IpStack.readPacket_overflow hevents hlong hf hbuf
  have hhead := MqttPacket.length_encode_le (k := 3) hf
  have hroom : (p.frame.header :: MqttPacket.encode p.frame.body.length).length ≤
      c.readbuf.length := by
    rw [List.length_cons]
    omega
  set c₁ : MqttClient H :=
    { c with
      readbuf := IpStack.store c.readbuf (p.frame.header :: MqttPacket.encode p.frame.body.length)
      ipstack := s' } with hc₁
  have hkeep : Keeps c c₁ := keeps_input s' (IpStack.length_store hroom)
  obtain ⟨hresp, hip, hrb⟩ := keepalive_responder (c := c₁) (by rw [hkeep.readbuf]; exact hbuf) turn
  have hkeep := hkeep.trans (keeps_keepalive turn)
  have htype : MqttFrame.type ⟨0, p.topicName⟩ ≠ MsgType.publish.code :=
    show MqttHeader.type 0 ≠ _ by decide
  refine ⟨_, htype, ?_, hkeep, ?_, ?_⟩
  · rw [cycle, hread]
    rfl
  · rw [hresp, Responder.deliveries_keepalive]
    rfl
  · refine ⟨?_, by rw [hip]; exact hclosed.trans hopen,
      ?_, by rw [hkeep.readbuf]; exact hbuf, by rw [hkeep.readbuf]; exact hsize⟩
    · rw [hip]
      refine hevents'.trans ?_
      rw [hbody, List.map_append, hpayload, List.flatMap_cons, List.flatMap_append,
        List.append_assoc]
      rfl
    · rw [hkeep.readbuf]
      refine List.forall_mem_cons.2 ⟨fun f hf => ?_, hfits⟩
      obtain rfl := Option.some.inj hf
      rw [MqttFrame.length_bytes, MqttPacket.encode_of_lt htopic]
      show 1 + 1 + p.topicName.length ≤ _
      omega

/-- A message whose payload is `hello`. -/
def smuggled : Publication :=
  ⟨false, 0, false, 0, [97], [0x32, 7, 0, 1, 97, 0, 7, 104, 105], by decide, by decide,
    hello.topicName_lt⟩

/-- The buffer has two bytes less than the message needs. -/
def small : MqttClient Unit := idle 1 12 [0x30, 12, 0, 1, 97, 0x32, 7, 0, 1, 97, 0, 7, 104, 105]

theorem cycle_overflow_hello : ∃ c' htype, small.cycle prompt = some (-2, c') ∧
    c'.Receiving [.other ⟨0, [97]⟩ htype, .publication hello] := by
  have hpayload : smuggled.payload.map some = [Arrival.publication hello].flatMap
      Arrival.events := by decide +kernel
  have hevents : small.ipstack.events = smuggled.frame.bytes.map some ++
      ([] : List Arrival).flatMap Arrival.events := by
    decide +kernel
  obtain ⟨c', htype, hcycle, -, -, hreceiving⟩ :=
    cycle_overflow rfl (by decide) hpayload hevents rfl (by decide +kernel)
    (by decide) (by decide) (by decide +kernel) (by decide) (by decide) prompt
  exact ⟨c', htype, hcycle, hreceiving⟩

/-- Packets that came before the connection was closed are still read; the turn after them never
ends, since `recv` returns 0 for ever. It is reached when no turn before it is the last one. -/
theorem yield_closed {arrivals : List Arrival} {turns : List Turn}
    (hevents : c.ipstack.events = arrivals.flatMap Arrival.events)
    (hclosed : c.ipstack.closed = true) (hfits : ∀ a ∈ arrivals, a.Fits c.readbuf.length)
    (hbuf : 5 ≤ c.readbuf.length) (hsize : c.readbuf.length ≤ 128 ^ 4) :
    c.yield turns = none ↔ arrivals.length < turns.length ∧ ∀ t ∈ turns.zip arrivals,
      t.1.goesOn t.2 = true := by
  induction turns generalizing c arrivals with
  | nil => simp [yield]
  | cons turn turns ih =>
    cases arrivals with
    | nil =>
      have hread := (IpStack.readPacket_nothing hevents c.readbuf).1 hclosed
      refine iff_of_true ?_ ⟨Nat.succ_pos _, by simp⟩
      rw [yield, cycle, hread]
      rfl
    | cons a arrivals =>
      rw [List.flatMap_cons] at hevents
      obtain ⟨hfit, hfits⟩ := List.forall_mem_cons.1 hfits
      obtain ⟨c', hcycle, hkeep, -, ⟨hevents', hclosed'⟩, -⟩ :=
        cycle_arrival turn hevents hfit hbuf hsize
      have hrc : 0 ≤ (c.responder.next (0 < c.keepAliveInterval) c.receivers (turn, a)).1 ↔
          turn.goesOn a = true := next_nonneg
      rw [yield, hcycle]
      simp only [Option.bind_eq_bind, Option.bind_some, List.zip_cons_cons, List.forall_mem_cons,
        List.length_cons,
        Nat.add_lt_add_iff_right]
      by_cases hgoes : turn.goesOn a = true
      · rw [if_neg (not_lt.2 (hrc.2 hgoes)), ih hevents' (hclosed'.trans hclosed)
          (by rw [hkeep.readbuf]; exact hfits)
          (by rw [hkeep.readbuf]; exact hbuf) (by rw [hkeep.readbuf]; exact hsize)]
        simp [hgoes]
      · rw [if_pos (not_le.1 fun h => hgoes (hrc.1 h))]
        exact iff_of_false (by simp) fun h => hgoes h.2.1

theorem yield_closed_hello :
    yield [prompt, prompt]
        { (idle 1 64 [] : MqttClient Unit) with
          ipstack := ⟨[.bytes [0x32, 7, 0, 1, 97, 0, 7, 104, 105]], true⟩ } = none := by
  have hevents : IpStack.events ⟨[.bytes [0x32, 7, 0, 1, 97, 0, 7, 104, 105]], true⟩ =
      [Arrival.publication hello].flatMap Arrival.events := by
    decide +kernel
  exact (yield_closed hevents rfl (by decide +kernel) (by decide) (by decide)).2
    ⟨by decide, by decide⟩

end MqttClient

end SnGateway
