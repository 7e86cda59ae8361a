import SnGateway.MqttMailbox

/-!
# The session with the broker

`PahoMqttMessageHandler` with the client it owns. `loop` reads the configuration and connects while
there is no session, and drops the result of `yield` while there is one. So only a failed request
ends a session: `loop` never does, and what was subscribed to is gone with the session
(`run_session`).
-/

namespace SnGateway
open RecordStore

/-- The one handler that is ever passed to the client. -/
inductive ArrivalHandler where
  | messageArrived
deriving DecidableEq

/-- What a new connection to the broker brings: the results of `IPStack::connect`, the stack that is
connected then, and how CONNECT goes on it. -/
structure Dial where
  connectHost : List UInt8 → UInt16 → Int
  connectIp : BitVec 32 → UInt16 → Int
  ipstack : IpStack
  x : Exchange
  resend : Exchange

/-- The stack is the one of the client, which has a reference to it. One that is connected and then
not used is left out. -/
structure BrokerSession where
  paho : PahoMqttMessageHandler
  client : MqttClient ArrivalHandler

namespace BrokerSession

/-- `client->connect` on the new connection. -/
def connectClient (dial : Dial) (d : ConnectData) (s : BrokerSession) :
    Option (Int × MqttClient ArrivalHandler) :=
  { s.client with ipstack := dial.ipstack }.connect d.packet dial.x dial.resend

/-- A call that does not come back is seen to by `getConfigAndConnect`. -/
def network (dial : Dial) (s : BrokerSession) : Network where
  connectHost := dial.connectHost
  connectIp := dial.connectIp
  connectClient d := ((s.connectClient dial d).map Prod.fst).getD 0

def getConfigAndConnect (core : Persistent) (dial : Dial) (s : BrokerSession) :
    Option (Bool × BrokerSession) := do
  let (ok, data, paho) ← s.paho.getConfigAndConnect (s.network dial) core
  match data with
  | none => some (ok, { s with paho := paho })
  | some d =>
    let (_, client) ← s.connectClient dial d
    some (ok, ⟨paho, client⟩)

/-- The result of `yield` is dropped. -/
def loop (core : Persistent) (dial : Dial) (turns : List Turn) (s : BrokerSession) :
    Option (Bool × BrokerSession) :=
  if s.client.isconnected then (s.client.yield turns).map fun r => (true, { s with client := r.2 })
  else s.getConfigAndConnect core dial

def publish (topic payload : List UInt8) (qos : Nat) (retained : Bool) (x : Exchange)
    (s : BrokerSession) : Option (Bool × BrokerSession) :=
  if 2 < qos then some (false, s)
  else (s.client.publish topic payload qos retained x).map fun r =>
    (r.1 = 0, { s with client := r.2 })

def subscribe (signedChar : Bool) (topic : List UInt8) (qos : Nat) (x : Exchange)
    (s : BrokerSession) : Option (Bool × BrokerSession) :=
  if 2 < qos then some (false, s)
  else (s.client.subscribe signedChar topic qos .messageArrived x).map fun r =>
    (r.1 = 0, { s with client := r.2 })

def unsubscribe (topic : Option (List UInt8)) (x : Exchange) (s : BrokerSession) :
    Option (Bool × BrokerSession) :=
  match topic with
  | none => some (true, s)
  | some topic =>
    if (cstr topic).length = 0 then some (true, s)
    else (s.client.unsubscribe topic x).map fun r => (r.1 = 0, { s with client := r.2 })

def disconnect (answers : List (Option Nat)) (s : BrokerSession) : BrokerSession :=
  { s with client := (s.client.disconnect answers).2 }

end BrokerSession

/-- The calls of the handler. -/
inductive BrokerOp where
  | loop (core : Persistent) (dial : Dial) (turns : List Turn)
  | publish (topic payload : List UInt8) (qos : Nat) (retained : Bool) (x : Exchange)
  | subscribe (signedChar : Bool) (topic : List UInt8) (qos : Nat) (x : Exchange)
  | unsubscribe (topic : Option (List UInt8)) (x : Exchange)
  | disconnect (answers : List (Option Nat))

namespace BrokerSession
variable {s s' : BrokerSession}

def exec (s : BrokerSession) : BrokerOp → Option (Bool × BrokerSession)
  | .loop core dial turns => s.loop core dial turns
  | .publish topic payload qos retained x => s.publish topic payload qos retained x
  | .subscribe signedChar topic qos x => s.subscribe signedChar topic qos x
  | .unsubscribe topic x => s.unsubscribe topic x
  | .disconnect answers => some (true, s.disconnect answers)

/-- A call with this result. -/
def stepWith (s : BrokerSession) (call : BrokerOp × Bool) : Option BrokerSession :=
  match s.exec call.1 with
  | some (ok, s') => if ok = call.2 then some s' else none
  | none => none

theorem stepWith_eq {call : BrokerOp × Bool} :
    s.stepWith call = some s' ↔ s.exec call.1 = some (call.2, s') := by
  obtain ⟨op, ok⟩ := call
  unfold stepWith
  cases hexec : s.exec op with
  | none => simp
  | some r =>
    obtain ⟨ok', s₁⟩ := r
    rw [Option.some.injEq, Prod.mk.injEq]
    dsimp only
    split_ifs with hok <;> simp [hok]

end BrokerSession

/-! ### What is handed to the client -/

namespace PahoMqttMessageHandler

/-- Every overload of `connect` asks for a clean session. -/
theorem cleansession_chosenData {config : MqttConfig} {login : MqttLogin} {will : MqttWill}
    {hasLogin hasWill : Bool} {d : ConnectData}
    (hd : chosenData config login will hasLogin hasWill = some d) : d.cleansession = 1 := by
  cases hasLogin <;> cases hasWill
  · obtain rfl := Option.some.inj hd
    rfl
  · obtain ⟨q, -, rfl⟩ := Option.map_eq_some_iff.1 hd
    rfl
  · obtain rfl := Option.some.inj hd
    rfl
  · obtain ⟨q, -, rfl⟩ := Option.map_eq_some_iff.1 hd
    rfl

/-- Either nothing is handed to the client, or what `chosenData` makes of the configuration. -/
theorem getConfigAndConnect_cases {net : Network} {core : Persistent}
    {h h' : PahoMqttMessageHandler} {ok : Bool} {data : Option ConnectData}
    (hconnect : h.getConfigAndConnect net core = some (ok, data, h')) :
    data = none ∧ ok = false ∨ ∃ d config login will hasLogin hasWill, data = some d ∧
      ok = decide (net.connectClient d = 0) ∧ chosenData config login will hasLogin hasWill =
        some d := by
  cases hconfig : core.getMqttConfig configArrays with
  | none => simp [getConfigAndConnect, hconfig] at hconnect
  | some r =>
    obtain ⟨found, config⟩ := r
    cases found with
    | false =>
      simp only [getConfigAndConnect, hconfig, Bool.not_false, if_true] at hconnect
      split_ifs at hconnect
      cases hconnect
      exact .inl ⟨rfl, rfl⟩
    | true =>
      cases hwill : core.getMqttWill willArrays with
      | none =>
        simp only [getConfigAndConnect, hconfig, hwill, Bool.not_true, Bool.false_eq_true, if_false]
          at hconnect
        split_ifs at hconnect
        cases hlogin : core.getMqttLoginConfig loginArrays <;> simp [hlogin] at hconnect
      | some r =>
        obtain ⟨hasWill, will⟩ := r
        obtain ⟨hasLogin, login, hlogin⟩ := login_of_will hwill
        rw [getConfigAndConnect_eq hconfig hlogin hwill] at hconnect
        split_ifs at hconnect
        obtain ⟨rfl, hrest⟩ := Prod.mk.inj (Option.some.inj hconnect)
        obtain ⟨rfl, rfl⟩ := Prod.mk.inj hrest
        unfold connectWith
        split_ifs
        · exact .inl ⟨rfl, rfl⟩
        · cases hdata : chosenData config login will hasLogin hasWill with
          | none => exact .inl ⟨rfl, rfl⟩
          | some d => exact .inr ⟨d, config, login, will, hasLogin, hasWill, rfl, rfl, hdata⟩

variable {net net' : Network} {core : Persistent} {g h : PahoMqttMessageHandler}

end PahoMqttMessageHandler

/-! ### The session over a run -/

namespace BrokerSession
variable {s s' : BrokerSession} {book : Option (Multiset (List UInt8))}

/-- What is subscribed to after a call with this result; `none` where there is no session. -/
def nextBook (book : Option (Multiset (List UInt8))) (call : BrokerOp × Bool) :
    Option (Multiset (List UInt8)) :=
  match call.1 with
  | .loop _ _ _ => if book.isNone && call.2 then some 0 else book
  | .publish topic payload qos _ _ =>
    if call.2 = true ∨ 2 < qos ∨ MqttClient.TooLong 512 topic payload qos then book else none
  | .subscribe _ topic qos _ =>
    if 2 < qos then book
    else if call.2 = true then book.map fun fs => if fs.card < 5 then cstr topic ::ₘ fs else fs
    else none
  | .unsubscribe topic _ =>
    if (cstr (topic.getD [])).length = 0 then book
    else if call.2 = true then book.map fun fs => fs.erase (cstr (topic.getD []))
    else none
  | .disconnect _ => none

/-- A topic fits into the array of its slot. -/
def Usual (call : BrokerOp × Bool) : Prop :=
  match call.1 with
  | .subscribe _ topic _ _ => (cstr topic).length < 254
  | _ => True

/-- The client after `begin`. -/
structure Fresh (c : MqttClient ArrivalHandler) : Prop where
  free : ∀ m ∈ c.messageHandlers, m.topicFilter = false
  slots : c.messageHandlers.length = 5
  buffer : c.readbuf.length = 512
  isconnected : c.isconnected = false
  inflight : c.inflightMsgid = 0

theorem Fresh.inBook {c : MqttClient ArrivalHandler} (h : Fresh c) :
    MqttClient.InBook 5 512 c none where
  tidy := ⟨fun _ => h.free, fun hc => Bool.noConfusion (h.isconnected.symm.trans hc), h.inflight,
    fun m hm hused => Bool.noConfusion ((h.free m hm).symm.trans hused), by rw [h.buffer]; decide⟩
  slots := h.slots
  size := h.buffer
  book := by rw [h.isconnected]; rfl

theorem inBook_ipstack {c : MqttClient ArrivalHandler} (h : MqttClient.InBook 5 512 c book)
    (ipstack : IpStack) : MqttClient.InBook 5 512 { c with ipstack := ipstack } book :=
  ⟨⟨h.tidy.free, h.tidy.clean, h.tidy.inflight, h.tidy.attached, h.tidy.buffer⟩, h.slots,
    h.size, h.book⟩

theorem isNone_book {c : MqttClient ArrivalHandler} (h : MqttClient.InBook 5 512 c book) :
    book.isNone = !c.isconnected := by
  rw [h.book]
  cases c.isconnected <;> rfl

/-- A call of the client that the handler makes. -/
theorem step_client (op : ClientOp ArrivalHandler) {r : Int × MqttClient ArrivalHandler}
    (h : MqttClient.InBook 5 512 s.client book) (husual : MqttClient.Usual (op, r.1))
    (hexec : s.client.exec op = some r) :
    MqttClient.InBook 5 512 r.2 (MqttClient.nextBook 5 512 book (op, r.1)) :=
  MqttClient.step_book h husual (MqttClient.stepWith_eq.2 hexec)

/-- Reading ends no session, and connecting begins one without subscriptions. -/
theorem loop_book {core : Persistent} {dial : Dial} {turns : List Turn} {ok : Bool}
    (h : MqttClient.InBook 5 512 s.client book) (hloop : s.loop core dial turns = some (ok, s')) :
    MqttClient.InBook 5 512 s'.client (if book.isNone && ok then some 0 else book) := by
  rw [isNone_book h]
  unfold loop at hloop
  split_ifs at hloop with hconn
  · obtain ⟨r, hyield, hs'⟩ := Option.map_eq_some_iff.1 hloop
    obtain ⟨rfl, rfl⟩ := Prod.mk.inj hs'
    rw [hconn]
    exact step_client (.yield turns) h trivial hyield
  · have hdown : s.client.isconnected = false := Bool.eq_false_iff.2 hconn
    have hnone : book = none := by rw [h.book, if_neg hconn]
    rw [hdown, Bool.not_false, Bool.true_and]
    simp only [getConfigAndConnect, Option.bind_eq_bind, Option.bind_eq_some_iff] at hloop
    obtain ⟨⟨ok', data, paho⟩, hconfig, hloop⟩ := hloop
    rcases PahoMqttMessageHandler.getConfigAndConnect_cases hconfig with
      ⟨rfl, rfl⟩ | ⟨d, config, login, will, hasLogin, hasWill, rfl, hok, hd⟩
    · cases hloop
      exact h
    · obtain ⟨r, hconnect, hs'⟩ := Option.bind_eq_some_iff.1 hloop
      obtain ⟨rfl, rfl⟩ := Prod.mk.inj (Option.some.inj hs')
      have hresult : (s.network dial).connectClient d = r.1 := by
        show ((s.connectClient dial d).map Prod.fst).getD 0 = r.1
        rw [hconnect]
        rfl
      rw [hresult] at hok
      have hclean : d.packet.cleansession ≠ 0 := by
        show d.cleansession.toNat ≠ 0
        rw [PahoMqttMessageHandler.cleansession_chosenData hd]
        decide
      have hbook := MqttClient.step_book (inBook_ipstack h dial.ipstack)
        (show MqttClient.Usual (.connect d.packet dial.x dial.resend, r.1) from hclean)
          (MqttClient.stepWith_eq.2 hconnect)
      rw [hok, hnone]
      rw [hnone] at hbook
      simpa [MqttClient.nextBook] using hbook

theorem step_session {call : BrokerOp × Bool} (h : MqttClient.InBook 5 512 s.client book)
    (husual : Usual call) (hstep : s.stepWith call = some s') :
    MqttClient.InBook 5 512 s'.client (nextBook book call) := by
  have hexec := stepWith_eq.1 hstep
  obtain ⟨op, ok⟩ := call
  cases op with
  | loop core dial turns => exact loop_book h hexec
  | publish topic payload qos retained x =>
    unfold nextBook
    dsimp only [exec, publish] at hexec ⊢
    split_ifs at hexec with hqos
    · obtain ⟨rfl, rfl⟩ := Prod.mk.inj (Option.some.inj hexec)
      rw [if_pos (.inr (.inl hqos))]
      exact h
    · obtain ⟨r, hpublish, hs'⟩ := Option.map_eq_some_iff.1 hexec
      obtain ⟨rfl, rfl⟩ := Prod.mk.inj hs'
      have hbook := step_client (.publish topic payload qos retained x) h trivial hpublish
      simpa [MqttClient.nextBook, hqos] using hbook
  | subscribe signedChar topic qos x =>
    unfold nextBook
    dsimp only [exec, subscribe] at hexec ⊢
    split_ifs at hexec with hqos
    · obtain ⟨rfl, rfl⟩ := Prod.mk.inj (Option.some.inj hexec)
      rw [if_pos hqos]
      exact h
    · obtain ⟨r, hsubscribe, hs'⟩ := Option.map_eq_some_iff.1 hexec
      obtain ⟨rfl, rfl⟩ := Prod.mk.inj hs'
      have hbook :=
        step_client (.subscribe signedChar topic qos .messageArrived x) h husual hsubscribe
      rw [if_neg hqos]
      simpa [MqttClient.nextBook] using hbook
  | unsubscribe topic x =>
    unfold nextBook
    dsimp only [exec, unsubscribe] at hexec ⊢
    cases topic with
    | none =>
      obtain ⟨rfl, rfl⟩ := Prod.mk.inj (Option.some.inj hexec)
      exact h
    | some topic =>
      dsimp only at hexec
      rw [Option.getD_some]
      split_ifs at hexec with hempty
      · obtain ⟨rfl, rfl⟩ := Prod.mk.inj (Option.some.inj hexec)
        rw [if_pos hempty]
        exact h
      · obtain ⟨r, hunsubscribe, hs'⟩ := Option.map_eq_some_iff.1 hexec
        obtain ⟨rfl, rfl⟩ := Prod.mk.inj hs'
        have hbook := step_client (.unsubscribe topic x) h trivial hunsubscribe
        rw [if_neg hempty]
        simpa [MqttClient.nextBook] using hbook
  | disconnect answers =>
    obtain ⟨-, rfl⟩ := Prod.mk.inj (Option.some.inj hexec)
    exact step_client (.disconnect answers) h trivial rfl

/-- Over any run of calls there is a session exactly when the book says so, and a message of the
broker is handed to `messageArrived` once for each entry it is for. -/
theorem run_session {calls : List (BrokerOp × Bool)} (hs : Fresh s.client)
    (husual : ∀ call ∈ calls, Usual call) (h : Run.run stepWith s calls = some s') :
    let book := calls.foldl nextBook none
    s'.client.isconnected = book.isSome ∧ ∀ topicName,
      (MqttClient.handlersOf s'.client.messageHandlers topicName).length =
        (book.getD 0).countP fun f => topicName = f ∨ MqttClient.matchFrom f topicName = true := by
  intro book
  have hend : MqttClient.InBook 5 512 s'.client book :=
    Run.run_follows (R := fun s book => MqttClient.InBook 5 512 s.client book)
      (fun _ _ _ _ hs hi hstep => step_session hs hi hstep) hs.inBook husual h
  exact ⟨hend.isconnected, hend.length_handlersOf⟩

/-- The handler after `begin`. -/
def begun : BrokerSession := ⟨notConnected, .idle 5 512 []⟩

theorem fresh_begun : Fresh begun.client where
  free m hm := by rw [(List.mem_replicate.1 hm).2]
  slots := List.length_replicate
  buffer := List.length_replicate
  isconnected := rfl
  inflight := rfl

/-- A broker that accepts the login `u`. -/
def withLogin : Persistent :=
  configured "username u\npassword p\nbrokeraddress 10.0.0.2\nbrokerport 1883\nclientid gw\n"

def accepting : Dial :=
  ⟨fun _ _ => 0, fun _ _ => 0, ⟨[.bytes MqttClient.answers], false⟩, MqttClient.atOnce,
    MqttClient.atOnce⟩

/-- A session with one subscription, in which a message comes. -/
def listening : List (BrokerOp × Bool) :=
  [(.loop withLogin accepting [], true), (.subscribe true [97] 1 MqttClient.atOnce, true),
    (.loop withLogin accepting [MqttClient.prompt], true)]

theorem usual_listening : ∀ call ∈ listening, Usual call := by
  simp [listening, Usual, cstr]

theorem run_session_listening :
    ∃ s', Run.run stepWith begun listening = some s' ∧ s'.client.isconnected = true ∧
    (MqttClient.handlersOf s'.client.messageHandlers [97]).length = 1 := by
  have hsome : (Run.run stepWith begun listening).isSome = true := by decide +kernel
  obtain ⟨s', h⟩ := Option.isSome_iff_exists.1 hsome
  obtain ⟨hconn, hhandlers⟩ := run_session fresh_begun usual_listening h
  exact ⟨s', h, hconn, hhandlers [97]⟩

end BrokerSession

end SnGateway
