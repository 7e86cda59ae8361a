import SnGateway.Paho

/-!
# The address of the broker

`setServer` puts four bytes together in an `int64_t` and `connect` hands its lower half to the IP
stack. The first byte is shifted into the sign of an `int` and extends to the upper half, which the
narrowing drops again: the address is the right one, but that of four bytes 255 is -1, which stands
for no server (`stackRequest_setServer`). Only the last server that was set counts.
-/

namespace SnGateway
open RecordStore

/-- A call of `connect` of the IP stack. -/
inductive StackRequest where
  | host (name : List UInt8) (port : UInt16)
  | address (ip : BitVec 32) (port : UInt16)
deriving DecidableEq

namespace Network

def answer (net : Network) : StackRequest → Int
  | .host name port => net.connectHost name port
  | .address ip port => net.connectIp ip port

/-- The network whose IP stack connects to everything. -/
def opened (net : Network) : Network :=
  { net with connectHost := fun _ _ => 0, connectIp := fun _ _ => 0 }

end Network

/-- The calls of `setServer`. -/
inductive ServerCall where
  | address (a b c d : UInt8) (port : UInt16)
  | hostname (name : List UInt8) (port : UInt16)
deriving DecidableEq

/-- The overloads of `connect`. -/
inductive ConnectCall where
  | connect (id : List UInt8)
  | connectLogin (id user pass : List UInt8)
  | connectWill (id willTopic : List UInt8) (willQos : Nat) (willRetain : Bool)
      (willMessage : List UInt8)
    (willMessageLength : Nat)
  | connectLoginWill (id user pass willTopic : List UInt8) (willQos : Nat) (willRetain : Bool)
      (willMessage : List UInt8)
    (willMessageLength : Nat)

namespace PahoMqttMessageHandler

def setServerHostname (hostname : List UInt8) (port : UInt16) (_h : PahoMqttMessageHandler) :
    PahoMqttMessageHandler where
  ipAddress := -1
  hostname := some hostname
  port := port

def set (h : PahoMqttMessageHandler) : ServerCall → PahoMqttMessageHandler
  | .address a b c d port => h.setServer [a, b, c, d] port
  | .hostname name port => h.setServerHostname name port

/-- A new handler, after calls of `setServer`. -/
def withServers (calls : List ServerCall) : PahoMqttMessageHandler := calls.foldl set notConnected

def connectBy (net : Network) (h : PahoMqttMessageHandler) : ConnectCall → Bool × Option ConnectData
  | .connect id => h.connect net id
  | .connectLogin id user pass => h.connectLogin net id user pass
  | .connectWill id willTopic willQos willRetain willMessage willMessageLength =>
    h.connectWill net id willTopic willQos willRetain willMessage willMessageLength
  | .connectLoginWill id user pass willTopic willQos willRetain willMessage willMessageLength =>
    h.connectLoginWill net id user pass willTopic willQos willRetain willMessage willMessageLength

/-- What every `connect` asks the IP stack for. -/
def stackRequest (h : PahoMqttMessageHandler) : Option StackRequest :=
  match h.hostname with
  | some name => some (.host name h.port)
  | none => if h.ipAddress ≠ -1 then some (.address (h.ipAddress.setWidth 32) h.port) else none

/-- The IP stack is asked for this, and `connect` goes on if it answers 0. -/
structure AsksFor (h : PahoMqttMessageHandler) (c : ConnectCall) (server : StackRequest) :
    Prop where
  request : h.stackRequest = some server
  outcome : ∀ net, h.connectBy net c = if net.answer server = 0 then h.connectBy net.opened c
    else (false, none)

/-- `connect` fails without asking for anything. -/
structure Refuses (h : PahoMqttMessageHandler) (c : ConnectCall) : Prop where
  request : h.stackRequest = none
  outcome : ∀ net, h.connectBy net c = (false, none)

end PahoMqttMessageHandler

/-- The server that was set. -/
def ServerCall.request : ServerCall → StackRequest
  | .address a b c d port =>
    .address (BitVec.ofNat 32 (a.toNat * 2 ^ 24 + b.toNat * 2 ^ 16 + c.toNat * 2 ^ 8 + d.toNat))
      port
  | .hostname name port => .host name port

namespace PahoMqttMessageHandler

/-- `connect` asks for the server that was set last, and refuses if there is none. -/
def AsksForServer (calls : List ServerCall) (c : ConnectCall) : Prop :=
  match calls.getLast? with
  | none => (withServers calls).Refuses c
  | some call => (withServers calls).AsksFor c call.request

variable {h : PahoMqttMessageHandler} {net : Network} {c : ConnectCall}

/-! ### The start of `connect` -/

theorem openStack_eq (net : Network) (h : PahoMqttMessageHandler) :
    h.openStack net = h.stackRequest.any fun request => net.answer request = 0 := by
  rw [openStack, stackRequest]
  cases h.hostname with
  | some name => rfl
  | none =>
    dsimp only
    split <;> rfl

/-- The overloads differ in their data only. -/
theorem connectBy_eq (c : ConnectCall) :
    ∃ data, ∀ (net : Network) (h : PahoMqttMessageHandler),
      h.connectBy net c = h.connectWith net data := by
  cases c with
  | connect | connectLogin => exact ⟨some _, fun _ _ => rfl⟩
  | connectWill | connectLoginWill => exact ⟨_, fun _ _ => rfl⟩

theorem connectWith_eq (net : Network) (data : Option ConnectData) (h : PahoMqttMessageHandler) :
    h.connectWith net data =
      if h.openStack net = true then
        match data with
        | none => (false, none)
        | some data => (net.connectClient data = 0, some data)
      else (false, none) := by
  unfold connectWith
  cases h.openStack net <;> rfl

theorem refuses_of_stackRequest (hr : h.stackRequest = none) : h.Refuses c := by
  refine ⟨hr, fun net => ?_⟩
  obtain ⟨data, hdata⟩ := connectBy_eq c
  have hclosed : h.openStack net = false := by
    rw [openStack_eq, hr]
    rfl
  rw [hdata, connectWith_eq, if_neg (by rw [hclosed]; exact Bool.false_ne_true)]

theorem asksFor_of_stackRequest {server : StackRequest} (hr : h.stackRequest = some server) :
    h.AsksFor c server := by
  refine ⟨hr, fun net => ?_⟩
  obtain ⟨data, hdata⟩ := connectBy_eq c
  have hopened : h.openStack net.opened = true := by
    rw [openStack_eq, hr]
    cases server <;> rfl
  have hopen : h.openStack net = true ↔ net.answer server = 0 := by
    rw [openStack_eq, hr, Option.any_some, decide_eq_true_eq]
  rw [hdata, hdata, connectWith_eq, connectWith_eq, if_pos hopened]
  by_cases hanswer : net.answer server = 0
  · rw [if_pos (hopen.2 hanswer), if_pos hanswer]
    rfl
  · rw [if_neg (mt hopen.1 hanswer), if_neg hanswer]

/-! ### The address -/

/-- The lower half of the address. -/
theorem setWidth_ipAddress_setServer (a b c d : UInt8) (port : UInt16)
    (h : PahoMqttMessageHandler) :
    (h.setServer [a, b, c, d] port).ipAddress.setWidth 32 =
      BitVec.ofNat 32 (a.toNat * 2 ^ 24 + b.toNat * 2 ^ 16 + c.toNat * 2 ^ 8 + d.toNat) := by
  apply BitVec.eq_of_toNat_eq
  rw [BitVec.toNat_setWidth, toNat_ipAddress_setServer, BitVec.toNat_ofNat]
  simp only [List.getD_cons_zero, List.getD_cons_succ]
  split <;> omega

theorem stackRequest_setServer (a b c d : UInt8) (port : UInt16) (h : PahoMqttMessageHandler) :
    (h.setServer [a, b, c, d] port).stackRequest =
      if a = 255 ∧ b = 255 ∧ c = 255 ∧ d = 255 then none else
      some (ServerCall.address a b c d port).request := by
  have hip : (h.setServer [a, b, c, d] port).ipAddress = -1 ↔ a = 255 ∧ b = 255 ∧
    c = 255 ∧ d = 255 :=
    ipAddress_setServer_eq port h
  rw [ServerCall.request, ← setWidth_ipAddress_setServer a b c d port h]
  show (if (h.setServer [a, b, c, d] port).ipAddress ≠ -1 then _ else _) = _
  by_cases hall : a = 255 ∧ b = 255 ∧ c = 255 ∧ d = 255
  · rw [if_pos hall, if_neg (not_not.2 (hip.2 hall))]
  · rw [if_neg hall, if_pos (mt hip.1 hall)]
    rfl

theorem stackRequest_set (h : PahoMqttMessageHandler) (call : ServerCall)
    (hcall : ∀ port, call ≠ .address 255 255 255 255 port) :
    (h.set call).stackRequest = some call.request := by
  cases call with
  | hostname name port => rfl
  | address a b c d port =>
    rw [set, stackRequest_setServer, if_neg]
    rintro ⟨rfl, rfl, rfl, rfl⟩
    exact hcall port rfl

/-- The server that was set last is asked for, unless it is the address 255.255.255.255. -/
theorem asks_for_server_iff (calls : List ServerCall) (c : ConnectCall) :
    AsksForServer calls c ↔ ∀ port, calls.getLast? ≠ some (.address 255 255 255 255 port) := by
  rw [AsksForServer]
  rcases List.eq_nil_or_concat calls with rfl | ⟨calls, call, rfl⟩
  · exact iff_of_true (refuses_of_stackRequest rfl) (by simp)
  · have hset : withServers (calls ++ [call]) = (withServers calls).set call := by
      rw [withServers, List.foldl_append]
      rfl
    simp only [List.concat_eq_append, List.getLast?_append, List.getLast?_singleton, Option.some_or,
      hset, ne_eq,
      Option.some.injEq]
    constructor
    · rintro hasks port rfl
      have hrequest := hasks.request
      rw [set, stackRequest_setServer, if_pos ⟨rfl, rfl, rfl, rfl⟩] at hrequest
      cases hrequest
    · intro hcall
      exact asksFor_of_stackRequest (stackRequest_set _ call hcall)

/-- All bits of the address are set. -/
theorem broadcast_server_refused :
    ¬ AsksForServer [.address 255 255 255 255 1883] (.connect (ascii "gw")) := by
  intro h
  have hrequest := h.request
  rw [show (withServers [.address 255 255 255 255 1883]).stackRequest = none by decide] at hrequest
  cases hrequest

end PahoMqttMessageHandler

end SnGateway
