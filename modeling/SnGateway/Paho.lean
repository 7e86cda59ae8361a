import Mathlib.Tactic.Ring
import Mathlib.Tactic.NormNum
import SnGateway.Interface

/-!
# Connecting to the broker

`PahoMqttMessageHandler::getConfigAndConnect` reads the configuration into arrays on its stack,
chooses one of four `connect` overloads by what is complete, and each of them fills in the connect
data by itself. The overload with a will and without a login leaves out the retain flag.

The IP stack and the MQTT client decide the results of their own calls (`Network`). A value that
fills its array leaves it without a terminator, and a longer one is written behind it, so such a
call has no defined result (`none`), like one whose configuration loop has none.
-/

namespace SnGateway
open RecordStore

/-- `MQTTPacket_willOptions`; a `cstring` is the array it points to. -/
structure WillOptions where
  structId : List UInt8
  structVersion : Int
  topicName : Option (List UInt8)
  message : Option (List UInt8)
  retained : UInt8
  qos : UInt8
deriving DecidableEq

/-- `MQTTPacket_connectData`. -/
structure ConnectData where
  structId : List UInt8
  structVersion : Int
  mqttVersion : UInt8
  clientId : Option (List UInt8)
  keepAliveInterval : UInt16
  cleansession : UInt8
  willFlag : UInt8
  will : WillOptions
  username : Option (List UInt8)
  password : Option (List UInt8)
deriving DecidableEq

/-- `MQTTPacket_willOptions_initializer`. -/
def WillOptions.initializer : WillOptions := ⟨ascii "MQTW", 0, none, none, 0, 0⟩

/-- `MQTTPacket_connectData_initializer`. -/
def ConnectData.initializer : ConnectData :=
  ⟨ascii "MQTC", 0, 4, none, 60, 1, 0, .initializer, none, none⟩

/-- What the IP stack and the MQTT client return. -/
structure Network where
  connectHost : List UInt8 → UInt16 → Int
  connectIp : BitVec 32 → UInt16 → Int
  connectClient : ConnectData → Int

structure PahoMqttMessageHandler where
  hostname : Option (List UInt8)
  port : UInt16
  /-- An `int64_t`; -1 is no address. -/
  ipAddress : BitVec 64

namespace PahoMqttMessageHandler

/-- `(*ip) << n` as an `int`, or-ed into the `int64_t`. -/
def orByte (address : BitVec 64) (b : UInt8) (n : Nat) : BitVec 64 :=
  address ||| (BitVec.ofNat 32 (b.toNat <<< n)).signExtend 64

def setServer (ip : List UInt8) (port : UInt16) (_h : PahoMqttMessageHandler) :
    PahoMqttMessageHandler where
  hostname := none
  ipAddress := orByte (orByte (orByte (orByte 0 (ip.getD 0 0) 24) (ip.getD 1 0) 16) (ip.getD 2 0) 8)
    (ip.getD 3 0) 0
  port := port

/-- The start of every `connect`: whether the IP stack was connected. -/
def openStack (net : Network) (h : PahoMqttMessageHandler) : Bool :=
  match h.hostname with
  | some name => net.connectHost name h.port = 0
  | none =>
    if h.ipAddress ≠ -1 then decide (net.connectIp (h.ipAddress.setWidth 32) h.port = 0) else false

/-- The rest of every `connect`, with the data it filled in: the result, and what was handed to the
client. -/
def connectWith (net : Network) (data : Option ConnectData) (h : PahoMqttMessageHandler) :
    Bool × Option ConnectData :=
  if !h.openStack net then (false, none)
  else
    match data with
    | none => (false, none)
    | some data => (net.connectClient data = 0, some data)

def connect (net : Network) (id : List UInt8) :
    PahoMqttMessageHandler → Bool × Option ConnectData :=
  connectWith net (some { ConnectData.initializer with mqttVersion := 3, clientId := some id })

def connectLogin (net : Network) (id user pass : List UInt8) :
    PahoMqttMessageHandler → Bool × Option ConnectData :=
  connectWith net (some { ConnectData.initializer with
    mqttVersion := 4, clientId := some id, username := some user, password := some pass })

/-- `MQTT::QOS0` to `MQTT::QOS2`. -/
def willQoS (qos : Nat) : Option UInt8 := if qos ≤ 2 then some (UInt8.ofNat qos) else none

/-- The line that sets `data.will.retained` is commented out. -/
def connectWill (net : Network) (id willTopic : List UInt8) (qos : Nat) (_willRetain : Bool)
    (willMessage : List UInt8) (_willMessageLength : Nat) :
    PahoMqttMessageHandler → Bool × Option ConnectData :=
  connectWith net ((willQoS qos).map fun qos => { ConnectData.initializer with
    mqttVersion := 4
    clientId := some id
    willFlag := 1
    will :=
      { WillOptions.initializer with
        topicName := some willTopic, message := some willMessage, qos := qos } })

def connectLoginWill (net : Network) (id user pass willTopic : List UInt8) (qos : Nat)
    (willRetain : Bool) (willMessage : List UInt8) (_willMessageLength : Nat) :
    PahoMqttMessageHandler → Bool × Option ConnectData :=
  connectWith net ((willQoS qos).map fun qos => { ConnectData.initializer with
    mqttVersion := 4
    clientId := some id
    username := some user
    password := some pass
    willFlag := 1
    will := { WillOptions.initializer with
      topicName := some willTopic
      message := some willMessage
      qos := qos
      retained := UInt8.ofNat willRetain.toNat } })

/-- The zeroed arrays of `getConfigAndConnect`. -/
def configArrays : MqttConfig := ⟨List.replicate 4 0, 0, List.replicate 24 0⟩
def loginArrays : MqttLogin := ⟨List.replicate 24 0, List.replicate 24 0⟩
def willArrays : MqttWill := ⟨List.replicate 255 0, List.replicate 255 0, 0, false⟩

/-- The configuration is read from the files of `core`. -/
def getConfigAndConnect (net : Network) (core : Persistent) (h : PahoMqttMessageHandler) :
    Option (Bool × Option ConnectData × PahoMqttMessageHandler) :=
  match core.getMqttConfig configArrays with
  | none => none
  | some (ok, config) =>
    if !terminatedIn 24 config.clientId then none
    else if !ok then some (false, none, h)
    else
      match core.getMqttLoginConfig loginArrays, core.getMqttWill willArrays with
      | some (hasLogin, login), some (hasWill, will) =>
        if !terminatedIn 24 login.username || !terminatedIn 24 login.password then none
        else if !terminatedIn 255 will.willTopic || !terminatedIn 255 will.willMsg then none
        else
          let h := h.setServer config.serverIp (UInt16.ofNat config.serverPort)
          let length := (cstr will.willMsg).length + 1
          let (ok, data) :=
            if hasLogin && hasWill then
              h.connectLoginWill net config.clientId login.username login.password will.willTopic
                will.willQos
                will.willRetain will.willMsg length
            else if hasLogin then h.connectLogin net config.clientId login.username login.password
            else if hasWill then
              h.connectWill net config.clientId will.willTopic will.willQos will.willRetain
                will.willMsg length
            else h.connect net config.clientId
          some (ok, data, h)
      | _, _ => none

/-! ### The address of the broker -/

theorem toNat_signExtend_byte (b : UInt8) {n : Nat} (hn : n ≤ 16) :
    ((BitVec.ofNat 32 (b.toNat <<< n)).signExtend 64).toNat = 2 ^ n * b.toNat := by
  have hb := b.toNat_lt
  have hpow : 2 ^ n ≤ 2 ^ 16 := Nat.pow_le_pow_right (by omega) hn
  have hlt : 2 ^ n * b.toNat < 2 ^ 24 := by
    calc 2 ^ n * b.toNat ≤ 2 ^ 16 * 255 := Nat.mul_le_mul hpow (by omega)
      _ < 2 ^ 24 := by norm_num
  have hmsb : (BitVec.ofNat 32 (b.toNat <<< n)).msb = false := by
    rw [BitVec.msb_eq_false_iff_two_mul_lt, BitVec.toNat_ofNat, Nat.shiftLeft_eq,
      Nat.mul_comm b.toNat,
      Nat.mod_eq_of_lt (by omega)]
    omega
  rw [BitVec.toNat_signExtend, hmsb, BitVec.toNat_setWidth, BitVec.toNat_ofNat, Nat.shiftLeft_eq,
    Nat.mul_comm b.toNat]
  simp only [Bool.false_eq_true, if_false]
  omega

theorem toNat_orByte {address : BitVec 64} {c n : Nat} (b : UInt8) (hn : n ≤ 16)
    (h : address.toNat = 2 ^ (n + 8) * c) :
    (orByte address b n).toNat = 2 ^ n * (2 ^ 8 * c + b.toNat) := by
  have hb := b.toNat_lt
  have hlt : 2 ^ n * b.toNat < 2 ^ (n + 8) := by
    rw [Nat.pow_add]
    exact Nat.mul_lt_mul_of_pos_left hb (Nat.two_pow_pos n)
  rw [orByte, BitVec.toNat_or, h, toNat_signExtend_byte b hn, ← Nat.two_pow_add_eq_or_of_lt hlt,
    Nat.pow_add]
  ring

/-- The first byte is shifted into the sign of an `int`. -/
theorem toNat_orByte_zero (b : UInt8) :
    (orByte 0 b 24).toNat = 2 ^ 24 * (b.toNat + if 128 ≤ b.toNat then 2 ^ 40 - 2 ^ 8 else 0) := by
  have hb := b.toNat_lt
  have hmsb : (BitVec.ofNat 32 (b.toNat <<< 24)).msb = decide (128 ≤ b.toNat) := by
    rw [BitVec.msb_eq_decide, BitVec.toNat_ofNat, Nat.shiftLeft_eq]
    congr 1
    apply propext
    omega
  have hor : orByte 0 b 24 = (BitVec.ofNat 32 (b.toNat <<< 24)).signExtend 64 := BitVec.zero_or
  rw [hor, BitVec.toNat_signExtend, hmsb, BitVec.toNat_setWidth, BitVec.toNat_ofNat,
    Nat.shiftLeft_eq]
  by_cases h : 128 ≤ b.toNat
  · simp only [h, decide_true, if_true]; omega
  · simp only [h, decide_false, Bool.false_eq_true, if_false]; omega

theorem toNat_ipAddress_setServer (ip : List UInt8) (port : UInt16) (h : PahoMqttMessageHandler) :
    (h.setServer ip port).ipAddress.toNat = 2 ^ 0 * (2 ^ 8 * (2 ^ 8 * (2 ^ 8 *
        ((ip.getD 0 0).toNat + if 128 ≤ (ip.getD 0 0).toNat then 2 ^ 40 - 2 ^ 8 else 0) +
      (ip.getD 1 0).toNat) + (ip.getD 2 0).toNat) + (ip.getD 3 0).toNat) :=
  toNat_orByte (ip.getD 3 0) (by omega) (toNat_orByte (n := 8) (ip.getD 2 0) (by omega)
    (toNat_orByte (n := 16) (ip.getD 1 0) (by omega) (toNat_orByte_zero (ip.getD 0 0))))

/-- The address that stands for no server is 255.255.255.255. -/
theorem ipAddress_setServer_eq {ip : List UInt8} (port : UInt16) (h : PahoMqttMessageHandler) :
    (h.setServer ip port).ipAddress = -1 ↔
      ip.getD 0 0 = 255 ∧ ip.getD 1 0 = 255 ∧ ip.getD 2 0 = 255 ∧ ip.getD 3 0 = 255 := by
  have h0 := (ip.getD 0 0).toNat_lt
  have h1 := (ip.getD 1 0).toNat_lt
  have h2 := (ip.getD 2 0).toNat_lt
  have h3 := (ip.getD 3 0).toNat_lt
  have hneg : (h.setServer ip port).ipAddress = -1 ↔ (h.setServer ip port).ipAddress.toNat =
      2 ^ 64 - 1 := by
    rw [← BitVec.toNat_inj]
    rfl
  rw [hneg, toNat_ipAddress_setServer, ← UInt8.toNat_inj, ← UInt8.toNat_inj, ← UInt8.toNat_inj,
    ← UInt8.toNat_inj]
  simp only [UInt8.reduceToNat]
  split <;> omega

/-! ### The arrays -/

/-- `strlen` of an array of 24 bytes ends in it for at most 23 characters. -/
theorem terminatedIn_iff {array : List UInt8} :
    terminatedIn 24 array = true ↔ (cstr array).length ≤ 23 :=
  decide_eq_true_iff.trans Nat.lt_succ_iff

/-- The arrays of the will are never filled. -/
theorem terminatedIn_will {core : Persistent} {hasWill : Bool} {will : MqttWill}
    (hwill : core.getMqttWill willArrays = some (hasWill, will)) :
    terminatedIn 255 will.willTopic = true ∧ terminatedIn 255 will.willMsg = true := by
  obtain ⟨htopic, hmsg⟩ := Persistent.getElem?_getMqttWill hwill (i := 254) (by omega)
  exact ⟨terminatedIn_of_getElem? htopic (by omega), terminatedIn_of_getElem? hmsg (by omega)⟩

/-! ### The will in the connect data -/

/-- `data` holds the will `will`, or none when it is not complete. -/
def CarriesWill (hasWill : Bool) (will : MqttWill) (data : ConnectData) : Prop :=
  if hasWill then
    data.willFlag = 1 ∧ data.will.topicName = some will.willTopic ∧
      data.will.message = some will.willMsg ∧
      data.will.qos.toNat = will.willQos ∧ data.will.retained = UInt8.ofNat will.willRetain.toNat
  else data.willFlag = 0 ∧ data.will = WillOptions.initializer

instance (hasWill : Bool) (will : MqttWill) (data : ConnectData) :
    Decidable (CarriesWill hasWill will data) := by
  unfold CarriesWill
  infer_instance

/-- Whatever the network does, `getConfigAndConnect` has a defined result, and the data it hands to
the MQTT client holds the will. -/
def HandsWill (core : Persistent) (hasWill : Bool) (will : MqttWill) (h : PahoMqttMessageHandler) :
    Prop :=
  ∀ net, ∃ ok data h', h.getConfigAndConnect net core = some (ok, data, h') ∧ ∀ d ∈ data,
    CarriesWill hasWill will d

/-- A network on which every call succeeds. -/
def reachable : Network := ⟨fun _ _ => 0, fun _ _ => 0, fun _ => 0⟩

variable {net : Network} {core : Persistent} {h : PahoMqttMessageHandler} {config : MqttConfig}
    {login : MqttLogin} {will : MqttWill} {hasLogin hasWill : Bool}

/-- The connect data, by what is complete. -/
def chosenData (config : MqttConfig) (login : MqttLogin) (will : MqttWill)
    (hasLogin hasWill : Bool) : Option ConnectData :=
  match hasLogin, hasWill with
  | true, true => (willQoS will.willQos).map fun qos => { ConnectData.initializer with
      clientId := some config.clientId
      username := some login.username
      password := some login.password
      willFlag := 1
      will := { WillOptions.initializer with
        topicName := some will.willTopic
        message := some will.willMsg
        qos := qos
        retained := UInt8.ofNat will.willRetain.toNat } }
  | true, false => some { ConnectData.initializer with
      clientId := some config.clientId
      username := some login.username
      password := some login.password }
  | false, true => (willQoS will.willQos).map fun qos => { ConnectData.initializer with
      clientId := some config.clientId
      willFlag := 1
      will := { WillOptions.initializer with
        topicName := some will.willTopic, message := some will.willMsg, qos := qos } }
  | false, false =>
    some { ConnectData.initializer with mqttVersion := 3, clientId := some config.clientId }

theorem getConfigAndConnect_eq (hconfig : core.getMqttConfig configArrays = some (true, config))
    (hlogin : core.getMqttLoginConfig loginArrays = some (hasLogin, login))
    (hwill : core.getMqttWill willArrays = some (hasWill, will)) :
    h.getConfigAndConnect net core =
      if (cstr config.clientId).length ≤ 23 ∧ (cstr login.username).length ≤ 23 ∧
      (cstr login.password).length ≤ 23 then
        let h' := h.setServer config.serverIp (UInt16.ofNat config.serverPort)
        let r := h'.connectWith net (chosenData config login will hasLogin hasWill)
        some (r.1, r.2, h')
      else none := by
  obtain ⟨htopic, hmsg⟩ := terminatedIn_will hwill
  unfold getConfigAndConnect
  rw [hconfig, hlogin, hwill]
  dsimp only
  rw [htopic, hmsg]
  by_cases hfits : (cstr config.clientId).length ≤ 23 ∧ (cstr login.username).length ≤ 23 ∧
      (cstr login.password).length ≤ 23
  · rw [if_pos hfits, terminatedIn_iff.2 hfits.1, terminatedIn_iff.2 hfits.2.1,
      terminatedIn_iff.2 hfits.2.2]
    cases hasLogin <;> cases hasWill <;> rfl
  · rw [if_neg hfits]
    rw [← terminatedIn_iff, ← terminatedIn_iff, ← terminatedIn_iff] at hfits
    cases hid : terminatedIn 24 config.clientId with
    | false => rfl
    | true =>
      have hlogin : (!terminatedIn 24 login.username || !terminatedIn 24 login.password) =
          true := by
        rw [← Bool.not_and, Bool.not_eq_true', Bool.eq_false_iff, ne_eq, Bool.and_eq_true]
        exact fun h => hfits ⟨hid, h⟩
      rw [hlogin]
      rfl

theorem openStack_reachable {ip : List UInt8} {port : UInt16}
    (hip : ¬ (ip.getD 0 0 = 255 ∧ ip.getD 1 0 = 255 ∧ ip.getD 2 0 = 255 ∧ ip.getD 3 0 = 255)) :
    (h.setServer ip port).openStack reachable = true := by
  rw [← ipAddress_setServer_eq port h] at hip
  show (if (h.setServer ip port).ipAddress ≠ -1 then _ else _) = true
  rw [if_pos hip]
  rfl

theorem openStack_refused {ip : List UInt8} {port : UInt16}
    (hip : ip.getD 0 0 = 255 ∧ ip.getD 1 0 = 255 ∧ ip.getD 2 0 = 255 ∧ ip.getD 3 0 = 255) :
    (h.setServer ip port).openStack net = false := by
  rw [← ipAddress_setServer_eq port h] at hip
  show (if (h.setServer ip port).ipAddress ≠ -1 then _ else _) = false
  rw [if_neg (not_not.2 hip)]

/-- All overloads carry the will, but the one without a login does so with the retain
flag cleared. -/
theorem carriesWill_chosenData {d : ConnectData}
    (hd : chosenData config login will hasLogin hasWill = some d) :
    CarriesWill hasWill will d ↔ (hasWill = true → will.willRetain = true → hasLogin = true) := by
  have hqos : ∀ q, willQoS will.willQos = some q → q.toNat = will.willQos := by
    intro q hq
    unfold willQoS at hq
    split at hq
    · cases hq
      exact UInt8.toNat_ofNat_of_lt' (by show _ < 256; omega)
    · cases hq
  cases hasLogin <;> cases hasWill
  · obtain rfl := Option.some.inj hd
    simp [CarriesWill, ConnectData.initializer]
  · obtain ⟨q, hq, rfl⟩ := Option.map_eq_some_iff.1 hd
    have := hqos q hq
    cases hr : will.willRetain <;> simp [CarriesWill, WillOptions.initializer, hr, this]
  · obtain rfl := Option.some.inj hd
    simp [CarriesWill, ConnectData.initializer]
  · obtain ⟨q, hq, rfl⟩ := Option.map_eq_some_iff.1 hd
    simp [CarriesWill, hqos q hq]

/-- Both readers see the same lines. -/
theorem login_of_will (hwill : core.getMqttWill willArrays = some (hasWill, will)) :
    ∃ hasLogin login, core.getMqttLoginConfig loginArrays = some (hasLogin, login) := by
  have hsome := congrArg Option.isSome hwill
  rw [Persistent.getMqttWill, Option.isSome_map, Persistent.readConfig, isSome_configLoop] at hsome
  have hlogin : (core.getMqttLoginConfig loginArrays).isSome = true := by
    rw [Persistent.getMqttLoginConfig, Option.isSome_map, Persistent.readConfig, isSome_configLoop]
    exact hsome
  obtain ⟨⟨hasLogin, login⟩, h⟩ := Option.isSome_iff_exists.1 hlogin
  exact ⟨hasLogin, login, h⟩

/-- The configured will reaches the broker exactly when the values leave their arrays a terminator
and, if it is to be retained, there is a login as well; nothing is handed over for the address that
stands for no server and for a QoS above 2. -/
theorem hands_will_iff (hconfig : core.getMqttConfig configArrays = some (true, config))
    (hwill : core.getMqttWill willArrays = some (hasWill, will)) :
    ∃ hasLogin login, core.getMqttLoginConfig loginArrays = some (hasLogin, login) ∧
      (h.HandsWill core hasWill will ↔
        ((cstr config.clientId).length ≤ 23 ∧ (cstr login.username).length ≤ 23 ∧
          (cstr login.password).length ≤ 23) ∧
          (hasWill = true → will.willRetain = true → will.willQos ≤ 2 →
            config.serverIp.take 4 ≠ [255, 255, 255, 255] →
            hasLogin = true)) := by
  obtain ⟨hasLogin, login, hlogin⟩ := login_of_will hwill
  refine ⟨hasLogin, login, hlogin, ?_⟩
  have hip : config.serverIp.take 4 = [255, 255, 255, 255] ↔ config.serverIp.getD 0 0 = 255 ∧
      config.serverIp.getD 1 0 = 255 ∧ config.serverIp.getD 2 0 = 255 ∧
      config.serverIp.getD 3 0 = 255 := by
    match config.serverIp with
    | [] | [_] | [_, _] | [_, _, _] => simp
    | a :: b :: c :: d :: _ => simp
  unfold HandsWill
  simp only [getConfigAndConnect_eq hconfig hlogin hwill]
  by_cases hfits : (cstr config.clientId).length ≤ 23 ∧ (cstr login.username).length ≤ 23 ∧
      (cstr login.password).length ≤ 23
  · simp only [hfits, true_and]
    constructor
    · intro hall hw hr hq hne
      obtain ⟨ok, data, h', ⟨-, rfl, -⟩, hcarry⟩ := hall reachable
      obtain ⟨d, hd⟩ : ∃ d, chosenData config login will hasLogin hasWill = some d := by
        subst hw
        cases hasLogin <;> simp [chosenData, willQoS, hq]
      refine (carriesWill_chosenData hd).1 (hcarry d ?_) hw hr
      unfold connectWith
      rw [openStack_reachable (mt hip.2 hne), hd]
      rfl
    · intro hcond net
      refine ⟨_, _, _, rfl, fun d hd => ?_⟩
      unfold connectWith at hd
      split at hd
      · cases hd
      · next hopen =>
        cases hdata : chosenData config login will hasLogin hasWill with
        | none => rw [hdata] at hd; cases hd
        | some d' =>
          rw [hdata] at hd
          cases hd
          refine (carriesWill_chosenData hdata).2 fun hw hr => hcond hw hr ?_ ?_
          · by_contra hq
            subst hw
            cases hasLogin <;> simp [chosenData, willQoS, hq] at hdata
          · intro hall
            rw [openStack_refused (hip.1 hall)] at hopen
            exact hopen rfl
  · simp only [hfits, false_and, iff_false]
    intro hall
    obtain ⟨ok, data, h', hnone, -⟩ := hall reachable
    cases hnone

end PahoMqttMessageHandler

/-- A gateway with the file `MQTT.CON`. -/
def configured (text : String) : Persistent :=
  { Persistent.setUp with fs := Persistent.setUp.fs.set mqttConfiguration (ascii text) }

def notConnected : PahoMqttMessageHandler := ⟨none, 0, -1⟩

/-- A will to be retained; `login` is put in front of it. -/
def retainedWill (login : String) : Persistent :=
  configured (login ++ "brokeraddress 10.0.0.2\nbrokerport 1883\nclientid gw\n" ++
    "willtopic t\nwillmessage m\nwillqos 1\nwillretain 1\n")

/-- What `get_mqtt_will` makes of it. -/
def retainedOut : MqttWill :=
  ⟨ascii "t" ++ List.replicate 254 0, ascii "m" ++ List.replicate 254 0, 1, true⟩

theorem hands_will_iff_login :
    let core := retainedWill "username u\npassword p\n"
    core.getMqttWill PahoMqttMessageHandler.willArrays = some (true, retainedOut) ∧
      notConnected.HandsWill core true retainedOut := by
  intro core
  have hcore : core = retainedWill _ := rfl
  have hread : core.getMqttConfig PahoMqttMessageHandler.configArrays =
        some (true, ⟨[10, 0, 0, 2], 1883, ascii "gw" ++ List.replicate 22 0⟩) ∧
      core.getMqttWill PahoMqttMessageHandler.willArrays = some (true, retainedOut) ∧
      core.getMqttLoginConfig PahoMqttMessageHandler.loginArrays =
        some (true, ⟨ascii "u" ++ List.replicate 23 0, ascii "p" ++ List.replicate 23 0⟩) := by
    rw [hcore]
    decide +kernel
  obtain ⟨hconfig, hwill, hlogin⟩ := hread
  obtain ⟨hasLogin, login, hlogin', hiff⟩ :=
    PahoMqttMessageHandler.hands_will_iff (h := notConnected) hconfig hwill
  rw [hlogin, Option.some.injEq, Prod.mk.injEq] at hlogin'
  obtain ⟨rfl, rfl⟩ := hlogin'
  exact ⟨hwill, hiff.2 ⟨by decide, fun _ _ _ _ => rfl⟩⟩

/-- Without a login the broker is told not to retain the will. -/
theorem will_not_retained :
    let core := retainedWill ""
    (core.getMqttConfig PahoMqttMessageHandler.configArrays).map Prod.fst = some true ∧
      core.getMqttWill PahoMqttMessageHandler.willArrays = some (true, retainedOut) ∧
      (notConnected.getConfigAndConnect PahoMqttMessageHandler.reachable core).map
        (fun r => r.2.1.map fun d => (d.willFlag, d.will.qos, d.will.retained)) =
          some (some (1, 1, 0)) ∧
      ¬ notConnected.HandsWill core true retainedOut := by
  intro core
  have hcore : core = retainedWill _ := rfl
  have hread : (core.getMqttConfig PahoMqttMessageHandler.configArrays).map Prod.fst = some true ∧
      core.getMqttWill PahoMqttMessageHandler.willArrays = some (true, retainedOut) ∧
      (notConnected.getConfigAndConnect PahoMqttMessageHandler.reachable core).map
        (fun r => r.2.1.map fun d => (d.willFlag, d.will.qos, d.will.retained)) =
          some (some (1, 1, 0)) ∧
      (notConnected.getConfigAndConnect PahoMqttMessageHandler.reachable core).any
        (fun r => r.2.1.any fun d =>
          !decide (PahoMqttMessageHandler.CarriesWill true retainedOut d)) = true := by
    rw [hcore]
    decide +kernel
  obtain ⟨hconfig, hwill, hconnect, hdata⟩ := hread
  refine ⟨hconfig, hwill, hconnect, fun hall => ?_⟩
  obtain ⟨ok, data, h', hres, hcarry⟩ := hall PahoMqttMessageHandler.reachable
  rw [hres] at hdata
  cases data with
  | none => cases hdata
  | some d =>
    have hd := hcarry d rfl
    simp [hd] at hdata

end SnGateway
