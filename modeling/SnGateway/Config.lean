import SnGateway.Topics

/-!
# Configuration files

`MQTT.CON` and `MQTTSN.CON` hold one `key value` per line. The loops read lines until one is empty,
compare the front of the buffer with the keys and hand the buffer to a parser for the text behind
the first space. A line that fills its buffer leaves it without a terminator, and `strlen` runs out
of it: such a run is `none` (undefined). A line without a space that leaves the buffer just its
terminator is read by one byte too far, which does not change what comes of it and is not modelled.
The defaults of `get_advertise_duration`, `get_timeout_check_duration` and `get_gateway_id` are set
inside `#if PERSISTENT_DEBUG`.
-/

namespace SnGateway
open RecordStore

/-- The lines a loop `while (readLine(buffer, size) > 0)` sees. -/
def configLines (size : Nat) : Nat → List UInt8 → List (List UInt8)
  | 0, _ => []
  | fuel + 1, c =>
    let (line, rest) := readLine size c
    if line = [] then [] else line :: configLines size fuel rest

/-- The zeroed buffer of `size` bytes after a line was read; `none` when no terminator is left. -/
def lineBuffer (size : Nat) (line : List UInt8) : Option (List UInt8) :=
  if line.length = size ∧ 0 ∉ line then
    none
  else some (line ++ List.replicate (size - line.length) 0)

/-! ### The parsers

`while (*source++ != ' ') { start++; if (*source == '\n' || start == max) return false; }`, then
`end` is counted up to the end of the line. -/

def findSpace (max : Nat) : Nat → List UInt8 → Option (Nat × List UInt8)
  | _, [] => none
  | start, c :: source =>
    if c = 32 then some (start, source)
    else if source.head? = some 10 ∨ start + 1 = max then none
    else findSpace max (start + 1) source

def findEnd (max : Nat) : Nat → List UInt8 → Option Nat
  | e, [] => some e
  | e, c :: source =>
    if c = 10 ∨ c = 0 then some e
    else if e + 1 > max then none
    else findEnd max (e + 1) source

/-- `start` and `end` of the value in a buffer. -/
def valueBounds (source : List UInt8) (max : Nat) : Option (Nat × Nat) :=
  match findSpace max 0 source with
  | none => none
  | some (start, rest) =>
    match findEnd max start rest with
    | none => none
    | some stop => some (start, stop)

def valueBytes (source : List UInt8) (start stop : Nat) : List UInt8 :=
  (source.drop (start + 1)).take (stop - start)

/-- The result and what is in `*destination` afterwards. -/
def parseUint16AfterSpace (destination : Nat) (source : List UInt8) (max : Nat) : Bool × Nat :=
  match valueBounds source max with
  | none => (false, destination)
  | some (start, stop) =>
    if start + 1 < max ∧ start ≠ stop ∧ stop - start ≤ 6 ∧ stop - start ≥ 1 then
      let v := (atoi (cstr (valueBytes source start stop)) % 2 ^ 16).toNat
      (v ≠ 0, v)
    else (false, destination)

def parseUint8AfterSpace (destination : Nat) (source : List UInt8) (max : Nat) : Bool × Nat :=
  match valueBounds source max with
  | none => (false, destination)
  | some (start, stop) =>
    if start + 1 < max ∧ start ≠ stop ∧ stop - start ≤ 3 ∧ stop - start ≥ 1 then
      (true, (atoi (cstr (valueBytes source start stop)) % 2 ^ 8).toNat)
    else (false, destination)

/-- The destination is a buffer into which the value is copied without a terminator, whatever its
size. If the value leaves no NUL in the array of the caller, `strlen` runs out of that
(`terminatedIn`), which is for the caller to tell: what stands behind the array cannot make the
length 0. -/
def parseStringAfterSpace (destination source : List UInt8) (max : Nat) : Bool × List UInt8 :=
  match valueBounds source max with
  | none => (false, destination)
  | some (start, stop) =>
    if start + 1 < max ∧ start ≠ stop then
      let d := overwrite destination 0 (valueBytes source start stop)
      ((cstr d).length ≠ 0, d)
    else (false, destination)

/-- The loop over the tokens between dots; `numbers` counts the bytes stored. -/
def parseOctets : Nat → List UInt8 → List (List UInt8) → Bool × List UInt8
  | _, destination, [] => (false, destination)
  | numbers, destination, found :: rest =>
    let v := (atoi found % 2 ^ 16).toNat
    if v > 255 then (false, destination)
    else
      let d := overwrite destination numbers [UInt8.ofNat v]
      if rest = [] ∧ numbers + 1 = 4 then (true, d)
      else if rest ≠ [] ∧ numbers + 1 = 4 then (false, d)
      else parseOctets (numbers + 1) d rest

def parseIpaddressAfterSpace (destination source : List UInt8) (max : Nat) : Bool × List UInt8 :=
  match valueBounds source max with
  | none => (false, destination)
  | some (start, stop) =>
    if start + 1 < max ∧ start ≠ stop ∧ stop - start < 17 ∧ stop - start > 7 then
      parseOctets 0 destination (strtokTokens 46 (cstr (valueBytes source start stop)))
    else (false, destination)

/-- `memcmp(&buffer, key, strlen(key)) == 0`. -/
def hasKey (key : String) (buffer : List UInt8) : Bool := (ascii key).isPrefixOf buffer

/-- Run the body of a configuration loop on every line; `line_length` is `strlen(buffer) + 1`. -/
def configLoop {σ : Type} (size : Nat) (body : List UInt8 → Nat → σ → σ) :
    σ → List (List UInt8) → Option σ
  | st, [] => some st
  | st, line :: rest =>
    match lineBuffer size line with
    | none => none
    | some buffer => configLoop size body (body buffer ((cstr buffer).length + 1) st) rest

/-- Whether a loop has a result depends on the lines only. -/
theorem isSome_configLoop {σ : Type} {size : Nat} (body : List UInt8 → Nat → σ → σ) (st : σ)
    (lines : List (List UInt8)) :
    (configLoop size body st lines).isSome = lines.all fun line =>
      (lineBuffer size line).isSome := by
  induction lines generalizing st with
  | nil => rfl
  | cons line lines ih =>
    rw [configLoop, List.all_cons]
    cases lineBuffer size line with
    | none => rfl
    | some buffer => exact ih _

theorem length_readLine (size : Nat) (c : List UInt8) : (readLine size c).1.length ≤ size := by
  induction size generalizing c with
  | zero => simp [readLine]
  | succ size ih =>
    cases c with
    | nil => simp [readLine]
    | cons ch c =>
      have := ih c
      rw [readLine]
      split
      · exact Nat.zero_le _
      · rw [List.length_cons]; omega

theorem length_of_mem_configLines {size fuel : Nat} {c line : List UInt8}
    (h : line ∈ configLines size fuel c) : line.length ≤ size := by
  induction fuel generalizing c with
  | zero => cases h
  | succ fuel ih =>
    rw [configLines] at h
    dsimp only at h
    split at h
    · cases h
    · rcases List.mem_cons.1 h with rfl | h
      · exact length_readLine size c
      · exact ih h

/-- What every step of a loop keeps, the loop keeps. -/
theorem configLoop_inv {σ : Type} {size : Nat} {body : List UInt8 → Nat → σ → σ} {P : σ → Prop}
    (hbody : ∀ buffer max st, buffer.length ≤ size → P st → P (body buffer max st))
    {lines : List (List UInt8)} (hlines : ∀ line ∈ lines, line.length ≤ size) {st st' : σ}
    (h : configLoop size body st lines = some st') (hst : P st) : P st' := by
  induction lines generalizing st with
  | nil => cases h; exact hst
  | cons line lines ih =>
    rw [configLoop] at h
    cases hb : lineBuffer size line with
    | none => rw [hb] at h; cases h
    | some buffer =>
      rw [hb] at h
      have hlen : buffer.length ≤ size := by
        have := hlines line List.mem_cons_self
        unfold lineBuffer at hb
        split at hb
        · cases hb
        · cases hb
          rw [List.length_append, List.length_replicate]; omega
      exact ih (fun l hl => hlines l (List.mem_cons_of_mem _ hl)) h (hbody _ _ _ hlen hst)

theorem getElem?_parseStringAfterSpace (destination source : List UInt8) (m : Nat) {i : Nat}
    (hi : source.length ≤ i) :
    (parseStringAfterSpace destination source m).2[i]? = destination[i]? := by
  unfold parseStringAfterSpace
  split
  · rfl
  · split
    · refine getElem?_overwrite_of_ge ?_
      rw [valueBytes, List.length_take, List.length_drop]
      omega
    · rfl

/-- `strlen` of an array of `size` bytes ends in the array. -/
def terminatedIn (size : Nat) (array : List UInt8) : Bool := (cstr array).length < size

theorem terminatedIn_of_getElem? {size i : Nat} {array : List UInt8} (h : array[i]? = some 0)
    (hi : i < size) : terminatedIn size array = true := by
  have hle : (cstr array).length ≤ i := by
    by_contra hgt
    have hlt : i < (cstr array).length := by omega
    have hat := List.prefix_iff_getElem?.1 (List.takeWhile_prefix (l := array) (· ≠ 0)) i hlt
    have hzero : (cstr array)[i] = 0 := Option.some.inj (hat.symm.trans h)
    exact zero_notMem_cstr array (hzero ▸ List.getElem_mem hlt)
  exact decide_eq_true (by omega)

/-! ### The output parameters of the readers -/

structure MqttConfig where
  serverIp : List UInt8
  serverPort : Nat
  clientId : List UInt8
deriving DecidableEq

structure MqttLogin where
  username : List UInt8
  password : List UInt8
deriving DecidableEq

structure MqttWill where
  willTopic : List UInt8
  willMsg : List UInt8
  willQos : Nat
  willRetain : Bool
deriving DecidableEq

namespace Persistent

def readConfig {σ : Type} (size : Nat) (name : FileName) (body : List UInt8 → Nat → σ → σ)
    (init : σ) (s : Persistent) : Option σ :=
  let c := s.fs.contents name
  configLoop size body init (configLines size (c.length + 1) c)

/-- The value and the `has_…` flag of a numeric setting behind its loop. -/
def numericSetting (key : String) (parse : Nat → List UInt8 → Nat → Bool × Nat) (init : Nat)
    (s : Persistent) : Option (Bool × Nat) :=
  s.readConfig 512 mqttsnConfiguration
    (fun buffer max st => if hasKey key buffer then parse st.2 buffer max else st) (false, init)

/-- A setting as the build delivers it: the debug build replaces a missing one by its default. -/
def settingOrDefault (debug : Bool) (default : Nat) (setting : Bool × Nat) : Nat :=
  if debug ∧ !setting.1 then default else setting.2

def advertiseSetting (s : Persistent) : Option (Bool × Nat) :=
  s.numericSetting "advertise" parseUint16AfterSpace 0
def timeoutSetting (s : Persistent) : Option (Bool × Nat) :=
  s.numericSetting "timeout" parseUint16AfterSpace 0

/-- The setting starts from what `*gateway_id` holds at the call. -/
def gatewayIdSetting (gatewayId : UInt8) (s : Persistent) : Option (Bool × Nat) :=
  s.numericSetting "gatewayid" parseUint8AfterSpace gatewayId.toNat

def getAdvertiseDuration (debug : Bool) (s : Persistent) : Option Nat :=
  s.advertiseSetting.map (settingOrDefault debug 900)

def getTimeoutCheckDuration (debug : Bool) (s : Persistent) : Option Nat :=
  s.timeoutSetting.map (settingOrDefault debug 10)

/-- The function returns `true`; the value is what `*gateway_id` holds afterwards. -/
def getGatewayId (debug : Bool) (gatewayId : UInt8) (s : Persistent) : Option (Bool × Nat) :=
  (s.gatewayIdSetting gatewayId).map fun setting => (true, settingOrDefault debug 0 setting)

def getMqttConfig (out : MqttConfig) (s : Persistent) : Option (Bool × MqttConfig) :=
  (s.readConfig 512 mqttConfiguration
    (fun buffer max (hasAddr, hasPort, hasId, out) =>
      if hasKey "brokeraddress" buffer then
        let (ok, ip) := parseIpaddressAfterSpace out.serverIp buffer max
        (ok, hasPort, hasId, { out with serverIp := ip })
      else if hasKey "brokerport" buffer then
        let (ok, port) := parseUint16AfterSpace out.serverPort buffer max
        (hasAddr, ok, hasId, { out with serverPort := port })
      else if hasKey "clientid" buffer then
        let (ok, clientId) := parseStringAfterSpace out.clientId buffer max
        (hasAddr, hasPort, ok, { out with clientId := clientId })
      else (hasAddr, hasPort, hasId, out))
    (false, false, false, out)).map
    fun (hasAddr, hasPort, hasId, out) => (hasAddr && hasPort && hasId, out)

def getMqttLoginConfig (out : MqttLogin) (s : Persistent) : Option (Bool × MqttLogin) :=
  (s.readConfig 128 mqttConfiguration
    (fun buffer max (hasUsername, hasPassword, out) =>
      if hasKey "username" buffer then
        let (ok, username) := parseStringAfterSpace out.username buffer max
        (ok, hasPassword, { out with username := username })
      else if hasKey "password" buffer then
        let (ok, password) := parseStringAfterSpace out.password buffer max
        (hasUsername, ok, { out with password := password })
      else (hasUsername, hasPassword, out))
    (false, false, out)).map
    fun (hasUsername, hasPassword, out) => (hasUsername && hasPassword, out)

def getMqttWill (out : MqttWill) (s : Persistent) : Option (Bool × MqttWill) :=
  (s.readConfig 128 mqttConfiguration
    (fun buffer max (hasTopic, hasMsg, hasQos, hasRetain, out) =>
      if hasKey "willtopic" buffer then
        let (ok, topic) := parseStringAfterSpace out.willTopic buffer max
        (ok, hasMsg, hasQos, hasRetain, { out with willTopic := topic })
      else if hasKey "willmessage" buffer then
        let (ok, msg) := parseStringAfterSpace out.willMsg buffer max
        (hasTopic, ok, hasQos, hasRetain, { out with willMsg := msg })
      else if hasKey "willqos" buffer then
        let (ok, qos) := parseUint8AfterSpace out.willQos buffer max
        (hasTopic, hasMsg, ok, hasRetain, { out with willQos := qos })
      else if hasKey "willretain" buffer then
        let (ok, number) := parseUint8AfterSpace 0 buffer max
        if ok ∧ number ≤ 1 then
          (hasTopic, hasMsg, hasQos, true, { out with willRetain := number ≠ 0 })
        else (hasTopic, hasMsg, hasQos, hasRetain, out)
      else (hasTopic, hasMsg, hasQos, hasRetain, out))
    (false, false, false, false, out)).map
    fun (hasTopic, hasMsg, hasQos, hasRetain, out) =>
      (hasTopic && hasMsg && hasQos && hasRetain, out)

/-- The values of a will come from lines of at most 128 characters. -/
theorem getElem?_getMqttWill {s : Persistent} {out will : MqttWill} {ok : Bool}
    (h : s.getMqttWill out = some (ok, will)) {i : Nat} (hi : 128 ≤ i) :
    will.willTopic[i]? = out.willTopic[i]? ∧ will.willMsg[i]? = out.willMsg[i]? := by
  unfold getMqttWill at h
  obtain ⟨st, hst, heq⟩ := Option.map_eq_some_iff.1 h
  obtain ⟨hasTopic, hasMsg, hasQos, hasRetain, w⟩ := st
  obtain ⟨-, rfl⟩ := Prod.mk.inj heq
  refine configLoop_inv (P := fun st : Bool × Bool × Bool × Bool × MqttWill =>
    st.2.2.2.2.willTopic[i]? = out.willTopic[i]? ∧ st.2.2.2.2.willMsg[i]? = out.willMsg[i]?) ?_
    (fun _ => length_of_mem_configLines) hst ⟨rfl, rfl⟩
  rintro buffer m ⟨hasTopic, hasMsg, hasQos, hasRetain, w⟩ hbuf ⟨h1, h2⟩
  dsimp only at h1 h2 ⊢
  have hkept := fun d => getElem?_parseStringAfterSpace d buffer m (hbuf.trans hi)
  split
  · exact ⟨(hkept _).trans h1, h2⟩
  · split
    · exact ⟨h1, (hkept _).trans h2⟩
    · split
      · exact ⟨h1, h2⟩
      · split
        · split <;> exact ⟨h1, h2⟩
        · exact ⟨h1, h2⟩

end Persistent

end SnGateway
