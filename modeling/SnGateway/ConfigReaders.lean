import SnGateway.ConfigLines

/-!
# The configuration readers, line by line

A reader of a configuration file is a `LineReader`: the size of its buffer, what it does with a
line, its variables before the loop and what it makes of them. The parsers are handed a terminated
buffer; what they do is said in terms of the text behind the first space (`valueText`).
-/

namespace SnGateway
open RecordStore Lines Persistent

/-! ### Values -/

/-- The text before the first space. -/
def keyText (line : List UInt8) : List UInt8 := line.takeWhile (· ≠ 32)

/-- The text after the first space. -/
def valueText (line : List UInt8) : List UInt8 := (line.dropWhile (· ≠ 32)).tail

section
variable {u : List UInt8}

theorem valueText_of_notMem (h : 32 ∉ u) : valueText u = [] := by
  have hall : ∀ ch ∈ u, (decide (ch ≠ 32)) = true :=
    fun ch hch => decide_eq_true fun h32 => h (h32 ▸ hch)
  rw [valueText, List.dropWhile_eq_nil_iff.2 hall]
  rfl

theorem keyText_space_valueText (h : 32 ∈ u) : u = keyText u ++ 32 :: valueText u := by
  obtain ⟨l, r, rfl, hl⟩ := List.eq_append_cons_of_mem h
  have hall : ∀ ch ∈ l, (decide (ch ≠ 32)) = true :=
    fun ch hch => decide_eq_true fun h32 => hl (h32 ▸ hch)
  rw [keyText, valueText, List.takeWhile_append_of_pos hall, List.dropWhile_append_of_pos hall]
  simp

theorem mem_of_mem_valueText {ch : UInt8} (h : ch ∈ valueText u) : ch ∈ u :=
  (List.dropWhile_sublist _).subset (List.mem_of_mem_tail h)

theorem findSpace_terminated (h10 : 10 ∉ u) (start : Nat) (rest : List UInt8) :
    findSpace (start + u.length + 1) start (u ++ 0 :: rest) =
      if 32 ∈ u then some (start + (keyText u).length, valueText u ++ 0 :: rest) else none := by
  induction u generalizing start with
  | nil => simp [findSpace]
  | cons ch u ih =>
    rw [List.mem_cons, not_or] at h10
    by_cases hch : ch = 32
    · subst hch
      simp [findSpace, keyText, valueText]
    · have hhead : (u ++ 0 :: rest).head? ≠ some 10 := by
        rcases u with - | ⟨ch', u⟩
        · simp
        · simpa using fun h : ch' = 10 => h10.2 (by simp [h])
      have hmax : start + (ch :: u).length + 1 = start + 1 + u.length + 1 := by
        rw [List.length_cons]
        omega
      rw [List.cons_append, findSpace, if_neg hch,
        if_neg (not_or.2 ⟨hhead, by rw [List.length_cons]; omega⟩), hmax,
        ih h10.2]
      have hkey : keyText (ch :: u) = ch :: keyText u :=
        List.takeWhile_cons_of_pos (by simpa using hch)
      have hvalue : valueText (ch :: u) = valueText u := by
        rw [valueText, List.dropWhile_cons_of_pos (by simpa using hch)]
        rfl
      rw [hkey, hvalue, List.length_cons]
      by_cases h32 : 32 ∈ u
      · rw [if_pos h32, if_pos (List.mem_cons_of_mem ch h32)]
        congr 2; omega
      · rw [if_neg h32, if_neg (by simp [h32, Ne.symm hch])]

theorem findEnd_terminated {v : List UInt8} (h0 : 0 ∉ v) (h10 : 10 ∉ v) {m e : Nat}
    (hm : e + v.length ≤ m) (rest : List UInt8) :
    findEnd m e (v ++ 0 :: rest) = some (e + v.length) := by
  induction v generalizing e with
  | nil => simp [findEnd]
  | cons ch v ih =>
    rw [List.mem_cons, not_or] at h0 h10
    rw [List.length_cons] at hm ⊢
    rw [List.cons_append, findEnd, if_neg (not_or.2 ⟨Ne.symm h10.1, Ne.symm h0.1⟩),
      if_neg (by omega),
      ih h0.2 h10.2 (by omega)]
    congr 1; omega

/-- The buffer holds the text `u` and a terminator. -/
theorem valueBounds_terminated (h0 : 0 ∉ u) (h10 : 10 ∉ u) (rest : List UInt8) :
    valueBounds (u ++ 0 :: rest) (u.length + 1) =
      if 32 ∈ u then some ((keyText u).length, (keyText u).length + (valueText u).length)
      else none := by
  have hspace := findSpace_terminated h10 0 rest
  rw [Nat.zero_add, Nat.zero_add] at hspace
  rw [valueBounds, hspace]
  by_cases h32 : 32 ∈ u
  · have hlen := congrArg List.length (keyText_space_valueText h32)
    rw [List.length_append, List.length_cons] at hlen
    simp only [if_pos h32]
    rw [findEnd_terminated (fun h => h0 (mem_of_mem_valueText h))
      (fun h => h10 (mem_of_mem_valueText h)) (by omega)]
  · simp only [if_neg h32]

theorem valueBytes_terminated (h32 : 32 ∈ u) (rest : List UInt8) :
    valueBytes (u ++ 0 :: rest) (keyText u).length ((keyText u).length + (valueText u).length) =
      valueText u := by
  have hu := keyText_space_valueText h32
  have hsplit : u ++ 0 :: rest = (keyText u ++ [32]) ++ (valueText u ++ 0 :: rest) := by
    nth_rewrite 1 [hu]
    simp
  rw [valueBytes, hsplit, List.drop_left' (by simp), Nat.add_sub_cancel_left, List.take_left' rfl]

end

/-! ### The parsers on a terminated buffer -/

section
variable {u : List UInt8}

theorem length_keyText_lt (h32 : 32 ∈ u) : (keyText u).length < u.length := by
  have hlen := congrArg List.length (keyText_space_valueText h32)
  rw [List.length_append, List.length_cons] at hlen
  omega

/-- A value is stored without a terminator; where there is none, the destination is left alone. -/
theorem parseString_terminated (h0 : 0 ∉ u) (h10 : 10 ∉ u) (rest d : List UInt8) :
    parseStringAfterSpace d (u ++ 0 :: rest) (u.length + 1) =
      if valueText u = [] then (false, d) else (true, overwrite d 0 (valueText u)) := by
  rw [parseStringAfterSpace, valueBounds_terminated h0 h10]
  by_cases h32 : 32 ∈ u
  · have hlt := Nat.succ_lt_succ (length_keyText_lt h32)
    simp only [if_pos h32, valueBytes_terminated h32]
    by_cases hv : valueText u = []
    · rw [if_neg (by simp [hv]), if_pos hv]
    · have hpos := List.length_pos_iff.2 hv
      rw [if_pos ⟨hlt, by omega⟩, if_neg hv]
      obtain ⟨ch, v, hcv⟩ := List.exists_cons_of_ne_nil hv
      have hch : ch ≠ 0 := fun h => h0 (mem_of_mem_valueText (by rw [hcv, h]; simp))
      rw [hcv]
      simp [overwrite, cstr, hch]
  · simp [if_neg h32, valueText_of_notMem h32]

/-- What the destination held does not matter. -/
theorem parseUint16_cases (source : List UInt8) (m : Nat) :
    (∀ d, parseUint16AfterSpace d source m = (false, d)) ∨ ∃ v, ∀ d,
      parseUint16AfterSpace d source m = (decide (v ≠ 0), v) := by
  unfold parseUint16AfterSpace
  split
  · exact .inl fun _ => rfl
  · split
    · exact .inr ⟨_, fun _ => rfl⟩
    · exact .inl fun _ => rfl

theorem parseUint8_cases (source : List UInt8) (m : Nat) :
    (∀ d, parseUint8AfterSpace d source m = (false, d)) ∨ ∃ v, ∀ d,
      parseUint8AfterSpace d source m = (true, v) := by
  unfold parseUint8AfterSpace
  split
  · exact .inl fun _ => rfl
  · split
    · exact .inr ⟨_, fun _ => rfl⟩
    · exact .inl fun _ => rfl

/-- An octet that is stored stays. -/
theorem getElem?_parseOctets {i numbers : Nat} {d : List UInt8} (hi : i < numbers)
    (hd : i < d.length) (tokens : List (List UInt8)) :
    (parseOctets numbers d tokens).2[i]? = d[i]? := by
  induction tokens generalizing numbers d with
  | nil => rfl
  | cons found tokens ih =>
    have hd' : ∀ v, (overwrite d numbers [v])[i]? = d[i]? := fun v => getElem?_overwrite_of_lt hi hd
    have hlen : ∀ v, i < (overwrite d numbers [v]).length := fun v => by
      rw [length_overwrite]
      omega
    rw [parseOctets]
    split
    · rfl
    · dsimp only
      split
      · exact hd' _
      · split
        · exact hd' _
        · rw [ih (by omega) (hlen _)]
          exact hd' _

theorem parseIpaddress_cases (source : List UInt8) (m : Nat) :
    (∀ d, (parseIpaddressAfterSpace d source m).1 = false) ∨
      ∃ x, ∀ d, (parseIpaddressAfterSpace d source m).2[0]? = some x := by
  unfold parseIpaddressAfterSpace
  split
  · exact .inl fun _ => rfl
  · next start stop _ =>
    split
    swap
    · exact .inl fun _ => rfl
    rcases strtokTokens 46 (cstr (valueBytes source start stop)) with - | ⟨found, tokens⟩
    · exact .inl fun _ => rfl
    · have hfirst : ∀ (d : List UInt8) v, (overwrite d 0 [v])[0]? = some v := fun d v => by
        simp [overwrite]
      have hlen : ∀ (d : List UInt8) v, 0 < (overwrite d 0 [v]).length := fun d v => by
        rw [length_overwrite]
        exact lt_max_of_lt_right Nat.zero_lt_one
      by_cases hv : (atoi found % 2 ^ 16).toNat > 255
      · exact .inl fun d => by rw [parseOctets, if_pos hv]
      · refine .inr ⟨UInt8.ofNat (atoi found % 2 ^ 16).toNat, fun d => ?_⟩
        rw [parseOctets, if_neg hv]
        dsimp only
        split
        · exact hfirst d _
        · split
          · exact hfirst d _
          · rw [getElem?_parseOctets Nat.zero_lt_one (hlen d _)]
            exact hfirst d _

end

/-! ### Buffers -/

section
variable {size : Nat} {line : List UInt8}

theorem lineBuffer_eq (h : lineBuffer size line ≠ none) :
    lineBuffer size line = some (bufferOf size line) := by
  rw [lineBuffer] at h ⊢
  split at h
  · exact absurd rfl h
  · next hnot => rw [if_neg hnot]; rfl

theorem lineBuffer_of_lt (h : line.length < size) : lineBuffer size line ≠ none := by
  rw [lineBuffer, if_neg fun h' => Nat.ne_of_lt h h'.1]
  exact Option.some_ne_none _

/-- The text of a line with its terminator stands at the front of the buffer. -/
theorem bufferOf_terminated (hlen : line.length ≤ size) (h : lineBuffer size line ≠ none) :
    ∃ rest, bufferOf size line = cstr line ++ 0 :: rest := by
  by_cases h0 : 0 ∈ line
  · obtain ⟨l, r, rfl, hl⟩ := List.eq_append_cons_of_mem h0
    exact ⟨r ++ List.replicate (size - (l ++ 0 :: r).length) 0, by
      rw [cstr_append_zero hl, bufferOf, List.append_assoc, List.cons_append]⟩
  · have hlt : line.length < size := by
      refine Nat.lt_of_le_of_ne hlen fun heq => h ?_
      rw [lineBuffer, if_pos ⟨heq, h0⟩]
    obtain ⟨k, hk⟩ : ∃ k, size - line.length = k + 1 := ⟨size - line.length - 1, by omega⟩
    exact ⟨List.replicate k 0, by rw [bufferOf, hk, cstr_eq_self h0, List.replicate_succ]⟩

/-- What becomes of a line that is handed to the string parser. -/
theorem parseString_line (h10 : 10 ∉ line) (hlen : line.length ≤ size)
    (h : lineBuffer size line ≠ none) (d : List UInt8) :
    parseStringAfterSpace d (bufferOf size line) ((cstr (bufferOf size line)).length + 1) =
      if valueText (cstr line) = [] then (false, d)
      else (true, overwrite d 0 (valueText (cstr line))) := by
  obtain ⟨rest, hbuf⟩ := bufferOf_terminated hlen h
  have h0 := zero_notMem_cstr line
  have h10' : 10 ∉ cstr line := fun hmem => h10 ((List.takeWhile_sublist _).subset hmem)
  rw [hbuf, cstr_append_zero h0, parseString_terminated h0 h10']

/-- A line begins with one key at most. -/
theorem hasKey_exclusive {key key' : String}
    (h : ¬ ascii key <+: ascii key' ∧ ¬ ascii key' <+: ascii key) (hk : hasKey key line = true) :
    hasKey key' line = false := by
  rw [hasKey, List.isPrefixOf_iff_prefix] at hk
  rw [← Bool.not_eq_true, hasKey, List.isPrefixOf_iff_prefix]
  exact fun hk' => (List.prefix_or_prefix_of_prefix hk hk').elim h.1 h.2

theorem hasKey_bufferOf (key : String) (hkey : 0 ∉ ascii key) :
    hasKey key (bufferOf size line) = hasKey key line := by
  rw [Bool.eq_iff_iff, hasKey, hasKey, List.isPrefixOf_iff_prefix, List.isPrefixOf_iff_prefix,
    bufferOf]
  constructor
  · intro h
    by_cases hlen : (ascii key).length ≤ line.length
    · exact List.prefix_of_prefix_length_le h (List.prefix_append line _) hlen
    · -- the key would reach into the zeros
      obtain ⟨t, ht⟩ := h
      have hget : (ascii key)[line.length]? = some 0 := by
        have hfront : (ascii key ++ t)[line.length]? = (ascii key)[line.length]? :=
          List.getElem?_append_left (by omega)
        rw [← hfront, ht, List.getElem?_append_right (Nat.le_refl _), List.getElem?_replicate,
          if_pos]
        have := congrArg List.length ht
        rw [List.length_append, List.length_append, List.length_replicate] at this
        omega
      exact absurd (List.mem_of_getElem? hget) hkey
  · exact fun h => h.trans (List.prefix_append _ _)

end

/-! ### Readers -/

/-- A reader of a configuration file. `α` is what its output parameters hold at the call. -/
structure LineReader (α σ ρ : Type) where
  size : Nat
  body : List UInt8 → Nat → σ → σ
  init : α → σ
  finish : σ → ρ

namespace LineReader

variable {α σ ρ : Type} (r : LineReader α σ ρ)

/-- The variables behind the loop. -/
def state (a : α) (c : List UInt8) : Option σ :=
  configLoop r.size r.body (r.init a) (linesRead r.size c)

def read (a : α) (c : List UInt8) : Option ρ := (r.state a c).map r.finish

/-- One round of the loop. -/
def onLine (st : σ) (line : List UInt8) : σ :=
  r.body (bufferOf r.size line) ((cstr (bufferOf r.size line)).length + 1) st

/-- Every line that is read leaves a terminator in the buffer. -/
def Terminated (size : Nat) (c : List UInt8) : Prop :=
  ∀ line ∈ linesRead size c, lineBuffer size line ≠ none

instance (size : Nat) (c : List UInt8) : Decidable (Terminated size c) := by
  unfold Terminated
  infer_instance

variable {r}

theorem configLoop_eq_foldlLines {ls : List (List UInt8)}
    (h : ∀ line ∈ ls, lineBuffer r.size line ≠ none) (st : σ) :
    configLoop r.size r.body st ls = some (ls.foldl r.onLine st) := by
  induction ls generalizing st with
  | nil => rfl
  | cons line ls ih =>
    obtain ⟨hline, hls⟩ := List.forall_mem_cons.1 h
    rw [configLoop, lineBuffer_eq hline]
    exact ih hls _

theorem state_of_terminated {c : List UInt8} (h : Terminated r.size c) (a : α) :
    r.state a c = some ((linesRead r.size c).foldl r.onLine (r.init a)) :=
  configLoop_eq_foldlLines h _

theorem state_eq_none_iff {c : List UInt8} {a : α} : r.state a c = none ↔ ¬ Terminated r.size c :=
  configLoop_eq_none_iff _ _

end LineReader

def mqttConfigReader :
    LineReader MqttConfig (Bool × Bool × Bool × MqttConfig) (Bool × MqttConfig) where
  size := 512
  body := fun buffer max (hasAddr, hasPort, hasId, out) =>
    if hasKey "brokeraddress" buffer then
      let (ok, ip) := parseIpaddressAfterSpace out.serverIp buffer max
      (ok, hasPort, hasId, { out with serverIp := ip })
    else if hasKey "brokerport" buffer then
      let (ok, port) := parseUint16AfterSpace out.serverPort buffer max
      (hasAddr, ok, hasId, { out with serverPort := port })
    else if hasKey "clientid" buffer then
      let (ok, clientId) := parseStringAfterSpace out.clientId buffer max
      (hasAddr, hasPort, ok, { out with clientId := clientId })
    else (hasAddr, hasPort, hasId, out)
  init := fun out => (false, false, false, out)
  finish := fun (hasAddr, hasPort, hasId, out) => (hasAddr && hasPort && hasId, out)

def mqttLoginReader : LineReader MqttLogin (Bool × Bool × MqttLogin) (Bool × MqttLogin) where
  size := 128
  body := fun buffer max (hasUsername, hasPassword, out) =>
    if hasKey "username" buffer then
      let (ok, username) := parseStringAfterSpace out.username buffer max
      (ok, hasPassword, { out with username := username })
    else if hasKey "password" buffer then
      let (ok, password) := parseStringAfterSpace out.password buffer max
      (hasUsername, ok, { out with password := password })
    else (hasUsername, hasPassword, out)
  init := fun out => (false, false, out)
  finish := fun (hasUsername, hasPassword, out) => (hasUsername && hasPassword, out)

def mqttWillReader :
    LineReader MqttWill (Bool × Bool × Bool × Bool × MqttWill) (Bool × MqttWill) where
  size := 128
  body := fun buffer max (hasTopic, hasMsg, hasQos, hasRetain, out) =>
    if hasKey "willtopic" buffer then
      let (ok, topic) := parseStringAfterSpace out.willTopic buffer max
      (ok, hasMsg, hasQos, hasRetain, { out with willTopic := topic })
    else if hasKey "willmessage" buffer then
      let (ok, msg) := parseStringAfterSpace out.willMsg buffer max
      (hasTopic, ok, hasQos, hasRetain, { out with willMsg := msg })
    else if hasKey "willqos" buffer then
      let (ok, qos) := parseUint8AfterSpace out.willQos buffer max
      (hasTopic, hasMsg, ok, hasRetain, { out with willQos := qos })
    else if hasKey "willretain" buffer then
      let (ok, number) := parseUint8AfterSpace 0 buffer max
      if ok ∧ number ≤ 1 then
        (hasTopic, hasMsg, hasQos, true, { out with willRetain := number ≠ 0 })
      else (hasTopic, hasMsg, hasQos, hasRetain, out)
    else (hasTopic, hasMsg, hasQos, hasRetain, out)
  init := fun out => (false, false, false, false, out)
  finish := fun (hasTopic, hasMsg, hasQos, hasRetain, out) =>
    (hasTopic && hasMsg && hasQos && hasRetain, out)

/-- The reader of one number of `MQTTSN.CON`. -/
def numberReader {α ρ : Type} (key : String) (parse : Nat → List UInt8 → Nat → Bool × Nat)
    (init : α → Nat) (finish : Bool × Nat → ρ) : LineReader α (Bool × Nat) ρ where
  size := 512
  body := fun buffer max st => if hasKey key buffer then parse st.2 buffer max else st
  init := fun a => (false, init a)
  finish := finish

def advertiseReader : LineReader Unit (Bool × Nat) Nat :=
  numberReader "advertise" parseUint16AfterSpace (fun _ => 0)
    (settingOrDefault PERSISTENT_DEBUG 900)

def timeoutReader : LineReader Unit (Bool × Nat) Nat :=
  numberReader "timeout" parseUint16AfterSpace (fun _ => 0) (settingOrDefault PERSISTENT_DEBUG 10)

def gatewayIdReader : LineReader UInt8 (Bool × Nat) (Bool × Nat) :=
  numberReader "gatewayid" parseUint8AfterSpace UInt8.toNat fun setting =>
    (true, settingOrDefault PERSISTENT_DEBUG 0 setting)

/-- A setting of a reader whose result has a flag: its flag and its value in the loop, which the
lines that begin with its key set and no others, and its value in the result. -/
structure LineReader.Setting {α σ ω : Type} (r : LineReader α σ (Bool × ω)) (τ : Type) where
  key : String
  view : σ → Bool × τ
  parse : τ → List UInt8 → Nat → Bool × τ
  get : ω → τ
  onLine : ∀ st line, view (r.onLine st line) =
    if hasKey key line then
      parse (view st).2 (bufferOf r.size line) ((cstr (bufferOf r.size line)).length + 1)
    else view st
  flag : ∀ st, (r.finish st).1 = true → (view st).1 = true
  value : ∀ st, get (r.finish st).2 = (view st).2

/-- A line sets the variables of the key it begins with and leaves the others alone. -/
theorem mqttConfigReader_onLine (st : Bool × Bool × Bool × MqttConfig) (line : List UInt8) :
    let buffer := bufferOf 512 line
    let max := (cstr buffer).length + 1
    let st' := mqttConfigReader.onLine st line
    ((st'.1, st'.2.2.2.serverIp) = if hasKey "brokeraddress" line then
        parseIpaddressAfterSpace st.2.2.2.serverIp buffer max else (st.1, st.2.2.2.serverIp)) ∧
    ((st'.2.1, st'.2.2.2.serverPort) = if hasKey "brokerport" line then
        parseUint16AfterSpace st.2.2.2.serverPort buffer max else (st.2.1, st.2.2.2.serverPort)) ∧
    ((st'.2.2.1, st'.2.2.2.clientId) = if hasKey "clientid" line then
        parseStringAfterSpace st.2.2.2.clientId buffer max else (st.2.2.1, st.2.2.2.clientId)) := by
  simp only [LineReader.onLine, mqttConfigReader, hasKey_bufferOf "brokeraddress" (by decide),
    hasKey_bufferOf "brokerport" (by decide), hasKey_bufferOf "clientid" (by decide)]
  by_cases h1 : hasKey "brokeraddress" line = true
  · have h2 : hasKey "brokerport" line = false := hasKey_exclusive (by decide) h1
    have h3 : hasKey "clientid" line = false := hasKey_exclusive (by decide) h1
    simp [h1, h2, h3]
  · by_cases h2 : hasKey "brokerport" line = true
    · have h3 : hasKey "clientid" line = false := hasKey_exclusive (by decide) h2
      simp [h1, h2, h3]
    · by_cases h3 : hasKey "clientid" line = true <;> simp [h1, h2, h3]

def brokeraddressSetting : mqttConfigReader.Setting (List UInt8) where
  key := "brokeraddress"
  view := fun (hasAddr, _, _, out) => (hasAddr, out.serverIp)
  parse := parseIpaddressAfterSpace
  get := MqttConfig.serverIp
  onLine := fun st line => (mqttConfigReader_onLine st line).1
  flag := by
    rintro ⟨hasAddr, hasPort, hasId, out⟩ h
    simp only [mqttConfigReader, Bool.and_eq_true] at h
    exact h.1.1
  value := fun _ => rfl

def brokerportSetting : mqttConfigReader.Setting Nat where
  key := "brokerport"
  view := fun (_, hasPort, _, out) => (hasPort, out.serverPort)
  parse := parseUint16AfterSpace
  get := MqttConfig.serverPort
  onLine := fun st line => (mqttConfigReader_onLine st line).2.1
  flag := by
    rintro ⟨hasAddr, hasPort, hasId, out⟩ h
    simp only [mqttConfigReader, Bool.and_eq_true] at h
    exact h.1.2
  value := fun _ => rfl

def clientidSetting : mqttConfigReader.Setting (List UInt8) where
  key := "clientid"
  view := fun (_, _, hasId, out) => (hasId, out.clientId)
  parse := parseStringAfterSpace
  get := MqttConfig.clientId
  onLine := fun st line => (mqttConfigReader_onLine st line).2.2
  flag := by
    rintro ⟨hasAddr, hasPort, hasId, out⟩ h
    simp only [mqttConfigReader, Bool.and_eq_true] at h
    exact h.2
  value := fun _ => rfl

theorem mqttLoginReader_onLine (st : Bool × Bool × MqttLogin) (line : List UInt8) :
    let buffer := bufferOf 128 line
    let max := (cstr buffer).length + 1
    let st' := mqttLoginReader.onLine st line
    ((st'.1, st'.2.2.username) = if hasKey "username" line then
        parseStringAfterSpace st.2.2.username buffer max else (st.1, st.2.2.username)) ∧
    ((st'.2.1, st'.2.2.password) = if hasKey "password" line then
        parseStringAfterSpace st.2.2.password buffer max else (st.2.1, st.2.2.password)) := by
  simp only [LineReader.onLine, mqttLoginReader, hasKey_bufferOf "username" (by decide),
    hasKey_bufferOf "password" (by decide)]
  by_cases h1 : hasKey "username" line = true
  · have h2 : hasKey "password" line = false := hasKey_exclusive (by decide) h1
    simp [h1, h2]
  · by_cases h2 : hasKey "password" line = true <;> simp [h1, h2]

def usernameSetting : mqttLoginReader.Setting (List UInt8) where
  key := "username"
  view := fun (hasUsername, _, out) => (hasUsername, out.username)
  parse := parseStringAfterSpace
  get := MqttLogin.username
  onLine := fun st line => (mqttLoginReader_onLine st line).1
  flag := by
    rintro ⟨hasUsername, hasPassword, out⟩ h
    simp only [mqttLoginReader, Bool.and_eq_true] at h
    exact h.1
  value := fun _ => rfl

def passwordSetting : mqttLoginReader.Setting (List UInt8) where
  key := "password"
  view := fun (_, hasPassword, out) => (hasPassword, out.password)
  parse := parseStringAfterSpace
  get := MqttLogin.password
  onLine := fun st line => (mqttLoginReader_onLine st line).2
  flag := by
    rintro ⟨hasUsername, hasPassword, out⟩ h
    simp only [mqttLoginReader, Bool.and_eq_true] at h
    exact h.2
  value := fun _ => rfl

/-- `willretain` sets no variable of the other keys either. -/
theorem mqttWillReader_onLine (st : Bool × Bool × Bool × Bool × MqttWill) (line : List UInt8) :
    let buffer := bufferOf 128 line
    let max := (cstr buffer).length + 1
    let st' := mqttWillReader.onLine st line
    ((st'.1, st'.2.2.2.2.willTopic) = if hasKey "willtopic" line then
        parseStringAfterSpace st.2.2.2.2.willTopic buffer max else (st.1, st.2.2.2.2.willTopic)) ∧
    ((st'.2.1, st'.2.2.2.2.willMsg) = if hasKey "willmessage" line then
        parseStringAfterSpace st.2.2.2.2.willMsg buffer max else (st.2.1, st.2.2.2.2.willMsg)) ∧
    ((st'.2.2.1, st'.2.2.2.2.willQos) = if hasKey "willqos" line then
        parseUint8AfterSpace st.2.2.2.2.willQos buffer max
        else (st.2.2.1, st.2.2.2.2.willQos)) := by
  simp only [LineReader.onLine, mqttWillReader, hasKey_bufferOf "willtopic" (by decide),
    hasKey_bufferOf "willmessage" (by decide), hasKey_bufferOf "willqos" (by decide)]
  by_cases h1 : hasKey "willtopic" line = true
  · have h2 : hasKey "willmessage" line = false := hasKey_exclusive (by decide) h1
    have h3 : hasKey "willqos" line = false := hasKey_exclusive (by decide) h1
    simp [h1, h2, h3]
  · by_cases h2 : hasKey "willmessage" line = true
    · have h3 : hasKey "willqos" line = false := hasKey_exclusive (by decide) h2
      simp [h1, h2, h3]
    · by_cases h3 : hasKey "willqos" line = true
      · simp [h1, h2, h3]
      · simp only [h1, h2, h3, Bool.false_eq_true, if_false]
        split
        · split <;> exact ⟨rfl, rfl, rfl⟩
        · exact ⟨rfl, rfl, rfl⟩

def willtopicSetting : mqttWillReader.Setting (List UInt8) where
  key := "willtopic"
  view := fun (hasTopic, _, _, _, out) => (hasTopic, out.willTopic)
  parse := parseStringAfterSpace
  get := MqttWill.willTopic
  onLine := fun st line => (mqttWillReader_onLine st line).1
  flag := by
    rintro ⟨hasTopic, hasMsg, hasQos, hasRetain, out⟩ h
    simp only [mqttWillReader, Bool.and_eq_true] at h
    exact h.1.1.1
  value := fun _ => rfl

def willmessageSetting : mqttWillReader.Setting (List UInt8) where
  key := "willmessage"
  view := fun (_, hasMsg, _, _, out) => (hasMsg, out.willMsg)
  parse := parseStringAfterSpace
  get := MqttWill.willMsg
  onLine := fun st line => (mqttWillReader_onLine st line).2.1
  flag := by
    rintro ⟨hasTopic, hasMsg, hasQos, hasRetain, out⟩ h
    simp only [mqttWillReader, Bool.and_eq_true] at h
    exact h.1.1.2
  value := fun _ => rfl

def willqosSetting : mqttWillReader.Setting Nat where
  key := "willqos"
  view := fun (_, _, hasQos, _, out) => (hasQos, out.willQos)
  parse := parseUint8AfterSpace
  get := MqttWill.willQos
  onLine := fun st line => (mqttWillReader_onLine st line).2.2
  flag := by
    rintro ⟨hasTopic, hasMsg, hasQos, hasRetain, out⟩ h
    simp only [mqttWillReader, Bool.and_eq_true] at h
    exact h.1.2
  value := fun _ => rfl

namespace Persistent

def withFile (s : Persistent) (name : FileName) (c : List UInt8) : Persistent :=
  { s with fs := s.fs.set name c }

variable (s : Persistent)

theorem getMqttConfig_eq_read (out : MqttConfig) :
    s.getMqttConfig out = mqttConfigReader.read out (s.fs.contents mqttConfiguration) := rfl

theorem getMqttLoginConfig_eq_read (out : MqttLogin) :
    s.getMqttLoginConfig out = mqttLoginReader.read out (s.fs.contents mqttConfiguration) := rfl

theorem getMqttWill_eq_read (out : MqttWill) :
    s.getMqttWill out = mqttWillReader.read out (s.fs.contents mqttConfiguration) := rfl

theorem getAdvertiseDuration_eq_read :
    s.getAdvertiseDuration PERSISTENT_DEBUG = advertiseReader.read ()
      (s.fs.contents mqttsnConfiguration) := rfl

theorem getTimeoutCheckDuration_eq_read :
    s.getTimeoutCheckDuration PERSISTENT_DEBUG = timeoutReader.read ()
      (s.fs.contents mqttsnConfiguration) := rfl

theorem getGatewayId_eq_read (gatewayId : UInt8) :
    s.getGatewayId PERSISTENT_DEBUG gatewayId = gatewayIdReader.read gatewayId
      (s.fs.contents mqttsnConfiguration) := rfl

end Persistent

end SnGateway
