import SnGateway.Interface

/-!
# The debug build and the other one

`PERSISTENT_DEBUG` is meant to add log output only. Two `return`s and three defaults stand inside
its sections: without it `is_subscribed` and `add_subscription` run past a subscription that exists,
and the numbers of `MQTTSN.CON` have no defaults. And some of the numbers it prints are too long for
their arrays. `DebugNeutral` says when this makes no difference, and `builds_agree_iff` that nothing
else does.
-/

namespace SnGateway
open RecordStore Persistent

variable {p : Platform} {s : Persistent}

/-! ### Configuration -/

/-- A line as it stands in the buffer of `size` bytes. -/
def bufferOf (size : Nat) (line : List UInt8) : List UInt8 :=
  line ++ List.replicate (size - line.length) 0

/-- The buffers of the lines of `MQTTSN.CON` with the given key. -/
def Persistent.settingLines (key : String) (s : Persistent) : List (List UInt8) :=
  let c := s.fs.contents mqttsnConfiguration
  ((configLines 512 (c.length + 1) c).map (bufferOf 512)).filter (hasKey key)

/-- The last line with the key holds a number that is accepted. -/
def Persistent.Configured (key : String) (parse : Nat → List UInt8 → Nat → Bool × Nat)
    (s : Persistent) : Prop :=
  ∃ b, (s.settingLines key).getLast? = some b ∧ (parse 0 b ((cstr b).length + 1)).1 = true

def Persistent.settingValue (key : String) (parse : Nat → List UInt8 → Nat → Bool × Nat)
    (init : Nat) (s : Persistent) : Nat :=
  (s.settingLines key).foldl (fun v b => (parse v b ((cstr b).length + 1)).2) init

theorem parseUint16_flag (d : Nat) (b : List UInt8) (m : Nat) :
    (parseUint16AfterSpace d b m).1 = (parseUint16AfterSpace 0 b m).1 := by
  unfold parseUint16AfterSpace
  split
  · rfl
  · split <;> rfl

theorem parseUint8_flag (d : Nat) (b : List UInt8) (m : Nat) :
    (parseUint8AfterSpace d b m).1 = (parseUint8AfterSpace 0 b m).1 := by
  unfold parseUint8AfterSpace
  split
  · rfl
  · split <;> rfl

section
variable {key : String} {parse : Nat → List UInt8 → Nat → Bool × Nat}

theorem configLoop_eq_foldl (lines : List (List UInt8)) (st st' : Bool × Nat)
    (h : configLoop 512 (fun buffer max st => if hasKey key buffer then parse st.2 buffer max
      else st) st lines = some st') :
    st' = ((lines.map (bufferOf 512)).filter (hasKey key)).foldl
      (fun st b => parse st.2 b ((cstr b).length + 1)) st := by
  induction lines generalizing st with
  | nil => simpa [configLoop] using h.symm
  | cons line lines ih =>
    rw [configLoop] at h
    split at h
    · cases h
    · next buffer hbuf =>
      have hb : buffer = bufferOf 512 line := by
        rw [lineBuffer] at hbuf
        split at hbuf
        · cases hbuf
        · exact (Option.some.inj hbuf).symm
      subst hb
      have := ih _ h
      rw [List.map_cons, List.filter_cons]
      by_cases hk : hasKey key (bufferOf 512 line) = true
      · rw [if_pos hk] at this ⊢
        exact this
      · rw [if_neg hk] at this ⊢
        exact this

theorem foldl_setting (hflag : ∀ d b m, (parse d b m).1 = (parse 0 b m).1) (bs : List (List UInt8))
    (st : Bool × Nat) :
    bs.foldl (fun st b => parse st.2 b ((cstr b).length + 1)) st =
      ((bs.getLast?.map fun b => (parse 0 b ((cstr b).length + 1)).1).getD st.1,
        bs.foldl (fun v b => (parse v b ((cstr b).length + 1)).2) st.2) := by
  induction bs generalizing st with
  | nil => rfl
  | cons b bs ih =>
    rw [List.foldl_cons, ih, List.foldl_cons, List.getLast?_cons]
    cases bs.getLast? with
    | none => simp [hflag]
    | some l => simp

theorem numericSetting_eq (hflag : ∀ d b m, (parse d b m).1 = (parse 0 b m).1) {init : Nat}
    {st : Bool × Nat} (h : s.numericSetting key parse init = some st) :
    (st.1 = true ↔ s.Configured key parse) ∧ st.2 = s.settingValue key parse init := by
  have hst := configLoop_eq_foldl _ _ _ h
  rw [foldl_setting hflag] at hst
  subst hst
  refine ⟨?_, rfl⟩
  show ((s.settingLines key).getLast?.map _).getD false = true ↔ _
  unfold Configured
  cases (s.settingLines key).getLast? <;> simp

end

/-- Every line of `MQTTSN.CON` leaves a terminator in its buffer. -/
def Persistent.Readable (s : Persistent) : Prop :=
  ∀ line ∈ configLines 512 ((s.fs.contents mqttsnConfiguration).length +
    1) (s.fs.contents mqttsnConfiguration),
    lineBuffer 512 line ≠ none

theorem configLoop_eq_none_iff {σ : Type} {size : Nat} {body : List UInt8 → Nat → σ → σ}
    (lines : List (List UInt8)) (st : σ) :
    configLoop size body st lines = none ↔ ¬ ∀ line ∈ lines, lineBuffer size line ≠ none := by
  induction lines generalizing st with
  | nil => simp [configLoop]
  | cons line lines ih =>
    rw [configLoop, List.forall_mem_cons]
    split
    · next h => simp [h]
    · next buffer h => rw [ih]; simp [h]

/-- The builds agree on a numeric setting when it is there, when it is the default anyway, and when
neither of them has a defined result. -/
theorem settingOrDefault_iff {key : String} {parse : Nat → List UInt8 → Nat → Bool × Nat}
    {init default : Nat} (hflag : ∀ d b m, (parse d b m).1 = (parse 0 b m).1) :
    (s.numericSetting key parse init).map (settingOrDefault true default) =
        (s.numericSetting key parse init).map (settingOrDefault false default) ↔
      (s.Readable → s.Configured key parse ∨ s.settingValue key parse init = default) := by
  cases h : s.numericSetting key parse init with
  | none =>
    have hread : ¬ s.Readable := (configLoop_eq_none_iff _ _).1 h
    simp [hread]
  | some st =>
    have hread : s.Readable := by
      by_contra hno
      have hnone : s.numericSetting key parse init = none := (configLoop_eq_none_iff _ _).2 hno
      rw [hnone] at h; cases h
    obtain ⟨hc, hv⟩ := numericSetting_eq hflag h
    rw [← hc, ← hv]
    simp only [Option.map_some, Option.some.injEq, settingOrDefault, hread, true_implies]
    cases st.1 <;> simp [eq_comm]

/-! ### Subscriptions -/

/-- The client's subscription file has a record that satisfies `q`. -/
def Persistent.HasSubscription (q : EntrySubscription → Bool) (s : Persistent) : Prop :=
  ∃ r ∈ reads 258 (s.fs.contents (s.clientFile .subscribe)), r.1 = 258 ∧ q r.2 = true

/-- The last free slot of the client's subscription file, or without one the slot behind the last
record, as a `uint16_t` counts them, already holds the very record. -/
def Persistent.HoldsRecord (p : Platform) (t : CString) (topicId : UInt16) (qos : UInt8)
    (s : Persistent) : Prop :=
  let c := s.fs.contents (s.clientFile .subscribe)
  let free := lastIdx? (fun r => r.1 = 258 && EntrySubscription.isEmpty r.2) (reads 258 c)
  let slot := firstEmptySpace ((reads 258 c).length % 2 ^ 16) (free.map fun k => k % 2 ^ 16)
  (c.drop (p.seek true c.length (sizeMul slot 258)).1).take 258 =
    (EntrySubscription.make t topicId qos).bytes

theorem findSubscription_eq_none_iff (t : CString) :
    s.findSubscription t = none ↔ ¬ s.HasSubscription (EntrySubscription.hasName t) := by
  have hiff := (subscriptionScanner (EntrySubscription.hasName t) (2 ^ 16)).scan_found_iff
    (by omega) (Nat.two_pow_pos 16)
    (s.fs.contents (s.clientFile .subscribe))
  have hstops : (subscriptionScanner (EntrySubscription.hasName t) (2 ^ 16)).stops =
      EntrySubscription.hasName t := by
    funext e
    simp [Scanner.stops, subscriptionScanner]
  rw [hstops] at hiff
  rw [HasSubscription, ← hiff, findSubscription]
  split
  · next k e h => exact ⟨fun hnone => (by cases hnone), fun hno => absurd ⟨k, e, h⟩ hno⟩
  · next h =>
    refine ⟨fun _ => ?_, fun _ => rfl⟩
    rintro ⟨k, e, hf⟩
    rw [h] at hf; cases hf

theorem isSubscribed_iff (topicName : Option CString) :
    s.isSubscribed true topicName = s.isSubscribed false topicName ↔
      (s.blocked = false → s.notInClientRegistry = false → ∀ t ∈ checkTopicName topicName,
        ¬ s.HasSubscription (EntrySubscription.hasName t)) := by
  unfold isSubscribed
  by_cases hb : s.blocked = true
  · simp [hb]
  have hopen : s.blocked = false := by simpa using hb
  by_cases hn : s.notInClientRegistry = true
  · simp [hn]
  have hin : s.notInClientRegistry = false := by simpa using hn
  cases ht : checkTopicName topicName with
  | none => simp
  | some t =>
    have hfind := findSubscription_eq_none_iff (s := s) t
    simp only [hopen, hin, Bool.false_eq_true, if_false, true_implies, Option.mem_def,
      Option.some.injEq,
      forall_eq', ← hfind]
    cases s.findSubscription t <;> simp

theorem addSubscriptionScanner_stops (debug : Bool) (t : CString) {i : UInt16} (hi : i ≠ 0)
    (e : EntrySubscription) :
    (addSubscriptionScanner debug t i).stops e =
      (debug && EntrySubscription.hasTopicId i e && EntrySubscription.hasName t e) := by
  have hempty : EntrySubscription.hasTopicId i e = true → EntrySubscription.isEmpty e = false := by
    intro h
    have h' : e.getNat EntrySubscription.topicId = i.toNat := by
      simpa [EntrySubscription.hasTopicId] using h
    have hne : i.toNat ≠ 0 := fun h0 => hi (UInt16.toNat_inj.1 (by simpa using h0))
    simp [EntrySubscription.isEmpty, h', hne]
  simp only [Scanner.stops, addSubscriptionScanner]
  cases h : EntrySubscription.hasTopicId i e with
  | false => simp
  | true => simp [hempty h]

theorem addSubscription_exhausts (t : CString) {i : UInt16} (hi : i ≠ 0) (c : List UInt8) :
    ∃ buffer, (addSubscriptionScanner false t i).scan c = .exhausted ((reads 258 c).length % 2 ^ 16)
      ((lastIdx? (fun r => r.1 = 258 && EntrySubscription.isEmpty r.2) (reads 258 c)).map fun k =>
        k % 2 ^ 16) buffer := by
  refine (addSubscriptionScanner false t i).scan_exhausted (by omega) rfl (Nat.two_pow_pos 16) c
    fun r _ _ => ?_
  rw [addSubscriptionScanner_stops false t hi]
  rfl

theorem addSubscription_iff (topicName : Option CString) (i : UInt16) (qos : UInt8) :
    s.addSubscription p true topicName i qos = s.addSubscription p false topicName i qos ↔
      (s.blocked = false → s.notInClientRegistry = false → i ≠ 0 → ∀ t ∈ checkTopicName topicName,
        s.HasSubscription (fun e => EntrySubscription.hasTopicId i e &&
          EntrySubscription.hasName t e) →
          s.HoldsRecord p t i qos) := by
  unfold addSubscription
  by_cases hb : s.blocked = true
  · simp [hb]
  have hopen : s.blocked = false := by simpa using hb
  by_cases hn : s.notInClientRegistry = true
  · simp [hn]
  have hin : s.notInClientRegistry = false := by simpa using hn
  cases ht : checkTopicName topicName with
  | none => simp
  | some t =>
    by_cases hi : i = 0
    · simp [hi]
    obtain ⟨buffer, hfalse⟩ :=
      addSubscription_exhausts t hi (s.fs.contents (s.clientFile .subscribe))
    have hfound := (addSubscriptionScanner true t i).scan_found_iff (by omega) (Nat.two_pow_pos 16)
      (s.fs.contents (s.clientFile .subscribe))
    simp only [addSubscriptionScanner_stops true t hi, Bool.true_and] at hfound
    simp only [hopen, hin, hi, Bool.false_eq_true, if_false, true_implies, Option.mem_def,
      Option.some.injEq,
      forall_eq', hfalse, ne_eq, not_false_eq_true]
    by_cases hsub : s.HasSubscription fun e => EntrySubscription.hasTopicId i e &&
      EntrySubscription.hasName t e
    · -- only the debug build stops here
      obtain ⟨k, e, htrue⟩ := hfound.2 hsub
      have hfile : s.fs.contents (s.clientFile .subscribe) ≠ [] := by
        intro h0
        rw [h0, Scanner.scan_nil _ (by omega)] at htrue
        cases htrue
      have hne : (EntrySubscription.make t i qos).bytes ≠ [] := by
        intro h0
        have := (EntrySubscription.make t i qos).size_eq
        rw [h0] at this; cases this
      have hself := fun target => Files.writeAt_eq_self_iff p target hne hfile
      rw [(EntrySubscription.make t i qos).size_eq] at hself
      rw [htrue]
      simp only [hsub, true_implies, HoldsRecord, ← hself]
      constructor
      · intro h
        have hfs : s.fs = _ := congrArg Persistent.fs h
        exact hfs.symm
      · intro h
        rw [h, ← hin]
    · have hscan :
        (addSubscriptionScanner true t i).scan (s.fs.contents (s.clientFile .subscribe)) =
          (addSubscriptionScanner false t i).scan (s.fs.contents (s.clientFile .subscribe)) := by
        refine Scanner.scan_congr (addSubscriptionScanner false t i)
          (addSubscriptionScanner true t i) rfl rfl rfl
          fun r hr hgot => ?_
        rw [addSubscriptionScanner_stops true t hi, addSubscriptionScanner_stops false t hi]
        have := fun hq => hsub ⟨r, hr, hgot, hq⟩
        simpa using this
      rw [hscan, hfalse]
      simp [hsub]

/-! ### Log texts -/

/-- The debug build has room for what `f` makes of the count of the topic, if it gets to a record
with it. -/
def Persistent.CountFits (f : Nat → Nat) (topicName : Option CString) (s : Persistent) : Prop :=
  s.error = false → ∀ t ∈ checkTopicName topicName, ∀ k e,
    (mqttSubScanner t).scan (s.fs.contents mqttSub) = .found k e →
      (decimalInt (f (e.getNat EntryMqttSubscription.clientSubscriptionCount))).length < 6

theorem logFits_false (size n : Nat) : logFits false size n = true := rfl

theorem logFits_true {size n : Nat} :
    logFits true size n = true ↔ (decimalInt n).length < size := by
  simp [logFits]

theorem voidIf_inj {b : Bool} : Reply.voidIf b = Reply.voidIf true ↔ b = true := by
  cases b <;> simp [Reply.voidIf]

theorem addClientLogs_iff (clientId : CString) (duration : UInt32) :
    s.addClientLogs true clientId duration = s.addClientLogs false clientId duration ↔
      (s.blocked = false → s.notInClientRegistry = true →
        clientId.length < MAXIMUM_CLIENT_ID_LENGTH →
        (decimalInt duration.toNat).length < 10) := by
  have hplain : s.addClientLogs false clientId duration = true := by
    simp [addClientLogs, logFits_false]
  rw [hplain]
  unfold addClientLogs
  cases s.blocked <;> cases s.notInClientRegistry <;> simp [← logFits_true, or_iff_not_imp_left]

theorem setClientAwaitMessageLogs_iff (msgType : UInt32) :
    s.setClientAwaitMessageLogs true msgType = s.setClientAwaitMessageLogs false msgType ↔
      (s.blocked = false → s.notInClientRegistry = false →
        (decimalInt msgType.toNat).length < 10) := by
  have hplain : s.setClientAwaitMessageLogs false msgType = true := by
    simp [setClientAwaitMessageLogs, logFits_false]
  rw [hplain]
  unfold setClientAwaitMessageLogs
  cases s.blocked <;> cases s.notInClientRegistry <;> simp [logFits_true]

section
variable (topicName : Option CString)

theorem decrementGlobalSubscriptionCount_iff :
    s.decrementGlobalSubscriptionCount p true topicName = s.decrementGlobalSubscriptionCount p false
      topicName ↔
      s.CountFits (· - 1) topicName := by
  unfold decrementGlobalSubscriptionCount CountFits
  cases herr : s.error with
  | true => simp
  | false =>
    cases checkTopicName topicName with
    | none => simp
    | some t =>
      cases hscan : (mqttSubScanner t).scan (s.fs.contents mqttSub) with
      | found k e => simp [hscan, logFits_true, logFits_false]
      | exhausted _ _ _ => simp [hscan]

theorem incrementGlobalSubscriptionCount_iff :
    s.incrementGlobalSubscriptionCount p true topicName = s.incrementGlobalSubscriptionCount p false
      topicName ↔
      s.CountFits (fun n => (n + 1) % 2 ^ 32) topicName := by
  unfold incrementGlobalSubscriptionCount CountFits
  cases herr : s.error with
  | true => simp
  | false =>
    cases checkTopicName topicName with
    | none => simp
    | some t =>
      cases hscan : (mqttSubScanner t).scan (s.fs.contents mqttSub) with
      | found k e => simp [hscan, logFits_true, logFits_false]
      | exhausted _ _ _ => simp [hscan]

theorem getGlobalTopicSubscriptionCount_iff :
    s.getGlobalTopicSubscriptionCount true topicName = s.getGlobalTopicSubscriptionCount false
      topicName ↔
      s.CountFits id topicName := by
  unfold getGlobalTopicSubscriptionCount CountFits
  cases herr : s.error with
  | true => simp
  | false =>
    cases checkTopicName topicName with
    | none => simp
    | some t =>
      cases hscan : (mqttSubScanner t).scan (s.fs.contents mqttSub) with
      | found k e => simp [hscan, logFits_true, logFits_false]
      | exhausted _ _ _ => simp [hscan]

end

/-! ### The whole interface -/

/-- The calls on which the two builds agree. -/
def DebugNeutral (p : Platform) (s : Persistent) : Op → Prop
  | .begin => s.logger = true
  | .isSubscribed topicName =>
    s.blocked = false → s.notInClientRegistry = false → ∀ t ∈ checkTopicName topicName,
      ¬ s.HasSubscription (EntrySubscription.hasName t)
  | .addSubscription topicName i qos =>
    s.blocked = false → s.notInClientRegistry = false → i ≠ 0 → ∀ t ∈ checkTopicName topicName,
      s.HasSubscription (fun e => EntrySubscription.hasTopicId i e &&
        EntrySubscription.hasName t e) →
        s.HoldsRecord p t i qos
  | .addClient clientId _ duration =>
    s.blocked = false → s.notInClientRegistry = true → clientId.length < MAXIMUM_CLIENT_ID_LENGTH →
      (decimalInt duration.toNat).length < 10
  | .setClientAwaitMessage msgType =>
    s.blocked = false → s.notInClientRegistry = false → (decimalInt msgType.toNat).length < 10
  | .decrementGlobalSubscriptionCount topicName => s.CountFits (· - 1) topicName
  | .incrementGlobalSubscriptionCount topicName => s.CountFits (fun n => (n + 1) % 2 ^ 32) topicName
  | .getGlobalTopicSubscriptionCount topicName => s.CountFits id topicName
  | .getAdvertiseDuration =>
    s.Readable → s.Configured "advertise" parseUint16AfterSpace ∨
      s.settingValue "advertise" parseUint16AfterSpace 0 = 900
  | .getTimeoutCheckDuration =>
    s.Readable → s.Configured "timeout" parseUint16AfterSpace ∨
      s.settingValue "timeout" parseUint16AfterSpace 0 = 10
  | .getGatewayId gatewayId =>
    s.Readable → s.Configured "gatewayid" parseUint8AfterSpace ∨
      s.settingValue "gatewayid" parseUint8AfterSpace gatewayId.toNat = 0
  | _ => True

theorem begin_iff : s.step p true .begin = s.step p false .begin ↔ s.logger = true := by
  cases hc : s.core <;> cases hl : s.logger <;> simp [step, begin, hc, hl, Reply.ofOption]

theorem ofOption_inj {α : Type} {f : α → Reply} (hf : Function.Injective f)
    (hu : ∀ a, f a ≠ .undefined) {a b : Option α} :
    Reply.ofOption f a = Reply.ofOption f b ↔ a = b := by
  cases a <;> cases b <;> simp [Reply.ofOption, hf.eq_iff, hu, (hu _).symm]

theorem ofOption_pair_inj {α : Type} {f : α → Reply} (hf : Function.Injective f)
    (hu : ∀ a, f a ≠ .undefined) {a b : Option α × Persistent} :
    (Reply.ofOption f a.1, a.2) = (Reply.ofOption f b.1, b.2) ↔ a = b := by
  rw [Prod.mk.injEq, ofOption_inj hf hu, Prod.ext_iff]

/-- The debug build and the other one return the same, and leave the same state, exactly on the
neutral calls. -/
theorem builds_agree_iff (p : Platform) (s : Persistent) (op : Op) :
    s.step p true op = s.step p false op ↔ DebugNeutral p s op := by
  cases op with
  | begin => exact begin_iff
  | isSubscribed t => rw [DebugNeutral, ← isSubscribed_iff]; simp [step]
  | addSubscription t i q => rw [DebugNeutral, ← addSubscription_iff]; simp [step]
  | addClient c a d =>
    rw [DebugNeutral, ← addClientLogs_iff]
    have hplain : s.addClientLogs false c d = true := by simp [addClientLogs, logFits_false]
    simp only [step, Prod.mk.injEq, and_true]
    rw [hplain, voidIf_inj]
  | setClientAwaitMessage t =>
    rw [DebugNeutral, ← setClientAwaitMessageLogs_iff]
    have hplain : s.setClientAwaitMessageLogs false t = true := by
      simp [setClientAwaitMessageLogs, logFits_false]
    simp only [step, Prod.mk.injEq, and_true]
    rw [hplain, voidIf_inj]
  | decrementGlobalSubscriptionCount t =>
    rw [DebugNeutral, ← decrementGlobalSubscriptionCount_iff (p := p)]
    exact ofOption_pair_inj (fun _ _ h => by cases h; rfl) (by simp)
  | incrementGlobalSubscriptionCount t =>
    rw [DebugNeutral, ← incrementGlobalSubscriptionCount_iff (p := p)]
    exact ofOption_pair_inj (fun _ _ h => by cases h; rfl) (by simp)
  | getGlobalTopicSubscriptionCount t =>
    rw [DebugNeutral, ← getGlobalTopicSubscriptionCount_iff]
    simp only [step, Prod.mk.injEq, and_true]
    exact ofOption_inj (fun _ _ h => by cases h; rfl) (by simp)
  | getAdvertiseDuration =>
    rw [DebugNeutral, ← settingOrDefault_iff parseUint16_flag]
    simp only [step, Prod.mk.injEq, and_true]
    exact ofOption_inj (fun _ _ h => by cases h; rfl) (by simp)
  | getTimeoutCheckDuration =>
    rw [DebugNeutral, ← settingOrDefault_iff parseUint16_flag]
    simp only [step, Prod.mk.injEq, and_true]
    exact ofOption_inj (fun _ _ h => by cases h; rfl) (by simp)
  | getGatewayId g =>
    rw [DebugNeutral, ← settingOrDefault_iff parseUint8_flag]
    simp only [step, Prod.mk.injEq, and_true]
    rw [ofOption_inj (fun a b h => by cases a; cases b; cases h; rfl) (by simp)]
    simp only [getGatewayId, gatewayIdSetting]
    cases s.numericSetting "gatewayid" parseUint8AfterSpace g.toNat <;> simp
  | _ => simp [step, DebugNeutral]

/-- A client that has subscribed to a topic is told so by the debug build only, and only the debug
build has a default for the advertise duration. -/
theorem builds_differ :
    let s :=
      setUp.run posix [.begin, .startClientTransaction device1, .addClient device1 address1 60,
        .addSubscription (some device2) 1 0]
    (s.step posix true (.isSubscribed (some device2))).1 = .bool true ∧
      (s.step posix false (.isSubscribed (some device2))).1 = .bool false ∧
      (s.step posix true .getAdvertiseDuration).1 = .nat 900 ∧
      (s.step posix false .getAdvertiseDuration).1 = .nat 0 ∧
      s.step posix true (.isSubscribed (some device2)) ≠
        s.step posix false (.isSubscribed (some device2)) := by
  intro s
  have htrue : (s.step posix true (.isSubscribed (some device2))).1 = .bool true := by
    decide +kernel
  have hfalse : (s.step posix false (.isSubscribed (some device2))).1 = .bool false := by
    decide +kernel
  refine ⟨htrue, hfalse, by decide +kernel, by decide +kernel, fun h => ?_⟩
  rw [h, hfalse] at htrue
  cases htrue

end SnGateway
