import SnGateway.ConfigReaders

/-!
# The strings of `MQTT.CON`

A line gives one key and the text after the first space as its value. The readers compare a key with
the front of the line, and `parse_string_after_space` copies the value without a terminator over
what an earlier line left: `config_strings_exact_iff` says for which files the strings are the
values of the file nevertheless. The parser does not know the size of its destination, so that the
length of a value is bounded by the buffer of the line only; `config_strings_fit_iff` says for which
files the values fit.
-/

namespace SnGateway
open RecordStore Lines Persistent

/-- The value of the last line with exactly this key. -/
def lastValue (key : String) (c : List UInt8) : Option (List UInt8) :=
  ((lines 10 c).filter fun line => keyText line = ascii key).getLast?.map valueText

/-- The values, up to a NUL, of the lines that begin with the key. -/
def keyValues (key : String) (ls : List (List UInt8)) : List (List UInt8) :=
  (ls.filter (hasKey key)).map fun line => valueText (cstr line)

/-- A line that can be handed to the parsers. -/
structure ReadableLine (size : Nat) (line : List UInt8) : Prop where
  noNewline : 10 ∉ line
  length_le : line.length ≤ size
  terminated : lineBuffer size line ≠ none

theorem overwrite_nil (l : List UInt8) : overwrite l 0 [] = l := by simp [overwrite]

namespace LineReader

variable {α σ ω : Type} {r : LineReader α σ (Bool × ω)}

/-- The flag tells of the last line that begins with the key, the destination holds all the values,
each written over those before it. -/
theorem Setting.view_foldl (setting : r.Setting (List UInt8))
    (hparse : setting.parse = parseStringAfterSpace) {ls : List (List UInt8)}
    (hls : ∀ line ∈ ls, ReadableLine r.size line) (st : σ) :
    setting.view (ls.foldl r.onLine st) =
      (((keyValues setting.key ls).getLast?.map fun u => decide (u ≠ [])).getD (setting.view st).1,
        overlay (setting.view st).2 (keyValues setting.key ls)) := by
  induction ls generalizing st with
  | nil => rfl
  | cons line ls ih =>
    obtain ⟨hline, hls⟩ := List.forall_mem_cons.1 hls
    rw [List.foldl_cons, ih hls, setting.onLine, hparse,
      parseString_line hline.noNewline hline.length_le hline.terminated]
    by_cases hk : hasKey setting.key line = true
    · have hvalues : keyValues setting.key (line :: ls) =
          valueText (cstr line) :: keyValues setting.key ls := by
        rw [keyValues, List.filter_cons_of_pos hk]
        rfl
      rw [hvalues, if_pos hk, List.getLast?_cons]
      by_cases hv : valueText (cstr line) = []
      · rw [if_pos hv, hv, overlay, overlay, List.foldl_cons, overwrite_nil]
        cases (keyValues setting.key ls).getLast? <;> rfl
      · rw [if_neg hv]
        refine Prod.ext ?_ rfl
        cases (keyValues setting.key ls).getLast? <;> simp [hv]
    · have hvalues : keyValues setting.key (line :: ls) = keyValues setting.key ls := by
        rw [keyValues, List.filter_cons_of_neg hk]
        rfl
      rw [hvalues, if_neg hk]

/-- The string in the result is the value of the last line with the key, and the key counts as
present exactly when there is such a line and its value is not empty. -/
def Setting.ReadsExactly (setting : r.Setting (List UInt8)) (result : Option (Bool × ω)) (a : α)
    (c : List UInt8) : Prop :=
  ∃ st, r.state a c = some st ∧ result = some (r.finish st) ∧
    (∀ v, lastValue setting.key c = some v → cstr (setting.get (r.finish st).2) = v) ∧
    ((setting.view st).1 = true ↔ ∃ v, lastValue setting.key c = some v ∧ v ≠ [])

end LineReader

/-- The values of the lines that begin with the key, laid over each other, give the value of the
last line with exactly this key, and the last of them is there when that value is. -/
def ValuesAgree (key : String) (c : List UInt8) : Prop :=
  let us := keyValues key (lines 10 c)
  match lastValue key c with
  | none => us.getLast?.getD [] = []
  | some v =>
    (∀ i : Nat, (us.filterMap fun u => u[i]?).getLast? = v[i]?) ∧ (v ≠ [] → us.getLast? ≠ some [])

theorem zero_notMem_keyValues {key : String} {ls : List (List UInt8)} {u : List UInt8}
    (hu : u ∈ keyValues key ls) : 0 ∉ u := by
  obtain ⟨line, -, rfl⟩ := List.mem_map.1 hu
  exact fun h => zero_notMem_cstr line (mem_of_mem_valueText h)

theorem length_valueText_cstr_le (line : List UInt8) :
    (valueText (cstr line)).length ≤ line.length := by
  have hcstr : (cstr line).length ≤ line.length := (List.takeWhile_sublist _).length_le
  have hdrop := (List.dropWhile_sublist (l := cstr line) (· ≠ 32)).length_le
  rw [valueText, List.length_tail]
  omega

theorem length_keyValues_le {key : String} {ls : List (List UInt8)} {u : List UInt8}
    (hu : u ∈ keyValues key ls) : ∃ line ∈ ls, u.length ≤ line.length := by
  obtain ⟨line, hline, rfl⟩ := List.mem_map.1 hu
  exact ⟨line, List.mem_of_mem_filter hline, length_valueText_cstr_le line⟩

/-- The buffer for a string, cleared. -/
structure Zeroed (d : List UInt8) : Prop where
  large : 128 ≤ d.length
  zero : ∀ b ∈ d, b = 0

theorem cstr_overlay {us : List (List UInt8)} {d : List UInt8} (hd : Zeroed d)
    (hus : ∀ u ∈ us, 0 ∉ u ∧ u.length ≤ d.length) : cstr (overlay d us) = overlay [] us := by
  have hzero : 0 ∉ overlay [] us := by
    intro h
    rcases mem_overlay h with h | ⟨u, hu, h⟩
    · cases h
    · exact (hus u hu).1 h
  rw [List.eq_replicate_of_mem hd.zero, overlay_replicate_zero fun u hu => (hus u hu).2,
    cstr_append_replicate_zero hzero]

theorem flag_iff {us : List (List UInt8)} :
    (us.getLast?.map fun u => decide (u ≠ [])).getD false = true ↔ ∃ u, us.getLast? = some u ∧
      u ≠ [] := by
  cases us.getLast? <;> simp

theorem LineReader.Setting.readsExactly_iff {α σ ω : Type} {r : LineReader α σ (Bool × ω)}
    (setting : r.Setting (List UInt8)) (hparse : setting.parse = parseStringAfterSpace)
    (hsize : 128 ≤ r.size) {a : α} {c d : List UInt8}
    (hlines : ∀ line ∈ lines 10 c, line ≠ [] ∧ line.length < 128)
    (hinit : setting.view (r.init a) = (false, d)) (hd : Zeroed d) :
    setting.ReadsExactly (r.read a c) a c ↔ ValuesAgree setting.key c := by
  have hread : linesRead r.size c = lines 10 c := by
    refine (linesRead_eq_lines_iff (by omega) c).2 fun i line hi => ?_
    obtain ⟨hne, hlt⟩ := hlines line (List.mem_of_getElem? hi)
    exact ⟨hne, .inl (by omega)⟩
  have hreadable : ∀ line ∈ lines 10 c, ReadableLine r.size line := fun line hline => by
    have hlt := (hlines line hline).2
    exact ⟨notMem_of_mem_lines hline, by omega, lineBuffer_of_lt (by omega)⟩
  have hterm : Terminated r.size c := by
    intro line hline
    rw [hread] at hline
    exact (hreadable line hline).terminated
  have hview := setting.view_foldl hparse hreadable (r.init a)
  rw [hinit] at hview
  have hstring : cstr (overlay d (keyValues setting.key (lines 10 c))) =
      overlay [] (keyValues setting.key (lines 10 c)) := by
    refine cstr_overlay hd fun u hu => ⟨zero_notMem_keyValues hu, ?_⟩
    obtain ⟨line, hline, hle⟩ := length_keyValues_le hu
    have := (hlines line hline).2
    have := hd.large
    omega
  have hat : ∀ i : Nat, (overlay [] (keyValues setting.key (lines 10 c)))[i]? =
      ((keyValues setting.key (lines 10 c)).filterMap fun u => u[i]?).getLast? := fun i => by
    rw [getElem?_overlay, List.getElem?_nil, Option.or_none]
  have hstate := state_of_terminated hterm a
  rw [hread] at hstate
  have hiff : setting.ReadsExactly (r.read a c) a c ↔
      (∀ v, lastValue setting.key c = some v →
        overlay [] (keyValues setting.key (lines 10 c)) = v) ∧
      ((∃ u, (keyValues setting.key (lines 10 c)).getLast? = some u ∧ u ≠ []) ↔
        ∃ v, lastValue setting.key c = some v ∧ v ≠ []) := by
    rw [Setting.ReadsExactly, read, hstate]
    simp only [Option.some.injEq, Option.map_some, exists_eq_left', true_and, setting.value, hview,
      hstring, flag_iff]
  rw [hiff, ValuesAgree]
  generalize keyValues setting.key (lines 10 c) = us at hat
  cases lastValue setting.key c with
  | none =>
    simp only [reduceCtorEq, false_implies, implies_true, true_and, false_and,
      exists_false, iff_false]
    cases us.getLast? <;> simp
  | some v =>
    simp only [Option.some.injEq, forall_eq', exists_eq_left']
    constructor
    · rintro ⟨rfl, hflag⟩
      refine ⟨fun i => (hat i).symm, fun hne hlast => ?_⟩
      obtain ⟨u, hu, hune⟩ := hflag.2 hne
      rw [hlast] at hu
      exact hune (Option.some.inj hu).symm
    · rintro ⟨hagree, hlast⟩
      refine ⟨List.ext_getElem? fun i => (hat i).trans (hagree i), ?_, fun hne => ?_⟩
      · rintro ⟨u, hu, hune⟩ rfl
        have hnone := List.getLast?_eq_none_iff.1 (hagree 0)
        have h0 := List.filterMap_eq_nil_iff.1 hnone u (List.mem_of_getLast? hu)
        exact hune (by simpa using h0)
      · cases hu : us.getLast? with
        | none =>
          rw [List.getLast?_eq_none_iff.1 hu] at hagree
          have h0 := (hagree 0).symm
          exact absurd (by simpa using h0) hne
        | some u => exact ⟨u, rfl, fun hnil => hlast hne (by rw [hu, hnil])⟩

/-- With lines that are not empty and shorter than 128 characters, and cleared buffers, a string is
read exactly when the values of the lines that begin with its key agree. -/
theorem config_strings_exact_iff {s : Persistent} (config : MqttConfig) (login : MqttLogin)
    (will : MqttWill)
    (hlines : ∀ line ∈ lines 10 (s.fs.contents mqttConfiguration), line ≠ [] ∧ line.length < 128)
    (hclientId : Zeroed config.clientId) (husername : Zeroed login.username)
    (hpassword : Zeroed login.password) (htopic : Zeroed will.willTopic)
    (hmsg : Zeroed will.willMsg) :
    let c := s.fs.contents mqttConfiguration
    (clientidSetting.ReadsExactly (s.getMqttConfig config) config c ↔ ValuesAgree "clientid" c) ∧
    (usernameSetting.ReadsExactly (s.getMqttLoginConfig login) login c ↔ ValuesAgree "username" c) ∧
    (passwordSetting.ReadsExactly (s.getMqttLoginConfig login) login c ↔ ValuesAgree "password" c) ∧
    (willtopicSetting.ReadsExactly (s.getMqttWill will) will c ↔ ValuesAgree "willtopic" c) ∧
    (willmessageSetting.ReadsExactly (s.getMqttWill will) will c ↔
      ValuesAgree "willmessage" c) := by
  intro c
  rw [getMqttConfig_eq_read, getMqttLoginConfig_eq_read, getMqttWill_eq_read]
  refine ⟨?_, ?_, ?_, ?_, ?_⟩
  · exact clientidSetting.readsExactly_iff rfl (by decide) hlines rfl hclientId
  · exact usernameSetting.readsExactly_iff rfl (by decide) hlines rfl husername
  · exact passwordSetting.readsExactly_iff rfl (by decide) hlines rfl hpassword
  · exact willtopicSetting.readsExactly_iff rfl (by decide) hlines rfl htopic
  · exact willmessageSetting.readsExactly_iff rfl (by decide) hlines rfl hmsg

def cleared : List UInt8 := List.replicate 128 0

theorem zeroed_cleared : Zeroed cleared :=
  ⟨by rw [cleared, List.length_replicate], fun _ hb => List.eq_of_mem_replicate hb⟩

theorem config_strings_exact_iff_once :
    let s :=
      setUp.withFile mqttConfiguration (ascii "clientid mqtt-sn linux gateway\nbrokerport 1884\n")
    clientidSetting.ReadsExactly (s.getMqttConfig ⟨[0, 0, 0, 0], 0, cleared⟩)
      ⟨[0, 0, 0, 0], 0, cleared⟩
      (ascii "clientid mqtt-sn linux gateway\nbrokerport 1884\n") := by
  intro s
  have hvalue : lastValue "clientid" (ascii "clientid mqtt-sn linux gateway\nbrokerport 1884\n") =
      some (ascii "mqtt-sn linux gateway") := by decide +kernel
  have hvalues :
    keyValues "clientid" (lines 10 (ascii "clientid mqtt-sn linux gateway\nbrokerport 1884\n")) =
      [ascii "mqtt-sn linux gateway"] := by decide +kernel
  have hlines : ∀ line ∈ lines 10 (s.fs.contents mqttConfiguration), line ≠ [] ∧
      line.length < 128 := by decide +kernel
  have h := config_strings_exact_iff ⟨[0, 0, 0, 0], 0, cleared⟩ ⟨cleared, cleared⟩
    ⟨cleared, cleared, 0, false⟩ hlines zeroed_cleared zeroed_cleared zeroed_cleared zeroed_cleared
      zeroed_cleared
  refine h.1.2 ?_
  show ValuesAgree "clientid" (ascii "clientid mqtt-sn linux gateway\nbrokerport 1884\n")
  rw [ValuesAgree, hvalue, hvalues]
  refine ⟨fun i => ?_, fun _ => by decide⟩
  cases h : (ascii "mqtt-sn linux gateway")[i]? <;> simp [h]

/-- A shorter value is laid over a longer one and keeps its end. -/
theorem shorter_value_keeps_end :
    let c := ascii "clientid abcdef\nclientid xy\n"
    let s := setUp.withFile mqttConfiguration c
    (∀ line ∈ lines 10 c, line ≠ [] ∧ line.length < 128) ∧
      lastValue "clientid" c = some (ascii "xy") ∧
      ((s.getMqttConfig ⟨[0, 0, 0, 0], 0, cleared⟩).map fun result => cstr result.2.clientId) =
        some (ascii "xycdef") ∧
      ¬ clientidSetting.ReadsExactly (s.getMqttConfig ⟨[0, 0, 0, 0], 0, cleared⟩)
        ⟨[0, 0, 0, 0], 0, cleared⟩ c := by
  intro c s
  have hvalue : lastValue "clientid" c = some (ascii "xy") := by decide +kernel
  have hs : s = setUp.withFile mqttConfiguration _ := rfl
  have hread :
    ((s.getMqttConfig ⟨[0, 0, 0, 0], 0, cleared⟩).map fun result => cstr result.2.clientId) =
      some (ascii "xycdef") := by
    rw [hs]
    decide +kernel
  refine ⟨by decide +kernel, hvalue, hread, ?_⟩
  rintro ⟨st, -, hresult, hstring, -⟩
  rw [hresult] at hread
  have heq : ascii "xycdef" = ascii "xy" := (Option.some.inj hread).symm.trans (hstring _ hvalue)
  exact absurd heq (by decide)

/-! ### The sizes of the buffers -/

/-- The number of bytes `parse_string_after_space` hands to `memcpy`. -/
def copiedBytes (source : List UInt8) (max : Nat) : Nat :=
  match valueBounds source max with
  | none => 0
  | some (start, stop) => if start + 1 < max ∧ start ≠ stop then stop - start else 0

/-- Behind the bytes copied the destination is left alone. -/
theorem parseString_beyond (d source : List UInt8) (m : Nat) {i : Nat}
    (hi : copiedBytes source m ≤ i) : (parseStringAfterSpace d source m).2[i]? = d[i]? := by
  rw [copiedBytes] at hi
  rw [parseStringAfterSpace]
  rcases hbounds : valueBounds source m with - | ⟨start, stop⟩
  · rfl
  · rw [hbounds] at hi
    dsimp only at hi ⊢
    by_cases h : start + 1 < m ∧ start ≠ stop
    · rw [if_pos h] at hi ⊢
      refine getElem?_overwrite_of_ge ?_
      rw [valueBytes, List.length_take]
      omega
    · rw [if_neg h]

theorem copiedBytes_line {size : Nat} {line : List UInt8} (h : ReadableLine size line) :
    copiedBytes (bufferOf size line) ((cstr (bufferOf size line)).length + 1) =
      (valueText (cstr line)).length := by
  obtain ⟨rest, hbuf⟩ := bufferOf_terminated h.length_le h.terminated
  have h0 := zero_notMem_cstr line
  have h10 : 10 ∉ cstr line := fun hmem => h.noNewline ((List.takeWhile_sublist _).subset hmem)
  rw [hbuf, cstr_append_zero h0, copiedBytes, valueBounds_terminated h0 h10]
  by_cases h32 : 32 ∈ cstr line
  · have hlt := length_keyText_lt h32
    rw [if_pos h32]
    dsimp only
    split
    · omega
    · omega
  · rw [if_neg h32, valueText_of_notMem h32]
    rfl

namespace LineReader

variable {α σ ω : Type} {r : LineReader α σ (Bool × ω)}

/-- The values of a setting fit: every line that is read ends in its buffer, no more than `bound`
bytes are copied, and a longer value is rejected and not stored. -/
structure Setting.Fits (setting : r.Setting (List UInt8)) (bound : Nat) (c : List UInt8) :
    Prop where
  terminated : Terminated r.size c
  copied : ∀ line ∈ linesRead r.size c, hasKey setting.key line = true →
    copiedBytes (bufferOf r.size line) ((cstr (bufferOf r.size line)).length + 1) ≤ bound
  rejected : ∀ line ∈ linesRead r.size c, hasKey setting.key line = true →
    bound < (valueText (cstr line)).length →
    ∀ d, setting.parse d (bufferOf r.size line) ((cstr (bufferOf r.size line)).length + 1) =
      (false, d)

theorem Terminated.readable {size : Nat} {c line : List UInt8} (hsize : 0 < size)
    (h : Terminated size c) (hline : line ∈ linesRead size c) : ReadableLine size line :=
  ⟨notMem_of_mem_linesRead hsize hline, length_of_mem_linesRead hline, h line hline⟩

theorem Setting.fits_iff (setting : r.Setting (List UInt8)) (hsize : 0 < r.size) {bound : Nat}
    {c : List UInt8} :
    setting.Fits bound c ↔ Terminated r.size c ∧
      ∀ line ∈ linesRead r.size c, hasKey setting.key line = true →
        (valueText (cstr line)).length ≤ bound := by
  constructor
  · intro h
    refine ⟨h.terminated, fun line hline hk => ?_⟩
    rw [← copiedBytes_line (h.terminated.readable hsize hline)]
    exact h.copied line hline hk
  · rintro ⟨hterm, hlen⟩
    refine ⟨hterm, fun line hline hk => ?_, fun line hline hk hlong => ?_⟩
    · rw [copiedBytes_line (hterm.readable hsize hline)]
      exact hlen line hline hk
    · exact absurd (hlen line hline hk) (not_le.2 hlong)

/-- The reader writes nothing behind the bound, in particular not the last byte of a cleared array
of `bound + 1` bytes. -/
def Setting.Keeps (setting : r.Setting (List UInt8)) (bound : Nat) (c : List UInt8) : Prop :=
  ∀ (a : α) (i : Nat), bound ≤ i →
    ∃ ok out, r.read a c = some (ok, out) ∧ (setting.get out)[i]? = (setting.view (r.init a)).2[i]?

theorem Setting.Fits.keeps {setting : r.Setting (List UInt8)}
    (hparse : setting.parse = parseStringAfterSpace) (hsize : 0 < r.size) {bound : Nat}
    {c : List UInt8} (h : setting.Fits bound c) : setting.Keeps bound c := by
  intro a i hi
  have hread : r.read a c = some (r.finish ((linesRead r.size c).foldl r.onLine (r.init a))) := by
    rw [read, state_of_terminated h.terminated]
    rfl
  refine ⟨_, _, hread, ?_⟩
  rw [setting.value, setting.view_foldl hparse fun line hline => h.terminated.readable hsize hline,
    getElem?_overlay]
  have hnone : ((keyValues setting.key (linesRead r.size c)).filterMap fun u => u[i]?) = [] := by
    refine List.filterMap_eq_nil_iff.2 fun u hu => ?_
    obtain ⟨line, hline, rfl⟩ := List.mem_map.1 hu
    obtain ⟨hline, hk⟩ := List.mem_filter.1 hline
    have hle := (setting.fits_iff hsize).1 h |>.2 line hline hk
    exact List.getElem?_eq_none (hle.trans hi)
  rw [hnone, List.getLast?_nil, Option.none_or]

end LineReader

/-- The values of `MQTT.CON` fit the arrays of `getConfigAndConnect`, of 24 bytes for the first
three and of 255 for the other two, exactly when every line that is read ends in its buffer and none
of those that begin with `clientid`, `username` or `password` has a value of more than 23
characters. Then nothing else of the arrays is written: behind the bytes it copies the parser leaves
its destination alone. -/
theorem config_strings_fit_iff (c : List UInt8) :
    (clientidSetting.Fits 23 c ↔ LineReader.Terminated 512 c ∧
      ∀ line ∈ linesRead 512 c, hasKey "clientid" line = true →
      (valueText (cstr line)).length ≤ 23) ∧
    (usernameSetting.Fits 23 c ↔ LineReader.Terminated 128 c ∧
      ∀ line ∈ linesRead 128 c, hasKey "username" line = true →
      (valueText (cstr line)).length ≤ 23) ∧
    (passwordSetting.Fits 23 c ↔ LineReader.Terminated 128 c ∧
      ∀ line ∈ linesRead 128 c, hasKey "password" line = true →
      (valueText (cstr line)).length ≤ 23) ∧
    (willtopicSetting.Fits 254 c ↔ LineReader.Terminated 128 c) ∧
    (willmessageSetting.Fits 254 c ↔ LineReader.Terminated 128 c) ∧
    (clientidSetting.Fits 23 c → clientidSetting.Keeps 23 c) ∧
    (usernameSetting.Fits 23 c → usernameSetting.Keeps 23 c) ∧
    (passwordSetting.Fits 23 c → passwordSetting.Keeps 23 c) ∧
    (willtopicSetting.Fits 254 c → willtopicSetting.Keeps 254 c) ∧
    (willmessageSetting.Fits 254 c → willmessageSetting.Keeps 254 c) ∧
    ∀ (d source : List UInt8) (m i : Nat), copiedBytes source m ≤ i →
      (parseStringAfterSpace d source m).2[i]? = d[i]? := by
  have hshort : ∀ line ∈ linesRead 128 c, (valueText (cstr line)).length ≤ 254 :=
    fun line hline => by
    have hvalue := length_valueText_cstr_le line
    have hline := length_of_mem_linesRead hline
    omega
  refine ⟨clientidSetting.fits_iff (by decide), usernameSetting.fits_iff (by decide),
    passwordSetting.fits_iff (by decide),
    ?_, ?_, fun h => h.keeps rfl (by decide), fun h => h.keeps rfl (by decide),
    fun h => h.keeps rfl (by decide), fun h => h.keeps rfl (by decide),
    fun h => h.keeps rfl (by decide), fun d source m i => parseString_beyond d source m⟩
  · refine (willtopicSetting.fits_iff (by decide)).trans
      ⟨And.left, fun h => ⟨h, fun line hline _ => hshort line hline⟩⟩
  · refine (willmessageSetting.fits_iff (by decide)).trans
      ⟨And.left, fun h => ⟨h, fun line hline _ => hshort line hline⟩⟩

/-- 30 characters are stored in the array of 24 bytes. -/
theorem long_clientid_overflows :
    let c := ascii "clientid aaaaaaaaaaaaaaaaaaaaaaaaaaaaaa\n"
    let s := setUp.withFile mqttConfiguration c
    ((s.getMqttConfig ⟨[0, 0, 0, 0], 0, List.replicate 24 0⟩).map fun result =>
      result.2.clientId.length) = some 30 ∧
      ¬ clientidSetting.Fits 23 c := by
  intro c s
  refine ⟨by decide +kernel, fun h => ?_⟩
  have hcopied := h.copied (ascii "clientid aaaaaaaaaaaaaaaaaaaaaaaaaaaaaa") (by decide +kernel)
    (by decide +kernel)
  exact absurd hcopied (by decide +kernel)

end SnGateway
