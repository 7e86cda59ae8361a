import SnGateway.ConfigReaders

/-!
# A line more in a configuration file

The README promises that every line of a configuration file contains one key with its value. What an
inserted line does is decided by the pieces the loops read it in: it leaves every result alone, in
every file and at every line start, exactly when its last piece does not fill the buffer, each piece
leaves a terminator, and no piece begins with a key (`Harmless`). In particular an empty line is not
harmless.
-/

namespace SnGateway
open RecordStore Lines Persistent

structure TextLine where
  chars : List UInt8
  noNewline : 10 ∉ chars

/-- `acts` tells the lines of which a reader takes notice. -/
def Harmless (size : Nat) (acts : List UInt8 → Bool) (l : TextLine) : Prop :=
  l.chars.length % size ≠ 0 ∧ ∀ piece ∈ linesRead size l.chars, lineBuffer size piece ≠ none ∧
    acts piece = false

instance (size : Nat) (acts : List UInt8 → Bool) (l : TextLine) :
    Decidable (Harmless size acts l) :=
  inferInstanceAs (Decidable (_ ∧ _))

/-- A line that is not empty and shorter than the buffer is harmless unless a reader takes notice of
it. -/
theorem harmless_short {size : Nat} {acts : List UInt8 → Bool} {l : TextLine} (hne : l.chars ≠ [])
    (hlen : l.chars.length < size) : Harmless size acts l ↔ acts l.chars = false := by
  have hpos := List.length_pos_iff.2 hne
  rw [Harmless, linesRead_short l.noNewline hne hlen.le, Nat.mod_eq_of_lt hlen,
    List.forall_mem_singleton]
  exact ⟨fun h => h.2.2, fun h => ⟨by omega, lineBuffer_of_lt hlen, h⟩⟩

theorem exists_last {α : Type} {P : α → Prop} {l : List α} (h : ∃ x ∈ l, P x) :
    ∃ xs x ys, l = xs ++ x :: ys ∧ P x ∧ ∀ y ∈ ys, ¬ P y := by
  induction l with
  | nil => obtain ⟨x, hx, -⟩ := h; cases hx
  | cons a l ih =>
    by_cases hl : ∃ x ∈ l, P x
    · obtain ⟨xs, x, ys, rfl, hx, hys⟩ := ih hl
      exact ⟨a :: xs, x, ys, rfl, hx, hys⟩
    · obtain ⟨x, hx, hPx⟩ := h
      rcases List.mem_cons.1 hx with rfl | hx
      · exact ⟨[], x, l, rfl, hPx, fun y hy hPy => hl ⟨y, hy, hPy⟩⟩
      · exact absurd ⟨x, hx, hPx⟩ hl

namespace LineReader

variable {α σ ρ : Type} {r : LineReader α σ ρ} {acts : List UInt8 → Bool} {l : TextLine}

/-- An inserted line changes no result. -/
def Neutral (r : LineReader α σ ρ) (l : TextLine) : Prop :=
  ∀ a pre post, AtLineStart 10 pre → r.read a (pre ++ (l.chars ++ 10 :: post)) =
    r.read a (pre ++ post)

/-- `r` takes notice of the lines with `acts` and of no others: behind one of the former stands a
result that differs from what some file of plain lines gives. -/
structure Notices (r : LineReader α σ ρ) (acts : List UInt8 → Bool) : Prop where
  size_pos : 0 < r.size
  inert : ∀ line, acts line = false → ∀ st, r.onLine st line = st
  visible : ∀ line, 10 ∉ line → line.length ≤ r.size → lineBuffer r.size line ≠ none →
    acts line = true →
    ∃ pre a, Plain r.size pre ∧ ∀ st, some (r.finish (r.onLine st line)) ≠ r.read a pre
  acting : ∃ line, 10 ∉ line ∧ line ≠ [] ∧ line.length < r.size ∧ acts line = true

theorem configLoop_append {ls ls' : List (List UInt8)} (st : σ) :
    configLoop r.size r.body st (ls ++ ls') =
      (configLoop r.size r.body st ls).bind fun st' => configLoop r.size r.body st' ls' := by
  induction ls generalizing st with
  | nil => rfl
  | cons line ls ih =>
    rw [List.cons_append, configLoop, configLoop]
    cases lineBuffer r.size line with
    | none => rfl
    | some buffer => exact ih _

theorem Notices.foldl_inert (h : r.Notices acts) {ls : List (List UInt8)}
    (hls : ∀ line ∈ ls, acts line = false) (st : σ) : ls.foldl r.onLine st = st := by
  induction ls with
  | nil => rfl
  | cons line ls ih =>
    obtain ⟨hline, hls⟩ := List.forall_mem_cons.1 hls
    rw [List.foldl_cons, h.inert line hline, ih hls]

theorem Notices.neutral_of_harmless (h : r.Notices acts) (hl : Harmless r.size acts l) :
    r.Neutral l := by
  intro a pre post hpre
  obtain ⟨hmod, hpieces⟩ := hl
  obtain ⟨front, hfront | hfront⟩ := linesRead_append h.size_pos hpre
  · rw [read, read, state, state, hfront, hfront]
  · have hcut : linesRead r.size (l.chars ++ 10 :: post) = linesRead r.size l.chars ++
        linesRead r.size post := by
      rw [linesRead_line h.size_pos l.noNewline, if_neg hmod]
    have hskip : ∀ st, configLoop r.size r.body st (linesRead r.size l.chars) = some st :=
      fun st => by
      rw [configLoop_eq_foldlLines fun piece hp => (hpieces piece hp).1,
        h.foldl_inert fun piece hp => (hpieces piece hp).2]
    rw [read, read, state, state, hfront, hfront, hcut, configLoop_append, configLoop_append]
    simp only [configLoop_append, hskip, Option.bind_some]

theorem read_plain {a : α} (hsize : 0 < r.size) {pre c : List UInt8} (hpre : Plain r.size pre)
    (hc : Terminated r.size c) : r.read a (pre ++ c) =
      some (r.finish
        ((linesRead r.size c).foldl r.onLine ((lines 10 pre).foldl r.onLine (r.init a)))) := by
  have hlines := linesRead_plain hsize hpre c
  have hterm : Terminated r.size (pre ++ c) := by
    intro line hline
    rw [hlines, List.mem_append] at hline
    rcases hline with hline | hline
    · exact lineBuffer_of_lt (hpre.2 line hline).2
    · exact hc line hline
  rw [read, state_of_terminated hterm, hlines, List.foldl_append]
  rfl

theorem linesRead_inserted (hsize : 0 < r.size) :
    linesRead r.size (l.chars ++ [10]) = linesRead r.size l.chars := by
  rw [linesRead_line hsize l.noNewline, linesRead_nil, ite_self, List.append_nil]

theorem Notices.harmless_of_neutral (h : r.Notices acts) (hl : r.Neutral l) :
    Harmless r.size acts l := by
  obtain ⟨key, hkey10, hkeyne, hkeylt, hkey⟩ := h.acting
  obtain ⟨pre₀, a₀, hpre₀, hdiff₀⟩ := h.visible key hkey10 hkeylt.le (lineBuffer_of_lt hkeylt) hkey
  have hterm : Terminated r.size l.chars := by
    by_contra hnot
    have hnone : r.state a₀ (l.chars ++ [10]) = none := by
      rw [state_eq_none_iff, Terminated, linesRead_inserted h.size_pos]
      exact hnot
    have hnil : r.read a₀ [] = some (r.finish (r.init a₀)) := by
      rw [read, state, linesRead_nil]
      rfl
    have := hl a₀ [] [] atLineStart_nil
    rw [List.nil_append, List.nil_append, hnil, read, hnone] at this
    cases this
  have hmod : l.chars.length % r.size ≠ 0 := by
    intro hmod
    -- the loop ends at the line, whatever stands behind it
    have hend : ∀ post, r.read a₀ post = r.read a₀ (l.chars ++ [10]) := by
      intro post
      have := hl a₀ [] post atLineStart_nil
      rw [List.nil_append, List.nil_append, read, state, linesRead_line h.size_pos l.noNewline,
        if_pos hmod,
        List.append_nil, ← linesRead_inserted h.size_pos] at this
      exact this.symm
    refine hdiff₀ ((lines 10 pre₀).foldl r.onLine (r.init a₀)) ?_
    have hread := read_plain (a := a₀) h.size_pos hpre₀ (c := key) fun line hline => by
      rw [linesRead_short hkey10 hkeyne hkeylt.le, List.mem_singleton] at hline
      rw [hline]; exact lineBuffer_of_lt hkeylt
    rw [linesRead_short hkey10 hkeyne hkeylt.le] at hread
    rw [hend pre₀, ← hend (pre₀ ++ key), hread]
    rfl
  refine ⟨hmod, fun piece hp => ⟨hterm piece hp, ?_⟩⟩
  by_contra hacts
  obtain ⟨xs, p, ys, hsplit, hp, hys⟩ :=
    exists_last (P := fun p => acts p = true) ⟨piece, hp, by simpa using hacts⟩
  have hmem : p ∈ linesRead r.size l.chars := by rw [hsplit]; simp
  obtain ⟨pre, a, hpre, hdiff⟩ := h.visible p (notMem_of_mem_linesRead h.size_pos hmem)
    (length_of_mem_linesRead hmem)
    (hterm p hmem) hp
  have hread := read_plain (a := a) h.size_pos hpre (c := l.chars ++ [10]) fun line hline => by
    rw [linesRead_inserted h.size_pos] at hline
    exact hterm line hline
  rw [linesRead_inserted h.size_pos, hsplit, List.foldl_append, List.foldl_cons,
    h.foldl_inert fun y hy => by simpa using hys y hy] at hread
  refine hdiff (xs.foldl r.onLine ((lines 10 pre).foldl r.onLine (r.init a))) ?_
  rw [← hread, hl a pre [] hpre.1, List.append_nil]

theorem Notices.neutral_iff (h : r.Notices acts) : r.Neutral l ↔ Harmless r.size acts l :=
  ⟨h.harmless_of_neutral, h.neutral_of_harmless⟩

theorem visible_of_ne {line pre : List UInt8} {a : α} {w : ρ} (hpre : Plain r.size pre)
    (hw : r.read a pre = some w) {τ : Type} (φ : ρ → τ) (v : τ)
    (hv : ∀ st, φ (r.finish (r.onLine st line)) = v) (hne : φ w ≠ v) :
    ∃ pre a, Plain r.size pre ∧ ∀ st, some (r.finish (r.onLine st line)) ≠ r.read a pre := by
  refine ⟨pre, a, hpre, fun st h => hne ?_⟩
  rw [hw] at h
  rw [← Option.some.inj h, hv]

/-- Of two files with different values one differs from the value behind the line. -/
theorem visible_of_two {line pre₁ pre₂ : List UInt8} {a : α} {w₁ w₂ : ρ} (hpre₁ : Plain r.size pre₁)
    (hpre₂ : Plain r.size pre₂) (hw₁ : r.read a pre₁ = some w₁) (hw₂ : r.read a pre₂ = some w₂)
    {τ : Type} (φ : ρ → τ) (v : τ) (hv : ∀ st, φ (r.finish (r.onLine st line)) = v)
    (hne : φ w₁ ≠ φ w₂) :
    ∃ pre a, Plain r.size pre ∧ ∀ st, some (r.finish (r.onLine st line)) ≠ r.read a pre := by
  by_cases h : φ w₁ = v
  · exact visible_of_ne hpre₂ hw₂ φ v hv fun h₂ => hne (h.trans h₂.symm)
  · exact visible_of_ne hpre₁ hw₁ φ v hv h

/-- A line with the key of a setting shows: the parser rejects it and the flag goes down, or it
stores what one of two files does not have. -/
theorem Setting.visible {ω τ θ : Type} {r : LineReader α σ (Bool × ω)} (setting : r.Setting τ)
    {line : List UInt8} (hk : hasKey setting.key line = true) (image : τ → θ)
    (hparse :
      (∀ d, (setting.parse d (bufferOf r.size line) ((cstr (bufferOf r.size line)).length + 1)).1 =
        false) ∨
      ∃ v, ∀ d, image
        (setting.parse d (bufferOf r.size line) ((cstr (bufferOf r.size line)).length + 1)).2 = v)
    {pre₁ pre₂ : List UInt8} {a : α} {w₁ w₂ : ω} (hpre₁ : Plain r.size pre₁)
    (hpre₂ : Plain r.size pre₂) (hw₁ : r.read a pre₁ = some (true, w₁))
    (hw₂ : r.read a pre₂ = some (true, w₂))
    (hne : image (setting.get w₁) ≠ image (setting.get w₂)) :
    ∃ pre a, Plain r.size pre ∧ ∀ st, some (r.finish (r.onLine st line)) ≠ r.read a pre := by
  have hline : ∀ st, setting.view (r.onLine st line) = setting.parse (setting.view st).2
    (bufferOf r.size line)
      ((cstr (bufferOf r.size line)).length + 1) := fun st => by
    rw [setting.onLine, if_pos hk]
  rcases hparse with hfalse | ⟨v, hv⟩
  · refine visible_of_ne hpre₁ hw₁ Prod.fst false (fun st => ?_) Bool.noConfusion
    rw [← Bool.not_eq_true]
    intro htrue
    have hflag := setting.flag _ htrue
    rw [hline, hfalse] at hflag
    cases hflag
  · refine visible_of_two hpre₁ hpre₂ hw₁ hw₂ (fun w => image (setting.get w.2)) v
      (fun st => ?_) hne
    show image (setting.get (r.finish _).2) = v
    rw [setting.value, hline, hv]

end LineReader

theorem parseString_shows {size : Nat} {line : List UInt8} (h10 : 10 ∉ line)
    (hlen : line.length ≤ size) (hterm : lineBuffer size line ≠ none) :
    (∀ d,
      (parseStringAfterSpace d (bufferOf size line) ((cstr (bufferOf size line)).length + 1)).1 =
        false) ∨
      ∃ v, ∀ d,
      (parseStringAfterSpace d (bufferOf size line)
        ((cstr (bufferOf size line)).length + 1)).2[0]? = v := by
  simp only [parseString_line h10 hlen hterm]
  by_cases hv : valueText (cstr line) = []
  · exact .inl fun d => by rw [if_pos hv]
  · refine .inr ⟨(valueText (cstr line))[0]?, fun d => ?_⟩
    rw [if_neg hv]
    exact getElem?_overwrite_mid (Nat.zero_le 0) (by have := List.length_pos_iff.2 hv; omega)

/-! ### What the readers take notice of -/

def beginsWith (keys : List String) (line : List UInt8) : Bool :=
  keys.any fun key => hasKey key line

def mqttConfig1 : List UInt8 := ascii "brokeraddress 10.0.0.1\nbrokerport 1\nclientid a\n"
def mqttConfig2 : List UInt8 := ascii "brokeraddress 20.0.0.2\nbrokerport 2\nclientid b\n"

theorem mqttConfigReader_notices :
    mqttConfigReader.Notices (beginsWith ["brokeraddress", "brokerport", "clientid"]) where
  size_pos := by decide
  inert := by
    intro line hacts st
    simp only [beginsWith, List.any_cons, List.any_nil, Bool.or_false, Bool.or_eq_false_iff]
      at hacts
    obtain ⟨h1, h2, h3⟩ := hacts
    simp only [LineReader.onLine, mqttConfigReader, hasKey_bufferOf "brokeraddress" (by decide),
      hasKey_bufferOf "brokerport" (by decide), hasKey_bufferOf "clientid" (by decide), h1, h2, h3]
    rfl
  visible := by
    intro line h10 hlen hterm hacts
    have hw₁ : mqttConfigReader.read ⟨[0, 0, 0, 0], 0, [0, 0]⟩ mqttConfig1 =
        some (true, ⟨[10, 0, 0, 1], 1, [97, 0]⟩) := by
      decide +kernel
    have hw₂ : mqttConfigReader.read ⟨[0, 0, 0, 0], 0, [0, 0]⟩ mqttConfig2 =
        some (true, ⟨[20, 0, 0, 2], 2, [98, 0]⟩) := by
      decide +kernel
    have hpre₁ : Plain mqttConfigReader.size mqttConfig1 := by decide +kernel
    have hpre₂ : Plain mqttConfigReader.size mqttConfig2 := by decide +kernel
    simp only [beginsWith, List.any_cons, List.any_nil, Bool.or_false, Bool.or_eq_true] at hacts
    rcases hacts with hk | hk | hk
    · refine brokeraddressSetting.visible hk (fun ip => ip[0]?) ?_ hpre₁ hpre₂ hw₁ hw₂ (by decide)
      rcases parseIpaddress_cases (bufferOf 512 line) ((cstr (bufferOf 512 line)).length + 1) with
        h | ⟨x, hx⟩
      · exact .inl h
      · exact .inr ⟨some x, hx⟩
    · refine brokerportSetting.visible hk id ?_ hpre₁ hpre₂ hw₁ hw₂ (by decide)
      rcases parseUint16_cases (bufferOf 512 line) ((cstr (bufferOf 512 line)).length + 1) with
        h | ⟨v, hv⟩
      · exact .inl fun d => congrArg Prod.fst (h d)
      · exact .inr ⟨v, fun d => congrArg Prod.snd (hv d)⟩
    · exact clientidSetting.visible hk (fun clientId => clientId[0]?)
        (parseString_shows h10 hlen hterm) hpre₁ hpre₂
        hw₁ hw₂ (by decide)
  acting := ⟨ascii "clientid", by decide, by decide, by decide, by decide⟩

def mqttLogin1 : List UInt8 := ascii "username a\npassword a\n"
def mqttLogin2 : List UInt8 := ascii "username b\npassword b\n"

theorem mqttLoginReader_notices :
    mqttLoginReader.Notices (beginsWith ["username", "password"]) where
  size_pos := by decide
  inert := by
    intro line hacts st
    simp only [beginsWith, List.any_cons, List.any_nil, Bool.or_false, Bool.or_eq_false_iff]
      at hacts
    obtain ⟨h1, h2⟩ := hacts
    simp only [LineReader.onLine, mqttLoginReader, hasKey_bufferOf "username" (by decide),
      hasKey_bufferOf "password" (by decide), h1, h2]
    rfl
  visible := by
    intro line h10 hlen hterm hacts
    have hw₁ : mqttLoginReader.read ⟨[0, 0], [0, 0]⟩ mqttLogin1 =
        some (true, ⟨[97, 0], [97, 0]⟩) := by decide +kernel
    have hw₂ : mqttLoginReader.read ⟨[0, 0], [0, 0]⟩ mqttLogin2 =
        some (true, ⟨[98, 0], [98, 0]⟩) := by decide +kernel
    have hpre₁ : Plain mqttLoginReader.size mqttLogin1 := by decide +kernel
    have hpre₂ : Plain mqttLoginReader.size mqttLogin2 := by decide +kernel
    have hshows := parseString_shows h10 hlen hterm
    simp only [beginsWith, List.any_cons, List.any_nil, Bool.or_false, Bool.or_eq_true] at hacts
    rcases hacts with hk | hk
    · exact usernameSetting.visible hk (fun username => username[0]?) hshows hpre₁ hpre₂ hw₁ hw₂
        (by decide)
    · exact passwordSetting.visible hk (fun password => password[0]?) hshows hpre₁ hpre₂ hw₁ hw₂
        (by decide)
  acting := ⟨ascii "username", by decide, by decide, by decide, by decide⟩

def retainNumber (line : List UInt8) : Bool × Nat :=
  parseUint8AfterSpace 0 (bufferOf 128 line) ((cstr (bufferOf 128 line)).length + 1)

/-- A `willretain` line is skipped unless it gives 0 or 1. -/
def setsRetain (line : List UInt8) : Bool := (retainNumber line).1 ∧ (retainNumber line).2 ≤ 1

def actsOnWill (line : List UInt8) : Bool :=
  beginsWith ["willtopic", "willmessage", "willqos"] line ||
    (hasKey "willretain" line && setsRetain line)

def mqttWill1 : List UInt8 := ascii "willtopic a\nwillmessage a\nwillqos 1\nwillretain 0\n"
def mqttWill2 : List UInt8 := ascii "willtopic b\nwillmessage b\nwillqos 2\nwillretain 1\n"

theorem mqttWillReader_onLine_retain {line : List UInt8} (hk : hasKey "willretain" line = true)
    (st : Bool × Bool × Bool × Bool × MqttWill) :
    mqttWillReader.onLine st line =
      if setsRetain line then
        (st.1, st.2.1, st.2.2.1, true,
          { st.2.2.2.2 with willRetain := decide ((retainNumber line).2 ≠ 0) })
      else st := by
  obtain ⟨hasTopic, hasMsg, hasQos, hasRetain, out⟩ := st
  have h1 : hasKey "willtopic" line = false := hasKey_exclusive (by decide) hk
  have h2 : hasKey "willmessage" line = false := hasKey_exclusive (by decide) hk
  have h3 : hasKey "willqos" line = false := hasKey_exclusive (by decide) hk
  simp only [LineReader.onLine, mqttWillReader, hasKey_bufferOf "willtopic" (by decide),
    hasKey_bufferOf "willmessage" (by decide), hasKey_bufferOf "willqos" (by decide),
    hasKey_bufferOf "willretain" (by decide), h1, h2, h3, hk, Bool.false_eq_true, if_false, if_true,
    setsRetain,
    decide_eq_true_eq]
  rfl

theorem mqttWillReader_notices : mqttWillReader.Notices actsOnWill where
  size_pos := by decide
  inert := by
    intro line hacts st
    simp only [actsOnWill, beginsWith, List.any_cons, List.any_nil, Bool.or_false,
      Bool.or_eq_false_iff,
      Bool.and_eq_false_iff] at hacts
    obtain ⟨⟨h1, h2, h3⟩, h4⟩ := hacts
    by_cases hk : hasKey "willretain" line = true
    · have hno := h4.resolve_left (by simp [hk])
      rw [mqttWillReader_onLine_retain hk, hno]
      rfl
    · simp only [LineReader.onLine, mqttWillReader, hasKey_bufferOf "willtopic" (by decide),
        hasKey_bufferOf "willmessage" (by decide), hasKey_bufferOf "willqos" (by decide),
        hasKey_bufferOf "willretain" (by decide), h1, h2, h3, hk]
      rfl
  visible := by
    intro line h10 hlen hterm hacts
    have hw₁ : mqttWillReader.read ⟨[0, 0], [0, 0], 0, false⟩ mqttWill1 =
        some (true, ⟨[97, 0], [97, 0], 1, false⟩) := by
      decide +kernel
    have hw₂ : mqttWillReader.read ⟨[0, 0], [0, 0], 0, false⟩ mqttWill2 =
        some (true, ⟨[98, 0], [98, 0], 2, true⟩) := by
      decide +kernel
    have hpre₁ : Plain mqttWillReader.size mqttWill1 := by decide +kernel
    have hpre₂ : Plain mqttWillReader.size mqttWill2 := by decide +kernel
    have hshows := parseString_shows h10 hlen hterm
    simp only [actsOnWill, beginsWith, List.any_cons, List.any_nil, Bool.or_false, Bool.or_eq_true,
      Bool.and_eq_true] at hacts
    rcases hacts with (hk | hk | hk) | ⟨hk, hsets⟩
    · exact willtopicSetting.visible hk (fun topic => topic[0]?) hshows hpre₁ hpre₂ hw₁ hw₂
        (by decide)
    · exact willmessageSetting.visible hk (fun msg => msg[0]?) hshows hpre₁ hpre₂ hw₁ hw₂
        (by decide)
    · refine willqosSetting.visible hk id ?_ hpre₁ hpre₂ hw₁ hw₂ (by decide)
      rcases parseUint8_cases (bufferOf 128 line) ((cstr (bufferOf 128 line)).length + 1) with
        h | ⟨v, hv⟩
      · exact .inl fun d => congrArg Prod.fst (h d)
      · exact .inr ⟨v, fun d => congrArg Prod.snd (hv d)⟩
    · refine LineReader.visible_of_two hpre₁ hpre₂ hw₁ hw₂ (fun w => w.2.willRetain)
        (decide ((retainNumber line).2 ≠ 0)) (fun st => ?_) (by decide)
      rw [mqttWillReader_onLine_retain hk, if_pos hsets]
      rfl
  acting := ⟨ascii "willtopic", by decide, by decide, by decide, by decide⟩

theorem numberReader_notices {α ρ : Type} {key : String}
    {parse : Nat → List UInt8 → Nat → Bool × Nat} {init : α → Nat} {finish : Bool × Nat → ρ}
    (hkey0 : 0 ∉ ascii key) (hkey10 : 10 ∉ ascii key) (hne : ascii key ≠ [])
    (hlen : (ascii key).length < 512) (hparse : ∀ source m, ∃ w, ∀ d, finish (parse d source m) = w)
    {a : α} {pre₁ pre₂ : List UInt8} {w₁ w₂ : ρ} (hpre₁ : Plain 512 pre₁) (hpre₂ : Plain 512 pre₂)
    (hw₁ : (numberReader key parse init finish).read a pre₁ = some w₁)
    (hw₂ : (numberReader key parse init finish).read a pre₂ = some w₂) (hw : w₁ ≠ w₂) :
    (numberReader key parse init finish).Notices (hasKey key) where
  size_pos := by show 0 < 512; decide
  inert := by
    intro line hacts st
    simp only [LineReader.onLine, numberReader, hasKey_bufferOf key hkey0, hacts]
    rfl
  visible := by
    intro line h10 hlen hterm hacts
    obtain ⟨w, hw'⟩ := hparse (bufferOf 512 line) ((cstr (bufferOf 512 line)).length + 1)
    refine LineReader.visible_of_two hpre₁ hpre₂ hw₁ hw₂ id w (fun st => ?_) hw
    simp only [LineReader.onLine, numberReader, hasKey_bufferOf key hkey0, hacts, if_true]
    exact hw' _
  acting := ⟨ascii key, hkey10, hne, hlen, by rw [hasKey, List.isPrefixOf_iff_prefix]⟩

theorem advertiseReader_notices : advertiseReader.Notices (hasKey "advertise") := by
  have hw₁ : advertiseReader.read () (ascii "advertise 1\n") = some 1 := by decide +kernel
  have hw₂ : advertiseReader.read () (ascii "advertise 2\n") = some 2 := by decide +kernel
  refine numberReader_notices (by decide) (by decide) (by decide) (by decide) (fun source m => ?_)
    (by decide) (by decide)
    hw₁ hw₂ (by decide)
  rcases parseUint16_cases source m with h | ⟨v, h⟩
  · exact ⟨900, fun d => by rw [h]; rfl⟩
  · exact ⟨_, fun d => by rw [h]⟩

theorem timeoutReader_notices : timeoutReader.Notices (hasKey "timeout") := by
  have hw₁ : timeoutReader.read () (ascii "timeout 1\n") = some 1 := by decide +kernel
  have hw₂ : timeoutReader.read () (ascii "timeout 2\n") = some 2 := by decide +kernel
  refine numberReader_notices (by decide) (by decide) (by decide) (by decide) (fun source m => ?_)
    (by decide) (by decide)
    hw₁ hw₂ (by decide)
  rcases parseUint16_cases source m with h | ⟨v, h⟩
  · exact ⟨10, fun d => by rw [h]; rfl⟩
  · exact ⟨_, fun d => by rw [h]⟩

theorem gatewayIdReader_notices : gatewayIdReader.Notices (hasKey "gatewayid") := by
  have hw₁ : gatewayIdReader.read 0 (ascii "gatewayid 1\n") = some (true, 1) := by decide +kernel
  have hw₂ : gatewayIdReader.read 0 (ascii "gatewayid 2\n") = some (true, 2) := by decide +kernel
  refine numberReader_notices (by decide) (by decide) (by decide) (by decide) (fun source m => ?_)
    (by decide) (by decide)
    hw₁ hw₂ (by decide)
  rcases parseUint8_cases source m with h | ⟨v, h⟩
  · exact ⟨(true, 0), fun d => by rw [h]; rfl⟩
  · exact ⟨_, fun d => by rw [h]⟩

/-! ### The files -/

/-- A line put at the start of a line of the file changes nothing of what `read` returns. -/
def LineNeutral {β : Type} (name : FileName) (read : Persistent → β) (l : TextLine) : Prop :=
  ∀ (s : Persistent) (pre post : List UInt8), s.fs.contents name = pre ++ post →
    AtLineStart 10 pre →
    read (s.withFile name (pre ++ (l.chars ++ 10 :: post))) = read s

theorem lineNeutral_iff {α σ ρ : Type} {r : LineReader α σ ρ} {name : FileName}
    {read : Persistent → α → Option ρ} (h : ∀ s a, read s a = r.read a (s.fs.contents name))
    {l : TextLine} : LineNeutral name read l ↔ r.Neutral l := by
  have hfile : ∀ (s : Persistent) c, (s.withFile name c).fs.contents name = c :=
    fun s c => Files.contents_set_self _
  constructor
  · intro hl a pre post hpre
    have := congrFun (hl (setUp.withFile name (pre ++ post)) pre post (hfile _ _) hpre) a
    rw [h, h, hfile, hfile] at this
    exact this
  · intro hl s pre post hs hpre
    funext a
    rw [h, h, hfile, hs]
    exact hl a pre post hpre

/-- An inserted line leaves the results of a reader alone, in every file and at every line start,
exactly when it is harmless for that reader; and the loops read the lines of a file exactly when
these fit. -/
theorem inserted_line_neutral_iff (l : TextLine) :
    (LineNeutral mqttConfiguration (fun s out => s.getMqttConfig out) l ↔
      Harmless 512 (beginsWith ["brokeraddress", "brokerport", "clientid"]) l) ∧
    (LineNeutral mqttConfiguration (fun s out => s.getMqttLoginConfig out) l ↔
      Harmless 128 (beginsWith ["username", "password"]) l) ∧
    (LineNeutral mqttConfiguration (fun s out => s.getMqttWill out) l ↔ Harmless 128 actsOnWill l) ∧
    (LineNeutral mqttsnConfiguration (fun s => s.getAdvertiseDuration PERSISTENT_DEBUG) l ↔
      Harmless 512 (hasKey "advertise") l) ∧
    (LineNeutral mqttsnConfiguration (fun s => s.getTimeoutCheckDuration PERSISTENT_DEBUG) l ↔
      Harmless 512 (hasKey "timeout") l) ∧
    (LineNeutral mqttsnConfiguration (fun s gatewayId => s.getGatewayId PERSISTENT_DEBUG gatewayId)
      l ↔
      Harmless 512 (hasKey "gatewayid") l) ∧
    (∀ c, linesRead 512 c = lines 10 c ↔ LinesFit 512 c) ∧ ∀ c, linesRead 128 c = lines 10 c ↔
      LinesFit 128 c := by
  have hunit : ∀ {ρ : Type} {name : FileName} {read : Persistent → ρ},
      LineNeutral name read l ↔ LineNeutral name (fun s (_ : Unit) => read s) l := by
    intro ρ name read
    exact ⟨fun h s pre post hs hpre => funext fun _ => h s pre post hs hpre,
      fun h s pre post hs hpre => congrFun (h s pre post hs hpre) ()⟩
  refine ⟨?_, ?_, ?_, ?_, ?_, ?_, linesRead_eq_lines_iff (by decide),
    linesRead_eq_lines_iff (by decide)⟩
  · exact (lineNeutral_iff getMqttConfig_eq_read).trans mqttConfigReader_notices.neutral_iff
  · exact (lineNeutral_iff getMqttLoginConfig_eq_read).trans mqttLoginReader_notices.neutral_iff
  · exact (lineNeutral_iff getMqttWill_eq_read).trans mqttWillReader_notices.neutral_iff
  · exact hunit.trans ((lineNeutral_iff fun s _ => s.getAdvertiseDuration_eq_read).trans
      advertiseReader_notices.neutral_iff)
  · exact hunit.trans ((lineNeutral_iff fun s _ => s.getTimeoutCheckDuration_eq_read).trans
      timeoutReader_notices.neutral_iff)
  · exact (lineNeutral_iff getGatewayId_eq_read).trans gatewayIdReader_notices.neutral_iff

/-- Behind an empty line nothing is read: with one in front of `clientid` the configuration is
incomplete. -/
theorem empty_line_hides_setting :
    let s :=
      setUp.withFile mqttConfiguration (ascii "brokeraddress 10.0.0.1\nbrokerport 1\n" ++
        ascii "clientid a\n")
    let s' := s.withFile mqttConfiguration
      (ascii "brokeraddress 10.0.0.1\nbrokerport 1\n" ++ ([] ++ 10 :: ascii "clientid a\n"))
    s.getMqttConfig ⟨[0, 0, 0, 0], 0, [0, 0]⟩ = some (true, ⟨[10, 0, 0, 1], 1, [97, 0]⟩) ∧
      s'.getMqttConfig ⟨[0, 0, 0, 0], 0, [0, 0]⟩ = some (false, ⟨[10, 0, 0, 1], 1, [0, 0]⟩) ∧
      ¬ LineNeutral mqttConfiguration (fun s out => s.getMqttConfig out) ⟨[], by decide⟩ := by
  intro s s'
  have hs : s = setUp.withFile mqttConfiguration _ := rfl
  have hs' : s' = s.withFile mqttConfiguration _ := rfl
  have hread : s.getMqttConfig ⟨[0, 0, 0, 0], 0, [0, 0]⟩ =
    some (true, ⟨[10, 0, 0, 1], 1, [97, 0]⟩) ∧
      s'.getMqttConfig ⟨[0, 0, 0, 0], 0, [0, 0]⟩ = some (false, ⟨[10, 0, 0, 1], 1, [0, 0]⟩) := by
    rw [hs', hs]
    decide +kernel
  obtain ⟨h, h'⟩ := hread
  refine ⟨h, h', fun hl => ?_⟩
  have heq := congrFun (hl s _ _ (Files.contents_set_self _) (by decide)) ⟨[0, 0, 0, 0], 0, [0, 0]⟩
  have heq' : s'.getMqttConfig ⟨[0, 0, 0, 0], 0, [0, 0]⟩ = s.getMqttConfig
      ⟨[0, 0, 0, 0], 0, [0, 0]⟩ := heq
  rw [h, h'] at heq'
  exact absurd heq' (by decide)

end SnGateway
