import SnGateway.ConfigReaders

/-!
# Predefined topics

`get_predefined_topic_name` reads `TOPICS.PRE` line by line, in pieces where a line is longer than
the buffer, and looks at those of more than three characters. The search ends at the first of them
that `stops` it: one that starts with a number congruent to the topic id, or one that the chain of
`strtok` calls cannot take (`search_eq`).
-/

namespace SnGateway
open RecordStore Lines Persistent

/-- The tokens of a line. -/
def tokens (line : List UInt8) : List (List UInt8) := strtokTokens 32 (cstr line)

def firstToken (line : List UInt8) : List UInt8 := (tokens line).headD []
def secondToken (line : List UInt8) : List UInt8 := (tokens line).tail.headD []

/-- `strlen` is taken of a missing second token, or `strtok` runs out of a buffer without a
terminator. -/
def Unsafe (line : List UInt8) : Prop :=
  (tokens line).length = 1 ∨
    (line.length = 262 ∧ 0 ∉ line) ∧
    (tokens line = [] ∨ (tokens line).length = 2 ∧ line.getLast? ≠ some 32)

instance (line : List UInt8) : Decidable (Unsafe line) := inferInstanceAs (Decidable (_ ∨ _))

/-- Two tokens, the first of which `atoi` and the cast make the topic id, the second short enough
for a name. -/
def Matches (topicId : UInt16) (line : List UInt8) : Prop :=
  2 ≤ (tokens line).length ∧ (secondToken line).length < MAXIMUM_TOPIC_NAME_LENGTH ∧
    (atoi (firstToken line) % 2 ^ 16).toNat = topicId.toNat

instance (topicId : UInt16) (line : List UInt8) : Decidable (Matches topicId line) :=
  inferInstanceAs (Decidable (_ ∧ _))

theorem predefinedLine_eq (topicId : UInt16) (line : List UInt8) :
    predefinedLine topicId line =
      if Unsafe line then none else if Matches topicId line then some (some (secondToken line))
      else some none := by
  obtain ⟨ts, hts⟩ : ∃ ts, tokens line = ts := ⟨_, rfl⟩
  simp only [predefinedLine, Unsafe, Matches, secondToken, firstToken, hts,
    show strtokTokens 32 (cstr line) = ts from hts]
  rcases ts with - | ⟨first, - | ⟨name, more⟩⟩
  · simp
  · simp
  · have hout :
      (((first :: name :: more).length = 1 ∨ (line.length = 262 ∧ 0 ∉ line) ∧
        (first :: name :: more = [] ∨
        (first :: name :: more).length = 2 ∧ line.getLast? ≠ some 32))) ↔
        (line.length = 262 ∧ 0 ∉ line) ∧ more = [] ∧ line.getLast? ≠ some 32 := by
      simp
    rw [if_congr hout rfl rfl]
    dsimp only
    by_cases hundef : (line.length = 262 ∧ 0 ∉ line) ∧ more = [] ∧ line.getLast? ≠ some 32
    · rw [if_pos hundef, if_pos hundef]
    · rw [if_neg hundef, if_neg hundef]
      by_cases hname : MAXIMUM_TOPIC_NAME_LENGTH ≤ name.length
      · rw [if_pos hname, if_neg fun h => absurd h.2.1 (Nat.not_lt.2 hname)]
      · rw [if_neg hname]
        refine if_congr ?_ rfl rfl
        exact ⟨fun h => ⟨by simp, Nat.lt_of_not_le hname, h⟩, fun h => h.2.2⟩

/-- The search ends at this line. -/
def stops (topicId : UInt16) (line : List UInt8) : Bool :=
  3 < line.length ∧ (Unsafe line ∨ Matches topicId line)

/-- The loop over the lines as they are read. -/
def search (topicId : UInt16) (ls : List (List UInt8)) : Option (Option (List UInt8)) :=
  match ls.find? (stops topicId) with
  | none => some none
  | some line => if Unsafe line then none else some (some (secondToken line))

theorem search_cons (topicId : UInt16) (line : List UInt8) (ls : List (List UInt8)) :
    search topicId (line :: ls) =
      if 3 < line.length then
        match predefinedLine topicId line with
        | none => none
        | some (some name) => some (some name)
        | some none => search topicId ls
      else search topicId ls := by
  rw [search, List.find?_cons]
  by_cases hlong : 3 < line.length
  · rw [if_pos hlong, predefinedLine_eq]
    by_cases hundef : Unsafe line
    · simp [stops, hlong, hundef]
    · by_cases hmatch : Matches topicId line
      · simp [stops, hlong, hundef, hmatch]
      · simp [stops, hundef, hmatch, search]
  · simp [stops, hlong, search]

theorem predefinedLoop_eq (topicId : UInt16) (fuel : Nat) (c : List UInt8) :
    predefinedLoop topicId fuel c = search topicId (configLines 262 fuel c) := by
  induction fuel generalizing c with
  | zero => rfl
  | succ fuel ih =>
    rw [predefinedLoop, configLines]
    dsimp only
    by_cases hline : (readLine 262 c).1 = []
    · simp [hline, search]
    · have hpos := List.length_pos_iff.2 hline
      rw [if_neg hline, search_cons, ih]
      by_cases hlong : 3 < (readLine 262 c).1.length
      · exact (if_pos hlong).trans (if_pos hlong).symm
      · rw [if_neg hlong, if_neg hlong, if_pos hpos]

/-- More steps than characters change nothing. -/
theorem predefinedLoop_fuel (topicId : UInt16) {fuel : Nat} {c : List UInt8} (h : c.length < fuel) :
    predefinedLoop topicId fuel c = search topicId (linesRead 262 c) := by
  rw [predefinedLoop_eq, configLines_fuel h]

theorem getPredefinedTopicName_eq (topicId : UInt16) {s : Persistent} (h : s.error = false) :
    s.getPredefinedTopicName topicId = search topicId
      (linesRead 262 (s.fs.contents predefinedTopic)) := by
  rw [Persistent.getPredefinedTopicName, if_neg (by simp [h])]
  exact predefinedLoop_fuel topicId (Nat.lt_succ_self _)

/-! ### Files of entries -/

/-- An entry of `TOPICS.PRE`. -/
structure PredefinedTopic where
  id : UInt16
  name : List UInt8
  id_ne_zero : id ≠ 0
  name_ne_nil : name ≠ []
  length_lt : name.length < MAXIMUM_TOPIC_NAME_LENGTH
  noNul : 0 ∉ name
  noNewline : 10 ∉ name
  noSpace : 32 ∉ name

namespace PredefinedTopic

/-- The line `<id> <name>`. -/
def line (e : PredefinedTopic) : List UInt8 := decimal e.id.toNat ++ 32 :: e.name

variable (e : PredefinedTopic)

theorem notMem_line {ch : UInt8} (hdigit : ∀ d < 10, ch ≠ digitChar d) (hspace : ch ≠ 32)
    (hname : ch ∉ e.name) : ch ∉ e.line := by
  rw [line, List.mem_append, List.mem_cons]
  rintro (h | h | h)
  · obtain ⟨d, hd, heq⟩ := mem_decimal h
    exact hdigit d hd heq
  · exact hspace h
  · exact hname h

theorem noNewline_line : 10 ∉ e.line := e.notMem_line (by decide) (by decide) e.noNewline

theorem line_ne_nil : e.line ≠ [] := by simp [line]

theorem length_line : e.line.length ≤ 260 := by
  have hid := e.id.toNat_lt
  have hlen : (decimal e.id.toNat).length ≤ 5 := length_decimal_le (by decide) (by omega)
  have hname : e.name.length < 255 := e.length_lt
  rw [line, List.length_append, List.length_cons]
  omega

theorem tokens_line : tokens e.line = [decimal e.id.toNat, e.name] := by
  have hnul : cstr e.line = e.line := cstr_eq_self (e.notMem_line (by decide) (by decide) e.noNul)
  have hspace : 32 ∉ decimal e.id.toNat := by
    intro h
    obtain ⟨d, hd, heq⟩ := mem_decimal h
    have : ∀ d < 10, (32 : UInt8) ≠ digitChar d := by decide
    exact this d hd heq
  have hsplit : e.line.splitOn 32 = [decimal e.id.toNat, e.name] := by
    have h : (List.intercalate [32] [decimal e.id.toNat, e.name]).splitOn 32 =
      [decimal e.id.toNat, e.name] :=
      List.splitOn_intercalate 32 (by simp [hspace, e.noSpace]) (by simp)
    rwa [List.intercalate_cons_cons, List.intercalate_singleton, List.append_assoc,
      List.singleton_append] at h
  rw [tokens, hnul, strtokTokens, hsplit]
  simp [decimal_ne_nil, e.name_ne_nil]

theorem not_unsafe : ¬ Unsafe e.line := by
  have hlen := e.length_line
  rw [Unsafe, e.tokens_line]
  rintro (h | ⟨⟨h, -⟩, -⟩)
  · cases h
  · omega

theorem matches_iff (topicId : UInt16) : Matches topicId e.line ↔ e.id = topicId := by
  have hid := e.id.toNat_lt
  rw [Matches, secondToken, firstToken, e.tokens_line]
  dsimp only [List.tail_cons, List.headD_cons]
  rw [atoi_decimal (by omega), ← UInt16.toNat_inj]
  have hmod : ((e.id.toNat : Int) % 2 ^ 16).toNat = e.id.toNat := by omega
  rw [hmod]
  exact ⟨fun h => h.2.2, fun h => ⟨by simp, e.length_lt, h⟩⟩

theorem secondToken_line : secondToken e.line = e.name := by
  rw [secondToken, e.tokens_line]
  rfl

theorem stops_line (topicId : UInt16) :
    stops topicId e.line = decide (3 < e.line.length ∧ e.id = topicId) := by
  rw [stops, decide_eq_decide]
  exact and_congr_right fun _ => (or_iff_right e.not_unsafe).trans (e.matches_iff topicId)

theorem line_congr {e e' : PredefinedTopic} (hid : e.id = e'.id) (hname : e.name = e'.name) :
    e.line = e'.line := by
  rw [line, line, hid, hname]

end PredefinedTopic

/-- The text of a file of entries, with a newline behind the last one or without. -/
def topicsText (last : Bool) : List PredefinedTopic → List UInt8
  | [] => []
  | [e] => e.line ++ if last then [10] else []
  | e :: es => e.line ++ 10 :: topicsText last es

theorem linesRead_topicsText (last : Bool) (es : List PredefinedTopic) :
    linesRead 262 (topicsText last es) = es.map PredefinedTopic.line := by
  have hone : ∀ e : PredefinedTopic, linesRead 262 e.line = [e.line] := fun e =>
    linesRead_short e.noNewline_line e.line_ne_nil (Nat.le_trans e.length_line (by decide))
  have hcons : ∀ (e : PredefinedTopic) c, linesRead 262 (e.line ++ 10 :: c) = e.line ::
      linesRead 262 c := by
    intro e c
    have hpos := List.length_pos_iff.2 e.line_ne_nil
    have hlen := e.length_line
    rw [linesRead_line (by decide) e.noNewline_line, hone, if_neg (by omega)]
    rfl
  induction es with
  | nil => exact linesRead_nil 262
  | cons e es ih =>
    rcases es with - | ⟨e', es⟩
    · rcases last with - | -
      · simpa [topicsText] using hone e
      · simpa [topicsText, linesRead_nil] using hcons e []
    · rw [topicsText, hcons, ih]
      · rfl
      · simp

theorem search_entries (topicId : UInt16) (es : List PredefinedTopic) :
    search topicId (es.map PredefinedTopic.line) =
      some ((es.find? fun e => decide (3 < e.line.length ∧ e.id = topicId)).map
        PredefinedTopic.name) := by
  have hstops : stops topicId ∘ PredefinedTopic.line = fun e =>
    decide (3 < e.line.length ∧ e.id = topicId) :=
    funext fun e => e.stops_line topicId
  rw [search, List.find?_map, hstops]
  cases es.find? fun e => decide (3 < e.line.length ∧ e.id = topicId) with
  | none => rfl
  | some e =>
    rw [Option.map_some, Option.map_some]
    dsimp only
    rw [if_neg e.not_unsafe, e.secondToken_line]

/-- The first entry with an id is found when its line is longer than three characters. -/
theorem find?_long_iff (topicId : UInt16) (es : List PredefinedTopic) :
    (es.find? fun e => decide (3 < e.line.length ∧ e.id = topicId)).map PredefinedTopic.name =
        (es.find? fun e => decide (e.id = topicId)).map PredefinedTopic.name ↔
      ∀ e ∈ es.find? fun e => decide (e.id = topicId), 3 < e.line.length := by
  induction es with
  | nil => simp
  | cons e es ih =>
    by_cases hid : e.id = topicId
    · by_cases hlong : 3 < e.line.length
      · simp [hid, hlong]
      · simp only [List.find?_cons, hid, hlong, false_and, decide_false, decide_true,
          Option.mem_def, Option.some.injEq,
          forall_eq', iff_false]
        intro h
        rw [Option.map_some, Option.map_eq_some_iff] at h
        obtain ⟨e', he', hname⟩ := h
        have hfound := List.find?_some he'
        obtain ⟨hlong', hid'⟩ : 3 < e'.line.length ∧ e'.id = topicId := of_decide_eq_true hfound
        rw [PredefinedTopic.line_congr (hid'.trans hid.symm) hname] at hlong'
        exact hlong hlong'
    · simpa [hid] using ih

/-- The name of the first line with the id is returned, unless that line has three characters. -/
theorem predefined_topic_iff {s : Persistent} {last : Bool} {es : List PredefinedTopic}
    (topicId : UInt16) (herror : s.error = false)
    (hfile : s.fs.contents predefinedTopic = topicsText last es) :
    s.getPredefinedTopicName topicId =
        some ((es.find? fun e => decide (e.id = topicId)).map PredefinedTopic.name) ↔
      ∀ e ∈ es.find? fun e => decide (e.id = topicId), 3 < e.line.length := by
  rw [getPredefinedTopicName_eq topicId herror, hfile, linesRead_topicsText, search_entries,
    Option.some.injEq,
    find?_long_iff]

def namedTopic : PredefinedTopic :=
  ⟨1, ascii "ab", by decide, by decide, by decide, by decide, by decide, by decide⟩
def shortTopic : PredefinedTopic :=
  ⟨1, ascii "t", by decide, by decide, by decide, by decide, by decide, by decide⟩

theorem predefined_topic_iff_first :
    let s := setUp.withFile predefinedTopic (topicsText false [namedTopic, shortTopic])
    s.getPredefinedTopicName 1 = some (some (ascii "ab")) := by
  intro s
  have hfile : s.fs.contents predefinedTopic = topicsText false [namedTopic, shortTopic] :=
    Files.contents_set_self _
  have hlong : ∀ e ∈ [namedTopic, shortTopic].find? fun e => decide (e.id = 1),
      3 < e.line.length := by
    intro e he
    obtain rfl : namedTopic = e := Option.some.inj he
    decide +kernel
  exact (predefined_topic_iff 1 rfl hfile).2 hlong

/-- The first line of the file has three characters. -/
theorem short_topic_skipped :
    let s := setUp.withFile predefinedTopic (topicsText true [shortTopic, namedTopic])
    s.getPredefinedTopicName 1 = some (some (ascii "ab")) ∧
      ([shortTopic, namedTopic].find? fun e => decide (e.id = 1)).map PredefinedTopic.name =
        some (ascii "t") := by
  intro s
  have hs : s = setUp.withFile predefinedTopic _ := rfl
  rw [hs]
  exact ⟨by decide +kernel, by decide⟩

/-! ### Files of any bytes -/

/-- The name is the second token of a line that starts with the id in decimal digits. -/
def Listed (c : List UInt8) (topicId : UInt16) (name : List UInt8) : Prop :=
  ∃ l ∈ lines 10 c, ∃ first more, strtokTokens 32 l = first :: name :: more ∧
    isDecimal first = true ∧
    digitsValue 10 first = topicId.toNat

/-- The lookup comes to an end, whatever number of steps beyond the characters of the file it is
given, it has a result, and a name it returns is listed for the id. -/
structure HarmlessLookup (topicId : UInt16) (s : Persistent) : Prop where
  terminates : ∀ fuel, (s.fs.contents predefinedTopic).length < fuel →
    predefinedLoop topicId fuel (s.fs.contents predefinedTopic) =
      predefinedLoop topicId ((s.fs.contents predefinedTopic).length + 1)
      (s.fs.contents predefinedTopic)
  returns : ∃ r, s.getPredefinedTopicName topicId = some r ∧
    ∀ name ∈ r, Listed (s.fs.contents predefinedTopic) topicId name

/-- The line at which the search ends, if there is one, can be taken, and it names a topic that is
listed for the id. -/
theorem malformed_topics_harmless_iff (topicId : UInt16) (s : Persistent) :
    HarmlessLookup topicId s ↔ s.error = true ∨
      ∀ line ∈ (linesRead 262 (s.fs.contents predefinedTopic)).find? (stops topicId),
        ¬ Unsafe line ∧ Listed (s.fs.contents predefinedTopic) topicId (secondToken line) := by
  have hends : ∀ fuel, (s.fs.contents predefinedTopic).length < fuel →
      predefinedLoop topicId fuel (s.fs.contents predefinedTopic) =
        predefinedLoop topicId ((s.fs.contents predefinedTopic).length + 1)
        (s.fs.contents predefinedTopic) :=
    fun fuel hfuel => by
      rw [predefinedLoop_fuel topicId hfuel, predefinedLoop_fuel topicId (Nat.lt_succ_self _)]
  by_cases herror : s.error = true
  · refine iff_of_true ⟨hends, none, ?_, fun _ h => by cases h⟩ (.inl herror)
    rw [Persistent.getPredefinedTopicName, if_pos herror]
  · have heq := getPredefinedTopicName_eq topicId (Bool.eq_false_iff.2 herror)
    rw [search] at heq
    rw [or_iff_right herror]
    cases hfind : (linesRead 262 (s.fs.contents predefinedTopic)).find? (stops topicId) with
    | none =>
      rw [hfind] at heq
      exact iff_of_true ⟨hends, none, heq, fun _ h => by cases h⟩ fun _ h => by cases h
    | some line =>
      rw [hfind] at heq
      simp only [Option.mem_def, Option.some.injEq, forall_eq']
      constructor
      · rintro ⟨-, r, hr, hnames⟩
        rw [heq] at hr
        by_cases hundef : Unsafe line
        · dsimp only at hr
          rw [if_pos hundef] at hr
          cases hr
        · dsimp only at hr
          rw [if_neg hundef] at hr
          cases hr
          exact ⟨hundef, hnames _ rfl⟩
      · rintro ⟨hsafe, hlisted⟩
        dsimp only at heq
        rw [if_neg hsafe] at heq
        refine ⟨hends, _, heq, fun name hname => ?_⟩
        cases hname
        exact hlisted

/-- A line of one token: `strlen` is taken of a null pointer. -/
theorem single_token_unsafe :
    let s := setUp.withFile predefinedTopic (ascii "abcd\n")
    s.getPredefinedTopicName 5 = none ∧ ¬ HarmlessLookup 5 s := by
  intro s
  have hnone : s.getPredefinedTopicName 5 = none := by
    rw [show s = setUp.withFile predefinedTopic _ from rfl]
    decide +kernel
  refine ⟨hnone, ?_⟩
  rintro ⟨-, r, hr, -⟩
  rw [hnone] at hr
  cases hr

end SnGateway
