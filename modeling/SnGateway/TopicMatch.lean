import SnGateway.MqttPacket

/-!
# Topic filters

`isTopicMatched` of `MQTTClient.h` walks over a filter and a topic name character by character. On
filters whose wildcards fill a level, with `#` at the end, it finds what the levels say, but no
wildcard stands for an empty level and `#` not for the level in front of it either
(`isTopicMatched_levels`).
-/

namespace SnGateway
open RecordStore

namespace MqttClient

/-- `/`, `+` and `#`. -/
def slash : UInt8 := 47
def plus : UInt8 := 43
def hash : UInt8 := 35

/-- The loop of `isTopicMatched`: what is left of the filter and of the name. A `break` leaves some
of the name. -/
def matchFrom : List UInt8 → List UInt8 → Bool
  | [], curn => curn.isEmpty
  | _ :: _, [] => false
  | f :: curf, c :: curn =>
    if c = slash ∧ f ≠ slash then false
    else if f ≠ plus ∧ f ≠ hash ∧ f ≠ c then false
    else if f = plus then matchFrom curf (curn.dropWhile (· ≠ slash))
    else if f = hash then matchFrom curf []
    else matchFrom curf curn

/-- `none` is a name that has a length but no data, where it is looked at. -/
def isTopicMatched (topicFilter : List UInt8) (topicName : MqttString) : Option Bool :=
  match topicName.data with
  | some data => some (matchFrom (cstr topicFilter) (data.take topicName.len))
  | none =>
    if topicName.len = 0 ∨ cstr topicFilter = [] then
      some (topicName.len = 0 ∧ cstr topicFilter = [])
    else none

end MqttClient

/-! ### Levels -/

inductive FilterLevel where
  | name (text : List UInt8)
  | plus
  | hash

namespace FilterLevel
open MqttClient

def text : FilterLevel → List UInt8
  | name text => text
  | plus => [MqttClient.plus]
  | hash => [MqttClient.hash]

/-- Nothing in the text of a level ends it or is a wildcard. -/
def Valid : FilterLevel → Prop
  | name text => ∀ c ∈ text, c ≠ slash ∧ c ≠ MqttClient.plus ∧ c ≠ MqttClient.hash
  | _ => True

end FilterLevel

/-- A topic filter: one level or more, `#` in the last one only. -/
structure TopicFilter where
  levels : List FilterLevel
  ne_nil : levels ≠ []
  valid : ∀ l ∈ levels, l.Valid
  hash_last : .hash ∉ levels.dropLast

namespace MqttClient

/-- Levels behind the first one. -/
def furtherLevels (ls : List (List UInt8)) : List UInt8 := ls.flatMap fun l => slash :: l

/-- The levels of a text. -/
def joinLevels : List (List UInt8) → List UInt8
  | [] => []
  | l :: ls => l ++ furtherLevels ls

end MqttClient

def TopicFilter.text (f : TopicFilter) : List UInt8 :=
  MqttClient.joinLevels (f.levels.map FilterLevel.text)

namespace FilterLevel
open MqttClient

/-- What the levels of a filter stand for. -/
def Stand : List FilterLevel → List (List UInt8) → Prop
  | [], ls => ls = []
  | hash :: _, _ => True
  | plus :: fs, _ :: ls => Stand fs ls
  | name t :: fs, l :: ls => t = l ∧ Stand fs ls
  | _ :: _, [] => False

/-- No wildcard stands for an empty level, or for none. -/
def Filled : List FilterLevel → List (List UInt8) → Prop
  | hash :: _, ls => ∃ l ∈ ls.head?, l ≠ []
  | plus :: fs, l :: ls => l ≠ [] ∧ Filled fs ls
  | name _ :: fs, _ :: ls => Filled fs ls
  | _, _ => True

end FilterLevel

namespace MqttClient

theorem matchFrom_append {t : List UInt8} (ht : ∀ c ∈ t, c ≠ plus ∧ c ≠ hash)
    (curf curn : List UInt8) :
    matchFrom (t ++ curf) curn = true ↔ ∃ rest, curn = t ++ rest ∧ matchFrom curf rest = true := by
  induction t generalizing curn with
  | nil => simp
  | cons c t ih =>
    obtain ⟨⟨hplus, hhash⟩, ht⟩ := List.forall_mem_cons.1 ht
    cases curn with
    | nil => simp [matchFrom]
    | cons d curn =>
      by_cases hcd : c = d
      · subst hcd
        have hstep : matchFrom (c :: (t ++ curf)) (c :: curn) = matchFrom (t ++ curf) curn := by
          simp [matchFrom, hplus, hhash]
        rw [List.cons_append, hstep, ih ht]
        simp
      · have hstep : matchFrom (c :: (t ++ curf)) (d :: curn) = false := by
          simp [matchFrom, hplus, hhash, hcd]
        simp [hstep, Ne.symm hcd]

theorem matchFrom_nil {curn : List UInt8} : matchFrom [] curn = true ↔ curn = [] := by
  rw [matchFrom, List.isEmpty_iff]

theorem furtherLevels_eq_nil {ls : List (List UInt8)} : furtherLevels ls = [] ↔ ls = [] := by
  cases ls <;> simp [furtherLevels]

theorem furtherLevels_cons (l : List UInt8) (ls : List (List UInt8)) :
    furtherLevels (l :: ls) = slash :: (l ++ furtherLevels ls) := rfl

/-- Behind a level comes another one or nothing. -/
theorem furtherLevels_head {ls : List (List UInt8)} {c : UInt8} {cs : List UInt8}
    (h : furtherLevels ls = c :: cs) : c = slash := by
  cases ls with
  | nil => cases h
  | cons l ls => exact (List.cons.inj h).1.symm

theorem matchFrom_furtherLevels_of_ne {fs : List (List UInt8)} {c : UInt8} {curn : List UInt8}
    (hc : c ≠ slash) : matchFrom (furtherLevels fs) (c :: curn) = false := by
  cases fs with
  | nil => rfl
  | cons f fs =>
    have : slash ≠ plus ∧ slash ≠ hash := by decide
    simp [furtherLevels_cons, matchFrom, this, hc, Ne.symm hc]

/-- A level that is no wildcard matches itself only. -/
theorem matchFrom_name {t l : List UInt8} {fs ls : List (List UInt8)}
    (ht : ∀ c ∈ t, c ≠ slash ∧ c ≠ plus ∧ c ≠ hash) (hl : slash ∉ l) :
    matchFrom (t ++ furtherLevels fs) (l ++ furtherLevels ls) = true ↔
      t = l ∧ matchFrom (furtherLevels fs) (furtherLevels ls) = true := by
  rw [matchFrom_append fun c hc => (ht c hc).2]
  constructor
  · rintro ⟨rest, happ, hmatch⟩
    rcases List.append_eq_append_iff.1 happ with ⟨cs, rfl, hcs⟩ | ⟨cs, rfl, rfl⟩
    · cases cs with
      | nil => exact ⟨List.append_nil l, by rwa [hcs]⟩
      | cons c cs =>
        have hslash : c = slash := furtherLevels_head hcs
        exact absurd hslash (ht c (by simp)).1
    · cases cs with
      | nil => exact ⟨(List.append_nil t).symm, hmatch⟩
      | cons c cs =>
        have hc : c ≠ slash := fun h => hl (by simp [h])
        rw [List.cons_append, matchFrom_furtherLevels_of_ne hc] at hmatch
        cases hmatch
  · rintro ⟨rfl, hmatch⟩
    exact ⟨_, rfl, hmatch⟩

/-- `+` goes to the end of a level that is not empty. -/
theorem matchFrom_plus {l : List UInt8} {fs ls : List (List UInt8)} (hl : slash ∉ l) :
    matchFrom (plus :: furtherLevels fs) (l ++ furtherLevels ls) = true ↔
      l ≠ [] ∧ matchFrom (furtherLevels fs) (furtherLevels ls) = true := by
  have hps : plus ≠ slash := by decide
  cases l with
  | nil =>
    rw [List.nil_append]
    cases h : furtherLevels ls with
    | nil => simp [matchFrom]
    | cons c cs =>
      obtain rfl := furtherLevels_head h
      simp [matchFrom, hps]
  | cons c l =>
    obtain ⟨hc, hl⟩ := not_or.1 (mt List.mem_cons.2 hl)
    have hskip : (l ++ furtherLevels ls).dropWhile (· ≠ slash) = furtherLevels ls := by
      rw [List.dropWhile_append_of_pos
        (fun a ha => by simpa using fun h : a = slash => hl (h ▸ ha))]
      cases h : furtherLevels ls with
      | nil => rfl
      | cons d ds => simp [furtherLevels_head h]
    rw [List.cons_append, matchFrom, if_neg (by simp [Ne.symm hc]), if_neg (by simp),
      if_pos rfl, hskip]
    simp

theorem matchFrom_hash {l : List UInt8} {ls : List (List UInt8)} (hl : slash ∉ l) :
    matchFrom [hash] (l ++ furtherLevels ls) = true ↔ l ≠ [] := by
  have hhs : hash ≠ slash ∧ hash ≠ plus := by decide
  cases l with
  | nil =>
    rw [List.nil_append]
    cases h : furtherLevels ls with
    | nil => simp [matchFrom]
    | cons c cs =>
      obtain rfl := furtherLevels_head h
      simp [matchFrom, hhs]
  | cons c l =>
    have hc : c ≠ slash := fun h => hl (by simp [h])
    simp [matchFrom, hhs, hc]

theorem hash_last_tail {f : FilterLevel} {fs : List FilterLevel} (h : .hash ∉ (f :: fs).dropLast) :
    .hash ∉ fs.dropLast ∧ (f = .hash → fs = []) := by
  cases fs with
  | nil => simp
  | cons g fs =>
    rw [List.dropLast_cons_cons, List.mem_cons, not_or] at h
    exact ⟨h.2, fun hf => absurd hf.symm h.1⟩

open FilterLevel in
/-- One level, given what the levels behind it match. -/
theorem matchFrom_level {f : FilterLevel} {fs : List FilterLevel} {l : List UInt8}
    {ls : List (List UInt8)} (hf : f.Valid) (hlast : f = .hash → fs = []) (hl : slash ∉ l)
    (ih : matchFrom (furtherLevels (fs.map text)) (furtherLevels ls) = true ↔ Stand fs ls ∧
      Filled fs ls) :
    matchFrom (f.text ++ furtherLevels (fs.map text)) (l ++ furtherLevels ls) = true ↔
      Stand (f :: fs) (l :: ls) ∧ Filled (f :: fs) (l :: ls) := by
  cases f with
  | name t => rw [FilterLevel.text, matchFrom_name hf hl, ih, Stand, Filled, and_assoc]
  | plus =>
    rw [show FilterLevel.plus.text = [MqttClient.plus] from rfl, List.singleton_append,
      matchFrom_plus hl, ih, Stand, Filled]
    tauto
  | hash =>
    rw [hlast rfl]
    show matchFrom [MqttClient.hash] _ = true ↔ _
    rw [matchFrom_hash hl, Stand, Filled]
    simp

open FilterLevel in
theorem matchFrom_furtherLevels {fs : List FilterLevel} {ls : List (List UInt8)}
    (hvalid : ∀ f ∈ fs, f.Valid) (hlast : .hash ∉ fs.dropLast) (hls : ∀ l ∈ ls, slash ∉ l) :
    matchFrom (furtherLevels (fs.map text)) (furtherLevels ls) = true ↔ Stand fs ls ∧
      Filled fs ls := by
  induction fs generalizing ls with
  | nil =>
    rw [show furtherLevels (([] : List FilterLevel).map text) = [] from rfl, matchFrom_nil,
      furtherLevels_eq_nil]
    simp [Stand, Filled]
  | cons f fs ih =>
    obtain ⟨hf, hvalid⟩ := List.forall_mem_cons.1 hvalid
    cases ls with
    | nil =>
      rw [show furtherLevels [] = [] from rfl, List.map_cons, furtherLevels_cons, matchFrom]
      cases f <;> simp [Stand, Filled]
    | cons l ls =>
      obtain ⟨hl, hls⟩ := List.forall_mem_cons.1 hls
      have hstep : ∀ curf curn, matchFrom (slash :: curf) (slash :: curn) =
          matchFrom curf curn := by
        intro curf curn
        have : slash ≠ plus ∧ slash ≠ hash := by decide
        simp [matchFrom, this]
      obtain ⟨hlast, hf'⟩ := hash_last_tail hlast
      rw [List.map_cons, furtherLevels_cons, furtherLevels_cons, hstep]
      exact matchFrom_level hf hf' hl (ih hvalid hlast hls)

/-- A filter matches the names its levels stand for, as far as no wildcard stands for an empty level
or for none. -/
theorem matchFrom_text (f : TopicFilter) {ls : List (List UInt8)} (hne : ls ≠ [])
    (hls : ∀ l ∈ ls, slash ∉ l) :
    matchFrom f.text (joinLevels ls) = true ↔ FilterLevel.Stand f.levels ls ∧
      FilterLevel.Filled f.levels ls := by
  obtain ⟨levels, hnil, hvalid, hlast⟩ := f
  cases levels with
  | nil => exact absurd rfl hnil
  | cons f fs =>
    cases ls with
    | nil => exact absurd rfl hne
    | cons l ls =>
      obtain ⟨hf, hvalid⟩ := List.forall_mem_cons.1 hvalid
      obtain ⟨hl, hls⟩ := List.forall_mem_cons.1 hls
      obtain ⟨hlast, hf'⟩ := hash_last_tail hlast
      exact matchFrom_level hf hf' hl (matchFrom_furtherLevels hvalid hlast hls)

theorem isTopicMatched_text (filter text : List UInt8) :
    isTopicMatched filter ⟨none, text.length, some text⟩ = some (matchFrom (cstr filter) text) := by
  simp only [isTopicMatched, List.take_length]

/-- `isTopicMatched` on a filter and a name of the same kind. -/
theorem isTopicMatched_levels (f : TopicFilter) (hnul : 0 ∉ f.text) {ls : List (List UInt8)}
    (hne : ls ≠ []) (hls : ∀ l ∈ ls, slash ∉ l) :
    isTopicMatched f.text ⟨none, (joinLevels ls).length, some (joinLevels ls)⟩ = some true ↔
      FilterLevel.Stand f.levels ls ∧ FilterLevel.Filled f.levels ls := by
  rw [isTopicMatched_text, cstr_eq_self hnul, Option.some.injEq]
  exact matchFrom_text f hne hls

/-- `a/+` and `a/b`. -/
theorem isTopicMatched_levels_plus :
    isTopicMatched [97, 47, 43] ⟨none, 3, some [97, 47, 98]⟩ = some true := by
  have hvalid : ∀ l ∈ [FilterLevel.name [97], .plus], l.Valid := by
    simp [FilterLevel.Valid, slash, plus, hash]
  have hne : [([97] : List UInt8), [98]] ≠ [] := by simp
  exact (isTopicMatched_levels ⟨_, by simp, hvalid, by simp⟩
    (show (0 : UInt8) ∉ [97, 47, 43] by decide) hne (by decide)).2
    ⟨⟨rfl, rfl⟩, by simp [FilterLevel.Filled]⟩

end MqttClient

end SnGateway
