import SnGateway.ConfigReaders

/-!
# Numbers in configuration lines

The parsers of numbers and of the broker address look at the length of the value and take `atoi` of
it, narrowed to the type of the destination: texts that are no number, and numbers that are too
large, pass (`NumberParser.parse_line`, `parseIpaddress_line`). `numeric_settings_exact_iff` and
`broker_address_iff` say for which lines they do what they should.
-/

namespace SnGateway
open RecordStore Persistent

/-- A line of a configuration file as the parsers get it, with a length that `uint16_t
max` takes. -/
structure ConfigLine where
  text : List UInt8
  noNul : 0 ∉ text
  noNewline : 10 ∉ text
  length_lt : text.length + 1 < 2 ^ 16

/-- A decimal number of `lo..hi`. -/
def IsNumber (lo hi : Nat) (t : List UInt8) : Prop :=
  isDecimal t = true ∧ lo ≤ digitsValue 10 t ∧ digitsValue 10 t ≤ hi

instance (lo hi : Nat) (t : List UInt8) : Decidable (IsNumber lo hi t) :=
  inferInstanceAs (Decidable (_ ∧ _))

theorem isNumber_decimal {lo hi n : Nat} (h1 : lo ≤ n) (h2 : n ≤ hi) :
    IsNumber lo hi (decimal n) := by
  refine ⟨isDecimal_decimal n, ?_⟩
  rw [digitsValue_decimal]
  exact ⟨h1, h2⟩

namespace ConfigLine

/-- The text after the first space. -/
def value (l : ConfigLine) : List UInt8 := valueText l.text

variable (l : ConfigLine)

theorem noNul_value : 0 ∉ l.value := fun h => l.noNul (mem_of_mem_valueText h)

/-- What the parsers make of `start` and `end`. -/
theorem valueBounds_text (rest : List UInt8) :
    valueBounds (l.text ++ 0 :: rest) (l.text.length + 1) =
      if 32 ∈ l.text then some ((keyText l.text).length, (keyText l.text).length + l.value.length)
      else none :=
  valueBounds_terminated l.noNul l.noNewline rest

theorem value_of_notMem {l : ConfigLine} (h : 32 ∉ l.text) : l.value = [] := valueText_of_notMem h

end ConfigLine

/-! ### Numbers -/

/-- The two parsers of numbers. -/
inductive NumberParser where
  | uint16
  | uint8
deriving DecidableEq

namespace NumberParser

def parse : NumberParser → Nat → List UInt8 → Nat → Bool × Nat
  | uint16 => parseUint16AfterSpace
  | uint8 => parseUint8AfterSpace

/-- `uint16_t` settings are not 0. -/
def lo : NumberParser → Nat
  | uint16 => 1
  | uint8 => 0

def hi : NumberParser → Nat
  | uint16 => 65535
  | uint8 => 255

/-- The longest text that is looked at. -/
def width : NumberParser → Nat
  | uint16 => 6
  | uint8 => 3

/-- What is left of `atoi`. -/
def narrowed (p : NumberParser) (t : List UInt8) : Nat := (atoi t % (p.hi + 1 : Nat)).toNat

variable (p : NumberParser)

theorem parse_line (l : ConfigLine) (rest : List UInt8) (destination : Nat) :
    p.parse destination (l.text ++ 0 :: rest) (l.text.length + 1) =
      if l.value ≠ [] ∧ l.value.length ≤ p.width then (decide (p.lo ≤ p.narrowed l.value),
        p.narrowed l.value)
      else (false, destination) := by
  have hbounds := l.valueBounds_text rest
  by_cases h32 : 32 ∈ l.text
  · rw [if_pos h32] at hbounds
    have hbytes : valueBytes (l.text ++ 0 :: rest) (keyText l.text).length
        ((keyText l.text).length + l.value.length) = l.value := valueBytes_terminated h32 rest
    have hcond : ∀ w, ((keyText l.text).length + 1 < l.text.length + 1 ∧
        (keyText l.text).length ≠ (keyText l.text).length + l.value.length ∧
        (keyText l.text).length + l.value.length - (keyText l.text).length ≤ w ∧
        (keyText l.text).length + l.value.length - (keyText l.text).length ≥ 1) ↔ l.value ≠ [] ∧
        l.value.length ≤ w := by
      intro w
      have hlt := length_keyText_lt h32
      rw [← List.length_pos_iff]
      omega
    cases p with
    | uint16 =>
      simp only [parse, parseUint16AfterSpace, hbounds, hbytes, hcond, cstr_eq_self l.noNul_value]
      refine if_congr Iff.rfl ?_ rfl
      rw [Prod.mk.injEq, decide_eq_decide]
      exact ⟨Nat.pos_iff_ne_zero.symm, rfl⟩
    | uint8 =>
      simp only [parse, parseUint8AfterSpace, hbounds, hbytes, hcond, cstr_eq_self l.noNul_value]
      rfl
  · rw [if_neg h32] at hbounds
    rw [if_neg fun h => h.1 (ConfigLine.value_of_notMem h32)]
    cases p with
    | uint16 => simp only [parse, parseUint16AfterSpace, hbounds]
    | uint8 => simp only [parse, parseUint8AfterSpace, hbounds]

theorem narrowed_of_isNumber {p : NumberParser} {lo : Nat} {t : List UInt8}
    (h : IsNumber lo p.hi t) : p.narrowed t = digitsValue 10 t := by
  have hhi : p.hi < 2 ^ 31 := by cases p <;> decide
  rw [narrowed, atoi_decimalText h.1 (Nat.lt_of_le_of_lt h.2.2 hhi), Int.emod_eq_of_lt (by omega)]
  · exact Int.toNat_natCast _
  · have := h.2.2
    omega

/-- The parser takes the numbers of its range for what they are and nothing else, and leaves the
destination alone otherwise. -/
structure Exact (l : ConfigLine) (destination : Nat) (result : Bool × Nat) : Prop where
  number : result.1 = true → IsNumber p.lo p.hi l.value ∧ result.2 = digitsValue 10 l.value
  accepts : ∀ n, p.lo ≤ n → n ≤ p.hi → l.value = decimal n → result.1 = true
  untouched : result.1 = false → result.2 = destination

/-- The lines that are handled so: the value is missing or too long, it is a number of the range, or
it is refused for a 0 that was there before. -/
def Handles (l : ConfigLine) (destination : Nat) : Prop :=
  l.value = [] ∨ p.width < l.value.length ∨ IsNumber p.lo p.hi l.value ∨
    p.narrowed l.value < p.lo ∧ destination = p.narrowed l.value

instance (l : ConfigLine) (destination : Nat) : Decidable (p.Handles l destination) := by
  unfold Handles
  infer_instance

theorem length_decimal_le_width {n : Nat} (h : n ≤ p.hi) : (decimal n).length ≤ p.width := by
  cases p with
  | uint16 => exact length_decimal_le (by decide) (Nat.lt_of_le_of_lt h (by decide))
  | uint8 => exact length_decimal_le (by decide) (Nat.lt_of_le_of_lt h (by decide))

end NumberParser

/-- Exactly on these lines are numeric settings exact or rejected. -/
theorem numeric_settings_exact_iff (p : NumberParser) (l : ConfigLine) (rest : List UInt8)
    (destination : Nat) :
    p.Exact l destination (p.parse destination (l.text ++ 0 :: rest) (l.text.length + 1)) ↔
      p.Handles l destination := by
  rw [p.parse_line]
  by_cases hread : l.value ≠ [] ∧ l.value.length ≤ p.width
  · obtain ⟨hne, hlen⟩ := hread
    rw [if_pos ⟨hne, hlen⟩]
    constructor
    · intro h
      refine .inr (.inr ?_)
      by_cases hlo : p.lo ≤ p.narrowed l.value
      · exact .inl (h.number (decide_eq_true hlo)).1
      · exact .inr ⟨Nat.lt_of_not_le hlo, (h.untouched (decide_eq_false hlo)).symm⟩
    · rintro (h | h | h | ⟨hlo, hdest⟩)
      · exact absurd h hne
      · exact absurd hlen (Nat.not_le_of_lt h)
      · have hn := NumberParser.narrowed_of_isNumber h
        have hlo : p.lo ≤ p.narrowed l.value := by rw [hn]; exact h.2.1
        exact ⟨fun _ => ⟨h, hn⟩, fun _ _ _ _ => decide_eq_true hlo, fun hf =>
          absurd hlo (of_decide_eq_false hf)⟩
      · have hnot := Nat.not_le_of_lt hlo
        refine ⟨fun ht => absurd (of_decide_eq_true ht) hnot, fun n h1 h2 heq => ?_,
          fun _ => hdest.symm⟩
        have hnum : IsNumber p.lo p.hi l.value := by rw [heq]; exact isNumber_decimal h1 h2
        rw [NumberParser.narrowed_of_isNumber hnum] at hnot
        exact absurd hnum.2.1 hnot
  · rw [if_neg hread]
    refine iff_of_true ⟨fun h => (by cases h), fun n h1 h2 heq => ?_, fun _ => rfl⟩ ?_
    · refine absurd ⟨?_, ?_⟩ hread
      · rw [heq]; exact decimal_ne_nil n
      · rw [heq]; exact p.length_decimal_le_width h2
    · rw [not_and_or, not_not, Nat.not_le] at hread
      exact hread.imp_right .inl

def portLine : ConfigLine := ⟨ascii "brokerport 65537", by decide, by decide, by decide⟩

/-- A port that wraps. -/
theorem large_port_accepted :
    ¬ NumberParser.uint16.Exact portLine 0
      (NumberParser.uint16.parse 0 (portLine.text ++ [0]) (portLine.text.length + 1)) := by
  rw [numeric_settings_exact_iff]
  decide +kernel

/-! ### The broker address -/

/-- What is left of `atoi` is a byte. -/
def isOctet (found : List UInt8) : Bool := (atoi found % 2 ^ 16).toNat ≤ 255

theorem parseIpaddress_line (l : ConfigLine) (rest destination : List UInt8) :
    parseIpaddressAfterSpace destination (l.text ++ 0 :: rest) (l.text.length + 1) =
      if 7 < l.value.length ∧ l.value.length < 17 then
        parseOctets 0 destination (strtokTokens 46 l.value)
      else (false, destination) := by
  have hbounds := l.valueBounds_text rest
  by_cases h32 : 32 ∈ l.text
  · rw [if_pos h32] at hbounds
    have hbytes : valueBytes (l.text ++ 0 :: rest) (keyText l.text).length
        ((keyText l.text).length + l.value.length) = l.value := valueBytes_terminated h32 rest
    have hcond : ((keyText l.text).length + 1 < l.text.length + 1 ∧
        (keyText l.text).length ≠ (keyText l.text).length + l.value.length ∧
        (keyText l.text).length + l.value.length - (keyText l.text).length < 17 ∧
        (keyText l.text).length + l.value.length - (keyText l.text).length > 7) ↔
        7 < l.value.length ∧ l.value.length < 17 := by
      have hlt := length_keyText_lt h32
      omega
    simp only [parseIpaddressAfterSpace, hbounds, hbytes, hcond, cstr_eq_self l.noNul_value]
  · rw [if_neg h32] at hbounds
    rw [if_neg fun h => by rw [ConfigLine.value_of_notMem h32] at h; exact Nat.not_lt_zero _ h.1]
    simp only [parseIpaddressAfterSpace, hbounds]

/-- Four tokens are stored, and the loop is left with `true`, when all of them pass. -/
theorem parseOctets_iff {numbers : Nat} (hn : numbers < 4) (destination : List UInt8)
    (tokens : List (List UInt8)) :
    (parseOctets numbers destination tokens).1 = true ↔ numbers + tokens.length = 4 ∧
      ∀ found ∈ tokens, isOctet found = true := by
  induction tokens generalizing numbers destination with
  | nil => exact iff_of_false (by simp [parseOctets]) fun h => by rw [List.length_nil] at h; omega
  | cons found tokens ih =>
    rw [parseOctets, List.forall_mem_cons, List.length_cons]
    dsimp only
    by_cases hoctet : isOctet found = true
    · rw [if_neg (Nat.not_lt.2 (of_decide_eq_true hoctet))]
      rcases tokens with - | ⟨found', tokens⟩
      · by_cases h4 : numbers + 1 = 4
        · simp [h4, hoctet]
        · simp [h4, parseOctets]
      · by_cases h4 : numbers + 1 = 4
        · rw [if_neg (by simp), if_pos ⟨by simp, h4⟩]
          exact iff_of_false (by simp) fun h => by rw [List.length_cons] at h; omega
        · rw [if_neg fun h => h4 h.2, if_neg fun h => h4 h.2, ih (by omega)]
          simp only [hoctet, true_and]
          rw [Nat.add_assoc, Nat.add_comm 1]
    · rw [if_pos (Nat.lt_of_not_le fun h => hoctet (decide_eq_true h))]
      exact iff_of_false (by simp) fun h => hoctet h.2.1

/-- The text of an address, without leading zeros. -/
def dotted (a b c d : UInt8) : List UInt8 :=
  List.intercalate [46] [decimal a.toNat, decimal b.toNat, decimal c.toNat, decimal d.toNat]

/-- Four decimal numbers of `0..255` with single dots between them. -/
def IsDotted (t : List UInt8) : Prop :=
  (t.splitOn 46).length = 4 ∧ ∀ part ∈ t.splitOn 46, IsNumber 0 255 part

instance (t : List UInt8) : Decidable (IsDotted t) := inferInstanceAs (Decidable (_ ∧ _))

/-- A text of 8 to 16 characters with four parts that leave a byte of `atoi`, where dots stand
together or at an end, or a part is no decimal number up to 255. -/
def Sloppy (t : List UInt8) : Prop :=
  7 < t.length ∧ t.length < 17 ∧ (strtokTokens 46 t).length = 4 ∧
    (∀ found ∈ strtokTokens 46 t, isOctet found = true) ∧
    ([] ∈ t.splitOn 46 ∨ ∃ found ∈ strtokTokens 46 t, ¬ IsNumber 0 255 found)

instance (t : List UInt8) : Decidable (Sloppy t) := inferInstanceAs (Decidable (_ ∧ _))

theorem strtokTokens_eq_self {sep : UInt8} {t : List UInt8} (h : [] ∉ t.splitOn sep) :
    strtokTokens sep t = t.splitOn sep := by
  rw [strtokTokens, List.filter_eq_self]
  exact fun part hpart => decide_eq_true fun hnil => h (hnil ▸ hpart)

theorem IsNumber.ne_nil {lo hi : Nat} {t : List UInt8} (h : IsNumber lo hi t) : t ≠ [] :=
  (isDecimal_iff.1 h.1).1

theorem isDotted_of_not_sloppy {t : List UInt8} (h7 : 7 < t.length) (h17 : t.length < 17)
    (h4 : (strtokTokens 46 t).length = 4)
    (hoctets : ∀ found ∈ strtokTokens 46 t, isOctet found = true) (h : ¬ Sloppy t) :
    IsDotted t := by
  have hgood : ¬ ([] ∈ t.splitOn 46 ∨ ∃ found ∈ strtokTokens 46 t, ¬ IsNumber 0 255 found) :=
    fun hbad => h ⟨h7, h17, h4, hoctets, hbad⟩
  obtain ⟨hnil, hnumbers⟩ := not_or.1 hgood
  have heq := strtokTokens_eq_self hnil
  rw [heq] at h4 hnumbers
  exact ⟨h4, fun part hpart => by_contra fun hnot => hnumbers ⟨part, hpart, hnot⟩⟩

theorem not_sloppy_of_isDotted {t : List UInt8} (h : IsDotted t) : ¬ Sloppy t := by
  rintro ⟨-, -, -, -, hnil | ⟨found, hfound, hnot⟩⟩
  · exact (h.2 [] hnil).ne_nil rfl
  · exact hnot (h.2 found (List.mem_of_mem_filter hfound))

theorem notMem_decimal_dot (n : Nat) : 46 ∉ decimal n := by
  intro h
  obtain ⟨d, hd, heq⟩ := mem_decimal h
  have : ∀ d < 10, (46 : UInt8) ≠ digitChar d := by decide
  exact this d hd heq

theorem splitOn_dotted (a b c d : UInt8) :
    (dotted a b c d).splitOn 46 = [decimal a.toNat, decimal b.toNat, decimal c.toNat,
      decimal d.toNat] :=
  List.splitOn_intercalate 46 (by simp [notMem_decimal_dot]) (by simp)

theorem strtokTokens_dotted (a b c d : UInt8) :
    strtokTokens 46 (dotted a b c d) = [decimal a.toNat, decimal b.toNat, decimal c.toNat,
      decimal d.toNat] := by
  have hne : ∀ n, [] ≠ decimal n := fun n => (decimal_ne_nil n).symm
  rw [strtokTokens_eq_self (by simp [splitOn_dotted, hne]), splitOn_dotted]

theorem parseOctets_decimal {numbers : Nat} (b : UInt8) (destination : List UInt8)
    (tokens : List (List UInt8)) :
    parseOctets numbers destination (decimal b.toNat :: tokens) =
      if tokens = [] ∧ numbers + 1 = 4 then (true, overwrite destination numbers [b])
      else if tokens ≠ [] ∧ numbers + 1 = 4 then (false, overwrite destination numbers [b])
      else parseOctets (numbers + 1) (overwrite destination numbers [b]) tokens := by
  have hb := b.toNat_lt
  have hatoi : (atoi (decimal b.toNat) % 2 ^ 16).toNat = b.toNat := by
    rw [atoi_decimal (by omega)]
    omega
  rw [parseOctets]
  simp only [hatoi]
  rw [if_neg (by omega), UInt8.ofNat_toNat]

theorem parseOctets_dotted (a b c d : UInt8) {destination : List UInt8}
    (hlen : destination.length = 4) :
    parseOctets 0 destination (strtokTokens 46 (dotted a b c d)) = (true, [a, b, c, d]) := by
  obtain ⟨x, y, z, w, rfl⟩ : ∃ x y z w, destination = [x, y, z, w] := by
    match destination, hlen with
    | [x, y, z, w], _ => exact ⟨x, y, z, w, rfl⟩
  rw [strtokTokens_dotted, parseOctets_decimal, if_neg (by simp), if_neg (by simp),
    parseOctets_decimal,
    if_neg (by simp), if_neg (by simp), parseOctets_decimal, if_neg (by simp), if_neg (by simp),
    parseOctets_decimal,
    if_pos ⟨rfl, rfl⟩]
  simp [overwrite]

theorem length_dotted (a b c d : UInt8) :
    7 < (dotted a b c d).length ∧ (dotted a b c d).length < 17 ↔
    10 ≤ a ∨ 10 ≤ b ∨ 10 ≤ c ∨ 10 ≤ d := by
  have hsum : (dotted a b c d).length = (decimal a.toNat).length + (decimal b.toNat).length +
      (decimal c.toNat).length + (decimal d.toNat).length + 3 := by
    simp only [dotted, List.intercalate_cons_cons, List.intercalate_singleton, List.length_append,
      List.length_singleton]
    omega
  have hbyte : ∀ x : UInt8, 1 ≤ (decimal x.toNat).length ∧ (decimal x.toNat).length ≤ 3 ∧
      ((decimal x.toNat).length ≤ 1 ↔ x.toNat < 10) := fun x => by
    have hx := x.toNat_lt
    exact ⟨List.length_pos_iff.2 (decimal_ne_nil _), length_decimal_le (by decide) (by omega),
      length_decimal_le_iff Nat.one_pos⟩
  have ha := hbyte a
  have hb := hbyte b
  have hc := hbyte c
  have hd := hbyte d
  rw [hsum]
  simp only [UInt8.le_iff_toNat_le, show (10 : UInt8).toNat = 10 from rfl]
  omega

/-- The line `brokeraddress a.b.c.d`. -/
def addressText (a b c d : UInt8) : List UInt8 := ascii "brokeraddress " ++ dotted a b c d

theorem mem_dotted {a b c d ch : UInt8} (h : ch ∈ dotted a b c d) :
    ch = 46 ∨ ∃ x < 10, ch = digitChar x := by
  simp only [dotted, List.intercalate_cons_cons, List.intercalate_singleton, List.mem_append,
    List.mem_singleton,
    or_assoc] at h
  rcases h with h | h | h | h | h | h | h
  exacts [.inr (mem_decimal h), .inl h, .inr (mem_decimal h), .inl h, .inr (mem_decimal h), .inl h,
    .inr (mem_decimal h)]

theorem notMem_addressText {a b c d ch : UInt8} (hkey : ch ∉ ascii "brokeraddress ")
    (hdot : ch ≠ 46) (hdigit : ∀ x < 10, ch ≠ digitChar x) : ch ∉ addressText a b c d := by
  rw [addressText, List.mem_append]
  rintro (h | h)
  · exact hkey h
  · rcases mem_dotted h with h | ⟨x, hx, h⟩
    exacts [hdot h, hdigit x hx h]

def addressLine (a b c d : UInt8) : ConfigLine where
  text := addressText a b c d
  noNul := notMem_addressText (by decide) (by decide) (by decide)
  noNewline := notMem_addressText (by decide) (by decide) (by decide)
  length_lt := by
    have h : (dotted a b c d).length < 17 := by
      have hb : ∀ x : UInt8, (decimal x.toNat).length ≤ 3 := fun x =>
        length_decimal_le (by decide) (Nat.lt_of_lt_of_le x.toNat_lt (by decide))
      have := hb a
      have := hb b
      have := hb c
      have := hb d
      simp only [dotted, List.intercalate_cons_cons, List.intercalate_singleton, List.length_append,
        List.length_singleton]
      omega
    rw [addressText, List.length_append, show (ascii "brokeraddress ").length = 14 from rfl]
    omega

theorem value_addressLine (a b c d : UInt8) : (addressLine a b c d).value = dotted a b c d := by
  simp [ConfigLine.value, addressLine, addressText, valueText, ascii]

/-- An address is read exactly unless each of its numbers has one digit; what is accepted is an
address unless it is sloppy. -/
theorem broker_address_iff (a b c d : UInt8) (l : ConfigLine) (rest destination : List UInt8)
    (hlen : destination.length = 4) :
    (parseIpaddressAfterSpace destination ((addressLine a b c d).text ++ 0 :: rest)
        ((addressLine a b c d).text.length + 1) = (true, [a, b, c, d]) ↔ 10 ≤ a ∨ 10 ≤ b ∨
        10 ≤ c ∨ 10 ≤ d) ∧
    (((parseIpaddressAfterSpace destination (l.text ++ 0 :: rest) (l.text.length + 1)).1 = true →
      IsDotted l.value) ↔
      ¬ Sloppy l.value) := by
  constructor
  · rw [parseIpaddress_line, value_addressLine, ← length_dotted]
    by_cases h : 7 < (dotted a b c d).length ∧ (dotted a b c d).length < 17
    · rw [if_pos h, parseOctets_dotted a b c d hlen]
      exact iff_of_true rfl h
    · rw [if_neg h]
      exact iff_of_false (fun heq => by cases heq) h
  · rw [parseIpaddress_line]
    constructor
    · intro h hsloppy
      have ⟨h7, h17, h4, hoctets, _⟩ := hsloppy
      rw [if_pos ⟨h7, h17⟩, parseOctets_iff (by decide), Nat.zero_add] at h
      exact not_sloppy_of_isDotted (h ⟨h4, hoctets⟩) hsloppy
    · intro hnot h
      by_cases hlen : 7 < l.value.length ∧ l.value.length < 17
      · rw [if_pos hlen, parseOctets_iff (by decide), Nat.zero_add] at h
        exact isDotted_of_not_sloppy hlen.1 hlen.2 h.1 h.2 hnot
      · rw [if_neg hlen] at h
        cases h

theorem broker_address_iff_local :
    parseIpaddressAfterSpace [0, 0, 0, 0] ((addressLine 127 0 0 1).text ++ [0])
    ((addressLine 127 0 0 1).text.length + 1) = (true, [127, 0, 0, 1]) :=
  (broker_address_iff 127 0 0 1 (addressLine 127 0 0 1) [] [0, 0, 0, 0] rfl).1.2 (by decide)

/-- Seven characters are too few. -/
theorem short_address_refused :
    parseIpaddressAfterSpace [0, 0, 0, 0] ((addressLine 1 1 1 1).text ++ [0])
    ((addressLine 1 1 1 1).text.length + 1) ≠ (true, [1, 1, 1, 1]) := by
  decide +kernel

end SnGateway
