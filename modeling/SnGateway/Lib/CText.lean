import Mathlib.Data.Nat.Digits.Lemmas
import SnGateway.Lib.Record

/-!
# Texts the way C reads and writes them

`strtol`, `atoi`, the tokens of `strsep` and `strtok`, and the decimal rendering of `std::to_string`
and `"%08d"`. A C string is given by its bytes before the terminator. `strtol_decimal` and
`atoi_zeroPadded` say that the renderings are read back.
-/

namespace RecordStore

/-- The bytes of an ASCII literal. -/
def ascii (s : String) : List UInt8 := s.toList.map fun c => UInt8.ofNat c.toNat

/-- A C string argument: a text without NUL. -/
structure CString where
  bytes : List UInt8
  noNul : 0 ∉ bytes
deriving DecidableEq

theorem CString.ext {s t : CString} (h : s.bytes = t.bytes) : s = t := by
  cases s
  cases t
  cases h
  rfl

def CString.length (s : CString) : Nat := s.bytes.length

/-! ### Rendering numbers -/

def digitChar (d : Nat) : UInt8 := UInt8.ofNat (48 + d)

/-- `std::to_string` of an unsigned number. -/
def decimal (n : Nat) : List UInt8 :=
  if n = 0 then [48] else (Nat.digits 10 n).reverse.map digitChar

/-- `sprintf("%0wd", n)` of a non-negative number. -/
def zeroPadded (w n : Nat) : List UInt8 :=
  List.replicate (w - (decimal n).length) 48 ++ decimal n

/-- `sprintf("%d", n)` of a number of 32 bits; the upper half of them is negative. -/
def decimalInt (n : Nat) : List UInt8 :=
  if n < 2 ^ 31 then decimal n else 45 :: decimal (2 ^ 32 - n)

/-! ### Reading numbers -/

def isSpace (c : UInt8) : Bool := c == 32 || (9 ≤ c && c ≤ 13)

/-- The value of a digit character, letters counting from 10. -/
def digitValue (c : UInt8) : Nat :=
  if 48 ≤ c ∧ c ≤ 57 then c.toNat - 48
  else if 97 ≤ c ∧ c ≤ 122 then c.toNat - 87
  else if 65 ≤ c ∧ c ≤ 90 then c.toNat - 55
  else 36

def isDigit (base : Nat) (c : UInt8) : Bool := digitValue c < base

def digitsValue (base : Nat) (ds : List UInt8) : Nat :=
  ds.foldl (fun acc c => acc * base + digitValue c) 0

/-- What `strtol` returns: the value, the text behind the number, whether there was a number, and
whether it was out of range. -/
structure Strtol where
  value : Int
  rest : List UInt8
  converted : Bool
  erange : Bool
deriving DecidableEq

def LONG_MAX : Int := 2 ^ 63 - 1
def LONG_MIN : Int := -2 ^ 63

/-- The base a prefix selects, and the text behind the prefix. -/
def selectBase (base : Nat) (s : List UInt8) : Nat × List UInt8 :=
  if base = 0 then
    match s with
    | 48 :: x :: d :: s' =>
      if (x = 120 ∨ x = 88) ∧ isDigit 16 d then (16, d :: s') else (8, s)
    | 48 :: _ => (8, s)
    | _ => (10, s)
  else (base, s)

def signed (s : List UInt8) : Bool × List UInt8 :=
  match s with
  | 45 :: s' => (true, s')
  | 43 :: s' => (false, s')
  | _ => (false, s)

/-- `strtol` with base 0 or 10. -/
def strtol (base : Nat) (s : List UInt8) : Strtol :=
  let (negative, s₁) := signed (s.dropWhile isSpace)
  let (b, s₂) := selectBase base s₁
  let ds := s₂.takeWhile (isDigit b)
  if ds = [] then { value := 0, rest := s, converted := false, erange := false }
  else
    let v : Int := if negative then -(digitsValue b ds : Int) else digitsValue b ds
    let rest := s₂.dropWhile (isDigit b)
    if LONG_MAX < v then { value := LONG_MAX, rest := rest, converted := true, erange := true }
    else if v < LONG_MIN then { value := LONG_MIN, rest := rest, converted := true, erange := true }
    else { value := v, rest := rest, converted := true, erange := false }

/-- `atoi`: `strtol` in base 10, cast to a 32-bit `int`. -/
def atoi (s : List UInt8) : Int := Int.bmod (strtol 10 s).value (2 ^ 32)

/-- The tokens successive `strsep` calls return. -/
def strsepTokens (sep : UInt8) (s : List UInt8) : List (List UInt8) := s.splitOn sep

/-- The tokens successive `strtok` calls return. -/
def strtokTokens (sep : UInt8) (s : List UInt8) : List (List UInt8) :=
  (s.splitOn sep).filter (· ≠ [])

/-! ### Reading a rendering back -/

theorem digitValue_digitChar {d : Nat} (h : d < 10) : digitValue (digitChar d) = d := by
  have : ∀ d < 10, digitValue (digitChar d) = d := by decide
  exact this d h

theorem isDigit_digitChar {d : Nat} (h : d < 10) : isDigit 10 (digitChar d) = true := by
  simp [isDigit, digitValue_digitChar h, h]

theorem isSpace_digitChar {d : Nat} (h : d < 10) : isSpace (digitChar d) = false := by
  have : ∀ d < 10, isSpace (digitChar d) = false := by decide
  exact this d h

theorem mem_decimal {n : Nat} {c : UInt8} (h : c ∈ decimal n) : ∃ d < 10, c = digitChar d := by
  rw [decimal] at h
  split at h
  · exact ⟨0, by omega, by simpa [digitChar] using h⟩
  · rw [List.mem_map] at h
    obtain ⟨d, hd, rfl⟩ := h
    exact ⟨d, Nat.digits_lt_base (by omega) (List.mem_reverse.1 hd), rfl⟩

theorem decimal_ne_nil (n : Nat) : decimal n ≠ [] := by
  rw [decimal]
  split
  · simp
  · next h => simpa using Nat.digits_ne_nil_iff_ne_zero.2 h

theorem digitsValue_append (base : Nat) (as bs : List UInt8) :
    digitsValue base (as ++ bs) = bs.foldl (fun acc c => acc * base + digitValue c)
      (digitsValue base as) := by
  simp [digitsValue]

theorem foldl_digitChar_reverse (ds : List Nat) (h : ∀ d ∈ ds, d < 10) :
    digitsValue 10 (ds.reverse.map digitChar) = Nat.ofDigits 10 ds := by
  induction ds with
  | nil => rfl
  | cons d ds ih =>
    rw [List.reverse_cons, List.map_append, digitsValue_append, ih fun x hx =>
      h x (List.mem_cons_of_mem _ hx)]
    simp only [List.map_cons, List.map_nil, List.foldl_cons, List.foldl_nil, Nat.ofDigits_cons,
      digitValue_digitChar (h d (List.mem_cons_self ..))]
    ring

theorem digitsValue_decimal (n : Nat) : digitsValue 10 (decimal n) = n := by
  rw [decimal]
  split
  · next h => subst h; decide
  · rw [foldl_digitChar_reverse _ fun d hd => Nat.digits_lt_base (by omega) hd, Nat.ofDigits_digits]

theorem digitsValue_zeros_append (k : Nat) (ds : List UInt8) :
    digitsValue 10 (List.replicate k 48 ++ ds) = digitsValue 10 ds := by
  induction k with
  | zero => simp
  | succ k ih =>
    have : digitValue 48 = 0 := by decide
    rw [List.replicate_succ, List.cons_append, digitsValue, List.foldl_cons, this]
    simpa [digitsValue] using ih

theorem digitsValue_zeroPadded (w n : Nat) : digitsValue 10 (zeroPadded w n) = n := by
  rw [zeroPadded, digitsValue_zeros_append, digitsValue_decimal]

theorem zeroPadded_injective (w : Nat) {m n : Nat} (h : zeroPadded w m = zeroPadded w n) :
    m = n := by
  rw [← digitsValue_zeroPadded w m, h, digitsValue_zeroPadded]

theorem mem_zeroPadded {w n : Nat} {c : UInt8} (h : c ∈ zeroPadded w n) :
    ∃ d < 10, c = digitChar d := by
  rcases List.mem_append.1 h with h | h
  · exact ⟨0, by omega, by simpa [digitChar] using List.eq_of_mem_replicate h⟩
  · exact mem_decimal h

theorem length_decimal_le_iff {n k : Nat} (hk : 0 < k) : (decimal n).length ≤ k ↔ n < 10 ^ k := by
  rw [decimal]
  split
  · next h => exact iff_of_true hk (by rw [h]; positivity)
  · rw [List.length_map, List.length_reverse]
    exact Nat.digits_length_le_iff (by omega) n

theorem length_decimal_le {n k : Nat} (hk : 0 < k) (h : n < 10 ^ k) : (decimal n).length ≤ k :=
  (length_decimal_le_iff hk).2 h

theorem length_decimalInt_le_iff {n k : Nat} (hn : n < 2 ^ 31) (hk : 0 < k) :
    (decimalInt n).length ≤ k ↔ n < 10 ^ k := by
  rw [decimalInt, if_pos hn, length_decimal_le_iff hk]

theorem length_zeroPadded {w n : Nat} (hw : 0 < w) (h : n < 10 ^ w) :
    (zeroPadded w n).length = w := by
  have := length_decimal_le hw h
  simp [zeroPadded]; omega

theorem zero_notMem_digits {s : List UInt8} (h : ∀ c ∈ s, ∃ d < 10, c = digitChar d) : 0 ∉ s := by
  intro h0
  obtain ⟨d, hd, hc⟩ := h 0 h0
  have : ∀ d < 10, digitChar d ≠ 0 := by decide
  exact this d hd hc.symm

theorem takeWhile_digits (base : Nat) {ds rest : List UInt8} (hd : ∀ c ∈ ds, isDigit base c = true)
    (hr : ∀ c ∈ rest.head?, isDigit base c = false) :
    (ds ++ rest).takeWhile (isDigit base) = ds ∧ (ds ++ rest).dropWhile (isDigit base) = rest := by
  induction ds with
  | nil =>
    cases rest with
    | nil => simp
    | cons c rest => simp [hr c (by simp)]
  | cons c ds ih =>
    have := ih fun x hx => hd x (List.mem_cons_of_mem _ hx)
    simp [hd c (List.mem_cons_self ..), this.1, this.2]

/-- A text of decimal digits, not continued by another, is read in base 10 as its value. -/
theorem strtol_digits {ds rest : List UInt8} (hd : ∀ c ∈ ds, ∃ d < 10, c = digitChar d)
    (hne : ds ≠ []) (hr : ∀ c ∈ rest.head?, isDigit 10 c = false)
    (hv : (digitsValue 10 ds : Int) ≤ LONG_MAX) {base : Nat}
    (hb : selectBase base (ds ++ rest) = (10, ds ++ rest)) :
    strtol base (ds ++ rest) =
      { value := digitsValue 10 ds, rest := rest, converted := true, erange := false } := by
  obtain ⟨c, ds', rfl⟩ := List.exists_cons_of_ne_nil hne
  have hspace : (c :: ds' ++ rest).dropWhile isSpace = c :: ds' ++ rest := by
    obtain ⟨d, hd', rfl⟩ := hd c (List.mem_cons_self ..)
    rw [List.cons_append, List.dropWhile_cons_of_neg (by simp [isSpace_digitChar hd'])]
  have hsign : signed (c :: ds' ++ rest) = (false, c :: ds' ++ rest) := by
    obtain ⟨d, hd', rfl⟩ := hd c (List.mem_cons_self ..)
    have : ∀ d < 10, digitChar d ≠ 45 ∧ digitChar d ≠ 43 := by decide
    obtain ⟨h1, h2⟩ := this d hd'
    rw [List.cons_append]
    unfold signed
    split
    · next heq => exact absurd (List.cons.inj heq).1 h1
    · next heq => exact absurd (List.cons.inj heq).1 h2
    · rfl
  obtain ⟨ht, hdrop⟩ := takeWhile_digits 10
    (fun x hx => by obtain ⟨d, hd', rfl⟩ := hd x hx; exact isDigit_digitChar hd') hr
  have hmin : ¬ ((digitsValue 10 (c :: ds') : Int) < LONG_MIN) := by
    have : LONG_MIN < 0 := by decide
    omega
  simp only [strtol, hspace, hsign, hb, ht, hdrop, if_neg hne, Bool.false_eq_true, if_false,
    if_neg (Int.not_lt.2 hv), if_neg hmin]

theorem strtol_decimal {n : Nat} (hn : (n : Int) ≤ LONG_MAX) {rest : List UInt8}
    (hr : rest = [] ∨ rest = [10]) :
    strtol 0 (decimal n ++ rest) =
      { value := n, rest := rest, converted := true, erange := false } := by
  by_cases h0 : n = 0
  · subst h0
    rcases hr with rfl | rfl <;> decide +kernel
  · have hdig : decimal n = (Nat.digits 10 n).reverse.map digitChar := by rw [decimal, if_neg h0]
    have hr' : ∀ c ∈ rest.head?, isDigit 10 c = false := by
      rcases hr with rfl | rfl
      · simp
      · intro c hc; obtain rfl : (10 : UInt8) = c := by simpa using hc
        decide
    -- the leading digit is not 0, so no prefix selects another base
    have hb : selectBase 0 (decimal n ++ rest) = (10, decimal n ++ rest) := by
      have hne : Nat.digits 10 n ≠ [] := Nat.digits_ne_nil_iff_ne_zero.2 h0
      have hlast := Nat.getLast_digit_ne_zero 10 h0
      have hlt := Nat.digits_lt_base (b := 10) (by omega) (List.getLast_mem hne)
      obtain ⟨c, t, hc⟩ : ∃ c t, decimal n = c :: t := List.exists_cons_of_ne_nil (decimal_ne_nil n)
      have hcd : c = digitChar ((Nat.digits 10 n).getLast hne) := by
        have : (decimal n).head? = some c := by rw [hc]; rfl
        rw [hdig, List.head?_map, List.head?_reverse, List.getLast?_eq_getLast_of_ne_nil hne]
          at this
        simpa using this.symm
      have hc48 : c ≠ 48 := by
        have : ∀ d < 10, d ≠ 0 → digitChar d ≠ 48 := by decide
        rw [hcd]; exact this _ hlt hlast
      rw [hc, List.cons_append]
      unfold selectBase
      rw [if_pos rfl]
      split
      · next heq => exact absurd (List.cons.inj heq).1 hc48
      · next heq => exact absurd (List.cons.inj heq).1 hc48
      · rfl
    have hv : (digitsValue 10 (decimal n) : Int) ≤ LONG_MAX := by rw [digitsValue_decimal]; exact hn
    rw [strtol_digits (fun c hc => mem_decimal hc) (decimal_ne_nil n) hr' hv hb,
      digitsValue_decimal]

/-! ### Decimal texts -/

/-- Digits and nothing else. -/
def isDecimal (s : List UInt8) : Bool := !s.isEmpty && s.all fun c => isDigit 10 c

theorem isDecimal_iff {s : List UInt8} :
    isDecimal s = true ↔ s ≠ [] ∧ ∀ c ∈ s, isDigit 10 c = true := by
  rw [isDecimal, Bool.and_eq_true, Bool.not_eq_true', List.isEmpty_eq_false_iff, List.all_eq_true]

theorem exists_digitChar {c : UInt8} (h : isDigit 10 c = true) : ∃ d < 10, c = digitChar d := by
  have hall : ∀ n < 256, isDigit 10 (UInt8.ofNat n) = true → ∃ d < 10,
      UInt8.ofNat n = digitChar d := by decide +kernel
  simpa using hall c.toNat c.toNat_lt (by simpa using h)

theorem isDecimal_of_digits {s : List UInt8} (hne : s ≠ [])
    (h : ∀ c ∈ s, ∃ d < 10, c = digitChar d) : isDecimal s = true := by
  refine isDecimal_iff.2 ⟨hne, fun c hc => ?_⟩
  obtain ⟨d, hd, rfl⟩ := h c hc
  exact isDigit_digitChar hd

theorem isDecimal_decimal (n : Nat) : isDecimal (decimal n) = true :=
  isDecimal_of_digits (decimal_ne_nil n) fun _ hc => mem_decimal hc

theorem isDecimal_zeroPadded (w n : Nat) : isDecimal (zeroPadded w n) = true :=
  isDecimal_of_digits (by simp [zeroPadded, decimal_ne_nil]) fun _ hc => mem_zeroPadded hc

theorem atoi_decimalText {s : List UInt8} (h : isDecimal s = true)
    (hv : digitsValue 10 s < 2 ^ 31) : atoi s = digitsValue 10 s := by
  obtain ⟨hne, hdigits⟩ := isDecimal_iff.1 h
  have hmax : (digitsValue 10 s : Int) ≤ LONG_MAX := by
    have : (2 : Int) ^ 31 ≤ LONG_MAX := by decide
    omega
  have hstrtol : strtol 10 (s ++ []) = _ :=
    strtol_digits (fun c hc => exists_digitChar (hdigits c hc)) hne (by simp) hmax
      (by simp [selectBase])
  rw [List.append_nil] at hstrtol
  rw [atoi, hstrtol]
  show Int.bmod (digitsValue 10 s : Int) (2 ^ 32) = digitsValue 10 s
  apply Int.bmod_eq_of_le <;> omega

theorem atoi_decimal {n : Nat} (hn : n < 2 ^ 31) : atoi (decimal n) = n := by
  have hval := digitsValue_decimal n
  rw [atoi_decimalText (isDecimal_decimal n) (by rwa [hval]), hval]

theorem atoi_zeroPadded {w n : Nat} (hn : n < 2 ^ 31) : atoi (zeroPadded w n) = n := by
  have hval := digitsValue_zeroPadded w n
  rw [atoi_decimalText (isDecimal_zeroPadded w n) (by rwa [hval]), hval]

/-! ### A newline behind a text -/

theorem signed_concat_newline (s : List UInt8) :
    signed (s ++ [10]) = ((signed s).1, (signed s).2 ++ [10]) := by
  unfold signed
  split
  · next heq =>
    cases s with
    | nil => cases heq
    | cons c s => obtain ⟨rfl, rfl⟩ := List.cons.inj heq; rfl
  · next heq =>
    cases s with
    | nil => cases heq
    | cons c s => obtain ⟨rfl, rfl⟩ := List.cons.inj heq; rfl
  · next h1 h2 =>
    split
    · exact absurd rfl (h1 _)
    · exact absurd rfl (h2 _)
    · rfl

theorem selectBase_concat_newline (s : List UInt8) :
    selectBase 0 (s ++ [10]) = ((selectBase 0 s).1, (selectBase 0 s).2 ++ [10]) := by
  match s with
  | [] => decide
  | [c] =>
    by_cases hc : c = 48
    · subst hc; decide
    · simp [selectBase, hc]
  | [c, x] =>
    by_cases hc : c = 48
    · subst hc
      have : isDigit 16 10 = false := by decide
      simp [selectBase, this]
    · simp [selectBase, hc]
  | c :: x :: d :: s =>
    by_cases hc : c = 48
    · subst hc
      by_cases hx : (x = 120 ∨ x = 88) ∧ isDigit 16 d = true <;> simp [selectBase, hx]
    · simp [selectBase, hc]

theorem selectBase_le (s : List UInt8) : (selectBase 0 s).1 ≤ 16 := by
  unfold selectBase
  rw [if_pos rfl]
  split
  · split <;> simp
  · simp
  · simp

theorem takeWhile_concat_of_neg {p : UInt8 → Bool} {c : UInt8} (hc : p c = false) (w : List UInt8) :
    (w ++ [c]).takeWhile p = w.takeWhile p ∧ (w ++ [c]).dropWhile p = w.dropWhile p ++ [c] := by
  induction w with
  | nil => simp [hc]
  | cons x w ih => by_cases hx : p x = true <;> simp [hx, ih]

/-- A newline behind a text is no part of the number. -/
theorem strtol_concat_newline (s : List UInt8) :
    strtol 0 (s ++ [10]) = { strtol 0 s with rest := (strtol 0 s).rest ++ [10] } := by
  by_cases hu : s.dropWhile isSpace = []
  · have hu' : (s ++ [10]).dropWhile isSpace = [] := by
      rw [List.dropWhile_append, hu]
      decide
    have hnil : (selectBase 0 (signed []).2).2 = [] := rfl
    simp [strtol, hu, hu', hnil]
  · have hu' : (s ++ [10]).dropWhile isSpace = s.dropWhile isSpace ++ [10] := by
      rw [List.dropWhile_append, if_neg (by simpa using hu)]
    obtain ⟨v, hv⟩ : ∃ v, (signed (s.dropWhile isSpace)).2 = v := ⟨_, rfl⟩
    have h10 : isDigit (selectBase 0 v).1 10 = false := by
      have := selectBase_le v
      rw [isDigit, show digitValue 10 = 36 from rfl, decide_eq_false_iff_not]; omega
    obtain ⟨htake, hdrop⟩ := takeWhile_concat_of_neg h10 (selectBase 0 v).2
    simp only [strtol, hu', signed_concat_newline, selectBase_concat_newline, hv, htake, hdrop]
    by_cases hds : (selectBase 0 v).2.takeWhile (isDigit (selectBase 0 v).1) = []
    · simp only [if_pos hds]
    · simp only [if_neg hds]
      generalize (if (signed (s.dropWhile isSpace)).1 = true then _ else _ : Int) = value
      by_cases hmax : LONG_MAX < value
      · simp only [if_pos hmax]
      · by_cases hmin : value < LONG_MIN
        · simp only [if_neg hmax, if_pos hmin]
        · simp only [if_neg hmax, if_neg hmin]

theorem strsepTokens_concat {sep c : UInt8} (hc : c ≠ sep) (s : List UInt8) :
    ∃ tokens token, strsepTokens sep s = tokens ++ [token] ∧ strsepTokens sep (s ++ [c]) = tokens ++
      [token ++ [c]] := by
  induction s with
  | nil => exact ⟨[], [], rfl, by simp [strsepTokens, List.splitOn_cons_eq_if_modifyHead, hc]⟩
  | cons x s ih =>
    obtain ⟨tokens, token, h1, h2⟩ := ih
    rw [strsepTokens] at h1 h2
    simp only [strsepTokens, List.cons_append, List.splitOn_cons_eq_if_modifyHead, h1, h2]
    by_cases hx : (x == sep) = true
    · exact ⟨[] :: tokens, token, by simp [hx], by simp [hx]⟩
    · cases tokens with
      | nil => exact ⟨[], x :: token, by simp [hx], by simp [hx]⟩
      | cons t tokens => exact ⟨(x :: t) :: tokens, token, by simp [hx], by simp [hx]⟩

theorem mem_strsepTokens_iff {sep c : UInt8} (hc : c ≠ sep) (s : List UInt8) :
    (∃ t ∈ strsepTokens sep s, c ∈ t) ↔ c ∈ s := by
  rw [strsepTokens]
  induction s with
  | nil => simp
  | cons x s ih =>
    rw [List.splitOn_cons_eq_if_modifyHead]
    obtain ⟨token, tokens, hs⟩ := List.exists_cons_of_ne_nil (List.splitOn_ne_nil sep s)
    rw [hs] at ih ⊢
    by_cases hx : x = sep
    · subst hx
      simpa [hc] using ih
    · simp [hx, ← ih]
      tauto

/-! ### The characters of a number -/

theorem mem_dropWhile_of_neg {p : UInt8 → Bool} {c : UInt8} (hc : p c = false) {s : List UInt8}
    (h : c ∈ s) : c ∈ s.dropWhile p := by
  have hmem : c ∈ s.takeWhile p ++ s.dropWhile p := by rwa [List.takeWhile_append_dropWhile]
  rcases List.mem_append.1 hmem with ht | hd
  · rw [List.mem_takeWhile_imp ht] at hc; cases hc
  · exact hd

theorem nul_mem_signed {s : List UInt8} (h : 0 ∈ s) : 0 ∈ (signed s).2 := by
  unfold signed
  split
  · simpa using h
  · simpa using h
  · exact h

theorem nul_mem_selectBase {s : List UInt8} (h : 0 ∈ s) : 0 ∈ (selectBase 0 s).2 := by
  unfold selectBase
  rw [if_pos rfl]
  split
  · next x d s' =>
    split
    · next hx =>
      have : x ≠ 0 := by rcases hx.1 with rfl | rfl <;> decide
      simpa [this.symm] using h
    · exact h
  · exact h
  · exact h

/-- A number `strtol` reads to its end has no NUL in it. -/
theorem nul_notMem_of_strtol {s : List UInt8} (hr : (strtol 0 s).rest = []) : 0 ∉ s := by
  intro h
  have hdigits : ∀ w : List UInt8, 0 ∈ w → ∀ b ≤ 16, 0 ∈ w.dropWhile (isDigit b) := by
    intro w hw b hb
    refine mem_dropWhile_of_neg ?_ hw
    rw [isDigit, show digitValue 0 = 36 from rfl, decide_eq_false_iff_not]
    omega
  have h1 : 0 ∈ s.dropWhile isSpace := mem_dropWhile_of_neg (by decide) h
  have h2 :=
    hdigits _ (nul_mem_selectBase (nul_mem_signed h1)) _
      (selectBase_le (signed (s.dropWhile isSpace)).2)
  have hrest : 0 ∈ (strtol 0 s).rest := by
    simp only [strtol, apply_ite Strtol.rest, ite_self]
    split
    · exact h
    · exact h2
  rw [hr] at hrest
  cases hrest

theorem signed_suffix (s : List UInt8) : (signed s).2 <:+ s := by
  unfold signed
  split
  · exact List.suffix_cons _ _
  · exact List.suffix_cons _ _
  · exact List.suffix_refl _

theorem selectBase_suffix (s : List UInt8) : (selectBase 0 s).2 <:+ s := by
  unfold selectBase
  rw [if_pos rfl]
  split
  · split
    · exact ⟨[_, _], rfl⟩
    · exact List.suffix_refl _
  · exact List.suffix_refl _
  · exact List.suffix_refl _

theorem strtol_rest_suffix (s : List UInt8) : (strtol 0 s).rest <:+ s := by
  simp only [strtol, apply_ite Strtol.rest, ite_self]
  split
  · exact List.suffix_refl s
  · have hsign := (signed_suffix _).trans (List.dropWhile_suffix (l := s) isSpace)
    exact (List.dropWhile_suffix _).trans ((selectBase_suffix _).trans hsign)

end RecordStore
