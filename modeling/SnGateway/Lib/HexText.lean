import SnGateway.Lib.CText

/-!
# Hexadecimal texts

A byte as a C++ stream writes it in two upper-case digits (`zeroPaddedHex_byte`), and `sscanf` with
the conversions `%x` and `%c`. `sscanf_joined` says that bytes written with a separator between them
are read back.
-/

namespace RecordStore

def hexDigitChar (d : Nat) : UInt8 := UInt8.ofNat (if d < 10 then 48 + d else 55 + d)

/-- `std::hex << std::uppercase << n`. -/
def hexadecimal (n : Nat) : List UInt8 :=
  if n = 0 then [48] else (Nat.digits 16 n).reverse.map hexDigitChar

/-- The same with `std::setfill('0') << std::setw(w)`. -/
def zeroPaddedHex (w n : Nat) : List UInt8 :=
  List.replicate (w - (hexadecimal n).length) 48 ++ hexadecimal n

def ULONG_MAX : Nat := 2 ^ 64 - 1

/-- The text behind `0x`, if it starts so. -/
def skipHexPrefix : List UInt8 → List UInt8
  | 48 :: x :: s => if x = 120 ∨ x = 88 then s else 48 :: x :: s
  | s => s

/-- A number for `%x`, as an `unsigned long`, and the text behind it. -/
def scanHex (s : List UInt8) : Option (Nat × List UInt8) :=
  let (negative, s₁) := signed (s.dropWhile isSpace)
  let s₂ := skipHexPrefix s₁
  let ds := s₂.takeWhile (isDigit 16)
  if ds = [] then none
  else
    let v := digitsValue 16 ds
    some (if ULONG_MAX < v then ULONG_MAX
      else if negative then (ULONG_MAX + 1 - v) % (ULONG_MAX + 1)
      else v, s₂.dropWhile (isDigit 16))

/-- What a format consists of. -/
inductive Directive where
  | hex
  | char
  | literal (c : UInt8)

/-- The values `sscanf` assigns, in order. -/
def sscanf : List Directive → List UInt8 → List Nat
  | [], _ => []
  | .hex :: format, s =>
    match scanHex s with
    | none => []
    | some (v, s) => v :: sscanf format s
  | .char :: format, s =>
    match s with
    | [] => []
    | c :: s => c.toNat :: sscanf format s
  | .literal c :: format, s =>
    match s with
    | [] => []
    | d :: s => if d = c then sscanf format s else []

/-! ### Pairs of digits -/

/-- Two digits and the number they stand for. -/
def pairText (p : Nat × Nat) : List UInt8 := [hexDigitChar p.1, hexDigitChar p.2]

def pairValue (p : Nat × Nat) : Nat := 16 * p.1 + p.2

/-- The digits of a byte. -/
def bytePair (b : UInt8) : Nat × Nat := (b.toNat / 16, b.toNat % 16)

theorem pairValue_bytePair (b : UInt8) : pairValue (bytePair b) = b.toNat :=
  Nat.div_add_mod b.toNat 16

theorem bytePair_lt (b : UInt8) : (bytePair b).1 < 16 ∧ (bytePair b).2 < 16 :=
  ⟨Nat.div_lt_of_lt_mul b.toNat_lt, Nat.mod_lt _ (by decide)⟩

theorem bytePair_pairValue {p : Nat × Nat} (h : p.1 < 16 ∧ p.2 < 16) :
    bytePair (UInt8.ofNat (pairValue p)) = p := by
  have hbyte : pairValue p < UInt8.size := by
    show 16 * p.1 + p.2 < 256
    omega
  rw [bytePair, UInt8.toNat_ofNat_of_lt' hbyte, pairValue]
  exact Prod.ext (by dsimp only; omega) (by dsimp only; omega)

theorem hexDigitChar_facts :
    ∀ d < 16, digitValue (hexDigitChar d) = d ∧ isSpace (hexDigitChar d) = false ∧
    hexDigitChar d ≠ 45 ∧ hexDigitChar d ≠ 43 ∧ hexDigitChar d ≠ 120 ∧ hexDigitChar d ≠ 88 := by
  decide

theorem zeroPaddedHex_byte (b : UInt8) : zeroPaddedHex 2 b.toNat = pairText (bytePair b) := by
  have hlt := b.toNat_lt
  rw [zeroPaddedHex, hexadecimal, pairText, bytePair]
  by_cases hzero : b.toNat = 0
  · rw [if_pos hzero, hzero]
    rfl
  · rw [if_neg hzero]
    by_cases hsmall : b.toNat < 16
    · rw [Nat.digits_of_lt 16 _ hzero hsmall, Nat.div_eq_of_lt hsmall, Nat.mod_eq_of_lt hsmall]
      rfl
    · have hdiv : b.toNat / 16 ≠ 0 := by omega
      rw [Nat.digits_def' (by decide) (by omega), Nat.digits_of_lt 16 _ hdiv (by omega)]
      rfl

theorem skipHexPrefix_of_ne {b : UInt8} (hsmall : b ≠ 120) (hlarge : b ≠ 88) (a : UInt8)
    (rest : List UInt8) : skipHexPrefix (a :: b :: rest) = a :: b :: rest := by
  by_cases ha : a = 48
  · subst ha
    exact if_neg (by simp [hsmall, hlarge])
  · rw [skipHexPrefix]
    intro x s h
    exact ha (List.cons.inj h).1

theorem scanHex_pair {x y : Nat} (hx : x < 16) (hy : y < 16) (rest : List UInt8)
    (hrest : ∀ c ∈ rest.head?, isDigit 16 c = false) :
    scanHex (hexDigitChar x :: hexDigitChar y :: rest) = some (16 * x + y, rest) := by
  obtain ⟨hxv, hspace, hminus, hplus, -, -⟩ := hexDigitChar_facts x hx
  obtain ⟨hyv, -, -, -, hsmall, hlarge⟩ := hexDigitChar_facts y hy
  have hxd : isDigit 16 (hexDigitChar x) = true := decide_eq_true (by rw [hxv]; exact hx)
  have hyd : isDigit 16 (hexDigitChar y) = true := decide_eq_true (by rw [hyv]; exact hy)
  have htake : rest.takeWhile (isDigit 16) = [] := by
    cases rest with
    | nil => rfl
    | cons c rest => exact List.takeWhile_cons_of_neg (by simp [hrest c rfl])
  have hdrop : rest.dropWhile (isDigit 16) = rest := by
    cases rest with
    | nil => rfl
    | cons c rest => exact List.dropWhile_cons_of_neg (by simp [hrest c rfl])
  generalize hexDigitChar x = a at *
  generalize hexDigitChar y = b at *
  have hskip : (a :: b :: rest).dropWhile isSpace = a :: b :: rest :=
    List.dropWhile_cons_of_neg (by simp [hspace])
  have hsigned : signed (a :: b :: rest) = (false, a :: b :: rest) := by
    rw [signed]
    · intro s h
      exact hminus (List.cons.inj h).1
    · intro s h
      exact hplus (List.cons.inj h).1
  have hds : (a :: b :: rest).takeWhile (isDigit 16) = [a, b] := by
    rw [List.takeWhile_cons_of_pos hxd, List.takeWhile_cons_of_pos hyd, htake]
  have hbehind : (a :: b :: rest).dropWhile (isDigit 16) = rest := by
    rw [List.dropWhile_cons_of_pos hxd, List.dropWhile_cons_of_pos hyd, hdrop]
  have hvalue : digitsValue 16 [a, b] = 16 * x + y := by
    simp only [digitsValue, List.foldl_cons, List.foldl_nil, hxv, hyv]
    omega
  rw [scanHex, hskip, hsigned]
  dsimp only
  rw [skipHexPrefix_of_ne hsmall hlarge, hds, hbehind, hvalue, if_neg (List.cons_ne_nil _ _),
    if_neg, if_neg (by decide)]
  rw [ULONG_MAX]
  omega

/-! ### Bytes with a separator -/

/-- `%x` so many times, with a separator between them, and a `%c` behind. -/
def separated (c : UInt8) : Nat → List Directive
  | 0 => [.char]
  | 1 => [.hex, .char]
  | n + 2 => .hex :: .literal c :: separated c (n + 1)

theorem sscanf_joined {c : UInt8} (hc : isDigit 16 c = false) {pairs : List (Nat × Nat)}
    (hp : ∀ p ∈ pairs, p.1 < 16 ∧ p.2 < 16) :
    sscanf (separated c pairs.length) ([c].intercalate (pairs.map pairText)) =
      pairs.map pairValue := by
  induction pairs with
  | nil => rfl
  | cons p pairs ih =>
    obtain ⟨⟨hx, hy⟩, hpairs⟩ := List.forall_mem_cons.1 hp
    cases pairs with
    | nil =>
      have hscan := scanHex_pair hx hy [] (by simp)
      rw [List.map_singleton, List.intercalate_singleton, pairText, List.length_singleton,
        separated, sscanf, hscan]
      rfl
    | cons q pairs =>
      have ih := ih hpairs
      obtain ⟨text, htext⟩ : ∃ text, [c].intercalate ((q :: pairs).map pairText) = text := ⟨_, rfl⟩
      rw [htext] at ih
      have hscan := scanHex_pair hx hy (c :: text) (by simpa using hc)
      have hjoin : [c].intercalate ((p :: q :: pairs).map pairText) = hexDigitChar p.1 ::
          hexDigitChar p.2 :: c :: text := by
        rw [List.map_cons, List.map_cons, List.intercalate_cons_cons, ← List.map_cons, htext]
        rfl
      rw [hjoin, List.length_cons, List.length_cons, separated, sscanf, hscan]
      dsimp only
      rw [sscanf, if_pos rfl, ← List.length_cons, ih]
      rfl

theorem length_joined (c : UInt8) {pairs : List (Nat × Nat)} (h : pairs ≠ []) :
    ([c].intercalate (pairs.map pairText)).length + 1 = 3 * pairs.length := by
  induction pairs with
  | nil => exact absurd rfl h
  | cons p pairs ih =>
    cases pairs with
    | nil => rfl
    | cons q pairs =>
      have ih := ih (List.cons_ne_nil _ _)
      rw [List.map_cons, List.map_cons, List.intercalate_cons_cons, ← List.map_cons,
        List.length_append,
        List.length_append, List.length_cons (a := p)]
      have hpair : (pairText p).length + [c].length = 3 := rfl
      omega

theorem nul_notMem_joined {c : UInt8} (hc : c ≠ 0) {pairs : List (Nat × Nat)}
    (hp : ∀ p ∈ pairs, p.1 < 16 ∧ p.2 < 16) : 0 ∉ [c].intercalate (pairs.map pairText) := by
  have hdigit : ∀ d < 16, hexDigitChar d ≠ 0 := by decide
  have hpair (p : Nat × Nat) (h : p.1 < 16 ∧ p.2 < 16) : 0 ∉ pairText p := by
    simp [pairText, (hdigit p.1 h.1).symm, (hdigit p.2 h.2).symm]
  induction pairs with
  | nil => exact List.not_mem_nil
  | cons p pairs ih =>
    obtain ⟨hfirst, hpairs⟩ := List.forall_mem_cons.1 hp
    cases pairs with
    | nil => simpa using hpair p hfirst
    | cons q pairs =>
      rw [List.map_cons, List.map_cons, List.intercalate_cons_cons, ← List.map_cons]
      simp only [List.mem_append, List.mem_singleton, not_or]
      exact ⟨⟨hpair p hfirst, hc.symm⟩, ih hpairs⟩

end RecordStore
