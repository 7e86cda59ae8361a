import Mathlib.Data.List.Basic
import Mathlib.Data.List.Induction
import Mathlib.Data.List.TakeDrop
import Mathlib.Data.List.TakeWhile
import Mathlib.Tactic.Ring

/-!
# Byte records with fields

`overwrite l pos v` is what a seek to `pos` and a write of `v` leave of the bytes `l`. A `Record n`
is a block of exactly `n` bytes, the memory of a C struct; its fields are read with `get` and
written with `putAt`, and two accesses that do not overlap do not see each other
(`Record.get_putAt_of_disjoint`). Numbers are stored little-endian (`leBytes`, `leVal`), texts as
C strings (`cstr`: everything before the first NUL).
-/

namespace RecordStore

/-- The bytes of `l` after writing `v` at position `pos`; a gap behind the end is filled
with NULs. -/
def overwrite (l : List UInt8) (pos : Nat) (v : List UInt8) : List UInt8 :=
  l.take pos ++ List.replicate (pos - l.length) 0 ++ v ++ l.drop (pos + v.length)

theorem length_overwrite (l : List UInt8) (pos : Nat) (v : List UInt8) :
    (overwrite l pos v).length = max l.length (pos + v.length) := by
  simp [overwrite]
  omega

theorem getElem?_overwrite_of_lt {l v : List UInt8} {pos i : Nat} (hi : i < pos)
    (hl : i < l.length) : (overwrite l pos v)[i]? = l[i]? := by
  rw [overwrite, List.append_assoc, List.append_assoc, List.getElem?_append_left (by simp; omega),
    List.getElem?_take_of_lt hi]

theorem getElem?_overwrite_of_ge {l v : List UInt8} {pos i : Nat} (hi : pos + v.length ≤ i) :
    (overwrite l pos v)[i]? = l[i]? := by
  rw [overwrite, List.getElem?_append_right (by simp; omega), List.getElem?_drop]
  simp only [List.length_append, List.length_take, List.length_replicate]
  congr 1; omega

theorem drop_overwrite {l v : List UInt8} {pos k : Nat} (h : pos + v.length ≤ k) :
    (overwrite l pos v).drop k = l.drop k := by
  apply List.ext_getElem?
  intro i
  rw [List.getElem?_drop, List.getElem?_drop, getElem?_overwrite_of_ge (by omega)]

theorem getElem?_overwrite_mid {l v : List UInt8} {pos i : Nat} (h1 : pos ≤ i)
    (h2 : i < pos + v.length) : (overwrite l pos v)[i]? = v[i - pos]? := by
  rw [overwrite, List.getElem?_append_left (by simp; omega),
    List.getElem?_append_right (by simp; omega)]
  simp only [List.length_append, List.length_take, List.length_replicate]
  congr 1; omega

theorem overwrite_eq_self_iff {l v : List UInt8} {pos : Nat} (hv : v ≠ []) :
    overwrite l pos v = l ↔ (l.drop pos).take v.length = v := by
  have hpos : 0 < v.length := List.length_pos_iff.2 hv
  by_cases h : pos + v.length ≤ l.length
  swap
  · -- the write would make the list longer, and the list has too few bytes at `pos`
    constructor
    · intro he
      have := congrArg List.length he
      rw [length_overwrite] at this
      omega
    · intro he
      have := congrArg List.length he
      rw [List.length_take, List.length_drop] at this
      omega
  have hgap : pos - l.length = 0 := by omega
  have hsplit : l = l.take pos ++ ((l.drop pos).take v.length ++ l.drop (pos + v.length)) := by
    rw [← List.drop_drop, List.take_append_drop, List.take_append_drop]
  rw [overwrite, hgap, List.replicate_zero, List.append_nil, List.append_assoc]
  constructor
  · intro he
    nth_rewrite 3 [hsplit] at he
    exact (List.append_inj_left (List.append_cancel_left he) (by simp; omega)).symm
  · intro hv
    nth_rewrite 3 [hsplit]
    rw [hv]

theorem getElem?_overwrite_front (l v : List UInt8) (i : Nat) :
    (overwrite l 0 v)[i]? = v[i]?.or l[i]? := by
  by_cases h : i < v.length
  · rw [getElem?_overwrite_mid (Nat.zero_le i) (by omega), Nat.sub_zero, List.getElem?_eq_getElem h,
      Option.some_or]
  · rw [getElem?_overwrite_of_ge (by omega), List.getElem?_eq_none (show v.length ≤ i by omega),
      Option.none_or]

/-- The texts `vs` written one after the other to the front of a buffer. -/
def overlay (l : List UInt8) (vs : List (List UInt8)) : List UInt8 :=
  vs.foldl (fun l v => overwrite l 0 v) l

/-- At every position stands what the last text that reaches it has there. -/
theorem getElem?_overlay (l : List UInt8) (vs : List (List UInt8)) (i : Nat) :
    (overlay l vs)[i]? = (vs.filterMap fun v => v[i]?).getLast?.or l[i]? := by
  induction vs using List.reverseRecOn with
  | nil => rfl
  | append_singleton vs v ih =>
    have hlast : overlay l (vs ++ [v]) = overwrite (overlay l vs) 0 v := List.foldl_concat _ _ _ _
    rw [hlast, getElem?_overwrite_front, ih, List.filterMap_append, List.getLast?_append,
      ← Option.or_assoc]
    cases h : v[i]? <;> simp [h]

theorem mem_overlay {l : List UInt8} {vs : List (List UInt8)} {ch : UInt8} (h : ch ∈ overlay l vs) :
    ch ∈ l ∨ ∃ v ∈ vs, ch ∈ v := by
  induction vs generalizing l with
  | nil => exact .inl h
  | cons v vs ih =>
    rcases ih h with h | ⟨w, hw, h⟩
    · obtain ⟨i, hi⟩ := List.getElem?_of_mem h
      rw [getElem?_overwrite_front, Option.or_eq_some_iff] at hi
      rcases hi with hi | ⟨-, hi⟩
      · exact .inr ⟨v, List.mem_cons_self, List.mem_of_getElem? hi⟩
      · exact .inl (List.mem_of_getElem? hi)
    · exact .inr ⟨w, List.mem_cons_of_mem v hw, h⟩

theorem length_overlay_le {l : List UInt8} {vs : List (List UInt8)} {n : Nat} (hl : l.length ≤ n)
    (hvs : ∀ v ∈ vs, v.length ≤ n) : (overlay l vs).length ≤ n := by
  induction vs generalizing l with
  | nil => exact hl
  | cons v vs ih =>
    obtain ⟨hv, hvs⟩ := List.forall_mem_cons.1 hvs
    exact ih (by rw [length_overwrite]; omega) hvs

/-- On a cleared buffer the texts are followed by the zeros they leave. -/
theorem overlay_replicate_zero {vs : List (List UInt8)} {n : Nat} (hvs : ∀ v ∈ vs, v.length ≤ n) :
    overlay (List.replicate n 0) vs = overlay [] vs ++
      List.replicate (n - (overlay [] vs).length) 0 := by
  have hlen := length_overlay_le (l := []) (Nat.zero_le n) hvs
  refine List.ext_getElem? fun i => ?_
  have hfront : (overlay [] vs)[i]? = (vs.filterMap fun v => v[i]?).getLast? := by
    rw [getElem?_overlay, List.getElem?_nil, Option.or_none]
  rw [getElem?_overlay, ← hfront, List.getElem?_append]
  split
  · next hi => rw [List.getElem?_eq_getElem hi, Option.some_or]
  · next hi =>
    rw [List.getElem?_eq_none (by omega), Option.none_or, List.getElem?_replicate,
      List.getElem?_replicate]
    exact if_congr (by omega) rfl rfl

/-! ### Numbers and texts -/

/-- The `w` little-endian bytes of `n`. -/
def leBytes : Nat → Nat → List UInt8
  | 0, _ => []
  | w + 1, n => UInt8.ofNat n :: leBytes w (n / 256)

/-- The number that little-endian bytes stand for. -/
def leVal : List UInt8 → Nat
  | [] => 0
  | b :: bs => b.toNat + 256 * leVal bs

@[simp] theorem length_leBytes (w n : Nat) : (leBytes w n).length = w := by
  induction w generalizing n with
  | zero => rfl
  | succ w ih => simp [leBytes, ih]

theorem leVal_leBytes (w n : Nat) : leVal (leBytes w n) = n % 256 ^ w := by
  induction w generalizing n with
  | zero => simp [leBytes, leVal, Nat.mod_one]
  | succ w ih =>
    rw [leBytes, leVal, ih, pow_succ', Nat.mod_mul]
    simp

theorem leVal_replicate_zero (w : Nat) : leVal (List.replicate w 0) = 0 := by
  induction w with
  | zero => rfl
  | succ w ih => simp [List.replicate_succ, leVal, ih]

/-- A C string: the bytes before the first NUL. -/
def cstr (b : List UInt8) : List UInt8 := b.takeWhile (· ≠ 0)

theorem zero_notMem_cstr (b : List UInt8) : 0 ∉ cstr b := by
  intro h
  have := List.mem_takeWhile_imp h
  simp at this

theorem cstr_append_zero {s : List UInt8} (hs : 0 ∉ s) (rest : List UInt8) :
    cstr (s ++ 0 :: rest) = s := by
  induction s with
  | nil => simp [cstr]
  | cons a s ih =>
    have ha : a ≠ 0 := fun h => hs (by simp [h])
    have := ih fun h => hs (List.mem_cons_of_mem _ h)
    simp only [cstr, List.cons_append, List.takeWhile_cons, decide_not] at this ⊢
    simp [ha, this]

theorem cstr_eq_self {s : List UInt8} (hs : 0 ∉ s) : cstr s = s := by
  rw [cstr, List.takeWhile_eq_self_iff]
  intro x hx
  have : x ≠ 0 := fun h => hs (h ▸ hx)
  simpa using this

theorem cstr_append_replicate_zero {s : List UInt8} (hs : 0 ∉ s) (k : Nat) :
    cstr (s ++ List.replicate k 0) = s := by
  cases k with
  | zero => rw [List.replicate_zero, List.append_nil]; exact cstr_eq_self hs
  | succ k => exact cstr_append_zero hs _

@[simp] theorem cstr_replicate_zero (k : Nat) : cstr (List.replicate k 0) = [] := by
  cases k with
  | zero => rfl
  | succ k => exact cstr_append_zero List.not_mem_nil _

theorem cstr_append (s t : List UInt8) :
    cstr (s ++ t) = cstr s ∨ cstr s = s ∧ cstr (s ++ t) = s ++ cstr t := by
  rw [cstr, cstr, List.takeWhile_append]
  split
  · next h => exact .inr ⟨(List.takeWhile_prefix _).eq_of_length h, rfl⟩
  · exact .inl rfl

/-! ### Records -/

/-- The memory of a struct of `n` bytes. -/
@[ext] structure Record (n : Nat) where
  bytes : List UInt8
  size_eq : bytes.length = n
deriving DecidableEq

/-- A field of a record: its offset and its length. -/
structure Field where
  off : Nat
  len : Nat

def Field.Disjoint (f g : Field) : Prop := f.off + f.len ≤ g.off ∨ g.off + g.len ≤ f.off

instance (f g : Field) : Decidable (f.Disjoint g) := inferInstanceAs (Decidable (_ ∨ _))

namespace Record
variable {n : Nat}

/-- All bytes NUL, as `memset(_, 0, n)` leaves it. -/
def zero (n : Nat) : Record n := ⟨List.replicate n 0, by simp⟩

/-- A zeroed record into which the bytes `b` have been read. -/
def fill (n : Nat) (b : List UInt8) : Record n :=
  ⟨(b ++ List.replicate n 0).take n, by simp⟩

def get (r : Record n) (f : Field) : List UInt8 := (r.bytes.drop f.off).take f.len

/-- The record after copying `v` to offset `off`; what would land behind the record is cut off. -/
def putAt (r : Record n) (off : Nat) (v : List UInt8) : Record n :=
  ⟨(overwrite r.bytes off v).take n, by rw [List.length_take, length_overwrite, r.size_eq]; omega⟩

def getNat (r : Record n) (f : Field) : Nat := leVal (r.get f)

def putNat (r : Record n) (f : Field) (x : Nat) : Record n := r.putAt f.off (leBytes f.len x)

/-- The text in a field (`strlen` and `strcmp` of a field look no further than this, as long as a
terminator lies in the field). -/
def text (r : Record n) (f : Field) : List UInt8 := cstr (r.get f)

/-- `strcpy` to a field: the text and its terminator. -/
def strcpy (r : Record n) (f : Field) (s : List UInt8) : Record n := r.putAt f.off (s ++ [0])

theorem fill_bytes (r : Record n) : fill n r.bytes = r := by
  apply Record.ext
  show (r.bytes ++ _).take n = r.bytes
  rw [List.take_append_of_le_length (by rw [r.size_eq]), List.take_of_length_le (by rw [r.size_eq])]

@[simp] theorem fill_nil : fill n [] = zero n := by
  apply Record.ext
  simp [fill, zero]

theorem getElem?_putAt {r : Record n} {off i : Nat} {v : List UInt8} (hi : i < n) :
    (r.putAt off v).bytes[i]? = if off ≤ i ∧ i < off + v.length then v[i - off]?
      else r.bytes[i]? := by
  show ((overwrite r.bytes off v).take n)[i]? = _
  rw [List.getElem?_take_of_lt hi]
  have hl : i < r.bytes.length := by rw [r.size_eq]; exact hi
  split
  · next h => exact getElem?_overwrite_mid h.1 h.2
  · next h =>
    by_cases h1 : i < off
    · exact getElem?_overwrite_of_lt h1 hl
    · exact getElem?_overwrite_of_ge (by omega)

theorem getElem?_get (r : Record n) (f : Field) (i : Nat) :
    (r.get f)[i]? = if i < f.len then r.bytes[f.off + i]? else none := by
  rw [get, List.getElem?_take]
  split <;> simp [*]

theorem length_get (r : Record n) (f : Field) (h : f.off + f.len ≤ n) :
    (r.get f).length = f.len := by
  rw [get, List.length_take, List.length_drop, r.size_eq]
  omega

/-- Two accesses that do not overlap do not see each other. -/
theorem get_putAt_of_disjoint {r : Record n} {f : Field} {off : Nat} {v : List UInt8}
    (h : f.off + f.len ≤ off ∨ off + v.length ≤ f.off) : (r.putAt off v).get f = r.get f := by
  apply List.ext_getElem?
  intro i
  rw [getElem?_get, getElem?_get]
  split
  · next hi =>
    by_cases hn : f.off + i < n
    · rw [getElem?_putAt hn, if_neg (by omega)]
    · rw [List.getElem?_eq_none (by rw [(r.putAt off v).size_eq]; omega),
        List.getElem?_eq_none (by rw [r.size_eq]; omega)]
  · rfl

theorem get_putAt {r : Record n} {f : Field} (v : List UInt8) (hf : f.off + f.len ≤ n) :
    (r.putAt f.off v).get f = v.take f.len ++ (r.get f).drop v.length := by
  apply List.ext_getElem?
  intro i
  rw [getElem?_get]
  split
  · next hi =>
    rw [getElem?_putAt (by omega)]
    split
    · next h =>
      rw [List.getElem?_append_left (by rw [List.length_take]; omega), List.getElem?_take_of_lt hi]
      congr 1; omega
    · next h =>
      rw [List.getElem?_append_right (by rw [List.length_take]; omega), List.getElem?_drop,
        getElem?_get,
        List.length_take, if_pos (by omega)]
      congr 1; omega
  · next hi =>
    rw [List.getElem?_eq_none]
    rw [List.length_append, List.length_take, List.length_drop, length_get r f hf]; omega

theorem get_putAt_front {r : Record n} {f : Field} {v : List UInt8} (hv : v.length ≤ f.len)
    (hf : f.off + f.len ≤ n) : (r.putAt f.off v).get f = v ++ (r.get f).drop v.length := by
  rw [get_putAt v hf, List.take_of_length_le hv]

theorem get_putAt_self {r : Record n} {f : Field} {v : List UInt8} (hv : v.length = f.len)
    (hf : f.off + f.len ≤ n) : (r.putAt f.off v).get f = v := by
  rw [get_putAt_front (by omega) hf, List.drop_of_length_le (by rw [length_get r f hf]; omega),
    List.append_nil]

/-- A field that is cleared and then filled from the front holds the new bytes and NULs. -/
theorem get_putAt_cleared {r : Record n} {f : Field} {v : List UInt8} (hv : v.length ≤ f.len)
    (hf : f.off + f.len ≤ n) :
    ((r.putAt f.off (List.replicate f.len 0)).putAt f.off v).get f = v ++
      List.replicate (f.len - v.length) 0 := by
  rw [get_putAt_front hv hf, get_putAt_self (List.length_replicate ..) hf, List.drop_replicate]

/-- Records are equal when fields that cover them are. -/
theorem ext_fields {r r' : Record n} (fs : List Field)
    (hcover : ∀ i < n, ∃ f ∈ fs, f.off ≤ i ∧ i < f.off + f.len) (h : ∀ f ∈ fs, r.get f = r'.get f) :
    r = r' := by
  apply Record.ext
  apply List.ext_getElem?
  intro i
  by_cases hi : i < n
  · obtain ⟨f, hf, hle, hlt⟩ := hcover i hi
    have hget := congrArg (fun l => l[i - f.off]?) (h f hf)
    simp only [getElem?_get] at hget
    rwa [if_pos (by omega), if_pos (by omega), Nat.add_sub_cancel' hle] at hget
  · rw [List.getElem?_eq_none (by rw [r.size_eq]; omega),
      List.getElem?_eq_none (by rw [r'.size_eq]; omega)]

theorem get_putNat_self {r : Record n} {f : Field} (x : Nat) (hf : f.off + f.len ≤ n) :
    (r.putNat f x).get f = leBytes f.len x := get_putAt_self (by simp) hf

theorem get_putNat_of_disjoint {r : Record n} {f g : Field} {x : Nat} (h : f.Disjoint g) :
    (r.putNat g x).get f = r.get f :=
  get_putAt_of_disjoint (by rw [length_leBytes]; exact h)

theorem getNat_putNat_of_disjoint {r : Record n} {f g : Field} {x : Nat} (h : f.Disjoint g) :
    (r.putNat g x).getNat f = r.getNat f := by
  rw [getNat, get_putNat_of_disjoint h, getNat]

theorem text_putNat_of_disjoint {r : Record n} {f g : Field} {x : Nat} (h : f.Disjoint g) :
    (r.putNat g x).text f = r.text f := by
  rw [text, get_putNat_of_disjoint h, text]

theorem get_putAt_of_field_disjoint {r : Record n} {f g : Field} {v : List UInt8} (h : f.Disjoint g)
    (hv : v.length ≤ g.len) : (r.putAt g.off v).get f = r.get f :=
  get_putAt_of_disjoint (by rcases h with h | h; exacts [.inl h, .inr (by omega)])

theorem getNat_putNat_self {r : Record n} {f : Field} (x : Nat) (hf : f.off + f.len ≤ n) :
    (r.putNat f x).getNat f = x % 256 ^ f.len := by
  rw [getNat, putNat, get_putAt_self (by simp) hf, leVal_leBytes]

theorem getNat_lt (r : Record n) (f : Field) (hf : f.off + f.len ≤ n) :
    r.getNat f < 256 ^ f.len := by
  have key : ∀ l : List UInt8, leVal l < 256 ^ l.length := by
    intro l
    induction l with
    | nil => simp [leVal]
    | cons b l ih =>
      have := b.toNat_lt
      simp only [leVal, List.length_cons, pow_succ]
      omega
  have := key (r.get f)
  rwa [length_get r f hf] at this

/-- A text that fills its field has no terminator in it, and is still read back. -/
theorem text_strcpy_le {r : Record n} {f : Field} {s : List UInt8} (hs : 0 ∉ s)
    (hlen : s.length ≤ f.len) (hf : f.off + f.len ≤ n) : (r.strcpy f s).text f = s := by
  rw [text, strcpy, get_putAt _ hf]
  by_cases hfull : s.length = f.len
  · rw [List.take_append_of_le_length hfull.ge, List.take_of_length_le hfull.le,
      List.drop_of_length_le (by rw [length_get r f hf]; simp; omega), List.append_nil]
    exact cstr_eq_self hs
  · rw [List.take_of_length_le (by simp; omega), List.append_assoc, List.singleton_append]
    exact cstr_append_zero hs _

theorem text_strcpy_self {r : Record n} {f : Field} {s : List UInt8} (hs : 0 ∉ s)
    (hlen : s.length < f.len) (hf : f.off + f.len ≤ n) : (r.strcpy f s).text f = s :=
  text_strcpy_le hs hlen.le hf

@[simp] theorem get_zero (f : Field) (h : f.off + f.len ≤ n) :
    (zero n).get f = List.replicate f.len 0 := by
  simp only [get, zero, List.drop_replicate, List.take_replicate]
  congr 1; omega

theorem getNat_zero (f : Field) (h : f.off + f.len ≤ n) : (zero n).getNat f = 0 := by
  rw [getNat, get_zero f h, leVal_replicate_zero]

theorem text_zero (f : Field) (h : f.off + f.len ≤ n) : (zero n).text f = [] := by
  rw [text, get_zero f h, cstr_replicate_zero]

end Record

end RecordStore
