import SnGateway.Lib.Record
import SnGateway.Lib.SlotTable

/-!
# Files of fixed-size records

A file that holds the records `rs` has the bytes `encode rs`; writing a record at `i * n` replaces
record `i` or appends one (`overwrite_encode_place`).

`reads n c` lists what a loop `do { memset; read; … } while (readChars > 0)` sees of a file with
contents `c`: the number of bytes of each read and the buffer after it, the last read being the one
that returns `0`. A `Scanner` is such a loop that looks for a record, remembers the last free slot
on its way and counts the records it passes; `Scanner.scan_encode` says what it finds in a file of
whole records.
-/

namespace RecordStore

variable {n : Nat}

def encode (rs : List (Record n)) : List UInt8 := rs.flatMap Record.bytes

@[simp] theorem encode_nil : encode ([] : List (Record n)) = [] := rfl

theorem encode_cons (r : Record n) (rs : List (Record n)) :
    encode (r :: rs) = r.bytes ++ encode rs := rfl

theorem encode_append (as bs : List (Record n)) : encode (as ++ bs) = encode as ++ encode bs := by
  simp [encode]

@[simp] theorem length_encode (rs : List (Record n)) : (encode rs).length = rs.length * n := by
  induction rs with
  | nil => simp
  | cons r rs ih => rw [encode_cons, List.length_append, ih, r.size_eq, List.length_cons]; ring

theorem drop_encode (rs : List (Record n)) (i : Nat) :
    (encode rs).drop (i * n) = encode (rs.drop i) := by
  induction i generalizing rs with
  | zero => simp
  | succ i ih =>
    cases rs with
    | nil => simp
    | cons r rs =>
      rw [encode_cons, List.drop_succ_cons, ← ih, List.drop_append, List.drop_of_length_le]
      · rw [r.size_eq, Nat.succ_mul, Nat.add_sub_cancel, List.nil_append]
      · rw [r.size_eq, Nat.succ_mul]; omega

theorem take_encode (rs : List (Record n)) (i : Nat) :
    (encode rs).take (i * n) = encode (rs.take i) := by
  induction i generalizing rs with
  | zero => simp
  | succ i ih =>
    cases rs with
    | nil => simp
    | cons r rs =>
      rw [encode_cons, List.take_succ_cons, encode_cons, ← ih, List.take_append,
        List.take_of_length_le]
      · rw [r.size_eq, Nat.succ_mul, Nat.add_sub_cancel]
      · rw [r.size_eq, Nat.succ_mul]; omega

theorem slice_encode (rs : List (Record n)) (i : Nat) :
    ((encode rs).drop (i * n)).take n = ((rs[i]?).map Record.bytes).getD [] := by
  rw [drop_encode]
  by_cases hi : i < rs.length
  · rw [List.drop_eq_getElem_cons hi, encode_cons, List.getElem?_eq_getElem hi, Option.map_some,
      Option.getD_some,
      List.take_append_of_le_length (by rw [Record.size_eq]),
      List.take_of_length_le (by rw [Record.size_eq])]
  · rw [List.drop_of_length_le (by omega), List.getElem?_eq_none (by omega)]
    simp

theorem overwrite_encode_set (rs : List (Record n)) (r : Record n) {i : Nat} (hi : i < rs.length) :
    overwrite (encode rs) (i * n) r.bytes = encode (rs.set i r) := by
  have hle : i * n ≤ rs.length * n := Nat.mul_le_mul_right n (by omega)
  rw [overwrite, length_encode, r.size_eq, take_encode, ← Nat.succ_mul, drop_encode,
    List.set_eq_take_append_cons_drop, if_pos hi, encode_append, encode_cons,
    Nat.sub_eq_zero_of_le hle]
  simp

theorem overwrite_encode_append (rs : List (Record n)) (r : Record n) :
    overwrite (encode rs) (rs.length * n) r.bytes = encode (rs ++ [r]) := by
  rw [overwrite, length_encode, List.take_of_length_le (by rw [length_encode]),
    List.drop_of_length_le (by rw [length_encode]; omega), encode_append, Nat.sub_self]
  simp [encode_cons]

theorem overwrite_encode_place (rs : List (Record n)) (r : Record n) {i : Nat}
    (hi : i ≤ rs.length) :
    overwrite (encode rs) (i * n) r.bytes = encode (SlotTable.place rs i r) := by
  rw [SlotTable.place]
  split
  · next h => exact overwrite_encode_set rs r h
  · next h =>
    obtain rfl : i = rs.length := by omega
    exact overwrite_encode_append rs r

/-! ### Reading a file record by record -/

def readsAux (n : Nat) : Nat → List UInt8 → List (Nat × Record n)
  | 0, _ => []
  | fuel + 1, c =>
    let got := c.take n
    (got.length, Record.fill n got) :: if got.length = 0 then [] else readsAux n fuel (c.drop n)

/-- The successive reads of `n` bytes of a file with contents `c`, up to the one that
returns `0`. -/
def reads (n : Nat) (c : List UInt8) : List (Nat × Record n) := readsAux n (c.length + 1) c

theorem readsAux_encode_append (hn : 0 < n) (rs : List (Record n)) (rest : List UInt8)
    (fuel : Nat) :
    readsAux n (rs.length + fuel) (encode rs ++ rest) = rs.map (fun r => (n, r)) ++
      readsAux n fuel rest := by
  induction rs with
  | nil => simp
  | cons r rs ih =>
    have htake : (encode (r :: rs) ++ rest).take n = r.bytes := by
      rw [encode_cons, List.append_assoc, List.take_append_of_le_length (by rw [r.size_eq]),
        List.take_of_length_le (by rw [r.size_eq])]
    have hdrop : (encode (r :: rs) ++ rest).drop n = encode rs ++ rest := by
      rw [encode_cons, List.append_assoc, List.drop_append_of_le_length (by rw [r.size_eq]),
        List.drop_of_length_le (by rw [r.size_eq]), List.nil_append]
    rw [List.length_cons, Nat.succ_add]
    simp only [readsAux, htake, hdrop, r.size_eq, Record.fill_bytes, List.map_cons,
      List.cons_append]
    rw [if_neg (by omega), ih]

/-- A rest that is too short for a record. -/
theorem readsAux_short (fuel : Nat) {rest : List UInt8} (h : rest.length < n) :
    ∀ r ∈ readsAux n fuel rest, r.1 ≠ n := by
  induction fuel generalizing rest with
  | zero => simp [readsAux]
  | succ fuel ih =>
    intro r hr
    rw [readsAux, List.mem_cons] at hr
    rcases hr with rfl | hr
    · show (rest.take n).length ≠ n
      rw [List.length_take]; omega
    · split at hr
      · cases hr
      · refine ih ?_ r hr
        rw [List.length_drop]; omega

/-- Every file is a sequence of whole records and a rest. -/
theorem exists_encode (hn : 0 < n) (c : List UInt8) :
    ∃ (rs : List (Record n)) (rest : List UInt8), rest.length < n ∧ c = encode rs ++ rest := by
  by_cases h : c.length < n
  · exact ⟨[], c, h, rfl⟩
  · obtain ⟨rs, rest, hrest, hc⟩ := exists_encode hn (c.drop n)
    refine ⟨⟨c.take n, by rw [List.length_take]; omega⟩ :: rs, rest, hrest, ?_⟩
    rw [encode_cons, List.append_assoc, ← hc, List.take_append_drop]
termination_by c.length
decreasing_by rw [List.length_drop]; omega

theorem reads_encode_append (hn : 0 < n) (rs : List (Record n)) {rest : List UInt8}
    (h : rest.length < n) :
    ∃ tail, reads n (encode rs ++ rest) = rs.map (fun r => (n, r)) ++ tail ∧ ∀ r ∈ tail,
      r.1 ≠ n := by
  have hle : rs.length ≤ rs.length * n := Nat.le_mul_of_pos_right _ hn
  obtain ⟨fuel, hfuel⟩ : ∃ fuel, (encode rs ++ rest).length + 1 = rs.length + fuel :=
    ⟨(encode rs ++ rest).length + 1 - rs.length, by rw [List.length_append, length_encode]; omega⟩
  exact ⟨readsAux n fuel rest, by rw [reads, hfuel, readsAux_encode_append hn],
    readsAux_short fuel h⟩

theorem reads_append_short (hn : 0 < n) (rs : List (Record n)) {rest : List UInt8}
    (h : rest.length < n) :
    reads n (encode rs ++ rest) = rs.map (fun r => (n, r)) ++
      ((if rest = [] then [] else [(rest.length, Record.fill n rest)]) ++
        [(0, Record.zero n)]) := by
  have hle : rs.length ≤ rs.length * n := Nat.le_mul_of_pos_right _ hn
  obtain ⟨fuel, hfuel⟩ : ∃ fuel, (encode rs ++ rest).length + 1 = rs.length +
    (rest.length + fuel + 1) :=
    ⟨rs.length * n - rs.length, by rw [List.length_append, length_encode]; omega⟩
  have htake : rest.take n = rest := List.take_of_length_le h.le
  have hdrop : rest.drop n = [] := List.drop_of_length_le h.le
  rw [reads, hfuel, readsAux_encode_append hn, readsAux, htake, hdrop]
  by_cases hrest : rest = []
  · subst hrest
    simp
  · have hlen : rest.length ≠ 0 := fun h0 => hrest (List.length_eq_zero_iff.1 h0)
    obtain ⟨fuel', hfuel'⟩ : ∃ fuel', rest.length + fuel = fuel' + 1 :=
      ⟨rest.length + fuel - 1, by omega⟩
    rw [if_neg hlen, if_neg hrest, hfuel', readsAux]
    simp

theorem reads_encode (hn : 0 < n) (rs : List (Record n)) :
    reads n (encode rs) = rs.map (fun r => (n, r)) ++ [(0, Record.zero n)] := by
  have h := reads_append_short hn rs (show ([] : List UInt8).length < n from hn)
  rw [List.append_nil, if_pos rfl, List.nil_append] at h
  exact h

def whole (n : Nat) (c : List UInt8) : List (Record n) :=
  ((reads n c).filter fun r => r.1 = n).map Prod.snd

theorem whole_encode_append (hn : 0 < n) (rs : List (Record n)) {rest : List UInt8}
    (h : rest.length < n) : whole n (encode rs ++ rest) = rs := by
  obtain ⟨tail, hreads, htail⟩ := reads_encode_append hn rs h
  rw [whole, hreads, List.filter_append, List.filter_map]
  have hnil : tail.filter (fun r => r.1 = n) = [] := List.filter_eq_nil_iff.2 (by simpa using htail)
  rw [hnil]
  simp [Function.comp_def]

theorem whole_encode (hn : 0 < n) (rs : List (Record n)) : whole n (encode rs) = rs := by
  have h := whole_encode_append hn rs (show ([] : List UInt8).length < n from hn)
  rwa [List.append_nil] at h

theorem length_whole_mul_le (hn : 0 < n) (c : List UInt8) : (whole n c).length * n ≤ c.length := by
  obtain ⟨rs, rest, hrest, rfl⟩ := exists_encode hn c
  rw [whole_encode_append hn rs hrest, List.length_append, length_encode]
  exact Nat.le_add_right _ _

/-- The whole records of a file by their positions. -/
theorem getElem?_whole (hn : 0 < n) {c : List UInt8} {i : Nat} {e : Record n} :
    (whole n c)[i]? = some e ↔ i * n + n ≤ c.length ∧ e.bytes = (c.drop (i * n)).take n := by
  obtain ⟨rs, rest, hrest, rfl⟩ := exists_encode hn c
  rw [whole_encode_append hn rs hrest]
  have hslice : ∀ {i}, i < rs.length → ((encode rs ++ rest).drop (i * n)).take n =
      ((rs[i]?).map Record.bytes).getD [] := by
    intro i hi
    have hle : i * n + n ≤ (encode rs).length := by
      rw [length_encode, ← Nat.succ_mul]
      exact Nat.mul_le_mul_right n hi
    rw [List.drop_append_of_le_length (by omega),
      List.take_append_of_le_length (by rw [List.length_drop]; omega),
      slice_encode]
  constructor
  · intro he
    have hi := (List.getElem?_eq_some_iff.1 he).1
    refine ⟨?_, by rw [hslice hi, he]; rfl⟩
    have hle := Nat.mul_le_mul_right n (Nat.succ_le_of_lt hi)
    rw [Nat.succ_mul] at hle
    rw [List.length_append, length_encode]; omega
  · rintro ⟨hle, he⟩
    have hi : i < rs.length := by
      by_contra hge
      have := Nat.mul_le_mul_right n (Nat.le_of_not_lt hge)
      rw [List.length_append, length_encode] at hle
      omega
    rw [hslice hi, List.getElem?_eq_getElem hi, Option.map_some, Option.getD_some] at he
    rw [List.getElem?_eq_getElem hi, Record.ext he]

/-- A field of a whole record by its position in the file. -/
theorem get_whole (hn : 0 < n) {c : List UInt8} {i : Nat} {e : Record n}
    (he : (whole n c)[i]? = some e) {f : Field} (hf : f.off + f.len ≤ n) :
    e.get f = (c.drop (i * n + f.off)).take f.len := by
  obtain ⟨-, hbytes⟩ := (getElem?_whole hn).1 he
  rw [Record.get, hbytes, List.drop_take, List.take_take, List.drop_drop]
  congr 1; omega

/-- Overwriting a whole record replaces it and no other. -/
theorem whole_overwrite (hn : 0 < n) {c : List UInt8} {i : Nat} (r : Record n)
    (hi : i < (whole n c).length) :
    whole n (overwrite c (i * n) r.bytes) = (whole n c).set i r := by
  obtain ⟨rs, rest, hrest, rfl⟩ := exists_encode hn c
  rw [whole_encode_append hn rs hrest] at hi ⊢
  have hle : i * n + n ≤ (encode rs).length := by
    rw [length_encode, ← Nat.succ_mul]
    exact Nat.mul_le_mul_right n hi
  have happend : overwrite (encode rs ++ rest) (i * n) r.bytes = overwrite (encode rs)
      (i * n) r.bytes ++ rest := by
    have hlen := r.size_eq
    rw [overwrite, overwrite, List.take_append_of_le_length (by omega),
      List.drop_append_of_le_length (by omega),
      List.length_append, Nat.sub_eq_zero_of_le (by omega), Nat.sub_eq_zero_of_le (by omega)]
    simp only [List.append_assoc]
  rw [happend, overwrite_encode_place rs r hi.le, SlotTable.place, if_pos hi,
    whole_encode_append hn _ hrest]

/-- Writing a record over a whole one, or at the end of a file of whole records. -/
theorem whole_overwrite_place (hn : 0 < n) {c : List UInt8} {i : Nat} (r : Record n)
    (hi : i < (whole n c).length ∨ i = (whole n c).length ∧ c.length % n = 0) :
    whole n (overwrite c (i * n) r.bytes) = SlotTable.place (whole n c) i r := by
  rcases hi with hi | ⟨rfl, hmod⟩
  · rw [whole_overwrite hn r hi, SlotTable.place, if_pos hi]
  · obtain ⟨rs, rest, hrest, rfl⟩ := exists_encode hn c
    have hnil : rest = [] := by
      rw [List.length_append, length_encode, Nat.mul_add_mod_of_lt hrest] at hmod
      exact List.length_eq_zero_iff.1 hmod
    subst hnil
    rw [List.append_nil, whole_encode hn, overwrite_encode_place rs r (le_refl _), whole_encode hn]

/-! ### Scanning for a record and a free slot -/

/-- The index of the last element satisfying `p`. -/
def lastIdx? {α : Type} (p : α → Bool) : List α → Option Nat
  | [] => none
  | a :: l =>
    match lastIdx? p l with
    | some i => some (i + 1)
    | none => if p a then some 0 else none

theorem lastIdx?_eq_none {α : Type} {p : α → Bool} {l : List α} :
    lastIdx? p l = none ↔ ∀ a ∈ l, p a = false := by
  induction l with
  | nil => simp [lastIdx?]
  | cons a l ih =>
    rw [lastIdx?]
    split
    · next i hi =>
      rw [hi] at ih
      simp only [reduceCtorEq, false_iff] at ih ⊢
      exact fun h => ih fun b hb => h b (List.mem_cons_of_mem _ hb)
    · next hi =>
      have := ih.1 hi
      cases hp : p a
      · simpa [hp] using this
      · simp [hp]

theorem lastIdx?_eq_some {α : Type} {p : α → Bool} {l : List α} {i : Nat}
    (h : lastIdx? p l = some i) :
    ∃ hi : i < l.length, p l[i] = true ∧ ∀ j (hj : j < l.length), i < j → p l[j] = false := by
  induction l generalizing i with
  | nil => simp [lastIdx?] at h
  | cons a l ih =>
    rw [lastIdx?] at h
    split at h
    · next k hk =>
      obtain ⟨hlt, hp, hlast⟩ := ih hk
      obtain rfl : k + 1 = i := by simpa using h
      refine ⟨by simpa using hlt, by simpa using hp, fun j hj hij => ?_⟩
      obtain ⟨j, rfl⟩ : ∃ j', j = j' + 1 := ⟨j - 1, by omega⟩
      simpa using hlast j (by simpa using hj) (by omega)
    · next hk =>
      split at h
      · next ha =>
        obtain rfl : 0 = i := by simpa using h
        refine ⟨by simp, by simpa using ha, fun j hj hij => ?_⟩
        obtain ⟨j, rfl⟩ : ∃ j', j = j' + 1 := ⟨j - 1, by omega⟩
        exact lastIdx?_eq_none.1 hk _ (by simp)
      · simp at h

theorem lastIdx?_slot {α : Type} (p : α → Bool) (l : List α) :
    ∃ k, (lastIdx? p l).getD l.length = k ∧ k ≤ l.length ∧ (∀ a, l[k]? = some a → p a = true) ∧
      (k = l.length → ∀ a ∈ l, p a = false) := by
  cases h : lastIdx? p l with
  | none =>
    refine ⟨l.length, rfl, le_refl _, fun a ha => ?_, fun _ => lastIdx?_eq_none.1 h⟩
    rw [List.getElem?_eq_none (le_refl _)] at ha; cases ha
  | some k =>
    obtain ⟨hk, hp, -⟩ := lastIdx?_eq_some h
    refine ⟨k, rfl, hk.le, fun a ha => ?_, fun hlen => ?_⟩
    · rw [List.getElem?_eq_getElem hk] at ha; cases ha; exact hp
    · rw [hlen] at hk; exact absurd hk (lt_irrefl _)

/-- A loop over the records of a file: `hole` recognises a free slot, `hit` the record looked for,
`counterMod` is the range of the loop's counter and `breakOnShort` tells whether a short read ends
the loop before its counter is increased. -/
structure Scanner (n : Nat) where
  hole : Record n → Bool
  hit : Record n → Bool
  breakOnShort : Bool
  counterMod : Nat

/-- How a `Scanner` ends: at a record, or with its counter, the last free slot and the buffer. -/
inductive ScanResult (n : Nat) where
  | found (counter : Nat) (entry : Record n)
  | exhausted (counter : Nat) (hole : Option Nat) (buffer : Record n)
deriving DecidableEq

namespace Scanner

variable (sc : Scanner n)

def scanFrom : Nat → Option Nat → List (Nat × Record n) → ScanResult n
  | counter, hole, [] => .exhausted counter hole (Record.zero n)
  | counter, hole, (got, entry) :: rest =>
    let next := (counter + 1) % sc.counterMod
    if got = n then
      if sc.hole entry then scanFrom next (some counter) rest
      else if sc.hit entry then .found counter entry
      else scanFrom next hole rest
    else if got ≠ 0 ∧ sc.breakOnShort then .exhausted counter hole entry
    else if got = 0 then .exhausted next hole entry
    else scanFrom next hole rest

def scan (c : List UInt8) : ScanResult n := sc.scanFrom 0 none (reads n c)

/-- Is `r` the record the loop stops at? -/
def stops (r : Record n) : Bool := !sc.hole r && sc.hit r

theorem scanFrom_short {c : Nat} (hole : Option Nat) {tail : List (Nat × Record n)}
    (h : ∀ r ∈ tail, r.1 ≠ n) : ∃ k b, sc.scanFrom c hole tail = .exhausted k hole b := by
  induction tail generalizing c with
  | nil => exact ⟨_, _, rfl⟩
  | cons r tail ih =>
    obtain ⟨got, e⟩ := r
    have hgot : got ≠ n := h (got, e) (List.mem_cons_self ..)
    simp only [scanFrom]
    rw [if_neg hgot]
    split
    · exact ⟨_, _, rfl⟩
    · split
      · exact ⟨_, _, rfl⟩
      · exact ih fun r hr => h r (List.mem_cons_of_mem _ hr)

theorem scanFrom_pass (rs : List (Record n)) (tail : List (Nat × Record n)) {c : Nat}
    (hole : Option Nat) (hc : c < sc.counterMod) (h : ∀ e ∈ rs, sc.stops e = false) :
    sc.scanFrom c hole (rs.map (fun r => (n, r)) ++ tail) =
      sc.scanFrom ((c + rs.length) % sc.counterMod)
        (((lastIdx? sc.hole rs).map fun k => (c + k) % sc.counterMod).or hole) tail := by
  induction rs generalizing c hole with
  | nil => simp [lastIdx?, Nat.mod_eq_of_lt hc]
  | cons r rs ih =>
    have hc' : (c + 1) % sc.counterMod < sc.counterMod := Nat.mod_lt _ (by omega)
    have hshift : ∀ k, ((c + 1) % sc.counterMod + k) % sc.counterMod =
        (c + (k + 1)) % sc.counterMod := by
      intro k
      rw [Nat.mod_add_mod]
      congr 1
      omega
    have hstep : sc.scanFrom c hole ((r :: rs).map (fun r => (n, r)) ++ tail) =
        sc.scanFrom ((c + 1) % sc.counterMod) (if sc.hole r then some c else hole)
          (rs.map (fun r => (n, r)) ++ tail) := by
      have hr := h r (List.mem_cons_self ..)
      by_cases hh : sc.hole r = true
      · simp [scanFrom, hh]
      · have hit : sc.hit r = false := by simpa [stops, hh] using hr
        simp [scanFrom, hh, hit]
    rw [hstep, ih _ hc' fun e he => h e (List.mem_cons_of_mem _ he), hshift, lastIdx?,
      List.length_cons]
    congr 1
    cases lastIdx? sc.hole rs with
    | some k => simp [hshift]
    | none => by_cases hh : sc.hole r = true <;> simp [hh, Nat.mod_eq_of_lt hc]

/-- What a loop makes of any file: it stops at the first whole record that satisfies `stops`, or it
knows the last free slot, as far as its counter can tell. -/
theorem scan_whole (hn : 0 < n) (hc : 0 < sc.counterMod) (l : List UInt8) :
    (∃ (i : Nat) (e : Record n), (whole n l)[i]? = some e ∧ sc.stops e = true ∧
        (∀ (j : Nat) (b : Record n), j < i → (whole n l)[j]? = some b → sc.stops b = false) ∧
        sc.scan l = .found (i % sc.counterMod) e) ∨
      ((∀ e ∈ whole n l, sc.stops e = false) ∧
        ∃ k b, sc.scan l = .exhausted k ((lastIdx? sc.hole (whole n l)).map fun i =>
          i % sc.counterMod) b) := by
  obtain ⟨rs, rest, hrest, rfl⟩ := exists_encode hn l
  obtain ⟨tail, hreads, htail⟩ := reads_encode_append hn rs hrest
  rw [scan, hreads, whole_encode_append hn rs hrest]
  by_cases hno : ∀ e ∈ rs, sc.stops e = false
  · obtain ⟨k, b, hk⟩ := sc.scanFrom_short (c := (0 + rs.length) % sc.counterMod)
      (((lastIdx? sc.hole rs).map fun k => (0 + k) % sc.counterMod).or none) htail
    refine .inr ⟨hno, k, b, ?_⟩
    rw [sc.scanFrom_pass rs tail none hc hno, hk]
    simp
  · -- split the records at the first one that stops the loop
    obtain ⟨i, hfind⟩ : ∃ i, rs.findIdx? sc.stops = some i := by
      cases hf : rs.findIdx? sc.stops with
      | some i => exact ⟨i, rfl⟩
      | none => exact absurd (fun e he => List.findIdx?_eq_none_iff.1 hf e he) hno
    obtain ⟨hi, hstop, hbefore⟩ := List.findIdx?_eq_some_iff_getElem.1 hfind
    have hfirst : ∀ (j : Nat) (b : Record n), j < i → rs[j]? = some b → sc.stops b = false := by
      intro j b hj hb
      obtain ⟨hjl, rfl⟩ := List.getElem?_eq_some_iff.1 hb
      simpa using hbefore j hj
    refine .inl ⟨i, rs[i], List.getElem?_eq_getElem hi, hstop, hfirst, ?_⟩
    have hsplit : rs.map (fun r => (n, r)) =
        (rs.take i).map (fun r => (n, r)) ++
          (n, rs[i]) :: (rs.drop (i + 1)).map fun r => (n, r) := by
      rw [← List.map_cons (f := fun r => (n, r)), ← List.map_append, List.getElem_cons_drop,
        List.take_append_drop]
    have hpass : ∀ e ∈ rs.take i, sc.stops e = false := by
      intro e he
      obtain ⟨j, hj⟩ := List.getElem?_of_mem he
      rw [List.getElem?_take] at hj
      split at hj
      · next hlt => exact hfirst j e hlt hj
      · cases hj
    have hlen : (rs.take i).length = i := by rw [List.length_take]; omega
    rw [stops, Bool.and_eq_true, Bool.not_eq_true'] at hstop
    rw [hsplit, List.append_assoc, sc.scanFrom_pass (rs.take i) _ none hc hpass, hlen,
      List.cons_append]
    simp [scanFrom, hstop.1, hstop.2]

/-- `scan_whole` with the position of the record. -/
theorem scan_findIdx? (hn : 0 < n) (hc : 0 < sc.counterMod) (l : List UInt8) :
    (∃ (i : Nat) (e : Record n), (whole n l).findIdx? sc.stops = some i ∧ (whole n l)[i]? = some e ∧
        sc.scan l = .found (i % sc.counterMod) e) ∨
      ((whole n l).findIdx? sc.stops = none ∧
        ∃ k b, sc.scan l = .exhausted k ((lastIdx? sc.hole (whole n l)).map fun i =>
          i % sc.counterMod) b) := by
  rcases sc.scan_whole hn hc l with ⟨i, e, hi, hstop, hfirst, hscan⟩ | ⟨hno, hscan⟩
  · refine .inl ⟨i, e, ?_, hi, hscan⟩
    obtain ⟨hlt, rfl⟩ := List.getElem?_eq_some_iff.1 hi
    refine List.findIdx?_eq_some_iff_getElem.2 ⟨hlt, hstop, fun j hj => Bool.not_eq_true _ ▸ ?_⟩
    exact hfirst j _ hj (List.getElem?_eq_getElem (Nat.lt_trans hj hlt))
  · exact .inr ⟨List.findIdx?_eq_none_iff.2 hno, hscan⟩

/-- `scan_whole` for loops that use the record only. -/
theorem scan_find? (hn : 0 < n) (hc : 0 < sc.counterMod) (l : List UInt8) :
    (∃ k e, (whole n l).find? sc.stops = some e ∧ sc.scan l = .found k e) ∨
      ((whole n l).find? sc.stops = none ∧ ∃ k hole b, sc.scan l = .exhausted k hole b) := by
  rcases sc.scan_whole hn hc l with ⟨i, e, hi, hstop, hfirst, hscan⟩ | ⟨hno, k, b, hscan⟩
  · refine .inl ⟨_, e, ?_, hscan⟩
    obtain ⟨hlt, rfl⟩ := List.getElem?_eq_some_iff.1 hi
    refine List.find?_eq_some_iff_getElem.2 ⟨hstop, i, hlt, rfl, fun j hj => ?_⟩
    rw [hfirst j _ hj (List.getElem?_eq_getElem (Nat.lt_trans hj hlt))]
    rfl
  · refine .inr ⟨List.find?_eq_none.2 fun e he => ?_, k, _, b, hscan⟩
    rw [hno e he]
    exact Bool.false_ne_true

/-- A loop that finds nothing in a file of whole records ends behind the last one and knows the last
free slot, as far as its counter can tell. -/
theorem scan_encode_mod (hn : 0 < n) (rs : List (Record n)) (hc : 0 < sc.counterMod)
    (h : ∀ e ∈ rs, sc.stops e = false) :
    sc.scan (encode rs) = .exhausted ((rs.length + 1) % sc.counterMod)
      ((lastIdx? sc.hole rs).map fun k => k % sc.counterMod) (Record.zero n) := by
  rw [scan, reads_encode hn, sc.scanFrom_pass rs _ none hc h]
  simp [scanFrom, Nat.ne_of_lt hn]

theorem scan_encode_pass (hn : 0 < n) (rs : List (Record n)) (hc : rs.length + 1 < sc.counterMod)
    (h : ∀ e ∈ rs, sc.stops e = false) :
    sc.scan (encode rs) = .exhausted (rs.length + 1) (lastIdx? sc.hole rs) (Record.zero n) := by
  have hlast : ((lastIdx? sc.hole rs).map fun k => k % sc.counterMod) = lastIdx? sc.hole rs := by
    cases hl : lastIdx? sc.hole rs with
    | none => rfl
    | some k =>
      obtain ⟨hk, -⟩ := lastIdx?_eq_some hl
      rw [Option.map_some, Nat.mod_eq_of_lt (by omega)]
  rw [sc.scan_encode_mod hn rs (by omega) h, hlast, Nat.mod_eq_of_lt hc]

/-- A scan of a file of whole records stops at the first record that satisfies `stops`, or it ends
behind the last one and knows the last free slot. -/
theorem scan_cases (hn : 0 < n) (rs : List (Record n)) (hc : rs.length + 1 < sc.counterMod) :
    (∃ (i : Nat) (e : Record n), rs[i]? = some e ∧ sc.stops e = true ∧
        (∀ (j : Nat) (b : Record n), j < i → rs[j]? = some b → sc.stops b = false) ∧
        sc.scan (encode rs) = .found i e) ∨
      ((∀ (j : Nat) (b : Record n), rs[j]? = some b → sc.stops b = false) ∧
        sc.scan (encode rs) =
          .exhausted (rs.length + 1) (lastIdx? sc.hole rs) (Record.zero n)) := by
  rcases sc.scan_whole hn (by omega) (encode rs) with ⟨i, e, hi, hstop, hfirst, hscan⟩ | ⟨hno, -⟩
  · rw [whole_encode hn] at hi hfirst
    have hlt := (List.getElem?_eq_some_iff.1 hi).1
    rw [Nat.mod_eq_of_lt (by omega)] at hscan
    exact .inl ⟨i, e, hi, hstop, hfirst, hscan⟩
  · rw [whole_encode hn] at hno
    exact .inr ⟨fun j b hb => hno b (List.mem_of_getElem? hb), sc.scan_encode_pass hn rs hc hno⟩

/-- A loop that stops at a short read finds records within the file only, whatever the
file holds. -/
theorem scanFrom_found_bound (hb : sc.breakOnShort = true) (fuel : Nat) {c k : Nat}
    {hole : Option Nat} {e : Record n} {l : List UInt8}
    (h : sc.scanFrom c hole (readsAux n fuel l) = .found k e) : k * n + n ≤ c * n + l.length := by
  induction fuel generalizing c hole l with
  | zero => simp [readsAux, scanFrom] at h
  | succ fuel ih =>
    simp only [readsAux, scanFrom] at h
    split at h
    · next hgot =>
      have hlen : n ≤ l.length := by rw [List.length_take] at hgot; omega
      have hnext : (c + 1) % sc.counterMod * n ≤ c * n + n := by
        rw [← Nat.succ_mul]
        exact Nat.mul_le_mul_right n (Nat.mod_le _ _)
      have hrest : ∀ {hole'}, sc.scanFrom ((c + 1) % sc.counterMod) hole'
          (if (l.take n).length = 0 then [] else readsAux n fuel (l.drop n)) = .found k e →
          k * n + n ≤ c * n + l.length := by
        intro hole' hr
        split at hr
        · simp [scanFrom] at hr
        · have := ih hr
          rw [List.length_drop] at this
          omega
      split at h
      · exact hrest h
      · split at h
        · cases h; omega
        · exact hrest h
    · next hgot =>
      by_cases h0 : (l.take n).length = 0
      · simp [h0] at h
      · rw [if_pos ⟨h0, hb⟩] at h; cases h

theorem scan_found_bound (hb : sc.breakOnShort = true) {k : Nat} {e : Record n} {l : List UInt8}
    (h : sc.scan l = .found k e) : k * n + n ≤ l.length := by
  simpa using sc.scanFrom_found_bound hb _ h

/-- A loop finds a record exactly when the file has one. -/
theorem scan_found_iff (hn : 0 < n) (hc : 0 < sc.counterMod) (l : List UInt8) :
    (∃ k e, sc.scan l = .found k e) ↔ ∃ r ∈ reads n l, r.1 = n ∧ sc.stops r.2 = true := by
  have hmem : ∀ e, e ∈ whole n l ↔ ∃ r ∈ reads n l, r.1 = n ∧ r.2 = e := by
    intro e
    simp [whole, and_assoc]
  rcases sc.scan_whole hn hc l with ⟨i, e, hi, hstop, -, hscan⟩ | ⟨hno, k, b, hscan⟩
  · obtain ⟨r, hr, hgot, rfl⟩ := (hmem e).1 (List.mem_of_getElem? hi)
    exact ⟨fun _ => ⟨r, hr, hgot, hstop⟩, fun _ => ⟨_, _, hscan⟩⟩
  · constructor
    · rintro ⟨k', e, hfound⟩; rw [hscan] at hfound; cases hfound
    · rintro ⟨r, hr, hgot, hstop⟩
      rw [hno r.2 ((hmem r.2).2 ⟨r, hr, hgot, rfl⟩)] at hstop; cases hstop

/-- A read of a whole free slot. -/
def free (r : Nat × Record n) : Bool := r.1 = n && sc.hole r.2

theorem scanFrom_exhausted (hn : 0 < n) (hb : sc.breakOnShort = false) (fuel : Nat) {c : Nat}
    (hole : Option Nat) (l : List UInt8) (hc : c < sc.counterMod)
    (hstops : ∀ r ∈ readsAux n fuel l, r.1 = n → sc.stops r.2 = false) :
    ∃ buffer, sc.scanFrom c hole (readsAux n fuel l) =
      .exhausted ((c + (readsAux n fuel l).length) % sc.counterMod)
        (((lastIdx? sc.free (readsAux n fuel l)).map fun k => (c + k) % sc.counterMod).or hole)
        buffer := by
  induction fuel generalizing c hole l with
  | zero => exact ⟨Record.zero n, by simp [readsAux, scanFrom, lastIdx?, Nat.mod_eq_of_lt hc]⟩
  | succ fuel ih =>
    have hc' : (c + 1) % sc.counterMod < sc.counterMod := Nat.mod_lt _ (by omega)
    have hshift : ∀ k, ((c + 1) % sc.counterMod + k) % sc.counterMod =
        (c + (k + 1)) % sc.counterMod := by
      intro k
      rw [Nat.mod_add_mod]
      congr 1
      omega
    rw [readsAux] at hstops ⊢
    have hrest := fun hole' h => ih hole' (l.drop n) hc' h
    generalize (l.take n).length = got at hstops ⊢
    generalize Record.fill n (l.take n) = e at hstops ⊢
    by_cases h0 : got = 0
    · subst h0
      have hfree : sc.free (0, e) = false := by simp [free, Nat.ne_of_lt hn]
      exact ⟨e, by simp [scanFrom, lastIdx?, hfree, Nat.ne_of_lt hn]⟩
    rw [if_neg h0] at hstops ⊢
    obtain ⟨buffer, hex⟩ := hrest (if sc.free (got, e) then some c else hole)
      fun r hr => hstops r (List.mem_cons_of_mem _ hr)
    have hfirst := hstops (got, e) (List.mem_cons_self ..)
    have hstep : sc.scanFrom c hole ((got, e) :: readsAux n fuel (l.drop n)) =
        sc.scanFrom ((c + 1) % sc.counterMod) (if sc.free (got, e) then some c else hole)
          (readsAux n fuel (l.drop n)) := by
      by_cases hgot : got = n
      · by_cases hh : sc.hole e = true
        · simp [scanFrom, free, hgot, hh]
        · have hit : sc.hit e = false := by simpa [stops, hh] using hfirst hgot
          simp [scanFrom, free, hgot, hh, hit]
      · simp [scanFrom, free, hgot, h0, hb]
    refine ⟨buffer, ?_⟩
    rw [hstep, hex, hshift, lastIdx?, List.length_cons]
    cases lastIdx? sc.free (readsAux n fuel (l.drop n)) with
    | some k => simp [hshift]
    | none => by_cases hf : sc.free (got, e) = true <;> simp [hf, Nat.mod_eq_of_lt hc]

/-- A loop that finds nothing has counted the reads and knows the last free slot, as far as its
counter can tell. -/
theorem scan_exhausted (hn : 0 < n) (hb : sc.breakOnShort = false) (hc : 0 < sc.counterMod)
    (l : List UInt8) (hstops : ∀ r ∈ reads n l, r.1 = n → sc.stops r.2 = false) :
    ∃ buffer, sc.scan l = .exhausted ((reads n l).length % sc.counterMod)
      ((lastIdx? sc.free (reads n l)).map fun k => k % sc.counterMod) buffer := by
  obtain ⟨buffer, h⟩ := sc.scanFrom_exhausted hn hb (l.length + 1) none l hc hstops
  exact ⟨buffer, by simpa [scan, reads] using h⟩

/-- How far the counter gets behind the whole records: the read at the end counts, and so does a
short one if it does not end the loop. -/
def endReads (l : List UInt8) : Nat :=
  if l.length % n = 0 then 1 else if sc.breakOnShort then 0 else 2

/-- A loop that finds nothing knows the number of records and the last free slot, as far as its
counter can tell. -/
theorem scan_passed (hn : 0 < n) (hc : 0 < sc.counterMod) (l : List UInt8)
    (hno : ∀ e ∈ whole n l, sc.stops e = false) :
    ∃ buffer, sc.scan l = .exhausted (((whole n l).length + sc.endReads l) % sc.counterMod)
      ((lastIdx? sc.hole (whole n l)).map fun k => k % sc.counterMod) buffer := by
  obtain ⟨rs, rest, hrest, rfl⟩ := exists_encode hn l
  rw [whole_encode_append hn rs hrest] at hno ⊢
  have hmod : (encode rs ++ rest).length % n = rest.length := by
    rw [List.length_append, length_encode, Nat.mul_add_mod_of_lt hrest]
  rw [scan, reads_append_short hn rs hrest, sc.scanFrom_pass rs _ none hc hno, endReads, hmod,
    Nat.zero_add]
  simp only [Nat.zero_add, Option.or_none]
  by_cases h0 : rest = []
  · subst h0
    exact ⟨Record.zero n, by simp [scanFrom, Nat.ne_of_lt hn]⟩
  · have hlen : rest.length ≠ 0 := fun h => h0 (List.length_eq_zero_iff.1 h)
    rw [if_neg h0, if_neg hlen, List.singleton_append]
    cases hb : sc.breakOnShort with
    | true => exact ⟨Record.fill n rest, by simp [scanFrom, hrest.ne, hlen, hb]⟩
    | false =>
      exact ⟨Record.zero n, by simp [scanFrom, hrest.ne, hlen, hb, Nat.ne_of_lt hn, Nat.add_assoc]⟩

/-- A loop that stops at a short read counts the whole records, and the read at the end of the file
when that is the next one. -/
theorem scan_breakOnShort (hn : 0 < n) (hb : sc.breakOnShort = true) (hc : 0 < sc.counterMod)
    (l : List UInt8) (hno : ∀ e ∈ whole n l, sc.stops e = false) :
    ∃ buffer, sc.scan l =
      .exhausted (((whole n l).length + if l.length % n = 0 then 1 else 0) % sc.counterMod)
        ((lastIdx? sc.hole (whole n l)).map fun k => k % sc.counterMod) buffer := by
  have h := sc.scan_passed hn hc l hno
  rwa [endReads, hb, if_pos rfl] at h

theorem scan_congr (sc' : Scanner n) (hhole : sc'.hole = sc.hole)
    (hb : sc'.breakOnShort = sc.breakOnShort) (hc : sc'.counterMod = sc.counterMod) {l : List UInt8}
    (hstops : ∀ r ∈ reads n l, r.1 = n → sc'.stops r.2 = sc.stops r.2) :
    sc'.scan l = sc.scan l := by
  have key : ∀ (rs : List (Nat × Record n)) (c : Nat) (hole : Option Nat),
      (∀ r ∈ rs, r.1 = n → sc'.stops r.2 = sc.stops r.2) → sc'.scanFrom c hole rs =
        sc.scanFrom c hole rs := by
    intro rs
    induction rs with
    | nil => intro c hole _; rfl
    | cons r rs ih =>
      intro c hole h
      obtain ⟨got, e⟩ := r
      have ih' := fun c' hole' => ih c' hole' fun r hr => h r (List.mem_cons_of_mem _ hr)
      have he := h (got, e) (List.mem_cons_self ..)
      simp only [scanFrom, hb, hc, hhole, ih']
      by_cases hgot : got = n
      · rw [if_pos hgot, if_pos hgot]
        by_cases hh : sc.hole e = true
        · rw [if_pos hh, if_pos hh]
        · have hit : sc'.hit e = sc.hit e := by simpa [stops, hhole, hh] using he hgot
          rw [if_neg hh, if_neg hh, hit]
      · rw [if_neg hgot, if_neg hgot]
  exact key _ _ _ hstops

theorem scan_nil (hn : 0 < n) :
    sc.scan [] = .exhausted (1 % sc.counterMod) none (Record.zero n) := by
  simp [scan, reads, readsAux, scanFrom, Nat.ne_of_lt hn]

end Scanner

end RecordStore
