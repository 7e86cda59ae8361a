import Mathlib.Data.List.Basic
import Mathlib.Logic.Function.Basic

/-!
# Tables with reusable slots

A table is a list of slots; `key a` is the key a slot holds, or `none` when it is free. `place t i
a` writes slot `i`, which may be the one behind the last. As long as no key occurs twice
(`Distinct`), a table stands for a finite map (`lookup`), and placing a slot is an update of the map
(`lookup_place`), whichever slot was chosen.
-/

namespace SlotTable

variable {α κ : Type}

/-- Write slot `i` of `t`; `i = t.length` appends. -/
def place (t : List α) (i : Nat) (a : α) : List α := if i < t.length then t.set i a else t ++ [a]

theorem getElem?_place {t : List α} {i : Nat} (hi : i ≤ t.length) (a : α) (j : Nat) :
    (place t i a)[j]? = if j = i then some a else t[j]? := by
  rw [place]
  split
  · next h =>
    rw [List.getElem?_set]
    by_cases he : j = i
    · simp [he, h]
    · rw [if_neg (Ne.symm he), if_neg he]
  · next h =>
    obtain rfl : i = t.length := by omega
    rw [List.getElem?_append]
    split
    · next hj => rw [if_neg (by omega)]
    · next hj =>
      by_cases he : j = t.length
      · simp [he]
      · rw [if_neg he, List.getElem?_eq_none (by simp; omega), List.getElem?_eq_none (by omega)]

theorem length_place {t : List α} {i : Nat} (hi : i ≤ t.length) (a : α) :
    (place t i a).length = max t.length (i + 1) := by
  rw [place]
  split
  · rw [List.length_set]; omega
  · rw [List.length_append, List.length_singleton]; omega

theorem place_eq {t : List α} {i : Nat} (hi : i ≤ t.length) (a : α) :
    place t i a = t.take i ++ a :: t.drop (i + 1) := by
  rw [place]
  split
  · next h => rw [List.set_eq_take_append_cons_drop, if_pos h]
  · next h =>
    obtain rfl : i = t.length := by omega
    rw [List.take_length, List.drop_of_length_le (by omega)]

/-- The first slot that satisfies `q` is in front of the one written, or it is that one,
or behind. -/
theorem find?_place {t : List α} {i : Nat} (hi : i ≤ t.length) (a : α) (q : α → Bool) :
    (place t i a).find? q =
      ((t.take i).find? q).or (if q a then some a else (t.drop (i + 1)).find? q) := by
  rw [place_eq hi, List.find?_append, List.find?_cons]
  cases q a <;> rfl

/-- The first `k` slots are those in use exactly when these are `k` and no free slot is in front of
one. -/
theorem take_perm_filter_iff {p : α → Bool} {t : List α} {k : Nat} (hk : k ≤ (t.filter p).length) :
    (t.take k).Perm (t.filter p) ↔ k = (t.filter p).length ∧ t.Pairwise fun a b => p b = true →
      p a = true := by
  induction t generalizing k with
  | nil => simp at hk; simp [hk]
  | cons a t ih =>
    rw [List.pairwise_cons]
    by_cases ha : p a = true
    · rw [List.filter_cons_of_pos ha] at hk ⊢
      simp only [ha, implies_true, true_and]
      cases k with
      | zero => simp [List.nil_perm]
      | succ k =>
        rw [List.take_succ_cons, List.perm_cons, ih (by simpa using hk), List.length_cons,
          Nat.succ_inj]
    · rw [List.filter_cons_of_neg ha] at hk ⊢
      constructor
      · intro h
        cases k with
        | zero =>
          have hnil := List.nil_perm.1 h
          have hno := List.filter_eq_nil_iff.1 hnil
          exact ⟨by rw [hnil]; rfl, fun b hb hpb => absurd hpb (hno b hb),
            List.pairwise_of_forall_mem_list fun b _ c hc hpc => absurd hpc (hno c hc)⟩
        | succ k =>
          have := h.mem_iff.1 (List.mem_cons_self : a ∈ a :: t.take k)
          exact absurd (List.mem_filter.1 this).2 ha
      · rintro ⟨hlen, hno, -⟩
        have hnil : t.filter p = [] := List.filter_eq_nil_iff.2 fun b hb hpb => ha (hno b hb hpb)
        rw [hlen, hnil]; exact List.Perm.refl _

theorem find?_set_of_neg {q : α → Bool} {t : List α} {k : Nat} {a : α} (ha : q a = false)
    (ht : ∀ b, t[k]? = some b → q b = false) : (t.set k a).find? q = t.find? q := by
  induction t generalizing k with
  | nil => rfl
  | cons b t ih =>
    cases k with
    | zero =>
      rw [List.set_cons_zero, List.find?_cons_of_neg (by simp [ha]),
        List.find?_cons_of_neg (by simp [ht b rfl])]
    | succ k =>
      have ih := ih (k := k) fun c hc => ht c (by simpa using hc)
      rw [List.set_cons_succ, List.find?_cons, List.find?_cons, ih]

section
variable (key : α → Option κ)

def Distinct (t : List α) : Prop :=
  ∀ (i j : Nat) (a b : α) (k : κ), t[i]? = some a → t[j]? = some b → key a = some k →
    key b = some k → i = j

/-- Some slot holds the key `k`. -/
def Holds (t : List α) (k : κ) : Prop := ∃ (i : Nat) (a : α), t[i]? = some a ∧ key a = some k

theorem Distinct.nil : Distinct key ([] : List α) := by
  intro i j a b k h _ _ _
  simp at h

variable {key}

theorem Distinct.place {t : List α} {i : Nat} {a : α} (ht : Distinct key t) (hi : i ≤ t.length)
    (hfresh : ∀ (j : Nat) (b : α) (k : κ), j ≠ i → t[j]? = some b → key b = some k →
      key a ≠ some k) : Distinct key (place t i a) := by
  intro j l b c k hj hl hb hc
  rw [getElem?_place hi] at hj hl
  split at hj <;> split at hl
  · omega
  · next h1 h2 =>
    cases hj
    exact absurd hb (hfresh l c k h2 hl hc)
  · next h1 h2 =>
    cases hl
    exact absurd hc (hfresh j b k h1 hj hb)
  · exact ht j l b c k hj hl hb hc

def keys (key : α → Option κ) (t : List α) : List κ := t.filterMap key

theorem mem_keys {t : List α} {k : κ} : k ∈ keys key t ↔ Holds key t k := by
  rw [keys, List.mem_filterMap]
  constructor
  · rintro ⟨a, ha, hk⟩
    obtain ⟨i, hi⟩ := List.getElem?_of_mem ha
    exact ⟨i, a, hi, hk⟩
  · rintro ⟨i, a, hi, hk⟩
    exact ⟨a, List.mem_of_getElem? hi, hk⟩

theorem mem_keys_place {t : List α} {i : Nat} {a : α} (hi : i ≤ t.length) {k : κ} :
    k ∈ keys key (place t i a) ↔ key a = some k ∨ ∃ (j : Nat) (b : α), j ≠ i ∧ t[j]? = some b ∧
      key b = some k := by
  rw [mem_keys]
  constructor
  · rintro ⟨j, b, hj, hb⟩
    rw [getElem?_place hi] at hj
    split at hj
    · cases hj; exact .inl hb
    · next hne => exact .inr ⟨j, b, hne, hj, hb⟩
  · rintro (ha | ⟨j, b, hne, hj, hb⟩)
    · exact ⟨i, a, by rw [getElem?_place hi, if_pos rfl], ha⟩
    · exact ⟨j, b, by rw [getElem?_place hi, if_neg hne]; exact hj, hb⟩

theorem Distinct.tail {a : α} {t : List α} (h : Distinct key (a :: t)) : Distinct key t := by
  intro i j b c k hi hj hb hc
  have := h (i + 1) (j + 1) b c k (by simpa using hi) (by simpa using hj) hb hc
  omega

theorem Distinct.nodup_keys {t : List α} (h : Distinct key t) : (keys key t).Nodup := by
  induction t with
  | nil => simp [keys]
  | cons a t ih =>
    have htail : (keys key t).Nodup := ih h.tail
    cases hk : key a with
    | none => rwa [keys, List.filterMap_cons_none hk]
    | some k =>
      rw [keys, List.filterMap_cons_some hk, List.nodup_cons]
      refine ⟨fun hmem => ?_, htail⟩
      obtain ⟨i, b, hi, hb⟩ := mem_keys.1 hmem
      have := h 0 (i + 1) a b k rfl (by simpa using hi) hk hb
      omega

variable [DecidableEq κ]

def lookup (key : α → Option κ) (t : List α) (k : κ) : Option α := t.find? fun a => key a = some k

theorem lookup_eq_some {t : List α} (ht : Distinct key t) {k : κ} {a : α} :
    lookup key t k = some a ↔ ∃ i : Nat, t[i]? = some a ∧ key a = some k := by
  constructor
  · intro h
    obtain ⟨i, hi⟩ := List.getElem?_of_mem (List.mem_of_find?_eq_some h)
    exact ⟨i, hi, by simpa using List.find?_some h⟩
  · rintro ⟨i, hi, hk⟩
    cases h : lookup key t k with
    | none => exact absurd hk (by simpa using List.find?_eq_none.1 h a (List.mem_of_getElem? hi))
    | some b =>
      obtain ⟨j, hj⟩ := List.getElem?_of_mem (List.mem_of_find?_eq_some h)
      have hb : key b = some k := by simpa using List.find?_some h
      obtain rfl := ht i j a b k hi hj hk hb
      rw [hi] at hj; exact hj.symm

theorem lookup_eq_none {t : List α} {k : κ} : lookup key t k = none ↔ ¬ Holds key t k := by
  rw [lookup, List.find?_eq_none]
  constructor
  · rintro h ⟨i, a, hi, hk⟩
    exact absurd hk (by simpa using h a (List.mem_of_getElem? hi))
  · intro h a ha
    obtain ⟨i, hi⟩ := List.getElem?_of_mem ha
    simpa using fun hk => h ⟨i, a, hi, hk⟩

/-- Writing a slot updates the map: the new key is bound to the new slot, the old key of the slot is
gone, every other key is as before. -/
theorem lookup_place {t : List α} {i : Nat} {a : α} (ht : Distinct key t) (hi : i ≤ t.length)
    (hfresh : ∀ (j : Nat) (b : α) (k : κ), j ≠ i → t[j]? = some b → key b = some k → key a ≠ some k)
    (k : κ) :
    lookup key (place t i a) k =
      if key a = some k then some a
      else if (t[i]?).bind key = some k then none
      else lookup key t k := by
  have ht' := ht.place hi hfresh
  split
  · next hk => exact (lookup_eq_some ht').2 ⟨i, by rw [getElem?_place hi, if_pos rfl], hk⟩
  · next hk =>
    split
    · next hold =>
      obtain ⟨c, hc, hck⟩ := Option.bind_eq_some_iff.1 hold
      rw [lookup_eq_none]
      rintro ⟨j, b, hj, hb⟩
      rw [getElem?_place hi] at hj
      split at hj
      · cases hj; exact hk hb
      · next hne => exact hne (ht j i b c k hj hc hb hck)
    · next hold =>
      apply Option.ext
      intro b
      rw [lookup_eq_some ht', lookup_eq_some ht]
      constructor
      · rintro ⟨j, hj, hb⟩
        rw [getElem?_place hi] at hj
        split at hj
        · cases hj; exact absurd hb hk
        · exact ⟨j, hj, hb⟩
      · rintro ⟨j, hj, hb⟩
        refine ⟨j, ?_, hb⟩
        rw [getElem?_place hi, if_neg]
        · exact hj
        · rintro rfl; exact hold (by rw [hj]; exact hb)

end

end SlotTable
