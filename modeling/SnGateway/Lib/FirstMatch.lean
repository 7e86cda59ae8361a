import Mathlib.Data.List.Nodup

/-!
# The first element with a key

Lookups in a list whose elements have keys. Every element is found under its key exactly when no two
elements share one (`lookup_self_iff`); where an element is not inserted once its key is taken, the
lookup finds what it would find with all of them there (`lookup_foldl_insertNew`).
-/

namespace FirstMatch

variable {α κ : Type} [DecidableEq κ] {key : α → κ} {l : List α} {a : α} {k : κ}

def lookup (key : α → κ) (k : κ) (l : List α) : Option α := l.find? fun a => key a = k

/-- `a` at the end, unless its key is taken. -/
def insertNew (key : α → κ) (l : List α) (a : α) : List α :=
  if l.any fun b => key b = key a then l else l ++ [a]

theorem mem_of_lookup (h : lookup key k l = some a) : a ∈ l := List.mem_of_find?_eq_some h

theorem key_of_lookup (h : lookup key k l = some a) : key a = k := by
  simpa using List.find?_some h

theorem lookup_eq_none_iff : lookup key k l = none ↔ ∀ a ∈ l, key a ≠ k := by
  simp [lookup]

theorem lookup_append (k : κ) (l l' : List α) :
    lookup key k (l ++ l') = (lookup key k l).or (lookup key k l') :=
  List.find?_append

theorem lookup_of_unique (ha : a ∈ l) (h : ∀ b ∈ l, key b = key a → b = a) :
    lookup key (key a) l = some a := by
  cases hb : lookup key (key a) l with
  | none => exact absurd rfl (lookup_eq_none_iff.1 hb a ha)
  | some b => rw [h b (mem_of_lookup hb) (key_of_lookup hb)]

theorem lookup_self_iff :
    (∀ a ∈ l, lookup key (key a) l = some a) ↔ ∀ a ∈ l, ∀ b ∈ l, key a = key b → a = b := by
  constructor
  · intro h a ha b hb heq
    have hfound := h a ha
    rw [heq, h b hb] at hfound
    exact (Option.some.inj hfound).symm
  · intro h a ha
    exact lookup_of_unique ha fun b hb heq => h b hb a ha heq

theorem mem_insertNew {b : α} (h : b ∈ insertNew key l a) : b ∈ l ∨ b = a := by
  unfold insertNew at h
  split at h
  · exact .inl h
  · simpa using h

theorem lookup_insertNew (k : κ) (l : List α) (a : α) :
    lookup key k (insertNew key l a) = lookup key k (l ++ [a]) := by
  rw [insertNew]
  split
  · next htaken =>
    obtain ⟨b, hb, heq⟩ := List.any_eq_true.1 htaken
    rw [lookup_append]
    cases hk : lookup key k l with
    | some c => rfl
    | none =>
      have hne : key a ≠ k :=
        fun h => lookup_eq_none_iff.1 hk b hb ((of_decide_eq_true heq).trans h)
      simp [lookup, hne]
  · rfl

theorem lookup_foldl_insertNew (k : κ) (l as : List α) :
    lookup key k (as.foldl (insertNew key) l) = lookup key k (l ++ as) := by
  induction as generalizing l with
  | nil => rw [List.append_nil]; rfl
  | cons a as ih =>
    rw [List.foldl_cons, ih, lookup_append, lookup_insertNew, ← lookup_append, List.append_assoc,
      List.singleton_append]

theorem lookup_filter_ne (k k' : κ) (l : List α) :
    lookup key k (l.filter fun a => key a ≠ k') = if k = k' then none else lookup key k l := by
  split
  · next h =>
    rw [lookup_eq_none_iff]
    intro a ha
    simpa [h] using (List.mem_filter.1 ha).2
  · next h =>
    rw [lookup, List.find?_filter, lookup]
    congr 1
    funext a
    by_cases ha : key a = k
    · simp [ha, h]
    · simp [ha]

end FirstMatch
