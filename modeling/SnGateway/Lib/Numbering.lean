import Mathlib.Data.Finset.Card
import Mathlib.Data.List.Infix
import Mathlib.Data.List.Nodup

/-!
# Numbers given by registration

Names are numbered from 1 in the order in which they are registered. A name that is registered again
is looked up first and keeps its number; the lookup recognises the names that satisfy `known` only,
all others are entered again each time. The table grows at its end (`prefix_registerAll`), so a
number stays with the name it was given to, and when every name is recognised it has one number
(`nodup_registerAll`).
-/

namespace Numbering

variable {α : Type}

theorem getElem?_of_prefix {l l' : List α} (h : l <+: l') {i : Nat} {a : α} (hi : l[i]? = some a) :
    l'[i]? = some a := by
  obtain ⟨m, rfl⟩ := h
  rw [List.getElem?_append_left (List.getElem?_eq_some_iff.1 hi).1]
  exact hi

variable [DecidableEq α] (known : α → Bool)

/-- The table after registering `a`. -/
def register (l : List α) (a : α) : List α := if known a ∧ a ∈ l then l else l ++ [a]

/-- The number `a` gets when it is registered. -/
def number (l : List α) (a : α) : Nat := if known a ∧ a ∈ l then l.idxOf a + 1 else l.length + 1

def registerAll (xs : List α) : List α := xs.foldl (register known) []

variable {known} {l xs ys : List α} {a b : α}

theorem register_of_mem (hk : known a = true) (ha : a ∈ l) : register known l a = l :=
  if_pos ⟨hk, ha⟩

/-- A name that is found gets the number of its first place. -/
theorem number_of_first (hk : known a = true) {i : Nat} (hi : l[i]? = some a)
    (hfirst : ∀ j < i, l[j]? ≠ some a) : number known l a = i + 1 := by
  have hmem : a ∈ l := List.mem_of_getElem? hi
  obtain ⟨hlt, hget⟩ := List.getElem?_eq_some_iff.1 hi
  have hidx : l.idxOf a = i := by
    refine (List.findIdx_eq hlt).2 ⟨by simp [hget], fun j hj => ?_⟩
    have hne := hfirst j hj
    rw [List.getElem?_eq_getElem (by omega)] at hne
    simpa using fun h => hne (congrArg some h)
  rw [number, if_pos ⟨hk, hmem⟩, hidx]

theorem number_of_notMem (h : ¬ (known a = true ∧ a ∈ l)) : number known l a = l.length + 1 :=
  if_neg h

theorem register_of_notMem (h : ¬ (known a = true ∧ a ∈ l)) : register known l a = l ++ [a] :=
  if_neg h

theorem prefix_register : l <+: register known l a := by
  rw [register]
  split
  · exact List.prefix_rfl
  · exact List.prefix_append l [a]

/-- The number of a name is its place in the table. -/
theorem getElem?_register (known : α → Bool) (l : List α) (a : α) :
    ∃ i, number known l a = i + 1 ∧ (register known l a)[i]? = some a := by
  rw [number, register]
  split
  · next h => exact ⟨_, rfl, List.getElem?_idxOf h.2⟩
  · exact ⟨l.length, rfl, by simp⟩

/-- Registering a name enters no other place than the one its number stands for. -/
theorem getElem?_register_eq_some {i : Nat} :
    (register known l a)[i]? = some b ↔ l[i]? = some b ∨ number known l a = i + 1 ∧ b = a := by
  constructor
  · intro h
    rw [register] at h
    split at h
    · exact .inl h
    · next hno =>
      rw [List.getElem?_append] at h
      split at h
      · exact .inl h
      · obtain ⟨hi, rfl⟩ := List.getElem?_eq_some_iff.1 h
        refine .inr ⟨?_, by simp⟩
        rw [number, if_neg hno]
        simp only [List.length_singleton] at hi
        omega
  · rintro (h | ⟨h, rfl⟩)
    · exact getElem?_of_prefix prefix_register h
    · obtain ⟨j, hj, hget⟩ := getElem?_register known l b
      obtain rfl : i = j := by omega
      exact hget

theorem mem_register : b ∈ register known l a ↔ b ∈ l ∨ b = a := by
  rw [register]
  split
  · next h =>
    constructor
    · exact .inl
    · rintro (hb | rfl)
      · exact hb
      · exact h.2
  · simp

theorem nodup_register (hl : l.Nodup) (hk : known a = true) : (register known l a).Nodup := by
  rw [register]
  split
  · exact hl
  · next h =>
    have ha : a ∉ l := fun ha => h ⟨hk, ha⟩
    exact hl.append (List.nodup_singleton a) (by simpa using ha)

/-! ### All names of a list -/

theorem registerAll_append :
    registerAll known (xs ++ ys) = ys.foldl (register known) (registerAll known xs) :=
  List.foldl_append

theorem registerAll_snoc :
    registerAll known (xs ++ [a]) = register known (registerAll known xs) a :=
  registerAll_append

theorem prefix_registerAll : registerAll known xs <+: registerAll known (xs ++ ys) := by
  induction ys using List.reverseRecOn with
  | nil => rw [List.append_nil]
  | append_singleton ys a ih =>
    rw [← List.append_assoc, registerAll_snoc]
    exact ih.trans prefix_register

theorem mem_registerAll : a ∈ registerAll known xs ↔ a ∈ xs := by
  induction xs using List.reverseRecOn with
  | nil => rfl
  | append_singleton xs b ih =>
    rw [registerAll_snoc, mem_register, ih, List.mem_append, List.mem_singleton]

theorem nodup_registerAll (h : ∀ a ∈ xs, known a = true) : (registerAll known xs).Nodup := by
  induction xs using List.reverseRecOn with
  | nil => exact List.nodup_nil
  | append_singleton xs b ih =>
    rw [registerAll_snoc]
    exact nodup_register (ih fun a ha => h a (List.mem_append_left _ ha)) (h b (by simp))

theorem length_registerAll (h : ∀ a ∈ xs, known a = true) :
    (registerAll known xs).length = xs.toFinset.card := by
  rw [← List.toFinset_card_of_nodup (nodup_registerAll h)]
  congr 1
  ext a
  rw [List.mem_toFinset, List.mem_toFinset, mem_registerAll]

end Numbering
