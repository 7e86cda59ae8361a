import Mathlib.Data.List.Basic

/-!
# The lines of a text

Every line is ended by a newline, the last one perhaps not. `text_induction` takes a text apart line
by line.
-/

namespace Lines

variable {α : Type} {nl : α}

section
variable [DecidableEq α]

def lines (nl : α) : List α → List (List α)
  | [] => []
  | ch :: c =>
    if ch = nl then [] :: lines nl c
    else
      match lines nl c with
      | [] => [[ch]]
      | l :: ls => (ch :: l) :: ls

theorem lines_line {l : List α} (hl : nl ∉ l) (c : List α) :
    lines nl (l ++ nl :: c) = l :: lines nl c := by
  induction l with
  | nil => rw [List.nil_append, lines, if_pos rfl]
  | cons ch l ih =>
    rw [List.mem_cons, not_or] at hl
    rw [List.cons_append, lines, if_neg (Ne.symm hl.1), ih hl.2]

theorem lines_last {l : List α} (hl : nl ∉ l) (hne : l ≠ []) : lines nl l = [l] := by
  induction l with
  | nil => exact absurd rfl hne
  | cons ch l ih =>
    rw [List.mem_cons, not_or] at hl
    rw [lines, if_neg (Ne.symm hl.1)]
    rcases l with - | ⟨ch', l⟩
    · rfl
    · rw [ih hl.2 (List.cons_ne_nil ch' l)]

theorem exists_line (nl : α) (c : List α) : nl ∉ c ∨ ∃ l rest, c = l ++ nl :: rest ∧ nl ∉ l := by
  by_cases h : nl ∈ c
  · obtain ⟨l, rest, hc, hl⟩ := List.eq_append_cons_of_mem h
    exact .inr ⟨l, rest, hc, hl⟩
  · exact .inl h

/-- What holds of a text without a newline, and of a text with one more line in front, holds of
every text. -/
theorem text_induction (nl : α) {motive : List α → Prop} (last : ∀ l, nl ∉ l → motive l)
    (line : ∀ l c, nl ∉ l → motive c → motive (l ++ nl :: c)) (c : List α) : motive c := by
  induction hn : c.length using Nat.strongRecOn generalizing c with
  | ind n ih =>
    rcases exists_line nl c with h | ⟨l, rest, rfl, hl⟩
    · exact last c h
    · rw [List.length_append, List.length_cons] at hn
      exact line l rest hl (ih rest.length (by omega) rest rfl)

theorem notMem_of_mem_lines {c l : List α} (h : l ∈ lines nl c) : nl ∉ l := by
  induction c using text_induction nl with
  | last l' hl' =>
    by_cases hne : l' = []
    · rw [hne] at h; cases h
    · rw [lines_last hl' hne, List.mem_singleton] at h
      rw [h]; exact hl'
  | line l' c hl' ih =>
    rw [lines_line hl', List.mem_cons] at h
    rcases h with rfl | h
    · exact hl'
    · exact ih h

end

/-- Nothing stands behind the last newline. -/
def AtLineStart (nl : α) (c : List α) : Prop := ∀ ch ∈ c.getLast?, ch = nl

instance [DecidableEq α] (c : List α) : Decidable (AtLineStart nl c) := by
  unfold AtLineStart
  infer_instance

theorem atLineStart_nil : AtLineStart nl [] := fun _ h => by cases h

theorem atLineStart_line_iff {l c : List α} : AtLineStart nl (l ++ nl :: c) ↔ AtLineStart nl c := by
  rcases List.eq_nil_or_concat c with rfl | ⟨d, ch, rfl⟩
  · simp [AtLineStart]
  · rw [AtLineStart, AtLineStart, List.concat_eq_append, ← List.cons_append, ← List.append_assoc]
    simp only [List.getLast?_append, List.getLast?_singleton, Option.some_or]

theorem AtLineStart.eq_nil {l : List α} (h : AtLineStart nl l) (hl : nl ∉ l) : l = [] := by
  rcases List.eq_nil_or_concat l with rfl | ⟨d, ch, rfl⟩
  · rfl
  · have hch : ch = nl := h ch (by simp)
    exact absurd (by simp [hch]) hl

end Lines
