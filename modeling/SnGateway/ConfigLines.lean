import SnGateway.DebugBuild
import SnGateway.Lib.Lines

/-!
# The lines a configuration loop reads

`readLine` cuts a line at the size of its buffer and returns 0 for an empty line as for the end of
the file: a longer line is read in pieces, and the loops end at a line whose length is a multiple of
the size (`linesRead_line`). They read the lines of the file when these are not empty and fit
(`linesRead_plain`, `linesRead_eq_lines_iff`).
-/

namespace SnGateway
open RecordStore Lines

/-- The lines of a file as the loops read them. -/
def linesRead (size : Nat) (c : List UInt8) : List (List UInt8) := configLines size (c.length + 1) c

section
variable {size : Nat} {l c : List UInt8}

theorem readLine_line (hl : 10 ∉ l) (c : List UInt8) :
    SnGateway.readLine size (l ++ 10 :: c) = if l.length < size then (l, c)
      else (l.take size, l.drop size ++ 10 :: c) := by
  induction size generalizing l with
  | zero => simp [SnGateway.readLine]
  | succ size ih =>
    rcases l with - | ⟨ch, l⟩
    · simp [SnGateway.readLine]
    · rw [List.mem_cons, not_or] at hl
      rw [List.cons_append, SnGateway.readLine, if_neg (Ne.symm hl.1), ih hl.2, List.length_cons]
      by_cases h : l.length < size
      · rw [if_pos h, if_pos (Nat.succ_lt_succ h)]
      · rw [if_neg h, if_neg fun h' => h (Nat.lt_of_succ_lt_succ h')]
        rfl

theorem readLine_newline (hsize : 0 < size) (c : List UInt8) :
    SnGateway.readLine size (10 :: c) = ([], c) := by
  rcases size with - | size
  · cases hsize
  · rw [SnGateway.readLine, if_pos rfl]

theorem readLine_last (hl : 10 ∉ l) : SnGateway.readLine size l = (l.take size, l.drop size) := by
  induction size generalizing l with
  | zero => simp [SnGateway.readLine]
  | succ size ih =>
    rcases l with - | ⟨ch, l⟩
    · simp [SnGateway.readLine]
    · rw [List.mem_cons, not_or] at hl
      rw [SnGateway.readLine, if_neg (Ne.symm hl.1), ih hl.2]
      rfl

theorem length_readLine_add (size : Nat) (c : List UInt8) :
    (SnGateway.readLine size c).1.length + (SnGateway.readLine size c).2.length ≤ c.length := by
  induction size generalizing c with
  | zero => simp [SnGateway.readLine]
  | succ size ih =>
    rcases c with - | ⟨ch, c⟩
    · simp [SnGateway.readLine]
    · have := ih c
      rw [SnGateway.readLine]
      split
      · simp
      · simp only [List.length_cons]; omega

theorem configLines_fuel {fuel : Nat} (h : c.length < fuel) :
    configLines size fuel c = linesRead size c := by
  have hstep : ∀ (n m : Nat) (d : List UInt8), d.length < n → d.length < m →
      configLines size n d = configLines size m d := by
    intro n
    induction n with
    | zero => intro m d hn; cases hn
    | succ n ih =>
      intro m d hn hm
      obtain ⟨m, rfl⟩ : ∃ k, m = k + 1 := ⟨m - 1, by omega⟩
      have hlen := length_readLine_add size d
      rw [configLines, configLines]
      dsimp only
      by_cases hline : (SnGateway.readLine size d).1 = []
      · rw [if_pos hline, if_pos hline]
      · have := List.length_pos_iff.2 hline
        rw [if_neg hline, if_neg hline, ih m _ (by omega) (by omega)]
  exact hstep _ _ c h (Nat.lt_succ_self _)

theorem linesRead_eq (size : Nat) (c : List UInt8) :
    linesRead size c = if (SnGateway.readLine size c).1 = [] then []
      else (SnGateway.readLine size c).1 :: linesRead size (SnGateway.readLine size c).2 := by
  rw [linesRead, configLines]
  dsimp only
  split
  · rfl
  · next hline =>
    have hlen := length_readLine_add size c
    have := List.length_pos_iff.2 hline
    rw [configLines_fuel (by omega)]

theorem length_of_mem_linesRead (h : l ∈ linesRead size c) : l.length ≤ size :=
  length_of_mem_configLines h

theorem linesRead_nil (size : Nat) : linesRead size [] = [] := by
  rw [linesRead_eq, readLine_last (by simp), List.take_nil, if_pos rfl]

/-- The pieces of a line, then the lines behind it unless the last piece fills the buffer. -/
theorem linesRead_line (hsize : 0 < size) (hl : 10 ∉ l) (c : List UInt8) :
    linesRead size (l ++ 10 :: c) = linesRead size l ++ if l.length % size = 0 then []
      else linesRead size c := by
  induction hn : l.length using Nat.strongRecOn generalizing l with
  | ind n ih =>
    subst hn
    by_cases hlt : l.length < size
    · by_cases hne : l = []
      · rw [hne, List.nil_append, linesRead_eq, readLine_newline hsize, linesRead_nil]
        simp
      · have hpos := List.length_pos_iff.2 hne
        have hmod : l.length % size = l.length := Nat.mod_eq_of_lt hlt
        rw [linesRead_eq, readLine_line hl, if_pos hlt]
        dsimp only
        rw [if_neg hne, linesRead_eq size l, readLine_last hl, List.take_of_length_le hlt.le,
          List.drop_of_length_le hlt.le]
        dsimp only
        rw [if_neg hne, linesRead_nil, if_neg (by omega)]
        rfl
    · -- the first piece fills the buffer
      have htake : l.take size ≠ [] := by
        rw [← List.length_pos_iff, List.length_take]
        omega
      have hdrop : 10 ∉ l.drop size := fun h => hl (List.mem_of_mem_drop h)
      have hlen : (l.drop size).length = l.length - size := List.length_drop
      have hmod : (l.drop size).length % size = l.length % size := by
        rw [hlen, ← Nat.mod_eq_sub_mod (by omega)]
      rw [linesRead_eq, readLine_line hl, if_neg hlt]
      dsimp only
      rw [if_neg htake, ih _ (by omega) hdrop rfl, hmod, linesRead_eq size l, readLine_last hl]
      dsimp only
      rw [if_neg htake]
      rfl

theorem linesRead_short (hl : 10 ∉ l) (hne : l ≠ []) (hlen : l.length ≤ size) :
    linesRead size l = [l] := by
  rw [linesRead_eq, readLine_last hl, List.take_of_length_le hlen, List.drop_of_length_le hlen]
  dsimp only
  rw [if_neg hne, linesRead_nil]

theorem notMem_of_mem_pieces {piece : List UInt8} (hl : 10 ∉ l) (h : piece ∈ linesRead size l) :
    10 ∉ piece := by
  induction hn : l.length using Nat.strongRecOn generalizing l with
  | ind n ih =>
    subst hn
    rw [linesRead_eq, readLine_last hl] at h
    dsimp only at h
    by_cases htake : l.take size = []
    · rw [if_pos htake] at h; cases h
    · rw [if_neg htake, List.mem_cons] at h
      have hpos := List.length_pos_iff.2 htake
      rw [List.length_take] at hpos
      rcases h with rfl | h
      · exact fun h10 => hl (List.mem_of_mem_take h10)
      · exact ih _ (by rw [List.length_drop]; omega) (fun h10 => hl (List.mem_of_mem_drop h10)) h
          rfl

theorem notMem_of_mem_linesRead (hsize : 0 < size) (h : l ∈ linesRead size c) : 10 ∉ l := by
  induction c using text_induction (10 : UInt8) with
  | last l' hl' => exact notMem_of_mem_pieces hl' h
  | line l' rest hl' ih =>
    rw [linesRead_line hsize hl', List.mem_append] at h
    rcases h with h | h
    · exact notMem_of_mem_pieces hl' h
    · split at h
      · cases h
      · exact ih h

/-- What stands in front of a line does not depend on what follows; it may end the loop. -/
theorem linesRead_append (hsize : 0 < size) {pre : List UInt8} (hpre : AtLineStart 10 pre) :
    ∃ front, (∀ c, linesRead size (pre ++ c) = front) ∨ ∀ c, linesRead size (pre ++ c) = front ++
      linesRead size c := by
  induction pre using text_induction (10 : UInt8) with
  | last l hl =>
    obtain rfl := hpre.eq_nil hl
    exact ⟨[], .inr fun _ => rfl⟩
  | line l rest hl ih =>
    have hcut : ∀ c, linesRead size (l ++ 10 :: rest ++ c) =
        linesRead size l ++ if l.length % size = 0 then [] else linesRead size (rest ++ c) := by
      intro c
      rw [List.append_assoc, List.cons_append, linesRead_line hsize hl]
    by_cases hmod : l.length % size = 0
    · exact ⟨linesRead size l, .inl fun c => by rw [hcut, if_pos hmod, List.append_nil]⟩
    · obtain ⟨front, hfront⟩ := ih (atLineStart_line_iff.1 hpre)
      refine ⟨linesRead size l ++ front, hfront.imp (fun h c => ?_) fun h c => ?_⟩
      · rw [hcut, if_neg hmod, h]
      · rw [hcut, if_neg hmod, h, List.append_assoc]

/-- Whole lines, none of them empty or as long as the buffer. -/
def Plain (size : Nat) (c : List UInt8) : Prop :=
  AtLineStart 10 c ∧ ∀ l ∈ lines 10 c, l ≠ [] ∧ l.length < size

instance (size : Nat) (c : List UInt8) : Decidable (Plain size c) :=
  inferInstanceAs (Decidable (_ ∧ _))

theorem linesRead_plain (hsize : 0 < size) {pre : List UInt8} (hpre : Plain size pre)
    (c : List UInt8) : linesRead size (pre ++ c) = lines 10 pre ++ linesRead size c := by
  obtain ⟨hstart, hlines⟩ := hpre
  induction pre using text_induction (10 : UInt8) with
  | last l hl =>
    obtain rfl := hstart.eq_nil hl
    rfl
  | line l rest hl ih =>
    rw [lines_line hl] at hlines ⊢
    obtain ⟨⟨hne, hlt⟩, hrest⟩ := List.forall_mem_cons.1 hlines
    have hpos := List.length_pos_iff.2 hne
    rw [List.append_assoc, List.cons_append, linesRead_line hsize hl, linesRead_short hl hne hlt.le,
      Nat.mod_eq_of_lt hlt, if_neg (by omega), ih (atLineStart_line_iff.1 hstart) hrest]
    rfl

/-- Every line but the last is shorter than the buffer, the last one fits, and none is empty. -/
def LinesFit (size : Nat) (c : List UInt8) : Prop :=
  ∀ (i : Nat) (l : List UInt8), (lines 10 c)[i]? = some l →
    l ≠ [] ∧ (l.length < size ∨ l.length = size ∧ i + 1 = (lines 10 c).length)

theorem linesRead_eq_lines_iff (hsize : 0 < size) (c : List UInt8) :
    linesRead size c = lines 10 c ↔ LinesFit size c := by
  induction c using text_induction (10 : UInt8) with
  | last l hl =>
    by_cases hne : l = []
    · rw [hne]
      exact iff_of_true (linesRead_nil size) (fun i l h => by cases h)
    · rw [LinesFit, lines_last hl hne]
      constructor
      · intro h i l' hi
        obtain ⟨rfl, rfl⟩ : i = 0 ∧ l' = l := by
          rcases i with - | i
          · exact ⟨rfl, (Option.some.inj hi).symm⟩
          · cases hi
        have hlen : l'.length ≤ size := length_of_mem_linesRead (by rw [h]; simp)
        rw [List.length_singleton]
        exact ⟨hne, by omega⟩
      · intro h
        obtain ⟨-, hlen⟩ := h 0 l rfl
        exact linesRead_short hl hne (by omega)
  | line l rest hl ih =>
    rw [linesRead_line hsize hl, LinesFit, lines_line hl]
    by_cases hne : l = []
    · subst hne
      rw [linesRead_nil, List.length_nil, Nat.zero_mod, if_pos rfl]
      exact iff_of_false (by simp) fun h => (h 0 [] rfl).1 rfl
    have hpos := List.length_pos_iff.2 hne
    rcases Nat.lt_trichotomy l.length size with hlt | heq | hgt
    · rw [linesRead_short hl hne hlt.le, Nat.mod_eq_of_lt hlt, if_neg (by omega),
        List.singleton_append,
        List.cons.injEq, eq_self, true_and, ih]
      constructor
      · intro h i l' hi
        rcases i with - | i
        · rw [← Option.some.inj hi]
          exact ⟨hne, .inl hlt⟩
        · obtain ⟨h1, h2⟩ := h i l' hi
          exact ⟨h1, by rw [List.length_cons]; omega⟩
      · intro h i l' hi
        obtain ⟨h1, h2⟩ := h (i + 1) l' hi
        rw [List.length_cons] at h2
        exact ⟨h1, by omega⟩
    · rw [linesRead_short hl hne heq.le, heq, Nat.mod_self, if_pos rfl, List.append_nil,
        List.cons.injEq, eq_self,
        true_and, eq_comm]
      constructor
      · intro hnil i l' hi
        rw [hnil] at hi ⊢
        rcases i with - | i
        · rw [← Option.some.inj hi]
          exact ⟨hne, .inr ⟨heq, rfl⟩⟩
        · cases hi
      · intro h
        obtain ⟨-, hlt | ⟨-, hlast⟩⟩ := h 0 l rfl
        · omega
        · rw [List.length_cons] at hlast
          exact List.length_eq_zero_iff.1 (by omega)
    · refine iff_of_false (fun h => ?_) fun h => ?_
      · have hlen : l.length ≤ size :=
          length_of_mem_linesRead (c := l ++ 10 :: rest) (by rw [linesRead_line hsize hl, h]; simp)
        omega
      · obtain ⟨-, h⟩ := h 0 l rfl
        omega

end

end SnGateway
