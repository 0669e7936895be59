import Mathlib

/-!
# Loops

A loop is a step function: from a state it goes on to another state or ends with a result.  A loop
need not end; `Loop.run` follows it for a number of rounds, and `Loop.Ends` says that it ends.  It
does so if a number decreases with each round, and it does not if a round leads back to the same
state.
-/

namespace MuduoChat

namespace Loop

variable {σ ρ : Type}

/-- Follow a loop for at most so many rounds. -/
def run (step : σ → σ ⊕ ρ) : ℕ → σ → Option ρ
  | 0, _ => none
  | n + 1, s =>
    match step s with
    | .inl s' => run step n s'
    | .inr r => some r

/-- From this state the loop ends with this result. -/
def Ends (step : σ → σ ⊕ ρ) (s : σ) (r : ρ) : Prop := ∃ n, run step n s = some r

/-- The states in which the loop begins a round. -/
def Reaches (step : σ → σ ⊕ ρ) : σ → σ → Prop :=
  Relation.ReflTransGen fun s s' => step s = .inl s'

variable {step : σ → σ ⊕ ρ} {s s' : σ} {r : ρ} {n m : ℕ}

lemma run_inl (h : step s = .inl s') (n : ℕ) : run step (n + 1) s = run step n s' := by
  rw [run, h]

lemma run_inr (h : step s = .inr r) (n : ℕ) : run step (n + 1) s = some r := by
  rw [run, h]

lemma run_mono (h : run step n s = some r) (hle : n ≤ m) : run step m s = some r := by
  induction n generalizing s m with
  | zero => cases h
  | succ n ih =>
    obtain ⟨m, rfl⟩ : ∃ k, m = k + 1 := ⟨m - 1, by omega⟩
    cases hs : step s with
    | inl s' =>
      rw [run_inl hs] at h ⊢
      exact ih h (by omega)
    | inr r' => rwa [run_inr hs] at h ⊢

lemma Ends.unique {r' : ρ} (h : Ends step s r) (h' : Ends step s r') : r = r' := by
  obtain ⟨n, hn⟩ := h
  obtain ⟨m, hm⟩ := h'
  have hn := run_mono hn (Nat.le_max_left n m)
  have hm := run_mono hm (Nat.le_max_right n m)
  exact Option.some.inj (hn.symm.trans hm)

lemma ends_inl (h : step s = .inl s') : Ends step s r ↔ Ends step s' r := by
  constructor
  · rintro ⟨n, hn⟩
    cases n with
    | zero => cases hn
    | succ n => exact ⟨n, by rwa [run_inl h] at hn⟩
  · rintro ⟨n, hn⟩
    exact ⟨n + 1, by rwa [run_inl h]⟩

lemma ends_inr {r' : ρ} (h : step s = .inr r') : Ends step s r ↔ r = r' := by
  constructor
  · rintro ⟨n, hn⟩
    cases n with
    | zero => cases hn
    | succ n =>
      rw [run_inr h] at hn
      exact (Option.some.inj hn).symm
  · rintro rfl
    exact ⟨1, run_inr h 0⟩

lemma ends_of_reaches {s' : σ} (h : Reaches step s s') (hround : step s' = .inr r) :
    Ends step s r := by
  induction h using Relation.ReflTransGen.head_induction_on with
  | refl => exact (ends_inr hround).2 rfl
  | head hstep _ ih => exact (ends_inl hstep).2 ih

/-- **The invariant rule.**  A property that the rounds preserve holds where the loop ends. -/
lemma Ends.of_invariant {I : σ → Prop} (h : Ends step s r) (hs : I s)
    (hstep : ∀ s s', I s → step s = .inl s' → I s') : ∃ s', I s' ∧ step s' = .inr r := by
  obtain ⟨n, hn⟩ := h
  induction n generalizing s with
  | zero => cases hn
  | succ n ih =>
    cases hround : step s with
    | inl s' =>
      rw [run_inl hround] at hn
      exact ih (hstep s s' hs hround) hn
    | inr r' =>
      rw [run_inr hround] at hn
      exact ⟨s, hs, hround.trans (congrArg Sum.inr (Option.some.inj hn))⟩

/-- **The variant rule.**  If a number decreases with each round, the loop ends, after at most one
round more than that number. -/
lemma exists_run_of_variant (v : σ → ℕ)
    (hstep : ∀ t t', Reaches step s t → step t = .inl t' → v t' < v t) :
    ∃ r, run step (v s + 1) s = some r := by
  induction hn : v s using Nat.strong_induction_on generalizing s with
  | _ n ih =>
    cases hround : step s with
    | inr r => exact ⟨r, run_inr hround n⟩
    | inl s' =>
      have hlt : v s' < n := hn ▸ hstep s s' .refl hround
      obtain ⟨r, hr⟩ := ih (v s') hlt (s := s')
        (fun t t' ht => hstep t t' (.head hround ht)) rfl
      refine ⟨r, ?_⟩
      rw [run_inl hround]
      exact run_mono hr hlt

/-- A round that leads back to where it began is repeated for ever. -/
lemma run_of_fixed (h : step s = .inl s) (n : ℕ) : run step n s = none := by
  induction n with
  | zero => rfl
  | succ n ih => rwa [run_inl h]

end Loop

end MuduoChat
