import Mathlib

/-!
# Machines

A machine is a step function with labels.  A label says who takes the step and what the surroundings
choose.  A run is a list of labels; what holds at the beginning and is kept by every step holds in
every state that a run reaches.
-/

namespace MuduoChat

open Relation

/-- A machine with states `S` and labels `A`.  The answer `none` means that the step cannot be taken
now. -/
structure Machine (S A : Type) where
  next : S → A → Option S

namespace Machine

variable {S A : Type} (M : Machine S A)

/-- `t` follows `s` in one step. -/
def Step (s t : S) : Prop := ∃ l, M.next s l = some t

/-- Follow a list of labels. -/
def run (s : S) : List A → Option S
  | [] => some s
  | l :: ls => (M.next s l).bind fun t => run t ls

variable {M} {s t : S} {ls : List A}

/-- What each step of a run does, for steps between states, the whole run does. -/
lemma reaches_of_run_of {R : S → S → Prop} (h : M.run s ls = some t)
    (hR : ∀ s l t, l ∈ ls → M.next s l = some t → R s t) : ReflTransGen R s t := by
  induction ls generalizing s with
  | nil =>
    cases h
    exact .refl
  | cons l ls ih =>
    obtain ⟨u, hu, hrest⟩ := Option.bind_eq_some_iff.1 h
    refine .head (hR s l u List.mem_cons_self hu) (ih hrest fun s l t hl => ?_)
    exact hR s l t (List.mem_cons_of_mem _ hl)

lemma reaches_of_run (h : M.run s ls = some t) : ReflTransGen M.Step s t :=
  reaches_of_run_of h fun _ l _ _ hl => ⟨l, hl⟩

/-- **The invariant rule.** -/
lemma invariant {I : S → Prop} (hstep : ∀ s l t, I s → M.next s l = some t → I t) (hs : I s)
    (h : ReflTransGen M.Step s t) : I t := by
  induction h with
  | refl => exact hs
  | tail _ hst ih =>
    obtain ⟨l, hl⟩ := hst
    exact hstep _ l _ ih hl

/-- A machine that takes only some of the steps. -/
def restrict (M : Machine S A) (p : S → A → Bool) : Machine S A :=
  ⟨fun s l => if p s l then M.next s l else none⟩

lemma restrict_next {p : S → A → Bool} {l : A} :
    (M.restrict p).next s l = some t ↔ p s l = true ∧ M.next s l = some t := by
  simp [restrict]

/-- If each step of a kind makes a measure smaller, a run of such steps is not longer than the
measure at its beginning. -/
lemma length_le_of_decreasing {P : A → Prop} {μ : S → ℕ} {I : S → Prop}
    (hI : ∀ s l t, I s → M.next s l = some t → I t)
    (hμ : ∀ s l t, I s → P l → M.next s l = some t → μ t < μ s) (hs : I s)
    (hP : ∀ l ∈ ls, P l) (h : M.run s ls = some t) : ls.length ≤ μ s := by
  induction ls generalizing s with
  | nil => exact Nat.zero_le _
  | cons l ls ih =>
    obtain ⟨u, hu, hrest⟩ := Option.bind_eq_some_iff.1 h
    have hdecr := hμ s l u hs (hP l List.mem_cons_self) hu
    have hlength := ih (hI s l u hs hu) (fun l hl => hP l (List.mem_cons_of_mem _ hl)) hrest
    simp only [List.length_cons]
    omega

end Machine

end MuduoChat
