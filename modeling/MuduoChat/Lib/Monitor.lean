import MuduoChat.Lib.Atomic
import MuduoChat.Lib.Parallel

/-!
# Monitors

A monitor watches the calls of a program and their answers.  It has a state of its own, and in
each state there are calls that it permits.  A program follows the monitor if it only makes calls
that are permitted, however its calls are answered.  So a monitor says in which order a program
makes its calls, and nothing about the state that the calls work on.

In a system of parties that follow a monitor, each party has a state of the monitor
(`Parallel.Watched`).  An invariant of the system can then relate the shared state to the states
of the monitors.
-/

namespace MuduoChat

structure Monitor (E : Sig) (Q : Type) where
  /-- The calls that may be made. -/
  permits : Q → E.Call → Prop
  /-- The state after a call has been answered. -/
  after : Q → (c : E.Call) → Except E.Err (E.Value c) → Q

namespace Prog

variable {E : Sig} {Q α β : Type}

/-- The program makes only calls that the monitor permits, it does not hang, and the monitor is in
one of the states `R` when it ends. -/
def Follows (D : Monitor E Q) (R : Q → Prop) : Prog E α → Q → Prop
  | ret _, q => R q
  | fail _, q => R q
  | hang, _ => False
  | call c k, q => D.permits q c ∧ ∀ r, (k r).Follows D R (D.after q c r)

variable {D : Monitor E Q} {R R' : Q → Prop} {q : Q}

lemma Follows.bind {p : Prog E α} {f : α → Prog E β} (h : p.Follows D R q)
    (hR : E.Err → ∀ q, R q → R' q)
    (hf : ∀ a q, R q → (f a).Follows D R' q) : (p >>= f).Follows D R' q := by
  induction p generalizing q with
  | ret a => exact hf a q h
  | fail e => exact hR e q h
  | hang => exact h
  | call c k ih => exact ⟨h.1, fun r => ih r (h.2 r)⟩

lemma Follows.ask {c : E.Call} (hc : D.permits q c) (hR : ∀ r, R (D.after q c r)) :
    (Prog.ask c).Follows D R q := by
  refine ⟨hc, fun r => ?_⟩
  cases r with
  | ok v => exact hR (.ok v)
  | error e => exact hR (.error e)

lemma Follows.ask_bind {c : E.Call} {f : E.Value c → Prog E α} (hc : D.permits q c)
    (hok : ∀ v, (f v).Follows D R (D.after q c (.ok v)))
    (herror : ∀ e, R (D.after q c (.error e))) : (Prog.ask c >>= f).Follows D R q := by
  refine ⟨hc, fun r => ?_⟩
  cases r with
  | ok v => exact hok v
  | error e => exact herror e

lemma Follows.ite {b : Prop} [Decidable b] {p p' : Prog E α} (hp : b → p.Follows D R q)
    (hp' : ¬b → p'.Follows D R q) : (if b then p else p').Follows D R q := by
  split
  case isTrue h => exact hp h
  case isFalse h => exact hp' h

lemma Follows.forEach {τ : Type} {body : τ → Prog E Unit}
    (hbody : ∀ x q, R q → (body x).Follows D R q) (xs : List τ) (hq : R q) :
    (Prog.forEach body xs).Follows D R q := by
  induction xs generalizing q with
  | nil => exact hq
  | cons x xs ih => exact (hbody x q hq).bind (fun _ _ h => h) fun _ _ h => ih h

/-- A program whose calls are replaced by programs follows a monitor if these lead from a state of
the monitor back to it.  That the program follows a monitor of its own is needed only because it
must not hang. -/
lemma Follows.translate {F : Sig} {Q' : Type} {D' : Monitor F Q'} {q' : Q'}
    {f : (c : E.Call) → Prog F (Except E.Err (E.Value c))}
    (hf : ∀ c, (f c).Follows D' (· = q') q') {p : Prog E α} (hp : p.Follows D R q) :
    (p.translate f).Follows D' (· = q') q' := by
  induction p generalizing q with
  | ret a => rfl
  | fail e => rfl
  | hang => exact hp.elim
  | call c k ih =>
    refine (hf c).bind (fun _ _ h => h) fun r q'' hq'' => ?_
    subst hq''
    exact ih r (hp.2 r)

end Prog

namespace Parallel

variable {E : Sig} {ι S Ω Op Out Q : Type}

/-- Each party follows the monitor from its state, and a party at rest is in the state `q₀`. -/
structure Watched (D : Monitor E Q) (q₀ : Q) (a : Config E ι S Op Out) (q : ι → Q) : Prop where
  rest : ∀ i t, a.running i = some t → t.rest.Follows D (· = q₀) (q i)
  idle : ∀ i, a.running i = none → q i = q₀

variable [DecidableEq ι] {M : Parallel E ι S Ω Op Out} {D : Monitor E Q} {q₀ : Q} {q : ι → Q}
  {a b : Config E ι S Op Out} {l : Choice ι Ω Op}

/-- A step of one party, as the monitors see it: there is no call, or there is one that is
permitted. -/
lemma Watched.next (ha : Watched D q₀ a q) (hcode : ∀ i op, (M.code i op).Follows D (· = q₀) q₀)
    (h : M.next a l = some b) :
    (b.world = a.world ∧ Watched D q₀ b q) ∨
      ∃ i ω op c k r, l = .advance i ω ∧ a.running i = some ⟨op, .call c k⟩ ∧
        D.permits (q i) c ∧ M.handle i c ω a.world = some (r, b.world) ∧
        Watched D q₀ b (Function.update q i (D.after (q i) c r)) := by
  -- what is known of the other parties does not change
  have rest {i : ι} {t' : Option (Task E Op Out)} {w : S} {fs : List (Done E ι Op Out)} {q' : ι → Q}
      (hother : ∀ j, j ≠ i → q' j = q j)
      (hrest : ∀ t, t' = some t → t.rest.Follows D (· = q₀) (q' i))
      (hidle : t' = none → q' i = q₀) :
      Watched D q₀ ⟨w, Function.update a.running i t', fs⟩ q' := by
    refine ⟨fun j t ht => ?_, fun j hj => ?_⟩
    · by_cases hij : j = i
      · subst hij
        exact hrest t (by simpa using ht)
      · rw [hother j hij]
        exact ha.rest j t (by simpa [Function.update_of_ne hij] using ht)
    · by_cases hij : j = i
      · subst hij
        exact hidle (by simpa using hj)
      · rw [hother j hij]
        exact ha.idle j (by simpa [Function.update_of_ne hij] using hj)
  rcases next_cases h with ⟨i, op, -, hr, rfl⟩ | ⟨i, ω, op, v, -, hr, rfl⟩ |
    ⟨i, ω, op, e, -, hr, rfl⟩ | ⟨i, ω, op, c, k, r, w, hl, hr, hw, rfl⟩
  · refine .inl ⟨rfl, rest (fun _ _ => rfl) ?_ (by simp)⟩
    rintro _ ⟨⟩
    rw [ha.idle i hr]
    exact hcode i op
  · exact .inl ⟨rfl, rest (fun _ _ => rfl) (by simp) fun _ => ha.rest i _ hr⟩
  · exact .inl ⟨rfl, rest (fun _ _ => rfl) (by simp) fun _ => ha.rest i _ hr⟩
  · obtain ⟨hpermits, hk⟩ := ha.rest i _ hr
    refine .inr ⟨i, ω, op, c, k, r, hl, hr, hpermits, hw, rest ?_ ?_ (by simp)⟩
    · exact fun j hj => Function.update_of_ne hj _ _
    · rintro _ ⟨⟩
      rw [Function.update_self]
      exact hk r

end Parallel

end MuduoChat
