import Mathlib

/-!
# Programs over an interface, and a logic for their calls

A program is a finite tree of calls into an interface: it makes a call, receives an
answer (a value, or an error it may catch), and goes on from there.  A program fixes no
meaning for its calls.  That is the job of a handler, which answers a call in a state and
under a choice of the surroundings, so that one and the same program text can be run
against several stores and under several schedulers.

The logic is a weakest precondition.  `Prog.Sat C Q p s` says of
a program `p` about to be run from the state `s` that every call it makes is one that the
contract `C` allows in the state it is made in, and that it ends only in states that `Q`
accepts.  A contract also names an invariant the program may count on at each call, and
what the others may do to the state between two of its calls.
-/

namespace MuduoChat

/-- An interface: the calls that can be made, the type of what each of them answers, and
the errors a call may end with. -/
structure Sig where
  /-- The calls of the interface. -/
  Call : Type
  /-- What a call answers when it does not end in an error. -/
  Value : Call → Type
  /-- The errors. -/
  Err : Type

/-- Programs over an interface that end in a value of type `α`.  The program `hang` makes
no further call and never ends. -/
inductive Prog (E : Sig) (α : Type) : Type where
  | ret (a : α)
  | fail (e : E.Err)
  | hang
  | call (c : E.Call) (k : Except E.Err (E.Value c) → Prog E α)

/-- A handler answers a call in a state, under a choice `Ω` of the surroundings.  The
answer `none` means that the call cannot be answered now. -/
abbrev Handler (E : Sig) (S Ω : Type) : Type :=
  (c : E.Call) → Ω → S → Option (Except E.Err (E.Value c) × S)

lemma answer_inj {A S : Type} {a a' : A} {s s' : S} (h : some (a, s) = some (a', s')) :
    a = a' ∧ s = s' :=
  Prod.mk.inj (Option.some.inj h)

/-- The contract under which a program is run. -/
structure Contract (E : Sig) (S Ω : Type) where
  /-- How calls are answered. -/
  handle : Handler E S Ω
  /-- What the program may count on whenever it is about to make a call or to end. -/
  inv : S → Prop
  /-- What the others may do to the state between two steps of the program. -/
  rely : S → S → Prop
  /-- The calls the program may make in a state. -/
  allow : E.Call → S → Prop
  /-- Whether the program may fail to end.  A contract with `False` here asks for total
  correctness, since a program makes finitely many calls. -/
  hangs : Prop

namespace Prog

variable {E : Sig} {S Ω α β : Type}

/-- Sequential composition. -/
def bind : Prog E α → (α → Prog E β) → Prog E β
  | ret a, f => f a
  | fail e, _ => fail e
  | hang, _ => hang
  | call c k, f => call c fun r => (k r).bind f

instance : Monad (Prog E) where
  pure := ret
  bind := bind

/-- Run a program and continue with `f` if it ends in an error. -/
def tryCatch : Prog E α → (E.Err → Prog E α) → Prog E α
  | ret a, _ => ret a
  | fail e, f => f e
  | hang, _ => hang
  | call c k, f => call c fun r => (k r).tryCatch f

/-- Make one call and pass its answer on, an error included. -/
def ask (c : E.Call) : Prog E (E.Value c) :=
  call c fun
    | .ok v => ret v
    | .error e => fail e

/-- Run a program only if the condition holds. -/
def when (b : Bool) (p : Prog E Unit) : Prog E Unit := if b then p else pure ()

/-- Run the program of each element of a list, from left to right. -/
def forEach {τ : Type} (body : τ → Prog E Unit) : List τ → Prog E Unit
  | [] => pure ()
  | x :: xs => do
      body x
      forEach body xs

@[simp] lemma bind_ret (a : α) (f : α → Prog E β) : (ret a >>= f) = f a := rfl

lemma bind_ret_right (p : Prog E α) : (p >>= ret) = p := by
  induction p with
  | ret a | fail e | hang => rfl
  | call c k ih => exact congrArg (call c) (funext ih)

lemma bind_assoc {γ : Type} (p : Prog E α) (f : α → Prog E β) (g : β → Prog E γ) :
    (p >>= f) >>= g = p >>= fun a => f a >>= g := by
  induction p with
  | ret a | fail e | hang => rfl
  | call c k ih => exact congrArg (call c) (funext ih)

@[simp] lemma pure_eq_ret (a : α) : (pure a : Prog E α) = ret a := rfl

/-! ### The logic -/

/-- Every call of the program is allowed by the contract in the state it is made in, and
the program ends only in states that `Q` accepts, if it ends. -/
def Sat (C : Contract E S Ω) (Q : Except E.Err α → S → Prop) : Prog E α → S → Prop
  | ret a, s => ∀ s₁, C.rely s s₁ → C.inv s₁ → Q (.ok a) s₁
  | fail e, s => ∀ s₁, C.rely s s₁ → C.inv s₁ → Q (.error e) s₁
  | hang, s => ∀ s₁, C.rely s s₁ → C.inv s₁ → C.hangs
  | call c k, s => ∀ s₁, C.rely s s₁ → C.inv s₁ →
      C.allow c s₁ ∧ ∀ ω r s₂, C.handle c ω s₁ = some (r, s₂) → (k r).Sat C Q s₂

variable {C : Contract E S Ω} {Q Q' : Except E.Err α → S → Prop}

variable {p : Prog E α} {s : S}

lemma Sat.stable (htrans : ∀ a b c, C.rely a b → C.rely b c → C.rely a c)
    {s1 : S} (h : p.Sat C Q s) (hs : C.rely s s1) : p.Sat C Q s1 := by
  cases p with
  | ret a | fail e | hang | call c k => exact fun s2 h2 => h s2 (htrans _ _ _ hs h2)

lemma Sat.mono (h : p.Sat C Q s)
    (hQ : ∀ r s, C.inv s → Q r s → Q' r s) : p.Sat C Q' s := by
  induction p generalizing s with
  | ret a | fail e => exact fun s1 h1 hi => hQ _ _ hi (h s1 h1 hi)
  | hang => exact h
  | call c k ih =>
    intro s1 h1 hi
    obtain ⟨hallow, hk⟩ := h s1 h1 hi
    exact ⟨hallow, fun ω r s2 hr => ih r (hk ω r s2 hr)⟩

/-- A program is ready to run as soon as it is ready whatever the others do first. -/
lemma Sat.of_rely (hrefl : ∀ s, C.rely s s)
    (h : ∀ s1, C.rely s s1 → C.inv s1 → p.Sat C Q s1) : p.Sat C Q s := by
  cases p with
  | ret a | fail e | hang | call c k => exact fun s1 h1 hi => h s1 h1 hi s1 (hrefl s1) hi

/-- The composition rule: the second program is run from every state in which the first
one ends in a value, and an error of the first one is an error of both. -/
lemma Sat.bind {f : α → Prog E β} {Q : Except E.Err β → S → Prop}
    (hrefl : ∀ s, C.rely s s)
    (h : p.Sat C (fun r s1 => match r with
      | .ok a => (f a).Sat C Q s1
      | .error e => Q (.error e) s1) s) :
    (p >>= f).Sat C Q s := by
  induction p generalizing s with
  | ret a => exact Sat.of_rely hrefl fun s1 h1 hi => h s1 h1 hi
  | fail e | hang => exact h
  | call c k ih =>
    intro s1 h1 hi
    obtain ⟨hallow, hk⟩ := h s1 h1 hi
    exact ⟨hallow, fun ω r s2 hr => ih r (hk ω r s2 hr)⟩

/-- The rule for a caught error: the handler of the error is run from every state in
which the program ends in one. -/
lemma Sat.tryCatch {f : E.Err → Prog E α} (hrefl : ∀ s, C.rely s s)
    (h : p.Sat C (fun r s1 => match r with
      | .ok a => Q (.ok a) s1
      | .error e => (f e).Sat C Q s1) s) :
    (p.tryCatch f).Sat C Q s := by
  induction p generalizing s with
  | ret a => exact h
  | fail e => exact Sat.of_rely hrefl fun s1 h1 hi => h s1 h1 hi
  | hang => exact h
  | call c k ih =>
    intro s1 h1 hi
    obtain ⟨hallow, hk⟩ := h s1 h1 hi
    exact ⟨hallow, fun ω r s2 hr => ih r (hk ω r s2 hr)⟩

lemma Sat.ask {c : E.Call} {Q : Except E.Err (E.Value c) → S → Prop}
    (h : ∀ s1, C.rely s s1 → C.inv s1 → C.allow c s1 ∧
      ∀ ω r s2, C.handle c ω s1 = some (r, s2) →
        ∀ s3, C.rely s2 s3 → C.inv s3 → Q r s3) :
    (ask c).Sat C Q s := by
  intro s1 h1 hi
  obtain ⟨hallow, hk⟩ := h s1 h1 hi
  refine ⟨hallow, fun ω r s2 hr => ?_⟩
  cases r with
  | ok v | error e => exact fun s3 h3 hi3 => hk ω _ s2 hr s3 h3 hi3

lemma Sat.ask_bind {c : E.Call} {f : E.Value c → Prog E α}
    (h : ∀ s1, C.rely s s1 → C.inv s1 → C.allow c s1 ∧
      ∀ ω r s2, C.handle c ω s1 = some (r, s2) → match r with
        | .ok v => (f v).Sat C Q s2
        | .error e => (fail e : Prog E α).Sat C Q s2) :
    (Prog.ask c >>= f).Sat C Q s := by
  intro s1 h1 hi
  obtain ⟨hallow, hk⟩ := h s1 h1 hi
  refine ⟨hallow, fun ω r s2 hr => ?_⟩
  have hk' := hk ω r s2 hr
  cases r with
  | ok v | error e => exact hk'

lemma Sat.ite {b : Prop} [Decidable b] {q : Prog E α} (hp : b → p.Sat C Q s)
    (hq : ¬ b → q.Sat C Q s) : (if b then p else q).Sat C Q s := by
  split
  case isTrue h => exact hp h
  case isFalse h => exact hq h

/-- The rule for a loop over a list.  The assertion `P` speaks of the elements that are
still to come. -/
lemma Sat.forEach {τ : Type} {body : τ → Prog E Unit} {Q : Except E.Err Unit → S → Prop}
    (hrefl : ∀ s, C.rely s s) {P : List τ → S → Prop}
    (hnil : ∀ s, P [] s → (ret () : Prog E Unit).Sat C Q s)
    (hcons : ∀ x xs s, P (x :: xs) s → (body x).Sat C (fun r s1 => match r with
      | .ok _ => P xs s1
      | .error e => Q (.error e) s1) s) :
    ∀ (xs : List τ) (s : S), P xs s → (forEach body xs).Sat C Q s := by
  intro xs
  induction xs with
  | nil => exact fun s hP => hnil s hP
  | cons x xs ih =>
    intro s hP
    refine Sat.bind hrefl ((hcons x xs s hP).mono ?_)
    intro r s1 _ hr
    cases r with
    | ok _ => exact ih s1 hr
    | error e => exact hr

/-! ### Change of contract -/

/-- A program keeps to a more generous contract as well: one that answers calls in fewer ways,
grants a stronger invariant, lets the others do less, and allows more calls. -/
lemma Sat.weaken {C' : Contract E S Ω}
    (hhandle : ∀ c ω s x, C'.handle c ω s = some x → C.handle c ω s = some x)
    (hinv : ∀ s, C'.inv s → C.inv s) (hrely : ∀ s s1, C'.rely s s1 → C.rely s s1)
    (hhangs : C.hangs → C'.hangs) (hallow : ∀ c s, C'.inv s → C.allow c s → C'.allow c s)
    (h : p.Sat C Q s) : p.Sat C' Q s := by
  induction p generalizing s with
  | ret a | fail e => exact fun s1 h1 hi => h s1 (hrely s s1 h1) (hinv s1 hi)
  | hang => exact fun s1 h1 hi => hhangs (h s1 (hrely s s1 h1) (hinv s1 hi))
  | call c k ih =>
    intro s1 h1 hi
    obtain ⟨hc, hk⟩ := h s1 (hrely s s1 h1) (hinv s1 hi)
    exact ⟨hallow c s1 hi hc, fun ω r s2 hr => ih r (hk ω r s2 (hhandle c ω s1 _ hr))⟩

lemma Sat.of_allow {C' : Contract E S Ω} (hhandle : C'.handle = C.handle) (hinv : C'.inv = C.inv)
    (hrely : C'.rely = C.rely) (hhangs : C.hangs → C'.hangs)
    (hallow : ∀ c s, C.inv s → C.allow c s → C'.allow c s)
    (h : p.Sat C Q s) : p.Sat C' Q s :=
  h.weaken (fun _ _ _ _ hx => hhandle ▸ hx) (fun _ hi => hinv ▸ hi) (fun _ _ hr => hrely ▸ hr)
    hhangs fun c s hi => hallow c s (hinv ▸ hi)

/-- Two contracts that a program keeps to, as one: it may count on both invariants and it
respects both lists of calls.  Calls may be answered in fewer ways than either contract
assumes. -/
lemma Sat.and {C1 C2 : Contract E S Ω} {Q1 Q2 : Except E.Err α → S → Prop}
    (hhandle : ∀ c ω s x, C.handle c ω s = some x →
      C1.handle c ω s = some x ∧ C2.handle c ω s = some x)
    (hrely : ∀ s s1, C.rely s s1 → C1.rely s s1 ∧ C2.rely s s1)
    (hinv : ∀ s, C.inv s → C1.inv s ∧ C2.inv s)
    (hallow : ∀ c s, C.inv s → C1.allow c s → C2.allow c s → C.allow c s)
    (hhangs : C1.hangs → C2.hangs → C.hangs)
    (h1 : p.Sat C1 Q1 s) (h2 : p.Sat C2 Q2 s) : p.Sat C (fun r s1 => Q1 r s1 ∧ Q2 r s1) s := by
  induction p generalizing s with
  | ret a | fail e =>
    intro s1 hs hi
    exact ⟨h1 s1 (hrely s s1 hs).1 (hinv s1 hi).1, h2 s1 (hrely s s1 hs).2 (hinv s1 hi).2⟩
  | hang =>
    intro s1 hs hi
    exact hhangs (h1 s1 (hrely s s1 hs).1 (hinv s1 hi).1)
      (h2 s1 (hrely s s1 hs).2 (hinv s1 hi).2)
  | call c k ih =>
    intro s1 hs hi
    obtain ⟨hc1, hk1⟩ := h1 s1 (hrely s s1 hs).1 (hinv s1 hi).1
    obtain ⟨hc2, hk2⟩ := h2 s1 (hrely s s1 hs).2 (hinv s1 hi).2
    refine ⟨hallow c s1 hi hc1 hc2, fun ω r s2 hr => ?_⟩
    obtain ⟨hr1, hr2⟩ := hhandle c ω s1 (r, s2) hr
    exact ih r (hk1 ω r s2 hr1) (hk2 ω r s2 hr2)

/-- What each allowed call does to the state, the whole program does. -/
lemma Sat.frame {R : S → S → Prop} (htrans : ∀ {a b c}, R a b → R b c → R a c)
    (hrely : ∀ s s1, C.rely s s1 → R s s1)
    (hcall : ∀ c ω s r s2, C.inv s → C.allow c s → C.handle c ω s = some (r, s2) → R s s2)
    (h : p.Sat C Q s) : p.Sat C (fun r s1 => Q r s1 ∧ R s s1) s := by
  induction p generalizing s with
  | ret a | fail e => exact fun s1 h1 hi => ⟨h s1 h1 hi, hrely s s1 h1⟩
  | hang => exact h
  | call c k ih =>
    intro s1 h1 hi
    obtain ⟨hc, hk⟩ := h s1 h1 hi
    refine ⟨hc, fun ω r s2 hr => (ih r (hk ω r s2 hr)).mono ?_⟩
    rintro r' s3 - ⟨hQ, h3⟩
    exact ⟨hQ, htrans (hrely s s1 h1) (htrans (hcall c ω s1 r s2 hi hc hr) h3)⟩

/-! ### Programs that end in a value -/

/-- The program ends in a value, and `P` holds then. -/
def Returns (P : α → S → Prop) : Except E.Err α → S → Prop
  | .ok a, s => P a s
  | .error _, _ => False

variable {P : α → S → Prop}

lemma Sat.returns_mono {P' : α → S → Prop} (h : p.Sat C (Returns P) s)
    (hP : ∀ a s, C.inv s → P a s → P' a s) : p.Sat C (Returns P') s := by
  refine h.mono fun r s1 hi hr => ?_
  cases r with
  | ok a => exact hP a s1 hi hr
  | error e => exact hr

lemma Sat.returns_bind {f : α → Prog E β} {Q : Except E.Err β → S → Prop}
    (hrefl : ∀ s, C.rely s s) (h : p.Sat C (Returns P) s)
    (hf : ∀ a s1, C.inv s1 → P a s1 → (f a).Sat C Q s1) : (p >>= f).Sat C Q s := by
  refine Sat.bind hrefl (h.mono fun r s1 hi hr => ?_)
  cases r with
  | ok a => exact hf a s1 hi hr
  | error e => exact absurd hr id

/-- The rule for a program that is run only under a condition. -/
lemma Sat.returns_when {b : Bool} {P : Unit → S → Prop} {p : Prog E Unit}
    (htrue : b = true → p.Sat C (Returns P) s)
    (hfalse : b = false → (ret () : Prog E Unit).Sat C (Returns P) s) :
    (Prog.when b p).Sat C (Returns P) s := by
  cases b with
  | true => exact htrue rfl
  | false => exact hfalse rfl

/-- Where there is no error, nothing is caught. -/
lemma Sat.returns_tryCatch {f : E.Err → Prog E α}
    (hrefl : ∀ s, C.rely s s) (h : p.Sat C (Returns P) s) :
    (p.tryCatch f).Sat C (Returns P) s := by
  refine Sat.tryCatch hrefl (h.mono fun r s1 hi hr => ?_)
  cases r with
  | ok a => exact hr
  | error e => exact absurd hr id

/-- The rule for a loop whose body always ends in a value. -/
lemma Sat.returns_forEach {τ : Type} {body : τ → Prog E Unit} (hrefl : ∀ s, C.rely s s)
    {P : List τ → S → Prop} (hstable : ∀ s s1, C.rely s s1 → P [] s → P [] s1)
    (hcons : ∀ x xs s, P (x :: xs) s → (body x).Sat C (Returns fun _ s1 => P xs s1) s)
    (xs : List τ) (s : S) (h : P xs s) :
    (Prog.forEach body xs).Sat C (Returns fun _ s1 => P [] s1) s := by
  induction xs generalizing s with
  | nil => exact fun s1 h1 _ => hstable s s1 h1 h
  | cons x xs ih => exact Sat.returns_bind hrefl (hcons x xs s h) fun _ s1 _ h1 => ih s1 h1

/-! ### Programs that may end in an error -/

/-- If the program ends in a value, `P` holds then. -/
def Ends (P : α → S → Prop) : Except E.Err α → S → Prop
  | .ok a, s => P a s
  | .error _, _ => True

lemma Sat.ends_mono {P' : α → S → Prop} (h : p.Sat C (Ends P) s)
    (hP : ∀ a s, C.inv s → P a s → P' a s) : p.Sat C (Ends P') s := by
  refine h.mono fun r s1 hi hr => ?_
  cases r with
  | ok a => exact hP a s1 hi hr
  | error e => trivial

/-- The composition rule where errors are passed on. -/
lemma Sat.ends_bind {P' : β → S → Prop} {f : α → Prog E β}
    (hrefl : ∀ s, C.rely s s) (h : p.Sat C (Ends P) s)
    (hf : ∀ a s1, C.inv s1 → P a s1 → (f a).Sat C (Ends P') s1) :
    (p >>= f).Sat C (Ends P') s := by
  refine Sat.bind hrefl (h.mono fun r s1 hi hr => ?_)
  cases r with
  | ok a => exact hf a s1 hi hr
  | error e => trivial

lemma Sat.ends_forEach {τ : Type} {body : τ → Prog E Unit} (hrefl : ∀ s, C.rely s s)
    {P : List τ → S → Prop} (hstable : ∀ s s1, C.rely s s1 → P [] s → P [] s1)
    (hcons : ∀ x xs s, P (x :: xs) s → (body x).Sat C (Ends fun _ s1 => P xs s1) s)
    (xs : List τ) (s : S) (h : P xs s) :
    (Prog.forEach body xs).Sat C (Ends fun _ s1 => P [] s1) s := by
  induction xs generalizing s with
  | nil => exact fun s1 h1 _ => hstable s s1 h1 h
  | cons x xs ih => exact Sat.ends_bind hrefl (hcons x xs s h) fun _ s1 _ h1 => ih s1 h1

end Prog

end MuduoChat
