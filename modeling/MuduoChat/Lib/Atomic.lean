import MuduoChat.Lib.Prog

/-!
# Programs that run in one step

A call of one interface may be implemented by a program over another one.  Where the caller
sees the whole program as one step, its meaning is the evaluation of the program: every call
is answered in turn, each under its own choice of the surroundings, and nothing happens in
between.  If one of the calls cannot be answered now, neither can the program be run now.

Where the calls of the implementation can be told apart, the caller is instead translated into
one program over the other interface (`Prog.translate`).

There are two ways to reason about an evaluation.  It can be taken apart along the program
(`eval_bind`, `eval_ask`).  Or, if only the calls matter that the program can ever make
(`Prog.Calls`), it is enough to look at each of these calls (`Calls.eval`).
-/

namespace MuduoChat

namespace Prog

variable {E : Sig} {S Ω α β : Type}

/-! ### Evaluation -/

/-- Run a program to its end.  The choices of the surroundings are used up one by one, and
the default one is taken when they have run out. -/
def eval [Inhabited Ω] (h : Handler E S Ω) :
    Prog E α → List Ω → S → Option (Except E.Err α × S)
  | ret a, _, s => some (.ok a, s)
  | fail e, _, s => some (.error e, s)
  | hang, _, _ => none
  | call c k, ωs, s => (h c ωs.headI s).bind fun (r, s₁) => (k r).eval h ωs.tail s₁

section Eval

variable [Inhabited Ω] {h : Handler E S Ω} {ωs : List Ω} {s s₂ : S}

lemma eval_call {c : E.Call} {k : Except E.Err (E.Value c) → Prog E α} {r : Except E.Err α} :
    (call c k).eval h ωs s = some (r, s₂) ↔
      ∃ v s1, h c ωs.headI s = some (v, s1) ∧ (k v).eval h ωs.tail s1 = some (r, s₂) := by
  simp [eval, Option.bind_eq_some_iff]

/-- An evaluation of a composition is one of the first program that ends in an error, or one
that ends in a value, followed by one of the second program. -/
lemma eval_bind {p : Prog E α} {f : α → Prog E β} {r : Except E.Err β}
    (heval : (p >>= f).eval h ωs s = some (r, s₂)) :
    (∃ e, r = .error e ∧ p.eval h ωs s = some (.error e, s₂)) ∨
      ∃ a s1 ωs1, p.eval h ωs s = some (.ok a, s1) ∧
        (f a).eval h ωs1 s1 = some (r, s₂) := by
  induction p generalizing ωs s with
  | ret a => exact .inr ⟨a, s, ωs, rfl, heval⟩
  | fail e =>
    have heq : (Except.error e, s) = (r, s₂) := Option.some.inj heval
    cases heq
    exact .inl ⟨e, rfl, rfl⟩
  | hang => cases heval
  | call c k ih =>
    have hcall : (call c fun v => k v >>= f).eval h ωs s = some (r, s₂) := heval
    obtain ⟨v, s1, hc, hk⟩ := eval_call.1 hcall
    -- the first call is answered in the same way with and without what follows
    rcases ih v hk with ⟨e, hr, he⟩ | ⟨a, s', ωs', ha, hf⟩
    · exact .inl ⟨e, hr, eval_call.2 ⟨v, s1, hc, he⟩⟩
    · exact .inr ⟨a, s', ωs', eval_call.2 ⟨v, s1, hc, ha⟩, hf⟩

lemma eval_ask {c : E.Call} {r : Except E.Err (E.Value c)}
    (heval : (ask c).eval h ωs s = some (r, s₂)) : ∃ ω, h c ω s = some (r, s₂) := by
  obtain ⟨v, s1, hc, hk⟩ := eval_call.1 heval
  refine ⟨ωs.headI, hc.trans ?_⟩
  cases v <;> simpa [eval] using hk

end Eval

/-! ### The calls of a program -/

/-- Every call that the program can ever make, whatever it is answered, is in `P`. -/
def Calls (P : E.Call → Prop) : Prog E α → Prop
  | ret _ => True
  | fail _ => True
  | hang => True
  | call c k => P c ∧ ∀ r, (k r).Calls P

variable {P : E.Call → Prop}

@[simp] lemma calls_ret (a : α) : (ret a : Prog E α).Calls P := trivial

lemma Calls.mono {P' : E.Call → Prop} {p : Prog E α} (hp : p.Calls P) (h : ∀ c, P c → P' c) :
    p.Calls P' := by
  induction p with
  | ret a | fail e | hang => trivial
  | call c k ih => exact ⟨h c hp.1, fun r => ih r (hp.2 r)⟩

lemma Calls.ask {c : E.Call} (hc : P c) : (Prog.ask c).Calls P := by
  refine ⟨hc, fun r => ?_⟩
  cases r <;> trivial

lemma Calls.bind {p : Prog E α} {f : α → Prog E β} (hp : p.Calls P) (hf : ∀ a, (f a).Calls P) :
    (p >>= f).Calls P := by
  induction p with
  | ret a => exact hf a
  | fail e | hang => trivial
  | call c k ih => exact ⟨hp.1, fun r => ih r (hp.2 r)⟩

lemma Calls.ask_bind {c : E.Call} {f : E.Value c → Prog E α} (hc : P c)
    (hf : ∀ v, (f v).Calls P) : (Prog.ask c >>= f).Calls P :=
  Calls.bind (Calls.ask hc) hf

lemma Calls.tryCatch {p : Prog E α} {f : E.Err → Prog E α} (hp : p.Calls P)
    (hf : ∀ e, (f e).Calls P) : (p.tryCatch f).Calls P := by
  induction p with
  | ret a => trivial
  | fail e => exact hf e
  | hang => trivial
  | call c k ih => exact ⟨hp.1, fun r => ih r (hp.2 r)⟩

lemma Calls.when {b : Bool} {p : Prog E Unit} (hp : p.Calls P) : (Prog.when b p).Calls P := by
  cases b
  · trivial
  · exact hp

lemma Calls.ite {b : Prop} [Decidable b] {p q : Prog E α} (hp : p.Calls P) (hq : q.Calls P) :
    (if b then p else q).Calls P := by
  split
  · exact hp
  · exact hq

lemma Calls.forEach {τ : Type} {body : τ → Prog E Unit} (hbody : ∀ x, (body x).Calls P)
    (xs : List τ) : (Prog.forEach body xs).Calls P := by
  induction xs with
  | nil => trivial
  | cons x xs ih => exact Calls.bind (hbody x) fun _ => ih

/-- A program keeps to every contract that allows its calls, and what each of its calls does
to the state, the program does. -/
lemma Calls.sat {C : Contract E S Ω} {R : S → S → Prop} (hhangs : C.hangs)
    (hallow : ∀ c s, P c → C.allow c s) (htrans : ∀ {a b c}, R a b → R b c → R a c)
    (hrely : ∀ s s1, C.rely s s1 → R s s1)
    (hcall : ∀ c ω s r s1, P c → C.handle c ω s = some (r, s1) → R s s1)
    {p : Prog E α} (hp : p.Calls P) (s : S) : p.Sat C (fun _ s1 => R s s1) s := by
  induction p generalizing s with
  | ret a | fail e => exact fun s1 h1 _ => hrely s s1 h1
  | hang => exact fun _ _ _ => hhangs
  | call c k ih =>
    intro s1 h1 _
    refine ⟨hallow c s1 hp.1, fun ω r s₂ hr => (ih r (hp.2 r) s₂).mono fun _ s3 _ h3 => ?_⟩
    exact htrans (hrely s s1 h1) (htrans (hcall c ω s1 r s₂ hp.1 hr) h3)

/-- What each of its calls does to the state, an evaluation does. -/
lemma Calls.eval [Inhabited Ω] {h : Handler E S Ω} {R : S → S → Prop}
    (hrefl : ∀ s, R s s) (htrans : ∀ {a b c}, R a b → R b c → R a c)
    (hcall : ∀ c ω s r s1, P c → h c ω s = some (r, s1) → R s s1)
    {p : Prog E α} (hp : p.Calls P) {ωs : List Ω} {s s₂ : S} {r : Except E.Err α}
    (heval : p.eval h ωs s = some (r, s₂)) : R s s₂ := by
  induction p generalizing ωs s with
  | ret a | fail e =>
    obtain ⟨-, rfl⟩ := answer_inj heval
    exact hrefl s
  | hang => cases heval
  | call c k ih =>
    obtain ⟨v, s1, hc, hk⟩ := eval_call.1 heval
    exact htrans (hcall c _ s v s1 hp.1 hc) (ih v (hp.2 v) hk)

/-! ### Translation -/

variable {F : Sig}

/-- Replace each call of a program by the program that implements it. -/
def translate (f : (c : E.Call) → Prog F (Except E.Err (E.Value c))) :
    Prog E α → Prog F (Except E.Err α)
  | ret a => ret (.ok a)
  | fail e => ret (.error e)
  | hang => hang
  | call c k => f c >>= fun r => (k r).translate f

end Prog

end MuduoChat
