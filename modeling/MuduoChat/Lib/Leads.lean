import MuduoChat.Lib.Atomic

/-!
# Symbolic execution of programs

Where the answer to a call does not depend on the surroundings, a program can be run on paper:
`Prog.Leads h p s q s'` says that running `p` from `s` comes to the same as running what is left
of it, `q`, from `s'`.  Both ways of ending are covered by this, and so is a program that hangs.
`Prog.Gives h Q p s` is the corresponding statement for a program that may be answered in several
ways: it hangs, or it ends in a value that `Q` accepts.
-/

namespace MuduoChat

namespace Prog

variable {E : Sig} {S Ω α β : Type} [Inhabited Ω] {h : Handler E S Ω} {s s₁ s₂ : S}

/-! ### Running a program on paper -/

/-- Whatever the surroundings choose, and whatever is done afterwards, `p` from `s` comes to the
same as `q` from `s₁`. -/
def Leads (h : Handler E S Ω) (p : Prog E α) (s : S) (q : Prog E α) (s₁ : S) : Prop :=
  ∀ ωs, ∃ ωs₁, ∀ (β : Type) (f : α → Prog E β),
    (p >>= f).eval h ωs s = (q >>= f).eval h ωs₁ s₁

lemma Leads.refl (p : Prog E α) (s : S) : Leads h p s p s := fun ωs => ⟨ωs, fun _ _ => rfl⟩

variable {p : Prog E α}

lemma Leads.trans {q r : Prog E α} (hp : Leads h p s q s₁) (hq : Leads h q s₁ r s₂) :
    Leads h p s r s₂ := by
  intro ωs
  obtain ⟨ωs1, hp⟩ := hp ωs
  obtain ⟨ωs2, hq⟩ := hq ωs1
  exact ⟨ωs2, fun β f => (hp β f).trans (hq β f)⟩

lemma Leads.eval {q : Prog E α} (hp : Leads h p s q s₁) (ωs : List Ω) :
    ∃ ωs1, p.eval h ωs s = q.eval h ωs1 s₁ := by
  obtain ⟨ωs1, hp⟩ := hp ωs
  refine ⟨ωs1, ?_⟩
  have hret := hp α ret
  rwa [bind_ret_right, bind_ret_right] at hret

/-- What follows a program follows what is left of it. -/
lemma Leads.bind_right {q : Prog E α} (hp : Leads h p s q s₁) (f : α → Prog E β) :
    Leads h (p >>= f) s (q >>= f) s₁ := by
  intro ωs
  obtain ⟨ωs1, hp⟩ := hp ωs
  refine ⟨ωs1, fun γ g => ?_⟩
  rw [bind_assoc, bind_assoc]
  exact hp γ fun a => f a >>= g

/-- Running the first part of a composition to its end.  What is left of the choices does not depend
on what follows. -/
lemma eval_bind_of_eval {a : α} {ωs : List Ω}
    (heval : p.eval h ωs s = some (.ok a, s₁)) :
    ∃ ωs1, ∀ (β : Type) (f : α → Prog E β), (p >>= f).eval h ωs s = (f a).eval h ωs1 s₁ := by
  induction p generalizing ωs s with
  | ret b =>
    obtain ⟨hb, rfl⟩ := answer_inj heval
    cases hb
    exact ⟨ωs, fun _ _ => rfl⟩
  | fail e => cases (answer_inj heval).1
  | hang => cases heval
  | call c k ih =>
    obtain ⟨v, s', hc, hk⟩ := eval_call.1 heval
    obtain ⟨ωs1, hrest⟩ := ih v hk
    refine ⟨ωs1, fun β f => ?_⟩
    have hstep : (call c k >>= f).eval h ωs s = (k v >>= f).eval h ωs.tail s' := by
      show (h c ωs.headI s).bind _ = _
      rw [hc]
      rfl
    rw [hstep, hrest]

lemma Leads.of_eval {a : α} (hp : ∀ ωs, p.eval h ωs s = some (.ok a, s₁)) :
    Leads h p s (ret a) s₁ :=
  fun ωs => eval_bind_of_eval (hp ωs)

/-- Where the first part of a composition hangs, the composition does. -/
lemma eval_bind_of_none {f : α → Prog E β} {ωs : List Ω}
    (heval : p.eval h ωs s = none) : (p >>= f).eval h ωs s = none := by
  cases hall : (p >>= f).eval h ωs s with
  | none => rfl
  | some x =>
    obtain ⟨r, s'⟩ := x
    rcases eval_bind hall with ⟨e, -, he⟩ | ⟨a, s₁, ωs1, ha, -⟩
    · rw [heval] at he
      cases he
    · rw [heval] at ha
      cases ha

lemma Leads.bind {f : α → Prog E β} {a : α} (hp : Leads h p s (ret a) s₁) :
    Leads h (p >>= f) s (f a) s₁ :=
  hp.bind_right f

/-- The rule for a call whose answer does not depend on the surroundings. -/
lemma Leads.ask {c : E.Call} {v : E.Value c} (hc : ∀ ω, h c ω s = some (.ok v, s₁)) :
    Leads h (ask c) s (ret v) s₁ := by
  refine fun ωs => ⟨ωs.tail, fun β f => ?_⟩
  show (h c ωs.headI s).bind _ = _
  rw [hc]
  rfl

/-! ### Programs that hang or end in a value -/

/-- Whatever the surroundings choose, the program hangs, or it ends in a value that `Q`
accepts. -/
def Gives (h : Handler E S Ω) (Q : α → S → Prop) (p : Prog E α) (s : S) : Prop :=
  ∀ ωs, p.eval h ωs s = none ∨ ∃ a s₁, p.eval h ωs s = some (.ok a, s₁) ∧ Q a s₁

variable {Q : α → S → Prop}

lemma Gives.mono {Q' : α → S → Prop} (hp : Gives h Q p s)
    (hQ : ∀ a s, Q a s → Q' a s) : Gives h Q' p s := by
  intro ωs
  rcases hp ωs with hnone | ⟨a, s₁, ha, hqa⟩
  · exact .inl hnone
  · exact .inr ⟨a, s₁, ha, hQ a s₁ hqa⟩

lemma Gives.of_eval {a : α} {ωs : List Ω} (hp : Gives h Q p s)
    (heval : p.eval h ωs s = some (.ok a, s₁)) : Q a s₁ := by
  rcases hp ωs with hnone | ⟨a', s', ha, hQ⟩
  · rw [heval] at hnone
    cases hnone
  · rw [heval] at ha
    cases ha
    exact hQ

lemma Gives.ret {a : α} (hQ : Q a s) : Gives h Q (ret a) s :=
  fun _ => .inr ⟨a, s, rfl, hQ⟩

lemma Gives.hang : Gives h Q (hang : Prog E α) s := fun _ => .inl rfl

lemma Gives.of_leads {q : Prog E α} (hp : Leads h p s q s₁)
    (hq : Gives h Q q s₁) : Gives h Q p s := by
  intro ωs
  obtain ⟨ωs1, hp⟩ := hp.eval ωs
  rw [hp]
  exact hq ωs1

lemma Gives.bind {Q : β → S → Prop} {f : α → Prog E β}
    (hp : Gives h (fun a s₁ => Gives h Q (f a) s₁) p s) : Gives h Q (p >>= f) s := by
  intro ωs
  rcases hp ωs with hnone | ⟨a, s₁, ha, hqa⟩
  · exact .inl (eval_bind_of_none hnone)
  · obtain ⟨ωs1, hrest⟩ := eval_bind_of_eval ha
    rw [hrest]
    exact hqa ωs1

lemma Gives.ask {c : E.Call} {Q : E.Value c → S → Prop}
    (hc : ∀ ω, ∃ v s₁, h c ω s = some (.ok v, s₁) ∧ Q v s₁) : Gives h Q (ask c) s := by
  intro ωs
  obtain ⟨v, s₁, hv, hQ⟩ := hc ωs.headI
  refine .inr ⟨v, s₁, ?_, hQ⟩
  show (h c ωs.headI s).bind _ = _
  rw [hv]
  rfl

/-- A loop over a list.  The assertion `P` speaks of the elements that are still to come. -/
lemma Gives.forEach {τ : Type} {body : τ → Prog E Unit} {P : List τ → S → Prop}
    (hcons : ∀ x xs s, P (x :: xs) s → Gives h (fun _ s₁ => P xs s₁) (body x) s) (xs : List τ)
    (s : S) (hP : P xs s) : Gives h (fun _ s₁ => P [] s₁) (Prog.forEach body xs) s := by
  induction xs generalizing s with
  | nil => exact Gives.ret hP
  | cons x xs ih => exact Gives.bind ((hcons x xs s hP).mono fun _ s₁ h1 => ih s₁ h1)

end Prog

end MuduoChat
