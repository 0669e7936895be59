import MuduoChat.Lib.Atomic

/-!
# Programs that end in a value

`Prog.Completes h P Q p s` says that a program, run on its own from `s`, ends in a value that `Q`
accepts, whatever the surroundings choose among what `P` admits: every call is answered, and no
error is left over.  It is a weakest precondition for total correctness, and `Completes.eval`
brings it to the evaluation of a program in one step.
-/

namespace MuduoChat

namespace Prog

variable {E : Sig} {S Ω α β : Type}

/-- However the surroundings choose within `P`, the program ends in a value that `Q` accepts. -/
def Completes (h : Handler E S Ω) (P : Ω → Prop) (Q : α → S → Prop) : Prog E α → S → Prop
  | ret a, s => Q a s
  | fail _, _ => False
  | hang, _ => False
  | call c k, s => ∀ ω, P ω → ∃ r s₁, h c ω s = some (r, s₁) ∧ (k r).Completes h P Q s₁

variable {h : Handler E S Ω} {P : Ω → Prop}

lemma Completes.mono {Q Q' : α → S → Prop} {p : Prog E α} {s : S} (hp : p.Completes h P Q s)
    (hQ : ∀ a s, Q a s → Q' a s) : p.Completes h P Q' s := by
  induction p generalizing s with
  | ret a => exact hQ a s hp
  | fail e | hang => exact hp
  | call c k ih =>
    intro ω hω
    obtain ⟨r, s1, hr, hk⟩ := hp ω hω
    exact ⟨r, s1, hr, ih r hk⟩

lemma Completes.bind {f : α → Prog E β} {Q : β → S → Prop} {p : Prog E α} {s : S}
    (hp : p.Completes h P (fun a s1 => (f a).Completes h P Q s1) s) :
    (p >>= f).Completes h P Q s := by
  induction p generalizing s with
  | ret a | fail e | hang => exact hp
  | call c k ih =>
    intro ω hω
    obtain ⟨r, s1, hr, hk⟩ := hp ω hω
    exact ⟨r, s1, hr, ih r hk⟩

/-- No error is left to be caught. -/
lemma Completes.tryCatch {f : E.Err → Prog E α} {Q : α → S → Prop} {p : Prog E α} {s : S}
    (hp : p.Completes h P Q s) : (p.tryCatch f).Completes h P Q s := by
  induction p generalizing s with
  | ret a => exact hp
  | fail e => exact absurd hp id
  | hang => exact hp
  | call c k ih =>
    intro ω hω
    obtain ⟨r, s1, hr, hk⟩ := hp ω hω
    exact ⟨r, s1, hr, ih r hk⟩

lemma Completes.ask {c : E.Call} {Q : E.Value c → S → Prop} {s : S}
    (hc : ∀ ω, P ω → ∃ v s1, h c ω s = some (.ok v, s1) ∧ Q v s1) :
    (ask c).Completes h P Q s := by
  intro ω hω
  obtain ⟨v, s1, hv, hQ⟩ := hc ω hω
  exact ⟨.ok v, s1, hv, hQ⟩

lemma Completes.eval [Inhabited Ω] (hdefault : P default) {Q : α → S → Prop} {p : Prog E α} {s : S}
    (hp : p.Completes h P Q s) {ωs : List Ω} (hωs : ∀ ω ∈ ωs, P ω) :
    ∃ a s1, p.eval h ωs s = some (.ok a, s1) ∧ Q a s1 := by
  induction p generalizing s ωs with
  | ret a => exact ⟨a, s, rfl, hp⟩
  | fail e | hang => exact absurd hp id
  | call c k ih =>
    have hhead : P ωs.headI := by
      cases ωs with
      | nil => exact hdefault
      | cons ω ωs => exact hωs ω (by simp)
    obtain ⟨r, s1, hr, hk⟩ := hp ωs.headI hhead
    obtain ⟨a, s2, heval, hQ⟩ := ih r hk fun ω hω => hωs ω (List.mem_of_mem_tail hω)
    exact ⟨a, s2, eval_call.2 ⟨r, s1, hr, heval⟩, hQ⟩

end Prog

end MuduoChat
