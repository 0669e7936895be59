import MuduoChat.Lib.Prog

/-!
# What a program can do when its calls are answered freely

`Prog.Traced p l r` says that the program `p` ends in `r` after it has made the calls of the list `l`
and received the answers that stand there.  Nothing is assumed of the answers, so a property of all
such lists holds whatever the program is connected to.
-/

namespace MuduoChat

structure Answered (E : Sig) where
  call : E.Call
  answer : Except E.Err (E.Value call)

namespace Prog

variable {E : Sig} {α β : Type}

/-- The program can make these calls, and with these answers it ends so. -/
inductive Traced : Prog E α → List (Answered E) → Except E.Err α → Prop where
  | ret (a : α) : Traced (ret a) [] (.ok a)
  | fail (e : E.Err) : Traced (fail e) [] (.error e)
  | call (c : E.Call) (k : Except E.Err (E.Value c) → Prog E α) (v : Except E.Err (E.Value c))
      {l : List (Answered E)} {r : Except E.Err α} (h : Traced (k v) l r) :
      Traced (call c k) (⟨c, v⟩ :: l) r

variable {l : List (Answered E)}

/-- A composition ends with an error of the first program, or the second one goes on from the value
of the first. -/
lemma Traced.of_bind {p : Prog E α} {f : α → Prog E β} {r : Except E.Err β}
    (h : (p >>= f).Traced l r) :
    (∃ e, r = .error e ∧ p.Traced l (.error e)) ∨
      ∃ a l1 l2, l = l1 ++ l2 ∧ p.Traced l1 (.ok a) ∧ (f a).Traced l2 r := by
  induction p generalizing l with
  | ret a => exact .inr ⟨a, [], l, rfl, .ret a, h⟩
  | fail e =>
    cases h
    exact .inl ⟨e, rfl, .fail e⟩
  | hang => cases h
  | call c k ih =>
    cases h with
    | call _ _ v h =>
      rcases ih v h with ⟨e, hr, he⟩ | ⟨a, l1, l2, rfl, ha, hf⟩
      · exact .inl ⟨e, hr, .call c k v he⟩
      · exact .inr ⟨a, ⟨c, v⟩ :: l1, l2, rfl, .call c k v ha, hf⟩

/-- A program with a handler for its errors ends in a value of its own, or the handler goes on. -/
lemma Traced.of_tryCatch {p : Prog E α} {f : E.Err → Prog E α} {r : Except E.Err α}
    (h : (p.tryCatch f).Traced l r) :
    (∃ a, r = .ok a ∧ p.Traced l (.ok a)) ∨
      ∃ e l1 l2, l = l1 ++ l2 ∧ p.Traced l1 (.error e) ∧ (f e).Traced l2 r := by
  induction p generalizing l with
  | ret a =>
    cases h
    exact .inl ⟨a, rfl, .ret a⟩
  | fail e => exact .inr ⟨e, [], l, rfl, .fail e, h⟩
  | hang => cases h
  | call c k ih =>
    cases h with
    | call _ _ v h =>
      rcases ih v h with ⟨a, hr, ha⟩ | ⟨e, l1, l2, rfl, he, hf⟩
      · exact .inl ⟨a, hr, .call c k v ha⟩
      · exact .inr ⟨e, ⟨c, v⟩ :: l1, l2, rfl, .call c k v he, hf⟩

lemma Traced.of_ask {c : E.Call} {r : Except E.Err (E.Value c)} (h : (ask c).Traced l r) :
    l = [⟨c, r⟩] := by
  cases h with
  | call _ _ v h =>
    cases v with
    | ok v | error e =>
      cases h
      rfl

/-- Run a program with a fixed answer to each call. -/
def respond (f : (c : E.Call) → Except E.Err (E.Value c)) :
    Prog E α → Option (List (Answered E) × Except E.Err α)
  | ret a => some ([], .ok a)
  | fail e => some ([], .error e)
  | hang => none
  | call c k => ((k (f c)).respond f).map fun (l, r) => (⟨c, f c⟩ :: l, r)

lemma traced_of_respond {f : (c : E.Call) → Except E.Err (E.Value c)} {p : Prog E α}
    {r : Except E.Err α} (h : p.respond f = some (l, r)) : p.Traced l r := by
  induction p generalizing l with
  | ret a =>
    cases h
    exact .ret a
  | fail e =>
    cases h
    exact .fail e
  | hang => cases h
  | call c k ih =>
    obtain ⟨⟨l', r'⟩, hk, heq⟩ := Option.map_eq_some_iff.1 h
    cases heq
    exact .call c k (f c) (ih (f c) hk)

end Prog

end MuduoChat
