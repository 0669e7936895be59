import MuduoChat.Gateway.Contract

/-!
# Rules for the calls of a gateway

One rule of the program logic for each kind of call, for the handler `World.handle`.  The
store is in memory, so that no call ends in an error.
-/

namespace MuduoChat

open Std Prog World

variable {ι : Type} [DecidableEq ι]

/-- The contract of a process that nobody interrupts, under which the given calls are
allowed. -/
def World.under (I : World ι → Prop) (hangs : Prop) (i : ι) (allow : Call → World ι → Prop) :
    Contract Port (World ι) Env where
  handle := World.handle i
  inv := I
  rely := Eq
  allow := allow
  hangs := hangs

/-- The contract over a consistent ledger.  A process whose leases last must not hang. -/
abbrev Setup.under (S : Setup ι) (i : ι) (allow : Call → World ι → Prop) :
    Contract Port (World ι) Env :=
  World.under World.Consistent (¬0 < Json.toInt64 S.leaseMs) i allow

section Rules

variable {I : World ι → Prop} {hangs : Prop} {i : ι} {allow : Call → World ι → Prop} {w : World ι}
  {α : Type} {Q : Except Fault α → World ι → Prop}

lemma sat_ret {a : α} (h : I w → Q (.ok a) w) :
    Sat (under I hangs i allow) Q (.ret a : Code α) w := by
  rintro _ rfl hw
  exact h hw

lemma sat_fail {e : Fault} (h : I w → Q (.error e) w) :
    Sat (under I hangs i allow) Q (.fail e : Code α) w := by
  rintro _ rfl hw
  exact h hw

lemma sat_ask {c : Call} {f : c.Value → Code α} {v : Env → c.Value} {w' : Env → World ι}
    (hhandle : ∀ ω, handle i c ω w = some (.ok (v ω), w' ω))
    (h : I w → allow c w ∧ ∀ ω, Sat (under I hangs i allow) Q (f (v ω)) (w' ω)) :
    Sat (under I hangs i allow) Q (Prog.ask (E := Port) c >>= f) w := by
  refine Sat.ask_bind ?_
  rintro _ rfl hw
  refine ⟨(h hw).1, fun ω r w'' hr => ?_⟩
  obtain ⟨rfl, rfl⟩ := Prod.mk.inj (Option.some.inj (hr.symm.trans (hhandle ω)))
  exact (h hw).2 ω

lemma sat_store {c : StoreCall} {f : c.Value → Code α}
    (h : I w → allow (.store c) w ∧
      Sat (under I hangs i allow) Q (f (w.store.answer c).1)
        { w with store := (w.store.answer c).2 }) :
    Sat (under I hangs i allow) Q (Code.store c >>= f) w :=
  sat_ask (fun _ => rfl) fun hw => ⟨(h hw).1, fun _ => (h hw).2⟩

lemma sat_deliver {attempt : DeliveryAttempt} {f : DeliverDisposition → Code α}
    (h : I w → allow (.deliver attempt) w ∧ ∀ disposition,
      Sat (under I hangs i allow) Q (f disposition)
        { w with sent := (attempt, disposition) :: w.sent }) :
    Sat (under I hangs i allow) Q (Code.deliver attempt >>= f) w :=
  sat_ask (fun _ => rfl) fun hw => ⟨(h hw).1, fun _ => (h hw).2 _⟩

lemma sat_nowMs {f : ℤ → Code α}
    (h : I w → allow .nowMs w ∧ ∀ now,
      Sat (under I hangs i allow) Q (f now) { w with clock := now }) :
    Sat (under I hangs i allow) Q (Code.nowMs >>= f) w :=
  sat_ask (fun _ => rfl) fun hw => ⟨(h hw).1, fun _ => (h hw).2 _⟩

lemma sat_jitter {delay : ℤ} {f : ℤ → Code α}
    (h : I w → allow (.jitter delay) w ∧ ∀ jittered,
      Sat (under I hangs i allow) Q (f jittered) w) :
    Sat (under I hangs i allow) Q (Code.jitter delay >>= f) w :=
  sat_ask (fun _ => rfl) fun hw => ⟨(h hw).1, fun _ => (h hw).2 _⟩

lemma sat_load {f : Process → Code α}
    (h : I w → allow .load w ∧ Sat (under I hangs i allow) Q (f (w.process i)) w) :
    Sat (under I hangs i allow) Q (Code.load >>= f) w :=
  sat_ask (fun _ => rfl) fun hw => ⟨(h hw).1, fun _ => (h hw).2⟩

lemma sat_save {p : Process} {f : Unit → Code α}
    (h : I w → allow (.save p) w ∧ Sat (under I hangs i allow) Q (f ())
      { w with process := Function.update w.process i p }) :
    Sat (under I hangs i allow) Q (Code.save p >>= f) w :=
  sat_ask (fun _ => rfl) fun hw => ⟨(h hw).1, fun _ => (h hw).2⟩

lemma sat_record {e : MetricEvent} {f : Unit → Code α}
    (h : I w → allow (.record e) w ∧ Sat (under I hangs i allow) Q (f ())
      { w with metrics := e :: w.metrics }) :
    Sat (under I hangs i allow) Q (Code.record e >>= f) w :=
  sat_ask (fun _ => rfl) fun hw => ⟨(h hw).1, fun _ => (h hw).2⟩

lemma sat_modify {g : Process → Process} {f : Unit → Code α}
    (h : I w → allow .load w ∧ allow (.save (g (w.process i))) w ∧
      Sat (under I hangs i allow) Q (f ())
        { w with process := Function.update w.process i (g (w.process i)) }) :
    Sat (under I hangs i allow) Q (Code.modify g >>= f) w := by
  rw [Code.modify, Prog.bind_assoc]
  exact sat_load fun hw => ⟨(h hw).1, sat_save fun _ => (h hw).2⟩

lemma sat_of_bind_ret {p : Code α} (h : Sat (under I hangs i allow) Q (p >>= .ret) w) :
    Sat (under I hangs i allow) Q p w := by
  rwa [Prog.bind_ret_right] at h

lemma sat_bind {β : Type} {P : β → World ι → Prop} {p : Code β} {f : β → Code α}
    (h : Sat (under I hangs i allow) (Returns P) p w)
    (hf : ∀ b w1, I w1 → P b w1 → Sat (under I hangs i allow) Q (f b) w1) :
    Sat (under I hangs i allow) Q (p >>= f) w :=
  Sat.returns_bind (fun _ => rfl) h hf

lemma sat_ite {b : Prop} [Decidable b] {p q : Code α}
    (hp : b → Sat (under I hangs i allow) Q p w) (hq : ¬b → Sat (under I hangs i allow) Q q w) :
    Sat (under I hangs i allow) Q (if b then p else q) w := by
  by_cases h : b
  · rw [if_pos h]
    exact hp h
  · rw [if_neg h]
    exact hq h

lemma sat_forEach {τ : Type} {body : τ → Code Unit} {P : List τ → World ι → Prop}
    (hcons : ∀ x xs w, P (x :: xs) w →
      Sat (under I hangs i allow) (Returns fun _ w1 => P xs w1) (body x) w)
    (xs : List τ) (h : P xs w) :
    Sat (under I hangs i allow) (Returns fun _ w1 => P [] w1) (Prog.forEach body xs) w :=
  Sat.returns_forEach (fun _ => rfl) (by rintro _ _ rfl; exact id) hcons xs w h

lemma Sat.widen {allow' : Call → World ι → Prop} {p : Code α}
    (himp : ∀ c w, I w → allow c w → allow' c w)
    (h : Sat (under I hangs i allow) Q p w) : Sat (under I hangs i allow') Q p w := by
  refine Sat.of_allow ?_ ?_ ?_ ?_ ?_ h
  exacts [rfl, rfl, rfl, id, himp]

end Rules

end MuduoChat
