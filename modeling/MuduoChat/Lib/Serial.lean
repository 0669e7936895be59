import MuduoChat.Lib.Prog

/-!
# Parties whose operations exclude one another

Several parties run operations over one shared state.  An operation is a program, and an
operation that has been invoked runs to its end before the next one begins: this is the
semantics of operations that hold one common lock, or that are each a single transaction.
A configuration shows the state between any two calls of the operation in progress, so a
statement about all configurations is also one about the inside of operations.

The main result is an invariant rule.  It is enough that each operation keeps to its
contract (`Verified.obeys`) and that the calls a contract allows keep the invariant
(`Verified.keeps`); what is then known of every step of every run is `Verified.step_cases`.
-/

namespace MuduoChat

open Relation

/-- What changes along a run changes in one of its steps. -/
lemma exists_step_of_reaches {α : Type} {R : α → α → Prop} {P : α → Prop} {a b : α}
    (h : ReflTransGen R a b) (ha : ¬P a) (hb : P b) :
    ∃ x y, ReflTransGen R a x ∧ R x y ∧ ReflTransGen R y b ∧ ¬P x ∧ P y := by
  induction h with
  | refl => exact absurd hb ha
  | @tail x y hax hxy ih =>
    by_cases hx : P x
    · obtain ⟨x', y', hax', hxy', hyx', hx', hy'⟩ := ih hx
      exact ⟨x', y', hax', hxy', hyx'.tail hxy, hx', hy'⟩
    · exact ⟨x, y, hax, hxy, .refl, hx, hb⟩

/-- The operations of a family of parties over a shared state. -/
structure Serial (E : Sig) (ι S Ω Op Out : Type) where
  /-- How the calls of each party are answered. -/
  handle : ι → Handler E S Ω
  /-- The program of each operation of each party. -/
  code : ι → Op → Prog E Out

namespace Serial

/-- An operation in progress: whose it is, the state in which it was invoked, and what
remains of its program. -/
structure Running (E : Sig) (ι S Op Out : Type) where
  who : ι
  op : Op
  start : S
  rest : Prog E Out

/-- An operation that has ended, with the states around it. -/
structure Finished (E : Sig) (ι S Op Out : Type) where
  who : ι
  op : Op
  start : S
  reply : Except E.Err Out
  final : S

/-- A configuration.  The operations that have ended stand with the latest one first. -/
structure Config (E : Sig) (ι S Op Out : Type) where
  world : S
  running : Option (Running E ι S Op Out)
  finished : List (Finished E ι S Op Out)

/-- What drives a run: an operation is invoked, or the operation in progress goes one
step further under a choice of the surroundings. -/
inductive Choice (ι Ω Op : Type) where
  | invoke (i : ι) (op : Op)
  | advance (ω : Ω)

variable {E : Sig} {ι S Ω Op Out : Type}

/-- The configuration in which nothing has been done yet. -/
def Config.initial (s : S) : Config E ι S Op Out := ⟨s, none, []⟩

/-- One step of a run. -/
def next (M : Serial E ι S Ω Op Out) (a : Config E ι S Op Out) :
    Choice ι Ω Op → Option (Config E ι S Op Out)
  | .invoke i op =>
    match a.running with
    | none => some { a with running := some ⟨i, op, a.world, M.code i op⟩ }
    | some _ => none
  | .advance ω =>
    match a.running with
    | none => none
    | some ⟨i, op, s, .ret v⟩ =>
      some { a with running := none, finished := ⟨i, op, s, .ok v, a.world⟩ :: a.finished }
    | some ⟨i, op, s, .fail e⟩ =>
      some { a with
        running := none, finished := ⟨i, op, s, .error e, a.world⟩ :: a.finished }
    | some ⟨_, _, _, .hang⟩ => none
    | some ⟨i, op, s, .call c k⟩ =>
      (M.handle i c ω a.world).map fun (r, w) =>
        { a with world := w, running := some ⟨i, op, s, k r⟩ }

/-- `b` follows `a` in one step. -/
def Step (M : Serial E ι S Ω Op Out) (a b : Config E ι S Op Out) : Prop :=
  ∃ l, M.next a l = some b

def run (M : Serial E ι S Ω Op Out) (a : Config E ι S Op Out) (ls : List (Choice ι Ω Op)) :
    Option (Config E ι S Op Out) :=
  ls.foldlM M.next a

variable {M : Serial E ι S Ω Op Out} {a b : Config E ι S Op Out}

lemma reaches_of_run {ls : List (Choice ι Ω Op)} (h : M.run a ls = some b) :
    ReflTransGen M.Step a b := by
  induction ls generalizing a with
  | nil =>
    have hab : a = b := by simpa [run] using h
    rw [hab]
  | cons l ls ih =>
    simp only [run, List.foldlM_cons, Option.bind_eq_bind, Option.bind_eq_some_iff] at h
    obtain ⟨c, hc, hrest⟩ := h
    exact ReflTransGen.head ⟨l, hc⟩ (ih hrest)

/-- Inversion of a step of the operation in progress, for one choice of the surroundings. -/
lemma advance_cases {ω : Ω} (h : M.next a (.advance ω) = some b) :
    (∃ i op s v, a.running = some ⟨i, op, s, .ret v⟩ ∧
        b = { a with running := none,
                     finished := ⟨i, op, s, .ok v, a.world⟩ :: a.finished }) ∨
      (∃ i op s e, a.running = some ⟨i, op, s, .fail e⟩ ∧
        b = { a with running := none,
                     finished := ⟨i, op, s, .error e, a.world⟩ :: a.finished }) ∨
      (∃ i op s c k r w, a.running = some ⟨i, op, s, .call c k⟩ ∧
        M.handle i c ω a.world = some (r, w) ∧
        b = { a with world := w, running := some ⟨i, op, s, k r⟩ }) := by
  cases hr : a.running with
  | none => simp [next, hr] at h
  | some r =>
    obtain ⟨i, op, s, p⟩ := r
    cases p with
    | ret v =>
      simp only [next, hr, Option.some.injEq] at h
      exact .inl ⟨i, op, s, v, rfl, h.symm⟩
    | fail e =>
      simp only [next, hr, Option.some.injEq] at h
      exact .inr (.inl ⟨i, op, s, e, rfl, h.symm⟩)
    | hang => simp [next, hr] at h
    | call c k =>
      simp only [next, hr, Option.map_eq_some_iff] at h
      obtain ⟨⟨r, w⟩, hw, hb⟩ := h
      exact .inr (.inr ⟨i, op, s, c, k, r, w, rfl, hw, hb.symm⟩)

/-- **Inversion of a step.**  A step invokes an operation, ends the one in progress, or
answers its next call. -/
lemma step_cases (h : M.Step a b) :
    (∃ i op, a.running = none ∧
        b = { a with running := some ⟨i, op, a.world, M.code i op⟩ }) ∨
      (∃ i op s v, a.running = some ⟨i, op, s, .ret v⟩ ∧
        b = { a with running := none,
                     finished := ⟨i, op, s, .ok v, a.world⟩ :: a.finished }) ∨
      (∃ i op s e, a.running = some ⟨i, op, s, .fail e⟩ ∧
        b = { a with running := none,
                     finished := ⟨i, op, s, .error e, a.world⟩ :: a.finished }) ∨
      (∃ i op s c k ω r w, a.running = some ⟨i, op, s, .call c k⟩ ∧
        M.handle i c ω a.world = some (r, w) ∧
        b = { a with world := w, running := some ⟨i, op, s, k r⟩ }) := by
  obtain ⟨l, hl⟩ := h
  cases l with
  | invoke i op =>
    cases hr : a.running with
    | none =>
      simp only [next, hr, Option.some.injEq] at hl
      exact .inl ⟨i, op, rfl, hl.symm⟩
    | some r => simp [next, hr] at hl
  | advance ω =>
    right
    rcases advance_cases hl with hret | hfail | ⟨i, op, s, c, k, r, w, hcall⟩
    · exact .inl hret
    · exact .inr (.inl hfail)
    · exact .inr (.inr ⟨i, op, s, c, k, ω, r, w, hcall⟩)

/-! ### Scripts -/

/-- One entry of a script: an operation that is invoked, and the number of its steps that are
taken, all of them under the same choice of the surroundings. -/
structure Act (ι Ω Op : Type) where
  who : ι
  op : Op
  env : Ω
  steps : ℕ := 100

/-- Invoke an operation, unless there is one in progress. -/
def enter (M : Serial E ι S Ω Op Out) (a : Config E ι S Op Out) (i : ι) (op : Op) :
    Config E ι S Op Out :=
  (M.next a (.invoke i op)).getD a

/-- Take steps of the operation in progress, at most the given number. -/
def drive (M : Serial E ι S Ω Op Out) (ω : Ω) : ℕ → Config E ι S Op Out → Config E ι S Op Out
  | 0, a => a
  | n + 1, a =>
    match M.next a (.advance ω) with
    | some b => M.drive ω n b
    | none => a

/-- Follow a script. -/
def play (M : Serial E ι S Ω Op Out) (a : Config E ι S Op Out) (acts : List (Act ι Ω Op)) :
    Config E ι S Op Out :=
  acts.foldl (fun a x => M.drive x.env x.steps (M.enter a x.who x.op)) a

/-- The configurations from which `drive` takes its steps. -/
def driven (M : Serial E ι S Ω Op Out) (ω : Ω) :
    ℕ → Config E ι S Op Out → List (Config E ι S Op Out)
  | 0, _ => []
  | n + 1, a =>
    match M.next a (.advance ω) with
    | some b => a :: M.driven ω n b
    | none => []

/-- The steps that a script takes. -/
def taken (M : Serial E ι S Ω Op Out) :
    Config E ι S Op Out → List (Act ι Ω Op) → List (Config E ι S Op Out × Choice ι Ω Op)
  | _, [] => []
  | a, x :: acts =>
    (a, .invoke x.who x.op) ::
      (M.driven x.env x.steps (M.enter a x.who x.op)).map (·, .advance x.env) ++
        M.taken (M.drive x.env x.steps (M.enter a x.who x.op)) acts

section Reaches

variable {R : Config E ι S Op Out → Config E ι S Op Out → Prop}

lemma reaches_enter {i : ι} {op : Op}
    (hinvoke : ∀ b, M.next a (.invoke i op) = some b → R a b) :
    ReflTransGen R a (M.enter a i op) := by
  unfold enter
  cases h : M.next a (.invoke i op) with
  | none => exact .refl
  | some b => exact .single (hinvoke b h)

lemma reaches_drive (ω : Ω) (n : ℕ) (a : Config E ι S Op Out)
    (hadvance : ∀ c ∈ M.driven ω n a, ∀ b, M.next c (.advance ω) = some b → R c b) :
    ReflTransGen R a (M.drive ω n a) := by
  induction n generalizing a with
  | zero => exact .refl
  | succ n ih =>
    unfold drive
    unfold driven at hadvance
    cases h : M.next a (.advance ω) with
    | none => exact .refl
    | some b =>
      rw [h] at hadvance
      refine .head (hadvance a List.mem_cons_self b h) (ih b fun c hc => ?_)
      exact hadvance c (List.mem_cons_of_mem a hc)

lemma reaches_play_of {acts : List (Act ι Ω Op)} {a : Config E ι S Op Out}
    (h : ∀ x ∈ M.taken a acts, ∀ b, M.next x.1 x.2 = some b → R x.1 b) :
    ReflTransGen R a (M.play a acts) := by
  induction acts generalizing a with
  | nil => exact .refl
  | cons x acts ih =>
    refine (reaches_enter (h (a, .invoke x.who x.op) (by simp [taken]))).trans
      ((reaches_drive _ _ _ fun c hc => ?_).trans (ih fun y hy => ?_))
    · exact h (c, .advance x.env) (by simp [taken, hc])
    · exact h y (by simp [taken, hy])

end Reaches

lemma reaches_play (acts : List (Act ι Ω Op)) (a : Config E ι S Op Out) :
    ReflTransGen M.Step a (M.play a acts) :=
  reaches_play_of fun _ _ _ h => ⟨_, h⟩

variable {r : Running E ι S Op Out}

lemma drive_running {i : ι} {op : Op} (ω : Ω) (n : ℕ)
    (ha : ∀ r, a.running = some r → r.who = i ∧ r.op = op)
    (h : (M.drive ω n a).running = some r) : r.who = i ∧ r.op = op := by
  induction n generalizing a with
  | zero => exact ha r h
  | succ n ih =>
    unfold drive at h
    cases hnext : M.next a (.advance ω) with
    | none =>
      rw [hnext] at h
      exact ha r h
    | some b =>
      rw [hnext] at h
      refine ih (fun r' hr' => ?_) h
      rcases step_cases ⟨_, hnext⟩ with ⟨j, op', hr, rfl⟩ | ⟨j, op', s, v, hr, rfl⟩ |
        ⟨j, op', s, e, hr, rfl⟩ | ⟨j, op', s, c, k, ω', v, w, hr, hw, rfl⟩
      · simp [next, hr] at hnext
      · cases hr'
      · cases hr'
      · cases hr'
        exact ha ⟨j, op', s, .call c k⟩ hr

lemma play_running {x : Act ι Ω Op} (ha : a.running = none)
    (h : (M.play a [x]).running = some r) :
    r.who = x.who ∧ r.op = x.op := by
  refine drive_running x.env x.steps (fun r' hr' => ?_) h
  simp only [enter, next, ha, Option.getD_some] at hr'
  cases hr'
  exact ⟨rfl, rfl⟩

/-- An operation that has been driven to its end is the latest one that has ended. -/
lemma drive_finished (ω : Ω) (n : ℕ)
    (ha : a.running = some r) (h : (M.drive ω n a).running = none) :
    ∃ reply, (M.drive ω n a).finished =
      ⟨r.who, r.op, r.start, reply, (M.drive ω n a).world⟩ :: a.finished := by
  have idle {b : Config E ι S Op Out} (n : ℕ) (hb : b.running = none) : M.drive ω n b = b := by
    cases n <;> simp [drive, next, hb]
  induction n generalizing a r with
  | zero => exact absurd (ha.symm.trans h) (by simp)
  | succ n ih =>
    obtain ⟨i, op, s, p⟩ := r
    unfold drive at h ⊢
    cases hnext : M.next a (.advance ω) with
    | none =>
      rw [hnext] at h
      exact absurd (ha.symm.trans h) (by simp)
    | some b =>
      rw [hnext] at h
      rcases step_cases ⟨_, hnext⟩ with ⟨j, op', hr, rfl⟩ | ⟨j, op', s, v, hr, rfl⟩ |
        ⟨j, op', s, e, hr, rfl⟩ | ⟨j, op', s, c, k, ω', v, w, hr, hw, rfl⟩ <;>
        rw [ha] at hr <;> cases hr
      · exact ⟨.ok v, by dsimp only; rw [idle n rfl]⟩
      · exact ⟨.error e, by dsimp only; rw [idle n rfl]⟩
      · exact ih (r := ⟨i, op, s, k v⟩) rfl h

/-- A script of one operation that runs to its end. -/
lemma play_finished {x : Act ι Ω Op} (ha : a.running = none)
    (h : (M.play a [x]).running = none) :
    ∃ reply, (M.play a [x]).finished =
      ⟨x.who, x.op, a.world, reply, (M.play a [x]).world⟩ :: a.finished := by
  have henter : M.enter a x.who x.op =
      { a with running := some ⟨x.who, x.op, a.world, M.code x.who x.op⟩ } := by
    simp [enter, next, ha]
  have hplay : M.play a [x] = M.drive x.env x.steps (M.enter a x.who x.op) := rfl
  rw [hplay, henter] at h ⊢
  exact drive_finished x.env x.steps rfl h

/-! ### The operations one after the other -/

/-- The operations of a list, the latest first, lead from one state to another: each of them
begins where the one before it has ended. -/
inductive History (s₀ : S) : List (Finished E ι S Op Out) → S → Prop
  | nil : History s₀ [] s₀
  | cons {fs : List (Finished E ι S Op Out)} {f : Finished E ι S Op Out}
      (h : History s₀ fs f.start) : History s₀ (f :: fs) f.final

/-- The state in which the operation in progress was invoked, or the present one if there is
none. -/
def Config.settled (a : Config E ι S Op Out) : S :=
  match a.running with
  | none => a.world
  | some r => r.start

/-- The operations that have ended form a history. -/
theorem history {s0 : S} (h : ReflTransGen M.Step (Config.initial s0) a) :
    History s0 a.finished a.settled := by
  induction h with
  | refl => exact .nil
  | tail _ hstep ih =>
    rcases step_cases hstep with ⟨i, op, hr, rfl⟩ | ⟨i, op, s, v, hr, rfl⟩ |
      ⟨i, op, s, e, hr, rfl⟩ | ⟨i, op, s, c, k, ω, r, w, hr, hw, rfl⟩ <;>
      simp only [Config.settled, hr] at ih ⊢
    · exact ih
    · exact .cons ih
    · exact .cons ih
    · exact ih

/-- The part of a history before one of its operations. -/
lemma History.before {s0 s : S} {f : Finished E ι S Op Out} {l1 l2 : List (Finished E ι S Op Out)}
    (h : History s0 (l1 ++ f :: l2) s) : History s0 l2 f.start := by
  induction l1 generalizing s with
  | nil =>
    cases h with
    | cons h => exact h
  | cons g l1 ih =>
    cases h with
    | cons h => exact ih h

/-- What each operation of a history passes on holds at its end. -/
lemma History.preserves {P : S → Prop} {s0 s : S} {fs : List (Finished E ι S Op Out)}
    (h : History s0 fs s) (hs0 : P s0) (hfs : ∀ f ∈ fs, P f.start → P f.final) : P s := by
  induction h with
  | nil => exact hs0
  | @cons fs f _ ih =>
    refine hfs f List.mem_cons_self (ih fun g hg => hfs g (List.mem_cons_of_mem f hg))

/-! ### Restricted surroundings -/

/-- The same operations in surroundings that answer a call of a party only as the condition
allows. -/
noncomputable def guardBy (M : Serial E ι S Ω Op Out) (G : ι → E.Call → Ω → S → Prop) :
    Serial E ι S Ω Op Out where
  handle i c ω s := open scoped Classical in if G i c ω s then M.handle i c ω s else none
  code := M.code

lemma guardBy_handle {G : ι → E.Call → Ω → S → Prop} {i : ι} {c : E.Call} {ω : Ω} {s : S}
    {x : Except E.Err (E.Value c) × S} (h : (M.guardBy G).handle i c ω s = some x) :
    G i c ω s ∧ M.handle i c ω s = some x := by
  simp only [guardBy] at h
  split at h
  · exact ⟨‹_›, h⟩
  · cases h

/-- A step whose call is answered as the condition allows. -/
lemma guardBy_next {G : ι → E.Call → Ω → S → Prop} {l : Choice ι Ω Op} (h : M.next a l = some b)
    (hG : ∀ i op s c k ω, a.running = some ⟨i, op, s, .call c k⟩ → l = .advance ω →
      G i c ω a.world) : (M.guardBy G).next a l = some b := by
  cases l with
  | invoke i op => exact h
  | advance ω =>
    cases hr : a.running with
    | none => simp [next, hr] at h
    | some r =>
      obtain ⟨i, op, s, p⟩ := r
      cases p with
      | call c k =>
        have hc := hG i op s c k ω hr rfl
        simp only [next, hr] at h ⊢
        simpa only [guardBy, if_pos hc] using h
      | hang => simp [next, hr] at h
      | _ => simpa [next, hr] using h

/-- The same operations in surroundings that answer a call only as the condition allows. -/
noncomputable def guard (M : Serial E ι S Ω Op Out) (G : E.Call → Ω → S → Prop) :
    Serial E ι S Ω Op Out where
  handle i c ω s := open scoped Classical in if G c ω s then M.handle i c ω s else none
  code := M.code

lemma guard_handle {G : E.Call → Ω → S → Prop} {i : ι} {c : E.Call} {ω : Ω} {s : S}
    {x : Except E.Err (E.Value c) × S} (h : (M.guard G).handle i c ω s = some x) :
    G c ω s ∧ M.handle i c ω s = some x :=
  guardBy_handle (M := M) (G := fun _ => G) h

lemma guard_next {G : E.Call → Ω → S → Prop} {l : Choice ι Ω Op} (h : M.next a l = some b)
    (hG : ∀ i op s c k ω, a.running = some ⟨i, op, s, .call c k⟩ → l = .advance ω →
      G c ω a.world) : (M.guard G).next a l = some b :=
  guardBy_next (M := M) (G := fun _ => G) h hG

/-! ### Operations return -/

/-- The choices that answer the first `n` calls of the operation in progress. -/
def advances (ωs : ℕ → Ω) (n : ℕ) : List (Choice ι Ω Op) :=
  (List.range n).map fun k => .advance (ωs k)

/-! ### The invariant rule -/

/-- The contract of an operation: nobody else is at work while it runs.  The calls it may
make can also depend on the state in which it was invoked. -/
def contract (M : Serial E ι S Ω Op Out) (I : S → Prop) (allow : ι → Op → S → E.Call → S → Prop)
    (hangs : Prop) (i : ι) (op : Op) (start : S) : Contract E S Ω where
  handle := M.handle i
  inv := I
  rely := Eq
  allow := allow i op start
  hangs := hangs

/-- The operations keep to their contracts, the calls these allow keep the invariant, and
each operation ends as its postcondition says. -/
structure Verified (M : Serial E ι S Ω Op Out) (I : S → Prop)
    (allow : ι → Op → S → E.Call → S → Prop) (hangs : Prop)
    (post : ι → Op → S → Except E.Err Out → S → Prop) : Prop where
  keeps : ∀ i op start c ω s r s', I s → allow i op start c s →
    M.handle i c ω s = some (r, s') → I s'
  obeys : ∀ i op s, I s → (M.code i op).Sat (M.contract I allow hangs i op s) (post i op s) s

variable {I : S → Prop} {allow : ι → Op → S → E.Call → S → Prop} {hangs : Prop}
  {post : ι → Op → S → Except E.Err Out → S → Prop}

/-- What holds of a configuration in a run of verified operations. -/
structure Sound (M : Serial E ι S Ω Op Out) (I : S → Prop)
    (allow : ι → Op → S → E.Call → S → Prop) (hangs : Prop)
    (post : ι → Op → S → Except E.Err Out → S → Prop) (a : Config E ι S Op Out) : Prop where
  inv : I a.world
  rest : ∀ r, a.running = some r →
    r.rest.Sat (M.contract I allow hangs r.who r.op r.start) (post r.who r.op r.start) a.world
  invoked : ∀ r, a.running = some r → I r.start
  finished : ∀ f ∈ a.finished, I f.start ∧ post f.who f.op f.start f.reply f.final

lemma Sound.initial {s : S} (h : I s) : Sound M I allow hangs post (Config.initial s) :=
  ⟨h, by simp [Config.initial], by simp [Config.initial], by simp [Config.initial]⟩

lemma Verified.sound_step (hM : Verified M I allow hangs post) (ha : Sound M I allow hangs post a)
    (h : M.Step a b) : Sound M I allow hangs post b := by
  rcases step_cases h with ⟨i, op, hr, rfl⟩ | ⟨i, op, s, v, hr, rfl⟩ | ⟨i, op, s, e, hr, rfl⟩ |
    ⟨i, op, s, c, k, ω, r, w, hr, hw, rfl⟩
  · refine ⟨ha.inv, ?_, ?_, ha.finished⟩
    · rintro _ ⟨⟩
      exact hM.obeys i op a.world ha.inv
    · rintro _ ⟨⟩
      exact ha.inv
  · refine ⟨ha.inv, by simp, by simp, ?_⟩
    intro f hf
    rcases List.mem_cons.1 hf with rfl | hf
    · exact ⟨ha.invoked _ hr, ha.rest _ hr a.world rfl ha.inv⟩
    · exact ha.finished f hf
  · refine ⟨ha.inv, by simp, by simp, ?_⟩
    intro f hf
    rcases List.mem_cons.1 hf with rfl | hf
    · exact ⟨ha.invoked _ hr, ha.rest _ hr a.world rfl ha.inv⟩
    · exact ha.finished f hf
  · obtain ⟨hallow, hk⟩ := ha.rest _ hr a.world rfl ha.inv
    refine ⟨hM.keeps i op s c ω a.world r w ha.inv hallow hw, ?_, ?_, ha.finished⟩
    · rintro _ ⟨⟩
      exact hk ω r w hw
    · rintro _ ⟨⟩
      exact ha.invoked ⟨i, op, s, .call c k⟩ hr

/-- **The invariant rule.**  Every configuration of a run of verified operations is
sound. -/
theorem Verified.sound (hM : Verified M I allow hangs post) (ha : Sound M I allow hangs post a)
    (h : ReflTransGen M.Step a b) : Sound M I allow hangs post b := by
  induction h with
  | refl => exact ha
  | tail _ hstep ih => exact hM.sound_step ih hstep

/-- The operation was invoked in the state `start`, and `s` is the present state if it is still
in progress, or the one in which it has ended. -/
def Config.During (a : Config E ι S Op Out) (op : Op) (start s : S) : Prop :=
  (∃ r, a.running = some r ∧ r.op = op ∧ r.start = start ∧ a.world = s) ∨
    ∃ f ∈ a.finished, f.op = op ∧ f.start = start ∧ f.final = s

/-- **The frame rule.**  What each allowed call of an operation does to the state, the
operation has done at every point of it. -/
theorem Verified.frame (hM : Verified M I allow hangs post) {R : Op → S → S → Prop}
    (hrefl : ∀ op s, R op s s) (htrans : ∀ {op s1 s2 s3}, R op s1 s2 → R op s2 s3 → R op s1 s3)
    (hcall : ∀ i op start c ω s r s', I s → allow i op start c s →
      M.handle i c ω s = some (r, s') → R op s s')
    {s0 : S} (hs0 : I s0) (h : ReflTransGen M.Step (Config.initial s0) a) {op : Op} {start s : S}
    (hs : a.During op start s) : R op start s := by
  suffices hall : (∀ r, a.running = some r → R r.op r.start a.world) ∧
      ∀ f ∈ a.finished, R f.op f.start f.final by
    rcases hs with ⟨r, hr, rfl, rfl, rfl⟩ | ⟨f, hf, rfl, rfl, rfl⟩
    · exact hall.1 r hr
    · exact hall.2 f hf
  clear hs
  induction h with
  | refl => exact ⟨by simp [Config.initial], by simp [Config.initial]⟩
  | @tail x y hx hstep ih =>
    obtain ⟨hrunning, hfinished⟩ := ih
    have hsound := hM.sound (Sound.initial hs0) hx
    rcases step_cases hstep with ⟨i, op, hr, rfl⟩ | ⟨i, op, s, v, hr, rfl⟩ |
      ⟨i, op, s, e, hr, rfl⟩ | ⟨i, op, s, c, k, ω, r, w, hr, hw, rfl⟩
    · refine ⟨?_, hfinished⟩
      rintro _ ⟨⟩
      exact hrefl op x.world
    · refine ⟨by simp, fun f hf => ?_⟩
      rcases List.mem_cons.1 hf with rfl | hf
      · exact hrunning _ hr
      · exact hfinished f hf
    · refine ⟨by simp, fun f hf => ?_⟩
      rcases List.mem_cons.1 hf with rfl | hf
      · exact hrunning _ hr
      · exact hfinished f hf
    · refine ⟨?_, hfinished⟩
      rintro _ ⟨⟩
      have hallow := (hsound.rest _ hr x.world rfl hsound.inv).1
      exact htrans (hrunning ⟨i, op, s, .call c k⟩ hr)
        (hcall i op s c ω x.world r w hsound.inv hallow hw)

/-- What a step from a sound configuration can do to the shared state: nothing, or what
the handler does at a call that the contract of the operation in progress allows. -/
lemma Sound.step_cases (ha : Sound M I allow hangs post a) (h : M.Step a b) :
    b.world = a.world ∨
      ∃ r c k ω v, a.running = some r ∧ r.rest = .call c k ∧
        allow r.who r.op r.start c a.world ∧
        M.handle r.who c ω a.world = some (v, b.world) := by
  rcases Serial.step_cases h with ⟨i, op, hr, rfl⟩ | ⟨i, op, s, v, hr, rfl⟩ |
    ⟨i, op, s, e, hr, rfl⟩ | ⟨i, op, s, c, k, ω, r, w, hr, hw, rfl⟩
  · exact .inl rfl
  · exact .inl rfl
  · exact .inl rfl
  · exact .inr ⟨_, c, k, ω, r, hr, rfl, (ha.rest _ hr a.world rfl ha.inv).1, hw⟩

/-- **Operations return.**  If no call blocks and the contracts leave no room for a loop that
never ends, then the operation in progress ends after finitely many steps, however its calls
are answered. -/
theorem Verified.returns (hM : Verified M I allow False post)
    (htotal : ∀ i c ω s, (M.handle i c ω s).isSome) (ha : Sound M I allow False post a)
    {i : ι} {op : Op} {start : S} {p : Prog E Out} (hr : a.running = some ⟨i, op, start, p⟩)
    (ωs : ℕ → Ω) : ∃ n reply w, M.run a (advances ωs n) =
      some ⟨w, none, ⟨i, op, start, reply, w⟩ :: a.finished⟩ := by
  induction p generalizing a ωs with
  | ret v => exact ⟨1, .ok v, a.world, by simp [run, advances, next, hr]⟩
  | fail e => exact ⟨1, .error e, a.world, by simp [run, advances, next, hr]⟩
  | hang => exact absurd (ha.rest _ hr a.world rfl ha.inv) id
  | call c k ih =>
    obtain ⟨⟨v, w⟩, hw⟩ := Option.isSome_iff_exists.1 (htotal i c (ωs 0) a.world)
    have hnext : M.next a (.advance (ωs 0)) =
        some { a with world := w, running := some ⟨i, op, start, k v⟩ } := by
      simp [next, hr, hw]
    obtain ⟨n, reply, w', hrun⟩ :=
      ih v (hM.sound_step ha ⟨_, hnext⟩) rfl fun k => ωs (k + 1)
    refine ⟨n + 1, reply, w', ?_⟩
    have hsplit : (advances ωs (n + 1) : List (Choice ι Ω Op)) =
        .advance (ωs 0) :: advances (fun k => ωs (k + 1)) n := by
      simp [advances, List.range_succ_eq_map]
    rw [hsplit, run, List.foldlM_cons, hnext]
    exact hrun

end Serial

end MuduoChat
