import MuduoChat.Lib.Prog

/-!
# Parties whose operations are interleaved

Several parties run operations over one shared state.  Each party has at most one operation
in progress, and the operations of different parties are interleaved at their single calls:
between two calls of one party the others may do anything that is theirs to do.

The main result is again an invariant rule, now with a condition `rely` for each party that
says what the others may do to the state between two of its calls.  It is enough that each
operation keeps to its contract under that condition (`Verified.obeys`), that the calls which
the contracts allow keep the invariant (`Verified.keeps`), and that such a call of one party
is within the condition of every other one (`Verified.leaves`).  Where an operation counts on
what an earlier one of its party has left behind, that is an assertion about the party at rest
(`VerifiedAtRest`).
-/

namespace MuduoChat

open Relation

/-- The operations of a family of parties over a shared state. -/
structure Parallel (E : Sig) (ι S Ω Op Out : Type) where
  /-- How the calls of each party are answered. -/
  handle : ι → Handler E S Ω
  /-- The program of each operation of each party. -/
  code : ι → Op → Prog E Out

namespace Parallel

/-- An operation in progress, and what remains of its program. -/
structure Task (E : Sig) (Op Out : Type) where
  op : Op
  rest : Prog E Out

/-- An operation that has ended. -/
structure Done (E : Sig) (ι Op Out : Type) where
  who : ι
  op : Op
  reply : Except E.Err Out

/-- A configuration.  The operations that have ended stand with the latest one first. -/
structure Config (E : Sig) (ι S Op Out : Type) where
  world : S
  running : ι → Option (Task E Op Out)
  finished : List (Done E ι Op Out)

/-- What drives a run: a party invokes an operation, or goes one step further with the one it
has in progress. -/
inductive Choice (ι Ω Op : Type) where
  | invoke (i : ι) (op : Op)
  | advance (i : ι) (ω : Ω)

variable {E : Sig} {ι S Ω Op Out : Type}

/-- The configuration in which nothing has been done yet. -/
def Config.initial (s : S) : Config E ι S Op Out := ⟨s, fun _ => none, []⟩

variable [DecidableEq ι]

/-- One step of a run. -/
def next (M : Parallel E ι S Ω Op Out) (a : Config E ι S Op Out) :
    Choice ι Ω Op → Option (Config E ι S Op Out)
  | .invoke i op =>
    match a.running i with
    | none => some { a with running := Function.update a.running i (some ⟨op, M.code i op⟩) }
    | some _ => none
  | .advance i ω =>
    match a.running i with
    | none => none
    | some ⟨op, .ret v⟩ =>
      some { a with
        running := Function.update a.running i none
        finished := ⟨i, op, .ok v⟩ :: a.finished }
    | some ⟨op, .fail e⟩ =>
      some { a with
        running := Function.update a.running i none
        finished := ⟨i, op, .error e⟩ :: a.finished }
    | some ⟨_, .hang⟩ => none
    | some ⟨op, .call c k⟩ =>
      (M.handle i c ω a.world).map fun (r, w) =>
        { a with world := w, running := Function.update a.running i (some ⟨op, k r⟩) }

/-- `b` follows `a` in one step. -/
def Step (M : Parallel E ι S Ω Op Out) (a b : Config E ι S Op Out) : Prop :=
  ∃ l, M.next a l = some b

variable {M : Parallel E ι S Ω Op Out} {a b : Config E ι S Op Out} {l : Choice ι Ω Op}

/-- **Inversion of a step.**  A step invokes an operation, ends one, or answers a call. -/
lemma next_cases (h : M.next a l = some b) :
    (∃ i op, l = .invoke i op ∧ a.running i = none ∧
        b = { a with running := Function.update a.running i (some ⟨op, M.code i op⟩) }) ∨
      (∃ i ω op v, l = .advance i ω ∧ a.running i = some ⟨op, .ret v⟩ ∧
        b = { a with
          running := Function.update a.running i none
          finished := ⟨i, op, .ok v⟩ :: a.finished }) ∨
      (∃ i ω op e, l = .advance i ω ∧ a.running i = some ⟨op, .fail e⟩ ∧
        b = { a with
          running := Function.update a.running i none
          finished := ⟨i, op, .error e⟩ :: a.finished }) ∨
      ∃ i ω op c k r w, l = .advance i ω ∧ a.running i = some ⟨op, .call c k⟩ ∧
        M.handle i c ω a.world = some (r, w) ∧
        b = { a with world := w, running := Function.update a.running i (some ⟨op, k r⟩) } := by
  cases l with
  | invoke i op =>
    cases hr : a.running i with
    | none =>
      simp only [next, hr, Option.some.injEq] at h
      exact .inl ⟨i, op, rfl, hr, h.symm⟩
    | some t => simp [next, hr] at h
  | advance i ω =>
    right
    cases hr : a.running i with
    | none => simp [next, hr] at h
    | some t =>
      obtain ⟨op, p⟩ := t
      cases p with
      | ret v =>
        simp only [next, hr, Option.some.injEq] at h
        exact .inl ⟨i, ω, op, v, rfl, hr, h.symm⟩
      | fail e =>
        simp only [next, hr, Option.some.injEq] at h
        exact .inr (.inl ⟨i, ω, op, e, rfl, hr, h.symm⟩)
      | hang => simp [next, hr] at h
      | call c k =>
        simp only [next, hr, Option.map_eq_some_iff] at h
        obtain ⟨⟨r, w⟩, hw, rfl⟩ := h
        exact .inr (.inr ⟨i, ω, op, c, k, r, w, rfl, hr, hw, rfl⟩)

/-! ### Scripts -/

/-- One entry of a script: an operation that a party invokes, unless it is to go on with the
one it has, and the number of its steps that are taken, all under the same choice of the
surroundings. -/
structure Act (ι Ω Op : Type) where
  who : ι
  op : Option Op := none
  env : Ω
  steps : ℕ := 200

/-- Invoke the operation of an entry, if there is one. -/
def enter (M : Parallel E ι S Ω Op Out) (a : Config E ι S Op Out) (i : ι) :
    Option Op → Config E ι S Op Out
  | some op => (M.next a (.invoke i op)).getD a
  | none => a

/-- Take steps of one party, at most the given number. -/
def drive (M : Parallel E ι S Ω Op Out) (i : ι) (ω : Ω) :
    ℕ → Config E ι S Op Out → Config E ι S Op Out
  | 0, a => a
  | n + 1, a =>
    match M.next a (.advance i ω) with
    | some b => M.drive i ω n b
    | none => a

/-- An operation that can be invoked leads to where the party is after the entry. -/
lemma next_eq_enter {i : ι} {op : Op} (h : (M.next a (.invoke i op)).isSome = true) :
    M.next a (.invoke i op) = some (M.enter a i (some op)) := by
  obtain ⟨b, hb⟩ := Option.isSome_iff_exists.1 h
  simp [enter, hb]

/-- A step that can be taken leads to where the party is driven to in one step. -/
lemma next_eq_drive {i : ι} {ω : Ω} (h : (M.next a (.advance i ω)).isSome = true) :
    M.next a (.advance i ω) = some (M.drive i ω 1 a) := by
  obtain ⟨b, hb⟩ := Option.isSome_iff_exists.1 h
  simp [drive, hb]

/-- Follow a script. -/
def play (M : Parallel E ι S Ω Op Out) (a : Config E ι S Op Out) (acts : List (Act ι Ω Op)) :
    Config E ι S Op Out :=
  acts.foldl (fun a x => M.drive x.who x.env x.steps (M.enter a x.who x.op)) a

/-- The steps that are taken when a party is driven. -/
def driven (M : Parallel E ι S Ω Op Out) (i : ι) (ω : Ω) :
    ℕ → Config E ι S Op Out → List (Config E ι S Op Out × Choice ι Ω Op)
  | 0, _ => []
  | n + 1, a =>
    (a, .advance i ω) ::
      match M.next a (.advance i ω) with
      | some b => M.driven i ω n b
      | none => []

/-- The steps that a script takes. -/
def taken (M : Parallel E ι S Ω Op Out) :
    Config E ι S Op Out → List (Act ι Ω Op) → List (Config E ι S Op Out × Choice ι Ω Op)
  | _, [] => []
  | a, x :: acts =>
    x.op.toList.map (fun op => (a, .invoke x.who op)) ++
      M.driven x.who x.env x.steps (M.enter a x.who x.op) ++
      M.taken (M.drive x.who x.env x.steps (M.enter a x.who x.op)) acts

section Reaches

variable {R : Config E ι S Op Out → Config E ι S Op Out → Prop}

lemma reaches_enter {i : ι} {op : Option Op}
    (h : ∀ o ∈ op, ∀ b, M.next a (.invoke i o) = some b → R a b) :
    ReflTransGen R a (M.enter a i op) := by
  cases op with
  | none => exact .refl
  | some op =>
    have henter : M.enter a i (some op) = (M.next a (.invoke i op)).getD a := rfl
    rw [henter]
    cases hnext : M.next a (.invoke i op) with
    | none => exact .refl
    | some b => exact .single (h op rfl b hnext)

lemma reaches_drive {i : ι} {ω : Ω} {n : ℕ}
    (h : ∀ x ∈ M.driven i ω n a, ∀ b, M.next x.1 x.2 = some b → R x.1 b) :
    ReflTransGen R a (M.drive i ω n a) := by
  induction n generalizing a with
  | zero => exact .refl
  | succ n ih =>
    unfold drive
    unfold driven at h
    cases hnext : M.next a (.advance i ω) with
    | none => exact .refl
    | some b =>
      rw [hnext] at h
      refine .head (h _ List.mem_cons_self b hnext) (ih fun x hx => ?_)
      exact h x (List.mem_cons_of_mem _ hx)

lemma reaches_play_of {acts : List (Act ι Ω Op)}
    (h : ∀ x ∈ M.taken a acts, ∀ b, M.next x.1 x.2 = some b → R x.1 b) :
    ReflTransGen R a (M.play a acts) := by
  induction acts generalizing a with
  | nil => exact .refl
  | cons x acts ih =>
    refine (reaches_enter fun o ho => ?_).trans ((reaches_drive fun y hy => ?_).trans
      (ih fun y hy => ?_))
    · exact h (a, .invoke x.who o) (by simp [taken, Option.mem_def.1 ho])
    · exact h y (by simp [taken, hy])
    · exact h y (by simp [taken, hy])

end Reaches

lemma reaches_play (acts : List (Act ι Ω Op)) (a : Config E ι S Op Out) :
    ReflTransGen M.Step a (M.play a acts) :=
  reaches_play_of fun _ _ _ h => ⟨_, h⟩

/-! ### The invariant rule -/

def contract (M : Parallel E ι S Ω Op Out) (I : S → Prop) (rely : ι → S → S → Prop)
    (allow : ι → E.Call → S → Prop) (hangs : Prop) (i : ι) : Contract E S Ω where
  handle := M.handle i
  inv := I
  rely := rely i
  allow := allow i
  hangs := hangs

/-- The operations keep to their contracts whatever the others do within `rely`, the calls
that the contracts allow keep the invariant and are within `rely` of the others, and what is
known of an operation at its end stays true. -/
structure Verified (M : Parallel E ι S Ω Op Out) (I : S → Prop) (rely : ι → S → S → Prop)
    (allow : ι → E.Call → S → Prop) (hangs : Prop)
    (post : ι → Op → Except E.Err Out → S → Prop) : Prop where
  refl : ∀ i s, rely i s s
  trans : ∀ i s₁ s₂ s₃, rely i s₁ s₂ → rely i s₂ s₃ → rely i s₁ s₃
  keeps : ∀ i c ω s r s', I s → allow i c s → M.handle i c ω s = some (r, s') → I s'
  leaves : ∀ i j c ω s r s', i ≠ j → I s → allow i c s → M.handle i c ω s = some (r, s') →
    rely j s s'
  lasting : ∀ i c ω s r s', I s → allow i c s → M.handle i c ω s = some (r, s') →
    ∀ j op reply, post j op reply s → post j op reply s'
  obeys : ∀ i op s, I s → (M.code i op).Sat (M.contract I rely allow hangs i) (post i op) s

/-- The same for operations that also count on an assertion about their party.  It holds while
the party has no operation in progress, and each operation restores it. -/
structure VerifiedAtRest (M : Parallel E ι S Ω Op Out) (I : S → Prop) (rely : ι → S → S → Prop)
    (allow : ι → E.Call → S → Prop) (hangs : Prop) (atRest : ι → S → Prop)
    (post : ι → Op → Except E.Err Out → S → Prop) : Prop where
  refl : ∀ i s, rely i s s
  trans : ∀ i s₁ s₂ s₃, rely i s₁ s₂ → rely i s₂ s₃ → rely i s₁ s₃
  keeps : ∀ i c ω s r s', I s → allow i c s → M.handle i c ω s = some (r, s') → I s'
  leaves : ∀ i j c ω s r s', i ≠ j → I s → allow i c s → M.handle i c ω s = some (r, s') →
    rely j s s'
  lasting : ∀ i c ω s r s', I s → allow i c s → M.handle i c ω s = some (r, s') →
    ∀ j op reply, post j op reply s → post j op reply s'
  stays : ∀ i s s', rely i s s' → atRest i s → atRest i s'
  obeys : ∀ i op s, I s → atRest i s → (M.code i op).Sat (M.contract I rely allow hangs i)
    (fun reply s => post i op reply s ∧ atRest i s) s

variable {I : S → Prop} {rely : ι → S → S → Prop} {allow : ι → E.Call → S → Prop} {hangs : Prop}
  {post : ι → Op → Except E.Err Out → S → Prop} {atRest : ι → S → Prop}

/-- What holds of a configuration in a run of verified operations. -/
structure Sound (M : Parallel E ι S Ω Op Out) (I : S → Prop) (rely : ι → S → S → Prop)
    (allow : ι → E.Call → S → Prop) (hangs : Prop)
    (post : ι → Op → Except E.Err Out → S → Prop) (a : Config E ι S Op Out) : Prop where
  inv : I a.world
  rest : ∀ i t, a.running i = some t →
    t.rest.Sat (M.contract I rely allow hangs i) (post i t.op) a.world
  finished : ∀ f ∈ a.finished, post f.who f.op f.reply a.world

omit [DecidableEq ι] in
lemma Sound.initial {s : S} (h : I s) :
    Sound M I rely allow hangs post (Config.initial s) :=
  ⟨h, by simp [Config.initial], by simp [Config.initial]⟩

/-- The same with an assertion about the parties at rest. -/
structure SoundAtRest (M : Parallel E ι S Ω Op Out) (I : S → Prop) (rely : ι → S → S → Prop)
    (allow : ι → E.Call → S → Prop) (hangs : Prop) (atRest : ι → S → Prop)
    (post : ι → Op → Except E.Err Out → S → Prop) (a : Config E ι S Op Out) : Prop where
  inv : I a.world
  rest : ∀ i t, a.running i = some t → t.rest.Sat (M.contract I rely allow hangs i)
    (fun reply s => post i t.op reply s ∧ atRest i s) a.world
  idle : ∀ i, a.running i = none → atRest i a.world
  finished : ∀ f ∈ a.finished, post f.who f.op f.reply a.world

omit [DecidableEq ι] in
lemma SoundAtRest.initial {s : S} (h : I s) (hrest : ∀ i, atRest i s) :
    SoundAtRest M I rely allow hangs atRest post (Config.initial s) :=
  ⟨h, by simp [Config.initial], fun i _ => hrest i, by simp [Config.initial]⟩

omit [DecidableEq ι] in
lemma SoundAtRest.sound (h : SoundAtRest M I rely allow hangs atRest post a) :
    Sound M I rely allow hangs post a :=
  ⟨h.inv, fun i t ht => (h.rest i t ht).mono fun _ _ _ hpost => hpost.1, h.finished⟩

lemma VerifiedAtRest.sound_step (hM : VerifiedAtRest M I rely allow hangs atRest post)
    (ha : SoundAtRest M I rely allow hangs atRest post a) (h : M.Step a b) :
    SoundAtRest M I rely allow hangs atRest post b := by
  -- what remains of the other parties' operations does not change
  have other {i : ι} {t' t : Option (Task E Op Out)} {j : ι} (hij : j ≠ i)
      (ht : Function.update a.running i t' j = t) : a.running j = t := by
    rwa [Function.update_of_ne hij] at ht
  -- a step that ends an operation leaves the state alone
  have ended {i : ι} {op : Op} {reply : Except E.Err Out}
      (hpost : post i op reply a.world ∧ atRest i a.world) :
      SoundAtRest M I rely allow hangs atRest post
        { a with
          running := Function.update a.running i none
          finished := ⟨i, op, reply⟩ :: a.finished } := by
    refine ⟨ha.inv, fun j t ht => ?_, fun j hj => ?_, fun f hf => ?_⟩
    · by_cases hij : j = i
      · subst hij
        simp at ht
      · exact ha.rest j t (other hij ht)
    · by_cases hij : j = i
      · subst hij
        exact hpost.2
      · exact ha.idle j (other hij hj)
    · rcases List.mem_cons.1 hf with rfl | hf
      · exact hpost.1
      · exact ha.finished f hf
  obtain ⟨l, hl⟩ := h
  rcases next_cases hl with ⟨i, op, -, hr, rfl⟩ | ⟨i, ω, op, v, -, hr, rfl⟩ |
    ⟨i, ω, op, e, -, hr, rfl⟩ | ⟨i, ω, op, c, k, r, w, -, hr, hw, rfl⟩
  · refine ⟨ha.inv, fun j t ht => ?_, fun j hj => ?_, ha.finished⟩
    · by_cases hij : j = i
      · subst hij
        obtain rfl : (⟨op, M.code j op⟩ : Task E Op Out) = t := by simpa using ht
        exact hM.obeys j op a.world ha.inv (ha.idle j hr)
      · exact ha.rest j t (other hij ht)
    · by_cases hij : j = i
      · subst hij
        simp at hj
      · exact ha.idle j (other hij hj)
  · exact ended (ha.rest i _ hr a.world (hM.refl i _) ha.inv)
  · exact ended (ha.rest i _ hr a.world (hM.refl i _) ha.inv)
  · obtain ⟨hallow, hk⟩ := ha.rest i _ hr a.world (hM.refl i _) ha.inv
    have leaves {j : ι} (hij : j ≠ i) : rely j a.world w :=
      hM.leaves i j c ω a.world r w (Ne.symm hij) ha.inv hallow hw
    refine ⟨hM.keeps i c ω a.world r w ha.inv hallow hw, fun j t ht => ?_, fun j hj => ?_,
      fun f hf => ?_⟩
    · by_cases hij : j = i
      · subst hij
        obtain rfl : (⟨op, k r⟩ : Task E Op Out) = t := by simpa using ht
        exact hk ω r w hw
      · exact Prog.Sat.stable (hM.trans j) (ha.rest j t (other hij ht)) (leaves hij)
    · by_cases hij : j = i
      · subst hij
        simp at hj
      · exact hM.stays j _ _ (leaves hij) (ha.idle j (other hij hj))
    · exact hM.lasting i c ω a.world r w ha.inv hallow hw _ _ _ (ha.finished f hf)

/-- **The invariant rule.**  Every configuration of a run of verified operations is
sound. -/
theorem VerifiedAtRest.sound (hM : VerifiedAtRest M I rely allow hangs atRest post)
    (ha : SoundAtRest M I rely allow hangs atRest post a) (h : ReflTransGen M.Step a b) :
    SoundAtRest M I rely allow hangs atRest post b := by
  induction h with
  | refl => exact ha
  | tail _ hstep ih => exact hM.sound_step ih hstep

/-- The rule without an assertion about parties at rest. -/
theorem Verified.sound (hM : Verified M I rely allow hangs post)
    (ha : Sound M I rely allow hangs post a) (h : ReflTransGen M.Step a b) :
    Sound M I rely allow hangs post b := by
  have hM' : VerifiedAtRest M I rely allow hangs (fun _ _ => True) post :=
    { refl := hM.refl
      trans := hM.trans
      keeps := hM.keeps
      leaves := hM.leaves
      lasting := hM.lasting
      stays := fun _ _ _ _ h => h
      obeys := fun i op s hs _ => (hM.obeys i op s hs).mono fun _ _ _ h => ⟨h, trivial⟩ }
  have ha' : SoundAtRest M I rely allow hangs (fun _ _ => True) post a :=
    ⟨ha.inv, fun i t ht => (ha.rest i t ht).mono fun _ _ _ h => ⟨h, trivial⟩,
      fun _ _ => trivial, ha.finished⟩
  exact (hM'.sound ha' h).sound

omit [DecidableEq ι] in
/-- A call that is about to be made is one that the contract of its party allows. -/
lemma Sound.allowed (hrefl : ∀ i s, rely i s s) (ha : Sound M I rely allow hangs post a) {i : ι}
    {op : Op} {c : E.Call} {k : Except E.Err (E.Value c) → Prog E Out}
    (h : a.running i = some ⟨op, .call c k⟩) : allow i c a.world :=
  (ha.rest i _ h a.world (hrefl i _) ha.inv).1

end Parallel

end MuduoChat
