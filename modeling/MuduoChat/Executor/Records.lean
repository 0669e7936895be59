import MuduoChat.Executor.Lanes

/-!
# What happens to the tasks

The history of the executor is read key by key.  The tasks of a key that have been accepted are
those that have been looked at, in this order, followed by those that wait in its lane.  Of the tasks
that have been looked at and were not late, all but the last one have been started, have returned and
have had their completions handed over; how far the last one is, the worker knows that has taken the
lane.
-/

namespace MuduoChat

namespace SessionSerialExecutor

variable {K W : Type} [DecidableEq K] [DecidableEq W]

/-! ### Reading the history -/

namespace EventKind

def isAccepted : EventKind → Bool
  | .accepted => true
  | _ => false

def isLooked : EventKind → Bool
  | .looked _ _ => true
  | _ => false

/-- The task was late. -/
def isExpired : EventKind → Bool
  | .looked _ late => late
  | _ => false

/-- The task was not late. -/
def isTaken : EventKind → Bool
  | .looked _ late => !late
  | _ => false

def isStarted : EventKind → Bool
  | .started => true
  | _ => false

def isFinished : EventKind → Bool
  | .finished => true
  | _ => false

def isPosted : EventKind → Bool
  | .posted => true
  | _ => false

end EventKind

/-- The tasks of a key to which something of a kind has happened, in the order of the events. -/
def tasksOf (sel : EventKind → Bool) (key : K) (h : List (Event K)) : List Pending :=
  (h.filter fun e => sel e.kind && decide (e.key = key)).map Event.task

section TasksOf

omit [DecidableEq W]

variable {sel : EventKind → Bool} {key k : K} {h es : List (Event K)}

@[simp] lemma tasksOf_nil : tasksOf sel key [] = [] := rfl

@[simp] lemma tasksOf_append : tasksOf sel key (h ++ es) = tasksOf sel key h ++ tasksOf sel key es := by
  simp [tasksOf]

lemma tasksOf_cons (e : Event K) : tasksOf sel key (e :: es) =
    (if sel e.kind = true ∧ e.key = key then [e.task] else []) ++ tasksOf sel key es := by
  unfold tasksOf
  by_cases h : sel e.kind = true ∧ e.key = key
  · rw [List.filter_cons_of_pos (by simpa using h), if_pos h]
    rfl
  · rw [List.filter_cons_of_neg (by simpa using h), if_neg h]
    rfl

variable (es) in
lemma tasksOf_eq_nil (h : ∀ e ∈ es, sel e.kind = true → e.key ≠ key) : tasksOf sel key es = [] := by
  simp only [tasksOf, List.map_eq_nil_iff, List.filter_eq_nil_iff, Bool.and_eq_true,
    decide_eq_true_eq, not_and]
  exact h

lemma mem_tasksOf {p : Pending} :
    p ∈ tasksOf sel key h ↔ ∃ e ∈ h, sel e.kind = true ∧ e.key = key ∧ e.task = p := by
  simp [tasksOf, and_assoc]

/-- The events of tasks that a worker looks at: those that are late, and then others. -/
def lookEvents (key : K) (dropped rest : List (ℤ × Pending)) : List (Event K) :=
  dropEvents key dropped ++ rest.map fun x => ⟨.looked x.1 false, key, x.2⟩

lemma tasksOf_lookEvents (sel : EventKind → Bool) (key k : K) (dropped rest : List (ℤ × Pending)) :
    tasksOf sel k (lookEvents key dropped rest) =
      if key = k then
        (dropped.filter fun x => sel (.looked x.1 true)).map Prod.snd ++
          (rest.filter fun x => sel (.looked x.1 false)).map Prod.snd
      else [] := by
  -- the events of one list
  have hone (late : Bool) (xs : List (ℤ × Pending)) :
      tasksOf sel k (xs.map fun x => (⟨.looked x.1 late, key, x.2⟩ : Event K)) =
        if key = k then (xs.filter fun x => sel (.looked x.1 late)).map Prod.snd else [] := by
    by_cases hk : key = k
    · rw [if_pos hk, tasksOf, List.filter_map, List.map_map]
      simp [Function.comp_def, hk]
    · rw [if_neg hk]
      refine tasksOf_eq_nil _ fun e he _ => ?_
      obtain ⟨x, -, rfl⟩ := List.mem_map.1 he
      exact hk
  rw [lookEvents, dropEvents, tasksOf_append, hone, hone]
  split
  · rfl
  · rfl

end TasksOf

lemma dropExpired_spec (clock : ℕ → ℤ) (n : ℕ) (ps : List Pending) :
    ps = (dropExpired clock n ps).1.map Prod.snd ++ (dropExpired clock n ps).2 ∧
      (∀ x ∈ (dropExpired clock n ps).1, x.2.isLate x.1 = true) ∧
      ∀ p queue, (dropExpired clock n ps).2 = p :: queue →
        p.isLate (clock (n + (dropExpired clock n ps).1.length)) = false := by
  induction ps generalizing n with
  | nil => simp [dropExpired]
  | cons p ps ih =>
    obtain ⟨hsplit, hlate, hhead⟩ := ih (n + 1)
    unfold dropExpired
    split
    · rename_i hp
      refine ⟨by simp [← hsplit], fun x hx => ?_, fun q queue hq => ?_⟩
      · rcases List.mem_cons.1 hx with rfl | hx
        · exact hp
        · exact hlate x hx
      · have hnot := hhead q queue hq
        rw [List.length_cons, show ∀ m, n + (m + 1) = n + 1 + m by omega]
        exact hnot
    · rename_i hp
      refine ⟨rfl, by simp, fun q queue hq => ?_⟩
      cases hq
      simpa using hp

/-! ### The invariant -/

/-- What happens to a task that has been taken, one after the other. -/
inductive Mark where
  | started
  | finished
  | posted
  deriving DecidableEq

namespace Mark

def kind : Mark → EventKind
  | .started => .started
  | .finished => .finished
  | .posted => .posted

def sel : Mark → EventKind → Bool
  | .started => EventKind.isStarted
  | .finished => EventKind.isFinished
  | .posted => EventKind.isPosted

/-- The place in the order. -/
def rank : Mark → ℕ
  | .started => 1
  | .finished => 2
  | .posted => 3

end Mark

def Worker.task? : Worker K → Option (K × Pending)
  | .waiting => none
  | .taken key p => some (key, p)
  | .executing key p => some (key, p)
  | .returned key p => some (key, p)
  | .posted key p => some (key, p)
  | .exited => none

/-- How much of it has happened. -/
def Worker.stage : Worker K → ℕ
  | .executing _ _ => 1
  | .returned _ _ => 2
  | .posted _ _ => 3
  | _ => 0

omit [DecidableEq K] in
lemma Worker.key?_eq (x : Worker K) : x.key? = x.task?.map Prod.fst := by
  cases x <;> rfl

namespace View

variable {C : Config} {v v' : View K W} {w : W} {key : K} {p : Pending} {l : Label K W}

/-- How the history, the lanes and the workers fit together. -/
structure Records (v : View K W) : Prop where
  order : ∀ key, tasksOf EventKind.isAccepted key v.history =
    tasksOf EventKind.isLooked key v.history ++ v.waiting key
  numbers : ((v.history.filter fun e => e.kind.isAccepted).map fun e => e.task.number) =
    List.range v.submitted
  late : ∀ e ∈ v.history, ∀ now late, e.kind = .looked now late → late = e.task.isLate now
  rest : ∀ key, (∀ w, (v.workers w).key? ≠ some key) → ∀ m : Mark,
    tasksOf m.sel key v.history = tasksOf EventKind.isTaken key v.history
  held : ∀ w key p, (v.workers w).task? = some (key, p) → ∃ before,
    tasksOf EventKind.isTaken key v.history = before ++ [p] ∧ ∀ m : Mark,
      tasksOf m.sel key v.history =
        if m.rank ≤ (v.workers w).stage then before ++ [p] else before
  exclusive : ∀ before e after, v.history = before ++ e :: after → e.kind = .started →
    tasksOf EventKind.isStarted e.key before = tasksOf EventKind.isFinished e.key before

lemma exclusive_append {h es : List (Event K)}
    (hold : ∀ before e after, h = before ++ e :: after → e.kind = .started →
      tasksOf EventKind.isStarted e.key before = tasksOf EventKind.isFinished e.key before)
    (hes : ∀ e ∈ es, e.kind ≠ .started) :
    ∀ before e after, h ++ es = before ++ e :: after → e.kind = .started →
      tasksOf EventKind.isStarted e.key before = tasksOf EventKind.isFinished e.key before := by
  intro before e after heq hstart
  rcases List.append_eq_append_iff.1 heq with ⟨mid, hbefore, hafter⟩ | ⟨mid, hh, hafter⟩
  · -- the event is one of the new ones
    have hmem : e ∈ es := by simp [hafter]
    exact absurd hstart (hes e hmem)
  · cases mid with
    | nil =>
      have hmem : e ∈ es := by
        simp only [List.nil_append] at hafter
        simp [← hafter]
      exact absurd hstart (hes e hmem)
    | cons e' mid =>
      cases hafter
      exact hold before e mid hh hstart

lemma tasksOf_mark_append {h es : List (Event K)} (m : Mark) (hes : ∀ e ∈ es, m.sel e.kind = false) :
    tasksOf m.sel key (h ++ es) = tasksOf m.sel key h := by
  rw [tasksOf_append, tasksOf_eq_nil es, List.append_nil]
  intro e he hsel
  rw [hes e he] at hsel
  cases hsel

omit [DecidableEq W] in
lemma Records.push (h : Records v) (hp : p.number = v.submitted) : Records (v.push key p) := by
  have hnone (m : Mark) : ∀ e ∈ [(⟨.accepted, key, p⟩ : Event K)], m.sel e.kind = false := by
    cases m <;> simp [Mark.sel, EventKind.isStarted, EventKind.isFinished, EventKind.isPosted]
  have htaken (k : K) : tasksOf EventKind.isTaken k (v.push key p).history =
      tasksOf EventKind.isTaken k v.history := by
    simp [View.push, tasksOf_cons, EventKind.isTaken]
  have hmark (k : K) (m : Mark) : tasksOf m.sel k (v.push key p).history =
      tasksOf m.sel k v.history := tasksOf_mark_append m (hnone m)
  constructor
  · intro k
    by_cases hk : k = key
    · subst hk
      simp [View.push, tasksOf_cons, EventKind.isAccepted, EventKind.isLooked, h.order]
    · simp [View.push, tasksOf_cons, EventKind.isAccepted, EventKind.isLooked, h.order, hk,
        Ne.symm hk]
  · have hnew : ([⟨.accepted, key, p⟩] : List (Event K)).filter (fun e => e.kind.isAccepted) =
        [⟨.accepted, key, p⟩] := rfl
    simp only [View.push, List.filter_append, List.map_append, h.numbers, hnew, List.range_succ,
      List.map_cons, List.map_nil, hp]
  · intro e he now late hkind
    rcases List.mem_append.1 he with he | he
    · exact h.late e he now late hkind
    · rw [List.mem_singleton.1 he] at hkind
      cases hkind
  · intro k hk m
    rw [hmark, htaken]
    exact h.rest k hk m
  · intro w k q hw
    simp only [hmark, htaken]
    exact h.held w k q hw
  · exact exclusive_append h.exclusive (by simp)

omit [DecidableEq W] in
lemma Records.enqueue (h : Records v) : Records (v.enqueue key) :=
  ⟨h.order, h.numbers, h.late, h.rest, h.held, h.exclusive⟩

lemma tasksOf_look (key k : K) (dropped rest : List (ℤ × Pending)) :
    tasksOf EventKind.isAccepted k (lookEvents key dropped rest) = [] ∧
      tasksOf EventKind.isLooked k (lookEvents key dropped rest) =
        (if key = k then dropped.map Prod.snd ++ rest.map Prod.snd else []) ∧
      tasksOf EventKind.isTaken k (lookEvents key dropped rest) =
        (if key = k then rest.map Prod.snd else []) ∧
      ∀ m : Mark, tasksOf m.sel k (lookEvents key dropped rest) = [] := by
  refine ⟨?_, ?_, ?_, fun m => ?_⟩
  · simp [tasksOf_lookEvents, EventKind.isAccepted]
  · simp [tasksOf_lookEvents, EventKind.isLooked]
  · simp [tasksOf_lookEvents, EventKind.isTaken]
  · cases m <;> simp [tasksOf_lookEvents, Mark.sel, EventKind.isStarted, EventKind.isFinished,
      EventKind.isPosted]

omit [DecidableEq K] in
lemma mem_lookEvents {e : Event K} {dropped rest : List (ℤ × Pending)}
    (hdropped : ∀ x ∈ dropped, x.2.isLate x.1 = true) (hrest : ∀ x ∈ rest, x.2.isLate x.1 = false)
    (he : e ∈ lookEvents key dropped rest) : ∃ now, e.kind = .looked now (e.task.isLate now) := by
  rcases List.mem_append.1 he with he | he
  · obtain ⟨x, hx, rfl⟩ := List.mem_map.1 he
    exact ⟨x.1, by simp [hdropped x hx]⟩
  · obtain ⟨x, hx, rfl⟩ := List.mem_map.1 he
    exact ⟨x.1, by simp [hrest x hx]⟩

omit [DecidableEq W] in
lemma Records.look (h : Records v) (key : K) (dropped rest : List (ℤ × Pending))
    (queue : List Pending)
    (hqueue : v.waiting key = dropped.map Prod.snd ++ rest.map Prod.snd ++ queue)
    (hdropped : ∀ x ∈ dropped, x.2.isLate x.1 = true) (hrest : ∀ x ∈ rest, x.2.isLate x.1 = false)
    (hwaiting : v'.waiting = Function.update v.waiting key queue)
    (hhistory : v'.history = v.history ++ lookEvents key dropped rest)
    (hsubmitted : v'.submitted = v.submitted)
    (hrest' : ∀ k, (∀ w, (v'.workers w).key? ≠ some k) → ∀ m : Mark,
      tasksOf m.sel k v.history =
        tasksOf EventKind.isTaken k v.history ++ if key = k then rest.map Prod.snd else [])
    (hheld : ∀ w k p, (v'.workers w).task? = some (k, p) → ∃ before,
      (tasksOf EventKind.isTaken k v.history ++ if key = k then rest.map Prod.snd else []) =
        before ++ [p] ∧ ∀ m : Mark, tasksOf m.sel k v.history =
          if m.rank ≤ (v'.workers w).stage then before ++ [p] else before) : Records v' := by
  have hlook (k : K) := tasksOf_look key k dropped rest
  have htaken (k : K) : tasksOf EventKind.isTaken k v'.history =
      tasksOf EventKind.isTaken k v.history ++ if key = k then rest.map Prod.snd else [] := by
    rw [hhistory, tasksOf_append, (hlook k).2.2.1]
  have hmark (k : K) (m : Mark) : tasksOf m.sel k v'.history = tasksOf m.sel k v.history := by
    rw [hhistory, tasksOf_append, (hlook k).2.2.2 m, List.append_nil]
  have hkind {e : Event K} (he : e ∈ lookEvents key dropped rest) :
      ∃ now, e.kind = .looked now (e.task.isLate now) := mem_lookEvents hdropped hrest he
  constructor
  · intro k
    rw [hhistory, tasksOf_append, tasksOf_append, (hlook k).1, (hlook k).2.1, hwaiting, h.order]
    by_cases hk : key = k
    · subst hk
      simp [hqueue]
    · simp [hk, Ne.symm hk]
  · have hnew : (lookEvents key dropped rest).filter (fun e => e.kind.isAccepted) = [] := by
      refine List.filter_eq_nil_iff.2 fun e he => ?_
      obtain ⟨now, hnow⟩ := hkind he
      simp [hnow, EventKind.isAccepted]
    rw [hhistory, hsubmitted, List.filter_append, hnew, List.append_nil]
    exact h.numbers
  · intro e he now late hlate
    rw [hhistory] at he
    rcases List.mem_append.1 he with he | he
    · exact h.late e he now late hlate
    · obtain ⟨now', hnow'⟩ := hkind he
      obtain ⟨rfl, rfl⟩ := EventKind.looked.inj (hnow'.symm.trans hlate)
      rfl
  · intro k hk m
    rw [hmark, htaken]
    exact hrest' k hk m
  · intro w k p hw
    simp only [hmark, htaken]
    exact hheld w k p hw
  · rw [hhistory]
    refine exclusive_append h.exclusive fun e he hstart => ?_
    obtain ⟨now, hnow⟩ := hkind he
    cases hnow.symm.trans hstart

omit [DecidableEq W] in
lemma Records.expired (h : Records v) {ready : List K} {clock : ℕ → ℤ}
    {dropped : List (ℤ × Pending)} (hdrop : dropExpired clock 0 (v.waiting key) = (dropped, [])) :
    Records ((({ v with ready := ready } : View K W).erase key).record (dropEvents key dropped)) := by
  obtain ⟨hsplit, hlate, -⟩ := dropExpired_spec clock 0 (v.waiting key)
  rw [hdrop] at hsplit hlate
  refine h.look key dropped [] [] (by simpa using hsplit)
    hlate (by simp) rfl (by simp [record, erase, lookEvents]) rfl (fun k hk m => ?_)
    fun w k p hw => ?_
  · have hrest := h.rest k hk m
    simpa using hrest
  · obtain ⟨before, htaken, hmarks⟩ := h.held w k p hw
    exact ⟨before, by simpa using htaken, hmarks⟩

section Workers

variable [Fintype W]

lemma Records.taken (hlanes : Lanes C v) (h : Records v) {ready : List K} {clock : ℕ → ℤ}
    {dropped : List (ℤ × Pending)} {queue : List Pending} (hw : v.workers w = .waiting)
    (hready : v.ready = key :: ready)
    (hdrop : dropExpired clock 0 (v.waiting key) = (dropped, p :: queue)) :
    Records ((({ v with ready := ready } : View K W).take w key p queue).record
      (dropEvents key dropped ++ [⟨.looked (clock dropped.length) false, key, p⟩])) := by
  obtain ⟨hsplit, hlate, hhead⟩ := dropExpired_spec clock 0 (v.waiting key)
  have hnot := hhead p queue (by rw [hdrop])
  rw [hdrop] at hsplit hlate hnot
  rw [Nat.zero_add] at hnot
  -- nobody has the lane before, so everything that was taken is done
  have hdone := h.rest key (hlanes.free (k := key) (by simp [hready]))
  refine h.look key dropped [(clock dropped.length, p)] queue (by simpa using hsplit) hlate (by simpa using hnot) rfl
    (by simp [record, take, lookEvents]) rfl (fun k hk m => ?_) fun w' k q hw' => ?_
  · have hne : key ≠ k := by
      rintro rfl
      exact hk w (by simp [record, take, Worker.key?])
    rw [if_neg hne, List.append_nil]
    refine h.rest k (fun w' hw' => ?_) m
    have hww : w' ≠ w := by
      rintro rfl
      simp [hw, Worker.key?] at hw'
    exact hk w' (by simpa [record, take, hww] using hw')
  · by_cases hww : w' = w
    · subst hww
      simp only [record, take, Function.update_self, Worker.task?, Option.some.injEq,
        Prod.mk.injEq] at hw' ⊢
      obtain ⟨rfl, rfl⟩ := hw'
      refine ⟨tasksOf EventKind.isTaken key v.history, by simp, fun m => ?_⟩
      rw [hdone m, if_neg]
      cases m <;> simp [Worker.stage, Mark.rank]
    · have hold : (v.workers w').task? = some (k, q) := by simpa [record, take, hww] using hw'
      have hne : key ≠ k := by
        rintro rfl
        exact hlanes.free (k := key) (by simp [hready]) w' (by rw [Worker.key?_eq, hold]; rfl)
      obtain ⟨before, htaken, hmarks⟩ := h.held w' k q hold
      refine ⟨before, by rwa [if_neg hne, List.append_nil], fun m => ?_⟩
      simpa [record, take, hww] using hmarks m

omit [Fintype W] [DecidableEq W] in
variable (key p) in
lemma tasksOf_mark (m : Mark) (k : K) :
    tasksOf EventKind.isAccepted k [⟨m.kind, key, p⟩] = [] ∧
      tasksOf EventKind.isLooked k [⟨m.kind, key, p⟩] = [] ∧
      tasksOf EventKind.isTaken k [⟨m.kind, key, p⟩] = [] ∧
      ∀ m' : Mark, tasksOf m'.sel k [⟨m.kind, key, p⟩] =
        if m'.rank = m.rank ∧ key = k then [p] else [] := by
  refine ⟨?_, ?_, ?_, fun m' => ?_⟩
  · cases m <;> rfl
  · cases m <;> rfl
  · cases m <;> rfl
  · cases m <;> cases m' <;>
      simp [tasksOf_cons, Mark.sel, Mark.kind, Mark.rank, EventKind.isStarted, EventKind.isFinished,
        EventKind.isPosted]

lemma Records.goOn (hlanes : Lanes C v) (h : Records v) {place : Worker K} {m : Mark}
    (hw : (v.workers w).task? = some (key, p)) (hplace : place.task? = some (key, p))
    (hrank : m.rank = (v.workers w).stage + 1) (hstage : place.stage = m.rank) :
    Records ((v.move w place).record [⟨m.kind, key, p⟩]) := by
  have hmark (k : K) := tasksOf_mark key p m k
  have hkey : (v.workers w).key? = some key := by rw [Worker.key?_eq, hw]; rfl
  obtain ⟨before, htaken, hmarks⟩ := h.held w key p hw
  constructor
  · intro k
    simp only [record, move, tasksOf_append, (hmark k).1, (hmark k).2.1, List.append_nil]
    exact h.order k
  · have hnew : ([⟨m.kind, key, p⟩] : List (Event K)).filter (fun e => e.kind.isAccepted) = [] := by
      cases m <;> rfl
    simp only [record, move, List.filter_append, hnew, List.append_nil]
    exact h.numbers
  · intro e he now late hlate
    rcases List.mem_append.1 he with he | he
    · exact h.late e he now late hlate
    · rw [List.mem_singleton.1 he] at hlate
      cases m <;> cases hlate
  · intro k hk m'
    have hne : key ≠ k := by
      rintro rfl
      refine hk w ?_
      simp [record, move, Worker.key?_eq, hplace]
    simp only [record, move, tasksOf_append, (hmark k).2.2.1, (hmark k).2.2.2, hne, and_false,
      if_false, List.append_nil]
    refine h.rest k (fun w' hw' => ?_) m'
    have hww : w' ≠ w := by
      rintro rfl
      exact hne (Option.some.inj (hkey.symm.trans hw'))
    exact hk w' (by simpa [record, move, hww] using hw')
  · intro w' k q hw'
    by_cases hww : w' = w
    · subst hww
      simp only [record, move, Function.update_self, hplace, Option.some.injEq,
        Prod.mk.injEq] at hw'
      obtain ⟨rfl, rfl⟩ := hw'
      refine ⟨before, by simpa [record, move, (hmark key).2.2.1] using htaken, fun m' => ?_⟩
      simp only [record, move, tasksOf_append, (hmark key).2.2.2, hmarks m', Function.update_self,
        hstage, and_true]
      -- the mark is the next one after those that the task has
      rcases Nat.lt_trichotomy m'.rank m.rank with hlt | heq | hgt
      · rw [if_pos (by omega), if_neg (by omega), if_pos (by omega), List.append_nil]
      · rw [if_neg (by omega), if_pos heq, if_pos (by omega)]
      · rw [if_neg (by omega), if_neg (by omega), if_neg (by omega), List.append_nil]
    · have hold : (v.workers w').task? = some (k, q) := by simpa [record, move, hww] using hw'
      have hne : key ≠ k := by
        rintro rfl
        exact hww (hlanes.one w' w key (by rw [Worker.key?_eq, hold]; rfl) hkey)
      obtain ⟨before', htaken', hmarks'⟩ := h.held w' k q hold
      refine ⟨before', by simpa [record, move, (hmark k).2.2.1] using htaken', fun m' => ?_⟩
      simpa [record, move, (hmark k).2.2.2, hne, hww] using hmarks' m'
  · intro before' e after heq hstart
    rcases List.eq_nil_or_concat after with rfl | ⟨after', last, rfl⟩
    · -- the event is the new one, and the task has no marks yet
      obtain ⟨rfl, he⟩ := List.append_inj' heq rfl
      obtain rfl := List.singleton_inj.1 he
      have hzero : (v.workers w).stage = 0 := by
        cases m with
        | started => simpa [Mark.rank] using hrank.symm
        | finished | posted => cases hstart
      have hstarted := hmarks .started
      have hfinished := hmarks .finished
      rw [hzero] at hstarted hfinished
      exact hstarted.trans hfinished.symm
    · refine h.exclusive before' e after' ?_ hstart
      have hassoc : before' ++ e :: after'.concat last = (before' ++ e :: after') ++ [last] := by
        simp
      exact (List.append_inj' (heq.trans hassoc) rfl).1

omit [Fintype W] in
lemma Records.giveBack (h : Records v)
    (hw : v.workers w = .posted key p) (hwaiting : v'.waiting = v.waiting)
    (hhistory : v'.history = v.history) (hsubmitted : v'.submitted = v.submitted)
    (hworkers : v'.workers = Function.update v.workers w .waiting) : Records v' := by
  obtain ⟨before, htaken, hmarks⟩ := h.held w key p (by rw [hw]; rfl)
  constructor
  · rw [hhistory, hwaiting]
    exact h.order
  · rw [hhistory, hsubmitted]
    exact h.numbers
  · rw [hhistory]
    exact h.late
  · intro k hk m
    rw [hhistory]
    by_cases hkey : k = key
    · -- the task has all its marks
      subst hkey
      rw [htaken, hmarks m, hw, if_pos]
      cases m <;> simp [Worker.stage, Mark.rank]
    · refine h.rest k (fun w' hw' => ?_) m
      have hww : w' ≠ w := by
        rintro rfl
        rw [hw] at hw'
        exact hkey (Option.some.inj hw').symm
      exact hk w' (by rwa [hworkers, Function.update_of_ne hww])
  · intro w' k q hw'
    have hww : w' ≠ w := by
      rintro rfl
      simp [hworkers, Worker.task?] at hw'
    rw [hworkers, Function.update_of_ne hww] at hw'
    rw [hhistory, hworkers, Function.update_of_ne hww]
    exact h.held w' k q hw'
  · rw [hhistory]
    exact h.exclusive

omit [Fintype W] in
lemma Records.exit (h : Records v) (hw : v.workers w = .waiting) : Records (v.move w .exited) := by
  refine { h with rest := fun k hk m => ?_, held := fun w' k q hw' => ?_ }
  · refine h.rest k (fun w' hw' => ?_) m
    have hww : w' ≠ w := by
      rintro rfl
      simp [hw, Worker.key?] at hw'
    exact hk w' (by simpa [move, hww] using hw')
  · have hww : w' ≠ w := by
      rintro rfl
      simp [move, Worker.task?] at hw'
    simp only [move, Function.update_of_ne hww] at hw' ⊢
    exact h.held w' k q hw'

/-- **The step lemma.** -/
lemma Records.step (hlanes : Lanes C v) (h : Records v) (hnext : v.Next C l v') : Records v' := by
  cases hnext with
  | rejected => exact h
  | submitIdle hdown hlane hidle hready => exact (h.push rfl).enqueue
  | submitBusy hdown hlane hbusy => exact h.push rfl
  | shutdown => exact ⟨h.order, h.numbers, h.late, h.rest, h.held, h.exclusive⟩
  | expired hw hready hdrop => exact h.expired hdrop
  | taken hw hready hdrop => exact h.taken hlanes hw hready hdrop
  | start hw =>
    exact h.goOn hlanes (m := .started) (by rw [hw]; rfl) rfl (by rw [hw]; rfl) rfl
  | finish hw =>
    exact h.goOn hlanes (m := .finished) (by rw [hw]; rfl) rfl (by rw [hw]; rfl) rfl
  | post hw =>
    exact h.goOn hlanes (m := .posted) (by rw [hw]; rfl) rfl (by rw [hw]; rfl) rfl
  | requeue hw hwaiting => exact h.giveBack hw rfl rfl rfl rfl
  | release hw hwaiting =>
    refine h.giveBack hw ?_ rfl rfl rfl
    simp [move, erase, ← hwaiting]
  | exit hw hready hdown => exact h.exit hw

end Workers

omit [DecidableEq W] in
lemma records_initial : Records ({} : State K W).view where
  order key := rfl
  numbers := rfl
  late e he := by cases he
  rest key _ m := rfl
  held w key p hw := by cases hw
  exclusive before e after h := by simp [State.view] at h

end View

end SessionSerialExecutor

end MuduoChat
