import MuduoChat.Executor.Records

/-!
# Keyed serial execution

The invariants of the lanes and of the records hold in every state that the executor reaches.  They
give the order of the tasks of a key, and that each task has one fate.  A measure bounds the work
that is left; when no work is left, every task that was accepted has run or has expired.
-/

namespace MuduoChat

namespace SessionSerialExecutor

open Relation EventKind

variable {K W : Type} [DecidableEq K] [DecidableEq W] [Fintype W]

namespace View

variable {C : Config} {v v' : View K W} {w : W} {key : K} {p : Pending} {l : Label K W}

/-! ### The fate of a task -/

section Fate

omit [Fintype W] [DecidableEq W]

lemma Records.nodup_accepted (h : Records v) (key : K) :
    (tasksOf isAccepted key v.history).Nodup := by
  have hnumbers : ((v.history.filter fun e => e.kind.isAccepted).map
      fun e => e.task.number).Nodup := h.numbers ▸ List.nodup_range
  have hsub : (v.history.filter fun e => e.kind.isAccepted && decide (e.key = key)).Sublist
      (v.history.filter fun e => e.kind.isAccepted) :=
    List.monotone_filter_right _ fun e he => by
      rw [Bool.and_eq_true] at he
      exact he.1
  have hkey := hnumbers.sublist (hsub.map _)
  refine List.Nodup.of_map (f := Pending.number) ?_
  rw [tasksOf, List.map_map]
  exact hkey

lemma Records.looked_prefix (h : Records v) (key : K) :
    tasksOf isLooked key v.history <+: tasksOf isAccepted key v.history :=
  ⟨v.waiting key, (h.order key).symm⟩

lemma Records.nodup_looked (h : Records v) (key : K) :
    (tasksOf isLooked key v.history).Nodup :=
  (h.nodup_accepted key).sublist (h.looked_prefix key).sublist

lemma tasksOf_sublist {sel sel' : EventKind → Bool} (hsel : ∀ k, sel k = true → sel' k = true)
    (key : K) (h : List (Event K)) : (tasksOf sel key h).Sublist (tasksOf sel' key h) := by
  refine List.Sublist.map _ (List.monotone_filter_right _ fun e he => ?_)
  simp only [Bool.and_eq_true] at he ⊢
  exact ⟨hsel _ he.1, he.2⟩

omit [DecidableEq K] in
lemma isLooked_of_isExpired (k : EventKind) (hk : k.isExpired = true) : k.isLooked = true := by
  cases k with
  | looked now late => rfl
  | _ => cases hk

omit [DecidableEq K] in
lemma isLooked_of_isTaken (k : EventKind) (hk : k.isTaken = true) : k.isLooked = true := by
  cases k with
  | looked now late => rfl
  | _ => cases hk

lemma taken_sublist_looked (key : K) (h : List (Event K)) :
    (tasksOf isTaken key h).Sublist (tasksOf isLooked key h) :=
  tasksOf_sublist isLooked_of_isTaken key h

lemma mem_looked (key : K) (h : List (Event K)) :
    p ∈ tasksOf isLooked key h ↔
      p ∈ tasksOf isExpired key h ∨ p ∈ tasksOf isTaken key h := by
  constructor
  · intro hp
    obtain ⟨e, he, hkind, hkey, htask⟩ := mem_tasksOf.1 hp
    cases hk : e.kind with
    | looked now late =>
      cases late with
      | true => exact .inl (mem_tasksOf.2 ⟨e, he, by simp [hk, isExpired], hkey, htask⟩)
      | false => exact .inr (mem_tasksOf.2 ⟨e, he, by simp [hk, isTaken], hkey, htask⟩)
    | _ => simp [hk, isLooked] at hkind
  · rintro (hp | hp)
    · exact (tasksOf_sublist isLooked_of_isExpired key h).subset hp
    · exact (taken_sublist_looked key h).subset hp

lemma Records.not_taken_of_expired (h : Records v)
    (hp : p ∈ tasksOf isExpired key v.history) :
    p ∉ tasksOf isTaken key v.history := by
  intro hp'
  obtain ⟨e, he, hkind, hkey, htask⟩ := mem_tasksOf.1 hp
  obtain ⟨e', he', hkind', hkey', htask'⟩ := mem_tasksOf.1 hp'
  -- the two events are looks at the same task, and there is only one
  have hlooked : e.kind.isLooked = true := isLooked_of_isExpired _ hkind
  have hlooked' : e'.kind.isLooked = true := isLooked_of_isTaken _ hkind'
  have hsame : e = e' := by
    refine List.inj_on_of_nodup_map (h.nodup_looked key) ?_ ?_ (htask.trans htask'.symm)
    · simp [he, hlooked, hkey]
    · simp [he', hlooked', hkey']
  subst hsame
  cases hk : e.kind with
  | looked now late => cases late <;> simp [hk, isExpired, isTaken] at hkind hkind'
  | _ => simp [hk, isExpired] at hkind

lemma Records.mark_prefix (h : Records v) (m : Mark) (key : K) :
    tasksOf m.sel key v.history <+: tasksOf isTaken key v.history := by
  by_cases hfree : ∀ w, (v.workers w).key? ≠ some key
  · rw [h.rest key hfree m]
  · push Not at hfree
    obtain ⟨w, hw⟩ := hfree
    rw [Worker.key?_eq, Option.map_eq_some_iff] at hw
    obtain ⟨⟨k, p⟩, hw, rfl⟩ := hw
    obtain ⟨before, htaken, hmarks⟩ := h.held w k p hw
    rw [htaken, hmarks m]
    split
    · exact List.prefix_rfl
    · exact List.prefix_append _ _

lemma Records.started_or_taken (h : Records v)
    (hp : p ∈ tasksOf isTaken key v.history) :
    p ∈ tasksOf isStarted key v.history ∨ ∃ w, v.workers w = .taken key p := by
  by_cases hfree : ∀ w, (v.workers w).key? ≠ some key
  · left
    rwa [← h.rest key hfree .started] at hp
  · push Not at hfree
    obtain ⟨w, hw⟩ := hfree
    rw [Worker.key?_eq, Option.map_eq_some_iff] at hw
    obtain ⟨⟨k, q⟩, hw, rfl⟩ := hw
    obtain ⟨before, htaken, hmarks⟩ := h.held w k q hw
    have hstarted : tasksOf isStarted k v.history = _ := hmarks .started
    rw [htaken] at hp
    by_cases hstage : Mark.started.rank ≤ (v.workers w).stage
    · rw [hstarted, if_pos hstage]
      exact .inl hp
    · rw [hstarted, if_neg hstage]
      rcases List.mem_append.1 hp with hp | hp
      · exact .inl hp
      · right
        rw [List.mem_singleton.1 hp]
        refine ⟨w, ?_⟩
        cases hplace : v.workers w <;> simp_all [Worker.task?, Worker.stage, Mark.rank]

end Fate

/-! ### The work that is left -/

/-- How much work a worker has with its task. -/
def cost : Worker K → ℕ
  | .waiting => 0
  | .taken _ _ => 5
  | .executing _ _ => 4
  | .returned _ _ => 3
  | .posted _ _ => 2
  | .exited => 0

/-- The tasks to which something of a kind has happened, with their keys. -/
def keyed (sel : EventKind → Bool) (h : List (Event K)) : List (K × Pending) :=
  (h.filter fun e => sel e.kind).map fun e => (e.key, e.task)

/-- A bound for the steps that the workers still need for the tasks that have been accepted. -/
def work (v : View K W) : ℕ :=
  6 * ((keyed EventKind.isAccepted v.history).length -
      (keyed EventKind.isLooked v.history).length) +
    v.ready.length + ∑ w, cost (v.workers w)

section Work

omit [Fintype W] [DecidableEq W] [DecidableEq K] in
@[simp] lemma keyed_append (sel : EventKind → Bool) (h es : List (Event K)) :
    keyed sel (h ++ es) = keyed sel h ++ keyed sel es := by
  simp [keyed]

omit [Fintype W] [DecidableEq W] [DecidableEq K] in
lemma keyed_dropEvents (key : K) (dropped : List (ℤ × Pending)) :
    keyed isAccepted (dropEvents key dropped) = [] ∧
      (keyed isLooked (dropEvents key dropped)).length = dropped.length := by
  induction dropped with
  | nil => exact ⟨rfl, rfl⟩
  | cons x dropped ih => exact ⟨ih.1, congrArg (· + 1) ih.2⟩

omit [Fintype W] [DecidableEq W] in
lemma count_keyed (sel : EventKind → Bool) (h : List (Event K)) (key : K) (p : Pending) :
    (keyed sel h).count (key, p) = (tasksOf sel key h).count p := by
  induction h with
  | nil => rfl
  | cons e h ih =>
    rw [tasksOf_cons, List.count_append, ← ih]
    by_cases hsel : sel e.kind = true
    · have hcons : keyed sel (e :: h) = (e.key, e.task) :: keyed sel h := by
        simp [keyed, hsel]
      rw [hcons, List.count_cons, Nat.add_comm]
      by_cases hkey : e.key = key
      · simp [hsel, hkey, List.count_singleton]
      · simp [hkey]
    · have hcons : keyed sel (e :: h) = keyed sel h := by simp [keyed, hsel]
      simp [hcons, hsel]

omit [Fintype W] [DecidableEq W] in
lemma Records.looked_le (h : Records v) :
    (keyed isLooked v.history).length ≤
      (keyed isAccepted v.history).length := by
  refine List.Subperm.length_le (List.subperm_ext_iff.2 fun x _ => ?_)
  obtain ⟨key, p⟩ := x
  rw [count_keyed, count_keyed]
  exact (h.looked_prefix key).sublist.count_le p

omit [DecidableEq K] in
lemma sum_cost_move (v : View K W) (w : W) (place : Worker K) :
    ∑ w', cost ((v.move w place).workers w') + cost (v.workers w) =
      ∑ w', cost (v.workers w') + cost place := by
  have hothers : ∑ w' ∈ Finset.univ.erase w, cost ((v.move w place).workers w') =
      ∑ w' ∈ Finset.univ.erase w, cost (v.workers w') := by
    refine Finset.sum_congr rfl fun w' hw' => ?_
    simp [move, Finset.ne_of_mem_erase hw']
  have hnew := Finset.add_sum_erase Finset.univ (fun w' => cost ((v.move w place).workers w'))
    (Finset.mem_univ w)
  have hold := Finset.add_sum_erase Finset.univ (fun w' => cost (v.workers w')) (Finset.mem_univ w)
  have hself : (v.move w place).workers w = place := by simp [move]
  simp only [hself] at hnew
  omega

omit [DecidableEq W] in
lemma work_lt_of {n : ℕ} (h : Records v')
    (haccepted : keyed isAccepted v'.history = keyed isAccepted v.history)
    (hlooked : (keyed isLooked v'.history).length =
      (keyed isLooked v.history).length + n)
    (hrest : v'.ready.length + ∑ w, cost (v'.workers w) <
      6 * n + v.ready.length + ∑ w, cost (v.workers w)) : v'.work < v.work := by
  have hle := h.looked_le
  rw [hlooked, haccepted] at hle
  rw [work, work, haccepted, hlooked]
  omega

lemma work_goOn {place : Worker K} {m : Mark} (h : Records ((v.move w place).record [⟨m.kind, key, p⟩]))
    (hcost : cost place < cost (v.workers w)) :
    ((v.move w place).record [⟨m.kind, key, p⟩]).work < v.work := by
  refine work_lt_of (n := 0) h ?_ ?_ ?_
  · cases m <;> simp [record, move, keyed, Mark.kind, isAccepted]
  · cases m <;> simp [record, move, keyed, Mark.kind, isLooked]
  · have hsum := sum_cost_move v w place
    simp only [record, move] at hsum ⊢
    omega

/-- **Work makes the work that is left less.** -/
lemma work_lt (h : Records v') (hwork : l.IsWork) (hnext : v.Next C l v') : v'.work < v.work := by
  cases hnext with
  | rejected | submitIdle | submitBusy | shutdown | exit => cases hwork
  | @expired w clock key ready dropped hw hready hdrop =>
    obtain ⟨haccepted, hlooked⟩ := keyed_dropEvents key dropped
    refine work_lt_of (n := dropped.length) h ?_ ?_ ?_
    · simp [record, erase, haccepted]
    · simp [record, erase, hlooked]
    · simp only [record, erase, hready, List.length_cons]
      omega
  | @taken w clock key ready dropped p queue hw hready hdrop =>
    obtain ⟨haccepted, hlooked⟩ := keyed_dropEvents key dropped
    refine work_lt_of (n := dropped.length + 1) h ?_ ?_ ?_
    · simp only [record, take, keyed_append, haccepted]
      exact List.append_nil _
    · simp only [record, take, keyed_append, List.length_append, hlooked]
      rfl
    · have hsum := sum_cost_move v w (.taken key p)
      simp only [record, take, move, hready, List.length_cons, hw, cost] at hsum ⊢
      omega
  | start hw => exact work_goOn (m := .started) h (by simp [hw, cost])
  | finish hw => exact work_goOn (m := .finished) h (by simp [hw, cost])
  | post hw => exact work_goOn (m := .posted) h (by simp [hw, cost])
  | @requeue w key p hw hwaiting =>
    refine work_lt_of (n := 0) h rfl rfl ?_
    have hsum := sum_cost_move v w .waiting
    simp only [move, enqueue, hw, cost, List.length_append, List.length_singleton] at hsum ⊢
    omega
  | @release w key p hw hwaiting =>
    refine work_lt_of (n := 0) h rfl rfl ?_
    have hsum := sum_cost_move v w .waiting
    simp only [move, erase, hw, cost] at hsum ⊢
    omega

end Work

omit [DecidableEq W] in
lemma Records.done (hlanes : Lanes C v) (h : Records v) (hready : v.ready = [])
    (hfree : ∀ w, (v.workers w).key? = none) (hp : p ∈ tasksOf isAccepted key v.history) :
    p ∈ tasksOf isExpired key v.history ∨
      ∀ m : Mark, p ∈ tasksOf m.sel key v.history := by
  have hidle : v.laneState key = .idle := by
    cases hstate : v.laneState key with
    | idle => rfl
    | queued =>
      have hmem := (hlanes.ready_iff key).2 hstate
      simp [hready] at hmem
    | running =>
      obtain ⟨w, hw⟩ := (hlanes.running_iff key).1 hstate
      simp [hfree] at hw
  rw [h.order, hlanes.idle key hidle, List.append_nil, mem_looked] at hp
  refine hp.imp_right fun htaken m => ?_
  rw [h.rest key (fun w => by simp [hfree]) m]
  exact htaken

end View

/-! ### The theorem -/

variable {C : Config} {s t : State K W} {key : K} {p : Pending}

/-- The two invariants together. -/
structure Sound (C : Config) (s : State K W) : Prop where
  lanes : s.view.Lanes C
  records : s.view.Records

lemma sound_next [Nonempty W] (s : State K W) (l : Label K W) (t : State K W) (h : Sound C s)
    (hnext : (machine C).next s l = some t) : Sound C t :=
  ⟨h.lanes.step (next_view hnext), h.records.step h.lanes (next_view hnext)⟩

lemma sound_of_reaches [Nonempty W] (h : ReflTransGen (machine C).Step ({} : State K W) s) :
    Sound C s :=
  Machine.invariant sound_next ⟨View.lanes_initial C, View.records_initial⟩ h

/-- No worker can do anything for a task. -/
def Quiet (C : Config) (s : State K W) : Prop := ∀ l : Label K W, l.IsWork → (machine C).next s l = none

omit [Fintype W] in
lemma Quiet.free (h : Quiet C s) (w : W) : (s.workers w).key? = none := by
  cases hw : s.workers w with
  | waiting => rfl
  | exited => rfl
  | taken key p =>
    have hstart := h (.start w) trivial
    simp [machine, hw] at hstart
  | executing key p =>
    have hfinish := h (.finish w) trivial
    simp [machine, hw] at hfinish
  | returned key p =>
    have hpost := h (.post w) trivial
    simp [machine, hw] at hpost
  | posted key p =>
    have hrequeue := h (.requeue w) trivial
    simp [machine, hw] at hrequeue

lemma Quiet.ready_eq_nil (hsound : Sound C s) (h : Quiet C s) : s.ready = [] := by
  by_cases hall : ∀ w, s.workers w = .exited
  · exact hsound.lanes.drained hall
  · push Not at hall
    obtain ⟨w, hw⟩ := hall
    have hwaiting : s.workers w = .waiting := by
      have hfree := h.free w
      cases hplace : s.workers w <;> simp_all [Worker.key?]
    have hdequeue := h (.dequeue w fun _ => 0) trivial
    cases hready : s.ready with
    | nil => rfl
    | cons key ready =>
      simp only [machine, dequeue, hwaiting, hready] at hdequeue
      cases hlane : s.lanes key with
      | none => simp [hlane] at hdequeue
      | some lane =>
        simp only [hlane] at hdequeue
        split at hdequeue <;> cases hdequeue

/-- What the executor promises about a state. -/
structure KeyedSerial (C : Config) (s : State K W) : Prop where
  /-- Each submission that is accepted has a number of its own. -/
  distinct : ((s.history.filter fun e => e.kind.isAccepted).map fun e => e.task.number).Nodup
  /-- The tasks of a key start in the order in which they were accepted, each at most once. -/
  order : ∀ key, (tasksOf EventKind.isStarted key s.history).Sublist
    (tasksOf EventKind.isAccepted key s.history)
  /-- When a task starts, those of its key that have started before have finished. -/
  serial : ∀ before e after, s.history = before ++ e :: after → e.kind = .started →
    tasksOf EventKind.isStarted e.key before = tasksOf EventKind.isFinished e.key before
  /-- A task waits in its lane, or has expired, or is in the hands of a worker that has not started
  it, or has started. -/
  fate : ∀ key, ∀ p ∈ tasksOf EventKind.isAccepted key s.history,
    (∃ lane, s.lanes key = some lane ∧ p ∈ lane.queue) ∨
      p ∈ tasksOf EventKind.isExpired key s.history ∨
      (∃ w, s.workers w = .taken key p) ∨ p ∈ tasksOf EventKind.isStarted key s.history
  /-- A task expires if its deadline has passed when it is looked at at the head of its lane, and it
  is taken otherwise. -/
  deadline : ∀ e ∈ s.history, ∀ now late, e.kind = .looked now late → late = e.task.isLate now
  /-- A task that has expired never starts, and its completion is never posted. -/
  expired : ∀ key, ∀ p ∈ tasksOf EventKind.isExpired key s.history,
    p ∉ tasksOf EventKind.isStarted key s.history ∧ p ∉ tasksOf EventKind.isPosted key s.history
  /-- The workers are done with what has been accepted after finitely many steps, whatever order
  they take them in. -/
  bounded : ∃ n, ∀ ls t, (∀ l ∈ ls, l.IsWork) → (machine C).run s ls = some t → ls.length ≤ n
  /-- When they are done, every task has run, or has expired. -/
  done : Quiet C s → ∀ key, ∀ p ∈ tasksOf EventKind.isAccepted key s.history,
    p ∈ tasksOf EventKind.isExpired key s.history ∨ ∀ m : Mark, p ∈ tasksOf m.sel key s.history
  /-- So it is when the shutdown has returned, which waits for the workers. -/
  shutdown : s.shuttingDown = true → (∀ w, s.workers w = .exited) →
    ∀ key, ∀ p ∈ tasksOf EventKind.isAccepted key s.history,
      p ∈ tasksOf EventKind.isExpired key s.history ∨ ∀ m : Mark, p ∈ tasksOf m.sel key s.history
  /-- A key is ready at most once. -/
  ready_nodup : s.ready.Nodup
  /-- A key is ready exactly if its lane is queued. -/
  ready_iff : ∀ key, key ∈ s.ready ↔ ∃ lane, s.lanes key = some lane ∧ lane.state = .queued
  lane_le : ∀ key lane, s.lanes key = some lane → lane.queue.length ≤ C.laneCapacity
  size_le : s.ready.length +
      {key | ∃ lane, s.lanes key = some lane ∧ lane.state = .running}.encard ≤
    C.globalQueueCapacity + Fintype.card W

omit [DecidableEq W] in
lemma View.Lanes.encard_running_le (h : s.view.Lanes C) :
    {key | s.view.laneState key = .running}.encard ≤ s.view.busy.card := by
  have hsub : Option.some '' {key | s.view.laneState key = .running} ⊆
      (s.view.busy.image fun w => (s.workers w).key? : Set (Option K)) := by
    rintro _ ⟨key, hkey, rfl⟩
    obtain ⟨w, hw⟩ := (h.running_iff key).1 hkey
    rw [Finset.mem_coe, Finset.mem_image]
    exact ⟨w, View.mem_busy.2 (by simp [hw]), hw⟩
  calc {key | s.view.laneState key = .running}.encard
      = (Option.some '' {key | s.view.laneState key = .running}).encard :=
        ((Option.some_injective K).encard_image _).symm
    _ ≤ (s.view.busy.image fun w => (s.workers w).key?).card := by
        rw [← Set.encard_coe_eq_coe_finsetCard]
        exact Set.encard_le_encard hsub
    _ ≤ s.view.busy.card := by exact_mod_cast Finset.card_image_le

omit [DecidableEq K] in
lemma stateOf_eq_iff {lanes : K → Option Lane} {x : LaneState} (hx : x ≠ .idle) :
    stateOf lanes key = x ↔ ∃ lane, lanes key = some lane ∧ lane.state = x := by
  unfold stateOf
  cases lanes key with
  | none => simpa using hx.symm
  | some lane => simp

/-- **Keyed serial execution.**  Whatever the threads submit, in whatever order the workers take their
steps and whenever the shutdown begins, the executor keeps its promises. -/
theorem keyed_serial_execution [Nonempty W] (h : ReflTransGen (machine C).Step ({} : State K W) s) :
    KeyedSerial C s := by
  have hsound := sound_of_reaches h
  obtain ⟨hlanes, hrecords⟩ := hsound
  refine { distinct := hrecords.numbers ▸ List.nodup_range, order := fun key => ?_,
           serial := hrecords.exclusive, fate := fun key p hp => ?_, deadline := hrecords.late,
           expired := fun key p hp => ?_, bounded := ⟨s.view.work, fun ls t hls hrun => ?_⟩,
           done := fun hquiet key p hp => ?_, shutdown := fun _ hall key p hp => ?_,
           ready_nodup := hlanes.nodup, ready_iff := fun key => ?_, lane_le := fun key lane hlane => ?_,
           size_le := ?_ }
  · exact ((hrecords.mark_prefix .started key).sublist.trans
      (View.taken_sublist_looked key _)).trans (hrecords.looked_prefix key).sublist
  · have hp' : p ∈ tasksOf EventKind.isLooked key s.history ++ s.view.waiting key :=
      hrecords.order key ▸ hp
    rcases List.mem_append.1 hp' with hlooked | hwaiting
    · rcases (View.mem_looked key _).1 hlooked with hexpired | htaken
      · exact .inr (.inl hexpired)
      · exact .inr (.inr (hrecords.started_or_taken htaken).symm)
    · left
      cases hlane : s.lanes key with
      | none => simp [State.view, queueOf, hlane] at hwaiting
      | some lane => exact ⟨lane, rfl, by simpa [State.view, queueOf, hlane] using hwaiting⟩
  · have hnot := hrecords.not_taken_of_expired hp
    exact ⟨fun hstarted => hnot ((hrecords.mark_prefix .started key).subset hstarted),
      fun hposted => hnot ((hrecords.mark_prefix .posted key).subset hposted)⟩
  · exact Machine.length_le_of_decreasing (μ := fun s => s.view.work) sound_next
      (fun s l t hs hl hnext => View.work_lt (sound_next s l t hs hnext).records hl (next_view hnext))
      ⟨hlanes, hrecords⟩ hls hrun
  · exact hrecords.done hlanes (hquiet.ready_eq_nil ⟨hlanes, hrecords⟩) hquiet.free hp
  · refine hrecords.done hlanes (hlanes.drained hall) (fun w => ?_) hp
    show (s.workers w).key? = none
    rw [hall w]
    rfl
  · rw [← stateOf_eq_iff (by simp)]
    exact hlanes.ready_iff key
  · have hle := hlanes.lane_le key
    simpa [State.view, queueOf, hlane] using hle
  · have hrunning := hlanes.encard_running_le
    have hsize := hlanes.size_le
    have hset : {key | ∃ lane, s.lanes key = some lane ∧ lane.state = .running} =
        {key | s.view.laneState key = .running} := by
      ext key
      exact (stateOf_eq_iff (by simp)).symm
    rw [hset]
    calc (s.ready.length : ℕ∞) + {key | s.view.laneState key = .running}.encard
        ≤ s.ready.length + s.view.busy.card := by gcongr
      _ ≤ C.globalQueueCapacity + Fintype.card W := by exact_mod_cast hsize

/-- Two tasks of one key: the first one runs, the second one is late when its turn comes. -/
def lateSecond : List (Label ℕ (Fin 2)) :=
  [.submit 7 0 0, .submit 7 5 0, .dequeue 0 fun _ => 1, .start 0, .finish 0, .post 0, .requeue 0,
    .dequeue 1 fun _ => 9]

theorem keyed_serial_lateSecond : ∃ s : State ℕ (Fin 2), (machine ⟨4, 4⟩).run {} lateSecond = some s ∧
    tasksOf EventKind.isPosted 7 s.history = [⟨0, 0, 0⟩] ∧
    tasksOf EventKind.isExpired 7 s.history = [⟨1, 0, 5⟩] ∧ KeyedSerial ⟨4, 4⟩ s :=
  ⟨_, rfl, by decide, by decide, keyed_serial_execution
    (Machine.reaches_of_run (show (machine ⟨4, 4⟩).run {} lateSecond = some _ from rfl))⟩

end SessionSerialExecutor

end MuduoChat
