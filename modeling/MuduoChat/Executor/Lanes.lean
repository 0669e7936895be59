import MuduoChat.Executor.Model

/-!
# Lanes, the ready queue and the workers

What the executor does to its lanes is said once, as a relation between views of its state
(`View.Next`); a view shows a lane that is not in the map as one that is idle and empty.  The
invariant `Lanes` follows from this relation alone: a key is ready exactly if its lane is queued, a
lane is running exactly if one worker has taken it, and a lane that is idle has no tasks.
-/

namespace MuduoChat

namespace SessionSerialExecutor

variable {K W : Type} [DecidableEq K] [DecidableEq W]

/-- What there is to see of a state. -/
structure View (K W : Type) where
  laneState : K → LaneState
  waiting : K → List Pending
  ready : List K
  shuttingDown : Bool
  workers : W → Worker K
  submitted : ℕ
  history : List (Event K)

def stateOf (lanes : K → Option Lane) (key : K) : LaneState :=
  ((lanes key).map Lane.state).getD .idle

/-- The tasks that wait in a lane. -/
def queueOf (lanes : K → Option Lane) (key : K) : List Pending :=
  ((lanes key).map Lane.queue).getD []

def State.view (s : State K W) : View K W where
  laneState := stateOf s.lanes
  waiting := queueOf s.lanes
  ready := s.ready
  shuttingDown := s.shuttingDown
  workers := s.workers
  submitted := s.submitted
  history := s.history

namespace View

variable (C : Config) (v : View K W)

/-- A task is put into its lane. -/
def push (key : K) (p : Pending) : View K W :=
  { v with
    waiting := Function.update v.waiting key (v.waiting key ++ [p])
    submitted := v.submitted + 1
    history := v.history ++ [⟨.accepted, key, p⟩] }

/-- A lane is put into the ready queue. -/
def enqueue (key : K) : View K W :=
  { v with
    laneState := Function.update v.laneState key .queued
    ready := v.ready ++ [key] }

/-- A lane is done. -/
def erase (key : K) : View K W :=
  { v with
    laneState := Function.update v.laneState key .idle
    waiting := Function.update v.waiting key [] }

/-- A worker goes somewhere. -/
def move (w : W) (place : Worker K) : View K W :=
  { v with workers := Function.update v.workers w place }

def record (es : List (Event K)) : View K W := { v with history := v.history ++ es }

/-- A worker takes a lane whose tasks up to `p` are dropped. -/
def take (w : W) (key : K) (p : Pending) (queue : List Pending) : View K W :=
  { v with
    laneState := Function.update v.laneState key .running
    waiting := Function.update v.waiting key queue
    workers := Function.update v.workers w (.taken key p) }

/-- What a step can do. -/
inductive Next : Label K W → View K W → Prop
  | rejected {key : K} {d now : ℤ} : Next (.submit key d now) v
  | submitIdle {key : K} {d now : ℤ} (hdown : v.shuttingDown = false)
      (hlane : (v.waiting key).length < C.laneCapacity) (hidle : v.laneState key = .idle)
      (hready : v.ready.length < C.globalQueueCapacity) :
      Next (.submit key d now) ((v.push key ⟨v.submitted, now, d⟩).enqueue key)
  | submitBusy {key : K} {d now : ℤ} (hdown : v.shuttingDown = false)
      (hlane : (v.waiting key).length < C.laneCapacity) (hbusy : v.laneState key ≠ .idle) :
      Next (.submit key d now) (v.push key ⟨v.submitted, now, d⟩)
  | shutdown : Next .shutdown { v with shuttingDown := true }
  | expired {w : W} {clock : ℕ → ℤ} {key : K} {ready : List K} {dropped : List (ℤ × Pending)}
      (hw : v.workers w = .waiting) (hready : v.ready = key :: ready)
      (hdrop : dropExpired clock 0 (v.waiting key) = (dropped, [])) :
      Next (.dequeue w clock)
        (({ v with ready := ready } : View K W).erase key |>.record (dropEvents key dropped))
  | taken {w : W} {clock : ℕ → ℤ} {key : K} {ready : List K} {dropped : List (ℤ × Pending)}
      {p : Pending} {queue : List Pending} (hw : v.workers w = .waiting)
      (hready : v.ready = key :: ready)
      (hdrop : dropExpired clock 0 (v.waiting key) = (dropped, p :: queue)) :
      Next (.dequeue w clock)
        (({ v with ready := ready } : View K W).take w key p queue |>.record
          (dropEvents key dropped ++ [⟨.looked (clock dropped.length) false, key, p⟩]))
  | start {w : W} {key : K} {p : Pending} (hw : v.workers w = .taken key p) :
      Next (.start w) ((v.move w (.executing key p)).record [⟨.started, key, p⟩])
  | finish {w : W} {key : K} {p : Pending} (hw : v.workers w = .executing key p) :
      Next (.finish w) ((v.move w (.returned key p)).record [⟨.finished, key, p⟩])
  | post {w : W} {key : K} {p : Pending} (hw : v.workers w = .returned key p) :
      Next (.post w) ((v.move w (.posted key p)).record [⟨.posted, key, p⟩])
  | requeue {w : W} {key : K} {p : Pending} (hw : v.workers w = .posted key p)
      (hwaiting : v.waiting key ≠ []) :
      Next (.requeue w) ((v.enqueue key).move w .waiting)
  | release {w : W} {key : K} {p : Pending} (hw : v.workers w = .posted key p)
      (hwaiting : v.waiting key = []) :
      Next (.requeue w) ((v.erase key).move w .waiting)
  | exit {w : W} (hw : v.workers w = .waiting) (hready : v.ready = [])
      (hdown : v.shuttingDown = true) : Next (.exit w) (v.move w .exited)

variable {C v} in
lemma Next.of_eq {l : Label K W} {v1 v2 : View K W} (h : v.Next C l v1) (heq : v2 = v1) :
    v.Next C l v2 := heq ▸ h

end View

variable {C : Config} {s t : State K W} {l : Label K W}

section Refinement

variable {lanes : K → Option Lane} {key : K} {lane : Lane}

lemma stateOf_update (x : Option Lane) : stateOf (Function.update lanes key x) =
    Function.update (stateOf lanes) key ((x.map Lane.state).getD .idle) := by
  funext k
  by_cases hk : k = key
  · simp [stateOf, hk]
  · simp [stateOf, hk]

lemma queueOf_update (x : Option Lane) : queueOf (Function.update lanes key x) =
    Function.update (queueOf lanes) key ((x.map Lane.queue).getD []) := by
  funext k
  by_cases hk : k = key
  · simp [queueOf, hk]
  · simp [queueOf, hk]

omit [DecidableEq K] in
lemma getD_eq : (lanes key).getD {} = ⟨queueOf lanes key, stateOf lanes key⟩ := by
  simp only [stateOf, queueOf]
  cases lanes key with
  | none => rfl
  | some lane => rfl

omit [DecidableEq K] in
lemma eq_of_lanes (h : lanes key = some lane) :
    lane = ⟨queueOf lanes key, stateOf lanes key⟩ := by
  rw [← getD_eq, h]
  rfl

lemma submit_view (key : K) (d now : ℤ) :
    s.view.Next C (.submit key d now) (submit C s key d now).2.view := by
  unfold submit
  split
  · exact .rejected
  · rename_i hdown
    have hup : s.shuttingDown = false := by simpa using hdown
    simp only [getD_eq]
    split
    · -- the lane is written as it was
      refine View.Next.rejected.of_eq ?_
      simp [State.view, stateOf_update, queueOf_update]
    · rename_i hfull
      push Not at hfull
      by_cases hidle : stateOf s.lanes key = .idle
      · refine (View.Next.submitIdle hup hfull.1 hidle (hfull.2 hidle)).of_eq ?_
        simp [State.view, View.push, View.enqueue, stateOf_update, queueOf_update, hidle]
      · refine (View.Next.submitBusy hup hfull.1 hidle).of_eq ?_
        simp [State.view, View.push, stateOf_update, queueOf_update, hidle]

omit [DecidableEq K] [DecidableEq W] in
lemma view_of_none (h : s.lanes key = none) :
    s.view.laneState key = .idle ∧ s.view.waiting key = [] := by
  simp [State.view, stateOf, queueOf, h]

lemma dequeue_view {w : W} {clock : ℕ → ℤ} (h : dequeue s w clock = some t) :
    s.view.Next C (.dequeue w clock) t.view := by
  unfold dequeue at h
  split at h
  case h_2 => cases h
  case h_1 key ready hw hready =>
    have hw' : s.view.workers w = .waiting := hw
    cases hlane : s.lanes key with
    | none =>
      simp only [hlane, Option.some.injEq] at h
      subst h
      obtain ⟨hstate, hqueue⟩ := view_of_none hlane
      have hdrop : dropExpired clock 0 (s.view.waiting key) = ([], []) := by rw [hqueue]; rfl
      refine (View.Next.expired hw' hready hdrop).of_eq ?_
      simp [State.view, View.erase, View.record, dropEvents, ← hstate, ← hqueue]
    | some lane =>
      have hqueue : lane.queue = s.view.waiting key := by rw [eq_of_lanes hlane]; rfl
      simp only [hlane, hqueue] at h
      split at h
      case h_1 dropped hdrop =>
        cases h
        refine (View.Next.expired hw' hready hdrop).of_eq ?_
        simp [State.view, View.erase, View.record, stateOf_update, queueOf_update]
      case h_2 dropped p queue hdrop =>
        cases h
        refine (View.Next.taken hw' hready hdrop).of_eq ?_
        simp [State.view, View.take, View.record, stateOf_update, queueOf_update]

lemma requeue_view {w : W} {key : K} {p : Pending} (hw : s.workers w = .posted key p) :
    s.view.Next C (.requeue w) (requeue s w key).view := by
  have hw' : s.view.workers w = .posted key p := hw
  unfold requeue
  cases hlane : s.lanes key with
  | none =>
    obtain ⟨hstate, hqueue⟩ := view_of_none hlane
    refine (View.Next.release hw' hqueue).of_eq ?_
    simp [State.view, View.erase, View.move, ← hstate, ← hqueue]
  | some lane =>
    have heq := eq_of_lanes hlane
    dsimp only
    split
    · rename_i hne
      rw [heq] at hne
      refine (View.Next.requeue hw' hne).of_eq ?_
      simp [State.view, View.enqueue, View.move, stateOf_update, queueOf_update, heq]
    · rename_i hempty
      rw [heq, not_not] at hempty
      refine (View.Next.release hw' hempty).of_eq ?_
      simp [State.view, View.erase, View.move, stateOf_update, queueOf_update]

/-- **Refinement.**  A step of the executor is one of the steps between views. -/
theorem next_view (h : (machine C).next s l = some t) : s.view.Next C l t.view := by
  cases l with
  | submit key d now =>
    cases h
    exact submit_view key d now
  | shutdown =>
    cases h
    exact .shutdown
  | dequeue w clock => exact dequeue_view h
  | start w =>
    simp only [machine] at h
    split at h
    case h_1 key p hw =>
      cases h
      exact .start hw
    case h_2 => cases h
  | finish w =>
    simp only [machine] at h
    split at h
    case h_1 key p hw =>
      cases h
      exact .finish hw
    case h_2 => cases h
  | post w =>
    simp only [machine] at h
    split at h
    case h_1 key p hw =>
      cases h
      exact .post hw
    case h_2 => cases h
  | requeue w =>
    simp only [machine] at h
    split at h
    case h_1 key p hw =>
      cases h
      exact requeue_view hw
    case h_2 => cases h
  | exit w =>
    simp only [machine] at h
    split at h
    case h_1 hw =>
      split at h
      case isTrue hcond =>
        cases h
        exact .exit hw hcond.1 hcond.2
      case isFalse => cases h
    case h_2 => cases h

end Refinement

/-! ### The invariant -/

namespace View

variable [Fintype W] {v v' : View K W} {w : W} {key : K}

/-- The workers that have taken a lane. -/
def busy (v : View K W) : Finset W := Finset.univ.filter fun w => (v.workers w).key?.isSome = true

/-- How the lanes, the ready queue and the workers fit together. -/
structure Lanes (C : Config) (v : View K W) : Prop where
  nodup : v.ready.Nodup
  ready_iff : ∀ key, key ∈ v.ready ↔ v.laneState key = .queued
  running_iff : ∀ key, v.laneState key = .running ↔ ∃ w, (v.workers w).key? = some key
  one : ∀ w w' key, (v.workers w).key? = some key → (v.workers w').key? = some key → w = w'
  idle : ∀ key, v.laneState key = .idle → v.waiting key = []
  lane_le : ∀ key, (v.waiting key).length ≤ C.laneCapacity
  size_le : v.ready.length + v.busy.card ≤ C.globalQueueCapacity + Fintype.card W
  exited : ∀ w, v.workers w = .exited → v.shuttingDown = true
  drained : (∀ w, v.workers w = .exited) → v.ready = []

omit [DecidableEq K] [DecidableEq W] in
lemma mem_busy : w ∈ v.busy ↔ (v.workers w).key?.isSome = true := by
  simp [busy]

omit [DecidableEq K] [DecidableEq W] in
lemma card_busy_le (v : View K W) : v.busy.card ≤ Fintype.card W := Finset.card_le_univ _

lemma length_dropExpired_le (clock : ℕ → ℤ) (n : ℕ) (ps : List Pending) :
    (dropExpired clock n ps).2.length ≤ ps.length := by
  induction ps generalizing n with
  | nil => simp [dropExpired]
  | cons p ps ih =>
    unfold dropExpired
    split
    · exact (ih (n + 1)).trans (Nat.le_succ _)
    · exact le_refl _

omit [DecidableEq K] [DecidableEq W] in
lemma Lanes.of_same (h : Lanes C v) (hstate : v'.laneState = v.laneState)
    (hwaiting : v'.waiting = v.waiting) (hready : v'.ready = v.ready)
    (hkey : ∀ w, (v'.workers w).key? = (v.workers w).key?)
    (hexited : ∀ w, v'.workers w = .exited → v.workers w = .exited)
    (hdown : v.shuttingDown = true → v'.shuttingDown = true) : Lanes C v' := by
  have hbusy : v'.busy = v.busy := by
    ext w
    rw [mem_busy, mem_busy, hkey]
  constructor
  · exact hready ▸ h.nodup
  · exact fun key => by rw [hready, hstate, h.ready_iff]
  · exact fun key => by simp only [hstate, hkey, h.running_iff]
  · intro w w' key hw hw'
    rw [hkey] at hw hw'
    exact h.one w w' key hw hw'
  · intro key hidle
    rw [hstate] at hidle
    rw [hwaiting, h.idle key hidle]
  · exact fun key => hwaiting ▸ h.lane_le key
  · rw [hready, hbusy]
    exact h.size_le
  · exact fun w hw => hdown (h.exited w (hexited w hw))
  · exact fun hall => hready ▸ h.drained fun w => hexited w (hall w)

omit [DecidableEq K] in
lemma Lanes.goOn (h : Lanes C v) {place : Worker K} {es : List (Event K)}
    (hw : (v.workers w).key? = some key) (hplace : place.key? = some key) :
    Lanes C ((v.move w place).record es) := by
  have hne : place ≠ .exited := by
    rintro rfl
    cases hplace
  refine h.of_same rfl rfl rfl (fun w' => ?_) (fun w' hw' => ?_) fun hdown => hdown
  · by_cases hww : w' = w
    · simp [move, record, hww, hw, hplace]
    · simp [move, record, hww]
  · by_cases hww : w' = w
    · simp [move, record, hww, hne] at hw'
    · simpa [move, record, hww] using hw'

omit [DecidableEq W] in
lemma Lanes.push (h : Lanes C v) {p : Pending} (hlane : (v.waiting key).length < C.laneCapacity)
    (hbusy : v.laneState key ≠ .idle) : Lanes C (v.push key p) := by
  refine { h with idle := fun k hk => ?_, lane_le := fun k => ?_ }
  · have hne : k ≠ key := by
      rintro rfl
      exact hbusy hk
    simpa [View.push, hne] using h.idle k hk
  · by_cases hk : k = key
    · simp only [View.push, hk, Function.update_self, List.length_append, List.length_singleton]
      omega
    · simpa [View.push, hk] using h.lane_le k

omit [DecidableEq K] [DecidableEq W] in
lemma Lanes.of_others (h : Lanes C v) (key : K)
    (hstate : ∀ k, k ≠ key → v'.laneState k = v.laneState k)
    (hwaiting : ∀ k, k ≠ key → v'.waiting k = v.waiting k)
    (hready : ∀ k, k ≠ key → (k ∈ v'.ready ↔ k ∈ v.ready))
    (hworkers : ∀ k, k ≠ key →
      ((∃ w, (v'.workers w).key? = some k) ↔ ∃ w, (v.workers w).key? = some k))
    (nodup : v'.ready.Nodup) (ready_iff : key ∈ v'.ready ↔ v'.laneState key = .queued)
    (running_iff : v'.laneState key = .running ↔ ∃ w, (v'.workers w).key? = some key)
    (one : ∀ w w' k, (v'.workers w).key? = some k → (v'.workers w').key? = some k → w = w')
    (idle : v'.laneState key = .idle → v'.waiting key = [])
    (lane_le : (v'.waiting key).length ≤ C.laneCapacity)
    (size_le : v'.ready.length + v'.busy.card ≤ C.globalQueueCapacity + Fintype.card W)
    (exited : ∀ w, v'.workers w = .exited → v'.shuttingDown = true)
    (drained : ¬∀ w, v'.workers w = .exited) : Lanes C v' := by
  refine ⟨nodup, fun k => ?_, fun k => ?_, one, fun k => ?_, fun k => ?_, size_le, exited,
    fun hall => absurd hall drained⟩ <;> by_cases hk : k = key
  · exact hk ▸ ready_iff
  · rw [hready k hk, hstate k hk, h.ready_iff]
  · exact hk ▸ running_iff
  · rw [hworkers k hk, hstate k hk, h.running_iff]
  · exact hk ▸ idle
  · rw [hstate k hk, hwaiting k hk]
    exact h.idle k
  · exact hk ▸ lane_le
  · rw [hwaiting k hk]
    exact h.lane_le k

omit [DecidableEq W] in
lemma Lanes.submitIdle [Nonempty W] (h : Lanes C v) {p : Pending} (hdown : v.shuttingDown = false)
    (hlane : (v.waiting key).length < C.laneCapacity) (hidle : v.laneState key = .idle)
    (hready : v.ready.length < C.globalQueueCapacity) : Lanes C ((v.push key p).enqueue key) := by
  have hnot : key ∉ v.ready := by
    rw [h.ready_iff, hidle]
    simp
  refine h.of_others key (fun k hk => ?_) (fun k hk => ?_) (fun k hk => ?_) (fun _ _ => Iff.rfl)
    ?_ ?_ ?_ h.one ?_ ?_ ?_ h.exited ?_
  · simp [View.push, enqueue, hk]
  · simp [View.push, enqueue, hk]
  · simp [View.push, enqueue, hk]
  · have hconcat := h.nodup.concat hnot
    rwa [List.concat_eq_append] at hconcat
  · simp [View.push, enqueue]
  · have hnone := (h.running_iff key).not.1 (by simp [hidle])
    simpa [View.push, enqueue] using hnone
  · simp [View.push, enqueue]
  · simp only [View.push, enqueue, Function.update_self, List.length_append, List.length_singleton]
    omega
  · have hcard : ((v.push key p).enqueue key).busy.card ≤ Fintype.card W := card_busy_le _
    simp only [enqueue, View.push, List.length_append, List.length_singleton] at hcard ⊢
    omega
  · intro hall
    -- workers exit only after the shutdown has begun
    obtain ⟨w⟩ := ‹Nonempty W›
    have hw := h.exited w (hall w)
    rw [hdown] at hw
    cases hw

omit [DecidableEq W] in
lemma Lanes.expired (h : Lanes C v) {ready : List K} {es : List (Event K)}
    (hw : v.workers w = .waiting) (hready : v.ready = key :: ready) :
    Lanes C ((({ v with ready := ready } : View K W).erase key).record es) := by
  have hnodup : key ∉ ready ∧ ready.Nodup := by simpa [hready] using h.nodup
  have hqueued : v.laneState key = .queued := (h.ready_iff key).1 (by simp [hready])
  refine h.of_others key (fun k hk => ?_) (fun k hk => ?_) (fun k hk => ?_) (fun _ _ => Iff.rfl)
    hnodup.2 ?_ ?_ h.one ?_ ?_ ?_ h.exited fun hall => ?_
  · simp [record, erase, hk]
  · simp [record, erase, hk]
  · simp [record, erase, hk, hready]
  · simp [record, erase, hnodup.1]
  · have hnone := (h.running_iff key).not.1 (by simp [hqueued])
    simpa [record, erase] using hnone
  · simp [record, erase]
  · simp [record, erase]
  · have hsize := h.size_le
    have hbusy : ((({ v with ready := ready } : View K W).erase key).record es).busy = v.busy := rfl
    rw [hready, List.length_cons] at hsize
    rw [hbusy]
    simp only [record, erase]
    omega
  · have hexited := hall w
    simp [record, erase, hw] at hexited

omit [DecidableEq K] in
lemma busy_move (v : View K W) (w : W) (place : Worker K) :
    (v.move w place).busy =
      if place.key?.isSome = true then insert w v.busy else v.busy.erase w := by
  ext w'
  rw [mem_busy]
  by_cases hw : w' = w
  · split
    case isTrue h => simp [move, hw, h]
    case isFalse h => simpa [move, hw] using h
  · split <;> simp [move, hw, mem_busy]

omit [DecidableEq K] [DecidableEq W] in
lemma Lanes.free (h : Lanes C v) {k : K} (hready : k ∈ v.ready) (w : W) :
    (v.workers w).key? ≠ some k := by
  intro hw
  have hrunning := (h.running_iff k).2 ⟨w, hw⟩
  rw [(h.ready_iff k).1 hready] at hrunning
  cases hrunning

lemma Lanes.taken (h : Lanes C v) {ready : List K} {es : List (Event K)} {p : Pending}
    {queue : List Pending} (hw : v.workers w = .waiting) (hready : v.ready = key :: ready)
    (hqueue : queue.length ≤ C.laneCapacity) :
    Lanes C ((({ v with ready := ready } : View K W).take w key p queue).record es) := by
  have hnodup : key ∉ ready ∧ ready.Nodup := by simpa [hready] using h.nodup
  have hqueued : v.laneState key = .queued := (h.ready_iff key).1 (by simp [hready])
  have hfree := h.free (k := key) (by simp [hready])
  refine h.of_others key (fun k hk => ?_) (fun k hk => ?_) (fun k hk => ?_) (fun k hk => ?_)
    hnodup.2 ?_ ?_ (fun w1 w2 k h1 h2 => ?_) ?_ ?_ ?_ (fun w' hw' => ?_) fun hall => ?_
  · simp [record, take, hk]
  · simp [record, take, hk]
  · simp [record, take, hk, hready]
  · refine exists_congr fun w' => ?_
    by_cases hne : w' = w
    · simp [record, take, hne, hw, Worker.key?, Ne.symm hk]
    · simp [record, take, hne]
  · simp [record, take, hnodup.1]
  · simp only [record, take, Function.update_self, true_iff]
    exact ⟨w, by simp [Worker.key?]⟩
  · simp only [record, take] at h1 h2
    by_cases hw1 : w1 = w <;> by_cases hw2 : w2 = w
    · rw [hw1, hw2]
    · simp only [hw1, Function.update_self, Worker.key?, Option.some.injEq] at h1
      rw [Function.update_of_ne hw2, ← h1] at h2
      exact absurd h2 (hfree w2)
    · simp only [hw2, Function.update_self, Worker.key?, Option.some.injEq] at h2
      rw [Function.update_of_ne hw1, ← h2] at h1
      exact absurd h1 (hfree w1)
    · rw [Function.update_of_ne hw1] at h1
      rw [Function.update_of_ne hw2] at h2
      exact h.one w1 w2 k h1 h2
  · simp [record, take]
  · simpa [record, take] using hqueue
  · have hbusy : ((({ v with ready := ready } : View K W).take w key p queue).record es).busy =
        insert w v.busy := busy_move v w (.taken key p)
    have hnot : w ∉ v.busy := by simp [mem_busy, hw, Worker.key?]
    have hsize := h.size_le
    rw [hready, List.length_cons] at hsize
    rw [hbusy, Finset.card_insert_of_notMem hnot]
    simp only [record, take]
    omega
  · by_cases hne : w' = w
    · simp [record, take, hne] at hw'
    · exact h.exited w' (by simpa [record, take, hne] using hw')
  · have hexited := hall w
    simp [record, take] at hexited

omit [DecidableEq K] in
lemma Lanes.giveBack (h : Lanes C v) (hw : (v.workers w).key? = some key)
    (hworkers : v'.workers = Function.update v.workers w .waiting)
    (hdown : v'.shuttingDown = v.shuttingDown)
    (hstate : ∀ k, k ≠ key → v'.laneState k = v.laneState k)
    (hwaiting : ∀ k, k ≠ key → v'.waiting k = v.waiting k)
    (hready : ∀ k, k ≠ key → (k ∈ v'.ready ↔ k ∈ v.ready))
    (hstopped : v'.laneState key ≠ .running) (nodup : v'.ready.Nodup)
    (ready_iff : key ∈ v'.ready ↔ v'.laneState key = .queued)
    (idle : v'.laneState key = .idle → v'.waiting key = [])
    (lane_le : (v'.waiting key).length ≤ C.laneCapacity)
    (hsize : v'.ready.length ≤ v.ready.length + 1) : Lanes C v' := by
  have hother {w' : W} {k : K} (hw' : (v'.workers w').key? = some k) :
      w' ≠ w ∧ (v.workers w').key? = some k := by
    rw [hworkers] at hw'
    by_cases hne : w' = w
    · simp [hne, Worker.key?] at hw'
    · exact ⟨hne, by rwa [Function.update_of_ne hne] at hw'⟩
  refine h.of_others key hstate hwaiting hready (fun k hk => ⟨?_, ?_⟩) nodup ready_iff
    (iff_of_false hstopped ?_) (fun w1 w2 k h1 h2 => h.one w1 w2 k (hother h1).2 (hother h2).2) idle
    lane_le ?_ (fun w' hw' => ?_) fun hall => ?_
  · exact fun ⟨w', hw'⟩ => ⟨w', (hother hw').2⟩
  · rintro ⟨w', hw'⟩
    have hne : w' ≠ w := by
      rintro rfl
      exact hk (Option.some.inj (hw'.symm.trans hw))
    exact ⟨w', by rwa [hworkers, Function.update_of_ne hne]⟩
  · rintro ⟨w', hw'⟩
    exact (hother hw').1 (h.one w' w key (hother hw').2 hw)
  · have hbusy : v'.busy = v.busy.erase w := by
      rw [busy, hworkers]
      exact busy_move v w .waiting
    have hmem : w ∈ v.busy := mem_busy.2 (by simp [hw])
    have hpos : 0 < v.busy.card := Finset.card_pos.2 ⟨w, hmem⟩
    have hbound := h.size_le
    rw [hbusy, Finset.card_erase_of_mem hmem]
    omega
  · rw [hworkers] at hw'
    by_cases hne : w' = w
    · simp [hne] at hw'
    · rw [Function.update_of_ne hne] at hw'
      rw [hdown, h.exited w' hw']
  · have hexited := hall w
    simp [hworkers] at hexited

omit [DecidableEq K] [DecidableEq W] in
lemma Lanes.notMem_ready (h : Lanes C v) (hw : (v.workers w).key? = some key) : key ∉ v.ready :=
  fun hready => h.free hready w hw

lemma Lanes.requeue (h : Lanes C v) (hw : (v.workers w).key? = some key) :
    Lanes C ((v.enqueue key).move w .waiting) := by
  refine h.giveBack hw rfl rfl (fun k hk => ?_) (fun _ _ => rfl) (fun k hk => ?_) ?_ ?_ ?_ ?_
    (h.lane_le key) ?_
  · simp [move, enqueue, hk]
  · simp [move, enqueue, hk]
  · simp [move, enqueue]
  · have hconcat := h.nodup.concat (h.notMem_ready hw)
    rwa [List.concat_eq_append] at hconcat
  · simp [move, enqueue]
  · simp [move, enqueue]
  · simp [move, enqueue]

lemma Lanes.release (h : Lanes C v) (hw : (v.workers w).key? = some key) :
    Lanes C ((v.erase key).move w .waiting) := by
  refine h.giveBack hw rfl rfl (fun k hk => ?_) (fun k hk => ?_) (fun _ _ => Iff.rfl) ?_ h.nodup
    ?_ ?_ ?_ (Nat.le_succ _)
  · simp [move, erase, hk]
  · simp [move, erase, hk]
  · simp [move, erase]
  · simpa [move, erase] using h.notMem_ready hw
  · simp [move, erase]
  · simp [move, erase]

omit [DecidableEq K] in
lemma Lanes.exit (h : Lanes C v) (hw : v.workers w = .waiting) (hready : v.ready = [])
    (hdown : v.shuttingDown = true) : Lanes C (v.move w .exited) := by
  have hkey (w' : W) : ((v.move w .exited).workers w').key? = (v.workers w').key? := by
    by_cases hne : w' = w
    · simp [move, hne, hw, Worker.key?]
    · simp [move, hne]
  have hbusy : (v.move w .exited).busy = v.busy := by
    ext w'
    rw [mem_busy, mem_busy, hkey]
  refine { h with running_iff := fun k => ?_, one := fun w1 w2 k h1 h2 => ?_, size_le := ?_,
                  exited := fun _ _ => hdown, drained := fun _ => hready }
  · simp only [hkey]
    exact h.running_iff k
  · rw [hkey] at h1 h2
    exact h.one w1 w2 k h1 h2
  · rw [hbusy]
    exact h.size_le

/-- **The step lemma.** -/
lemma Lanes.step [Nonempty W] (h : Lanes C v) (hnext : v.Next C l v') : Lanes C v' := by
  cases hnext with
  | rejected => exact h
  | submitIdle hdown hlane hidle hready => exact h.submitIdle hdown hlane hidle hready
  | submitBusy hdown hlane hbusy => exact h.push hlane hbusy
  | shutdown => exact h.of_same rfl rfl rfl (fun _ => rfl) (fun _ hw => hw) fun _ => rfl
  | expired hw hready hdrop => exact h.expired hw hready
  | @taken w clock key ready dropped p queue hw hready hdrop =>
    refine h.taken hw hready ?_
    have hle := length_dropExpired_le clock 0 (v.waiting key)
    have hlane := h.lane_le key
    rw [hdrop, List.length_cons] at hle
    omega
  | start hw | finish hw | post hw => exact h.goOn (by rw [hw]; rfl) rfl
  | requeue hw hwaiting => exact h.requeue (by rw [hw]; rfl)
  | release hw hwaiting => exact h.release (by rw [hw]; rfl)
  | exit hw hready hdown => exact h.exit hw hready hdown

omit [DecidableEq K] [DecidableEq W] in
lemma lanes_initial [Nonempty W] (C : Config) : Lanes C ({} : State K W).view where
  nodup := List.nodup_nil
  ready_iff key := by simp [State.view, stateOf]
  running_iff key := by simp [State.view, stateOf, Worker.key?]
  one w w' key hw := by cases hw
  idle key _ := rfl
  lane_le key := Nat.zero_le _
  size_le := by simp [busy, State.view, Worker.key?]
  exited w hw := by cases hw
  drained _ := rfl

end View

end SessionSerialExecutor

end MuduoChat
