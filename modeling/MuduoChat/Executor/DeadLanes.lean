import MuduoChat.Executor.Model

/-!
# Lanes that nobody needs

A lane is stored while it has tasks or while a worker has taken it, and it is erased when it has
drained.  There is one gap: `submit` looks the lane up with a function that creates it, and then may
reject the task.  A lane that is created like this is idle and empty, and nothing erases it until a
later task of its key has run.

As long as no such submission is rejected, every stored lane is queued or running.
-/

namespace MuduoChat

namespace SessionSerialExecutor

open Relation

variable {K W : Type} [DecidableEq K] [DecidableEq W] {C : Config} {s t : State K W} {l : Label K W}

/-- A submission to a key without a lane finds room, in the lane and in the ready queue. -/
def Tidy (C : Config) (s : State K W) : Label K W → Prop
  | .submit key _ _ => s.shuttingDown = false → s.lanes key = none →
      0 < C.laneCapacity ∧ s.ready.length < C.globalQueueCapacity
  | _ => True

/-- A step in which no submission to a key without a lane is rejected. -/
def TidyStep (C : Config) (s t : State K W) : Prop :=
  ∃ l, (machine C).next s l = some t ∧ Tidy C s l

/-- Every stored lane is queued or running. -/
def Lively (lanes : K → Option Lane) : Prop :=
  ∀ key lane, lanes key = some lane → lane.state = .queued ∨ lane.state = .running

section Lively

variable {lanes : K → Option Lane} {key : K} {lane : Lane}

lemma Lively.erase (h : Lively lanes) : Lively (Function.update lanes key none) := by
  intro k lane hlane
  by_cases hk : k = key
  · simp [hk] at hlane
  · rw [Function.update_of_ne hk] at hlane
    exact h k lane hlane

lemma Lively.store (h : Lively lanes) (hstate : lane.state = .queued ∨ lane.state = .running) :
    Lively (Function.update lanes key (some lane)) := by
  intro k lane' hlane'
  by_cases hk : k = key
  · rw [hk, Function.update_self] at hlane'
    cases hlane'
    exact hstate
  · rw [Function.update_of_ne hk] at hlane'
    exact h k lane' hlane'

omit [DecidableEq K] in
lemma Lively.not_idle (h : Lively lanes) (hlane : lanes key = some lane) : lane.state ≠ .idle := by
  intro hidle
  rcases h key lane hlane with hstate | hstate <;> rw [hidle] at hstate <;> cases hstate

omit [DecidableEq W] in
lemma Lively.submit {d now : ℤ} (h : Lively s.lanes) (htidy : Tidy C s (.submit key d now)) :
    Lively (submit C s key d now).2.lanes := by
  unfold SessionSerialExecutor.submit
  by_cases hdown : s.shuttingDown = true
  · rw [if_pos hdown]
    exact h
  rw [if_neg hdown]
  cases hlane : s.lanes key with
  | none =>
    -- the task is accepted, and the new lane is queued
    obtain ⟨hcapacity, hready⟩ := htidy (by simpa using hdown) hlane
    simp only [Option.getD_none, List.length_nil]
    split
    · rename_i hfull
      omega
    · exact h.store (.inl rfl)
  | some lane =>
    have hstate := h key lane hlane
    have hidle := h.not_idle hlane
    simp only [Option.getD_some, hidle, false_and, or_false, if_false]
    split
    · -- the lane is stored as it was
      exact h.store hstate
    · exact h.store hstate

end Lively

/-- **The step lemma.** -/
lemma Lively.next (h : Lively s.lanes) (htidy : Tidy C s l) (hnext : (machine C).next s l = some t) :
    Lively t.lanes := by
  cases l with
  | submit key d now =>
    cases hnext
    exact h.submit htidy
  | shutdown =>
    cases hnext
    exact h
  | dequeue w clock =>
    simp only [machine, dequeue] at hnext
    split at hnext
    case h_2 => cases hnext
    case h_1 key ready hw hready =>
      split at hnext
      · cases hnext
        exact h
      · split at hnext
        · cases hnext
          exact h.erase
        · cases hnext
          exact h.store (.inr rfl)
  | requeue w =>
    simp only [machine] at hnext
    split at hnext
    case h_2 => cases hnext
    case h_1 key p hw =>
      cases hnext
      unfold requeue
      split
      · exact h
      · split
        · exact h.store (.inl rfl)
        · exact h.erase
  | start w | finish w | post w =>
    simp only [machine] at hnext
    split at hnext
    case h_2 => cases hnext
    case h_1 =>
      cases hnext
      exact h
  | exit w =>
    simp only [machine] at hnext
    split at hnext
    case h_2 => cases hnext
    case h_1 =>
      split at hnext
      · cases hnext
        exact h
      · cases hnext

omit [DecidableEq W] in
lemma lanes_of_rejected_iff {key : K} {d now : ℤ}
    (hrejected : (submit C s key d now).1 ≠ .accepted) :
    (submit C s key d now).2.lanes = s.lanes ↔ Tidy C s (.submit key d now) := by
  unfold SessionSerialExecutor.submit at hrejected ⊢
  by_cases hdown : s.shuttingDown = true
  · simp [Tidy, hdown]
  have hup : s.shuttingDown = false := by simpa using hdown
  simp only [hdown, if_false, Bool.false_eq_true] at hrejected ⊢
  split at hrejected
  case isFalse => exact absurd rfl hrejected
  case isTrue hfull =>
    rw [if_pos hfull]
    cases hlane : s.lanes key with
    | some lane =>
      have hsame : Function.update s.lanes key (some lane) = s.lanes := by
        rw [← hlane, Function.update_eq_self]
      simp [Tidy, hlane, hsame]
    | none =>
      have hroom : ¬Tidy C s (.submit key d now) := by
        intro htidy
        obtain ⟨hcapacity, hready⟩ := htidy hup hlane
        simp only [hlane, Option.getD_none, List.length_nil] at hfull
        omega
      refine iff_of_false (fun heq => ?_) hroom
      have hkey := congrFun heq key
      simp [hlane] at hkey

/-- **No dead lanes.**  In every state that is reached without a rejected submission to a key that
has no lane, every stored lane is queued or running; and these submissions are the only rejected ones
that do not leave the lanes as they were. -/
theorem no_dead_lanes (C : Config) :
    (∀ s : State K W, ReflTransGen (TidyStep C) {} s →
      ∀ key lane, s.lanes key = some lane → lane.state = .queued ∨ lane.state = .running) ∧
    ∀ (s : State K W) (key : K) (d now : ℤ), (submit C s key d now).1 ≠ .accepted →
      ((submit C s key d now).2.lanes = s.lanes ↔ Tidy C s (.submit key d now)) := by
  refine ⟨fun s hs => ?_, fun s key d now => lanes_of_rejected_iff⟩
  have hlively : Lively s.lanes := by
    induction hs with
    | refl => exact fun key lane hlane => by cases hlane
    | tail _ hstep ih =>
      obtain ⟨l, hnext, htidy⟩ := hstep
      exact ih.next htidy hnext
  exact hlively

/-- Two tasks of one key, with room for one key. -/
def twoTasks : List (Label ℕ (Fin 1)) := [.submit 1 0 0, .submit 1 0 0]

theorem no_dead_lanes_twoTasks : ∃ s : State ℕ (Fin 1),
    (machine ⟨1, 2⟩).run {} twoTasks = some s ∧ (s.lanes 1).isSome = true ∧
      ∀ key lane, s.lanes key = some lane → lane.state = .queued ∨ lane.state = .running := by
  refine ⟨_, rfl, rfl, (no_dead_lanes ⟨1, 2⟩).1 _ ?_⟩
  refine .tail (.single ⟨.submit 1 0 0, rfl, ?_⟩) ⟨.submit 1 0 0, rfl, ?_⟩
  · exact fun _ _ => by decide
  · intro _ hnone
    cases hnone

/-- A submission for a second key is rejected because the ready queue is full, and leaves an idle
lane behind. -/
theorem dead_lane : ∃ s : State ℕ (Fin 1),
    (machine ⟨1, 2⟩).run {} [.submit 1 0 0, .submit 2 0 0] = some s ∧
      s.droppedFull = 1 ∧ s.lanes 2 = some ⟨[], .idle⟩ :=
  ⟨_, rfl, rfl, rfl⟩

end SessionSerialExecutor

end MuduoChat
