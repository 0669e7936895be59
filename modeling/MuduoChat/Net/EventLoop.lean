import MuduoChat.Lib.Machine

/-!
# Work that is queued for an event loop

`queueInLoop` appends a functor under a mutex, and after that it writes to the wakeup descriptor,
unless it is called in a channel callback of the loop thread itself.  The loop drains the descriptor
while it handles the active channels, and it takes the queue only after that.  So a write that is
drained belongs to a functor that is taken in the same round, and a functor that is queued after the
queue has been taken finds the flag `callingPendingFunctors` set.
-/

namespace MuduoChat

open Relation

/-- Where the loop thread is in a round of `loop`. -/
inductive LoopPoint where
  | polling
  /-- In the callbacks of the active channels; `wakeupActive` if that of the wakeup channel is still
  to come. -/
  | handling (wakeupActive : Bool)
  /-- In `doPendingFunctors`, before the swap. -/
  | entering
  /-- In `doPendingFunctors`, after the swap. -/
  | calling
  | stopped
  deriving DecidableEq

/-- In a round that is still to take the queue. -/
def LoopPoint.beforeSwap : LoopPoint → Bool
  | .handling _ | .entering => true
  | _ => false

/-- In `doPendingFunctors`. -/
def LoopPoint.pending : LoopPoint → Bool
  | .entering | .calling => true
  | _ => false

/-- An event loop that is used by other threads `T`.  The loop thread itself is `none`. -/
structure EventLoop (T F : Type) where
  point : LoopPoint := .polling
  quit : Bool := false
  callingPendingFunctors : Bool := false
  pendingFunctors : List F := []
  /-- What the local vector of `doPendingFunctors` has left. -/
  functors : List F := []
  /-- The counter of the wakeup descriptor, which is readable as long as it is positive. -/
  counter : ℕ := 0
  /-- The threads that have pushed a functor and have still to write to the descriptor. -/
  waking : Option T → Bool := fun _ => false
  /-- All functors that have been queued since the loop was entered. -/
  queued : List F := []
  /-- All functors that `doPendingFunctors` has called. -/
  ran : List F := []

namespace EventLoop

variable {T F : Type} [DecidableEq T]

/-- A write of 1 to the descriptor, which is refused if the counter would overflow. -/
def write (s : EventLoop T F) : EventLoop T F :=
  { s with counter := if s.counter < 2 ^ 64 - 2 then s.counter + 1 else s.counter }

def queueInLoop (s : EventLoop T F) (who : Option T) (cb : F) : EventLoop T F :=
  { s with
    pendingFunctors := s.pendingFunctors ++ [cb]
    queued := s.queued ++ [cb]
    waking :=
      if who.isSome || s.callingPendingFunctors then Function.update s.waking who true
      else s.waking }

/-- In the loop thread the functor is called at once. -/
def runInLoop (s : EventLoop T F) (who : Option T) (cb : F) : EventLoop T F :=
  if who.isNone then s else s.queueInLoop who cb

def wakeup (s : EventLoop T F) (who : Option T) : EventLoop T F :=
  { s.write with waking := Function.update s.waking who false }

/-- The thread can call into the loop: it is not in another call, and the loop thread is in a
callback or in a functor. -/
def free (s : EventLoop T F) : Option T → Bool
  | none => !s.waking none && (match s.point with
    | .handling _ | .calling => true
    | _ => false)
  | some t => !s.waking (some t)

/-- The steps of the loop thread and of the others. -/
inductive Label (T F : Type) where
  | queueInLoop (who : Option T) (cb : F)
  | runInLoop (who : Option T) (cb : F)
  | wakeup (who : Option T)
  | quit
  /-- The write of a `quit` from another thread. -/
  | quitWakeup
  /-- The poller returns, possibly with the wakeup channel among the active ones. -/
  | poll (wakeupActive : Bool)
  | handleRead
  | enterPending
  | swapPending
  | callFunctor
  | leavePending

def next (s : EventLoop T F) : Label T F → Option (EventLoop T F)
  | .queueInLoop who cb => if s.free who then some (s.queueInLoop who cb) else none
  | .runInLoop who cb => if s.free who then some (s.runInLoop who cb) else none
  | .wakeup who => if s.waking who then some (s.wakeup who) else none
  | .quit => some { s with quit := true }
  | .quitWakeup => if s.quit then some s.write else none
  | .poll wakeupActive =>
    if s.point = .polling ∧ (wakeupActive → 0 < s.counter) then
      some { s with point := .handling wakeupActive }
    else none
  | .handleRead =>
    if s.point = .handling true then some { s with point := .handling false, counter := 0 }
    else none
  | .enterPending =>
    if s.point = .handling false then
      some { s with point := .entering, callingPendingFunctors := true }
    else none
  | .swapPending =>
    if s.point = .entering then
      some { s with point := .calling, functors := s.pendingFunctors, pendingFunctors := [] }
    else none
  | .callFunctor =>
    match s.functors with
    | [] => none
    | functor :: rest =>
      if s.waking none then none
      else some { s with functors := rest, ran := s.ran ++ [functor] }
  | .leavePending =>
    if s.point = .calling ∧ s.functors = [] ∧ s.waking none = false then
      some { s with
        point := if s.quit then .stopped else .polling
        callingPendingFunctors := false }
    else none

def machine : Machine (EventLoop T F) (Label T F) := ⟨next⟩

/-- `loop` has just been entered, whatever has been queued before. -/
structure Entered (s : EventLoop T F) : Prop where
  point : s.point = .polling
  flag : s.callingPendingFunctors = false
  functors : s.functors = []
  waking : s.waking none = false
  queued : s.queued = []
  ran : s.ran = []

/-- The poller does not wait, or will be woken up by another thread. -/
def Awake (s : EventLoop T F) : Prop := 0 < s.counter ∨ ∃ t, s.waking (some t) = true

/-- What holds in a run.  Before anything is queued, what stands in the queue may have been put
there by the loop thread before it entered the loop, without a wakeup. -/
structure Sound (start s : EventLoop T F) : Prop where
  order : s.ran ++ s.functors ++ s.pendingFunctors = start.pendingFunctors ++ s.queued
  flag : s.callingPendingFunctors = s.point.pending
  idle : s.point ≠ .calling → s.functors = [] ∧ s.waking none = false
  awake : s.pendingFunctors ≠ [] → s.point.beforeSwap = true ∨ 0 < s.counter ∨
    (∃ who, s.waking who = true) ∨
      s.queued = [] ∧ ¬(start.pendingFunctors = [] ∨ start.Awake)

variable {start s t : EventLoop T F} {l : Label T F}

omit [DecidableEq T] in
lemma Entered.sound (h : Entered start) : Sound start start where
  order := by simp [h.ran, h.functors, h.queued]
  flag := by rw [h.flag, h.point]; rfl
  idle _ := ⟨h.functors, h.waking⟩
  awake hne := by
    by_cases hawake : start.Awake
    · exact .inr (hawake.imp id fun ⟨t, ht⟩ => .inl ⟨some t, ht⟩)
    · exact .inr (.inr (.inr ⟨h.queued, by simp [hne, hawake]⟩))

omit [DecidableEq T] in
lemma write_counter (s : EventLoop T F) : 0 < s.write.counter := by
  simp only [write]
  split <;> omega

lemma Sound.queueInLoop (h : Sound start s) {who : Option T} (hfree : s.free who = true) (cb : F) :
    Sound start (s.queueInLoop who cb) := by
  have horder := congrArg (· ++ [cb]) h.order
  refine ⟨by simpa [EventLoop.queueInLoop] using horder, h.flag, fun hpoint => ?_, fun _ => ?_⟩
  · refine ⟨(h.idle hpoint).1, ?_⟩
    have hidle := (h.idle hpoint).2
    cases who with
    | some t => simpa [EventLoop.queueInLoop] using hidle
    | none =>
      -- the loop thread does not write if it is in the callback of a channel
      have hflag : s.callingPendingFunctors = false := by
        have hpoint' : s.point ≠ .calling := hpoint
        rw [h.flag]
        revert hfree hpoint'
        simp only [free]
        cases s.point <;> simp [LoopPoint.pending]
      simp [EventLoop.queueInLoop, hflag, hidle]
  · by_cases hwrites : (who.isSome || s.callingPendingFunctors) = true
    · exact .inr (.inr (.inl ⟨who, by simp [EventLoop.queueInLoop, hwrites]⟩))
    · cases who with
      | some t => simp at hwrites
      | none =>
        left
        simp only [h.flag, Option.isSome_none, Bool.false_or] at hwrites
        revert hfree hwrites
        simp only [free, EventLoop.queueInLoop]
        cases s.point <;> simp [LoopPoint.pending, LoopPoint.beforeSwap]

lemma Sound.next (h : Sound start s) (hnext : s.next l = some t) : Sound start t := by
  cases l with
  | queueInLoop who cb =>
    obtain ⟨hfree, heq⟩ := Option.ite_none_right_eq_some.1 hnext
    cases heq
    exact h.queueInLoop hfree cb
  | runInLoop who cb =>
    obtain ⟨hfree, heq⟩ := Option.ite_none_right_eq_some.1 hnext
    cases heq
    unfold runInLoop
    split
    · exact h
    · exact h.queueInLoop hfree cb
  | wakeup who =>
    obtain ⟨-, heq⟩ := Option.ite_none_right_eq_some.1 hnext
    cases heq
    refine ⟨h.order, h.flag, fun hpoint => ⟨(h.idle hpoint).1, ?_⟩, fun _ => ?_⟩
    · have hidle := (h.idle hpoint).2
      cases who <;> simp [wakeup, hidle]
    · exact .inr (.inl s.write_counter)
  | quit =>
    cases hnext
    exact ⟨h.order, h.flag, h.idle, h.awake⟩
  | quitWakeup =>
    obtain ⟨-, heq⟩ := Option.ite_none_right_eq_some.1 hnext
    cases heq
    exact ⟨h.order, h.flag, h.idle, fun _ => .inr (.inl s.write_counter)⟩
  | poll wakeupActive =>
    obtain ⟨⟨hpoint, -⟩, heq⟩ := Option.ite_none_right_eq_some.1 hnext
    cases heq
    have hidle := h.idle (by simp [hpoint])
    exact ⟨h.order, h.flag.trans (by rw [hpoint]; rfl), fun _ => hidle, fun _ => .inl rfl⟩
  | handleRead =>
    obtain ⟨hpoint, heq⟩ := Option.ite_none_right_eq_some.1 hnext
    cases heq
    have hidle := h.idle (by simp [hpoint])
    exact ⟨h.order, h.flag.trans (by rw [hpoint]; rfl), fun _ => hidle, fun _ => .inl rfl⟩
  | enterPending =>
    obtain ⟨hpoint, heq⟩ := Option.ite_none_right_eq_some.1 hnext
    cases heq
    have hidle := h.idle (by simp [hpoint])
    exact ⟨h.order, rfl, fun _ => hidle, fun _ => .inl rfl⟩
  | swapPending =>
    obtain ⟨hpoint, heq⟩ := Option.ite_none_right_eq_some.1 hnext
    cases heq
    have horder := h.order
    rw [(h.idle (by simp [hpoint])).1] at horder
    exact ⟨by simpa using horder, h.flag.trans (by rw [hpoint]; rfl), fun hne => absurd rfl hne,
      fun hne => absurd rfl hne⟩
  | callFunctor =>
    simp only [EventLoop.next] at hnext
    split at hnext
    · cases hnext
    · rename_i functor rest hfunctors
      split at hnext
      · cases hnext
      cases hnext
      have horder := h.order
      rw [hfunctors] at horder
      refine ⟨by simpa using horder, h.flag, fun hpoint => ?_, h.awake⟩
      exact absurd (h.idle hpoint).1 (by simp [hfunctors])
  | leavePending =>
    obtain ⟨⟨hpoint, hfunctors, hwaking⟩, heq⟩ := Option.ite_none_right_eq_some.1 hnext
    cases heq
    refine ⟨h.order, ?_, fun _ => ⟨hfunctors, hwaking⟩, fun hne => .inr ?_⟩
    · cases s.quit <;> rfl
    · exact (h.awake hne).resolve_left (by simp [hpoint, LoopPoint.beforeSwap])

/-- **Queued work is called once and in order, and no wakeup is lost.**  At every point of every
run: what has been called, what is still to be called and what is in the queue are together what has
been queued, in this order; and if the loop thread is in the poller while the queue is not empty,
then the wakeup descriptor is readable or another thread is about to write to it.  Only what the
loop thread itself has queued before it entered the loop may have to wait. -/
theorem queued_work (hstart : Entered start) (hrun : ReflTransGen machine.Step start s) :
    s.ran ++ s.functors ++ s.pendingFunctors = start.pendingFunctors ++ s.queued ∧
      (s.point = .polling → s.pendingFunctors ≠ [] →
        start.pendingFunctors = [] ∨ start.Awake ∨ s.queued ≠ [] → s.Awake) := by
  have hsound : Sound start s :=
    Machine.invariant (fun _ _ _ h hnext => h.next hnext) hstart.sound hrun
  refine ⟨hsound.order, fun hpoint hne hbefore => ?_⟩
  rcases hsound.awake hne with hswap | hcounter | ⟨who, hwho⟩ | ⟨hqueued, hstale⟩
  · simp [hpoint, LoopPoint.beforeSwap] at hswap
  · exact .inl hcounter
  · cases who with
    | none => simp [(hsound.idle (by simp [hpoint])).2] at hwho
    | some t => exact .inr ⟨t, hwho⟩
  · rcases hbefore with hempty | hawake | hqueued'
    · exact absurd (.inl hempty) hstale
    · exact absurd (.inr hawake) hstale
    · exact absurd hqueued hqueued'

/-- Another thread queues a functor, the callback of a channel a second one, and the first of them a
third one. -/
def threeQueued : List (Label Unit ℕ) :=
  [.queueInLoop (some ()) 1, .poll false, .queueInLoop none 2, .enterPending, .swapPending,
    .callFunctor, .queueInLoop none 3, .wakeup none, .callFunctor, .leavePending]

/-- The third functor is in the queue when the loop polls again, and the descriptor is readable. -/
theorem queued_work_threeQueued :
    ∃ s : EventLoop Unit ℕ, machine.run {} threeQueued = some s ∧ s.point = .polling ∧
      s.ran ++ s.functors ++ s.pendingFunctors = [1, 2, 3] ∧ s.pendingFunctors = [3] ∧ s.Awake := by
  obtain ⟨s, hs⟩ := Option.isSome_iff_exists.1
    (show (machine.run ({} : EventLoop Unit ℕ) threeQueued).isSome from rfl)
  have hstate : (machine.run ({} : EventLoop Unit ℕ) threeQueued).map
      (fun s => (s.point, s.queued, s.pendingFunctors)) = some (.polling, [1, 2, 3], [3]) := rfl
  rw [hs, Option.map_some, Option.some.injEq, Prod.mk.injEq, Prod.mk.injEq] at hstate
  obtain ⟨hpoint, hqueued, hpending⟩ := hstate
  have hentered : Entered ({} : EventLoop Unit ℕ) := ⟨rfl, rfl, rfl, rfl, rfl, rfl⟩
  have hwork := queued_work hentered (Machine.reaches_of_run hs)
  refine ⟨s, hs, hpoint, ?_, hpending, hwork.2 hpoint (by simp [hpending]) (.inl rfl)⟩
  rw [hwork.1, hqueued]
  rfl

end EventLoop

end MuduoChat
