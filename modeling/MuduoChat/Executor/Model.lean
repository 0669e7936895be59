import MuduoChat.Lib.Machine

/-!
# The keyed serial executor

Tasks are submitted under a key.  Each key has a lane, a queue of the tasks that wait, and a lane
with waiting tasks that nobody works on stands in the ready queue.  A worker takes the first lane of
the ready queue, drops the tasks at its head whose deadline has passed, and runs the next one.  When
it is done, the lane goes back to the end of the ready queue if tasks are waiting, and is erased
otherwise.

The critical sections of the mutex are single steps.  Between them a worker starts the task it has
taken, the task returns (or throws), and the completion is handed to the loop.  The history of a
state lists what has happened to the tasks, the oldest event first; the code does not read it.
-/

namespace MuduoChat

namespace SessionSerialExecutor

/-- A task that has been submitted.  The number tells tasks apart. -/
structure Pending where
  number : ℕ
  submitAtMs : ℤ
  deadlineMs : ℤ
  deriving DecidableEq, Repr

inductive LaneState where
  | idle
  | queued
  | running
  deriving DecidableEq, Repr

structure Lane where
  queue : List Pending := []
  state : LaneState := .idle
  deriving DecidableEq, Repr

inductive SubmitResult where
  | accepted
  | rejectedFull
  | rejectedShutdown
  deriving DecidableEq, Repr

inductive Worker (K : Type) where
  | waiting
  | taken (key : K) (p : Pending)
  | executing (key : K) (p : Pending)
  | returned (key : K) (p : Pending)
  | posted (key : K) (p : Pending)
  | exited
  deriving DecidableEq, Repr

/-- The key of the lane that a worker works on. -/
def Worker.key? {K : Type} : Worker K → Option K
  | .waiting => none
  | .taken key _ => some key
  | .executing key _ => some key
  | .returned key _ => some key
  | .posted key _ => some key
  | .exited => none

/-- What can happen to a task.  A task is looked at when it stands at the head of a lane that a
worker has taken; the event has the time, and whether the deadline has passed. -/
inductive EventKind where
  | accepted
  | looked (now : ℤ) (late : Bool)
  | started
  | finished
  | posted
  deriving DecidableEq, Repr

structure Event (K : Type) where
  kind : EventKind
  key : K
  task : Pending
  deriving DecidableEq, Repr

structure Config where
  globalQueueCapacity : ℕ
  laneCapacity : ℕ

/-- The state of the executor and of its workers. -/
structure State (K W : Type) where
  lanes : K → Option Lane := fun _ => none
  ready : List K := []
  shuttingDown : Bool := false
  droppedFull : ℕ := 0
  droppedShutdown : ℕ := 0
  workers : W → Worker K := fun _ => .waiting
  submitted : ℕ := 0
  history : List (Event K) := []

variable {K W : Type} [DecidableEq K] [DecidableEq W]

def submit (C : Config) (s : State K W) (key : K) (deadlineMs now : ℤ) :
    SubmitResult × State K W :=
  if s.shuttingDown then
    (.rejectedShutdown, { s with droppedShutdown := s.droppedShutdown + 1 })
  else
    let lane := (s.lanes key).getD {}
    if C.laneCapacity ≤ lane.queue.length ∨
        lane.state = .idle ∧ C.globalQueueCapacity ≤ s.ready.length then
      -- looking the lane up has created it
      (.rejectedFull,
        { s with
          lanes := Function.update s.lanes key (some lane)
          droppedFull := s.droppedFull + 1 })
    else
      let p : Pending := ⟨s.submitted, now, deadlineMs⟩
      let state := if lane.state = .idle then .queued else lane.state
      (.accepted,
        { s with
          lanes := Function.update s.lanes key (some ⟨lane.queue ++ [p], state⟩)
          ready := if lane.state = .idle then s.ready ++ [key] else s.ready
          submitted := s.submitted + 1
          history := s.history ++ [⟨.accepted, key, p⟩] })

/-- Has the deadline of a task passed? -/
def Pending.isLate (p : Pending) (now : ℤ) : Bool :=
  decide (0 < p.deadlineMs ∧ p.deadlineMs < now - p.submitAtMs)

/-- Drop the tasks at the head of a queue whose deadline has passed.  The clock is read for each
task that is looked at.  The result lists the times and the tasks that are dropped, and the rest of
the queue. -/
def dropExpired (clock : ℕ → ℤ) : ℕ → List Pending → List (ℤ × Pending) × List Pending
  | _, [] => ([], [])
  | n, p :: ps =>
    if p.isLate (clock n) then
      ((clock n, p) :: (dropExpired clock (n + 1) ps).1, (dropExpired clock (n + 1) ps).2)
    else ([], p :: ps)

/-- The events of the tasks that are dropped. -/
def dropEvents (key : K) (dropped : List (ℤ × Pending)) : List (Event K) :=
  dropped.map fun x => ⟨.looked x.1 true, key, x.2⟩

/-- The section in which a worker takes a lane. -/
def dequeue (s : State K W) (w : W) (clock : ℕ → ℤ) : Option (State K W) :=
  match s.workers w, s.ready with
  | .waiting, key :: ready =>
    match s.lanes key with
    | none => some { s with ready := ready }
    | some lane =>
      match dropExpired clock 0 lane.queue with
      | (dropped, []) =>
        some { s with
          ready := ready
          lanes := Function.update s.lanes key none
          history := s.history ++ dropEvents key dropped }
      | (dropped, p :: queue) =>
        some { s with
          ready := ready
          lanes := Function.update s.lanes key (some ⟨queue, .running⟩)
          workers := Function.update s.workers w (.taken key p)
          history := s.history ++ dropEvents key dropped ++
            [⟨.looked (clock dropped.length) false, key, p⟩] }
  | _, _ => none

/-- A worker goes from one place to the next, and this is an event of its task. -/
def advance (s : State K W) (w : W) (place : Worker K) (e : Event K) : State K W :=
  { s with workers := Function.update s.workers w place, history := s.history ++ [e] }

/-- The section after a task. -/
def requeue (s : State K W) (w : W) (key : K) : State K W :=
  match s.lanes key with
  | none => { s with workers := Function.update s.workers w .waiting }
  | some lane =>
    if lane.queue ≠ [] then
      { s with
        lanes := Function.update s.lanes key (some { lane with state := .queued })
        ready := s.ready ++ [key]
        workers := Function.update s.workers w .waiting }
    else
      { s with
        lanes := Function.update s.lanes key none
        workers := Function.update s.workers w .waiting }

/-- The steps: a thread submits a task or begins the shutdown, and the workers take their steps. -/
inductive Label (K W : Type) where
  | submit (key : K) (deadlineMs now : ℤ)
  | shutdown
  | dequeue (w : W) (clock : ℕ → ℤ)
  | start (w : W)
  | finish (w : W)
  | post (w : W)
  | requeue (w : W)
  | exit (w : W)

/-- The steps with which the workers get the tasks done. -/
def Label.IsWork : Label K W → Prop
  | .submit _ _ _ => False
  | .shutdown => False
  | .exit _ => False
  | _ => True

/-- The executor with its workers. -/
def machine (C : Config) : Machine (State K W) (Label K W) where
  next s
    | .submit key deadlineMs now => some (submit C s key deadlineMs now).2
    | .shutdown => some { s with shuttingDown := true }
    | .dequeue w clock => dequeue s w clock
    | .start w =>
      match s.workers w with
      | .taken key p => some (advance s w (.executing key p) ⟨.started, key, p⟩)
      | _ => none
    | .finish w =>
      match s.workers w with
      | .executing key p => some (advance s w (.returned key p) ⟨.finished, key, p⟩)
      | _ => none
    | .post w =>
      match s.workers w with
      | .returned key p => some (advance s w (.posted key p) ⟨.posted, key, p⟩)
      | _ => none
    | .requeue w =>
      match s.workers w with
      | .posted key _ => some (requeue s w key)
      | _ => none
    | .exit w =>
      match s.workers w with
      | .waiting =>
        if s.ready = [] ∧ s.shuttingDown = true then
          some { s with workers := Function.update s.workers w .exited }
        else none
      | _ => none

end SessionSerialExecutor

end MuduoChat
