import Mathlib.Algebra.Order.Ring.Int
import Mathlib.Data.List.Induction

/-!
# The poller and the interest list of the kernel

A channel has the events that it wants, and a mark for what the poller has told the kernel about it.
The kernel does not add what is there, and does not change or delete what is not; `epoll_ctl` fails
for no other reason.  Descriptors of registered channels stay open: the kernel forgets nothing by
itself.
-/

namespace MuduoChat

namespace EPollPoller

/-- The mark of a channel. -/
inductive Index where
  | new
  | added
  | deleted
  deriving DecidableEq

inductive Ctl where
  | add
  | mod
  | del

inductive ChannelOp where
  | enableReading
  | disableReading
  | enableWriting
  | disableWriting
  | disableAll
  | remove
  deriving DecidableEq

def kReadEvent : BitVec 32 := 3

def kWriteEvent : BitVec 32 := 4

/-- The events that a channel wants after an operation. -/
def ChannelOp.events (events : BitVec 32) : ChannelOp → BitVec 32
  | .enableReading => events ||| kReadEvent
  | .disableReading => events &&& ~~~kReadEvent
  | .enableWriting => events ||| kWriteEvent
  | .disableWriting => events &&& ~~~kWriteEvent
  | .disableAll => 0
  | .remove => events

/-- The channels, the table of the poller and the interest list of the kernel, by descriptors. -/
structure State (C : Type) where
  events : C → BitVec 32 := fun _ => 0
  index : C → Index := fun _ => .new
  channels : ℤ → Option C := fun _ => none
  interest : ℤ → Option (BitVec 32 × C) := fun _ => none
  /-- Has a call of `epoll_ctl` failed? -/
  failed : Bool := false

variable {C : Type} [DecidableEq C] (fd : C → ℤ)

def update (s : State C) (operation : Ctl) (c : C) : State C :=
  match operation, s.interest (fd c) with
  | .add, none | .mod, some _ =>
    { s with interest := Function.update s.interest (fd c) (some (s.events c, c)) }
  | .del, some _ => { s with interest := Function.update s.interest (fd c) none }
  | _, _ => { s with failed := true }

def updateChannel (s : State C) (c : C) : State C :=
  if s.index c = .added then
    if s.events c = 0 then
      { update fd s .del c with index := Function.update s.index c .deleted }
    else update fd s .mod c
  else
    let channels :=
      if s.index c = .new then Function.update s.channels (fd c) (some c) else s.channels
    update fd { s with channels := channels, index := Function.update s.index c .added } .add c

def removeChannel (s : State C) (c : C) : State C :=
  let erased := { s with channels := Function.update s.channels (fd c) none }
  { (if s.index c = .added then update fd erased .del c else erased) with
    index := Function.update s.index c .new }

def perform (s : State C) : C × ChannelOp → State C
  | (c, .remove) => removeChannel fd s c
  | (c, op) =>
    updateChannel fd { s with events := Function.update s.events c (op.events (s.events c)) } c

/-- The state after some operations. -/
def run (ops : List (C × ChannelOp)) : State C := ops.foldl (perform fd) {}

/-! ### What an operation does -/

/-- The tables fit together. -/
structure Sound (s : State C) : Prop where
  failed : s.failed = false
  channels : ∀ n c, s.channels n = some c ↔ fd c = n ∧ s.index c ≠ .new
  interest : ∀ n e c, s.interest n = some (e, c) ↔
    fd c = n ∧ s.index c = .added ∧ s.events c = e
  idle : ∀ c, s.index c = .deleted → s.events c = 0

/-- All tables have been told about a channel. -/
def told (s : State C) (c : C) (e : BitVec 32) (i : Index) : State C where
  events := Function.update s.events c e
  index := Function.update s.index c i
  channels := Function.update s.channels (fd c) (if i = .new then none else some c)
  interest := Function.update s.interest (fd c) (if i = .added then some (e, c) else none)
  failed := false

variable {fd} {s : State C} {c : C} {e : BitVec 32} {i : Index}

lemma Sound.keep (h : Sound fd s) (hfree : ∀ c', s.index c' ≠ .new → fd c' = fd c → c' = c)
    (hi : i = .deleted → e = 0) : Sound fd (told fd s c e i) := by
  refine ⟨rfl, fun n c' => ?_, fun n e' c' => ?_, fun c' hc' => ?_⟩
  · have hbefore := h.channels n c'
    have hother := hfree c'
    simp only [told, Function.update_apply]
    grind
  · have hbefore := h.interest n e' c'
    have hother := hfree c'
    simp only [told, Function.update_apply]
    grind
  · have hbefore := h.idle c'
    simp only [told, Function.update_apply] at hc' ⊢
    grind

/-- **One operation** tells all tables about its channel. -/
lemma Sound.perform_eq (h : Sound fd s)
    (hfree : ∀ c', s.index c' ≠ .new → fd c' = fd c → c' = c) (op : ChannelOp) :
    ∃ i, perform fd s (c, op) = told fd s c (op.events (s.events c)) i ∧
      (i = .deleted → op.events (s.events c) = 0) ∧ (i = .new ↔ op = .remove) := by
  have hinterest : s.interest (fd c) =
      if s.index c = .added then some (s.events c, c) else none := by
    split
    · exact (h.interest _ _ _).2 ⟨rfl, ‹_›, rfl⟩
    · refine Option.eq_none_iff_forall_ne_some.2 fun x hx => ?_
      obtain ⟨hfd, hadded, -⟩ := (h.interest _ x.1 x.2).1 hx
      exact absurd (hfree x.2 (by simp [hadded]) hfd ▸ hadded) ‹_›
  have hchannels : s.index c ≠ .new → s.channels (fd c) = some c :=
    fun hindex => (h.channels _ _).2 ⟨rfl, hindex⟩
  by_cases hop : op = .remove
  · subst hop
    refine ⟨.new, ?_, by simp, by simp⟩
    cases hindex : s.index c <;>
      simp [perform, removeChannel, update, told, hindex, hinterest, ChannelOp.events,
        h.failed]
  · have hperform : perform fd s (c, op) = updateChannel fd
        { s with events := Function.update s.events c (op.events (s.events c)) } c := by
      cases op
      all_goals first | rfl | exact absurd rfl hop
    rw [hperform]
    by_cases hnone : s.index c = .added ∧ op.events (s.events c) = 0
    · refine ⟨.deleted, ?_, fun _ => hnone.2, by simp [hop]⟩
      simp_all [updateChannel, update, told, h.failed]
    · refine ⟨.added, ?_, by simp, by simp [hop]⟩
      cases hindex : s.index c <;>
        simp_all [updateChannel, update, told, h.failed]

/-! ### Runs -/

/-- The events that a channel wants after some operations. -/
def wanted (ops : List (C × ChannelOp)) (c : C) : BitVec 32 :=
  (ops.filter (·.1 = c)).foldl (fun e x => x.2.events e) 0

/-- Has the last operation on the channel not removed it? -/
def registered (ops : List (C × ChannelOp)) (c : C) : Bool :=
  (ops.filter (·.1 = c)).getLast?.any (·.2 ≠ .remove)

/-- An operation on a channel comes only when no other channel with its descriptor is registered. -/
def Exclusive (fd : C → ℤ) (ops : List (C × ChannelOp)) : Prop :=
  ∀ before c op, before ++ [(c, op)] <+: ops →
    ∀ c', registered before c' = true → fd c' = fd c → c' = c

lemma run_spec {ops : List (C × ChannelOp)} (hexclusive : Exclusive fd ops) :
    Sound fd (run fd ops) ∧ (∀ c, (run fd ops).events c = wanted ops c) ∧
      ∀ c, (run fd ops).index c ≠ .new ↔ registered ops c = true := by
  induction ops using List.reverseRecOn with
  | nil => refine ⟨⟨rfl, ?_, ?_, ?_⟩, ?_, ?_⟩ <;> simp [run, wanted, registered]
  | append_singleton ops x ih =>
    obtain ⟨c, op⟩ := x
    obtain ⟨hsound, hevents, hnew⟩ := ih fun before c op hbefore =>
      hexclusive before c op (hbefore.trans (List.prefix_append _ _))
    have hfree (c' : C) (hindex : (run fd ops).index c' ≠ .new) : fd c' = fd c → c' = c :=
      hexclusive ops c op List.prefix_rfl c' ((hnew c').1 hindex)
    obtain ⟨i, heq, hidle, hi⟩ := hsound.perform_eq hfree op
    have hrun : run fd (ops ++ [(c, op)]) = perform fd (run fd ops) (c, op) := by simp [run]
    rw [hrun, heq]
    refine ⟨hsound.keep hfree hidle, fun c' => ?_, fun c' => ?_⟩ <;> by_cases hc : c' = c
    · subst hc
      simp [told, wanted, hevents]
    · simp [told, wanted, hc, Ne.symm hc, hevents]
    · subst hc
      simp [told, registered, hi]
    · simpa [told, registered, hc, Ne.symm hc] using hnew c'

/-- **The poller and the kernel agree.**  If a descriptor is used for another channel only after
the channel that had it has been removed, no call of `epoll_ctl` fails.  The poller knows the
channels that are registered, each under its descriptor; the kernel watches those of them that want
events, and reports none but registered channels, for the events that they want. -/
theorem poller_watches {ops : List (C × ChannelOp)} (hexclusive : Exclusive fd ops) :
    (run fd ops).failed = false ∧
      (∀ n c, (run fd ops).channels n = some c ↔ fd c = n ∧ registered ops c = true) ∧
      (∀ c, registered ops c = true → wanted ops c ≠ 0 →
        (run fd ops).interest (fd c) = some (wanted ops c, c)) ∧
      ∀ n e c, (run fd ops).interest n = some (e, c) →
        fd c = n ∧ registered ops c = true ∧ e = wanted ops c := by
  obtain ⟨hsound, hevents, hnew⟩ := run_spec hexclusive
  refine ⟨hsound.failed, fun n c => ?_, fun c hregistered hwanted => ?_, fun n e c hreported => ?_⟩
  · rw [hsound.channels, hnew]
  · refine (hsound.interest _ _ _).2 ⟨rfl, ?_, hevents c⟩
    cases hindex : (run fd ops).index c with
    | new => exact absurd hindex ((hnew c).2 hregistered)
    | added => rfl
    | deleted => exact absurd (hevents c ▸ hsound.idle c hindex) hwanted
  · obtain ⟨hfd, hadded, hevent⟩ := (hsound.interest _ _ _).1 hreported
    exact ⟨hfd, (hnew c).1 (by simp [hadded]), by rw [← hevent, hevents]⟩

/-- A channel gets the descriptor of one that has been removed. -/
theorem poller_watches_reused :
    (run (fun _ : Bool => 7) [(true, .enableReading), (true, .remove),
      (false, .enableWriting)]).interest 7 = some (4, false) := by
  refine (poller_watches fun before c op hbefore c' hregistered _ => ?_).2.2.1 false (by decide)
    (by decide)
  rcases before with _ | ⟨x, _ | ⟨y, _ | ⟨z, before⟩⟩⟩ <;> cases c <;> cases c' <;>
    simp_all [registered]

end EPollPoller

end MuduoChat
