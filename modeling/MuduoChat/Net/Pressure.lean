import MuduoChat.Net.Accounting

/-!
# The low-water callback

A thread whose `send` returns `PauseProducer` waits for the pressure callback.  The callback comes
when the counter falls to the resume mark while `lowWaterArmed` is set, and that is set by
`sendInLoop` when it finds the counter above the mark.  If it is not set at the reservation, it
must be set by one of the sends that still wait for the loop; that is certain only if these alone
are more than the mark.  Otherwise the buffer can be written out first, and nobody is woken.
-/

namespace MuduoChat

open Relation

namespace TcpConnection

variable {cfg : ConnectionConfig} {c d x x₁ y : TcpConnection} {message : List UInt8} {n : ℕ}
  {l : Act}

/-! ### The wakeup is certain -/

/-- The counter is above the mark, and this has been noted or will be. -/
structure Hot (cfg : ConnectionConfig) (c : TcpConnection) : Prop where
  high : cfg.limits.resumeReadBytes < c.outstandingBytes
  noted : c.lowWaterArmed = true ∨ cfg.limits.resumeReadBytes < c.waiting ∨ c.loop.send? ≠ none

/-- The callback has been called since, or the wakeup is still certain. -/
def Awaits (cfg : ConnectionConfig) (calls : ℕ) (c : TcpConnection) : Prop :=
  calls < c.pressureCalls ∨ c.pressureCalls = calls ∧ c.Hot cfg

lemma Awaits.congr {calls : ℕ} (h : c.Awaits cfg calls)
    (hcounter : d.outstandingBytes = c.outstandingBytes)
    (harmed : d.lowWaterArmed = c.lowWaterArmed) (hcalls : d.pressureCalls = c.pressureCalls)
    (hqueued : d.queued = c.queued) (hkept : c.loop.send? = none ∨ d.loop = c.loop) :
    d.Awaits cfg calls := by
  rcases h with h | ⟨h, hot⟩
  · exact .inl (by omega)
  · refine .inr ⟨hcalls.trans h, ?_, ?_⟩
    · rw [hcounter]
      exact hot.high
    · rw [harmed, waiting, hqueued]
      refine hot.noted.imp_right (Or.imp_right fun hloop => ?_)
      rwa [hkept.resolve_left hloop]

lemma Hot.lower {left : ℕ} (hot : c.Hot cfg) (hleft : cfg.limits.resumeReadBytes < left) :
    ({ c with outstandingBytes := left } : TcpConnection).Hot cfg :=
  ⟨hleft, hot.noted⟩

lemma Awaits.release {calls : ℕ} (h : c.Awaits cfg calls) (hloop : c.loop.send? = none)
    (hwaiting : c.waiting ≤ sub64 c.outstandingBytes n) :
    (releaseOutstanding cfg n c).Awaits cfg calls := by
  unfold releaseOutstanding
  dsimp only
  split
  · rcases h with h | ⟨h, -⟩
    · exact .inl (Nat.lt_succ_of_lt h)
    · exact .inl (by rw [← h]; exact Nat.lt_succ_self _)
  · rename_i hnot
    rcases h with h | ⟨h, hot⟩
    · exact .inl h
    · have hhigh : cfg.limits.resumeReadBytes < sub64 c.outstandingBytes n := by
        rcases hot.noted with harmed | hwait | hsend
        · exact Nat.lt_of_not_le fun hlow => hnot ⟨harmed, hot.high, hlow⟩
        · exact hwait.trans_le hwaiting
        · exact absurd hloop hsend
      exact .inr ⟨h, hot.lower hhigh⟩

/-- What is given back is covered by the sends that wait, if the counter is right afterwards. -/
lemma Awaits.interrupt {calls : ℕ} {k : Interrupted} (h : c.Awaits cfg calls)
    (hloop : c.loop.send? = none) (hbalanced : Balanced (interrupt cfg n k c)) :
    (interrupt cfg n k c).Awaits cfg calls := by
  have hcounter := hbalanced.counter
  have hframe := releaseOutstanding_frame cfg n c
  rw [interrupt_frame] at hcounter
  have hle : c.waiting ≤ sub64 c.outstandingBytes n := by
    have hcounter : sub64 c.outstandingBytes n =
      ((sends c.callers c.pendingFunctors c.loop).map Prod.snd).sum + _ + _ + _ := hcounter
    rw [waiting, queued]
    omega
  have hreleased := h.release hloop hle
  rw [hframe] at hreleased
  rw [interrupt_frame]
  exact hreleased.congr rfl rfl rfl rfl (.inr rfl)

/-- **The step lemma.** -/
lemma Awaits.effect {calls : ℕ} (h : c.Awaits cfg calls) (heffect : Effect cfg c l d)
    (hsound : Sound cfg c) (hbalanced : Balanced d) (hd : d.state = .connected) :
    d.Awaits cfg calls := by
  have hc := heffect.connected hd
  have hdone (socket : List UInt8) {message bytes : List UInt8} {n : ℕ}
      (hloop : c.loop = .writing message bytes n) :
      ({ c with loop := .idle, ran := c.ran ++ [message], socket := socket } :
        TcpConnection).Awaits cfg calls := by
    refine h.congr rfl rfl rfl ?_ (.inl ?_)
    · show sends c.callers c.pendingFunctors .idle = c.queued
      rw [queued, hloop]
      rfl
    · rw [hloop]
      rfl
  cases heffect with
  | pass hl hqueued hclock hloop hkept => exact h.congr rfl rfl rfl hqueued hkept
  | reserve hmessage hqueued hloop hkept htimer =>
    rename_i message callers loop timer
    obtain ⟨outstanding, hle, hsnd⟩ := reserve_snd cfg message c
    rw [hsnd]
    rcases h with h | ⟨h, hot⟩
    · exact .inl h
    · refine .inr ⟨h, hot.high.trans_le hle, hot.noted.imp_right (Or.imp (fun hwait => ?_)
        fun hsend => hkept.resolve_left hsend ▸ hsend)⟩
      refine hwait.trans_le ?_
      show c.waiting ≤ ((sends callers c.pendingFunctors loop).map Prod.snd).sum
      rw [hqueued, Multiset.map_add, Multiset.sum_add]
      exact Nat.le_add_left _ _
  | startTimer hfunctors =>
    refine h.congr rfl rfl rfl ?_ (.inr rfl)
    rw [queued, queued, hfunctors, (sends_functor rfl _ _ _).2]
  | send hl hloop hqueued =>
    rename_i message n functors
    obtain ⟨bytes, hframe, -⟩ := hsound.queued (message, n) (hqueued ▸ Multiset.mem_cons_self _ _)
    rw [sendInLoop_eq (by simp [hc]) hframe]
    rcases h with h | ⟨h, hot⟩
    · exact .inl h
    · refine .inr ⟨h, hot.high, .inl ?_⟩
      rw [Bool.or_eq_true, decide_eq_true_eq]
      exact .inr hot.high
  | write hloop hdirect hj hback => exact (hdone _ hloop).interrupt rfl hbalanced
  | keep hloop hr =>
    rw [keep_frame]
    exact (hdone c.socket hloop).congr rfl rfl rfl rfl (.inr rfl)
  | drop hloop hdirect => exact hdone _ hloop
  | handleWrite hloop hinside hwriting hj =>
    have hsend : c.loop.send? = none := by
      rw [hloop]
      rfl
    refine Awaits.interrupt (h.congr rfl rfl rfl ?_ (.inr rfl)) hsend hbalanced
    show sends c.callers c.pendingFunctors c.loop = c.queued
    rfl
  | resume hloop hinside =>
    rw [resume_frame]
    exact h.congr rfl rfl rfl rfl (.inr rfl)
  | close hcloses => exact absurd hd hcloses.state

/-! ### The reservation -/

/-- The loop thread reserves room. -/
def inLoop : Act → Bool
  | .reserveInLoop => true
  | _ => false

/-- At the reservation, the wakeup is made certain: it has been noted already that the counter is
above the mark, or the sends that wait are more than the mark, or the loop thread sends and will
note it next; and a send that is refused finds the counter above the mark. -/
def wakes (cfg : ConnectionConfig) (c : TcpConnection) (l : Act) (message : List UInt8) : Bool :=
  if c.outstandingBytes + cfg.frameSize message ≤ cfg.limits.hardLimitBytes then
    c.lowWaterArmed || inLoop l ||
      decide (cfg.limits.resumeReadBytes < c.waiting + cfg.frameSize message)
  else
    decide (cfg.limits.resumeReadBytes < c.outstandingBytes) &&
      (c.lowWaterArmed || decide (cfg.limits.resumeReadBytes < c.waiting))

lemma loop_of_reserveInLoop (hmessage : x.reserving l = some message)
    (hnext : x.next cfg l = some x₁) (hl : inLoop l = true)
    (haccepted : (x.reserve cfg message).1.disposition = .accepted) : x₁.loop.send? ≠ none := by
  cases l <;> cases hl
  simp only [reserving] at hmessage
  split at hmessage
  · rename_i m hloop
    cases hmessage
    simp only [next, hloop, haccepted] at hnext
    cases hnext
    simp [LoopPhase.send?]
  · cases hmessage

lemma Awaits.of_reserve (hmessage : x.reserving l = some message)
    (hnext : x.next cfg l = some x₁)
    (hpause : (x.reserve cfg message).1.pressure = .pauseProducer)
    (hmax : x.outstandingBytes + cfg.frameSize message ≠ sizeMax)
    (hwakes : x.wakes cfg l message = true) : x₁.Awaits cfg x₁.pressureCalls := by
  obtain ⟨hcounter, harmed, -, hqueued⟩ := next_of_reserving hmessage hnext
  refine .inr ⟨rfl, ?_⟩
  unfold wakes at hwakes
  rcases reserve_cases cfg message x with heq | ⟨-, hfull, heq⟩ | ⟨-, hsum, -⟩ | ⟨-, hroom, heq⟩
  · rw [heq] at hpause
    cases hpause
  · rw [if_neg (by omega), Bool.and_eq_true, Bool.or_eq_true, decide_eq_true_eq,
      decide_eq_true_eq] at hwakes
    rw [heq] at hcounter hqueued
    refine ⟨?_, ?_⟩
    · rw [hcounter]
      exact hwakes.1
    · have hzero : admitted cfg message .wouldBlock = 0 := rfl
      rw [harmed, waiting, hqueued, hzero, zero_add]
      exact hwakes.2.imp_right .inl
  · exact absurd hsum hmax
  · rw [if_pos hroom, Bool.or_eq_true, Bool.or_eq_true, decide_eq_true_eq] at hwakes
    have hloop := loop_of_reserveInLoop hmessage hnext
    rw [heq] at hcounter hqueued hpause hloop
    have habove : cfg.limits.pauseReadBytes < x.outstandingBytes + cfg.frameSize message := by
      by_contra hnot
      dsimp only at hpause
      rw [if_neg hnot] at hpause
      cases hpause
    refine ⟨?_, ?_⟩
    · rw [hcounter]
      exact cfg.limits.resume_lt_pause.trans habove
    · rw [harmed, waiting, hqueued, admitted, Multiset.map_add, Multiset.sum_add,
        Multiset.map_singleton, Multiset.sum_singleton, add_comm]
      rcases hwakes with (harmed | hl) | hwaiting
      · exact .inl harmed
      · exact .inr (.inr (hloop hl rfl))
      · exact .inr (.inl hwaiting)

/-- **No lost wakeup.**  If a `send` returns `PauseProducer` and the wakeup is certain at its
reservation, then whatever the threads do, once everything is written and the connection is still
connected, the callback has been called since the reservation. -/
theorem low_water_wakeup (hreach : ReflTransGen (tightMachine cfg).Step {} x)
    (hmessage : x.reserving l = some message)
    (hpause : (x.reserve cfg message).1.pressure = .pauseProducer)
    (hwakes : x.wakes cfg l message = true) (hstep : (tightMachine cfg).next x l = some x₁)
    (hrun : ReflTransGen (tightMachine cfg).Step x₁ y) (hopen : y.state = .connected)
    (hwritten : y.unsent + y.outputBuffer.readableBytes = 0) :
    x₁.pressureCalls < y.pressureCalls := by
  have hreach₁ : ReflTransGen (tightMachine cfg).Step {} x₁ := hreach.tail ⟨l, hstep⟩
  obtain ⟨htight, hnext⟩ := Machine.restrict_next.1 hstep
  have hmax := ne_sizeMax_of_tight hmessage htight
  have hawaits := Awaits.of_reserve hmessage hnext hpause hmax hwakes
  obtain ⟨-, hsound, hbalanced⟩ | hshut := balanced_or_shut hreach₁
  · obtain ⟨-, hend, hawaits⟩ := connected_invariant
      (P := fun c => Balanced c ∧ c.Awaits cfg x₁.pressureCalls)
      (fun _ => rfl) (fun c l d htight heffect hsound hd h =>
        have hbalanced := h.1.effect hsound htight heffect hd
        ⟨hbalanced, h.2.effect heffect hsound hbalanced hd⟩)
      hsound ⟨hbalanced, hawaits⟩ hrun hopen
    rcases hawaits with hcalled | ⟨-, hot⟩
    · exact hcalled
    · -- the counter is zero at the end, which is not above the mark
      have hzero := hend.counter
      have hhigh := hot.high
      rw [unsent_eq] at hwritten
      omega
  · cases hshut.state.symm.trans (connected_of_reaches hrun hopen)

namespace LowWater

/-- The state after some steps. -/
def after (acts : List Act) : TcpConnection := ((machine small).run {} acts).getD {}

/-- A message of four bytes for which room is reserved. -/
def reserved : List Act := [.call [1, 2, 3, 4], .reserve 0]

/-- The message is written at once. -/
def written : List Act := [.post 0, .run, .write (.wrote 4), .resume]

/-- Two bytes go to the buffer, and another thread calls `send`. -/
def calling (message : List UInt8) : TcpConnection :=
  after [.callInLoop [1, 2], .reserveInLoop, .enter, .write .wouldBlock, .call message]

/-- The buffer is written before the message of the other thread comes to the loop. -/
def overtaken : List Act :=
  [.reserve 0, .handleWrite (.wrote 2), .post 0, .run, .write (.wrote 2)]

/-- The buffer is written after the other thread has been refused. -/
def drained : List Act := [.reserve 0, .handleWrite (.wrote 2), .post 0, .run]

end LowWater

open LowWater in
theorem low_water_wakeup_direct :
    (after reserved).pressureCalls < (after (reserved ++ written)).pressureCalls := by
  have hreach : (tightMachine small).run {} [.call [1, 2, 3, 4]] =
      some (after [.call [1, 2, 3, 4]]) := by
    decide +kernel
  have hstep : (tightMachine small).next (after [.call [1, 2, 3, 4]]) (.reserve 0) =
      some (after reserved) := by
    decide +kernel
  have hrun : (tightMachine small).run (after reserved) written =
      some (after (reserved ++ written)) := by
    decide +kernel
  have hmessage : (after [.call [1, 2, 3, 4]]).reserving (.reserve 0) = some [1, 2, 3, 4] := by
    decide +kernel
  exact low_water_wakeup (Machine.reaches_of_run hreach) hmessage (by decide +kernel)
    (by decide +kernel) hstep (Machine.reaches_of_run hrun) (by decide +kernel) (by decide +kernel)

open LowWater in
/-- Two threads that are not woken.  Both times two bytes, no more than the mark, are in the
buffer.  The first thread sends two more bytes, which is more than the pause mark together, and
the buffer is written before they come to the loop; the second thread is refused, because four
more bytes are more than the hard limit.  Everything is written, and the callback is not called. -/
theorem lost_wakeup :
    (((calling [3, 4]).reserve small [3, 4]).1 = ⟨.accepted, .pauseProducer⟩ ∧
      ∃ y, (machine small).run (calling [3, 4]) overtaken = some y ∧ y.state = .connected ∧
        y.unsent + y.outputBuffer.readableBytes = 0 ∧ y.pressureCalls = 0) ∧
    ((calling [3, 4, 5, 6]).reserve small [3, 4, 5, 6]).1 = ⟨.wouldBlock, .pauseProducer⟩ ∧
      ∃ y, (machine small).run (calling [3, 4, 5, 6]) drained = some y ∧ y.state = .connected ∧
        y.unsent + y.outputBuffer.readableBytes = 0 ∧ y.pressureCalls = 0 := by
  refine ⟨⟨by decide +kernel, ?_⟩, by decide +kernel, ?_⟩
  · refine ⟨((machine small).run (calling [3, 4]) overtaken).getD {}, ?_⟩
    decide +kernel
  · refine ⟨((machine small).run (calling [3, 4, 5, 6]) drained).getD {}, ?_⟩
    decide +kernel

end TcpConnection

end MuduoChat
