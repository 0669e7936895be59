import Mathlib.Algebra.BigOperators.Group.Multiset.Basic
import MuduoChat.Net.Connection

/-!
# What a step of a connection does

The invariants of a connection are about few of its components each: the counter and the sends
that wait, the buffer and the timer, the bytes that have gone out.  `Effect` says once, for every
step, which functions of the source it runs and what becomes of the sends under way; an invariant
is then checked against each of the functions, and not against each of the steps.
-/

namespace MuduoChat

open Relation TcpConnection

/-! ### Sends under way -/

/-- The message for which a call has reserved room, and the room. -/
def Caller.send? : Caller → Option (List UInt8 × ℕ)
  | .reserved message frameSize => some (message, frameSize)
  | _ => none

def LoopFunctor.send? : LoopFunctor → Option (List UInt8 × ℕ)
  | .sendInLoop message frameSize => some (message, frameSize)
  | _ => none

def LoopPhase.send? : LoopPhase → Option (List UInt8 × ℕ)
  | .reserved message frameSize => some (message, frameSize)
  | _ => none

/-- What the loop thread is writing: the message, its frame, and the room. -/
def LoopPhase.writes? : LoopPhase → Option (List UInt8 × List UInt8 × ℕ)
  | .writing message bytes frameSize => some (message, bytes, frameSize)
  | _ => none

/-- The part of a frame that waits for the callback to return. -/
def Interrupted.rest : Interrupted → List UInt8
  | .sendInLoop rest => rest
  | .handleWrite => []

namespace TcpConnection

variable {cfg : ConnectionConfig} {c d : TcpConnection} {message : List UInt8} {n k : ℕ} {l : Act}

/-- The sends that callers, the queue of the loop and the loop thread have in their hands. -/
def sends (callers : List Caller) (functors : List LoopFunctor) (loop : LoopPhase) :
    Multiset (List UInt8 × ℕ) :=
  ↑(callers.filterMap Caller.send?) + ↑(functors.filterMap LoopFunctor.send?) +
    ↑loop.send?.toList

/-- The accepted sends whose `sendInLoop` has not begun. -/
def queued (c : TcpConnection) : Multiset (List UInt8 × ℕ) :=
  sends c.callers c.pendingFunctors c.loop

/-- The bytes that interrupted functions have still to keep. -/
def remaining (c : TcpConnection) : List UInt8 := c.inside.flatMap Interrupted.rest

lemma sends_replace {callers : List Caller} {x : Caller} (xs : List Caller)
    (functors : List LoopFunctor) (loop : LoopPhase) (h : callers[k]? = some x) :
    sends (callers.take k ++ xs ++ callers.drop (k + 1)) functors loop + ↑x.send?.toList =
      sends callers functors loop + ↑(xs.filterMap Caller.send?) := by
  have hsplit : callers.filterMap Caller.send? = (callers.take k).filterMap Caller.send? ++
      (x.send?.toList ++ (callers.drop (k + 1)).filterMap Caller.send?) := by
    obtain ⟨hk, hx⟩ := List.getElem?_eq_some_iff.1 h
    have hcallers : callers = callers.take k ++ ([x] ++ callers.drop (k + 1)) := by
      rw [← hx, List.singleton_append, ← List.drop_eq_getElem_cons hk, List.take_append_drop]
    conv_lhs => rw [hcallers]
    rw [List.filterMap_append, List.filterMap_append]
    congr 2
  simp only [sends, List.filterMap_append, hsplit, ← Multiset.coe_add]
  abel

/-- The message for which a step reserves room. -/
def reserving (c : TcpConnection) : Act → Option (List UInt8)
  | .reserve k =>
    match c.callers[k]? with
    | some (.checked message) => some message
    | _ => none
  | .reserveInLoop =>
    match c.loop with
    | .checked message => some message
    | _ => none
  | _ => none

/-- The sends that a reservation adds. -/
def admitted (cfg : ConnectionConfig) (message : List UInt8) :
    Disposition → Multiset (List UInt8 × ℕ)
  | .accepted => {(message, cfg.frameSize message)}
  | _ => 0

/-! ### What the functions change -/

def Fits (cfg : ConnectionConfig) (message : List UInt8) (frameSize : ℕ) : Prop :=
  ∃ bytes, cfg.frame? message = some bytes ∧ frameSize = max 1 bytes.length

lemma releaseOutstanding_frame (cfg : ConnectionConfig) (n : ℕ) (c : TcpConnection) :
    releaseOutstanding cfg n c =
      { c with
        outstandingBytes := sub64 c.outstandingBytes n
        lowWaterArmed := (releaseOutstanding cfg n c).lowWaterArmed
        pressureCalls := (releaseOutstanding cfg n c).pressureCalls } := by
  unfold releaseOutstanding
  dsimp only
  split
  · rfl
  · rfl

/-- The state in which a function that has given room back waits for the callback. -/
def interrupt (cfg : ConnectionConfig) (n : ℕ) (k : Interrupted) (c : TcpConnection) :
    TcpConnection :=
  { releaseOutstanding cfg n c with inside := k :: c.inside }

lemma interrupt_frame (cfg : ConnectionConfig) (n : ℕ) (k : Interrupted) (c : TcpConnection) :
    interrupt cfg n k c =
      { c with
        outstandingBytes := sub64 c.outstandingBytes n
        lowWaterArmed := (releaseOutstanding cfg n c).lowWaterArmed
        pressureCalls := (releaseOutstanding cfg n c).pressureCalls
        inside := k :: c.inside } := by
  rw [interrupt, releaseOutstanding_frame]

lemma startStallTimer_eq (cfg : ConnectionConfig) (htimer : d.stallTimer = c.stallTimer)
    (hclock : d.clock = c.clock) :
    startStallTimer cfg d = { d with stallTimer := (startStallTimer cfg c).stallTimer } := by
  unfold startStallTimer
  cases hc : c.stallTimer with
  | none => rw [htimer, hc, hclock]
  | some deadline =>
    rw [htimer, hc]
    dsimp only
    rw [← htimer.trans hc]

lemma keep_frame (cfg : ConnectionConfig) (bytes : List UInt8) (c : TcpConnection) :
    keep cfg bytes c =
      { c with
        outputBuffer := (keep cfg bytes c).outputBuffer
        writing := (keep cfg bytes c).writing
        reading := (keep cfg bytes c).reading
        stallTimer := (keep cfg bytes c).stallTimer } := by
  unfold keep checkPause
  split
  · split
    · rw [startStallTimer_eq cfg (c := c)] <;> rfl
    · rfl
  · rfl

lemma keep_contents (cfg : ConnectionConfig) (bytes : List UInt8) (c : TcpConnection) :
    (keep cfg bytes c).outputBuffer.contents = c.outputBuffer.contents ++ bytes := by
  unfold keep checkPause
  split
  · split
    · rw [startStallTimer_eq cfg (c := c)]
      · exact Buffer.contents_append _ _
      · rfl
      · rfl
    · exact Buffer.contents_append _ _
  · rename_i hempty
    rw [List.length_eq_zero_iff.1 (Nat.eq_zero_of_not_pos hempty), List.append_nil]

lemma resume_frame (cfg : ConnectionConfig) (k : Interrupted) (c : TcpConnection) :
    resume cfg k c =
      { c with
        outputBuffer := (resume cfg k c).outputBuffer
        writing := (resume cfg k c).writing
        reading := (resume cfg k c).reading
        stallTimer := (resume cfg k c).stallTimer } := by
  cases k with
  | sendInLoop rest => exact keep_frame cfg rest c
  | handleWrite =>
    unfold resume checkResume
    dsimp only
    split
    · split
      · rfl
      · rfl
    · split
      · rfl
      · rfl

lemma resume_contents (cfg : ConnectionConfig) (k : Interrupted) (c : TcpConnection) :
    (resume cfg k c).outputBuffer.contents = c.outputBuffer.contents ++ k.rest := by
  cases k with
  | sendInLoop rest => exact keep_contents cfg rest c
  | handleWrite =>
    unfold resume checkResume
    dsimp only
    rw [show (Interrupted.handleWrite).rest = [] from rfl, List.append_nil]
    split <;> split <;> rfl

lemma keep_writing {bytes : List UInt8} (h : c.writing = true) :
    (keep cfg bytes c).writing = true := by
  unfold keep checkPause
  split
  · split
    · rw [startStallTimer_eq cfg (c := c)] <;> rfl
    · rfl
  · exact h

lemma resume_handleWrite_writing (h : c.writing = false) :
    (resume cfg .handleWrite c).writing = false := by
  unfold resume checkResume
  dsimp only
  split <;> split <;> first | rfl | exact h

variable {bytes : List UInt8}

/-! ### Reservations -/

lemma frameSize_of_none (h : cfg.frame? message = none) : cfg.frameSize message = sizeMax := by
  unfold ConnectionConfig.frame? at h
  unfold ConnectionConfig.frameSize
  cases hcodec : cfg.codec with
  | none =>
    rw [hcodec] at h
    cases h
  | some codec =>
    rw [hcodec] at h
    dsimp only at h ⊢
    rw [OutputCodec.encodedSize_of_none h]
    rfl

lemma frameSize_of_some (h : cfg.frame? message = some bytes) :
    cfg.frameSize message = max 1 bytes.length := by
  unfold ConnectionConfig.frame? at h
  unfold ConnectionConfig.frameSize
  cases hcodec : cfg.codec with
  | none =>
    rw [hcodec] at h
    cases h
    rfl
  | some codec =>
    rw [hcodec] at h
    dsimp only at h ⊢
    rw [OutputCodec.encodedSize_of_frame h]

/-- How a reservation ends.  The third case is the one in which room is reserved and the caller is
refused nevertheless. -/
lemma reserve_cases (cfg : ConnectionConfig) (message : List UInt8) (c : TcpConnection) :
    c.reserve cfg message = (⟨.tooLarge, .normal⟩, c) ∨
    (cfg.frameSize message ≤ cfg.limits.hardLimitBytes ∧
      cfg.limits.hardLimitBytes < c.outstandingBytes + cfg.frameSize message ∧
      c.reserve cfg message = (⟨.wouldBlock, .pauseProducer⟩, c)) ∨
    (cfg.frameSize message ≤ cfg.limits.hardLimitBytes ∧
      c.outstandingBytes + cfg.frameSize message = sizeMax ∧ c.reserve cfg message =
      (⟨.wouldBlock, .pauseProducer⟩, { c with outstandingBytes := sizeMax })) ∨
    (Fits cfg message (cfg.frameSize message) ∧
      c.outstandingBytes + cfg.frameSize message ≤ cfg.limits.hardLimitBytes ∧
      c.reserve cfg message =
        (⟨.accepted, if c.outstandingBytes + cfg.frameSize message > cfg.limits.pauseReadBytes
            then .pauseProducer else .normal⟩,
          { c with outstandingBytes := c.outstandingBytes + cfg.frameSize message })) := by
  have hhard := cfg.limits.hard_le
  unfold reserve tryReserve
  dsimp only
  by_cases hlarge : cfg.frameSize message > cfg.limits.hardLimitBytes
  · exact .inl (if_pos hlarge)
  rw [if_neg hlarge]
  by_cases hfull : c.outstandingBytes > cfg.limits.hardLimitBytes - cfg.frameSize message
  · rw [if_pos hfull]
    exact .inr (.inl ⟨by omega, by omega, if_pos rfl⟩)
  rw [if_neg hfull]
  by_cases hmax : c.outstandingBytes + cfg.frameSize message = sizeMax
  · refine .inr (.inr (.inl ⟨by omega, hmax, ?_⟩))
    simp only [hmax, if_true]
  · refine .inr (.inr (.inr ⟨?_, by omega, if_neg hmax⟩))
    cases hframe : cfg.frame? message with
    | none =>
      -- such a message asks for more than there is room for
      have hsize := frameSize_of_none hframe
      omega
    | some bytes => exact ⟨bytes, hframe, frameSize_of_some hframe⟩

lemma sendInLoop_eq (hopen : c.state ≠ .disconnected)
    (hframe : cfg.frame? message = some bytes) :
    sendInLoop cfg message n c =
      { c with
        lowWaterArmed := c.lowWaterArmed ||
          decide (c.outstandingBytes > cfg.limits.resumeReadBytes)
        loop := .writing message bytes n } := by
  unfold sendInLoop
  rw [if_neg hopen]
  unfold ConnectionConfig.frame? at hframe
  cases hcodec : cfg.codec with
  | none =>
    rw [hcodec] at hframe
    cases hframe
    rfl
  | some codec =>
    rw [hcodec] at hframe
    obtain ⟨hok, hcontents⟩ := OutputCodec.encode_of_frame hframe .new
    rw [Buffer.contents_new, List.nil_append] at hcontents
    simp only [hok, hcontents, ne_eq, not_true_eq_false, if_false]

lemma sendInLoop_frame (cfg : ConnectionConfig) (message : List UInt8) (n : ℕ)
    (c : TcpConnection) :
    sendInLoop cfg message n c =
      { c with
        outstandingBytes := (sendInLoop cfg message n c).outstandingBytes
        lowWaterArmed := (sendInLoop cfg message n c).lowWaterArmed
        pressureCalls := (sendInLoop cfg message n c).pressureCalls
        loop := (sendInLoop cfg message n c).loop } := by
  unfold sendInLoop
  split
  · rw [releaseOutstanding_frame]
  · cases cfg.codec
    all_goals
      dsimp only
      split
      · rw [releaseOutstanding_frame]
      · rfl

lemma reserve_snd (cfg : ConnectionConfig) (message : List UInt8) (c : TcpConnection) :
    ∃ outstanding ≥ c.outstandingBytes,
      (c.reserve cfg message).2 = { c with outstandingBytes := outstanding } := by
  rcases reserve_cases cfg message c with heq | ⟨-, -, heq⟩ | ⟨-, hsum, heq⟩ | ⟨-, -, heq⟩
  · exact ⟨_, le_rfl, by rw [heq]⟩
  · exact ⟨_, le_rfl, by rw [heq]⟩
  · exact ⟨sizeMax, by omega, by rw [heq]⟩
  · exact ⟨_, Nat.le_add_right _ _, by rw [heq]⟩

/-! ### Inversion -/

inductive Closes (c : TcpConnection) : Act → TcpConnection → Prop
  | run {functors : List LoopFunctor}
      (hfunctors : c.pendingFunctors = .forceCloseInLoop :: functors) :
      Closes c .run { c with pendingFunctors := functors }.forceCloseInLoop
  | force : Closes c .forceCloseInLoop c.forceCloseInLoop
  | stall : Closes c .fireStall c.forceCloseInLoop
  | handle : Closes c .handleClose c.handleClose
  | destroy : Closes c .connectDestroyed c.connectDestroyed

lemma forceCloseInLoop_state (c : TcpConnection) : c.forceCloseInLoop.state ≠ .connected := by
  unfold forceCloseInLoop
  dsimp only
  split
  · simp [resetOutstanding]
  · rename_i hnot
    intro hconnected
    exact hnot (.inl hconnected)

lemma Closes.state (h : Closes c l d) : d.state ≠ .connected := by
  cases h with
  | run | force | stall => exact forceCloseInLoop_state _
  | handle => simp [handleClose]
  | destroy =>
    unfold connectDestroyed
    split
    · simp [resetOutstanding, cancelStallTimer]
    · rename_i hnot
      exact hnot

/-- **What a step does.**  A thread passes on what it has in its hands; it reserves room, and the
loop thread starts the stall timer if it has been refused; the timer is started from the queue;
`sendInLoop` begins, and writes its frame, keeps it or drops it; the socket takes bytes from the
buffer; a function goes on after the callback; or the connection is closed. -/
inductive Effect (cfg : ConnectionConfig) (c : TcpConnection) : Act → TcpConnection → Prop
  | pass {l : Act} {callers : List Caller} {functors : List LoopFunctor} {loop : LoopPhase}
      {clock : ℕ} (hl : c.reserving l = none)
      (hqueued : sends callers functors loop = c.queued) (hclock : c.clock ≤ clock)
      (hloop : loop.writes? = c.loop.writes?) (hkept : c.loop.send? = none ∨ loop = c.loop) :
      Effect cfg c l
        { c with callers := callers, pendingFunctors := functors, loop := loop, clock := clock }
  | reserve {l : Act} {message : List UInt8} {callers : List Caller} {loop : LoopPhase}
      {timer : Option ℕ} (hmessage : c.reserving l = some message)
      (hqueued : sends callers c.pendingFunctors loop =
        admitted cfg message (c.reserve cfg message).1.disposition + c.queued)
      (hloop : loop.writes? = c.loop.writes?) (hkept : c.loop.send? = none ∨ loop = c.loop)
      (htimer : timer = c.stallTimer ∨ l = .reserveInLoop ∧ c.loop = .checked message ∧
        (c.reserve cfg message).1.disposition = .wouldBlock ∧
        timer = (startStallTimer cfg c).stallTimer) :
      Effect cfg c l
        { c with
          outstandingBytes := (c.reserve cfg message).2.outstandingBytes
          callers := callers
          loop := loop
          stallTimer := timer }
  | startTimer {functors : List LoopFunctor}
      (hfunctors : c.pendingFunctors = .startStallTimer :: functors) :
      Effect cfg c .run
        { c with
          pendingFunctors := functors
          stallTimer := (startStallTimer cfg c).stallTimer }
  | send {l : Act} {message : List UInt8} {n : ℕ} {functors : List LoopFunctor}
      (hl : c.reserving l = none) (hloop : c.loop.writes? = none)
      (hqueued : c.queued = (message, n) ::ₘ sends c.callers functors .idle) :
      Effect cfg c l
        (sendInLoop cfg message n { c with pendingFunctors := functors, loop := .idle })
  | write {message bytes : List UInt8} {n j back : ℕ} (hloop : c.loop = .writing message bytes n)
      (hdirect : c.direct) (hj : j ≤ bytes.length)
      (hback : back = if bytes.length - j = 0 then n else j) :
      Effect cfg c (.write (.wrote j))
        (interrupt cfg back (.sendInLoop (bytes.drop j))
          { c with
            loop := .idle
            ran := c.ran ++ [message]
            socket := c.socket ++ bytes.take j })
  | keep {message bytes : List UInt8} {n : ℕ} {r : WriteResult}
      (hloop : c.loop = .writing message bytes n)
      (hr : c.direct → r = .wouldBlock ∨ r = .error) :
      Effect cfg c (.write r)
        (keep cfg bytes { c with loop := .idle, ran := c.ran ++ [message] })
  | drop {message bytes : List UInt8} {n : ℕ} (hloop : c.loop = .writing message bytes n)
      (hdirect : c.direct) :
      Effect cfg c (.write .fault) { c with loop := .idle, ran := c.ran ++ [message] }
  | handleWrite {j : ℕ} (hloop : c.loop = .idle) (hinside : c.inside = [])
      (hwriting : c.writing = true) (hj : j ≤ c.outputBuffer.readableBytes) :
      Effect cfg c (.handleWrite (.wrote j))
        (interrupt cfg j .handleWrite
          { c with
            outputBuffer := c.outputBuffer.retrieve j
            socket := c.socket ++ c.outputBuffer.contents.take j })
  | resume {k : Interrupted} {inside : List Interrupted} (hloop : c.loop = .idle)
      (hinside : c.inside = k :: inside) :
      Effect cfg c .resume (resume cfg k { c with inside := inside })
  | close {l : Act} {d : TcpConnection} (hcloses : Closes c l d) : Effect cfg c l d

/-- The effect of a step, or two of them: a function that gives room back goes on at once if the
callback is not called. -/
def Does (cfg : ConnectionConfig) (c : TcpConnection) (l : Act) (d : TcpConnection) : Prop :=
  Effect cfg c l d ∨ (∃ r, l = .write r ∨ l = .handleWrite r) ∧
    ∃ p, Effect cfg c l p ∧ p.next cfg .resume = some d

lemma does_releaseThen {c₁ : TcpConnection} {k : Interrupted}
    (hl : ∃ r, l = .write r ∨ l = .handleWrite r)
    (hloop : c₁.loop = .idle) (h : Effect cfg c l (interrupt cfg n k c₁)) :
    Does cfg c l (releaseThen cfg n k c₁) := by
  unfold releaseThen
  split
  · exact .inl h
  · refine .inr ⟨hl, _, h, ?_⟩
    have hpop : ({ interrupt cfg n k c₁ with inside := c₁.inside } : TcpConnection) =
        releaseOutstanding cfg n c₁ := by
      rw [interrupt_frame, releaseOutstanding_frame]
    have hin : (interrupt cfg n k c₁).inside = k :: c₁.inside := rfl
    have hidle : (interrupt cfg n k c₁).loop = .idle := by
      rw [interrupt_frame]
      exact hloop
    rw [← hpop]
    simp only [next, hidle, hin]

lemma effect_resume (hnext : c.next cfg .resume = some d) : Effect cfg c .resume d := by
  simp only [next] at hnext
  split at hnext
  · rename_i k inside hloop hinside
    cases hnext
    exact .resume hloop hinside
  · cases hnext

lemma Does.refl (hl : c.reserving l = none) : Does cfg c l c :=
  .inl (.pass hl rfl le_rfl rfl (.inr rfl))

lemma effect_reserve (hcaller : c.callers[k]? = some (.checked message)) :
    Effect cfg c (.reserve k) ((c.reserve cfg message).2.replaceCaller k
      (afterReserve cfg message (c.reserve cfg message).1.disposition)) := by
  obtain ⟨outstanding, -, hsnd⟩ := reserve_snd cfg message c
  have hmove := sends_replace (afterReserve cfg message (c.reserve cfg message).1.disposition)
    c.pendingFunctors c.loop hcaller
  have hadmitted : ((afterReserve cfg message (c.reserve cfg message).1.disposition).filterMap
      Caller.send? : Multiset (List UInt8 × ℕ)) =
        admitted cfg message (c.reserve cfg message).1.disposition := by
    cases (c.reserve cfg message).1.disposition <;> rfl
  have hcallers : (c.reserve cfg message).2.replaceCaller k
        (afterReserve cfg message (c.reserve cfg message).1.disposition) =
      { c with
        outstandingBytes := (c.reserve cfg message).2.outstandingBytes
        callers := c.callers.take k ++
          afterReserve cfg message (c.reserve cfg message).1.disposition ++ c.callers.drop (k + 1)
        loop := c.loop
        stallTimer := c.stallTimer } := by
    rw [hsnd]
    rfl
  rw [hcallers]
  refine .reserve ?_ ?_ rfl (.inr rfl) (.inl rfl)
  · simp only [reserving, hcaller]
  · rw [hadmitted] at hmove
    rw [queued, add_comm (admitted _ _ _), ← hmove]
    exact (add_zero _).symm

lemma effect_reserveInLoop (hnext : c.next cfg .reserveInLoop = some d) :
    Effect cfg c .reserveInLoop d := by
  simp only [next] at hnext
  split at hnext
  swap
  · cases hnext
  rename_i message hloop
  have hmessage : c.reserving .reserveInLoop = some message := by simp only [reserving, hloop]
  have hqueued (p : LoopPhase) : sends c.callers c.pendingFunctors p = ↑p.send?.toList + c.queued := by
    rw [queued, hloop, add_comm]
    simp [sends, LoopPhase.send?]
  have hwrites : c.loop.writes? = none := by rw [hloop]; rfl
  have hkept : c.loop.send? = none := by rw [hloop]; rfl
  obtain ⟨outstanding, -, hsnd⟩ := reserve_snd cfg message c
  have hcounter : (c.reserve cfg message).2.outstandingBytes = outstanding := by rw [hsnd]
  split at hnext
  · rename_i haccepted
    cases hnext
    rw [hsnd, ← hcounter]
    refine .reserve hmessage ?_ hwrites.symm (.inl hkept) (.inl rfl)
    rw [hqueued, haccepted]
    rfl
  · rename_i hrefused
    cases hnext
    rw [hsnd, ← hcounter, startStallTimer_eq cfg (d := { c with
      outstandingBytes := (c.reserve cfg message).2.outstandingBytes, loop := .idle })
      (c := c) rfl rfl]
    refine .reserve hmessage ?_ hwrites.symm (.inl hkept) (.inr ⟨rfl, hloop, hrefused, rfl⟩)
    rw [hqueued, hrefused]
    rfl
  · rename_i haccepted hrefused
    cases hnext
    rw [hsnd, ← hcounter]
    refine .reserve hmessage ?_ hwrites.symm (.inl hkept) (.inl rfl)
    rw [hqueued]
    cases hdisposition : (c.reserve cfg message).1.disposition with
    | accepted => exact absurd hdisposition haccepted
    | wouldBlock => exact absurd hdisposition hrefused
    | closed => rfl
    | tooLarge => rfl

lemma effect_post {x : Caller} {f : LoopFunctor} (hcaller : c.callers[k]? = some x)
    (hsend : f.send? = x.send?) :
    Effect cfg c (.post k)
      { c.replaceCaller k [] with pendingFunctors := c.pendingFunctors ++ [f] } := by
  have hmove := sends_replace [] c.pendingFunctors c.loop hcaller
  refine .pass rfl ?_ le_rfl rfl (.inr rfl)
  rw [queued, ← add_zero (sends c.callers _ _)]
  refine Eq.trans ?_ hmove
  have hadd : ((c.pendingFunctors ++ [f]).filterMap LoopFunctor.send? :
      Multiset (List UInt8 × ℕ)) =
        ↑(c.pendingFunctors.filterMap LoopFunctor.send?) + ↑x.send?.toList := by
    rw [List.filterMap_append, ← Multiset.coe_add, ← hsend]
    rfl
  simp only [sends, replaceCaller, hadd]
  abel

lemma sends_functor {f : LoopFunctor} (hf : f.send? = none) (callers : List Caller)
    (functors : List LoopFunctor) (loop : LoopPhase) :
    sends callers (functors ++ [f]) loop = sends callers functors loop ∧
      sends callers (f :: functors) loop = sends callers functors loop := by
  simp [sends, List.filterMap_append, hf]

lemma does_finishSend {bytes : List UInt8} {r : WriteResult}
    (hloop : c.loop = .writing message bytes n)
    (h : finishSend cfg bytes n r { c with loop := .idle, ran := c.ran ++ [message] } = some d) :
    Does cfg c (.write r) d := by
  unfold finishSend at h
  split at h
  swap
  · rename_i hdirect
    cases h
    exact .inl (.keep hloop fun hno => absurd hno hdirect)
  rename_i hdirect
  cases r with
  | wrote j =>
    dsimp only at h
    split at h
    · rename_i hj
      cases h
      exact does_releaseThen ⟨_, .inl rfl⟩ rfl (.write hloop hdirect hj rfl)
    · cases h
  | wouldBlock =>
    cases h
    exact .inl (.keep hloop fun _ => .inl rfl)
  | error =>
    cases h
    exact .inl (.keep hloop fun _ => .inr rfl)
  | fault =>
    cases h
    exact .inl (.drop hloop hdirect)

lemma does_handleWrite {r : WriteResult} (hloop : c.loop = .idle) (hinside : c.inside = [])
    (h : handleWrite cfg r c = some d) : Does cfg c (.handleWrite r) d := by
  unfold handleWrite at h
  split at h
  swap
  · cases h
    exact .refl rfl
  rename_i hwriting
  cases r with
  | wrote j =>
    dsimp only at h
    split at h
    swap
    · cases h
    rename_i hj
    split at h
    · cases h
      exact does_releaseThen ⟨_, .inr rfl⟩ hloop (.handleWrite hloop hinside hwriting hj)
    · cases h
      exact .refl rfl
  | _ =>
    cases h
    exact .refl rfl

/-- **Inversion of a step.** -/
theorem does_of_next (hnext : c.next cfg l = some d) : Does cfg c l d := by
  cases l with
  | call message =>
    simp only [next] at hnext
    split at hnext
    · cases hnext
      refine .inl (.pass rfl ?_ le_rfl rfl (.inr rfl))
      have hnone : [Caller.checked message].filterMap Caller.send? = [] := rfl
      simp only [queued, sends, List.filterMap_append, hnone, List.append_nil]
    · cases hnext
      exact .refl rfl
  | reserve k =>
    simp only [next] at hnext
    split at hnext
    · rename_i message hcaller
      cases hnext
      exact .inl (effect_reserve hcaller)
    · cases hnext
  | post k =>
    simp only [next] at hnext
    split at hnext
    · rename_i message n hcaller
      cases hnext
      exact .inl (effect_post hcaller rfl)
    · rename_i hcaller
      cases hnext
      exact .inl (effect_post hcaller rfl)
    · cases hnext
  | callInLoop message =>
    simp only [next] at hnext
    split at hnext
    · rename_i hloop
      split at hnext
      · cases hnext
        refine .inl (.pass rfl ?_ le_rfl ?_ (.inl ?_))
        · rw [queued, hloop]
          rfl
        · rw [hloop]
          rfl
        · rw [hloop]
          rfl
      · cases hnext
        exact .refl rfl
    · cases hnext
  | reserveInLoop => exact .inl (effect_reserveInLoop hnext)
  | enter =>
    simp only [next] at hnext
    split at hnext
    · rename_i message n hloop
      cases hnext
      refine .inl (.send rfl (by rw [hloop]; rfl) ?_)
      rw [queued, hloop, ← Multiset.singleton_add, add_comm]
      simp [sends, LoopPhase.send?]
    · cases hnext
  | run =>
    simp only [next] at hnext
    split at hnext
    · rename_i message n rest hloop hinside hfunctors
      cases hnext
      have hidle : ({ c with pendingFunctors := rest } : TcpConnection) =
          { c with pendingFunctors := rest, loop := .idle } := by rw [hloop]
      rw [hidle]
      refine .inl (.send rfl (by rw [hloop]; rfl) ?_)
      rw [queued, hloop, hfunctors, ← Multiset.singleton_add]
      simp only [sends, LoopFunctor.send?, List.filterMap_cons, ← Multiset.cons_coe,
        ← Multiset.singleton_add]
      abel
    · rename_i rest hloop hinside hfunctors
      cases hnext
      rw [startStallTimer_eq cfg (d := { c with pendingFunctors := rest }) (c := c) rfl rfl]
      exact .inl (.startTimer hfunctors)
    · rename_i rest hloop hinside hfunctors
      cases hnext
      exact .inl (.close (.run hfunctors))
    · cases hnext
  | write r =>
    simp only [next] at hnext
    split at hnext
    · rename_i message bytes n hloop
      exact does_finishSend hloop hnext
    · cases hnext
  | resume => exact .inl (effect_resume hnext)
  | handleWrite r =>
    simp only [next] at hnext
    split at hnext
    · rename_i hloop hinside
      exact does_handleWrite hloop hinside hnext
    · cases hnext
  | forceClose =>
    cases hnext
    exact .inl (.pass rfl (sends_functor rfl _ _ _).1 le_rfl rfl (.inr rfl))
  | forceCloseInLoop =>
    simp only [next] at hnext
    split at hnext
    · cases hnext
      exact .inl (.close .force)
    · cases hnext
  | handleClose =>
    simp only [next] at hnext
    split at hnext
    · cases hnext
      exact .inl (.close .handle)
    · cases hnext
  | connectDestroyed =>
    simp only [next] at hnext
    split at hnext
    · cases hnext
      exact .inl (.close .destroy)
    · cases hnext
  | tick ms =>
    cases hnext
    exact .inl (.pass rfl rfl (Nat.le_add_right _ _) rfl (.inr rfl))
  | fireStall =>
    simp only [next] at hnext
    split at hnext
    · split at hnext
      · cases hnext
        exact .inl (.close .stall)
      · cases hnext
    · cases hnext

lemma next_of_reserving (hmessage : c.reserving l = some message)
    (hnext : c.next cfg l = some d) :
    d.outstandingBytes = (c.reserve cfg message).2.outstandingBytes ∧
      d.lowWaterArmed = c.lowWaterArmed ∧ d.pressureCalls = c.pressureCalls ∧
      d.queued = admitted cfg message (c.reserve cfg message).1.disposition + c.queued := by
  rcases does_of_next hnext with heffect | ⟨⟨r, rfl | rfl⟩, -⟩
  swap
  · cases hmessage
  swap
  · cases hmessage
  cases heffect with
  | pass hl | send hl => cases hl.symm.trans hmessage
  | reserve hm hqueued hloop =>
    obtain rfl := Option.some.inj (hm.symm.trans hmessage)
    exact ⟨rfl, rfl, rfl, hqueued⟩
  | close hcloses => cases hcloses <;> cases hmessage
  | startTimer | write | keep | drop | handleWrite | resume => cases hmessage

/-! ### What follows for every step -/

lemma Effect.state (h : Effect cfg c l d) : d.state = c.state ∨ Closes c l d := by
  cases h with
  | close hcloses => exact .inr hcloses
  | send hl hloop hqueued =>
    rw [sendInLoop_frame]
    exact .inl rfl
  | write | handleWrite =>
    rw [interrupt_frame]
    exact .inl rfl
  | keep =>
    rw [keep_frame]
    exact .inl rfl
  | resume =>
    rw [resume_frame]
    exact .inl rfl
  | _ => exact .inl rfl

lemma Effect.connected (h : Effect cfg c l d) (hd : d.state = .connected) :
    c.state = .connected := by
  rcases h.state with hsame | hcloses
  · exact hsame.symm.trans hd
  · exact absurd hd hcloses.state

/-- All accepted messages can be encoded and hold the room of their frames, what the loop thread is
about to write is the frame of its message, and in a callback of `handleWrite` the channel still
writes, so that nothing is written directly. -/
structure Sound (cfg : ConnectionConfig) (c : TcpConnection) : Prop where
  queued : ∀ x ∈ c.queued, Fits cfg x.1 x.2
  writing : ∀ m bytes n, c.loop.writes? = some (m, bytes, n) →
    cfg.frame? m = some bytes ∧ n = max 1 bytes.length
  handling : .handleWrite ∈ c.inside → c.inside = [.handleWrite] ∧ c.writing = true

lemma Sound.initial (cfg : ConnectionConfig) : Sound cfg {} := by
  refine ⟨fun x hx => ?_, fun m bytes n hloop => ?_, fun hin => ?_⟩
  · cases (Multiset.notMem_zero x) hx
  · cases hloop
  · cases hin

lemma fits_of_admitted {x : List UInt8 × ℕ}
    (hx : x ∈ admitted cfg message (c.reserve cfg message).1.disposition) : Fits cfg x.1 x.2 := by
  rcases reserve_cases cfg message c with heq | ⟨-, -, heq⟩ | ⟨-, -, heq⟩ | ⟨hfits, -, heq⟩
  · rw [heq] at hx
    cases (Multiset.notMem_zero x) hx
  · rw [heq] at hx
    cases (Multiset.notMem_zero x) hx
  · rw [heq] at hx
    cases (Multiset.notMem_zero x) hx
  · rw [heq] at hx
    obtain rfl := Multiset.mem_singleton.1 hx
    exact hfits

lemma Sound.idle (h : Sound cfg c) (hqueued : d.queued = c.queued) (hloop : d.loop = .idle)
    (hhandling : .handleWrite ∈ d.inside → d.inside = [.handleWrite] ∧ d.writing = true) :
    Sound cfg d := by
  refine ⟨hqueued ▸ h.queued, fun m bytes n hw => ?_, hhandling⟩
  rw [hloop] at hw
  cases hw

/-- **The step lemma.** -/
lemma Sound.effect (h : Sound cfg c) (heffect : Effect cfg c l d) (hd : d.state = .connected) :
    Sound cfg d := by
  have hc := heffect.connected hd
  have hdone {message bytes : List UInt8} {n : ℕ} (hloop : c.loop = .writing message bytes n) :
      sends c.callers c.pendingFunctors .idle = c.queued := by
    rw [TcpConnection.queued, hloop]
    rfl
  cases heffect with
  | pass hl hqueued hclock hloop =>
    exact ⟨fun x hx => h.queued x (hqueued ▸ hx),
      fun m bytes n hw => h.writing m bytes n (hloop.symm.trans hw), h.handling⟩
  | reserve hmessage hqueued hloop hkept htimer =>
    rename_i message callers loop timer
    refine ⟨fun x hx => ?_, fun m bytes n hw => h.writing m bytes n (hloop.symm.trans hw),
      h.handling⟩
    have hx : x ∈ sends callers c.pendingFunctors loop := hx
    rw [hqueued] at hx
    rcases Multiset.mem_add.1 hx with hx | hx
    · exact fits_of_admitted hx
    · exact h.queued x hx
  | startTimer hfunctors =>
    refine ⟨fun x hx => h.queued x ?_, h.writing, h.handling⟩
    rw [TcpConnection.queued, hfunctors, (sends_functor rfl _ _ _).2]
    exact hx
  | send hl hloop hqueued =>
    rename_i message n functors
    obtain ⟨bytes, hframe, hn⟩ := h.queued (message, n) (hqueued ▸ Multiset.mem_cons_self _ _)
    rw [sendInLoop_eq (by simp [hc]) hframe]
    refine ⟨fun x hx => h.queued x ?_, fun m bytes' n' hw => ?_, h.handling⟩
    · rw [hqueued]
      exact Multiset.mem_cons_of_mem hx
    · obtain ⟨rfl, rfl, rfl⟩ : message = m ∧ bytes = bytes' ∧ n = n' := by
        simpa [LoopPhase.writes?] using hw
      exact ⟨hframe, hn⟩
  | write hloop hdirect hj hback =>
    rw [interrupt_frame]
    refine h.idle (hdone hloop) rfl fun hin => ?_
    -- a frame is not written directly in a callback of `handleWrite`
    have hwriting := (h.handling ((List.mem_cons.1 hin).resolve_left (by simp))).2
    rw [hdirect.1] at hwriting
    cases hwriting
  | keep hloop hr =>
    refine h.idle ?_ ?_ ?_
    · rw [keep_frame]
      exact hdone hloop
    · rw [keep_frame]
    · intro hin
      rw [keep_frame] at hin
      have hheld := h.handling hin
      exact ⟨by rw [keep_frame]; exact hheld.1, keep_writing hheld.2⟩
  | drop hloop hdirect => exact h.idle (hdone hloop) rfl h.handling
  | handleWrite hloop hinside hwriting hj =>
    rw [interrupt_frame]
    have hqueued : sends c.callers c.pendingFunctors c.loop = c.queued := rfl
    exact h.idle hqueued hloop fun _ => ⟨by rw [hinside], hwriting⟩
  | resume hloop hinside =>
    rename_i k inside
    rw [resume_frame]
    refine h.idle rfl hloop fun hin => ?_
    have hall := (h.handling (hinside ▸ List.mem_cons_of_mem k hin)).1
    rw [hinside, List.cons.injEq] at hall
    rw [hall.2] at hin
    cases hin
  | close hcloses => exact absurd hd hcloses.state

/-! ### Runs of a connection that stays connected -/

section Runs

variable {p : TcpConnection → Act → Bool} {c₀ : TcpConnection}

lemma Does.rule {I : TcpConnection → Prop} (hresume : ∀ c, p c .resume = true)
    (hstep : ∀ c l d, p c l = true → Effect cfg c l d → I c → I d) (hp : p c l = true)
    (h : Does cfg c l d) (hc : I c) : I d := by
  rcases h with heffect | ⟨-, x, hfirst, hrest⟩
  · exact hstep c l d hp heffect hc
  · exact hstep x .resume d (hresume x) (effect_resume hrest) (hstep c l x hp hfirst hc)

lemma Does.connected (h : Does cfg c l d) (hd : d.state = .connected) : c.state = .connected := by
  rcases h with heffect | ⟨-, x, hfirst, hrest⟩
  · exact heffect.connected hd
  · exact hfirst.connected ((effect_resume hrest).connected hd)

lemma connected_of_reaches (h : ReflTransGen ((machine cfg).restrict p).Step c₀ c)
    (hc : c.state = .connected) : c₀.state = .connected := by
  induction h with
  | refl => exact hc
  | tail _ hlast ih =>
    obtain ⟨l, hnext⟩ := hlast
    exact ih ((does_of_next (Machine.restrict_next.1 hnext).2).connected hc)

/-- An invariant of the effects between states that are connected. -/
lemma connected_invariant {P : TcpConnection → Prop} (hresume : ∀ c, p c .resume = true)
    (hstep : ∀ c l d, p c l = true → Effect cfg c l d → Sound cfg c → d.state = .connected →
      P c → P d)
    (hsound : Sound cfg c₀) (hinit : P c₀)
    (h : ReflTransGen ((machine cfg).restrict p).Step c₀ c) (hc : c.state = .connected) :
    Sound cfg c ∧ P c := by
  refine Machine.invariant (I := fun c => c.state = .connected → Sound cfg c ∧ P c)
    (fun s l t hs hnext => ?_) (fun _ => ⟨hsound, hinit⟩) h hc
  obtain ⟨hp, hnext⟩ := Machine.restrict_next.1 hnext
  refine Does.rule (I := fun c => c.state = .connected → Sound cfg c ∧ P c) hresume
    (fun c l d hp heffect ih hd => ?_) hp (does_of_next hnext) hs
  obtain ⟨hsound, hP⟩ := ih (heffect.connected hd)
  exact ⟨hsound.effect heffect hd, hstep c l d hp heffect hsound hd hP⟩

end Runs

/-- Small limits, for concrete runs. -/
def small : ConnectionConfig where
  limits :=
    { pauseReadBytes := 3
      resumeReadBytes := 2
      hardLimitBytes := 5 }

end TcpConnection

end MuduoChat
