import MuduoChat.Net.Steps

/-!
# The stall timer

The timer is started when the output buffer has grown to the pause mark and reading stops, and
also when a `send` has been refused.  It is cancelled only when reading starts again.  A timer
that is started for a refused send while the connection still reads is therefore never cancelled,
and closes the connection although it has drained.  So does one whose cancellation is missed:
`handleWrite` runs the pressure callback before it looks at the buffer, and a producer that sends
from the callback can fill the buffer again.  If neither happens, the timer closes stalled
connections only.
-/

namespace MuduoChat

open Relation

namespace TcpConnection

variable {cfg : ConnectionConfig} {c d x y : TcpConnection} {l : Act}

/-! ### Steps that start the timer while reading is stopped -/

/-- The send will be refused. -/
def refuses (cfg : ConnectionConfig) (c : TcpConnection) (message : List UInt8) : Bool :=
  decide (cfg.frameSize message ≤ cfg.limits.hardLimitBytes ∧
    (cfg.limits.hardLimitBytes < c.outstandingBytes + cfg.frameSize message ∨
      c.outstandingBytes + cfg.frameSize message = sizeMax))

lemma refuses_of_wouldBlock {message : List UInt8}
    (h : (c.reserve cfg message).1.disposition = .wouldBlock) : c.refuses cfg message = true := by
  rw [refuses, decide_eq_true_eq]
  rcases reserve_cases cfg message c with heq | ⟨hsize, hfull, -⟩ | ⟨hsize, hsum, -⟩ | ⟨-, -, heq⟩
  · rw [heq] at h
    cases h
  · exact ⟨hsize, .inl hfull⟩
  · exact ⟨hsize, .inr hsum⟩
  · rw [heq] at h
    cases h

/-- `handleWrite` has taken the buffer to the mark, but has not cancelled the timer yet. -/
def Low (cfg : ConnectionConfig) (c : TcpConnection) : Prop :=
  .handleWrite ∈ c.inside ∧ c.reading = false ∧
    c.outputBuffer.readableBytes ≤ cfg.limits.resumeReadBytes

instance : Decidable (c.Low cfg) :=
  inferInstanceAs (Decidable (_ ∧ _ ∧ _))

/-- The timer is not started for a refused send while the connection reads, and the callback of
`handleWrite` does not fill the buffer again. -/
def patient (cfg : ConnectionConfig) (c : TcpConnection) : Act → Bool
  | .run =>
    match c.pendingFunctors with
    | .startStallTimer :: _ => !c.reading
    | _ => true
  | .reserveInLoop =>
    match c.loop with
    | .checked message => !c.refuses cfg message || !c.reading
    | _ => true
  | .write _ =>
    match c.loop with
    | .writing _ bytes _ =>
      !decide (c.Low cfg ∧
        cfg.limits.resumeReadBytes < c.outputBuffer.readableBytes + bytes.length)
    | _ => true
  | _ => true

/-- A buffer at the mark stays there until `handleWrite` cancels the timer. -/
lemma Low.effect (h : c.Low cfg) (hsound : Sound cfg c) (hpatient : patient cfg c l = true)
    (heffect : Effect cfg c l d) (hd : d.state = .connected) :
    d.Low cfg ∨ l = .resume ∧ d.stallTimer = none := by
  obtain ⟨hin, hreading, hlow⟩ := h
  obtain ⟨hinside, hwriting⟩ := hsound.handling hin
  cases heffect with
  | pass | reserve | startTimer | drop => exact .inl ⟨hin, hreading, hlow⟩
  | send =>
    rw [sendInLoop_frame]
    exact .inl ⟨hin, hreading, hlow⟩
  | write hloop hdirect =>
    rw [hdirect.1] at hwriting
    cases hwriting
  | keep hloop hr =>
    rename_i message bytes n r
    simp only [patient, hloop, Bool.not_eq_true', decide_eq_false_iff_not, not_and,
      Nat.not_lt] at hpatient
    have hfits := hpatient ⟨hin, hreading, hlow⟩
    have hmark := cfg.limits.resume_lt_pause
    have hgrown : (c.outputBuffer.append bytes).readableBytes =
      c.outputBuffer.readableBytes + bytes.length := Buffer.readableBytes_append _ _
    unfold keep checkPause
    split
    · rw [if_neg fun hfull => absurd (hgrown ▸ hfull.1) (by omega)]
      exact .inl ⟨hin, hreading, hgrown.trans_le hfits⟩
    · exact .inl ⟨hin, hreading, hlow⟩
  | handleWrite hloop hnone =>
    rw [hnone] at hin
    cases hin
  | resume hloop hhead =>
    rename_i k inside
    obtain ⟨rfl, rfl⟩ := List.cons.inj (hhead.symm.trans hinside)
    refine .inr ⟨rfl, ?_⟩
    unfold resume checkResume
    dsimp only
    split
    · rw [if_pos ⟨hreading, hlow⟩]
      rfl
    · rw [if_pos ⟨hreading, hlow⟩]
      rfl
  | close hcloses => exact absurd hd hcloses.state

lemma startStallTimer_timer (cfg : ConnectionConfig) (c : TcpConnection) :
    (startStallTimer cfg c).stallTimer = c.stallTimer ∨
      (startStallTimer cfg c).stallTimer = some (c.clock + cfg.limits.stallTimeout) := by
  unfold startStallTimer
  split
  · exact .inl rfl
  · exact .inr rfl

lemma keep_timer (cfg : ConnectionConfig) (bytes : List UInt8) (c : TcpConnection) :
    (keep cfg bytes c).stallTimer = c.stallTimer ∨
      (keep cfg bytes c).stallTimer = some (c.clock + cfg.limits.stallTimeout) := by
  unfold keep checkPause
  split
  · split
    · exact startStallTimer_timer cfg _
    · exact .inl rfl
  · exact .inl rfl

lemma resume_handleWrite_timer (cfg : ConnectionConfig) (c : TcpConnection) :
    (resume cfg .handleWrite c).stallTimer = c.stallTimer ∨
      (resume cfg .handleWrite c).stallTimer = none := by
  unfold resume checkResume
  dsimp only
  split <;> split <;> first | exact .inr rfl | exact .inl rfl

/-- What a step does to the timer. -/
lemma Effect.stallTimer (heffect : Effect cfg c l d) (hd : d.state = .connected) :
    d.stallTimer = c.stallTimer ∨ d.stallTimer = none ∨
      d.stallTimer = some (c.clock + cfg.limits.stallTimeout) := by
  cases heffect with
  | pass | drop => exact .inl rfl
  | reserve hmessage hqueued hloop hkept htimer =>
    rcases htimer with rfl | ⟨-, -, -, rfl⟩
    · exact .inl rfl
    · exact (startStallTimer_timer cfg c).imp_right .inr
  | startTimer => exact (startStallTimer_timer cfg c).imp_right .inr
  | send =>
    rw [sendInLoop_frame]
    exact .inl rfl
  | write | handleWrite =>
    rw [interrupt_frame]
    exact .inl rfl
  | keep => exact (keep_timer cfg _ _).imp_right .inr
  | resume hloop hinside =>
    rename_i k inside
    cases k with
    | sendInLoop rest => exact (keep_timer cfg rest _).imp_right .inr
    | handleWrite => exact (resume_handleWrite_timer cfg _).imp_right .inl
  | close hcloses => exact absurd hd hcloses.state

lemma Effect.clock (heffect : Effect cfg c l d) (hd : d.state = .connected) :
    c.clock ≤ d.clock := by
  cases heffect with
  | pass hl hqueued hclock => exact hclock
  | send => rw [sendInLoop_frame]
  | write | handleWrite => rw [interrupt_frame]
  | keep => rw [keep_frame]
  | resume => rw [resume_frame]
  | close hcloses => exact absurd hd hcloses.state
  | _ => exact le_rfl

/-- While reading is stopped the buffer is above the resume mark, if `handleWrite` is not about to
look; and the timer runs only then. -/
structure Paced (cfg : ConnectionConfig) (c : TcpConnection) : Prop where
  paused : c.reading = false →
    cfg.limits.resumeReadBytes < c.outputBuffer.readableBytes ∨ .handleWrite ∈ c.inside
  timed : ∀ deadline, c.stallTimer = some deadline → c.reading = false

lemma Paced.initial (cfg : ConnectionConfig) : Paced cfg {} := by
  refine ⟨fun h => ?_, fun deadline h => ?_⟩
  · cases h
  · cases h

lemma Paced.congr (h : Paced cfg c) (hreading : d.reading = c.reading)
    (htimer : d.stallTimer = c.stallTimer) (hbuffer : d.outputBuffer = c.outputBuffer)
    (hinside : .handleWrite ∈ c.inside → .handleWrite ∈ d.inside) : Paced cfg d := by
  refine ⟨?_, ?_⟩
  · rw [hreading, hbuffer]
    exact fun hstopped => (h.paused hstopped).imp_right hinside
  · rw [hreading, htimer]
    exact h.timed

lemma Paced.startStallTimer (h : Paced cfg c) (hreading : c.reading = false) :
    Paced cfg (startStallTimer cfg c) := by
  unfold TcpConnection.startStallTimer
  split
  · exact h
  · exact ⟨h.paused, fun _ _ => hreading⟩

lemma Paced.keep {bytes : List UInt8} (h : Paced cfg c) : Paced cfg (keep cfg bytes c) := by
  unfold TcpConnection.keep checkPause
  split
  swap
  · exact h
  have hgrown : (c.outputBuffer.append bytes).readableBytes =
      c.outputBuffer.readableBytes + bytes.length := Buffer.readableBytes_append _ _
  split
  · rename_i hfull
    have hmark := cfg.limits.resume_lt_pause
    have hstopped : Paced cfg { c with
        outputBuffer := c.outputBuffer.append bytes, writing := true, reading := false } :=
      ⟨fun _ => .inl (hmark.trans_le hfull.1), fun _ _ => rfl⟩
    exact hstopped.startStallTimer rfl
  · refine ⟨fun hreading => (h.paused hreading).imp_left fun hpaused => ?_, h.timed⟩
    show _ < (c.outputBuffer.append bytes).readableBytes
    omega

/-- The end of `handleWrite`: either reading starts again and the timer is cancelled, or the buffer
is above the mark. -/
lemma Paced.handleWrite (h : ∀ deadline, c.stallTimer = some deadline → c.reading = false) :
    Paced cfg (resume cfg .handleWrite c) := by
  have hcheck (w : Bool) : Paced cfg (checkResume cfg { c with writing := w }) := by
    unfold checkResume
    split
    · refine ⟨fun hreading => ?_, fun deadline htimer => ?_⟩
      · cases hreading
      · cases htimer
    · rename_i hnot
      exact ⟨fun hreading => .inl (Nat.lt_of_not_le fun hlow => hnot ⟨hreading, hlow⟩), h⟩
  unfold resume
  dsimp only
  split
  · exact hcheck false
  · exact hcheck c.writing

/-- **The step lemma.** -/
lemma Paced.effect (h : Paced cfg c) (hpatient : patient cfg c l = true)
    (heffect : Effect cfg c l d) (hd : d.state = .connected) : Paced cfg d := by
  have hrefused (hreading : c.reading = false) :
      Paced cfg { c with stallTimer := (TcpConnection.startStallTimer cfg c).stallTimer } := by
    have hstarted := h.startStallTimer hreading
    rwa [startStallTimer_eq cfg (d := c) rfl rfl] at hstarted
  cases heffect with
  | pass | drop => exact h.congr rfl rfl rfl id
  | reserve hmessage hqueued hloop hkept htimer =>
    rcases htimer with rfl | ⟨rfl, hchecked, hrefuses, rfl⟩
    · exact h.congr rfl rfl rfl id
    · simp only [patient, hchecked, refuses_of_wouldBlock hrefuses, Bool.not_true, Bool.false_or,
        Bool.not_eq_true'] at hpatient
      exact (hrefused hpatient).congr rfl rfl rfl id
  | startTimer hfunctors =>
    simp only [patient, hfunctors, Bool.not_eq_true'] at hpatient
    exact (hrefused hpatient).congr rfl rfl rfl id
  | send hl hloop hqueued =>
    rw [sendInLoop_frame]
    exact h.congr rfl rfl rfl id
  | write =>
    rw [interrupt_frame]
    exact h.congr rfl rfl rfl (List.mem_cons_of_mem _)
  | keep =>
    exact Paced.keep (h.congr rfl rfl rfl id)
  | handleWrite =>
    rw [interrupt_frame]
    exact ⟨fun _ => .inr List.mem_cons_self, h.timed⟩
  | resume hloop hinside =>
    rename_i k inside
    cases k with
    | sendInLoop rest =>
      refine Paced.keep (h.congr rfl rfl rfl fun hin => ?_)
      rw [hinside] at hin
      exact (List.mem_cons.1 hin).resolve_left (by simp)
    | handleWrite => exact Paced.handleWrite h.timed
  | close hcloses => exact absurd hd hcloses.state

/-- A timer that runs at the mark and ran before is the one of `y`, or has been started since; and
if `y` was at the mark, then its timer has not been cancelled yet. -/
structure Since (cfg : ConnectionConfig) (y c : TcpConnection) : Prop where
  later : y.clock ≤ c.clock
  timer : ∀ deadline, c.stallTimer = some deadline →
    (y.stallTimer = some deadline ∧ (y.Low cfg → c.Low cfg)) ∨
      y.clock + cfg.limits.stallTimeout ≤ deadline

lemma Since.effect (h : Since cfg y c) (hsound : Sound cfg c) (hpatient : patient cfg c l = true)
    (heffect : Effect cfg c l d) (hd : d.state = .connected) : Since cfg y d := by
  refine ⟨h.later.trans (heffect.clock hd), fun deadline hdeadline => ?_⟩
  rcases heffect.stallTimer hd with hsame | hnone | hstarted
  · refine (h.timer deadline (hsame.symm.trans hdeadline)).imp_left (And.imp_right
      fun hlow hy => ?_)
    exact ((hlow hy).effect hsound hpatient heffect hd).resolve_right fun hnone => by
      cases hnone.2.symm.trans hdeadline
  · cases hnone.symm.trans hdeadline
  · cases hstarted.symm.trans hdeadline
    exact .inr (Nat.add_le_add_right h.later _)

namespace Stall

/-- The state after some steps. -/
def after (acts : List Act) : TcpConnection := ((machine small).run {} acts).getD {}

/-- Three bytes that the socket does not take: reading stops, and the timer is started. -/
def full : List Act := [.callInLoop [1, 2, 3], .reserveInLoop, .enter, .write .wouldBlock]

/-- A thread is refused while two bytes wait; the timer is started, and the bytes are written. -/
def refused : List Act :=
  [.callInLoop [1, 2], .reserveInLoop, .enter, .write .wouldBlock, .call [3, 4, 5, 6], .reserve 0,
    .post 0, .run, .handleWrite (.wrote 2)]

/-- The buffer is written down to one byte, and the callback fills it again. -/
def written : List Act := full ++ [.handleWrite (.wrote 2)]

end Stall

end TcpConnection

end MuduoChat
