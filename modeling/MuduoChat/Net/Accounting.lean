import MuduoChat.Net.Steps

/-!
# The counter of outstanding bytes

The counter should be the room of the sends that have been accepted and not yet run, and the
bytes in the output buffer.  It is, as long as no step loses or returns room twice: a frame that
is dropped because the other side is gone, or an empty message behind other output, keeps its
room for ever; a connection that is closed while sends are under way has its counter set to zero
before they give their room back; and a counter of 2^64 - 1 is taken for a refusal.
-/

namespace MuduoChat

open Relation TcpConnection

/-! ### Room -/

/-- The room that a call of `send` holds. -/
def Caller.room : Caller → ℕ
  | .reserved _ frameSize => frameSize
  | _ => 0

def LoopFunctor.room : LoopFunctor → ℕ
  | .sendInLoop _ frameSize => frameSize
  | _ => 0

def LoopFunctor.isSend : LoopFunctor → Bool
  | .sendInLoop .. => true
  | _ => false

def LoopPhase.room : LoopPhase → ℕ
  | .reserved _ frameSize => frameSize
  | .writing _ _ frameSize => frameSize
  | _ => 0

/-- The room of what the loop thread is writing. -/
def LoopPhase.held (p : LoopPhase) : ℕ := (p.writes?.map fun x => x.2.2).getD 0

namespace TcpConnection

/-- The frame sizes of the accepted sends whose `sendInLoop` has not run yet, and what one that the
callback has interrupted has still to append. -/
def unsent (c : TcpConnection) : ℕ :=
  (c.callers.map Caller.room).sum + (c.pendingFunctors.map LoopFunctor.room).sum + c.loop.room +
    c.remaining.length

/-- No `send` is between its look at the state of the connection and the end of its
`sendInLoop`. -/
def quiet (c : TcpConnection) : Bool :=
  c.callers.all (fun x => x = .refused) && c.pendingFunctors.all (fun f => !f.isSend) &&
    decide (c.loop = .idle) && c.inside.all (fun k => k = .handleWrite)

/-- The same as a structure. -/
structure Quiet (c : TcpConnection) : Prop where
  callers : ∀ x ∈ c.callers, x = .refused
  functors : ∀ f ∈ c.pendingFunctors, f.isSend = false
  loop : c.loop = .idle
  inside : ∀ k ∈ c.inside, k = .handleWrite

lemma quiet_iff {c : TcpConnection} : c.quiet = true ↔ c.Quiet := by
  simp only [quiet, Bool.and_eq_true, List.all_eq_true, decide_eq_true_eq, Bool.not_eq_true']
  exact ⟨fun h => ⟨h.1.1.1, h.1.1.2, h.1.2, h.2⟩,
    fun h => ⟨⟨⟨h.callers, h.functors⟩, h.loop⟩, h.inside⟩⟩

variable {cfg : ConnectionConfig} {c d : TcpConnection} {message bytes : List UInt8} {n k : ℕ}
  {l : Act}

/-- The room of the accepted sends whose `sendInLoop` has not begun. -/
def waiting (c : TcpConnection) : ℕ := (c.queued.map Prod.snd).sum

lemma sum_filterMap {α : Type} {send : α → Option (List UInt8 × ℕ)} {room : α → ℕ}
    (h : ∀ x, room x = ((send x).map Prod.snd).getD 0) (xs : List α) :
    ((xs.filterMap send).map Prod.snd).sum = (xs.map room).sum := by
  induction xs with
  | nil => rfl
  | cons x xs ih => cases hx : send x <;> simp [hx, h, ih]

lemma unsent_eq (c : TcpConnection) :
    c.unsent = c.waiting + c.loop.held + c.remaining.length := by
  have hcallers := sum_filterMap (fun x : Caller => by cases x <;> rfl :
    ∀ x, x.room = (x.send?.map Prod.snd).getD 0) c.callers
  have hfunctors := sum_filterMap (fun f : LoopFunctor => by cases f <;> rfl :
    ∀ f, f.room = (f.send?.map Prod.snd).getD 0) c.pendingFunctors
  have hloop : c.loop.room = (c.loop.send?.toList.map Prod.snd).sum + c.loop.held := by
    cases c.loop <;> simp [LoopPhase.room, LoopPhase.send?, LoopPhase.held, LoopPhase.writes?]
  simp only [unsent, waiting, queued, sends, Multiset.map_add, Multiset.sum_add, Multiset.map_coe,
    Multiset.sum_coe, hcallers, hfunctors, hloop]
  omega

lemma sub64_eq (hn : n ≤ k) (hk : k ≤ sizeMax) : sub64 k n = k - n := by
  unfold sub64
  unfold sizeMax at hk
  rw [Nat.mod_eq_of_lt (show n < 2 ^ 64 by omega), show k + 2 ^ 64 - n = (k - n) + 2 ^ 64 by omega,
    Nat.add_mod_right, Nat.mod_eq_of_lt (by omega)]

/-! ### Steps that keep the counter right -/

/-- The step loses no room and gives none back twice.  The ends of a connection that are not
forced are no part of the histories that are considered. -/
def tight (cfg : ConnectionConfig) (c : TcpConnection) : Act → Bool
  | .reserve k =>
    match c.callers[k]? with
    | some (.checked message) =>
      decide (c.outstandingBytes + cfg.frameSize message ≠ sizeMax)
    | _ => true
  | .reserveInLoop =>
    match c.loop with
    | .checked message => decide (c.outstandingBytes + cfg.frameSize message ≠ sizeMax)
    | _ => true
  | .write r =>
    match c.loop with
    | .writing _ bytes _ =>
      if bytes = [] then decide (c.direct ∧ r = .wrote 0)
      else decide (c.direct → r ≠ .fault)
    | _ => true
  | .run =>
    match c.pendingFunctors with
    | .forceCloseInLoop :: _ => c.quiet
    | _ => true
  | .forceCloseInLoop => c.quiet
  | .fireStall => c.quiet
  | .handleClose => false
  | .connectDestroyed => false
  | _ => true

/-- The connection as long as its counter is kept right. -/
def tightMachine (cfg : ConnectionConfig) : Machine TcpConnection Act :=
  (machine cfg).restrict (tight cfg)

/-- The room of a reservation that loses none does not bring the counter to the greatest
number. -/
lemma ne_sizeMax_of_tight (hmessage : c.reserving l = some message)
    (htight : tight cfg c l = true) : c.outstandingBytes + cfg.frameSize message ≠ sizeMax := by
  cases l with
  | reserve k =>
    simp only [reserving] at hmessage
    split at hmessage
    · rename_i m hcaller
      cases hmessage
      simpa only [tight, hcaller, decide_eq_true_eq] using htight
    · cases hmessage
  | reserveInLoop =>
    simp only [reserving] at hmessage
    split at hmessage
    · rename_i m hloop
      cases hmessage
      simpa only [tight, hloop, decide_eq_true_eq] using htight
    · cases hmessage
  | _ => cases hmessage

/-! ### A connection that is open -/

structure Balanced (c : TcpConnection) : Prop where
  small : c.outstandingBytes ≤ sizeMax
  counter : c.outstandingBytes =
    c.waiting + c.loop.held + c.remaining.length + c.outputBuffer.readableBytes

lemma Balanced.congr (h : Balanced c) (hcounter : d.outstandingBytes = c.outstandingBytes)
    (hqueued : d.queued = c.queued) (hloop : d.loop.writes? = c.loop.writes?)
    (hbuffer : d.outputBuffer = c.outputBuffer) (hinside : d.inside = c.inside) : Balanced d := by
  refine ⟨hcounter ▸ h.small, ?_⟩
  rw [hcounter, waiting, hqueued, LoopPhase.held, hloop, hbuffer, remaining, hinside]
  exact h.counter

/-- What is appended is no longer to be appended. -/
lemma balanced_append (hsmall : c.outstandingBytes ≤ sizeMax)
    (hcounter : c.outstandingBytes = (c.queued.map Prod.snd).sum + c.loop.held +
      c.remaining.length + (c.outputBuffer.readableBytes + bytes.length))
    (hd : d = { c with
      outputBuffer := d.outputBuffer
      writing := d.writing
      reading := d.reading
      stallTimer := d.stallTimer })
    (hbuffer : d.outputBuffer.contents = c.outputBuffer.contents ++ bytes) : Balanced d := by
  have hreadable : d.outputBuffer.readableBytes = c.outputBuffer.readableBytes + bytes.length := by
    rw [Buffer.readableBytes_eq, hbuffer, List.length_append, ← Buffer.readableBytes_eq]
  rw [hd]
  refine ⟨hsmall, ?_⟩
  show c.outstandingBytes =
    (c.queued.map Prod.snd).sum + c.loop.held + c.remaining.length + d.outputBuffer.readableBytes
  rw [hreadable]
  exact hcounter

/-- What holds where `sendInLoop` writes a frame and loses no room. -/
lemma Balanced.writing (h : Balanced c) (hsound : Sound cfg c) {r : WriteResult}
    (htight : tight cfg c (.write r) = true) (hloop : c.loop = .writing message bytes n) :
    c.outstandingBytes = ((sends c.callers c.pendingFunctors .idle).map Prod.snd).sum + n +
        c.remaining.length + c.outputBuffer.readableBytes ∧
      n = max 1 bytes.length ∧
      if bytes = [] then c.direct ∧ r = .wrote 0 else c.direct → r ≠ .fault := by
  refine ⟨?_, (hsound.writing message bytes n (by rw [hloop]; rfl)).2, ?_⟩
  · have hcounter := h.counter
    rw [waiting, queued, hloop] at hcounter
    exact hcounter
  · simp only [tight, hloop] at htight
    split at htight
    · rename_i hempty
      rw [if_pos hempty]
      exact of_decide_eq_true htight
    · rename_i hempty
      rw [if_neg hempty]
      exact of_decide_eq_true htight

/-- **The step lemma.** -/
lemma Balanced.effect (h : Balanced c) (hsound : Sound cfg c) (htight : tight cfg c l = true)
    (heffect : Effect cfg c l d) (hd : d.state = .connected) : Balanced d := by
  have hc := heffect.connected hd
  cases heffect with
  | pass hl hqueued hclock hloop => exact h.congr rfl hqueued hloop rfl rfl
  | reserve hmessage hqueued hloop hkept htimer =>
    rename_i message callers loop timer
    rcases reserve_cases cfg message c with heq | ⟨-, -, heq⟩ | ⟨-, hsum, -⟩ | ⟨-, hle, heq⟩
    · rw [heq] at hqueued ⊢
      exact h.congr rfl (hqueued.trans (zero_add _)) hloop rfl rfl
    · rw [heq] at hqueued ⊢
      exact h.congr rfl (hqueued.trans (zero_add _)) hloop rfl rfl
    · exact absurd hsum (ne_sizeMax_of_tight hmessage htight)
    · rw [heq] at hqueued ⊢
      refine ⟨hle.trans cfg.limits.hard_le, ?_⟩
      show c.outstandingBytes + cfg.frameSize message =
        ((sends callers c.pendingFunctors loop).map Prod.snd).sum + loop.held +
          c.remaining.length + c.outputBuffer.readableBytes
      rw [hqueued, admitted, Multiset.map_add, Multiset.sum_add, Multiset.map_singleton,
        Multiset.sum_singleton, LoopPhase.held, hloop, ← LoopPhase.held, ← waiting, h.counter]
      omega
  | startTimer hfunctors =>
    refine h.congr rfl ?_ rfl rfl rfl
    rw [queued, queued, hfunctors, (sends_functor rfl _ _ _).2]
  | send hl hloop hqueued =>
    rename_i message n functors
    obtain ⟨bytes, hframe, -⟩ := hsound.queued (message, n) (hqueued ▸ Multiset.mem_cons_self _ _)
    rw [sendInLoop_eq (by simp [hc]) hframe]
    refine ⟨h.small, ?_⟩
    have hcounter := h.counter
    rw [waiting, hqueued, Multiset.map_cons, Multiset.sum_cons, LoopPhase.held, hloop] at hcounter
    show c.outstandingBytes = ((sends c.callers functors .idle).map Prod.snd).sum + n +
      c.remaining.length + c.outputBuffer.readableBytes
    simp only [Option.map_none, Option.getD_none] at hcounter
    omega
  | write hloop hdirect hj hback =>
    rename_i message bytes n j back
    obtain ⟨hcounter, hn, htight⟩ := h.writing hsound htight hloop
    rw [interrupt_frame]
    -- what is given back and what is left are the room of the frame
    have hsum : back + (bytes.length - j) = n := by
      split at hback
      · omega
      · omega
    refine ⟨?_, ?_⟩
    · show sub64 c.outstandingBytes back ≤ sizeMax
      rw [sub64_eq (by omega) h.small]
      exact (Nat.sub_le _ _).trans h.small
    · show sub64 c.outstandingBytes back =
        ((sends c.callers c.pendingFunctors .idle).map Prod.snd).sum + 0 +
          (bytes.drop j ++ c.remaining).length + c.outputBuffer.readableBytes
      rw [sub64_eq (by omega) h.small, List.length_append, List.length_drop]
      omega
  | keep hloop hr =>
    rename_i message bytes n r
    obtain ⟨hcounter, hn, htight⟩ := h.writing hsound htight hloop
    have hempty : bytes ≠ [] := by
      intro hempty
      rw [if_pos hempty] at htight
      rcases hr htight.1 with hr | hr
      · cases hr.symm.trans htight.2
      · cases hr.symm.trans htight.2
    have hpos : 0 < bytes.length := List.length_pos_of_ne_nil hempty
    refine balanced_append (c := { c with loop := .idle, ran := c.ran ++ [message] }) h.small ?_
      (keep_frame cfg bytes _) (keep_contents cfg bytes _)
    show c.outstandingBytes = ((sends c.callers c.pendingFunctors .idle).map Prod.snd).sum + 0 +
      c.remaining.length + (c.outputBuffer.readableBytes + bytes.length)
    omega
  | drop hloop hdirect =>
    obtain ⟨-, -, htight⟩ := h.writing hsound htight hloop
    split at htight
    · cases htight.2
    · exact absurd rfl (htight hdirect)
  | handleWrite hloop hinside hwriting hj =>
    rename_i j
    have hcounter := h.counter
    have hsub := sub64_eq (show j ≤ c.outstandingBytes by omega) h.small
    rw [interrupt_frame]
    refine ⟨?_, ?_⟩
    · show sub64 c.outstandingBytes j ≤ sizeMax
      rw [hsub]
      exact (Nat.sub_le _ _).trans h.small
    · show sub64 c.outstandingBytes j =
        ((sends c.callers c.pendingFunctors c.loop).map Prod.snd).sum + c.loop.held +
          ([] ++ c.remaining).length + (c.outputBuffer.retrieve j).readableBytes
      rw [hsub, Buffer.readableBytes_retrieve, List.nil_append, ← queued, ← waiting]
      omega
  | resume hloop hinside =>
    rename_i k inside
    have hcounter := h.counter
    rw [remaining, hinside, List.flatMap_cons, List.length_append] at hcounter
    refine balanced_append (c := { c with inside := inside }) h.small ?_
      (resume_frame cfg k _) (resume_contents cfg k _)
    show c.outstandingBytes = c.waiting + c.loop.held +
      (inside.flatMap Interrupted.rest).length + (c.outputBuffer.readableBytes + k.rest.length)
    omega
  | close hcloses => exact absurd hd hcloses.state

/-! ### A connection that is closed -/

/-- The connection is closed, the counter is zero, and nothing can change it. -/
structure Shut (c : TcpConnection) : Prop where
  state : c.state = .disconnected
  zero : c.outstandingBytes = 0
  writing : c.writing = false
  quiet : c.Quiet

lemma Shut.congr (h : Shut c) (hstate : d.state = c.state)
    (hzero : d.outstandingBytes = c.outstandingBytes) (hwriting : d.writing = c.writing)
    (hcallers : ∀ x ∈ d.callers, x ∈ c.callers)
    (hfunctors : ∀ f ∈ d.pendingFunctors, f ∈ c.pendingFunctors ∨ f.isSend = false)
    (hloop : d.loop = c.loop) (hinside : d.inside = c.inside) : Shut d := by
  refine ⟨hstate.trans h.state, hzero.trans h.zero, hwriting.trans h.writing,
    fun x hx => h.quiet.callers x (hcallers x hx), fun f hf => ?_, hloop.trans h.quiet.loop,
    hinside ▸ h.quiet.inside⟩
  rcases hfunctors f hf with hf | hf
  · exact h.quiet.functors f hf
  · exact hf

lemma shut_forceCloseInLoop (hc : c.state = .connected) (hquiet : c.Quiet) :
    Shut c.forceCloseInLoop := by
  unfold forceCloseInLoop
  dsimp only
  rw [if_pos (show c.cancelStallTimer.state = .connected ∨ _ from .inl hc)]
  exact ⟨rfl, rfl, rfl, hquiet.callers, hquiet.functors, hquiet.loop, hquiet.inside⟩

lemma Shut.forceCloseInLoop (h : Shut c) : Shut c.forceCloseInLoop := by
  unfold TcpConnection.forceCloseInLoop
  dsimp only
  rw [if_neg (by simp [cancelStallTimer, h.state])]
  exact h.congr rfl rfl rfl (fun _ hx => hx) (fun _ hf => .inl hf) rfl rfl

/-- **The step lemma.** -/
lemma Shut.next (h : Shut c) (hnext : c.next cfg l = some d) : Shut d := by
  have hloop := h.quiet.loop
  cases l with
  | call message =>
    obtain rfl : c = d := by simpa [next, h.state] using hnext
    exact h
  | reserve k =>
    simp only [next] at hnext
    split at hnext
    · rename_i message hcaller
      cases h.quiet.callers _ (List.mem_of_getElem? hcaller)
    · cases hnext
  | post k =>
    simp only [next] at hnext
    split at hnext
    · rename_i message n hcaller
      cases h.quiet.callers _ (List.mem_of_getElem? hcaller)
    · cases hnext
      refine h.congr rfl rfl rfl (fun x hx => ?_) (fun f hf => ?_) rfl rfl
      · simp only [replaceCaller, List.append_nil] at hx
        exact (List.mem_append.1 hx).elim List.mem_of_mem_take List.mem_of_mem_drop
      · exact (List.mem_append.1 hf).imp_right fun hf => by rw [List.mem_singleton.1 hf]; rfl
    · cases hnext
  | callInLoop message =>
    obtain rfl : c = d := by simpa [next, hloop, h.state] using hnext
    exact h
  | reserveInLoop | enter | write r => simp [next, hloop] at hnext
  | run =>
    have hrest {f : LoopFunctor} {rest : List LoopFunctor}
        (hfunctors : c.pendingFunctors = f :: rest) : Shut { c with pendingFunctors := rest } :=
      h.congr rfl rfl rfl (fun _ hx => hx)
        (fun _ hf => .inl (hfunctors ▸ List.mem_cons_of_mem _ hf)) rfl rfl
    simp only [next] at hnext
    split at hnext
    · rename_i message n rest _ _ hfunctors
      cases h.quiet.functors (.sendInLoop message n) (by simp [hfunctors])
    · rename_i rest _ _ hfunctors
      cases hnext
      rw [startStallTimer_eq cfg (d := { c with pendingFunctors := rest }) (c := c) rfl rfl]
      exact (hrest hfunctors).congr rfl rfl rfl (fun _ hx => hx) (fun _ hf => .inl hf) rfl rfl
    · rename_i rest _ _ hfunctors
      cases hnext
      exact (hrest hfunctors).forceCloseInLoop
    · cases hnext
  | resume =>
    simp only [next] at hnext
    split at hnext
    · rename_i k inside _ hinside
      cases hnext
      have hrest := h.quiet.inside
      rw [hinside] at hrest
      obtain rfl := hrest k List.mem_cons_self
      have hwriting : (resume cfg .handleWrite { c with inside := inside }).writing = false :=
        resume_handleWrite_writing h.writing
      rw [resume_frame]
      exact ⟨h.state, h.zero, hwriting, h.quiet.callers, h.quiet.functors, hloop,
        fun k hk => hrest k (List.mem_cons_of_mem _ hk)⟩
    · cases hnext
  | handleWrite r =>
    simp only [next] at hnext
    split at hnext
    · obtain rfl : c = d := by simpa [handleWrite, h.writing] using hnext
      exact h
    · cases hnext
  | forceClose =>
    cases hnext
    refine h.congr rfl rfl rfl (fun _ hx => hx) (fun f hf => ?_) rfl rfl
    exact (List.mem_append.1 hf).imp_right fun hf => by rw [List.mem_singleton.1 hf]; rfl
  | forceCloseInLoop =>
    obtain rfl : c.forceCloseInLoop = d := by simpa [next, hloop] using hnext
    exact h.forceCloseInLoop
  | handleClose =>
    simp only [next] at hnext
    split at hnext
    swap
    · cases hnext
    cases hnext
    exact ⟨rfl, h.zero, rfl, h.quiet.callers, h.quiet.functors, h.quiet.loop,
      h.quiet.inside⟩
  | connectDestroyed =>
    simp only [next] at hnext
    split at hnext
    swap
    · cases hnext
    cases hnext
    unfold connectDestroyed
    rw [if_neg (by simp [h.state])]
    exact ⟨h.state, rfl, h.writing, h.quiet.callers, h.quiet.functors, h.quiet.loop,
      h.quiet.inside⟩
  | tick ms =>
    cases hnext
    exact h.congr rfl rfl rfl (fun _ hx => hx) (fun _ hf => .inl hf) rfl rfl
  | fireStall =>
    simp only [next] at hnext
    split at hnext
    · split at hnext
      · cases hnext
        exact h.forceCloseInLoop
      · cases hnext
    · cases hnext

/-! ### Every run -/

lemma Closes.shut (hcloses : Closes c l d) (htight : tight cfg c l = true)
    (hc : c.state = .connected) : Shut d := by
  cases hcloses with
  | run hfunctors =>
    simp only [tight, hfunctors] at htight
    have hquiet := quiet_iff.1 htight
    refine shut_forceCloseInLoop hc ⟨hquiet.callers, fun f hf => hquiet.functors f ?_,
      hquiet.loop, hquiet.inside⟩
    rw [hfunctors]
    exact List.mem_cons_of_mem _ hf
  | force | stall => exact shut_forceCloseInLoop hc (quiet_iff.1 htight)
  | handle | destroy => cases htight

lemma balanced_or_shut (h : ReflTransGen (tightMachine cfg).Step {} c) :
    (c.state = .connected ∧ Sound cfg c ∧ Balanced c) ∨ Shut c := by
  refine Machine.invariant
    (I := fun c => (c.state = .connected ∧ Sound cfg c ∧ Balanced c) ∨ Shut c)
    (fun s l t hs hnext => ?_) (.inl ⟨rfl, .initial cfg, Nat.zero_le _, rfl⟩) h
  obtain ⟨htight, hnext⟩ := Machine.restrict_next.1 hnext
  have hopen {c d : TcpConnection} {l : Act} (htight : tight cfg c l = true)
      (heffect : Effect cfg c l d) (hc : c.state = .connected ∧ Sound cfg c ∧ Balanced c) :
      (d.state = .connected ∧ Sound cfg d ∧ Balanced d) ∨ Shut d := by
    obtain ⟨hopen, hsound, hbalanced⟩ := hc
    rcases heffect.state with hsame | hcloses
    · have hd := hsame.trans hopen
      exact .inl ⟨hd, hsound.effect heffect hd, hbalanced.effect hsound htight heffect hd⟩
    · exact .inr (hcloses.shut htight hopen)
  rcases hs with hs | hshut
  swap
  · exact .inr (hshut.next hnext)
  rcases does_of_next hnext with heffect | ⟨-, x, hfirst, hrest⟩
  · exact hopen htight heffect hs
  · rcases hopen htight hfirst hs with hx | hshut
    · exact hopen rfl (effect_resume hrest) hx
    · exact .inr (hshut.next hrest)

/-- **Exact accounting of unsent bytes.**  In every state that steps without a loss of room lead
to, the counter of a connection that is connected is the room of the sends that have not run yet
and the bytes in the output buffer, and that of one that is disconnected is zero. -/
theorem exact_accounting (h : ReflTransGen (tightMachine cfg).Step {} c) :
    (c.state = .connected →
      c.outstandingBytes = c.unsent + c.outputBuffer.readableBytes) ∧
    (c.state = .disconnected → c.outstandingBytes = 0) := by
  rcases balanced_or_shut h with ⟨hopen, -, hbalanced⟩ | hshut
  · refine ⟨fun _ => ?_, fun hclosed => ?_⟩
    · rw [unsent_eq]
      exact hbalanced.counter
    · rw [hopen] at hclosed
      cases hclosed
  · refine ⟨fun hopen => ?_, fun _ => hshut.zero⟩
    rw [hshut.state] at hopen
    cases hopen

namespace Accounting

/-- The state after some steps. -/
def after (acts : List Act) : TcpConnection := ((machine {}).run {} acts).getD {}

/-- A message of two bytes of which the socket takes one. -/
def partialWrite : List Act := [.call [1, 2], .reserve 0, .post 0, .run, .write (.wrote 1)]

/-- A frame for which the other side is gone. -/
def dropped : List Act := [.call [1, 2], .reserve 0, .post 0, .run, .write .fault]

/-- An empty message behind other output, which is then written. -/
def emptyBehind : List Act :=
  [.callInLoop [1, 2], .reserveInLoop, .enter, .write (.wrote 1), .callInLoop [], .reserveInLoop,
    .enter, .write .wouldBlock, .handleWrite (.wrote 1)]

/-- A connection that is closed while a message is in the queue. -/
def closedBefore : List Act := [.call [1, 2], .reserve 0, .post 0, .forceCloseInLoop, .run]

end Accounting

open Accounting in
theorem exact_accounting_partialWrite :
    (after partialWrite).outputBuffer.contents = [2] ∧ (after partialWrite).outstandingBytes =
      (after partialWrite).unsent + (after partialWrite).outputBuffer.readableBytes := by
  have hrun : (tightMachine {}).run {} partialWrite = some (after partialWrite) := by
    decide +kernel
  exact ⟨by decide +kernel,
    (exact_accounting (Machine.reaches_of_run hrun)).1 (by decide +kernel)⟩

open Accounting in
/-- Three ways to a wrong counter.  A frame for which the other side is gone keeps its room; so
does an empty message behind other output; and a send that is under way when the connection is
closed takes its room from a counter of zero. -/
theorem wrong_counter :
    ((machine {}).run {} dropped = some (after dropped) ∧
      (after dropped).state = .connected ∧ (after dropped).outstandingBytes = 2 ∧
      (after dropped).unsent + (after dropped).outputBuffer.readableBytes = 0) ∧
    ((machine {}).run {} emptyBehind = some (after emptyBehind) ∧
      (after emptyBehind).state = .connected ∧ (after emptyBehind).outstandingBytes = 1 ∧
      (after emptyBehind).unsent + (after emptyBehind).outputBuffer.readableBytes = 0) ∧
    (machine {}).run {} closedBefore = some (after closedBefore) ∧
      (after closedBefore).state = .disconnected ∧
      (after closedBefore).outstandingBytes = 2 ^ 64 - 2 := by
  decide +kernel

end TcpConnection

end MuduoChat
