import MuduoChat.Net.Steps

/-!
# The stream of a connection

What has been written to the socket and what is left in the output buffer should be, one after the
other, the frames of the messages for which `sendInLoop` has run.  This is so until the socket
reports that the other side is gone, however much of the bytes it takes each time, but for one
case: `sendInLoop` gives room back, and thus may run the pressure callback, between the bytes that
it writes and those that it appends.  What is sent from that callback comes in the middle of the
frame.
-/

namespace MuduoChat

open Relation

namespace TcpConnection

variable {cfg : ConnectionConfig} {c d : TcpConnection} {bytes : List UInt8} {l : Act}

/-- The bytes that have gone out or will. -/
def stream (c : TcpConnection) : List UInt8 :=
  c.socket ++ c.outputBuffer.contents ++ c.remaining

/-- The socket does not report that the other side is gone. -/
def faultless (_ : TcpConnection) : Act → Bool
  | .write .fault => false
  | .handleWrite .fault => false
  | _ => true

/-- Nor is anything sent from the callback while a frame has bytes that are still to be
appended. -/
def orderly (c : TcpConnection) (l : Act) : Bool :=
  faultless c l &&
    match l, c.loop with
    | .write _, .writing _ bytes _ => decide (bytes = [] ∨ c.remaining = [])
    | _, _ => true

/-- The connection before the other side is gone. -/
def faultlessMachine (cfg : ConnectionConfig) : Machine TcpConnection Act :=
  (machine cfg).restrict faultless

def orderlyMachine (cfg : ConnectionConfig) : Machine TcpConnection Act :=
  (machine cfg).restrict orderly

/-! ### The stream is the frames -/

/-- The stream is the frames of the messages that have run. -/
def Framed (cfg : ConnectionConfig) (c : TcpConnection) : Prop :=
  ∃ frames, List.Forall₂ (fun message frame => cfg.frame? message = some frame) c.ran frames ∧
    c.stream = frames.flatten

lemma Framed.congr (h : Framed cfg c) (hstream : d.stream = c.stream) (hran : d.ran = c.ran) :
    Framed cfg d := by
  unfold Framed
  rw [hstream, hran]
  exact h

lemma Framed.concat {message : List UInt8} (h : Framed cfg c)
    (hframe : cfg.frame? message = some bytes) (hstream : d.stream = c.stream ++ bytes)
    (hran : d.ran = c.ran ++ [message]) : Framed cfg d := by
  obtain ⟨frames, hframes, hflat⟩ := h
  refine ⟨frames ++ [bytes], ?_, ?_⟩
  · rw [hran]
    exact List.rel_append hframes (.cons hframe .nil)
  · rw [hstream, List.flatten_append, List.flatten_singleton, ← hflat]

/-- What is written in order comes behind what is left of other frames. -/
lemma append_remaining (h : bytes = [] ∨ c.remaining = []) :
    bytes ++ c.remaining = c.remaining ++ bytes := by
  rcases h with rfl | hnone
  · rw [List.nil_append, List.append_nil]
  · rw [hnone, List.nil_append, List.append_nil]

lemma orderly_write {message : List UInt8} {n : ℕ} {r : WriteResult}
    (h : orderly c (.write r) = true) (hloop : c.loop = .writing message bytes n) :
    bytes ++ c.remaining = c.remaining ++ bytes := by
  unfold orderly at h
  rw [hloop, Bool.and_eq_true, decide_eq_true_eq] at h
  exact append_remaining h.2

/-- **The step lemma.** -/
lemma Framed.effect (h : Framed cfg c) (horderly : orderly c l = true)
    (heffect : Effect cfg c l d) (hsound : Sound cfg c) (hd : d.state = .connected) :
    Framed cfg d := by
  cases heffect with
  | pass | reserve | startTimer => exact h.congr rfl rfl
  | send hl hloop hqueued =>
    rw [sendInLoop_frame]
    exact h.congr rfl rfl
  | write hloop hdirect hj hback =>
    rename_i message bytes n j back
    obtain ⟨hframe, -⟩ := hsound.writing message bytes n (by rw [hloop]; rfl)
    have hnothing : c.outputBuffer.contents = [] := by
      rw [← List.length_eq_zero_iff, ← Buffer.readableBytes_eq]
      exact hdirect.2
    rw [interrupt_frame]
    refine h.concat hframe ?_ rfl
    -- some bytes go to the socket at once, the others are appended later
    show c.socket ++ bytes.take j ++ c.outputBuffer.contents ++ (bytes.drop j ++ c.remaining) =
      c.stream ++ bytes
    rw [stream, hnothing, List.append_nil, List.append_nil, List.append_assoc,
      ← List.append_assoc (bytes.take j), List.take_append_drop, orderly_write horderly hloop,
      List.append_assoc]
  | keep hloop hr =>
    rename_i message bytes n r
    obtain ⟨hframe, -⟩ := hsound.writing message bytes n (by rw [hloop]; rfl)
    refine h.concat hframe ?_ (by rw [keep_frame])
    rw [stream, keep_contents, keep_frame]
    show c.socket ++ (c.outputBuffer.contents ++ bytes) ++ c.remaining = c.stream ++ bytes
    rw [stream, ← List.append_assoc, List.append_assoc _ bytes, orderly_write horderly hloop,
      List.append_assoc _ c.remaining]
  | drop hloop hdirect => cases horderly
  | handleWrite hloop hinside hwriting hj =>
    rename_i j
    rw [interrupt_frame]
    refine h.congr ?_ rfl
    show c.socket ++ c.outputBuffer.contents.take j ++ (c.outputBuffer.retrieve j).contents ++
      ([] ++ c.remaining) = c.stream
    rw [Buffer.contents_retrieve, List.append_assoc _ (List.take _ _), List.take_append_drop,
      List.nil_append, stream]
  | resume hloop hinside =>
    rename_i k inside
    refine h.congr ?_ (by rw [resume_frame])
    rw [stream, resume_contents, resume_frame]
    show c.socket ++ (c.outputBuffer.contents ++ k.rest) ++ inside.flatMap Interrupted.rest = _
    rw [stream, remaining, hinside, List.flatMap_cons, ← List.append_assoc, List.append_assoc]
  | close hcloses => exact absurd hd hcloses.state

/-- The run lemma. -/
lemma framed_of_reaches (h : ReflTransGen (orderlyMachine cfg).Step {} c)
    (hopen : c.state = .connected) : Framed cfg c :=
  (connected_invariant (P := Framed cfg) (fun _ => rfl)
    (fun _ _ _ horderly heffect hsound hd h => h.effect horderly heffect hsound hd) (.initial cfg)
    ⟨[], .nil, rfl⟩ h hopen).2

/-- **Integrity of the output stream.**  As long as the connection is connected, the socket has not
reported that the other side is gone, and nothing has been sent into the middle of a frame, the
bytes that have been written, those in the buffer and those that an interrupted `sendInLoop` still
has to append are the frames of the messages for which `sendInLoop` has run, in that order; and
there are none of the last kind outside of the callback. -/
theorem output_stream_integrity (h : ReflTransGen (orderlyMachine cfg).Step {} c)
    (hopen : c.state = .connected) :
    ∃ frames, List.Forall₂ (fun message frame => cfg.frame? message = some frame) c.ran frames ∧
      c.socket ++ c.outputBuffer.contents ++ c.remaining = frames.flatten ∧
      (c.inside = [] → c.socket ++ c.outputBuffer.contents = frames.flatten) := by
  obtain ⟨frames, hframes, hstream⟩ := framed_of_reaches h hopen
  refine ⟨frames, hframes, hstream, fun hinside => ?_⟩
  rw [← hstream, stream, remaining, hinside, List.flatMap_nil, List.append_nil]

namespace TwoFrames

/-- Binary frames. -/
def framed : ConnectionConfig where
  codec := some (.binaryFrame 100)

/-- Two messages: the socket takes some of the first frame, the second is kept, and then some more
is taken. -/
def schedule : List Act :=
  [.callInLoop [1, 2], .reserveInLoop, .enter, .write (.wrote 3), .callInLoop [3], .reserveInLoop,
    .enter, .write .wouldBlock, .handleWrite (.wrote 4)]

def after : TcpConnection := ((machine framed).run {} schedule).getD {}

end TwoFrames

open TwoFrames in
theorem output_stream_integrity_schedule :
    after.ran = [[1, 2], [3]] ∧ ∃ frames,
      List.Forall₂ (fun message frame => framed.frame? message = some frame) after.ran frames ∧
        after.socket ++ after.outputBuffer.contents = frames.flatten := by
  have hrun : (orderlyMachine framed).run {} schedule = some after := by decide +kernel
  obtain ⟨frames, hframes, -, hstream⟩ :=
    output_stream_integrity (Machine.reaches_of_run hrun) (by decide +kernel)
  exact ⟨by decide +kernel, frames, hframes, hstream (by decide +kernel)⟩

/-- The socket takes three bytes of "abcd", and the callback sends "XY". -/
def spliced : List Act :=
  [.callInLoop [97, 98, 99, 100], .reserveInLoop, .enter, .write (.wrote 3), .callInLoop [88, 89],
    .reserveInLoop, .enter, .write (.wrote 2), .resume, .resume]

/-- The stream is then "abcXYd", which is not one message after the other in any order. -/
theorem frame_spliced :
    ∃ y, (faultlessMachine small).run {} spliced = some y ∧ y.state = .connected ∧
      y.inside = [] ∧ y.ran = [[97, 98, 99, 100], [88, 89]] ∧
      (∀ message, small.frame? message = some message) ∧
      y.socket ++ y.outputBuffer.contents = [97, 98, 99, 88, 89, 100] ∧
      y.socket ++ y.outputBuffer.contents ≠ y.ran.flatten ∧
      y.socket ++ y.outputBuffer.contents ≠ y.ran.reverse.flatten := by
  refine ⟨((machine small).run {} spliced).getD {}, by decide +kernel, by decide +kernel,
    by decide +kernel, by decide +kernel, fun _ => rfl, by decide +kernel, by decide +kernel,
    by decide +kernel⟩

end TcpConnection

end MuduoChat
