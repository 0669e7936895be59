import MuduoChat.Net.Stream
import MuduoChat.Net.FrameCodec

/-!
# From one end to the other

What a connection with the frame codec writes is cut by the network into any reads.  The callback of
the server at the other end takes it apart again.
-/

namespace MuduoChat

open Relation

namespace Receiver

variable {maxBodyLength : UInt32} {message bytes : List UInt8}

lemma decode_frame (h : (OutputCodec.binaryFrame maxBodyLength).frame? message = some bytes)
    (rest : List UInt8) :
    (frameDecoder maxBodyLength).decode (bytes ++ rest) = .message message rest := by
  simp only [OutputCodec.frame?] at h
  split_ifs at h with hlength
  cases h
  have hbody : (UInt32.ofNat message.length).toNat = message.length := by
    have hclip := OutputCodec.toNat_clip_le maxBodyLength
    have hsize : UInt32.size = 2 ^ 32 := rfl
    exact UInt32.toNat_ofNat_of_lt' (by omega)
  set p := StreamCodec.header (BinaryFrameCodec.frame message) ++ message ++ rest with hp
  have hframe : frameAt p = BinaryFrameCodec.frame message := StreamCodec.frameAt_header hbody rest
  have hsize : bodySize p = message.length :=
    (congrArg (fun f => f.bodyLength.toNat) hframe).trans hbody
  have hok : HeaderOk maxBodyLength p := StreamCodec.Accepted.headerOk
    ⟨rfl, rfl, rfl, rfl, rfl, rfl, hbody, hlength⟩ hframe
  have hlong : p.length = 20 + message.length + rest.length := by
    simp [hp, StreamCodec.length_header, Nat.add_assoc]
  simp only [frameDecoder, hsize, hok, not_true_eq_false, if_false]
  rw [if_neg (by omega), if_neg (by omega), hp, ← List.drop_drop, List.append_assoc,
    List.drop_left' (StreamCodec.length_header _), List.take_left, List.drop_left]

/-- The frames of some messages are decoded to the messages. -/
lemma drain_frames {messages frames : List (List UInt8)}
    (h : List.Forall₂ (fun message bytes =>
      (OutputCodec.binaryFrame maxBodyLength).frame? message = some bytes) messages frames) :
    (frameDecoder maxBodyLength).drain frames.flatten = { messages := messages } := by
  induction h with
  | nil => exact Decoder.drain_needMore rfl
  | cons hframe _ ih =>
    rw [List.flatten_cons, Decoder.drain_message (decode_frame hframe _), ih]

end Receiver

open TcpConnection Receiver

/-- **End to end.**  As long as a connection is open, its socket has not reported that the other side
is gone, and nothing has been sent into the middle of a frame, the other side hands over a beginning
of the messages for which `sendInLoop` has run, in their order, however its reads cut what has been
written, and does not close the connection.  It hands over all of them when nothing is left to be
written and everything has been read. -/
theorem messages_arrive {cfg : ConnectionConfig} {c : TcpConnection} {maxBodyLength : UInt32}
    (h : ReflTransGen (orderlyMachine cfg).Step {} c) (hopen : c.state = .connected)
    (hcodec : cfg.codec = some (.binaryFrame maxBodyLength)) {reads : List (List UInt8)}
    (hreads : reads.flatten <+: c.socket) :
    (receive (.binaryFrame maxBodyLength) reads).handled <+: c.ran ∧
      (receive (.binaryFrame maxBodyLength) reads).closed = false ∧
      (reads.flatten = c.socket → c.outputBuffer.contents = [] → c.remaining = [] →
        (receive (.binaryFrame maxBodyLength) reads).handled = c.ran) := by
  obtain ⟨frames, hframes, hstream⟩ := framed_of_reaches h hopen
  have hframe (message : List UInt8) :
      cfg.frame? message = (OutputCodec.binaryFrame maxBodyLength).frame? message := by
    rw [ConnectionConfig.frame?, hcodec]
  simp only [hframe] at hframes
  have hdrain := drain_frames hframes
  have hview := drained_receive maxBodyLength reads
  have hprefix : reads.flatten <+: frames.flatten := by
    rw [← hstream, stream, List.append_assoc]
    exact hreads.trans (List.prefix_append _ _)
  obtain ⟨hmessages, hfault⟩ := Decoder.drain_mono (D := frameDecoder maxBodyLength) hprefix
  rw [hdrain, ← hview] at hmessages hfault
  refine ⟨hmessages, Bool.eq_false_iff.2 fun hclosed => Bool.false_ne_true (hfault hclosed), ?_⟩
  intro hall hempty hnone
  have hflat : reads.flatten = frames.flatten := by
    rw [hall, ← hstream, stream, hempty, hnone, List.append_nil, List.append_nil]
  rw [hflat, hdrain] at hview
  exact congrArg Drained.messages hview

def oneFrame : TcpConnection := ((machine TwoFrames.framed).run {}
  [.callInLoop [1, 2], .reserveInLoop, .enter, .write (.wrote 22)]).getD {}

/-- A frame that is read in two pieces. -/
theorem messages_arrive_oneFrame :
    (receive (.binaryFrame 100) [oneFrame.socket.take 5, oneFrame.socket.drop 5]).handled =
      [[1, 2]] := by
  have hrun : (orderlyMachine TwoFrames.framed).run {}
      [.callInLoop [1, 2], .reserveInLoop, .enter, .write (.wrote 22)] = some oneFrame := by
    decide +kernel
  have hreads : [oneFrame.socket.take 5, oneFrame.socket.drop 5].flatten = oneFrame.socket := by
    simp
  rw [(messages_arrive (Machine.reaches_of_run hrun) (by decide +kernel) rfl
    (by rw [hreads])).2.2 hreads (by decide +kernel) (by decide +kernel)]
  decide +kernel

end MuduoChat
