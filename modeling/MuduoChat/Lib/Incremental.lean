import Mathlib

/-!
# Decoding a stream that arrives in pieces

A decoder looks at the letters that have arrived and not been used.  It asks for more, or takes a
message off the front, or finds a fault.  If more letters at the end do not change what it has
decided, it does not matter into which pieces a stream is cut: whatever the pieces are, the
messages, the letters left over and the fault are those of the whole stream.
-/

namespace MuduoChat

/-- What a decoder makes of the letters that are there. -/
inductive Decoded (α β : Type) where
  | needMore
  | message (m : β) (rest : List α)
  | fault

/-- A decoder whose decisions are final. -/
structure Decoder (α β : Type) where
  decode : List α → Decoded α β
  shrinks {s rest : List α} {m : β} : decode s = .message m rest → rest.length < s.length
  message_append {s rest : List α} {m : β} :
    decode s = .message m rest → ∀ t, decode (s ++ t) = .message m (rest ++ t)
  fault_append {s : List α} : decode s = .fault → ∀ t, decode (s ++ t) = .fault

/-- Where decoding has come to: the messages so far, the letters that are left, and whether there
has been a fault. -/
structure Drained (α β : Type) where
  messages : List β := []
  rest : List α := []
  fault : Bool := false

namespace Decoder

variable {α β : Type} (D : Decoder α β)

/-- Take messages off the front until there is none. -/
def drain (s : List α) : Drained α β :=
  match _h : D.decode s with
  | .needMore => { rest := s }
  | .fault => { rest := s, fault := true }
  | .message m rest =>
    let d := drain rest
    { d with messages := m :: d.messages }
termination_by s.length
decreasing_by exact D.shrinks _h

/-- Letters arrive behind those that are left. -/
def feed (d : Drained α β) (piece : List α) : Drained α β :=
  let e := D.drain (d.rest ++ piece)
  { messages := d.messages ++ e.messages, rest := e.rest, fault := d.fault || e.fault }

variable {D} {s rest : List α} {m : β}

lemma drain_needMore (h : D.decode s = .needMore) : D.drain s = { rest := s } := by
  rw [drain]
  split
  · rfl
  · rename_i hfault
    rw [h] at hfault
    cases hfault
  · rename_i hmessage
    rw [h] at hmessage
    cases hmessage

lemma drain_fault (h : D.decode s = .fault) : D.drain s = { rest := s, fault := true } := by
  rw [drain]
  split
  · rename_i hmore
    rw [h] at hmore
    cases hmore
  · rfl
  · rename_i hmessage
    rw [h] at hmessage
    cases hmessage

lemma drain_message (h : D.decode s = .message m rest) :
    D.drain s = { D.drain rest with messages := m :: (D.drain rest).messages } := by
  rw [drain]
  split
  · rename_i hmore
    rw [h] at hmore
    cases hmore
  · rename_i hfault
    rw [h] at hfault
    cases hfault
  · rename_i m' rest' hmessage
    rw [h] at hmessage
    cases hmessage
    rfl

/-- A fault stays at the front. -/
lemma decode_rest_of_fault (s : List α) (h : (D.drain s).fault = true) :
    D.decode (D.drain s).rest = .fault := by
  induction hn : s.length using Nat.strong_induction_on generalizing s with
  | _ n ih =>
    cases hs : D.decode s with
    | needMore =>
      rw [drain_needMore hs] at h
      cases h
    | fault => rwa [drain_fault hs]
    | message m rest =>
      rw [drain_message hs] at h ⊢
      exact ih _ (hn ▸ D.shrinks hs) rest h rfl

/-- Decoding in two steps: what was left over is decoded again with what came after it. -/
lemma drain_append (s t : List α) : D.drain (s ++ t) = D.feed (D.drain s) t := by
  induction hn : s.length using Nat.strong_induction_on generalizing s with
  | _ n ih =>
    cases hs : D.decode s with
    | needMore => simp [drain_needMore hs, feed]
    | fault => simp [drain_fault hs, drain_fault (D.fault_append hs t), feed]
    | message m rest =>
      rw [drain_message (D.message_append hs t), drain_message hs,
        ih _ (hn ▸ D.shrinks hs) rest rfl]
      simp [feed]

/-- What is decoded of the beginning of a stream is a beginning, and a fault stays. -/
lemma drain_mono {t : List α} (h : s <+: t) :
    (D.drain s).messages <+: (D.drain t).messages ∧
      ((D.drain s).fault = true → (D.drain t).fault = true) := by
  obtain ⟨more, rfl⟩ := h
  rw [drain_append, feed]
  exact ⟨List.prefix_append _ _, fun hfault => by simp [hfault]⟩

/-- **Pieces do not matter.**  What has been decoded after some pieces is what the whole of them
gives. -/
theorem foldl_feed (pieces : List (List α)) :
    pieces.foldl D.feed (D.drain []) = D.drain pieces.flatten := by
  suffices h : ∀ s, pieces.foldl D.feed (D.drain s) = D.drain (s ++ pieces.flatten) from h []
  induction pieces with
  | nil => simp
  | cons piece pieces ih =>
    intro s
    rw [List.foldl_cons, ← drain_append, ih, List.flatten_cons, List.append_assoc]

/-- After a fault no message is decoded, whatever arrives. -/
lemma messages_feed_of_fault {d : Drained α β} (h : D.decode d.rest = .fault) (piece : List α) :
    (D.feed d piece).messages = d.messages ∧ (D.feed d piece).rest = d.rest ++ piece := by
  simp [feed, drain_fault (D.fault_append h piece)]

end Decoder

end MuduoChat
