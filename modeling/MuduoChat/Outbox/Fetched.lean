import MuduoChat.Outbox.Contract

/-!
# What a consumer knows of the records it has fetched

The records of an answer form a run in each partition.  Once the records before it in the answer
have been disposed of, so have all records before it in its partition (`Fetched.reached`).  What
is to be done with a record is decided by what the consumer recalls, and each decision is
justified by that.
-/

namespace MuduoChat

/-! ### Runs -/

/-- In a run, what stands at or behind the offset and before a record of the run, is in the run
before that record. -/
lemma Run.mem_of_lt {log rs1 rs2 : List FetchedRecord} {x y : FetchedRecord} {position : ℤ}
    (hsorted : log.Pairwise fun r r' => r.offset < r'.offset)
    (h : Run log position (rs1 ++ x :: rs2)) (hy : y ∈ log) (hpos : position ≤ y.offset)
    (hlt : y.offset < x.offset) : y ∈ rs1 := by
  obtain ⟨⟨pre, post, rfl⟩, hhead⟩ := h
  obtain ⟨first, rest, hfirst⟩ : ∃ first rest, rs1 ++ x :: rs2 = first :: rest :=
    List.exists_cons_of_ne_nil (by simp)
  have hle : first.offset ≤ y.offset := hhead first (by simp [hfirst]) y hy hpos
  obtain ⟨hleft, -, hpost⟩ := List.pairwise_append.1 hsorted
  obtain ⟨-, hrun, hpre⟩ := List.pairwise_append.1 hleft
  have hbehind := (List.pairwise_cons.1 (List.pairwise_append.1 hrun).2.1).1
  rcases List.mem_append.1 hy with hy | hy
  · rcases List.mem_append.1 hy with hy | hy
    · -- what stands before the run is smaller than its first record
      have := hpre y hy first (by simp [hfirst])
      omega
    · rcases List.mem_append.1 hy with hy | hy
      · exact hy
      · rcases List.mem_cons.1 hy with rfl | hy
        · omega
        · have := hbehind y hy
          omega
  · have := hpost x (by simp) y hy
    omega

lemma Run.mono {log rs new : List FetchedRecord} {position : ℤ} (h : Run log position rs)
    (hnew : ∀ r ∈ rs, ∀ x ∈ new, r.offset ≤ x.offset) : Run (log ++ new) position rs := by
  refine ⟨h.1.trans (List.prefix_append _ _).isInfix, fun r hr x hx hpos => ?_⟩
  rcases List.mem_append.1 hx with hx | hx
  · exact h.2 r hr x hx hpos
  · exact hnew r (List.mem_of_mem_head? hr) x hx

namespace Stream

variable {ι : Type} {w w' : Stream ι} {K : KafkaEventConsumer} {es es' : List StreamEntry}
  {raw : FetchedRecord} {raws taken rest : List FetchedRecord}

/-! ### What has been fetched -/

/-- The records of an answer: those of each partition form a run from an offset up to which the
partition is covered. -/
def Fetched (K : KafkaEventConsumer) (w : Stream ι) (es : List StreamEntry)
    (raws : List FetchedRecord) : Prop :=
  ∀ raw ∈ raws, ∃ position, CoversTo K w es raw.partition position ∧
    Run ((w.log raw.partition).map (LogRecord.fetched raw.partition)) position
      (raws.filter fun x => x.partition = raw.partition)

lemma Ordered.sorted_fetched (h : Ordered w) (p : ℤ) :
    ((w.log p).map (LogRecord.fetched p)).Pairwise fun r r' => r.offset < r'.offset := by
  rw [List.pairwise_map]
  exact (h.sorted p).imp fun hlt => by simpa [LogRecord.fetched] using hlt

lemma Ordered.eq_of_offset (h : Ordered w) {p : ℤ} {r r' : LogRecord} (hr : r ∈ w.log p)
    (hr' : r' ∈ w.log p) (heq : r.offset = r'.offset) : r = r' := by
  obtain ⟨a, ha, rfl⟩ := List.getElem_of_mem hr
  obtain ⟨b, hb, rfl⟩ := List.getElem_of_mem hr'
  have hsorted := List.pairwise_iff_getElem.1 (h.sorted p)
  rcases lt_trichotomy a b with hab | rfl | hab
  · exact absurd heq (hsorted a b ha hb hab).ne
  · rfl
  · exact absurd heq.symm (hsorted b a hb ha hab).ne

lemma inLog_iff : w.InLog raw ↔
    raw ∈ (w.log raw.partition).map (LogRecord.fetched raw.partition) := by
  constructor
  · rintro ⟨r, hr, heq⟩
    exact List.mem_map.2 ⟨r, hr, heq.symm⟩
  · intro h
    obtain ⟨r, hr, heq⟩ := List.mem_map.1 h
    exact ⟨r, hr, heq.symm⟩

lemma InLog.offset_lt (h : w.InLog raw) (hw : Ordered w) : raw.offset < w.logEnd raw.partition := by
  obtain ⟨r, hr, heq⟩ := h
  have hlt := hw.bounded _ r hr
  have hoff : raw.offset = r.offset := congrArg FetchedRecord.offset heq
  omega

lemma Fetched.inLog (h : Fetched K w es raws) (hraw : raw ∈ raws) : w.InLog raw := by
  obtain ⟨position, -, hrun⟩ := h raw hraw
  exact inLog_iff.2 (hrun.1.subset (by simpa using hraw))

lemma Fetched.mono (h : Fetched K w es raws) (hord : Ordered w) (hw : Appended w w')
    (hes : es <:+ es') : Fetched K w' es' raws := by
  intro raw hraw
  obtain ⟨position, hcov, hrun⟩ := h raw hraw
  obtain ⟨-, new, hlog, hnew⟩ := hw raw.partition
  refine ⟨position, hcov.mono hw hes, ?_⟩
  rw [hlog, List.map_append]
  refine hrun.mono fun r hr x hx => ?_
  -- a record that has been fetched was there, so it lies before the old end
  obtain ⟨hr, hp⟩ := List.mem_filter.1 hr
  have hp : r.partition = raw.partition := by simpa using hp
  have hlt := (h.inLog hr).offset_lt hord
  obtain ⟨x', hx', rfl⟩ := List.mem_map.1 hx
  have hle := hnew x' hx'
  rw [hp] at hlt
  simp only [LogRecord.fetched]
  omega

lemma Fetched.covers (h : Fetched K w es (taken ++ raw :: rest)) (hord : Ordered w)
    (htaken : ∀ x ∈ taken, ∃ e ∈ es, K.Disposes x e) :
    CoversTo K w es raw.partition raw.offset := by
  have hlog : w.InLog raw := h.inLog (by simp)
  have hlt := hlog.offset_lt hord
  obtain ⟨position, ⟨f, hf, hcov⟩, hrun⟩ := h raw (by simp)
  refine ⟨f, hf, fun r hr hfr hrx => ?_, .inl (by omega)⟩
  by_cases hpos : (r.offset : ℤ) < position
  · exact hcov.disposed r hr hfr hpos
  · rw [List.filter_append, List.filter_cons_of_pos (by simp)] at hrun
    have hmem : r.fetched raw.partition ∈
        (w.log raw.partition).map (LogRecord.fetched raw.partition) :=
      List.mem_map.2 ⟨r, hr, rfl⟩
    have hin := hrun.mem_of_lt (hord.sorted_fetched _) hmem (by simpa [LogRecord.fetched] using hpos)
      (by simpa [LogRecord.fetched] using hrx)
    exact htaken _ (List.mem_of_mem_filter hin)

lemma Fetched.reached (h : Fetched K w es (taken ++ raw :: rest)) (hord : Ordered w)
    (htaken : ∀ x ∈ taken, ∃ e ∈ es, K.Disposes x e) : Reached K w es raw :=
  ⟨h.inLog (by simp), h.covers hord htaken⟩

/-- The partition of a record is covered up to behind it once the record has been disposed of,
too. -/
lemma Fetched.covers_succ (h : Fetched K w es raws) (hord : Ordered w) (htaken : taken <+: raws)
    (hdisposed : ∀ x ∈ taken, ∃ e ∈ es, K.Disposes x e) (hraw : raw ∈ taken) :
    CoversTo K w es raw.partition (raw.offset + 1) ∧
      raw.offset + 1 ≤ w.logEnd raw.partition := by
  obtain ⟨before, behind, rfl⟩ := List.append_of_mem hraw
  obtain ⟨rest, rfl⟩ := htaken
  rw [List.append_assoc, List.cons_append] at h
  have hlog : w.InLog raw := h.inLog (by simp)
  have hlt := hlog.offset_lt hord
  obtain ⟨f, hf, hcov⟩ := h.covers hord fun x hx => hdisposed x (by simp [hx])
  refine ⟨⟨f, hf, fun r hr hfr hrx => ?_, .inl (by omega)⟩, by omega⟩
  by_cases heq : (r.offset : ℤ) = raw.offset
  · obtain ⟨r', hr', hraw'⟩ := hlog
    have hoff : raw.offset = r'.offset := congrArg FetchedRecord.offset hraw'
    rw [hord.eq_of_offset hr hr' (by omega), ← hraw']
    exact hdisposed raw (by simp)
  · exact hcov.disposed r hr hfr (by omega)

/-! ### What a consumer recalls -/

variable {s : ConsumerState} {r : ConsumedOutboxRecord} {d : ConsumeDisposition}

lemma Recalls.dropOldest (h : Recalls es s) : Recalls es s.dropOldest := by
  unfold ConsumerState.dropOldest
  split
  · exact h
  case h_2 oldest rest heq =>
    refine ⟨fun r hr => h.seen r ?_, fun c q m hl => h.last c q m ?_⟩
    · simp only [ConsumerState.hasSeen, OrderedMap.getElem?_erase] at hr ⊢
      split_ifs at hr
      exact hr
    · simp only [OrderedMap.getElem?_erase] at hl
      split_ifs at hl
      exact hl

lemma Recalls.touchConversation (h : Recalls es s) (capacity conversation : ℕ) :
    Recalls es (s.touchConversation capacity conversation) := by
  unfold ConsumerState.touchConversation
  split_ifs
  · exact h
  · exact ⟨h.dropOldest.seen, h.dropOldest.last⟩
  · exact ⟨h.seen, h.last⟩

lemma Recalls.addSeen (h : Recalls es s) (hr : .handled r d ∈ es) : Recalls es (s.addSeen r) := by
  refine ⟨fun r' hr' => ?_, h.last⟩
  simp only [ConsumerState.hasSeen, ConsumerState.addSeen, OrderedMap.getElem?_insert] at hr'
  split_ifs at hr' with hconv
  · -- the message is the one that has been added, or it was there before
    by_cases hmsg : r.messageId = r'.messageId
    · exact ⟨r, d, hr, hconv, hmsg⟩
    · refine h.seen r' ?_
      rw [ConsumerState.hasSeen, ← hconv]
      cases hids : s.seenMessages[r.conversationId]? with
      | none => simp [hids, hmsg] at hr'
      | some ids => simpa [hids, hmsg] using hr'
  · exact h.seen r' hr'

lemma Recalls.raiseLastSeen (h : Recalls es s) (hr : .handled r d ∈ es) :
    Recalls es (s.raiseLastSeen r) := by
  have hins : Recalls es
      { s with lastSeen := s.lastSeen.insert r.conversationId (r.sequence, r.messageId) } := by
    refine ⟨h.seen, fun c q m hl => ?_⟩
    simp only [OrderedMap.getElem?_insert] at hl
    split_ifs at hl with hconv
    · cases hl
      exact ⟨r, d, hr, hconv, rfl⟩
    · exact h.last c q m hl
  unfold ConsumerState.raiseLastSeen
  split
  · split_ifs
    · exact hins
    · exact h
  · exact hins

lemma Recalls.advance (h : Recalls es s) (capacity : ℕ) (hr : .handled r d ∈ es) :
    Recalls es (s.advance capacity r d) := by
  have hadd : Recalls es (if d = .deadLettered then s else s.addSeen r) := by
    split_ifs
    · exact h
    · exact h.addSeen hr
  exact (hadd.touchConversation capacity r.conversationId).raiseLastSeen hr

/-! ### What is to be done with a record -/

variable {reason : RejectReason}

lemma judge_record {v : Verdict} (h : KafkaEventConsumer.judge s r = v) :
    v = .handle r ∨
      v = .duplicate r ∧ s.hasSeen r = true ∨
      v = .reject r .unknownEventType ∧ r.eventType ≠ "MessageAccepted" ∨
      ∃ reason sequence messageId, v = .reject r reason ∧
        s.lastSeen[r.conversationId]? = some (sequence, messageId) ∧ r.sequence ≤ sequence := by
  unfold KafkaEventConsumer.judge at h
  split_ifs at h with hevent hseen
  · exact .inr (.inr (.inl ⟨h.symm, hevent⟩))
  · exact .inr (.inl ⟨h.symm, hseen⟩)
  · split at h
    · exact .inl h.symm
    case h_2 sequence messageId hlast =>
      split_ifs at h with hlt heq
      · exact .inr (.inr (.inr ⟨_, sequence, messageId, h.symm, hlast, hlt.le⟩))
      · exact .inr (.inr (.inr ⟨_, sequence, messageId, h.symm, hlast, heq.1.le⟩))
      · exact .inl h.symm

lemma classify_cases (K : KafkaEventConsumer) (s : ConsumerState) (raw : FetchedRecord) :
    (K.envelope? raw.value = none ∧
        K.classify s raw = .reject (K.poisoned raw) .poisonPayload) ∨
      ∃ env, K.envelope? raw.value = some env ∧
        K.classify s raw = KafkaEventConsumer.judge s (K.consumed raw env) := by
  unfold KafkaEventConsumer.classify
  cases h : K.envelope? raw.value with
  | none => exact .inl ⟨rfl, rfl⟩
  | some env => exact .inr ⟨env, rfl, rfl⟩

lemma classify_handle (h : K.classify s raw = .handle r) :
    ∃ env, K.envelope? raw.value = some env ∧ r = K.consumed raw env := by
  rcases classify_cases K s raw with ⟨-, hc⟩ | ⟨env, henv, hc⟩
  · cases hc.symm.trans h
  · rcases judge_record (hc.symm.trans h) with hv | ⟨hv, -⟩ | ⟨hv, -⟩ | ⟨_, _, _, hv, -⟩ <;> cases hv
    exact ⟨env, henv, rfl⟩

lemma classify_duplicate (h : K.classify s raw = .duplicate r) :
    ∃ env, K.envelope? raw.value = some env ∧ r = K.consumed raw env ∧ s.hasSeen r = true := by
  rcases classify_cases K s raw with ⟨-, hc⟩ | ⟨env, henv, hc⟩
  · cases hc.symm.trans h
  · rcases judge_record (hc.symm.trans h) with hv | ⟨hv, hseen⟩ | ⟨hv, -⟩ | ⟨_, _, _, hv, -⟩ <;>
      cases hv
    exact ⟨env, henv, rfl, hseen⟩

/-- A record that is rejected: if it is an event of the known type, a record of its conversation
with a sequence at least as large is the last one that has been seen. -/
lemma classify_reject (h : K.classify s raw = .reject r reason) :
    r.partition = raw.partition ∧ r.offset = raw.offset ∧
      ∀ env, K.envelope? raw.value = some env → env.eventType = "MessageAccepted" →
        ∃ sequence messageId, s.lastSeen[env.conversationId]? = some (sequence, messageId) ∧
          env.sequence ≤ sequence := by
  rcases classify_cases K s raw with ⟨hnone, hc⟩ | ⟨env, henv, hc⟩
  · cases hc.symm.trans h
    exact ⟨rfl, rfl, fun env henv => by cases hnone.symm.trans henv⟩
  · rcases judge_record (hc.symm.trans h) with hv | ⟨hv, -⟩ | ⟨hv, hne⟩ | ⟨_, q, m, hv, hlast, hle⟩ <;>
      cases hv
    · refine ⟨rfl, rfl, fun env' henv' hevent => ?_⟩
      cases henv.symm.trans henv'
      exact absurd hevent hne
    · refine ⟨rfl, rfl, fun env' henv' _ => ?_⟩
      cases henv.symm.trans henv'
      exact ⟨q, m, hlast, hle⟩

end Stream

end MuduoChat
