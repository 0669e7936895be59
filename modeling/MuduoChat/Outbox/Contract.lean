import MuduoChat.Outbox.Frame

/-!
# What relays and consumers keep to

Each entry that a consumer notes has to be justified by the entries before it (`Justified`): a
record is dealt with only when all records before it have been, an offset is committed only when
all records before it have been dealt with, and a record is dropped as a duplicate or rejected
for its sequence only because of a record of its conversation that the handler has seen before.
A relay may mark an event only if a publisher has answered `ok` for it.

The calls that keep to this leave every entry of every history justified (`Contract.keeps`).
-/

namespace MuduoChat

/-! ### What the entries of a consumer say -/

/-- The entry disposes of a record: the handler has returned for it, or it has been found among
those seen, or it has been stored as a dead letter. -/
def KafkaEventConsumer.Disposes (K : KafkaEventConsumer) (raw : FetchedRecord) :
    StreamEntry → Prop
  | .handled r _ | .seen r => ∃ env, K.envelope? raw.value = some env ∧ r = K.consumed raw env
  | .rejected d =>
    d.partitionId = raw.partition ∧ d.kafkaOffset = raw.offset ∧ d.rawValue = raw.value
  | _ => False

/-- The offsets that have been asked for, at the first fetch. -/
def firstPositions : List StreamEntry → Option (List (ℤ × ℤ))
  | [] => none
  | .fetched positions :: es => (firstPositions es).or (some positions)
  | _ :: es => firstPositions es

def firstCursor (es : List StreamEntry) (p : ℤ) : Option ℤ :=
  (firstPositions es).bind (List.lookup p)

lemma firstPositions_append (newer : List StreamEntry) {es : List StreamEntry}
    {positions : List (ℤ × ℤ)} (h : firstPositions es = some positions) :
    firstPositions (newer ++ es) = some positions := by
  induction newer with
  | nil => exact h
  | cons e newer ih => cases e <;> simp [firstPositions, ih]

lemma firstCursor_append (newer : List StreamEntry) {es : List StreamEntry} {p f : ℤ}
    (h : firstCursor es p = some f) : firstCursor (newer ++ es) p = some f := by
  obtain ⟨positions, hpos, hlook⟩ := Option.bind_eq_some_iff.1 h
  exact Option.bind_eq_some_iff.2 ⟨positions, firstPositions_append newer hpos, hlook⟩

/-- The handler has seen a record with the property. -/
def HandledBefore (es : List StreamEntry) (P : ConsumedOutboxRecord → Prop) : Prop :=
  ∃ r d, .handled r d ∈ es ∧ P r

lemma HandledBefore.mono {es es' : List StreamEntry} {P P' : ConsumedOutboxRecord → Prop}
    (h : HandledBefore es P) (hes : es ⊆ es') (hP : ∀ r, P r → P' r) : HandledBefore es' P' := by
  obtain ⟨r, d, hmem, hr⟩ := h
  exact ⟨r, d, hes hmem, hP r hr⟩

namespace Stream

variable {ι : Type} {w w' : Stream ι} {K : KafkaEventConsumer} {es : List StreamEntry}
  {p f c : ℤ} {raw : FetchedRecord} {i : ι}

/-- The record stands in its partition. -/
def InLog (w : Stream ι) (raw : FetchedRecord) : Prop :=
  ∃ r ∈ w.log raw.partition, raw = r.fetched raw.partition

/-- All records of a partition from `f` up to `c` have been disposed of, and there will be no
others. -/
structure Covers (K : KafkaEventConsumer) (w : Stream ι) (es : List StreamEntry) (p f c : ℤ) :
    Prop where
  disposed : ∀ r ∈ w.log p, f ≤ r.offset → r.offset < c →
    ∃ e ∈ es, K.Disposes (r.fetched p) e
  bounded : c ≤ w.logEnd p ∨ c ≤ f

variable {es' : List StreamEntry}

lemma Covers.mono (h : Covers K w es p f c) (hw : Appended w w')
    (hes : es ⊆ es') : Covers K w' es' p f c := by
  have hend := (hw p).1
  refine ⟨fun r hr hf hc => ?_, ?_⟩
  · have hold : r ∈ w.log p := by
      refine hw.mem_of_lt hr ?_
      rcases h.bounded with hb | hb <;> omega
    obtain ⟨e, he, hd⟩ := h.disposed r hold hf hc
    exact ⟨e, hes he, hd⟩
  · exact h.bounded.imp_left fun hb => by omega

lemma Covers.start (K : KafkaEventConsumer) (w : Stream ι) (es : List StreamEntry) (p f : ℤ) :
    Covers K w es p f f :=
  ⟨fun r _ hf hc => absurd hf (by omega), .inr le_rfl⟩

lemma Covers.of_beginning (hend : c ≤ w.logEnd p) (hlog : ∀ r ∈ w.log p, c ≤ r.offset) :
    Covers K w es p f c :=
  ⟨fun r hr _ hc => absurd (hlog r hr) (by omega), .inl hend⟩

/-- The partition is covered from the first cursor on. -/
def CoversTo (K : KafkaEventConsumer) (w : Stream ι) (es : List StreamEntry) (p c : ℤ) : Prop :=
  ∃ f, firstCursor es p = some f ∧ Covers K w es p f c

lemma CoversTo.mono (h : CoversTo K w es p c) (hw : Appended w w')
    (hes : es <:+ es') : CoversTo K w' es' p c := by
  obtain ⟨f, hf, hc⟩ := h
  obtain ⟨newer, rfl⟩ := hes
  exact ⟨f, firstCursor_append newer hf, hc.mono hw (List.subset_append_right _ _)⟩

/-- A record of the topic all of whose predecessors have been disposed of. -/
def Reached (K : KafkaEventConsumer) (w : Stream ι) (es : List StreamEntry)
    (raw : FetchedRecord) : Prop :=
  w.InLog raw ∧ CoversTo K w es raw.partition raw.offset

lemma InLog.mono (h : w.InLog raw) (hw : Appended w w') : w'.InLog raw := by
  obtain ⟨r, hr, heq⟩ := h
  exact ⟨r, hw.mem hr, heq⟩

lemma Reached.mono (h : Reached K w es raw) (hw : Appended w w') : Reached K w' es raw :=
  ⟨h.1.mono hw, h.2.mono hw (List.suffix_refl _)⟩

/-- A partition is read first at the offset that was committed before, or at its beginning. -/
def Start (w : Stream ι) (i : ι) (p c : ℤ) : Prop :=
  w.resume i p = some c ∨ c ≤ w.logEnd p ∧ ∀ r ∈ w.log p, c ≤ r.offset

lemma Start.mono (h : Start w i p c) (hw : Appended w w') (hres : w'.resume = w.resume) :
    Start w' i p c := by
  rcases h with h | ⟨hend, hlog⟩
  · exact .inl (hres ▸ h)
  · have hend' := (hw p).1
    refine .inr ⟨by omega, fun r hr => ?_⟩
    rcases hw.mem_or_le hr with hold | hnew
    · exact hlog r hold
    · omega

/-- No entry since the beginning of the poll says that the batch has been given up. -/
def Unaborted (es : List StreamEntry) : Prop :=
  StreamEntry.aborted ∉ es.takeWhile fun e => decide (e ≠ .began)

/-- What has to be known, from the entries before it, when an entry is noted. -/
def Justified (K : KafkaEventConsumer) (w : Stream ι) (i : ι) (es : List StreamEntry) :
    StreamEntry → Prop
  | .fetched positions => firstPositions es = none → ∀ a ∈ positions, Start w i a.1 a.2
  | .handled r _ =>
    ∃ raw env, Reached K w es raw ∧ K.envelope? raw.value = some env ∧ r = K.consumed raw env
  | .seen r =>
    ∃ raw env, Reached K w es raw ∧ K.envelope? raw.value = some env ∧ r = K.consumed raw env ∧
      HandledBefore es fun r' =>
        r'.conversationId = r.conversationId ∧ r'.messageId = r.messageId
  | .rejected d =>
    ∃ raw r reason, Reached K w es raw ∧ d = KafkaEventConsumer.deadLetter r reason raw.value ∧
      r.partition = raw.partition ∧ r.offset = raw.offset ∧
      ∀ env, K.envelope? raw.value = some env → env.eventType = "MessageAccepted" →
        HandledBefore es fun r' =>
          r'.conversationId = env.conversationId ∧ env.sequence ≤ r'.sequence
  | .committed p c => c ≤ w.logEnd p ∧ CoversTo K w es p c ∧ Unaborted es
  | _ => True

lemma Justified.mono {e : StreamEntry} (h : Justified K w i es e) (hw : Appended w w')
    (hres : w'.resume = w.resume) : Justified K w' i es e := by
  cases e with
  | fetched positions => exact fun hfirst a ha => (h hfirst a ha).mono hw hres
  | handled r d =>
    obtain ⟨raw, env, hreach, henv, hr⟩ := h
    exact ⟨raw, env, hreach.mono hw, henv, hr⟩
  | seen r =>
    obtain ⟨raw, env, hreach, henv, hr, hbefore⟩ := h
    exact ⟨raw, env, hreach.mono hw, henv, hr, hbefore⟩
  | rejected d =>
    obtain ⟨raw, r, reason, hreach, hd, hrest⟩ := h
    exact ⟨raw, r, reason, hreach.mono hw, hd, hrest⟩
  | committed p c =>
    obtain ⟨hend, hcov, hun⟩ := h
    have hend' := (hw p).1
    exact ⟨by omega, hcov.mono hw (List.suffix_refl _), hun⟩
  | claimed | published | began | aborted => trivial

/-- Each entry is justified by those before it. -/
def Recorded (K : KafkaEventConsumer) (w : Stream ι) (i : ι) : List StreamEntry → Prop
  | [] => True
  | e :: es => Justified K w i es e ∧ Recorded K w i es

lemma Recorded.mono (h : Recorded K w i es) (hw : Appended w w') (hres : w'.resume = w.resume) :
    Recorded K w' i es := by
  induction es with
  | nil => trivial
  | cons e es ih => exact ⟨h.1.mono hw hres, ih h.2⟩

variable {newer : List StreamEntry}

lemma Recorded.justified {older : List StreamEntry} {e : StreamEntry}
    (h : Recorded K w i (newer ++ e :: older)) : Justified K w i older e := by
  induction newer with
  | nil => exact h.1
  | cons x newer ih => exact ih h.2

lemma recorded_committed (h : Recorded K w i es) {new : List StreamEntry}
    (hnew : ∀ e ∈ new, ∃ p c, e = .committed p c ∧ Justified K w i es e) :
    Recorded K w i (new ++ es) := by
  induction new with
  | nil => exact h
  | cons e new ih =>
    have hrest : ∀ e ∈ new, ∃ p c, e = .committed p c ∧ Justified K w i es e :=
      fun x hx => hnew x (List.mem_cons_of_mem _ hx)
    obtain ⟨p, c, rfl, hend, hcov, hun⟩ := hnew e (by simp)
    refine ⟨⟨hend, hcov.mono (Appended.refl w) (List.suffix_append _ _), ?_⟩, ih hrest⟩
    -- the other offsets are neither the beginning of the poll nor its end
    have hpass : ∀ x ∈ new, decide (x ≠ StreamEntry.began) = true := by
      intro x hx
      obtain ⟨p, c, rfl, -⟩ := hrest x hx
      simp
    show StreamEntry.aborted ∉ (new ++ es).takeWhile _
    rw [List.takeWhile_append_of_pos hpass]
    intro hmem
    rcases List.mem_append.1 hmem with hmem | hmem
    · obtain ⟨p, c, heq, -⟩ := hrest _ hmem
      cases heq
    · exact hun hmem

/-! ### The memory of a consumer -/

/-- The messages that a consumer takes for seen, and the last sequences that it remembers, are
those of records that the handler has dealt with. -/
structure Recalls (es : List StreamEntry) (s : ConsumerState) : Prop where
  seen : ∀ r : ConsumedOutboxRecord, s.hasSeen r = true →
    HandledBefore es fun r' => r'.conversationId = r.conversationId ∧ r'.messageId = r.messageId
  last : ∀ conversation sequence messageId,
    s.lastSeen[conversation]? = some (sequence, messageId) →
    HandledBefore es fun r' => r'.conversationId = conversation ∧ r'.sequence = sequence

lemma Recalls.mono {s : ConsumerState} (h : Recalls es s)
    (hes : es ⊆ es') : Recalls es' s where
  seen r hr := (h.seen r hr).mono hes fun _ => id
  last c q m hl := (h.last c q m hl).mono hes fun _ => id

/-- The partitions are covered up to the cursors. -/
def Ready (K : KafkaEventConsumer) (w : Stream ι) (es : List StreamEntry) (s : ConsumerState) :
    Prop :=
  ∀ p ∈ s.partitions, CoversTo K w es p (KafkaEventConsumer.position s p)

/-- What a consumer remembers is what has happened.  It has not fetched anything before it has
been assigned its partitions. -/
structure Memory (K : KafkaEventConsumer) (w : Stream ι) (es : List StreamEntry)
    (s : ConsumerState) : Prop where
  recalls : Recalls es s
  fresh : s.assigned = false → firstPositions es = none
  ready : s.assigned = true → Ready K w es s

/-- Entries that do not fetch. -/
def Fetchless (es : List StreamEntry) : Prop := ∀ positions, .fetched positions ∉ es

lemma firstPositions_append_of_fetchless (h : Fetchless newer)
    (es : List StreamEntry) : firstPositions (newer ++ es) = firstPositions es := by
  induction newer with
  | nil => rfl
  | cons e newer ih =>
    have ih := ih fun positions hmem => h positions (List.mem_cons_of_mem _ hmem)
    cases e with
    | fetched positions => exact absurd (List.mem_cons_self) (h positions)
    | _ => exact ih

lemma Memory.mono {s : ConsumerState} (h : Memory K w es s)
    (hw : Appended w w') (hnewer : Fetchless newer) : Memory K w' (newer ++ es) s where
  recalls := h.recalls.mono (List.subset_append_right _ _)
  fresh hs := (firstPositions_append_of_fetchless hnewer es).trans (h.fresh hs)
  ready hs p hp := (h.ready hs p hp).mono hw (List.suffix_append _ _)

/-! ### The contract -/

/-- A publisher has answered `ok` for an event, at its place in an answer of the right length. -/
def PublishedOk (w : Stream ι) (n : ℕ) : Prop :=
  ∃ i batch outcomes, (i, .published batch outcomes) ∈ w.history ∧
    outcomes.length = batch.length ∧
    ∃ (k : ℕ) (request : OutboxPublishRequest) (outcome : OutboxPublishOutcome),
      batch[k]? = some request ∧ outcomes[k]? = some outcome ∧ outcome.ok = true ∧
        request.event.id = n

lemma PublishedOk.mono {n : ℕ} (h : w.PublishedOk n) (hw : w.history <:+ w'.history) :
    w'.PublishedOk n := by
  obtain ⟨i, batch, outcomes, hmem, hrest⟩ := h
  exact ⟨i, batch, outcomes, hw.subset hmem, hrest⟩

end Stream

namespace StreamSetup

open MuduoChat.Stream

variable {ι : Type} [DecidableEq ι] (T : StreamSetup ι)

/-- What holds of every state. -/
structure Inv (w : Stream ι) : Prop where
  ordered : w.Ordered
  events : ∀ n e, w.store.outboxEvent n = some e → e.id = n
  recorded : ∀ i, Recorded (T.consumer i) w i (w.entriesOf i)

/-- The calls that a party may make. -/
structure Allow (i : ι) (c : OutboxCall) (w : Stream ι) : Prop where
  justified : ∀ e, Notes c e → Justified (T.consumer i) w i (w.entriesOf i) e
  published : ∀ n nowMs, c = .markOutboxProcessed n nowMs → w.PublishedOk n
  owned : ∀ nowMs owner untilMs limit, c = .claimOutboxEvents nowMs owner untilMs limit →
    owner ≠ ""

/-- What holds of a party between two of its operations. -/
def AtRest (i : ι) (w : Stream ι) : Prop :=
  Memory (T.consumer i) w (w.entriesOf i) (w.consumer i)

variable {T} {i : ι} {w w' : Stream ι}

lemma AtRest.others (h : T.AtRest i w) (hw : Others i w w') : T.AtRest i w' := by
  unfold AtRest
  rw [hw.entries, hw.consumer]
  have hnone : Fetchless [] := fun _ => List.not_mem_nil
  exact Memory.mono h hw.appended hnone

/-! ### The invariant -/

variable {c : OutboxCall}

lemma Inv.recorded_of_moves (hw : T.Inv w) (hc : T.Allow i c w)
    (h : Moves i c w w') (j : ι) : Recorded (T.consumer j) w' j (w'.entriesOf j) := by
  by_cases hij : i = j
  · subst hij
    obtain ⟨es, hnotes, hlen, hhist⟩ := h.history
    rw [entriesOf_of_history hhist]
    refine Recorded.mono ?_ h.appended h.resume
    rcases hlen with hlen | ⟨toCommit, rfl⟩
    · match es, hlen, hnotes with
      | [], _, _ => exact hw.recorded i
      | [e], _, hnotes => exact ⟨hc.justified e (hnotes e (by simp)), hw.recorded i⟩
    · refine recorded_committed (hw.recorded i) fun e he => ?_
      have hnote := hnotes e he
      cases e with
      | committed p c => exact ⟨p, c, rfl, hc.justified _ hnote⟩
      | _ => exact hnote.elim
  · have hothers := h.others hij
    rw [hothers.entries]
    exact (hw.recorded j).mono hothers.appended hothers.resume

variable {v : Except OutboxFault c.Value}

lemma Inv.events_of_handle {partitionCount : ℕ} {ω : StreamEnv}
    (hw : T.Inv w)
    (h : handle partitionCount i c ω w = some (v, w')) (n : ℕ) (e : OutboxEvent)
    (he : w'.store.outboxEvent n = some e) : e.id = n := by
  rcases (moves_of_handle h).outbox with hwrite | hsame
  · cases c with
    | claimOutboxEvents nowMs owner untilMs limit =>
      cases h
      have hclaim := w.store.outboxEvent_claimOutboxEvents nowMs owner untilMs limit n
      rcases hclaim with hclaim | ⟨e0, he0, -, hclaim⟩
      · exact hw.events n e (hclaim.symm.trans he)
      · obtain rfl := Option.some.inj (hclaim.symm.trans he)
        exact hw.events n e0 he0
    | markOutboxProcessed k nowMs =>
      cases h
      have hmark := w.store.outboxEvent_markOutboxProcessed k nowMs n
      replace he := hmark.symm.trans he
      split_ifs at he
      · obtain ⟨e0, he0, rfl⟩ := Option.map_eq_some_iff.1 he
        exact hw.events n e0 he0
      · exact hw.events n e he
    | insertMessage draft =>
      cases h
      have hins := OrderedMap.getElem?_insertIfNew w.store.outboxEvents
        w.store.nextOutboxEventId n (w.store.acceptedEvent (w.store.accepted draft))
      replace he := hins.symm.trans he
      split_ifs at he with hn
      · cases he
        exact hn.1
      · exact hw.events n e he
    | _ => exact hwrite.elim
  · refine hw.events n e (Eq.trans ?_ he)
    simp only [InMemoryMessageStore.outboxEvent, hsame]

lemma Inv.keeps {partitionCount : ℕ} {ω : StreamEnv}
    (hw : T.Inv w) (hc : T.Allow i c w)
    (h : handle partitionCount i c ω w = some (v, w')) : T.Inv w' where
  ordered := (moves_of_handle h).ordered hw.ordered
  events := hw.events_of_handle h
  recorded := hw.recorded_of_moves hc (moves_of_handle h)

lemma Inv.initial (h : w.Initial) : T.Inv w where
  ordered := ⟨h.sorted, h.bounded⟩
  events := h.events
  recorded i := by simp [entriesOf, h.history, Recorded]

lemma AtRest.initial (h : w.Initial) (i : ι) : T.AtRest i w := by
  have hempty : w.entriesOf i = [] := by simp [entriesOf, h.history]
  rw [AtRest, h.consumer i, hempty]
  refine ⟨⟨fun r hr => ?_, fun c q m hl => ?_⟩, fun _ => rfl, fun hs => ?_⟩
  · simp [ConsumerState.hasSeen] at hr
  · simp at hl
  · simp at hs

/-- The calls that need no justification. -/
def Free : OutboxCall → Prop
  | .claimOutboxEvents _ owner _ _ => owner ≠ ""
  | .markOutboxProcessed .. | .fetchAll _ | .handle _ | .duplicate _ | .recordDeadLetter _
  | .offsetCommitAll _ => False
  | _ => True

lemma Allow.of_free (h : Free c) : T.Allow i c w := by
  refine ⟨fun e he => ?_, fun n nowMs heq => ?_, fun nowMs owner untilMs limit heq => ?_⟩
  · cases e with
    | claimed | published | began | aborted => trivial
    | fetched | handled | seen | rejected | committed =>
      cases c <;> first | exact he.elim | exact h.elim
  · subst heq
    exact h.elim
  · subst heq
    exact h

lemma AtRest.moves (h : T.AtRest i w) (hm : Moves i c w w')
    (hfetch : ∀ positions, ¬ Notes c (.fetched positions)) (hsave : ∀ s, c ≠ .save s) :
    T.AtRest i w' := by
  obtain ⟨es, hnotes, -, hhist⟩ := hm.history
  unfold AtRest
  rw [entriesOf_of_history hhist, hm.consumer i (.inr hsave)]
  exact Memory.mono h hm.appended fun positions hmem => hfetch positions (hnotes _ hmem)

abbrev contract (T : StreamSetup ι) (i : ι) : Contract OutboxPort (Stream ι) StreamEnv :=
  T.system.contract T.Inv Others T.Allow True i

lemma contract_moves {ω : StreamEnv}
    (h : (T.contract i).handle c ω w = some (v, w')) : Moves i c w w' :=
  moves_of_handle h

end StreamSetup

end MuduoChat
