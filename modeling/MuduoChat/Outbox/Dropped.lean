import MuduoChat.Outbox.Offsets

/-!
# Wakeups that are dropped

A consumer rejects a record whose sequence lies before one that it has seen in the same
conversation.  Relays do not publish in the order of the sequences: an event whose publication
has failed is published again later, after those behind it.  Its record is then rejected and no
handler ever sees it.  Where the first record of each message comes into the topic before those
of later sequences, every record below a committed offset has been handled.
-/

namespace MuduoChat

open Relation Parallel StreamSetup

namespace Stream

variable {ι : Type} {w w' : Stream ι} {K : KafkaEventConsumer} {partitionCount : ℕ}

/-! ### The order of the topic -/

/-- There is a record with this value already, or there is none of the conversation with the same
or a later sequence. -/
def MayAppend (K : KafkaEventConsumer) (w : Stream ι) (p : ℤ) (value : String) : Prop :=
  (∃ r ∈ w.log p, r.value = value) ∨
    ∀ env, K.envelope? value = some env → ∀ r ∈ w.log p, ∀ env', K.envelope? r.value = some env' →
      env'.conversationId = env.conversationId → env'.sequence < env.sequence

/-- The requests reach the topic in order. -/
def InOrder (K : KafkaEventConsumer) (partitionCount : ℕ) :
    Stream ι → List OutboxPublishRequest → Prop
  | _, [] => True
  | w, request :: requests =>
    MayAppend K w (request.conversationId.value % 2 ^ 64 % partitionCount : ℕ)
      request.envelope.dump ∧
    InOrder K partitionCount (w.appendRequest partitionCount request) requests

/-- The records of a conversation are in one partition.  For each record there is an earlier one
with the same value, or all earlier ones of its conversation have smaller sequences. -/
structure Sequenced (K : KafkaEventConsumer) (partitionCount : ℕ) (w : Stream ι) : Prop where
  partition : ∀ p, ∀ r ∈ w.log p, ∀ env, K.envelope? r.value = some env →
    p = (env.conversationId % partitionCount : ℕ)
  order : ∀ p, ∀ r ∈ w.log p, ∀ env, K.envelope? r.value = some env →
    (∃ r₀ ∈ w.log p, r₀.offset < r.offset ∧ r₀.value = r.value) ∨
      ∀ r' ∈ w.log p, r'.offset < r.offset → ∀ env', K.envelope? r'.value = some env' →
        env'.conversationId = env.conversationId → env'.sequence < env.sequence

lemma Sequenced.congr (h : Sequenced K partitionCount w) (hlog : w'.log = w.log) :
    Sequenced K partitionCount w' :=
  ⟨hlog ▸ h.partition, hlog ▸ h.order⟩

lemma Sequenced.append (h : Sequenced K partitionCount w) (hord : Ordered w) {p : ℤ} (gap : ℕ)
    {value : String} (hp : ∀ env, K.envelope? value = some env →
      p = (env.conversationId % partitionCount : ℕ)) (hmay : MayAppend K w p value) :
    Sequenced K partitionCount (w.append p gap value) := by
  have hlog (q : ℤ) (hq : q ≠ p) : (w.append p gap value).log q = w.log q :=
    Function.update_of_ne hq _ _
  have hlogp : (w.append p gap value).log p = w.log p ++ [⟨w.logEnd p + gap, value⟩] :=
    Function.update_self _ _ _
  refine ⟨fun q r hr env henv => ?_, fun q r hr env henv => ?_⟩
  · by_cases hq : q = p
    · subst hq
      rw [hlogp] at hr
      rcases List.mem_append.1 hr with hr | hr
      · exact h.partition q r hr env henv
      · obtain rfl := List.mem_singleton.1 hr
        exact hp env henv
    · rw [hlog q hq] at hr
      exact h.partition q r hr env henv
  · by_cases hq : q = p
    · subst hq
      rw [hlogp] at hr ⊢
      rcases List.mem_append.1 hr with hr | hr
      · -- the new record is behind the old ones
        have hlt := hord.bounded q r hr
        rcases h.order q r hr env henv with ⟨r0, hr0, hr0'⟩ | hall
        · exact .inl ⟨r0, List.mem_append_left _ hr0, hr0'⟩
        · refine .inr fun r' hr' hoff => ?_
          rcases List.mem_append.1 hr' with hr' | hr'
          · exact hall r' hr' hoff
          · obtain rfl := List.mem_singleton.1 hr'
            have hoff : w.logEnd q + gap < r.offset := hoff
            omega
      · obtain rfl := List.mem_singleton.1 hr
        rcases hmay with ⟨r0, hr0, hval⟩ | hall
        · have hlt := hord.bounded q r0 hr0
          refine .inl ⟨r0, List.mem_append_left _ hr0, ?_, hval⟩
          show r0.offset < w.logEnd q + gap
          omega
        · refine .inr fun r' hr' hoff => ?_
          rcases List.mem_append.1 hr' with hr' | hr'
          · exact hall env henv r' hr'
          · obtain rfl := List.mem_singleton.1 hr'
            exact absurd hoff (lt_irrefl _)
    · rw [hlog q hq] at hr ⊢
      exact h.order q r hr env henv

/-- The consumer reads the conversation for which an event has been published. -/
def Readable (K : KafkaEventConsumer) : Prop :=
  ∀ request env, K.envelope? (OutboxPublishRequest.envelope request).dump = some env →
    env.conversationId = request.conversationId.value % 2 ^ 64

lemma Sequenced.appendBatch (hread : Readable K) (h : Sequenced K partitionCount w)
    (hord : Ordered w) {batch : List OutboxPublishRequest} {appended : List ℕ}
    (hin : InOrder K partitionCount w (appended.filterMap (batch[·]?))) :
    Sequenced K partitionCount (w.appendBatch partitionCount batch appended) := by
  unfold Stream.appendBatch
  generalize appended.filterMap (batch[·]?) = requests at hin
  induction requests generalizing w with
  | nil => exact h
  | cons request requests ih =>
    obtain ⟨hmay, hrest⟩ := hin
    refine ih (h.append hord 0 (fun env henv => ?_) hmay) (hord.append _ _ _) hrest
    rw [hread request env henv]

/-! ### What has been disposed of has been handled -/

variable {i : ι} {es : List StreamEntry}

lemma Recorded.start {p f : ℤ} (h : Recorded K w i es) (hf : firstCursor es p = some f) :
    Start w i p f := by
  induction es with
  | nil => cases hf
  | cons e es ih =>
    cases e with
    | fetched positions =>
      cases hfirst : firstPositions es with
      | some older =>
        refine ih h.2 ?_
        simpa [firstCursor, firstPositions, hfirst] using hf
      | none =>
        have hlook : positions.lookup p = some f := by
          simpa [firstCursor, firstPositions, hfirst] using hf
        obtain ⟨l1, l2, rfl, -⟩ := List.lookup_eq_some_iff.1 hlook
        exact h.1 hfirst (p, f) (by simp)
    | _ => exact ih h.2 hf

lemma Recorded.beginning {p f : ℤ} {r : LogRecord} (h : Recorded K w i es)
    (hresume : w.resume i p = none) (hf : firstCursor es p = some f) (hr : r ∈ w.log p) :
    f ≤ r.offset := by
  rcases h.start hf with hres | ⟨-, hlog⟩
  · cases hresume.symm.trans hres
  · exact hlog r hr

lemma Recorded.of_append {newer : List StreamEntry} (h : Recorded K w i (newer ++ es)) :
    Recorded K w i es := by
  induction newer with
  | nil => exact h
  | cons x newer ih => exact ih h.2

/-- **The key lemma.**  If the topic is in order and has been read from its beginning, a record
that has been disposed of has been handled, be it under another offset. -/
lemma Sequenced.handled (h : Sequenced K partitionCount w) (hord : Ordered w)
    (hresume : ∀ p, w.resume i p = none) (hrec : Recorded K w i es) {p : ℤ} {r : LogRecord}
    {env : Envelope} (hr : r ∈ w.log p) (henv : K.envelope? r.value = some env)
    (hevent : env.eventType = "MessageAccepted")
    (hdisp : ∃ e ∈ es, K.Disposes (r.fetched p) e) :
    HandledBefore es fun r' => r'.messageId = env.messageId := by
  induction es generalizing p r env with
  | nil =>
    obtain ⟨e, he, -⟩ := hdisp
    cases he
  | cons e older ih =>
    -- what has been disposed of before, has been handled before
    have earlier {p : ℤ} {r : LogRecord} {env : Envelope} (hr : r ∈ w.log p)
        (henv : K.envelope? r.value = some env) (hevent : env.eventType = "MessageAccepted")
        (hdisp : ∃ e ∈ older, K.Disposes (r.fetched p) e) :
        HandledBefore (e :: older) fun r' => r'.messageId = env.messageId :=
      (ih hrec.2 hr henv hevent hdisp).mono (List.subset_cons_self _ _) fun _ => id
    obtain ⟨e', he', hdisp⟩ := hdisp
    rcases List.mem_cons.1 he' with rfl | he'
    case inr => exact earlier hr henv hevent ⟨e', he', hdisp⟩
    obtain ⟨hjust, hrec⟩ := hrec
    cases e' with
    | handled r' d =>
      obtain ⟨env', henv', rfl⟩ := hdisp
      cases henv.symm.trans henv'
      exact ⟨_, d, List.mem_cons_self, rfl⟩
    | seen r' =>
      obtain ⟨env', henv', rfl⟩ := hdisp
      cases henv.symm.trans henv'
      obtain ⟨-, -, -, -, -, hbefore⟩ := hjust
      exact hbefore.mono (List.subset_cons_self _ _) fun _ h => h.2
    | rejected d =>
      obtain ⟨hp, ho, hv⟩ := hdisp
      obtain ⟨raw, r', reason, ⟨-, f, hf, hcov⟩, rfl, hp', ho', hbefore⟩ := hjust
      obtain rfl : raw = r.fetched p := by
        obtain ⟨q, o, v⟩ := raw
        exact FetchedRecord.mk.injEq .. ▸ ⟨hp'.symm.trans hp, ho'.symm.trans ho, hv⟩
      -- the record of the same conversation that has been handled before
      obtain ⟨r2, d2, hmem, hconv, hle⟩ := hbefore env henv hevent
      obtain ⟨newer, oldest, hsplit⟩ := List.append_of_mem hmem
      have hrec' := hrec
      rw [hsplit] at hrec
      obtain ⟨raw2, env2, ⟨⟨l2, hl2, hraw2⟩, f2, hf2, hcov2⟩, henv2, rfl⟩ := hrec.justified
      obtain ⟨q, o, v⟩ := raw2
      cases hraw2
      have hconv : env2.conversationId = env.conversationId := hconv
      have hle : env.sequence ≤ env2.sequence := hle
      obtain rfl : q = p := by
        rw [h.partition q l2 hl2 env2 henv2, h.partition p r hr env henv, hconv]
      rcases lt_trichotomy l2.offset r.offset with hlt | heq | hgt
      · -- it stands before the record, so the record is not the first one of its message
        rcases h.order q r hr env henv with ⟨r0, hr0, hoff, hval⟩ | hall
        · have hf0 := hrec'.beginning (hresume q) hf hr0
          have hoff : (r0.offset : ℤ) < r.offset := by omega
          exact earlier hr0 (hval ▸ henv) hevent (hcov.disposed r0 hr0 hf0 hoff)
        · have := hall l2 hl2 hlt env2 henv2 hconv
          omega
      · obtain rfl := hord.eq_of_offset hl2 hr heq
        cases henv.symm.trans henv2
        exact ⟨_, d2, List.mem_cons_of_mem _ hmem, rfl⟩
      · -- it stands behind the record, which has been disposed of before it
        have hrec2 : Recorded K w i oldest := (Recorded.of_append hrec).2
        have hf0 := hrec2.beginning (hresume q) hf2 hr
        have hgt : (r.offset : ℤ) < l2.offset := by omega
        obtain ⟨e0, he0, hdisp0⟩ := hcov2.disposed r hr hf0 hgt
        refine earlier hr henv hevent ⟨e0, ?_, hdisp0⟩
        rw [hsplit]
        simp [he0]
    | claimed | published | began | fetched | aborted | committed => exact hdisp.elim

end Stream

/-! ### Runs in which the topic stays in order -/

variable {ι : Type} [DecidableEq ι] {T : StreamSetup ι} {k : ι} {a b : StreamSetup.State ι}

/-- The step does not bring the first record of a message into the topic behind one of its
conversation with the same or a later sequence.  Other records are no events to the consumer. -/
def StreamSetup.Orderly (T : StreamSetup ι) (k : ι) (a : StreamSetup.State ι) :
    Choice ι StreamEnv StreamOp → Prop
  | .invoke _ _ => True
  | .advance i ω =>
    match a.running i with
    | some ⟨_, .call (.publish batch _) _⟩ =>
      a.world.InOrder (T.consumer k) T.partitionCount (ω.appended.filterMap (batch[·]?))
    | some ⟨_, .call (.produce _ _ value) _⟩ => (T.consumer k).envelope? value = none
    | _ => True

/-- A state from which a consumer and its topic are new. -/
structure Stream.Fresh (w : Stream ι) (k : ι) : Prop extends w.Initial where
  log : ∀ p, w.log p = []
  resume : ∀ p, w.resume k p = none

/-- The states that are reached by steps that keep the topic in order. -/
def StreamSetup.ReachableInOrder (T : StreamSetup ι) (k : ι) (a : StreamSetup.State ι) : Prop :=
  ∃ w : Stream ι, w.Fresh k ∧
    ReflTransGen (fun x y => ∃ l, T.Orderly k x l ∧ T.system.next x l = some y)
      (Config.initial w) a

/-- The step lemma: the topic stays in order. -/
lemma StreamSetup.sequenced_next {l : Choice ι StreamEnv StreamOp}
    (hread : Stream.Readable (T.consumer k)) (ha : T.Reachable a)
    (hseq : a.world.Sequenced (T.consumer k) T.partitionCount) (hl : T.Orderly k a l)
    (h : T.system.next a l = some b) :
    b.world.Sequenced (T.consumer k) T.partitionCount := by
  rcases next_cases h with ⟨i, op, -, -, rfl⟩ | ⟨i, ω, op, v, -, -, rfl⟩ |
    ⟨i, ω, op, e, -, -, rfl⟩ | ⟨i, ω, op, call, f, v, w, rfl, hr, hw, rfl⟩
  · exact hseq
  · exact hseq
  · exact hseq
  have hord := ha.sound.inv.ordered
  have hw : Stream.handle T.partitionCount i call ω a.world = some (v, w) := hw
  simp only [StreamSetup.Orderly, hr] at hl
  rcases (Stream.moves_of_handle hw).topic with htopic | hlog
  · cases call with
    | publish batch deadlineMs =>
      have hbatch := hseq.appendBatch hread hord hl
      simp only [Stream.handle] at hw
      cases hp : ω.publish <;>
      · rw [hp] at hw
        cases hw
        exact hbatch.congr rfl
    | produce p gap value =>
      cases hw
      refine hseq.append hord gap (fun env henv => ?_) (.inr fun env henv => ?_)
      · cases hl.symm.trans henv
      · cases hl.symm.trans henv
    | _ => exact htopic.elim
  · exact hseq.congr hlog

/-- The run lemma. -/
lemma StreamSetup.ReachableInOrder.sequenced (hread : Stream.Readable (T.consumer k))
    (ha : T.ReachableInOrder k a) :
    T.Reachable a ∧ a.world.Sequenced (T.consumer k) T.partitionCount ∧
      ∀ p, a.world.resume k p = none := by
  obtain ⟨w, hw, hrun⟩ := ha
  induction hrun with
  | refl =>
    refine ⟨⟨w, hw.toInitial, .refl⟩, ⟨fun p r hr => ?_, fun p r hr => ?_⟩, hw.resume⟩ <;>
    · have hr : r ∈ w.log p := hr
      simp [hw.log] at hr
  | tail _ hstep ih =>
    obtain ⟨hreach, hseq, hresume⟩ := ih
    obtain ⟨l, hl, hnext⟩ := hstep
    refine ⟨hreach.step ⟨l, hnext⟩, sequenced_next hread hreach hseq hl hnext, fun p => ?_⟩
    rcases hreach.step_cases ⟨l, hnext⟩ with heq | ⟨i, call, ω, v, -, hv⟩
    · rw [heq]
      exact hresume p
    · rw [(Stream.moves_of_handle hv).resume]
      exact hresume p

/-- **No wakeup is dropped while the topic is in order.**  For a new consumer and a new topic,
along every run in which the first record of each message comes into the topic before those of
its conversation with the same or a later sequence, every record below the committed offset of
its partition that is an event has been handled. -/
theorem wakeup_handled {ι : Type} [DecidableEq ι] {T : StreamSetup ι} {k : ι}
    {a : StreamSetup.State ι} (hread : Stream.Readable (T.consumer k))
    (ha : T.ReachableInOrder k a) {p c : ℤ} {r : LogRecord} {env : Envelope}
    (hr : r ∈ a.world.log p) (henv : (T.consumer k).envelope? r.value = some env)
    (hevent : env.eventType = "MessageAccepted")
    (hcommitted : a.world.committedOffset k p = some c) (hlt : r.offset < c) :
    HandledBefore (a.world.entriesOf k) fun r' => r'.messageId = env.messageId := by
  obtain ⟨hreach, hseq, hresume⟩ := ha.sequenced hread
  have hinv := hreach.sound.inv
  have hrec := hinv.recorded k
  -- the offset has been committed by an entry, which is justified by those before it
  obtain ⟨e, he, hc⟩ : ∃ e ∈ a.world.entriesOf k, e.commitOf p = some c := by
    rw [Stream.committedOffset, hresume p, Option.or_none] at hcommitted
    exact List.exists_of_findSome?_eq_some hcommitted
  obtain ⟨newer, older, hsplit⟩ := List.append_of_mem he
  have hjust : Stream.Justified (T.consumer k) a.world k older e :=
    Stream.Recorded.justified (hsplit ▸ hrec)
  obtain rfl : e = .committed p c := by
    cases e with
    | committed q c' =>
      simp only [StreamEntry.commitOf, ite_eq_iff, reduceCtorEq, and_false, or_false] at hc
      obtain ⟨rfl, hc⟩ := hc
      rw [Option.some.inj hc]
    | _ => cases hc
  obtain ⟨-, ⟨f, hf, hcov⟩, -⟩ := hjust
  rw [hsplit] at hrec
  have holder : Stream.Recorded (T.consumer k) a.world k older :=
    (Stream.Recorded.of_append hrec).2
  have hdisp := hcov.disposed r hr (holder.beginning (hresume p) hf hr) hlt
  have hhandled := hseq.handled hinv.ordered hresume holder hr henv hevent hdisp
  refine hhandled.mono (fun x hx => ?_) fun _ => id
  rw [hsplit]
  simp [hx]

/-! ### Two messages -/

/-- The payload of the events below. -/
def plainPayload : String := encodeOutboxPayload {}

/-- The envelope of the event of a message.  The messages are the first ones of one
conversation. -/
def eventOf (n : ℕ) : Json :=
  .obj [("conversation_id", .unsigned 1), ("event_type", .str "MessageAccepted"),
    ("message_id", .unsigned n), ("payload", .str plainPayload), ("sequence", .unsigned n)]

/-- A reader of JSON that knows the texts of two events. -/
def parseEvents (text : String) : Option Json :=
  if text = (eventOf 1).dump then some (eventOf 1)
  else if text = (eventOf 2).dump then some (eventOf 2)
  else if text = plainPayload then some (.obj [])
  else none

/-- Two relays and two consumers that can read. -/
def StreamSetup.readers : StreamSetup Bool :=
  { StreamSetup.pair with consumer := fun _ => { parse := parseEvents } }

/-- What the broker answers to a consumer that reads the events of two messages. -/
def answering (records : List (ℤ × String)) : StreamEnv where
  partitions := [0]
  offsets := [(0, 0)]
  codes := [(0, 0)]
  response := [{ partition := 0, batches := some [{ baseOffset := 0, records := records }] }]

def acceptOne : Act Bool StreamEnv StreamOp where
  who := true
  op := some (.accept { conversationId := ⟨1⟩ })
  env := {}

/-- A relay finds one event, and its publication succeeds or fails. -/
def scanning (now : ℤ) (ok : Bool) : Act Bool StreamEnv StreamOp where
  who := true
  op := some .runScan
  env := { now, publish := .ok [{ ok }], appended := if ok then [0] else [] }

def reading (records : List (ℤ × String)) : Act Bool StreamEnv StreamOp where
  who := false
  op := some .poll
  env := answering records

/-- A message is accepted, and the publication of its event fails.  The event of a second message is
published, and the first one is published again when its lease has run out.  Then the consumer reads
both records. -/
def republishedLate : StreamSetup.State Bool :=
  StreamSetup.readers.system.play (Config.initial {})
    [acceptOne, scanning 1000 false, acceptOne, scanning 2000 true, scanning 40000 true,
      reading [(0, (eventOf 2).dump), (1, (eventOf 1).dump)]]

lemma eq_of_digits {m n : ℕ} {x y : List Char}
    (h : (toString m).toList ++ ',' :: x = (toString n).toList ++ ',' :: y) : m = n := by
  have hcut (k : ℕ) (z : List Char) :
      ((toString k).toList ++ ',' :: z).takeWhile (fun c => decide (c ≠ ',')) =
        (toString k).toList := by
    rw [List.takeWhile_append_of_pos, List.takeWhile_cons_of_neg (by simp), List.append_nil]
    intro c hc
    rw [Nat.toString_eq_repr, Nat.repr_eq_ofList_toDigits, String.toList_ofList] at hc
    have hdigit := Nat.isDigit_of_mem_toDigits (by decide) (by decide) hc
    refine decide_eq_true fun hcomma => ?_
    subst hcomma
    exact absurd hdigit (by decide)
  have heq := congrArg (List.takeWhile fun c => decide (c ≠ ',')) h
  rw [hcut, hcut] at heq
  have hstr : m.repr = n.repr := by
    rw [← Nat.toString_eq_repr, ← Nat.toString_eq_repr]
    exact String.toList_inj.1 heq
  exact Nat.repr_inj.1 hstr

lemma conversation_of_dump {request : OutboxPublishRequest} {n : ℕ}
    (h : request.envelope.dump = (eventOf n).dump) : request.conversationId.value = 1 := by
  simp only [OutboxPublishRequest.envelope, eventOf, Json.dump, Json.dumpFields] at h
  replace h := congrArg String.toList h
  simp only [String.toList_append, List.append_assoc, List.append_cancel_left_eq] at h
  exact eq_of_digits h

lemma conversationId_of_eventOf {K : KafkaEventConsumer} {text : String} {n : ℕ} {env : Envelope}
    (hparse : K.parse text = some (eventOf n)) (henv : K.envelope? text = some env) :
    env.conversationId = 1 := by
  simp only [KafkaEventConsumer.envelope?, hparse, Option.bind_eq_bind, Option.bind_some] at henv
  obtain ⟨_, -, henv⟩ := Option.bind_eq_some_iff.1 henv
  obtain ⟨c, hc, henv⟩ := Option.bind_eq_some_iff.1 henv
  obtain rfl : 1 = c := Option.some.inj hc
  obtain ⟨_, -, henv⟩ := Option.bind_eq_some_iff.1 henv
  obtain ⟨_, -, henv⟩ := Option.bind_eq_some_iff.1 henv
  obtain ⟨_, -, henv⟩ := Option.bind_eq_some_iff.1 henv
  obtain ⟨_, -, henv⟩ := Option.bind_eq_some_iff.1 henv
  split at henv
  · exact (Option.some.inj henv).symm ▸ rfl
  · cases henv

lemma readable_readers : Stream.Readable (StreamSetup.readers.consumer false) := by
  intro request env henv
  have hparse : (StreamSetup.readers.consumer false).parse request.envelope.dump =
      parseEvents request.envelope.dump := rfl
  have hone : 1 % 2 ^ 64 = 1 := by decide
  unfold parseEvents at hparse
  split at hparse
  next h =>
    rw [conversation_of_dump h, conversationId_of_eventOf hparse henv, hone]
  next =>
    split at hparse
    next h =>
      rw [conversation_of_dump h, conversationId_of_eventOf hparse henv, hone]
    next =>
      split at hparse
      -- the payload is an object without the fields of an envelope
      · simp [KafkaEventConsumer.envelope?, hparse, Json.unsigned?, Json.field?] at henv
      · simp [KafkaEventConsumer.envelope?, hparse] at henv

/-- As before, but the second message comes when the event of the first one has been published. -/
def republishedActs : List (Act Bool StreamEnv StreamOp) :=
  [acceptOne, scanning 1000 false, scanning 40000 true, acceptOne, scanning 41000 true,
    reading [(0, (eventOf 1).dump), (1, (eventOf 2).dump)]]

def republishedInOrder : StreamSetup.State Bool :=
  StreamSetup.readers.system.play (Config.initial {}) republishedActs

instance (K : KafkaEventConsumer) (w : Stream Bool) (p : ℤ) (value : String) :
    Decidable (w.MayAppend K p value) :=
  inferInstanceAs (Decidable ((∃ r ∈ w.log p, r.value = value) ∨
    ∀ env ∈ K.envelope? value, ∀ r ∈ w.log p, ∀ env' ∈ K.envelope? r.value, _ → _))

instance decidableInOrder (K : KafkaEventConsumer) (partitionCount : ℕ) :
    ∀ (w : Stream Bool) requests, Decidable (w.InOrder K partitionCount requests)
  | _, [] => isTrue trivial
  | w, request :: requests =>
    have := decidableInOrder K partitionCount (w.appendRequest partitionCount request) requests
    inferInstanceAs (Decidable (_ ∧ _))

/-- The test for `StreamSetup.Orderly`. -/
def orderly (a : StreamSetup.State Bool) : Choice Bool StreamEnv StreamOp → Bool
  | .invoke _ _ => true
  | .advance i ω =>
    match a.running i with
    | some ⟨_, .call (.publish batch _) _⟩ =>
      a.world.InOrder (StreamSetup.readers.consumer false) 1 (ω.appended.filterMap (batch[·]?))
    | some ⟨_, .call (.produce _ _ value) _⟩ =>
      (StreamSetup.readers.consumer false).envelope? value = none
    | _ => true

lemma orderly_spec {a : StreamSetup.State Bool} {l : Choice Bool StreamEnv StreamOp}
    (h : orderly a l = true) : StreamSetup.readers.Orderly false a l := by
  cases l with
  | invoke i op => trivial
  | advance i ω =>
    unfold orderly at h
    unfold StreamSetup.Orderly
    dsimp only at h ⊢
    split at h
    · exact of_decide_eq_true h
    · exact of_decide_eq_true h
    · trivial

/-- The records of both messages lie below the committed offset, so both have been handled. -/
theorem wakeup_handled_once :
    republishedInOrder.world.log 0 = [⟨0, (eventOf 1).dump⟩, ⟨1, (eventOf 2).dump⟩] ∧
      republishedInOrder.world.committedOffset false 0 = some 2 ∧
      ∀ n ∈ [1, 2],
        HandledBefore (republishedInOrder.world.entriesOf false) fun r => r.messageId = n := by
  have hlog : republishedInOrder.world.log 0 =
      [⟨0, (eventOf 1).dump⟩, ⟨1, (eventOf 2).dump⟩] := by decide +kernel
  have hcommitted : republishedInOrder.world.committedOffset false 0 = some 2 := by decide +kernel
  have henv : ∀ n ∈ [1, 2], (StreamSetup.readers.consumer false).envelope? (eventOf n).dump =
      some ⟨n, 1, n, "MessageAccepted", plainPayload⟩ := by decide +kernel
  have horderly : ∀ x ∈ StreamSetup.readers.system.taken (Config.initial {}) republishedActs,
      orderly x.1 x.2 = true := by decide +kernel
  have hreach : StreamSetup.readers.ReachableInOrder false republishedInOrder :=
    ⟨{}, ⟨Stream.initial_empty, fun _ => rfl, fun _ => rfl⟩,
      reaches_play_of fun x hx b hb => ⟨x.2, orderly_spec (horderly x hx), hb⟩⟩
  refine ⟨hlog, hcommitted, fun n hn => ?_⟩
  obtain ⟨r, hr, hvalue, hlt⟩ : ∃ r ∈ republishedInOrder.world.log 0,
      r.value = (eventOf n).dump ∧ (r.offset : ℤ) < 2 := by
    rw [hlog]
    revert n hn
    decide +kernel
  exact wakeup_handled readable_readers hreach hr (hvalue ▸ henv n hn) rfl hcommitted hlt

/-- The entry does not say that a message has been handled. -/
def StreamEntry.spares (n : ℕ) : StreamEntry → Bool
  | .handled r _ => r.messageId ≠ n
  | _ => true

lemma not_handledBefore {es : List StreamEntry} {n : ℕ} (h : es.all (StreamEntry.spares n) = true) :
    ¬ HandledBefore es fun r => r.messageId = n := by
  rintro ⟨r, d, hmem, hr⟩
  have := List.all_eq_true.1 h _ hmem
  simp [StreamEntry.spares, hr] at this

/-- The record of the first message lies below the committed offset, and the message has not been
handled. -/
theorem wakeup_dropped :
    StreamSetup.readers.Reachable republishedLate ∧
      (republishedLate.world.store.findMessage ⟨1⟩).isSome ∧
      ⟨1, (eventOf 1).dump⟩ ∈ republishedLate.world.log 0 ∧
      (StreamSetup.readers.consumer false).envelope? (eventOf 1).dump =
        some ⟨1, 1, 1, "MessageAccepted", plainPayload⟩ ∧
      republishedLate.world.committedOffset false 0 = some 2 ∧
      ¬ HandledBefore (republishedLate.world.entriesOf false) fun r => r.messageId = 1 := by
  refine ⟨⟨{}, Stream.initial_empty, reaches_play _ _⟩, ?_, ?_, ?_, ?_, ?_⟩
  · decide +kernel
  · decide +kernel
  · decide +kernel
  · decide +kernel
  · exact not_handledBefore (by decide +kernel)

end MuduoChat
