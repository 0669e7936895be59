import MuduoChat.Outbox.System

/-!
# What the calls of relays and consumers leave alone

A call of one party notes entries of its own, adds records behind the end of the partitions, and
does not touch the memory of another party (`Stream.Moves`).  What a party can count on between
two of its calls follows from that (`Stream.Others`).
-/

namespace MuduoChat

namespace Stream

variable {ι : Type} {w w' w'' : Stream ι} {p : ℤ} {r : LogRecord}

/-! ### The topic -/

/-- Records are only added, behind the end of the partition. -/
def Appended (w w' : Stream ι) : Prop :=
  ∀ p, w.logEnd p ≤ w'.logEnd p ∧
    ∃ new, w'.log p = w.log p ++ new ∧ ∀ r ∈ new, w.logEnd p ≤ r.offset

lemma Appended.of_eq (hlog : w'.log = w.log) (hend : w'.logEnd = w.logEnd) : Appended w w' :=
  fun p => ⟨by rw [hend], [], by rw [hlog, List.append_nil], by simp⟩

lemma Appended.refl (w : Stream ι) : Appended w w := Appended.of_eq rfl rfl

lemma Appended.trans (h : Appended w w') (h' : Appended w' w'') : Appended w w'' := by
  intro p
  obtain ⟨hend, new, hlog, hnew⟩ := h p
  obtain ⟨hend', new', hlog', hnew'⟩ := h' p
  refine ⟨hend.trans hend', new ++ new', by rw [hlog', hlog, List.append_assoc], ?_⟩
  intro r hr
  rcases List.mem_append.1 hr with hr | hr
  · exact hnew r hr
  · exact hend.trans (hnew' r hr)

lemma Appended.mem (h : Appended w w') (hr : r ∈ w.log p) : r ∈ w'.log p := by
  obtain ⟨-, new, hlog, -⟩ := h p
  rw [hlog]
  exact List.mem_append_left _ hr

lemma Appended.mem_of_lt (h : Appended w w') (hr : r ∈ w'.log p) (hlt : r.offset < w.logEnd p) :
    r ∈ w.log p := by
  obtain ⟨-, new, hlog, hnew⟩ := h p
  rw [hlog] at hr
  rcases List.mem_append.1 hr with hr | hr
  · exact hr
  · exact absurd (hnew r hr) (by omega)

lemma Appended.mem_or_le (h : Appended w w') (hr : r ∈ w'.log p) :
    r ∈ w.log p ∨ w.logEnd p ≤ r.offset := by
  by_cases hlt : r.offset < w.logEnd p
  · exact .inl (h.mem_of_lt hr hlt)
  · exact .inr (by omega)

/-- The records of each partition stand in ascending order, before its end. -/
structure Ordered (w : Stream ι) : Prop where
  sorted : ∀ p, (w.log p).Pairwise fun r r' => r.offset < r'.offset
  bounded : ∀ p, ∀ r ∈ w.log p, r.offset < w.logEnd p

lemma Ordered.congr (h : Ordered w) (hlog : w'.log = w.log) (hend : w'.logEnd = w.logEnd) :
    Ordered w' :=
  ⟨hlog ▸ h.sorted, fun p => by rw [hlog, hend]; exact h.bounded p⟩

lemma appended_append (w : Stream ι) (p : ℤ) (gap : ℕ) (value : String) :
    Appended w (w.append p gap value) := by
  intro q
  by_cases hq : q = p
  · subst hq
    refine ⟨?_, [⟨w.logEnd q + gap, value⟩], ?_, ?_⟩
    · simp only [append, Function.update_self]
      omega
    · simp only [append, Function.update_self]
    · simp
  · refine ⟨?_, [], ?_, by simp⟩
    · simp only [append, Function.update_of_ne hq, le_refl]
    · simp only [append, Function.update_of_ne hq, List.append_nil]

lemma Ordered.append (h : Ordered w) (p : ℤ) (gap : ℕ) (value : String) :
    Ordered (w.append p gap value) := by
  refine ⟨fun q => ?_, fun q => ?_⟩
  · by_cases hq : q = p
    · subst hq
      simp only [Stream.append, Function.update_self]
      refine List.pairwise_append.2 ⟨h.sorted q, List.pairwise_singleton _ _, ?_⟩
      intro r hr r' hr'
      have := h.bounded q r hr
      obtain rfl := List.mem_singleton.1 hr'
      show r.offset < w.logEnd q + gap
      omega
    · simpa only [Stream.append, Function.update_of_ne hq] using h.sorted q
  · by_cases hq : q = p
    · subst hq
      simp only [Stream.append, Function.update_self]
      intro r hr
      rcases List.mem_append.1 hr with hr | hr
      · have := h.bounded q r hr
        omega
      · obtain rfl := List.mem_singleton.1 hr
        show w.logEnd q + gap < _
        omega
    · simpa only [Stream.append, Function.update_of_ne hq] using h.bounded q

lemma appendBatch_spec (partitionCount : ℕ) (w : Stream ι) (batch : List OutboxPublishRequest)
    (appended : List ℕ) :
    (∃ log logEnd, w.appendBatch partitionCount batch appended =
      { w with log := log, logEnd := logEnd }) ∧
    Appended w (w.appendBatch partitionCount batch appended) ∧
    (Ordered w → Ordered (w.appendBatch partitionCount batch appended)) := by
  unfold appendBatch
  generalize appended.filterMap (batch[·]?) = requests
  induction requests generalizing w with
  | nil => exact ⟨⟨_, _, rfl⟩, Appended.refl w, id⟩
  | cons q requests ih =>
    obtain ⟨⟨log, logEnd, heq⟩, happ, hord⟩ := ih (w.appendRequest partitionCount q)
    refine ⟨⟨log, logEnd, heq⟩, (appended_append w _ _ _).trans happ, fun h => hord ?_⟩
    exact h.append _ _ _

/-! ### The history -/

lemma entriesOf_of_history [DecidableEq ι] {i : ι} {es : List StreamEntry}
    (h : w'.history = es.map (Prod.mk i) ++ w.history) :
    w'.entriesOf i = es ++ w.entriesOf i := by
  have hown : (es.map (Prod.mk i)).filter (fun e => decide (e.1 = i)) = es.map (Prod.mk i) :=
    List.filter_eq_self.2 (by simp)
  simp only [entriesOf, h, List.filter_append, List.map_append, hown, List.map_map]
  congr 1
  simp [Function.comp_def]

lemma entriesOf_of_history_of_ne [DecidableEq ι] {i j : ι} {es : List StreamEntry} (hij : i ≠ j)
    (h : w'.history = es.map (Prod.mk i) ++ w.history) : w'.entriesOf j = w.entriesOf j := by
  have hother : (es.map (Prod.mk i)).filter (fun e => decide (e.1 = j)) = [] :=
    List.filter_eq_nil_iff.2 (by simp [hij])
  simp only [entriesOf, h, List.filter_append, hother, List.nil_append]

/-- The entries that a call may note. -/
def Notes : OutboxCall → StreamEntry → Prop
  | .claimOutboxEvents nowMs _ _ limit, .claimed now l _ => now = nowMs ∧ l = limit
  | .publish batch _, .published b _ => b = batch
  | .load, .began => True
  | .fetchAll positions, .fetched ps => ps = positions
  | .handle r, .handled r' _ => r' = r
  | .handle _, .aborted => True
  | .duplicate r, .seen r' => r' = r
  | .recordDeadLetter d, .rejected d' => d' = d
  | .recordDeadLetter _, .aborted => True
  | .offsetCommitAll toCommit, .committed p c => (p, c) ∈ toCommit
  | _, _ => False

lemma commit_spec (w : Stream ι) (i : ι) (toCommit codes : List (ℤ × ℤ)) :
    ∃ es : List StreamEntry, (∀ e ∈ es, ∃ a ∈ toCommit, e = .committed a.1 a.2) ∧
      w.commit i toCommit codes = { w with history := es.map (Prod.mk i) ++ w.history } := by
  unfold commit
  have hmem : ∀ a ∈ toCommit.filter (fun a => codes.contains (a.1, 0)), a ∈ toCommit :=
    fun a ha => List.mem_of_mem_filter ha
  generalize toCommit.filter (fun a => codes.contains (a.1, 0)) = good at hmem
  induction good generalizing w with
  | nil => exact ⟨[], by simp, rfl⟩
  | cons a good ih =>
    obtain ⟨es, hes, heq⟩ := ih (w.note i (.committed a.1 a.2))
      fun b hb => hmem b (List.mem_cons_of_mem _ hb)
    refine ⟨es ++ [.committed a.1 a.2], ?_, ?_⟩
    · intro e he
      rcases List.mem_append.1 he with he | he
      · exact hes e he
      · exact ⟨a, hmem a (by simp), List.mem_singleton.1 he⟩
    · refine heq.trans ?_
      simp [note]

/-! ### The calls -/

def WritesOutbox : OutboxCall → Prop
  | .claimOutboxEvents .. | .markOutboxProcessed .. | .insertMessage .. => True
  | _ => False

def WritesTopic : OutboxCall → Prop
  | .publish .. | .produce .. => True
  | _ => False

/-- What a call of a party does at most: it notes entries of its own, it adds records to the
topic, and it leaves the memories of the other parties alone. -/
structure Moves (i : ι) (c : OutboxCall) (w w' : Stream ι) : Prop where
  appended : Appended w w'
  ordered : Ordered w → Ordered w'
  history : ∃ es : List StreamEntry, (∀ e ∈ es, Notes c e) ∧
    (es.length ≤ 1 ∨ ∃ toCommit, c = .offsetCommitAll toCommit) ∧
    w'.history = es.map (Prod.mk i) ++ w.history
  outbox : WritesOutbox c ∨ w'.store.outboxEvents = w.store.outboxEvents
  topic : WritesTopic c ∨ w'.log = w.log
  resume : w'.resume = w.resume
  consumer : ∀ j, (j ≠ i ∨ ∀ s, c ≠ .save s) → w'.consumer j = w.consumer j

lemma Moves.of_note {i : ι} {c : OutboxCall} {store : InMemoryMessageStore}
    (es : List StreamEntry) (h : ∀ e ∈ es, Notes c e)
    (hlen : es.length ≤ 1 ∨ ∃ toCommit, c = .offsetCommitAll toCommit)
    (hstore : WritesOutbox c ∨ store.outboxEvents = w.store.outboxEvents) :
    Moves i c w { w with store := store, history := es.map (Prod.mk i) ++ w.history } where
  appended := Appended.of_eq rfl rfl
  ordered := fun h => h.congr rfl rfl
  history := ⟨es, h, hlen, rfl⟩
  outbox := hstore
  topic := .inr rfl
  resume := rfl
  consumer := fun _ _ => rfl

variable [DecidableEq ι]

/-- **Inversion of a call.** -/
lemma moves_of_handle {partitionCount : ℕ} {i : ι} {c : OutboxCall} {ω : StreamEnv}
    {v : Except OutboxFault c.Value} (h : handle partitionCount i c ω w = some (v, w')) :
    Moves i c w w' := by
  -- the calls that note at most one entry
  have noted {e : StreamEntry} {store : InMemoryMessageStore} (he : Notes c e)
      (hstore : WritesOutbox c ∨ store.outboxEvents = w.store.outboxEvents) :
      Moves i c w (({ w with store := store } : Stream ι).note i e) :=
    Moves.of_note [e] (by simpa using he) (.inl (by simp)) hstore
  have silent {store : InMemoryMessageStore}
      (hstore : WritesOutbox c ∨ store.outboxEvents = w.store.outboxEvents) :
      Moves i c w { w with store := store } :=
    Moves.of_note [] (by simp) (.inl (by simp)) hstore
  have quiet : Moves i c w w := silent (.inr rfl)
  cases c with
  | nowMs | findMessage | countUnprocessedOutboxEvents | record | connectTo
  | metadataPartitions | offsetFetchAll =>
    cases h
    exact quiet
  | markOutboxProcessed | insertMessage =>
    cases h
    exact silent (.inl trivial)
  | claimOutboxEvents =>
    cases h
    exact noted (by exact ⟨rfl, rfl⟩) (.inl trivial)
  | load =>
    cases h
    exact noted (by exact trivial) (.inr rfl)
  | duplicate r =>
    cases h
    exact noted (by exact rfl) (.inr rfl)
  | save s =>
    cases h
    exact { quiet with
      ordered := fun h => h.congr rfl rfl
      consumer := fun j hj => Function.update_of_ne (hj.resolve_right fun h => h s rfl) _ _ }
  | produce p gap value =>
    cases h
    exact { quiet with
      appended := appended_append w p gap value
      topic := .inl trivial
      ordered := fun h => h.append p gap value }
  | publish batch deadlineMs =>
    obtain ⟨⟨log, logEnd, heq⟩, happ, hord⟩ :=
      appendBatch_spec partitionCount w batch ω.appended
    simp only [handle] at h
    cases hp : ω.publish with
    | error e =>
      rw [hp] at h
      cases h
      refine ⟨happ, hord, ⟨[], by simp, .inl (by simp), ?_⟩, .inr ?_,
        .inl trivial, ?_, fun j _ => ?_⟩ <;>
        simp [heq]
    | ok outcomes =>
      rw [hp] at h
      cases h
      refine ⟨happ.trans (Appended.of_eq rfl rfl), fun h => (hord h).congr rfl rfl,
        ⟨[.published batch outcomes], by simp [Notes], .inl (by simp), ?_⟩, .inr ?_,
        .inl trivial, ?_, fun j _ => ?_⟩ <;>
      · rw [heq]
        rfl
  | listOffsets timestamp parts =>
    simp only [handle] at h
    split_ifs at h
    cases h
    exact quiet
  | fetchAll positions =>
    simp only [handle] at h
    split_ifs at h
    cases h
    exact noted (by exact rfl) (.inr rfl)
  | recordDeadLetter d =>
    simp only [handle] at h
    cases hd : ω.deadLetter with
    | some e =>
      rw [hd] at h
      cases h
      exact noted (by exact trivial) (.inr rfl)
    | none =>
      rw [hd] at h
      cases h
      refine noted (by exact rfl) (.inr ?_)
      unfold InMemoryMessageStore.recordDeadLetter
      split <;> rfl
  | handle r =>
    simp only [handle] at h
    cases hr : ω.handled with
    | ok d =>
      rw [hr] at h
      cases h
      exact noted (by exact rfl) (.inr rfl)
    | error e =>
      rw [hr] at h
      cases h
      exact noted (by exact trivial) (.inr rfl)
  | preCommitHook =>
    simp only [handle] at h
    cases hh : ω.hook <;>
    · rw [hh] at h
      cases h
      exact quiet
  | offsetCommitAll toCommit =>
    cases h
    obtain ⟨es, hes, heq⟩ := commit_spec w i toCommit ω.codes
    rw [heq]
    refine Moves.of_note es (fun e he => ?_) (.inr ⟨_, rfl⟩) (.inr rfl)
    obtain ⟨a, ha, rfl⟩ := hes e he
    exact ha

/-- What the others may do between two calls of a party. -/
structure Others (i : ι) (w w' : Stream ι) : Prop where
  appended : Appended w w'
  history : w.history <:+ w'.history
  entries : w'.entriesOf i = w.entriesOf i
  resume : w'.resume = w.resume
  consumer : w'.consumer i = w.consumer i

lemma Others.refl (i : ι) (w : Stream ι) : Others i w w :=
  ⟨Appended.refl w, List.suffix_refl _, rfl, rfl, rfl⟩

lemma Others.trans {i : ι} (h : Others i w w') (h' : Others i w' w'') : Others i w w'' where
  appended := h.appended.trans h'.appended
  history := h.history.trans h'.history
  entries := h'.entries.trans h.entries
  resume := h'.resume.trans h.resume
  consumer := h'.consumer.trans h.consumer

lemma Moves.others {i j : ι} {c : OutboxCall} (hij : i ≠ j) (h : Moves i c w w') :
    Others j w w' := by
  obtain ⟨es, -, -, hes⟩ := h.history
  exact ⟨h.appended, ⟨_, hes.symm⟩, entriesOf_of_history_of_ne hij hes, h.resume,
    h.consumer j (.inl (Ne.symm hij))⟩

end Stream

end MuduoChat
