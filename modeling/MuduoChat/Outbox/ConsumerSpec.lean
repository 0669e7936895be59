import MuduoChat.Outbox.Fetched

/-!
# A consumer keeps to its contract

A poll of a consumer, function by function.  What the consumer knows (`Stream.Polling`) lasts
while others are at work and while the consumer itself notes more entries, since all of it is
about what has happened and about the records before the end of a partition.
-/

namespace MuduoChat

open Std Prog OutboxCode

namespace Stream

variable {ι : Type} [DecidableEq ι] {i : ι} {w w' w'' : Stream ι} {K : KafkaEventConsumer}
  {s : ConsumerState}

/-- The party has noted more, and records have been added. -/
structure Grown (i : ι) (w w' : Stream ι) : Prop where
  appended : Appended w w'
  entries : w.entriesOf i <:+ w'.entriesOf i
  resume : w'.resume = w.resume

lemma Grown.trans (h : Grown i w w') (h' : Grown i w' w'') : Grown i w w'' :=
  ⟨h.appended.trans h'.appended, h.entries.trans h'.entries, h'.resume.trans h.resume⟩

lemma Others.grown (h : Others i w w') : Grown i w w' :=
  ⟨h.appended, by rw [h.entries], h.resume⟩

lemma Moves.grown {c : OutboxCall} (h : Moves i c w w') : Grown i w w' := by
  obtain ⟨es, -, -, hes⟩ := h.history
  exact ⟨h.appended, ⟨es, (entriesOf_of_history hes).symm⟩, h.resume⟩

/-- What a consumer knows after it has fetched. -/
structure Polling (K : KafkaEventConsumer) (i : ι) (w : Stream ι) (s : ConsumerState) : Prop where
  recalls : Recalls (w.entriesOf i) s
  assigned : s.assigned = true
  ready : Ready K w (w.entriesOf i) s

lemma Polling.grown (h : Polling K i w s) (hw : Grown i w w') : Polling K i w' s where
  recalls := h.recalls.mono hw.entries.subset
  assigned := h.assigned
  ready := fun p hp => (h.ready p hp).mono hw.appended hw.entries

lemma Polling.memory (h : Polling K i w s) : Memory K w (w.entriesOf i) s :=
  ⟨h.recalls, fun hs => absurd h.assigned (by simp [hs]), fun _ => h.ready⟩

lemma Polling.connection (h : Polling K i w s) (b : Bool) :
    Polling K i w { s with connected := b } :=
  ⟨⟨h.recalls.seen, h.recalls.last⟩, h.assigned, h.ready⟩

lemma entriesOf_note (w : Stream ι) (i : ι) (e : StreamEntry) :
    (w.note i e).entriesOf i = e :: w.entriesOf i := by
  have hhist : (w.note i e).history = [e].map (Prod.mk i) ++ w.history := rfl
  exact entriesOf_of_history hhist

omit [DecidableEq ι] in
lemma advance_cursor (s : ConsumerState) (capacity : ℕ) (r : ConsumedOutboxRecord)
    (d : ConsumeDisposition) :
    (s.advance capacity r d).assigned = s.assigned ∧
      (s.advance capacity r d).partitions = s.partitions ∧
      (s.advance capacity r d).cursor = s.cursor := by
  have hdrop (s : ConsumerState) : s.dropOldest.assigned = s.assigned ∧
      s.dropOldest.partitions = s.partitions ∧ s.dropOldest.cursor = s.cursor := by
    unfold ConsumerState.dropOldest
    split <;> exact ⟨rfl, rfl, rfl⟩
  have htouch (s : ConsumerState) (conversation : ℕ) :
      (s.touchConversation capacity conversation).assigned = s.assigned ∧
        (s.touchConversation capacity conversation).partitions = s.partitions ∧
        (s.touchConversation capacity conversation).cursor = s.cursor := by
    unfold ConsumerState.touchConversation
    split_ifs
    · exact ⟨rfl, rfl, rfl⟩
    · exact hdrop s
    · exact ⟨rfl, rfl, rfl⟩
  have hraise (s : ConsumerState) : (s.raiseLastSeen r).assigned = s.assigned ∧
      (s.raiseLastSeen r).partitions = s.partitions ∧ (s.raiseLastSeen r).cursor = s.cursor := by
    unfold ConsumerState.raiseLastSeen
    split
    · split_ifs <;> exact ⟨rfl, rfl, rfl⟩
    · exact ⟨rfl, rfl, rfl⟩
  unfold ConsumerState.advance
  split_ifs
  · rw [(hraise _).1, (hraise _).2.1, (hraise _).2.2]
    exact htouch s _
  · rw [(hraise _).1, (hraise _).2.1, (hraise _).2.2]
    exact htouch (s.addSeen r) _

lemma Polling.advance {r : ConsumedOutboxRecord} {d : ConsumeDisposition}
    (h : Polling K i w s) (hr : .handled r d ∈ w.entriesOf i) {capacity : ℕ} :
    Polling K i w (s.advance capacity r d) := by
  obtain ⟨hassigned, hparts, hcursor⟩ := advance_cursor s capacity r d
  refine ⟨h.recalls.advance capacity hr, hassigned.trans h.assigned, fun p hp => ?_⟩
  have hpos : KafkaEventConsumer.position (s.advance capacity r d) p =
      KafkaEventConsumer.position s p := by
    simp only [KafkaEventConsumer.position, hcursor]
  rw [hpos]
  exact h.ready p (hparts ▸ hp)

lemma unaborted_cons {e : StreamEntry} {es : List StreamEntry} (h : Unaborted es)
    (he : e ≠ .aborted) : Unaborted (e :: es) := by
  by_cases hb : e = .began
  · simp [Unaborted, hb]
  · simpa [Unaborted, hb, he.symm] using h

end Stream

namespace KafkaEventConsumer

open MuduoChat.Stream StreamSetup

variable {ι : Type} [DecidableEq ι] {T : StreamSetup ι} {i : ι} {w : Stream ι}
  {s : ConsumerState} {raw : FetchedRecord} {raws : List FetchedRecord}

/-! ### One record -/

/-- What is known after a record has been dealt with. -/
def Processed (K : KafkaEventConsumer) (i : ι) (w : Stream ι) (raw : FetchedRecord)
    (d : ConsumedOutboxRecord × ConsumeDisposition) : Prop :=
  d.1.partition = raw.partition ∧ d.1.offset = raw.offset ∧
    (∃ e ∈ w.entriesOf i, K.Disposes raw e) ∧ Unaborted (w.entriesOf i)

lemma processRecord_spec (hs : Polling (T.consumer i) i w s)
    (hreach : Reached (T.consumer i) w (w.entriesOf i) raw) (hun : Unaborted (w.entriesOf i)) :
    ((T.consumer i).processRecord s raw).Sat (T.contract i) (Returns fun a w' =>
      Grown i w w' ∧ Polling (T.consumer i) i w' a.2 ∧
        ∀ d, a.1 = some d → Processed (T.consumer i) i w' raw d) w := by
  -- what is known when the batch is given up
  have gaveUp {w1 : Stream ι} (h1 : Grown i w w1) : (pure (none, s) : OutboxCode _).Sat
      (T.contract i) (Returns fun a w' => Grown i w w' ∧ Polling (T.consumer i) i w' a.2 ∧
        ∀ d, a.1 = some d → Processed (T.consumer i) i w' raw d) w1 :=
    fun w2 h2 _ => ⟨h1.trans h2.grown, hs.grown (h1.trans h2.grown), by simp⟩
  -- what is known at the time of the call
  have before {w1 : Stream ι} (h1 : Others i w w1) :
      Recalls (w1.entriesOf i) s ∧ Reached (T.consumer i) w1 (w1.entriesOf i) raw ∧
        Unaborted (w1.entriesOf i) := by
    rw [h1.entries]
    exact ⟨hs.recalls, hreach.mono h1.appended, hun⟩
  unfold processRecord
  cases hc : (T.consumer i).classify s raw with
  | reject r reason =>
    obtain ⟨hp, ho, hlast⟩ := classify_reject hc
    refine Sat.tryCatch (Others.refl i) (Sat.ask_bind fun w1 h1 hi1 =>
      ⟨⟨fun e he => ?_, by rintro _ _ ⟨⟩, by rintro _ _ _ _ ⟨⟩⟩, fun ω v w2 hv => ?_⟩)
    · obtain ⟨hrec, hreach1, -⟩ := before h1
      cases e with
      | rejected d =>
        obtain rfl : d = _ := he
        refine ⟨raw, r, reason, hreach1, rfl, hp, ho, fun env henv hevent => ?_⟩
        obtain ⟨q, m, hq, hle⟩ := hlast env henv hevent
        exact (hrec.last _ q m hq).mono (List.Subset.refl _) fun r' hr' =>
          ⟨hr'.1, hr'.2 ▸ hle⟩
      | aborted => trivial
      | _ => exact he.elim
    · have hgrown := h1.grown.trans (contract_moves hv).grown
      have hv : Stream.handle T.partitionCount i
        (.recordDeadLetter (deadLetter r reason raw.value)) ω w1 = some (v, w2) := hv
      simp only [Stream.handle] at hv
      cases hd : ω.deadLetter with
      | some e =>
        rw [hd] at hv
        cases hv
        exact fun w3 h3 _ => gaveUp (hgrown.trans h3.grown)
      | none =>
        rw [hd] at hv
        cases hv
        intro w3 h3 _
        refine ⟨hgrown.trans h3.grown, hs.grown (hgrown.trans h3.grown), ?_⟩
        rintro d ⟨⟩
        rw [Processed, h3.entries, entriesOf_note]
        exact ⟨hp, ho, ⟨_, List.mem_cons_self, hp, ho, rfl⟩,
          unaborted_cons (before h1).2.2 (by simp)⟩
  | duplicate r =>
    obtain ⟨env, henv, hr, hseen⟩ := classify_duplicate hc
    refine Sat.ask_bind fun w1 h1 hi1 =>
      ⟨⟨fun e he => ?_, by rintro _ _ ⟨⟩, by rintro _ _ _ _ ⟨⟩⟩, fun ω v w2 hv => ?_⟩
    · obtain ⟨hrec, hreach1, -⟩ := before h1
      cases e with
      | seen r' =>
        obtain rfl : r' = r := he
        exact ⟨raw, env, hreach1, henv, hr, hrec.seen _ hseen⟩
      | _ => exact he.elim
    · have hgrown := h1.grown.trans (contract_moves hv).grown
      cases hv
      intro w3 h3 _
      refine ⟨hgrown.trans h3.grown, hs.grown (hgrown.trans h3.grown), ?_⟩
      rintro d ⟨⟩
      rw [Processed, h3.entries, entriesOf_note]
      exact ⟨by rw [hr]; rfl, by rw [hr]; rfl, ⟨_, List.mem_cons_self, env, henv, hr⟩,
        unaborted_cons (before h1).2.2 (by simp)⟩
  | handle r =>
    obtain ⟨env, henv, hr⟩ := classify_handle hc
    refine Sat.tryCatch (Others.refl i) (Sat.ask_bind fun w1 h1 hi1 =>
      ⟨⟨fun e he => ?_, by rintro _ _ ⟨⟩, by rintro _ _ _ _ ⟨⟩⟩, fun ω v w2 hv => ?_⟩)
    · cases e with
      | handled r' d =>
        obtain rfl : r' = r := he
        exact ⟨raw, env, (before h1).2.1, henv, hr⟩
      | aborted => trivial
      | _ => exact he.elim
    · have hgrown := h1.grown.trans (contract_moves hv).grown
      have hv : Stream.handle T.partitionCount i (.handle r) ω w1 = some (v, w2) := hv
      simp only [Stream.handle] at hv
      cases hd : ω.handled with
      | error e =>
        rw [hd] at hv
        cases hv
        exact fun w3 h3 _ => gaveUp (hgrown.trans h3.grown)
      | ok d =>
        rw [hd] at hv
        cases hv
        intro w3 h3 _
        have hnote : w3.entriesOf i = .handled r d :: w1.entriesOf i := by
          rw [h3.entries, entriesOf_note]
        refine ⟨hgrown.trans h3.grown, ?_, ?_⟩
        · exact (hs.grown (hgrown.trans h3.grown)).advance (by simp [hnote])
        · rintro d' ⟨⟩
          rw [Processed, hnote]
          exact ⟨by rw [hr]; rfl, by rw [hr]; rfl, ⟨_, List.mem_cons_self, env, henv, hr⟩,
            unaborted_cons (before h1).2.2 (by simp)⟩

/-! ### One batch -/

/-- What is known in the middle of a batch: the records that have been dealt with, and those
that are still to come. -/
structure Batch (K : KafkaEventConsumer) (i : ι) (w : Stream ι) (s : ConsumerState)
    (done : Disposed) (taken rest : List FetchedRecord) : Prop where
  polling : Polling K i w s
  fetched : Fetched K w (w.entriesOf i) (taken ++ rest)
  dealt : List.Forall₂ (fun d raw => d.1.partition = raw.partition ∧ d.1.offset = raw.offset)
    done taken
  disposed : ∀ x ∈ taken, ∃ e ∈ w.entriesOf i, K.Disposes x e
  unaborted : Unaborted (w.entriesOf i)

variable {K : KafkaEventConsumer} {done : Disposed} {rest taken : List FetchedRecord}
  {w' : Stream ι}

lemma Batch.others
    (h : Batch K i w s done taken rest) (hord : w.Ordered) (hw : Others i w w') :
    Batch K i w' s done taken rest := by
  refine ⟨h.polling.grown hw.grown, h.fetched.mono hord hw.appended hw.grown.entries, h.dealt,
    ?_, ?_⟩ <;> rw [hw.entries]
  · exact h.disposed
  · exact h.unaborted

lemma processAll_spec (hi : T.Inv w)
    (h : Batch (T.consumer i) i w s done taken rest) :
    ((T.consumer i).processAll s done rest).Sat (T.contract i) (Returns fun a w' =>
      Polling (T.consumer i) i w' a.2.2 ∧
        (a.1 = false → ∃ taken' rest', Batch (T.consumer i) i w' a.2.2 a.2.1 taken' rest')) w := by
  induction rest generalizing s done taken w with
  | nil =>
    exact fun w1 h1 _ => ⟨h.polling.grown h1.grown,
      fun _ => ⟨taken, [], h.others hi.ordered h1⟩⟩
  | cons raw rest ih =>
    refine Sat.ite (fun _ => ?_) fun _ => ?_
    · have hreach := h.fetched.reached hi.ordered h.disposed
      refine Sat.returns_bind (Others.refl i) (processRecord_spec h.polling hreach h.unaborted) ?_
      rintro ⟨outcome, s1⟩ w1 hi1 ⟨hgrown, hpoll, hdone⟩
      cases outcome with
      | none => exact fun w2 h2 _ => ⟨hpoll.grown h2.grown, by simp⟩
      | some d =>
        obtain ⟨hp, ho, hdisp, hun⟩ := hdone d rfl
        have hnext : Batch (T.consumer i) i w1 s1 (done ++ [d]) (taken ++ [raw]) rest := by
          refine ⟨hpoll, ?_, ?_, ?_, hun⟩
          · rw [List.append_assoc, List.singleton_append]
            exact h.fetched.mono hi.ordered hgrown.appended hgrown.entries
          · exact List.rel_append h.dealt (List.Forall₂.cons ⟨hp, ho⟩ .nil)
          · intro x hx
            rcases List.mem_append.1 hx with hx | hx
            · obtain ⟨e, he, hd⟩ := h.disposed x hx
              exact ⟨e, hgrown.entries.subset he, hd⟩
            · obtain rfl := List.mem_singleton.1 hx
              exact hdisp
        exact ih hi1 hnext
    · exact fun w1 h1 _ => ⟨h.polling.grown h1.grown,
        fun _ => ⟨taken, raw :: rest, h.others hi.ordered h1⟩⟩

/-! ### The commit -/

lemma mem_toCommit {p c : ℤ} (h : (toCommit done)[p]? = some c) :
    ∃ d ∈ done, d.1.partition = p ∧ c = d.1.offset + 1 := by
  suffices hall : ∀ p c, (toCommit done)[p]? = some c →
      ∃ d ∈ done, d.1.partition = p ∧ c = d.1.offset + 1 from hall p c h
  unfold toCommit
  refine List.foldlRecOn (motive := fun m : TreeMap ℤ ℤ => ∀ p c : ℤ, m[p]? = some c →
    ∃ d ∈ done, d.1.partition = p ∧ c = d.1.offset + 1) done _ ?_ ?_
  · simp
  intro m hm d hd p c hpc
  have hins (hpc : (m.insert d.1.partition (d.1.offset + 1))[p]? = some c) :
      ∃ d ∈ done, d.1.partition = p ∧ c = d.1.offset + 1 := by
    rw [OrderedMap.getElem?_insert] at hpc
    split_ifs at hpc with hp
    · exact ⟨d, hd, hp, (Option.some.inj hpc).symm⟩
    · exact hm p c hpc
  simp only [raiseCommit] at hpc
  split at hpc
  · split_ifs at hpc
    · exact hins hpc
    · exact hm p c hpc
  · exact hins hpc

lemma mem_committedOk {tc : TreeMap ℤ ℤ} {answer : List (ℤ × ℤ)} {p c : ℤ}
    (h : (committedOk tc answer)[p]? = some c) : tc[p]? = some c := by
  suffices hall : ∀ p c, (committedOk tc answer)[p]? = some c → tc[p]? = some c from hall p c h
  unfold committedOk
  refine List.foldlRecOn (motive := fun m : TreeMap ℤ ℤ => ∀ p c : ℤ, m[p]? = some c →
    tc[p]? = some c) answer _ ?_ ?_
  · simp
  intro m hm a _ p c hpc
  split at hpc
  case h_1 c' hc' =>
    split_ifs at hpc
    · rw [OrderedMap.getElem?_insert] at hpc
      split_ifs at hpc with hp
      · rw [← hp, hc', hpc]
      · exact hm p c hpc
    · exact hm p c hpc
  · exact hm p c hpc

lemma position_moveCursors (s : ConsumerState) (committed : TreeMap ℤ ℤ) (p : ℤ) :
    position { s with cursor := committed.foldl (fun m p c => m.insert p c) s.cursor } p =
        position s p ∨
      committed[p]? =
        some (position { s with cursor := committed.foldl (fun m p c => m.insert p c) s.cursor } p) := by
  simp only [position, TreeMap.foldl_eq_foldl_toList]
  refine List.foldlRecOn (motive := fun m : TreeMap ℤ ℤ => m[p]?.getD 0 = s.cursor[p]?.getD 0 ∨
    committed[p]? = some (m[p]?.getD 0)) committed.toList _ (.inl rfl) ?_
  rintro m hm ⟨q, c⟩ hmem
  rw [OrderedMap.getElem?_insert]
  split_ifs with hp
  · exact .inr (hp ▸ OrderedMap.mem_toList.1 hmem)
  · exact hm

lemma commitBatch_spec (hi : T.Inv w)
    (h : Batch (T.consumer i) i w s done taken rest) :
    (commitBatch s done).Sat (T.contract i)
      (Returns fun a w' => Polling (T.consumer i) i w' a.2) w := by
  -- the partitions are covered up to the offsets that are to be committed
  have hcover {w1 : Stream ι} (hi1 : T.Inv w1) (h1 : Others i w w1) {p c : ℤ}
      (hc : (toCommit done)[p]? = some c) :
      CoversTo (T.consumer i) w1 (w1.entriesOf i) p c ∧ c ≤ w1.logEnd p := by
    obtain ⟨d, hd, rfl, rfl⟩ := mem_toCommit hc
    obtain ⟨raw, hraw, hp, ho⟩ : ∃ raw ∈ taken, d.1.partition = raw.partition ∧
        d.1.offset = raw.offset := by
      obtain ⟨k, hk, rfl⟩ := List.getElem_of_mem hd
      have hlen := h.dealt.length_eq
      exact ⟨taken[k], List.getElem_mem _, h.dealt.get hk (by omega)⟩
    have hb := h.others hi.ordered h1
    rw [hp, ho]
    exact hb.fetched.covers_succ hi1.ordered (List.prefix_append _ _) hb.disposed hraw
  refine Sat.ask_bind fun w1 h1 hi1 => ⟨⟨fun e he => ?_, by rintro _ _ ⟨⟩, by rintro _ _ _ _ ⟨⟩⟩, fun ω v w2 hv => ?_⟩
  · cases e with
    | committed p c =>
      obtain ⟨hcov, hend⟩ := hcover hi1 h1 (OrderedMap.mem_toList.1 he)
      exact ⟨hend, hcov, (h.others hi.ordered h1).unaborted⟩
    | _ => exact he.elim
  · have hgrown := (contract_moves hv).grown
    have hpoll := (h.polling.grown h1.grown).grown hgrown
    cases hv
    cases ω.fate with
    | refused => exact fun w3 h3 _ => hpoll.grown h3.grown
    | closed => exact fun w3 h3 _ => (hpoll.grown h3.grown).connection false
    | ok =>
      intro w3 h3 _
      have hpoll := hpoll.grown h3.grown
      refine ⟨⟨hpoll.recalls.seen, hpoll.recalls.last⟩, hpoll.assigned, fun p hp => ?_⟩
      rcases position_moveCursors s (committedOk (toCommit done) ω.codes) p with heq | hc
      · rw [heq]
        exact hpoll.ready p hp
      · have hg := hgrown.trans h3.grown
        exact (hcover hi1 h1 (mem_committedOk hc)).1.mono hg.appended hg.entries

lemma consume_spec (hi : T.Inv w) (h : Batch (T.consumer i) i w s [] [] raws) :
    ((T.consumer i).consume s raws).Sat (T.contract i)
      (Returns fun a w' => Polling (T.consumer i) i w' a.2) w := by
  -- the hook changes nothing, whether it throws or not
  have hhook (w : Stream ι) : (catchAll (do
      ask .preCommitHook
      pure true) (pure false) : OutboxCode Bool).Sat (T.contract i)
      (Returns fun _ w' => Others i w w') w := by
    refine Sat.tryCatch (Others.refl i) (Sat.ask_bind fun w1 h1 _ =>
      ⟨Allow.of_free trivial, fun ω v w2 hv => ?_⟩)
    have hv : Stream.handle T.partitionCount i .preCommitHook ω w1 = some (v, w2) := hv
    simp only [Stream.handle] at hv
    cases hd : ω.hook with
    | some e =>
      rw [hd] at hv
      cases hv
      exact fun w3 h3 _ w4 h4 _ => h1.trans (h3.trans h4)
    | none =>
      rw [hd] at hv
      cases hv
      exact fun w3 h3 _ => h1.trans h3
  refine Sat.returns_bind (Others.refl i) (processAll_spec hi h) ?_
  rintro ⟨aborted, done, s1⟩ w1 hi1 ⟨hpoll, hbatch⟩
  have hend : ∀ r : OutboxConsumeResult, (pure (r, s1) : OutboxCode _).Sat (T.contract i)
      (Returns fun a w' => Polling (T.consumer i) i w' a.2) w1 :=
    fun r w2 h2 _ => hpoll.grown h2.grown
  refine Sat.ite (fun _ => hend _) fun haborted => Sat.ite (fun _ => hend _) fun _ => ?_
  obtain ⟨taken, rest, hbatch⟩ := hbatch (by simpa using haborted)
  refine Sat.returns_bind (Others.refl i) (hhook w1) fun goOn w2 hi2 h2 => ?_
  refine Sat.ite (fun _ => commitBatch_spec hi2 (hbatch.others hi1.ordered h2)) fun _ => ?_
  exact fun w3 h3 _ => hpoll.grown (h2.trans h3).grown

/-! ### Fetching -/

/-- What a consumer knows when it is about to fetch.  If it has not fetched before, its cursors
are where the partitions are to be read first. -/
structure Fetching (K : KafkaEventConsumer) (i : ι) (w : Stream ι) (s : ConsumerState) : Prop where
  recalls : Recalls (w.entriesOf i) s
  assigned : s.assigned = true
  ready : Ready K w (w.entriesOf i) s ∨ firstPositions (w.entriesOf i) = none ∧
    ∀ p ∈ s.partitions, Start w i p (position s p)
  unaborted : Unaborted (w.entriesOf i)

lemma Fetching.others (h : Fetching K i w s)
    (hw : Others i w w') : Fetching K i w' s := by
  refine ⟨?_, h.assigned, ?_, ?_⟩ <;> rw [hw.entries]
  · exact h.recalls
  · refine h.ready.imp (fun hr p hp => (hr p hp).mono hw.appended (List.suffix_refl _)) ?_
    exact fun ⟨hnone, hst⟩ => ⟨hnone, fun p hp => (hst p hp).mono hw.appended hw.resume⟩
  · exact h.unaborted

lemma Fetching.justified (h : Fetching K i w s) :
    Justified K w i (w.entriesOf i) (.fetched (s.partitions.map fun p => (p, position s p))) := by
  intro hfirst a ha
  obtain ⟨p, hp, rfl⟩ := List.mem_map.1 ha
  rcases h.ready with hready | ⟨-, hst⟩
  · obtain ⟨f, hf, -⟩ := hready p hp
    simp [firstCursor, hfirst] at hf
  · exact hst p hp

lemma Fetching.polling (h : Fetching K i w s) :
    Polling K i (w.note i (.fetched (s.partitions.map fun p => (p, position s p)))) s := by
  refine ⟨?_, h.assigned, fun p hp => ?_⟩ <;> rw [entriesOf_note]
  · exact h.recalls.mono (List.subset_cons_self _ _)
  · rcases h.ready with hready | ⟨hnone, -⟩
    · exact (hready p hp).mono (Appended.of_eq rfl rfl) (List.suffix_cons _ _)
    · refine ⟨position s p, ?_, Covers.start _ _ _ _ _⟩
      simp only [firstCursor, firstPositions, hnone, Option.none_or, Option.bind_some]
      exact List.lookup_graph (position s) hp

lemma fetchFrom_spec (h : Fetching (T.consumer i) i w s) :
    (fetchFrom s).Sat (T.contract i) (Returns fun a w' => Polling (T.consumer i) i w' a.2 ∧
      ∀ fetched, a.1 = some fetched → Batch (T.consumer i) i w' a.2 [] [] fetched.1) w := by
  refine Sat.ask_bind fun w1 h1 hi1 => ⟨⟨fun e he => ?_, by rintro _ _ ⟨⟩, by rintro _ _ _ _ ⟨⟩⟩, fun ω v w2 hv => ?_⟩
  · cases e with
    | fetched positions =>
      obtain rfl : positions = _ := he
      exact (h.others h1).justified
    | _ => exact he.elim
  · have hv : Stream.handle T.partitionCount i
      (.fetchAll (s.partitions.map fun p => (p, position s p))) ω w1 = some (v, w2) := hv
    simp only [Stream.handle] at hv
    split_ifs at hv with hok
    cases hv
    have hf := h.others h1
    have hpoll := hf.polling
    have hclosed : ∀ w3, Others i _ w3 →
        Polling (T.consumer i) i w3 { s with connected := false } :=
      fun w3 h3 => (hpoll.grown h3.grown).connection false
    cases ω.fate with
    | refused | closed => exact fun w3 h3 _ => ⟨hclosed w3 h3, by simp⟩
    | ok =>
      dsimp only [RpcFate.answer, settle]
      cases hg : gather ω.response with
      | none => exact fun w3 h3 _ => ⟨hclosed w3 h3, by simp⟩
      | some fetched =>
        intro w3 h3 _
        refine ⟨hpoll.grown h3.grown, ?_⟩
        rintro _ ⟨⟩
        have hbatch : Batch (T.consumer i) i
            (w1.note i (.fetched (s.partitions.map fun p => (p, position s p)))) s [] []
            fetched.1 := by
          refine ⟨hpoll, fun raw hraw => ?_, .nil, by simp, ?_⟩
          · obtain ⟨a, ha, hp, hrun⟩ := hok fetched.1 (by simp [hg]) raw (by simpa using hraw)
            obtain ⟨p, hpart, rfl⟩ := List.mem_map.1 ha
            obtain rfl : p = raw.partition := hp
            exact ⟨_, hpoll.ready _ hpart, hrun⟩
          · rw [entriesOf_note]
            exact unaborted_cons hf.unaborted (by simp)
        exact hbatch.others (hi1.ordered.congr rfl rfl) h3

omit [DecidableEq ι] in
lemma earliest_spec {offsets : List (ℤ × ℤ)} (h : w.earliestOk offsets = true) (p : ℤ) :
    (TreeMap.ofList offsets : TreeMap ℤ ℤ)[p]?.getD 0 ≤ w.logEnd p ∧
      ∀ r ∈ w.log p, (TreeMap.ofList offsets : TreeMap ℤ ℤ)[p]?.getD 0 ≤ r.offset := by
  cases hp : (TreeMap.ofList offsets : TreeMap ℤ ℤ)[p]? with
  | none => exact ⟨by simp, by simp⟩
  | some c =>
    have hmem := OrderedMap.mem_of_getElem?_ofList hp
    have hok := List.all_eq_true.1 h _ hmem
    simpa using hok

lemma rewind_spec {parts : List ℤ} (hi : T.Inv w)
    (h : Batch (T.consumer i) i w s [] [] raws) :
    (rewind s parts).Sat (T.contract i)
      (Returns fun a w' => Batch (T.consumer i) i w' a.2 [] [] raws) w := by
  induction parts generalizing s w with
  | nil => exact fun w1 h1 _ => h.others hi.ordered h1
  | cons p parts ih =>
    refine Sat.ask_bind fun w1 h1 hi1 => ⟨Allow.of_free trivial, fun ω v w2 hv => ?_⟩
    have hv : Stream.handle T.partitionCount i (.listOffsets (-2) [p]) ω w1 = some (v, w2) := hv
    simp only [Stream.handle] at hv
    split_ifs at hv with hok
    cases hv
    have hb := h.others hi.ordered h1
    cases ω.fate with
    | refused => exact fun w3 h3 _ => hb.others hi1.ordered h3
    | closed =>
      intro w3 h3 _
      have hb := hb.others hi1.ordered h3
      exact ⟨hb.polling.connection false, hb.fetched, hb.dealt, hb.disposed, hb.unaborted⟩
    | ok =>
      refine ih hi1 ⟨⟨⟨hb.polling.recalls.seen, hb.polling.recalls.last⟩, hb.polling.assigned, ?_⟩,
        hb.fetched, hb.dealt, hb.disposed, hb.unaborted⟩
      intro q hq
      obtain ⟨f, hf, hcov⟩ := hb.polling.ready q hq
      simp only [position, OrderedMap.getElem?_insert]
      split_ifs with hpq
      · subst hpq
        obtain ⟨hend, hlog⟩ := earliest_spec (by simpa using hok) p
        exact ⟨f, hf, Covers.of_beginning hend hlog⟩
      · exact ⟨f, hf, hcov⟩

/-! ### The first poll -/

/-- What a consumer knows that has not been assigned its partitions. -/
structure Unassigned (i : ι) (w : Stream ι) (s : ConsumerState) : Prop where
  recalls : Recalls (w.entriesOf i) s
  assigned : s.assigned = false
  first : firstPositions (w.entriesOf i) = none
  unaborted : Unaborted (w.entriesOf i)

lemma Unassigned.others (h : Unassigned i w s) (hw : Others i w w') :
    Unassigned i w' s := by
  refine ⟨?_, h.assigned, ?_, ?_⟩ <;> rw [hw.entries]
  exacts [h.recalls, h.first, h.unaborted]

lemma Unassigned.memory (h : Unassigned i w s) :
    Memory K w (w.entriesOf i) s :=
  ⟨h.recalls, fun _ => h.first, fun hs => absurd h.assigned (by simp [hs])⟩

lemma Unassigned.update (h : Unassigned i w s) (b : Bool) (parts : List ℤ) :
    Unassigned i w { s with connected := b, partitions := parts } :=
  ⟨⟨h.recalls.seen, h.recalls.last⟩, h.assigned, h.first, h.unaborted⟩

/-- Nothing has been committed before the first fetch, so the offsets that are answered are
those of the beginning. -/
lemma resume_of_committedOffsets {parts failing : List ℤ} {p off : ℤ} (hi : T.Inv w)
    (hfirst : firstPositions (w.entriesOf i) = none)
    (h : (committedOffsets (w.offsetsOf i parts failing))[p]? = some off) (hoff : 0 ≤ off) :
    w.resume i p = some off := by
  have hnone : (w.entriesOf i).findSome? (StreamEntry.commitOf p) = none := by
    refine List.findSome?_eq_none_iff.2 fun e he => ?_
    cases e with
    | committed q c =>
      -- an entry for a commit would be justified by a fetch before it
      obtain ⟨newer, older, hsplit⟩ := List.append_of_mem he
      have hrec := hi.recorded i
      rw [hsplit] at hrec hfirst
      obtain ⟨-, ⟨f, hf, -⟩, -⟩ := hrec.justified
      obtain ⟨positions, hpos, -⟩ := Option.bind_eq_some_iff.1 hf
      have hsome := firstPositions_append (newer ++ [.committed q c]) hpos
      rw [List.append_assoc, List.singleton_append, hfirst] at hsome
      cases hsome
    | _ => rfl
  obtain ⟨a, ha, heq⟩ := List.mem_map.1 (OrderedMap.mem_of_getElem?_ofList h)
  obtain ⟨q, -, rfl⟩ := List.mem_map.1 ha
  obtain ⟨rfl, hval⟩ := Prod.mk.inj heq
  simp only [committedOffset, hnone, Option.none_or] at hval
  by_cases hq : q ∈ failing
  · have hval : -1 = off := by simpa [hq] using hval
    omega
  · have hval : (w.resume i q).getD (-1) = off := by simpa [hq] using hval
    cases hres : w.resume i q with
    | some c => simpa [hres] using hval
    | none =>
      rw [hres, Option.getD_none] at hval
      omega

variable {committed earliest latest : TreeMap ℤ ℤ}

omit [DecidableEq ι] in
lemma startAt_spec {p : ℤ}
    (hcommitted : ∀ off, committed[p]? = some off → 0 ≤ off → w.resume i p = some off)
    (hearliest : earliest[p]?.getD 0 ≤ w.logEnd p ∧ ∀ r ∈ w.log p, earliest[p]?.getD 0 ≤ r.offset) :
    Start w i p (startAt committed earliest latest p).1 := by
  have hfirst : Start w i p (earliest[p]?.getD 0) := .inr hearliest
  have hresume (hoff : ¬ committed[p]?.getD (-1) < 0) :
      Start w i p (committed[p]?.getD (-1)) := by
    cases hc : committed[p]? with
    | none => simp [hc] at hoff
    | some off => exact .inl (hcommitted off hc (by simpa [hc] using hoff))
  unfold startAt
  simp only
  split_ifs with hoff
  · exact hfirst
  · split
    · split_ifs
      · exact hfirst
      · exact hresume hoff
    · exact hresume hoff

lemma position_restore {p : ℤ}
    (hp : p ∈ s.partitions) :
    position (restore s committed earliest latest) p =
      (startAt committed earliest latest p).1 := by
  have hfold : ∀ (parts : List ℤ) (m : TreeMap ℤ ℤ), p ∈ parts ∨
      m[p]? = some (startAt committed earliest latest p).1 →
      ((parts.map fun p => (p, startAt committed earliest latest p)).foldl
        (fun m a => m.insert a.1 a.2.1) m)[p]? = some (startAt committed earliest latest p).1 := by
    intro parts
    induction parts with
    | nil => exact fun m h => h.resolve_left (by simp)
    | cons q parts ih =>
      intro m h
      refine ih _ ?_
      by_cases hq : q = p
      · subst hq
        exact .inr (OrderedMap.getElem?_insert_self _ _ _)
      · rcases h with h | h
        · exact .inl ((List.mem_cons.1 h).resolve_left (Ne.symm hq))
        · exact .inr ((OrderedMap.getElem?_insert_of_ne _ _ hq).trans h)
  simp only [position, restore, hfold s.partitions s.cursor (.inl hp), Option.getD_some]

lemma Unassigned.fetching
    (h : Unassigned i w s)
    (hstart : ∀ p ∈ s.partitions, Start w i p (startAt committed earliest latest p).1) :
    Fetching K i w (restore s committed earliest latest) := by
  refine ⟨⟨h.recalls.seen, h.recalls.last⟩, rfl, .inr ⟨h.first, fun p hp => ?_⟩, h.unaborted⟩
  have hp : p ∈ s.partitions := hp
  rw [position_restore hp]
  exact hstart p hp

/-- The answer of the assignment: it has failed, or the consumer can fetch. -/
def Assigned (K : KafkaEventConsumer) (i : ι) (a : Bool × ConsumerState) (w : Stream ι) : Prop :=
  (a.1 = false → Memory K w (w.entriesOf i) a.2) ∧ (a.1 = true → Fetching K i w a.2)

lemma unanswered_spec (h : Unassigned i w s) :
    (pure (false, s) : OutboxCode _).Sat (T.contract i) (Returns (Assigned (T.consumer i) i)) w :=
  fun w1 h1 _ => ⟨fun _ => (h.others h1).memory, by simp⟩

lemma findStarts_spec (h : Unassigned i w s)
    (hresume : ∀ p off, committed[p]? = some off → 0 ≤ off → w.resume i p = some off) :
    (findStarts s committed).Sat (T.contract i) (Returns (Assigned (T.consumer i) i)) w := by
  refine Sat.ask_bind fun w1 h1 _ => ⟨Allow.of_free trivial, fun ω1 v w1' hv => ?_⟩
  have hv : Stream.handle T.partitionCount i (.listOffsets (-2) s.partitions) ω1 w1 =
    some (v, w1') := hv
  simp only [Stream.handle] at hv
  split_ifs at hv with hok
  cases hv
  have hu1 := h.others h1
  cases ω1.fate with
  | refused => exact unanswered_spec hu1
  | closed => exact unanswered_spec (hu1.update false s.partitions)
  | ok =>
    -- wherever the partitions are read first, it is at a place where they may be
    have hstart (latest : TreeMap ℤ ℤ) {w2 : Stream ι} (h2 : Others i w1 w2) (p : ℤ) :
        Start w2 i p (startAt committed (.ofList ω1.offsets) latest p).1 := by
      refine Start.mono (startAt_spec (fun off hp hoff => ?_) ?_) h2.appended h2.resume
      · rw [h1.resume]
        exact hresume p off hp hoff
      · exact earliest_spec (by simpa using hok) p
    have hend (latest : TreeMap ℤ ℤ) {w2 : Stream ι} (h2 : Others i w1 w2) :
        (pure (true, restore s committed (.ofList ω1.offsets) latest) : OutboxCode _).Sat
          (T.contract i) (Returns (Assigned (T.consumer i) i)) w2 := by
      intro w3 h3 _
      have hu3 := hu1.others (h2.trans h3)
      exact ⟨by simp, fun _ => hu3.fetching fun p _ => hstart latest (h2.trans h3) p⟩
    refine Sat.ite (fun _ => ?_) fun _ => hend ∅ (Others.refl i w1)
    refine Sat.ask_bind fun w2 h2 _ => ⟨Allow.of_free trivial, fun ω2 v w2' hv => ?_⟩
    have hv : Stream.handle T.partitionCount i (.listOffsets (-1) s.partitions) ω2 w2 =
      some (v, w2') := hv
    simp only [Stream.handle] at hv
    split_ifs at hv
    cases hv
    cases ω2.fate with
    | refused => exact unanswered_spec (hu1.others h2)
    | closed => exact unanswered_spec ((hu1.others h2).update false s.partitions)
    | ok => exact hend _ h2

lemma assign_spec (h : Unassigned i w s) :
    (assign s).Sat (T.contract i) (Returns (Assigned (T.consumer i) i)) w := by
  refine Sat.ask_bind fun w1 h1 _ => ⟨Allow.of_free trivial, fun ω1 v _ hv => ?_⟩
  cases hv
  have hu1 := (h.others h1).update
  cases ω1.fate with
  | refused => exact unanswered_spec (h.others h1)
  | closed => exact unanswered_spec (hu1 false s.partitions)
  | ok =>
    refine Sat.ask_bind fun w2 h2 hi2 => ⟨Allow.of_free trivial, fun ω2 v _ hv => ?_⟩
    cases hv
    have hu2 := (hu1 s.connected ω1.partitions).others h2
    cases ω2.fate with
    | refused => exact unanswered_spec hu2
    | closed => exact unanswered_spec (hu2.update false ω1.partitions)
    | ok =>
      -- the offsets that have been committed are those of the beginning
      refine findStarts_spec hu2 fun p off hp hoff => ?_
      exact resume_of_committedOffsets hi2 hu2.first hp hoff

/-! ### The poll -/

/-- What a consumer knows at the beginning of a poll. -/
structure Loaded (K : KafkaEventConsumer) (i : ι) (w : Stream ι) (s : ConsumerState) : Prop where
  memory : Memory K w (w.entriesOf i) s
  unaborted : Unaborted (w.entriesOf i)

lemma memory_others
    (h : Memory K w (w.entriesOf i) s) (hw : Others i w w') :
    Memory K w' (w'.entriesOf i) s := by
  have hnone : Fetchless [] := fun _ => List.not_mem_nil
  rw [hw.entries]
  exact h.mono hw.appended hnone

lemma Loaded.others (h : Loaded K i w s)
    (hw : Others i w w') : Loaded K i w' s :=
  ⟨memory_others h.memory hw, by rw [hw.entries]; exact h.unaborted⟩

lemma Loaded.connection (h : Loaded K i w s) (b : Bool) :
    Loaded K i w { s with connected := b } :=
  ⟨⟨⟨h.memory.recalls.seen, h.memory.recalls.last⟩, h.memory.fresh, h.memory.ready⟩, h.unaborted⟩

lemma connect_spec (h : Loaded (T.consumer i) i w s) :
    (connect s).Sat (T.contract i) (Returns fun a w' => Loaded (T.consumer i) i w' a.2) w := by
  refine Sat.ite (fun _ w1 h1 _ => h.others h1) fun _ => ?_
  refine Sat.ask_bind fun w1 h1 _ => ⟨Allow.of_free trivial, fun ω v w2 hv => ?_⟩
  cases hv
  exact fun w3 h3 _ => (h.others (h1.trans h3)).connection ω.reachable

lemma fetchAndConsume_spec (h : Fetching (T.consumer i) i w s) :
    ((T.consumer i).fetchAndConsume s).Sat (T.contract i)
      (Returns fun a w' => Polling (T.consumer i) i w' a.2) w := by
  refine Sat.returns_bind (Others.refl i) (fetchFrom_spec h) ?_
  rintro ⟨answer, s1⟩ w1 hi1 ⟨hpoll, hbatch⟩
  cases answer with
  | none => exact fun w2 h2 _ => hpoll.grown h2.grown
  | some fetched =>
    refine Sat.returns_bind (Others.refl i) (rewind_spec hi1 (hbatch fetched rfl)) ?_
    rintro ⟨ok, s2⟩ w2 hi2 hb
    refine Sat.ite (fun _ => consume_spec hi2 hb) fun _ => ?_
    exact fun w3 h3 _ => hb.polling.grown h3.grown

lemma pollFrom_spec (h : Loaded (T.consumer i) i w s) :
    ((T.consumer i).pollFrom s).Sat (T.contract i)
      (Returns fun a w' => Memory (T.consumer i) w' (w'.entriesOf i) a.2) w := by
  refine Sat.ask_bind fun w1 h1 _ => ⟨Allow.of_free trivial, fun ω v w2 hv => ?_⟩
  cases hv
  refine Sat.returns_bind (Others.refl i) (connect_spec (h.others h1)) ?_
  rintro ⟨connected, s1⟩ w3 _ hl
  refine Sat.ite (fun _ => ?_) fun _ w4 h4 _ => (hl.others h4).memory
  have hassign : (ensureAssigned s1).Sat (T.contract i)
      (Returns (Assigned (T.consumer i) i)) w3 := by
    refine Sat.ite (fun hs w4 h4 _ => ?_) fun hs => assign_spec ?_
    · have hl := hl.others h4
      exact ⟨by simp, fun _ => ⟨hl.memory.recalls, hs, .inl (hl.memory.ready hs), hl.unaborted⟩⟩
    · have hs : s1.assigned = false := by simpa using hs
      exact ⟨hl.memory.recalls, hs, hl.memory.fresh hs, hl.unaborted⟩
  refine Sat.returns_bind (Others.refl i) hassign ?_
  rintro ⟨ok, s2⟩ w4 _ ⟨hfailed, hok⟩
  refine Sat.ite (fun htrue => ?_) fun hfalse => ?_
  · exact (fetchAndConsume_spec (hok htrue)).returns_mono fun _ _ _ hpoll => hpoll.memory
  · exact fun w5 h5 _ => memory_others (hfailed (by simpa using hfalse)) h5

lemma poll_spec (h : T.AtRest i w) :
    ((T.consumer i).poll).Sat (T.contract i) (Returns fun _ w' => T.AtRest i w') w := by
  refine Sat.ask_bind fun w1 h1 _ => ⟨Allow.of_free trivial, fun ω v w2 hv => ?_⟩
  cases hv
  have hbegan : Fetchless [.began] := by simp [Fetchless]
  have hloaded : Loaded (T.consumer i) i (w1.note i .began) (w1.consumer i) := by
    refine ⟨?_, ?_⟩ <;> rw [entriesOf_note]
    · have hw : Appended w1 (w1.note i .began) := Appended.of_eq rfl rfl
      exact Memory.mono (h.others h1) hw hbegan
    · simp [Unaborted]
  refine Sat.returns_bind (Others.refl i) (pollFrom_spec hloaded) ?_
  rintro ⟨result, s1⟩ w3 _ hmem
  refine Sat.ask_bind fun w4 h4 _ => ⟨Allow.of_free trivial, fun ω v w5 hv => ?_⟩
  cases hv
  intro w6 h6 _
  have hsaved : w6.consumer i = s1 := h6.consumer.trans (Function.update_self _ _ _)
  have hw : Appended w4 w6 := Appended.trans (Appended.of_eq rfl rfl) h6.appended
  have hentries : w6.entriesOf i = w4.entriesOf i := h6.entries
  have hnone : Fetchless [] := fun _ => List.not_mem_nil
  rw [Returns, AtRest, hsaved, hentries]
  exact (memory_others hmem h4).mono hw hnone

end KafkaEventConsumer

end MuduoChat
