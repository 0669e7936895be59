import MuduoChat.Gateway.ClaimSpec

/-!
# The operations of the coordinator keep to their contracts

Acknowledgement, sessions coming and going, and the retry scan.  Each of them works on rows
it has just read, and releases or acknowledges each of them at most once, before it claims.  All
of them keep to their times as well: attempts are made and scheduled as the clock says, and rows are
created for messages that the operation itself has accepted.
-/

namespace MuduoChat

open Std Coordinator Prog InMemoryMessageStore

variable {ι : Type}

/-! ### The times of an operation -/

/-- The calls of an operation, with their times.  A row is created for a message that was not there
when the operation began. -/
def InTime (S : Setup ι) (i : ι) (start : World ι) : Call → World ι → Prop
  | .store (.insertDelivery d), _ => start.store.nextMessageId ≤ d.messageId.value
  | c, w => Punctual S i c w

/-- What an operation may call, and when. -/
abbrev Timely (S : Setup ι) (i : ι) (op : Op) (start : World ι) (c : Call) (w : World ι) : Prop :=
  Allowed S i op start c w ∧ InTime S i start c w

lemma ClaimsOnTime.timely {S : Setup ι} {i : ι} {op : Op} {start w : World ι} {c : Call}
    {session : SessionIdentity} (h : ClaimsOnTime S i session c w) : Timely S i op start c w := by
  obtain ⟨hfor, htime⟩ := h
  refine ⟨hfor.claimAllowed.allowed, ?_⟩
  cases c with
  | store c =>
    cases c with
    | insertDelivery d => exact absurd hfor id
    | _ => exact htime
  | _ => exact htime

/-! ### Claims inside an operation -/

/-- The store differs in the contents of rows only, and no group has been queried. -/
structure World.OnlyRows (w w' : World ι) : Prop where
  store : w.store.OnlyRows w'.store
  queried : w'.queried = w.queried

lemma World.OnlyRows.refl (w : World ι) : w.OnlyRows w := ⟨.refl _, rfl⟩

lemma World.OnlyRows.trans {w1 w2 w3 : World ι} (h : w1.OnlyRows w2) (h' : w2.OnlyRows w3) :
    w1.OnlyRows w3 :=
  ⟨h.store.trans h'.store, h'.queried.trans h.queried⟩

variable [DecidableEq ι] {S : Setup ι} {i : ι} {op : Op} {start w : World ι}

lemma claimAllowed_onlyRows {c : Call} {ω : Env} {r : Except Fault c.Value} {w' : World ι}
    (hallow : ClaimAllowed S i c w) (h : World.handle i c ω w = some (r, w')) :
    w.OnlyRows w' := by
  refine ⟨?_, ?_⟩
  swap
  · cases c with
    | groupMembers groupId => exact absurd hallow id
    | _ =>
      cases h
      rfl
  rcases World.handle_store_eq h with ⟨c', rfl, hstore⟩ | ⟨-, hstore⟩
  · rw [hstore]
    cases c' with
    | updateDelivery d => exact onlyRows_updateDelivery w.store d
    | findMessage messageId | deliveriesByRecipient recipient => exact OnlyRows.refl _
    | _ => exact absurd hallow id
  · rw [hstore]
    exact OnlyRows.refl _

lemma claimFor_op (session : SessionIdentity) :
    Sat (S.under i (Timely S i op start)) (Returns fun _ w1 => w.OnlyRows w1)
      ((S.messaging i).claimFor session) w := by
  have hframe := Sat.frame (C := S.claims i session) (R := World.OnlyRows)
    (fun h h' => h.trans h') (by rintro w _ rfl; exact World.OnlyRows.refl _)
    (fun c ω w r w' _ hallow h => claimAllowed_onlyRows hallow.1.1.claimAllowed h)
    (claimFor_claims (w := w) session)
  refine Sat.widen (fun c w _ h => h.1.timely) (hframe.mono ?_)
  rintro (_ | _) w1 - ⟨hret, hrows⟩
  · exact absurd hret id
  · exact hrows

lemma onAccepted_op (recipients : List UserId) :
    Sat (S.under i (Timely S i op start)) (Returns fun _ w1 => w.OnlyRows w1)
      ((S.messaging i).onAccepted recipients) w := by
  refine sat_forEach (P := fun _ w1 => w.OnlyRows w1) ?_ recipients (World.OnlyRows.refl _)
  intro user users w1 h1
  refine sat_load fun _ => ⟨⟨trivial, trivial⟩, ?_⟩
  split
  · exact (claimFor_op _).returns_mono fun _ w2 _ h2 => h1.trans h2
  · exact sat_ret fun _ => h1

/-! ### Rows that have just been read -/

/-- The rows of a list are as the store has them, but for the sequence that queries fill
in, and no two of them are the same row. -/
structure Current (s : InMemoryMessageStore) (rows : List Delivery) : Prop where
  read : ∀ r ∈ rows, ∃ cur, s.row r.key = some cur ∧ r = { cur with sequence := r.sequence }
  nodup : (rows.map Delivery.key).Nodup

lemma current_deliveriesByRecipient {s : InMemoryMessageStore} (hrows : s.Rows) (u : UserId) :
    Current s (s.deliveriesByRecipient u) := by
  refine ⟨fun r hr => ?_, hrows.nodup_deliveriesByRecipient u⟩
  obtain ⟨k, d, hd, -, rfl⟩ := mem_deliveriesByRecipient.1 hr
  exact ⟨d, by rw [fillSequence_key, hrows.key_eq hd, hd], s.fillSequence_eq d⟩

lemma current_deliveriesDueForRetry {s : InMemoryMessageStore} (hrows : s.Rows) (nowMs : ℤ)
    (limit : ℕ) : Current s (s.deliveriesDueForRetry nowMs limit) := by
  refine ⟨fun r hr => ?_, ?_⟩
  · obtain ⟨k, hk, -⟩ := mem_deliveriesDueForRetry hr
    exact ⟨r, by rw [hrows.key_eq hk, hk], rfl⟩
  · have hkeys : (s.deliveriesDueForRetry nowMs limit).map Delivery.key =
        (OrderedMap.select s.deliveries (dueForRetry nowMs) limit).map Prod.fst := by
      rw [deliveriesDueForRetry, List.map_map]
      exact List.map_congr_left fun e he => hrows.key_eq (OrderedMap.mem_select he).1
    rw [hkeys]
    exact OrderedMap.nodup_keys_select _ _ _

lemma Current.tail {s : InMemoryMessageStore} {r d : Delivery} {rows : List Delivery}
    (h : Current s (r :: rows)) (hkey : d.key = r.key) : Current (s.updateDelivery d) rows := by
  obtain ⟨hr, hnodup⟩ := List.nodup_cons.1 h.nodup
  refine ⟨fun r' hr' => ?_, hnodup⟩
  obtain ⟨cur, hcur, heq⟩ := h.read r' (List.mem_cons_of_mem _ hr')
  refine ⟨cur, ?_, heq⟩
  rw [row_updateDelivery, if_neg, hcur]
  rintro ⟨hk, -⟩
  exact hr (List.mem_map.2 ⟨r', hr', by rw [← hk, hkey]⟩)

lemma release_op {cur r : Delivery} (hcur : w.store.row r.key = some cur)
    (hr : r = { cur with sequence := r.sequence }) (hstate : cur.state = .inFlight)
    (hreason : ReleaseReason S i w cur op) :
    Sat (S.under i (Timely S i op start))
      (Returns fun _ w1 => w1.store = w.store.updateDelivery (released r) ∧
        w1.clock = w.clock ∧ w1.process = w.process)
      (release r) w := by
  refine sat_store fun _ => ⟨⟨⟨cur, hcur, .inr (.inl ⟨hstate, hreason, ?_⟩)⟩, ?_⟩, ?_⟩
  · rw [hr]
    rfl
  · exact fun hfly => absurd hfly (by simp [released])
  · refine sat_of_bind_ret (sat_record fun _ => ⟨⟨trivial, trivial⟩, ?_⟩)
    exact sat_ret fun _ => ⟨rfl, rfl, rfl⟩

/-- The loop that gives up the leases of some of the rows that have been read.  The reason
must not depend on the state. -/
lemma releaseLoop_op {cond : Delivery → Bool}
    (hcond : ∀ cur r : Delivery, r = { cur with sequence := r.sequence } → cond r = true →
      cur.state = .inFlight ∧ ∀ w, ReleaseReason S i w cur op)
    (rows : List Delivery) (hrows : Current w.store rows) :
    Sat (S.under i (Timely S i op start)) (Returns fun _ _ => True)
      (Prog.forEach (fun d => Prog.when (cond d) (release d)) rows) w := by
  refine (sat_forEach (P := fun rows w1 => Current w1.store rows) ?_ rows
    hrows).returns_mono fun _ _ _ _ => trivial
  intro r rows w1 h1
  obtain ⟨cur, hcur, hr⟩ := h1.read r (by simp)
  refine Sat.returns_when (fun hc => ?_) fun _ => sat_ret fun _ => ?_
  · obtain ⟨hstate, hreason⟩ := hcond cur r hr hc
    refine (release_op hcur hr hstate (hreason w1)).returns_mono ?_
    rintro - w2 - ⟨hstore, -⟩
    rw [hstore]
    exact h1.tail rfl
  · exact ⟨fun r' hr' => h1.read r' (List.mem_cons_of_mem _ hr'), (List.nodup_cons.1 h1.nodup).2⟩

/-! ### The operations -/

theorem acknowledge_op (acker : SessionIdentity) (messageId : MessageId) :
    Sat (S.under i (Timely S i (.acknowledge acker messageId) w)) (Returns fun _ _ => True)
      ((S.messaging i).acknowledge acker messageId) w := by
  refine sat_load fun _ => ⟨⟨trivial, trivial⟩, ?_⟩
  split
  · exact sat_ret fun _ => trivial
  rename_i hsuperseded
  split
  · exact sat_ret fun _ => trivial
  rename_i houtdated
  refine sat_store fun hw => ⟨⟨trivial, trivial⟩, ?_⟩
  refine sat_ite (fun _ => sat_ret fun _ => trivial) fun _ => ?_
  split
  · exact sat_ret fun _ => trivial
  rename_i mine hmine
  have hrec : mine.recipient = acker.userId := by simpa using List.find?_some hmine
  obtain ⟨k, cur, hcur, hmsg, rfl⟩ :=
    mem_deliveriesByMessage.1 (List.mem_of_find?_eq_some hmine)
  have hfill := w.store.fillSequence_eq cur
  split
  · exact sat_ret fun _ => trivial
  rename_i hstate
  have hrow : w.store.row cur.key = some cur := by rw [hw.rows.key_eq hcur, hcur]
  refine sat_nowMs fun _ => ⟨⟨trivial, trivial⟩, fun now => ?_⟩
  refine sat_store fun _ => ⟨⟨?_, fun hfly => absurd hfly (by simp [acked])⟩, ?_⟩
  · refine ⟨cur, ?_, .inl ⟨acker, messageId, rfl, ?_⟩⟩
    · rw [show (acked now (w.store.fillSequence cur)).key = cur.key from
        w.store.fillSequence_key cur]
      exact hrow
    · refine ⟨⟨by simpa using hsuperseded, by simpa using houtdated⟩, hmsg, ?_, hrow, ?_, ?_⟩
      · rw [hfill] at hrec
        exact hrec
      · rw [hfill] at hstate
        exact hstate
      · rw [hfill]
        rfl
  · refine sat_bind (claimFor_op acker) fun _ w1 _ _ => ?_
    refine sat_record fun _ => ⟨⟨trivial, trivial⟩, sat_record fun _ => ⟨⟨trivial, trivial⟩, ?_⟩⟩
    exact sat_record fun _ => ⟨⟨trivial, trivial⟩, sat_ret fun _ => trivial⟩

lemma sessionAvailable_coordinator_op (session : SessionIdentity) :
    Sat (S.under i (Timely S i (.sessionAvailable session) start)) (Returns fun _ _ => True)
      (Coordinator.sessionAvailable (S.messaging i) session) w := by
  refine sat_load fun _ => ⟨⟨trivial, trivial⟩, ?_⟩
  split
  · exact sat_ret fun _ => trivial
  refine sat_save fun _ => ⟨⟨trivial, trivial⟩, sat_store fun hw => ⟨⟨trivial, trivial⟩, ?_⟩⟩
  refine sat_bind (releaseLoop_op ?_ _ (current_deliveriesByRecipient hw.rows _)) ?_
  · intro cur r hr hfenced
    rw [hr] at hfenced
    simp only [fenced, Bool.and_eq_true, decide_eq_true_eq, Bool.not_eq_true',
      Bool.and_eq_false_imp, decide_eq_false_iff_not] at hfenced
    exact ⟨hfenced.1.1, fun w => .fenced session hfenced.1.2 fun ⟨ho, hb⟩ => hfenced.2 ho hb⟩
  · rintro - w1 - -
    refine sat_modify fun _ => ⟨⟨trivial, trivial⟩, ⟨trivial, trivial⟩, ?_⟩
    exact (claimFor_op session).returns_mono fun _ _ _ _ => trivial

theorem sessionClosed_op (session : SessionIdentity) :
    Sat (S.under i (Timely S i (.sessionClosed session) start)) (Returns fun _ _ => True)
      ((S.messaging i).sessionClosed session) w := by
  refine sat_load fun _ => ⟨⟨trivial, trivial⟩, sat_save fun _ => ⟨⟨trivial, trivial⟩, ?_⟩⟩
  refine sat_store fun hw => ⟨⟨trivial, trivial⟩, ?_⟩
  refine sat_bind (releaseLoop_op ?_ _ (current_deliveriesByRecipient hw.rows _)) ?_
  · intro cur r hr hcond
    rw [hr] at hcond
    simp only [decide_eq_true_eq] at hcond
    exact ⟨hcond.1, fun w => .closed session hcond.2⟩
  · rintro - w1 - -
    split
    · exact (claimFor_op _).returns_mono fun _ _ _ _ => trivial
    · exact sat_ret fun _ => trivial

theorem resume_op (session : SessionIdentity) :
    Sat (S.under i (Timely S i op start)) (Returns fun _ _ => True)
      ((S.messaging i).resume session) w := by
  refine sat_load fun _ => ⟨⟨trivial, trivial⟩, ?_⟩
  split
  · exact sat_ret fun _ => trivial
  split
  · exact sat_ret fun _ => trivial
  refine sat_save fun _ => ⟨⟨trivial, trivial⟩, ?_⟩
  exact (claimFor_op session).returns_mono fun _ _ _ _ => trivial

/-! ### The retry scan -/

lemma scanDue_op (hop : op.ticks = true) (toClaim : TreeSet SessionIdentity)
    (due : List Delivery) (hdue : Current w.store due)
    (htime : ∀ d ∈ due, d.state = .inFlight ∧ d.nextAttemptAtMs ≤ w.clock) :
    Sat (S.under i (Timely S i op start)) (Returns fun _ _ => True)
      (scanDue (w.process i) toClaim due) w := by
  generalize hp : w.process i = p
  induction due generalizing w toClaim with
  | nil => exact sat_ret fun _ => trivial
  | cons d due ih =>
    have htail : ∀ d ∈ due, d.state = .inFlight ∧ d.nextAttemptAtMs ≤ w.clock :=
      fun d hd => htime d (List.mem_cons_of_mem _ hd)
    unfold scanDue
    split
    · refine ih toClaim ⟨fun r hr => hdue.read r (List.mem_cons_of_mem _ hr), ?_⟩ htail hp
      exact (List.nodup_cons.1 hdue.nodup).2
    · rename_i active hactive
      obtain rfl := (retrySession_eq_some.1 hactive).1
      obtain ⟨cur, hcur, hd⟩ := hdue.read d (by simp)
      obtain ⟨hstate, hnext⟩ := htime d (by simp)
      rw [hd] at hstate hnext hactive
      refine sat_bind (release_op hcur hd hstate (.overdue op hop hnext ?_)) ?_
      · rw [hp]
        exact hactive
      · rintro - w1 - ⟨hstore, hclock, hprocess⟩
        refine ih _ ?_ ?_ ?_
        · rw [hstore]
          exact hdue.tail rfl
        · rw [hclock]
          exact htail
        · rw [hprocess, hp]

lemma runRetryScan_op (hop : op.ticks = true) :
    Sat (S.under i (Timely S i op start)) (Returns fun _ _ => True)
      ((S.messaging i).runRetryScan w.clock) w := by
  refine sat_modify fun _ => ⟨⟨trivial, trivial⟩, ⟨trivial, trivial⟩, ?_⟩
  refine sat_store fun hw => ⟨⟨trivial, trivial⟩, ?_⟩
  refine sat_ite (fun _ => sat_ret fun _ => trivial) fun _ => ?_
  refine sat_load fun _ => ⟨⟨trivial, trivial⟩, ?_⟩
  refine sat_bind (scanDue_op hop _ _ (current_deliveriesDueForRetry hw.rows _ _) ?_) ?_
  · intro d hd
    obtain ⟨k, -, hstate, hnext⟩ := mem_deliveriesDueForRetry hd
    exact ⟨hstate, hnext⟩
  · rintro toClaim w1 - -
    refine sat_bind (P := fun _ _ => True) ?_ fun _ _ _ _ =>
      sat_load fun _ => ⟨⟨trivial, trivial⟩, sat_ret fun _ => trivial⟩
    refine sat_forEach (P := fun _ _ => True) ?_ _ trivial
    exact fun session _ w2 _ => (claimFor_op session).returns_mono fun _ _ _ _ => trivial

end MuduoChat
