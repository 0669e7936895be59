import MuduoChat.Delivery.Claiming
import MuduoChat.Gateway.Rules

/-!
# The claim loop keeps to its contract

A claim works on a snapshot of the rows of one recipient and writes each change both to the
snapshot and to the store.  The loop invariant is that the snapshot mirrors the store
(`Mirrors`): then the head of the snapshot is the head of the conversation in the store.  A
round that goes on makes its head unclaimable as long as leases last, and therefore the loop
ends.
-/

namespace MuduoChat

open Std Coordinator Prog InMemoryMessageStore

variable {ι : Type}

/-! ### Snapshots -/

/-- A list of rows mirrors the open rows of a recipient in a conversation. -/
structure Mirrors (s : InMemoryMessageStore) (u : UserId) (c : ℕ) (rows : List Delivery) :
    Prop where
  faithful : ∀ r ∈ rows, r.recipient = u ∧ r.conversationId.value = c ∧
    ∃ cur, s.row r.key = some cur ∧ r = s.fillSequence cur
  complete : ∀ cur, s.row cur.key = some cur → cur.recipient = u → cur.conversationId.value = c →
    cur.state.terminal = false → s.fillSequence cur ∈ rows
  nodup : (rows.map Delivery.key).Nodup

section Mirrors

variable {s : InMemoryMessageStore} {u : UserId} {c c' : ℕ} {rows : List Delivery}
  {head d : Delivery} {n : ℕ}

@[simp] lemma fillSequence_updateDelivery (s : InMemoryMessageStore) (d r : Delivery) :
    (s.updateDelivery d).fillSequence r = s.fillSequence r := rfl

lemma fillSequence_fillSequence (s : InMemoryMessageStore) (d : Delivery) :
    s.fillSequence (s.fillSequence d) = s.fillSequence d := by
  cases h : s.messagesById[d.messageId.value]? <;>
    simp [fillSequence, h]

lemma fillSequence_of_eq (hmsg : d.messageId = head.messageId) (hseq : d.sequence = head.sequence)
    (hhead : s.fillSequence head = head) : s.fillSequence d = d := by
  unfold fillSequence at hhead ⊢
  rw [hmsg]
  cases hm : s.messagesById[head.messageId.value]? with
  | none => rfl
  | some m =>
    rw [hm] at hhead
    dsimp only at hhead ⊢
    rw [show m.sequence = d.sequence by rw [hseq, ← hhead], ← hmsg]

lemma Mirrors.update (h : Mirrors s u c rows) (hn : rows[n]? = some head)
    (hmsg : d.messageId = head.messageId) (hconv : d.conversationId = head.conversationId)
    (hrec : d.recipient = head.recipient) (hseq : d.sequence = head.sequence) :
    Mirrors (s.updateDelivery d) u c (rows.set n d) := by
  have hkey : d.key = head.key := by rw [Delivery.key, Delivery.key, hmsg, hrec]
  obtain ⟨hu, hc, cur, hcur, hfill⟩ := h.faithful head (List.mem_of_getElem? hn)
  have hd : s.fillSequence d = d :=
    fillSequence_of_eq hmsg hseq (by rw [hfill, fillSequence_fillSequence])
  have hpresent : (s.row d.key).isSome := by rw [hkey, hcur]; rfl
  have hlen : n < rows.length := (List.getElem?_eq_some_iff.1 hn).1
  -- a row at another place has another key
  have hother : ∀ j r, j ≠ n → rows[j]? = some r → d.key ≠ r.key := by
    intro j r hj hr hkr
    have hlen' : j < (rows.map Delivery.key).length := by
      simpa using (List.getElem?_eq_some_iff.1 hr).1
    exact hj ((List.getElem?_inj hlen' h.nodup).1 (by simp [hr, hn, ← hkr, hkey]))
  refine ⟨fun r hr => ?_, fun cur' hk hu' hc' hopen => ?_, ?_⟩
  · obtain ⟨j, hj⟩ := List.mem_iff_getElem?.1 hr
    by_cases hjn : j = n
    · -- the row that was written
      subst hjn
      obtain rfl : d = r := by simpa [hlen] using hj
      refine ⟨hrec.trans hu, by rw [hconv, hc], d, ?_, hd.symm⟩
      rw [row_updateDelivery, if_pos ⟨rfl, hpresent⟩]
    · rw [List.getElem?_set_ne (Ne.symm hjn)] at hj
      obtain ⟨hu', hc', cur', hcur', hfill'⟩ := h.faithful r (List.mem_of_getElem? hj)
      refine ⟨hu', hc', cur', ?_, hfill'⟩
      rw [row_updateDelivery, if_neg fun hk => hother j r hjn hj hk.1, hcur']
  · rw [row_updateDelivery] at hk
    split at hk
    · cases hk
      rw [fillSequence_updateDelivery, hd]
      exact List.mem_set hlen d
    · rename_i hne
      obtain ⟨j, hj⟩ := List.mem_iff_getElem?.1 (h.complete cur' hk hu' hc' hopen)
      have hjn : n ≠ j := by
        rintro rfl
        obtain rfl : head = s.fillSequence cur' := Option.some.inj (hn.symm.trans hj)
        exact hne ⟨by simpa using hkey, hpresent⟩
      rw [fillSequence_updateDelivery]
      exact List.mem_of_getElem? (by rw [List.getElem?_set_ne hjn, hj])
  · have hmap : (rows.set n d).map Delivery.key = rows.map Delivery.key := by
      have hget : (rows.map Delivery.key)[n]? = some d.key := by simp [hn, hkey]
      obtain ⟨hn', hget⟩ := List.getElem?_eq_some_iff.1 hget
      rw [List.map_set, ← hget, List.set_getElem_self]
    rw [hmap]
    exact h.nodup

lemma Mirrors.update_other (h : Mirrors s u c' rows) (hne : c' ≠ c)
    (hd : d.conversationId.value = c) {cur : Delivery} (hcur : s.row d.key = some cur)
    (hconv : cur.conversationId = d.conversationId) : Mirrors (s.updateDelivery d) u c' rows := by
  refine ⟨fun r hr => ?_, fun cur' hk hu' hc' hopen => ?_, h.nodup⟩
  · obtain ⟨hu, hc, cur', hcur', hfill⟩ := h.faithful r hr
    refine ⟨hu, hc, cur', ?_, hfill⟩
    rw [row_updateDelivery, if_neg, hcur']
    rintro ⟨hk, -⟩
    -- the same row would belong to both conversations
    rw [← hk, hcur] at hcur'
    cases hcur'
    rw [hfill, s.fillSequence_eq, hconv, hd] at hc
    exact hne hc.symm
  · rw [row_updateDelivery] at hk
    split at hk
    · cases hk
      exact absurd (hc'.symm.trans hd) hne
    · exact h.complete cur' hk hu' hc' hopen

lemma mirrors_byConversation (hrows : s.Rows)
    (hmem : (c, rows) ∈ (byConversation (s.deliveriesByRecipient u)).toList) :
    Mirrors s u c rows := by
  have hlook := OrderedMap.mem_toList.1 hmem
  have heq : rows = (s.deliveriesByRecipient u).filter
      fun d => !d.state.terminal && d.conversationId.value = c := by
    rw [← getElem?_byConversation, hlook]
    rfl
  subst heq
  refine ⟨fun r hr => ?_, fun cur hk hu hc hopen => ?_, ?_⟩
  · simp only [List.mem_filter, Bool.and_eq_true, Bool.not_eq_true', decide_eq_true_eq] at hr
    obtain ⟨k, d, hd, hu, rfl⟩ := mem_deliveriesByRecipient.1 hr.1
    refine ⟨?_, hr.2.2, d, ?_, rfl⟩
    · rw [s.fillSequence_eq]
      exact hu
    · rw [fillSequence_key, hrows.key_eq hd, hd]
  · simp only [List.mem_filter, Bool.and_eq_true, Bool.not_eq_true', decide_eq_true_eq]
    refine ⟨mem_deliveriesByRecipient.2 ⟨_, cur, hk, hu, rfl⟩, ?_⟩
    rw [s.fillSequence_eq]
    exact ⟨hopen, hc⟩
  · exact (hrows.nodup_deliveriesByRecipient u).sublist (List.filter_sublist.map Delivery.key)

end Mirrors

/-! ### Served conversations -/

namespace InMemoryMessageStore

/-- If a user has an open row in the conversation, one of them is in flight. -/
def ServedIn (s : InMemoryMessageStore) (u : UserId) (c : ℕ) : Prop :=
  ∀ k cur, s.row k = some cur → k.recipient = u.value → cur.conversationId.value = c →
    cur.state.terminal = false → ∃ k' d, s.row k' = some d ∧ k'.recipient = u.value ∧
      d.conversationId.value = c ∧ d.state = .inFlight

/-- All conversations of a user are served. -/
def Served (s : InMemoryMessageStore) (u : UserId) : Prop := ∀ c, s.ServedIn u c

/-- The rows outside some conversations of a user are as they were. -/
def Outside (s s' : InMemoryMessageStore) (u : UserId) (cs : List ℕ) : Prop :=
  ∀ k cur, (k.recipient = u.value → cur.conversationId.value ∉ cs) →
    (s'.row k = some cur ↔ s.row k = some cur)

/-- The rows of the other users are as they were. -/
def OtherUsers (s s' : InMemoryMessageStore) (u : UserId) : Prop :=
  ∀ k : DeliveryKey, k.recipient ≠ u.value → s'.row k = s.row k

variable {s s₁ s₂ : InMemoryMessageStore} {u : UserId} {c : ℕ} {cs : List ℕ}

lemma Outside.refl (s : InMemoryMessageStore) (u : UserId) (cs : List ℕ) : Outside s s u cs :=
  fun _ _ _ => Iff.rfl

lemma Outside.trans (h : Outside s s₁ u cs) (h' : Outside s₁ s₂ u cs) : Outside s s₂ u cs :=
  fun k cur hk => (h' k cur hk).trans (h k cur hk)

lemma Outside.cons (h : Outside s s₁ u [c]) (h' : Outside s₁ s₂ u cs) :
    Outside s s₂ u (c :: cs) := by
  intro k cur hk
  refine (h' k cur fun hu hmem => hk hu (List.mem_cons_of_mem c hmem)).trans (h k cur ?_)
  intro hu hmem
  exact hk hu (by simp [List.mem_singleton.1 hmem])

lemma Outside.otherUsers (h : Outside s s₁ u cs) : OtherUsers s s₁ u := by
  intro k hk
  refine Option.ext fun cur => ?_
  exact h k cur fun hu => absurd hu hk

lemma Outside.servedIn (h : Outside s s₁ u cs) (hc : c ∉ cs) (hs : s.ServedIn u c) :
    s₁.ServedIn u c := by
  have hsame {k : DeliveryKey} {d : Delivery} (hd : d.conversationId.value = c) :
      s₁.row k = some d ↔ s.row k = some d :=
    h k d fun _ => hd.symm ▸ hc
  intro k cur hcur hu hconv hopen
  obtain ⟨k', d, hd, hu', hconv', hfly⟩ := hs k cur ((hsame hconv).1 hcur) hu hconv hopen
  exact ⟨k', d, (hsame hconv').2 hd, hu', hconv', hfly⟩

lemma outside_updateDelivery {cur d : Delivery} (hcur : s.row d.key = some cur)
    (hconv : cur.conversationId = d.conversationId) (hd : d.recipient = u)
    (hc : d.conversationId.value = c) : Outside s (s.updateDelivery d) u [c] := by
  intro k x hx
  rw [row_updateDelivery]
  split
  · -- neither the old nor the new row under the key is outside
    rename_i hk
    have hu : k.recipient = u.value := by rw [← hk.1, ← hd]; rfl
    rw [← hk.1, hcur]
    refine iff_of_false ?_ ?_
    · rintro ⟨⟩
      exact hx hu (by simp [hc])
    · rintro ⟨⟩
      exact hx hu (by simp [hconv, hc])
  · rfl

end InMemoryMessageStore

/-! ### Claims -/

def ClaimAllowed (S : Setup ι) (i : ι) : Call → World ι → Prop
  | .store (.updateDelivery d), w => ∃ cur, w.store.row d.key = some cur ∧
      ∃ session message, ClaimWrite S i w session message cur d
  | .store (.findMessage _), _ => True
  | .store (.deliveriesByRecipient _), _ => True
  | .deliver attempt, w => Deliverable w attempt
  | .nowMs, _ => True
  | .jitter _, _ => True
  | .load, _ => True
  | .save _, _ => True
  | .record _, _ => True
  | _, _ => False

lemma ClaimAllowed.allowed {S : Setup ι} {i : ι} {op : Op} {start w : World ι} {c : Call}
    (h : ClaimAllowed S i c w) : Allowed S i op start c w := by
  unfold ClaimAllowed at h
  split at h
  · obtain ⟨cur, hcur, hclaim⟩ := h
    exact ⟨cur, hcur, .inr (.inr hclaim)⟩
  all_goals trivial

/-- The calls of a claim for one session: the rows that are written are those of its user, and
only the session itself is paused. -/
def ClaimsFor (S : Setup ι) (i : ι) (session : SessionIdentity) : Call → World ι → Prop
  | .store (.updateDelivery d), w => ∃ cur, w.store.row d.key = some cur ∧
      ∃ message, ClaimWrite S i w session message cur d
  | .save p, w => ∀ other, other ≠ session → other ∈ p.paused → other ∈ (w.process i).paused
  | c, w => ClaimAllowed S i c w

lemma ClaimsFor.claimAllowed {S : Setup ι} {i : ι} {session : SessionIdentity} {w : World ι}
    {c : Call} (h : ClaimsFor S i session c w) : ClaimAllowed S i c w := by
  unfold ClaimsFor at h
  split at h
  · obtain ⟨cur, hcur, hclaim⟩ := h
    exact ⟨cur, hcur, session, hclaim⟩
  · trivial
  · exact h

/-- The times of a claim: an attempt is made for a row that can be claimed when the clock is read,
and a row that is sent is scheduled again after one of the delays for its attempt. -/
def Punctual (S : Setup ι) (i : ι) : Call → World ι → Prop
  | .deliver attempt, w => ∃ cur, w.store.row cur.key = some cur ∧
      attempt.messageId = cur.messageId ∧ attempt.recipient = cur.recipient ∧
      claimable w.clock cur = true
  | .store (.updateDelivery d), w => d.state = .inFlight →
      ∃ delay, (S.messaging i).MayDelay d.attemptCount delay ∧ d.nextAttemptAtMs = w.clock + delay
  | _, _ => True

/-- The calls of a claim for one session, with their times. -/
def ClaimsOnTime (S : Setup ι) (i : ι) (session : SessionIdentity) (c : Call) (w : World ι) :
    Prop :=
  ClaimsFor S i session c w ∧ Punctual S i c w

/-- The sink has accepted every attempt so far. -/
def World.AllAccepted (w : World ι) : Prop := ∀ e ∈ w.sent, e.2 = .accepted

/-- The memory that is written in a claim for a session: the active sessions stay as they are, and
the session itself is paused only if the sink has not accepted everything. -/
def ClaimSave (i : ι) (session : SessionIdentity) : Call → World ι → Prop
  | .save p, w => p.activeByUser = (w.process i).activeByUser ∧
      (session ∈ p.paused → session ∈ (w.process i).paused ∨ ¬w.AllAccepted)
  | _, _ => True

variable [DecidableEq ι] {S : Setup ι} {i : ι} {session : SessionIdentity} {w : World ι}

abbrev Setup.claims (S : Setup ι) (i : ι) (session : SessionIdentity) :
    Contract Port (World ι) Env :=
  S.under i fun c w => ClaimsOnTime S i session c w ∧ ClaimSave i session c w

lemma retryDelayMs_sat (co : Coordinator) (attempt : ℕ) :
    Sat (S.claims i session)
      (Returns fun delay w1 => co.MayDelay attempt delay ∧ w = w1) (co.retryDelayMs attempt) w := by
  have hbackoff : Sat (S.claims i session)
      (Returns fun backoff w1 =>
        (¬(co.config.jitterFraction > 0 ∧ backoffBase co.config attempt > 1) →
          backoff = backoffBase co.config attempt) ∧ w = w1)
      (co.backoffMs attempt) w := by
    unfold backoffMs
    dsimp only
    split
    · rename_i hjitter
      exact sat_jitter fun _ => ⟨⟨⟨trivial, trivial⟩, trivial⟩, fun _ => sat_ret fun _ =>
        ⟨fun hno => absurd hjitter hno, rfl⟩⟩
    · exact sat_ret fun _ => ⟨fun _ => rfl, rfl⟩
  refine sat_bind hbackoff ?_
  rintro backoff _ - ⟨hback, rfl⟩
  exact sat_ret fun _ => ⟨⟨backoff, hback, rfl⟩, rfl⟩

lemma recordClaim_sat (src : DeliveryState) (legacy : Bool) (row : Delivery) :
    Sat (S.claims i session)
      (Returns fun _ w1 => ∃ ms, w1 = { w with metrics := ms }) (recordClaim src legacy row) w := by
  have hrecord (e : MetricEvent) (w : World ι) :
      ClaimsOnTime S i session (.record e) w ∧ ClaimSave i session (.record e) w :=
    ⟨⟨trivial, trivial⟩, trivial⟩
  refine sat_record fun _ => ⟨hrecord _ _, sat_record fun _ => ⟨hrecord _ _, ?_⟩⟩
  refine Sat.returns_when (fun _ => ?_) fun _ => sat_ret fun _ => ⟨_, rfl⟩
  refine sat_record fun _ => ⟨hrecord _ _, sat_of_bind_ret (sat_record fun _ => ⟨hrecord _ _, ?_⟩)⟩
  exact sat_ret fun _ => ⟨_, rfl⟩

lemma writeClaim_sat {message : Message} {cur : Delivery}
    (hcur : w.store.row cur.key = some cur)
    (hfound : w.store.findMessage cur.messageId = some message)
    (hmine : cur.recipient = session.userId) (hclaimable : claimable w.clock cur = true)
    (hhead : w.store.HeadRow cur)
    (hsent : w.sent.head? = some (attemptFor message (w.store.fillSequence cur), .accepted)) :
    Sat (S.claims i session)
      (Returns fun row w1 => (∃ delay legacy,
          row = (S.messaging i).claimed session w.clock delay legacy (w.store.fillSequence cur)) ∧
        w1.store = w.store.updateDelivery row ∧ w1.clock = w.clock ∧ w1.sent = w.sent)
      ((S.messaging i).writeClaim session w.clock message (w.store.fillSequence cur)) w := by
  refine sat_bind (retryDelayMs_sat _ _) ?_
  rintro delay _ - ⟨hdelay, rfl⟩
  -- scheduling the next attempt changes the memory of the process only
  refine sat_bind (P := fun _ w1 => w1.store = w.store ∧ w1.clock = w.clock ∧ w1.sent = w.sent)
    (Sat.returns_when (fun _ => ?_) fun _ => sat_ret fun _ => ⟨rfl, rfl, rfl⟩) ?_
  · exact sat_of_bind_ret (sat_modify fun _ =>
      ⟨⟨⟨trivial, trivial⟩, trivial⟩, ⟨⟨fun _ _ h => h, trivial⟩, rfl, .inl⟩,
        sat_ret fun _ => ⟨rfl, rfl, rfl⟩⟩)
  · rintro - w1 - ⟨hstore, hclock, hsent1⟩
    refine sat_store fun _ => ⟨⟨⟨?_, fun _ => ⟨delay, hdelay, ?_⟩⟩, trivial⟩, ?_⟩
    · refine ⟨cur, ?_, message, ?_⟩
      · rw [hstore]
        refine Eq.trans ?_ hcur
        exact congrArg w.store.row (w.store.fillSequence_key cur)
      · refine ⟨?_, hmine, ?_, ?_, ?_, delay, ?_⟩
        · rw [hstore, hfound]
        · rw [hclock, hclaimable]
        · rw [hstore]
          exact hhead
        · rw [hsent1, hstore, hsent]
        · rw [hclock, hstore]
    · rw [hclock]
      rfl
    · refine sat_bind (recordClaim_sat _ _ _) ?_
      rintro - _ - ⟨ms, rfl⟩
      refine sat_ret fun _ => ⟨⟨delay, _, rfl⟩, ?_, hclock, hsent1⟩
      exact congrArg (updateDelivery · _) hstore

lemma Mirrors.head {s : InMemoryMessageStore} {u : UserId} {c n : ℕ} {rows : List Delivery}
    {head : Delivery} (hrows : s.Rows) (h : Mirrors s u c rows)
    (hhead : headFrom 0 none rows = some (n, head)) :
    rows[n]? = some head ∧ head.recipient = u ∧ head.conversationId.value = c ∧
      ∃ cur, s.row cur.key = some cur ∧ head = s.fillSequence cur ∧ s.HeadRow cur := by
  have hn : rows[n]? = some head := by
    rcases headFrom_origin hhead with hnone | ⟨n', rfl, hn, -⟩
    · exact absurd hnone (by simp)
    · simpa using hn
  obtain ⟨hu, hc, cur, hcur, hfill⟩ := h.faithful head (List.mem_of_getElem? hn)
  have hkey : head.key = cur.key := by rw [hfill, s.fillSequence_key]
  refine ⟨hn, hu, hc, cur, hkey ▸ hcur, hfill, ?_⟩
  intro k d hd hrec hconv hlt
  by_contra hopen
  rw [Bool.not_eq_true] at hopen
  have hucur : cur.recipient = u := by rw [← hu, hfill, s.fillSequence_eq]
  have hccur : cur.conversationId.value = c := by rw [← hc, hfill, s.fillSequence_eq]
  -- an open row that comes before would be in the snapshot
  have hmem := h.complete d (by rw [hrows.key_eq hd, hd]) (hrec.trans hucur)
    (by rw [hconv, hccur]) hopen
  have hle := (headFrom_le hhead).2 _ hmem (by rw [s.fillSequence_eq]; exact hopen)
  rw [hfill] at hle
  exact absurd hlt (Nat.not_lt.2 hle)

lemma claimable_claimed {co : Coordinator} {session : SessionIdentity} {now delay : ℤ}
    {legacy : Bool} {head : Delivery} (hlease : 0 < Json.toInt64 co.leaseMs) :
    claimable now (co.claimed session now delay legacy head) = false := by
  cases legacy with
  | true => simp [claimable, claimed]
  | false => simp [claimable, claimed, hlease]

lemma countP_claimable_set {now : ℤ} {rows : List Delivery} {n : ℕ} {head row : Delivery}
    (hn : rows[n]? = some head) (hhead : claimable now head = true)
    (hrow : claimable now row = false) :
    (rows.set n row).countP (claimable now) < rows.countP (claimable now) := by
  obtain ⟨hlen, hget⟩ := List.getElem?_eq_some_iff.1 hn
  have hpos : 0 < rows.countP (claimable now) :=
    List.countP_pos_iff.2 ⟨head, List.mem_of_getElem? hn, hhead⟩
  rw [List.countP_set hlen]
  simp only [hget, hhead, hrow, if_true]
  simp only [Bool.false_eq_true, if_false]
  omega

/-- A head that is open and cannot be claimed is in flight. -/
lemma inFlight_of_head {now : ℤ} {rows : List Delivery} {n : ℕ} {head : Delivery}
    (hhead : headFrom 0 none rows = some (n, head)) (hclaimable : ¬claimable now head = true) :
    head.state = .inFlight := by
  have hopen : head.state.terminal = false := by
    rcases headFrom_origin hhead with hno | ⟨_, -, -, hopen⟩
    · cases hno
    · exact hopen
  have hpending : head.state ≠ .pending := fun h => hclaimable (by simp [claimable, h])
  revert hopen hpending
  cases head.state <;> simp

/-- **The claim loop.**  It leaves the rows outside its conversation alone, so that the snapshots of
the conversations that are still to come stay mirrors of the store.  If the sink accepts everything,
the conversation is served in the end. -/
lemma claimLoop_sat (session : SessionIdentity) (now : ℤ) (c fuel : ℕ) (rows : List Delivery)
    (rest : List (ℕ × List Delivery)) (hclock : w.clock = now)
    (hrows : Mirrors w.store session.userId c rows)
    (hrest : ∀ e ∈ rest, e.1 ≠ c ∧ Mirrors w.store session.userId e.1 e.2)
    (hfuel : 0 < Json.toInt64 S.leaseMs → rows.countP (claimable now) < fuel) :
    Sat (S.claims i session)
      (Returns fun paused w1 => w1.clock = now ∧
        (∀ e ∈ rest, Mirrors w1.store session.userId e.1 e.2) ∧
        w.store.Outside w1.store session.userId [c] ∧
        (w1.AllAccepted → w.AllAccepted ∧ paused = false ∧ w1.store.ServedIn session.userId c))
      ((S.messaging i).claimLoop session now fuel rows) w := by
  induction fuel generalizing rows w with
  | zero => exact fun _ _ _ hlease => absurd (hfuel hlease) (Nat.not_lt_zero _)
  | succ fuel ih =>
    have hdone : ∀ e ∈ rest, Mirrors w.store session.userId e.1 e.2 :=
      fun e he => (hrest e he).2
    unfold claimLoop
    split
    · -- there is no open row
      rename_i hnone
      refine sat_ret fun hw => ⟨hclock, hdone, .refl _ _ _, fun haccepted => ⟨haccepted, rfl, ?_⟩⟩
      intro k cur hcur hu hconv hopen
      have hk := hw.rows.key_eq hcur
      have hmem := hrows.complete cur (hk ▸ hcur)
        (Id.ext ((congrArg DeliveryKey.recipient hk).trans hu)) hconv hopen
      have hterm := (terminal_of_headFrom_eq_none hnone).2 _ hmem
      rw [w.store.fillSequence_eq cur, hopen] at hterm
      cases hterm
    rename_i n head hhead
    split
    swap
    · rename_i hclaimable
      refine sat_ret fun hw => ⟨hclock, hdone, .refl _ _ _, fun haccepted => ⟨haccepted, rfl, ?_⟩⟩
      intro _ _ _ _ _ _
      have hfly := inFlight_of_head hhead hclaimable
      obtain ⟨-, hu, hc, cur, hcur, rfl, -⟩ := hrows.head hw.rows hhead
      rw [w.store.fillSequence_eq cur] at hfly hu hc
      exact ⟨cur.key, cur, hcur, congrArg Id.value hu, hc, hfly⟩
    rename_i hclaimable
    refine sat_store fun hw => ⟨⟨⟨trivial, trivial⟩, trivial⟩, ?_⟩
    obtain ⟨hn, hu, hc, cur, hcur, rfl, hcurhead⟩ := hrows.head hw.rows hhead
    have hfill := w.store.fillSequence_eq cur
    have hcurc : claimable now cur = true := by
      rw [hfill] at hclaimable
      exact hclaimable
    obtain ⟨message, hmessage, -⟩ := hw.rows.message hcur
    have hanswer : (w.store.answer (.findMessage (w.store.fillSequence cur).messageId)).1 =
        some message := by
      rw [hfill]
      exact hmessage
    rw [hanswer]
    refine sat_deliver fun _ => ⟨⟨⟨?_, ?_⟩, trivial⟩, fun disposition => ?_⟩
    · exact ⟨cur, message, hcur, hmessage, open_of_claimable hcurc, hcurhead, rfl⟩
    · exact ⟨cur, hcur, by rw [hfill]; rfl, by rw [hfill]; rfl, hclock ▸ hcurc⟩
    -- another answer than an acceptance is the last one of the loop
    have hrefused {w1 : World ι} {e : DeliveryAttempt × DeliverDisposition}
        (hsent : w1.sent = e :: w.sent) (he : e.2 ≠ .accepted) : ¬w1.AllAccepted :=
      fun haccepted => he (haccepted e (by simp [hsent]))
    cases disposition with
    | closed =>
      exact sat_ret fun _ => ⟨hclock, hdone, .refl _ _ _, fun h => absurd h (hrefused rfl (by simp))⟩
    | paused =>
      refine sat_modify fun _ =>
        ⟨⟨⟨trivial, trivial⟩, trivial⟩, ⟨⟨fun other hne hmem => ?_, trivial⟩, rfl, fun _ => ?_⟩, ?_⟩
      · have hmem' := TreeSet.mem_insert.1 hmem
        rw [LawfulEqCmp.compare_eq_iff_eq] at hmem'
        exact hmem'.resolve_left (Ne.symm hne)
      · exact .inr (hrefused rfl (by simp))
      · exact sat_ret fun _ =>
          ⟨hclock, hdone, .refl _ _ _, fun h => absurd h (hrefused rfl (by simp))⟩
    | accepted =>
      subst hclock
      refine sat_bind (P := fun row w1 => (∃ delay legacy, row = (S.messaging i).claimed
          session w.clock delay legacy (w.store.fillSequence cur)) ∧
        w1.store = w.store.updateDelivery row ∧ w1.clock = w.clock ∧
        w1.sent = (attemptFor message (w.store.fillSequence cur), .accepted) :: w.sent) ?_ ?_
      · exact writeClaim_sat (w := { w with
            sent := (attemptFor message (w.store.fillSequence cur), .accepted) :: w.sent })
          hcur hmessage (by rw [← hu, hfill]) hcurc hcurhead rfl
      rintro row w1 - ⟨⟨delay, legacy, rfl⟩, hstore, hclock1, hsent1⟩
      have hrow : w.store.row (w.store.fillSequence cur).key = some cur := by
        rw [w.store.fillSequence_key, hcur]
      have hout : w.store.Outside w1.store session.userId [c] := by
        rw [hstore]
        exact outside_updateDelivery hrow (by rw [hfill]; rfl) hu hc
      refine Sat.returns_mono (ih _ hclock1 ?_ ?_ ?_) ?_
      · rw [hstore]
        exact hrows.update hn rfl rfl rfl rfl
      · intro e he
        rw [hstore]
        exact ⟨(hrest e he).1,
          (hrest e he).2.update_other (hrest e he).1 hc hrow (by rw [hfill]; rfl)⟩
      · intro hlease
        have hrowc : claimable w.clock ((S.messaging i).claimed session w.clock delay legacy
            (w.store.fillSequence cur)) = false := claimable_claimed hlease
        have hlt := countP_claimable_set hn hclaimable hrowc
        have hle := hfuel hlease
        omega
      · rintro paused w2 - ⟨hclock2, hrest2, hout2, hserved⟩
        refine ⟨hclock2, hrest2, hout.trans hout2, fun haccepted => ?_⟩
        obtain ⟨haccepted1, hserved⟩ := hserved haccepted
        exact ⟨fun e he => haccepted1 e (by rw [hsent1]; exact List.mem_cons_of_mem _ he), hserved⟩

lemma claimConversations_sat (session : SessionIdentity) (now : ℤ)
    (groups : List (ℕ × List Delivery)) (hclock : w.clock = now)
    (hgroups : ∀ e ∈ groups, Mirrors w.store session.userId e.1 e.2)
    (hnodup : (groups.map Prod.fst).Nodup) :
    Sat (S.claims i session)
      (Returns fun _ w1 => w.store.Outside w1.store session.userId (groups.map Prod.fst) ∧
        (w1.AllAccepted → w.AllAccepted ∧
          ∀ c ∈ groups.map Prod.fst, w1.store.ServedIn session.userId c))
      ((S.messaging i).claimConversations session now groups) w := by
  induction groups generalizing w with
  | nil => exact sat_ret fun _ => ⟨.refl _ _ _, fun haccepted => ⟨haccepted, by simp⟩⟩
  | cons e rest ih =>
    obtain ⟨c, rows⟩ := e
    obtain ⟨hc, hnodup⟩ := List.nodup_cons.1 hnodup
    have hrest : ∀ e ∈ rest, e.1 ≠ c ∧ Mirrors w.store session.userId e.1 e.2 :=
      fun e he => ⟨fun hec => hc (List.mem_map.2 ⟨e, he, hec⟩),
        hgroups e (List.mem_cons_of_mem _ he)⟩
    have hfuel : rows.countP (claimable now) < rows.length + 1 + (S.messaging i).patience := by
      have hle := List.countP_le_length (p := claimable now) (l := rows)
      omega
    refine sat_bind (claimLoop_sat session now c _ rows rest hclock
      (hgroups (c, rows) (by simp)) hrest fun _ => hfuel) ?_
    rintro paused w1 - ⟨hclock1, hrest1, hout1, hserved1⟩
    cases paused with
    | true =>
      refine sat_ret fun _ => ⟨hout1.cons (.refl _ _ _), fun haccepted => ?_⟩
      cases (hserved1 haccepted).2.1
    | false =>
      refine Sat.returns_mono (ih hclock1 hrest1 hnodup) ?_
      rintro - w2 - ⟨hout2, hserved2⟩
      refine ⟨hout1.cons hout2, fun haccepted => ?_⟩
      obtain ⟨haccepted1, hserved2⟩ := hserved2 haccepted
      obtain ⟨haccepted, -, hserved1⟩ := hserved1 haccepted1
      refine ⟨haccepted, fun c' hc' => ?_⟩
      rcases List.mem_cons.1 hc' with rfl | hc'
      · exact hout2.servedIn hc hserved1
      · exact hserved2 c' hc'

/-- **Claiming for a session** keeps to the contract, and it returns.  It leaves the other users
alone, and it serves its own user if the session is not paused and the sink accepts everything. -/
theorem claimFor_claims (session : SessionIdentity) :
    Sat (S.claims i session)
      (Returns fun _ w1 => w.store.OtherUsers w1.store session.userId ∧
        (session ∉ (w.process i).paused → w1.AllAccepted → w1.store.Served session.userId))
      ((S.messaging i).claimFor session) w := by
  refine sat_load fun _ => ⟨⟨⟨trivial, trivial⟩, trivial⟩, sat_ite (fun hpaused => ?_) fun _ => ?_⟩
  · exact sat_ret fun _ => ⟨fun _ _ => rfl, fun h => absurd hpaused h⟩
  refine sat_store fun hw => ⟨⟨⟨trivial, trivial⟩, trivial⟩,
    sat_nowMs fun _ => ⟨⟨⟨trivial, trivial⟩, trivial⟩, fun now => ?_⟩⟩
  refine Sat.returns_mono (claimConversations_sat session now _ rfl ?_
    (OrderedMap.nodup_keys_toList _)) ?_
  · rintro ⟨c, rows⟩ hmem
    exact mirrors_byConversation hw.rows hmem
  rintro - w1 - ⟨hout, hserved⟩
  refine ⟨hout.otherUsers, fun _ haccepted c => ?_⟩
  by_cases hc : c ∈ (byConversation
      (w.store.deliveriesByRecipient session.userId)).toList.map Prod.fst
  · exact (hserved haccepted).2 c hc
  · -- a conversation that is not in the snapshot has no open row
    refine hout.servedIn hc fun k cur hcur hu hconv hopen => absurd ?_ hc
    have hcur' : cur.recipient = session.userId :=
      Id.ext ((congrArg DeliveryKey.recipient (hw.rows.key_eq hcur)).trans hu)
    have hmem : w.store.fillSequence cur ∈
        (byConversation (w.store.deliveriesByRecipient session.userId))[c]?.getD [] := by
      rw [getElem?_byConversation, List.mem_filter]
      refine ⟨mem_deliveriesByRecipient.2 ⟨k, cur, hcur, hcur', rfl⟩, ?_⟩
      rw [w.store.fillSequence_eq cur]
      simpa using ⟨hopen, hconv⟩
    cases hlook : (byConversation (w.store.deliveriesByRecipient session.userId))[c]? with
    | none => simp [hlook] at hmem
    | some rows => exact List.mem_map.2 ⟨(c, rows), OrderedMap.mem_toList.2 hlook, rfl⟩

end MuduoChat
