import MuduoChat.Cluster.Snapshots

/-!
# The programs keep to what they have seen

Every program that writes rows back has read them before, and each of its writes concerns a
row that the program holds: one that it has read, or written, in the state in which it has it
(`Held`).  The loops of the coordinator hold the rows that they have still to look at.
-/

namespace MuduoChat

open Std Prog Code Relation

variable {ι : Type} [DecidableEq ι]

/-! ### The rows that a program holds -/

/-- The program has each row once, and if it has it in a state other than acknowledged, that
is what its process has last seen of it. -/
structure Held (i : ι) (rows : List Delivery) (s : Cluster ι) : Prop where
  nodup : (rows.map rowKey).Nodup
  seen : ∀ d ∈ rows, d.state ≠ .acknowledged → seenOpen i (rowKey d) s.log = true

/-- What a process has seen after it has written a row. -/
def Seen (i : ι) (d : Delivery) (s s' : Cluster ι) : Prop :=
  ∀ k, seenOpen i k s'.log =
    if rowKey d = k then decide (d.state ≠ .acknowledged) else seenOpen i k s.log

namespace Held

variable {i : ι} {rows rest : List Delivery} {s s' : Cluster ι}

lemma stable (h : Held i rows s) (hs : snapshotRely i s s') : Held i rows s' :=
  ⟨h.nodup, fun d hd hopen => (hs _).trans (h.seen d hd hopen)⟩

lemma right (h : Held i (rows ++ rest) s) : Held i rest s :=
  ⟨(List.nodup_append.1 (List.map_append ▸ h.nodup)).2.1,
    fun d hd => h.seen d (List.mem_append_right rows hd)⟩

lemma of_cons {d : Delivery} (h : Held i (d :: rest) s) : Held i rest s :=
  ⟨(List.nodup_cons.1 h.nodup).2, fun x hx => h.seen x (List.mem_cons_of_mem d hx)⟩

lemma set (h : Held i rows s) {n : ℕ} {d row : Delivery} (hn : rows[n]? = some d)
    (hk : rowKey row = rowKey d) (hs : Seen i row s s') : Held i (rows.set n row) s' := by
  have hkeys : (rows.set n row).map rowKey = rows.map rowKey := by
    refine List.ext_getElem? fun m => ?_
    rw [List.map_set, List.getElem?_set, List.getElem?_map]
    split
    · rename_i hm
      subst hm
      simp only [List.length_map, hn, Option.map_some, hk, ite_eq_left_iff]
      intro hlt
      rw [List.getElem?_eq_none (Nat.le_of_not_lt hlt)] at hn
      cases hn
    · rfl
  refine ⟨hkeys ▸ h.nodup, fun x hx hopen => ?_⟩
  rw [hs (rowKey x)]
  split
  · -- it is the row that has been written, since keys do not repeat
    rename_i hkey
    have hmem : row ∈ rows.set n row := List.mem_set (List.getElem?_eq_some_iff.1 hn).1 row
    obtain rfl : row = x :=
      List.inj_on_of_nodup_map (hkeys ▸ h.nodup : ((rows.set n row).map rowKey).Nodup) hmem hx hkey
    simpa using hopen
  · rename_i hkey
    rcases List.mem_or_eq_of_mem_set hx with hx | rfl
    · exact h.seen x hx hopen
    · exact absurd rfl hkey

lemma tail {d row : Delivery} (h : Held i (d :: rest) s) (hk : rowKey row = rowKey d)
    (hs : Seen i row s s') : Held i rest s' := by
  have hnodup : rowKey d ∉ rest.map rowKey ∧ (rest.map rowKey).Nodup :=
    List.nodup_cons.1 h.nodup
  refine ⟨hnodup.2, fun x hx hopen => ?_⟩
  rw [hs (rowKey x), if_neg]
  · exact h.seen x (List.mem_cons_of_mem d hx) hopen
  · intro hkey
    exact hnodup.1 (List.mem_map.2 ⟨x, hx, (hk.symm.trans hkey).symm⟩)

lemma byConversation (h : Held i rows s) :
    Held i ((Coordinator.byConversation rows).toList.flatMap Prod.snd) s := by
  have hmem : ∀ g ∈ (Coordinator.byConversation rows).toList, ∀ d ∈ g.2,
      d ∈ rows ∧ d.conversationId.value = g.1 := by
    intro g hg d hd
    rw [Coordinator.snd_of_mem_byConversation hg] at hd
    obtain ⟨hmem, hd⟩ := List.mem_filter.1 hd
    simp only [Bool.and_eq_true, decide_eq_true_eq] at hd
    exact ⟨hmem, hd.2⟩
  have hrows : ∀ d ∈ (Coordinator.byConversation rows).toList.flatMap Prod.snd, d ∈ rows := by
    intro d hd
    obtain ⟨g, hg, hd⟩ := List.mem_flatMap.1 hd
    exact (hmem g hg d hd).1
  refine ⟨List.Nodup.map_on ?_ ?_, fun d hd => h.seen d (hrows d hd)⟩
  · exact fun x hx y hy => List.inj_on_of_nodup_map h.nodup (hrows x hx) (hrows y hy)
  · rw [List.nodup_flatMap]
    refine ⟨fun g hg => ?_, ?_⟩
    · rw [Coordinator.snd_of_mem_byConversation hg]
      exact (List.Nodup.of_map rowKey h.nodup).filter _
    · refine List.Pairwise.imp_of_mem ?_
        (List.pairwise_map.1 (OrderedMap.nodup_keys_toList (Coordinator.byConversation rows)))
      intro g g' hg hg' hne d hd hd'
      exact hne ((hmem g hg d hd).2.symm.trans (hmem g' hg' d hd').2)

end Held

/-! ### Rules -/

/-- A call without rows. -/
def Rowless (c : Call) : Prop := c.rowless = true

section Rules

variable {S : Setup ι} {fanOutCap : ℕ} {i : ι} {s : Cluster ι} {α β : Type}

lemma snapshotRely_trans {s1 s2 s3 : Cluster ι} (h : snapshotRely i s1 s2)
    (h' : snapshotRely i s2 s3) : snapshotRely i s1 s3 :=
  fun k => (h' k).trans (h k)

lemma rowless_bind {p : Code α} {f : α → Code β} {P : β → Cluster ι → Prop}
    (hp : p.Calls Rowless)
    (hf : ∀ a s1, snapshotRely i s s1 → (f a).Sat (S.snapshotContract fanOutCap i) (Ends P) s1) :
    (p >>= f).Sat (S.snapshotContract fanOutCap i) (Ends P) s := by
  have hsat : p.Sat (S.snapshotContract fanOutCap i) (fun _ s1 => snapshotRely i s s1) s := by
    refine Calls.sat trivial ?_ snapshotRely_trans (fun _ _ h => h) ?_ hp s
    · rintro c s hc d rfl
      cases hc
    · exact fun c ω s r s1 hc h => Cluster.snapshotRely_of_rowless hc h
  refine Sat.bind (fun _ _ => rfl) (hsat.mono fun r s1 _ h1 => ?_)
  cases r with
  | ok a => exact hf a s1 h1
  | error e => trivial

/-- A program that may be run in any state. -/
def Careful (S : Setup ι) (fanOutCap : ℕ) (i : ι) (p : Code α) : Prop :=
  ∀ s, p.Sat (S.snapshotContract fanOutCap i) (Ends fun _ _ => True) s

lemma Careful.ret (a : α) : Careful S fanOutCap i (ret a) := fun _ _ _ _ => trivial

lemma Careful.of_rowless {p : Code α} (hp : p.Calls Rowless) : Careful S fanOutCap i p := by
  intro s
  rw [← bind_ret_right p]
  exact rowless_bind hp fun _ _ _ _ _ _ => trivial

lemma Careful.bind {p : Code α} {f : α → Code β} (hp : Careful S fanOutCap i p)
    (hf : ∀ a, Careful S fanOutCap i (f a)) : Careful S fanOutCap i (p >>= f) :=
  fun s => Sat.ends_bind (fun _ _ => rfl) (hp s) fun a s1 _ _ => hf a s1

lemma Careful.ask_bind {c : Call} {f : c.Value → Code α} (hc : c.rowless = true)
    (hf : ∀ v, Careful S fanOutCap i (f v)) : Careful S fanOutCap i (Prog.ask (E := Port) c >>= f) :=
  .bind (.of_rowless (Calls.ask hc)) hf

lemma Careful.tryCatch {p : Code α} {f : Fault → Code α} (hp : Careful S fanOutCap i p)
    (hf : ∀ e, Careful S fanOutCap i (f e)) : Careful S fanOutCap i (p.tryCatch f) := by
  refine fun s => Sat.tryCatch (fun _ _ => rfl) ((hp s).mono fun r s1 _ _ => ?_)
  cases r with
  | ok a => trivial
  | error e => exact hf e s1

lemma Careful.forEach {τ : Type} {body : τ → Code Unit}
    (hbody : ∀ x, Careful S fanOutCap i (body x)) (xs : List τ) :
    Careful S fanOutCap i (Prog.forEach body xs) := by
  induction xs with
  | nil => exact Careful.ret ()
  | cons x xs ih => exact Careful.bind (hbody x) fun _ => ih

/-! ### Reading and writing rows -/

lemma held_of_read {cond : DeliveryWhere} {ωs : List ClusterEnv} {rows : List Delivery}
    {s' : Cluster ι}
    (h : (MySQLMessageStore.deliveriesWhere cond).eval (Cluster.handleWire i) ωs s =
      some (.ok rows, s')) :
    Held i rows { s' with log := readEvents i (.ok rows) ++ s'.log } := by
  obtain ⟨-, -, hrows⟩ := Cluster.eval_deliveriesWhere h
  refine ⟨(hrows rows rfl).1, fun d hd hopen => ?_⟩
  have hmem : rowKey d ∈ rows.map rowKey := List.mem_map_of_mem hd
  simp only [readEvents, List.cons_append, List.nil_append, seenOpen, hmem, true_and, if_true,
    List.any_eq_true]
  exact ⟨d, hd, by simpa using hopen⟩

lemma sat_read {c : StoreCall} (hc : c.isUpdate = false) {P : c.Value → Cluster ι → Prop}
    (hstable : ∀ v s1 s2, P v s1 → snapshotRely i s1 s2 → P v s2)
    (hread : ∀ ωs s1 v s2, Cluster.handle fanOutCap i (.store c) ωs s1 = some (.ok v, s2) →
      P v s2) :
    (store c).Sat (S.snapshotContract fanOutCap i) (Ends P) s := by
  refine Sat.ask fun s1 _ _ => ⟨?_, fun ωs r s2 hr s3 h3 _ => ?_⟩
  · rintro d heq
    cases heq
    cases hc
  · cases r with
    | ok v => exact hstable v s2 s3 (hread ωs s1 v s2 hr) h3
    | error e => trivial

lemma sat_deliveriesByRecipient (u : UserId) :
    (store (.deliveriesByRecipient u)).Sat (S.snapshotContract fanOutCap i)
      (Ends fun rows s' => Held i rows s') s := by
  refine sat_read rfl (fun _ _ _ h hs => h.stable hs) fun ωs s1 rows s2 hr => ?_
  obtain ⟨⟨r, s'⟩, heval, heq⟩ := Option.map_eq_some_iff.1 hr
  cases heq
  exact held_of_read heval

lemma sat_deliveriesDueForRetry (nowMs : ℤ) (limit : ℕ) :
    (store (.deliveriesDueForRetry nowMs limit)).Sat (S.snapshotContract fanOutCap i)
      (Ends fun rows s' => Held i rows s' ∧ ∀ d ∈ rows, d.state = .inFlight) s := by
  refine sat_read rfl (fun _ _ _ h hs => ⟨h.1.stable hs, h.2⟩) fun ωs s1 rows s2 hr => ?_
  obtain ⟨⟨r, s'⟩, heval, heq⟩ := Option.map_eq_some_iff.1 hr
  cases heq
  obtain ⟨-, -, hrows⟩ := Cluster.eval_deliveriesWhere heval
  exact ⟨held_of_read heval, fun d hd => ((hrows rows rfl).2 d hd).2 _ _ rfl⟩

lemma sat_updateDelivery {d : Delivery}
    (hd : d.state = .acknowledged ∨ seenOpen i (rowKey d) s.log = true) :
    (store (.updateDelivery d)).Sat (S.snapshotContract fanOutCap i)
      (Ends fun _ s' => Seen i d s s') s := by
  refine Sat.ask fun s1 h1 _ => ⟨?_, fun ωs r s2 hr s3 h3 _ => ?_⟩
  · rintro d' heq
    cases heq
    exact hd.imp id fun hseen => (h1 _).trans hseen
  · cases r with
    | error e => trivial
    | ok v =>
      obtain ⟨⟨r, s'⟩, heval, heq⟩ := Option.map_eq_some_iff.1 hr
      cases heq
      obtain ⟨hlog, -⟩ := Cluster.eval_updateDelivery heval
      intro k
      rw [h3 k, ← h1 k]
      simp [rowEvents, seenOpen, hlog]

end Rules

/-! ### The coordinator -/

namespace Coordinator

section Rowless

lemma rowless_record (e : MetricEvent) : (record e).Calls Rowless := Calls.ask rfl

lemma rowless_modify (f : Process → Process) : (modify f).Calls Rowless :=
  Calls.ask_bind rfl fun _ => Calls.ask rfl

lemma rowless_backoffMs (co : Coordinator) (attempt : ℕ) :
    (co.backoffMs attempt).Calls Rowless := by
  simp only [backoffMs]
  split
  · exact Calls.ask_bind rfl fun _ => trivial
  · trivial

lemma rowless_recordClaim (src : DeliveryState) (legacy : Bool) (row : Delivery) :
    (recordClaim src legacy row).Calls Rowless := by
  refine Calls.bind (rowless_record _) fun _ => Calls.bind (rowless_record _) fun _ => ?_
  exact Calls.when (Calls.bind (rowless_record _) fun _ => rowless_record _)

end Rowless

variable {S : Setup ι} {fanOutCap : ℕ} {i : ι} {s : Cluster ι}

lemma writeClaim_seen (co : Coordinator) (session : SessionIdentity) (now : ℤ)
    (message : Message) {head : Delivery} (hhead : seenOpen i (rowKey head) s.log = true) :
    (co.writeClaim session now message head).Sat (S.snapshotContract fanOutCap i)
      (Ends fun row s' => rowKey row = rowKey head ∧ Seen i row s s') s := by
  refine rowless_bind (Calls.bind (rowless_backoffMs co _) fun _ => trivial) fun delay s1 h1 => ?_
  refine rowless_bind (Calls.when (rowless_modify _)) fun _ s2 h2 => ?_
  have hseen := snapshotRely_trans h1 h2
  refine Sat.ends_bind (fun _ _ => rfl)
    (sat_updateDelivery (.inr ((hseen (rowKey head)).trans hhead))) fun _ s3 _ h3 => ?_
  refine rowless_bind (rowless_recordClaim _ _ _) fun _ s4 h4 => ?_
  intro s5 h5 _
  refine ⟨rfl, fun k => ?_⟩
  rw [h5 k, h4 k, h3 k, hseen k]

/-- The claim loop holds its rows, and leaves alone those of the conversations to come. -/
lemma claimLoop_held (co : Coordinator) (session : SessionIdentity) (now : ℤ)
    (rest : List Delivery) (fuel : ℕ) {rows : List Delivery} (h : Held i (rows ++ rest) s) :
    (co.claimLoop session now fuel rows).Sat (S.snapshotContract fanOutCap i)
      (Ends fun _ s' => Held i rest s') s := by
  have hend {b : Bool} {rows : List Delivery} {s : Cluster ι} (h : Held i (rows ++ rest) s) :
      (ret b : Code Bool).Sat (S.snapshotContract fanOutCap i)
        (Ends fun _ s' => Held i rest s') s :=
    fun _ h1 _ => h.right.stable h1
  induction fuel generalizing rows s with
  | zero => exact fun _ _ _ => trivial
  | succ fuel ih =>
    unfold claimLoop
    split
    · exact hend h
    · rename_i j head hhead
      split
      · rename_i hclaim
        refine rowless_bind (Calls.ask rfl) fun message s1 h1 => ?_
        cases message with
        | none => exact hend (h.stable h1)
        | some message =>
          refine rowless_bind (Calls.ask rfl) fun disposition s2 h2 => ?_
          have hheld : Held i (rows ++ rest) s2 := h.stable (snapshotRely_trans h1 h2)
          cases disposition with
          | accepted =>
            -- the head is one of the rows, and it is open
            obtain hnone | ⟨n, hj, hn, hopen⟩ := headFrom_origin hhead
            · cases hnone
            obtain rfl : j = n := hj.trans (Nat.zero_add n)
            have hlt : j < rows.length := (List.getElem?_eq_some_iff.1 hn).1
            have hn' : (rows ++ rest)[j]? = some head :=
              (List.getElem?_append_left hlt).trans hn
            have hseen : seenOpen i (rowKey head) s2.log = true := by
              refine hheld.seen head (List.mem_of_getElem? hn') fun hacked => ?_
              simp [hacked] at hopen
            refine Sat.ends_bind (fun _ _ => rfl)
              (writeClaim_seen co session now message hseen) ?_
            rintro row s3 - ⟨hk, h3⟩
            refine ih ?_
            rw [← List.set_append_left _ _ hlt]
            exact hheld.set hn' hk h3
          | paused =>
            refine rowless_bind (rowless_modify _) fun _ s3 h3 => ?_
            exact hend (hheld.stable h3)
          | closed => exact hend hheld
      · exact hend h

lemma claimConversations_held (co : Coordinator) (session : SessionIdentity) (now : ℤ)
    {groups : List (ℕ × List Delivery)} (h : Held i (groups.flatMap Prod.snd) s) :
    (co.claimConversations session now groups).Sat (S.snapshotContract fanOutCap i)
      (Ends fun _ _ => True) s := by
  induction groups generalizing s with
  | nil => exact fun _ _ _ => trivial
  | cons g groups ih =>
    refine Sat.ends_bind (fun _ _ => rfl)
      (claimLoop_held co session now (groups.flatMap Prod.snd) _ h) fun paused s1 _ h1 => ?_
    split
    · exact fun _ _ _ => trivial
    · exact ih h1

lemma careful_claimFor (co : Coordinator) (session : SessionIdentity) :
    Careful S fanOutCap i (co.claimFor session) := by
  intro s
  refine rowless_bind (Calls.ask rfl) fun p s1 _ => ?_
  split
  · exact fun _ _ _ => trivial
  · refine Sat.ends_bind (fun _ _ => rfl) (sat_deliveriesByRecipient _) fun rows s2 _ h2 => ?_
    refine rowless_bind (Calls.ask rfl) fun now s3 h3 => ?_
    exact claimConversations_held co session now (h2.byConversation.stable h3)

lemma careful_acknowledge (co : Coordinator) (acker : SessionIdentity) (messageId : MessageId) :
    Careful S fanOutCap i (co.acknowledge acker messageId) := by
  refine Careful.ask_bind rfl fun p => ?_
  split
  · exact Careful.ret _
  split
  · exact Careful.ret _
  have hread : Careful S fanOutCap i (store (.deliveriesByMessage messageId)) :=
    fun s => sat_read rfl (fun _ _ _ _ _ => trivial) fun _ _ _ _ _ => trivial
  refine Careful.bind hread fun (rows : List Delivery) => ?_
  split
  · exact Careful.ret _
  split
  · exact Careful.ret _
  split
  · exact Careful.ret _
  rename_i mine _ _
  refine Careful.ask_bind rfl fun now => ?_
  have hwrite : Careful S fanOutCap i (store (.updateDelivery (acked now mine))) :=
    fun s => Sat.ends_mono (sat_updateDelivery (.inl rfl)) fun _ _ _ _ => trivial
  refine Careful.bind hwrite fun _ => Careful.bind (careful_claimFor co acker) ?_
  refine fun _ => Careful.of_rowless (Calls.bind (rowless_record _) fun _ => ?_)
  exact Calls.bind (rowless_record _) fun _ => Calls.bind (rowless_record _) fun _ => trivial

lemma release_held {d : Delivery} {rest : List Delivery} (h : Held i (d :: rest) s)
    (hd : d.state = .inFlight) :
    (release d).Sat (S.snapshotContract fanOutCap i) (Ends fun _ s' => Held i rest s') s := by
  have hseen : seenOpen i (rowKey (released d)) s.log = true :=
    h.seen d List.mem_cons_self (by simp [hd])
  refine Sat.ends_bind (fun _ _ => rfl) (sat_updateDelivery (.inr hseen)) fun _ s1 _ h1 => ?_
  have hkey : rowKey (released d) = rowKey d := rfl
  have hrest : Held i rest s1 := h.tail hkey h1
  refine Sat.ends_mono (P := fun _ s' => snapshotRely i s1 s') ?_ fun _ s2 _ h2 => hrest.stable h2
  rw [← bind_ret_right (recordTransition _ _ _ _)]
  exact rowless_bind (rowless_record _) fun _ s2 h2 s3 h3 _ => snapshotRely_trans h2 h3

lemma releases_held {cond : Delivery → Bool} (hcond : ∀ d, cond d = true → d.state = .inFlight)
    {rows : List Delivery} (h : Held i rows s) :
    (Prog.forEach (fun d => Prog.when (cond d) (release d)) rows).Sat
      (S.snapshotContract fanOutCap i) (Ends fun _ _ => True) s := by
  refine Sat.ends_mono (Sat.ends_forEach (fun _ _ => rfl) (P := fun rows s => Held i rows s)
    (fun _ _ hs h => h.stable hs) (fun d rest s h => ?_) rows s h) fun _ _ _ _ => trivial
  cases hd : cond d with
  | true => exact release_held h (hcond d hd)
  | false =>
    intro s1 h1 _
    exact h.of_cons.stable h1

lemma careful_sessionAvailable (co : Coordinator) (session : SessionIdentity) :
    Careful S fanOutCap i (co.sessionAvailable session) := by
  intro s
  refine rowless_bind (Calls.ask rfl) fun p s1 _ => ?_
  split
  · exact fun _ _ _ => trivial
  refine rowless_bind (Calls.ask rfl) fun _ s2 _ => ?_
  refine Sat.ends_bind (fun _ _ => rfl) (sat_deliveriesByRecipient _) fun rows s3 _ h3 => ?_
  refine Sat.ends_bind (fun _ _ => rfl) (releases_held (fun d hd => ?_) h3) fun _ s4 _ _ => ?_
  · simp only [fenced, Bool.and_eq_true, decide_eq_true_eq] at hd
    exact hd.1.1
  · exact rowless_bind (rowless_modify _) fun _ s5 _ => careful_claimFor co session s5

lemma careful_sessionClosed (co : Coordinator) (session : SessionIdentity) :
    Careful S fanOutCap i (co.sessionClosed session) := by
  intro s
  refine rowless_bind (Calls.ask rfl) fun p s1 _ => ?_
  refine rowless_bind (Calls.ask rfl) fun _ s2 _ => ?_
  refine Sat.ends_bind (fun _ _ => rfl) (sat_deliveriesByRecipient _) fun rows s3 _ h3 => ?_
  refine Sat.ends_bind (fun _ _ => rfl) (releases_held (fun d hd => ?_) h3) fun _ s4 _ _ => ?_
  · exact (of_decide_eq_true hd).1
  · split
    · exact careful_claimFor co _ s4
    · exact fun _ _ _ => trivial

lemma careful_resume (co : Coordinator) (session : SessionIdentity) :
    Careful S fanOutCap i (co.resume session) := by
  refine Careful.ask_bind rfl fun p => ?_
  split
  · exact Careful.ret _
  split
  · exact Careful.ret _
  exact Careful.ask_bind rfl fun _ =>
    careful_claimFor co session

lemma careful_onAccepted (co : Coordinator) (recipients : List UserId) :
    Careful S fanOutCap i (co.onAccepted recipients) := by
  refine Careful.forEach (fun u => ?_) recipients
  refine Careful.ask_bind rfl fun (p : Process) => ?_
  split
  · exact careful_claimFor co _
  · exact Careful.ret _

lemma scanDue_held (p : Process) {toClaim : TreeSet SessionIdentity} {due : List Delivery}
    (h : Held i due s) (hdue : ∀ d ∈ due, d.state = .inFlight) :
    (scanDue p toClaim due).Sat (S.snapshotContract fanOutCap i) (Ends fun _ _ => True) s := by
  induction due generalizing s toClaim with
  | nil => exact fun _ _ _ => trivial
  | cons d due ih =>
    have hrest : ∀ d ∈ due, d.state = .inFlight := fun x hx => hdue x (List.mem_cons_of_mem d hx)
    unfold scanDue
    split
    · exact ih h.of_cons hrest
    · refine Sat.ends_bind (fun _ _ => rfl) (release_held h (hdue d List.mem_cons_self)) ?_
      exact fun _ s1 _ h1 => ih h1 hrest

lemma careful_runRetryScan (co : Coordinator) (now : ℤ) :
    Careful S fanOutCap i (co.runRetryScan now) := by
  intro s
  refine rowless_bind (rowless_modify _) fun _ s1 _ => ?_
  refine Sat.ends_bind (fun _ _ => rfl) (sat_deliveriesDueForRetry _ _) ?_
  rintro due s2 - ⟨h2, hdue⟩
  split
  · exact fun _ _ _ => trivial
  refine rowless_bind (Calls.ask rfl) fun p s3 h3 => ?_
  refine Sat.ends_bind (fun _ _ => rfl) (scanDue_held p (h2.stable h3) hdue) fun toClaim s4 _ _ => ?_
  have hclaims : Careful S fanOutCap i (Prog.forEach co.claimFor toClaim.toList) :=
    Careful.forEach (careful_claimFor co) _
  have hanswer : (do let p ← load; pure p.tickNextAttemptsMs : Code (List ℤ)).Calls Rowless :=
    Calls.ask_bind rfl fun _ => trivial
  exact Careful.bind hclaims (fun _ => Careful.of_rowless hanswer) s4

end Coordinator

/-! ### Reliable messaging and the chat codec -/

namespace ReliableMessaging

open Coordinator

variable {S : Setup ι} {fanOutCap : ℕ} {i : ι} (rm : ReliableMessaging)

lemma careful_notify (recipients : List UserId) :
    Careful S fanOutCap i (rm.notifyAcceptedBestEffort recipients) :=
  Careful.tryCatch (careful_onAccepted rm recipients) fun _ => Careful.ret _

lemma careful_acceptAgain (existing : Message) (cmd : SendMessageCommand) :
    Careful S fanOutCap i (rm.acceptAgain existing cmd) := by
  unfold acceptAgain
  split
  · refine Careful.ask_bind rfl fun _ => ?_
    exact Careful.bind (careful_notify rm _) fun _ => Careful.ret _
  · exact Careful.ask_bind rfl fun _ => Careful.ret _

lemma rowless_recordAccepted (draft accepted : Message) (recipients : List UserId) :
    (recordAccepted draft accepted recipients).Calls Rowless := by
  refine Calls.bind (rowless_record _) fun _ => Calls.bind (rowless_record _) fun _ => ?_
  refine Calls.bind (Calls.when (rowless_record _)) fun _ => ?_
  exact Calls.forEach (fun _ => rowless_record _) _

lemma careful_acceptNew (sender : SessionIdentity) (cmd : SendMessageCommand) :
    Careful S fanOutCap i (rm.acceptNew sender cmd) := by
  have hinsert (d : Delivery) : (store (.insertDelivery d)).Calls Rowless := Calls.ask rfl
  refine Careful.ask_bind rfl fun _ => ?_
  refine Careful.ask_bind rfl fun _ => ?_
  refine Careful.ask_bind rfl fun _ => ?_
  refine Careful.ask_bind rfl fun _ => ?_
  refine Careful.bind (Careful.forEach (fun _ => Careful.of_rowless (hinsert _)) _) fun _ => ?_
  refine Careful.bind (Careful.of_rowless (rowless_recordAccepted _ _ _)) fun _ => ?_
  exact Careful.bind (careful_notify rm _) fun _ => Careful.ret _

lemma careful_accept (sender : SessionIdentity) (cmd : SendMessageCommand) :
    Careful S fanOutCap i (rm.accept sender cmd) := by
  refine Careful.ask_bind rfl fun existing => ?_
  cases existing with
  | some existing => exact careful_acceptAgain rm existing cmd
  | none =>
    refine Careful.tryCatch (careful_acceptNew rm sender cmd) fun e => ?_
    refine Careful.of_rowless (Calls.bind ?_ fun _ => trivial)
    unfold recordRefusal
    split
    · exact rowless_record _
    · exact rowless_record _
    · trivial

lemma careful_runTick : Careful S fanOutCap i rm.runTick := by
  refine Careful.ask_bind rfl fun now => ?_
  refine Careful.ask_bind rfl fun expired => ?_
  have hexpired : (recordExpired expired).Calls Rowless :=
    Calls.forEach (fun _ => Calls.bind (rowless_record _) fun _ => rowless_record _) _
  have hcleanup : (rm.cleanup now).Calls Rowless := by
    refine Calls.ask_bind rfl fun p => ?_
    split
    · exact Calls.ask_bind rfl fun _ => Calls.ask_bind rfl fun _ => trivial
    · trivial
  refine Careful.bind (Careful.of_rowless hexpired) fun _ => ?_
  refine Careful.bind (Careful.of_rowless hcleanup) fun _ => ?_
  refine Careful.bind (careful_runRetryScan rm now) fun _ => ?_
  exact Careful.ask_bind rfl fun _ => Careful.ret _

end ReliableMessaging

section Code

open Coordinator ReliableMessaging

variable {S : Setup ι} {fanOutCap : ℕ} {i : ι}

lemma rowless_resolveTarget (userId : ℤ) (parsed : ParsedChatMessage) (kind : CommandKind) :
    (resolveTarget userId parsed kind).Calls Rowless := by
  cases kind with
  | direct =>
    refine Calls.ask_bind rfl fun err => ?_
    split <;> trivial
  | group =>
    refine Calls.ask_bind rfl fun members => ?_
    split
    · trivial
    · split
      · trivial
      · split <;> trivial

lemma rowless_chooseKey (userId : ℤ) (parsed : ParsedChatMessage) :
    (chooseKey userId parsed).Calls Rowless := by
  unfold chooseKey
  split
  · exact Calls.ask_bind rfl fun _ => trivial
  · trivial

lemma careful_handleChat (rm : ReliableMessaging) (userId generation : ℤ) (kind : CommandKind)
    (js : Json) : Careful S fanOutCap i (handleChat rm userId generation kind js) := by
  unfold handleChat
  split
  · exact Careful.ret _
  split
  · exact Careful.ret _
  refine Careful.bind ?_ fun _ => Careful.ret _
  refine Careful.bind (Careful.of_rowless (rowless_resolveTarget _ _ _)) fun target => ?_
  cases target with
  | error err => exact Careful.ret _
  | ok target =>
    refine Careful.bind (Careful.of_rowless (rowless_chooseKey _ _)) fun key => ?_
    split
    · exact fun _ _ _ _ => trivial
    · refine Careful.tryCatch ?_ fun _ => Careful.ret _
      exact Careful.bind (careful_accept rm _ _) fun _ => Careful.ret _

lemma careful_code (op : Op) : Careful S fanOutCap i (S.code i op) := by
  have hanswer {α : Type} {p : Code α} {f : α → Reply} (hp : Careful S fanOutCap i p) :
      Careful S fanOutCap i (p >>= fun a => pure (f a)) :=
    Careful.bind hp fun _ => Careful.ret _
  cases op with
  | accept sender cmd => exact hanswer (careful_accept _ sender cmd)
  | acknowledge acker id => exact hanswer (careful_acknowledge _ acker id)
  | sessionAvailable session =>
    refine hanswer (Careful.bind (careful_sessionAvailable _ session) fun _ => ?_)
    refine Careful.bind (Careful.tryCatch (careful_runTick _) fun _ => ?_) fun _ => ?_
    · exact Careful.ret _
    · exact Careful.ret _
  | sessionClosed session => exact hanswer (careful_sessionClosed _ session)
  | resume session => exact hanswer (careful_resume _ session)
  | wakeupAccepted recipients => exact hanswer (careful_onAccepted _ recipients)
  | runTick => exact hanswer (careful_runTick _)
  | chat userId generation kind js =>
    exact hanswer (careful_handleChat _ userId generation kind js)
  | joinGroup groupId userId | leaveGroup groupId userId =>
    exact hanswer (Careful.of_rowless (Calls.ask rfl))

end Code

end MuduoChat
