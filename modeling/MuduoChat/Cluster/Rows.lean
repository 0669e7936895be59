import MuduoChat.Cluster.System

/-!
# What the calls of the store do to delivery rows

Only four statements change or remove rows that are there.  The programs of the store are
followed as far as these statements; before them, and in all other calls, rows are at most
added.  The result is one lemma for each kind of call: reading rows (`eval_deliveriesWhere`),
writing one (`eval_updateDelivery`), and everything else (`rowsKept_perform`).
-/

namespace MuduoChat

open Std Prog

/-- The call changes or removes delivery rows that are there. -/
def WireCall.altersRows : WireCall → Bool
  | .sql c => c.altersRows
  | _ => false

/-- The call of the store overwrites a delivery row. -/
def StoreCall.isUpdate : StoreCall → Bool
  | .updateDelivery _ => true
  | _ => false

/-- The call leaves the delivery rows that are there alone. -/
def Mild (c : WireCall) : Prop := c.altersRows = false

/-- The call is of this kind, and if it names a sender, two users or a group, it is in `N`. -/
def Naming (N : Sql → Prop) : WireCall → Prop
  | .sql (.selectDirectConversation low high) => N (.selectDirectConversation low high)
  | .sql (.insertDirectConversation id low high) => N (.insertDirectConversation id low high)
  | .sql (.selectGroupConversation groupId) => N (.selectGroupConversation groupId)
  | .sql (.insertGroupConversation id groupId) => N (.insertGroupConversation id groupId)
  | .sql (.insertChatMessage row) => N (.insertChatMessage row)
  | c => Mild c

/-- The statements that look up or link the conversation of a command. -/
def ConversationOf (sender : SessionIdentity) (cmd : SendMessageCommand) : Sql → Prop
  | .selectDirectConversation low high | .insertDirectConversation _ low high =>
    cmd.kind = .direct ∧ low = toColumn (InMemoryMessageStore.userPair sender cmd).first ∧
      high = toColumn (InMemoryMessageStore.userPair sender cmd).second
  | .selectGroupConversation groupId | .insertGroupConversation _ groupId =>
    cmd.kind = .group ∧ groupId = toColumn cmd.groupId.value
  | _ => False

/-- The statement that writes a message. -/
def MessageOf (draft : Message) : Sql → Prop
  | .insertChatMessage row => row.conversationId = draft.conversationId.value ∧
      row.senderId = toColumn draft.senderId.value
  | _ => False

variable {N N' : Sql → Prop} {α : Type} {p : Query α}

lemma Naming.mono {c : WireCall} (hc : Naming N c) (h : ∀ c, N c → N' c) :
    Naming N' c ∧ Mild c := by
  cases c with
  | sql c =>
    cases c with
    | selectDirectConversation | insertDirectConversation | selectGroupConversation
    | insertGroupConversation | insertChatMessage => exact ⟨h _ hc, rfl⟩
    | _ => exact ⟨hc, hc⟩
  | _ => exact ⟨hc, hc⟩

lemma Prog.Calls.mild (hp : p.Calls (Naming N)) : p.Calls Mild :=
  hp.mono fun _ hc => (hc.mono fun _ => id).2

namespace MySQLMessageStore

/-! ### Programs without such statements -/

lemma naming_acquire : acquire.Calls (Naming N) := by
  refine Calls.ask_bind rfl fun leased => ?_
  split <;> trivial

lemma naming_openGuard : openGuard.Calls (Naming N) := by
  refine Calls.bind naming_acquire fun _ => Calls.ask_bind rfl fun isolated => ?_
  cases isolated
  · trivial
  · exact Calls.ask rfl

lemma naming_commitGuard : commitGuard.Calls (Naming N) := by
  refine Calls.ask_bind rfl fun tx => ?_
  split
  · refine Calls.ask_bind rfl fun failed => ?_
    split
    · trivial
    · refine Calls.ask_bind rfl fun _ => Calls.ask_bind rfl fun _ => ?_
      trivial
  · trivial

lemma naming_rollbackTx : rollbackTx.Calls (Naming N) := by
  refine Calls.ask_bind rfl fun tx => ?_
  split
  · exact Calls.ask_bind rfl fun _ => Calls.ask rfl
  · exact Calls.ask rfl

lemma naming_rollbackAndClear : rollbackAndClear.Calls (Naming N) :=
  Calls.bind naming_rollbackTx fun _ => Calls.ask rfl

lemma naming_beginTx : beginTx.Calls (Naming N) := by
  refine Calls.ask_bind rfl fun tx => ?_
  split
  · trivial
  · exact Calls.bind naming_openGuard fun _ => Calls.ask rfl

lemma naming_commitTx : commitTx.Calls (Naming N) := by
  refine Calls.ask_bind rfl fun tx => ?_
  split
  · refine Calls.bind naming_commitGuard fun _ => Calls.ask_bind rfl fun _ => ?_
    exact Calls.bind naming_rollbackTx fun _ => Calls.ask rfl
  · trivial

lemma naming_lease : lease.Calls (Naming N) := Calls.bind naming_commitTx fun _ => naming_acquire

lemma naming_guarded (hp : p.Calls (Naming N)) : (guarded p).Calls (Naming N) :=
  Calls.tryCatch hp fun _ => Calls.bind naming_rollbackAndClear fun _ => trivial

lemma naming_findOrCreate {insertLink : ℕ → Query Bool} {find : Query (Option ℕ)}
    (hinsert : ∀ id, (insertLink id).Calls (Naming N)) (hfind : find.Calls (Naming N)) :
    (findOrCreate insertLink find).Calls (Naming N) := by
  refine Calls.ask_bind rfl fun _ => Calls.bind hfind fun found => ?_
  cases found with
  | some id => trivial
  | none =>
    refine Calls.ask_bind rfl fun _ => Calls.ask_bind rfl fun id => ?_
    refine Calls.ask_bind rfl fun _ => Calls.bind (hinsert id) fun duplicate => ?_
    split
    · -- the winner of the race is read in a new transaction
      refine Calls.bind naming_rollbackTx fun _ => Calls.bind naming_beginTx fun _ => ?_
      refine Calls.ask_bind rfl fun _ => Calls.bind hfind fun existing => ?_
      cases existing <;> trivial
    · trivial

lemma naming_getOrCreateConversation (fanOutCap : ℕ) (sender : SessionIdentity)
    (cmd : SendMessageCommand) :
    (getOrCreateConversation fanOutCap sender cmd).Calls (Naming (ConversationOf sender cmd)) := by
  unfold getOrCreateConversation
  split
  · trivial
  · refine naming_guarded (Calls.bind naming_commitTx fun _ => Calls.bind naming_beginTx fun _ => ?_)
    refine Calls.ask_bind rfl fun tx => Calls.ask_bind rfl fun _ => ?_
    cases hkind : cmd.kind with
    | direct =>
      exact Calls.bind (naming_findOrCreate (fun _ => Calls.ask ⟨hkind, rfl, rfl⟩)
        (Calls.ask ⟨hkind, rfl, rfl⟩)) fun _ => trivial
    | group =>
      exact Calls.bind (naming_findOrCreate (fun _ => Calls.ask ⟨hkind, rfl⟩)
        (Calls.ask ⟨hkind, rfl⟩)) fun _ => trivial

lemma naming_loadMessage (inTransaction : Bool) (cond : MessageWhere) :
    (loadMessage inTransaction cond).Calls (Naming N) := by
  refine Calls.ask_bind rfl fun found => ?_
  split
  · trivial
  · split <;> trivial

lemma naming_recoverMessage (draft : Message) : (recoverMessage draft).Calls (Naming N) := by
  refine Calls.bind naming_rollbackTx fun _ => Calls.bind naming_beginTx fun _ => ?_
  refine Calls.ask_bind rfl fun _ => Calls.bind (naming_loadMessage _ _) fun found => ?_
  cases found with
  | none => trivial
  | some original =>
    dsimp only
    split <;> trivial

lemma naming_insertMessage (draft : Message) :
    (insertMessage draft).Calls (Naming (MessageOf draft)) := by
  refine naming_guarded (Calls.bind naming_beginTx fun _ => Calls.ask_bind rfl fun _ => ?_)
  refine Calls.ask_bind rfl fun last => ?_
  split
  · trivial
  · refine Calls.ask_bind rfl fun _ => Calls.ask_bind rfl fun _ => ?_
    refine Calls.ask_bind rfl fun _ => Calls.bind (Calls.ask ⟨rfl, rfl⟩) fun inserted => ?_
    split
    · exact naming_recoverMessage draft
    · refine Calls.ask_bind rfl fun _ => Calls.ask_bind rfl fun _ => ?_
      refine Calls.ask_bind rfl fun tx => Calls.bind (Calls.when naming_commitTx) fun _ => ?_
      trivial

lemma naming_insertDelivery (delivery : Delivery) : (insertDelivery delivery).Calls (Naming N) := by
  refine naming_guarded (Calls.bind naming_beginTx fun _ => Calls.ask_bind rfl fun _ => ?_)
  refine Calls.ask_bind rfl fun _ => Calls.ask_bind rfl fun tx => ?_
  exact Calls.ask_bind rfl fun _ => Calls.when naming_commitTx

lemma mild_lease : lease.Calls Mild := (naming_lease (N := fun _ => True)).mild

end MySQLMessageStore

/-! ### Evaluations -/

namespace Cluster

open MySQLMessageStore

variable {ι : Type} [DecidableEq ι] {i : ι} {s s' : Cluster ι}

/-- **Inversion of an answer.**  A call at the level of statements is a statement, or it
touches neither the database nor the log. -/
lemma handleWire_cases {c : WireCall} {ω : ClusterEnv} {r : Except Fault c.Value}
    (h : handleWire i c ω s = some (r, s')) :
    (∃ c' r', c = .sql c' ∧ Database.handle i c' ω.sql s.db = some (r', s'.db) ∧
        s' = { s with db := s'.db }) ∨
      s' = { s with tx := s'.tx, world := s'.world } := by
  have houtside : ∀ {c : Call} {v : Except Fault c.Value},
      outside i c ω.base s = some (v, s') → s' = { s with tx := s'.tx, world := s'.world } := by
    intro c v hv
    simp only [outside, Option.map_eq_some_iff] at hv
    obtain ⟨⟨v', w⟩, -, heq⟩ := hv
    cases heq
    rfl
  cases c with
  | sql c =>
    obtain ⟨⟨r', db⟩, hdb, heq⟩ := Option.map_eq_some_iff.1 h
    cases heq
    exact .inl ⟨c, r', rfl, hdb, rfl⟩
  | fire step =>
    right
    simp only [handleWire] at h
    split at h <;> obtain ⟨-, rfl⟩ := answer_inj h <;> rfl
  | getTx | setTx tx =>
    cases h
    exact .inr rfl
  | port c =>
    right
    cases c with
    | store c => cases h
    | deliver attempt =>
      simp only [handleWire] at h
      split at h
      · cases h
        rfl
      · exact houtside h
    | _ => exact houtside h

variable {ωs : List ClusterEnv}

lemma grows_eval (hp : p.Calls Mild)
    {r : Except Fault α} (h : p.eval (handleWire i) ωs s = some (r, s')) :
    s.db.ledger.Grows s'.db.ledger ∧ s'.log = s.log := by
  refine Calls.eval (R := fun s s' => s.db.ledger.Grows s'.db.ledger ∧ s'.log = s.log)
    (fun s => ⟨.of_eq rfl, rfl⟩) ?_ ?_ hp h
  · rintro s1 s2 s3 ⟨h1, hlog1⟩ ⟨h2, hlog2⟩
    exact ⟨h1.trans h2, hlog2.trans hlog1⟩
  intro c ω s r s1 hc hs
  rcases handleWire_cases hs with ⟨c', r', rfl, hdb, heq⟩ | heq
  · exact ⟨Database.grows_handle hc hdb, by rw [heq]⟩
  · rw [heq]
    exact ⟨.of_eq rfl, rfl⟩

lemma eval_sql {c : Sql} {r : Except Fault c.Value}
    (h : (sql c).eval (handleWire i) ωs s = some (r, s')) :
    ∃ ω r', Database.handle i c ω s.db = some (r', s'.db) ∧ r = r'.mapError Fault.store ∧
      s'.log = s.log := by
  obtain ⟨ω, hω⟩ := eval_ask h
  obtain ⟨⟨r', db⟩, hdb, heq⟩ := Option.map_eq_some_iff.1 hω
  cases heq
  exact ⟨ω.sql, r', hdb, rfl, rfl⟩

/-- A call outside an accept fails before its first statement, or goes on from a state in
which at most rows have been added. -/
lemma eval_lease {f : Unit → Query α} {r : Except Fault α}
    (h : (lease >>= f).eval (handleWire i) ωs s = some (r, s')) :
    (∃ e, r = .error e) ∧ s.db.ledger.Grows s'.db.ledger ∧ s'.log = s.log ∨
      ∃ s1 ωs1, s.db.ledger.Grows s1.db.ledger ∧ s1.log = s.log ∧
        (f ()).eval (handleWire i) ωs1 s1 = some (r, s') := by
  rcases eval_bind h with ⟨e, hr, he⟩ | ⟨u, s1, ωs1, hu, hf⟩
  · exact .inl ⟨⟨e, hr⟩, grows_eval mild_lease he⟩
  · obtain ⟨hgrows, hlog⟩ := grows_eval mild_lease hu
    exact .inr ⟨s1, ωs1, hgrows, hlog, hf⟩

lemma decodeRows_spec {buffer : List Char} {rows : List SelectedDelivery} {ds : List Delivery}
    (h : decodeRows buffer rows = .ok ds) :
    ds.map (fun d => (rowKey d, d.state)) = rows.map fun s => (s.key, s.row.state) := by
  induction rows generalizing buffer ds with
  | nil =>
    obtain rfl : [] = ds := Except.ok.inj h
    rfl
  | cons s rows ih =>
    simp only [decodeRows, Bind.bind, Except.bind, Pure.pure, Except.pure] at h
    split at h
    · cases h
    · split at h
      · cases h
      · rename_i rest hrest
        cases h
        rw [List.map_cons, List.map_cons, ih hrest]
        simp [rowKey]

/-- **Reading rows.**  Each row comes once, with the state it has in the ledger, and the rows
that are due for another attempt are in flight. -/
lemma eval_deliveriesWhere {cond : DeliveryWhere}
    {r : Except Fault (List Delivery)}
    (h : (deliveriesWhere cond).eval (handleWire i) ωs s = some (r, s')) :
    s.db.ledger.Grows s'.db.ledger ∧ s'.log = s.log ∧
      ∀ ds, r = .ok ds → (ds.map rowKey).Nodup ∧
        ∀ d ∈ ds, s'.stateAt (rowKey d) = some d.state ∧
          ∀ now limit, cond = .due now limit → d.state = .inFlight := by
  rcases eval_lease h with ⟨⟨e, rfl⟩, hgrows, hlog⟩ | ⟨s1, ωs1, hgrows, hlog, hrest⟩
  · exact ⟨hgrows, hlog, by simp⟩
  · rcases eval_bind hrest with ⟨e, rfl, he⟩ | ⟨rows, s2, ωs2, hrows, hend⟩
    · obtain ⟨ω, r', hdb, -, hlog'⟩ := eval_sql he
      exact ⟨hgrows.trans (Database.grows_handle rfl hdb), hlog'.trans hlog, by simp⟩
    · obtain ⟨ω, r', hdb, hr', hlog'⟩ := eval_sql hrows
      have hsame : s2.db = s1.db ∧ rows = s1.db.ledger.selectDeliveries ω.order cond := by
        rcases Database.handle_cases hdb with ⟨v, rfl, hexec⟩ | ⟨-, hfail⟩
        · obtain ⟨hv, hdb'⟩ := answer_inj hexec
          exact ⟨hdb'.symm, (Except.ok.inj hr').trans hv.symm⟩
        · obtain ⟨rfl, -⟩ := Prod.mk.inj hfail
          cases hr'
      -- nothing happens after the rows have been selected
      have hfinal : s' = s2 ∧ ∀ ds, r = .ok ds → decodeRows [] rows = .ok ds := by
        split at hend
        · rename_i ds hds
          obtain ⟨hr, hs⟩ := answer_inj hend
          refine ⟨hs.symm, fun ds' hds' => ?_⟩
          rw [← Except.ok.inj (hr.trans hds')]
          exact hds
        · obtain ⟨hr, hs⟩ := answer_inj hend
          exact ⟨hs.symm, fun ds' hds' => absurd (hr.trans hds') (by simp)⟩
      obtain ⟨hs, hdecode⟩ := hfinal
      rw [hs, hsame.1]
      refine ⟨hgrows, hlog'.trans hlog, fun ds hds => ?_⟩
      have hmap := decodeRows_spec (hdecode ds hds)
      have hkeys : ds.map rowKey = rows.map SelectedDelivery.key := by
        simpa [Function.comp_def] using congrArg (List.map Prod.fst) hmap
      refine ⟨?_, fun d hd => ?_⟩
      · rw [hkeys, hsame.2]
        exact Ledger.nodup_selectDeliveries _ _ _
      · have hmem : (rowKey d, d.state) ∈ rows.map fun s => (s.key, s.row.state) := by
          rw [← hmap]
          exact List.mem_map.2 ⟨d, hd, rfl⟩
        obtain ⟨row, hrow, heq⟩ := List.mem_map.1 hmem
        obtain ⟨hkey, hstate⟩ := Prod.mk.inj heq
        rw [hsame.2] at hrow
        rw [stateAt, hsame.1, ← hkey, ← hstate]
        obtain ⟨hpresent, hmeets⟩ := Ledger.row_of_mem_selectDeliveries hrow
        refine ⟨Ledger.stateAt_eq_some.2 ⟨_, hpresent, rfl⟩, ?_⟩
        rintro now limit rfl
        simp only [Ledger.meets, Bool.and_eq_true, decide_eq_true_eq] at hmeets
        exact hmeets.1

/-- **Writing a row.**  If the call succeeds, all of the row is overwritten if it is there; if
it fails, at most rows have been added. -/
lemma eval_updateDelivery {d : Delivery} {r : Except Fault Unit}
    (h : (updateDelivery d).eval (handleWire i) ωs s = some (r, s')) :
    s'.log = s.log ∧
      ((∃ e, r = .error e) ∧ s.db.ledger.Grows s'.db.ledger ∨
        r = .ok () ∧ ∃ l, s.db.ledger.Grows l ∧ ∀ k, s'.db.ledger.row k =
          if rowKey d = k ∧ (l.row (rowKey d)).isSome then some (rowOf d) else l.row k) := by
  rcases eval_lease h with ⟨herror, hgrows, hlog⟩ | ⟨s1, ωs1, hgrows, hlog, hrest⟩
  · exact ⟨hlog, .inl ⟨herror, hgrows⟩⟩
  · obtain ⟨ω, r', hdb, hr', hlog'⟩ := eval_sql hrest
    refine ⟨hlog'.trans hlog, ?_⟩
    rcases Database.handle_cases hdb with ⟨v, rfl, hexec⟩ | ⟨-, hfail⟩
    · right
      simp only [Database.exec] at hexec
      split at hexec
      · cases hexec
      · obtain ⟨-, hdb'⟩ := answer_inj hexec
        refine ⟨hr', s1.db.ledger, hgrows, fun k => ?_⟩
        rw [← hdb']
        simp only [Ledger.row]
        by_cases hpresent : (s1.db.ledger.messageDelivery[rowKey d]?).isSome
        · simp [hpresent, OrderedMap.getElem?_insert]
        · simp [hpresent]
    · obtain ⟨rfl, hdb'⟩ := Prod.mk.inj hfail
      exact .inl ⟨⟨_, hr'⟩, hgrows.trans (.of_eq (by rw [hdb']))⟩

lemma rowsKept_sql {c : Sql} {r : Except Fault c.Value}
    (hc : ∀ {order : List RowKey} {db db' : Database ι} {v : c.Value},
      Database.exec i order c db = some (v, db') → db.ledger.RowsKept db'.ledger)
    (h : (sql c).eval (handleWire i) ωs s = some (r, s')) :
    s.db.ledger.RowsKept s'.db.ledger ∧ s'.log = s.log := by
  obtain ⟨ω, r', hdb, -, hlog⟩ := eval_sql h
  refine ⟨?_, hlog⟩
  rcases Database.handle_cases hdb with ⟨v, -, hexec⟩ | ⟨-, hfail⟩
  · exact hc hexec
  · have hdb' : s'.db = (Database.failure i ω.errno c s.db).2 := congrArg Prod.snd hfail
    rw [hdb']
    exact .of_grows (.of_eq (by rw [Database.failure_ledger]))

lemma eval_expireDeliveriesDetailed {nowMs : ℤ} {limit : ℕ}
    {r : Except Fault (List ExpiredDeliveryRecord)}
    (h : (expireDeliveriesDetailed nowMs limit).eval (handleWire i) ωs s = some (r, s')) :
    s.db.ledger.RowsKept s'.db.ledger ∧ s'.log = s.log := by
  rcases eval_lease h with ⟨-, hgrows, hlog⟩ | ⟨s1, ωs1, hgrows, hlog, hrest⟩
  · exact ⟨.of_grows hgrows, hlog⟩
  have hmild : (sql (.selectExpiring (nowMs.tdiv 1000) limit)).Calls Mild := Calls.ask rfl
  rcases eval_bind hrest with ⟨e, -, he⟩ | ⟨due, s2, ωs2, hdue, hrest⟩
  · obtain ⟨hgrows', hlog'⟩ := grows_eval hmild he
    exact ⟨.of_grows (hgrows.trans hgrows'), hlog'.trans hlog⟩
  obtain ⟨hgrows', hlog'⟩ := grows_eval hmild hdue
  have hexpire {ωs : List ClusterEnv} {v : Except Fault ℕ} {s3 : Cluster ι}
      (hsql : (sql (.expire (nowMs.tdiv 1000) limit)).eval (handleWire i) ωs s2 = some (v, s3)) :
      s2.db.ledger.RowsKept s3.db.ledger ∧ s3.log = s2.log := by
    refine rowsKept_sql (fun hexec => ?_) hsql
    cases hexec
    exact Ledger.rowsKept_expire _ _ _ _
  -- the rows have expired when the answer is put together
  have hlast : s2.db.ledger.RowsKept s'.db.ledger ∧ s'.log = s2.log := by
    rcases eval_bind hrest with ⟨e, -, he⟩ | ⟨n, s3, ωs3, hn, hend⟩
    · exact hexpire he
    · cases hend
      exact hexpire hn
  exact ⟨(hgrows.trans hgrows').rowsKept hlast.1, hlast.2.trans (hlog'.trans hlog)⟩

lemma eval_cleanupDeliveries {ackedBeforeMs expiredBeforeMs : ℤ} {limit : ℕ}
    {r : Except Fault ℕ}
    (h : (cleanupDeliveries ackedBeforeMs expiredBeforeMs limit).eval (handleWire i) ωs s =
      some (r, s')) :
    s.db.ledger.RowsKept s'.db.ledger ∧ s'.log = s.log := by
  rcases eval_lease h with ⟨-, hgrows, hlog⟩ | ⟨s1, ωs1, hgrows, hlog, hrest⟩
  · exact ⟨.of_grows hgrows, hlog⟩
  have hdelete {c : Sql} {ωs : List ClusterEnv} {v : Except Fault c.Value} {s1 s2 : Cluster ι}
      (hc : ∀ {order : List RowKey} {db db' : Database ι} {v : c.Value},
        Database.exec i order c db = some (v, db') → db.ledger.Shrinks db'.ledger)
      (hsql : (sql c).eval (handleWire i) ωs s1 = some (v, s2)) :
      s1.db.ledger.Shrinks s2.db.ledger ∧ s2.log = s1.log := by
    obtain ⟨ω, r', hdb, -, hlog⟩ := eval_sql hsql
    refine ⟨?_, hlog⟩
    rcases Database.handle_cases hdb with ⟨v, -, hexec⟩ | ⟨-, hfail⟩
    · exact hc hexec
    · have hdb' : s2.db = (Database.failure i ω.errno c s1.db).2 := congrArg Prod.snd hfail
      intro k
      rw [hdb', Database.failure_ledger]
      exact .inl rfl
  have hacked {order : List RowKey} {db db' : Database ι} {secs : ℤ} {v : ℕ}
      (hexec : Database.exec i order (.deleteAcknowledged secs limit) db = some (v, db')) :
      db.ledger.Shrinks db'.ledger := by
    cases hexec
    exact Ledger.shrinks_deleteRows _ _ _ _
  have hexpired {order : List RowKey} {db db' : Database ι} {secs : ℤ} {v : ℕ}
      (hexec : Database.exec i order (.deleteExpired secs limit) db = some (v, db')) :
      db.ledger.Shrinks db'.ledger := by
    cases hexec
    exact Ledger.shrinks_deleteRows _ _ _ _
  have hlast : s1.db.ledger.Shrinks s'.db.ledger ∧ s'.log = s1.log := by
    rcases eval_bind hrest with ⟨e, -, he⟩ | ⟨n, s2, ωs2, hn, hrest⟩
    · exact hdelete hacked he
    · obtain ⟨hshrinks, hlog2⟩ := hdelete hacked hn
      rcases eval_bind hrest with ⟨e, -, he⟩ | ⟨n', s3, ωs3, hn', hend⟩
      · obtain ⟨hshrinks', hlog3⟩ := hdelete hexpired he
        exact ⟨hshrinks.trans hshrinks', hlog3.trans hlog2⟩
      · cases hend
        obtain ⟨hshrinks', hlog3⟩ := hdelete hexpired hn'
        exact ⟨hshrinks.trans hshrinks', hlog3.trans hlog2⟩
  exact ⟨hgrows.rowsKept hlast.1.rowsKept, hlast.2.trans hlog⟩

/-- **Every other call.**  It acknowledges no row, and it leaves an acknowledged row alone or
removes it. -/
lemma rowsKept_perform {fanOutCap : ℕ} {c : StoreCall} (hc : c.isUpdate = false)
    {r : Except Fault c.Value}
    (h : (perform fanOutCap c).eval (handleWire i) ωs s = some (r, s')) :
    s.db.ledger.RowsKept s'.db.ledger ∧ s'.log = s.log := by
  have hmild : (perform fanOutCap c).Calls Mild →
      s.db.ledger.RowsKept s'.db.ledger ∧ s'.log = s.log := by
    intro hp
    obtain ⟨hgrows, hlog⟩ := grows_eval hp h
    exact ⟨.of_grows hgrows, hlog⟩
  have hread {cond : DeliveryWhere} {v : Except Fault (List Delivery)}
      (hv : (deliveriesWhere cond).eval (handleWire i) ωs s = some (v, s')) :
      s.db.ledger.RowsKept s'.db.ledger ∧ s'.log = s.log := by
    obtain ⟨hgrows, hlog, -⟩ := eval_deliveriesWhere hv
    exact ⟨.of_grows hgrows, hlog⟩
  cases c with
  | updateDelivery => cases hc
  | findAccepted | findMessage =>
    exact hmild (Calls.bind mild_lease fun _ => (naming_loadMessage (N := fun _ => True) _ _).mild)
  | getOrCreateConversation => exact hmild (naming_getOrCreateConversation _ _ _).mild
  | insertMessage => exact hmild (naming_insertMessage _).mild
  | insertDelivery delivery =>
    exact hmild (naming_insertDelivery (N := fun _ => True) delivery).mild
  | timeGranularityMs => exact hmild trivial
  | deliveriesByRecipient | deliveriesByMessage | deliveriesDueForRetry => exact hread h
  | expireDeliveriesDetailed => exact eval_expireDeliveriesDetailed h
  | cleanupDeliveries => exact eval_cleanupDeliveries h

end Cluster

end MuduoChat
