import MuduoChat.Cluster.Rows
import MuduoChat.Cluster.Scans

/-!
# When the MySQL store removes a row

A cleanup removes acknowledged and expired rows whose time is before a cutoff.  The time of a row
has been rounded down to a second when it was written, and the cutoff is rounded up to a second
before the two are compared.  Within one second both roundings go in the same direction, so a row
can be removed up to a second before its time.  It happens exactly if the cutoff is in the second
of the time, before it, and not at the beginning of the second (`cleanup_never_early_iff`).
-/

namespace MuduoChat

open Std Prog OrderedMap MySQLMessageStore

/-- The two kinds of rows that a cleanup removes. -/
inductive Retention where
  | acked
  | expired
  deriving DecidableEq

namespace Retention

def state : Retention → DeliveryState
  | acked => .acknowledged
  | expired => .expired

def column : Retention → DeliveryRow → Option ℤ
  | acked => DeliveryRow.acknowledgedAt
  | expired => DeliveryRow.expiresAt

def time : Retention → Delivery → ℤ
  | acked => Delivery.acknowledgedAtMs
  | expired => Delivery.expiresAtMs

/-- The row is one that a cleanup with the cutoff may remove. -/
def eligible (kind : Retention) (cutoff : ℤ) : RowKey → DeliveryRow → Bool :=
  Ledger.outlived kind.state kind.column ((cutoff + 999).tdiv 1000)

end Retention

/-- How the time has come into the row: a delivery of the state was written with it, or a delivery
was inserted or written with it, and the row has expired since. -/
inductive Written : Retention → ℤ → DeliveryRow → Prop where
  | updated (kind : Retention) (d : Delivery) (h : d.state = kind.state) :
      Written kind (kind.time d) (rowOf d)
  | updatedAndExpired (d : Delivery) : Written .expired d.expiresAtMs (Ledger.expired (rowOf d))
  | insertedAndExpired (d : Delivery) :
      Written .expired d.expiresAtMs (Ledger.expired { expiresAt := secondsDown d.expiresAtMs })

variable {kind : Retention} {time cutoff : ℤ} {k : RowKey} {r : DeliveryRow}

lemma Written.columns (h : Written kind time r) :
    r.state = kind.state ∧ kind.column r = secondsDown time := by
  cases h with
  | updated kind d hstate => exact ⟨hstate, by cases kind <;> rfl⟩
  | updatedAndExpired d | insertedAndExpired d => exact ⟨rfl, rfl⟩

/-! ### Seconds -/

/-- A row that a cleanup with the cutoff removes at its time or later, and not more than a second
later.  A time that is zero, or a second or more before the epoch, is not stored at all. -/
def OnTime (time cutoff : ℤ) : Prop :=
  if 0 < time then time ≤ cutoff ∨ time / 1000 ≠ cutoff / 1000 ∨ cutoff % 1000 = 0
  else if time = 0 ∨ time ≤ -1000 then cutoff < time + 1000
  else True

instance (time cutoff : ℤ) : Decidable (OnTime time cutoff) :=
  inferInstanceAs (Decidable (if 0 < time then _ else _))

lemma any_secondsDown_lt_up (time cutoff : ℤ) :
    ((secondsDown time).any fun t => decide (t < (cutoff + 999).tdiv 1000)) = true ↔
      time ≠ 0 ∧ -1000 < time ∧ time.tdiv 1000 < (cutoff + 999).tdiv 1000 := by
  have hsign : time.tdiv 1000 < 0 ↔ time ≤ -1000 := by
    rcases tdiv_thousand_cases time with ⟨hlo, htime⟩ | ⟨hlo, htime⟩ <;> omega
  by_cases hzero : time = 0
  · simp [secondsDown, hzero]
  · by_cases hneg : time ≤ -1000
    · simp only [secondsDown, if_neg hzero, fromUnixtime, if_pos (hsign.2 hneg), Option.any_none]
      constructor
      · intro h
        cases h
      · rintro ⟨-, hlt, -⟩
        omega
    · simp only [secondsDown, if_neg hzero, fromUnixtime, if_neg (hsign.not.2 hneg),
        Option.any_some, decide_eq_true_eq]
      exact ⟨fun h => ⟨hzero, by omega, h⟩, fun h => h.2.2⟩

lemma onTime_iff (time cutoff : ℤ) :
    ((time ≠ 0 ∧ -1000 < time ∧ time.tdiv 1000 < (cutoff + 999).tdiv 1000 → time ≤ cutoff) ∧
      (time + 1000 ≤ cutoff →
        time ≠ 0 ∧ -1000 < time ∧ time.tdiv 1000 < (cutoff + 999).tdiv 1000)) ↔
      OnTime time cutoff := by
  have htime := tdiv_thousand_cases time
  have hcutoff := tdiv_thousand_cases (cutoff + 999)
  unfold OnTime
  split_ifs with hpos hnull
  · rcases hcutoff with hcutoff | hcutoff <;> omega
  · -- the column is empty, and the row is never removed
    omega
  · -- the column holds the epoch
    rw [iff_true]
    omega

/-! ### The statements -/

lemma eligible_iff (h : Written kind time r) :
    kind.eligible cutoff k r = true ↔
      time ≠ 0 ∧ -1000 < time ∧ time.tdiv 1000 < (cutoff + 999).tdiv 1000 := by
  obtain ⟨hstate, hcolumn⟩ := h.columns
  rw [← any_secondsDown_lt_up, Retention.eligible, Ledger.outlived, hstate, hcolumn]
  simp

lemma Written.kind_eq {kind' : Retention} (h : Written kind time r)
    (heligible : kind'.eligible cutoff k r = true) : kind' = kind := by
  simp only [Retention.eligible, Ledger.outlived, Bool.and_eq_true, decide_eq_true_eq] at heligible
  have hstate := heligible.1.symm.trans h.columns.1
  cases kind <;> cases kind' <;> first | rfl | exact absurd hstate (by decide)

namespace Ledger

lemma length_rowsWhere_le (l : Ledger) (order : List RowKey) (p : RowKey → DeliveryRow → Bool) :
    (l.rowsWhere order p).length ≤ l.messageDelivery.size := by
  have hfilter : (l.messageDelivery.toList.filter fun e => p e.1 e.2).length ≤
      l.messageDelivery.size := by
    rw [← TreeMap.length_toList]
    exact List.length_filter_le _ _
  simp only [rowsWhere]
  split
  · rename_i hperm
    have hlength := hperm.length_eq
    rw [List.length_map] at hlength
    have hle := List.length_filterMap_le (fun k => (l.row k).map fun d => (k, d)) order
    omega
  · exact hfilter

lemma size_deleteRows_le (l : Ledger) (order : List RowKey) (p : RowKey → DeliveryRow → Bool)
    (limit : ℕ) : (l.deleteRows order p limit).2.messageDelivery.size ≤ l.messageDelivery.size := by
  have herase : ∀ (keys : List RowKey) (m : TreeMap RowKey DeliveryRow),
      (eraseAll m keys).size ≤ m.size := by
    intro keys
    induction keys with
    | nil => exact fun m => le_rfl
    | cons key keys ih => exact fun m => (ih (m.erase key)).trans TreeMap.size_erase_le
  exact herase _ _

end Ledger

namespace Cluster

variable {ι : Type} [DecidableEq ι] {i : ι} {s s' : Cluster ι}

/-- The cleanup of a process, with a cutoff for each kind. -/
def cleanup (cutoffs : Retention → ℤ) (limit : ℕ) : Query ℕ :=
  cleanupDeliveries (cutoffs .acked) (cutoffs .expired) limit

/-- **A cleanup removes nothing else.**  However its statements are answered, a row is left as it
is, or it is eligible. -/
lemma eligible_of_cleanup {cutoffs : Retention → ℤ} {limit : ℕ} {ωs : List ClusterEnv}
    {n : Except Fault ℕ} (h : (cleanup cutoffs limit).eval (handleWire i) ωs s = some (n, s'))
    (hrow : s.db.ledger.row k = some r) :
    s'.db.ledger.row k = some r ∨ ∃ kind : Retention, kind.eligible (cutoffs kind) k r = true := by
  -- a statement of the cleanup is harmless, or it deletes
  let P : WireCall → Prop := fun c => Mild c ∨
    c = .sql (.deleteAcknowledged ((cutoffs .acked + 999).tdiv 1000) limit) ∨
    c = .sql (.deleteExpired ((cutoffs .expired + 999).tdiv 1000) limit)
  have hcalls : (cleanup cutoffs limit).Calls P :=
    Calls.bind (mild_lease.mono fun _ => .inl) fun _ =>
      Calls.bind (Calls.ask (.inr (.inl rfl))) fun _ =>
        Calls.bind (Calls.ask (.inr (.inr rfl))) fun _ => trivial
  have hdelete (kind : Retention) {c : Sql} {ω : SqlEnv} {v : Except StoreErrorKind c.Value}
      {db db' : Database ι} (hexec : ∀ order, ∃ n, Database.exec i order c db = some (n,
        { db with ledger := (db.ledger.deleteRows order (kind.eligible (cutoffs kind)) limit).2 }))
      (hdb : Database.handle i c ω db = some (v, db')) (hr : db.ledger.row k = some r) :
      db'.ledger.row k = some r ∨ kind.eligible (cutoffs kind) k r = true := by
    rcases Database.handle_cases hdb with ⟨v, -, hv⟩ | ⟨-, hfail⟩
    · obtain ⟨n, hn⟩ := hexec ω.order
      obtain ⟨-, rfl⟩ := Prod.mk.inj (Option.some.inj (hv.symm.trans hn))
      have hlook : (db.ledger.deleteRows ω.order (kind.eligible (cutoffs kind)) limit).2.row k =
          if k ∈ ((db.ledger.rowsWhere ω.order (kind.eligible (cutoffs kind))).take limit).map
            Prod.fst then none else db.ledger.row k := getElem?_eraseAll _ _ _
      rw [hlook]
      split_ifs with hmem
      · obtain ⟨⟨k, r'⟩, he, rfl⟩ := List.mem_map.1 hmem
        obtain ⟨hr', hp⟩ := Ledger.mem_rowsWhere (List.mem_of_mem_take he)
        obtain rfl := Option.some.inj (hr.symm.trans hr')
        exact .inr hp
      · exact .inl hr
    · have hdb' : db' = (Database.failure i ω.errno c db).2 := congrArg Prod.snd hfail
      rw [hdb', Database.failure_ledger]
      exact .inl hr
  refine Calls.eval (R := fun s s' => s.db.ledger.row k = some r →
    s'.db.ledger.row k = some r ∨ ∃ kind : Retention, kind.eligible (cutoffs kind) k r = true)
    (fun _ => .inl) ?_ ?_ hcalls h hrow
  · intro s1 s2 s3 h1 h2 hr
    rcases h1 hr with hr2 | heligible
    · exact h2 hr2
    · exact .inr heligible
  · intro c ω s1 v s2 hc hv hr
    rcases handleWire_cases hv with ⟨c', v', rfl, hdb, -⟩ | heq
    · rcases hc with hmild | hacked | hexpired
      · exact .inl ((Database.grows_handle hmild hdb).kept k r hr)
      · cases hacked
        exact (hdelete .acked (fun order => ⟨_, rfl⟩) hdb hr).imp_right fun h => ⟨_, h⟩
      · cases hexpired
        exact (hdelete .expired (fun order => ⟨_, rfl⟩) hdb hr).imp_right fun h => ⟨_, h⟩
    · rw [heq]
      exact .inl hr

/-- **A cleanup removes every row that is eligible**, if its limit is not reached. -/
lemma does_cleanup {cutoffs : Retention → ℤ} {limit : ℕ} (hs : Alone i s)
    (hrow : s.db.ledger.row k = some r) (heligible : kind.eligible (cutoffs kind) k r = true)
    (hlimit : (s.tables i).ledger.messageDelivery.size ≤ limit) :
    Does i (cleanup cutoffs limit) (fun _ s1 => s1.db.ledger.row k = none) s := by
  have hseen : (s.tables i).ledger.row k = some r := (Database.grows_view s.db i).kept k r hrow
  refine does_cleanupDeliveries hs fun order order' s1 _ htables => ?_
  -- what the process sees after the two statements
  have hgone : (s1.tables i).ledger.row k = none := by
    rw [htables]
    have hfirst := Ledger.row_deleteRows (p := Retention.acked.eligible (cutoffs .acked))
      ((Ledger.length_rowsWhere_le _ order _).trans hlimit) k
    have hsize := Ledger.size_deleteRows_le (s.tables i).ledger order
      (Retention.acked.eligible (cutoffs .acked)) limit
    have hsecond := Ledger.row_deleteRows (p := Retention.expired.eligible (cutoffs .expired))
      ((Ledger.length_rowsWhere_le _ order' _).trans (hsize.trans hlimit)) k
    refine hsecond.trans ?_
    rw [hfirst, hseen]
    cases kind with
    | acked => simp [heligible]
    | expired => simp [heligible, Option.filter_filter]
  by_contra hne
  obtain ⟨r1, hr1⟩ := Option.ne_none_iff_exists'.1 hne
  exact absurd ((Database.grows_view s1.db i).kept k r1 hr1) (by
    have hview : (s1.db.view i).row k = none := hgone
    rw [hview]
    simp)

/-- Some cleanup with the cutoffs removes the row. -/
def MayRemove (i : ι) (cutoffs : Retention → ℤ) (k : RowKey) (s : Cluster ι) : Prop :=
  ∃ limit ωs n s₁, (cleanup cutoffs limit).eval (handleWire i) ωs s = some (n, s₁) ∧
    s₁.db.ledger.row k = none

/-- Every cleanup with the cutoffs removes the row, if its limit is not reached. -/
def Removes (i : ι) (cutoffs : Retention → ℤ) (k : RowKey) (s : Cluster ι) : Prop :=
  ∀ limit, (s.tables i).ledger.messageDelivery.size ≤ limit →
    Does i (cleanup cutoffs limit) (fun _ s₁ => s₁.db.ledger.row k = none) s

lemma Removes.mayRemove {cutoffs : Retention → ℤ} (h : Removes i cutoffs k s) :
    MayRemove i cutoffs k s := by
  have hnone : ∀ ω ∈ ([] : List ClusterEnv), ω.Reliable := by simp
  obtain ⟨n, s1, heval, hrow⟩ :=
    (h _ le_rfl).eval ClusterEnv.reliable_default hnone
  exact ⟨_, [], .ok n, s1, heval, hrow⟩

/-- **Cleanup never deletes early**, and at most a second late, exactly for the times and cutoffs
that are on time: unless the cutoff is in the second of the time, before it and not at the
beginning of the second, or the time is not stored at all. -/
theorem cleanup_never_early_iff (hs : Alone i s) (hrow : s.db.ledger.row k = some r)
    (hr : Written kind time r) (cutoffs : Retention → ℤ) :
    ((MayRemove i cutoffs k s → time ≤ cutoffs kind) ∧
      (time + 1000 ≤ cutoffs kind → Removes i cutoffs k s)) ↔ OnTime time (cutoffs kind) := by
  have heligible : kind.eligible (cutoffs kind) k r = true ↔ time ≠ 0 ∧ -1000 < time ∧
      time.tdiv 1000 < (cutoffs kind + 999).tdiv 1000 := eligible_iff hr
  have hremoves : kind.eligible (cutoffs kind) k r = true → Removes i cutoffs k s :=
    fun h limit hlimit => does_cleanup hs hrow h hlimit
  have hmay : MayRemove i cutoffs k s → kind.eligible (cutoffs kind) k r = true := by
    rintro ⟨limit, ωs, n, s₁, heval, hgone⟩
    rcases eligible_of_cleanup heval hrow with hkept | ⟨kind', hkind'⟩
    · rw [hgone] at hkept
      cases hkept
    · obtain rfl := hr.kind_eq hkind'
      exact hkind'
  rw [← onTime_iff, ← heligible]
  constructor
  · rintro ⟨hearly, hlate⟩
    exact ⟨fun h => hearly (hremoves h).mayRemove, fun h => hmay (hlate h).mayRemove⟩
  · rintro ⟨hearly, hlate⟩
    exact ⟨fun h => hearly (hmay h), fun h => hremoves (hlate h)⟩

/-- A delivery that was acknowledged at a time. -/
def ackedAt (time : ℤ) : Delivery :=
  { messageId := ⟨1⟩, recipient := ⟨2⟩, state := .acknowledged, acknowledgedAtMs := time }

/-- A database with the row of one delivery. -/
def holding (d : Delivery) : Cluster Unit :=
  { db := { ledger := { messageDelivery := TreeMap.empty.insert (rowKey d) (rowOf d) } } }

/-- A cutoff at the beginning of a second. -/
theorem cleanup_never_early_iff_wholeSecond :
    (MayRemove () (fun _ => 2000) (rowKey (ackedAt 2900)) (holding (ackedAt 2900)) →
        (2900 : ℤ) ≤ 2000) ∧
      (2900 + 1000 ≤ (2000 : ℤ) →
        Removes () (fun _ => 2000) (rowKey (ackedAt 2900)) (holding (ackedAt 2900))) :=
  (cleanup_never_early_iff (.inl ⟨rfl, rfl⟩) (getElem?_insert_self _ _ _)
    (.updated .acked (ackedAt 2900) rfl) fun _ => 2000).2 (by decide)

/-- Write a delivery, and clean up at once. -/
def writeAndCleanup (d : Delivery) (ackedBeforeMs expiredBeforeMs : ℤ) : Query ℕ := do
  updateDelivery d
  cleanupDeliveries ackedBeforeMs expiredBeforeMs 10

/-- A row that was acknowledged at 1900 is removed by a cleanup with the cutoff 1500. -/
theorem row_removed_early :
    ((writeAndCleanup (ackedAt 1900) 1500 0).eval (handleWire ()) []
        (holding { ackedAt 1900 with state := .pending, acknowledgedAtMs := 0 })).map
      (fun e => (e.1.toOption, e.2.db.ledger.row (rowKey (ackedAt 1900)))) =
        some (some 1, none) := by
  decide +kernel

end Cluster

end MuduoChat
