import MuduoChat.Cluster.Rows

/-!
# What an operation knows of the rows it writes

Operations read rows, and later write whole rows back.  In between another process may have
acknowledged a row.  This module says what the code guarantees all the same: whenever a
process writes a row in a state other than acknowledged, the last it has seen of that row, in
a read or in a write of its own, was not acknowledged either (`snapshotAllow`).  That this is
kept in every run is `Setup.snapshots`.
-/

namespace MuduoChat

open Std Prog Code Relation

variable {ι : Type} [DecidableEq ι]

/-! ### What a process has last seen of a row -/

/-- What the process has last read or written of the row was not acknowledged. -/
def seenOpen (i : ι) (k : RowKey) : List (RowEvent ι) → Bool
  | [] => false
  | .read j rows :: log =>
    if j = i ∧ k ∈ rows.map rowKey then
      rows.any fun d => rowKey d = k && d.state ≠ .acknowledged
    else seenOpen i k log
  | .wrote j d :: log =>
    if j = i ∧ rowKey d = k then d.state ≠ .acknowledged else seenOpen i k log

/-- Another process has written the row as acknowledged since this process has last read or
written it. -/
def overtaken (i : ι) (k : RowKey) : List (RowEvent ι) → Bool
  | [] => false
  | .read j rows :: log =>
    if j = i ∧ k ∈ rows.map rowKey then false else overtaken i k log
  | .wrote j d :: log =>
    if rowKey d = k then
      if j = i then false else d.state = .acknowledged || overtaken i k log
    else overtaken i k log

/-- If a row is acknowledged and a process does not know it, the process has been
overtaken. -/
def Cluster.Tracked (s : Cluster ι) : Prop :=
  ∀ i k, seenOpen i k s.log = true → s.stateAt k = some .acknowledged →
    overtaken i k s.log = true

/-- The others do not change what a process has seen. -/
def snapshotRely (i : ι) (s s' : Cluster ι) : Prop :=
  ∀ k, seenOpen i k s'.log = seenOpen i k s.log

/-- A row is written as acknowledged, or by a process that has last seen it in another
state. -/
def snapshotAllow (i : ι) (c : Call) (s : Cluster ι) : Prop :=
  ∀ d, c = .store (.updateDelivery d) →
    d.state = .acknowledged ∨ seenOpen i (rowKey d) s.log = true

/-! ### The calls -/

/-- The calls that neither read delivery rows nor write one. -/
def Call.rowless : Call → Bool
  | .store (.updateDelivery _) => false
  | .store (.deliveriesByRecipient _) => false
  | .store (.deliveriesByMessage _) => false
  | .store (.deliveriesDueForRetry _ _) => false
  | _ => true

namespace Cluster

variable {fanOutCap : ℕ} {i : ι} {s s' : Cluster ι}

variable {c : Call}

lemma handle_port (hc : ∀ c', c ≠ .store c') (ωs : List ClusterEnv) :
    handle fanOutCap i c ωs s = handleWire i (.port c) ωs.headI s := by
  cases c with
  | store c => exact absurd rfl (hc c)
  | _ => rfl

variable {r : Except Fault c.Value}

lemma rowsKept_port {ω : ClusterEnv}
    (h : handleWire i (.port c) ω s = some (r, s')) :
    s.db.ledger.RowsKept s'.db.ledger ∧ s'.log = s.log := by
  rcases handleWire_cases h with ⟨c', r', hc', -, -⟩ | heq
  · cases hc'
  · rw [heq]
    exact ⟨.of_grows (.of_eq rfl), rfl⟩

variable {ωs : List ClusterEnv}

lemma read_cases {cond : DeliveryWhere}
    {r : Except Fault (List Delivery)}
    (h : (MySQLMessageStore.deliveriesWhere cond).eval (handleWire i) ωs s = some (r, s')) :
    s.db.ledger.RowsKept s'.db.ledger ∧ (readEvents i r ++ s'.log = s.log ∨
      ∃ rows, readEvents i r ++ s'.log = .read i rows :: s.log ∧
        ∀ d ∈ rows, s'.stateAt (rowKey d) = some d.state) := by
  obtain ⟨hgrows, hlog, hrows⟩ := eval_deliveriesWhere h
  refine ⟨.of_grows hgrows, ?_⟩
  cases r with
  | error e => exact .inl hlog
  | ok rows =>
    have hstate : ∀ d ∈ rows, s'.stateAt (rowKey d) = some d.state :=
      fun d hd => ((hrows rows rfl).2 d hd).1
    exact .inr ⟨rows, congrArg (RowEvent.read i rows :: ·) hlog, hstate⟩

/-- **Inversion of an answer.**  A call that writes no row leaves the ledger as
`rowsKept_perform` says, and the log as it was, or it has read rows. -/
lemma handle_cases
    (h : handle fanOutCap i c ωs s = some (r, s')) :
    (s.db.ledger.RowsKept s'.db.ledger ∧
        (s'.log = s.log ∨ c.rowless = false ∧ ∃ rows, s'.log = .read i rows :: s.log ∧
          ∀ d ∈ rows, s'.stateAt (rowKey d) = some d.state)) ∨
      ∃ d l, c = .store (.updateDelivery d) ∧ s'.log = .wrote i d :: s.log ∧
        s.db.ledger.Grows l ∧ ∀ k, s'.db.ledger.row k =
          if rowKey d = k ∧ (l.row (rowKey d)).isSome then some (rowOf d) else l.row k := by
  cases c with
  | store c =>
    obtain ⟨⟨r', s1⟩, heval, heq⟩ := Option.map_eq_some_iff.1 h
    cases heq
    cases c with
    | updateDelivery d =>
      obtain ⟨hlog, ⟨⟨e, rfl⟩, hgrows⟩ | ⟨rfl, l, hgrows, hrow⟩⟩ := eval_updateDelivery heval
      · exact .inl ⟨.of_grows hgrows, .inl hlog⟩
      · exact .inr ⟨d, l, rfl, congrArg (RowEvent.wrote i d :: ·) hlog, hgrows, hrow⟩
    | deliveriesByRecipient | deliveriesByMessage | deliveriesDueForRetry =>
      obtain ⟨hkept, hlog⟩ := read_cases heval
      exact .inl ⟨hkept, hlog.imp id fun hread => ⟨rfl, hread⟩⟩
    | _ =>
      obtain ⟨hkept, hlog⟩ := rowsKept_perform rfl heval
      exact .inl ⟨hkept, .inl hlog⟩
  | _ =>
    rw [handle_port (by simp)] at h
    obtain ⟨hkept, hlog⟩ := rowsKept_port h
    exact .inl ⟨hkept, .inl hlog⟩

/-! ### What the calls do to the log -/

omit [DecidableEq ι] in
lemma stateAt_written {d : Delivery} {l : Ledger} {k : RowKey} (hk : rowKey d = k)
    (hrow : s'.db.ledger.row k =
      if rowKey d = k ∧ (l.row (rowKey d)).isSome then some (rowOf d) else l.row k) :
    s'.stateAt k = some d.state ∨ s'.stateAt k = none := by
  subst hk
  simp only [stateAt, Ledger.stateAt, hrow]
  cases hl : l.row (rowKey d) with
  | none => simp
  | some row => simp [rowOf]

lemma Tracked.step
    (hs : s.Tracked) (h : handle fanOutCap i c ωs s = some (r, s')) : s'.Tracked := by
  intro j k hseen hacked
  rcases handle_cases h with ⟨hkept, hlog⟩ | ⟨d, l, rfl, hlog, hgrows, hrow⟩
  · have hbefore : s.stateAt k = some .acknowledged := hkept.origin k hacked
    rcases hlog with hlog | ⟨-, rows, hlog, hrows⟩
    · rw [hlog] at hseen ⊢
      exact hs j k hseen hbefore
    · rw [hlog] at hseen ⊢
      by_cases hread : i = j ∧ k ∈ rows.map rowKey
      · -- what has just been read is what stands in the ledger
        simp only [seenOpen, if_pos hread, List.any_eq_true, Bool.and_eq_true,
          decide_eq_true_eq] at hseen
        obtain ⟨d, hd, rfl, hopen⟩ := hseen
        exact absurd (Option.some.inj ((hrows d hd).symm.trans hacked)) hopen
      · simp only [seenOpen, overtaken, if_neg hread] at hseen ⊢
        exact hs j k hseen hbefore
  · rw [hlog] at hseen ⊢
    by_cases hk : rowKey d = k
    · have hstate : d.state = .acknowledged := by
        rcases stateAt_written hk (hrow k) with hst | hst
        · exact Option.some.inj (hst.symm.trans hacked)
        · exact absurd (hst.symm.trans hacked) (by simp)
      by_cases hij : i = j
      · simp [seenOpen, hij, hk, hstate] at hseen
      · simp [overtaken, hij, hk, hstate]
    · have hbefore : s.stateAt k = some .acknowledged := by
        rw [stateAt, Ledger.stateAt, hrow k, if_neg fun hand => hk hand.1] at hacked
        exact (hgrows.acknowledged_iff k).1 hacked
      simp only [seenOpen, overtaken, hk, and_false, if_false] at hseen ⊢
      exact hs j k hseen hbefore

lemma snapshotRely_of_handle {j : ι} (hij : i ≠ j)
    (h : handle fanOutCap i c ωs s = some (r, s')) :
    snapshotRely j s s' := by
  intro k
  rcases handle_cases h with ⟨-, hlog | ⟨-, rows, hlog, -⟩⟩ | ⟨d, l, -, hlog, -⟩
  · rw [hlog]
  · simp [hlog, seenOpen, hij]
  · simp [hlog, seenOpen, hij]

lemma snapshotRely_of_rowless (hc : c.rowless = true)
    (h : handle fanOutCap i c ωs s = some (r, s')) :
    snapshotRely i s s' := by
  intro k
  rcases handle_cases h with ⟨-, hlog | ⟨hrows, -⟩⟩ | ⟨d, l, rfl, -⟩
  · rw [hlog]
  · rw [hc] at hrows
    cases hrows
  · cases hc

end Cluster

abbrev Setup.snapshotContract (S : Setup ι) (fanOutCap : ℕ) (i : ι) :
    Contract Port (Cluster ι) (List ClusterEnv) :=
  (S.cluster fanOutCap).contract Cluster.Tracked snapshotRely snapshotAllow True i

end MuduoChat
