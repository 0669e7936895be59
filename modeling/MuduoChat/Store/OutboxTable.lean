import MuduoChat.Domain.Types
import Mathlib.Data.List.Basic

/-!
# The outbox table

A relay leases events with one `UPDATE`, which takes the first rows that can be claimed, and then
reads back the rows that have its name and the end of its lease.  The columns have whole seconds:
a lease is over when the second of its end begins, and rows that were leased before can have the
same end.
-/

namespace MuduoChat

/-- A row of `OutboxEvent`.  The times are in seconds. -/
structure OutboxRow where
  id : ℕ
  aggregateMessageId : ℕ := 0
  eventType : String := ""
  payload : String := ""
  availableAt : ℤ := 0
  leaseOwner : Option String := none
  leaseUntil : Option ℤ := none
  attemptCount : ℕ := 0
  processedAt : Option ℤ := none
  deriving DecidableEq

namespace OutboxRow

/-- The condition of the `UPDATE`. -/
def claimable (nowSecs : ℤ) (r : OutboxRow) : Bool :=
  r.processedAt.isNone && decide (r.availableAt ≤ nowSecs) &&
    (r.leaseOwner.isNone || r.leaseUntil.any (· ≤ nowSecs))

def leased (owner : String) (untilSecs : ℤ) (r : OutboxRow) : OutboxRow :=
  { r with
    leaseOwner := some owner
    leaseUntil := some untilSecs
    attemptCount := r.attemptCount + 1 }

/-- The condition of the query that reads leased rows back. -/
def leasedTo (owner : String) (untilSecs : ℤ) (r : OutboxRow) : Bool :=
  decide (r.leaseOwner = some owner) && decide (r.leaseUntil = some untilSecs) &&
    r.processedAt.isNone

def event (r : OutboxRow) : OutboxEvent where
  id := r.id
  aggregateMessageId := ⟨r.aggregateMessageId⟩
  eventType := r.eventType
  payload := r.payload
  availableAtMs := r.availableAt * 1000
  leaseOwner := r.leaseOwner.getD ""
  leaseUntilMs := (r.leaseUntil.map (· * 1000)).getD 0
  attemptCount := r.attemptCount
  processedAtMs := (r.processedAt.map (· * 1000)).getD 0

lemma leased_ne (owner : String) (untilSecs : ℤ) (r : OutboxRow) : r.leased owner untilSecs ≠ r :=
  fun h => Nat.succ_ne_self _ (congrArg attemptCount h)

end OutboxRow

/-- Rewrite the first rows that meet a condition, up to a limit. -/
def updateFirst (p : OutboxRow → Bool) (f : OutboxRow → OutboxRow) :
    ℕ → List OutboxRow → List OutboxRow
  | 0, rows => rows
  | _, [] => []
  | n + 1, r :: rows =>
    if p r then f r :: updateFirst p f n rows else r :: updateFirst p f (n + 1) rows

/-- The rows in the order of the primary key. -/
abbrev SortedById (rows : List OutboxRow) : Prop := rows.Pairwise fun a b => a.id < b.id

/-- How many rows that meet a condition come before an event. -/
def countBefore (p : OutboxRow → Bool) (id : ℕ) (rows : List OutboxRow) : ℕ :=
  rows.countP fun r => decide (r.id < id) && p r

section Rows

variable {p q : OutboxRow → Bool} {f : OutboxRow → OutboxRow} {n : ℕ} {rows : List OutboxRow}
  {r r' x : OutboxRow}

lemma map_id_updateFirst (hf : ∀ r, (f r).id = r.id) :
    (updateFirst p f n rows).map OutboxRow.id = rows.map OutboxRow.id := by
  fun_induction updateFirst with
  | case1 => rfl
  | case2 => rfl
  | case3 n r rows h ih => rw [List.map_cons, ih, hf, List.map_cons]
  | case4 n r rows h ih => rw [List.map_cons, ih, List.map_cons]

lemma SortedById.updateFirst (h : SortedById rows) (hf : ∀ r, (f r).id = r.id) :
    SortedById (updateFirst p f n rows) := by
  have hids : (rows.map OutboxRow.id).Pairwise (· < ·) := List.pairwise_map.2 h
  rw [← map_id_updateFirst (p := p) (n := n) hf] at hids
  exact List.pairwise_map.1 hids

lemma SortedById.eq_of_id (h : SortedById rows) (hr : r ∈ rows) (hr' : r' ∈ rows)
    (hid : r.id = r'.id) : r = r' :=
  List.inj_on_of_nodup_map ((List.pairwise_map.2 h).imp ne_of_lt) hr hr' hid

lemma countBefore_cons (hx : ∀ y ∈ rows, x.id < y.id) (hr : r ∈ rows) :
    countBefore p r.id (x :: rows) = countBefore p r.id rows + if p x then 1 else 0 := by
  simp [countBefore, List.countP_cons, hx r hr]

lemma countBefore_self (hx : ∀ y ∈ rows, x.id < y.id) : countBefore p x.id (x :: rows) = 0 := by
  refine List.countP_eq_zero.2 fun y hy => ?_
  rcases List.mem_cons.1 hy with rfl | hy
  · simp
  · simp [(hx y hy).le]

lemma lt_of_mem_updateFirst (hf : ∀ r, (f r).id = r.id) (hx : ∀ y ∈ rows, x.id < y.id)
    (hr : r ∈ updateFirst p f n rows) : x.id < r.id := by
  have hid := List.mem_map_of_mem (f := OutboxRow.id) hr
  rw [map_id_updateFirst hf] at hid
  obtain ⟨y, hy, hid⟩ := List.mem_map.1 hid
  exact hid ▸ hx y hy

lemma updateFirst_cons : updateFirst p f (n + 1) (x :: rows) =
    (if p x then f x else x) :: updateFirst p f (if p x then n else n + 1) rows := by
  rw [updateFirst]
  split <;> rfl

lemma mem_updateFirst_iff (h : SortedById rows) (hf : ∀ r, (f r).id = r.id) (hr : r ∈ rows) :
    r' ∈ updateFirst p f n rows ∧ r'.id = r.id ↔
      r' = if p r = true ∧ countBefore p r.id rows < n then f r else r := by
  induction rows generalizing n with
  | nil => cases hr
  | cons x rows ih =>
    obtain ⟨hx, hrows⟩ := List.pairwise_cons.1 h
    cases n with
    | zero =>
      rw [if_neg (by simp)]
      exact ⟨fun h' => h.eq_of_id h'.1 hr h'.2, by rintro rfl; exact ⟨hr, rfl⟩⟩
    | succ n =>
      have hfirst : (if p x then f x else x).id = x.id := by
        split
        · exact hf x
        · rfl
      rw [updateFirst_cons, List.mem_cons, or_and_right]
      rcases List.mem_cons.1 hr with rfl | hr
      · rw [countBefore_self hx, or_iff_left fun h' => (lt_of_mem_updateFirst hf hx h'.1).ne' h'.2]
        simp only [Nat.succ_pos, and_true]
        exact and_iff_left_of_imp fun h' => h' ▸ hfirst
      · have hne : ¬(r' = (if p x then f x else x) ∧ r'.id = r.id) := by
          rintro ⟨rfl, hid⟩
          exact (hx r hr).ne (hfirst.symm.trans hid)
        rw [or_iff_right hne, ih hrows hr, countBefore_cons hx hr]
        split
        · simp only [Nat.add_lt_add_iff_right]
        · rfl

end Rows

/-- The table, in the order of its primary key. -/
structure OutboxTable where
  rows : List OutboxRow
  ordered : SortedById rows

namespace OutboxTable

def lease (T : OutboxTable) (nowSecs : ℤ) (owner : String) (untilSecs : ℤ) (limit : ℕ) :
    OutboxTable where
  rows := updateFirst (OutboxRow.claimable nowSecs) (OutboxRow.leased owner untilSecs) limit T.rows
  ordered := T.ordered.updateFirst fun _ => rfl

def queryOutboxEvents (T : OutboxTable) (owner : String) (untilSecs : ℤ) (limit : ℕ) :
    List OutboxEvent :=
  ((T.rows.filter (OutboxRow.leasedTo owner untilSecs)).take limit).map OutboxRow.event

def claimOutboxEvents (T : OutboxTable) (nowMs : ℤ) (leaseOwner : String) (leaseUntilMs : ℤ)
    (limit : ℕ) : List OutboxEvent × OutboxTable :=
  let leased := T.lease (nowMs.tdiv 1000) leaseOwner (leaseUntilMs.tdiv 1000) limit
  (leased.queryOutboxEvents leaseOwner (leaseUntilMs.tdiv 1000) limit, leased)

/-- A call leases the event of a row. -/
def Leases (T : OutboxTable) (nowMs : ℤ) (leaseOwner : String) (leaseUntilMs : ℤ) (limit : ℕ)
    (r : OutboxRow) : Prop :=
  r ∈ T.rows ∧ r.leased leaseOwner (leaseUntilMs.tdiv 1000) ∈
    (T.claimOutboxEvents nowMs leaseOwner leaseUntilMs limit).2.rows

variable {T T₁ T₂ : OutboxTable} {nowMs t₁ t₂ L L₂ : ℤ} {leaseOwner owner₁ owner₂ : String}
  {leaseUntilMs : ℤ} {limit limit₁ limit₂ : ℕ} {r r' : OutboxRow}

lemma mem_claimOutboxEvents (hr : r ∈ T.rows) :
    r' ∈ (T.claimOutboxEvents nowMs leaseOwner leaseUntilMs limit).2.rows ∧ r'.id = r.id ↔
      r' = if r.claimable (nowMs.tdiv 1000) = true ∧
          countBefore (OutboxRow.claimable (nowMs.tdiv 1000)) r.id T.rows < limit
        then r.leased leaseOwner (leaseUntilMs.tdiv 1000) else r :=
  mem_updateFirst_iff T.ordered (fun _ => rfl) hr

lemma leases_iff (hr : r ∈ T.rows) : T.Leases nowMs leaseOwner leaseUntilMs limit r ↔
    r.claimable (nowMs.tdiv 1000) = true ∧
      countBefore (OutboxRow.claimable (nowMs.tdiv 1000)) r.id T.rows < limit := by
  have hrow := @mem_claimOutboxEvents T nowMs leaseOwner leaseUntilMs limit r
    (r.leased leaseOwner (leaseUntilMs.tdiv 1000)) hr
  have hid : (r.leased leaseOwner (leaseUntilMs.tdiv 1000)).id = r.id := rfl
  rw [Leases, and_iff_right hr, (and_iff_left hid).symm.trans hrow]
  split
  · rename_i h
    exact iff_of_true rfl h
  · rename_i h
    exact iff_of_false (OutboxRow.leased_ne _ _ _) h

/-- **Leases of two relays.**  An event that one relay has leased and that is not processed is left
alone by another relay before the lease is over, exactly if the end of the lease is not in the same
second, or the limit is reached before. -/
theorem claim_exclusive_iff (howner : owner₁ ≠ owner₂) (ht : t₁ ≤ t₂)
    (hfirst : T₁.Leases t₁ owner₁ L limit₁ r) (hrow : r.leased owner₁ (L.tdiv 1000) ∈ T₂.rows) :
    (¬T₂.Leases t₂ owner₂ L₂ limit₂ (r.leased owner₁ (L.tdiv 1000)) ∧
        ∀ e ∈ (T₂.claimOutboxEvents t₂ owner₂ L₂ limit₂).1, e.id ≠ r.id) ↔
      t₂.tdiv 1000 < L.tdiv 1000 ∨
        limit₂ ≤ countBefore (OutboxRow.claimable (t₂.tdiv 1000)) r.id T₂.rows := by
  have hclaimable : (r.leased owner₁ (L.tdiv 1000)).claimable (t₂.tdiv 1000) = true ↔
      L.tdiv 1000 ≤ t₂.tdiv 1000 := by
    have hsecs : t₁.tdiv 1000 ≤ t₂.tdiv 1000 := Int.tdiv_le_tdiv (by decide) ht
    have hthen := ((leases_iff hfirst.1).1 hfirst).1
    simp only [OutboxRow.claimable, Bool.and_eq_true, decide_eq_true_eq] at hthen
    have havailable : r.availableAt ≤ t₂.tdiv 1000 := hthen.1.2.trans hsecs
    simp [OutboxRow.claimable, OutboxRow.leased, hthen.1.1, havailable]
  have hreturned {e : OutboxEvent} (he : e ∈ (T₂.claimOutboxEvents t₂ owner₂ L₂ limit₂).1)
      (hid : e.id = r.id) : T₂.Leases t₂ owner₂ L₂ limit₂ (r.leased owner₁ (L.tdiv 1000)) := by
    obtain ⟨r', hr', rfl⟩ := List.mem_map.1 he
    obtain ⟨hmem, hto⟩ := List.mem_filter.1 (List.mem_of_mem_take hr')
    have hnow := (mem_claimOutboxEvents hrow).1 ⟨hmem, hid⟩
    refine (leases_iff hrow).2 ?_
    by_contra hno
    rw [if_neg hno] at hnow
    subst hnow
    simp [OutboxRow.leasedTo, OutboxRow.leased, howner] at hto
  have hiff : ¬T₂.Leases t₂ owner₂ L₂ limit₂ (r.leased owner₁ (L.tdiv 1000)) ↔
      t₂.tdiv 1000 < L.tdiv 1000 ∨
        limit₂ ≤ countBefore (OutboxRow.claimable (t₂.tdiv 1000)) r.id T₂.rows := by
    rw [leases_iff hrow, hclaimable, not_and_or, not_le, not_lt]
    rfl
  rw [← hiff, and_iff_left_iff_imp]
  exact fun hno e he hid => hno (hreturned he hid)

lemma sortedById_two : SortedById [{ id := 1 }, { id := 2 }] := by decide

/-- Two events that nobody has leased. -/
def twoEvents : OutboxTable := ⟨[{ id := 1 }, { id := 2 }], sortedById_two⟩

/-- Until the second of its end begins, a lease keeps another relay away. -/
theorem claim_exclusive_iff_twoEvents :
    ¬(twoEvents.claimOutboxEvents 0 "a" 2000 1).2.Leases 1999 "b" 9000 2
        (OutboxRow.leased "a" 2 { id := 1 }) ∧
      ∀ e ∈ ((twoEvents.claimOutboxEvents 0 "a" 2000 1).2.claimOutboxEvents 1999 "b" 9000 2).1,
        e.id ≠ 1 := by
  have hfirst : twoEvents.Leases 0 "a" 2000 1 { id := 1 } := ⟨by decide, by decide⟩
  have htimes : (0 : ℤ) ≤ 1999 := by decide
  exact (claim_exclusive_iff (by decide) htimes hfirst (by decide)).2 (.inl (by decide))

/-- A lease until `1500` that another relay takes over at `1000`. -/
theorem claim_before_end :
    twoEvents.Leases 0 "a" 1500 1 { id := 1 } ∧
      (twoEvents.claimOutboxEvents 0 "a" 1500 1).2.Leases 1000 "b" 9000 1
        (OutboxRow.leased "a" 1 { id := 1 }) ∧
      ((twoEvents.claimOutboxEvents 0 "a" 1500 1).2.claimOutboxEvents 1000 "b" 9000 1).1.map
        OutboxEvent.id = [1] := by
  refine ⟨⟨by decide, by decide⟩, ⟨by decide, by decide⟩, by decide⟩

end OutboxTable

end MuduoChat
