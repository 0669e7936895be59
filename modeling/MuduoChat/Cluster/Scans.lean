import MuduoChat.Cluster.Mirror

/-!
# Scans of the tables and in memory

A statement that works on the rows with some property works on the rows with that property in
memory, if the two sides agree which rows have it.  For whole seconds they do, with one exception:
a row whose time is exactly the cutoff of a cleanup is removed in memory and kept in the tables.
-/

namespace MuduoChat

open Std OrderedMap InMemoryMessageStore Ledger

lemma Ledger.length_deleteRows {l : Ledger} {order : List RowKey}
    {p : RowKey → DeliveryRow → Bool} {limit : ℕ} (hlimit : (l.rowsWhere order p).length ≤ limit) :
    (l.deleteRows order p limit).1 = (l.rowsWhere order p).length := by
  simp only [deleteRows, List.length_map, List.take_of_length_le hlimit]

lemma Ledger.row_deleteRows {l : Ledger} {order : List RowKey} {p : RowKey → DeliveryRow → Bool}
    {limit : ℕ} (hlimit : (l.rowsWhere order p).length ≤ limit) (k : RowKey) :
    (l.deleteRows order p limit).2.row k = (l.row k).filter fun r => !p k r := by
  refine getElem?_eraseAll_where (fun k => ?_) k
  rw [List.take_of_length_le hlimit, List.mem_map]
  constructor
  · rintro ⟨⟨k, r⟩, hmem, rfl⟩
    exact ⟨r, mem_rowsWhere hmem⟩
  · rintro ⟨r, hr⟩
    exact ⟨(k, r), mem_rowsWhere_iff.2 hr, rfl⟩

namespace InMemoryMessageStore

def rowsWith (m : InMemoryMessageStore) (q : Delivery → Bool) : List Delivery :=
  (m.deliveries.toList.filter fun e => q e.2).map Prod.snd

lemma mem_rowsWith {m : InMemoryMessageStore} {q : Delivery → Bool} {d : Delivery} :
    d ∈ m.rowsWith q ↔ (∃ k, m.row k = some d) ∧ q d = true := by
  simp only [rowsWith, List.mem_map, List.mem_filter, Prod.exists]
  constructor
  · rintro ⟨k, d, ⟨hmem, hq⟩, rfl⟩
    exact ⟨⟨k, mem_toList.1 hmem⟩, hq⟩
  · rintro ⟨⟨k, hk⟩, hq⟩
    exact ⟨k, d, ⟨mem_toList.2 hk, hq⟩, rfl⟩

/-- Among the rows with a property, those without a lease owner are terminal, or there are no
others. -/
def OwnersApart (m : InMemoryMessageStore) (q : Delivery → Bool) : Prop :=
  (∀ d ∈ m.rowsWith q, d.leaseOwner.userId.value = 0 → d.state.terminal = true) ∨
    ∀ d ∈ m.rowsWith q, d.leaseOwner.userId.value = 0

instance (m : InMemoryMessageStore) (q : Delivery → Bool) : Decidable (m.OwnersApart q) :=
  inferInstanceAs (Decidable ((∀ d ∈ m.rowsWith q, d.leaseOwner.userId.value = 0 →
    d.state.terminal = true) ∨ ∀ d ∈ m.rowsWith q, d.leaseOwner.userId.value = 0))

end InMemoryMessageStore

/-- Two answers have the same rows. -/
def SameRows (ds ds' : List Delivery) : Prop :=
  ∀ d, d ∈ ds.map Delivery.compared ↔ d ∈ ds'.map Delivery.compared

/-! ### Cleanup in memory -/

namespace InMemoryMessageStore

lemma due_exclusive {a b : ℤ} {d : Delivery} (h : dueExpired b d = true) :
    dueAcked a d = false := by
  simp only [dueExpired, Bool.and_eq_true, decide_eq_true_eq] at h
  simp [dueAcked, h.1.1]

lemma getElem?_cleanup (m : InMemoryMessageStore) {a b : ℤ} {limit : ℕ}
    (hlimit : (m.deliveries.toList.filter fun e => dueAcked a e.2).length ≤ limit)
    (hlimit' : (m.deliveries.toList.filter fun e => dueExpired b e.2).length ≤ limit)
    (k : DeliveryKey) :
    (m.cleanupDeliveries a b limit).2.deliveries[k]? =
      (m.row k).filter fun d => !(dueAcked a d || dueExpired b d) := by
  have hlook : ∀ k : DeliveryKey, (eraseAll m.deliveries
      ((select m.deliveries (dueAcked a) limit).map Prod.fst))[k]? =
        (m.row k).filter fun d => !dueAcked a d :=
    getElem?_eraseAll_where fun k => mem_keys_select_iff hlimit
  have hmem : ∀ k : DeliveryKey, k ∈ (select m.deliveries (dueExpired b) limit).map Prod.fst ↔
      ∃ d, (eraseAll m.deliveries
        ((select m.deliveries (dueAcked a) limit).map Prod.fst))[k]? = some d ∧
          dueExpired b d = true := by
    intro k
    rw [mem_keys_select_iff hlimit']
    refine exists_congr fun d => and_congr_left fun hq => ?_
    rw [hlook, Option.filter_eq_some_iff, due_exclusive hq]
    simp [InMemoryMessageStore.row]
  refine (getElem?_eraseAll_where hmem k).trans ?_
  rw [hlook, Option.filter_filter]
  simp only [Bool.not_or]

end InMemoryMessageStore

/-! ### Expired rows -/

lemma Delivery.Storable.expired {d : Delivery} (h : d.Storable) :
    Delivery.Storable { d with state := .expired } :=
  ⟨h.recipient, h.attemptCount, h.ownerId, h.generation, h.bootId, h.leaseUntil,
    h.acknowledgedAt, h.expiresAt, h.lastSentAt, h.nextAttemptAt⟩

lemma InMemoryMessageStore.Fits.expired {m : InMemoryMessageStore} {d : Delivery}
    (h : m.Fits d) : m.Fits { d with state := .expired } :=
  ⟨h.storable.expired, fun hlive => by simp at hlive, by
    obtain ⟨msg, hmsg, hconv, -⟩ := h.message
    exact ⟨msg, hmsg, hconv, fun hstate => by simp at hstate⟩⟩

lemma RowOf.expired {d : Delivery} {r : DeliveryRow} (h : RowOf d r) :
    RowOf { d with state := .expired } (expired r) :=
  ⟨rfl, h.attemptCount, h.acknowledgedAt, h.expiresAt, .inl rfl, fun hlive => by simp at hlive⟩

namespace Reflects

variable {m : InMemoryMessageStore} {T : Tables}

/-! ### Rows with a property -/

lemma recipient_lt (h : Reflects m T) {k : DeliveryKey} {d : Delivery} (hk : m.row k = some d) :
    k.recipient < 2 ^ 31 := by
  rw [← h.key_eq hk]
  exact (h.fits hk).storable.recipient

lemma row_eq_none (h : Reflects m T) {k : DeliveryKey} (hk : k.recipient < 2 ^ 31)
    (hnone : m.row k = none) : T.ledger.row k.columns = none := by
  have hrow := h.row k hk
  rw [hnone] at hrow
  generalize T.ledger.row k.columns = y at hrow
  cases hrow with
  | none => rfl

lemma exists_row (h : Reflects m T) {k : DeliveryKey} {d : Delivery} (hk : m.row k = some d) :
    ∃ r, T.ledger.row k.columns = some r ∧ RowOf d r := by
  have hrow := h.row k (h.recipient_lt hk)
  rw [hk] at hrow
  generalize T.ledger.row k.columns = y at hrow
  cases hrow with
  | some hr => exact ⟨_, rfl, hr⟩

lemma exists_delivery (h : Reflects m T) {k : RowKey} {r : DeliveryRow}
    (hk : T.ledger.row k = some r) :
    ∃ k' d, DeliveryKey.columns k' = k ∧ m.row k' = some d ∧ RowOf d r := by
  have hcolumns : DeliveryKey.columns ⟨k.first, ofColumn k.second⟩ = k := by
    simp [DeliveryKey.columns]
  have hrow := h.row ⟨k.first, ofColumn k.second⟩ (h.small hk)
  rw [hcolumns, hk] at hrow
  generalize hx : m.row ⟨k.first, ofColumn k.second⟩ = x at hrow
  cases hrow with
  | some hr => exact ⟨_, _, hcolumns, hx, hr⟩

section Where

variable {p : RowKey → DeliveryRow → Bool} {q : Delivery → Bool}

/-- Both sides have the property in the same rows. -/
def SameWhere (m : InMemoryMessageStore) (p : RowKey → DeliveryRow → Bool) (q : Delivery → Bool) :
    Prop :=
  ∀ ⦃k d r⦄, m.row k = some d → RowOf d r → p k.columns r = q d

lemma exists_row_iff (h : Reflects m T) (hpq : SameWhere m p q) (k : RowKey) :
    (∃ r, T.ledger.row k = some r ∧ p k r = true) ↔
      ∃ k' d, DeliveryKey.columns k' = k ∧ m.row k' = some d ∧ q d = true := by
  constructor
  · rintro ⟨r, hk, hp⟩
    obtain ⟨k', d, rfl, hd, hr⟩ := h.exists_delivery hk
    exact ⟨k', d, rfl, hd, by rw [← hpq hd hr, hp]⟩
  · rintro ⟨k', d, rfl, hd, hq⟩
    obtain ⟨r, hk, hr⟩ := h.exists_row hd
    exact ⟨r, hk, by rw [hpq hd hr, hq]⟩

lemma keys_perm (h : Reflects m T) (order : List RowKey) {l : Ledger}
    (hl : ∀ k, (∃ r, l.row k = some r ∧ p k r = true) ↔
      ∃ k' d, DeliveryKey.columns k' = k ∧ m.row k' = some d ∧ q d = true) :
    ((l.rowsWhere order p).map Prod.fst).Perm
      ((m.deliveries.toList.filter fun e => q e.2).map fun e => e.1.columns) := by
  have hnodup : ((m.deliveries.toList.filter fun e => q e.2).map fun e => e.1.columns).Nodup := by
    have hkeys : ((m.deliveries.toList.filter fun e => q e.2).map Prod.fst).Nodup :=
      (nodup_keys_toList m.deliveries).sublist (List.filter_sublist.map Prod.fst)
    have hmap := hkeys.map_on (f := DeliveryKey.columns) fun k hk k' hk' heq => ?_
    · rwa [List.map_map] at hmap
    · obtain ⟨⟨k, d⟩, hd, rfl⟩ := List.mem_map.1 hk
      obtain ⟨⟨k', d'⟩, hd', rfl⟩ := List.mem_map.1 hk'
      have hd := mem_toList.1 (List.mem_filter.1 hd).1
      have hd' := mem_toList.1 (List.mem_filter.1 hd').1
      exact (columns_inj (h.recipient_lt hd) (h.recipient_lt hd')).1 heq
  refine (List.perm_ext_iff_of_nodup (nodup_rowsWhere l order p) hnodup).2 fun k => ?_
  constructor
  · intro hk
    obtain ⟨⟨k, r⟩, hmem, rfl⟩ := List.mem_map.1 hk
    obtain ⟨k', d, hcolumns, hd, hq⟩ := (hl k).1 ⟨r, mem_rowsWhere hmem⟩
    exact List.mem_map.2 ⟨(k', d), List.mem_filter.2 ⟨mem_toList.2 hd, hq⟩, hcolumns⟩
  · intro hk
    obtain ⟨⟨k', d⟩, hmem, rfl⟩ := List.mem_map.1 hk
    obtain ⟨hmem, hq⟩ := List.mem_filter.1 hmem
    obtain ⟨r, hr, hp⟩ := (hl k'.columns).2 ⟨k', d, rfl, mem_toList.1 hmem, hq⟩
    exact List.mem_map.2 ⟨(k'.columns, r), mem_rowsWhere_iff.2 ⟨hr, hp⟩, rfl⟩

lemma length_rowsWhere (h : Reflects m T) (order : List RowKey) (hpq : SameWhere m p q) :
    (T.ledger.rowsWhere order p).length = (m.deliveries.toList.filter fun e => q e.2).length := by
  have hperm := h.keys_perm order (h.exists_row_iff hpq)
  simpa using hperm.length_eq

end Where

/-! ### Queries -/

lemma mem_joined (h : Reflects m T) {p : RowKey → DeliveryRow → Bool} {q : Delivery → Bool}
    (hpq : SameWhere m p q) (order : List RowKey) (s : SelectedDelivery) :
    s ∈ (T.ledger.rowsWhere order p).filterMap T.ledger.joined ↔
      ∃ d r, d ∈ m.rowsWith q ∧ RowOf d r ∧ T.ledger.row (rowKey d) = some r ∧
        s = ⟨rowKey d, r, d.conversationId.value, m.sequenceOf d⟩ := by
  have hjoined {k : DeliveryKey} {d : Delivery} {r : DeliveryRow} (hd : m.row k = some d) :
      T.ledger.joined (k.columns, r) =
        some ⟨rowKey d, r, d.conversationId.value, m.sequenceOf d⟩ := by
    obtain ⟨msg, hmsg, hconv, -⟩ := (h.fits hd).message
    have hkey := h.key_eq hd
    subst hkey
    have hrow : T.ledger.chatMessage[d.messageId.value]? =
        some (Tables.messageRow msg msg.sequence.value) := by
      rw [h.message, hmsg]
      rfl
    rw [joined, sequenceOf_eq hmsg]
    simp only [DeliveryKey.columns, Delivery.key, hrow, Option.map_some, Tables.messageRow, hconv,
      rowKey]
  simp only [List.mem_filterMap, InMemoryMessageStore.mem_rowsWith]
  constructor
  · rintro ⟨⟨k, r⟩, hmem, hs⟩
    obtain ⟨hr, hp⟩ := mem_rowsWhere hmem
    obtain ⟨k', d, rfl, hd, hrow⟩ := h.exists_delivery hr
    rw [hjoined hd] at hs
    have hkey : rowKey d = k'.columns := congrArg DeliveryKey.columns (h.key_eq hd)
    exact ⟨d, r, ⟨⟨k', hd⟩, by rw [← hpq hd hrow]; exact hp⟩, hrow, by rw [hkey]; exact hr,
      (Option.some.inj hs).symm⟩
  · rintro ⟨d, r, ⟨⟨k, hd⟩, hq⟩, hrow, hr, rfl⟩
    have hkey : rowKey d = k.columns := congrArg DeliveryKey.columns (h.key_eq hd)
    rw [hkey] at hr
    exact ⟨(k.columns, r), mem_rowsWhere_iff.2 ⟨hr, by rw [hpq hd hrow, hq]⟩, hjoined hd⟩

lemma decode_query (h : Reflects m T) {q : Delivery → Bool} {rows : List SelectedDelivery}
    (hrows : ∀ s, s ∈ rows ↔ ∃ d r, d ∈ m.rowsWith q ∧ RowOf d r ∧
      T.ledger.row (rowKey d) = some r ∧
      s = ⟨rowKey d, r, d.conversationId.value, m.sequenceOf d⟩)
    (howners : m.OwnersApart q) :
    ∃ ds, decodeRows [] rows = .ok ds ∧ SameRows ((m.rowsWith q).map m.fillSequence) ds := by
  have hfits {d : Delivery} (hd : d ∈ m.rowsWith q) : m.Fits d := by
    obtain ⟨⟨k, hk⟩, -⟩ := mem_rowsWith.1 hd
    exact h.fits hk
  have hread : ∀ s ∈ rows, ∀ text, s.row.leaseOwner = some text →
      ∃ owner, decodeLeaseOwner text.toList = .ok owner := by
    intro s hs text htext
    obtain ⟨d, r, hd, hr, -, rfl⟩ := (hrows s).1 hs
    rcases hr.owner with hnone | hown
    · rw [hnone] at htext
      cases htext
    · exact ⟨_, decodeLeaseOwner_of_rowOf (hfits hd).storable (hown.symm.trans htext)⟩
  have hkept : (∀ s ∈ rows, s.row.leaseOwner = none → s.row.state.terminal = true) ∨
      ∀ s ∈ rows, s.row.leaseOwner = none := by
    refine howners.imp (fun hq s hs hnone => ?_) fun hq s hs => ?_
    · obtain ⟨d, r, hd, hr, -, rfl⟩ := (hrows s).1 hs
      by_contra hlive
      simp only [hr.state, Bool.not_eq_true] at hlive
      rw [hr.live hlive] at hnone
      have hid : d.leaseOwner.userId.value = 0 := by
        by_contra hne
        simp [rowOf, hne] at hnone
      rw [hq d hd hid] at hlive
      cases hlive
    · obtain ⟨d, r, hd, hr, -, rfl⟩ := (hrows s).1 hs
      rcases hr.owner with hnone | hown
      · exact hnone
      · rw [hown]
        simp [rowOf, hq d hd]
  have hback {d : Delivery} {r : DeliveryRow} (hd : d ∈ m.rowsWith q) (hr : RowOf d r) :
      (readRow (ownerOf r) ⟨rowKey d, r, d.conversationId.value, m.sequenceOf d⟩).compared =
        (m.fillSequence d).compared := by
    rw [m.fillSequence_eq d]
    exact compared_readRow (hfits hd).storable (hfits hd).owner hr (m.fillSequence d).sequence
  obtain ⟨ds, hds, hmap⟩ := decodeRows_compared hread hkept
  refine ⟨ds, hds, fun x => ?_⟩
  rw [hmap]
  simp only [List.map_map, List.mem_map, Function.comp_apply]
  constructor
  · rintro ⟨d, hd, rfl⟩
    obtain ⟨⟨k, hk⟩, -⟩ := mem_rowsWith.1 hd
    obtain ⟨r, hr, hrow⟩ := h.exists_row hk
    have hkey : rowKey d = k.columns := congrArg DeliveryKey.columns (h.key_eq hk)
    rw [← hkey] at hr
    exact ⟨_, (hrows _).2 ⟨d, r, hd, hrow, hr, rfl⟩, hback hd hrow⟩
  · rintro ⟨s, hs, rfl⟩
    obtain ⟨d, r, hd, hr, -, rfl⟩ := (hrows s).1 hs
    exact ⟨d, hd, (hback hd hr).symm⟩

/-! ### The conditions of the statements -/

lemma any_secondsDown_lt {t n : ℤ} (h : WholeSeconds t) :
    ((secondsDown t).any fun s => decide (s < n)) = (decide (t > 0) && decide (t < 1000 * n)) := by
  obtain ⟨a, ha, rfl⟩ := h.exists_eq
  by_cases hzero : 1000 * a = 0
  · simp [secondsDown, hzero]
  · rw [secondsDown, if_neg hzero, tdiv_thousand, fromUnixtime_of_nonneg ha, Bool.eq_iff_iff]
    simp only [Option.any_some, Bool.and_eq_true, decide_eq_true_eq]
    omega

lemma any_secondsUp_le {t n : ℤ} (h : WholeSeconds t) :
    ((secondsUp t).any fun s => decide (s ≤ n)) = (decide (t > 0) && decide (t ≤ 1000 * n)) := by
  obtain ⟨a, ha, rfl⟩ := h.exists_eq
  by_cases hzero : 1000 * a = 0
  · simp [secondsUp, hzero]
  · rw [secondsUp, if_neg hzero, tdiv_thousand_up ha, fromUnixtime_of_nonneg ha,
      Bool.eq_iff_iff]
    simp only [Option.any_some, Bool.and_eq_true, decide_eq_true_eq]
    omega

lemma sameWhere_recipient (h : Reflects m T) {u : UserId} (hu : u.value < 2 ^ 31) :
    SameWhere m (meets (.recipient (toColumn u.value)))
      fun d => decide (d.recipient.value = u.value) := by
  intro k d r hk hr
  have hlt := h.recipient_lt hk
  have hkey : d.recipient.value = k.recipient := congrArg DeliveryKey.recipient (h.key_eq hk)
  simp only [meets, DeliveryKey.columns, toColumn_inj hlt hu, hkey]

lemma sameWhere_due (h : Reflects m T) (n : ℤ) (limit : ℕ) :
    SameWhere m (meets (.due n limit)) (dueForRetry (1000 * n)) := by
  intro k d r hk hr
  by_cases hstate : d.state = .inFlight
  · have hlive : r = rowOf d := hr.live (by rw [hstate]; rfl)
    subst hlive
    have hcolumn : (rowOf d).nextAttemptAt = secondsUp d.nextAttemptAtMs := rfl
    rw [meets, dueForRetry, hcolumn, any_secondsUp_le (h.fits hk).storable.nextAttemptAt,
      Bool.and_assoc]
    rfl
  · simp [meets, dueForRetry, hr.state, hstate]

lemma sameWhere_expiring (h : Reflects m T) (n : ℤ) :
    SameWhere m (Ledger.expiring n) (dueForExpiry (1000 * n)) := by
  intro k d r hk hr
  simp only [Ledger.expiring, dueForExpiry, hr.state, hr.expiresAt,
    any_secondsDown_lt (h.fits hk).storable.expiresAt, gt_iff_lt, Bool.and_assoc]

lemma sameWhere_outlived (h : Reflects m T) {state : DeliveryState}
    {column : DeliveryRow → Option ℤ} {time : Delivery → ℤ} {n : ℤ}
    (hcolumn : ∀ {d r}, RowOf d r → column r = secondsDown (time d))
    (hseconds : ∀ {d : Delivery}, d.Storable → WholeSeconds (time d))
    (hcutoff : ∀ {k d}, m.row k = some d → d.state = state → time d ≠ 1000 * n) :
    SameWhere m (outlived state column n) fun d =>
      decide (d.state = state) && decide (time d > 0) && decide (time d ≤ 1000 * n) := by
  intro k d r hk hr
  by_cases hstate : d.state = state
  · have hne := hcutoff hk hstate
    have hle : decide (time d < 1000 * n) = decide (time d ≤ 1000 * n) :=
      decide_eq_decide.2 (by omega)
    rw [outlived, hr.state, hcolumn hr, any_secondsDown_lt (hseconds (h.fits hk).storable), hle]
    exact (Bool.and_assoc _ _ _).symm
  · simp [outlived, hr.state, hstate]

/-! ### Answers of the queries -/

lemma deliveriesByRecipient (h : Reflects m T) {u : UserId} (hu : u.value < 2 ^ 31)
    (howners : m.OwnersApart fun d => decide (d.recipient.value = u.value))
    (order : List RowKey) :
    ∃ ds, decodeRows [] (T.ledger.selectDeliveries order (.recipient (toColumn u.value))) = .ok ds ∧
      SameRows (m.deliveriesByRecipient u) ds := by
  have hfill : m.deliveriesByRecipient u =
      (m.rowsWith fun d => decide (d.recipient.value = u.value)).map m.fillSequence := by
    rw [InMemoryMessageStore.deliveriesByRecipient, rowsWith, List.filter_map]
    rfl
  rw [hfill]
  exact h.decode_query (h.mem_joined (h.sameWhere_recipient hu) order) howners

lemma deliveriesDueForRetry (h : Reflects m T) {n : ℤ} {limit : ℕ}
    (hlimit : (m.rowsWith (dueForRetry (1000 * n))).length ≤ limit)
    (howners : m.OwnersApart (dueForRetry (1000 * n))) (order : List RowKey) :
    ∃ ds, decodeRows [] (T.ledger.selectDeliveries order (.due n limit)) = .ok ds ∧
      SameRows (m.deliveriesDueForRetry (1000 * n) limit) ds := by
  rw [rowsWith, List.length_map] at hlimit
  have hall : m.deliveriesDueForRetry (1000 * n) limit =
      (m.rowsWith (dueForRetry (1000 * n))).map m.fillSequence := by
    rw [InMemoryMessageStore.deliveriesDueForRetry, select, List.take_of_length_le hlimit, ← rowsWith]
    refine ((List.map_congr_left fun d hd => ?_).trans (List.map_id _)).symm
    -- a row in flight has its sequence
    obtain ⟨⟨k, hk⟩, hdue⟩ := mem_rowsWith.1 hd
    simp only [dueForRetry, Bool.and_eq_true, decide_eq_true_eq] at hdue
    obtain ⟨msg, hmsg, -, hseq⟩ := (h.fits hk).message
    have hmsg : m.messagesById[d.messageId.value]? = some msg := hmsg
    simp only [fillSequence, hmsg, hseq hdue.1.1, id]
  have hselected : T.ledger.selectDeliveries order (.due n limit) =
      (T.ledger.rowsWhere order (meets (.due n limit))).filterMap T.ledger.joined := by
    refine List.take_of_length_le ((List.length_filterMap_le _ _).trans ?_)
    rw [h.length_rowsWhere order (h.sameWhere_due n limit)]
    exact hlimit
  rw [hall, hselected]
  exact h.decode_query (h.mem_joined (h.sameWhere_due n limit) order) howners

/-! ### Expiry -/

lemma expireDeliveries (h : Reflects m T) {n : ℤ} {limit : ℕ}
    (hlimit : (m.rowsWith (dueForExpiry (1000 * n))).length ≤ limit) (order : List RowKey) :
    (T.ledger.selectExpiring order n limit).length = (m.expireDeliveries (1000 * n) limit).1 ∧
      Reflects (m.expireDeliveries (1000 * n) limit).2 (T.expire order n limit) := by
  rw [rowsWith, List.length_map] at hlimit
  have hlength := h.length_rowsWhere order (h.sameWhere_expiring n)
  -- no limit is reached on either side
  have hselected : T.ledger.selectExpiring order n limit =
      (T.ledger.rowsWhere order (Ledger.expiring n)).insertionSort
        fun a b => a.1.first ≤ b.1.first := by
    refine List.take_of_length_le ?_
    rw [List.length_insertionSort, hlength]
    exact hlimit
  have hlook : ∀ k : RowKey, (rewriteAll expired T.ledger.messageDelivery
      (T.ledger.selectExpiring order n limit))[k]? =
        (T.ledger.row k).map fun r => if Ledger.expiring n k r then expired r else r := by
    refine getElem?_rewriteAll_where _ ?_ fun k r => ?_
    · rw [hselected, ((List.perm_insertionSort _ _).map Prod.fst).nodup_iff]
      exact nodup_rowsWhere _ _ _
    · rw [hselected, List.mem_insertionSort]
      exact mem_rowsWhere_iff
  have hlookm : ∀ k : DeliveryKey, (rewriteAll (fun d : Delivery => { d with state := .expired })
      m.deliveries (select m.deliveries (dueForExpiry (1000 * n)) limit))[k]? =
        (m.row k).map fun d => if dueForExpiry (1000 * n) d then { d with state := .expired } else d :=
    getElem?_rewriteAll_where (p := fun _ => dueForExpiry (1000 * n)) _
      (nodup_keys_select _ _ _) fun k d => mem_select_iff hlimit
  refine ⟨?_, ?_⟩
  · rw [hselected, List.length_insertionSort, hlength, InMemoryMessageStore.expireDeliveries,
      select, List.take_of_length_le hlimit]
  · refine h.withDeliveries ?_ ?_ ?_ ?_
    · intro k d hk
      rw [hlookm, Option.map_eq_some_iff] at hk
      obtain ⟨cur, hcur, rfl⟩ := hk
      have hkey := h.key_eq hcur
      split_ifs
      · exact hkey
      · exact hkey
    · intro k d hk
      rw [hlookm, Option.map_eq_some_iff] at hk
      obtain ⟨cur, hcur, rfl⟩ := hk
      have hfits := h.fits hcur
      split_ifs
      · exact hfits.expired
      · exact hfits
    · intro k hk
      rw [hlookm, hlook]
      cases hcur : m.row k with
      | none =>
        rw [h.row_eq_none hk hcur]
        exact Option.Rel.none
      | some cur =>
        obtain ⟨r, hr, hrow⟩ := h.exists_row hcur
        rw [hr, Option.map_some, Option.map_some, h.sameWhere_expiring n hcur hrow]
        split_ifs
        · exact Option.Rel.some hrow.expired
        · exact Option.Rel.some hrow
    · intro k r hk
      rw [hlook, Option.map_eq_some_iff] at hk
      obtain ⟨cur, hcur, -⟩ := hk
      exact h.small hcur

/-! ### Cleanup -/

lemma removeWhere (h : Reflects m T) {p : RowKey → DeliveryRow → Bool} {q : Delivery → Bool}
    (hpq : SameWhere m p q) {D : TreeMap DeliveryKey Delivery} {E : TreeMap RowKey DeliveryRow}
    (hD : ∀ k : DeliveryKey, D[k]? = (m.row k).filter fun d => !q d)
    (hE : ∀ k : RowKey, E[k]? = (T.ledger.row k).filter fun r => !p k r) :
    Reflects { m with deliveries := D } (T.withDeliveries E) := by
  refine h.withDeliveries ?_ ?_ ?_ ?_
  · intro k d hk
    rw [hD, Option.filter_eq_some_iff] at hk
    exact h.key_eq hk.1
  · intro k d hk
    rw [hD, Option.filter_eq_some_iff] at hk
    exact h.fits hk.1
  · intro k hk
    rw [hD, hE]
    cases hcur : m.row k with
    | none =>
      rw [h.row_eq_none hk hcur]
      exact Option.Rel.none
    | some cur =>
      obtain ⟨r, hr, hrow⟩ := h.exists_row hcur
      rw [hr, Option.filter_some, Option.filter_some, hpq hcur hrow]
      split_ifs
      · exact Option.Rel.some hrow
      · exact Option.Rel.none
  · intro k r hk
    rw [hE, Option.filter_eq_some_iff] at hk
    exact h.small hk.1

lemma outlived_exclusive {column column' : DeliveryRow → Option ℤ} {a b : ℤ} {k : RowKey}
    {r : DeliveryRow} (h : outlived .expired column b k r = true) :
    outlived .acknowledged column' a k r = false := by
  simp only [outlived, Bool.and_eq_true, decide_eq_true_eq] at h
  simp [outlived, h.1]

lemma cleanupDeliveries (h : Reflects m T) {a b : ℤ} {limit : ℕ}
    (hacked : ∀ {k d}, m.row k = some d → d.state = .acknowledged →
      d.acknowledgedAtMs ≠ 1000 * a)
    (hexpired : ∀ {k d}, m.row k = some d → d.state = .expired → d.expiresAtMs ≠ 1000 * b)
    (hlimit : (m.rowsWith (dueAcked (1000 * a))).length ≤ limit)
    (hlimit' : (m.rowsWith (dueExpired (1000 * b))).length ≤ limit) (order order' : List RowKey) :
    (T.cleanup order order' a b limit).1 = (m.cleanupDeliveries (1000 * a) (1000 * b) limit).1 ∧
      Reflects (m.cleanupDeliveries (1000 * a) (1000 * b) limit).2
        (T.cleanup order order' a b limit).2 := by
  rw [rowsWith, List.length_map] at hlimit hlimit'
  have hacked : SameWhere m _ (dueAcked (1000 * a)) :=
    h.sameWhere_outlived RowOf.acknowledgedAt Delivery.Storable.acknowledgedAt hacked
  have hexpired : SameWhere m _ (dueExpired (1000 * b)) :=
    h.sameWhere_outlived RowOf.expiresAt Delivery.Storable.expiresAt hexpired
  -- the first statement
  have hlength := h.length_rowsWhere order hacked
  have hshort : (T.ledger.rowsWhere order (outlived .acknowledged
      DeliveryRow.acknowledgedAt a)).length ≤ limit := by
    rw [hlength]
    exact hlimit
  have hcount := length_deleteRows hshort
  have hrow := row_deleteRows hshort
  generalize hl : (T.ledger.deleteRows order
    (outlived .acknowledged DeliveryRow.acknowledgedAt a) limit).2 = l at hrow
  -- the second statement finds the rows that it would have found without the first one
  have hexists : ∀ k, (∃ r, l.row k = some r ∧
      outlived .expired DeliveryRow.expiresAt b k r = true) ↔
        ∃ k' d, DeliveryKey.columns k' = k ∧ m.row k' = some d ∧ dueExpired (1000 * b) d = true := by
    intro k
    rw [← h.exists_row_iff hexpired k]
    refine exists_congr fun r => and_congr_left fun hp => ?_
    rw [hrow, Option.filter_eq_some_iff, outlived_exclusive hp]
    simp
  have hlength' := (h.keys_perm order' hexists).length_eq
  rw [List.length_map, List.length_map] at hlength'
  have hshort' : (l.rowsWhere order' (outlived .expired DeliveryRow.expiresAt b)).length ≤
      limit := by
    rw [hlength']
    exact hlimit'
  have hcount' := length_deleteRows hshort'
  have hrow' := row_deleteRows hshort'
  have hlook := m.getElem?_cleanup hlimit hlimit'
  subst hl
  refine ⟨?_, ?_⟩
  · have hsum : (T.cleanup order order' a b limit).1 =
        (T.ledger.deleteRows order _ limit).1 +
          ((T.ledger.deleteRows order _ limit).2.deleteRows order' _ limit).1 := rfl
    rw [hsum, hcount, hcount', hlength, hlength', InMemoryMessageStore.cleanupDeliveries]
    simp only [List.length_map, select, List.take_of_length_le hlimit,
      List.take_of_length_le hlimit']
  · refine h.removeWhere (p := fun k r =>
        outlived .acknowledged DeliveryRow.acknowledgedAt a k r ||
          outlived .expired DeliveryRow.expiresAt b k r)
      (fun k d r hd hr => ?_) hlook (E := (T.cleanup order order' a b limit).2.ledger.messageDelivery)
      fun k => ?_
    · dsimp only
      rw [hacked hd hr, hexpired hd hr]
    · refine (hrow' k).trans ?_
      rw [hrow, Option.filter_filter]
      simp only [Bool.not_or]

end Reflects

end MuduoChat
