import MuduoChat.Lib.Keyed
import MuduoChat.Store.Consistent

/-!
# Several writes to the delivery rows

What a query for the rows of a recipient returns after rows have been written: the new rows in
the places of the old ones.  A row that is written back comes from a query, and so it has the
sequence of its message; then the query returns it as it was written.
-/

namespace MuduoChat

open Std OrderedMap KeyedList

namespace InMemoryMessageStore

variable {s s' : InMemoryMessageStore} {d : Delivery} {ds : List Delivery} {k : DeliveryKey}
  {u : UserId}

/-- Write rows, one after the other. -/
def writeAll (s : InMemoryMessageStore) (ds : List Delivery) : InMemoryMessageStore :=
  ds.foldl updateDelivery s

@[simp] lemma writeAll_nil (s : InMemoryMessageStore) : s.writeAll [] = s := rfl

@[simp] lemma writeAll_cons (s : InMemoryMessageStore) (d : Delivery) (ds : List Delivery) :
    s.writeAll (d :: ds) = (s.updateDelivery d).writeAll ds := rfl

lemma writeAll_append (s : InMemoryMessageStore) (ds ds' : List Delivery) :
    s.writeAll (ds ++ ds') = (s.writeAll ds).writeAll ds' :=
  List.foldl_append

lemma onlyRows_writeAll (s : InMemoryMessageStore) (ds : List Delivery) :
    OnlyRows s (s.writeAll ds) := by
  induction ds generalizing s with
  | nil => exact OnlyRows.refl s
  | cons d ds ih => exact (onlyRows_updateDelivery s d).trans (ih _)

@[simp] lemma messagesById_writeAll (s : InMemoryMessageStore) (ds : List Delivery) :
    (s.writeAll ds).messagesById = s.messagesById := by
  rw [(onlyRows_writeAll s ds).rest]

@[simp] lemma fillSequence_writeAll (s : InMemoryMessageStore) (ds : List Delivery)
    (d : Delivery) : (s.writeAll ds).fillSequence d = s.fillSequence d := by
  unfold fillSequence
  rw [messagesById_writeAll]

@[simp] lemma findMessage_writeAll (s : InMemoryMessageStore) (ds : List Delivery) :
    (s.writeAll ds).findMessage = s.findMessage := by
  funext m
  unfold findMessage
  rw [messagesById_writeAll]

/-! ### One row -/

lemma keyed_empty : Keyed {} := by
  intro k d hk
  simp [row] at hk

lemma Keyed.insertDelivery (hs : Keyed s) (d : Delivery) : Keyed (s.insertDelivery d) := by
  intro k d' hk
  rw [row_insertDelivery] at hk
  split at hk
  · rename_i h
    rw [← Option.some.inj hk, h.1]
  · exact hs k d' hk

lemma Keyed.updateDelivery (hs : Keyed s) (d : Delivery) : Keyed (s.updateDelivery d) := by
  intro k d' hk
  rw [row_updateDelivery] at hk
  split at hk
  · rename_i h
    rw [← Option.some.inj hk, h.1]
  · exact hs k d' hk

lemma Keyed.writeAll (hs : Keyed s) (ds : List Delivery) : Keyed (s.writeAll ds) := by
  induction ds generalizing s with
  | nil => exact hs
  | cons d ds ih => exact ih (hs.updateDelivery d)

lemma row_writeAll_congr (h : ∀ k, s.row k = s'.row k) (ds : List Delivery) (k : DeliveryKey) :
    (s.writeAll ds).row k = (s'.writeAll ds).row k := by
  induction ds generalizing s s' with
  | nil => exact h k
  | cons d ds ih =>
    refine ih fun k' => ?_
    rw [row_updateDelivery, row_updateDelivery, h, h]

lemma row_writeAll_of_notMem (h : k ∉ ds.map Delivery.key) : (s.writeAll ds).row k = s.row k := by
  induction ds generalizing s with
  | nil => rfl
  | cons d ds ih =>
    simp only [List.map_cons, List.mem_cons, not_or] at h
    rw [writeAll_cons, ih h.2, row_updateDelivery, if_neg fun hk => h.1 hk.1.symm]

lemma row_writeAll_of_mem (hds : (ds.map Delivery.key).Nodup) (hd : d ∈ ds)
    (hpresent : (s.row d.key).isSome) : (s.writeAll ds).row d.key = some d := by
  induction ds generalizing s with
  | nil => simp at hd
  | cons d' ds ih =>
    obtain ⟨hd', hds⟩ := List.nodup_cons.1 hds
    rcases List.mem_cons.1 hd with rfl | hd
    · rw [writeAll_cons, row_writeAll_of_notMem hd', row_updateDelivery, if_pos ⟨rfl, hpresent⟩]
    · refine ih hds hd ?_
      rw [(onlyRows_updateDelivery s d').present]
      exact hpresent

/-! ### The rows of a recipient -/

lemma deliveriesByRecipient_congr (hrow : ∀ k, s.row k = s'.row k)
    (hmessages : s.messagesById = s'.messagesById) (u : UserId) :
    s.deliveriesByRecipient u = s'.deliveriesByRecipient u := by
  have hlist : s.deliveries.toList = s'.deliveries.toList := toList_congr hrow
  have hfill : s.fillSequence = s'.fillSequence := by
    funext d
    unfold fillSequence
    rw [hmessages]
  unfold deliveriesByRecipient
  rw [hlist, hfill]

lemma deliveriesByRecipient_updateDelivery (hs : Keyed s) (hpresent : (s.row d.key).isSome)
    (hfill : s.fillSequence d = d) (u : UserId) :
    (s.updateDelivery d).deliveriesByRecipient u =
      KeyedList.overwrite Delivery.key (s.deliveriesByRecipient u) d := by
  obtain ⟨old, hold⟩ := Option.isSome_iff_exists.1 hpresent
  have hlist : (s.updateDelivery d).deliveries.toList =
      s.deliveries.toList.map fun e => if e.1 = d.key then (d.key, d) else e := by
    have hdeliveries : (s.updateDelivery d).deliveries = s.deliveries.insert d.key d := by
      have hold' : s.deliveries[d.key]? = some old := hold
      simp only [updateDelivery, hold']
    rw [hdeliveries, toList_insert_of_isSome hpresent]
  -- a row and the one that replaces it have the same recipient
  have hrecipient {e : DeliveryKey × Delivery} (he : e ∈ s.deliveries.toList)
      (hk : e.1 = d.key) : e.2.recipient.value = d.recipient.value := by
    have hkey := hs _ _ (mem_toList.1 he)
    rw [hk] at hkey
    exact congrArg DeliveryKey.recipient hkey
  unfold deliveriesByRecipient KeyedList.overwrite
  rw [hlist, List.map_map, List.filter_map, List.filter_map, List.map_map, List.map_map,
    List.map_map, List.filter_congr (q := (fun d : Delivery => decide
      (d.recipient.value = u.value)) ∘ Prod.snd)]
  · refine List.map_congr_left fun e he => ?_
    have he' := (List.mem_filter.1 he).1
    have hkey : (s.fillSequence e.2).key = e.1 := by
      rw [fillSequence_key, hs _ _ (mem_toList.1 he')]
    simp only [Function.comp_apply, hkey]
    by_cases hk : e.1 = d.key
    · rw [if_pos hk, if_pos hk]
      exact hfill
    · rw [if_neg hk, if_neg hk]
      rfl
  · intro e he
    simp only [Function.comp_apply]
    by_cases hk : e.1 = d.key
    · simp [hk, hrecipient he hk]
    · simp [hk]

lemma deliveriesByRecipient_writeAll (hs : Keyed s) (hpresent : ∀ d ∈ ds, (s.row d.key).isSome)
    (hfill : ∀ d ∈ ds, s.fillSequence d = d) (u : UserId) :
    (s.writeAll ds).deliveriesByRecipient u =
      overwriteAll Delivery.key (s.deliveriesByRecipient u) ds := by
  induction ds generalizing s with
  | nil => rfl
  | cons d ds ih =>
    rw [writeAll_cons, overwriteAll_cons, ih (hs.updateDelivery d),
      deliveriesByRecipient_updateDelivery hs (hpresent d (by simp)) (hfill d (by simp))]
    · intro d' hd'
      rw [(onlyRows_updateDelivery s d).present]
      exact hpresent d' (List.mem_cons_of_mem d hd')
    · exact fun d' hd' => hfill d' (List.mem_cons_of_mem d hd')

lemma Keyed.row_of_mem (hs : Keyed s) (hd : d ∈ s.deliveriesByRecipient u) :
    ∃ cur, s.row d.key = some cur ∧ cur.recipient = u ∧ d = s.fillSequence cur := by
  obtain ⟨k, cur, hcur, hu, rfl⟩ := mem_deliveriesByRecipient.1 hd
  refine ⟨cur, ?_, hu, rfl⟩
  rw [fillSequence_key, hs k cur hcur, hcur]

end InMemoryMessageStore

end MuduoChat
