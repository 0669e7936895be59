import Mathlib

/-!
# Ordered maps and their bulk updates

Lookups in a `Std.TreeMap` whose keys are compared lawfully, stated with equality of keys,
and the two bulk updates of a table: rewriting a selection of its entries and erasing a
selection of its keys.  The first section gives the lawful comparisons of keys that are
records of one or two components.
-/

namespace MuduoChat

open Std

/-! ### Comparison of records by their components -/

section Compare

variable {α β γ : Type} [Ord β] [Ord γ]

lemma lawfulEqCmp_compareOn [LawfulEqOrd β] {f : α → β} (hf : Function.Injective f) :
    LawfulEqCmp (compareOn f) where
  compare_self := ReflOrd.compare_self (α := β)
  eq_of_compare h := hf (LawfulEqOrd.eq_of_compare h)

/-- Lexicographic comparison of two projections that together determine the record is
lawful. -/
lemma lawfulEqCmp_compareLex [LawfulEqOrd β] [LawfulEqOrd γ] {f : α → β} {g : α → γ}
    (h : ∀ a b, f a = f b → g a = g b → a = b) :
    LawfulEqCmp (compareLex (compareOn f) (compareOn g)) where
  compare_self {a} := by
    simp [compareLex, compareOn]
  eq_of_compare {a b} hab := by
    have hab : compareOn f a b = .eq ∧ compareOn g a b = .eq := by
      simpa [compareLex, Ordering.then_eq_eq] using hab
    exact h a b (LawfulEqOrd.eq_of_compare hab.1) (LawfulEqOrd.eq_of_compare hab.2)

end Compare

/-- A pair that is compared lexicographically. -/
@[ext] structure LexPair (α β : Type) where
  first : α
  second : β
  deriving DecidableEq, Repr

section LexPair

variable {α β : Type} [Ord α] [Ord β]

instance : Ord (LexPair α β) := ⟨compareLex (compareOn LexPair.first) (compareOn LexPair.second)⟩

instance [TransOrd α] [TransOrd β] : TransOrd (LexPair α β) :=
  inferInstanceAs (TransCmp (compareLex (compareOn LexPair.first) (compareOn LexPair.second)))

instance [LawfulEqOrd α] [LawfulEqOrd β] : LawfulEqOrd (LexPair α β) :=
  lawfulEqCmp_compareLex fun _ _ h₁ h₂ => LexPair.ext h₁ h₂

end LexPair

namespace OrderedMap

variable {K V : Type} [Ord K] [TransOrd K] [LawfulEqOrd K]

/-! ### Lookups -/

lemma getElem?_insert_self (m : TreeMap K V) (k : K) (v : V) : (m.insert k v)[k]? = some v := by
  simp

variable {m : TreeMap K V}

lemma mem_toList {k : K} {v : V} : (k, v) ∈ m.toList ↔ m[k]? = some v :=
  TreeMap.mem_toList_iff_getElem?_eq_some

lemma nodup_keys_toList (m : TreeMap K V) : (m.toList.map Prod.fst).Nodup := by
  have h := TreeMap.distinct_keys_toList (t := m)
  rw [List.Nodup, List.pairwise_map]
  exact h.imp fun hne heq => hne (by simp [heq])

variable {l : List (K × V)}

/-- Two lists of entries that are sorted by their keys and have the same entries are equal. -/
lemma eq_of_sorted_of_mem {l' : List (K × V)}
    (hl : l.Pairwise fun a b => compare a.1 b.1 = .lt)
    (hl' : l'.Pairwise fun a b => compare a.1 b.1 = .lt) (hmem : ∀ e, e ∈ l ↔ e ∈ l') :
    l = l' := by
  have hirrefl (e : K × V) : compare e.1 e.1 ≠ .lt := by simp
  have hnodup {l : List (K × V)} (h : l.Pairwise fun a b => compare a.1 b.1 = .lt) :
      l.Nodup := by
    refine List.Pairwise.imp ?_ h
    rintro a b hlt rfl
    exact hirrefl a hlt
  have hperm : l.Perm l' := (List.perm_ext_iff_of_nodup (hnodup hl) (hnodup hl')).2 hmem
  refine hperm.eq_of_pairwise (fun a b _ _ hab hba => ?_) hl hl'
  have hgt := OrientedCmp.gt_of_lt hab
  rw [hgt] at hba
  cases hba

/-- Maps with the same lookups have the same entries in the same order. -/
lemma toList_congr {m' : TreeMap K V} (h : ∀ k : K, m[k]? = m'[k]?) : m.toList = m'.toList := by
  refine eq_of_sorted_of_mem TreeMap.ordered_keys_toList TreeMap.ordered_keys_toList ?_
  rintro ⟨k, v⟩
  rw [mem_toList, mem_toList, h]

/-- A selection of the entries of a table: what a bounded scan picks. -/
def select (m : TreeMap K V) (p : V → Bool) (limit : Nat) : List (K × V) :=
  (m.toList.filter fun e => p e.2).take limit

variable {p : V → Bool}

lemma mem_select {limit : Nat} {k : K} {v : V}
    (h : (k, v) ∈ select m p limit) : m[k]? = some v ∧ p v = true := by
  have h := List.mem_of_mem_take h
  rw [List.mem_filter] at h
  exact ⟨mem_toList.1 h.1, h.2⟩

lemma nodup_keys_select (m : TreeMap K V) (p : V → Bool) (limit : Nat) :
    ((select m p limit).map Prod.fst).Nodup :=
  (nodup_keys_toList m).sublist
    (((List.take_sublist _ _).trans List.filter_sublist).map Prod.fst)

/-- An entry that qualifies is selected, unless the selection is full with smaller keys. -/
lemma mem_select_or_full (limit : Nat) {k : K} {v : V}
    (hk : m[k]? = some v) (hp : p v = true) :
    (k, v) ∈ select m p limit ∨
      (select m p limit).length = limit ∧ ∀ e ∈ select m p limit, compare e.1 k = .lt := by
  have hmem : (k, v) ∈ m.toList.filter fun e => p e.2 := List.mem_filter.2 ⟨mem_toList.2 hk, hp⟩
  have hsorted := (TreeMap.ordered_keys_toList (t := m)).sublist
    (List.filter_sublist (p := fun e => p e.2))
  rw [← List.take_append_drop limit (m.toList.filter fun e => p e.2)] at hmem hsorted
  rcases List.mem_append.1 hmem with h | h
  · exact .inl h
  · -- there is something behind the selection, so it has all the entries it may have
    have hlong : limit < (m.toList.filter fun e => p e.2).length := by
      have := List.length_pos_of_mem h
      rw [List.length_drop] at this
      omega
    refine .inr ⟨?_, fun e he => (List.pairwise_append.1 hsorted).2.2 e he _ h⟩
    rw [select, List.length_take]
    omega

lemma mem_select_iff {limit : Nat}
    (hlimit : (m.toList.filter fun e => p e.2).length ≤ limit) {k : K} {v : V} :
    (k, v) ∈ select m p limit ↔ m[k]? = some v ∧ p v = true := by
  rw [select, List.take_of_length_le hlimit, List.mem_filter, mem_toList]

lemma mem_keys_select_iff {limit : Nat}
    (hlimit : (m.toList.filter fun e => p e.2).length ≤ limit) {k : K} :
    k ∈ (select m p limit).map Prod.fst ↔ ∃ v, m[k]? = some v ∧ p v = true := by
  rw [List.mem_map]
  constructor
  · rintro ⟨⟨k, v⟩, hmem, rfl⟩
    exact ⟨v, mem_select hmem⟩
  · rintro ⟨v, hv⟩
    exact ⟨(k, v), (mem_select_iff hlimit).2 hv, rfl⟩

variable [DecidableEq K]

lemma getElem?_insert (m : TreeMap K V) (k a : K) (v : V) :
    (m.insert k v)[a]? = if k = a then some v else m[a]? := by
  simp [TreeMap.getElem?_insert]

lemma getElem?_insert_of_ne (m : TreeMap K V) {k a : K} (v : V) (h : k ≠ a) :
    (m.insert k v)[a]? = m[a]? := by
  simp [getElem?_insert, h]

/-- A value that is written under a key of the map takes the place of the one before. -/
lemma toList_insert_of_isSome {k : K} (hk : m[k]?.isSome) (v : V) :
    (m.insert k v).toList = m.toList.map fun e => if e.1 = k then (k, v) else e := by
  refine eq_of_sorted_of_mem TreeMap.ordered_keys_toList ?_ ?_
  · -- the keys are the ones before
    have hkeys : ((m.toList.map fun e => if e.1 = k then (k, v) else e).map Prod.fst) =
        m.toList.map Prod.fst := by
      rw [List.map_map]
      refine List.map_congr_left fun e _ => ?_
      by_cases he : e.1 = k <;> simp [he]
    have hsorted := TreeMap.ordered_keys_toList (t := m)
    rw [← List.pairwise_map (f := Prod.fst) (R := fun a b => compare a b = .lt)] at hsorted ⊢
    rwa [hkeys]
  · rintro ⟨a, x⟩
    rw [mem_toList, getElem?_insert, List.mem_map]
    obtain ⟨old, hold⟩ := Option.isSome_iff_exists.1 hk
    constructor
    · intro h
      split_ifs at h with ha
      · cases h
        exact ⟨(k, old), mem_toList.2 hold, by simp [ha]⟩
      · exact ⟨(a, x), mem_toList.2 h, by simp [Ne.symm ha]⟩
    · rintro ⟨⟨b, y⟩, hb, heq⟩
      by_cases hbk : b = k
      · simp only [hbk, if_true, Prod.mk.injEq] at heq
        rw [if_pos heq.1, heq.2]
      · simp only [hbk, if_false, Prod.mk.injEq] at heq
        obtain ⟨rfl, rfl⟩ := heq
        rw [if_neg (Ne.symm hbk)]
        exact mem_toList.1 hb

lemma getElem?_erase (m : TreeMap K V) (k a : K) :
    (m.erase k)[a]? = if k = a then none else m[a]? := by
  simp [TreeMap.getElem?_erase]

/-- A key that is present keeps its value when it is inserted again with `insertIfNew`. -/
lemma getElem?_insertIfNew (m : TreeMap K V) (k a : K) (v : V) :
    (m.insertIfNew k v)[a]? = if k = a ∧ m[k]? = none then some v else m[a]? := by
  rw [TreeMap.getElem?_insertIfNew]
  by_cases h : k = a
  · subst h
    by_cases hk : k ∈ m <;> simp [hk]
  · simp [h]

/-- What a map that is made of a list contains, is in the list. -/
lemma mem_of_getElem?_ofList {k : K} {v : V}
    (h : (TreeMap.ofList l)[k]? = some v) : (k, v) ∈ l := by
  have hinsert : ∀ (l : List (K × V)) (m : TreeMap K V), (m.insertMany l)[k]? = some v →
      (k, v) ∈ l ∨ m[k]? = some v := by
    intro l
    induction l with
    | nil => exact fun m h => .inr (by simpa using h)
    | cons a l ih =>
      intro m h
      rw [TreeMap.insertMany_cons] at h
      rcases ih _ h with hmem | hins
      · exact .inl (List.mem_cons_of_mem _ hmem)
      · rw [getElem?_insert] at hins
        split_ifs at hins with hk
        · cases hins
          exact .inl (by simp [← hk])
        · exact .inr hins
  rw [TreeMap.ofList_eq_insertMany_empty] at h
  exact (hinsert l ∅ h).resolve_right (by simp)

/-! ### Bulk updates -/

/-- Rewrite the entries of a list by `f`. -/
def rewriteAll (f : V → V) (m : TreeMap K V) (l : List (K × V)) : TreeMap K V :=
  l.foldl (fun m p => m.insert p.1 (f p.2)) m

def eraseAll (m : TreeMap K V) (l : List K) : TreeMap K V :=
  l.foldl (fun m k => m.erase k) m

lemma getElem?_eraseAll (m : TreeMap K V) (l : List K) (a : K) :
    (eraseAll m l)[a]? = if a ∈ l then none else m[a]? := by
  induction l generalizing m with
  | nil => simp [eraseAll]
  | cons k l ih =>
    have hstep : eraseAll m (k :: l) = eraseAll (m.erase k) l := rfl
    rw [hstep, ih, getElem?_erase]
    by_cases hk : k = a
    · simp [hk]
    · simp [hk, Ne.symm hk]

lemma getElem?_rewriteAll_of_notMem (f : V → V) (m : TreeMap K V) {a : K}
    (h : ∀ v, (a, v) ∉ l) : (rewriteAll f m l)[a]? = m[a]? := by
  induction l generalizing m with
  | nil => rfl
  | cons p l ih =>
    have hstep : rewriteAll f m (p :: l) = rewriteAll f (m.insert p.1 (f p.2)) l := rfl
    have hp : p.1 ≠ a := by
      rintro rfl
      exact h p.2 (by simp)
    rw [hstep, ih _ fun v hv => h v (List.mem_cons_of_mem p hv),
      getElem?_insert_of_ne _ _ hp]

/-- An entry that is selected once is rewritten. -/
lemma getElem?_rewriteAll_of_mem (f : V → V) (m : TreeMap K V) {a : K} {v : V}
    (hl : (l.map Prod.fst).Nodup) (h : (a, v) ∈ l) : (rewriteAll f m l)[a]? = some (f v) := by
  induction l generalizing m with
  | nil => simp at h
  | cons p l ih =>
    have hstep : rewriteAll f m (p :: l) = rewriteAll f (m.insert p.1 (f p.2)) l := rfl
    obtain ⟨hp, hl⟩ := List.nodup_cons.1 hl
    rw [hstep]
    rcases List.mem_cons.1 h with rfl | h
    · have hrest : ∀ v', (a, v') ∉ l := fun v' hv' =>
        hp (List.mem_map.2 ⟨(a, v'), hv', rfl⟩)
      rw [getElem?_rewriteAll_of_notMem f _ hrest, getElem?_insert_self]
    · exact ih _ hl h

/-- A rewritten table has under each key what was there, or a rewritten entry of the list. -/
lemma getElem?_rewriteAll_cases (f : V → V) (m : TreeMap K V) (l : List (K × V)) (a : K) :
    (rewriteAll f m l)[a]? = m[a]? ∨
      ∃ v, (a, v) ∈ l ∧ (rewriteAll f m l)[a]? = some (f v) := by
  induction l generalizing m with
  | nil => exact .inl rfl
  | cons p l ih =>
    have hstep : rewriteAll f m (p :: l) = rewriteAll f (m.insert p.1 (f p.2)) l := rfl
    rw [hstep]
    rcases ih (m.insert p.1 (f p.2)) with h | ⟨v, hv, h⟩
    · by_cases hp : p.1 = a
      · subst hp
        exact .inr ⟨p.2, by simp, by rw [h, getElem?_insert_self]⟩
      · exact .inl (by rw [h, getElem?_insert_of_ne _ _ hp])
    · exact .inr ⟨v, List.mem_cons_of_mem p hv, h⟩

/-- What rewriting a selection does to one key. -/
lemma getElem?_rewriteAll_select (f : V → V) (m : TreeMap K V) (p : V → Bool) (limit : Nat)
    (a : K) :
    (rewriteAll f m (select m p limit))[a]? = m[a]? ∨
      ∃ v, m[a]? = some v ∧ p v = true ∧
        (rewriteAll f m (select m p limit))[a]? = some (f v) := by
  by_cases h : ∃ v, (a, v) ∈ select m p limit
  · obtain ⟨v, hv⟩ := h
    obtain ⟨ha, hp⟩ := mem_select hv
    exact .inr ⟨v, ha, hp, getElem?_rewriteAll_of_mem f m (nodup_keys_select m p limit) hv⟩
  · exact .inl (getElem?_rewriteAll_of_notMem f m fun v hv => h ⟨v, hv⟩)

lemma getElem?_eraseAll_select (m : TreeMap K V) (p : V → Bool) (limit : Nat) (a : K) :
    (eraseAll m ((select m p limit).map Prod.fst))[a]? = m[a]? ∨
      ∃ v, m[a]? = some v ∧ p v = true ∧
        (eraseAll m ((select m p limit).map Prod.fst))[a]? = none := by
  rw [getElem?_eraseAll]
  by_cases h : a ∈ (select m p limit).map Prod.fst
  · obtain ⟨⟨k, v⟩, hv, rfl⟩ := List.mem_map.1 h
    obtain ⟨ha, hp⟩ := mem_select hv
    exact .inr ⟨v, ha, hp, by simp only [h, if_true]⟩
  · exact .inl (by simp only [h, if_false])

/-- Rewriting all the entries with a property. -/
lemma getElem?_rewriteAll_where (f : V → V) {p : K → V → Bool}
    (hnodup : (l.map Prod.fst).Nodup)
    (hl : ∀ k v, (k, v) ∈ l ↔ m[k]? = some v ∧ p k v = true) (a : K) :
    (rewriteAll f m l)[a]? = m[a]?.map fun v => if p a v then f v else v := by
  cases ha : m[a]? with
  | none =>
    rw [getElem?_rewriteAll_of_notMem f m fun v hv => by simp [(hl a v).1 hv] at ha, ha]
    rfl
  | some v =>
    by_cases hp : p a v = true
    · rw [getElem?_rewriteAll_of_mem f m hnodup ((hl a v).2 ⟨ha, hp⟩)]
      simp [hp]
    · have hnot : ∀ v', (a, v') ∉ l := by
        intro v' hv'
        obtain ⟨hv', hp'⟩ := (hl a v').1 hv'
        obtain rfl := Option.some.inj (ha.symm.trans hv')
        exact hp hp'
      rw [getElem?_rewriteAll_of_notMem f m hnot, ha]
      simp [hp]

lemma getElem?_eraseAll_where {p : K → V → Bool} {l : List K}
    (hl : ∀ k, k ∈ l ↔ ∃ v, m[k]? = some v ∧ p k v = true) (a : K) :
    (eraseAll m l)[a]? = m[a]?.filter fun v => !p a v := by
  rw [getElem?_eraseAll]
  cases ha : m[a]? with
  | none => simp
  | some v =>
    have hmem : a ∈ l ↔ p a v = true := by
      rw [hl]
      simp [ha]
    by_cases hp : p a v = true
    · simp [hmem, hp, Option.filter]
    · simp [hmem, hp, Option.filter]

end OrderedMap

end MuduoChat
