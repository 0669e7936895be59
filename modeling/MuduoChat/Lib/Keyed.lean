import Mathlib

/-!
# Lists of records with a key

A table that is read as a list, in which every record has a key of its own.  Writing a record
puts it in the place of the one with its key (`overwrite`); several records are written one after
the other (`overwriteAll`).  The lemmas say what this does to a selection from the list.
-/

namespace MuduoChat

namespace KeyedList

variable {α κ : Type} [DecidableEq κ]

/-- Put a record in the place of the one with its key. -/
def overwrite (key : α → κ) (l : List α) (d : α) : List α :=
  l.map fun r => if key r = key d then d else r

/-- Write several records, one after the other. -/
def overwriteAll (key : α → κ) (l ds : List α) : List α := ds.foldl (overwrite key) l

section Keyed

variable {key : α → κ} {l ds : List α} {d r : α} {q : α → Bool}

@[simp] lemma overwriteAll_nil : overwriteAll key l [] = l := rfl

@[simp] lemma overwriteAll_cons :
    overwriteAll key l (d :: ds) = overwriteAll key (overwrite key l d) ds := rfl

lemma overwriteAll_append (ds' : List α) :
    overwriteAll key l (ds ++ ds') = overwriteAll key (overwriteAll key l ds) ds' :=
  List.foldl_append

lemma mem_overwrite (h : r ∈ overwrite key l d) : r = d ∨ r ∈ l := by
  obtain ⟨r', hr', rfl⟩ := List.mem_map.1 h
  by_cases hk : key r' = key d
  · exact .inl (if_pos hk)
  · exact .inr (by simpa [hk] using hr')

lemma map_key_overwrite : (overwrite key l d).map key = l.map key := by
  rw [overwrite, List.map_map]
  refine List.map_congr_left fun r _ => ?_
  by_cases hk : key r = key d
  · simp [hk]
  · simp [hk]

lemma map_key_overwriteAll : (overwriteAll key l ds).map key = l.map key := by
  induction ds generalizing l with
  | nil => rfl
  | cons d ds ih => rw [overwriteAll_cons, ih, map_key_overwrite]

lemma overwrite_of_notMem (h : key d ∉ l.map key) : overwrite key l d = l := by
  refine (List.map_congr_left fun r hr => ?_).trans (List.map_id l)
  have hne : key r ≠ key d := fun hk => h (hk ▸ List.mem_map_of_mem hr)
  exact if_neg hne

lemma overwriteAll_of_notMem (h : ∀ d ∈ ds, key d ∉ l.map key) : overwriteAll key l ds = l := by
  induction ds with
  | nil => rfl
  | cons d ds ih =>
    rw [overwriteAll_cons, overwrite_of_notMem (h d (by simp))]
    exact ih fun d' hd' => h d' (List.mem_cons_of_mem d hd')

/-- Writing a record at the place of the one with its key. -/
lemma set_eq_overwrite {n : ℕ} (hl : (l.map key).Nodup) (hn : l[n]? = some r)
    (hd : key d = key r) : l.set n d = overwrite key l d := by
  induction l generalizing n with
  | nil => simp at hn
  | cons a l ih =>
    obtain ⟨ha, hl⟩ := List.nodup_cons.1 hl
    cases n with
    | zero =>
      obtain rfl : a = r := by simpa using hn
      have hrest : overwrite key l d = l := overwrite_of_notMem (hd ▸ ha)
      have hcons : overwrite key (a :: l) d = d :: overwrite key l d := by
        simp [overwrite, hd]
      rw [List.set_cons_zero, hcons, hrest]
    | succ n =>
      have hn' : l[n]? = some r := by simpa using hn
      have hne : key a ≠ key d := by
        intro h
        exact ha (h.trans hd ▸ List.mem_map_of_mem (List.mem_of_getElem? hn'))
      have hcons : overwrite key (a :: l) d = a :: overwrite key l d := by
        simp [overwrite, hne]
      rw [List.set_cons_succ, hcons, ih hl hn']

/-- If the record that is replaced was selected, it is enough to write to the selection. -/
lemma filter_overwrite (h : ∀ r ∈ l, key r = key d → q r = true) :
    (overwrite key l d).filter q = (overwrite key (l.filter q) d).filter q := by
  induction l with
  | nil => rfl
  | cons a l ih =>
    have hrest := ih fun r hr => h r (List.mem_cons_of_mem a hr)
    have ha := h a (by simp)
    by_cases hq : q a = true
    · simp only [overwrite, List.map_cons, List.filter_cons, hq, if_true] at hrest ⊢
      rw [hrest]
    · have hk : key a ≠ key d := fun hk => hq (ha hk)
      simp only [overwrite, List.map_cons, List.filter_cons, hq, hk, if_false] at hrest ⊢
      exact hrest

/-- If neither the record that is replaced nor the new one is selected, the selection stays. -/
lemma filter_overwrite_of_not (h : ∀ r ∈ l, key r = key d → q r = false) (hd : q d = false) :
    (overwrite key l d).filter q = l.filter q := by
  induction l with
  | nil => rfl
  | cons a l ih =>
    have hrest := ih fun r hr => h r (List.mem_cons_of_mem a hr)
    have ha := h a (by simp)
    by_cases hk : key a = key d
    · simp only [overwrite, List.map_cons, List.filter_cons, hk, if_true, hd, ha hk] at hrest ⊢
      exact hrest
    · simp only [overwrite, List.map_cons, List.filter_cons, hk, if_false] at hrest ⊢
      rw [hrest]

end Keyed

end KeyedList

end MuduoChat
