import MuduoChat.Lib.Machine

/-!
# The timer queue

Timers wait in a set that is ordered by deadline and sequence number.  When the kernel timer fires,
`handleRead` removes the entries whose deadline has come, puts the repeating timers among them back
with a later deadline, and then runs the callbacks one by one.  A callback may itself add and cancel
timers.  Everything is done by one thread, so a history is a list of labels: what a callback does
stands between the label that starts it and the next one.

Times and periods are integers, in nanoseconds.
-/

namespace MuduoChat

/-- A timer.  The source does not keep the first deadline. -/
structure Timer where
  first : ℤ
  expiration : ℤ
  intervalMs : ℤ
  cancelled : Bool := false
  deriving DecidableEq

namespace Timer

def milliseconds (n : ℤ) : ℤ := n * 1000000

def repeats (t : Timer) : Bool := t.intervalMs > 0

def interval (t : Timer) : ℤ := milliseconds t.intervalMs

def restart (t : Timer) (now : ℤ) : Timer :=
  if t.repeats then
    let expiration := t.expiration + t.interval
    if expiration ≤ now then
      { t with
        expiration := expiration + ((now - expiration).tdiv t.interval + 1) * t.interval }
    else { t with expiration }
  else { t with expiration := 0 }

end Timer

/-- An entry of the set: a deadline and a sequence number, which stands for the timer as well. -/
abbrev TimerEntry := ℤ ×ₗ ℕ

namespace TimerEntry

def deadline (e : TimerEntry) : ℤ := (ofLex e).1

def sequence (e : TimerEntry) : ℕ := (ofLex e).2

def of (t : Timer) (sequence : ℕ) : TimerEntry := toLex (t.expiration, sequence)

end TimerEntry

/-- What is recorded of a history: callbacks that have been started, with the time, and timers that
have been cancelled. -/
inductive TimerRecord where
  | ran (e : TimerEntry) (time : ℤ)
  | cancelled (i : ℕ)
  deriving DecidableEq

/-- Whether a record is of a callback of a timer. -/
def TimerRecord.runs (i : ℕ) : TimerRecord → Bool
  | .ran e _ => e.sequence = i
  | .cancelled _ => false

/-- A call of `handleRead` in progress: its time, the entries whose callbacks it has run, and the
expired entries that are left. -/
structure TimerRead where
  now : ℤ
  ran : List TimerEntry
  due : List TimerEntry
  deriving DecidableEq

/-- The queue, with the timers that have been made, by sequence number, the clock, the time for
which the kernel timer is armed, and the record. -/
structure TimerQueue where
  clock : ℤ
  timers : Finset TimerEntry := ∅
  made : ℕ → Option Timer := fun _ => none
  nextSequence : ℕ := 0
  armed : Option ℤ := none
  reading : Option TimerRead := none
  record : List TimerRecord := []

namespace TimerQueue

open TimerEntry

/-- Arm the kernel timer, relative to the present time, for the first entry. -/
def resetTimerfd (q : TimerQueue) (now : ℤ) : TimerQueue :=
  { q with
    armed := (q.timers.sort (· ≤ ·)).head?.map fun e =>
      q.clock + (if e.deadline - now < 1 then 1 else e.deadline - now) }

/-- Add a timer.  The sequence number is new, so the entry is inserted. -/
def addTimer (q : TimerQueue) (delayMs intervalMs : ℤ) : TimerQueue :=
  let deadline := q.clock + Timer.milliseconds delayMs
  let timer : Timer := { first := deadline, expiration := deadline, intervalMs }
  resetTimerfd
    { q with
      made := Function.update q.made q.nextSequence (some timer)
      nextSequence := q.nextSequence + 1
      timers := insert (of timer q.nextSequence) q.timers }
    q.clock

def cancel (q : TimerQueue) (i : ℕ) : TimerQueue :=
  match q.made i with
  | none => q
  | some t =>
      { q with
        made := Function.update q.made i (some { t with cancelled := true })
        timers := q.timers.erase (of t i)
        record := .cancelled i :: q.record }

/-- Put a repeating timer back, at the time at which the clock is read for it. -/
def rearm (lap : ℕ → ℕ) (q : TimerQueue) (e : TimerEntry) : TimerQueue :=
  match q.made e.sequence with
  | none => q
  | some t =>
      if t.repeats && !t.cancelled then
        let t' := t.restart (q.clock + lap e.sequence)
        { q with
          clock := q.clock + lap e.sequence
          made := Function.update q.made e.sequence (some t')
          timers := insert (of t' e.sequence) q.timers }
      else q

/-- `handleRead` up to the first callback: take out the entries up to now, and put the repeating
timers back. -/
def getExpired (q : TimerQueue) (lap : ℕ → ℕ) : TimerQueue :=
  let due := (q.timers.filter fun e => e.deadline ≤ q.clock).sort (· ≤ ·)
  due.foldl (rearm lap)
    { q with
      timers := q.timers.filter fun e => ¬e.deadline ≤ q.clock
      reading := some ⟨q.clock, [], due⟩ }

/-- Start the next callback, unless its timer has been cancelled. -/
def runNext (q : TimerQueue) (r : TimerRead) (e : TimerEntry) (due : List TimerEntry) :
    TimerQueue :=
  if (q.made e.sequence).any Timer.cancelled then { q with reading := some { r with due } }
  else
    { q with
      reading := some { r with ran := r.ran ++ [e], due }
      record := .ran e q.clock :: q.record }

/-- The labels of a history: time passes, a timer is added or cancelled, and the steps of
`handleRead`. -/
inductive Label where
  | tick (duration : ℕ)
  | addTimer (delayMs intervalMs : ℤ)
  | cancel (i : ℕ)
  | getExpired (lap : ℕ → ℕ)
  | run
  | done

def next (q : TimerQueue) : Label → Option TimerQueue
  | .tick duration => some { q with clock := q.clock + duration }
  | .addTimer delayMs intervalMs => some (q.addTimer delayMs intervalMs)
  | .cancel i => some (q.cancel i)
  | .getExpired lap => if q.reading.isNone then some (q.getExpired lap) else none
  | .run =>
      match q.reading with
      | some ⟨now, ran, e :: due⟩ => some (q.runNext ⟨now, ran, e :: due⟩ e due)
      | _ => none
  | .done =>
      match q.reading with
      | some ⟨now, _, []⟩ => some { q.resetTimerfd now with reading := none }
      | _ => none

def machine : Machine TimerQueue Label := ⟨next⟩

/-! ### Entries and timers belong together -/

/-- Between the timers, the set, and some entries that are still to be put back: an entry is the
one of its timer, which is not cancelled, and a repeating timer that is not cancelled has an
entry. -/
structure Home (made : ℕ → Option Timer) (timers : Finset TimerEntry) (rest : List TimerEntry) :
    Prop where
  made_of_mem : ∀ e, e ∈ timers ∨ e ∈ rest → ∃ t, made e.sequence = some t ∧
    e = of t e.sequence ∧ t.cancelled = false
  nodup : rest.Nodup
  disjoint : ∀ e ∈ rest, e ∉ timers
  mem : ∀ i t, made i = some t → t.repeats = true → t.cancelled = false →
    of t i ∈ timers ∨ of t i ∈ rest

section Home

variable {made : ℕ → Option Timer} {timers timers' : Finset TimerEntry}
  {rest rest' : List TimerEntry} {i : ℕ} {t t' : Timer} {e e' : TimerEntry}

lemma update_cases {j : ℕ} (h : Function.update made i (some t) j = some t') :
    (j = i ∧ t' = t) ∨ (j ≠ i ∧ made j = some t') := by
  by_cases hi : j = i
  · subst hi
    rw [Function.update_self] at h
    exact .inl ⟨rfl, (Option.some.inj h).symm⟩
  · rw [Function.update_of_ne hi] at h
    exact .inr ⟨hi, h⟩

lemma Home.eq (h : Home made timers rest) (he : e ∈ timers ∨ e ∈ rest)
    (he' : e' ∈ timers ∨ e' ∈ rest) (hsame : e'.sequence = e.sequence) : e' = e := by
  obtain ⟨t, ht, heq, -⟩ := h.made_of_mem e he
  obtain ⟨t', ht', heq', -⟩ := h.made_of_mem e' he'
  rw [hsame, ht] at ht'
  cases ht'
  rw [heq', heq, hsame]

lemma Home.update (h : Home made timers rest) (hnodup : rest'.Nodup)
    (hself : ∀ e, e.sequence = i → e ∉ rest' ∧ (e ∈ timers' ↔ t'.cancelled = false ∧ e = of t' i))
    (hother : ∀ e, e.sequence ≠ i → (e ∈ timers' ↔ e ∈ timers) ∧ (e ∈ rest' ↔ e ∈ rest)) :
    Home (Function.update made i (some t')) timers' rest' where
  made_of_mem e he := by
    by_cases hi : e.sequence = i
    · obtain ⟨hlive, heq⟩ := (hself e hi).2.1 (he.resolve_right (hself e hi).1)
      exact ⟨t', by rw [hi, Function.update_self], by rw [hi, heq], hlive⟩
    · rw [(hother e hi).1, (hother e hi).2] at he
      rw [Function.update_of_ne hi]
      exact h.made_of_mem e he
  nodup := hnodup
  disjoint e he := by
    have hi : e.sequence ≠ i := fun hi => (hself e hi).1 he
    rw [(hother e hi).1]
    exact h.disjoint e ((hother e hi).2.1 he)
  mem j tj hj hrep hlive := by
    rcases update_cases hj with ⟨rfl, rfl⟩ | ⟨hi, hj⟩
    · exact .inl ((hself (of tj j) rfl).2.2 ⟨hlive, rfl⟩)
    · rw [(hother (of tj j) hi).1, (hother (of tj j) hi).2]
      exact h.mem j tj hj hrep hlive

lemma Home.add (h : Home made timers []) (hi : made i = none) (ht : t.cancelled = false) :
    Home (Function.update made i (some t)) (insert (of t i) timers) [] := by
  have hnew : ∀ e ∈ timers, e.sequence ≠ i := by
    rintro e he rfl
    obtain ⟨t, ht, -⟩ := h.made_of_mem e (.inl he)
    rw [ht] at hi
    cases hi
  refine h.update List.nodup_nil (fun e he => ⟨List.not_mem_nil, ?_⟩) fun e he => ⟨?_, Iff.rfl⟩
  · rw [Finset.mem_insert, or_iff_left fun hmem => hnew e hmem he, and_iff_right ht]
  · exact Finset.mem_insert.trans (or_iff_right fun heq => he (heq ▸ rfl))

lemma Home.cancel (h : Home made timers []) (hi : made i = some t) :
    Home (Function.update made i (some { t with cancelled := true })) (timers.erase (of t i)) [] := by
  refine h.update List.nodup_nil (fun e he => ⟨List.not_mem_nil, ?_⟩) fun e he => ⟨?_, Iff.rfl⟩
  · refine iff_of_false (fun hmem => ?_) (by simp)
    obtain ⟨hne, hmem⟩ := Finset.mem_erase.1 hmem
    obtain ⟨t', ht', heq, -⟩ := h.made_of_mem e (.inl hmem)
    rw [he, hi] at ht'
    cases ht'
    exact hne (he ▸ heq)
  · exact Finset.mem_erase.trans (and_iff_right fun heq => he (heq ▸ rfl))

lemma Home.restart (h : Home made timers (e :: rest)) (ht : t.cancelled = false) :
    Home (Function.update made e.sequence (some t)) (insert (of t e.sequence) timers) rest := by
  obtain ⟨hnotin, hnodup⟩ := List.nodup_cons.1 h.nodup
  have hnew : ∀ e' ∈ timers, e'.sequence ≠ e.sequence := fun e' he' hsame =>
    h.disjoint e List.mem_cons_self (h.eq (.inr List.mem_cons_self) (.inl he') hsame ▸ he')
  refine h.update hnodup (fun e' he' => ⟨fun hmem => ?_, ?_⟩) fun e' he' => ⟨?_, ?_⟩
  · exact hnotin (h.eq (.inr List.mem_cons_self) (.inr (List.mem_cons_of_mem _ hmem)) he' ▸ hmem)
  · rw [Finset.mem_insert, or_iff_left fun hmem => hnew e' hmem he', and_iff_right ht]
  · exact Finset.mem_insert.trans (or_iff_right fun heq => he' (heq ▸ rfl))
  · exact (List.mem_cons.trans (or_iff_right fun heq => he' (congrArg sequence heq))).symm

lemma Home.drop (h : Home made timers (e :: rest))
    (hno : ∀ t, made e.sequence = some t → ¬(t.repeats = true ∧ t.cancelled = false)) :
    Home made timers rest where
  made_of_mem e' he' := h.made_of_mem e' (he'.imp_right (List.mem_cons_of_mem _))
  nodup := (List.nodup_cons.1 h.nodup).2
  disjoint e' he' := h.disjoint e' (List.mem_cons_of_mem _ he')
  mem i t hi hrep hlive := by
    refine (h.mem i t hi hrep hlive).imp_right fun hmem => ?_
    refine (List.mem_cons.1 hmem).resolve_left fun heq => ?_
    subst heq
    exact hno t hi ⟨hrep, hlive⟩

lemma Home.split (h : Home made timers []) (p : TimerEntry → Prop) [DecidablePred p] :
    Home made (timers.filter fun e => ¬p e) ((timers.filter p).sort (· ≤ ·)) where
  made_of_mem e he := by
    rw [Finset.mem_filter, Finset.mem_sort, Finset.mem_filter] at he
    exact h.made_of_mem e (.inl (he.elim And.left And.left))
  nodup := Finset.sort_nodup _ _
  disjoint e he hmem := by
    rw [Finset.mem_sort, Finset.mem_filter] at he
    exact (Finset.mem_filter.1 hmem).2 he.2
  mem i t hi hrep hlive := by
    have hmem := (h.mem i t hi hrep hlive).resolve_right List.not_mem_nil
    rw [Finset.mem_filter, Finset.mem_sort, Finset.mem_filter]
    by_cases hp : p (of t i)
    · exact .inr ⟨hmem, hp⟩
    · exact .inl ⟨hmem, hp⟩

end Home

/-! ### Deadlines and runs -/

section Restart

variable {t : Timer}

lemma interval_pos (h : 1 ≤ t.intervalMs) : 0 < t.interval := by
  unfold Timer.interval Timer.milliseconds
  omega

lemma restart_expiration (h : t.repeats = true) (now : ℤ) :
    ∃ k : ℕ, (t.restart now).expiration = t.expiration + k * t.interval := by
  have hpos := interval_pos (of_decide_eq_true h)
  simp only [Timer.restart, if_pos h]
  split
  · rename_i hle
    have hskips : 0 ≤ (now - (t.expiration + t.interval)).tdiv t.interval :=
      Int.tdiv_nonneg (by omega) hpos.le
    refine ⟨((now - (t.expiration + t.interval)).tdiv t.interval + 2).toNat, ?_⟩
    rw [Int.toNat_of_nonneg (by omega)]
    ring
  · exact ⟨1, by ring⟩

lemma restart_fields (h : t.repeats = true) (now : ℤ) :
    (t.restart now).first = t.first ∧ (t.restart now).intervalMs = t.intervalMs ∧
      (t.restart now).cancelled = t.cancelled := by
  simp only [Timer.restart, if_pos h]
  split <;> exact ⟨rfl, rfl, rfl⟩

/-- **The next slot.**  A repeating timer is set to the first time of its schedule, after the
deadline it had, that lies in the future. -/
theorem restart_next_slot (t : Timer) (now : ℤ) (hinterval : 1 ≤ t.intervalMs) :
    IsLeast {e | (∃ k : ℤ, 1 ≤ k ∧ e = t.expiration + k * t.interval) ∧ now < e}
      (t.restart now).expiration := by
  have hpos := interval_pos hinterval
  simp only [Timer.restart, if_pos (show t.repeats = true from decide_eq_true hinterval)]
  split
  · rename_i hle
    set delta := now - (t.expiration + t.interval) with hdelta
    have hskips : 0 ≤ delta.tdiv t.interval := Int.tdiv_nonneg (by omega) hpos.le
    rw [Int.tdiv_eq_ediv_of_nonneg (by omega)] at hskips ⊢
    have hlow := Int.ediv_mul_le delta hpos.ne'
    have hhigh := Int.lt_ediv_add_one_mul_self delta hpos
    refine ⟨⟨⟨delta / t.interval + 2, by omega, by ring⟩, by linarith⟩, ?_⟩
    rintro _ ⟨⟨k, -, rfl⟩, hlate⟩
    -- a slot up to the one before the result is not later than now
    have hk : delta / t.interval + 1 < k := by
      by_contra! hk
      have hmul := mul_le_mul_of_nonneg_right hk hpos.le
      linarith
    have hmul := mul_le_mul_of_nonneg_right (show delta / t.interval + 2 ≤ k by omega) hpos.le
    linarith
  · rename_i hlate
    refine ⟨⟨⟨1, le_rfl, by ring⟩, not_le.1 hlate⟩, ?_⟩
    rintro _ ⟨⟨k, hk, rfl⟩, -⟩
    have hmul := mul_le_mul_of_nonneg_right hk hpos.le
    linarith

theorem restart_next_slot_skips :
    IsLeast {e | (∃ k : ℤ, 1 ≤ k ∧ e = 0 + k * 1000000) ∧ 3500000 < e} 4000000 :=
  restart_next_slot ⟨0, 0, 1, false⟩ 3500000 le_rfl

end Restart

/-- The expired entries whose callbacks have not been started. -/
def due (q : TimerQueue) : List TimerEntry := q.reading.elim [] TimerRead.due

/-- How often the callback of a timer has been started, or will be unless the timer is cancelled or
put back. -/
def total (q : TimerQueue) (i : ℕ) : ℕ :=
  q.record.countP (TimerRecord.runs i) + (q.due.countP (·.sequence = i) +
    (q.timers.filter (·.sequence = i)).card)

/-- **The invariant**, while some entries are still to be put back. -/
structure Sound (q : TimerQueue) (rest : List TimerEntry) : Prop where
  home : Home q.made q.timers rest
  fresh : ∀ i, q.nextSequence ≤ i → q.made i = none ∧ q.total i = 0
  phase : ∀ i t, q.made i = some t → t.repeats = true →
    ∃ k : ℕ, t.expiration = t.first + k * t.interval
  reading : ∀ r, q.reading = some r → r.now ≤ q.clock ∧ (r.ran ++ r.due).Pairwise (· < ·) ∧
    ∀ e ∈ r.due, e.deadline ≤ r.now
  punctual : ∀ e time, .ran e time ∈ q.record → e.deadline ≤ time
  once : ∀ i t, q.made i = some t → t.repeats = false → q.total i ≤ 1
  flagged : ∀ i, .cancelled i ∈ q.record → ∃ t, q.made i = some t ∧ t.cancelled = true
  silent : q.record.Pairwise fun newer older => ∀ i, newer.runs i = true → older ≠ .cancelled i

section Steps

variable {q : TimerQueue} {i n : ℕ} {t t' : Timer} {timers : Finset TimerEntry}
  {rest rest' : List TimerEntry} {e : TimerEntry}

lemma Sound.tick (h : q.Sound rest) {clock : ℤ} (hclock : q.clock ≤ clock) (armed : Option ℤ) :
    Sound { q with clock, armed } rest :=
  ⟨h.home, h.fresh, h.phase, fun r hr => ⟨(h.reading r hr).1.trans hclock, (h.reading r hr).2⟩,
    h.punctual, h.once, h.flagged, h.silent⟩

lemma Sound.update (h : q.Sound rest) {clock : ℤ} (hclock : q.clock ≤ clock) (hn : q.nextSequence ≤ n) (hi : i < n)
    (hhome : Home (Function.update q.made i (some t)) timers rest')
    (hphase : t.repeats = true → ∃ k : ℕ, t.expiration = t.first + k * t.interval)
    (hother : ∀ j, j ≠ i →
      (timers.filter (·.sequence = j)).card ≤ (q.timers.filter (·.sequence = j)).card)
    (honce : t.repeats = false → total { q with timers } i ≤ 1)
    (hflag : ∀ t', q.made i = some t' → t'.cancelled = true → t.cancelled = true) :
    Sound
      { q with
        clock
        made := Function.update q.made i (some t)
        nextSequence := n
        timers }
      rest' where
  home := hhome
  fresh j hj := by
    obtain ⟨hnone, hzero⟩ := h.fresh j (hn.trans hj)
    have hne : j ≠ i := (hi.trans_le hj).ne'
    refine ⟨(Function.update_of_ne hne _ _).trans hnone, ?_⟩
    have hle := hother j hne
    simp only [total, due] at hzero ⊢
    omega
  phase j tj hj := by
    rcases update_cases hj with ⟨rfl, rfl⟩ | ⟨-, hj⟩
    · exact hphase
    · exact h.phase j tj hj
  reading r hr := ⟨(h.reading r hr).1.trans hclock, (h.reading r hr).2⟩
  punctual := h.punctual
  once j tj hj hrep := by
    rcases update_cases hj with ⟨rfl, rfl⟩ | ⟨hne, hj⟩
    · exact honce hrep
    · have hle := hother j hne
      have hone := h.once j tj hj hrep
      simp only [total, due] at hone ⊢
      omega
  flagged j hj := by
    obtain ⟨tj, htj, hcancelled⟩ := h.flagged j hj
    by_cases hne : j = i
    · subst hne
      exact ⟨t, Function.update_self _ _ _, hflag tj htj hcancelled⟩
    · exact ⟨tj, (Function.update_of_ne hne _ _).trans htj, hcancelled⟩
  silent := h.silent

lemma Sound.cancelled (h : q.Sound rest) (hi : ∃ t, q.made i = some t ∧ t.cancelled = true) :
    Sound { q with record := .cancelled i :: q.record } rest where
  home := h.home
  fresh := h.fresh
  phase := h.phase
  reading := h.reading
  punctual e time he := h.punctual e time ((List.mem_cons.1 he).resolve_left nofun)
  once := h.once
  flagged j hj := by
    rcases List.mem_cons.1 hj with hj | hj
    · cases hj
      exact hi
    · exact h.flagged j hj
  silent := List.pairwise_cons.2 ⟨fun _ _ _ hruns => absurd hruns nofun, h.silent⟩

lemma card_insert_of_ne {j : ℕ} (hj : j ≠ i) :
    ((insert (of t i) timers).filter (·.sequence = j)).card ≤
      (timers.filter (·.sequence = j)).card := by
  have hne : ¬(of t i).sequence = j := hj.symm
  rw [Finset.filter_insert, if_neg hne]

lemma Sound.addTimer (h : q.Sound []) (delayMs intervalMs : ℤ) :
    Sound (q.addTimer delayMs intervalMs) [] := by
  obtain ⟨hnone, hzero⟩ := h.fresh q.nextSequence le_rfl
  refine Sound.tick (h.update le_rfl (Nat.le_succ _) (Nat.lt_succ_self _)
    (h.home.add hnone rfl) (fun _ => ⟨0, by simp⟩) (fun j => card_insert_of_ne) (fun _ => ?_)
    fun t' ht' => ?_) le_rfl _
  · simp only [total, due, Finset.filter_insert] at hzero ⊢
    have hcard := Finset.card_insert_le
      (of ⟨q.clock + Timer.milliseconds delayMs, q.clock + Timer.milliseconds delayMs, intervalMs,
        false⟩ q.nextSequence) (q.timers.filter (·.sequence = q.nextSequence))
    split <;> omega
  · rw [hnone] at ht'
    cases ht'

lemma Sound.cancel (h : q.Sound []) (i : ℕ) : Sound (q.cancel i) [] := by
  unfold TimerQueue.cancel
  split
  · exact h
  rename_i t ht
  have hlt : i < q.nextSequence := by
    by_contra hge
    rw [(h.fresh i (not_lt.1 hge)).1] at ht
    cases ht
  have hless : ∀ j, ((q.timers.erase (of t i)).filter (·.sequence = j)).card ≤
      (q.timers.filter (·.sequence = j)).card := fun j =>
    Finset.card_le_card (Finset.filter_subset_filter _ (Finset.erase_subset _ _))
  have hnext := h.update (t := { t with cancelled := true }) le_rfl le_rfl hlt (h.home.cancel ht)
    (h.phase i t ht) (fun j _ => hless j) (fun hrep => ?_) (fun _ _ _ => rfl)
  · have hflag : ∃ t', Function.update q.made i (some { t with cancelled := true }) i = some t' ∧
        t'.cancelled = true := ⟨_, Function.update_self _ _ _, rfl⟩
    exact hnext.cancelled hflag
  · have hone := h.once i t ht hrep
    have hle := hless i
    simp only [total, due] at hone ⊢
    omega

lemma Sound.rearm (h : q.Sound (e :: rest)) (lap : ℕ → ℕ) : Sound (q.rearm lap e) rest := by
  obtain ⟨t, ht, -, hlive⟩ := h.home.made_of_mem e (.inr List.mem_cons_self)
  simp only [TimerQueue.rearm, ht]
  split
  · rename_i hrep
    have hrep : t.repeats = true := (Bool.and_eq_true _ _ ▸ hrep).1
    obtain ⟨hfirst, hinterval, hcancelled⟩ := restart_fields hrep (q.clock + lap e.sequence)
    have hlt : e.sequence < q.nextSequence := by
      by_contra hge
      rw [(h.fresh _ (not_lt.1 hge)).1] at ht
      cases ht
    refine h.update (by simp) le_rfl hlt (h.home.restart (hcancelled.trans hlive))
      (fun _ => ?_) (fun j => card_insert_of_ne) (fun hno => ?_) fun t' ht' hflag => ?_
    · obtain ⟨k, hk⟩ := h.phase _ t ht hrep
      obtain ⟨k', hk'⟩ := restart_expiration hrep (q.clock + lap e.sequence)
      refine ⟨k + k', ?_⟩
      rw [hk', hk, hfirst, Timer.interval, Timer.interval, hinterval]
      push_cast
      ring
    · rw [Timer.repeats, hinterval] at hno
      rw [Timer.repeats, hno] at hrep
      cases hrep
    · obtain rfl := Option.some.inj (ht'.symm.trans ht)
      exact hcancelled.trans hflag
  · rename_i hno
    refine { h with home := h.home.drop fun t' ht' => ?_ }
    obtain rfl := Option.some.inj (ht'.symm.trans ht)
    simpa using hno

lemma Sound.foldl_rearm (lap : ℕ → ℕ) (h : q.Sound rest) :
    Sound (rest.foldl (TimerQueue.rearm lap) q) [] := by
  induction rest generalizing q with
  | nil => exact h
  | cons e rest ih => exact ih (h.rearm lap)

/-- The call of `handleRead` goes on: entries change their places, and a callback is started, if its
timer is due and not cancelled. -/
lemma Sound.shift (h : q.Sound rest) {reading : Option TimerRead} {record : List TimerRecord}
    (hhome : Home q.made timers rest')
    (htotal : ∀ i, total { q with timers, reading, record } i ≤ q.total i)
    (hread : ∀ r, reading = some r → r.now ≤ q.clock ∧ (r.ran ++ r.due).Pairwise (· < ·) ∧
      ∀ e ∈ r.due, e.deadline ≤ r.now)
    (hrecord : record = q.record ∨ ∃ e, record = .ran e q.clock :: q.record ∧
      e.deadline ≤ q.clock ∧ ∀ t, q.made e.sequence = some t → t.cancelled = false) :
    Sound { q with timers, reading, record } rest' where
  home := hhome
  fresh i hi := ⟨(h.fresh i hi).1, Nat.le_zero.1 ((htotal i).trans (h.fresh i hi).2.le)⟩
  phase := h.phase
  reading := hread
  punctual e time he := by
    rcases hrecord with rfl | ⟨e', rfl, hdeadline, -⟩
    · exact h.punctual e time he
    · rcases List.mem_cons.1 he with heq | he
      · cases heq
        exact hdeadline
      · exact h.punctual e time he
  once i t ht hrep := (htotal i).trans (h.once i t ht hrep)
  flagged i hi := by
    rcases hrecord with rfl | ⟨e', rfl, -⟩
    · exact h.flagged i hi
    · exact h.flagged i ((List.mem_cons.1 hi).resolve_left nofun)
  silent := by
    rcases hrecord with rfl | ⟨e', rfl, -, hlive⟩
    · exact h.silent
    · refine List.pairwise_cons.2 ⟨fun older holder i hruns hsame => ?_, h.silent⟩
      obtain rfl : e'.sequence = i := of_decide_eq_true hruns
      obtain ⟨t, ht, hcancelled⟩ := h.flagged _ (hsame ▸ holder)
      rw [hlive t ht] at hcancelled
      cases hcancelled

lemma Sound.getExpired (h : q.Sound []) (hread : q.reading = none) (lap : ℕ → ℕ) :
    Sound (q.getExpired lap) [] := by
  refine Sound.foldl_rearm lap (h.shift (h.home.split _) (fun i => ?_) (fun r hr => ?_) (.inl rfl))
  · have hsort : ∀ s : Finset TimerEntry,
        (s.sort (· ≤ ·)).countP (fun e => decide (e.sequence = i)) =
          (s.filter (·.sequence = i)).card := fun s => by
      rw [← Multiset.coe_countP, Finset.sort_eq]
      exact Multiset.countP_eq_card_filter (fun e : TimerEntry => e.sequence = i) s.1
    have hsplit := Finset.card_filter_add_card_filter_not
      (s := q.timers.filter (·.sequence = i)) (p := fun e => e.deadline ≤ q.clock)
    rw [Finset.filter_comm, Finset.filter_comm _ fun e : TimerEntry => ¬e.deadline ≤ q.clock]
      at hsplit
    simp only [total, due, hread, Option.elim, hsort, List.countP_nil]
    omega
  · cases hr
    refine ⟨le_rfl, (Finset.sortedLT_sort _).pairwise, fun e he => ?_⟩
    exact (Finset.mem_filter.1 ((Finset.mem_sort _).1 he)).2

lemma Sound.runNext {now : ℤ} {ran due : List TimerEntry} (h : q.Sound [])
    (hread : q.reading = some ⟨now, ran, e :: due⟩) :
    Sound (q.runNext ⟨now, ran, e :: due⟩ e due) [] := by
  obtain ⟨hnow, hsorted, hdue⟩ := h.reading _ hread
  obtain ⟨hfirst, hrest⟩ := List.forall_mem_cons.1 hdue
  unfold TimerQueue.runNext
  split
  · refine h.shift h.home (fun i => ?_) (fun r hr => ?_) (.inl rfl)
    · simp only [total, TimerQueue.due, hread, Option.elim, List.countP_cons]
      omega
    · cases hr
      refine ⟨hnow, hsorted.sublist ?_, hrest⟩
      exact List.Sublist.append_left (List.sublist_cons_self _ _) _
  · rename_i hlive
    refine h.shift h.home (fun i => ?_) (fun r hr => ?_)
      (.inr ⟨e, rfl, hfirst.trans hnow, fun t ht => ?_⟩)
    · by_cases hi : e.sequence = i <;>
        (simp [total, TimerQueue.due, hread, TimerRecord.runs, hi]; try omega)
    · cases hr
      refine ⟨hnow, ?_, hrest⟩
      rwa [List.append_assoc]
    · simpa [ht] using hlive

/-- **The step lemma.** -/
lemma Sound.next {l : Label} {q' : TimerQueue} (h : q.Sound []) (hnext : q.next l = some q') :
    q'.Sound [] := by
  cases l with
  | tick duration =>
    cases hnext
    exact h.tick (by simp) _
  | addTimer delayMs intervalMs =>
    cases hnext
    exact h.addTimer delayMs intervalMs
  | cancel i =>
    cases hnext
    exact h.cancel i
  | getExpired lap =>
    simp only [TimerQueue.next] at hnext
    split at hnext
    · rename_i hnone
      cases hnext
      exact h.getExpired (Option.isNone_iff_eq_none.1 hnone) lap
    · cases hnext
  | run =>
    simp only [TimerQueue.next] at hnext
    split at hnext
    · rename_i hread
      cases hnext
      exact h.runNext hread
    · cases hnext
  | done =>
    simp only [TimerQueue.next] at hnext
    split at hnext
    · rename_i hread
      cases hnext
      refine Sound.tick (h.shift h.home (fun i => ?_) (fun r hr => by cases hr) (.inl rfl))
        le_rfl _
      simp [total, due, hread]
    · cases hnext

end Steps

lemma sound_of_run {start : ℤ} {labels : List Label} {q : TimerQueue}
    (h : machine.run { clock := start } labels = some q) : q.Sound [] := by
  refine Machine.invariant (I := fun q => q.Sound []) (fun _ _ _ hs hstep => hs.next hstep) ?_
    (Machine.reaches_of_run h)
  refine ⟨⟨fun e he => ?_, List.nodup_nil, nofun, nofun⟩, fun i _ => ⟨rfl, rfl⟩, nofun, nofun, nofun,
    nofun, nofun, List.Pairwise.nil⟩
  rcases he with he | he
  · exact absurd he (Finset.notMem_empty e)
  · cases he

/-- The kernel timer fires in time: not later than any deadline, or than in a nanosecond. -/
def InTime (q : TimerQueue) : Prop :=
  ∀ e ∈ q.timers, ∃ time, q.armed = some time ∧ time ≤ max (q.clock + 1) e.deadline

lemma exists_head_sort {timers : Finset TimerEntry} {e : TimerEntry} (he : e ∈ timers) :
    ∃ m ∈ timers, (timers.sort (· ≤ ·)).head? = some m ∧ ∀ e ∈ timers, m.deadline ≤ e.deadline := by
  have hsorted := timers.pairwise_sort (· ≤ ·)
  have hmem : ∀ e, e ∈ timers.sort (· ≤ ·) ↔ e ∈ timers := fun e => Finset.mem_sort _
  cases hs : timers.sort (· ≤ ·) with
  | nil =>
    rw [← hmem, hs] at he
    cases he
  | cons m l =>
    rw [hs, List.pairwise_cons] at hsorted
    refine ⟨m, (hmem m).1 (hs ▸ List.mem_cons_self), rfl, fun e he => ?_⟩
    rw [← hmem, hs, List.mem_cons] at he
    rcases he with rfl | he
    · exact le_rfl
    · exact Prod.Lex.monotone_fst_ofLex (hsorted.1 e he)

/-- Armed relative to a time that is not later than now, the kernel timer fires in time if and only
if this is the present time, or a deadline is not later than a nanosecond after it. -/
lemma inTime_resetTimerfd {q : TimerQueue} {now : ℤ} (hnow : now ≤ q.clock) :
    (q.resetTimerfd now).InTime ↔
      q.timers = ∅ ∨ now = q.clock ∨ ∃ e ∈ q.timers, e.deadline ≤ now + 1 := by
  rcases q.timers.eq_empty_or_nonempty with hempty | ⟨e, he⟩
  · exact iff_of_true (by simp [InTime, resetTimerfd, hempty]) (.inl hempty)
  obtain ⟨m, hm, hhead, hleast⟩ := exists_head_sort he
  have harmed : (q.resetTimerfd now).armed =
      some (q.clock + (if m.deadline - now < 1 then 1 else m.deadline - now)) := by
    rw [resetTimerfd, hhead]
    rfl
  constructor
  · intro h
    obtain ⟨time, htime, hle⟩ := h m hm
    obtain rfl := Option.some.inj (harmed.symm.trans htime)
    by_cases hlate : m.deadline ≤ now + 1
    · exact .inr (.inr ⟨m, hm, hlate⟩)
    · refine .inr (.inl ?_)
      rw [if_neg (by omega)] at hle
      have hclock : (q.resetTimerfd now).clock = q.clock := rfl
      omega
  · rintro (hempty | hpresent | ⟨e, he, hearly⟩) e' he'
    · rw [hempty] at he
      cases he
    all_goals
      refine ⟨_, harmed, ?_⟩
      have hclock : (q.resetTimerfd now).clock = q.clock := rfl
      have hle := hleast e' he'
    · split <;> omega
    · have hle' := hleast e he
      split <;> omega

/-- **When the kernel timer is armed in time.**  In every history, adding a timer arms it in time,
and `handleRead` does so if and only if no time has passed since it has read the clock, or no timer
is left, or a deadline is not later than a nanosecond after that. -/
theorem armed_in_time_iff (start : ℤ) (labels : List Label) (q : TimerQueue)
    (h : machine.run { clock := start } labels = some q) :
    (∀ delayMs intervalMs, (q.addTimer delayMs intervalMs).InTime) ∧
      ∀ now ran q', q.reading = some ⟨now, ran, []⟩ → q.next .done = some q' →
        (q'.InTime ↔ q.timers = ∅ ∨ now = q.clock ∨ ∃ e ∈ q.timers, e.deadline ≤ now + 1) := by
  refine ⟨fun delayMs intervalMs => ?_, fun now ran q' hread hdone => ?_⟩
  · exact (inTime_resetTimerfd le_rfl).2 (.inr (.inl rfl))
  · simp only [next, hread] at hdone
    cases hdone
    exact inTime_resetTimerfd ((sound_of_run h).reading _ hread).1

/-- One timer is due at once and another in 20 milliseconds.  The callback of the first takes no
time, and the kernel timer is then armed in time. -/
theorem armed_in_time_handleRead :
    ∃ q q', machine.run { clock := 0 } [.addTimer 0 0, .addTimer 20 0, .getExpired fun _ => 0, .run] =
        some q ∧ q.next .done = some q' ∧ q'.armed = some 20000000 ∧ q'.InTime := by
  have hend : (machine.run { clock := 0 } [.addTimer 0 0, .addTimer 20 0, .getExpired fun _ => 0,
      .run]).map (fun q => (q.reading, q.clock, (q.next .done).map armed)) =
        some (some ⟨0, [toLex (0, 0)], []⟩, 0, some (some 20000000)) := by decide +kernel
  obtain ⟨q, hrun, hq⟩ := Option.map_eq_some_iff.1 hend
  simp only [Prod.mk.injEq] at hq
  obtain ⟨hread, hclock, hdone⟩ := hq
  obtain ⟨q', hdone, harmed⟩ := Option.map_eq_some_iff.1 hdone
  refine ⟨q, q', hrun, hdone, harmed, ?_⟩
  exact ((armed_in_time_iff 0 _ q hrun).2 0 _ q' hread hdone).2 (.inr (.inl hclock.symm))

/-- One timer is due at once and another in 20 milliseconds.  The callback of the first takes 5, and
the kernel timer is then armed for the time 25. -/
theorem armed_late :
    (machine.run { clock := 0 } [.addTimer 0 0, .addTimer 20 0, .getExpired fun _ => 0, .run,
      .tick 5000000, .done]).map (fun q => (q.clock, q.timers, q.armed)) =
        some (5000000, {toLex (20000000, 1)}, some 25000000) := by
  decide +kernel

end TimerQueue

end MuduoChat
