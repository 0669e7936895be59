import MuduoChat.Store.MySQL

/-!
# What is read back from the columns of a delivery

A delivery whose identifiers fit in an `INT` column and whose times are whole seconds is read back
from its row as it was written (`compared_readRow`), as long as the row is decoded with its own
lease owner.  The rows of one result share the buffer of the lease owner.  A row without an owner
is therefore read with the owner of an earlier row, which does not show if the result has no
owners at all or if every row without an owner is terminal (`decodeRows_compared`).  In general the
rows are read independently of each other exactly if no row without an owner is directly behind one
with an owner (`rows_decoded_independently`).
-/

namespace MuduoChat

/-! ### Single columns -/

lemma ofColumn_toColumn {n : ℕ} (h : n < 2 ^ 31) : ofColumn (toColumn n) = n := by
  have hmsb : (BitVec.ofNat 32 n).msb = false := by
    rw [BitVec.msb_eq_false_iff_two_mul_lt, BitVec.toNat_ofNat]
    omega
  rw [ofColumn, toColumn, BitVec.signExtend_eq_setWidth_of_msb_false hmsb, BitVec.toNat_setWidth,
    BitVec.toNat_ofNat]
  omega

lemma toColumn_inj {n m : ℕ} (hn : n < 2 ^ 31) (hm : m < 2 ^ 31) :
    toColumn n = toColumn m ↔ n = m := by
  constructor
  · intro h
    rw [← ofColumn_toColumn hn, h, ofColumn_toColumn hm]
  · exact fun h => by rw [h]

/-- A time that is stored: a positive number of whole seconds, or zero where it is not set. -/
def WholeSeconds (t : ℤ) : Prop := 0 ≤ t ∧ 1000 ∣ t

instance (t : ℤ) : Decidable (WholeSeconds t) :=
  inferInstanceAs (Decidable (0 ≤ t ∧ 1000 ∣ t))

lemma WholeSeconds.exists_eq {t : ℤ} (h : WholeSeconds t) : ∃ n, 0 ≤ n ∧ t = 1000 * n := by
  obtain ⟨hpos, n, rfl⟩ := h
  exact ⟨n, by omega, rfl⟩

lemma tdiv_thousand_cases (t : ℤ) :
    0 ≤ t ∧ t.tdiv 1000 = t / 1000 ∨ t < 0 ∧ t.tdiv 1000 = -(-t / 1000) := by
  by_cases ht : 0 ≤ t
  · exact .inl ⟨ht, Int.tdiv_eq_ediv_of_nonneg ht⟩
  · refine .inr ⟨by omega, ?_⟩
    have hneg : t.tdiv 1000 = -(-t).tdiv 1000 := by rw [Int.neg_tdiv, neg_neg]
    rw [hneg, Int.tdiv_eq_ediv_of_nonneg (by omega)]

lemma tdiv_thousand {n : ℤ} : (1000 * n).tdiv 1000 = n :=
  Int.mul_tdiv_cancel_left n (by decide)

lemma tdiv_thousand_up {n : ℤ} (h : 0 ≤ n) : (1000 * n + 999).tdiv 1000 = n := by
  rw [Int.tdiv_eq_ediv_of_nonneg (by omega)]
  omega

lemma fromUnixtime_of_nonneg {n : ℤ} (h : 0 ≤ n) : fromUnixtime n = some n :=
  if_neg (by omega)

lemma secsToMs_secondsDown {t : ℤ} (h : WholeSeconds t) : secsToMs (secondsDown t) = t := by
  obtain ⟨n, hn, rfl⟩ := h.exists_eq
  by_cases hzero : 1000 * n = 0
  · simp [secondsDown, hzero, secsToMs]
  · rw [secondsDown, if_neg hzero, tdiv_thousand, fromUnixtime_of_nonneg hn, secsToMs]
    omega

lemma secsToMs_secondsUp {t : ℤ} (h : WholeSeconds t) : secsToMs (secondsUp t) = t := by
  obtain ⟨n, hn, rfl⟩ := h.exists_eq
  by_cases hzero : 1000 * n = 0
  · simp [secondsUp, hzero, secsToMs]
  · rw [secondsUp, if_neg hzero, tdiv_thousand_up hn, fromUnixtime_of_nonneg hn, secsToMs]
    omega

/-! ### The lease owner -/

lemma toList_toString (n : ℕ) : (toString n).toList = Nat.toDigits 10 n := by
  rw [Nat.toString_eq_repr, Nat.toList_repr]

lemma isDigit_of_mem_toString {n : ℕ} {c : Char} (h : c ∈ (toString n).toList) :
    c.isDigit = true := by
  rw [toList_toString] at h
  exact Nat.isDigit_of_mem_toDigits (by decide) (by decide) h

lemma leadingNumber_toString (n : ℕ) : leadingNumber (toString n).toList = n := by
  have hdigits : (toString n).toList.takeWhile Char.isDigit = (toString n).toList :=
    List.takeWhile_eq_self_iff.2 fun c hc => isDigit_of_mem_toString hc
  have hread := Nat.ofDigitChars_toDigits (b := 10) (n := n) (by decide) (by decide)
  simp only [Nat.ofDigitChars, mul_comm] at hread
  rw [leadingNumber, hdigits, toList_toString]
  exact hread

lemma strtoull_of_isDigit {c : Char} {cs : List Char} (h : c.isDigit = true) :
    strtoull (c :: cs) = min (leadingNumber (c :: cs)) (2 ^ 64 - 1) := by
  have hne {x : Char} (hx : x.isDigit = false) : c ≠ x := by
    rintro rfl
    rw [h] at hx
    cases hx
  unfold strtoull
  rw [List.dropWhile_cons_of_neg]
  · split
    next heq => exact absurd (List.cons.inj heq).1 (hne (by decide))
    next heq => exact absurd (List.cons.inj heq).1 (hne (by decide))
    next => rfl
  · simp only [List.mem_cons, List.not_mem_nil, or_false, decide_eq_true_eq, not_or]
    exact ⟨hne (by decide), hne (by decide), hne (by decide), hne (by decide), hne (by decide),
      hne (by decide)⟩

lemma strtoull_toString {n : ℕ} (h : n < 2 ^ 64) : strtoull (toString n).toList = n := by
  have hvalue := leadingNumber_toString n
  cases hlist : (toString n).toList with
  | nil =>
    rw [toList_toString] at hlist
    exact absurd hlist Nat.toDigits_ne_nil
  | cons c cs =>
    rw [hlist] at hvalue
    rw [strtoull_of_isDigit (isDigit_of_mem_toString (hlist ▸ List.mem_cons_self)), hvalue]
    omega

lemma span_colon (n : ℕ) (rest : List Char) :
    ((toString n).toList ++ ':' :: rest).takeWhile (fun c => c ≠ ':') = (toString n).toList ∧
      (((toString n).toList ++ ':' :: rest).dropWhile fun c => c ≠ ':').drop 1 = rest := by
  have hne : ∀ c ∈ (toString n).toList, decide (c ≠ ':') = true := by
    intro c hc
    have hdigit := isDigit_of_mem_toString hc
    refine decide_eq_true ?_
    rintro rfl
    exact absurd hdigit (by decide)
  constructor
  · rw [List.takeWhile_append_of_pos hne]
    simp
  · rw [List.dropWhile_append_of_pos hne]
    simp

lemma decodeLeaseOwner_encodeLeaseOwner {owner : SessionIdentity} {bootId : ℕ}
    (hid : owner.userId.value ≠ 0) (huser : owner.userId.value < 2 ^ 64)
    (hgeneration : owner.generation < 2 ^ 64) (hboot : bootId < 2 ^ 64) :
    decodeLeaseOwner (encodeLeaseOwner owner bootId).toList = .ok (owner, bootId) := by
  have htext : (encodeLeaseOwner owner bootId).toList =
      (toString owner.userId.value).toList ++
        ':' :: ((toString owner.generation).toList ++ ':' :: (toString bootId).toList) := by
    rw [encodeLeaseOwner, if_neg hid]
    simp
  obtain ⟨huid, hrest⟩ := span_colon owner.userId.value
    ((toString owner.generation).toList ++ ':' :: (toString bootId).toList)
  obtain ⟨hgen, hbt⟩ := span_colon owner.generation (toString bootId).toList
  unfold decodeLeaseOwner
  dsimp only
  rw [htext, huid, hrest, hgen, hbt, if_neg (by simp), if_neg (by simp),
    strtoull_toString huser, strtoull_toString hgeneration, strtoull_toString hboot]

/-! ### A row -/

/-- The columns of a delivery hold what it has: the identifiers fit, and the times are whole
seconds. -/
structure Delivery.Storable (d : Delivery) : Prop where
  recipient : d.recipient.value < 2 ^ 31
  attemptCount : d.attemptCount < 2 ^ 32
  ownerId : d.leaseOwner.userId.value < 2 ^ 31
  generation : d.leaseOwner.generation < 2 ^ 64
  bootId : d.leaseBootId < 2 ^ 64
  leaseUntil : WholeSeconds d.leaseUntilMs
  acknowledgedAt : WholeSeconds d.acknowledgedAtMs
  expiresAt : WholeSeconds d.expiresAtMs
  lastSentAt : WholeSeconds d.lastSentAtMs
  nextAttemptAt : WholeSeconds d.nextAttemptAtMs

/-- A delivery without an owner has nothing of an owner, unless it is terminal. -/
def Delivery.OwnerWhole (d : Delivery) : Prop :=
  d.state.terminal = false → d.leaseOwner.userId.value = 0 →
    d.leaseOwner = {} ∧ d.leaseBootId = 0

/-- What is compared of a delivery: all of it, or less if it is terminal. -/
def Delivery.compared (d : Delivery) : Delivery :=
  if d.state.terminal then
    { messageId := d.messageId, conversationId := d.conversationId, sequence := d.sequence
      recipient := d.recipient, state := d.state, attemptCount := d.attemptCount }
  else d

/-- The row of a delivery.  Where the delivery is terminal, the columns of the lease and of the
schedule do not matter. -/
structure RowOf (d : Delivery) (r : DeliveryRow) : Prop where
  state : r.state = d.state
  attemptCount : r.attemptCount = d.attemptCount
  acknowledgedAt : r.acknowledgedAt = secondsDown d.acknowledgedAtMs
  expiresAt : r.expiresAt = secondsDown d.expiresAtMs
  owner : r.leaseOwner = none ∨ r.leaseOwner = (rowOf d).leaseOwner
  live : d.state.terminal = false → r = rowOf d

lemma RowOf.rowOf {d : Delivery} (h : d.Storable) : RowOf d (rowOf d) :=
  ⟨rfl, Nat.mod_eq_of_lt h.attemptCount, rfl, rfl, .inr rfl, fun _ => rfl⟩

def ownerOf (r : DeliveryRow) : SessionIdentity × ℕ :=
  match r.leaseOwner with
  | none => ({}, 0)
  | some text => (decodeLeaseOwner text.toList).toOption.getD ({}, 0)

/-- The delivery of a row that is decoded with an owner. -/
def readRow (owner : SessionIdentity × ℕ) (s : SelectedDelivery) : Delivery where
  messageId := ⟨s.key.first⟩
  recipient := ⟨ofColumn s.key.second⟩
  conversationId := ⟨s.conversationId⟩
  sequence := ⟨s.sequence⟩
  state := s.row.state
  attemptCount := s.row.attemptCount
  leaseOwner := owner.1
  leaseBootId := owner.2
  leaseUntilMs := secsToMs s.row.leaseUntil
  acknowledgedAtMs := secsToMs s.row.acknowledgedAt
  expiresAtMs := secsToMs s.row.expiresAt
  lastSentAtMs := secsToMs s.row.lastSentAt
  nextAttemptAtMs := secsToMs s.row.nextAttemptAt

lemma decodeLeaseOwner_of_rowOf {d : Delivery} (hd : d.Storable) {text : String}
    (h : (rowOf d).leaseOwner = some text) :
    decodeLeaseOwner text.toList = .ok (d.leaseOwner, d.leaseBootId) := by
  simp only [rowOf] at h
  split_ifs at h with hid
  cases h
  have huser := hd.ownerId
  exact decodeLeaseOwner_encodeLeaseOwner hid (by omega) hd.generation hd.bootId

lemma ownerOf_rowOf {d : Delivery} (hd : d.Storable) (howner : d.OwnerWhole)
    (hlive : d.state.terminal = false) : ownerOf (rowOf d) = (d.leaseOwner, d.leaseBootId) := by
  cases h : (rowOf d).leaseOwner with
  | some text =>
    rw [ownerOf, h]
    simp only [decodeLeaseOwner_of_rowOf hd h]
    rfl
  | none =>
    have hid : d.leaseOwner.userId.value = 0 := by
      by_contra hne
      simp [rowOf, hne] at h
    obtain ⟨hempty, hboot⟩ := howner hlive hid
    rw [ownerOf, h, hempty, hboot]

/-- **A row is read back** as it was written, if it is decoded with its own owner.  The sequence
comes from its message. -/
lemma compared_readRow {d : Delivery} {r : DeliveryRow} (hd : d.Storable) (howner : d.OwnerWhole)
    (hr : RowOf d r) (sequence : ConversationSequence) :
    (readRow (ownerOf r) ⟨rowKey d, r, d.conversationId.value, sequence.value⟩).compared =
      Delivery.compared { d with sequence := sequence } := by
  have hrecipient := ofColumn_toColumn hd.recipient
  cases hterminal : d.state.terminal with
  | true =>
    simp only [Delivery.compared, readRow, rowKey, hr.state, hterminal, hr.attemptCount,
      hrecipient, if_true]
  | false =>
    obtain rfl := hr.live hterminal
    have hstate : (rowOf d).state = d.state := rfl
    simp only [Delivery.compared, readRow, hstate, hterminal, ownerOf_rowOf hd howner hterminal]
    simp only [rowOf, rowKey, hrecipient, Nat.mod_eq_of_lt hd.attemptCount,
      secsToMs_secondsDown hd.leaseUntil, secsToMs_secondsDown hd.acknowledgedAt,
      secsToMs_secondsDown hd.expiresAt, secsToMs_secondsDown hd.lastSentAt,
      secsToMs_secondsUp hd.nextAttemptAt]

/-! ### The rows of a result -/

lemma compared_readRow_of_terminal {s : SelectedDelivery} (h : s.row.state.terminal = true)
    (owner owner' : SessionIdentity × ℕ) :
    (readRow owner s).compared = (readRow owner' s).compared := by
  simp only [Delivery.compared, readRow, h, if_true]

variable {rows : List SelectedDelivery}

lemma decodeRows_buffer {buffer : List Char}
    (hbuffer : ∃ owner, decodeLeaseOwner buffer = .ok owner)
    (hread : ∀ s ∈ rows, ∀ text, s.row.leaseOwner = some text →
      ∃ owner, decodeLeaseOwner text.toList = .ok owner)
    (hkept : (∀ s ∈ rows, s.row.leaseOwner = none → s.row.state.terminal = true) ∨
      buffer = [] ∧ ∀ s ∈ rows, s.row.leaseOwner = none) :
    ∃ ds, decodeRows buffer rows = .ok ds ∧
      ds.map Delivery.compared = rows.map fun s => (readRow (ownerOf s.row) s).compared := by
  induction rows generalizing buffer with
  | nil => exact ⟨[], rfl, rfl⟩
  | cons s rows ih =>
    have hread' := fun s' hs' => hread s' (List.mem_cons_of_mem s hs')
    cases howner : s.row.leaseOwner with
    | some text =>
      -- the row has an owner of its own, which is left in the buffer
      obtain ⟨owner, htext⟩ := hread s List.mem_cons_self text howner
      have hkept' := hkept.resolve_right fun h =>
        absurd (h.2 s List.mem_cons_self) (by simp [howner])
      obtain ⟨ds, hds, hmap⟩ := ih ⟨owner, htext⟩ hread'
        (.inl fun s' hs' => hkept' s' (List.mem_cons_of_mem s hs'))
      refine ⟨readRow owner s :: ds, ?_, ?_⟩
      · simp only [decodeRows, howner, Option.map_some, Option.getD_some, htext, hds]
        rfl
      · simp only [List.map_cons, hmap, ownerOf, howner, htext, Except.toOption,
          Option.getD_some]
    | none =>
      obtain ⟨owner, hbuf⟩ := hbuffer
      have hkept' : (∀ s ∈ rows, s.row.leaseOwner = none → s.row.state.terminal = true) ∨
          buffer = [] ∧ ∀ s ∈ rows, s.row.leaseOwner = none :=
        hkept.imp (fun h s' hs' => h s' (List.mem_cons_of_mem s hs'))
          fun h => ⟨h.1, fun s' hs' => h.2 s' (List.mem_cons_of_mem s hs')⟩
      obtain ⟨ds, hds, hmap⟩ := ih ⟨owner, hbuf⟩ hread' hkept'
      refine ⟨readRow owner s :: ds, ?_, ?_⟩
      · simp only [decodeRows, howner, Option.map_none, Option.getD_none, hbuf, hds]
        rfl
      · rw [List.map_cons, List.map_cons, hmap]
        congr 1
        rcases hkept with hterminal | ⟨rfl, -⟩
        · exact compared_readRow_of_terminal
            (hterminal s List.mem_cons_self howner) _ _
        · obtain rfl : ({}, 0) = owner := Except.ok.inj hbuf
          rw [ownerOf, howner]

/-- **The rows of a result are read back**, if the owner that a row without one takes over does
not show. -/
lemma decodeRows_compared
    (hread : ∀ s ∈ rows, ∀ text, s.row.leaseOwner = some text →
      ∃ owner, decodeLeaseOwner text.toList = .ok owner)
    (hkept : (∀ s ∈ rows, s.row.leaseOwner = none → s.row.state.terminal = true) ∨
      ∀ s ∈ rows, s.row.leaseOwner = none) :
    ∃ ds, decodeRows [] rows = .ok ds ∧
      ds.map Delivery.compared = rows.map fun s => (readRow (ownerOf s.row) s).compared :=
  decodeRows_buffer ⟨({}, 0), rfl⟩ hread (hkept.imp_right fun h => ⟨rfl, h⟩)

/-! ### An owner that is taken over -/

lemma readRow_inj {owner owner' : SessionIdentity × ℕ} {s : SelectedDelivery} :
    readRow owner s = readRow owner' s ↔ owner = owner' := by
  constructor
  · intro h
    have hsession : owner.1 = owner'.1 := congrArg Delivery.leaseOwner h
    have hboot : owner.2 = owner'.2 := congrArg Delivery.leaseBootId h
    exact Prod.ext hsession hboot
  · exact fun h => by rw [h]

/-- The second of two neighbouring rows has an owner of its own, or there is nothing to take over
from the first. -/
def OwnOwner (e s : SelectedDelivery) : Prop := s.row.leaseOwner = none → ownerOf e.row = ({}, 0)

instance (e s : SelectedDelivery) : Decidable (OwnOwner e s) :=
  inferInstanceAs (Decidable (_ → _))

lemma decodeRows_cons {buffer : List Char} {s : SelectedDelivery}
    {ds : List Delivery} (h : decodeRows buffer (s :: rows) = .ok ds) :
    ∃ owner rest, decodeLeaseOwner ((s.row.leaseOwner.map String.toList).getD buffer) = .ok owner ∧
      decodeRows ((s.row.leaseOwner.map String.toList).getD buffer) rows = .ok rest ∧
      ds = readRow owner s :: rest := by
  rw [decodeRows] at h
  cases howner : decodeLeaseOwner ((s.row.leaseOwner.map String.toList).getD buffer) with
  | error e =>
    rw [howner] at h
    cases h
  | ok owner =>
    rw [howner] at h
    cases hrest : decodeRows ((s.row.leaseOwner.map String.toList).getD buffer) rows with
    | error e =>
      simp only [hrest] at h
      cases h
    | ok rest =>
      simp only [hrest] at h
      exact ⟨owner, rest, rfl, rfl, (Except.ok.inj h).symm⟩

/-- The loop from a buffer with something in it: the first row has an owner of its own, or the
buffer stands for none. -/
lemma decodeRows_own_iff {buffer : List Char} {owner : SessionIdentity × ℕ}
    {ds : List Delivery}
    (hbuffer : decodeLeaseOwner buffer = .ok owner) (h : decodeRows buffer rows = .ok ds) :
    ds = rows.map (fun s => readRow (ownerOf s.row) s) ↔
      (∀ s ∈ rows.head?, s.row.leaseOwner = none → owner = ({}, 0)) ∧ rows.IsChain OwnOwner := by
  induction rows generalizing buffer owner ds with
  | nil =>
    obtain rfl : [] = ds := Except.ok.inj h
    simp
  | cons s rows ih =>
    obtain ⟨own, rest, hown, hrest, rfl⟩ := decodeRows_cons h
    rw [List.map_cons, List.cons.injEq, readRow_inj, ih hown hrest, List.isChain_cons]
    simp only [List.head?_cons, Option.mem_some_iff, forall_eq']
    cases howner : s.row.leaseOwner with
    | some text =>
      -- the buffer is filled anew, and stands for the owner of this row
      rw [howner] at hown
      have hself : ownerOf s.row = own := by
        simp only [ownerOf, howner]
        rw [show decodeLeaseOwner text.toList = .ok own from hown]
        rfl
      simp only [OwnOwner, hself, reduceCtorEq, false_implies, true_and]
    | none =>
      -- the buffer is left as it was
      rw [howner] at hown
      obtain rfl : owner = own := Except.ok.inj (hbuffer.symm.trans hown)
      have hself : ownerOf s.row = ({}, 0) := by rw [ownerOf, howner]
      simp only [OwnOwner, hself, implies_true, true_implies, true_and]
      constructor
      · rintro ⟨hdefault, -, hchain⟩
        exact ⟨hdefault, hchain⟩
      · rintro ⟨hdefault, hchain⟩
        exact ⟨hdefault, fun _ _ _ => hdefault, hchain⟩

/-- **Rows are decoded independently** of each other exactly if no row without a lease owner comes
directly behind a row with one.  Otherwise it is returned with the owner of that row. -/
theorem rows_decoded_independently {rows : List SelectedDelivery} {ds : List Delivery}
    (h : decodeRows [] rows = .ok ds) :
    ds = rows.map (fun s => readRow (ownerOf s.row) s) ↔ rows.IsChain OwnOwner := by
  have hempty : decodeLeaseOwner [] = .ok ({}, 0) := rfl
  rw [decodeRows_own_iff hempty h]
  simp only [implies_true, true_and]

/-- A delivery that is in flight, and one of a later message that is not. -/
def leasedThenFree : List SelectedDelivery :=
  let leased : Delivery :=
    { messageId := ⟨1⟩, recipient := ⟨7⟩, state := .inFlight, attemptCount := 1
      leaseOwner := ⟨⟨7⟩, 2⟩, leaseBootId := 9, leaseUntilMs := 30000 }
  let free : Delivery := { messageId := ⟨2⟩, recipient := ⟨7⟩ }
  [⟨rowKey leased, rowOf leased, 1, 1⟩, ⟨rowKey free, rowOf free, 1, 2⟩]

/-- The other way round, both rows are decoded as they are. -/
theorem rows_decoded_independently_freeFirst :
    (∃ ds, decodeRows [] leasedThenFree.reverse = .ok ds ∧
      (ds = leasedThenFree.reverse.map (fun s => readRow (ownerOf s.row) s) ↔
        leasedThenFree.reverse.IsChain OwnOwner)) ∧
      leasedThenFree.reverse.IsChain OwnOwner := by
  refine ⟨?_, by decide +kernel⟩
  cases h : decodeRows [] leasedThenFree.reverse with
  | ok ds => exact ⟨ds, rfl, rows_decoded_independently h⟩
  | error e =>
    have hok : (decodeRows [] leasedThenFree.reverse).isOk = true := by decide +kernel
    rw [h] at hok
    cases hok

/-- The row without an owner is returned with the owner of the row before. -/
theorem owner_taken_over :
    leasedThenFree.map (fun s => s.row.leaseOwner) = [some "7:2:9", none] ∧
      (decodeRows [] leasedThenFree).map (fun ds => ds.map fun d => (d.leaseOwner, d.leaseBootId)) =
        .ok [(⟨⟨7⟩, 2⟩, 9), (⟨⟨7⟩, 2⟩, 9)] := by
  decide +kernel

end MuduoChat
