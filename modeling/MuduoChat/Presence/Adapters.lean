import MuduoChat.Presence.Redis
import MuduoChat.Presence.History

/-!
# The two presence adapters

Both adapters answer every call alike, with one exception.  In memory an entry whose lease has run
out stays until it is overwritten or released, and a lookup reports that it has expired.  The Redis
server removes it, and a lookup reports that there has never been one.
-/

namespace MuduoChat

/-! ### Texts of numbers -/

lemma toString_digits (n : ℕ) :
    ∃ c cs, (toString n).toList = c :: cs ∧ c.isDigit = true ∧ decimalPrefix (c :: cs) = n := by
  have hlist : (toString n).toList = Nat.toDigits 10 n := by
    rw [Nat.toString_eq_repr, Nat.toList_repr]
  have hdigits : ∀ x ∈ Nat.toDigits 10 n, x.isDigit = true := fun x hx =>
    Nat.isDigit_of_mem_toDigits (by decide) (by decide) hx
  have hvalue : decimalPrefix (Nat.toDigits 10 n) = n := by
    rw [decimalPrefix, List.takeWhile_eq_self_iff.2 hdigits]
    exact Nat.ofDigitChars_toDigits (by decide) (by decide)
  cases h : Nat.toDigits 10 n with
  | nil => exact absurd h Nat.toDigits_ne_nil
  | cons c cs =>
    rw [h] at hlist hdigits hvalue
    exact ⟨c, cs, hlist, hdigits c List.mem_cons_self, hvalue⟩

lemma ne_of_isDigit {c : Char} (h : c.isDigit = true) :
    isspace c = false ∧ c ≠ '-' ∧ c ≠ '+' := by
  have hne {x : Char} (hx : x.isDigit = false) : c ≠ x := by
    rintro rfl
    rw [h] at hx
    cases hx
  refine ⟨?_, hne (by decide), hne (by decide)⟩
  have hlow : 48 ≤ c.toNat := by
    simp only [Char.isDigit, Bool.and_eq_true, decide_eq_true_eq] at h
    exact h.1
  simp only [isspace, hne (x := ' ') (by decide), decide_false, Bool.false_or,
    Bool.and_eq_false_iff, decide_eq_false_iff_not]
  omega

lemma toU64_toString (n : UInt64) : toU64 (toString n.toNat) = n := by
  obtain ⟨c, cs, hlist, hc, hvalue⟩ := toString_digits n.toNat
  obtain ⟨hblank, hminus, hplus⟩ := ne_of_isDigit hc
  have hdrop : (c :: cs).dropWhile isspace = c :: cs :=
    List.dropWhile_cons_of_neg (by simp [hblank])
  have hlt := n.toNat_lt
  unfold toU64
  rw [hlist, hdrop]
  split
  next heq => exact absurd (List.cons.inj heq).1 hminus
  next heq => exact absurd (List.cons.inj heq).1 hplus
  next =>
    rw [hvalue, min_eq_left (by omega)]
    exact UInt64.ofNat_toNat

lemma toI64_toString {n : ℤ} (hlo : -2 ^ 63 ≤ n) (hhi : n < 2 ^ 63) : toI64 (toString n) = n := by
  unfold toI64
  rw [Int.toString_eq_repr, Int.repr_eq_if]
  by_cases hn : 0 ≤ n
  · obtain ⟨c, cs, hlist, hc, hvalue⟩ := toString_digits n.toNat
    obtain ⟨hblank, hminus, hplus⟩ := ne_of_isDigit hc
    rw [if_pos hn, ← Nat.toString_eq_repr, hlist, List.dropWhile_cons_of_neg (by simp [hblank])]
    split
    next heq => exact absurd (List.cons.inj heq).1 hminus
    next heq => exact absurd (List.cons.inj heq).1 hplus
    next =>
      rw [hvalue]
      omega
  · obtain ⟨c, cs, hlist, hc, hvalue⟩ := toString_digits (-n).toNat
    have hlist' : ("-" ++ (-n).toNat.repr).toList = '-' :: c :: cs := by
      rw [String.toList_append, ← Nat.toString_eq_repr, hlist]
      rfl
    rw [if_neg hn, hlist', List.dropWhile_cons_of_neg (by decide)]
    simp only [hvalue]
    omega

namespace RedisPresenceDirectory

/-! ### The keys of the server -/

lemma keyFor_inj {u v : UserId} : keyFor u = keyFor v ↔ u = v := by
  refine ⟨fun h => ?_, fun h => by rw [h]⟩
  have hlist := congrArg String.toList h
  simp only [keyFor, String.toList_append, List.append_cancel_left_eq] at hlist
  have hrepr : u.value.repr = v.value.repr := by
    rw [← Nat.toString_eq_repr, ← Nat.toString_eq_repr]
    exact String.toList_inj.1 hlist
  exact Id.ext (Nat.repr_inj.1 hrepr)

lemma keyFor_ne_epochKey (u : UserId) : keyFor u ≠ epochKey := by
  intro h
  have hlist := congrArg String.toList h
  have hepoch : epochKey.toList = "presence:v1:".toList ++ "epoch".toList := by decide
  simp only [keyFor, String.toList_append, hepoch, List.append_cancel_left_eq] at hlist
  obtain ⟨c, cs, hdigits, hc, -⟩ := toString_digits u.value
  rw [hdigits] at hlist
  cases hlist
  exact absurd hc (by decide)

/-! ### The numbers of the scripts -/

section Numbers

variable {R : RedisEngine} {n : ℤ}

lemma number_eq (hn : |n| < 10 ^ 14) : R.number n = n :=
  R.number_exact n (hn.le.trans (by norm_num))

lemma number_eq_iff (hn : |n| < 10 ^ 14) {m : ℕ} : R.number m = n ↔ m = n := by
  constructor
  · intro h
    rcases le_or_gt (m : ℤ) (2 ^ 53) with hm | hm
    · rwa [R.number_exact m (by rw [abs_of_nonneg (by positivity)]; exact hm)] at h
    · have hle := R.number_mono hm.le
      rw [R.number_exact (2 ^ 53) (by norm_num), h] at hle
      have := (abs_lt.1 hn).2
      omega
  · rintro rfl
    exact number_eq hn

lemma toU64_toString_nat {m : ℕ} (hm : m < 10 ^ 14) : (toU64 (toString m)).toNat = m := by
  have hnat : (UInt64.ofNat m).toNat = m := UInt64.toNat_ofNat_of_lt' (by
    have : 10 ^ 14 < UInt64.size := by decide
    omega)
  have := toU64_toString (UInt64.ofNat m)
  rw [hnat] at this
  rw [this, hnat]

end Numbers

/-! ### The relation between the two adapters -/

def valueOf (entry : PresenceEntry) : PresenceValue where
  g := toString entry.gatewayId.value.toNat
  c := toString entry.connectionId.value.toNat
  e := toString entry.sessionEpoch.value
  x := toString entry.expiresAtMs

/-- The server has the epochs and the entries of the directory in memory. -/
structure Agrees (R : RedisEngine) (m : InMemoryPresenceDirectory) (d : RedisPresenceDirectory) :
    Prop where
  up : m.failure = false
  ttl : d.ttlMs = m.ttlMs
  first : 1 ≤ m.nextEpoch
  counter : d.store.keys[epochKey]? =
    if m.nextEpoch = 1 then none else some ⟨toString ((m.nextEpoch : ℤ) - 1), none⟩
  stored : ∀ user : UserId, d.store.keys[keyFor user]? = m.entries[user]?.map fun entry =>
    ⟨R.encode (valueOf entry), some entry.expiresAtMs⟩
  epochs : ∀ (user : UserId) entry, m.entries[user]? = some entry →
    entry.sessionEpoch.value < m.nextEpoch
  times : ∀ (user : UserId) entry, m.entries[user]? = some entry →
    |entry.expiresAtMs| < 10 ^ 14

lemma agrees_empty (R : RedisEngine) (ttlMs : ℤ) :
    Agrees R { ttlMs := ttlMs } { ttlMs := ttlMs } where
  up := rfl
  ttl := rfl
  first := le_rfl
  counter := by simp
  stored user := by simp
  epochs user entry h := by simp at h
  times user entry h := by simp at h

section Agrees

variable {R : RedisEngine} {m : InMemoryPresenceDirectory} {d : RedisPresenceDirectory} {t : ℤ}
  {user : UserId}

lemma keys_pexpire_set (R : RedisEngine) (t : ℤ) (s : RedisStore) (key v k : String) {ttl : ℤ}
    (httl : 0 < ttl) :
    (R.pexpire t (RedisEngine.set s key v) key ttl).keys[k]? =
      if key = k then some ⟨v, some (t + ttl)⟩ else s.keys[k]? := by
  have hfind : R.find t (RedisEngine.set s key v) key = some ⟨v, none⟩ := by
    simp [RedisEngine.find, RedisEngine.set, Option.filter]
  unfold RedisEngine.pexpire
  rw [hfind]
  simp only [if_neg (not_le.2 httl)]
  rw [OrderedMap.getElem?_insert]
  split
  next => rfl
  next hk => exact OrderedMap.getElem?_insert_of_ne _ _ hk

/-! What the server sees of an entry. -/

lemma Agrees.get_absent (h : Agrees R m d) (hentry : m.entries[user]? = none) :
    R.get t d.store (keyFor user) = none := by
  simp [RedisEngine.get, RedisEngine.find, h.stored user, hentry]

variable {entry : PresenceEntry}

lemma Agrees.get_gone (h : Agrees R m d)
    (hentry : m.entries[user]? = some entry) (hg : R.gone entry.expiresAtMs t = true) :
    R.get t d.store (keyFor user) = none := by
  simp [RedisEngine.get, RedisEngine.find, h.stored user, hentry, Option.filter, hg]

lemma Agrees.get_present (h : Agrees R m d)
    (hentry : m.entries[user]? = some entry) (hg : R.gone entry.expiresAtMs t = false) :
    R.get t d.store (keyFor user) = some (R.encode (valueOf entry)) := by
  simp [RedisEngine.get, RedisEngine.find, h.stored user, hentry, Option.filter, hg]

lemma expired_of_gone {deadline : ℤ} (h : R.gone deadline t = true) : deadline ≤ t := by
  by_contra hlt
  rw [R.not_gone_of_lt deadline t (not_le.1 hlt)] at h
  cases h

lemma Agrees.incr (h : Agrees R m d) :
    R.incr t d.store epochKey = some ((m.nextEpoch : ℤ),
      { d.store with keys := d.store.keys.insert epochKey ⟨toString (m.nextEpoch : ℤ), none⟩ }) := by
  have hcounter := h.counter
  have hfirst := h.first
  unfold RedisEngine.incr RedisEngine.find
  split_ifs at hcounter with hone
  · rw [hcounter, hone]
    rfl
  · rw [hcounter]
    simp [Option.filter]

/-- The numbers that the scripts meet at a call are printed exactly. -/
structure Exact (m : InMemoryPresenceDirectory) (t : ℤ) : Prop where
  time : |t| < 10 ^ 14
  deadline : |t + m.ttlMs| < 10 ^ 14
  epoch : m.nextEpoch < 10 ^ 14

lemma Exact.number_ttl (hx : Exact m t) : R.number m.ttlMs = m.ttlMs := by
  have htime := abs_lt.1 hx.time
  have hdeadline := abs_lt.1 hx.deadline
  refine R.number_exact _ (abs_le.2 ⟨?_, ?_⟩) <;> omega

lemma Exact.epoch_abs (hx : Exact m t) : |(m.nextEpoch : ℤ)| < 10 ^ 14 := by
  have := hx.epoch
  rw [abs_of_nonneg (by positivity)]
  omega

/-! ### The calls -/

lemma Agrees.insert (h : Agrees R m d) {m' : InMemoryPresenceDirectory}
    {d' : RedisPresenceDirectory} (hup : m'.failure = m.failure)
    (httl : m'.ttlMs = m.ttlMs) (httl' : d'.ttlMs = d.ttlMs) (hle : m.nextEpoch ≤ m'.nextEpoch)
    (hcounter : d'.store.keys[epochKey]? =
      if m'.nextEpoch = 1 then none else some ⟨toString ((m'.nextEpoch : ℤ) - 1), none⟩)
    (hentries : m'.entries = m.entries.insert user entry)
    (hepoch : entry.sessionEpoch.value < m'.nextEpoch) (htime : |entry.expiresAtMs| < 10 ^ 14)
    (hstored : ∀ v, d'.store.keys[keyFor v]? =
      if user = v then some ⟨R.encode (valueOf entry), some entry.expiresAtMs⟩
      else d.store.keys[keyFor v]?) : Agrees R m' d' where
  up := hup.trans h.up
  ttl := httl'.trans (h.ttl.trans httl.symm)
  first := h.first.trans hle
  counter := hcounter
  stored v := by
    rw [hstored v, hentries, OrderedMap.getElem?_insert]
    split
    next => rfl
    next => exact h.stored v
  epochs v x hx := by
    rw [hentries, OrderedMap.getElem?_insert] at hx
    split at hx
    next => exact Option.some.inj hx ▸ hepoch
    next => exact (h.epochs v x hx).trans_le hle
  times v x hx := by
    rw [hentries, OrderedMap.getElem?_insert] at hx
    split at hx
    next => exact Option.some.inj hx ▸ htime
    next => exact h.times v x hx

lemma Agrees.claim (h : Agrees R m d) (hx : Exact m t) (httl : 0 < m.ttlMs) (user : UserId)
    (gateway : GatewayId) (conn : ConnectionId) :
    (d.claim R t user gateway conn).1 = (m.claim t user gateway conn).1 ∧
      Agrees R (m.claim t user gateway conn).2 (d.claim R t user gateway conn).2 := by
  have hnow : R.number t = t := number_eq hx.time
  have hdeadline : R.number (t + m.ttlMs) = t + m.ttlMs := number_eq hx.deadline
  have hepoch : R.number m.nextEpoch = m.nextEpoch := number_eq hx.epoch_abs
  have hscript (g c : String) :
      R.claimScript t d.store (keyFor user) epochKey (toString t) (toString m.ttlMs) g c =
        (.integer m.nextEpoch, R.pexpire t (RedisEngine.set
          { d.store with
            keys := d.store.keys.insert epochKey ⟨toString (m.nextEpoch : ℤ), none⟩ }
          (keyFor user) (R.encode ⟨g, c, toString (m.nextEpoch : ℤ), toString (t + m.ttlMs)⟩))
          (keyFor user) m.ttlMs) := by
    simp only [RedisEngine.claimScript, h.incr, R.tonumber_toString, hnow, hx.number_ttl,
      hdeadline, hepoch, R.tostring_exact _ hx.epoch_abs, R.tostring_exact _ hx.deadline]
  have hmod : ((m.nextEpoch : ℤ) % 2 ^ 64).toNat = m.nextEpoch := by
    have := hx.epoch
    omega
  simp only [RedisPresenceDirectory.claim, h.ttl, hscript, InMemoryPresenceDirectory.claim, h.up,
    Bool.false_eq_true, if_false, hmod, true_and]
  refine h.insert h.up.symm rfl h.ttl.symm (Nat.le_succ _) ?_ rfl (Nat.lt_succ_self _) hx.deadline
    fun v => ?_
  · have hne : m.nextEpoch + 1 ≠ 1 := by
      have := h.first
      omega
    rw [keys_pexpire_set _ _ _ _ _ _ httl, if_neg (keyFor_ne_epochKey user),
      OrderedMap.getElem?_insert_self, if_neg hne]
    simp
  · rw [keys_pexpire_set _ _ _ _ _ _ httl, OrderedMap.getElem?_insert_of_ne _ _
      (keyFor_ne_epochKey v).symm]
    simp only [keyFor_inj]
    rfl

/-- The status of a script that ends without effect. -/
def statusOf : PresenceError → ℤ
  | .notEpoch => 2
  | _ => 0

lemma Agrees.checkScript (h : Agrees R m d) (hx : Exact m t) (user : UserId)
    (epoch : SessionEpoch) :
    R.checkScript t d.store (keyFor user) (toString t) (toString epoch.value) =
      match m.checkEpoch t user epoch with
      | .error e => .inl (.array [statusOf e])
      | .ok entry => .inr (valueOf entry, t) := by
  unfold RedisEngine.checkScript InMemoryPresenceDirectory.checkEpoch
  cases hentry : m.entries[user]? with
  | none =>
    rw [h.get_absent hentry]
    rfl
  | some entry =>
    have hsmall : |(entry.sessionEpoch.value : ℤ)| < 10 ^ 14 := by
      have hlt := h.epochs user entry hentry
      have := hx.epoch
      rw [abs_of_nonneg (by positivity)]
      omega
    cases hg : R.gone entry.expiresAtMs t with
    | true =>
      -- the server has removed the key, and in memory the lease has run out
      rw [h.get_gone hentry hg]
      simp only [if_pos (expired_of_gone hg), statusOf]
    | false =>
      have hnow : R.tonumber (toString t) = some t := by
        rw [R.tonumber_toString, number_eq hx.time]
      have hdeadline : R.tonumber (valueOf entry).x = some entry.expiresAtMs :=
        (R.tonumber_toString _).trans
          (congrArg some (number_eq (h.times user entry hentry)))
      have hepoch : R.tonumber (valueOf entry).e = R.tonumber (toString epoch.value) ↔
          entry.sessionEpoch = epoch := by
        have hstored : R.tonumber (valueOf entry).e = some (R.number entry.sessionEpoch.value) :=
          R.tonumber_toString (entry.sessionEpoch.value : ℤ)
        have harg : R.tonumber (toString epoch.value) = some (R.number epoch.value) :=
          R.tonumber_toString (epoch.value : ℤ)
        rw [hstored, harg, Option.some_inj, number_eq hsmall, eq_comm, number_eq_iff hsmall,
          Nat.cast_inj, eq_comm, SessionEpoch.ext_iff]
      rw [h.get_present hentry hg]
      simp only [R.decode_encode, hnow, hdeadline, ne_eq, hepoch]
      by_cases hexp : entry.expiresAtMs ≤ t
      · simp only [if_pos hexp, statusOf]
      · by_cases hep : entry.sessionEpoch = epoch
        · simp only [if_neg hexp, hep, not_true_eq_false, if_false]
        · simp only [if_neg hexp, hep, not_false_eq_true, if_true, statusOf]

lemma statusError_statusOf {e : PresenceError} (he : e ≠ .dependencyUnavailable) :
    statusError (statusOf e) = e := by
  cases e with
  | notEpoch => rfl
  | notFound => rfl
  | dependencyUnavailable => exact absurd rfl he

lemma statusOf_ne_one (e : PresenceError) : statusOf e ≠ 1 := by
  cases e <;> decide

lemma checkEpoch_error {epoch : SessionEpoch} {e : PresenceError} (he : m.checkEpoch t user epoch = .error e) :
    e ≠ .dependencyUnavailable := by
  unfold InMemoryPresenceDirectory.checkEpoch at he
  split at he
  next => exact Except.error.inj he ▸ nofun
  next =>
    split_ifs at he
    · exact Except.error.inj he ▸ nofun
    · exact Except.error.inj he ▸ nofun

lemma Agrees.renew (h : Agrees R m d) (hx : Exact m t) (httl : 0 < m.ttlMs) (user : UserId)
    (gateway : GatewayId) (conn : ConnectionId) (epoch : SessionEpoch) :
    (d.renew R t user gateway conn epoch).1 = (m.renew t user gateway conn epoch).1 ∧
      Agrees R (m.renew t user gateway conn epoch).2 (d.renew R t user gateway conn epoch).2 := by
  have hcheck := h.checkScript hx user epoch
  unfold RedisPresenceDirectory.renew InMemoryPresenceDirectory.renew RedisEngine.renewScript
  simp only [hcheck, h.up, Bool.false_eq_true, if_false]
  cases hm : m.checkEpoch t user epoch with
  | error e =>
    simp only [if_neg (statusOf_ne_one e), statusError_statusOf (checkEpoch_error hm), true_and]
    exact h
  | ok entry =>
    have hlive := (InMemoryPresenceDirectory.checkEpoch_eq_ok.1 hm).1
    have hentry := (InMemoryPresenceDirectory.live_eq_some.1 hlive).1
    have hnumber : R.tonumber (toString d.ttlMs) = some m.ttlMs := by
      rw [h.ttl, R.tonumber_toString, hx.number_ttl]
    simp only [hnumber, number_eq hx.deadline, R.tostring_exact _ hx.deadline, if_true,
      List.head?_cons, Option.getD_some, true_and]
    refine h.insert h.up.symm rfl rfl le_rfl ?_ rfl (h.epochs user entry hentry) hx.deadline
      fun v => ?_
    · rw [keys_pexpire_set _ _ _ _ _ _ httl, if_neg (keyFor_ne_epochKey user)]
      exact h.counter
    · rw [keys_pexpire_set _ _ _ _ _ _ httl]
      simp only [keyFor_inj]
      rfl

lemma Agrees.release (h : Agrees R m d) (hx : Exact m t) (user : UserId) (gateway : GatewayId)
    (conn : ConnectionId) (epoch : SessionEpoch) :
    (d.release R t user gateway conn epoch).1 = (m.release t user gateway conn epoch).1 ∧
      Agrees R (m.release t user gateway conn epoch).2
        (d.release R t user gateway conn epoch).2 := by
  have hcheck := h.checkScript hx user epoch
  unfold RedisPresenceDirectory.release InMemoryPresenceDirectory.release
    RedisEngine.releaseScript
  simp only [hcheck, h.up, Bool.false_eq_true, if_false]
  cases hm : m.checkEpoch t user epoch with
  | error e =>
    simp only [if_neg (statusOf_ne_one e), statusError_statusOf (checkEpoch_error hm), true_and]
    exact h
  | ok entry =>
    simp only [if_true, true_and]
    have herase (k : UserId) : (m.entries.erase user)[k]? =
        if user = k then none else m.entries[k]? := OrderedMap.getElem?_erase _ _ _
    refine ⟨rfl, h.ttl, h.first, ?_, fun v => ?_, fun v x hv => ?_, fun v x hv => ?_⟩
    · simp only [RedisEngine.del]
      rw [OrderedMap.getElem?_erase, if_neg (keyFor_ne_epochKey user)]
      exact h.counter
    · simp only [RedisEngine.del]
      rw [OrderedMap.getElem?_erase, herase, h.stored v]
      simp only [keyFor_inj]
      split
      next => rfl
      next => rfl
    · rw [herase] at hv
      split at hv
      next => cases hv
      next => exact h.epochs v x hv
    · rw [herase] at hv
      split at hv
      next => cases hv
      next => exact h.times v x hv

lemma Agrees.locate_gone (h : Agrees R m d)
    (hentry : m.entries[user]? = some entry) (hg : R.gone entry.expiresAtMs t = true) :
    d.locate R t user = { error := .notFound } := by
  simp [RedisPresenceDirectory.locate, h.get_gone hentry hg]

lemma Agrees.locate_iff (h : Agrees R m d) (hx : Exact m t) :
    d.locate R t user = m.locate t user ↔
      ∀ entry, m.entries[user]? = some entry → R.gone entry.expiresAtMs t = false := by
  cases hentry : m.entries[user]? with
  | none =>
    simp [RedisPresenceDirectory.locate, InMemoryPresenceDirectory.locate, h.up, hentry,
      h.get_absent hentry]
  | some entry =>
    cases hg : R.gone entry.expiresAtMs t with
    | true =>
      rw [h.locate_gone hentry hg]
      simp [InMemoryPresenceDirectory.locate, h.up, hentry, expired_of_gone hg, hg]
    | false =>
      have htime := abs_lt.1 (h.times user entry hentry)
      have hx64 : toI64 (toString entry.expiresAtMs) = entry.expiresAtMs :=
        toI64_toString (by omega) (by omega)
      have hlt : entry.sessionEpoch.value < 10 ^ 14 :=
        (h.epochs user entry hentry).trans hx.epoch
      unfold RedisPresenceDirectory.locate InMemoryPresenceDirectory.locate
      rw [h.get_present hentry hg]
      simp only [h.up, Bool.false_eq_true, if_false, R.parse_encode, valueOf, toU64_toString,
        toU64_toString_nat hlt, hx64, hentry, Option.some.injEq, forall_eq', hg]

end Agrees

/-! ### Runs -/

/-- Make a call and write it into the history. -/
def serve (R : RedisEngine) (x : List PresenceEvent × RedisPresenceDirectory)
    (call : ℤ × PresenceCall) : List PresenceEvent × RedisPresenceDirectory :=
  (⟨call.1, call.2, (x.2.perform R call.1 call.2).1⟩ :: x.1, (x.2.perform R call.1 call.2).2)

/-- The history of a list of calls, and the directory after them. -/
def run (R : RedisEngine) (d : RedisPresenceDirectory) (calls : List (ℤ × PresenceCall)) :
    List PresenceEvent × RedisPresenceDirectory :=
  calls.foldl (serve R) ([], d)

/-- No lookup at this time is about an entry that the server has removed. -/
def Visible (R : RedisEngine) (m : InMemoryPresenceDirectory) (t : ℤ) : PresenceCall → Prop
  | .locate user => ∀ entry, m.entries[user]? = some entry → R.gone entry.expiresAtMs t = false
  | _ => True

lemma Agrees.step {R : RedisEngine} {m : InMemoryPresenceDirectory} {d : RedisPresenceDirectory}
    {t : ℤ} (h : Agrees R m d) (hx : Exact m t) (httl : 0 < m.ttlMs) (call : PresenceCall) :
    ((d.perform R t call).1 = (m.perform t call).1 ↔ Visible R m t call) ∧
      Agrees R (m.perform t call).2 (d.perform R t call).2 := by
  cases call with
  | claim user gateway conn =>
    exact (h.claim hx httl user gateway conn).imp_left fun hres => iff_of_true hres trivial
  | renew user gateway conn epoch =>
    exact (h.renew hx httl user gateway conn epoch).imp_left fun hres => iff_of_true hres trivial
  | release user gateway conn epoch =>
    exact (h.release hx user gateway conn epoch).imp_left fun hres => iff_of_true hres trivial
  | locate user => exact ⟨h.locate_iff hx, h⟩

/-- What is known after a list of calls. -/
structure AgreesAfter (R : RedisEngine) (ttlMs : ℤ) (calls : List (ℤ × PresenceCall)) : Prop where
  agrees : Agrees R (InMemoryPresenceDirectory.run { ttlMs := ttlMs } calls).2
    (run R { ttlMs := ttlMs } calls).2
  ttl : (InMemoryPresenceDirectory.run { ttlMs := ttlMs } calls).2.ttlMs = ttlMs
  epoch : (InMemoryPresenceDirectory.run { ttlMs := ttlMs } calls).2.nextEpoch ≤ calls.length + 1
  histories : (run R { ttlMs := ttlMs } calls).1 =
      (InMemoryPresenceDirectory.run { ttlMs := ttlMs } calls).1 ↔
    ∀ before c, before ++ [c] <+: calls →
      Visible R (InMemoryPresenceDirectory.run { ttlMs := ttlMs } before).2 c.1 c.2

lemma agreesAfter {R : RedisEngine} {ttlMs : ℤ} (httl : 0 < ttlMs)
    {calls : List (ℤ × PresenceCall)}
    (hrange : ∀ c ∈ calls, |c.1| < 10 ^ 14 ∧ |c.1 + ttlMs| < 10 ^ 14)
    (hlen : calls.length < 10 ^ 14) : AgreesAfter R ttlMs calls := by
  induction calls using List.reverseRecOn with
  | nil =>
    refine ⟨agrees_empty R ttlMs, rfl, le_rfl, iff_of_true rfl fun before c hpre => ?_⟩
    simp at hpre
  | append_singleton calls c ih =>
    simp only [List.length_append, List.length_singleton] at hlen
    obtain ⟨hagrees, httl', hepoch, hhist⟩ :=
      ih (fun x hx => hrange x (by simp [hx])) (by omega)
    obtain ⟨htime, hdeadline⟩ := hrange c (by simp)
    have hx : Exact (InMemoryPresenceDirectory.run { ttlMs := ttlMs } calls).2 c.1 :=
      ⟨htime, by rwa [httl'], by omega⟩
    obtain ⟨hres, hagrees'⟩ := hagrees.step hx (by rwa [httl']) c.2
    have hrun : InMemoryPresenceDirectory.run { ttlMs := ttlMs } (calls ++ [c]) =
        InMemoryPresenceDirectory.serve
          (InMemoryPresenceDirectory.run { ttlMs := ttlMs } calls) c := by
      simp [InMemoryPresenceDirectory.run]
    have hrun' : run R { ttlMs := ttlMs } (calls ++ [c]) =
        serve R (run R { ttlMs := ttlMs } calls) c := by
      simp [run]
    obtain ⟨hsame, hnext⟩ := InMemoryPresenceDirectory.perform_frame
      (InMemoryPresenceDirectory.run { ttlMs := ttlMs } calls).2 c.1 c.2
    refine ⟨by rw [hrun, hrun']; exact hagrees', ?_, ?_, ?_⟩
    · rw [hrun]
      exact hsame.trans httl'
    · rw [hrun, List.length_append, List.length_singleton]
      exact hnext.trans (by omega)
    · -- the last call, and those before it
      rw [hrun, hrun']
      simp only [serve, InMemoryPresenceDirectory.serve, List.cons.injEq,
        PresenceEvent.mk.injEq, heq_eq_eq, true_and, hres, hhist, List.prefix_concat_iff]
      constructor
      · rintro ⟨hlast, hbefore⟩ before x (heq | hpre)
        · obtain ⟨rfl, hone⟩ := List.append_inj' heq rfl
          obtain rfl := List.singleton_inj.1 hone
          exact hlast
        · exact hbefore before x hpre
      · intro h
        exact ⟨h calls c (.inl rfl), fun before x hpre => h before x (.inr hpre)⟩

end RedisPresenceDirectory

open RedisPresenceDirectory

/-- **The adapters agree unless a lookup finds a removed entry.**  For every list of calls whose
times and epochs are printed exactly, the two adapters return equal results for every call if and
only if no lookup is made for a user whose entry the server has removed because its lease has run
out. -/
theorem adapters_agree (R : RedisEngine) {ttlMs : ℤ} (httl : 0 < ttlMs)
    {calls : List (ℤ × PresenceCall)}
    (hrange : ∀ c ∈ calls, |c.1| < 10 ^ 14 ∧ |c.1 + ttlMs| < 10 ^ 14)
    (hlen : calls.length < 10 ^ 14) :
    (run R { ttlMs := ttlMs } calls).1 =
        (InMemoryPresenceDirectory.run { ttlMs := ttlMs } calls).1 ↔
      ∀ before c, before ++ [c] <+: calls →
        Visible R (InMemoryPresenceDirectory.run { ttlMs := ttlMs } before).2 c.1 c.2 :=
  (agreesAfter httl hrange hlen).histories

/-! ### An engine -/

/-- A text as a list in which every character is marked, closed by an unmarked one. -/
def quoted (s : String) : List Char := s.toList.flatMap (fun c => ['+', c]) ++ ['.']

/-- Read one text, and what comes after it. -/
def unquote : List Char → Option (List Char × List Char)
  | '.' :: rest => some ([], rest)
  | '+' :: c :: rest => (unquote rest).map fun (cs, rest) => (c :: cs, rest)
  | _ => none

lemma unquote_quoted (s : String) (rest : List Char) :
    unquote (quoted s ++ rest) = some (s.toList, rest) := by
  unfold quoted
  induction s.toList with
  | nil => rfl
  | cons c cs ih =>
    have hstep : (c :: cs).flatMap (fun c => ['+', c]) ++ ['.'] ++ rest =
        '+' :: c :: (cs.flatMap (fun c => ['+', c]) ++ ['.'] ++ rest) := by simp
    rw [hstep, unquote, ih]
    rfl

/-- Read the four texts of a value. -/
def unquoteValue (text : String) : Option PresenceValue := do
  let (g, rest) ← unquote text.toList
  let (c, rest) ← unquote rest
  let (e, rest) ← unquote rest
  let (x, _) ← unquote rest
  some ⟨String.ofList g, String.ofList c, String.ofList e, String.ofList x⟩

lemma unquoteValue_quoted (v : PresenceValue) : unquoteValue (String.ofList
    (quoted v.g ++ quoted v.c ++ quoted v.e ++ quoted v.x)) = some v := by
  have hx := unquote_quoted v.x []
  rw [List.append_nil] at hx
  simp [unquoteValue, unquote_quoted, hx]

/-- An engine with exact numbers, which removes a key when its deadline has passed. -/
def plainEngine : RedisEngine where
  number := id
  number_exact _ _ := rfl
  number_mono := monotone_id
  tostring := toString
  tostring_exact _ _ := rfl
  tonumber := String.toInt?
  tonumber_toString n := by rw [Int.toString_eq_repr, Int.toInt?_repr]; rfl
  encode v := String.ofList (quoted v.g ++ quoted v.c ++ quoted v.e ++ quoted v.x)
  decode := unquoteValue
  decode_encode := unquoteValue_quoted
  parse := unquoteValue
  parse_encode := unquoteValue_quoted
  gone deadline now := decide (deadline < now)
  gone_of_lt _ _ h := decide_eq_true h
  not_gone_of_lt _ _ h := decide_eq_false (by omega)

lemma stored_login : (InMemoryPresenceDirectory.run { ttlMs := 10 }
    [(0, .claim ⟨7⟩ ⟨1⟩ ⟨10⟩)]).2.entries[(⟨7⟩ : UserId)]? = some ⟨⟨1⟩, ⟨10⟩, ⟨1⟩, 10⟩ := by
  decide +kernel

/-- A user logs in and is looked up. -/
def foundUser : List (ℤ × PresenceCall) := [(0, .claim ⟨7⟩ ⟨1⟩ ⟨10⟩), (5, .locate ⟨7⟩)]

/-- While the lease has not run out, the lookup is answered alike. -/
theorem adapters_agree_foundUser :
    (run plainEngine { ttlMs := 10 } foundUser).1 =
      (InMemoryPresenceDirectory.run { ttlMs := 10 } foundUser).1 := by
  refine (adapters_agree plainEngine (by decide) (by decide) (by decide)).2 fun before c hpre => ?_
  rcases before with _ | ⟨x, _ | ⟨y, before⟩⟩
  · simp only [foundUser, List.nil_append, List.cons_prefix_cons] at hpre
    rw [hpre.1]
    trivial
  · simp only [foundUser, List.cons_append, List.nil_append, List.cons_prefix_cons] at hpre
    obtain ⟨rfl, rfl, -⟩ := hpre
    intro entry hentry
    obtain rfl := Option.some.inj (stored_login.symm.trans hentry)
    rfl
  · simp [foundUser, List.cons_prefix_cons] at hpre

/-- A user logs in, and is looked up when the lease has run out. -/
def expiredUser : List (ℤ × PresenceCall) := [(0, .claim ⟨7⟩ ⟨1⟩ ⟨10⟩), (20, .locate ⟨7⟩)]

/-- In memory the lookup reports a lease that has run out, on Redis it reports that there is
none. -/
theorem adapters_differ :
    (run plainEngine { ttlMs := 10 } expiredUser).1 ≠
        (InMemoryPresenceDirectory.run { ttlMs := 10 } expiredUser).1 ∧
      ((run plainEngine { ttlMs := 10 } expiredUser).2.locate plainEngine 20 ⟨7⟩).expired = false ∧
      ((InMemoryPresenceDirectory.run { ttlMs := 10 } expiredUser).2.locate 20 ⟨7⟩).expired =
        true := by
  have hafter : AgreesAfter plainEngine 10 expiredUser :=
    agreesAfter (by decide) (by decide) (by decide)
  refine ⟨fun h => ?_, ?_, by decide +kernel⟩
  · have hvisible := hafter.histories.1 h [(0, .claim ⟨7⟩ ⟨1⟩ ⟨10⟩)] (20, .locate ⟨7⟩)
      (List.prefix_refl _)
    exact absurd (hvisible _ stored_login) (by decide)
  · rw [hafter.agrees.locate_gone stored_login (by decide)]

end MuduoChat
