import MuduoChat.Gateway.Backoff
import MuduoChat.Lib.Double

/-!
# Times and the range of 64 bits

The loader of the configuration accepts every positive number of 64 bits for a period.  The code
adds periods to the time, and the sums are signed numbers of 64 bits as well.  Which of the accepted
configurations keep all sums in range, at any time up to `2 ^ 60`, is a question of a few bounds on
the periods.
-/

namespace MuduoChat

open Coordinator RetryConfig

/-! ### The section of the configuration -/

structure FieldError where
  field : String
  what : String
  deriving DecidableEq

/-- Read a positive number.  A field that is missing or wrong leaves the default. -/
def getPositive (max : ℤ) (range : String) (obj : Json) (key : String) (default : ℤ) :
    ℤ × List FieldError :=
  match obj.field? key with
  | none => (default, [])
  | some (.unsigned n) => check (Json.toInt64 n)
  | some (.integer z) => check (Json.toInt64 z)
  | some _ => (default, [⟨"reliable." ++ key, "must be an integer"⟩])
where
  check (v : ℤ) : ℤ × List FieldError :=
    if v < 1 ∨ v > max then (default, [⟨"reliable." ++ key, range⟩]) else (v, [])

def getInt64Positive : Json → String → ℤ → ℤ × List FieldError :=
  getPositive (2 ^ 63 - 1) "must be >= 1"

def getUint32Positive : Json → String → ℤ → ℤ × List FieldError :=
  getPositive 4294967295 "must be in [1,4294967295]"

/-- Read the fraction of the jitter.  The value of a floating point number is a parameter. -/
def getJitterFraction (toDouble : FloatToken → ℚ) (obj : Json) (key : String) (default : ℚ) :
    ℚ × List FieldError :=
  match obj.field? key with
  | none => (default, [])
  | some (.unsigned n) => check n
  | some (.integer z) => check z
  | some (.float f) => check (toDouble f)
  | some _ => (default, [⟨"reliable." ++ key, "must be a number"⟩])
where
  check (v : ℚ) : ℚ × List FieldError :=
    if v < 0 ∨ v > 1 then (default, [⟨"reliable." ++ key, "must be in [0,1]"⟩]) else (v, [])

def checkKnownFields (obj : Json) (known : List String) : List FieldError :=
  match obj with
  | .obj fields =>
    (fields.filter fun f => f.1 ∉ known).map fun f => ⟨"reliable." ++ f.1, "unknown field"⟩
  | _ => []

/-- The section of the reliable messages, with all that is wrong with it. -/
def parseReliableSection (toDouble : FloatToken → ℚ) (reliable : Json) :
    RetryConfig × List FieldError :=
  let d : RetryConfig := {}
  let ackTimeoutMs := getInt64Positive reliable "ack_timeout_ms" d.ackTimeoutMs
  let backoffBaseMs := getInt64Positive reliable "backoff_base_ms" d.backoffBaseMs
  let backoffCapMs := getInt64Positive reliable "backoff_cap_ms" d.backoffCapMs
  let backoffMultiplier := getInt64Positive reliable "backoff_multiplier" d.backoffMultiplier
  let jitterFraction := getJitterFraction toDouble reliable "jitter_fraction" d.jitterFraction
  let jitterSeed := getUint32Positive reliable "jitter_seed" 0
  let messageRetentionMs := getInt64Positive reliable "message_retention_ms" d.messageRetentionMs
  let ackedRetentionMs := getInt64Positive reliable "acked_retention_ms" d.ackedRetentionMs
  let expiredRetentionMs := getInt64Positive reliable "expired_retention_ms" d.expiredRetentionMs
  let cleanupBatch := getUint32Positive reliable "cleanup_batch" d.cleanupBatch
  let cleanupCycleMs := getInt64Positive reliable "cleanup_cycle_ms" d.cleanupCycleMs
  let retryBatchLimit := getUint32Positive reliable "retry_batch_limit" d.retryBatchLimit
  ({ ackTimeoutMs := ackTimeoutMs.1
     backoffBaseMs := backoffBaseMs.1
     backoffCapMs := backoffCapMs.1
     backoffMultiplier := backoffMultiplier.1
     jitterFraction := jitterFraction.1
     messageRetentionMs := messageRetentionMs.1
     ackedRetentionMs := ackedRetentionMs.1
     expiredRetentionMs := expiredRetentionMs.1
     cleanupBatch := cleanupBatch.1.toNat
     cleanupCycleMs := cleanupCycleMs.1
     retryBatchLimit := retryBatchLimit.1.toNat },
    checkKnownFields reliable
        ["ack_timeout_ms", "backoff_base_ms", "backoff_cap_ms", "backoff_multiplier",
          "jitter_fraction", "jitter_seed", "message_retention_ms", "acked_retention_ms",
          "expired_retention_ms", "cleanup_batch", "cleanup_cycle_ms", "retry_batch_limit"] ++
      ackTimeoutMs.2 ++ backoffBaseMs.2 ++ backoffCapMs.2 ++ backoffMultiplier.2 ++
      jitterFraction.2 ++ jitterSeed.2 ++ messageRetentionMs.2 ++ ackedRetentionMs.2 ++
      expiredRetentionMs.2 ++ cleanupBatch.2 ++ cleanupCycleMs.2 ++ retryBatchLimit.2)

/-! ### Sums -/

def kLeaseMsPlaceholder : ℕ := 30000

/-- A signed number of 64 bits. -/
def InInt64 (v : ℤ) : Prop := -2 ^ 63 ≤ v ∧ v < 2 ^ 63

/-- The sums that are formed at a time: the deadline of a new delivery, the two times of a row that
a claim writes, its next attempt rounded up and the time to wait for it, and the comparisons and
limits of the cleanup. -/
def RetryConfig.sums (config : RetryConfig) (granularityMs : ℕ) (now lastCleanupMs : ℤ)
    (row : Delivery) : List ℤ :=
  [now + config.messageRetentionMs, row.leaseUntilMs, row.nextAttemptAtMs,
    row.nextAttemptAtMs + granularityMs, row.nextAttemptAtMs + granularityMs - 1,
    ReliableMessaging.alignUp granularityMs row.nextAttemptAtMs,
    ReliableMessaging.alignUp granularityMs row.nextAttemptAtMs - now,
    config.ackTimeoutMs + granularityMs, config.ackTimeoutMs + granularityMs - 1,
    now - lastCleanupMs, lastCleanupMs + config.cleanupCycleMs,
    lastCleanupMs + config.cleanupCycleMs - now, now - config.ackedRetentionMs,
    now - config.expiredRetentionMs]

/-- The backoff with a draw of the jitter.  The code computes with doubles and cuts the product
off. -/
def RetryConfig.jittered (config : RetryConfig) (delay : ℤ) (x : ℚ) : ℤ :=
  if config.jitterFraction > 0 ∧ delay > 1 then max 1 ⌊double (double delay * double (1 + x))⌋
  else delay

/-- The delays after an attempt.  The draw is between minus and plus the fraction. -/
def Coordinator.Delays (co : Coordinator) (attempt : ℕ) (delay : ℤ) : Prop :=
  ∃ x : ℚ, -co.config.jitterFraction ≤ x ∧ x ≤ co.config.jitterFraction ∧
    delay = max (co.config.jittered (backoffBase co.config attempt) x) co.config.ackTimeoutMs

/-- The greatest backoff, without jitter. -/
def RetryConfig.greatestBase (config : RetryConfig) : ℤ :=
  if config.backoffMultiplier = 1 then min config.backoffBaseMs config.backoffCapMs
  else config.backoffCapMs

def RetryConfig.greatestDelay (config : RetryConfig) : ℤ :=
  max (config.jittered config.greatestBase config.jitterFraction) config.ackTimeoutMs

/-- The periods leave room for the time. -/
structure RetryConfig.Bounded (config : RetryConfig) (granularityMs : ℕ) : Prop where
  retention : config.messageRetentionMs < 2 ^ 63 - 2 ^ 60
  cycle : config.cleanupCycleMs < 2 ^ 63 - 2 ^ 60
  delay : config.greatestDelay + granularityMs < 2 ^ 63 - 2 ^ 60

/-! ### What the loader accepts -/

/-- The ranges of an accepted section. -/
structure RetryConfig.InRange (config : RetryConfig) : Prop extends config.Positive where
  cap_le : config.backoffCapMs < 2 ^ 63
  retention : 0 < config.messageRetentionMs
  acked : 0 < config.ackedRetentionMs ∧ config.ackedRetentionMs < 2 ^ 63
  expired : 0 < config.expiredRetentionMs ∧ config.expiredRetentionMs < 2 ^ 63
  cycle : 0 < config.cleanupCycleMs
  jitter : 0 ≤ config.jitterFraction ∧ config.jitterFraction ≤ 1

lemma getInt64Positive_range (obj : Json) (key : String) {d : ℤ} (hd : 0 < d ∧ d < 2 ^ 63) :
    0 < (getInt64Positive obj key d).1 ∧ (getInt64Positive obj key d).1 < 2 ^ 63 := by
  unfold getInt64Positive getPositive
  split <;> (try unfold getPositive.check) <;> (try split) <;> simp only [] <;> omega

lemma getJitterFraction_range (toDouble : FloatToken → ℚ) (obj : Json) (key : String) {d : ℚ}
    (hd : 0 ≤ d ∧ d ≤ 1) :
    0 ≤ (getJitterFraction toDouble obj key d).1 ∧ (getJitterFraction toDouble obj key d).1 ≤ 1 := by
  unfold getJitterFraction
  split <;> (try unfold getJitterFraction.check) <;> (try split) <;> simp_all

lemma inRange_parseReliableSection (toDouble : FloatToken → ℚ) (reliable : Json) :
    (parseReliableSection toDouble reliable).1.InRange where
  ackTimeoutMs := (getInt64Positive_range _ _ (by decide)).1
  backoffBaseMs := (getInt64Positive_range _ _ (by decide)).1
  backoffCapMs := (getInt64Positive_range _ _ (by decide)).1
  backoffMultiplier := (getInt64Positive_range _ _ (by decide)).1
  cap_le := (getInt64Positive_range _ _ (by decide)).2
  retention := (getInt64Positive_range _ _ (by decide)).1
  acked := getInt64Positive_range _ _ (by decide)
  expired := getInt64Positive_range _ _ (by decide)
  cycle := (getInt64Positive_range _ _ (by decide)).1
  jitter := getJitterFraction_range _ _ _ (by norm_num)

/-! ### The greatest delay -/

section Greatest

variable {co : Coordinator} {config : RetryConfig} {attempt : ℕ} {delay : ℤ}

lemma backoffBase_bounds (h : config.InRange) (attempt : ℕ) :
    0 < backoffBase config attempt ∧ backoffBase config attempt ≤ config.greatestBase := by
  rw [backoffBase_eq h.backoffBaseMs.le h.backoffMultiplier, greatestBase]
  refine ⟨lt_min (mul_pos h.backoffBaseMs (pow_pos h.backoffMultiplier _)) h.backoffCapMs, ?_⟩
  split
  · rename_i hone
    rw [hone, one_pow, mul_one]
  · exact min_le_right _ _

lemma backoffBase_greatest (h : config.InRange) : backoffBase config 64 = config.greatestBase := by
  rw [backoffBase_eq h.backoffBaseMs.le h.backoffMultiplier, greatestBase]
  split
  · rename_i hone
    rw [hone, one_pow, mul_one]
  · rename_i hone
    have hmult := h.backoffMultiplier
    have hpow : (2 : ℤ) ^ 63 ≤ config.backoffMultiplier ^ 63 :=
      pow_le_pow_left₀ (by norm_num) (by omega) 63
    exact min_eq_right ((h.cap_le.le.trans hpow).trans
      (le_mul_of_one_le_left (pow_pos hmult 63).le h.backoffBaseMs))

lemma jittered_mono {delay delay' : ℤ} {x x' : ℚ} (hpos : 0 < delay) (hdelay : delay ≤ delay')
    (hlow : -1 ≤ x) (hx : x ≤ x') : config.jittered delay x ≤ config.jittered delay' x' := by
  have hcast : (delay : ℚ) ≤ delay' := by exact_mod_cast hdelay
  have hzero : (0 : ℚ) ≤ delay := by exact_mod_cast hpos.le
  have hfactor : 0 ≤ 1 + x := by linarith
  unfold jittered
  split_ifs with hjitter hjitter' hjitter'
  · refine max_le_max le_rfl (Int.floor_le_floor (double_mono ?_ ?_))
    · exact mul_nonneg (double_nonneg hzero) (double_nonneg hfactor)
    · exact mul_le_mul (double_mono hzero hcast) (double_mono hfactor (by linarith))
        (double_nonneg hfactor) (double_nonneg (hzero.trans hcast))
  · exact absurd ⟨hjitter.1, hjitter.2.trans_le hdelay⟩ hjitter'
  · exact le_max_of_le_left (not_lt.1 fun h => hjitter ⟨hjitter'.1, h⟩)
  · exact hdelay

lemma Coordinator.Delays.bounds (h : co.config.InRange) (hdelay : co.Delays attempt delay) :
    0 < delay ∧ delay ≤ co.config.greatestDelay := by
  obtain ⟨x, hlow, hx, rfl⟩ := hdelay
  obtain ⟨hpos, hle⟩ := backoffBase_bounds h attempt
  have hone : -1 ≤ x := (neg_le_neg h.jitter.2).trans hlow
  exact ⟨lt_max_of_lt_right h.ackTimeoutMs, max_le_max (jittered_mono hpos hle hone hx) le_rfl⟩

lemma delays_greatest (h : co.config.InRange) : co.Delays 64 co.config.greatestDelay := by
  have hjitter := h.jitter.1
  refine ⟨co.config.jitterFraction, by linarith, le_rfl, ?_⟩
  rw [backoffBase_greatest h, greatestDelay]

end Greatest

/-! ### The closed form -/

/-- The products that the loop of the backoff forms. -/
def backoffProducts (config : RetryConfig) : ℕ → ℤ → List ℤ
  | 0, _ => []
  | n + 1, delay =>
    if delay < config.backoffCapMs ∧ ¬(config.backoffMultiplier > 1 ∧
        delay > config.backoffCapMs.tdiv config.backoffMultiplier) then
      delay * config.backoffMultiplier ::
        backoffProducts config n (delay * config.backoffMultiplier)
    else []

lemma backoffProducts_bounds {config : RetryConfig} (hmult : 1 ≤ config.backoffMultiplier) {n : ℕ}
    {delay p : ℤ} (hdelay : 0 ≤ delay) (hp : p ∈ backoffProducts config n delay) :
    0 ≤ p ∧ p ≤ config.backoffCapMs := by
  induction n generalizing delay with
  | zero => cases hp
  | succ n ih =>
    rw [backoffProducts] at hp
    split at hp
    · rename_i hform
      have hnonneg : 0 ≤ delay * config.backoffMultiplier := mul_nonneg hdelay (by omega)
      obtain rfl | hp := List.mem_cons.1 hp
      · refine ⟨hnonneg, ?_⟩
        obtain hone | hmore := hmult.eq_or_lt
        · rw [← hone, mul_one]
          exact hform.1.le
        · have hle : delay ≤ config.backoffCapMs.tdiv config.backoffMultiplier := by
            by_contra! hover
            exact hform.2 ⟨hmore, hover⟩
          rw [Int.tdiv_eq_ediv_of_nonneg (by omega)] at hle
          exact (Int.le_ediv_iff_mul_le (by omega)).1 hle
      · exact ih hnonneg hp
    · cases hp

lemma redeliverAfter_mono {config : RetryConfig} (hbase : 0 ≤ config.backoffBaseMs)
    (hmult : 1 ≤ config.backoffMultiplier) : Monotone config.redeliverAfter := by
  intro m n hmn
  have hpow : config.backoffMultiplier ^ (m - 1) ≤ config.backoffMultiplier ^ (n - 1) :=
    pow_le_pow_right₀ hmult (by omega)
  exact max_le_max le_rfl (min_le_min (mul_le_mul_of_nonneg_left hpow hbase) le_rfl)

/-- **The backoff without jitter.**  After an attempt it is the power, up to the cap; the loop forms
no product outside the range of 64 bits; and the time to the next attempt does not decrease from one
attempt to a later one. -/
theorem backoff_closed_form (co : Coordinator) (hjitter : co.config.jitterFraction = 0)
    (hbase : 1 ≤ co.config.backoffBaseMs) (hcap : InInt64 co.config.backoffCapMs)
    (hmult : 1 ≤ co.config.backoffMultiplier) :
    (∀ attempt,
      co.backoffMs attempt = pure (min (co.config.backoffBaseMs *
        co.config.backoffMultiplier ^ (attempt - 1)) co.config.backoffCapMs) ∧
      (∀ p ∈ backoffProducts co.config (attempt - 1) co.config.backoffBaseMs, InInt64 p) ∧
      co.retryDelayMs attempt = pure (co.config.redeliverAfter attempt)) ∧
    Monotone co.config.redeliverAfter := by
  have hnonneg : 0 ≤ co.config.backoffBaseMs := by omega
  refine ⟨fun attempt => ?_, redeliverAfter_mono hnonneg hmult⟩
  have hbackoff : co.backoffMs attempt = pure (min (co.config.backoffBaseMs *
      co.config.backoffMultiplier ^ (attempt - 1)) co.config.backoffCapMs) := by
    rw [backoffMs, ← backoffBase_eq hnonneg hmult, hjitter]
    exact if_neg fun h => lt_irrefl _ h.1
  refine ⟨hbackoff, fun p hp => ?_, ?_⟩
  · obtain ⟨hlow, hhigh⟩ := backoffProducts_bounds hmult hnonneg hp
    exact ⟨by omega, hhigh.trans_lt hcap.2⟩
  · rw [retryDelayMs, hbackoff, redeliverAfter]
    refine congrArg (pure : ℤ → Code ℤ) ?_
    split <;> omega

theorem backoff_closed_form_third :
    Coordinator.backoffMs { leaseMs := 30000, config := { jitterFraction := 0 }, bootId := 1 } 3 =
      pure (min (1000 * 2 ^ 2) 60000) :=
  ((backoff_closed_form _ rfl (by decide) (by unfold InInt64; decide) (by decide)).1 3).1

/-- **Which accepted configurations keep the times in range.**  Whatever section has been read, all
sums are numbers of 64 bits at all times up to `2 ^ 60`, for all times of the last cleanup, attempts
and draws of the jitter, and the two stored times lie in the future, if and only if the retention,
the cycle of the cleanup and the greatest delay leave room for the time. -/
theorem sums_in_range_iff (toDouble : FloatToken → ℚ) (reliable : Json) (co : Coordinator)
    (hconfig : co.config = (parseReliableSection toDouble reliable).1)
    (hlease : co.leaseMs = kLeaseMsPlaceholder) (granularityMs : ℕ)
    (hgran : granularityMs = 1 ∨ granularityMs = 1000) :
    (∀ (now lastCleanupMs : ℤ) (attempt : ℕ) (delay : ℤ) (session : SessionIdentity)
        (legacy : Bool) (head : Delivery), 0 ≤ lastCleanupMs → lastCleanupMs ≤ now →
        now ≤ 2 ^ 60 → attempt < 2 ^ 32 → co.Delays attempt delay →
      let row := co.claimed session now delay legacy head
      (∀ v ∈ co.config.sums granularityMs now lastCleanupMs row, InInt64 v) ∧
        now < now + co.config.messageRetentionMs ∧ now < row.nextAttemptAtMs) ↔
      co.config.Bounded granularityMs := by
  have hrange : co.config.InRange := hconfig ▸ inRange_parseReliableSection toDouble reliable
  have hl : Json.toInt64 co.leaseMs = 30000 := by
    rw [hlease]
    decide
  constructor
  · intro h
    -- the latest time, the latest cleanup and the greatest delay
    obtain ⟨hsums, -⟩ := h (2 ^ 60) (2 ^ 60) 64 _ {} false {} (by norm_num) le_rfl le_rfl
      (by norm_num) (delays_greatest hrange)
    simp only [RetryConfig.sums, claimed, InInt64, List.forall_mem_cons] at hsums
    obtain ⟨hret, -, -, hnext, -, -, -, -, -, -, hcycle, -⟩ := hsums
    constructor <;> omega
  · intro h now last attempt delay session legacy head hlast hnow htime _ hdelay
    obtain ⟨hpos, hle⟩ := hdelay.bounds hrange
    have hack : co.config.ackTimeoutMs ≤ co.config.greatestDelay := le_max_right _ _
    have halign : ∀ t : ℤ, 0 ≤ t → t ≤ ReliableMessaging.alignUp granularityMs t ∧
        ReliableMessaging.alignUp granularityMs t < t + granularityMs := by
      intro t ht
      unfold ReliableMessaging.alignUp
      rcases hgran with rfl | rfl <;> rw [Int.tdiv_eq_ediv_of_nonneg (by push_cast; omega)] <;>
        push_cast <;> omega
    obtain ⟨hlo, hhi⟩ := halign (now + delay) (by omega)
    obtain ⟨hretention, hcycle, hgreatest⟩ := h
    have hp := hrange.retention
    have hc := hrange.cycle
    obtain ⟨ha₁, ha₂⟩ := hrange.acked
    obtain ⟨he₁, he₂⟩ := hrange.expired
    have hk := hrange.ackTimeoutMs
    refine ⟨?_, by omega, by simpa [claimed] using hpos⟩
    simp only [RetryConfig.sums, claimed, InInt64, hl, List.forall_mem_cons, List.not_mem_nil,
      false_imp_iff, implies_true, and_true]
    omega

/-- With an empty section the defaults hold, and they keep the times in range. -/
theorem sums_in_range_defaults :
    RetryConfig.Bounded {} 1000 ∧
      ∀ v ∈ RetryConfig.sums {} 1000 0 0 (claimed ⟨30000, {}, 1, 0⟩ {} 0 30000 false {}),
        InInt64 v := by
  have hbounded : RetryConfig.Bounded {} 1000 := by
    constructor <;> decide +kernel
  have hdelay : Coordinator.Delays ⟨30000, {}, 1, 0⟩ 1 30000 := by
    exact ⟨0, by norm_num, by norm_num, by decide +kernel⟩
  exact ⟨hbounded, ((sums_in_range_iff (fun _ => 0) (.obj []) ⟨30000, {}, 1, 0⟩ rfl rfl 1000
    (.inr rfl)).2 hbounded 0 0 1 30000 {} false {} le_rfl le_rfl (by norm_num) (by norm_num)
    hdelay).1⟩

/-- The greatest retention is accepted, and after the first millisecond the deadline is out of
range. -/
theorem retention_overflows :
    let js := Json.obj [("message_retention_ms", .unsigned (2 ^ 63 - 1))]
    (parseReliableSection (fun _ => 0) js).2 = [] ∧
      (parseReliableSection (fun _ => 0) js).1.messageRetentionMs = 2 ^ 63 - 1 ∧
      ¬InInt64 (1 + (parseReliableSection (fun _ => 0) js).1.messageRetentionMs) := by
  have hvalue : (parseReliableSection (fun _ => 0) (Json.obj
      [("message_retention_ms", .unsigned (2 ^ 63 - 1))])).1.messageRetentionMs = 2 ^ 63 - 1 := by
    decide +kernel
  refine ⟨by decide +kernel, hvalue, ?_⟩
  rw [hvalue, InInt64]
  norm_num

end MuduoChat
