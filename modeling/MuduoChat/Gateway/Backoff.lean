import MuduoChat.Gateway.ClaimBound
import MuduoChat.Gateway.Punctual

/-!
# The time between two attempts

After an attempt that the sink has accepted, the row is in flight and scheduled for a later attempt.
The scan for overdue acknowledgements keeps to the schedule.  A claim does not look at it: it takes a
row in flight as soon as its lease has run out.  So the schedule is kept exactly as long as it lies
within the lease.
-/

namespace MuduoChat

open Coordinator ReliableMessaging Prog InMemoryMessageStore Relation

/-! ### The delay -/

structure RetryConfig.Positive (config : RetryConfig) : Prop where
  ackTimeoutMs : 0 < config.ackTimeoutMs
  backoffBaseMs : 0 < config.backoffBaseMs
  backoffCapMs : 0 < config.backoffCapMs
  backoffMultiplier : 0 < config.backoffMultiplier

/-- The time from an attempt to the next one: exponential backoff up to a cap, and at least the time
an acknowledgement is given. -/
def RetryConfig.redeliverAfter (config : RetryConfig) (attempt : ℕ) : ℤ :=
  max config.ackTimeoutMs
    (min (config.backoffBaseMs * config.backoffMultiplier ^ (attempt - 1)) config.backoffCapMs)

section Delay

variable {config : RetryConfig}

/-- The loop may stop early, but not before the cap is reached. -/
lemma min_backoffLoop (hmult : 1 ≤ config.backoffMultiplier) (n : ℕ) {delay : ℤ}
    (hdelay : 0 ≤ delay) :
    min (backoffLoop config n delay) config.backoffCapMs =
      min (delay * config.backoffMultiplier ^ n) config.backoffCapMs := by
  induction n generalizing delay with
  | zero => simp [backoffLoop]
  | succ n ih =>
    have hpow : 1 ≤ config.backoffMultiplier ^ n := one_le_pow₀ hmult
    have hgrow : delay * config.backoffMultiplier ≤ delay * config.backoffMultiplier ^ (n + 1) := by
      rw [pow_succ']
      exact mul_le_mul_of_nonneg_left (le_mul_of_one_le_right (by omega) hpow) hdelay
    have hself : delay ≤ delay * config.backoffMultiplier := le_mul_of_one_le_right hdelay hmult
    unfold backoffLoop
    split
    · split
      · -- the product would pass the cap
        rename_i hlt hover
        rw [Int.tdiv_eq_ediv_of_nonneg (by omega)] at hover
        have hcap := Int.lt_mul_of_ediv_lt (by omega) hover.2
        rw [min_self, min_eq_right (hcap.le.trans hgrow)]
      · rw [ih (hdelay.trans hself), pow_succ', mul_assoc]
    · rename_i hcap
      rw [min_eq_right (not_lt.1 hcap), min_eq_right ((not_lt.1 hcap).trans (hself.trans hgrow))]

lemma backoffBase_eq (hbase : 0 ≤ config.backoffBaseMs) (hmult : 1 ≤ config.backoffMultiplier)
    (attempt : ℕ) :
    backoffBase config attempt =
      min (config.backoffBaseMs * config.backoffMultiplier ^ (attempt - 1))
        config.backoffCapMs := by
  rw [← min_backoffLoop hmult _ hbase]
  unfold backoffBase
  dsimp only
  split
  · rename_i hover
    rw [min_eq_right hover.le]
  · rename_i hunder
    rw [min_eq_left (not_lt.1 hunder)]

end Delay

/-! ### The row while it waits -/

variable {ι : Type}

/-- A process is about to record that a row is in flight. -/
def Records (a : Setup.State ι) (i : ι) (d : Delivery) : Prop :=
  (∃ op start cont, a.running = some ⟨i, op, start, .call (.store (.updateDelivery d)) cont⟩) ∧
    d.state = .inFlight

section Steps

variable [DecidableEq ι] {S : Setup ι} {a b : Setup.State ι} {i : ι} {d : Delivery}

/-- What is recorded after the sink has accepted an attempt. -/
structure Setup.Recorded (S : Setup ι) (a : Setup.State ι) (i : ι) (d : Delivery) : Prop where
  present : (a.world.store.row d.key).isSome
  accepted : ∃ attempt, a.world.sent.head? = some (attempt, .accepted) ∧ attempt.key = d.key ∧
    attempt.attemptNumber = d.attemptCount
  lastSent : d.lastSentAtMs = a.world.clock
  leaseUntil : d.leaseUntilMs = a.world.clock + Json.toInt64 S.leaseMs
  leaseBoot : d.leaseBootId = S.bootId i
  scheduled : ∃ delay, (S.messaging i).MayDelay d.attemptCount delay ∧
    d.nextAttemptAtMs = a.world.clock + delay

lemma Setup.Reachable.recorded (h : S.Reachable a) (hrec : Records a i d) : S.Recorded a i d := by
  obtain ⟨⟨op, start, cont, hr⟩, hstate⟩ := hrec
  obtain ⟨⟨cur, hcur, hwrite⟩, htime⟩ := h.allowed_call hr
  rcases hwrite with ⟨_, _, -, hack⟩ | hrel | ⟨session, message, hclaim⟩
  · rw [hack.eq] at hstate
    simp [acked] at hstate
  · rw [hrel.eq] at hstate
    simp [released] at hstate
  obtain ⟨delay, rfl⟩ := hclaim.eq
  exact ⟨by rw [hcur]; rfl, ⟨_, hclaim.sent, rfl, rfl⟩, rfl, rfl, rfl, htime hstate⟩

end Steps

variable {a : Setup.State Unit}

end MuduoChat
