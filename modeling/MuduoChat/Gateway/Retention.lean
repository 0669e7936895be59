import MuduoChat.Gateway.Runs

/-!
# No delivery is lost early

The life of a delivery row, from the step that creates it.  A row is removed only by a tick,
after it has been acknowledged or expired for long enough; it expires only at a tick after its
retention; and it is acknowledged only by its recipient or, for a legacy message, by the sink.
-/

namespace MuduoChat

open Std Coordinator ReliableMessaging InMemoryMessageStore

variable {ι : Type} [DecidableEq ι] {S : Setup ι} {k : DeliveryKey} {t₀ : ℤ} {ta : Option ℤ}
  {x y : Setup.State ι}

/-- The time since which a row is acknowledged, if it is, after a step at the given time. -/
def ackedSince (clock : ℤ) (before after : DeliveryState) (ta : Option ℤ) : Option ℤ :=
  if after = .acknowledged then
    if before = .acknowledged then ta else some clock
  else
    none

/-- The row under a key was created at the time `t₀` and has been there ever since; if it is
acknowledged, then since the time `ta`. -/
inductive Life (S : Setup ι) (k : DeliveryKey) (t₀ : ℤ) : Setup.State ι → Option ℤ → Prop
  | born {x y : Setup.State ι} {d : Delivery} (hreach : S.Reachable x) (hstep : S.Step x y)
      (hbefore : x.world.store.row k = none) (hafter : y.world.store.row k = some d)
      (htime : x.world.clock = t₀) : Life S k t₀ y none
  | lives {x y : Setup.State ι} {cur d : Delivery} {ta : Option ℤ} (hlife : Life S k t₀ x ta)
      (hstep : S.Step x y) (hbefore : x.world.store.row k = some cur)
      (hafter : y.world.store.row k = some d) :
      Life S k t₀ y (ackedSince x.world.clock cur.state d.state ta)

lemma Life.reachable (h : Life S k t₀ x ta) : S.Reachable x := by
  induction h with
  | born hreach hstep => exact hreach.step hstep
  | lives _ hstep _ _ ih => exact ih.step hstep

lemma Setup.Reachable.row_step (h : S.Reachable x) (hstep : S.Step x y)
    (hne : y.world.store.row k ≠ x.world.store.row k) :
    ∃ r, x.running = some r ∧
      RowStep S r.who r.op r.start x.world k (x.world.store.row k) (y.world.store.row k) :=
  (h.row_cases hstep k).resolve_left hne

lemma expiresAtMs_of_born {d : Delivery} (hreach : S.Reachable x) (hstep : S.Step x y)
    (hbefore : x.world.store.row k = none) (hafter : y.world.store.row k = some d) :
    d.expiresAtMs = x.world.clock + S.config.messageRetentionMs ∧ d.state = .pending := by
  obtain ⟨r, -, hrow⟩ := hreach.row_step hstep (k := k) (by simp [hbefore, hafter])
  rw [hbefore, hafter] at hrow
  cases hrow with
  | create => exact ⟨rfl, rfl⟩

/-- The invariant of a life: the row carries the times of its history. -/
lemma Life.row (h : Life S k t₀ x ta) :
    ∃ d, x.world.store.row k = some d ∧ d.expiresAtMs = t₀ + S.config.messageRetentionMs ∧
      (d.state = .acknowledged → ta = some d.acknowledgedAtMs) := by
  induction h with
  | @born x y d hreach hstep hbefore hafter htime =>
    obtain ⟨hexp, hstate⟩ := expiresAtMs_of_born hreach hstep hbefore hafter
    exact ⟨d, hafter, by rw [hexp, htime], by simp [hstate]⟩
  | @lives x y cur d ta hlife hstep hbefore hafter ih =>
    obtain ⟨_, hcur, hexp, hacked⟩ := ih
    obtain rfl := Option.some.inj (hbefore.symm.trans hcur)
    refine ⟨d, hafter, ?_⟩
    rcases hlife.reachable.row_cases hstep k with hsame | ⟨r, -, hrow⟩
    · rw [hbefore, hafter] at hsame
      cases hsame
      refine ⟨hexp, fun hd => ?_⟩
      rw [ackedSince, if_pos hd, if_pos hd, hacked hd]
    · rw [hbefore, hafter] at hrow
      refine ⟨hrow.expiresAtMs_eq.trans hexp, fun hd => ?_⟩
      rw [ackedSince, if_pos hd]
      by_cases hc : cur.state = .acknowledged
      · rcases hrow.of_terminal (by simp [hc]) with rfl | ⟨hexpired, -⟩
        · rw [if_pos hc, hacked hc]
        · exact absurd (hc.symm.trans hexpired) (by simp)
      · rw [if_neg hc, (hrow.acks hc hd).1]

/-- What a step can do to a row in view of its history. -/
structure Retained (S : Setup ι) (k : DeliveryKey) (t₀ : ℤ) (ta : Option ℤ)
    (x y : Setup.State ι) : Prop where
  /-- Only a tick removes the row, if it has been acknowledged or expired for long enough. -/
  removed : y.world.store.row k = none → ∃ r d, x.running = some r ∧ r.op.ticks = true ∧
    x.world.store.row k = some d ∧
    ((d.state = .acknowledged ∧ ∃ t, ta = some t ∧
        t ≤ x.world.clock - S.config.ackedRetentionMs) ∨
      (d.state = .expired ∧
        t₀ + S.config.messageRetentionMs ≤ x.world.clock - S.config.expiredRetentionMs))
  /-- The row expires only at a tick after its retention. -/
  expires : ∀ d d', x.world.store.row k = some d → y.world.store.row k = some d' →
    d.state ≠ .expired → d'.state = .expired → ∃ r, x.running = some r ∧ r.op.ticks = true ∧
      t₀ + S.config.messageRetentionMs < x.world.clock
  /-- The row is acknowledged only by its recipient or, for a legacy message, after the sink
  has accepted an attempt for it. -/
  acknowledged : ∀ d d', x.world.store.row k = some d → y.world.store.row k = some d' →
    d.state ≠ .acknowledged → d'.state = .acknowledged → ∃ r, x.running = some r ∧
      ((∃ acker messageId, r.op = .acknowledge acker messageId ∧
          messageId.value = k.messageId ∧ acker.userId.value = k.recipient) ∨
        ∃ message attempt, x.world.store.findMessage ⟨k.messageId⟩ = some message ∧
          isLegacyClientMessageId message.command.clientMessageId.value = true ∧
          x.world.sent.head? = some (attempt, .accepted) ∧
          attempt.messageId.value = k.messageId ∧ attempt.recipient.value = k.recipient)

/-- **No accepted delivery is lost early.**  This holds at every step in the life of a row,
for any clock and any answers of the sink. -/
theorem delivery_retained (h : Life S k t₀ x ta) (hstep : S.Step x y) : Retained S k t₀ ta x y := by
  obtain ⟨cur, hcur, hexp, hacked⟩ := h.row
  have hkey := h.reachable.rows.key_eq hcur
  refine ⟨fun hnone => ?_, fun d d' hd hd' hne hexpired => ?_, fun d d' hd hd' hne hack => ?_⟩
  · obtain ⟨r, hr, hrow⟩ := h.reachable.row_step hstep (k := k) (by simp [hnone, hcur])
    rw [hcur, hnone] at hrow
    refine ⟨r, cur, hr, ?_⟩
    cases hrow with
    | remove hop hdue =>
      refine ⟨hop, hcur, hdue.imp (fun hacks => ?_) fun hexpires => ?_⟩
      · exact ⟨hacks.1, _, hacked hacks.1, hacks.2⟩
      · exact ⟨hexpires.1, hexp ▸ hexpires.2⟩
  · obtain rfl := Option.some.inj (hcur.symm.trans hd)
    obtain ⟨r, hr, hrow⟩ := h.reachable.row_step hstep (k := k)
      (by rw [hd, hd']; rintro ⟨⟩; exact hne hexpired)
    rw [hd, hd'] at hrow
    obtain ⟨hticks, hdue⟩ := hrow.expires hne hexpired
    exact ⟨r, hr, hticks, hexp ▸ hdue⟩
  · obtain rfl := Option.some.inj (hcur.symm.trans hd)
    obtain ⟨r, hr, hrow⟩ := h.reachable.row_step hstep (k := k)
      (by rw [hd, hd']; rintro ⟨⟩; exact hne hack)
    rw [hd, hd'] at hrow
    refine ⟨r, hr, ?_⟩
    rw [← hkey]
    rcases (hrow.acks hne hack).2 with ⟨acker, messageId, hop, hwrite⟩ | ⟨session, message, hclaim, hlegacy⟩
    · exact .inl ⟨acker, messageId, hop, by rw [← hwrite.message]; rfl,
        by rw [← hwrite.mine]; rfl⟩
    · refine .inr ⟨message, _, hclaim.found, hlegacy, hclaim.sent, ?_⟩
      rw [x.world.store.fillSequence_eq cur]
      exact ⟨rfl, rfl⟩

/-! ### A row from its creation to its removal -/

/-- Follow the life of a row along a list of choices. -/
def followLife (S : Setup ι) (k : DeliveryKey) :
    List (Serial.Choice ι Env Op) → Setup.State ι × Option ℤ → Option (Setup.State ι × Option ℤ)
  | [], p => some p
  | l :: ls, p => do
      let y ← S.system.next p.1 l
      let cur ← p.1.world.store.row k
      let d ← y.world.store.row k
      followLife S k ls (y, ackedSince p.1.world.clock cur.state d.state p.2)

lemma Life.follow {ls : List (Serial.Choice ι Env Op)} {p q : Setup.State ι × Option ℤ}
    (h : Life S k t₀ p.1 p.2) (hq : followLife S k ls p = some q) : Life S k t₀ q.1 q.2 := by
  induction ls generalizing p with
  | nil =>
    cases hq
    exact h
  | cons l ls ih =>
    simp only [followLife, Option.bind_eq_bind, Option.bind_eq_some_iff] at hq
    obtain ⟨y, hy, cur, hcur, d, hd, hrest⟩ := hq
    exact ih (.lives h ⟨l, hy⟩ hcur hd) hrest

namespace ShortRetention

/-- A gateway that keeps messages for five milliseconds, and expired rows for five more. -/
def setup : Setup Unit where
  leaseMs := 30000
  config := { messageRetentionMs := 5, expiredRetentionMs := 5 }
  bootId _ := 1

/-- A message is being accepted at the time 1000; its row has not been written yet. -/
def unborn : Setup.State Unit :=
  setup.system.play (.initial {})
    [⟨(), .accept ⟨⟨1⟩, 1⟩ (directTo 2 ⟨"a", valid_a⟩), { now := 1000 }, 5⟩]

/-- The row has just been written. -/
def born : Setup.State Unit :=
  (setup.system.next unborn (.advance {})).get (by decide +kernel)

/-- The operation ends, and a tick at the time 100000 has expired the row. -/
def expired : Setup.State Unit × Option ℤ :=
  (followLife setup ⟨1, 2⟩
    (List.replicate 5 (.advance {}) ++ [.invoke () .runTick] ++
      List.replicate 6 (.advance { now := 100000 })) (born, none)).get (by decide +kernel)

/-- The tick has removed the row. -/
def removed : Setup.State Unit :=
  (setup.system.next expired.1 (.advance {})).get (by decide +kernel)

end ShortRetention

open ShortRetention in
theorem delivery_retained_shortRetention :
    removed.world.store.row ⟨1, 2⟩ = none ∧
      (expired.1.world.store.row ⟨1, 2⟩).map Delivery.state = some .expired ∧
      Life setup ⟨1, 2⟩ 1000 expired.1 expired.2 ∧
      Retained setup ⟨1, 2⟩ 1000 expired.2 expired.1 removed := by
  have hborn : Life setup ⟨1, 2⟩ 1000 born none := by
    have hrow : ∃ d, born.world.store.row ⟨1, 2⟩ = some d :=
      Option.isSome_iff_exists.1 (by decide +kernel)
    obtain ⟨d, hd⟩ := hrow
    exact .born (x := unborn) (setup.reachable_play (World.initial_users []) _)
      ⟨_, (Option.some_get _).symm⟩ (Option.isNone_iff_eq_none.1 (by decide +kernel)) hd
      (by decide +kernel)
  have hlife : Life setup ⟨1, 2⟩ 1000 expired.1 expired.2 :=
    Life.follow (p := (born, none)) hborn (Option.some_get _).symm
  exact ⟨Option.isNone_iff_eq_none.1 (by decide +kernel), by decide +kernel, hlife,
    delivery_retained hlife ⟨_, (Option.some_get _).symm⟩⟩

end MuduoChat
