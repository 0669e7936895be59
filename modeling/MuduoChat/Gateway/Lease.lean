import MuduoChat.Gateway.Runs

/-!
# Leases and the processes that hold them

A row in flight is on lease to a session of one process.  Processes count the generations of
their sessions independently, so two processes can have sessions with the same identity.
Closing a session and the retry scan compare identities only; where two of them coincide, one
process gives up the lease of the other.
-/

namespace MuduoChat

open Std Coordinator ReliableMessaging InMemoryMessageStore Relation

variable {ι : Type}

/-- The row under a key is in flight, on lease to a process, and the lease has not run
out. -/
structure LiveLease (S : Setup ι) (j : ι) (a : Setup.State ι) (k : DeliveryKey) (d : Delivery) :
    Prop where
  row : a.world.store.row k = some d
  inFlight : d.state = .inFlight
  boot : d.leaseBootId = S.bootId j
  live : a.world.clock < d.leaseUntilMs

/-- An operation of another process takes the owner of the lease for one of its own sessions:
it closes a session of that identity, or it runs a tick while a session of that identity is
active and not paused and the acknowledgement is overdue. -/
def Collides (j : ι) (a : Setup.State ι) (d : Delivery) : Prop :=
  ∃ r, a.running = some r ∧ r.who ≠ j ∧
    (r.op = .sessionClosed d.leaseOwner ∨
      r.op.ticks = true ∧ d.nextAttemptAtMs ≤ a.world.clock ∧
        (a.world.process r.who).activeByUser[d.recipient]? = some d.leaseOwner ∧
        d.leaseOwner ∉ (a.world.process r.who).paused)

/-- The ways in which a live lease may end. -/
inductive LeaseEnd (j : ι) (a b : Setup.State ι) (k : DeliveryKey) (d : Delivery)
    (r : Serial.Running Port ι (World ι) Op Reply) : Prop
  | own (hwho : r.who = j)
  | acknowledged (acker : SessionIdentity) (messageId : MessageId)
      (hop : r.op = .acknowledge acker messageId) (hacker : acker.userId = d.recipient)
  | expired (hop : r.op.ticks = true) (hdue : d.expiresAtMs < a.world.clock)
      (hrow : b.world.store.row k = some { d with state := .expired })
  | taken (session : SessionIdentity) (hop : r.op = .sessionAvailable session)
      (huser : session.userId = d.recipient)

variable [DecidableEq ι] {S : Setup ι} {a b : Setup.State ι} {j : ι} {k : DeliveryKey}
  {d : Delivery}

lemma Setup.Reachable.leaseEnd_of_step (h : S.Reachable a) (hstep : S.Step a b)
    (hlease : LiveLease S j a k d)
    (hno : ¬Collides j a d) (hchange : b.world.store.row k ≠ some d) :
    ∃ r, a.running = some r ∧ LeaseEnd j a b k d r := by
  have hrec := h.rows.leased hlease.row hlease.inFlight
  rcases h.row_cases hstep k with hsame | ⟨r, hr, hrow⟩
  · exact absurd (hsame.trans hlease.row) hchange
  refine ⟨r, hr, ?_⟩
  by_cases hwho : r.who = j
  · exact .own hwho
  generalize hafter : b.world.store.row k = y at hrow
  rw [hlease.row] at hrow
  cases hrow with
  | same => exact absurd hafter hchange
  | ack hop hack => exact .acknowledged _ _ hop hack.mine.symm
  | release hrel =>
    have hreason := hrel.reason
    generalize hop : r.op = op at hreason
    cases hreason with
    | fenced session huser => exact .taken session hop (huser.symm.trans hrec)
    | closed session howner => exact absurd ⟨r, hr, hwho, .inl (by rw [hop, howner])⟩ hno
    | overdue op hticks hdue hretry =>
      have hactive := (retrySession_eq_some.1 hretry).2
      exact absurd ⟨r, hr, hwho, .inr ⟨hop ▸ hticks, hdue, hactive⟩⟩ hno
  | claim hclaim =>
    -- a lease that has not run out cannot be claimed
    rcases claimable_iff.1 hclaim.claimable with hpending | ⟨-, hover⟩
    · exact absurd (hlease.inFlight.symm.trans hpending) (by simp)
    · exact absurd hlease.live (Int.not_lt.2 hover)
  | expire hop hopen hdue => exact .expired hop hdue hafter
  | remove hop hdue =>
    rw [hlease.inFlight] at hdue
    simp at hdue

/-- **A live lease is kept where identities do not collide.**  Take a run from a state with a
live lease, in which no operation of another process takes the owner of the lease for one of
its own sessions.  If the row is not as it was in some state of the run, then it has left the
lease in an operation of the process that held it, in an acknowledgement of the recipient, by
expiry, or at a new session of the recipient, or the lease had run out by then. -/
theorem lease_kept (h : S.Reachable a) (hlease : LiveLease S j a k d)
    (hrun : ReflTransGen (fun x y => S.Step x y ∧ ¬Collides j x d) a b) :
    b.world.store.row k = some d ∨
      ∃ x y, ReflTransGen S.Step a x ∧ S.Step x y ∧ ReflTransGen S.Step y b ∧
        x.world.store.row k = some d ∧ y.world.store.row k ≠ some d ∧
        (d.leaseUntilMs ≤ x.world.clock ∨ ∃ r, x.running = some r ∧ LeaseEnd j x y k d r) := by
  by_cases hsame : b.world.store.row k = some d
  · exact .inl hsame
  right
  obtain ⟨x, y, hax, ⟨hxy, hno⟩, hyb, hx, hy⟩ := exists_step_of_reaches
    (P := fun x => x.world.store.row k ≠ some d) hrun (not_not.2 hlease.row) hsame
  have hstep : ∀ x y, S.Step x y ∧ ¬Collides j x d → S.Step x y := fun _ _ hxy => hxy.1
  have hax' : ReflTransGen S.Step a x := ReflTransGen.mono hstep _ _ hax
  have hreach : S.Reachable x := h.trans hax'
  refine ⟨x, y, hax', hxy, ReflTransGen.mono hstep _ _ hyb, not_not.1 hx, hy, ?_⟩
  by_cases hlive : x.world.clock < d.leaseUntilMs
  · exact .inr (hreach.leaseEnd_of_step hxy
      ⟨not_not.1 hx, hlease.inFlight, hlease.boot, hlive⟩ hno hy)
  · exact .inl (Int.not_lt.1 hlive)

/-! ### Two gateways with a session of the same identity -/

namespace SharedIdentity

/-- Two gateways whose leases last longer than the time an acknowledgement is given. -/
def setup : Setup Bool := { Setup.pair with leaseMs := 60000 }

/-- The key of the row that is watched. -/
def key : DeliveryKey := ⟨1, 2⟩

/-- The second gateway has a session of a user and has sent it a message. -/
def onlySecond : Setup.State Bool :=
  setup.system.play (.initial {})
    [⟨false, .sessionAvailable ⟨⟨2⟩, 1⟩, { now := 1000 }, 100⟩,
      ⟨false, .accept ⟨⟨1⟩, 1⟩ (directTo 2 ⟨"a", valid_a⟩),
        { now := 1000, disposition := .accepted }, 100⟩]

/-- Both gateways have a session of the user, of the same generation; the second one has sent
the message. -/
def both : Setup.State Bool :=
  setup.system.play (.initial {})
    [⟨true, .sessionAvailable ⟨⟨2⟩, 1⟩, { now := 1000 }, 100⟩,
      ⟨false, .sessionAvailable ⟨⟨2⟩, 1⟩, { now := 1000 }, 100⟩,
      ⟨false, .accept ⟨⟨1⟩, 1⟩ (directTo 2 ⟨"a", valid_a⟩),
        { now := 1000, disposition := .accepted }, 100⟩]

/-- The first gateway takes over with a session of the next generation. -/
def takingOver : Setup.State Bool :=
  setup.system.play onlySecond [⟨true, .sessionAvailable ⟨⟨2⟩, 2⟩, { now := 2000 }, 3⟩]

/-- The first gateway closes its session. -/
def closing : Setup.State Bool :=
  setup.system.play both [⟨true, .sessionClosed ⟨⟨2⟩, 1⟩, { now := 2000 }, 3⟩]

/-- The first gateway runs a tick when the acknowledgement is overdue but the lease has not
run out. -/
def scanning : Setup.State Bool :=
  setup.system.play both [⟨true, .runTick, { now := 40000 }, 7⟩]

/-- The state after the next call. -/
def after (a : Setup.State Bool) (h : (setup.system.next a (.advance {})).isSome) :
    Setup.State Bool :=
  (setup.system.next a (.advance {})).get h

/-- What the row under the key says of its lease. -/
def leaseOf (a : Setup.State Bool) : Option (DeliveryState × ℕ × ℤ) :=
  (a.world.store.row key).map fun d => (d.state, d.leaseBootId, d.leaseUntilMs)

lemma liveLease_of_leaseOf {a : Setup.State Bool} {t : ℤ}
    (h : leaseOf a = some (.inFlight, 2, t)) (hlive : a.world.clock < t) :
    ∃ d, LiveLease setup false a key d := by
  obtain ⟨d, hd, hlease⟩ := Option.map_eq_some_iff.1 h
  obtain ⟨hstate, hboot, rfl⟩ : d.state = .inFlight ∧ d.leaseBootId = 2 ∧ d.leaseUntilMs = t := by
    simpa using hlease
  exact ⟨d, hd, hstate, hboot, hlive⟩

end SharedIdentity

open SharedIdentity in
theorem lease_kept_takingOver :
    ∃ d, LiveLease setup false takingOver key d ∧
      leaseOf (after takingOver (by decide +kernel)) = some (.pending, 0, 0) ∧
      ∃ x y, ReflTransGen setup.Step takingOver x ∧ setup.Step x y ∧
        (d.leaseUntilMs ≤ x.world.clock ∨
          ∃ r, x.running = some r ∧ LeaseEnd false x y key d r) := by
  have hidle : onlySecond.running = none := Option.isNone_iff_eq_none.1 (by decide +kernel)
  have hnone : (takingOver.world.process true).activeByUser[(⟨2⟩ : UserId)]? = none :=
    Option.isNone_iff_eq_none.1 (by decide +kernel)
  have hrow : leaseOf (after takingOver (by decide +kernel)) = some (.pending, 0, 0) := by
    decide +kernel
  have hreach : setup.Reachable takingOver := setup.reachable_play₂ (World.initial_users []) _ _
  obtain ⟨d, hd⟩ : ∃ d, LiveLease setup false takingOver key d :=
    liveLease_of_leaseOf (t := 61000) (by decide +kernel) (by decide +kernel)
  have hrec : d.recipient = ⟨2⟩ :=
    Id.ext (congrArg DeliveryKey.recipient (hreach.rows.key_eq hd.row))
  have hno : ¬Collides false takingOver d := by
    rintro ⟨r, hr, -, hc⟩
    obtain ⟨hwho, hop⟩ := Serial.play_running hidle hr
    rw [hwho, hop, hrec, hnone] at hc
    simp at hc
  have hstep : setup.Step takingOver (after takingOver (by decide +kernel)) :=
    ⟨_, (Option.some_get _).symm⟩
  refine ⟨d, hd, hrow, ?_⟩
  rcases lease_kept hreach hd (.single ⟨hstep, hno⟩) with hsame | ⟨x, y, hax, hxy, -, -, -, hend⟩
  · rw [leaseOf, hsame] at hrow
    simp [hd.inFlight] at hrow
  · exact ⟨x, y, hax, hxy, hend⟩

open SharedIdentity in
theorem foreign_lease_released :
    (setup.Reachable closing ∧ (∃ d, LiveLease setup false closing key d) ∧
        (∃ r, closing.running = some r ∧ r.who = true ∧ r.op = .sessionClosed ⟨⟨2⟩, 1⟩) ∧
        setup.Step closing (after closing (by decide +kernel)) ∧
        leaseOf (after closing (by decide +kernel)) = some (.pending, 0, 0)) ∧
      setup.Reachable scanning ∧ (∃ d, LiveLease setup false scanning key d) ∧
        (∃ r, scanning.running = some r ∧ r.who = true ∧ r.op = .runTick) ∧
        setup.Step scanning (after scanning (by decide +kernel)) ∧
        leaseOf (after scanning (by decide +kernel)) = some (.pending, 0, 0) := by
  have hidle : both.running = none := Option.isNone_iff_eq_none.1 (by decide +kernel)
  have hclosing : ∃ r, closing.running = some r := Option.isSome_iff_exists.1 (by decide +kernel)
  have hscanning : ∃ r, scanning.running = some r :=
    Option.isSome_iff_exists.1 (by decide +kernel)
  obtain ⟨r, hr⟩ := hclosing
  obtain ⟨r', hr'⟩ := hscanning
  have hinit : ({} : World Bool).Initial := World.initial_users []
  refine ⟨⟨setup.reachable_play₂ hinit _ _, ?_, ⟨r, hr, Serial.play_running hidle hr⟩,
    ⟨_, (Option.some_get _).symm⟩, by decide +kernel⟩, setup.reachable_play₂ hinit _ _, ?_,
    ⟨r', hr', Serial.play_running hidle hr'⟩, ⟨_, (Option.some_get _).symm⟩, by decide +kernel⟩
  · exact liveLease_of_leaseOf (t := 61000) (by decide +kernel) (by decide +kernel)
  · exact liveLease_of_leaseOf (t := 61000) (by decide +kernel) (by decide +kernel)

end MuduoChat
