import MuduoChat.Lib.Monitor
import MuduoChat.Presence.Gateways

/-!
# Presence after a logout

The operations of the gateways run on several threads.  A renewal takes a snapshot of the shadow
entry, leaves the critical section, and claims the entry again if the directory has lost it.  So a
renewal that has taken its snapshot before a logout can bring the entry back afterwards.  The same
can happen if the release does not succeed, since the shadow entry then stays.

What does hold: if the release succeeds, and no renewal with a snapshot of the connection is under
way, then nothing that the gateway does names the connection again until the next login on it.
Which claims a thread can still make without a new snapshot is what a monitor says
(`claimMonitor`).
-/

namespace MuduoChat

open Std Prog Relation

variable {ι κ : Type} [DecidableEq ι] [DecidableEq κ] {G : ι → GatewayConfig} {gw : κ → ι}

namespace Gateways

/-- Threads of several gateways.  The critical sections and the calls to the directory are
interleaved. -/
def threads (G : ι → GatewayConfig) (gw : κ → ι) :
    Parallel SinkPort κ (Gateways ι) PresenceEnv SinkOp Unit where
  handle j := answer G (gw j)
  code j := (G (gw j)).code

abbrev Threads (ι κ : Type) := Parallel.Config SinkPort κ (Gateways ι) SinkOp Unit

/-- The monitor of one connection of a user.  It is set while the latest snapshot that the thread
has taken shows the connection, and only then the thread may claim it. -/
def claimMonitor (user : UserId) (gateway : GatewayId) (conn : ConnectionId) :
    Monitor SinkPort Bool where
  permits q c := c = .presence (.claim user gateway conn) → q = true
  after
    | _, .critical (.snapshot u _), .ok (.inr x) => decide (u = user ∧ x.connectionId = conn)
    | q, _, _ => q

section Follows

variable {K : GatewayConfig} {user : UserId} {gateway : GatewayId} {conn : ConnectionId} {q : Bool}

lemma critical_follows (x : Section) :
    (Prog.ask (E := SinkPort) (.critical x)).Follows (claimMonitor user gateway conn)
      (fun _ => True) q :=
  Follows.ask (fun h => by cases h) fun _ => trivial

lemma renewFailed_follows (u : UserId) (now : ℤ) (r : RenewResult) :
    (K.renewFailed u now r).Follows (claimMonitor user gateway conn) (fun _ => True) q :=
  Follows.ite (fun _ => (critical_follows _).bind (fun _ _ h => h) fun _ _ _ => trivial)
    fun _ => trivial

lemma renewFrom_follows (u : UserId) (now : ℤ) (snap : Shadow)
    (hq : u = user → snap.connectionId = conn → q = true) :
    (K.renewFrom u now snap).Follows (claimMonitor user gateway conn) (fun _ => True) q := by
  refine Follows.ask_bind (fun h => by cases h) (fun r => ?_) fun _ => trivial
  refine Follows.ite (fun _ => ?_) fun _ => Follows.ite (fun _ => ?_) fun _ =>
    renewFailed_follows u now r
  · exact (critical_follows _).bind (fun _ _ h => h) fun _ _ _ => trivial
  · refine Follows.ask_bind (fun h => ?_) (fun c => ?_) fun _ => trivial
    · obtain ⟨hu, -, hc⟩ := PresenceCall.claim.inj (SinkCall.presence.inj h)
      exact hq hu hc
    · refine Follows.ite (fun _ => ?_) fun _ => renewFailed_follows u now _
      exact (critical_follows _).bind (fun _ _ h => h) fun _ _ _ => trivial

lemma renew_follows (u : UserId) :
    (K.renew u).Follows (claimMonitor user gateway conn) (fun _ => True) q := by
  have htime : (K.renewTime).Follows (claimMonitor user gateway conn) (fun _ => True) q :=
    Follows.ite (fun _ => Follows.ask (fun h => by cases h) fun _ => trivial) fun _ => trivial
  refine htime.bind (fun _ _ h => h) fun now q' _ => ?_
  refine Follows.ask_bind (fun h => by cases h) (fun s => ?_) fun _ => trivial
  cases s with
  | inl r => trivial
  | inr snap =>
    refine renewFrom_follows u now snap fun hu hc => ?_
    simp [claimMonitor, hu, hc]

lemma code_follows (op : SinkOp) :
    (K.code op).Follows (claimMonitor user gateway conn) (fun _ => True) q := by
  have ignore {α : Type} {p : SinkCode α} {q : Bool}
      (hp : p.Follows (claimMonitor user gateway conn) (fun _ => True) q) :
      (p >>= fun _ => pure ()).Follows (claimMonitor user gateway conn) (fun _ => True) q :=
    hp.bind (fun _ _ h => h) fun _ _ _ => trivial
  cases op with
  | renew u => exact ignore (renew_follows u)
  | renewAllClaimed =>
    refine (critical_follows _).bind (fun _ _ h => h) fun users _ _ => ?_
    exact Follows.forEach (fun u q _ => ignore (renew_follows u)) users trivial
  | deliver attempt =>
    refine ignore ((critical_follows _).bind (fun _ _ h => h) fun d _ _ => ?_)
    cases d with
    | some d => trivial
    | none =>
      refine (critical_follows _).bind (fun _ _ h => h) fun l _ _ => ?_
      refine Follows.ite (fun _ => Follows.ite (fun _ => ?_) fun _ => critical_follows _)
        fun _ => trivial
      exact Follows.ask_bind (fun h => by cases h) (fun _ => trivial) fun _ => trivial
  | _ => exact ignore (critical_follows _)

end Follows

/-! ### A connection that is logged out -/

variable {i : ι} {user : UserId} {conn : ConnectionId} {a b : Threads ι κ}

/-- The connection is not in the shadow table of the gateway, and no thread of the gateway can
claim it without a new snapshot that shows it. -/
structure LoggedOut (G : ι → GatewayConfig) (gw : κ → ι) (i : ι) (user : UserId)
    (conn : ConnectionId) (a : Threads ι κ) : Prop where
  shadow : ∀ epoch, (a.world.sinks i).shadow[user]? ≠ some ⟨conn, epoch⟩
  renewals : ∀ j t, gw j = i → a.running j = some t →
    t.rest.Follows (claimMonitor user (G i).localGateway conn) (fun _ => True) false

/-- The next step of a choice is the section of a login on the connection. -/
def LogsIn (gw : κ → ι) (i : ι) (user : UserId) (conn : ConnectionId) (a : Threads ι κ)
    (l : Parallel.Choice κ PresenceEnv SinkOp) : Prop :=
  ∃ j ω op k, l = .advance j ω ∧ gw j = i ∧
    a.running j = some ⟨op, .call (.critical (.bindUser user conn)) k⟩

/-- A step that is not the section of a login on the connection. -/
def QuietStep (G : ι → GatewayConfig) (gw : κ → ι) (i : ι) (user : UserId) (conn : ConnectionId)
    (a b : Threads ι κ) : Prop :=
  ∃ l, (threads G gw).next a l = some b ∧ ¬LogsIn gw i user conn a l

variable {w w' : Gateways ι} {ω : PresenceEnv}

lemma shadow_of_answer {j : ι} {c : SinkCall}
    {r : Except SinkPort.Err (SinkPort.Value c)} (h : answer G j c ω w = some (r, w'))
    (hc : j = i → c ≠ .critical (.bindUser user conn))
    (hw : ∀ epoch, (w.sinks i).shadow[user]? ≠ some ⟨conn, epoch⟩) :
    ∀ epoch, (w'.sinks i).shadow[user]? ≠ some ⟨conn, epoch⟩ := by
  cases c with
  | critical x =>
    cases h
    intro epoch hepoch
    by_cases hj : j = i
    · subst hj
      rcases shadow_cases (G := G) (i := j) (ω := ω) (w := w) (x := x) with
        ⟨u, c, rfl, -, hs⟩ | ⟨u, hs, -⟩ | hs
      · rw [hs, OrderedMap.getElem?_insert] at hepoch
        by_cases hu : u = user
        · rw [if_pos hu] at hepoch
          obtain ⟨rfl, -⟩ := Shadow.mk.inj (Option.some.inj hepoch)
          exact hc rfl (by rw [hu])
        · rw [if_neg hu] at hepoch
          exact hw epoch hepoch
      · rw [hs, OrderedMap.getElem?_erase] at hepoch
        split at hepoch
        · cases hepoch
        · exact hw epoch hepoch
      · have hconn := hs user
        rw [hepoch] at hconn
        obtain ⟨⟨c, e⟩, he, rfl⟩ := Option.map_eq_some_iff.1 hconn.symm
        exact hw e he
    · rw [sinks_of_enter (Ne.symm hj)] at hepoch
      exact hw epoch hepoch
  | presence call | nowMs | transport route attempt =>
    cases h
    exact hw

/-- A snapshot cannot show a connection that is not in the shadow table, so the monitor stays
unset. -/
lemma after_eq_false {c : SinkCall}
    {r : Except SinkPort.Err (SinkPort.Value c)} (h : answer G i c ω w = some (r, w'))
    (hw : ∀ epoch, (w.sinks i).shadow[user]? ≠ some ⟨conn, epoch⟩) (gateway : GatewayId) :
    (claimMonitor user gateway conn).after false c r = false := by
  cases c with
  | critical x =>
    cases h
    cases x with
    | snapshot u now =>
      rw [(enter_eq_done rfl).1]
      cases hs : (w.sinks i).snapshot (G i) u now with
      | inl r => rfl
      | inr x =>
        have hx := GatewayAwareDeliverySink.shadow_of_snapshot hs
        simp only [claimMonitor, decide_eq_false_iff_not]
        rintro ⟨rfl, rfl⟩
        exact hw x.epoch hx
    | _ => rfl
  | presence call | nowMs | transport route attempt => rfl

/-- **The step lemma.**  A connection that is logged out stays so until the next login on it. -/
lemma LoggedOut.step (ha : LoggedOut G gw i user conn a) (h : QuietStep G gw i user conn a b) :
    LoggedOut G gw i user conn b := by
  obtain ⟨l, hl, hquiet⟩ := h
  -- what remains of the other threads' operations does not change
  have other {j : κ} {t' t : Option (Parallel.Task SinkPort SinkOp Unit)} {j' : κ} (hj : j' ≠ j)
      (ht : Function.update a.running j t' j' = t) : a.running j' = t := by
    rwa [Function.update_of_ne hj] at ht
  rcases Parallel.next_cases hl with ⟨j, op, -, hr, rfl⟩ | ⟨j, ω, op, v, -, hr, rfl⟩ |
    ⟨j, ω, op, e, -, hr, rfl⟩ | ⟨j, ω, op, c, k, r, w, rfl, hr, hw, rfl⟩
  · refine ⟨ha.shadow, fun j' t hgw ht => ?_⟩
    by_cases hj : j' = j
    · subst hj
      obtain rfl : (⟨op, (threads G gw).code j' op⟩ : Parallel.Task SinkPort SinkOp Unit) = t := by
        simpa using ht
      exact code_follows op
    · exact ha.renewals j' t hgw (other hj ht)
  · refine ⟨ha.shadow, fun j' t hgw ht => ?_⟩
    by_cases hj : j' = j
    · subst hj
      simp at ht
    · exact ha.renewals j' t hgw (other hj ht)
  · exact e.elim
  · have hcall : gw j = i → c ≠ .critical (.bindUser user conn) := by
      rintro hgw rfl
      exact hquiet ⟨j, ω, op, k, rfl, hgw, hr⟩
    refine ⟨shadow_of_answer hw hcall ha.shadow, fun j' t hgw ht => ?_⟩
    by_cases hj : j' = j
    · subst hj
      obtain rfl : (⟨op, k r⟩ : Parallel.Task SinkPort SinkOp Unit) = t := by simpa using ht
      subst hgw
      have hrest := (ha.renewals j' _ rfl hr).2 r
      rwa [after_eq_false hw ha.shadow] at hrest
    · exact ha.renewals j' t hgw (other hj ht)

/-- **The run lemma.** -/
lemma LoggedOut.run (ha : LoggedOut G gw i user conn a)
    (h : ReflTransGen (QuietStep G gw i user conn) a b) : LoggedOut G gw i user conn b := by
  induction h with
  | refl => exact ha
  | tail _ hstep ih => exact ih.step hstep

/-- What the release of a connection has to find: if the connection is in the shadow table, the
directory can be reached and its entry in force is the one of the shadow table, and no thread of the
gateway can claim the connection without a new snapshot that shows it. -/
structure CleanRelease (G : ι → GatewayConfig) (gw : κ → ι) (i : ι) (user : UserId)
    (conn : ConnectionId) (ω : PresenceEnv) (a : Threads ι κ) : Prop where
  taken : ∀ epoch, (a.world.sinks i).shadow[user]? = some ⟨conn, epoch⟩ → ω.up = true ∧
    ∃ entry, a.world.directory.live ω.now user = some entry ∧ entry.sessionEpoch = epoch
  renewals : ∀ j t, gw j = i → a.running j = some t →
    t.rest.Follows (claimMonitor user (G i).localGateway conn) (fun _ => True) false

lemma shadow_of_releaseUser
    (h : ∀ epoch, (w.sinks i).shadow[user]? = some ⟨conn, epoch⟩ → ω.up = true ∧
      ∃ entry, w.directory.live ω.now user = some entry ∧ entry.sessionEpoch = epoch)
    (epoch : SessionEpoch) :
    ((w.enter G i ω (.releaseUser user conn)).2.sinks i).shadow[user]? ≠ some ⟨conn, epoch⟩ := by
  by_cases hs : ∃ epoch, (w.sinks i).shadow[user]? = some ⟨conn, epoch⟩
  · obtain ⟨e, hs⟩ := hs
    obtain ⟨hup, entry, hlive, he⟩ := h e hs
    have hask := GatewayAwareDeliverySink.releaseUser_eq_ask (G := G i) hs
    rw [(enter_eq_ask (ω := ω) (x := .releaseUser user conn) hask).2.2]
    -- the directory takes the release, because the epochs agree
    have hok : (w.perform ω (.release user (G i).localGateway conn e)).1.ok = true := by
      rcases InMemoryPresenceDirectory.release_cases (d := { w.directory with failure := !ω.up })
        ω.now user (G i).localGateway conn e (by simp [hup]) with ⟨-, -, hne⟩ | ⟨-, -, -, heq⟩
      · exact absurd he (hne entry hlive)
      · exact congrArg (fun x => x.1.ok) heq
    rw [if_pos hok]
    simp
  · obtain ⟨r, hr⟩ := GatewayAwareDeliverySink.releaseUser_eq_done (G := G i) (not_exists.1 hs)
    rw [(enter_eq_done (ω := ω) (x := .releaseUser user conn) hr).2.2]
    exact fun hepoch => hs ⟨epoch, hepoch⟩

lemma LoggedOut.of_release {j : κ} {op : SinkOp}
    {k : Except Empty ReleaseResult → SinkCode Unit}
    (hcall : a.running j = some ⟨op, .call (.critical (.releaseUser user conn)) k⟩)
    (hclean : CleanRelease G gw (gw j) user conn ω a)
    (h : (threads G gw).next a (.advance j ω) = some b) : LoggedOut G gw (gw j) user conn b := by
  rcases Parallel.next_cases h with ⟨j', op', hl, -⟩ | ⟨j', ω', op', v, hl, hr, -⟩ |
    ⟨j', ω', op', e, -⟩ | ⟨j', ω', op', c, k', r, w, hl, hr, hw, rfl⟩
  · cases hl
  · cases hl
    cases hcall.symm.trans hr
  · exact e.elim
  · cases hl
    cases hcall.symm.trans hr
    cases hw
    refine ⟨shadow_of_releaseUser hclean.taken, fun j' t hgw ht => ?_⟩
    by_cases hj : j' = j
    · subst hj
      obtain rfl : (⟨op, k _⟩ : Parallel.Task SinkPort SinkOp Unit) = t := by simpa using ht
      exact (hclean.renewals j' _ rfl hcall).2 _
    · exact hclean.renewals j' t hgw (by simpa [Function.update_of_ne hj] using ht)

/-- The directory names the connection of the gateway for the user, although it did not before, or
only in an entry that has run out. -/
def NamesAnew (G : ι → GatewayConfig) (i : ι) (user : UserId) (conn : ConnectionId) (now : ℤ)
    (w w' : Gateways ι) : Prop :=
  ∃ entry, w'.directory.entries[user]? = some entry ∧
    entry.gatewayId = (G i).localGateway ∧ entry.connectionId = conn ∧
    ∀ old, w.directory.entries[user]? = some old → old.gatewayId = (G i).localGateway →
      old.connectionId = conn → entry ≠ old ∧ old.expiresAtMs ≤ now

omit [DecidableEq ι] in
lemma claim_of_namesAnew {call : PresenceCall}
    (hw : w'.directory = (w.perform ω call).2) (h : NamesAnew G i user conn ω.now w w') :
    call = .claim user (G i).localGateway conn := by
  obtain ⟨entry, hentry, hg, hc, hanew⟩ := h
  rw [hw] at hentry
  rcases InMemoryPresenceDirectory.names_of_perform hentry with
    ⟨old, hold, hg', hc', hsame⟩ | ⟨hcall, -⟩
  · obtain ⟨hne, hexpired⟩ := hanew old hold (hg'.symm.trans hg) (hc'.symm.trans hc)
    rcases hsame with rfl | hlive
    · exact absurd rfl hne
    · omega
  · rw [hcall, hg, hc]

omit [DecidableEq ι] in
lemma not_namesAnew {now : ℤ} (hw : w'.directory = w.directory) :
    ¬NamesAnew G i user conn now w w' := by
  rintro ⟨entry, hentry, hg, hc, hanew⟩
  rw [hw] at hentry
  exact (hanew entry hentry hg hc).1 rfl

lemma LoggedOut.not_namesAnew (ha : LoggedOut G gw i user conn a) {j : κ} (hj : gw j = i)
    (h : (threads G gw).next a (.advance j ω) = some b)
    (hquiet : ¬LogsIn gw i user conn a (.advance j ω)) :
    ¬NamesAnew G i user conn ω.now a.world b.world := by
  rcases Parallel.next_cases h with ⟨j', op, hl, -⟩ | ⟨j', ω', op, v, -, -, rfl⟩ |
    ⟨j', ω', op, e, -⟩ | ⟨j', ω', op, c, k, r, w, hl, hr, hw, rfl⟩
  · cases hl
  · exact Gateways.not_namesAnew rfl
  · exact e.elim
  · cases hl
    subst hj
    cases c with
    | critical x =>
      cases hw
      rcases directory_of_enter (G := G) (i := gw j) (ω := ω) (w := a.world) (x := x) with
        hsame | ⟨call, k', hplan, hperform⟩
      · exact Gateways.not_namesAnew hsame
      · intro hnames
        obtain rfl := claim_of_namesAnew hperform hnames
        obtain ⟨rfl, -⟩ := plan_eq_claim hplan
        exact hquiet ⟨j, ω, op, k, rfl, rfl, hr⟩
    | presence call =>
      cases hw
      intro hnames
      obtain rfl := claim_of_namesAnew rfl hnames
      have hpermits := (ha.renewals j _ rfl hr).1 rfl
      cases hpermits
    | nowMs | transport route attempt =>
      cases hw
      exact Gateways.not_namesAnew rfl

end Gateways

open Gateways

/-- **No ghost presence.**  Once a clean release of a connection has taken place, no step of the
gateway makes the directory name the connection anew, until the next login on it. -/
theorem no_ghost_presence {a a₁ b b' : Threads ι κ} {j : κ} {ω : PresenceEnv} {op : SinkOp}
    {user : UserId} {conn : ConnectionId} {k : Except Empty ReleaseResult → SinkCode Unit}
    (hcall : a.running j = some ⟨op, .call (.critical (.releaseUser user conn)) k⟩)
    (hclean : CleanRelease G gw (gw j) user conn ω a)
    (hrelease : (threads G gw).next a (.advance j ω) = some a₁)
    (hrun : ReflTransGen (QuietStep G gw (gw j) user conn) a₁ b) {j' : κ} (hj' : gw j' = gw j)
    {ω' : PresenceEnv} (hstep : (threads G gw).next b (.advance j' ω') = some b')
    (hquiet : ¬LogsIn gw (gw j) user conn b (.advance j' ω')) :
    ¬NamesAnew G (gw j) user conn ω'.now b.world b'.world := by
  have hout := (LoggedOut.of_release hcall hclean hrelease).run hrun
  exact hout.not_namesAnew hj' hstep hquiet

/-! ### Concrete runs -/

/-- One gateway with two threads. -/
def oneGateway : Unit → GatewayConfig := fun _ => ⟨⟨1⟩, false⟩

def twoThreads : Parallel SinkPort Bool (Gateways Unit) PresenceEnv SinkOp Unit :=
  threads oneGateway fun _ => ()

/-- A user logs in, and is about to be logged out. -/
def loggingOut : Threads Unit Bool :=
  twoThreads.play (.initial (.initial Unit 1000))
    [⟨false, some (.bindUser ⟨1⟩ ⟨10⟩), { now := 0 }, 100⟩,
      ⟨false, some (.releaseUser ⟨1⟩ ⟨10⟩), { now := 2 }, 0⟩]

/-- The same while a renewal has taken its snapshot. -/
def loggingOutLate : Threads Unit Bool :=
  twoThreads.play (.initial (.initial Unit 1000))
    [⟨false, some (.bindUser ⟨1⟩ ⟨10⟩), { now := 0 }, 100⟩,
      ⟨true, some (.renew ⟨1⟩), { now := 1 }, 1⟩,
      ⟨false, some (.releaseUser ⟨1⟩ ⟨10⟩), { now := 2 }, 0⟩]

/-- The login that is the next call of a thread. -/
def nextBind (a : Threads ι κ) (j : κ) : Option (UserId × ConnectionId) :=
  match a.running j with
  | some ⟨_, .call (.critical (.bindUser user conn)) _⟩ => some (user, conn)
  | _ => none

omit [DecidableEq ι] [DecidableEq κ] in
lemma not_logsIn_of_nextBind {a : Threads ι κ} {i : ι} {j : κ} {ω : PresenceEnv} {user : UserId}
    {conn : ConnectionId} (h : nextBind a j ≠ some (user, conn)) :
    ¬LogsIn gw i user conn a (.advance j ω) := by
  rintro ⟨j', ω', op, k, hl, -, hr⟩
  cases hl
  exact h (by simp [nextBind, hr])

lemma cleanRelease_loggingOut : CleanRelease oneGateway (fun _ => ()) () ⟨1⟩ ⟨10⟩ { now := 2 }
    loggingOut where
  taken epoch hepoch := by
    have hshadow : (loggingOut.world.sinks ()).shadow[(⟨1⟩ : UserId)]? = some ⟨⟨10⟩, ⟨1⟩⟩ := by
      decide +kernel
    rw [hshadow] at hepoch
    obtain ⟨-, rfl⟩ := Shadow.mk.inj (Option.some.inj hepoch)
    exact ⟨rfl, ⟨⟨1⟩, ⟨10⟩, ⟨1⟩, 1000⟩, by decide +kernel, rfl⟩
  renewals j t _ ht := by
    cases j with
    | false =>
      have hrunning : loggingOut.running false =
          some ⟨.releaseUser ⟨1⟩ ⟨10⟩, (oneGateway ()).code (.releaseUser ⟨1⟩ ⟨10⟩)⟩ := rfl
      obtain rfl := Option.some.inj (hrunning.symm.trans ht)
      exact code_follows (K := oneGateway ()) (.releaseUser ⟨1⟩ ⟨10⟩)
    | true =>
      have hidle : loggingOut.running true = none := rfl
      cases hidle.symm.trans ht

/-- After the logout the other thread begins to renew what is left. -/
def renewingRest : Threads Unit Bool :=
  twoThreads.enter (twoThreads.drive false { now := 2 } 1 loggingOut) true (some .renewAllClaimed)

theorem no_ghost_in_renewingRest :
    ¬NamesAnew oneGateway () ⟨1⟩ ⟨10⟩ 3 renewingRest.world
      (twoThreads.drive true { now := 3 } 1 renewingRest).world := by
  have hinvoke : twoThreads.next (twoThreads.drive false { now := 2 } 1 loggingOut)
      (.invoke true .renewAllClaimed) = some renewingRest :=
    Parallel.next_eq_enter (by decide +kernel)
  have hquiet : QuietStep oneGateway (fun _ => ()) () ⟨1⟩ ⟨10⟩
      (twoThreads.drive false { now := 2 } 1 loggingOut) renewingRest := by
    refine ⟨_, hinvoke, ?_⟩
    rintro ⟨j, ω, op, k, hl, -⟩
    cases hl
  have hcall : loggingOut.running false =
      some ⟨.releaseUser ⟨1⟩ ⟨10⟩, (oneGateway ()).code (.releaseUser ⟨1⟩ ⟨10⟩)⟩ := rfl
  have hrelease := Parallel.next_eq_drive (M := twoThreads) (a := loggingOut) (i := false)
    (ω := { now := 2 }) (by decide +kernel)
  have hstep := Parallel.next_eq_drive (M := twoThreads) (a := renewingRest) (i := true)
    (ω := { now := 3 }) (by decide +kernel)
  exact no_ghost_presence hcall cleanRelease_loggingOut hrelease (.single hquiet) rfl hstep
    (not_logsIn_of_nextBind (by decide +kernel))

/-- The connection is released while a renewal has taken its snapshot.  The renewal finds that the
entry is gone, and claims it again. -/
theorem ghost_presence :
    ReflTransGen twoThreads.Step (.initial (.initial Unit 1000)) loggingOutLate ∧
      (∃ op k, loggingOutLate.running false =
        some ⟨op, .call (.critical (.releaseUser ⟨1⟩ ⟨10⟩)) k⟩) ∧
      ∃ a₁ b b', twoThreads.next loggingOutLate (.advance false { now := 2 }) = some a₁ ∧
        QuietStep oneGateway (fun _ => ()) () ⟨1⟩ ⟨10⟩ a₁ b ∧
        (b.running true).map (fun t => t.op) = some (.renew ⟨1⟩) ∧
        twoThreads.next b (.advance true { now := 4 }) = some b' ∧
        NamesAnew oneGateway () ⟨1⟩ ⟨10⟩ 4 b.world b'.world := by
  have hrelease := Parallel.next_eq_drive (M := twoThreads) (a := loggingOutLate) (i := false)
    (ω := { now := 2 }) (by decide +kernel)
  have hrenew := Parallel.next_eq_drive (M := twoThreads) (i := true) (ω := { now := 3 })
    (a := twoThreads.drive false { now := 2 } 1 loggingOutLate) (by decide +kernel)
  have hclaim := Parallel.next_eq_drive (M := twoThreads) (i := true) (ω := { now := 4 })
    (a := twoThreads.drive true { now := 3 } 1
      (twoThreads.drive false { now := 2 } 1 loggingOutLate)) (by decide +kernel)
  refine ⟨Parallel.reaches_play _ _, ⟨_, _, rfl⟩, _, _, _, hrelease,
    ⟨_, hrenew, not_logsIn_of_nextBind (by decide +kernel)⟩, rfl, hclaim, ?_⟩
  -- there is no entry before the claim
  have hnone : (twoThreads.drive true { now := 3 } 1 (twoThreads.drive false { now := 2 } 1
      loggingOutLate)).world.directory.entries[(⟨1⟩ : UserId)]? = none := by decide +kernel
  refine ⟨⟨⟨1⟩, ⟨10⟩, ⟨2⟩, 1004⟩, by decide +kernel, rfl, rfl, fun old hold => ?_⟩
  cases hnone.symm.trans hold

end MuduoChat
