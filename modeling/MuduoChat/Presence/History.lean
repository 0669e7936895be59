import MuduoChat.Presence.Directory

/-!
# The presence directory and the history of its calls

The directory keeps one entry for each user.  What it is for is a statement about the whole
history of calls: a user is where the latest claim has put them, for as long as that claim has not
been released and the time to live has not passed since it was last renewed.  The invariant
between the history and the entries is `Reflects`.
-/

namespace MuduoChat

/-! ### Histories -/

structure PresenceEvent where
  time : ℤ
  call : PresenceCall
  result : call.Result

namespace PresenceEvent

def ClaimOf (user : UserId) : PresenceEvent → Prop
  | ⟨_, .claim v _ _, _⟩ => v = user
  | _ => False

def claimed : PresenceEvent → Option SessionEpoch
  | ⟨_, .claim _ _ _, r⟩ => if r.ok then some r.epoch else none
  | _ => none

/-- The event is a successful renewal of an epoch of the user. -/
def RenewalOf (user : UserId) (epoch : SessionEpoch) : PresenceEvent → Prop
  | ⟨_, .renew v _ _ e, r⟩ => v = user ∧ e = epoch ∧ r.ok = true
  | _ => False

/-- The event is a successful release of an epoch of the user. -/
def ReleaseOf (user : UserId) (epoch : SessionEpoch) : PresenceEvent → Prop
  | ⟨_, .release v _ _ e, r⟩ => v = user ∧ e = epoch ∧ r.ok = true
  | _ => False

end PresenceEvent

/-- A history stands with the latest event first.  The latest claim of a user was made at `time`
and has led to `route`, and `since` is what has happened after it. -/
structure LatestClaim (history : List PresenceEvent) (user : UserId) (since : List PresenceEvent)
    (time : ℤ) (route : DeliveryRoute) : Prop where
  split : ∃ gateway conn older, ∃ r : ClaimResult,
    history = since ++ ⟨time, .claim user gateway conn, r⟩ :: older ∧
      route = ⟨user, gateway, conn, r.epoch⟩
  latest : ∀ e ∈ since, ¬ e.ClaimOf user

/-- The lease of a route has been taken or renewed at the given time. -/
def Touched (since : List PresenceEvent) (time : ℤ) (route : DeliveryRoute) (t : ℤ) : Prop :=
  t = time ∨ ∃ e ∈ since, e.RenewalOf route.user route.sessionEpoch ∧ t = e.time

/-- **What the directory is for.**  The route of a user is that of the latest claim, if that claim
has not been released, and if the time to live has not passed since the claim or one of its
renewals. -/
def CurrentRoute (ttlMs : ℤ) (history : List PresenceEvent) (now : ℤ) (user : UserId)
    (route : DeliveryRoute) : Prop :=
  ∃ since time, LatestClaim history user since time route ∧
    (∀ e ∈ since, ¬ e.ReleaseOf user route.sessionEpoch) ∧
    ∃ t, Touched since time route t ∧ now < t + ttlMs

/-! ### Runs -/

namespace InMemoryPresenceDirectory

/-- Make a call and write it into the history. -/
def serve (x : List PresenceEvent × InMemoryPresenceDirectory) (call : ℤ × PresenceCall) :
    List PresenceEvent × InMemoryPresenceDirectory :=
  (⟨call.1, call.2, (x.2.perform call.1 call.2).1⟩ :: x.1, (x.2.perform call.1 call.2).2)

/-- The history of a list of calls, and the directory after them. -/
def run (d : InMemoryPresenceDirectory) (calls : List (ℤ × PresenceCall)) :
    List PresenceEvent × InMemoryPresenceDirectory :=
  calls.foldl serve ([], d)

end InMemoryPresenceDirectory

/-! ### The latest claim -/

section LatestClaim

variable {h : List PresenceEvent} {e : PresenceEvent} {user : UserId}
  {since : List PresenceEvent} {time : ℤ} {route : DeliveryRoute}

lemma latestClaim_claim {t : ℤ} {gateway : GatewayId} {conn : ConnectionId} {r : ClaimResult} :
    LatestClaim (⟨t, .claim user gateway conn, r⟩ :: h) user [] t
      ⟨user, gateway, conn, r.epoch⟩ :=
  ⟨⟨gateway, conn, h, r, rfl, rfl⟩, by simp⟩

lemma latestClaim_cons (he : ¬ e.ClaimOf user) :
    LatestClaim (e :: h) user since time route ↔
      ∃ since', since = e :: since' ∧ LatestClaim h user since' time route := by
  constructor
  · rintro ⟨⟨gateway, conn, older, r, hsplit, hroute⟩, hlatest⟩
    cases since with
    | nil =>
      cases hsplit
      exact absurd rfl he
    | cons x since' =>
      obtain ⟨rfl, hrest⟩ := List.cons.inj hsplit
      exact ⟨since', rfl, ⟨gateway, conn, older, r, hrest, hroute⟩,
        fun y hy => hlatest y (List.mem_cons_of_mem e hy)⟩
  · rintro ⟨since', rfl, ⟨gateway, conn, older, r, hsplit, hroute⟩, hlatest⟩
    refine ⟨⟨gateway, conn, older, r, by rw [hsplit]; rfl, hroute⟩, fun y hy => ?_⟩
    rcases List.mem_cons.1 hy with rfl | hy
    · exact he
    · exact hlatest y hy

lemma latestClaim_nil : ¬ LatestClaim [] user since time route := by
  rintro ⟨⟨_, _, _, _, hsplit, -⟩, -⟩
  cases since <;> cases hsplit

lemma LatestClaim.unique {since' : List PresenceEvent} {time' : ℤ} {route' : DeliveryRoute}
    (hl : LatestClaim h user since time route) (hl' : LatestClaim h user since' time' route') :
    since = since' ∧ time = time' ∧ route = route' := by
  induction h generalizing since since' with
  | nil => exact absurd hl latestClaim_nil
  | cons e h ih =>
    by_cases he : e.ClaimOf user
    · -- nothing can stand before a claim of the user
      have first {s : List PresenceEvent} {t : ℤ} {ρ : DeliveryRoute}
          (hs : LatestClaim (e :: h) user s t ρ) : s = [] := by
        obtain ⟨_, _, _, _, hsplit, -⟩ := hs.split
        cases s with
        | nil => rfl
        | cons x s =>
          cases hsplit
          exact absurd he (hs.latest e List.mem_cons_self)
      obtain rfl := first hl
      obtain rfl := first hl'
      obtain ⟨_, _, _, _, hsplit, rfl⟩ := hl.split
      obtain ⟨_, _, _, _, hsplit', rfl⟩ := hl'.split
      cases hsplit
      obtain ⟨heq, -⟩ := List.cons.inj hsplit'
      cases heq
      exact ⟨rfl, rfl, rfl⟩
    · obtain ⟨s, rfl, hs⟩ := (latestClaim_cons he).1 hl
      obtain ⟨s', rfl, hs'⟩ := (latestClaim_cons he).1 hl'
      obtain ⟨rfl, rfl, rfl⟩ := ih hs hs'
      exact ⟨rfl, rfl, rfl⟩

end LatestClaim

/-! ### Histories and entries -/

/-- The latest claim of the user has not been released. -/
structure LeaseHeld (history : List PresenceEvent) (user : UserId) (since : List PresenceEvent)
    (time : ℤ) (route : DeliveryRoute) : Prop extends
    LatestClaim history user since time route where
  unreleased : ∀ e ∈ since, ¬ e.ReleaseOf user route.sessionEpoch

def PresenceEntry.route (user : UserId) (entry : PresenceEntry) : DeliveryRoute :=
  ⟨user, entry.gatewayId, entry.connectionId, entry.sessionEpoch⟩

/-- The entry of a user is what the history says: there is none if there is no claim or the latest
one has been released, and otherwise the lease runs out when the time to live has passed since the
last time it was taken or renewed. -/
def LeaseMirrors (ttlMs : ℤ) (history : List PresenceEvent) (user : UserId) :
    Option PresenceEntry → Prop
  | none => ∀ since time route, ¬ LeaseHeld history user since time route
  | some entry => ∃ since time, LeaseHeld history user since time (entry.route user) ∧
      ∃ t, Touched since time (entry.route user) t ∧ entry.expiresAtMs = t + ttlMs ∧
        ∀ t', Touched since time (entry.route user) t' → t' ≤ t

section LeaseMirrors

variable {ttlMs : ℤ} {h : List PresenceEvent} {e : PresenceEvent} {user : UserId}
  {since : List PresenceEvent} {time t : ℤ} {route : DeliveryRoute} {entry : PresenceEntry}
  {gateway : GatewayId} {conn : ConnectionId} {epoch : SessionEpoch}

lemma leaseHeld_cons (he : ¬ e.ClaimOf user) :
    LeaseHeld (e :: h) user since time route ↔
      ∃ since', since = e :: since' ∧ LeaseHeld h user since' time route ∧
        ¬ e.ReleaseOf user route.sessionEpoch := by
  constructor
  · rintro ⟨hl, hun⟩
    obtain ⟨since', rfl, hl'⟩ := (latestClaim_cons he).1 hl
    exact ⟨since', rfl, ⟨hl', fun x hx => hun x (List.mem_cons_of_mem e hx)⟩,
      hun e List.mem_cons_self⟩
  · rintro ⟨since', rfl, ⟨hl, hun⟩, hrel⟩
    refine ⟨(latestClaim_cons he).2 ⟨since', rfl, hl⟩, fun x hx => ?_⟩
    rcases List.mem_cons.1 hx with rfl | hx
    · exact hrel
    · exact hun x hx

lemma touched_cons (he : ¬ e.RenewalOf route.user route.sessionEpoch) :
    Touched (e :: since) time route t ↔ Touched since time route t := by
  simp only [Touched, List.exists_mem_cons_iff, he, false_and, false_or]

/-- An event that is about somebody else, or has no effect. -/
def PresenceEvent.Spares (user : UserId) (e : PresenceEvent) : Prop :=
  ¬ e.ClaimOf user ∧ (∀ epoch, ¬ e.RenewalOf user epoch) ∧ ∀ epoch, ¬ e.ReleaseOf user epoch

lemma LeaseMirrors.spared {o : Option PresenceEntry} (hm : LeaseMirrors ttlMs h user o)
    (he : e.Spares user) : LeaseMirrors ttlMs (e :: h) user o := by
  cases o with
  | none =>
    intro since time route hheld
    obtain ⟨since', -, hheld', -⟩ := (leaseHeld_cons he.1).1 hheld
    exact hm since' time route hheld'
  | some entry =>
    obtain ⟨since, time, hheld, t, ht, hexp, hmax⟩ := hm
    have htouched (t' : ℤ) : Touched (e :: since) time (entry.route user) t' ↔
        Touched since time (entry.route user) t' :=
      touched_cons (he.2.1 _)
    exact ⟨e :: since, time, (leaseHeld_cons he.1).2 ⟨since, rfl, hheld, he.2.2 _⟩, t,
      (htouched t).2 ht, hexp, fun t' ht' => hmax t' ((htouched t').1 ht')⟩

lemma leaseMirrors_claim {r : ClaimResult} :
    LeaseMirrors ttlMs (⟨t, .claim user gateway conn, r⟩ :: h) user
      (some ⟨gateway, conn, r.epoch, t + ttlMs⟩) := by
  refine ⟨[], t, ⟨latestClaim_claim, by simp⟩, t, .inl rfl, rfl, ?_⟩
  rintro t' (rfl | ⟨_, hmem, -⟩)
  · exact le_refl t'
  · cases hmem

lemma LeaseMirrors.renewed (hm : LeaseMirrors ttlMs h user (some entry)) (htimes : ∀ e ∈ h, e.time ≤ t)
    {r : RenewResult} (hr : r.ok = true) :
    LeaseMirrors ttlMs (⟨t, .renew user gateway conn entry.sessionEpoch, r⟩ :: h) user
      (some { entry with expiresAtMs := t + ttlMs }) := by
  obtain ⟨since, time, hheld, t0, ht0, -, -⟩ := hm
  obtain ⟨g, c, older, r', hsplit, -⟩ := hheld.split
  refine ⟨_ :: since, time, (leaseHeld_cons id).2 ⟨since, rfl, hheld, id⟩, t,
    .inr ⟨_, List.mem_cons_self, ⟨rfl, rfl, hr⟩, rfl⟩, rfl, ?_⟩
  -- whatever has happened before has happened at an earlier time
  rintro t' (rfl | ⟨x, hx, -, rfl⟩)
  · exact htimes ⟨t', .claim user g c, r'⟩ (by rw [hsplit]; simp)
  · rcases List.mem_cons.1 hx with rfl | hx
    · exact le_refl t
    · exact htimes x (by rw [hsplit]; simp [hx])

lemma LeaseMirrors.released (hm : LeaseMirrors ttlMs h user (some entry)) {r : ReleaseResult}
    (hr : r.ok = true) :
    LeaseMirrors ttlMs (⟨t, .release user gateway conn entry.sessionEpoch, r⟩ :: h) user none := by
  intro since' time' route hheld'
  obtain ⟨since, time, hheld, -⟩ := hm
  obtain ⟨s, rfl, hs, hrel⟩ := (leaseHeld_cons id).1 hheld'
  obtain ⟨-, -, rfl⟩ := hs.toLatestClaim.unique hheld.toLatestClaim
  exact hrel ⟨rfl, rfl, hr⟩

end LeaseMirrors

/-! ### The invariant -/

namespace InMemoryPresenceDirectory

variable {ttlMs now t : ℤ} {h : List PresenceEvent} {d : InMemoryPresenceDirectory}

/-- The directory is in the state that the history, which ends at the time `now`, has led to. -/
structure Reflects (ttlMs : ℤ) (h : List PresenceEvent) (d : InMemoryPresenceDirectory)
    (now : ℤ) : Prop where
  ttl : d.ttlMs = ttlMs
  up : d.failure = false
  times : ∀ e ∈ h, e.time ≤ now
  epochs : ∀ e ∈ h, ∀ epoch, e.claimed = some epoch → epoch.value < d.nextEpoch
  mirrors : ∀ user, LeaseMirrors ttlMs h user d.entries[user]?

lemma Reflects.spared (hr : Reflects ttlMs h d now) (ht : now ≤ t) {e : PresenceEvent}
    (htime : e.time = t) (hclaimed : e.claimed = none) (he : ∀ user, e.Spares user) :
    Reflects ttlMs (e :: h) d t where
  ttl := hr.ttl
  up := hr.up
  times x hx := by
    rcases List.mem_cons.1 hx with rfl | hx
    · exact htime.le
    · exact (hr.times x hx).trans ht
  epochs x hx epoch hep := by
    rcases List.mem_cons.1 hx with rfl | hx
    · rw [hclaimed] at hep
      cases hep
    · exact hr.epochs x hx epoch hep
  mirrors user := (hr.mirrors user).spared (he user)

lemma Reflects.changed (hr : Reflects ttlMs h d now) (ht : now ≤ t) {e : PresenceEvent}
    (htime : e.time = t) (user : UserId) {d' : InMemoryPresenceDirectory}
    (httl : d'.ttlMs = d.ttlMs) (hup : d'.failure = d.failure) (hle : d.nextEpoch ≤ d'.nextEpoch)
    (hclaimed : ∀ epoch, e.claimed = some epoch → epoch.value < d'.nextEpoch)
    (hspares : ∀ v, user ≠ v → e.Spares v)
    (hother : ∀ v, user ≠ v → d'.entries[v]? = d.entries[v]?)
    (hm : LeaseMirrors ttlMs (e :: h) user d'.entries[user]?) : Reflects ttlMs (e :: h) d' t where
  ttl := httl.trans hr.ttl
  up := hup.trans hr.up
  times x hx := by
    rcases List.mem_cons.1 hx with rfl | hx
    · exact htime.le
    · exact (hr.times x hx).trans ht
  epochs x hx epoch hep := by
    rcases List.mem_cons.1 hx with rfl | hx
    · exact hclaimed epoch hep
    · exact (hr.epochs x hx epoch hep).trans_le hle
  mirrors v := by
    by_cases hv : user = v
    · exact hv ▸ hm
    · rw [hother v hv]
      exact (hr.mirrors v).spared (hspares v hv)

lemma Reflects.step (hr : Reflects ttlMs h d now) (ht : now ≤ t) (call : PresenceCall) :
    Reflects ttlMs (⟨t, call, (d.perform t call).1⟩ :: h) (d.perform t call).2 t := by
  have held {user : UserId} {entry : PresenceEntry} (hlive : d.live t user = some entry) :
      LeaseMirrors ttlMs h user (some entry) :=
    (live_eq_some.1 hlive).1 ▸ hr.mirrors user
  cases call with
  | claim user gateway conn =>
    have heq : d.perform t (.claim user gateway conn) =
        ({ ok := true, epoch := ⟨d.nextEpoch⟩ },
          { d with
            nextEpoch := d.nextEpoch + 1
            entries := d.entries.insert user ⟨gateway, conn, ⟨d.nextEpoch⟩, t + d.ttlMs⟩ }) := by
      simp [perform, claim, hr.up]
    rw [heq]
    refine hr.changed ht rfl user rfl rfl (Nat.le_succ _) ?_
      (fun v hv => ⟨hv, fun _ => id, fun _ => id⟩)
      (fun v hv => OrderedMap.getElem?_insert_of_ne _ _ hv) ?_
    · intro epoch hep
      obtain rfl : ⟨d.nextEpoch⟩ = epoch := Option.some.inj hep
      exact Nat.lt_succ_self _
    · rw [OrderedMap.getElem?_insert_self, hr.ttl]
      exact leaseMirrors_claim
  | renew user gateway conn epoch =>
    rcases renew_cases t user gateway conn epoch hr.up with
      ⟨hfail, hsame, -⟩ | ⟨entry, hlive, rfl, heq⟩
    · simp only [perform, hsame]
      exact hr.spared ht rfl rfl fun v =>
        ⟨id, fun _ hren => Bool.false_ne_true (hfail.symm.trans hren.2.2), fun _ => id⟩
    · simp only [perform, heq]
      refine hr.changed ht rfl user rfl rfl le_rfl (fun _ hep => by cases hep)
        (fun v hv => ⟨id, fun _ hren => hv hren.1, fun _ => id⟩)
        (fun v hv => OrderedMap.getElem?_insert_of_ne _ _ hv) ?_
      rw [OrderedMap.getElem?_insert_self, hr.ttl]
      exact (held hlive).renewed (fun x hx => (hr.times x hx).trans ht) rfl
  | release user gateway conn epoch =>
    rcases release_cases t user gateway conn epoch hr.up with
      ⟨hfail, hsame, -⟩ | ⟨entry, hlive, rfl, heq⟩
    · simp only [perform, hsame]
      exact hr.spared ht rfl rfl fun v =>
        ⟨id, fun _ => id, fun _ hrel => Bool.false_ne_true (hfail.symm.trans hrel.2.2)⟩
    · simp only [perform, heq]
      refine hr.changed ht rfl user rfl rfl le_rfl (fun _ hep => by cases hep)
        (fun v hv => ⟨id, fun _ => id, fun _ hrel => hv hrel.1⟩)
        (fun v hv => ?_) ?_
      · rw [OrderedMap.getElem?_erase, if_neg hv]
      · rw [OrderedMap.getElem?_erase, if_pos rfl]
        exact (held hlive).released rfl
  | locate user => exact hr.spared ht rfl rfl fun v => ⟨id, fun _ => id, fun _ => id⟩

lemma Reflects.locate_iff (hr : Reflects ttlMs h d now) (user : UserId) (route : DeliveryRoute) :
    (d.locate now user).ok = true ∧ (d.locate now user).route = route ↔
      CurrentRoute ttlMs h now user route := by
  rw [locate_ok_iff now user hr.up]
  constructor
  · rintro ⟨entry, hlive, rfl⟩
    obtain ⟨hentry, hlt⟩ := live_eq_some.1 hlive
    obtain ⟨since, time, hheld, t, ht, hexp, -⟩ := hentry ▸ hr.mirrors user
    exact ⟨since, time, hheld.toLatestClaim, hheld.unreleased, t, ht, hexp ▸ hlt⟩
  · rintro ⟨since, time, hlatest, hun, t, ht, hlt⟩
    have hm := hr.mirrors user
    cases hentry : d.entries[user]? with
    | none =>
      rw [hentry] at hm
      exact absurd ⟨hlatest, hun⟩ (hm since time route)
    | some entry =>
      rw [hentry] at hm
      obtain ⟨since', time', hheld, t', -, hexp, hmax⟩ := hm
      obtain ⟨rfl, rfl, rfl⟩ := hlatest.unique hheld.toLatestClaim
      refine ⟨entry, live_eq_some.2 ⟨hentry, ?_⟩, rfl⟩
      have hle := hmax t ht
      omega

/-! ### The specification -/

end InMemoryPresenceDirectory

open InMemoryPresenceDirectory

end MuduoChat
