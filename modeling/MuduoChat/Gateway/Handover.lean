import MuduoChat.Gateway.FixedSink

/-!
# The old session goes, the new one comes

When a user connects again, the end of the old session and the beginning of the new one reach the
coordinator in either order.  If the old session ends first, its leases are given up and the new
session claims once.  If the new session begins first, it fences the leases of the old one and
claims; then the end of the old session finds nothing to give up and claims a second time.  Both
orders come to the same tables: the leases that are given up are the same ones, and a second claim
finds nothing to claim.
-/

namespace MuduoChat

open Std Coordinator Prog InMemoryMessageStore

/-! ### Rows that are given up -/

section Released

variable {s : InMemoryMessageStore} {u : UserId} {p : Delivery → Bool}

/-- The rows of a user that are given up, as they are written. -/
def InMemoryMessageStore.givenUp (s : InMemoryMessageStore) (u : UserId) (p : Delivery → Bool) :
    List Delivery :=
  ((s.deliveriesByRecipient u).filter p).map released

lemma nodup_key_givenUp (hs : s.Keyed) (u : UserId) (p : Delivery → Bool) :
    ((s.givenUp u p).map Delivery.key).Nodup := by
  have hkeys : (s.givenUp u p).map Delivery.key =
      ((s.deliveriesByRecipient u).filter p).map Delivery.key := by
    rw [givenUp, List.map_map]
    rfl
  rw [hkeys]
  exact (hs.nodup_deliveriesByRecipient u).sublist (List.filter_sublist.map Delivery.key)

lemma row_writeAll_givenUp (hs : s.Keyed) (hp : ∀ d q, p { d with sequence := q } = p d)
    (k : DeliveryKey) :
    (s.writeAll (s.givenUp u p)).row k = (s.row k).map fun d =>
      if d.recipient = u ∧ p d = true then released (s.fillSequence d) else d := by
  have hfill (d : Delivery) : p (s.fillSequence d) = p d := by
    rw [s.fillSequence_eq d]
    exact hp d _
  -- a row that is given up comes from the row under its key
  have horigin {d : Delivery} (hd : d ∈ s.givenUp u p) :
      ∃ cur, s.row d.key = some cur ∧ cur.recipient = u ∧ p cur = true ∧
        d = released (s.fillSequence cur) := by
    obtain ⟨r, hr, rfl⟩ := List.mem_map.1 hd
    obtain ⟨hmem, hpr⟩ := List.mem_filter.1 hr
    obtain ⟨cur, hcur, hu, rfl⟩ := hs.row_of_mem hmem
    exact ⟨cur, hcur, hu, by rwa [hfill] at hpr, rfl⟩
  cases hk : s.row k with
  | none =>
    rw [row_writeAll_of_notMem, hk]
    · rfl
    · intro hmem
      obtain ⟨d, hd, rfl⟩ := List.mem_map.1 hmem
      obtain ⟨cur, hcur, -⟩ := horigin hd
      rw [hk] at hcur
      cases hcur
  | some d =>
    have hkey : d.key = k := hs k d hk
    by_cases hsel : d.recipient = u ∧ p d = true
    · have hmem : released (s.fillSequence d) ∈ s.givenUp u p := by
        refine List.mem_map_of_mem (List.mem_filter.2 ⟨?_, by rw [hfill]; exact hsel.2⟩)
        exact mem_deliveriesByRecipient.2 ⟨k, d, hk, hsel.1, rfl⟩
      have hreleased : (released (s.fillSequence d)).key = k :=
        (s.fillSequence_key d).trans hkey
      have hrow := row_writeAll_of_mem (nodup_key_givenUp hs u p) hmem
        (by rw [hreleased, hk]; rfl)
      rw [hreleased] at hrow
      rw [hrow, Option.map_some, if_pos hsel]
    · rw [row_writeAll_of_notMem, hk, Option.map_some, if_neg hsel]
      intro hmem
      obtain ⟨d', hd', hkd'⟩ := List.mem_map.1 hmem
      obtain ⟨cur, hcur, hu, hpc, -⟩ := horigin hd'
      rw [hkd', hk] at hcur
      cases hcur
      exact hsel ⟨hu, hpc⟩

end Released

/-! ### The two operations, run on paper -/

section Operations

variable {ι : Type} [DecidableEq ι] {now : ℤ} {sink : DeliveryAttempt → DeliverDisposition} {i : ι}
  {co : Coordinator} {session : SessionIdentity} {w : World ι}

variable (now sink i) in
lemma forEach_release_leads (p : Delivery → Bool) (ds : List Delivery) :
    ∃ w1, Leads (World.fixed now sink i)
        (Prog.forEach (fun d => Prog.when (p d) (release d)) ds) w (.ret ()) w1 ∧
      w1.store = w.store.writeAll ((ds.filter p).map released) ∧ w1.process = w.process := by
  induction ds generalizing w with
  | nil => exact ⟨w, Leads.refl _ _, rfl, rfl⟩
  | cons d ds ih =>
    cases hd : p d with
    | false =>
      rw [Prog.forEach, hd, List.filter_cons_of_neg (by simp [hd])]
      exact ih
    | true =>
      rw [Prog.forEach, hd, List.filter_cons_of_pos hd]
      obtain ⟨w1, hw1, hstore, hprocess⟩ := ih
      exact ⟨w1, (Leads.bind leads_release).trans hw1, hstore, hprocess⟩

/-- The memory of a process in which a session has come up. -/
def withSession (session : SessionIdentity) (p : Process) : Process :=
  { p with
    observedGenerationByUser :=
      p.observedGenerationByUser.insert session.userId session.generation
    activeByUser := p.activeByUser.insert session.userId session }

variable (now sink co) in
lemma sessionAvailable_leads (hcurrent : (w.process i).outdated session = false) :
    ∃ w1, Leads (World.fixed now sink i) (co.sessionAvailable session) w (co.claimFor session) w1 ∧
      w1.store = w.store.writeAll (w.store.givenUp session.userId (co.fenced session)) ∧
      w1.process i = withSession session (w.process i) := by
  obtain ⟨w1, hw1, hstore, hprocess⟩ := forEach_release_leads now sink i
    (w := { w with process := Function.update w.process i { w.process i with
      observedGenerationByUser :=
        (w.process i).observedGenerationByUser.insert session.userId session.generation } })
    (co.fenced session) (w.store.deliveriesByRecipient session.userId)
  refine ⟨{ w1 with process := Function.update w1.process i { w1.process i with
    activeByUser := (w1.process i).activeByUser.insert session.userId session } }, ?_, hstore, ?_⟩
  · refine (Leads.bind leads_load).trans ?_
    rw [if_neg (by simp [hcurrent])]
    exact (Leads.bind leads_save).trans ((Leads.bind leads_store).trans
      (hw1.bind.trans (Leads.bind leads_modify)))
  · simp [hprocess, withSession]

variable (now sink i co session w) in
lemma sessionClosed_leads :
    ∃ w1, Leads (World.fixed now sink i) (co.sessionClosed session) w
        (match (withoutSession session (w.process i)).activeByUser[session.userId]? with
          | some active => co.claimFor active
          | none => pure ()) w1 ∧
      w1.store = w.store.writeAll (w.store.givenUp session.userId fun d =>
        d.state = .inFlight ∧ d.leaseOwner = session) ∧
      w1.process i = withoutSession session (w.process i) := by
  obtain ⟨w1, hw1, hstore, hprocess⟩ := forEach_release_leads now sink i
    (w := { w with process := Function.update w.process i (withoutSession session (w.process i)) })
    (fun d => d.state = .inFlight ∧ d.leaseOwner = session)
    (w.store.deliveriesByRecipient session.userId)
  refine ⟨w1, (Leads.bind leads_load).trans ((Leads.bind leads_save).trans
    ((Leads.bind leads_store).trans hw1.bind)), hstore, ?_⟩
  simp [hprocess]

end Operations

/-! ### The two orders -/

/-- The old session goes, then the new one comes. -/
def closeThenArrive (co : Coordinator) (u : UserId) (g₁ g₂ : ℕ) : Code Unit := do
  co.sessionClosed ⟨u, g₁⟩
  co.sessionAvailable ⟨u, g₂⟩

/-- The new session comes, then the old one goes. -/
def arriveThenClose (co : Coordinator) (u : UserId) (g₁ g₂ : ℕ) : Code Unit := do
  co.sessionAvailable ⟨u, g₂⟩
  co.sessionClosed ⟨u, g₁⟩

/-- Two states have the same delivery rows, and the coordinator of a process has the same active
sessions, paused sessions and observed generations in both. -/
structure SameTables {ι : Type} (i : ι) (w w' : World ι) : Prop where
  row : ∀ k, w.store.row k = w'.store.row k
  active : ∀ u : UserId, (w.process i).activeByUser[u]? = (w'.process i).activeByUser[u]?
  paused : ∀ s, s ∈ (w.process i).paused ↔ s ∈ (w'.process i).paused
  observed : ∀ u : UserId,
    (w.process i).observedGenerationByUser[u]? = (w'.process i).observedGenerationByUser[u]?

section Orders

variable {ι : Type} [DecidableEq ι] {now : ℤ} {sink : DeliveryAttempt → DeliverDisposition} {i : ι}
  {co : Coordinator} {w : World ι} {u : UserId} {g₁ g₂ : ℕ}

/-- The store in which the leases of earlier sessions have been fenced. -/
def fencedStore (co : Coordinator) (session : SessionIdentity) (s : InMemoryMessageStore) :
    InMemoryMessageStore :=
  s.writeAll (s.givenUp session.userId (co.fenced session))

variable {s : InMemoryMessageStore}

lemma row_fencedStore (hs : s.Keyed) (session : SessionIdentity)
    (k : DeliveryKey) :
    (fencedStore co session s).row k = (s.row k).map fun d =>
      if d.recipient = session.userId ∧ co.fenced session d = true then
        released (s.fillSequence d) else d :=
  row_writeAll_givenUp hs (fun _ _ => rfl) k

variable (co) in
lemma fenced_of_old (hne : g₁ ≠ g₂) {d : Delivery}
    (hd : d.state = .inFlight ∧ d.leaseOwner = ⟨u, g₁⟩) : co.fenced ⟨u, g₂⟩ d = true := by
  obtain ⟨hstate, howner⟩ := hd
  simp [fenced, hstate, howner, hne]

/-- Fencing after the old session has given up its leases leaves the same rows as fencing
alone. -/
lemma row_fencedStore_of_closed (hs : s.Keyed) (hne : g₁ ≠ g₂)
    (k : DeliveryKey) :
    (fencedStore co ⟨u, g₂⟩ (s.writeAll (s.givenUp u fun d =>
      d.state = .inFlight ∧ d.leaseOwner = ⟨u, g₁⟩))).row k =
      (fencedStore co ⟨u, g₂⟩ s).row k := by
  rw [row_fencedStore (hs.writeAll _), row_fencedStore hs,
    row_writeAll_givenUp hs (fun _ _ => rfl), Option.map_map]
  refine Option.map_congr fun d _ => ?_
  simp only [Function.comp_apply, decide_eq_true_eq, fillSequence_writeAll]
  by_cases hold : d.recipient = u ∧ d.state = .inFlight ∧ d.leaseOwner = ⟨u, g₁⟩
  · -- the row is given up already, and then there is nothing to fence
    have hfenced := fenced_of_old co hne hold.2
    rw [if_pos hold, if_neg, if_pos ⟨hold.1, hfenced⟩]
    simp [fenced, released]
  · rw [if_neg hold]

variable (now sink co) in
lemma closeThenArrive_leads (hs : w.store.Keyed) (hlt : g₁ < g₂)
    (hactive : (w.process i).activeByUser[u]? = some ⟨u, g₁⟩ ∨
      (w.process i).activeByUser[u]? = none)
    (hobserved : ∀ g, (w.process i).observedGenerationByUser[u]? = some g → g ≤ g₂) :
    ∃ w1, Leads (World.fixed now sink i) (closeThenArrive co u g₁ g₂) w
        (co.claimFor ⟨u, g₂⟩) w1 ∧
      (∀ k, w1.store.row k = (fencedStore co ⟨u, g₂⟩ w.store).row k) ∧
      w1.store.messagesById = w.store.messagesById ∧
      w1.process i = withSession ⟨u, g₂⟩ (withoutSession ⟨u, g₁⟩ (w.process i)) := by
  obtain ⟨w1, hw1, hstore1, hprocess1⟩ := sessionClosed_leads now sink i co ⟨u, g₁⟩ w
  -- the old session was the active one, or there was none
  have hnone : (withoutSession ⟨u, g₁⟩ (w.process i)).activeByUser[u]? = none := by
    rcases hactive with h | h
    · simp [withoutSession, h]
    · simp [withoutSession, h]
  rw [hnone] at hw1
  have hcurrent : (w1.process i).outdated ⟨u, g₂⟩ = false := by
    rw [hprocess1]
    unfold Process.outdated withoutSession
    dsimp only
    split
    · rename_i g hg
      simpa using hobserved g hg
    · rfl
  obtain ⟨w2, hw2, hstore2, hprocess2⟩ := sessionAvailable_leads now sink co hcurrent
  refine ⟨w2, hw1.bind.trans hw2, fun k => ?_, ?_, by rw [hprocess2, hprocess1]⟩
  · rw [hstore2, hstore1]
    exact row_fencedStore_of_closed hs hlt.ne k
  · rw [hstore2, messagesById_writeAll, hstore1, messagesById_writeAll]

variable (now sink co g₁) in
lemma arriveThenClose_leads
    (hobserved : ∀ g, (w.process i).observedGenerationByUser[u]? = some g → g ≤ g₂) :
    ∃ w1, Leads (World.fixed now sink i) (arriveThenClose co u g₁ g₂) w
        (co.claimFor ⟨u, g₂⟩ >>= fun _ => co.sessionClosed ⟨u, g₁⟩) w1 ∧
      w1.store = fencedStore co ⟨u, g₂⟩ w.store ∧
      w1.process i = withSession ⟨u, g₂⟩ (w.process i) := by
  have hcurrent : (w.process i).outdated ⟨u, g₂⟩ = false := by
    unfold Process.outdated
    split
    · rename_i g hg
      simpa using hobserved g hg
    · rfl
  obtain ⟨w1, hw1, hstore, hprocess⟩ := sessionAvailable_leads now sink co hcurrent
  exact ⟨w1, hw1.bind_right _, hstore, hprocess⟩

/-- No row of the user is leased to a session. -/
def NoLease (session : SessionIdentity) (s : InMemoryMessageStore) : Prop :=
  ∀ k d, s.row k = some d → d.recipient = session.userId →
    ¬(d.state = .inFlight ∧ d.leaseOwner = session)

lemma noLease_fencedStore (hs : s.Keyed) (hne : g₁ ≠ g₂) :
    NoLease ⟨u, g₁⟩ (fencedStore co ⟨u, g₂⟩ s) := by
  intro k d hk hu hold
  rw [row_fencedStore hs, Option.map_eq_some_iff] at hk
  obtain ⟨cur, -, hd⟩ := hk
  split at hd
  · subst hd
    exact absurd hold.1 (by simp [released])
  · rename_i hnot
    subst hd
    exact hnot ⟨hu, fenced_of_old co hne hold⟩

lemma NoLease.writeAll {session : SessionIdentity}
    (h : NoLease session s) {ds : List Delivery} (hds : ∀ d ∈ ds, d.leaseOwner ≠ session) :
    NoLease session (s.writeAll ds) := by
  induction ds generalizing s with
  | nil => exact h
  | cons d ds ih =>
    refine ih ?_ fun d' hd' => hds d' (List.mem_cons_of_mem d hd')
    intro k d' hk hu hlease
    rw [row_updateDelivery] at hk
    split at hk
    · cases hk
      exact hds d (by simp) hlease.2
    · exact h k d' hk hu hlease

variable (now sink co) in
/-- If the old session has no lease and the new one is active, the end of the old session comes
to a claim for the new one. -/
lemma sessionClosed_leads_claim (hne : g₁ ≠ g₂) (hlease : NoLease ⟨u, g₁⟩ w.store)
    (hactive : (w.process i).activeByUser[u]? = some ⟨u, g₂⟩) :
    ∃ w1, Leads (World.fixed now sink i) (co.sessionClosed ⟨u, g₁⟩) w (co.claimFor ⟨u, g₂⟩) w1 ∧
      w1.store = w.store ∧
      w1.process i = { w.process i with paused := (w.process i).paused.erase ⟨u, g₁⟩ } := by
  obtain ⟨w1, hw1, hstore, hprocess⟩ := sessionClosed_leads now sink i co ⟨u, g₁⟩ w
  have hkeep : withoutSession ⟨u, g₁⟩ (w.process i) =
      { w.process i with paused := (w.process i).paused.erase ⟨u, g₁⟩ } := by
    have hother : (w.process i).activeByUser[u]? ≠ some ⟨u, g₁⟩ := by
      rw [hactive]
      simpa using hne.symm
    unfold withoutSession
    rw [if_neg hother]
  have hnone : w.store.givenUp u (fun d => d.state = .inFlight ∧ d.leaseOwner = ⟨u, g₁⟩) = [] := by
    rw [givenUp, List.map_eq_nil_iff, List.filter_eq_nil_iff]
    intro d hd
    obtain ⟨k, cur, hcur, hu, rfl⟩ := mem_deliveriesByRecipient.1 hd
    rw [w.store.fillSequence_eq cur]
    simpa using hlease k cur hcur hu
  rw [hkeep] at hw1 hprocess
  rw [hactive] at hw1
  exact ⟨w1, hw1, by rw [hstore, hnone]; rfl, hprocess⟩

end Orders

/-! ### Claims in two states with the same rows -/

section Agree

variable {ι : Type} [DecidableEq ι] {i : ι} {c : Claiming} {w wA wB : World ι}

/-- Claims in two states with the same rows and messages both hang, or they come to the same
outcome.  Then the session is paused, or there is nothing left to claim for it. -/
lemma claimFor_agrees (hjitter : c.co.config.jitterFraction = 0) (hs : wB.store.Keyed)
    (hrow : ∀ k, wA.store.row k = wB.store.row k)
    (hmessages : wA.store.messagesById = wB.store.messagesById)
    (hfind : wB.store.findMessage = c.find)
    (hpaused : c.session ∈ (wA.process i).paused ↔ c.session ∈ (wB.process i).paused) :
    (∀ ωs, (c.co.claimFor c.session).eval (c.handle i) ωs wA = none ∧
      (c.co.claimFor c.session).eval (c.handle i) ωs wB = none) ∨
    ∃ o w1 w2, Leads (c.handle i) (c.co.claimFor c.session) wA (.ret ()) w1 ∧
      ClaimEffect c i wA o w1 ∧
      Leads (c.handle i) (c.co.claimFor c.session) wB (.ret ()) w2 ∧ ClaimEffect c i wB o w2 ∧
      (∀ d ∈ o.writes, d.leaseOwner = c.session) ∧
      (c.session ∈ (w2.process i).paused ∨
        c.Settled (w2.store.deliveriesByRecipient c.session.userId)) := by
  have hfindA : wA.store.findMessage = c.find := by
    rw [← hfind]
    funext m
    unfold InMemoryMessageStore.findMessage
    rw [hmessages]
  by_cases hin : c.session ∈ (wB.process i).paused
  · exact .inr ⟨{}, wA, wB, claimFor_leads_paused (hpaused.2 hin), ClaimEffect.refl c i wA,
      claimFor_leads_paused hin, ClaimEffect.refl c i wB, by simp, .inl hin⟩
  · have hinA : c.session ∉ (wA.process i).paused := fun h => hin (hpaused.1 h)
    have hgroups : wA.groupsOf c.session = wB.groupsOf c.session := by
      unfold World.groupsOf
      rw [deliveriesByRecipient_congr hrow hmessages]
    by_cases hsome : ∃ o, c.ClaimsAll (wB.groupsOf c.session) o
    · obtain ⟨o, ho⟩ := hsome
      obtain ⟨w1, hw1, heffect1⟩ := claimFor_leads (.inl hjitter) hfindA hinA (hgroups ▸ ho)
      obtain ⟨w2, hw2, heffect2⟩ := claimFor_leads (.inl hjitter) hfind hin ho
      refine .inr ⟨o, w1, w2, hw1, heffect1, hw2, heffect2, ho.leaseOwner, ?_⟩
      cases hpause : o.paused with
      | true =>
        refine .inl ?_
        rw [heffect2.paused, if_pos hpause]
        exact TreeSet.mem_insert_self
      | false => exact .inr (heffect2.settled hs ho hpause)
    · refine .inl fun ωs => ⟨?_, ?_⟩
      · rcases claimFor_gives hfindA hinA ωs with h | ⟨_, _, -, o, ho, -⟩
        · exact h
        · exact absurd ⟨o, hgroups ▸ ho⟩ hsome
      · rcases claimFor_gives hfind hin ωs with h | ⟨_, _, -, o, ho, -⟩
        · exact h
        · exact absurd ⟨o, ho⟩ hsome

end Agree

/-- The tables after one claim in the first order, and after two claims in the second one of which
the later wrote nothing. -/
lemma sameTables_of_effects {ι : Type} {i : ι} {c : Claiming} {wA wB w1 w2 w3 w4 : World ι}
    {u : UserId} {g₁ g₂ : ℕ} {p : Process} {o : ClaimOutcome} {attempts : List DeliveryAttempt}
    (hsession : c.session = ⟨u, g₂⟩) (hne : g₁ ≠ g₂) (hrow : ∀ k, wA.store.row k = wB.store.row k)
    (hA : wA.process i = withSession ⟨u, g₂⟩ (withoutSession ⟨u, g₁⟩ p))
    (hB : wB.process i = withSession ⟨u, g₂⟩ p) (h1 : ClaimEffect c i wA o w1)
    (h2 : ClaimEffect c i wB o w2) (hstore3 : w3.store = w2.store)
    (hprocess3 : w3.process i =
      { w2.process i with paused := (w2.process i).paused.erase ⟨u, g₁⟩ })
    (h4 : ClaimEffect c i w3 ⟨[], attempts, false⟩ w4) : SameTables i w1 w4 where
  row k := by
    rw [h1.store, h4.store, hstore3, h2.store, writeAll_nil]
    exact row_writeAll_congr hrow o.writes k
  active v := by
    rw [h1.active, h4.active, hprocess3, hA]
    dsimp only
    rw [h2.active, hB]
    unfold withSession withoutSession
    dsimp only
    rw [OrderedMap.getElem?_insert, OrderedMap.getElem?_insert]
    split_ifs with hv
    · rfl
    · rw [OrderedMap.getElem?_erase, if_neg hv]
    · rfl
  paused session := by
    have hold : (⟨u, g₁⟩ : SessionIdentity) ≠ ⟨u, g₂⟩ := by simpa using hne
    have hfirst : (w1.process i).paused =
        if o.paused then (p.paused.erase ⟨u, g₁⟩).insert ⟨u, g₂⟩ else p.paused.erase ⟨u, g₁⟩ := by
      rw [h1.paused, hA, hsession]
      rfl
    have hsecond : (w4.process i).paused =
        (if o.paused then p.paused.insert ⟨u, g₂⟩ else p.paused).erase ⟨u, g₁⟩ := by
      rw [h4.paused, hprocess3, if_neg (by simp)]
      dsimp only
      rw [h2.paused, hB, hsession]
      rfl
    rw [hfirst, hsecond]
    cases o.paused with
    | true =>
      simp only [if_true, TreeSet.mem_insert, TreeSet.mem_erase, LawfulEqCmp.compare_eq_iff_eq]
      constructor
      · rintro (rfl | ⟨hother, hin⟩)
        · exact ⟨by simpa using hold, .inl rfl⟩
        · exact ⟨hother, .inr hin⟩
      · rintro ⟨hother, rfl | hin⟩
        · exact .inl rfl
        · exact .inr ⟨hother, hin⟩
    | false => simp
  observed v := by
    rw [h1.observed, h4.observed, hprocess3, hA]
    dsimp only
    rw [h2.observed, hB]
    rfl

/-- **The end of the old session and the arrival of the new one commute.**  For a clock that stands
still, a sink whose answer is a function of the attempt and no jitter, both orders leave the same
rows, active sessions, paused sessions and observed generations.  A lease of 2^63 ms or more is
none as a signed number, and then both orders may hang in their first claim; with any other lease
both return. -/
theorem close_and_arrival_commute {ι : Type} [DecidableEq ι] (co : Coordinator) (i : ι)
    (w : World ι) (now : ℤ) (sink : DeliveryAttempt → DeliverDisposition) (u : UserId)
    (g₁ g₂ : ℕ) (hkeyed : w.store.Keyed) (hjitter : co.config.jitterFraction = 0)
    (hlease : 0 < co.leaseMs)
    (hactive : (w.process i).activeByUser[u]? = some ⟨u, g₁⟩ ∨
      (w.process i).activeByUser[u]? = none)
    (hlt : g₁ < g₂)
    (hobserved : ∀ g, (w.process i).observedGenerationByUser[u]? = some g → g ≤ g₂)
    (ωs ωs' : List Env) :
    ((closeThenArrive co u g₁ g₂).eval (World.fixed now sink i) ωs w = none ∧
        (arriveThenClose co u g₁ g₂).eval (World.fixed now sink i) ωs' w = none ∧
        2 ^ 63 ≤ co.leaseMs) ∨
      ∃ w₁ w₂,
        (closeThenArrive co u g₁ g₂).eval (World.fixed now sink i) ωs w = some (.ok (), w₁) ∧
        (arriveThenClose co u g₁ g₂).eval (World.fixed now sink i) ωs' w = some (.ok (), w₂) ∧
        SameTables i w₁ w₂ := by
  obtain ⟨wA, hA, hrowA, hmessagesA, hprocessA⟩ := closeThenArrive_leads now sink co
    hkeyed hlt hactive hobserved
  obtain ⟨wB, hB, hstoreB, hprocessB⟩ := arriveThenClose_leads now sink co g₁ hobserved
  have hne : (⟨u, g₁⟩ : SessionIdentity) ≠ ⟨u, g₂⟩ := by simpa using hlt.ne
  let c : Claiming := ⟨co, ⟨u, g₂⟩, now, w.store.findMessage, sink⟩
  have hmessagesB : wB.store.messagesById = w.store.messagesById := by
    rw [hstoreB, fencedStore, messagesById_writeAll]
  have hfindB : wB.store.findMessage = c.find := by
    rw [hstoreB, fencedStore, findMessage_writeAll]
  have hkeyedB : wB.store.Keyed := by
    rw [hstoreB]
    exact hkeyed.writeAll _
  have hpaused : c.session ∈ (wA.process i).paused ↔ c.session ∈ (wB.process i).paused := by
    rw [hprocessA, hprocessB]
    simp [withSession, withoutSession, c, hlt.ne]
  rcases claimFor_agrees (i := i) (c := c) hjitter hkeyedB (fun k => by rw [hrowA, hstoreB])
      (hmessagesA.trans hmessagesB.symm) hfindB hpaused with
    hhang | ⟨o, w₁, w₂, hw₁, heffect₁, hw₂, heffect₂, howner, hnothing⟩
  · -- the first claim of each order hangs
    refine .inl ⟨?_, ?_, ?_⟩
    · obtain ⟨ωs₁, heq⟩ := hA.eval ωs
      rw [heq]
      exact (hhang ωs₁).1
    · obtain ⟨ωs₁, heq⟩ := hB.eval ωs'
      rw [heq]
      exact eval_bind_of_none (hhang ωs₁).2
    · by_contra hsmall
      have hpos : 0 < Json.toInt64 co.leaseMs := by
        rw [Json.toInt64_of_lt (by omega)]
        omega
      have hends := @claimFor_ends ι _ i co ⟨u, g₂⟩ wB hpos
      obtain ⟨_, _, hsome, -⟩ := hends.eval_fixed now sink []
      rw [(hhang []).2] at hsome
      cases hsome
  · -- the old session has nothing to give up, and there is nothing more to claim
    have hactive₂ : (w₂.process i).activeByUser[u]? = some ⟨u, g₂⟩ := by
      rw [heffect₂.active, hprocessB]
      simp [withSession]
    have hnolease : NoLease ⟨u, g₁⟩ w₂.store := by
      rw [heffect₂.store, hstoreB]
      refine (noLease_fencedStore hkeyed hlt.ne).writeAll fun d hd => ?_
      rw [howner d hd]
      exact hne.symm
    obtain ⟨w₃, hw₃, hstore₃, hprocess₃⟩ := sessionClosed_leads_claim now sink co
      hlt.ne hnolease hactive₂
    have hfind₃ : w₃.store.findMessage = c.find := by
      rw [hstore₃, heffect₂.findMessage, hfindB]
    have hnothing₃ : c.session ∈ (w₃.process i).paused ∨
        c.Settled (w₃.store.deliveriesByRecipient c.session.userId) := by
      rw [hstore₃, hprocess₃]
      refine hnothing.imp_left fun hin => ?_
      simpa [c, hlt.ne] using hin
    obtain ⟨attempts, w₄, hw₄, heffect₄, -⟩ := claimFor_leads_again hfind₃ hnothing₃
    obtain ⟨ωs₁, heqA⟩ := (hA.trans hw₁).eval ωs
    obtain ⟨ωs₂, heqB⟩ := (hB.trans (hw₂.bind.trans (hw₃.trans hw₄))).eval ωs'
    exact .inr ⟨w₁, w₄, heqA, heqB, sameTables_of_effects rfl hlt.ne
      (fun k => by rw [hrowA, hstoreB]) hprocessA hprocessB heffect₁ heffect₂ hstore₃ hprocess₃
      heffect₄⟩

/-- A coordinator without jitter. -/
def firm : Coordinator := { leaseMs := 30000, config := { jitterFraction := 0 }, bootId := 1 }

/-- The lease of the first row is given up, and both rows are claimed for the new session. -/
theorem close_and_arrival_commute_twoWaiting :
    (∃ w₁ w₂, (closeThenArrive firm ⟨2⟩ 1 2).eval (World.fixed 5000 (fun _ => .accepted) ()) []
          twoWaiting = some (.ok (), w₁) ∧
      (arriveThenClose firm ⟨2⟩ 1 2).eval (World.fixed 5000 (fun _ => .accepted) ()) []
          twoWaiting = some (.ok (), w₂) ∧
      SameTables () w₁ w₂) ∧
    ((closeThenArrive firm ⟨2⟩ 1 2).eval (World.fixed 5000 (fun _ => .accepted) ()) []
        twoWaiting).map (fun r => (r.2.sent.length, (r.2.store.row ⟨1, 2⟩).map fun d =>
          (d.leaseOwner, d.attemptCount))) = some (2, some (⟨⟨2⟩, 2⟩, 2)) := by
  have hkeyed : twoWaiting.store.Keyed :=
    (InMemoryMessageStore.Keyed.insertDelivery keyed_empty _).insertDelivery _
  have h := close_and_arrival_commute firm () twoWaiting 5000 (fun _ => .accepted) ⟨2⟩ 1 2 hkeyed
    rfl (by decide) (.inl (by decide +kernel)) (by decide) (fun g hg => ?_) [] []
  · exact ⟨h.resolve_left fun hhang => absurd hhang.2.2 (by decide), by decide +kernel⟩
  · have hone : (twoWaiting.process ()).observedGenerationByUser[(⟨2⟩ : UserId)]? = some 1 := by
      decide +kernel
    cases hone.symm.trans hg
    decide

end MuduoChat
