import MuduoChat.Gateway.Fencing
import MuduoChat.Gateway.Runs

/-!
# Users who are online are served

A conversation of a user is served if one of its rows is in flight whenever there is an open
one.  Claiming for a session serves all conversations of its user, as long as the sink accepts
what it is handed.  This module follows the programs with that in mind: what each of them does
to the users it is about, and that it leaves the others alone.
-/

namespace MuduoChat

open Std Coordinator ReliableMessaging Prog InMemoryMessageStore

namespace InMemoryMessageStore

variable {s s₁ s₂ : InMemoryMessageStore} {u : UserId}

lemma OtherUsers.refl (s : InMemoryMessageStore) (u : UserId) : OtherUsers s s u :=
  fun _ _ => rfl

lemma OtherUsers.trans (h : OtherUsers s s₁ u) (h' : OtherUsers s₁ s₂ u) : OtherUsers s s₂ u :=
  fun k hk => (h' k hk).trans (h k hk)

lemma Served.congr (hs : s.Served u)
    (hsame : ∀ k : DeliveryKey, k.recipient = u.value → s₁.row k = s.row k) : s₁.Served u := by
  intro c k cur hcur hk hconv hopen
  rw [hsame k hk] at hcur
  obtain ⟨k', d, hd, hk', hrest⟩ := hs c k cur hcur hk hconv hopen
  exact ⟨k', d, by rw [hsame k' hk', hd], hk', hrest⟩

lemma otherUsers_updateDelivery (s : InMemoryMessageStore) {d : Delivery} (hd : d.recipient = u) :
    OtherUsers s (s.updateDelivery d) u := by
  intro k hk
  rw [row_updateDelivery, if_neg]
  rintro ⟨rfl, -⟩
  exact hk (by rw [← hd]; rfl)

lemma Served.cleanup (hs : s.Served u) (ackedBeforeMs expiredBeforeMs : ℤ) (limit : ℕ) :
    (s.cleanupDeliveries ackedBeforeMs expiredBeforeMs limit).2.Served u := by
  intro c k cur hcur hk hconv hopen
  rcases s.row_cleanupDeliveries ackedBeforeMs expiredBeforeMs limit k with hsame | ⟨_, -, -, hnone⟩
  swap
  · rw [hnone] at hcur
    cases hcur
  rw [hsame] at hcur
  obtain ⟨k', d, hd, hk', hconv', hfly⟩ := hs c k cur hcur hk hconv hopen
  rcases s.row_cleanupDeliveries ackedBeforeMs expiredBeforeMs limit k' with hsame' | ⟨d', hd', hterm, -⟩
  · exact ⟨k', d, hsame'.trans hd, hk', hconv', hfly⟩
  · obtain rfl : d = d' := Option.some.inj (hd.symm.trans hd')
    rw [hfly] at hterm
    simp at hterm

end InMemoryMessageStore

/-! ### The contract -/

/-- What a process can count on if the sink accepts everything: no session is paused, and each
active session stands under its own user. -/
structure Calm (w : World Unit) : Prop where
  consistent : w.Consistent
  unpaused : ∀ session, session ∉ (w.process ()).paused
  keyed : (w.process ()).ActiveKeyed
  accepted : ∀ e ∈ w.sent, e.2 = .accepted

/-- The memory that may be written. -/
def CalmSave : Call → World Unit → Prop
  | .save p, _ => (∀ session, session ∉ p.paused) ∧ p.ActiveKeyed
  | _, _ => True

/-- The contract under which programs are followed here. -/
abbrev calmContract : Contract Port (World Unit) Env := World.under Calm True () CalmSave

structure ClaimedFor (u : UserId) (w w₁ : World Unit) : Prop where
  served : w₁.store.Served u
  others : w.store.OtherUsers w₁.store u
  active : (w₁.process ()).activeByUser = (w.process ()).activeByUser

/-- The users with an active session are served, except possibly those that wait for a claim. -/
def ServedExcept (waiting : UserId → Prop) (w : World Unit) : Prop :=
  ∀ (u : UserId) (session : SessionIdentity),
    (w.process ()).activeByUser[u]? = some session → ¬waiting u → w.store.Served u

/-- All users with an active session are served. -/
abbrev AllServed (w : World Unit) : Prop := ServedExcept (fun _ => False) w

/-! ### Claims -/

variable {S : Setup Unit} {w : World Unit}

lemma ClaimSave.active_eq {session : SessionIdentity} {c : Call} {ω : Env}
    {r : Except Fault c.Value} {w₁ : World Unit} (hfor : ClaimsFor S () session c w)
    (hsave : ClaimSave () session c w) (h : World.handle () c ω w = some (r, w₁)) :
    (w₁.process ()).activeByUser = (w.process ()).activeByUser := by
  rcases World.handle_process_eq h with ⟨p, rfl, hp⟩ | rfl | hsame
  · rw [hp]
    exact hsave.1
  · exact absurd hfor id
  · rw [hsame]

/-- **Claiming for a session** serves its user. -/
lemma claimFor_calm (session : SessionIdentity) :
    Sat calmContract (Returns fun _ w₁ => ClaimedFor session.userId w w₁)
      ((S.messaging ()).claimFor session) w := by
  refine Sat.of_rely (fun _ => rfl) ?_
  rintro _ rfl hcalm
  have hframe := Sat.frame (C := S.claims () session)
    (R := fun w w₁ => (w₁.process ()).activeByUser = (w.process ()).activeByUser)
    (fun h h' => h'.trans h) (by rintro w _ rfl; rfl)
    (fun c ω w r w₁ _ hallow h => ClaimSave.active_eq hallow.1.1 hallow.2 h)
    (claimFor_claims (w := w) session)
  refine Sat.mono (Sat.weaken (C := S.claims () session) (fun _ _ _ _ h => h)
    (fun _ hw => Calm.consistent hw) (fun _ _ h => h) (fun _ => trivial) (fun c w hw hallow => ?_)
    hframe) ?_
  · cases c with
    | save p =>
      obtain ⟨⟨hothers, -⟩, hactive, hself⟩ := hallow
      refine ⟨fun other hmem => ?_, fun u s hs => hw.keyed u s (hactive ▸ hs)⟩
      by_cases hother : other = session
      · subst hother
        exact (hself hmem).elim (hw.unpaused _) (absurd hw.accepted)
      · exact hw.unpaused other (hothers other hother hmem)
    | _ => trivial
  · rintro (_ | _) w₁ hcalm₁ ⟨hclaim, hactive⟩
    · exact absurd hclaim id
    · exact ⟨hclaim.2 (hcalm.unpaused session) hcalm₁.accepted, hclaim.1, hactive⟩

/-! ### Users that wait for a claim -/

section Waiting

variable {P P' : UserId → Prop} {w₁ : World Unit}

lemma ServedExcept.mono (hw : ServedExcept P w) (hP : ∀ u, P u → P' u) : ServedExcept P' w :=
  fun u session hsession hu => hw u session hsession fun h => hu (hP u h)

lemma ServedExcept.congr (hw : ServedExcept P w)
    (hrows : ∀ (u : UserId) (k : DeliveryKey), ¬P u → k.recipient = u.value →
      w₁.store.row k = w.store.row k)
    (hactive : ∀ (u : UserId) (session : SessionIdentity), ¬P u →
      (w₁.process ()).activeByUser[u]? = some session →
      (w.process ()).activeByUser[u]? = some session) : ServedExcept P w₁ := by
  intro u session hsession hu
  exact (hw u session (hactive u session hu hsession) hu).congr fun k hk => hrows u k hu hk

lemma ServedExcept.others {v : UserId} (hw : ServedExcept P w) (hv : P v)
    (hothers : w.store.OtherUsers w₁.store v)
    (hactive : (w₁.process ()).activeByUser = (w.process ()).activeByUser) :
    ServedExcept P w₁ := by
  refine hw.congr (fun u k hu hk => hothers k ?_) fun u session _ hs => hactive ▸ hs
  rw [hk]
  rintro heq
  obtain rfl : u = v := Id.ext heq
  exact hu hv

lemma ClaimedFor.servedExcept {v : UserId} (h : ClaimedFor v w w₁) (hw : ServedExcept P w)
    (hP : ∀ u, u ≠ v → P u → P' u) : ServedExcept P' w₁ := by
  intro u session hsession hu
  rw [h.active] at hsession
  by_cases huv : u = v
  · subst huv
    exact h.served
  · refine (hw u session hsession fun hPu => hu (hP u huv hPu)).congr fun k hk => h.others k ?_
    rw [hk]
    exact fun heq => huv (Id.ext heq)

lemma ClaimedFor.allServed {v : UserId} (h : ClaimedFor v w w₁) (hw : ServedExcept (· = v) w) :
    AllServed w₁ :=
  h.servedExcept hw fun _ hu heq => hu heq

end Waiting

lemma releases_calm (cond : Delivery → Bool) {u : UserId} {rows : List Delivery}
    (hrows : ∀ d ∈ rows, d.recipient = u) :
    Sat calmContract
      (Returns fun _ w₁ => w.store.OtherUsers w₁.store u ∧ w₁.process = w.process)
      (Prog.forEach (fun d => Prog.when (cond d) (release d)) rows) w := by
  refine Sat.returns_mono (sat_forEach
    (P := fun rows w₁ => (∀ d ∈ rows, d.recipient = u) ∧ w.store.OtherUsers w₁.store u ∧
      w₁.process = w.process) ?_ rows ⟨hrows, .refl _ _, rfl⟩) fun _ _ _ h => h.2
  rintro d rest w₁ ⟨hd, hothers, hprocess⟩
  have hrest : ∀ d ∈ rest, d.recipient = u := fun x hx => hd x (List.mem_cons_of_mem d hx)
  refine Sat.returns_when (fun _ => ?_) fun _ => sat_ret fun _ => ⟨hrest, hothers, hprocess⟩
  refine sat_store fun _ => ⟨trivial, sat_of_bind_ret (sat_record fun _ => ⟨trivial, ?_⟩)⟩
  have hrow : (released d).recipient = u := hd d List.mem_cons_self
  exact sat_ret fun _ => ⟨hrest, hothers.trans (otherUsers_updateDelivery _ hrow), hprocess⟩

/-! ### The coordinator -/

lemma acknowledge_calm (acker : SessionIdentity) (messageId : MessageId) :
    Sat calmContract (Returns fun _ w₁ => AllServed w → AllServed w₁)
      ((S.messaging ()).acknowledge acker messageId) w := by
  refine sat_load fun _ => ⟨trivial, ?_⟩
  split
  · exact sat_ret fun _ => id
  split
  · exact sat_ret fun _ => id
  refine sat_store fun _ => ⟨trivial, sat_ite (fun _ => sat_ret fun _ => id) fun _ => ?_⟩
  split
  · exact sat_ret fun _ => id
  rename_i mine hmine
  split
  · exact sat_ret fun _ => id
  refine sat_nowMs fun _ => ⟨trivial, fun now => sat_store fun _ => ⟨trivial, ?_⟩⟩
  have hmine' : mine.recipient = acker.userId := by simpa using List.find?_some hmine
  have hrow : (acked now mine).recipient = acker.userId := hmine'
  refine sat_bind (claimFor_calm acker) fun _ w₁ _ hclaim => ?_
  refine sat_record fun _ => ⟨trivial, sat_record fun _ => ⟨trivial, ?_⟩⟩
  refine sat_record fun _ => ⟨trivial, sat_ret fun _ hw => hclaim.allServed ?_⟩
  exact (hw.mono (by simp)).others rfl (otherUsers_updateDelivery _ hrow) rfl

lemma sessionAvailable_coordinator_calm (session : SessionIdentity) :
    Sat calmContract (Returns fun _ w₁ => AllServed w → AllServed w₁)
      (Coordinator.sessionAvailable (S.messaging ()) session) w := by
  refine sat_load fun hcalm => ⟨trivial, ?_⟩
  split
  · exact sat_ret fun _ => id
  refine sat_save fun _ => ⟨⟨hcalm.unpaused, hcalm.keyed⟩, sat_store fun _ => ⟨trivial, ?_⟩⟩
  refine sat_bind (releases_calm _ fun d hd => recipient_of_mem hd) ?_
  rintro - w₁ - ⟨hothers, hprocess⟩
  refine sat_modify fun hcalm1 => ⟨trivial, ⟨hcalm1.unpaused, ?_⟩, ?_⟩
  · intro u s hs
    by_cases hu : session.userId = u
    · subst hu
      have hsame : session = s := by simpa using hs
      rw [hsame]
    · exact hcalm1.keyed u s (by simpa [OrderedMap.getElem?_insert, hu] using hs)
  · refine (claimFor_calm session).returns_mono fun _ w2 _ hclaim hw => hclaim.allServed ?_
    refine (hw.mono (by simp)).congr (fun u k hu hk => hothers k ?_) fun u s hu hs => ?_
    · rw [hk]
      exact fun heq => hu (Id.ext heq)
    · have hs1 : (w₁.process ()).activeByUser[u]? = some s := by
        simpa [OrderedMap.getElem?_insert, Ne.symm hu] using hs
      rw [hprocess] at hs1
      simpa using hs1

lemma sessionClosed_calm (session : SessionIdentity) :
    Sat calmContract (Returns fun _ w₁ => AllServed w → AllServed w₁)
      ((S.messaging ()).sessionClosed session) w := by
  -- at most the session itself is taken from the table
  have hlookup {u : UserId} {s : SessionIdentity}
      (hs : (withoutSession session (w.process ())).activeByUser[u]? = some s) :
      (w.process ()).activeByUser[u]? = some s := by
    simp only [withoutSession] at hs
    split at hs
    · rw [OrderedMap.getElem?_erase] at hs
      split at hs
      · cases hs
      · exact hs
    · exact hs
  refine sat_load fun hcalm => ⟨trivial, sat_save fun _ => ⟨⟨fun s hs => ?_, fun u s hs => ?_⟩, ?_⟩⟩
  · exact hcalm.unpaused s (TreeSet.mem_of_mem_erase hs)
  · exact hcalm.keyed u s (hlookup hs)
  refine sat_store fun _ => ⟨trivial, ?_⟩
  refine sat_bind (releases_calm _ fun d hd => recipient_of_mem hd) ?_
  rintro - w₁ - ⟨hothers, hprocess⟩
  have hactive {u : UserId} {s : SessionIdentity}
      (hs : (w₁.process ()).activeByUser[u]? = some s) :
      (withoutSession session (w.process ())).activeByUser[u]? = some s := by
    rw [hprocess] at hs
    simpa using hs
  have hbut (hw : AllServed w) : ServedExcept (· = session.userId) w₁ := by
    refine (hw.mono (by simp)).congr (fun u k hu hk => hothers k ?_)
      fun u s _ hs => hlookup (hactive hs)
    rw [hk]
    exact fun heq => hu (Id.ext heq)
  split
  · rename_i active hsome
    have huser : active.userId = session.userId := hcalm.keyed _ _ (hlookup hsome)
    refine (claimFor_calm active).returns_mono fun _ w2 _ hclaim hw => hclaim.allServed ?_
    exact huser ▸ hbut hw
  · -- nobody is active for the user of the closed session
    rename_i hnone
    refine sat_ret fun _ hw u s hs _ => hbut hw u s hs ?_
    rintro rfl
    rw [hactive hs] at hnone
    cases hnone

lemma resume_calm (session : SessionIdentity) :
    Sat calmContract (Returns fun _ w₁ => AllServed w → AllServed w₁)
      ((S.messaging ()).resume session) w := by
  refine sat_load fun hcalm => ⟨trivial, ?_⟩
  split
  · exact sat_ret fun _ => id
  split
  · exact sat_ret fun _ => id
  refine sat_save fun _ => ⟨⟨fun s hs => ?_, hcalm.keyed⟩, ?_⟩
  · exact hcalm.unpaused s (TreeSet.mem_of_mem_erase hs)
  · refine (claimFor_calm session).returns_mono fun _ w₁ _ hclaim hw => hclaim.allServed ?_
    exact (hw.mono (by simp)).others rfl (.refl _ _) rfl

lemma onAccepted_calm (recipients : List UserId) :
    Sat calmContract
      (Returns fun _ w₁ => ServedExcept (· ∈ recipients) w → AllServed w₁)
      ((S.messaging ()).onAccepted recipients) w := by
  refine Sat.returns_mono (sat_forEach
    (P := fun todo w₁ => ServedExcept (· ∈ recipients) w → ServedExcept (· ∈ todo) w₁) ?_
    recipients id) fun _ w₁ _ h1 hw => (h1 hw).mono (by simp)
  intro v rest w₁ h1
  refine sat_load fun hcalm => ⟨trivial, ?_⟩
  split
  · rename_i session hsession
    have huser : session.userId = v := hcalm.keyed v session hsession
    refine (claimFor_calm session).returns_mono fun _ w2 _ hclaim hw => ?_
    refine hclaim.servedExcept (h1 hw) fun u hu hmem => ?_
    rw [huser] at hu
    simpa [hu] using hmem
  · -- a user without an active session need not be served
    rename_i hnone
    refine sat_ret fun _ hw u s hs hrest => h1 hw u s hs ?_
    have hu : u ≠ v := by
      rintro rfl
      rw [hs] at hnone
      cases hnone
    simp [hu, hrest]

/-! ### The retry scan -/

lemma scanDue_calm (toClaim : TreeSet SessionIdentity) (due : List Delivery) :
    Sat calmContract
      (Returns fun toClaim' w₁ =>
        ServedExcept (fun u => ∃ session ∈ toClaim, session.userId = u) w →
          ServedExcept (fun u => ∃ session ∈ toClaim', session.userId = u) w₁)
      (scanDue (w.process ()) toClaim due) w := by
  generalize hp : w.process () = p
  induction due generalizing w toClaim with
  | nil => exact sat_ret fun _ => id
  | cons d due ih =>
    unfold scanDue
    split
    · exact ih toClaim hp
    · rename_i active hactive
      refine sat_bind (P := fun _ w₁ => w₁.store = w.store.updateDelivery (released d) ∧
        w₁.process = w.process ∧ active.userId = d.recipient) ?_ ?_
      · refine sat_store fun hcalm => ⟨trivial, sat_of_bind_ret (sat_record fun _ => ⟨trivial, ?_⟩)⟩
        refine sat_ret fun _ => ⟨rfl, rfl, hcalm.keyed _ _ ?_⟩
        rw [hp]
        obtain ⟨rfl, hlookup, -⟩ := retrySession_eq_some.1 hactive
        exact hlookup
      · rintro - w₁ - ⟨hstore, hprocess, huser⟩
        refine (ih (toClaim.insert active) (by rw [hprocess, hp])).returns_mono ?_
        intro toClaim' w2 _ h2 hw
        have hinsert : ∀ u, (∃ session ∈ toClaim, session.userId = u) →
            ∃ session ∈ toClaim.insert active, session.userId = u := by
          rintro u ⟨session, hmem, hu⟩
          exact ⟨session, TreeSet.mem_insert.2 (.inr hmem), hu⟩
        refine h2 ((hw.mono hinsert).others (v := d.recipient)
          ⟨active, TreeSet.mem_insert_self, huser⟩ ?_ (by rw [hprocess]))
        rw [hstore]
        exact otherUsers_updateDelivery _ rfl

lemma runRetryScan_calm (now : ℤ) :
    Sat calmContract (Returns fun _ w₁ => AllServed w → AllServed w₁)
      ((S.messaging ()).runRetryScan now) w := by
  refine sat_modify fun hcalm => ⟨trivial, ⟨hcalm.unpaused, hcalm.keyed⟩, ?_⟩
  refine sat_store fun _ => ⟨trivial, sat_ite (fun _ => sat_ret fun _ hw => ?_) fun _ => ?_⟩
  · exact hw.congr (fun _ _ _ _ => rfl) fun _ _ _ hs => hs
  refine sat_load fun _ => ⟨trivial, sat_bind (scanDue_calm ∅ _) fun toClaim w₁ _ h1 => ?_⟩
  refine sat_bind (P := fun _ w2 => AllServed w → AllServed w2) ?_ fun _ w2 _ h2 =>
    sat_load fun _ => ⟨trivial, sat_ret fun _ => h2⟩
  refine Sat.returns_mono (sat_forEach
    (P := fun todo w2 => AllServed w →
      ServedExcept (fun u => ∃ session ∈ todo, session.userId = u) w2) ?_ _ ?_)
    fun _ w2 _ h2 hw => (h2 hw).mono (by simp)
  · intro session todo w2 h2
    refine (claimFor_calm session).returns_mono fun _ w3 _ hclaim hw => ?_
    refine hclaim.servedExcept (h2 hw) ?_
    rintro u hu ⟨session', hmem, rfl⟩
    rcases List.mem_cons.1 hmem with rfl | hmem
    · exact absurd rfl hu
    · exact ⟨session', hmem, rfl⟩
  · intro hw
    refine (h1 ?_).mono ?_
    · exact (hw.mono (by simp)).congr (fun _ _ _ _ => rfl) fun _ _ _ hs => hs
    · rintro u ⟨session, hmem, hu⟩
      exact ⟨session, TreeSet.mem_toList.2 hmem, hu⟩

/-! ### The tick, after rows have expired -/

lemma cleanup_calm (now : ℤ) :
    Sat calmContract (Returns fun _ w₁ => AllServed w → AllServed w₁)
      ((S.messaging ()).cleanup now) w := by
  refine sat_load fun hcalm => ⟨trivial, sat_ite (fun _ => ?_) fun _ => sat_ret fun _ => id⟩
  refine sat_save fun _ => ⟨⟨hcalm.unpaused, hcalm.keyed⟩, sat_store fun _ => ⟨trivial, ?_⟩⟩
  refine sat_ret fun _ hw u session hs hu => Served.cleanup ?_ _ _ _
  exact hw u session (by simpa using hs) hu

lemma tickRest_calm (now : ℤ) (expired : List ExpiredDeliveryRecord) :
    Sat calmContract (Returns fun _ w₁ => AllServed w → AllServed w₁)
      (do
        recordExpired expired
        (S.messaging ()).cleanup now
        let nextAttempts ← (S.messaging ()).runRetryScan now
        let granularityMs ← Code.store .timeGranularityMs
        pure (wakeAfter S.config now granularityMs nextAttempts)) w := by
  refine sat_bind (recordExpired_quiet (fun _ _ => trivial) expired) ?_
  rintro - _ - ⟨ms, rfl⟩
  refine sat_bind (cleanup_calm now) fun _ w₁ _ h1 => ?_
  refine sat_bind (runRetryScan_calm now) fun nextAttempts w2 _ h2 => ?_
  exact sat_store fun _ => ⟨trivial, sat_ret fun _ hw => h2 (h1 hw)⟩

/-! ### Accepting -/

lemma insertDeliveries_calm (m : Message) (expiresAtMs : ℤ) (recipients : List UserId) :
    Sat calmContract
      (Returns fun _ w₁ => w₁.process = w.process ∧ ∀ k : DeliveryKey,
        (∀ u ∈ recipients, k.recipient ≠ u.value) → w₁.store.row k = w.store.row k)
      (Prog.forEach (fun u => Code.store (.insertDelivery (newDelivery m expiresAtMs u)))
        recipients) w := by
  refine Sat.returns_mono (sat_forEach
    (P := fun todo w₁ => todo ⊆ recipients ∧ w₁.process = w.process ∧ ∀ k : DeliveryKey,
      (∀ u ∈ recipients, k.recipient ≠ u.value) → w₁.store.row k = w.store.row k) ?_ recipients
    ⟨List.Subset.refl _, rfl, fun _ _ => rfl⟩) fun _ _ _ h => h.2
  rintro u todo w₁ ⟨htodo, hprocess, hrows⟩
  obtain ⟨hu, htodo⟩ := List.cons_subset.1 htodo
  refine sat_of_bind_ret (sat_store fun _ => ⟨trivial, sat_ret fun _ => ⟨htodo, hprocess, ?_⟩⟩)
  intro k hk
  refine (row_insertDelivery _ _ k).trans ?_
  rw [if_neg, hrows k hk]
  rintro ⟨rfl, -⟩
  exact hk u hu rfl

lemma acceptNew_calm (sender : SessionIdentity) (cmd : SendMessageCommand) :
    Sat calmContract (Returns fun _ w₁ => AllServed w → AllServed w₁)
      ((S.messaging ()).acceptNew sender cmd) w := by
  refine sat_store fun _ => ⟨trivial, sat_nowMs fun _ => ⟨trivial, fun acceptedAtMs => ?_⟩⟩
  refine sat_store fun _ => ⟨trivial, sat_nowMs fun _ => ⟨trivial, fun now => ?_⟩⟩
  refine sat_bind (insertDeliveries_calm _ _ _) ?_
  rintro - w₁ - ⟨hprocess, hrows⟩
  refine sat_bind (recordAccepted_quiet (fun _ _ => trivial) _ _ _) ?_
  rintro - _ - ⟨ms, rfl⟩
  refine sat_bind (Sat.returns_tryCatch (fun _ => rfl) (onAccepted_calm _)) fun _ w2 _ h2 => ?_
  refine sat_ret fun _ hw => h2 ((hw.mono (by simp)).congr (fun u k hu hk => ?_) fun u s _ hs => ?_)
  · refine (hrows k fun v hv hkv => hu ?_).trans ?_
    · obtain rfl : u = v := Id.ext (hk.symm.trans hkv)
      exact hv
    · exact congrArg (·[k]?) (w.store.deliveries_getOrCreateConversation sender cmd)
  · replace hs : (w₁.process ()).activeByUser[u]? = some s := hs
    rwa [hprocess] at hs

lemma accept_calm (sender : SessionIdentity) (cmd : SendMessageCommand) :
    Sat calmContract (Returns fun _ w₁ => AllServed w → AllServed w₁)
      ((S.messaging ()).accept sender cmd) w := by
  refine sat_store fun _ => ⟨trivial, ?_⟩
  split
  · rename_i existing _
    refine sat_ite (fun _ => ?_) fun _ => ?_
    · refine sat_record fun _ => ⟨trivial, ?_⟩
      refine sat_bind (Sat.returns_tryCatch (fun _ => rfl) (onAccepted_calm _)) fun _ w₁ _ h1 => ?_
      exact sat_ret fun _ hw => h1 (hw.mono (by simp))
    · exact sat_record fun _ => ⟨trivial, sat_ret fun _ => id⟩
  · exact Sat.returns_tryCatch (fun _ => rfl) (acceptNew_calm sender cmd)

/-! ### Chat commands -/

/-- The calls by which a command is completed before it is accepted. -/
def Call.completes : Call → Prop
  | .checkUserExists _ | .groupMembers _ | .legacyCounterFetchAdd => True
  | _ => False

lemma resolveTarget_completes (userId : ℤ) (parsed : ParsedChatMessage) (kind : CommandKind) :
    (resolveTarget userId parsed kind).Calls Call.completes := by
  cases kind with
  | direct =>
    refine Calls.ask_bind trivial fun err => ?_
    split <;> trivial
  | group =>
    refine Calls.ask_bind trivial fun members => ?_
    cases members with
    | none => trivial
    | some userIds =>
      dsimp only
      split
      · trivial
      · split <;> trivial

lemma chooseKey_completes (userId : ℤ) (parsed : ParsedChatMessage) :
    (chooseKey userId parsed).Calls Call.completes := by
  unfold chooseKey
  split
  · exact Calls.ask_bind trivial fun _ => trivial
  · trivial

lemma completes_calm {α : Type} {p : Code α} (hp : p.Calls Call.completes) :
    Sat calmContract (fun _ w₁ => AllServed w → AllServed w₁) p w := by
  refine Calls.sat (R := fun w w₁ : World Unit => AllServed w → AllServed w₁) trivial ?_
    (fun h h' hw => h' (h hw)) (by rintro _ _ rfl; exact id) ?_ hp w
  · intro c w hc
    cases c <;> trivial
  · intro c ω w r w₁ hc h hw
    cases c with
    | checkUserExists userId =>
      cases h
      exact hw
    | groupMembers groupId =>
      simp only [World.under, World.handle] at h
      split at h <;> cases h
      · exact hw
      · exact hw.congr (fun _ _ _ _ => rfl) fun _ _ _ hs => hs
    | legacyCounterFetchAdd =>
      cases h
      exact hw.congr (fun _ _ _ _ => rfl) fun _ _ _ hs => by simpa using hs
    | _ => exact absurd hc id

lemma handleChat_calm (userId generation : ℤ) (kind : CommandKind) (js : Json) :
    Sat calmContract (fun _ w₁ => AllServed w → AllServed w₁)
      (handleChat (S.messaging ()) userId generation kind js) w := by
  unfold handleChat
  split
  · exact sat_ret fun _ => id
  rename_i errno parsed _
  refine sat_ite (fun _ => sat_ret fun _ => id) fun _ => ?_
  unfold acceptChatCommand
  rw [Prog.bind_assoc]
  refine Sat.bind (fun _ => rfl) ((completes_calm (resolveTarget_completes _ _ _)).mono ?_)
  rintro (e | (errno | target)) w₁ - h1
  · exact h1
  · exact sat_ret fun _ => h1
  dsimp only
  rw [Prog.bind_assoc]
  refine Sat.bind (fun _ => rfl) ((completes_calm (chooseKey_completes _ _)).mono ?_)
  rintro (e | key) w2 - h2
  · exact fun hw => h2 (h1 hw)
  dsimp only
  split
  · exact sat_fail fun _ hw => h2 (h1 hw)
  · refine sat_bind (P := fun _ w3 => AllServed w2 → AllServed w3) ?_ fun _ w3 _ h3 =>
      sat_ret fun _ hw => h3 (h2 (h1 hw))
    refine Sat.returns_tryCatch (fun _ => rfl) (sat_bind (accept_calm _ _) fun _ w3 _ h3 => ?_)
    exact sat_ret fun _ => h3

end MuduoChat
