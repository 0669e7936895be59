import MuduoChat.Gateway.Fencing

/-!
# For whom rows are leased

A claim is made for a session that the caller passes on, and it does not look at the table of
active sessions itself.  All callers but one take the session from that table or have just put it
there.  An acknowledgement claims for the session that sends it, and it is refused only if the user
has another active session: if the user has none, rows are leased to a session that has gone or has
never come up.
-/

namespace MuduoChat

open Std Prog Relation

namespace Coordinator

/-! ### Runs -/

/-- The row that an operation of the coordinator is about to write. -/
def writing (a : State) : Option Delivery :=
  match a.running with
  | some ⟨_, .store _, _, _⟩ => none
  | some ⟨_, _, _, .call (.store (.updateDelivery d)) _⟩ => some d
  | _ => none

lemma exists_of_writing {a : State} {d : Delivery} (h : writing a = some d) :
    ∃ op start k, a.running = some ⟨(), op, start, .call (.store (.updateDelivery d)) k⟩ ∧
      ∀ c, op ≠ .store c := by
  unfold writing at h
  split at h
  · cases h
  · rename_i op start d' k hop hr
    cases h
    exact ⟨op, start, k, hr, hop⟩
  · cases h

/-- A step of a run in which the acknowledgements that have an effect are made while their users have
active sessions. -/
def OnlineStep (co : Coordinator) (a b : State) : Prop :=
  co.system.Step a b ∧ ∀ r, a.running = none → b.running = some r → AckerOnline r.op r.start

/-- The states that a new coordinator can reach in such a run, whatever the store contains. -/
def ReachableOnline (co : Coordinator) (a : State) : Prop :=
  ∃ w : World Unit, w.process () = {} ∧ ReflTransGen co.OnlineStep (Serial.Config.initial w) a

variable {co : Coordinator} {a : State}

lemma ReachableOnline.ackerOnline (ha : co.ReachableOnline a)
    {r : Serial.Running Port Unit (World Unit) CoordinatorOp (Option AckResult)}
    (hr : a.running = some r) : AckerOnline r.op r.start := by
  obtain ⟨w, -, hrun⟩ := ha
  induction hrun generalizing r with
  | refl => cases hr
  | @tail x y _ hstep ih =>
    obtain ⟨hstep, hinvoke⟩ := hstep
    rcases Serial.step_cases hstep with ⟨i, op, hidle, rfl⟩ | ⟨i, op, s, v, hx, rfl⟩ |
      ⟨i, op, s, e, hx, rfl⟩ | ⟨i, op, s, c, k, ω, v, w', hx, hw', rfl⟩
    · exact hinvoke r hidle hr
    · cases hr
    · cases hr
    · cases hr
      have honline := ih hx
      exact honline

end Coordinator

open Coordinator in
/-- **Claims are made for the active session**, in every run in which the acknowledgements that have
an effect are made only while their user has an active session: whenever the coordinator writes a row as in flight, the
lease is that of the active session of the recipient. -/
theorem leased_to_active_session (co : Coordinator) {a : State} (ha : co.ReachableOnline a)
    {d : Delivery} (hwrite : writing a = some d) (hstate : d.state = .inFlight) :
    (a.world.process ()).activeByUser[d.recipient]? = some d.leaseOwner := by
  obtain ⟨op, start, k, hr, hop⟩ := exists_of_writing hwrite
  have honline := ha.ackerOnline hr
  obtain ⟨w, hw, hrun⟩ := ha
  have hinit : (w.process ()).ActiveKeyed := by
    intro u s hs
    simp [hw] at hs
  have hsteps : ReflTransGen co.system.Step (Serial.Config.initial w) a :=
    ReflTransGen.mono (fun _ _ hstep => hstep.1) _ _ hrun
  have hsound := co.verified.sound (Serial.Sound.initial hinit) hsteps
  have hallow := (hsound.rest _ hr a.world rfl hsound.inv).1
  exact hallow.2 ⟨hop, honline⟩ hstate

/-! ### The acknowledgement of a session that is not there -/

/-- The operations after which two messages wait for user 2 in one conversation. -/
def Coordinator.twoNoted : List (Serial.Act Unit Env CoordinatorOp) :=
  [.insertMessage { command := { directRecipient := ⟨2⟩, content := "first" } },
    .insertDelivery { messageId := ⟨1⟩, recipient := ⟨2⟩ },
    .insertMessage { command := { directRecipient := ⟨2⟩, content := "second" } },
    .insertDelivery { messageId := ⟨2⟩, recipient := ⟨2⟩ }].map
    fun c => { who := (), op := .store c, env := {} }

/-- User 2 acknowledges the first message, and the sink takes what it is handed. -/
def Coordinator.acksFirst (steps : ℕ) : Serial.Act Unit Env CoordinatorOp :=
  { who := (), op := .acknowledge ⟨⟨2⟩, 1⟩ ⟨1⟩, env := { disposition := .accepted }, steps }

/-- The acknowledgement leases the second message, for a session that has not come up. -/
def Coordinator.leasesToNobody : Coordinator.State :=
  Coordinator.standard.system.play (.initial {})
    (Coordinator.twoNoted ++ [Coordinator.acksFirst 12])

open Coordinator in
/-- A row is leased to a session though its user has no active session. -/
theorem leased_without_active_session :
    standard.Reachable leasesToNobody ∧
      ∃ d, writing leasesToNobody = some d ∧ d.state = .inFlight ∧ d.leaseOwner = ⟨⟨2⟩, 1⟩ ∧
        (leasesToNobody.world.process ()).activeByUser[d.recipient]? = none := by
  refine ⟨⟨{}, rfl, Serial.reaches_play _ _⟩, ?_⟩
  have hwriting : (writing leasesToNobody).map (fun d => (d.state, d.leaseOwner, d.recipient)) =
      some (.inFlight, ⟨⟨2⟩, 1⟩, ⟨2⟩) := by decide +kernel
  have hnone : (leasesToNobody.world.process ()).activeByUser[(⟨2⟩ : UserId)]? = none := by
    decide +kernel
  obtain ⟨d, hd, hrow⟩ := Option.map_eq_some_iff.1 hwriting
  simp only [Prod.mk.injEq] at hrow
  obtain ⟨hstate, howner, hrecipient⟩ := hrow
  exact ⟨d, hd, hstate, howner, hrecipient ▸ hnone⟩

/-- The session of user 2 has come up, and the sink has not taken anything yet. -/
def Coordinator.secondOnline : Coordinator.State :=
  Coordinator.standard.system.play (.initial {})
    (Coordinator.twoNoted ++ [{ who := (), op := .sessionAvailable ⟨⟨2⟩, 1⟩, env := {} }])

namespace Coordinator

/-- If the step begins an acknowledgement, its user has an active session. -/
def acksOnline (a : State) : Serial.Choice Unit Env CoordinatorOp → Bool
  | .invoke _ (.acknowledge acker _) => (a.world.active[acker.userId]?).isSome
  | _ => true

lemma onlineStep_of_acksOnline {co : Coordinator} {a b : State}
    {l : Serial.Choice Unit Env CoordinatorOp} (hl : acksOnline a l = true)
    (h : co.system.next a l = some b) : co.OnlineStep a b := by
  refine ⟨⟨l, h⟩, fun r hidle hr => ?_⟩
  cases l with
  | advance ω => simp [Serial.next, hidle] at h
  | invoke i op =>
    simp only [Serial.next, hidle, Option.some.injEq] at h
    subst h
    cases hr
    rintro acker messageId - rfl - - -
    exact hl

end Coordinator

open Coordinator in
/-- The same acknowledgement of an active session. -/
theorem leased_to_active_session_secondOnline :
    ∃ d, writing (standard.system.play secondOnline [acksFirst 12]) = some d ∧
      d.state = .inFlight ∧ d.leaseOwner = ⟨⟨2⟩, 1⟩ ∧
      ((standard.system.play secondOnline [acksFirst 12]).world.process ()).activeByUser[
        d.recipient]? = some d.leaseOwner := by
  have hbefore : ∀ x ∈ standard.system.taken (.initial {}) (twoNoted ++
      [{ who := (), op := .sessionAvailable ⟨⟨2⟩, 1⟩, env := {} }]),
      acksOnline x.1 x.2 = true := by decide +kernel
  have hack : ∀ x ∈ standard.system.taken secondOnline [acksFirst 12],
      acksOnline x.1 x.2 = true := by decide +kernel
  have hrun : ReflTransGen standard.OnlineStep (.initial {})
      (standard.system.play secondOnline [acksFirst 12]) :=
    (Serial.reaches_play_of fun x hx _ => onlineStep_of_acksOnline (hbefore x hx)).trans
      (Serial.reaches_play_of fun x hx _ => onlineStep_of_acksOnline (hack x hx))
  have hwriting : (writing (standard.system.play secondOnline [acksFirst 12])).map
      (fun d => (d.state, d.leaseOwner)) = some (.inFlight, ⟨⟨2⟩, 1⟩) := by decide +kernel
  obtain ⟨d, hd, hrow⟩ := Option.map_eq_some_iff.1 hwriting
  obtain ⟨hstate, howner⟩ := Prod.mk.inj hrow
  exact ⟨d, hd, hstate, howner,
    leased_to_active_session standard ⟨{}, rfl, hrun⟩ hd hstate⟩

end MuduoChat
