import MuduoChat.Lib.Atomic
import MuduoChat.Lib.Serial
import MuduoChat.Presence.Gateways

/-!
# Deliveries of a gateway after a login elsewhere

A gateway hands an attempt to its local sink as soon as the user has a shadow entry.  The entry
stays when the user logs in on another gateway, and nothing in the short way from the entry to the
local sink looks at the directory.  So the old gateway keeps delivering to the old connection.

What does hold: if a user logs in on a gateway only while no other gateway has a shadow entry of
the user, then at most one gateway has an entry, and the directory names no gateway but that one
(`Exclusive`).
-/

namespace MuduoChat

open Std Prog Relation

variable {ι : Type} [DecidableEq ι] {G : ι → GatewayConfig}

namespace Gateways

/-- Gateways whose calls are complete one after the other. -/
def system (G : ι → GatewayConfig) : Serial SinkPort ι (Gateways ι) PresenceEnv SinkOp Unit where
  handle := answer G
  code i := (G i).code

/-- The configurations of gateways. -/
abbrev State (ι : Type) := Serial.Config SinkPort ι (Gateways ι) SinkOp Unit

/-- A user has a shadow entry at a gateway. -/
def Claimed (w : Gateways ι) (i : ι) (user : UserId) : Prop :=
  (w.sinks i).shadow[user]?.isSome = true

instance (w : Gateways ι) (i : ι) (user : UserId) : Decidable (w.Claimed i user) :=
  inferInstanceAs (Decidable (_ = true))

/-- At most one gateway has a shadow entry of a user, and the directory names only that one. -/
structure Exclusive (G : ι → GatewayConfig) (w : Gateways ι) : Prop where
  one : ∀ i j user, w.Claimed i user → w.Claimed j user → i = j
  named : ∀ user entry, w.directory.entries[user]? = some entry →
    ∃ i, entry.gatewayId = (G i).localGateway ∧ w.Claimed i user

/-- A login begins only while no other gateway has a shadow entry of the user. -/
def LogsInAlone (i : ι) (c : SinkCall) (w : Gateways ι) : Prop :=
  ∀ user conn, c = .critical (.bindUser user conn) → ∀ j, w.Claimed j user → j = i

/-- A claim outside of the critical sections. -/
def Claims : SinkCall → Prop
  | .presence (.claim _ _ _) => True
  | _ => False

/-- A claim outside of the critical sections is one of a user with a shadow entry. -/
def ClaimsOwn (G : ι → GatewayConfig) (i : ι) (c : SinkCall) (w : Gateways ι) : Prop :=
  ∀ user gateway conn, c = .presence (.claim user gateway conn) →
    gateway = (G i).localGateway ∧ w.Claimed i user

variable {i : ι} {ω : PresenceEnv} {w : Gateways ι}

lemma claimed_of_enter {x : Section} {j : ι} {user : UserId} :
    ((w.enter G i ω x).2.Claimed j user → w.Claimed j user ∨
      j = i ∧ ∃ conn, x = .bindUser user conn) ∧
    (w.Claimed j user → (w.enter G i ω x).2.Claimed j user ∨
      (w.enter G i ω x).2.directory.entries[user]? = none) := by
  by_cases hj : j = i
  · subst hj
    unfold Claimed
    rcases shadow_cases (G := G) (i := j) (ω := ω) (w := w) (x := x) with
      ⟨u, conn, hx, -, hs⟩ | ⟨u, hs, hnone⟩ | hs
    · rw [hs, OrderedMap.getElem?_insert]
      by_cases hu : u = user
      · subst hu
        exact ⟨fun _ => .inr ⟨rfl, conn, hx⟩, fun _ => .inl (by simp)⟩
      · rw [if_neg hu]
        exact ⟨.inl, .inl⟩
    · rw [hs, OrderedMap.getElem?_erase]
      by_cases hu : u = user
      · subst hu
        exact ⟨fun h => by simp at h, fun _ => .inr hnone⟩
      · rw [if_neg hu]
        exact ⟨.inl, .inl⟩
    · have hsome := congrArg Option.isSome (hs user)
      rw [Option.isSome_map, Option.isSome_map] at hsome
      rw [hsome]
      exact ⟨.inl, .inl⟩
  · unfold Claimed
    rw [sinks_of_enter hj]
    exact ⟨.inl, .inl⟩

lemma entries_of_enter {x : Section} {user : UserId} {entry : PresenceEntry}
    (h : (w.enter G i ω x).2.directory.entries[user]? = some entry) :
    (∃ old, w.directory.entries[user]? = some old ∧ entry.gatewayId = old.gatewayId) ∨
      entry.gatewayId = (G i).localGateway ∧ (w.enter G i ω x).2.Claimed i user := by
  rcases directory_of_enter (G := G) (i := i) (ω := ω) (w := w) (x := x) with
    hsame | ⟨call, k, hplan, hperform⟩
  · rw [hsame] at h
    exact .inl ⟨entry, h, rfl⟩
  · rw [hperform] at h
    rcases InMemoryPresenceDirectory.names_of_perform h with ⟨old, hold, hg, -⟩ | ⟨rfl, hup⟩
    · exact .inl ⟨old, hold, hg⟩
    · obtain ⟨rfl, hg⟩ := plan_eq_claim hplan
      refine .inr ⟨hg, ?_⟩
      have hω : ω.up = true := by simpa using hup
      simp [Claimed, shadow_bindUser hω]

/-- **The step lemma.**  A call keeps the entries exclusive. -/
lemma Exclusive.step (hw : Exclusive G w) {c : SinkCall} (hallow : ClaimsOwn G i c w)
    (halone : LogsInAlone i c w) {r : Except SinkPort.Err (SinkPort.Value c)} {w' : Gateways ι}
    (h : answer G i c ω w = some (r, w')) : Exclusive G w' := by
  cases c with
  | critical x =>
    cases h
    constructor
    · intro j k user hj hk
      -- a user who is bound anew is bound nowhere else
      rcases claimed_of_enter.1 hj with hj0 | ⟨rfl, conn, hx⟩ <;>
        rcases claimed_of_enter.1 hk with hk0 | ⟨rfl, conn', hx'⟩
      · exact hw.one j k user hj0 hk0
      · exact halone user conn' (congrArg _ hx') j hj0
      · exact (halone user conn (congrArg _ hx) k hk0).symm
      · rfl
    · intro user entry hentry
      rcases entries_of_enter hentry with ⟨old, hold, hg⟩ | ⟨hg, hclaimed⟩
      · obtain ⟨j, hj, hclaimed⟩ := hw.named user old hold
        rcases claimed_of_enter.2 hclaimed with hafter | hnone
        · exact ⟨j, hg.trans hj, hafter⟩
        · rw [hnone] at hentry
          cases hentry
      · exact ⟨i, hg, hclaimed⟩
  | presence call =>
    cases h
    refine ⟨hw.one, fun user entry hentry => ?_⟩
    rcases InMemoryPresenceDirectory.names_of_perform hentry with
      ⟨old, hold, hg, -⟩ | ⟨rfl, -⟩
    · obtain ⟨j, hj, hclaimed⟩ := hw.named user old hold
      exact ⟨j, hg.trans hj, hclaimed⟩
    · exact ⟨i, hallow _ _ _ rfl⟩
  | nowMs | transport route attempt =>
    cases h
    exact hw

/-! ### The operations claim their own users only -/

/-- The contract of an operation.  It makes no use of the invariant. -/
def claimContract (G : ι → GatewayConfig) (i : ι) : Contract SinkPort (Gateways ι) PresenceEnv where
  handle := answer G i
  inv _ := True
  rely := Eq
  allow := ClaimsOwn G i
  hangs := True

lemma sat_of_calls {α : Type} {p : SinkCode α}
    (hp : p.Calls fun c => ¬Claims c)
    (w : Gateways ι) : p.Sat (claimContract G i) (fun _ _ => True) w := by
  refine (hp.sat (R := fun _ _ => True) trivial (fun c w hc user gateway conn h => ?_)
    (fun _ _ => trivial) (fun _ _ _ => trivial) (fun _ _ _ _ _ _ _ => trivial) w)
  exact absurd (h ▸ trivial) hc

lemma critical_calls (x : Section) :
    (Prog.ask (E := SinkPort) (.critical x)).Calls fun c => ¬Claims c :=
  Calls.ask not_false

lemma renewFailed_sat (user : UserId) (now : ℤ) (r : RenewResult) :
    ((G i).renewFailed user now r).Sat (claimContract G i) (fun _ _ => True) w :=
  sat_of_calls (Calls.ite (Calls.bind (critical_calls _) fun _ => calls_ret _) (calls_ret _)) w

lemma renewFrom_sat {user : UserId} {now : ℤ} {snap : Shadow} (hw : w.Claimed i user) :
    ((G i).renewFrom user now snap).Sat (claimContract G i) (fun _ _ => True) w := by
  refine Sat.ask_bind fun w1 hw1 _ => ⟨by simp [claimContract, ClaimsOwn], fun ω r w2 hr => ?_⟩
  obtain rfl : w = w1 := hw1
  cases hr
  refine Sat.ite (fun _ => ?_) fun _ => Sat.ite (fun _ => ?_) fun _ => renewFailed_sat _ _ _
  · exact sat_of_calls (Calls.bind (critical_calls _) fun _ => calls_ret _) _
  · refine Sat.ask_bind fun w3 hw3 _ => ⟨?_, fun ω' r' w4 hr' => ?_⟩
    · obtain rfl := hw3
      rintro u g conn hc
      obtain ⟨rfl, rfl, rfl⟩ := PresenceCall.claim.inj (SinkCall.presence.inj hc)
      exact ⟨rfl, hw⟩
    · cases hr'
      refine Sat.ite (fun _ => ?_) fun _ => renewFailed_sat _ _ _
      exact sat_of_calls (Calls.bind (critical_calls _) fun _ => calls_ret _) _

lemma renew_sat (user : UserId) (w : Gateways ι) :
    ((G i).renew user).Sat (claimContract G i) (fun _ _ => True) w := by
  have hrefl (w : Gateways ι) : (claimContract G i).rely w w := rfl
  have htime : ((G i).renewTime).Sat (claimContract G i) (fun _ _ => True) w :=
    sat_of_calls (Calls.ite (Calls.ask (E := SinkPort) (c := .nowMs) not_false) (calls_ret _)) w
  refine Sat.bind hrefl (htime.mono fun now w1 _ _ => ?_)
  cases now with
  | error e => trivial
  | ok now =>
    refine Sat.ask_bind fun w2 hw2 _ => ⟨by simp [claimContract, ClaimsOwn], fun ω r w3 hr => ?_⟩
    obtain rfl : w1 = w2 := hw2
    cases hr
    obtain ⟨hvalue, -, hsink⟩ := enter_eq_done (G := G) (i := i) (ω := ω) (w := w1)
      (x := .snapshot user now) rfl
    dsimp only
    rw [hvalue]
    cases hsnap : (w1.sinks i).snapshot (G i) user now with
    | inl r => exact fun _ _ _ => trivial
    | inr snap =>
      refine renewFrom_sat ?_
      -- the snapshot was taken of the shadow entry
      have hshadow := GatewayAwareDeliverySink.shadow_of_snapshot hsnap
      simp [Claimed, hsink, hshadow]

lemma code_sat (op : SinkOp) (w : Gateways ι) :
    ((G i).code op).Sat (claimContract G i) (fun _ _ => True) w := by
  have hrefl (w : Gateways ι) : (claimContract G i).rely w w := rfl
  have ignore {α : Type} {p : SinkCode α} {w : Gateways ι}
      (hp : p.Sat (claimContract G i) (fun _ _ => True) w) :
      (p >>= fun _ => pure ()).Sat (claimContract G i) (fun _ _ => True) w := by
    refine Sat.bind hrefl (hp.mono fun r _ _ _ => ?_)
    cases r with
    | error e => trivial
    | ok a => exact fun _ _ _ => trivial
  cases op with
  | renew user => exact ignore (renew_sat user w)
  | renewAllClaimed =>
    refine Sat.bind hrefl ((sat_of_calls (critical_calls _) w).mono fun users w1 _ _ => ?_)
    cases users with
    | error e => trivial
    | ok users =>
      refine Sat.forEach hrefl (P := fun _ _ => True) (fun _ _ _ _ _ => trivial)
        (fun user users w2 _ => (ignore (renew_sat user w2)).mono fun r _ _ _ => ?_)
        users w1 trivial
      cases r <;> trivial
  | deliver attempt =>
      refine ignore (sat_of_calls (Calls.bind (critical_calls _) fun d => ?_) w)
      cases d with
      | some d => exact calls_ret _
      | none =>
        refine Calls.bind (critical_calls _) fun l => ?_
        exact Calls.ite (Calls.ite (Calls.bind (Calls.ask not_false) fun _ => calls_ret _)
          (critical_calls _)) (calls_ret _)
  | _ => exact ignore (sat_of_calls (critical_calls _) w)

/-! ### Runs -/

lemma verified_alone (G : ι → GatewayConfig) :
    ((system G).guardBy fun i c _ w => LogsInAlone i c w).Verified (Exclusive G)
      (fun i _ _ => ClaimsOwn G i) True (fun _ _ _ _ _ => True) where
  keeps i op start c ω w r w' hw hallow h := by
    obtain ⟨halone, hhandle⟩ := Serial.guardBy_handle h
    exact hw.step hallow halone hhandle
  obeys i op w _ := by
    have hcode : ((G i).code op).Sat (claimContract G i) (fun _ _ => True) w := code_sat op w
    refine Sat.weaken ?_ ?_ ?_ ?_ ?_ hcode
    · intro c ω w x hx
      exact (Serial.guardBy_handle (M := system G) (G := fun i c _ w => LogsInAlone i c w)
        (i := i) hx).2
    · exact fun _ _ => trivial
    · exact fun _ _ h => h
    · exact fun h => h
    · exact fun _ _ _ h => h

/-- The next call, if it is the login of a user, is made while no other gateway has a shadow entry
of the user. -/
def NextLogsInAlone (a : State ι) : Prop :=
  ∀ r c k, a.running = some r → r.rest = .call c k → LogsInAlone r.who c a.world

/-- A step of gateways on which users log in alone. -/
def AloneStep (G : ι → GatewayConfig) (a b : State ι) : Prop :=
  (system G).Step a b ∧ NextLogsInAlone a

omit [DecidableEq ι] in
lemma exclusive_initial (ttlMs : ℤ) : Exclusive G (initial ι ttlMs) :=
  ⟨fun i j user h => by simp [Claimed, initial] at h,
    fun user entry h => by simp [initial] at h⟩

omit [DecidableEq ι] in
lemma claimed_of_hands {x : Section} {user : UserId} {attempt : DeliveryAttempt}
    (h : x.hands (G i) (w.sinks i) = some (user, attempt)) : w.Claimed i user := by
  have isSome_of_holdsRoute {route : DeliveryRoute} {v : UserId}
      (h : (w.sinks i).holdsRoute route v = true) : w.Claimed i v := by
    unfold Claimed
    cases hs : (w.sinks i).shadow[v]? with
    | none => simp [GatewayAwareDeliverySink.holdsRoute, hs] at h
    | some y => rfl
  cases x with
  | shortCircuit a =>
    simp only [Section.hands, Option.ite_none_right_eq_some, Option.some.injEq,
      Prod.mk.injEq] at h
    obtain ⟨hs, rfl, -⟩ := h
    exact hs
  | deliverLocal route a =>
    simp only [Section.hands, Option.ite_none_right_eq_some, Option.some.injEq,
      Prod.mk.injEq] at h
    obtain ⟨hs, rfl, -⟩ := h
    exact isSome_of_holdsRoute hs
  | crossNode route a =>
    simp only [Section.hands, Option.ite_none_right_eq_some, Option.some.injEq,
      Prod.mk.injEq] at h
    obtain ⟨⟨-, hs⟩, rfl, -⟩ := h
    exact isSome_of_holdsRoute hs
  | _ => cases h

/-- The directory has an entry of the user in force that another gateway has claimed later than
this one has. -/
def Overtaken (G : ι → GatewayConfig) (w : Gateways ι) (now : ℤ) (i : ι) (user : UserId) : Prop :=
  ∃ entry shadow, w.directory.live now user = some entry ∧
    (w.sinks i).shadow[user]? = some shadow ∧ entry.gatewayId ≠ (G i).localGateway ∧
    shadow.epoch.value < entry.sessionEpoch.value

end Gateways

open Gateways

/-- **No delivery on a stale gateway.**  In every run in which a user logs in on a gateway only
while no other gateway has a shadow entry of the user, an attempt is handed to the local sink of a
gateway only while the directory has no later entry of another gateway in force. -/
theorem stale_gateways_do_not_deliver (ttlMs : ℤ) {a : State ι}
    (hrun : ReflTransGen (AloneStep G) (.initial (.initial ι ttlMs)) a) {i : ι} {op : SinkOp}
    {start : Gateways ι} {x : Section} {k : Except Empty x.Value → SinkCode Unit}
    (hnext : a.running = some ⟨i, op, start, .call (.critical x) k⟩) {user : UserId}
    {attempt : DeliveryAttempt} (hhands : x.hands (G i) (a.world.sinks i) = some (user, attempt))
    (now : ℤ) : ¬Overtaken G a.world now i user := by
  have hguard : ReflTransGen ((system G).guardBy fun i c _ w => LogsInAlone i c w).Step
      (.initial (.initial ι ttlMs)) a := by
    refine ReflTransGen.mono ?_ _ _ hrun
    rintro b c ⟨⟨l, hl⟩, halone⟩
    exact ⟨l, Serial.guardBy_next hl fun j op s c k ω hr _ => halone _ c k hr rfl⟩
  have hw := ((verified_alone G).sound (Serial.Sound.initial (exclusive_initial ttlMs)) hguard).inv
  rintro ⟨entry, shadow, hlive, -, hother, -⟩
  obtain ⟨j, hj, hclaimed⟩ :=
    hw.named user entry (InMemoryPresenceDirectory.live_eq_some.1 hlive).1
  obtain rfl := hw.one j i user hclaimed (claimed_of_hands hhands)
  exact hother hj

/-! ### Concrete runs -/

def twoGateways (i : Bool) : GatewayConfig := ⟨⟨if i then 2 else 1⟩, false⟩

/-- A message to the first user. -/
def greeting : DeliveryAttempt where
  messageId := ⟨1⟩
  conversationId := ⟨1⟩
  sequence := ⟨1⟩
  senderId := ⟨2⟩
  recipient := ⟨1⟩
  kind := .direct
  directRecipient := ⟨1⟩
  groupId := ⟨0⟩
  content := "hello"
  attemptNumber := 1

/-- The user logs in on the first gateway, leaves it and logs in on the second one, and the message
is about to be handed over there. -/
def loggedInAnew : List (Serial.Act Bool PresenceEnv SinkOp) :=
  [⟨false, .bindUser ⟨1⟩ ⟨10⟩, { now := 0 }, 100⟩, ⟨false, .releaseUser ⟨1⟩ ⟨10⟩, { now := 1 }, 100⟩,
    ⟨true, .bindUser ⟨1⟩ ⟨20⟩, { now := 2 }, 100⟩, ⟨true, .deliver greeting, { now := 3 }, 0⟩]

/-- The user does not leave the first gateway, and the message comes there. -/
def loggedInTwice : List (Serial.Act Bool PresenceEnv SinkOp) :=
  [⟨false, .bindUser ⟨1⟩ ⟨10⟩, { now := 0 }, 100⟩, ⟨true, .bindUser ⟨1⟩ ⟨20⟩, { now := 1 }, 100⟩,
    ⟨false, .deliver greeting, { now := 2 }, 0⟩]

/-- What the next call hands to the local sink of its gateway, and the gateway. -/
def nextHands (G : ι → GatewayConfig) (a : State ι) : Option (ι × UserId × DeliveryAttempt) :=
  match a.running with
  | some ⟨i, _, _, .call (.critical x) _⟩ => (x.hands (G i) (a.world.sinks i)).map (i, ·)
  | _ => none

/-- The user who logs in with the next call, and the gateway. -/
def nextLogin (a : State ι) : Option (ι × UserId) :=
  match a.running with
  | some ⟨i, _, _, .call (.critical (.bindUser user _)) _⟩ => some (i, user)
  | _ => none

omit [DecidableEq ι] in
lemma nextLogsInAlone_of_nextLogin {a : State ι}
    (h : ∀ x ∈ nextLogin a, ∀ j, a.world.Claimed j x.2 → j = x.1) : NextLogsInAlone a := by
  rintro ⟨i, op, start, p⟩ c k hr rfl user conn rfl j hj
  exact h (i, user) (by simp [nextLogin, hr]) j hj

/-- The configuration after a script of the two gateways. -/
def afterActs (acts : List (Serial.Act Bool PresenceEnv SinkOp)) : State Bool :=
  (system twoGateways).play (.initial (.initial Bool 1000)) acts

theorem second_gateway_delivers :
    nextHands twoGateways (afterActs loggedInAnew) = some (true, ⟨1⟩, greeting) ∧
      ¬Overtaken twoGateways (afterActs loggedInAnew).world 3 true ⟨1⟩ := by
  have hlogins : ∀ x ∈ (system twoGateways).taken (.initial (.initial Bool 1000)) loggedInAnew,
      ∀ y ∈ nextLogin x.1, ∀ j, x.1.world.Claimed j y.2 → j = y.1 := by decide +kernel
  have hrun : ReflTransGen (AloneStep twoGateways) (.initial (.initial Bool 1000))
      (afterActs loggedInAnew) :=
    Serial.reaches_play_of fun x hx _ h => ⟨⟨_, h⟩, nextLogsInAlone_of_nextLogin (hlogins x hx)⟩
  have hhands : (Section.shortCircuit greeting).hands (twoGateways true)
      ((afterActs loggedInAnew).world.sinks true) = some (⟨1⟩, greeting) := by decide +kernel
  exact ⟨by decide +kernel, stale_gateways_do_not_deliver 1000 hrun rfl hhands 3⟩

/-- The user logs in on the first gateway and then on the second one.  The first gateway still
hands the message to its local sink. -/
theorem stale_gateway_delivers :
    ReflTransGen (system twoGateways).Step (.initial (.initial Bool 1000))
        (afterActs loggedInTwice) ∧
      nextHands twoGateways (afterActs loggedInTwice) = some (false, ⟨1⟩, greeting) ∧
      Overtaken twoGateways (afterActs loggedInTwice).world 2 false ⟨1⟩ := by
  refine ⟨Serial.reaches_play _ _, by decide +kernel, ?_⟩
  exact ⟨⟨⟨2⟩, ⟨20⟩, ⟨2⟩, 1001⟩, ⟨⟨10⟩, ⟨1⟩⟩, by decide +kernel, by decide +kernel, by decide,
    by decide⟩

end MuduoChat
