import MuduoChat.Presence.Sink

/-!
# Gateways over one directory

Several gateways share a presence directory, and each of them has a sink of its own.  The
surroundings choose the time of each call, whether the directory can be reached, and what the
local sink and the transport answer.

The lemmas of this file say what a critical section can do to the shadow table of its gateway and
to the names in the directory.  An entry of the directory keeps its gateway and its connection
until the next claim (`names_of_perform`), and a shadow entry keeps its connection until the
next `bindUser` (`shadow_of_enter`).
-/

namespace MuduoChat

open Std GatewayAwareDeliverySink

/-- What the surroundings choose at a call. -/
structure PresenceEnv where
  now : ℤ
  up : Bool := true
  answer : DeliverDisposition := .accepted
  transport : GatewayDeliverResult := {}

structure Gateways (ι : Type) where
  directory : InMemoryPresenceDirectory
  sinks : ι → GatewayAwareDeliverySink

/-- The state at the beginning. -/
def Gateways.initial (ι : Type) (ttlMs : ℤ) : Gateways ι :=
  ⟨{ ttlMs := ttlMs }, fun _ => {}⟩

namespace InMemoryPresenceDirectory

variable {d : InMemoryPresenceDirectory} {now : ℤ}

/-- Where the entries of the directory come from: an entry was there before, and its lease is
longer only if it was still in force, or it is the one of a claim that has succeeded. -/
lemma names_of_perform {call : PresenceCall} {user : UserId} {entry : PresenceEntry}
    (h : (d.perform now call).2.entries[user]? = some entry) :
    (∃ old, d.entries[user]? = some old ∧ entry.gatewayId = old.gatewayId ∧
        entry.connectionId = old.connectionId ∧ (entry = old ∨ now < old.expiresAtMs)) ∨
      call = .claim user entry.gatewayId entry.connectionId ∧ d.failure = false := by
  by_cases hdown : d.failure = true
  · -- a directory that is down changes nothing
    have hsame : (d.perform now call).2 = d := by
      cases call <;> simp [perform, claim, renew, release, hdown]
    rw [hsame] at h
    exact .inl ⟨entry, h, rfl, rfl, .inl rfl⟩
  have hup : d.failure = false := by simpa using hdown
  cases call with
  | claim u gateway conn =>
    simp only [perform, claim, hup, Bool.false_eq_true, if_false] at h
    rw [OrderedMap.getElem?_insert] at h
    by_cases hu : u = user
    · rw [if_pos hu] at h
      cases h
      exact .inr ⟨by rw [hu], hup⟩
    · rw [if_neg hu] at h
      exact .inl ⟨entry, h, rfl, rfl, .inl rfl⟩
  | renew u gateway conn epoch =>
    refine .inl ?_
    rcases renew_cases now u gateway conn epoch hup with ⟨-, hsame, -⟩ | ⟨old, hlive, -, heq⟩
    · rw [perform, hsame] at h
      exact ⟨entry, h, rfl, rfl, .inl rfl⟩
    · rw [perform, heq] at h
      dsimp only at h
      obtain ⟨hold, hnow⟩ := live_eq_some.1 hlive
      rw [OrderedMap.getElem?_insert] at h
      by_cases hu : u = user
      · rw [if_pos hu] at h
        cases h
        exact ⟨old, by rw [← hu]; exact hold, rfl, rfl, .inr hnow⟩
      · rw [if_neg hu] at h
        exact ⟨entry, h, rfl, rfl, .inl rfl⟩
  | release u gateway conn epoch =>
    refine .inl ⟨entry, ?_, rfl, rfl, .inl rfl⟩
    rcases release_cases now u gateway conn epoch hup with ⟨-, hsame, -⟩ | ⟨old, -, -, heq⟩
    · rwa [perform, hsame] at h
    · rw [perform, heq] at h
      dsimp only at h
      rw [OrderedMap.getElem?_erase] at h
      by_cases hu : u = user
      · rw [if_pos hu] at h
        cases h
      · rwa [if_neg hu] at h
  | locate u => exact .inl ⟨entry, h, rfl, rfl, .inl rfl⟩

end InMemoryPresenceDirectory

namespace GatewayAwareDeliverySink

variable {G : GatewayConfig} {s : GatewayAwareDeliverySink} {user : UserId}

@[simp] lemma shadow_clearBackoff (user : UserId) : (s.clearBackoff user).shadow = s.shadow := rfl

@[simp] lemma shadow_backOff (user : UserId) (now : ℤ) : (s.backOff user now).shadow = s.shadow :=
  rfl

lemma shadow_confirm (user : UserId) (epoch : SessionEpoch) :
    (s.confirm user epoch).2.shadow = s.shadow := by
  unfold confirm
  split <;> rfl

lemma shadow_adopt (user : UserId) (snapEpoch epoch : SessionEpoch) (v : UserId) :
    (s.adopt user snapEpoch epoch).shadow[v]?.map Shadow.connectionId =
      s.shadow[v]?.map Shadow.connectionId := by
  unfold adopt
  cases h : s.shadow[user]? with
  | none => rfl
  | some x =>
    by_cases hx : x.epoch = snapEpoch
    · simp only [hx, if_true, shadow_clearBackoff]
      rw [OrderedMap.getElem?_insert]
      by_cases hv : user = v
      · rw [if_pos hv, ← hv, h]
        rfl
      · rw [if_neg hv]
    · simp only [hx, if_false]

lemma shadow_of_snapshot {now : ℤ} {x : Shadow} (h : s.snapshot G user now = .inr x) :
    s.shadow[user]? = some x := by
  unfold snapshot at h
  split at h
  · cases h
  · cases hs : s.shadow[user]? with
    | none => simp [hs] at h
    | some y =>
      simp only [hs, Sum.inr.injEq] at h
      rw [h]

lemma releaseUser_eq_ask {conn : ConnectionId} {epoch : SessionEpoch}
    (h : s.shadow[user]? = some ⟨conn, epoch⟩) :
    s.releaseUser G user conn = .ask (.release user G.localGateway conn epoch) fun r =>
      if r.ok then (r, { s with shadow := s.shadow.erase user }.clearBackoff user) else (r, s) := by
  simp [releaseUser, h]

lemma releaseUser_eq_done {conn : ConnectionId}
    (h : ∀ epoch, s.shadow[user]? ≠ some ⟨conn, epoch⟩) :
    ∃ r, s.releaseUser G user conn = .done r s := by
  unfold releaseUser
  cases hs : s.shadow[user]? with
  | none => exact ⟨_, rfl⟩
  | some x =>
    have hconn : x.connectionId ≠ conn := by
      rintro rfl
      exact h x.epoch hs
    exact ⟨{ error := .notEpoch }, by simp [hconn]⟩

end GatewayAwareDeliverySink

namespace Gateways

variable {ι : Type} [DecidableEq ι] (G : ι → GatewayConfig) (i : ι) (ω : PresenceEnv)
  (w : Gateways ι)

def perform (call : PresenceCall) : call.Result × InMemoryPresenceDirectory :=
  { w.directory with failure := !ω.up }.perform ω.now call

/-- A critical section of a gateway. -/
def enter (x : Section) : x.Value × Gateways ι :=
  match x.plan (G i) ω.answer (w.sinks i) with
  | .done a s => (a, { w with sinks := Function.update w.sinks i s })
  | .ask call k =>
    ((k (w.perform ω call).1).1,
      { directory := (w.perform ω call).2
        sinks := Function.update w.sinks i (k (w.perform ω call).1).2 })

/-- How the calls of the operations of a gateway are answered. -/
def answer : Handler SinkPort (Gateways ι) PresenceEnv
  | .critical x, ω, w => some (.ok (w.enter G i ω x).1, (w.enter G i ω x).2)
  | .presence call, ω, w =>
    some (.ok (w.perform ω call).1, { w with directory := (w.perform ω call).2 })
  | .nowMs, ω, w => some (.ok ω.now, w)
  | .transport _ _, ω, w => some (.ok ω.transport, w)

/-! ### What a section changes -/

variable {G i ω w} {x : Section} {user : UserId}

lemma enter_eq_done {a : x.Value} {s : GatewayAwareDeliverySink}
    (h : x.plan (G i) ω.answer (w.sinks i) = .done a s) :
    (w.enter G i ω x).1 = a ∧ (w.enter G i ω x).2.directory = w.directory ∧
      (w.enter G i ω x).2.sinks i = s := by
  simp [enter, h]

lemma enter_eq_ask {call : PresenceCall}
    {k : call.Result → x.Value × GatewayAwareDeliverySink}
    (h : x.plan (G i) ω.answer (w.sinks i) = .ask call k) :
    (w.enter G i ω x).1 = (k (w.perform ω call).1).1 ∧
      (w.enter G i ω x).2.directory = (w.perform ω call).2 ∧
      (w.enter G i ω x).2.sinks i = (k (w.perform ω call).1).2 := by
  simp [enter, h]

omit [DecidableEq ι] in
lemma entries_of_release {gateway : GatewayId} {conn : ConnectionId} {epoch : SessionEpoch}
    (h : (w.perform ω (.release user gateway conn epoch)).1.ok = true) :
    (w.perform ω (.release user gateway conn epoch)).2.entries[user]? = none := by
  have hup : ω.up = true := by
    cases hdown : ω.up with
    | true => rfl
    | false =>
      simp [perform, InMemoryPresenceDirectory.perform, InMemoryPresenceDirectory.release,
        hdown] at h
  rcases InMemoryPresenceDirectory.release_cases (d := { w.directory with failure := !ω.up })
    ω.now user gateway conn epoch (by simp [hup]) with ⟨hno, -⟩ | ⟨old, -, -, heq⟩
  · exact absurd (hno.symm.trans h) (by simp)
  · have hperform : w.perform ω (.release user gateway conn epoch) = _ := heq
    rw [hperform]
    exact (OrderedMap.getElem?_erase _ _ _).trans (if_pos rfl)

lemma sinks_of_enter {j : ι} (hj : j ≠ i) : (w.enter G i ω x).2.sinks j = w.sinks j := by
  unfold enter
  split <;> exact Function.update_of_ne hj _ _

lemma directory_of_enter : (w.enter G i ω x).2.directory = w.directory ∨
    ∃ call k, x.plan (G i) ω.answer (w.sinks i) = .ask call k ∧
      (w.enter G i ω x).2.directory = (w.perform ω call).2 := by
  cases h : x.plan (G i) ω.answer (w.sinks i) with
  | done a s => exact .inl (enter_eq_done h).2.1
  | ask call k => exact .inr ⟨call, k, rfl, (enter_eq_ask h).2.1⟩

lemma plan_eq_claim {answer : DeliverDisposition} {s : GatewayAwareDeliverySink}
    {K : GatewayConfig} {gateway : GatewayId} {conn : ConnectionId}
    {k : ClaimResult → x.Value × GatewayAwareDeliverySink}
    (h : x.plan K answer s = .ask (.claim user gateway conn) k) :
    x = .bindUser user conn ∧ gateway = K.localGateway := by
  cases x with
  | bindUser u c =>
    obtain ⟨hcall, -⟩ := Plan.ask.inj h
    cases hcall
    exact ⟨rfl, rfl⟩
  | releaseUser u c =>
    by_cases hs : ∃ epoch, s.shadow[u]? = some ⟨c, epoch⟩
    · obtain ⟨epoch, hs⟩ := hs
      cases (releaseUser_eq_ask hs).symm.trans h
    · obtain ⟨r, hr⟩ := releaseUser_eq_done (not_exists.1 hs)
      cases hr.symm.trans h
  | _ => cases h

lemma shadow_bindUser {conn : ConnectionId} (hup : ω.up = true) :
    ((w.enter G i ω (.bindUser user conn)).2.sinks i).shadow =
      (w.sinks i).shadow.insert user ⟨conn, ⟨w.directory.nextEpoch⟩⟩ := by
  rw [(enter_eq_ask rfl).2.2]
  simp [perform, InMemoryPresenceDirectory.perform, InMemoryPresenceDirectory.claim, hup]

/-- **What a section does to the shadow table of its gateway.**  A `bindUser` enters the user, a
release that succeeds removes the user here and in the directory, and every other section keeps
the connections of the table. -/
lemma shadow_cases :
    (∃ user conn, x = .bindUser user conn ∧ ω.up = true ∧
        ((w.enter G i ω x).2.sinks i).shadow =
          (w.sinks i).shadow.insert user ⟨conn, ⟨w.directory.nextEpoch⟩⟩) ∨
      (∃ user, ((w.enter G i ω x).2.sinks i).shadow = (w.sinks i).shadow.erase user ∧
        (w.enter G i ω x).2.directory.entries[user]? = none) ∨
      ∀ v : UserId, ((w.enter G i ω x).2.sinks i).shadow[v]?.map Shadow.connectionId =
        (w.sinks i).shadow[v]?.map Shadow.connectionId := by
  cases x with
  | bindUser user conn =>
    cases hup : ω.up with
    | true => exact .inl ⟨user, conn, rfl, rfl, shadow_bindUser hup⟩
    | false =>
      refine .inr (.inr fun v => ?_)
      rw [(enter_eq_ask rfl).2.2]
      simp [perform, InMemoryPresenceDirectory.perform, InMemoryPresenceDirectory.claim, hup]
  | unbindUser user conn epoch =>
    right
    obtain ⟨-, hdirectory, hsink⟩ := enter_eq_ask (G := G) (i := i) (ω := ω) (w := w)
      (x := .unbindUser user conn epoch) rfl
    rw [hsink, hdirectory]
    by_cases hok : (w.perform ω (.release user (G i).localGateway conn epoch)).1.ok = true
    · rw [if_pos hok]
      have hnone := entries_of_release hok
      dsimp only [shadow_clearBackoff]
      split
      · exact .inl ⟨user, rfl, hnone⟩
      · exact .inr fun v => rfl
    · rw [if_neg hok]
      exact .inr fun v => rfl
  | releaseUser user conn =>
    right
    by_cases hs : ∃ epoch, (w.sinks i).shadow[user]? = some ⟨conn, epoch⟩
    · obtain ⟨epoch, hs⟩ := hs
      obtain ⟨-, hdirectory, hsink⟩ := enter_eq_ask (ω := ω) (x := .releaseUser user conn)
        (releaseUser_eq_ask (G := G i) hs)
      rw [hsink, hdirectory]
      by_cases hok : (w.perform ω (.release user (G i).localGateway conn epoch)).1.ok = true
      · rw [if_pos hok]
        exact .inl ⟨user, rfl, entries_of_release hok⟩
      · rw [if_neg hok]
        exact .inr fun v => rfl
    · obtain ⟨r, hr⟩ := releaseUser_eq_done (G := G i)
        (not_exists.1 hs)
      rw [(enter_eq_done (ω := ω) (x := .releaseUser user conn) hr).2.2]
      exact .inr fun v => rfl
  | adopt user snapEpoch epoch =>
    refine .inr (.inr fun v => ?_)
    rw [(enter_eq_done rfl).2.2]
    exact shadow_adopt user snapEpoch epoch v
  | confirm user epoch =>
    refine .inr (.inr fun v => ?_)
    rw [(enter_eq_done rfl).2.2, shadow_confirm]
  | locate user =>
    refine .inr (.inr fun v => ?_)
    rw [(enter_eq_ask rfl).2.2]
  | backOff user now =>
    refine .inr (.inr fun v => ?_)
    rw [(enter_eq_done rfl).2.2, shadow_backOff]
  | _ =>
    refine .inr (.inr fun v => ?_)
    rw [(enter_eq_done rfl).2.2]

end Gateways

end MuduoChat
