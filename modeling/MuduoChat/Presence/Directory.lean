import MuduoChat.Domain.Types

/-!
# The presence directory

The directory says at which gateway and on which connection a user is logged in.  An entry is a
lease: it names the epoch of the login that has written it and the time at which it runs out.
A claim always overwrites the entry and begins a new epoch.  A lease is renewed or released only
by a call that names the epoch of the entry, and an entry whose lease has run out counts as
absent.

The directory is a port with two adapters.  This file has the port and the adapter that keeps the
entries in memory.
-/

namespace MuduoChat

open Std

/-! ### The port -/

structure GatewayId where
  value : UInt64 := 0
  deriving DecidableEq, Repr

structure ConnectionId where
  value : UInt64 := 0
  deriving DecidableEq, Repr

/-- Epochs are drawn from one counter, which never goes back. -/
@[ext] structure SessionEpoch where
  value : ℕ := 0
  deriving DecidableEq, Repr

structure DeliveryRoute where
  user : UserId := {}
  gatewayId : GatewayId := {}
  connectionId : ConnectionId := {}
  sessionEpoch : SessionEpoch := {}
  deriving DecidableEq, Repr

inductive PresenceError where
  | notEpoch
  | notFound
  | dependencyUnavailable
  deriving DecidableEq, Repr

structure ClaimResult where
  ok : Bool := false
  epoch : SessionEpoch := {}
  error : PresenceError := .notFound
  deriving DecidableEq, Repr

structure RenewResult where
  ok : Bool := false
  expiresAtMs : ℤ := 0
  error : PresenceError := .notFound
  deriving DecidableEq, Repr

structure ReleaseResult where
  ok : Bool := false
  error : PresenceError := .notFound
  deriving DecidableEq, Repr

/-- The flag `expired` of a failed lookup tells a lease that has run out from a user who has no
entry. -/
structure LocateResult where
  ok : Bool := false
  expired : Bool := false
  route : DeliveryRoute := {}
  error : PresenceError := .notFound
  deriving DecidableEq, Repr

inductive PresenceCall where
  | claim (user : UserId) (gateway : GatewayId) (conn : ConnectionId)
  | renew (user : UserId) (gateway : GatewayId) (conn : ConnectionId) (epoch : SessionEpoch)
  | release (user : UserId) (gateway : GatewayId) (conn : ConnectionId) (epoch : SessionEpoch)
  | locate (user : UserId)
  deriving DecidableEq, Repr

abbrev PresenceCall.Result : PresenceCall → Type
  | .claim _ _ _ => ClaimResult
  | .renew _ _ _ _ => RenewResult
  | .release _ _ _ _ => ReleaseResult
  | .locate _ => LocateResult

def PresenceCall.user : PresenceCall → UserId
  | .claim u _ _ => u
  | .renew u _ _ _ => u
  | .release u _ _ _ => u
  | .locate u => u

/-! ### The adapter in memory -/

structure PresenceEntry where
  gatewayId : GatewayId
  connectionId : ConnectionId
  sessionEpoch : SessionEpoch
  expiresAtMs : ℤ
  deriving DecidableEq, Repr

/-- The flag `failure` is how a test makes the directory unavailable. -/
structure InMemoryPresenceDirectory where
  ttlMs : ℤ
  nextEpoch : ℕ := 1
  failure : Bool := false
  entries : TreeMap UserId PresenceEntry := ∅

namespace InMemoryPresenceDirectory

variable (d : InMemoryPresenceDirectory) (now : ℤ)

def claim (user : UserId) (gateway : GatewayId) (conn : ConnectionId) :
    ClaimResult × InMemoryPresenceDirectory :=
  if d.failure then ({ error := .dependencyUnavailable }, d)
  else
    ({ ok := true, epoch := ⟨d.nextEpoch⟩ },
      { d with
        nextEpoch := d.nextEpoch + 1
        entries := d.entries.insert user ⟨gateway, conn, ⟨d.nextEpoch⟩, now + d.ttlMs⟩ })

/-- The entry that a call for an epoch is about: it has to be there, its lease must not have run
out, and its epoch has to be the one of the call. -/
def checkEpoch (user : UserId) (epoch : SessionEpoch) : Except PresenceError PresenceEntry :=
  match d.entries[user]? with
  | none => .error .notFound
  | some entry =>
    if entry.expiresAtMs ≤ now then .error .notFound
    else if entry.sessionEpoch ≠ epoch then .error .notEpoch
    else .ok entry

def renew (user : UserId) (_gateway : GatewayId) (_conn : ConnectionId) (epoch : SessionEpoch) :
    RenewResult × InMemoryPresenceDirectory :=
  if d.failure then ({ error := .dependencyUnavailable }, d)
  else
    match d.checkEpoch now user epoch with
    | .error e => ({ error := e }, d)
    | .ok entry =>
      ({ ok := true, expiresAtMs := now + d.ttlMs },
        { d with
          entries := d.entries.insert user { entry with expiresAtMs := now + d.ttlMs } })

def release (user : UserId) (_gateway : GatewayId) (_conn : ConnectionId) (epoch : SessionEpoch) :
    ReleaseResult × InMemoryPresenceDirectory :=
  if d.failure then ({ error := .dependencyUnavailable }, d)
  else
    match d.checkEpoch now user epoch with
    | .error e => ({ error := e }, d)
    | .ok _ => ({ ok := true }, { d with entries := d.entries.erase user })

def locate (user : UserId) : LocateResult :=
  if d.failure then { error := .dependencyUnavailable }
  else
    match d.entries[user]? with
    | none => { error := .notFound }
    | some entry =>
      if entry.expiresAtMs ≤ now then { expired := true, error := .notFound }
      else
        { ok := true
          route := ⟨user, entry.gatewayId, entry.connectionId, entry.sessionEpoch⟩ }

/-- Any call of the port. -/
def perform : (call : PresenceCall) → call.Result × InMemoryPresenceDirectory
  | .claim user gateway conn => d.claim now user gateway conn
  | .renew user gateway conn epoch => d.renew now user gateway conn epoch
  | .release user gateway conn epoch => d.release now user gateway conn epoch
  | .locate user => (d.locate now user, d)

lemma perform_frame (call : PresenceCall) :
    (d.perform now call).2.ttlMs = d.ttlMs ∧ (d.perform now call).2.nextEpoch ≤ d.nextEpoch + 1 := by
  cases call with
  | claim user gateway conn =>
    simp only [perform, claim]
    split <;> simp
  | renew user gateway conn epoch =>
    simp only [perform, renew]
    split
    · simp
    · split <;> simp
  | release user gateway conn epoch =>
    simp only [perform, release]
    split
    · simp
    · split <;> simp
  | locate user => simp [perform]

/-! ### Entries that are in force -/

/-- The entry of a user if its lease has not run out. -/
def live (user : UserId) : Option PresenceEntry :=
  d.entries[user]?.filter fun entry => now < entry.expiresAtMs

variable {d now} {user : UserId} {gateway : GatewayId} {conn : ConnectionId}
  {epoch : SessionEpoch} {entry : PresenceEntry}

lemma live_eq_some : d.live now user = some entry ↔
    d.entries[user]? = some entry ∧ now < entry.expiresAtMs := by
  simp [live, Option.filter_eq_some_iff]

lemma checkEpoch_eq_ok : d.checkEpoch now user epoch = .ok entry ↔
    d.live now user = some entry ∧ entry.sessionEpoch = epoch := by
  rw [live_eq_some]
  unfold checkEpoch
  cases h : d.entries[user]? with
  | none => simp
  | some e =>
    by_cases hexp : e.expiresAtMs ≤ now
    · simp only [hexp, if_true, reduceCtorEq, false_iff]
      rintro ⟨⟨heq, hlt⟩, -⟩
      cases heq
      omega
    · by_cases hep : e.sessionEpoch = epoch
      · simp only [hexp, hep, ne_eq, not_true_eq_false, if_false, Except.ok.injEq,
          Option.some.injEq]
        constructor
        · rintro rfl
          exact ⟨⟨rfl, by omega⟩, hep⟩
        · exact fun h => h.1.1
      · simp only [hexp, hep, ne_eq, not_false_eq_true, if_true, if_false, reduceCtorEq,
          false_iff, Option.some.injEq]
        rintro ⟨⟨rfl, -⟩, heq⟩
        exact hep heq

/-! ### What the calls do while the directory is available -/

section Available

variable (now user gateway conn epoch) (hup : d.failure = false)

include hup

/-- **Inversion of a renewal.**  It fails and changes nothing, or it prolongs the entry in force,
whose epoch it has named. -/
lemma renew_cases :
    ((d.renew now user gateway conn epoch).1.ok = false ∧
        (d.renew now user gateway conn epoch).2 = d ∧
        ∀ entry, d.live now user = some entry → entry.sessionEpoch ≠ epoch) ∨
      ∃ entry, d.live now user = some entry ∧ entry.sessionEpoch = epoch ∧
        d.renew now user gateway conn epoch =
          ({ ok := true, expiresAtMs := now + d.ttlMs },
            { d with entries :=
                d.entries.insert user { entry with expiresAtMs := now + d.ttlMs } }) := by
  cases h : d.checkEpoch now user epoch with
  | error e =>
    refine .inl ⟨by simp [renew, hup, h], by simp [renew, hup, h], fun entry hlive heq => ?_⟩
    have hok := checkEpoch_eq_ok.2 ⟨hlive, heq⟩
    rw [h] at hok
    cases hok
  | ok entry =>
    obtain ⟨hlive, heq⟩ := checkEpoch_eq_ok.1 h
    exact .inr ⟨entry, hlive, heq, by simp [renew, hup, h]⟩

/-- **Inversion of a release.** -/
lemma release_cases :
    ((d.release now user gateway conn epoch).1.ok = false ∧
        (d.release now user gateway conn epoch).2 = d ∧
        ∀ entry, d.live now user = some entry → entry.sessionEpoch ≠ epoch) ∨
      ∃ entry, d.live now user = some entry ∧ entry.sessionEpoch = epoch ∧
        d.release now user gateway conn epoch =
          ({ ok := true }, { d with entries := d.entries.erase user }) := by
  cases h : d.checkEpoch now user epoch with
  | error e =>
    refine .inl
      ⟨by simp [release, hup, h], by simp [release, hup, h], fun entry hlive heq => ?_⟩
    have hok := checkEpoch_eq_ok.2 ⟨hlive, heq⟩
    rw [h] at hok
    cases hok
  | ok entry =>
    obtain ⟨hlive, heq⟩ := checkEpoch_eq_ok.1 h
    exact .inr ⟨entry, hlive, heq, by simp [release, hup, h]⟩

lemma locate_ok_iff {route : DeliveryRoute} :
    (d.locate now user).ok = true ∧ (d.locate now user).route = route ↔
      ∃ entry, d.live now user = some entry ∧
        route = ⟨user, entry.gatewayId, entry.connectionId, entry.sessionEpoch⟩ := by
  unfold locate
  simp only [hup, live_eq_some]
  cases h : d.entries[user]? with
  | none => simp
  | some entry =>
    by_cases hexp : entry.expiresAtMs ≤ now
    · simp only [hexp, if_true]
      constructor
      · rintro ⟨h, -⟩
        cases h
      · rintro ⟨e, ⟨he, hlt⟩, -⟩
        cases he
        omega
    · simp only [hexp, if_false]
      constructor
      · rintro ⟨-, rfl⟩
        exact ⟨entry, ⟨rfl, by omega⟩, rfl⟩
      · rintro ⟨e, ⟨he, -⟩, rfl⟩
        cases he
        exact ⟨rfl, rfl⟩

end Available

end InMemoryPresenceDirectory

end MuduoChat
