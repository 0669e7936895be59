import MuduoChat.Domain.Types

/-!
# The session registry and the login attempts

The registry says which session a connection has and on which connection a user is logged in.  It
keeps two tables and two sets of connections under one mutex, so each operation is one step.  A
connection can get a session only while it is in the set of active connections and its closing has
not been reserved.

Each operation changes only some of the tables.  That the two tables are inverse to one another, and
that only active connections are closing, is kept by all of them (`Consistent`); a registry is a
value of the tables for which this holds.

A login attempt of a user takes the next generation of the user, and it is current as long as the
generation has not been advanced again.  The session of an attempt that succeeds has the generation
of the attempt.  The user 0 of a session means that there is none.
-/

namespace MuduoChat

abbrev BoundSession := SessionIdentity

inductive BindResult where
  | ok
  | connectionInactive
  | connectionBusy
  | userBusy
  deriving DecidableEq, Repr

/-- What the mutex of the registry guards. -/
structure SessionTables (C : Type) where
  byConnection : C → Option BoundSession := fun _ => none
  byUser : UserId → Option C := fun _ => none
  activeConnections : C → Bool := fun _ => false
  closingConnections : C → Bool := fun _ => false

namespace SessionTables

variable {C : Type} [DecidableEq C] (t : SessionTables C) (conn : C)

def addConnection : SessionTables C :=
  { t with activeConnections := Function.update t.activeConnections conn true }

def removeConnection : SessionTables C :=
  { t with
    activeConnections := Function.update t.activeConnections conn false
    closingConnections := Function.update t.closingConnections conn false }

/-- Reserve the closing of a connection, if it still has the expected session. -/
def reserveCloseIfBound (expected : BoundSession) : Bool × SessionTables C :=
  if t.activeConnections conn = false then (false, t)
  else if t.byConnection conn ≠ some expected then (false, t)
  else if t.closingConnections conn = true then (false, t)
  else (true, { t with closingConnections := Function.update t.closingConnections conn true })

def bind (user : UserId) (generation : ℕ) : BindResult × SessionTables C :=
  if t.activeConnections conn = false then (.connectionInactive, t)
  else if t.closingConnections conn = true then (.connectionInactive, t)
  else if (t.byConnection conn).isSome then (.connectionBusy, t)
  else if (t.byUser user).isSome then (.userBusy, t)
  else
    (.ok,
      { t with
        byConnection := Function.update t.byConnection conn (some ⟨user, generation⟩)
        byUser := Function.update t.byUser user (some conn) })

/-- Release the session of a connection.  The answer is its user, or 0 if there is none. -/
def unbind : UserId × SessionTables C :=
  match t.byConnection conn with
  | none => ({}, t)
  | some session =>
    (session.userId,
      { t with
        byConnection := Function.update t.byConnection conn none
        byUser := Function.update t.byUser session.userId none })

/-- Release the session of a user.  The entry of the connection goes with it if it is one of the same
user. -/
def unbindUser (user : UserId) : UserId × SessionTables C :=
  match t.byUser user with
  | none => ({}, t)
  | some conn =>
    (user,
      { t with
        byConnection :=
          if (t.byConnection conn).any fun session => session.userId = user then
            Function.update t.byConnection conn none
          else t.byConnection
        byUser := Function.update t.byUser user none })

/-! ### What the operations do -/

variable {t conn} {user : UserId} {generation : ℕ} {expected : BoundSession}

variable (t conn user generation) in
/-- **Inversion of a binding.**  It fails and changes nothing, or the connection was active and not
closing, and neither the connection nor the user had a session. -/
lemma bind_cases :
    ((t.bind conn user generation).1 ≠ .ok ∧ (t.bind conn user generation).2 = t) ∨
      (t.bind conn user generation).1 = .ok ∧ t.activeConnections conn = true ∧
        t.closingConnections conn = false ∧ t.byConnection conn = none ∧ t.byUser user = none ∧
        (t.bind conn user generation).2 =
          { t with
            byConnection := Function.update t.byConnection conn (some ⟨user, generation⟩)
            byUser := Function.update t.byUser user (some conn) } := by
  by_cases hactive : t.activeConnections conn = true
  · by_cases hclosing : t.closingConnections conn = true
    · simp [bind, hactive, hclosing]
    · cases hconn : t.byConnection conn with
      | some session => simp [bind, hactive, hclosing, hconn]
      | none =>
        cases huser : t.byUser user with
        | some c | none => simp [bind, hactive, hclosing, hconn, huser]
  · simp [bind, hactive]

variable (t conn expected) in
/-- **Inversion of a reservation.** -/
lemma reserveCloseIfBound_cases :
    ((t.reserveCloseIfBound conn expected).1 = false ∧
        (t.reserveCloseIfBound conn expected).2 = t) ∨
      (t.reserveCloseIfBound conn expected).1 = true ∧ t.activeConnections conn = true ∧
        (t.reserveCloseIfBound conn expected).2 =
          { t with closingConnections := Function.update t.closingConnections conn true } := by
  by_cases hactive : t.activeConnections conn = true
  · by_cases hbound : t.byConnection conn = some expected
    · by_cases hclosing : t.closingConnections conn = true
      · simp [reserveCloseIfBound, hactive, hbound, hclosing]
      · simp [reserveCloseIfBound, hactive, hbound, hclosing]
    · simp [reserveCloseIfBound, hactive, hbound]
  · simp [reserveCloseIfBound, hactive]

/-! ### The tables fit together -/

/-- The two tables are inverse to one another, and a connection whose closing is reserved is
active. -/
structure Consistent (t : SessionTables C) : Prop where
  agree : ∀ user conn, t.byUser user = some conn ↔
    ∃ session, t.byConnection conn = some session ∧ session.userId = user
  active : ∀ conn, t.closingConnections conn = true → t.activeConnections conn = true

omit [DecidableEq C] in
lemma consistent_empty : Consistent ({} : SessionTables C) := ⟨by simp, by simp⟩

namespace Consistent

variable {session session' : BoundSession} {c : C}

omit [DecidableEq C] in
lemma eq_of_byConnection (h : Consistent t) (hs : t.byConnection conn = some session)
    (hs' : t.byConnection c = some session') (hu : session.userId = session'.userId) : conn = c := by
  have hconn := (h.agree _ _).2 ⟨session, hs, rfl⟩
  have hc := (h.agree _ _).2 ⟨session', hs', rfl⟩
  rw [hu, hc] at hconn
  exact (Option.some.inj hconn).symm

lemma addConnection (h : Consistent t) : Consistent (t.addConnection conn) := by
  refine ⟨h.agree, fun c hc => ?_⟩
  by_cases hconn : c = conn
  · simp [SessionTables.addConnection, hconn]
  · simpa [SessionTables.addConnection, hconn] using h.active c hc

lemma removeConnection (h : Consistent t) : Consistent (t.removeConnection conn) := by
  refine ⟨h.agree, fun c hc => ?_⟩
  by_cases hconn : c = conn
  · simp [SessionTables.removeConnection, hconn] at hc
  · simp only [SessionTables.removeConnection, Function.update_of_ne hconn] at hc ⊢
    exact h.active c hc

lemma reserveCloseIfBound (h : Consistent t) :
    Consistent (t.reserveCloseIfBound conn expected).2 := by
  rcases reserveCloseIfBound_cases t conn expected with
    ⟨-, heq⟩ | ⟨-, hactive, heq⟩
  · rwa [heq]
  · rw [heq]
    refine ⟨h.agree, fun c hc => ?_⟩
    by_cases hconn : c = conn
    · rw [hconn]
      exact hactive
    · exact h.active c (by simpa [hconn] using hc)

variable (session) in
lemma insert (h : Consistent t) (hconn : t.byConnection conn = none)
    (huser : t.byUser session.userId = none) :
    Consistent { t with
      byConnection := Function.update t.byConnection conn (some session)
      byUser := Function.update t.byUser session.userId (some conn) } := by
  refine ⟨fun user c => ?_, h.active⟩
  by_cases hu : user = session.userId
  · subst hu
    dsimp only
    rw [Function.update_self]
    by_cases hc : c = conn
    · subst hc
      simp
    · -- another connection cannot have a session of this user
      have hnone : ¬∃ s, t.byConnection c = some s ∧ s.userId = session.userId := by
        rw [← h.agree, huser]
        simp
      rw [Function.update_of_ne hc]
      simpa [Ne.symm hc] using hnone
  · dsimp only
    rw [Function.update_of_ne hu, h.agree]
    by_cases hc : c = conn
    · subst hc
      rw [Function.update_self, hconn]
      simp [Ne.symm hu]
    · rw [Function.update_of_ne hc]

lemma bind (h : Consistent t) : Consistent (t.bind conn user generation).2 := by
  rcases bind_cases t conn user generation with
    ⟨-, heq⟩ | ⟨-, -, -, hconn, huser, heq⟩
  · rwa [heq]
  · rw [heq]
    exact h.insert ⟨user, generation⟩ hconn huser

lemma remove (h : Consistent t) (hs : t.byConnection conn = some session) :
    Consistent { t with
      byConnection := Function.update t.byConnection conn none
      byUser := Function.update t.byUser session.userId none } := by
  refine ⟨fun user c => ?_, h.active⟩
  by_cases hu : user = session.userId
  · subst hu
    dsimp only
    rw [Function.update_self]
    by_cases hc : c = conn
    · simp [hc]
    · rw [Function.update_of_ne hc]
      simp only [reduceCtorEq, false_iff, not_exists, not_and]
      intro s hs' heq
      exact hc (h.eq_of_byConnection hs' hs heq)
  · dsimp only
    rw [Function.update_of_ne hu, h.agree]
    by_cases hc : c = conn
    · subst hc
      rw [Function.update_self, hs]
      simp [Ne.symm hu]
    · rw [Function.update_of_ne hc]

lemma unbind (h : Consistent t) : Consistent (t.unbind conn).2 := by
  unfold SessionTables.unbind
  cases hs : t.byConnection conn with
  | none => exact h
  | some session => exact h.remove hs

lemma unbindUser_eq (h : Consistent t) (huser : t.byUser user = some conn) :
    t.unbindUser user = (user,
      { t with
        byConnection := Function.update t.byConnection conn none
        byUser := Function.update t.byUser user none }) := by
  obtain ⟨session, hs, hu⟩ := (h.agree user conn).1 huser
  simp [SessionTables.unbindUser, huser, hs, hu]

lemma unbindUser (h : Consistent t) : Consistent (t.unbindUser user).2 := by
  cases huser : t.byUser user with
  | none => simpa [SessionTables.unbindUser, huser] using h
  | some conn =>
    obtain ⟨session, hs, rfl⟩ := (h.agree user conn).1 huser
    rw [h.unbindUser_eq huser]
    exact h.remove hs

end Consistent

end SessionTables

/-- The registry: tables that fit together. -/
structure SessionRegistry (C : Type) extends SessionTables C where
  consistent : toSessionTables.Consistent

namespace SessionRegistry

variable {C : Type}

/-- The registry at the beginning. -/
def empty : SessionRegistry C := ⟨{}, SessionTables.consistent_empty⟩

variable [DecidableEq C] (r : SessionRegistry C) (conn : C)

def addConnection : SessionRegistry C :=
  ⟨r.toSessionTables.addConnection conn, r.consistent.addConnection⟩

def removeConnection : SessionRegistry C :=
  ⟨r.toSessionTables.removeConnection conn, r.consistent.removeConnection⟩

def reserveCloseIfBound (expected : BoundSession) : Bool × SessionRegistry C :=
  ((r.toSessionTables.reserveCloseIfBound conn expected).1,
    ⟨(r.toSessionTables.reserveCloseIfBound conn expected).2, r.consistent.reserveCloseIfBound⟩)

def bind (user : UserId) (generation : ℕ) : BindResult × SessionRegistry C :=
  ((r.toSessionTables.bind conn user generation).1,
    ⟨(r.toSessionTables.bind conn user generation).2, r.consistent.bind⟩)

def unbind : UserId × SessionRegistry C :=
  ((r.toSessionTables.unbind conn).1, ⟨(r.toSessionTables.unbind conn).2, r.consistent.unbind⟩)

def unbindUser (user : UserId) : UserId × SessionRegistry C :=
  ((r.toSessionTables.unbindUser user).1,
    ⟨(r.toSessionTables.unbindUser user).2, r.consistent.unbindUser⟩)

omit [DecidableEq C] in
def lookupByConnection : Option BoundSession := r.byConnection conn

omit [DecidableEq C] in
def lookupByUser (user : UserId) : Option C := r.byUser user

end SessionRegistry

/-- What the application keeps of the login attempts: the latest generation of each user. -/
structure ChatApplication where
  generations : UserId → Option ℕ := fun _ => none

namespace ChatApplication

variable (app : ChatApplication) (user : UserId) (generation : ℕ)

def beginSessionAttempt : ℕ × ChatApplication :=
  let next := (app.generations user).getD 0 + 1
  (next, { app with generations := Function.update app.generations user (some next) })

def isSessionCurrent : Bool := app.generations user = some generation

def invalidateSessionAttempt : Bool × ChatApplication :=
  if app.generations user = some generation then
    (true, { app with generations := Function.update app.generations user (some (generation + 1)) })
  else (false, app)

/-! ### Login attempts -/

/-- The calls that change the generations. -/
inductive Call where
  | beginSessionAttempt (user : UserId)
  | invalidateSessionAttempt (user : UserId) (generation : ℕ)

def perform (app : ChatApplication) : Call → ChatApplication
  | .beginSessionAttempt user => (app.beginSessionAttempt user).2
  | .invalidateSessionAttempt user generation => (app.invalidateSessionAttempt user generation).2

/-- The calls that end an attempt: the next attempt of the user, or its own invalidation. -/
def ends : List Call := [.beginSessionAttempt user, .invalidateSessionAttempt user generation]

variable {app user generation}

/-- **The step lemma.**  The generation of a user stays while nothing ends the attempt, and grows
with what ends it. -/
lemma generations_perform {n : ℕ} (h : app.generations user = some n) (call : Call) :
    (call ∉ ends user n ∧ (app.perform call).generations user = some n) ∨
      (call ∈ ends user n ∧ (app.perform call).generations user = some (n + 1)) := by
  cases call with
  | beginSessionAttempt user' =>
    by_cases huser : user = user'
    · subst huser
      simp [ends, perform, beginSessionAttempt, h]
    · simp [ends, perform, beginSessionAttempt, h, huser, Ne.symm huser]
  | invalidateSessionAttempt user' generation' =>
    by_cases huser : user = user'
    · subst huser
      by_cases hcurrent : n = generation'
      · subst hcurrent
        simp [ends, perform, invalidateSessionAttempt, h]
      · simp [ends, perform, invalidateSessionAttempt, h, hcurrent, Ne.symm hcurrent]
    · simp only [ends, perform, invalidateSessionAttempt]
      split <;> simp [h, huser, Ne.symm huser]

/-- The generation of a user never goes back to an earlier one. -/
lemma generations_run {n : ℕ} (h : app.generations user = some n) (calls : List Call) :
    ∃ m, (calls.foldl perform app).generations user = some m ∧ n ≤ m ∧
      (m = n ↔ ∀ call ∈ calls, call ∉ ends user n) := by
  induction calls generalizing app n with
  | nil => exact ⟨n, h, le_rfl, by simp⟩
  | cons call calls ih =>
    rcases generations_perform h call with ⟨hno, hnext⟩ | ⟨hend, hnext⟩
    · obtain ⟨m, hm, hle, hiff⟩ := ih hnext
      exact ⟨m, hm, hle, hiff.trans (by simp [hno])⟩
    · obtain ⟨m, hm, hle, -⟩ := ih hnext
      exact ⟨m, hm, by omega, iff_of_false (by omega) fun hnone => hnone call (by simp) hend⟩

/-- **Attempts are fenced.**  Whatever is called after a login attempt has begun, the attempt is
current exactly as long as neither another attempt of the user has begun nor the attempt has been
invalidated. -/
theorem attempt_current_iff (app : ChatApplication) (user : UserId) (calls : List Call) :
    (calls.foldl perform (app.beginSessionAttempt user).2).isSessionCurrent user
        (app.beginSessionAttempt user).1 = true ↔
      ∀ call ∈ calls, call ∉ ends user (app.beginSessionAttempt user).1 := by
  have hbegun : (app.beginSessionAttempt user).2.generations user =
      some (app.beginSessionAttempt user).1 := by simp [beginSessionAttempt]
  obtain ⟨m, hm, -, hiff⟩ := generations_run hbegun calls
  rw [isSessionCurrent, hm, ← hiff]
  simp

end ChatApplication

end MuduoChat
