import MuduoChat.Session.Registry

/-!
# Histories of the session registry

A history is a list of calls to the registry, starting with empty tables.  After every history the
tables fit together.  A session that has been bound stays until the first call that releases it, and
the same user or the same connection can be bound again only after that; so each session is released
exactly once in between.
-/

namespace MuduoChat

/-- The calls of the registry that change something. -/
inductive RegistryCall (C : Type) where
  | addConnection (conn : C)
  | removeConnection (conn : C)
  | reserveCloseIfBound (conn : C) (expected : BoundSession)
  | bind (conn : C) (user : UserId) (generation : ℕ)
  | unbind (conn : C)
  | unbindUser (user : UserId)
  deriving DecidableEq

/-- What the calls answer. -/
inductive RegistryAnswer where
  | done
  | reserved (b : Bool)
  | bound (r : BindResult)
  | released (user : UserId)
  deriving DecidableEq

namespace SessionTables

variable {C : Type} [DecidableEq C]

def perform (t : SessionTables C) : RegistryCall C → RegistryAnswer × SessionTables C
  | .addConnection conn => (.done, t.addConnection conn)
  | .removeConnection conn => (.done, t.removeConnection conn)
  | .reserveCloseIfBound conn expected =>
    (.reserved (t.reserveCloseIfBound conn expected).1, (t.reserveCloseIfBound conn expected).2)
  | .bind conn user generation =>
    (.bound (t.bind conn user generation).1, (t.bind conn user generation).2)
  | .unbind conn => (.released (t.unbind conn).1, (t.unbind conn).2)
  | .unbindUser user => (.released (t.unbindUser user).1, (t.unbindUser user).2)

/-- The tables after some calls. -/
def performAll (t : SessionTables C) (calls : List (RegistryCall C)) : SessionTables C :=
  calls.foldl (fun t call => (t.perform call).2) t

/-- The tables after a history. -/
def after (calls : List (RegistryCall C)) : SessionTables C := performAll {} calls

variable {t : SessionTables C} {call : RegistryCall C} {calls mid : List (RegistryCall C)}
  {conn : C} {user : UserId} {session : BoundSession}

lemma performAll_append (calls mid : List (RegistryCall C)) :
    t.performAll (calls ++ mid) = (t.performAll calls).performAll mid :=
  List.foldl_append

lemma after_append (calls mid : List (RegistryCall C)) :
    after (calls ++ mid) = (after calls).performAll mid :=
  performAll_append calls mid

/-- **The step lemma.** -/
lemma Consistent.perform (h : Consistent t) : Consistent (t.perform call).2 := by
  cases call with
  | addConnection conn => exact h.addConnection
  | removeConnection conn => exact h.removeConnection
  | reserveCloseIfBound conn expected => exact h.reserveCloseIfBound
  | bind conn user generation => exact h.bind
  | unbind conn => exact h.unbind
  | unbindUser user => exact h.unbindUser

/-- **The run lemma.** -/
lemma Consistent.performAll (h : Consistent t) : Consistent (t.performAll calls) := by
  induction calls generalizing t with
  | nil => exact h
  | cons call calls ih => exact ih h.perform

lemma consistent_after (calls : List (RegistryCall C)) : Consistent (after calls) :=
  consistent_empty.performAll

/-! ### Reservations -/

lemma closing_perform (h : t.closingConnections conn = true)
    (hcall : call ≠ .removeConnection conn) : (t.perform call).2.closingConnections conn = true := by
  cases call with
  | addConnection c => exact h
  | removeConnection c =>
    have hne : conn ≠ c := by
      rintro rfl
      exact hcall rfl
    simpa [perform, SessionTables.removeConnection, hne] using h
  | reserveCloseIfBound c expected =>
    rcases reserveCloseIfBound_cases t c expected with
      ⟨-, heq⟩ | ⟨-, -, heq⟩
    · rw [perform, heq]
      exact h
    · rw [perform, heq]
      by_cases hc : conn = c
      · simp [hc]
      · simpa [hc] using h
  | bind c user generation =>
    rcases bind_cases t c user generation with
      ⟨-, heq⟩ | ⟨-, -, -, -, -, heq⟩
    · rw [perform, heq]
      exact h
    · rw [perform, heq]
      exact h
  | unbind c =>
    simp only [perform, unbind]
    split
    · exact h
    · exact h
  | unbindUser user =>
    simp only [perform, unbindUser]
    split
    · exact h
    · exact h

lemma closing_performAll (h : t.closingConnections conn = true)
    (hmid : .removeConnection conn ∉ mid) :
    (t.performAll mid).closingConnections conn = true := by
  induction mid generalizing t with
  | nil => exact h
  | cons call mid ih =>
    rw [List.mem_cons, not_or] at hmid
    exact ih (closing_perform h (Ne.symm hmid.1)) hmid.2

/-! ### Releases -/

/-- The call releases the session of the connection, and answers with its user. -/
def Releases (t : SessionTables C) (call : RegistryCall C) (conn : C) (session : BoundSession) :
    Prop :=
  (call = .unbind conn ∨ call = .unbindUser session.userId) ∧
    (t.perform call).1 = .released session.userId ∧
    (t.perform call).2.byConnection conn = none

variable (call) in
lemma Consistent.keeps_or_releases (ht : Consistent t) (h : t.byConnection conn = some session) :
    (t.perform call).2.byConnection conn = some session ∨ Releases t call conn session := by
  cases call with
  | addConnection c | removeConnection c => exact .inl h
  | reserveCloseIfBound c expected =>
    left
    rcases reserveCloseIfBound_cases t c expected with
      ⟨-, heq⟩ | ⟨-, -, heq⟩ <;> rw [SessionTables.perform, heq] <;> exact h
  | bind c user generation =>
    left
    rcases bind_cases t c user generation with
      ⟨-, heq⟩ | ⟨-, -, -, hc, -, heq⟩
    · rw [SessionTables.perform, heq]
      exact h
    · have hne : conn ≠ c := by
        rintro rfl
        rw [hc] at h
        cases h
      rw [SessionTables.perform, heq]
      simpa [hne] using h
  | unbind c =>
    by_cases hc : conn = c
    · subst hc
      right
      simp [Releases, SessionTables.perform, SessionTables.unbind, h]
    · left
      simp only [SessionTables.perform, SessionTables.unbind]
      split
      · exact h
      · simpa [hc] using h
  | unbindUser user =>
    cases huser : t.byUser user with
    | none =>
      left
      simpa [SessionTables.perform, SessionTables.unbindUser, huser] using h
    | some c =>
      rw [Releases, SessionTables.perform, ht.unbindUser_eq huser]
      by_cases hc : conn = c
      · right
        subst hc
        obtain ⟨session', hs', hu⟩ := (ht.agree user conn).1 huser
        obtain rfl := Option.some.inj (h.symm.trans hs')
        simp [hu]
      · left
        simpa [hc] using h

/-- The session that was bound before `mid` is still there when the call with the number `n` of `mid`
is made, and this call releases it. -/
def ReleasedAt (t : SessionTables C) (mid : List (RegistryCall C)) (conn : C)
    (session : BoundSession) (n : ℕ) : Prop :=
  ∃ call, mid[n]? = some call ∧
    (∀ m ≤ n, (t.performAll (mid.take m)).byConnection conn = some session) ∧
    Releases (t.performAll (mid.take n)) call conn session

lemma ReleasedAt.unique {n n' : ℕ} (h : ReleasedAt t mid conn session n)
    (h' : ReleasedAt t mid conn session n') : n = n' := by
  -- after the first of two releases the session is gone
  have hlt {n n' : ℕ} (h : ReleasedAt t mid conn session n)
      (h' : ReleasedAt t mid conn session n') : ¬n < n' := by
    intro hnn
    obtain ⟨call, hcall, -, -, -, hgone⟩ := h
    obtain ⟨-, -, hheld, -⟩ := h'
    have hnext : mid.take (n + 1) = mid.take n ++ [call] := by
      rw [List.take_add_one, hcall]
      rfl
    have hstill := hheld (n + 1) hnn
    rw [hnext, performAll_append] at hstill
    exact absurd (hgone.symm.trans hstill) (by simp)
  have h1 := hlt h h'
  have h2 := hlt h' h
  omega

lemma Consistent.exists_releasedAt (ht : Consistent t) (h : t.byConnection conn = some session)
    (hend : (t.performAll mid).byConnection conn ≠ some session) :
    ∃ n, ReleasedAt t mid conn session n := by
  induction mid generalizing t with
  | nil => exact absurd h hend
  | cons call mid ih =>
    rcases ht.keeps_or_releases call h with hkept | hreleases
    · obtain ⟨n, c, hc, hheld, hrel⟩ := ih ht.perform hkept hend
      refine ⟨n + 1, c, hc, fun m hm => ?_, hrel⟩
      cases m with
      | zero => exact h
      | succ m => exact hheld m (by omega)
    · refine ⟨0, call, rfl, fun m hm => ?_, hreleases⟩
      obtain rfl : m = 0 := by omega
      exact h

/-- **The session registry is consistent.**  After every history the tables are inverse to one
another, and only active connections are closing.  A binding succeeds only for a connection that is
active and that has been removed since its closing was last reserved.  Between two bindings that
succeed for the same user or the same connection, exactly one call releases the earlier session, and
it answers with its user. -/
theorem session_registry_consistent (calls : List (RegistryCall C)) :
    (∀ user conn, (after calls).byUser user = some conn ↔
      ∃ generation, (after calls).byConnection conn = some ⟨user, generation⟩) ∧
    (∀ conn, (after calls).closingConnections conn = true →
      (after calls).activeConnections conn = true) ∧
    (∀ conn user generation, ((after calls).perform (.bind conn user generation)).1 = .bound .ok →
      (after calls).activeConnections conn = true ∧
      ∀ before expected mid, calls = before ++ .reserveCloseIfBound conn expected :: mid →
        ((after before).perform (.reserveCloseIfBound conn expected)).1 = .reserved true →
        .removeConnection conn ∈ mid) ∧
    ∀ before mid conn user generation conn' user' generation',
      calls = before ++ .bind conn user generation :: mid →
      ((after before).perform (.bind conn user generation)).1 = .bound .ok →
      ((after calls).perform (.bind conn' user' generation')).1 = .bound .ok →
      user' = user ∨ conn' = conn →
      ∃! n, ReleasedAt ((after before).perform (.bind conn user generation)).2 mid conn
        ⟨user, generation⟩ n := by
  have hcalls := consistent_after calls
  refine ⟨fun user conn => ?_, hcalls.active, fun conn user generation hok => ?_, ?_⟩
  · rw [hcalls.agree]
    constructor
    · rintro ⟨session, hs, rfl⟩
      exact ⟨session.generation, hs⟩
    · rintro ⟨generation, hs⟩
      exact ⟨_, hs, rfl⟩
  · rcases bind_cases (after calls) conn user generation
      with ⟨hno, -⟩ | ⟨-, hactive, hclosing, -⟩
    · exact absurd (RegistryAnswer.bound.inj hok) hno
    refine ⟨hactive, fun before expected mid heq hreserved => ?_⟩
    by_contra hmid
    -- the reservation is still there
    have hstart : ((after before).perform (.reserveCloseIfBound conn expected)).2.closingConnections
        conn = true := by
      rcases reserveCloseIfBound_cases (after before) conn expected
        with ⟨hno, -⟩ | ⟨-, -, hnew⟩
      · rw [perform, hno] at hreserved
        cases hreserved
      · rw [perform, hnew]
        simp
    have hstill := closing_performAll hstart hmid
    have hafter : (after calls).closingConnections conn = true := by
      rw [heq, after_append]
      exact hstill
    rw [hclosing] at hafter
    cases hafter
  · intro before mid conn user generation conn' user' generation' heq hok hok' hsame
    have hbefore := consistent_after before
    -- the earlier session is there at first
    have hstart : ((after before).perform (.bind conn user generation)).2.byConnection conn =
        some ⟨user, generation⟩ := by
      rcases bind_cases (after before) conn user generation with ⟨hno, -⟩ | ⟨-, -, -, -, -, hnew⟩
      · exact absurd (RegistryAnswer.bound.inj hok) hno
      · rw [perform, hnew]
        simp
    -- and not at the later binding
    have hend : (((after before).perform (.bind conn user generation)).2.performAll
        mid).byConnection conn ≠ some ⟨user, generation⟩ := by
      have hmid : ((after before).perform (.bind conn user generation)).2.performAll mid =
          after calls := by
        rw [heq, after_append]
        rfl
      rw [hmid]
      intro hbound
      rcases bind_cases (after calls) conn' user' generation' with ⟨hno, -⟩ | ⟨-, -, -, hconn', huser', -⟩
      · exact absurd (RegistryAnswer.bound.inj hok') hno
      rcases hsame with rfl | rfl
      · have huser := (hcalls.agree user' conn).2 ⟨_, hbound, rfl⟩
        rw [huser'] at huser
        cases huser
      · rw [hconn'] at hbound
        cases hbound
    obtain ⟨n, hn⟩ := hbefore.perform.exists_releasedAt hstart hend
    exact ⟨n, hn, fun n' hn' => hn'.unique hn⟩

/-- Two logins of a user, one after the other. -/
def twoLogins : List (RegistryCall ℕ) :=
  [.addConnection 7, .addConnection 8, .bind 7 ⟨1⟩ 1, .unbindUser ⟨2⟩, .unbind 7, .unbind 7]

theorem session_registry_twoLogins :
    ((after twoLogins).perform (.bind 8 ⟨1⟩ 2)).1 = .bound .ok ∧
      ∃! n, ReleasedAt ((after [.addConnection 7, .addConnection 8]).perform (.bind 7 ⟨1⟩ 1)).2
        [.unbindUser ⟨2⟩, .unbind 7, .unbind (7 : ℕ)] 7 ⟨⟨1⟩, 1⟩ n :=
  ⟨by decide, (session_registry_consistent twoLogins).2.2.2 [.addConnection 7, .addConnection 8]
    [.unbindUser ⟨2⟩, .unbind 7, .unbind 7] 7 ⟨1⟩ 1 8 ⟨1⟩ 2 rfl (by decide) (by decide) (.inl rfl)⟩

end SessionTables

end MuduoChat
