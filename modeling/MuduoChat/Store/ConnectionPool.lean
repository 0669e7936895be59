import MuduoChat.Lib.Machine

/-!
# The pool of database connections

Idle connections wait in a queue.  `acquire` takes the front one under the lock, probes it without
the lock, and hands it out in a lease, or a new connection in its place if the probe fails.  The
lease puts it back when it is destroyed.  If neither the probe nor the new connection succeeds,
`acquire` fails, and nothing is put back.  So each connection of `init` is idle, or in the hands of
an `acquire` or of a lease, or has been lost in this way.
-/

namespace MuduoChat

/-- The pool, as far as its lock protects it.  Connections are numbered. -/
structure ConnectionPool where
  connections : List ℕ := []
  poolSize : ℕ := 0
  activeCount : ℕ := 0
  closed : Bool := false
  deriving DecidableEq

namespace ConnectionPool

/-- Fill the pool.  An attempt to connect gives a connection or fails. -/
def init (p : ConnectionPool) (poolSize : ℕ) (createConnection : ℕ → Option ℕ) : ConnectionPool :=
  if p.connections ≠ [] ∨ p.poolSize > 0 then p
  else
    { p with
      poolSize
      connections := p.connections ++ (List.range poolSize).filterMap createConnection }

/-- `acquire` while it has the lock. -/
def takeFront (p : ConnectionPool) : Option (ℕ × ConnectionPool) :=
  match p.connections with
  | [] => none
  | conn :: rest =>
    some (conn, { p with connections := rest, activeCount := p.activeCount + 1 })

/-- `acquire` without success, when it has the lock again. -/
def giveUp (p : ConnectionPool) : ConnectionPool := { p with activeCount := p.activeCount - 1 }

def releaseConnection (p : ConnectionPool) (conn : ℕ) : ConnectionPool :=
  let p := p.giveUp
  if p.closed then p else { p with connections := p.connections ++ [conn] }

/-- The pool with its users: the connections that calls of `acquire` are probing, and those in a
lease. -/
structure Use where
  pool : ConnectionPool
  probing : List ℕ := []
  leased : List ℕ := []
  deriving DecidableEq

/-- What happens between two unlockings: a call of `acquire` takes a connection, or gives up waiting
for one; it has pinged its connection and, if the ping failed, tried to make a new one; or a lease
is destroyed. -/
inductive Event where
  | take
  | timeout
  | probed (conn : ℕ) (ping : Bool) (createConnection : Option ℕ)
  | released (conn : ℕ)
  deriving DecidableEq

/-- The connection that is handed out after the probe. -/
def replacement (conn : ℕ) (ping : Bool) (createConnection : Option ℕ) : Option ℕ :=
  if ping then some conn else createConnection

def next (s : Use) : Event → Option Use
  | .take =>
    if s.pool.closed then none
    else s.pool.takeFront.map fun (conn, pool) => { s with pool, probing := conn :: s.probing }
  | .timeout => if s.pool.connections = [] then some s else none
  | .probed conn ping createConnection =>
    if conn ∈ s.probing then
      match replacement conn ping createConnection with
      | some conn' =>
        some { s with probing := s.probing.erase conn, leased := conn' :: s.leased }
      | none => some { s with pool := s.pool.giveUp, probing := s.probing.erase conn }
    else none
  | .released conn =>
    if conn ∈ s.leased then
      some { s with pool := s.pool.releaseConnection conn, leased := s.leased.erase conn }
    else none

def machine : Machine Use Event := ⟨next⟩

/-- An `acquire` that can neither use its connection nor replace it. -/
def Event.loses : Event → Bool
  | .probed conn ping createConnection => (replacement conn ping createConnection).isNone
  | _ => false

/-- The connections that are idle, probed or leased. -/
def Use.count (s : Use) : ℕ := s.pool.connections.length + (s.probing.length + s.leased.length)

section Conservation

variable {s t : Use} {e : Event} {events : List Event}

/-- **The step lemma.**  An event loses one connection or none. -/
lemma next_count (hopen : s.pool.closed = false) (h : next s e = some t) :
    t.pool.closed = false ∧ t.count + e.loses.toNat = s.count := by
  cases e with
  | take =>
    rw [next, hopen, if_neg (by decide), takeFront] at h
    split at h
    · cases h
    · rename_i conn rest hconns
      cases h
      refine ⟨hopen, ?_⟩
      simp only [Use.count, hconns, Event.loses, Bool.toNat_false, List.length_cons]
      omega
  | timeout =>
    rw [next] at h
    split_ifs at h
    cases h
    exact ⟨hopen, rfl⟩
  | probed conn ping createConnection =>
    rw [next] at h
    split_ifs at h with hmem
    have hlength := List.length_erase_add_one hmem
    split at h <;> rename_i hconn <;> obtain rfl := Option.some.inj h <;> refine ⟨hopen, ?_⟩
    · simp only [Use.count, Event.loses, hconn, Option.isNone_some, Bool.toNat_false,
        List.length_cons]
      omega
    · simp only [Use.count, giveUp, Event.loses, hconn, Option.isNone_none, Bool.toNat_true]
      omega
  | released conn =>
    rw [next] at h
    split_ifs at h with hmem
    have hlength := List.length_erase_add_one hmem
    cases h
    have hpool : s.pool.releaseConnection conn =
        { s.pool.giveUp with connections := s.pool.connections ++ [conn] } :=
      if_neg (by simp [giveUp, hopen])
    refine ⟨by rw [hpool]; exact hopen, ?_⟩
    simp only [Use.count, hpool, Event.loses, Bool.toNat_false, List.length_append,
      List.length_singleton]
    omega

/-- **The run lemma.**  A run loses a connection for each of its events that loses one. -/
lemma run_count (hopen : s.pool.closed = false) (h : machine.run s events = some t) :
    t.pool.closed = false ∧ t.count + events.countP Event.loses = s.count := by
  induction events generalizing s with
  | nil =>
    cases h
    exact ⟨hopen, rfl⟩
  | cons e events ih =>
    obtain ⟨u, hu, hrest⟩ := Option.bind_eq_some_iff.1 h
    obtain ⟨hopen', hcount⟩ := next_count hopen hu
    obtain ⟨hclosed, hsum⟩ := ih hopen' hrest
    refine ⟨hclosed, ?_⟩
    have hone : (if e.loses = true then 1 else 0) = e.loses.toNat := by cases e.loses <;> rfl
    rw [List.countP_cons, hone]
    omega

lemma exists_acquire (hopen : s.pool.closed = false) :
    ∃ events t, machine.run s events = some t ∧ (∀ e ∈ events, e.loses = false) ∧
      t.leased.length = s.pool.connections.length + s.leased.length := by
  induction hn : s.pool.connections generalizing s with
  | nil => exact ⟨[], s, rfl, by simp, by simp⟩
  | cons conn rest ih =>
    obtain ⟨events, t, hrun, hsafe, hlength⟩ := ih
      (s := ⟨⟨rest, s.pool.poolSize, s.pool.activeCount + 1, false⟩, s.probing,
        conn :: s.leased⟩) rfl rfl
    refine ⟨.take :: .probed conn true none :: events, t, ?_, ?_, ?_⟩
    · simpa [Machine.run, machine, next, hopen, takeFront, hn, replacement] using hrun
    · simpa [Event.loses, replacement] using hsafe
    · rw [hlength, List.length_cons, List.length_cons]
      omega

end Conservation

/-- **The pool keeps the capacity that it has not lost.**  After any run from a filled pool, the
idle connections, those in the hands of an `acquire` or a lease, and one for each `acquire` that
failed both to ping its connection and to replace it are together as many as `init` has made; and if
all have been put back, then all that are not lost can be acquired again.  So the full capacity is
kept if and only if no connection is lost. -/
theorem capacity_kept_iff (poolSize : ℕ) (createConnection : ℕ → Option ℕ) (events : List Event)
    (s : Use) (h : machine.run ⟨init {} poolSize createConnection, [], []⟩ events = some s) :
    let created := (init {} poolSize createConnection).connections.length
    let lost := events.countP Event.loses
    s.count + lost = created ∧ (s.count = created ↔ ∀ e ∈ events, e.loses = false) ∧
      (s.probing = [] → s.leased = [] →
        (∃ more t, machine.run s more = some t ∧ t.leased.length + lost = created) ∧
          ((∃ more t, machine.run s more = some t ∧ t.leased.length = created) ↔
            ∀ e ∈ events, e.loses = false)) := by
  intro created lost
  obtain ⟨hopen, hcount⟩ := run_count (by simp [init]) h
  have hcreated : s.count + lost = created := hcount
  have hnone : lost = 0 ↔ ∀ e ∈ events, e.loses = false := by
    simp [lost, List.countP_eq_zero]
  refine ⟨hcreated, by rw [← hnone]; omega, fun hprobing hleased => ?_⟩
  rw [← hnone]
  obtain ⟨more, t, hrun, -, hlength⟩ := exists_acquire hopen
  have hall : t.leased.length + lost = created := by
    simpa [Use.count, hprobing, hleased, hlength] using hcreated
  refine ⟨⟨more, t, hrun, hall⟩, ?_, fun hzero => ⟨more, t, hrun, by omega⟩⟩
  rintro ⟨more, t, hrun, hfull⟩
  obtain ⟨-, hmore⟩ := run_count hopen hrun
  unfold Use.count at hmore hcreated
  omega

/-- A pool of three connections.  One is lost and one is replaced, both while the third is leased;
the two that are left can be acquired again. -/
theorem capacity_kept_replaced :
    machine.run ⟨init {} 3 some, [], []⟩ [.take, .probed 0 true none, .take, .take,
        .probed 1 false none, .probed 2 false (some 5), .released 0, .released 5] =
        some ⟨⟨[0, 5], 3, 0, false⟩, [], []⟩ ∧
      ∃ more t, machine.run ⟨⟨[0, 5], 3, 0, false⟩, [], []⟩ more = some t ∧
        t.leased.length + 1 = 3 :=
  ⟨by decide, ((capacity_kept_iff 3 some [.take, .probed 0 true none, .take, .take,
    .probed 1 false none, .probed 2 false (some 5), .released 0, .released 5] _
    (by decide)).2.2 rfl rfl).1⟩

/-- A pool of one connection, which is taken while the database cannot be reached, is empty for
ever. -/
theorem capacity_lost :
    machine.run ⟨init {} 1 some, [], []⟩ [.take, .probed 0 false none] =
        some ⟨⟨[], 1, 0, false⟩, [], []⟩ ∧
      next ⟨⟨[], 1, 0, false⟩, [], []⟩ .take = none := by
  decide

end ConnectionPool

end MuduoChat
