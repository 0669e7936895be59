import MuduoChat.Presence.Adapters
import MuduoChat.Presence.Ghost

/-!
# One connection to the server

All threads of a gateway talk to the server over one connection.  A command is two steps: its
request is sent, and a reply is read.  The server answers the requests in their order, and whoever
reads next gets the oldest reply that has not been read.  The commands of the critical sections
exclude one another by the mutex.  The commands of a renewal are sent outside of it, so a thread can
read the reply to the command of another one.

What does hold: if two commands never overlap unless both are sent inside of critical sections, then
every command gets its own reply.
-/

namespace MuduoChat

open Std Prog Relation

/-! ### Requests and replies -/

/-- The commands that the adapter sends.  The first three are the scripts. -/
inductive RedisCommand where
  | claim (entryKey counterKey argNow argTtl argGateway argConn : String)
  | renew (entryKey argNow argEpoch argTtl : String)
  | release (entryKey argNow argEpoch : String)
  | get (key : String)

namespace RedisPresenceDirectory

def request (ttlMs now : ℤ) : PresenceCall → RedisCommand
  | .claim user gateway conn =>
    .claim (keyFor user) epochKey (toString now) (toString ttlMs)
      (toString gateway.value.toNat) (toString conn.value.toNat)
  | .renew user _ _ epoch =>
    .renew (keyFor user) (toString now) (toString epoch.value) (toString ttlMs)
  | .release user _ _ epoch => .release (keyFor user) (toString now) (toString epoch.value)
  | .locate user => .get (keyFor user)

/-- What the adapter makes of a reply. -/
def readReply (R : RedisEngine) (now : ℤ) : (call : PresenceCall) → RedisReply → call.Result
  | .claim _ _ _, .integer n => { ok := true, epoch := ⟨(n % 2 ^ 64).toNat⟩ }
  | .claim _ _ _, _ => { error := .dependencyUnavailable }
  | .renew _ _ _ _, .array (status :: rest) =>
    if status = 1 then { ok := true, expiresAtMs := rest.head?.getD 0 }
    else { error := statusError status }
  | .renew _ _ _ _, _ => { error := .dependencyUnavailable }
  | .release _ _ _ _, .array (status :: _) =>
    if status = 1 then { ok := true } else { error := statusError status }
  | .release _ _ _ _, _ => { error := .dependencyUnavailable }
  | .locate _, .nil => { error := .notFound }
  | .locate user, .bulk text =>
    match R.parse text with
    | none => { error := .dependencyUnavailable }
    | some v =>
      if toI64 v.x ≤ now then { expired := true, error := .notFound }
      else
        { ok := true
          route := ⟨user, ⟨toU64 v.g⟩, ⟨toU64 v.c⟩, ⟨(toU64 v.e).toNat⟩⟩ }
  | .locate _, _ => { error := .dependencyUnavailable }

end RedisPresenceDirectory

/-! ### The steps of the threads -/

/-- The steps of a thread.  The flag of a command tells whether it is sent inside of a critical
section, and a reply is asked for by the number of the request. -/
inductive LinkCall where
  | lock
  | enter (x : Section)
  | unlock (s : GatewayAwareDeliverySink)
  | send (inside : Bool) (command : RedisCommand)
  | receive (inside : Bool) (number : ℕ)
  | nowMs
  | transport (route : DeliveryRoute) (attempt : DeliveryAttempt)

/-- What the steps give. -/
abbrev LinkCall.Value : LinkCall → Type
  | .lock => Unit
  | .enter x => Plan x.Value
  | .unlock _ => Unit
  | .send _ _ => ℕ
  | .receive _ _ => RedisReply
  | .nowMs => ℤ
  | .transport _ _ => GatewayDeliverResult

abbrev LinkPort : Sig := ⟨LinkCall, LinkCall.Value, Empty⟩

abbrev LinkCode := Prog LinkPort

/-- What a gateway needs for its connection: how replies are read, and the length of a lease. -/
structure LinkConfig where
  gateway : GatewayConfig
  engine : RedisEngine
  ttlMs : ℤ

namespace LinkConfig

variable (K : LinkConfig)

/-- A command: its request is sent, and a reply is read. -/
def command (inside : Bool) (c : RedisCommand) : LinkCode RedisReply := do
  let number ← Prog.ask (E := LinkPort) (.send inside c)
  Prog.ask (E := LinkPort) (.receive inside number)

/-- A call to the directory.  The time is that of the request, except in a lookup, which looks at
the clock when it has the reply. -/
def perform (inside : Bool) : (call : PresenceCall) → LinkCode call.Result
  | .locate user => do
      let reply ← command inside (RedisPresenceDirectory.request K.ttlMs 0 (.locate user))
      let now ← Prog.ask (E := LinkPort) .nowMs
      pure (RedisPresenceDirectory.readReply K.engine now (.locate user) reply)
  | c => do
      let now ← Prog.ask (E := LinkPort) .nowMs
      let reply ← command inside (RedisPresenceDirectory.request K.ttlMs now c)
      pure (RedisPresenceDirectory.readReply K.engine now c reply)

/-- The end of a critical section. -/
def finish {α : Type} : Plan α → LinkCode α
  | .done a s => do
      Prog.ask (E := LinkPort) (.unlock s)
      pure a
  | .ask c k => do
      let r ← K.perform true c
      Prog.ask (E := LinkPort) (.unlock (k r).2)
      pure (k r).1

def critical (x : Section) : LinkCode x.Value := do
  Prog.ask (E := LinkPort) .lock
  let plan ← Prog.ask (E := LinkPort) (.enter x)
  K.finish plan

def steps : (c : SinkCall) → LinkCode (Except Empty c.Value)
  | .critical x => do
      let a ← K.critical x
      pure (.ok a)
  | .presence c => do
      let r ← K.perform false c
      pure (.ok r)
  | .nowMs => do
      let now ← Prog.ask (E := LinkPort) .nowMs
      pure (.ok now)
  | .transport route attempt => do
      let r ← Prog.ask (E := LinkPort) (.transport route attempt)
      pure (.ok r)

end LinkConfig

/-- The sink, the thread that holds the mutex, the number of requests that have been sent, and the
replies that have not been read, each with the number of its request. -/
structure RedisLink (κ : Type) where
  sink : GatewayAwareDeliverySink := {}
  holder : Option κ := none
  sent : ℕ := 0
  replies : List (ℕ × RedisReply) := []

/-- What the surroundings choose.  The field `reply` is what the server answers to a request. -/
structure LinkEnv where
  now : ℤ := 0
  answer : DeliverDisposition := .accepted
  transport : GatewayDeliverResult := {}
  reply : RedisReply := .nil

namespace RedisLink

variable {κ : Type}

/-- How the steps are answered.  A reader takes the oldest reply, whichever request it belongs
to. -/
def answer (K : LinkConfig) (j : κ) : Handler LinkPort (RedisLink κ) LinkEnv
  | .lock, _, w => if w.holder.isNone then some (.ok (), { w with holder := some j }) else none
  | .enter x, ω, w => some (.ok (x.plan K.gateway ω.answer w.sink), w)
  | .unlock s, _, w => some (.ok (), { w with sink := s, holder := none })
  | .send _ _, ω, w =>
    some (.ok w.sent,
      { w with sent := w.sent + 1, replies := w.replies ++ [(w.sent, ω.reply)] })
  | .receive _ _, _, w =>
    match w.replies with
    | [] => none
    | (_, reply) :: rest => some (.ok reply, { w with replies := rest })
  | .nowMs, ω, w => some (.ok ω.now, w)
  | .transport _ _, ω, w => some (.ok ω.transport, w)

/-- The threads of one gateway. -/
def system (K : LinkConfig) :
    Parallel LinkPort κ (RedisLink κ) LinkEnv SinkOp (Except Empty Unit) where
  handle := answer K
  code _ op := (K.gateway.code op).translate K.steps

/-- The configurations of the threads. -/
abbrev State (κ : Type) := Parallel.Config LinkPort κ (RedisLink κ) SinkOp (Except Empty Unit)

/-! ### The order of the steps -/

/-- Where a thread stands: outside of the critical sections, inside of one, or waiting for the reply
to a command. -/
inductive Phase where
  | outside
  | inside
  | waiting (inside : Bool) (number : ℕ)

/-- Where a command is sent from, and where the thread is again when it has read its reply. -/
def Phase.base (inside : Bool) : Phase := if inside then .inside else .outside

/-- The order in which a thread takes its steps. -/
def monitor : Monitor LinkPort Phase where
  permits
    | q, .lock => q = .outside
    | q, .enter _ => q = .inside
    | q, .unlock _ => q = .inside
    | q, .send g _ => q = .base g
    | q, .receive g n => q = .waiting g n
    | q, .nowMs => q = .outside ∨ q = .inside
    | q, .transport _ _ => q = .outside
  after
    | _, .lock, _ => .inside
    | _, .unlock _, _ => .outside
    | _, .send g _, .ok n => .waiting g n
    | _, .receive g _, _ => .base g
    | q, _, _ => q

lemma Phase.base_cases (g : Bool) : Phase.base g = .outside ∨ Phase.base g = .inside := by
  cases g
  · exact .inl rfl
  · exact .inr rfl

section Follows

variable {K : LinkConfig} {g : Bool}

lemma command_follows (c : RedisCommand) :
    (LinkConfig.command g c).Follows monitor (· = .base g) (.base g) := by
  refine Follows.ask_bind ?_ (fun n => ?_) fun e => e.elim
  · rfl
  · exact Follows.ask rfl fun _ => rfl

lemma nowMs_follows :
    (Prog.ask (E := LinkPort) .nowMs).Follows monitor (· = .base g) (.base g) := by
  refine Follows.ask ?_ fun _ => ?_
  · cases g
    · exact .inl rfl
    · exact .inr rfl
  · cases g <;> rfl

lemma perform_follows (call : PresenceCall) :
    (K.perform g call).Follows monitor (· = .base g) (.base g) := by
  have timed {α : Type} {f : ℤ → RedisCommand} {r : ℤ → RedisReply → α} :
      (do let now ← Prog.ask (E := LinkPort) .nowMs
          let reply ← LinkConfig.command g (f now)
          pure (r now reply) : LinkCode α).Follows monitor (· = .base g) (.base g) := by
    refine nowMs_follows.bind (fun _ _ h => h) fun now q hq => ?_
    subst hq
    exact (command_follows _).bind (fun _ _ h => h) fun _ _ h => h
  cases call with
  | locate user =>
    refine (command_follows _).bind (fun _ _ h => h) fun reply q hq => ?_
    subst hq
    exact nowMs_follows.bind (fun _ _ h => h) fun _ _ h => h
  | _ => exact timed

lemma finish_follows {α : Type} (plan : Plan α) :
    (K.finish plan).Follows monitor (· = .outside) .inside := by
  cases plan with
  | done a s => exact Follows.ask_bind rfl (fun _ => rfl) fun _ => rfl
  | ask call k =>
    have hperform : (K.perform true call).Follows monitor (· = .inside) .inside :=
      perform_follows (g := true) call
    refine hperform.bind (fun e => e.elim) ?_
    rintro r q rfl
    exact Follows.ask_bind rfl (fun _ => rfl) fun _ => rfl

lemma critical_follows (x : Section) :
    (K.critical x).Follows monitor (· = .outside) .outside := by
  refine Follows.ask_bind rfl (fun _ => ?_) fun e => e.elim
  exact Follows.ask_bind rfl finish_follows fun e => e.elim

lemma steps_follows (c : SinkCall) : (K.steps c).Follows monitor (· = .outside) .outside := by
  cases c with
  | critical x => exact (critical_follows x).bind (fun e => e.elim) fun _ _ h => h
  | presence call =>
    have hperform : (K.perform false call).Follows monitor (· = .outside) .outside :=
      perform_follows (g := false) call
    exact hperform.bind (fun e => e.elim) fun _ _ h => h
  | nowMs => exact Follows.ask_bind (.inl rfl) (fun _ => rfl) fun e => e.elim
  | transport route attempt => exact Follows.ask_bind rfl (fun _ => rfl) fun e => e.elim

lemma code_follows (j : κ) (op : SinkOp) :
    ((system K).code j op).Follows monitor (· = .outside) .outside := by
  have hcode : (K.gateway.code op).Follows (Gateways.claimMonitor ⟨0⟩ ⟨0⟩ ⟨0⟩) (fun _ => True)
      false := Gateways.code_follows op
  exact hcode.translate steps_follows

end Follows

/-! ### Commands and their replies -/

variable {K : LinkConfig} {a b : State κ} {q : κ → Phase} {w w' : RedisLink κ} {j : κ} {ω : LinkEnv}

/-- What relates the shared state to where the threads stand: a thread inside of a critical section
holds the mutex, at most one thread waits for a reply, and if one does, the only reply that has not
been read is the one it waits for. -/
structure Paired (w : RedisLink κ) (q : κ → Phase) : Prop where
  inside : ∀ j, (q j = .inside ∨ ∃ n, q j = .waiting true n) → w.holder = some j
  reply : ∀ j g n, q j = .waiting g n → ∃ r, w.replies = [(n, r)]
  one : ∀ j j' g g' n n', q j = .waiting g n → q j' = .waiting g' n' → j = j'
  quiet : w.replies ≠ [] → ∃ j g n, q j = .waiting g n

/-- Two commands overlap only if both are sent inside of critical sections. -/
def SendsAlone (a : State κ) (l : Parallel.Choice κ LinkEnv SinkOp) : Prop :=
  ∀ j ω op g c k, l = .advance j ω → a.running j = some ⟨op, .call (.send g c) k⟩ →
    ∀ j' op' g' n k', a.running j' = some ⟨op', .call (.receive g' n) k'⟩ →
      g = true ∧ g' = true

lemma next_of_waiting (ha : Parallel.Watched monitor .outside a q) {g : Bool} {n : ℕ}
    (hj : q j = .waiting g n) :
    ∃ op k, a.running j = some ⟨op, .call (.receive g n) k⟩ := by
  cases hr : a.running j with
  | none =>
    have hout := ha.idle j hr
    rw [hj] at hout
    cases hout
  | some t =>
    obtain ⟨op, p⟩ := t
    have hp := ha.rest j _ hr
    rw [hj] at hp
    cases p with
    | ret v => cases hp
    | fail e => exact e.elim
    | hang => exact hp.elim
    | call c k =>
      obtain ⟨hpermits, -⟩ := hp
      cases c with
      | receive g' n' =>
        cases hpermits
        exact ⟨op, k, rfl⟩
      | send g' c =>
        have hbase : Phase.waiting g n = .base g' := hpermits
        rcases Phase.base_cases g' with h | h <;> rw [h] at hbase <;> cases hbase
      | nowMs => rcases hpermits with h | h <;> cases h
      | _ => cases hpermits

variable [DecidableEq κ]

/-- A step in which commands do not overlap. -/
def AloneStep (K : LinkConfig) (a b : State κ) : Prop :=
  ∃ l, (system K).next a l = some b ∧ SendsAlone a l

omit [DecidableEq κ] in
lemma not_waiting_of_send (ha : Parallel.Watched monitor .outside a q) (hpaired : Paired a.world q)
    {op : SinkOp} {g : Bool} {c : RedisCommand} {k : Except Empty ℕ → LinkCode (Except Empty Unit)}
    (hr : a.running j = some ⟨op, .call (.send g c) k⟩) (hq : q j = .base g)
    (halone : SendsAlone a (.advance j ω)) {j' : κ} {g' : Bool} {n : ℕ} :
    q j' ≠ .waiting g' n := by
  intro hwait
  obtain ⟨op', k', hr'⟩ := next_of_waiting ha hwait
  obtain ⟨rfl, rfl⟩ := halone j ω op g c k rfl hr j' op' g' n k' hr'
  -- both commands are sent inside of critical sections, so both threads hold the mutex
  have hj := hpaired.inside j (.inl hq)
  have hj' := hpaired.inside j' (.inr ⟨n, hwait⟩)
  obtain rfl := Option.some.inj (hj.symm.trans hj')
  rw [hwait] at hq
  cases hq

/-- A thread that does not wait for a reply, before and after its step, and leaves the replies
alone. -/
lemma Paired.move {p : Phase} (h : Paired w q) (hreplies : w'.replies = w.replies)
    (hq : ∀ g n, q j ≠ .waiting g n) (hp : ∀ g n, p ≠ .waiting g n)
    (hinside : p = .inside → w'.holder = some j)
    (hother : ∀ j', j' ≠ j → w.holder = some j' → w'.holder = some j') :
    Paired w' (Function.update q j p) := by
  -- the threads that wait are the same as before
  have waiting {j' : κ} {g : Bool} {n : ℕ} (hw : Function.update q j p j' = .waiting g n) :
      q j' = .waiting g n := by
    by_cases hj : j' = j
    · subst hj
      rw [Function.update_self] at hw
      exact absurd hw (hp g n)
    · rwa [Function.update_of_ne hj] at hw
  constructor
  · intro j' hj'
    by_cases hj : j' = j
    · subst hj
      rw [Function.update_self] at hj'
      rcases hj' with hin | ⟨n, hn⟩
      · exact hinside hin
      · exact absurd hn (hp true n)
    · rw [Function.update_of_ne hj] at hj'
      exact hother j' hj (h.inside j' hj')
  · intro j' g n hw
    rw [hreplies]
    exact h.reply j' g n (waiting hw)
  · intro j1 j2 g1 g2 n1 n2 h1 h2
    exact h.one j1 j2 g1 g2 n1 n2 (waiting h1) (waiting h2)
  · intro hne
    rw [hreplies] at hne
    obtain ⟨j', g, n, hj'⟩ := h.quiet hne
    have hj : j' ≠ j := by
      rintro rfl
      exact hq g n hj'
    exact ⟨j', g, n, by rwa [Function.update_of_ne hj]⟩

lemma Paired.send {g : Bool} {n : ℕ} {r : RedisReply} (h : Paired w q) (hq : q j = .base g)
    (hnone : ∀ j' g' n', q j' ≠ .waiting g' n') (hreplies : w'.replies = w.replies ++ [(n, r)])
    (hholder : w'.holder = w.holder) : Paired w' (Function.update q j (.waiting g n)) := by
  have hempty : w.replies = [] := by
    by_contra hne
    obtain ⟨j', g', n', hj'⟩ := h.quiet hne
    exact hnone j' g' n' hj'
  have waiting {j' : κ} {g' : Bool} {n' : ℕ}
      (hw : Function.update q j (.waiting g n) j' = .waiting g' n') : j' = j ∧ n' = n := by
    by_cases hj : j' = j
    · subst hj
      rw [Function.update_self] at hw
      cases hw
      exact ⟨rfl, rfl⟩
    · rw [Function.update_of_ne hj] at hw
      exact absurd hw (hnone j' g' n')
  constructor
  · intro j' hj'
    rw [hholder]
    by_cases hj : j' = j
    · subst hj
      rw [Function.update_self] at hj'
      rcases hj' with hin | ⟨m, hm⟩
      · cases hin
      · -- a command inside of a critical section is sent by the holder of the mutex
        cases hm
        exact h.inside j' (.inl hq)
    · rw [Function.update_of_ne hj] at hj'
      exact h.inside j' hj'
  · intro j' g' n' hw
    obtain ⟨-, rfl⟩ := waiting hw
    exact ⟨r, by rw [hreplies, hempty, List.nil_append]⟩
  · intro j1 j2 g1 g2 n1 n2 h1 h2
    exact (waiting h1).1.trans (waiting h2).1.symm
  · exact fun _ => ⟨j, g, n, Function.update_self ..⟩

lemma Paired.receive {g : Bool} {n : ℕ} (h : Paired w q) (hq : q j = .waiting g n)
    (hreplies : w'.replies = []) (hholder : w'.holder = w.holder) :
    Paired w' (Function.update q j (.base g)) := by
  have hnone {j' : κ} {g' : Bool} {n' : ℕ} :
      Function.update q j (.base g) j' ≠ .waiting g' n' := by
    intro hw
    by_cases hj : j' = j
    · subst hj
      rw [Function.update_self] at hw
      rcases Phase.base_cases g with hb | hb <;> rw [hb] at hw <;> cases hw
    · rw [Function.update_of_ne hj] at hw
      exact hj (h.one j' j g' g n' n hw hq)
  constructor
  · intro j' hj'
    rw [hholder]
    rcases hj' with hin | ⟨m, hm⟩
    · by_cases hj : j' = j
      · subst hj
        rw [Function.update_self] at hin
        cases g with
        | true => exact h.inside j' (.inr ⟨n, hq⟩)
        | false => cases hin
      · rw [Function.update_of_ne hj] at hin
        exact h.inside j' (.inl hin)
    · exact absurd hm hnone
  · exact fun j' g' n' hw => absurd hw hnone
  · exact fun j1 _ _ _ _ _ h1 => absurd h1 hnone
  · exact fun hne => absurd hreplies hne

/-- **The step lemma.**  If commands do not overlap, a step keeps commands and replies paired. -/
lemma Paired.step (ha : Parallel.Watched monitor .outside a q) (hpaired : Paired a.world q)
    (h : AloneStep K a b) :
    ∃ q', Parallel.Watched monitor .outside b q' ∧ Paired b.world q' := by
  obtain ⟨l, hl, halone⟩ := h
  rcases ha.next code_follows hl with ⟨hworld, hb⟩ |
    ⟨j, ω, op, c, k, r, rfl, hr, hpermits, hw, hb⟩
  · exact ⟨q, hb, hworld ▸ hpaired⟩
  refine ⟨_, hb, ?_⟩
  -- a thread that stays where it is, outside or inside
  have stays {p : Phase} (hq : q j = p) (hp : ∀ g n, p ≠ .waiting g n) :
      Paired a.world (Function.update q j p) := by
    refine hpaired.move rfl (hq ▸ hp) hp (fun hin => ?_) fun _ _ h => h
    exact hpaired.inside j (.inl (hq.trans hin))
  generalize b.world = w at hw
  cases c with
  | lock =>
    simp only [system, answer, Option.ite_none_right_eq_some, Option.isNone_iff_eq_none] at hw
    obtain ⟨hfree, hw⟩ := hw
    cases hw
    have hq : q j = .outside := hpermits
    refine hpaired.move rfl (by simp [hq]) (fun g n h => by cases h) (fun _ => rfl) ?_
    intro j' _ hj'
    rw [hfree] at hj'
    cases hj'
  | enter x | transport route attempt =>
    cases hw
    exact stays rfl (hpermits ▸ fun g n h => by cases h)
  | unlock s =>
    cases hw
    have hq : q j = .inside := hpermits
    refine hpaired.move rfl (by simp [hq]) (fun g n h => by cases h) (fun h => by cases h) ?_
    intro j' hj hj'
    have hholder := hpaired.inside j (.inl hq)
    exact absurd (Option.some.inj (hj'.symm.trans hholder)) hj
  | send g c =>
    cases hw
    exact hpaired.send hpermits (fun j' g' n' => not_waiting_of_send ha hpaired hr hpermits halone)
      rfl rfl
  | receive g n =>
    obtain ⟨reply, hreplies⟩ := hpaired.reply j g n hpermits
    simp only [system, answer, hreplies] at hw
    cases hw
    exact hpaired.receive hpermits rfl rfl
  | nowMs =>
    cases hw
    rcases hpermits with hq | hq <;> exact stays rfl (hq ▸ fun g n h => by cases h)

/-- **The run lemma.** -/
lemma Paired.run (hrun : ReflTransGen (AloneStep K) (.initial {}) a) :
    ∃ q, Parallel.Watched monitor .outside a q ∧ Paired a.world q := by
  induction hrun with
  | refl =>
    refine ⟨fun _ => .outside, ⟨fun j t h => (by cases h), fun _ _ => rfl⟩, ?_, ?_, ?_, ?_⟩
    · rintro j (h | ⟨n, h⟩) <;> cases h
    · exact fun j g n h => by cases h
    · exact fun j j' g g' n n' h => by cases h
    · exact fun h => absurd rfl h
  | tail _ hstep ih =>
    obtain ⟨q, ha, hpaired⟩ := ih
    exact hpaired.step ha hstep

end RedisLink

open RedisLink

/-- **Replies belong to their commands.**  In every run in which two commands overlap only if both
are sent inside of critical sections, a thread that reads the reply to its command gets the one
that the server has given to this command. -/
theorem replies_belong_to_commands {κ : Type} [DecidableEq κ] {K : LinkConfig} {a : State κ}
    (hrun : ReflTransGen (AloneStep K) (.initial {}) a) {j : κ} {op : SinkOp} {g : Bool}
    {n : ℕ} {k : Except Empty RedisReply → LinkCode (Except Empty Unit)}
    (hnext : a.running j = some ⟨op, .call (.receive g n) k⟩) :
    ∃ reply, (n, reply) ∈ a.world.replies ∧ ∀ ω, (system K).handle j (.receive g n) ω a.world =
      some (.ok reply, { a.world with replies := [] }) := by
  obtain ⟨q, ha, hpaired⟩ := Paired.run hrun
  have hwait : q j = .waiting g n := (ha.rest j _ hnext).1
  obtain ⟨reply, hreplies⟩ := hpaired.reply j g n hwait
  refine ⟨reply, by simp [hreplies], fun ω => ?_⟩
  simp [system, answer, hreplies]

/-! ### Concrete runs -/

def plainGateway : LinkConfig := ⟨⟨⟨1⟩, false⟩, plainEngine, 1000⟩

/-- A user logs in, and the entry is renewed by the other thread.  Then a second user logs in up to
the point where the reply to the claim is to be read, and a third one waits for the mutex. -/
def claimingActs : List (Parallel.Act Bool LinkEnv SinkOp) :=
  [⟨false, some (.bindUser ⟨1⟩ ⟨10⟩), { reply := .integer 1 }, 100⟩,
    ⟨true, some (.renew ⟨1⟩), { reply := .array [1, 1000] }, 100⟩,
    ⟨false, some (.bindUser ⟨2⟩ ⟨20⟩), { reply := .integer 2 }, 4⟩,
    ⟨true, some (.bindUser ⟨3⟩ ⟨30⟩), { reply := .integer 3 }, 100⟩]

def claiming : State Bool := (system plainGateway).play (.initial {}) claimingActs

/-- A user is logged in.  The entry is being renewed, and then a second user logs in up to the point
where the reply to the claim is to be read. -/
def renewingAndClaiming : State Bool :=
  (system plainGateway).play (.initial {})
    [⟨false, some (.bindUser ⟨1⟩ ⟨10⟩), { reply := .integer 1 }, 100⟩,
      ⟨true, some (.renew ⟨1⟩), { reply := .array [1, 1000] }, 5⟩,
      ⟨false, some (.bindUser ⟨2⟩ ⟨20⟩), { reply := .integer 2 }, 4⟩]

/-- The test for `SendsAlone`. -/
def sendsAlone (a : State Bool) : Parallel.Choice Bool LinkEnv SinkOp → Bool
  | .invoke _ _ => true
  | .advance j _ =>
    match a.running j with
    | some ⟨_, .call (.send g _) _⟩ => [false, true].all fun j' =>
      match a.running j' with
      | some ⟨_, .call (.receive g' _) _⟩ => g && g'
      | _ => true
    | _ => true

lemma sendsAlone_spec {a : State Bool} {l : Parallel.Choice Bool LinkEnv SinkOp}
    (h : sendsAlone a l = true) : SendsAlone a l := by
  rintro j ω op g c k rfl hr j' op' g' n k' hr'
  simp only [sendsAlone, hr, List.all_eq_true] at h
  simpa [hr'] using h j' (by cases j' <;> simp)

theorem claiming_reads_its_reply :
    (claiming.running true).isSome ∧ ∃ reply, (2, reply) ∈ claiming.world.replies ∧
      ∀ ω, (system plainGateway).handle false (.receive true 2) ω claiming.world =
        some (.ok reply, { claiming.world with replies := [] }) := by
  have halone : ∀ x ∈ (system plainGateway).taken (.initial {}) claimingActs,
      sendsAlone x.1 x.2 = true := by decide +kernel
  have hrun : ReflTransGen (AloneStep plainGateway) (.initial {}) claiming :=
    Parallel.reaches_play_of fun x hx b h => ⟨x.2, h, sendsAlone_spec (halone x hx)⟩
  exact ⟨by decide +kernel, replies_belong_to_commands hrun rfl⟩

/-- The thread that claims is about to read the reply to the renewal. -/
theorem reply_of_another_command :
    ReflTransGen (system plainGateway).Step (.initial {}) renewingAndClaiming ∧
      (∃ op k, renewingAndClaiming.running false = some ⟨op, .call (.receive true 2) k⟩) ∧
      renewingAndClaiming.world.replies = [(1, .array [1, 1000]), (2, .integer 2)] ∧
      ∀ ω, (system plainGateway).handle false (.receive true 2) ω renewingAndClaiming.world =
        some (.ok (.array [1, 1000]),
          { renewingAndClaiming.world with replies := [(2, .integer 2)] }) := by
  have hreplies : renewingAndClaiming.world.replies =
      [(1, .array [1, 1000]), (2, .integer 2)] := by decide +kernel
  refine ⟨Parallel.reaches_play _ _, ⟨_, _, rfl⟩, hreplies, fun ω => ?_⟩
  simp [system, answer, hreplies]

end MuduoChat
