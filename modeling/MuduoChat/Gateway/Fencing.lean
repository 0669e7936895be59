import MuduoChat.Gateway.Rules
import MuduoChat.Lib.Atomic

/-!
# Authority of sessions

One delivery coordinator by itself, over a store in which anything may stand and on which the
rest of the server may do anything between two operations of the coordinator.  An
acknowledgement concerns the rows of its own user only, a session that comes late is not
heard, and the end of a session does not touch another one.  The programs are followed once, for
this and for the sessions to which rows are leased.
-/

namespace MuduoChat

open Std Prog Relation

/-! ### A coordinator by itself -/

/-- The operations of a coordinator, and those of others on the store. -/
inductive CoordinatorOp where
  | acknowledge (acker : SessionIdentity) (messageId : MessageId)
  | sessionAvailable (session : SessionIdentity)
  | sessionClosed (session : SessionIdentity)
  | resume (session : SessionIdentity)
  | onAccepted (recipients : List UserId)
  | runRetryScan (now : ℤ)
  | store (c : StoreCall)

namespace Coordinator

/-- The programs of the operations.  Only an acknowledgement answers something that counts
here. -/
def code (co : Coordinator) : CoordinatorOp → Code (Option AckResult)
  | .acknowledge acker messageId => do
      let result ← co.acknowledge acker messageId
      pure (some result)
  | .sessionAvailable session => do
      co.sessionAvailable session
      pure none
  | .sessionClosed session => do
      co.sessionClosed session
      pure none
  | .resume session => do
      co.resume session
      pure none
  | .onAccepted recipients => do
      co.onAccepted recipients
      pure none
  | .runRetryScan now => do
      let _ ← co.runRetryScan now
      pure none
  | .store c => do
      let _ ← Code.store c
      pure none

/-- A coordinator with its store, its clock and its sink. -/
def system (co : Coordinator) :
    Serial Port Unit (World Unit) Env CoordinatorOp (Option AckResult) :=
  ⟨World.handle, fun _ => co.code⟩

abbrev State := Serial.Config Port Unit (World Unit) CoordinatorOp (Option AckResult)

/-- The states that a new coordinator can reach, whatever the store contains. -/
def Reachable (co : Coordinator) (a : State) : Prop :=
  ∃ w : World Unit, w.process () = {} ∧ ReflTransGen co.system.Step (Serial.Config.initial w) a

end Coordinator

/-! ### What the operations may do -/

/-- The calls that only read. -/
def StoreCall.isQuery : StoreCall → Bool
  | .findAccepted .. | .deliveriesByRecipient _ | .deliveriesByMessage _ | .findMessage _
  | .deliveriesDueForRetry .. | .timeGranularityMs => true
  | _ => false

/-- The rows that an operation may change.  Two of the operations are confined to the rows of
one user. -/
def CoordinatorOp.reaches : CoordinatorOp → DeliveryKey → Prop
  | .acknowledge acker _, k => k.recipient = acker.userId.value
  | .sessionClosed session, k => k.recipient = session.userId.value
  | _, _ => True

/-- Each active session stands under its own user. -/
def Process.ActiveKeyed (p : Process) : Prop :=
  ∀ (u : UserId) (s : SessionIdentity), p.activeByUser[u]? = some s → s.userId = u

/-- What an operation may do to the tables of sessions: generations that have been seen are
never forgotten, and the end of a session leaves other active sessions alone. -/
structure TablesStep (op : CoordinatorOp) (p p' : Process) : Prop where
  observed : ∀ (u : UserId) (g : ℕ), p.observedGenerationByUser[u]? = some g →
    ∃ g', p'.observedGenerationByUser[u]? = some g' ∧ g ≤ g'
  active : ∀ session, op = .sessionClosed session → ∀ (u : UserId) s,
    p.activeByUser[u]? = some s → s ≠ session → p'.activeByUser[u]? = some s

namespace TablesStep

variable {op : CoordinatorOp} {p p₁ p₂ p₃ : Process}

lemma of_eq (hobserved : p₂.observedGenerationByUser = p₁.observedGenerationByUser)
    (hactive : p₂.activeByUser = p₁.activeByUser) : TablesStep op p₁ p₂ :=
  ⟨fun _ g hg => ⟨g, hobserved ▸ hg, le_rfl⟩, fun _ _ _ _ hs _ => hactive ▸ hs⟩

lemma trans (h : TablesStep op p₁ p₂) (h' : TablesStep op p₂ p₃) : TablesStep op p₁ p₃ := by
  refine ⟨fun u g hg => ?_, fun session hop u s hs hne => ?_⟩
  · obtain ⟨g2, hg2, hle⟩ := h.observed u g hg
    obtain ⟨g3, hg3, hle'⟩ := h'.observed u g2 hg2
    exact ⟨g3, hg3, hle.trans hle'⟩
  · exact h'.active session hop u s (h.active session hop u s hs hne) hne

end TablesStep

/-- What an operation may do to the store and to the tables. -/
structure Confined (op : CoordinatorOp) (w w' : World Unit) : Prop where
  rows : ∀ k, ¬op.reaches k → w'.store.row k = w.store.row k
  tables : TablesStep op (w.process ()) (w'.process ())

lemma Confined.refl (op : CoordinatorOp) (w : World Unit) : Confined op w w :=
  ⟨fun _ _ => rfl, .of_eq rfl rfl⟩

lemma Confined.trans {op : CoordinatorOp} {w1 w2 w3 : World Unit} (h : Confined op w1 w2)
    (h' : Confined op w2 w3) : Confined op w1 w3 :=
  ⟨fun k hk => (h'.rows k hk).trans (h.rows k hk), h.tables.trans h'.tables⟩

/-- The calls that an operation may make. -/
def Within (op : CoordinatorOp) : Call → World Unit → Prop
  | .save p, w => p.ActiveKeyed ∧ TablesStep op (w.process ()) p
  | .store (.updateDelivery d), _ => op.reaches d.key
  | .store c, _ => c.isQuery = true ∨ op = .store c
  | .legacyCounterFetchAdd, _ => False
  | _, _ => True

/-- An acknowledgement of the current generation that finds a row of its user which is not yet
acknowledged is made while the user has an active session. -/
def AckerOnline (op : CoordinatorOp) (start : World Unit) : Prop :=
  ∀ acker messageId mine, op = .acknowledge acker messageId →
    (start.process ()).outdated acker = false →
    (start.store.deliveriesByMessage messageId).find? (fun d => d.recipient = acker.userId) =
      some mine → mine.state ≠ .acknowledged →
    ((start.process ()).activeByUser[acker.userId]?).isSome

/-- When an operation of the coordinator itself has to keep to active sessions. -/
def Coordinator.MustLease (op : CoordinatorOp) (start : World Unit) : Prop :=
  (∀ c, op ≠ .store c) ∧ AckerOnline op start

/-- The calls of an operation: under the condition, rows are leased to active sessions only. -/
def ToActive (cond : Prop) : Call → World Unit → Prop
  | .store (.updateDelivery d), w => cond → d.state = .inFlight →
      (w.process ()).activeByUser[d.recipient]? = some d.leaseOwner
  | .save p, _ => p.ActiveKeyed
  | .legacyCounterFetchAdd, _ => False
  | _, _ => True

lemma World.handle_process_eq {w w' : World Unit} {c : Call} {ω : Env} {r : Except Fault c.Value}
    (h : World.handle () c ω w = some (r, w')) :
    (∃ p, c = .save p ∧ w'.process () = p) ∨ c = .legacyCounterFetchAdd ∨
      w'.process () = w.process () := by
  cases c with
  | save p =>
    cases h
    exact .inl ⟨p, rfl, by simp⟩
  | legacyCounterFetchAdd => exact .inr (.inl rfl)
  | groupMembers groupId =>
    simp only [World.handle] at h
    split at h <;> obtain ⟨-, rfl⟩ := answer_inj h <;>
      exact .inr (.inr rfl)
  | _ =>
    cases h
    exact .inr (.inr rfl)

/-- **Inversion of an allowed call.** -/
lemma Within.confined {op : CoordinatorOp} {w w' : World Unit} {c : Call} {ω : Env}
    {r : Except Fault c.Value} (hallow : Within op c w)
    (h : World.handle () c ω w = some (r, w')) : Confined op w w' := by
  refine ⟨fun k hk => ?_, ?_⟩
  · rcases World.handle_store_eq h with ⟨c', rfl, hstore⟩ | ⟨-, hstore⟩
    swap
    · rw [hstore]
    rw [hstore]
    -- the others may do anything, but then the operation reaches every row
    have hother : op ≠ .store c' := by
      rintro rfl
      exact hk trivial
    cases c' with
    | updateDelivery d =>
      have hne : d.key ≠ k := by
        rintro rfl
        exact hk hallow
      exact (InMemoryMessageStore.row_updateDelivery _ _ _).trans (if_neg fun hand => hne hand.1)
    | getOrCreateConversation | insertMessage | insertDelivery | expireDeliveriesDetailed |
      cleanupDeliveries => exact absurd (hallow.resolve_left (by simp [StoreCall.isQuery])) hother
    | _ => rfl
  · rcases World.handle_process_eq h with ⟨p, rfl, hp⟩ | rfl | hp
    · rw [hp]
      exact hallow.2
    · exact absurd hallow id
    · rw [hp]
      exact .of_eq rfl rfl

lemma Within.activeKeyed {op : CoordinatorOp} {w w' : World Unit} {c : Call} {ω : Env}
    {r : Except Fault c.Value} (hw : (w.process ()).ActiveKeyed) (hallow : Within op c w)
    (h : World.handle () c ω w = some (r, w')) : (w'.process ()).ActiveKeyed := by
  rcases World.handle_process_eq h with ⟨p, rfl, hp⟩ | rfl | hp
  · rw [hp]
    exact hallow.1
  · exact absurd hallow id
  · rwa [hp]

/-! ### The programs -/

abbrev CoordinatorOp.contract (op : CoordinatorOp) (cond : Prop) :
    Contract Port (World Unit) Env :=
  World.under (fun w => (w.process ()).ActiveKeyed) True () fun c w =>
    Within op c w ∧ ToActive cond c w

/-- The calls that every operation may make. -/
def Harmless : Call → Prop
  | .store c => c.isQuery = true
  | .save _ => False
  | .legacyCounterFetchAdd => False
  | _ => True

lemma Harmless.allowed {c : Call} (hc : Harmless c) (op : CoordinatorOp) (cond : Prop)
    (w : World Unit) : Within op c w ∧ ToActive cond c w := by
  cases c with
  | store c =>
    cases c with
    | updateDelivery => cases hc
    | _ => exact ⟨.inl hc, trivial⟩
  | save | legacyCounterFetchAdd => exact absurd hc id
  | _ => exact ⟨trivial, trivial⟩

abbrev World.active (w : World Unit) : TreeMap UserId SessionIdentity :=
  (w.process ()).activeByUser

section Programs

variable {op : CoordinatorOp} {cond : Prop} {w : World Unit} {α β : Type}

lemma harmless_bind {p : Code α} {f : α → Code β} {P : β → World Unit → Prop}
    (hp : p.Calls Harmless)
    (hf : ∀ a w1, w1.active = w.active → (f a).Sat (op.contract cond) (Ends P) w1) :
    (p >>= f).Sat (op.contract cond) (Ends P) w := by
  have hsat : p.Sat (op.contract cond) (fun _ w1 => w1.active = w.active) w := by
    refine Calls.sat (R := fun w w1 : World Unit => w1.active = w.active) trivial
      (fun c w hc => hc.allowed op cond w) (fun h h' => h'.trans h)
      (by rintro w _ rfl; rfl) (fun c ω s r s1 hc hs => ?_) hp w
    rcases World.handle_process_eq hs with ⟨p, rfl, -⟩ | rfl | hsame
    · exact absurd hc id
    · exact absurd hc id
    · exact congrArg Process.activeByUser hsame
  refine Sat.bind (fun _ => rfl) (hsat.mono fun r w1 _ hr => ?_)
  cases r with
  | ok a => exact hf a w1 hr
  | error e => trivial

lemma harmless_end {p : Code α} (hp : p.Calls Harmless) {P : α → World Unit → Prop}
    (hP : ∀ a w1, w1.active = w.active → P a w1) : p.Sat (op.contract cond) (Ends P) w := by
  rw [← bind_ret_right p]
  exact harmless_bind hp fun a w1 hw1 => sat_ret fun _ => hP a w1 hw1

lemma modify_bind {g : Process → Process} {f : Unit → Code α} {P : α → World Unit → Prop}
    (hobserved : ∀ p, (g p).observedGenerationByUser = p.observedGenerationByUser)
    (hactive : ∀ p, (g p).activeByUser = p.activeByUser)
    (hf : ∀ w1, w1.active = w.active → (f ()).Sat (op.contract cond) (Ends P) w1) :
    (Code.modify g >>= f).Sat (op.contract cond) (Ends P) w := by
  refine sat_modify fun hw => ⟨⟨trivial, trivial⟩, ?_, hf _ ?_⟩
  · have hkeyed : (g (w.process ())).ActiveKeyed := fun u s hs => hw u s (hactive _ ▸ hs)
    exact ⟨⟨hkeyed, .of_eq (hobserved _) (hactive _)⟩, hkeyed⟩
  · simp [World.active, hactive]

lemma harmless_record (e : MetricEvent) : (Code.record e).Calls Harmless := Calls.ask trivial

namespace Coordinator

variable {u : UserId} (hop : ∀ k : DeliveryKey, k.recipient = u.value → op.reaches k)
include hop

lemma update_bind {d : Delivery} (hd : d.recipient = u)
    (hlease : cond → d.state = .inFlight → w.active[u]? = some d.leaseOwner) {f : Unit → Code α}
    {P : α → World Unit → Prop}
    (hf : ∀ w1, w1.active = w.active → (f ()).Sat (op.contract cond) (Ends P) w1) :
    (Code.store (.updateDelivery d) >>= f).Sat (op.contract cond) (Ends P) w := by
  subst hd
  exact sat_store fun _ => ⟨⟨hop d.key rfl, hlease⟩, hf _ rfl⟩

section Claims

variable (co : Coordinator) {T : TreeMap UserId SessionIdentity} {session : SessionIdentity}
  (hT : cond → T[u]? = some session)
include hT

lemma writeClaim_within (now : ℤ) (message : Message) {head : Delivery}
    (hhead : head.recipient = u) (hw : w.active = T) :
    (co.writeClaim session now message head).Sat (op.contract cond)
      (Ends fun row w1 => row.recipient = u ∧ w1.active = T) w := by
  have hdelay : (co.retryDelayMs (nextAttempt head)).Calls Harmless := by
    refine Calls.bind ?_ fun _ => trivial
    simp only [backoffMs]
    split
    · exact Calls.ask_bind trivial fun _ => trivial
    · trivial
  refine harmless_bind hdelay fun delay w1 hw1 => ?_
  have hwrite (w2 : World Unit) (hw2 : w2.active = w1.active) (legacy : Bool) :
      (Code.store (.updateDelivery (co.claimed session now delay legacy head)) >>= fun _ =>
        recordClaim head.state legacy (co.claimed session now delay legacy head) >>= fun _ =>
          pure (co.claimed session now delay legacy head)).Sat (op.contract cond)
        (Ends fun row w3 => row.recipient = u ∧ w3.active = T) w2 := by
    have hw' : w2.active = T := by rw [hw2, hw1, hw]
    have hrow : (co.claimed session now delay legacy head).recipient = u := hhead
    refine update_bind hop hrow (fun hcond _ => ?_) fun w3 hw3 => ?_
    · rw [hw']
      exact hT hcond
    refine harmless_bind ?_ fun _ w4 hw4 => sat_ret fun _ => ⟨hhead, by rw [hw4, hw3, hw']⟩
    refine Calls.bind (harmless_record _) fun _ => Calls.bind (harmless_record _) fun _ => ?_
    exact Calls.when (Calls.bind (harmless_record _) fun _ => harmless_record _)
  cases isLegacyClientMessageId message.command.clientMessageId.value with
  | true => exact hwrite w1 rfl true
  | false => exact modify_bind (fun _ => rfl) (fun _ => rfl) fun w2 hw2 => hwrite w2 hw2 false

lemma claimLoop_within (now : ℤ) (fuel : ℕ) {rows : List Delivery}
    (hrows : ∀ d ∈ rows, d.recipient = u) (hw : w.active = T) :
    (co.claimLoop session now fuel rows).Sat (op.contract cond)
      (Ends fun _ w1 => w1.active = T) w := by
  induction fuel generalizing rows w with
  | zero => exact fun _ _ _ => trivial
  | succ fuel ih =>
    unfold claimLoop
    split
    · exact sat_ret fun _ => hw
    · rename_i j head hhead
      split
      · refine harmless_bind (Calls.ask rfl) fun message w1 hw1 => ?_
        cases message with
        | none => exact sat_ret fun _ => hw1.trans hw
        | some message =>
          refine harmless_bind (Calls.ask trivial) fun disposition w2 hw2 => ?_
          have hw' : w2.active = T := by rw [hw2, hw1, hw]
          cases disposition with
          | accepted =>
            obtain hnone | ⟨n, -, hn, -⟩ := headFrom_origin hhead
            · cases hnone
            have hu : head.recipient = u := hrows head (List.mem_of_getElem? hn)
            refine Sat.ends_bind (fun _ => rfl)
              (writeClaim_within hop co hT now message hu hw') fun row w3 _ hrow => ?_
            refine ih (fun d hd => ?_) hrow.2
            rcases List.mem_or_eq_of_mem_set hd with hd | rfl
            · exact hrows d hd
            · exact hrow.1
          | paused =>
            refine modify_bind (fun _ => rfl) (fun _ => rfl) fun w3 hw3 => sat_ret fun _ => ?_
            exact hw3.trans hw'
          | closed => exact sat_ret fun _ => hw'
      · exact sat_ret fun _ => hw

lemma claimConversations_within (now : ℤ) {groups : List (ℕ × List Delivery)}
    (hgroups : ∀ g ∈ groups, ∀ d ∈ g.2, d.recipient = u) (hw : w.active = T) :
    (co.claimConversations session now groups).Sat (op.contract cond)
      (Ends fun _ w1 => w1.active = T) w := by
  induction groups generalizing w with
  | nil => exact sat_ret fun _ => hw
  | cons g groups ih =>
    refine Sat.ends_bind (fun _ => rfl)
      (claimLoop_within hop co hT now _ (hgroups g List.mem_cons_self) hw) fun paused w1 _ hw1 => ?_
    split
    · exact sat_ret fun _ => hw1
    · exact ih (fun g' hg' => hgroups g' (List.mem_cons_of_mem g hg')) hw1

end Claims

/-- A claim for an active session leases rows to active sessions, and it leaves the table of active
sessions alone. -/
lemma claimFor_within (co : Coordinator) {session : SessionIdentity} (hu : session.userId = u)
    (hT : cond → w.active[u]? = some session) :
    (co.claimFor session).Sat (op.contract cond) (Ends fun _ w1 => w1.active = w.active) w := by
  refine harmless_bind (Calls.ask trivial) fun p w1 hw1 => ?_
  split
  · exact sat_ret fun _ => hw1
  refine sat_store fun _ => ⟨⟨.inl rfl, trivial⟩, ?_⟩
  refine harmless_bind (Calls.ask trivial) fun now w2 hw2 => ?_
  refine claimConversations_within hop co hT now (fun g hg d hd => ?_) (hw2.trans hw1)
  have hmem : d ∈ w1.store.deliveriesByRecipient session.userId := by
    rw [snd_of_mem_byConversation hg] at hd
    exact (List.mem_filter.1 hd).1
  exact (InMemoryMessageStore.recipient_of_mem hmem).trans hu

lemma release_within {d : Delivery} (hd : d.recipient = u) :
    (release d).Sat (op.contract cond) (Ends fun _ w1 => w1.active = w.active) w := by
  have hrow : (released d).recipient = u := hd
  refine update_bind hop hrow (fun _ hstate => absurd hstate (by simp [released])) fun w1 hw1 => ?_
  exact harmless_end (harmless_record _) fun _ w2 hw2 => hw2.trans hw1

lemma releases_within (p : Delivery → Bool) {rows : List Delivery}
    (hrows : ∀ d ∈ rows, d.recipient = u) :
    (Prog.forEach (fun d => Prog.when (p d) (release d)) rows).Sat (op.contract cond)
      (Ends fun _ w1 => w1.active = w.active) w := by
  refine Sat.ends_mono (Sat.ends_forEach (fun _ => rfl)
    (P := fun rows w1 => (∀ d ∈ rows, d.recipient = u) ∧ w1.active = w.active)
    (by rintro _ _ rfl h; exact h) ?_ rows w ⟨hrows, rfl⟩) fun _ _ _ h => h.2
  rintro d rest w1 ⟨hrest, hw1⟩
  have hrest' : ∀ d ∈ rest, d.recipient = u := fun d' hd' => hrest d' (List.mem_cons_of_mem d hd')
  cases p d with
  | false => exact sat_ret fun _ => ⟨hrest', hw1⟩
  | true =>
    refine (release_within hop (hrest d List.mem_cons_self)).ends_mono ?_
    exact fun _ w2 _ hw2 => ⟨hrest', hw2.trans hw1⟩

end Coordinator

end Programs

/-! ### The operations -/

namespace Coordinator

variable (co : Coordinator) {op : CoordinatorOp} {cond : Prop} {w : World Unit}

/-- A generation of the session's user that is no older has been seen. -/
def Heard (session : SessionIdentity) (w : World Unit) : Prop :=
  ∃ g, (w.process ()).observedGenerationByUser[session.userId]? = some g ∧ session.generation ≤ g

/-- An acknowledgement that is heard while its user has an active session comes from this
session. -/
lemma acknowledge_within {acker : SessionIdentity} {messageId : MessageId}
    (hop : ∀ k : DeliveryKey, k.recipient = acker.userId.value → op.reaches k)
    (hcond : cond → AckerOnline (.acknowledge acker messageId) w) :
    (co.acknowledge acker messageId).Sat (op.contract cond) (Ends fun _ _ => True) w := by
  refine sat_load fun _ => ⟨⟨trivial, trivial⟩, ?_⟩
  split
  · exact fun _ _ _ => trivial
  rename_i hnot
  split
  · exact fun _ _ _ => trivial
  rename_i hcurrent
  refine sat_store fun _ => ⟨⟨.inl rfl, trivial⟩, ?_⟩
  split
  · exact fun _ _ _ => trivial
  split
  · exact fun _ _ _ => trivial
  rename_i mine hmine
  split
  · exact fun _ _ _ => trivial
  rename_i hopen
  have hself : cond → w.active[acker.userId]? = some acker := by
    intro h
    obtain ⟨active, hactive⟩ := Option.isSome_iff_exists.1
      (hcond h acker messageId mine rfl (by simpa using hcurrent) hmine hopen)
    have hsame : active = acker := by simpa [Process.superseded, hactive] using hnot
    rw [hactive, hsame]
  refine harmless_bind (Calls.ask trivial) fun now w2 hw2 => ?_
  have hmine' : mine.recipient = acker.userId := by simpa using List.find?_some hmine
  have hrow : (acked now mine).recipient = acker.userId := hmine'
  refine update_bind hop hrow (fun _ hstate => absurd hstate (by simp [acked])) fun w3 hw3 => ?_
  refine Sat.ends_bind (fun _ => rfl) (claimFor_within hop co rfl fun h => ?_) fun _ w4 _ _ => ?_
  · rw [hw3, hw2]
    exact hself h
  refine harmless_end (Calls.bind (harmless_record _) fun _ => ?_) fun _ _ _ => trivial
  exact Calls.bind (harmless_record _) fun _ => Calls.bind (harmless_record _) fun _ => trivial

lemma claimFor_free (hop : ∀ k, op.reaches k) {session : SessionIdentity}
    (hT : cond → w.active[session.userId]? = some session) :
    (co.claimFor session).Sat (op.contract cond) (Ends fun _ w1 => w1.active = w.active) w :=
  claimFor_within (fun k _ => hop k) co rfl hT

lemma sat_confined {α : Type} {p : Code α} {P : α → World Unit → Prop}
    (h : p.Sat (op.contract cond) (Ends P) w) :
    p.Sat (op.contract cond) (fun _ w1 => Confined op w w1) w := by
  have hframe := Sat.frame (C := op.contract cond) (R := Confined op) (fun h h' => h.trans h')
    (by rintro w _ rfl; exact .refl op w)
    (fun _ _ _ _ _ _ hallow hw => Within.confined hallow.1 hw) h
  exact hframe.mono fun _ _ _ hr => hr.2

lemma sessionAvailable_within (hop : ∀ k, op.reaches k) (hclosed : ∀ s, op ≠ .sessionClosed s)
    (session : SessionIdentity) :
    (co.sessionAvailable session).Sat (op.contract cond) (fun _ w1 => Heard session w1) w := by
  refine sat_load fun hw => ⟨⟨trivial, trivial⟩, ?_⟩
  split
  · rename_i hlate
    refine sat_ret fun _ => ?_
    unfold Process.outdated at hlate
    split at hlate
    · rename_i g hg
      exact ⟨g, hg, (of_decide_eq_true hlate).le⟩
    · cases hlate
  rename_i hfresh
  -- the generation that is written is no older than the one that was there
  have htables : TablesStep op (w.process ()) { w.process () with
      observedGenerationByUser :=
        (w.process ()).observedGenerationByUser.insert session.userId session.generation } := by
    refine ⟨fun u g hg => ?_, fun s hs => absurd hs (hclosed s)⟩
    by_cases hu : session.userId = u
    · subst hu
      refine ⟨session.generation, by simp, ?_⟩
      simpa [Process.outdated, hg] using hfresh
    · exact ⟨g, by simpa [OrderedMap.getElem?_insert, hu] using hg, le_rfl⟩
  refine sat_save fun _ => ⟨⟨⟨hw, htables⟩, hw⟩, ?_⟩
  have hrest : (do
      let deliveries ← Code.store (.deliveriesByRecipient session.userId)
      Prog.forEach (fun d => Prog.when (co.fenced session d) (release d)) deliveries
      Code.modify fun p => { p with activeByUser := p.activeByUser.insert session.userId session }
      co.claimFor session : Code Unit).Sat (op.contract cond) (Ends fun _ _ => True)
      { w with process := Function.update w.process () { w.process () with
        observedGenerationByUser :=
          (w.process ()).observedGenerationByUser.insert session.userId session.generation } } := by
    refine sat_store fun _ => ⟨⟨.inl rfl, trivial⟩, ?_⟩
    refine Sat.ends_bind (fun _ => rfl) (releases_within (u := session.userId) (fun k _ => hop k) _
      fun d hd => InMemoryMessageStore.recipient_of_mem hd) fun _ w1 _ _ => ?_
    refine sat_modify fun hw1 => ?_
    have hkeyed : Process.ActiveKeyed { w1.process () with
        activeByUser := (w1.process ()).activeByUser.insert session.userId session } := by
      intro u s hs
      by_cases hu : session.userId = u
      · subst hu
        have hsame : session = s := by simpa using hs
        rw [hsame]
      · exact hw1 u s (by simpa [OrderedMap.getElem?_insert, hu] using hs)
    refine ⟨⟨trivial, trivial⟩, ⟨⟨hkeyed, ?_⟩, hkeyed⟩, ?_⟩
    · exact ⟨fun u g hg => ⟨g, hg, le_rfl⟩, fun s hs => absurd hs (hclosed s)⟩
    · exact (claimFor_free co hop fun _ => by simp [World.active]).ends_mono fun _ _ _ _ => trivial
  refine (sat_confined hrest).mono fun _ w1 _ hconfined => ?_
  exact hconfined.tables.observed session.userId session.generation (by simp)

lemma sessionClosed_within (session : SessionIdentity) :
    (co.sessionClosed session).Sat ((CoordinatorOp.sessionClosed session).contract cond)
      (Ends fun _ _ => True) w := by
  have hop : ∀ k : DeliveryKey, k.recipient = session.userId.value →
      (CoordinatorOp.sessionClosed session).reaches k := fun _ hk => hk
  -- at most the session itself is taken from the table
  have hlookup (p : Process) (u : UserId) : (withoutSession session p).activeByUser[u]? =
      if p.activeByUser[u]? = some session ∧ session.userId = u then none
      else p.activeByUser[u]? := by
    unfold withoutSession
    by_cases hactive : p.activeByUser[session.userId]? = some session
    · by_cases hu : session.userId = u
      · subst hu
        simp [hactive]
      · simp [hactive, hu, OrderedMap.getElem?_erase]
    · by_cases hu : session.userId = u
      · subst hu
        simp [hactive]
      · simp [hactive, hu]
  refine sat_load fun hw => ⟨⟨trivial, trivial⟩, ?_⟩
  have hkeyed : (withoutSession session (w.process ())).ActiveKeyed := by
    intro u s hs
    rw [hlookup] at hs
    split at hs
    · cases hs
    · exact hw u s hs
  refine sat_save fun _ => ⟨⟨⟨hkeyed, ⟨fun u g hg => ⟨g, hg, le_rfl⟩, ?_⟩⟩, hkeyed⟩, ?_⟩
  · rintro _ ⟨⟩ u s hs hne
    rw [hlookup, if_neg]
    · exact hs
    · rintro ⟨hsession, -⟩
      exact hne (Option.some.inj (hs.symm.trans hsession))
  refine sat_store fun _ => ⟨⟨.inl rfl, trivial⟩, ?_⟩
  refine Sat.ends_bind (fun _ => rfl) (releases_within hop _ fun d hd =>
    InMemoryMessageStore.recipient_of_mem hd) fun _ w1 _ hw1 => ?_
  split
  · rename_i active hactive
    refine (claimFor_within hop co (hkeyed _ active hactive) fun _ => ?_).ends_mono
      fun _ _ _ _ => trivial
    rw [hw1]
    simpa [World.active] using hactive
  · exact fun _ _ _ => trivial

lemma resume_within (hop : ∀ k, op.reaches k) (session : SessionIdentity) :
    (co.resume session).Sat (op.contract cond) (Ends fun _ _ => True) w := by
  refine sat_load fun hw => ⟨⟨trivial, trivial⟩, ?_⟩
  split
  · exact fun _ _ _ => trivial
  rename_i hactive
  split
  · exact fun _ _ _ => trivial
  refine sat_save fun _ => ⟨⟨⟨hw, .of_eq rfl rfl⟩, hw⟩, ?_⟩
  refine (claimFor_free co hop fun _ => ?_).ends_mono fun _ _ _ _ => trivial
  simpa [World.active] using hactive

lemma onAccepted_within (hop : ∀ k, op.reaches k) (recipients : List UserId) :
    (co.onAccepted recipients).Sat (op.contract cond) (Ends fun _ _ => True) w := by
  refine Sat.ends_forEach (fun _ => rfl) (P := fun _ _ => True) (fun _ _ _ _ => trivial)
    (fun u _ w _ => ?_) recipients w trivial
  refine sat_load fun hw => ⟨⟨trivial, trivial⟩, ?_⟩
  split
  · rename_i session hsession
    refine (claimFor_free co hop fun _ => ?_).ends_mono fun _ _ _ _ => trivial
    rw [hw u session hsession]
    exact hsession
  · exact fun _ _ _ => trivial

lemma scanDue_within (hop : ∀ k, op.reaches k) {p : Process} (hp : p.ActiveKeyed)
    {toClaim : TreeSet SessionIdentity}
    (hclaim : ∀ s ∈ toClaim, p.activeByUser[s.userId]? = some s) {due : List Delivery}
    (hw : w.active = p.activeByUser) :
    (scanDue p toClaim due).Sat (op.contract cond)
      (Ends fun toClaim w1 => (∀ s ∈ toClaim, p.activeByUser[s.userId]? = some s) ∧
        w1.active = p.activeByUser) w := by
  induction due generalizing w toClaim with
  | nil => exact sat_ret fun _ => ⟨hclaim, hw⟩
  | cons d due ih =>
    unfold scanDue
    split
    · exact ih hclaim hw
    · rename_i active hactive
      refine Sat.ends_bind (fun _ => rfl) (release_within (fun k _ => hop k) rfl)
        fun _ w1 _ hw1 => ?_
      refine ih (fun s hs => ?_) (hw1.trans hw)
      rcases TreeSet.mem_insert.1 hs with heq | hs
      · obtain rfl := LawfulEqCmp.compare_eq_iff_eq.1 heq
        -- the session is the active one of the recipient
        obtain ⟨rfl, hlookup, -⟩ := retrySession_eq_some.1 hactive
        rw [hp _ _ hlookup]
        exact hlookup
      · exact hclaim s hs

lemma runRetryScan_within (hop : ∀ k, op.reaches k) (now : ℤ) :
    (co.runRetryScan now).Sat (op.contract cond) (Ends fun _ _ => True) w := by
  refine modify_bind (fun _ => rfl) (fun _ => rfl) fun w1 _ => ?_
  refine harmless_bind (Calls.ask rfl) fun (due : List Delivery) w2 _ => ?_
  split
  · exact fun _ _ _ => trivial
  refine sat_load fun hw2 => ⟨⟨trivial, trivial⟩, ?_⟩
  refine Sat.ends_bind (fun _ => rfl) (scanDue_within hop hw2 (by simp) rfl)
    fun toClaim w3 _ hscan => ?_
  -- the claims leave the table of active sessions alone
  have hclaims : (Prog.forEach co.claimFor toClaim.toList).Sat (op.contract cond)
      (Ends fun _ w => (∀ s : SessionIdentity, s ∈ [] → w2.active[s.userId]? = some s) ∧
        w.active = w2.active) w3 := by
    refine Sat.ends_forEach (C := op.contract cond) (fun _ => rfl)
      (P := fun rest w => (∀ s ∈ rest, w2.active[s.userId]? = some s) ∧ w.active = w2.active)
      (by rintro _ _ rfl h; exact h) ?_ toClaim.toList w3
      ⟨fun s hs => hscan.1 s (TreeSet.mem_toList.1 hs), hscan.2⟩
    rintro session rest w ⟨hrest, hw⟩
    have hT : cond → w.active[session.userId]? = some session :=
      fun _ => hw ▸ hrest session List.mem_cons_self
    refine (claimFor_free co hop hT).ends_mono fun _ w' _ hw' => ⟨fun s hs => ?_, hw'.trans hw⟩
    exact hrest s (List.mem_cons_of_mem session hs)
  refine Sat.ends_bind (fun _ => rfl) hclaims fun _ w5 _ _ => ?_
  have hanswer : (do let p ← Code.load; pure p.tickNextAttemptsMs : Code (List ℤ)).Calls Harmless :=
    Calls.ask_bind trivial fun _ => trivial
  exact harmless_end hanswer fun _ _ _ => trivial

/-- **The operations keep to their contracts.** -/
theorem verified : co.system.Verified (fun w => (w.process ()).ActiveKeyed)
    (fun _ op start c w => Within op c w ∧ ToActive (MustLease op start) c w) True
    fun _ op _ _ w => ∀ session, op = .sessionAvailable session → Heard session w where
  keeps _ _ _ _ _ _ _ _ hw hallow h := Within.activeKeyed hw hallow.1 h
  obeys _ op w _ := by
    have hquiet {α : Type} {op : CoordinatorOp} {cond : Prop} {p : Code α}
        {f : α → Option AckResult} (hop : ∀ s, op ≠ .sessionAvailable s)
        (hp : p.Sat (op.contract cond) (Ends fun _ _ => True) w) :
        (p >>= fun a => pure (f a)).Sat (op.contract cond)
          (fun _ w1 => ∀ s, op = .sessionAvailable s → Heard s w1) w := by
      refine Sat.bind (fun _ => rfl) (hp.mono fun r w1 _ _ => ?_)
      cases r with
      | ok a => exact fun _ _ _ s hs => absurd hs (hop s)
      | error e => exact fun s hs => absurd hs (hop s)
    cases op with
    | acknowledge acker messageId =>
      exact hquiet (by simp)
        (acknowledge_within co (fun _ hk => hk) And.right)
    | sessionAvailable session =>
      have hfree : ∀ k, (CoordinatorOp.sessionAvailable session).reaches k := fun _ => trivial
      refine Sat.bind (fun _ => rfl)
        ((sessionAvailable_within co hfree (by simp) session).mono ?_)
      rintro (e | _) w1 - hheard
      · rintro _ ⟨⟩
        exact hheard
      · refine sat_ret fun _ => ?_
        rintro _ ⟨⟩
        exact hheard
    | sessionClosed session => exact hquiet (by simp) (sessionClosed_within co session)
    | resume session =>
      have hfree : ∀ k, (CoordinatorOp.resume session).reaches k := fun _ => trivial
      exact hquiet (by simp) (resume_within co hfree session)
    | onAccepted recipients =>
      have hfree : ∀ k, (CoordinatorOp.onAccepted recipients).reaches k := fun _ => trivial
      exact hquiet (by simp) (onAccepted_within co hfree recipients)
    | runRetryScan now =>
      have hfree : ∀ k, (CoordinatorOp.runRetryScan now).reaches k := fun _ => trivial
      exact hquiet (by simp) (runRetryScan_within co hfree now)
    | store c =>
      refine hquiet (by simp) (sat_of_bind_ret (sat_store fun _ => ⟨?_, fun _ _ _ => trivial⟩))
      cases c with
      | updateDelivery d => exact ⟨trivial, fun h => absurd rfl (h.1 _)⟩
      | _ => exact ⟨.inr rfl, trivial⟩

variable {co} {a : State}

lemma Reachable.heard (ha : co.Reachable a) {f : Serial.Finished Port Unit (World Unit)
    CoordinatorOp (Option AckResult)} (hf : f ∈ a.finished) {session : SessionIdentity}
    (hop : f.op = .sessionAvailable session) : Heard session a.world := by
  obtain ⟨w, hw, hrun⟩ := ha
  have hinit : (w.process ()).ActiveKeyed := by
    intro u s hs
    simp [hw] at hs
  induction hrun with
  | refl => simp [Serial.Config.initial] at hf
  | @tail x y hx hstep ih =>
    have hsound := co.verified.sound (Serial.Sound.initial hinit) hx
    rcases Serial.step_cases hstep with ⟨i, op, hr, rfl⟩ | ⟨i, op, s, v, hr, rfl⟩ |
      ⟨i, op, s, e, hr, rfl⟩ | ⟨i, op, s, c, k, ω, r, w', hr, hw', rfl⟩
    · exact ih hf
    · rcases List.mem_cons.1 hf with rfl | hf
      · exact hsound.rest _ hr x.world rfl hsound.inv session hop
      · exact ih hf
    · rcases List.mem_cons.1 hf with rfl | hf
      · exact hsound.rest _ hr x.world rfl hsound.inv session hop
      · exact ih hf
    · -- a call of another operation only raises the generations
      have hallow := (hsound.rest _ hr x.world rfl hsound.inv).1
      obtain ⟨g, hg, hle⟩ := ih hf
      obtain ⟨g', hg', hle'⟩ := (Within.confined hallow.1 hw').tables.observed _ _ hg
      exact ⟨g', hg', hle.trans hle'⟩

lemma run_load (hidle : a.running = none) {op : CoordinatorOp}
    {k : Except Fault Process → Code (Option AckResult)} {reply : Option AckResult}
    (hcode : co.code op = .call .load k) (hk : k (.ok (a.world.process ())) = .ret reply)
    (ωs : ℕ → Env) :
    co.system.run a (.invoke () op :: Serial.advances ωs 2) =
      some { a with finished := ⟨(), op, a.world, .ok reply, a.world⟩ :: a.finished } := by
  have hadvances : (Serial.advances ωs 2 : List (Serial.Choice Unit Env CoordinatorOp)) =
      [.advance (ωs 0), .advance (ωs 1)] := rfl
  have hinvoke : co.system.next a (.invoke () op) =
      some { a with running := some ⟨(), op, a.world, .call .load k⟩ } := by
    simp [Serial.next, hidle, system, hcode]
  have hload : co.system.next { a with running := some ⟨(), op, a.world, .call .load k⟩ }
      (.advance (ωs 0)) = some { a with running := some ⟨(), op, a.world, .ret reply⟩ } := by
    rw [← hk]
    rfl
  have hend : co.system.next { a with running := some ⟨(), op, a.world, .ret reply⟩ }
      (.advance (ωs 1)) =
        some { a with finished := ⟨(), op, a.world, .ok reply, a.world⟩ :: a.finished } := by
    simp [Serial.next, hidle]
  simp [Serial.run, hadvances, hinvoke, hload, hend]

end Coordinator

open Coordinator in
/-- **Authority and fencing.**  At every point of every run of a coordinator: an
acknowledgement has changed rows of its own user only; once a session has been made available,
an older session of its user is answered without any effect; and the end of a session has
removed no other active session and has changed rows of its own user only. -/
theorem coordinator_fencing (co : Coordinator) {a : State} (ha : co.Reachable a) :
    (∀ acker messageId start w, a.During (.acknowledge acker messageId) start w →
      ∀ k : DeliveryKey, k.recipient ≠ acker.userId.value → w.store.row k = start.store.row k) ∧
    (∀ (u : UserId) (g g' : ℕ), (∃ f ∈ a.finished, f.op = .sessionAvailable ⟨u, g⟩) → g' < g →
      a.running = none → ∀ messageId op reply,
        (op, reply) ∈ [(.acknowledge ⟨u, g'⟩ messageId, some .notRecipient),
          (.sessionAvailable ⟨u, g'⟩, none), (.resume ⟨u, g'⟩, none)] →
        ∀ ωs, co.system.run a (.invoke () op :: Serial.advances ωs 2) =
          some { a with finished := ⟨(), op, a.world, .ok reply, a.world⟩ :: a.finished }) ∧
    (∀ session start w, a.During (.sessionClosed session) start w →
      (∀ (u : UserId) s, (start.process ()).activeByUser[u]? = some s → s ≠ session →
        (w.process ()).activeByUser[u]? = some s) ∧
      ∀ k : DeliveryKey, k.recipient ≠ session.userId.value →
        w.store.row k = start.store.row k) := by
  have hconfined {op : CoordinatorOp} {start w : World Unit} (h : a.During op start w) :
      Confined op start w := by
    obtain ⟨w₀, hw₀, hrun⟩ := ha
    have hinit : (w₀.process ()).ActiveKeyed := by
      intro u s hs
      simp [hw₀] at hs
    exact co.verified.frame Confined.refl Confined.trans
      (fun _ _ _ _ _ _ _ _ _ hallow hw => Within.confined hallow.1 hw) hinit hrun h
  refine ⟨fun acker messageId start w h k hk => ?_, ?_, fun session start w h => ⟨?_, ?_⟩⟩
  · exact (hconfined h).rows k hk
  · rintro u g g' ⟨f, hf, hfop⟩ hlt hidle messageId op reply hmem ωs
    obtain ⟨g₁, hg₁, hle⟩ := ha.heard hf hfop
    have hlate : (a.world.process ()).outdated ⟨u, g'⟩ = true := by
      have : g' < g₁ := hlt.trans_le hle
      simpa [Process.outdated, hg₁] using this
    simp only [List.mem_cons, Prod.mk.injEq, List.not_mem_nil, or_false] at hmem
    rcases hmem with ⟨rfl, rfl⟩ | ⟨rfl, rfl⟩ | ⟨rfl, rfl⟩
    · refine run_load hidle rfl ?_ ωs
      cases hsup : (a.world.process ()).superseded ⟨u, g'⟩ <;>
        simp [Prog.bind, hsup, hlate]
    · refine run_load hidle rfl ?_ ωs
      simp [Prog.bind, hlate]
    · refine run_load hidle rfl ?_ ωs
      by_cases hactive : (a.world.process ()).activeByUser[u]? = some ⟨u, g'⟩ <;>
        simp [Prog.bind, hactive, hlate]
  · exact (hconfined h).tables.active session rfl
  · exact (hconfined h).rows

/-- A coordinator with the default configuration, for concrete runs. -/
def Coordinator.standard : Coordinator := { leaseMs := 30000, config := {}, bootId := 1 }

/-- The state after the second session of a user has come up. -/
def Coordinator.secondSession : Coordinator.State :=
  Coordinator.standard.system.play (Serial.Config.initial {})
    [{ who := (), op := .sessionAvailable ⟨⟨2⟩, 2⟩, env := {} }]

open Coordinator in
/-- An acknowledgement of the first session is then answered without any effect. -/
theorem coordinator_fencing_firstSession :
    standard.system.run secondSession
        (.invoke () (.acknowledge ⟨⟨2⟩, 1⟩ ⟨1⟩) :: Serial.advances (fun _ => {}) 2) =
      some { secondSession with
        finished := ⟨(), .acknowledge ⟨⟨2⟩, 1⟩ ⟨1⟩, secondSession.world, .ok (some .notRecipient),
          secondSession.world⟩ :: secondSession.finished } := by
  have hreach : standard.Reachable secondSession := ⟨{}, rfl, Serial.reaches_play _ _⟩
  have hidle : secondSession.running = none :=
    Option.isNone_iff_eq_none.1 (by decide +kernel)
  obtain ⟨reply, hfinished⟩ := Serial.play_finished (M := standard.system)
    (a := Serial.Config.initial {}) (x := ⟨(), .sessionAvailable ⟨⟨2⟩, 2⟩, {}, 100⟩) rfl hidle
  have hmem : ∃ f ∈ secondSession.finished, f.op = .sessionAvailable ⟨⟨2⟩, 2⟩ :=
    ⟨_, hfinished ▸ List.mem_cons_self, rfl⟩
  exact (coordinator_fencing standard hreach).2.1 ⟨2⟩ 2 1 hmem (by decide) hidle ⟨1⟩ _ _
    List.mem_cons_self _

end MuduoChat
