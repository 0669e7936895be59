import MuduoChat.Delivery.Coordinator
import MuduoChat.Lib.Keyed

/-!
# What a claim comes to

For a clock that stands still and a sink whose answer depends on the attempt only, the outcome of
a claim can be said without programs: which rows are written, which attempts are made, and whether
the session is paused in the end (`Claiming.Claims`, `Claiming.ClaimsAll`).  The delays come from
a random source, so that this is a relation; without jitter it is a function.

The main result is that a claim which is not paused leaves nothing to claim
(`Claiming.ClaimsAll.settled`): in every conversation the loop ended because its head could not be
claimed, and what the store has then is what the loop saw last.
-/

namespace MuduoChat

open Std Coordinator KeyedList

/-- The delays that the coordinator can choose after an attempt. -/
def Coordinator.MayDelay (co : Coordinator) (attempt : ℕ) (delay : ℤ) : Prop :=
  ∃ backoff, (¬(co.config.jitterFraction > 0 ∧ backoffBase co.config attempt > 1) →
      backoff = backoffBase co.config attempt) ∧
    delay = if backoff > co.config.ackTimeoutMs then backoff else co.config.ackTimeoutMs

lemma Coordinator.MayDelay.unique {co : Coordinator} (hjitter : co.config.jitterFraction = 0)
    {attempt : ℕ} {delay delay' : ℤ} (h : co.MayDelay attempt delay)
    (h' : co.MayDelay attempt delay') : delay = delay' := by
  obtain ⟨backoff, hbackoff, rfl⟩ := h
  obtain ⟨backoff', hbackoff', rfl⟩ := h'
  have hno : ¬(co.config.jitterFraction > 0 ∧ backoffBase co.config attempt > 1) := by
    simp [hjitter]
  rw [hbackoff hno, hbackoff' hno]

/-! ### Rounds -/

structure Claiming where
  co : Coordinator
  session : SessionIdentity
  now : ℤ
  find : MessageId → Option Message
  sink : DeliveryAttempt → DeliverDisposition

/-- What one round of the claim loop does: it ends the loop, or it claims the row at a place. -/
inductive Round where
  | stop (attempts : List DeliveryAttempt) (paused : Bool)
  | claim (place : ℕ) (message : Message) (head : Delivery)

namespace Claiming

variable (c : Claiming)

/-- The round in which a row stands first. -/
def tryHead (place : ℕ) (head : Delivery) : Round :=
  if claimable c.now head then
    match c.find head.messageId with
    | none => .stop [] false
    | some message =>
      match c.sink (attemptFor message head) with
      | .accepted => .claim place message head
      | .paused => .stop [attemptFor message head] true
      | .closed => .stop [attemptFor message head] false
  else
    .stop [] false

/-- The round that the loop makes for a snapshot. -/
def round (rows : List Delivery) : Round :=
  match headFrom 0 none rows with
  | none => .stop [] false
  | some (place, head) => c.tryHead place head

/-- The row that is written for an accepted attempt. -/
def claimedRow (message : Message) (delay : ℤ) (head : Delivery) : Delivery :=
  c.co.claimed c.session c.now delay
    (isLegacyClientMessageId message.command.clientMessageId.value) head

@[simp] lemma claimedRow_key (message : Message) (delay : ℤ) (head : Delivery) :
    (c.claimedRow message delay head).key = head.key := rfl

variable {c} {rows : List Delivery} {place : ℕ} {message : Message} {head : Delivery}
  {attempts : List DeliveryAttempt} {paused : Bool}

lemma round_eq_claim (h : c.round rows = .claim place message head) :
    headFrom 0 none rows = some (place, head) ∧ claimable c.now head = true ∧
      c.find head.messageId = some message ∧ c.sink (attemptFor message head) = .accepted := by
  unfold round at h
  split at h
  · cases h
  · rename_i place' head' hhead
    unfold tryHead at h
    split at h
    · rename_i hclaimable
      split at h
      · cases h
      · rename_i message' hfind
        split at h
        · rename_i hsink
          cases h
          exact ⟨hhead, hclaimable, hfind, hsink⟩
        · cases h
        · cases h
    · cases h

lemma getElem?_of_round (h : c.round rows = .claim place message head) :
    rows[place]? = some head ∧ head.state.terminal = false := by
  obtain ⟨hhead, hclaimable, -, -⟩ := round_eq_claim h
  rcases headFrom_origin hhead with hbest | ⟨n, rfl, hn, hopen⟩
  · cases hbest
  · exact ⟨by simpa using hn, hopen⟩

lemma tryHead_stop (h : c.tryHead place head = .stop attempts paused) (place' : ℕ) :
    c.tryHead place' head = .stop attempts paused := by
  unfold tryHead at h ⊢
  split
  · rename_i hclaimable
    rw [if_pos hclaimable] at h
    split
    · rename_i hfind
      rwa [hfind] at h
    · rename_i message' hfind
      rw [hfind] at h
      dsimp only at h
      split
      · rename_i hsink
        rw [hsink] at h
        cases h
      · rename_i hsink
        rwa [hsink] at h
      · rename_i hsink
        rwa [hsink] at h
  · rename_i hclaimable
    rwa [if_neg hclaimable] at h

lemma headFrom_cons_of_terminal {i : ℕ} {best : Option (ℕ × Delivery)} {d : Delivery}
    (hd : d.state.terminal = true) (rows : List Delivery) :
    headFrom i best (d :: rows) = headFrom (i + 1) best rows := by
  rw [headFrom.eq_def]
  simp [hd]

lemma headFrom_cons_of_open {i : ℕ} {best : Option (ℕ × Delivery)} {d : Delivery}
    (hd : d.state.terminal = false) (rows : List Delivery) :
    headFrom i best (d :: rows) = headFrom (i + 1)
      (match best with
        | none => some (i, d)
        | some (j, b) => if d.sequence.value < b.sequence.value then some (i, d) else some (j, b))
      rows := by
  rw [headFrom.eq_def]
  cases best with
  | none => simp [hd]
  | some b =>
    by_cases hlt : d.sequence.value < b.2.sequence.value
    · simp [hd, hlt]
    · simp [hd, hlt]

lemma headFrom_filter (i j : ℕ) {best best' : Option (ℕ × Delivery)}
    (hbest : best.map Prod.snd = best'.map Prod.snd) (rows : List Delivery) :
    (headFrom i best rows).map Prod.snd =
      (headFrom j best' (rows.filter fun d => !d.state.terminal)).map Prod.snd := by
  induction rows generalizing i j best best' with
  | nil => exact hbest
  | cons d rows ih =>
    cases hd : d.state.terminal with
    | true =>
      rw [headFrom_cons_of_terminal hd, List.filter_cons_of_neg (by simp [hd])]
      exact ih (i + 1) j hbest
    | false =>
      rw [List.filter_cons_of_pos (by simp [hd]), headFrom_cons_of_open hd,
        headFrom_cons_of_open hd]
      refine ih (i + 1) (j + 1) ?_
      cases best with
      | none =>
        obtain rfl : best' = none := by simpa using hbest.symm
        rfl
      | some b =>
        obtain ⟨b', rfl, hb⟩ : ∃ b', best' = some b' ∧ b'.2 = b.2 := by
          simpa [Option.map_eq_some_iff] using hbest.symm
        dsimp only
        rw [hb]
        split <;> rfl

lemma round_filter (h : c.round rows = .stop attempts paused) :
    c.round (rows.filter fun d => !d.state.terminal) = .stop attempts paused := by
  have hsame := @headFrom_filter 0 0 none none rfl rows
  unfold round at h ⊢
  split
  · rename_i hnone
    rw [hnone, Option.map_none, Option.map_eq_none_iff] at hsame
    rwa [hsame] at h
  · rename_i place' head' hhead
    rw [hhead, Option.map_some, Option.map_eq_some_iff] at hsame
    obtain ⟨⟨place0, head0⟩, h0, rfl⟩ := hsame
    rw [h0] at h
    exact tryHead_stop h place'

lemma round_stop_of_accepting (hsink : ∀ a, c.sink a = .accepted)
    (h : c.round rows = .stop attempts paused) : attempts = [] ∧ paused = false := by
  unfold round at h
  split at h
  · cases h
    exact ⟨rfl, rfl⟩
  · unfold tryHead at h
    simp only [hsink] at h
    split at h
    · split at h
      · cases h
        exact ⟨rfl, rfl⟩
      · cases h
    · cases h
      exact ⟨rfl, rfl⟩

end Claiming

/-! ### Outcomes -/

/-- What a claim comes to: the rows that are written and the attempts that are made, in their
order, and whether the sink asked for a pause. -/
structure ClaimOutcome where
  writes : List Delivery := []
  attempts : List DeliveryAttempt := []
  paused : Bool := false

/-- One claim after another. -/
def ClaimOutcome.append (o o' : ClaimOutcome) : ClaimOutcome :=
  ⟨o.writes ++ o'.writes, o.attempts ++ o'.attempts, o'.paused⟩

namespace Claiming

/-- The outcomes of the claim loop on a snapshot, within a number of rounds. -/
inductive Claims (c : Claiming) : ℕ → List Delivery → ClaimOutcome → Prop
  | stop {fuel : ℕ} {rows : List Delivery} {attempts : List DeliveryAttempt} {paused : Bool}
      (hround : c.round rows = .stop attempts paused) :
      Claims c (fuel + 1) rows ⟨[], attempts, paused⟩
  | claim {fuel : ℕ} {rows : List Delivery} {place : ℕ} {message : Message} {head : Delivery}
      {delay : ℤ} {o : ClaimOutcome} (hround : c.round rows = .claim place message head)
      (hdelay : c.co.MayDelay (nextAttempt head) delay)
      (hrest : Claims c fuel (rows.set place (c.claimedRow message delay head)) o) :
      Claims c (fuel + 1) rows
        ⟨c.claimedRow message delay head :: o.writes, attemptFor message head :: o.attempts,
          o.paused⟩

/-- The outcomes for one conversation after the other. -/
def ClaimsAll (c : Claiming) : List (ℕ × List Delivery) → ClaimOutcome → Prop
  | [], o => o = {}
  | (_, rows) :: rest, o => ∃ o₁, c.Claims (rows.length + 1 + c.co.patience) rows o₁ ∧
      if o₁.paused then o = o₁ else ∃ o₂, c.ClaimsAll rest o₂ ∧ o = o₁.append o₂

variable {c : Claiming} {rows L : List Delivery} {o o' : ClaimOutcome} {fuel : ℕ}

lemma Claims.of_stop {attempts : List DeliveryAttempt} {paused : Bool} (h : c.Claims fuel rows o)
    (hround : c.round rows = .stop attempts paused) : o = ⟨[], attempts, paused⟩ := by
  cases h with
  | stop hround' =>
    obtain ⟨rfl, rfl⟩ := Round.stop.inj (hround.symm.trans hround')
    rfl
  | claim hround' _ _ => cases hround.symm.trans hround'

/-- What holds of the claims for each conversation and is kept by one claim after another, holds of
all claims. -/
lemma ClaimsAll.rule {P : ClaimOutcome → Prop} (hnone : P {})
    (happend : ∀ {o o'}, P o → P o' → P (o.append o')) {groups : List (ℕ × List Delivery)}
    (hone : ∀ g ∈ groups, ∀ fuel o, c.Claims fuel g.2 o → P o) (h : c.ClaimsAll groups o) :
    P o := by
  induction groups generalizing o with
  | nil =>
    obtain rfl := h
    exact hnone
  | cons g rest ih =>
    obtain ⟨o1, h1, hrest⟩ := h
    have hfirst := hone g (by simp) _ _ h1
    split at hrest
    · obtain rfl := hrest
      exact hfirst
    · obtain ⟨o2, h2, rfl⟩ := hrest
      exact happend hfirst (ih (fun g' hg' => hone g' (List.mem_cons_of_mem g hg')) h2)

/-! ### What is written -/

/-- What holds of the rows of the snapshot and is kept by claiming a row, holds of every row that
is written. -/
lemma Claims.forall_writes {P : Delivery → Prop}
    (hP : ∀ message delay head, P head → P (c.claimedRow message delay head))
    (h : c.Claims fuel rows o) (hrows : ∀ r ∈ rows, P r) : ∀ d ∈ o.writes, P d := by
  induction h with
  | stop _ => simp
  | @claim _ rows _ message head delay _ hround _ _ ih =>
    obtain ⟨hn, -⟩ := getElem?_of_round hround
    have hrow := hP message delay head (hrows head (List.mem_of_getElem? hn))
    intro d hd
    rcases List.mem_cons.1 hd with rfl | hd
    · exact hrow
    · refine ih (fun r hr => ?_) d hd
      rcases List.mem_or_eq_of_mem_set hr with hr | rfl
      · exact hrows r hr
      · exact hrow

lemma ClaimsAll.forall_writes {P : Delivery → Prop}
    (hP : ∀ message delay head, P head → P (c.claimedRow message delay head))
    {groups : List (ℕ × List Delivery)} (h : c.ClaimsAll groups o)
    (hrows : ∀ g ∈ groups, ∀ r ∈ g.2, P r) : ∀ d ∈ o.writes, P d :=
  h.rule (P := fun o => ∀ d ∈ o.writes, P d) (by simp)
    (fun h h' d hd => (List.mem_append.1 hd).elim (h d) (h' d))
    fun g hg _ _ h => h.forall_writes hP (hrows g hg)

lemma Claims.leaseOwner (h : c.Claims fuel rows o) : ∀ d ∈ o.writes, d.leaseOwner = c.session := by
  induction h with
  | stop _ => simp
  | claim _ _ _ ih => simpa [claimedRow, claimed] using ih

lemma ClaimsAll.leaseOwner {groups : List (ℕ × List Delivery)} (h : c.ClaimsAll groups o) :
    ∀ d ∈ o.writes, d.leaseOwner = c.session :=
  h.rule (P := fun o => ∀ d ∈ o.writes, d.leaseOwner = c.session) (by simp)
    (fun h h' d hd => (List.mem_append.1 hd).elim (h d) (h' d)) fun _ _ _ _ h => h.leaseOwner

lemma Claims.paused_of_accepting (hsink : ∀ a, c.sink a = .accepted) (h : c.Claims fuel rows o) :
    o.paused = false := by
  induction h with
  | stop hround => exact (round_stop_of_accepting hsink hround).2
  | claim _ _ _ ih => exact ih

lemma ClaimsAll.paused_of_accepting (hsink : ∀ a, c.sink a = .accepted)
    {groups : List (ℕ × List Delivery)} (h : c.ClaimsAll groups o) : o.paused = false :=
  h.rule (P := fun o => o.paused = false) rfl (fun _ h' => h')
    fun _ _ _ _ h => h.paused_of_accepting hsink

/-! ### Nothing is left to claim -/

/-- The row is open and belongs to a conversation. -/
def openIn (conversation : ℕ) (d : Delivery) : Bool :=
  !d.state.terminal && d.conversationId.value = conversation

lemma openIn_iff {conversation : ℕ} {d : Delivery} :
    openIn conversation d = true ↔
      d.state.terminal = false ∧ d.conversationId.value = conversation := by
  simp [openIn]

/-- In no conversation is there anything to claim for a user with these rows. -/
def Settled (c : Claiming) (L : List Delivery) : Prop :=
  ∀ conversation, ∃ attempts, c.round (L.filter (openIn conversation)) = .stop attempts false

lemma filter_overwrite_claimedRow {conversation place : ℕ} {message : Message} (delay : ℤ)
    {head : Delivery} (hL : (L.map Delivery.key).Nodup) (hrows : (rows.map Delivery.key).Nodup)
    (hconv : ∀ r ∈ rows, r.conversationId.value = conversation)
    (hsame : (rows.filter fun d => !d.state.terminal) = L.filter (openIn conversation))
    (hround : c.round rows = .claim place message head) :
    ((rows.set place (c.claimedRow message delay head)).filter fun d => !d.state.terminal) =
        (KeyedList.overwrite Delivery.key L (c.claimedRow message delay head)).filter
          (openIn conversation) ∧
      ∀ other, other ≠ conversation →
        (KeyedList.overwrite Delivery.key L (c.claimedRow message delay head)).filter (openIn other) =
          L.filter (openIn other) := by
  obtain ⟨hn, hopen⟩ := getElem?_of_round hround
  have hhead : head ∈ rows := List.mem_of_getElem? hn
  have hmem : head ∈ L.filter (openIn conversation) :=
    hsame ▸ List.mem_filter.2 ⟨hhead, by simp [hopen]⟩
  obtain ⟨hheadL, hq⟩ := List.mem_filter.1 hmem
  -- the row that is replaced is the head, in both lists
  have hreplaced {l : List Delivery} (hl : (l.map Delivery.key).Nodup) (hin : head ∈ l)
      {r : Delivery} (hr : r ∈ l) (hk : r.key = (c.claimedRow message delay head).key) :
      r = head := List.inj_on_of_nodup_map hl hr hin hk
  constructor
  · rw [set_eq_overwrite hrows hn (claimedRow_key c message delay head), filter_overwrite, hsame, filter_overwrite (l := L)]
    · refine List.filter_congr fun r hr => ?_
      have hr' : r.conversationId.value = conversation := by
        rcases mem_overwrite hr with rfl | hr
        · exact hconv head hhead
        · exact (openIn_iff.1 (List.mem_filter.1 hr).2).2
      simp [openIn, hr']
    · intro r hr hk
      rw [hreplaced hL hheadL hr hk]
      exact hq
    · intro r hr hk
      rw [hreplaced hrows hhead hr hk]
      simp [hopen]
  · intro other hne
    have hother {d : Delivery} (hd : d.conversationId = head.conversationId) :
        openIn other d = false := by
      have hd' : d.conversationId.value = conversation := hd ▸ (openIn_iff.1 hq).2
      simp [openIn, hd', Ne.symm hne]
    refine filter_overwrite_of_not (fun r hr hk => ?_) (hother rfl)
    rw [hreplaced hL hheadL hr hk]
    exact hother rfl

lemma Claims.settles {conversation : ℕ} (h : c.Claims fuel rows o)
    (hL : (L.map Delivery.key).Nodup) (hrows : (rows.map Delivery.key).Nodup)
    (hconv : ∀ r ∈ rows, r.conversationId.value = conversation)
    (hsame : (rows.filter fun d => !d.state.terminal) = L.filter (openIn conversation)) :
    (o.paused = false → ∃ attempts, c.round
      ((overwriteAll Delivery.key L o.writes).filter (openIn conversation)) =
        .stop attempts false) ∧
    ∀ other, other ≠ conversation →
      (overwriteAll Delivery.key L o.writes).filter (openIn other) = L.filter (openIn other) := by
  induction h generalizing L with
  | @stop _ _ attempts paused hround =>
    refine ⟨fun hpaused => ⟨attempts, ?_⟩, fun _ _ => rfl⟩
    obtain rfl : paused = false := hpaused
    rw [overwriteAll_nil, ← hsame]
    exact round_filter hround
  | @claim _ rows place message head delay o hround _ _ ih =>
    obtain ⟨hn, -⟩ := getElem?_of_round hround
    obtain ⟨hstep, hothers⟩ := filter_overwrite_claimedRow delay hL hrows hconv hsame hround
    have hkeys : ((rows.set place (c.claimedRow message delay head)).map Delivery.key).Nodup := by
      rw [set_eq_overwrite hrows hn (claimedRow_key c message delay head), map_key_overwrite]
      exact hrows
    have hconv' : ∀ r ∈ rows.set place (c.claimedRow message delay head),
        r.conversationId.value = conversation := by
      intro r hr
      rcases List.mem_or_eq_of_mem_set hr with hr | rfl
      · exact hconv r hr
      · exact hconv head (List.mem_of_getElem? hn)
    obtain ⟨hsettled, hrest⟩ := ih (by rw [map_key_overwrite]; exact hL) hkeys hconv' hstep
    exact ⟨hsettled, fun other hne => (hrest other hne).trans (hothers other hne)⟩

lemma ClaimsAll.settles {groups : List (ℕ × List Delivery)} (h : c.ClaimsAll groups o)
    (hL : (L.map Delivery.key).Nodup) (hgroups : ∀ g ∈ groups, g.2 = L.filter (openIn g.1))
    (hnodup : (groups.map Prod.fst).Nodup) :
    (o.paused = false → ∀ g ∈ groups, ∃ attempts, c.round
      ((overwriteAll Delivery.key L o.writes).filter (openIn g.1)) = .stop attempts false) ∧
    ∀ other, other ∉ groups.map Prod.fst →
      (overwriteAll Delivery.key L o.writes).filter (openIn other) = L.filter (openIn other) := by
  induction groups generalizing L o with
  | nil =>
    obtain rfl := h
    exact ⟨by simp, fun _ _ => rfl⟩
  | cons g rest ih =>
    obtain ⟨o1, h1, hrest⟩ := h
    obtain ⟨hg, hnodup⟩ := List.nodup_cons.1 hnodup
    have hrows := hgroups g (by simp)
    have hopen : ∀ r ∈ g.2, r.state.terminal = false ∧ r.conversationId.value = g.1 := by
      intro r hr
      rw [hrows] at hr
      exact openIn_iff.1 (List.mem_filter.1 hr).2
    have hfilter : (g.2.filter fun d => !d.state.terminal) = L.filter (openIn g.1) := by
      rw [← hrows, List.filter_eq_self]
      exact fun r hr => by simp [(hopen r hr).1]
    have hkeys : (g.2.map Delivery.key).Nodup :=
      hrows ▸ hL.sublist (List.filter_sublist.map Delivery.key)
    obtain ⟨hsettled, hothers⟩ := h1.settles hL hkeys (fun r hr => (hopen r hr).2) hfilter
    split at hrest
    · rename_i hpaused
      obtain rfl := hrest
      refine ⟨fun hnot => by simp [hpaused] at hnot, fun other hother => hothers other ?_⟩
      rintro rfl
      exact hother (by simp)
    · rename_i hpaused
      obtain ⟨o2, h2, rfl⟩ := hrest
      -- the groups that are left are those of the rows as the first loop leaves them
      have hgroups' : ∀ g' ∈ rest,
          g'.2 = (overwriteAll Delivery.key L o1.writes).filter (openIn g'.1) := by
        intro g' hg'
        rw [hothers g'.1 fun heq => hg (heq ▸ List.mem_map_of_mem hg')]
        exact hgroups g' (List.mem_cons_of_mem g hg')
      obtain ⟨hsettled', hothers'⟩ := ih h2 (by rw [map_key_overwriteAll]; exact hL) hgroups'
        hnodup
      have happend : overwriteAll Delivery.key L (o1.append o2).writes =
          overwriteAll Delivery.key (overwriteAll Delivery.key L o1.writes) o2.writes :=
        overwriteAll_append _
      rw [happend]
      constructor
      · intro hpaused' g' hg'
        rcases List.mem_cons.1 hg' with rfl | hg'
        · rw [hothers' g'.1 hg]
          exact hsettled (by simpa using hpaused)
        · exact hsettled' hpaused' g' hg'
      · intro other hother
        simp only [List.map_cons, List.mem_cons, not_or] at hother
        rw [hothers' other hother.2, hothers other hother.1]

/-- **A claim that is not paused leaves nothing to claim.** -/
lemma ClaimsAll.settled (h : c.ClaimsAll (byConversation L).toList o)
    (hL : (L.map Delivery.key).Nodup) (hpaused : o.paused = false) :
    c.Settled (overwriteAll Delivery.key L o.writes) := by
  obtain ⟨hsettled, hothers⟩ := h.settles hL (fun g hg => snd_of_mem_byConversation hg)
    (OrderedMap.nodup_keys_toList _)
  intro conversation
  by_cases hmem : conversation ∈ (byConversation L).toList.map Prod.fst
  · obtain ⟨g, hg, rfl⟩ := List.mem_map.1 hmem
    exact hsettled hpaused g hg
  · -- a conversation without a group has no open row
    have hnone : (byConversation L)[conversation]? = none := by
      cases hlook : (byConversation L)[conversation]? with
      | none => rfl
      | some rows =>
        exact absurd (List.mem_map_of_mem (f := Prod.fst) (OrderedMap.mem_toList.2 hlook)) hmem
    have hempty : L.filter (openIn conversation) = [] := by
      have hfilter := getElem?_byConversation L conversation
      rw [hnone, Option.getD_none] at hfilter
      exact hfilter.symm
    exact ⟨[], by rw [hothers conversation hmem, hempty]; rfl⟩

lemma Settled.round (h : c.Settled L) {g : ℕ × List Delivery}
    (hg : g ∈ (byConversation L).toList) : ∃ attempts, c.round g.2 = .stop attempts false := by
  rw [snd_of_mem_byConversation hg]
  exact h g.1

lemma Settled.claimsAll (h : c.Settled L) :
    ∃ attempts, c.ClaimsAll (byConversation L).toList ⟨[], attempts, false⟩ := by
  have hgroups := fun g => h.round (g := g)
  generalize (byConversation L).toList = groups at hgroups
  induction groups with
  | nil => exact ⟨[], rfl⟩
  | cons g rest ih =>
    obtain ⟨attempts, hround⟩ := hgroups g (by simp)
    obtain ⟨attempts', hrest⟩ := ih fun g' hg' => hgroups g' (List.mem_cons_of_mem g hg')
    refine ⟨attempts ++ attempts', ⟨[], attempts, false⟩, ?_, ?_⟩
    · rw [Nat.add_right_comm]
      exact Claims.stop hround
    · rw [if_neg (by simp)]
      exact ⟨⟨[], attempts', false⟩, hrest, rfl⟩

lemma Settled.attempts_of_accepting (h : c.Settled L) (hsink : ∀ a, c.sink a = .accepted)
    (hclaims : c.ClaimsAll (byConversation L).toList o) : o.attempts = [] := by
  refine hclaims.rule (P := fun o => o.attempts = []) rfl (fun h h' => ?_) fun g hg _ _ hone => ?_
  · simp [ClaimOutcome.append, h, h']
  · obtain ⟨attempts, hround⟩ := h.round hg
    obtain rfl := hone.of_stop hround
    exact (round_stop_of_accepting hsink hround).1

end Claiming

end MuduoChat
