import MuduoChat.Lib.Atomic
import MuduoChat.Outbox.Contract

/-!
# A relay marks what has been published

A scan marks an event only after the publisher has answered `ok` for it, whatever the other
relays do in between.
-/

namespace MuduoChat

open Prog OutboxCode

variable {α : Type} {P : OutboxCall → Prop}

lemma calls_ask {c : OutboxCall} (h : P c) : (ask c).Calls P := Calls.ask h

lemma calls_catchStd {p q : OutboxCode α} (hp : p.Calls P) (hq : q.Calls P) :
    (catchStd p q).Calls P := by
  refine Calls.tryCatch hp fun e => ?_
  cases e with
  | std => exact hq
  | other => trivial

lemma calls_catchAll {p q : OutboxCode α} (hp : p.Calls P) (hq : q.Calls P) :
    (catchAll p q).Calls P :=
  Calls.tryCatch hp fun _ => hq

namespace LocalOutboxRelay

open MuduoChat.Stream StreamSetup

/-! ### The calls of a relay -/

def RelayCall : OutboxCall → Prop
  | .nowMs | .claimOutboxEvents .. | .findMessage _ | .publish .. | .markOutboxProcessed ..
  | .countUnprocessedOutboxEvents | .record _ => True
  | _ => False

/-- Those that need no justification. -/
def FreeRelayCall (c : OutboxCall) : Prop := RelayCall c ∧ Free c

lemma scanLocked_calls (relay : LocalOutboxRelay) : relay.scanLocked.Calls FreeRelayCall := by
  have hrequests (claimed : List OutboxEvent) :
      (relay.requestsFor claimed).Calls FreeRelayCall := by
    induction claimed with
    | nil => trivial
    | cons e claimed ih =>
      refine Calls.bind (calls_catchStd (calls_ask ⟨trivial, trivial⟩) trivial) fun msg => ?_
      cases msg with
      | none => exact Calls.bind (calls_ask ⟨trivial, trivial⟩) fun _ => ih
      | some m => exact Calls.bind ih fun _ => trivial
  exact Calls.bind (calls_ask ⟨trivial, trivial⟩) fun _ =>
    Calls.bind (calls_ask ⟨trivial, relay.owner_ne⟩) fun _ =>
      Calls.bind (hrequests _) fun _ => trivial

lemma updateLag_calls : updateLag.Calls FreeRelayCall :=
  calls_catchAll (Calls.bind (calls_ask ⟨trivial, trivial⟩) fun _ =>
    calls_ask ⟨trivial, trivial⟩) trivial

lemma publishAll_calls (relay : LocalOutboxRelay) (requests : List OutboxPublishRequest) :
    (relay.publishAll requests).Calls FreeRelayCall := by
  have hpoison : ∀ _ : OutboxPublishRequest, (ask (.record .poison)).Calls FreeRelayCall :=
    fun _ => calls_ask ⟨trivial, trivial⟩
  refine Calls.bind (calls_catchStd (calls_ask ⟨trivial, trivial⟩) ?_) fun _ => trivial
  exact Calls.bind (Calls.forEach hpoison requests) fun _ => trivial

lemma markOne_calls (outcomes : List OutboxPublishOutcome) (x : OutboxPublishRequest × ℕ) :
    (markOne outcomes x).Calls RelayCall :=
  Calls.ite (calls_catchStd (Calls.bind (calls_ask trivial) fun _ => calls_ask trivial)
    (calls_ask trivial)) (calls_ask trivial)

lemma runScan_calls (relay : LocalOutboxRelay) : relay.runScan.Calls RelayCall := by
  have hlag : updateLag.Calls RelayCall := updateLag_calls.mono fun _ h => h.1
  refine Calls.bind ((scanLocked_calls relay).mono fun _ h => h.1) fun plan =>
    Calls.bind (Calls.ite hlag (Calls.bind ?_ fun outcomes => Calls.bind ?_ fun _ => hlag))
      fun _ => trivial
  · exact (publishAll_calls relay _).mono fun _ h => h.1
  · exact Calls.forEach (markOne_calls outcomes) _

/-! ### What a relay marks -/

variable {ι : Type} [DecidableEq ι] {T : StreamSetup ι} {i : ι} {w : Stream ι}

lemma sat_of_free {p : OutboxCode α} (hp : p.Calls Free) (w : Stream ι) :
    p.Sat (T.contract i) (Ends fun _ w' => w.history <:+ w'.history) w := by
  have hsat := hp.sat (C := T.contract i) (R := fun w w' => w.history <:+ w'.history) trivial
    (fun c s hc => Allow.of_free hc) (fun h h' => h.trans h') (fun _ _ h => h.history)
    (fun c ω s r s1 _ h => by
      obtain ⟨es, -, -, hes⟩ := (moves_of_handle h).history
      exact ⟨_, hes.symm⟩) w
  refine hsat.mono fun r w' _ h => ?_
  cases r with
  | ok a => exact h
  | error e => trivial

lemma publishAll_spec (relay : LocalOutboxRelay) (requests : List OutboxPublishRequest)
    (w : Stream ι) :
    (relay.publishAll requests).Sat (T.contract i) (Ends fun outcomes w' => outcomes = [] ∨
      outcomes.length = requests.length ∧ (i, .published requests outcomes) ∈ w'.history) w := by
  have hpoison : ∀ _ : OutboxPublishRequest, (ask (.record .poison)).Calls Free :=
    fun _ => calls_ask trivial
  refine Sat.ends_bind (Others.refl i)
    (P := fun outcomes w' => outcomes = [] ∨ (i, .published requests outcomes) ∈ w'.history)
    (Sat.tryCatch (Others.refl i) (Sat.ask fun w1 _ _ => ⟨Allow.of_free trivial, ?_⟩)) ?_
  · intro ω v w2 hv w3 h3 _
    have hv : handle T.partitionCount i (.publish requests relay.publishDeadlineMs) ω w1 =
      some (v, w2) := hv
    simp only [handle] at hv
    cases hp : ω.publish with
    | ok outcomes =>
      rw [hp] at hv
      cases hv
      exact .inr (h3.history.subset (by simp [note]))
    | error e =>
      rw [hp] at hv
      cases hv
      cases e with
      | std =>
        refine Sat.ends_bind (Others.refl i) (sat_of_free (Calls.forEach hpoison requests) w3) fun _ _ _ _ => ?_
        exact fun _ _ _ => .inl rfl
      | other => exact fun _ _ _ => trivial
  · intro outcomes w1 _ hout w2 h2 _
    show _ ∨ _
    split_ifs with hlen
    · exact .inl rfl
    · refine hout.imp_right fun hmem => ⟨not_not.1 hlen, h2.history.subset hmem⟩

/-- The events of requests that have an answer `ok` have been published. -/
def Confirmed (outcomes : List OutboxPublishOutcome) (xs : List (OutboxPublishRequest × ℕ))
    (w : Stream ι) : Prop :=
  ∀ x ∈ xs, ∀ outcome, outcomes[x.2]? = some outcome → outcome.ok = true →
    w.PublishedOk x.1.event.id

variable {outcomes : List OutboxPublishOutcome}

omit [DecidableEq ι] in
lemma Confirmed.mono
    {xs ys : List (OutboxPublishRequest × ℕ)} {w' : Stream ι} (h : Confirmed outcomes xs w)
    (hsub : ys ⊆ xs) (hw : w.history <:+ w'.history) : Confirmed outcomes ys w' :=
  fun x hx outcome ho hok => (h x (hsub hx) outcome ho hok).mono hw

omit [DecidableEq ι] in
lemma confirmed_of_published {requests : List OutboxPublishRequest}
    (h : outcomes = [] ∨
      outcomes.length = requests.length ∧ (i, .published requests outcomes) ∈ w.history) :
    Confirmed outcomes requests.zipIdx w := by
  rintro ⟨request, k⟩ hx outcome ho hok
  rcases h with rfl | ⟨hlen, hmem⟩
  · simp at ho
  · exact ⟨i, requests, outcomes, hmem, hlen, k, request, outcome,
      List.mem_zipIdx_iff_getElem?.1 hx, ho, hok, rfl⟩

lemma markOne_spec {x : OutboxPublishRequest × ℕ}
    {xs : List (OutboxPublishRequest × ℕ)} (h : Confirmed outcomes (x :: xs) w) :
    (markOne outcomes x).Sat (T.contract i) (Ends fun _ w' => Confirmed outcomes xs w') w := by
  -- what follows only adds to the history
  have hrest {p : OutboxCode Unit} (hp : p.Calls Free) {w1 : Stream ι}
      (h1 : w.history <:+ w1.history) :
      p.Sat (T.contract i) (Ends fun _ w' => Confirmed outcomes xs w') w1 :=
    (sat_of_free hp w1).ends_mono fun _ _ _ h2 =>
      h.mono (List.subset_cons_self _ _) (h1.trans h2)
  have hpoison : (ask (.record .poison)).Calls Free := calls_ask trivial
  refine Sat.ite (fun hok => ?_) fun _ => hrest hpoison (List.suffix_refl _)
  obtain ⟨outcome, ho, hok⟩ : ∃ outcome, outcomes[x.2]? = some outcome ∧ outcome.ok = true := by
    cases ho : outcomes[x.2]? with
    | none => simp [ho] at hok
    | some outcome => exact ⟨outcome, rfl, by simpa [ho] using hok⟩
  refine Sat.tryCatch (Others.refl i) (Sat.ask_bind fun w1 h1 _ =>
    ⟨Allow.of_free trivial, fun ω v w2 hv => ?_⟩)
  cases hv
  have hconf := (h x (by simp) outcome ho hok).mono h1.history
  refine Sat.ask fun w3 h3 _ => ⟨⟨fun e he => he.elim, ?_, by rintro _ _ _ _ ⟨⟩⟩,
    fun ω' v w4 hv w5 h5 _ => ?_⟩
  · rintro n now ⟨⟩
    exact hconf.mono h3.history
  · cases hv
    exact h.mono (List.subset_cons_self _ _) (h1.history.trans (h3.history.trans h5.history))

lemma runScan_spec (relay : LocalOutboxRelay) (w : Stream ι) :
    relay.runScan.Sat (T.contract i) (Ends fun _ _ => True) w := by
  have hlag (w : Stream ι) : updateLag.Sat (T.contract i) (Ends fun _ _ => True) w :=
    (sat_of_free (updateLag_calls.mono fun _ h => h.2) w).ends_mono fun _ _ _ _ => trivial
  have hscan : relay.scanLocked.Calls Free := (scanLocked_calls relay).mono fun _ h => h.2
  refine Sat.ends_bind (Others.refl i) (sat_of_free hscan w) fun plan w1 _ _ => ?_
  refine Sat.ends_bind (P := fun _ _ => True) (Others.refl i) ?_ fun _ _ _ _ => fun _ _ _ => trivial
  refine Sat.ite (fun _ => hlag w1) fun _ => ?_
  refine Sat.ends_bind (Others.refl i) (publishAll_spec relay plan.requests w1) ?_
  intro outcomes w2 _ hout
  refine Sat.ends_bind (Others.refl i) (Sat.ends_forEach (P := Confirmed outcomes)
    (Others.refl i) ?_ (fun x xs w3 h3 => markOne_spec h3) _ w2 (confirmed_of_published hout))
    fun _ w3 _ _ => hlag w3
  exact fun s s1 hs h => h.mono (List.Subset.refl _) hs.history

lemma runScan_obeys (relay : LocalOutboxRelay) (h : T.AtRest i w) :
    relay.runScan.Sat (T.contract i) (fun _ w' => T.AtRest i w') w := by
  have hrests := (runScan_calls relay).sat
    (C := T.system.contract T.Inv Others (fun _ _ _ => True) True i)
    (R := fun w w' => T.AtRest i w → T.AtRest i w') trivial (fun _ _ _ => trivial)
    (fun h1 h2 h => h2 (h1 h)) (fun _ _ hw h => h.others hw)
    (fun c ω s r s1 hc hr h => by
      refine h.moves (moves_of_handle hr) ?_ ?_
      · intro positions hnote
        cases c <;> first | exact hnote.elim | exact hc.elim
      · rintro s rfl
        exact hc.elim) w
  have hmarks : relay.runScan.Sat (T.contract i) (Ends fun _ _ => True) w := runScan_spec relay w
  refine (Sat.and ?_ ?_ ?_ ?_ ?_ hmarks hrests).mono fun r w' _ hr => hr.2 h
  · exact fun _ _ _ _ hr => ⟨hr, hr⟩
  · exact fun _ _ hr => ⟨hr, hr⟩
  · exact fun _ hs => ⟨hs, hs⟩
  · exact fun _ _ _ hc _ => hc
  · exact fun h _ => h

end LocalOutboxRelay

end MuduoChat
