import MuduoChat.Cluster.SnapshotSpec
import MuduoChat.Gateway.Runs

/-!
# Acknowledgements in a cluster

A process that has read a row writes all of it back later, whatever another process has done
to it since.  An acknowledgement that falls in between is lost.  Where no row is written back
that another process has acknowledged in the meantime, acknowledgements last.
-/

namespace MuduoChat

open Std Prog Relation Parallel

variable {ι : Type} [DecidableEq ι] (S : Setup ι) (fanOutCap : ℕ)

lemma Setup.snapshots : (S.cluster fanOutCap).Verified Cluster.Tracked snapshotRely snapshotAllow
    True fun _ _ _ _ => True where
  refl := fun _ _ _ => rfl
  trans := fun _ _ _ _ => snapshotRely_trans
  keeps := fun _ _ _ _ _ _ hs _ h => hs.step h
  leaves := fun _ _ _ _ _ _ _ hij _ _ h => Cluster.snapshotRely_of_handle hij h
  lasting := fun _ _ _ _ _ _ _ _ _ _ _ _ h => h
  obeys := fun _ op s _ => (careful_code op s).mono fun _ _ _ _ => trivial

variable {S fanOutCap} {a b : Setup.ClusterState ι}

lemma Setup.ClusterReachable.sound (ha : S.ClusterReachable fanOutCap a) :
    (S.cluster fanOutCap).Sound Cluster.Tracked snapshotRely snapshotAllow True
      (fun _ _ _ _ => True) a := by
  obtain ⟨s, hlog, hrun⟩ := ha
  refine (S.snapshots fanOutCap).sound (Sound.initial ?_) hrun
  intro i k hseen
  simp [hlog, seenOpen] at hseen

lemma Setup.ClusterReachable.step (ha : S.ClusterReachable fanOutCap a)
    (h : (S.cluster fanOutCap).Step a b) : S.ClusterReachable fanOutCap b := by
  obtain ⟨s, hlog, hrun⟩ := ha
  exact ⟨s, hlog, hrun.tail h⟩

/-- The step does not write back a row that another process has acknowledged since this one
has last read or written it. -/
def upToDate (a : Setup.ClusterState ι) : Choice ι (List ClusterEnv) Op → Bool
  | .invoke _ _ => true
  | .advance i _ =>
    match a.running i with
    | some ⟨_, .call (.store (.updateDelivery d)) _⟩ =>
      d.state = .acknowledged || !overtaken i (rowKey d) a.world.log
    | _ => true

/-- The step lemma: what is acknowledged stays so, or is removed. -/
lemma acknowledged_next {l : Choice ι (List ClusterEnv) Op}
    (ha : S.ClusterReachable fanOutCap a) (hl : upToDate a l = true)
    (h : (S.cluster fanOutCap).next a l = some b) {k : RowKey}
    (hacked : a.world.stateAt k = some .acknowledged) :
    b.world.stateAt k = some .acknowledged ∨ b.world.stateAt k = none := by
  rcases next_cases h with ⟨i, op, -, -, rfl⟩ | ⟨i, ω, op, v, -, -, rfl⟩ |
    ⟨i, ω, op, e, -, -, rfl⟩ | ⟨i, ω, op, c, f, r, w, rfl, hr, hw, rfl⟩
  · exact .inl hacked
  · exact .inl hacked
  · exact .inl hacked
  rcases Cluster.handle_cases hw with ⟨hkept, -⟩ | ⟨d, led, rfl, -, hgrows, hrow⟩
  · exact hkept.kept k hacked
  by_cases hk : rowKey d = k
  · rcases Cluster.stateAt_written hk (hrow k) with hst | hst
    · -- a row that is not acknowledged is written by a process that has not been overtaken
      by_cases hd : d.state = .acknowledged
      · exact .inl (hd ▸ hst)
      · have hopen : seenOpen i (rowKey d) a.world.log = true :=
          (ha.sound.allowed (fun _ _ _ => rfl) hr d rfl).resolve_left hd
        have hover := ha.sound.inv i (rowKey d) hopen (hk ▸ hacked)
        simp [upToDate, hr, hd, hover] at hl
    · exact .inr hst
  · left
    have hsame : w.stateAt k = led.stateAt k := by
      rw [Cluster.stateAt, Ledger.stateAt, hrow k, if_neg fun hand => hk hand.1]
      rfl
    exact hsame.trans ((hgrows.acknowledged_iff k).2 hacked)

/-- **Acknowledgements last.**  From every state that a cluster can reach, an acknowledged row
stays acknowledged for as long as it is there, along every run in which no process writes back
a row that another one has acknowledged since it has last read or written it. -/
theorem acknowledgement_kept {ι : Type} [DecidableEq ι] {S : Setup ι} {fanOutCap : ℕ}
    {a b : Setup.ClusterState ι} (ha : S.ClusterReachable fanOutCap a) {k : RowKey}
    (hacked : a.world.stateAt k = some .acknowledged)
    (hrun : ReflTransGen (fun x y => (∃ l, upToDate x l = true ∧
      (S.cluster fanOutCap).next x l = some y) ∧ y.world.stateAt k ≠ none) a b) :
    b.world.stateAt k = some .acknowledged := by
  suffices h : S.ClusterReachable fanOutCap b ∧ b.world.stateAt k = some .acknowledged from h.2
  induction hrun with
  | refl => exact ⟨ha, hacked⟩
  | tail _ hstep ih =>
    obtain ⟨⟨l, hl, hnext⟩, hpresent⟩ := hstep
    obtain ⟨hreach, hk⟩ := ih
    refine ⟨hreach.step ⟨l, hnext⟩, ?_⟩
    exact (acknowledged_next hreach hl hnext hk).resolve_right hpresent

/-! ### Runs of two processes -/

/-- The choices of the surroundings in which nothing fails and the sink accepts. -/
def calm (now : ℤ) : List ClusterEnv :=
  List.replicate 30 { base := { now := now, disposition := .accepted } }

/-- One process has delivered a message and acknowledged it, and has then delivered a second
one.  The other process, to which the recipient has moved, has read both rows and is about to
take back the lease of the second one. -/
def aboutToTakeOver : Setup.ClusterState Bool :=
  (Setup.pair.cluster 100).play (Config.initial {})
    [{ who := true, op := some (.accept ⟨⟨1⟩, 1⟩ (directTo 2 ⟨"k", by decide⟩)), env := calm 1000000 },
     { who := true, op := some (.sessionAvailable ⟨⟨2⟩, 1⟩), env := calm 1000000 },
     { who := true, op := some (.acknowledge ⟨⟨2⟩, 1⟩ ⟨1⟩), env := calm 1000000 },
     { who := true, op := some (.accept ⟨⟨1⟩, 1⟩ (directTo 2 ⟨"l", by decide⟩)), env := calm 1000000 },
     { who := false, op := some (.sessionAvailable ⟨⟨2⟩, 2⟩), env := calm 1000000, steps := 3 }]

/-- The second row has been written back as pending, the first one is still acknowledged. -/
theorem acknowledgement_kept_takingOver :
    ∃ b, (Setup.pair.cluster 100).next aboutToTakeOver (.advance false (calm 1000000)) = some b ∧
      b.world.stateAt ⟨2, 2⟩ = some .pending ∧ b.world.stateAt ⟨1, 2⟩ = some .acknowledged := by
  have hnext : (Setup.pair.cluster 100).next aboutToTakeOver (.advance false (calm 1000000)) =
      some (((Setup.pair.cluster 100).next aboutToTakeOver
        (.advance false (calm 1000000))).get (by decide +kernel)) :=
    (Option.some_get _).symm
  refine ⟨_, hnext, by decide +kernel, ?_⟩
  have hreach : Setup.pair.ClusterReachable 100 aboutToTakeOver := ⟨{}, rfl, reaches_play _ _⟩
  refine acknowledgement_kept hreach (by decide +kernel) (.single ⟨⟨_, ?_, hnext⟩, ?_⟩)
  · decide +kernel
  · decide +kernel

/-- One process delivers a message and the other one, to which the recipient has moved, has
read the row.  Then the first one acknowledges it. -/
def acknowledgedMeanwhile : Setup.ClusterState Bool :=
  (Setup.pair.cluster 100).play (Config.initial {})
    [{ who := true, op := some (.accept ⟨⟨1⟩, 1⟩ (directTo 2 ⟨"k", by decide⟩)), env := calm 1000000 },
     { who := true, op := some (.sessionAvailable ⟨⟨2⟩, 1⟩), env := calm 1000000 },
     { who := false, op := some (.sessionAvailable ⟨⟨2⟩, 2⟩), env := calm 1000000, steps := 3 },
     { who := true, op := some (.acknowledge ⟨⟨2⟩, 1⟩ ⟨1⟩), env := calm 1000000 }]

lemma reachable_acknowledgedMeanwhile :
    Setup.pair.ClusterReachable 100 acknowledgedMeanwhile :=
  ⟨{}, rfl, reaches_play _ _⟩

/-- The next step of the second process writes the acknowledged row back as pending. -/
theorem acknowledgement_lost :
    Setup.pair.ClusterReachable 100 acknowledgedMeanwhile ∧
      acknowledgedMeanwhile.world.stateAt ⟨1, 2⟩ = some .acknowledged ∧
      ∃ b, (Setup.pair.cluster 100).Step acknowledgedMeanwhile b ∧
        b.world.stateAt ⟨1, 2⟩ = some .pending := by
  refine ⟨reachable_acknowledgedMeanwhile, by decide +kernel,
    ((Setup.pair.cluster 100).next acknowledgedMeanwhile (.advance false (calm 1000000))).get
      (by decide +kernel), ⟨_, (Option.some_get _).symm⟩, by decide +kernel⟩

end MuduoChat
