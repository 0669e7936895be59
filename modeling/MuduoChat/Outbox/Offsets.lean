import MuduoChat.Outbox.Handoff

/-!
# Committed offsets

An offset is committed for a partition only when every record before it, from the first cursor
of the consumer on, has been disposed of.  That holds for every broker, every handler and every
failure, since it holds of each entry that a consumer notes (`Stream.Recorded`).
-/

namespace MuduoChat

open Relation Parallel StreamSetup

/-- **A commit skips no record.**  Whenever a consumer commits an offset for a partition, each
record of the partition from its first cursor up to the offset has been disposed of before, and
the batch of the poll has not been given up. -/
theorem commit_skips_nothing {ι : Type} [DecidableEq ι] {T : StreamSetup ι}
    {a : StreamSetup.State ι} (ha : T.Reachable a) {i : ι} {newer older : List StreamEntry}
    {p c : ℤ} (hcommit : a.world.entriesOf i = newer ++ .committed p c :: older) :
    (∃ f, firstCursor older p = some f ∧
      ∀ r ∈ a.world.log p, f ≤ r.offset → r.offset < c →
        ∃ e ∈ older, (T.consumer i).Disposes (r.fetched p) e) ∧
      Stream.Unaborted older := by
  have hrec := ha.sound.inv.recorded i
  rw [hcommit] at hrec
  obtain ⟨-, ⟨f, hf, hcov⟩, hun⟩ := hrec.justified
  exact ⟨⟨f, hf, hcov.disposed⟩, hun⟩

/-- What the broker answers about a partition with two records and a gap between them. -/
def gapAnswer : StreamEnv where
  partitions := [0]
  offsets := [(0, 0)]
  codes := [(0, 0)]
  response :=
    [{ partition := 0, batches := some [{ baseOffset := 0, records := [(0, "?"), (4, "!")] }] }]

/-- Two records come into the topic, and a consumer reads them.  They are no JSON, so they are to be
stored as dead letters.  That fails in the first poll and succeeds in the second one. -/
def deadLettered : StreamSetup.State Bool :=
  StreamSetup.pair.system.play (Config.initial {})
    [{ who := true, op := some (.produce 0 0 "?"), env := {} },
     { who := true, op := some (.produce 0 3 "!"), env := {} },
     { who := false, op := some .poll, env := { gapAnswer with deadLetter := some .std } },
     { who := false, op := some .poll, env := gapAnswer }]

theorem commit_skips_nothing_deadLettered :
    ∃ older, deadLettered.world.entriesOf false = .committed 0 5 :: older ∧
      ∀ r ∈ [⟨0, 0, "?"⟩, ⟨0, 4, "!"⟩],
        ∃ e ∈ older, (StreamSetup.pair.consumer false).Disposes r e := by
  have hreach : StreamSetup.pair.Reachable deadLettered :=
    ⟨{}, Stream.initial_empty, reaches_play _ _⟩
  have hentries : deadLettered.world.entriesOf false =
      [] ++ .committed 0 5 :: (deadLettered.world.entriesOf false).tail := by decide +kernel
  obtain ⟨⟨f, hf, hdisp⟩, -⟩ := commit_skips_nothing hreach hentries
  have hfirst : firstCursor (deadLettered.world.entriesOf false).tail 0 = some 0 := by
    decide +kernel
  obtain rfl := Option.some.inj (hfirst.symm.trans hf)
  have hlog : deadLettered.world.log 0 = [⟨0, "?"⟩, ⟨4, "!"⟩] := by decide +kernel
  rw [hlog] at hdisp
  exact ⟨_, hentries, by simpa [LogRecord.fetched] using hdisp⟩

end MuduoChat
