import MuduoChat.Store.MySQL
import MuduoChat.Gateway.System
import MuduoChat.Lib.Parallel

/-!
# Gateways over one MySQL ledger

Several server processes share one database.  The mutex of an instance of reliable messaging
orders the operations of its own process only, so the operations of different processes are
interleaved.  Seen from outside the store they are interleaved at the calls of the store, each
of which is one step here; the statements inside a call are taken from its program.
-/

namespace MuduoChat

open Std Relation

/-- What a process has learned of delivery rows, or done to them: it has read rows, or it has
written one. -/
inductive RowEvent (ι : Type) where
  | read (who : ι) (rows : List Delivery)
  | wrote (who : ι) (row : Delivery)

/-- The shared database, the contexts of accepts, and everything outside the store.  The
in-memory store of `World` has no part in this.  The log is a record of what has happened to
delivery rows, with the latest entry first. -/
structure Cluster (ι : Type) where
  db : Database ι := {}
  tx : ι → AcceptTx := fun _ => {}
  world : World ι := {}
  log : List (RowEvent ι) := []

/-- What the surroundings choose at a call: the fate of a statement, an exception of the hook
or of the sink, and the rest as before. -/
structure ClusterEnv where
  sql : SqlEnv := {}
  hook : Option Fault := none
  sink : Option Fault := none
  base : Env := {}

instance : Inhabited ClusterEnv := ⟨{}⟩

def readEvents {ι : Type} (i : ι) : Except Fault (List Delivery) → List (RowEvent ι)
  | .ok rows => [.read i rows]
  | .error _ => []

def rowEvents {ι : Type} (i : ι) : (c : StoreCall) → Except Fault c.Value → List (RowEvent ι)
  | .updateDelivery delivery, .ok _ => [.wrote i delivery]
  | .updateDelivery _, .error _ => []
  | .deliveriesByRecipient _, r => readEvents i r
  | .deliveriesByMessage _, r => readEvents i r
  | .deliveriesDueForRetry _ _, r => readEvents i r
  | _, _ => []

namespace Cluster

variable {ι : Type} [DecidableEq ι]

/-- Let what is outside the store answer a call. -/
def outside (i : ι) (c : Call) (ω : Env) (s : Cluster ι) :
    Option (Except Fault c.Value × Cluster ι) :=
  (World.handle i c ω s.world).map fun (r, w) => (r, { s with world := w })

/-- How the calls of a process are answered at the level of statements. -/
def handleWire (i : ι) : Handler Wire (Cluster ι) ClusterEnv
  | .sql c, ω, s =>
    (Database.handle i c ω.sql s.db).map fun (r, db) =>
      (r.mapError Fault.store, { s with db := db })
  | .fire _, ω, s =>
    match ω.hook with
    | some e => some (.error e, s)
    | none => some (.ok (), s)
  | .getTx, _, s => some (.ok (s.tx i), s)
  | .setTx tx, _, s => some (.ok (), { s with tx := Function.update s.tx i tx })
  | .port (.store _), _, _ => none
  | .port (.deliver attempt), ω, s =>
    match ω.sink with
    | some e => some (.error e, s)
    | none => outside i (.deliver attempt) ω.base s
  | .port c, ω, s => outside i c ω.base s

/-- How the calls of a process are answered when each call of the store is one step. -/
def handle (fanOutCap : ℕ) (i : ι) : Handler Port (Cluster ι) (List ClusterEnv)
  | .store c, ωs, s =>
    ((MySQLMessageStore.perform fanOutCap c).eval (handleWire i) ωs s).map fun (r, s') =>
      (r, { s' with log := rowEvents i c r ++ s'.log })
  | c, ωs, s => handleWire i (.port c) ωs.headI s

/-- The state of a delivery row in the ledger. -/
def stateAt (s : Cluster ι) (k : RowKey) : Option DeliveryState := s.db.ledger.stateAt k

end Cluster

namespace Setup

variable {ι : Type} [DecidableEq ι] (S : Setup ι)

/-- The processes over one ledger, interleaved at the calls of the store. -/
def cluster (fanOutCap : ℕ) : Parallel Port ι (Cluster ι) (List ClusterEnv) Op Reply :=
  ⟨Cluster.handle fanOutCap, S.code⟩

/-- A state of the cluster: the shared state, and the operations in progress. -/
abbrev ClusterState (ι : Type) := Parallel.Config Port ι (Cluster ι) Op Reply

/-- The states that can be reached when the processes begin to work, whatever the ledger
contains by then. -/
def ClusterReachable (fanOutCap : ℕ) (a : ClusterState ι) : Prop :=
  ∃ s : Cluster ι, s.log = [] ∧
    ReflTransGen (S.cluster fanOutCap).Step (Parallel.Config.initial s) a

end Setup

end MuduoChat
