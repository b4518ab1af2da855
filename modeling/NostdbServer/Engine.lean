import NostdbServer.Effects.Files
import NostdbServer.Failure

/-!
# The engine

The values that cross the boundary to the embedded engine, and what the daemon
relies on of it. The engine itself is a parameter: what it makes of a file
depends on the content.
-/

namespace NostdbServer

open Effects

inductive EdgeKind
  | directed
  | undirected
  | bidirectional
  deriving DecidableEq, Repr

/-- `QueryValue`. A float is given by its bits, the state of a node by its name. -/
inductive QueryValue
  | null
  | boolean (value : Bool)
  | integer (value : Int)
  | float (bits : UInt64)
  | string (value : String)
  | bytes (value : Bytes)
  | duration (nanoseconds : Int)
  | list (values : List QueryValue)
  | map (values : List (String × QueryValue))
  | node (id : Nat) (state : String) (labels : List String)
      (properties : List (String × QueryValue))
  | edge (id : Nat) (kind : EdgeKind) (source target : Nat) (relationshipType : Option String)
      (properties : List (String × QueryValue))

structure QueryResult where
  columns : List String
  rows : List (List QueryValue)
  ordered : Bool

structure WriteSummary where
  nodesCreated : Nat
  edgesCreated : Nat
  nodesDeleted : Nat
  edgesDeleted : Nat
  propertiesSet : Nat
  propertiesRemoved : Nat

structure WriteResult where
  summary : WriteSummary
  result : Option QueryResult

inductive StatementResult
  | read (result : QueryResult)
  | write (result : WriteResult)

/-- A query with its converted parameters. -/
structure Statement where
  query : String
  parameters : List (String × QueryValue)

structure QueryLimits where
  maxRows : Nat
  maxMemoryBytes : Nat
  maxOperations : Nat
  maxTraversals : Nat
  deriving DecidableEq, Repr

/-- `EmbeddedDatabase`, by the content it is open on. -/
structure Database where
  content : Bytes
  deriving DecidableEq, Repr

structure DatabaseInfo where
  ndbFormatVersion : Nat
  schemaRevision : Nat
  generation : Nat
  logicalChecksum : Nat

structure DatabaseCounts where
  schemas : Nat
  nodes : Nat
  edges : Nat

structure LogicalModule where
  path : String
  moduleId : String
  source : String

structure LogicalPackage where
  packageVersion : Nat
  settings : String
  modules : List LogicalModule

/-- The calls that only look at an open Database. -/
inductive Inspection
  | info
  | counts
  | check
  | exportLogical

def Inspection.Ans : Inspection → Type
  | .info => Except DatabaseError DatabaseInfo
  | .counts => Except DatabaseError DatabaseCounts
  | .check => Except DatabaseError Bool
  | .exportLogical => Except String LogicalPackage

/-- The engine as the daemon uses it. Checkpoints change no content; `failure`
is the error behind a reported message; `preparesWrite` is whether
`prepare_write` accepts a query. The two `execute` fields return the content
they commit. `lockFile` is what is left in the `.lock` sidecar of a file that
was opened. -/
structure Engine where
  accepts : Bytes → Except String Unit
  check : Bytes → Except String Bool
  adopt : Bytes → Except String Bytes
  created : Bytes
  sourceEnabled : Bytes → Except String Bool
  preparesWrite : String → Bool
  execute : Statement → QueryLimits → Bytes → Except DatabaseError (StatementResult × Bytes)
  executeTransaction : List Statement → QueryLimits → Bytes →
    Except DatabaseError (List StatementResult × Bytes)
  inspect : (i : Inspection) → Bytes → i.Ans
  failure : String → DatabaseError
  lockFile : Option Bytes

def Engine.failedInspection (E : Engine) (message : String) : (i : Inspection) → i.Ans
  | .info => .error (E.failure message)
  | .counts => .error (E.failure message)
  | .check => .error (E.failure message)
  | .exportLogical => .error message

/-- An engine that takes every file as it is and answers statements with
nothing; the least a daemon can run on. -/
def Engine.plain : Engine where
  accepts _ := .ok ()
  check _ := .ok true
  adopt content := .ok content
  created := [0]
  sourceEnabled _ := .ok false
  preparesWrite _ := false
  execute _ _ content := .ok (.read ⟨[], [], true⟩, content)
  executeTransaction statements _ content :=
    .ok (statements.map fun _ => .read ⟨[], [], true⟩, content)
  inspect
    | .info, _ => .ok ⟨1, 1, 0, 0⟩
    | .counts, _ => .ok ⟨0, 0, 0⟩
    | .check, _ => .ok true
    | .exportLogical, _ => .ok ⟨1, "", []⟩
  failure := .storage .other
  lockFile := none

end NostdbServer
