import Mathlib.Algebra.Group.Nat.Defs
import NostdbServer.Engine
import NostdbServer.Protocol.Messages

/-!
# Values on the wire

The conversion of JSON parameters into values of the engine and of results into
JSON. Objects made by `json!` list their fields by name, since the map behind
them is ordered. `u64 as f64` is a parameter.
-/

namespace NostdbServer

namespace JsonNumber

def asI64 : JsonNumber → Option Int
  | .posInt n => if n < 2 ^ 63 then some n else none
  | .negInt i => some i
  | .float _ => none

def asF64 (floatOfInt : Int → UInt64) : JsonNumber → Option UInt64
  | .posInt n => some (floatOfInt n)
  | .negInt i => some (floatOfInt i)
  | .float bits => some bits

end JsonNumber

section
variable (floatOfInt : Int → UInt64)

mutual

def queryValue : Json → Except String QueryValue
  | .null => .ok .null
  | .bool value => .ok (.boolean value)
  | .number value =>
    match value.asI64 with
    | some value => .ok (.integer value)
    | none =>
      match value.asF64 floatOfInt with
      | some bits => .ok (.float bits)
      | none => .error "parameter number is outside the supported range"
  | .string value => .ok (.string value)
  | .array values => (queryValues values).map .list
  | .object values => (parameters values).map .map

def queryValues : List Json → Except String (List QueryValue)
  | [] => .ok []
  | value :: rest =>
    match queryValue value with
    | .error message => .error message
    | .ok value => (queryValues rest).map (value :: ·)

def parameters : WireParameters → Except String (List (String × QueryValue))
  | [] => .ok []
  | (name, value) :: rest =>
    match queryValue value with
    | .error message => .error message
    | .ok value => (parameters rest).map ((name, value) :: ·)

end

end

def EdgeKind.name : EdgeKind → String
  | .directed => "directed"
  | .undirected => "directionless"
  | .bidirectional => "bidirectional"

def hex (bytes : List UInt8) : String :=
  String.ofList (bytes.flatMap fun byte =>
    [Json.hexDigit (byte.toNat / 16), Json.hexDigit byte.toNat])

mutual

def queryValueJson : QueryValue → Json
  | .null => .null
  | .boolean value => .bool value
  | .integer value => .int value
  | .float bits => .float bits
  | .string value => .string value
  | .bytes value => .string (hex value)
  | .duration nanoseconds => .object [("nanoseconds", .int nanoseconds)]
  | .list values => .array (queryValuesJson values)
  | .map values => .object (propertiesJson values)
  | .node id state labels properties => .object
    [("id", .nat id), ("labels", .strings labels), ("properties", .object (propertiesJson properties)),
      ("state", .string (String.ofList (state.toList.map Char.toLower)))]
  | .edge id kind source target relationshipType properties => .object
    [("id", .nat id), ("kind", .string kind.name),
      ("properties", .object (propertiesJson properties)), ("source", .nat source),
      ("target", .nat target),
      ("type", match relationshipType with | some name => .string name | none => .null)]

def queryValuesJson : List QueryValue → List Json
  | [] => []
  | value :: rest => queryValueJson value :: queryValuesJson rest

def propertiesJson : List (String × QueryValue) → List (String × Json)
  | [] => []
  | (name, value) :: rest => (name, queryValueJson value) :: propertiesJson rest

end

def queryResult (result : QueryResult) : Json := .object
  [("columns", .strings result.columns), ("ordered", .bool result.ordered),
    ("rows", .array (result.rows.map fun row => .array (row.map queryValueJson)))]

def rowObject (columns : List String) (row : List QueryValue) : Json :=
  .object (Json.collectFields (columns.zipIdx.map fun (column, index) =>
    (column, match row[index]? with | some value => queryValueJson value | none => .null)))

def WriteSummary.json (summary : WriteSummary) : Json := .object
  [("edges_created", .nat summary.edgesCreated), ("edges_deleted", .nat summary.edgesDeleted),
    ("nodes_created", .nat summary.nodesCreated), ("nodes_deleted", .nat summary.nodesDeleted),
    ("properties_removed", .nat summary.propertiesRemoved),
    ("properties_set", .nat summary.propertiesSet)]

def writeResult (result : WriteResult) : Json := .object
  [("result", match result.result with | some table => queryResult table | none => .null),
    ("summary", result.summary.json)]

/-- `wire::statement` -/
def statementJson : StatementResult → Json
  | .read result => .object [("kind", .string "read"), ("result", queryResult result)]
  | .write result => .object [("kind", .string "write"), ("write", writeResult result)]

end NostdbServer
