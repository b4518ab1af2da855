import NostdbServer.Failure
import NostdbServer.Protocol.Json

/-!
# The frames of the database protocol

The wire types of the client crate, version 1 of the protocol, and the JSON
object a server frame is written as: its request identifier, the type of the
event and the fields of the event, in this order.
-/

namespace NostdbServer

def DATABASE_PROTOCOL_VERSION : Nat := 1
def MAX_FRAME_BYTES : Nat := 1024 * 1024
def SNAPSHOT_CHUNK_BYTES : Nat := 256 * 1024

inductive ClientRole
  | query
  | admin
  deriving DecidableEq, Repr

structure WireQueryLimits where
  maxRows : Option Nat
  maxMemoryBytes : Option Nat
  maxOperations : Option Nat
  maxTraversals : Option Nat
  deriving DecidableEq, Repr

/-- Named values, as a `BTreeMap` lists them. -/
abbrev WireParameters := List (String × Json)

inductive ClientRequest
  | hello (protocolVersion : Nat) (credential clientName : String)
  | ping
  | selectDatabase (database : String)
  | query (query : String) (parameters : WireParameters) (readOnly stream : Bool)
      (limits : Option WireQueryLimits)
  | begin
  | commit
  | rollback
  | cancel (targetRequestId : UInt64)
  | databaseCreate (name : String)
  | databaseList
  | databaseInspect (database : String)
  | databaseRename (database newName : String)
  | databaseDrop (database confirmName : String)
  | snapshotExport (database : String)
  | snapshotRestoreBegin (database : String) (totalBytes : Nat)
  | snapshotRestoreChunk (sequence : Nat) (data : String)
  | snapshotRestoreCommit
  | snapshotRestoreAbort
  | logicalExport (database : String)
  | logicalImport (database : String) (package : Json)

structure ClientFrame where
  requestId : UInt64
  request : ClientRequest

structure DatabaseSummary where
  id : String
  name : String
  state : String
  deriving DecidableEq, Repr

structure DatabaseDetails where
  summary : DatabaseSummary
  ndbFormatVersion : Nat
  schemaRevision : Nat
  generation : Nat
  logicalChecksum : String
  healthy : Bool
  schemas : Nat
  nodes : Nat
  edges : Nat

inductive ServerResponse
  | hello (protocolVersion : Nat) (serverVersion : String) (role : ClientRole)
      (maxFrameBytes : Nat)
  | pong
  | databaseSelected (database : DatabaseSummary)
  | result (statement : Json)
  | streamStart (columns : List String) (ordered : Bool)
  | streamRow (row : List Json)
  | streamEnd (rows : Nat)
  | queued (statements : Nat)
  | transaction (state : String) (results : List Json)
  | cancelled (targetRequestId : UInt64)
  | databaseCreated (database : DatabaseSummary)
  | databaseList (databases : List DatabaseSummary)
  | databaseInfo (database : DatabaseDetails)
  | databaseRenamed (database : DatabaseSummary)
  | databaseDropped (databaseId name : String)
  | snapshotStart (totalBytes : Nat)
  | snapshotChunk (sequence : Nat) (data : String)
  | snapshotEnd (chunks : Nat)
  | snapshotRestore (state : String) (bytes : Nat)
  | logicalPackage (package : Json)
  | logicalImported (modules : Nat)
  | error (code : ErrorCode) (message : String) (retryable : Bool)

structure ServerFrame where
  requestId : UInt64
  response : ServerResponse

def failureFrame (requestId : UInt64) (error : ProtocolFailure) : ServerFrame :=
  ⟨requestId, .error error.code error.message error.retryable⟩

-- ---------------------------------------------------------------------------
-- As JSON
-- ---------------------------------------------------------------------------

def ClientRole.json : ClientRole → Json
  | .query => .string "query"
  | .admin => .string "admin"

def ErrorCode.name : ErrorCode → String
  | .unsupportedProtocol => "unsupported_protocol"
  | .authenticationFailed => "authentication_failed"
  | .protocolViolation => "protocol_violation"
  | .permissionDenied => "permission_denied"
  | .databaseNotSelected => "database_not_selected"
  | .databaseNotFound => "database_not_found"
  | .databaseAlreadyExists => "database_already_exists"
  | .invalidDatabaseName => "invalid_database_name"
  | .databaseBusy => "database_busy"
  | .queryError => "query_error"
  | .resourceLimit => "resource_limit"
  | .cancelled => "cancelled"
  | .transactionAlreadyActive => "transaction_already_active"
  | .noTransaction => "no_transaction"
  | .requestTooLarge => "request_too_large"
  | .snapshotIncompatible => "snapshot_incompatible"
  | .recoveryRequired => "recovery_required"
  | .internalError => "internal_error"

def DatabaseSummary.fields (summary : DatabaseSummary) : List (String × Json) :=
  [("id", .string summary.id), ("name", .string summary.name), ("state", .string summary.state)]

/-- The summary is flattened into the details. -/
def DatabaseDetails.fields (details : DatabaseDetails) : List (String × Json) :=
  details.summary.fields ++
    [("ndb_format_version", .nat details.ndbFormatVersion),
      ("schema_revision", .nat details.schemaRevision),
      ("generation", .nat details.generation),
      ("logical_checksum", .string details.logicalChecksum),
      ("healthy", .bool details.healthy),
      ("schemas", .nat details.schemas),
      ("nodes", .nat details.nodes),
      ("edges", .nat details.edges)]

namespace ServerResponse

def type : ServerResponse → String
  | .hello .. => "hello"
  | .pong => "pong"
  | .databaseSelected _ => "database_selected"
  | .result _ => "result"
  | .streamStart .. => "stream_start"
  | .streamRow _ => "stream_row"
  | .streamEnd _ => "stream_end"
  | .queued _ => "queued"
  | .transaction .. => "transaction"
  | .cancelled _ => "cancelled"
  | .databaseCreated _ => "database_created"
  | .databaseList _ => "database_list"
  | .databaseInfo _ => "database_info"
  | .databaseRenamed _ => "database_renamed"
  | .databaseDropped .. => "database_dropped"
  | .snapshotStart _ => "snapshot_start"
  | .snapshotChunk .. => "snapshot_chunk"
  | .snapshotEnd _ => "snapshot_end"
  | .snapshotRestore .. => "snapshot_restore"
  | .logicalPackage _ => "logical_package"
  | .logicalImported _ => "logical_imported"
  | .error .. => "error"

def fields : ServerResponse → List (String × Json)
  | .hello protocolVersion serverVersion role maxFrameBytes =>
    [("protocol_version", .nat protocolVersion), ("server_version", .string serverVersion),
      ("role", role.json), ("max_frame_bytes", .nat maxFrameBytes)]
  | .pong => []
  | .databaseSelected database | .databaseCreated database | .databaseRenamed database =>
    [("database", .object database.fields)]
  | .result statement => [("statement", statement)]
  | .streamStart columns ordered => [("columns", .strings columns), ("ordered", .bool ordered)]
  | .streamRow row => [("row", .array row)]
  | .streamEnd rows => [("rows", .nat rows)]
  | .queued statements => [("statements", .nat statements)]
  | .transaction state results => [("state", .string state), ("results", .array results)]
  | .cancelled targetRequestId => [("target_request_id", .nat targetRequestId.toNat)]
  | .databaseList databases =>
    [("databases", .array (databases.map fun database => .object database.fields))]
  | .databaseInfo database => [("database", .object database.fields)]
  | .databaseDropped databaseId name =>
    [("database_id", .string databaseId), ("name", .string name)]
  | .snapshotStart totalBytes => [("total_bytes", .nat totalBytes)]
  | .snapshotChunk sequence data => [("sequence", .nat sequence), ("data", .string data)]
  | .snapshotEnd chunks => [("chunks", .nat chunks)]
  | .snapshotRestore state bytes => [("state", .string state), ("bytes", .nat bytes)]
  | .logicalPackage package => [("package", package)]
  | .logicalImported modules => [("modules", .nat modules)]
  | .error code message retryable =>
    [("code", .string code.name), ("message", .string message), ("retryable", .bool retryable)]

end ServerResponse

def ServerFrame.json (frame : ServerFrame) : Json :=
  .object (("request_id", .nat frame.requestId.toNat) :: ("type", .string frame.response.type) ::
    frame.response.fields)

end NostdbServer
