import NostdbServer.Daemon.Access
import NostdbServer.Protocol.Credentials
import NostdbServer.Protocol.Wire
import Mathlib.Data.List.Basic

/-!
# A connection

`handle_connection`, one incoming frame at a time, and the tasks it spawns. A
connection reads its next frame only after the last one was dispatched, so a
frame is handled by one program that takes the connection from one phase to the
next; failing, it closes the connection. A request is known by its identifier:
the token of a query, its entry in the map of active requests and its timer
are all named by it.

A worker never panics, so the errors of joining one are left out.
-/

namespace NostdbServer

open Effects

structure LimitConfig where
  maxTransactionStatements : Nat
  maxRows : Nat
  maxMemoryBytes : Nat
  maxOperations : Nat
  maxTraversals : Nat
  maxSnapshotBytes : Nat

def LimitConfig.queryLimits (limits : LimitConfig) : QueryLimits :=
  ⟨limits.maxRows, limits.maxMemoryBytes, limits.maxOperations, limits.maxTraversals⟩

/-- What a running server is configured with, and what it takes from the
libraries it is built on. -/
structure Service where
  root : DataDirectory
  limits : LimitConfig
  credentials : Credentials
  serverVersion : String
  floatText : UInt64 → String
  floatOfInt : Int → UInt64
  encodeBase64 : Bytes → String
  decodeBase64 : String → Except String Bytes
  parsePackage : Json → Except String LogicalPackageDocument
  compile : LogicalPackageDocument → Except ProtocolFailure Bytes

/-- A server with libraries that understand nothing; the least a client can talk
to. -/
def Service.plain : Service where
  root := .plain "data"
  limits := ⟨1000, 1000, 1000, 1000, 1000, 1000⟩
  credentials := ⟨"query", "admin"⟩
  serverVersion := "0"
  floatText _ := "0.0"
  floatOfInt _ := 0
  encodeBase64 _ := ""
  decodeBase64 _ := .error ""
  parsePackage _ := .error ""
  compile _ := .error (.new .queryError "")

@[irreducible] def Service.frameSize (service : Service) (frame : ServerFrame) : Nat :=
  frame.json.size service.floatText

-- ---------------------------------------------------------------------------
-- State
-- ---------------------------------------------------------------------------

structure QueuedStatement where
  query : String
  parameters : WireParameters
  readOnly : Bool

def QueuedStatement.pair (statement : QueuedStatement) : String × WireParameters :=
  (statement.query, statement.parameters)

structure SnapshotUpload where
  database : String
  totalBytes : Nat
  nextSequence : Nat
  bytes : Bytes

structure ConnectionState where
  role : ClientRole
  selectedDatabaseId : Option String
  transaction : Option (List QueuedStatement)
  restore : Option SnapshotUpload
  lastRequestId : UInt64

/-- Where a connection is between two frames. -/
inductive Phase
  | greeting
  | session (state : ConnectionState)
  | closed

/-- What a connection can receive. `woken` is a change of the shutdown signal
that does not ask for shutdown. -/
inductive Incoming
  | frame (frame : ClientFrame)
  | woken
  | shutdown
  | endOfStream (message : String)
  | broken (message : String)

/-- What runs beside the connection once it is spawned. -/
inductive Task
  | query (databaseId query : String) (parameters : WireParameters) (readOnly stream : Bool)
      (limits : Option WireQueryLimits)
  | transaction (databaseId : String) (statements : List (String × WireParameters))
  | snapshotExport (database : String)

/-- The operations of a connection and its tasks. `send` tells whether the
channel still has its receiver, `insertActive` whether the identifier was there
already, `join` whether the timer fired before the worker was done. -/
inductive ConnectionOp
  | daemon (o : DaemonOp)
  | write (frame : ServerFrame)
  | send (frame : ServerFrame)
  | spawn (requestId : UInt64) (task : Task)
  | insertActive (requestId : UInt64)
  | removeActive (requestId : UInt64)
  | isActive (requestId : UInt64)
  | cancel (requestId : UInt64)
  | isCancelled (requestId : UInt64)
  | join (requestId : UInt64)
  | cancelAll
  | joinTasks
  | joinWriter

def ConnectionOp.Ans : ConnectionOp → Type
  | .daemon o => o.Ans
  | .write _ | .joinWriter => Except String Unit
  | .send _ | .insertActive _ | .isActive _ | .isCancelled _ | .join _ => Bool
  | .spawn _ _ | .removeActive _ | .cancel _ | .cancelAll | .joinTasks => Unit

abbrev connection : Signature := ⟨ConnectionOp, ConnectionOp.Ans⟩

/-- A call into the daemon. -/
def calling (p : Prog daemon ε α) : Prog connection ε α :=
  p.lift (T := connection) .daemon fun _ ans => ans

-- ---------------------------------------------------------------------------
-- Responses
-- ---------------------------------------------------------------------------

section
variable (service : Service)

def offer (frame : ServerFrame) : Prog connection String Unit := do
  let accepted : Bool ← Prog.call (S := connection) (.send frame)
  if accepted then pure () else .fail "response channel closed"

def tooLarge : ProtocolFailure :=
  .new .requestTooLarge "response cannot be represented within the negotiated frame bound"

def sendResponse (requestId : UInt64) (response : ServerResponse) : Prog connection String Unit := do
  let size := service.frameSize ⟨requestId, response⟩
  if size = 0 ∨ MAX_FRAME_BYTES < size then
    offer (failureFrame requestId tooLarge)
    .fail "response exceeded the negotiated frame bound"
  else offer ⟨requestId, response⟩

def sendFailure (requestId : UInt64) (error : ProtocolFailure) : Prog connection String Unit :=
  sendResponse service requestId (.error error.code error.message error.retryable)

def respondResult (requestId : UInt64) (result : Except ProtocolFailure α)
    (response : α → ServerResponse) : Prog connection String Unit :=
  match result with
  | .ok value => sendResponse service requestId (response value)
  | .error error => sendFailure service requestId error

def sendRows (requestId : UInt64) : List (List QueryValue) → Prog connection String Unit
  | [] => pure ()
  | row :: rest => do
    sendResponse service requestId (.streamRow (row.map queryValueJson))
    sendRows requestId rest

def sendStatement (requestId : UInt64) (result : StatementResult) (stream : Bool) :
    Prog connection String Unit := do
  match stream, result with
  | true, .read result =>
    sendResponse service requestId (.streamStart result.columns result.ordered)
    sendRows service requestId result.rows
    sendResponse service requestId (.streamEnd result.rows.length)
  | _, result => sendResponse service requestId (.result (statementJson result))

def sendChunks (requestId : UInt64) : Nat → List Bytes → Prog connection String Unit
  | chunks, [] => sendResponse service requestId (.snapshotEnd chunks)
  | chunks, chunk :: rest => do
    sendResponse service requestId (.snapshotChunk chunks (service.encodeBase64 chunk))
    sendChunks requestId (chunks + 1) rest

def sendSnapshot (requestId : UInt64) (bytes : Bytes) : Prog connection String Unit := do
  sendResponse service requestId (.snapshotStart bytes.length)
  sendChunks service requestId 0 (bytes.toChunks SNAPSHOT_CHUNK_BYTES)

def writeFrame (frame : ServerFrame) : Prog connection String Unit := do
  let size := service.frameSize frame
  if size = 0 ∨ MAX_FRAME_BYTES < size then
    .fail s!"encoded frame size {size} is outside 1..={MAX_FRAME_BYTES}"
  else
    match ← Prog.call (S := connection) (.write frame) with
    | .error error => .fail error
    | .ok () => pure ()

end

-- ---------------------------------------------------------------------------
-- Statements
-- ---------------------------------------------------------------------------

def lowered (default : Nat) (requested : Option Nat) : Nat :=
  match requested with
  | some value => min default value
  | none => default

def lowerLimits (defaults : QueryLimits) : Option WireQueryLimits → QueryLimits
  | none => defaults
  | some requested =>
    ⟨lowered defaults.maxRows requested.maxRows,
      lowered defaults.maxMemoryBytes requested.maxMemoryBytes,
      lowered defaults.maxOperations requested.maxOperations,
      lowered defaults.maxTraversals requested.maxTraversals⟩

def onHandle (handle : ManagedDatabase) (o : StorageOp) : Prog connection ε o.Ans :=
  Prog.call (S := connection) (.daemon (.storage handle.id o))

/-- One call of the engine, if the Database is open. The token is only looked at
to tell a cancellation from a limit. -/
def whileOpen (handle : ManagedDatabase) (token : UInt64)
    (engine : Prog connection ProtocolFailure (Except DatabaseError α)) :
    Prog connection ProtocolFailure α := do
  match ← onHandle handle .peek with
  | none => .fail unavailable
  | some _ =>
    match ← engine with
    | .ok result => pure result
    | .error error =>
      let cancelled : Bool ← Prog.call (S := connection) (.isCancelled token)
      .fail (databaseFailure error (some cancelled))

/-- The same under the mutex of the handle. -/
def executing (handle : ManagedDatabase) (token : UInt64)
    (engine : Prog connection ProtocolFailure (Except DatabaseError α)) :
    Prog connection ProtocolFailure α := do
  onHandle handle .lock
  let result ← (whileOpen handle token engine).attempt
  onHandle handle .unlock
  Prog.ofExcept result

def readOnlyRejected : ProtocolFailure :=
  .new .queryError "read_only request rejected a mutating query"

/-- The statements of a transaction, converted one after the other. -/
def convertStatements (floatOfInt : Int → UInt64) :
    List (String × WireParameters) → Except String (List Statement)
  | [] => .ok []
  | (query, values) :: rest =>
    match parameters floatOfInt values with
    | .error message => .error message
    | .ok values => (convertStatements floatOfInt rest).map (⟨query, values⟩ :: ·)

section
variable (E : Engine) (service : Service)

def executeSelected (databaseId query : String) (values : WireParameters) (readOnly : Bool)
    (requestedLimits : Option WireQueryLimits) (token : UInt64) :
    Prog connection ProtocolFailure StatementResult := do
  if readOnly && E.preparesWrite query then .fail readOnlyRejected
  else
    match parameters service.floatOfInt values with
    | .error message => .fail (.new .queryError message)
    | .ok values =>
      let handle ← calling (handleForSelectedId databaseId)
      executing handle token (onHandle handle (.execute ⟨query, values⟩
        (lowerLimits service.limits.queryLimits requestedLimits)))

def executeSelectedTransaction (databaseId : String)
    (statements : List (String × WireParameters)) (token : UInt64) :
    Prog connection ProtocolFailure (List StatementResult) := do
  match convertStatements service.floatOfInt statements with
  | .error message => .fail (.new .queryError message)
  | .ok statements =>
    let handle ← calling (handleForSelectedId databaseId)
    executing handle token
      (onHandle handle (.executeTransaction statements service.limits.queryLimits))

-- ---------------------------------------------------------------------------
-- Tasks
-- ---------------------------------------------------------------------------

/-- The race of a worker with its timer. When the timer fires first the token is
cancelled and the worker awaited all the same. -/
def withTimeout (requestId : UInt64) (worker : Prog connection ProtocolFailure α)
    (message : String) : Prog connection String (Except ProtocolFailure α) := do
  let result ← worker.attempt
  let expired : Bool ← Prog.call (S := connection) (.join requestId)
  match expired, result with
  | false, result => pure result
  | true, .ok value => pure (.ok value)
  | true, .error _ => pure (.error (.new .resourceLimit message))

/-- What a task does with the outcome of a response: nothing. -/
def discarding (p : Prog connection String Unit) : Prog connection String Unit := do
  let _ ← p.attempt

def runTask (requestId : UInt64) : Task → Prog connection String Unit
  | .query databaseId query values readOnly stream limits => do
    let result ← withTimeout requestId
      (executeSelected E service databaseId query values readOnly limits requestId)
      "query timeout exceeded"
    Prog.call (S := connection) (.removeActive requestId)
    match result with
    | .ok result => discarding (sendStatement service requestId result stream)
    | .error error => discarding (sendFailure service requestId error)
  | .transaction databaseId statements => do
    let result ← withTimeout requestId
      (executeSelectedTransaction service databaseId statements requestId)
      "transaction timeout exceeded"
    Prog.call (S := connection) (.removeActive requestId)
    match result with
    | .ok results => discarding (sendResponse service requestId
        (.transaction "committed" (results.map statementJson)))
    | .error error => discarding (sendFailure service requestId error)
  | .snapshotExport database => do
    match ← (calling (exportSnapshot database)).attempt with
    | .ok bytes => discarding (sendSnapshot service requestId bytes)
    | .error error => discarding (sendFailure service requestId error)

-- ---------------------------------------------------------------------------
-- Dispatch
-- ---------------------------------------------------------------------------

def isAdminRequest : ClientRequest → Bool
  | .databaseCreate _ | .databaseList | .databaseInspect _ | .databaseRename _ _
  | .databaseDrop _ _ | .snapshotExport _ | .snapshotRestoreBegin _ _
  | .snapshotRestoreChunk _ _ | .snapshotRestoreCommit | .snapshotRestoreAbort
  | .logicalExport _ | .logicalImport _ _ => true
  | _ => false

def changesDatabaseContext : ClientRequest → Bool
  | .selectDatabase _ | .databaseRename _ _ | .databaseDrop _ _ | .snapshotRestoreBegin _ _
  | .snapshotRestoreChunk _ _ | .snapshotRestoreCommit | .logicalImport _ _ => true
  | _ => false

/-- Answers with a failure; the state stays as it is given. -/
def refuse (requestId : UInt64) (state : ConnectionState) (code : ErrorCode) (message : String) :
    Prog connection String ConnectionState := do
  sendFailure service requestId (.new code message)
  pure state

def answer (requestId : UInt64) (state : ConnectionState) (response : ServerResponse) :
    Prog connection String ConnectionState := do
  sendResponse service requestId response
  pure state

/-- A daemon operation whose result is the answer. -/
def relay (requestId : UInt64) (state : ConnectionState) (p : Prog daemon ProtocolFailure α)
    (response : α → ServerResponse) : Prog connection String ConnectionState := do
  let result ← (calling p).attempt
  respondResult service requestId result response
  pure state

/-- Registers the token of a request and leaves the rest to a task. -/
def launch (requestId : UInt64) (state : ConnectionState) (task : Task) :
    Prog connection String ConnectionState := do
  let taken : Bool ← Prog.call (S := connection) (.insertActive requestId)
  if taken then
    .fail "request identifier is already active"
  else
    Prog.call (S := connection) (.spawn requestId task)
    pure state

def dispatchSelect (requestId : UInt64) (state : ConnectionState) (database : String) :
    Prog connection String ConnectionState := do
  match ← (calling (selectDatabase database)).attempt with
  | .ok summary =>
    answer service requestId { state with selectedDatabaseId := some summary.id }
      (.databaseSelected summary)
  | .error error =>
    sendFailure service requestId error
    pure state

/-- A query joins the open transaction. -/
def enqueue (requestId : UInt64) (state : ConnectionState) (transaction : List QueuedStatement)
    (statement : QueuedStatement) (stream : Bool) (limits : Option WireQueryLimits) :
    Prog connection String ConnectionState :=
  if stream then
    refuse service requestId state .protocolViolation
      "streaming is unavailable while a transaction is being queued"
  else if limits.isSome then
    refuse service requestId state .protocolViolation
      "explicit transactions use the server transaction budget"
  else if service.limits.maxTransactionStatements ≤ transaction.length then
    refuse service requestId state .resourceLimit "transaction statement limit exceeded"
  else
    let transaction := transaction ++ [statement]
    answer service requestId { state with transaction := some transaction }
      (.queued transaction.length)

def dispatchQuery (requestId : UInt64) (state : ConnectionState) (query : String)
    (values : WireParameters) (readOnly stream : Bool) (limits : Option WireQueryLimits) :
    Prog connection String ConnectionState :=
  match state.selectedDatabaseId, state.transaction with
  | none, _ =>
    refuse service requestId state .databaseNotSelected "select a Database before querying"
  | some _, some transaction =>
    enqueue service requestId state transaction ⟨query, values, readOnly⟩ stream limits
  | some databaseId, none =>
    launch requestId state (.query databaseId query values readOnly stream limits)

def dispatchBegin (requestId : UInt64) (state : ConnectionState) :
    Prog connection String ConnectionState :=
  if state.transaction.isSome then
    refuse service requestId state .transactionAlreadyActive "a transaction is already active"
  else if state.selectedDatabaseId.isNone then
    refuse service requestId state .databaseNotSelected
      "select a Database before beginning a transaction"
  else
    answer service requestId { state with transaction := some [] } (.transaction "begun" [])

/-- Whatever becomes of it, the queue is taken out of the state. -/
def dispatchCommit (requestId : UInt64) (state : ConnectionState) :
    Prog connection String ConnectionState :=
  match state.transaction with
  | none => refuse service requestId state .noTransaction "no transaction is active"
  | some statements =>
    let state := { state with transaction := none }
    match state.selectedDatabaseId with
    | none =>
      refuse service requestId state .databaseNotSelected "selected Database was cleared"
    | some databaseId =>
      if statements.any fun statement => statement.readOnly && E.preparesWrite statement.query then
        refuse service requestId state .queryError "read_only request rejected a mutating query"
      else
        launch requestId state (.transaction databaseId
          (statements.map fun statement => (statement.query, statement.parameters)))

def dispatchRollback (requestId : UInt64) (state : ConnectionState) :
    Prog connection String ConnectionState :=
  match state.transaction with
  | none => refuse service requestId state .noTransaction "no transaction is active"
  | some _ =>
    answer service requestId { state with transaction := none } (.transaction "rolled_back" [])

def dispatchCancel (requestId : UInt64) (state : ConnectionState) (target : UInt64) :
    Prog connection String ConnectionState := do
  let active : Bool ← Prog.call (S := connection) (.isActive target)
  if active then
    Prog.call (S := connection) (.cancel target)
    answer service requestId state (.cancelled target)
  else
    refuse service requestId state .protocolViolation
      "target request is not active on this connection"

def dispatchDrop (requestId : UInt64) (state : ConnectionState) (database confirmName : String) :
    Prog connection String ConnectionState := do
  let result ← (calling (dropDatabase service.root database confirmName)).attempt
  let state :=
    match result with
    | .ok dropped =>
      if state.selectedDatabaseId = some dropped.id then
        { state with selectedDatabaseId := none, transaction := none }
      else state
    | .error _ => state
  respondResult service requestId result fun dropped => .databaseDropped dropped.id dropped.name
  pure state

def dispatchRestoreBegin (requestId : UInt64) (state : ConnectionState) (database : String)
    (totalBytes : Nat) : Prog connection String ConnectionState := do
  if state.restore.isSome then
    refuse service requestId state .protocolViolation "a snapshot upload is already active"
  else if totalBytes = 0 ∨ service.limits.maxSnapshotBytes < totalBytes then
    refuse service requestId state .requestTooLarge
      "snapshot size is zero or exceeds max_snapshot_bytes"
  else
    match ← (calling (selectDatabase database)).attempt with
    | .error error =>
      sendFailure service requestId error
      pure state
    | .ok _ =>
      answer service requestId { state with restore := some ⟨database, totalBytes, 0, []⟩ }
        (.snapshotRestore "ready" 0)

def dispatchRestoreChunk (requestId : UInt64) (state : ConnectionState) (sequence : Nat)
    (data : String) : Prog connection String ConnectionState :=
  match state.restore with
  | none => refuse service requestId state .protocolViolation "no snapshot upload is active"
  | some upload =>
    if sequence ≠ upload.nextSequence then
      refuse service requestId state .protocolViolation "snapshot chunk sequence is not contiguous"
    else
      match service.decodeBase64 data with
      | .error error =>
        refuse service requestId state .protocolViolation
          s!"snapshot chunk is not valid base64: {error}"
      | .ok chunk =>
        if chunk.isEmpty ∨ SNAPSHOT_CHUNK_BYTES < chunk.length then
          refuse service requestId state .requestTooLarge
            "snapshot chunk is empty or exceeds the chunk bound"
        else if upload.totalBytes < upload.bytes.length + chunk.length then
          refuse service requestId state .requestTooLarge
            "snapshot chunks exceed declared total_bytes"
        else
          let bytes := upload.bytes ++ chunk
          let upload := { upload with bytes, nextSequence := upload.nextSequence + 1 }
          answer service requestId { state with restore := some upload }
            (.snapshotRestore "chunk_accepted" bytes.length)

def dispatchRestoreCommit (requestId : UInt64) (state : ConnectionState) :
    Prog connection String ConnectionState :=
  match state.restore with
  | none => refuse service requestId state .protocolViolation "no snapshot upload is active"
  | some upload =>
    if upload.bytes.length ≠ upload.totalBytes then
      refuse service requestId state .protocolViolation
        "snapshot upload byte count does not match total_bytes"
    else
      relay service requestId { state with restore := none }
        (restoreSnapshot service.root upload.database upload.bytes)
        fun _ => .snapshotRestore "restored" upload.bytes.length

def dispatchRestoreAbort (requestId : UInt64) (state : ConnectionState) :
    Prog connection String ConnectionState :=
  let bytes := match state.restore with
    | some upload => upload.bytes.length
    | none => 0
  answer service requestId { state with restore := none } (.snapshotRestore "aborted" bytes)

def dispatch (frame : ClientFrame) (state : ConnectionState) :
    Prog connection String ConnectionState :=
  let requestId := frame.requestId
  if state.role ≠ .admin ∧ isAdminRequest frame.request then
    refuse service requestId state .permissionDenied "administrative credential is required"
  else if state.transaction.isSome ∧ changesDatabaseContext frame.request then
    refuse service requestId state .protocolViolation
      "Database selection and lifecycle changes are unavailable during a transaction"
  else
    match frame.request with
    | .hello _ _ _ =>
      refuse service requestId state .protocolViolation "hello may only be sent as the first frame"
    | .ping => answer service requestId state .pong
    | .selectDatabase database => dispatchSelect service requestId state database
    | .query query values readOnly stream limits =>
      dispatchQuery service requestId state query values readOnly stream limits
    | .begin => dispatchBegin service requestId state
    | .commit => dispatchCommit E service requestId state
    | .rollback => dispatchRollback service requestId state
    | .cancel target => dispatchCancel service requestId state target
    | .databaseCreate name =>
      relay service requestId state (createDatabase service.root name) .databaseCreated
    | .databaseList => relay service requestId state listDatabases .databaseList
    | .databaseInspect database =>
      relay service requestId state (inspectDatabase database) .databaseInfo
    | .databaseRename database newName =>
      relay service requestId state (renameDatabase service.root database newName) .databaseRenamed
    | .databaseDrop database confirmName =>
      dispatchDrop service requestId state database confirmName
    | .snapshotExport database => do
      Prog.call (S := connection) (.spawn requestId (.snapshotExport database))
      pure state
    | .snapshotRestoreBegin database totalBytes =>
      dispatchRestoreBegin service requestId state database totalBytes
    | .snapshotRestoreChunk sequence data =>
      dispatchRestoreChunk service requestId state sequence data
    | .snapshotRestoreCommit => dispatchRestoreCommit service requestId state
    | .snapshotRestoreAbort => dispatchRestoreAbort service requestId state
    | .logicalExport database =>
      relay service requestId state (exportLogical database) .logicalPackage
    | .logicalImport database package =>
      relay service requestId state
        (importLogical service.root service.parsePackage service.compile database package)
        .logicalImported

-- ---------------------------------------------------------------------------
-- The connection
-- ---------------------------------------------------------------------------

/-- A frame that ends the connection before a session. -/
def turnAway (requestId : UInt64) (code : ErrorCode) (message : String) :
    Prog connection String Phase := do
  writeFrame service (failureFrame requestId (.new code message))
  pure .closed

def greet (frame : ClientFrame) : Prog connection String Phase :=
  match frame.request with
  | .hello protocolVersion credential _ =>
    if frame.requestId = 0 then .fail "request identifiers must be positive"
    else if protocolVersion ≠ DATABASE_PROTOCOL_VERSION then
      turnAway service frame.requestId .unsupportedProtocol
        s!"client requested protocol {protocolVersion}; server supports exactly {DATABASE_PROTOCOL_VERSION}"
    else
      match service.credentials.authenticate credential with
      | none => turnAway service frame.requestId .authenticationFailed "credential is invalid"
      | some role => do
        writeFrame service ⟨frame.requestId,
          .hello DATABASE_PROTOCOL_VERSION service.serverVersion role MAX_FRAME_BYTES⟩
        pure (.session ⟨role, none, none, none, frame.requestId⟩)
  | _ => turnAway service frame.requestId .protocolViolation "the first frame must be hello"

def receive (frame : ClientFrame) (state : ConnectionState) :
    Prog connection String ConnectionState :=
  if frame.requestId ≤ state.lastRequestId then
    refuse service frame.requestId state .protocolViolation
      "request identifiers must be positive and strictly increasing"
  else dispatch E service frame { state with lastRequestId := frame.requestId }

/-- The way out of the loop: every active request is cancelled and awaited. -/
def leave : Prog connection String Phase := do
  Prog.call (S := connection) .cancelAll
  Prog.call (S := connection) .joinTasks
  match ← Prog.call (S := connection) .joinWriter with
  | .error error => .fail error
  | .ok () => pure .closed

def handleIncoming : Phase → Incoming → Prog connection String Phase
  | .greeting, .frame frame => greet service frame
  | .greeting, .endOfStream message | .greeting, .broken message => .fail message
  -- Shutdown is not looked at before there is a session.
  | .greeting, .woken | .greeting, .shutdown => pure .greeting
  | .session state, .frame frame => do pure (.session (← receive E service frame state))
  | .session state, .woken => pure (.session state)
  | .session _, .shutdown | .session _, .endOfStream _ => leave
  | .session _, .broken message => .fail message
  | .closed, _ => pure .closed

end

end NostdbServer
