import NostdbServer.Import.Package
import NostdbServer.Protocol.Wire

/-!
# The HTTP adapter

The state the HTTP routes share and the steps they take on it. One Database is
served from `config.database_path`; the temporary and the backup file of a
snapshot import lie beside it. A section under the session lock is one step, as
no other request can come in between. A logical import works in a directory of
its own: what its steps answer is not determined by anything modelled here.

A request is known by a number, which names its timer. Locks are never poisoned
and workers do not panic.
-/

namespace NostdbServer.Http

open Effects

-- ---------------------------------------------------------------------------
-- Errors
-- ---------------------------------------------------------------------------

inductive StatusCode
  | ok
  | created
  | noContent
  | badRequest
  | notFound
  | requestTimeout
  | conflict
  | payloadTooLarge
  | unprocessableEntity
  | tooManyRequests
  | internalServerError
  deriving DecidableEq, Repr

def StatusCode.asU16 : StatusCode → Nat
  | .ok => 200
  | .created => 201
  | .noContent => 204
  | .badRequest => 400
  | .notFound => 404
  | .requestTimeout => 408
  | .conflict => 409
  | .payloadTooLarge => 413
  | .unprocessableEntity => 422
  | .tooManyRequests => 429
  | .internalServerError => 500

structure ApiError where
  status : StatusCode
  code : String
  message : String
  deriving DecidableEq, Repr

def ApiError.badRequest (message : String) : ApiError := ⟨.badRequest, "bad_request", message⟩

def ApiError.internal (message : String) : ApiError :=
  ⟨.internalServerError, "internal_error", message⟩

-- ---------------------------------------------------------------------------
-- Requests
-- ---------------------------------------------------------------------------

structure RequestLimits where
  maxRows : Option Nat
  maxMemoryBytes : Option Nat
  maxOperations : Option Nat
  maxTraversals : Option Nat
  timeoutMs : Option Nat

structure QueryRequest where
  query : String
  parameters : WireParameters
  stream : Bool
  readOnly : Bool
  limits : Option RequestLimits

/-- `ServerConfig` and what the adapter takes from the libraries it is built on.
Durations are in milliseconds. -/
structure Config where
  queryLimits : QueryLimits
  queryTimeout : Nat
  requestBodyBytes : Nat
  maxSessions : Nat
  maxTransactionStatements : Nat
  floatOfInt : Int → UInt64
  parseQuery : Bytes → Except String QueryRequest
  parsePackage : Bytes → Except String LogicalPackageDocument
  parseModuleId : String → Option String
  prepare : String → Except String Unit

-- ---------------------------------------------------------------------------
-- Sessions
-- ---------------------------------------------------------------------------

structure Session where
  transaction : Option (List Statement)

abbrev Sessions := AList fun _ : String => Session

def sessionNotFound : ApiError := ⟨.notFound, "session_not_found", "session does not exist"⟩

def noTransaction : ApiError := ⟨.conflict, "no_transaction", "session has no active transaction"⟩

/-- What a query in a session comes to: queued, or still to be executed. -/
inductive Placed
  | queued (statementCount : Nat)
  | immediate
  deriving DecidableEq, Repr

/-- The sections under the session lock, one for each route. -/
inductive SessionOp
  | create
  | delete (id : String)
  | begin (id : String)
  | place (id : String) (statement : Statement) (limited : Bool)
  | commit (id : String)
  | rollback (id : String)

def SessionOp.Ans : SessionOp → Type
  | .create => Except ApiError String
  | .delete _ | .begin _ | .rollback _ => Except ApiError Unit
  | .place _ _ _ => Except ApiError Placed
  | .commit _ => Except ApiError (List Statement)

namespace Sessions

section
variable (E : Engine) (config : Config)

def create (sessions : Sessions) (id : String) : Except ApiError String × Sessions :=
  if config.maxSessions ≤ sessions.keys.length then
    (.error ⟨.tooManyRequests, "session_limit", "maximum session count reached"⟩, sessions)
  else (.ok id, sessions.insert id ⟨none⟩)

def delete (sessions : Sessions) (id : String) : Except ApiError Unit × Sessions :=
  match sessions.lookup id with
  | none => (.error sessionNotFound, sessions)
  | some _ => (.ok (), sessions.erase id)

def begin (sessions : Sessions) (id : String) : Except ApiError Unit × Sessions :=
  match sessions.lookup id with
  | none => (.error sessionNotFound, sessions)
  | some ⟨some _⟩ =>
    (.error ⟨.conflict, "transaction_active", "session already has an active transaction"⟩,
      sessions)
  | some ⟨none⟩ => (.ok (), sessions.insert id ⟨some []⟩)

/-- Why a statement is not queued in an open transaction, if it is not. -/
def refusal (statements : List Statement) (statement : Statement) (limited : Bool) :
    Option ApiError :=
  if limited then
    some (.badRequest "per-request limits are not accepted inside a transaction; the server transaction budget applies at commit")
  else if config.maxTransactionStatements ≤ statements.length then
    some ⟨.tooManyRequests, "transaction_statement_limit", "transaction statement limit reached"⟩
  else if !(config.prepare statement.query).isOk && !E.preparesWrite statement.query then
    some (.badRequest "query is not valid or supported")
  else none

def place (sessions : Sessions) (id : String) (statement : Statement) (limited : Bool) :
    Except ApiError Placed × Sessions :=
  match sessions.lookup id with
  | none => (.error sessionNotFound, sessions)
  | some ⟨none⟩ => (.ok .immediate, sessions)
  | some ⟨some statements⟩ =>
    match refusal E config statements statement limited with
    | some error => (.error error, sessions)
    | none => (.ok (.queued (statements.length + 1)),
        sessions.insert id ⟨some (statements ++ [statement])⟩)

/-- `session.transaction.take()` -/
def take (sessions : Sessions) (id : String) : Except ApiError (List Statement) × Sessions :=
  match sessions.lookup id with
  | none => (.error sessionNotFound, sessions)
  | some ⟨none⟩ => (.error noTransaction, sessions)
  | some ⟨some statements⟩ => (.ok statements, sessions.insert id ⟨none⟩)

/-- One section. `uuid` is what `Uuid::new_v4` would answer in it. -/
def step (uuid : String) (sessions : Sessions) : (o : SessionOp) → o.Ans × Sessions
  | .create => create config sessions uuid
  | .delete id => sessions.delete id
  | .begin id => sessions.begin id
  | .place id statement limited => place E config sessions id statement limited
  | .commit id => sessions.take id
  | .rollback id =>
    let (result, sessions) := sessions.take id
    (result.map fun _ => (), sessions)

end

end Sessions

-- ---------------------------------------------------------------------------
-- Steps
-- ---------------------------------------------------------------------------

inductive Counter
  | queries
  | queryErrors
  | timeouts
  | sessionsCreated
  | snapshotRestores
  deriving DecidableEq, Repr

/-- `pastDeadline` is the look of a worker at the clock before it does anything,
`join` whether the timer of the request fired before its worker was done. -/
inductive HttpOp
  | storage (o : StorageOp)
  | scratch (o : ScratchOp)
  | session (o : SessionOp)
  | count (counter : Counter)
  | pastDeadline (request : Nat)
  | join (request : Nat)

def HttpOp.Ans : HttpOp → Type
  | .storage o => o.Ans
  | .scratch o => o.Ans
  | .session o => o.Ans
  | .count _ => Unit
  | .pastDeadline _ | .join _ => Bool

abbrev http : Signature := ⟨HttpOp, HttpOp.Ans⟩

/-- A step on the Database file, its neighbours or the shared slot. -/
def onStorage (p : Prog storage ε α) : Prog http ε α :=
  p.lift (T := http) .storage fun _ ans => ans

/-- The steps of a program in the directory of an import. -/
def onScratch (p : Prog scratch ε α) : Prog http ε α :=
  p.lift (T := http) .scratch fun _ ans => ans

/-- What the surroundings decide about one step; `uuid` is what `Uuid::new_v4`
answers in it. -/
structure Chance where
  outcome : Outcome
  scratch : (o : ScratchOp) → o.Ans
  uuid : String
  late : Bool

/-- `AppState` with the files it lives on. -/
structure Adapter where
  site : Site
  sessions : Sessions
  metrics : Counter → Nat
  expired : Nat → Bool

def Adapter.step (E : Engine) (config : Config) :
    (o : HttpOp) → Chance → Adapter → Option (o.Ans × Adapter)
  | .storage o, c, a =>
    (Site.step E o c.outcome a.site).map fun r => (r.1, { a with site := r.2 })
  | .scratch o, c, a => some (c.scratch o, a)
  | .session o, c, a =>
    let (answer, sessions) := a.sessions.step E config c.uuid o
    some (answer, { a with sessions })
  | .count counter, _, a =>
    some ((), { a with metrics := Function.update a.metrics counter (a.metrics counter + 1) })
  | .pastDeadline _, c, a => some (c.late, a)
  | .join request, _, a => some (a.expired request, a)

def httpWorld (E : Engine) (config : Config) : World http Chance Adapter :=
  ⟨Adapter.step E config⟩

end NostdbServer.Http
