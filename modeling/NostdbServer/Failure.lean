import Mathlib.Logic.Basic

/-!
# Failures

The typed failures of the database protocol and the textual failures of
startup, as the daemon builds them.
-/

namespace NostdbServer

/-- Stable protocol error categories. -/
inductive ErrorCode
  | unsupportedProtocol
  | authenticationFailed
  | protocolViolation
  | permissionDenied
  | databaseNotSelected
  | databaseNotFound
  | databaseAlreadyExists
  | invalidDatabaseName
  | databaseBusy
  | queryError
  | resourceLimit
  | cancelled
  | transactionAlreadyActive
  | noTransaction
  | requestTooLarge
  | snapshotIncompatible
  | recoveryRequired
  | internalError
  deriving DecidableEq, Repr

structure ProtocolFailure where
  code : ErrorCode
  message : String
  retryable : Bool
  deriving DecidableEq, Repr

def ProtocolFailure.new (code : ErrorCode) (message : String) : ProtocolFailure :=
  ⟨code, message, false⟩

/-- The `retryable` constructor; the field has the same name. -/
def ProtocolFailure.again (code : ErrorCode) (message : String) : ProtocolFailure :=
  ⟨code, message, true⟩

def internal (message : String) : ProtocolFailure := .new .internalError message

/-- The engine error codes the daemon tells apart. -/
inductive QueryErrorCode
  | resourceLimit
  | other
  deriving DecidableEq, Repr

inductive StorageErrorKind
  | busy
  | other
  deriving DecidableEq, Repr

inductive DatabaseError
  | query (code : QueryErrorCode) (message : String)
  | storage (kind : StorageErrorKind) (message : String)
  deriving DecidableEq, Repr

/-- `cancelled` is the state of the request's token, where it has one. -/
def databaseFailure (error : DatabaseError) (cancelled : Option Bool) : ProtocolFailure :=
  match error with
  | .query .resourceLimit message =>
    if cancelled = some true then .new .cancelled message else .new .resourceLimit message
  | .query .other message => .new .queryError message
  | .storage .busy message => .again .databaseBusy message
  | .storage .other message => .new .internalError message

structure ServerError where
  message : String
  deriving DecidableEq, Repr

instance : ToString ServerError := ⟨ServerError.message⟩

end NostdbServer
