import Mathlib.Data.Fintype.EquivFin
import Mathlib.Tactic.FinCases
import NostdbServer.Daemon.Calls
import NostdbServer.Effects.Locks
import NostdbServer.Protocol.Conversation

/-!
# The daemon's locks

The catalog mutex, the lock of the handle map and the mutex of each Database,
as the operations of `DatabaseDaemon` take them: always in that order. So no
mix of operations can wait in a circle, whether or not the handle map prefers
its writers.
-/

namespace NostdbServer

open Effects

inductive LockName
  | catalog
  | databases
  | database (id : String)
  deriving DecidableEq, Repr

def LockName.rank : LockName → Fin 3
  | .catalog => 0
  | .databases => 1
  | .database _ => 2

def StorageOp.use (id : String) : StorageOp → LockUse LockName
  | .lock => .takes (.database id)
  | .unlock => .gives (.database id)
  | _ => .none

/-- The read guard on the handle map lives as long as the lookup. -/
def DaemonOp.use : DaemonOp → LockUse LockName
  | .lockCatalog => .takes .catalog
  | .unlockCatalog => .gives .catalog
  | .lockDatabases => .takes .databases
  | .unlockDatabases => .gives .databases
  | .readHandle _ => .shares .databases
  | .storage id o => o.use id
  | _ => .none

def ConnectionOp.use : ConnectionOp → LockUse LockName
  | .daemon o => o.use
  | _ => .none

-- ---------------------------------------------------------------------------
-- Operations
-- ---------------------------------------------------------------------------

/-- The operations of `DatabaseDaemon` with their arguments. -/
inductive DaemonCall
  | listDatabases
  | selectDatabase (name : String)
  | createDatabase (name : String)
  | renameDatabase (name newName : String)
  | dropDatabase (name confirmName : String)
  | inspectDatabase (name : String)
  | executeSelected (databaseId query : String) (values : WireParameters) (readOnly : Bool)
      (requestedLimits : Option WireQueryLimits) (token : UInt64)
  | executeSelectedTransaction (databaseId : String) (statements : List (String × WireParameters))
      (token : UInt64)
  | exportSnapshot (name : String)
  | restoreSnapshot (name : String) (bytes : Bytes)
  | exportLogical (name : String)
  | importLogical (name : String) (package : Json)

def callLocks (p : Prog daemon ε α) : LockProg LockName connection :=
  (calling p).locked ConnectionOp.use

/-- What an operation does with locks, whatever the steps between answer. -/
def DaemonCall.locks (E : Engine) (service : Service) :
    DaemonCall → LockProg LockName connection
  | .listDatabases => callLocks NostdbServer.listDatabases
  | .selectDatabase name => callLocks (NostdbServer.selectDatabase name)
  | .createDatabase name => callLocks (NostdbServer.createDatabase service.root name)
  | .renameDatabase name newName =>
    callLocks (NostdbServer.renameDatabase service.root name newName)
  | .dropDatabase name confirmName =>
    callLocks (NostdbServer.dropDatabase service.root name confirmName)
  | .inspectDatabase name => callLocks (NostdbServer.inspectDatabase name)
  | .executeSelected databaseId query values readOnly requestedLimits token =>
    (NostdbServer.executeSelected E service databaseId query values readOnly requestedLimits
      token).locked ConnectionOp.use
  | .executeSelectedTransaction databaseId statements token =>
    (NostdbServer.executeSelectedTransaction service databaseId statements token).locked
      ConnectionOp.use
  | .exportSnapshot name => callLocks (NostdbServer.exportSnapshot name)
  | .restoreSnapshot name bytes => callLocks (NostdbServer.restoreSnapshot service.root name bytes)
  | .exportLogical name => callLocks (NostdbServer.exportLogical name)
  | .importLogical name package =>
    callLocks (NostdbServer.importLogical service.root service.parsePackage service.compile name
      package)

-- ---------------------------------------------------------------------------
-- Operations on one Database
-- ---------------------------------------------------------------------------

section
variable {id : String} {held : List LockName} {handle : ManagedDatabase} {K : Codec RestoreJournal}

/-- Balanced inside `databases/<id>`. -/
abbrev BalancedAt (id : String) (p : Prog storage ε α) (held : List LockName) : Prop :=
  Balanced LockName.rank (StorageOp.use id) p held

/-- Balanced in the daemon. -/
abbrev BalancedIn (p : Prog daemon ε α) (held : List LockName) : Prop :=
  Balanced LockName.rank DaemonOp.use p held

/-- No Database mutex is held. -/
abbrev Below (held : List LockName) : Prop := ∀ k ∈ held, k.rank < 2

theorem balanced_bare {p : Prog storage ε α} (h : p.Only StorageOp.Bare) :
    BalancedAt id p held := by
  refine .of_only (h.mono fun o ho => ?_)
  cases o <;> first | rfl | exact ho.elim

theorem withGuard_balanced {body : Prog storage ε α} (hheld : Below held)
    (h : body.Only StorageOp.Bare) : BalancedAt id (withGuard body) held :=
  .takes rfl hheld fun _ => .attempt (balanced_bare h) fun r =>
    .gives rfl hheld fun _ => .ofExcept r

theorem onOpen_balanced {body : Database → Prog storage ProtocolFailure α} (hheld : Below held)
    (h : ∀ database, (body database).Only StorageOp.Bare) :
    BalancedAt id (onOpen body) held := by
  refine withGuard_balanced hheld (Prog.Only.step trivial ?_)
  rintro (_ | database)
  · trivial
  · exact h database

theorem restoreSnapshotWithOperations_balanced {bytes : Bytes} (hheld : Below held) :
    BalancedAt id (restoreSnapshotWithOperations K handle bytes) held := by
  unfold restoreSnapshotWithOperations
  split
  · exact .fail _
  · refine .bind (.mapError (balanced_bare
      (bare_of_tidies cleanupUnjournaledRestoreCandidate_tidies))) fun _ => ?_
    refine .bind (balanced_bare (bare_of_tidies (refuseLeftovers_tidies _))) fun _ => ?_
    refine .attempt (.bind (balanced_bare prepareSnapshot_bare) fun _ =>
      withGuard_balanced hheld installSnapshot_bare) ?_
    rintro (_ | _)
    · exact .bind (balanced_bare (bare_of_tidies dropUnjournaledCandidate_tidies))
        fun _ => .fail _
    · exact .pure _

theorem inside_balanced {p : Prog storage ε α} (h : BalancedAt id p held) :
    BalancedIn (inside id p) held :=
  h.lift fun _ => rfl

theorem rooted_balanced {p : Prog daemon ε α} (h : p.Only DaemonOp.Rooted) :
    BalancedIn p held := by
  refine .of_only (h.mono fun o ho => ?_)
  cases o <;> first | rfl | exact ho.elim

-- ---------------------------------------------------------------------------
-- Operations on the catalog and the handles
-- ---------------------------------------------------------------------------

theorem withCatalog_balanced {body : Catalog → Prog daemon ε α}
    (h : ∀ catalog, BalancedIn (body catalog) [.catalog]) : BalancedIn (withCatalog body) [] :=
  .takes rfl (by simp) fun _ => .step rfl fun catalog => .attempt (h catalog) fun r =>
    .gives rfl (by simp) fun _ => .ofExcept r

theorem withDatabases_balanced {body : Prog daemon ε α}
    (h : BalancedIn body [.databases, .catalog]) : BalancedIn (withDatabases body) [.catalog] :=
  .takes rfl (by decide) fun _ => .attempt h fun r => .gives rfl (by decide) fun _ => .ofExcept r

theorem listDatabases_balanced : BalancedIn listDatabases [] :=
  withCatalog_balanced fun _ => .pure _

theorem entryOf_balanced {name : String} : BalancedIn (entryOf name) [] := by
  refine withCatalog_balanced fun catalog => ?_
  split
  · exact .pure _
  · exact .fail _

theorem handleOf_balanced : BalancedIn (handleOf id) [] := by
  refine .shares rfl (by simp) ?_
  rintro (_ | _)
  · exact .fail _
  · exact .pure _

theorem handleForName_balanced {name : String} : BalancedIn (handleForName name) [] :=
  .bind entryOf_balanced fun _ => handleOf_balanced

theorem handleForSelectedId_balanced : BalancedIn (handleForSelectedId id) [] := by
  refine .bind (withCatalog_balanced fun _ => .pure _) fun selected => ?_
  split
  · exact .fail _
  · exact handleOf_balanced

section
variable {root : DataDirectory} {name : String}

theorem finishTransition_balanced : BalancedIn (finishTransition root) held :=
  rooted_balanced removeIfExists_rooted

theorem createDatabase_balanced : BalancedIn (createDatabase root name) [] := by
  unfold createDatabase
  split
  · exact .fail _
  refine withCatalog_balanced fun catalog => ?_
  split
  · exact .fail _
  refine .step rfl fun id => .step rfl ?_
  rintro (_ | _)
  · exact .fail _
  refine .step rfl ?_
  rintro (_ | database)
  · exact .step rfl fun _ => .fail _
  refine .attempt (rooted_balanced transition_rooted) ?_
  rintro (_ | _)
  · exact .step rfl fun _ => .fail _
  · exact .bind (withDatabases_balanced (.step rfl fun _ => .step rfl fun _ => .pure _)) fun _ =>
      .attempt finishTransition_balanced fun _ => .pure _

theorem renameDatabase_balanced {newName : String} :
    BalancedIn (renameDatabase root name newName) [] := by
  unfold renameDatabase
  split
  · exact .fail _
  refine withCatalog_balanced fun catalog => ?_
  split
  · exact .fail _
  split
  · exact .fail _
  refine .attempt (rooted_balanced transition_rooted) ?_
  rintro (_ | _)
  · exact .fail _
  · exact .attempt finishTransition_balanced fun _ => .pure _

/-- All three locks are held here. -/
theorem unregister_balanced : BalancedIn (unregister id) [.databases, .catalog] := by
  refine .step rfl ?_
  rintro (_ | handle)
  · exact .fail _
  · exact .bind (inside_balanced (withGuard_balanced (by decide) closeForDrop_bare))
      fun _ => .step rfl fun _ => .pure _

theorem reopenUndropped_balanced {error : ServerError} :
    BalancedIn (reopenUndropped handle error) [.catalog] := by
  refine .bind (inside_balanced (balanced_bare ⟨trivial, fun _ => trivial⟩)) ?_
  rintro (_ | reopened)
  · exact .fail _
  · refine .bind (inside_balanced (withGuard_balanced (by decide) ⟨trivial, fun _ => trivial⟩))
      fun _ => ?_
    exact .bind (withDatabases_balanced (.step rfl fun _ => .pure _)) fun _ => .fail _

theorem dropDatabase_balanced {confirmName : String} :
    BalancedIn (dropDatabase root name confirmName) [] := by
  unfold dropDatabase
  split
  · exact .fail _
  refine withCatalog_balanced fun catalog => ?_
  split
  · exact .fail _
  refine .step rfl fun exists_ => ?_
  split
  · exact .fail _
  refine .bind (withDatabases_balanced unregister_balanced) fun handle => ?_
  refine .attempt (rooted_balanced transition_rooted) ?_
  rintro (_ | _)
  · exact reopenUndropped_balanced
  refine .step rfl ?_
  rintro (_ | _)
  · exact .fail _
  · exact .attempt finishTransition_balanced fun _ => .pure _

-- ---------------------------------------------------------------------------
-- Operations on the content of a Database
-- ---------------------------------------------------------------------------

theorem inspectDatabase_balanced : BalancedIn (inspectDatabase name) [] := by
  refine .bind entryOf_balanced fun entry => .bind handleOf_balanced fun handle =>
    inside_balanced (onOpen_balanced (List.forall_mem_nil _) fun _ => ?_)
  exact Prog.Only.step trivial fun _ => orFail_bare.bind fun _ =>
    Prog.Only.step trivial fun _ => orFail_bare.bind fun _ =>
      Prog.Only.step trivial fun _ => orFail_bare.bind fun _ => trivial

theorem exportSnapshot_balanced : BalancedIn (exportSnapshot name) [] := by
  refine .bind handleForName_balanced fun handle =>
    inside_balanced (onOpen_balanced (List.forall_mem_nil _) fun _ => ?_)
  refine Prog.Only.step trivial fun _ => orFail_bare.bind fun _ => Prog.Only.step trivial ?_
  rintro (_ | _) <;> trivial

theorem exportLogical_balanced : BalancedIn (exportLogical name) [] := by
  refine .bind handleForName_balanced fun handle =>
    inside_balanced (onOpen_balanced (List.forall_mem_nil _) fun _ => Prog.Only.step trivial ?_)
  rintro (_ | _) <;> trivial

theorem restoreSnapshot_balanced {bytes : Bytes} : BalancedIn (restoreSnapshot root name bytes) [] :=
  .bind handleForName_balanced fun _ =>
    inside_balanced (restoreSnapshotWithOperations_balanced (List.forall_mem_nil _))

theorem importLogical_balanced {parsePackage : Json → Except String LogicalPackageDocument}
    {compile : LogicalPackageDocument → Except ProtocolFailure Bytes} {package : Json} :
    BalancedIn (importLogical root parsePackage compile name package) [] := by
  unfold importLogical
  split
  · exact .fail _
  dsimp only
  split
  · exact .fail _
  refine .bind handleForName_balanced fun handle => .bind ?_ fun _ => .pure _
  unfold importPackage
  split
  · exact .fail _
  · exact .bind (.ofExcept _) fun _ =>
      inside_balanced (restoreSnapshotWithOperations_balanced (List.forall_mem_nil _))

end

-- ---------------------------------------------------------------------------
-- Statements
-- ---------------------------------------------------------------------------

/-- Balanced in a task of a connection. -/
abbrev BalancedOver (p : Prog connection ε α) (held : List LockName) : Prop :=
  Balanced LockName.rank ConnectionOp.use p held

theorem calling_balanced {p : Prog daemon ε α} (h : BalancedIn p held) :
    BalancedOver (calling p) held :=
  h.lift fun _ => rfl

theorem executing_balanced {token : UInt64}
    {engine : Prog connection ProtocolFailure (Except DatabaseError α)}
    (h : BalancedOver engine [.database handle.id]) :
    BalancedOver (executing handle token engine) [] := by
  refine .takes (k := .database handle.id) rfl (by simp) fun _ => .attempt ?_ fun r =>
    .gives rfl (by simp) fun _ => .ofExcept r
  refine .step rfl ?_
  rintro (_ | _)
  · exact .fail _
  · refine .bind h ?_
    rintro (_ | _)
    · exact .step rfl fun _ => .fail _
    · exact .pure _

theorem DaemonCall.locks_ordered (E : Engine) (service : Service) (call : DaemonCall) :
    Ordered LockName.rank [] (call.locks E service) := by
  cases call with
  | listDatabases => exact (calling_balanced listDatabases_balanced).ordered
  | selectDatabase name =>
    exact (calling_balanced (.bind entryOf_balanced fun _ => .pure _)).ordered
  | createDatabase name => exact (calling_balanced createDatabase_balanced).ordered
  | renameDatabase name newName => exact (calling_balanced renameDatabase_balanced).ordered
  | dropDatabase name confirmName => exact (calling_balanced dropDatabase_balanced).ordered
  | inspectDatabase name => exact (calling_balanced inspectDatabase_balanced).ordered
  | executeSelected databaseId query values readOnly requestedLimits token =>
    refine Trades.ordered ?_
    unfold NostdbServer.executeSelected
    split
    · exact .fail _
    split
    · exact .fail _
    · exact .bind (calling_balanced handleForSelectedId_balanced) fun _ =>
        executing_balanced (.step rfl fun _ => .pure _)
  | executeSelectedTransaction databaseId statements token =>
    refine Trades.ordered ?_
    unfold NostdbServer.executeSelectedTransaction
    split
    · exact .fail _
    · exact .bind (calling_balanced handleForSelectedId_balanced) fun _ =>
        executing_balanced (.step rfl fun _ => .pure _)
  | exportSnapshot name => exact (calling_balanced exportSnapshot_balanced).ordered
  | restoreSnapshot name bytes => exact (calling_balanced restoreSnapshot_balanced).ordered
  | exportLogical name => exact (calling_balanced exportLogical_balanced).ordered
  | importLogical name package => exact (calling_balanced importLogical_balanced).ordered

end

/-- Any number of operations, started at any time and interleaved step by step:
while one of them is unfinished, one of them can take its next step. -/
theorem daemon_never_deadlocks (E : Engine) (service : Service) (ι : Type) [DecidableEq ι]
    (preferring : Bool) (crew : Crew ι LockName connection)
    (h : crew.Reaches preferring fun p => ∃ call : DaemonCall, p = call.locks E service)
    (i : ι) (o : LockOp LockName connection)
    (next : LockOp.Ans o → LockProg LockName connection)
    (hi : crew.threads i = some (.op o next)) :
    ∃ j crew', crew.Step preferring j crew' := by
  have hordered : ∀ p, (∃ call : DaemonCall, p = call.locks E service) →
      Ordered LockName.rank [] p := by
    rintro _ ⟨call, rfl⟩
    exact call.locks_ordered E service
  exact h.progress hordered ConnectionOp.ans_nonempty hi

/-- The catalog mutex is held by one operation and wanted by another. -/
theorem daemon_never_deadlocks_contended :
    let drop := (DaemonCall.dropDatabase "main" "main").locks .plain .plain
    ∃ crew : Crew (Fin 2) LockName connection,
      crew.Reaches true (fun p => ∃ call : DaemonCall, p = call.locks .plain .plain) ∧
      crew.held 0 = [(.catalog, false)] ∧ crew.threads 1 = some drop ∧
      (∃ rest, drop = .acquire .catalog false rest) ∧ ∃ j crew', crew.Step true j crew' := by
  intro drop
  let list := DaemonCall.listDatabases.locks .plain .plain
  have hstart : Crew.Reaches (ι := Fin 2) true
      (fun p => ∃ call : DaemonCall, p = call.locks .plain .plain)
      ((Crew.empty.goesOn 0 [] list).goesOn 1 [] drop) :=
    .start (.start .empty ⟨_, rfl⟩ rfl) ⟨_, rfl⟩ rfl
  have hfree : ((Crew.empty.goesOn 0 [] list).goesOn 1 [] drop : Crew (Fin 2) _ _).Grants true
      .catalog false := by
    intro j
    fin_cases j <;> simp [Crew.goesOn]
  have hreach := hstart.step (Crew.Step.acquire (i := 0) rfl hfree)
  exact ⟨_, hreach, rfl, rfl, ⟨_, rfl⟩, daemon_never_deadlocks .plain .plain (Fin 2) true _ hreach
    1 _ _ rfl⟩

end NostdbServer
