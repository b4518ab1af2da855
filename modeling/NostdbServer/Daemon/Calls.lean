import NostdbServer.Catalog.Compensation
import NostdbServer.Daemon.Access
import NostdbServer.Daemon.Changes

/-!
# What the operations of the daemon consist of

Everything but queries and transactions: none of these operations gives the
engine a statement to execute. What they do inside one Database is done under
a mutex they take and give back around it, or needs none.
-/

namespace NostdbServer

open Effects

/-- Neither a statement nor a step of a lock. -/
def StorageOp.Bare : StorageOp → Prop
  | .lock | .unlock | .execute _ _ | .executeTransaction _ _ => False
  | _ => True

-- ---------------------------------------------------------------------------
-- Inside one Database
-- ---------------------------------------------------------------------------

section
variable {handle : ManagedDatabase} {f : DbFile} {K : Codec RestoreJournal}

theorem bare_of_tidies {p : Prog storage ε α} (h : p.Only StorageOp.Tidies) :
    p.Only StorageOp.Bare := by
  refine h.mono fun o ho => ?_
  cases o <;> trivial

theorem writeNewSynced_bare {bytes : Bytes} :
    (writeNewSynced handle f bytes).Only StorageOp.Bare := by
  refine Prog.Only.step trivial ?_
  rintro ((_ | _) | _)
  · trivial
  · refine Prog.Only.step trivial ?_
    rintro (_ | _)
    · dsimp only
      split <;> trivial
    · trivial
  · trivial

theorem prepareSnapshot_bare {bytes : Bytes} :
    (prepareSnapshot K handle bytes).Only StorageOp.Bare := by
  refine writeNewSynced_bare.bind fun _ => Prog.Only.step trivial ?_
  rintro (_ | _)
  · trivial
  refine Prog.Only.step trivial ?_
  rintro (_ | _ | _)
  · trivial
  · trivial
  refine Prog.Only.step trivial ?_
  rintro (_ | _)
  · trivial
  refine Prog.Only.step trivial ?_
  rintro (_ | _)
  · trivial
  exact writeNewSynced_bare.bind fun _ =>
    (bare_of_tidies syncRestoreDirectory_tidies).mapError

theorem reopenLive_bare {what reopening : String} :
    (reopenLive handle what reopening).Only StorageOp.Bare := by
  refine Prog.Only.step trivial ?_
  rintro (_ | _)
  · trivial
  · refine Prog.Only.step trivial fun _ =>
      (bare_of_tidies cleanupUncommittedRestore_tidies).attempt.bind ?_
    rintro (_ | _) <;> trivial

theorem syncRestoreDirectory_bare :
    ((syncRestoreDirectory handle).mapError (internal ·.message)).Only StorageOp.Bare :=
  (bare_of_tidies syncRestoreDirectory_tidies).mapError

theorem rollBackInstalled_bare {error : String} :
    (rollBackInstalled handle error).Only StorageOp.Bare := by
  refine Prog.Only.step trivial ?_
  rintro (_ | _)
  · trivial
  · refine (bare_of_tidies removeSidecar_tidies).bind fun _ =>
      syncRestoreDirectory_bare.bind fun _ => Prog.Only.step trivial ?_
    rintro (_ | _)
    · trivial
    · exact syncRestoreDirectory_bare.bind fun _ => reopenLive_bare

theorem installSnapshot_bare : (installSnapshot handle).Only StorageOp.Bare := by
  refine Prog.Only.step trivial ?_
  rintro (_ | current)
  · trivial
  refine Prog.Only.step trivial ?_
  rintro (error | _)
  · refine Prog.Only.step trivial fun _ =>
      (bare_of_tidies cleanupUncommittedRestore_tidies).attempt.bind ?_
    rintro (_ | _) <;> trivial
  refine Prog.Only.step trivial ?_
  rintro (_ | _)
  · exact reopenLive_bare
  refine syncRestoreDirectory_bare.bind fun _ => Prog.Only.step trivial ?_
  rintro (_ | _)
  · refine Prog.Only.step trivial ?_
    rintro (_ | _)
    · trivial
    · exact syncRestoreDirectory_bare.bind fun _ => reopenLive_bare
  refine syncRestoreDirectory_bare.bind fun _ => Prog.Only.step trivial ?_
  rintro (_ | _)
  · exact rollBackInstalled_bare
  · exact Prog.Only.step trivial fun _ => bare_of_tidies cleanupCommittedRestore_tidies

theorem closeForDrop_bare : closeForDrop.Only StorageOp.Bare := by
  refine Prog.Only.step trivial ?_
  rintro (_ | database)
  · trivial
  · refine Prog.Only.step trivial ?_
    rintro (_ | _)
    · exact Prog.Only.step trivial fun _ => trivial
    · trivial

theorem orFail_bare {answer : Except DatabaseError α} :
    (orFail answer).Only StorageOp.Bare := by
  unfold orFail
  cases answer <;> trivial

end

-- ---------------------------------------------------------------------------
-- Create, rename and drop
-- ---------------------------------------------------------------------------

theorem withGuard_only {P : StorageOp → Prop} {body : Prog storage ε α} (hlock : P .lock)
    (hunlock : P .unlock) (h : body.Only P) : (withGuard body).Only P :=
  Prog.Only.step hlock fun _ => h.attempt.bind fun r => Prog.Only.step hunlock fun _ => by
    cases r <;> trivial

/-- The steps of a lifecycle call. Of the files it creates, the ones it writes
itself are those of a transition. -/
def DaemonOp.Manages : DaemonOp → Prop
  | .root (.createNew p _) => p = .pending ∨ p = .operation
  | .storage _ o => o.Still ∨ o = .openDatabase .database
  | _ => True

section
variable {root : DataDirectory} {name id : String}

theorem manages_of_transits {p : Prog daemon ε α} (h : p.Only DaemonOp.Transits) :
    p.Only DaemonOp.Manages := by
  refine h.mono fun o ho => ?_
  match o, ho with
  | .root (.createNew _ _), ho => exact ho
  | .root (.pathExists _), _ | .root (.isFile _), _ | .root (.read _), _ | .root (.rename _ _), _
  | .root (.remove _), _ | .root .sync, _ | .readCatalog, _ | .writeCatalog _, _ => trivial

theorem inside_manages {p : Prog storage ε α}
    (h : p.Only fun o : StorageOp => o.Still ∨ o = .openDatabase .database) :
    (inside id p).Only DaemonOp.Manages :=
  Prog.Only.lift (T := daemon) (P := DaemonOp.Manages) h

theorem withCatalog_manages {body : Catalog → Prog daemon ε α}
    (h : ∀ catalog, (body catalog).Only DaemonOp.Manages) :
    (withCatalog body).Only DaemonOp.Manages :=
  Prog.Only.step trivial fun _ => Prog.Only.step trivial fun catalog =>
    (h catalog).attempt.bind fun r => Prog.Only.step trivial fun _ => by cases r <;> trivial

theorem withDatabases_manages {body : Prog daemon ε α} (h : body.Only DaemonOp.Manages) :
    (withDatabases body).Only DaemonOp.Manages :=
  Prog.Only.step trivial fun _ => h.attempt.bind fun r => Prog.Only.step trivial fun _ => by
    cases r <;> trivial

theorem finishTransition_manages : (finishTransition root).Only DaemonOp.Manages :=
  removeIfExists_only trivial

theorem createDatabase_manages : (createDatabase root name).Only DaemonOp.Manages := by
  unfold createDatabase
  split
  · trivial
  refine withCatalog_manages fun catalog => ?_
  split
  · trivial
  refine Prog.Only.step trivial fun id => Prog.Only.step trivial ?_
  rintro (_ | _)
  · trivial
  refine Prog.Only.step trivial ?_
  rintro (_ | database)
  · exact Prog.Only.step trivial fun _ => trivial
  refine (manages_of_transits transition_transits).attempt.bind ?_
  rintro (_ | _)
  · exact Prog.Only.step trivial fun _ => trivial
  · refine Prog.Only.bind (withDatabases_manages ?_) fun _ =>
      finishTransition_manages.attempt.bind fun _ => trivial
    exact Prog.Only.step trivial fun _ => Prog.Only.step trivial fun _ => trivial

theorem renameDatabase_manages {newName : String} :
    (renameDatabase root name newName).Only DaemonOp.Manages := by
  unfold renameDatabase
  split
  · trivial
  refine withCatalog_manages fun catalog => ?_
  split
  · trivial
  split
  · trivial
  refine (manages_of_transits transition_transits).attempt.bind ?_
  rintro (_ | _)
  · trivial
  · exact finishTransition_manages.attempt.bind fun _ => trivial

theorem unregister_manages : (unregister id).Only DaemonOp.Manages := by
  refine Prog.Only.step trivial ?_
  rintro (_ | handle)
  · trivial
  · exact (inside_manages (closeForDrop_still.mono fun _ ho => .inl ho)).bind
      fun _ => Prog.Only.step trivial fun _ => trivial

theorem reopenUndropped_manages {handle : ManagedDatabase} {error : ServerError} :
    (reopenUndropped handle error).Only DaemonOp.Manages := by
  refine Prog.Only.bind (inside_manages ?_) ?_
  · exact ⟨.inr rfl, fun _ => trivial⟩
  rintro (_ | reopened)
  · trivial
  refine Prog.Only.bind (inside_manages (withGuard_only (.inl trivial) (.inl trivial) ?_))
    fun _ => ?_
  · exact ⟨.inl trivial, fun _ => trivial⟩
  refine Prog.Only.bind (withDatabases_manages ?_) fun _ => trivial
  exact Prog.Only.step trivial fun _ => trivial

theorem dropDatabase_manages {confirmName : String} :
    (dropDatabase root name confirmName).Only DaemonOp.Manages := by
  unfold dropDatabase
  split
  · trivial
  refine withCatalog_manages fun catalog => ?_
  split
  · trivial
  refine Prog.Only.step trivial fun exists_ => ?_
  split
  · trivial
  refine (withDatabases_manages unregister_manages).bind fun handle => ?_
  refine (manages_of_transits transition_transits).attempt.bind ?_
  rintro (_ | _)
  · exact reopenUndropped_manages
  refine Prog.Only.step trivial ?_
  rintro (_ | _)
  · trivial
  · exact finishTransition_manages.attempt.bind fun _ => trivial

end

-- ---------------------------------------------------------------------------
-- Without statements
-- ---------------------------------------------------------------------------

def StorageOp.executes : StorageOp → Bool
  | .execute _ _ | .executeTransaction _ _ => true
  | _ => false

def DaemonOp.executes : DaemonOp → Bool
  | .storage _ o => o.executes
  | _ => false

/-- No statement is executed inside a Database. -/
abbrev Idles (p : Prog storage ε α) : Prop := p.Only fun o => StorageOp.executes o = false

/-- No statement is executed in the daemon. -/
abbrev Administers (p : Prog daemon ε α) : Prop := p.Only fun o => DaemonOp.executes o = false

section
variable {id : String} {handle : ManagedDatabase} {K : Codec RestoreJournal}

theorem idles_of_bare {p : Prog storage ε α} (h : p.Only StorageOp.Bare) : Idles p := by
  refine h.mono fun o ho => ?_
  cases o <;> first | rfl | exact ho.elim

theorem withGuard_idles {body : Prog storage ε α} (h : Idles body) : Idles (withGuard body) :=
  withGuard_only rfl rfl h

theorem onOpen_idles {body : Database → Prog storage ProtocolFailure α}
    (h : ∀ database, Idles (body database)) : Idles (onOpen body) := by
  refine withGuard_idles (Prog.Only.step rfl ?_)
  rintro (_ | database)
  · trivial
  · exact h database

theorem restoreSnapshotWithOperations_idles {bytes : Bytes} :
    Idles (restoreSnapshotWithOperations K handle bytes) := by
  unfold restoreSnapshotWithOperations
  split
  · trivial
  refine (idles_of_bare (bare_of_tidies
    cleanupUnjournaledRestoreCandidate_tidies)).mapError.bind fun _ => ?_
  refine (idles_of_bare (bare_of_tidies (refuseLeftovers_tidies _))).bind fun _ => ?_
  refine ((idles_of_bare prepareSnapshot_bare).bind fun _ =>
    withGuard_idles (idles_of_bare installSnapshot_bare)).attempt.bind ?_
  rintro (_ | _)
  · exact (idles_of_bare (bare_of_tidies dropUnjournaledCandidate_tidies)).bind fun _ => trivial
  · trivial

theorem inside_administers {p : Prog storage ε α} (h : Idles p) : Administers (inside id p) :=
  Prog.Only.lift h

theorem rooted_administers {p : Prog daemon ε α} (h : p.Only DaemonOp.Rooted) : Administers p := by
  refine h.mono fun o ho => ?_
  cases o <;> first | rfl | exact ho.elim

theorem administers_of_manages {p : Prog daemon ε α} (h : p.Only DaemonOp.Manages) :
    Administers p := by
  refine h.mono fun o ho => ?_
  match o, ho with
  | .storage _ o, .inl ho => cases o <;> first | rfl | exact ho.elim
  | .storage _ _, .inr rfl => rfl
  | .root _, _ | .isDir _, _ | .createDir _, _ | .removeDir _, _ | .readDatabases, _
  | .createDatabase _, _ | .newId, _ | .lockCatalog, _ | .unlockCatalog, _ | .readCatalog, _
  | .writeCatalog _, _ | .lockDatabases, _ | .unlockDatabases, _ | .getHandle _, _
  | .readHandle _, _ | .insertHandle _, _ | .removeHandle _, _ | .newHandle _ _, _ => rfl

theorem withCatalog_administers {body : Catalog → Prog daemon ε α}
    (h : ∀ catalog, Administers (body catalog)) : Administers (withCatalog body) :=
  Prog.Only.step rfl fun _ => Prog.Only.step rfl fun catalog => (h catalog).attempt.bind fun r =>
    Prog.Only.step rfl fun _ => by cases r <;> trivial

theorem listDatabases_administers : Administers listDatabases :=
  withCatalog_administers fun _ => trivial

theorem entryOf_administers {name : String} : Administers (entryOf name) := by
  refine withCatalog_administers fun catalog => ?_
  split <;> trivial

theorem handleOf_administers : Administers (handleOf id) := by
  refine Prog.Only.step rfl ?_
  rintro (_ | _) <;> trivial

theorem handleForName_administers {name : String} : Administers (handleForName name) :=
  entryOf_administers.bind fun _ => handleOf_administers

theorem selectDatabase_administers {name : String} : Administers (selectDatabase name) :=
  entryOf_administers.bind fun _ => trivial

section
variable {root : DataDirectory} {name : String}

theorem createDatabase_administers : Administers (createDatabase root name) :=
  administers_of_manages createDatabase_manages

theorem renameDatabase_administers {newName : String} :
    Administers (renameDatabase root name newName) :=
  administers_of_manages renameDatabase_manages

theorem dropDatabase_administers {confirmName : String} :
    Administers (dropDatabase root name confirmName) :=
  administers_of_manages dropDatabase_manages

theorem inspectDatabase_administers : Administers (inspectDatabase name) := by
  refine entryOf_administers.bind fun entry => handleOf_administers.bind fun handle =>
    inside_administers (onOpen_idles fun _ => idles_of_bare ?_)
  exact Prog.Only.step trivial fun _ => orFail_bare.bind fun _ =>
    Prog.Only.step trivial fun _ => orFail_bare.bind fun _ =>
      Prog.Only.step trivial fun _ => orFail_bare.bind fun _ => trivial

theorem exportSnapshot_administers : Administers (exportSnapshot name) := by
  refine handleForName_administers.bind fun handle =>
    inside_administers (onOpen_idles fun _ => idles_of_bare ?_)
  refine Prog.Only.step trivial fun _ => orFail_bare.bind fun _ => Prog.Only.step trivial ?_
  rintro (_ | _) <;> trivial

theorem exportLogical_administers : Administers (exportLogical name) := by
  refine handleForName_administers.bind fun handle =>
    inside_administers (onOpen_idles fun _ => Prog.Only.step rfl ?_)
  rintro (_ | _) <;> trivial

theorem restoreSnapshot_administers {bytes : Bytes} :
    Administers (restoreSnapshot root name bytes) :=
  handleForName_administers.bind fun _ => inside_administers restoreSnapshotWithOperations_idles

theorem importLogical_administers {parsePackage : Json → Except String LogicalPackageDocument}
    {compile : LogicalPackageDocument → Except ProtocolFailure Bytes} {package : Json} :
    Administers (importLogical root parsePackage compile name package) := by
  unfold importLogical
  split
  · trivial
  dsimp only
  split
  · trivial
  refine handleForName_administers.bind fun handle => Prog.Only.bind ?_ fun _ => trivial
  unfold importPackage
  split
  · trivial
  · refine Prog.Only.bind ?_ fun _ => inside_administers restoreSnapshotWithOperations_idles
    cases compile _ <;> trivial

end

end

end NostdbServer
