import NostdbServer.Effects.Codec
import NostdbServer.Restore.Site

/-!
# Snapshot restore

`restore_snapshot_with_operations` and the functions it calls, step by step.
The guard on the handle is taken and dropped where the source's closure takes
and drops it: everything before it, and the last cleanup of an unjournaled
candidate, runs without the mutex.
-/

namespace NostdbServer

open Effects

namespace StorageOp

def pathExists (f : DbFile) : Prog storage ε Bool := .call (S := storage) (.file (.pathExists f))
def read (f : DbFile) : Prog storage ε (Except IoError Bytes) :=
  .call (S := storage) (.file (.read f))
def createNew (f : DbFile) (bytes : Bytes) : Prog storage ε (Except CreateError Unit) :=
  .call (S := storage) (.file (.createNew f bytes))
def rename (source target : DbFile) : Prog storage ε (Except IoError Unit) :=
  .call (S := storage) (.file (.rename source target))
def remove (f : DbFile) : Prog storage ε (Except IoError Unit) :=
  .call (S := storage) (.file (.remove f))
def sync : Prog storage ε (Except IoError Unit) := .call (S := storage) (.file .sync)

end StorageOp

open StorageOp (pathExists read createNew rename remove)

structure RestoreJournal where
  operationVersion : Nat
  databaseId : String
  stage : String
  deriving DecidableEq, Repr

/-- A plain way to write the journal. -/
def RestoreJournal.format : Format RestoreJournal :=
  (Format.nat.prod (Format.string.prod Format.string)).map (fun p => ⟨p.1, p.2.1, p.2.2⟩)
    (fun j => (j.operationVersion, j.databaseId, j.stage)) fun _ => rfl

def RestoreJournal.prepared (id : String) : RestoreJournal := ⟨1, id, "prepared"⟩

def syncRestoreDirectory (handle : ManagedDatabase) : Prog storage ServerError Unit := do
  match ← StorageOp.sync with
  | .ok () => pure ()
  | .error error =>
    let directory := handle.directory
    .fail ⟨s!"cannot sync restore directory {directory}: {error}"⟩

/-- The removal is best effort: its result is dropped. -/
def removeSidecar (f : DbFile) : Prog storage ε Unit := do
  let _ ← remove (.sidecar f)

def removeFileAndSidecar (f : DbFile) : Prog storage ServerError Unit := do
  if ← pathExists f then
    match ← remove f with
    | .ok () => removeSidecar f
    | .error error => .fail ⟨error.message⟩
  else removeSidecar f

def removeRestoreFile (handle : ManagedDatabase) (f : DbFile) : Prog storage ServerError Unit := do
  match ← remove f with
  | .ok () => pure ()
  | .error error =>
    if error.isNotFound then pure ()
    else
      let path := handle.display f
      .fail ⟨s!"cannot remove {path}: {error}"⟩

def writeNewSynced (handle : ManagedDatabase) (f : DbFile) (bytes : Bytes) :
    Prog storage ProtocolFailure Unit := do
  let path := handle.display f
  match ← createNew f bytes with
  | .ok () => pure ()
  | .error (.opening error) => .fail (internal error.message)
  | .error (.writing error) =>
    match ← remove f with
    | .ok () => .fail (internal s!"cannot persist {path}: {error}")
    | .error cleanup =>
      if cleanup.isNotFound then .fail (internal s!"cannot persist {path}: {error}")
      else .fail (internal
        s!"cannot persist {path}: {error}; cannot remove partial file: {cleanup}")

/-- `journal.exists() || (!candidate.exists() && !backup.exists())` -/
def nothingUnjournaled : Prog storage ε Bool := do
  if ← pathExists .restoreOperation then pure true
  else if ← pathExists .restoreCandidate then pure false
  else return !(← pathExists .restoreBackup)

/-- `target.exists() && candidate.exists() && !backup.exists()` -/
def onlyCandidateLeft : Prog storage ε Bool := do
  if ← pathExists .database then
    if ← pathExists .restoreCandidate then return !(← pathExists .restoreBackup)
    else pure false
  else pure false

def cleanupUnjournaledRestoreCandidate (handle : ManagedDatabase) :
    Prog storage ServerError Unit := do
  if ← nothingUnjournaled then pure ()
  else if ← onlyCandidateLeft then
    removeFileAndSidecar .restoreCandidate
    syncRestoreDirectory handle
  else
    .fail ⟨"snapshot restore files exist without a journal; operator recovery is required"⟩

def cleanupUncommittedRestore (handle : ManagedDatabase) : Prog storage ServerError Unit := do
  removeRestoreFile handle .restoreCandidate
  removeSidecar .restoreCandidate
  syncRestoreDirectory handle
  removeRestoreFile handle .restoreOperation
  syncRestoreDirectory handle

/-- Failures are logged and leave the journal for the next startup. -/
def cleanupCommittedRestore (handle : ManagedDatabase) : Prog storage ε Unit := do
  match ← (removeRestoreFile handle .restoreBackup).attempt with
  | .error _ => pure ()
  | .ok () =>
    removeSidecar .restoreBackup
    match ← (syncRestoreDirectory handle).attempt with
    | .error _ => pure ()
    | .ok () =>
      match ← (removeRestoreFile handle .restoreOperation).attempt with
      | .error _ => removeSidecar .restoreCandidate
      | .ok () =>
        let _ ← Prog.attempt (syncRestoreDirectory handle)
        removeSidecar .restoreCandidate

section
variable (K : Codec RestoreJournal)

def writeRestoreJournal (handle : ManagedDatabase) : Prog storage ProtocolFailure Unit :=
  writeNewSynced handle .restoreOperation (K.encode (.prepared handle.id))

/-- The candidate is written, validated and journaled before the handle is
touched. -/
def prepareSnapshot (handle : ManagedDatabase) (bytes : Bytes) :
    Prog storage ProtocolFailure Unit := do
  writeNewSynced handle .restoreCandidate bytes
  match ← Prog.call (S := storage) (.openDatabase .restoreCandidate) with
  | .error error => .fail (.new .snapshotIncompatible error)
  | .ok _ =>
  match ← Prog.call (S := storage) (.checkDatabase .restoreCandidate) with
  | .error error => .fail (.new .snapshotIncompatible error)
  | .ok false => .fail (.new .snapshotIncompatible "snapshot integrity check failed")
  | .ok true =>
  match ← Prog.call (S := storage) (.adoptServerAuthority .restoreCandidate) with
  | .error error => .fail (.new .snapshotIncompatible error)
  | .ok () =>
  match ← Prog.call (S := storage) (.checkpointDatabase .restoreCandidate) with
  | .error error => .fail (.new .snapshotIncompatible error)
  | .ok () =>
    writeRestoreJournal K handle
    (syncRestoreDirectory handle).mapError (internal ·.message)

/-- Puts the live Database back and clears the uncommitted restore. `what` is
the failure that led here, `reopening` how a failed reopen is described. -/
def reopenLive (handle : ManagedDatabase) (what reopening : String) :
    Prog storage ProtocolFailure Unit := do
  match ← Prog.call (S := storage) (.openDatabase .database) with
  | .ok database =>
    Prog.call (S := storage) (.put database)
    match ← (cleanupUncommittedRestore handle).attempt with
    | .ok () => .fail (internal what)
    | .error cleanup =>
      .fail (.again .recoveryRequired
        s!"{what}; restore cleanup requires restart: {cleanup}")
  | .error error => .fail (.again .recoveryRequired s!"{what}; {reopening}: {error}")

/-- An installed snapshot the engine will not open is taken out again. -/
def rollBackInstalled (handle : ManagedDatabase) (error : String) :
    Prog storage ProtocolFailure Unit := do
  let what := s!"installed snapshot could not reopen: {error}"
  match ← remove .database with
  | .error removal =>
    .fail (.again .recoveryRequired s!"{what}; cannot remove it for rollback: {removal}")
  | .ok () =>
    removeSidecar .database
    (syncRestoreDirectory handle).mapError (internal ·.message)
    match ← rename .restoreBackup .database with
    | .error rollback =>
      .fail (.again .recoveryRequired
        s!"{what}; cannot restore the live Database: {rollback}")
    | .ok () =>
      (syncRestoreDirectory handle).mapError (internal ·.message)
      reopenLive handle what "restored live Database could not reopen"

/-- What runs under the handle's mutex. -/
def installSnapshot (handle : ManagedDatabase) : Prog storage ProtocolFailure Unit := do
  match ← Prog.call (S := storage) .take with
  | none => .fail (.again .databaseBusy "Database is unavailable")
  | some current =>
  match ← Prog.call (S := storage) (.checkpoint current) with
  | .error error =>
    Prog.call (S := storage) (.put current)
    let failure := databaseFailure error none
    match ← (cleanupUncommittedRestore handle).attempt with
    | .ok () => .fail failure
    | .error cleanup =>
      let message := failure.message
      .fail (.again .recoveryRequired
        s!"{message}; restore cleanup requires restart: {cleanup}")
  | .ok () =>
  match ← rename .database .restoreBackup with
  | .error error =>
    reopenLive handle s!"cannot move the live Database for snapshot installation: {error}"
      "the live Database could not reopen"
  | .ok () =>
  (syncRestoreDirectory handle).mapError (internal ·.message)
  match ← rename .restoreCandidate .database with
  | .error install =>
    match ← rename .restoreBackup .database with
    | .error rollback =>
      .fail (.again .recoveryRequired
        s!"cannot install snapshot: {install}; cannot restore the live Database: {rollback}; restart recovery is required")
    | .ok () =>
      (syncRestoreDirectory handle).mapError (internal ·.message)
      reopenLive handle s!"cannot install snapshot: {install}"
        "restored live Database could not reopen"
  | .ok () =>
  (syncRestoreDirectory handle).mapError (internal ·.message)
  match ← Prog.call (S := storage) (.openDatabase .database) with
  | .ok database =>
    Prog.call (S := storage) (.put database)
    cleanupCommittedRestore handle
  | .error error => rollBackInstalled handle error

/-- The mutex is released on every way out of `body`. -/
def withGuard (body : Prog storage ε α) : Prog storage ε α := do
  Prog.call (S := storage) .lock
  let result ← body.attempt
  Prog.call (S := storage) .unlock
  Prog.ofExcept result

def refuseLeftovers : List DbFile → Prog storage ProtocolFailure Unit
  | [] => pure ()
  | f :: rest => do
    if ← pathExists f then
      .fail (.again .recoveryRequired
        "a previous snapshot restore requires daemon restart recovery")
    else refuseLeftovers rest

/-- After a failure, a candidate that no journal mentions is removed. -/
def dropUnjournaledCandidate (handle : ManagedDatabase) : Prog storage ε Unit := do
  if ← pathExists .restoreCandidate then
    if !(← pathExists .restoreOperation) then
      match ← remove .restoreCandidate with
      | .error _ => pure ()
      | .ok () =>
        removeSidecar .restoreCandidate
        let _ ← Prog.attempt (syncRestoreDirectory handle)

def restoreSnapshotWithOperations (handle : ManagedDatabase) (bytes : Bytes) :
    Prog storage ProtocolFailure Unit := do
  if bytes.isEmpty then
    .fail (.new .snapshotIncompatible "snapshot is empty")
  else
    (cleanupUnjournaledRestoreCandidate handle).mapError (internal ·.message)
    refuseLeftovers [.restoreCandidate, .restoreBackup, .restoreOperation]
    let result ← Prog.attempt (do
      prepareSnapshot K handle bytes
      withGuard (installSnapshot handle))
    match result with
    | .ok () => pure ()
    | .error failure =>
      dropUnjournaledCandidate handle
      .fail failure

end

-- ---------------------------------------------------------------------------
-- What the cleanups do
-- ---------------------------------------------------------------------------

/-- Looking, removing and syncing. -/
def StorageOp.Tidies : StorageOp → Prop
  | .file (.pathExists _) | .file (.remove _) | .file .sync => True
  | _ => False

section
variable {handle : ManagedDatabase} {f : DbFile}

theorem syncRestoreDirectory_tidies : (syncRestoreDirectory handle).Only StorageOp.Tidies := by
  refine Prog.Only.step trivial ?_
  rintro (_ | _) <;> trivial

theorem removeSidecar_tidies : (removeSidecar f : Prog storage ε Unit).Only StorageOp.Tidies :=
  Prog.Only.step trivial fun _ => trivial

theorem removeFileAndSidecar_tidies : (removeFileAndSidecar f).Only StorageOp.Tidies := by
  refine Prog.Only.step trivial ?_
  rintro (_ | _)
  · exact removeSidecar_tidies
  · refine Prog.Only.step trivial ?_
    rintro (_ | _)
    · trivial
    · exact removeSidecar_tidies

theorem removeRestoreFile_tidies : (removeRestoreFile handle f).Only StorageOp.Tidies := by
  refine Prog.Only.step trivial ?_
  rintro (error | _)
  · dsimp only
    split <;> trivial
  · trivial

theorem nothingUnjournaled_tidies :
    (nothingUnjournaled : Prog storage ε Bool).Only StorageOp.Tidies := by
  refine Prog.Only.step trivial ?_
  rintro (_ | _)
  · refine Prog.Only.step trivial ?_
    rintro (_ | _)
    · exact Prog.Only.step trivial fun _ => trivial
    · trivial
  · trivial

theorem onlyCandidateLeft_tidies :
    (onlyCandidateLeft : Prog storage ε Bool).Only StorageOp.Tidies := by
  refine Prog.Only.step trivial ?_
  rintro (_ | _)
  · trivial
  · refine Prog.Only.step trivial ?_
    rintro (_ | _)
    · trivial
    · exact Prog.Only.step trivial fun _ => trivial

theorem cleanupUnjournaledRestoreCandidate_tidies :
    (cleanupUnjournaledRestoreCandidate handle).Only StorageOp.Tidies := by
  refine nothingUnjournaled_tidies.bind ?_
  rintro (_ | _)
  · refine onlyCandidateLeft_tidies.bind ?_
    rintro (_ | _)
    · trivial
    · exact removeFileAndSidecar_tidies.bind fun _ => syncRestoreDirectory_tidies
  · trivial

theorem cleanupUncommittedRestore_tidies :
    (cleanupUncommittedRestore handle).Only StorageOp.Tidies :=
  removeRestoreFile_tidies.bind fun _ => removeSidecar_tidies.bind fun _ =>
    syncRestoreDirectory_tidies.bind fun _ => removeRestoreFile_tidies.bind fun _ =>
      syncRestoreDirectory_tidies

theorem cleanupCommittedRestore_tidies :
    (cleanupCommittedRestore handle : Prog storage ε Unit).Only StorageOp.Tidies := by
  refine removeRestoreFile_tidies.attempt.bind ?_
  rintro (_ | _)
  · trivial
  · refine removeSidecar_tidies.bind fun _ => syncRestoreDirectory_tidies.attempt.bind ?_
    rintro (_ | _)
    · trivial
    · refine removeRestoreFile_tidies.attempt.bind ?_
      rintro (_ | _)
      · exact removeSidecar_tidies
      · exact syncRestoreDirectory_tidies.attempt.bind fun _ => removeSidecar_tidies

theorem refuseLeftovers_tidies (files : List DbFile) :
    (refuseLeftovers files).Only StorageOp.Tidies := by
  induction files with
  | nil => trivial
  | cons f rest ih =>
    refine Prog.Only.step trivial ?_
    rintro (_ | _)
    · exact ih
    · trivial

theorem dropUnjournaledCandidate_tidies :
    (dropUnjournaledCandidate handle : Prog storage ε Unit).Only StorageOp.Tidies := by
  refine Prog.Only.step trivial ?_
  rintro (_ | _)
  · trivial
  · refine Prog.Only.step trivial ?_
    rintro (_ | _)
    · refine Prog.Only.step trivial ?_
      rintro (_ | _)
      · trivial
      · exact removeSidecar_tidies.bind fun _ => syncRestoreDirectory_tidies.attempt.bind
          fun _ => trivial
    · trivial

end

end NostdbServer
