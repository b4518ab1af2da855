import NostdbServer.Restore.Operation

/-!
# Restore recovery of one Database directory

The body of the loop in `recover_snapshot_operations`, for the directory
`databases/<id>` it is at.
-/

namespace NostdbServer

open Effects
open StorageOp (pathExists read rename remove)

def validateRecoveredSnapshot (handle : ManagedDatabase) (f : DbFile) :
    Prog storage ServerError Unit := do
  let path := handle.display f
  match ← Prog.call (S := storage) (.openDatabase f) with
  | .error error => .fail ⟨s!"cannot open restored Database {path}: {error}"⟩
  | .ok _ =>
  match ← Prog.call (S := storage) (.checkDatabase f) with
  | .error error => .fail ⟨s!"cannot check restored Database {path}: {error}"⟩
  | .ok true => pure ()
  | .ok false => .fail ⟨s!"restored Database {path} failed integrity validation"⟩

def recoverOrAcceptInstalledSnapshot (handle : ManagedDatabase) :
    Prog storage ServerError Unit := do
  match ← (validateRecoveredSnapshot handle .database).attempt with
  | .ok () => pure ()
  | .error validation =>
  match ← remove .database with
  | .error removal =>
    .fail ⟨s!"installed snapshot is invalid ({validation}) and cannot be removed: {removal}; original backup and recovery journal were retained"⟩
  | .ok () =>
  removeSidecar .database
  syncRestoreDirectory handle
  match ← rename .restoreBackup .database with
  | .error rollback =>
    .fail ⟨s!"installed snapshot is invalid ({validation}) and the original backup could not be restored: {rollback}"⟩
  | .ok () =>
  syncRestoreDirectory handle
  (validateRecoveredSnapshot handle .database).mapError fun rollback =>
    ⟨s!"the installed snapshot was invalid ({validation}) and the restored original Database is also invalid: {rollback}"⟩

section
variable (K : Codec RestoreJournal)

def readRestoreJournal : Prog storage ServerError RestoreJournal := do
  match ← read .restoreOperation with
  | .error error => .fail ⟨error.message⟩
  | .ok bytes =>
  match K.decode bytes with
  | .error error => .fail ⟨s!"invalid restore journal: {error}"⟩
  | .ok journal => pure journal

/-- What the files present decide: finish the installation, accept it, roll
it back, or give up. -/
def settleRestoreFiles (handle : ManagedDatabase) : Prog storage ServerError Unit := do
  let target ← pathExists .database
  let candidate ← pathExists .restoreCandidate
  let backup ← pathExists .restoreBackup
  match target, candidate, backup with
  | true, true, false => removeFileAndSidecar .restoreCandidate
  | false, true, true =>
    match ← rename .restoreCandidate .database with
    | .error error => .fail ⟨s!"cannot finish snapshot installation: {error}"⟩
    | .ok () =>
      syncRestoreDirectory handle
      recoverOrAcceptInstalledSnapshot handle
  | true, false, true => recoverOrAcceptInstalledSnapshot handle
  | true, false, false => pure ()
  | false, false, true =>
    match ← rename .restoreBackup .database with
    | .error error => .fail ⟨s!"cannot roll back snapshot restore: {error}"⟩
    | .ok () => syncRestoreDirectory handle
  | _, _, _ =>
    .fail ⟨"snapshot restore files are inconsistent; operator recovery is required"⟩

/-- The journal goes last, when nothing else is left of the restore. -/
def clearRestoreFiles (handle : ManagedDatabase) : Prog storage ServerError Unit := do
  removeFileAndSidecar .restoreCandidate
  removeFileAndSidecar .restoreBackup
  syncRestoreDirectory handle
  match ← remove .restoreOperation with
  | .error error => .fail ⟨error.message⟩
  | .ok () => syncRestoreDirectory handle

def recoverDirectory (handle : ManagedDatabase) : Prog storage ServerError Unit := do
  cleanupUnjournaledRestoreCandidate handle
  if ← pathExists .restoreOperation then
    let journal ← readRestoreJournal K
    if journal.operationVersion ≠ 1 ∨ journal.databaseId ≠ handle.id then
      .fail ⟨"restore journal identity or version is invalid; operator recovery is required"⟩
    else if journal.stage ≠ "prepared" then
      .fail ⟨"restore journal stage is invalid; operator recovery is required"⟩
    else
      settleRestoreFiles handle
      clearRestoreFiles handle

end

-- ---------------------------------------------------------------------------
-- Recovery never waits
-- ---------------------------------------------------------------------------

/-- Operations that never wait for another party. -/
def StorageOp.Free : StorageOp → Prop
  | .lock => False
  | _ => True

section
variable {handle : ManagedDatabase} {f : DbFile}

theorem free_of_tidies {p : Prog storage ε α} (h : p.Only StorageOp.Tidies) :
    p.Only StorageOp.Free := by
  refine h.mono fun o ho => ?_
  cases o <;> first | trivial | exact ho.elim

theorem validateRecoveredSnapshot_only :
    (validateRecoveredSnapshot handle f).Only StorageOp.Free := by
  refine Prog.Only.step trivial ?_
  rintro (_ | _)
  · trivial
  · refine Prog.Only.step trivial ?_
    rintro (_ | _ | _) <;> trivial

theorem recoverOrAcceptInstalledSnapshot_only :
    (recoverOrAcceptInstalledSnapshot handle).Only StorageOp.Free := by
  refine validateRecoveredSnapshot_only.attempt.bind ?_
  rintro (_ | _)
  · refine Prog.Only.step trivial ?_
    rintro (_ | _)
    · trivial
    · refine (free_of_tidies removeSidecar_tidies).bind fun _ =>
        (free_of_tidies syncRestoreDirectory_tidies).bind fun _ => ?_
      refine Prog.Only.step trivial ?_
      rintro (_ | _)
      · trivial
      · exact (free_of_tidies syncRestoreDirectory_tidies).bind fun _ =>
          validateRecoveredSnapshot_only.mapError
  · trivial

theorem settleRestoreFiles_only :
    (settleRestoreFiles handle).Only StorageOp.Free := by
  refine Prog.Only.step trivial fun target => Prog.Only.step trivial fun candidate =>
    Prog.Only.step trivial fun backup => ?_
  match target, candidate, backup with
  | true, true, false => exact free_of_tidies removeFileAndSidecar_tidies
  | false, true, true =>
    refine Prog.Only.step trivial ?_
    rintro (_ | _)
    · trivial
    · exact (free_of_tidies syncRestoreDirectory_tidies).bind fun _ =>
        recoverOrAcceptInstalledSnapshot_only
  | true, false, true => exact recoverOrAcceptInstalledSnapshot_only
  | true, false, false => trivial
  | false, false, true =>
    refine Prog.Only.step trivial ?_
    rintro (_ | _)
    · trivial
    · exact free_of_tidies syncRestoreDirectory_tidies
  | true, true, true => trivial
  | false, true, false => trivial
  | false, false, false => trivial

theorem clearRestoreFiles_only :
    (clearRestoreFiles handle).Only StorageOp.Free := by
  refine (free_of_tidies removeFileAndSidecar_tidies).bind fun _ =>
    (free_of_tidies removeFileAndSidecar_tidies).bind fun _ =>
      (free_of_tidies syncRestoreDirectory_tidies).bind fun _ => Prog.Only.step trivial ?_
  rintro (_ | _)
  · trivial
  · exact free_of_tidies syncRestoreDirectory_tidies

theorem recoverDirectory_only {K : Codec RestoreJournal} :
    (recoverDirectory K handle).Only StorageOp.Free := by
  refine (free_of_tidies cleanupUnjournaledRestoreCandidate_tidies).bind fun _ =>
    Prog.Only.step trivial ?_
  rintro (_ | _)
  · trivial
  · refine Prog.Only.bind (Prog.Only.step trivial ?_) fun journal => ?_
    · rintro (_ | bytes)
      · trivial
      · dsimp only
        split <;> trivial
    · split
      · trivial
      · split
        · trivial
        · exact settleRestoreFiles_only.bind fun _ => clearRestoreFiles_only

end

end NostdbServer
