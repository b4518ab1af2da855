import NostdbServer.Http.Adapter

/-!
# Snapshots through HTTP

`api::restore_snapshot` and the routes that lead to it. There is no journal: the
Database file is moved to a backup, the checked snapshot takes its place, and
the backup is removed once the new Database is open.
-/

namespace NostdbServer.Http

open Effects

-- ---------------------------------------------------------------------------
-- Replacing the Database
-- ---------------------------------------------------------------------------

/-- `config.database_path` -/
abbrev target : DbFile := .database

/-- The path with the extension `ndb.import-<suffix>`. -/
abbrev temporary : DbFile := .restoreCandidate

/-- The path with the extension `ndb.backup-<suffix>`. -/
abbrev backup : DbFile := .restoreBackup

def snapshotIncompatible (message : String) : ApiError :=
  ⟨.unprocessableEntity, "incompatible_snapshot", message⟩

def errorText : DatabaseError → String
  | .query _ message => message
  | .storage _ message => message

/-- `*guard = EmbeddedDatabase::open(target).ok()`, on an empty slot. -/
def reopenTarget : Prog storage ApiError Unit := do
  match ← Prog.call (S := storage) (.openDatabase target) with
  | .ok database => Prog.call (S := storage) (.put database)
  | .error _ => pure ()

/-- The snapshot is written beside the Database and checked. -/
def stage (body : Bytes) : Prog storage ApiError Unit := do
  match ← StorageOp.createNew temporary body with
  | .error (.opening error) => .fail (.internal error.message)
  | .error (.writing error) => .fail (.internal error.message)
  | .ok () =>
  match ← Prog.call (S := storage) (.openDatabase temporary) with
  | .error error => .fail (snapshotIncompatible error)
  | .ok _ =>
  match ← Prog.call (S := storage) (.checkDatabase temporary) with
  | .error error => .fail (snapshotIncompatible error)
  | .ok false => .fail (snapshotIncompatible "snapshot integrity check failed")
  | .ok true =>
  match ← Prog.call (S := storage) (.adoptServerAuthority temporary) with
  | .error error => .fail (snapshotIncompatible error)
  | .ok () =>
  match ← Prog.call (S := storage) (.checkpointDatabase temporary) with
  | .error error => .fail (snapshotIncompatible error)
  | .ok () => pure ()

/-- The snapshot is in its place: it is opened, or the Database moved back. -/
def openInstalled : Prog storage ApiError Unit := do
  match ← Prog.call (S := storage) (.openDatabase target) with
  | .ok database =>
    Prog.call (S := storage) (.put database)
    match ← StorageOp.remove backup with
    | .error error =>
      .fail (.internal s!"snapshot restored but backup cleanup failed: {error}")
    | .ok () => pure ()
  | .error error =>
    let _ ← StorageOp.remove target
    let _ ← StorageOp.rename backup target
    reopenTarget
    .fail (.internal s!"restored snapshot could not reopen: {error}")

/-- What happens while `state.database` is locked. -/
def replace : Prog storage ApiError Unit := do
  match ← Prog.call (S := storage) .take with
  | none => .fail (.internal "database is temporarily unavailable")
  | some current =>
  match ← Prog.call (S := storage) (.checkpoint current) with
  | .error error => .fail (snapshotIncompatible (errorText error))
  | .ok () =>
  match ← StorageOp.rename target backup with
  | .error error =>
    reopenTarget
    .fail (.internal s!"cannot preserve current snapshot: {error}")
  | .ok () =>
  match ← StorageOp.rename temporary target with
  | .error error =>
    let _ ← StorageOp.rename backup target
    reopenTarget
    .fail (.internal s!"cannot install compatible snapshot: {error}")
  | .ok () => openInstalled

def removeTemporary : Prog storage ApiError Unit := do
  if ← StorageOp.pathExists temporary then
    let _ ← StorageOp.remove temporary

def restoreSnapshot (body : Bytes) : Prog storage ApiError Unit := do
  let result ← ((stage body).bind fun _ => withGuard replace).attempt
  removeTemporary
  Prog.ofExcept result

-- ---------------------------------------------------------------------------
-- Logical packages
-- ---------------------------------------------------------------------------

def safeRelative : String → Except ApiError PathBuf := checkedModulePath .badRequest

def invalidPackage (message : String) : ApiError :=
  ⟨.unprocessableEntity, "invalid_logical_package", message⟩

def packageErrors : PackageErrors ApiError where
  internal := .internal
  invalidConfig := invalidPackage
  invalidPath := .badRequest
  repeats := .badRequest "logical package repeats a module path"
  invalidId path := .badRequest s!"invalid stable_module_id for {path}"
  mismatch path := .badRequest s!"stable_module_id does not match settings.json for {path}"

section
variable (config : Config)

/-- The package as the content of a Database. -/
def compilePackage (package : LogicalPackageDocument) : Prog scratch ApiError Bytes := do
  layPackage packageErrors config.parseModuleId package
  scratchStep (inScratch .synchronize) invalidPackage
  scratchStep (inScratch .openCandidate) snapshotIncompatible
  scratchStep (inScratch .adoptServerAuthority) snapshotIncompatible
  scratchStep (inScratch .checkpointCandidate) snapshotIncompatible
  match ← inScratch .readCandidate with
  | .error error => .fail (.internal error)
  | .ok bytes => pure bytes

/-- A failed removal of the directory is only logged. -/
def importLogicalPackage (package : LogicalPackageDocument) : Prog http ApiError Unit := do
  onScratch (scratchStep (inScratch .createDirectory) .internal)
  let result ← ((onScratch (compilePackage config package)).bind fun bytes =>
    onStorage (restoreSnapshot bytes)).attempt
  let _ ← onScratch (inScratch .removeDirectory)
  Prog.ofExcept result

end

/-- The two ways to `restore_snapshot`. -/
inductive Import
  | snapshot (body : Bytes)
  | logical (package : LogicalPackageDocument)

def Import.run (config : Config) : Import → Prog http ApiError Unit
  | .snapshot body => onStorage (restoreSnapshot body)
  | .logical package => importLogicalPackage config package

end NostdbServer.Http
