import Mathlib.Algebra.Group.Nat.Defs
import NostdbServer.Daemon.Lifecycle
import NostdbServer.Protocol.Json

/-!
# Looking into a Database and replacing it

The operations of `DatabaseDaemon` that go through the handle of one Database
and change nothing else: inspection, the exports and the two ways to replace
its content. How an uploaded package is read and how it is compiled are
parameters; the compilation works in a directory of its own.
-/

namespace NostdbServer

open Effects

/-- `guard.as_mut()`: what follows runs only on an open Database. -/
def onOpen (body : Database → Prog storage ProtocolFailure α) : Prog storage ProtocolFailure α :=
  withGuard do
    match ← Prog.call (S := storage) .peek with
    | none => .fail unavailable
    | some database => body database

def orFail (answer : Except DatabaseError α) : Prog storage ProtocolFailure α :=
  Prog.ofExcept (answer.mapError (databaseFailure · none))

/-- `{:016x}` -/
def hex16 (n : Nat) : String :=
  let digits := Nat.toDigits 16 n
  String.ofList (List.replicate (16 - digits.length) '0' ++ digits)

def inspectDatabase (name : String) : Prog daemon ProtocolFailure DatabaseDetails := do
  let entry ← entryOf name
  let handle ← handleOf entry.id
  inside handle.id (onOpen fun _ => do
    let info ← orFail (← Prog.call (S := storage) (.inspect .info))
    let counts ← orFail (← Prog.call (S := storage) (.inspect .counts))
    let healthy ← orFail (← Prog.call (S := storage) (.inspect .check))
    pure ⟨entry.summary, info.ndbFormatVersion, info.schemaRevision, info.generation,
      hex16 info.logicalChecksum, healthy, counts.schemas, counts.nodes, counts.edges⟩)

def exportSnapshot (name : String) : Prog daemon ProtocolFailure Bytes := do
  let handle ← handleForName name
  inside handle.id (onOpen fun database => do
    orFail (← Prog.call (S := storage) (.checkpoint database))
    match ← StorageOp.read .database with
    | .error error => .fail (internal error.message)
    | .ok bytes => pure bytes)

-- ---------------------------------------------------------------------------
-- Logical packages
-- ---------------------------------------------------------------------------

structure LogicalModuleDocument where
  path : String
  stableModuleId : String
  source : String

structure LogicalPackageDocument where
  packageVersion : Nat
  languageVersion : Nat
  settings : String
  modules : List LogicalModuleDocument

def LogicalPackageDocument.from (package : LogicalPackage) : LogicalPackageDocument where
  packageVersion := package.packageVersion
  languageVersion := 1
  settings := package.settings
  modules := package.modules.map fun m => ⟨m.path, m.moduleId, m.source⟩

def LogicalModuleDocument.json (document : LogicalModuleDocument) : Json := .object
  [("path", .string document.path), ("source", .string document.source),
    ("stable_module_id", .string document.stableModuleId)]

def LogicalPackageDocument.json (document : LogicalPackageDocument) : Json := .object
  [("language_version", .nat document.languageVersion),
    ("modules", .array (document.modules.map LogicalModuleDocument.json)),
    ("package_version", .nat document.packageVersion),
    ("settings", .string document.settings)]

def exportLogical (name : String) : Prog daemon ProtocolFailure Json := do
  let handle ← handleForName name
  inside handle.id (onOpen fun _ => do
    match ← Prog.call (S := storage) (.inspect .exportLogical) with
    | .error error => .fail (.new .queryError error)
    | .ok package => pure (LogicalPackageDocument.from package).json)

section
variable (root : DataDirectory) (parsePackage : Json → Except String LogicalPackageDocument)
  (compile : LogicalPackageDocument → Except ProtocolFailure Bytes)

/-- The free function `import_logical`, on one handle. -/
def importPackage (handle : ManagedDatabase) (package : LogicalPackageDocument) :
    Prog daemon ProtocolFailure Unit := do
  if package.packageVersion ≠ 1 ∨ package.languageVersion ≠ 1 then
    .fail (.new .queryError "logical package and language versions must both be 1")
  else
    let bytes ← Prog.ofExcept (compile package)
    inside handle.id (restoreSnapshotWithOperations root.restore handle bytes)

def importLogical (name : String) (package : Json) : Prog daemon ProtocolFailure Nat := do
  match parsePackage package with
  | .error error => .fail (.new .queryError s!"invalid logical package: {error}")
  | .ok package =>
    let modules := package.modules.length
    if 2 ^ 64 ≤ modules then .fail (.new .requestTooLarge "too many modules")
    else
      let handle ← handleForName name
      importPackage root compile handle package
      pure modules

end

end NostdbServer
