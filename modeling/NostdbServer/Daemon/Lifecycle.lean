import NostdbServer.Catalog.Store
import NostdbServer.Protocol.Messages
import NostdbServer.Restore.Recovery

/-!
# The daemon

The operations of `DatabaseDaemon` on its data directory, its catalog and its
handles, with every lock taken and released where the source does. A lock is
never poisoned, so the errors for that are left out.
-/

namespace NostdbServer

open Effects
open DaemonOp (pathExists rename directoryExists)

def CatalogDatabase.summary (entry : CatalogDatabase) : DatabaseSummary :=
  ⟨entry.id, entry.name, entry.state⟩

def notFound (name : String) : ProtocolFailure :=
  .new .databaseNotFound s!"Database `{name}` does not exist"

def unavailable : ProtocolFailure := .again .databaseBusy "Database is unavailable"

/-- `catalog_lock`: the guard lives until the body returns. -/
def withCatalog (body : Catalog → Prog daemon ε α) : Prog daemon ε α := do
  Prog.call (S := daemon) .lockCatalog
  let catalog ← Prog.call (S := daemon) .readCatalog
  let result ← (body catalog).attempt
  Prog.call (S := daemon) .unlockCatalog
  Prog.ofExcept result

/-- `databases_write`. -/
def withDatabases (body : Prog daemon ε α) : Prog daemon ε α := do
  Prog.call (S := daemon) .lockDatabases
  let result ← body.attempt
  Prog.call (S := daemon) .unlockDatabases
  Prog.ofExcept result

-- ---------------------------------------------------------------------------
-- Lookups
-- ---------------------------------------------------------------------------

def listDatabases : Prog daemon ProtocolFailure (List DatabaseSummary) :=
  withCatalog fun catalog => pure (catalog.databases.map CatalogDatabase.summary)

def entryOf (name : String) : Prog daemon ProtocolFailure CatalogDatabase :=
  withCatalog fun catalog =>
    match catalog.byName? name with
    | some entry => pure entry
    | none => .fail (notFound name)

def selectDatabase (name : String) : Prog daemon ProtocolFailure DatabaseSummary := do
  let entry ← entryOf name
  pure entry.summary

def handleOf (id : String) : Prog daemon ProtocolFailure ManagedDatabase := do
  match ← Prog.call (S := daemon) (.readHandle id) with
  | some handle => pure handle
  | none => .fail unavailable

def handleForName (name : String) : Prog daemon ProtocolFailure ManagedDatabase := do
  let entry ← entryOf name
  handleOf entry.id

def handleForSelectedId (databaseId : String) : Prog daemon ProtocolFailure ManagedDatabase := do
  let selectedExists ← withCatalog fun catalog =>
    pure (catalog.databases.any (·.id = databaseId))
  if !selectedExists then
    .fail (.new .databaseNotFound
      "the selected Database no longer exists; select a Database again")
  else handleOf databaseId

-- ---------------------------------------------------------------------------
-- Create, rename, drop
-- ---------------------------------------------------------------------------

def invalidName : ProtocolFailure :=
  .new .invalidDatabaseName "Database names must match [a-z][a-z0-9_-]\x7b0,62\x7d"

def alreadyExists (name : String) : ProtocolFailure :=
  .new .databaseAlreadyExists s!"Database `{name}` already exists"

namespace Catalog

def add (catalog : Catalog) (entry : CatalogDatabase) : Catalog :=
  { catalog with databases := sortByName (catalog.databases ++ [entry]) }

def setName (id newName : String) : List CatalogDatabase → List CatalogDatabase
  | [] => []
  | entry :: rest =>
    if entry.id = id then { entry with name := newName } :: rest
    else entry :: setName id newName rest

def rename (catalog : Catalog) (id newName : String) : Catalog :=
  { catalog with databases := sortByName (setName id newName catalog.databases) }

def remove (catalog : Catalog) (id : String) : Catalog :=
  { catalog with databases := catalog.databases.filter (·.id ≠ id) }

end Catalog

section
variable (root : DataDirectory)

def createDatabase (name : String) : Prog daemon ProtocolFailure DatabaseSummary := do
  if !validDatabaseName name then .fail invalidName
  else
    withCatalog fun catalog => do
      if catalog.databases.any (·.name = name) then .fail (alreadyExists name)
      else
        let id : String ← Prog.call (S := daemon) .newId
        match ← Prog.call (S := daemon) (.createDir (.database id)) with
        | .error error => .fail (internal error.message)
        | .ok () =>
        match ← Prog.call (S := daemon) (.createDatabase id) with
        | .error error =>
          let _ ← Prog.call (S := daemon) (.removeDir (.database id))
          .fail (databaseFailure error none)
        | .ok database =>
        let entry : CatalogDatabase := ⟨id, name, "ready"⟩
        match ← (transition root (catalog.add entry) .create id).attempt with
        | .error error =>
          let _ ← rename (.database id) (.recovery ("failed-create-" ++ id))
          .fail (internal error.message)
        | .ok () =>
          withDatabases do
            Prog.call (S := daemon) (.newHandle id database)
            Prog.call (S := daemon) (.insertHandle (root.managed id))
          let _ ← Prog.attempt (finishTransition root)
          pure entry.summary

def renameDatabase (name newName : String) : Prog daemon ProtocolFailure DatabaseSummary := do
  if !validDatabaseName newName then .fail invalidName
  else
    withCatalog fun catalog => do
      if catalog.databases.any (·.name = newName) then .fail (alreadyExists newName)
      else
        match catalog.byName? name with
        | none => .fail (notFound name)
        | some existing =>
          match ← (transition root (catalog.rename existing.id newName) .rename existing.id).attempt with
          | .error error => .fail (internal error.message)
          | .ok () =>
            let _ ← Prog.attempt (finishTransition root)
            pure { existing with name := newName }.summary

/-- Takes the Database out of its handle once it is checkpointed. -/
def closeForDrop : Prog storage ProtocolFailure Unit := do
  match ← Prog.call (S := storage) .take with
  | none => .fail unavailable
  | some database =>
    match ← Prog.call (S := storage) (.checkpoint database) with
    | .error error =>
      Prog.call (S := storage) (.put database)
      .fail (databaseFailure error none)
    | .ok () => pure ()

/-- The handle leaves the map once its Database is closed. -/
def unregister (id : String) : Prog daemon ProtocolFailure ManagedDatabase := do
  match ← Prog.call (S := daemon) (.getHandle id) with
  | none => .fail (internal "managed Database handle is missing")
  | some handle =>
    inside handle.id (withGuard closeForDrop)
    Prog.call (S := daemon) (.removeHandle id)
    pure handle

/-- The way back when the drop could not be committed. -/
def reopenUndropped (handle : ManagedDatabase) (error : ServerError) :
    Prog daemon ProtocolFailure DatabaseSummary := do
  match ← inside handle.id (.call (S := storage) (.openDatabase .database)) with
  | .error openError =>
    .fail (internal s!"catalog drop failed ({error}) and Database could not reopen: {openError}")
  | .ok reopened =>
    inside handle.id (withGuard (.call (S := storage) (.put reopened)))
    withDatabases (Prog.call (S := daemon) (.insertHandle handle))
    .fail (internal error.message)

def dropDatabase (name confirmName : String) : Prog daemon ProtocolFailure DatabaseSummary := do
  if name ≠ confirmName then
    .fail (.new .protocolViolation "confirm_name must exactly equal the Database name")
  else
    withCatalog fun catalog => do
      match catalog.byName? name with
      | none => .fail (notFound name)
      | some entry =>
      if ← pathExists (.trash entry.id) then
        .fail (internal "Database trash target already exists")
      else
        let handle ← withDatabases (unregister entry.id)
        match ← (transition root (catalog.remove entry.id) .drop entry.id).attempt with
        | .error error => reopenUndropped handle error
        | .ok () =>
        match ← rename (.database entry.id) (.trash entry.id) with
        | .error error => .fail (internal error.message)
        | .ok () =>
          let _ ← Prog.attempt (finishTransition root)
          pure entry.summary

-- ---------------------------------------------------------------------------
-- Restore
-- ---------------------------------------------------------------------------

def restoreSnapshot (name : String) (bytes : Bytes) : Prog daemon ProtocolFailure Unit := do
  let handle ← handleForName name
  inside handle.id (restoreSnapshotWithOperations root.restore handle bytes)

-- ---------------------------------------------------------------------------
-- Startup
-- ---------------------------------------------------------------------------

def recoverEntries : List String → Prog daemon ServerError Unit
  | [] => pure ()
  | name :: rest => do
    if ← directoryExists (.database name) then
      inside name (recoverDirectory root.restore (root.managed name))
    recoverEntries rest

def recoverSnapshotOperations : Prog daemon ServerError Unit := do
  match ← Prog.call (S := daemon) .readDatabases with
  | .error error => .fail ⟨s!"cannot inspect restore state: {error}"⟩
  | .ok names => recoverEntries root names

end

/-- A daemon at rest on the one Database `id`. -/
def Daemon.single (root : DataDirectory) (id name : String) (content : Bytes) : Daemon where
  disk := ((∅ : Disk).insert .serverState
    (.file (root.catalog.encode ⟨CATALOG_VERSION, [⟨id, name, "ready"⟩]⟩))).insert (.database id)
    (.directory (Function.update DbFiles.empty .database (some (.file content))))
  memory := { idle with
    catalog := ⟨CATALOG_VERSION, [⟨id, name, "ready"⟩]⟩
    databases := fun i => if i = id then some (root.managed id) else none
    handles := fun i => ⟨if i = id then some ⟨content⟩ else none, false⟩ }
  issued := 0

theorem Daemon.entry_single (id name : String) (content : Bytes) (p : RootPath) :
    (single root id name content).entry p =
      if p = .database id then
        some (.directory (Function.update DbFiles.empty .database (some (.file content))))
      else if p = .serverState then
        some (.file (root.catalog.encode ⟨CATALOG_VERSION, [⟨id, name, "ready"⟩]⟩))
      else none := by
  unfold entry single
  by_cases hd : p = .database id
  · subst hd
    simp
  · rw [AList.lookup_insert_ne hd, if_neg hd]
    by_cases hs : p = .serverState
    · subst hs
      rw [AList.lookup_insert, if_pos rfl]
    · rw [AList.lookup_insert_ne hs, if_neg hs]
      rfl

end NostdbServer
