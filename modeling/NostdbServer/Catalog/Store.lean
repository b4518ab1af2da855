import NostdbServer.Daemon.State
import NostdbServer.Restore.Operation

/-!
# The catalog store

`CatalogStore` on the data directory: the atomic replacement of the catalog,
the journaled transition around it, and the four passes of `load`. Documents
are written by the given codecs; the newline after each one is part of its
encoding.
-/

namespace NostdbServer

open Effects

namespace DaemonOp

def pathExists (p : RootPath) : Prog daemon ε Bool := .call (S := daemon) (.root (.pathExists p))
def read (p : RootPath) : Prog daemon ε (Except IoError Bytes) :=
  .call (S := daemon) (.root (.read p))
def createNew (p : RootPath) (bytes : Bytes) : Prog daemon ε (Except CreateError Unit) :=
  .call (S := daemon) (.root (.createNew p bytes))
def rename (source target : RootPath) : Prog daemon ε (Except IoError Unit) :=
  .call (S := daemon) (.root (.rename source target))
def remove (p : RootPath) : Prog daemon ε (Except IoError Unit) :=
  .call (S := daemon) (.root (.remove p))
def sync : Prog daemon ε (Except IoError Unit) := .call (S := daemon) (.root .sync)
def directoryExists (p : RootPath) : Prog daemon ε Bool := .call (S := daemon) (.isDir p)

end DaemonOp

open DaemonOp (pathExists read createNew rename remove directoryExists)

/-- A program on the files and the handle of one Database. -/
def inside (id : String) (p : Prog storage ε α) : Prog daemon ε α :=
  p.lift (T := daemon) (.storage id) fun _ ans => ans

/-- Where the data directory is, and how its documents are written. -/
structure DataDirectory where
  path : String
  catalog : Codec Catalog
  operation : Codec OperationJournal
  restore : Codec RestoreJournal

def DataDirectory.plain (path : String) : DataDirectory :=
  ⟨path, Catalog.format.codec, Catalog.journalFormat.codec, RestoreJournal.format.codec⟩

def DataDirectory.display (root : DataDirectory) (p : RootPath) : String :=
  root.path ++ "/" ++ p.name

def DataDirectory.managed (root : DataDirectory) (id : String) : ManagedDatabase :=
  ⟨id, root.display (.database id)⟩

/-- Where an interrupted catalog write is put aside. -/
def interrupted : RootPath := .recovery "interrupted-catalog.pending"

/-- Where storage is put aside that no catalog entry names. -/
def orphan (name : String) : RootPath := .recovery ("orphan-" ++ name)

section
variable (root : DataDirectory)

def writeJsonNew (p : RootPath) (bytes : Bytes) : Prog daemon ServerError Unit := do
  let path := root.display p
  match ← createNew p bytes with
  | .ok () => pure ()
  | .error (.opening error) => .fail ⟨s!"cannot create {path}: {error}"⟩
  | .error (.writing error) =>
    match ← remove p with
    | .ok () => .fail ⟨s!"cannot persist {path}: {error}"⟩
    | .error cleanup =>
      if cleanup.isNotFound then .fail ⟨s!"cannot persist {path}: {error}"⟩
      else .fail ⟨s!"cannot persist {path}: {error}; cannot remove partial file: {cleanup}"⟩

def removeIfExists (p : RootPath) : Prog daemon ServerError Unit := do
  match ← remove p with
  | .ok () => pure ()
  | .error error =>
    if error.isNotFound then pure ()
    else
      let path := root.display p
      .fail ⟨s!"cannot remove {path}: {error}"⟩

def syncParent : Prog daemon ServerError Unit := do
  match ← DaemonOp.sync with
  | .ok () => pure ()
  | .error error => .fail ⟨s!"cannot sync data directory: {error}"⟩

def readCatalogFile (p : RootPath) : Prog daemon ServerError Catalog := do
  let path := root.display p
  match ← read p with
  | .error error => .fail ⟨s!"cannot read catalog {path}: {error}"⟩
  | .ok bytes =>
  match root.catalog.decode bytes with
  | .error error => .fail ⟨s!"invalid catalog {path}: {error}"⟩
  | .ok catalog => pure catalog

-- ---------------------------------------------------------------------------
-- Replacing the catalog
-- ---------------------------------------------------------------------------

/-- Puts the pending catalog in place of the current one, whose copy is kept
as `server-state.previous` until the directory is synced. -/
def installPending (create : Bool) : Prog daemon ServerError Unit := do
  match ← rename .pending .serverState with
  | .error error =>
    let _ ← remove .pending
    if !create then
      let _ ← rename .previous .serverState
    .fail ⟨s!"cannot install catalog: {error}"⟩
  | .ok () =>
  match ← syncParent.attempt with
  | .error error =>
    let _ ← remove .serverState
    if !create then
      let _ ← rename .previous .serverState
      let _ ← DaemonOp.sync
    .fail error
  | .ok () =>
    -- The catalog is committed: a copy that stays behind is no error.
    let _ ← Prog.attempt (removeIfExists root .previous)

def writeAtomic (catalog : Catalog) (create : Bool) : Prog daemon ServerError Unit := do
  writeJsonNew root .pending (root.catalog.encode catalog)
  if create then
    if ← pathExists .serverState then
      let _ ← remove .pending
      .fail ⟨"server-state already exists"⟩
    else installPending root create
  else
    removeIfExists root .previous
    match ← rename .serverState .previous with
    | .error error => .fail ⟨s!"cannot preserve previous catalog: {error}"⟩
    | .ok () => installPending root create

def transition (next : Catalog) (kind : OperationKind) (databaseId : String) :
    Prog daemon ServerError Unit := do
  Prog.ofExcept (validateCatalog next)
  let before ← Prog.call (S := daemon) .readCatalog
  writeJsonNew root .operation
    (root.operation.encode ⟨OPERATION_VERSION, kind, databaseId, before, next⟩)
  match ← (writeAtomic root next false).attempt with
  | .error error =>
    let _ ← remove .operation
    .fail error
  | .ok () => Prog.call (S := daemon) (.writeCatalog next)

def finishTransition : Prog daemon ServerError Unit := removeIfExists root .operation

-- ---------------------------------------------------------------------------
-- Loading
-- ---------------------------------------------------------------------------

/-- The four steps of `recover_atomic_state`. -/
def restorePrevious : Prog daemon ServerError Unit := do
  if !(← pathExists .serverState) && (← pathExists .previous) then
    match ← rename .previous .serverState with
    | .error error => .fail ⟨s!"cannot restore previous catalog: {error}"⟩
    | .ok () => pure ()

def quarantinePending : Prog daemon ServerError Unit := do
  if ← pathExists .pending then
    if ← pathExists interrupted then
      .fail ⟨"multiple interrupted catalog writes require operator recovery"⟩
    else
      match ← rename .pending interrupted with
      | .error error => .fail ⟨s!"cannot preserve interrupted catalog: {error}"⟩
      | .ok () => pure ()

def dropPrevious : Prog daemon ServerError Unit := do
  if (← pathExists .serverState) && (← pathExists .previous) then
    let _ ← readCatalogFile root .serverState
    removeIfExists root .previous

def requireState : Prog daemon ServerError Unit := do
  if !(← pathExists .serverState) then
    .fail ⟨"data directory has no server-state catalog; run `nostd init` for a fresh directory"⟩

def recoverAtomicState : Prog daemon ServerError Unit := do
  restorePrevious
  quarantinePending
  dropPrevious root
  requireState

/-- The storage side of a journaled operation whose catalog was committed. -/
def completeOperation (journal : OperationJournal) : Prog daemon ServerError Unit := do
  let id := journal.databaseId
  match journal.kind with
  | .create =>
    if !(← inside id (.call (S := storage) (.file (.isFile .database)))) then
      .fail ⟨"committed Database create has no storage; operator recovery is required"⟩
  | .rename => pure ()
  | .drop =>
    if ← pathExists (.database id) then
      if ← pathExists (.trash id) then
        .fail ⟨"drop recovery found both active and trash storage"⟩
      else
        match ← rename (.database id) (.trash id) with
        | .error error => .fail ⟨s!"cannot finish interrupted Database drop: {error}"⟩
        | .ok () => pure ()

def recoverOperation (catalog : Catalog) : Prog daemon ServerError Unit := do
  if ← pathExists .operation then
    match ← read .operation with
    | .error error => .fail ⟨s!"cannot read lifecycle journal: {error}"⟩
    | .ok bytes =>
    match root.operation.decode bytes with
    | .error error => .fail ⟨s!"invalid lifecycle journal: {error}"⟩
    | .ok journal =>
    if journal.operationVersion ≠ OPERATION_VERSION then
      let version := journal.operationVersion
      .fail ⟨s!"unsupported lifecycle operation_version {version}"⟩
    else if catalog = journal.before then
      removeIfExists root .operation
    else if catalog ≠ journal.after then
      .fail ⟨"catalog matches neither side of the lifecycle journal; operator recovery is required"⟩
    else
      completeOperation journal
      removeIfExists root .operation

def validateStorage : List CatalogDatabase → Prog daemon ServerError Unit
  | [] => pure ()
  | database :: rest => do
    let directory ← directoryExists (.database database.id)
    let file ← inside database.id (.call (S := storage) (.file (.isFile .database)))
    if !directory || !file then
      let name := database.name
      .fail ⟨s!"catalog Database `{name}` has missing managed storage; recovery is required"⟩
    else validateStorage rest

/-- The loop over `databases/`, with the identities of the catalog. -/
def quarantineOrphans (known : List String) : List String → Prog daemon ServerError Unit
  | [] => pure ()
  | name :: rest => do
    if name ∈ known then quarantineOrphans known rest
    else if ← pathExists (orphan name) then
      .fail ⟨s!"orphan storage `{name}` and its recovery target both exist; operator recovery is required"⟩
    else
      match ← rename (.database name) (orphan name) with
      | .error error => .fail ⟨s!"cannot quarantine orphan storage `{name}`: {error}"⟩
      | .ok () => quarantineOrphans known rest

def recoverOrphans (catalog : Catalog) : Prog daemon ServerError Unit := do
  match ← Prog.call (S := daemon) .readDatabases with
  | .error error => .fail ⟨s!"cannot inspect managed Databases: {error}"⟩
  | .ok names => quarantineOrphans catalog.ids names

def load : Prog daemon ServerError Catalog := do
  recoverAtomicState root
  let catalog ← readCatalogFile root .serverState
  Prog.ofExcept (validateCatalog catalog)
  recoverOperation root catalog
  validateStorage catalog.databases
  recoverOrphans catalog
  pure catalog

end

end NostdbServer
