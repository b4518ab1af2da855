import NostdbServer.Catalog.Store
import NostdbServer.Effects.Tree
import NostdbServer.Protocol.Credentials

/-!
# Initialization

`DatabaseDaemon::initialize` and what it calls in the catalog store and the
configuration, on a whole file system: the data directory and the configuration
file may be anywhere. The catalog store writes its first catalog with the
program it always uses. Parsing the listener, writing TOML and the two random
credentials are parameters.
-/

namespace NostdbServer

open Effects

-- ---------------------------------------------------------------------------
-- The file system
-- ---------------------------------------------------------------------------

/-- Where the paths of the catalog store are. -/
def RootPath.under (root : Path) : RootPath → Path
  | .serverState => root ++ ["server-state"]
  | .pending => root ++ ["server-state.pending"]
  | .previous => root ++ ["server-state.previous"]
  | .operation => root ++ ["server-operation"]
  | .database id => root ++ ["databases", id]
  | .trash id => root ++ ["trash", id]
  | .recovery name => root ++ ["recovery", name]

theorem RootPath.under_inj {root : Path} {p q : RootPath} : p.under root = q.under root ↔ p = q := by
  refine ⟨fun h => ?_, fun h => h ▸ rfl⟩
  cases p <;> cases q <;> simp_all [RootPath.under]

/-- The files of the catalog store as part of the file system. -/
def storeFiles (root : Path) : Volume FileTree RootPath TreeNode where
  get t p := t.get (p.under root)
  set t p n := FileTree.files.set t (p.under root) n
  get_set t p q n := by
    rw [FileTree.get_set]
    simp only [RootPath.under_inj]

inductive InitOp
  | currentDir
  | tree (o : TreeOp)
  | store (root : Path) (o : DaemonOp)

def InitOp.Ans : InitOp → Type
  | .currentDir => Except IoError Path
  | .tree o => o.Ans
  | .store _ o => o.Ans

abbrev init : Signature := ⟨InitOp, InitOp.Ans⟩

/-- Steps that clean up after a failure. -/
def InitOp.cleans : InitOp → Bool
  | .tree (.file (.remove _)) | .tree (.removeDir _) | .store _ (.root (.remove _)) => true
  | _ => false

def initStep (current : Path) : (o : InitOp) → Outcome → FileTree → Option (o.Ans × FileTree)
  | .currentDir, c, t => some (match c.error? with
    | some e => .error e
    | none => .ok current, t)
  | .tree o, c, t => some (t.step o c)
  | .store root (.root (.createNew p bytes)), c, t =>
    some ((storeFiles root).step (.createNew p bytes) (t.outcomeAt (p.under root) c) t)
  | .store root (.root o), c, t => some ((storeFiles root).step o c t)
  -- Initialization does nothing else in the data directory.
  | .store _ _, _, _ => none

def initWorld (current : Path) : World init Outcome FileTree := ⟨initStep current⟩

-- ---------------------------------------------------------------------------
-- Configuration
-- ---------------------------------------------------------------------------

def Path.display (p : Path) : String := "/" ++ "/".intercalate p

structure DaemonLimits where
  maxConnections : Nat
  maxSessions : Nat
  maxTransactionStatements : Nat
  queryTimeoutMs : Nat
  maxRows : Nat
  maxMemoryBytes : Nat
  maxOperations : Nat
  maxTraversals : Nat
  maxSnapshotBytes : Nat

structure DaemonConfig where
  configVersion : Nat
  dataDirectory : Path
  listen : String
  queryCredentialFile : Path
  adminCredentialFile : Path
  limits : DaemonLimits

def CONFIG_VERSION : Nat := 1

def DaemonConfig.new (dataDirectory : Path) (listen : String) : DaemonConfig where
  configVersion := CONFIG_VERSION
  dataDirectory := dataDirectory
  listen := listen
  queryCredentialFile := dataDirectory ++ ["credentials", "client.token"]
  adminCredentialFile := dataDirectory ++ ["credentials", "admin.token"]
  limits := ⟨256, 1024, 1000, 30000, 10000, 64 * 1024 * 1024, 10000000, 1000000,
    1024 * 1024 * 1024⟩

def DaemonLimits.positive (limits : DaemonLimits) : Bool :=
  limits.maxConnections ≠ 0 && limits.maxSessions ≠ 0 && limits.maxTransactionStatements ≠ 0 &&
    limits.queryTimeoutMs ≠ 0 && limits.maxRows ≠ 0 && limits.maxMemoryBytes ≠ 0 &&
    limits.maxOperations ≠ 0 && limits.maxTraversals ≠ 0 && limits.maxSnapshotBytes ≠ 0

/-- What initialization takes from the libraries it is built on. `parseListen`
answers with the text of the address it understood. -/
structure InitLibraries where
  parseListen : String → Except String String
  trim : String → String
  encodeConfig : DaemonConfig → Except String Bytes
  catalog : Codec Catalog
  operation : Codec OperationJournal
  restore : Codec RestoreJournal

section
variable (libraries : InitLibraries)

def DaemonConfig.listenAddress (config : DaemonConfig) : Except ServerError String :=
  (libraries.parseListen config.listen).mapError fun error =>
    let listen := config.listen
    ⟨s!"invalid network.listen `{listen}`: {error}"⟩

def DaemonConfig.validate (config : DaemonConfig) : Except ServerError Unit := do
  let version := config.configVersion
  if version ≠ CONFIG_VERSION then
    .error ⟨s!"unsupported config_version {version}; this binary supports exactly {CONFIG_VERSION}"⟩
  else
    let listen ← config.listenAddress libraries
    if libraries.trim config.listen ≠ listen then
      .error ⟨"network.listen must be a canonical numeric IP:PORT address"⟩
    else if config.queryCredentialFile = config.adminCredentialFile then
      .error ⟨"query and admin credential files must be different"⟩
    else if !config.limits.positive then .error ⟨"all daemon limits must be positive"⟩
    else .ok ()

def onTree (o : TreeOp) : Prog init ε o.Ans := .call (S := init) (.tree o)

/-- `create_dir_all` of the parent, if the path has one. -/
def createParent (path : Path) (what : String) : Prog init ServerError Unit :=
  if path = [] then pure ()
  else do
    let parent := path.dropLast
    match ← onTree (.createDirAll parent) with
    | .ok () => pure ()
    | .error error =>
      let shown := Path.display parent
      .fail ⟨s!"cannot create {what} {shown}: {error}"⟩

/-- The rest of `write_new_file`, once the directory is there. -/
def persistNewFile (path : Path) (bytes : Bytes) : Prog init ServerError Unit := do
  let shown := Path.display path
  match ← onTree (.file (.createNew path bytes)) with
  | .ok () => pure ()
  | .error (.opening error) => .fail ⟨s!"cannot create {shown}: {error}"⟩
  | .error (.writing error) =>
    match ← onTree (.file (.remove path)) with
    | .ok () => .fail ⟨s!"cannot persist {shown}: {error}"⟩
    | .error cleanup =>
      if cleanup.isNotFound then .fail ⟨s!"cannot persist {shown}: {error}"⟩
      else .fail ⟨s!"cannot persist {shown}: {error}; cannot remove partial file: {cleanup}"⟩

def writeNewFile (path : Path) (bytes : Bytes) : Prog init ServerError Unit := do
  createParent path "directory"
  persistNewFile path bytes

def writeCredential (path : Path) (credential : String) : Prog init ServerError Unit :=
  writeNewFile path (utf8 (credential ++ "\n"))

def DaemonConfig.writeNew (config : DaemonConfig) (path : Path) : Prog init ServerError Unit := do
  Prog.ofExcept (config.validate libraries)
  createParent path "configuration directory"
  match libraries.encodeConfig config with
  | .error error => .fail ⟨s!"cannot encode configuration: {error}"⟩
  | .ok source => writeNewFile path source

end

-- ---------------------------------------------------------------------------
-- Cleaning up
-- ---------------------------------------------------------------------------

/-- What is reported of a removal: that the path was not there is no failure. -/
def removalFailure (path : Path) : Except IoError Unit → List String
  | .ok () => []
  | .error error =>
    let shown := Path.display path
    if error.isNotFound then [] else [s!"cannot remove {shown}: {error}"]

def removeFiles : List Path → Prog init ε (List String)
  | [] => pure []
  | path :: rest => do
    let result ← onTree (.file (.remove path))
    let failures ← removeFiles rest
    pure (removalFailure path result ++ failures)

def removeDirectories : List Path → Prog init ε (List String)
  | [] => pure []
  | path :: rest => do
    let result ← onTree (.removeDir path)
    let failures ← removeDirectories rest
    pure (removalFailure path result ++ failures)

def reportFailures (failures : List String) : Prog init ServerError Unit :=
  if failures.isEmpty then pure () else .fail ⟨"; ".intercalate failures⟩

/-- The directories `CatalogStore::initialize` lays out. -/
def layoutDirectories : List String := ["databases", "snapshots", "locks", "recovery", "trash"]

def ownRoot (root : Path) (existed : Bool) : List Path := if existed then [] else [root]

def rollbackCreatedDirectories (root : Path) (existed : Bool) (created : List Path) :
    Prog init ServerError Unit := do
  let failures ← removeDirectories (created.reverse ++ ownRoot root existed)
  reportFailures failures

/-- `CatalogStore::rollback_initialization` -/
def rollbackStore (root : Path) (existed : Bool) : Prog init ServerError Unit := do
  let files ← removeFiles ([RootPath.pending, .previous, .operation, .serverState].map (·.under root))
  let directories ← removeDirectories
    (layoutDirectories.reverse.map (root ++ [·]) ++ ownRoot root existed)
  reportFailures (files ++ directories)

def rollbackInitialization (config : DaemonConfig) (existed queryCreated adminCreated : Bool) :
    Prog init ServerError Unit := do
  let files ← removeFiles ((if adminCreated then [config.adminCredentialFile] else []) ++
    (if queryCreated then [config.queryCredentialFile] else []))
  let directory ← removeDirectories [config.dataDirectory ++ ["credentials"]]
  let store := match ← (rollbackStore config.dataDirectory existed).attempt with
    | .ok () => []
    | .error (error : ServerError) => [error.message]
  reportFailures (files ++ directory ++ store)

/-- The error of a call whose rollback may have failed as well. -/
def failAfter (error : ServerError) (what : String) (rollback : Prog init ServerError Unit) :
    Prog init ServerError α := do
  match ← rollback.attempt with
  | .ok () => .fail error
  | .error (rollbackError : ServerError) => .fail ⟨s!"{error}; {what} rollback was incomplete: {rollbackError}"⟩

-- ---------------------------------------------------------------------------
-- The catalog store
-- ---------------------------------------------------------------------------

/-- Stops at the first directory that cannot be made; those made are known. -/
def createLayout (root : Path) : List String → List Path → Prog init ε (Option ServerError × List Path)
  | [], created => pure (none, created)
  | directory :: rest, created => do
    match ← onTree (.createDir (root ++ [directory])) with
    | .error error => pure (some ⟨s!"cannot create data layout: {error}"⟩, created)
    | .ok () => createLayout root rest (created ++ [root ++ [directory]])

def inStore (root : Path) (p : Prog daemon ε α) : Prog init ε α :=
  p.lift (T := init) (.store root) fun _ ans => ans

section
variable (libraries : InitLibraries)

def InitLibraries.dataDirectory (root : Path) : DataDirectory :=
  ⟨Path.display root, libraries.catalog, libraries.operation, libraries.restore⟩

def layOut (root : Path) (existed : Bool) : Prog init ServerError Unit := do
  let (failure, created) ← createLayout root layoutDirectories []
  match failure with
  | some error =>
    failAfter error "catalog initialization" (rollbackCreatedDirectories root existed created)
  | none =>
    match ← (inStore root (writeAtomic (libraries.dataDirectory root) ⟨CATALOG_VERSION, []⟩
        true)).attempt with
    | .ok () => pure ()
    | .error error =>
      failAfter error "catalog initialization" (rollbackCreatedDirectories root existed created)

/-- `CatalogStore::initialize` -/
def initializeStore (root : Path) : Prog init ServerError Unit := do
  let shown := Path.display root
  let existed : Bool ← onTree (.file (.pathExists root))
  if existed then
    match ← onTree (.firstEntry root) with
    | .error error => .fail ⟨s!"cannot inspect data directory {shown}: {error}"⟩
    | .ok (some _) =>
      .fail ⟨s!"data directory {shown} is not empty; init never adopts existing files"⟩
    | .ok none => layOut libraries root existed
  else
    match ← onTree (.createDirAll root) with
    | .error error =>
      failAfter ⟨s!"cannot create data directory {shown}: {error}"⟩ "catalog initialization"
        (rollbackCreatedDirectories root existed [])
    | .ok () => layOut libraries root existed

end

-- ---------------------------------------------------------------------------
-- Initialization
-- ---------------------------------------------------------------------------

/-- A path as it is given. -/
inductive PathArgument
  | absolute (p : Path)
  | relative (p : Path)

def PathArgument.resolved (current : Path) : PathArgument → Path
  | .absolute p => p
  | .relative p => current ++ p

def absolute : PathArgument → Prog init ServerError Path
  | .absolute p => pure p
  | .relative p => do
    match ← Prog.call (S := init) .currentDir with
    | .ok current => pure (current ++ p)
    | .error error => .fail ⟨s!"cannot resolve current directory: {error}"⟩

def ensureNewPath (path : Path) (description : String) : Prog init ServerError Unit := do
  let shown := Path.display path
  match ← onTree (.inspect path) with
  | .ok () => .fail ⟨s!"{description} path {shown} already exists"⟩
  | .error error =>
    if error.isNotFound then pure ()
    else .fail ⟨s!"cannot inspect {description} path {shown}: {error}"⟩

structure InitializationReport where
  configPath : Path
  dataDirectory : Path
  queryCredentialFile : Path
  adminCredentialFile : Path

section
variable (libraries : InitLibraries)

/-- The closure that writes the three files; with its outcome, which of the
credentials are written. -/
def writeFiles (config : DaemonConfig) (configPath : Path) (query admin : String) :
    Prog init ε (Bool × Bool × Except ServerError Unit) := do
  match ← (writeCredential config.queryCredentialFile query).attempt with
  | .error error => pure (false, false, .error error)
  | .ok () =>
  match ← (writeCredential config.adminCredentialFile admin).attempt with
  | .error error => pure (true, false, .error error)
  | .ok () =>
    let result ← (config.writeNew libraries configPath).attempt
    pure (true, true, result)

/-- `query` and `admin` are the credentials it draws. -/
def initializeDaemon (configPath dataDirectory : PathArgument) (listen query admin : String) :
    Prog init ServerError InitializationReport := do
  let dataDirectory ← absolute dataDirectory
  let configPath ← absolute configPath
  let config := DaemonConfig.new dataDirectory listen
  let _ ← Prog.ofExcept (config.listenAddress libraries)
  ensureNewPath configPath "configuration"
  let existed : Bool ← onTree (.file (.pathExists dataDirectory))
  initializeStore libraries dataDirectory
  let (queryCreated, adminCreated, result) ← writeFiles libraries config configPath query admin
  match result with
  | .error error =>
    failAfter error "initialization"
      (rollbackInitialization config existed queryCreated adminCreated)
  | .ok () =>
    pure ⟨configPath, dataDirectory, config.queryCredentialFile, config.adminCredentialFile⟩

end

end NostdbServer
