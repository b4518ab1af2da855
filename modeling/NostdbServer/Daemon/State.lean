import NostdbServer.Catalog.Entries
import NostdbServer.Restore.Site

/-!
# The data directory and the daemon that owns it

What is on disk survives a crash; the rest is the process. A managed handle is
known by the Database it was made for: a process makes one per identifier. The
directories `init` lays out are always there. `Uuid::new_v4` answers with the
identifiers `uuids` one after the other, across all processes.
-/

namespace NostdbServer

open Effects

/-- The paths of the data directory that the daemon names. -/
inductive RootPath
  | serverState
  | pending
  | previous
  | operation
  | database (id : String)
  | trash (id : String)
  | recovery (name : String)
  deriving DecidableEq, Repr

def RootPath.name : RootPath → String
  | .serverState => "server-state"
  | .pending => "server-state.pending"
  | .previous => "server-state.previous"
  | .operation => "server-operation"
  | .database id => "databases/" ++ id
  | .trash id => "trash/" ++ id
  | .recovery name => "recovery/" ++ name

abbrev DbFiles := DbFile → Option Node

/-- Only Database directories have content the daemon looks at. -/
inductive Entry
  | file (bytes : Bytes)
  | directory (files : DbFiles)

instance : FileLike Entry where
  ofBytes := .file
  bytes?
    | .file b => some b
    | .directory _ => none
  bytes?_ofBytes _ := rfl

def DbFiles.empty : DbFiles := fun _ => none

def DbFiles.isEmpty (files : DbFiles) : Bool :=
  [DbFile.database, .restoreCandidate, .restoreBackup, .restoreOperation].all fun f =>
    (files f).isNone && (files (.sidecar f)).isNone

abbrev Disk := AList fun _ : RootPath => Entry

/-- `Mutex<Option<EmbeddedDatabase>>`, and whether it is held. -/
structure Handle where
  slot : Option Database
  locked : Bool
  deriving DecidableEq, Repr

/-- `DatabaseDaemon`: the catalog and the map of handles, each with its lock. -/
structure Memory where
  catalog : Catalog
  catalogLocked : Bool
  databases : String → Option ManagedDatabase
  databasesLocked : Bool
  handles : String → Handle

structure Daemon where
  disk : Disk
  memory : Memory
  issued : Nat

namespace Daemon

def entry (d : Daemon) (p : RootPath) : Option Entry := d.disk.lookup p

def rootFiles : Volume Daemon RootPath Entry where
  get := entry
  set d p n := { d with disk := Volume.ofAList.set d.disk p n }
  get_set d p q n := Volume.ofAList.get_set d.disk p q n

/-- The entries of `databases/`. -/
def listing (d : Daemon) : List String :=
  d.disk.keys.filterMap fun
    | .database id => some id
    | _ => none

def filesOf (d : Daemon) (id : String) : DbFiles :=
  match d.entry (.database id) with
  | some (.directory files) => files
  | _ => .empty

def hasDirectory (d : Daemon) (p : RootPath) : Bool :=
  match d.entry p with
  | some (.directory _) => true
  | _ => false

/-- The Database `id` as its handle and its directory show it. -/
def site (d : Daemon) (id : String) : Site :=
  ⟨d.filesOf id, (d.memory.handles id).slot, (d.memory.handles id).locked⟩

def setHandle (d : Daemon) (id : String) (h : Handle) : Daemon :=
  { d with memory := { d.memory with handles := Function.update d.memory.handles id h } }

def putSite (d : Daemon) (id : String) (s : Site) : Daemon :=
  if d.hasDirectory (.database id) then
    rootFiles.set (d.setHandle id ⟨s.slot, s.locked⟩) (.database id) (some (.directory s.files))
  else d.setHandle id ⟨s.slot, s.locked⟩

/-- Nothing can be created in a directory that is gone, and it cannot be synced. -/
def outcomeAt (d : Daemon) (id : String) (o : StorageOp) (c : Outcome) : Outcome :=
  if d.hasDirectory (.database id) then c
  else match o with
    | .file (.createNew _ _) | .file .sync => .fail IoError.notFound.message
    | _ => c

end Daemon

inductive DaemonOp
  | root (o : FileOp RootPath)
  | isDir (p : RootPath)
  | createDir (p : RootPath)
  | removeDir (p : RootPath)
  | readDatabases
  | createDatabase (id : String)
  | storage (id : String) (o : StorageOp)
  | newId
  | lockCatalog
  | unlockCatalog
  | readCatalog
  | writeCatalog (catalog : Catalog)
  | lockDatabases
  | unlockDatabases
  | getHandle (id : String)
  | readHandle (id : String)
  | insertHandle (handle : ManagedDatabase)
  | removeHandle (id : String)
  | newHandle (id : String) (database : Database)

def DaemonOp.Ans : DaemonOp → Type
  | .root o => o.Ans
  | .isDir _ => Bool
  | .createDir _ | .removeDir _ => Except IoError Unit
  | .readDatabases => Except IoError (List String)
  | .createDatabase _ => Except DatabaseError Database
  | .storage _ o => o.Ans
  | .newId => String
  | .readCatalog => Catalog
  | .getHandle _ | .readHandle _ => Option ManagedDatabase
  | .lockCatalog | .unlockCatalog | .writeCatalog _ | .lockDatabases | .unlockDatabases
  | .insertHandle _ | .removeHandle _ | .newHandle _ _ => Unit

abbrev daemon : Signature := ⟨DaemonOp, DaemonOp.Ans⟩

/-- The filesystem or the engine reports an error. -/
def DaemonOp.failed : (o : DaemonOp) → o.Ans → Bool
  | .root o, r => o.failed r
  | .createDir _, r | .removeDir _, r => !Except.isOk r
  | .readDatabases, r => !Except.isOk r
  | .createDatabase _, r => !Except.isOk r
  | .storage _ o, r => o.failed r
  | _, _ => false

namespace Daemon

def createDir (p : RootPath) (c : Outcome) (d : Daemon) : Except IoError Unit × Daemon :=
  match c.error?, d.entry p with
  | some e, _ => (.error e, d)
  | none, some _ => (.error .alreadyExists, d)
  | none, none => (.ok (), rootFiles.set d p (some (.directory .empty)))

def removeDir (p : RootPath) (c : Outcome) (d : Daemon) : Except IoError Unit × Daemon :=
  match c.error?, d.entry p with
  | some e, _ => (.error e, d)
  | none, none => (.error .notFound, d)
  | none, some (.file _) => (.error ⟨.other, "Not a directory (os error 20)"⟩, d)
  | none, some (.directory files) =>
    if files.isEmpty then (.ok (), rootFiles.set d p none)
    else (.error ⟨.other, "Directory not empty (os error 39)"⟩, d)

def readDatabases (c : Outcome) (d : Daemon) : Except IoError (List String) × Daemon :=
  match c.error? with
  | some e => (.error e, d)
  | none => (.ok d.listing, d)

/-- `EmbeddedDatabase::create` of the Database file in an existing directory. -/
def createDatabase (E : Engine) (id : String) (c : Outcome) (d : Daemon) :
    Except DatabaseError Database × Daemon :=
  match c.error?, d.entry (.database id) with
  | some e, _ => (.error (E.failure e.message), d)
  | none, some (.directory files) =>
    match files .database with
    | some _ => (.error (E.failure IoError.alreadyExists.message), d)
    | none => (.ok ⟨E.created⟩, d.putSite id ((d.site id).created E))
  | none, _ => (.error (E.failure IoError.notFound.message), d)

def step (E : Engine) (uuids : Nat → String) :
    (o : DaemonOp) → Outcome → Daemon → Option (o.Ans × Daemon)
  | .root o, c, d => some (rootFiles.step o c d)
  | .isDir p, _, d => some (d.hasDirectory p, d)
  | .createDir p, c, d => some (d.createDir p c)
  | .removeDir p, c, d => some (d.removeDir p c)
  | .readDatabases, c, d => some (d.readDatabases c)
  | .createDatabase id, c, d => some (d.createDatabase E id c)
  | .storage id o, c, d =>
    (Site.step E o (d.outcomeAt id o c) (d.site id)).map fun r => (r.1, d.putSite id r.2)
  | .newId, _, d => some (uuids d.issued, { d with issued := d.issued + 1 })
  | .lockCatalog, _, d =>
    if d.memory.catalogLocked then none
    else some ((), { d with memory := { d.memory with catalogLocked := true } })
  | .unlockCatalog, _, d => some ((), { d with memory := { d.memory with catalogLocked := false } })
  | .readCatalog, _, d => some (d.memory.catalog, d)
  | .writeCatalog catalog, _, d => some ((), { d with memory := { d.memory with catalog } })
  | .lockDatabases, _, d =>
    if d.memory.databasesLocked then none
    else some ((), { d with memory := { d.memory with databasesLocked := true } })
  | .unlockDatabases, _, d =>
    some ((), { d with memory := { d.memory with databasesLocked := false } })
  | .getHandle id, _, d => some (d.memory.databases id, d)
  | .readHandle id, _, d =>
    if d.memory.databasesLocked then none else some (d.memory.databases id, d)
  | .insertHandle handle, _, d =>
    some ((), { d with memory := { d.memory with
      databases := Function.update d.memory.databases handle.id (some handle) } })
  | .removeHandle id, _, d =>
    some ((), { d with memory := { d.memory with
      databases := Function.update d.memory.databases id none } })
  | .newHandle id database, _, d => some ((), d.setHandle id ⟨some database, false⟩)

end Daemon

namespace Daemon

/-- The memory of a process that has opened nothing. -/
def idle : Memory := ⟨⟨CATALOG_VERSION, []⟩, false, fun _ => none, false, fun _ => ⟨none, false⟩⟩

/-- What a crash leaves: the disk. -/
def crashed (d : Daemon) : Daemon := { d with memory := idle }

end Daemon

def daemonWorld (E : Engine) (uuids : Nat → String) : World daemon Outcome Daemon :=
  ⟨Daemon.step E uuids⟩

end NostdbServer
