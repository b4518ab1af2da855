import NostdbServer.Engine

/-!
# One managed Database

The files of a directory `databases/<id>`, the handle the daemon keeps on the
Database in it, and the steps snapshot restore and its recovery take on both.
-/

namespace NostdbServer

open Effects

/-- The files of one Database directory that the daemon names. -/
inductive DbFile
  | database
  | restoreCandidate
  | restoreBackup
  | restoreOperation
  | sidecar (f : DbFile)
  deriving DecidableEq, Repr

def DbFile.name : DbFile → String
  | .database => "database.nostdb"
  | .restoreCandidate => "database.nostdb.restore-candidate"
  | .restoreBackup => "database.nostdb.restore-backup"
  | .restoreOperation => "restore-operation"
  | .sidecar f => f.name ++ ".lock"

inductive Node
  | file (bytes : Bytes)
  | directory
  deriving DecidableEq, Repr

instance : FileLike Node where
  ofBytes := .file
  bytes?
    | .file b => some b
    | .directory => none
  bytes?_ofBytes _ := rfl

/-- `ManagedDatabase` without its mutex: identity and location. -/
structure ManagedDatabase where
  id : String
  directory : String
  deriving DecidableEq, Repr

def ManagedDatabase.display (handle : ManagedDatabase) (f : DbFile) : String :=
  handle.directory ++ "/" ++ f.name

/-- The directory, the `Mutex<Option<EmbeddedDatabase>>` and whether it is held. -/
structure Site where
  files : DbFile → Option Node
  slot : Option Database
  locked : Bool

def Site.setFile (s : Site) (f : DbFile) (n : Option Node) : Site :=
  { s with files := Function.update s.files f n }

def siteFiles : Volume Site DbFile Node where
  get s f := s.files f
  set := Site.setFile
  get_set s f g n := by simp [Site.setFile, Function.update_apply]

@[simp] theorem siteFiles_get (s : Site) (f : DbFile) : siteFiles.get s f = s.files f := rfl

inductive StorageOp
  | file (o : FileOp DbFile)
  | openDatabase (f : DbFile)
  | checkDatabase (f : DbFile)
  | adoptServerAuthority (f : DbFile)
  | checkpointDatabase (f : DbFile)
  | lock
  | unlock
  | take
  | put (database : Database)
  | checkpoint (database : Database)
  | peek
  | execute (statement : Statement) (limits : QueryLimits)
  | executeTransaction (statements : List Statement) (limits : QueryLimits)
  | inspect (i : Inspection)

def StorageOp.Ans : StorageOp → Type
  | .file o => o.Ans
  | .openDatabase _ => Except String Database
  | .checkDatabase _ => Except String Bool
  | .adoptServerAuthority _ | .checkpointDatabase _ => Except String Unit
  | .lock | .unlock | .put _ => Unit
  | .take | .peek => Option Database
  | .checkpoint _ => Except DatabaseError Unit
  | .execute _ _ => Except DatabaseError StatementResult
  | .executeTransaction _ _ => Except DatabaseError (List StatementResult)
  | .inspect i => i.Ans

abbrev storage : Signature := ⟨StorageOp, StorageOp.Ans⟩

/-- The filesystem or the engine reports an error. -/
def StorageOp.failed : (o : StorageOp) → o.Ans → Bool
  | .file o, r => o.failed r
  | .openDatabase _, r => !Except.isOk r
  | .checkDatabase _, r => !Except.isOk r
  | .adoptServerAuthority _, r | .checkpointDatabase _, r => !Except.isOk r
  | .checkpoint _, r => !Except.isOk r
  | .execute _ _, r => !Except.isOk r
  | .executeTransaction _ _, r => !Except.isOk r
  | .inspect .info, r => !Except.isOk r
  | .inspect .counts, r => !Except.isOk r
  | .inspect .check, r => !Except.isOk r
  | .inspect .exportLogical, r => !Except.isOk r
  | .lock, _ | .unlock, _ | .take, _ | .put _, _ | .peek, _ => false

namespace Site

def contentOf (s : Site) (f : DbFile) : Except String Bytes :=
  match s.files f with
  | some (.file b) => .ok b
  | some .directory => .error IoError.isDirectory.message
  | none => .error IoError.notFound.message

def leaveLockFile (E : Engine) (f : DbFile) (s : Site) : Site :=
  match E.lockFile with
  | none => s
  | some b => s.setFile (.sidecar f) (some (.file b))

/-- The directory after `EmbeddedDatabase::create` of the Database file. -/
def created (E : Engine) (s : Site) : Site :=
  (s.setFile .database (some (.file E.created))).leaveLockFile E .database

/-- An engine call on the file `f`: it fails as the outcome says, or does what
the content calls for. -/
def engineStep (c : Outcome) (s : Site) (f : DbFile)
    (act : Bytes → Except String (α × Site)) : Except String α × Site :=
  match c.error? with
  | some e => (.error e.message, s)
  | none =>
    match s.contentOf f >>= act with
    | .error m => (.error m, s)
    | .ok (a, s') => (.ok a, s')

theorem engineStep_cases {s t : Site} {act : Bytes → Except String (α × Site)}
    (h : s.engineStep c f act = (r, t)) :
    (∃ m, r = .error m ∧ t = s ∧ ((∃ e, c.error? = some e ∧ e.message = m) ∨
      c.error? = none ∧ ∀ b, s.files f = some (.file b) → act b = .error m)) ∨
    (c.error? = none ∧ ∃ b a, s.files f = some (.file b) ∧ act b = .ok (a, t) ∧ r = .ok a) := by
  unfold engineStep at h
  split at h
  · rename_i e he
    cases h
    exact .inl ⟨_, rfl, rfl, .inl ⟨e, he, rfl⟩⟩
  · rename_i he
    split at h
    · rename_i m hm
      cases h
      refine .inl ⟨m, rfl, rfl, .inr ⟨he, fun b hb => ?_⟩⟩
      simpa [contentOf, hb, bind, Except.bind] using hm
    · rename_i a u ha
      cases h
      refine .inr ⟨he, ?_⟩
      unfold contentOf at ha
      split at ha
      · rename_i b hb
        exact ⟨b, a, hb, ha, rfl⟩
      · cases ha
      · cases ha

/-- What the open Database commits becomes its content and that of its file. -/
def commit (s : Site) (content : Bytes) : Site :=
  { s.setFile .database (some (.file content)) with slot := some ⟨content⟩ }

/-- Statements on the open Database. The outcome stands for what the content
does not decide: limits, cancellation, the disk. -/
def execute (E : Engine) (act : Bytes → Except DatabaseError (α × Bytes)) (c : Outcome)
    (s : Site) : Except DatabaseError α × Site :=
  match c.error?, s.slot with
  | some e, _ => (.error (E.failure e.message), s)
  | none, none => (.error (E.failure "Database is unavailable"), s)
  | none, some d =>
    match act d.content with
    | .error error => (.error error, s)
    | .ok (a, content) => (.ok a, s.commit content)

def inspect (E : Engine) (i : Inspection) (c : Outcome) (s : Site) : i.Ans :=
  match c.error?, s.slot with
  | some e, _ => E.failedInspection e.message i
  | none, none => E.failedInspection "Database is unavailable" i
  | none, some d => E.inspect i d.content

def step (E : Engine) : (o : StorageOp) → Outcome → Site → Option (o.Ans × Site)
  | .file o, c, s => some (siteFiles.step o c s)
  | .openDatabase f, c, s =>
    some (s.engineStep c f fun b => (E.accepts b).map fun _ => (⟨b⟩, s.leaveLockFile E f))
  | .checkDatabase f, c, s =>
    some (s.engineStep c f fun b => (E.check b).map fun valid => (valid, s))
  | .adoptServerAuthority f, c, s =>
    some (s.engineStep c f fun b => (E.adopt b).map fun b' => ((), s.setFile f (some (.file b'))))
  | .checkpointDatabase f, c, s => some (s.engineStep c f fun _ => .ok ((), s))
  | .lock, _, s => if s.locked then none else some ((), { s with locked := true })
  | .unlock, _, s => some ((), { s with locked := false })
  | .take, _, s => some (s.slot, { s with slot := none })
  | .put d, _, s => some ((), { s with slot := some d })
  | .checkpoint _, c, s =>
    match c.error? with
    | some e => some (.error (E.failure e.message), s)
    | none => some (.ok (), s)
  | .peek, _, s => some (s.slot, s)
  | .execute statement limits, c, s => some (s.execute E (E.execute statement limits) c)
  | .executeTransaction statements limits, c, s =>
    some (s.execute E (E.executeTransaction statements limits) c)
  | .inspect i, c, s => some (s.inspect E i c, s)

end Site

/-- The Database with content `original`, open and at rest. -/
def Site.resting (original : Bytes) : Site :=
  ⟨fun f => if f = .database then some (.file original) else none, some ⟨original⟩, false⟩

def storageWorld (E : Engine) : World storage Outcome Site := ⟨Site.step E⟩

end NostdbServer
