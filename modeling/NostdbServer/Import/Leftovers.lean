import NostdbServer.Daemon.Open
import NostdbServer.Import.Package

/-!
# What a crash leaves in `databases/`

The data directory with the directories logical imports work in. Any operation
of the daemon is cut anywhere and the daemon is opened again: `databases/` then
has the directories of the catalog and nothing else, and in each of them the
Database and its lock file, unless the crash left one of two things no start
removes: the directory of an import, or the lock file of a candidate or a backup
that is itself gone.
-/

namespace NostdbServer

open Effects World

-- ---------------------------------------------------------------------------
-- The data directory with its imports
-- ---------------------------------------------------------------------------

/-- `imports id` are the `logical-import-…` directories in `databases/<id>`. -/
structure Premises where
  daemon : Daemon
  imports : String → List String

inductive PremisesOp
  | daemon (o : DaemonOp)
  | scratch (id directory : String) (o : ScratchOp)

def PremisesOp.Ans : PremisesOp → Type
  | .daemon o => o.Ans
  | .scratch _ _ o => o.Ans

abbrev premises : Signature := ⟨PremisesOp, PremisesOp.Ans⟩

/-- What the disk and the engine decide about one step. -/
structure Circumstance where
  outcome : Outcome
  answer : (o : ScratchOp) → o.Ans

namespace Premises

def crashed (s : Premises) : Premises := { s with daemon := s.daemon.crashed }

/-- An import stands as long as the directory it is in. -/
def withDaemon (s : Premises) (d : Daemon) : Premises :=
  ⟨d, fun id => if (d.entry (.database id)).isSome then s.imports id else []⟩

/-- A directory with an import in it is not empty. -/
def outcomeFor (s : Premises) : DaemonOp → Outcome → Outcome
  | .removeDir (.database id), c =>
    if s.imports id = [] then c else .fail "Directory not empty (os error 39)"
  | _, c => c

/-- The directory of an import, with what is missing above it. -/
def withImport (s : Premises) (id directory : String) : Premises where
  daemon :=
    match s.daemon.entry (.database id) with
    | some _ => s.daemon
    | none => Daemon.rootFiles.set s.daemon (.database id) (some (.directory .empty))
  imports := Function.update s.imports id (directory :: s.imports id)

/-- `create_dir_all` of `.nostdb` in it, which may fail half-way. -/
def createImport (s : Premises) (id directory : String) (c : Outcome) :
    Except String Unit × Premises :=
  match s.daemon.entry (.database id), c with
  | some (.file _), _ => (.error "Not a directory (os error 20)", s)
  | _, .fail message => (.error message, s)
  | _, .torn _ message => (.error message, s.withImport id directory)
  | _, .ok => (.ok (), s.withImport id directory)

/-- `remove_dir_all` -/
def removeImport (s : Premises) (id directory : String) (c : Outcome) :
    Except String Unit × Premises :=
  match c.error? with
  | some error => (.error error.message, s)
  | none =>
    if directory ∈ s.imports id then
      (.ok (), { s with imports := Function.update s.imports id ((s.imports id).erase directory) })
    else (.error IoError.notFound.message, s)

def step (E : Engine) (uuids : Nat → String) :
    (o : PremisesOp) → Circumstance → Premises → Option (o.Ans × Premises)
  | .daemon o, c, s =>
    (Daemon.step E uuids o (s.outcomeFor o c.outcome) s.daemon).map fun r =>
      (r.1, s.withDaemon r.2)
  | .scratch id directory .createDirectory, c, s => some (s.createImport id directory c.outcome)
  | .scratch id directory .removeDirectory, c, s => some (s.removeImport id directory c.outcome)
  | .scratch _ _ o, c, s => some (c.answer o, s)

end Premises

def premisesWorld (E : Engine) (uuids : Nat → String) : World premises Circumstance Premises :=
  ⟨Premises.step E uuids⟩

-- ---------------------------------------------------------------------------
-- The operations
-- ---------------------------------------------------------------------------

def onDaemon (p : Prog daemon ε α) : Prog premises ε α :=
  p.lift (T := premises) .daemon fun _ ans => ans

def onImport (id directory : String) (p : Prog scratch ε α) : Prog premises ε α :=
  p.lift (T := premises) (.scratch id directory) fun _ ans => ans

section
variable (root : DataDirectory) (parseModuleId : String → Option String)

/-- The free function `import_logical`, with the steps of the compilation. A
failed removal of the directory is only logged. -/
def importLogicalOn (handle : ManagedDatabase) (package : LogicalPackageDocument) :
    Prog premises ProtocolFailure Unit := do
  if package.packageVersion ≠ 1 ∨ package.languageVersion ≠ 1 then
    .fail (.new .queryError "logical package and language versions must both be 1")
  else
    let uuid : String ← onDaemon (Prog.call (S := daemon) .newId)
    let directory := "logical-import-" ++ uuid
    onImport handle.id directory (scratchStep (inScratch .createDirectory) internal)
    let result ← ((onImport handle.id directory (compilePackage parseModuleId package)).bind
      fun bytes => onDaemon (inside handle.id
        (restoreSnapshotWithOperations root.restore handle bytes))).attempt
    let _ ← onImport handle.id directory (inScratch .removeDirectory)
    Prog.ofExcept result

/-- The operations that change the data directory. -/
inductive StorageCall
  | create (name : String)
  | rename (name newName : String)
  | drop (name confirmName : String)
  | restore (name : String) (bytes : Bytes)
  | importLogical (name : String) (package : LogicalPackageDocument)

def StorageCall.run : StorageCall → Prog premises ProtocolFailure Unit
  | .create name => do
    let _ ← onDaemon (createDatabase root name)
  | .rename name newName => do
    let _ ← onDaemon (renameDatabase root name newName)
  | .drop name confirmName => do
    let _ ← onDaemon (dropDatabase root name confirmName)
  | .restore name bytes => onDaemon (restoreSnapshot root name bytes)
  | .importLogical name package => do
    let handle ← onDaemon (handleForName name)
    importLogicalOn root parseModuleId handle package

end

-- ---------------------------------------------------------------------------
-- A start on the whole directory
-- ---------------------------------------------------------------------------

section
variable {E : Engine} {uuids : Nat → String} {d d' : Daemon} {s s' : Premises}

/-- Recovery makes no Database directory. -/
theorem DaemonOp.Recovers.isSome_of {o : DaemonOp} {ans : o.Ans} (ho : o.Recovers)
    (h : Daemon.step E uuids o c d = some (ans, d')) (id : String)
    (hid : (d'.entry (.database id)).isSome = true) :
    (d.entry (.database id)).isSome = true := by
  cases o with
  | root o =>
    cases o with
    | createNew p bytes => exact ho.elim
    | rename p q =>
      by_cases hne : p = q
      · subst hne
        exact Volume.rename_self (Option.some.inj h) ▸ hid
      · obtain ⟨e, -, rfl, -⟩ | ⟨-, n, -, -, -, rfl⟩ := Volume.rename_cases hne (Option.some.inj h)
        · exact hid
        · have hq : RootPath.database id ≠ q := by
            rintro rfl
            exact ho
          rw [Daemon.entry_set, if_neg hq, Daemon.entry_set] at hid
          split at hid
          · cases hid
          · exact hid
    | remove p =>
      obtain ⟨e, -, rfl, -⟩ | ⟨-, -, -, rfl⟩ := Volume.remove_cases (Option.some.inj h)
      · exact hid
      · rw [Daemon.entry_set] at hid
        split at hid
        · cases hid
        · exact hid
    | read p => exact (Volume.read_cases (Option.some.inj h)).1 ▸ hid
    | sync => exact (Volume.sync_cases (Option.some.inj h)).1 ▸ hid
    | pathExists p | isFile p =>
      cases Option.some.inj h
      exact hid
  | storage i o =>
    obtain ⟨⟨ans', t⟩, -, hr⟩ := Option.map_eq_some_iff.mp h
    cases hr
    by_cases hd : d.hasDirectory (.database i) = true
    · rw [Daemon.entry_putSite hd] at hid
      split at hid
      · rename_i hi
        obtain ⟨files, hf⟩ := Daemon.hasDirectory_iff.mp hd
        rw [hi]
        exact Option.isSome_of_eq_some hf
      · exact hid
    · simpa [Daemon.putSite, hd] using hid
  | readDatabases =>
    have hs : d.readDatabases c = (ans, d') := Option.some.inj h
    unfold Daemon.readDatabases at hs
    split at hs <;> cases hs <;> exact hid
  | isDir p | writeCatalog p | insertHandle p | newHandle p q =>
    cases Option.some.inj h
    exact hid
  | _ => exact ho.elim

/-- A start in the larger world is one of the daemon, and the imports in the
directories that stay are as they were. -/
theorem onDaemon_eval {c : Circumstance} {p : Prog daemon ε α} {r : Except ε α}
    (hp : p.Only DaemonOp.Recovers)
    (h : (premisesWorld E uuids).eval c (onDaemon p) s = some (r, s')) :
    (daemonWorld E uuids).eval c.outcome p s.daemon = some (r, s'.daemon) ∧
      ∀ id, (s'.daemon.entry (.database id)).isSome = true →
        (s.daemon.entry (.database id)).isSome = true ∧ s'.imports id = s.imports id := by
  induction p generalizing s with
  | pure a =>
    cases h
    exact ⟨rfl, fun _ hid => ⟨hid, rfl⟩⟩
  | fail e =>
    cases h
    exact ⟨rfl, fun _ hid => ⟨hid, rfl⟩⟩
  | op o next ih =>
    obtain ⟨⟨ans, t⟩, hs, h⟩ := Option.bind_eq_some_iff.mp h
    obtain ⟨⟨ans', d⟩, hd, hr⟩ := Option.map_eq_some_iff.mp hs
    cases hr
    have hc : s.outcomeFor o c.outcome = c.outcome := by
      cases o with
      | removeDir p => exact hp.1.elim
      | _ => rfl
    rw [hc] at hd
    obtain ⟨heval, hkept⟩ := ih ans' (hp.2 ans') h
    refine ⟨?_, fun id hid => ?_⟩
    · exact Option.bind_eq_some_iff.mpr ⟨_, hd, heval⟩
    · obtain ⟨hmid, himports⟩ := hkept id hid
      exact ⟨hp.1.isSome_of hd id hmid, himports.trans (if_pos hmid)⟩

end

-- ---------------------------------------------------------------------------
-- Live storage only
-- ---------------------------------------------------------------------------

/-- `databases/` has the directories of the catalog, and in each of them nothing
but the Database and its lock file. -/
structure LiveOnly (catalog : Catalog) (s : Premises) : Prop where
  listed : ∀ id, id ∈ s.daemon.listing ↔ id ∈ catalog.ids
  files : ∀ id ∈ catalog.ids, ∃ files, s.daemon.entry (.database id) = some (.directory files) ∧
    ∀ f, (files f).isSome = true → f = .database ∨ f = .sidecar .database
  imports : ∀ id ∈ catalog.ids, s.imports id = []

/-- No import has left its directory with a Database of the catalog, and every
lock file of a candidate or a backup has what makes recovery remove it. -/
def Clearable (catalog : Catalog) (s : Premises) : Prop :=
  ∀ id ∈ catalog.ids, s.imports id = [] ∧
    ∀ files, s.daemon.entry (.database id) = some (.directory files) →
      ∀ f, f.stray = true → (files f).isSome = true → files.Clears f ∧ files f ≠ some .directory

section
variable {files files' : DbFiles}

/-- Once nothing else is left of a restore, a directory has only live files if
and only if recovery could take away every lock file. -/
theorem live_iff_clears (hclean : files'.Clean) (hswept : Swept files files') :
    (∀ f, (files' f).isSome = true → f = .database ∨ f = .sidecar .database) ↔
      ∀ f, f.stray = true → (files f).isSome = true →
        files.Clears f ∧ files f ≠ some .directory := by
  constructor
  · intro hlive f hf hsome
    have hgone : files' f = none := by
      by_contra hne
      rcases hlive f (Option.isSome_iff_ne_none.mpr hne) with rfl | rfl <;> cases hf
    rw [hswept f hf, swept] at hgone
    split at hgone
    · rename_i hclears
      refine ⟨hclears, fun hd => ?_⟩
      rw [hd] at hgone
      cases hgone
    · rw [hgone] at hsome
      cases hsome
  · intro hclears f hsome
    by_cases hf : f.stray = true
    · rw [hswept f hf, swept] at hsome
      by_cases hfile : (files f).isSome = true
      · obtain ⟨hc, hdir⟩ := hclears f hf hfile
        rw [if_pos hc] at hsome
        rcases hn : files f with _ | _ | _
        · rw [hn] at hsome
          cases hsome
        · rw [hn] at hsome
          cases hsome
        · exact absurd hn hdir
      · have hnone : files f = none := by simpa using hfile
        rw [hnone] at hsome
        split at hsome <;> cases hsome
    · cases f with
      | database => exact .inl rfl
      | restoreCandidate => cases hclean.1 ▸ hsome
      | restoreBackup => cases hclean.2.1 ▸ hsome
      | restoreOperation => cases hclean.2.2 ▸ hsome
      | sidecar g => exact .inr (by simpa [DbFile.stray] using hf)

end

/-- No error, and a package that compiles to `[2]`. -/
def Circumstance.fine : Circumstance where
  outcome := .ok
  answer
    | .loadConfig => .ok fun _ => none
    | .readCandidate => .ok [2]
    | .createDirectory | .writeSettings _ | .createParent _ | .writeModule _ _ | .synchronize
    | .openCandidate | .adoptServerAuthority | .checkpointCandidate | .removeDirectory => .ok ()

/-- The plain engine, with lock files. -/
def lockingEngine : Engine := { Engine.plain with lockFile := some [] }

def premisesOfAlpha : Premises := ⟨.single (.plain "data") alpha.id alpha.name [1], fun _ => []⟩

/-- The call is cut after `n` steps. -/
def cutCall (call : StorageCall) (n : Nat) : Premises :=
  ((premisesWorld lockingEngine fun _ => "1").run (List.replicate n .fine)
    (call.run (.plain "data") fun _ => none) premisesOfAlpha).2

/-- The start after that. -/
def restarted (call : StorageCall) (n : Nat) : Option (Except ServerError Catalog × Premises) :=
  (premisesWorld lockingEngine fun _ => "1").eval .fine
    (onDaemon (openDaemon lockingEngine (.plain "data") (.ok ()))) (cutCall call n).crashed

end NostdbServer
