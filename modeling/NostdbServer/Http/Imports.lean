import NostdbServer.Http.Snapshot
import NostdbServer.Restore.Noted

/-!
# Snapshot imports that fail

`Harm` is what the steps of an import tell about the Database that was live
before: how many steps failed, whether the checkpoint of that Database or the
removal of its backup was one of them, and what was put into the slot last. If
no second step fails, every other failure is made good again.
-/

namespace NostdbServer.Http

open Effects World

structure Harm where
  failures : Nat
  checkpoint : Bool
  cleanup : Bool
  installed : Option Bytes
  deriving DecidableEq, Repr

def HttpOp.fails (e : Event http) : Bool :=
  match e with
  | ⟨.storage o, answer⟩ => o.failed answer
  | ⟨.scratch .loadConfig, answer⟩ => !Except.isOk answer
  | ⟨.scratch .readCandidate, answer⟩ => !Except.isOk answer
  | ⟨.scratch .createDirectory, answer⟩ | ⟨.scratch (.writeSettings _), answer⟩
  | ⟨.scratch (.createParent _), answer⟩ | ⟨.scratch (.writeModule _ _), answer⟩
  | ⟨.scratch .synchronize, answer⟩ | ⟨.scratch .openCandidate, answer⟩
  | ⟨.scratch .adoptServerAuthority, answer⟩ | ⟨.scratch .checkpointCandidate, answer⟩
  | ⟨.scratch .removeDirectory, answer⟩ => !Except.isOk answer
  | ⟨_, _⟩ => false

namespace Harm

def none : Harm := ⟨0, false, false, .none⟩

/-- One step has failed, and it was no other than the two that do harm. -/
def once : Harm := ⟨1, false, false, .none⟩

/-- What a step on the Database adds, its failure apart. -/
def mark (m : Harm) (e : Event storage) : Harm :=
  match e with
  | ⟨.checkpoint _, .error _⟩ => { m with checkpoint := true }
  | ⟨.file (.remove .restoreBackup), .error _⟩ => { m with cleanup := true }
  | ⟨.put database, _⟩ => { m with installed := some database.content }
  | _ => m

def count (m : Harm) (failed : Bool) : Harm :=
  if failed then { m with failures := m.failures + 1 } else m

def noteStorage (m : Harm) (e : Event storage) : Harm := (m.mark e).count (e.op.failed e.answer)

def note (m : Harm) (e : Event http) : Harm :=
  match e with
  | ⟨.storage o, answer⟩ => m.noteStorage ⟨o, answer⟩
  | e => m.count (HttpOp.fails e)

/-- Neither the checkpoint nor the removal of the backup failed, or the backup
stayed and the new content is the old one. -/
def Spares (live : Bytes) (m : Harm) : Prop :=
  m.checkpoint = false ∧ (m.cleanup = true → m.installed = some live)

instance (live : Bytes) (m : Harm) : Decidable (m.Spares live) :=
  inferInstanceAs (Decidable (_ ∧ _))

end Harm

/-- The slot and the Database file are as they were. -/
def Serves (live : Bytes) (w : View) : Prop :=
  w.slot = some ⟨live⟩ ∧ w.database = some (.file live)

/-- How a run with at most one failing step ends. -/
def Ended (live : Bytes) (m : Harm) (w : View) : Prop :=
  m.failures ≤ 1 → (Serves live w ↔ m.Spares live)

section
variable {E : Engine} {live : Bytes} {m : Harm} {v : View}

theorem Harm.le_note (m : Harm) (e : Event storage) : m.failures ≤ (m.noteStorage e).failures := by
  have hmark : (m.mark e).failures = m.failures := by
    unfold Harm.mark
    split <;> rfl
  unfold noteStorage Harm.count
  split
  · simp only [hmark]
    omega
  · exact hmark.ge

theorem Harm.note_remove {f : DbFile} {error : IoError} (he : error.isNotFound = false) :
    m.noteStorage ⟨.file (.remove f), .error error⟩ =
      { m.mark ⟨.file (.remove f), .error error⟩ with failures := m.failures + 1 } := by
  have hmark : (m.mark ⟨.file (.remove f), .error error⟩).failures = m.failures := by
    unfold Harm.mark
    split <;> rfl
  simp [noteStorage, Harm.count, StorageOp.failed, FileOp.failed, he, hmark]

/-- Runs with a second failure are not judged. -/
theorem Ended.twice {p : Prog storage ApiError Unit} (hm : 1 < m.failures) :
    Notes E Harm.noteStorage p m v (fun _ _ _ => True) (fun _ => Ended live) :=
  Notes.doomed (P := fun m => 1 < m.failures) (fun m e h => Nat.lt_of_lt_of_le h (m.le_note e))
    (fun _ _ _ _ => trivial) (fun _ _ _ h hle => absurd hle (Nat.not_le.mpr h)) hm

/-- After one failure: the Database is opened again, or a second step fails. -/
theorem reopenTarget_ends {e : ApiError} {candidate backup : Option Node} :
    Notes E Harm.noteStorage (reopenTarget.bind fun _ => (.fail e : Prog storage ApiError Unit))
      .once ⟨some (.file live), candidate, backup, none, none, true⟩ (fun _ _ _ => True)
      (fun _ => Ended live) := by
  unfold reopenTarget
  simp only [Prog.bind_eq]
  refine Notes.bind (Notes.openDatabase trivial ?_ fun error => ?_)
  · rintro b hb -
    cases hb
    refine Notes.put (Notes.pure (Notes.fail fun _ => ?_))
    exact iff_of_true ⟨rfl, rfl⟩ ⟨rfl, nofun⟩
  · exact Notes.pure (Ended.twice (Nat.lt_succ_self 1))

theorem openInstalled_ends {candidate : Option Node} {b : Bytes} :
    Notes E Harm.noteStorage openInstalled .none
      ⟨some (.file b), candidate, some (.file live), none, none, true⟩ (fun _ _ _ => True)
      (fun _ => Ended live) := by
  unfold openInstalled
  simp only [Prog.bind_eq]
  refine Notes.openDatabase trivial ?_ fun error => ?_
  · intro b hb _
    cases hb
    refine Notes.put (Notes.remove trivial (fun _ => Notes.pure trivial) (fun hn => nomatch hn)
      fun error he => Notes.fail fun _ => ?_)
    rw [Harm.note_remove he]
    -- the new Database is open; it makes no difference only if it is the old one
    constructor
    · rintro ⟨hslot, -⟩
      cases hslot
      exact ⟨rfl, fun _ => rfl⟩
    · rintro ⟨-, h⟩
      cases h rfl
      exact ⟨rfl, rfl⟩
  · refine Notes.remove trivial ?_ (fun hn => nomatch hn) fun error he => ?_
    · intro _
      refine Notes.rename trivial trivial (by simp) ?_ fun error => Ended.twice (Nat.lt_succ_self 1)
      intro n hn
      cases hn
      exact reopenTarget_ends
    · refine Ended.twice ?_
      rw [Harm.note_remove he]
      exact Nat.lt_succ_self 1

theorem replace_ends {b : Bytes} :
    Notes E Harm.noteStorage replace .none
      ⟨some (.file live), some (.file b), none, none, some ⟨live⟩, true⟩ (fun _ _ _ => True)
      (fun _ => Ended live) := by
  unfold replace
  simp only [Prog.bind_eq]
  refine Notes.take (Notes.checkpoint ?_)
  rintro (error | _)
  · exact Notes.fail fun _ => iff_of_false (fun h => nomatch h.1) fun h => nomatch h.1
  refine Notes.rename trivial trivial (by simp) ?_ fun error => reopenTarget_ends
  intro n hn
  cases hn
  refine Notes.rename trivial trivial (by simp) ?_ fun error => ?_
  · intro n hn
    cases hn
    exact openInstalled_ends
  · refine Notes.rename trivial trivial (by simp) ?_ fun error => Ended.twice (Nat.lt_succ_self 1)
    intro n hn
    cases hn
    exact reopenTarget_ends

/-- The live Database is not touched. -/
theorem stage_ends {body : Bytes} :
    Notes E Harm.noteStorage (stage body) .none (.serving live)
      (fun _ m w => m = .none ∧ ∃ b,
        w = { View.serving live with candidate := some (.file b) })
      (fun _ => Ended live) := by
  have hkept : ∀ {m candidate}, m.checkpoint = false → m.cleanup = false →
      Ended live m { View.serving live with candidate } := by
    intro m candidate hcheckpoint hcleanup _
    exact iff_of_true ⟨rfl, rfl⟩ ⟨hcheckpoint, fun h => nomatch hcleanup.symm.trans h⟩
  unfold stage
  simp only [Prog.bind_eq]
  refine Notes.createNew trivial ?_ (fun _ => Notes.fail (hkept rfl rfl))
    fun _ n error => Notes.fail (hkept rfl rfl)
  intro _
  refine Notes.openDatabase trivial (fun _ _ _ => ?_) fun error => Notes.fail (hkept rfl rfl)
  refine Notes.checkDatabase trivial ?_
  rintro (error | _ | _)
  · exact Notes.fail (hkept rfl rfl)
  · exact Notes.fail (hkept rfl rfl)
  refine Notes.adoptServerAuthority trivial (fun b => ?_) fun error =>
    Notes.fail (hkept rfl rfl)
  refine Notes.checkpointDatabase ?_
  rintro (error | _)
  · exact Notes.fail (hkept rfl rfl)
  · exact Notes.pure ⟨rfl, _, rfl⟩

/-- Whether the temporary file goes makes no difference. -/
theorem removeTemporary_ends {F : ApiError → Harm → View → Prop} (h : Ended live m v) :
    Notes E Harm.noteStorage removeTemporary m v (fun _ => Ended live) F := by
  unfold removeTemporary
  simp only [Prog.bind_eq]
  refine Notes.pathExists trivial ?_
  split
  · refine Notes.remove trivial (fun _ => Notes.pure h) (fun _ => Notes.pure h) fun error he =>
      Notes.pure ?_
    rw [Harm.note_remove he]
    exact fun hle => h (Nat.le_of_succ_le hle)
  · exact Notes.pure h

theorem removeTemporary_returns {F : ApiError → Harm → View → Prop} :
    Notes E Harm.noteStorage removeTemporary m v (fun _ _ _ => True) F := by
  unfold removeTemporary
  simp only [Prog.bind_eq]
  refine Notes.pathExists trivial ?_
  split
  · exact Notes.remove trivial (fun _ => Notes.pure trivial) (fun _ => Notes.pure trivial)
      fun _ _ => Notes.pure trivial
  · exact Notes.pure trivial

theorem restoreSnapshot_ends {body : Bytes} :
    Notes E Harm.noteStorage (restoreSnapshot body) .none (.serving live) (fun _ _ _ => True)
      (fun _ => Ended live) := by
  have hfailed : ∀ {error m w}, Ended live m w → Notes E Harm.noteStorage
      (removeTemporary.bind fun _ => Prog.ofExcept (.error error)) m w (fun (_ : Unit) _ _ => True)
      (fun _ => Ended live) := fun h =>
    Notes.seq (removeTemporary_ends h) (fun _ _ _ h => Notes.fail h) fun _ _ _ h => h
  unfold restoreSnapshot
  simp only [Prog.bind_eq]
  refine Notes.attempt (Notes.seq stage_ends ?_ fun _ _ _ h => hfailed h)
  rintro _ _ _ ⟨rfl, candidate, rfl⟩
  unfold withGuard
  simp only [Prog.bind_eq]
  refine Notes.lock (Notes.attempt (Notes.mono replace_ends ?_ ?_))
  · intro _ m w _
    refine Notes.unlock (Notes.pure (Notes.seq removeTemporary_returns ?_ fun _ _ _ h => h))
    exact fun _ _ _ _ => Notes.pure trivial
  · intro error m w h
    exact Notes.unlock (Notes.fail (hfailed h))

-- ---------------------------------------------------------------------------
-- The import as a whole
-- ---------------------------------------------------------------------------

variable {config : Config}

abbrev Imports (E : Engine) (config : Config) (p : Prog http ε α) (m : Harm) (v : View)
    (Q : α → Harm → View → Prop) (F : ε → Harm → View → Prop) : Prop :=
  (httpWorld E config).Notes Harm.note (fun a => a.site.view) p m v Q F

theorem onStorage_imports {p : Prog storage ε α} {Q : α → Harm → View → Prop}
    {F : ε → Harm → View → Prop} (h : Notes E Harm.noteStorage p m v Q F) :
    Imports E config (onStorage p) m v Q F := by
  refine World.Notes.lift Adapter.site Chance.outcome ?_ (fun _ _ _ => rfl) h
  intro o c a ans a' hs
  obtain ⟨⟨ans', site⟩, hsite, hr⟩ := Option.map_eq_some_iff.mp hs
  cases hr
  exact hsite

/-- What a failed step in the scratch directory leaves as it was. -/
def Beside (m : Harm) (v : View) (m' : Harm) (w : View) : Prop :=
  w = v ∧ m'.checkpoint = m.checkpoint ∧ m'.cleanup = m.cleanup

theorem Beside.count (failed : Bool) : Beside m v (m.count failed) v := by
  cases failed <;> exact ⟨rfl, rfl, rfl⟩

/-- The program ends with the first step that fails. -/
def Strict : Prog scratch ε α → Prop
  | .pure _ | .fail _ => True
  | .op o next => ∀ answer : o.Ans,
    (HttpOp.fails ⟨.scratch o, answer⟩ = true → ∃ e, next answer = .fail e) ∧ Strict (next answer)

theorem Strict.bind {p : Prog scratch ε α} {k : α → Prog scratch ε β} (hp : Strict p)
    (hk : ∀ a, Strict (k a)) : Strict (p.bind k) := by
  induction p with
  | pure a => exact hk a
  | fail e => trivial
  | op o next ih =>
    intro answer
    refine ⟨fun hfails => ?_, ih answer (hp answer).2⟩
    obtain ⟨e, he⟩ := (hp answer).1 hfails
    exact ⟨e, congrArg (Prog.bind · k) he⟩

theorem onScratch_imports {p : Prog scratch ε α} (hp : Strict p) {F : ε → Harm → View → Prop}
    (hF : ∀ e m' w, Beside m v m' w → F e m' w) :
    Imports E config (onScratch p) m v (fun _ m' w => w = v ∧ m' = m) F := by
  induction p with
  | pure a => exact Notes.pure ⟨rfl, rfl⟩
  | fail e => exact Notes.fail (hF _ _ _ (.count false))
  | op o next ih =>
    refine Exec.op trivial ?_
    rintro a rfl c - answer a' hs
    cases hs
    have hrest : Imports E config (onScratch (next (c.scratch o)))
        (m.count (HttpOp.fails ⟨.scratch o, c.scratch o⟩)) a.site.view
        (fun _ m' w => w = a.site.view ∧ m' = m) F := by
      cases hfails : HttpOp.fails ⟨.scratch o, c.scratch o⟩ with
      | true =>
        obtain ⟨e, he⟩ := (hp _).1 hfails
        rw [he]
        exact Notes.fail (hF _ _ _ (.count _))
      | false => exact ih _ (hp _).2
    exact hrest

/-- The last step of an import: nobody looks at how it ends. -/
theorem removeDirectory_imports {k : Except String Unit → Prog http ε β}
    {Q : β → Harm → View → Prop} {F : ε → Harm → View → Prop}
    (h : ∀ answer failed, Imports E config (k answer) (m.count failed) v Q F) :
    Imports E config ((onScratch (inScratch .removeDirectory)).bind k) m v Q F := by
  refine Exec.op trivial ?_
  rintro a rfl c - answer a' hs
  cases hs
  exact h _ _

theorem layPackage_strict {errors : PackageErrors ε} {parseModuleId : String → Option String}
    {package : LogicalPackageDocument} : Strict (layPackage errors parseModuleId package) := by
  have hmodules : ∀ moduleId modules seen,
      Strict (writeModules errors parseModuleId moduleId seen modules) := by
    intro moduleId modules
    induction modules with
    | nil => exact fun _ => trivial
    | cons document rest ih =>
      intro seen
      unfold writeModules
      simp only [Prog.bind_eq]
      cases checkedModulePath errors.invalidPath document.path with
      | error e => trivial
      | ok path =>
        rw [Prog.ofExcept_ok, Prog.bind_pure]
        split
        · trivial
        split
        · trivial
        split
        · trivial
        refine Strict.bind ?_ fun _ => Strict.bind ?_ fun _ => ih _
        · rintro (_ | _)
          · exact ⟨fun _ => ⟨_, rfl⟩, trivial⟩
          · exact ⟨nofun, trivial⟩
        · rintro (_ | _)
          · exact ⟨fun _ => ⟨_, rfl⟩, trivial⟩
          · exact ⟨nofun, trivial⟩
  refine Strict.bind (Strict.bind ?_ fun _ => ?_) fun moduleId => hmodules moduleId _ _
  · rintro (_ | _)
    · exact ⟨fun _ => ⟨_, rfl⟩, trivial⟩
    · exact ⟨nofun, trivial⟩
  · rintro (_ | _)
    · exact ⟨fun _ => ⟨_, rfl⟩, trivial⟩
    · exact ⟨nofun, trivial⟩

theorem compilePackage_strict {package : LogicalPackageDocument} :
    Strict (compilePackage config package) := by
  refine layPackage_strict.bind fun _ => Strict.bind ?_ fun _ => Strict.bind ?_ fun _ =>
    Strict.bind ?_ fun _ => Strict.bind ?_ fun _ => ?_
  all_goals
    rintro (_ | _)
    · exact ⟨fun _ => ⟨_, rfl⟩, trivial⟩
    · exact ⟨nofun, trivial⟩

theorem Ended.count (h : Ended live m v) (failed : Bool) : Ended live (m.count failed) v := by
  cases failed with
  | false => exact h
  | true => exact fun hle => h (Nat.le_of_succ_le hle)

theorem importLogicalPackage_ends {package : LogicalPackageDocument} :
    Imports E config (importLogicalPackage config package) .none (.serving live)
      (fun _ _ _ => True) (fun _ => Ended live) := by
  have hbeside : ∀ (_ : ApiError) m w, Beside .none (.serving live) m w → Ended live m w := by
    rintro _ m _ ⟨rfl, hcheckpoint, hcleanup⟩ _
    exact iff_of_true ⟨rfl, rfl⟩ ⟨hcheckpoint, fun h => nomatch hcleanup.symm.trans h⟩
  have hfailed : ∀ {error m w}, Ended live m w → Imports E config
      ((onScratch (inScratch .removeDirectory)).bind fun _ => Prog.ofExcept (.error error)) m w
      (fun (_ : Unit) _ _ => True) (fun (_ : ApiError) => Ended live) := fun h =>
    removeDirectory_imports fun _ _ => Notes.fail (h.count _)
  unfold importLogicalPackage
  simp only [Prog.bind_eq]
  refine Notes.seq (onScratch_imports ?_ hbeside) ?_ fun _ _ _ h => h
  · rintro (_ | _)
    · exact ⟨fun _ => ⟨_, rfl⟩, trivial⟩
    · exact ⟨nofun, trivial⟩
  rintro _ _ _ ⟨rfl, rfl⟩
  refine Notes.attempt (Notes.seq (onScratch_imports (F := fun _ m w => Ended live m w)
    compilePackage_strict hbeside) ?_ fun _ _ _ h => hfailed h)
  rintro bytes _ _ ⟨rfl, rfl⟩
  refine Notes.mono (onStorage_imports restoreSnapshot_ends) ?_ fun _ _ _ h => hfailed h
  exact fun _ _ _ _ => removeDirectory_imports fun _ _ => Notes.pure trivial

theorem importRun_ends (i : Import) :
    Imports E config (i.run config) .none (.serving live) (fun _ _ _ => True)
      (fun _ => Ended live) := by
  cases i with
  | snapshot body => exact onStorage_imports restoreSnapshot_ends
  | logical package => exact importLogicalPackage_ends

/-- The account of the events of a run. -/
def harmOf (log : List (Event http)) : Harm := log.foldl Harm.note .none

theorem Harm.note_failures (m : Harm) (e : Event http) :
    (m.note e).failures = m.failures + (if HttpOp.fails e then 1 else 0) := by
  have hcount : ∀ (m : Harm) (b : Bool), (m.count b).failures = m.failures + if b then 1 else 0 := by
    intro m b
    cases b <;> rfl
  have hmark : ∀ e, (m.mark e).failures = m.failures := by
    intro e
    unfold Harm.mark
    split <;> rfl
  obtain ⟨o, answer⟩ := e
  cases o with
  | storage o => exact (hcount _ _).trans (by rw [hmark]; rfl)
  | _ => exact hcount _ _

theorem failures_harmOf (log : List (Event http)) :
    (harmOf log).failures = (failures HttpOp.fails log).length := by
  have hfold : ∀ m : Harm, (log.foldl Harm.note m).failures =
      m.failures + (failures HttpOp.fails log).length := by
    induction log with
    | nil => exact fun m => rfl
    | cons e log ih =>
      intro m
      rw [List.foldl_cons, ih, Harm.note_failures]
      by_cases he : HttpOp.fails e <;> simp [failures, he]
      omega
  exact (hfold .none).trans (Nat.zero_add _)

variable (E config) in
/-- If at most one step of an import fails and the import reports an error, the
slot still has the Database that was live, and so has its path, exactly if the
failing step was neither the checkpoint of that Database nor the removal of its
backup; the backup may stay if the snapshot has the same content. -/
theorem failed_import_keeps_live_iff {a : Adapter} (ha : a.site.view = .serving live) (i : Import)
    (cs : List Chance) (error : ApiError)
    (hone : (failures HttpOp.fails ((httpWorld E config).trace cs (i.run config) a)).length ≤ 1)
    (hfailed : ((httpWorld E config).run cs (i.run config) a).1.result? = some (.error error)) :
    let site := ((httpWorld E config).run cs (i.run config) a).2.site
    (site.slot = some ⟨live⟩ ∧ site.files target = some (.file live)) ↔
      (harmOf ((httpWorld E config).trace cs (i.run config) a)).Spares live :=
  (importRun_ends i).outcome ha hfailed ((failures_harmOf _).trans_le hone)

end

-- ---------------------------------------------------------------------------
-- Some runs
-- ---------------------------------------------------------------------------

/-- Every step in the directory of an import is done. -/
def fineScratch : (o : ScratchOp) → o.Ans
  | .loadConfig => .ok fun _ => none
  | .readCandidate => .ok []
  | .createDirectory => .ok ()
  | .writeSettings _ => .ok ()
  | .createParent _ => .ok ()
  | .writeModule _ _ => .ok ()
  | .synchronize => .ok ()
  | .openCandidate => .ok ()
  | .adoptServerAuthority => .ok ()
  | .checkpointCandidate => .ok ()
  | .removeDirectory => .ok ()

def Chance.of (outcome : Outcome) : Chance := ⟨outcome, fineScratch, "", false⟩

/-- `n` steps that are done, one that fails, and the rest. -/
def Chance.failing (n : Nat) (message : String) : List Chance :=
  List.replicate n (.of .ok) ++ .of (.fail message) :: List.replicate 12 (.of .ok)

def Config.plain : Config where
  queryLimits := ⟨1000, 1000, 1000, 1000⟩
  queryTimeout := 1000
  requestBodyBytes := 1000
  maxSessions := 10
  maxTransactionStatements := 10
  floatOfInt _ := 0
  parseQuery _ := .error ""
  parsePackage _ := .error ""
  parseModuleId _ := none
  prepare _ := .ok ()

def Adapter.serving (live : Bytes) : Adapter :=
  ⟨.resting live, ∅, fun _ => 0, fun _ => false⟩

/-- The live Database cannot be moved away. -/
theorem failed_import_keeps_live_unmoved :
    let site := ((httpWorld .plain .plain).run (Chance.failing 8 "disk full")
      ((Import.snapshot [1]).run .plain) (.serving [7])).2.site
    site.slot = some ⟨[7]⟩ ∧ site.files target = some (.file [7]) :=
  (failed_import_keeps_live_iff .plain .plain (a := .serving [7]) rfl (.snapshot [1])
    (Chance.failing 8 "disk full") (.internal "cannot preserve current snapshot: disk full")
    (by decide +kernel) (by decide +kernel)).mpr (by decide +kernel)

/-- The checkpoint of the live Database fails: the server is left without a
Database. Or the backup cannot be removed: an error is reported, and the new
Database is served. -/
theorem failed_import_loses_live :
    let checkpoint := (httpWorld .plain .plain).run (Chance.failing 7 "disk full")
      ((Import.snapshot [1]).run .plain) (.serving [7])
    let cleanup := (httpWorld .plain .plain).run (Chance.failing 12 "disk full")
      ((Import.snapshot [1]).run .plain) (.serving [7])
    (checkpoint.1.result? = some (.error (snapshotIncompatible "disk full")) ∧
      checkpoint.2.site.slot = none) ∧
    cleanup.1.result? =
        some (.error (.internal "snapshot restored but backup cleanup failed: disk full")) ∧
      cleanup.2.site.slot = some ⟨[1]⟩ ∧ cleanup.2.site.files target = some (.file [1]) := by
  decide +kernel

end NostdbServer.Http
