import NostdbServer.Effects.Tree
import NostdbServer.Http.Snapshot
import NostdbServer.Protocol.Credentials

/-!
# What a logical import writes

The steps of an import up to its last module, on a whole file system. Module
paths are resolved component by component, so a path with `..` or a leading
separator would lead anywhere; the check on module paths is what keeps every
step below the import's `.nostdb`. A file that is there is never written again.
-/

namespace NostdbServer

open Effects

-- ---------------------------------------------------------------------------
-- The file system
-- ---------------------------------------------------------------------------

/-- What the file system and the engine decide about one step. -/
structure ScratchChance where
  outcome : Outcome
  config : Except String (PathBuf → Option String)

def reported (r : Except IoError Unit × FileTree) : Except String Unit × FileTree :=
  (r.1.mapError IoError.message, r.2)

def settingsName : String := "settings.json"

def scratchTreeStep (base : Path) :
    (o : ScratchOp) → ScratchChance → FileTree → Option (o.Ans × FileTree)
  | .createDirectory, c, t => some (reported (t.createDirAll base c.outcome))
  | .writeSettings settings, c, t =>
    some (reported (t.write (base ++ [settingsName]) (utf8 settings) c.outcome))
  | .loadConfig, c, t => some (c.config, t)
  | .createParent path, c, t =>
    some (reported (t.createDirAll (resolve (path.joined base).dropLast) c.outcome))
  | .writeModule path source, c, t =>
    if path.namesFile then
      some (reported (t.write (resolve (path.joined base)) (utf8 source) c.outcome))
    else some (.error IoError.isDirectory.message, t)
  -- From here on the engine works in the directory.
  | _, _, _ => none

def scratchWorld (base : Path) : World scratch ScratchChance FileTree :=
  ⟨scratchTreeStep base⟩

/-- The part of an import before its modules: the directory, the settings and
what the engine makes of them. -/
def openPackage (errors : PackageErrors ε) (settings : String) :
    Prog scratch ε (PathBuf → Option String) := do
  scratchStep (inScratch .createDirectory) errors.internal
  writeSettings errors settings

-- ---------------------------------------------------------------------------
-- Module paths
-- ---------------------------------------------------------------------------

theorem checkedModulePath_ok {error : String → ε} {s : String} {path : PathBuf}
    (h : checkedModulePath error s = .ok path) :
    path = ⟨s⟩ ∧ path.isAbsolute = false ∧ path.components.all Component.isNormal = true ∧
      path.names ≠ [] ∧ path.names ≠ [settingsName] := by
  unfold checkedModulePath at h
  dsimp only at h
  split at h
  · cases h
  rename_i hcheck
  cases h
  simp only [ne_eq, Bool.or_eq_true, List.any_eq_true, Bool.not_eq_eq_eq_not, Bool.not_true,
    decide_eq_true_eq, not_or, not_exists, not_and, Bool.not_eq_true, Bool.not_eq_false,
    Decidable.not_not] at hcheck
  obtain ⟨⟨⟨-, habs⟩, hnormal⟩, hext⟩ := hcheck
  have hall : (PathBuf.mk s).components.all Component.isNormal = true :=
    List.all_eq_true.mpr hnormal
  refine ⟨rfl, habs, hall, fun hnames => ?_, fun hnames => ?_⟩
  all_goals
    have hcomponents := PathBuf.components_eq_names hall
    rw [hnames] at hcomponents
    rw [PathBuf.extension, PathBuf.fileName, hcomponents] at hext
    revert hext
    decide

/-- Accepted paths that the library takes for different have different names. -/
theorem names_ne_of_not_same {p q : PathBuf} (hp : p.components.all Component.isNormal = true)
    (hq : q.components.all Component.isNormal = true) (h : p.same q = false) :
    p.names ≠ q.names := by
  intro hnames
  have hsame : p.components = q.components := by
    rw [PathBuf.components_eq_names hp, PathBuf.components_eq_names hq, hnames]
  simp [PathBuf.same, hsame] at h

-- ---------------------------------------------------------------------------
-- Writing the modules
-- ---------------------------------------------------------------------------

/-- What changes is strictly below `base`, and no file is changed. -/
structure Grows (base : Path) (e e' : Path → Option TreeNode) : Prop where
  below : ∀ p, e' p ≠ e p → base <+: p ∧ p ≠ base
  kept : ∀ p b, e p = some (.file b) → e' p = some (.file b)

theorem Grows.refl (base : Path) (e : Path → Option TreeNode) : Grows base e e :=
  ⟨fun _ h => absurd rfl h, fun _ _ h => h⟩

theorem Grows.trans {base : Path} {e e' e'' : Path → Option TreeNode} (h : Grows base e e')
    (h' : Grows base e' e'') : Grows base e e'' := by
  refine ⟨fun p hp => ?_, fun p b hb => h'.kept p b (h.kept p b hb)⟩
  by_cases hsame : e'' p = e' p
  · exact h.below p (hsame ▸ hp)
  · exact h'.below p hsame

/-- An import that has written its settings and the files `done`. -/
structure Filling (base : Path) (settings : Bytes) (done : List (Path × Bytes))
    (e : Path → Option TreeNode) : Prop where
  above : ∀ q, q <+: base → e q = some .directory
  configured : e (base ++ [settingsName]) = some (.file settings)
  written : ∀ m ∈ done, e (base ++ m.1) = some (.file m.2)
  only : ∀ r b, e (base ++ r) = some (.file b) →
    r = [settingsName] ∧ b = settings ∨ (r, b) ∈ done
  distinct : (done.map Prod.fst).Nodup

section
variable {base : Path} {settings : Bytes} {done : List (Path × Bytes)}
  {e : Path → Option TreeNode} {t t' : FileTree} {c : Outcome} {r : Except IoError Unit}

/-- Directories are made where nothing was. -/
theorem Filling.makeAll (h : Filling base settings done t.get) {ps : List Path} (rest : Path)
    (hps : ∀ q ∈ ps, q <+: base ++ rest ∧ t.get q = none) :
    Filling base settings done (t.makeAll ps).get ∧
      Grows base t.get (t.makeAll ps).get := by
  have hget : ∀ q, (t.makeAll ps).get q = if q ∈ ps then some .directory else t.get q := fun q =>
    congrArg (TreeView.get · q) (FileTree.view_makeAll t ps)
  have hkept : ∀ q b, t.get q = some (.file b) → (t.makeAll ps).get q = some (.file b) := by
    intro q b hb
    rw [hget, if_neg, hb]
    intro hq
    cases hb.symm.trans (hps q hq).2
  refine ⟨⟨fun q hq => ?_, hkept _ _ h.configured, fun m hm => hkept _ _ (h.written m hm),
    fun r b hb => ?_, h.distinct⟩, fun p hp => ?_, hkept⟩
  · rw [hget]
    split
    · rfl
    · exact h.above q hq
  · rw [hget] at hb
    split at hb
    · cases hb
    · exact h.only r b hb
  · have hmem : p ∈ ps := by
      by_contra hmem
      exact hp (by rw [hget, if_neg hmem])
    obtain ⟨hpre, hnone⟩ := hps p hmem
    have hnot : ¬ p <+: base := fun hpre => by cases (h.above p hpre).symm.trans hnone
    refine ⟨(List.prefix_or_prefix_of_prefix hpre (List.prefix_append _ _)).resolve_left hnot, ?_⟩
    rintro rfl
    exact hnot List.prefix_rfl

theorem Filling.createDirAll (h : Filling base settings done t.get) {rest : Path}
    (hs : t.createDirAll (base ++ rest) c = (r, t')) :
    Filling base settings done t'.get ∧ Grows base t.get t'.get := by
  obtain ⟨rfl, -⟩ | ⟨hnone, -, ⟨-, rfl⟩ | ⟨e, ps, -, hps, rfl⟩⟩ := FileTree.createDirAll_cases hs
  · exact ⟨h, .refl _ _⟩
  · exact h.makeAll rest fun q hq => FileTree.mem_missing.mp hq
  · exact h.makeAll rest fun q hq => FileTree.mem_missing.mp (List.dropLast_subset _ (hps.subset hq))

/-- A new file is written, in whole or in part. -/
theorem Filling.write (h : Filling base settings done t.get) {names : Path} {bytes : Bytes}
    (hnames : names ≠ []) (hsettings : names ≠ [settingsName])
    (hnew : ∀ m ∈ done, m.1 ≠ names) (hs : t.write (base ++ names) bytes c = (r, t')) :
    Grows base t.get t'.get ∧
      (r = .ok () → Filling base settings ((names, bytes) :: done) t'.get) := by
  obtain ⟨rfl, e, rfl⟩ | ⟨hdir, hdone⟩ := FileTree.write_cases hs
  · exact ⟨.refl _ _, nofun⟩
  have hnone : t.get (base ++ names) = none := by
    cases hget : t.get (base ++ names) with
    | none => rfl
    | some n =>
      cases n with
      | directory => exact absurd hget hdir
      | file b =>
        obtain ⟨hn, -⟩ | hmem := h.only names b hget
        · exact absurd hn hsettings
        · exact absurd rfl (hnew _ hmem)
  have hgrows : ∀ n, Grows base t.get (FileTree.files.set t (base ++ names) n).get := by
    intro n
    refine ⟨fun p hp => ?_, fun p b hb => ?_⟩
    · have hp : p = base ++ names := by
        by_contra hne
        exact hp (by rw [FileTree.get_set, if_neg hne])
      subst hp
      exact ⟨List.prefix_append _ _, by simpa using hnames⟩
    · rw [FileTree.get_set, if_neg, hb]
      rintro rfl
      cases hb.symm.trans hnone
  rcases hdone with ⟨rfl, rfl⟩ | ⟨e, n, rfl, rfl⟩
  · refine ⟨hgrows _, fun _ => ⟨fun q hq => ?_, (hgrows _).kept _ _ h.configured,
      List.forall_mem_cons.mpr ⟨?_, fun m hm => (hgrows _).kept _ _ (h.written m hm)⟩,
      fun r b hb => ?_, ?_⟩⟩
    · rw [FileTree.get_set, if_neg, h.above q hq]
      rintro rfl
      have hlength := hq.length_le
      rw [List.length_append] at hlength
      exact hnames (List.length_eq_zero_iff.mp (by omega))
    · rw [FileTree.get_set, if_pos rfl]
    · rw [FileTree.get_set] at hb
      split at hb
      · rename_i hr
        cases hb
        rw [List.append_cancel_left_eq] at hr
        exact .inr (hr ▸ List.mem_cons_self ..)
      · exact (h.only r b hb).imp_right (List.mem_cons_of_mem _)
    · rw [List.map_cons, List.nodup_cons]
      refine ⟨fun hmem => ?_, h.distinct⟩
      obtain ⟨m, hm, hname⟩ := List.mem_map.mp hmem
      exact hnew m hm hname
  · exact ⟨hgrows _, nofun⟩

/-- The import at its modules: each step promises that the tree only grows. -/
def layingModules (base : Path) : Setting scratch ScratchChance FileTree where
  toWorld := scratchWorld base
  may _ _ _ := True
  rely := Eq
  guar t t' := Grows base t.get t'.get
  rely_refl _ := rfl
  rely_trans := Eq.trans

/-- Where a module goes, and what is in it. -/
def LogicalModuleDocument.entry (document : LogicalModuleDocument) : Path × Bytes :=
  ((PathBuf.mk document.path).names, utf8 document.source)

theorem reported_eq {x : Except IoError Unit × FileTree} {ans : Except String Unit}
    (h : reported x = (ans, t')) : ∃ r, x = (r, t') ∧ ans = r.mapError IoError.message := by
  cases h
  exact ⟨x.1, rfl, rfl⟩

theorem laying_op {o : ScratchOp} {next : o.Ans → Prog scratch ε α} {Q : α → FileTree → Prop}
    (h : ∀ c ans t', scratchTreeStep base o c t = some (ans, t') →
      Grows base t.get t'.get ∧
        (layingModules base).Wp (fun _ => True) (next ans) t' Q fun _ _ => True) :
    (layingModules base).Wp (fun _ => True) (.op o next) t Q fun _ _ => True := by
  rintro t rfl
  exact ⟨trivial, fun c _ ans t' hs => h c ans t' hs⟩

theorem laying_pure {Q : α → FileTree → Prop} {a : α} (h : Q a t) :
    (layingModules base).Wp (fun _ => True) (.pure a : Prog scratch ε α) t Q fun _ _ => True := by
  rintro t rfl
  exact h

theorem laying_fail {Q : α → FileTree → Prop} {e : ε} :
    (layingModules base).Wp (fun _ => True) (.fail e : Prog scratch ε α) t Q fun _ _ => True :=
  fun _ _ => trivial

theorem writeModules_fills {errors : PackageErrors ε} {parseModuleId : String → Option String}
    {moduleId : PathBuf → Option String} (modules : List LogicalModuleDocument)
    (seen : List PathBuf) (hseen : ∀ q ∈ seen, q.components.all Component.isNormal = true)
    (hdone : ∀ m ∈ done, ∃ q ∈ seen, q.names = m.1)
    (h : Filling base settings done t.get) :
    (layingModules base).Wp (fun _ => True)
      (writeModules errors parseModuleId moduleId seen modules) t
      (fun _ t' => Filling base settings ((modules.map (·.entry)).reverse ++ done) t'.get)
      fun _ _ => True := by
  induction modules generalizing seen done t with
  | nil => exact laying_pure h
  | cons document rest ih =>
    unfold writeModules
    simp only [Prog.bind_eq]
    cases hpath : checkedModulePath errors.invalidPath document.path with
    | error e => exact laying_fail
    | ok path =>
      obtain ⟨rfl, habs, hall, hnames, hsettings⟩ := checkedModulePath_ok hpath
      rw [Prog.ofExcept_ok, Prog.bind_pure]
      split
      · exact laying_fail
      rename_i hnew
      split
      · exact laying_fail
      split
      · exact laying_fail
      refine laying_op fun c ans t₁ hs => ?_
      obtain ⟨r, hr, rfl⟩ := reported_eq (Option.some.inj hs)
      rw [PathBuf.resolve_dropLast habs hall hnames] at hr
      obtain ⟨h₁, hgrows⟩ := h.createDirAll hr
      refine ⟨hgrows, ?_⟩
      cases r with
      | error e => exact laying_fail
      | ok _ =>
        refine laying_op fun c ans t₂ hs => ?_
        have hnew : ∀ m ∈ done, m.1 ≠ (PathBuf.mk document.path).names := by
          intro m hm
          obtain ⟨q, hq, hname⟩ := hdone m hm
          rw [← hname]
          refine (names_ne_of_not_same hall (hseen q hq) ?_).symm
          simpa using fun hsame => hnew (List.any_eq_true.mpr ⟨q, hq, hsame⟩)
        have hs : (if (PathBuf.mk document.path).namesFile then _ else _) = some (ans, t₂) := hs
        split at hs
        · obtain ⟨r, hr, rfl⟩ := reported_eq (Option.some.inj hs)
          rw [PathBuf.resolve_joined habs hall] at hr
          obtain ⟨hgrows, hfills⟩ := h₁.write hnames hsettings hnew hr
          refine ⟨hgrows, ?_⟩
          cases r with
          | error e => exact laying_fail
          | ok _ =>
            have hlist : ((document :: rest).map (·.entry)).reverse ++ done =
                (rest.map (·.entry)).reverse ++ document.entry :: done := by
              simp
            rw [hlist]
            refine ih (⟨document.path⟩ :: seen) (List.forall_mem_cons.mpr ⟨hall, hseen⟩) ?_
              (hfills rfl)
            refine List.forall_mem_cons.mpr ⟨⟨_, List.mem_cons_self .., rfl⟩, fun m hm => ?_⟩
            obtain ⟨q, hq, hname⟩ := hdone m hm
            exact ⟨q, List.mem_cons_of_mem _ hq, hname⟩
        · cases hs
          exact ⟨.refl _ _, laying_fail⟩

-- ---------------------------------------------------------------------------
-- The directory is new
-- ---------------------------------------------------------------------------

theorem below_absent (hrooted : Rooted e) {p : Path} (h : e p = none) (r : Path) :
    e (p ++ r) = none := by
  by_cases hr : r = []
  · rwa [hr, List.append_nil]
  · by_contra hne
    cases h.symm.trans (hrooted.above hr (Option.isSome_iff_ne_none.mpr hne))

/-- `base` has just been made. -/
structure Unfilled (base : Path) (e : Path → Option TreeNode) : Prop where
  above : ∀ q, q <+: base → e q = some .directory
  below : ∀ r, r ≠ [] → e (base ++ r) = none

theorem createDirAll_opens (hrooted : Rooted t.get) (hfresh : t.get base = none)
    (hs : t.createDirAll base c = (.ok (), t')) : Unfilled base t'.get := by
  obtain ⟨-, ⟨hdir, -⟩ | ⟨e, he⟩⟩ | ⟨-, hfree, ⟨-, rfl⟩ | ⟨e, ps, he, -⟩⟩ :=
    FileTree.createDirAll_cases hs
  · cases hfresh.symm.trans hdir
  · cases he
  · have hget : ∀ q, (t.makeAll (t.missing base)).get q =
        if q ∈ t.missing base then some .directory else t.get q := fun q =>
      congrArg (TreeView.get · q) (FileTree.view_makeAll t _)
    refine ⟨fun q hq => ?_, fun r hr => ?_⟩
    · rw [hget]
      split
      · rfl
      · rename_i hmem
        exact (hfree q hq).resolve_left fun hn => hmem (FileTree.mem_missing.mpr ⟨hq, hn⟩)
    · rw [hget, if_neg, below_absent hrooted hfresh]
      intro hmem
      have hlength := (FileTree.mem_missing.mp hmem).1.length_le
      rw [List.length_append] at hlength
      exact hr (List.length_eq_zero_iff.mp (by omega))
  · cases he

theorem Unfilled.write {bytes : Bytes} (h : Unfilled base t.get)
    (hs : t.write (base ++ [settingsName]) bytes c = (.ok (), t')) :
    Filling base bytes [] t'.get := by
  obtain ⟨-, e, he⟩ | ⟨-, ⟨-, rfl⟩ | ⟨e, n, he, -⟩⟩ := FileTree.write_cases hs
  · cases he
  · refine ⟨fun q hq => ?_, by rw [FileTree.get_set, if_pos rfl], by simp, fun r b hb => ?_, by simp⟩
    · rw [FileTree.get_set, if_neg, h.above q hq]
      rintro rfl
      exact absurd hq.length_le (by simp)
    · rw [FileTree.get_set] at hb
      split at hb
      · rename_i hr
        cases hb
        exact .inl ⟨by simpa using hr, rfl⟩
      · by_cases hr : r = []
        · rw [hr, List.append_nil, h.above base List.prefix_rfl] at hb
          cases hb
        · rw [h.below r hr] at hb
          cases hb
  · cases he

theorem openPackage_opens {errors : PackageErrors ε} {text : String} (hrooted : Rooted t.get)
    (hfresh : t.get base = none) {cs : List ScratchChance} {moduleId : PathBuf → Option String}
    (h : (scratchWorld base).run cs (openPackage errors text) t = (.pure moduleId, t')) :
    Filling base (utf8 text) [] t'.get := by
  have hspec : (scratchWorld base).Exec (fun _ _ => True) id (fun _ => True)
      (openPackage errors text) t (fun _ w => Filling base (utf8 text) [] w.get)
      fun _ _ => True := by
    refine World.Exec.op trivial ?_
    rintro _ rfl c - ans t₁ hs
    obtain ⟨r, hr, rfl⟩ := reported_eq (Option.some.inj hs)
    cases r with
    | error e => exact World.Exec.fail trivial
    | ok _ =>
      have hopened := createDirAll_opens hrooted hfresh hr
      refine World.Exec.op trivial ?_
      rintro _ rfl c - ans t₂ hs
      obtain ⟨r, hr, rfl⟩ := reported_eq (Option.some.inj hs)
      cases r with
      | error e => exact World.Exec.fail trivial
      | ok _ =>
        have hfilled := hopened.write hr
        refine World.Exec.op trivial ?_
        rintro _ rfl c - ans t₃ hs
        cases hs
        cases c.config with
        | error e => exact World.Exec.fail trivial
        | ok moduleId => exact World.Exec.pure hfilled
  have hend := hspec.run rfl cs (fun _ _ _ => trivial) (r := .ok moduleId) (by rw [h]; rfl)
  rwa [h] at hend

end

-- ---------------------------------------------------------------------------
-- Both importers
-- ---------------------------------------------------------------------------

/-- An import into `base` that started in `t`, at any two points after it has
begun with its modules: in between, everything new is strictly below `base` and
no file has changed. If all modules are done, the files below `base` are the
settings and one file for each module. -/
def WritesInside (errors : PackageErrors ε) (parseModuleId : String → Option String) (base : Path)
    (package : LogicalPackageDocument) (t : FileTree) : Prop :=
  ∀ cs₁ moduleId t₁,
    (scratchWorld base).run cs₁ (openPackage errors package.settings) t = (.pure moduleId, t₁) →
    ∀ cs₂ cs₃,
      let modules := writeModules errors parseModuleId moduleId [] package.modules
      let before := (scratchWorld base).run cs₂ modules t₁
      let after := (scratchWorld base).run cs₃ before.1 before.2
      (∀ p, after.2.get p ≠ before.2.get p → base <+: p ∧ p ≠ base) ∧
      (∀ p b, before.2.get p = some (.file b) → after.2.get p = some (.file b)) ∧
      (after.1.result? = some (.ok ()) →
        (package.modules.map fun m => (PathBuf.mk m.path).names).Nodup ∧
        ∀ r b, after.2.get (base ++ r) = some (.file b) ↔
          r = [settingsName] ∧ b = utf8 package.settings ∨
          ∃ m ∈ package.modules, (PathBuf.mk m.path).names = r ∧ b = utf8 m.source)

theorem writesInside {errors : PackageErrors ε} {parseModuleId : String → Option String}
    {base : Path} {package : LogicalPackageDocument} {t : FileTree} (hrooted : Rooted t.get)
    (hfresh : t.get base = none) : WritesInside errors parseModuleId base package t := by
  intro cs₁ moduleId t₁ hopen cs₂ cs₃ modules before after
  have hspec : (layingModules base).Wp (fun _ => True) modules t₁ _ fun _ _ => True :=
    writeModules_fills package.modules [] (by simp) (by simp)
      (openPackage_opens hrooted hfresh hopen)
  have hbefore := hspec.run cs₂ fun _ _ _ _ => trivial
  have hgrows : Grows base before.2.get after.2.get :=
    hbefore.kept (R := fun s t => Grows base s.get t.get) (fun _ => .refl _ _) .trans
      (fun _ _ h => h) cs₃ fun _ _ _ _ => trivial
  refine ⟨hgrows.below, hgrows.kept, fun hdone => ?_⟩
  have hfilled : Filling base (utf8 package.settings)
      ((package.modules.map (·.entry)).reverse ++ []) after.2.get :=
    (hbefore.run cs₃ fun _ _ _ _ => trivial).ended hdone
  rw [List.append_nil] at hfilled
  refine ⟨?_, fun r b => ⟨fun hb => ?_, ?_⟩⟩
  · have hdistinct := hfilled.distinct
    rw [List.map_reverse, List.nodup_reverse, List.map_map] at hdistinct
    exact hdistinct
  · refine (hfilled.only r b hb).imp_right fun hmem => ?_
    obtain ⟨m, hm, he⟩ := List.mem_map.mp (List.mem_reverse.mp hmem)
    cases he
    exact ⟨m, hm, rfl, rfl⟩
  · rintro (⟨rfl, rfl⟩ | ⟨m, hm, rfl, rfl⟩)
    · exact hfilled.configured
    · exact hfilled.written m.entry (List.mem_reverse.mpr (List.mem_map_of_mem hm))

/-- Both importers, with any package, on any file system in which the import's
directory does not exist yet. -/
theorem logical_import_writes_inside (parseModuleId : String → Option String)
    (package : LogicalPackageDocument) (directory : Path) (t : FileTree) (hrooted : Rooted t.get)
    (hfresh : t.get directory = none) :
    WritesInside packageErrors parseModuleId (directory ++ [".nostdb"]) package t ∧
      WritesInside Http.packageErrors parseModuleId (directory ++ [".nostdb"]) package t :=
  ⟨writesInside hrooted (below_absent hrooted hfresh _),
    writesInside hrooted (below_absent hrooted hfresh _)⟩

def twoModules : LogicalPackageDocument :=
  ⟨1, 1, "settings", [⟨"a/b.nost", "1", "first"⟩, ⟨"c.nost", "1", "second"⟩]⟩

def ScratchChance.fine : ScratchChance := ⟨.ok, .ok fun _ => some "1"⟩

/-- A file system on which the import of the two modules can begin with them. -/
def twoOpened : FileTree :=
  ((scratchWorld ["import", ".nostdb"]).run (List.replicate 3 .fine)
    (openPackage packageErrors twoModules.settings) (topLevel [])).2

theorem logical_import_writes_inside_two :
    ((scratchWorld ["import", ".nostdb"]).run (List.replicate 4 .fine)
      (writeModules packageErrors some (fun _ => some "1") [] twoModules.modules) twoOpened).2.get
        ["import", ".nostdb", "a", "b.nost"] = some (.file (utf8 "first")) := by
  have hdone : ((scratchWorld ["import", ".nostdb"]).run (List.replicate 4 .fine)
      (writeModules packageErrors some (fun _ => some "1") [] twoModules.modules)
        twoOpened).1.result? = some (.ok ()) := by
    decide +kernel
  have hinside := (logical_import_writes_inside some twoModules ["import"] (topLevel [])
    (rooted_topLevel []) rfl).1 (List.replicate 3 .fine) (fun _ => some "1") twoOpened rfl []
    (List.replicate 4 .fine)
  refine ((hinside.2.2 hdone).2 ["a", "b.nost"] _).mpr (.inr ?_)
  exact ⟨⟨"a/b.nost", "1", "first"⟩, List.mem_cons_self .., by decide +kernel, rfl⟩

end NostdbServer
