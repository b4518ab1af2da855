import NostdbServer.Daemon.Initialize

/-!
# Initialization, step by step

What each step does to the view of the file system, when one step fails, by itself
or because of what is there, and the steps that clean up after it fail only where
they must. A directory that `create_dir_all` made stays unless a step removes it
by name.
-/

namespace NostdbServer

open Effects World

/-- Initialization on a disk that lets the failed call clean up. -/
def forgivingWorld (current : Path) : World init Outcome FileTree :=
  (initWorld current).sparing InitOp.cleans .ok

abbrev Inits (current : Path) (p : Prog init ε α) (v : TreeView) (Q : α → TreeView → Prop)
    (F : ε → TreeView → Prop) : Prop :=
  (forgivingWorld current).Exec (fun _ _ => True) FileTree.view (fun _ => True) p v Q F

-- ---------------------------------------------------------------------------
-- Rules
-- ---------------------------------------------------------------------------

namespace Inits

variable {current : Path} {v : TreeView} {Q : β → TreeView → Prop} {F : ε → TreeView → Prop}
  {p : Path}

theorem op {o : init.Op} {next : init.Ans o → Prog init ε β}
    (h : ∀ t c ans t', t.view = v →
      initStep current o (if InitOp.cleans o then .ok else c) t = some (ans, t') →
      Inits current (next ans) t'.view Q F) : Inits current (.op o next) v Q F :=
  Exec.op trivial fun t ht c _ ans t' hs => h t c ans t' ht hs

theorem pathExists {k : Bool → Prog init ε β} (h : Inits current (k (v.get p).isSome) v Q F) :
    Inits current ((onTree (.file (.pathExists p))).bind k) v Q F := by
  refine op ?_
  rintro t c ans t' rfl hs
  cases Option.some.inj hs
  exact h

theorem inspect {k : Except IoError Unit → Prog init ε β} (h : ∀ r, Inits current (k r) v Q F) :
    Inits current ((onTree (.inspect p)).bind k) v Q F := by
  refine op ?_
  rintro t c ans t' rfl hs
  cases Option.some.inj hs
  exact h _

theorem firstEntry {k : Except IoError (Option String) → Prog init ε β}
    (hempty : v.get p = some .directory → (∀ name, v.get (p ++ [name]) = none) →
      Inits current (k (.ok none)) v Q F)
    (hok : ∀ name, Inits current (k (.ok (some name))) v Q F)
    (hfail : ∀ e, Inits current (k (.error e)) v Q F) :
    Inits current ((onTree (.firstEntry p)).bind k) v Q F := by
  refine op ?_
  rintro t c ans t' rfl hs
  have hs : (t.firstEntry p c, t) = (ans, t') := Option.some.inj hs
  unfold FileTree.firstEntry at hs
  split at hs
  · cases hs
    exact hfail _
  · cases hs
    exact hfail _
  · cases hs
    exact hfail _
  · rename_i hp
    cases hs
    cases hchild : t.child? p with
    | none => exact hempty hp (FileTree.child?_eq_none.mp hchild)
    | some name => exact hok name

theorem createNew {bytes : Bytes} {k : Except CreateError Unit → Prog init ε β}
    (hok : v.get p = none → Inits current (k (.ok ())) (v.set p (some (.file bytes))) Q F)
    (hopening : ∀ e, Inits current (k (.error (.opening e))) v Q F)
    (htorn : ∀ n e, v.get p = none →
      Inits current (k (.error (.writing e))) (v.set p (some (.file (bytes.take n)))) Q F) :
    Inits current ((onTree (.file (.createNew p bytes))).bind k) v Q F := by
  refine op ?_
  rintro t c ans t' rfl hs
  obtain ⟨e, rfl, rfl, -⟩ | ⟨n, m, -, hn, rfl, rfl⟩ | ⟨-, hn, rfl, rfl⟩ :=
    Volume.createNew_cases (Option.some.inj hs)
  · exact hopening e
  · rw [FileTree.view_set]
    exact htorn n _ hn
  · rw [FileTree.view_set]
    exact hok hn

theorem remove {k : Except IoError Unit → Prog init ε β}
    (hok : ∀ bytes, v.get p = some (.file bytes) →
      Inits current (k (.ok ())) (v.set p none) Q F)
    (hfail : ∀ e, (v.get p = none ∨ v.get p = some .directory) →
      Inits current (k (.error e)) v Q F) :
    Inits current ((onTree (.file (.remove p))).bind k) v Q F := by
  refine op ?_
  rintro t c ans t' rfl hs
  obtain ⟨e, rfl, rfl, he | ⟨-, ⟨hn, rfl⟩ | ⟨n, hn, hb, rfl⟩⟩⟩ | ⟨-, ⟨n, bytes, hn, hb⟩, rfl, rfl⟩ :=
    Volume.remove_cases (Option.some.inj hs)
  · cases he
  · exact hfail _ (.inl hn)
  · cases n with
    | file bytes => cases hb
    | directory => exact hfail _ (.inr hn)
  · rw [FileTree.view_set]
    cases n with
    | file bytes' => exact hok bytes' hn
    | directory => cases hb

theorem createDir {k : Except IoError Unit → Prog init ε β}
    (hok : v.get p = none → Inits current (k (.ok ())) (v.set p (some .directory)) Q F)
    (hfail : ∀ e, Inits current (k (.error e)) v Q F) :
    Inits current ((onTree (.createDir p)).bind k) v Q F := by
  refine op ?_
  rintro t c ans t' rfl hs
  obtain ⟨rfl, e, rfl⟩ | ⟨hp, rfl, rfl⟩ := FileTree.createDir_cases (Option.some.inj hs)
  · exact hfail e
  · rw [FileTree.view_set]
    exact hok hp

theorem removeDir {k : Except IoError Unit → Prog init ε β}
    (hok : ∀ r, v.get p = some .directory → Inits current (k r) (v.set p none) Q F)
    (hfail : ∀ r, (v.get p = none ∨ (∃ b, v.get p = some (.file b)) ∨
      ∃ name, (v.get (p ++ [name])).isSome = true) → Inits current (k r) v Q F) :
    Inits current ((onTree (.removeDir p)).bind k) v Q F := by
  refine op ?_
  rintro t c ans t' rfl hs
  obtain ⟨rfl, hp⟩ | ⟨hp, rfl, rfl⟩ := FileTree.removeDir_cases (Option.some.inj hs)
  · exact hfail _ hp
  · rw [FileTree.view_set]
    exact hok _ hp

/-- Nothing happens, or some of the missing directories are made, all of them if
it succeeds. -/
theorem createDirAll {k : Except IoError Unit → Prog init ε β}
    (hok : v.get p = some .directory → Inits current (k (.ok ())) v Q F)
    (hfail : ∀ e, Inits current (k (.error e)) v Q F)
    (hmade : (∀ q, q <+: p → v.get q = none ∨ v.get q = some .directory) → ∀ r ps, ps ≠ [] →
      (∀ q ∈ ps, q <+: p ∧ v.get q = none) →
      (r = .ok () ∧ (∀ q, q <+: p → v.get q = none → q ∈ ps) ∨ p ∉ ps) →
      Inits current (k r) (v.makeAll ps) Q F) :
    Inits current ((onTree (.createDirAll p)).bind k) v Q F := by
  refine op ?_
  rintro t c ans t' rfl hs
  obtain ⟨rfl, ⟨hp, rfl⟩ | ⟨e, rfl⟩⟩ | ⟨hp, hfree, ⟨rfl, rfl⟩ | ⟨e, ps, rfl, hps, rfl⟩⟩ :=
    FileTree.createDirAll_cases (Option.some.inj hs)
  · exact hok hp
  · exact hfail e
  · rw [FileTree.view_makeAll]
    refine hmade hfree _ _ ?_ (fun q hq => FileTree.mem_missing.mp hq) (.inl ⟨rfl, fun q hq hn =>
      FileTree.mem_missing.mpr ⟨hq, hn⟩⟩)
    exact List.ne_nil_of_mem (FileTree.mem_missing.mpr ⟨List.prefix_rfl, hp⟩)
  · rw [FileTree.view_makeAll]
    obtain ⟨front, hmissing, hfront⟩ := FileTree.missing_eq hp
    rw [hmissing, List.dropLast_concat] at hps
    by_cases hnil : ps = []
    · subst hnil
      have hsame : t.view.makeAll [] = t.view := by simp [TreeView.makeAll]
      rw [hsame]
      exact hfail e
    · refine hmade hfree _ _ hnil (fun q hq => ?_) (.inr fun hq => ?_)
      · exact ⟨(hfront q (hps.subset hq)).1, (hfront q (hps.subset hq)).2.2⟩
      · exact (hfront p (hps.subset hq)).2.1 rfl

-- ---------------------------------------------------------------------------
-- Rules for the catalog store
-- ---------------------------------------------------------------------------

section
variable {root : Path} {f g : RootPath}

theorem store_set (t : FileTree) (f : RootPath) (n : Option TreeNode) :
    ((storeFiles root).set t f n).view = t.view.set (f.under root) n :=
  FileTree.view_set t (f.under root) n

theorem storeSeq {p : Prog daemon ε α} {k : α → Prog daemon ε β} {P : α → TreeView → Prop}
    {G : ε → TreeView → Prop} (h : Inits current (inStore root p) v P G)
    (hk : ∀ a w, P a w → Inits current (inStore root (k a)) w Q F) (hg : ∀ e w, G e w → F e w) :
    Inits current (inStore root (p.bind k)) v Q F := by
  have hbind : inStore root (p.bind k) = (inStore root p).bind fun a => inStore root (k a) :=
    Prog.lift_bind p k
  rw [hbind]
  exact Exec.seq h hk hg

theorem storeAttempt {p : Prog daemon ε' α} {k : Except ε' α → Prog daemon ε β}
    {P : α → TreeView → Prop} {G : ε' → TreeView → Prop} (h : Inits current (inStore root p) v P G)
    (hk : ∀ a w, P a w → Inits current (inStore root (k (.ok a))) w Q F)
    (hg : ∀ e w, G e w → Inits current (inStore root (k (.error e))) w Q F) :
    Inits current (inStore root ((p.attempt : Prog daemon ε _).bind k)) v Q F := by
  have hbind : inStore root ((p.attempt : Prog daemon ε _).bind k) =
      ((inStore root p).attempt).bind fun a => inStore root (k a) :=
    (Prog.lift_bind _ k).trans (congrArg (Prog.bind · _) (Prog.lift_attempt p))
  rw [hbind]
  exact Exec.attempt (h.mono (fun _ h => h) hk hg)

theorem storeExists {k : Bool → Prog daemon ε β}
    (h : Inits current (inStore root (k (v.get (f.under root)).isSome)) v Q F) :
    Inits current (inStore root ((DaemonOp.pathExists f).bind k)) v Q F := by
  refine op ?_
  rintro t c ans t' rfl hs
  cases Option.some.inj hs
  exact h

theorem storeCreate {bytes : Bytes} {k : Except CreateError Unit → Prog daemon ε β}
    (hok : v.get (f.under root) = none →
      Inits current (inStore root (k (.ok ()))) (v.set (f.under root) (some (.file bytes))) Q F)
    (hopening : ∀ e, Inits current (inStore root (k (.error (.opening e)))) v Q F)
    (htorn : ∀ n e, v.get (f.under root) = none →
      Inits current (inStore root (k (.error (.writing e))))
        (v.set (f.under root) (some (.file (bytes.take n)))) Q F) :
    Inits current (inStore root ((DaemonOp.createNew f bytes).bind k)) v Q F := by
  refine op ?_
  rintro t c ans t' rfl hs
  obtain ⟨e, rfl, rfl, -⟩ | ⟨n, m, -, hn, rfl, rfl⟩ | ⟨-, hn, rfl, rfl⟩ :=
    Volume.createNew_cases (Option.some.inj hs)
  · exact hopening e
  · rw [store_set]
    exact htorn n _ hn
  · rw [store_set]
    exact hok hn

theorem storeRemove {k : Except IoError Unit → Prog daemon ε β}
    (hok : ∀ bytes, v.get (f.under root) = some (.file bytes) →
      Inits current (inStore root (k (.ok ()))) (v.set (f.under root) none) Q F)
    (hfail : ∀ e, (v.get (f.under root) = none ∨ v.get (f.under root) = some .directory) →
      Inits current (inStore root (k (.error e))) v Q F) :
    Inits current (inStore root ((DaemonOp.remove f).bind k)) v Q F := by
  refine op ?_
  rintro t c ans t' rfl hs
  obtain ⟨e, rfl, rfl, he | ⟨-, ⟨hn, rfl⟩ | ⟨n, hn, hb, rfl⟩⟩⟩ | ⟨-, ⟨n, bytes, hn, hb⟩, rfl, rfl⟩ :=
    Volume.remove_cases (Option.some.inj hs)
  · cases he
  · exact hfail _ (.inl hn)
  · cases n with
    | file bytes => cases hb
    | directory => exact hfail _ (.inr hn)
  · rw [store_set]
    cases n with
    | file bytes' => exact hok bytes' hn
    | directory => cases hb

theorem storeRename {k : Except IoError Unit → Prog daemon ε β} (hne : f ≠ g)
    (hok : ∀ n, v.get (f.under root) = some n →
      Inits current (inStore root (k (.ok ())))
        ((v.set (f.under root) none).set (g.under root) (some n)) Q F)
    (hfail : ∀ e, Inits current (inStore root (k (.error e))) v Q F) :
    Inits current (inStore root ((DaemonOp.rename f g).bind k)) v Q F := by
  refine op ?_
  rintro t c ans t' rfl hs
  obtain ⟨e, rfl, rfl, -⟩ | ⟨-, n, hn, -, rfl, rfl⟩ :=
    Volume.rename_cases hne (Option.some.inj hs)
  · exact hfail e
  · rw [store_set, store_set]
    exact hok n hn

theorem storeSync {k : Except IoError Unit → Prog daemon ε β}
    (h : ∀ r, Inits current (inStore root (k r)) v Q F) :
    Inits current (inStore root (DaemonOp.sync.bind k)) v Q F := by
  refine op ?_
  rintro t c ans t' rfl hs
  obtain ⟨rfl, -⟩ := Volume.sync_cases (Option.some.inj hs)
  exact h _

end

end Inits

-- ---------------------------------------------------------------------------
-- A directory nobody removes
-- ---------------------------------------------------------------------------

/-- The step does not remove or move the directory `q`. -/
def InitOp.Spares (q : Path) : InitOp → Prop
  | .tree (.removeDir p) => p ≠ q
  | .tree (.file (.rename source target)) => source ≠ q ∧ target ≠ q
  | .store root (.root (.rename source target)) => source.under root ≠ q ∧ target.under root ≠ q
  | _ => True

/-- `q` was made by `create_dir_all` and is still there. -/
def Stays (q : Path) (v : TreeView) : Prop := v.get q = some .directory ∧ q ∈ v.made

theorem Stays.makeAll {v : TreeView} (h : Stays q v) (ps : List Path) : Stays q (v.makeAll ps) := by
  refine ⟨?_, List.mem_append_left _ h.2⟩
  simp only [TreeView.makeAll, h.1, ite_self]

theorem Stays.set {v : TreeView} (h : Stays q v) (hp : p ≠ q) (n : Option TreeNode) :
    Stays q (v.set p n) := by
  refine ⟨?_, h.2⟩
  rw [TreeView.set_get, if_neg (Ne.symm hp), h.1]

/-- A file is never put in the place of a directory. -/
theorem Stays.ne {v : TreeView} (h : Stays q v)
    (hp : v.get p = none ∨ ∃ n, v.get p = some n ∧ (FileLike.bytes? n).isSome = true) : p ≠ q := by
  rintro rfl
  rw [h.1] at hp
  obtain hp | ⟨n, hn, hb⟩ := hp
  · cases hp
  · cases hn
    cases hb

section
variable {q : Path} {t t' : FileTree} {c : Outcome}

theorem Stays.volume {κ : Type} [DecidableEq κ] {V : Volume FileTree κ TreeNode} (path : κ → Path)
    (hget : ∀ t f, V.get t f = t.get (path f))
    (hset : ∀ t f n, V.set t f n = FileTree.files.set t (path f) n) {o : FileOp κ} {ans : o.Ans}
    (hrename : ∀ f g, o = .rename f g → path f ≠ q ∧ path g ≠ q) (h : Stays q t.view)
    (hs : V.step o c t = (ans, t')) : Stays q t'.view := by
  cases o with
  | pathExists f | isFile f =>
    cases hs
    exact h
  | read f =>
    obtain ⟨rfl, -⟩ := Volume.read_cases hs
    exact h
  | sync =>
    obtain ⟨rfl, -⟩ := Volume.sync_cases hs
    exact h
  | createNew f bytes =>
    obtain ⟨e, -, rfl, -⟩ | ⟨n, m, -, hn, -, rfl⟩ | ⟨-, hn, -, rfl⟩ := Volume.createNew_cases hs
    · exact h
    all_goals
      rw [hset, FileTree.view_set]
      rw [hget] at hn
      exact h.set (h.ne (.inl hn)) _
  | remove f =>
    obtain ⟨e, -, rfl, -⟩ | ⟨-, ⟨n, b, hn, hb⟩, -, rfl⟩ := Volume.remove_cases hs
    · exact h
    · rw [hset, FileTree.view_set]
      rw [hget] at hn
      exact h.set (h.ne (.inr ⟨n, hn, by rw [hb]; rfl⟩)) _
  | rename f g =>
    obtain ⟨hf, hg⟩ := hrename f g rfl
    have hs : V.rename f g c t = (ans, t') := hs
    unfold Volume.rename at hs
    split at hs
    · cases hs
      exact h
    · cases hs
      exact h
    · split at hs
      · cases hs
        exact h
      split at hs
      · cases hs
        rw [hset, hset, FileTree.view_set, FileTree.view_set]
        exact (h.set hf _).set hg _
      · cases hs
        exact h

theorem Stays.step {o : InitOp} {ans : o.Ans} (h : Stays q t.view) (ho : o.Spares q)
    (hs : initStep current o c t = some (ans, t')) : Stays q t'.view := by
  cases o with
  | currentDir =>
    cases hs
    exact h
  | tree o =>
    have hs := Option.some.inj hs
    cases o with
    | file o =>
      have hvolume : ∀ c, FileTree.files.step o c t = (ans, t') → Stays q t'.view := by
        intro c hs
        refine Stays.volume id (fun _ _ => rfl) (fun _ _ _ => rfl) ?_ h hs
        rintro f g rfl
        exact ho
      cases o with
      | createNew p bytes => exact hvolume _ hs
      | _ => exact hvolume c hs
    | inspect p | firstEntry p =>
      cases hs
      exact h
    | createDirAll p =>
      obtain ⟨rfl, -⟩ | ⟨-, -, ⟨-, rfl⟩ | ⟨e, ps, -, -, rfl⟩⟩ := FileTree.createDirAll_cases hs
      · exact h
      all_goals
        rw [FileTree.view_makeAll]
        exact h.makeAll _
    | createDir p =>
      obtain ⟨rfl, -⟩ | ⟨hp, -, rfl⟩ := FileTree.createDir_cases hs
      · exact h
      · rw [FileTree.view_set]
        exact h.set (h.ne (.inl hp)) _
    | removeDir p =>
      have hs : t.removeDir p c = (ans, t') := hs
      unfold FileTree.removeDir at hs
      split at hs
      · cases hs
        exact h
      · cases hs
        exact h
      · cases hs
        exact h
      · split at hs
        · cases hs
          exact h
        · cases hs
          rw [FileTree.view_set]
          exact h.set ho _
  | store root o =>
    cases o with
    | root o =>
      have hvolume : ∀ c, (storeFiles root).step o c t = (ans, t') → Stays q t'.view := by
        intro c hs
        refine Stays.volume (RootPath.under root) (fun _ _ => rfl) (fun _ _ _ => rfl) ?_ h hs
        rintro f g rfl
        exact ho
      cases o with
      | createNew p bytes => exact hvolume _ (Option.some.inj hs)
      | _ => exact hvolume c (Option.some.inj hs)
    | _ => cases hs

theorem stays_inits {p : Prog init ε α} {v : TreeView} (hp : p.Only (InitOp.Spares q))
    (h : Stays q v) : Inits current p v (fun _ w => Stays q w) (fun _ w => Stays q w) := by
  induction p generalizing v with
  | pure a => exact Exec.pure h
  | fail e => exact Exec.fail h
  | op o next ih =>
    refine Inits.op ?_
    rintro t c ans t' rfl hs
    exact ih ans (hp.2 ans) (h.step hp.1 hs)

end

section
variable {q root : Path} {libraries : InitLibraries}

theorem removeFiles_spares (ps : List Path) :
    (removeFiles ps : Prog init ε _).Only (InitOp.Spares q) := by
  induction ps with
  | nil => trivial
  | cons p ps ih => exact Prog.Only.step trivial fun _ => ih.bind fun _ => trivial

theorem removeDirectories_spares (ps : List Path) (h : ∀ p ∈ ps, p ≠ q) :
    (removeDirectories ps : Prog init ε _).Only (InitOp.Spares q) := by
  induction ps with
  | nil => trivial
  | cons p ps ih =>
    obtain ⟨hp, hps⟩ := List.forall_mem_cons.mp h
    exact Prog.Only.step hp fun _ => (ih hps).bind fun _ => trivial

theorem reportFailures_spares {failures : List String} :
    (reportFailures failures).Only (InitOp.Spares q) := by
  unfold reportFailures
  split <;> trivial

theorem failAfter_spares {error : ServerError} {what : String} {rollback : Prog init ServerError Unit}
    (h : rollback.Only (InitOp.Spares q)) :
    (failAfter error what rollback : Prog init ServerError α).Only (InitOp.Spares q) := by
  refine h.attempt.bind ?_
  rintro (_ | _) <;> trivial

theorem ownRoot_ne (hroot : root ≠ q) {existed : Bool} : ∀ p ∈ ownRoot root existed, p ≠ q := by
  cases existed <;> simp [ownRoot, hroot]

theorem rollbackCreatedDirectories_spares {existed : Bool} {created : List Path}
    (hcreated : ∀ p ∈ created, p ≠ q) (hroot : root ≠ q) :
    (rollbackCreatedDirectories root existed created).Only (InitOp.Spares q) := by
  refine (removeDirectories_spares _ fun p hp => ?_).bind fun _ => reportFailures_spares
  rcases List.mem_append.mp hp with hp | hp
  · exact hcreated p (List.mem_reverse.mp hp)
  · exact ownRoot_ne hroot p hp

/-- `q` is none of the directories the rollback removes. -/
structure Strange (root q : Path) : Prop where
  top : root ≠ q
  credentials : root ++ ["credentials"] ≠ q
  layout : ∀ name ∈ layoutDirectories, root ++ [name] ≠ q

theorem rollbackInitialization_spares {listen : String} {existed queryCreated adminCreated : Bool}
    (h : Strange root q) :
    (rollbackInitialization (.new root listen) existed queryCreated adminCreated).Only
      (InitOp.Spares q) := by
  have hstore : (rollbackStore root existed).Only (InitOp.Spares q) := by
    refine (removeFiles_spares _).bind fun _ => (removeDirectories_spares _ fun p hp => ?_).bind
      fun _ => reportFailures_spares
    rcases List.mem_append.mp hp with hp | hp
    · obtain ⟨name, hname, rfl⟩ := List.mem_map.mp hp
      exact h.layout name (List.mem_reverse.mp hname)
    · exact ownRoot_ne h.top p hp
  refine (removeFiles_spares _).bind fun _ => (removeDirectories_spares _ ?_).bind fun _ =>
    hstore.attempt.bind fun _ => reportFailures_spares
  simpa [DaemonConfig.new] using h.credentials

theorem createParent_spares {path : Path} {what : String} :
    (createParent path what).Only (InitOp.Spares q) := by
  unfold createParent
  split
  · trivial
  · refine Prog.Only.step trivial ?_
    rintro (_ | _) <;> trivial

theorem persistNewFile_spares {path : Path} {bytes : Bytes} :
    (persistNewFile path bytes).Only (InitOp.Spares q) := by
  refine Prog.Only.step trivial ?_
  rintro ((_ | _) | _)
  · trivial
  · refine Prog.Only.step trivial ?_
    rintro (_ | _)
    · dsimp only
      split <;> trivial
    · trivial
  · trivial

theorem writeNewFile_spares {path : Path} {bytes : Bytes} :
    (writeNewFile path bytes).Only (InitOp.Spares q) :=
  createParent_spares.bind fun _ => persistNewFile_spares

theorem writeNew_spares {config : DaemonConfig} {path : Path} :
    (config.writeNew libraries path).Only (InitOp.Spares q) := by
  refine Prog.Only.bind ?_ fun _ => createParent_spares.bind fun _ => ?_
  · cases config.validate libraries <;> trivial
  · split
    · trivial
    · exact writeNewFile_spares

theorem writeFiles_spares {config : DaemonConfig} {configPath : Path} {query admin : String} :
    (writeFiles libraries config configPath query admin : Prog init ε _).Only (InitOp.Spares q) := by
  refine writeNewFile_spares.attempt.bind ?_
  rintro (_ | _)
  · trivial
  · refine writeNewFile_spares.attempt.bind ?_
    rintro (_ | _)
    · trivial
    · exact writeNew_spares.attempt.bind fun _ => trivial

-- A directory above the root is out of reach of every step.

theorem above_ne (h : q.length < root.length) (r : Path) : root ++ r ≠ q := by
  rintro rfl
  rw [List.length_append] at h
  omega

theorem strange_of_above (h : q.length < root.length) : Strange root q :=
  ⟨fun he => above_ne h [] (by rw [List.append_nil, he]), above_ne h _, fun _ _ => above_ne h _⟩

theorem writeAtomic_spares (h : q.length < root.length) {catalog : Catalog} {d : DataDirectory} :
    (inStore root (writeAtomic d catalog true)).Only (InitOp.Spares q) := by
  have hroot : (writeAtomic d catalog true).Only fun o => InitOp.Spares q (.store root o) := by
    have hrename : InitOp.Spares q (.store root (.root (.rename .pending .serverState))) :=
      ⟨above_ne h _, above_ne h _⟩
    unfold writeAtomic
    simp only [Prog.bind_eq, ↓reduceIte]
    refine Prog.Only.bind ?_ fun _ => ?_
    · unfold writeJsonNew
      simp only [Prog.bind_eq]
      refine Prog.Only.step trivial ?_
      rintro ((_ | _) | _)
      · trivial
      · refine Prog.Only.step trivial ?_
        rintro (_ | _)
        · dsimp only
          split <;> trivial
        · trivial
      · trivial
    · refine Prog.Only.step trivial ?_
      rintro (_ | _)
      · unfold installPending
        refine Prog.Only.step hrename ?_
        rintro (_ | _)
        · exact Prog.Only.step trivial fun _ => trivial
        · refine Prog.Only.bind (Prog.Only.attempt (Prog.Only.step trivial ?_)) ?_
          · rintro (_ | _) <;> trivial
          · rintro (_ | _)
            · exact Prog.Only.step trivial fun _ => trivial
            · refine Prog.Only.bind (Prog.Only.attempt (Prog.Only.step trivial ?_)) fun _ => trivial
              rintro (_ | _)
              · dsimp only
                split <;> trivial
              · trivial
      · exact Prog.Only.step trivial fun _ => trivial
  exact Prog.Only.lift hroot

end

end NostdbServer
