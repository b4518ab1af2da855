import NostdbServer.Daemon.Changes
import NostdbServer.Daemon.Open

/-!
# Directories that start

`Halted c e`: nobody serves the data directory, and recovery is going to find
the catalog `c`, whatever restores and lifecycle calls were cut off. A start
keeps that wherever it is cut, and ends in `InService c`, from where the next
operation sets out.
-/

namespace NostdbServer

open Effects World

/-- The files that recovery decides by. -/
def DbFiles.view (files : DbFiles) : View := Site.view ⟨files, none, false⟩

structure Halted (E : Engine) (root : DataDirectory) (c : Catalog) (e : Entries) : Prop where
  startable : Startable root c e
  free : ∀ n, e .pending = some n → e interrupted = none
  apart : ∀ id ∈ c.ids, e (.trash id) = none ∧ e (orphan id) = none
  directory : ∀ id ∈ c.ids, ∃ files, e (.database id) = some (.directory files)
  settles : ∀ id files, e (.database id) = some (.directory files) →
    ∃ n, Settles E (restoreJournal root.restore id) n files.view ∧
      (id ∈ c.ids → ∃ x, n = some (.file x))

/-- A daemon serves the catalog `c`, and nothing is under way. -/
structure InService (E : Engine) (root : DataDirectory) (c : Catalog) (v : Books) : Prop where
  idle : Idle root c v
  leads : ∀ id files, v.entry (.database id) = some (.directory files) →
    ∃ x, Leads E (restoreJournal root.restore id) x files.view ∧ files .database = some (.file x)

section
variable {E : Engine} {root : DataDirectory} {uuids : Nat → String} {c : Catalog} {e e' : Entries}
  {v w : Books} {d d' : Daemon} {id : String} {files : DbFiles} {may : Outcome → Prop}

-- ---------------------------------------------------------------------------
-- Changes inside Database directories
-- ---------------------------------------------------------------------------

theorem Settles.handle {n : Option Node} {journal : Node} {view : View}
    (h : Settles E journal n view) (slot : Option Database) (locked : Bool) :
    Settles E journal n { view with slot := slot, locked := locked } := by
  rcases h with ⟨x, hn, hx⟩ | h
  · exact .inl ⟨x, hn, hx.handle⟩
  · refine .inr ?_
    rw [h]
    rfl

/-- Whether a directory is there is all a load asks of storage it may move. -/
theorem Startable.resized (h : Startable root c e)
    (hfiles : ∀ p : RootPath, (∀ id, p ≠ .database id) → e' p = e p)
    (hsome : ∀ id, (e' (.database id)).isSome = (e (.database id)).isSome) :
    Startable root c e' := by
  refine ⟨h.valid, ?_, ?_, ?_, ?_⟩
  · rw [hfiles _ (by simp), hfiles _ (by simp)]
    exact h.state
  · rw [hfiles _ (by simp)]
    exact h.pending
  · rw [hfiles _ (by simp)]
    refine h.operation.imp_right ?_
    rintro ⟨journal, hj, hversion, hside⟩
    refine ⟨journal, hj, hversion, hside.imp_right fun hf => ⟨hf.1, ?_⟩⟩
    obtain ⟨version, kind, id, before, after⟩ := journal
    cases kind with
    | create => exact hf.2
    | rename => trivial
    | drop =>
      refine ⟨hf.2.1, fun hd => ?_⟩
      rw [hfiles _ (by simp)]
      exact hf.2.2 ((hsome id).symm.trans hd)
  · intro id hid hd
    rw [hfiles _ (by simp [orphan])]
    exact h.orphans id hid ((hsome id).symm.trans hd)

/-- Nothing changed but the content of Database directories. -/
theorem Halted.resized (h : Halted E root c e)
    (hfiles : ∀ p : RootPath, (∀ id, p ≠ .database id) → e' p = e p)
    (hsome : ∀ id, (e' (.database id)).isSome = (e (.database id)).isSome)
    (hdir : ∀ id ∈ c.ids, ∃ files, e' (.database id) = some (.directory files))
    (hsettles : ∀ id files, e' (.database id) = some (.directory files) →
      ∃ n, Settles E (restoreJournal root.restore id) n files.view ∧
        (id ∈ c.ids → ∃ x, n = some (.file x))) : Halted E root c e' where
  startable := h.startable.resized hfiles hsome
  free := by
    rw [hfiles _ (by simp), hfiles _ (by simp [interrupted])]
    exact h.free
  apart id hid := by
    rw [hfiles _ (by simp), hfiles _ (by simp [orphan])]
    exact h.apart id hid
  directory := hdir
  settles := hsettles

-- ---------------------------------------------------------------------------
-- Restore recovery
-- ---------------------------------------------------------------------------

theorem Daemon.site_view (hf : d.entry (.database id) = some (.directory files)) :
    (d.site id).view =
      { files.view with slot := (d.site id).slot, locked := (d.site id).locked } := by
  rw [Daemon.site, Daemon.filesOf_eq hf]
  rfl

/-- What recovery is going to make of the directories. -/
theorem Halted.settling (h : Halted E root c d.entry) :
    ∃ content, Settling E root content d ∧ ∀ id ∈ c.ids, ∃ x, content id = some (.file x) := by
  have hpick : ∀ id, ∃ n, ∀ files, d.entry (.database id) = some (.directory files) →
      Settles E (restoreJournal root.restore id) n files.view ∧
        (id ∈ c.ids → ∃ x, n = some (.file x)) := by
    intro id
    by_cases hd : ∃ files, d.entry (.database id) = some (.directory files)
    · obtain ⟨files, hf⟩ := hd
      obtain ⟨n, hn⟩ := h.settles id files hf
      refine ⟨n, fun files' hf' => ?_⟩
      cases hf.symm.trans hf'
      exact hn
    · exact ⟨none, fun files hf => absurd ⟨files, hf⟩ hd⟩
  choose content hcontent using hpick
  refine ⟨content, fun id hd => ?_, fun id hid => ?_⟩
  · obtain ⟨files, hf⟩ := Daemon.hasDirectory_iff.mp hd
    rw [Daemon.site_view hf]
    exact (hcontent id files hf).1.handle _ _
  · obtain ⟨files, hf⟩ := h.directory id hid
    exact (hcontent id files hf).2 hid

theorem Halted.within {content : String → Option Node} (h : Halted E root c d.entry)
    (hw : Daemon.Within (fun _ => True) d d') (hs : Settling E root content d')
    (hcontent : ∀ id ∈ c.ids, ∃ x, content id = some (.file x)) :
    Halted E root c d'.entry := by
  refine h.resized (fun p hp => hw.entry p fun id hid => absurd hid (hp id)) (fun id => ?_)
    (fun id hid => ?_) fun id files hf => ?_
  · by_cases hd : d.hasDirectory (.database id) = true
    · obtain ⟨files, hf⟩ := Daemon.hasDirectory_iff.mp hd
      obtain ⟨files', hf'⟩ := Daemon.hasDirectory_iff.mp ((hw.hasDirectory _).trans hd)
      rw [hf, hf']
      rfl
    · rw [hw.entry _ fun _ _ _ => by simpa using hd]
  · obtain ⟨files, hf⟩ := h.directory id hid
    exact Daemon.hasDirectory_iff.mp
      ((hw.hasDirectory _).trans (Daemon.hasDirectory_iff.mpr ⟨files, hf⟩))
  · have hid := hs id (Daemon.hasDirectory_iff.mpr ⟨files, hf⟩)
    rw [Daemon.site_view hf] at hid
    exact ⟨content id, hid.handle none false, hcontent id⟩

/-- No restore file is left, and every Database of the catalog is in place. -/
def Cleared (c : Catalog) (e : Entries) : Prop :=
  ∀ id files, e (.database id) = some (.directory files) →
    ∃ n, files.view = .settled n none false ∧ (id ∈ c.ids → ∃ x, n = some (.file x))

theorem recoverSnapshotOperations_halted (hm : ¬ Faulty may) (h : Halted E root c v.entry) :
    Does E uuids may (fun w => Halted E root c w.entry) (recoverSnapshotOperations root) v
      (fun _ w => Halted E root c w.entry ∧ Cleared c w.entry ∧
        w.memory.databases = v.memory.databases)
      (fun _ _ => False) := by
  rintro ⟨d, l⟩ rfl
  have h : Halted E root c d.entry := h
  obtain ⟨content, hs, hcontent⟩ := h.settling
  have hwp : (daemonSetting E uuids may).Wp _ (recoverSnapshotOperations root) d _ _ :=
    recoverSnapshotOperations_wp hm hs
  refine (Setting.Wp.logged hwp l).mono ?_ ?_ ?_
  · rintro ⟨t, l'⟩ ⟨hw, hs'⟩
    exact h.within hw hs' hcontent
  · rintro _ ⟨t, l'⟩ ⟨hw, hs'⟩
    have hview : ∀ id, t.hasDirectory (.database id) = true →
        (t.site id).view = .settled (content id) (t.site id).slot (t.site id).locked :=
      fun id hd => hs' id id (List.mem_singleton.mpr rfl) hd
    have hmemory := congrArg Memory.databases hw.memory
    refine ⟨h.within hw (fun id hd => .inr (hview id hd)) hcontent, fun id files hf => ?_, hmemory⟩
    have hid := hview id (Daemon.hasDirectory_iff.mpr ⟨files, hf⟩)
    rw [Daemon.site_view hf] at hid
    exact ⟨content id, congrArg (fun u : View => { u with slot := none, locked := false }) hid,
      hcontent id⟩
  · exact fun _ _ hf => hf

-- ---------------------------------------------------------------------------
-- Loading the catalog
-- ---------------------------------------------------------------------------

/-- A step of a load takes nothing into `databases/` and registers no handle. -/
theorem DaemonOp.Sweeps.step {o : DaemonOp} {oc : Outcome} {ans : o.Ans} (ho : o.Sweeps)
    (hs : (daemonWorld E uuids).step o oc d = some (ans, d')) :
    Fewer d.entry d'.entry ∧ d'.memory.databases = d.memory.databases := by
  match o, ho with
  | .root (.pathExists _), _ | .root (.isFile _), _ | .isDir _, _ =>
    cases Option.some.inj hs
    exact ⟨.refl _, rfl⟩
  | .root (.read _), _ =>
    rw [(Volume.read_cases (Option.some.inj hs)).1]
    exact ⟨.refl _, rfl⟩
  | .root .sync, _ =>
    rw [(Volume.sync_cases (Option.some.inj hs)).1]
    exact ⟨.refl _, rfl⟩
  | .root (.remove p), _ =>
    obtain ⟨e, -, rfl, -⟩ | ⟨-, -, -, rfl⟩ := Volume.remove_cases (Option.some.inj hs)
    · exact ⟨.refl _, rfl⟩
    · refine ⟨fun id => ?_, rfl⟩
      rw [Daemon.entry_set]
      split
      · exact .inr rfl
      · exact .inl rfl
  | .root (.rename p q), ho =>
    have hq : ∀ id, RootPath.database id ≠ q := by
      rintro id rfl
      exact ho
    by_cases hne : p = q
    · subst hne
      rw [Volume.rename_self (Option.some.inj hs)]
      exact ⟨.refl _, rfl⟩
    obtain ⟨e, -, rfl, -⟩ | ⟨-, n, -, -, -, rfl⟩ := Volume.rename_cases hne (Option.some.inj hs)
    · exact ⟨.refl _, rfl⟩
    · refine ⟨fun id => ?_, rfl⟩
      rw [Daemon.entry_set, if_neg (hq id), Daemon.entry_set]
      split
      · exact .inr rfl
      · exact .inl rfl
  | .readDatabases, _ =>
    have hs : d.readDatabases oc = (ans, d') := Option.some.inj hs
    unfold Daemon.readDatabases at hs
    split at hs <;> cases hs <;> exact ⟨.refl _, rfl⟩
  | .storage id (.file (.isFile f)), _ =>
    cases hs
    rw [Daemon.memory_putSite, Daemon.entry_putSite_of_files rfl]
    exact ⟨.refl _, rfl⟩

theorem load_fewer :
    Does E uuids may (fun w => Fewer v.entry w.entry) (load root) v
      (fun _ w => Fewer v.entry w.entry ∧ w.memory.databases = v.memory.databases)
      (fun _ w => Fewer v.entry w.entry) := by
  rintro ⟨d, l⟩ rfl
  refine (Setting.Wp.logged (Setting.Wp.of_only (W := daemonSetting E uuids may)
    (P := DaemonOp.Sweeps) (I := fun t => Fewer d.entry t.entry ∧
      t.memory.databases = d.memory.databases) ?_ ?_ load_sweeps ⟨.refl _, rfl⟩) l).mono
    (fun _ h => h.1) (fun _ _ h => h) fun _ _ h => h.1
  · rintro s _ h rfl
    exact h
  · rintro o oc s ans t ho - hs ⟨hfewer, hdatabases⟩
    obtain ⟨hfewer', hdatabases'⟩ := ho.step hs
    exact ⟨trivial, hfewer.trans hfewer', hdatabases'.trans hdatabases⟩

theorem Halted.loadable (h : Halted E root c e) (hcleared : Cleared c e) : Loadable root c e where
  toStartable := h.startable
  free := h.free
  storage id hid := by
    obtain ⟨files, hf⟩ := h.directory id hid
    obtain ⟨n, hview, hn⟩ := hcleared id files hf
    obtain ⟨x, rfl⟩ := hn hid
    exact ⟨files, x, hf, congrArg View.database hview⟩

/-- Storage that is moved away has no recovery to come. -/
theorem Halted.loading (h : Halted E root c e) (hl : Loading root c e e') (hf : Fewer e e') :
    Halted E root c e' where
  startable := hl.loadable.toStartable
  free := hl.loadable.free
  apart id hid := by
    rw [hl.kept id hid _ (.inr (.inl rfl)), hl.kept id hid _ (.inr (.inr rfl))]
    exact h.apart id hid
  directory id hid := by
    rw [hl.kept id hid _ (.inl rfl)]
    exact h.directory id hid
  settles id files hfiles := by
    rcases hf id with hid | hid
    · exact h.settles id files (hid.symm.trans hfiles)
    · cases hid.symm.trans hfiles

theorem load_halted (hm : ¬ Faulty may) (h : Halted E root c v.entry)
    (hcleared : Cleared c v.entry) :
    Does E uuids may (fun w => Halted E root c w.entry) (load root) v
      (fun catalog w => catalog = c ∧ Halted E root c w.entry ∧ Loaded root c v.entry w.entry ∧
        Cleared c w.entry ∧ w.memory.databases = v.memory.databases)
      (fun _ _ => False) := by
  intro s hs
  refine (((load_does hm (h.loadable hcleared)) s hs).and (load_fewer s hs)).mono ?_ ?_
    fun _ _ hf => hf.1
  · rintro t ⟨hl, hf⟩
    exact h.loading hl hf
  · rintro catalog t ⟨⟨rfl, hl⟩, hf, hdatabases⟩
    refine ⟨rfl, h.loading hl.loading hf, hl, fun id files hfiles => ?_, hdatabases⟩
    rcases hf id with hid | hid
    · exact hcleared id files (hid.symm.trans hfiles)
    · cases hid.symm.trans hfiles

-- ---------------------------------------------------------------------------
-- Opening the Databases
-- ---------------------------------------------------------------------------

theorem DbFiles.view_congr {files' : DbFiles} (h : ∀ f, f ≠ .sidecar .database → files' f = files f) :
    files'.view = files.view := by
  simp only [DbFiles.view, Site.view, h _ (show DbFile.database ≠ .sidecar .database by decide),
    h _ (show DbFile.restoreCandidate ≠ .sidecar .database by decide),
    h _ (show DbFile.restoreBackup ≠ .sidecar .database by decide),
    h _ (show DbFile.restoreOperation ≠ .sidecar .database by decide)]

/-- Recovery looks at the files `view` shows. -/
theorem Halted.inside {R : String → DbFiles → DbFiles → Prop} (h : Halted E root c e)
    (ho : OnlyInside R e e')
    (hR : ∀ id files files', e (.database id) = some (.directory files) → R id files files' →
      ∃ n, Settles E (restoreJournal root.restore id) n files'.view ∧
        (id ∈ c.ids → ∃ x, n = some (.file x))) : Halted E root c e' := by
  refine h.resized (fun p hp => ho.file hp) ho.isSome (fun id hid => ?_) fun id files' hf' => ?_
  · obtain ⟨files, hf⟩ := h.directory id hid
    obtain ⟨files', hf', -⟩ := ho.files id files hf
    exact ⟨files', hf'⟩
  · obtain ⟨files, hf, hr⟩ := ho.back hf'
    exact hR id files files' hf hr

theorem Halted.alike (h : Halted E root c e) (ha : Alike e e') : Halted E root c e' := by
  refine h.inside ha fun id files files' hf hsame => ?_
  rw [DbFiles.view_congr hsame]
  exact h.settles id files hf

theorem Cleared.alike (h : Cleared c e) (ha : Alike e e') : Cleared c e' := by
  intro id files' hf'
  obtain ⟨files, hf, hsame⟩ := ha.back hf'
  rw [DbFiles.view_congr hsame]
  exact h id files hf

/-- Every Database of the catalog is in place, and nothing else is there. -/
theorem Halted.inService (h : Halted E root c w.entry) (hcleared : Cleared c w.entry)
    (hresting : Resting root c w.entry) (only : ∀ id, id ∉ c.ids → w.entry (.database id) = none)
    (catalog : w.memory.catalog = c)
    (handles : ∀ id handle, w.memory.databases id = some handle → handle.id = id) :
    InService E root c w where
  idle := ⟨⟨h.startable, (h.loadable hcleared).storage, h.apart⟩, hresting, only, catalog, handles⟩
  leads id files hf := by
    have hid : id ∈ c.ids := by
      by_contra hid
      cases (only id hid).symm.trans hf
    obtain ⟨n, hview, hn⟩ := hcleared id files hf
    obtain ⟨x, rfl⟩ := hn hid
    refine ⟨x, ?_, congrArg View.database hview⟩
    rw [hview]
    exact .clean

theorem openDaemon_halted {credentials : Except ServerError Unit} (hm : ¬ Faulty may)
    (h : Halted E root c v.entry)
    (hkeyed : ∀ id handle, v.memory.databases id = some handle → handle.id = id) :
    Does E uuids may (fun w => Halted E root c w.entry) (openDaemon E root credentials) v
      (fun _ w => InService E root c w ∧ Halted E root c w.entry)
      (fun _ w => Halted E root c w.entry) := by
  unfold openDaemon
  simp only [Prog.bind_eq]
  refine Exec.seq (recoverSnapshotOperations_halted hm h) ?_ fun _ _ hf => hf.elim
  rintro _ w₁ ⟨hw₁, hcleared₁, hdatabases₁⟩
  cases credentials with
  | error error => exact Exec.fail hw₁
  | ok _ =>
    rw [Prog.ofExcept_ok, Prog.bind_pure]
    refine Exec.seq (load_halted hm hw₁ hcleared₁) ?_ fun _ _ hf => hf.elim
    rintro _ w₂ ⟨rfl, hw₂, hloaded, hcleared₂, hdatabases₂⟩
    refine Does.inner rfl hw₂ fun _ => ?_
    refine Exec.seq (p := openDatabases E root _)
      (openDatabases_alike _ fun w hw => hw₂.alike hw) ?_ fun _ w hw => hw₂.alike hw
    rintro _ w ⟨hw, hcatalog, hregistered⟩
    refine Exec.pure ⟨?_, hw₂.alike hw⟩
    refine (hw₂.alike hw).inService (hcleared₂.alike hw) ⟨?_, ?_, ?_, ?_⟩ (fun id hid => ?_) hcatalog
      fun id handle hh => ?_
    · exact (hw.file (by simp)).trans hloaded.state
    · exact (hw.file (by simp)).trans hloaded.previous
    · exact (hw.file (by simp)).trans hloaded.pending
    · exact (hw.file (by simp)).trans hloaded.operation
    · have hnone := hloaded.only id hid
      refine (hw.outside _ ?_).trans hnone
      rintro _ files ⟨⟩ hf
      cases hnone.symm.trans hf
    · rcases hregistered id handle hh with hh | hh
      · refine hkeyed id handle ?_
        rw [← hdatabases₁, ← hdatabases₂]
        exact hh
      · exact hh

end

end NostdbServer
