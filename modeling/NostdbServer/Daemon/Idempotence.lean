import NostdbServer.Catalog.Loads

/-!
# Starting twice

`recover_snapshot_operations` and `load`, run on any data directory at all. If
they succeed, nothing of an interrupted operation is left (`Recovered`), and
from there they only look.
-/

namespace NostdbServer

open Effects World

/-- The recovery of `DatabaseDaemon::open`. -/
def recoverAndLoad (root : DataDirectory) : Prog daemon ServerError Catalog := do
  recoverSnapshotOperations root
  load root

/-- No restore file. -/
def DbFiles.Clean (files : DbFiles) : Prop :=
  files .restoreCandidate = none ∧ files .restoreBackup = none ∧ files .restoreOperation = none

/-- The directory of the Database, if there is one, has no restore file. -/
def Tidy (e : Entries) (id : String) : Prop :=
  ∀ files, e (.database id) = some (.directory files) → files.Clean

/-- What a recovery that succeeds leaves. -/
structure Recovered (root : DataDirectory) (c : Catalog) (e : Entries) : Prop where
  state : ∃ bytes, e .serverState = some (.file bytes) ∧ root.catalog.decode bytes = .ok c
  valid : validateCatalog c = .ok ()
  pending : e .pending = none
  previous : e .previous = none
  operation : e .operation = none
  stored : ∀ id ∈ c.ids, Stored e id
  known : ∀ id, (e (.database id)).isSome = true → id ∈ c.ids
  tidy : ∀ id, Tidy e id

-- ---------------------------------------------------------------------------
-- Restore recovery leaves no restore file
-- ---------------------------------------------------------------------------

section
variable {E : Engine} {may : Outcome → Prop} {v : View} {handle : ManagedDatabase}

abbrev anyView : View → Prop := fun _ => True

theorem removeFileAndSidecar_gone (hf : f.Core) :
    Exec E may anyView (removeFileAndSidecar f) v (fun _ w => w = v.set f none)
      fun _ _ => True := by
  by_cases hn : v.get f = some .directory
  · unfold removeFileAndSidecar
    simp only [Prog.bind_eq]
    refine Exec.pathExists hf trivial ?_
    simp only [hn, Option.isSome_some, ↓reduceIte]
    refine Exec.remove hf trivial (fun _ => Exec.removeSidecar trivial rfl) ?_ ?_
    · intro h
      cases hn.symm.trans h
    · intro e _ _
      exact Exec.fail trivial
  · exact (removeFileAndSidecar_exec hf hn trivial trivial).mono (fun _ h => h) (fun _ _ h => h)
      fun _ _ _ => trivial

theorem syncRestoreDirectory_still :
    Exec E may anyView (syncRestoreDirectory handle) v (fun _ w => w = v) fun _ _ => True :=
  (syncRestoreDirectory_exec trivial).mono (fun _ h => h) (fun _ _ h => h) fun _ _ _ => trivial

theorem cleanupUnjournaledRestoreCandidate_leaves :
    Exec E may anyView (cleanupUnjournaledRestoreCandidate handle) v
      (fun _ w => w.operation = none → w.candidate = none ∧ w.backup = none) fun _ _ => True := by
  unfold cleanupUnjournaledRestoreCandidate
  simp only [Prog.bind_eq]
  refine Exec.seq (G := fun _ _ => True) (nothingUnjournaled_exec trivial) ?_ fun _ _ h => h
  rintro nothing _ ⟨rfl, hnothing⟩
  split
  · rename_i h
    refine Exec.pure fun ho => ?_
    simpa [ho] using hnothing.symm.trans h
  · refine Exec.seq (G := fun _ _ => True) (onlyCandidateLeft_exec trivial) ?_ fun _ _ h => h
    rintro only _ ⟨rfl, honly⟩
    split
    · rename_i h
      have hleft := honly.symm.trans h
      simp only [Bool.and_eq_true, Bool.not_eq_true', Option.isSome_eq_false_iff,
        Option.isNone_iff_eq_none] at hleft
      refine Exec.seq (removeFileAndSidecar_gone trivial) ?_ fun _ _ h => h
      rintro _ _ rfl
      refine syncRestoreDirectory_still.mono (fun _ h => h) ?_ fun _ _ h => h
      rintro _ _ rfl -
      exact ⟨rfl, hleft.2⟩
    · exact Exec.fail trivial

theorem clearRestoreFiles_leaves :
    Exec E may anyView (clearRestoreFiles handle) v
      (fun _ w => w.candidate = none ∧ w.backup = none ∧ w.operation = none)
      fun _ _ => True := by
  unfold clearRestoreFiles
  simp only [Prog.bind_eq]
  refine Exec.seq (removeFileAndSidecar_gone trivial) ?_ fun _ _ h => h
  rintro _ _ rfl
  refine Exec.seq (removeFileAndSidecar_gone trivial) ?_ fun _ _ h => h
  rintro _ _ rfl
  refine Exec.seq syncRestoreDirectory_still ?_ fun _ _ h => h
  rintro _ _ rfl
  refine Exec.remove trivial trivial ?_ ?_ ?_
  · intro _
    refine syncRestoreDirectory_still.mono (fun _ h => h) ?_ fun _ _ h => h
    rintro _ _ rfl
    exact ⟨rfl, rfl, rfl⟩
  · intro _
    exact Exec.fail trivial
  · intro _ _ _
    exact Exec.fail trivial

/-- From any files at all: a directory whose recovery succeeds has no restore
file left. -/
theorem recoverDirectory_leaves {K : Codec RestoreJournal} :
    Exec E may anyView (recoverDirectory K handle) v
      (fun _ w => w.candidate = none ∧ w.backup = none ∧ w.operation = none)
      fun _ _ => True := by
  unfold recoverDirectory
  simp only [Prog.bind_eq]
  refine Exec.seq cleanupUnjournaledRestoreCandidate_leaves ?_ fun _ _ h => h
  intro _ w hw
  refine Exec.pathExists trivial trivial ?_
  split
  · refine Exec.seq (Exec.any _ _) ?_ fun _ _ h => h
    intro journal w' _
    split
    · exact Exec.fail trivial
    · split
      · exact Exec.fail trivial
      · refine Exec.seq (Exec.any _ _) ?_ fun _ _ h => h
        intro _ _ _
        exact clearRestoreFiles_leaves
  · rename_i h
    have ho : w.operation = none := by simpa [View.get] using h
    exact Exec.pure ⟨(hw ho).1, (hw ho).2, ho⟩

-- ---------------------------------------------------------------------------
-- The recovery of a directory without restore files
-- ---------------------------------------------------------------------------

theorem site_pathExists {C : Site → Prop} {s : Site} {k : Bool → Prog storage ε α}
    {Q : α → Site → Prop} {F : ε → Site → Prop} (hc : C s)
    (h : (storageSetting E may).Wp C (k (s.files f).isSome) s Q F) :
    (storageSetting E may).Wp C ((StorageOp.pathExists f).bind k) s Q F := by
  rintro _ rfl
  refine ⟨hc, fun c _ ans t hs => ⟨trivial, ?_⟩⟩
  cases Option.some.inj hs
  exact h

/-- Sidecars included: nothing is touched. -/
theorem recoverDirectory_looks {K : Codec RestoreJournal} {C : Site → Prop} {s : Site}
    {F : ServerError → Site → Prop} (h : DbFiles.Clean s.files) (hc : C s) :
    (storageSetting E may).Wp C (recoverDirectory K handle) s (fun _ t => t = s) F := by
  obtain ⟨hcandidate, hbackup, hoperation⟩ := h
  unfold recoverDirectory cleanupUnjournaledRestoreCandidate nothingUnjournaled
  simp only [Prog.bind_eq, Prog.pure_eq, Prog.bind_assoc]
  refine site_pathExists hc ?_
  simp only [hoperation, Option.isSome_none, Bool.false_eq_true, ↓reduceIte, Prog.bind_assoc]
  refine site_pathExists hc ?_
  simp only [hcandidate, Option.isSome_none, Bool.false_eq_true, ↓reduceIte, Prog.bind_assoc]
  refine site_pathExists hc ?_
  simp only [hbackup, Option.isSome_none, Bool.not_false, ↓reduceIte, Prog.bind_pure]
  refine site_pathExists hc ?_
  simp only [hoperation, Option.isSome_none, Bool.false_eq_true, ↓reduceIte]
  rintro _ rfl
  rfl

end

section
variable {E : Engine} {uuids : Nat → String} {may : Outcome → Prop} {root : DataDirectory}
  {v : Books} {e e' : Entries} {c : Catalog} {id : String} {files : DbFiles}

abbrev anyBooks : Books → Prop := fun _ => True

-- ---------------------------------------------------------------------------
-- Any directories
-- ---------------------------------------------------------------------------

theorem Tidy.congr (h : Tidy e id) (he : e' (.database id) = e (.database id)) : Tidy e' id :=
  fun files hf => h files (he.symm.trans hf)

theorem withSite_entry_ne {s : Site} {i : String} (hne : i ≠ id) :
    (v.withSite id s).entry (.database i) = v.entry (.database i) := by
  simp [Books.withSite, hne]

theorem recoverEntries_leaves (names : List String) :
    Does E uuids may anyBooks (recoverEntries root names) v
      (fun _ w => (∀ id, id ∈ names ∨ Tidy v.entry id → Tidy w.entry id) ∧
        ∀ id, (w.entry (.database id)).isSome = (v.entry (.database id)).isSome)
      fun _ _ => True := by
  induction names generalizing v with
  | nil => exact Exec.pure ⟨fun id h => h.resolve_left (by simp), fun _ => rfl⟩
  | cons name rest ih =>
    unfold recoverEntries
    simp only [Prog.bind_eq]
    refine Does.directoryExists trivial ?_
    by_cases hd : ∃ files, v.entry (.database name) = some (.directory files)
    · obtain ⟨files, hd⟩ := hd
      simp only [Books.hasDirectory, hd, ↓reduceIte]
      have hrecover : Exec E may anyView (recoverDirectory root.restore (root.managed name))
          (v.site name files).view _ _ := recoverDirectory_leaves
      refine Exec.bind (Does.inside hd ((hrecover _ rfl).mono (fun _ _ => trivial) ?_
        fun _ _ _ => trivial))
      intro _ t ht
      refine (ih (v := v.withSite name t)).mono (fun _ h => h) ?_ fun _ _ h => h
      rintro _ w ⟨htidy, hsome⟩
      refine ⟨fun id hid => htidy id ?_, fun id => (hsome id).trans ?_⟩
      · by_cases hne : id = name
        · subst hne
          refine .inr fun files' hf' => ?_
          have hfiles : t.files = files' := by simpa [Books.withSite] using hf'
          exact hfiles ▸ ht
        · exact hid.imp (fun hm => by simpa [hne] using hm) fun h => h.congr (withSite_entry_ne hne)
      · by_cases hne : id = name
        · subst hne
          simp [Books.withSite, hd]
        · rw [withSite_entry_ne hne]
    · have hdir : v.hasDirectory (.database name) = false := by
        unfold Books.hasDirectory
        split
        · rename_i files hf
          exact absurd ⟨files, hf⟩ hd
        · rfl
      simp only [hdir, Bool.false_eq_true, ↓reduceIte]
      refine ih.mono (fun _ h => h) ?_ fun _ _ h => h
      rintro _ w ⟨htidy, hsome⟩
      refine ⟨fun id hid => htidy id ?_, hsome⟩
      by_cases hne : id = name
      · subst hne
        exact .inr fun files hf => absurd ⟨files, hf⟩ hd
      · exact hid.imp_left fun hm => by simpa [hne] using hm

theorem recoverSnapshotOperations_leaves (hm : ¬ Faulty may) :
    Does E uuids may anyBooks (recoverSnapshotOperations root) v
      (fun _ w => ∀ id, Tidy w.entry id) fun _ _ => True := by
  unfold recoverSnapshotOperations
  refine Does.readDatabases_ok hm trivial fun names _ hmem => ?_
  refine (recoverEntries_leaves names).mono (fun _ h => h) ?_ fun _ _ h => h
  rintro _ w ⟨htidy, -⟩ id
  by_cases hid : id ∈ names
  · exact htidy id (.inl hid)
  · refine htidy id (.inr fun files hf => absurd ((hmem id).mpr ?_) hid)
    rw [hf]
    rfl

-- ---------------------------------------------------------------------------
-- Any catalog files
-- ---------------------------------------------------------------------------

/-- Directories stay as they are or are moved away whole. -/
def Fewer (e e' : Entries) : Prop :=
  ∀ id, e' (.database id) = e (.database id) ∨ e' (.database id) = none

theorem Fewer.refl (e : Entries) : Fewer e e := fun _ => .inl rfl

theorem Fewer.trans {e'' : Entries} (h : Fewer e e') (h' : Fewer e' e'') : Fewer e e'' := by
  intro id
  rcases h' id with h' | h'
  · exact (h id).imp h'.trans h'.trans
  · exact .inr h'

theorem Fewer.tidy (h : Fewer e e') (ht : Tidy e id) : Tidy e' id := by
  rcases h id with h | h
  · exact ht.congr h
  · intro files hf
    cases h.symm.trans hf

/-- The catalog's own files are as they were. -/
structure SameCatalog (e e' : Entries) : Prop where
  state : e' .serverState = e .serverState
  pending : e' .pending = e .pending
  previous : e' .previous = e .previous

theorem removeIfExists_gone {p : RootPath} :
    Does E uuids may anyBooks (removeIfExists root p) v (fun _ w => w = v.set p none)
      fun _ _ => True := by
  unfold removeIfExists
  simp only [Prog.bind_eq]
  refine Does.remove trivial (fun _ _ => Exec.pure rfl) ?_ ?_
  · intro hn
    refine Exec.pure ?_
    unfold Books.set
    rw [← hn, Function.update_eq_self]
  · intro e he _
    simp only [he, Bool.false_eq_true, ↓reduceIte]
    exact Exec.fail trivial

theorem restorePrevious_leaves :
    Does E uuids may anyBooks restorePrevious v
      (fun _ w => (w.entry .serverState = none → w.entry .previous = none) ∧
        Fewer v.entry w.entry) fun _ _ => True := by
  unfold restorePrevious
  simp only [Prog.bind_eq]
  refine Does.pathExists trivial (Does.pathExists trivial ?_)
  split
  · refine Does.rename (by simp) trivial ?_ fun _ _ _ _ => Exec.fail trivial
    intro n _ _
    exact Exec.pure ⟨by simp, fun id => .inl (by simp)⟩
  · rename_i h
    refine Exec.pure ⟨fun hs => ?_, .refl _⟩
    simpa [hs] using h

theorem quarantinePending_leaves :
    Does E uuids may anyBooks quarantinePending v
      (fun _ w => w.entry .pending = none ∧ w.entry .serverState = v.entry .serverState ∧
        w.entry .previous = v.entry .previous ∧ Fewer v.entry w.entry) fun _ _ => True := by
  unfold quarantinePending
  simp only [Prog.bind_eq]
  refine Does.pathExists trivial ?_
  split
  · refine Does.pathExists trivial ?_
    split
    · exact Exec.fail trivial
    · refine Does.rename (by simp [interrupted]) trivial ?_ fun _ _ _ _ => Exec.fail trivial
      intro n _ _
      exact Exec.pure ⟨by simp [interrupted], by simp [interrupted], by simp [interrupted],
        fun id => .inl (by simp [interrupted])⟩
  · rename_i h
    exact Exec.pure ⟨by simpa using h, rfl, rfl, .refl _⟩

theorem readCatalogFile_reads {p : RootPath} :
    Does E uuids may anyBooks (readCatalogFile root p) v
      (fun catalog w => w = v ∧ ∃ bytes, v.entry p = some (.file bytes) ∧
        root.catalog.decode bytes = .ok catalog) fun _ _ => True := by
  unfold readCatalogFile
  simp only [Prog.bind_eq]
  refine Does.read trivial ?_ fun _ _ => Exec.fail trivial
  intro bytes hb
  dsimp only
  split
  · exact Exec.fail trivial
  · rename_i catalog hc
    exact Exec.pure ⟨rfl, bytes, hb, hc⟩

theorem dropPrevious_leaves :
    Does E uuids may anyBooks (dropPrevious root) v
      (fun _ w => ((v.entry .serverState).isSome = true → w.entry .previous = none) ∧
        w.entry .serverState = v.entry .serverState ∧ w.entry .pending = v.entry .pending ∧
        Fewer v.entry w.entry) fun _ _ => True := by
  unfold dropPrevious
  simp only [Prog.bind_eq]
  refine Does.pathExists trivial (Does.pathExists trivial ?_)
  split
  · refine Exec.seq readCatalogFile_reads ?_ fun _ _ h => h
    rintro _ _ ⟨rfl, -⟩
    refine removeIfExists_gone.mono (fun _ h => h) ?_ fun _ _ h => h
    rintro _ _ rfl
    exact ⟨by simp, by simp, by simp, fun id => .inl (by simp)⟩
  · rename_i h
    exact Exec.pure ⟨fun hs => by simpa [hs] using h, rfl, rfl, .refl _⟩

theorem recoverAtomicState_leaves :
    Does E uuids may anyBooks (recoverAtomicState root) v
      (fun _ w => w.entry .pending = none ∧ w.entry .previous = none ∧
        Fewer v.entry w.entry) fun _ _ => True := by
  unfold recoverAtomicState
  simp only [Prog.bind_eq]
  refine Exec.seq restorePrevious_leaves ?_ fun _ _ h => h
  rintro _ w₁ ⟨hprevious, hfewer⟩
  refine Exec.seq quarantinePending_leaves ?_ fun _ _ h => h
  rintro _ w₂ ⟨hpending, hstate₂, hprevious₂, hfewer₂⟩
  refine Exec.seq dropPrevious_leaves ?_ fun _ _ h => h
  rintro _ w₃ ⟨hdropped, hstate₃, hpending₃, hfewer₃⟩
  unfold requireState
  simp only [Prog.bind_eq]
  refine Does.pathExists trivial ?_
  split
  · exact Exec.fail trivial
  · rename_i h
    have hsome : (w₂.entry .serverState).isSome = true := by
      rw [← hstate₃]
      simpa [Option.isSome_iff_ne_none] using h
    exact Exec.pure ⟨hpending₃.trans hpending, hdropped hsome,
      (hfewer.trans hfewer₂).trans hfewer₃⟩

-- ---------------------------------------------------------------------------
-- Any journal
-- ---------------------------------------------------------------------------

/-- `isFile` answers without a change, and `true` only for a file in a directory. -/
theorem isFile_looks {k : Bool → Prog daemon ε β} {Q : β → Books → Prop} {F : ε → Books → Prop}
    {C : Books → Prop} (hc : C v)
    (h : ∀ r, (r = true → Stored v.entry id) → Does E uuids may C (k r) v Q F) :
    Does E uuids may C
      ((inside id (.call (S := storage) (.file (.isFile .database)))).bind k) v Q F := by
  by_cases hd : ∃ files, v.entry (.database id) = some (.directory files)
  · obtain ⟨files, hd⟩ := hd
    refine Does.isFile hc hd (h _ fun hr => ?_)
    obtain ⟨content, hcontent⟩ := Option.isSome_iff_exists.mp hr
    obtain ⟨n, hn, hbytes⟩ := Option.bind_eq_some_iff.mp hcontent
    cases n with
    | file bytes => exact ⟨files, bytes, hd, hn⟩
    | directory => cases hbytes
  · refine Does.plain rfl hc ?_
    rintro d b rfl o - ans t hs
    have hdir : d.hasDirectory (.database id) = false := by
      rw [← Bool.not_eq_true, Daemon.hasDirectory_iff]
      exact hd
    have hfiles : d.filesOf id = .empty := by
      unfold Daemon.filesOf
      split
      · rename_i files hf
        exact absurd ⟨files, hf⟩ hd
      · rfl
    have hback : Books.of (d.putSite id (d.site id)) b = Books.of d b := by
      simp [Daemon.putSite, hdir, Daemon.setHandle, Daemon.site, Books.of]
    have hans : ans = false := by
      cases Option.some.inj hs
      change (((d.site id).files .database).bind FileLike.bytes?).isSome = false
      rw [Daemon.site, hfiles]
      rfl
    have ht : t = d.putSite id (d.site id) := by
      cases Option.some.inj hs
      rfl
    rw [ht, hback, hans]
    exact h false fun hr => by cases hr

theorem completeOperation_leaves {journal : OperationJournal} :
    Does E uuids may anyBooks (completeOperation journal) v
      (fun _ w => SameCatalog v.entry w.entry ∧ Fewer v.entry w.entry) fun _ _ => True := by
  unfold completeOperation
  cases journal.kind with
  | create =>
    simp only [Prog.bind_eq]
    refine isFile_looks trivial fun r _ => ?_
    split
    · exact Exec.fail trivial
    · exact Exec.pure ⟨⟨rfl, rfl, rfl⟩, .refl _⟩
  | rename => exact Exec.pure ⟨⟨rfl, rfl, rfl⟩, .refl _⟩
  | drop =>
    simp only [Prog.bind_eq]
    refine Does.pathExists trivial ?_
    split
    · refine Does.pathExists trivial ?_
      split
      · exact Exec.fail trivial
      · refine Does.rename (by simp) trivial ?_ fun _ _ _ _ => Exec.fail trivial
        intro n _ _
        refine Exec.pure ⟨⟨by simp, by simp, by simp⟩, fun id => ?_⟩
        by_cases hne : id = journal.databaseId
        · exact .inr (by simp [hne])
        · exact .inl (by simp [hne])
    · exact Exec.pure ⟨⟨rfl, rfl, rfl⟩, .refl _⟩

theorem clearOperation_leaves :
    Does E uuids may anyBooks (removeIfExists root .operation) v
      (fun _ w => w.entry .operation = none ∧ SameCatalog v.entry w.entry ∧
        Fewer v.entry w.entry) fun _ _ => True := by
  refine removeIfExists_gone.mono (fun _ h => h) ?_ fun _ _ h => h
  rintro _ _ rfl
  exact ⟨by simp, ⟨by simp, by simp, by simp⟩, fun id => .inl (by simp)⟩

theorem recoverOperation_leaves :
    Does E uuids may anyBooks (recoverOperation root c) v
      (fun _ w => w.entry .operation = none ∧ SameCatalog v.entry w.entry ∧
        Fewer v.entry w.entry) fun _ _ => True := by
  unfold recoverOperation
  simp only [Prog.bind_eq]
  refine Does.pathExists trivial ?_
  split
  · refine Does.read trivial ?_ fun _ _ => Exec.fail trivial
    intro bytes _
    dsimp only
    split
    · exact Exec.fail trivial
    · split
      · exact Exec.fail trivial
      · split
        · exact clearOperation_leaves
        · split
          · exact Exec.fail trivial
          · refine Exec.seq completeOperation_leaves ?_ fun _ _ h => h
            rintro _ w ⟨hsame, hfewer⟩
            refine clearOperation_leaves.mono (fun _ h => h) ?_ fun _ _ h => h
            rintro _ w' ⟨hgone, hsame', hfewer'⟩
            exact ⟨hgone, ⟨hsame'.state.trans hsame.state, hsame'.pending.trans hsame.pending,
              hsame'.previous.trans hsame.previous⟩, hfewer.trans hfewer'⟩
  · rename_i h
    exact Exec.pure ⟨by simpa using h, ⟨rfl, rfl, rfl⟩, .refl _⟩

-- ---------------------------------------------------------------------------
-- Any storage
-- ---------------------------------------------------------------------------

theorem validateStorage_leaves (databases : List CatalogDatabase) :
    Does E uuids may anyBooks (validateStorage databases) v
      (fun _ w => w = v ∧ ∀ database ∈ databases, Stored v.entry database.id) fun _ _ => True := by
  induction databases with
  | nil => exact Exec.pure ⟨rfl, by simp⟩
  | cons database rest ih =>
    unfold validateStorage
    simp only [Prog.bind_eq]
    refine Does.directoryExists trivial (isFile_looks trivial fun r hr => ?_)
    split
    · exact Exec.fail trivial
    · rename_i h
      simp only [Bool.or_eq_true, Bool.not_eq_true', not_or, Bool.not_eq_false] at h
      refine ih.mono (fun _ h => h) ?_ fun _ _ h => h
      rintro _ w ⟨rfl, hrest⟩
      exact ⟨rfl, List.forall_mem_cons.mpr ⟨hr h.2, hrest⟩⟩

theorem quarantineOrphans_leaves {known : List String} (names : List String) :
    Does E uuids may anyBooks (quarantineOrphans known names) v
      (fun _ w => (∀ id ∈ names, id ∉ known → w.entry (.database id) = none) ∧
        (∀ id ∈ known, w.entry (.database id) = v.entry (.database id)) ∧
        Fewer v.entry w.entry ∧ SameCatalog v.entry w.entry ∧
        w.entry .operation = v.entry .operation) fun _ _ => True := by
  induction names generalizing v with
  | nil => exact Exec.pure ⟨by simp, fun _ _ => rfl, .refl _, ⟨rfl, rfl, rfl⟩, rfl⟩
  | cons name rest ih =>
    unfold quarantineOrphans
    split
    · rename_i hknown
      refine ih.mono (fun _ h => h) ?_ fun _ _ h => h
      rintro _ w ⟨hgone, hrest⟩
      refine ⟨List.forall_mem_cons.mpr ⟨fun h => absurd hknown h, hgone⟩, hrest⟩
    · rename_i hknown
      simp only [Prog.bind_eq]
      refine Does.pathExists trivial ?_
      split
      · exact Exec.fail trivial
      · refine Does.rename (by simp [orphan]) trivial ?_ fun _ _ _ _ => Exec.fail trivial
        intro n _ _
        refine ih.mono (fun _ h => h) ?_ fun _ _ h => h
        rintro _ w ⟨hgone, hkept, hfewer, hsame, hoperation⟩
        have hmoved : Fewer v.entry (v.move (.database name) (orphan name) n).entry := by
          intro id
          by_cases hne : id = name
          · exact .inr (by simp [orphan, hne])
          · exact .inl (by simp [orphan, hne])
        refine ⟨List.forall_mem_cons.mpr ⟨fun _ => ?_, hgone⟩, fun id hid => ?_,
          hmoved.trans hfewer, ⟨?_, ?_, ?_⟩, ?_⟩
        · rcases hfewer name with h | h
          · exact h.trans (by simp [orphan])
          · exact h
        · have hne : id ≠ name := by
            rintro rfl
            exact hknown hid
          exact (hkept id hid).trans (by simp [orphan, hne])
        · exact hsame.state.trans (by simp [orphan])
        · exact hsame.pending.trans (by simp [orphan])
        · exact hsame.previous.trans (by simp [orphan])
        · exact hoperation.trans (by simp [orphan])

/-- From any entries at all: what a load that succeeds leaves. -/
theorem load_leaves (hm : ¬ Faulty may) (htidy : ∀ id, Tidy v.entry id) :
    Does E uuids may anyBooks (load root) v
      (fun catalog w => Recovered root catalog w.entry ∧ Fewer v.entry w.entry)
      fun _ _ => True := by
  unfold load
  simp only [Prog.bind_eq]
  refine Exec.seq recoverAtomicState_leaves ?_ fun _ _ h => h
  rintro _ w₁ ⟨hpending, hprevious, hfewer₁⟩
  refine Exec.seq readCatalogFile_reads ?_ fun _ _ h => h
  rintro catalog _ ⟨rfl, hstate⟩
  cases hvalid : validateCatalog catalog with
  | error e => exact Exec.fail trivial
  | ok _ =>
    rw [Prog.ofExcept_ok, Prog.bind_pure]
    refine Exec.seq recoverOperation_leaves ?_ fun _ _ h => h
    rintro _ w₂ ⟨hoperation, hsame₂, hfewer₂⟩
    refine Exec.seq (validateStorage_leaves _) ?_ fun _ _ h => h
    rintro _ _ ⟨rfl, hstored⟩
    unfold recoverOrphans
    simp only [Prog.bind_eq]
    refine Exec.bind (Does.readDatabases_ok hm trivial fun names _ hmem => ?_)
    refine (quarantineOrphans_leaves names).mono (fun _ h => h) ?_ fun _ _ h => h
    rintro _ w ⟨hgone, hkept, hfewer, hsame, hop⟩
    have hall := (hfewer₁.trans hfewer₂).trans hfewer
    refine Exec.pure ⟨⟨?_, hvalid, ?_, ?_, hop.trans hoperation, ?_, ?_, ?_⟩, hall⟩
    · rwa [hsame.state, hsame₂.state]
    · rw [hsame.pending, hsame₂.pending, hpending]
    · rw [hsame.previous, hsame₂.previous, hprevious]
    · intro id hid
      obtain ⟨database, hd, rfl⟩ := List.mem_map.mp hid
      obtain ⟨files, content, hf, hc⟩ := hstored database hd
      exact ⟨files, content, (hkept _ hid).trans hf, hc⟩
    · intro id hsome
      by_contra hid
      have hnone : w.entry (.database id) = none := by
        rcases hfewer id with h | h
        · rw [h] at hsome
          exact hgone id ((hmem id).mpr hsome) hid
        · exact h
      rw [hnone] at hsome
      cases hsome
    · intro id
      exact hall.tidy (htidy id)

theorem recoverAndLoad_leaves (hm : ¬ Faulty may) :
    Does E uuids may anyBooks (recoverAndLoad root) v
      (fun catalog w => Recovered root catalog w.entry) fun _ _ => True := by
  refine Exec.seq (recoverSnapshotOperations_leaves hm) ?_ fun _ _ h => h
  intro _ w hw
  exact (load_leaves hm hw).mono (fun _ h => h) (fun _ _ h => h.1) fun _ _ h => h

-- ---------------------------------------------------------------------------
-- The second start
-- ---------------------------------------------------------------------------

theorem recoverEntries_looks (h : ∀ id, Tidy v.entry id) (names : List String)
    {F : ServerError → Books → Prop} :
    Does E uuids may anyBooks (recoverEntries root names) v (fun _ w => w = v) F := by
  induction names with
  | nil => exact Exec.pure rfl
  | cons name rest ih =>
    unfold recoverEntries
    simp only [Prog.bind_eq]
    refine Does.directoryExists trivial ?_
    by_cases hd : ∃ files, v.entry (.database name) = some (.directory files)
    · obtain ⟨files, hd⟩ := hd
      simp only [Books.hasDirectory, hd, ↓reduceIte]
      refine Exec.bind (Does.inside hd ?_)
      refine (recoverDirectory_looks (h name files hd) trivial).mono (fun _ h => h) ?_
        fun _ _ h => h
      rintro _ _ rfl
      rw [Books.withSite_site hd]
      exact ih
    · have hdir : v.hasDirectory (.database name) = false := by
        unfold Books.hasDirectory
        split
        · rename_i files hf
          exact absurd ⟨files, hf⟩ hd
        · rfl
      simp only [hdir, Bool.false_eq_true, ↓reduceIte]
      exact ih

theorem quarantineOrphans_looks {known : List String} (names : List String)
    (h : ∀ name ∈ names, name ∈ known) {F : ServerError → Books → Prop} :
    Does E uuids may anyBooks (quarantineOrphans known names) v (fun _ w => w = v) F := by
  induction names with
  | nil => exact Exec.pure rfl
  | cons name rest ih =>
    obtain ⟨hname, hrest⟩ := List.forall_mem_cons.mp h
    unfold quarantineOrphans
    rw [if_pos hname]
    exact ih hrest

theorem recoverAtomicState_looks (h : Recovered root c v.entry) {F : ServerError → Books → Prop} :
    Does E uuids may anyBooks (recoverAtomicState root) v (fun _ w => w = v) F := by
  obtain ⟨bytes, hstate, -⟩ := h.state
  unfold recoverAtomicState restorePrevious quarantinePending dropPrevious requireState
  simp only [Prog.bind_eq, Prog.bind_assoc]
  refine Does.pathExists trivial (Does.pathExists trivial ?_)
  simp only [hstate, h.previous, Option.isSome_some, Option.isSome_none, Bool.and_false,
    Bool.false_eq_true, ↓reduceIte]
  refine Does.pathExists trivial ?_
  simp only [h.pending, Option.isSome_none, Bool.false_eq_true, ↓reduceIte]
  refine Does.pathExists trivial (Does.pathExists trivial ?_)
  simp only [h.previous, Option.isSome_none, Bool.and_false, Bool.false_eq_true, ↓reduceIte]
  refine Does.pathExists trivial ?_
  simp only [hstate, Option.isSome_some, Bool.not_true, Bool.false_eq_true, ↓reduceIte]
  exact Exec.pure rfl

theorem load_looks (hm : ¬ Faulty may) (h : Recovered root c v.entry) :
    Does E uuids may anyBooks (load root) v (fun catalog w => catalog = c ∧ w = v)
      fun _ _ => False := by
  obtain ⟨bytes, hstate, hdecode⟩ := h.state
  unfold load
  simp only [Prog.bind_eq]
  refine Exec.seq (recoverAtomicState_looks h) ?_ fun _ _ hf => hf
  rintro _ _ rfl
  unfold readCatalogFile
  simp only [Prog.bind_eq, Prog.bind_assoc]
  refine Does.read_ok hm trivial hstate ?_
  simp only [hdecode, h.valid, Prog.ofExcept_ok, Prog.pure_eq, Prog.bind_pure]
  unfold recoverOperation
  simp only [Prog.bind_eq, Prog.bind_assoc]
  refine Does.pathExists trivial ?_
  simp only [h.operation, Option.isSome_none, Bool.false_eq_true, ↓reduceIte, Prog.pure_eq,
    Prog.bind_pure]
  refine Exec.seq (validateStorage_does trivial _ fun d hd => ?_) ?_ fun _ _ hf => hf
  · exact h.stored _ (List.mem_map_of_mem hd)
  · rintro _ _ rfl
    unfold recoverOrphans
    simp only [Prog.bind_eq]
    refine Exec.bind (Does.readDatabases_ok hm trivial fun names _ hmem => ?_)
    refine (quarantineOrphans_looks names fun name hn => h.known name ((hmem name).mp hn)).mono
      (fun _ h => h) ?_ fun _ _ hf => hf
    rintro _ _ rfl
    exact Exec.pure ⟨rfl, rfl⟩

/-- What a recovery left is what a second one finds: it changes nothing. -/
theorem recoverAndLoad_looks (hm : ¬ Faulty may) (h : Recovered root c v.entry) :
    Does E uuids may anyBooks (recoverAndLoad root) v (fun catalog w => catalog = c ∧ w = v)
      fun _ _ => False := by
  unfold recoverAndLoad recoverSnapshotOperations
  simp only [Prog.bind_eq, Prog.bind_assoc]
  refine Does.readDatabases_ok hm trivial fun names _ _ => ?_
  refine Exec.seq (recoverEntries_looks h.tidy names) ?_ fun _ _ hf => hf
  rintro _ _ rfl
  exact load_looks hm h

theorem recoverAndLoad_only : (recoverAndLoad root).Only DaemonOp.Recovers :=
  recoverSnapshotOperations_only.bind fun _ => load_only

/-- On every data directory: a recovery that succeeds can be repeated, by the
same process or by the next one, with the same catalog and without a change. It
leaves nothing of an interrupted operation and no storage but the catalog's. -/
theorem recovery_idempotent (E : Engine) (uuids : Nat → String) (root : DataDirectory)
    (d d₁ : Daemon) (catalog : Catalog)
    (h : (daemonWorld E uuids).eval .ok (recoverAndLoad root) d = some (.ok catalog, d₁)) :
    (∀ d', d'.disk = d₁.disk → ∃ d₂,
      (daemonWorld E uuids).eval .ok (recoverAndLoad root) d' = some (.ok catalog, d₂) ∧
        ∀ p, d₂.entry p = d₁.entry p) ∧
    d₁.entry .operation = none ∧ d₁.entry .pending = none ∧ d₁.entry .previous = none ∧
    (∀ id files, d₁.entry (.database id) = some (.directory files) →
      files .restoreCandidate = none ∧ files .restoreBackup = none ∧
        files .restoreOperation = none) ∧
    d₁.listing.Nodup ∧ ∀ id, id ∈ d₁.listing ↔ id ∈ catalog.ids := by
  obtain ⟨l, hl⟩ := World.eval_logged h []
  have hdone : Recovered root catalog d₁.entry :=
    (recoverAndLoad_leaves not_faulty_ok).eval (s := (d, [])) rfl (fun _ => rfl) hl
  refine ⟨fun d' hd' => ?_, hdone.operation, hdone.pending, hdone.previous, hdone.tidy,
    d₁.listing_nodup, fun id => ?_⟩
  · have hentry : d'.entry = d₁.entry := by
      unfold Daemon.entry
      rw [hd']
    have honly : (recoverAndLoad root).Only DaemonOp.Free :=
      recoverAndLoad_only.mono fun _ ho => ho.free
    obtain ⟨r, d₂, he⟩ := World.eval_isSome (W := daemonWorld E uuids)
      (fun o s ho => ho.isSome .ok s) honly d'
    obtain ⟨l', hl'⟩ := World.eval_logged he []
    have hdone' : Recovered root catalog (books (d', [])).entry := by
      change Recovered root catalog d'.entry
      rwa [hentry]
    have hpost := (recoverAndLoad_looks not_faulty_ok hdone').eval (s := (d', [])) rfl
      (fun _ => rfl) hl'
    cases r with
    | error e => exact hpost.elim
    | ok catalog' =>
      obtain ⟨rfl, hbooks⟩ := hpost
      refine ⟨d₂, he, fun p => ?_⟩
      exact (congrArg (Books.entry · p) hbooks).trans (congrFun hentry p)
  · rw [Daemon.mem_listing]
    refine ⟨hdone.known id, fun hid => ?_⟩
    obtain ⟨files, content, hf, -⟩ := hdone.stored id hid
    rw [hf]
    rfl

end

def alpha : CatalogDatabase := ⟨"00000000-0000-4000-8000-000000000001", "alpha", "ready"⟩

/-- The Database `alpha` after a restore that was stopped between its renames,
and a drop of it that was stopped before its commit; and an orphan. -/
def Daemon.leftovers (root : DataDirectory) : Daemon where
  disk := ((((∅ : Disk).insert .previous
      (.file (root.catalog.encode ⟨CATALOG_VERSION, [alpha]⟩))).insert .operation
      (.file (root.operation.encode
        ⟨OPERATION_VERSION, .drop, alpha.id, ⟨CATALOG_VERSION, [alpha]⟩, ⟨CATALOG_VERSION, []⟩⟩))).insert
      (.database alpha.id) (.directory fun
        | .restoreBackup => some (.file [1])
        | .restoreOperation => some (restoreJournal root.restore alpha.id)
        | _ => none)).insert
      (.database "orphan") (.directory .empty)
  memory := idle
  issued := 0

theorem recovery_idempotent_leftovers :
    let root := DataDirectory.plain "data"
    ∃ d₁, (daemonWorld .plain fun _ => "").eval .ok (recoverAndLoad root)
        (Daemon.leftovers root) = some (.ok ⟨CATALOG_VERSION, [alpha]⟩, d₁) ∧
      (∀ d', d'.disk = d₁.disk → ∃ d₂,
        (daemonWorld .plain fun _ => "").eval .ok (recoverAndLoad root) d' =
          some (.ok ⟨CATALOG_VERSION, [alpha]⟩, d₂) ∧ ∀ p, d₂.entry p = d₁.entry p) ∧
      ∀ id, id ∈ d₁.listing ↔ id = alpha.id := by
  intro root
  have hend : ((daemonWorld .plain fun _ => "").eval .ok (recoverAndLoad root)
      (Daemon.leftovers root)).map (·.1) = some (.ok ⟨CATALOG_VERSION, [alpha]⟩) := by
    decide +kernel
  obtain ⟨⟨r, d₁⟩, he, hr⟩ := Option.map_eq_some_iff.mp hend
  subst hr
  have h := recovery_idempotent .plain (fun _ => "") root _ d₁ _ he
  exact ⟨d₁, he, h.1, fun id => (h.2.2.2.2.2.2 id).trans (by simp [Catalog.ids])⟩

end NostdbServer
