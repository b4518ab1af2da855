import NostdbServer.Daemon.Idempotence

/-!
# Opening the daemon

`DatabaseDaemon::open`, and what a start that succeeds leaves in `databases/`,
file by file: restore recovery takes the lock files of a candidate and of a
backup away only where it has something else to clear.
-/

namespace NostdbServer

open Effects World

-- ---------------------------------------------------------------------------
-- The program
-- ---------------------------------------------------------------------------

section
variable (E : Engine) (root : DataDirectory)

/-- The loop over the catalog. What `info` tells depends on the content alone. -/
def openDatabases : List CatalogDatabase → Prog daemon ServerError Unit
  | [] => pure ()
  | entry :: rest => do
    let name := entry.name
    match ← inside entry.id (.call (S := storage) (.openDatabase .database)) with
    | .error error => .fail ⟨s!"cannot open managed Database `{name}`: {error}"⟩
    | .ok database =>
    match E.sourceEnabled database.content with
    | .error error => .fail ⟨s!"cannot inspect managed Database `{name}`: {error}"⟩
    | .ok true =>
      .fail ⟨s!"managed Database `{name}` still has a human-readable-source synchronization baseline; import it explicitly"⟩
    | .ok false =>
      Prog.call (S := daemon) (.newHandle entry.id database)
      Prog.call (S := daemon) (.insertHandle (root.managed entry.id))
      openDatabases rest

/-- `DatabaseDaemon::open` of the directory whose lock it holds. The credentials
are read from files of their own. -/
def openDaemon (credentials : Except ServerError Unit) : Prog daemon ServerError Catalog := do
  recoverSnapshotOperations root
  Prog.ofExcept credentials
  let catalog ← load root
  Prog.call (S := daemon) (.writeCatalog catalog)
  openDatabases E root catalog.databases
  pure catalog

end

section
variable {E : Engine} {root : DataDirectory}

theorem openDatabases_only (databases : List CatalogDatabase) :
    (openDatabases E root databases).Only DaemonOp.Recovers := by
  induction databases with
  | nil => trivial
  | cons entry rest ih =>
    refine Prog.Only.step trivial ?_
    rintro (_ | database)
    · trivial
    · dsimp only
      split
      · trivial
      · trivial
      · exact Prog.Only.step trivial fun _ => Prog.Only.step trivial fun _ => ih

theorem openDaemon_only {credentials : Except ServerError Unit} :
    (openDaemon E root credentials).Only DaemonOp.Recovers := by
  refine recoverSnapshotOperations_only.bind fun _ => Prog.Only.bind ?_ fun _ =>
    load_only.bind fun catalog => Prog.Only.step trivial fun _ =>
      (openDatabases_only _).bind fun _ => trivial
  cases credentials <;> trivial

end

-- ---------------------------------------------------------------------------
-- Lock files of a restore
-- ---------------------------------------------------------------------------

/-- A lock file that is not the Database's. -/
def DbFile.stray : DbFile → Bool
  | .sidecar f => f ≠ .database
  | _ => false

/-- What a removal leaves. -/
def unlinked : Option Node → Option Node
  | some .directory => some .directory
  | _ => none

/-- Restore recovery takes this lock file away: there is a journal, or for the
candidate's the candidate itself. -/
def DbFiles.Clears (files : DbFiles) (x : DbFile) : Prop :=
  x = .sidecar .restoreCandidate ∧
      ((files .restoreOperation).isSome = true ∨ (files .restoreCandidate).isSome = true) ∨
    x = .sidecar .restoreBackup ∧ (files .restoreOperation).isSome = true

instance (files : DbFiles) (x : DbFile) : Decidable (files.Clears x) :=
  inferInstanceAs (Decidable (_ ∨ _))

/-- What restore recovery leaves of a lock file. -/
def swept (files : DbFiles) (x : DbFile) : Option Node :=
  if files.Clears x then unlinked (files x) else files x

/-- Steps of recovery that touch no lock file but the Database's. -/
def StorageOp.Spares : StorageOp → Prop
  | .file (.pathExists _) | .file (.read _) | .file .sync | .checkDatabase _ => True
  | .file (.remove f) => f.stray = false
  | .file (.rename f g) => f ≠ g ∧ f.stray = false ∧ g.stray = false
  | .openDatabase f => f = .database
  | _ => False

section
variable {E : Engine} {may : Outcome → Prop} {handle : ManagedDatabase} {s t : Site} {f x : DbFile}

theorem setFile_self {n : Option Node} (h : s.files f = n) : s.setFile f n = s := by
  subst h
  unfold Site.setFile
  rw [Function.update_eq_self]

theorem setFile_stray {n : Option Node} (hf : f.stray = false) (hx : x.stray = true) :
    (s.setFile f n).files x = s.files x := by
  have hne : x ≠ f := by
    rintro rfl
    cases hf.symm.trans hx
  simp [Site.setFile, hne]

theorem leaveLockFile_stray (hx : x.stray = true) :
    (s.leaveLockFile E .database).files x = s.files x := by
  unfold Site.leaveLockFile
  split
  · rfl
  · exact setFile_stray rfl hx

theorem StorageOp.Spares.files {o : StorageOp} {ans : o.Ans} (ho : o.Spares)
    (h : Site.step E o c s = some (ans, t)) (hx : x.stray = true) : t.files x = s.files x := by
  match o, ho with
  | .file (.pathExists _), _ =>
    cases Option.some.inj h
    rfl
  | .file (.read _), _ => rw [(Volume.read_cases (Option.some.inj h)).1]
  | .file .sync, _ => rw [(Volume.sync_cases (Option.some.inj h)).1]
  | .file (.remove f), ho =>
    obtain ⟨e, -, rfl, -⟩ | ⟨-, -, -, rfl⟩ := Volume.remove_cases (Option.some.inj h)
    · rfl
    · exact setFile_stray ho hx
  | .file (.rename f g), ⟨hne, hf, hg⟩ =>
    obtain ⟨e, -, rfl, -⟩ | ⟨-, n, -, -, -, rfl⟩ := Volume.rename_cases hne (Option.some.inj h)
    · rfl
    · exact (setFile_stray hg hx).trans (setFile_stray hf hx)
  | .openDatabase f, ho =>
    subst ho
    obtain ⟨m, -, rfl, -⟩ | ⟨-, b, a, -, hact, -⟩ := Site.engineStep_cases (Option.some.inj h)
    · rfl
    · obtain ⟨_, -, hr⟩ := map_ok.mp hact
      cases hr
      exact leaveLockFile_stray hx
  | .checkDatabase f, _ =>
    obtain ⟨m, -, rfl, -⟩ | ⟨-, b, a, -, hact, -⟩ := Site.engineStep_cases (Option.some.inj h)
    · rfl
    · obtain ⟨_, -, hr⟩ := map_ok.mp hact
      cases hr
      rfl

abbrev anySite : Site → Prop := fun _ => True

/-- The lock files beside the Database's are as they were. -/
def Spared (s t : Site) : Prop := ∀ x : DbFile, x.stray = true → t.files x = s.files x

theorem Spared.trans {u : Site} (h : Spared s t) (h' : Spared t u) : Spared s u :=
  fun x hx => (h' x hx).trans (h x hx)

theorem wp_spared {p : Prog storage ε α} (hp : p.Only StorageOp.Spares) :
    (storageSetting E may).Wp anySite p s (fun _ => Spared s) (fun _ _ => True) := by
  refine (Setting.Wp.of_only (P := StorageOp.Spares) (I := Spared s) ?_ ?_ hp
    fun _ _ => rfl).mono (fun _ _ => trivial) (fun _ _ h => h) fun _ _ _ => trivial
  · rintro u _ h rfl
    exact h
  · intro o c u ans t ho _ hs h
    exact ⟨trivial, fun x hx => (ho.files hs hx).trans (h x hx)⟩

-- ---------------------------------------------------------------------------
-- Which programs spare them
-- ---------------------------------------------------------------------------

theorem syncRestoreDirectory_spares : (syncRestoreDirectory handle).Only StorageOp.Spares := by
  refine Prog.Only.step trivial ?_
  rintro (_ | _) <;> trivial

theorem validateRecoveredSnapshot_spares :
    (validateRecoveredSnapshot handle .database).Only StorageOp.Spares := by
  refine Prog.Only.step rfl ?_
  rintro (_ | _)
  · trivial
  · refine Prog.Only.step trivial ?_
    rintro (_ | _ | _) <;> trivial

theorem recoverOrAcceptInstalledSnapshot_spares :
    (recoverOrAcceptInstalledSnapshot handle).Only StorageOp.Spares := by
  refine validateRecoveredSnapshot_spares.attempt.bind ?_
  rintro (_ | _)
  · refine Prog.Only.step rfl ?_
    rintro (_ | _)
    · trivial
    · refine Prog.Only.bind (Prog.Only.step rfl fun _ => trivial) fun _ =>
        syncRestoreDirectory_spares.bind fun _ => ?_
      refine Prog.Only.step ⟨by decide, rfl, rfl⟩ ?_
      rintro (_ | _)
      · trivial
      · exact syncRestoreDirectory_spares.bind fun _ => validateRecoveredSnapshot_spares.mapError
  · trivial

theorem readRestoreJournal_spares {K : Codec RestoreJournal} :
    (readRestoreJournal K).Only StorageOp.Spares := by
  refine Prog.Only.step trivial ?_
  rintro (_ | bytes)
  · trivial
  · dsimp only
    split <;> trivial

-- ---------------------------------------------------------------------------
-- Removing a file with its lock file
-- ---------------------------------------------------------------------------

theorem unlinked_unlinked (n : Option Node) : unlinked (unlinked n) = unlinked n := by
  rcases n with _ | _ | _ <;> rfl

theorem site_remove {C : Site → Prop} {k : Except IoError Unit → Prog storage ε α}
    {Q : α → Site → Prop} {F : ε → Site → Prop} (hm : ¬ Faulty may) (hc : C s)
    (h : ∀ r, (storageSetting E may).Wp C (k r) (s.setFile f (unlinked (s.files f))) Q F) :
    (storageSetting E may).Wp C ((StorageOp.remove f).bind k) s Q F := by
  rintro _ rfl
  refine ⟨hc, fun c hmc ans t hs => ⟨trivial, ?_⟩⟩
  obtain ⟨e, rfl, rfl, he | ⟨-, ⟨hn, rfl⟩ | ⟨n, hn, hb, rfl⟩⟩⟩ | ⟨-, ⟨n, b, hn, hb⟩, rfl, rfl⟩ :=
    Volume.remove_cases (Option.some.inj hs)
  · exact absurd (injected_of_error? hmc he).faulty hm
  · have hn : t.files f = none := hn
    rw [← setFile_self (s := t) (f := f) (n := unlinked (t.files f)) (by rw [hn]; rfl)]
    exact h _
  · have hn : t.files f = some n := hn
    cases n with
    | file b => cases hb
    | directory =>
      rw [← setFile_self (s := t) (f := f) (n := unlinked (t.files f)) (by rw [hn]; rfl)]
      exact h _
  · have hn : s.files f = some n := hn
    cases n with
    | directory => cases hb
    | file b =>
      have hr := h (.ok ())
      rw [hn] at hr
      exact hr

theorem removeSidecar_unlinks (hm : ¬ Faulty may) :
    (storageSetting E may).Wp anySite (removeSidecar f : Prog storage ε Unit) s
      (fun _ t => t = s.setFile (.sidecar f) (unlinked (s.files (.sidecar f))))
      fun _ _ => True := by
  refine site_remove hm trivial fun r => ?_
  rintro _ rfl
  rfl

theorem removeFileAndSidecar_unlinks (hm : ¬ Faulty may) :
    (storageSetting E may).Wp anySite (removeFileAndSidecar f) s
      (fun _ t => t = (s.setFile f (unlinked (s.files f))).setFile (.sidecar f)
        (unlinked (s.files (.sidecar f)))) fun _ _ => True := by
  have hne : DbFile.sidecar f ≠ f := by
    intro h
    have := congrArg sizeOf h
    simp at this
  have hsidecar : ∀ n, (s.setFile f n).files (.sidecar f) = s.files (.sidecar f) := by
    intro n
    simp [Site.setFile, hne]
  unfold removeFileAndSidecar
  simp only [Prog.bind_eq]
  refine site_pathExists trivial ?_
  split
  · refine site_remove hm trivial fun r => ?_
    rcases r with error | _
    · exact fun _ _ => trivial
    · refine (removeSidecar_unlinks hm).mono (fun _ h => h) ?_ fun _ _ h => h
      rintro _ _ rfl
      rw [hsidecar]
  · rename_i hnone
    refine (removeSidecar_unlinks hm).mono (fun _ h => h) ?_ fun _ _ h => h
    rintro _ _ rfl
    have hn : s.files f = none := by simpa using hnone
    rw [setFile_self (s := s) (f := f) (by rw [hn]; rfl)]

/-- Only its own lock file goes with a file. -/
theorem unlinked_stray (hf : f.stray = false) (hx : x.stray = true) {n : Option Node} :
    ((s.setFile f n).setFile (.sidecar f) (unlinked (s.files (.sidecar f)))).files x =
      if x = .sidecar f then unlinked (s.files x) else s.files x := by
  split
  · rename_i hx'
    subst hx'
    simp [Site.setFile]
  · rename_i hx'
    have hx'' : x ≠ f := by
      rintro rfl
      cases hf.symm.trans hx
    simp [Site.setFile, hx', hx'']

theorem syncRestoreDirectory_site :
    (storageSetting E may).Wp anySite (syncRestoreDirectory handle) s (fun _ t => t = s)
      fun _ _ => True := by
  rintro _ rfl
  refine ⟨trivial, fun c _ ans t hs => ⟨trivial, ?_⟩⟩
  obtain ⟨rfl, -⟩ := Volume.sync_cases (Option.some.inj hs)
  rcases ans with _ | _
  · exact fun _ _ => trivial
  · rintro _ rfl
    rfl

theorem site_nothingUnjournaled {C : Site → Prop} {k : Bool → Prog storage ε α}
    {Q : α → Site → Prop} {F : ε → Site → Prop} (hc : C s)
    (h : (storageSetting E may).Wp C (k ((s.files .restoreOperation).isSome ||
      (s.files .restoreCandidate).isNone && (s.files .restoreBackup).isNone)) s Q F) :
    (storageSetting E may).Wp C (nothingUnjournaled.bind k) s Q F := by
  unfold nothingUnjournaled
  simp only [Prog.bind_eq, Prog.pure_eq, Prog.bind_assoc]
  refine site_pathExists hc ?_
  cases ho : s.files .restoreOperation with
  | some n => simpa [ho] using h
  | none =>
    simp only [Option.isSome_none, Bool.false_eq_true, ↓reduceIte, Prog.bind_assoc]
    refine site_pathExists hc ?_
    cases hcandidate : s.files .restoreCandidate with
    | some n => simpa [ho, hcandidate] using h
    | none =>
      simp only [Option.isSome_none, Bool.false_eq_true, ↓reduceIte, Prog.bind_assoc]
      refine site_pathExists hc ?_
      cases hbackup : s.files .restoreBackup <;> simpa [ho, hcandidate, hbackup] using h

theorem site_onlyCandidateLeft {C : Site → Prop} {k : Bool → Prog storage ε α}
    {Q : α → Site → Prop} {F : ε → Site → Prop} (hc : C s)
    (h : ∀ r, (r = true → (s.files .restoreCandidate).isSome = true) →
      (storageSetting E may).Wp C (k r) s Q F) :
    (storageSetting E may).Wp C (onlyCandidateLeft.bind k) s Q F := by
  unfold onlyCandidateLeft
  simp only [Prog.bind_eq, Prog.pure_eq, Prog.bind_assoc]
  refine site_pathExists hc ?_
  split
  · simp only [Prog.bind_assoc]
    refine site_pathExists hc ?_
    split
    · rename_i hcandidate
      exact site_pathExists hc (h _ fun _ => hcandidate)
    · exact h false nofun
  · exact h false nofun

/-- Lock files beside the Database's are as recovery leaves them. -/
def Swept (files files' : DbFiles) : Prop := ∀ x, x.stray = true → files' x = swept files x

theorem settleRestoreFiles_sweeps (hm : ¬ Faulty may) :
    (storageSetting E may).Wp anySite (settleRestoreFiles handle) s
      (fun _ t => ∀ x : DbFile, x.stray = true → t.files x = s.files x ∨
        x = .sidecar .restoreCandidate ∧ t.files x = unlinked (s.files x))
      fun _ _ => True := by
  have hspared : ∀ {p : Prog storage ServerError Unit}, p.Only StorageOp.Spares →
      (storageSetting E may).Wp anySite p s
        (fun _ t => ∀ x : DbFile, x.stray = true → t.files x = s.files x ∨
          x = .sidecar .restoreCandidate ∧ t.files x = unlinked (s.files x))
        fun _ _ => True := fun hp =>
    (wp_spared hp).mono (fun _ h => h) (fun _ _ h x hx => .inl (h x hx)) fun _ _ h => h
  unfold settleRestoreFiles
  simp only [Prog.bind_eq]
  refine site_pathExists trivial (site_pathExists trivial (site_pathExists trivial ?_))
  split
  · refine (removeFileAndSidecar_unlinks hm).mono (fun _ h => h) ?_ fun _ _ h => h
    rintro _ _ rfl x hx
    by_cases hne : x = .sidecar .restoreCandidate
    · exact .inr ⟨hne, (unlinked_stray rfl hx).trans (if_pos hne)⟩
    · exact .inl ((unlinked_stray rfl hx).trans (if_neg hne))
  · refine hspared (Prog.Only.step ⟨by decide, rfl, rfl⟩ ?_)
    rintro (_ | _)
    · trivial
    · exact syncRestoreDirectory_spares.bind fun _ => recoverOrAcceptInstalledSnapshot_spares
  · exact hspared recoverOrAcceptInstalledSnapshot_spares
  · exact hspared trivial
  · refine hspared (Prog.Only.step ⟨by decide, rfl, rfl⟩ ?_)
    rintro (_ | _)
    · trivial
    · exact syncRestoreDirectory_spares
  · exact fun _ _ => trivial

theorem clearRestoreFiles_sweeps (hm : ¬ Faulty may) :
    (storageSetting E may).Wp anySite (clearRestoreFiles handle) s
      (fun _ t => ∀ x : DbFile, x.stray = true → t.files x =
        if x = .sidecar .restoreCandidate ∨ x = .sidecar .restoreBackup then unlinked (s.files x)
        else s.files x)
      fun _ _ => True := by
  unfold clearRestoreFiles
  simp only [Prog.bind_eq]
  refine Setting.Wp.bind ((removeFileAndSidecar_unlinks hm).mono (fun _ h => h) ?_
    fun _ _ h => h)
  rintro _ t₁ h₁
  refine Setting.Wp.bind ((removeFileAndSidecar_unlinks hm).mono (fun _ h => h) ?_
    fun _ _ h => h)
  rintro _ t₂ h₂
  refine (wp_spared ?hrest).mono (fun _ h => h) ?_ fun _ _ h => h
  case hrest =>
    refine syncRestoreDirectory_spares.bind fun _ => Prog.Only.step rfl ?_
    rintro (_ | _)
    · trivial
    · exact syncRestoreDirectory_spares
  intro _ t h x hx
  rw [h x hx, h₂, unlinked_stray rfl hx, h₁, unlinked_stray rfl hx]
  by_cases hc : x = .sidecar .restoreCandidate
  · subst hc
    simp
  · simp [hc]

/-- The branch of a directory with a journal. -/
theorem recoverJournaled_sweeps {K : Codec RestoreJournal} (hm : ¬ Faulty may)
    (hop : (s.files .restoreOperation).isSome = true) :
    (storageSetting E may).Wp anySite (recoverDirectory K handle) s
      (fun _ t => Swept s.files t.files) fun _ _ => True := by
  unfold recoverDirectory cleanupUnjournaledRestoreCandidate nothingUnjournaled
  simp only [Prog.bind_eq, Prog.pure_eq, Prog.bind_assoc]
  refine site_pathExists trivial ?_
  simp only [hop, ↓reduceIte, Prog.bind_pure]
  refine site_pathExists trivial ?_
  simp only [hop, ↓reduceIte]
  refine Setting.Wp.bind ((wp_spared readRestoreJournal_spares).mono (fun _ h => h) ?_
    fun _ _ h => h)
  intro journal t₁ h₁
  split
  · exact fun _ _ => trivial
  split
  · exact fun _ _ => trivial
  refine Setting.Wp.bind ((settleRestoreFiles_sweeps hm).mono (fun _ h => h) ?_ fun _ _ h => h)
  intro _ t₂ h₂
  refine (clearRestoreFiles_sweeps hm).mono (fun _ h => h) ?_ fun _ _ h => h
  intro _ t h x hx
  have h₂ := h₂ x hx
  rw [h₁ x hx] at h₂
  have hclears : DbFiles.Clears s.files x ↔
      x = .sidecar .restoreCandidate ∨ x = .sidecar .restoreBackup := by
    simp [DbFiles.Clears, hop]
  rw [h x hx, swept, if_congr hclears rfl rfl]
  rcases h₂ with h₂ | ⟨rfl, h₂⟩
  · rw [h₂]
  · rw [h₂, unlinked_unlinked]
    simp

/-- The branch of a directory without one. -/
theorem recoverUnjournaled_sweeps {K : Codec RestoreJournal} (hm : ¬ Faulty may)
    (hop : s.files .restoreOperation = none) :
    (storageSetting E may).Wp anySite (recoverDirectory K handle) s
      (fun _ t => Swept s.files t.files) fun _ _ => True := by
  -- Without a journal the rest of the recovery has nothing to do.
  have hdone : ∀ t : Site, t.files .restoreOperation = none → Swept s.files t.files →
      (storageSetting E may).Wp anySite ((StorageOp.pathExists .restoreOperation).bind fun there =>
        if there then
          (readRestoreJournal K).bind fun journal =>
            if journal.operationVersion ≠ 1 ∨ journal.databaseId ≠ handle.id then
              .fail ⟨"restore journal identity or version is invalid; operator recovery is required"⟩
            else if journal.stage ≠ "prepared" then
              .fail ⟨"restore journal stage is invalid; operator recovery is required"⟩
            else (settleRestoreFiles handle).bind fun _ => clearRestoreFiles handle
        else pure ()) t (fun _ t => Swept s.files t.files) fun _ _ => True := by
    intro t ht hswept
    refine site_pathExists trivial ?_
    rw [ht]
    rintro _ rfl
    exact hswept
  unfold recoverDirectory cleanupUnjournaledRestoreCandidate
  simp only [Prog.bind_eq, Prog.bind_assoc]
  refine site_nothingUnjournaled trivial ?_
  split
  · rename_i h
    have hnone : s.files .restoreCandidate = none := by
      simp only [hop, Option.isSome_none, Bool.false_or, Bool.and_eq_true,
        Option.isNone_iff_eq_none] at h
      exact h.1
    exact hdone s hop fun x _ => (if_neg (by simp [DbFiles.Clears, hop, hnone])).symm
  · simp only [Prog.bind_assoc]
    refine site_onlyCandidateLeft trivial fun r hr => ?_
    split
    · rename_i hleft
      simp only [Prog.bind_assoc]
      refine Setting.Wp.bind ((removeFileAndSidecar_unlinks hm).mono (fun _ h => h) ?_
        fun _ _ h => h)
      rintro _ t rfl
      refine Setting.Wp.bind (syncRestoreDirectory_site.mono (fun _ h => h) ?_ fun _ _ h => h)
      rintro _ _ rfl
      refine hdone _ (by simp [Site.setFile, hop]) fun x hx => ?_
      rw [unlinked_stray rfl hx, swept]
      exact if_congr (by simp [DbFiles.Clears, hop, hr hleft]) rfl rfl
    · exact fun _ _ => trivial

/-- From any files at all: what the recovery of a directory leaves of lock files. -/
theorem recoverDirectory_sweeps {K : Codec RestoreJournal} (hm : ¬ Faulty may) :
    (storageSetting E may).Wp anySite (recoverDirectory K handle) s
      (fun _ t => Swept s.files t.files) fun _ _ => True := by
  by_cases hop : s.files .restoreOperation = none
  · exact recoverUnjournaled_sweeps hm hop
  · exact recoverJournaled_sweeps hm (Option.isSome_iff_ne_none.mpr hop)

end

-- ---------------------------------------------------------------------------
-- All directories
-- ---------------------------------------------------------------------------

section
variable {E : Engine} {uuids : Nat → String} {may : Outcome → Prop} {root : DataDirectory}
  {v : Books} {e e' e'' : Entries} {id : String} {files : DbFiles}

/-- The lock files of the Database `id` are as its recovery leaves them. -/
structure SweptAt (id : String) (e e' : Entries) : Prop where
  directory : ∀ files, e (.database id) = some (.directory files) →
    ∃ files', e' (.database id) = some (.directory files') ∧ Swept files files'
  other : (∀ files, e (.database id) ≠ some (.directory files)) →
    e' (.database id) = e (.database id)

theorem recoverEntries_sweeps (hm : ¬ Faulty may) (names : List String) (hnames : names.Nodup) :
    Does E uuids may anyBooks (recoverEntries root names) v
      (fun _ w => (∀ id ∈ names, SweptAt id v.entry w.entry) ∧
        ∀ id, id ∉ names → w.entry (.database id) = v.entry (.database id)) fun _ _ => True := by
  induction names generalizing v with
  | nil => exact Exec.pure ⟨by simp, fun _ _ => rfl⟩
  | cons name rest ih =>
    obtain ⟨hname, hrest⟩ := List.nodup_cons.mp hnames
    unfold recoverEntries
    simp only [Prog.bind_eq]
    refine Does.directoryExists trivial ?_
    by_cases hd : ∃ files, v.entry (.database name) = some (.directory files)
    · obtain ⟨files, hd⟩ := hd
      simp only [Books.hasDirectory, hd, ↓reduceIte]
      refine Exec.bind (Does.inside hd ((recoverDirectory_sweeps hm).mono (fun _ _ => trivial) ?_
        fun _ _ _ => trivial))
      intro _ t ht
      refine (ih hrest (v := v.withSite name t)).mono (fun _ h => h) ?_ fun _ _ h => h
      rintro _ w ⟨hswept, hkept⟩
      have hat : w.entry (.database name) = some (.directory t.files) :=
        (hkept name hname).trans (by simp [Books.withSite])
      refine ⟨fun id hid => ?_, fun id hid => ?_⟩
      · by_cases hne : id = name
        · subst hne
          refine ⟨fun files' hf => ⟨t.files, hat, ?_⟩, fun h => absurd hd (h files)⟩
          cases hd.symm.trans hf
          exact ht
        · have hs := hswept id (by simpa [hne] using hid)
          have hv : (v.withSite name t).entry (.database id) = v.entry (.database id) :=
            withSite_entry_ne hne
          exact ⟨fun files hf => hs.directory files (hv.trans hf),
            fun h => (hs.other fun files hf => h files (hv.symm.trans hf)).trans hv⟩
      · rw [List.mem_cons, not_or] at hid
        exact (hkept id hid.2).trans (withSite_entry_ne hid.1)
    · have hdir : v.hasDirectory (.database name) = false := by
        unfold Books.hasDirectory
        split
        · rename_i files hf
          exact absurd ⟨files, hf⟩ hd
        · rfl
      simp only [hdir, Bool.false_eq_true, ↓reduceIte]
      refine (ih hrest).mono (fun _ h => h) ?_ fun _ _ h => h
      rintro _ w ⟨hswept, hkept⟩
      refine ⟨fun id hid => ?_, fun id hid => hkept id fun h => hid (List.mem_cons_of_mem _ h)⟩
      by_cases hne : id = name
      · subst hne
        exact ⟨fun files hf => absurd ⟨files, hf⟩ hd, fun _ => hkept id hname⟩
      · exact hswept id (by simpa [hne] using hid)

theorem recoverSnapshotOperations_sweeps (hm : ¬ Faulty may) :
    Does E uuids may anyBooks (recoverSnapshotOperations root) v
      (fun _ w => ∀ id, SweptAt id v.entry w.entry) fun _ _ => True := by
  unfold recoverSnapshotOperations
  refine Does.readDatabases_ok hm trivial fun names hnodup hmem => ?_
  refine (recoverEntries_sweeps hm names hnodup).mono (fun _ h => h) ?_ fun _ _ h => h
  rintro _ w ⟨hswept, hkept⟩ id
  by_cases hid : id ∈ names
  · exact hswept id hid
  · refine ⟨fun files hf => absurd ((hmem id).mpr ?_) hid, fun _ => hkept id hid⟩
    rw [hf]
    rfl

/-- Nothing changed but the content of Database directories, of each by `R`. -/
structure OnlyInside (R : String → DbFiles → DbFiles → Prop) (e e' : Entries) : Prop where
  outside : ∀ p, (∀ id files, p = .database id → e p ≠ some (.directory files)) → e' p = e p
  files : ∀ id files, e (.database id) = some (.directory files) →
    ∃ files', e' (.database id) = some (.directory files') ∧ R id files files'

section
variable {R : String → DbFiles → DbFiles → Prop}

theorem OnlyInside.file (h : OnlyInside R e e') {p : RootPath} (hp : ∀ id, p ≠ .database id) :
    e' p = e p :=
  h.outside p fun id _ hid => absurd hid (hp id)

theorem OnlyInside.isSome (h : OnlyInside R e e') (id : String) :
    (e' (.database id)).isSome = (e (.database id)).isSome := by
  by_cases hd : ∃ files, e (.database id) = some (.directory files)
  · obtain ⟨files, hf⟩ := hd
    obtain ⟨files', hf', -⟩ := h.files id files hf
    rw [hf, hf']
    rfl
  · rw [h.outside]
    rintro _ files ⟨⟩ hf
    exact hd ⟨files, hf⟩

/-- No directory is new. -/
theorem OnlyInside.back (h : OnlyInside R e e') {files' : DbFiles}
    (hf : e' (.database id) = some (.directory files')) :
    ∃ files, e (.database id) = some (.directory files) ∧ R id files files' := by
  by_cases hd : ∃ files, e (.database id) = some (.directory files)
  · obtain ⟨files, hd⟩ := hd
    obtain ⟨files'', hf'', hR⟩ := h.files id files hd
    cases hf''.symm.trans hf
    exact ⟨files, hd, hR⟩
  · refine absurd ⟨files', (h.outside _ ?_).symm.trans hf⟩ hd
    rintro _ files ⟨⟩ hfiles
    exact hd ⟨files, hfiles⟩

theorem onlyInside_withSite {s : Site} (hd : v.entry (.database id) = some (.directory files))
    (hs : R id files s.files)
    (hother : ∀ i files, v.entry (.database i) = some (.directory files) → R i files files) :
    OnlyInside R v.entry (v.withSite id s).entry := by
  refine ⟨fun p hp => ?_, fun i files' hf => ?_⟩
  · have hne : p ≠ .database id := by
      rintro rfl
      exact hp id files rfl hd
    simp [Books.withSite, hne]
  · by_cases hne : i = id
    · subst hne
      cases hd.symm.trans hf
      exact ⟨s.files, by simp [Books.withSite], hs⟩
    · exact ⟨files', (withSite_entry_ne hne).trans hf, hother i files' hf⟩

end

/-- Nothing but the lock files of open Databases differs. -/
abbrev Alike : Entries → Entries → Prop :=
  OnlyInside fun _ files files' => ∀ f, f ≠ .sidecar .database → files' f = files f

theorem Alike.refl (e : Entries) : Alike e e :=
  ⟨fun _ _ => rfl, fun _ files h => ⟨files, h, fun _ _ => rfl⟩⟩

theorem Alike.trans (h : Alike e e') (h' : Alike e' e'') : Alike e e'' := by
  refine ⟨fun p hp => ?_, fun id files hf => ?_⟩
  · have hsame := h.outside p hp
    refine (h'.outside p fun id files hid hf => ?_).trans hsame
    exact hp id files hid (hsame.symm.trans hf)
  · obtain ⟨files', hf', hsame⟩ := h.files id files hf
    obtain ⟨files'', hf'', hsame'⟩ := h'.files id files' hf'
    exact ⟨files'', hf'', fun f hne => (hsame' f hne).trans (hsame f hne)⟩

theorem alike_open (hd : v.entry (.database id) = some (.directory files)) :
    Alike v.entry (v.withSite id ((v.site id files).leaveLockFile E .database)).entry := by
  refine onlyInside_withSite hd (fun f hf => ?_) fun _ _ _ _ _ => rfl
  unfold Site.leaveLockFile
  split
  · rfl
  · simp [Site.setFile, hf, Books.site]

/-- Wherever it stops, opening the Databases leaves lock files and registers
handles under their own identities. -/
theorem openDatabases_alike (databases : List CatalogDatabase) {C : Books → Prop}
    (hC : ∀ w, Alike v.entry w.entry → C w) :
    Does E uuids may C (openDatabases E root databases) v
      (fun _ w => Alike v.entry w.entry ∧ w.memory.catalog = v.memory.catalog ∧
        ∀ id handle, w.memory.databases id = some handle →
          v.memory.databases id = some handle ∨ handle.id = id)
      fun _ w => Alike v.entry w.entry := by
  induction databases generalizing v with
  | nil => exact Exec.pure ⟨.refl _, rfl, fun _ _ h => .inl h⟩
  | cons entry rest ih =>
    have hc : C v := hC v (.refl _)
    unfold openDatabases
    simp only [Prog.bind_eq]
    refine Does.openDatabase hc ?_ fun _ _ => Exec.fail (.refl _)
    intro files b hd _ _
    have hopen := alike_open (E := E) hd
    dsimp only
    split
    · exact Exec.fail hopen
    · exact Exec.fail hopen
    · refine Does.inner rfl (hC _ hopen) fun _ => Does.inner rfl (hC _ hopen) fun _ => ?_
      refine (ih ?_).mono (fun _ h => h) ?_ ?_
      · exact fun w hw => hC w (hopen.trans hw)
      · rintro _ w ⟨hw, hcatalog, hkeyed⟩
        refine ⟨hopen.trans hw, hcatalog, fun id handle hh => ?_⟩
        rcases hkeyed id handle hh with hh | hh
        · simp only [Books.setMemory_memory, Function.update_apply] at hh
          split at hh
          · rename_i hid
            cases hh
            exact .inr hid.symm
          · exact .inl hh
        · exact .inr hh
      · intro _ w hw
        exact hopen.trans hw

/-- From any entries at all: what a start that succeeds leaves of `databases/`. -/
theorem openDaemon_leaves {credentials : Except ServerError Unit} (hm : ¬ Faulty may) :
    Does E uuids may anyBooks (openDaemon E root credentials) v
      (fun catalog w => (∀ id, (w.entry (.database id)).isSome = true ↔ id ∈ catalog.ids) ∧
        ∀ id ∈ catalog.ids, ∃ files files', v.entry (.database id) = some (.directory files) ∧
          w.entry (.database id) = some (.directory files') ∧ files'.Clean ∧ Swept files files')
      fun _ _ => True := by
  unfold openDaemon
  simp only [Prog.bind_eq]
  have hrecover : Does E uuids may anyBooks (recoverSnapshotOperations root) v
      (fun _ w => (∀ id, Tidy w.entry id) ∧ ∀ id, SweptAt id v.entry w.entry)
      fun _ _ => True := fun s hs =>
    ((recoverSnapshotOperations_leaves hm s hs).and (recoverSnapshotOperations_sweeps hm s hs)).mono
      (fun _ _ => trivial) (fun _ _ h => h) fun _ _ _ => trivial
  refine Exec.seq hrecover ?_ fun _ _ h => h
  rintro _ w₁ ⟨htidy, hswept⟩
  cases credentials with
  | error e => exact Exec.fail trivial
  | ok _ =>
    rw [Prog.ofExcept_ok, Prog.bind_pure]
    refine Exec.seq (load_leaves hm htidy) ?_ fun _ _ h => h
    rintro catalog w₂ ⟨hdone, hfewer⟩
    refine Does.inner rfl trivial fun _ => ?_
    refine Exec.seq (p := openDatabases E root catalog.databases)
      (openDatabases_alike _ fun _ _ => trivial) ?_ fun _ _ _ => trivial
    rintro _ w ⟨hlocked, -⟩
    refine Exec.pure ⟨fun id => ?_, fun id hid => ?_⟩
    · rw [hlocked.isSome id]
      refine ⟨hdone.known id, fun hid => ?_⟩
      obtain ⟨files, content, hf, -⟩ := hdone.stored id hid
      exact Option.isSome_of_eq_some hf
    · obtain ⟨files₂, content, hf₂, -⟩ := hdone.stored id hid
      obtain ⟨files', hf', hsame⟩ := hlocked.files id files₂ hf₂
      have hf₁ : w₁.entry (.database id) = some (.directory files₂) := by
        rcases hfewer id with h | h
        · exact h.symm.trans hf₂
        · cases h.symm.trans hf₂
      obtain ⟨files, hf⟩ : ∃ files, v.entry (.database id) = some (.directory files) := by
        by_contra hnone
        have hkept := (hswept id).other fun files hf => hnone ⟨files, hf⟩
        exact hnone ⟨files₂, hkept.symm.trans hf₁⟩
      obtain ⟨files₁, hf₁', hs⟩ := (hswept id).directory files hf
      cases hf₁.symm.trans hf₁'
      obtain ⟨hcandidate, hbackup, hoperation⟩ := hdone.tidy id files₂ hf₂
      refine ⟨files, files', hf, hf', ⟨?_, ?_, ?_⟩, fun x hx => ?_⟩
      · exact (hsame _ (by decide)).trans hcandidate
      · exact (hsame _ (by decide)).trans hbackup
      · exact (hsame _ (by decide)).trans hoperation
      · have hne : x ≠ .sidecar .database := by
          rintro rfl
          cases hx
        rw [hsame x hne, hs x hx]

end

end NostdbServer
