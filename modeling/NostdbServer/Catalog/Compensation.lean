import NostdbServer.Catalog.Loads
import NostdbServer.Catalog.Transition
import NostdbServer.Daemon.Failing

/-!
# A transition in which one step fails

`CatalogFiles` is what the four files of the catalog hold. `transition` is
followed from any such state, one failing step at most, to what it leaves
behind: which steps are undone, and which are not.
-/

namespace NostdbServer

open Effects World

structure CatalogFiles where
  state : Option Entry
  pending : Option Entry
  previous : Option Entry
  operation : Option Entry

namespace CatalogFiles

def of (e : RootPath → Option Entry) : CatalogFiles :=
  ⟨e .serverState, e .pending, e .previous, e .operation⟩

def get (files : CatalogFiles) : RootPath → Option Entry
  | .serverState => files.state
  | .pending => files.pending
  | .previous => files.previous
  | .operation => files.operation
  | _ => none

def put (files : CatalogFiles) : RootPath → Option Entry → CatalogFiles
  | .serverState, n => { files with state := n }
  | .pending, n => { files with pending := n }
  | .previous, n => { files with previous := n }
  | .operation, n => { files with operation := n }
  | _, _ => files

end CatalogFiles

/-- The catalog's own files. -/
def RootPath.Own : RootPath → Prop
  | .serverState | .pending | .previous | .operation => True
  | _ => False

namespace CatalogFiles

theorem put_put_none {files : CatalogFiles} {p : RootPath} (hp : p.Own) (h : files.get p = none)
    (n : Option Entry) : (files.put p n).put p none = files := by
  cases files
  cases p <;> first | exact hp.elim | (cases h; rfl)

theorem put_none {files : CatalogFiles} {p : RootPath} (hp : p.Own) (h : files.get p = none) :
    files.put p none = files := by
  cases files
  cases p <;> first | exact hp.elim | (cases h; rfl)

end CatalogFiles

/-- `w` is `v` but for the catalog's files, which are as given. -/
structure Showing (v : Books) (files : CatalogFiles) (w : Books) : Prop where
  memory : w.memory = v.memory
  issued : w.issued = v.issued
  elsewhere : ∀ p : RootPath, ¬ p.Own → w.entry p = v.entry p
  files : CatalogFiles.of w.entry = files

namespace Showing

variable {v w : Books} {files : CatalogFiles} {p q : RootPath}

theorem refl (v : Books) : Showing v (.of v.entry) v := ⟨rfl, rfl, fun _ _ => rfl, rfl⟩

theorem entry (h : Showing v files w) (hp : p.Own) : w.entry p = files.get p := by
  rw [← h.files]
  cases p <;> first | exact hp.elim | rfl

theorem set (h : Showing v files w) (hp : p.Own) (n : Option Entry) :
    Showing v (files.put p n) (w.set p n) where
  memory := h.memory
  issued := h.issued
  elsewhere q hq := by
    rw [Books.set_entry, if_neg, h.elsewhere q hq]
    rintro rfl
    exact hq hp
  files := by
    rw [← h.files]
    cases p <;> first | exact hp.elim | simp [CatalogFiles.of, CatalogFiles.put]

theorem flag (h : Showing v files w) (b : Bool) : Showing v files { w with installed := b } :=
  ⟨h.memory, h.issued, h.elsewhere, h.files⟩

theorem move (h : Showing v files w) (hp : p.Own) (hq : q.Own) (n : Entry) :
    Showing v ((files.put p none).put q (some n)) (w.move p q n) :=
  ((h.set hp none).set hq (some n)).flag _

end Showing

section
variable {E : Engine} {uuids : Nat → String} {root : DataDirectory} {fs : List DaemonOp}
  {v u : Books} {files : CatalogFiles} {p : RootPath}

-- ---------------------------------------------------------------------------
-- The helpers
-- ---------------------------------------------------------------------------

theorem writeJsonNew_once {bytes : Bytes} (hp : p.Own) (h : Showing v files u) :
    DoesOnce E uuids (writeJsonNew root p bytes) fs u
      (fun _ fs' w => fs' = fs ∧ files.get p = none ∧
        Showing v (files.put p (some (.file bytes))) w)
      (fun _ fs' w => fs = [] ∧ fs' = [.root (.createNew p bytes)] ∧ Showing v files w) := by
  unfold writeJsonNew
  simp only [Prog.bind_eq]
  refine DoesOnce.createNew ?_ ?_ ?_
  · intro hn
    exact Once.pure ⟨rfl, (h.entry hp).symm.trans hn, h.set hp _⟩
  · rintro rfl e
    exact Once.fail ⟨rfl, rfl, h⟩
  · rintro rfl hn n m
    have hn : files.get p = none := (h.entry hp).symm.trans hn
    refine DoesOnce.remove ?_ ?_ ?_
    · intro _ _
      refine Once.fail ⟨rfl, rfl, ?_⟩
      have := (h.set hp (some (.file (bytes.take n)))).set hp none
      rwa [CatalogFiles.put_put_none hp hn] at this
    · intro hgone
      simp at hgone
    · intro hfs
      cases hfs

theorem removeIfExists_once (hp : p.Own) (h : Showing v files u) :
    DoesOnce E uuids (removeIfExists root p) fs u
      (fun _ fs' w => fs' = fs ∧ Showing v (files.put p none) w)
      (fun _ fs' w => fs = [] ∧ fs' = [.root (.remove p)] ∧ Showing v files w) := by
  unfold removeIfExists
  simp only [Prog.bind_eq]
  refine DoesOnce.remove ?_ ?_ ?_
  · intro _ _
    exact Once.pure ⟨rfl, h.set hp none⟩
  · intro hn
    refine Once.pure ⟨rfl, ?_⟩
    rw [CatalogFiles.put_none hp ((h.entry hp).symm.trans hn)]
    exact h
  · rintro rfl e he
    dsimp only
    rw [if_neg (by simp [he])]
    exact Once.fail ⟨rfl, rfl, h⟩

theorem syncParent_once :
    DoesOnce E uuids syncParent fs u (fun _ fs' w => fs' = fs ∧ w = u)
      (fun _ fs' w => fs = [] ∧ fs' = [.root .sync] ∧ w = u) := by
  unfold syncParent
  simp only [Prog.bind_eq]
  refine DoesOnce.sync ?_ ?_
  · exact Once.pure ⟨rfl, rfl⟩
  · rintro rfl e
    exact Once.fail ⟨rfl, rfl, rfl⟩

/-- The removal of a file that is there, its result dropped, after a failure. -/
theorem removeSpent_once {o : DaemonOp} {k : Except IoError Unit → Prog daemon ε β}
    {Q : β → List DaemonOp → Books → Prop} {F : ε → List DaemonOp → Books → Prop} {n : Entry}
    (hp : p.Own) (h : Showing v files u) (hn : files.get p = some n)
    (hk : ∀ w, Showing v (files.put p none) w → DoesOnce E uuids (k (.ok ())) [o] w Q F) :
    DoesOnce E uuids ((DaemonOp.remove p).bind k) [o] u Q F := by
  refine DoesOnce.remove (fun _ _ => hk _ (h.set hp none)) ?_ ?_
  · intro hgone
    cases (hn.symm.trans (h.entry hp).symm).trans hgone
  · intro hfs
    cases hfs

/-- A rename onto a free name, its result dropped, after a failure. -/
theorem renameSpent_once {o : DaemonOp} {q : RootPath} {n : Entry}
    {k : Except IoError Unit → Prog daemon ε β} {Q : β → List DaemonOp → Books → Prop}
    {F : ε → List DaemonOp → Books → Prop} (hne : p ≠ q) (hp : p.Own) (hq : q.Own)
    (h : Showing v files u) (hn : files.get p = some n)
    (hk : ∀ w, Showing v ((files.put p none).put q (some n)) w →
      DoesOnce E uuids (k (.ok ())) [o] w Q F) :
    DoesOnce E uuids ((DaemonOp.rename p q).bind k) [o] u Q F := by
  refine DoesOnce.rename hne ?_ ?_
  · intro n' hn' _
    cases hn.symm.trans ((h.entry hp).symm.trans hn')
    exact hk _ (h.move hp hq n)
  · intro hfs
    cases hfs

-- ---------------------------------------------------------------------------
-- Replacing the catalog
-- ---------------------------------------------------------------------------

/-- From the moment the old catalog is preserved, a failure puts it back. -/
theorem installPending_once {new old : Entry} {operation : Option Entry}
    (h : Showing v ⟨none, some new, some old, operation⟩ u) :
    DoesOnce E uuids (installPending root false) fs u
      (fun _ fs' w => (fs' = fs ∧ Showing v ⟨some new, none, none, operation⟩ w) ∨
        (fs = [] ∧ fs' = [.root (.remove .previous)] ∧
          Showing v ⟨some new, none, some old, operation⟩ w))
      (fun _ fs' w => fs = [] ∧
        (fs' = [.root (.rename .pending .serverState)] ∨ fs' = [.root .sync]) ∧
        Showing v ⟨some old, none, none, operation⟩ w) := by
  unfold installPending
  simp only [Prog.bind_eq]
  refine DoesOnce.rename (by simp) ?_ ?_
  · intro n hn _
    cases (h.entry (p := .pending) trivial).symm.trans hn
    have hmoved : Showing v ⟨some new, none, some old, operation⟩ _ :=
      h.move (p := .pending) (q := .serverState) trivial trivial new
    refine Once.attempt (Once.mono syncParent_once ?_ ?_)
    · rintro _ _ _ ⟨rfl, rfl⟩
      refine Once.attempt (Once.mono (removeIfExists_once trivial hmoved) ?_ ?_)
      · rintro _ _ w ⟨rfl, hw⟩
        exact Once.pure (.inl ⟨rfl, hw⟩)
      · rintro _ _ w ⟨hfs, rfl, hw⟩
        exact Once.pure (.inr ⟨hfs, rfl, hw⟩)
    · rintro _ _ _ ⟨hfs, rfl, rfl⟩
      refine removeSpent_once trivial hmoved rfl fun w hw => ?_
      refine renameSpent_once (by simp) trivial trivial hw rfl fun y hy => ?_
      refine DoesOnce.sync ?_ ?_
      · exact Once.fail ⟨hfs, .inr rfl, hy⟩
      · intro hfs'
        cases hfs'
  · rintro rfl e b
    refine removeSpent_once trivial (h.flag b) rfl fun w hw => ?_
    refine renameSpent_once (by simp) trivial trivial hw rfl fun y hy => ?_
    exact Once.fail ⟨rfl, .inl rfl, hy⟩

/-- What a failed transition leaves of the catalog's files, by the step that
failed. -/
def CatalogFiles.leftover (files : CatalogFiles) (new : Entry) : DaemonOp → CatalogFiles
  | .root (.remove .previous) => { files with pending := some new }
  | .root (.rename .serverState .previous) => { files with pending := some new, previous := none }
  | .root (.rename .pending .serverState) | .root .sync => { files with previous := none }
  | _ => files

theorem CatalogFiles.leftover_journaled (files : CatalogFiles) (new : Entry) (n : Option Entry)
    (h : files.operation = none) (o : DaemonOp) :
    (({ files with operation := n }).leftover new o).operation = n ∧
      (({ files with operation := n }).leftover new o).put .operation none =
        files.leftover new o := by
  obtain ⟨state, pending, previous, operation⟩ := files
  cases h
  unfold leftover
  split <;> exact ⟨rfl, rfl⟩

/-- The step that puts the directory of a dropped Database away. -/
def DaemonOp.discards : DaemonOp → Bool
  | .root (.rename (.database _) (.trash _)) => true
  | _ => false

theorem writeAtomic_once {next : Catalog} (h : Showing v files u) :
    DoesOnce E uuids (writeAtomic root next false) fs u
      (fun _ fs' w => let new := Entry.file (root.catalog.encode next)
        (fs' = fs ∧ Showing v ⟨some new, none, none, files.operation⟩ w) ∨
        (fs = [] ∧ fs' = [.root (.remove .previous)] ∧ ∃ old, files.state = some old ∧
          Showing v ⟨some new, none, some old, files.operation⟩ w))
      (fun _ fs' w => fs = [] ∧ ∃ o, fs' = [o] ∧ o.discards = false ∧
        Showing v (files.leftover (.file (root.catalog.encode next)) o) w) := by
  obtain ⟨state, pending, previous, operation⟩ := files
  unfold writeAtomic
  simp only [Prog.bind_eq, Bool.false_eq_true, ↓reduceIte]
  refine Once.seq (writeJsonNew_once trivial h) ?_ ?_
  swap
  · rintro _ _ w ⟨hfs, rfl, hw⟩
    exact ⟨hfs, _, rfl, rfl, hw⟩
  rintro _ _ w ⟨rfl, hpending, hw⟩
  obtain rfl : pending = none := hpending
  refine Once.seq (removeIfExists_once trivial hw) ?_ ?_
  swap
  · rintro _ _ y ⟨hfs, rfl, hy⟩
    exact ⟨hfs, _, rfl, rfl, hy⟩
  rintro _ _ y ⟨rfl, hy⟩
  refine DoesOnce.rename (by simp) ?_ ?_
  · intro old hold _
    have hstate : state = some old := (hy.entry (p := .serverState) trivial).symm.trans hold
    subst hstate
    refine Once.mono (installPending_once (hy.move (p := .serverState) (q := .previous)
      trivial trivial old)) ?_ ?_
    · rintro _ _ z (⟨rfl, hz⟩ | ⟨hfs, rfl, hz⟩)
      · exact .inl ⟨rfl, hz⟩
      · exact .inr ⟨hfs, rfl, old, rfl, hz⟩
    · rintro _ _ z ⟨hfs, rfl | rfl, hz⟩
      · exact ⟨hfs, _, rfl, rfl, hz⟩
      · exact ⟨hfs, _, rfl, rfl, hz⟩
  · rintro rfl e b
    exact Once.fail ⟨rfl, _, rfl, rfl, hy.flag b⟩

theorem transition_once {next : Catalog} {kind : OperationKind} {id : String} :
    DoesOnce E uuids (transition root next kind id) fs v
      (fun _ fs' w => ∃ y, w = y.setMemory { v.memory with catalog := next } ∧
        let new := Entry.file (root.catalog.encode next)
        let journal := Entry.file
          (root.operation.encode ⟨OPERATION_VERSION, kind, id, v.memory.catalog, next⟩)
        ((fs' = fs ∧ Showing v ⟨some new, none, none, some journal⟩ y) ∨
          (fs = [] ∧ fs' = [.root (.remove .previous)] ∧ ∃ old,
            v.entry .serverState = some old ∧
            Showing v ⟨some new, none, some old, some journal⟩ y)))
      (fun _ fs' w => (fs' = fs ∧ w = v ∧ validateCatalog next ≠ .ok ()) ∨
        (fs = [] ∧ ∃ o, fs' = [o] ∧
          o.discards = false ∧ Showing v
            ((CatalogFiles.of v.entry).leftover (.file (root.catalog.encode next)) o) w)) := by
  unfold transition
  simp only [Prog.bind_eq]
  cases hnext : validateCatalog next with
  | error e => exact Once.fail (.inl ⟨rfl, rfl, by simp⟩)
  | ok _ =>
    refine DoesOnce.readCatalog (Once.seq (writeJsonNew_once trivial (.refl v)) ?_ ?_)
    swap
    · rintro _ _ w ⟨hfs, rfl, hw⟩
      exact .inr ⟨hfs, _, rfl, rfl, hw⟩
    rintro _ _ w ⟨rfl, hnone, hw⟩
    refine Once.attempt (Once.mono (writeAtomic_once hw) ?_ ?_)
    · rintro _ fs' y hy
      refine DoesOnce.inner rfl fun _ => Once.pure ⟨y, ?_, hy⟩
      have hmem : y.memory = v.memory := by
        obtain ⟨-, hy⟩ | ⟨-, -, _, -, hy⟩ := hy
        · exact hy.memory
        · exact hy.memory
      rw [hmem]
    · rintro error _ y ⟨hfs, o, rfl, ho, hy⟩
      obtain ⟨hop, hput⟩ := CatalogFiles.leftover_journaled (.of v.entry)
        (.file (root.catalog.encode next)) (some (.file (root.operation.encode
          ⟨OPERATION_VERSION, kind, id, v.memory.catalog, next⟩))) hnone o
      refine removeSpent_once (p := .operation) trivial hy hop fun z hz => ?_
      refine Once.fail (.inr ⟨hfs, o, rfl, ho, ?_⟩)
      rw [← hput]
      exact hz

-- ---------------------------------------------------------------------------
-- The transition that follows
-- ---------------------------------------------------------------------------

/-- A store that is ready for a transition. A copy of the catalog before the
current one may have stayed behind. -/
structure ReadyStore (root : DataDirectory) (d : Daemon) : Prop where
  state : d.entry .serverState = some (.file (root.catalog.encode d.memory.catalog))
  pending : d.entry .pending = none
  operation : d.entry .operation = none
  previous : ∀ n, d.entry .previous = some n → ∃ bytes, n = .file bytes

/-- The four files and the catalog in memory are as before. -/
structure Untouched (d d' : Daemon) : Prop where
  files : CatalogFiles.of d'.entry = CatalogFiles.of d.entry
  catalog : d'.memory.catalog = d.memory.catalog

theorem ReadyStore.of_untouched {d d' : Daemon} (h : ReadyStore root d) (hd : Untouched d d') :
    ReadyStore root d' := by
  obtain ⟨hfiles, hcatalog⟩ := hd
  simp only [CatalogFiles.of, CatalogFiles.mk.injEq] at hfiles
  obtain ⟨hstate, hpending, hprevious, hoperation⟩ := hfiles
  refine ⟨?_, hpending.trans h.pending, hoperation.trans h.operation, ?_⟩
  · rw [hstate, hcatalog]
    exact h.state
  · rw [hprevious]
    exact h.previous

/-- The steps of a transition. It creates no file but the pending catalog and
the journal. -/
def DaemonOp.Transits : DaemonOp → Prop
  | .root (.createNew p _) => p = .pending ∨ p = .operation
  | .root _ | .readCatalog | .writeCatalog _ => True
  | _ => False

theorem writeJsonNew_transits {bytes : Bytes} (hp : p = .pending ∨ p = .operation) :
    (writeJsonNew root p bytes).Only DaemonOp.Transits := by
  refine Prog.Only.step hp ?_
  rintro ((_ | _) | _)
  · trivial
  · refine Prog.Only.step trivial ?_
    rintro (_ | _)
    · dsimp only
      split <;> trivial
    · trivial
  · trivial

theorem installPending_transits : (installPending root false).Only DaemonOp.Transits := by
  refine Prog.Only.step trivial ?_
  rintro (_ | _)
  · exact Prog.Only.step trivial fun _ => Prog.Only.step trivial fun _ => trivial
  · have hsync : syncParent.Only DaemonOp.Transits := by
      refine Prog.Only.step trivial ?_
      rintro (_ | _) <;> trivial
    refine hsync.attempt.bind ?_
    rintro (_ | _)
    · exact Prog.Only.step trivial fun _ => Prog.Only.step trivial fun _ => Prog.Only.step trivial
        fun _ => trivial
    · exact (removeIfExists_only trivial).attempt.bind fun _ => trivial

theorem transition_transits {next : Catalog} {kind : OperationKind} {id : String} :
    (transition root next kind id).Only DaemonOp.Transits := by
  have hatomic : (writeAtomic root next false).Only DaemonOp.Transits := by
    refine (writeJsonNew_transits (.inl rfl)).bind fun _ => (removeIfExists_only trivial).bind
      fun _ => Prog.Only.step trivial ?_
    rintro (_ | _)
    · trivial
    · exact installPending_transits
  refine Prog.Only.bind ?_ fun _ => Prog.Only.step trivial fun _ =>
    (writeJsonNew_transits (.inr rfl)).bind fun _ => hatomic.attempt.bind ?_
  · cases validateCatalog next <;> trivial
  · rintro (_ | _)
    · exact Prog.Only.step trivial fun _ => trivial
    · exact ⟨trivial, fun _ => trivial⟩

theorem transition_rooted {next : Catalog} {kind : OperationKind} {id : String} :
    (transition root next kind id).Only DaemonOp.Rooted := by
  refine transition_transits.mono fun o ho => ?_
  cases o <;> first | trivial | exact ho.elim

/-- Without I/O failures, a valid catalog is installed. -/
theorem ReadyStore.transition_eval {d : Daemon} {next : Catalog} {kind : OperationKind} {id : String}
    (h : ReadyStore root d) (hnext : validateCatalog next = .ok ()) :
    ∃ d', (daemonWorld E uuids).eval .ok (transition root next kind id) d = some (.ok (), d') := by
  have honly : (transition root next kind id).Only DaemonOp.Free :=
    free_of_rooted transition_rooted
  obtain ⟨r, d', he⟩ := World.eval_isSome (W := daemonWorld E uuids)
    (fun o s ho => ho.isSome .ok s) honly d
  obtain ⟨l, hl⟩ := World.eval_logged he []
  have hdoes : Does E uuids (· = .ok) (fun _ => True) (transition root next kind id) (.of d false)
      (fun _ _ => True) (fun _ _ => False) := by
    unfold transition
    simp only [Prog.bind_eq, hnext, Prog.ofExcept_ok, Prog.bind_pure]
    refine Does.readCatalog trivial (Exec.seq
      (writeJsonNew_does not_faulty_ok trivial h.operation) ?_ fun _ _ hf => hf)
    rintro _ _ rfl
    have hstate : ∀ n, ((Books.of d false).set .operation n).entry .serverState =
        some (.file (root.catalog.encode d.memory.catalog)) := by
      intro n
      simpa [Books.of] using h.state
    refine Exec.attempt ((writeAtomic_does not_faulty_ok trivial ?_ ?_ (hstate _) trivial trivial
      trivial trivial).mono (fun _ h => h) ?_ fun _ _ (hf : False) => hf.elim)
    · simpa [Books.of] using h.pending
    · simpa [Books.of] using h.previous
    · intro _ _ _
      exact Does.inner rfl trivial fun _ => Exec.pure trivial
  have hpost := hdoes.eval (s := (d, [])) rfl (fun _ => rfl) hl
  cases r with
  | error e => exact hpost.elim
  | ok _ => exact ⟨d', he⟩

-- ---------------------------------------------------------------------------
-- Which failures leave a trace
-- ---------------------------------------------------------------------------

/-- The failures of a transition that leave no trace: those of the two steps
that create a file, and the later ones that put the preserved catalog back, as
long as no older copy had to make room for it. -/
def DaemonOp.Compensated (previous : Option Entry) : DaemonOp → Prop
  | .root (.remove .previous) | .root (.rename .serverState .previous) => False
  | .root (.rename .pending .serverState) | .root .sync => previous = none
  | _ => True

instance (previous : Option Entry) : DecidablePred (DaemonOp.Compensated previous) := fun o => by
  unfold DaemonOp.Compensated
  split <;> infer_instance

theorem leftover_eq_iff {new : Entry} (hpending : files.pending = none) (o : DaemonOp) :
    files.leftover new o = files ↔ o.Compensated files.previous := by
  obtain ⟨state, pending, previous, operation⟩ := files
  cases hpending
  unfold CatalogFiles.leftover DaemonOp.Compensated
  split <;> simp [eq_comm]

variable (E uuids) in
/-- A transition that fails, with one failing step, has left no trace and lets
the next one succeed exactly if that step is among the compensated ones. -/
theorem failed_transition_leaves_no_trace_iff {d : Daemon} (h : ReadyStore root d) (next : Catalog)
    (kind : OperationKind) (id : String) (cs : List Outcome) (error : ServerError)
    (hone : (failedSteps E uuids cs (transition root next kind id) d).length ≤ 1)
    (herror : ((daemonWorld E uuids).run cs (transition root next kind id) d).1.result? =
      some (.error error)) :
    let d' := ((daemonWorld E uuids).run cs (transition root next kind id) d).2
    (Untouched d d' ∧ ∀ next' kind' id', validateCatalog next' = .ok () →
        ∃ d'', (daemonWorld E uuids).eval .ok (transition root next' kind' id') d' =
          some (.ok (), d'')) ↔
      ∀ o ∈ failedSteps E uuids cs (transition root next kind id) d,
        o.Compensated (d.entry .previous) := by
  intro d'
  have hiff : Untouched d d' ↔ ∀ o ∈ failedSteps E uuids cs (transition root next kind id) d,
      o.Compensated (d.entry .previous) := by
    obtain ⟨installed, ⟨hfs, hw, -⟩ | ⟨-, o, hfs, -, hw⟩⟩ :=
      DoesOnce.outcome transition_once hone herror
    · rw [hfs]
      refine iff_of_true ⟨?_, ?_⟩ (by simp)
      · exact congrArg (CatalogFiles.of ∘ Books.entry) hw
      · exact congrArg (Memory.catalog ∘ Books.memory) hw
    · have hfiles : CatalogFiles.of d'.entry = (CatalogFiles.of d.entry).leftover
          (.file (root.catalog.encode next)) o := hw.files
      have hcatalog : d'.memory.catalog = d.memory.catalog := congrArg Memory.catalog hw.memory
      have hleft : (CatalogFiles.of d.entry).leftover (.file (root.catalog.encode next)) o =
          CatalogFiles.of d.entry ↔ o.Compensated (d.entry .previous) :=
        leftover_eq_iff h.pending o
      rw [hfs, List.forall_mem_singleton, ← hleft, ← hfiles]
      exact ⟨fun hd => hd.files, fun hd => ⟨hd, hcatalog⟩⟩
  rw [← hiff]
  exact ⟨And.left, fun hd => ⟨hd, fun _ _ _ hnext => (h.of_untouched hd).transition_eval hnext⟩⟩

theorem readyStore_single {id name : String} {content : Bytes} :
    ReadyStore root (.single root id name content) where
  state := by
    rw [Daemon.entry_single, if_neg (by simp), if_pos rfl]
    rfl
  pending := by simp [Daemon.entry_single]
  operation := by simp [Daemon.entry_single]
  previous := by simp [Daemon.entry_single]

/-- The disk is full while the pending catalog is written. -/
theorem failed_transition_leaves_no_trace_disk_full :
    let root := DataDirectory.plain "/data"
    let d := Daemon.single root "00000000-0000-4000-8000-000000000001" "main" [7]
    let d' := ((daemonWorld .plain fun _ => "").run [.ok, .ok, .torn 3 "disk full", .ok, .ok]
      (transition root ⟨CATALOG_VERSION, []⟩ .drop "00000000-0000-4000-8000-000000000001") d).2
    Untouched d d' ∧ ∀ next' kind' id', validateCatalog next' = .ok () →
      ∃ d'', (daemonWorld .plain fun _ => "").eval .ok (transition root next' kind' id') d' =
        some (.ok (), d'') :=
  (failed_transition_leaves_no_trace_iff .plain (fun _ => "") readyStore_single ⟨CATALOG_VERSION, []⟩
    .drop "00000000-0000-4000-8000-000000000001" [.ok, .ok, .torn 3 "disk full", .ok, .ok]
    ⟨"cannot persist /data/server-state.pending: disk full"⟩ (by decide +kernel)
    (by decide +kernel)).mpr (by decide +kernel)

/-- The current catalog cannot be renamed: the pending one stays behind, and
every later transition is refused. -/
theorem failed_transition_leaves_pending_catalog :
    let root := DataDirectory.plain "/data"
    let d := Daemon.single root "00000000-0000-4000-8000-000000000001" "main" [7]
    let p := transition root ⟨CATALOG_VERSION, []⟩ .drop "00000000-0000-4000-8000-000000000001"
    let cs := [.ok, .ok, .ok, .ok, .fail "Input/output error (os error 5)", .ok]
    let d' := ((daemonWorld .plain fun _ => "").run cs p d).2
    (failedSteps .plain (fun _ => "") cs p d).length = 1 ∧
      ((daemonWorld .plain fun _ => "").run cs p d).1.result? = some (.error
        ⟨"cannot preserve previous catalog: Input/output error (os error 5)"⟩) ∧
      d.entry .pending = none ∧ (d'.entry .pending).isSome = true ∧
      ((daemonWorld .plain fun _ => "").eval .ok p d').map Prod.fst = some (.error
        ⟨"cannot create /data/server-state.pending: File exists (os error 17)"⟩) := by
  decide +kernel

end

end NostdbServer
