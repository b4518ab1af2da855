import NostdbServer.Catalog.Map
import NostdbServer.Daemon.Atomicity
import NostdbServer.Daemon.Calls
import NostdbServer.Daemon.Open
import NostdbServer.Daemon.Steps

/-!
# The catalog in memory and the open handles

`Registry` is the part of the daemon's memory that the lifecycle calls keep in
step: the catalog and the map of handles, two structures that are updated one
after the other. The steps on disk fail as they like; one assumption is made
about the engine, that a Database which was closed for a drop opens again.
-/

namespace NostdbServer

open Effects World

structure Registry where
  catalog : Catalog
  locked : Bool
  databases : String → Option ManagedDatabase
  issued : Nat

def Daemon.registry (d : Daemon) : Registry :=
  ⟨d.memory.catalog, d.memory.catalogLocked, d.memory.databases, d.issued⟩

/-- What a step makes of the registry, whatever its answer is. -/
def DaemonOp.registers : DaemonOp → Registry → Registry
  | .lockCatalog, v => { v with locked := true }
  | .unlockCatalog, v => { v with locked := false }
  | .writeCatalog catalog, v => { v with catalog }
  | .insertHandle handle, v =>
    { v with databases := Function.update v.databases handle.id (some handle) }
  | .removeHandle id, v => { v with databases := Function.update v.databases id none }
  | .newId, v => { v with issued := v.issued + 1 }
  | _, v => v

/-- A step that leaves the registry alone. -/
def DaemonOp.Unregistered : DaemonOp → Prop
  | .lockCatalog | .unlockCatalog | .writeCatalog _ | .insertHandle _ | .removeHandle _ | .newId =>
    False
  | _ => True

theorem DaemonOp.Unregistered.registers {o : DaemonOp} (h : o.Unregistered) (v : Registry) :
    o.registers v = v := by
  cases o <;> first | rfl | exact h.elim

namespace Daemon

variable {d d' : Daemon}

theorem registry_putSite {id : String} {s : Site} : (d.putSite id s).registry = d.registry := by
  simp only [registry, memory_putSite, issued_putSite]

theorem step_registry {o : DaemonOp} {ans : o.Ans} (h : step E uuids o c d = some (ans, d')) :
    d'.registry = o.registers d.registry := by
  cases o with
  | root o =>
    have h : rootFiles.step o c d = (ans, d') := Option.some.inj h
    have hkept : (rootFiles.step o c d).2.registry = d.registry :=
      Volume.step_preserves (P := fun t : Daemon => t.registry = d.registry) (fun _ _ _ h => h) o rfl
    rwa [h] at hkept
  | createDir p =>
    have h := (Option.some.inj h).symm
    unfold createDir at h
    split at h <;> cases h <;> rfl
  | removeDir p =>
    have h := (Option.some.inj h).symm
    unfold removeDir at h
    split at h
    · cases h
      rfl
    · cases h
      rfl
    · cases h
      rfl
    · split at h <;> cases h <;> rfl
  | readDatabases =>
    have h := (Option.some.inj h).symm
    unfold readDatabases at h
    split at h <;> cases h <;> rfl
  | createDatabase id =>
    have h := (Option.some.inj h).symm
    unfold createDatabase at h
    split at h
    · cases h
      rfl
    · split at h
      · cases h
        rfl
      · cases h
        exact registry_putSite
    · cases h
      rfl
  | storage id o =>
    obtain ⟨r, -, hr⟩ := Option.map_eq_some_iff.mp h
    cases hr
    exact registry_putSite
  | lockCatalog | lockDatabases | readHandle _ =>
    simp only [step] at h
    split at h
    · cases h
    · cases h
      rfl
  | isDir _ | newId | unlockCatalog | readCatalog | writeCatalog _ | unlockDatabases | getHandle _
  | insertHandle _ | removeHandle _ | newHandle _ _ =>
    cases h
    rfl

end Daemon

-- ---------------------------------------------------------------------------
-- Programs by what they do to the registry
-- ---------------------------------------------------------------------------

/-- `p` from a daemon with the registry `v`, in the runs whose events are all
`ok`; it can be stopped in `C` only. -/
abbrev Registers (E : Engine) (uuids : Nat → String) (ok : Event daemon → Bool)
    (C : Registry → Prop) (p : Prog daemon ε α) (v : Registry) (Q : α → Registry → Prop)
    (F : ε → Registry → Prop) : Prop :=
  ((daemonWorld E uuids).heeding ok).Exec (fun _ _ => True) Daemon.registry C p v Q F

namespace Registers

variable {E : Engine} {uuids : Nat → String} {ok : Event daemon → Bool} {C : Registry → Prop}
  {v : Registry} {Q : β → Registry → Prop} {F : ε → Registry → Prop} {id : String}

theorem step {o : daemon.Op} {next : daemon.Ans o → Prog daemon ε β} (hc : C v)
    (h : ∀ d c ans t, d.registry = v → Daemon.step E uuids o c d = some (ans, t) →
      ok ⟨o, ans⟩ = true → Registers E uuids ok C (next ans) (DaemonOp.registers o v) Q F) :
    Registers E uuids ok C (.op o next) v Q F := by
  refine Exec.op hc ?_
  rintro d rfl c - ans t hs
  obtain ⟨hs, hok⟩ := step_heeding.mp hs
  rw [Daemon.step_registry hs]
  exact h d c ans t rfl hs hok

/-- A step whose answer does not matter. -/
theorem op {o : daemon.Op} {next : daemon.Ans o → Prog daemon ε β} (hc : C v)
    (h : ∀ ans, Registers E uuids ok C (next ans) (DaemonOp.registers o v) Q F) :
    Registers E uuids ok C (.op o next) v Q F :=
  step hc fun _ _ ans _ _ _ _ => h ans

theorem pathExists {p : RootPath} {k : Bool → Prog daemon ε β} (hc : C v)
    (h : ∀ b, Registers E uuids ok C (k b) v Q F) :
    Registers E uuids ok C ((DaemonOp.pathExists p).bind k) v Q F := op hc h

theorem readCatalog {k : Catalog → Prog daemon ε β} (hc : C v)
    (h : Registers E uuids ok C (k v.catalog) v Q F) :
    Registers E uuids ok C ((Prog.call (S := daemon) .readCatalog).bind k) v Q F := by
  refine step hc ?_
  rintro d c ans t rfl hs -
  cases hs
  exact h

theorem getHandle {k : Option ManagedDatabase → Prog daemon ε β} (hc : C v)
    (h : Registers E uuids ok C (k (v.databases id)) v Q F) :
    Registers E uuids ok C ((Prog.call (S := daemon) (.getHandle id)).bind k) v Q F := by
  refine step hc ?_
  rintro d c ans t rfl hs -
  cases hs
  exact h

theorem newId {k : String → Prog daemon ε β} (hc : C v)
    (h : Registers E uuids ok C (k (uuids v.issued)) { v with issued := v.issued + 1 } Q F) :
    Registers E uuids ok C ((Prog.call (S := daemon) .newId).bind k) v Q F := by
  refine step hc ?_
  rintro d c ans t rfl hs -
  cases hs
  exact h

/-- A step of the program's own, whose answer does not matter. -/
theorem call {o : daemon.Op} {k : daemon.Ans o → Prog daemon ε β} (hc : C v)
    (h : ∀ ans, Registers E uuids ok C (k ans) (DaemonOp.registers o v) Q F) :
    Registers E uuids ok C ((Prog.call o).bind k) v Q F := op hc h

theorem openDatabase {k : Except String Database → Prog daemon ε β} (hc : C v)
    (hopen : ∀ database, Registers E uuids ok C (k (.ok database)) v Q F)
    (hfail : ∀ e, ok ⟨.storage id (.openDatabase .database), .error e⟩ = true →
      Registers E uuids ok C (k (.error e)) v Q F) :
    Registers E uuids ok C
      ((inside id (.call (S := storage) (.openDatabase .database))).bind k) v Q F := by
  refine step hc ?_
  rintro d c (e | database) t - - hok
  · exact hfail e hok
  · exact hopen database

theorem unregistered {p : Prog daemon ε α} (hp : p.Only DaemonOp.Unregistered) (hc : C v) :
    Registers E uuids ok C p v (fun _ w => w = v) (fun _ w => w = v) := by
  induction p with
  | pure a => exact Exec.pure rfl
  | fail e => exact Exec.fail rfl
  | op o next ih =>
    refine op hc fun ans => ?_
    rw [DaemonOp.Unregistered.registers hp.1]
    exact ih ans (hp.2 ans)

theorem withCatalog {body : Catalog → Prog daemon ε β} (hc : C v)
    (hlocked : ∀ w : Registry, w.locked = true → C w)
    (h : Registers E uuids ok C (body v.catalog) { v with locked := true }
      (fun a w => w.locked = true ∧ Q a { w with locked := false })
      (fun e w => w.locked = true ∧ F e { w with locked := false })) :
    Registers E uuids ok C (withCatalog body) v Q F := by
  refine op hc fun _ => readCatalog (hlocked _ rfl) (Exec.attempt (h.mono (fun _ h => h) ?_ ?_))
  · rintro a w ⟨hw, hq⟩
    exact op (hlocked w hw) fun _ => Exec.pure hq
  · rintro e w ⟨hw, hf⟩
    exact op (hlocked w hw) fun _ => Exec.fail hf

theorem withDatabases {body : Prog daemon ε β} (hc : C v)
    (h : Registers E uuids ok C body v (fun a w => C w ∧ Q a w) (fun e w => C w ∧ F e w)) :
    Registers E uuids ok C (withDatabases body) v Q F := by
  refine op hc fun _ => Exec.attempt (h.mono (fun _ h => h) ?_ ?_)
  · rintro a w ⟨hw, hq⟩
    exact op hw fun _ => Exec.pure hq
  · rintro e w ⟨hw, hf⟩
    exact op hw fun _ => Exec.fail hf

end Registers

-- ---------------------------------------------------------------------------
-- Transitions
-- ---------------------------------------------------------------------------

section
variable {E : Engine} {uuids : Nat → String} {ok : Event daemon → Bool} {root : DataDirectory}
  {C : Registry → Prop} {v w : Registry}

theorem writeJsonNew_unregistered {p : RootPath} {bytes : Bytes} :
    (writeJsonNew root p bytes).Only DaemonOp.Unregistered := by
  refine Prog.Only.step trivial ?_
  rintro ((_ | _) | _)
  · trivial
  · refine Prog.Only.step trivial ?_
    rintro (_ | _)
    · dsimp only
      split <;> trivial
    · trivial
  · trivial

theorem installPending_unregistered : (installPending root false).Only DaemonOp.Unregistered := by
  refine Prog.Only.step trivial ?_
  rintro (_ | _)
  · exact Prog.Only.step trivial fun _ => Prog.Only.step trivial fun _ => trivial
  · have hsync : syncParent.Only DaemonOp.Unregistered := by
      refine Prog.Only.step trivial ?_
      rintro (_ | _) <;> trivial
    refine hsync.attempt.bind ?_
    rintro (_ | _)
    · exact Prog.Only.step trivial fun _ => Prog.Only.step trivial fun _ => Prog.Only.step trivial
        fun _ => trivial
    · exact (removeIfExists_only trivial).attempt.bind fun _ => trivial

theorem writeAtomic_unregistered {next : Catalog} :
    (writeAtomic root next false).Only DaemonOp.Unregistered := by
  refine writeJsonNew_unregistered.bind fun _ => (removeIfExists_only trivial).bind fun _ =>
    Prog.Only.step trivial ?_
  rintro (_ | _)
  · trivial
  · exact installPending_unregistered

theorem transition_registers {next : Catalog} {kind : OperationKind} {id : String} (hc : C v) :
    Registers E uuids ok C (transition root next kind id) v
      (fun _ w => w = { v with catalog := next }) (fun _ w => w = v) := by
  unfold transition
  simp only [Prog.bind_eq]
  cases validateCatalog next with
  | error e => exact Exec.fail rfl
  | ok _ =>
    simp only [Prog.ofExcept_ok, Prog.bind_pure]
    refine Registers.readCatalog hc (Exec.seq (Registers.unregistered writeJsonNew_unregistered hc)
      ?_ fun _ _ hw => hw)
    rintro _ _ rfl
    refine Exec.attempt ((Registers.unregistered writeAtomic_unregistered hc).mono (fun _ h => h)
      ?_ ?_)
    · rintro _ _ rfl
      exact Registers.op hc fun _ => Exec.pure rfl
    · rintro e _ rfl
      exact Registers.op hc fun _ => Exec.fail rfl

theorem finishTransition_registers {k : Except ServerError Unit → Prog daemon ε α}
    {Q : α → Registry → Prop} {F : ε → Registry → Prop} (hc : C v)
    (h : ∀ r, Registers E uuids ok C (k r) v Q F) :
    Registers E uuids ok C ((Prog.attempt (finishTransition root)).bind k) v Q F := by
  refine Exec.attempt ((Registers.unregistered (removeIfExists_only trivial) hc).mono
    (fun _ h => h) ?_ ?_)
  · rintro _ _ rfl
    exact h _
  · rintro _ _ rfl
    exact h _

-- ---------------------------------------------------------------------------
-- The three calls
-- ---------------------------------------------------------------------------

structure Registry.Agrees (v : Registry) : Prop where
  valid : validateCatalog v.catalog = .ok ()
  handles : ∀ id, (v.databases id).isSome = true ↔ id ∈ v.catalog.ids
  keyed : ∀ id handle, v.databases id = some handle → handle.id = id

/-- Whoever finds the catalog lock free finds the registry in agreement. -/
def Registry.Guarded (v : Registry) : Prop := v.locked = false → v.Agrees

theorem guarded_of_locked (h : v.locked = true) : v.Guarded := by
  intro hv
  cases h.symm.trans hv

def Registry.added (root : DataDirectory) (v : Registry) (entry : CatalogDatabase) : Registry :=
  { v with
    catalog := v.catalog.add entry
    databases := Function.update v.databases entry.id (some (root.managed entry.id)) }

def Registry.dropped (v : Registry) (id : String) : Registry :=
  { v with catalog := v.catalog.remove id, databases := Function.update v.databases id none }

def Registry.renamed (v : Registry) (id newName : String) : Registry :=
  { v with catalog := v.catalog.rename id newName }

theorem createDatabase_registers {name : String} (hv : v.Agrees) (hfree : v.locked = false) :
    Registers E uuids ok Registry.Guarded (createDatabase root name) v
      (fun s w => s = ⟨uuids v.issued, name, "ready"⟩ ∧ validDatabaseName name = true ∧
        name ∉ v.catalog.names ∧
        w = { v.added root ⟨uuids v.issued, name, "ready"⟩ with issued := v.issued + 1 })
      (fun _ w => w = { v with issued := w.issued }) := by
  have hguard : v.Guarded := fun _ => hv
  unfold createDatabase
  split
  · exact Exec.fail rfl
  rename_i hname
  refine Registers.withCatalog hguard (fun _ => guarded_of_locked) ?_
  have hlocked : ∀ n, Registry.Guarded { v with locked := true, issued := n } :=
    fun _ => guarded_of_locked rfl
  split
  · exact Exec.fail ⟨rfl, by rw [← hfree]⟩
  rename_i hnew
  simp only [Prog.bind_eq]
  refine Registers.newId (hlocked _) ?_
  refine Registers.op (hlocked _) ?_
  rintro (_ | _)
  · exact Exec.fail ⟨rfl, by rw [← hfree]; rfl⟩
  refine Registers.op (hlocked _) ?_
  rintro (_ | database)
  · exact Registers.op (hlocked _) fun _ => Exec.fail ⟨rfl, by rw [← hfree]; rfl⟩
  refine Exec.attempt ((transition_registers (hlocked _)).mono (fun _ h => h) ?_ ?_)
  · rintro _ _ rfl
    refine Exec.bind (Registers.withDatabases (guarded_of_locked rfl) ?_)
    refine Registers.op (guarded_of_locked rfl) fun _ => Registers.op (guarded_of_locked rfl)
      fun _ => Exec.pure ⟨guarded_of_locked rfl, ?_⟩
    refine finishTransition_registers (guarded_of_locked rfl) fun _ => Exec.pure ⟨rfl, rfl, ?_, ?_, ?_⟩
    · simpa using hname
    · simpa [Catalog.names] using hnew
    · rw [← hfree]
      rfl
  · rintro _ _ rfl
    exact Registers.op (hlocked _) fun _ => Exec.fail ⟨rfl, by rw [← hfree]; rfl⟩

theorem renameDatabase_registers {name newName : String} (hv : v.Agrees) (hfree : v.locked = false) :
    Registers E uuids ok Registry.Guarded (renameDatabase root name newName) v
      (fun s w => validDatabaseName newName = true ∧ newName ∉ v.catalog.names ∧
        ∃ existing, v.catalog.byName? name = some existing ∧
          s = { existing with name := newName }.summary ∧ w = v.renamed existing.id newName)
      (fun _ w => w = v) := by
  have hlocked : Registry.Guarded { v with locked := true } := guarded_of_locked rfl
  unfold renameDatabase
  split
  · exact Exec.fail rfl
  rename_i hname
  refine Registers.withCatalog (fun _ => hv) (fun _ => guarded_of_locked) ?_
  split
  · exact Exec.fail ⟨rfl, by rw [← hfree]⟩
  rename_i hnew
  split
  · exact Exec.fail ⟨rfl, by rw [← hfree]⟩
  rename_i existing hexisting
  simp only [Prog.bind_eq]
  refine Exec.attempt ((transition_registers hlocked).mono (fun _ h => h) ?_ ?_)
  · rintro _ _ rfl
    refine finishTransition_registers (guarded_of_locked rfl) fun _ => Exec.pure
      ⟨rfl, ?_, ?_, existing, hexisting, rfl, ?_⟩
    · simpa using hname
    · simpa [Catalog.names] using hnew
    · rw [← hfree]
      rfl
  · rintro _ _ rfl
    exact Exec.fail ⟨rfl, by rw [← hfree]⟩

theorem inside_unregistered {id : String} {p : Prog storage ε α} :
    (inside id p).Only DaemonOp.Unregistered :=
  Prog.Only.lift (T := daemon) (Prog.Only.of_forall (fun _ => trivial) p)

/-- An event that is no failure to open a Database file. -/
def reopens : Event daemon → Bool
  | ⟨.storage _ (.openDatabase .database), ans⟩ => Except.isOk ans
  | _ => true

theorem unregister_registers {id : String} (hc : ∀ databases, C { v with databases }) :
    Registers E uuids ok C (withDatabases (unregister id)) v
      (fun handle w => v.databases id = some handle ∧
        w = { v with databases := Function.update v.databases id none })
      (fun _ w => w = v) := by
  refine Registers.withDatabases (hc _) ?_
  unfold unregister
  simp only [Prog.bind_eq]
  refine Registers.getHandle (hc _) ?_
  split
  · exact Exec.fail ⟨hc _, rfl⟩
  rename_i handle hhandle
  refine Exec.seq (Registers.unregistered inside_unregistered (hc _)) ?_ ?_
  · rintro _ _ rfl
    exact Registers.op (hc _) fun _ => Exec.pure ⟨hc _, hhandle, rfl⟩
  · rintro _ _ rfl
    exact ⟨hc _, rfl⟩

theorem putBack_registers {id : String} {database : Database} (hc : C v) :
    Registers E uuids ok C (inside id (withGuard (ε := ProtocolFailure)
      (.call (S := storage) (.put database)))) v (fun _ w => w = v) (fun _ _ => False) :=
  Registers.op hc fun _ => Registers.op hc fun _ => Registers.op hc fun _ => Exec.pure rfl

/-- The handle is back where it was. -/
theorem reopenUndropped_registers {handle : ManagedDatabase} {error : ServerError}
    (hc : ∀ databases, C { v with databases }) :
    Registers E uuids reopens C (reopenUndropped handle error) v (fun _ _ => False)
      (fun _ w => w = { v with databases := Function.update v.databases handle.id (some handle) }) := by
  unfold reopenUndropped
  simp only [Prog.bind_eq]
  refine Registers.openDatabase (hc _) (fun reopened => ?_) fun _ hok => by cases hok
  refine Exec.seq (putBack_registers (hc _)) ?_ fun _ _ h => h.elim
  rintro _ _ rfl
  refine Exec.bind (Registers.withDatabases (hc _) ?_)
  exact Registers.op (hc _) fun _ => Exec.pure ⟨hc _, Exec.fail rfl⟩

theorem dropDatabase_registers {name confirmName : String} (hv : v.Agrees)
    (hfree : v.locked = false) :
    Registers E uuids reopens Registry.Guarded (dropDatabase root name confirmName) v
      (fun s w => name = confirmName ∧ ∃ entry, v.catalog.byName? name = some entry ∧
        s = entry.summary ∧ w = v.dropped entry.id)
      (fun _ w => w = v ∨ ∃ entry, v.catalog.byName? name = some entry ∧ w = v.dropped entry.id) := by
  have hlocked : ∀ databases, Registry.Guarded { v with locked := true, databases } :=
    fun _ => guarded_of_locked rfl
  unfold dropDatabase
  split
  · exact Exec.fail (.inl rfl)
  rename_i hconfirm
  refine Registers.withCatalog (fun _ => hv) (fun _ => guarded_of_locked) ?_
  have hback : { v with locked := false } = v := by rw [← hfree]
  split
  · exact Exec.fail ⟨rfl, .inl hback⟩
  rename_i entry hentry
  simp only [Prog.bind_eq]
  refine Registers.pathExists (hlocked _) fun exists_ => ?_
  split
  · exact Exec.fail ⟨rfl, .inl hback⟩
  refine Exec.seq (unregister_registers hlocked) ?_ ?_
  · rintro handle _ ⟨hhandle, rfl⟩
    refine Exec.attempt ((transition_registers (hlocked _)).mono (fun _ h => h) ?_ ?_)
    · rintro _ _ rfl
      refine Registers.op (guarded_of_locked rfl) ?_
      rintro (_ | _)
      · exact Exec.fail ⟨rfl, .inr ⟨entry, hentry, by rw [← hfree]; rfl⟩⟩
      · exact finishTransition_registers (guarded_of_locked rfl) fun _ =>
          Exec.pure ⟨rfl, not_not.mp hconfirm, entry, hentry, rfl, by rw [← hfree]; rfl⟩
    · rintro error _ rfl
      refine (reopenUndropped_registers fun _ => hlocked _).mono (fun _ h => h)
        (fun _ _ h => h.elim) ?_
      rintro _ _ rfl
      refine ⟨rfl, .inl ?_⟩
      have hkey : handle.id = entry.id := hv.keyed _ _ hhandle
      dsimp only
      rw [hkey, ← hhandle, Function.update_idem, Function.update_eq_self, ← hfree]
  · rintro _ _ rfl
    exact ⟨rfl, .inl hback⟩

end

-- ---------------------------------------------------------------------------
-- Agreement is kept
-- ---------------------------------------------------------------------------

section
variable {root : DataDirectory} {v : Registry} {entry : CatalogDatabase} {id name newName : String}

theorem Registry.Agrees.catalog (h : v.Agrees) : v.catalog.Valid := validateCatalog_ok.mp h.valid

theorem Registry.Agrees.added (h : v.Agrees) (hvalid : (v.catalog.add entry).Valid) :
    (v.added root entry).Agrees where
  valid := validateCatalog_ok.mpr hvalid
  handles i := by
    obtain ⟨id, name, state⟩ := entry
    simp only [Registry.added, Function.update_apply, mem_ids_add, ← h.handles]
    by_cases hi : i = id <;> simp [hi]
  keyed i handle hh := by
    simp only [Registry.added, Function.update_apply] at hh
    split at hh
    · rename_i hi
      cases hh
      exact hi.symm
    · exact h.keyed i handle hh

theorem Registry.Agrees.renamed (h : v.Agrees) (hname : validDatabaseName newName = true)
    (hnew : newName ∉ v.catalog.names) : (v.renamed id newName).Agrees where
  valid := validateCatalog_ok.mpr (h.catalog.rename hname hnew)
  handles i := (h.handles i).trans Catalog.ids_rename.mem_iff.symm
  keyed := h.keyed

theorem Registry.Agrees.dropped (h : v.Agrees) : (v.dropped id).Agrees where
  valid := validateCatalog_ok.mpr h.catalog.remove
  handles i := by
    simp only [Registry.dropped, Function.update_apply, mem_ids_remove, ← h.handles]
    by_cases hi : i = id <;> simp [hi]
  keyed i handle hh := by
    simp only [Registry.dropped, Function.update_apply] at hh
    split at hh
    · cases hh
    · exact h.keyed i handle hh

end

-- ---------------------------------------------------------------------------
-- Opening the daemon
-- ---------------------------------------------------------------------------

section
variable {E : Engine} {uuids : Nat → String} {ok : Event daemon → Bool} {root : DataDirectory}
  {C : Registry → Prop} {v : Registry}

theorem DaemonOp.Sweeps.unregistered {o : DaemonOp} (h : o.Sweeps) : o.Unregistered := by
  cases o <;> trivial

theorem sweeps_registers {p : Prog daemon ε α} (hp : p.Only DaemonOp.Sweeps) (hc : C v) :
    Registers E uuids ok C p v (fun _ w => w = v) (fun _ w => w = v) :=
  Registers.unregistered (hp.mono fun _ ho => ho.unregistered) hc

theorem recoverEntries_unregistered (names : List String) :
    (recoverEntries root names).Only DaemonOp.Unregistered := by
  induction names with
  | nil => trivial
  | cons name rest ih =>
    refine Prog.Only.step trivial ?_
    rintro (_ | _)
    · exact ih
    · exact inside_unregistered.bind fun _ => ih

theorem recoverSnapshotOperations_unregistered :
    (recoverSnapshotOperations root).Only DaemonOp.Unregistered := by
  refine Prog.Only.step trivial ?_
  rintro (_ | names)
  · trivial
  · exact recoverEntries_unregistered names

theorem recoverOrphans_unregistered {catalog : Catalog} :
    (recoverOrphans catalog).Only DaemonOp.Unregistered := by
  refine Prog.Only.step trivial ?_
  rintro (_ | names)
  · trivial
  · exact (quarantineOrphans_sweeps _ _).mono fun _ ho => ho.unregistered

/-- A catalog that is loaded has passed the check. -/
theorem load_registers (hc : C v) :
    Registers E uuids ok C (load root) v (fun c w => validateCatalog c = .ok () ∧ w = v)
      (fun _ _ => True) := by
  unfold load
  simp only [Prog.bind_eq]
  refine Exec.seq (sweeps_registers recoverAtomicState_sweeps hc) ?_ fun _ _ _ => trivial
  rintro _ _ rfl
  refine Exec.seq (sweeps_registers readCatalogFile_sweeps hc) ?_ fun _ _ _ => trivial
  rintro catalog _ rfl
  cases hvalid : validateCatalog catalog with
  | error e => exact Exec.fail trivial
  | ok _ =>
    rw [Prog.ofExcept_ok, Prog.bind_pure]
    refine Exec.seq (sweeps_registers recoverOperation_sweeps hc) ?_ fun _ _ _ => trivial
    rintro _ _ rfl
    refine Exec.seq (sweeps_registers (validateStorage_sweeps _) hc) ?_ fun _ _ _ => trivial
    rintro _ _ rfl
    refine Exec.seq (Registers.unregistered recoverOrphans_unregistered hc) ?_ fun _ _ _ => trivial
    rintro _ _ rfl
    exact Exec.pure ⟨hvalid, rfl⟩

def Registry.opened (root : DataDirectory) (v : Registry) (ids : List String) : Registry :=
  { v with databases := fun id => if id ∈ ids then some (root.managed id) else v.databases id }

theorem openDatabases_registers (databases : List CatalogDatabase) (hc : ∀ w, C w) :
    Registers E uuids ok C (openDatabases E root databases) v
      (fun _ w => w = v.opened root (databases.map (·.id))) (fun _ _ => True) := by
  induction databases generalizing v with
  | nil => exact Exec.pure (by simp [Registry.opened])
  | cons entry rest ih =>
    unfold openDatabases
    simp only [Prog.bind_eq]
    refine Registers.openDatabase (hc _) (fun database => ?_) fun _ _ => Exec.fail trivial
    dsimp only
    split
    · exact Exec.fail trivial
    · exact Exec.fail trivial
    · refine Registers.call (hc _) fun _ => Registers.call (hc _) fun _ =>
        ih.mono (fun _ h => h) ?_ fun _ _ h => h
      rintro _ _ rfl
      simp only [Registry.opened, DaemonOp.registers, DataDirectory.managed, List.map_cons,
        List.mem_cons, Function.update_apply]
      congr 1
      funext id
      by_cases hid : id = entry.id <;> by_cases hrest : id ∈ rest.map (·.id) <;> simp [hid, hrest]

theorem openDaemon_registers {credentials : Except ServerError Unit}
    (hv : v.databases = fun _ => none) :
    Registers E uuids ok (fun _ => True) (openDaemon E root credentials) v
      (fun _ w => w.Agrees ∧ w.locked = v.locked) (fun _ _ => True) := by
  unfold openDaemon
  simp only [Prog.bind_eq]
  refine Exec.seq (Registers.unregistered recoverSnapshotOperations_unregistered trivial) ?_
    fun _ _ _ => trivial
  rintro _ _ rfl
  cases credentials with
  | error e => exact Exec.fail trivial
  | ok _ =>
    rw [Prog.ofExcept_ok, Prog.bind_pure]
    refine Exec.seq (load_registers trivial) ?_ fun _ _ _ => trivial
    rintro catalog w ⟨hvalid, rfl⟩
    refine Registers.call trivial fun _ => ?_
    refine Exec.seq (openDatabases_registers _ fun _ => trivial) ?_ fun _ _ _ => trivial
    rintro _ _ rfl
    refine Exec.pure ⟨⟨hvalid, fun id => ?_, fun id handle hh => ?_⟩, rfl⟩
    · by_cases hid : id ∈ catalog.ids <;>
        simp_all [Registry.opened, DaemonOp.registers, Catalog.ids]
    · simp only [Registry.opened, DaemonOp.registers, hv] at hh
      split at hh <;> cases hh
      rfl

-- ---------------------------------------------------------------------------
-- Sequences of calls
-- ---------------------------------------------------------------------------

/-- The identifier that is drawn next is none of the catalog's. -/
structure DrawsNew (uuids : Nat → String) (d : Daemon) : Prop where
  new : uuids d.issued ∉ d.memory.catalog.ids
  parses : parsesAsUuid (uuids d.issued) = true

/-- A daemon that was opened on any data directory and has answered lifecycle
calls since. -/
inductive InUse (E : Engine) (uuids : Nat → String) (root : DataDirectory) : Daemon → Prop
  | opened {d : Daemon} {catalog : Catalog} (credentials : Except ServerError Unit)
      (cs : List Outcome) (started : d.memory = Daemon.idle)
      (ends : ((daemonWorld E uuids).run cs (openDaemon E root credentials) d).1.result? =
        some (.ok catalog)) :
      InUse E uuids root ((daemonWorld E uuids).run cs (openDaemon E root credentials) d).2
  | called {d : Daemon} {r : Except ProtocolFailure DatabaseSummary} (call : LifecycleCall)
      (cs : List Outcome) (before : InUse E uuids root d) (draws : DrawsNew uuids d)
      (reopened : ∀ e ∈ (daemonWorld E uuids).trace cs (call.program root) d, reopens e = true)
      (ends : ((daemonWorld E uuids).run cs (call.program root) d).1.result? = some r) :
      InUse E uuids root ((daemonWorld E uuids).run cs (call.program root) d).2

/-- The catalog a call hands to `transition`, if it comes to that; `id` is the
identifier drawn next. -/
def LifecycleCall.next? (c : Catalog) (id : String) : LifecycleCall → Option Catalog
  | .create name =>
    if validDatabaseName name ∧ name ∉ c.names then some (c.add ⟨id, name, "ready"⟩) else none
  | .rename name newName =>
    if validDatabaseName newName ∧ newName ∉ c.names then
      (c.byName? name).map fun existing => c.rename existing.id newName
    else none
  | .drop name confirmName =>
    if name = confirmName then (c.byName? name).map fun entry => c.remove entry.id else none

/-- What a call does to the map from names to identifiers, by its reply. -/
def LifecycleCall.Maps (c c' : Catalog) :
    LifecycleCall → Except ProtocolFailure DatabaseSummary → Prop
  | .create name, .ok summary =>
    summary.id ∉ c.ids ∧ c.idOf? name = none ∧
      c'.idOf? = Function.update c.idOf? name (some summary.id)
  | .rename name newName, .ok summary =>
    c.idOf? name = some summary.id ∧ c.idOf? newName = none ∧
      c'.idOf? = Function.update (Function.update c.idOf? name none) newName (some summary.id)
  | .drop name _, .ok summary =>
    c.idOf? name = some summary.id ∧ c'.idOf? = Function.update c.idOf? name none
  -- The storage of a dropped Database is put away after the commit.
  | .drop name _, .error _ => c' = c ∨ c'.idOf? = Function.update c.idOf? name none
  | .create _, .error _ | .rename _ _, .error _ => c' = c

theorem LifecycleCall.next?_valid {c next : Catalog} {id : String} (call : LifecycleCall)
    (h : c.Valid) (hid : id ∉ c.ids) (hparse : parsesAsUuid id = true)
    (hnext : call.next? c id = some next) : next.Valid := by
  cases call with
  | create name =>
    simp only [next?] at hnext
    split at hnext
    · rename_i hname
      cases hnext
      exact h.add ⟨hparse, hname.1, rfl⟩ hid hname.2
    · cases hnext
  | rename name newName =>
    simp only [next?] at hnext
    split at hnext
    · rename_i hname
      obtain ⟨existing, -, rfl⟩ := Option.map_eq_some_iff.mp hnext
      exact h.rename hname.1 hname.2
    · cases hnext
  | drop name confirmName =>
    simp only [next?] at hnext
    split at hnext
    · obtain ⟨entry, -, rfl⟩ := Option.map_eq_some_iff.mp hnext
      exact h.remove
    · cases hnext

/-- One call, from a registry in agreement. -/
theorem LifecycleCall.registers (call : LifecycleCall) (hv : v.Agrees) (hfree : v.locked = false)
    (hnew : uuids v.issued ∉ v.catalog.ids) (hparse : parsesAsUuid (uuids v.issued) = true) :
    Registers E uuids reopens Registry.Guarded (call.program root) v
      (fun s w => w.locked = false ∧ w.Agrees ∧ call.Maps v.catalog w.catalog (.ok s) ∧
        call.next? v.catalog (uuids v.issued) = some w.catalog)
      (fun e w => w.locked = false ∧ w.Agrees ∧ call.Maps v.catalog w.catalog (.error e)) := by
  have hvalid : ∀ next, call.next? v.catalog (uuids v.issued) = some next → next.Valid :=
    fun _ => call.next?_valid hv.catalog hnew hparse
  cases call with
  | create name =>
    refine (createDatabase_registers hv hfree).mono (fun _ h => h) ?_ ?_
    · rintro s w ⟨rfl, hname, habsent, rfl⟩
      have hnext : (LifecycleCall.create name).next? v.catalog (uuids v.issued) =
          some (v.catalog.add ⟨uuids v.issued, name, "ready"⟩) := if_pos ⟨hname, habsent⟩
      have hadd := hvalid _ hnext
      have hagrees : (v.added root ⟨uuids v.issued, name, "ready"⟩).Agrees := hv.added hadd
      obtain ⟨hcheck, hhandles, hkeyed⟩ := hagrees
      exact ⟨hfree, ⟨hcheck, hhandles, hkeyed⟩, ⟨hnew, Catalog.idOf?_eq_none habsent,
        hv.catalog.idOf?_add hadd habsent⟩, hnext⟩
    · intro e w hw
      rw [hw]
      exact ⟨hfree, ⟨hv.valid, hv.handles, hv.keyed⟩, rfl⟩
  | rename name newName =>
    refine (renameDatabase_registers hv hfree).mono (fun _ h => h) ?_ ?_
    · rintro s w ⟨hname, habsent, existing, hexisting, rfl, rfl⟩
      have hnext : (LifecycleCall.rename name newName).next? v.catalog (uuids v.issued) =
          some (v.catalog.rename existing.id newName) := by
        rw [next?, if_pos ⟨hname, habsent⟩, hexisting, Option.map_some]
      exact ⟨hfree, hv.renamed hname habsent, ⟨by rw [Catalog.idOf?, hexisting]; rfl,
        Catalog.idOf?_eq_none habsent, hv.catalog.idOf?_rename hexisting habsent (hvalid _ hnext)⟩,
        hnext⟩
    · rintro e w rfl
      exact ⟨hfree, hv, rfl⟩
  | drop name confirmName =>
    refine (dropDatabase_registers hv hfree).mono (fun _ h => h) ?_ ?_
    · rintro s w ⟨hconfirm, entry, hentry, rfl, rfl⟩
      have hnext : (LifecycleCall.drop name confirmName).next? v.catalog (uuids v.issued) =
          some (v.catalog.remove entry.id) := by
        rw [next?, if_pos hconfirm, hentry, Option.map_some]
      exact ⟨hfree, hv.dropped, ⟨by rw [Catalog.idOf?, hentry]; rfl,
        hv.catalog.idOf?_remove hentry⟩, hnext⟩
    · rintro e w (rfl | ⟨entry, hentry, rfl⟩)
      · exact ⟨hfree, hv, .inl rfl⟩
      · exact ⟨hfree, hv.dropped, .inr (hv.catalog.idOf?_remove hentry)⟩

theorem InUse.agrees {d : Daemon} (h : InUse E uuids root d) :
    d.registry.Agrees ∧ d.registry.locked = false := by
  induction h with
  | @opened d catalog credentials cs started ends =>
    have hopen : Registers E uuids (fun _ => true) (fun _ => True) (openDaemon E root credentials)
        d.registry (fun _ w => w.Agrees ∧ w.locked = d.registry.locked) (fun _ _ => True) :=
      openDaemon_registers (by rw [Daemon.registry, started]; rfl)
    have hall : ∀ e ∈ (daemonWorld E uuids).trace cs (openDaemon E root credentials) d,
        (fun _ : Event daemon => true) e = true := fun _ _ => rfl
    rw [← (daemonWorld E uuids).run_heeding hall] at ends ⊢
    obtain ⟨hagrees, hlocked⟩ := hopen.run rfl cs (fun _ _ _ => trivial) ends
    exact ⟨hagrees, hlocked.trans (by rw [Daemon.registry, started]; rfl)⟩
  | @called d r call cs before draws reopened ends ih =>
    rw [← (daemonWorld E uuids).run_heeding reopened] at ends ⊢
    have hcall := (call.registers ih.1 ih.2 draws.new draws.parses).run rfl cs
      (fun _ _ _ => trivial) ends
    cases r with
    | error e => exact ⟨hcall.2.1, hcall.1⟩
    | ok s => exact ⟨hcall.2.1, hcall.1⟩

/-- Over every sequence of lifecycle calls, the last one stopped anywhere:
whenever the catalog lock is free, the catalog is valid and the handles are
those of its Databases; every call that has returned did to the map from names
to identifiers what it was asked for, or nothing; and the catalog a call hands
to `transition` passes the check there. -/
theorem catalog_agrees_with_handles {d : Daemon} (h : InUse E uuids root d) (call : LifecycleCall)
    (draws : DrawsNew uuids d) (cs : List Outcome)
    (reopened : ∀ e ∈ (daemonWorld E uuids).trace cs (call.program root) d, reopens e = true) :
    let after := (daemonWorld E uuids).run cs (call.program root) d
    (after.2.memory.catalogLocked = false →
      validateCatalog after.2.memory.catalog = .ok () ∧
      ∀ id, (after.2.memory.databases id).isSome = true ↔ id ∈ after.2.memory.catalog.ids) ∧
    (∀ r, after.1.result? = some r → call.Maps d.memory.catalog after.2.memory.catalog r) ∧
    (∀ s, after.1.result? = some (.ok s) →
      call.next? d.memory.catalog (uuids d.issued) = some after.2.memory.catalog) ∧
    ∀ next, call.next? d.memory.catalog (uuids d.issued) = some next →
      validateCatalog next = .ok () := by
  obtain ⟨hagrees, hfree⟩ := h.agrees
  intro after
  have hafter : after = ((daemonWorld E uuids).heeding reopens).run cs (call.program root) d :=
    ((daemonWorld E uuids).run_heeding reopened).symm
  have hcall : Registers E uuids reopens Registry.Guarded (call.program root) d.registry _ _ :=
    call.registers hagrees hfree draws.new draws.parses
  refine ⟨fun hunlocked => ?_, fun r hr => ?_, fun s hs => ?_, fun next hnext => ?_⟩
  · have hcut : after.2.registry.Guarded := by
      rw [hafter]
      exact hcall.cut (fun _ _ hq _ => hq.2.1) (fun _ _ hf _ => hf.2.1) rfl cs fun _ _ _ => trivial
    exact ⟨(hcut hunlocked).valid, (hcut hunlocked).handles⟩
  · rw [hafter] at hr ⊢
    have hpost := hcall.run rfl cs (fun _ _ _ => trivial) hr
    cases r with
    | error e => exact hpost.2.2
    | ok s => exact hpost.2.2.1
  · rw [hafter] at hs ⊢
    exact (hcall.run rfl cs (fun _ _ _ => trivial) hs).2.2.2
  · exact validateCatalog_ok.mpr
      (call.next?_valid hagrees.catalog draws.new draws.parses hnext)

/-- A drop whose journal cannot be written: the Database is back. -/
theorem catalog_agrees_with_handles_drop :
    let root := DataDirectory.plain "/data"
    let uuids := fun _ : Nat => "00000000-0000-4000-8000-000000000002"
    let call := LifecycleCall.drop "main" "main"
    let cs := List.replicate 12 .ok ++ .fail "No space left on device" :: List.replicate 20 .ok
    ∃ d, InUse .plain uuids root d ∧
      let after := (daemonWorld .plain uuids).run cs (call.program root) d
      after.1.result?.isSome = true ∧ after.2.memory.catalogLocked = false ∧
        validateCatalog after.2.memory.catalog = .ok () ∧
        ∀ id, (after.2.memory.databases id).isSome = true ↔ id ∈ after.2.memory.catalog.ids := by
  intro root uuids call cs
  let start := (daemonWorld .plain uuids).run (List.replicate 40 .ok)
    (openDaemon .plain root (.ok ()))
    (Daemon.single root "00000000-0000-4000-8000-000000000001" "main" [7]).crashed
  have hcheck : (start.1.result?.any Except.isOk &&
      !start.2.memory.catalog.ids.contains (uuids start.2.issued) &&
      ((daemonWorld .plain uuids).trace cs (call.program root) start.2).all reopens &&
      ((daemonWorld .plain uuids).run cs (call.program root) start.2).1.result?.isSome &&
      !((daemonWorld .plain uuids).run cs (call.program root) start.2).2.memory.catalogLocked) = true := by
    decide +kernel
  simp only [Bool.and_eq_true, Bool.not_eq_true', List.contains_eq_mem, decide_eq_false_iff_not]
    at hcheck
  obtain ⟨⟨⟨⟨hstarts, hnew⟩, hreopened⟩, hends⟩, hfree⟩ := hcheck
  obtain ⟨r, hr, hok⟩ := (Option.any_eq_true ..).mp hstarts
  have hinUse : InUse .plain uuids root start.2 := by
    cases r with
    | error e => cases hok
    | ok catalog => exact .opened (.ok ()) (List.replicate 40 .ok) rfl hr
  obtain ⟨hagrees, -⟩ := catalog_agrees_with_handles hinUse call ⟨hnew, by decide⟩ cs
    (List.all_eq_true.mp hreopened)
  exact ⟨start.2, hinUse, hends, hfree, hagrees hfree⟩

end

end NostdbServer
