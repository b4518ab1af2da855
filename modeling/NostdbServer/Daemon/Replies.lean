import NostdbServer.Catalog.Compensation
import NostdbServer.Daemon.Atomicity
import NostdbServer.Daemon.Steps

/-!
# Replies and what was committed

A create, rename or drop call in which at most one step fails, from any state of
the data directory. `Same` and `Made` say what the call did to the catalog, in
memory and in `server-state`. The reply tells which of the two it was, but for
one failing step: once a drop is committed, its Database still has to be put
away, and a failure to do so is reported as a failure of the drop.
-/

namespace NostdbServer

open Effects World

/-- The catalog is the one from before. -/
structure Same (v w : Books) : Prop where
  catalog : w.memory.catalog = v.memory.catalog
  state : w.entry .serverState = v.entry .serverState

/-- The catalog is `c`. -/
structure Made (root : DataDirectory) (c : Catalog) (w : Books) : Prop where
  catalog : w.memory.catalog = c
  state : w.entry .serverState = some (.file (root.catalog.encode c))

/-- None of the steps that failed sets the reply apart from the catalog. -/
def Told (fs : List DaemonOp) : Prop := ∀ o ∈ fs, o.discards = false

/-- The Database of the handle is open on the content of its file, and found by
its identifier. -/
structure Serving (handle : ManagedDatabase) (content : Bytes) (v : Books) : Prop where
  registered : v.memory.databases handle.id = some handle
  opened : v.memory.handles handle.id = ⟨some ⟨content⟩, false⟩
  stored : ∃ files, v.entry (.database handle.id) = some (.directory files) ∧
    files .database = some (.file content)

section
variable {E : Engine} {uuids : Nat → String} {root : DataDirectory} {fs : List DaemonOp}
  {v w : Books} {c : Catalog} {id : String}

@[simp] theorem told_nil : Told [] := by simp [Told]

@[simp] theorem told_singleton {o : DaemonOp} : Told [o] ↔ o.discards = false := by simp [Told]

theorem leftover_state {files : CatalogFiles} {new : Entry} (o : DaemonOp) :
    (files.leftover new o).state = files.state := by
  unfold CatalogFiles.leftover
  split <;> rfl

/-- A transition replies with what it did. -/
theorem transition_replies {next : Catalog} {kind : OperationKind} :
    DoesOnce E uuids (transition root next kind id) [] v
      (fun _ fs w => Told fs ∧ Made root next w ∧
        (∀ p : RootPath, ¬ p.Own → w.entry p = v.entry p) ∧
        w.memory = { v.memory with catalog := next })
      (fun _ fs w => Told fs ∧ Same v w ∧ (∀ p : RootPath, ¬ p.Own → w.entry p = v.entry p) ∧
        w.memory = v.memory ∧ (validateCatalog next = .ok () → ∃ o, fs = [o])) := by
  refine Once.mono transition_once ?_ ?_
  · rintro _ fs _ ⟨y, rfl, ⟨rfl, hy⟩ | ⟨-, rfl, old, -, hy⟩⟩
    · exact ⟨told_nil, ⟨rfl, hy.entry (p := .serverState) trivial⟩, hy.elsewhere, rfl⟩
    · exact ⟨told_singleton.mpr rfl, ⟨rfl, hy.entry (p := .serverState) trivial⟩, hy.elsewhere, rfl⟩
  · rintro _ fs w (⟨rfl, rfl, hinvalid⟩ | ⟨-, o, rfl, ho, hw⟩)
    · exact ⟨told_nil, ⟨rfl, rfl⟩, fun _ _ => rfl, rfl, fun h => absurd h hinvalid⟩
    · refine ⟨told_singleton.mpr ho, ⟨by rw [hw.memory], ?_⟩, hw.elsewhere, hw.memory,
        fun _ => ⟨o, rfl⟩⟩
      exact (hw.entry (p := .serverState) trivial).trans (leftover_state o)

/-- The journal of a committed call goes, or stays behind. -/
theorem finishTransition_replies (hfs : Told fs) (h : Made root c v)
    {k : Except ServerError Unit → Prog daemon ProtocolFailure β}
    {Q : β → List DaemonOp → Books → Prop} {F : ProtocolFailure → List DaemonOp → Books → Prop}
    (hk : ∀ r fs w, Told fs → Made root c w → DoesOnce E uuids (k r) fs w Q F) :
    DoesOnce E uuids ((Prog.attempt (finishTransition root)).bind k) fs v Q F := by
  refine Once.attempt (Once.mono (removeIfExists_once (p := .operation) trivial (.refl v)) ?_ ?_)
  · rintro _ _ w ⟨rfl, hw⟩
    refine hk _ _ w hfs ⟨?_, (hw.entry (p := .serverState) trivial).trans h.state⟩
    rw [hw.memory]
    exact h.catalog
  · rintro _ _ w ⟨-, rfl, hw⟩
    refine hk _ _ w (told_singleton.mpr rfl)
      ⟨?_, (hw.entry (p := .serverState) trivial).trans h.state⟩
    rw [hw.memory]
    exact h.catalog

-- ---------------------------------------------------------------------------
-- Rename and create
-- ---------------------------------------------------------------------------

theorem renameDatabase_once {name newName : String} :
    DoesOnce E uuids (renameDatabase root name newName) [] v
      (fun _ fs w => Told fs ∧ ∃ entry, v.memory.catalog.byName? name = some entry ∧
        v.memory.catalog.databases.any (·.name = newName) = false ∧
        Made root (v.memory.catalog.rename entry.id newName) w)
      (fun _ fs w => Told fs ∧ Same v w) := by
  unfold renameDatabase
  split
  · exact Once.fail ⟨told_nil, rfl, rfl⟩
  refine DoesOnce.withCatalog ?_
  split
  · exact Once.fail ⟨told_nil, rfl, rfl⟩
  rename_i hnew
  cases hentry : v.memory.catalog.byName? name with
  | none => exact Once.fail ⟨told_nil, rfl, rfl⟩
  | some existing =>
    refine Once.attempt (Once.mono transition_replies ?_ ?_)
    · rintro _ fs w ⟨hfs, hw, -, -⟩
      refine finishTransition_replies hfs hw fun _ fs y hfs hy => Once.pure ⟨hfs, existing, rfl, ?_⟩
      exact ⟨by simpa using hnew, hy.catalog, hy.state⟩
    · rintro _ fs w ⟨hfs, hw, -⟩
      exact Once.fail ⟨hfs, hw.catalog, hw.state⟩

theorem createDatabase_once {name : String} :
    DoesOnce E uuids (createDatabase root name) [] v
      (fun _ fs w => Told fs ∧ Made root (v.memory.catalog.add ⟨uuids v.issued, name, "ready"⟩) w)
      (fun _ fs w => Told fs ∧ Same v w) := by
  unfold createDatabase
  split
  · exact Once.fail ⟨told_nil, rfl, rfl⟩
  refine DoesOnce.withCatalog ?_
  split
  · exact Once.fail ⟨told_nil, rfl, rfl⟩
  simp only [Prog.bind_eq]
  refine DoesOnce.newId (DoesOnce.createDir (fun _ => ?_) fun _ e => ?_)
  swap
  · exact Once.fail ⟨told_singleton.mpr rfl, rfl, rfl⟩
  refine DoesOnce.createDatabase (fun files _ => ?_) fun _ e => ?_
  swap
  · refine DoesOnce.removeDir ?_ ?_
    · exact Once.fail ⟨told_singleton.mpr rfl, rfl, by simp⟩
    · intro hfs
      cases hfs
  generalize hu : Books.withSite _ _ _ = u
  have hcatalog : u.memory.catalog = v.memory.catalog := by rw [← hu]; rfl
  have hstate : u.entry .serverState = v.entry .serverState := by
    rw [← hu]
    simp [Books.withSite]
  refine Once.attempt (Once.mono transition_replies ?_ ?_)
  · rintro _ fs w ⟨hfs, hw, -, -⟩
    refine Once.seq (P := fun _ fs y => Told fs ∧ Made root _ y) (DoesOnce.withDatabases
      (DoesOnce.inner rfl fun _ => DoesOnce.inner rfl fun _ => Once.pure
        ⟨hfs, hw.catalog, hw.state⟩)) ?_ fun _ _ _ hf => hf
    rintro _ fs y ⟨hfs, hy⟩
    exact finishTransition_replies hfs hy fun _ fs z hfs hz => Once.pure ⟨hfs, hz.catalog, hz.state⟩
  · rintro _ fs w ⟨hfs, hw, -⟩
    have hsame : Same v w := ⟨hw.catalog.trans hcatalog, hw.state.trans hstate⟩
    refine DoesOnce.rename (by simp) (fun n _ _ => ?_) fun _ e b => ?_
    · exact Once.fail ⟨hfs, hsame.catalog, by simpa using hsame.state⟩
    · exact Once.fail ⟨told_singleton.mpr rfl, hsame.catalog, hsame.state⟩

-- ---------------------------------------------------------------------------
-- Drop
-- ---------------------------------------------------------------------------

/-- The Database is taken out of its handle, or everything is as before. -/
theorem closeForDrop_once :
    DoesOnce E uuids (inside id (withGuard closeForDrop)) [] v
      (fun _ fs w => fs = [] ∧ w = v.setHandle id ⟨none, false⟩)
      (fun _ fs w => Told fs ∧ w = v) := by
  refine DoesOnce.lock fun hunlocked => DoesOnce.take ?_
  have hback : v.setHandle id ⟨(v.memory.handles id).slot, false⟩ = v :=
    Books.setHandle_self (by rw [← hunlocked])
  cases hslot : (v.memory.handles id).slot with
  | none =>
    simp only [Books.setHandle_handles, Function.update_self, Books.setHandle_setHandle]
    refine DoesOnce.unlock (Once.fail ⟨told_nil, ?_⟩)
    rw [Books.setHandle_setHandle]
    simpa [hslot] using hback
  | some database =>
    simp only [Books.setHandle_handles, Function.update_self, Books.setHandle_setHandle]
    refine DoesOnce.checkpoint ?_ fun _ e => ?_
    · refine DoesOnce.unlock (Once.pure ⟨rfl, ?_⟩)
      simp [Books.setHandle_setHandle]
    · refine DoesOnce.put (DoesOnce.unlock (Once.fail ⟨told_singleton.mpr rfl, ?_⟩))
      simpa [Books.setHandle_setHandle, hslot] using hback

theorem Serving.setMemory {handle : ManagedDatabase} {content : Bytes} {m : Memory}
    (h : Serving handle content v) (hd : m.databases = v.memory.databases)
    (hh : m.handles = v.memory.handles) : Serving handle content (v.setMemory m) :=
  ⟨by rw [Books.setMemory_memory, hd, h.registered], by rw [Books.setMemory_memory, hh, h.opened],
    h.stored⟩

/-- The memory of a daemon whose Database `id` is closed and unregistered. -/
def Memory.without (m : Memory) (id : String) : Memory :=
  { m with
    handles := Function.update m.handles id ⟨none, false⟩
    databases := Function.update m.databases id none
    databasesLocked := false }

theorem unregister_once
    (hkeyed : ∀ i handle, v.memory.databases i = some handle → handle.id = i) :
    DoesOnce E uuids (withDatabases (unregister id)) [] v
      (fun handle fs w => fs = [] ∧ v.memory.databases id = some handle ∧ handle.id = id ∧
        w = v.setMemory (v.memory.without id))
      (fun _ fs w => Told fs ∧ w = v.setMemory { v.memory with databasesLocked := false }) := by
  refine DoesOnce.withDatabases (DoesOnce.getHandle ?_)
  cases hh : (v.setMemory { v.memory with databasesLocked := true }).memory.databases id with
  | none => exact Once.fail ⟨told_nil, rfl⟩
  | some handle =>
    obtain rfl : handle.id = id := hkeyed id handle hh
    refine Once.seq closeForDrop_once ?_ ?_
    · rintro _ _ _ ⟨rfl, rfl⟩
      exact DoesOnce.inner rfl fun _ => Once.pure ⟨rfl, hh, rfl, rfl⟩
    · rintro _ fs _ ⟨hfs, rfl⟩
      exact ⟨hfs, rfl⟩

/-- `y` is `w` with the Database of the handle open on `content`. -/
structure Reopened (handle : ManagedDatabase) (content : Bytes) (w y : Books) : Prop where
  memory : y.memory = { w.memory with
    handles := Function.update w.memory.handles handle.id ⟨some ⟨content⟩, false⟩ }
  entry : ∀ p, p ≠ .database handle.id → y.entry p = w.entry p
  stored : ∃ files, y.entry (.database handle.id) = some (.directory files) ∧
    files .database = some (.file content)

theorem leaveLockFile_database (s : Site) :
    (s.leaveLockFile E .database).files .database = s.files .database := by
  unfold Site.leaveLockFile
  split
  · rfl
  · simp [Site.setFile]

/-- Closed, opened and registered again, every Database is as it was. -/
theorem Serving.reopened {handle handle' : ManagedDatabase} {content content' : Bytes} {y : Books}
    (h : Serving handle' content' v) (hw : w.memory = v.memory.without handle.id)
    (hentry : ∀ i, w.entry (.database i) = v.entry (.database i))
    (hstored : ∃ files, w.entry (.database handle.id) = some (.directory files) ∧
      files .database = some (.file content))
    (hregistered : v.memory.databases handle.id = some handle) (hy : Reopened handle content w y) :
    Serving handle' content' (y.setMemory { y.memory with
      databases := Function.update y.memory.databases handle.id (some handle)
      databasesLocked := false }) := by
  by_cases hid : handle'.id = handle.id
  · obtain rfl : handle' = handle := by
      have := h.registered
      rw [hid, hregistered] at this
      exact (Option.some.inj this).symm
    obtain ⟨files, hf, hc⟩ := h.stored
    obtain ⟨files', hf', hc'⟩ := hstored
    cases ((hentry _).trans hf).symm.trans hf'
    cases hc.symm.trans hc'
    exact ⟨by simp, by simp [hy.memory], hy.stored⟩
  · refine ⟨?_, ?_, ?_⟩
    · simpa [hy.memory, hw, Memory.without, hid] using h.registered
    · simpa [hy.memory, hw, Memory.without, hid] using h.opened
    · have hne : RootPath.database handle'.id ≠ .database handle.id := by simpa using hid
      rw [Books.setMemory_entry, hy.entry _ hne, hentry]
      exact h.stored

/-- The way back when the drop could not be committed. -/
theorem reopenUndropped_once {handle : ManagedDatabase} {error : ServerError} {o : DaemonOp}
    {Q : DatabaseSummary → List DaemonOp → Books → Prop} (ho : o.discards = false)
    (hmemory : w.memory = v.memory.without handle.id)
    (hregistered : v.memory.databases handle.id = some handle)
    (hentry : ∀ i, w.entry (.database i) = v.entry (.database i))
    (hstate : w.entry .serverState = v.entry .serverState) :
    DoesOnce E uuids (reopenUndropped handle error) [o] w Q
      (fun _ fs y => Told fs ∧ Same v y ∧
        ∀ handle' content, Serving handle' content v → Serving handle' content y) := by
  unfold reopenUndropped
  simp only [Prog.bind_eq]
  refine DoesOnce.openDatabase ?_ fun hfs => nomatch hfs
  intro files content hd hc
  refine Once.seq (P := fun _ fs y => fs = [o] ∧ Reopened handle content w y)
    (G := fun _ _ _ => False) ?_ ?_ fun _ _ _ hf => hf.elim
  · refine DoesOnce.lock fun _ => DoesOnce.put (DoesOnce.unlock (Once.pure ⟨rfl, ?_, ?_, ?_⟩))
    · simp [Books.withSite, Books.setHandle]
    · intro p hp
      simp [Books.withSite, hp]
    · refine ⟨((w.site handle.id files).leaveLockFile E .database).files, by simp [Books.withSite], ?_⟩
      rw [leaveLockFile_database]
      exact hc
  · rintro _ _ y ⟨rfl, hy⟩
    refine Once.seq (P := fun _ fs z => fs = [o] ∧ z = y.setMemory { y.memory with
      databases := Function.update y.memory.databases handle.id (some handle)
      databasesLocked := false }) (G := fun _ _ _ => False) (DoesOnce.withDatabases
      (DoesOnce.inner rfl fun _ => Once.pure ⟨rfl, rfl⟩)) ?_ fun _ _ _ hf => hf.elim
    rintro _ _ _ ⟨rfl, rfl⟩
    refine Once.fail ⟨told_singleton.mpr ho, ⟨?_, ?_⟩, fun handle' content' h => ?_⟩
    · simp [hy.memory, hmemory, Memory.without]
    · exact (hy.entry _ (by simp)).trans hstate
    · exact h.reopened hmemory hentry ⟨files, hd, hc⟩ hregistered hy

theorem dropDatabase_once {name confirmName : String}
    (hvalid : validateCatalog v.memory.catalog = .ok ())
    (hkeyed : ∀ i handle, v.memory.databases i = some handle → handle.id = i) :
    DoesOnce E uuids (dropDatabase root name confirmName) [] v
      (fun _ fs w => Told fs ∧ ∃ entry, v.memory.catalog.byName? name = some entry ∧
        Made root (v.memory.catalog.remove entry.id) w)
      (fun _ fs w => (Told fs ∧ Same v w ∧
          ∀ handle content, Serving handle content v → Serving handle content w) ∨
        (¬ Told fs ∧ ∃ entry, v.memory.catalog.byName? name = some entry ∧
          Made root (v.memory.catalog.remove entry.id) w)) := by
  unfold dropDatabase
  split
  · exact Once.fail (.inl ⟨told_nil, ⟨rfl, rfl⟩, fun _ _ h => h⟩)
  refine DoesOnce.withCatalog ?_
  have hrefuse : ∀ m : Memory, m.catalog = v.memory.catalog → m.databases = v.memory.databases →
      m.handles = v.memory.handles → Same v (v.setMemory m) ∧
        ∀ handle content, Serving handle content v → Serving handle content (v.setMemory m) :=
    fun m hc hd hh => ⟨⟨hc, rfl⟩, fun _ _ h => h.setMemory hd hh⟩
  cases hentry : v.memory.catalog.byName? name with
  | none =>
    exact Once.fail (.inl ⟨told_nil, hrefuse _ rfl rfl rfl⟩)
  | some entry =>
    simp only [Prog.bind_eq]
    refine DoesOnce.pathExists ?_
    split
    · exact Once.fail (.inl ⟨told_nil, hrefuse _ rfl rfl rfl⟩)
    refine Once.seq (unregister_once hkeyed) ?_ ?_
    swap
    · rintro _ fs _ ⟨hfs, rfl⟩
      exact .inl ⟨hfs, hrefuse _ rfl rfl rfl⟩
    rintro handle _ _ ⟨rfl, hregistered, hid, rfl⟩
    refine Once.attempt (Once.mono transition_replies ?_ ?_)
    · rintro _ fs w ⟨hfs, hw, -, -⟩
      refine DoesOnce.rename (by simp) (fun n _ _ => ?_) fun _ e b => ?_
      · have hmade : Made root (v.memory.catalog.remove entry.id)
            (w.move (.database entry.id) (.trash entry.id) n) :=
          ⟨hw.catalog, by simpa using hw.state⟩
        exact finishTransition_replies hfs hmade fun _ fs z hfs hz =>
          Once.pure ⟨hfs, entry, rfl, hz.catalog, hz.state⟩
      · refine Once.fail (.inr ⟨?_, entry, rfl, hw.catalog, hw.state⟩)
        simp [DaemonOp.discards]
    · rintro _ fs w ⟨hfs, hw, hother, hmemory, hone⟩
      obtain ⟨o, rfl⟩ := hone (validateCatalog_ok.mpr (validateCatalog_ok.mp hvalid).remove)
      rw [← hid] at hmemory hregistered
      refine Once.mono (reopenUndropped_once (v := v.setMemory { v.memory with catalogLocked := true })
        (told_singleton.mp hfs) hmemory hregistered (fun i => hother _ id) hw.state)
        (fun _ _ _ hq => hq) ?_
      rintro _ fs y ⟨hfs, hy, hserving⟩
      refine .inl ⟨hfs, ⟨hy.catalog, hy.state⟩, fun handle' content h => ?_⟩
      exact (hserving handle' content (h.setMemory rfl rfl)).setMemory rfl rfl

-- ---------------------------------------------------------------------------
-- The three calls
-- ---------------------------------------------------------------------------

theorem Catalog.add_ne (entry : CatalogDatabase) : c.add entry ≠ c := by
  intro h
  have := congrArg (fun c : Catalog => c.databases.length) h
  simp [Catalog.add, (Catalog.sortByName_perm _).length_eq] at this

theorem Catalog.remove_ne {entry : CatalogDatabase} (h : entry ∈ c.databases) :
    c.remove entry.id ≠ c := by
  intro heq
  rw [← heq, Catalog.mem_remove] at h
  exact h.2 rfl

theorem Catalog.exists_setName (newName : String) {databases : List CatalogDatabase}
    (h : id ∈ databases.map (·.id)) : ∃ e ∈ Catalog.setName id newName databases, e.name = newName := by
  induction databases with
  | nil => simp at h
  | cons entry rest ih =>
    unfold Catalog.setName
    split
    · exact ⟨_, List.mem_cons_self, rfl⟩
    · rename_i hne
      have hrest : id ∈ rest.map (·.id) := by
        rcases List.mem_cons.mp h with h | h
        · exact absurd h.symm hne
        · exact h
      obtain ⟨e, he, hname⟩ := ih hrest
      exact ⟨e, List.mem_cons_of_mem _ he, hname⟩

theorem Catalog.rename_ne {newName : String} (hid : id ∈ c.ids)
    (hnew : c.databases.any (·.name = newName) = false) : c.rename id newName ≠ c := by
  intro heq
  obtain ⟨e, he, hname⟩ := Catalog.exists_setName newName hid
  have hmem : e ∈ c.databases := by
    rw [← heq]
    exact (Catalog.sortByName_perm _).mem_iff.mpr he
  rw [List.any_eq_false] at hnew
  exact hnew e hmem (by simpa using hname)

/-- Every call ends in one of three ways. -/
theorem lifecycleCall_once (call : LifecycleCall)
    (hvalid : validateCatalog v.memory.catalog = .ok ())
    (hkeyed : ∀ i handle, v.memory.databases i = some handle → handle.id = i) :
    let after := call.after v.memory.catalog (uuids v.issued)
    DoesOnce E uuids (call.program root) [] v
      (fun _ fs w => Told fs ∧ after ≠ v.memory.catalog ∧ Made root after w)
      (fun _ fs w => (Told fs ∧ Same v w ∧ ∀ name confirmName, call = .drop name confirmName →
          ∀ handle content, Serving handle content v → Serving handle content w) ∨
        (¬ Told fs ∧ after ≠ v.memory.catalog ∧ Made root after w)) := by
  cases call with
  | create name =>
    refine Once.mono createDatabase_once ?_ ?_
    · rintro _ fs w ⟨hfs, hw⟩
      exact ⟨hfs, Catalog.add_ne _, hw⟩
    · rintro _ fs w ⟨hfs, hw⟩
      refine .inl ⟨hfs, hw, fun _ _ h => ?_⟩
      cases h
  | rename name newName =>
    refine Once.mono renameDatabase_once ?_ ?_
    · rintro _ fs w ⟨hfs, entry, hentry, hnew, hw⟩
      simp only [LifecycleCall.after, hentry, Option.elim_some]
      exact ⟨hfs, Catalog.rename_ne (byName?_mem hentry) hnew, hw⟩
    · rintro _ fs w ⟨hfs, hw⟩
      refine .inl ⟨hfs, hw, fun _ _ h => ?_⟩
      cases h
  | drop name confirmName =>
    refine Once.mono (dropDatabase_once hvalid hkeyed) ?_ ?_
    · rintro _ fs w ⟨hfs, entry, hentry, hw⟩
      simp only [LifecycleCall.after, hentry, Option.elim_some]
      exact ⟨hfs, Catalog.remove_ne (List.mem_of_find?_eq_some hentry), hw⟩
    · rintro _ fs w (⟨hfs, hw, hserving⟩ | ⟨hfs, entry, hentry, hw⟩)
      · exact .inl ⟨hfs, hw, fun _ _ _ => hserving⟩
      · simp only [LifecycleCall.after, hentry, Option.elim_some]
        exact .inr ⟨hfs, Catalog.remove_ne (List.mem_of_find?_eq_some hentry), hw⟩

/-- The reply of a call from `d` says what became of the catalog in `d'`, and a
Database that a failed drop was about is as usable as before. -/
structure ReplyMatches (root : DataDirectory) (call : LifecycleCall) (after : Catalog)
    (d d' : Daemon) (reply : Except ProtocolFailure DatabaseSummary) : Prop where
  failed : reply.isOk = false ↔ Same (.of d false) (.of d' false)
  done : reply.isOk = true ↔ after ≠ d.memory.catalog ∧ Made root after (.of d' false)
  usable : ∀ name confirmName, call = .drop name confirmName → reply.isOk = false →
    ∀ handle content, Serving handle content (.of d false) → Serving handle content (.of d' false)

variable (E) in
/-- A call in which at most one step fails is answered according to what was
committed, exactly if that step is not the one that puts a dropped Database
away. -/
theorem lifecycle_reply_matches_iff {d : Daemon}
    (hvalid : validateCatalog d.memory.catalog = .ok ()) (hkeyed : d.Keyed) (call : LifecycleCall)
    (cs : List Outcome) (reply : Except ProtocolFailure DatabaseSummary)
    (hone : (failedSteps E uuids cs (call.program root) d).length ≤ 1)
    (hreply : ((daemonWorld E uuids).run cs (call.program root) d).1.result? = some reply) :
    ReplyMatches root call (call.after d.memory.catalog (uuids d.issued)) d
        ((daemonWorld E uuids).run cs (call.program root) d).2 reply ↔
      ∀ o ∈ failedSteps E uuids cs (call.program root) d, o.discards = false := by
  obtain ⟨installed, hpost⟩ := DoesOnce.outcome
    (lifecycleCall_once (v := .of d false) call hvalid hkeyed) hone hreply
  generalize ((daemonWorld E uuids).run cs (call.program root) d).2 = d' at hpost ⊢
  cases reply with
  | ok summary =>
    obtain ⟨hfs, hne, hmade⟩ := hpost
    refine iff_of_true ⟨iff_of_false (by simp [Except.isOk, Except.toBool]) fun hsame => ?_, ?_, ?_⟩ hfs
    · exact hne (hmade.catalog.symm.trans hsame.catalog)
    · exact iff_of_true rfl ⟨hne, hmade.catalog, hmade.state⟩
    · intro _ _ _ h
      cases h
  | error failure =>
    obtain ⟨hfs, hsame, husable⟩ | ⟨hfs, hne, hmade⟩ := hpost
    · refine iff_of_true ⟨iff_of_true rfl ⟨hsame.catalog, hsame.state⟩,
        iff_of_false (by simp [Except.isOk, Except.toBool]) ?_, ?_⟩ hfs
      · rintro ⟨hne, hmade⟩
        exact hne (hmade.catalog.symm.trans hsame.catalog)
      · intro name confirmName hcall _ handle content h
        obtain ⟨hregistered, hopened, hstored⟩ := husable name confirmName hcall handle content h
        exact ⟨hregistered, hopened, hstored⟩
    · refine iff_of_false (fun h => ?_) hfs
      exact hne (hmade.catalog.symm.trans (h.failed.mp rfl).catalog)

theorem keyed_single {name : String} {content : Bytes} :
    (Daemon.single root id name content).Keyed := by
  intro i handle hh
  change (if i = id then some (root.managed id) else none) = some handle at hh
  split at hh
  · rename_i hi
    cases hh
    exact hi.symm
  · cases hh

/-- The checkpoint before a drop fails. -/
theorem lifecycle_reply_matches_failed_checkpoint :
    let root := DataDirectory.plain "/data"
    let d := Daemon.single root "00000000-0000-4000-8000-000000000001" "main" [7]
    let cs := List.replicate 7 .ok ++ [.fail "disk full"] ++ List.replicate 4 .ok
    ReplyMatches root (.drop "main" "main")
      ((LifecycleCall.drop "main" "main").after d.memory.catalog "") d
      ((daemonWorld .plain fun _ => "").run cs ((LifecycleCall.drop "main" "main").program root) d).2
      (.error ⟨.internalError, "disk full", false⟩) :=
  (lifecycle_reply_matches_iff .plain (by decide) keyed_single (.drop "main" "main")
    (List.replicate 7 .ok ++ [.fail "disk full"] ++ List.replicate 4 .ok)
    (.error ⟨.internalError, "disk full", false⟩) (by decide +kernel) (by decide +kernel)).mpr
    (by decide +kernel)

/-- The drop is committed and its Database cannot be moved to the trash: the
client is told that the drop failed. -/
theorem committed_drop_is_reported_as_failed :
    let root := DataDirectory.plain "/data"
    let d := Daemon.single root "00000000-0000-4000-8000-000000000001" "main" [7]
    let p := (LifecycleCall.drop "main" "main").program root
    let cs := List.replicate 20 .ok ++ [.fail "Input/output error (os error 5)", .ok]
    let d' := ((daemonWorld .plain fun _ => "").run cs p d).2
    (failedSteps .plain (fun _ => "") cs p d).length = 1 ∧
      ((daemonWorld .plain fun _ => "").run cs p d).1.result? =
        some (.error ⟨.internalError, "Input/output error (os error 5)", false⟩) ∧
      d.memory.catalog.names = ["main"] ∧ d'.memory.catalog.names = [] ∧
      (d'.entry .serverState).bind FileLike.bytes? =
        some (root.catalog.encode ⟨CATALOG_VERSION, []⟩) := by
  decide +kernel

end

end NostdbServer
