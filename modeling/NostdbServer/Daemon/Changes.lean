import NostdbServer.Catalog.Transition

/-!
# Create, rename and drop, step by step

`Idle c`: the catalog `c` is the durable one and the one in memory, and
`databases/` holds its storage and nothing else. A lifecycle call goes from
there to `Idle` again, with the catalog it was to make if the pending catalog
was renamed onto `server-state` on the way. `Underway` holds at every step
between, for a disk without errors.
-/

namespace NostdbServer

open Effects World

/-- Nothing bears the identity. -/
structure Unseen (c : Catalog) (e : Entries) (id : String) : Prop where
  catalog : id ∉ c.ids
  storage : ∀ p : RootPath, p.StorageOf id → e p = none

/-- The data directory when `c` is the committed catalog. -/
structure Sound (root : DataDirectory) (c : Catalog) (e : Entries) : Prop extends
    Startable root c e where
  stored : ∀ id ∈ c.ids, Stored e id
  apart : ∀ id ∈ c.ids, e (.trash id) = none ∧ e (orphan id) = none

structure Idle (root : DataDirectory) (c : Catalog) (v : Books) : Prop where
  sound : Sound root c v.entry
  resting : Resting root c v.entry
  only : ∀ id, id ∉ c.ids → v.entry (.database id) = none
  catalog : v.memory.catalog = c
  handles : ∀ id handle, v.memory.databases id = some handle → handle.id = id

/-- The files of a Database that was just created. -/
def createdFiles (E : Engine) : DbFiles := (Site.created E ⟨DbFiles.empty, none, false⟩).files

theorem created_files {E : Engine} (s : Site) (h : s.files = DbFiles.empty) :
    (s.created E).files = createdFiles E := by
  obtain ⟨files, slot, locked⟩ := s
  subst h
  unfold createdFiles Site.created Site.leaveLockFile
  cases E.lockFile <;> rfl

theorem createdFiles_database (E : Engine) : createdFiles E .database = some (.file E.created) := by
  unfold createdFiles Site.created Site.leaveLockFile
  cases E.lockFile <;> simp [Site.setFile]

/-- A lifecycle call from `v`, stopped somewhere. -/
structure Underway (E : Engine) (root : DataDirectory) (uuids : Nat → String)
    (before after : Catalog) (v w : Books) : Prop where
  sound : Sound root (if w.installed then after else before) w.entry
  interrupted : w.entry interrupted = v.entry interrupted
  grown : ∀ id n, w.entry (.database id) = some n → v.entry (.database id) = some n ∨
    id = uuids v.issued ∧ (n = .directory .empty ∨ n = .directory (createdFiles E))

section
variable {root : DataDirectory} {uuids : Nat → String} {c before after : Catalog} {e e' : Entries}
  {E : Engine} {v w : Books}

/-- Everything but the catalog's own files is as it was. -/
theorem Sound.congr (hs : Startable root c e')
    (stored : ∀ id ∈ c.ids, Stored e id)
    (apart : ∀ id ∈ c.ids, e (.trash id) = none ∧ e (orphan id) = none)
    (outside : ∀ p : RootPath, p.Storage → e' p = e p) : Sound root c e' where
  toStartable := hs
  stored id hid := (stored id hid).congr outside
  apart id hid := by
    rw [outside _ ⟨id, .inr (.inl rfl)⟩, outside _ ⟨id, .inr (.inr rfl)⟩]
    exact apart id hid

theorem Underway.start (h : Idle root before v) (hi : v.installed = false) :
    Underway E root uuids before after v v := by
  refine ⟨?_, rfl, fun _ _ hn => .inl hn⟩
  rw [hi]
  exact h.sound

/-- Only what is on disk, and the identifiers handed out, count. -/
theorem Underway.setMemory (h : Underway E root uuids before after v w) (m : Memory) :
    Underway E root uuids before after v (w.setMemory m) :=
  ⟨h.sound, h.interrupted, h.grown⟩

/-- A transition in the middle of a call, when storage is ready for both sides. -/
theorem Switching.underway {u : Books} (hu : Underway E root uuids before after v u)
    (hi : u.installed = false) (stored : ∀ id ∈ after.ids, Stored u.entry id)
    (apart : ∀ id ∈ after.ids, u.entry (.trash id) = none ∧ u.entry (orphan id) = none)
    (h : Switching root before after u w) : Underway E root uuids before after v w where
  sound := by
    have hsu := hu.sound
    rw [hi] at hsu
    have hw := h.startable
    cases hwi : w.installed with
    | false =>
      rw [hwi] at hw
      exact .congr hw hsu.stored hsu.apart fun p hp => h.outside p (.inl hp)
    | true =>
      rw [hwi] at hw
      exact .congr hw stored apart fun p hp => h.outside p (.inl hp)
  interrupted := (h.outside _ (.inr rfl)).trans hu.interrupted
  grown id n hn := hu.grown id n (by rwa [← h.outside _ (.inl ⟨id, .inl rfl⟩)])

/-- A committed call, done but for its journal. -/
structure Committed (root : DataDirectory) (c : Catalog) (w : Books) : Prop where
  sound : Sound root c w.entry
  current : Current root c w.entry
  previous : w.entry .previous = none
  pending : w.entry .pending = none
  operation : ∃ bytes, w.entry .operation = some (.file bytes)
  only : ∀ id, id ∉ c.ids → w.entry (.database id) = none
  catalog : w.memory.catalog = c
  handles : ∀ id handle, w.memory.databases id = some handle → handle.id = id
  installed : w.installed = true

/-- How a call may end: committed or not, nothing is under way. -/
structure Finished (E : Engine) (root : DataDirectory) (uuids : Nat → String)
    (before after : Catalog) (v w : Books) : Prop where
  underway : Underway E root uuids before after v w
  idle : Idle root (if w.installed then after else before) w

theorem Finished.refused (h : Idle root before v) (hi : v.installed = false) :
    Finished E root uuids before after v v := by
  refine ⟨.start h hi, ?_⟩
  rw [hi]
  exact h

theorem Finished.setMemory (h : Finished E root uuids before after v w) {m : Memory}
    (hc : m.catalog = w.memory.catalog) (hd : m.databases = w.memory.databases) :
    Finished E root uuids before after v (w.setMemory m) := by
  refine ⟨h.underway.setMemory m, h.idle.sound, h.idle.resting, h.idle.only, ?_, ?_⟩
  · exact hc.trans h.idle.catalog
  · intro id handle hh
    exact h.idle.handles id handle (hd ▸ hh)

theorem Committed.idle (h : Committed root c w) :
    Idle root c (w.set .operation none) where
  only id hid := by simpa using h.only id hid
  sound := by
    have hout := set_storage (v := w) (n := none) not_storage_operation
    refine .congr (h.sound.toStartable.congr hout (.inl ⟨?_, ?_⟩) ?_ (.inl ?_)) h.sound.stored
      h.sound.apart hout
    · simpa [Current] using h.current
    · simp [h.previous]
    · simp [h.pending]
    · simp
  resting := by
    refine ⟨?_, ?_, ?_, ?_⟩
    · simpa [Current] using h.current
    · simp [h.previous]
    · simp [h.pending]
    · simp
  catalog := h.catalog
  handles := h.handles

theorem Committed.finished (h : Committed root after w)
    (hw : Underway E root uuids before after v w) :
    Finished E root uuids before after v (w.set .operation none) := by
  refine ⟨⟨?_, ?_, ?_⟩, ?_⟩
  · rw [show (w.set .operation none).installed = true from h.installed]
    exact h.idle.sound
  · simpa [interrupted] using hw.interrupted
  · intro id n hn
    exact hw.grown id n (by simpa using hn)
  · rw [show (w.set .operation none).installed = true from h.installed]
    exact h.idle

variable {may : Outcome → Prop} {F : ProtocolFailure → Books → Prop}

/-- The end of every committed call: the journal goes, and its removal is not
reported. -/
theorem finish_does {α : Type} {k : Except ServerError Unit → Prog daemon ProtocolFailure α}
    {Q : α → Books → Prop} (hm : ¬ Faulty may) (h : Committed root after w)
    (hw : Underway E root uuids before after v w)
    (hk : Does E uuids may (Underway E root uuids before after v) (k (.ok ()))
      (w.set .operation none) Q F) :
    Does E uuids may (Underway E root uuids before after v)
      ((Prog.attempt (finishTransition root)).bind k) w Q F := by
  refine Exec.attempt ((removeIfExists_does hm hw ?_).mono (fun _ h => h) ?_
    fun _ _ (hf : False) => hf.elim)
  · intro n hn
    obtain ⟨bytes, hb⟩ := h.operation
    exact ⟨bytes, Option.some.inj (hn.symm.trans hb)⟩
  · rintro _ _ rfl
    exact hk

/-- The catalog lock around a call changes nothing of the above. -/
theorem withCatalog_does {α : Type} {body : Catalog → Prog daemon ProtocolFailure α}
    (h : Idle root before v) (hi : v.installed = false)
    (hbody : ∀ u, Idle root before u → u.installed = false → u.issued = v.issued →
      u.entry = v.entry →
      Does E uuids may (Underway E root uuids before after u) (body before) u
        (fun _ => Finished E root uuids before after u)
        (fun _ => Finished E root uuids before after u)) :
    Does E uuids may (Underway E root uuids before after v) (withCatalog body) v
      (fun _ => Finished E root uuids before after v)
      (fun _ => Finished E root uuids before after v) := by
  have hstart : Underway E root uuids before after v v := .start h hi
  have hsame : ∀ w, Underway E root uuids before after
      (v.setMemory { v.memory with catalogLocked := true }) w →
      Underway E root uuids before after v w := fun w hw => ⟨hw.sound, hw.interrupted, hw.grown⟩
  refine Does.withCatalog hstart (hstart.setMemory _) ?_
  rw [h.catalog]
  have hdone : ∀ w, Finished E root uuids before after
      (v.setMemory { v.memory with catalogLocked := true }) w →
      Underway E root uuids before after v w ∧ Finished E root uuids before after v
        (w.setMemory { w.memory with catalogLocked := false }) := fun w hw =>
    ⟨hsame w hw.underway, Finished.setMemory ⟨hsame w hw.underway, hw.idle⟩ rfl rfl⟩
  refine (hbody (v.setMemory { v.memory with catalogLocked := true }) ?_ hi rfl rfl).mono hsame
    (fun _ => hdone) (fun _ => hdone)
  exact ⟨h.sound, h.resting, h.only, h.catalog, h.handles⟩

/-- A transition in a call, after the storage of the new catalog is there. -/
theorem change_does {α : Type} {kind : OperationKind} {id : String} {u : Books}
    {k : Except ServerError Unit → Prog daemon ProtocolFailure α} {Q : α → Books → Prop}
    (hm : ¬ Faulty may) (hu : Underway E root uuids before after v u)
    (hmem : u.memory.catalog = before)
    (h : Change root after ⟨OPERATION_VERSION, kind, id, u.memory.catalog, after⟩ u)
    (stored : ∀ id ∈ after.ids, Stored u.entry id)
    (apart : ∀ id ∈ after.ids, u.entry (.trash id) = none ∧ u.entry (orphan id) = none)
    (hk : ∀ w, Switched root after u w → Sound root after w.entry →
      Underway E root uuids before after v w →
      Does E uuids may (Underway E root uuids before after v) (k (.ok ())) w Q F) :
    Does E uuids may (Underway E root uuids before after v)
      ((transition root after kind id).attempt.bind k) u Q F := by
  subst hmem
  refine Exec.attempt ((transition_does hm h).mono (fun w hw => ?_) ?_
    fun _ _ (hf : False) => hf.elim)
  · exact hw.underway hu h.installed stored apart
  · intro _ w hw
    have hswitching : Switching root u.memory.catalog after u w := by
      refine ⟨?_, hw.outside, hw.issued⟩
      rw [hw.installed]
      exact hw.startable
    have hunder := hswitching.underway hu h.installed stored apart
    have hsound := hunder.sound
    rw [hw.installed] at hsound
    exact hk w hw hsound hunder

theorem Switched.committed {u : Books} (hw : Switched root after u w)
    (hsound : Sound root after w.entry)
    (only : ∀ id, id ∉ after.ids → u.entry (.database id) = none)
    (handles : ∀ id handle, u.memory.databases id = some handle → handle.id = id) :
    Committed root after w := by
  refine ⟨hsound, hw.current, hw.previous, hw.pending, hw.operation, ?_, ?_, ?_, hw.installed⟩
  · intro id hid
    exact (hw.outside _ (.inl ⟨id, .inl rfl⟩)).trans (only id hid)
  · rw [hw.memory]
  · rw [hw.memory]
    exact handles

-- ---------------------------------------------------------------------------
-- Rename
-- ---------------------------------------------------------------------------

theorem renameDatabase_does {name newName : String} (hm : ¬ Faulty may)
    (h : Idle root c v) (hi : v.installed = false)
    (hafter : ∀ entry, c.byName? name = some entry → after = c.rename entry.id newName) :
    Does E uuids may (Underway E root uuids c after v) (renameDatabase root name newName) v
      (fun _ => Finished E root uuids c after v) (fun _ => Finished E root uuids c after v) := by
  unfold renameDatabase
  split
  · exact Exec.fail (.refused h hi)
  rename_i hname
  refine withCatalog_does h hi fun u h hi _ _ => ?_
  split
  · exact Exec.fail (.refused h hi)
  rename_i hnew
  cases hentry : c.byName? name with
  | none => exact Exec.fail (.refused h hi)
  | some existing =>
    obtain rfl := hafter existing hentry
    have hids : ∀ i, i ∈ (c.rename existing.id newName).ids ↔ i ∈ c.ids := fun i =>
      Catalog.ids_rename.mem_iff
    have hvalid : (c.rename existing.id newName).Valid := by
      refine h.sound.valid.rename (by simpa using hname) ?_
      simpa [Catalog.names] using hnew
    refine change_does hm (.start h hi) h.catalog ⟨h.catalog ▸ h.sound.toStartable,
      h.catalog ▸ h.resting, hi, hvalid, ?_, rfl, rfl, rfl, trivial⟩ ?_ ?_
      fun w hw hsound hunder => ?_
    · intro i hi
      exact h.sound.orphans i (by rwa [← hids])
    · intro i hi
      exact h.sound.stored i ((hids i).mp hi)
    · intro i hi
      exact h.sound.apart i ((hids i).mp hi)
    · have hcommitted := hw.committed hsound (fun i hi => h.only i (by rwa [← hids])) h.handles
      exact finish_does hm hcommitted hunder (Exec.pure (hcommitted.finished hunder))

-- ---------------------------------------------------------------------------
-- Create
-- ---------------------------------------------------------------------------

section
variable {id : String} {files : DbFiles}

/-- The directory of a Database that no catalog names yet. -/
theorem Sound.addDirectory (h : Sound root c e) (hop : e .operation = none)
    (hid : Unseen c e id) (hd : e' (.database id) = some (.directory files))
    (hother : ∀ p : RootPath, p ≠ .database id → e' p = e p) : Sound root c e' := by
  have hmanaged : ∀ i ∈ c.ids, e' (.database i) = e (.database i) := by
    intro i hi
    refine hother _ ?_
    rintro ⟨⟩
    exact hid.catalog hi
  have hfiles : ∀ p : RootPath, ¬ p.Storage → e' p = e p := by
    intro p hp
    refine hother p ?_
    rintro rfl
    exact hp ⟨id, .inl rfl⟩
  have horphan : ∀ i, e' (orphan i) = e (orphan i) := fun i => hother _ (by simp [orphan])
  have htrash : ∀ i, e' (.trash i) = e (.trash i) := fun i => hother _ (by simp)
  refine ⟨⟨h.valid, ?_, ?_, ?_, ?_⟩, ?_, ?_⟩
  · rw [hfiles _ not_storage_serverState, hfiles _ not_storage_previous]
    exact h.state
  · rw [hfiles _ not_storage_pending]
    exact h.pending
  · exact .inl ((hfiles _ not_storage_operation).trans hop)
  · intro i hi hsome
    rw [horphan]
    by_cases hii : i = id
    · subst hii
      exact hid.storage _ (.inr (.inr rfl))
    · rw [hother _ (by simpa using hii)] at hsome
      exact h.orphans i hi hsome
  · intro i hi
    obtain ⟨f, content, hf, hfile⟩ := h.stored i hi
    exact ⟨f, content, (hmanaged i hi).trans hf, hfile⟩
  · intro i hi
    rw [horphan, htrash]
    exact h.apart i hi

theorem mem_ids_add {i name state : String} :
    i ∈ (c.add ⟨id, name, state⟩).ids ↔ i ∈ c.ids ∨ i = id := by
  simp only [Catalog.ids, List.mem_map, Catalog.mem_add]
  constructor
  · rintro ⟨entry, hentry | rfl, rfl⟩
    · exact .inl ⟨entry, hentry, rfl⟩
    · exact .inr rfl
  · rintro (⟨entry, hentry, rfl⟩ | rfl)
    · exact ⟨entry, .inl hentry, rfl⟩
    · exact ⟨_, .inr rfl, rfl⟩

end

theorem Committed.setMemory (h : Committed root c w) {m : Memory}
    (hc : m.catalog = w.memory.catalog)
    (handles : ∀ id handle, m.databases id = some handle → handle.id = id) :
    Committed root c (w.setMemory m) :=
  ⟨h.sound, h.current, h.previous, h.pending, h.operation, h.only, hc.trans h.catalog, handles,
    h.installed⟩

theorem registerHandle_does {id : String} {database : Database}
    (h : Committed root after w) (hw : Underway E root uuids before after v w) :
    Does E uuids may (Underway E root uuids before after v)
      (withDatabases do
        Prog.call (S := daemon) (.newHandle id database)
        Prog.call (S := daemon) (.insertHandle (root.managed id))) w
      (fun _ y => Committed root after y ∧ Underway E root uuids before after v y) F := by
  refine Does.withDatabases hw (Does.inner rfl (hw.setMemory _) fun _ =>
    Does.inner rfl ((hw.setMemory _).setMemory _) fun _ => Exec.pure ⟨?_, ?_, ?_⟩)
  · exact ((hw.setMemory _).setMemory _).setMemory _
  · refine h.setMemory rfl ?_
    intro i handle hh
    simp only [Books.setMemory_memory, Function.update_apply] at hh
    split at hh
    · rename_i hi
      cases hh
      exact hi.symm
    · exact h.handles i handle hh
  · exact hw.setMemory _

/-- The new Database's directory comes first, under an identity of its own. -/
theorem Idle.addDirectory {files : DbFiles} (h : Idle root c v)
    (hfresh : Unseen c v.entry (uuids v.issued)) (hi : w.installed = false)
    (hd : w.entry (.database (uuids v.issued)) = some (.directory files))
    (hother : ∀ p, p ≠ .database (uuids v.issued) → w.entry p = v.entry p)
    (hfiles : files = .empty ∨ files = createdFiles E) :
    Underway E root uuids c after v w := by
  refine ⟨?_, hother _ (by simp [interrupted]), fun id n hn => ?_⟩
  · rw [hi]
    exact h.sound.addDirectory h.resting.operation hfresh hd hother
  · by_cases hid : id = uuids v.issued
    · subst hid
      rw [hd] at hn
      cases hn
      exact .inr ⟨rfl, hfiles.imp (congrArg _) (congrArg _)⟩
    · rw [hother _ (by simpa using hid)] at hn
      exact .inl hn

theorem createDatabase_does {name : String} (hm : ¬ Faulty may) (h : Idle root c v)
    (hi : v.installed = false) (hfresh : Unseen c v.entry (uuids v.issued))
    (hparse : parsesAsUuid (uuids v.issued) = true)
    (hafter : after = c.add ⟨uuids v.issued, name, "ready"⟩) :
    Does E uuids may (Underway E root uuids c after v) (createDatabase root name) v
      (fun _ => Finished E root uuids c after v) (fun _ => Finished E root uuids c after v) := by
  unfold createDatabase
  split
  · exact Exec.fail (.refused h hi)
  rename_i hname
  refine withCatalog_does h hi fun u h hi hissued hentries => ?_
  split
  · exact Exec.fail (.refused h hi)
  rename_i hnew
  rw [← hissued] at hafter hparse hfresh
  rw [← hentries] at hfresh
  subst hafter
  have hentry : u.entry (.database (uuids u.issued)) = none := hfresh.storage _ (.inl rfl)
  have hdir : ({ u with issued := u.issued + 1 }.set (.database (uuids u.issued))
      (some (.directory .empty))).entry (.database (uuids u.issued)) =
        some (.directory .empty) := by simp
  simp only [Prog.bind_eq]
  refine Does.newId (.start h hi) (Does.createDir_ok hm ?_ hentry
    (Does.createDatabase_ok hm ?_ hdir rfl ?_))
  · refine ⟨?_, rfl, fun _ _ hn => .inl hn⟩
    rw [show ({ u with issued := u.issued + 1 } : Books).installed = false from hi]
    exact h.sound
  · exact h.addDirectory hfresh hi hdir (fun p hp => by simp [hp]) (.inl rfl)
  generalize hw : Books.withSite _ _ _ = w
  have hd : w.entry (.database (uuids u.issued)) = some (.directory (createdFiles E)) := by
    simp only [← hw, Books.withSite, Books.set_entry, ↓reduceIte]
    rw [created_files _ rfl]
  have hother : ∀ p, p ≠ .database (uuids u.issued) → w.entry p = u.entry p := by
    intro p hp
    simp [← hw, Books.withSite, hp]
  have hwi : w.installed = false := by rw [← hw]; exact hi
  have hcat : w.memory.catalog = c := by rw [← hw]; exact h.catalog
  have hdbs : w.memory.databases = u.memory.databases := by rw [← hw]; rfl
  have hunder : Underway E root uuids c (c.add ⟨uuids u.issued, name, "ready"⟩) u w :=
    h.addDirectory hfresh hwi hd hother (.inr rfl)
  have hsound := hunder.sound
  rw [hwi] at hsound
  have hrest : Resting root c w.entry := by
    refine ⟨(hother _ (by simp)).trans h.resting.current, ?_, ?_, ?_⟩
    · exact (hother _ (by simp)).trans h.resting.previous
    · exact (hother _ (by simp)).trans h.resting.pending
    · exact (hother _ (by simp)).trans h.resting.operation
  have hvalid : (c.add ⟨uuids u.issued, name, "ready"⟩).Valid := by
    refine h.sound.valid.add ⟨hparse, by simpa using hname, rfl⟩ hfresh.catalog ?_
    simpa [Catalog.names] using hnew
  refine change_does hm hunder hcat ⟨hcat ▸ hsound.toStartable, hcat ▸ hrest, hwi, hvalid, ?_, rfl,
    rfl, rfl, mem_ids_add.mpr (.inr rfl)⟩ ?_ ?_ fun x hx hxsound hxunder => ?_
  · intro i hi
    exact hsound.orphans i fun hic => hi (mem_ids_add.mpr (.inl hic))
  · intro i hi
    rcases mem_ids_add.mp hi with hi | rfl
    · exact hsound.stored i hi
    · exact ⟨_, _, hd, createdFiles_database E⟩
  · intro i hi
    rcases mem_ids_add.mp hi with hi | rfl
    · exact hsound.apart i hi
    · rw [hother _ (by simp), hother _ (by simp [orphan])]
      exact ⟨hfresh.storage _ (.inr (.inl rfl)), hfresh.storage _ (.inr (.inr rfl))⟩
  · have hcommitted : Committed root (c.add ⟨uuids u.issued, name, "ready"⟩) x := by
      refine hx.committed hxsound (fun i hi => ?_) (hdbs ▸ h.handles)
      rw [mem_ids_add, not_or] at hi
      rw [hother _ (by simpa using hi.2)]
      exact h.only i hi.1
    refine Exec.seq (registerHandle_does hcommitted hxunder) ?_ fun _ _ hf => hf
    rintro _ y ⟨hy, hyunder⟩
    exact finish_does hm hy hyunder (Exec.pure (hy.finished hyunder))

-- ---------------------------------------------------------------------------
-- Drop
-- ---------------------------------------------------------------------------

theorem insideStill_does {α ε : Type} {p : Prog storage ε α} {id : String} {files : DbFiles}
    {C : Books → Prop} (hp : p.Only StorageOp.Still)
    (hd : v.entry (.database id) = some (.directory files)) (hc : ∀ m, C (v.setMemory m)) :
    Does E uuids may C (inside id p) v
      (fun _ w => ∃ handles, w = v.setMemory { v.memory with handles })
      (fun _ w => ∃ handles, w = v.setMemory { v.memory with handles }) := by
  have hsame : ∀ t : Site, t.files = files → v.withSite id t = v.setMemory { v.memory with
      handles := Function.update v.memory.handles id ⟨t.slot, t.locked⟩ } := by
    rintro t rfl
    simp only [Books.withSite, Books.set, ← hd, Function.update_eq_self]
    rfl
  refine Does.inside hd ((Setting.Wp.of_only (P := StorageOp.Still)
    (I := fun t => t.files = files) ?_ ?_ hp rfl).mono ?_ ?_ ?_)
  · rintro s _ hs rfl
    exact hs
  · intro o oc s ans t ho _ hs hI
    exact ⟨trivial, (ho.files hs).trans hI⟩
  · intro t ht
    rw [hsame t ht]
    exact hc _
  · intro _ t ht
    exact ⟨_, hsame t ht⟩
  · intro _ t ht
    exact ⟨_, hsame t ht⟩

theorem closeForDrop_still : (withGuard closeForDrop).Only StorageOp.Still := by
  refine Prog.Only.step trivial fun _ => Prog.Only.bind (Prog.Only.attempt ?_) fun r =>
    Prog.Only.step trivial fun _ => ?_
  · refine Prog.Only.step trivial ?_
    rintro (_ | database)
    · trivial
    · refine Prog.Only.step trivial ?_
      rintro (_ | _)
      · exact Prog.Only.step trivial fun _ => trivial
      · trivial
  · cases r <;> trivial

/-- The Database is closed and its handle unregistered, or nothing happened. -/
theorem unregister_does {id : String} (h : Idle root c v) (hid : id ∈ c.ids)
    {C : Books → Prop} (hc : ∀ m, C (v.setMemory m)) :
    Does E uuids may C (withDatabases (unregister id)) v
      (fun _ w => ∃ m, w = v.setMemory m ∧ m.catalog = c ∧
        ∀ i handle, m.databases i = some handle → handle.id = i)
      (fun _ w => ∃ m, w = v.setMemory m ∧ m.catalog = c ∧
        ∀ i handle, m.databases i = some handle → handle.id = i) := by
  obtain ⟨files, content, hfiles, -⟩ := h.sound.stored id hid
  refine Does.withDatabases (hc v.memory) (Does.getHandle (hc _) ?_)
  cases hh : (v.setMemory { v.memory with databasesLocked := true }).memory.databases id with
  | none => exact Exec.fail ⟨hc _, _, rfl, h.catalog, h.handles⟩
  | some handle =>
    obtain rfl : handle.id = id := h.handles id handle hh
    refine Exec.seq (insideStill_does closeForDrop_still hfiles fun m => hc m) ?_ ?_
    · rintro _ _ ⟨handles, rfl⟩
      refine Does.inner rfl (hc _) fun _ => Exec.pure ⟨hc _, _, rfl, h.catalog, ?_⟩
      intro i handle' hh'
      simp only [Books.setMemory_memory, Function.update_apply] at hh'
      split at hh'
      · cases hh'
      · exact h.handles i handle' hh'
    · rintro _ _ ⟨handles, rfl⟩
      exact ⟨hc _, _, rfl, h.catalog, h.handles⟩

theorem Sound.moveAway {id : String} (h : Sound root c e) (hid : id ∉ c.ids)
    (hm : MovedAway id e e') : Sound root c e' where
  toStartable := h.toStartable.moveAway hm
  stored i hi := by
    obtain ⟨files, content, hfiles, hfile⟩ := h.stored i hi
    exact ⟨files, content, (hm.kept hid i hi _ (.inl rfl)).trans hfiles, hfile⟩
  apart i hi := by
    rw [hm.kept hid i hi _ (.inr (.inl rfl)), hm.kept hid i hi _ (.inr (.inr rfl))]
    exact h.apart i hi

theorem mem_ids_remove {id i : String} : i ∈ (c.remove id).ids ↔ i ∈ c.ids ∧ i ≠ id := by
  simp only [Catalog.ids, List.mem_map, Catalog.mem_remove]
  constructor
  · rintro ⟨entry, ⟨hentry, hne⟩, rfl⟩
    exact ⟨⟨entry, hentry, rfl⟩, hne⟩
  · rintro ⟨⟨entry, hentry, rfl⟩, hne⟩
    exact ⟨entry, ⟨hentry, hne⟩, rfl⟩

theorem byName?_mem {name : String} {entry : CatalogDatabase} (h : c.byName? name = some entry) :
    entry.id ∈ c.ids :=
  List.mem_map_of_mem (List.mem_of_find?_eq_some h)

theorem dropDatabase_does {name confirmName : String} (hm : ¬ Faulty may)
    (h : Idle root c v) (hi : v.installed = false)
    (hafter : ∀ entry, c.byName? name = some entry → after = c.remove entry.id) :
    Does E uuids may (Underway E root uuids c after v) (dropDatabase root name confirmName) v
      (fun _ => Finished E root uuids c after v) (fun _ => Finished E root uuids c after v) := by
  unfold dropDatabase
  split
  · exact Exec.fail (.refused h hi)
  refine withCatalog_does h hi fun u h hi _ _ => ?_
  cases hentry : c.byName? name with
  | none => exact Exec.fail (.refused h hi)
  | some entry =>
    obtain rfl := hafter entry hentry
    have hid := byName?_mem hentry
    have hstart : Underway E root uuids c (c.remove entry.id) u u := .start h hi
    obtain ⟨htrash, horphan⟩ := h.sound.apart _ hid
    obtain ⟨files, content, hfiles, -⟩ := h.sound.stored _ hid
    simp only [Prog.bind_eq]
    refine Does.pathExists hstart ?_
    rw [htrash]
    refine Exec.seq (unregister_does h hid hstart.setMemory) ?_ ?_
    swap
    · rintro _ _ ⟨m, rfl, hcat, hdbs⟩
      refine ⟨hstart.setMemory m, ?_⟩
      rw [show (u.setMemory m).installed = false from hi]
      exact ⟨h.sound, h.resting, h.only, hcat, hdbs⟩
    rintro handle _ ⟨m, rfl, hcat, hdbs⟩
    refine change_does hm (hstart.setMemory m) hcat ⟨?_, ?_, hi, h.sound.valid.remove, ?_, rfl, rfl,
      rfl, ?_, ?_⟩ ?_ ?_ fun w hw hsound hunder => ?_
    · exact hcat ▸ h.sound.toStartable
    · exact hcat ▸ h.resting
    · intro i hi hsome
      by_cases hii : i = entry.id
      · rw [hii]
        exact horphan
      · exact h.sound.orphans i (fun hic => hi (mem_ids_remove.mpr ⟨hic, hii⟩)) hsome
    · simp [mem_ids_remove]
    · intro _
      exact htrash
    · intro i hi
      exact h.sound.stored i (mem_ids_remove.mp hi).1
    · intro i hi
      exact h.sound.apart i (mem_ids_remove.mp hi).1
    have hwd : w.entry (.database entry.id) = some (.directory files) :=
      (hw.outside _ (.inl ⟨_, .inl rfl⟩)).trans hfiles
    have hwt : w.entry (.trash entry.id) = none :=
      (hw.outside _ (.inl ⟨_, .inr (.inl rfl)⟩)).trans htrash
    refine Does.rename_ok hm (by simp) hunder hwd (by rw [hwt]; rfl) ?_
    have hmoved := movedAway hwd (.inl rfl)
    have hgone : entry.id ∉ (c.remove entry.id).ids := by simp [mem_ids_remove]
    have hyi : (w.move (.database entry.id) (.trash entry.id) (.directory files)).installed =
        true := by simp [hw.installed]
    have hysound := hsound.moveAway hgone hmoved
    have hyunder : Underway E root uuids c (c.remove entry.id) u
        (w.move (.database entry.id) (.trash entry.id) (.directory files)) := by
      refine ⟨?_, (hmoved.files _ (by simp)).trans hunder.interrupted, fun i n hn => ?_⟩
      · rw [hyi]
        exact hysound
      · refine hunder.grown i n ?_
        simp only [Books.move_entry, reduceCtorEq, ↓reduceIte] at hn
        split at hn
        · cases hn
        · exact hn
    have hcommitted : Committed root (c.remove entry.id)
        (w.move (.database entry.id) (.trash entry.id) (.directory files)) := by
      refine ⟨hysound, (hmoved.files _ (by simp)).trans hw.current,
        (hmoved.files _ (by simp)).trans hw.previous, (hmoved.files _ (by simp)).trans hw.pending,
        ?_, ?_, ?_, ?_, hyi⟩
      · obtain ⟨bytes, hb⟩ := hw.operation
        exact ⟨bytes, (hmoved.files _ (by simp)).trans hb⟩
      · intro i hi
        by_cases hii : i = entry.id
        · rw [hii]
          exact hmoved.gone
        · rw [hmoved.other i _ hii (.inl rfl), hw.outside _ (.inl ⟨i, .inl rfl⟩)]
          exact h.only i fun hic => hi (mem_ids_remove.mpr ⟨hic, hii⟩)
      · simp [hw.memory]
      · rw [Books.move_memory, hw.memory]
        exact hdbs
    exact finish_does hm hcommitted hyunder (Exec.pure (hcommitted.finished hyunder))

end

end NostdbServer
