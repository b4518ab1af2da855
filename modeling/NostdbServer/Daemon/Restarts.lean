import NostdbServer.Daemon.Atomicity
import NostdbServer.Daemon.Calls
import NostdbServer.Daemon.Halted
import NostdbServer.Restore.Safety

/-!
# Lives of the daemon

One data directory, and on it one daemon after the other: each is started, does
create, rename, drop and restore calls, and is ended by a crash between two
steps or in the middle of writing a new file. A journal that was cut off while
it was written, and a second interrupted catalog write, make the next start
fail; crashes that leave neither never do.
-/

namespace NostdbServer

open Effects World

-- ---------------------------------------------------------------------------
-- Calls and crashes
-- ---------------------------------------------------------------------------

/-- A call that changes storage. -/
inductive ManagedCall
  | lifecycle (call : LifecycleCall)
  | restore (name : String) (bytes : Bytes)

def ManagedCall.program (root : DataDirectory) : ManagedCall → Prog daemon ProtocolFailure Unit
  | .lifecycle call => (call.program root).bind fun _ => .pure ()
  | .restore name bytes => restoreSnapshot root name bytes

/-- The process ends after `steps` steps of a call, or within the next one when
`written` bytes of a file it creates are on disk. -/
structure Crash where
  steps : Nat
  written : Option Nat

/-- Steps that write a new file, the engine's own creation of a Database apart. -/
def DaemonOp.creates : DaemonOp → Bool
  | .root (.createNew _ _) | .storage _ (.file (.createNew _ _)) => true
  | _ => false

/-- Steps that write a journal. -/
def DaemonOp.journals : DaemonOp → Bool
  | .root (.createNew .operation _) | .storage _ (.file (.createNew .restoreOperation _)) => true
  | _ => false

/-- What a step leaves that is cut off when `k` bytes of its new file are written. -/
def Daemon.tear (E : Engine) (uuids : Nat → String) (d : Daemon) (o : DaemonOp) (k : Nat) : Daemon :=
  match o with
  | .createDatabase id =>
    if d.hasDirectory (.database id) && (d.filesOf id .database).isNone then
      d.putSite id ((d.site id).setFile .database (some (.file (E.created.take k))))
    else d
  | o =>
    if o.creates then ((Daemon.step E uuids o (.torn k "") d).map Prod.snd).getD d else d

section
variable (E : Engine) (uuids : Nat → String) (root : DataDirectory)

/-- The call as far as it got, and the daemon then. -/
def Crash.cut (crash : Crash) (call : ManagedCall) (d : Daemon) :
    Prog daemon ProtocolFailure Unit × Daemon :=
  (daemonWorld E uuids).run (List.replicate crash.steps .ok) (call.program root) d

/-- What the crash leaves. -/
def Crash.leaves (crash : Crash) (call : ManagedCall) (d : Daemon) : Daemon :=
  let (rest, d') := crash.cut E uuids root call d
  match crash.written, rest.next? with
  | some k, some o => (d'.tear E uuids o k).crashed
  | _, _ => d'.crashed

/-- The crash cuts off no journal, and leaves at most one interrupted catalog
write, counting the one that an earlier start put aside. -/
structure Harmless (call : ManagedCall) (crash : Crash) (d : Daemon) : Prop where
  journal : ∀ o, crash.written.isSome = true → (crash.cut E uuids root call d).1.next? = some o →
    o.journals = false
  pending : ∀ n, (crash.leaves E uuids root call d).entry .pending = some n →
    (crash.leaves E uuids root call d).entry interrupted = none

end

-- ---------------------------------------------------------------------------
-- Lives
-- ---------------------------------------------------------------------------

inductive Power
  | off
  | on

/-- `Uuid::new_v4` is going to answer with an identifier that nothing bears. -/
structure Fresh (uuids : Nat → String) (d : Daemon) : Prop where
  unseen : Unseen d.memory.catalog d.entry (uuids d.issued)
  parses : parsesAsUuid (uuids d.issued) = true

/-- What the data directory of `d₀` can be after any number of lives, with the
crashes that are `allowed`. Between them starts may be cut off or fail. -/
inductive Lives (E : Engine) (uuids : Nat → String) (root : DataDirectory)
    (allowed : ManagedCall → Crash → Daemon → Prop) (d₀ : Daemon) : Power → Daemon → Prop
  | first : Lives E uuids root allowed d₀ .off d₀.crashed
  | started (credentials : Except ServerError Unit) :
    Lives E uuids root allowed d₀ .off d →
    (daemonWorld E uuids).eval .ok (openDaemon E root credentials) d = some (.ok c, d') →
    Lives E uuids root allowed d₀ .on d'
  | startCut (credentials : Except ServerError Unit) (n : Nat) :
    Lives E uuids root allowed d₀ .off d →
    Lives E uuids root allowed d₀ .off ((daemonWorld E uuids).run (List.replicate n .ok)
      (openDaemon E root credentials) d).2.crashed
  | served (call : ManagedCall) :
    Lives E uuids root allowed d₀ .on d → Fresh uuids d →
    (daemonWorld E uuids).eval .ok (call.program root) d = some (r, d') →
    Lives E uuids root allowed d₀ .on d'
  | crashed (call : ManagedCall) (crash : Crash) :
    Lives E uuids root allowed d₀ .on d → Fresh uuids d → allowed call crash d →
    Lives E uuids root allowed d₀ .off (crash.leaves E uuids root call d)

/-- A data directory that was left in order. -/
structure AtRest (root : DataDirectory) (c : Catalog) (d : Daemon) : Prop where
  accepted : validateCatalog c = .ok ()
  state : d.entry .serverState = some (.file (root.catalog.encode c))
  previous : d.entry .previous = none
  pending : d.entry .pending = none
  operation : d.entry .operation = none
  storage : ∀ id, (d.entry (.database id)).isSome = true ↔ id ∈ c.ids
  clean : ∀ id ∈ c.ids, ∃ files x, d.entry (.database id) = some (.directory files) ∧
    files.view = .clean x none false
  apart : ∀ id ∈ c.ids, d.entry (.trash id) = none ∧ d.entry (orphan id) = none

section
variable {E : Engine} {root : DataDirectory} {uuids : Nat → String} {c before after : Catalog}
  {e e' : Entries} {v w : Books} {d d' : Daemon} {id : String} {files : DbFiles}
  {may : Outcome → Prop}

theorem AtRest.halted (h : AtRest root c d) : Halted E root c d.entry where
  startable := by
    refine ⟨validateCatalog_ok.mp h.accepted, .inl ⟨h.state, ?_⟩, ?_, .inl h.operation, ?_⟩
    · intro n hn
      cases h.previous.symm.trans hn
    · intro n hn
      cases h.pending.symm.trans hn
    · intro id hid hsome
      exact absurd ((h.storage id).mp hsome) hid
  free n hn := by cases h.pending.symm.trans hn
  apart := h.apart
  directory id hid := by
    obtain ⟨files, x, hf, -⟩ := h.clean id hid
    exact ⟨files, hf⟩
  settles id files hf := by
    obtain ⟨files', x, hf', hview⟩ := h.clean id ((h.storage id).mp (by simp [hf]))
    cases hf.symm.trans hf'
    refine ⟨some (.file x), .inl ⟨x, rfl, ?_⟩, fun _ => ⟨x, rfl⟩⟩
    rw [hview]
    exact .clean

theorem InService.halted (h : InService E root c v) : Halted E root c v.entry where
  startable := h.idle.sound.toStartable
  free n hn := by cases h.idle.resting.pending.symm.trans hn
  apart := h.idle.sound.apart
  directory id hid := by
    obtain ⟨files, -, hf, -⟩ := h.idle.sound.stored id hid
    exact ⟨files, hf⟩
  settles id files hf := by
    obtain ⟨x, hx, -⟩ := h.leads id files hf
    exact ⟨some (.file x), .inl ⟨x, rfl, hx⟩, fun _ => ⟨x, rfl⟩⟩

-- ---------------------------------------------------------------------------
-- Create, rename and drop
-- ---------------------------------------------------------------------------

theorem createdFiles_view : (createdFiles E).view = .clean E.created none false := by
  have hview := Site.view_leaveLockFile E .database
    ((⟨DbFiles.empty, none, false⟩ : Site).setFile .database (some (.file E.created)))
  have hcore : ∀ s : Site, DbFiles.view s.files = { s.view with slot := none, locked := false } :=
    fun _ => rfl
  rw [createdFiles, Site.created, hcore, hview]
  rfl

theorem emptyFiles_view : DbFiles.empty.view = .settled none none false := rfl

/-- What a call that was cut off has in `databases/`. -/
theorem Underway.directory (h : InService E root before v)
    (hw : Underway E root uuids before after v w)
    (hf : w.entry (.database id) = some (.directory files)) :
    (∃ x, Leads E (restoreJournal root.restore id) x files.view ∧
      files .database = some (.file x)) ∨ files = .empty := by
  rcases hw.grown id _ hf with hold | ⟨-, hnew | hnew⟩
  · exact .inl (h.leads id files hold)
  · cases hnew
    exact .inr rfl
  · cases hnew
    refine .inl ⟨E.created, ?_, createdFiles_database E⟩
    rw [createdFiles_view]
    exact .clean

theorem Underway.halted (h : InService E root before v)
    (hw : Underway E root uuids before after v w)
    (hfree : ∀ n, w.entry .pending = some n →
      w.entry NostdbServer.interrupted = none) :
    Halted E root (if w.installed then after else before) w.entry where
  startable := hw.sound.toStartable
  free := hfree
  apart := hw.sound.apart
  directory id hid := by
    obtain ⟨files, -, hf, -⟩ := hw.sound.stored id hid
    exact ⟨files, hf⟩
  settles id files hf := by
    rcases hw.directory h hf with ⟨x, hx, -⟩ | rfl
    · exact ⟨some (.file x), .inl ⟨x, rfl, hx⟩, fun _ => ⟨x, rfl⟩⟩
    · refine ⟨none, .inr emptyFiles_view, fun hid => ?_⟩
      obtain ⟨files, content, hf', hfile⟩ := hw.sound.stored id hid
      cases hf.symm.trans hf'
      cases hfile

/-- A call that is over leaves a daemon that can take the next one. -/
theorem Finished.inService (h : InService E root before v)
    (hw : Finished E root uuids before after v w) :
    InService E root (if w.installed then after else before) w where
  idle := hw.idle
  leads id files hf := by
    rcases hw.underway.directory h hf with hx | rfl
    · exact hx
    · have hid : id ∈ (if w.installed then after else before).ids := by
        by_contra hid
        cases (hw.idle.only id hid).symm.trans hf
      obtain ⟨files, content, hf', hfile⟩ := hw.idle.sound.stored id hid
      cases hf.symm.trans hf'
      cases hfile

theorem Daemon.tear_of_not_creates {o : DaemonOp} (ho : o.creates = false)
    (hne : ∀ id, o ≠ .createDatabase id) (k : Nat) : d.tear E uuids o k = d := by
  unfold Daemon.tear
  split
  · exact absurd rfl (hne _)
  · rw [ho]
    rfl

theorem Daemon.tear_of_creates {o : DaemonOp} {k : Nat} {ans : o.Ans} (ho : o.creates = true)
    (hs : (daemonWorld E uuids).step o (.torn k "") d = some (ans, d')) :
    d.tear E uuids o k = d' := by
  have hs : Daemon.step E uuids o (.torn k "") d = some (ans, d') := hs
  unfold Daemon.tear
  split
  · cases ho
  · rw [if_pos ho, hs]
    rfl

variable (E uuids d) in
/-- What a step of a lifecycle call leaves that is cut off in a new file. -/
theorem DaemonOp.Manages.torn {o : DaemonOp} (ho : o.Manages) (hj : o.journals = false) (k : Nat) :
    (d.tear E uuids o k).entry = d.entry ∨
    (∃ bytes, ∀ p, (d.tear E uuids o k).entry p =
      if p = .pending then some (.file bytes) else d.entry p) ∨
    ∃ id files bytes, d.entry (.database id) = some (.directory files) ∧ files .database = none ∧
      ∀ p, (d.tear E uuids o k).entry p = if p = .database id then
        some (.directory (Function.update files .database (some (.file bytes)))) else d.entry p := by
  match o, ho with
  | .createDatabase id, _ =>
    unfold Daemon.tear
    dsimp only
    split
    · rename_i h
      rw [Bool.and_eq_true, Option.isNone_iff_eq_none] at h
      obtain ⟨hd, hnone⟩ := h
      obtain ⟨files, hf⟩ := Daemon.hasDirectory_iff.mp hd
      rw [Daemon.filesOf_eq hf] at hnone
      refine .inr (.inr ⟨id, files, E.created.take k, hf, hnone, fun p => ?_⟩)
      rw [Daemon.entry_putSite hd, Daemon.site, Daemon.filesOf_eq hf]
      rfl
    · exact .inl rfl
  | .root (.createNew p bytes), .inr hp =>
    subst hp
    cases hj
  | .root (.createNew p bytes), .inl hp =>
    subst hp
    rw [Daemon.tear_of_creates (o := .root (.createNew .pending bytes)) rfl rfl]
    obtain ⟨e, -, ht, -⟩ | ⟨n, m, -, -, -, ht⟩ | ⟨hc, -⟩ := Volume.createNew_cases
      (show Daemon.rootFiles.createNew .pending bytes (.torn k "") d = (_, _) from rfl)
    · exact .inl (congrArg Daemon.entry ht)
    · refine .inr (.inl ⟨bytes.take n, fun p => ?_⟩)
      exact (congrArg (Daemon.entry · p) ht).trans (Daemon.entry_set _ _ _ _)
    · cases hc
  | .storage _ o, .inl ho =>
    refine .inl (congrArg Daemon.entry (Daemon.tear_of_not_creates ?_ (by simp) k))
    cases o <;> first | rfl | exact ho.elim
  | .storage _ _, .inr rfl =>
    exact .inl (congrArg Daemon.entry (Daemon.tear_of_not_creates rfl (by simp) k))
  | .root (.pathExists _), _ | .root (.isFile _), _ | .root (.read _), _ | .root (.rename _ _), _
  | .root (.remove _), _ | .root .sync, _ | .isDir _, _ | .createDir _, _ | .removeDir _, _
  | .readDatabases, _ | .newId, _ | .lockCatalog, _ | .unlockCatalog, _ | .readCatalog, _
  | .writeCatalog _, _ | .lockDatabases, _ | .unlockDatabases, _ | .getHandle _, _
  | .readHandle _, _ | .insertHandle _, _ | .removeHandle _, _ | .newHandle _ _, _ =>
    exact .inl (congrArg Daemon.entry (Daemon.tear_of_not_creates rfl (by simp) k))

/-- A catalog that is written only in part is one more thing to put aside. -/
theorem Underway.partCatalog {bytes : Bytes} (hw : Underway E root uuids before after v w)
    (hpend : ∀ p, e' p = if p = .pending then some (.file bytes) else w.entry p) :
    Underway E root uuids before after v { w with entry := e' } := by
  have hother : ∀ p : RootPath, p ≠ .pending → e' p = w.entry p := fun p hp => by
    rw [hpend, if_neg hp]
  have hstorage : ∀ p : RootPath, p.Storage → e' p = w.entry p := by
    rintro p hp
    refine hother p ?_
    rintro rfl
    exact not_storage_pending hp
  refine ⟨.congr (hw.sound.toStartable.congr hstorage ?_ ?_ (.inr (hother _ (by simp))))
    hw.sound.stored hw.sound.apart hstorage, ?_, fun id n hn => ?_⟩
  · dsimp only
    rw [hother .serverState (by simp), hother .previous (by simp)]
    exact hw.sound.state
  · intro n hn
    have hn : e' .pending = some n := hn
    rw [hpend, if_pos rfl] at hn
    exact ⟨bytes, (Option.some.inj hn).symm⟩
  · exact (hother _ (by simp [NostdbServer.interrupted])).trans hw.interrupted
  · exact hw.grown id n ((hother _ (by simp)).symm.trans hn)

/-- The first file of a Database that no catalog names yet. -/
theorem Underway.partDatabase {bytes : Bytes} (h : InService E root before v)
    (hw : Underway E root uuids before after v w)
    (hfree : ∀ n, w.entry .pending = some n → w.entry NostdbServer.interrupted = none)
    (hf : w.entry (.database id) = some (.directory files)) (hnone : files .database = none)
    (he' : ∀ p, e' p = if p = .database id then
      some (.directory (Function.update files .database (some (.file bytes)))) else w.entry p) :
    Halted E root (if w.installed then after else before) e' := by
  obtain rfl : files = .empty := by
    rcases hw.directory h hf with ⟨x, -, hx⟩ | hempty
    · cases hnone.symm.trans hx
    · exact hempty
  have hid : id ∉ (if w.installed then after else before).ids := by
    intro hid
    obtain ⟨files, content, hf', hfile⟩ := hw.sound.stored id hid
    cases hf.symm.trans hf'
    cases hfile
  have hhalted := hw.halted h hfree
  refine hhalted.inside (R := fun i files files' => files' = files ∨
    i = id ∧ files' = Function.update DbFiles.empty .database (some (.file bytes))) ⟨?_, ?_⟩ ?_
  · intro p hp
    rw [he', if_neg]
    rintro rfl
    exact hp id _ rfl hf
  · intro i files' hfiles
    by_cases hi : i = id
    · subst hi
      exact ⟨_, (he' _).trans (if_pos rfl), .inr ⟨rfl, rfl⟩⟩
    · exact ⟨files', ((he' _).trans (if_neg (by simpa using hi))).trans hfiles, .inl rfl⟩
  · rintro i files' _ hfiles (rfl | ⟨rfl, rfl⟩)
    · exact hhalted.settles i _ hfiles
    · exact ⟨some (.file bytes), .inr rfl, fun hi => absurd hi hid⟩

theorem Underway.torn {o : DaemonOp} {installed : Bool} {k : Nat} (h : InService E root before v)
    (hw : Underway E root uuids before after v (.of d installed)) (ho : o.Manages)
    (hj : o.journals = false)
    (hfree : ∀ n, (d.tear E uuids o k).entry .pending = some n →
      (d.tear E uuids o k).entry NostdbServer.interrupted = none) :
    Halted E root (if installed then after else before) (d.tear E uuids o k).entry := by
  obtain hsame | ⟨bytes, hpend⟩ | ⟨id, files, bytes, hf, hnone, he'⟩ :=
    ho.torn E uuids d hj k
  · rw [hsame] at hfree ⊢
    exact hw.halted h hfree
  · exact (hw.partCatalog hpend).halted h hfree
  · refine hw.partDatabase h (fun n hn => ?_) hf hnone he'
    have hpending := he' .pending
    have hinterrupted := he' NostdbServer.interrupted
    simp only [NostdbServer.interrupted, reduceCtorEq, ↓reduceIte] at hpending hinterrupted
    exact hinterrupted.symm.trans (hfree n (hpending.trans hn))

-- ---------------------------------------------------------------------------
-- Restore
-- ---------------------------------------------------------------------------

theorem InService.setMemory {m : Memory} (h : InService E root c v) (hcatalog : m.catalog = c)
    (hdatabases : m.databases = v.memory.databases) : InService E root c (v.setMemory m) where
  idle := ⟨h.idle.sound, h.idle.resting, h.idle.only, hcatalog, fun id handle hh =>
    h.idle.handles id handle (hdatabases ▸ hh)⟩
  leads := h.leads

/-- Every Database is still in place, with whatever content. -/
theorem InService.inside (h : InService E root c v)
    (ho : OnlyInside (fun id _ files' => ∃ x, Leads E (restoreJournal root.restore id) x
      files'.view ∧ files' .database = some (.file x)) v.entry w.entry)
    (hcatalog : w.memory.catalog = c) (hdatabases : w.memory.databases = v.memory.databases) :
    InService E root c w where
  idle := by
    refine ⟨⟨h.idle.sound.toStartable.resized (fun p hp => ho.file hp) ho.isSome, fun id hid => ?_,
      fun id hid => ?_⟩, ⟨?_, ?_, ?_, ?_⟩, fun id hid => ?_, hcatalog, fun id handle hh => ?_⟩
    · obtain ⟨files, -, hf, -⟩ := h.idle.sound.stored id hid
      obtain ⟨files', hf', x, -, hx⟩ := ho.files id files hf
      exact ⟨files', x, hf', hx⟩
    · rw [ho.file (by simp), ho.file (by simp [orphan])]
      exact h.idle.sound.apart id hid
    · exact (ho.file (by simp)).trans h.idle.resting.current
    · exact (ho.file (by simp)).trans h.idle.resting.previous
    · exact (ho.file (by simp)).trans h.idle.resting.pending
    · exact (ho.file (by simp)).trans h.idle.resting.operation
    · have hnone := ho.isSome id
      rw [h.idle.only id hid] at hnone
      simpa using hnone
    · exact h.idle.handles id handle (hdatabases ▸ hh)
  leads id files' hf' := by
    obtain ⟨files, -, hx⟩ := ho.back hf'
    exact hx

theorem handleOf_does {C : Books → Prop} (hc : C v) :
    Does E uuids may C (handleOf id) v
      (fun handle w => w = v ∧ v.memory.databases id = some handle) (fun _ w => w = v) := by
  unfold handleOf
  simp only [Prog.bind_eq]
  refine Does.readHandle hc ?_
  cases hh : v.memory.databases id with
  | none => exact Exec.fail rfl
  | some handle => exact Exec.pure ⟨rfl, rfl⟩

theorem handleForName_does {name : String} {C : Books → Prop} (h : Idle root c v)
    (hc : ∀ m, C (v.setMemory m)) :
    Does E uuids may C (handleForName name) v
      (fun handle w => handle.id ∈ c.ids ∧ ∃ m, w = v.setMemory m ∧ m.catalog = c ∧
        m.databases = v.memory.databases)
      (fun _ w => ∃ m, w = v.setMemory m ∧ m.catalog = c ∧
        m.databases = v.memory.databases) := by
  unfold handleForName entryOf
  simp only [Prog.bind_eq]
  refine Exec.bind (Does.withCatalog (hc v.memory) (hc _) ?_)
  rw [h.catalog]
  cases hentry : c.byName? name with
  | none => exact Exec.fail ⟨hc _, _, rfl, h.catalog, rfl⟩
  | some entry =>
    refine Exec.pure ⟨hc _, (handleOf_does (hc _)).mono (fun _ h => h) ?_ ?_⟩
    · rintro handle _ ⟨rfl, hh⟩
      refine ⟨?_, _, rfl, h.catalog, rfl⟩
      rw [h.handles entry.id handle hh]
      exact byName?_mem hentry
    · rintro _ _ rfl
      exact ⟨_, rfl, h.catalog, rfl⟩

/-- What a restore has in `databases/` that was cut off. -/
def Replaced (E : Engine) (root : DataDirectory) (may : Outcome → Prop) (id : String) (u : View) :
    Prop :=
  (∃ y, Leads E (restoreJournal root.restore id) y u) ∨ Tearing may ∧ ∃ x, Torn x u

theorem Replaced.handle {u : View} (h : Replaced E root may id u) (slot : Option Database)
    (locked : Bool) : Replaced E root may id { u with slot := slot, locked := locked } := by
  rcases h with ⟨y, hy⟩ | ⟨ht, x, candidate, operation, hu⟩
  · exact .inl ⟨y, hy.handle⟩
  · refine .inr ⟨ht, x, candidate, operation, ?_⟩
    rw [hu]

theorem restoreSnapshot_does {name : String} {bytes : Bytes} {C : Books → Prop}
    (hadopt : ∀ b S, Validated E b S → E.Sound S) (h : InService E root c v)
    (hC : ∀ w, OnlyInside (fun id _ files' => Replaced E root may id files'.view) v.entry w.entry →
      C w) :
    Does E uuids may C (restoreSnapshot root name bytes) v (fun _ w => InService E root c w)
      (fun _ w => InService E root c w ∨ Faulty may ∧ C w) := by
  have hsame : ∀ id files, v.entry (.database id) = some (.directory files) →
      Replaced E root may id files.view := by
    intro id files hf
    obtain ⟨x, hx, -⟩ := h.leads id files hf
    exact .inl ⟨x, hx⟩
  have hmemory : ∀ m, C (v.setMemory m) := fun m =>
    hC _ ⟨fun _ _ => rfl, fun id files hf => ⟨files, hf, hsame id files hf⟩⟩
  unfold restoreSnapshot
  simp only [Prog.bind_eq]
  refine Exec.seq (handleForName_does h.idle hmemory) ?_ ?_
  swap
  · rintro _ _ ⟨m, rfl, hcatalog, hdatabases⟩
    exact .inl (h.setMemory hcatalog hdatabases)
  rintro handle _ ⟨hid, m, rfl, hcatalog, hdatabases⟩
  obtain ⟨files, -, hf, -⟩ := h.idle.sound.stored handle.id hid
  obtain ⟨x, hx, hdb⟩ := h.leads handle.id files hf
  have hu := h.setMemory hcatalog hdatabases
  have hf' : (v.setMemory m).entry (.database handle.id) = some (.directory files) := hf
  have hat : ∀ t : Site, Replaced E root may handle.id t.view →
      C ((v.setMemory m).withSite handle.id t) := fun t ht =>
    hC _ (onlyInside_withSite (v := v.setMemory m) hf' (ht.handle none false)
      fun i files hi => hsame i files hi)
  have hin : ∀ t : Site, (∃ S, Leads E (restoreJournal root.restore handle.id) S t.view ∧
      t.view.database = some (.file S)) →
      InService E root c ((v.setMemory m).withSite handle.id t) := by
    rintro t ⟨S, hS, hdbS⟩
    refine hu.inside (onlyInside_withSite hf' ⟨S, hS.handle, hdbS⟩ fun i files hi => ?_) hcatalog rfl
    exact hu.leads i files hi
  have hcovers : NostdbServer.Exec E may (Replaced E root may handle.id)
      (restoreSnapshotWithOperations root.restore handle bytes)
      ((v.setMemory m).site handle.id files).view _ _ :=
    restoreSnapshotWithOperations_covers hadopt (fun y _ hy => .inl ⟨y, hy⟩)
      (fun ht _ htorn => .inr ⟨ht, x, htorn⟩) hx.handle hdb
  refine Does.inside hf' ((hcovers _ rfl).mono hat (fun _ t ht => hin t ht) ?_)
  rintro _ t (⟨hx', hdb'⟩ | ⟨hfaulty, ht⟩)
  · exact .inl (hin t ⟨x, hx', hdb'⟩)
  · exact .inr ⟨hfaulty, hat t ht⟩

/-- A restore creates nothing outside the directory of its Database. -/
def DaemonOp.Replaces : DaemonOp → Prop
  | .root _ | .createDatabase _ => False
  | _ => True

theorem restoreSnapshot_replaces {name : String} {bytes : Bytes} :
    (restoreSnapshot root name bytes).Only DaemonOp.Replaces := by
  refine Prog.Only.bind (Prog.Only.bind ?_ fun entry => ?_) fun handle => ?_
  · refine Prog.Only.step trivial fun _ => Prog.Only.step trivial fun catalog =>
      Prog.Only.bind (Prog.Only.attempt ?_) fun r => Prog.Only.step trivial fun _ => ?_
    · dsimp only
      split <;> trivial
    · cases r <;> trivial
  · refine Prog.Only.step trivial ?_
    rintro (_ | _) <;> trivial
  · exact Prog.Only.lift (T := daemon) (Prog.Only.of_forall (fun _ => trivial) _)

theorem Daemon.onlyInside_putSite {R : String → DbFiles → DbFiles → Prop} {s : Site}
    (hs : R id (d.filesOf id) s.files) (hrefl : ∀ i files, R i files files) :
    OnlyInside R d.entry (d.putSite id s).entry := by
  by_cases hd : d.hasDirectory (.database id) = true
  · obtain ⟨files, hf⟩ := Daemon.hasDirectory_iff.mp hd
    rw [Daemon.filesOf_eq hf] at hs
    have hput := congrArg Books.entry (Books.of_putSite hd s false)
    have hinside := onlyInside_withSite (v := .of d false) hf hs fun i files _ => hrefl i files
    rw [← hput] at hinside
    exact hinside
  · have hput : (d.putSite id s).entry = d.entry := by
      funext p
      simp [Daemon.putSite, hd]
    rw [hput]
    exact ⟨fun _ _ => rfl, fun i files hf => ⟨files, hf, hrefl i files⟩⟩

variable (E uuids d) in
/-- The journal of a restore is there before and after, or neither. -/
theorem Daemon.tear_restore {o : DaemonOp} (ho : o.Replaces) (hj : o.journals = false) (k : Nat) :
    d.tear E uuids o k = d ∨ o.creates = true ∧
      (∃ ans, (daemonWorld E uuids).step o (.torn k "") d = some (ans, d.tear E uuids o k)) ∧
      OnlyInside (fun _ files files' => files' .restoreOperation = files .restoreOperation) d.entry
        (d.tear E uuids o k).entry := by
  match o, ho with
  | .storage id (.file (.createNew f bytes)), _ =>
    have hf : DbFile.restoreOperation ≠ f := by
      rintro rfl
      cases hj
    have hstep : (daemonWorld E uuids).step (.storage id (.file (.createNew f bytes))) (.torn k "")
        d = some _ := rfl
    rw [Daemon.tear_of_creates (o := .storage id (.file (.createNew f bytes))) rfl hstep]
    refine .inr ⟨rfl, ⟨_, rfl⟩, Daemon.onlyInside_putSite ?_ fun _ _ => rfl⟩
    obtain ⟨e, -, ht, -⟩ | ⟨n, m, -, -, -, ht⟩ | ⟨-, -, -, ht⟩ := Volume.createNew_cases
      (show siteFiles.createNew f bytes (d.outcomeAt id (.file (.createNew f bytes)) (.torn k ""))
        (d.site id) = (_, _) from rfl)
    · exact congrArg (fun s : Site => s.files .restoreOperation) ht
    · refine (congrArg (fun s : Site => s.files .restoreOperation) ht).trans ?_
      exact Function.update_of_ne hf _ _
    · refine (congrArg (fun s : Site => s.files .restoreOperation) ht).trans ?_
      exact Function.update_of_ne hf _ _
  | .storage _ (.file (.pathExists _)), _ | .storage _ (.file (.isFile _)), _
  | .storage _ (.file (.read _)), _ | .storage _ (.file (.rename _ _)), _
  | .storage _ (.file (.remove _)), _ | .storage _ (.file .sync), _
  | .storage _ (.openDatabase _), _ | .storage _ (.checkDatabase _), _
  | .storage _ (.adoptServerAuthority _), _ | .storage _ (.checkpointDatabase _), _
  | .storage _ .lock, _ | .storage _ .unlock, _ | .storage _ .take, _ | .storage _ (.put _), _
  | .storage _ (.checkpoint _), _ | .storage _ .peek, _ | .storage _ (.execute _ _), _
  | .storage _ (.executeTransaction _ _), _ | .storage _ (.inspect _), _
  | .isDir _, _ | .createDir _, _ | .removeDir _, _
  | .readDatabases, _ | .newId, _ | .lockCatalog, _ | .unlockCatalog, _ | .readCatalog, _
  | .writeCatalog _, _ | .lockDatabases, _ | .unlockDatabases, _ | .getHandle _, _
  | .readHandle _, _ | .insertHandle _, _ | .removeHandle _, _ | .newHandle _ _, _ =>
    exact .inl (Daemon.tear_of_not_creates rfl (by simp) k)

/-- Beside a whole journal, a candidate of which only a part was written is one
that recovery removes. -/
theorem Replaced.settles {files' : DbFiles} (h : Replaced E root may id files'.view)
    (hold : Settles E (restoreJournal root.restore id) n files.view)
    (hsame : files' .restoreOperation = files .restoreOperation) :
    ∃ x, Leads E (restoreJournal root.restore id) x files'.view := by
  rcases h with hy | ⟨-, x, candidate, operation, hview⟩
  · exact hy
  refine ⟨x, ?_⟩
  have hop : files .restoreOperation = some (.file operation) :=
    hsame.symm.trans (congrArg View.operation hview)
  have hjournal : some (Node.file operation) = some (restoreJournal root.restore id) := by
    rcases hold with ⟨y, -, hy⟩ | hsettled
    · by_contra hne
      obtain ⟨c, hc⟩ := hy.eq_of_unjournaled fun ho => hne (hop.symm.trans ho)
      cases hop.symm.trans (congrArg View.operation hc)
    · cases hop.symm.trans (congrArg View.operation hsettled)
  rw [hview, hjournal]
  exact .prepared (some candidate)

-- ---------------------------------------------------------------------------
-- Crashes
-- ---------------------------------------------------------------------------

variable (E uuids root d) in
/-- A crash is between two steps, or in the middle of one. -/
theorem Crash.leaves_cases (crash : Crash) (call : ManagedCall) :
    (crash.leaves E uuids root call d).entry = (crash.cut E uuids root call d).2.entry ∨
    ∃ k o, crash.written = some k ∧ (crash.cut E uuids root call d).1.next? = some o ∧
      (crash.leaves E uuids root call d).entry =
        ((crash.cut E uuids root call d).2.tear E uuids o k).entry := by
  unfold Crash.leaves
  dsimp only
  split
  · rename_i k o hk ho
    exact .inr ⟨k, o, hk, ho, rfl⟩
  · exact .inl rfl

theorem LifecycleCall.program_manages (call : LifecycleCall) :
    (call.program root).Only DaemonOp.Manages := by
  cases call with
  | create name => exact createDatabase_manages
  | rename name newName => exact renameDatabase_manages
  | drop name confirmName => exact dropDatabase_manages

theorem lifecycle_does (h : InService E root c (.of d false)) (hfresh : Fresh uuids d)
    (call : LifecycleCall) :
    Does E uuids (· = .ok) (Underway E root uuids c (call.after c (uuids d.issued)) (.of d false))
      ((ManagedCall.lifecycle call).program root) (.of d false)
      (fun _ => Finished E root uuids c (call.after c (uuids d.issued)) (.of d false))
      (fun _ => Finished E root uuids c (call.after c (uuids d.issued)) (.of d false)) := by
  have hunseen : Unseen c d.entry (uuids d.issued) := by
    have hcatalog : d.memory.catalog = c := h.idle.catalog
    exact hcatalog ▸ hfresh.unseen
  exact Exec.seq (call_does (v := .of d false) not_faulty_ok h.idle rfl hunseen hfresh.parses call)
    (fun _ _ hw => Exec.pure hw) fun _ _ hw => hw

theorem lifecycle_crash_halted {crash : Crash} {call : LifecycleCall}
    (h : InService E root c (.of d false)) (hfresh : Fresh uuids d)
    (hharmless : Harmless E uuids root (.lifecycle call) crash d) :
    ∃ c', Halted E root c' (crash.leaves E uuids root (.lifecycle call) d).entry := by
  obtain ⟨installed, hcut⟩ := (lifecycle_does h hfresh call).stopped (fun _ _ hw => hw.underway)
    (fun _ _ hw => hw.underway) (List.replicate crash.steps .ok)
    fun _ hc => List.eq_of_mem_replicate hc
  have hfree := hharmless.pending
  obtain hplain | ⟨k, o, hk, ho, htorn⟩ := crash.leaves_cases E root uuids d
    (.lifecycle call)
  · rw [hplain] at hfree ⊢
    exact ⟨_, hcut.halted h hfree⟩
  · rw [htorn] at hfree ⊢
    have honly : ((ManagedCall.lifecycle call).program root).Only DaemonOp.Manages :=
      call.program_manages.bind fun _ => trivial
    have hmanages : o.Manages := (World.run_only _ honly _ _).next? ho
    exact ⟨_, hcut.torn h hmanages (hharmless.journal o (by simp [hk]) ho) hfree⟩

theorem restore_cut_halted {name : String} {bytes : Bytes}
    (hadopt : ∀ b S, Validated E b S → E.Sound S) (h : InService E root c (.of d false)) (n : Nat) :
    Halted E root c ((daemonWorld E uuids).run (List.replicate n .ok)
      (restoreSnapshot root name bytes) d).2.entry := by
  have hdoes : Does E uuids (· = .ok) (fun w => Halted E root c w.entry)
      (restoreSnapshot root name bytes) (.of d false) _ _ :=
    restoreSnapshot_does hadopt h fun w hw =>
      h.halted.inside hw fun id files files' _ hreplaced => by
        rcases hreplaced with ⟨y, hy⟩ | ⟨htear, -⟩
        · exact ⟨some (.file y), .inl ⟨y, rfl, hy⟩, fun _ => ⟨y, rfl⟩⟩
        · exact absurd htear.faulty not_faulty_ok
  obtain ⟨_, hcut⟩ := hdoes.stopped (fun _ _ hw => hw.halted)
    (fun _ _ hw => hw.elim (fun hw => hw.halted) fun hw => hw.2) (List.replicate n .ok)
    fun _ hc => List.eq_of_mem_replicate hc
  exact hcut

/-- A step may be cut off in the file it creates. -/
def mayTear (oc : Outcome) : Prop := oc = .ok ∨ ∃ k, oc = .torn k ""

theorem restore_crash_halted {crash : Crash} {name : String} {bytes : Bytes}
    (hadopt : ∀ b S, Validated E b S → E.Sound S) (h : InService E root c (.of d false))
    (hharmless : Harmless E uuids root (.restore name bytes) crash d) :
    Halted E root c (crash.leaves E uuids root (.restore name bytes) d).entry := by
  have hcut : Halted E root c (crash.cut E uuids root (.restore name bytes) d).2.entry :=
    restore_cut_halted hadopt h crash.steps
  obtain hplain | ⟨k, o, hk, ho, htorn⟩ := crash.leaves_cases E root uuids d
    (.restore name bytes)
  · rw [hplain]
    exact hcut
  rw [htorn]
  have hreplaces : o.Replaces := (World.run_only _ restoreSnapshot_replaces _ _).next? ho
  obtain hsame | ⟨-, ⟨ans, hstep⟩, hinside⟩ := Daemon.tear_restore E uuids _
    hreplaces (hharmless.journal o (by simp [hk]) ho) k
  · rw [hsame]
    exact hcut
  -- The step itself can tear a journal as well as a candidate; that it was no
  -- journal shows in the files before it.
  have hdoes : Does E uuids mayTear (fun w => ∀ id files,
      w.entry (.database id) = some (.directory files) → Replaced E root mayTear id files.view)
      (restoreSnapshot root name bytes) (.of d false) _ _ :=
    restoreSnapshot_does hadopt h fun w hw id files hf => by
      obtain ⟨-, -, hreplaced⟩ := hw.back hf
      exact hreplaced
  have hserving : ∀ w, InService E root c w → ∀ id files,
      w.entry (.database id) = some (.directory files) →
      Replaced E root mayTear id files.view := by
    intro w hw id files hf
    obtain ⟨x, hx, -⟩ := hw.leads id files hf
    exact .inl ⟨x, hx⟩
  obtain ⟨_, hafter⟩ := hdoes.stepped (fun _ w hw => hserving w hw)
    (fun _ w hw => hw.elim (hserving w) fun hw => hw.2) (List.replicate crash.steps .ok)
    (fun _ hc => .inl (List.eq_of_mem_replicate hc)) ho (.inr ⟨k, rfl⟩) hstep
  refine hcut.inside (R := fun id files files' => Replaced E root mayTear id files'.view ∧
    files' .restoreOperation = files .restoreOperation) ⟨hinside.outside, ?_⟩ ?_
  · intro id files hf
    obtain ⟨files', hf', hjournal⟩ := hinside.files id files hf
    exact ⟨files', hf', hafter id files' hf', hjournal⟩
  · rintro id files files' hf ⟨hreplaced, hjournal⟩
    obtain ⟨n, hn, -⟩ := hcut.settles id files hf
    obtain ⟨x, hx⟩ := hreplaced.settles hn hjournal
    exact ⟨some (.file x), .inl ⟨x, rfl, hx⟩, fun _ => ⟨x, rfl⟩⟩

-- ---------------------------------------------------------------------------
-- Runs
-- ---------------------------------------------------------------------------

/-- What holds of the data directory, with a daemon on it or without. -/
def Orderly (E : Engine) (root : DataDirectory) : Power → Daemon → Prop
  | .off, d => d.memory = Daemon.idle ∧ ∃ c, Halted E root c d.entry
  | .on, d => ∃ c, InService E root c (.of d false)

theorem InService.of_flag {installed : Bool} (h : InService E root c (.of d installed)) :
    InService E root c (.of d false) :=
  ⟨⟨h.idle.sound, h.idle.resting, h.idle.only, h.idle.catalog, h.idle.handles⟩, h.leads⟩

variable (uuids) in
theorem openDaemon_orderly (credentials : Except ServerError Unit) (h : Orderly E root .off d) :
    ∃ c, Does E uuids (· = .ok) (fun w => Halted E root c w.entry) (openDaemon E root credentials)
      (.of d false) (fun _ w => InService E root c w ∧ Halted E root c w.entry)
      (fun _ w => Halted E root c w.entry) := by
  obtain ⟨hidle, c, hhalted⟩ := h
  refine ⟨c, openDaemon_halted not_faulty_ok hhalted fun id handle hh => ?_⟩
  have hnone : d.memory.databases id = none := by rw [hidle]; rfl
  cases hnone.symm.trans hh

theorem managedCall_served {call : ManagedCall} {r : Except ProtocolFailure Unit}
    (hadopt : ∀ b S, Validated E b S → E.Sound S) (h : Orderly E root .on d)
    (hfresh : Fresh uuids d)
    (he : (daemonWorld E uuids).eval .ok (call.program root) d = some (r, d')) :
    Orderly E root .on d' := by
  obtain ⟨c, h⟩ := h
  cases call with
  | lifecycle call =>
    obtain ⟨installed, hend⟩ := (lifecycle_does h hfresh call).ended rfl he
    cases r <;> exact ⟨_, (Finished.inService h hend).of_flag⟩
  | restore name bytes =>
    have hdoes : Does E uuids (· = .ok) (fun _ => True) (restoreSnapshot root name bytes)
        (.of d false) _ _ := restoreSnapshot_does hadopt h fun _ _ => trivial
    obtain ⟨installed, hend⟩ := hdoes.ended rfl he
    cases r with
    | ok _ => exact ⟨c, InService.of_flag hend⟩
    | error e =>
      obtain hend | ⟨hfaulty, -⟩ := hend
      · exact ⟨c, InService.of_flag hend⟩
      · exact absurd hfaulty not_faulty_ok

theorem managedCall_crashed {call : ManagedCall} {crash : Crash}
    (hadopt : ∀ b S, Validated E b S → E.Sound S) (h : Orderly E root .on d)
    (hfresh : Fresh uuids d) (hharmless : Harmless E uuids root call crash d) :
    Orderly E root .off (crash.leaves E uuids root call d) := by
  obtain ⟨c, h⟩ := h
  refine ⟨?_, ?_⟩
  · unfold Crash.leaves
    dsimp only
    split <;> rfl
  · cases call with
    | lifecycle call => exact lifecycle_crash_halted h hfresh hharmless
    | restore name bytes => exact ⟨c, restore_crash_halted hadopt h hharmless⟩

theorem Lives.orderly {d₀ : Daemon} {power : Power}
    (hadopt : ∀ b S, Validated E b S → E.Sound S) (h₀ : AtRest root c d₀)
    (h : Lives E uuids root (Harmless E uuids root) d₀ power d) : Orderly E root power d := by
  induction h with
  | first => exact ⟨rfl, c, show Halted E root c d₀.entry from h₀.halted⟩
  | started credentials _ he ih =>
    obtain ⟨c', hdoes⟩ := openDaemon_orderly uuids credentials ih
    obtain ⟨installed, hend⟩ := hdoes.ended rfl he
    exact ⟨c', hend.1.of_flag⟩
  | startCut credentials n _ ih =>
    obtain ⟨c', hdoes⟩ := openDaemon_orderly uuids credentials ih
    obtain ⟨_, hcut⟩ := hdoes.stopped (fun _ _ hw => hw.2) (fun _ _ hw => hw)
      (List.replicate n .ok) fun _ hc => List.eq_of_mem_replicate hc
    exact ⟨rfl, c', hcut⟩
  | served call _ hfresh he ih => exact managedCall_served hadopt ih hfresh he
  | crashed call crash _ hfresh hharmless ih => exact managedCall_crashed hadopt ih hfresh hharmless

theorem recoverAndLoad_halted (hm : ¬ Faulty may) (h : Halted E root c v.entry) :
    Does E uuids may (fun w => Halted E root c w.entry) (recoverAndLoad root) v
      (fun catalog _ => catalog = c) (fun _ _ => False) := by
  unfold recoverAndLoad
  simp only [Prog.bind_eq]
  refine Exec.seq (recoverSnapshotOperations_halted hm h) ?_ fun _ _ hf => hf
  rintro _ w ⟨hw, hcleared, -⟩
  exact (load_halted hm hw hcleared).mono (fun _ h => h) (fun _ _ h => h.1) fun _ _ hf => hf

end

/-- The next identifier is a UUID that nothing bears. -/
def Daemon.fresh (uuids : Nat → String) (d : Daemon) : Bool :=
  !d.memory.catalog.ids.contains (uuids d.issued) && parsesAsUuid (uuids d.issued) &&
    [RootPath.database (uuids d.issued), .trash (uuids d.issued), orphan (uuids d.issued)].all
      fun p => (d.entry p).isNone

theorem Daemon.fresh_iff {uuids : Nat → String} {d : Daemon} :
    d.fresh uuids = true ↔ Fresh uuids d := by
  simp only [Daemon.fresh, Bool.and_eq_true, Bool.not_eq_true', List.all_cons, List.all_nil,
    Option.isNone_iff_eq_none, Bool.and_true]
  constructor
  · rintro ⟨⟨hids, hparse⟩, hdatabase, htrash, horphan⟩
    refine ⟨⟨by simpa using hids, ?_⟩, hparse⟩
    rintro p (rfl | rfl | rfl)
    · exact hdatabase
    · exact htrash
    · exact horphan
  · rintro ⟨⟨hids, hstorage⟩, hparse⟩
    exact ⟨⟨by simpa using hids, hparse⟩, hstorage _ (.inl rfl), hstorage _ (.inr (.inl rfl)),
      hstorage _ (.inr (.inr rfl))⟩

/-- The daemon starts on the directory and is then as `check` asks. -/
def startsWith (E : Engine) (uuids : Nat → String) (root : DataDirectory) (d : Daemon)
    (check : Daemon → Bool) : Bool :=
  ((daemonWorld E uuids).eval .ok (openDaemon E root (.ok ())) d).any fun r =>
    Except.isOk r.1 && r.2.fresh uuids && check r.2

theorem Lives.start {E : Engine} {uuids : Nat → String} {root : DataDirectory}
    {allowed : ManagedCall → Crash → Daemon → Prop} {d₀ d : Daemon}
    (h : Lives E uuids root allowed d₀ .off d) (check : Daemon → Bool)
    (hs : startsWith E uuids root d check = true) :
    ∃ d', Lives E uuids root allowed d₀ .on d' ∧ Fresh uuids d' ∧ check d' = true := by
  obtain ⟨⟨r, d'⟩, he, hr⟩ := (Option.any_eq_true _ _).mp hs
  simp only [Bool.and_eq_true, Daemon.fresh_iff] at hr
  obtain ⟨⟨hok, hfresh⟩, hcheck⟩ := hr
  cases r with
  | error e => cases hok
  | ok catalog => exact ⟨d', .started (.ok ()) h he, hfresh, hcheck⟩

/-- How the recovery of the next start ends. -/
def recoveryEnds (E : Engine) (uuids : Nat → String) (root : DataDirectory) (d : Daemon) :
    Option (Except ServerError Catalog) :=
  ((daemonWorld E uuids).eval .ok (recoverAndLoad root) d).map (·.1)

theorem atRest_single {root : DataDirectory} {id name : String} {content : Bytes}
    (hvalid : validateCatalog ⟨CATALOG_VERSION, [⟨id, name, "ready"⟩]⟩ = .ok ()) :
    AtRest root ⟨CATALOG_VERSION, [⟨id, name, "ready"⟩]⟩ (.single root id name content) where
  accepted := hvalid
  state := by simp [Daemon.entry_single]
  previous := by simp [Daemon.entry_single]
  pending := by simp [Daemon.entry_single]
  operation := by simp [Daemon.entry_single]
  storage i := by by_cases h : i = id <;> simp [Daemon.entry_single, Catalog.ids, h]
  clean i hi := by
    obtain rfl : i = id := by simpa [Catalog.ids] using hi
    exact ⟨_, content, by rw [Daemon.entry_single, if_pos rfl], rfl⟩
  apart i _ := by simp [Daemon.entry_single, orphan]

end NostdbServer
