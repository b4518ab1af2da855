import NostdbServer.Daemon.Frame
import NostdbServer.Restore.Specs

/-!
# Rules for the daemon's steps

`Books` is what the lifecycle programs decide by: the entries of the data
directory, the memory of the process, and whether the pending catalog was
renamed onto `server-state` so far. `Does` is the weakest precondition over
books, in the world that records its operations. A rule that ends in `_ok` is
for a disk that reports no errors of its own.
-/

namespace NostdbServer

open Effects World

structure Books where
  entry : RootPath → Option Entry
  memory : Memory
  issued : Nat
  installed : Bool

/-- The step that commits a catalog. -/
def DaemonOp.installs : DaemonOp → Bool
  | .root (.rename .pending .serverState) => true
  | _ => false

def Books.of (d : Daemon) (installed : Bool) : Books := ⟨d.entry, d.memory, d.issued, installed⟩

def books (s : Daemon × List DaemonOp) : Books := .of s.1 (s.2.any DaemonOp.installs)

theorem books_append (d : Daemon) (l : List DaemonOp) (o : DaemonOp) :
    books (d, l ++ [o]) = .of d (l.any DaemonOp.installs || o.installs) := by
  simp [books]

namespace Books

def set (v : Books) (p : RootPath) (n : Option Entry) : Books :=
  { v with entry := Function.update v.entry p n }

def move (v : Books) (p q : RootPath) (n : Entry) : Books :=
  { (v.set p none).set q (some n) with
    installed := v.installed || DaemonOp.installs (.root (.rename p q)) }

@[simp] theorem set_entry (v : Books) (p q : RootPath) (n : Option Entry) :
    (v.set p n).entry q = if q = p then n else v.entry q := Function.update_apply _ _ _ _

@[simp] theorem move_entry (v : Books) (p q r : RootPath) (n : Entry) :
    (v.move p q n).entry r = if r = q then some n else if r = p then none else v.entry r := by
  simp only [move, set, Function.update_apply]

@[simp] theorem set_memory (v : Books) (p : RootPath) (n : Option Entry) :
    (v.set p n).memory = v.memory := rfl
@[simp] theorem set_issued (v : Books) (p : RootPath) (n : Option Entry) :
    (v.set p n).issued = v.issued := rfl
@[simp] theorem set_installed (v : Books) (p : RootPath) (n : Option Entry) :
    (v.set p n).installed = v.installed := rfl
@[simp] theorem move_memory (v : Books) (p q : RootPath) (n : Entry) :
    (v.move p q n).memory = v.memory := rfl
@[simp] theorem move_issued (v : Books) (p q : RootPath) (n : Entry) :
    (v.move p q n).issued = v.issued := rfl
@[simp] theorem move_installed (v : Books) (p q : RootPath) (n : Entry) :
    (v.move p q n).installed = (v.installed || DaemonOp.installs (.root (.rename p q))) := rfl

def hasDirectory (v : Books) (p : RootPath) : Bool :=
  match v.entry p with
  | some (.directory _) => true
  | _ => false

def setMemory (v : Books) (memory : Memory) : Books := { v with memory }

@[simp] theorem setMemory_entry (v : Books) (m : Memory) : (v.setMemory m).entry = v.entry := rfl
@[simp] theorem setMemory_memory (v : Books) (m : Memory) : (v.setMemory m).memory = m := rfl
@[simp] theorem setMemory_issued (v : Books) (m : Memory) : (v.setMemory m).issued = v.issued := rfl
@[simp] theorem setMemory_installed (v : Books) (m : Memory) :
    (v.setMemory m).installed = v.installed := rfl

def setHandle (v : Books) (id : String) (h : Handle) : Books :=
  v.setMemory { v.memory with handles := Function.update v.memory.handles id h }

@[simp] theorem setHandle_entry (v : Books) (id : String) (h : Handle) :
    (v.setHandle id h).entry = v.entry := rfl
@[simp] theorem setHandle_handles (v : Books) (id : String) (h : Handle) :
    (v.setHandle id h).memory.handles = Function.update v.memory.handles id h := rfl

theorem setHandle_setHandle (v : Books) (id : String) (h h' : Handle) :
    (v.setHandle id h).setHandle id h' = v.setHandle id h' := by
  simp [setHandle, setMemory]

theorem setHandle_self {v : Books} {id : String} {h : Handle} (hv : v.memory.handles id = h) :
    v.setHandle id h = v := by
  unfold setHandle setMemory
  rw [← hv, Function.update_eq_self]

/-- The Database `id` looks like `s`. -/
def withSite (v : Books) (id : String) (s : Site) : Books :=
  { v.set (.database id) (some (.directory s.files)) with
    memory := { v.memory with
      handles := Function.update v.memory.handles id ⟨s.slot, s.locked⟩ } }

def site (v : Books) (id : String) (files : DbFiles) : Site :=
  ⟨files, (v.memory.handles id).slot, (v.memory.handles id).locked⟩

theorem withSite_withSite (v : Books) (id : String) (s s' : Site) :
    (v.withSite id s).withSite id s' = v.withSite id s' := by
  simp [withSite, set]

theorem withSite_site {v : Books} {id : String} (h : v.entry (.database id) = some (.directory files)) :
    v.withSite id (v.site id files) = v := by
  unfold withSite set site
  rw [← h, Function.update_eq_self, Function.update_eq_self]

theorem of_putSite {d : Daemon} {id : String} (hd : d.hasDirectory (.database id) = true) (s : Site) (b : Bool) :
    of (d.putSite id s) b = (of d b).withSite id s := by
  have hentry : (d.putSite id s).entry =
      Function.update d.entry (.database id) (some (.directory s.files)) := by
    funext p
    rw [Daemon.entry_putSite hd, Function.update_apply]
  simp only [of, withSite, set, hentry, Daemon.memory_putSite, Daemon.issued_putSite]

theorem of_set (d : Daemon) (installed : Bool) (p : RootPath) (n : Option Entry) :
    of (Daemon.rootFiles.set d p n) installed = (of d installed).set p n := by
  unfold of set
  congr 1
  funext q
  simp [Function.update_apply]

end Books

abbrev Does (E : Engine) (uuids : Nat → String) (may : Outcome → Prop) (C : Books → Prop)
    (p : Prog daemon ε α) (v : Books) (Q : α → Books → Prop) (F : ε → Books → Prop) : Prop :=
  (daemonWorld E uuids).logged.Exec (fun _ c => may c) books C p v Q F

namespace Does

variable {E : Engine} {uuids : Nat → String} {may : Outcome → Prop} {C : Books → Prop} {v : Books}
  {Q : β → Books → Prop} {F : ε → Books → Prop} {id : String} {files : DbFiles}

theorem op {o : daemon.Op} {next : daemon.Ans o → Prog daemon ε β} (hc : C v)
    (h : ∀ d b, Books.of d b = v → ∀ c, may c → ∀ ans t,
      (daemonWorld E uuids).step o c d = some (ans, t) →
      Does E uuids may C (next ans) (.of t (b || DaemonOp.installs o)) Q F) :
    Does E uuids may C (.op o next) v Q F := by
  refine Exec.op hc ?_
  rintro ⟨d, l⟩ hv c hm ans ⟨t, l'⟩ hs
  have hs : ((daemonWorld E uuids).step o c d).map (fun r => (r.1, r.2, l ++ [o])) =
    some (ans, t, l') := hs
  obtain ⟨⟨ans', t'⟩, hs', hr⟩ := Option.map_eq_some_iff.mp hs
  cases hr
  change Does E uuids may C (next ans') (books (t', (l ++ [o] : List DaemonOp))) Q F
  rw [books_append]
  exact h d (List.any (α := DaemonOp) l DaemonOp.installs) hv c hm ans' t' hs'

/-- A step that does not commit a catalog. -/
theorem plain {o : daemon.Op} {next : daemon.Ans o → Prog daemon ε β}
    (ho : DaemonOp.installs o = false) (hc : C v)
    (h : ∀ d b, Books.of d b = v → ∀ c, may c → ∀ ans t,
      (daemonWorld E uuids).step o c d = some (ans, t) →
      Does E uuids may C (next ans) (.of t b) Q F) :
    Does E uuids may C (.op o next) v Q F := by
  refine op hc fun d b hv c hm ans t hs => ?_
  rw [ho, Bool.or_false]
  exact h d b hv c hm ans t hs

-- ---------------------------------------------------------------------------
-- Files and directories
-- ---------------------------------------------------------------------------

theorem pathExists {p : RootPath} {k : Bool → Prog daemon ε β} (hc : C v)
    (h : Does E uuids may C (k (v.entry p).isSome) v Q F) :
    Does E uuids may C ((DaemonOp.pathExists p).bind k) v Q F := by
  refine plain rfl hc ?_
  rintro d b rfl c - ans t hs
  cases Option.some.inj hs
  exact h

theorem read {p : RootPath} {k : Except IoError Bytes → Prog daemon ε β} (hc : C v)
    (hok : ∀ bytes, v.entry p = some (.file bytes) → Does E uuids may C (k (.ok bytes)) v Q F)
    (hfail : ∀ e, (Injected may e.message ∨ ∀ bytes, v.entry p ≠ some (.file bytes)) →
      Does E uuids may C (k (.error e)) v Q F) :
    Does E uuids may C ((DaemonOp.read p).bind k) v Q F := by
  refine plain rfl hc ?_
  rintro d b rfl c hm ans t hs
  obtain ⟨rfl, ⟨e, he, rfl⟩ | ⟨-, hn, rfl⟩ | ⟨-, n, hn, hb, rfl⟩ | ⟨-, n, bytes, hn, hb, rfl⟩⟩ :=
    Volume.read_cases (Option.some.inj hs)
  · exact hfail e (.inl (injected_of_error? hm he))
  · refine hfail _ (.inr fun bytes hbytes => ?_)
    cases hn.symm.trans hbytes
  · refine hfail _ (.inr fun bytes hbytes => ?_)
    cases hn.symm.trans hbytes
    cases hb
  · cases n with
    | file bytes' => cases hb; exact hok bytes hn
    | directory files => cases hb

theorem read_ok {p : RootPath} {k : Except IoError Bytes → Prog daemon ε β} (hm : ¬ Faulty may)
    (hc : C v) (hp : v.entry p = some (.file bytes))
    (h : Does E uuids may C (k (.ok bytes)) v Q F) :
    Does E uuids may C ((DaemonOp.read p).bind k) v Q F := by
  refine read hc ?_ ?_
  · intro bytes' hb
    cases hp.symm.trans hb
    exact h
  · rintro e (hi | hn)
    · exact absurd hi.faulty hm
    · exact absurd hp (hn bytes)

theorem remove {p : RootPath} {k : Except IoError Unit → Prog daemon ε β} (hc : C v)
    (hok : ∀ bytes, v.entry p = some (.file bytes) →
      Does E uuids may C (k (.ok ())) (v.set p none) Q F)
    (habsent : v.entry p = none → Does E uuids may C (k (.error .notFound)) v Q F)
    (hfail : ∀ e, e.isNotFound = false →
      (Injected may e.message ∨ ∃ files, v.entry p = some (.directory files)) →
      Does E uuids may C (k (.error e)) v Q F) :
    Does E uuids may C ((DaemonOp.remove p).bind k) v Q F := by
  refine plain rfl hc ?_
  rintro d b rfl c hm ans t hs
  obtain ⟨e, rfl, rfl, he | ⟨-, ⟨hn, rfl⟩ | ⟨n, hn, hb, rfl⟩⟩⟩ | ⟨-, ⟨n, bytes, hn, hb⟩, rfl, rfl⟩ :=
    Volume.remove_cases (Option.some.inj hs)
  · exact hfail e (kind_of_error? he) (.inl (injected_of_error? hm he))
  · exact habsent hn
  · cases n with
    | file bytes => cases hb
    | directory files => exact hfail _ rfl (.inr ⟨files, hn⟩)
  · rw [Books.of_set]
    cases n with
    | file bytes' => exact hok bytes' hn
    | directory files => cases hb

theorem remove_ok {p : RootPath} {k : Except IoError Unit → Prog daemon ε β} (hm : ¬ Faulty may)
    (hc : C v) (hp : v.entry p = some (.file bytes))
    (h : Does E uuids may C (k (.ok ())) (v.set p none) Q F) :
    Does E uuids may C ((DaemonOp.remove p).bind k) v Q F := by
  refine remove hc (fun _ _ => h) ?_ ?_
  · intro hn
    cases hp.symm.trans hn
  · rintro e - (hi | ⟨files, hn⟩)
    · exact absurd hi.faulty hm
    · cases hp.symm.trans hn

theorem rename {p q : RootPath} {k : Except IoError Unit → Prog daemon ε β} (hne : p ≠ q)
    (hc : C v)
    (hok : ∀ n, v.entry p = some n → Volume.replaceable n (v.entry q) = true →
      Does E uuids may C (k (.ok ())) (v.move p q n) Q F)
    (hfail : ∀ e b, (b = v.installed ∨ DaemonOp.installs (.root (.rename p q)) = true) →
      (Injected may e.message ∨ ∀ n, v.entry p = some n →
        Volume.replaceable n (v.entry q) = false) →
      Does E uuids may C (k (.error e)) { v with installed := b } Q F) :
    Does E uuids may C ((DaemonOp.rename p q).bind k) v Q F := by
  refine op hc ?_
  rintro d b rfl c hm ans t hs
  have hflag : (b || DaemonOp.installs (.root (.rename p q))) = b ∨
      DaemonOp.installs (.root (.rename p q)) = true := by
    cases DaemonOp.installs (.root (.rename p q)) <;> simp
  obtain ⟨e, rfl, rfl, he | ⟨-, ⟨hn, rfl⟩ | ⟨n, hn, hr⟩⟩⟩ | ⟨-, n, hn, hr, rfl, rfl⟩ :=
    Volume.rename_cases hne (Option.some.inj hs)
  · exact hfail e _ hflag (.inl (injected_of_error? hm he))
  · refine hfail _ _ hflag (.inr fun n hn' => ?_)
    cases hn.symm.trans hn'
  · refine hfail e _ hflag (.inr fun m hm' => ?_)
    cases hn.symm.trans hm'
    exact hr
  · rw [Books.of_set, Books.of_set]
    exact hok n hn hr

theorem rename_ok {p q : RootPath} {k : Except IoError Unit → Prog daemon ε β}
    (hm : ¬ Faulty may) (hne : p ≠ q) (hc : C v) (hp : v.entry p = some n)
    (hq : Volume.replaceable n (v.entry q) = true)
    (h : Does E uuids may C (k (.ok ())) (v.move p q n) Q F) :
    Does E uuids may C ((DaemonOp.rename p q).bind k) v Q F := by
  refine rename hne hc ?_ ?_
  · intro n' hn' _
    cases hp.symm.trans hn'
    exact h
  · rintro e b - (hi | hr)
    · exact absurd hi.faulty hm
    · rw [hr n hp] at hq
      cases hq

theorem sync {k : Except IoError Unit → Prog daemon ε β} (hc : C v)
    (hok : Does E uuids may C (k (.ok ())) v Q F)
    (hfail : ∀ e, Injected may e.message → Does E uuids may C (k (.error e)) v Q F) :
    Does E uuids may C (DaemonOp.sync.bind k) v Q F := by
  refine plain rfl hc ?_
  rintro d b rfl c hm ans t hs
  obtain ⟨rfl, ⟨e, he, rfl⟩ | ⟨-, rfl⟩⟩ := Volume.sync_cases (Option.some.inj hs)
  · exact hfail e (injected_of_error? hm he)
  · exact hok

theorem createNew {p : RootPath} {bytes : Bytes} {k : Except CreateError Unit → Prog daemon ε β}
    (hc : C v)
    (hok : v.entry p = none → Does E uuids may C (k (.ok ())) (v.set p (some (.file bytes))) Q F)
    (hopening : ∀ e, (v.entry p = none → Injected may e.message) →
      Does E uuids may C (k (.error (.opening e))) v Q F)
    (htorn : ∀ n m, may (.torn n m) → v.entry p = none →
      Does E uuids may C (k (.error (.writing ⟨.other, m⟩)))
        (v.set p (some (.file (bytes.take n)))) Q F) :
    Does E uuids may C ((DaemonOp.createNew p bytes).bind k) v Q F := by
  refine plain rfl hc ?_
  rintro d b rfl c hm ans t hs
  obtain ⟨e, rfl, rfl, ⟨n, hn⟩ | ⟨m, rfl, rfl⟩⟩ | ⟨n, m, rfl, hn, rfl, rfl⟩ | ⟨rfl, hn, rfl, rfl⟩ :=
    Volume.createNew_cases (Option.some.inj hs)
  · refine hopening e fun hn' => ?_
    cases hn.symm.trans hn'
  · exact hopening _ fun _ => ⟨_, hm, rfl⟩
  · rw [Books.of_set]
    exact htorn n m hm hn
  · rw [Books.of_set]
    exact hok hn

theorem createNew_ok {p : RootPath} {bytes : Bytes} {k : Except CreateError Unit → Prog daemon ε β}
    (hm : ¬ Faulty may) (hc : C v) (hp : v.entry p = none)
    (h : Does E uuids may C (k (.ok ())) (v.set p (some (.file bytes))) Q F) :
    Does E uuids may C ((DaemonOp.createNew p bytes).bind k) v Q F := by
  refine createNew hc (fun _ => h) ?_ ?_
  · intro e he
    exact absurd (he hp).faulty hm
  · intro n m ht _
    exact absurd ⟨.torn n m, ht, rfl⟩ hm

theorem directoryExists {p : RootPath} {k : Bool → Prog daemon ε β} (hc : C v)
    (h : Does E uuids may C (k (v.hasDirectory p)) v Q F) :
    Does E uuids may C ((DaemonOp.directoryExists p).bind k) v Q F := by
  refine plain rfl hc ?_
  rintro d b rfl c - ans t hs
  cases Option.some.inj hs
  exact h

theorem createDir {p : RootPath} {k : Except IoError Unit → Prog daemon ε β} (hc : C v)
    (hok : v.entry p = none →
      Does E uuids may C (k (.ok ())) (v.set p (some (.directory .empty))) Q F)
    (hfail : ∀ e, (v.entry p = none → Injected may e.message) →
      Does E uuids may C (k (.error e)) v Q F) :
    Does E uuids may C ((Prog.call (S := daemon) (.createDir p)).bind k) v Q F := by
  refine plain rfl hc ?_
  rintro d b rfl c hmc ans t hs
  have hs : d.createDir p c = (ans, t) := Option.some.inj hs
  unfold Daemon.createDir at hs
  split at hs
  · rename_i e he
    cases hs
    exact hfail e fun _ => injected_of_error? hmc he
  · rename_i hn
    cases hs
    refine hfail _ fun hn' => ?_
    cases hn.symm.trans hn'
  · rename_i hn
    cases hs
    rw [Books.of_set]
    exact hok hn

theorem createDir_ok {p : RootPath} {k : Except IoError Unit → Prog daemon ε β}
    (hm : ¬ Faulty may) (hc : C v) (hp : v.entry p = none)
    (h : Does E uuids may C (k (.ok ())) (v.set p (some (.directory .empty))) Q F) :
    Does E uuids may C ((Prog.call (S := daemon) (.createDir p)).bind k) v Q F :=
  createDir hc (fun _ => h) fun _ he => absurd (he hp).faulty hm

theorem removeDir {p : RootPath} {k : Except IoError Unit → Prog daemon ε β} (hc : C v)
    (hok : ∀ files, v.entry p = some (.directory files) →
      Does E uuids may C (k (.ok ())) (v.set p none) Q F)
    (hfail : ∀ e, Does E uuids may C (k (.error e)) v Q F) :
    Does E uuids may C ((Prog.call (S := daemon) (.removeDir p)).bind k) v Q F := by
  refine plain rfl hc ?_
  rintro d b rfl c hmc ans t hs
  have hs : d.removeDir p c = (ans, t) := Option.some.inj hs
  unfold Daemon.removeDir at hs
  split at hs
  · cases hs
    exact hfail _
  · cases hs
    exact hfail _
  · cases hs
    exact hfail _
  · rename_i files _ hn
    split at hs
    · cases hs
      rw [Books.of_set]
      exact hok files hn
    · cases hs
      exact hfail _

theorem readDatabases_ok {k : Except IoError (List String) → Prog daemon ε β}
    (hm : ¬ Faulty may) (hc : C v)
    (h : ∀ names : List String, names.Nodup →
      (∀ id, id ∈ names ↔ (v.entry (.database id)).isSome = true) →
      Does E uuids may C (k (.ok names)) v Q F) :
    Does E uuids may C ((Prog.call (S := daemon) .readDatabases).bind k) v Q F := by
  refine plain rfl hc ?_
  rintro d b rfl c hmc ans t hs
  have hs : d.readDatabases c = (ans, t) := Option.some.inj hs
  unfold Daemon.readDatabases at hs
  split at hs
  · rename_i e he
    exact absurd (injected_of_error? hmc he).faulty hm
  · cases hs
    exact h d.listing d.listing_nodup fun id => Daemon.mem_listing

theorem createDatabase {k : Except DatabaseError Database → Prog daemon ε β} (hc : C v)
    (hok : ∀ files, v.entry (.database id) = some (.directory files) → files .database = none →
      Does E uuids may C (k (.ok ⟨E.created⟩)) (v.withSite id ((v.site id files).created E)) Q F)
    (hfail : ∀ e, (Faulty may ∨ ∀ files, v.entry (.database id) = some (.directory files) →
      files .database ≠ none) → Does E uuids may C (k (.error e)) v Q F) :
    Does E uuids may C ((Prog.call (S := daemon) (.createDatabase id)).bind k) v Q F := by
  refine plain rfl hc ?_
  rintro d b rfl c hmc ans t hs
  have hs : d.createDatabase E id c = (ans, t) := Option.some.inj hs
  unfold Daemon.createDatabase at hs
  split at hs
  · rename_i e he
    cases hs
    exact hfail _ (.inl (injected_of_error? hmc he).faulty)
  · rename_i files _ hn
    split at hs
    · rename_i n hf
      cases hs
      refine hfail _ (.inr fun files' hn' hf' => ?_)
      cases hn.symm.trans hn'
      cases hf.symm.trans hf'
    · rename_i hf
      cases hs
      have hsite : d.site id = (Books.of d b).site id files := by
        simp only [Daemon.site, Daemon.filesOf_eq hn, Books.site, Books.of]
      rw [Books.of_putSite (Daemon.hasDirectory_iff.mpr ⟨files, hn⟩), hsite]
      exact hok files hn hf
  · rename_i hn
    cases hs
    exact hfail _ (.inr fun files hf => absurd hf (hn files))

theorem createDatabase_ok {k : Except DatabaseError Database → Prog daemon ε β}
    (hm : ¬ Faulty may) (hc : C v) (hp : v.entry (.database id) = some (.directory files))
    (hf : files .database = none)
    (h : Does E uuids may C (k (.ok ⟨E.created⟩)) (v.withSite id ((v.site id files).created E)) Q F) :
    Does E uuids may C ((Prog.call (S := daemon) (.createDatabase id)).bind k) v Q F := by
  refine createDatabase hc ?_ ?_
  · intro files' hp' _
    cases hp.symm.trans hp'
    exact h
  · rintro e (hi | hn)
    · exact absurd hi hm
    · exact absurd hf (hn files hp)

-- ---------------------------------------------------------------------------
-- Memory
-- ---------------------------------------------------------------------------

theorem newId {k : String → Prog daemon ε β} (hc : C v)
    (h : Does E uuids may C (k (uuids v.issued)) { v with issued := v.issued + 1 } Q F) :
    Does E uuids may C ((Prog.call (S := daemon) .newId).bind k) v Q F := by
  refine plain rfl hc ?_
  rintro d b rfl c - ans t hs
  cases Option.some.inj hs
  exact h

/-- What an operation on the memory of the process makes of it; `none` for the
operations that are more than that. -/
def remembers : DaemonOp → Memory → Option Memory
  | .lockCatalog, m => some { m with catalogLocked := true }
  | .unlockCatalog, m => some { m with catalogLocked := false }
  | .writeCatalog catalog, m => some { m with catalog }
  | .lockDatabases, m => some { m with databasesLocked := true }
  | .unlockDatabases, m => some { m with databasesLocked := false }
  | .insertHandle handle, m =>
    some { m with databases := Function.update m.databases handle.id (some handle) }
  | .removeHandle id, m => some { m with databases := Function.update m.databases id none }
  | .newHandle id database, m =>
    some { m with handles := Function.update m.handles id ⟨some database, false⟩ }
  | _, _ => none

theorem inner {o : daemon.Op} {next : daemon.Ans o → Prog daemon ε β}
    (ho : remembers o v.memory = some memory) (hc : C v)
    (h : ∀ ans, Does E uuids may C (next ans) (v.setMemory memory) Q F) :
    Does E uuids may C (.op o next) v Q F := by
  refine plain ?_ hc ?_
  · cases o <;> first | rfl | cases ho
  rintro d b rfl c - ans t hs
  have ht : Books.of t b = (Books.of d b).setMemory memory := by
    cases o with
    | lockCatalog | lockDatabases =>
      simp only [daemonWorld, Daemon.step] at hs
      split at hs
      · cases hs
      · cases hs
        cases ho
        rfl
    | unlockCatalog | writeCatalog _ | unlockDatabases | insertHandle _ | removeHandle _
    | newHandle _ _ =>
      cases Option.some.inj hs
      cases ho
      rfl
    | _ => cases ho
  rw [ht]
  exact h ans

theorem readCatalog {k : Catalog → Prog daemon ε β} (hc : C v)
    (h : Does E uuids may C (k v.memory.catalog) v Q F) :
    Does E uuids may C ((Prog.call (S := daemon) .readCatalog).bind k) v Q F := by
  refine plain rfl hc ?_
  rintro d b rfl c - ans t hs
  cases Option.some.inj hs
  exact h

theorem getHandle {k : Option ManagedDatabase → Prog daemon ε β} (hc : C v)
    (h : Does E uuids may C (k (v.memory.databases id)) v Q F) :
    Does E uuids may C ((Prog.call (S := daemon) (.getHandle id)).bind k) v Q F := by
  refine plain rfl hc ?_
  rintro d b rfl c - ans t hs
  cases Option.some.inj hs
  exact h

theorem readHandle {k : Option ManagedDatabase → Prog daemon ε β} (hc : C v)
    (h : Does E uuids may C (k (v.memory.databases id)) v Q F) :
    Does E uuids may C ((Prog.call (S := daemon) (.readHandle id)).bind k) v Q F := by
  refine plain rfl hc ?_
  rintro d b rfl c - ans t hs
  simp only [daemonWorld, Daemon.step] at hs
  split at hs
  · cases hs
  · cases hs
    exact h

/-- The catalog lock is taken around `body`, and given back however it ends. -/
theorem withCatalog {body : Catalog → Prog daemon ε β} (hc : C v)
    (hlock : C (v.setMemory { v.memory with catalogLocked := true }))
    (h : Does E uuids may C (body v.memory.catalog)
      (v.setMemory { v.memory with catalogLocked := true })
      (fun a w => C w ∧ Q a (w.setMemory { w.memory with catalogLocked := false }))
      (fun e w => C w ∧ F e (w.setMemory { w.memory with catalogLocked := false }))) :
    Does E uuids may C (withCatalog body) v Q F := by
  refine inner rfl hc fun _ => readCatalog hlock (Exec.attempt (h.mono (fun _ h => h) ?_ ?_))
  · rintro a w ⟨hw, hq⟩
    exact inner rfl hw fun _ => Exec.pure hq
  · rintro e w ⟨hw, hf⟩
    exact inner rfl hw fun _ => Exec.fail hf

theorem withDatabases {body : Prog daemon ε β} (hc : C v)
    (h : Does E uuids may C body (v.setMemory { v.memory with databasesLocked := true })
      (fun a w => C w ∧ Q a (w.setMemory { w.memory with databasesLocked := false }))
      (fun e w => C w ∧ F e (w.setMemory { w.memory with databasesLocked := false }))) :
    Does E uuids may C (withDatabases body) v Q F := by
  refine inner rfl hc fun _ => Exec.attempt (h.mono (fun _ h => h) ?_ ?_)
  · rintro a w ⟨hw, hq⟩
    exact inner rfl hw fun _ => Exec.pure hq
  · rintro e w ⟨hw, hf⟩
    exact inner rfl hw fun _ => Exec.fail hf

-- ---------------------------------------------------------------------------
-- Programs on one Database
-- ---------------------------------------------------------------------------

theorem inside {p : Prog storage ε β} (hd : v.entry (.database id) = some (.directory files))
    (h : (storageSetting E may).Wp (fun t => C (v.withSite id t)) p (v.site id files)
      (fun a t => Q a (v.withSite id t)) (fun e t => F e (v.withSite id t))) :
    Does E uuids may C (inside id p) v Q F := by
  rintro ⟨d, l⟩ hv
  have em : Setting.Embeds (storageSetting E may)
      ((daemonWorld E uuids).logged.alone fun _ c => may c) (.storage id) (fun _ ans => ans)
      fun s t => t.1.hasDirectory (.database id) = true ∧ t.1.site id = s ∧
        books t = v.withSite id s := by
    constructor
    · rintro s t _ hr rfl
      exact ⟨s, rfl, hr⟩
    · rintro _ ⟨t, l⟩ o c ans ⟨t', l'⟩ ⟨hdir, rfl, hbooks⟩ hm hs
      have hs : ((daemonWorld E uuids).step (.storage id o) c t).map
        (fun r => (r.1, r.2, l ++ [.storage id o])) = some (ans, t', l') := hs
      obtain ⟨⟨ans', u⟩, hs', hr⟩ := Option.map_eq_some_iff.mp hs
      cases hr
      obtain ⟨s', hstep, rfl⟩ := storage_step_cases hdir hs'
      refine ⟨hm, trivial, s', hstep, ?_, Daemon.site_putSite hdir, ?_⟩
      · exact ((Daemon.within_putSite hdir).hasDirectory _).trans hdir
      · rw [books_append, Books.of_putSite hdir]
        have hflag : (l.any DaemonOp.installs || DaemonOp.installs (.storage id o)) =
            l.any DaemonOp.installs := by simp [DaemonOp.installs]
        rw [hflag]
        exact (congrArg (Books.withSite · id s') hbooks).trans (v.withSite_withSite id _ s')
  have hdir : d.hasDirectory (.database id) = true :=
    Daemon.hasDirectory_iff.mpr ⟨files, (congrArg (Books.entry · (.database id)) hv).trans hd⟩
  have hsite : d.site id = v.site id files := by
    have hfiles : d.filesOf id = files :=
      Daemon.filesOf_eq ((congrArg (Books.entry · (.database id)) hv).trans hd)
    rw [← hv]
    simp only [Daemon.site, hfiles, Books.site, books, Books.of]
  have hr : books (d, l) = v.withSite id (v.site id files) := by
    rw [Books.withSite_site hd, hv]
  refine (Setting.Wp.lift em h ⟨hdir, hsite, hr⟩).mono ?_ ?_ ?_
  · rintro t ⟨s, ⟨-, -, hb⟩, hc⟩
    rwa [hb]
  · rintro a t ⟨s, ⟨-, -, hb⟩, hq⟩
    rwa [hb]
  · rintro e t ⟨s, ⟨-, -, hb⟩, hf⟩
    rwa [hb]

/-- A step on the handle of a Database that leaves its files alone. -/
theorem still {o : StorageOp} {next : o.Ans → Prog daemon ε β} (ho : o.Still) (hc : C v)
    (h : ∀ files c ans s, Site.step E o c (v.site id files) = some (ans, s) →
      Does E uuids may C (next ans) (v.setHandle id ⟨s.slot, s.locked⟩) Q F) :
    Does E uuids may C (.op (.storage id o) next) v Q F := by
  refine plain rfl hc ?_
  rintro d b rfl c hmc ans t hs
  change (Site.step E o (d.outcomeAt id o c) (d.site id)).map
    (fun r => (r.1, d.putSite id r.2)) = some (ans, t) at hs
  obtain ⟨⟨ans', s⟩, hs', hr⟩ := Option.map_eq_some_iff.mp hs
  cases hr
  have hentry : (d.putSite id s).entry = d.entry := Daemon.entry_putSite_of_files (ho.files hs')
  have ht : Books.of (d.putSite id s) b = (Books.of d b).setHandle id ⟨s.slot, s.locked⟩ := by
    simp only [Books.of, Books.setHandle, Books.setMemory, hentry, Daemon.memory_putSite, Daemon.issued_putSite]
  rw [ht]
  exact h (d.filesOf id) _ ans' s hs'

theorem lock {next : Unit → Prog daemon ε β} (hc : C v)
    (h : (v.memory.handles id).locked = false →
      Does E uuids may C (next ()) (v.setHandle id ⟨(v.memory.handles id).slot, true⟩) Q F) :
    Does E uuids may C (.op (.storage id .lock) next) v Q F := by
  refine still trivial hc fun files c ans s hs => ?_
  change (if (v.memory.handles id).locked then none else some ((), _)) = some (ans, s) at hs
  split at hs
  · cases hs
  · rename_i hl
    cases hs
    exact h (by simpa using hl)

theorem unlock {next : Unit → Prog daemon ε β} (hc : C v)
    (h : Does E uuids may C (next ()) (v.setHandle id ⟨(v.memory.handles id).slot, false⟩) Q F) :
    Does E uuids may C (.op (.storage id .unlock) next) v Q F := by
  refine still trivial hc fun files c ans s hs => ?_
  cases hs
  exact h

theorem take {next : Option Database → Prog daemon ε β} (hc : C v)
    (h : Does E uuids may C (next (v.memory.handles id).slot)
      (v.setHandle id ⟨none, (v.memory.handles id).locked⟩) Q F) :
    Does E uuids may C (.op (.storage id .take) next) v Q F := by
  refine still trivial hc fun files c ans s hs => ?_
  cases hs
  exact h

theorem put {d : Database} {next : Unit → Prog daemon ε β} (hc : C v)
    (h : Does E uuids may C (next ())
      (v.setHandle id ⟨some d, (v.memory.handles id).locked⟩) Q F) :
    Does E uuids may C (.op (.storage id (.put d)) next) v Q F := by
  refine still trivial hc fun files c ans s hs => ?_
  cases hs
  exact h

theorem checkpoint {d : Database} {next : Except DatabaseError Unit → Prog daemon ε β} (hc : C v)
    (h : ∀ r, Does E uuids may C (next r) v Q F) :
    Does E uuids may C (.op (.storage id (.checkpoint d)) next) v Q F := by
  refine still trivial hc fun files c ans s hs => ?_
  have hsame : s = v.site id files := by
    simp only [Site.step] at hs
    split at hs <;> cases hs <;> rfl
  have hback : v.setHandle id ⟨s.slot, s.locked⟩ = v := by
    subst hsame
    exact Books.setHandle_self rfl
  rw [hback]
  exact h ans

/-- Opening the Database file again. -/
theorem openDatabase {k : Except String Database → Prog daemon ε β} (hc : C v)
    (hok : ∀ files b, v.entry (.database id) = some (.directory files) →
      files .database = some (.file b) → E.accepts b = .ok () →
      Does E uuids may C (k (.ok ⟨b⟩))
        (v.withSite id ((v.site id files).leaveLockFile E .database)) Q F)
    (hfail : ∀ e, (Faulty may ∨ ∀ files b, v.entry (.database id) = some (.directory files) →
      files .database = some (.file b) → E.accepts b = .error e) →
      Does E uuids may C (k (.error e)) v Q F) :
    Does E uuids may C
      ((NostdbServer.inside id (.call (S := storage) (.openDatabase .database))).bind k) v Q F := by
  refine plain rfl hc ?_
  rintro d b rfl c hmc ans t hs
  change (Site.step E (.openDatabase .database) (d.outcomeAt id (.openDatabase .database) c)
    (d.site id)).map (fun r => (r.1, d.putSite id r.2)) = some (ans, t) at hs
  have hoc : d.outcomeAt id (.openDatabase .database) c = c := by
    unfold Daemon.outcomeAt
    split <;> rfl
  obtain ⟨⟨ans', s⟩, hs', hr⟩ := Option.map_eq_some_iff.mp hs
  cases hr
  rw [hoc] at hs'
  have hsame : Books.of (d.putSite id (d.site id)) b = Books.of d b := by
    by_cases hd : d.hasDirectory (.database id) = true
    · obtain ⟨files, hn⟩ := Daemon.hasDirectory_iff.mp hd
      rw [Books.of_putSite hd, show d.site id = (Books.of d b).site id files by
        simp only [Daemon.site, Daemon.filesOf_eq hn, Books.site, Books.of]]
      exact Books.withSite_site hn
    · simp [Daemon.putSite, hd, Daemon.setHandle, Daemon.site, Books.of]
  obtain ⟨m, rfl, rfl, hm⟩ | ⟨-, bytes, a, hb, hact, rfl⟩ :=
    Site.engineStep_cases (Option.some.inj hs')
  · rw [hsame]
    refine hfail m ?_
    obtain ⟨e, he, -⟩ | ⟨-, hact⟩ := hm
    · exact .inl (injected_of_error? hmc he).faulty
    · refine .inr fun files bytes hn hf => map_error.mp (hact bytes ?_)
      rw [Daemon.site, Daemon.filesOf_eq hn]
      exact hf
  · obtain ⟨_, ha, hr⟩ := map_ok.mp hact
    cases hr
    have hd : d.hasDirectory (.database id) = true := by
      by_contra hd
      have hfiles : d.filesOf id = .empty := by
        unfold Daemon.filesOf
        split
        · rename_i files hn
          exact absurd (Daemon.hasDirectory_iff.mpr ⟨files, hn⟩) hd
        · rfl
      rw [Daemon.site, hfiles] at hb
      cases hb
    obtain ⟨files, hn⟩ := Daemon.hasDirectory_iff.mp hd
    have hsite : d.site id = (Books.of d b).site id files := by
      simp only [Daemon.site, Daemon.filesOf_eq hn, Books.site, Books.of]
    rw [Books.of_putSite hd, hsite]
    rw [hsite] at hb
    exact hok files bytes hn hb ha

theorem isFile {k : Bool → Prog daemon ε β} (hc : C v)
    (hd : v.entry (.database id) = some (.directory files))
    (h : Does E uuids may C (k ((files .database).bind FileLike.bytes?).isSome) v Q F) :
    Does E uuids may C
      ((NostdbServer.inside id (.call (S := storage) (.file (.isFile .database)))).bind k) v Q F := by
  refine Exec.bind (inside hd ?_)
  have hcrash : C (v.withSite id (v.site id files)) := by rwa [Books.withSite_site hd]
  rintro _ rfl
  refine ⟨hcrash, fun c _ ans t hs => ⟨trivial, ?_⟩⟩
  cases Option.some.inj hs
  rintro _ rfl
  change Does E uuids may C (k _) (v.withSite id (v.site id files)) Q F
  rw [Books.withSite_site hd]
  exact h

-- ---------------------------------------------------------------------------
-- Runs
-- ---------------------------------------------------------------------------

section
variable {p : Prog daemon ε α} {Q : α → Books → Prop} {d d' : Daemon}

/-- Wherever the program is cut. -/
theorem stopped (h : Does E uuids may C p (.of d false) Q F) (hq : ∀ a w, Q a w → C w)
    (hf : ∀ e w, F e w → C w) (cs : List Outcome) (hcs : ∀ c ∈ cs, may c) :
    ∃ installed, C (.of ((daemonWorld E uuids).run cs p d).2 installed) := by
  have hcut := h.cut hq hf (s := (d, [])) rfl cs fun _ c hc => hcs c hc
  rw [books, ((daemonWorld E uuids).run_logged cs p d []).2] at hcut
  exact ⟨_, hcut⟩

/-- Wherever it is cut, and then takes one more step. -/
theorem stepped (h : Does E uuids may C p (.of d false) Q F) (hq : ∀ a w, Q a w → C w)
    (hf : ∀ e w, F e w → C w) (cs : List Outcome) (hcs : ∀ c ∈ cs, may c)
    (hnext : ((daemonWorld E uuids).run cs p d).1.next? = some o) (hc : may c)
    (hs : (daemonWorld E uuids).step o c ((daemonWorld E uuids).run cs p d).2 = some (ans, d')) :
    ∃ installed, C (.of d' installed) := by
  obtain ⟨hrest, hstate⟩ := (daemonWorld E uuids).run_logged cs p d []
  have hs' : (daemonWorld E uuids).logged.step o c
      ((daemonWorld E uuids).logged.run cs p (d, [])).2 =
        some (ans, d', ((daemonWorld E uuids).logged.run cs p (d, [])).2.2 ++ [o]) := by
    simp only [logged] at hstate ⊢
    rw [hstate, hs]
    rfl
  exact ⟨_, h.cutAfter hq hf (s := (d, [])) rfl cs (fun _ c hc => hcs c hc)
    (hrest ▸ hnext) hc hs'⟩

/-- How a complete run ends. -/
theorem ended (h : Does E uuids may C p (.of d false) Q F) (hc : may c)
    (he : (daemonWorld E uuids).eval c p d = some (r, d')) :
    ∃ installed, Setting.Post Q F r (.of d' installed) := by
  obtain ⟨l, hl⟩ := World.eval_logged he []
  exact ⟨_, Exec.eval h (s := (d, [])) rfl (fun _ => hc) hl⟩

end

end Does

end NostdbServer
