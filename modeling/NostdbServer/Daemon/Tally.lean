import NostdbServer.Daemon.Calls
import NostdbServer.Effects.Accounts

/-!
# What a thread has to do with one Database

The `Tally` of a thread on the Database `x`: which locks it holds, what it found
in the handle, whether it has taken the Database out of it, and whether it is
about to create it. `bookkeeping` is the discipline of the daemon's operations:
the catalog is written under its lock and loses no Database that was not closed
before, a handle is filled by who has emptied it, and statements are executed by
who has found the Database open and has not let go of its mutex since.
-/

namespace NostdbServer

open Effects Discipline

structure Tally where
  /-- The catalog lock is held. -/
  holds : Bool
  /-- The first look at the catalog since, or what it was set to. -/
  read : Option Catalog
  /-- The identifier was drawn, and there is no handle for it yet. -/
  drawn : Bool
  made : Bool
  /-- A handle of the Database was found in the map. -/
  knows : Bool
  /-- The mutex of the handle is held. -/
  guard : Bool
  peeked : Bool
  taken : Bool
  /-- The Database was taken out to be dropped. -/
  closed : Bool
  deriving DecidableEq

def Tally.start : Tally := ⟨false, none, false, false, false, false, false, false, false⟩

/-- Nothing is held and nothing is under way. -/
structure Tally.AtEase (m : Tally) : Prop where
  holds : m.holds = false
  drawn : m.drawn = false
  made : m.made = false
  guard : m.guard = false
  peeked : m.peeked = false
  taken : m.taken = false
  closed : m.closed = false

theorem Tally.atEase_start : Tally.start.AtEase := ⟨rfl, rfl, rfl, rfl, rfl, rfl, rfl⟩

-- ---------------------------------------------------------------------------
-- The discipline
-- ---------------------------------------------------------------------------

namespace StorageOp

def tallied (m : Tally) : (o : StorageOp) → o.Ans → Tally
  | .lock, _ => { m with guard := true }
  | .unlock, _ =>
    { m with
      guard := false, peeked := false, taken := false, closed := m.closed || (m.taken && m.holds) }
  | .take, ans => { m with peeked := false, taken := m.taken || Option.isSome ans }
  | .put _, _ => { m with taken := false, closed := false }
  | .peek, ans => { m with peeked := Option.isSome ans }
  | _, _ => m

def Permitted (m : Tally) : StorageOp → Prop
  | .lock => m.knows = true
  | .unlock | .take | .peek => m.guard = true
  | .put _ => m.guard = true ∧ (m.taken = true ∨ m.closed = true)
  | .execute _ _ | .executeTransaction _ _ => m.guard = true ∧ m.peeked = true
  | _ => True

/-- No matter of the handle. -/
def Aside : StorageOp → Prop
  | .lock | .unlock | .take | .put _ | .peek | .execute _ _ | .executeTransaction _ _ => False
  | _ => True

theorem Aside.permitted {o : StorageOp} (h : o.Aside) (m : Tally) :
    o.Permitted m ∧ ∀ ans, o.tallied m ans = m := by
  cases o <;> first | exact h.elim | exact ⟨trivial, fun _ => rfl⟩

end StorageOp

namespace DaemonOp

def tallied (x : String) (m : Tally) : (o : DaemonOp) → o.Ans → Tally
  | .lockCatalog, _ => { m with holds := true, read := none }
  | .unlockCatalog, _ => { m with holds := false, drawn := false, made := false, closed := false }
  | .readCatalog, ans => { m with read := m.read.or (some ans) }
  | .writeCatalog catalog, _ => { m with read := some catalog, closed := false }
  | .newId, (ans : String) => { m with drawn := m.drawn || decide (ans = x) }
  | .newHandle id _, _ => if id = x then { m with drawn := false, made := true } else m
  | .getHandle _, ans | .readHandle _, ans =>
    { m with knows := m.knows || Option.any (fun handle : ManagedDatabase => handle.id = x) ans }
  | .storage id o, ans => if id = x then o.tallied m ans else m
  | _, _ => m

def Permitted (x : String) (m : Tally) : DaemonOp → Prop
  | .unlockCatalog => m.holds = true
  | .writeCatalog next => m.holds = true ∧ ∃ c, m.read = some c ∧
      (x ∈ next.ids → x ∈ c.ids ∨ m.drawn = true) ∧ (x ∈ c.ids → x ∈ next.ids ∨ m.closed = true)
  | .newId => m.holds = true ∧ m.drawn = false ∧ m.made = false
  | .newHandle id _ => id = x → m.drawn = true
  | .insertHandle handle => handle.id = x → m.made = true ∨ m.knows = true
  | .storage id o => id = x → o.Permitted m
  | _ => True

/-- A handle is found under its own identifier. -/
def Faithful : (o : DaemonOp) → o.Ans → Prop
  | .getHandle id, ans | .readHandle id, ans => ∀ handle, ans = some handle → handle.id = id
  | _, _ => True

end DaemonOp

/-- On the handle of the Database itself. -/
def guarding : Discipline storage Tally where
  allowed m o := StorageOp.Permitted m o
  admits _ _ _ := True
  next m o ans := StorageOp.tallied m o ans

def bookkeeping (x : String) : Discipline daemon Tally where
  allowed m o := DaemonOp.Permitted x m o
  admits _ o ans := DaemonOp.Faithful o ans
  next m o ans := DaemonOp.tallied x m o ans

section
variable {x id : String}

theorem asideOnly_obeys {p : Prog storage ε α} (hp : p.Only StorageOp.Aside) (m : Tally) :
    guarding.Obeys p m (fun _ m' => m' = m) (fun _ m' => m' = m) := by
  refine Obeys.of_only hp ?_ rfl
  intro m' o hm ho
  subst hm
  exact ⟨(ho.permitted m').1, fun ans _ => (ho.permitted m').2 ans⟩

/-- A program on a Database concerns the tally only if it is that Database. -/
theorem inside_obeys {m : Tally} {p : Prog storage ε α} {Q : α → Tally → Prop}
    {F : ε → Tally → Prop}
    (hown : id = x → guarding.Obeys p m Q F)
    (hother : id ≠ x → (∀ a, Q a m) ∧ ∀ e, F e m) :
    (bookkeeping x).Obeys (inside id p) m Q F := by
  by_cases hid : id = x
  · refine Obeys.lift (fun _ _ ho _ => ho) (fun _ _ _ _ => trivial) ?_ (hown hid)
    exact fun m o ans => if_pos hid
  · have honly : (inside id p).Only (S := daemon) fun o => ∃ o', o = .storage id o' :=
      Prog.Only.lift (T := daemon) (Prog.Only.of_forall (fun o => ⟨o, rfl⟩) p)
    have hsame := Obeys.of_only (D := bookkeeping x) (M := (· = m)) (m := m) honly (by
      rintro _ _ rfl ⟨o, rfl⟩
      exact ⟨fun h => absurd h hid, fun ans _ => if_neg hid⟩) rfl
    refine hsame.mono ?_ ?_
    · rintro a _ rfl
      exact (hother hid).1 a
    · rintro e _ rfl
      exact (hother hid).2 e

/-- Work on the side leaves the tally to what follows. -/
theorem asideOnly_bind {m : Tally} {p : Prog storage ε α} {f : α → Prog storage ε β}
    {Q : β → Tally → Prop} {F : ε → Tally → Prop} (hp : p.Only StorageOp.Aside)
    (hf : ∀ a, guarding.Obeys (f a) m Q F) (he : ∀ e, F e m) : guarding.Obeys (p.bind f) m Q F := by
  refine Obeys.bind ((asideOnly_obeys hp m).mono ?_ ?_)
  · rintro a _ rfl
    exact hf a
  · rintro e _ rfl
    exact he e

end

-- ---------------------------------------------------------------------------
-- Inside one Database
-- ---------------------------------------------------------------------------

namespace Tally

/-- At ease, with a handle of the Database at hand. -/
structure Acquainted (m : Tally) : Prop extends m.AtEase where
  knows : m.knows = true

/-- Under the mutex of the handle, and under no other lock. -/
structure Guarded (m : Tally) : Prop where
  holds : m.holds = false
  drawn : m.drawn = false
  made : m.made = false
  knows : m.knows = true
  guard : m.guard = true
  closed : m.closed = false

end Tally

section
variable {handle : ManagedDatabase} {f : DbFile} {K : Codec RestoreJournal} {m : Tally}

theorem withGuard_keeps {body : Prog storage ε α} (h : guarding.Keeps Tally.Guarded body) :
    guarding.Keeps Tally.Acquainted (withGuard body) := by
  intro m hm
  have hunlock : ∀ m : Tally, m.Guarded → (StorageOp.tallied m .unlock ()).Acquainted :=
    fun m hm => ⟨⟨hm.holds, hm.drawn, hm.made, rfl, rfl, rfl, by
      simp [StorageOp.tallied, hm.closed, hm.holds]⟩, hm.knows⟩
  refine Obeys.step hm.knows fun _ _ => Obeys.bind (Obeys.attempt ((h _ ?_).mono ?_ ?_))
  · exact ⟨hm.holds, hm.drawn, hm.made, hm.knows, rfl, hm.closed⟩
  · exact fun a m hm => Obeys.step hm.guard fun _ _ => hunlock m hm
  · exact fun e m hm => Obeys.step hm.guard fun _ _ => hunlock m hm

theorem onOpen_keeps {body : Database → Prog storage ProtocolFailure α}
    (h : ∀ database, (body database).Only StorageOp.Aside) :
    guarding.Keeps Tally.Acquainted (onOpen body) := by
  refine withGuard_keeps fun m hm => Obeys.step hm.guard ?_
  have hm' (ans : Option Database) : (StorageOp.tallied m .peek ans).Guarded :=
    ⟨hm.holds, hm.drawn, hm.made, hm.knows, hm.guard, hm.closed⟩
  rintro (_ | database) -
  · exact hm' none
  · refine (asideOnly_obeys (h database) _).mono ?_ ?_
    · rintro _ _ rfl
      exact hm' (some database)
    · rintro _ _ rfl
      exact hm' (some database)

theorem aside_of_tidies {p : Prog storage ε α} (h : p.Only StorageOp.Tidies) :
    p.Only StorageOp.Aside := by
  refine h.mono fun o ho => ?_
  cases o <;> trivial

theorem syncRestoreDirectory_aside :
    ((syncRestoreDirectory handle).mapError (internal ·.message)).Only StorageOp.Aside :=
  (aside_of_tidies syncRestoreDirectory_tidies).mapError

theorem writeNewSynced_aside {bytes : Bytes} :
    (writeNewSynced handle f bytes).Only StorageOp.Aside := by
  refine Prog.Only.step trivial ?_
  rintro ((_ | _) | _)
  · trivial
  · refine Prog.Only.step trivial ?_
    rintro (_ | _)
    · dsimp only
      split <;> trivial
    · trivial
  · trivial

theorem prepareSnapshot_aside {bytes : Bytes} :
    (prepareSnapshot K handle bytes).Only StorageOp.Aside := by
  refine writeNewSynced_aside.bind fun _ => Prog.Only.step trivial ?_
  rintro (_ | _)
  · trivial
  refine Prog.Only.step trivial ?_
  rintro (_ | _ | _)
  · trivial
  · trivial
  refine Prog.Only.step trivial ?_
  rintro (_ | _)
  · trivial
  refine Prog.Only.step trivial ?_
  rintro (_ | _)
  · trivial
  exact writeNewSynced_aside.bind fun _ => syncRestoreDirectory_aside

/-- The Database is put back, and nothing is done to the handle after that. -/
theorem Tally.Guarded.put {database : Database} {k : Unit → Prog storage ε α} (h : m.Guarded)
    (htaken : m.taken = true) (hk : (k ()).Only StorageOp.Aside) :
    guarding.Obeys ((Prog.call (S := storage) (.put database)).bind k) m
      (fun _ => Tally.Guarded) (fun _ => Tally.Guarded) := by
  have hm : (StorageOp.tallied m (.put database) ()).Guarded :=
    ⟨h.holds, h.drawn, h.made, h.knows, h.guard, rfl⟩
  refine Obeys.step ⟨h.guard, .inl htaken⟩ fun _ _ => (asideOnly_obeys hk _).mono ?_ ?_
  · rintro _ _ rfl
    exact hm
  · rintro _ _ rfl
    exact hm

theorem reopenLive_obeys {what reopening : String} (h : m.Guarded) (htaken : m.taken = true) :
    guarding.Obeys (reopenLive handle what reopening) m
      (fun _ => Tally.Guarded) (fun _ => Tally.Guarded) := by
  refine Obeys.step trivial ?_
  rintro (_ | database) -
  · exact h
  · refine h.put htaken ((aside_of_tidies cleanupUncommittedRestore_tidies).attempt.bind ?_)
    rintro (_ | _) <;> trivial

theorem rollBackInstalled_obeys {error : String} (h : m.Guarded) (htaken : m.taken = true) :
    guarding.Obeys (rollBackInstalled handle error) m
      (fun _ => Tally.Guarded) (fun _ => Tally.Guarded) := by
  refine Obeys.step trivial ?_
  rintro (_ | _) -
  · exact h
  refine asideOnly_bind (aside_of_tidies removeSidecar_tidies) (fun _ => ?_) fun _ => h
  refine asideOnly_bind syncRestoreDirectory_aside (fun _ => Obeys.step trivial ?_) fun _ => h
  rintro (_ | _) -
  · exact h
  · exact asideOnly_bind syncRestoreDirectory_aside (fun _ => reopenLive_obeys h htaken) fun _ => h

theorem installSnapshot_keeps : guarding.Keeps Tally.Guarded (installSnapshot handle) := by
  intro m₀ h₀
  refine Obeys.step h₀.guard ?_
  rintro (_ | current) -
  · exact ⟨h₀.holds, h₀.drawn, h₀.made, h₀.knows, h₀.guard, h₀.closed⟩
  have h : (StorageOp.tallied m₀ .take (some current)).Guarded :=
    ⟨h₀.holds, h₀.drawn, h₀.made, h₀.knows, h₀.guard, h₀.closed⟩
  have htaken : (StorageOp.tallied m₀ .take (some current)).taken = true := by
    simp [StorageOp.tallied]
  refine Obeys.step trivial ?_
  rintro (error | _) -
  · refine h.put htaken ((aside_of_tidies cleanupUncommittedRestore_tidies).attempt.bind ?_)
    rintro (_ | _) <;> trivial
  refine Obeys.step trivial ?_
  rintro (_ | _) -
  · exact reopenLive_obeys h htaken
  refine asideOnly_bind syncRestoreDirectory_aside (fun _ => Obeys.step trivial ?_) fun _ => h
  rintro (_ | _) -
  · refine Obeys.step trivial ?_
    rintro (_ | _) -
    · exact h
    · exact asideOnly_bind syncRestoreDirectory_aside (fun _ => reopenLive_obeys h htaken)
        fun _ => h
  refine asideOnly_bind syncRestoreDirectory_aside (fun _ => Obeys.step trivial ?_) fun _ => h
  rintro (_ | database) -
  · exact rollBackInstalled_obeys h htaken
  · exact h.put htaken (aside_of_tidies cleanupCommittedRestore_tidies)

theorem asideOnly_keeps {M : Tally → Prop} {p : Prog storage ε α} (hp : p.Only StorageOp.Aside) :
    guarding.Keeps M p := by
  refine fun m hm => (asideOnly_obeys hp m).mono ?_ ?_
  · rintro _ _ rfl
    exact hm
  · rintro _ _ rfl
    exact hm

theorem restoreSnapshotWithOperations_keeps {bytes : Bytes} :
    guarding.Keeps Tally.Acquainted (restoreSnapshotWithOperations K handle bytes) := by
  unfold restoreSnapshotWithOperations
  split
  · exact Keeps.fail _
  refine (asideOnly_keeps (aside_of_tidies
    cleanupUnjournaledRestoreCandidate_tidies).mapError).bind fun _ => ?_
  refine (asideOnly_keeps (aside_of_tidies (refuseLeftovers_tidies _))).bind fun _ => ?_
  refine ((asideOnly_keeps prepareSnapshot_aside).bind fun _ =>
    withGuard_keeps installSnapshot_keeps).attempt.bind ?_
  rintro (_ | _)
  · exact (asideOnly_keeps (aside_of_tidies dropUnjournaledCandidate_tidies)).bind
      fun _ => Keeps.fail _
  · exact Keeps.pure _

end

-- ---------------------------------------------------------------------------
-- Under the lock of the catalog
-- ---------------------------------------------------------------------------

namespace Tally

/-- The catalog lock is held, and no handle's. -/
structure Alone (m : Tally) : Prop where
  holds : m.holds = true
  guard : m.guard = false
  peeked : m.peeked = false
  taken : m.taken = false

/-- The lock was just taken, on this catalog. -/
structure Holding (catalog : Catalog) (m : Tally) : Prop extends m.Alone where
  read : m.read = some catalog
  drawn : m.drawn = false
  made : m.made = false
  closed : m.closed = false

end Tally

/-- Files and directories, the lock of the map, and a second look at the
catalog. -/
def DaemonOp.Beside : DaemonOp → Prop
  | .root _ | .isDir _ | .createDir _ | .removeDir _ | .createDatabase _ | .readCatalog
  | .lockDatabases | .unlockDatabases | .removeHandle _ => True
  | _ => False

section
variable {x : String} {m : Tally} {root : DataDirectory}

theorem besideOnly_bind {p : Prog daemon ε α} {f : α → Prog daemon ε β} {Q : β → Tally → Prop}
    {F : ε → Tally → Prop} (hp : p.Only DaemonOp.Beside) (hread : m.read.isSome = true)
    (hf : ∀ a, (bookkeeping x).Obeys (f a) m Q F) (he : ∀ e, F e m) :
    (bookkeeping x).Obeys (p.bind f) m Q F := by
  have hsame := Obeys.of_only (D := bookkeeping x) (M := (· = m)) (m := m) hp (by
    intro m' o hm ho
    subst hm
    obtain ⟨c, hc⟩ := Option.isSome_iff_exists.mp hread
    cases o <;> first | exact ho.elim | exact ⟨trivial, fun _ _ => rfl⟩ | skip
    refine ⟨trivial, fun ans _ => ?_⟩
    simp only [bookkeeping, DaemonOp.tallied, hc, Option.some_or]
    rw [← hc]) rfl
  refine Obeys.bind (hsame.mono ?_ ?_)
  · rintro a _ rfl
    exact hf a
  · rintro e _ rfl
    exact he e

theorem withCatalog_keeps {body : Catalog → Prog daemon ε α}
    (h : ∀ catalog m, Tally.Holding catalog m →
      (bookkeeping x).Obeys (body catalog) m (fun _ => Tally.Alone) (fun _ => Tally.Alone)) :
    (bookkeeping x).Keeps Tally.AtEase (withCatalog body) := by
  intro m hm
  refine Obeys.step trivial fun _ _ => Obeys.step trivial fun catalog _ =>
    Obeys.bind (Obeys.attempt ((h catalog _ ?_).mono ?_ ?_))
  · exact ⟨⟨rfl, hm.guard, hm.peeked, hm.taken⟩, rfl, hm.drawn, hm.made, hm.closed⟩
  · exact fun a m hm => Obeys.step hm.holds fun _ _ =>
      ⟨rfl, rfl, rfl, hm.guard, hm.peeked, hm.taken, rfl⟩
  · exact fun e m hm => Obeys.step hm.holds fun _ _ =>
      ⟨rfl, rfl, rfl, hm.guard, hm.peeked, hm.taken, rfl⟩

theorem withDatabases_obeys {body : Prog daemon ε α} {Q : α → Tally → Prop}
    {F : ε → Tally → Prop} (h : (bookkeeping x).Obeys body m Q F) :
    (bookkeeping x).Obeys (withDatabases body) m Q F := by
  refine Obeys.step trivial fun _ _ => Obeys.bind (Obeys.attempt (h.mono ?_ ?_))
  · exact fun _ _ h => Obeys.step trivial fun _ _ => h
  · exact fun _ _ h => Obeys.step trivial fun _ _ => h

theorem listDatabases_keeps : (bookkeeping x).Keeps Tally.AtEase listDatabases :=
  withCatalog_keeps fun _ _ hm => hm.toAlone

theorem entryOf_keeps {name : String} : (bookkeeping x).Keeps Tally.AtEase (entryOf name) := by
  refine withCatalog_keeps fun catalog m hm => ?_
  split
  · exact hm.toAlone
  · exact hm.toAlone

theorem selectDatabase_keeps {name : String} :
    (bookkeeping x).Keeps Tally.AtEase (selectDatabase name) :=
  entryOf_keeps.bind fun _ => Keeps.pure _

-- ---------------------------------------------------------------------------
-- Through the handle
-- ---------------------------------------------------------------------------

/-- At ease, with this handle at hand. -/
structure Tally.Has (x : String) (handle : ManagedDatabase) (m : Tally) : Prop
    extends m.AtEase where
  knows : handle.id = x → m.knows = true

theorem handleOf_obeys {id : String} (h : m.AtEase) :
    (bookkeeping x).Obeys (handleOf id) m (fun handle => Tally.Has x handle)
      (fun _ => Tally.AtEase) := by
  refine Obeys.step trivial ?_
  rintro (_ | handle) -
  · exact ⟨h.holds, h.drawn, h.made, h.guard, h.peeked, h.taken, h.closed⟩
  · refine ⟨⟨h.holds, h.drawn, h.made, h.guard, h.peeked, h.taken, h.closed⟩, fun hid => ?_⟩
    simp [bookkeeping, DaemonOp.tallied, hid]

theorem handleForName_obeys {name : String} (h : m.AtEase) :
    (bookkeeping x).Obeys (handleForName name) m (fun handle => Tally.Has x handle)
      (fun _ => Tally.AtEase) :=
  Obeys.bind ((entryOf_keeps m h).mono (fun _ _ h => handleOf_obeys h) fun _ _ h => h)

theorem handleForSelectedId_obeys {id : String} (h : m.AtEase) :
    (bookkeeping x).Obeys (handleForSelectedId id) m (fun handle => Tally.Has x handle)
      (fun _ => Tally.AtEase) := by
  have hlook : (bookkeeping x).Keeps Tally.AtEase (withCatalog fun catalog =>
      (.pure (catalog.databases.any (·.id = id)) : Prog daemon ProtocolFailure Bool)) :=
    withCatalog_keeps fun _ _ hm => hm.toAlone
  refine Obeys.bind ((hlook m h).mono (fun found m h => ?_) fun _ _ h => h)
  split
  · exact h
  · exact handleOf_obeys h

theorem Tally.Has.inside {handle : ManagedDatabase} {p : Prog storage ε α} (h : m.Has x handle)
    (hp : guarding.Keeps Tally.Acquainted p) :
    (bookkeeping x).Obeys (inside handle.id p) m (fun _ => Tally.AtEase) (fun _ => Tally.AtEase) :=
  inside_obeys
    (fun hid => (hp m ⟨h.toAtEase, h.knows hid⟩).mono (fun _ _ h => h.toAtEase)
      fun _ _ h => h.toAtEase)
    fun _ => ⟨fun _ => h.toAtEase, fun _ => h.toAtEase⟩

theorem throughHandle_keeps {name : String} {p : ManagedDatabase → Prog storage ProtocolFailure α}
    (hp : ∀ handle, guarding.Keeps Tally.Acquainted (p handle)) :
    (bookkeeping x).Keeps Tally.AtEase
      ((handleForName name).bind fun handle => inside handle.id (p handle)) :=
  fun _ hm => Obeys.bind ((handleForName_obeys hm).mono (fun handle _ h => h.inside (hp handle))
    fun _ _ h => h)

theorem orFail_aside {answer : Except DatabaseError α} : (orFail answer).Only StorageOp.Aside := by
  unfold orFail
  cases answer <;> trivial

theorem inspectDatabase_keeps {name : String} :
    (bookkeeping x).Keeps Tally.AtEase (inspectDatabase name) := by
  refine entryOf_keeps.bind fun entry m hm => Obeys.bind ((handleOf_obeys hm).mono
    (fun handle m h => h.inside (onOpen_keeps fun _ => ?_)) fun _ _ h => h)
  exact Prog.Only.step trivial fun _ => orFail_aside.bind fun _ =>
    Prog.Only.step trivial fun _ => orFail_aside.bind fun _ =>
      Prog.Only.step trivial fun _ => orFail_aside.bind fun _ => trivial

theorem exportSnapshot_keeps {name : String} :
    (bookkeeping x).Keeps Tally.AtEase (exportSnapshot name) := by
  refine throughHandle_keeps fun handle => onOpen_keeps fun _ => ?_
  refine Prog.Only.step trivial fun _ => orFail_aside.bind fun _ => Prog.Only.step trivial ?_
  rintro (_ | _) <;> trivial

theorem exportLogical_keeps {name : String} :
    (bookkeeping x).Keeps Tally.AtEase (exportLogical name) := by
  refine throughHandle_keeps fun handle => onOpen_keeps fun _ => Prog.Only.step trivial ?_
  rintro (_ | _) <;> trivial

theorem restoreSnapshot_keeps {name : String} {bytes : Bytes} :
    (bookkeeping x).Keeps Tally.AtEase (restoreSnapshot root name bytes) :=
  throughHandle_keeps fun _ => restoreSnapshotWithOperations_keeps

theorem importLogical_keeps {parsePackage : Json → Except String LogicalPackageDocument}
    {compile : LogicalPackageDocument → Except ProtocolFailure Bytes} {name : String}
    {package : Json} :
    (bookkeeping x).Keeps Tally.AtEase (importLogical root parsePackage compile name package) := by
  unfold importLogical
  split
  · exact Keeps.fail _
  dsimp only
  split
  · exact Keeps.fail _
  refine fun m hm => Obeys.bind
    ((handleForName_obeys hm).mono (fun handle m h => ?_) fun _ _ h => h)
  refine Obeys.bind (Obeys.mono (Q := fun _ => Tally.AtEase) ?_ (fun _ _ h => h) fun _ _ h => h)
  unfold importPackage
  split
  · exact h.toAtEase
  · cases compile _ with
    | error e => exact h.toAtEase
    | ok bytes => exact h.inside restoreSnapshotWithOperations_keeps

-- ---------------------------------------------------------------------------
-- Transitions
-- ---------------------------------------------------------------------------

/-- A path of the catalog's own, none of the Databases'. -/
def DaemonOp.OnCatalog (P : DaemonOp → Prop) : Prop :=
  ∀ o : FileOp RootPath, (∀ id, ¬ o.Changes (.database id)) → P (.root o)

theorem writeJsonNew_only {P : DaemonOp → Prop} {p : RootPath} {bytes : Bytes} (hp : p.Own)
    (hroot : DaemonOp.OnCatalog P) : (writeJsonNew root p bytes).Only P := by
  have hne : ∀ id, p ≠ .database id := by
    rintro _ rfl
    exact hp
  refine Prog.Only.step (hroot _ hne) ?_
  rintro ((_ | _) | _)
  · trivial
  · refine Prog.Only.step (hroot _ hne) ?_
    rintro (_ | _)
    · dsimp only
      split <;> trivial
    · trivial
  · trivial

theorem writeAtomic_only {P : DaemonOp → Prop} {next : Catalog} (hroot : DaemonOp.OnCatalog P) :
    (writeAtomic root next false).Only P := by
  have hremove {p : RootPath} (hp : ∀ id, p ≠ .database id) : P (.root (.remove p)) := hroot _ hp
  have hrename {p q : RootPath} (hp : ∀ id, p ≠ .database id) (hq : ∀ id, q ≠ .database id) :
      P (.root (.rename p q)) := hroot _ fun id h => h.elim (hp id) (hq id)
  refine (writeJsonNew_only (p := .pending) trivial hroot).bind fun _ =>
    (removeIfExists_only (p := .previous) (hremove nofun)).bind fun _ =>
      Prog.Only.step (hrename nofun nofun) ?_
  rintro (_ | _)
  · trivial
  refine Prog.Only.step (hrename nofun nofun) ?_
  rintro (_ | _)
  · exact Prog.Only.step (hremove nofun) fun _ => Prog.Only.step (hrename nofun nofun)
      fun _ => trivial
  have hsync : syncParent.Only P := by
    refine Prog.Only.step (hroot _ nofun) ?_
    rintro (_ | _) <;> trivial
  refine hsync.attempt.bind ?_
  rintro (_ | _)
  · exact Prog.Only.step (hremove nofun) fun _ => Prog.Only.step (hrename nofun nofun) fun _ =>
      Prog.Only.step (hroot _ nofun) fun _ => trivial
  · exact (removeIfExists_only (p := .previous) (hremove nofun)).attempt.bind fun _ => trivial

/-- The catalog is written when the files are, and not at all on failure. -/
theorem transition_obeys {next catalog : Catalog} {kind : OperationKind} {id : String}
    (hm : m.holds = true) (hread : m.read = some catalog)
    (hin : x ∈ next.ids → x ∈ catalog.ids ∨ m.drawn = true)
    (hout : x ∈ catalog.ids → x ∈ next.ids ∨ m.closed = true) :
    (bookkeeping x).Obeys (transition root next kind id) m
      (fun _ m' => m' = { m with read := some next, closed := false }) (fun _ m' => m' = m) := by
  have hsome : m.read.isSome = true := by rw [hread]; rfl
  have hvalid : (Prog.ofExcept (validateCatalog next) : Prog daemon ServerError Unit).Only
      DaemonOp.Beside := by
    cases validateCatalog next <;> trivial
  refine besideOnly_bind hvalid hsome (fun _ => ?_) fun _ => rfl
  refine besideOnly_bind (p := Prog.call (S := daemon) .readCatalog) ⟨trivial, fun _ => trivial⟩
    hsome (fun before => ?_) fun _ => rfl
  refine besideOnly_bind (writeJsonNew_only (p := .operation) trivial fun _ _ => trivial) hsome
    (fun _ => ?_) fun _ => rfl
  refine besideOnly_bind (writeAtomic_only fun _ _ => trivial).attempt hsome ?_ fun _ => rfl
  rintro (error | _)
  · exact Obeys.step trivial fun _ _ => rfl
  · exact ⟨⟨hm, catalog, hread, hin, hout⟩, fun _ _ => rfl⟩

theorem finishTransition_beside :
    ((finishTransition root).attempt : Prog daemon ProtocolFailure _).Only DaemonOp.Beside :=
  (removeIfExists_only trivial).attempt

theorem newId_obeys {k : String → Prog daemon ε α} {Q : α → Tally → Prop} {F : ε → Tally → Prop}
    (hholds : m.holds = true) (hdrawn : m.drawn = false) (hmade : m.made = false)
    (h : ∀ id : String, (bookkeeping x).Obeys (k id) { m with drawn := decide (id = x) } Q F) :
    (bookkeeping x).Obeys ((Prog.call (S := daemon) .newId).bind k) m Q F := by
  have hnext (id : String) :
      (bookkeeping x).next m .newId id = { m with drawn := decide (id = x) } := by
    simp [bookkeeping, DaemonOp.tallied, hdrawn]
  refine Obeys.step ⟨hholds, hdrawn, hmade⟩ fun id _ => ?_
  rw [hnext id]
  exact h id

theorem createDatabase_keeps {name : String} :
    (bookkeeping x).Keeps Tally.AtEase (createDatabase root name) := by
  unfold createDatabase
  split
  · exact Keeps.fail _
  refine withCatalog_keeps fun catalog m hm => ?_
  split
  · exact hm.toAlone
  refine newId_obeys hm.holds hm.drawn hm.made fun id => ?_
  have halone : { m with drawn := decide (id = x) }.Alone :=
    ⟨hm.holds, hm.guard, hm.peeked, hm.taken⟩
  have hdrawn : id = x → { m with drawn := decide (id = x) }.drawn = true :=
    fun h => decide_eq_true h
  refine Obeys.step trivial ?_
  rintro (_ | _) -
  · exact halone
  refine Obeys.step trivial ?_
  rintro (_ | database) -
  · exact Obeys.step trivial fun _ _ => halone
  refine Obeys.bind (Obeys.attempt
    ((transition_obeys (x := x) halone.holds hm.read ?_ ?_).mono ?_ ?_))
  · rw [mem_ids_add]
    rintro (h | h)
    · exact .inl h
    · exact .inr (hdrawn h.symm)
  · exact fun h => .inl (mem_ids_add.mpr (.inl h))
  · rintro _ _ rfl
    refine Obeys.bind (withDatabases_obeys (Obeys.step hdrawn fun _ _ => ?_))
    dsimp only [bookkeeping, DaemonOp.tallied]
    split
    · refine ⟨fun _ => .inl rfl, fun _ _ => besideOnly_bind finishTransition_beside rfl ?_ ?_⟩
      · exact fun _ => ⟨hm.holds, hm.guard, hm.peeked, hm.taken⟩
      · exact fun _ => ⟨hm.holds, hm.guard, hm.peeked, hm.taken⟩
    · rename_i hne
      refine ⟨fun h => absurd h hne, fun _ _ => besideOnly_bind finishTransition_beside rfl ?_ ?_⟩
      · exact fun _ => ⟨hm.holds, hm.guard, hm.peeked, hm.taken⟩
      · exact fun _ => ⟨hm.holds, hm.guard, hm.peeked, hm.taken⟩
  · rintro _ _ rfl
    exact Obeys.step trivial fun _ _ => halone

theorem renameDatabase_keeps {name newName : String} :
    (bookkeeping x).Keeps Tally.AtEase (renameDatabase root name newName) := by
  unfold renameDatabase
  split
  · exact Keeps.fail _
  refine withCatalog_keeps fun catalog m hm => ?_
  split
  · exact hm.toAlone
  split
  · exact hm.toAlone
  rename_i existing _
  have hids (id : String) : x ∈ (catalog.rename id newName).ids ↔ x ∈ catalog.ids :=
    Catalog.ids_rename.mem_iff
  refine Obeys.bind (Obeys.attempt ((transition_obeys (x := x) hm.holds hm.read
    (fun h => .inl ((hids _).mp h)) fun h => .inl ((hids _).mpr h)).mono ?_ ?_))
  · rintro _ _ rfl
    have halone :
        { m with read := some (catalog.rename existing.id newName), closed := false }.Alone :=
      ⟨hm.holds, hm.guard, hm.peeked, hm.taken⟩
    exact besideOnly_bind finishTransition_beside rfl (fun _ => halone) fun _ => halone
  · rintro _ _ rfl
    exact hm.toAlone

-- ---------------------------------------------------------------------------
-- Drop
-- ---------------------------------------------------------------------------

/-- The Database of the handle is closed. -/
structure Tally.Dropping (x : String) (catalog : Catalog) (handle : ManagedDatabase) (m : Tally) :
    Prop extends m.Alone where
  read : m.read = some catalog
  knows : handle.id = x → m.knows = true
  closed : handle.id = x → m.closed = true

theorem closeForDrop_obeys (hm : m.Alone) (hknows : m.knows = true) :
    guarding.Obeys (withGuard closeForDrop) m
      (fun _ m' => m' = { m with closed := true })
      (fun _ m' => m' = m ∨ m' = { m with closed := false }) := by
  obtain ⟨hholds, hguard, hpeeked, htaken⟩ := hm
  obtain ⟨holds, read, drawn, made, knows, guard, peeked, taken, closed⟩ := m
  cases hholds
  cases hguard
  cases hpeeked
  cases htaken
  refine Obeys.step hknows fun _ _ => Obeys.bind (Obeys.attempt (Obeys.step rfl ?_))
  rintro (_ | database) -
  · refine Obeys.step rfl fun _ _ => .inl ?_
    simp [guarding, StorageOp.tallied]
  refine Obeys.step trivial ?_
  rintro (_ | _) -
  · refine Obeys.step ⟨rfl, .inl rfl⟩ fun _ _ => Obeys.step rfl fun _ _ => .inr ?_
    simp [guarding, StorageOp.tallied]
  · refine Obeys.step rfl fun _ _ => ?_
    cases closed <;> rfl

theorem unregister_obeys {catalog : Catalog} {id : String} (hm : m.Holding catalog) :
    (bookkeeping x).Obeys (unregister id) m
      (fun handle m' => handle.id = id ∧ m'.Dropping x catalog handle) (fun _ => Tally.Alone) := by
  refine Obeys.step trivial ?_
  rintro (_ | handle) hfound
  · exact ⟨hm.holds, hm.guard, hm.peeked, hm.taken⟩
  have hid : handle.id = id := hfound handle rfl
  generalize hlook : (bookkeeping x).next m (.getHandle id) (some handle) = m₁
  have halone : m₁.Alone := hlook ▸ ⟨hm.holds, hm.guard, hm.peeked, hm.taken⟩
  have hread : m₁.read = some catalog := hlook ▸ hm.read
  have hknows : handle.id = x → m₁.knows = true := by
    intro h
    rw [← hlook]
    simp [bookkeeping, DaemonOp.tallied, h]
  refine Obeys.bind (inside_obeys (Q := fun _ m' => m'.Dropping x catalog handle)
    (F := fun _ => Tally.Alone) ?_ ?_ |>.mono ?_ fun _ _ h => h)
  · refine fun h => (closeForDrop_obeys halone (hknows h)).mono ?_ ?_
    · rintro _ _ rfl
      exact ⟨⟨halone.holds, halone.guard, halone.peeked, halone.taken⟩, hread, hknows, fun _ => rfl⟩
    · rintro _ _ (rfl | rfl)
      · exact halone
      · exact ⟨halone.holds, halone.guard, halone.peeked, halone.taken⟩
  · exact fun h => ⟨fun _ => ⟨halone, hread, hknows, fun h' => absurd h' h⟩, fun _ => halone⟩
  · exact fun _ _ h => Obeys.step trivial fun _ _ => ⟨hid, h⟩

theorem reopenUndropped_obeys {catalog : Catalog} {handle : ManagedDatabase} {error : ServerError}
    (hm : m.Dropping x catalog handle) :
    (bookkeeping x).Obeys (reopenUndropped handle error) m
      (fun _ => Tally.Alone) (fun _ => Tally.Alone) := by
  refine Obeys.bind (inside_obeys (Q := fun _ m' => m' = m) (F := fun _ m' => m' = m) ?_ ?_ |>.mono
    ?_ ?_)
  · exact fun _ => ⟨trivial, fun _ _ => rfl⟩
  · exact fun _ => ⟨fun _ => rfl, fun _ => rfl⟩
  · rintro (_ | reopened) _ rfl
    · exact hm.toAlone
    refine Obeys.bind (inside_obeys (Q := fun _ m' => m'.Alone ∧ (handle.id = x → m'.knows = true))
      (F := fun _ => Tally.Alone) ?_ ?_ |>.mono ?_ fun _ _ h => h)
    · refine fun h => Obeys.step (hm.knows h) fun _ _ => Obeys.bind (Obeys.attempt ?_)
      refine ⟨⟨rfl, .inr (hm.closed h)⟩, fun _ _ => Obeys.step rfl fun _ _ => ?_⟩
      exact ⟨⟨hm.holds, rfl, rfl, rfl⟩, fun h => hm.knows h⟩
    · exact fun h => ⟨fun _ => ⟨hm.toAlone, hm.knows⟩, fun _ => hm.toAlone⟩
    · rintro _ m₁ ⟨halone, hknows⟩
      exact Obeys.bind (withDatabases_obeys ⟨fun h => .inr (hknows h), fun _ _ => halone⟩)
  · rintro _ _ rfl
    exact hm.toAlone

theorem dropDatabase_keeps {name confirmName : String} :
    (bookkeeping x).Keeps Tally.AtEase (dropDatabase root name confirmName) := by
  unfold dropDatabase
  split
  · exact Keeps.fail _
  refine withCatalog_keeps fun catalog m hm => ?_
  split
  · exact hm.toAlone
  rename_i entry hentry
  refine Obeys.step trivial fun trashed _ => ?_
  split
  · exact hm.toAlone
  refine Obeys.bind ((withDatabases_obeys (unregister_obeys hm)).mono ?_ fun _ _ h => h)
  rintro handle m₁ ⟨hid, hm₁⟩
  refine Obeys.bind (Obeys.attempt ((transition_obeys hm₁.holds hm₁.read ?_ ?_).mono ?_ ?_))
  · exact fun h => .inl (mem_ids_remove.mp h).1
  · intro h
    by_cases hx : x = entry.id
    · exact .inr (hm₁.closed (hid.trans hx.symm))
    · exact .inl (mem_ids_remove.mpr ⟨h, hx⟩)
  · rintro _ _ rfl
    have halone : { m₁ with read := some (catalog.remove entry.id), closed := false }.Alone :=
      ⟨hm₁.holds, hm₁.guard, hm₁.peeked, hm₁.taken⟩
    refine Obeys.step trivial ?_
    rintro (_ | _) -
    · exact halone
    · exact besideOnly_bind finishTransition_beside rfl (fun _ => halone) fun _ => halone
  · rintro _ _ rfl
    exact reopenUndropped_obeys hm₁

end

end NostdbServer
