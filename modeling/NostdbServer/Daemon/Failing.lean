import NostdbServer.Daemon.Rules
import NostdbServer.Effects.Noted

/-!
# Rules for runs with one failing step

`DoesOnce` judges a daemon program by the runs in which at most one step fails,
whatever the data directory looks like. A rule says where its step leads when
it is done, and, if no step has failed yet, when it fails.
-/

namespace NostdbServer

open Effects World

def DaemonOp.fails (e : Event daemon) : Bool := e.op.failed e.answer

/-- The steps that failed in the run of `p` along `cs`. -/
def failedSteps (E : Engine) (uuids : Nat → String) (cs : List Outcome) (p : Prog daemon ε α)
    (d : Daemon) : List DaemonOp :=
  failures DaemonOp.fails ((daemonWorld E uuids).trace cs p d)

abbrev DoesOnce (E : Engine) (uuids : Nat → String) (p : Prog daemon ε α) (fs : List DaemonOp)
    (v : Books) (Q : α → List DaemonOp → Books → Prop) (F : ε → List DaemonOp → Books → Prop) :
    Prop :=
  (daemonWorld E uuids).logged.Once DaemonOp.fails books p fs v Q F

namespace DoesOnce

variable {E : Engine} {uuids : Nat → String} {fs : List DaemonOp} {v : Books} {id : String}
  {Q : β → List DaemonOp → Books → Prop} {F : ε → List DaemonOp → Books → Prop}

/-- How a run ends in which at most one step failed. -/
theorem outcome {p : Prog daemon ε α} {d : Daemon} {cs : List Outcome}
    {Q : α → List DaemonOp → Books → Prop} {F : ε → List DaemonOp → Books → Prop}
    (h : DoesOnce E uuids p [] (.of d false) Q F)
    (hone : (failedSteps E uuids cs p d).length ≤ 1)
    (hr : ((daemonWorld E uuids).run cs p d).1.result? = some r) :
    ∃ installed, Setting.Post (fun a => Q a (failedSteps E uuids cs p d))
      (fun e => F e (failedSteps E uuids cs p d)) r
      (.of ((daemonWorld E uuids).run cs p d).2 installed) := by
  obtain ⟨hprog, hstate⟩ := (daemonWorld E uuids).run_logged cs p d []
  have hr' : ((daemonWorld E uuids).logged.run cs p (d, [])).1.result? = some r := by rwa [hprog]
  have := Once.outcome h rfl (by rwa [trace_logged]) hr'
  rw [trace_logged, books, hstate] at this
  exact ⟨_, this⟩

theorem pathExists {p : RootPath} {k : Bool → Prog daemon ε β}
    (h : DoesOnce E uuids (k (v.entry p).isSome) fs v Q F) :
    DoesOnce E uuids ((DaemonOp.pathExists p).bind k) fs v Q F :=
  Does.pathExists trivial h

theorem remove {p : RootPath} {k : Except IoError Unit → Prog daemon ε β}
    (hok : ∀ bytes, v.entry p = some (.file bytes) →
      DoesOnce E uuids (k (.ok ())) fs (v.set p none) Q F)
    (habsent : v.entry p = none → DoesOnce E uuids (k (.error .notFound)) fs v Q F)
    (hfail : fs = [] → ∀ e, e.isNotFound = false →
      DoesOnce E uuids (k (.error e)) [.root (.remove p)] v Q F) :
    DoesOnce E uuids ((DaemonOp.remove p).bind k) fs v Q F := by
  refine Does.remove trivial hok habsent fun e he _ => ?_
  have hfs : tally DaemonOp.fails fs ⟨.root (.remove p), .error e⟩ = fs ++ [.root (.remove p)] := by
    simp [tally, DaemonOp.fails, DaemonOp.failed, FileOp.failed, he]
  rw [hfs]
  exact Once.spend fun h => hfail h e he

theorem rename {p q : RootPath} {k : Except IoError Unit → Prog daemon ε β} (hne : p ≠ q)
    (hok : ∀ n, v.entry p = some n → Volume.replaceable n (v.entry q) = true →
      DoesOnce E uuids (k (.ok ())) fs (v.move p q n) Q F)
    (hfail : fs = [] → ∀ e b,
      DoesOnce E uuids (k (.error e)) [.root (.rename p q)] { v with installed := b } Q F) :
    DoesOnce E uuids ((DaemonOp.rename p q).bind k) fs v Q F :=
  Does.rename hne trivial hok fun e b _ _ => Once.spend fun h => hfail h e b

theorem sync {k : Except IoError Unit → Prog daemon ε β}
    (hok : DoesOnce E uuids (k (.ok ())) fs v Q F)
    (hfail : fs = [] → ∀ e, DoesOnce E uuids (k (.error e)) [.root .sync] v Q F) :
    DoesOnce E uuids (DaemonOp.sync.bind k) fs v Q F :=
  Does.sync trivial hok fun e _ => Once.spend fun h => hfail h e

theorem createNew {p : RootPath} {bytes : Bytes} {k : Except CreateError Unit → Prog daemon ε β}
    (hok : v.entry p = none →
      DoesOnce E uuids (k (.ok ())) fs (v.set p (some (.file bytes))) Q F)
    (hopening : fs = [] → ∀ e,
      DoesOnce E uuids (k (.error (.opening e))) [.root (.createNew p bytes)] v Q F)
    (htorn : fs = [] → v.entry p = none → ∀ n m,
      DoesOnce E uuids (k (.error (.writing ⟨.other, m⟩))) [.root (.createNew p bytes)]
        (v.set p (some (.file (bytes.take n)))) Q F) :
    DoesOnce E uuids ((DaemonOp.createNew p bytes).bind k) fs v Q F :=
  Does.createNew trivial hok (fun e _ => Once.spend fun h => hopening h e)
    fun n m _ hn => Once.spend fun h => htorn h hn n m

theorem createDir {p : RootPath} {k : Except IoError Unit → Prog daemon ε β}
    (hok : v.entry p = none →
      DoesOnce E uuids (k (.ok ())) fs (v.set p (some (.directory .empty))) Q F)
    (hfail : fs = [] → ∀ e, DoesOnce E uuids (k (.error e)) [.createDir p] v Q F) :
    DoesOnce E uuids ((Prog.call (S := daemon) (.createDir p)).bind k) fs v Q F :=
  Does.createDir trivial hok fun e _ => Once.spend fun h => hfail h e

theorem removeDir {p : RootPath} {k : Except IoError Unit → Prog daemon ε β}
    (hok : DoesOnce E uuids (k (.ok ())) fs (v.set p none) Q F)
    (hfail : fs = [] → ∀ e, DoesOnce E uuids (k (.error e)) [.removeDir p] v Q F) :
    DoesOnce E uuids ((Prog.call (S := daemon) (.removeDir p)).bind k) fs v Q F :=
  Does.removeDir trivial (fun _ _ => hok) fun e => Once.spend fun h => hfail h e

theorem createDatabase {k : Except DatabaseError Database → Prog daemon ε β}
    (hok : ∀ files, v.entry (.database id) = some (.directory files) →
      DoesOnce E uuids (k (.ok ⟨E.created⟩)) fs (v.withSite id ((v.site id files).created E)) Q F)
    (hfail : fs = [] → ∀ e, DoesOnce E uuids (k (.error e)) [.createDatabase id] v Q F) :
    DoesOnce E uuids ((Prog.call (S := daemon) (.createDatabase id)).bind k) fs v Q F :=
  Does.createDatabase trivial (fun files hd _ => hok files hd) fun e _ =>
    Once.spend fun h => hfail h e

theorem newId {k : String → Prog daemon ε β}
    (h : DoesOnce E uuids (k (uuids v.issued)) fs { v with issued := v.issued + 1 } Q F) :
    DoesOnce E uuids ((Prog.call (S := daemon) .newId).bind k) fs v Q F :=
  Does.newId trivial h

theorem readCatalog {k : Catalog → Prog daemon ε β}
    (h : DoesOnce E uuids (k v.memory.catalog) fs v Q F) :
    DoesOnce E uuids ((Prog.call (S := daemon) .readCatalog).bind k) fs v Q F :=
  Does.readCatalog trivial h

theorem getHandle {k : Option ManagedDatabase → Prog daemon ε β}
    (h : DoesOnce E uuids (k (v.memory.databases id)) fs v Q F) :
    DoesOnce E uuids ((Prog.call (S := daemon) (.getHandle id)).bind k) fs v Q F :=
  Does.getHandle trivial h

theorem inner {o : daemon.Op} {next : daemon.Ans o → Prog daemon ε β}
    (ho : Does.remembers o v.memory = some memory)
    (h : ∀ ans, DoesOnce E uuids (next ans) fs (v.setMemory memory) Q F) :
    DoesOnce E uuids (.op o next) fs v Q F := by
  refine Does.inner ho trivial fun ans => ?_
  have hfs : tally DaemonOp.fails fs ⟨o, ans⟩ = fs := by
    cases o <;> first | rfl | cases ho
  rw [hfs]
  exact h ans

theorem withCatalog {body : Catalog → Prog daemon ε β}
    (h : DoesOnce E uuids (body v.memory.catalog) fs
      (v.setMemory { v.memory with catalogLocked := true })
      (fun a fs w => Q a fs (w.setMemory { w.memory with catalogLocked := false }))
      (fun e fs w => F e fs (w.setMemory { w.memory with catalogLocked := false }))) :
    DoesOnce E uuids (withCatalog body) fs v Q F := by
  refine inner rfl fun _ => readCatalog (Once.attempt (Once.mono h ?_ ?_))
  · intro a fs w hq
    exact inner rfl fun _ => Once.pure hq
  · intro e fs w hf
    exact inner rfl fun _ => Once.fail hf

theorem withDatabases {body : Prog daemon ε β}
    (h : DoesOnce E uuids body fs (v.setMemory { v.memory with databasesLocked := true })
      (fun a fs w => Q a fs (w.setMemory { w.memory with databasesLocked := false }))
      (fun e fs w => F e fs (w.setMemory { w.memory with databasesLocked := false }))) :
    DoesOnce E uuids (withDatabases body) fs v Q F := by
  refine inner rfl fun _ => Once.attempt (Once.mono h ?_ ?_)
  · intro a fs w hq
    exact inner rfl fun _ => Once.pure hq
  · intro e fs w hf
    exact inner rfl fun _ => Once.fail hf

theorem lock {next : Unit → Prog daemon ε β}
    (h : (v.memory.handles id).locked = false →
      DoesOnce E uuids (next ()) fs (v.setHandle id ⟨(v.memory.handles id).slot, true⟩) Q F) :
    DoesOnce E uuids (.op (.storage id .lock) next) fs v Q F :=
  Does.lock trivial h

theorem unlock {next : Unit → Prog daemon ε β}
    (h : DoesOnce E uuids (next ()) fs (v.setHandle id ⟨(v.memory.handles id).slot, false⟩) Q F) :
    DoesOnce E uuids (.op (.storage id .unlock) next) fs v Q F :=
  Does.unlock trivial h

theorem take {next : Option Database → Prog daemon ε β}
    (h : DoesOnce E uuids (next (v.memory.handles id).slot) fs
      (v.setHandle id ⟨none, (v.memory.handles id).locked⟩) Q F) :
    DoesOnce E uuids (.op (.storage id .take) next) fs v Q F :=
  Does.take trivial h

theorem put {d : Database} {next : Unit → Prog daemon ε β}
    (h : DoesOnce E uuids (next ()) fs
      (v.setHandle id ⟨some d, (v.memory.handles id).locked⟩) Q F) :
    DoesOnce E uuids (.op (.storage id (.put d)) next) fs v Q F :=
  Does.put trivial h

theorem checkpoint {d : Database} {next : Except DatabaseError Unit → Prog daemon ε β}
    (hok : DoesOnce E uuids (next (.ok ())) fs v Q F)
    (hfail : fs = [] → ∀ e,
      DoesOnce E uuids (next (.error e)) [.storage id (.checkpoint d)] v Q F) :
    DoesOnce E uuids (.op (.storage id (.checkpoint d)) next) fs v Q F := by
  refine Does.checkpoint trivial ?_
  rintro (e | _)
  · exact Once.spend fun h => hfail h e
  · exact hok

theorem openDatabase {k : Except String Database → Prog daemon ε β}
    (hok : ∀ files b, v.entry (.database id) = some (.directory files) →
      files .database = some (.file b) → DoesOnce E uuids (k (.ok ⟨b⟩)) fs
        (v.withSite id ((v.site id files).leaveLockFile E .database)) Q F)
    (hfail : fs = [] → ∀ e,
      DoesOnce E uuids (k (.error e)) [.storage id (.openDatabase .database)] v Q F) :
    DoesOnce E uuids ((inside id (.call (S := storage) (.openDatabase .database))).bind k) fs v
      Q F := by
  change Does E uuids (fun _ => True) (fun _ => True)
    ((inside id (.call (S := storage) (.openDatabase .database))).bind fun ans =>
      (k ans).noted (tally DaemonOp.fails)
        (tally DaemonOp.fails fs ⟨.storage id (.openDatabase .database), ans⟩)) v _ _
  exact Does.openDatabase trivial (fun files b hd hb _ => hok files b hd hb) fun e _ =>
    Once.spend fun h => hfail h e

end DoesOnce

end NostdbServer
