import NostdbServer.Catalog.Loading
import NostdbServer.Daemon.Recovery

/-!
# Whole loads

A load waits for nobody, so from loadable entries it runs to its end and finds
the catalog; and it may be cut off any number of times before.
-/

namespace NostdbServer

open Effects World

section
variable {E : Engine} {root : DataDirectory} {uuids : Nat → String} {c : Catalog} {d : Daemon}

/-- What a load does: it looks, removes files and moves entries out of the way. -/
def DaemonOp.Sweeps : DaemonOp → Prop
  | .root (.createNew _ _) | .root (.rename _ (.database _)) => False
  | .root _ | .isDir _ | .readDatabases | .storage _ (.file (.isFile _)) => True
  | _ => False

theorem DaemonOp.Sweeps.recovers {o : DaemonOp} (h : o.Sweeps) : o.Recovers := by
  match o, h with
  | .root (.rename _ .serverState), _ | .root (.rename _ .pending), _
  | .root (.rename _ .previous), _ | .root (.rename _ .operation), _
  | .root (.rename _ (.trash _)), _ | .root (.rename _ (.recovery _)), _
  | .root (.pathExists _), _ | .root (.isFile _), _ | .root (.read _), _ | .root (.remove _), _
  | .root .sync, _ | .isDir _, _ | .readDatabases, _ | .storage _ (.file (.isFile _)), _ => trivial

theorem removeIfExists_only {P : DaemonOp → Prop} {p : RootPath} (hp : P (.root (.remove p))) :
    (removeIfExists root p).Only P := by
  refine Prog.Only.step hp ?_
  rintro (error | _)
  · dsimp only
    split <;> trivial
  · trivial

theorem removeIfExists_rooted {p : RootPath} : (removeIfExists root p).Only DaemonOp.Rooted :=
  removeIfExists_only trivial

theorem readCatalogFile_sweeps {p : RootPath} : (readCatalogFile root p).Only DaemonOp.Sweeps := by
  refine Prog.Only.step trivial ?_
  rintro (_ | bytes)
  · trivial
  · dsimp only
    split <;> trivial

theorem recoverAtomicState_sweeps : (recoverAtomicState root).Only DaemonOp.Sweeps := by
  refine Prog.Only.bind ?_ fun _ => Prog.Only.bind ?_ fun _ => Prog.Only.bind ?_ fun _ => ?_
  · refine Prog.Only.step trivial fun state => Prog.Only.step trivial fun previous => ?_
    split
    · refine Prog.Only.step trivial ?_
      rintro (_ | _) <;> trivial
    · trivial
  · refine Prog.Only.step trivial ?_
    rintro (_ | _)
    · trivial
    · refine Prog.Only.step trivial ?_
      rintro (_ | _)
      · refine Prog.Only.step trivial ?_
        rintro (_ | _) <;> trivial
      · trivial
  · refine Prog.Only.step trivial fun state => Prog.Only.step trivial fun previous => ?_
    split
    · exact readCatalogFile_sweeps.bind fun _ => removeIfExists_only trivial
    · trivial
  · refine Prog.Only.step trivial ?_
    rintro (_ | _) <;> trivial

theorem completeOperation_sweeps {journal : OperationJournal} :
    (completeOperation journal).Only DaemonOp.Sweeps := by
  obtain ⟨version, kind, id, before, after⟩ := journal
  cases kind with
  | create =>
    refine Prog.Only.step trivial ?_
    rintro (_ | _) <;> trivial
  | rename => trivial
  | drop =>
    refine Prog.Only.step trivial ?_
    rintro (_ | _)
    · trivial
    · refine Prog.Only.step trivial ?_
      rintro (_ | _)
      · refine Prog.Only.step trivial ?_
        rintro (_ | _) <;> trivial
      · trivial

theorem recoverOperation_sweeps : (recoverOperation root c).Only DaemonOp.Sweeps := by
  refine Prog.Only.step trivial ?_
  rintro (_ | _)
  · trivial
  · refine Prog.Only.step trivial ?_
    rintro (_ | bytes)
    · trivial
    · dsimp only
      split
      · trivial
      · split
        · trivial
        · split
          · exact removeIfExists_only trivial
          · split
            · trivial
            · exact completeOperation_sweeps.bind fun _ => removeIfExists_only trivial

theorem validateStorage_sweeps (databases : List CatalogDatabase) :
    (validateStorage databases).Only DaemonOp.Sweeps := by
  induction databases with
  | nil => trivial
  | cons database rest ih =>
    refine Prog.Only.step trivial fun directory => Prog.Only.step trivial fun file => ?_
    split
    · trivial
    · exact ih

theorem quarantineOrphans_sweeps (known names : List String) :
    (quarantineOrphans known names).Only DaemonOp.Sweeps := by
  induction names with
  | nil => trivial
  | cons name rest ih =>
    unfold quarantineOrphans
    split
    · exact ih
    · refine Prog.Only.step trivial ?_
      rintro (_ | _)
      · refine Prog.Only.step trivial ?_
        rintro (_ | _)
        · trivial
        · exact ih
      · trivial

theorem load_sweeps : (load root).Only DaemonOp.Sweeps := by
  refine recoverAtomicState_sweeps.bind fun _ => readCatalogFile_sweeps.bind fun catalog => ?_
  refine Prog.Only.bind ?_ fun _ => recoverOperation_sweeps.bind fun _ =>
    (validateStorage_sweeps _).bind fun _ => Prog.Only.bind ?_ fun _ => trivial
  · cases validateCatalog catalog <;> trivial
  · refine Prog.Only.step trivial ?_
    rintro (_ | names)
    · trivial
    · exact quarantineOrphans_sweeps _ _

theorem load_only : (load root).Only DaemonOp.Recovers := load_sweeps.mono fun _ ho => ho.recovers

-- ---------------------------------------------------------------------------
-- Complete and interrupted loads
-- ---------------------------------------------------------------------------

/-- An uninterrupted load without disk errors succeeds. -/
theorem load_eval (h : Loadable root c d.entry) :
    ∃ d', (daemonWorld E uuids).eval .ok (load root) d = some (.ok c, d') ∧
      Loaded root c d.entry d'.entry := by
  have honly : (load root).Only DaemonOp.Free := load_only.mono fun _ ho => ho.free
  obtain ⟨r, d', he⟩ := World.eval_isSome (W := daemonWorld E uuids)
    (fun o s ho => ho.isSome .ok s) honly d
  obtain ⟨l, hl⟩ := World.eval_logged he []
  have hpost := (load_does not_faulty_ok h).eval (s := (d, [])) rfl (fun _ => rfl) hl
  cases r with
  | error e => exact hpost.elim
  | ok catalog =>
    obtain ⟨rfl, hloaded⟩ := hpost
    exact ⟨d', he, hloaded⟩

/-- A load that is cut off after `n` steps. -/
def cutLoad (E : Engine) (uuids : Nat → String) (root : DataDirectory) (d : Daemon) (n : Nat) :
    Daemon :=
  ((daemonWorld E uuids).run (List.replicate n .ok) (load root) d).2.crashed

theorem cutLoad_loading (h : Loadable root c d.entry) (n : Nat) :
    Loading root c d.entry (cutLoad E uuids root d n).entry := by
  have hdoes : Does E uuids (· = .ok) (fun w => Loading root c d.entry w.entry) (load root)
      (.of d false) (fun catalog w => catalog = c ∧ Loaded root c d.entry w.entry)
      (fun _ _ => False) := load_does (v := .of d false) not_faulty_ok h
  have hcut := hdoes.cut (fun _ _ hq => hq.2.loading) (fun _ _ hf => hf.elim) (s := (d, [])) rfl
    (List.replicate n .ok) fun _ _ hc => List.eq_of_mem_replicate hc
  have hrun := ((daemonWorld E uuids).run_logged (List.replicate n .ok) (load root) d []).2
  unfold cutLoad
  rw [← hrun]
  exact hcut

/-- However often a load is cut off, the next one starts from the same catalog. -/
theorem cutLoads_loading (h : Loadable root c d.entry) (cuts : List Nat) :
    Loading root c d.entry (cuts.foldl (cutLoad E uuids root) d).entry := by
  induction cuts generalizing d with
  | nil => exact ⟨h, .refl _⟩
  | cons n cuts ih =>
    have hn : Loading root c d.entry (cutLoad E uuids root d n).entry := cutLoad_loading h n
    have hrest := ih hn.loadable
    exact ⟨hrest.loadable, hn.kept.trans hrest.kept⟩

end

end NostdbServer
