import NostdbServer.Daemon.Frame
import NostdbServer.Restore.Leads

/-!
# Restore recovery of a data directory

`recover_snapshot_operations` goes through the directories one by one, and each
is recovered on its own. `Settling content` says what every directory ends as;
an interrupted recovery keeps it.
-/

namespace NostdbServer

open Effects

/-- Every Database directory settles on the content given for it. -/
def Settling (E : Engine) (root : DataDirectory) (content : String → Option Node) (d : Daemon) :
    Prop :=
  ∀ id, d.hasDirectory (.database id) = true →
    Settles E (restoreJournal root.restore id) (content id) (d.site id).view

/-- The Database directories named have no restore files left. -/
def Settled (content : String → Option Node) (ids : List String) (d : Daemon) : Prop :=
  ∀ id ∈ ids, d.hasDirectory (.database id) = true →
    (d.site id).view = .settled (content id) (d.site id).slot (d.site id).locked

section
variable {E : Engine} {root : DataDirectory} {uuids : Nat → String} {may : Outcome → Prop}
  {content : String → Option Node} {d d' : Daemon} {id : String}

theorem Settling.within (h : Settling E root content d) (hw : Daemon.Within (· = id) d d')
    (hid : Settles E (restoreJournal root.restore id) (content id) (d'.site id).view) :
    Settling E root content d' := by
  intro i hi
  by_cases hii : i = id
  · exact hii ▸ hid
  · rw [hw.site hii]
    exact h i ((hw.hasDirectory _).symm.trans hi)

theorem Settled.within {ids : List String} (h : Settled content ids d)
    (hw : Daemon.Within (· = id) d d')
    (hid : (d'.site id).view = .settled (content id) (d'.site id).slot (d'.site id).locked) :
    Settled content (id :: ids) d' := by
  intro i hi hdir
  by_cases hii : i = id
  · exact hii ▸ hid
  · rw [hw.site hii]
    exact h i (by simpa [hii] using hi) ((hw.hasDirectory _).symm.trans hdir)

theorem recoverDirectory_wp (hm : ¬ Faulty may) (h : Settling E root content d)
    (hd : d.hasDirectory (.database id) = true) :
    (daemonSetting E uuids may).Wp (fun t => Daemon.Within (· = id) d t ∧ Settling E root content t)
      (inside id (recoverDirectory root.restore (root.managed id))) d
      (fun _ t => Daemon.Within (· = id) d t ∧ Settling E root content t ∧
        (t.site id).view = .settled (content id) (t.site id).slot (t.site id).locked)
      (fun _ _ => False) := by
  have hs : Settles E (restoreJournal root.restore (root.managed id).id) (content id)
      (d.site id).view := h id hd
  have hex := recoverDirectory_settles hm hs
  refine (inside_wp hd (hex (d.site id) rfl)).mono ?_ ?_ ?_
  · rintro t ⟨hw, hs⟩
    exact ⟨hw, h.within hw hs⟩
  · rintro _ t ⟨hw, hs⟩
    have hview : (t.site id).view =
        .settled (content id) (t.site id).slot (t.site id).locked := by
      rw [hs]
      have hslot := congrArg View.slot hs
      have hlock := congrArg View.locked hs
      simp only [Site.view_slot, Site.view_locked] at hslot hlock
      rw [hslot, hlock]
      rfl
    exact ⟨hw, h.within hw (.inr hview), hview⟩
  · rintro _ _ ⟨-, hf⟩
    exact hf

theorem recoverEntries_wp (hm : ¬ Faulty may) (names done : List String)
    (h : Settling E root content d) (hdone : Settled content done d) :
    (daemonSetting E uuids may).Wp
      (fun t => Daemon.Within (fun _ => True) d t ∧ Settling E root content t)
      (recoverEntries root names) d
      (fun _ t => Daemon.Within (fun _ => True) d t ∧ Settled content (names ++ done) t)
      (fun _ _ => False) := by
  induction names generalizing d done with
  | nil =>
    rintro _ rfl
    exact ⟨.refl d, hdone⟩
  | cons name rest ih =>
    rintro _ rfl
    refine ⟨⟨.refl d, h⟩, fun c _ ans t ht => ⟨trivial, ?_⟩⟩
    cases Option.some.inj ht
    by_cases hd : d.hasDirectory (.database name) = true
    · rw [hd]
      change (daemonSetting E uuids may).Wp _
        ((inside name (recoverDirectory root.restore (root.managed name))).bind fun _ =>
          recoverEntries root rest) d _ _
      refine Setting.Wp.bind ((recoverDirectory_wp hm h hd).mono ?_ ?_ fun _ _ hf => hf.elim)
      · rintro t ⟨hw, hs⟩
        exact ⟨hw.mono fun _ _ => trivial, hs⟩
      · rintro _ t ⟨hw, hs, hview⟩
        refine (ih (name :: done) hs (hdone.within hw hview)).mono ?_ ?_ fun _ _ hf => hf
        · rintro u ⟨hwu, hu⟩
          exact ⟨(hw.mono fun _ _ => trivial).trans hwu, hu⟩
        · rintro _ u ⟨hwu, hu⟩
          refine ⟨(hw.mono fun _ _ => trivial).trans hwu, fun i hi => hu i ?_⟩
          simpa [or_left_comm] using hi
    · rw [Bool.not_eq_true] at hd
      rw [hd]
      refine (ih done h hdone).mono (fun _ h => h) ?_ fun _ _ hf => hf
      rintro _ u ⟨hwu, hu⟩
      refine ⟨hwu, fun i hi hdir => ?_⟩
      have hne : i ≠ name := by
        rintro rfl
        rw [hwu.hasDirectory, hd] at hdir
        cases hdir
      exact hu i (by simpa [hne] using hi) hdir

/-- Recovery without disk errors settles every directory; cut anywhere, it can
be rerun for the same outcome. -/
theorem recoverSnapshotOperations_wp (hm : ¬ Faulty may) (h : Settling E root content d) :
    (daemonSetting E uuids may).Wp
      (fun t => Daemon.Within (fun _ => True) d t ∧ Settling E root content t)
      (recoverSnapshotOperations root) d
      (fun _ t => Daemon.Within (fun _ => True) d t ∧ ∀ id, Settled content [id] t)
      (fun _ _ => False) := by
  rintro _ rfl
  refine ⟨⟨.refl d, h⟩, fun c hc ans t ht => ⟨trivial, ?_⟩⟩
  have ht : (Daemon.readDatabases c d) = (ans, t) := Option.some.inj ht
  unfold Daemon.readDatabases at ht
  split at ht
  · rename_i e he
    exact absurd (injected_of_error? hc he).faulty hm
  · cases ht
    refine (recoverEntries_wp hm d.listing [] h (fun _ hi => by simp at hi)).mono
      (fun _ h => h) ?_ fun _ _ hf => hf
    rintro _ t ⟨hw, hs⟩
    refine ⟨hw, fun i j hj hdir => ?_⟩
    rw [List.mem_singleton] at hj
    subst hj
    refine hs j ?_ hdir
    rw [hw.hasDirectory, Daemon.hasDirectory_iff] at hdir
    obtain ⟨files, hfiles⟩ := hdir
    simpa using Daemon.mem_listing.mpr (by simp [hfiles])

-- ---------------------------------------------------------------------------
-- Recovery runs to its end
-- ---------------------------------------------------------------------------

/-- Operations that never wait for another party. -/
def DaemonOp.Free : DaemonOp → Prop
  | .lockCatalog | .lockDatabases | .readHandle _ => False
  | .storage _ o => o.Free
  | _ => True

/-- Operations on the files of the data directory and on the catalog in memory. -/
def DaemonOp.Rooted : DaemonOp → Prop
  | .root _ | .readCatalog | .writeCatalog _ => True
  | _ => False

theorem free_of_rooted {p : Prog daemon ε α} (h : p.Only DaemonOp.Rooted) :
    p.Only DaemonOp.Free := by
  refine h.mono fun o ho => ?_
  cases o <;> first | trivial | exact ho.elim

theorem DaemonOp.Free.isSome {o : DaemonOp} (h : o.Free) (c : Outcome) (d : Daemon) :
    (Daemon.step E uuids o c d).isSome := by
  cases o with
  | storage id o =>
    have hs : (Site.step E o (d.outcomeAt id o c) (d.site id)).isSome := by
      cases o with
      | lock => exact h.elim
      | checkpoint _ =>
        unfold Site.step
        dsimp only
        split <;> rfl
      | _ => rfl
    simpa [Daemon.step] using hs
  | lockCatalog | lockDatabases | readHandle _ => exact h.elim
  | _ => rfl

/-- What a start does: it looks, removes and moves away, and waits for nobody. -/
def DaemonOp.Recovers : DaemonOp → Prop
  | .root (.createNew _ _) | .root (.rename _ (.database _)) => False
  | .root _ | .isDir _ | .readDatabases | .writeCatalog _ | .insertHandle _ | .newHandle _ _ => True
  | .storage _ o => o.Free
  | _ => False

theorem DaemonOp.Recovers.free {o : DaemonOp} (h : o.Recovers) : o.Free := by
  cases o <;> first | trivial | exact h | exact h.elim

theorem inside_only {p : Prog storage ε α} (h : p.Only StorageOp.Free) :
    (inside id p).Only DaemonOp.Recovers :=
  Prog.Only.lift (T := daemon) (P := DaemonOp.Recovers) h

theorem recoverEntries_only (names : List String) :
    (recoverEntries root names).Only DaemonOp.Recovers := by
  induction names with
  | nil => trivial
  | cons name rest ih =>
    refine Prog.Only.step trivial ?_
    rintro (_ | _)
    · exact ih
    · exact (inside_only recoverDirectory_only).bind fun _ => ih

theorem recoverSnapshotOperations_only :
    (recoverSnapshotOperations root).Only DaemonOp.Recovers := by
  refine Prog.Only.step trivial ?_
  rintro (_ | names)
  · trivial
  · exact recoverEntries_only names

/-- An uninterrupted recovery without disk errors succeeds. -/
theorem recoverSnapshotOperations_eval (h : Settling E root content d) :
    ∃ d', (daemonWorld E uuids).eval .ok (recoverSnapshotOperations root) d = some (.ok (), d') ∧
      Daemon.Within (fun _ => True) d d' ∧ ∀ id, Settled content [id] d' := by
  have honly : (recoverSnapshotOperations root).Only DaemonOp.Free :=
    recoverSnapshotOperations_only.mono fun _ ho => ho.free
  obtain ⟨r, d', he⟩ := World.eval_isSome (W := daemonWorld E uuids)
    (fun o s ho => ho.isSome .ok s) honly d
  have hpost := Setting.Wp.eval (W := daemonSetting E uuids (· = .ok))
    (recoverSnapshotOperations_wp not_faulty_ok h) (fun _ _ => rfl) he
  cases r with
  | error e => exact hpost.elim
  | ok u => exact ⟨d', he, hpost⟩

end

end NostdbServer
