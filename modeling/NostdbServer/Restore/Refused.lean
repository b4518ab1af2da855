import NostdbServer.Restore.Noted

/-!
# Restores that fail without asking for recovery

`Wear` is what the steps of a restore tell about the files it may leave behind:
whether its journal was on disk when a directory sync failed, and whether the
last removal of one of its files failed. A restore that reports anything but
`recovery_required` has put everything back exactly if neither happened,
whatever else failed on the way.
-/

namespace NostdbServer

open Effects World

structure Wear where
  journal : Bool
  unsynced : Bool
  stuck : Bool
  deriving DecidableEq, Repr

namespace Wear

/-- No step has been taken. -/
def fresh : Wear := ⟨false, false, false⟩

/-- The journal is on disk and nothing went wrong. -/
def journaled : Wear := ⟨true, false, false⟩

def note (m : Wear) (e : Event storage) : Wear :=
  match e with
  | ⟨.file (.createNew .restoreOperation _), .error (.opening _)⟩ => m
  | ⟨.file (.createNew .restoreOperation _), _⟩ => { m with journal := true }
  | ⟨.file .sync, .error _⟩ => { m with unsynced := m.unsynced || m.journal }
  | ⟨.file (.remove .restoreOperation), .ok _⟩ => { m with journal := false }
  | ⟨.file (.remove .restoreCandidate), .ok _⟩ => { m with stuck := false }
  | ⟨.file (.remove .restoreOperation), .error e⟩
  | ⟨.file (.remove .restoreCandidate), .error e⟩ =>
    if e.isNotFound then m else { m with stuck := true }
  | _ => m

/-- No directory sync failed while the journal was there, and no file that was
to be removed stayed. -/
def Sound (m : Wear) : Prop := m.unsynced = false ∧ m.stuck = false

instance (m : Wear) : Decidable m.Sound := inferInstanceAs (Decidable (_ ∧ _))

end Wear

section
variable {E : Engine} {K : Codec RestoreJournal} {handle : ManagedDatabase} {m : Wear} {v : View}
  {live : Bytes} {f : DbFile}

-- ---------------------------------------------------------------------------
-- The helpers
-- ---------------------------------------------------------------------------

theorem syncRestoreDirectory_wears :
    Notes E Wear.note (syncRestoreDirectory handle) m v (fun _ m' w => m' = m ∧ w = v)
      (fun _ m' w => m' = { m with unsynced := m.unsynced || m.journal } ∧ w = v) := by
  unfold syncRestoreDirectory
  simp only [Prog.bind_eq]
  exact Notes.sync (Notes.pure ⟨rfl, rfl⟩) fun e => Notes.fail ⟨rfl, rfl⟩

/-- A sync with the journal on disk, whose failure is not taken up. -/
theorem syncJournaled_wears {k : Unit → Prog storage ProtocolFailure β}
    {Q : β → Wear → View → Prop} {F : ProtocolFailure → Wear → View → Prop}
    (hk : Notes E Wear.note (k ()) .journaled v Q F) (hf : ∀ e m, m.unsynced = true → F e m v) :
    Notes E Wear.note (((syncRestoreDirectory handle).mapError (internal ·.message)).bind k)
      .journaled v Q F := by
  refine Notes.bind (Notes.mapError (Notes.mono syncRestoreDirectory_wears ?_ ?_))
  · rintro _ _ _ ⟨rfl, rfl⟩
    exact hk
  · rintro e _ _ ⟨rfl, rfl⟩
    exact hf _ _ rfl

theorem removeRestoreFile_wears (hf : f = .restoreCandidate ∨ f = .restoreOperation)
    (hstuck : m.stuck = false) {F : ServerError → Wear → View → Prop} (hF : ∀ e m w, F e m w) :
    Notes E Wear.note (removeRestoreFile handle f) m v
      (fun _ m' w => m'.unsynced = m.unsynced ∧ m'.stuck = false ∧ w = v.set f none) F := by
  unfold removeRestoreFile
  simp only [Prog.bind_eq]
  have hcore : f.Core := by rcases hf with rfl | rfl <;> trivial
  refine Notes.remove hcore ?_ ?_ ?_
  · intro _
    refine Notes.pure ?_
    rcases hf with rfl | rfl
    · exact ⟨rfl, rfl, rfl⟩
    · exact ⟨rfl, hstuck, rfl⟩
  · intro hn
    refine Notes.pure ?_
    rw [View.set_none_of_get v hcore hn]
    rcases hf with rfl | rfl
    · exact ⟨rfl, hstuck, rfl⟩
    · exact ⟨rfl, hstuck, rfl⟩
  · intro e he
    dsimp only
    rw [if_neg (by simp [he])]
    exact Notes.fail (hF _ _ _)

/-- Candidate and journal go; that they may not is reported as such. -/
theorem cleanupUncommittedRestore_wears {F : ServerError → Wear → View → Prop}
    (hF : ∀ e m w, F e m w) :
    Notes E Wear.note (cleanupUncommittedRestore handle) .journaled v
      (fun _ m' w => m'.Sound ∧ w = { v with candidate := none, operation := none }) F := by
  unfold cleanupUncommittedRestore
  simp only [Prog.bind_eq]
  refine Notes.seq (removeRestoreFile_wears (.inl rfl) rfl hF) ?_ fun _ _ _ h => h
  rintro _ m₁ _ ⟨hu₁, hs₁, rfl⟩
  refine Notes.removeSidecar fun _ => ?_
  refine Notes.seq (syncRestoreDirectory_wears (m := m₁)) ?_ fun _ _ _ _ => hF _ _ _
  rintro _ _ _ ⟨rfl, rfl⟩
  refine Notes.seq (removeRestoreFile_wears (.inr rfl) hs₁ hF) ?_ fun _ _ _ h => h
  rintro _ m₂ _ ⟨hu₂, hs₂, rfl⟩
  refine Notes.mono syncRestoreDirectory_wears ?_ fun _ _ _ _ => hF _ _ _
  rintro _ _ _ ⟨rfl, rfl⟩
  exact ⟨⟨hu₂.trans hu₁, hs₂⟩, rfl⟩

-- ---------------------------------------------------------------------------
-- Under the mutex
-- ---------------------------------------------------------------------------

/-- How `installSnapshot` may fail: it asks for recovery, it has put everything
back, or a sync failed with the journal on disk. -/
def Returned (live : Bytes) (e : ProtocolFailure) (m : Wear) (w : View) : Prop :=
  e.code = .recoveryRequired ∨ (w = { View.serving live with locked := true } ∧ m.Sound) ∨
    (w.operation.isSome = true ∧ m.unsynced = true)

theorem reopenLive_wears {what reopening : String} {candidate operation : Option Node}
    {Q : Unit → Wear → View → Prop} :
    Notes E Wear.note (reopenLive handle what reopening) .journaled
      ⟨some (.file live), candidate, none, operation, none, true⟩ Q (Returned live) := by
  unfold reopenLive
  simp only [Prog.bind_eq]
  refine Notes.openDatabase trivial ?_ fun e => Notes.fail (.inl rfl)
  rintro b hb -
  cases hb
  refine Notes.put (Notes.attempt ?_)
  refine Notes.mono (cleanupUncommittedRestore_wears (F := fun _ _ _ => True)
    fun _ _ _ => trivial) ?_ ?_
  · rintro _ m _ ⟨hm, rfl⟩
    exact Notes.fail (.inr (.inl ⟨rfl, hm⟩))
  · intro e m w _
    exact Notes.fail (.inl rfl)

theorem rollBackInstalled_wears {error : String} {installed : Node} {operation : Node}
    {Q : Unit → Wear → View → Prop} :
    Notes E Wear.note (rollBackInstalled handle error) .journaled
      ⟨some installed, none, some (.file live), some operation, none, true⟩ Q (Returned live) := by
  unfold rollBackInstalled
  simp only [Prog.bind_eq]
  refine Notes.remove trivial (fun _ => ?_) (fun hn => nomatch hn) fun e _ => Notes.fail (.inl rfl)
  refine Notes.removeSidecar fun _ => syncJournaled_wears ?_ fun _ _ hm => .inr (.inr ⟨rfl, hm⟩)
  refine Notes.rename trivial trivial (by simp) ?_ fun e => Notes.fail (.inl rfl)
  intro n hn
  cases hn
  exact syncJournaled_wears reopenLive_wears fun _ _ hm => .inr (.inr ⟨rfl, hm⟩)

/-- What is left of a committed restore is cleared away without a failure. -/
theorem cleanupCommittedRestore_wears {F : ε → Wear → View → Prop} :
    Notes E Wear.note (cleanupCommittedRestore handle) m v (fun _ _ _ => True) F := by
  have hlast : ∀ m v, Notes E Wear.note (removeSidecar .restoreCandidate) m v
      (fun _ _ _ => True) F := fun m v => Exec.op trivial fun _ _ _ _ _ _ _ => Exec.pure trivial
  unfold cleanupCommittedRestore
  simp only [Prog.bind_eq]
  refine Notes.attempt (Notes.mono Notes.any ?_ fun _ _ _ _ => Notes.pure trivial)
  intro _ _ _ _
  refine Notes.removeSidecar fun _ => Notes.attempt (Notes.mono Notes.any ?_ fun _ _ _ _ =>
    Notes.pure trivial)
  intro _ _ _ _
  refine Notes.attempt (Notes.mono Notes.any ?_ fun _ _ _ _ => hlast _ _)
  intro _ _ _ _
  exact Notes.attempt (Notes.mono Notes.any (fun _ _ _ _ => hlast _ _) fun _ _ _ _ => hlast _ _)

theorem installSnapshot_wears {candidate operation : Node} :
    Notes E Wear.note (installSnapshot handle) .journaled
      ⟨some (.file live), some candidate, none, some operation, some ⟨live⟩, true⟩
      (fun _ _ _ => True) (Returned live) := by
  unfold installSnapshot
  simp only [Prog.bind_eq]
  refine Notes.take (Notes.checkpoint ?_)
  rintro (e | _)
  · refine Notes.put (Notes.attempt ?_)
    refine Notes.mono (cleanupUncommittedRestore_wears (F := fun _ _ _ => True)
      fun _ _ _ => trivial) ?_ ?_
    · rintro _ m _ ⟨hm, rfl⟩
      exact Notes.fail (.inr (.inl ⟨rfl, hm⟩))
    · intro _ m w _
      exact Notes.fail (.inl rfl)
  refine Notes.rename trivial trivial (by simp) ?_ fun e => reopenLive_wears
  intro n hn
  cases hn
  refine syncJournaled_wears ?_ fun _ _ hm => .inr (.inr ⟨rfl, hm⟩)
  refine Notes.rename trivial trivial (by simp) ?_ fun install => ?_
  · intro n hn
    cases hn
    refine syncJournaled_wears ?_ fun _ _ hm => .inr (.inr ⟨rfl, hm⟩)
    refine Notes.openDatabase trivial ?_ fun e => rollBackInstalled_wears
    intro b hb _
    exact Notes.put cleanupCommittedRestore_wears
  · refine Notes.rename trivial trivial (by simp) ?_ fun e => Notes.fail (.inl rfl)
    intro n hn
    cases hn
    exact syncJournaled_wears reopenLive_wears fun _ _ hm => .inr (.inr ⟨rfl, hm⟩)

-- ---------------------------------------------------------------------------
-- Before the mutex
-- ---------------------------------------------------------------------------

/-- What a failure may leave: nothing, a candidate that no journal mentions, or
a journal that could not be synced or removed. -/
def Abandoned (live : Bytes) (m : Wear) (w : View) : Prop :=
  (w = .serving live ∧ m.Sound) ∨
    (m.journal = false ∧ m.unsynced = false ∧ ∃ candidate,
      w = { View.serving live with candidate := some candidate }) ∨
    (w.operation.isSome = true ∧ ¬ m.Sound)

theorem writeCandidate_wears {bytes : Bytes} :
    Notes E Wear.note (writeNewSynced handle .restoreCandidate bytes) .fresh (.serving live)
      (fun _ m w => m = .fresh ∧ w = { View.serving live with candidate := some (.file bytes) })
      (fun _ m w => Abandoned live m w) := by
  unfold writeNewSynced
  simp only [Prog.bind_eq]
  refine Notes.createNew trivial (fun _ => Notes.pure ⟨rfl, rfl⟩)
    (fun e => Notes.fail (.inl ⟨rfl, rfl, rfl⟩)) fun _ n e => ?_
  refine Notes.remove trivial ?_ (fun hn => nomatch hn) fun cleanup he => ?_
  · intro _
    exact Notes.fail (.inl ⟨rfl, rfl, rfl⟩)
  · dsimp only
    rw [if_neg (by simp [he])]
    have hm : Wear.fresh.note ⟨.file (.remove .restoreCandidate), .error cleanup⟩ =
        ⟨false, false, true⟩ := by simp [Wear.note, he, Wear.fresh]
    refine Notes.fail (.inr (.inl ⟨?_, ?_, .file (bytes.take n), rfl⟩))
    · exact congrArg Wear.journal hm
    · exact congrArg Wear.unsynced hm

theorem writeRestoreJournal_wears (candidate : Node) :
    Notes E Wear.note (writeRestoreJournal K handle) .fresh
      { View.serving live with candidate := some candidate }
      (fun _ m w => m = .journaled ∧ ∃ operation, w =
        { View.serving live with candidate := some candidate, operation := some operation })
      (fun _ m w => Abandoned live m w) := by
  unfold writeRestoreJournal writeNewSynced
  simp only [Prog.bind_eq]
  refine Notes.createNew trivial (fun _ => Notes.pure ⟨rfl, _, rfl⟩)
    (fun e => Notes.fail (.inr (.inl ⟨rfl, rfl, candidate, rfl⟩))) fun _ n e => ?_
  refine Notes.remove trivial ?_ (fun hn => nomatch hn) fun cleanup he => ?_
  · intro _
    exact Notes.fail (.inr (.inl ⟨rfl, rfl, candidate, rfl⟩))
  · dsimp only
    rw [if_neg (by simp [he])]
    have hm : Wear.journaled.note ⟨.file (.remove .restoreOperation), .error cleanup⟩ =
        ⟨true, false, true⟩ := by simp [Wear.note, he, Wear.journaled]
    refine Notes.fail (.inr (.inr ⟨rfl, fun h => ?_⟩))
    have hstuck : true = false := (congrArg Wear.stuck hm).symm.trans h.2
    cases hstuck

theorem prepareSnapshot_wears {bytes : Bytes} :
    Notes E Wear.note (prepareSnapshot K handle bytes) .fresh (.serving live)
      (fun _ m w => m = .journaled ∧ ∃ candidate operation, w = { View.serving live with
        candidate := some candidate, operation := some operation })
      (fun _ m w => Abandoned live m w) := by
  have hreject : ∀ candidate : Node, Abandoned live .fresh
      { View.serving live with candidate := some candidate } := fun candidate =>
    .inr (.inl ⟨rfl, rfl, candidate, rfl⟩)
  unfold prepareSnapshot
  simp only [Prog.bind_eq]
  refine Notes.seq writeCandidate_wears ?_ fun _ _ _ h => h
  rintro _ _ _ ⟨rfl, rfl⟩
  refine Notes.openDatabase trivial (fun _ _ _ => ?_) fun e => Notes.fail (hreject _)
  refine Notes.checkDatabase trivial ?_
  rintro (e | _ | _)
  · exact Notes.fail (hreject _)
  · exact Notes.fail (hreject _)
  refine Notes.adoptServerAuthority trivial (fun b => ?_) fun e => Notes.fail (hreject _)
  refine Notes.checkpointDatabase ?_
  rintro (e | _)
  · exact Notes.fail (hreject _)
  refine Notes.seq (writeRestoreJournal_wears (.file b)) ?_ fun _ _ _ h => h
  rintro _ _ _ ⟨rfl, operation, rfl⟩
  refine Notes.mapError (Notes.mono syncRestoreDirectory_wears ?_ ?_)
  · rintro _ _ _ ⟨rfl, rfl⟩
    exact ⟨rfl, _, _, rfl⟩
  · rintro _ _ _ ⟨rfl, rfl⟩
    exact .inr (.inr ⟨rfl, fun h => by cases h.1⟩)

-- ---------------------------------------------------------------------------
-- The whole call
-- ---------------------------------------------------------------------------

/-- A candidate without a journal is removed, if it can be. -/
theorem dropUnjournaledCandidate_wears {F : ε → Wear → View → Prop} (h : Abandoned live m v) :
    Notes E Wear.note (dropUnjournaledCandidate handle) m v
      (fun _ m' w => w = .serving live ↔ m'.Sound) F := by
  unfold dropUnjournaledCandidate
  simp only [Prog.bind_eq]
  refine Notes.pathExists trivial ?_
  obtain ⟨rfl, hm⟩ | ⟨hj, hu, candidate, rfl⟩ | ⟨hop, hm⟩ := h
  · exact Notes.pure (iff_of_true rfl hm)
  · refine Notes.pathExists trivial (Notes.remove trivial ?_ (fun hn => nomatch hn) ?_)
    · intro _
      refine Notes.removeSidecar fun _ => Notes.attempt (Notes.mono syncRestoreDirectory_wears ?_ ?_)
      · rintro _ _ _ ⟨rfl, rfl⟩
        exact Notes.pure (iff_of_true rfl ⟨hu, rfl⟩)
      · rintro _ _ _ ⟨rfl, rfl⟩
        refine Notes.pure (iff_of_true rfl ⟨?_, rfl⟩)
        change (m.unsynced || m.journal) = false
        rw [hu, hj]
        rfl
    · intro e he
      have hm : (m.note ⟨.file (.remove .restoreCandidate), .error e⟩).stuck = true := by
        simp [Wear.note, he]
      refine Notes.pure (iff_of_false (fun hw => nomatch congrArg View.candidate hw) fun hs => ?_)
      have hstuck : true = false := hm.symm.trans hs.2
      cases hstuck
  · have hne : v ≠ .serving live := by
      rintro rfl
      cases hop
    split
    · refine Notes.pathExists trivial ?_
      have hget : (v.get .restoreOperation).isSome = true := hop
      rw [if_neg (by simp [hget])]
      exact Notes.pure (iff_of_false hne hm)
    · exact Notes.pure (iff_of_false hne hm)

theorem dropUnjournaledCandidate_ends {F : ε → Wear → View → Prop} :
    Notes E Wear.note (dropUnjournaledCandidate handle) m v (fun _ _ _ => True) F := by
  unfold dropUnjournaledCandidate
  simp only [Prog.bind_eq]
  refine Notes.pathExists trivial ?_
  split
  · refine Notes.pathExists trivial ?_
    split
    · refine Notes.remove trivial (fun _ => ?_) (fun _ => Notes.pure trivial)
        fun _ _ => Notes.pure trivial
      exact Notes.removeSidecar fun _ => Notes.attempt (Notes.mono Notes.any
        (fun _ _ _ _ => Notes.pure trivial) fun _ _ _ _ => Notes.pure trivial)
    · exact Notes.pure trivial
  · exact Notes.pure trivial

/-- The end of every failed restore. -/
theorem giveUp_wears {failure : ProtocolFailure} {Q : Unit → Wear → View → Prop}
    (h : failure.code = .recoveryRequired ∨ Abandoned live m v) :
    Notes E Wear.note ((dropUnjournaledCandidate handle).bind fun _ => .fail failure) m v Q
      (fun e m w => e.code ≠ .recoveryRequired → (w = .serving live ↔ m.Sound)) := by
  rcases h with hcode | h
  · exact Notes.bind (Notes.mono dropUnjournaledCandidate_ends
      (fun _ _ _ _ => Notes.fail fun hne => absurd hcode hne) fun _ _ _ h => h)
  · exact Notes.bind (Notes.mono (dropUnjournaledCandidate_wears h)
      (fun _ _ _ hw => Notes.fail fun _ => hw) fun _ _ _ h => h)

theorem cleanupUnjournaledRestoreCandidate_wears {F : ServerError → Wear → View → Prop} :
    Notes E Wear.note (cleanupUnjournaledRestoreCandidate handle) .fresh (.serving live)
      (fun _ m w => m = .fresh ∧ w = .serving live) F := by
  unfold cleanupUnjournaledRestoreCandidate nothingUnjournaled
  simp only [Prog.bind_eq]
  refine Notes.bind (Notes.pathExists trivial (Notes.pathExists trivial
    (Notes.pathExists trivial (Notes.pure ?_))))
  exact Notes.pure ⟨rfl, rfl⟩

theorem refuseLeftovers_wears {F : ProtocolFailure → Wear → View → Prop} :
    Notes E Wear.note (refuseLeftovers [.restoreCandidate, .restoreBackup, .restoreOperation])
      .fresh (.serving live) (fun _ m w => m = .fresh ∧ w = .serving live) F := by
  simp only [refuseLeftovers, Prog.bind_eq]
  exact Notes.pathExists trivial (Notes.pathExists trivial (Notes.pathExists trivial
    (Notes.pure ⟨rfl, rfl⟩)))

theorem restoreSnapshotWithOperations_wears {bytes : Bytes} :
    Notes E Wear.note (restoreSnapshotWithOperations K handle bytes) .fresh (.serving live)
      (fun _ _ _ => True)
      (fun e m w => e.code ≠ .recoveryRequired → (w = .serving live ↔ m.Sound)) := by
  unfold restoreSnapshotWithOperations
  simp only [Prog.bind_eq]
  split
  · exact Notes.fail fun _ => iff_of_true rfl ⟨rfl, rfl⟩
  refine Notes.bind (Notes.mapError (Notes.mono cleanupUnjournaledRestoreCandidate_wears ?_
    fun _ _ _ h => h))
  rintro _ _ _ ⟨rfl, rfl⟩
  refine Notes.seq refuseLeftovers_wears ?_ fun _ _ _ h => h
  rintro _ _ _ ⟨rfl, rfl⟩
  refine Notes.attempt (Notes.seq (prepareSnapshot_wears (K := K)) ?_
    fun _ _ _ h => giveUp_wears (.inr h))
  rintro _ _ _ ⟨rfl, candidate, operation, rfl⟩
  unfold withGuard
  simp only [Prog.bind_eq]
  refine Notes.lock (Notes.attempt (Notes.mono installSnapshot_wears ?_ ?_))
  · intro _ _ _ _
    exact Notes.unlock (Notes.pure (Notes.pure trivial))
  · intro failure m w h
    refine Notes.unlock (Notes.fail (giveUp_wears ?_))
    obtain hcode | ⟨rfl, hm⟩ | ⟨hop, hm⟩ := h
    · exact .inl hcode
    · exact .inr (.inl ⟨rfl, hm⟩)
    · refine .inr (.inr (.inr ⟨hop, fun hs => ?_⟩))
      cases hm.symm.trans hs.1

/-- The account of a run. -/
def wearOf (E : Engine) (cs : List Outcome) (p : Prog storage ε α) (s : Site) : Wear :=
  ((storageWorld E).trace cs p s).foldl Wear.note .fresh

variable (E K handle) in
/-- A restore of an open Database that fails without asking for recovery leaves
the Database open on its content, and no file of its own, exactly if no
directory sync failed while its journal was on disk and no removal of its
candidate or journal failed for good. -/
theorem refused_restore_leaves_everything_iff {s : Site} (hs : s.view = .serving live)
    (bytes : Bytes) (cs : List Outcome) (failure : ProtocolFailure)
    (hcode : failure.code ≠ .recoveryRequired)
    (hfailed : ((storageWorld E).run cs (restoreSnapshotWithOperations K handle bytes) s).1.result? =
      some (.error failure)) :
    ((storageWorld E).run cs (restoreSnapshotWithOperations K handle bytes) s).2.view =
        .serving live ↔
      (wearOf E cs (restoreSnapshotWithOperations K handle bytes) s).Sound :=
  restoreSnapshotWithOperations_wears.outcome hs hfailed hcode

/-- The live Database cannot be checkpointed. -/
theorem refused_restore_leaves_everything_failed_checkpoint :
    ((storageWorld .plain).run (List.replicate 15 .ok ++ [.fail "disk full"] ++ List.replicate 8 .ok)
      (restoreSnapshotWithOperations RestoreJournal.format.codec ⟨"id", "/data/databases/id"⟩ [1])
      (.resting [7])).2.view = .serving [7] :=
  (refused_restore_leaves_everything_iff .plain RestoreJournal.format.codec
    ⟨"id", "/data/databases/id"⟩ rfl [1]
    (List.replicate 15 .ok ++ [.fail "disk full"] ++ List.replicate 8 .ok)
    ⟨.internalError, "disk full", false⟩ (by decide) (by decide +kernel)).mpr (by decide +kernel)

/-- The directory cannot be synced after the live Database was moved: the error
does not ask for recovery, and the Database is gone from its handle and its
place. -/
theorem refused_restore_closes_the_database :
    let run := (storageWorld .plain).run
      (List.replicate 17 .ok ++ [.fail "Input/output error (os error 5)"] ++ List.replicate 3 .ok)
      (restoreSnapshotWithOperations RestoreJournal.format.codec ⟨"id", "/data/databases/id"⟩ [1])
      (.resting [7])
    run.1.result? = some (.error ⟨.internalError,
        "cannot sync restore directory /data/databases/id: Input/output error (os error 5)", false⟩) ∧
      run.2.view.slot = none ∧ run.2.view.database = none ∧
      run.2.view.candidate = some (.file [1]) ∧ run.2.view.backup = some (.file [7]) ∧
      run.2.view.operation.isSome = true := by
  decide +kernel

end

end NostdbServer
