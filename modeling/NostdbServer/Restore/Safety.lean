import NostdbServer.Restore.Leads

/-!
# A restore keeps the Database

Every way through `restore_snapshot_with_operations`, whatever fails in it and
wherever it is cut off, leaves files that lead to the content that was live
before the call or to the snapshot this call validated.
-/

namespace NostdbServer

open Effects World

/-- `S` is what the engine makes of the uploaded `bytes` after accepting them. -/
def Validated (E : Engine) (bytes S : Bytes) : Prop := E.Sound bytes ∧ E.adopt bytes = .ok S

/-- An open handle is on the content in place. -/
def Attached (x : Bytes) (v : View) : Prop :=
  ∀ d, v.slot = some d → d.content = x ∧ v.database = some (.file x)

/-- A restore of `S` over `x` that did not succeed: either `x` stays, or the
handle is closed and recovery will install `S`. -/
def Unfinished (E : Engine) (journal : Node) (x S : Bytes) (w : View) : Prop :=
  Leads E journal x w ∧ Attached x w ∨ Leads E journal S w ∧ w.slot = none

section
variable {E : Engine} {may : Outcome → Prop} {journal : Node} {x S : Bytes} {C : View → Prop}
  {handle : ManagedDatabase} {slot : Option Database} {locked : Bool}

theorem cleanupUncommittedRestore_exec (hC : ∀ w, Leads E journal x w → C w)
    (hj : journal ≠ .directory) (c : Option Bytes) :
    Exec E may C (cleanupUncommittedRestore handle)
      ⟨some (.file x), c.map .file, none, some journal, slot, locked⟩
      (fun _ w => w = .clean x slot locked)
      (fun _ w => Leads E journal x w ∧ w.slot = slot ∧ w.database = some (.file x)) := by
  have hp : C ⟨some (.file x), none, none, some journal, slot, locked⟩ := hC _ (.prepared none)
  unfold cleanupUncommittedRestore
  simp only [Prog.bind_eq]
  refine Exec.seq (removeRestoreFile_exec (f := .restoreCandidate) trivial
    (by cases c <;> simp [View.get]) (hC _ (.prepared c))) ?_ ?_
  · rintro _ _ rfl
    refine Exec.bind (Exec.removeSidecar hp ?_)
    refine Exec.seq (syncRestoreDirectory_exec hp) ?_ ?_
    · rintro _ _ rfl
      refine Exec.seq (removeRestoreFile_exec (f := .restoreOperation) trivial
        (by simp [View.get, View.set, hj]) hp) ?_ ?_
      · rintro _ _ rfl
        refine (syncRestoreDirectory_exec (hC _ .clean)).mono (fun _ h => h) ?_ ?_
        · rintro _ _ rfl
          rfl
        · rintro _ _ ⟨rfl, -⟩
          exact ⟨.clean, rfl, rfl⟩
      · rintro _ _ ⟨rfl, -⟩
        exact ⟨.prepared none, rfl, rfl⟩
    · rintro _ _ ⟨rfl, -⟩
      exact ⟨.prepared none, rfl, rfl⟩
  · rintro _ _ ⟨rfl, -⟩
    exact ⟨.prepared c, rfl, rfl⟩

/-- Whatever of the cleanup fails, the installed snapshot stays. -/
theorem cleanupCommittedRestore_exec {F : ε → View → Prop} (hC : ∀ w, Leads E journal S w → C w)
    (hs : E.Sound S) (hj : journal ≠ .directory) (b : Bytes) :
    Exec E may C (cleanupCommittedRestore handle)
      ⟨some (.file S), none, some (.file b), some journal, slot, locked⟩
      (fun _ w => Leads E journal S w ∧ w.slot = slot ∧ w.database = some (.file S)) F := by
  have hi : C ⟨some (.file S), none, some (.file b), some journal, slot, locked⟩ :=
    hC _ (.installed b hs)
  have hp : C ⟨some (.file S), none, none, some journal, slot, locked⟩ := hC _ (.prepared none)
  have hc : C (.clean S slot locked) := hC _ .clean
  unfold cleanupCommittedRestore
  simp only [Prog.bind_eq]
  refine Exec.attempt ((removeRestoreFile_exec (f := .restoreBackup) trivial
    (by simp [View.get]) hi).mono (fun _ h => h) ?_ ?_)
  · rintro _ _ rfl
    refine Exec.bind (Exec.removeSidecar hp ?_)
    refine Exec.attempt ((syncRestoreDirectory_exec hp).mono (fun _ h => h) ?_ ?_)
    · rintro _ _ rfl
      refine Exec.attempt ((removeRestoreFile_exec (f := .restoreOperation) trivial
        (by simp [View.get, hj]) hp).mono (fun _ h => h) ?_ ?_)
      · rintro _ _ rfl
        refine Exec.attempt ((syncRestoreDirectory_exec hc).mono (fun _ h => h) ?_ ?_)
        · rintro _ _ rfl
          exact Exec.removeSidecar hc ⟨.clean, rfl, rfl⟩
        · rintro _ _ ⟨rfl, -⟩
          exact Exec.removeSidecar hc ⟨.clean, rfl, rfl⟩
      · rintro _ _ ⟨rfl, -⟩
        exact Exec.removeSidecar hp ⟨.prepared none, rfl, rfl⟩
    · rintro _ _ ⟨rfl, -⟩
      exact Exec.pure ⟨.prepared none, rfl, rfl⟩
  · rintro _ _ ⟨rfl, -⟩
    exact Exec.pure ⟨.installed b hs, rfl, rfl⟩

theorem attached_put (x : Bytes) (c b o : Option Node) (locked : Bool) :
    Attached x ⟨some (.file x), c, b, o, some ⟨x⟩, locked⟩ := by
  rintro _ ⟨⟩
  exact ⟨rfl, rfl⟩

theorem attached_closed (h : v.slot = none) : Attached x v := by
  intro d hd
  rw [h] at hd
  cases hd

/-- Clearing up behind the reopened Database, and the error it ends in. -/
theorem cleanupUncommittedRestore_attached {failure : ProtocolFailure}
    {recovery : ServerError → ProtocolFailure} (hC : ∀ w, Leads E journal x w → C w)
    (hj : journal ≠ .directory) (c : Option Bytes) (hd : ∀ d, slot = some d → d.content = x) :
    Exec E may C
      (((cleanupUncommittedRestore handle).attempt : Prog storage ProtocolFailure _).bind fun r =>
        match r with
        | .ok () => (Prog.fail failure : Prog storage ProtocolFailure Unit)
        | .error cleanup => .fail (recovery cleanup))
      ⟨some (.file x), c.map .file, none, some journal, slot, locked⟩
      (fun _ _ => False) (fun _ w => Leads E journal x w ∧ Attached x w) := by
  refine Exec.attempt ((cleanupUncommittedRestore_exec hC hj c).mono (fun _ h => h) ?_ ?_)
  · rintro _ _ rfl
    exact Exec.fail ⟨.clean, fun d h => ⟨hd d h, rfl⟩⟩
  · rintro _ w ⟨hl, hslot, hdb⟩
    exact Exec.fail ⟨hl, fun d h => ⟨hd d (hslot ▸ h), hdb⟩⟩

theorem reopenLive_exec {what reopening : String} (hC : ∀ w, Leads E journal x w → C w)
    (hj : journal ≠ .directory) (c : Option Bytes) :
    Exec E may C (reopenLive handle what reopening)
      ⟨some (.file x), c.map .file, none, some journal, none, locked⟩
      (fun _ _ => False) (fun _ w => Leads E journal x w ∧ Attached x w) := by
  unfold reopenLive
  simp only [Prog.bind_eq]
  refine Exec.openDatabase trivial (hC _ (.prepared c)) ?_ ?_
  · intro b hb _
    cases hb
    refine Exec.put (hC _ (.prepared c)) ?_
    refine cleanupUncommittedRestore_attached hC hj c ?_
    rintro _ ⟨⟩
    rfl
  · intro e _
    exact Exec.fail ⟨.prepared c, attached_closed rfl⟩

theorem rollBackInstalled_exec {error : String} (hx : ∀ w, Leads E journal x w → C w)
    (hS : ∀ w, Leads E journal S w → C w) (hs : E.Sound S) (hj : journal ≠ .directory) :
    Exec E may C (rollBackInstalled handle error)
      ⟨some (.file S), none, some (.file x), some journal, none, locked⟩
      (fun _ _ => False) (fun _ w => Unfinished E journal x S w) := by
  have hr : C ⟨none, none, some (.file x), some journal, none, locked⟩ := hx _ .removed
  have hp : C ⟨some (.file x), none, none, some journal, none, locked⟩ := hx _ (.prepared none)
  unfold rollBackInstalled
  simp only [Prog.bind_eq]
  refine Exec.remove trivial (hS _ (.installed x hs)) ?_ ?_ ?_
  · intro _
    refine Exec.bind (Exec.removeSidecar hr ?_)
    refine Exec.seq (syncRestoreDirectory_mapError hr) ?_ ?_
    · rintro _ _ rfl
      refine Exec.rename trivial trivial (by simp) hr ?_ ?_
      · rintro n hn
        cases hn
        refine Exec.seq (syncRestoreDirectory_mapError hp) ?_ ?_
        · rintro _ _ rfl
          refine (reopenLive_exec hx hj none).mono (fun _ h => h) (fun _ _ h => h) ?_
          exact fun _ _ h => .inl h
        · rintro _ _ ⟨rfl, -⟩
          exact .inl ⟨.prepared none, attached_closed rfl⟩
      · intro e _
        exact Exec.fail (.inl ⟨.removed, attached_closed rfl⟩)
    · rintro _ _ ⟨rfl, -⟩
      exact .inl ⟨.removed, attached_closed rfl⟩
  · intro h
    cases h
  · intro e _ _
    exact Exec.fail (.inr ⟨.installed x hs, rfl⟩)

theorem installSnapshot_exec (hx : ∀ w, Leads E journal x w → C w)
    (hS : ∀ w, Leads E journal S w → C w) (hs : E.Sound S) (hj : journal ≠ .directory) :
    Exec E may C (installSnapshot handle)
      ⟨some (.file x), some (.file S), none, some journal, slot, locked⟩
      (fun _ w => Leads E journal S w ∧ w.slot = some ⟨S⟩ ∧ w.database = some (.file S))
      (fun _ w => Leads E journal x w ∧ w.slot = slot ∧ w.database = some (.file x) ∨
        Faulty may ∧ Unfinished E journal x S w) := by
  have hp (slot) : C ⟨some (.file x), some (.file S), none, some journal, slot, locked⟩ :=
    hx _ (.prepared (some S))
  have hm : C ⟨none, some (.file S), some (.file x), some journal, none, locked⟩ :=
    hS _ (.moved x hs)
  have hi (slot) : C ⟨some (.file S), none, some (.file x), some journal, slot, locked⟩ :=
    hS _ (.installed x hs)
  unfold installSnapshot
  simp only [Prog.bind_eq]
  refine Exec.take (hp slot) ?_
  cases slot with
  | none => exact Exec.fail (.inl ⟨.prepared (some S), rfl, rfl⟩)
  | some d =>
  refine Exec.checkpoint (hp none) ?_
  rintro (error | _)
  · -- the live Database goes back into the handle and the restore is cleared away
    refine Exec.put (hp none) (Exec.attempt ((cleanupUncommittedRestore_exec hx hj (some S)).mono
      (fun _ h => h) ?_ ?_))
    · rintro _ _ rfl
      exact Exec.fail (.inl ⟨.clean, rfl, rfl⟩)
    · rintro _ w hw
      exact Exec.fail (.inl hw)
  refine Exec.rename trivial trivial (by simp) (hp none) ?_ ?_
  · rintro n hn
    cases hn
    refine Exec.seq (syncRestoreDirectory_mapError hm) ?_ ?_
    · rintro _ _ rfl
      refine Exec.rename trivial trivial (by simp) hm ?_ ?_
      · rintro n hn
        cases hn
        refine Exec.seq (syncRestoreDirectory_mapError (hi none)) ?_ ?_
        · rintro _ _ rfl
          refine Exec.openDatabase trivial (hi none) ?_ ?_
          · intro b hb _
            cases hb
            exact Exec.put (hi none) (cleanupCommittedRestore_exec hS hs hj x)
          · intro e he
            refine (rollBackInstalled_exec hx hS hs hj).mono (fun _ h => h)
              (fun _ _ h => h.elim) fun _ _ h => .inr ⟨?_, h⟩
            rcases he with he | he
            · exact he.faulty
            · cases hs.1.symm.trans (he S rfl)
        · rintro _ _ ⟨rfl, hf⟩
          exact .inr ⟨hf, .inr ⟨.installed x hs, rfl⟩⟩
      · -- the snapshot did not go in: the live Database comes back from the backup
        intro e he
        have hfault : Faulty may := rename_refused (n := .file S) rfl rfl he
        refine Exec.rename trivial trivial (by simp) hm ?_ ?_
        · rintro n hn
          cases hn
          refine Exec.seq (syncRestoreDirectory_mapError (hp none)) ?_ ?_
          · rintro _ _ rfl
            exact (reopenLive_exec hx hj (some S)).mono (fun _ h => h)
              (fun _ _ h => h.elim) fun _ _ h => .inr ⟨hfault, .inl h⟩
          · rintro _ _ ⟨rfl, -⟩
            exact .inr ⟨hfault, .inl ⟨.prepared (some S), attached_closed rfl⟩⟩
        · intro e' _
          exact Exec.fail (.inr ⟨hfault, .inr ⟨.moved x hs, rfl⟩⟩)
    · rintro _ _ ⟨rfl, hf⟩
      exact .inr ⟨hf, .inr ⟨.moved x hs, rfl⟩⟩
  · intro e he
    exact (reopenLive_exec hx hj (some S)).mono (fun _ h => h)
      (fun _ _ h => h.elim) fun _ _ h => .inr ⟨rename_refused (n := .file x) rfl rfl he, .inl h⟩

/-- A journal of which only a part was written. -/
def Torn (x : Bytes) (w : View) : Prop :=
  ∃ candidate operation, w = ⟨some (.file x), some (.file candidate), none,
    some (.file operation), w.slot, w.locked⟩

def Tearing (may : Outcome → Prop) : Prop := ∃ n m, may (.torn n m)

theorem Tearing.faulty (h : Tearing may) : Faulty may := by
  obtain ⟨n, m, hm⟩ := h
  exact ⟨_, hm, rfl⟩

/-- The candidate was prepared beside the live Database, or given up there. -/
theorem prepareSnapshot_exec {K : Codec RestoreJournal} {bytes : Bytes}
    (hx : ∀ w, Leads E (restoreJournal K handle.id) x w → C w)
    (ht : Tearing may → ∀ w, Torn x w → C w) :
    Exec E may C (prepareSnapshot K handle bytes) (.clean x slot locked)
      (fun _ w => ∃ S, Validated E bytes S ∧ w = ⟨some (.file x), some (.file S), none,
        some (restoreJournal K handle.id), slot, locked⟩)
      (fun _ w => (Leads E (restoreJournal K handle.id) x w ∨ Tearing may ∧ Torn x w) ∧
        w.slot = slot ∧ w.database = some (.file x) ∧ w.locked = locked) := by
  have hu (c) : C ⟨some (.file x), some (.file c), none, none, slot, locked⟩ :=
    hx _ (.unjournaled (some c))
  have hfail (c) {e} {Q : Unit → View → Prop} : Exec E may C (.fail e)
      ⟨some (.file x), some (.file c), none, none, slot, locked⟩ Q
      (fun (_ : ProtocolFailure) w =>
        (Leads E (restoreJournal K handle.id) x w ∨ Tearing may ∧ Torn x w) ∧
        w.slot = slot ∧ w.database = some (.file x) ∧ w.locked = locked) :=
    Exec.fail ⟨.inl (.unjournaled (some c)), rfl, rfl, rfl⟩
  unfold prepareSnapshot writeRestoreJournal writeNewSynced
  simp only [Prog.bind_eq]
  refine Exec.bind (Exec.createNew trivial (hx _ .clean) ?_ ?_ ?_)
  · intro _
    refine Exec.pure (Exec.openDatabase trivial (hu _) ?_ fun e _ => hfail _)
    intro b hb hopen
    cases hb
    refine Exec.checkDatabase trivial (hu _) ?_ fun e _ => hfail _
    intro b valid hb hcheck
    cases hb
    cases valid with
    | false => exact hfail _
    | true =>
    refine Exec.adoptServerAuthority trivial (hu _) ?_ fun e => hfail _
    intro b S hb hadopt
    cases hb
    refine Exec.checkpointDatabase (hu S) ?_
    rintro (e | _)
    · exact hfail S
    refine Exec.bind (Exec.createNew trivial (hu S) ?_ ?_ ?_)
    · intro _
      refine Exec.pure ((syncRestoreDirectory_mapError (hx _ (.prepared (some S)))).mono
        (fun _ h => h) ?_ ?_)
      · rintro _ _ rfl
        exact ⟨S, ⟨⟨hopen, hcheck⟩, hadopt⟩, rfl⟩
      · rintro _ _ ⟨rfl, -⟩
        exact ⟨.inl (.prepared (some S)), rfl, rfl, rfl⟩
    · intro e _
      exact hfail S
    · -- part of the journal is written, and is removed if it can be
      intro n m hm _
      have htorn : Torn x ⟨some (.file x), some (.file S), none,
          some (.file ((K.encode (.prepared handle.id)).take n)), slot, locked⟩ := ⟨_, _, rfl⟩
      refine Exec.remove trivial (ht ⟨n, m, hm⟩ _ htorn) (fun _ => hfail S) (fun hn => nomatch hn) ?_
      intro e he _
      dsimp only
      rw [if_neg (by simp [he])]
      exact Exec.fail ⟨.inr ⟨⟨n, m, hm⟩, htorn⟩, rfl, rfl, rfl⟩
  · intro e _
    exact Exec.fail ⟨.inl .clean, rfl, rfl, rfl⟩
  · intro n m hm _
    refine Exec.remove trivial (hu _) (fun _ => ?_) (fun hn => nomatch hn) fun e he _ => ?_
    · exact Exec.fail ⟨.inl .clean, rfl, rfl, rfl⟩
    · dsimp only
      rw [if_neg (by simp [he])]
      exact hfail _

theorem refuseLeftovers_exec {v : View} (fs : List DbFile) (hf : ∀ f ∈ fs, f.Core) (hc : C v) :
    Exec E may C (refuseLeftovers fs) v (fun _ w => w = v ∧ ∀ f ∈ fs, v.get f = none)
      (fun _ w => w = v) := by
  induction fs with
  | nil => exact Exec.pure ⟨rfl, by simp⟩
  | cons f fs ih =>
    unfold refuseLeftovers
    simp only [Prog.bind_eq]
    refine Exec.pathExists (hf f (by simp)) hc ?_
    by_cases h : (v.get f).isSome = true
    · rw [if_pos h]
      exact Exec.fail rfl
    · rw [if_neg h]
      refine (ih fun g hg => hf g (by simp [hg])).mono (fun _ h => h) ?_ fun _ _ h => h
      rintro _ _ ⟨rfl, hrest⟩
      exact ⟨rfl, by simpa using ⟨by simpa using h, hrest⟩⟩

theorem Leads.eq_clean {v : View} (h : Leads E journal x v) (hc : v.candidate = none)
    (hb : v.backup = none) (ho : v.operation = none) : v = .clean x v.slot v.locked := by
  cases h with
  | unjournaled c =>
    cases c with
    | none => rfl
    | some c => cases hc
  | _ => cases ho

/-- The last cleanup touches a candidate only where no journal mentions it. -/
theorem dropUnjournaledCandidate_exec {v : View} {F : ε → View → Prop}
    (hC : ∀ w, Leads E journal x w → C w) (h : Leads E journal x v) :
    Exec E may C (dropUnjournaledCandidate handle) v
      (fun _ w => Leads E journal x w ∧ w.slot = v.slot ∧ w.database = v.database ∧
        w.locked = v.locked) F := by
  have hkeep : Leads E journal x v ∧ v.slot = v.slot ∧ v.database = v.database ∧
      v.locked = v.locked := ⟨h, rfl, rfl, rfl⟩
  unfold dropUnjournaledCandidate
  simp only [Prog.bind_eq, Prog.pure_eq]
  refine Exec.pathExists trivial (hC v h) ?_
  by_cases hd : (v.get .restoreCandidate).isSome = true
  · rw [if_pos hd]
    refine Exec.pathExists trivial (hC v h) ?_
    by_cases ho : (v.get .restoreOperation).isSome = true
    · simp only [ho, Bool.not_true, Bool.false_eq_true, ↓reduceIte]
      exact Exec.pure hkeep
    · obtain ⟨c, hv⟩ := h.eq_of_unjournaled (by
        intro hn
        simp [View.get, hn] at ho)
      have hclean : Leads E journal x (v.set .restoreCandidate none) := by
        rw [hv]
        exact .clean
      simp only [ho, Bool.not_false, ↓reduceIte]
      refine Exec.remove trivial (hC v h) ?_ ?_ ?_
      · intro _
        refine Exec.bind (Exec.removeSidecar (hC _ hclean) ?_)
        refine Exec.attempt ((syncRestoreDirectory_exec (hC _ hclean)).mono (fun _ h => h) ?_ ?_)
        · rintro _ _ rfl
          exact Exec.pure ⟨hclean, rfl, rfl, rfl⟩
        · rintro _ _ ⟨rfl, -⟩
          exact Exec.pure ⟨hclean, rfl, rfl, rfl⟩
      · intro _
        exact Exec.pure hkeep
      · intro e _ _
        exact Exec.pure hkeep
  · rw [if_neg hd]
    exact Exec.pure hkeep

end

/-- The files lead to the content from before the call, or to its snapshot. -/
def Covered (E : Engine) (journal : Node) (x bytes : Bytes) (w : View) : Prop :=
  ∃ y, (y = x ∨ Validated E bytes y) ∧ Leads E journal y w

/-- How a call that reports an error leaves things. -/
def CallFailed (E : Engine) (journal : Node) (x bytes : Bytes) (w : View) : Prop :=
  w.locked = false ∧ (Leads E journal x w ∧ Attached x w ∨
    ∃ S, Validated E bytes S ∧ Leads E journal S w ∧ w.slot = none)

/-- How a call that reports success leaves things. -/
def CallDone (E : Engine) (journal : Node) (bytes : Bytes) (w : View) : Prop :=
  w.locked = false ∧ ∃ S, Validated E bytes S ∧ Leads E journal S w ∧ w.slot = some ⟨S⟩ ∧
    w.database = some (.file S)

theorem CallFailed.keep {v w : View} (h : Leads E journal x w) (hslot : w.slot = v.slot)
    (hdb : w.database = v.database) (hl : w.locked = false) (ha : Attached x v) :
    CallFailed E journal x bytes w := by
  refine ⟨hl, .inl ⟨h, fun d hd => ?_⟩⟩
  rw [hdb]
  exact ha d (hslot ▸ hd)

theorem CallFailed.of_unfinished {w : View} (h : Unfinished E journal x S w)
    (hv : Validated E bytes S) : CallFailed E journal x bytes { w with locked := false } := by
  rcases h with ⟨hx, ha⟩ | ⟨hS, hslot⟩
  · exact ⟨rfl, .inl ⟨hx.handle, ha⟩⟩
  · exact ⟨rfl, .inr ⟨S, hv, hS.handle, hslot⟩⟩

theorem dropUnjournaledCandidate_failed {w : View} {failure : ProtocolFailure}
    {Q : Unit → View → Prop} (h : CallFailed E journal x bytes w) :
    Exec E may (Covered E journal x bytes)
      ((dropUnjournaledCandidate handle).bind fun _ => .fail failure) w Q
      (fun _ w => CallFailed E journal x bytes w) := by
  obtain ⟨hl, ⟨hx, ha⟩ | ⟨S, hv, hS, hslot⟩⟩ := h
  · refine Exec.seq (dropUnjournaledCandidate_exec (F := fun _ _ => False)
      (fun u hu => ⟨x, .inl rfl, hu⟩) hx) ?_ (fun _ _ h => h.elim)
    rintro _ u ⟨hu, hslot, hdb, hlock⟩
    exact Exec.fail (.keep hu hslot hdb (hlock ▸ hl) ha)
  · refine Exec.seq (dropUnjournaledCandidate_exec (F := fun _ _ => False)
      (fun u hu => ⟨S, .inr hv, hu⟩) hS) ?_ (fun _ _ h => h.elim)
    rintro _ u ⟨hu, hslot', -, hlock⟩
    exact Exec.fail ⟨hlock ▸ hl, .inr ⟨S, hv, hu, hslot' ▸ hslot⟩⟩

theorem prepareInstall_exec {E : Engine} {K : Codec RestoreJournal} {handle : ManagedDatabase}
    {bytes : Bytes} {slot : Option Database} (ht : ∀ n m, ¬ may (.torn n m))
    (hadopt : ∀ b S, Validated E b S → E.Sound S) (hd : ∀ d, slot = some d → d.content = x) :
    Exec E may (Covered E (restoreJournal K handle.id) x bytes)
      ((prepareSnapshot K handle bytes).bind fun _ => withGuard (installSnapshot handle))
      (.clean x slot false)
      (fun _ w => CallDone E (restoreJournal K handle.id) bytes w)
      (fun _ w => CallFailed E (restoreJournal K handle.id) x bytes w) := by
  have hx : ∀ w, Leads E (restoreJournal K handle.id) x w →
      Covered E (restoreJournal K handle.id) x bytes w := fun _ h => ⟨x, .inl rfl, h⟩
  have hj : restoreJournal K handle.id ≠ .directory := by simp [restoreJournal]
  have hwhole : ¬ Tearing may := by
    rintro ⟨n, m, hm⟩
    exact ht n m hm
  have ha : Attached x (.clean x slot false) := fun d hd' => ⟨hd d hd', rfl⟩
  refine Exec.seq (prepareSnapshot_exec hx fun hm => absurd hm hwhole) ?_ ?_
  · rintro _ _ ⟨S, hv, rfl⟩
    have hS : ∀ w, Leads E (restoreJournal K handle.id) S w →
        Covered E (restoreJournal K handle.id) x bytes w := fun _ h => ⟨S, .inr hv, h⟩
    refine withGuard_exec (hx _ (.prepared (some S)))
      ((installSnapshot_exec hx hS (hadopt bytes S hv) hj).mono (fun _ h => h) ?_ ?_)
    · rintro _ w ⟨hw, hslot, hdb⟩
      exact ⟨hS w hw, rfl, S, hv, hw.handle, hslot, hdb⟩
    · rintro _ w (⟨hw, hslot, hdb⟩ | ⟨-, hw⟩)
      · exact ⟨hx w hw, .keep (v := .clean x slot false) hw.handle hslot hdb rfl ha⟩
      · refine ⟨?_, .of_unfinished hw hv⟩
        rcases hw with ⟨hw, -⟩ | ⟨hw, -⟩
        · exact hx w hw
        · exact hS w hw
  · rintro _ w ⟨hw | ⟨hm, -⟩, hslot, hdb, hlock⟩
    · exact .keep (v := .clean x slot false) hw hslot hdb hlock ha
    · exact absurd hm hwhole

theorem restoreSnapshotWithOperations_exec {E : Engine} {K : Codec RestoreJournal}
    {handle : ManagedDatabase} {v : View} {bytes : Bytes} (ht : ∀ n m, ¬ may (.torn n m))
    (hadopt : ∀ b S, Validated E b S → E.Sound S)
    (h : Leads E (restoreJournal K handle.id) x v) (ha : Attached x v) (hl : v.locked = false) :
    Exec E may (Covered E (restoreJournal K handle.id) x bytes)
      (restoreSnapshotWithOperations K handle bytes) v
      (fun _ w => CallDone E (restoreJournal K handle.id) bytes w)
      (fun _ w => CallFailed E (restoreJournal K handle.id) x bytes w) := by
  have hx : ∀ w, Leads E (restoreJournal K handle.id) x w →
      Covered E (restoreJournal K handle.id) x bytes w := fun _ h => ⟨x, .inl rfl, h⟩
  unfold restoreSnapshotWithOperations
  split
  · exact Exec.fail (.keep h rfl rfl hl ha)
  simp only [Prog.bind_eq]
  refine Exec.seq (G := fun _ w => Leads E (restoreJournal K handle.id) x w ∧
    w.database = v.database ∧ w.slot = v.slot ∧ w.locked = v.locked ∧ Faulty may)
    (Exec.mapError (cleanupUnjournaledRestoreCandidate_exec h hx)) ?_ ?_
  · intro _ w hw
    obtain ⟨hwx, hwa, hwl⟩ : Leads E (restoreJournal K handle.id) x w ∧ Attached x w ∧
        w.locked = false := by
      rcases hw with rfl | ⟨rfl, -⟩
      · exact ⟨.clean, fun d hd => ⟨(ha d hd).1, rfl⟩, hl⟩
      · exact ⟨h, ha, hl⟩
    refine Exec.seq (refuseLeftovers_exec _ (by simp [DbFile.Core]) (hx w hwx)) ?_ ?_
    · rintro _ _ ⟨rfl, hnone⟩
      -- No leftovers: the directory is the clean one the protocol starts from.
      rw [hwx.eq_clean (hnone .restoreCandidate (by simp)) (hnone .restoreBackup (by simp))
        (hnone .restoreOperation (by simp)), hwl]
      refine Exec.attempt ((prepareInstall_exec ht hadopt fun d hd => (hwa d hd).1).mono
        (fun _ h => h) ?_ ?_)
      · intro _ u hu
        exact Exec.pure hu
      · intro failure u hu
        exact dropUnjournaledCandidate_failed hu
    · rintro _ _ rfl
      exact .keep hwx rfl rfl hwl hwa
  · rintro _ w ⟨hw, hdb, hslot, hlock, -⟩
    exact .keep hw hslot hdb (hlock ▸ hl) ha

-- ---------------------------------------------------------------------------
-- Files only
-- ---------------------------------------------------------------------------

/-- Without a look at the handle: the Database is in place when the call is
over, unless a step failed. `C` is whatever the files on the way imply. -/
theorem restoreSnapshotWithOperations_covers {E : Engine} {K : Codec RestoreJournal}
    {handle : ManagedDatabase} {v : View} {bytes : Bytes} {C : View → Prop}
    (hadopt : ∀ b S, Validated E b S → E.Sound S)
    (hC : ∀ y w, Leads E (restoreJournal K handle.id) y w → C w)
    (ht : Tearing may → ∀ w, Torn x w → C w)
    (h : Leads E (restoreJournal K handle.id) x v) (hdb : v.database = some (.file x)) :
    Exec E may C (restoreSnapshotWithOperations K handle bytes) v
      (fun _ w => ∃ S, Leads E (restoreJournal K handle.id) S w ∧ w.database = some (.file S))
      (fun _ w => Leads E (restoreJournal K handle.id) x w ∧ w.database = some (.file x) ∨
        Faulty may ∧ C w) := by
  have hj : restoreJournal K handle.id ≠ .directory := by simp [restoreJournal]
  unfold restoreSnapshotWithOperations
  split
  · exact Exec.fail (.inl ⟨h, hdb⟩)
  simp only [Prog.bind_eq]
  refine Exec.seq (G := fun _ w => Leads E (restoreJournal K handle.id) x w ∧
    w.database = v.database ∧ w.slot = v.slot ∧ w.locked = v.locked ∧ Faulty may)
    (Exec.mapError (cleanupUnjournaledRestoreCandidate_exec h (hC x))) ?_ ?_
  swap
  · rintro _ w ⟨hw, hwdb, -⟩
    exact .inl ⟨hw, hwdb.trans hdb⟩
  intro _ w hw
  obtain ⟨hwx, hwdb⟩ : Leads E (restoreJournal K handle.id) x w ∧ w.database = some (.file x) := by
    rcases hw with rfl | ⟨rfl, -⟩
    · exact ⟨.clean, rfl⟩
    · exact ⟨h, hdb⟩
  refine Exec.seq (refuseLeftovers_exec _ (by simp [DbFile.Core]) (hC x w hwx)) ?_ ?_
  swap
  · rintro _ _ rfl
    exact .inl ⟨hwx, hwdb⟩
  rintro _ _ ⟨rfl, hnone⟩
  rw [hwx.eq_clean (hnone .restoreCandidate (by simp)) (hnone .restoreBackup (by simp))
    (hnone .restoreOperation (by simp))]
  -- What is left of a call that failed leads where it led before the last cleanup.
  have hdrop : ∀ y u, Leads E (restoreJournal K handle.id) y u → ∀ failure,
      (y = x ∧ u.database = some (.file x) ∨ Faulty may) →
      Exec E may C ((dropUnjournaledCandidate handle).bind fun _ => .fail failure) u
        (fun (_ : Unit) w => ∃ S, Leads E (restoreJournal K handle.id) S w ∧
          w.database = some (.file S))
        (fun (_ : ProtocolFailure) w => Leads E (restoreJournal K handle.id) x w ∧
          w.database = some (.file x) ∨ Faulty may ∧ C w) := by
    intro y u hu failure hend
    refine Exec.seq (dropUnjournaledCandidate_exec (F := fun _ _ => False) (hC y) hu) ?_
      fun _ _ hf => hf.elim
    rintro _ t ⟨hled, -, hsame, -⟩
    rcases hend with ⟨rfl, hudb⟩ | hf
    · exact Exec.fail (.inl ⟨hled, hsame.trans hudb⟩)
    · exact Exec.fail (.inr ⟨hf, hC y t hled⟩)
  refine Exec.attempt (Exec.seq (prepareSnapshot_exec (hC x) ht) ?_ ?_)
  · rintro _ _ ⟨S, hv, rfl⟩
    refine withGuard_exec (hC x _ (.prepared (some S)))
      ((installSnapshot_exec (hC x) (hC S) (hadopt bytes S hv) hj).mono (fun _ h => h) ?_ ?_)
    · rintro _ u ⟨hu, -, hudb⟩
      exact ⟨hC S u hu, Exec.pure ⟨S, hu.handle, hudb⟩⟩
    · rintro failure u (⟨hu, -, hudb⟩ | ⟨hf, ⟨hu, -⟩ | ⟨hu, -⟩⟩)
      · exact ⟨hC x u hu, hdrop x _ hu.handle failure (.inl ⟨rfl, hudb⟩)⟩
      · exact ⟨hC x u hu, hdrop x _ hu.handle failure (.inr hf)⟩
      · exact ⟨hC S u hu, hdrop S _ hu.handle failure (.inr hf)⟩
  · rintro failure u ⟨hu | ⟨htear, htorn⟩, -, hudb, -⟩
    · exact hdrop x u hu failure (.inl ⟨rfl, hudb⟩)
    · have hCu := ht htear u htorn
      obtain ⟨candidate, operation, hview⟩ := htorn
      have hc : u.get .restoreCandidate = some (.file candidate) := congrArg View.candidate hview
      have ho : u.get .restoreOperation = some (.file operation) := congrArg View.operation hview
      unfold dropUnjournaledCandidate
      simp only [Prog.bind_eq]
      refine Exec.bind (Exec.pathExists trivial hCu ?_)
      rw [hc]
      refine Exec.pathExists trivial hCu ?_
      rw [ho]
      exact Exec.pure (Exec.fail (.inr ⟨htear.faulty, hCu⟩))

end NostdbServer
