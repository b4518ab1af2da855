import NostdbServer.Restore.Specs

/-!
# What an interrupted restore leads to

`Leads x v`: the files of `v` are ones a restore or its recovery can leave
behind, and recovery turns them into the content `x` and nothing else. Every
step of an interrupted recovery keeps what it leads to, so it can be rerun.
-/

namespace NostdbServer

open Effects World

/-- What the engine opens and finds valid. -/
def Engine.Sound (E : Engine) (x : Bytes) : Prop := E.accepts x = .ok () ∧ E.check x = .ok true

def restoreJournal (K : Codec RestoreJournal) (id : String) : Node :=
  .file (K.encode (.prepared id))

inductive Leads (E : Engine) (journal : Node) (x : Bytes) : View → Prop
  /-- Nothing was moved yet, and nothing is journaled. -/
  | unjournaled (candidate : Option Bytes) :
    Leads E journal x ⟨some (.file x), candidate.map .file, none, none, slot, locked⟩
  /-- The Database is in place, beside what is left of the prepared restore. -/
  | prepared (candidate : Option Bytes) :
    Leads E journal x ⟨some (.file x), candidate.map .file, none, some journal, slot, locked⟩
  /-- The live Database is moved away and the snapshot not yet in its place. -/
  | moved (backup : Bytes) (sound : E.Sound x) :
    Leads E journal x ⟨none, some (.file x), some (.file backup), some journal, slot,
      locked⟩
  | installed (backup : Bytes) (sound : E.Sound x) :
    Leads E journal x ⟨some (.file x), none, some (.file backup), some journal, slot,
      locked⟩
  /-- The installed snapshot was taken out again. -/
  | removed :
    Leads E journal x ⟨none, none, some (.file x), some journal, slot, locked⟩

/-- No restore file. -/
def View.settled (n : Option Node) (slot : Option Database) (locked : Bool) : View :=
  ⟨n, none, none, none, slot, locked⟩

/-- The Database in place and no restore file. -/
def View.clean (x : Bytes) (slot : Option Database) (locked : Bool) : View :=
  .settled (some (.file x)) slot locked

namespace Leads

variable {E : Engine} {journal : Node} {x : Bytes} {v w : View}

theorem clean : Leads E journal x (.clean x slot locked) := unjournaled none

/-- The handle is no part of what the files lead to. -/
theorem handle (h : Leads E journal x v) : Leads E journal x { v with slot := slot, locked := locked } := by
  cases h with
  | unjournaled c => exact .unjournaled c
  | prepared c => exact .prepared c
  | moved b hs => exact .moved b hs
  | installed b hs => exact .installed b hs
  | removed => exact .removed

theorem eq_of_unjournaled (h : Leads E journal x v) (ho : v.operation ≠ some journal) :
    ∃ c : Option Bytes, v = ⟨some (.file x), c.map .file, none, none, v.slot, v.locked⟩ := by
  cases h with
  | unjournaled c => exact ⟨c, rfl⟩
  | _ => exact absurd rfl ho

end Leads

section
variable {E : Engine} {may : Outcome → Prop} {journal : Node} {x : Bytes} {v : View}
  {handle : ManagedDatabase}

-- ---------------------------------------------------------------------------
-- Cleaning up before a restore or a recovery
-- ---------------------------------------------------------------------------

theorem cleanupUnjournaledRestoreCandidate_journaled {C : View → Prop}
    {F : ServerError → View → Prop} (ho : v.operation = some journal) (hc : C v) :
    Exec E may C (cleanupUnjournaledRestoreCandidate handle) v (fun _ w => w = v) F := by
  unfold cleanupUnjournaledRestoreCandidate
  simp only [Prog.bind_eq]
  refine Exec.seq (G := F) (nothingUnjournaled_exec hc) ?_ fun _ _ h => h
  rintro _ _ ⟨rfl, rfl⟩
  simp only [ho, Option.isSome_some, Bool.true_or, ↓reduceIte]
  exact Exec.pure rfl

theorem cleanupUnjournaledRestoreCandidate_exec {C : View → Prop}
    (h : Leads E journal x v) (hC : ∀ w, Leads E journal x w → C w) :
    Exec E may C (cleanupUnjournaledRestoreCandidate handle) v
      (fun _ w => w = .clean x v.slot v.locked ∨ w = v ∧ v.operation = some journal)
      (fun _ w => Leads E journal x w ∧ w.database = v.database ∧ w.slot = v.slot ∧
        w.locked = v.locked ∧ Faulty may) := by
  by_cases ho : v.operation = some journal
  · refine (cleanupUnjournaledRestoreCandidate_journaled ho (hC v h)).mono (fun _ h => h) ?_
      fun _ _ h => h
    rintro _ _ rfl
    exact .inr ⟨rfl, ho⟩
  · obtain ⟨c, hv⟩ := h.eq_of_unjournaled ho
    rw [hv]
    unfold cleanupUnjournaledRestoreCandidate
    simp only [Prog.bind_eq]
    refine Exec.seq (G := fun _ _ => False) (nothingUnjournaled_exec (hC _ (.unjournaled c)))
      ?_ (by simp)
    rintro _ _ ⟨rfl, rfl⟩
    cases c with
    | none => exact Exec.pure (.inl rfl)
    | some c =>
      simp only [Option.map_some, Option.isSome_some, Option.isSome_none, Bool.not_true,
        Bool.false_and, Bool.or_self, Bool.false_eq_true, ↓reduceIte]
      refine Exec.seq (G := fun _ _ => False) (onlyCandidateLeft_exec (hC _ (.unjournaled (some c))))
        ?_ (by simp)
      rintro _ _ ⟨rfl, rfl⟩
      simp only [Option.isSome_some, Option.isSome_none, Bool.not_false, Bool.and_self,
        ↓reduceIte]
      refine Exec.seq (removeFileAndSidecar_exec (f := .restoreCandidate) trivial (by simp [View.get])
        (hC _ (.unjournaled (some c))) (hC _ .clean)) ?_ ?_
      · rintro _ _ rfl
        refine (syncRestoreDirectory_exec (hC _ .clean)).mono (fun _ h => h) ?_ ?_
        · rintro _ _ rfl
          exact .inl rfl
        · rintro _ _ ⟨rfl, hf⟩
          exact ⟨.clean, rfl, rfl, rfl, hf⟩
      · rintro _ _ ⟨rfl, hf⟩
        exact ⟨.unjournaled (some c), rfl, rfl, rfl, hf⟩

-- ---------------------------------------------------------------------------
-- Recovery
-- ---------------------------------------------------------------------------

/-- Recovery got as far as having the Database in place. -/
def InPlace (journal : Node) (x : Bytes) (slot : Option Database) (locked : Bool) (w : View) :
    Prop :=
  ∃ b : Option Bytes, w = ⟨some (.file x), none, b.map .file, some journal, slot, locked⟩

theorem validateRecoveredSnapshot_exec {C : View → Prop} {F : ServerError → View → Prop}
    (hm : ¬ Faulty may) (hf : f.Core) (hv : v.get f = some (.file x)) (hs : E.Sound x) (hc : C v) :
    Exec E may C (validateRecoveredSnapshot handle f) v (fun _ w => w = v) F := by
  unfold validateRecoveredSnapshot
  simp only [Prog.bind_eq]
  refine Exec.openDatabase hf hc ?_ ?_
  · intro b hb _
    refine Exec.checkDatabase hf hc ?_ ?_
    · intro b' valid hb' hcheck
      rw [hv] at hb'
      cases hb'
      rw [hs.2] at hcheck
      cases hcheck
      exact Exec.pure rfl
    · rintro e (hi | he)
      · exact absurd hi.faulty hm
      · have := he x hv
        rw [hs.2] at this
        cases this
  · rintro e (hi | he)
    · exact absurd hi.faulty hm
    · have := he x hv
      rw [hs.1] at this
      cases this

theorem recoverOrAcceptInstalledSnapshot_exec {C : View → Prop} {F : ServerError → View → Prop}
    (hm : ¬ Faulty may) (hv : v.database = some (.file x)) (hs : E.Sound x) (hc : C v) :
    Exec E may C (recoverOrAcceptInstalledSnapshot handle) v (fun _ w => w = v) F := by
  unfold recoverOrAcceptInstalledSnapshot
  simp only [Prog.bind_eq]
  refine Exec.attempt ((validateRecoveredSnapshot_exec (F := fun _ _ => False) hm
    (f := .database) trivial hv hs hc).mono (fun _ h => h) ?_ (by simp))
  rintro _ _ rfl
  exact Exec.pure rfl

theorem rename_refused {n : Node} (hv : v.get f = some n)
    (hg : v.get g = none)
    (h : Injected may m ∨ ∀ n, v.get f = some n → Volume.replaceable n (v.get g) = false) :
    Faulty may := by
  rcases h with h | h
  · exact h.faulty
  · have := h n hv
    simp [hg, Volume.replaceable] at this

theorem settleRestoreFiles_exec (hm : ¬ Faulty may) (h : Leads E journal x v)
    (ho : v.operation = some journal) :
    Exec E may (Leads E journal x) (settleRestoreFiles handle) v
      (fun _ w => InPlace journal x v.slot v.locked w ∧ Leads E journal x w) (fun _ _ => False) := by
  unfold settleRestoreFiles
  simp only [Prog.bind_eq]
  refine Exec.pathExists trivial h (Exec.pathExists trivial h (Exec.pathExists trivial h ?_))
  cases h with
  | unjournaled c => cases ho
  | prepared c =>
    cases c with
    | none => exact Exec.pure ⟨⟨none, rfl⟩, .prepared none⟩
    | some c =>
      refine (removeFileAndSidecar_exec (f := .restoreCandidate) trivial (by simp [View.get])
        (.prepared (some c)) (.prepared none)).mono (fun _ h => h) ?_ ?_
      · rintro _ _ rfl
        exact ⟨⟨none, rfl⟩, .prepared none⟩
      · rintro _ _ ⟨rfl, hf⟩
        exact hm hf
  | moved b hs =>
    refine Exec.rename trivial trivial (by simp) (.moved b hs) ?_ ?_
    · rintro n hn
      cases hn
      refine Exec.seq (syncRestoreDirectory_exec (.installed b hs)) ?_ ?_
      · rintro _ _ rfl
        refine (recoverOrAcceptInstalledSnapshot_exec hm rfl hs (.installed b hs)).mono
          (fun _ h => h) ?_ fun _ _ h => h
        rintro _ _ rfl
        exact ⟨⟨some b, rfl⟩, .installed b hs⟩
      · rintro _ _ ⟨rfl, hf⟩
        exact hm hf
    · intro e he
      exact absurd (rename_refused (n := .file x) rfl rfl he) hm
  | installed b hs =>
    refine (recoverOrAcceptInstalledSnapshot_exec hm rfl hs (.installed b hs)).mono
      (fun _ h => h) ?_ fun _ _ h => h
    rintro _ _ rfl
    exact ⟨⟨some b, rfl⟩, .installed b hs⟩
  | removed =>
    refine Exec.rename trivial trivial (by simp) .removed ?_ ?_
    · rintro n hn
      cases hn
      refine (syncRestoreDirectory_exec (.prepared none)).mono (fun _ h => h) ?_ ?_
      · rintro _ _ rfl
        exact ⟨⟨none, rfl⟩, .prepared none⟩
      · rintro _ _ ⟨rfl, hf⟩
        exact hm hf
    · intro e he
      exact absurd (rename_refused (n := .file x) rfl rfl he) hm

theorem clearRestoreFiles_exec (hm : ¬ Faulty may) (h : InPlace journal x slot locked v)
    (hl : Leads E journal x v) (hj : journal ≠ .directory) :
    Exec E may (Leads E journal x) (clearRestoreFiles handle) v
      (fun _ w => w = .clean x slot locked) (fun _ _ => False) := by
  obtain ⟨b, rfl⟩ := h
  unfold clearRestoreFiles
  simp only [Prog.bind_eq]
  refine Exec.seq (removeFileAndSidecar_exec (f := .restoreCandidate) trivial (by simp [View.get])
    hl hl) ?_ fun _ _ h => hm h.2
  rintro _ _ rfl
  refine Exec.seq (removeFileAndSidecar_exec (f := .restoreBackup) trivial
    (by cases b <;> simp [View.get, View.set]) hl (.prepared none)) ?_ fun _ _ h => hm h.2
  rintro _ _ rfl
  refine Exec.seq (syncRestoreDirectory_exec (.prepared none)) ?_ fun _ _ h => hm h.2
  rintro _ _ rfl
  refine Exec.remove (f := .restoreOperation) trivial (.prepared none) ?_ ?_ ?_
  · intro _
    refine (syncRestoreDirectory_exec .clean).mono (fun _ h => h) ?_ fun _ _ h => hm h.2
    rintro _ _ rfl
    rfl
  · intro h
    cases h
  · rintro e - (hi | hd)
    · exact absurd hi.faulty hm
    · exact absurd (Option.some.inj hd) hj

end

/-- Recovery without disk errors brings `x` into place, and wherever it is cut
off the files still lead to `x`. -/
theorem recoverDirectory_exec {E : Engine} {K : Codec RestoreJournal} {handle : ManagedDatabase}
    (hm : ¬ Faulty may) (h : Leads E (restoreJournal K handle.id) x v) :
    Exec E may (Leads E (restoreJournal K handle.id) x) (recoverDirectory K handle) v
      (fun _ w => w = .clean x v.slot v.locked) (fun _ _ => False) := by
  unfold recoverDirectory
  simp only [Prog.bind_eq]
  refine Exec.seq (cleanupUnjournaledRestoreCandidate_exec h fun _ h => h) ?_
    fun _ _ h => hm h.2.2.2.2
  rintro _ w (rfl | ⟨rfl, ho⟩)
  · exact Exec.pathExists trivial .clean (Exec.pure rfl)
  · refine Exec.pathExists trivial h ?_
    rw [View.get, ho]
    unfold readRestoreJournal
    refine Exec.bind (Exec.read trivial h ?_ ?_)
    · intro b hb
      rw [View.get, ho] at hb
      cases hb
      simp only [Codec.decode_encode]
      refine Exec.pure ?_
      simp only [RestoreJournal.prepared, ne_eq, not_true_eq_false, or_self, ↓reduceIte]
      refine Exec.seq (settleRestoreFiles_exec hm h ho) ?_ fun _ _ h => h
      rintro _ u ⟨hp, hl⟩
      exact clearRestoreFiles_exec hm hp hl (by simp [restoreJournal])
    · rintro e (hi | hn | hd)
      · exact absurd hi.faulty hm
      · rw [View.get, ho] at hn
        cases hn
      · rw [View.get, ho] at hd
        cases hd

/-- A directory without restore files is left as it is. -/
theorem recoverDirectory_settled {E : Engine} {K : Codec RestoreJournal}
    {handle : ManagedDatabase} {C : View → Prop} {F : ServerError → View → Prop}
    (hv : v = .settled n v.slot v.locked) (hc : C v) :
    Exec E may C (recoverDirectory K handle) v (fun _ w => w = v) F := by
  unfold recoverDirectory cleanupUnjournaledRestoreCandidate
  simp only [Prog.bind_eq]
  have ho : v.operation = none := congrArg View.operation hv
  have hcand : v.candidate = none := congrArg View.candidate hv
  have hb : v.backup = none := congrArg View.backup hv
  refine Exec.bind (Exec.seq (G := F) (nothingUnjournaled_exec hc) ?_ fun _ _ h => h)
  rintro _ _ ⟨rfl, rfl⟩
  simp only [ho, hcand, hb, Option.isSome_none, Bool.not_false, Bool.and_self, Bool.or_true,
    ↓reduceIte]
  refine Exec.pure (Exec.pathExists trivial hc ?_)
  rw [View.get, ho]
  exact Exec.pure rfl

/-- Recovery leaves `n` as the Database and no restore file. -/
def Settles (E : Engine) (journal : Node) (n : Option Node) (v : View) : Prop :=
  (∃ x, n = some (.file x) ∧ Leads E journal x v) ∨ v = .settled n v.slot v.locked

theorem recoverDirectory_settles {E : Engine} {K : Codec RestoreJournal}
    {handle : ManagedDatabase} (hm : ¬ Faulty may)
    (h : Settles E (restoreJournal K handle.id) n v) :
    Exec E may (Settles E (restoreJournal K handle.id) n) (recoverDirectory K handle) v
      (fun _ w => w = .settled n v.slot v.locked) (fun _ _ => False) := by
  rcases h with ⟨x, rfl, h⟩ | h
  · exact (recoverDirectory_exec hm h).mono (fun _ h => .inl ⟨x, rfl, h⟩) (fun _ _ h => h)
      fun _ _ h => h
  · refine (recoverDirectory_settled h (.inr h)).mono (fun _ h => h) ?_ fun _ _ h => h
    rintro _ _ rfl
    exact h

end NostdbServer
