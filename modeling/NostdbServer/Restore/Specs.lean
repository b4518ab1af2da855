import NostdbServer.Restore.Rules

/-!
# What the cleanup functions do

One specification per helper of restore and recovery: where it ends, and that
it fails only when the disk does.
-/

namespace NostdbServer

open Effects World

/-- Some step may fail by itself. -/
def Faulty (may : Outcome → Prop) : Prop := ∃ c, may c ∧ (c.error?).isSome

theorem Injected.faulty (h : Injected may m) : Faulty may := by
  obtain ⟨c, hm, he⟩ := h
  exact ⟨c, hm, by cases h : c.error? <;> simp [h] at he ⊢⟩

theorem not_faulty_ok : ¬ Faulty (· = .ok) := by
  rintro ⟨c, rfl, he⟩
  simp [Outcome.error?] at he

namespace View

@[simp] theorem set_none_of_get (v : View) (hf : f.Core) (h : v.get f = none) :
    v.set f none = v := by
  cases v
  cases f <;> first | exact hf.elim | (cases h; rfl)

end View

section
variable {E : Engine} {may : Outcome → Prop} {C : View → Prop} {v : View} {handle : ManagedDatabase}

/-- Failed without touching anything, because of the disk. -/
def Unmoved (may : Outcome → Prop) (v : View) (_ : ε) (w : View) : Prop := w = v ∧ Faulty may

theorem syncRestoreDirectory_exec (hc : C v) :
    Exec E may C (syncRestoreDirectory handle) v (fun _ w => w = v) (Unmoved may v) := by
  unfold syncRestoreDirectory
  simp only [Prog.bind_eq]
  refine Exec.sync hc (Exec.pure rfl) ?_
  intro e he
  exact Exec.fail ⟨rfl, he.faulty⟩

theorem syncRestoreDirectory_mapError {g : ServerError → ε} (hc : C v) :
    Exec E may C ((syncRestoreDirectory handle).mapError g) v (fun _ w => w = v)
      (Unmoved may v) :=
  Exec.mapError (syncRestoreDirectory_exec hc)

theorem removeRestoreFile_exec (hf : f.Core) (hn : v.get f ≠ some .directory) (hc : C v) :
    Exec E may C (removeRestoreFile handle f) v (fun _ w => w = v.set f none) (Unmoved may v) := by
  unfold removeRestoreFile
  simp only [Prog.bind_eq]
  refine Exec.remove hf hc ?_ ?_ ?_
  · intro _
    exact Exec.pure rfl
  · intro h
    exact Exec.pure (View.set_none_of_get v hf h).symm
  · intro e he hi
    simp only [he, Bool.false_eq_true, ↓reduceIte]
    exact Exec.fail ⟨rfl, (hi.resolve_right hn).faulty⟩

theorem removeFileAndSidecar_exec (hf : f.Core) (hn : v.get f ≠ some .directory) (hc : C v)
    (hc' : C (v.set f none)) :
    Exec E may C (removeFileAndSidecar f) v (fun _ w => w = v.set f none) (Unmoved may v) := by
  unfold removeFileAndSidecar
  simp only [Prog.bind_eq]
  refine Exec.pathExists hf hc ?_
  split
  · refine Exec.remove hf hc ?_ ?_ ?_
    · intro _
      exact Exec.removeSidecar hc' rfl
    · intro h
      simp_all
    · intro e _ hi
      exact Exec.fail ⟨rfl, (hi.resolve_right hn).faulty⟩
  · rename_i h
    refine Exec.removeSidecar hc ?_
    rw [View.set_none_of_get v hf (by simpa using h)]

theorem nothingUnjournaled_exec {F : ε → View → Prop} (hc : C v) :
    Exec E may C nothingUnjournaled v
      (fun b w => w = v ∧ b = (v.operation.isSome || !v.candidate.isSome && !v.backup.isSome)) F := by
  unfold nothingUnjournaled
  simp only [Prog.bind_eq, Prog.pure_eq]
  refine Exec.pathExists trivial hc ?_
  by_cases ho : v.operation.isSome = true
  · rw [View.get, if_pos ho]
    exact Exec.pure ⟨rfl, by simp [ho]⟩
  · rw [View.get, if_neg ho]
    refine Exec.pathExists trivial hc ?_
    by_cases hd : v.candidate.isSome = true
    · rw [View.get, if_pos hd]
      exact Exec.pure ⟨rfl, by simp [ho, hd]⟩
    · rw [View.get, if_neg hd]
      exact Exec.pathExists trivial hc (Exec.pure ⟨rfl, by simp [ho, hd, View.get]⟩)

theorem onlyCandidateLeft_exec {F : ε → View → Prop} (hc : C v) :
    Exec E may C onlyCandidateLeft v
      (fun b w => w = v ∧ b = (v.database.isSome && v.candidate.isSome && !v.backup.isSome)) F := by
  unfold onlyCandidateLeft
  simp only [Prog.bind_eq, Prog.pure_eq]
  refine Exec.pathExists trivial hc ?_
  by_cases ht : v.database.isSome = true
  · rw [View.get, if_pos ht]
    refine Exec.pathExists trivial hc ?_
    by_cases hd : v.candidate.isSome = true
    · rw [View.get, if_pos hd]
      exact Exec.pathExists trivial hc (Exec.pure ⟨rfl, by simp [ht, hd, View.get]⟩)
    · rw [View.get, if_neg hd]
      exact Exec.pure ⟨rfl, by simp [hd]⟩
  · rw [View.get, if_neg ht]
    exact Exec.pure ⟨rfl, by simp [ht]⟩

/-- `withGuard` holds the mutex around `p` and releases it either way. -/
theorem withGuard_exec {p : Prog storage ε α} {Q : α → View → Prop} {F : ε → View → Prop}
    (hc : C v)
    (h : Exec E may C p { v with locked := true } (fun a w => C w ∧ Q a { w with locked := false })
      (fun e w => C w ∧ F e { w with locked := false })) :
    Exec E may C (withGuard p) v Q F := by
  unfold withGuard
  simp only [Prog.bind_eq]
  refine Exec.lock hc fun _ => Exec.attempt (h.mono (fun _ hc => hc) ?_ ?_)
  · rintro a w ⟨hcw, hq⟩
    exact Exec.unlock hcw (Exec.pure hq)
  · rintro e w ⟨hcw, hf⟩
    exact Exec.unlock hcw (Exec.fail hf)

end

end NostdbServer
