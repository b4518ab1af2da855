import NostdbServer.Daemon.Rules

/-!
# What a step does to the memory

The operations on the memory do what they say, those on a Database change its
handle, and all others leave the memory alone.
-/

namespace NostdbServer

open Effects

namespace Daemon

variable {d d' : Daemon}

theorem rootFiles_memory (o : FileOp RootPath) (c : Outcome) (d : Daemon) :
    (rootFiles.step o c d).2.memory = d.memory :=
  Volume.step_preserves (P := fun d' : Daemon => d'.memory = d.memory) (fun _ _ _ h => h) o rfl

theorem step_memory {o : DaemonOp} {ans : o.Ans} (h : step E uuids o c d = some (ans, d')) :
    d'.memory = d.memory ∨ Does.remembers o d.memory = some d'.memory ∨
      ∃ id handle, ((∃ o', o = .storage id o') ∨ o = .createDatabase id) ∧
        d'.memory = { d.memory with handles := Function.update d.memory.handles id handle } := by
  cases o with
  | root o =>
    have h : rootFiles.step o c d = (ans, d') := Option.some.inj h
    exact .inl (congrArg (fun r => r.2.memory) h ▸ rootFiles_memory o c d)
  | isDir p =>
    cases h
    exact .inl rfl
  | createDir p =>
    have h := (Option.some.inj h).symm
    unfold createDir at h
    split at h <;> cases h <;> exact .inl rfl
  | removeDir p =>
    have h := (Option.some.inj h).symm
    unfold removeDir at h
    split at h
    · cases h
      exact .inl rfl
    · cases h
      exact .inl rfl
    · cases h
      exact .inl rfl
    · split at h <;> cases h <;> exact .inl rfl
  | readDatabases =>
    have h := (Option.some.inj h).symm
    unfold readDatabases at h
    split at h <;> cases h <;> exact .inl rfl
  | createDatabase id =>
    have h := (Option.some.inj h).symm
    unfold createDatabase at h
    split at h
    · cases h
      exact .inl rfl
    · split at h
      · cases h
        exact .inl rfl
      · cases h
        exact .inr (.inr ⟨id, _, .inr rfl, memory_putSite⟩)
    · cases h
      exact .inl rfl
  | storage id o =>
    obtain ⟨r, -, hr⟩ := Option.map_eq_some_iff.mp h
    cases hr
    exact .inr (.inr ⟨id, _, .inl ⟨o, rfl⟩, memory_putSite⟩)
  | newId | readCatalog | getHandle _ =>
    cases h
    exact .inl rfl
  | readHandle id =>
    simp only [step] at h
    split at h
    · cases h
    · cases h
      exact .inl rfl
  | lockCatalog | lockDatabases =>
    simp only [step] at h
    split at h
    · cases h
    · cases h
      exact .inr (.inl rfl)
  | unlockCatalog | writeCatalog _ | unlockDatabases | insertHandle _ | removeHandle _
  | newHandle _ _ =>
    cases h
    exact .inr (.inl rfl)

/-- A handle is registered under the identifier of its Database. -/
def Keyed (d : Daemon) : Prop :=
  ∀ databaseId handle, d.memory.databases databaseId = some handle → handle.id = databaseId

theorem Keyed.step {o : DaemonOp} {ans : o.Ans} (h : d.Keyed)
    (hstep : step E uuids o c d = some (ans, d')) : d'.Keyed := by
  rcases step_memory hstep with hm | hm | ⟨_, _, -, hm⟩
  · simpa only [Keyed, hm] using h
  · intro databaseId handle hsome
    cases o with
    | insertHandle inserted =>
      rw [← Option.some.inj hm] at hsome
      dsimp only at hsome
      by_cases heq : databaseId = inserted.id
      · subst heq
        rw [Function.update_self] at hsome
        cases hsome
        rfl
      · rw [Function.update_of_ne heq] at hsome
        exact h databaseId handle hsome
    | removeHandle removed =>
      rw [← Option.some.inj hm] at hsome
      dsimp only at hsome
      by_cases heq : databaseId = removed
      · subst heq
        simp at hsome
      · rw [Function.update_of_ne heq] at hsome
        exact h databaseId handle hsome
    | lockCatalog | unlockCatalog | writeCatalog _ | lockDatabases | unlockDatabases
    | newHandle _ _ =>
      rw [← Option.some.inj hm] at hsome
      exact h databaseId handle hsome
    | _ => cases hm
  · simpa only [Keyed, hm] using h

end Daemon

end NostdbServer
