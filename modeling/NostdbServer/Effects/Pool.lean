import NostdbServer.Effects.Wp
import Mathlib.Logic.Function.Basic

/-!
# Threads

Programs that share one state and take turns, one operation at a time. Every
thread has a setting of its own. When what a thread guarantees is what the
others rely on, the weakest preconditions of all of them hold together at every
moment of every interleaving.
-/

namespace Effects

structure Pool (ι : Type) (S : Signature) (ε α σ : Type) where
  state : σ
  threads : ι → Option (Prog S ε α)

namespace Pool

variable {ι : Type} [DecidableEq ι] {S : Signature} {χ σ ε α : Type}

/-- Thread `i` performs its next operation. -/
def act (W : World S χ σ) (i : ι) (c : χ) (p : Pool ι S ε α σ) : Option (Pool ι S ε α σ) :=
  match p.threads i with
  | some (.op o next) => (W.step o c p.state).map fun r =>
      ⟨r.2, Function.update p.threads i (some (next r.1))⟩
  | _ => none

theorem act_cases {W : World S χ σ} {p p' : Pool ι S ε α σ} {i : ι}
    (h : p.act W i c = some p') :
    ∃ o next ans t, p.threads i = some (.op o next) ∧ W.step o c p.state = some (ans, t) ∧
      p' = ⟨t, Function.update p.threads i (some (next ans))⟩ := by
  unfold act at h
  split at h
  · rename_i o next hp
    obtain ⟨⟨ans, t⟩, hs, rfl⟩ := Option.map_eq_some_iff.mp h
    exact ⟨o, next, ans, t, hp, hs, rfl⟩
  · cases h

/-- What is left of every thread meets its conditions from here. -/
def Safe (W : ι → Setting S χ σ) (C : σ → Prop) (Q : ι → α → σ → Prop) (F : ι → ε → σ → Prop)
    (p : Pool ι S ε α σ) : Prop :=
  ∀ i rest, p.threads i = some rest → (W i).Wp C rest p.state (Q i) (F i)

variable {W : ι → Setting S χ σ} {C : σ → Prop} {Q : ι → α → σ → Prop} {F : ι → ε → σ → Prop}
  {p p' : Pool ι S ε α σ} {i : ι}

/-- The step of one thread keeps the conditions of all. -/
theorem Safe.act (compatible : ∀ i j s t, i ≠ j → (W i).guar s t → (W j).rely s t)
    (h : Safe W C Q F p)
    (may : ∀ o next, p.threads i = some (.op o next) → (W i).may o c p.state)
    (hact : p.act (W i).toWorld i c = some p') :
    Safe W C Q F p' ∧ (W i).guar p.state p'.state := by
  obtain ⟨o, next, ans, t, hp, hs, rfl⟩ := act_cases hact
  obtain ⟨hg, hrest⟩ := (h i _ hp).step (may o next hp) hs
  refine ⟨fun j rest hj => ?_, hg⟩
  by_cases hij : i = j
  · subst hij
    simp only [Function.update_self, Option.some.injEq] at hj
    subst hj
    exact hrest
  · have hj : p.threads j = some rest := by simpa [Ne.symm hij] using hj
    exact (h j rest hj).rely (compatible i j _ _ hij hg)

/-- The state changes as every thread allows. -/
theorem Safe.extern (h : Safe W C Q F p)
    (hr : ∀ j, (p.threads j).isSome = true → (W j).rely p.state t) :
    Safe W C Q F ⟨t, p.threads⟩ := by
  intro j rest hj
  exact (h j rest hj).rely (hr j (Option.isSome_iff_exists.mpr ⟨rest, hj⟩))

theorem Safe.start {prog : Prog S ε α} (h : Safe W C Q F p)
    (hi : (W i).Wp C prog p.state (Q i) (F i)) :
    Safe W C Q F ⟨p.state, Function.update p.threads i (some prog)⟩ := by
  intro j rest hj
  by_cases hij : j = i
  · subst hij
    simp only [Function.update_self, Option.some.injEq] at hj
    subst hj
    exact hi
  · have hj : p.threads j = some rest := by simpa [hij] using hj
    exact h j rest hj

theorem Safe.stop (h : Safe W C Q F p) :
    Safe W C Q F ⟨p.state, Function.update p.threads i none⟩ := by
  intro j rest hj
  by_cases hij : j = i
  · subst hij
    simp at hj
  · have hj : p.threads j = some rest := by simpa [hij] using hj
    exact h j rest hj

end Pool

end Effects
