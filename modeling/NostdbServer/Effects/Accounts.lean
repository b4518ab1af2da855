import NostdbServer.Effects.Discipline

/-!
# Accounts of many threads

The account of a run is what its events make of the account it started with. A
program that obeys a discipline obeys it from there on, as long as the answers
were such as the discipline counts on. `Keeps` is about programs that start and
end in the same class of accounts, which makes them easy to put together.

Threads that share a state fit it one by one, and are apart from each other two
by two; a step of one thread has to be looked at for that thread and for one
other.
-/

namespace Effects

namespace Discipline

variable {S : Signature} {μ : Type} (D : Discipline S μ)

def account (m : μ) (log : List (Event S)) : μ :=
  log.foldl (fun m e => D.next m e.op e.answer) m

@[simp] theorem account_nil (m : μ) : D.account m [] = m := rfl

theorem account_snoc (m : μ) (log : List (Event S)) (e : Event S) :
    D.account m (log ++ [e]) = D.next (D.account m log) e.op e.answer := by
  simp [account]

variable {D}

theorem Obeys.account {p q : Prog S ε α} {m : μ} {Q : α → μ → Prop} {F : ε → μ → Prop}
    (h : D.Obeys p m Q F) (hrun : p.Run log q)
    (hlog : ∀ e ∈ log, ∀ m, D.admits m e.op e.answer) :
    D.Obeys q (D.account m log) Q F := by
  induction hrun generalizing m with
  | refl p => exact h
  | step ans _ ih =>
    rw [List.forall_mem_cons] at hlog
    exact ih (h.2 ans (hlog.1 m)) hlog.2

/-- From `M` to `M`. -/
def Keeps (D : Discipline S μ) (M : μ → Prop) (p : Prog S ε α) : Prop :=
  ∀ m, M m → D.Obeys p m (fun _ => M) (fun _ => M)

namespace Keeps

variable {M : μ → Prop}

theorem pure (a : α) : D.Keeps M (.pure a : Prog S ε α) := fun _ h => h

theorem fail (e : ε) : D.Keeps M (.fail e : Prog S ε α) := fun _ h => h

theorem ofExcept (r : Except ε α) : D.Keeps M (Prog.ofExcept r : Prog S ε α) := by
  cases r with
  | ok a => exact pure a
  | error e => exact fail e

theorem bind {p : Prog S ε α} {f : α → Prog S ε β} (hp : D.Keeps M p) (hf : ∀ a, D.Keeps M (f a)) :
    D.Keeps M (p.bind f) :=
  fun m hm => Obeys.bind ((hp m hm).mono (fun a m hm => hf a m hm) fun _ _ h => h)

theorem attempt {p : Prog S ε α} (hp : D.Keeps M p) : D.Keeps M (p.attempt : Prog S ε' _) :=
  fun m hm => Obeys.attempt (hp m hm)

theorem mapError {p : Prog S ε α} {g : ε → ε'} (hp : D.Keeps M p) : D.Keeps M (p.mapError g) :=
  fun m hm => Obeys.mapError (hp m hm)

theorem of_only {P : S.Op → Prop} {p : Prog S ε α} (hp : p.Only P)
    (hstep : ∀ m o, M m → P o → D.allowed m o ∧ ∀ ans, D.admits m o ans → M (D.next m o ans)) :
    D.Keeps M p := fun _ hm => Obeys.of_only hp hstep hm

end Keeps

end Discipline

-- ---------------------------------------------------------------------------
-- Threads that share a state
-- ---------------------------------------------------------------------------

/-- Every account fits the state, and any two of them are apart. -/
structure Cohabit {θ μ ν : Type} (fit : ν → μ → Prop) (apart : μ → μ → Prop) (v : ν) (m : θ → μ) :
    Prop where
  fits : ∀ i, fit v (m i)
  apart : ∀ i j, i ≠ j → apart (m i) (m j)

theorem Cohabit.act {θ μ ν : Type} [DecidableEq θ] {fit : ν → μ → Prop} {apart : μ → μ → Prop}
    {v w : ν} {m : θ → μ} {i : θ} {t : μ} (h : Cohabit fit apart v m)
    (symm : ∀ a b, apart a b → apart b a) (hown : fit w t)
    (hother : ∀ j, j ≠ i → fit w (m j) ∧ apart t (m j)) :
    Cohabit fit apart w (Function.update m i t) where
  fits j := by
    by_cases hj : j = i
    · rw [hj, Function.update_self]
      exact hown
    · rw [Function.update_of_ne hj]
      exact (hother j hj).1
  apart j k hjk := by
    by_cases hj : j = i
    · subst hj
      rw [Function.update_self, Function.update_of_ne hjk.symm]
      exact (hother k hjk.symm).2
    · rw [Function.update_of_ne hj]
      by_cases hk : k = i
      · subst hk
        rw [Function.update_self]
        exact symm _ _ (hother j hj).2
      · rw [Function.update_of_ne hk]
        exact h.apart j k hjk

end Effects
