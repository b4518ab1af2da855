import Mathlib.Logic.Basic

/-!
# Programs over an effect signature

A program performs operations one at a time and decides from each answer
what to do next, or stops with a value or an error. What an operation does
is not part of the program: a `World` interprets the operations on a state,
with one external choice per step (did the disk accept this write, which
thread runs). `World.run` follows a list of choices and stops where the list
does, so a crash after any step is a run on a shorter list.
-/

namespace Effects

/-- Operations, and the answer each one gets. -/
structure Signature where
  Op : Type
  Ans : Op → Type

inductive Prog (S : Signature) (ε α : Type) where
  | pure (value : α)
  | fail (error : ε)
  | op (o : S.Op) (next : S.Ans o → Prog S ε α)

namespace Prog

def bind : Prog S ε α → (α → Prog S ε β) → Prog S ε β
  | .pure a, f => f a
  | .fail e, _ => .fail e
  | .op o next, f => .op o fun ans => (next ans).bind f

instance : Monad (Prog S ε) where
  pure := .pure
  bind := .bind

/-- One operation, returning its answer. -/
def call (o : S.Op) : Prog S ε (S.Ans o) := .op o .pure

/-- Runs `p` and hands its outcome to the caller, who cannot fail by it. -/
def attempt : Prog S ε α → Prog S ε' (Except ε α)
  | .pure a => .pure (.ok a)
  | .fail e => .pure (.error e)
  | .op o next => .op o fun ans => (next ans).attempt

def mapError (f : ε → ε') : Prog S ε α → Prog S ε' α
  | .pure a => .pure a
  | .fail e => .fail (f e)
  | .op o next => .op o fun ans => (next ans).mapError f

def ofExcept : Except ε α → Prog S ε α
  | .ok a => .pure a
  | .error e => .fail e

/-- The program's outcome, once it has stopped. -/
def result? : Prog S ε α → Option (Except ε α)
  | .pure a => some (.ok a)
  | .fail e => some (.error e)
  | .op _ _ => none

/-- Every operation the program can reach satisfies `P`. -/
def Only (P : S.Op → Prop) : Prog S ε α → Prop
  | .pure _ | .fail _ => True
  | .op o next => P o ∧ ∀ ans, (next ans).Only P

@[simp] theorem bind_pure (a : α) (f : α → Prog S ε β) : (Prog.pure a).bind f = f a := rfl
@[simp] theorem bind_fail (e : ε) (f : α → Prog S ε β) : (Prog.fail e).bind f = .fail e := rfl
@[simp] theorem bind_op (o : S.Op) (next : S.Ans o → Prog S ε α) (f : α → Prog S ε β) :
    (Prog.op o next).bind f = .op o fun ans => (next ans).bind f := rfl
@[simp] theorem bind_eq (p : Prog S ε α) (f : α → Prog S ε β) : p >>= f = p.bind f := rfl
/-- The operation the program performs next. -/
def next? : Prog S ε α → Option S.Op
  | .op o _ => some o
  | .pure _ | .fail _ => none

theorem of_next? {p : Prog S ε α} (h : p.next? = some o) : ∃ next, p = .op o next := by
  cases p with
  | op o' next =>
    cases h
    exact ⟨next, rfl⟩
  | pure | fail => cases h

@[simp] theorem ofExcept_ok (a : α) : (ofExcept (.ok a) : Prog S ε α) = .pure a := rfl
@[simp] theorem ofExcept_error (e : ε) : (ofExcept (.error e) : Prog S ε α) = .fail e := rfl
@[simp] theorem pure_eq (a : α) : (Pure.pure a : Prog S ε α) = .pure a := rfl

theorem bind_assoc (p : Prog S ε α) (f : α → Prog S ε β) (g : β → Prog S ε γ) :
    (p.bind f).bind g = p.bind fun a => (f a).bind g := by
  induction p with
  | pure a => rfl
  | fail e => rfl
  | op o next ih => simp only [bind_op, ih]

namespace Only

variable {S : Signature} {P : S.Op → Prop}

theorem bind {p : Prog S ε α} {f : α → Prog S ε β} (hp : p.Only P) (hf : ∀ a, (f a).Only P) :
    (p.bind f).Only P := by
  induction p with
  | pure a => exact hf a
  | fail e => trivial
  | op o next ih => exact ⟨hp.1, fun ans => ih ans (hp.2 ans)⟩

theorem attempt {p : Prog S ε α} (hp : p.Only P) : (p.attempt : Prog S ε' _).Only P := by
  induction p with
  | pure a => trivial
  | fail e => trivial
  | op o next ih => exact ⟨hp.1, fun ans => ih ans (hp.2 ans)⟩

theorem mapError {p : Prog S ε α} {f : ε → ε'} (hp : p.Only P) : (p.mapError f).Only P := by
  induction p with
  | pure a => trivial
  | fail e => trivial
  | op o next ih => exact ⟨hp.1, fun ans => ih ans (hp.2 ans)⟩

theorem mono {P' : S.Op → Prop} {p : Prog S ε α} (hp : p.Only P) (h : ∀ o, P o → P' o) :
    p.Only P' := by
  induction p with
  | pure a => trivial
  | fail e => trivial
  | op o next ih => exact ⟨h o hp.1, fun ans => ih ans (hp.2 ans)⟩

theorem of_forall (h : ∀ o, P o) (p : Prog S ε α) : p.Only P := by
  induction p with
  | pure a => trivial
  | fail e => trivial
  | op o next ih => exact ⟨h o, ih⟩

theorem next {p : Prog S ε α} (hp : p.Only P) (hn : p.next? = some o) : P o := by
  obtain ⟨next, rfl⟩ := of_next? hn
  exact hp.1

theorem next? {p : Prog S ε α} (hp : p.Only P) (h : p.next? = some o) : P o := by
  obtain ⟨next, rfl⟩ := of_next? h
  exact hp.1

/-- An operation followed by anything that keeps to `P`. -/
theorem step {f : S.Ans o → Prog S ε β} (ho : P o) (hf : ∀ ans, (f ans).Only P) :
    ((call o).bind f).Only P := ⟨ho, hf⟩

end Only

/-- Translates every operation into another signature. -/
def lift (f : S.Op → T.Op) (g : (o : S.Op) → T.Ans (f o) → S.Ans o) :
    Prog S ε α → Prog T ε α
  | .pure a => .pure a
  | .fail e => .fail e
  | .op o next => .op (f o) fun ans => (next (g o ans)).lift f g

theorem lift_bind {S T : Signature} {f : S.Op → T.Op} {g : (o : S.Op) → T.Ans (f o) → S.Ans o}
    (p : Prog S ε α) (k : α → Prog S ε β) :
    (p.bind k).lift f g = (p.lift f g).bind fun a => (k a).lift f g := by
  induction p with
  | pure a => rfl
  | fail e => rfl
  | op o next ih =>
    simp only [Prog.bind, Prog.lift]
    congr 1
    funext ans
    exact ih _

theorem lift_attempt {S T : Signature} {f : S.Op → T.Op} {g : (o : S.Op) → T.Ans (f o) → S.Ans o}
    (p : Prog S ε α) :
    (p.attempt : Prog S ε' _).lift f g = (p.lift f g).attempt := by
  induction p with
  | pure a => rfl
  | fail e => rfl
  | op o next ih =>
    simp only [Prog.attempt, Prog.lift]
    congr 1
    funext ans
    exact ih _

theorem Only.lift {S T : Signature} {P : T.Op → Prop} {f : S.Op → T.Op}
    {g : (o : S.Op) → T.Ans (f o) → S.Ans o}
    {p : Prog S ε α} (hp : p.Only fun o => P (f o)) : (p.lift f g).Only P := by
  induction p with
  | pure a => trivial
  | fail e => trivial
  | op o next ih => exact ⟨hp.1, fun ans => ih _ (hp.2 _)⟩

end Prog

/-- What the operations do to a state. `none`: the operation has to wait. -/
structure World (S : Signature) (χ σ : Type) where
  step : (o : S.Op) → χ → σ → Option (S.Ans o × σ)

namespace World

variable {S : Signature} {χ σ ε α : Type} (W : World S χ σ)

/-- Runs the program along a list of choices. What is left of the program when
the choices end, or when it has to wait, is returned with the state. -/
def run : List χ → Prog S ε α → σ → Prog S ε α × σ
  | c :: cs, .op o next, s =>
    match W.step o c s with
    | some (ans, s') => run cs (next ans) s'
    | none => (.op o next, s)
  | _, p, s => (p, s)

/-- Runs the program to its end with the same choice at every step. -/
def eval (c : χ) : Prog S ε α → σ → Option (Except ε α × σ)
  | .pure a, s => some (.ok a, s)
  | .fail e, s => some (.error e, s)
  | .op o next, s => (W.step o c s).bind fun r => eval c (next r.1) r.2

/-- What is left after a run keeps to the operations the program kept to. -/
theorem run_only {P : S.Op → Prop} {p : Prog S ε α} (hp : p.Only P) (cs : List χ) (s : σ) :
    (W.run cs p s).1.Only P := by
  induction cs generalizing p s with
  | nil => cases p <;> exact hp
  | cons c cs ih =>
    cases p with
    | pure a => exact hp
    | fail e => exact hp
    | op o next =>
      simp only [run]
      split
      · exact ih (hp.2 _) _
      · exact hp

theorem eval_bind (c : χ) (p : Prog S ε α) (k : α → Prog S ε β) (s : σ) :
    W.eval c (p.bind k) s = (W.eval c p s).bind fun r =>
      match r.1 with
      | .ok a => W.eval c (k a) r.2
      | .error e => some (.error e, r.2) := by
  induction p generalizing s with
  | pure a => rfl
  | fail e => rfl
  | op o next ih =>
    simp only [Prog.bind_op, eval, Option.bind_assoc]
    congr 1
    funext r
    exact ih r.1 r.2

theorem eval_attempt (c : χ) (p : Prog S ε α) (s : σ) :
    W.eval c (p.attempt : Prog S ε' _) s = (W.eval c p s).map fun r => (.ok r.1, r.2) := by
  induction p generalizing s with
  | pure a => rfl
  | fail e => rfl
  | op o next ih =>
    simp only [Prog.attempt, eval, Option.map_bind]
    congr 1
    funext r
    exact ih r.1 r.2

/-- The same world, with a record of the operations performed. -/
def logged : World S χ (σ × List S.Op) where
  step o c s := (W.step o c s.1).map fun r => (r.1, r.2, s.2 ++ [o])

/-- The record has no influence on a run. -/
theorem run_logged (cs : List χ) (p : Prog S ε α) (s : σ) (l : List S.Op) :
    (W.logged.run cs p (s, l)).1 = (W.run cs p s).1 ∧
      (W.logged.run cs p (s, l)).2.1 = (W.run cs p s).2 := by
  induction cs generalizing p s l with
  | nil => cases p <;> exact ⟨rfl, rfl⟩
  | cons c cs ih =>
    cases p with
    | pure a => exact ⟨rfl, rfl⟩
    | fail e => exact ⟨rfl, rfl⟩
    | op o next =>
      cases h : W.step o c s with
      | none => simp [run, logged, h]
      | some r =>
        simp only [run, h, show W.logged.step o c (s, l) = some (r.1, r.2, l ++ [o]) by
          simp [logged, h]]
        exact ih _ _ _

theorem eval_logged {W : World S χ σ} {p : Prog S ε α} {s s' : σ} {r : Except ε α}
    (h : W.eval c p s = some (r, s')) (l : List S.Op) :
    ∃ l', W.logged.eval c p (s, l) = some (r, s', l') := by
  induction p generalizing s l with
  | pure a =>
    cases h
    exact ⟨l, rfl⟩
  | fail e =>
    cases h
    exact ⟨l, rfl⟩
  | op o next ih =>
    obtain ⟨⟨ans, t⟩, hs, h⟩ := Option.bind_eq_some_iff.mp h
    obtain ⟨l', hl⟩ := ih ans h (l ++ [o])
    exact ⟨l', by simp [eval, logged, hs, ← hl]⟩

/-- The same world, where the operations `spared` are always given the choice `c`. -/
def sparing (W : World S χ σ) (spared : S.Op → Bool) (c : χ) : World S χ σ :=
  ⟨fun o c' s => W.step o (if spared o then c else c') s⟩

/-- A program without an operation that may have to wait runs to its end. -/
theorem eval_isSome {W : World S χ σ} {P : S.Op → Prop} (hP : ∀ o s, P o → (W.step o c s).isSome)
    {p : Prog S ε α} (hp : p.Only P) (s : σ) : ∃ r s', W.eval c p s = some (r, s') := by
  induction p generalizing s with
  | pure a => exact ⟨_, _, rfl⟩
  | fail e => exact ⟨_, _, rfl⟩
  | op o next ih =>
    obtain ⟨⟨ans, t⟩, hs⟩ := Option.isSome_iff_exists.mp (hP o s hp.1)
    obtain ⟨r, s', h⟩ := ih ans (hp.2 ans) t
    exact ⟨r, s', by simp [eval, hs, h]⟩

end World

end Effects
