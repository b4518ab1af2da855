import NostdbServer.Effects.Discipline
import Mathlib.Logic.Relation

/-!
# A worker and the one who waits for it

A worker performs its program on a thread of its own. The side that waits takes
the worker's outcome or the firing of a timer, whichever it sees first; after the
timer it sets the worker's token and waits for the worker alone. Others may set
the token too. The steps interleave in any order.
-/

namespace Effects

/-- What the waiting side waits for. `over`: it has the outcome, and knows
whether the timer had fired. -/
inductive Waiting
  | workerOrTimer
  | worker
  | over (expired : Bool)
  deriving DecidableEq, Repr

structure Race (S : Signature) (ε α : Type) where
  rest : Prog S ε α
  log : List (Event S)
  cancelled : Bool
  waiting : Waiting

namespace Race

variable {S : Signature} {ε α : Type}

def start (p : Prog S ε α) : Race S ε α := ⟨p, [], false, .workerOrTimer⟩

def outcome? (r : Race S ε α) : Option (Except ε α) := r.rest.result?

inductive Step : Race S ε α → Race S ε α → Prop
  | work {r : Race S ε α} {o : S.Op} {next : S.Ans o → Prog S ε α} (ans : S.Ans o)
      (h : r.rest = .op o next) :
      Step r { r with rest := next ans, log := r.log ++ [⟨o, ans⟩] }
  | cancel (r : Race S ε α) : Step r { r with cancelled := true }
  | fire {r : Race S ε α} (h : r.waiting = .workerOrTimer) :
      Step r { r with waiting := .worker, cancelled := true }
  | notice {r : Race S ε α} (h : r.waiting = .workerOrTimer) (hdone : r.outcome?.isSome) :
      Step r { r with waiting := .over false }
  | join {r : Race S ε α} (h : r.waiting = .worker) (hdone : r.outcome?.isSome) :
      Step r { r with waiting := .over true }

/-- In whatever order the worker, the timer and those who cancel took turns. -/
def Reaches (p : Prog S ε α) (r : Race S ε α) : Prop := Relation.ReflTransGen Step (start p) r

theorem Reaches.run {p : Prog S ε α} {r : Race S ε α} (h : Reaches p r) : p.Run r.log r.rest := by
  induction h with
  | refl => exact .refl p
  | tail _ hstep ih =>
    cases hstep with
    | work ans h =>
      rw [h] at ih
      exact ih.snoc ans
    | _ => exact ih

/-- Nobody stops waiting before the worker is done. -/
theorem Reaches.over {p : Prog S ε α} {r : Race S ε α} (h : Reaches p r)
    (hover : r.waiting = .over expired) : ∃ result, r.outcome? = some result := by
  suffices h : r.outcome?.isSome = true from Option.isSome_iff_exists.mp h
  induction h with
  | refl => cases hover
  | tail _ hstep ih =>
    cases hstep with
    | work ans hrest =>
      have hdone := ih hover
      simp [outcome?, hrest, Prog.result?] at hdone
    | cancel => exact ih hover
    | fire => cases hover
    | notice _ hdone => exact hdone
    | join _ hdone => exact hdone

end Race

end Effects
