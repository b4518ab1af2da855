import Mathlib.Data.Nat.Init
import Mathlib.Logic.Function.Basic

/-!
# Histories

A labelled transition relation and a list of labels. A course of the list gives
the state at every position; a property of the state at one position is carried
to another by the labels in between, and one that holds now and not at the
start came to hold at some last label.
-/

namespace Effects

/-- `state i` is the state before the label at `i`. -/
def Course (R : σ → ℓ → σ → Prop) (labels : List ℓ) (state : Nat → σ) : Prop :=
  ∀ i l, labels[i]? = some l → R (state i) l (state (i + 1))

namespace Course

section
variable {R : σ → ℓ → σ → Prop} {labels : List ℓ} {state : Nat → σ}

theorem nil : Course R [] state := nofun

theorem snoc (h : Course R labels state) (hl : R (state labels.length) l s) :
    Course R (labels ++ [l]) (Function.update state (labels.length + 1) s) := by
  intro i l' hi
  by_cases hlt : i < labels.length
  · rw [List.getElem?_append_left hlt] at hi
    rw [Function.update_of_ne (by omega), Function.update_of_ne (by omega)]
    exact h i l' hi
  · rw [List.getElem?_append_right (by omega), List.getElem?_singleton] at hi
    split at hi
    · cases hi
      obtain rfl : i = labels.length := by omega
      rw [Function.update_of_ne (by omega), Function.update_self]
      exact hl
    · cases hi

/-- What every label from `i` on keeps, up to `j`. -/
theorem carry (h : Course R labels state) {P : Nat → σ → Prop} (hij : i ≤ j)
    (hj : j ≤ labels.length) (hi : P i (state i))
    (hstep : ∀ k l s s', i ≤ k → k < j → labels[k]? = some l → R s l s' → P k s → P (k + 1) s') :
    P j (state j) := by
  induction j, hij using Nat.le_induction with
  | base => exact hi
  | succ j hij ih =>
    have hl : labels[j]? = some labels[j] := List.getElem?_eq_getElem hj
    refine hstep j _ _ _ hij (Nat.lt_succ_self j) hl (h j _ hl) (ih (by omega) ?_)
    exact fun k l s s' hik hkj => hstep k l s s' hik (by omega)

/-- The last position at which `P` did not hold. -/
theorem latest {P : σ → Prop} (hstart : ¬ P (state 0)) (hj : P (state j)) :
    ∃ b < j, ¬ P (state b) ∧ ∀ k, b < k → k ≤ j → P (state k) := by
  induction j with
  | zero => exact absurd hj hstart
  | succ j ih =>
    by_cases h : P (state j)
    · obtain ⟨b, hb, hnot, hsince⟩ := ih h
      refine ⟨b, by omega, hnot, fun k hbk hkj => ?_⟩
      obtain rfl | hlt := Nat.eq_or_lt_of_le hkj
      · exact hj
      · exact hsince k hbk (by omega)
    · refine ⟨j, by omega, h, fun k hjk hkj => ?_⟩
      obtain rfl : k = j + 1 := by omega
      exact hj

end

end Course

end Effects
