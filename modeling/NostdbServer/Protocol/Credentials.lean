import Mathlib.Data.List.GetD
import Mathlib.Data.Nat.Bitwise
import NostdbServer.Protocol.Messages

/-!
# Credentials

The two tokens a client can present and the comparison that looks at every
byte of both. The comparison decides equality, so a role is given for exactly
one token each.
-/

namespace NostdbServer

structure Credentials where
  query : String
  admin : String
  deriving DecidableEq

/-- The accumulator of the loop in `constant_time_equal` after `count` rounds. -/
def difference (left right : List UInt8) : Nat → Nat
  | 0 => left.length ^^^ right.length
  | count + 1 => difference left right count |||
      (left.getD count 0 ^^^ right.getD count 0).toNat

def constantTimeEqual (left right : List UInt8) : Bool :=
  difference left right (max left.length right.length) = 0

def utf8 (s : String) : List UInt8 := s.toUTF8.data.toList

def Credentials.authenticate (credentials : Credentials) (supplied : String) :
    Option ClientRole :=
  if constantTimeEqual (utf8 supplied) (utf8 credentials.admin) then some .admin
  else if constantTimeEqual (utf8 supplied) (utf8 credentials.query) then some .query
  else none

-- ---------------------------------------------------------------------------
-- The comparison decides equality
-- ---------------------------------------------------------------------------

theorem difference_eq_zero (left right : List UInt8) (count : Nat) :
    difference left right count = 0 ↔
      left.length = right.length ∧ ∀ i < count, left.getD i 0 = right.getD i 0 := by
  induction count with
  | zero => simp [difference, Nat.xor_eq_zero_iff]
  | succ count ih =>
    have hbyte : (left.getD count 0 ^^^ right.getD count 0).toNat = 0 ↔
        left.getD count 0 = right.getD count 0 := by
      rw [← UInt8.toNat_zero, UInt8.toNat_inj, UInt8.xor_eq_zero_iff]
    rw [difference, Nat.or_eq_zero_iff, ih, hbyte, and_assoc, Nat.forall_lt_succ_right]

theorem constantTimeEqual_iff (left right : List UInt8) :
    constantTimeEqual left right = true ↔ left = right := by
  simp only [constantTimeEqual, decide_eq_true_eq, difference_eq_zero]
  refine ⟨fun ⟨hlength, h⟩ => List.ext_getElem hlength fun i hl hr => ?_, ?_⟩
  · have hi := h i (by omega)
    rwa [List.getD_eq_getElem _ _ hl, List.getD_eq_getElem _ _ hr] at hi
  · rintro rfl
    exact ⟨rfl, fun _ _ => rfl⟩

theorem utf8_inj {s t : String} : utf8 s = utf8 t ↔ s = t := by
  refine ⟨fun h => ?_, fun h => h ▸ rfl⟩
  exact String.toByteArray_inj.mp (ByteArray.ext (Array.toList_inj.mp h))

namespace Credentials

variable {credentials : Credentials} {supplied : String}

theorem authenticate_admin :
    credentials.authenticate supplied = some .admin ↔ supplied = credentials.admin := by
  simp only [authenticate, constantTimeEqual_iff, utf8_inj]
  split
  · simp_all
  · split <;> simp_all

theorem authenticate_query (h : credentials.query ≠ credentials.admin) :
    credentials.authenticate supplied = some .query ↔ supplied = credentials.query := by
  simp only [authenticate, constantTimeEqual_iff, utf8_inj]
  split
  · rename_i hadmin
    simp [hadmin, Ne.symm h]
  · split <;> simp_all

theorem authenticate_isSome : (credentials.authenticate supplied).isSome = true ↔
    supplied = credentials.admin ∨ supplied = credentials.query := by
  simp only [authenticate, constantTimeEqual_iff, utf8_inj]
  split
  · simp_all
  · split <;> simp_all

end Credentials

end NostdbServer
