import NostdbServer.Effects.Files

/-!
# Documents as bytes

A `Codec` is all a program needs of a document format: what was written reads
back. A `Format` is self-delimiting, so formats compose; every format gives a
codec.
-/

namespace Effects

/-- The text of a document, and how it is read back. -/
structure Codec (α : Type) where
  encode : α → Bytes
  decode : Bytes → Except String α
  decode_encode (a : α) : decode (encode a) = .ok a

attribute [simp] Codec.decode_encode

/-- Values written one after the other, each read from the front. -/
structure Format (α : Type) where
  write : α → Bytes
  read : Bytes → Option (α × Bytes)
  read_write (a : α) (rest : Bytes) : read (write a ++ rest) = some (a, rest)

namespace Format

attribute [simp] read_write

def codec (F : Format α) : Codec α where
  encode := F.write
  decode bytes :=
    match F.read bytes with
    | some (a, []) => .ok a
    | _ => .error "EOF while parsing a value"
  decode_encode a := by
    have h := F.read_write a []
    rw [List.append_nil] at h
    rw [h]

def map (F : Format α) (f : α → β) (g : β → α) (h : ∀ b, f (g b) = b) : Format β where
  write b := F.write (g b)
  read bytes := (F.read bytes).map fun r => (f r.1, r.2)
  read_write b rest := by simp [h]

def prod (F : Format α) (G : Format β) : Format (α × β) where
  write p := F.write p.1 ++ G.write p.2
  read bytes := (F.read bytes).bind fun r => (G.read r.2).map fun q => ((r.1, q.1), q.2)
  read_write p rest := by simp

def readNat : Bytes → Option (Nat × Bytes)
  | 0 :: rest => some (0, rest)
  | 1 :: rest => (readNat rest).map fun r => (r.1 + 1, r.2)
  | _ => none

/-- A number in unary. -/
def nat : Format Nat where
  write n := List.replicate n 1 ++ [0]
  read := readNat
  read_write n rest := by
    induction n with
    | zero => rfl
    | succ n ih => simp_all [List.replicate_succ, readNat]

def writeList (F : Format α) : List α → Bytes
  | [] => [0]
  | a :: as => 1 :: (F.write a ++ F.writeList as)

/-- Reads as many elements as the bytes can hold. -/
def readList (F : Format α) : Nat → Bytes → Option (List α × Bytes)
  | _, 0 :: rest => some ([], rest)
  | fuel + 1, 1 :: rest => (F.read rest).bind fun r =>
      (F.readList fuel r.2).map fun q => (r.1 :: q.1, q.2)
  | _, _ => none

theorem readList_writeList (F : Format α) (as : List α) (rest : Bytes) (h : as.length ≤ fuel) :
    F.readList fuel (F.writeList as ++ rest) = some (as, rest) := by
  induction as generalizing fuel with
  | nil => cases fuel <;> rfl
  | cons a as ih =>
    cases fuel with
    | zero => simp at h
    | succ fuel => simp [writeList, readList, ih (Nat.le_of_succ_le_succ h)]

theorem length_le_writeList (F : Format α) (as : List α) : as.length ≤ (F.writeList as).length := by
  induction as with
  | nil => simp
  | cons a as ih =>
    simp only [writeList, List.length_cons, List.length_append]
    omega

def list (F : Format α) : Format (List α) where
  write := F.writeList
  read bytes := F.readList bytes.length bytes
  read_write as rest := by
    refine F.readList_writeList as rest ?_
    have := F.length_le_writeList as
    simp only [List.length_append]
    omega

def readChar : Bytes → Option (Char × Bytes)
  | a :: b :: c :: rest => some (Char.ofNat (a.toNat * 65536 + b.toNat * 256 + c.toNat), rest)
  | _ => none

/-- A character by the three bytes of its code point. -/
def char : Format Char where
  write c := [.ofNat (c.toNat / 65536), .ofNat (c.toNat / 256), .ofNat c.toNat]
  read := readChar
  read_write c rest := by
    have hc : c.toNat < 256 * 65536 := by
      have := c.valid
      simp only [UInt32.isValidChar, Nat.isValidChar] at this
      change c.val.toNat < _
      omega
    have hn : c.toNat / 65536 % 256 * 65536 + c.toNat / 256 % 256 * 256 + c.toNat % 256 =
        c.toNat := by omega
    simp [readChar, hn]

def string : Format String := char.list.map String.ofList String.toList fun s => by simp

end Format

end Effects
