import Mathlib.Algebra.Group.Nat.Defs
import NostdbServer.Effects.Files

/-!
# Byte streams

The two directions of a connection and the steps that move whole buffers through
it. `readExact` fills its buffer or takes what is left and reports the end of the
stream. `readAll` and `untilError` read one value after the other with any reader.
-/

namespace Effects

inductive StreamError
  | unexpectedEof
  | other (message : String)
  deriving DecidableEq, Repr

/-- What is still to be read, and what was written. -/
structure Stream where
  incoming : Bytes
  outgoing : Bytes

inductive StreamOp
  | readExact (n : Nat)
  | writeAll (bytes : Bytes)
  | flush

def StreamOp.Ans : StreamOp → Type
  | .readExact _ => Except StreamError Bytes
  | .writeAll _ | .flush => Except StreamError Unit

abbrev byteStream : Signature := ⟨StreamOp, StreamOp.Ans⟩

namespace Stream

def readExact (s : Stream) (n : Nat) : Outcome → Except StreamError Bytes × Stream
  | .fail message => (.error (.other message), s)
  | .torn taken message =>
    (.error (.other message), { s with incoming := s.incoming.drop taken })
  | .ok =>
    if n ≤ s.incoming.length then
      (.ok (s.incoming.take n), { s with incoming := s.incoming.drop n })
    else (.error .unexpectedEof, { s with incoming := [] })

def writeAll (s : Stream) (bytes : Bytes) : Outcome → Except StreamError Unit × Stream
  | .fail message => (.error (.other message), s)
  | .torn written message =>
    (.error (.other message), { s with outgoing := s.outgoing ++ bytes.take written })
  | .ok => (.ok (), { s with outgoing := s.outgoing ++ bytes })

def step : (o : StreamOp) → Outcome → Stream → Option (o.Ans × Stream)
  | .readExact n, c, s => some (s.readExact n c)
  | .writeAll bytes, c, s => some (s.writeAll bytes c)
  | .flush, c, s => some (match c.error? with
    | some e => .error (.other e.message)
    | none => .ok (), s)

end Stream

def streamWorld : World byteStream Outcome Stream := ⟨Stream.step⟩

section
variable (error : StreamError → ε)

def readExact (n : Nat) : Prog byteStream ε Bytes := do
  let r ← Prog.call (S := byteStream) (.readExact n)
  Prog.ofExcept (Except.mapError error r)

def writeAll (bytes : Bytes) : Prog byteStream ε Unit := do
  let r ← Prog.call (S := byteStream) (.writeAll bytes)
  Prog.ofExcept (Except.mapError error r)

def flush : Prog byteStream ε Unit := do
  let r ← Prog.call (S := byteStream) .flush
  Prog.ofExcept (Except.mapError error r)

end

section
variable {error : StreamError → ε} {s : Stream}

theorem readExact_eval (n : Nat) : streamWorld.eval .ok (readExact error n) s =
    if n ≤ s.incoming.length then
      some (.ok (s.incoming.take n), { s with incoming := s.incoming.drop n })
    else some (.error (error .unexpectedEof), { s with incoming := [] }) := by
  have hstep : streamWorld.step (.readExact n) .ok s = some (s.readExact n .ok) := rfl
  simp only [readExact, Prog.bind_eq, World.eval_bind, Prog.call, World.eval, hstep,
    Stream.readExact]
  split <;> rfl

theorem writeAll_eval (bytes : Bytes) : streamWorld.eval .ok (writeAll error bytes) s =
    some (.ok (), { s with outgoing := s.outgoing ++ bytes }) := rfl

theorem flush_eval : streamWorld.eval .ok (flush error) s = some (.ok (), s) := rfl

end

-- ---------------------------------------------------------------------------
-- Numbers
-- ---------------------------------------------------------------------------

/-- `u32::to_be_bytes` -/
def toBeBytes (n : Nat) : Bytes :=
  [.ofNat (n / 2 ^ 24), .ofNat (n / 2 ^ 16), .ofNat (n / 2 ^ 8), .ofNat n]

/-- `u32::from_be_bytes` -/
def fromBeBytes (bytes : Bytes) : Nat := bytes.foldl (fun n byte => n * 256 + byte.toNat) 0

theorem fromBeBytes_toBeBytes (h : n < 2 ^ 32) : fromBeBytes (toBeBytes n) = n := by
  simp only [fromBeBytes, toBeBytes, List.foldl_cons, List.foldl_nil, UInt8.toNat_ofNat']
  omega

@[simp] theorem toBeBytes_length (n : Nat) : (toBeBytes n).length = 4 := rfl

-- ---------------------------------------------------------------------------
-- One value after the other
-- ---------------------------------------------------------------------------

def writeEach (write : α → Prog byteStream ε Unit) : List α → Prog byteStream ε Unit
  | [] => pure ()
  | value :: rest => do
    write value
    writeEach write rest

def readEach (read : Prog byteStream ε α) : Nat → Prog byteStream ε (List α)
  | 0 => pure []
  | n + 1 => do
    let value ← read
    let rest ← readEach read n
    pure (value :: rest)

/-- Reads until the reader fails, `n` values at most. -/
def readUntilError (read : Prog byteStream ε α) : Nat → Prog byteStream ε (List α × Option ε)
  | 0 => pure ([], none)
  | n + 1 => do
    match ← read.attempt with
    | .error error => pure ([], some error)
    | .ok value =>
      let (rest, error) ← readUntilError read n
      pure (value :: rest, error)

section
variable {encode : α → Bytes} {read : Prog byteStream ε α} {write : α → Prog byteStream ε Unit}
  {out : Bytes} {values : List α}

theorem writeEach_eval
    (hwrite : ∀ v ∈ values, ∀ s : Stream, streamWorld.eval .ok (write v) s =
      some (.ok (), { s with outgoing := s.outgoing ++ encode v })) (s : Stream) :
    streamWorld.eval .ok (writeEach write values) s =
      some (.ok (), { s with outgoing := s.outgoing ++ values.flatMap encode }) := by
  induction values generalizing s with
  | nil => simp [writeEach, World.eval]
  | cons value rest ih =>
    obtain ⟨hvalue, hrest⟩ := List.forall_mem_cons.mp hwrite
    simp only [writeEach, Prog.bind_eq, World.eval_bind, hvalue, Option.bind_some, ih hrest,
      List.flatMap_cons, List.append_assoc]

/-- `read` takes what `encode` makes of a value off the stream. -/
def ReadsBack (read : Prog byteStream ε α) (encode : α → Bytes) (v : α) : Prop :=
  ∀ rest out, streamWorld.eval .ok read ⟨encode v ++ rest, out⟩ = some (.ok v, ⟨rest, out⟩)

/-- `read` reports `error` where the stream ends inside of what `encode` makes of
a value. -/
def ReportsEnd (read : Prog byteStream ε α) (encode : α → Bytes) (error : ε) (v : α) : Prop :=
  ∀ (n : Nat) out, n < (encode v).length →
    streamWorld.eval .ok read ⟨(encode v).take n, out⟩ = some (.error error, ⟨[], out⟩)

theorem readEach_eval (hread : ∀ v ∈ values, ReadsBack read encode v) (rest : Bytes) :
    streamWorld.eval .ok (readEach read values.length) ⟨values.flatMap encode ++ rest, out⟩ =
      some (.ok values, ⟨rest, out⟩) := by
  induction values with
  | nil => simp [readEach, World.eval]
  | cons value more ih =>
    obtain ⟨hvalue, hmore⟩ := List.forall_mem_cons.mp hread
    simp only [List.length_cons, readEach, Prog.bind_eq, Prog.pure_eq, World.eval_bind,
      List.flatMap_cons, List.append_assoc, hvalue _ out, Option.bind_some, ih hmore, World.eval]

/-- Where the stream is cut, the values wholly before the cut are read, and then
its end is reported. -/
theorem readUntilError_cut {error : ε} (hread : ∀ v ∈ values, ReadsBack read encode v)
    (hend : ∀ v ∈ values, ReportsEnd read encode error v)
    (hempty : ∀ out, streamWorld.eval .ok read ⟨[], out⟩ = some (.error error, ⟨[], out⟩))
    (k : Nat) :
    ∃ whole ≤ values.length, ((values.take whole).flatMap encode).length ≤ k ∧
      (∀ m ≤ values.length, ((values.take m).flatMap encode).length ≤ k → m ≤ whole) ∧
      ∀ n > whole, ∀ out, streamWorld.eval .ok (readUntilError read n)
        ⟨(values.flatMap encode).take k, out⟩ =
          some (.ok (values.take whole, some error), ⟨[], out⟩) := by
  -- The first read fails, so nothing is read.
  have hnone : ∀ bytes out,
      streamWorld.eval .ok read ⟨bytes, out⟩ = some (.error error, ⟨[], out⟩) → ∀ n > 0,
      streamWorld.eval .ok (readUntilError read n) ⟨bytes, out⟩ =
        some (.ok ([], some error), ⟨[], out⟩) := by
    intro bytes out hbytes n hn
    obtain ⟨n, rfl⟩ := Nat.exists_eq_succ_of_ne_zero (Nat.ne_of_gt hn)
    simp only [readUntilError, Prog.bind_eq, Prog.pure_eq, World.eval_bind, World.eval_attempt,
      hbytes, Option.map_some, Option.bind_some, World.eval]
  induction values generalizing k with
  | nil =>
    refine ⟨0, Nat.le_refl _, by simp, fun m hm _ => hm, fun n hn out => ?_⟩
    rw [List.flatMap_nil, List.take_nil]
    exact hnone [] out (hempty out) n hn
  | cons value more ih =>
    obtain ⟨hvalue, hmore⟩ := List.forall_mem_cons.mp hread
    obtain ⟨hcut, hcuts⟩ := List.forall_mem_cons.mp hend
    by_cases hk : (encode value).length ≤ k
    · obtain ⟨whole, hle, hlength, hmax, heval⟩ := ih hmore hcuts (k - (encode value).length)
      refine ⟨whole + 1, Nat.succ_le_succ hle, ?_, fun m hm hmk => ?_, fun n hn out => ?_⟩
      · simp only [List.take_succ_cons, List.flatMap_cons, List.length_append]
        omega
      · cases m with
        | zero => omega
        | succ m =>
          simp only [List.take_succ_cons, List.flatMap_cons, List.length_append] at hmk
          exact Nat.succ_le_succ (hmax m (Nat.le_of_succ_le_succ hm) (by omega))
      · obtain ⟨n, rfl⟩ := Nat.exists_eq_succ_of_ne_zero (Nat.ne_of_gt (Nat.zero_lt_of_lt hn))
        have hsplit : ((value :: more).flatMap encode).take k =
            encode value ++ (more.flatMap encode).take (k - (encode value).length) := by
          rw [List.flatMap_cons, List.take_append, List.take_of_length_le hk]
        rw [hsplit]
        simp only [readUntilError, Prog.bind_eq, Prog.pure_eq, World.eval_bind,
          World.eval_attempt, hvalue _ out, Option.map_some, Option.bind_some,
          heval n (Nat.lt_of_succ_lt_succ hn) out, World.eval, List.take_succ_cons]
    · refine ⟨0, Nat.zero_le _, by simp, fun m hm hmk => ?_, fun n hn out => ?_⟩
      · cases m with
        | zero => exact Nat.le_refl _
        | succ m =>
          simp only [List.take_succ_cons, List.flatMap_cons, List.length_append] at hmk
          omega
      · refine hnone _ out ?_ n hn
        rw [List.flatMap_cons, List.take_append_of_le_length (by omega)]
        exact hcut k out (by omega)

end

end Effects
