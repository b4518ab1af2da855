import NostdbServer.Effects.Stream
import NostdbServer.Protocol.Messages

/-!
# Framing

A frame is the length of a JSON text in four bytes and the text. The client and
the server have each their own reader and writer; what they take from the JSON
library is a `Serde`.
-/

namespace NostdbServer.Framing

open Effects

/-- How a type is written as JSON and read: what was written reads back. -/
structure Serde (α : Type) where
  toVec : α → Except String Bytes
  fromSlice : Bytes → Except String α
  fromSlice_toVec : toVec value = .ok payload → fromSlice payload = .ok value

inductive ClientError
  | io (error : StreamError)
  | protocol (message : String)
  deriving DecidableEq, Repr

/-- `io::Error`, as the server's side of a connection makes it. -/
inductive FrameError
  | io (error : StreamError)
  | invalidData (message : String)
  deriving DecidableEq, Repr

section
variable (S : Serde α)

-- ---------------------------------------------------------------------------
-- Readers
-- ---------------------------------------------------------------------------

/-- Both readers, with what they report. -/
def readFrameWith (io : StreamError → ε) (size : Nat → ε) (decoding : String → ε) :
    Prog byteStream ε α := do
  let header ← readExact io 4
  let length := fromBeBytes header
  if length = 0 ∨ length > MAX_FRAME_BYTES then .fail (size length)
  else
    let payload ← readExact io length
    Prog.ofExcept ((S.fromSlice payload).mapError decoding)

def readFrame : Prog byteStream ClientError α :=
  readFrameWith S .io
    (fun length => .protocol s!"received frame size {length} is outside 1..={MAX_FRAME_BYTES}")
    fun error => .protocol s!"cannot decode frame: {error}"

def readAsyncFrame : Prog byteStream FrameError α :=
  readFrameWith S .io
    (fun length => .invalidData s!"frame size {length} is outside 1..={MAX_FRAME_BYTES}")
    .invalidData

-- ---------------------------------------------------------------------------
-- Writers
-- ---------------------------------------------------------------------------

def writeFrame (value : α) : Prog byteStream ClientError Unit := do
  match S.toVec value with
  | .error error => .fail (.protocol s!"cannot encode frame: {error}")
  | .ok payload =>
    let size := payload.length
    if payload.isEmpty ∨ size > MAX_FRAME_BYTES then
      .fail (.protocol s!"encoded frame size {size} is outside 1..={MAX_FRAME_BYTES}")
    else if 2 ^ 32 ≤ size then .fail (.protocol "frame length is not representable")
    else
      writeAll .io (toBeBytes size)
      writeAll .io payload
      flush .io

def writeAsyncFrame (value : α) : Prog byteStream FrameError Unit := do
  match S.toVec value with
  | .error error => .fail (.invalidData error)
  | .ok payload =>
    let size := payload.length
    if payload.isEmpty ∨ size > MAX_FRAME_BYTES then
      .fail (.invalidData s!"encoded frame size {size} is outside 1..={MAX_FRAME_BYTES}")
    else
      writeAll .io (toBeBytes (size % 2 ^ 32))
      writeAll .io payload
      flush .io

end

-- ---------------------------------------------------------------------------
-- One frame
-- ---------------------------------------------------------------------------

namespace Serde

/-- The JSON encoding is within `1..=MAX_FRAME_BYTES`. -/
def Framable (S : Serde α) (value : α) : Prop :=
  ∃ payload, S.toVec value = .ok payload ∧ 1 ≤ payload.length ∧ payload.length ≤ MAX_FRAME_BYTES

/-- The bytes of a frame. -/
def frame (S : Serde α) (value : α) : Bytes :=
  match S.toVec value with
  | .ok payload => toBeBytes payload.length ++ payload
  | .error _ => []

end Serde

section
variable {S : Serde α} {value : α} {s : Stream} {out : Bytes} {io : StreamError → ε}
  {size : Nat → ε} {decoding : String → ε}

theorem Serde.frame_eq (h : S.toVec value = .ok payload) :
    S.frame value = toBeBytes payload.length ++ payload := by
  simp [Serde.frame, h]

theorem writeFrame_eval (h : S.Framable value) : streamWorld.eval .ok (writeFrame S value) s =
    some (.ok (), { s with outgoing := s.outgoing ++ S.frame value }) := by
  obtain ⟨payload, hpayload, hpos, hmax⟩ := h
  have hempty : payload.isEmpty = false :=
    List.isEmpty_eq_false_iff.mpr (List.ne_nil_of_length_pos hpos)
  have hmax' : payload.length ≤ 1024 * 1024 := hmax
  have hfits : ¬ 2 ^ 32 ≤ payload.length := by omega
  have hsize : ¬ payload.length > MAX_FRAME_BYTES := by omega
  simp only [writeFrame, hpayload, hempty, hsize, hfits, Bool.false_eq_true, or_self, ↓reduceIte,
    Prog.bind_eq, World.eval_bind, writeAll_eval, flush_eval, Option.bind_some,
    Serde.frame_eq hpayload, List.append_assoc]

theorem writeAsyncFrame_eval (h : S.Framable value) :
    streamWorld.eval .ok (writeAsyncFrame S value) s =
      some (.ok (), { s with outgoing := s.outgoing ++ S.frame value }) := by
  obtain ⟨payload, hpayload, hpos, hmax⟩ := h
  have hempty : payload.isEmpty = false :=
    List.isEmpty_eq_false_iff.mpr (List.ne_nil_of_length_pos hpos)
  have hmax' : payload.length ≤ 1024 * 1024 := hmax
  have hfits : payload.length % 2 ^ 32 = payload.length := Nat.mod_eq_of_lt (by omega)
  have hsize : ¬ payload.length > MAX_FRAME_BYTES := by omega
  simp only [writeAsyncFrame, hpayload, hempty, hsize, hfits, Bool.false_eq_true, or_self,
    ↓reduceIte, Prog.bind_eq, World.eval_bind, writeAll_eval, flush_eval, Option.bind_some,
    Serde.frame_eq hpayload, List.append_assoc]

theorem readFrameWith_header (header rest : Bytes) (hheader : header.length = 4) :
    streamWorld.eval .ok (readFrameWith S io size decoding) ⟨header ++ rest, out⟩ =
      if fromBeBytes header = 0 ∨ fromBeBytes header > MAX_FRAME_BYTES then
        some (.error (size (fromBeBytes header)), ⟨rest, out⟩)
      else if fromBeBytes header ≤ rest.length then
        some ((S.fromSlice (rest.take (fromBeBytes header))).mapError decoding,
          ⟨rest.drop (fromBeBytes header), out⟩)
      else some (.error (io .unexpectedEof), ⟨[], out⟩) := by
  have htake : (header ++ rest).take 4 = header := by
    rw [List.take_append_of_le_length (by omega), List.take_of_length_le (by omega)]
  have hdrop : (header ++ rest).drop 4 = rest := by
    rw [List.drop_append, hheader, List.drop_eq_nil_of_le (by omega)]
    rfl
  have hfour : 4 ≤ (header ++ rest).length := by
    rw [List.length_append]
    omega
  simp only [readFrameWith, Prog.bind_eq, World.eval_bind, readExact_eval, hfour, ↓reduceIte,
    Option.bind_some, htake, hdrop]
  split
  · rfl
  · simp only [World.eval_bind, readExact_eval]
    split
    · dsimp only [Option.bind_some]
      cases S.fromSlice (rest.take (fromBeBytes header)) <;> rfl
    · rfl

/-- The header of a frame announces its payload. -/
theorem fromBeBytes_header {payload : Bytes} (hpos : 1 ≤ payload.length) (hmax : payload.length ≤ MAX_FRAME_BYTES) :
    fromBeBytes (toBeBytes payload.length) = payload.length ∧
      ¬ (payload.length = 0 ∨ payload.length > MAX_FRAME_BYTES) := by
  have hmax' : payload.length ≤ 1024 * 1024 := hmax
  exact ⟨fromBeBytes_toBeBytes (by omega), by omega⟩

theorem readFrameWith_readsBack (h : S.Framable value) :
    ReadsBack (readFrameWith S io size decoding) S.frame value := by
  obtain ⟨payload, hpayload, hpos, hmax⟩ := h
  obtain ⟨hlength, hsize⟩ := fromBeBytes_header hpos hmax
  intro rest out
  rw [Serde.frame_eq hpayload, List.append_assoc, readFrameWith_header _ _ (toBeBytes_length _),
    hlength, if_neg hsize, if_pos (by simp), List.take_left, List.drop_left,
    S.fromSlice_toVec hpayload]
  rfl

theorem readFrameWith_reportsEnd (h : S.Framable value) :
    ReportsEnd (readFrameWith S io size decoding) S.frame (io .unexpectedEof) value := by
  obtain ⟨payload, hpayload, hpos, hmax⟩ := h
  obtain ⟨hlength, hsize⟩ := fromBeBytes_header hpos hmax
  intro n out hn
  rw [Serde.frame_eq hpayload, List.length_append, toBeBytes_length] at hn
  rw [Serde.frame_eq hpayload]
  -- The stream ends in the header, or in the payload it announces.
  by_cases hheader : n < 4
  · have hshort : ¬ 4 ≤ ((toBeBytes payload.length ++ payload).take n).length := by
      rw [List.length_take]
      omega
    simp only [readFrameWith, Prog.bind_eq, World.eval_bind, readExact_eval, hshort, ↓reduceIte,
      Option.bind_some]
  · have hsplit : (toBeBytes payload.length ++ payload).take n =
        toBeBytes payload.length ++ payload.take (n - 4) := by
      rw [List.take_append, List.take_of_length_le (by rw [toBeBytes_length]; omega),
        toBeBytes_length]
    have hshort : ¬ payload.length ≤ (payload.take (n - 4)).length := by
      rw [List.length_take]
      omega
    rw [hsplit, readFrameWith_header _ _ (toBeBytes_length _), hlength, if_neg hsize,
      if_neg hshort]

theorem readFrameWith_empty : streamWorld.eval .ok (readFrameWith S io size decoding) ⟨[], out⟩ =
    some (.error (io .unexpectedEof), ⟨[], out⟩) := by
  simp [readFrameWith, World.eval_bind, readExact_eval]

theorem reader_cut {read : Prog byteStream ε α} (hreader : read = readFrameWith S io size decoding)
    {values : List α} (h : ∀ v ∈ values, S.Framable v) (k : Nat) :
    ∃ whole ≤ values.length, ((values.take whole).flatMap S.frame).length ≤ k ∧
      (∀ m ≤ values.length, ((values.take m).flatMap S.frame).length ≤ k → m ≤ whole) ∧
      ∀ n > whole, ∀ out, streamWorld.eval .ok (readUntilError read n)
        ⟨(values.flatMap S.frame).take k, out⟩ =
          some (.ok (values.take whole, some (io .unexpectedEof)), ⟨[], out⟩) := by
  subst hreader
  exact readUntilError_cut (fun v hv => readFrameWith_readsBack (h v hv))
    (fun v hv => readFrameWith_reportsEnd (h v hv)) (fun _ => readFrameWith_empty) k

theorem writeFrame_unframable (h : ¬ S.Framable value) : ∃ e, writeFrame S value = .fail e := by
  unfold writeFrame
  split
  · exact ⟨_, rfl⟩
  · rename_i payload hpayload
    dsimp only
    split
    · exact ⟨_, rfl⟩
    · rename_i hsize
      refine absurd ⟨payload, hpayload, ?_⟩ h
      rw [not_or, List.isEmpty_iff, ← List.length_eq_zero_iff] at hsize
      omega

theorem writeAsyncFrame_unframable (h : ¬ S.Framable value) :
    ∃ e, writeAsyncFrame S value = .fail e := by
  unfold writeAsyncFrame
  split
  · exact ⟨_, rfl⟩
  · rename_i payload hpayload
    dsimp only
    split
    · exact ⟨_, rfl⟩
    · rename_i hsize
      refine absurd ⟨payload, hpayload, ?_⟩ h
      rw [not_or, List.isEmpty_iff, ← List.length_eq_zero_iff] at hsize
      omega

theorem run_fail (cs : List Outcome) (e : ε) :
    (streamWorld.run cs (.fail e : Prog byteStream ε Unit) s).2 = s := by
  cases cs <;> rfl

end

-- ---------------------------------------------------------------------------
-- Whole streams
-- ---------------------------------------------------------------------------

/-- Both writers write the same bytes; both readers give the values back, up to
wherever the stream is cut; a length out of bounds is refused with nothing but
the header read, and a value out of bounds with nothing written. -/
theorem framing_round_trips (S : Serde α) (values : List α) (h : ∀ v ∈ values, S.Framable v) :
    (∀ s, streamWorld.eval .ok (writeEach (writeFrame S) values) s =
        some (.ok (), { s with outgoing := s.outgoing ++ values.flatMap S.frame }) ∧
      streamWorld.eval .ok (writeEach (writeAsyncFrame S) values) s =
        some (.ok (), { s with outgoing := s.outgoing ++ values.flatMap S.frame })) ∧
    (∀ rest out,
      streamWorld.eval .ok (readEach (readFrame S) values.length)
        ⟨values.flatMap S.frame ++ rest, out⟩ = some (.ok values, ⟨rest, out⟩) ∧
      streamWorld.eval .ok (readEach (readAsyncFrame S) values.length)
        ⟨values.flatMap S.frame ++ rest, out⟩ = some (.ok values, ⟨rest, out⟩)) ∧
    (∀ k, ∃ whole ≤ values.length, ((values.take whole).flatMap S.frame).length ≤ k ∧
      (∀ m ≤ values.length, ((values.take m).flatMap S.frame).length ≤ k → m ≤ whole) ∧
      ∀ n > whole, ∀ out,
        streamWorld.eval .ok (readUntilError (readFrame S) n)
          ⟨(values.flatMap S.frame).take k, out⟩ =
            some (.ok (values.take whole, some (.io .unexpectedEof)), ⟨[], out⟩) ∧
        streamWorld.eval .ok (readUntilError (readAsyncFrame S) n)
          ⟨(values.flatMap S.frame).take k, out⟩ =
            some (.ok (values.take whole, some (.io .unexpectedEof)), ⟨[], out⟩)) ∧
    (∀ header rest out : Bytes, header.length = 4 →
      fromBeBytes header = 0 ∨ fromBeBytes header > MAX_FRAME_BYTES →
      (∃ message, streamWorld.eval .ok (readFrame S) ⟨header ++ rest, out⟩ =
        some (.error (.protocol message), ⟨rest, out⟩)) ∧
      ∃ message, streamWorld.eval .ok (readAsyncFrame S) ⟨header ++ rest, out⟩ =
        some (.error (.invalidData message), ⟨rest, out⟩)) ∧
    ∀ v, ¬ S.Framable v → ∀ cs s,
      (streamWorld.run cs (writeFrame S v) s).2 = s ∧
        (streamWorld.run cs (writeAsyncFrame S v) s).2 = s := by
  refine ⟨fun s => ⟨?_, ?_⟩, fun rest out => ⟨?_, ?_⟩, fun k => ?_, ?_, ?_⟩
  · exact writeEach_eval (fun v hv s => writeFrame_eval (h v hv)) s
  · exact writeEach_eval (fun v hv s => writeAsyncFrame_eval (h v hv)) s
  · exact readEach_eval (fun v hv => readFrameWith_readsBack (h v hv)) rest
  · exact readEach_eval (fun v hv => readFrameWith_readsBack (h v hv)) rest
  · obtain ⟨whole, hle, hlength, hmax, heval⟩ := reader_cut (rfl : readFrame S = _) h k
    obtain ⟨whole', hle', hlength', hmax', heval'⟩ := reader_cut (rfl : readAsyncFrame S = _) h k
    have hsame : whole = whole' :=
      Nat.le_antisymm (hmax' whole hle hlength) (hmax whole' hle' hlength')
    subst hsame
    exact ⟨whole, hle, hlength, hmax, fun n hn out => ⟨heval n hn out, heval' n hn out⟩⟩
  · intro header rest out hheader hsize
    exact ⟨⟨_, (readFrameWith_header header rest hheader).trans (if_pos hsize)⟩,
      _, (readFrameWith_header header rest hheader).trans (if_pos hsize)⟩
  · intro v hv cs s
    obtain ⟨e, he⟩ := writeFrame_unframable hv
    obtain ⟨e', he'⟩ := writeAsyncFrame_unframable hv
    rw [he, he']
    exact ⟨run_fail cs e, run_fail cs e'⟩

/-- A byte is its own text. -/
def Serde.byte : Serde UInt8 where
  toVec byte := .ok [byte]
  fromSlice
    | [byte] => .ok byte
    | _ => .error "EOF while parsing a value"
  fromSlice_toVec h := by
    cases h
    rfl

theorem framing_round_trips_bytes :
    streamWorld.eval .ok (readEach (readFrame .byte) 2) ⟨[0, 0, 0, 1, 7, 0, 0, 0, 1, 9], []⟩ =
      some (.ok [7, 9], ⟨[], []⟩) ∧
    ∃ whole ≤ 2, (([7, 9].take whole).flatMap Serde.byte.frame).length ≤ 7 ∧
      (∀ m ≤ 2, (([7, 9].take m).flatMap Serde.byte.frame).length ≤ 7 → m ≤ whole) ∧
      ∀ n > whole, ∀ out,
        streamWorld.eval .ok (readUntilError (readFrame .byte) n)
          ⟨(([7, 9] : List UInt8).flatMap Serde.byte.frame).take 7, out⟩ =
            some (.ok ([7, 9].take whole, some (.io .unexpectedEof)), ⟨[], out⟩) ∧
        streamWorld.eval .ok (readUntilError (readAsyncFrame .byte) n)
          ⟨(([7, 9] : List UInt8).flatMap Serde.byte.frame).take 7, out⟩ =
            some (.ok ([7, 9].take whole, some (.io .unexpectedEof)), ⟨[], out⟩) := by
  have h := framing_round_trips Serde.byte [7, 9] fun v _ =>
    ⟨[v], rfl, Nat.le_refl 1, show 1 ≤ 1024 * 1024 by decide⟩
  exact ⟨(h.2.1 [] []).1, h.2.2.1 7⟩

end NostdbServer.Framing
