import Mathlib.Data.Nat.Digits.Defs
import Mathlib.Data.String.Basic
import NostdbServer.Protocol.Workers

/-!
# Sizes of frames

How long the encoding of a frame can be. The identifier of a request has at most
twenty digits, so what decides whether a response fits is the response itself;
the answers that carry a fixed text always do.
-/

namespace NostdbServer

theorem utf8ByteSize_le (s : String) : s.utf8ByteSize ≤ 4 * s.length := by
  obtain ⟨l, rfl⟩ : ∃ l, s = String.ofList l := ⟨s.toList, by simp⟩
  rw [String.utf8ByteSize_ofList, String.length_ofList]
  induction l with
  | nil => simp
  | cons c l ih =>
    have hc := Char.utf8Size_le_four c
    rw [String.utf8Len_cons, List.length_cons]
    omega

theorem digits_le_of_lt {n : Nat} (h : n < 2 ^ 64) : (toString n).utf8ByteSize ≤ 80 := by
  have hlength : (toString n).length ≤ 20 := Nat.repr_length n 20 (by decide) (h.trans (by decide))
  exact (utf8ByteSize_le _).trans (by omega)

theorem digits_le (n : UInt64) : (toString n.toNat).utf8ByteSize ≤ 80 :=
  digits_le_of_lt n.toNat_lt

-- ---------------------------------------------------------------------------
-- Parts of a document
-- ---------------------------------------------------------------------------

theorem length_le_utf8Len (chars : List Char) : chars.length ≤ String.utf8Len chars := by
  induction chars with
  | nil => simp
  | cons c rest ih =>
    have hc := Char.utf8Size_pos c
    rw [String.utf8Len_cons, List.length_cons]
    omega

theorem length_le_flatten (chunks : List (List α)) (h : ∀ chunk ∈ chunks, chunk ≠ []) :
    chunks.length ≤ chunks.flatten.length := by
  induction chunks with
  | nil => simp
  | cons chunk rest ih =>
    obtain ⟨hchunk, hrest⟩ := List.forall_mem_cons.mp h
    have hpos := List.length_pos_iff.mpr hchunk
    have hle := ih hrest
    rw [List.flatten_cons, List.length_append, List.length_cons]
    omega

namespace Json

variable {floatText : UInt64 → String}

theorem escape_ne (c : Char) : (escape c).toList ≠ [] := by
  unfold escape
  split_ifs <;> simp

/-- Escaping makes no text shorter. -/
theorem length_le_quoted (s : String) : s.length ≤ (quoted s).utf8ByteSize := by
  have hchunks := length_le_flatten ((s.toList.map escape).map String.toList) (by
    simp only [List.mem_map, forall_exists_index, and_imp, forall_apply_eq_imp_iff₂]
    exact fun c _ => escape_ne c)
  have hlen := length_le_utf8Len ((s.toList.map escape).map String.toList).flatten
  rw [← String.utf8ByteSize_ofList] at hlen
  rw [quoted, String.utf8ByteSize_append, String.utf8ByteSize_append, String.join_eq]
  simp only [List.length_map, String.length_toList] at hchunks
  omega

theorem size_le_elements {value : Json} {values : List Json} (h : value ∈ values) :
    (text floatText value).utf8ByteSize ≤ (elements floatText values).utf8ByteSize := by
  induction values with
  | nil => cases h
  | cons first rest ih =>
    cases rest with
    | nil =>
      obtain rfl := List.mem_singleton.mp h
      exact le_rfl
    | cons second rest =>
      rw [elements, String.utf8ByteSize_append, String.utf8ByteSize_append]
      · rcases List.mem_cons.mp h with rfl | h
        · omega
        · exact (ih h).trans (by omega)
      · simp

theorem size_le_members {value : Json} {fields : List (String × Json)} (name : String)
    (h : (name, value) ∈ fields) :
    (text floatText value).utf8ByteSize ≤ (members floatText fields).utf8ByteSize := by
  induction fields with
  | nil => cases h
  | cons first rest ih =>
    obtain ⟨name', value'⟩ := first
    cases rest with
    | nil =>
      cases List.mem_singleton.mp h
      rw [members, String.utf8ByteSize_append]
      omega
    | cons second rest =>
      rw [members, String.utf8ByteSize_append, String.utf8ByteSize_append,
        String.utf8ByteSize_append, String.utf8ByteSize_append]
      · rcases List.mem_cons.mp h with heq | h
        · cases heq
          omega
        · exact (ih h).trans (by omega)
      · simp

theorem size_le_array {value : Json} {values : List Json} (h : value ∈ values) :
    (text floatText value).utf8ByteSize ≤ (text floatText (.array values)).utf8ByteSize := by
  rw [text, String.utf8ByteSize_append, String.utf8ByteSize_append]
  exact (size_le_elements h).trans (by omega)

theorem size_le_object {value : Json} {fields : List (String × Json)} (name : String)
    (h : (name, value) ∈ fields) :
    (text floatText value).utf8ByteSize ≤ (text floatText (.object fields)).utf8ByteSize := by
  rw [text, String.utf8ByteSize_append, String.utf8ByteSize_append]
  exact (size_le_members name h).trans (by omega)

end Json

-- ---------------------------------------------------------------------------
-- Frames
-- ---------------------------------------------------------------------------

namespace Service

variable (service : Service)

/-- The part of a frame after its identifier. -/
def bodySize (response : ServerResponse) : Nat :=
  (Json.members service.floatText (("type", .string response.type) :: response.fields)).utf8ByteSize

theorem frameSize_eq (requestId : UInt64) (response : ServerResponse) :
    service.frameSize ⟨requestId, response⟩ =
      (toString requestId.toNat).utf8ByteSize + service.bodySize response + 16 := by
  unfold frameSize
  simp only [Json.size, ServerFrame.json, Json.text, Json.members, Json.nat, Json.numberText,
    String.utf8ByteSize_append, bodySize]
  have hname : (Json.quoted "request_id").utf8ByteSize = 12 := by decide +kernel
  rw [hname]
  simp only [show "\x7b".utf8ByteSize = 1 from rfl, show ":".utf8ByteSize = 1 from rfl,
    show ",".utf8ByteSize = 1 from rfl, show "\x7d".utf8ByteSize = 1 from rfl]
  omega

theorem fits_of_bodySize {response : ServerResponse}
    (h : service.bodySize response + 96 ≤ MAX_FRAME_BYTES) (requestId : UInt64) :
    service.Fits ⟨requestId, response⟩ := by
  have hdigits := digits_le requestId
  rw [Fits, frameSize_eq]
  omega

/-- A failure with a fixed text. -/
theorem fits_failure {error : ProtocolFailure}
    (h : (Json.members (fun _ => "") (("type", .string error.response.type) ::
      error.response.fields)).utf8ByteSize + 96 ≤ MAX_FRAME_BYTES) (requestId : UInt64) :
    service.Fits (failureFrame requestId error) := by
  refine service.fits_of_bodySize ?_ requestId
  obtain ⟨code, message, retryable⟩ := error
  cases retryable <;> simpa [bodySize, ProtocolFailure.response, ServerResponse.fields, Json.members, Json.text] using h

theorem fits_tooLarge (requestId : UInt64) : service.Fits (failureFrame requestId tooLarge) :=
  service.fits_failure (by decide +kernel) requestId

/-- A response that carries a number. -/
theorem fits_number {response : ServerResponse} (type name : String) {n : Nat}
    (htype : response.type = type) (hfields : response.fields = [(name, .nat n)]) (hn : n < 2 ^ 64)
    (hnames : (Json.quoted "type").utf8ByteSize + (Json.quoted type).utf8ByteSize +
      (Json.quoted name).utf8ByteSize ≤ 100) (requestId : UInt64) :
    service.Fits ⟨requestId, response⟩ := by
  refine service.fits_of_bodySize ?_ requestId
  have hdigits := digits_le_of_lt hn
  simp only [bodySize, htype, hfields, Json.members, Json.text, Json.nat, Json.numberText,
    String.utf8ByteSize_append, MAX_FRAME_BYTES, show ":".utf8ByteSize = 1 from rfl,
    show ",".utf8ByteSize = 1 from rfl]
  omega

end Service

end NostdbServer
