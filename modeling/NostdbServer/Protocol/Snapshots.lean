import NostdbServer.Effects.Base64
import NostdbServer.Protocol.Links
import NostdbServer.Protocol.Uploads

/-!
# Exported snapshots

What an export sends can be handed back: every event of it fits a frame, and the
upload that repeats its chunks is accepted chunk by chunk, down to the call of
`restore_snapshot` with the bytes that were exported.
-/

namespace NostdbServer

open Effects

-- ---------------------------------------------------------------------------
-- The chunks of a list
-- ---------------------------------------------------------------------------

section
variable {n : Nat}

/-- What `toChunks.go` returns: the chunks that are done, the one being filled and
the rest. -/
theorem toChunks_go (xs : List α) (acc : Array α) (done : Array (List α)) (hacc : 0 < acc.size)
    (hsize : acc.size ≤ n) (hdone : ∀ chunk ∈ done, chunk ≠ [] ∧ chunk.length ≤ n) :
    (List.toChunks.go n xs acc done).flatten = done.toList.flatten ++ acc.toList ++ xs ∧
      ∀ chunk ∈ List.toChunks.go n xs acc done, chunk ≠ [] ∧ chunk.length ≤ n := by
  induction xs generalizing acc done with
  | nil =>
    refine ⟨by simp [List.toChunks.go], fun chunk hchunk => ?_⟩
    obtain hchunk | rfl := Array.mem_push.mp (Array.mem_def.mpr hchunk)
    · exact hdone chunk hchunk
    · exact ⟨by simpa [Array.size_pos_iff] using hacc, by simpa using hsize⟩
  | cons x xs ih =>
    rw [List.toChunks.go]
    split
    · have hpush : ∀ chunk ∈ done.push acc.toList, chunk ≠ [] ∧ chunk.length ≤ n := by
        intro chunk hchunk
        obtain hchunk | rfl := Array.mem_push.mp hchunk
        · exact hdone chunk hchunk
        · exact ⟨by simpa [Array.size_pos_iff] using hacc, by simpa using hsize⟩
      obtain ⟨hflatten, hchunks⟩ :=
        ih ((Array.mkEmpty n).push x) (done.push acc.toList) (by simp) (by simp; omega) hpush
      refine ⟨?_, hchunks⟩
      rw [hflatten]
      simp
    · rename_i hroom
      have hroom : acc.size ≠ n := by simpa using hroom
      obtain ⟨hflatten, hchunks⟩ := ih (acc.push x) done (by simp) (by simp; omega) hdone
      refine ⟨?_, hchunks⟩
      rw [hflatten]
      simp

theorem toChunks_spec (hn : 0 < n) (xs : List α) :
    (xs.toChunks n).flatten = xs ∧ ∀ chunk ∈ xs.toChunks n, chunk ≠ [] ∧ chunk.length ≤ n := by
  cases xs with
  | nil => simp [List.toChunks]
  | cons x xs =>
    have hgo : (x :: xs).toChunks n = List.toChunks.go n xs #[x] #[] := by
      obtain ⟨n, rfl⟩ := Nat.exists_eq_succ_of_ne_zero (Nat.ne_of_gt hn)
      rfl
    rw [hgo]
    exact toChunks_go xs #[x] #[] (by simp) (by simp; omega) (by simp)

end

-- ---------------------------------------------------------------------------
-- Every event of an export fits
-- ---------------------------------------------------------------------------

theorem escape_plain {c : Char} (h : Base64.Plain c) : Json.escape c = String.singleton c := by
  have hne (d : Char) (hd : ¬ Base64.Plain d) : c ≠ d := fun heq => hd (heq ▸ h)
  have hprint : ¬ c.toNat < 0x20 := by
    unfold Base64.Plain at h
    omega
  simp [Json.escape, hne '"' (by decide), hne '\\' (by decide), hne '\x08' (by decide),
    hne '\x0c' (by decide), hne '\n' (by decide), hne '\r' (by decide), hne '\t' (by decide), hprint]

theorem utf8Len_plain {chars : List Char} (h : ∀ c ∈ chars, Base64.Plain c) :
    String.utf8Len chars = chars.length := by
  induction chars with
  | nil => rfl
  | cons c rest ih =>
    obtain ⟨hc, hrest⟩ := List.forall_mem_cons.mp h
    have hsize : c.utf8Size = 1 := by
      rw [Char.utf8Size_eq_one_iff, UInt32.le_iff_toNat_le]
      change c.toNat ≤ 127
      unfold Base64.Plain at hc
      omega
    rw [String.utf8Len_cons, ih hrest, hsize, List.length_cons]

/-- Nothing of the encoding has to be escaped. -/
theorem quoted_encode (bytes : Bytes) :
    (Json.quoted (Base64.encode bytes)).utf8ByteSize = 4 * ((bytes.length + 2) / 3) + 2 := by
  have hplain := Base64.plain_encodeChars bytes
  have hescape : (Base64.encodeChars bytes).map Json.escape =
      (Base64.encodeChars bytes).map String.singleton :=
    List.map_congr_left fun c hc => escape_plain (hplain c hc)
  have hjoin : String.join ((Base64.encodeChars bytes).map String.singleton) =
      String.ofList (Base64.encodeChars bytes) := by
    rw [String.join_eq]
    congr 1
    simp [List.map_map, Function.comp_def, ← List.flatMap_def]
  have hsize : (String.ofList (Base64.encodeChars bytes)).utf8ByteSize =
      4 * ((bytes.length + 2) / 3) := by
    rw [String.utf8ByteSize_ofList, utf8Len_plain hplain, Base64.length_encodeChars]
  rw [Json.quoted, Base64.encode, String.toList_ofList, hescape, hjoin, String.utf8ByteSize_append,
    String.utf8ByteSize_append, hsize]
  have hquote : "\"".utf8ByteSize = 1 := rfl
  omega

theorem Service.fits_snapshotChunk (service : Service) {sequence : Nat} {chunk : Bytes}
    (h : sequence < 2 ^ 64) (hchunk : chunk.length ≤ SNAPSHOT_CHUNK_BYTES) (requestId : UInt64) :
    service.Fits ⟨requestId, .snapshotChunk sequence (Base64.encode chunk)⟩ := by
  refine service.fits_of_bodySize ?_ requestId
  have hdigits := digits_le_of_lt h
  have hdata := quoted_encode chunk
  have hnames : (Json.quoted "type").utf8ByteSize + (Json.quoted "snapshot_chunk").utf8ByteSize +
      (Json.quoted "sequence").utf8ByteSize + (Json.quoted "data").utf8ByteSize = 38 := by
    decide +kernel
  simp only [bodySize, ServerResponse.type, ServerResponse.fields, Json.members, Json.text,
    Json.nat, Json.numberText, String.utf8ByteSize_append, MAX_FRAME_BYTES, hdata,
    show ":".utf8ByteSize = 1 from rfl, show ",".utf8ByteSize = 1 from rfl]
  unfold SNAPSHOT_CHUNK_BYTES at hchunk
  omega

section
variable {service : Service} (hencode : ∀ chunk, service.encodeBase64 chunk = Base64.encode chunk)
include hencode

theorem chunkResponses_fit {chunks : List Bytes} {count : Nat} (requestId : UInt64)
    (hchunks : ∀ chunk ∈ chunks, chunk.length ≤ SNAPSHOT_CHUNK_BYTES)
    (hcount : count + chunks.length < 2 ^ 64) :
    AllFit service requestId (chunkResponses service count chunks) := by
  induction chunks generalizing count with
  | nil =>
    simp only [chunkResponses, AllFit, List.forall_mem_singleton]
    exact service.fits_number "snapshot_end" "chunks" rfl rfl hcount (by decide +kernel) requestId
  | cons chunk rest ih =>
    obtain ⟨hchunk, hrest⟩ := List.forall_mem_cons.mp hchunks
    rw [List.length_cons] at hcount
    refine List.forall_mem_cons.mpr ⟨?_, ih hrest (by omega)⟩
    rw [hencode]
    exact service.fits_snapshotChunk (by omega) hchunk requestId

/-- No event of an export is replaced. -/
theorem snapshotResponses_fit {bytes : Bytes} (hbytes : bytes.length < 2 ^ 64)
    (requestId : UInt64) : AllFit service requestId (snapshotResponses service bytes) := by
  obtain ⟨hflatten, hchunks⟩ := toChunks_spec (n := SNAPSHOT_CHUNK_BYTES) (by decide) bytes
  have hcount : (bytes.toChunks SNAPSHOT_CHUNK_BYTES).length ≤ bytes.length :=
    (length_le_flatten _ fun chunk hchunk => (hchunks chunk hchunk).1).trans (by rw [hflatten])
  refine List.forall_mem_cons.mpr ⟨?_, ?_⟩
  · exact service.fits_number "snapshot_start" "total_bytes" rfl rfl hbytes (by decide +kernel)
      requestId
  · exact chunkResponses_fit hencode requestId (fun chunk hchunk => (hchunks chunk hchunk).2)
      (by omega)

end

-- ---------------------------------------------------------------------------
-- Handing an export back
-- ---------------------------------------------------------------------------

/-- The request that hands an event of an export back. -/
def ServerResponse.handBack? (database : String) : ServerResponse → Option ClientRequest
  | .snapshotStart totalBytes => some (.snapshotRestoreBegin database totalBytes)
  | .snapshotChunk sequence data => some (.snapshotRestoreChunk sequence data)
  | .snapshotEnd _ => some .snapshotRestoreCommit
  | _ => none

/-- A session of an administrator with no transaction. -/
structure Ready (state : ConnectionState) : Prop where
  role : state.role = .admin
  transaction : state.transaction = none

section
variable {service : Service} {frame : ClientFrame} {state : ConnectionState} {t : Turn}

section
variable (h : Ready state) (hnew : state.lastRequestId < frame.requestId)
include h hnew

theorem receive_restoreBegin (hrequest : frame.request = .snapshotRestoreBegin database totalBytes) :
    receive E service frame state = dispatchRestoreBegin service frame.requestId
      { state with lastRequestId := frame.requestId } database totalBytes := by
  simp [receive, UInt64.not_le.mpr hnew, dispatch, h.role, h.transaction, hrequest]

theorem receive_restoreChunk {sequence : Nat}
    (hrequest : frame.request = .snapshotRestoreChunk sequence data) :
    receive E service frame state = dispatchRestoreChunk service frame.requestId
      { state with lastRequestId := frame.requestId } sequence data := by
  simp [receive, UInt64.not_le.mpr hnew, dispatch, h.role, h.transaction, hrequest]

theorem receive_restoreCommit (hrequest : frame.request = .snapshotRestoreCommit) :
    receive E service frame state = dispatchRestoreCommit service frame.requestId
      { state with lastRequestId := frame.requestId } := by
  simp [receive, UInt64.not_le.mpr hnew, dispatch, h.role, h.transaction, hrequest]

end

/-- An upload is begun when the Database is known and the size is in bounds. -/
theorem dispatchRestoreBegin_begins (hnone : state.restore = none) (hpos : 0 < totalBytes)
    (hmax : totalBytes ≤ service.limits.maxSnapshotBytes) :
    Performs (dispatchRestoreBegin service requestId state database totalBytes) fun r log =>
      ∀ state', r = .ok state' → (∀ catalog, ⟨.daemon .readCatalog, catalog⟩ ∈ log →
        (catalog.byName? database).isSome) →
          state' = { state with restore := some ⟨database, totalBytes, 0, []⟩ } ∧
            sent ⟨requestId, .snapshotRestore "ready" 0⟩ ∈ log := by
  unfold dispatchRestoreBegin
  rw [if_neg (by simp [hnone]), if_neg (by omega)]
  have hselect : Performs (calling (selectDatabase database)) fun result log =>
      ∃ catalog, log = lookedUp catalog ∧ ∀ error, result = .error error →
        catalog.byName? database = none := by
    unfold selectDatabase
    rw [Prog.bind_eq, calling_bind]
    refine Performs.bind (entryOf_performs database) ?_ ?_
    · rintro entry _ ⟨catalog, rfl, -⟩
      exact Performs.pure ⟨catalog, by simp, by simp⟩
    · rintro error _ ⟨catalog, rfl, herror⟩
      refine ⟨catalog, rfl, fun _ _ => ?_⟩
      cases hentry : catalog.byName? database <;> simp_all
  refine Performs.attempt_bind hselect ?_
  rintro result _ ⟨catalog, rfl, hnotFound⟩
  cases result with
  | error error =>
    refine (Performs.of_only (P := fun _ => True) (Prog.Only.of_forall (fun _ => trivial) _)).mono ?_
    intro r log _ state' _ hknown
    have := hknown catalog (by simp [lookedUp])
    simp [hnotFound error rfl] at this
  | ok summary =>
    refine Performs.bind (sendResponse_delivers _) ?_ ?_
    · rintro ⟨⟩ _ ⟨-, rfl⟩
      refine Performs.pure ?_
      rintro state' ⟨⟩ -
      exact ⟨rfl, by simp [sentAll]⟩
    · rintro message _ - state' ⟨⟩

/-- A chunk that comes next and has its place is accepted. -/
theorem dispatchRestoreChunk_accepts {upload : SnapshotUpload} (hupload : state.restore = some upload)
    (hdata : service.decodeBase64 data = .ok chunk) (hpos : chunk ≠ [])
    (hmax : chunk.length ≤ SNAPSHOT_CHUNK_BYTES)
    (htotal : upload.bytes.length + chunk.length ≤ upload.totalBytes) :
    dispatchRestoreChunk service requestId state upload.nextSequence data =
      answer service requestId { state with restore := some { upload with
        bytes := upload.bytes ++ chunk, nextSequence := upload.nextSequence + 1 } }
        (.snapshotRestore "chunk_accepted" (upload.bytes ++ chunk).length) := by
  have hbound : ¬ (chunk.isEmpty = true ∨ SNAPSHOT_CHUNK_BYTES < chunk.length) := by
    simpa [hpos] using hmax
  simp only [dispatchRestoreChunk, hupload, ne_eq, not_true_eq_false, ↓reduceIte, hdata, hbound,
    Nat.not_lt.mpr htotal]

end

/-- The turns take the requests up one after the other, in a session. -/
def Feeds : List ClientRequest → List Turn → Prop :=
  List.Forall₂ fun request t => ∃ state frame, t.before = .session state ∧
    t.incoming = .frame frame ∧ frame.request = request

theorem Feeds.next (h : Feeds requests fed) (hne : requests ≠ []) :
    ∃ u state later, fed = u :: later ∧ u.before = .session state := by
  cases h with
  | nil => exact absurd rfl hne
  | cons hu _ =>
    obtain ⟨state, -, hbefore, -⟩ := hu
    exact ⟨_, state, _, rfl, hbefore⟩

theorem chunkResponses_handBack (service : Service) (count : Nat) (chunks : List Bytes)
    (database : String) :
    (chunkResponses service count chunks).filterMap (ServerResponse.handBack? database) ≠ [] := by
  cases chunks <;> simp [chunkResponses, ServerResponse.handBack?]

theorem Conversation.received {t u : Turn} (h : Conversation E service (turns ++ t :: u :: rest))
    (hbefore : t.before = .session state) (hincoming : t.incoming = .frame frame)
    (hnext : u.before = .session state') :
    (receive E service frame state).Run t.log (.pure state') := by
  rw [List.append_cons] at h
  obtain ⟨hturns, hphase⟩ := h.upto
  rw [phaseAfter_snoc, hnext] at hphase
  cases Turn.ended (hturns.run (t := t) (by simp)) hphase with
  | greeted hbefore' => cases hbefore.symm.trans hbefore'
  | woken _ hincoming' => cases hincoming.symm.trans hincoming'
  | received hbefore' hincoming' hrun =>
    cases hbefore.symm.trans hbefore'
    cases hincoming.symm.trans hincoming'
    exact hrun

section
variable {service : Service} {database : String} {bytes : Bytes}

/-- The turn calls `restore_snapshot` with the bytes. -/
def Turn.Restores (E : Engine) (service : Service) (database : String) (bytes : Bytes) (t : Turn) :
    Prop :=
  ∃ state frame upload, t.before = .session state ∧ t.incoming = .frame frame ∧
    upload.database = database ∧ upload.bytes = bytes ∧
      receive E service frame state =
        restoreCall service frame.requestId { state with lastRequestId := frame.requestId } upload

/-- What the turn reads of the catalog knows the name. -/
def Turn.Knows (database : String) (t : Turn) : Prop :=
  ∀ catalog, ⟨.daemon .readCatalog, catalog⟩ ∈ t.log → (catalog.byName? database).isSome

theorem feeds_chunks (hdecode : ∀ chunk, service.decodeBase64 (service.encodeBase64 chunk) = .ok chunk)
    {chunks : List Bytes} {upload : SnapshotUpload}
    (hchunks : ∀ chunk ∈ chunks, chunk ≠ [] ∧ chunk.length ≤ SNAPSHOT_CHUNK_BYTES)
    (htotal : (upload.bytes ++ chunks.flatten).length = upload.totalBytes)
    (hturns : Conversation E service (turns ++ fed)) (hincreasing : Increasing (turns ++ fed))
    (hphase : phaseAfter turns = some (.session state)) (hready : Ready state)
    (hupload : state.restore = some upload)
    (hfed : Feeds ((chunkResponses service upload.nextSequence chunks).filterMap
      (ServerResponse.handBack? upload.database)) fed) :
    ∃ accepted c, fed = accepted ++ [c] ∧
      accepted.map (Turn.accepted? service) =
        (chunks.zipIdx upload.nextSequence).map (fun chunk => some (chunk.2, chunk.1)) ∧
      c.Restores E service upload.database (upload.bytes ++ chunks.flatten) := by
  induction chunks generalizing turns fed state upload with
  | nil =>
    cases hfed with
    | @cons _ c _ rest hc hnil =>
      cases hnil
      obtain ⟨state', frame, hbefore, hincoming, hrequest⟩ := hc
      refine ⟨[], c, rfl, rfl, state', frame, upload, hbefore, hincoming, rfl, by simp, ?_⟩
      obtain ⟨-, hphase'⟩ := hturns.upto
      cases (hphase.symm.trans hphase').trans (congrArg some hbefore)
      rw [receive_restoreCommit hready
        (hincreasing.dispatched hturns (by simp) hbefore hincoming) hrequest]
      have hwhole : upload.bytes.length = upload.totalBytes := by simpa using htotal
      simp [dispatchRestoreCommit, hupload, hwhole, restoreCall]
  | cons chunk chunks ih =>
    obtain ⟨⟨hpos, hmax⟩, hrest⟩ := List.forall_mem_cons.mp hchunks
    cases hfed with
    | @cons _ t _ rest ht hlater =>
      obtain ⟨state₀, frame, hbefore, hincoming, hrequest⟩ := ht
      obtain ⟨-, hphase'⟩ := hturns.upto
      cases (hphase.symm.trans hphase').trans (congrArg some hbefore)
      -- The commit at least is still to come.
      obtain ⟨u, state', later, rfl, hnext⟩ :=
        Feeds.next hlater (chunkResponses_handBack service _ chunks _)
      have hroom : upload.bytes.length + chunk.length ≤ upload.totalBytes := by
        rw [← htotal]
        simp only [List.length_append, List.flatten_cons]
        omega
      have hnew := hincreasing.dispatched hturns (by simp) hbefore hincoming
      have hrun := hturns.received hbefore hincoming hnext
      rw [(receive_restoreChunk hready hnew hrequest).trans
        (dispatchRestoreChunk_accepts hupload (hdecode chunk) hpos hmax hroom)] at hrun
      obtain ⟨rfl, hlog⟩ := (Yields.answer (Q := fun s log => s = _ ∧ log = _) ⟨rfl, rfl⟩).run hrun
      have haccepted : t.accepted? service = some (upload.nextSequence, chunk) :=
        Turn.accepted?_eq hincoming hrequest (by rw [Turn.responses, hlog]; rfl) (hdecode chunk)
      rw [List.append_cons] at hturns hincreasing
      obtain ⟨accepted, c, hsplit, hall, hcommit⟩ := ih hrest (by simpa using htotal) hturns
        hincreasing ((hturns.upto).2.trans (congrArg some hnext)) ⟨hready.role, hready.transaction⟩ rfl
        hlater
      refine ⟨t :: accepted, c, by rw [hsplit]; rfl, ?_, ?_⟩
      · simp [haccepted, hall]
      · simpa using hcommit

/-- The begin of an upload, in a session that goes on. -/
theorem feeds_begin {b u : Turn} (hne : bytes ≠ [])
    (hlen : bytes.length ≤ service.limits.maxSnapshotBytes)
    (hturns : Conversation E service (turns ++ b :: u :: rest))
    (hincreasing : Increasing (turns ++ b :: u :: rest))
    (hbefore : b.before = .session state) (hready : Ready state) (hnone : state.restore = none)
    (hincoming : b.incoming = .frame frame)
    (hrequest : frame.request = .snapshotRestoreBegin database bytes.length)
    (hknown : b.Knows database) (hnext : u.before = .session state') :
    b.isReady = true ∧ Ready state' ∧ state'.restore = some ⟨database, bytes.length, 0, []⟩ := by
  have hnew := hincreasing.dispatched hturns (by simp) hbefore hincoming
  have hrun := hturns.received hbefore hincoming hnext
  rw [receive_restoreBegin hready hnew hrequest] at hrun
  have hnone : ({ state with lastRequestId := frame.requestId } : ConnectionState).restore = none :=
    hnone
  obtain ⟨rfl, hsent⟩ := (dispatchRestoreBegin_begins hnone (List.length_pos_iff.mpr hne) hlen).run
    hrun rfl _ rfl hknown
  refine ⟨?_, ⟨hready.role, hready.transaction⟩, rfl⟩
  rw [Turn.isReady, Turn.responses, List.any_eq_true]
  exact ⟨_, List.mem_filterMap.mpr ⟨_, hsent, rfl⟩, rfl⟩

/-- What an export sends, and what becomes of it when it is handed back. -/
structure RoundTrips (E : Engine) (service : Service) (bytes : Bytes) : Prop where
  /-- Every event of the export fits a frame. -/
  fit : ∀ requestId, AllFit service requestId (snapshotResponses service bytes)
  /-- The export sends its events in order, none of them replaced. -/
  exported : ∀ requestId, Performs (sendSnapshot service requestId bytes) fun _ log =>
    log.map Event.op <+: (snapshotResponses service bytes).map fun response =>
      .send ⟨requestId, response⟩
  /-- A connection that is fed the events accepts them all and restores the bytes. -/
  accepted : ∀ database turns fed state, Conversation E service (turns ++ fed) →
    Increasing (turns ++ fed) → phaseAfter turns = some (.session state) → Ready state →
      state.restore = none →
        Feeds ((snapshotResponses service bytes).filterMap (ServerResponse.handBack? database)) fed →
          (∀ b ∈ fed.head?, b.Knows database) →
            ∃ b accepted c, fed = b :: accepted ++ [c] ∧ b.isReady = true ∧
              accepted.map (Turn.accepted? service) =
                (bytes.toChunks SNAPSHOT_CHUNK_BYTES).zipIdx.map (fun chunk =>
                  some (chunk.2, chunk.1)) ∧
              c.Restores E service database bytes

/-- What is exported can be restored. -/
theorem exports_restore (hencode : ∀ chunk, service.encodeBase64 chunk = Base64.encode chunk)
    (hdecode : ∀ chunk, service.decodeBase64 (service.encodeBase64 chunk) = .ok chunk)
    (hmax : service.limits.maxSnapshotBytes < 2 ^ 64) (hne : bytes ≠ [])
    (hlen : bytes.length ≤ service.limits.maxSnapshotBytes) : RoundTrips E service bytes := by
  have hfit := snapshotResponses_fit hencode (hlen.trans_lt hmax)
  refine ⟨hfit, fun requestId => ?_, ?_⟩
  · exact (sendSnapshot_delivers bytes).mono fun _ _ hposted => hposted.sends_fitting (hfit requestId)
  · intro database turns fed state hturns hincreasing hphase hready hnone hfed hknown
    obtain ⟨hflatten, hchunks⟩ := toChunks_spec (n := SNAPSHOT_CHUNK_BYTES) (by decide) bytes
    cases hfed with
    | @cons _ b _ fed hb hlater =>
      obtain ⟨state₀, frame, hbefore, hincoming, hrequest⟩ := hb
      cases (hphase.symm.trans hturns.upto.2).trans (congrArg some hbefore)
      obtain ⟨u, state', later, rfl, hnext⟩ :=
        Feeds.next hlater (chunkResponses_handBack service _ _ _)
      obtain ⟨hisReady, hready', hupload⟩ := feeds_begin hne hlen hturns hincreasing hbefore hready
        hnone hincoming hrequest (hknown b rfl) hnext
      rw [List.append_cons] at hturns hincreasing
      obtain ⟨accepted, c, hsplit, haccepted, hrestores⟩ := feeds_chunks hdecode hchunks
        (by simp [hflatten]) hturns hincreasing (hturns.upto.2.trans (congrArg some hnext)) hready'
        hupload hlater
      refine ⟨b, accepted, c, by rw [hsplit]; rfl, hisReady, haccepted, ?_⟩
      simpa [hflatten] using hrestores

end

/-- A service whose payloads are written as the format says. -/
def Service.base64 : Service :=
  { Service.plain with
    encodeBase64 := Base64.encode
    decodeBase64 := fun data => match Base64.decode data with
      | some bytes => .ok bytes
      | none => .error "invalid base64" }

/-- The upload of the three bytes `Man`, as an export writes them. -/
def returningClient : List Turn :=
  converse .plain .base64 (quietly ⟨CATALOG_VERSION, [⟨"id", "main", "ready"⟩]⟩) []
    [.frame ⟨1, .hello 1 "admin" "client"⟩, .frame ⟨2, .snapshotRestoreBegin "main" 3⟩,
      .frame ⟨3, .snapshotRestoreChunk 0 "TWFu"⟩, .frame ⟨4, .snapshotRestoreCommit⟩]

theorem exports_restore_man :
    snapshotResponses .base64 [77, 97, 110] =
        [.snapshotStart 3, .snapshotChunk 0 "TWFu", .snapshotEnd 1] ∧
      returningClient.map (Turn.accepted? .base64) = [none, none, some (0, [77, 97, 110]), none] ∧
      RoundTrips .plain .base64 [77, 97, 110] :=
  ⟨rfl, by decide +kernel, exports_restore (fun _ => rfl)
    (fun chunk => by simp [Service.base64, Base64.decode_encode]) (by decide) (by decide)
    (by decide)⟩

end NostdbServer
