import NostdbServer.Protocol.Transactions

/-!
# Snapshot uploads

What the turns of a conversation do to the upload of a connection. As for
transactions the answers alone tell: a turn begins an upload if it was answered
`ready`, and adds to it if it was answered `chunk_accepted`. Every other turn
leaves the upload as it was, or ends it.
-/

namespace NostdbServer

open Effects

-- ---------------------------------------------------------------------------
-- Looking a Database up by its name
-- ---------------------------------------------------------------------------

/-- The events of one look into the catalog. -/
def lookedUp (catalog : Catalog) : List (Event connection) :=
  [⟨.daemon .lockCatalog, ()⟩, ⟨.daemon .readCatalog, catalog⟩, ⟨.daemon .unlockCatalog, ()⟩]

theorem entryOf_performs (name : String) :
    Performs (calling (entryOf name)) fun result log => ∃ catalog, log = lookedUp catalog ∧
      result = match catalog.byName? name with
        | some entry => .ok entry
        | none => .error (notFound name) := by
  refine Performs.op (S := connection) (o := .daemon .lockCatalog) fun _ => ?_
  refine Performs.op (S := connection) (o := .daemon .readCatalog) fun catalog => ?_
  dsimp only [Prog.bind_pure]
  cases hentry : catalog.byName? name with
  | some entry =>
    refine Performs.op (S := connection) (o := .daemon .unlockCatalog) fun _ => Performs.pure ?_
    exact ⟨catalog, rfl, by simp [hentry]⟩
  | none =>
    refine Performs.op (S := connection) (o := .daemon .unlockCatalog) fun _ => Performs.fail ?_
    exact ⟨catalog, rfl, by simp [hentry]⟩

-- ---------------------------------------------------------------------------
-- Reading a turn
-- ---------------------------------------------------------------------------

def ServerResponse.isReady : ServerResponse → Bool
  | .snapshotRestore state _ => state = "ready"
  | _ => false

def ServerResponse.isChunkAccepted : ServerResponse → Bool
  | .snapshotRestore state _ => state = "chunk_accepted"
  | _ => false

namespace Turn

def isReady (t : Turn) : Bool := t.responses.any ServerResponse.isReady

/-- The sequence number and the payload of a chunk that was answered
`chunk_accepted`. -/
def accepted? (service : Service) (t : Turn) : Option (Nat × Bytes) :=
  match t.incoming with
  | .frame ⟨_, .snapshotRestoreChunk sequence data⟩ =>
    if t.responses.any ServerResponse.isChunkAccepted then
      (service.decodeBase64 data).toOption.map fun chunk => (sequence, chunk)
    else none
  | _ => none

end Turn

-- ---------------------------------------------------------------------------
-- What a turn does to the upload
-- ---------------------------------------------------------------------------

/-- No event begins an upload or adds to it. -/
def Passive (log : List (Event connection)) : Prop :=
  ∀ response ∈ log.filterMap response?,
    response.isReady = false ∧ response.isChunkAccepted = false

/-- Everything a finished turn of a session can do to the upload. -/
inductive Uploaded (service : Service) (frame : ClientFrame) (upload : Option SnapshotUpload) :
    Option SnapshotUpload → List (Event connection) → Prop
  | begun (hrequest : frame.request = .snapshotRestoreBegin database totalBytes)
      (hnone : upload = none) (hpos : 0 < totalBytes)
      (hmax : totalBytes ≤ service.limits.maxSnapshotBytes)
      (hlooked : ∀ e ∈ looked, e.op.isDaemon = true) :
      Uploaded service frame upload (some ⟨database, totalBytes, 0, []⟩)
        (looked ++ [sent ⟨frame.requestId, .snapshotRestore "ready" 0⟩])
  | accepted {sofar : SnapshotUpload}
      (hrequest : frame.request = .snapshotRestoreChunk sofar.nextSequence data)
      (hsome : upload = some sofar) (hdata : service.decodeBase64 data = .ok chunk)
      (hpos : chunk ≠ []) (hmax : chunk.length ≤ SNAPSHOT_CHUNK_BYTES)
      (htotal : sofar.bytes.length + chunk.length ≤ sofar.totalBytes) :
      Uploaded service frame upload
        (some { sofar with
          bytes := sofar.bytes ++ chunk, nextSequence := sofar.nextSequence + 1 })
        [sent ⟨frame.requestId,
          .snapshotRestore "chunk_accepted" (sofar.bytes ++ chunk).length⟩]
  | committed {whole : SnapshotUpload} (hrequest : frame.request = .snapshotRestoreCommit)
      (hsome : upload = some whole) (hbytes : whole.bytes.length = whole.totalBytes)
      (hlog : Passive log) : Uploaded service frame upload none log
  | aborted (hrequest : frame.request = .snapshotRestoreAbort) (hlog : Passive log) :
      Uploaded service frame upload none log
  | kept (hlog : Passive log) : Uploaded service frame upload upload log

theorem Passive.sent {response : ServerResponse} (hready : response.isReady = false)
    (haccepted : response.isChunkAccepted = false) : Passive [sent ⟨requestId, response⟩] := by
  simp [Passive, hready, haccepted]

theorem Passive.failure (requestId : UInt64) (error : ProtocolFailure) :
    Passive [NostdbServer.sent (failureFrame requestId error)] :=
  Passive.sent rfl rfl

theorem Passive.append {log log' : List (Event connection)} (h : Passive log) (h' : Passive log') :
    Passive (log ++ log') := by
  simp only [Passive, List.filterMap_append, List.mem_append] at *
  rintro response (hr | hr)
  · exact h response hr
  · exact h' response hr

theorem Passive.silent {log : List (Event connection)} (h : Silent log) : Passive log := by
  intro response hr
  obtain ⟨⟨o, ans⟩, he, hresponse⟩ := List.mem_filterMap.mp hr
  have ho := h _ he
  cases o <;> simp_all [ConnectionOp.silent, response?]

section
variable {service : Service} {frame : ClientFrame} {state state' : ConnectionState}

/-- Only the upload requests are answered about an upload. -/
theorem Handled.passive {launches : ConnectionState → Task → Prop}
    (h : Handled service frame launches (.ok state') log)
    (hother : frame.request.uploads = false) : Passive log := by
  cases h with
  | @answered work response _ posted hwork hreply hposted =>
    obtain ⟨-, rfl⟩ := hposted
    refine Passive.append (.silent hwork) (.sent ?_ ?_)
    all_goals
      cases response with
      | snapshotRestore => simp [ServerResponse.replies, hother] at hreply
      | _ => rfl
  | launched => simp [Passive, response?]
  | exporting => simp [Passive, response?]

theorem Changed.restore_eq (h : Changed frame state state')
    (hother : frame.request.uploads = false) : state'.restore = state.restore := by
  cases h with
  | restore _ huploads => simp [huploads] at hother
  | _ => rfl

/-- `p` does to the upload what it says. -/
def Uploads (service : Service) (frame : ClientFrame) (upload : Option SnapshotUpload)
    (p : Prog connection String ConnectionState) : Prop :=
  Yields p [] fun state' log => Uploaded service frame upload state'.restore log

theorem refuse_uploads :
    Uploads service frame state.restore (refuse service frame.requestId state code message) :=
  Yields.refuse (.kept (.failure _ _))

theorem dispatchRestoreBegin_uploads
    (hrequest : frame.request = .snapshotRestoreBegin database totalBytes) :
    Uploads service frame state.restore
      (dispatchRestoreBegin service frame.requestId state database totalBytes) := by
  unfold dispatchRestoreBegin
  split
  · exact refuse_uploads
  rename_i hnone
  split
  · exact refuse_uploads
  rename_i hsize
  obtain ⟨hpos, hmax⟩ := not_or.mp hsize
  refine Yields.bind (Yields.calling fun result l hl => ?_)
  cases result with
  | error error =>
    exact Yields.bind (Yields.sendResponse
      (.kept ((Passive.silent (.of_daemon hl)).append (.failure _ error))))
  | ok summary =>
    exact Yields.answer (.begun hrequest (by simpa using hnone) (Nat.pos_of_ne_zero hpos)
      (Nat.le_of_not_lt hmax) hl)

theorem dispatchRestoreChunk_uploads {sequence : Nat}
    (hrequest : frame.request = .snapshotRestoreChunk sequence data) :
    Uploads service frame state.restore
      (dispatchRestoreChunk service frame.requestId state sequence data) := by
  unfold dispatchRestoreChunk
  split
  · exact refuse_uploads
  rename_i upload hupload
  split
  · exact refuse_uploads
  rename_i hsequence
  split
  · exact refuse_uploads
  rename_i chunk hchunk
  split
  · exact refuse_uploads
  rename_i hbound
  split
  · exact refuse_uploads
  rename_i htotal
  obtain ⟨hpos, hmax⟩ := not_or.mp hbound
  rw [not_not.mp hsequence] at hrequest
  exact Yields.answer (.accepted hrequest hupload hchunk (by simpa using hpos)
    (Nat.le_of_not_lt hmax) (Nat.le_of_not_lt htotal))

theorem dispatchRestoreCommit_uploads (hrequest : frame.request = .snapshotRestoreCommit) :
    Uploads service frame state.restore (dispatchRestoreCommit service frame.requestId state) := by
  unfold dispatchRestoreCommit
  split
  · exact refuse_uploads
  rename_i upload hupload
  split
  · exact refuse_uploads
  rename_i hbytes
  refine Yields.relay (fun a l hl => ?_) fun error l hl => ?_
  all_goals refine .committed hrequest hupload (not_not.mp hbytes) (.append (.silent (.of_daemon hl)) ?_)
  · exact .sent rfl rfl
  · exact .failure _ error

theorem receive_uploads (huploads : frame.request.uploads = true) :
    Uploads service frame state.restore (receive E service frame state) := by
  unfold receive
  split
  · exact refuse_uploads
  unfold dispatch
  dsimp only
  split
  · exact refuse_uploads
  split
  · exact refuse_uploads
  split <;> rename_i hrequest
  case h_15 => exact dispatchRestoreBegin_uploads hrequest
  case h_16 => exact dispatchRestoreChunk_uploads hrequest
  case h_17 => exact dispatchRestoreCommit_uploads hrequest
  case h_18 => exact Yields.answer (.aborted hrequest (.sent rfl rfl))
  all_goals simp [hrequest, ClientRequest.uploads] at huploads

theorem receive_uploaded (h : (receive E service frame state).Run log (.pure state')) :
    Uploaded service frame state.restore state'.restore log := by
  by_cases huploads : frame.request.uploads = true
  · exact (receive_uploads huploads).run h
  · rw [Bool.not_eq_true] at huploads
    have hkept : state'.restore = state.restore := by
      obtain ⟨-, rfl⟩ | ⟨-, hchanged⟩ := receive_changed.run h
      · rfl
      · exact hchanged.restore_eq huploads
    rw [hkept]
    exact .kept ((receive_performs.run h rfl).passive huploads)

end

-- ---------------------------------------------------------------------------
-- The upload is what the answers say
-- ---------------------------------------------------------------------------

/-- The upload was begun by `b` and consists of the chunks accepted since. -/
structure UploadOf (service : Service) (b : Turn) (since : List Turn) (upload : SnapshotUpload) :
    Prop where
  begun : b.isReady = true ∧ ∃ frame, b.incoming = .frame frame ∧
    frame.request = .snapshotRestoreBegin upload.database upload.totalBytes
  latest : ∀ t ∈ since, t.isReady = false
  bytes : upload.bytes = (since.filterMap (Turn.accepted? service)).flatMap Prod.snd
  sequence : (since.filterMap (Turn.accepted? service)).map Prod.fst =
    List.range upload.nextSequence
  chunks : ∀ chunk ∈ since.filterMap (Turn.accepted? service),
    chunk.2 ≠ [] ∧ chunk.2.length ≤ SNAPSHOT_CHUNK_BYTES
  bounded : upload.bytes.length ≤ upload.totalBytes ∧ 0 < upload.totalBytes ∧
    upload.totalBytes ≤ service.limits.maxSnapshotBytes

section
variable {service : Service} {b t : Turn} {upload : SnapshotUpload}

/-- As many chunks were accepted as the next sequence number says. -/
theorem UploadOf.count (h : UploadOf service b since upload) :
    (since.filterMap (Turn.accepted? service)).length = upload.nextSequence := by
  simpa using congrArg List.length h.sequence

theorem UploadOf.kept (h : UploadOf service b since upload) (hready : t.isReady = false)
    (hnone : t.accepted? service = none) : UploadOf service b (since ++ [t]) upload := by
  have hsince : (since ++ [t]).filterMap (Turn.accepted? service) =
      since.filterMap (Turn.accepted? service) := by simp [hnone]
  refine ⟨h.begun, ?_, ?_, ?_, ?_, h.bounded⟩
  · simpa [or_imp, forall_and] using ⟨h.latest, hready⟩
  all_goals rw [hsince]
  · exact h.bytes
  · exact h.sequence
  · exact h.chunks

theorem UploadOf.accepted (h : UploadOf service b since upload) (hready : t.isReady = false)
    (hsome : t.accepted? service = some (upload.nextSequence, chunk)) (hpos : chunk ≠ [])
    (hmax : chunk.length ≤ SNAPSHOT_CHUNK_BYTES)
    (htotal : upload.bytes.length + chunk.length ≤ upload.totalBytes) :
    UploadOf service b (since ++ [t])
      { upload with bytes := upload.bytes ++ chunk, nextSequence := upload.nextSequence + 1 } := by
  have hsince : (since ++ [t]).filterMap (Turn.accepted? service) =
      since.filterMap (Turn.accepted? service) ++ [(upload.nextSequence, chunk)] := by
    simp [hsome]
  refine ⟨h.begun, ?_, ?_, ?_, ?_, by simpa using htotal, h.bounded.2⟩
  · simpa [or_imp, forall_and] using ⟨h.latest, hready⟩
  all_goals rw [hsince]
  · simp [h.bytes]
  · simp [h.sequence, List.range_succ]
  · exact List.forall_mem_append.mpr ⟨h.chunks, by simpa using ⟨hpos, hmax⟩⟩

theorem Passive.isReady (h : Passive t.log) : t.isReady = false := by
  simp only [Turn.isReady, Turn.responses, List.any_eq_false, Bool.not_eq_true]
  exact fun response hr => (h response hr).1

theorem Passive.accepted? (h : Passive t.log) : t.accepted? service = none := by
  have hnone : t.responses.any ServerResponse.isChunkAccepted = false := by
    simp only [Turn.responses, List.any_eq_false, Bool.not_eq_true]
    exact fun response hr => (h response hr).2
  unfold Turn.accepted?
  split
  · simp [hnone]
  · rfl

theorem Turn.accepted?_eq {sequence : Nat} {frame : ClientFrame} (hincoming : t.incoming = .frame frame)
    (hrequest : frame.request = .snapshotRestoreChunk sequence data)
    (hresponses : t.responses = [.snapshotRestore "chunk_accepted" n])
    (hdata : service.decodeBase64 data = .ok chunk) :
    t.accepted? service = some (sequence, chunk) := by
  obtain ⟨requestId, request⟩ := frame
  cases hrequest
  simp [accepted?, hincoming, hresponses, ServerResponse.isChunkAccepted, hdata, Except.toOption]

end

theorem Conversation.uploading {state : ConnectionState} {upload : SnapshotUpload}
    (h : Conversation E service turns) (hphase : phaseAfter turns = some (.session state))
    (hupload : state.restore = some upload) :
    ∃ earlier b since, turns = earlier ++ b :: since ∧ UploadOf service b since upload := by
  induction h generalizing state upload with
  | start => cases hphase
  | @turn turns before incoming log rest hturns hbefore hrun ih =>
    rw [phaseAfter_snoc] at hphase
    have hpassive {state₀ : ConnectionState} (h₀ : before = .session state₀)
        (hkept : state.restore = state₀.restore) (hlog : Passive log) :
        ∃ earlier b since, turns ++ [⟨before, incoming, log, rest⟩] = earlier ++ b :: since ∧
          UploadOf service b since upload := by
      obtain ⟨earlier, b, since, rfl, hof⟩ := ih (h₀ ▸ hbefore) (hkept ▸ hupload)
      exact ⟨earlier, b, since ++ [⟨before, incoming, log, rest⟩], by simp,
        hof.kept (Passive.isReady hlog) (Passive.accepted? hlog)⟩
    cases Turn.ended hrun hphase with
    | greeted _ _ hgreeted =>
      cases hgreeted
      cases hupload
    | woken heq _ hlog =>
      refine hpassive heq rfl ?_
      cases hlog
      simp [Passive]
    | @received state₀ frame state heq hincoming hreceive =>
      have huploaded := receive_uploaded hreceive
      rw [hupload] at huploaded
      generalize hold : state₀.restore = old at huploaded
      dsimp only at huploaded
      cases huploaded with
      | begun hrequest hnone hpos hmax hlooked =>
        refine ⟨turns, _, [], rfl, ⟨?_, frame, hincoming, hrequest⟩, by simp, rfl, rfl, by simp,
          Nat.zero_le _, hpos, hmax⟩
        simp [Turn.isReady, Turn.responses, ServerResponse.isReady]
      | @accepted data chunk sofar hrequest hsome hdata hpos hmax htotal =>
        obtain ⟨earlier, b, since, rfl, hof⟩ := ih (heq ▸ hbefore) (hold.trans hsome)
        exact ⟨earlier, b, since ++ [⟨before, incoming, _, rest⟩], by simp,
          hof.accepted rfl (Turn.accepted?_eq hincoming hrequest rfl hdata) hpos hmax htotal⟩
      | kept hlog => exact hpassive heq (hupload.trans hold.symm) hlog

-- ---------------------------------------------------------------------------
-- Commits
-- ---------------------------------------------------------------------------

/-- The call of `restore_snapshot` for an upload, and the answer. -/
def restoreCall (service : Service) (requestId : UInt64) (state : ConnectionState)
    (upload : SnapshotUpload) : Prog connection String ConnectionState :=
  relay service requestId { state with restore := none }
    (restoreSnapshot service.root upload.database upload.bytes)
    fun _ => .snapshotRestore "restored" upload.bytes.length

section
variable {service : Service} {frame : ClientFrame} {state : ConnectionState}

/-- A commit is refused, or the daemon is called with a whole upload. -/
theorem receive_restoreCommit_cases (hrequest : frame.request = .snapshotRestoreCommit)
    (hrun : (receive E service frame state).Run log rest) :
    (∃ state' code message,
      (refuse service frame.requestId state' code message).Run log rest) ∨
    ∃ upload, state.restore = some upload ∧ upload.bytes.length = upload.totalBytes ∧
      (restoreCall service frame.requestId { state with lastRequestId := frame.requestId }
        upload).Run log rest := by
  unfold receive at hrun
  split at hrun
  · exact .inl ⟨_, _, _, hrun⟩
  unfold dispatch at hrun
  dsimp only at hrun
  split at hrun
  · exact .inl ⟨_, _, _, hrun⟩
  split at hrun
  · exact .inl ⟨_, _, _, hrun⟩
  rw [hrequest] at hrun
  dsimp only [dispatchRestoreCommit] at hrun
  split at hrun
  · exact .inl ⟨_, _, _, hrun⟩
  rename_i upload hupload
  split at hrun
  · exact .inl ⟨_, _, _, hrun⟩
  rename_i hbytes
  exact .inr ⟨upload, hupload, not_not.mp hbytes, hrun⟩

/-- A commit that goes to the daemon at all calls it with a whole upload. -/
theorem receive_restores (hrequest : frame.request = .snapshotRestoreCommit)
    (hrun : (receive E service frame state).Run log rest)
    (hdaemon : ∃ e ∈ log, e.op.isDaemon = true) :
    ∃ upload, state.restore = some upload ∧ upload.bytes.length = upload.totalBytes ∧
      (restoreCall service frame.requestId { state with lastRequestId := frame.requestId }
        upload).Run log rest := by
  obtain ⟨e, he, hdaemon⟩ := hdaemon
  obtain ⟨state', code, message, hrefused⟩ | hcalled := receive_restoreCommit_cases hrequest hrun
  · have honly : (refuse service frame.requestId state' code message).Only (S := connection)
        fun o => ConnectionOp.isDaemon o = false := refuse_only fun _ => rfl
    simp [(hrefused.only honly).1 e he] at hdaemon
  · exact hcalled

end

/-- What the client of a connection can rely on about its uploads. -/
structure ExactUploads (service : Service) (turns : List Turn) : Prop where
  /-- The active upload is what was accepted since it was begun. -/
  active : ∀ state upload, phaseAfter turns = some (.session state) →
    state.restore = some upload →
      ∃ earlier b since, turns = earlier ++ b :: since ∧ UploadOf service b since upload ∧
        (since.filterMap (Turn.accepted? service)).length = upload.nextSequence
  /-- A chunk that is not accepted changes nothing. -/
  rejected : ∀ t ∈ turns, ∀ state state' frame sequence data, t.before = .session state →
    t.incoming = .frame frame → frame.request = .snapshotRestoreChunk sequence data →
      t.accepted? service = none → t.after = some (.session state') →
        state'.restore = state.restore
  /-- Nor does the commit of an upload that is not whole. -/
  mismatched : ∀ t ∈ turns, ∀ state state' frame upload, t.before = .session state →
    t.incoming = .frame frame → frame.request = .snapshotRestoreCommit →
      state.restore = some upload → upload.bytes.length ≠ upload.totalBytes →
        t.after = some (.session state') → state'.restore = some upload
  /-- A commit reaches the daemon only by `restore_snapshot` with a whole upload. -/
  restored : ∀ t ∈ turns, ∀ state frame, t.before = .session state → t.incoming = .frame frame →
    frame.request = .snapshotRestoreCommit → (∃ e ∈ t.log, e.op.isDaemon = true) →
      ∃ upload rest, state.restore = some upload ∧ upload.bytes.length = upload.totalBytes ∧
        (restoreCall service frame.requestId { state with lastRequestId := frame.requestId }
          upload).Run t.log rest

theorem Conversation.uploaded {t : Turn} (h : Conversation E service turns) (ht : t ∈ turns)
    (hbefore : t.before = .session state) (hincoming : t.incoming = .frame frame)
    (hafter : t.after = some (.session state')) :
    Uploaded service frame state.restore state'.restore t.log := by
  cases Turn.ended (h.run ht) hafter with
  | greeted hbefore' => cases hbefore.symm.trans hbefore'
  | woken _ hincoming' => cases hincoming.symm.trans hincoming'
  | received hbefore' hincoming' hrun =>
    cases hbefore.symm.trans hbefore'
    cases hincoming.symm.trans hincoming'
    exact receive_uploaded hrun

/-- Uploads are bounded and exact, whatever the client sends. -/
theorem uploads_are_exact (h : Conversation E service turns) : ExactUploads service turns where
  active state upload hphase hupload := by
    obtain ⟨earlier, b, since, hturns, hof⟩ := h.uploading hphase hupload
    exact ⟨earlier, b, since, hturns, hof, hof.count⟩
  rejected t ht state state' frame sequence data hbefore hincoming hrequest hnone hafter := by
    have huploaded := h.uploaded ht hbefore hincoming hafter
    generalize hlog : t.log = log at huploaded
    generalize state'.restore = after at huploaded ⊢
    cases huploaded with
    | begun hother | committed hother | aborted hother => cases hrequest.symm.trans hother
    | @accepted _ chunk sofar hrequest _ hdata =>
      have hresponses : t.responses =
          [.snapshotRestore "chunk_accepted" (sofar.bytes ++ chunk).length] := by
        rw [Turn.responses, hlog]
        rfl
      cases (Turn.accepted?_eq hincoming hrequest hresponses hdata).symm.trans hnone
    | kept => rfl
  mismatched t ht state state' frame upload hbefore hincoming hrequest hupload hbytes hafter := by
    have huploaded := h.uploaded ht hbefore hincoming hafter
    rw [hupload] at huploaded
    generalize t.log = log at huploaded
    generalize state'.restore = after at huploaded ⊢
    cases huploaded with
    | begun hother | accepted hother | aborted hother => cases hrequest.symm.trans hother
    | committed _ hsome hwhole =>
      cases hsome
      exact absurd hwhole hbytes
    | kept => rfl
  restored t ht state frame hbefore hincoming hrequest hdaemon := by
    have hrun := h.run ht
    rw [hbefore, hincoming] at hrun
    obtain ⟨p, hreceive, -⟩ := handleIncoming_frame hrun
    obtain ⟨upload, hupload, hbytes, hcall⟩ := receive_restores hrequest hreceive hdaemon
    exact ⟨upload, p, hupload, hbytes, hcall⟩

/-- Two chunks of an upload, and one out of order. -/
def uploadingClient : List Turn :=
  converse .plain { Service.plain with decodeBase64 := fun _ => .ok [7] }
    (quietly ⟨CATALOG_VERSION, [⟨"id", "main", "ready"⟩]⟩) []
    [.frame ⟨1, .hello 1 "admin" "client"⟩, .frame ⟨2, .snapshotRestoreBegin "main" 3⟩,
      .frame ⟨3, .snapshotRestoreChunk 0 "Bw=="⟩, .frame ⟨4, .snapshotRestoreChunk 0 "Bw=="⟩,
      .frame ⟨5, .snapshotRestoreChunk 1 "Bw=="⟩]

def Phase.restore : Phase → Option SnapshotUpload
  | .session state => state.restore
  | _ => none

theorem uploads_are_exact_two :
    (((phaseAfter uploadingClient).bind Phase.restore).map fun upload =>
        (upload.bytes, upload.nextSequence)) = some ([7, 7], 2) ∧
      ExactUploads { Service.plain with decodeBase64 := fun _ => .ok [7] } uploadingClient :=
  ⟨by decide +kernel, uploads_are_exact (.converse (E := .plain) .start)⟩

end NostdbServer
