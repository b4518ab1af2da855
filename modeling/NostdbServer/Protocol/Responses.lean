import NostdbServer.Protocol.Links

/-!
# The responses to a request

What a client sees of one request: a single terminal event, a streamed result or
an exported snapshot, where an event that does not fit a frame ends the sequence
with one failure in its place. At every moment the queue holds the first events
of such a sequence, however the tasks of the connection take their turns.
-/

namespace NostdbServer

open Effects

-- ---------------------------------------------------------------------------
-- Sequences of responses
-- ---------------------------------------------------------------------------

/-- The responses in a row as they are sent: all of them, or those before the
first that does not fit, and one failure in its place. -/
inductive Scripted (service : Service) (requestId : UInt64) (responses : List ServerResponse) :
    List ServerResponse → Prop
  | whole (h : AllFit service requestId responses) : Scripted service requestId responses responses
  | cut (h : responses = first ++ response :: rest) (hfirst : AllFit service requestId first)
      (hfits : ¬ service.Fits ⟨requestId, response⟩) :
      Scripted service requestId responses (first ++ [tooLarge.response])

/-- Only the last response is terminal. -/
def Proper (responses : List ServerResponse) : Prop :=
  ∃ body last, responses = body ++ [last] ∧ last.isTerminal = true ∧
    ∀ response ∈ body, response.isTerminal = false

def onWire (requestId : UInt64) (responses : List ServerResponse) : List ServerFrame :=
  responses.map fun response => ⟨requestId, response⟩

section
variable {service : Service} {requestId : UInt64}

theorem Scripted.cons (hfits : service.Fits ⟨requestId, response⟩)
    (h : Scripted service requestId rest script) :
    Scripted service requestId (response :: rest) (response :: script) := by
  cases h with
  | whole h => exact .whole (List.forall_mem_cons.mpr ⟨hfits, h⟩)
  | cut h hfirst hnot =>
    rw [← List.cons_append]
    exact .cut (by rw [h]; rfl) (List.forall_mem_cons.mpr ⟨hfits, hfirst⟩) hnot

theorem Scripted.of_not_fits (hfits : ¬ service.Fits ⟨requestId, response⟩)
    (rest : List ServerResponse) :
    Scripted service requestId (response :: rest) [tooLarge.response] :=
  .cut (List.nil_append _).symm (by simp [AllFit]) hfits

theorem scripted_exists (service : Service) (requestId : UInt64) (responses : List ServerResponse) :
    ∃ script, Scripted service requestId responses script := by
  induction responses with
  | nil => exact ⟨[], .whole (by simp [AllFit])⟩
  | cons response rest ih =>
    obtain ⟨script, hscript⟩ := ih
    by_cases hfits : service.Fits ⟨requestId, response⟩
    · exact ⟨_, hscript.cons hfits⟩
    · exact ⟨_, .of_not_fits hfits rest⟩

theorem Scripted.fits (h : Scripted service requestId responses script) :
    AllFit service requestId script := by
  cases h with
  | whole h => exact h
  | cut h hfirst hnot =>
    exact List.forall_mem_append.mpr
      ⟨hfirst, List.forall_mem_singleton.mpr (service.fits_tooLarge requestId)⟩

theorem Scripted.proper (h : Scripted service requestId responses script)
    (hproper : Proper responses) : Proper script := by
  cases h with
  | whole h => exact hproper
  | @cut first response rest h hfirst hnot =>
    obtain ⟨body, last, hbody, -, hopen⟩ := hproper
    refine ⟨first, tooLarge.response, rfl, rfl, fun x hx => hopen x ?_⟩
    have hbegins : first <+: body := by
      rw [h, List.append_eq_append_iff] at hbody
      obtain ⟨more, hbody, -⟩ | ⟨more, hfirst, hmore⟩ := hbody
      · exact ⟨more, hbody.symm⟩
      · cases more with
        | nil => simp [hfirst]
        | cons a more => simp at hmore
    exact hbegins.subset hx

/-- A delivery stays within its script. -/
theorem Stopped.scripted (h : Stopped service requestId responses log) :
    ∃ script, Scripted service requestId responses script ∧
      log.filterMap frame? <+: onWire requestId script := by
  induction h with
  | @closed response rest hfits =>
    obtain ⟨script, hscript⟩ := scripted_exists service requestId (response :: rest)
    exact ⟨script, hscript, List.nil_prefix⟩
  | @replaced response rest hfits accepted =>
    refine ⟨_, .of_not_fits hfits rest, ?_⟩
    cases accepted with
    | true => exact List.prefix_rfl
    | false => exact List.nil_prefix
  | @next response rest log hfits _ ih =>
    obtain ⟨script, hscript, hlog⟩ := ih
    refine ⟨_, hscript.cons hfits, ?_⟩
    simpa [onWire, sent, frame?] using hlog

theorem sentAll_frames (responses : List ServerResponse) :
    (sentAll requestId responses).filterMap frame? = onWire requestId responses := by
  induction responses with
  | nil => rfl
  | cons response rest ih => simpa [sentAll, onWire, sent, frame?] using ih

theorem Delivered.scripted (h : Delivered service requestId responses log) :
    ∃ script, Scripted service requestId responses script ∧
      log.filterMap frame? <+: onWire requestId script := by
  cases h with
  | all h => exact ⟨responses, .whole h, sentAll_frames responses ▸ List.prefix_rfl⟩
  | stopped h => exact h.scripted

/-- Nothing was refused by the channel. -/
def Heard (log : List (Event connection)) : Prop :=
  ∀ frame, (⟨.send frame, false⟩ : Event connection) ∉ log

/-- What the channel takes is the whole script. -/
theorem Delivered.heard (h : Delivered service requestId responses log) (hheard : Heard log) :
    ∃ script, Scripted service requestId responses script ∧
      log.filterMap frame? = onWire requestId script := by
  cases h with
  | all h => exact ⟨responses, .whole h, sentAll_frames responses⟩
  | stopped h =>
    induction h with
    | closed hfits => exact absurd (List.mem_cons_self ..) (hheard _)
    | @replaced response rest hfits accepted =>
      refine ⟨_, .of_not_fits hfits rest, ?_⟩
      cases accepted with
      | true => rfl
      | false => exact absurd (List.mem_cons_self ..) (hheard _)
    | @next response rest log hfits _ ih =>
      obtain ⟨script, hscript, hlog⟩ := ih fun frame hframe =>
        hheard frame (List.mem_cons_of_mem _ hframe)
      exact ⟨_, hscript.cons hfits, by simpa [onWire, sent, frame?] using hlog⟩

theorem Posted.scripted {r : Except String α} (h : Posted service requestId responses r log) :
    ∃ script, Scripted service requestId responses script ∧
      log.filterMap frame? <+: onWire requestId script := by
  cases r with
  | ok _ =>
    obtain ⟨hfit, rfl⟩ := h
    exact ⟨responses, .whole hfit, sentAll_frames responses ▸ List.prefix_rfl⟩
  | error _ => exact Stopped.scripted h

end

theorem Proper.single (h : response.isTerminal = true) : Proper [response] :=
  ⟨[], response, rfl, h, by simp⟩

theorem Proper.stream (result : QueryResult) : Proper (statementResponses true (.read result)) := by
  refine ⟨.streamStart result.columns result.ordered ::
    result.rows.map fun row => .streamRow (row.map queryValueJson), .streamEnd result.rows.length,
    rfl, rfl, ?_⟩
  simp [ServerResponse.isTerminal]

theorem chunkResponses_proper (service : Service) (count : Nat) (chunks : List Bytes) :
    Proper (chunkResponses service count chunks) := by
  induction chunks generalizing count with
  | nil => exact .single rfl
  | cons chunk rest ih =>
    obtain ⟨body, last, h, hlast, hbody⟩ := ih (count + 1)
    refine ⟨.snapshotChunk count (service.encodeBase64 chunk) :: body, last, ?_, hlast, ?_⟩
    · rw [chunkResponses, h]
      rfl
    · exact List.forall_mem_cons.mpr ⟨rfl, hbody⟩

theorem snapshotResponses_proper (service : Service) (bytes : Bytes) :
    Proper (snapshotResponses service bytes) := by
  obtain ⟨body, last, h, hlast, hbody⟩ :=
    chunkResponses_proper service 0 (bytes.toChunks SNAPSHOT_CHUNK_BYTES)
  refine ⟨.snapshotStart bytes.length :: body, last, ?_, hlast, ?_⟩
  · rw [snapshotResponses, h]
    rfl
  · exact List.forall_mem_cons.mpr ⟨rfl, hbody⟩

-- ---------------------------------------------------------------------------
-- One request
-- ---------------------------------------------------------------------------

/-- What is sent for a request, whatever its length. A stream is that of the read
result its task got from the engine. -/
inductive Script (service : Service) (l : Link) (frame : ClientFrame) : List ServerResponse → Prop
  | single (hterminal : response.isTerminal = true)
      (h : Scripted service frame.requestId [response] script) : Script service l frame script
  | streamed (hrequest : frame.request = .query query values readOnly true limits)
      (hread : l.JobDid frame.requestId (queryCall service query values limits handle
        (.ok (.read result))))
      (h : Scripted service frame.requestId (statementResponses true (.read result)) script) :
      Script service l frame script
  | exported (hrequest : frame.request = .snapshotExport database)
      (h : Scripted service frame.requestId (snapshotResponses service bytes) script) :
      Script service l frame script

theorem Script.scripted (h : Script service l frame script) :
    Proper script ∧ AllFit service frame.requestId script := by
  cases h with
  | single hterminal h => exact ⟨h.proper (.single hterminal), h.fits⟩
  | streamed _ _ h => exact ⟨h.proper (.stream _), h.fits⟩
  | exported _ h => exact ⟨h.proper (snapshotResponses_proper _ _), h.fits⟩

/-- The queue holds the first events of a script. -/
def Following (service : Service) (l : Link) (frame : ClientFrame) (frames : List ServerFrame) :
    Prop :=
  ∃ script, Script service l frame script ∧ frames <+: onWire frame.requestId script

theorem Following.nil (service : Service) (l : Link) (frame : ClientFrame) :
    Following service l frame [] := by
  obtain ⟨script, hscript⟩ := scripted_exists service frame.requestId [.pong]
  exact ⟨script, .single rfl hscript, List.nil_prefix⟩

/-- Events before which nothing was sent. -/
theorem frames_of_cut {before rest log later : List (Event connection)}
    (hlog : log ++ later = before ++ rest) (hbefore : ∀ e ∈ before, frame? e = none) :
    log.filterMap frame? = [] ∨
      ∃ sent, log = before ++ sent ∧ sent <+: rest ∧ log.filterMap frame? = sent.filterMap frame? := by
  have hsilent : before.filterMap frame? = [] := List.filterMap_eq_nil_iff.mpr hbefore
  rcases List.append_eq_append_iff.mp hlog with ⟨more, rfl, -⟩ | ⟨sent, rfl, hrest⟩
  · rw [List.filterMap_append] at hsilent
    exact .inl (List.append_eq_nil_iff.mp hsilent).1
  · exact .inr ⟨sent, rfl, ⟨later, hrest.symm⟩, by simp [hsilent]⟩

theorem Looks.frames (h : Looks log) : ∀ e ∈ log, frame? e = none := by
  rintro ⟨o, ans⟩ he
  have ho := h _ he
  cases o <;> first | rfl | cases ho

theorem Silent.frames (h : Silent log) : ∀ e ∈ log, frame? e = none := by
  rintro ⟨o, ans⟩ he
  have ho := h _ he
  cases o <;> first | rfl | cases ho

section
variable {call : ManagedDatabase → Except DatabaseError α → Event connection}

theorem Worked.frames (hcall : ∀ handle answer, frame? (call handle answer) = none)
    (h : Worked databaseId token call refusal r log) : ∀ e ∈ log, frame? e = none := by
  cases h with
  | refused => simp
  | missing _ hlog => exact hlog.frames
  | found _ hlog _ hcalled =>
    refine List.forall_mem_append.mpr ⟨hlog.frames, ?_⟩
    cases hcalled with
    | unavailable hlater => exact hlater.frames
    | done hmid hlater | failed hmid hlater =>
      exact List.forall_mem_append.mpr
        ⟨hmid.frames, List.forall_mem_cons.mpr ⟨hcall _ _, hlater.frames⟩⟩

/-- A worker succeeds only by its call of the engine. -/
theorem Worked.call_mem (h : Worked databaseId token call refusal (.ok value) log) :
    ∃ handle, call handle (.ok value) ∈ log := by
  cases h with
  | @found _ handle _ _ _ _ _ hcalled =>
    cases hcalled with
    | done => exact ⟨handle, by simp⟩

/-- What a task has sent, when it has sent anything. -/
theorem Ran.frames {log later : List (Event connection)}
    {work : Except ProtocolFailure α → List (Event connection) → Prop}
    (hsilent : ∀ result worked, work result worked → ∀ e ∈ worked, frame? e = none)
    (h : Ran service requestId work message responses (log ++ later)) :
    log.filterMap frame? = [] ∨ ∃ result worked expired script, work result worked ∧
      worked ++ [⟨.join requestId, expired⟩, ⟨.removeActive requestId, ()⟩] ⊆ log ∧
      Scripted service requestId (outcomeResponses responses (timed message expired result))
        script ∧
      log.filterMap frame? <+: onWire requestId script := by
  obtain ⟨result, worked, expired, replies, hwork, hreplies, hlog⟩ := h.parts
  have hcut : log ++ later =
      (worked ++ [⟨.join requestId, expired⟩, ⟨.removeActive requestId, ()⟩]) ++ replies := by
    simpa using hlog
  refine (frames_of_cut hcut ?_).imp_right ?_
  · exact List.forall_mem_append.mpr ⟨hsilent _ _ hwork, by simp [frame?]⟩
  · rintro ⟨sent, rfl, hsent, hframes⟩
    obtain ⟨script, hscript, hbegins⟩ := hreplies.scripted
    refine ⟨result, worked, expired, script, hwork, List.subset_append_left _ _, hscript, ?_⟩
    rw [hframes]
    exact (hsent.filterMap frame?).trans hbegins

end

section
variable {l : Link} {frame : ClientFrame} {job : Job}

theorem following_query (hjob : l.jobs frame.requestId = some job)
    (hrequest : frame.request = .query query values readOnly stream limits)
    (htask : job.task = .query databaseId query values readOnly stream limits)
    (hrun : (runTask E service frame.requestId job.task).Run job.log job.rest) :
    Following service l frame (job.log.filterMap frame?) := by
  obtain ⟨later, q, result, -, -, hran⟩ :=
    (runTask_performs E job.task).begun ConnectionOp.ans_nonempty hrun
  rw [htask] at hran
  obtain hnil | ⟨result, worked, expired, script, hwork, hworked, hscript, hbegins⟩ :=
    Ran.frames (fun _ _ hwork => hwork.frames fun _ _ => rfl) hran.2
  · rw [hnil]
    exact .nil service l frame
  · refine ⟨script, ?_, hbegins⟩
    cases result with
    | error error => exact .single rfl hscript
    | ok value =>
      cases value with
      | write result => exact .single rfl hscript
      | read result =>
        cases stream with
        | false => exact .single rfl hscript
        | true =>
          obtain ⟨handle, hmem⟩ := hwork.call_mem
          exact .streamed hrequest ⟨job, hjob, hworked (List.mem_append_left _ hmem)⟩ hscript

theorem following_transaction (htask : job.task = .transaction databaseId statements)
    (hrun : (runTask E service frame.requestId job.task).Run job.log job.rest) :
    Following service l frame (job.log.filterMap frame?) := by
  obtain ⟨later, q, result, -, -, hran⟩ :=
    (runTask_performs E job.task).begun ConnectionOp.ans_nonempty hrun
  rw [htask] at hran
  obtain hnil | ⟨result, worked, expired, script, -, -, hscript, hbegins⟩ :=
    Ran.frames (fun _ _ hwork => hwork.frames fun _ _ => rfl) hran.2
  · rw [hnil]
    exact .nil service l frame
  · refine ⟨script, ?_, hbegins⟩
    cases result with
    | error error => exact .single rfl hscript
    | ok value => exact .single rfl hscript

theorem following_export (hrequest : frame.request = .snapshotExport database)
    (htask : job.task = .snapshotExport database)
    (hrun : (runTask E service frame.requestId job.task).Run job.log job.rest) :
    Following service l frame (job.log.filterMap frame?) := by
  obtain ⟨later, q, result, -, -, hran⟩ :=
    (runTask_performs E job.task).begun ConnectionOp.ans_nonempty hrun
  rw [htask] at hran
  obtain ⟨-, exported, replies, result, hexported, hlog, hreplies⟩ := hran
  obtain hnil | ⟨sent, -, hsent, hframes⟩ := frames_of_cut hlog (Silent.of_daemon hexported).frames
  · rw [hnil]
    exact .nil service l frame
  · obtain ⟨script, hscript, hbegins⟩ := hreplies.scripted
    refine ⟨script, ?_, hframes ▸ (hsent.filterMap frame?).trans hbegins⟩
    cases result with
    | error error => exact .single rfl hscript
    | ok bytes => exact .exported hrequest hscript

/-- What the connection itself sends about a frame. -/
theorem following_turn (hrun : (receive E service frame state).Run log rest) :
    Following service l frame (log.filterMap frame?) := by
  obtain ⟨later, q, result, -, -, hhandled⟩ :=
    receive_performs.begun ConnectionOp.ans_nonempty hrun
  have hquiet (h : ∀ e ∈ log ++ later, frame? e = none) :
      Following service l frame (log.filterMap frame?) := by
    rw [List.filterMap_eq_nil_iff.mpr fun e he => h e (List.mem_append_left _ he)]
    exact .nil service l frame
  generalize hall : log ++ later = all at hquiet hhandled
  cases hhandled with
  | answered hwork hreply hposted =>
    obtain hnil | ⟨sent, -, hsent, hframes⟩ := frames_of_cut hall hwork.frames
    · rw [hnil]
      exact .nil service l frame
    · obtain ⟨script, hscript, hbegins⟩ := hposted.scripted
      exact ⟨script, .single (ServerResponse.isTerminal_of_replies hreply) hscript,
        hframes ▸ (hsent.filterMap frame?).trans hbegins⟩
  | taken => exact hquiet (by simp [frame?])
  | launched => exact hquiet (by simp [frame?])
  | exporting => exact hquiet (by simp [frame?])

end

-- ---------------------------------------------------------------------------
-- The whole connection
-- ---------------------------------------------------------------------------

namespace Link

variable {E : Engine} {service : Service} {l : Link} {t : Turn} {frame : ClientFrame}

theorem Kept.frame_turn (h : l.Kept E service) (ht : t ∈ l.turns)
    (hf : f ∈ t.log.filterMap frame?) :
    ∃ state frame, t.before = .session state ∧ t.incoming = .frame frame ∧
      frame.requestId = f.requestId := by
  obtain ⟨e, he, hframe⟩ := List.mem_filterMap.mp hf
  have hop : e.op = .send f := op_of_frame? hframe
  exact h.talk.subject ht (List.mem_map.mpr ⟨e, he, hop⟩) rfl

/-- What the connection itself has sent about a request, it has sent in its turn. -/
theorem Kept.mainFrames_of (h : l.Kept E service) (hincreasing : Increasing l.turns)
    (ht : t ∈ l.turns) (hframe : t.incoming = .frame frame) :
    (l.mainFrames.filter fun f => f.requestId = frame.requestId) = t.log.filterMap frame? := by
  obtain ⟨pre, post, hturns⟩ := List.append_of_mem ht
  rw [hturns] at hincreasing
  have hothers (u : Turn) (hu : u ∈ pre ++ post) :
      (u.log.filterMap frame?).filter (fun f => f.requestId = frame.requestId) = [] := by
    refine List.filter_eq_nil_iff.mpr fun f hf => ?_
    have hmem : u ∈ l.turns := by
      rw [hturns]
      exact ((List.sublist_cons_self t post).append_left pre).subset hu
    obtain ⟨_, received, -, hincoming, hid⟩ := h.frame_turn hmem hf
    simpa [hid] using hincreasing.others hframe u hu received hincoming
  have hown : (t.log.filterMap frame?).filter (fun f => f.requestId = frame.requestId) =
      t.log.filterMap frame? := by
    refine List.filter_eq_self.mpr fun f hf => ?_
    obtain ⟨_, received, -, hincoming, hid⟩ := h.frame_turn ht hf
    cases hframe.symm.trans hincoming
    simp [hid]
  have hnil (turns : List Turn) (hsub : turns ⊆ pre ++ post) : turns.flatMap (fun u =>
      (u.log.filterMap frame?).filter fun f => f.requestId = frame.requestId) = [] :=
    List.flatMap_eq_nil_iff.mpr fun u hu => hothers u (hsub hu)
  rw [mainFrames, hturns, List.filter_flatMap, List.flatMap_append, List.flatMap_cons, hown,
    hnil pre (by simp), hnil post (by simp)]
  simp

/-- The task of a request was started in the turn of the request, and everything in
the queue about the request is from the task. -/
theorem Reachable.tasked (h : l.Reachable E service) (hincreasing : Increasing l.turns)
    (ht : t ∈ l.turns) (hframe : t.incoming = .frame frame)
    (hjob : l.jobs frame.requestId = some job) :
    (∃ state state', t.before = .session state ∧ Launches E frame state state' job.task) ∧
      l.framesOf frame.requestId = job.log.filterMap frame? := by
  have hkept := h.kept
  obtain ⟨u, hu, hspawn⟩ := hkept.started _ job hjob
  obtain ⟨state, received, p, hbefore, hincoming, hreceive, -⟩ :=
    handleIncoming_receives (hkept.talk.run hu) hspawn rfl
  obtain ⟨hid, -, ⟨state', -, hlaunches⟩, hlog⟩ := receive_spawns hreceive hspawn
  obtain rfl : u = t := hincreasing.unique ht hu hframe hincoming hid.symm
  cases hframe.symm.trans hincoming
  have hsilent : u.log.filterMap frame? = [] := by
    obtain hlog | ⟨hlog, -⟩ := hlog <;> simp [hlog, frame?]
  refine ⟨⟨state, state', hbefore, hlaunches⟩, ?_⟩
  rw [h.queued hincreasing, hkept.mainFrames_of hincreasing ht hframe, hsilent]
  simp [jobFrames, hjob]

/-- The events of a request follow a script. -/
theorem Reachable.following (h : l.Reachable E service) (hincreasing : Increasing l.turns)
    (ht : t ∈ l.turns) (hbefore : t.before = .session state) (hframe : t.incoming = .frame frame) :
    Following service l frame (l.framesOf frame.requestId) := by
  have hkept := h.kept
  cases hjob : l.jobs frame.requestId with
  | none =>
    have hrun := hkept.talk.run ht
    rw [hbefore, hframe] at hrun
    obtain ⟨p, hreceive, -⟩ := handleIncoming_frame hrun
    rw [h.queued hincreasing, hkept.mainFrames_of hincreasing ht hframe]
    simpa [jobFrames, hjob] using following_turn hreceive
  | some job =>
    obtain ⟨⟨_, state', -, hlaunches⟩, hframes⟩ := h.tasked hincreasing ht hframe hjob
    have hrun := hkept.runs _ job hjob
    rw [hframes]
    generalize htask : job.task = task at hlaunches
    cases hlaunches with
    | query hrequest => exact following_query hjob hrequest htask hrun
    | commit => exact following_transaction htask hrun
    | snapshotExport hrequest => exact following_export hrequest htask hrun

end Link

/-- What the client of a connection can rely on, at any moment. -/
structure Responsive (service : Service) (l : Link) : Prop where
  /-- The events of each request that was taken up are the first ones of its script,
  which ends with the only terminal event in it. -/
  followed : ∀ t ∈ l.turns, ∀ state frame, t.before = .session state →
    t.incoming = .frame frame → ∃ script, Script service l frame script ∧ Proper script ∧
      l.framesOf frame.requestId <+: onWire frame.requestId script
  /-- No other events are in the queue. -/
  requested : ∀ f ∈ l.frames, ∃ t ∈ l.turns, ∃ state frame, t.before = .session state ∧
    t.incoming = .frame frame ∧ frame.requestId = f.requestId
  bounded : ∀ f ∈ l.frames, service.Fits f
  /-- No request is found active already. -/
  fresh : ∀ t ∈ l.turns, ∀ r, (⟨.insertActive r, true⟩ : Event connection) ∉ t.log

section
variable {ι : Type} [DecidableEq ι] {E : Engine} {service : Service} {uuids : Nat → String}
  {d : Daemon} {s : Server ι} {i : ι}

theorem Link.Reachable.requested {l : Link} (h : l.Reachable E service)
    (hincreasing : Increasing l.turns) (hf : f ∈ l.frames) :
    ∃ t ∈ l.turns, ∃ state frame, t.before = .session state ∧ t.incoming = .frame frame ∧
      frame.requestId = f.requestId := by
  have hmem : f ∈ l.framesOf f.requestId := List.mem_filter.mpr ⟨hf, by simp⟩
  rw [h.queued hincreasing] at hmem
  rcases List.mem_append.mp hmem with hmem | hmem
  · obtain ⟨t, ht, hf⟩ := List.mem_flatMap.mp (List.mem_filter.mp hmem).1
    exact ⟨t, ht, h.kept.frame_turn ht hf⟩
  · unfold Link.jobFrames at hmem
    split at hmem
    · rename_i job hjob
      obtain ⟨t, ht, hspawn⟩ := h.kept.started _ job hjob
      exact ⟨t, ht, h.kept.talk.subject ht hspawn rfl⟩
    · cases hmem

/-- Every request gets one well-formed sequence of events that fit, whatever the
connections, their tasks and their timers do, and in whatever order. -/
theorem requests_are_answered (h : Server.Reaches E service uuids (.initial d) s)
    (hincreasing : Increasing (s.links i).turns) : Responsive service (s.links i) := by
  have hlink := h.link i
  refine ⟨fun t ht state frame hbefore hframe => ?_, fun f hf => hlink.requested hincreasing hf,
    fun f hf => ?_, hlink.registered.fresh⟩
  · obtain ⟨script, hscript, hbegins⟩ := hlink.following hincreasing ht hbefore hframe
    exact ⟨script, hscript, hscript.scripted.1, hbegins⟩
  · obtain ⟨t, ht, state, frame, hbefore, hframe, hid⟩ := hlink.requested hincreasing hf
    obtain ⟨script, hscript, hbegins⟩ := hlink.following hincreasing ht hbefore hframe
    have hmem : f ∈ (s.links i).framesOf frame.requestId := List.mem_filter.mpr ⟨hf, by simp [hid]⟩
    obtain ⟨response, hresponse, rfl⟩ := List.mem_map.mp (hbegins.subset hmem)
    exact hscript.scripted.2 response hresponse

/-- A ping between the first and the last event of a streamed result. -/
def pingedStream : Option (Server Unit) :=
  Server.run .plain .plain (fun _ => "") (.initial (.single (.plain "data") "id" "main" [0]))
    (Act.request () 1 (.hello 1 "query" "client") 1 ++ Act.request () 2 (.selectDatabase "main") 4 ++
      Act.request () 3 (.query "q" [] false true none) 2 ++ Act.jobs () 3 11 ++
      Act.request () 4 .ping 1)

theorem requests_are_answered_pinged : ∃ s, pingedStream = some s ∧
    ((s.links ()).frames.map fun f => (f.requestId, f.response.isTerminal)) =
      [(2, true), (3, false), (4, true)] ∧ Responsive .plain (s.links ()) := by
  have h : (pingedStream.any fun s => decide (Increasing (s.links ()).turns ∧
      ((s.links ()).frames.map fun f => (f.requestId, f.response.isTerminal)) =
        [(2, true), (3, false), (4, true)])) = true := by decide +kernel
  obtain ⟨s, hs, h⟩ := (Option.any_eq_true _ _).mp h
  obtain ⟨hincreasing, hframes⟩ := of_decide_eq_true h
  exact ⟨s, hs, hframes, requests_are_answered (Server.reaches_of_run hs) hincreasing⟩

end

end NostdbServer
