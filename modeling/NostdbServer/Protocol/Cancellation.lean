import NostdbServer.Protocol.Responses

/-!
# Cancellation

A query or a commit is reported as cancelled only when a cancel request found it
active, or the connection left: a task looks at its token, which its timer cancels
too, but then the timeout is what it reports. A cancel request finds its target
as long as nothing was sent about it. Only the way out of the loop cancels what is
still active; a connection that ends by an error skips it.
-/

namespace NostdbServer

open Effects

/-- The requests that are active while their task works. -/
def ClientRequest.executes : ClientRequest → Bool
  | .query _ _ _ _ _ | .commit => true
  | _ => false

def ServerResponse.code? : ServerResponse → Option ErrorCode
  | .error code _ _ => some code
  | _ => none

-- ---------------------------------------------------------------------------
-- Who reports a request as cancelled
-- ---------------------------------------------------------------------------

section
variable {service : Service} {requestId : UInt64} {state : ConnectionState} {frame : ClientFrame}

theorem refuse_uncancelled (h : code ≠ .cancelled) :
    (refuse service requestId state code message).Only (S := connection) fun o =>
      ConnectionOp.errorCode? o ≠ some .cancelled := by
  refine Prog.Only.bind (sendResponse_sends ?_ ?_) fun _ => trivial
  · simpa [ConnectionOp.errorCode?, ProtocolFailure.new] using h
  · simp [ConnectionOp.errorCode?, failureFrame, tooLarge, ProtocolFailure.new]

theorem launch_uncancelled : (launch requestId state task).Only (S := connection) fun o =>
    ConnectionOp.errorCode? o ≠ some .cancelled := by
  refine Prog.Only.step (by simp [ConnectionOp.errorCode?]) ?_
  rintro (_ | _)
  · exact Prog.Only.step (by simp [ConnectionOp.errorCode?]) fun _ => trivial
  · trivial

/-- The connection itself does not answer a query or a commit so. -/
theorem receive_uncancelled (h : frame.request.executes = true) :
    (receive E service frame state).Only (S := connection) fun o =>
      ConnectionOp.errorCode? o ≠ some .cancelled := by
  have hrefuse {state : ConnectionState} {code : ErrorCode} {message : String}
      (h : code ≠ .cancelled) : (refuse service frame.requestId state code message).Only
        (S := connection) fun o => ConnectionOp.errorCode? o ≠ some .cancelled :=
    refuse_uncancelled h
  unfold receive
  split
  · exact hrefuse (by decide)
  unfold dispatch
  dsimp only
  split
  · exact hrefuse (by decide)
  split
  · exact hrefuse (by decide)
  split <;> rename_i hrequest <;> rw [hrequest] at h
  case h_4 =>
    unfold dispatchQuery
    split
    · exact hrefuse (by decide)
    · unfold enqueue
      split
      · exact hrefuse (by decide)
      split
      · exact hrefuse (by decide)
      split
      · exact hrefuse (by decide)
      · refine Prog.Only.bind (sendResponse_sends ?_ ?_) fun _ => trivial
        · simp [ConnectionOp.errorCode?]
        · simp [ConnectionOp.errorCode?, failureFrame, tooLarge, ProtocolFailure.new]
    · exact launch_uncancelled
  case h_6 =>
    unfold dispatchCommit
    split
    · exact hrefuse (by decide)
    dsimp only
    split
    · exact hrefuse (by decide)
    split
    · exact hrefuse (by decide)
    · exact launch_uncancelled
  all_goals cases h

end

theorem Scripted.mem (h : Scripted service requestId responses script) (hx : x ∈ script) :
    x ∈ responses ∨ x = tooLarge.response := by
  cases h with
  | whole => exact .inl hx
  | cut h =>
    refine (List.mem_append.mp hx).imp (fun hx => ?_) List.mem_singleton.mp
    rw [h]
    exact List.mem_append_left _ hx

theorem databaseFailure_cancelled (h : (databaseFailure error cancelled).code = .cancelled) :
    cancelled = some true := by
  unfold databaseFailure at h
  split at h
  · split at h
    · assumption
    · cases h
  all_goals cases h

section
variable {call : ManagedDatabase → Except DatabaseError α → Event connection}

/-- A worker fails so only after it has seen its token cancelled. -/
theorem Worked.cancelled (h : Worked databaseId token call refusal (.error error) log)
    (hrefusal : ∀ error, refusal = some error → error.code ≠ .cancelled)
    (hcode : error.code = .cancelled) : ⟨.isCancelled token, true⟩ ∈ log := by
  cases h with
  | refused h => exact absurd hcode (hrefusal _ h)
  | missing _ _ hother =>
    rw [hcode] at hother
    obtain hother | hother := hother <;> cases hother
  | found _ _ _ hcalled =>
    cases hcalled with
    | unavailable => cases hcode
    | failed _ _ hcancelled =>
      cases databaseFailure_cancelled hcode
      simp [hcancelled]

theorem Ran.cancelled {log later : List (Event connection)} {f : ServerFrame}
    (hcall : ∀ handle answer, frame? (call handle answer) = none)
    (hrefusal : ∀ error, refusal = some error → error.code ≠ .cancelled)
    (hresponses : ∀ value, ∀ response ∈ responses value, response.code? = none)
    (h : Ran service requestId (Worked databaseId token call refusal) message responses
      (log ++ later))
    (hf : f ∈ log.filterMap frame?) :
    ⟨.removeActive requestId, ()⟩ ∈ log ∧ (f.response.code? = some .cancelled →
      ⟨.join requestId, false⟩ ∈ log ∧ ⟨.isCancelled token, true⟩ ∈ log) := by
  obtain hnil | ⟨result, worked, expired, script, hwork, hworked, hscript, hbegins⟩ :=
    Ran.frames (fun _ _ hwork => hwork.frames hcall) h
  · simp [hnil] at hf
  refine ⟨hworked (by simp), fun hcode => ?_⟩
  obtain ⟨response, hresponse, rfl⟩ := List.mem_map.mp (hbegins.subset hf)
  obtain hresponse | rfl := hscript.mem hresponse
  · cases result with
    | ok value => simp [hresponses value response hresponse] at hcode
    | error error =>
      cases List.mem_singleton.mp hresponse
      cases expired with
      | true => cases hcode
      | false =>
        have hcode : error.code = .cancelled := Option.some.inj hcode
        exact ⟨hworked (by simp),
          hworked (List.mem_append_left _ (hwork.cancelled hrefusal hcode))⟩
  · cases hcode

end

theorem queryRefusal_code (h : queryRefusal E service query values readOnly = some error) :
    error.code ≠ .cancelled := by
  unfold queryRefusal at h
  split at h
  · cases h
    decide
  split at h <;> cases h
  simp [ProtocolFailure.new]

theorem transactionRefusal_code (h : transactionRefusal service statements = some error) :
    error.code ≠ .cancelled := by
  unfold transactionRefusal at h
  split at h <;> cases h
  simp [ProtocolFailure.new]

theorem statementResponses_code (stream : Bool) (value : StatementResult) :
    ∀ response ∈ statementResponses stream value, response.code? = none := by
  cases value with
  | read result =>
    cases stream with
    | true => simp [statementResponses, ServerResponse.code?, or_imp, forall_and]
    | false => simp [statementResponses, ServerResponse.code?]
  | write result => simp [statementResponses, ServerResponse.code?]

/-- The task of a query or a commit answers when it is no longer active, and with
`cancelled` only if its token was. -/
theorem runTask_answers (htask : ∀ database, task ≠ .snapshotExport database)
    (hrun : (runTask E service requestId task).Run log rest) (hf : f ∈ log.filterMap frame?) :
    ⟨.removeActive requestId, ()⟩ ∈ log ∧ (f.response.code? = some .cancelled →
      ⟨.join requestId, false⟩ ∈ log ∧ ⟨.isCancelled requestId, true⟩ ∈ log) := by
  obtain ⟨later, q, result, -, -, hran⟩ :=
    (runTask_performs E task).begun ConnectionOp.ans_nonempty hrun
  cases task with
  | query databaseId query values readOnly stream limits =>
    exact hran.2.cancelled (fun _ _ => rfl) (fun _ => queryRefusal_code)
      (statementResponses_code stream) hf
  | transaction databaseId statements =>
    exact hran.2.cancelled (fun _ _ => rfl) (fun _ => transactionRefusal_code)
      (by simp [ServerResponse.code?]) hf
  | snapshotExport database => exact absurd rfl (htask database)

-- ---------------------------------------------------------------------------
-- A cancel request
-- ---------------------------------------------------------------------------

def notActive : ProtocolFailure :=
  .new .protocolViolation "target request is not active on this connection"

/-- What is done about a cancel request that finds its target, and about one that
does not. -/
def cancelEvents (requestId target : UInt64) (accepted : Bool) : Bool → List (Event connection)
  | true => [⟨.isActive target, true⟩, ⟨.cancel target, ()⟩,
      ⟨.send ⟨requestId, .cancelled target⟩, accepted⟩]
  | false => [⟨.isActive target, false⟩, ⟨.send (failureFrame requestId notActive), accepted⟩]

section
variable {service : Service} {requestId : UInt64} {state : ConnectionState} {frame : ClientFrame}

theorem Posted.single {r : Except String α} (hfits : service.Fits ⟨requestId, response⟩)
    (h : Posted service requestId [response] r log) :
    ∃ accepted, log = [⟨.send ⟨requestId, response⟩, accepted⟩] := by
  cases r with
  | ok _ => exact ⟨true, h.2⟩
  | error _ =>
    cases h with
    | closed => exact ⟨false, rfl⟩
    | replaced hnot => exact absurd hfits hnot
    | next _ h => cases h

theorem answer_performs (hfits : service.Fits ⟨requestId, response⟩) :
    Performs (answer service requestId state response) fun _ log =>
      ∃ accepted, log = [⟨.send ⟨requestId, response⟩, accepted⟩] := by
  refine Performs.bind (sendResponse_delivers response) ?_ ?_
  · rintro ⟨⟩ log hlog
    exact Performs.pure (by simpa using Posted.single (r := .ok ()) hfits hlog)
  · exact fun message log hlog => Posted.single (r := (.error message : Except String Unit)) hfits hlog

theorem receive_cancels (hrequest : frame.request = .cancel target)
    (hnew : state.lastRequestId < frame.requestId) :
    Performs (receive E service frame state) fun _ log =>
      ∃ accepted found, log = cancelEvents frame.requestId target accepted found := by
  have heq : receive E service frame state = dispatchCancel service frame.requestId
      { state with lastRequestId := frame.requestId } target := by
    simp [receive, UInt64.not_le.mpr hnew, dispatch, hrequest, isAdminRequest,
      changesDatabaseContext]
  rw [heq]
  refine Performs.step fun found => ?_
  cases found with
  | false =>
    have hfits : service.Fits (failureFrame frame.requestId notActive) :=
      service.fits_failure (by decide +kernel) frame.requestId
    refine (answer_performs hfits).mono ?_
    rintro r log ⟨accepted, rfl⟩
    exact ⟨accepted, false, rfl⟩
  | true =>
    have hfits : service.Fits ⟨frame.requestId, .cancelled target⟩ :=
      service.fits_number "cancelled" "target_request_id" rfl rfl target.toNat_lt (by decide +kernel)
        frame.requestId
    refine Performs.step fun _ => (answer_performs hfits).mono ?_
    rintro r log ⟨accepted, rfl⟩
    exact ⟨accepted, true, rfl⟩

/-- Only a cancel request cancels, and only the request it names. -/
theorem receive_cancelling : (receive E service frame state).Only (S := connection) fun o =>
    ∀ target, o = .cancel target ∨ o = .isActive target →
      frame.request = .cancel target ∧ state.lastRequestId < frame.requestId := by
  unfold receive
  split
  · exact refuse_only (by simp)
  · rename_i hnew
    refine dispatch_only (by simp) (by simp) (by simp) ?_ (by simp) (by simp) (by simp)
    intro target hrequest
    have hnew := UInt64.not_le.mp hnew
    simp [hrequest, hnew]

/-- What a turn that has entered its request into the map of active ones is about. -/
theorem receive_inserted (h : (receive E service frame state).Run log rest)
    (hmem : .insertActive r ∈ log.map Event.op)
    (hfresh : (⟨.insertActive r, true⟩ : Event connection) ∉ log) :
    frame.requestId = r ∧ frame.request.executes = true ∧ state.lastRequestId < r ∧
      log.filterMap frame? = [] := by
  obtain ⟨later, q, result, -, -, hhandled⟩ :=
    receive_performs.begun ConnectionOp.ans_nonempty h
  obtain ⟨e, he, hop⟩ := List.mem_map.mp hmem
  have hall : e ∈ log ++ later := List.mem_append_left _ he
  generalize hlog : log ++ later = all at hall hhandled
  cases hhandled with
  | answered hwork _ hposted =>
    rcases List.mem_append.mp hall with hall | hall
    · have := hwork e hall
      rw [hop] at this
      cases this
    · obtain ⟨response, hsend⟩ := hposted.sends e hall
      cases hop.symm.trans hsend
  | taken =>
    cases List.mem_singleton.mp hall
    cases hop
    exact absurd he hfresh
  | launched hl hexport =>
    have hr : frame.requestId = r := by
      rcases List.mem_cons.mp hall with rfl | hall
      · exact ConnectionOp.insertActive.inj hop
      · cases List.mem_singleton.mp hall
        cases hop
    refine ⟨hr, ?_, hr ▸ hl.1, List.filterMap_eq_nil_iff.mpr fun e he => ?_⟩
    · cases hl.2 with
      | query hrequest => simp [hrequest, ClientRequest.executes]
      | commit hrequest => simp [hrequest, ClientRequest.executes]
      | snapshotExport => exact absurd rfl (hexport _)
    · have he := hlog ▸ List.mem_append_left later he
      rcases List.mem_cons.mp he with rfl | he
      · rfl
      · cases List.mem_singleton.mp he
        rfl
  | exporting =>
    cases List.mem_singleton.mp hall
    cases hop

end

-- ---------------------------------------------------------------------------
-- The whole connection
-- ---------------------------------------------------------------------------

/-- The turn has dispatched the query or commit `r`. -/
def Turn.Executes (t : Turn) (r : UInt64) : Prop :=
  ∃ state frame, t.before = .session state ∧ t.incoming = .frame frame ∧ frame.requestId = r ∧
    frame.request.executes = true ∧ state.lastRequestId < r

/-- The turn has dispatched a cancel request that found `r` active. -/
def Turn.Cancels (t : Turn) (r : UInt64) : Prop :=
  ∃ state frame, t.before = .session state ∧ t.incoming = .frame frame ∧
    frame.request = .cancel r ∧ state.lastRequestId < frame.requestId ∧ ⟨.isActive r, true⟩ ∈ t.log

namespace Link

variable {E : Engine} {service : Service} {l : Link} {t : Turn} {frame : ClientFrame}

theorem Kept.cancelling (h : l.Kept E service) (hdid : l.Did (.cancel r)) :
    ∃ t ∈ l.turns, t.Cancels r := by
  obtain ⟨t, ht, hmem⟩ := hdid
  obtain ⟨state, frame, p, hbefore, hincoming, hrun, -⟩ :=
    handleIncoming_receives (h.talk.run ht) hmem rfl
  obtain ⟨e, he, hop⟩ := List.mem_map.mp hmem
  obtain ⟨hrequest, hnew⟩ := (hrun.only receive_cancelling).1 e he r (.inl hop)
  refine ⟨t, ht, state, frame, hbefore, hincoming, hrequest, hnew, ?_⟩
  obtain ⟨later, q, result, -, -, accepted, found, hlog⟩ :=
    (receive_cancels hrequest hnew).begun ConnectionOp.ans_nonempty hrun
  generalize t.log = log at he hlog
  cases log with
  | nil => cases he
  | cons first rest =>
    cases found with
    | true =>
      cases (List.cons.inj hlog).1
      exact List.mem_cons_self
    | false =>
      have he : e ∈ cancelEvents frame.requestId r accepted false :=
        hlog ▸ List.mem_append_left later he
      obtain rfl | rfl : _ ∨ _ := by simpa [cancelEvents] using he
      all_goals cases hop

/-- The task of a query or a commit is no export. -/
theorem Kept.executing (h : l.Kept E service) (hincreasing : Increasing l.turns)
    (ht : t ∈ l.turns) (hframe : t.incoming = .frame frame)
    (hexecutes : frame.request.executes = true) (hjob : l.jobs frame.requestId = some job) :
    ∀ database, job.task ≠ .snapshotExport database := by
  intro database htask
  obtain ⟨u, hu, hspawn⟩ := h.started _ job hjob
  obtain ⟨state, received, p, -, hincoming, hrun, -⟩ :=
    handleIncoming_receives (h.talk.run hu) hspawn rfl
  obtain ⟨hid, -, ⟨state', -, hlaunches⟩, -⟩ := receive_spawns hrun hspawn
  obtain rfl : u = t := hincreasing.unique ht hu hframe hincoming hid.symm
  cases hframe.symm.trans hincoming
  rw [htask] at hlaunches
  cases hlaunches with
  | snapshotExport hrequest => simp [hrequest, ClientRequest.executes] at hexecutes

/-- A query or a commit that is reported as cancelled. -/
theorem Reachable.caused (h : l.Reachable E service) (hincreasing : Increasing l.turns)
    (ht : t ∈ l.turns) (hbefore : t.before = .session state) (hframe : t.incoming = .frame frame)
    (hexecutes : frame.request.executes = true) (hf : f ∈ l.framesOf frame.requestId)
    (hcode : f.response.code? = some .cancelled) :
    l.expired frame.requestId = false ∧
      (l.Did .cancelAll ∨ ∃ u ∈ l.turns, u.Cancels frame.requestId) := by
  have hkept := h.kept
  rw [h.queued hincreasing, hkept.mainFrames_of hincreasing ht hframe] at hf
  rcases List.mem_append.mp hf with hf | hf
  · have hrun := hkept.talk.run ht
    rw [hbefore, hframe] at hrun
    obtain ⟨p, hreceive, -⟩ := handleIncoming_frame hrun
    obtain ⟨e, he, hsent⟩ := List.mem_filterMap.mp hf
    have hnot := (hreceive.only (receive_uncancelled hexecutes)).1 e he
    rw [op_of_frame? hsent] at hnot
    obtain ⟨_, response⟩ := f
    cases response <;> simp_all [ServerResponse.code?, ConnectionOp.errorCode?]
  · unfold jobFrames at hf
    split at hf
    · rename_i job hjob
      obtain ⟨hjoined, hnoticed⟩ :=
        (runTask_answers (hkept.executing hincreasing ht hframe hexecutes hjob)
          (hkept.runs _ job hjob) hf).2 hcode
      have hexpired := h.tokens.joined _ _ ⟨job, hjob, hjoined⟩
      refine ⟨hexpired, ?_⟩
      obtain hexpired' | hcancel | hleft :=
        h.tokens.caused _ (h.tokens.noticed _ ⟨job, hjob, hnoticed⟩)
      · simp [hexpired] at hexpired'
      · exact .inr (hkept.cancelling hcancel)
      · exact .inl hleft
    · cases hf

/-- Nothing was sent about a request that is active. -/
theorem Reachable.silent (h : l.Reachable E service) (hincreasing : Increasing l.turns)
    (hactive : l.active r = true) : l.framesOf r = [] ∧ ∃ t ∈ l.turns, t.Executes r := by
  have hkept := h.kept
  obtain ⟨t, ht, hinserted⟩ := h.registered.inserted r hactive
  obtain ⟨state, frame, p, hbefore, hincoming, hrun, -⟩ :=
    handleIncoming_receives (hkept.talk.run ht) hinserted rfl
  obtain ⟨rfl, hexecutes, hnew, hquiet⟩ :=
    receive_inserted hrun hinserted (h.registered.fresh t ht r)
  refine ⟨?_, t, ht, state, frame, hbefore, hincoming, rfl, hexecutes, hnew⟩
  rw [h.queued hincreasing, hkept.mainFrames_of hincreasing ht hincoming, hquiet, List.nil_append,
    List.eq_nil_iff_forall_not_mem]
  intro f hf
  unfold jobFrames at hf
  split at hf
  · rename_i job hjob
    have hremoved := (runTask_answers (hkept.executing hincreasing ht hincoming hexecutes hjob)
      (hkept.runs _ job hjob) hf).1
    simp [h.registered.released _ ⟨job, hjob, hremoved⟩] at hactive
  · cases hf

end Link

/-- What cancellation does on a connection, at any moment. -/
structure CancelsExactly (l : Link) : Prop where
  /-- A query or a commit is reported as cancelled only if its timer has not fired,
  and a cancel request found it active or the connection has left. -/
  caused : ∀ t ∈ l.turns, ∀ state frame, t.before = .session state → t.incoming = .frame frame →
    frame.request.executes = true → ∀ f ∈ l.framesOf frame.requestId,
      f.response.code? = some .cancelled → l.expired frame.requestId = false ∧
        (l.Did .cancelAll ∨ ∃ u ∈ l.turns, u.Cancels frame.requestId)
  /-- A cancel request does nothing but look for its target, cancel it if it was
  found, and answer, which is the one answer it gets. -/
  answered : ∀ t ∈ l.turns, ∀ state frame target, t.before = .session state →
    t.incoming = .frame frame → frame.request = .cancel target →
      l.framesOf frame.requestId = t.log.filterMap frame? ∧
        ∃ accepted found, t.log <+: cancelEvents frame.requestId target accepted found
  /-- When it looks, it finds only an earlier query or commit about which nothing
  was sent. -/
  found : ∀ t target next, l.turn = some t → t.rest = .op (.isActive target) next →
    ∀ c, l.answer c (.isActive target) = some true →
      l.framesOf target = [] ∧ ∃ u ∈ l.past, u.Executes target

section
variable {ι : Type} [DecidableEq ι] {E : Engine} {service : Service} {uuids : Nat → String}
  {d : Daemon} {s : Server ι} {i : ι}

theorem cancellation_is_exact (h : Server.Reaches E service uuids (.initial d) s)
    (hincreasing : Increasing (s.links i).turns) : CancelsExactly (s.links i) := by
  have hlink := h.link i
  have hkept := hlink.kept
  refine ⟨fun t ht state frame hbefore hframe hexecutes f hf hcode =>
      hlink.caused hincreasing ht hbefore hframe hexecutes hf hcode,
    fun t ht state frame target hbefore hframe hrequest => ?_,
    fun t target next hturn hrest c hactive => ?_⟩
  · have hrun := hkept.talk.run ht
    rw [hbefore, hframe] at hrun
    obtain ⟨p, hreceive, -⟩ := handleIncoming_frame hrun
    have hnew := hincreasing.dispatched hkept.talk ht hbefore hframe
    obtain ⟨later, q, result, -, -, accepted, found, hlog⟩ :=
      (receive_cancels hrequest hnew).begun ConnectionOp.ans_nonempty hreceive
    refine ⟨?_, accepted, found, later, hlog⟩
    rw [hlink.queued hincreasing, hkept.mainFrames_of hincreasing ht hframe, Link.jobFrames]
    split
    · rename_i job hjob
      obtain ⟨u, hu, hspawn⟩ := hkept.started _ job hjob
      obtain ⟨_, received, -, hincoming, hid⟩ := hkept.talk.subject hu hspawn rfl
      obtain rfl : u = t := hincreasing.unique ht hu hframe hincoming hid
      obtain ⟨-, -, ⟨state', -, hlaunches⟩, -⟩ := receive_spawns hreceive hspawn
      generalize job.task = task at hlaunches
      cases hlaunches with
      | query hother | commit hother | snapshotExport hother => cases hrequest.symm.trans hother
    · exact List.append_nil _
  · obtain ⟨hsilent, u, hu, hexecutes⟩ := hlink.silent hincreasing (Option.some.inj hactive)
    refine ⟨hsilent, u, ?_, hexecutes⟩
    rw [Link.turns_of_turn hturn] at hu
    refine (List.mem_append.mp hu).resolve_right fun hu => ?_
    -- The turn at hand is a cancel request.
    cases List.mem_singleton.mp hu
    have hrun := hkept.talk.run (t := t) (by simp [Link.turns_of_turn hturn])
    rw [hrest] at hrun
    obtain ⟨state, frame, next', -, hincoming, hreceive⟩ := handleIncoming_next hrun rfl
    have hrequest := ((hreceive.only receive_cancelling).2.1 target (.inr rfl)).1
    obtain ⟨_, frame', -, hincoming', -, hexecutes, -⟩ := hexecutes
    cases hincoming.symm.trans hincoming'
    simp [hrequest, ClientRequest.executes] at hexecutes

/-- A query that runs into its limits, cancelled before it does. -/
def cancelledQuery : Option (Server Unit) :=
  Server.run { Engine.plain with execute := fun _ _ _ => .error (.query .resourceLimit "") }
    .plain (fun _ => "") (.initial (.single (.plain "data") "id" "main" [0]))
    (Act.request () 1 (.hello 1 "query" "client") 1 ++ Act.request () 2 (.selectDatabase "main") 4 ++
      Act.request () 3 (.query "q" [] false true none) 2 ++ Act.jobs () 3 4 ++
      Act.request () 4 (.cancel 3) 3 ++ Act.jobs () 3 8)

theorem cancellation_is_exact_found : ∃ s, cancelledQuery = some s ∧
    ((s.links ()).frames.map fun f => (f.requestId, f.response.code?)) =
      [(2, none), (4, none), (3, some .cancelled)] ∧ CancelsExactly (s.links ()) := by
  have h : (cancelledQuery.any fun s => decide (Increasing (s.links ()).turns ∧
      ((s.links ()).frames.map fun f => (f.requestId, f.response.code?)) =
        [(2, none), (4, none), (3, some .cancelled)])) = true := by decide +kernel
  obtain ⟨s, hs, h⟩ := (Option.any_eq_true _ _).mp h
  obtain ⟨hincreasing, hframes⟩ := of_decide_eq_true h
  exact ⟨s, hs, hframes, cancellation_is_exact (Server.reaches_of_run hs) hincreasing⟩

-- ---------------------------------------------------------------------------
-- The end of a connection
-- ---------------------------------------------------------------------------

/-- The connection has come to the end of its loop, by end of stream, reset or
shutdown. -/
def Link.Leaves (l : Link) : Prop :=
  ∃ t state, l.turn = some t ∧ t.before = .session state ∧
    (t.incoming = .shutdown ∨ ∃ message, t.incoming = .endOfStream message)

theorem Link.Kept.left {l : Link} (h : l.Kept E service) (hleaves : l.Leaves)
    (hreturned : phaseAfter l.turns = some .closed) : l.Did .cancelAll := by
  obtain ⟨t, state, hturn, hbefore, hincoming⟩ := hleaves
  have ht : t ∈ l.turns := by simp [Link.turns_of_turn hturn]
  rw [Link.turns_of_turn hturn, phaseAfter_snoc] at hreturned
  have hrun := h.talk.run ht
  have hleave : handleIncoming E service t.before t.incoming = leave := by
    obtain hincoming | ⟨message, hincoming⟩ := hincoming <;> rw [hbefore, hincoming] <;> rfl
  rw [hleave] at hrun
  refine ⟨t, ht, ?_⟩
  unfold Turn.after at hreturned
  generalize t.log = log at hrun ⊢
  generalize t.rest = rest at hrun hreturned
  cases hrun with
  | refl => cases hreturned
  | step => exact List.mem_cons_self

/-- A connection that comes to the end of its loop cancels all that is still
active. -/
theorem leaving_cancels_all (h : Server.Reaches E service uuids (.initial d) s)
    (hleaves : (s.links i).Leaves) (hreturned : phaseAfter (s.links i).turns = some .closed) :
    ∀ r, (s.links i).active r = true → (s.links i).cancelled r = true :=
  (h.link i).tokens.left ((h.link i).kept.left hleaves hreturned)

/-- The client goes away while its query is being executed. -/
def leftQuery : Option (Server Unit) :=
  Server.run .plain .plain (fun _ => "") (.initial (.single (.plain "data") "id" "main" [0]))
    (Act.request () 1 (.hello 1 "query" "client") 1 ++ Act.request () 2 (.selectDatabase "main") 4 ++
      Act.request () 3 (.query "q" [] false true none) 2 ++ Act.jobs () 3 4 ++
      .receive () (.endOfStream "early eof") :: Act.mains () 1 ++ Act.jobs () 3 8 ++ Act.mains () 2)

def Phase.isClosed : Phase → Bool
  | .closed => true
  | _ => false

def Turn.leaves (t : Turn) : Bool :=
  match t.before, t.incoming with
  | .session _, .shutdown | .session _, .endOfStream _ => true
  | _, _ => false

theorem Link.returned_of_isClosed {l : Link} (h : (phaseAfter l.turns).any Phase.isClosed = true) :
    phaseAfter l.turns = some .closed := by
  obtain ⟨φ, hφ, hclosed⟩ := (Option.any_eq_true _ _).mp h
  cases φ with
  | closed => exact hφ
  | greeting | session => cases hclosed

theorem Link.leaves_of_turn {l : Link} (h : l.turn.any Turn.leaves = true) : l.Leaves := by
  obtain ⟨t, ht, hleaves⟩ := (Option.any_eq_true _ _).mp h
  unfold Turn.leaves at hleaves
  split at hleaves
  · exact ⟨t, _, ht, ‹_›, .inl ‹_›⟩
  · exact ⟨t, _, ht, ‹_›, .inr ⟨_, ‹_›⟩⟩
  · cases hleaves

theorem leaving_cancels_all_eof : ∃ s, leftQuery = some s ∧ (s.links ()).Leaves ∧
    phaseAfter (s.links ()).turns = some .closed ∧ (s.links ()).cancelled 3 = true ∧
      ∀ r, (s.links ()).active r = true → (s.links ()).cancelled r = true := by
  have h : (leftQuery.any fun s => (s.links ()).turn.any Turn.leaves &&
      (phaseAfter (s.links ()).turns).any Phase.isClosed && (s.links ()).cancelled 3) = true := by
    decide +kernel
  obtain ⟨s, hs, h⟩ := (Option.any_eq_true _ _).mp h
  simp only [Bool.and_eq_true] at h
  obtain ⟨⟨hleaves, hclosed⟩, hcancelled⟩ := h
  have hleaves := Link.leaves_of_turn hleaves
  have hreturned := Link.returned_of_isClosed hclosed
  exact ⟨s, hs, hleaves, hreturned, hcancelled,
    leaving_cancels_all (Server.reaches_of_run hs) hleaves hreturned⟩

/-- A malformed frame arrives while a query is being executed. -/
def brokenConnection : Option (Server Unit) :=
  Server.run .plain .plain (fun _ => "") (.initial (.single (.plain "data") "id" "main" [0]))
    (Act.request () 1 (.hello 1 "query" "client") 1 ++ Act.request () 2 (.selectDatabase "main") 4 ++
      Act.request () 3 (.query "q" [] false true none) 2 ++ Act.jobs () 3 4 ++
      [.receive () (.broken "expected value at line 1 column 1")])

theorem broken_connection_cancels_nothing : ∃ s job, brokenConnection = some s ∧
    phaseAfter (s.links ()).turns = some .closed ∧ (s.links ()).jobs 3 = some job ∧
      job.finished = false ∧ (s.links ()).active 3 = true ∧ (s.links ()).cancelled 3 = false := by
  have h : (brokenConnection.any fun s => (phaseAfter (s.links ()).turns).any Phase.isClosed &&
      (((s.links ()).jobs 3).any fun job => !job.finished) && (s.links ()).active 3 &&
        !(s.links ()).cancelled 3) = true := by decide +kernel
  obtain ⟨s, hs, h⟩ := (Option.any_eq_true _ _).mp h
  simp only [Bool.and_eq_true, Bool.not_eq_true'] at h
  obtain ⟨⟨⟨hclosed, hjob⟩, hactive⟩, hcancelled⟩ := h
  obtain ⟨job, hjob, hunfinished⟩ := (Option.any_eq_true _ _).mp hjob
  exact ⟨s, job, hs, Link.returned_of_isClosed hclosed, hjob, by simpa using hunfinished, hactive,
    hcancelled⟩

end

end NostdbServer
