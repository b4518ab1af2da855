import NostdbServer.Daemon.Frame
import NostdbServer.Protocol.Cancellation
import NostdbServer.Protocol.Moments

/-!
# What an error says about the Databases

A query or a commit that is answered with an error has changed no Database, with
one exception: the result of a committed write may be too large for a frame, and
`request_too_large` takes its place.
-/

namespace NostdbServer

open Effects

-- ---------------------------------------------------------------------------
-- The content of a Database
-- ---------------------------------------------------------------------------

/-- A call of the engine that has failed. -/
def fails : Event connection → Bool
  | ⟨.daemon (.storage _ (.execute _ _)), .error _⟩
  | ⟨.daemon (.storage _ (.executeTransaction _ _)), .error _⟩ => true
  | _ => false

namespace Daemon

variable {d d' : Daemon} {id : String}

/-- What a Database holds: its file, and what its handle is open on. -/
def contents (d : Daemon) (databaseId : String) : Option Node × Option Database :=
  ((d.site databaseId).files .database, (d.site databaseId).slot)

theorem contents_putSite {s : Site} (hfiles : s.files = (d.site id).files)
    (hslot : s.slot = (d.site id).slot) (i : String) :
    (d.putSite id s).contents i = d.contents i := by
  have hsite : ((d.putSite id s).site i).slot = (d.site i).slot := by
    simp only [site, memory_putSite]
    by_cases hi : i = id
    · subst hi
      rw [Function.update_self]
      exact hslot
    · simp [hi]
  have hentry : (d.putSite id s).filesOf i = d.filesOf i := by
    unfold putSite
    split
    · rename_i hd
      unfold filesOf
      rw [entry_set]
      by_cases hi : i = id
      · subst hi
        rw [if_pos rfl]
        exact hfiles
      · simp [hi]
    · rfl
  simp only [contents, hsite]
  rw [show ((d.putSite id s).site i).files = (d.site i).files from hentry]

theorem contents_putSite_of_ne {s : Site} {i : String} (hi : i ≠ id) :
    (d.putSite id s).contents i = d.contents i := by
  have hslot : ((d.putSite id s).site i).slot = (d.site i).slot := by
    simp [site, memory_putSite, hi]
  have hfiles : (d.putSite id s).filesOf i = d.filesOf i := by
    unfold putSite
    split
    · unfold filesOf
      rw [entry_set]
      simp [hi]
    · rfl
  simp only [contents, hslot]
  rw [show ((d.putSite id s).site i).files = (d.site i).files from hfiles]

/-- Operations that look leave every Database as it is. -/
theorem step_contents_of_looks {o : DaemonOp} {ans : o.Ans}
    (ho : ConnectionOp.looks (.daemon o) = true) (h : step E uuids o c d = some (ans, d'))
    (i : String) : d'.contents i = d.contents i := by
  cases o with
  | lockCatalog =>
    simp only [step] at h
    split at h <;> cases h
    rfl
  | readHandle =>
    simp only [step] at h
    split at h <;> cases h
    rfl
  | readCatalog | unlockCatalog =>
    cases h
    rfl
  | storage id o =>
    obtain ⟨⟨ans', s⟩, hsite, heq⟩ := Option.map_eq_some_iff.mp h
    cases heq
    cases o with
    | lock =>
      simp only [Site.step] at hsite
      split at hsite <;> cases hsite
      refine contents_putSite ?_ ?_ i <;> rfl
    | unlock | peek =>
      cases hsite
      refine contents_putSite ?_ ?_ i <;> rfl
    | _ => cases ho
  | _ => cases ho

theorem execute_error {E : Engine} {act : Bytes → Except DatabaseError (α × Bytes)} {s s' : Site}
    (h : s.execute E act c = (.error error, s')) : s' = s := by
  unfold Site.execute at h
  split at h
  · cases h
    rfl
  · cases h
    rfl
  · split at h <;> cases h
    rfl

/-- So do statements that fail. -/
theorem step_contents_of_fails {o : DaemonOp} {ans : o.Ans} (hfails : fails ⟨.daemon o, ans⟩ = true)
    (h : step E uuids o c d = some (ans, d')) (i : String) : d'.contents i = d.contents i := by
  unfold fails at hfails
  split at hfails
  · rename_i heq
    cases heq
    simp only [step, Option.map_eq_some_iff] at h
    obtain ⟨⟨ans', s⟩, hsite, heq⟩ := h
    cases heq
    cases execute_error (Option.some.inj hsite)
    exact contents_putSite rfl rfl i
  · rename_i heq
    cases heq
    simp only [step, Option.map_eq_some_iff] at h
    obtain ⟨⟨ans', s⟩, hsite, heq⟩ := h
    cases heq
    cases execute_error (Option.some.inj hsite)
    exact contents_putSite rfl rfl i
  · cases hfails

end Daemon

-- ---------------------------------------------------------------------------
-- What a task has got the engine to do
-- ---------------------------------------------------------------------------

section
variable {call : ManagedDatabase → Except DatabaseError α → Event connection}
  {log later : List (Event connection)} {e : Event connection}

/-- What a worker does looks, or is its call of the engine, and the answer of the
engine is the result. -/
theorem Worked.event (h : Worked databaseId token call refusal r log) (he : e ∈ log) :
    e.op.looks = true ∨ ∃ handle answer, e = call handle answer ∧
      ∀ value, answer = .ok value → r = .ok value := by
  cases h with
  | refused => cases he
  | missing _ hlog => exact .inl (hlog e he)
  | @found _ handle _ _ _ hlog _ hcalled =>
    rcases List.mem_append.mp he with he | he
    · exact .inl (hlog e he)
    cases hcalled with
    | unavailable hlater => exact .inl (hlater e he)
    | done hmid hlater =>
      rcases List.mem_append.mp he with he | he
      · exact .inl (hmid e he)
      rcases List.mem_cons.mp he with rfl | he
      · exact .inr ⟨handle, _, rfl, fun value h => congrArg _ (Except.ok.inj h)⟩
      · exact .inl (hlater e he)
    | failed hmid hlater =>
      rcases List.mem_append.mp he with he | he
      · exact .inl (hmid e he)
      rcases List.mem_cons.mp he with rfl | he
      · exact .inr ⟨handle, _, rfl, nofun⟩
      · exact .inl (hlater e he)

/-- Calls of the daemon belong to the work. -/
theorem Ran.event (h : Ran service requestId (Worked databaseId token call refusal) message
    responses log) (he : e ∈ log) (hdaemon : e.op.isDaemon = true) :
    ∃ result worked expired replies, Worked databaseId token call refusal result worked ∧
      Delivered service requestId (outcomeResponses responses (timed message expired result))
        replies ∧
      log = worked ++ ⟨.join requestId, expired⟩ :: ⟨.removeActive requestId, ()⟩ :: replies ∧
      e ∈ worked := by
  obtain ⟨result, worked, expired, replies, hwork, hreplies, rfl⟩ := h.parts
  refine ⟨result, worked, expired, replies, hwork, hreplies, rfl, ?_⟩
  rcases List.mem_append.mp he with he | he
  · exact he
  rcases List.mem_cons.mp he with rfl | he
  · cases hdaemon
  rcases List.mem_cons.mp he with rfl | he
  · cases hdaemon
  obtain ⟨response, hsend⟩ := hreplies.sends e he
  rw [hsend] at hdaemon
  cases hdaemon

/-- `call` is the event of a call of the engine. -/
structure CallsEngine (call : ManagedDatabase → Except DatabaseError α → Event connection) :
    Prop where
  engine : ∀ handle answer, (call handle answer).op.callsEngine = true
  fails : ∀ handle error, fails (call handle (.error error)) = true
  injective : ∀ handle handle' answer answer', call handle answer = call handle' answer' →
    answer = answer'

theorem ConnectionOp.isDaemon_of_callsEngine {o : ConnectionOp} (h : o.callsEngine = true) :
    o.isDaemon = true := by
  cases o <;> first | rfl | cases h

theorem CallsEngine.frames (h : CallsEngine call) (handle : ManagedDatabase)
    (answer : Except DatabaseError α) : frame? (call handle answer) = none := by
  have hcalls := h.engine handle answer
  cases hframe : frame? (call handle answer) with
  | none => rfl
  | some f =>
    rw [op_of_frame? hframe] at hcalls
    cases hcalls

theorem queryCall_calls (service : Service) (query : String) (values : WireParameters)
    (limits : Option WireQueryLimits) : CallsEngine (queryCall service query values limits) where
  engine _ _ := rfl
  fails _ _ := rfl
  injective handle handle' answer answer' h := by
    injection h

theorem transactionCall_calls (service : Service) (statements : List (String × WireParameters)) :
    CallsEngine (transactionCall service statements) where
  engine _ _ := rfl
  fails _ _ := rfl
  injective handle handle' answer answer' h := by
    injection h

/-- A task whose call of the engine succeeded has the result that the engine gave. -/
theorem Ran.succeeded (hcall : CallsEngine call)
    (h : Ran service requestId (Worked databaseId token call refusal) message responses log)
    (hmem : call handle (.ok value) ∈ log) :
    Ran service requestId (fun result worked =>
      Worked databaseId token call refusal result worked ∧ result = .ok value) message responses
        log := by
  have hcalls := hcall.engine handle (.ok value)
  obtain ⟨result, worked, expired, replies, hwork, hreplies, hlog, hmem⟩ :=
    h.event hmem (ConnectionOp.isDaemon_of_callsEngine hcalls)
  refine ⟨result, worked, expired, replies, ⟨hwork, ?_⟩, hreplies, hlog⟩
  obtain hlooks | ⟨handle', answer, heq, hanswer⟩ := hwork.event hmem
  · cases hcalls.symm.trans (ConnectionOp.callsEngine_of_looks hlooks)
  · exact hanswer value (hcall.injective _ _ _ _ heq).symm

/-- It answers with that. -/
theorem Ran.committed (hcall : CallsEngine call)
    (h : Ran service requestId (Worked databaseId token call refusal) message responses
      (log ++ later)) (hmem : call handle (.ok value) ∈ log) :
    ∃ script, Scripted service requestId (responses value) script ∧
      log.filterMap frame? <+: onWire requestId script := by
  obtain hnil | ⟨_, _, expired', script, ⟨-, rfl⟩, -, hscript, hbegins⟩ :=
    Ran.frames (fun _ _ hwork => hwork.1.frames hcall.frames)
      (h.succeeded hcall (List.mem_append_left later hmem))
  · obtain ⟨script, hscript⟩ := scripted_exists service requestId (responses value)
    exact ⟨script, hscript, by rw [hnil]; exact List.nil_prefix⟩
  · exact ⟨script, hscript, hbegins⟩

/-- When it has ended and was heard, the answer is complete. -/
theorem Ran.completed (hcall : CallsEngine call)
    (h : Ran service requestId (Worked databaseId token call refusal) message responses log)
    (hmem : call handle (.ok value) ∈ log) (hheard : Heard log) :
    ∃ script, Scripted service requestId (responses value) script ∧
      log.filterMap frame? = onWire requestId script := by
  obtain ⟨_, worked, expired, replies, ⟨hwork, rfl⟩, hreplies, rfl⟩ := (h.succeeded hcall hmem).parts
  obtain ⟨script, hscript, hframes⟩ := hreplies.heard fun frame hframe =>
    hheard frame (List.mem_append_right _ (by simp [hframe]))
  refine ⟨script, hscript, ?_⟩
  rw [List.filterMap_append, List.filterMap_eq_nil_iff.mpr (hwork.frames hcall.frames),
    List.filterMap_cons_none rfl, List.filterMap_cons_none rfl]
  exact hframes

end

theorem statementResponses_code? (stream : Bool) (result : StatementResult) :
    ∀ response ∈ statementResponses stream result, response.code? = none := by
  cases result with
  | write result => cases stream <;> simp [statementResponses, ServerResponse.code?]
  | read result =>
    cases stream with
    | false => simp [statementResponses, ServerResponse.code?]
    | true =>
      intro response h
      simp only [statementResponses, ↓reduceIte, List.mem_cons, List.mem_append, List.mem_map,
        List.not_mem_nil, or_false] at h
      obtain rfl | ⟨row, -, rfl⟩ | rfl := h <;> rfl

/-- What is answered when the engine has committed: `responses`, or a failure in the
place of one that does not fit. -/
def Reported (service : Service) (requestId : UInt64) (responses : List ServerResponse)
    (frames : List ServerFrame) : Prop :=
  ∃ script, Scripted service requestId responses script ∧ frames <+: onWire requestId script

section
variable {E : Engine} {service : Service} {requestId : UInt64} {job : Job} {e : Event connection}

/-- A call of the daemon by a task looks, or is a call of the engine that failed, or
the task answers with what the engine gave. -/
theorem Job.event (hrun : (runTask E service requestId job.task).Run job.log job.rest)
    (hexport : ∀ database, job.task ≠ .snapshotExport database) (he : e ∈ job.log)
    (hdaemon : e.op.isDaemon = true) :
    e.op.looks = true ∨ fails e = true ∨ ∃ responses,
      Reported service requestId responses (job.log.filterMap frame?) ∧
        ∀ response ∈ responses, response.code? = none := by
  obtain ⟨later, q, result, -, -, -, hran⟩ :=
    (runTask_performs E job.task).begun ConnectionOp.ans_nonempty hrun
  generalize job.task = task at hexport hran
  cases task with
  | query databaseId query values readOnly stream limits =>
    obtain ⟨_, _, _, _, hwork, -, -, hmem⟩ := hran.event (List.mem_append_left later he) hdaemon
    obtain hlooks | ⟨handle, answer, rfl, -⟩ := hwork.event hmem
    · exact .inl hlooks
    · cases answer with
      | error error => exact .inr (.inl rfl)
      | ok value =>
        exact .inr (.inr ⟨_, hran.committed (queryCall_calls ..) he,
          statementResponses_code? stream value⟩)
  | transaction databaseId statements =>
    obtain ⟨_, _, _, _, hwork, -, -, hmem⟩ := hran.event (List.mem_append_left later he) hdaemon
    obtain hlooks | ⟨handle, answer, rfl, -⟩ := hwork.event hmem
    · exact .inl hlooks
    · cases answer with
      | error error => exact .inr (.inl rfl)
      | ok value =>
        exact .inr (.inr ⟨_, hran.committed (transactionCall_calls ..) he,
          by simp [ServerResponse.code?]⟩)
  | snapshotExport database => exact absurd rfl (hexport database)

end

-- ---------------------------------------------------------------------------
-- The whole connection
-- ---------------------------------------------------------------------------

/-- The event that reports what the engine has committed. -/
def committed? : Event connection → Option ServerResponse
  | ⟨.daemon (.storage _ (.execute _ _)), .ok (.write result)⟩ =>
    some (.result (statementJson (.write result)))
  | ⟨.daemon (.storage _ (.executeTransaction _ _)), .ok results⟩ =>
    some (.transaction "committed" (results.map statementJson))
  | _ => none

/-- The task of the request has got the engine to commit what `response` reports. -/
def Link.Committed (l : Link) (requestId : UInt64) (response : ServerResponse) : Prop :=
  ∃ e, l.JobDid requestId e ∧ committed? e = some response

section
variable {E : Engine} {service : Service} {requestId : UInt64} {job : Job} {e : Event connection}

theorem committed?_isDaemon (h : committed? e = some response) : e.op.isDaemon = true := by
  unfold committed? at h
  split at h <;> first | rfl | cases h

/-- The report of a write is its only response. -/
theorem committed?_queryCall {answer : Except DatabaseError StatementResult}
    (h : committed? (queryCall service query values limits handle answer) = some response) :
    ∃ value, answer = .ok value ∧ ∀ stream, statementResponses stream value = [response] := by
  cases answer with
  | error error => cases h
  | ok value =>
    cases value with
    | read result => cases h
    | write result =>
      cases h
      exact ⟨_, rfl, fun stream => rfl⟩

theorem committed?_transactionCall {answer : Except DatabaseError (List StatementResult)}
    (h : committed? (transactionCall service statements handle answer) = some response) :
    ∃ results, answer = .ok results ∧
      response = .transaction "committed" (results.map statementJson) := by
  cases answer with
  | error error => cases h
  | ok results =>
    cases h
    exact ⟨results, rfl, rfl⟩

/-- A task that has got the engine to commit has one response, the report. -/
theorem TaskRan.committing (h : TaskRan E service requestId task log)
    (hexport : ∀ database, task ≠ .snapshotExport database) (he : e ∈ log)
    (hcommitted : committed? e = some response) :
    ∃ (α : Type) (call : ManagedDatabase → Except DatabaseError α → Event connection)
      (responses : α → List ServerResponse) (databaseId message : String) (token : UInt64)
      (refusal : Option ProtocolFailure) (handle : ManagedDatabase) (value : α),
      CallsEngine call ∧ e = call handle (.ok value) ∧ responses value = [response] ∧
        Ran service requestId (Worked databaseId token call refusal) message responses log := by
  have hdaemon := committed?_isDaemon hcommitted
  have hlooks : e.op.looks ≠ true := by
    unfold committed? at hcommitted
    split at hcommitted <;> first | cases hcommitted; done | simp [ConnectionOp.looks]
  cases task with
  | query databaseId query values readOnly stream limits =>
    obtain ⟨_, _, _, _, hwork, -, -, hmem⟩ := Ran.event h he hdaemon
    obtain hlook | ⟨handle, answer, rfl, -⟩ := hwork.event hmem
    · exact absurd hlook hlooks
    · obtain ⟨value, rfl, hresponses⟩ := committed?_queryCall hcommitted
      exact ⟨_, _, _, _, _, _, _, handle, value, queryCall_calls .., rfl, hresponses stream, h⟩
  | transaction databaseId statements =>
    obtain ⟨_, _, _, _, hwork, -, -, hmem⟩ := Ran.event h he hdaemon
    obtain hlook | ⟨handle, answer, rfl, -⟩ := hwork.event hmem
    · exact absurd hlook hlooks
    · obtain ⟨results, rfl, rfl⟩ := committed?_transactionCall hcommitted
      exact ⟨_, _, _, _, _, _, _, handle, results, transactionCall_calls .., rfl, rfl, h⟩
  | snapshotExport database => exact absurd rfl (hexport database)

/-- A task reports what it has got the engine to commit. -/
theorem Job.reported (hrun : (runTask E service requestId job.task).Run job.log job.rest)
    (hexport : ∀ database, job.task ≠ .snapshotExport database) (he : e ∈ job.log)
    (hcommitted : committed? e = some response) :
    Reported service requestId [response] (job.log.filterMap frame?) := by
  obtain ⟨later, q, result, -, -, -, hran⟩ :=
    (runTask_performs E job.task).begun ConnectionOp.ans_nonempty hrun
  obtain ⟨α, call, responses, _, _, _, _, handle, value, hcall, rfl, hresponses, hran⟩ :=
    hran.committing hexport (List.mem_append_left later he) hcommitted
  rw [← hresponses]
  exact hran.committed hcall he

/-- It has reported when it has ended. -/
theorem Job.completed (hrun : (runTask E service requestId job.task).Run job.log job.rest)
    (hexport : ∀ database, job.task ≠ .snapshotExport database) (he : e ∈ job.log)
    (hcommitted : committed? e = some response) (hfinished : job.finished = true)
    (hheard : Heard job.log) : job.log.filterMap frame? ≠ [] := by
  obtain ⟨r, hr⟩ := Option.isSome_iff_exists.mp hfinished
  obtain ⟨-, hran⟩ := (runTask_performs E job.task).run hrun hr
  obtain ⟨α, call, responses, _, _, _, _, handle, value, hcall, rfl, hresponses, hran⟩ :=
    hran.committing hexport he hcommitted
  obtain ⟨script, hscript, hframes⟩ := hran.completed hcall he hheard
  rw [hframes]
  rw [hresponses] at hscript
  cases hscript <;> simp [onWire]

/-- A single response is sent, or replaced if it does not fit. -/
theorem Reported.single (h : Reported service requestId [response] frames) :
    (service.Fits ⟨requestId, response⟩ → frames <+: [⟨requestId, response⟩]) ∧
      (¬ service.Fits ⟨requestId, response⟩ → frames <+: [⟨requestId, tooLarge.response⟩]) := by
  obtain ⟨script, hscript, hbegins⟩ := h
  cases hscript with
  | whole h => exact ⟨fun _ => hbegins, fun hnot => absurd (h response (by simp)) hnot⟩
  | cut h hfirst hnot =>
    obtain ⟨rfl, heq⟩ := List.append_eq_singleton_iff.mp h.symm |>.resolve_right (by simp)
    cases heq
    exact ⟨fun hfits => absurd hfits hnot, fun _ => hbegins⟩

end

-- ---------------------------------------------------------------------------
-- A result that does not fit
-- ---------------------------------------------------------------------------

def longText : String := String.ofList (List.replicate MAX_FRAME_BYTES 'a')

/-- A write that returns the text it has written. -/
def longResult : StatementResult :=
  .write ⟨⟨0, 0, 0, 0, 1, 0⟩, some ⟨["text"], [[.string longText]], true⟩⟩

theorem longResult_not_fits (service : Service) (requestId : UInt64) :
    ¬ service.Fits ⟨requestId, .result (statementJson longResult)⟩ := by
  have htext : MAX_FRAME_BYTES ≤ (Json.text service.floatText (.string longText)).utf8ByteSize := by
    have hlen := Json.length_le_quoted longText
    rwa [longText, String.length_ofList, List.length_replicate, ← longText] at hlen
  -- The text is the one value of the one row of the table that comes with the write.
  have hlong : MAX_FRAME_BYTES ≤
      (Json.text service.floatText (statementJson longResult)).utf8ByteSize :=
    calc MAX_FRAME_BYTES
      _ ≤ (Json.text service.floatText (.string longText)).utf8ByteSize := htext
      _ ≤ _ := Json.size_le_array (List.mem_singleton_self _)
      _ ≤ _ := Json.size_le_array (List.mem_singleton_self _)
      _ ≤ (Json.text service.floatText
            (queryResult ⟨["text"], [[.string longText]], true⟩)).utf8ByteSize :=
          Json.size_le_object "rows" (by simp [queryValueJson])
      _ ≤ (Json.text service.floatText (writeResult ⟨⟨0, 0, 0, 0, 1, 0⟩,
            some ⟨["text"], [[.string longText]], true⟩⟩)).utf8ByteSize :=
          Json.size_le_object "result" (by simp)
      _ ≤ (Json.text service.floatText (statementJson longResult)).utf8ByteSize :=
          Json.size_le_object "write" (by simp)
  have hbody : (Json.text service.floatText (statementJson longResult)).utf8ByteSize ≤
      service.bodySize (.result (statementJson longResult)) :=
    Json.size_le_members "statement" (by simp [ServerResponse.fields])
  rw [Service.Fits, Service.frameSize_eq]
  omega

/-- An engine whose statements return a long text. -/
def verbose : Engine := { Engine.plain with execute := fun _ _ _ => .ok (longResult, [9]) }

def Task.isExport : Task → Bool
  | .snapshotExport _ => true
  | _ => false

def ConnectionOp.releases : ConnectionOp → Bool
  | .removeActive _ => true
  | _ => false

def writes : Event connection → Bool
  | ⟨.daemon (.storage _ (.execute _ _)), .ok (.write _)⟩ => true
  | _ => false

section
variable {E : Engine} {service : Service} {requestId : UInt64} {job : Job} {e last : Event connection}

theorem Worked.unreleased {call : ManagedDatabase → Except DatabaseError α → Event connection}
    (hcall : CallsEngine call) (h : Worked databaseId token call refusal r log) (he : e ∈ log) :
    e.op.releases = false := by
  obtain hlooks | ⟨handle, answer, rfl, -⟩ := h.event he
  · generalize e.op = o at hlooks ⊢
    cases o <;> first | rfl | cases hlooks
  · have hengine := hcall.engine handle answer
    generalize (call handle answer).op = o at hengine ⊢
    cases o <;> first | rfl | cases hengine

theorem Delivered.replaced (h : Delivered service requestId [response] replies)
    (hfits : ¬ service.Fits ⟨requestId, response⟩) :
    ∃ accepted, replies = [⟨.send (failureFrame requestId tooLarge), accepted⟩] := by
  cases h with
  | all h => exact absurd (h response (List.mem_singleton_self _)) hfits
  | stopped h =>
    cases h with
    | replaced _ accepted => exact ⟨accepted, rfl⟩
    | closed h | next h => exact absurd h hfits

/-- A task that has removed its request sends `request_too_large` next, if what it has
to report does not fit. -/
theorem Job.next_replaced (hrun : (runTask E service requestId job.task).Run job.log job.rest)
    (hexport : ∀ database, job.task ≠ .snapshotExport database) (he : e ∈ job.log)
    (hcommitted : committed? e = some response) (hfits : ¬ service.Fits ⟨requestId, response⟩)
    (hlog : job.log = before ++ [last]) (hlast : last.op.releases = true) :
    ∃ next, job.rest = .op (.send (failureFrame requestId tooLarge)) next := by
  obtain ⟨later, q, result, hlater, -, -, hran⟩ :=
    (runTask_performs E job.task).begun ConnectionOp.ans_nonempty hrun
  obtain ⟨α, call, responses, _, _, _, _, handle, value, hcall, rfl, hresponses, hran⟩ :=
    hran.committing hexport (List.mem_append_left later he) hcommitted
  obtain ⟨_, worked, expired, replies, ⟨hwork, rfl⟩, hreplies, hall⟩ :=
    (hran.succeeded hcall (List.mem_append_left later he)).parts
  obtain ⟨accepted, rfl⟩ : ∃ accepted, replies = _ := Delivered.replaced (hresponses ▸ hreplies) hfits
  have hcut := cut_unique (p := fun e : Event connection => e.op.releases = true)
    (x := worked ++ [⟨.join requestId, expired⟩]) (c := ⟨.removeActive requestId, ()⟩)
    (y := [⟨.send (failureFrame requestId tooLarge), accepted⟩])
    (by simpa [ConnectionOp.releases, or_imp, forall_and] using
      fun e he => hwork.unreleased hcall he)
    (by simp [ConnectionOp.releases]) hlast (by rw [hlog] at hall; simpa using hall.symm)
  rw [hcut.2.2] at hlater
  generalize job.rest = rest at hlater
  cases hlater with
  | step => exact ⟨_, rfl⟩

end

-- ---------------------------------------------------------------------------
-- The server
-- ---------------------------------------------------------------------------

/-- As long as the client is there, a task is heard. -/
theorem Link.Reachable.heard {l : Link} {job : Job} (h : l.Reachable E service)
    (hconnected : l.connected = true) (hjob : l.jobs r = some job) : Heard job.log := by
  induction h generalizing r job with
  | refl => cases hjob
  | @tail l l' hreachable hstep ih =>
    cases hstep with
    | receive | expire | abort => exact ih hconnected hjob
    | disconnect => cases hconnected
    | main hturn hrest hans =>
      obtain hold | ⟨task, -, rfl⟩ := of_advance_jobs hjob
      · exact ih (by simpa [advance] using hconnected) hold
      · exact fun _ => List.not_mem_nil
    | @job job₀ _ r' o next ans hjob₀ hrest hans =>
      have hopen : l.connected = true := by simpa [advanceJob] using hconnected
      rw [(Reachable.kept hreachable).advanceJob_jobs hjob₀ hrest ans] at hjob
      split at hjob
      · cases hjob
        intro frame hframe
        rcases List.mem_append.mp hframe with hframe | hframe
        · exact ih hopen hjob₀ frame hframe
        · cases List.mem_singleton.mp hframe
          obtain ⟨_, hd⟩ | ⟨c, hc⟩ := hans
          · cases hd
          · cases hopen.symm.trans (Option.some.inj hc)
      · exact ih hopen hjob

namespace Server

variable {ι : Type} [DecidableEq ι] {E : Engine} {service : Service} {uuids : Nat → String}
  {d : Daemon} {s s₁ s₂ : Server ι} {i : ι} {t : Turn} {frame : ClientFrame}

/-- The step is one of the connection's turn with the frame, or of the task that was
started for it. -/
def Serves (s : Server ι) (i : ι) (frame : ClientFrame) : Act ι → Prop
  | .main j _ => j = i ∧ ∃ t, (s.links i).turn = some t ∧ t.incoming = .frame frame
  | .job j r _ => j = i ∧ r = frame.requestId
  | _ => False

/-- What a client can conclude from the answer to a query or a commit. -/
structure Truthful (E : Engine) (service : Service) (uuids : Nat → String) (d : Daemon)
    (s : Server ι) (i : ι) (frame : ClientFrame) : Prop where
  /-- After an error other than `request_too_large` nothing was changed for the request. -/
  unchanged : ∀ f ∈ (s.links i).framesOf frame.requestId, ∀ code, f.response.code? = some code →
    code ≠ .requestTooLarge → ∀ s₁ a s₂, Reaches E service uuids (initial d) s₁ →
      s₁.step E service uuids a = some s₂ → Reaches E service uuids s₂ s → s₁.Serves i frame a →
        ∀ databaseId, s₂.daemon.contents databaseId = s₁.daemon.contents databaseId
  /-- What was committed is reported so if the report fits a frame. -/
  reported : ∀ response, (s.links i).Committed frame.requestId response →
    service.Fits ⟨frame.requestId, response⟩ →
      (s.links i).framesOf frame.requestId <+: [⟨frame.requestId, response⟩]
  /-- It is reported as `request_too_large` otherwise. -/
  replaced : ∀ response, (s.links i).Committed frame.requestId response →
    ¬ service.Fits ⟨frame.requestId, response⟩ →
      (s.links i).framesOf frame.requestId <+: [⟨frame.requestId, tooLarge.response⟩]
  /-- It has been reported when the task has ended and the client is still there. -/
  answered : ∀ response, (s.links i).Committed frame.requestId response →
    (s.links i).connected = true → ∀ job, (s.links i).jobs frame.requestId = some job →
      job.finished = true → (s.links i).framesOf frame.requestId ≠ []

/-- The turn of a query or a commit does not call the daemon. -/
theorem handleIncoming_executes (h : frame.request.executes = true) (before : Phase) :
    (handleIncoming E service before (.frame frame)).Only (S := connection) fun o =>
      ConnectionOp.isDaemon o = false := by
  cases before with
  | greeting => exact greet_only.mono fun o ho => by cases o <;> first | rfl | cases ho
  | closed => trivial
  | session state =>
    have hrefuse {state : ConnectionState} {code : ErrorCode} {message : String} :
        (refuse service frame.requestId state code message).Only (S := connection) fun o =>
          ConnectionOp.isDaemon o = false := refuse_only fun _ => rfl
    refine Prog.Only.bind ?_ fun _ => trivial
    unfold receive
    split
    · exact hrefuse
    unfold dispatch
    dsimp only
    split
    · exact hrefuse
    split
    · exact hrefuse
    cases hrequest : frame.request with
    | query => exact dispatchQuery_only (fun _ => rfl) rfl fun _ => rfl
    | commit => exact dispatchCommit_only (fun _ => rfl) rfl fun _ _ => rfl
    | _ => simp [hrequest, ClientRequest.executes] at h

/-- A query, after as many steps of its task. -/
def longQuery (E : Engine) (n : Nat) : Option (Server Unit) :=
  run E .plain (fun _ => "") (.initial (.single (.plain "data") "id" "main" [0]))
    (Act.request () 1 (.hello 1 "query" "client") 1 ++ Act.request () 2 (.selectDatabase "main") 4 ++
      Act.request () 3 (.query "q" [] false false none) 2 ++ Act.jobs () 3 n)

/-- Everything the engine writes is long. -/
theorem Reaches.verbose {e : Event connection} (h : Reaches verbose service uuids (initial d) s)
    (hdid : (s.links i).JobDid r e) (hwrites : writes e = true) :
    committed? e = some (.result (statementJson longResult)) := by
  unfold writes at hwrites
  split at hwrites
  · obtain ⟨s₁, c, d', -, -, hstep⟩ := h.answered hdid
    simp only [Daemon.step, Option.map_eq_some_iff] at hstep
    obtain ⟨⟨ans, site⟩, hsite, heq⟩ := hstep
    cases heq
    have hexecute := Option.some.inj hsite
    unfold Site.execute at hexecute
    split at hexecute
    · cases hexecute
    · cases hexecute
    · injection hexecute with hresult
      injection hresult with hresult
      rw [committed?, ← hresult]
  · cases hwrites

theorem step_send (E : Engine) (service : Service) (uuids : Nat → String) (c : Outcome) {job : Job}
    {response : ServerFrame} {next : Bool → Prog connection String Unit}
    (hjob : (s.links i).jobs r = some job) (hrest : job.rest = .op (.send response) next)
    (hgoes : (s.links i).aborted r = false) (hconnected : (s.links i).connected = true) :
    ∃ s', s.step E service uuids (.job i r c) = some s' ∧ s'.daemon = s.daemon ∧
      response ∈ (s'.links i).frames := by
  have hstep : s.step E service uuids (.job i r c) =
      (s.perform E service uuids i (.send response) c).bind fun p =>
        some (p.2.setLink i ((p.2.links i).advanceJob r job ⟨.send response, p.1⟩ (next p.1))) := by
    simp [step, hjob, hrest, hgoes]
  rw [hstep]
  exact ⟨_, rfl, rfl, by simp [Link.after, Link.advanceJob, hconnected]⟩

end Server

end NostdbServer
