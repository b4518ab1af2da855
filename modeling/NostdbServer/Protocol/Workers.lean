import NostdbServer.Protocol.Conversation

/-!
# Workers

What the task of a query or a commit does from its first step to its answer. The
engine is called at most once, on the handle found under the selected identifier;
everything else only looks. The outcome of that call decides the answer, except
that a worker which fails after its timer fired is reported as timed out, and a
response that does not fit a frame is replaced.
-/

namespace NostdbServer

open Effects

/-- Operations that change no catalog, no handle and no file. -/
def ConnectionOp.looks : ConnectionOp → Bool
  | .daemon .lockCatalog | .daemon .readCatalog | .daemon .unlockCatalog
  | .daemon (.readHandle _) | .daemon (.storage _ .lock) | .daemon (.storage _ .peek)
  | .daemon (.storage _ .unlock) | .isCancelled _ | .join _ => true
  | _ => false

def Looks (log : List (Event connection)) : Prop := ∀ e ∈ log, e.op.looks = true

theorem Looks.append {log log' : List (Event connection)} (h : Looks log) (h' : Looks log') :
    Looks (log ++ log') := by
  simpa [Looks, or_imp, forall_and] using ⟨h, h'⟩

/-- What one call of the engine on a handle comes to. `call` is the event of the
call with its answer. -/
inductive Called (token : UInt64) (call : Except DatabaseError α → Event connection) :
    Except ProtocolFailure α → List (Event connection) → Prop
  | unavailable (hlog : Looks log) : Called token call (.error unavailable) log
  | done (hlog : Looks log) (hlater : Looks later) :
      Called token call (.ok value) (log ++ call (.ok value) :: later)
  | failed (hlog : Looks log) (hlater : Looks later)
      (hcancelled : ⟨.isCancelled token, cancelled⟩ ∈ later) :
      Called token call (.error (databaseFailure error (some cancelled)))
        (log ++ call (.error error) :: later)

theorem Called.around {call : Except DatabaseError α → Event connection} (h : Called token call r l)
    (hbefore : Looks before) (hafter : Looks after) : Called token call r (before ++ l ++ after) := by
  cases h with
  | unavailable hlog => exact .unavailable ((hbefore.append hlog).append hafter)
  | @done log later value hlog hlater =>
    rw [show before ++ (log ++ call (.ok value) :: later) ++ after =
      (before ++ log) ++ call (.ok value) :: (later ++ after) by simp]
    exact .done (hbefore.append hlog) (hlater.append hafter)
  | @failed log later error cancelled hlog hlater hcancelled =>
    rw [show before ++ (log ++ call (.error error) :: later) ++ after =
      (before ++ log) ++ call (.error error) :: (later ++ after) by simp]
    exact .failed (hbefore.append hlog) (hlater.append hafter)
      (List.mem_append_left _ hcancelled)

section
variable {handle : ManagedDatabase}
  {engine : Prog connection ProtocolFailure (Except DatabaseError α)}
  {call : Except DatabaseError α → Event connection}
  (hengine : Performs engine fun result log => ∃ answer, result = .ok answer ∧ log = [call answer])
include hengine

theorem whileOpen_performs : Performs (whileOpen handle token engine) (Called token call) := by
  refine Performs.step fun slot => ?_
  have hpeek : Looks [⟨.daemon (.storage handle.id .peek), slot⟩] := by
    simp [Looks, ConnectionOp.looks]
  cases slot with
  | none => exact Performs.fail (.unavailable hpeek)
  | some database =>
    refine Performs.bind hengine ?_ ?_
    · rintro reply _ ⟨_, ⟨⟩, rfl⟩
      cases reply with
      | ok value => exact Performs.pure (.done hpeek (by simp [Looks]))
      | error error =>
        exact Performs.step fun cancelled => Performs.fail
          (.failed hpeek (by simp [Looks, ConnectionOp.looks]) (List.mem_singleton_self _))
    · rintro _ _ ⟨_, ⟨⟩, -⟩

theorem executing_performs : Performs (executing handle token engine) (Called token call) := by
  refine Performs.step fun _ => Performs.attempt_bind (whileOpen_performs hengine) fun r l hl => ?_
  refine Performs.step fun _ => Performs.ofExcept ?_
  have hlock : Looks [⟨.daemon (.storage handle.id .lock), ()⟩] := by
    simp [Looks, ConnectionOp.looks]
  have hunlock : Looks [⟨.daemon (.storage handle.id .unlock), ()⟩] := by
    simp [Looks, ConnectionOp.looks]
  exact hl.around hlock hunlock

end

theorem handleForSelectedId_performs (databaseId : String) :
    Performs (calling (handleForSelectedId databaseId)) fun result log => Looks log ∧
      match result with
      | .ok handle => ⟨.daemon (.readHandle databaseId), some handle⟩ ∈ log
      | .error error => error.code = .databaseNotFound ∨ error.code = .databaseBusy := by
  refine Performs.op (S := connection) (o := .daemon .lockCatalog) fun _ => ?_
  refine Performs.op (S := connection) (o := .daemon .readCatalog) fun catalog => ?_
  refine Performs.op (S := connection) (o := .daemon .unlockCatalog) fun _ => ?_
  change Performs (calling (if (!catalog.databases.any (·.id = databaseId)) = true then .fail _
    else handleOf databaseId)) _
  have hlooked : Looks [⟨.daemon .lockCatalog, ()⟩, ⟨.daemon .readCatalog, catalog⟩,
      ⟨.daemon .unlockCatalog, ()⟩] := by simp [Looks, ConnectionOp.looks]
  split
  · exact Performs.fail ⟨hlooked, .inl rfl⟩
  · refine Performs.op (S := connection) (o := .daemon (.readHandle databaseId)) fun handle => ?_
    have hread : Looks [⟨.daemon (.readHandle databaseId), handle⟩] := by
      simp [Looks, ConnectionOp.looks]
    cases handle with
    | none => exact Performs.fail ⟨hlooked.append hread, .inr rfl⟩
    | some handle => exact Performs.pure ⟨hlooked.append hread, by simp⟩

/-- What the work on a selected Database comes to. `refusal` is what stops it
before the Database is looked for. -/
inductive Worked (databaseId : String) (token : UInt64)
    (call : ManagedDatabase → Except DatabaseError α → Event connection)
    (refusal : Option ProtocolFailure) :
    Except ProtocolFailure α → List (Event connection) → Prop
  | refused (h : refusal = some error) : Worked databaseId token call refusal (.error error) []
  | missing (hnone : refusal = none) (hlog : Looks log)
      (hcode : error.code = .databaseNotFound ∨ error.code = .databaseBusy) :
      Worked databaseId token call refusal (.error error) log
  | found (hnone : refusal = none) (hlog : Looks log)
      (hhandle : ⟨.daemon (.readHandle databaseId), some handle⟩ ∈ log)
      (hcalled : Called token (call handle) r later) :
      Worked databaseId token call refusal r (log ++ later)

theorem selected_performs
    {engine : ManagedDatabase → Prog connection ProtocolFailure (Except DatabaseError α)}
    {call : ManagedDatabase → Except DatabaseError α → Event connection}
    (hengine : ∀ handle, Performs (engine handle) fun result log =>
      ∃ answer, result = .ok answer ∧ log = [call handle answer]) :
    Performs ((calling (handleForSelectedId databaseId)).bind fun handle =>
      executing handle token (engine handle)) (Worked databaseId token call none) := by
  refine Performs.bind (handleForSelectedId_performs databaseId) ?_ ?_
  · rintro handle l ⟨hlog, hhandle⟩
    exact (executing_performs (hengine handle)).mono fun r l' hl' => .found rfl hlog hhandle hl'
  · rintro error l ⟨hlog, hcode⟩
    exact .missing rfl hlog hcode

section
variable (E : Engine) (service : Service)

/-- What stops a query before its Database is looked for. -/
def queryRefusal (query : String) (values : WireParameters) (readOnly : Bool) :
    Option ProtocolFailure :=
  if readOnly && E.preparesWrite query then some readOnlyRejected
  else
    match parameters service.floatOfInt values with
    | .error message => some (.new .queryError message)
    | .ok _ => none

/-- The statement a query is executed as. -/
def queryStatement (query : String) (values : WireParameters) : Statement :=
  ⟨query, (parameters service.floatOfInt values).toOption.getD []⟩

/-- The event of the engine call for a query. -/
def queryCall (query : String) (values : WireParameters) (limits : Option WireQueryLimits)
    (handle : ManagedDatabase) (answer : Except DatabaseError StatementResult) :
    Event connection :=
  ⟨.daemon (.storage handle.id (.execute (queryStatement service query values)
    (lowerLimits service.limits.queryLimits limits))), answer⟩

def transactionRefusal (statements : List (String × WireParameters)) : Option ProtocolFailure :=
  match convertStatements service.floatOfInt statements with
  | .error message => some (.new .queryError message)
  | .ok _ => none

def transactionStatements (statements : List (String × WireParameters)) : List Statement :=
  (convertStatements service.floatOfInt statements).toOption.getD []

def transactionCall (statements : List (String × WireParameters)) (handle : ManagedDatabase)
    (answer : Except DatabaseError (List StatementResult)) : Event connection :=
  ⟨.daemon (.storage handle.id (.executeTransaction (transactionStatements service statements)
    service.limits.queryLimits)), answer⟩

theorem executeSelected_performs :
    Performs (executeSelected E service databaseId query values readOnly limits token)
      (Worked databaseId token (queryCall service query values limits)
        (queryRefusal E service query values readOnly)) := by
  unfold executeSelected
  split
  · rename_i hreadOnly
    exact Performs.fail (.refused (by simp [queryRefusal, hreadOnly]))
  · rename_i hreadOnly
    split
    · rename_i message hmessage
      exact Performs.fail (.refused (by simp [queryRefusal, hreadOnly, hmessage]))
    · rename_i converted hconverted
      rw [show queryRefusal E service query values readOnly = none by
          simp [queryRefusal, hreadOnly, hconverted],
        show (⟨query, converted⟩ : Statement) = queryStatement service query values by
          simp [queryStatement, hconverted, Except.toOption]]
      exact selected_performs fun handle =>
        Performs.op (S := connection) fun answer => Performs.pure ⟨answer, rfl, rfl⟩

theorem executeSelectedTransaction_performs :
    Performs (executeSelectedTransaction service databaseId statements token)
      (Worked databaseId token (transactionCall service statements)
        (transactionRefusal service statements)) := by
  unfold executeSelectedTransaction
  split
  · rename_i message hmessage
    exact Performs.fail (.refused (by simp [transactionRefusal, hmessage]))
  · rename_i converted hconverted
    rw [show transactionRefusal service statements = none by simp [transactionRefusal, hconverted],
      show converted = transactionStatements service statements by
        simp [transactionStatements, hconverted, Except.toOption]]
    exact selected_performs fun handle =>
      Performs.op (S := connection) fun answer => Performs.pure ⟨answer, rfl, rfl⟩

end

-- ---------------------------------------------------------------------------
-- Responses
-- ---------------------------------------------------------------------------

/-- The frame can be sent as it is. -/
def Service.Fits (service : Service) (frame : ServerFrame) : Prop :=
  0 < service.frameSize frame ∧ service.frameSize frame ≤ MAX_FRAME_BYTES

/-- The events of sending responses in a row when all get through. -/
def sentAll (requestId : UInt64) (responses : List ServerResponse) : List (Event connection) :=
  responses.map fun response => sent ⟨requestId, response⟩

/-- The events of sending responses in a row up to the first that does not get
through: the channel is closed, or the frame does not fit and is replaced. -/
inductive Stopped (service : Service) (requestId : UInt64) :
    List ServerResponse → List (Event connection) → Prop
  | closed (hfits : service.Fits ⟨requestId, response⟩) :
      Stopped service requestId (response :: rest) [⟨.send ⟨requestId, response⟩, false⟩]
  | replaced (hfits : ¬ service.Fits ⟨requestId, response⟩) (accepted : Bool) :
      Stopped service requestId (response :: rest)
        [⟨.send (failureFrame requestId tooLarge), accepted⟩]
  | next (hfits : service.Fits ⟨requestId, response⟩) (h : Stopped service requestId rest log) :
      Stopped service requestId (response :: rest) (sent ⟨requestId, response⟩ :: log)

section
variable {service : Service} {requestId : UInt64}

def AllFit (service : Service) (requestId : UInt64) (responses : List ServerResponse) : Prop :=
  ∀ response ∈ responses, service.Fits ⟨requestId, response⟩

theorem Stopped.before (h : Stopped service requestId first log) (rest : List ServerResponse) :
    Stopped service requestId (first ++ rest) log := by
  induction h with
  | closed hfits => exact .closed hfits
  | replaced hfits accepted => exact .replaced hfits accepted
  | next hfits _ ih => exact .next hfits ih

theorem Stopped.after (h : Stopped service requestId rest log)
    (hfirst : AllFit service requestId first) :
    Stopped service requestId (first ++ rest) (sentAll requestId first ++ log) := by
  induction first with
  | nil => exact h
  | cons response others ih =>
    obtain ⟨hfits, hothers⟩ := List.forall_mem_cons.mp hfirst
    exact .next hfits (ih hothers)

/-- The events of sending responses in a row: all of them, or up to a failure. -/
def Posted (service : Service) (requestId : UInt64) (responses : List ServerResponse) :
    Except String α → List (Event connection) → Prop
  | .ok _, log => AllFit service requestId responses ∧ log = sentAll requestId responses
  | .error _, log => Stopped service requestId responses log

theorem Stopped.sends_fitting (h : Stopped service requestId responses log)
    (hfit : AllFit service requestId responses) :
    log.map Event.op <+: responses.map fun response => .send ⟨requestId, response⟩ := by
  induction h with
  | closed => exact ⟨_, rfl⟩
  | replaced hlarge => exact absurd (hfit _ (List.mem_cons_self ..)) hlarge
  | next _ _ ih =>
    exact (List.prefix_cons_inj _).mpr (ih (List.forall_mem_cons.mp hfit).2)

/-- Responses that fit are not replaced. -/
theorem Posted.sends_fitting {r : Except String α} (h : Posted service requestId responses r log)
    (hfit : AllFit service requestId responses) :
    log.map Event.op <+: responses.map fun response => .send ⟨requestId, response⟩ := by
  cases r with
  | error => exact Stopped.sends_fitting h hfit
  | ok =>
    obtain ⟨-, rfl⟩ := h
    rw [sentAll, List.map_map]
    exact List.prefix_rfl

/-- `p` sends the responses in a row, and all of them if it succeeds. -/
def Delivers (service : Service) (requestId : UInt64) (p : Prog connection String Unit)
    (responses : List ServerResponse) : Prop :=
  Performs p (Posted service requestId responses)

theorem Delivers.bind {p : Prog connection String Unit} {f : Unit → Prog connection String Unit}
    (hp : Delivers service requestId p first) (hf : Delivers service requestId (f ()) rest) :
    Delivers service requestId (p.bind f) (first ++ rest) := by
  refine Performs.bind hp ?_ fun error log hlog => hlog.before rest
  rintro ⟨⟩ _ ⟨hfirst, rfl⟩
  refine hf.mono ?_
  rintro (error | ⟨⟩) log hlog
  · exact hlog.after hfirst
  · obtain ⟨hrest, rfl⟩ := hlog
    exact ⟨List.forall_mem_append.mpr ⟨hfirst, hrest⟩, by simp [sentAll]⟩

theorem sendResponse_delivers (response : ServerResponse) :
    Delivers service requestId (sendResponse service requestId response) [response] := by
  unfold sendResponse Delivers
  dsimp only
  have hfits : service.Fits ⟨requestId, response⟩ ↔
      ¬ (service.frameSize ⟨requestId, response⟩ = 0 ∨
        MAX_FRAME_BYTES < service.frameSize ⟨requestId, response⟩) := by
    simp [Service.Fits, Nat.pos_iff_ne_zero]
  split
  · rename_i hlarge
    refine Performs.step fun accepted => ?_
    have hreplaced : Stopped service requestId [response]
        [⟨.send (failureFrame requestId tooLarge), accepted⟩] :=
      .replaced (fun h => hfits.mp h hlarge) accepted
    cases accepted with
    | true => exact Performs.fail hreplaced
    | false => exact Performs.fail hreplaced
  · rename_i hsmall
    refine Performs.step fun accepted => ?_
    cases accepted with
    | true => exact Performs.pure ⟨by simpa [AllFit, hfits] using hsmall, rfl⟩
    | false => exact Performs.fail (.closed (hfits.mpr hsmall))

theorem sendRows_delivers (rows : List (List QueryValue)) :
    Delivers service requestId (sendRows service requestId rows)
      (rows.map fun row => .streamRow (row.map queryValueJson)) := by
  induction rows with
  | nil => exact Performs.pure ⟨by simp [AllFit], rfl⟩
  | cons row rest ih => exact (sendResponse_delivers _).bind ih

/-- The events of a result. -/
def statementResponses (stream : Bool) : StatementResult → List ServerResponse
  | .read result =>
    if stream then
      .streamStart result.columns result.ordered ::
        ((result.rows.map fun row => .streamRow (row.map queryValueJson)) ++
          [.streamEnd result.rows.length])
    else [.result (statementJson (.read result))]
  | .write result => [.result (statementJson (.write result))]

theorem sendStatement_delivers (result : StatementResult) (stream : Bool) :
    Delivers service requestId (sendStatement service requestId result stream)
      (statementResponses stream result) := by
  cases result with
  | read result =>
    cases stream with
    | true =>
      exact (sendResponse_delivers _).bind
        ((sendRows_delivers result.rows).bind (sendResponse_delivers _))
    | false => exact sendResponse_delivers _
  | write result => cases stream <;> exact sendResponse_delivers _

def chunkResponses (service : Service) : Nat → List Bytes → List ServerResponse
  | chunks, [] => [.snapshotEnd chunks]
  | chunks, chunk :: rest =>
    .snapshotChunk chunks (service.encodeBase64 chunk) :: chunkResponses service (chunks + 1) rest

def snapshotResponses (service : Service) (bytes : Bytes) : List ServerResponse :=
  .snapshotStart bytes.length :: chunkResponses service 0 (bytes.toChunks SNAPSHOT_CHUNK_BYTES)

theorem sendChunks_delivers (count : Nat) (chunks : List Bytes) :
    Delivers service requestId (sendChunks service requestId count chunks)
      (chunkResponses service count chunks) := by
  induction chunks generalizing count with
  | nil => exact sendResponse_delivers _
  | cons chunk rest ih => exact (sendResponse_delivers _).bind (ih (count + 1))

theorem sendSnapshot_delivers (bytes : Bytes) :
    Delivers service requestId (sendSnapshot service requestId bytes)
      (snapshotResponses service bytes) :=
  (sendResponse_delivers _).bind (sendChunks_delivers 0 _)

-- ---------------------------------------------------------------------------
-- Tasks
-- ---------------------------------------------------------------------------

/-- The events of a task's answer, of which nothing more is made. -/
inductive Delivered (service : Service) (requestId : UInt64) (responses : List ServerResponse) :
    List (Event connection) → Prop
  | all (h : AllFit service requestId responses) :
      Delivered service requestId responses (sentAll requestId responses)
  | stopped (h : Stopped service requestId responses log) :
      Delivered service requestId responses log

theorem discarding_performs {p : Prog connection String Unit}
    (hp : Delivers service requestId p responses) :
    Performs (discarding p) fun result log =>
      result = .ok () ∧ Delivered service requestId responses log := by
  refine Performs.attempt_bind hp fun result log hlog => Performs.pure ⟨rfl, ?_⟩
  rw [List.append_nil]
  cases result with
  | ok _ =>
    obtain ⟨hfit, rfl⟩ := hlog
    exact .all hfit
  | error _ => exact .stopped hlog

/-- What a worker's result is reported as. -/
def timed (message : String) (expired : Bool) : Except ProtocolFailure α → Except ProtocolFailure α
  | .ok value => .ok value
  | .error error => .error (if expired then .new .resourceLimit message else error)

theorem withTimeout_performs {worker : Prog connection ProtocolFailure α}
    {R : Except ProtocolFailure α → List (Event connection) → Prop} (h : Performs worker R) :
    Performs (withTimeout requestId worker message) fun outcome log =>
      ∃ result work expired, R result work ∧ outcome = .ok (timed message expired result) ∧
        log = work ++ [⟨.join requestId, expired⟩] := by
  refine Performs.attempt_bind h fun result work hwork => Performs.step fun expired => ?_
  cases expired with
  | false =>
    refine Performs.pure ⟨result, work, false, hwork, ?_, rfl⟩
    cases result <;> rfl
  | true =>
    cases result with
    | ok value => exact Performs.pure ⟨_, work, true, hwork, rfl, rfl⟩
    | error error => exact Performs.pure ⟨_, work, true, hwork, rfl, rfl⟩

def ProtocolFailure.response (error : ProtocolFailure) : ServerResponse :=
  .error error.code error.message error.retryable

/-- The responses to a request whose work has the given result. -/
def outcomeResponses (responses : α → List ServerResponse) :
    Except ProtocolFailure α → List ServerResponse
  | .ok value => responses value
  | .error error => [error.response]

/-- The whole run of a task: the work, the end of the race with the timer, and
the answer. -/
structure Ran (service : Service) (requestId : UInt64)
    (work : Except ProtocolFailure α → List (Event connection) → Prop) (message : String)
    (responses : α → List ServerResponse) (log : List (Event connection)) : Prop where
  parts : ∃ result worked expired replies, work result worked ∧
    Delivered service requestId (outcomeResponses responses (timed message expired result)) replies ∧
    log = worked ++ ⟨.join requestId, expired⟩ :: ⟨.removeActive requestId, ()⟩ :: replies

theorem reporting_performs {worker : Prog connection ProtocolFailure α}
    {work : Except ProtocolFailure α → List (Event connection) → Prop}
    {reply : Except ProtocolFailure α → Prog connection String Unit} (hworker : Performs worker work)
    (hreply : ∀ result, Performs (reply result) fun r log =>
      r = .ok () ∧ Delivered service requestId (outcomeResponses responses result) log) :
    Performs ((withTimeout requestId worker message).bind fun result =>
        (Prog.call (S := connection) (.removeActive requestId)).bind fun _ => reply result)
      fun r log => r = .ok () ∧ Ran service requestId work message responses log := by
  refine Performs.bind (withTimeout_performs hworker) ?_ ?_
  · rintro _ _ ⟨result, worked, expired, hwork, ⟨⟩, rfl⟩
    refine Performs.step ?_
    rintro ⟨⟩
    refine (hreply _).mono ?_
    rintro r replies ⟨hr, hreplies⟩
    exact ⟨hr, ⟨result, worked, expired, replies, hwork, hreplies, by simp⟩⟩
  · rintro _ _ ⟨_, _, _, _, ⟨⟩, -⟩

/-- What a task can do, over all its runs to the end. -/
def TaskRan (E : Engine) (service : Service) (requestId : UInt64) :
    Task → List (Event connection) → Prop
  | .query databaseId query values readOnly stream limits =>
    Ran service requestId (Worked databaseId requestId (queryCall service query values limits)
      (queryRefusal E service query values readOnly)) "query timeout exceeded"
      (statementResponses stream)
  | .transaction databaseId statements =>
    Ran service requestId (Worked databaseId requestId (transactionCall service statements)
      (transactionRefusal service statements)) "transaction timeout exceeded"
      fun results => [.transaction "committed" (results.map statementJson)]
  | .snapshotExport _ => fun log => ∃ exported replies result,
    (∀ e ∈ exported, e.op.isDaemon = true) ∧ log = exported ++ replies ∧
      Delivered service requestId (outcomeResponses (snapshotResponses service) result) replies

theorem runTask_performs (E : Engine) (task : Task) :
    Performs (runTask E service requestId task) fun r log =>
      r = .ok () ∧ TaskRan E service requestId task log := by
  cases task with
  | query databaseId query values readOnly stream limits =>
    refine reporting_performs (executeSelected_performs E service) fun result => ?_
    cases result with
    | ok value => exact discarding_performs (sendStatement_delivers value stream)
    | error error => exact discarding_performs (sendResponse_delivers _)
  | transaction databaseId statements =>
    refine reporting_performs (executeSelectedTransaction_performs service) fun result => ?_
    cases result with
    | ok value => exact discarding_performs (sendResponse_delivers _)
    | error error => exact discarding_performs (sendResponse_delivers _)
  | snapshotExport database =>
    refine Performs.attempt_bind (Performs.of_only (calling_only (exportSnapshot database))) ?_
    intro result exported hexported
    refine Performs.mono (R := fun r log => r = .ok () ∧
      Delivered service requestId (outcomeResponses (snapshotResponses service) result) log) ?_ ?_
    · cases result with
      | ok bytes => exact discarding_performs (sendSnapshot_delivers bytes)
      | error error => exact discarding_performs (sendResponse_delivers _)
    · rintro r replies ⟨hr, hreplies⟩
      exact ⟨hr, exported, replies, result, hexported, rfl, hreplies⟩

end

-- ---------------------------------------------------------------------------
-- The call of the engine
-- ---------------------------------------------------------------------------

def ConnectionOp.callsEngine : ConnectionOp → Bool
  | .daemon (.storage _ (.execute _ _)) | .daemon (.storage _ (.executeTransaction _ _)) => true
  | _ => false

theorem ConnectionOp.callsEngine_of_looks {o : ConnectionOp} (h : o.looks = true) :
    o.callsEngine = false := by
  unfold looks at h
  split at h <;> first | rfl | cases h

/-- Where only one element of a list has a property, that is where it is cut. -/
theorem cut_unique {p : α → Prop} {x y before after : List α} (hx : ∀ a ∈ x, ¬ p a)
    (hy : ∀ a ∈ y, ¬ p a) (he : p e) (h : x ++ c :: y = before ++ e :: after) :
    before = x ∧ e = c ∧ after = y := by
  induction x generalizing before with
  | nil =>
    cases before with
    | nil =>
      cases h
      exact ⟨rfl, rfl, rfl⟩
    | cons b before =>
      obtain ⟨rfl, rfl⟩ := List.cons.inj h
      exact absurd he (hy e (by simp))
  | cons a x ih =>
    cases before with
    | nil =>
      obtain ⟨rfl, -⟩ := List.cons.inj h
      exact absurd he (hx a (by simp))
    | cons b before =>
      simp only [List.cons_append, List.cons.injEq] at h
      obtain ⟨rfl, h⟩ := h
      obtain ⟨rfl, rfl, rfl⟩ := ih (fun a ha => hx a (by simp [ha])) h
      exact ⟨rfl, rfl, rfl⟩

theorem Stopped.sends (h : Stopped service requestId responses log) :
    ∀ e ∈ log, ∃ response, e.op = .send ⟨requestId, response⟩ := by
  induction h with
  | closed => simp
  | replaced => simp [failureFrame]
  | next _ _ ih => simpa [sent] using ih

theorem Delivered.sends (h : Delivered service requestId responses log) :
    ∀ e ∈ log, ∃ response, e.op = .send ⟨requestId, response⟩ := by
  cases h with
  | all => simp [sentAll, sent]
  | stopped h => exact h.sends

/-- The one call a worker makes, if it makes any: on the handle found under the
selected identifier, and not refused before. -/
theorem Ran.call {call : ManagedDatabase → Except DatabaseError α → Event connection}
    (h : Ran service requestId (Worked databaseId token call refusal) message responses log)
    (hlog : log = before ++ e :: after) (he : e.op.callsEngine = true) :
    Looks before ∧ refusal = none ∧ ∃ handle answer,
      ⟨.daemon (.readHandle databaseId), some handle⟩ ∈ before ∧ e = call handle answer := by
  obtain ⟨result, worked, expired, replies, hwork, hreplies, rfl⟩ := h.parts
  have hquiet {l : List (Event connection)} (hl : Looks l) :
      ∀ e ∈ l, ¬ e.op.callsEngine = true := fun e he => by
    simp [ConnectionOp.callsEngine_of_looks (hl e he)]
  have hend : ∀ e ∈ ⟨.join requestId, expired⟩ :: ⟨.removeActive requestId, ()⟩ :: replies,
      ¬ ConnectionOp.callsEngine e.op = true := by
    simp only [List.forall_mem_cons]
    refine ⟨by simp [ConnectionOp.callsEngine], by simp [ConnectionOp.callsEngine], ?_⟩
    intro e he
    obtain ⟨response, hsend⟩ := hreplies.sends e he
    simp [hsend, ConnectionOp.callsEngine]
  -- All other events look, answer or end the race.
  have habsurd (hworked : Looks worked) : False := by
    have hmem := hlog ▸ List.mem_append_right before (List.mem_cons_self (a := e) (l := after))
    rcases List.mem_append.mp hmem with hmem | hmem
    · exact hquiet hworked e hmem he
    · exact hend e hmem he
  have hfound {l l' : List (Event connection)} {c : Event connection} (hl : Looks l)
      (hl' : Looks l') (hworked : worked = l ++ c :: l') : before = l ∧ e = c := by
    subst hworked
    have hcut := cut_unique (p := fun e : Event connection => e.op.callsEngine = true)
      (y := l' ++ ⟨.join requestId, expired⟩ :: ⟨.removeActive requestId, ()⟩ :: replies)
      (hquiet hl) (List.forall_mem_append.mpr ⟨hquiet hl', hend⟩) he (by simpa using hlog)
    exact ⟨hcut.1, hcut.2.1⟩
  cases hwork with
  | refused => exact (habsurd (by simp [Looks])).elim
  | missing _ hlooks => exact (habsurd hlooks).elim
  | found hnone hlooks hhandle hcalled =>
    cases hcalled with
    | unavailable hlater => exact (habsurd (hlooks.append hlater)).elim
    | done hmid hlater =>
      obtain ⟨rfl, rfl⟩ := hfound (hlooks.append hmid) hlater (List.append_assoc _ _ _).symm
      exact ⟨hlooks.append hmid, hnone, _, _, List.mem_append_left _ hhandle, rfl⟩
    | failed hmid hlater =>
      obtain ⟨rfl, rfl⟩ := hfound (hlooks.append hmid) hlater (List.append_assoc _ _ _).symm
      exact ⟨hlooks.append hmid, hnone, _, _, List.mem_append_left _ hhandle, rfl⟩

-- ---------------------------------------------------------------------------
-- Which operations a task consists of
-- ---------------------------------------------------------------------------

section
variable {P : ConnectionOp → Prop} {service : Service} {requestId : UInt64}

theorem executing_only {engine : Prog connection ProtocolFailure (Except DatabaseError α)}
    (hdaemon : ∀ o, P (.daemon o)) (hcancelled : P (.isCancelled token))
    (hengine : engine.Only (S := connection) P) :
    (executing handle token engine).Only (S := connection) P := by
  refine Prog.Only.step (hdaemon _) fun _ => Prog.Only.bind (Prog.Only.attempt ?_) fun result =>
    Prog.Only.step (hdaemon _) fun _ => ?_
  · refine Prog.Only.step (hdaemon _) fun slot => ?_
    cases slot with
    | none => trivial
    | some database =>
      refine hengine.bind fun reply => ?_
      cases reply with
      | ok value => trivial
      | error error => exact Prog.Only.step hcancelled fun _ => trivial
  · cases result <;> trivial

theorem selected_only {engine : ManagedDatabase → Prog connection ProtocolFailure (Except DatabaseError α)}
    (hdaemon : ∀ o, P (.daemon o)) (hcancelled : P (.isCancelled token))
    (hengine : ∀ handle, (engine handle).Only (S := connection) P) :
    ((calling (handleForSelectedId databaseId)).bind fun handle =>
      executing handle token (engine handle)).Only (S := connection) P :=
  (Prog.Only.lift (Prog.Only.of_forall hdaemon _)).bind fun handle =>
    executing_only hdaemon hcancelled (hengine handle)

theorem sendRows_only (hsend : ∀ response, P (.send ⟨requestId, response⟩))
    (rows : List (List QueryValue)) :
    (sendRows service requestId rows).Only (S := connection) P := by
  induction rows with
  | nil => trivial
  | cons row rest ih => exact (sendResponse_only hsend _).bind fun _ => ih

theorem sendChunks_only (hsend : ∀ response, P (.send ⟨requestId, response⟩)) (chunks : List Bytes) :
    (sendChunks service requestId count chunks).Only (S := connection) P := by
  induction chunks generalizing count with
  | nil => exact sendResponse_only hsend _
  | cons chunk rest ih => exact (sendResponse_only hsend _).bind fun _ => ih

theorem discarding_only {p : Prog connection String Unit} (h : p.Only (S := connection) P) :
    (discarding p).Only (S := connection) P :=
  h.attempt.bind fun _ => trivial

theorem reporting_only {worker : Prog connection ProtocolFailure α}
    {reply : Except ProtocolFailure α → Prog connection String Unit}
    (hworker : worker.Only (S := connection) P) (hjoin : P (.join requestId))
    (hremove : P (.removeActive requestId)) (hreply : ∀ result, (reply result).Only (S := connection) P) :
    ((withTimeout requestId worker message).bind fun result =>
      (Prog.call (S := connection) (.removeActive requestId)).bind fun _ =>
        reply result).Only (S := connection) P := by
  refine Prog.Only.bind ?_ fun result => Prog.Only.step hremove fun _ => hreply result
  refine hworker.attempt.bind fun result => Prog.Only.step hjoin fun expired => ?_
  cases expired with
  | false => trivial
  | true => cases result <;> trivial

/-- Everything a task does is for its own request. -/
theorem runTask_only (hsend : ∀ response, P (.send ⟨requestId, response⟩))
    (hdaemon : ∀ o, P (.daemon o)) (hcancelled : P (.isCancelled requestId))
    (hjoin : P (.join requestId)) (hremove : P (.removeActive requestId)) (task : Task) :
    (runTask E service requestId task).Only (S := connection) P := by
  have hdeliver {p : Prog connection String Unit} (h : p.Only (S := connection) P) :=
    discarding_only h
  cases task with
  | query databaseId query values readOnly stream limits =>
    refine reporting_only ?_ hjoin hremove fun result => ?_
    · unfold executeSelected
      split
      · trivial
      split
      · trivial
      · exact selected_only hdaemon hcancelled fun _ => Prog.Only.step (hdaemon _) fun _ => trivial
    · cases result with
      | error error => exact hdeliver (sendResponse_only hsend _)
      | ok value =>
        refine hdeliver ?_
        unfold sendStatement
        split
        · exact (sendResponse_only hsend _).bind fun _ =>
            (sendRows_only hsend _).bind fun _ => sendResponse_only hsend _
        · exact sendResponse_only hsend _
  | transaction databaseId statements =>
    refine reporting_only ?_ hjoin hremove fun result => ?_
    · unfold executeSelectedTransaction
      split
      · trivial
      · exact selected_only hdaemon hcancelled fun _ => Prog.Only.step (hdaemon _) fun _ => trivial
    · cases result <;> exact hdeliver (sendResponse_only hsend _)
  | snapshotExport database =>
    refine Prog.Only.bind (Prog.Only.attempt
      (Prog.Only.lift (Prog.Only.of_forall hdaemon _))) fun result => ?_
    cases result with
    | error error => exact hdeliver (sendResponse_only hsend _)
    | ok bytes =>
      exact hdeliver ((sendResponse_only hsend _).bind fun _ => sendChunks_only hsend _)

end

end NostdbServer
