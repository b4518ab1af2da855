import NostdbServer.Protocol.Workers

/-!
# What one turn does

Everything the connection does about a received frame, with the outcome: some
work that sends nothing and then one response, or the start of a task that will
respond. Whatever is sent or started carries the identifier of the frame.
-/

namespace NostdbServer

open Effects

/-- Operations that send nothing and start nothing. -/
def ConnectionOp.silent : ConnectionOp → Bool
  | .daemon _ | .isActive _ | .cancel _ => true
  | _ => false

def Silent (log : List (Event connection)) : Prop := ∀ e ∈ log, e.op.silent = true

theorem Silent.nil : Silent [] := by simp [Silent]

theorem Silent.append {log log' : List (Event connection)} (h : Silent log) (h' : Silent log') :
    Silent (log ++ log') := by
  simpa [Silent, or_imp, forall_and] using ⟨h, h'⟩

theorem Silent.snoc {log : List (Event connection)} {e : Event connection} (h : Silent log)
    (he : e.op.silent = true) : Silent (log ++ [e]) :=
  h.append (by simpa [Silent] using he)

theorem Silent.of_daemon {log : List (Event connection)} (h : ∀ e ∈ log, e.op.isDaemon = true) :
    Silent log := by
  intro e he
  have ho := h e he
  unfold ConnectionOp.isDaemon at ho
  split at ho
  · simp_all [ConnectionOp.silent]
  · cases ho

/-- The response is the last one to its request. -/
def ServerResponse.isTerminal : ServerResponse → Bool
  | .streamStart _ _ | .streamRow _ | .snapshotStart _ | .snapshotChunk _ _ => false
  | _ => true

def ClientRequest.uploads : ClientRequest → Bool
  | .snapshotRestoreBegin _ _ | .snapshotRestoreChunk _ _ | .snapshotRestoreCommit
  | .snapshotRestoreAbort => true
  | _ => false

/-- What a turn may answer to a request by itself. -/
def ServerResponse.replies (request : ClientRequest) : ServerResponse → Bool
  | .error _ _ _ => true
  | .pong => (request matches .ping)
  | .databaseSelected _ => (request matches .selectDatabase _)
  | .queued _ => (request matches .query _ _ _ _ _)
  | .transaction _ _ => (request matches .begin | .rollback)
  | .cancelled _ => (request matches .cancel _)
  | .databaseCreated _ => (request matches .databaseCreate _)
  | .databaseList _ => (request matches .databaseList)
  | .databaseInfo _ => (request matches .databaseInspect _)
  | .databaseRenamed _ => (request matches .databaseRename _ _)
  | .databaseDropped _ _ => (request matches .databaseDrop _ _)
  | .snapshotRestore _ _ => request.uploads
  | .logicalPackage _ => (request matches .logicalExport _)
  | .logicalImported _ => (request matches .logicalImport _ _)
  | _ => false

theorem ServerResponse.isTerminal_of_replies {response : ServerResponse}
    (h : response.replies request = true) : response.isTerminal = true := by
  cases response <;> first | rfl | cases h

/-- What a turn of a session does about a frame. `launches` tells which tasks it
may start and the state it leaves then. -/
inductive Handled (service : Service) (frame : ClientFrame)
    (launches : ConnectionState → Task → Prop) :
    Except String ConnectionState → List (Event connection) → Prop
  | answered (hwork : Silent work) (hreply : response.replies frame.request = true)
      (hposted : Posted service frame.requestId [response] r log) :
      Handled service frame launches r (work ++ log)
  | taken : Handled service frame launches (.error message) [⟨.insertActive frame.requestId, true⟩]
  | launched (h : launches state task) (hexport : ∀ database, task ≠ .snapshotExport database) :
      Handled service frame launches (.ok state)
        [⟨.insertActive frame.requestId, false⟩, ⟨.spawn frame.requestId task, ()⟩]
  | exporting (h : launches state (.snapshotExport database)) :
      Handled service frame launches (.ok state)
        [⟨.spawn frame.requestId (.snapshotExport database), ()⟩]

theorem Handled.mono {launches launches' : ConnectionState → Task → Prop}
    (h : Handled service frame launches r log)
    (hl : ∀ state task, launches state task → launches' state task) :
    Handled service frame launches' r log := by
  cases h with
  | answered hwork hreply hposted => exact .answered hwork hreply hposted
  | taken => exact .taken
  | launched h hexport => exact .launched (hl _ _ h) hexport
  | exporting h => exact .exporting (hl _ _ h)

/-- The task a frame starts in a session. -/
inductive Launches (E : Engine) (frame : ClientFrame) (state state' : ConnectionState) :
    Task → Prop
  | query (hrequest : frame.request = .query query values readOnly stream limits)
      (hselected : state.selectedDatabaseId = some databaseId) (hnone : state.transaction = none)
      (hnone' : state'.transaction = none) :
      Launches E frame state state' (.query databaseId query values readOnly stream limits)
  | commit (hrequest : frame.request = .commit)
      (hselected : state.selectedDatabaseId = some databaseId)
      (hqueue : state.transaction = some queue) (hnone' : state'.transaction = none)
      (hreads : (queue.any fun statement =>
        statement.readOnly && E.preparesWrite statement.query) = false) :
      Launches E frame state state' (.transaction databaseId (queue.map QueuedStatement.pair))
  | snapshotExport (hrequest : frame.request = .snapshotExport database)
      (hrole : state.role = .admin) : Launches E frame state state' (.snapshotExport database)

/-- `p` comes to an answer, whatever silent work came before it. -/
def Answers (service : Service) (frame : ClientFrame) (launches : ConnectionState → Task → Prop)
    (p : Prog connection String ConnectionState) : Prop :=
  ∀ work, Silent work → Performs p fun r log => Handled service frame launches r (work ++ log)

section
variable {service : Service} {frame : ClientFrame} {state : ConnectionState}
  {launches : ConnectionState → Task → Prop}

theorem Answers.performs {p : Prog connection String ConnectionState}
    (h : Answers service frame launches p) : Performs p (Handled service frame launches) :=
  h [] .nil

theorem Answers.step {o : ConnectionOp} {f : o.Ans → Prog connection String ConnectionState}
    (ho : o.silent = true) (hf : ∀ ans, Answers service frame launches (f ans)) :
    Answers service frame launches ((Prog.call (S := connection) o).bind f) := by
  refine fun work hwork => Performs.step fun ans => ?_
  simpa using hf ans _ (hwork.snoc (e := ⟨o, ans⟩) ho)

theorem Answers.calling {p : Prog daemon ProtocolFailure α}
    {f : Except ProtocolFailure α → Prog connection String ConnectionState}
    (hf : ∀ result, Answers service frame launches (f result)) :
    Answers service frame launches ((calling p).attempt.bind f) := by
  refine fun work hwork => Performs.attempt_bind (Performs.of_only (calling_only p)) ?_
  intro result log hlog
  simpa using hf result _ (hwork.append (.of_daemon hlog))

theorem Answers.sendResponse {response : ServerResponse} (h : response.replies frame.request = true) :
    Answers service frame launches
      ((sendResponse service frame.requestId response).bind fun _ => .pure state) := by
  refine fun work hwork => Performs.bind (sendResponse_delivers response) ?_ ?_
  · rintro ⟨⟩ log hlog
    exact Performs.pure (.answered hwork h (r := .ok state) (by simpa [Posted] using hlog))
  · exact fun message log hlog => .answered hwork h (r := .error message) hlog

theorem Answers.respondResult {response : α → ServerResponse}
    (h : ∀ value, (response value).replies frame.request = true) (result : Except ProtocolFailure α) :
    Answers service frame launches
      ((respondResult service frame.requestId result response).bind fun _ => .pure state) := by
  cases result with
  | ok value => exact .sendResponse (h value)
  | error error => exact .sendResponse rfl

theorem Answers.refuse : Answers service frame launches (refuse service frame.requestId state code message) :=
  .sendResponse rfl

theorem Answers.answer {response : ServerResponse} (h : response.replies frame.request = true) :
    Answers service frame launches (answer service frame.requestId state response) :=
  .sendResponse h

theorem Answers.relay {p : Prog daemon ProtocolFailure α} {response : α → ServerResponse}
    (h : ∀ value, (response value).replies frame.request = true) :
    Answers service frame launches (relay service frame.requestId state p response) :=
  .calling fun result => .respondResult h result

theorem launch_performs {task : Task} (h : launches state task)
    (hexport : ∀ database, task ≠ .snapshotExport database) :
    Performs (launch frame.requestId state task) (Handled service frame launches) := by
  refine Performs.step fun taken => ?_
  cases taken with
  | true => exact Performs.fail .taken
  | false => exact Performs.step fun _ => Performs.pure (.launched h hexport)

theorem dispatchSelect_answers (hrequest : frame.request = .selectDatabase database) :
    Answers service frame launches (dispatchSelect service frame.requestId state database) := by
  refine .calling ?_
  rintro (_ | _)
  · exact .sendResponse rfl
  · exact .answer (by simp [hrequest, ServerResponse.replies])

theorem dispatchQuery_performs
    (hrequest : frame.request = .query query values readOnly stream limits)
    (h : ∀ id, state.selectedDatabaseId = some id → state.transaction = none →
      launches state (.query id query values readOnly stream limits)) :
    Performs (dispatchQuery service frame.requestId state query values readOnly stream limits)
      (Handled service frame launches) := by
  unfold dispatchQuery
  split
  · exact Answers.refuse.performs
  · unfold enqueue
    split
    · exact Answers.refuse.performs
    split
    · exact Answers.refuse.performs
    split
    · exact Answers.refuse.performs
    · exact (Answers.answer (by simp [hrequest, ServerResponse.replies])).performs
  · rename_i id hselected hnone
    exact launch_performs (h id hselected hnone) (by simp)

theorem dispatchBegin_answers (hrequest : frame.request = .begin) :
    Answers service frame launches (dispatchBegin service frame.requestId state) := by
  unfold dispatchBegin
  split
  · exact .refuse
  split
  · exact .refuse
  · exact .answer (by simp [hrequest, ServerResponse.replies])

theorem dispatchCommit_performs
    (h : ∀ id queue, state.selectedDatabaseId = some id → state.transaction = some queue →
      (queue.any fun statement => statement.readOnly && E.preparesWrite statement.query) = false →
      launches { state with transaction := none }
        (.transaction id (queue.map QueuedStatement.pair))) :
    Performs (dispatchCommit E service frame.requestId state) (Handled service frame launches) := by
  unfold dispatchCommit
  split
  · exact Answers.refuse.performs
  rename_i queue hqueue
  dsimp only
  split
  · exact Answers.refuse.performs
  rename_i id hselected
  split
  · exact Answers.refuse.performs
  · rename_i hreads
    exact launch_performs (h id queue hselected hqueue (Bool.not_eq_true _ ▸ hreads)) (by simp)

theorem dispatchRollback_answers (hrequest : frame.request = .rollback) :
    Answers service frame launches (dispatchRollback service frame.requestId state) := by
  unfold dispatchRollback
  split
  · exact .refuse
  · exact .answer (by simp [hrequest, ServerResponse.replies])

theorem dispatchCancel_answers (hrequest : frame.request = .cancel target) :
    Answers service frame launches (dispatchCancel service frame.requestId state target) := by
  refine .step rfl ?_
  rintro (_ | _)
  · exact .refuse
  · exact .step rfl fun _ => .answer (by simp [hrequest, ServerResponse.replies])

theorem dispatchRestoreBegin_answers (huploads : frame.request.uploads = true) :
    Answers service frame launches
      (dispatchRestoreBegin service frame.requestId state database totalBytes) := by
  unfold dispatchRestoreBegin
  split
  · exact .refuse
  split
  · exact .refuse
  refine .calling ?_
  rintro (_ | _)
  · exact .sendResponse rfl
  · exact .answer huploads

theorem dispatchRestoreChunk_answers {sequence : Nat} (huploads : frame.request.uploads = true) :
    Answers service frame launches
      (dispatchRestoreChunk service frame.requestId state sequence data) := by
  unfold dispatchRestoreChunk
  split
  · exact .refuse
  split
  · exact .refuse
  split
  · exact .refuse
  split
  · exact .refuse
  split
  · exact .refuse
  · exact .answer huploads

theorem dispatchRestoreCommit_answers (huploads : frame.request.uploads = true) :
    Answers service frame launches (dispatchRestoreCommit service frame.requestId state) := by
  unfold dispatchRestoreCommit
  split
  · exact .refuse
  split
  · exact .refuse
  · exact .relay fun _ => huploads

end

theorem dispatch_performs {frame : ClientFrame} :
    Performs (dispatch E service frame state) (Handled service frame
      fun state' task => Launches E frame state state' task) := by
  unfold dispatch
  dsimp only
  split
  · exact Answers.refuse.performs
  rename_i hrole
  split
  · exact Answers.refuse.performs
  split
  case h_1 => exact Answers.refuse.performs
  case h_2 hrequest =>
    exact (Answers.answer (by simp [hrequest, ServerResponse.replies])).performs
  case h_3 hrequest => exact (dispatchSelect_answers hrequest).performs
  case h_4 hrequest =>
    exact dispatchQuery_performs hrequest fun _ hselected hnone =>
      .query hrequest hselected hnone hnone
  case h_5 hrequest => exact (dispatchBegin_answers hrequest).performs
  case h_6 hrequest =>
    exact dispatchCommit_performs fun _ _ hselected hqueue hreads =>
      .commit hrequest hselected hqueue rfl hreads
  case h_7 hrequest => exact (dispatchRollback_answers hrequest).performs
  case h_8 hrequest => exact (dispatchCancel_answers hrequest).performs
  case h_13 hrequest =>
    refine (Answers.calling fun result => .respondResult (fun _ => ?_) result).performs
    simp [hrequest, ServerResponse.replies]
  case h_14 hrequest =>
    refine Performs.step fun _ => Performs.pure (.exporting (.snapshotExport hrequest ?_))
    simpa [isAdminRequest, hrequest] using hrole
  case h_15 hrequest =>
    exact (dispatchRestoreBegin_answers (by simp [hrequest, ClientRequest.uploads])).performs
  case h_16 hrequest =>
    exact (dispatchRestoreChunk_answers (by simp [hrequest, ClientRequest.uploads])).performs
  case h_17 hrequest =>
    exact (dispatchRestoreCommit_answers (by simp [hrequest, ClientRequest.uploads])).performs
  case h_18 hrequest =>
    exact (Answers.answer (by simp [hrequest, ServerResponse.replies, ClientRequest.uploads])).performs
  all_goals
    rename_i hrequest
    exact (Answers.relay fun _ => by simp [hrequest, ServerResponse.replies]).performs

theorem receive_performs {frame : ClientFrame} :
    Performs (receive E service frame state) (Handled service frame
      fun state' task => state.lastRequestId < frame.requestId ∧
        Launches E frame state state' task) := by
  unfold receive
  split
  · exact Answers.refuse.performs
  · rename_i hnew
    refine dispatch_performs.mono fun r log h => h.mono ?_
    intro state' task hl
    refine ⟨UInt64.not_le.mp hnew, ?_⟩
    cases hl with
    | query hrequest hselected hnone hnone' => exact .query hrequest hselected hnone hnone'
    | commit hrequest hselected hqueue hnone' hreads =>
      exact .commit hrequest hselected hqueue hnone' hreads
    | snapshotExport hrequest hrole => exact .snapshotExport hrequest hrole

-- ---------------------------------------------------------------------------
-- The state a turn leaves
-- ---------------------------------------------------------------------------

/-- What a dispatched request can do to the state of its connection. -/
inductive Changed (frame : ClientFrame) (state : ConnectionState) : ConnectionState → Prop
  | same : Changed frame state state
  | selected (hrequest : frame.request = .selectDatabase database)
      (hnone : state.transaction = none) :
      Changed frame state { state with selectedDatabaseId := some databaseId }
  | dropped (hrole : state.role = .admin)
      (hrequest : frame.request = .databaseDrop database confirmName)
      (hselected : state.selectedDatabaseId = some databaseId) (hnone : state.transaction = none) :
      Changed frame state { state with selectedDatabaseId := none, transaction := none }
  | transaction (queue : Option (List QueuedStatement)) :
      Changed frame state { state with transaction := queue }
  | restore (hrole : state.role = .admin) (hrequest : frame.request.uploads = true)
      (upload : Option SnapshotUpload) :
      Changed frame state { state with restore := upload }

section
variable {service : Service} {frame : ClientFrame} {state : ConnectionState}

theorem Changed.refused :
    Yields (refuse service frame.requestId state code message) log fun state' _ =>
      Changed frame state state' :=
  .refuse .same

theorem Changed.relayed {p : Prog daemon ProtocolFailure α} {response : α → ServerResponse} :
    Yields (relay service frame.requestId state p response) log fun state' _ =>
      Changed frame state state' :=
  .relay (fun _ _ _ => .same) fun _ _ _ => .same

theorem dispatch_changed :
    Yields (dispatch E service frame state) [] fun state' _ => Changed frame state state' := by
  unfold dispatch
  dsimp only
  split
  · exact Changed.refused
  rename_i hprivileged
  have hrole (h : isAdminRequest frame.request = true) : state.role = .admin := by
    simpa [h] using hprivileged
  have hupload (upload : Option SnapshotUpload) (h : frame.request.uploads = true) :
      Changed frame state { state with restore := upload } := by
    refine .restore (hrole ?_) h upload
    unfold ClientRequest.uploads at h
    split at h <;> simp_all [isAdminRequest]
  split
  · exact Changed.refused
  rename_i hfree
  have hnone (h : changesDatabaseContext frame.request = true) : state.transaction = none := by
    simpa [h] using hfree
  split
  case h_1 => exact Changed.refused
  case h_2 => exact .answer .same
  case h_3 hrequest =>
    refine .bind (.calling fun result _ _ => ?_)
    cases result with
    | ok summary =>
      exact .answer (.selected hrequest (hnone (by simp [hrequest, changesDatabaseContext])))
    | error error => exact .bind (.sendResponse .same)
  case h_4 hrequest =>
    unfold dispatchQuery
    split
    · exact Changed.refused
    · unfold enqueue
      split
      · exact Changed.refused
      split
      · exact Changed.refused
      split
      · exact Changed.refused
      · exact .answer (.transaction _)
    · exact .launch .same
  case h_5 =>
    unfold dispatchBegin
    split
    · exact Changed.refused
    split
    · exact Changed.refused
    · exact .answer (.transaction _)
  case h_6 =>
    unfold dispatchCommit
    split
    · exact Changed.refused
    dsimp only
    split
    · exact .refuse (.transaction none)
    split
    · exact .refuse (.transaction none)
    · exact .launch (.transaction none)
  case h_7 =>
    unfold dispatchRollback
    split
    · exact Changed.refused
    · exact .answer (.transaction none)
  case h_8 =>
    refine .step fun active => ?_
    cases active with
    | false => exact Changed.refused
    | true => exact .step fun _ => .answer .same
  case h_13 hrequest =>
    refine .bind (.calling fun result _ _ => .bind ?_)
    cases result with
    | ok dropped =>
      refine .sendResponse ?_
      dsimp only
      split
      · rename_i hselected
        exact .dropped (hrole (by simp [hrequest, isAdminRequest])) hrequest hselected
          (hnone (by simp [hrequest, changesDatabaseContext]))
      · exact .same
    | error error => exact .sendResponse .same
  case h_14 => exact .step fun _ => .same
  case h_15 hrequest =>
    unfold dispatchRestoreBegin
    split
    · exact Changed.refused
    split
    · exact Changed.refused
    refine .bind (.calling fun result _ _ => ?_)
    cases result with
    | ok summary => exact .answer (hupload _ (by simp [hrequest, ClientRequest.uploads]))
    | error error => exact .bind (.sendResponse .same)
  case h_16 hrequest =>
    unfold dispatchRestoreChunk
    split
    · exact Changed.refused
    split
    · exact Changed.refused
    split
    · exact Changed.refused
    split
    · exact Changed.refused
    split
    · exact Changed.refused
    · exact .answer (hupload _ (by simp [hrequest, ClientRequest.uploads]))
  case h_17 hrequest =>
    have huploads : frame.request.uploads = true := by simp [hrequest, ClientRequest.uploads]
    unfold dispatchRestoreCommit
    split
    · exact Changed.refused
    split
    · exact Changed.refused
    · exact .relay (fun _ _ _ => hupload none huploads) fun _ _ _ => hupload none huploads
  case h_18 hrequest => exact .answer (hupload none (by simp [hrequest, ClientRequest.uploads]))
  all_goals exact Changed.relayed

/-- A refused identifier changes nothing; any other is remembered. -/
theorem receive_changed :
    Yields (receive E service frame state) [] fun state' _ =>
      frame.requestId ≤ state.lastRequestId ∧ state' = state ∨
      state.lastRequestId < frame.requestId ∧
        Changed frame { state with lastRequestId := frame.requestId } state' := by
  unfold receive
  split
  · rename_i hold
    exact .refuse (.inl ⟨hold, rfl⟩)
  · rename_i hnew
    exact dispatch_changed.mono fun state' _ h => .inr ⟨UInt64.not_le.mp hnew, h⟩

end

-- ---------------------------------------------------------------------------
-- Turns that are not over yet
-- ---------------------------------------------------------------------------

theorem Posted.sends {r : Except String α} (h : Posted service requestId responses r log) :
    ∀ e ∈ log, ∃ response, e.op = .send ⟨requestId, response⟩ := by
  cases r with
  | ok _ =>
    obtain ⟨-, rfl⟩ := h
    simp [sentAll, sent]
  | error _ => exact Stopped.sends h

/-- Greeting and leaving have operations of their own. -/
def ConnectionOp.receives : ConnectionOp → Bool
  | .write _ | .cancelAll | .joinTasks | .joinWriter => false
  | _ => true

theorem greet_only {service : Service} {frame : ClientFrame} :
    (greet service frame).Only (S := connection) fun o => ConnectionOp.receives o = false := by
  have hwrite (reply : ServerFrame) :
      (writeFrame service reply).Only (S := connection) fun o =>
        ConnectionOp.receives o = false := by
    unfold writeFrame
    dsimp only
    split
    · trivial
    · refine Prog.Only.step rfl ?_
      rintro (_ | _) <;> trivial
  unfold greet
  split
  · split
    · trivial
    split
    · exact (hwrite _).bind fun _ => trivial
    split
    · exact (hwrite _).bind fun _ => trivial
    · exact (hwrite _).bind fun _ => trivial
  · exact (hwrite _).bind fun _ => trivial

theorem leave_only : leave.Only (S := connection) fun o => ConnectionOp.receives o = false := by
  refine Prog.Only.step rfl fun _ => Prog.Only.step rfl fun _ => Prog.Only.step rfl ?_
  rintro (_ | _) <;> trivial

theorem handleIncoming_frame
    (h : (handleIncoming E service (.session state) (.frame frame)).Run log rest) :
    ∃ p, (receive E service frame state).Run log p ∧ rest = p.bind fun s => .pure (.session s) := by
  obtain ⟨p, hp, rfl⟩ | ⟨state', log₁, log₂, rfl, hp, hrest⟩ := h.of_bind
  · exact ⟨p, hp, rfl⟩
  · cases hrest
    exact ⟨_, by simpa using hp, rfl⟩

/-- All other operations belong to a frame received in a session. -/
theorem handleIncoming_receives (h : (handleIncoming E service before incoming).Run log rest)
    (he : o ∈ log.map Event.op) (ho : ConnectionOp.receives o = true) :
    ∃ state frame p, before = .session state ∧ incoming = .frame frame ∧
      (receive E service frame state).Run log p ∧ rest = p.bind fun s => .pure (.session s) := by
  have hnone (honly : (handleIncoming E service before incoming).Only (S := connection) fun o =>
      ConnectionOp.receives o = false) : False := by
    obtain ⟨e, hmem, rfl⟩ := List.mem_map.mp he
    have hfalse := (h.only honly).1 e hmem
    simp_all
  cases before with
  | greeting =>
    cases incoming with
    | frame frame => exact (hnone greet_only).elim
    | _ => exact (hnone trivial).elim
  | session state =>
    cases incoming with
    | frame frame =>
      obtain ⟨p, hp, hrest⟩ := handleIncoming_frame h
      exact ⟨state, frame, p, rfl, rfl, hp, hrest⟩
    | shutdown => exact (hnone leave_only).elim
    | endOfStream message => exact (hnone leave_only).elim
    | _ => exact (hnone trivial).elim
  | closed => cases incoming <;> exact (hnone trivial).elim

/-- What is about to be done belongs to a frame, too. -/
theorem handleIncoming_next {next : o.Ans → Prog connection String Phase}
    (h : (handleIncoming E service before incoming).Run log (.op o next))
    (ho : ConnectionOp.receives o = true) :
    ∃ state frame next', before = .session state ∧ incoming = .frame frame ∧
      (receive E service frame state).Run log (.op o next') := by
  obtain ⟨ans⟩ := o.ans_nonempty
  have hmem : o ∈ (log ++ [(⟨o, ans⟩ : Event connection)]).map Event.op := by simp
  obtain ⟨state, frame, -, hbefore, hincoming, -⟩ :=
    handleIncoming_receives (h.snoc (S := connection) ans) hmem ho
  subst hbefore hincoming
  obtain ⟨p, hp, hrest⟩ | ⟨state', log₁, log₂, rfl, hp, hrest⟩ := h.of_bind
  · cases p with
    | op o' next' =>
      cases hrest
      exact ⟨state, frame, next', rfl, rfl, hp⟩
    | pure | fail => cases hrest
  · cases hrest

/-- How a turn that is over came to its phase. -/
inductive Ended (E : Engine) (service : Service) (t : Turn) : Phase → Prop
  | closed : Ended E service t .closed
  | waiting (hbefore : t.before = .greeting) (hincoming : ∀ frame, t.incoming ≠ .frame frame) :
      Ended E service t .greeting
  | greeted (hbefore : t.before = .greeting) (hincoming : t.incoming = .frame frame)
      (h : Greeted service frame φ) (hlog : ∃ reply, t.log = [⟨.write reply, .ok ()⟩]) :
      Ended E service t φ
  | woken (hbefore : t.before = .session state) (hincoming : t.incoming = .woken)
      (hlog : t.log = []) : Ended E service t (.session state)
  | received (hbefore : t.before = .session state) (hincoming : t.incoming = .frame frame)
      (hrun : (receive E service frame state).Run t.log (.pure state')) :
      Ended E service t (.session state')

theorem Turn.ended {t : Turn} (h : (handleIncoming E service t.before t.incoming).Run t.log t.rest)
    (hafter : t.after = some φ) : Ended E service t φ := by
  obtain ⟨before, incoming, log, rest⟩ := t
  dsimp only at h
  cases rest with
  | op o next => cases hafter
  | fail message =>
    cases hafter
    exact .closed
  | pure phase =>
    obtain rfl : phase = φ := Option.some.inj hafter
    cases before with
    | greeting =>
      cases incoming with
      | frame frame =>
        obtain ⟨hgreeted, hlog⟩ := greet_yields.run h
        exact .greeted rfl rfl hgreeted hlog
      | woken | shutdown =>
        cases h
        exact .waiting rfl (by simp)
      | endOfStream message | broken message => cases h
    | session state =>
      cases incoming with
      | frame frame =>
        obtain ⟨p, hp, hrest⟩ | ⟨state', log₁, log₂, rfl, hp, hrest⟩ := h.of_bind
        · cases p with
          | pure state' =>
            cases hrest
            exact .received rfl rfl hp
          | fail | op => cases hrest
        · cases hrest
          exact .received rfl rfl (by simpa using hp)
      | woken =>
        cases h
        exact .woken rfl rfl rfl
      | shutdown | endOfStream message =>
        cases leave_yields.run h
        exact .closed
      | broken message => cases h
    | closed =>
      have hclosed : phase = .closed := by cases incoming <;> cases h <;> rfl
      cases hclosed
      exact .closed

section
variable {frame : ClientFrame} {state : ConnectionState}

/-- Where only the last element of a list has a property, nothing follows it. -/
theorem ends_with {p : α → Prop} {log later first : List α} (h : log ++ later = first ++ [e])
    (hfirst : ∀ x ∈ first, ¬ p x) (hx : x ∈ log) (hp : p x) : later = [] := by
  rcases List.eq_nil_or_concat' later with rfl | ⟨later', e', rfl⟩
  · rfl
  · rw [← List.append_assoc] at h
    obtain ⟨rfl, -⟩ := List.append_inj' h rfl
    exact absurd hp (hfirst x (by simp [hx]))

/-- Once a task is started the turn is over. -/
theorem receive_spawns (h : (receive E service frame state).Run log rest)
    (hspawn : .spawn r task ∈ log.map Event.op) :
    r = frame.requestId ∧ state.lastRequestId < r ∧
      (∃ state', rest = .pure state' ∧ Launches E frame state state' task) ∧
      (log = [⟨.insertActive r, false⟩, ⟨.spawn r task, ()⟩] ∨
        log = [⟨.spawn r task, ()⟩] ∧ ∃ database, task = .snapshotExport database) := by
  obtain ⟨later, q, result, hlater, hq, hhandled⟩ :=
    receive_performs.begun ConnectionOp.ans_nonempty h
  have hall : .spawn r task ∈ (log ++ later).map Event.op := by
    rw [List.map_append]
    exact List.mem_append_left _ hspawn
  have hlast (first : List (Event connection)) {e : Event connection}
      (hlog : log ++ later = first ++ [e]) (hfirst : ∀ e ∈ first, e.op ≠ .spawn r task) :
      log = first ++ [e] ∧ rest = q := by
    obtain ⟨e', he', hop⟩ := List.mem_map.mp hspawn
    obtain rfl := ends_with hlog hfirst he' hop
    cases hlater
    exact ⟨by simpa using hlog, rfl⟩
  have hend {state' : ConnectionState} (hresult : result = .ok state') (hrest : rest = q) :
      rest = .pure state' := by
    subst hrest hresult
    cases rest <;> simp_all [Prog.result?]
  generalize hlog : log ++ later = all at hall hhandled
  cases hhandled with
  | answered hwork _ hposted =>
    obtain ⟨e, he, heq⟩ := List.mem_map.mp hall
    rcases List.mem_append.mp he with he | he
    · have := hwork e he
      rw [heq] at this
      cases this
    · obtain ⟨response, hop⟩ := hposted.sends e he
      rw [heq] at hop
      cases hop
  | taken => simp at hall
  | launched hl =>
    obtain ⟨rfl, hrest⟩ := hlast [_] hlog (by simp)
    simp only [List.map_cons, List.map_nil, List.mem_cons, reduceCtorEq, List.not_mem_nil,
      ConnectionOp.spawn.injEq, or_false, false_or] at hall
    obtain ⟨rfl, rfl⟩ := hall
    exact ⟨rfl, hl.1, ⟨_, hend rfl hrest, hl.2⟩, .inl rfl⟩
  | exporting hl =>
    obtain ⟨rfl, hrest⟩ := hlast [] hlog (by simp)
    simp only [List.map_cons, List.map_nil, List.mem_cons, List.not_mem_nil,
      ConnectionOp.spawn.injEq, or_false] at hall
    obtain ⟨rfl, rfl⟩ := hall
    exact ⟨rfl, hl.1, ⟨_, hend rfl hrest, hl.2⟩, .inr ⟨rfl, _, rfl⟩⟩

end

end NostdbServer
