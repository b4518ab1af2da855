import NostdbServer.Daemon.Calls
import NostdbServer.Protocol.Outcomes
import NostdbServer.Protocol.Transactions

/-!
# Where statements come from

Statements are executed by tasks only: a turn of a connection calls other
operations of the daemon. What a task executes was asked for in the turn that
started it, or queued since the transaction was begun, with the flags the
requests carried and on the Database that was selected.
-/

namespace NostdbServer

open Effects

-- ---------------------------------------------------------------------------
-- Turns execute nothing
-- ---------------------------------------------------------------------------

section
variable {E : Engine} {service : Service} {frame : ClientFrame} {state : ConnectionState}

theorem callsEngine_daemon {o : DaemonOp} (h : o.executes = false) :
    ConnectionOp.callsEngine (.daemon o) = false := by
  cases o with
  | storage id o => cases o <;> first | rfl | cases h
  | _ => rfl

theorem Dispatched.administers {p : Prog daemon ProtocolFailure α} (h : Dispatched service p) :
    Administers p := by
  cases h with
  | select => exact selectDatabase_administers
  | create => exact createDatabase_administers
  | list => exact listDatabases_administers
  | inspect => exact inspectDatabase_administers
  | rename => exact renameDatabase_administers
  | drop => exact dropDatabase_administers
  | restore => exact restoreSnapshot_administers
  | exportLogical => exact exportLogical_administers
  | importLogical => exact importLogical_administers

theorem calling_administers {p : Prog daemon ε α} (h : Administers p) :
    (calling p).Only (S := connection) fun o => ConnectionOp.callsEngine o = false :=
  Prog.Only.lift (h.mono fun _ => callsEngine_daemon)

theorem handleIncoming_administers (before : Phase) (incoming : Incoming) :
    (handleIncoming E service before incoming).Only (S := connection) fun o =>
      ConnectionOp.callsEngine o = false := by
  have hown {o : ConnectionOp} (h : ConnectionOp.receives o = false) : o.callsEngine = false := by
    cases o <;> first | rfl | cases h
  cases before with
  | greeting =>
    cases incoming with
    | frame frame => exact greet_only.mono fun _ => hown
    | _ => trivial
  | closed => cases incoming <;> trivial
  | session state =>
    cases incoming with
    | frame frame =>
      refine Prog.Only.bind ?_ fun _ => trivial
      unfold receive
      split
      · exact refuse_only fun _ => rfl
      · exact dispatch_calls (fun _ => rfl) (fun p hp => calling_administers hp.administers) rfl
          (fun _ _ => ⟨rfl, rfl⟩) (fun _ _ _ _ _ _ _ => rfl) (fun _ _ _ => rfl) fun _ _ => rfl
    | shutdown | endOfStream => exact leave_only.mono fun _ => hown
    | _ => trivial

end

-- ---------------------------------------------------------------------------
-- The queue with its flags
-- ---------------------------------------------------------------------------

/-- The statement of a query that was answered `queued`. -/
def Turn.statement? (t : Turn) : Option QueuedStatement :=
  match t.incoming, t.responses with
  | .frame ⟨_, .query query values readOnly _ _⟩, [.queued _] => some ⟨query, values, readOnly⟩
  | _, _ => none

/-- What was queued since the latest `begun`. -/
def queueAfter (turns : List Turn) : List QueuedStatement :=
  turns.foldl (fun queue t => if t.isBegun then [] else queue ++ t.statement?.toList) []

theorem queueAfter_snoc (turns : List Turn) (t : Turn) : queueAfter (turns ++ [t]) =
    if t.isBegun then [] else queueAfter turns ++ t.statement?.toList := by
  simp [queueAfter]

theorem Plain.statement? {t : Turn} (h : Plain t.log) : t.statement? = none := by
  unfold Turn.statement?
  split
  · rename_i n _ hresponses
    have hr : .queued n ∈ t.log.filterMap response? := by
      rw [show t.log.filterMap response? = _ from hresponses]
      exact List.mem_singleton_self _
    exact absurd (h _ hr).2 (by simp [ServerResponse.isQueued])
  · rfl

theorem Plain.queueAfter {t : Turn} (h : Plain t.log) (turns : List Turn) :
    queueAfter (turns ++ [t]) = NostdbServer.queueAfter turns := by
  rw [queueAfter_snoc, h.isBegun, h.statement?]
  simp

theorem Conversation.queue {state : ConnectionState} {queue : List QueuedStatement}
    (h : Conversation E service turns) (hphase : phaseAfter turns = some (.session state))
    (hqueue : state.transaction = some queue) : queue = queueAfter turns := by
  induction h generalizing state queue with
  | start => cases hphase
  | @turn turns before incoming log rest hturns hbefore hrun ih =>
    rw [phaseAfter_snoc] at hphase
    obtain rfl := Turn.rest_of_after hphase
    obtain ⟨-, hnone⟩ | ⟨state₀, rfl, rfl, rfl⟩ | ⟨state₀, frame, rfl, rfl, hturned⟩ :=
      handleIncoming_turned hrun
    · cases hnone.symm.trans hqueue
    · rw [Plain.queueAfter (by simp [Plain])]
      exact ih hbefore hqueue
    · cases hturned with
      | begun _ _ htransaction =>
        cases hqueue.symm.trans htransaction
        rw [queueAfter_snoc]
        rfl
      | queued hrequest hsome _ htransaction =>
        cases hqueue.symm.trans htransaction
        obtain ⟨requestId, request⟩ := frame
        cases hrequest
        rw [queueAfter_snoc, ih hbefore hsome]
        rfl
      | ended _ _ htransaction => cases htransaction.symm.trans hqueue
      | moved _ htransaction => cases htransaction.symm.trans hqueue
      | kept htransaction _ hlog =>
        rw [Plain.queueAfter hlog]
        exact ih hbefore (htransaction ▸ hqueue)

-- ---------------------------------------------------------------------------
-- What a task executes
-- ---------------------------------------------------------------------------

def StorageOp.statements : StorageOp → List Statement
  | .execute statement _ => [statement]
  | .executeTransaction statements _ => statements
  | _ => []

/-- The statement a queued one is executed as, with its flag. -/
def Converted (service : Service) (queued : QueuedStatement) (asked : Bool × Statement) : Prop :=
  asked.1 = queued.readOnly ∧ asked.2.query = queued.query ∧
    parameters service.floatOfInt queued.parameters = .ok asked.2.parameters

/-- The turn of request `r` has started a task that executes the statements, each
with the `read_only` it was asked for with, on the Database selected then. -/
inductive Requested (E : Engine) (service : Service) (turns : List Turn) (r : UInt64) :
    String → List (Bool × Statement) → Prop
  | query (hturns : turns = pre ++ t :: post) (hbefore : t.before = .session state)
      (hselected : state.selectedDatabaseId = some databaseId)
      (hincoming : t.incoming = .frame ⟨r, .query query values readOnly stream limits⟩)
      (hreads : (readOnly && E.preparesWrite query) = false)
      (hvalues : parameters service.floatOfInt values = .ok converted) :
      Requested E service turns r databaseId [(readOnly, ⟨query, converted⟩)]
  | commit (hturns : turns = pre ++ t :: post) (hbefore : t.before = .session state)
      (hselected : state.selectedDatabaseId = some databaseId)
      (hincoming : t.incoming = .frame ⟨r, .commit⟩)
      (hreads : ∀ queued ∈ queueAfter pre,
        (queued.readOnly && E.preparesWrite queued.query) = false)
      (hstatements : List.Forall₂ (Converted service) (queueAfter pre) asked) :
      Requested E service turns r databaseId asked

section
variable {E : Engine} {service : Service} {job : Job} {o : ConnectionOp}

theorem convertStatements_forall₂ {queue : List QueuedStatement} {statements : List Statement}
    (h : convertStatements service.floatOfInt (queue.map QueuedStatement.pair) = .ok statements) :
    ∃ asked, List.Forall₂ (Converted service) queue asked ∧ asked.map Prod.snd = statements := by
  induction queue generalizing statements with
  | nil =>
    cases h
    exact ⟨[], .nil, rfl⟩
  | cons queued queue ih =>
    simp only [List.map_cons, convertStatements, QueuedStatement.pair] at h
    split at h
    · cases h
    · rename_i values hvalues
      cases hrest : convertStatements service.floatOfInt (queue.map QueuedStatement.pair) with
      | error message =>
        rw [show convertStatements _ _ = _ from hrest] at h
        cases h
      | ok rest =>
        rw [show convertStatements _ _ = _ from hrest] at h
        cases h
        obtain ⟨asked, hasked, rfl⟩ := ih hrest
        exact ⟨(queued.readOnly, ⟨queued.query, values⟩) :: asked,
          .cons ⟨rfl, rfl, hvalues⟩ hasked, rfl⟩

theorem exporting_administers {database : String} :
    (runTask E service r (.snapshotExport database)).Only (S := connection) fun o =>
      ConnectionOp.callsEngine o = false := by
  refine Prog.Only.bind (calling_administers exportSnapshot_administers).attempt fun result => ?_
  cases result with
  | error error => exact discarding_only (sendResponse_only (fun _ => rfl) _)
  | ok bytes =>
    exact discarding_only ((sendResponse_only (fun _ => rfl) _).bind fun _ =>
      sendChunks_only (fun _ => rfl) _)

/-- What a task is about to execute is what it was started with. -/
theorem Link.Kept.requested {l : Link} {next : o.Ans → Prog connection String Unit}
    (h : l.Kept E service) (hjob : l.jobs r = some job) (hrest : job.rest = .op o next)
    (ho : o.callsEngine = true) : ∃ databaseId handle op asked,
      o = .daemon (.storage handle.id op) ∧
      ⟨.daemon (.readHandle databaseId), some handle⟩ ∈ job.log ∧
      Requested E service l.turns r databaseId asked ∧ op.statements = asked.map Prod.snd := by
  have hrun := h.runs r job hjob
  rw [hrest] at hrun
  obtain ⟨ans⟩ := o.ans_nonempty
  obtain ⟨later, q, result, -, -, -, hran⟩ :=
    (runTask_performs E job.task).begun ConnectionOp.ans_nonempty (hrun.snoc (S := connection) ans)
  have hlog : job.log ++ [⟨o, ans⟩] ++ later = job.log ++ ⟨o, ans⟩ :: later := by simp
  obtain ⟨t, ht, hspawn⟩ := h.started r job hjob
  obtain ⟨pre, post, hturns⟩ := List.append_of_mem ht
  obtain ⟨state, frame, p, hbefore, hincoming, hreceive, -⟩ :=
    handleIncoming_receives (h.talk.run ht) hspawn rfl
  obtain ⟨rfl, -, ⟨state', -, hlaunches⟩, -⟩ := receive_spawns hreceive hspawn
  generalize htask : job.task = task at hran hlaunches
  obtain ⟨requestId, request⟩ := frame
  cases hlaunches with
  | query hrequest hselected =>
    cases hrequest
    obtain ⟨-, hnone, handle, answer, hhandle, heq⟩ := hran.call hlog ho
    cases heq
    unfold queryRefusal at hnone
    split at hnone
    · cases hnone
    · rename_i hreads
      split at hnone
      · cases hnone
      · rename_i converted hvalues
        refine ⟨_, handle, _, _, rfl, hhandle,
          .query hturns hbefore hselected hincoming (Bool.not_eq_true _ ▸ hreads) hvalues, ?_⟩
        simp [StorageOp.statements, queryStatement, hvalues, Except.toOption]
  | @commit databaseId queue hrequest hselected hqueue _ hreads =>
    cases hrequest
    obtain ⟨-, hnone, handle, answer, hhandle, heq⟩ := hran.call hlog ho
    cases heq
    unfold transactionRefusal at hnone
    split at hnone
    · cases hnone
    · rename_i statements hconverted
      obtain ⟨asked, hasked, hstatements⟩ := convertStatements_forall₂ hconverted
      obtain ⟨hpre, hphase⟩ := (hturns ▸ h.talk).upto
      obtain rfl := hpre.queue (hbefore ▸ hphase) hqueue
      refine ⟨_, handle, _, asked, rfl, hhandle,
        .commit hturns hbefore hselected hincoming ?_ hasked, ?_⟩
      · simpa using List.any_eq_false.mp hreads
      · simp [StorageOp.statements, transactionStatements, hconverted, Except.toOption, hstatements]
  | snapshotExport =>
    rw [htask] at hrun
    have hfalse := (hrun.only exporting_administers).2.1
    cases hfalse.symm.trans ho

end

end NostdbServer
