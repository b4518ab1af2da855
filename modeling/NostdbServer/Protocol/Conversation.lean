import NostdbServer.Effects.Discipline
import NostdbServer.Protocol.Connection

/-!
# Conversations

Everything that can happen on one connection: the incoming frames with what the
connection does about each, whatever the daemon and the channel answer. The last
turn may be unfinished. A turn that fails closes the connection.
-/

namespace NostdbServer

open Effects

structure Turn where
  before : Phase
  incoming : Incoming
  log : List (Event connection)
  rest : Prog connection String Phase

/-- The phase a finished turn leads to. -/
def Turn.after (t : Turn) : Option Phase :=
  match t.rest with
  | .pure phase => some phase
  | .fail _ => some .closed
  | .op _ _ => none

/-- The phase in which the next frame is awaited. -/
def phaseAfter (turns : List Turn) : Option Phase :=
  match turns.getLast? with
  | none => some .greeting
  | some t => t.after

@[simp] theorem phaseAfter_nil : phaseAfter [] = some .greeting := rfl

@[simp] theorem phaseAfter_snoc (turns : List Turn) (t : Turn) :
    phaseAfter (turns ++ [t]) = t.after := by
  simp [phaseAfter]

inductive Conversation (E : Engine) (service : Service) : List Turn → Prop
  | start : Conversation E service []
  | turn : Conversation E service turns → phaseAfter turns = some before →
      (handleIncoming E service before incoming).Run log rest →
      Conversation E service (turns ++ [⟨before, incoming, log, rest⟩])

/-- What holds at the start and of every finished turn's phase, given that it
held before, holds of the phase any turn begins in. -/
theorem Conversation.before {P : Phase → Prop} (h : Conversation E service turns)
    (hstart : P .greeting)
    (hturn : ∀ t ∈ turns, ∀ φ, P t.before → t.after = some φ → P φ) :
    (∀ t ∈ turns, P t.before) ∧ ∀ φ, phaseAfter turns = some φ → P φ := by
  induction h with
  | start =>
    refine ⟨by simp, fun φ hφ => ?_⟩
    cases hφ
    exact hstart
  | @turn turns before incoming log rest _ hphase _ ih =>
    obtain ⟨hall, hlast⟩ := ih fun t ht => hturn t (by simp [ht])
    have hbefore : P before := hlast before hphase
    refine ⟨?_, fun φ hφ => ?_⟩
    · simpa [or_imp, forall_and] using ⟨hall, hbefore⟩
    · rw [phaseAfter_snoc] at hφ
      exact hturn _ (by simp) φ hbefore hφ

theorem Conversation.upto {t : Turn} (h : Conversation E service (pre ++ t :: post)) :
    Conversation E service pre ∧ phaseAfter pre = some t.before := by
  generalize hall : pre ++ t :: post = turns at h
  induction h generalizing post with
  | start => simp at hall
  | @turn turns before incoming log rest hturns hphase hrun ih =>
    rcases List.eq_nil_or_concat' post with rfl | ⟨post', last, rfl⟩
    · obtain ⟨rfl, heq⟩ := List.append_inj' hall rfl
      cases heq
      exact ⟨hturns, hphase⟩
    · rw [← List.cons_append, ← List.append_assoc] at hall
      exact ih (List.append_inj' hall rfl).1

theorem Conversation.run {t : Turn} (h : Conversation E service turns) (ht : t ∈ turns) :
    (handleIncoming E service t.before t.incoming).Run t.log t.rest := by
  induction h with
  | start => cases ht
  | turn _ _ hrun ih =>
    rcases List.mem_append.mp ht with ht | ht
    · exact ih ht
    · cases List.mem_singleton.mp ht
      exact hrun

theorem Conversation.through {t : Turn} (h : Conversation E service (pre ++ t :: post)) :
    Conversation E service (pre ++ [t]) := by
  obtain ⟨hpre, hphase⟩ := h.upto
  exact .turn hpre hphase (h.run (by simp))

/-- An answer to every operation: what has to be there is not, except for the
catalog. -/
def quietly (catalog : Catalog) : (o : ConnectionOp) → o.Ans
  | .daemon (.root o) => fileAnswer o
  | .daemon (.isDir _) => false
  | .daemon (.createDir _) | .daemon (.removeDir _) => .ok ()
  | .daemon .readDatabases => .ok []
  | .daemon (.createDatabase _) => .error (.storage .other "")
  | .daemon (.storage _ o) => storageAnswer o
  | .daemon .newId => ""
  | .daemon .readCatalog => catalog
  | .daemon (.getHandle _) | .daemon (.readHandle _) => none
  | .daemon .lockCatalog | .daemon .unlockCatalog | .daemon (.writeCatalog _)
  | .daemon .lockDatabases | .daemon .unlockDatabases | .daemon (.insertHandle _)
  | .daemon (.removeHandle _) | .daemon (.newHandle _ _) => ()
  | .write _ | .joinWriter => .ok ()
  | .send _ => true
  | .insertActive _ | .isActive _ | .isCancelled _ | .join _ => false
  | .spawn _ _ | .removeActive _ | .cancel _ | .cancelAll | .joinTasks => ()
where
  fileAnswer {κ : Type} : (o : FileOp κ) → o.Ans
    | .pathExists _ | .isFile _ => false
    | .read _ => .error .notFound
    | .createNew _ _ => .ok ()
    | .rename _ _ | .remove _ | .sync => .ok ()
  storageAnswer : (o : StorageOp) → o.Ans
    | .file o => fileAnswer o
    | .openDatabase _ | .checkDatabase _ => .error ""
    | .adoptServerAuthority _ | .checkpointDatabase _ => .error ""
    | .lock | .unlock | .put _ => ()
    | .take | .peek => none
    | .checkpoint _ => .ok ()
    | .execute _ _ => .error (.storage .other "")
    | .executeTransaction _ _ => .error (.storage .other "")
    | .inspect .info => .error (.storage .other "")
    | .inspect .counts => .error (.storage .other "")
    | .inspect .check => .error (.storage .other "")
    | .inspect .exportLogical => .error ""

theorem ConnectionOp.ans_nonempty (o : ConnectionOp) : Nonempty o.Ans :=
  ⟨quietly ⟨CATALOG_VERSION, []⟩ o⟩

/-- The conversation in which every operation is answered by `ans`. -/
def converse (E : Engine) (service : Service) (ans : (o : ConnectionOp) → o.Ans) (turns : List Turn) :
    List Incoming → List Turn
  | [] => turns
  | incoming :: rest =>
    match phaseAfter turns with
    | none => turns
    | some before =>
      let (log, left) := (handleIncoming E service before incoming).answered (S := connection) ans
      converse E service ans (turns ++ [⟨before, incoming, log, left⟩]) rest

theorem Conversation.converse {ans : (o : ConnectionOp) → o.Ans} {incoming : List Incoming}
    (h : Conversation E service turns) :
    Conversation E service (converse E service ans turns incoming) := by
  induction incoming generalizing turns with
  | nil => exact h
  | cons first rest ih =>
    unfold NostdbServer.converse
    split
    · exact h
    · rename_i before hphase
      exact ih (.turn h hphase (.answered (S := connection) ans _))

-- ---------------------------------------------------------------------------
-- What a finished program has done
-- ---------------------------------------------------------------------------

/-- If `p` ends with a value then `Q` holds of it and of all events so far. -/
def Yields (p : Prog connection String α) (log : List (Event connection))
    (Q : α → List (Event connection) → Prop) : Prop :=
  (Discipline.history connection).Obeys p log Q fun _ _ => True

def sent (frame : ServerFrame) : Event connection := ⟨.send frame, true⟩

def ConnectionOp.isDaemon : ConnectionOp → Bool
  | .daemon _ => true
  | _ => false

theorem calling_bind (p : Prog daemon ε α) (f : α → Prog daemon ε β) :
    calling (p.bind f) = (calling p).bind fun a => calling (f a) :=
  Prog.lift_bind p f

theorem calling_only (p : Prog daemon ε α) :
    (calling p).Only (S := connection) fun o : ConnectionOp => o.isDaemon = true :=
  Prog.Only.lift (Prog.Only.of_forall (fun _ => rfl) p)

namespace Yields

variable {log : List (Event connection)} {service : Service} {state : ConnectionState}

theorem bind {p : Prog connection String α} {f : α → Prog connection String β}
    {Q : β → List (Event connection) → Prop} (h : Yields p log fun a log => Yields (f a) log Q) :
    Yields (p.bind f) log Q :=
  Discipline.Obeys.bind h

theorem mono {p : Prog connection String α} {Q Q' : α → List (Event connection) → Prop}
    (h : Yields p log Q) (hq : ∀ a log, Q a log → Q' a log) : Yields p log Q' :=
  Discipline.Obeys.mono h hq fun _ _ h => h

theorem step {o : ConnectionOp} {f : o.Ans → Prog connection String β}
    {Q : β → List (Event connection) → Prop}
    (h : ∀ ans, Yields (f ans) (log ++ [⟨o, ans⟩]) Q) :
    Yields ((Prog.call (S := connection) o).bind f) log Q :=
  Discipline.Obeys.step trivial fun ans _ => h ans

theorem run {p : Prog connection String α} {Q : α → List (Event connection) → Prop}
    (h : Yields p [] Q) (hr : p.Run log (.pure a)) : Q a log := by
  simpa [Discipline.Obeys] using Discipline.Obeys.run h hr

/-- A daemon call hands back some outcome after daemon events. -/
theorem calling {p : Prog daemon ProtocolFailure α}
    {Q : Except ProtocolFailure α → List (Event connection) → Prop}
    (h : ∀ r l, (∀ e ∈ l, e.op.isDaemon = true) → Q r (log ++ l)) :
    Yields (calling p).attempt log Q := by
  refine Discipline.Obeys.attempt ((Discipline.Obeys.events (calling_only p) log).mono ?_ ?_)
  · rintro a _ ⟨l, rfl, hl⟩
    exact h (.ok a) l hl
  · rintro e _ ⟨l, rfl, hl⟩
    exact h (.error e) l hl

theorem offer {frame : ServerFrame} {Q : Unit → List (Event connection) → Prop}
    (h : Q () (log ++ [sent frame])) : Yields (offer frame) log Q := by
  refine step fun accepted => ?_
  cases accepted with
  | false => trivial
  | true => exact h

theorem sendResponse {response : ServerResponse} {Q : Unit → List (Event connection) → Prop}
    (h : Q () (log ++ [sent ⟨requestId, response⟩])) :
    Yields (sendResponse service requestId response) log Q := by
  unfold NostdbServer.sendResponse
  dsimp only
  split
  · exact bind (offer trivial)
  · exact offer h

theorem respondResult {response : α → ServerResponse} {r : Except ProtocolFailure α}
    {Q : Unit → List (Event connection) → Prop}
    (hok : ∀ a, r = .ok a → Q () (log ++ [sent ⟨requestId, response a⟩]))
    (herror : ∀ error, r = .error error → Q () (log ++ [sent (failureFrame requestId error)])) :
    Yields (respondResult service requestId r response) log Q := by
  cases r with
  | ok a => exact sendResponse (hok a rfl)
  | error error => exact sendResponse (herror error rfl)

theorem refuse {Q : ConnectionState → List (Event connection) → Prop}
    (h : Q state (log ++ [sent (failureFrame requestId (.new code message))])) :
    Yields (refuse service requestId state code message) log Q :=
  bind (sendResponse h)

theorem answer {response : ServerResponse} {Q : ConnectionState → List (Event connection) → Prop}
    (h : Q state (log ++ [sent ⟨requestId, response⟩])) :
    Yields (answer service requestId state response) log Q :=
  bind (sendResponse h)

theorem relay {p : Prog daemon ProtocolFailure α} {response : α → ServerResponse}
    {Q : ConnectionState → List (Event connection) → Prop}
    (hok : ∀ a l, (∀ e ∈ l, e.op.isDaemon = true) →
      Q state (log ++ l ++ [sent ⟨requestId, response a⟩]))
    (herror : ∀ error l, (∀ e ∈ l, e.op.isDaemon = true) →
      Q state (log ++ l ++ [sent (failureFrame requestId error)])) :
    Yields (relay service requestId state p response) log Q := by
  refine bind (calling fun r l hl => bind (respondResult ?_ ?_))
  · rintro a -
    exact hok a l hl
  · rintro error -
    exact herror error l hl

theorem launch {task : Task} {Q : ConnectionState → List (Event connection) → Prop}
    (h : Q state (log ++ [⟨.insertActive requestId, false⟩] ++ [⟨.spawn requestId task, ()⟩])) :
    Yields (launch requestId state task) log Q := by
  refine step fun taken => ?_
  cases taken with
  | false => exact step fun _ => h
  | true => trivial

theorem writeFrame {frame : ServerFrame} {Q : Unit → List (Event connection) → Prop}
    (h : Q () (log ++ [⟨.write frame, .ok ()⟩])) : Yields (writeFrame service frame) log Q := by
  unfold NostdbServer.writeFrame
  dsimp only
  split
  · trivial
  · refine step fun written => ?_
    cases written with
    | error error => trivial
    | ok _ => exact h

end Yields

theorem leave_yields : Yields leave log fun phase _ => phase = .closed := by
  refine Yields.step fun _ => Yields.step fun _ => Yields.step fun joined => ?_
  cases joined with
  | error error => trivial
  | ok _ => rfl

/-- The session a valid hello starts. -/
inductive Greeted (service : Service) (frame : ClientFrame) : Phase → Prop
  | session (hrequest : frame.request = .hello DATABASE_PROTOCOL_VERSION credential clientName)
      (hid : frame.requestId ≠ 0)
      (hrole : service.credentials.authenticate credential = some role) :
      Greeted service frame (.session ⟨role, none, none, none, frame.requestId⟩)
  | turnedAway : Greeted service frame .closed

theorem greet_yields {service : Service} {frame : ClientFrame} :
    Yields (greet service frame) [] fun phase log =>
      Greeted service frame phase ∧ ∃ reply, log = [⟨.write reply, .ok ()⟩] := by
  have haway (code : ErrorCode) (message : String) :
      Yields (turnAway service frame.requestId code message) [] fun phase log =>
        Greeted service frame phase ∧ ∃ reply, log = [⟨.write reply, .ok ()⟩] :=
    Yields.bind (Yields.writeFrame ⟨.turnedAway, _, rfl⟩)
  unfold greet
  split
  · rename_i version credential clientName hrequest
    split
    · trivial
    rename_i hid
    split
    · exact haway _ _
    rename_i hversion
    split
    · exact haway _ _
    · rename_i role hrole
      rw [not_not.mp hversion] at hrequest
      exact Yields.bind (Yields.writeFrame ⟨.session hrequest hid hrole, _, rfl⟩)
  · exact haway _ _

-- ---------------------------------------------------------------------------
-- Which operations a response consists of
-- ---------------------------------------------------------------------------

section
variable {P : ConnectionOp → Prop} {service : Service} {requestId : UInt64}
  {state : ConnectionState}

theorem offer_only {frame : ServerFrame} (h : P (.send frame)) :
    (offer frame).Only (S := connection) P := by
  refine Prog.Only.step h ?_
  rintro (_ | _) <;> trivial

/-- A response, or the failure in its place. -/
theorem sendResponse_sends {response : ServerResponse} (h : P (.send ⟨requestId, response⟩))
    (hlarge : P (.send (failureFrame requestId tooLarge))) :
    (sendResponse service requestId response).Only (S := connection) P := by
  unfold sendResponse
  dsimp only
  split
  · exact (offer_only hlarge).bind fun _ => trivial
  · exact offer_only h

variable (hsend : ∀ response, P (.send ⟨requestId, response⟩))
include hsend

theorem sendResponse_only (response : ServerResponse) :
    (sendResponse service requestId response).Only (S := connection) P :=
  sendResponse_sends (hsend response) (hsend _)

theorem refuse_only :
    (refuse service requestId state code message).Only (S := connection) P :=
  (sendResponse_only hsend _).bind fun _ => trivial

theorem answer_only :
    (answer service requestId state response).Only (S := connection) P :=
  (sendResponse_only hsend _).bind fun _ => trivial

theorem respondResult_only (r : Except ProtocolFailure α) (response : α → ServerResponse) :
    (respondResult service requestId r response).Only (S := connection) P := by
  cases r with
  | ok a => exact sendResponse_only hsend _
  | error error => exact sendResponse_only hsend _

theorem relay_only {p : Prog daemon ProtocolFailure α}
    (hp : (calling p).Only (S := connection) P) (response : α → ServerResponse) :
    (relay service requestId state p response).Only (S := connection) P :=
  hp.attempt.bind fun r => (respondResult_only hsend r response).bind fun _ => trivial

theorem dispatchSelect_only (hp : (calling (selectDatabase database)).Only (S := connection) P) :
    (dispatchSelect service requestId state database).Only (S := connection) P := by
  refine hp.attempt.bind ?_
  rintro (_ | _)
  · exact (sendResponse_only hsend _).bind fun _ => trivial
  · exact answer_only hsend

theorem launch_only {task : Task} (hactive : P (.insertActive requestId))
    (hspawn : P (.spawn requestId task)) :
    (launch requestId state task).Only (S := connection) P := by
  refine Prog.Only.step hactive ?_
  rintro (_ | _)
  · exact Prog.Only.step hspawn fun _ => trivial
  · trivial

theorem dispatchQuery_only (hactive : P (.insertActive requestId))
    (hspawn : ∀ id, P (.spawn requestId (.query id query values readOnly stream limits))) :
    (dispatchQuery service requestId state query values readOnly stream limits).Only
      (S := connection) P := by
  unfold dispatchQuery
  split
  · exact refuse_only hsend
  · unfold enqueue
    split
    · exact refuse_only hsend
    split
    · exact refuse_only hsend
    split
    · exact refuse_only hsend
    · exact answer_only hsend
  · exact launch_only hsend hactive (hspawn _)

theorem dispatchBegin_only :
    (dispatchBegin service requestId state).Only (S := connection) P := by
  unfold dispatchBegin
  split
  · exact refuse_only hsend
  split
  · exact refuse_only hsend
  · exact answer_only hsend

theorem dispatchCommit_only (hactive : P (.insertActive requestId))
    (hspawn : ∀ id statements, P (.spawn requestId (.transaction id statements))) :
    (dispatchCommit E service requestId state).Only (S := connection) P := by
  unfold dispatchCommit
  split
  · exact refuse_only hsend
  dsimp only
  split
  · exact refuse_only hsend
  split
  · exact refuse_only hsend
  · exact launch_only hsend hactive (hspawn _ _)

theorem dispatchRollback_only :
    (dispatchRollback service requestId state).Only (S := connection) P := by
  unfold dispatchRollback
  split
  · exact refuse_only hsend
  · exact answer_only hsend

theorem dispatchCancel_only (hlook : P (.isActive target)) (hcancel : P (.cancel target)) :
    (dispatchCancel service requestId state target).Only (S := connection) P := by
  refine Prog.Only.step hlook ?_
  rintro (_ | _)
  · exact refuse_only hsend
  · exact Prog.Only.step hcancel fun _ => answer_only hsend

theorem dispatchDrop_only
    (hp : (calling (dropDatabase service.root database confirmName)).Only (S := connection) P) :
    (dispatchDrop service requestId state database confirmName).Only (S := connection) P :=
  hp.attempt.bind fun r => (respondResult_only hsend r _).bind fun _ => trivial

theorem dispatchRestoreBegin_only
    (hp : (calling (selectDatabase database)).Only (S := connection) P) :
    (dispatchRestoreBegin service requestId state database totalBytes).Only
      (S := connection) P := by
  unfold dispatchRestoreBegin
  split
  · exact refuse_only hsend
  split
  · exact refuse_only hsend
  refine hp.attempt.bind ?_
  rintro (_ | _)
  · exact (sendResponse_only hsend _).bind fun _ => trivial
  · exact answer_only hsend

theorem dispatchRestoreChunk_only {sequence : Nat} :
    (dispatchRestoreChunk service requestId state sequence data).Only (S := connection) P := by
  unfold dispatchRestoreChunk
  split
  · exact refuse_only hsend
  split
  · exact refuse_only hsend
  split
  · exact refuse_only hsend
  split
  · exact refuse_only hsend
  split
  · exact refuse_only hsend
  · exact answer_only hsend

theorem dispatchRestoreCommit_only
    (hp : ∀ database bytes,
      (calling (restoreSnapshot service.root database bytes)).Only (S := connection) P) :
    (dispatchRestoreCommit service requestId state).Only (S := connection) P := by
  unfold dispatchRestoreCommit
  split
  · exact refuse_only hsend
  split
  · exact refuse_only hsend
  · exact relay_only hsend (hp _ _) _

end

/-- The operations of the daemon that a turn calls itself. -/
inductive Dispatched (service : Service) : {α : Type} → Prog daemon ProtocolFailure α → Prop
  | select (name : String) : Dispatched service (selectDatabase name)
  | create (name : String) : Dispatched service (createDatabase service.root name)
  | list : Dispatched service listDatabases
  | inspect (name : String) : Dispatched service (inspectDatabase name)
  | rename (name newName : String) : Dispatched service (renameDatabase service.root name newName)
  | drop (name confirmName : String) :
      Dispatched service (dropDatabase service.root name confirmName)
  | restore (name : String) (bytes : Bytes) :
      Dispatched service (restoreSnapshot service.root name bytes)
  | exportLogical (name : String) : Dispatched service (exportLogical name)
  | importLogical (name : String) (package : Json) : Dispatched service
      (importLogical service.root service.parsePackage service.compile name package)

/-- What a dispatched request consists of: responses to it, calls of the daemon,
looks at the active requests, and at most one task. -/
theorem dispatch_calls {P : ConnectionOp → Prop} {frame : ClientFrame}
    (hsend : ∀ response, P (.send ⟨frame.requestId, response⟩))
    (hcall : ∀ {α : Type} (p : Prog daemon ProtocolFailure α), Dispatched service p →
      (calling p).Only (S := connection) P)
    (hactive : P (.insertActive frame.requestId))
    (hcancel : ∀ target, frame.request = .cancel target → P (.isActive target) ∧ P (.cancel target))
    (hquery : ∀ id query values readOnly stream limits,
      frame.request = .query query values readOnly stream limits →
        P (.spawn frame.requestId (.query id query values readOnly stream limits)))
    (hcommit : ∀ id statements, frame.request = .commit →
      P (.spawn frame.requestId (.transaction id statements)))
    (hexport : ∀ database, frame.request = .snapshotExport database →
      P (.spawn frame.requestId (.snapshotExport database))) :
    (dispatch E service frame state).Only (S := connection) P := by
  unfold dispatch
  dsimp only
  split
  · exact refuse_only hsend
  split
  · exact refuse_only hsend
  split
  case h_1 => exact refuse_only hsend
  case h_2 => exact answer_only hsend
  case h_3 => exact dispatchSelect_only hsend (hcall _ (.select _))
  case h_4 hrequest => exact dispatchQuery_only hsend hactive fun id => hquery id _ _ _ _ _ hrequest
  case h_5 => exact dispatchBegin_only hsend
  case h_6 hrequest =>
    exact dispatchCommit_only hsend hactive fun id statements => hcommit id statements hrequest
  case h_7 => exact dispatchRollback_only hsend
  case h_8 target hrequest =>
    exact dispatchCancel_only hsend (hcancel target hrequest).1 (hcancel target hrequest).2
  case h_9 => exact relay_only hsend (hcall _ (.create _)) _
  case h_10 => exact relay_only hsend (hcall _ .list) _
  case h_11 => exact relay_only hsend (hcall _ (.inspect _)) _
  case h_12 => exact relay_only hsend (hcall _ (.rename _ _)) _
  case h_13 => exact dispatchDrop_only hsend (hcall _ (.drop _ _))
  case h_14 database hrequest => exact Prog.Only.step (hexport database hrequest) fun _ => trivial
  case h_15 => exact dispatchRestoreBegin_only hsend (hcall _ (.select _))
  case h_16 => exact dispatchRestoreChunk_only hsend
  case h_17 => exact dispatchRestoreCommit_only hsend fun _ _ => hcall _ (.restore _ _)
  case h_18 => exact answer_only hsend
  case h_19 => exact relay_only hsend (hcall _ (.exportLogical _)) _
  case h_20 => exact relay_only hsend (hcall _ (.importLogical _ _)) _

/-- The same where any call of the daemon will do. -/
theorem dispatch_only {P : ConnectionOp → Prop} {frame : ClientFrame}
    (hsend : ∀ response, P (.send ⟨frame.requestId, response⟩)) (hdaemon : ∀ o, P (.daemon o))
    (hactive : P (.insertActive frame.requestId))
    (hcancel : ∀ target, frame.request = .cancel target → P (.isActive target) ∧ P (.cancel target))
    (hquery : ∀ id query values readOnly stream limits,
      frame.request = .query query values readOnly stream limits →
        P (.spawn frame.requestId (.query id query values readOnly stream limits)))
    (hcommit : ∀ id statements, frame.request = .commit →
      P (.spawn frame.requestId (.transaction id statements)))
    (hexport : ∀ database, frame.request = .snapshotExport database →
      P (.spawn frame.requestId (.snapshotExport database))) :
    (dispatch E service frame state).Only (S := connection) P :=
  dispatch_calls hsend (fun p _ => Prog.Only.lift (Prog.Only.of_forall hdaemon p)) hactive hcancel
    hquery hcommit hexport

end NostdbServer
