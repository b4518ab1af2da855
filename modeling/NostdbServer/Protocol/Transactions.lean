import NostdbServer.Protocol.Turns

/-!
# Explicit transactions

What the turns of a conversation do to the queue of the open transaction, and
what a commit hands to the engine. The account is kept by the answers alone: a
turn opens a transaction if it was answered `begun`, and adds to it if it is a
query that was answered `queued`.
-/

namespace NostdbServer

open Effects

-- ---------------------------------------------------------------------------
-- Reading a turn
-- ---------------------------------------------------------------------------

/-- The response an event got through to the client. -/
def response? : Event connection → Option ServerResponse
  | ⟨.send frame, accepted⟩ => cond accepted (some frame.response) none
  | _ => none

@[simp] theorem response?_sent (frame : ServerFrame) :
    response? (sent frame) = some frame.response := rfl

def ServerResponse.isBegun : ServerResponse → Bool
  | .transaction state _ => state = "begun"
  | _ => false

def ServerResponse.isQueued : ServerResponse → Bool
  | .queued _ => true
  | _ => false

namespace Turn

def responses (t : Turn) : List ServerResponse := t.log.filterMap response?

def isBegun (t : Turn) : Bool := t.responses.any ServerResponse.isBegun

/-- The query with its parameters, if it was answered `queued`. -/
def queued? (t : Turn) : Option (String × WireParameters) :=
  match t.incoming, t.responses with
  | .frame ⟨_, .query query values _ _ _⟩, [.queued _] => some (query, values)
  | _, _ => none

theorem queued?_eq {t : Turn} {frame : ClientFrame} (hincoming : t.incoming = .frame frame)
    (hrequest : frame.request = .query query values readOnly stream limits)
    (hresponses : t.responses = [.queued n]) : t.queued? = some (query, values) := by
  obtain ⟨requestId, request⟩ := frame
  cases hrequest
  simp [queued?, hincoming, hresponses]

end Turn

def Phase.transaction : Phase → Option (List QueuedStatement)
  | .session state => state.transaction
  | _ => none

def Phase.selected : Phase → Option String
  | .session state => state.selectedDatabaseId
  | _ => none

-- ---------------------------------------------------------------------------
-- What a turn does to the transaction
-- ---------------------------------------------------------------------------

/-- No event opens a transaction or adds to it. -/
def Plain (log : List (Event connection)) : Prop :=
  ∀ response ∈ log.filterMap response?, response.isBegun = false ∧ response.isQueued = false

/-- Everything a finished turn of a session can do to the selection and the
transaction, with what it answers. -/
inductive Turned (service : Service) (frame : ClientFrame) (state state' : ConnectionState) :
    List (Event connection) → Prop
  | begun (hnone : state.transaction = none) (hselected : state.selectedDatabaseId.isSome)
      (htransaction : state'.transaction = some [])
      (hkept : state'.selectedDatabaseId = state.selectedDatabaseId) :
      Turned service frame state state' [sent ⟨frame.requestId, .transaction "begun" []⟩]
  | queued (hrequest : frame.request = .query query values readOnly stream limits)
      (hsome : state.transaction = some statements)
      (hlength : statements.length < service.limits.maxTransactionStatements)
      (htransaction : state'.transaction = some (statements ++ [⟨query, values, readOnly⟩]))
      (hkept : state'.selectedDatabaseId = state.selectedDatabaseId) :
      Turned service frame state state' [sent ⟨frame.requestId, .queued (statements.length + 1)⟩]
  | ended (hrequest : frame.request = .commit ∨ frame.request = .rollback)
      (hsome : state.transaction.isSome) (htransaction : state'.transaction = none)
      (hkept : state'.selectedDatabaseId = state.selectedDatabaseId) (hlog : Plain log) :
      Turned service frame state state' log
  | moved (hnone : state.transaction = none) (htransaction : state'.transaction = none)
      (hlog : Plain log) : Turned service frame state state' log
  | kept (htransaction : state'.transaction = state.transaction)
      (hkept : state'.selectedDatabaseId = state.selectedDatabaseId) (hlog : Plain log) :
      Turned service frame state state' log

theorem Plain.sent {response : ServerResponse} (hbegun : response.isBegun = false)
    (hqueued : response.isQueued = false) : Plain [sent ⟨requestId, response⟩] := by
  simp [Plain, hbegun, hqueued]

theorem Plain.failure (requestId : UInt64) (error : ProtocolFailure) :
    Plain [NostdbServer.sent (failureFrame requestId error)] :=
  Plain.sent rfl rfl

theorem Plain.append {log log' : List (Event connection)} (h : Plain log) (h' : Plain log') :
    Plain (log ++ log') := by
  simp only [Plain, List.filterMap_append, List.mem_append] at *
  rintro response (hr | hr)
  · exact h response hr
  · exact h' response hr

theorem Plain.daemon {log : List (Event connection)} (h : ∀ e ∈ log, e.op.isDaemon = true) :
    Plain log := by
  intro response hr
  obtain ⟨⟨o, ans⟩, he, hresponse⟩ := List.mem_filterMap.mp hr
  have ho := h _ he
  cases o <;> simp_all [ConnectionOp.isDaemon, response?]

section
variable {service : Service} {frame : ClientFrame} {state : ConnectionState}

theorem Turned.refused (error : ProtocolFailure) :
    Turned service frame state { state with lastRequestId := r }
      [sent (failureFrame frame.requestId error)] :=
  .kept rfl rfl (.failure _ error)

theorem Turned.answered {response : ServerResponse} (hbegun : response.isBegun = false)
    (hqueued : response.isQueued = false) :
    Turned service frame state { state with lastRequestId := r } [sent ⟨frame.requestId, response⟩] :=
  .kept rfl rfl (.sent hbegun hqueued)

theorem relay_turned {p : Prog daemon ProtocolFailure α} {response : α → ServerResponse}
    {state' : ConnectionState} (htransaction : state'.transaction = state.transaction)
    (hkept : state'.selectedDatabaseId = state.selectedDatabaseId)
    (hplain : ∀ a, (response a).isBegun = false ∧ (response a).isQueued = false) :
    Yields (relay service frame.requestId state' p response) [] (Turned service frame state) := by
  refine Yields.relay (fun a l hl => ?_) fun error l hl => ?_
  · exact .kept htransaction hkept ((Plain.daemon hl).append (.sent (hplain a).1 (hplain a).2))
  · exact .kept htransaction hkept ((Plain.daemon hl).append (.failure _ error))

theorem dispatchSelect_turned (hnone : state.transaction = none) :
    Yields (dispatchSelect service frame.requestId { state with lastRequestId := r } database) []
      (Turned service frame state) := by
  refine Yields.bind (Yields.calling fun result l hl => ?_)
  cases result with
  | ok summary => exact Yields.answer (.moved hnone hnone ((Plain.daemon hl).append (.sent rfl rfl)))
  | error error =>
    exact Yields.bind (Yields.sendResponse
      (.moved hnone hnone ((Plain.daemon hl).append (.failure _ error))))

theorem dispatchQuery_turned (hrequest : frame.request = .query query values readOnly stream limits) :
    Yields (dispatchQuery service frame.requestId { state with lastRequestId := r } query values
      readOnly stream limits) [] (Turned service frame state) := by
  unfold dispatchQuery
  split
  · exact Yields.refuse (.refused _)
  · rename_i transaction hs ht
    unfold enqueue
    split
    · exact Yields.refuse (.refused _)
    · split
      · exact Yields.refuse (.refused _)
      · split
        · exact Yields.refuse (.refused _)
        · rename_i hlength
          refine Yields.answer ?_
          rw [List.length_append]
          exact .queued hrequest ht (not_le.mp hlength) rfl rfl
  · exact Yields.launch (.kept rfl rfl (by simp [Plain, response?]))

theorem dispatchBegin_turned :
    Yields (dispatchBegin service frame.requestId { state with lastRequestId := r }) []
      (Turned service frame state) := by
  unfold dispatchBegin
  split
  · exact Yields.refuse (.refused _)
  · rename_i hnone
    split
    · exact Yields.refuse (.refused _)
    · rename_i hselected
      exact Yields.answer (.begun (by simpa using hnone)
        (by simpa [Option.isSome_iff_ne_none] using hselected) rfl rfl)

theorem dispatchCommit_turned (hrequest : frame.request = .commit) :
    Yields (dispatchCommit E service frame.requestId { state with lastRequestId := r }) []
      (Turned service frame state) := by
  unfold dispatchCommit
  split
  · exact Yields.refuse (.refused _)
  · rename_i statements hsome
    have hsome : state.transaction.isSome := by simp [show state.transaction = _ from hsome]
    have hended : ∀ {log}, Plain log → Turned service frame state
        { state with lastRequestId := r, transaction := none } log :=
      .ended (.inl hrequest) hsome rfl rfl
    dsimp only
    split
    · exact Yields.refuse (hended (.failure _ _))
    · split
      · exact Yields.refuse (hended (.failure _ _))
      · exact Yields.launch (hended (by simp [Plain, response?]))

theorem dispatchRollback_turned (hrequest : frame.request = .rollback) :
    Yields (dispatchRollback service frame.requestId { state with lastRequestId := r }) []
      (Turned service frame state) := by
  unfold dispatchRollback
  split
  · exact Yields.refuse (.refused _)
  · rename_i statements hsome
    exact Yields.answer (.ended (.inr hrequest)
      (by simp [show state.transaction = _ from hsome]) rfl rfl (.sent rfl rfl))

theorem dispatchCancel_turned :
    Yields (dispatchCancel service frame.requestId { state with lastRequestId := r } target) []
      (Turned service frame state) := by
  refine Yields.step fun active => ?_
  have hlook : Plain [⟨.isActive target, active⟩] := by simp [Plain, response?]
  cases active with
  | false => exact Yields.refuse (.kept rfl rfl (hlook.append (.failure _ _)))
  | true =>
    refine Yields.step fun _ => Yields.answer (.kept rfl rfl ?_)
    exact (hlook.append (by simp [Plain, response?])).append (.sent rfl rfl)

theorem dispatchDrop_turned (hnone : state.transaction = none) :
    Yields (dispatchDrop service frame.requestId { state with lastRequestId := r } database
      confirmName) [] (Turned service frame state) := by
  refine Yields.bind (Yields.calling fun result l hl => Yields.bind ?_)
  refine Yields.respondResult (fun dropped h => ?_) fun error h => ?_
  · subst h
    refine .moved hnone ?_ ((Plain.daemon hl).append (.sent rfl rfl))
    dsimp only
    split
    · rfl
    · exact hnone
  · subst h
    exact .moved hnone hnone ((Plain.daemon hl).append (.failure _ error))

theorem dispatchRestoreBegin_turned :
    Yields (dispatchRestoreBegin service frame.requestId { state with lastRequestId := r } database
      totalBytes) [] (Turned service frame state) := by
  unfold dispatchRestoreBegin
  split
  · exact Yields.refuse (.refused _)
  · split
    · exact Yields.refuse (.refused _)
    · refine Yields.bind (Yields.calling fun result l hl => ?_)
      cases result with
      | ok summary =>
        exact Yields.answer (.kept rfl rfl ((Plain.daemon hl).append (.sent rfl rfl)))
      | error error =>
        exact Yields.bind (Yields.sendResponse
          (.kept rfl rfl ((Plain.daemon hl).append (.failure _ error))))

theorem dispatchRestoreChunk_turned {sequence : Nat} :
    Yields (dispatchRestoreChunk service frame.requestId { state with lastRequestId := r } sequence
      data) [] (Turned service frame state) := by
  unfold dispatchRestoreChunk
  split
  · exact Yields.refuse (.refused _)
  · split
    · exact Yields.refuse (.refused _)
    · split
      · exact Yields.refuse (.refused _)
      · split
        · exact Yields.refuse (.refused _)
        · split
          · exact Yields.refuse (.refused _)
          · exact Yields.answer (.kept rfl rfl (.sent rfl rfl))

theorem dispatchRestoreCommit_turned :
    Yields (dispatchRestoreCommit service frame.requestId { state with lastRequestId := r }) []
      (Turned service frame state) := by
  unfold dispatchRestoreCommit
  split
  · exact Yields.refuse (.refused _)
  · split
    · exact Yields.refuse (.refused _)
    · exact relay_turned rfl rfl fun _ => ⟨rfl, rfl⟩

theorem dispatch_turned :
    Yields (dispatch E service frame { state with lastRequestId := frame.requestId }) []
      (Turned service frame state) := by
  unfold dispatch
  dsimp only
  split
  · exact Yields.refuse (.refused _)
  split
  · exact Yields.refuse (.refused _)
  rename_i hcontext
  -- Outside a transaction, or not a change of context.
  have hnone (h : changesDatabaseContext frame.request = true) : state.transaction = none := by
    simpa [h] using hcontext
  split
  case h_1 => exact Yields.refuse (.refused _)
  case h_2 => exact Yields.answer (.answered rfl rfl)
  case h_3 database hrequest => exact dispatchSelect_turned (hnone (by simp [hrequest, changesDatabaseContext]))
  case h_4 hrequest => exact dispatchQuery_turned hrequest
  case h_5 => exact dispatchBegin_turned
  case h_6 hrequest => exact dispatchCommit_turned hrequest
  case h_7 hrequest => exact dispatchRollback_turned hrequest
  case h_8 => exact dispatchCancel_turned
  case h_13 hrequest => exact dispatchDrop_turned (hnone (by simp [hrequest, changesDatabaseContext]))
  case h_14 => exact Yields.step fun _ => .kept rfl rfl (by simp [Plain, response?])
  case h_15 => exact dispatchRestoreBegin_turned
  case h_16 => exact dispatchRestoreChunk_turned
  case h_17 => exact dispatchRestoreCommit_turned
  case h_18 => exact Yields.answer (.kept rfl rfl (.sent rfl rfl))
  all_goals exact relay_turned rfl rfl fun _ => ⟨rfl, rfl⟩

theorem receive_turned :
    Yields (receive E service frame state) [] (Turned service frame state) := by
  unfold receive
  split
  · exact Yields.refuse (.kept rfl rfl (.failure _ _))
  · exact dispatch_turned

end

/-- What a finished turn that leaves a session has done. -/
theorem handleIncoming_turned
    (h : (handleIncoming E service before incoming).Run log (.pure (.session state'))) :
    (before = .greeting ∧ state'.transaction = none) ∨
    (∃ state, before = .session state ∧ state' = state ∧ log = []) ∨
    ∃ state frame, before = .session state ∧ incoming = .frame frame ∧
      Turned service frame state state' log := by
  cases before with
  | greeting =>
    cases incoming with
    | frame frame =>
      obtain ⟨hgreeted, -⟩ := greet_yields.run h
      cases hgreeted
      exact .inl ⟨rfl, rfl⟩
    | woken => cases h
    | shutdown => cases h
    | endOfStream message => cases h
    | broken message => cases h
  | session state =>
    cases incoming with
    | frame frame =>
      have hturned : Yields (handleIncoming E service (.session state) (.frame frame)) []
          fun phase log => ∀ state', phase = .session state' →
            Turned service frame state state' log := by
        refine Yields.bind (receive_turned.mono ?_)
        rintro state₁ log hlog state' ⟨⟩
        exact hlog
      exact .inr (.inr ⟨state, frame, rfl, rfl, hturned.run h state' rfl⟩)
    | woken =>
      cases h
      exact .inr (.inl ⟨_, rfl, rfl, rfl⟩)
    | shutdown => exact absurd (leave_yields.run h) (by simp)
    | endOfStream message => exact absurd (leave_yields.run h) (by simp)
    | broken message => cases h
  | closed => cases incoming <;> cases h

-- ---------------------------------------------------------------------------
-- The open transaction is what the answers say
-- ---------------------------------------------------------------------------

/-- The turn keeps a transaction on the Database `id` open. -/
def Turn.Within (id : String) (t : Turn) : Prop :=
  t.isBegun = false ∧ ∃ state state', t.before = .session state ∧ t.after = some (.session state') ∧
    state.transaction.isSome ∧ state'.transaction.isSome ∧
    state.selectedDatabaseId = some id ∧ state'.selectedDatabaseId = some id

/-- `b` was answered `begun` with the Database `id` selected, and the transaction
has been open ever since. -/
structure Opened (id : String) (b : Turn) (since : List Turn) : Prop where
  begun : b.isBegun = true
  selected : ∃ state, b.after = some (.session state) ∧ state.transaction.isSome ∧
    state.selectedDatabaseId = some id
  within : ∀ t ∈ since, t.Within id

theorem Opened.snoc {id : String} {b t : Turn} (h : Opened id b since) (ht : t.Within id) :
    Opened id b (since ++ [t]) where
  begun := h.begun
  selected := h.selected
  within := by simpa [or_imp, forall_and] using ⟨h.within, ht⟩

/-- The queue of a session is the queries answered `queued` since the latest
`begun`. -/
structure Accounted (service : Service) (turns : List Turn) (state : ConnectionState)
    (statements : List QueuedStatement) : Prop where
  opened : ∃ id earlier b since, turns = earlier ++ b :: since ∧ Opened id b since ∧
    state.selectedDatabaseId = some id ∧
    statements.map QueuedStatement.pair = since.filterMap Turn.queued?
  bounded : statements.length ≤ service.limits.maxTransactionStatements

theorem Plain.isBegun {t : Turn} (h : Plain t.log) : t.isBegun = false := by
  simp only [Turn.isBegun, Turn.responses, List.any_eq_false, Bool.not_eq_true]
  exact fun response hr => (h response hr).1

theorem Plain.queued? {t : Turn} (h : Plain t.log) : t.queued? = none := by
  unfold Turn.queued?
  split
  · rename_i n _ hresponses
    have hr : .queued n ∈ t.log.filterMap response? := by
      rw [show t.log.filterMap response? = _ from hresponses]
      exact List.mem_singleton_self _
    exact absurd (h _ hr).2 (by simp [ServerResponse.isQueued])
  · rfl

theorem Accounted.snoc {t : Turn} {state state' : ConnectionState}
    (h : Accounted service turns state statements) (hbefore : t.before = .session state)
    (hafter : t.after = some (.session state')) (hbegun : t.isBegun = false)
    (hsome : state.transaction = some statements) (hsome' : state'.transaction = some statements')
    (hkept : state'.selectedDatabaseId = state.selectedDatabaseId)
    (hqueue : statements'.map QueuedStatement.pair =
      statements.map QueuedStatement.pair ++ t.queued?.toList)
    (hbound : statements'.length ≤ service.limits.maxTransactionStatements) :
    Accounted service (turns ++ [t]) state' statements' := by
  obtain ⟨⟨id, earlier, b, since, rfl, hopened, hselected, hsince⟩, -⟩ := h
  have hselected' : state'.selectedDatabaseId = some id := hkept.trans hselected
  refine ⟨⟨id, earlier, b, since ++ [t], by simp, hopened.snoc ?_, hselected', ?_⟩, hbound⟩
  · exact ⟨hbegun, state, state', hbefore, hafter, by simp [hsome], by simp [hsome'], hselected,
      hselected'⟩
  · rw [hqueue, hsince, List.filterMap_append]
    cases hq : t.queued? <;> simp [hq]

theorem Conversation.accounted {state : ConnectionState} {statements : List QueuedStatement}
    (h : Conversation E service turns) (hphase : phaseAfter turns = some (.session state))
    (hstatements : state.transaction = some statements) :
    Accounted service turns state statements := by
  induction h generalizing state statements with
  | start => cases hphase
  | @turn turns before incoming log rest hturns hbefore hrun ih =>
    rw [phaseAfter_snoc] at hphase
    have hrest : rest = .pure (.session state) := by
      simp only [Turn.after] at hphase
      split at hphase <;> simp_all
    subst hrest
    -- A turn that neither opens nor extends the transaction leaves the account alone.
    have hplain {state₀ : ConnectionState} (h₀ : before = .session state₀)
        (htransaction : state.transaction = state₀.transaction)
        (hkept : state.selectedDatabaseId = state₀.selectedDatabaseId) (hlog : Plain log) :
        Accounted service (turns ++ [⟨before, incoming, log, .pure (.session state)⟩]) state
          statements := by
      have hsome := htransaction ▸ hstatements
      have haccount := ih (h₀ ▸ hbefore) hsome
      exact haccount.snoc h₀ rfl (Plain.isBegun hlog) hsome hstatements hkept
        (by simp [Plain.queued? (t := ⟨before, incoming, log, _⟩) hlog]) haccount.bounded
    obtain ⟨-, hnone⟩ | ⟨state₀, rfl, rfl, rfl⟩ | ⟨state₀, frame, rfl, rfl, hturned⟩ :=
      handleIncoming_turned hrun
    · simp [hnone] at hstatements
    · exact hplain rfl rfl rfl (by simp [Plain])
    · cases hturned with
      | begun hnone hselected htransaction hkept =>
        obtain ⟨id, hid⟩ := Option.isSome_iff_exists.mp hselected
        have hid' : state.selectedDatabaseId = some id := hkept.trans hid
        cases hstatements.symm.trans htransaction
        refine ⟨⟨id, turns, _, [], rfl, ⟨rfl, ⟨state, rfl, ?_, hid'⟩, by simp⟩, hid', rfl⟩, by simp⟩
        simp [htransaction]
      | queued hrequest hsome hlength htransaction hkept =>
        cases hstatements.symm.trans htransaction
        refine (ih hbefore hsome).snoc rfl rfl rfl hsome htransaction hkept ?_ ?_
        · rw [Turn.queued?_eq rfl hrequest rfl]
          simp [QueuedStatement.pair]
        · simpa using Nat.succ_le_of_lt hlength
      | ended _ _ htransaction => simp [htransaction] at hstatements
      | moved _ htransaction => simp [htransaction] at hstatements
      | kept htransaction hkept hlog => exact hplain rfl htransaction hkept hlog

-- ---------------------------------------------------------------------------
-- What a commit hands over
-- ---------------------------------------------------------------------------

/-- The turn ends with a transaction open. -/
def Turn.LeavesOpen (t : Turn) : Prop :=
  ∃ state, t.after = some (.session state) ∧ state.transaction.isSome

theorem Opened.leavesOpen {id : String} {b : Turn} (h : Opened id b since) :
    ∀ t ∈ b :: since, t.LeavesOpen := by
  refine List.forall_mem_cons.mpr ⟨?_, fun t ht => ?_⟩
  · obtain ⟨state, hafter, hsome, -⟩ := h.selected
    exact ⟨state, hafter, hsome⟩
  · obtain ⟨-, -, state, -, hafter, -, hsome, -⟩ := h.within t ht
    exact ⟨state, hafter, hsome⟩

theorem Turn.rest_of_after {t : Turn} (h : t.after = some (.session state)) :
    t.rest = .pure (.session state) := by
  unfold Turn.after at h
  split at h <;> simp_all

/-- Where a turn ended the transaction before, the open one was begun later. -/
theorem Opened.after_ended {id : String} {b t : Turn} (h : Opened id b since)
    (hsplit : pre ++ t :: mid = earlier ++ b :: since) (ht : ¬ t.LeavesOpen) :
    ∃ mid', mid = mid' ++ b :: since := by
  rcases List.append_eq_append_iff.mp hsplit with ⟨first, -, hfirst⟩ | ⟨first, -, hfirst⟩
  · cases first with
    | nil =>
      cases hfirst
      exact absurd (h.leavesOpen b (by simp)) ht
    | cons _ mid' =>
      cases hfirst
      exact ⟨mid', rfl⟩
  · exact absurd (h.leavesOpen t (by simp [hfirst])) ht

/-- A commit takes the account of the open transaction with it. -/
theorem Conversation.commits {t : Turn} {id : String}
    (h : Conversation E service (pre ++ t :: post))
    (hspawn : .spawn r (.transaction id statements) ∈ t.log.map Event.op) :
    t.log.map Event.op = [.insertActive r, .spawn r (.transaction id statements)] ∧
      ¬ t.LeavesOpen ∧ ∃ earlier b since, pre = earlier ++ b :: since ∧ Opened id b since ∧
        statements = since.filterMap Turn.queued? := by
  obtain ⟨state, frame, p, hbefore, -, hrun, hrest⟩ :=
    handleIncoming_receives (h.run (by simp)) hspawn rfl
  obtain ⟨-, -, ⟨state', rfl, hlaunches⟩, hlog | ⟨-, _, ⟨⟩⟩⟩ := receive_spawns hrun hspawn
  cases hlaunches with
  | commit hrequest hselected hqueue hnone' hreads =>
    refine ⟨by simp [hlog], ?_, ?_⟩
    · rintro ⟨state₁, hafter, hsome⟩
      simp only [Turn.after, hrest, Prog.bind_pure, Option.some.injEq, Phase.session.injEq] at hafter
      simp [← hafter, hnone'] at hsome
    · obtain ⟨hpre, hphase⟩ := h.upto
      obtain ⟨⟨id', earlier, b, since, rfl, hopened, hselected', hsince⟩, -⟩ :=
        hpre.accounted (hbefore ▸ hphase) hqueue
      cases hselected'.symm.trans hselected
      exact ⟨earlier, b, since, rfl, hopened, hsince⟩

/-- A turn that was answered `queued` is over. -/
theorem receive_queued {frame : ClientFrame} (h : (receive E service frame state).Run log rest)
    (hqueued : .queued n ∈ log.filterMap response?) : ∃ state', rest = .pure state' := by
  obtain ⟨later, q, result, hlater, hq, hhandled⟩ :=
    receive_performs.begun ConnectionOp.ans_nonempty h
  obtain ⟨e, he, hresponse⟩ := List.mem_filterMap.mp hqueued
  have hsilent {work : List (Event connection)} (hwork : Silent work) :
      ∀ x ∈ work, ¬ response? x = some (.queued n) := by
    rintro ⟨o, ans⟩ hx
    have ho := hwork _ hx
    cases o <;> simp_all [ConnectionOp.silent, response?]
  have hmem := List.mem_append_left later he
  generalize hlog : log ++ later = all at hmem hhandled
  cases hhandled with
  | @answered work response result replies hwork _ hposted =>
    cases result with
    | ok state' =>
      obtain ⟨-, rfl⟩ := hposted
      obtain rfl := ends_with (e := sent ⟨frame.requestId, response⟩) hlog (hsilent hwork) he hresponse
      cases hlater
      refine ⟨state', ?_⟩
      cases rest <;> simp_all [Prog.result?]
    | error message =>
      rcases List.mem_append.mp hmem with hmem | hmem
      · exact absurd hresponse (hsilent hwork e hmem)
      · cases hposted with
        | closed =>
          cases List.mem_singleton.mp hmem
          cases hresponse
        | replaced _ accepted =>
          cases List.mem_singleton.mp hmem
          cases accepted <;> cases hresponse
        | next _ h => cases h
  | taken =>
    cases List.mem_singleton.mp hmem
    cases hresponse
  | launched =>
    simp only [List.mem_cons, List.not_mem_nil, or_false] at hmem
    obtain rfl | rfl := hmem <;> cases hresponse
  | exporting =>
    cases List.mem_singleton.mp hmem
    cases hresponse

/-- A query received while a transaction is open is only answered. -/
theorem receive_deferred {frame : ClientFrame}
    (hrequest : frame.request = .query query values readOnly stream limits)
    (hsome : state.transaction.isSome) :
    (receive E service frame state).Only (S := connection) fun o => ∃ reply, o = .send reply := by
  have hsend (response : ServerResponse) :
      ∃ reply, ConnectionOp.send ⟨frame.requestId, response⟩ = .send reply := ⟨_, rfl⟩
  unfold receive
  split
  · exact refuse_only hsend
  simp only [dispatch, hrequest, isAdminRequest, changesDatabaseContext, Bool.false_eq_true,
    and_false, ↓reduceIte]
  unfold dispatchQuery
  split
  · exact refuse_only hsend
  · unfold enqueue
    split
    · exact refuse_only hsend
    split
    · exact refuse_only hsend
    split
    · exact refuse_only hsend
    · exact answer_only hsend
  · simp_all

/-- Everything promised of the transactions of one connection. -/
structure ExactTransactions (E : Engine) (service : Service) (turns : List Turn) : Prop where
  /-- An open transaction has a selected Database and a bounded queue. -/
  bounded : ∀ t ∈ turns, ∀ state queue,
    (t.before = .session state ∨ t.after = some (.session state)) →
    state.transaction = some queue → state.selectedDatabaseId.isSome ∧
      queue.length ≤ service.limits.maxTransactionStatements
  /-- While a transaction is open the selection stays. -/
  fixed : ∀ t ∈ turns, ∀ state state', t.before = .session state →
    t.after = some (.session state') → state.transaction.isSome →
    state'.selectedDatabaseId = state.selectedDatabaseId
  /-- An answer `queued` counts the queries queued since the latest `begun`. -/
  counted : ∀ pre t post n, turns = pre ++ t :: post → .queued n ∈ t.responses →
    t.queued?.isSome ∧ ∃ id earlier b since, pre = earlier ++ b :: since ∧ Opened id b since ∧
      n = (since.filterMap Turn.queued?).length + 1
  /-- A query received while a transaction is open starts nothing. -/
  deferred : ∀ t ∈ turns, ∀ state frame query values readOnly stream limits,
    t.before = .session state → state.transaction.isSome → t.incoming = .frame frame →
    frame.request = .query query values readOnly stream limits →
    ∀ o ∈ t.log.map Event.op, ∃ reply, o = .send reply
  /-- A commit hands over the queries queued since the latest `begun`, once, and
  ends the transaction. -/
  executed : ∀ pre t post r id statements, turns = pre ++ t :: post →
    .spawn r (.transaction id statements) ∈ t.log.map Event.op →
    t.log.map Event.op = [.insertActive r, .spawn r (.transaction id statements)] ∧
      ¬ t.LeavesOpen ∧ ∃ earlier b since, pre = earlier ++ b :: since ∧ Opened id b since ∧
        statements = since.filterMap Turn.queued?
  /-- What was queued before a turn that ended the transaction is not handed over
  after it. -/
  ended : ∀ pre e mid t post r id statements, turns = pre ++ e :: (mid ++ t :: post) →
    ¬ e.LeavesOpen → .spawn r (.transaction id statements) ∈ t.log.map Event.op →
    ∃ mid' b since, mid = mid' ++ b :: since ∧ Opened id b since ∧
      statements = since.filterMap Turn.queued?
  /-- The task of a commit calls the engine at most once, with exactly what it was
  handed and on the Database it was handed. -/
  engine : ∀ r id statements before call after rest,
    (runTask E service r (.transaction id statements)).Run (before ++ call :: after) rest →
    call.op.callsEngine = true → (∀ e ∈ before, e.op.callsEngine = false) ∧
      ∃ handle converted, ⟨.daemon (.readHandle id), some handle⟩ ∈ before ∧
        convertStatements service.floatOfInt statements = .ok converted ∧
        call.op = .daemon (.storage handle.id
          (.executeTransaction converted service.limits.queryLimits))

theorem transactions_are_exact (h : Conversation E service turns) :
    ExactTransactions E service turns where
  bounded t ht state queue hstate hqueue := by
    obtain ⟨pre, post, rfl⟩ := List.append_of_mem ht
    have haccounted : ∃ turns, Accounted service turns state queue := by
      rcases hstate with hbefore | hafter
      · obtain ⟨hpre, hphase⟩ := h.upto
        exact ⟨_, hpre.accounted (hbefore ▸ hphase) hqueue⟩
      · exact ⟨_, h.through.accounted (by rwa [phaseAfter_snoc]) hqueue⟩
    obtain ⟨_, ⟨id, -, -, -, -, -, hid, -⟩, hbound⟩ := haccounted
    exact ⟨by simp [hid], hbound⟩
  fixed t ht state state' hbefore hafter hsome := by
    have hrun := h.run ht
    rw [Turn.rest_of_after hafter] at hrun
    obtain ⟨hgreeting, -⟩ | ⟨state₀, hstate₀, rfl, -⟩ | ⟨state₀, frame, hstate₀, -, hturned⟩ :=
      handleIncoming_turned hrun
    · simp [hbefore] at hgreeting
    · cases hbefore.symm.trans hstate₀
      rfl
    · cases hbefore.symm.trans hstate₀
      generalize t.log = log at hturned
      cases hturned with
      | begun hnone | moved hnone => simp [hnone] at hsome
      | queued _ _ _ _ hkept | ended _ _ _ hkept | kept _ hkept => exact hkept
  counted pre t post n hturns hqueued := by
    subst hturns
    obtain ⟨e, he, hresponse⟩ := List.mem_filterMap.mp hqueued
    have hop : ConnectionOp.receives e.op = true := by
      obtain ⟨o, ans⟩ := e
      cases o <;> first | rfl | cases hresponse
    obtain ⟨state, frame, p, hbefore, hincoming, hrun, hrest⟩ :=
      handleIncoming_receives (h.run (by simp)) (List.mem_map_of_mem he) hop
    obtain ⟨state', rfl⟩ := receive_queued hrun hqueued
    obtain ⟨pre', hphase⟩ := h.upto
    have hturn := h.run (t := t) (by simp)
    rw [hrest] at hturn
    obtain ⟨hgreeting, -⟩ | ⟨_, _, _, hnil⟩ | ⟨state₀, frame₀, hstate₀, hframe₀, hturned⟩ :=
      handleIncoming_turned hturn
    · simp [hbefore] at hgreeting
    · simp [Turn.responses, hnil] at hqueued
    · have hresponses : t.responses = t.log.filterMap response? := rfl
      generalize t.log = log at hturned hresponses
      have hplain (hlog : Plain log) : False := by
        have := (hlog (.queued n) (hresponses ▸ hqueued)).2
        simp [ServerResponse.isQueued] at this
      cases hturned with
      | begun => simp [hresponses] at hqueued
      | queued hrequest hsome =>
        obtain rfl : n = _ := by simpa [hresponses] using hqueued
        obtain ⟨⟨id, earlier, b, since, rfl, hopened, -, hsince⟩, -⟩ :=
          pre'.accounted (hstate₀ ▸ hphase) hsome
        refine ⟨?_, id, earlier, b, since, rfl, hopened, ?_⟩
        · rw [Turn.queued?_eq hframe₀ hrequest (by simpa using hresponses)]
          rfl
        · rw [← hsince, List.length_map]
      | ended _ _ _ _ hlog | moved _ _ hlog | kept _ _ hlog => exact (hplain hlog).elim
  deferred t ht state frame query values readOnly stream limits hbefore hsome hincoming hrequest := by
    have hrun := h.run ht
    rw [hbefore, hincoming] at hrun
    have honly := (hrun.only ((receive_deferred hrequest hsome).bind fun _ => trivial)).1
    intro o ho
    obtain ⟨e, he, rfl⟩ := List.mem_map.mp ho
    exact honly e he
  executed pre t post r id statements hturns hspawn := by
    subst hturns
    exact h.commits hspawn
  ended pre e mid t post r id statements hturns he hspawn := by
    have hsplit : turns = (pre ++ e :: mid) ++ t :: post := by simp [hturns]
    obtain ⟨-, -, earlier, b, since, hpre, hopened, hstatements⟩ :=
      (hsplit ▸ h).commits hspawn
    obtain ⟨mid', rfl⟩ := hopened.after_ended hpre he
    exact ⟨mid', b, since, rfl, hopened, hstatements⟩
  engine r id statements before call after rest hrun hcall := by
    obtain ⟨later, q, result, -, -, hran⟩ :=
      (runTask_performs E (.transaction id statements)).begun ConnectionOp.ans_nonempty hrun
    have hlog : before ++ call :: after ++ later = before ++ call :: (after ++ later) := by simp
    obtain ⟨hlooks, hnone, handle, answer, hhandle, rfl⟩ := hran.2.call hlog hcall
    refine ⟨fun e he => ConnectionOp.callsEngine_of_looks (hlooks e he), handle, _, hhandle, ?_, rfl⟩
    unfold transactionRefusal at hnone
    split at hnone
    · cases hnone
    · rename_i hconverted
      simp [transactionStatements, hconverted, Except.toOption]

/-- A client selects a Database and commits one statement. -/
def oneStatement : List Turn :=
  converse .plain .plain (quietly ⟨CATALOG_VERSION, [⟨"id", "main", "ready"⟩]⟩) [] [
    .frame ⟨1, .hello 1 "query" "client"⟩,
    .frame ⟨2, .selectDatabase "main"⟩,
    .frame ⟨3, .begin⟩,
    .frame ⟨4, .query "MATCH (n) RETURN n" [] false false none⟩,
    .frame ⟨5, .commit⟩]

def ConnectionOp.committed? : ConnectionOp → Option (String × List String)
  | .spawn _ (.transaction id statements) => some (id, statements.map Prod.fst)
  | _ => none

theorem transactions_are_exact_one :
    (oneStatement.flatMap fun t => t.log.filterMap fun e => e.op.committed?) =
        [("id", ["MATCH (n) RETURN n"])] ∧
      ExactTransactions .plain .plain oneStatement :=
  ⟨by decide +kernel, transactions_are_exact (.converse .start)⟩

end NostdbServer
