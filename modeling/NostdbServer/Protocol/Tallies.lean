import NostdbServer.Daemon.Sight
import NostdbServer.Protocol.Moments
import NostdbServer.Protocol.Statements

/-!
# The threads of a server

Turns and tasks keep the daemon's books. What a thread has to do with one
Database can be read off the log of its turn or its task, and every step of the
server is at most one step of such an account; so the accounts of all threads fit
the daemon in every state that is reached.
-/

namespace NostdbServer

open Effects Discipline

/-- In a connection and its tasks. -/
def bookkeepingOver (x : String) : Discipline connection Tally where
  allowed m
    | .daemon o => o.Permitted x m
    | _ => True
  admits _
    | .daemon o, ans => o.Faithful ans
    | _, _ => True
  next m
    | .daemon o, ans => o.tallied x m ans
    | _, _ => m

section
variable {x : String} {m : Tally} {E : Engine} {service : Service} {requestId : UInt64}
  {state : ConnectionState} {frame : ClientFrame}

theorem calling_obeys {p : Prog daemon ε α} {Q : α → Tally → Prop} {F : ε → Tally → Prop}
    (h : (bookkeeping x).Obeys p m Q F) : (bookkeepingOver x).Obeys (calling p) m Q F := by
  unfold calling
  refine Obeys.lift ?_ ?_ ?_ h
  · exact fun _ _ ho => ho
  · exact fun _ _ _ ha => ha
  · exact fun _ _ _ => rfl

theorem calling_keeps {p : Prog daemon ε α} {M : Tally → Prop} (h : (bookkeeping x).Keeps M p) :
    (bookkeepingOver x).Keeps M (calling p) := fun m hm => calling_obeys (h m hm)

theorem bookkeepingOver_own {o : ConnectionOp} (ho : o.isDaemon = false) (m : Tally) :
    (bookkeepingOver x).allowed m o ∧ ∀ ans, (bookkeepingOver x).next m o ans = m := by
  cases o <;> first | exact ⟨trivial, fun _ => rfl⟩ | cases ho

theorem ownOnly_keeps {p : Prog connection ε α} {M : Tally → Prop}
    (hp : p.Only (S := connection) fun o => ConnectionOp.isDaemon o = false) :
    (bookkeepingOver x).Keeps M p := by
  refine Keeps.of_only hp fun m o hm ho => ⟨(bookkeepingOver_own ho m).1, fun ans _ => ?_⟩
  rw [(bookkeepingOver_own ho m).2]
  exact hm

-- ---------------------------------------------------------------------------
-- Turns
-- ---------------------------------------------------------------------------

theorem Dispatched.keeps {p : Prog daemon ProtocolFailure α} (h : Dispatched service p) :
    (bookkeeping x).Keeps Tally.AtEase p := by
  cases h with
  | select => exact selectDatabase_keeps
  | create => exact createDatabase_keeps
  | list => exact listDatabases_keeps
  | inspect => exact inspectDatabase_keeps
  | rename => exact renameDatabase_keeps
  | drop => exact dropDatabase_keeps
  | restore => exact restoreSnapshot_keeps
  | exportLogical => exact exportLogical_keeps
  | importLogical => exact importLogical_keeps

/-- A call of the daemon, and what the connection makes of it. -/
theorem Dispatched.then {p : Prog daemon ProtocolFailure α}
    {f : Except ProtocolFailure α → Prog connection String β} (h : Dispatched service p)
    (hf : ∀ r, (f r).Only (S := connection) fun o => ConnectionOp.isDaemon o = false) :
    (bookkeepingOver x).Keeps Tally.AtEase ((calling p).attempt.bind f) :=
  (calling_keeps h.keeps).attempt.bind fun r => ownOnly_keeps (hf r)

theorem relay_keeps {p : Prog daemon ProtocolFailure α} {response : α → ServerResponse}
    (h : Dispatched service p) :
    (bookkeepingOver x).Keeps Tally.AtEase (relay service requestId state p response) :=
  h.then fun r => (respondResult_only (fun _ => rfl) r response).bind fun _ => trivial

theorem dispatchRestoreBegin_keeps {database : String} {totalBytes : Nat} :
    (bookkeepingOver x).Keeps Tally.AtEase
      (dispatchRestoreBegin service requestId state database totalBytes) := by
  unfold dispatchRestoreBegin
  split
  · exact ownOnly_keeps (refuse_only fun _ => rfl)
  split
  · exact ownOnly_keeps (refuse_only fun _ => rfl)
  have hselect : Dispatched service (selectDatabase database) := .select database
  refine hselect.then ?_
  rintro (_ | _)
  · exact (sendResponse_only (fun _ => rfl) _).bind fun _ => trivial
  · exact answer_only fun _ => rfl

theorem dispatchRestoreCommit_keeps :
    (bookkeepingOver x).Keeps Tally.AtEase (dispatchRestoreCommit service requestId state) := by
  unfold dispatchRestoreCommit
  split
  · exact ownOnly_keeps (refuse_only fun _ => rfl)
  split
  · exact ownOnly_keeps (refuse_only fun _ => rfl)
  · exact relay_keeps (.restore _ _)

theorem dispatch_keeps :
    (bookkeepingOver x).Keeps Tally.AtEase (dispatch E service frame state) := by
  have hsend : ∀ response, ConnectionOp.isDaemon (.send ⟨frame.requestId, response⟩) = false :=
    fun _ => rfl
  unfold dispatch
  dsimp only
  split
  · exact ownOnly_keeps (refuse_only hsend)
  split
  · exact ownOnly_keeps (refuse_only hsend)
  split
  case h_1 => exact ownOnly_keeps (refuse_only hsend)
  case h_2 => exact ownOnly_keeps (answer_only hsend)
  case h_3 database _ =>
    have hselect : Dispatched service (selectDatabase database) := .select database
    refine hselect.then ?_
    rintro (_ | _)
    · exact (sendResponse_only hsend _).bind fun _ => trivial
    · exact answer_only hsend
  case h_4 => exact ownOnly_keeps (dispatchQuery_only hsend rfl fun _ => rfl)
  case h_5 => exact ownOnly_keeps (dispatchBegin_only hsend)
  case h_6 => exact ownOnly_keeps (dispatchCommit_only hsend rfl fun _ _ => rfl)
  case h_7 => exact ownOnly_keeps (dispatchRollback_only hsend)
  case h_8 => exact ownOnly_keeps (dispatchCancel_only hsend rfl rfl)
  case h_9 => exact relay_keeps (.create _)
  case h_10 => exact relay_keeps .list
  case h_11 => exact relay_keeps (.inspect _)
  case h_12 => exact relay_keeps (.rename _ _)
  case h_13 database confirmName _ =>
    have hdrop : Dispatched service (dropDatabase service.root database confirmName) :=
      .drop database confirmName
    exact hdrop.then fun r => (respondResult_only hsend r _).bind fun _ => trivial
  case h_14 => exact ownOnly_keeps (Prog.Only.step rfl fun _ => trivial)
  case h_15 => exact dispatchRestoreBegin_keeps
  case h_16 => exact ownOnly_keeps (dispatchRestoreChunk_only hsend)
  case h_17 => exact dispatchRestoreCommit_keeps
  case h_18 => exact ownOnly_keeps (answer_only hsend)
  case h_19 => exact relay_keeps (.exportLogical _)
  case h_20 => exact relay_keeps (.importLogical _ _)

theorem handleIncoming_keeps (before : Phase) (incoming : Incoming) :
    (bookkeepingOver x).Keeps Tally.AtEase (handleIncoming E service before incoming) := by
  have hown {o : ConnectionOp} (h : ConnectionOp.receives o = false) : o.isDaemon = false := by
    cases o <;> first | rfl | cases h
  cases before with
  | greeting =>
    cases incoming with
    | frame frame => exact ownOnly_keeps (greet_only.mono fun _ => hown)
    | woken | shutdown => exact Keeps.pure _
    | endOfStream | broken => exact Keeps.fail _
  | closed => cases incoming <;> exact Keeps.pure _
  | session state =>
    cases incoming with
    | frame frame =>
      refine Keeps.bind ?_ fun _ => Keeps.pure _
      unfold receive
      split
      · exact ownOnly_keeps (refuse_only fun _ => rfl)
      · exact dispatch_keeps
    | shutdown | endOfStream => exact ownOnly_keeps (leave_only.mono fun _ => hown)
    | woken => exact Keeps.pure _
    | broken => exact Keeps.fail _

-- ---------------------------------------------------------------------------
-- Tasks
-- ---------------------------------------------------------------------------

/-- Under the mutex of this handle, whichever Database it is of. -/
structure Tally.Within (x : String) (handle : ManagedDatabase) (m : Tally) : Prop where
  own : handle.id = x → m.Guarded
  other : handle.id ≠ x → m.AtEase

section
variable {handle : ManagedDatabase} {k : Unit → Prog connection ε α} {Q : α → Tally → Prop}
  {F : ε → Tally → Prop}

theorem Tally.Has.lock (hm : m.Has x handle)
    (h : ∀ m : Tally, m.Within x handle → (bookkeepingOver x).Obeys (k ()) m Q F) :
    (bookkeepingOver x).Obeys ((onHandle handle .lock).bind k) m Q F := by
  refine Obeys.step (fun hid => hm.knows hid) fun _ _ => h _ ⟨fun hid => ?_, fun hid => ?_⟩
  · simp only [bookkeepingOver, DaemonOp.tallied, if_pos hid]
    exact ⟨hm.holds, hm.drawn, hm.made, hm.knows hid, rfl, hm.closed⟩
  · simp only [bookkeepingOver, DaemonOp.tallied, if_neg hid]
    exact hm.toAtEase

theorem Tally.Within.unlock (hm : m.Within x handle)
    (h : ∀ m : Tally, m.AtEase → (bookkeepingOver x).Obeys (k ()) m Q F) :
    (bookkeepingOver x).Obeys ((onHandle handle .unlock).bind k) m Q F := by
  refine Obeys.step (fun hid => (hm.own hid).guard) fun _ _ => h _ ?_
  by_cases hid : handle.id = x
  · have hg := hm.own hid
    simp only [bookkeepingOver, DaemonOp.tallied, if_pos hid, StorageOp.tallied]
    exact ⟨hg.holds, hg.drawn, hg.made, rfl, rfl, rfl, by simp [hg.closed, hg.holds]⟩
  · simp only [bookkeepingOver, DaemonOp.tallied, if_neg hid]
    exact hm.other hid

end

/-- A call of the engine on a Database that was found open. -/
theorem whileOpen_obeys {handle : ManagedDatabase} {token : UInt64}
    {engine : Prog connection ProtocolFailure (Except DatabaseError α)} (hm : m.Within x handle)
    (hengine : ∀ m : Tally, (handle.id = x → m.guard = true ∧ m.peeked = true) →
      (bookkeepingOver x).Obeys engine m (fun _ m' => m' = m) (fun _ m' => m' = m)) :
    (bookkeepingOver x).Obeys (whileOpen handle token engine) m
      (fun _ => Tally.Within x handle) (fun _ => Tally.Within x handle) := by
  have hpeeked (ans : Option Database) :
      (DaemonOp.tallied x m (.storage handle.id .peek) ans).Within x handle := by
    refine ⟨fun hid => ?_, fun hid => ?_⟩
    · have hg := hm.own hid
      simp only [DaemonOp.tallied, if_pos hid]
      exact ⟨hg.holds, hg.drawn, hg.made, hg.knows, hg.guard, hg.closed⟩
    · simp only [DaemonOp.tallied, if_neg hid]
      exact hm.other hid
  refine Obeys.step (fun hid => (hm.own hid).guard) ?_
  rintro (_ | database) -
  · exact hpeeked none
  refine Obeys.bind ((hengine _ fun hid => ⟨((hpeeked (some database)).own hid).guard, ?_⟩).mono
    ?_ ?_)
  · simp only [bookkeepingOver, DaemonOp.tallied, if_pos hid]
    rfl
  · rintro (_ | _) _ rfl
    · exact Obeys.step trivial fun _ _ => hpeeked (some database)
    · exact hpeeked (some database)
  · rintro _ _ rfl
    exact hpeeked (some database)

theorem executing_obeys {handle : ManagedDatabase} {token : UInt64}
    {engine : Prog connection ProtocolFailure (Except DatabaseError α)} (hm : m.Has x handle)
    (hengine : ∀ m : Tally, (handle.id = x → m.guard = true ∧ m.peeked = true) →
      (bookkeepingOver x).Obeys engine m (fun _ m' => m' = m) (fun _ m' => m' = m)) :
    (bookkeepingOver x).Obeys (executing handle token engine) m
      (fun _ => Tally.AtEase) (fun _ => Tally.AtEase) := by
  refine hm.lock fun m hm => Obeys.bind (Obeys.attempt ((whileOpen_obeys hm hengine).mono ?_ ?_))
  · exact fun _ _ hm => hm.unlock fun _ hm => hm
  · exact fun _ _ hm => hm.unlock fun _ hm => hm

/-- Work on the selected Database. -/
theorem selected_keeps {databaseId : String} {token : UInt64}
    {engine : ManagedDatabase → Prog connection ProtocolFailure (Except DatabaseError α)}
    (hengine : ∀ handle (m : Tally), (handle.id = x → m.guard = true ∧ m.peeked = true) →
      (bookkeepingOver x).Obeys (engine handle) m (fun _ m' => m' = m) (fun _ m' => m' = m)) :
    (bookkeepingOver x).Keeps Tally.AtEase ((calling (handleForSelectedId databaseId)).bind
      fun handle => executing handle token (engine handle)) :=
  fun _ hm => Obeys.bind ((calling_obeys (handleForSelectedId_obeys hm)).mono
    (fun handle _ h => executing_obeys h (hengine handle)) fun _ _ h => h)

theorem executeSelected_keeps {databaseId query : String} {values : WireParameters}
    {readOnly : Bool} {limits : Option WireQueryLimits} {token : UInt64} :
    (bookkeepingOver x).Keeps Tally.AtEase
      (executeSelected E service databaseId query values readOnly limits token) := by
  unfold executeSelected
  split
  · exact Keeps.fail _
  split
  · exact Keeps.fail _
  · refine selected_keeps fun handle m hm => ⟨hm, fun _ _ => ?_⟩
    simp only [Obeys, bookkeepingOver, DaemonOp.tallied, StorageOp.tallied, ite_self]

theorem executeSelectedTransaction_keeps {databaseId : String}
    {statements : List (String × WireParameters)} {token : UInt64} :
    (bookkeepingOver x).Keeps Tally.AtEase
      (executeSelectedTransaction service databaseId statements token) := by
  unfold executeSelectedTransaction
  split
  · exact Keeps.fail _
  · refine selected_keeps fun handle m hm => ⟨hm, fun _ _ => ?_⟩
    simp only [Obeys, bookkeepingOver, DaemonOp.tallied, StorageOp.tallied, ite_self]

theorem reporting_keeps {worker : Prog connection ProtocolFailure α} {message : String}
    {reply : Except ProtocolFailure α → Prog connection String Unit}
    (hworker : (bookkeepingOver x).Keeps Tally.AtEase worker)
    (hreply : ∀ r, (reply r).Only (S := connection) fun o => ConnectionOp.isDaemon o = false) :
    (bookkeepingOver x).Keeps Tally.AtEase
      ((withTimeout requestId worker message).bind fun result =>
        (Prog.call (S := connection) (.removeActive requestId)).bind fun _ => reply result) := by
  refine Keeps.bind (hworker.attempt.bind fun result => ownOnly_keeps ?_) fun result =>
    ownOnly_keeps (Prog.Only.step rfl fun _ => hreply result)
  refine Prog.Only.step rfl fun expired => ?_
  cases expired with
  | false => trivial
  | true => cases result <;> trivial

theorem runTask_keeps (task : Task) :
    (bookkeepingOver x).Keeps Tally.AtEase (runTask E service requestId task) := by
  have hsend : ∀ response, ConnectionOp.isDaemon (.send ⟨requestId, response⟩) = false :=
    fun _ => rfl
  cases task with
  | query databaseId query values readOnly stream limits =>
    refine reporting_keeps executeSelected_keeps ?_
    rintro (_ | result)
    · exact discarding_only (sendResponse_only hsend _)
    · refine discarding_only ?_
      unfold sendStatement
      split
      · exact (sendResponse_only hsend _).bind fun _ =>
          (sendRows_only hsend _).bind fun _ => sendResponse_only hsend _
      · exact sendResponse_only hsend _
  | transaction databaseId statements =>
    refine reporting_keeps executeSelectedTransaction_keeps ?_
    rintro (_ | _) <;> exact discarding_only (sendResponse_only hsend _)
  | snapshotExport database =>
    refine (calling_keeps exportSnapshot_keeps).attempt.bind ?_
    rintro (_ | bytes)
    · exact ownOnly_keeps (discarding_only (sendResponse_only hsend _))
    · exact ownOnly_keeps (discarding_only ((sendResponse_only hsend _).bind fun _ =>
        sendChunks_only hsend _))

end

-- ---------------------------------------------------------------------------
-- Logs
-- ---------------------------------------------------------------------------

/-- The answer of the map is a handle of that identifier. -/
theorem Daemon.Keyed.faithful {d d' : Daemon} {o : DaemonOp} {ans : o.Ans}
    (h : d.Keyed) (hstep : Daemon.step E uuids o c d = some (ans, d')) : o.Faithful ans := by
  cases o with
  | getHandle id =>
    cases hstep
    exact fun handle hh => h id handle hh
  | readHandle id =>
    simp only [Daemon.step] at hstep
    split at hstep
    · cases hstep
    · cases hstep
      exact fun handle hh => h id handle hh
  | _ => trivial

/-- What a thread of a connection has done: its turn, or a task. -/
def Link.log (l : Link) : Option UInt64 → List (Event connection)
  | none => (l.turn.map Turn.log).getD []
  | some r => ((l.jobs r).map Job.log).getD []

/-- What it does next. -/
def Link.next? (l : Link) : Option UInt64 → Option ConnectionOp
  | none => l.turn.bind fun t => t.rest.next?
  | some r => (l.jobs r).bind fun job => job.rest.next?

namespace Server

variable {ι : Type} [DecidableEq ι] {E : Engine} {service : Service} {uuids : Nat → String}
  {s t : Server ι} {i : ι} {x : String}

/-- Everything a step can do to the logs. -/
inductive Logged (E : Engine) (uuids : Nat → String) (s t : Server ι) : Prop
  | called {j : ι} {o : DaemonOp} {ans : o.Ans} (hnext : (s.links j).next? k = some (.daemon o))
      (hstep : Daemon.step E uuids o c s.daemon = some (ans, t.daemon))
      (hlog : (t.links j).log k = (s.links j).log k ++ [⟨.daemon o, ans⟩])
      (hothers : ∀ j' k', (j', k') ≠ (j, k) → (t.links j').log k' = (s.links j').log k')
  | own (hdaemon : t.daemon = s.daemon)
      (hlog : ∀ j k, (t.links j).log k = (s.links j).log k ∨ (t.links j).log k = [] ∨
        ∃ e, ConnectionOp.isDaemon e.op = false ∧ (t.links j).log k = (s.links j).log k ++ [e])

/-- A step that only one connection takes part in, and the daemon does not. -/
theorem Logged.link {l : Link} (h : ∀ k, l.log k = (s.links i).log k ∨ l.log k = []) :
    Logged E uuids s (s.setLink i l) := by
  refine .own rfl fun j k => ?_
  by_cases hij : j = i
  · subst hij
    rw [setLink_links_self]
    exact (h k).imp_right .inl
  · rw [setLink_links_of_ne s l hij]
    exact .inl rfl

/-- The next event of a thread. -/
theorem Logged.perform {s' : Server ι} {o : ConnectionOp} {ans : o.Ans} {l : Link}
    (hnext : (s.links i).next? k = some o)
    (hperform : s.perform E service uuids i o c = some (ans, s'))
    (hlog : l.log k = (s.links i).log k ++ [⟨o, ans⟩])
    (hothers : ∀ k', k' ≠ k → l.log k' = (s.links i).log k' ∨
      o.isDaemon = false ∧ l.log k' = []) : Logged E uuids s (s'.setLink i l) := by
  obtain ⟨-, -, helse⟩ := perform_link hperform
  cases ho : o.isDaemon with
  | true =>
    cases o with
    | daemon o =>
      obtain ⟨r, hr, heq⟩ := Option.map_eq_some_iff.mp hperform
      cases heq
      refine .called hnext hr ?_ fun j k' hne => ?_
      · rw [setLink_links_self, hlog]
      · by_cases hij : j = i
        · subst hij
          rw [setLink_links_self]
          exact (hothers k' (by simpa using hne)).resolve_right (by simp [ho])
        · rw [setLink_links_of_ne _ l hij]
    | _ => cases ho
  | false =>
    have hdaemon : s'.daemon = s.daemon := perform_daemon_own ho hperform
    refine .own hdaemon fun j k' => ?_
    by_cases hij : j = i
    · subst hij
      rw [setLink_links_self]
      by_cases hk : k' = k
      · subst hk
        exact .inr (.inr ⟨_, ho, hlog⟩)
      · exact (hothers k' hk).imp_right fun h => .inl h.2
    · rw [setLink_links_of_ne s' l hij, helse j hij]
      exact .inl rfl

theorem step_logged {a : Act ι} (hkept : ∀ i, (s.links i).Kept E service)
    (h : s.step E service uuids a = some t) : Logged E uuids s t := by
  cases a with
  | receive i incoming =>
    simp only [step] at h
    split at h <;> cases h
    refine .link fun k => ?_
    cases k with
    | none => exact .inr rfl
    | some r => exact .inl rfl
  | main i c =>
    obtain ⟨turn, hturn, h⟩ := Option.bind_eq_some_iff.mp h
    split at h
    · rename_i o next hrest
      obtain ⟨⟨ans, s'⟩, hperform, h⟩ := Option.bind_eq_some_iff.mp h
      cases h
      obtain ⟨-, hlink, -⟩ := perform_link hperform
      refine .perform (k := none) ?_ hperform ?_ fun k hk => ?_
      · simp [Link.next?, hturn, hrest, Prog.next?]
      · simp [Link.log, Link.advance, hturn]
      · cases k with
        | none => exact absurd rfl hk
        | some r =>
          -- The logs of the tasks stay, but for one that has just been started.
          by_cases hspawn : ∃ task, o = .spawn r task
          · obtain ⟨task, rfl⟩ := hspawn
            exact .inr ⟨rfl, by simp [Link.log, Link.advance, hlink, Link.after, Link.start]⟩
          · refine .inl ?_
            have hjobs : (s'.links i).jobs r = (s.links i).jobs r := by
              rw [hlink]
              cases o with
              | spawn r' task =>
                have hr : r ≠ r' := by
                  rintro rfl
                  exact hspawn ⟨task, rfl⟩
                simp [Link.after, Link.start, Function.update_of_ne hr]
              | _ => rw [Link.after_jobs (by simp)]
            simp [Link.log, Link.advance, hjobs]
    · cases h
  | job i r c =>
    obtain ⟨job, hjob, h⟩ := Option.bind_eq_some_iff.mp h
    split at h
    · rename_i o next hrest
      split at h
      · cases h
      obtain ⟨⟨ans, s'⟩, hperform, h⟩ := Option.bind_eq_some_iff.mp h
      cases h
      obtain ⟨-, hlink, -⟩ := perform_link hperform
      have hjobs := (hkept i).advanceJob_jobs hjob hrest ans
      refine .perform (k := some r) ?_ hperform ?_ fun k hk => .inl ?_
      · simp [Link.next?, hjob, hrest, Prog.next?]
      · simp [Link.log, hlink, hjobs, hjob]
      · cases k with
        | none => simp [Link.log, Link.advanceJob, hlink]
        | some r' =>
          have hr : r' ≠ r := by simpa using hk
          simp [Link.log, hlink, hjobs, hr]
    · cases h
  | expire i r =>
    obtain ⟨job, hjob, h⟩ := Option.bind_eq_some_iff.mp h
    split at h <;> cases h
    exact .link fun k => .inl (by cases k <;> rfl)
  | disconnect i =>
    cases h
    exact .link fun k => .inl (by cases k <;> rfl)
  | abort i r =>
    simp only [step] at h
    split at h <;> cases h
    exact .link fun k => .inl (by cases k <;> rfl)

-- ---------------------------------------------------------------------------
-- Accounts
-- ---------------------------------------------------------------------------

/-- The tallies of all threads, by their logs. -/
def tally (x : String) (s : Server ι) (thread : ι × Option UInt64) : Tally :=
  (bookkeepingOver x).account .start ((s.links thread.1).log thread.2)

/-- The logs are true to the map of handles, and the tallies fit the daemon. -/
structure Booked (uuids : Nat → String) (start : Nat) (x : String) (s : Server ι) : Prop where
  keyed : s.daemon.Keyed
  faithful : ∀ i k, ∀ e ∈ (s.links i).log k, ∀ m, (bookkeepingOver x).admits m e.op e.answer
  tallied : Tallied uuids start x (s.daemon.sight x) (s.tally x)

theorem Booked.initial {d : Daemon} (hd : d.Keyed)
    (hunused : ∀ n, d.issued ≤ n → d.memory.databases (uuids n) = none) :
    (initial (ι := ι) d).Booked uuids d.issued x where
  keyed := hd
  faithful i k e he := by
    cases k <;> cases he
  tallied := by
    have hstart : (Server.initial (ι := ι) d).tally x = fun _ => Tally.start := by
      funext ⟨i, k⟩
      cases k <;> rfl
    rw [hstart]
    refine ⟨fun _ => ?_, fun _ _ _ => Tally.apart_start _⟩
    refine ⟨le_rfl, hd, fun hsome n hn hx => ?_, nofun, nofun, nofun, nofun, nofun, nofun, nofun,
      nofun, nofun⟩
    have hnone : (d.memory.databases x).isSome = false := by rw [← hx, hunused n hn]; rfl
    cases hnone.symm.trans hsome

/-- What a thread does next is as the books have it. -/
theorem Booked.permitted (h : s.Booked uuids start x) (hkept : (s.links i).Kept E service)
    (hnext : (s.links i).next? k = some (.daemon o)) : o.Permitted x (s.tally x (i, k)) := by
  cases k with
  | none =>
    obtain ⟨turn, hturn, hop⟩ := Option.bind_eq_some_iff.mp hnext
    obtain ⟨next, hrest⟩ := Prog.of_next? hop
    have hrun := hkept.talk.run (t := turn) (by simp [Link.turns_of_turn hturn])
    have hlog : (s.links i).log none = turn.log := by simp [Link.log, hturn]
    have hkeeps : (bookkeepingOver x).Keeps Tally.AtEase
        (handleIncoming E service turn.before turn.incoming) := handleIncoming_keeps _ _
    have hobeys := (hkeeps _ Tally.atEase_start).account hrun (hlog ▸ h.faithful i none)
    rw [hrest] at hobeys
    unfold tally
    rw [hlog]
    exact hobeys.1
  | some r =>
    obtain ⟨job, hjob, hop⟩ := Option.bind_eq_some_iff.mp hnext
    obtain ⟨next, hrest⟩ := Prog.of_next? hop
    have hrun := hkept.runs r job hjob
    have hlog : (s.links i).log (some r) = job.log := by simp [Link.log, hjob]
    have hkeeps : (bookkeepingOver x).Keeps Tally.AtEase (runTask E service r job.task) :=
      runTask_keeps _
    have hobeys := (hkeeps _ Tally.atEase_start).account hrun (hlog ▸ h.faithful i (some r))
    rw [hrest] at hobeys
    unfold tally
    rw [hlog]
    exact hobeys.1

theorem tally_snoc {e : Event connection} (thread : ι × Option UInt64)
    (h : (t.links thread.1).log thread.2 = (s.links thread.1).log thread.2 ++ [e]) :
    t.tally x thread = (bookkeepingOver x).next (s.tally x thread) e.op e.answer := by
  unfold tally
  rw [h, account_snoc]

/-- Only one tally changes, by the event that was called. -/
theorem tally_called {k : Option UInt64} {o : DaemonOp} {ans : o.Ans}
    (hlog : (t.links i).log k = (s.links i).log k ++ [⟨.daemon o, ans⟩])
    (hothers : ∀ j k', (j, k') ≠ (i, k) → (t.links j).log k' = (s.links j).log k') :
    t.tally x = Function.update (s.tally x) (i, k) (o.tallied x (s.tally x (i, k)) ans) := by
  funext thread
  by_cases hthread : thread = (i, k)
  · subst hthread
    rw [Function.update_self]
    exact tally_snoc (i, k) hlog
  · rw [Function.update_of_ne hthread]
    unfold tally
    rw [hothers thread.1 thread.2 hthread]

theorem tally_own (hlog : ∀ j k, (t.links j).log k = (s.links j).log k ∨ (t.links j).log k = [] ∨
      ∃ e, ConnectionOp.isDaemon e.op = false ∧ (t.links j).log k = (s.links j).log k ++ [e])
    (thread : ι × Option UInt64) :
    t.tally x thread = s.tally x thread ∨ t.tally x thread = .start := by
  obtain h | h | ⟨e, he, h⟩ := hlog thread.1 thread.2
  · exact .inl (by unfold tally; rw [h])
  · exact .inr (by unfold tally; rw [h]; rfl)
  · exact .inl (by rw [tally_snoc thread h, (bookkeepingOver_own he _).2])

/-- The Database was dropped. -/
def Gone (uuids : Nat → String) (x : String) (s : Server ι) : Prop :=
  NostdbServer.Gone uuids x (s.daemon.sight x) (s.tally x)

theorem Booked.step {a : Act ι} (hnew : ∀ k n, start ≤ k → k < n → uuids n ≠ uuids k)
    (hkept : ∀ i, (s.links i).Kept E service) (h : s.Booked uuids start x)
    (hstep : s.step E service uuids a = some t) : t.Booked uuids start x ∧
      (s.Gone uuids x → t.Gone uuids x) ∧
      (x ∈ s.daemon.memory.catalog.ids → x ∉ t.daemon.memory.catalog.ids → t.Gone uuids x) := by
  cases step_logged hkept hstep with
  | @called k c j o ans hnext hd hlog hothers =>
    have ho := h.permitted (hkept j) hnext
    obtain ⟨hshows, hsight⟩ := Daemon.step_sight (x := x) hd
    have htally := tally_called (x := x) hlog hothers
    refine ⟨⟨h.keyed.step hd, ?_, ?_⟩, fun hgone => ?_, fun hbefore hafter => ?_⟩
    · intro i k' e he m
      by_cases hthread : (i, k') = (j, k)
      · cases hthread
        rw [hlog] at he
        rcases List.mem_append.mp he with he | he
        · exact h.faithful _ _ e he m
        · cases List.mem_singleton.mp he
          exact h.keyed.faithful hd
      · rw [hothers i k' hthread] at he
        exact h.faithful i k' e he m
    · rw [htally, hsight]
      exact h.tallied.step hnew ho hshows
    · unfold Gone
      rw [htally, hsight]
      exact NostdbServer.Gone.step (h.tallied.fits (j, k)) hgone ho hshows
    · unfold Gone
      rw [htally, hsight]
      refine h.tallied.gone ho hbefore ?_
      rw [← hsight]
      exact hafter
  | own hdaemon hlog =>
    refine ⟨⟨hdaemon ▸ h.keyed, ?_, ?_⟩, fun hgone => ?_, fun hbefore hafter => ?_⟩
    · intro i k e he m
      obtain hsame | hnil | ⟨e', he', hsnoc⟩ := hlog i k
      · rw [hsame] at he
        exact h.faithful i k e he m
      · rw [hnil] at he
        cases he
      · rw [hsnoc] at he
        rcases List.mem_append.mp he with he | he
        · exact h.faithful i k e he m
        · cases List.mem_singleton.mp he
          obtain ⟨o, ans⟩ := e
          cases o <;> first | trivial | cases he'
    · rw [hdaemon]
      exact h.tallied.restart (tally_own hlog)
    · unfold Gone
      rw [hdaemon]
      exact NostdbServer.Gone.restart hgone (tally_own hlog)
    · exact absurd (hdaemon ▸ hbefore) hafter

theorem Reaches.booked {d : Daemon} (h : Reaches E service uuids (initial d) s) (hd : d.Keyed)
    (hunused : ∀ n, d.issued ≤ n → d.memory.databases (uuids n) = none)
    (hnew : ∀ k n, d.issued ≤ k → k < n → uuids n ≠ uuids k) : s.Booked uuids d.issued x := by
  induction h with
  | refl => exact .initial hd hunused
  | tail hreach hstep ih =>
    obtain ⟨a, ha⟩ := hstep
    exact (ih.step hnew (fun i => (Reaches.link hreach i).kept) ha).1

/-- A Database that is gone stays so. -/
theorem Reaches.gone {d : Daemon} (hreach : Reaches E service uuids (initial d) s) (hd : d.Keyed)
    (hunused : ∀ n, d.issued ≤ n → d.memory.databases (uuids n) = none)
    (hnew : ∀ k n, d.issued ≤ k → k < n → uuids n ≠ uuids k) (hgone : s.Gone uuids x)
    (h : Reaches E service uuids s t) : t.Gone uuids x := by
  induction h with
  | refl => exact hgone
  | tail hst hstep ih =>
    obtain ⟨a, ha⟩ := hstep
    have hthere := hreach.trans hst
    exact ((Reaches.booked hthere hd hunused hnew).step hnew
      (fun i => (Reaches.link hthere i).kept) ha).2.1 ih

/-- And no statement is executed on it. -/
theorem Gone.idle {k : Option UInt64} {o : StorageOp} (h : s.Gone uuids x)
    (hbooked : s.Booked uuids start x) (hkept : (s.links i).Kept E service)
    (hnext : (s.links i).next? k = some (.daemon (.storage x o))) : o.executes = false :=
  NostdbServer.Gone.idle (hbooked.tallied.fits (i, k)) h (hbooked.permitted hkept hnext rfl)

end Server

end NostdbServer
