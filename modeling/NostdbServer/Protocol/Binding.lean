import NostdbServer.Protocol.Outcomes
import NostdbServer.Protocol.Replacement
import NostdbServer.Protocol.Tallies
import NostdbServer.ReadOnly

/-!
# A connection and the Database it has selected

A connection keeps the identifier of the Database it selected, not its name. What
becomes of its statements when other connections rename, drop, create and restore
Databases between any two of its steps.
-/

namespace NostdbServer

open Effects

/-- The Database a task is started for. -/
def Task.databaseId? : Task → Option String
  | .query databaseId _ _ _ _ _ | .transaction databaseId _ => some databaseId
  | .snapshotExport _ => none

/-- What refuses a task before its Database is looked for. -/
def Task.refusal (E : Engine) (service : Service) : Task → Option ProtocolFailure
  | .query _ text values readOnly _ _ => queryRefusal E service text values readOnly
  | .transaction _ statements => transactionRefusal service statements
  | .snapshotExport _ => none

/-- The turn of request `r` has started a task, with this Database selected. -/
def Link.BoundTo (l : Link) (r : UInt64) (databaseId : String) : Prop :=
  ∃ turn ∈ l.turns, ∃ state request task, turn.before = .session state ∧
    turn.incoming = .frame ⟨r, request⟩ ∧ .spawn r task ∈ turn.log.map Event.op ∧
    state.selectedDatabaseId = some databaseId

section
variable {E : Engine} {service : Service} {l : Link} {job : Job} {r : UInt64}

theorem Link.Kept.boundTo (h : l.Kept E service) (hjob : l.jobs r = some job)
    (hid : job.task.databaseId? = some databaseId) : l.BoundTo r databaseId := by
  obtain ⟨turn, hturn, hspawn⟩ := h.started r job hjob
  obtain ⟨state, ⟨requestId, request⟩, p, hbefore, hincoming, hreceive, -⟩ :=
    handleIncoming_receives (h.talk.run hturn) hspawn rfl
  obtain ⟨rfl, -, ⟨state', -, hlaunches⟩, -⟩ := receive_spawns hreceive hspawn
  refine ⟨turn, hturn, state, request, job.task, hbefore, hincoming, hspawn, ?_⟩
  generalize job.task = task at hid hlaunches
  cases hlaunches with
  | query _ hselected =>
    cases hid
    exact hselected
  | commit _ hselected =>
    cases hid
    exact hselected
  | snapshotExport => cases hid

/-- A task calls the engine on the handle it found under the identifier it was
started with. -/
theorem Link.Kept.calls {next : o.Ans → Prog connection String Unit} (h : l.Kept E service)
    (hjob : l.jobs r = some job) (hrest : job.rest = .op o next) (ho : o.callsEngine = true) :
    ∃ databaseId handle op, job.task.databaseId? = some databaseId ∧
      o = .daemon (.storage handle.id op) ∧
      ⟨.daemon (.readHandle databaseId), some handle⟩ ∈ job.log := by
  have hrun := h.runs r job hjob
  rw [hrest] at hrun
  obtain ⟨ans⟩ := o.ans_nonempty
  obtain ⟨later, q, result, -, -, -, hran⟩ :=
    (runTask_performs E job.task).begun ConnectionOp.ans_nonempty (hrun.snoc (S := connection) ans)
  have hlog : job.log ++ [⟨o, ans⟩] ++ later = job.log ++ ⟨o, ans⟩ :: later := by simp
  generalize htask : job.task = task at hran
  cases task with
  | query databaseId query values readOnly stream limits =>
    obtain ⟨-, -, handle, answer, hhandle, heq⟩ := hran.call hlog ho
    cases heq
    exact ⟨databaseId, handle, _, rfl, rfl, hhandle⟩
  | transaction databaseId statements =>
    obtain ⟨-, -, handle, answer, hhandle, heq⟩ := hran.call hlog ho
    cases heq
    exact ⟨databaseId, handle, _, rfl, rfl, hhandle⟩
  | snapshotExport database =>
    rw [htask] at hrun
    have hfalse := (hrun.only exporting_administers).2.1
    cases hfalse.symm.trans ho

-- ---------------------------------------------------------------------------
-- Requests that execute nothing
-- ---------------------------------------------------------------------------

/-- The answer to a request that came to no call of the engine: the Database is not
there, unless the request was refused before that or its timer fired. -/
def Unserved (service : Service) (r : UInt64) (refusal : Option ProtocolFailure)
    (log : List (Event connection)) : Prop :=
  ∃ error expired work replies,
    log = work ++ ⟨.join r, expired⟩ :: ⟨.removeActive r, ()⟩ :: replies ∧
    Delivered service r [error.response] replies ∧
    (expired = true ∧ error.code = .resourceLimit ∨
      expired = false ∧ (error.code = .databaseNotFound ∨ error.code = .databaseBusy ∨
        refusal = some error))

theorem Ran.unserved {call : ManagedDatabase → Except DatabaseError α → Event connection}
    (h : Ran service r (Worked databaseId token call refusal) message responses log)
    (hcall : ∀ handle answer, (call handle answer).op.callsEngine = true)
    (hnone : ∀ e ∈ log, ConnectionOp.callsEngine e.op = false) :
    Unserved service r refusal log := by
  obtain ⟨result, worked, expired, replies, hwork, hreplies, rfl⟩ := h.parts
  have hends (error : ProtocolFailure) (hresult : result = .error error)
      (hwhy : error.code = .databaseNotFound ∨ error.code = .databaseBusy ∨
        refusal = some error) : Unserved service r refusal
      (worked ++ ⟨.join r, expired⟩ :: ⟨.removeActive r, ()⟩ :: replies) := by
    subst hresult
    cases expired with
    | true => exact ⟨_, true, worked, replies, rfl, hreplies, .inl ⟨rfl, rfl⟩⟩
    | false => exact ⟨error, false, worked, replies, rfl, hreplies, .inr ⟨rfl, hwhy⟩⟩
  -- The engine was called in none of the cases.
  have hcalled (handle : ManagedDatabase) (answer : Except DatabaseError α)
      (hmem : call handle answer ∈ worked) : False := by
    have hfalse := hnone _ (List.mem_append_left _ hmem)
    cases hfalse.symm.trans (hcall handle answer)
  cases hwork with
  | refused hrefusal => exact hends _ rfl (.inr (.inr hrefusal))
  | missing _ _ hcode => exact hends _ rfl (hcode.imp_right .inl)
  | @found _ handle _ _ _ _ _ hcalled' =>
    cases hcalled' with
    | unavailable => exact hends _ rfl (.inr (.inl rfl))
    | @done _ _ value => exact (hcalled handle (.ok value) (by simp)).elim
    | @failed _ _ error => exact (hcalled handle (.error error) (by simp)).elim

theorem Link.Kept.unserved (h : l.Kept E service) (hjob : l.jobs r = some job)
    (hid : job.task.databaseId? = some databaseId) (hfinished : job.finished = true)
    (hnone : ∀ e ∈ job.log, ConnectionOp.callsEngine e.op = false) :
    Unserved service r (job.task.refusal E service) job.log := by
  obtain ⟨result, hresult⟩ := Option.isSome_iff_exists.mp hfinished
  obtain ⟨-, hran⟩ := (runTask_performs E job.task).run (h.runs r job hjob) hresult
  generalize job.task = task at hid hran
  cases task with
  | query databaseId text values readOnly stream limits =>
    exact Ran.unserved hran (fun _ _ => rfl) hnone
  | transaction databaseId statements => exact Ran.unserved hran (fun _ _ => rfl) hnone
  | snapshotExport database => cases hid

end

-- ---------------------------------------------------------------------------
-- Renaming
-- ---------------------------------------------------------------------------

/-- The steps of a rename: the catalog and its own files. -/
def DaemonOp.Relabels : DaemonOp → Prop
  | .root o => ∀ id, ¬ o.Changes (.database id)
  | .lockCatalog | .unlockCatalog | .readCatalog | .writeCatalog _ => True
  | _ => False

def ConnectionOp.Relabels : ConnectionOp → Prop
  | .daemon o => o.Relabels
  | _ => True

theorem transition_relabels {root : DataDirectory} {next : Catalog} {kind : OperationKind}
    {id : String} : (transition root next kind id).Only DaemonOp.Relabels := by
  have hvalid : (Prog.ofExcept (validateCatalog next) : Prog daemon ServerError Unit).Only
      DaemonOp.Relabels := by
    cases validateCatalog next <;> trivial
  refine hvalid.bind fun _ => Prog.Only.step trivial fun before => ?_
  refine (writeJsonNew_only (p := .operation) trivial fun _ h => h).bind fun _ => ?_
  refine (writeAtomic_only fun _ h => h).attempt.bind ?_
  rintro (_ | _)
  · exact Prog.Only.step nofun fun _ => trivial
  · exact ⟨trivial, fun _ => trivial⟩

theorem renameDatabase_relabels {root : DataDirectory} {name newName : String} :
    (renameDatabase root name newName).Only DaemonOp.Relabels := by
  unfold renameDatabase
  split
  · trivial
  refine Prog.Only.step trivial fun _ => Prog.Only.step trivial fun catalog =>
    Prog.Only.bind (Prog.Only.attempt ?_) fun r => Prog.Only.step trivial fun _ => by
      cases r <;> trivial
  dsimp only
  split
  · trivial
  split
  · trivial
  refine transition_relabels.attempt.bind ?_
  rintro (_ | _)
  · trivial
  · exact (removeIfExists_only (p := .operation) nofun).attempt.bind fun _ => trivial

section
variable {E : Engine} {service : Service} {uuids : Nat → String}

theorem handleIncoming_relabels {before : Phase} {name newName : String} :
    (handleIncoming E service before (.frame ⟨r, .databaseRename name newName⟩)).Only
      (S := connection) ConnectionOp.Relabels := by
  have hown {o : ConnectionOp} (h : ConnectionOp.receives o = false) : o.Relabels := by
    cases o <;> first | trivial | cases h
  cases before with
  | greeting =>
    have hgreet : (greet service ⟨r, .databaseRename name newName⟩).Only (S := connection)
        fun o => ConnectionOp.receives o = false := greet_only
    exact hgreet.mono fun _ => hown
  | closed => trivial
  | session state =>
    refine Prog.Only.bind ?_ fun _ => trivial
    unfold receive
    split
    · exact refuse_only fun _ => trivial
    unfold dispatch
    dsimp only
    split
    · exact refuse_only fun _ => trivial
    split
    · exact refuse_only fun _ => trivial
    · exact relay_only (fun _ => trivial) (Prog.Only.lift renameDatabase_relabels) _

/-- The same Databases, whatever they are called. -/
structure Daemon.SameDatabases (d d' : Daemon) : Prop where
  databases : d'.memory.databases = d.memory.databases
  handles : d'.memory.handles = d.memory.handles
  contents : ∀ id, d'.contents id = d.contents id
  ids : ∀ id, id ∈ d'.memory.catalog.ids ↔ id ∈ d.memory.catalog.ids

/-- A step of a rename, under the lock of the catalog. -/
theorem DaemonOp.Relabels.same {d d' : Daemon} {o : DaemonOp} {ans : o.Ans} (ho : o.Relabels)
    (hwrite : ∀ next, o = .writeCatalog next → ∀ id, id ∈ next.ids ↔ id ∈ d.memory.catalog.ids)
    (h : Daemon.step E uuids o c d = some (ans, d')) : d.SameDatabases d' := by
  have hsame : d.SameDatabases d := ⟨rfl, rfl, fun _ => rfl, fun _ => Iff.rfl⟩
  cases o with
  | root o =>
    have h : Daemon.rootFiles.step o c d = (ans, d') := Option.some.inj h
    have hmemory : d'.memory = d.memory :=
      (congrArg (fun r => r.2.memory) h).symm.trans (Daemon.rootFiles_memory o c d)
    have hentry (id : String) : d'.entry (.database id) = d.entry (.database id) := by
      have hget := Volume.get_step (V := Daemon.rootFiles) (c := c) (s := d) (ho id)
      rwa [h] at hget
    refine ⟨by rw [hmemory], by rw [hmemory], fun id => ?_, fun id => by rw [hmemory]⟩
    simp only [Daemon.contents, Daemon.site, Daemon.filesOf, hentry, hmemory]
  | lockCatalog =>
    simp only [Daemon.step] at h
    split at h
    · cases h
    · cases h
      exact { hsame with }
  | unlockCatalog =>
    cases h
    exact { hsame with }
  | readCatalog =>
    cases h
    exact hsame
  | writeCatalog next =>
    cases h
    exact { hsame with ids := hwrite next rfl }
  | _ => cases ho

/-- Nothing is drawn and nothing is closed. -/
theorem tally_relabels {x : String} {log : List (Event connection)}
    (hlog : ∀ e ∈ log, ConnectionOp.Relabels e.op) {m : Tally} (hdrawn : m.drawn = false)
    (hclosed : m.closed = false) : ((bookkeepingOver x).account m log).drawn = false ∧
      ((bookkeepingOver x).account m log).closed = false := by
  induction log generalizing m with
  | nil => exact ⟨hdrawn, hclosed⟩
  | cons e log ih =>
    obtain ⟨he, hlog⟩ := List.forall_mem_cons.mp hlog
    have hnext : ((bookkeepingOver x).next m e.op e.answer).drawn = false ∧
        ((bookkeepingOver x).next m e.op e.answer).closed = false := by
      obtain ⟨o, ans⟩ := e
      cases o with
      | daemon o =>
        cases o with
        | root | lockCatalog | readCatalog => exact ⟨hdrawn, hclosed⟩
        | unlockCatalog => exact ⟨rfl, rfl⟩
        | writeCatalog => exact ⟨hdrawn, rfl⟩
        | _ => cases he
      | _ => exact ⟨hdrawn, hclosed⟩
    exact ih hlog hnext.1 hnext.2

theorem Server.Booked.renames {ι : Type} [DecidableEq ι] {s t : Server ι} {i : ι} {turn : Turn}
    (hbooked : ∀ x, s.Booked uuids start x) (hkept : (s.links i).Kept E service)
    (hturn : (s.links i).turn = some turn)
    (hincoming : turn.incoming = .frame ⟨r, .databaseRename name newName⟩)
    (hstep : s.step E service uuids (.main i c) = some t) :
    s.daemon.SameDatabases t.daemon := by
  have hrun := hkept.talk.run (t := turn) (by simp [Link.turns_of_turn hturn])
  rw [hincoming] at hrun
  obtain ⟨turn', hturn', hstep⟩ := Option.bind_eq_some_iff.mp hstep
  cases hturn.symm.trans hturn'
  split at hstep
  · rename_i o next hrest
    rw [hrest] at hrun
    obtain ⟨hlog, ho⟩ := hrun.only handleIncoming_relabels
    obtain ⟨⟨ans, s'⟩, hperform, heq⟩ := Option.bind_eq_some_iff.mp hstep
    cases heq
    cases o with
    | daemon o =>
      obtain ⟨r, hr, heq⟩ := Option.map_eq_some_iff.mp hperform
      cases heq
      refine DaemonOp.Relabels.same ho.1 ?_ hr
      rintro catalog rfl x
      -- The catalog was read under the lock that is still held.
      have hnext : (s.links i).next? none = some (.daemon (.writeCatalog catalog)) := by
        simp [Link.next?, hturn, hrest, Prog.next?]
      obtain ⟨hholds, current, hread, hin, hout⟩ := (hbooked x).permitted hkept hnext
      obtain rfl := ((hbooked x).tallied.fits (i, none)).read hholds current hread
      have htally : s.tally x (i, none) = (bookkeepingOver x).account .start turn.log := by
        simp [Server.tally, Link.log, hturn]
      obtain ⟨hdrawn, hclosed⟩ := tally_relabels (x := x) hlog (m := .start) rfl rfl
      rw [← htally] at hdrawn hclosed
      exact ⟨fun h => (hin h).resolve_right (by simp [hdrawn]),
        fun h => (hout h).resolve_right (by simp [hclosed])⟩
    | _ =>
      have hdaemon : s'.daemon = s.daemon := Server.perform_daemon_own rfl hperform
      exact hdaemon ▸ ⟨rfl, rfl, fun _ => rfl, fun _ => Iff.rfl⟩
  · cases hstep

end

-- ---------------------------------------------------------------------------
-- Tasks of a Database that is gone
-- ---------------------------------------------------------------------------

namespace Server

variable {ι : Type} [DecidableEq ι] {E : Engine} {service : Service} {uuids : Nat → String}
  {s t u : Server ι} {d : Daemon} {i : ι} {r : UInt64} {x : String}

theorem next?_of_doing? {a : Act ι} (h : s.doing? a = some o) :
    ∃ i k, (s.links i).next? k = some o ∧ (k = none ∨ ∃ r c, k = some r ∧ a = .job i r c) := by
  cases a with
  | main i c => exact ⟨i, none, h, .inl rfl⟩
  | job i r c => exact ⟨i, some r, h, .inr ⟨r, c, rfl, rfl⟩⟩
  | _ => cases h

/-- A task executes statements on the Database it was started for. -/
theorem Booked.executing {job : Job} {o : DaemonOp} (h : s.Booked uuids start x)
    (hkept : (s.links i).Kept E service) (hjob : (s.links i).jobs r = some job)
    (hnext : job.rest.next? = some (.daemon o)) (ho : o.executes = true) :
    ∃ databaseId op, job.task.databaseId? = some databaseId ∧ o = .storage databaseId op := by
  obtain ⟨next, hrest⟩ := Prog.of_next? hnext
  have hcalls : ConnectionOp.callsEngine (.daemon o) = true := by
    cases o with
    | storage id o => cases o <;> first | rfl | cases ho
    | _ => cases ho
  obtain ⟨databaseId, handle, op, hid, heq, hread⟩ := hkept.calls hjob hrest hcalls
  have hlog : (s.links i).log (some r) = job.log := by simp [Link.log, hjob]
  have hfound : DaemonOp.Faithful (.readHandle databaseId) (some handle) :=
    h.faithful i (some r) ⟨.daemon (.readHandle databaseId), some handle⟩
      (by rw [hlog]; exact hread) .start
  have hhandle : handle.id = databaseId := hfound handle rfl
  cases heq
  exact ⟨databaseId, op, hid, by rw [hhandle]⟩

/-- What it has not executed by then, it never does. -/
theorem Reaches.uncalled (hreach : Reaches E service uuids (initial d) s) (hd : d.Keyed)
    (hunused : ∀ n, d.issued ≤ n → d.memory.databases (uuids n) = none)
    (hnew : ∀ k n, d.issued ≤ k → k < n → uuids n ≠ uuids k) (hgone : s.Gone uuids x)
    (hbefore : ∀ job, (s.links i).jobs r = some job →
      ∀ e ∈ job.log, ConnectionOp.callsEngine e.op = false)
    (h : Reaches E service uuids s u) {job : Job} (hjob : (u.links i).jobs r = some job)
    (hid : job.task.databaseId? = some x) :
    ∀ e ∈ job.log, ConnectionOp.callsEngine e.op = false := by
  induction h generalizing job with
  | refl => exact hbefore job hjob
  | @tail u u' hsu hstep ih =>
    obtain ⟨a, ha⟩ := hstep
    have hthere := hreach.trans hsu
    have hkept (i : ι) := (Reaches.link hthere i).kept
    have hbooked := Reaches.booked (x := x) hthere hd hunused hnew
    have hlog : (u'.links i).log (some r) = job.log := by simp [Link.log, hjob]
    -- The log before, of the same task if it was there already.
    have hold : ∀ e ∈ (u.links i).log (some r), ConnectionOp.callsEngine e.op = false := by
      intro e he
      cases hjob₀ : (u.links i).jobs r with
      | none => simp [Link.log, hjob₀] at he
      | some job₀ =>
        obtain ⟨job', hjob', htask, -⟩ := Reaches.job_grows hthere (.single ⟨a, ha⟩) hjob₀
        cases hjob'.symm.trans hjob
        exact ih hjob₀ (htask ▸ hid) e (by simpa [Link.log, hjob₀] using he)
    rw [← hlog]
    cases step_logged hkept ha with
    | @called k c j o ans hnext hdaemon hsnoc hothers =>
      by_cases hthread : (i, some r) = (j, k)
      · cases hthread
        rw [hsnoc]
        refine List.forall_mem_append.mpr ⟨hold, List.forall_mem_singleton.mpr ?_⟩
        refine callsEngine_daemon ?_
        by_contra ho
        obtain ⟨job₀, hjob₀, hop⟩ := Option.bind_eq_some_iff.mp hnext
        obtain ⟨job', hjob', htask, -⟩ := Reaches.job_grows hthere (.single ⟨a, ha⟩) hjob₀
        cases hjob'.symm.trans hjob
        obtain ⟨databaseId, op, hdatabase, rfl⟩ :=
          hbooked.executing (hkept i) hjob₀ hop (Bool.eq_true_of_not_eq_false ho)
        cases (htask ▸ hdatabase).symm.trans hid
        exact ho ((Reaches.gone hreach hd hunused hnew hgone hsu).idle hbooked (hkept i) hnext)
      · rw [hothers i (some r) hthread]
        exact hold
    | own _ hlogs =>
      obtain hsame | hnil | ⟨e, he, hsnoc⟩ := hlogs i (some r)
      · rw [hsame]
        exact hold
      · simp [hnil]
      · rw [hsnoc]
        refine List.forall_mem_append.mpr ⟨hold, List.forall_mem_singleton.mpr ?_⟩
        obtain ⟨o, ans⟩ := e
        cases o <;> first | rfl | cases he

-- ---------------------------------------------------------------------------
-- Connections and their Databases
-- ---------------------------------------------------------------------------

/-- How the requests of all connections find their Databases. -/
structure Bound (E : Engine) (service : Service) (uuids : Nat → String) (s : Server ι) : Prop where
  /-- A statement is executed on the Database that was selected when its request
  was dispatched. -/
  executes (a : Act ι) (t : Server ι) (id : String) (o : StorageOp) :
    s.step E service uuids a = some t → s.doing? a = some (.daemon (.storage id o)) →
      o.executes = true → ∃ i r c, a = .job i r c ∧ (s.links i).BoundTo r id
  /-- A rename leaves the Databases as they are, and the selection of whoever asks
  for it. -/
  renames (i : ι) (turn : Turn) (r : UInt64) (name newName : String) (c : Outcome) (t : Server ι) :
    (s.links i).turn = some turn → turn.incoming = .frame ⟨r, .databaseRename name newName⟩ →
      s.step E service uuids (.main i c) = some t → s.daemon.SameDatabases t.daemon
  selects (i : ι) (turn : Turn) (r : UInt64) (name newName : String)
    (state state' : ConnectionState) : turn ∈ (s.links i).turns →
      turn.incoming = .frame ⟨r, .databaseRename name newName⟩ → turn.before = .session state →
        turn.after = some (.session state') →
          state'.selectedDatabaseId = state.selectedDatabaseId
  /-- Once a Database has left the catalog no statement is executed on it. -/
  drops (a : Act ι) (t u : Server ι) (x : String) : s.step E service uuids a = some t →
    x ∈ s.daemon.memory.catalog.ids → x ∉ t.daemon.memory.catalog.ids →
      Reaches E service uuids t u → ∀ (a' : Act ι) (o : StorageOp),
        u.doing? a' = some (.daemon (.storage x o)) → o.executes = false
  /-- A request that had it selected and has not come to the engine by then never
  does. -/
  answers (a : Act ι) (t u : Server ι) (x : String) (i : ι) (r : UInt64) (job : Job) :
    s.step E service uuids a = some t → x ∈ s.daemon.memory.catalog.ids →
      x ∉ t.daemon.memory.catalog.ids → Reaches E service uuids t u →
        (u.links i).jobs r = some job → job.task.databaseId? = some x →
          (∀ job, (t.links i).jobs r = some job →
            ∀ e ∈ job.log, ConnectionOp.callsEngine e.op = false) →
          (∀ e ∈ job.log, ConnectionOp.callsEngine e.op = false) ∧
            (job.finished = true → Unserved service r (job.task.refusal E service) job.log)

/-- For any number of connections, in every state that is reached. -/
theorem selection_is_by_identity (h : Reaches E service uuids (initial (ι := ι) d) s)
    (hd : d.Keyed) (hunused : ∀ n, d.issued ≤ n → d.memory.databases (uuids n) = none)
    (hnew : ∀ k n, d.issued ≤ k → k < n → uuids n ≠ uuids k) : s.Bound E service uuids := by
  have hkept (i : ι) := (Reaches.link h i).kept
  have hbooked (x : String) := Reaches.booked (x := x) h hd hunused hnew
  have hgone {a : Act ι} {t : Server ι} {x : String} (hstep : s.step E service uuids a = some t)
      (hbefore : x ∈ s.daemon.memory.catalog.ids) (hafter : x ∉ t.daemon.memory.catalog.ids) :
      t.Gone uuids x := ((hbooked x).step hnew hkept hstep).2.2 hbefore hafter
  refine ⟨?_, ?_, ?_, ?_, ?_⟩
  · intro a t id o hstep hdoing ho
    obtain ⟨i, r, c, _, _, rfl, _⟩ := h.executing hstep hdoing ho
    obtain ⟨job, hjob, hnext⟩ := Option.bind_eq_some_iff.mp hdoing
    obtain ⟨databaseId, op, hid, heq⟩ := (hbooked id).executing (hkept i) hjob hnext ho
    cases heq
    exact ⟨i, r, c, rfl, (hkept i).boundTo hjob hid⟩
  · intro i turn r name newName c t hturn hincoming hstep
    exact Booked.renames hbooked (hkept i) hturn hincoming hstep
  · intro i turn r name newName state state' hturn hincoming hbefore hafter
    obtain hended := Turn.ended ((hkept i).talk.run hturn) hafter
    cases hended with
    | greeted hgreeting => cases hgreeting.symm.trans hbefore
    | woken _ hwoken => cases hwoken.symm.trans hincoming
    | received hsession hframe hrun =>
      cases hsession.symm.trans hbefore
      cases hframe.symm.trans hincoming
      obtain ⟨_, rfl⟩ | ⟨_, hchanged⟩ := receive_changed.run hrun
      · rfl
      · cases hchanged with
        | selected hrequest => cases hrequest
        | dropped _ hrequest => cases hrequest
        | _ => rfl
  · intro a t u x hstep hbefore hafter hreach a' o hdoing
    have hthere := (h.tail ⟨a, hstep⟩).trans hreach
    obtain ⟨i, k, hnext, _⟩ := next?_of_doing? hdoing
    have hgone' := Reaches.gone (h.tail ⟨a, hstep⟩) hd hunused hnew (hgone hstep hbefore hafter) hreach
    exact hgone'.idle (Reaches.booked hthere hd hunused hnew) (Reaches.link hthere i).kept hnext
  · intro a t u x i r job hstep hbefore hafter hreach hjob hid hnot
    have hthere := (h.tail ⟨a, hstep⟩).trans hreach
    have hnone := Reaches.uncalled (h.tail ⟨a, hstep⟩) hd hunused hnew
      (hgone hstep hbefore hafter) hnot hreach hjob hid
    exact ⟨hnone, fun hfinished =>
      (Reaches.link hthere i).kept.unserved hjob hid hfinished hnone⟩

-- ---------------------------------------------------------------------------
-- A Database that is dropped and created anew
-- ---------------------------------------------------------------------------

/-- Identifiers that do not repeat, of which the first is drawn for `main`. -/
def reusingIds (n : Nat) : String := secondMain ++ String.ofList (List.replicate n '0')

theorem reusingIds_length (n : Nat) : (reusingIds n).length = 36 + n := by
  simp only [reusingIds, String.length_append, String.length_ofList, List.length_replicate]
  rfl

/-- One connection has selected `main`, another is about to drop it. -/
def selectedMain (E : Engine) (acts : List (Act Bool)) : Option (Server Bool) :=
  run E .plain reusingIds (.initial (.single (.plain "data") firstMain "main" [0]))
    (Act.request false 1 (.hello 1 "query" "reader") 1 ++
      Act.request false 2 (.selectDatabase "main") 4 ++
      Act.request true 1 (.hello 1 "admin" "other") 1 ++ acts)

/-- `main` is created anew, and queried by who had selected it before. -/
def recreatedMain : List (Act Bool) :=
  Act.mains true 4 ++ Act.request true 3 (.databaseCreate "main") 21 ++
    Act.request false 3 (.query "MATCH (n) RETURN n" [] false false none) 2 ++ Act.jobs false 3 6

theorem selection_is_by_identity_recreated : ∃ s t u job,
    selectedMain .plain (Act.request true 2 (.databaseDrop "main" "main") 19) = some s ∧
    s.step .plain .plain reusingIds (.main true .ok) = some t ∧
    t.run .plain .plain reusingIds recreatedMain = some u ∧
    u.daemon.denoted "main" = some secondMain ∧ (u.links false).jobs 3 = some job ∧
    (∀ e ∈ job.log, ConnectionOp.callsEngine e.op = false) ∧
    Unserved .plain 3 (job.task.refusal .plain .plain) job.log := by
  have h : ((selectedMain .plain (Act.request true 2 (.databaseDrop "main" "main") 19)).any fun s =>
      (s.step .plain .plain reusingIds (.main true .ok)).any fun t =>
      (t.run .plain .plain reusingIds recreatedMain).any fun u =>
      ((u.links false).jobs 3).any fun job =>
        decide (firstMain ∈ s.daemon.memory.catalog.ids) &&
        decide (firstMain ∉ t.daemon.memory.catalog.ids) &&
        decide (u.daemon.denoted "main" = some secondMain) &&
        decide (job.task.databaseId? = some firstMain) && job.finished &&
        ((t.links false).jobs 3).isNone) = true := by decide +kernel
  obtain ⟨s, hs, h⟩ := (Option.any_eq_true _ _).mp h
  obtain ⟨t, ht, h⟩ := (Option.any_eq_true _ _).mp h
  obtain ⟨u, hu, h⟩ := (Option.any_eq_true _ _).mp h
  obtain ⟨job, hjob, h⟩ := (Option.any_eq_true _ _).mp h
  simp only [Bool.and_eq_true, decide_eq_true_eq, Option.isNone_iff_eq_none] at h
  obtain ⟨⟨⟨⟨⟨hbefore, hafter⟩, hdenoted⟩, hid⟩, hfinished⟩, hnone⟩ := h
  have hkeyed : (Daemon.single (.plain "data") firstMain "main" [0]).Keyed := by
    intro databaseId handle hhandle
    simp only [Daemon.single, Option.ite_none_right_eq_some, Option.some.injEq] at hhandle
    obtain ⟨rfl, rfl⟩ := hhandle
    rfl
  have hbound := selection_is_by_identity (reaches_of_run hs) hkeyed ?_ ?_
  · obtain ⟨hcalls, hunserved⟩ := hbound.answers _ t u firstMain false 3 job ht hbefore hafter
      (reaches_of_run hu) hjob hid (by simp [hnone])
    exact ⟨s, t, u, job, hs, ht, hu, hdenoted, hjob, hcalls, hunserved hfinished⟩
  · intro n _
    have hne : reusingIds n ≠ firstMain := by
      intro heq
      have hprefix := congrArg (fun id : String => id.toList.take 36) heq
      simp [reusingIds, firstMain, secondMain] at hprefix
    simp [Daemon.single, hne]
  · intro k n _ hkn heq
    have hlength := congrArg String.length heq
    rw [reusingIds_length, reusingIds_length] at hlength
    omega

/-- The query of a connection whose Database was dropped, to its end. -/
def queriesDropped (E : Engine) (readOnly : Bool) (before : List (Act Bool)) (n : Nat) :
    Option (Server Bool) :=
  selectedMain E (Act.request true 2 (.databaseDrop "main" "main") 24 ++
    Act.request false 3 (.query "CREATE ()" [] readOnly false none) 2 ++ before ++
    Act.jobs false 3 n)

/-- Such a request can end with other errors: a `read_only` query that would write is
refused before its Database is looked for, and one whose timer fires is said to
have timed out. -/
theorem dropped_selection_ends_otherwise :
    (∃ s job frame, queriesDropped { Engine.plain with preparesWrite := fun _ => true } true [] 3 =
        some s ∧ firstMain ∉ s.daemon.memory.catalog.ids ∧ (s.links false).jobs 3 = some job ∧
      job.task.databaseId? = some firstMain ∧ job.finished = true ∧
      (s.links false).frames.getLast? = some frame ∧ frame.requestId = 3 ∧
      frame.response.code? = some .queryError) ∧
    ∃ s job frame, queriesDropped .plain false [.expire false 3] 6 = some s ∧
      firstMain ∉ s.daemon.memory.catalog.ids ∧ (s.links false).jobs 3 = some job ∧
      job.task.databaseId? = some firstMain ∧ job.finished = true ∧
      (s.links false).frames.getLast? = some frame ∧ frame.requestId = 3 ∧
      frame.response.code? = some .resourceLimit := by
  have hends (run : Option (Server Bool)) (code : ErrorCode)
      (h : (run.any fun s => ((s.links false).jobs 3).any fun job =>
        (s.links false).frames.getLast?.any fun frame =>
          decide (firstMain ∉ s.daemon.memory.catalog.ids) &&
          decide (job.task.databaseId? = some firstMain) && job.finished &&
          decide (frame.requestId = 3) && decide (frame.response.code? = some code)) = true) :
      ∃ s job frame, run = some s ∧ firstMain ∉ s.daemon.memory.catalog.ids ∧
        (s.links false).jobs 3 = some job ∧ job.task.databaseId? = some firstMain ∧
        job.finished = true ∧ (s.links false).frames.getLast? = some frame ∧
        frame.requestId = 3 ∧ frame.response.code? = some code := by
    obtain ⟨s, hs, h⟩ := (Option.any_eq_true _ _).mp h
    obtain ⟨job, hjob, h⟩ := (Option.any_eq_true _ _).mp h
    obtain ⟨frame, hframe, h⟩ := (Option.any_eq_true _ _).mp h
    simp only [Bool.and_eq_true, decide_eq_true_eq] at h
    obtain ⟨⟨⟨⟨hgone, hid⟩, hfinished⟩, hrequest⟩, hcode⟩ := h
    exact ⟨s, job, frame, hs, hgone, hjob, hid, hfinished, hframe, hrequest, hcode⟩
  exact ⟨hends _ _ (by decide +kernel), hends _ _ (by decide +kernel)⟩

end Server

end NostdbServer
