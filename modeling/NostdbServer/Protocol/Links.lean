import NostdbServer.Protocol.Server

/-!
# What holds of a link at every moment

A request is dispatched only under an identifier greater than all before it, so
no identifier is dispatched twice: at most one task is started for it, it enters
the map of active requests once, and once removed it does not come back. The
token of a request is cancelled only by its timer, by a cancel request that found
it active, or when the connection leaves.
-/

namespace NostdbServer

open Effects

-- ---------------------------------------------------------------------------
-- Identifiers
-- ---------------------------------------------------------------------------

/-- The request an operation of a turn is done for. -/
def ConnectionOp.subject? : ConnectionOp → Option UInt64
  | .send frame => some frame.requestId
  | .spawn requestId _ | .insertActive requestId => some requestId
  | _ => none

section
variable {frame : ClientFrame} {state : ConnectionState}

theorem receive_subject : (receive E service frame state).Only (S := connection) fun o =>
    ∀ r, ConnectionOp.subject? o = some r → r = frame.requestId := by
  have hsend (response : ServerResponse) (r : UInt64)
      (h : ConnectionOp.subject? (.send ⟨frame.requestId, response⟩) = some r) :
      r = frame.requestId := (Option.some.inj h).symm
  unfold receive
  split
  · exact refuse_only hsend
  · refine dispatch_only hsend ?_ ?_ ?_ ?_ ?_ ?_
    · intro o r h
      cases h
    · exact fun r h => (Option.some.inj h).symm
    · intro target _
      constructor <;> intro r h <;> cases h
    · exact fun _ _ _ _ _ _ _ r h => (Option.some.inj h).symm
    · exact fun _ _ _ r h => (Option.some.inj h).symm
    · exact fun _ _ r h => (Option.some.inj h).symm

theorem receive_receives : (receive E service frame state).Only (S := connection) fun o =>
    ConnectionOp.receives o = true := by
  unfold receive
  split
  · exact refuse_only fun _ => rfl
  · exact dispatch_only (fun _ => rfl) (fun _ => rfl) rfl (fun _ _ => ⟨rfl, rfl⟩)
      (fun _ _ _ _ _ _ _ => rfl) (fun _ _ _ => rfl) fun _ _ => rfl

/-- The map of active requests is entered first of all, under a new identifier. -/
theorem receive_inserts {next : (ConnectionOp.insertActive r).Ans → _}
    (h : (receive E service frame state).Run log (.op (.insertActive r) next)) :
    log = [] ∧ r = frame.requestId ∧ state.lastRequestId < r := by
  obtain ⟨later, q, result, -, -, hhandled⟩ :=
    receive_performs.begun ConnectionOp.ans_nonempty (h.snoc false)
  have hmem : ⟨.insertActive r, false⟩ ∈ log ++ [⟨.insertActive r, false⟩] ++ later := by simp
  generalize hall : log ++ [⟨.insertActive r, false⟩] ++ later = all at hmem hhandled
  cases hhandled with
  | answered hwork _ hposted =>
    rcases List.mem_append.mp hmem with hmem | hmem
    · cases hwork _ hmem
    · obtain ⟨response, hop⟩ := hposted.sends _ hmem
      cases hop
  | taken => cases List.mem_singleton.mp hmem
  | launched hl =>
    obtain ⟨rfl, heq, -⟩ := cut_unique (x := []) (p := fun e => e.op = .insertActive r) (by simp)
      (by simp) rfl (hall.symm.trans (List.append_assoc _ _ _))
    cases heq
    exact ⟨rfl, rfl, hl.1⟩
  | exporting => cases List.mem_singleton.mp hmem

/-- A task is started right away, or after its identifier was entered. -/
theorem receive_spawning {next : (ConnectionOp.spawn r task).Ans → _}
    (h : (receive E service frame state).Run log (.op (.spawn r task) next)) :
    r = frame.requestId ∧ state.lastRequestId < r ∧
      (log = [⟨.insertActive r, false⟩] ∨
        log = [] ∧ ∃ database, task = .snapshotExport database) := by
  have hspawn : .spawn r task ∈
      (log ++ [(⟨.spawn r task, ()⟩ : Event connection)]).map Event.op := by simp
  obtain ⟨hr, hnew, -, hlog | ⟨hlog, hexport⟩⟩ :=
    receive_spawns (h.snoc (S := connection) ()) hspawn
  · refine ⟨hr, hnew, .inl ?_⟩
    exact List.append_cancel_right (show log ++ [_] = [_] ++ [_] from hlog)
  · refine ⟨hr, hnew, .inr ⟨?_, hexport⟩⟩
    exact List.append_cancel_right (show log ++ [_] = [] ++ [_] from hlog)

end

theorem Changed.lastRequestId (h : Changed frame state state') :
    state'.lastRequestId = state.lastRequestId := by
  cases h <;> rfl

namespace Conversation

variable {state : ConnectionState}

/-- The latest identifier is the greatest of all that were received. -/
theorem frames_le (h : Conversation E service turns)
    (hphase : phaseAfter turns = some (.session state)) :
    ∀ t ∈ turns, ∀ frame, t.incoming = .frame frame → frame.requestId ≤ state.lastRequestId := by
  induction h generalizing state with
  | start => cases hphase
  | @turn turns before incoming log rest hturns hbefore hrun ih =>
    rw [phaseAfter_snoc] at hphase
    rw [List.forall_mem_append]
    cases Turn.ended hrun hphase with
    | greeted hgreeting hincoming hgreeted =>
      cases hgreeting
      have hnone := List.findSome?_eq_none_iff.mp (hturns.admitted.1 hbefore)
      refine ⟨fun t ht frame hframe => ?_, ?_⟩
      · have := hnone t ht
        simp [Turn.frame?, hframe] at this
      · cases hincoming
        cases hgreeted
        simp
    | woken heq hincoming =>
      cases hincoming
      cases heq
      exact ⟨ih hbefore, by simp⟩
    | @received state₀ frame state heq hincoming hreceive =>
      cases hincoming
      cases heq
      have hall := ih hbefore
      obtain ⟨hold, rfl⟩ | ⟨hnew, hchanged⟩ := receive_changed.run hreceive
      · exact ⟨hall, by simpa using hold⟩
      · have hlast : state.lastRequestId = frame.requestId := hchanged.lastRequestId
        refine ⟨fun t ht f hf => ?_, by simp [hlast]⟩
        rw [hlast]
        exact UInt64.le_trans (hall t ht f hf) (UInt64.le_of_lt hnew)

/-- The latest identifier was received. -/
theorem last_received (h : Conversation E service turns)
    (hphase : phaseAfter turns = some (.session state)) :
    ∃ t ∈ turns, ∃ frame, t.incoming = .frame frame ∧ frame.requestId = state.lastRequestId := by
  induction h generalizing state with
  | start => cases hphase
  | @turn turns before incoming log rest hturns hbefore hrun ih =>
    rw [phaseAfter_snoc] at hphase
    have hearlier {state' : ConnectionState} (hbefore' : before = .session state')
        (hlast : state.lastRequestId = state'.lastRequestId) :
        ∃ t ∈ turns ++ [⟨before, incoming, log, rest⟩], ∃ frame, t.incoming = .frame frame ∧
          frame.requestId = state.lastRequestId := by
      obtain ⟨t, ht, frame, hframe, hid⟩ := ih (hbefore' ▸ hbefore)
      exact ⟨t, List.mem_append_left _ ht, frame, hframe, hid.trans hlast.symm⟩
    cases Turn.ended hrun hphase with
    | greeted hgreeting hincoming hgreeted =>
      refine ⟨_, List.mem_append_right _ (List.mem_singleton_self _), _, hincoming, ?_⟩
      cases hgreeted
      rfl
    | woken heq => exact hearlier heq rfl
    | @received state₀ frame state heq hincoming hreceive =>
      obtain ⟨-, rfl⟩ | ⟨-, hchanged⟩ := receive_changed.run hreceive
      · exact hearlier heq rfl
      · exact ⟨_, List.mem_append_right _ (List.mem_singleton_self _), frame, hincoming,
          hchanged.lastRequestId.symm⟩

theorem subject {t : Turn} (h : Conversation E service turns) (ht : t ∈ turns)
    (ho : o ∈ t.log.map Event.op) (hr : o.subject? = some r) :
    ∃ state frame, t.before = .session state ∧ t.incoming = .frame frame ∧ frame.requestId = r := by
  have hreceives : ConnectionOp.receives o = true := by
    cases o <;> first | rfl | cases hr
  obtain ⟨state, frame, p, hbefore, hincoming, hrun, -⟩ :=
    handleIncoming_receives (h.run ht) ho hreceives
  obtain ⟨e, he, rfl⟩ := List.mem_map.mp ho
  exact ⟨state, frame, hbefore, hincoming, ((hrun.only receive_subject).1 e he r hr).symm⟩

/-- Nothing was done before for a request that is dispatched. -/
theorem unmentioned {t : Turn} (h : Conversation E service (pre ++ [t]))
    (hbefore : t.before = .session state) (hnew : state.lastRequestId < r) :
    ∀ u ∈ pre, ∀ o ∈ u.log.map Event.op, ConnectionOp.subject? o ≠ some r := by
  intro u hu o ho hr
  obtain ⟨hpre, hphase⟩ := h.upto
  obtain ⟨_, frame, -, hframe, rfl⟩ := hpre.subject hu ho hr
  exact UInt64.not_le.mpr hnew (hpre.frames_le (hbefore ▸ hphase) u hu frame hframe)

/-- A connection that goes on has not left. -/
theorem not_left (h : Conversation E service turns) (hphase : phaseAfter turns = some φ)
    (hopen : φ ≠ .closed) : ∀ t ∈ turns, .cancelAll ∉ t.log.map Event.op := by
  induction h generalizing φ with
  | start => simp
  | @turn turns before incoming log rest hturns hbefore hrun ih =>
    rw [phaseAfter_snoc] at hphase
    rw [List.forall_mem_append, List.forall_mem_singleton]
    cases Turn.ended hrun hphase with
    | closed => exact absurd rfl hopen
    | waiting hgreeting hincoming =>
      cases hgreeting
      refine ⟨ih hbefore (by simp), ?_⟩
      cases incoming <;> first | (cases hrun; simp) | exact absurd rfl (hincoming _)
    | greeted hgreeting hincoming hgreeted hlog =>
      cases hgreeting
      obtain ⟨reply, rfl⟩ := hlog
      exact ⟨ih hbefore (by simp), by simp⟩
    | woken heq hincoming hlog =>
      cases heq
      cases hlog
      exact ⟨ih hbefore (by simp), by simp⟩
    | received heq hincoming hreceive =>
      cases heq
      refine ⟨ih hbefore (by simp), fun hleft => ?_⟩
      obtain ⟨e, he, hop⟩ := List.mem_map.mp hleft
      have := (hreceive.only receive_receives).1 e he
      simp [hop, ConnectionOp.receives] at this

end Conversation

-- ---------------------------------------------------------------------------
-- The fields of a link after a step
-- ---------------------------------------------------------------------------

namespace Link

section
variable {E : Engine} {service : Service} {l : Link} {o : ConnectionOp}

@[simp] theorem after_past : (l.after E service o).past = l.past := by
  cases o <;> simp only [after, start]
  split <;> rfl

@[simp] theorem after_turn : (l.after E service o).turn = l.turn := by
  cases o <;> simp only [after, start]
  split <;> rfl

@[simp] theorem after_expired : (l.after E service o).expired = l.expired := by
  cases o <;> simp only [after, start]
  split <;> rfl

@[simp] theorem after_connected : (l.after E service o).connected = l.connected := by
  cases o <;> simp only [after, start]
  split <;> rfl

@[simp] theorem after_turns : (l.after E service o).turns = l.turns := by
  simp [turns]

theorem after_jobs (h : ∀ r task, o ≠ .spawn r task) : (l.after E service o).jobs = l.jobs := by
  cases o <;> simp only [after]
  · split <;> rfl
  · exact absurd rfl (h _ _)

theorem after_spawned (h : ∀ r task, o ≠ .spawn r task) :
    (l.after E service o).spawned = l.spawned := by
  cases o <;> simp only [after]
  · split <;> rfl
  · exact absurd rfl (h _ _)

end

/-- The connection itself has performed the operation. -/
def Did (l : Link) (o : ConnectionOp) : Prop := ∃ t ∈ l.turns, o ∈ t.log.map Event.op

section
variable {E : Engine} {service : Service} {l : Link} {t : Turn} {o o' : ConnectionOp} {ans : o.Ans}

theorem turns_of_turn (hturn : l.turn = some t) : l.turns = l.past ++ [t] := by
  simp [turns, hturn]

theorem turns_take : (l.take E service before incoming).turns =
    l.turns ++ [⟨before, incoming, [], handleIncoming E service before incoming⟩] := by
  simp [turns, take]

theorem turns_advance {e : Event connection} {rest : Prog connection String Phase} :
    (l.advance t e rest).turns = l.past ++ [{ t with log := t.log ++ [e], rest }] := by
  simp [turns, advance]

theorem turns_advanceJob {e : Event connection} {rest : Prog connection String Unit} :
    (l.advanceJob r job e rest).turns = l.turns := rfl

theorem did_take : (l.take E service before incoming).Did o ↔ l.Did o := by
  simp [Did, turns_take, or_and_right, exists_or]

theorem did_advance {rest : Prog connection String Phase} (hturn : l.turn = some t) :
    ((l.after E service o).advance t ⟨o, ans⟩ rest).Did o' ↔ l.Did o' ∨ o = o' := by
  simp only [Did, turns_advance, after_past, turns_of_turn hturn]
  simp [or_and_right, exists_or, or_assoc]

end

-- ---------------------------------------------------------------------------
-- Turns and tasks
-- ---------------------------------------------------------------------------

/-- The turns are a conversation, and the tasks are those it has started. -/
structure Kept (E : Engine) (service : Service) (l : Link) : Prop where
  talk : Conversation E service l.turns
  runs : ∀ r job, l.jobs r = some job → (runTask E service r job.task).Run job.log job.rest
  started : ∀ r job, l.jobs r = some job → l.Did (.spawn r job.task)
  spawned : ∀ r task, l.Did (.spawn r task) → ∃ job, l.jobs r = some job ∧ job.task = task
  listed : ∀ r job, l.jobs r = some job → r ∈ l.spawned

section
variable {E : Engine} {service : Service} {l l' : Link}

/-- The next event of a turn belongs to the conversation. -/
theorem Kept.talk_advance {o : ConnectionOp} {next : o.Ans → Prog connection String Phase}
    (h : l.Kept E service) (hturn : l.turn = some t) (hrest : t.rest = .op o next) (ans : o.Ans) :
    Conversation E service (l.past ++ [{ t with log := t.log ++ [⟨o, ans⟩], rest := next ans }]) := by
  have htalk := h.talk
  rw [turns_of_turn hturn] at htalk
  obtain ⟨hpast, hphase⟩ := htalk.upto
  have hrun := htalk.run (t := t) (by simp)
  rw [hrest] at hrun
  exact .turn hpast hphase (hrun.snoc ans)

/-- Nothing has been done for a request that enters the map of active requests,
and the connection has not left. -/
theorem Kept.inserting {next : (ConnectionOp.insertActive r).Ans → Prog connection String Phase}
    (h : l.Kept E service) (hturn : l.turn = some t) (hrest : t.rest = .op (.insertActive r) next) :
    (∀ o, l.Did o → o.subject? ≠ some r) ∧ ¬ l.Did .cancelAll := by
  have htalk := h.talk
  rw [turns_of_turn hturn] at htalk
  have hrun := htalk.run (t := t) (by simp)
  rw [hrest] at hrun
  obtain ⟨state, frame, next', hbefore, -, hreceive⟩ := handleIncoming_next hrun rfl
  obtain ⟨hlog, -, hnew⟩ := receive_inserts hreceive
  obtain ⟨hpast, hphase⟩ := htalk.upto
  have hall {P : ConnectionOp → Prop} (hP : ∀ u ∈ l.past, ∀ o ∈ u.log.map Event.op, P o) (o) :
      l.Did o → P o := by
    rintro ⟨u, hu, ho⟩
    rw [turns_of_turn hturn] at hu
    rcases List.mem_append.mp hu with hu | hu
    · exact hP u hu o ho
    · cases List.mem_singleton.mp hu
      simp [hlog] at ho
  refine ⟨hall (htalk.unmentioned hbefore hnew), fun hleft => ?_⟩
  refine hall (P := (· ≠ .cancelAll)) ?_ _ hleft rfl
  rintro u hu _ ho rfl
  exact hpast.not_left hphase (by simp [hbefore]) u hu ho

/-- All that has been done for a request whose task is started. -/
theorem Kept.spawning {next : (ConnectionOp.spawn r task).Ans → Prog connection String Phase}
    (h : l.Kept E service) (hturn : l.turn = some t) (hrest : t.rest = .op (.spawn r task) next) :
    ∀ o, l.Did o → o.subject? = some r → o = .insertActive r := by
  have htalk := h.talk
  rw [turns_of_turn hturn] at htalk
  have hrun := htalk.run (t := t) (by simp)
  rw [hrest] at hrun
  obtain ⟨state, frame, next', hbefore, -, hreceive⟩ := handleIncoming_next hrun rfl
  obtain ⟨-, hnew, hlog⟩ := receive_spawning hreceive
  rintro o ⟨u, hu, ho⟩ hr
  rw [turns_of_turn hturn] at hu
  rcases List.mem_append.mp hu with hu | hu
  · exact absurd hr (htalk.unmentioned hbefore hnew u hu o ho)
  · cases List.mem_singleton.mp hu
    obtain hlog | ⟨hlog, -⟩ := hlog
    · simpa [hlog] using ho
    · simp [hlog] at ho

theorem of_advance_jobs {rest : Prog connection String Phase} {e : Event connection}
    (h : ((l.after E service o).advance t e rest).jobs r = some job) :
    l.jobs r = some job ∨ ∃ task, o = .spawn r task ∧ job = ⟨task, [], runTask E service r task⟩ := by
  by_cases hspawn : ∃ r' task, o = .spawn r' task
  · obtain ⟨r', task, rfl⟩ := hspawn
    simp only [advance, after, start, Function.update_apply] at h
    split at h
    · rename_i heq
      cases h
      exact .inr ⟨task, by rw [heq], by rw [heq]⟩
    · exact .inl h
  · simp only [not_exists] at hspawn
    refine .inl ?_
    rwa [← after_jobs (E := E) hspawn]

/-- A task performs its own operations only. -/
theorem Kept.job_op {o : ConnectionOp} {next : o.Ans → Prog connection String Unit}
    {P : ConnectionOp → Prop} (h : l.Kept E service) (hjob : l.jobs r = some job)
    (hrest : job.rest = .op o next) (hsend : ∀ response, P (.send ⟨r, response⟩))
    (hdaemon : ∀ o, P (.daemon o)) (hcancelled : P (.isCancelled r)) (hjoin : P (.join r))
    (hremove : P (.removeActive r)) : P o := by
  have hrun := h.runs r job hjob
  rw [hrest] at hrun
  exact (hrun.only (runTask_only hsend hdaemon hcancelled hjoin hremove job.task)).2.1

section
variable {o : ConnectionOp} {next : o.Ans → Prog connection String Unit} {ans : o.Ans}

theorem Kept.advanceJob_jobs (h : l.Kept E service) (hjob : l.jobs r = some job)
    (hrest : job.rest = .op o next) (ans : o.Ans) (r' : UInt64) :
    ((l.after E service o).advanceJob r job ⟨o, ans⟩ (next ans)).jobs r' =
      if r' = r then some ⟨job.task, job.log ++ [⟨o, ans⟩], next ans⟩ else l.jobs r' := by
  have hspawn : ∀ r' task, o ≠ .spawn r' task :=
    h.job_op (P := fun o => ∀ r' task, o ≠ .spawn r' task) hjob hrest (by simp) (by simp)
      (by simp) (by simp) (by simp)
  simp only [advanceJob, after_jobs hspawn, Function.update_apply]

theorem did_advanceJob {e : Event connection} {rest : Prog connection String Unit} :
    ((l.after E service o).advanceJob r job e rest).Did o' ↔ l.Did o' := by
  simp only [Did, turns_advanceJob, after_turns]

theorem Kept.step_job (h : l.Kept E service) (hjob : l.jobs r = some job)
    (hrest : job.rest = .op o next) :
    ((l.after E service o).advanceJob r job ⟨o, ans⟩ (next ans)).Kept E service := by
  have hrun := h.runs r job hjob
  rw [hrest] at hrun
  have hspawn : ∀ r' task, o ≠ .spawn r' task :=
    h.job_op (P := fun o => ∀ r' task, o ≠ .spawn r' task) hjob hrest (by simp) (by simp)
      (by simp) (by simp) (by simp)
  have hjobs := h.advanceJob_jobs hjob hrest ans
  refine ⟨by simpa [turns_advanceJob] using h.talk, fun r' job' hjob' => ?_,
    fun r' job' hjob' => ?_, fun r' task hd => ?_, fun r' job' hjob' => ?_⟩
  · rw [hjobs] at hjob'
    split at hjob'
    · rename_i heq
      cases hjob'
      exact heq ▸ hrun.snoc ans
    · exact h.runs r' job' hjob'
  · rw [hjobs] at hjob'
    rw [did_advanceJob]
    split at hjob'
    · rename_i heq
      cases hjob'
      exact heq ▸ h.started r job hjob
    · exact h.started r' job' hjob'
  · obtain ⟨job', hjob', htask⟩ := h.spawned r' task (did_advanceJob.mp hd)
    rw [hjobs]
    split
    · rename_i heq
      cases (heq ▸ hjob').symm.trans hjob
      exact ⟨_, rfl, htask⟩
    · exact ⟨job', hjob', htask⟩
  · change r' ∈ (l.after E service o).spawned
    rw [after_spawned hspawn]
    rw [hjobs] at hjob'
    split at hjob'
    · rename_i heq
      exact heq ▸ h.listed r job hjob
    · exact h.listed r' job' hjob'

end

section
variable {o : ConnectionOp} {next : o.Ans → Prog connection String Phase} {ans : o.Ans}

theorem Kept.step_main (h : l.Kept E service) (hturn : l.turn = some t)
    (hrest : t.rest = .op o next) :
    ((l.after E service o).advance t ⟨o, ans⟩ (next ans)).Kept E service := by
  have hspawned (r : UInt64) (hr : r ∈ l.spawned) :
      r ∈ ((l.after E service o).advance t ⟨o, ans⟩ (next ans)).spawned := by
    change r ∈ (l.after E service o).spawned
    by_cases hspawn : ∃ r' task, o = .spawn r' task
    · obtain ⟨r', task, rfl⟩ := hspawn
      exact List.mem_append_left _ hr
    · simp only [not_exists] at hspawn
      rwa [after_spawned hspawn]
  refine ⟨?_, fun r job hjob => ?_, fun r job hjob => ?_, fun r task hdid => ?_,
    fun r job hjob => ?_⟩
  · rw [turns_advance, after_past]
    exact h.talk_advance hturn hrest ans
  · obtain hjob | ⟨task, -, rfl⟩ := of_advance_jobs hjob
    · exact h.runs r job hjob
    · exact .refl _
  · refine (did_advance hturn).mpr ?_
    obtain hjob | ⟨task, rfl, rfl⟩ := of_advance_jobs hjob
    · exact .inl (h.started r job hjob)
    · exact .inr rfl
  · obtain hold | rfl := (did_advance hturn).mp hdid
    · obtain ⟨job, hjob, htask⟩ := h.spawned r task hold
      refine ⟨job, ?_, htask⟩
      -- The task that is started now is another one.
      by_cases hspawn : ∃ r' task', o = .spawn r' task'
      · obtain ⟨r', task', rfl⟩ := hspawn
        have hne : r ≠ r' := by
          rintro rfl
          cases h.spawning hturn hrest _ hold rfl
        simpa [advance, after, start, hne] using hjob
      · simp only [not_exists] at hspawn
        have hjobs : (l.after E service o).jobs = l.jobs := after_jobs hspawn
        exact (congrFun hjobs r).trans hjob
    · exact ⟨_, Function.update_self _ _ _, rfl⟩
  · obtain hjob | ⟨task, rfl, rfl⟩ := of_advance_jobs hjob
    · exact hspawned r (h.listed r job hjob)
    · exact List.mem_append_right _ (List.mem_singleton_self r)

end

theorem Kept.step (h : l.Kept E service) (hstep : Step E service l l') : l'.Kept E service := by
  cases hstep with
  | receive hphase hopen =>
    refine ⟨?_, h.runs, fun r job hjob => did_take.mpr (h.started r job hjob),
      fun r task hdid => h.spawned r task (did_take.mp hdid), h.listed⟩
    rw [turns_take]
    exact .turn h.talk hphase (.refl _)
  | main hturn hrest hans => exact h.step_main hturn hrest
  | job hjob hrest hans => exact h.step_job hjob hrest
  | expire hjob hawaited => exact ⟨h.talk, h.runs, h.started, h.spawned, h.listed⟩
  | disconnect => exact ⟨h.talk, h.runs, h.started, h.spawned, h.listed⟩
  | abort => exact ⟨h.talk, h.runs, h.started, h.spawned, h.listed⟩

theorem Kept.initial : Link.initial.Kept E service where
  talk := .start
  runs r job hjob := by cases hjob
  started r job hjob := by cases hjob
  spawned r task hdid := by simp [Did, turns, Link.initial] at hdid
  listed r job hjob := by cases hjob

theorem Reachable.kept (h : l.Reachable E service) : l.Kept E service := by
  induction h with
  | refl => exact .initial
  | tail _ hstep ih => exact ih.step hstep

end

-- ---------------------------------------------------------------------------
-- Active requests
-- ---------------------------------------------------------------------------

section
variable {E : Engine} {service : Service} {l l' : Link} {o : ConnectionOp}

theorem of_after_active (h : (l.after E service o).active r = true) :
    l.active r = true ∨ o = .insertActive r := by
  cases o <;> simp only [after, start, Function.update_apply] at h
  all_goals try split at h
  all_goals simp_all

theorem after_active_eq_false (h : l.active r = false) (ho : o ≠ .insertActive r) :
    (l.after E service o).active r = false := by
  rw [Bool.eq_false_iff]
  intro hactive
  obtain htrue | heq := of_after_active hactive
  · simp [h] at htrue
  · exact ho heq

/-- The task of the request has performed the event. -/
def JobDid (l : Link) (r : UInt64) (e : Event connection) : Prop :=
  ∃ job, l.jobs r = some job ∧ e ∈ job.log

theorem of_jobDid_advance {rest : Prog connection String Phase} {e e' : Event connection}
    (h : ((l.after E service o).advance t e rest).JobDid r e') : l.JobDid r e' := by
  obtain ⟨job, hjob, he⟩ := h
  obtain hjob | ⟨task, -, rfl⟩ := of_advance_jobs hjob
  · exact ⟨job, hjob, he⟩
  · cases he

theorem Kept.of_jobDid_advanceJob {next : o.Ans → Prog connection String Unit} {ans : o.Ans}
    {e : Event connection} (h : l.Kept E service) (hjob : l.jobs r = some job)
    (hrest : job.rest = .op o next)
    (he : ((l.after E service o).advanceJob r job ⟨o, ans⟩ (next ans)).JobDid r' e) :
    l.JobDid r' e ∨ r' = r ∧ e = ⟨o, ans⟩ := by
  obtain ⟨job', hjob', he⟩ := he
  rw [h.advanceJob_jobs hjob hrest ans] at hjob'
  split at hjob'
  · rename_i heq
    cases hjob'
    rcases List.mem_append.mp he with he | he
    · exact .inl ⟨job, heq ▸ hjob, he⟩
    · exact .inr ⟨heq, List.mem_singleton.mp he⟩
  · exact .inl ⟨job', hjob', he⟩

theorem Kept.of_jobDid (h : l.Kept E service) (he : l.JobDid r e) :
    ∃ task, l.Did (.spawn r task) := by
  obtain ⟨job, hjob, -⟩ := he
  exact ⟨_, h.started r job hjob⟩

/-- A request enters the map of active requests once. -/
structure Registered (l : Link) : Prop where
  inserted : ∀ r, l.active r = true → l.Did (.insertActive r)
  released : ∀ r, l.JobDid r ⟨.removeActive r, ()⟩ → l.active r = false
  fresh : ∀ t ∈ l.turns, ∀ r, (⟨.insertActive r, true⟩ : Event connection) ∉ t.log

theorem Registered.step (h : l.Registered) (hkept : l.Kept E service)
    (hstep : Step E service l l') : l'.Registered := by
  cases hstep with
  | receive hphase hopen =>
    refine ⟨fun r hr => did_take.mpr (h.inserted r hr), h.released, ?_⟩
    rw [turns_take, List.forall_mem_append]
    exact ⟨h.fresh, by simp⟩
  | @main t _ o next ans hturn hrest hans =>
    refine ⟨fun r hr => ?_, fun r hremoved => ?_, ?_⟩
    · refine (did_advance hturn).mpr ?_
      obtain hr | heq := of_after_active hr
      · exact .inl (h.inserted r hr)
      · exact .inr heq
    · have hremoved := of_jobDid_advance hremoved
      refine after_active_eq_false (h.released r hremoved) ?_
      rintro rfl
      obtain ⟨task, hspawn⟩ := hkept.of_jobDid hremoved
      exact (hkept.inserting hturn hrest).1 _ hspawn rfl
    · rw [turns_advance, after_past, List.forall_mem_append]
      have hfresh := h.fresh
      rw [turns_of_turn hturn, List.forall_mem_append] at hfresh
      refine ⟨hfresh.1, ?_⟩
      simp only [List.forall_mem_singleton]
      intro r hmem
      rcases List.mem_append.mp hmem with hmem | hmem
      · exact hfresh.2 t (by simp) r hmem
      · cases List.mem_singleton.mp hmem
        obtain ⟨d, hd⟩ | ⟨c, hc⟩ := hans
        · cases hd
        · exact (hkept.inserting hturn hrest).1 _ (h.inserted r (Option.some.inj hc)) rfl
  | @job job _ r o next ans hjob hrest hans =>
    have hinsert : ∀ r', o ≠ .insertActive r' :=
      hkept.job_op (P := fun o => ∀ r', o ≠ .insertActive r') hjob hrest (by simp) (by simp)
        (by simp) (by simp) (by simp)
    refine ⟨fun r' hr => ?_, fun r' hremoved => ?_, by simpa [turns_advanceJob] using h.fresh⟩
    · obtain hr | heq := of_after_active hr
      · exact did_advanceJob.mpr (h.inserted r' hr)
      · exact absurd heq (hinsert r')
    · obtain hremoved | ⟨rfl, heq⟩ := hkept.of_jobDid_advanceJob hjob hrest hremoved
      · exact after_active_eq_false (h.released r' hremoved) (hinsert r')
      · cases heq
        exact Function.update_self _ _ _
  | expire hjob hawaited => exact ⟨h.inserted, h.released, h.fresh⟩
  | disconnect => exact ⟨h.inserted, h.released, h.fresh⟩
  | abort => exact ⟨h.inserted, h.released, h.fresh⟩

theorem Reachable.registered (h : l.Reachable E service) : l.Registered := by
  induction h with
  | refl => exact ⟨by simp [initial], by simp [JobDid, initial], by simp [turns, initial]⟩
  | tail hreachable hstep ih => exact ih.step (Reachable.kept hreachable) hstep

-- ---------------------------------------------------------------------------
-- Tokens and timers
-- ---------------------------------------------------------------------------

theorem of_after_cancelled (h : (l.after E service o).cancelled r = true) :
    l.cancelled r = true ∨ o = .cancel r ∨ o = .cancelAll := by
  cases o <;> simp only [after, start, Function.update_apply] at h
  all_goals try split at h
  all_goals simp_all

theorem after_cancelled (h : l.cancelled r = true) : (l.after E service o).cancelled r = true := by
  cases o <;> simp only [after, start, Function.update_apply]
  all_goals try split
  all_goals simp_all

theorem not_joined {b : Bool} (hjob : l.jobs r = some job) (hawaited : job.awaited = true) :
    ¬ l.JobDid r ⟨.join r, b⟩ := by
  rintro ⟨job', hjob', he⟩
  cases hjob.symm.trans hjob'
  unfold Job.awaited at hawaited
  split at hawaited
  · cases hawaited
  · simp only [Bool.not_eq_true', List.any_eq_false] at hawaited
    exact hawaited _ he rfl

/-- Why a token is cancelled, and what its task has seen of it. -/
structure Tokens (l : Link) : Prop where
  caused : ∀ r, l.cancelled r = true →
    l.expired r = true ∨ l.Did (.cancel r) ∨ l.Did .cancelAll
  noticed : ∀ r, l.JobDid r ⟨.isCancelled r, true⟩ → l.cancelled r = true
  joined : ∀ r expired, l.JobDid r ⟨.join r, expired⟩ → l.expired r = expired
  left : l.Did .cancelAll → ∀ r, l.active r = true → l.cancelled r = true

theorem Tokens.step (h : l.Tokens) (hkept : l.Kept E service) (hstep : Step E service l l') :
    l'.Tokens := by
  cases hstep with
  | receive hphase hopen =>
    refine ⟨fun r hr => ?_, h.noticed, h.joined, fun hleft => h.left (did_take.mp hleft)⟩
    simp only [did_take]
    exact h.caused r hr
  | @main t _ o next ans hturn hrest hans =>
    refine ⟨fun r hr => ?_, fun r hr => ?_, fun r expired hr => ?_, fun hleft r hr => ?_⟩
    · simp only [did_advance hturn]
      obtain hr | rfl | rfl := of_after_cancelled hr
      · obtain hexpired | hcancel | hall := h.caused r hr
        · exact .inl (by simpa [advance] using hexpired)
        · exact .inr (.inl (.inl hcancel))
        · exact .inr (.inr (.inl hall))
      · exact .inr (.inl (.inr rfl))
      · exact .inr (.inr (.inr rfl))
    · exact after_cancelled (h.noticed r (of_jobDid_advance hr))
    · simpa [advance] using h.joined r expired (of_jobDid_advance hr)
    · obtain hactive | rfl := of_after_active hr
      · obtain hleft | rfl := (did_advance hturn).mp hleft
        · exact after_cancelled (h.left hleft r hactive)
        · simp [advance, after, hactive]
      · obtain hleft | heq := (did_advance hturn).mp hleft
        · exact absurd hleft (hkept.inserting hturn hrest).2
        · cases heq
  | @job job _ r o next ans hjob hrest hans =>
    have hother : ∀ r', o ≠ .insertActive r' ∧ o ≠ .cancel r' ∧ o ≠ .cancelAll :=
      hkept.job_op (P := fun o => ∀ r', o ≠ .insertActive r' ∧ o ≠ .cancel r' ∧ o ≠ .cancelAll)
        hjob hrest (by simp) (by simp) (by simp) (by simp) (by simp)
    have hanswer (hc : ∀ d, o ≠ .daemon d) : ∃ c, l.answer c o = some ans := by
      obtain ⟨d, hd⟩ | hans := hans
      · exact absurd hd (hc d)
      · exact hans
    refine ⟨fun r' hr => ?_, fun r' hr => ?_, fun r' expired hr => ?_, fun hleft r' hr => ?_⟩
    · simp only [did_advanceJob]
      obtain hr | heq | heq := of_after_cancelled hr
      · simpa [advanceJob] using h.caused r' hr
      · exact absurd heq (hother r').2.1
      · exact absurd heq (hother r').2.2
    · obtain hr | ⟨rfl, heq⟩ := hkept.of_jobDid_advanceJob hjob hrest hr
      · exact after_cancelled (h.noticed r' hr)
      · cases heq
        obtain ⟨c, hc⟩ := hanswer (by simp)
        exact after_cancelled (Option.some.inj hc)
    · obtain hr | ⟨rfl, heq⟩ := hkept.of_jobDid_advanceJob hjob hrest hr
      · simpa [advanceJob] using h.joined r' expired hr
      · cases heq
        obtain ⟨c, hc⟩ := hanswer (by simp)
        exact Option.some.inj hc
    · obtain hr | heq := of_after_active hr
      · exact after_cancelled (h.left (did_advanceJob.mp hleft) r' hr)
      · exact absurd heq (hother r').1
  | @expire job _ r hjob hawaited =>
    have hcancelled (r' : UInt64) (hr : l.cancelled r' = true) : (l.expire r).cancelled r' = true := by
      simp [expire, Function.update_apply, hr]
    refine ⟨fun r' hr => ?_, fun r' hr => hcancelled r' (h.noticed r' hr), fun r' expired hr => ?_,
      fun hleft r' hr => hcancelled r' (h.left hleft r' hr)⟩
    · by_cases heq : r' = r
      · exact .inl (by simp [expire, heq])
      · refine (h.caused r' (by simpa [expire, heq] using hr)).imp_left fun hexpired => ?_
        simpa [expire, heq] using hexpired
    · have hne : r' ≠ r := by
        rintro rfl
        exact not_joined hjob hawaited hr
      simpa [expire, hne] using h.joined r' expired hr
  | disconnect => exact ⟨h.caused, h.noticed, h.joined, h.left⟩
  | abort => exact ⟨h.caused, h.noticed, h.joined, h.left⟩

theorem Reachable.tokens (h : l.Reachable E service) : l.Tokens := by
  induction h with
  | refl =>
    exact ⟨by simp [initial], by simp [JobDid, initial], by simp [JobDid, initial],
      by simp [initial]⟩
  | tail hreachable hstep ih => exact ih.step (Reachable.kept hreachable) hstep

end

end Link

-- ---------------------------------------------------------------------------
-- The queue of responses
-- ---------------------------------------------------------------------------

/-- The frame an event has put into the queue. -/
def frame? : Event connection → Option ServerFrame
  | ⟨.send frame, accepted⟩ => cond accepted (some frame) none
  | _ => none

theorem op_of_frame? {e : Event connection} (h : frame? e = some frame) : e.op = .send frame := by
  obtain ⟨o, ans⟩ := e
  cases o with
  | send sent =>
    cases ans with
    | false => cases h
    | true =>
      cases h
      rfl
  | _ => cases h

/-- The client sends strictly increasing request identifiers. -/
def Increasing (turns : List Turn) : Prop :=
  (turns.filterMap Turn.frame?).Pairwise fun f g => f.requestId < g.requestId

instance : DecidablePred Increasing := fun turns =>
  inferInstanceAs (Decidable ((turns.filterMap Turn.frame?).Pairwise _))

theorem Increasing.of_append (h : Increasing (turns ++ turns')) : Increasing turns := by
  rw [Increasing, List.filterMap_append] at h
  exact (List.pairwise_append.mp h).1

/-- No other turn has a frame of the same identifier. -/
theorem Increasing.others {t : Turn} (h : Increasing (pre ++ t :: post))
    (hframe : t.incoming = .frame frame) :
    ∀ u ∈ pre ++ post, ∀ f, u.incoming = .frame f → f.requestId ≠ frame.requestId := by
  intro u hu f hf heq
  have ht : t.frame? = some frame := by simp [Turn.frame?, hframe]
  have hu' : u.frame? = some f := by simp [Turn.frame?, hf]
  rw [Increasing, List.filterMap_append, List.filterMap_cons_some ht] at h
  obtain ⟨-, hlater, hpre⟩ := List.pairwise_append.mp h
  rcases List.mem_append.mp hu with hu | hu
  · have hlt := hpre f (List.mem_filterMap.mpr ⟨u, hu, hu'⟩) frame (by simp)
    exact UInt64.lt_irrefl _ (heq ▸ hlt)
  · have hlt := (List.pairwise_cons.mp hlater).1 f (List.mem_filterMap.mpr ⟨u, hu, hu'⟩)
    exact UInt64.lt_irrefl _ (heq ▸ hlt)

theorem Increasing.unique {t u : Turn} (h : Increasing turns) (ht : t ∈ turns) (hu : u ∈ turns)
    (hf : t.incoming = .frame f) (hg : u.incoming = .frame g) (heq : g.requestId = f.requestId) :
    u = t := by
  obtain ⟨pre, post, rfl⟩ := List.append_of_mem ht
  rcases List.mem_append.mp hu with hu | hu
  · exact absurd heq (h.others hf u (List.mem_append_left _ hu) g hg)
  · obtain rfl | hu := List.mem_cons.mp hu
    · rfl
    · exact absurd heq (h.others hf u (List.mem_append_right _ hu) g hg)

/-- Every frame of a session is dispatched then. -/
theorem Increasing.dispatched {t : Turn} (h : Increasing turns)
    (hturns : Conversation E service turns) (ht : t ∈ turns) (hbefore : t.before = .session state)
    (hframe : t.incoming = .frame frame) : state.lastRequestId < frame.requestId := by
  obtain ⟨pre, post, rfl⟩ := List.append_of_mem ht
  obtain ⟨hpre, hphase⟩ := hturns.upto
  obtain ⟨u, hu, received, hreceived, hid⟩ := hpre.last_received (hbefore ▸ hphase)
  have hframe' : t.frame? = some frame := by simp [Turn.frame?, hframe]
  rw [Increasing, List.filterMap_append, List.filterMap_cons_some hframe'] at h
  rw [← hid]
  exact (List.pairwise_append.mp h).2.2 received
    (List.mem_filterMap.mpr ⟨u, hu, by simp [Turn.frame?, hreceived]⟩) frame (by simp)

namespace Link

section
variable {E : Engine} {service : Service} {l l' : Link} {o : ConnectionOp}

def mainFrames (l : Link) : List ServerFrame := l.turns.flatMap fun t => t.log.filterMap frame?

def jobFrames (l : Link) (r : UInt64) : List ServerFrame :=
  match l.jobs r with
  | some job => job.log.filterMap frame?
  | none => []

/-- The frames of the request that are in the queue, in their order. -/
def framesOf (l : Link) (r : UInt64) : List ServerFrame :=
  l.frames.filter fun frame => frame.requestId = r

theorem after_frames {ans : o.Ans} (h : l.Answers o ans) :
    (l.after E service o).frames = l.frames ++ (frame? ⟨o, ans⟩).toList := by
  cases o with
  | send frame =>
    obtain ⟨d, hd⟩ | ⟨c, hc⟩ := h
    · cases hd
    · obtain rfl : l.connected = ans := Option.some.inj hc
      simp only [after, frame?]
      cases l.connected <;> simp
  | _ => simp [after, start, frame?]

/-- What the connection sends about a request of its own is not preceded by
anything a task has sent about it. -/
theorem Kept.sending {next : (ConnectionOp.send frame).Ans → Prog connection String Phase}
    (h : l.Kept E service) (hturn : l.turn = some t) (hrest : t.rest = .op (.send frame) next)
    (hincreasing : Increasing l.turns) : l.jobs frame.requestId = none := by
  rw [Option.eq_none_iff_forall_ne_some]
  intro job hjob
  have htalk := h.talk
  rw [turns_of_turn hturn] at htalk
  have hrun := htalk.run (t := t) (by simp)
  rw [hrest] at hrun
  obtain ⟨state, received, next', hbefore, hincoming, hreceive⟩ := handleIncoming_next hrun rfl
  have hid : frame.requestId = received.requestId := (hreceive.only receive_subject).2.1 _ rfl
  obtain ⟨u, hu, hspawn⟩ := h.started _ job hjob
  rw [turns_of_turn hturn] at hu hincreasing
  rcases List.mem_append.mp hu with hu' | hu'
  · obtain ⟨_, frame', -, hframe', hid'⟩ := htalk.subject hu hspawn rfl
    rw [Increasing, List.filterMap_append] at hincreasing
    have hlt := (List.pairwise_append.mp hincreasing).2.2 frame'
      (List.mem_filterMap.mpr ⟨u, hu', by simp [Turn.frame?, hframe']⟩) received
      (by simp [Turn.frame?, hincoming])
    rw [hid', hid] at hlt
    exact UInt64.lt_irrefl _ hlt
  · cases List.mem_singleton.mp hu'
    obtain ⟨-, -, ⟨state', hdone, -⟩, -⟩ := receive_spawns hreceive hspawn
    cases hdone

/-- The queue holds what the connection and its tasks have sent. -/
def Queued (l : Link) : Prop :=
  ∀ r, l.framesOf r =
    (l.mainFrames.filter fun frame => frame.requestId = r) ++ l.jobFrames r

/-- A task is not started twice. -/
theorem Kept.jobs_advance {next : o.Ans → Prog connection String Phase} {ans : o.Ans}
    (h : l.Kept E service) (hturn : l.turn = some t) (hrest : t.rest = .op o next)
    (hjob : l.jobs r = some job) :
    ((l.after E service o).advance t ⟨o, ans⟩ (next ans)).jobs r = some job := by
  by_cases hspawn : ∃ r' task, o = .spawn r' task
  · obtain ⟨r', task, rfl⟩ := hspawn
    have hne : r ≠ r' := by
      rintro rfl
      cases h.spawning hturn hrest _ (h.started r job hjob) rfl
    simpa [advance, after, start, hne] using hjob
  · have hjobs := @after_jobs E service l o fun r task ho => hspawn ⟨r, task, ho⟩
    exact (congrFun hjobs r).trans hjob

theorem Kept.jobFrames_advance {next : o.Ans → Prog connection String Phase} {ans : o.Ans}
    (h : l.Kept E service) (hturn : l.turn = some t) (hrest : t.rest = .op o next) (r : UInt64) :
    ((l.after E service o).advance t ⟨o, ans⟩ (next ans)).jobFrames r = l.jobFrames r := by
  unfold jobFrames
  cases hjob : l.jobs r with
  | some job => rw [h.jobs_advance hturn hrest hjob]
  | none =>
    cases hjob' : ((l.after E service o).advance t ⟨o, ans⟩ (next ans)).jobs r with
    | none => rfl
    | some job =>
      obtain hold | ⟨task, -, rfl⟩ := of_advance_jobs hjob'
      · cases hjob.symm.trans hold
      · rfl

theorem Queued.step (h : l.Queued) (hkept : l.Kept E service) (hincreasing : Increasing l.turns)
    (hstep : Step E service l l') : l'.Queued := by
  cases hstep with
  | receive hphase hopen =>
    intro r
    have hmain {before : Phase} {incoming : Incoming} :
        (l.take E service before incoming).mainFrames = l.mainFrames := by
      simp [mainFrames, turns_take]
    rw [hmain]
    exact h r
  | @main t _ o next ans hturn hrest hans =>
    intro r
    have hmain : ((l.after E service o).advance t ⟨o, ans⟩ (next ans)).mainFrames =
        l.mainFrames ++ (frame? ⟨o, ans⟩).toList := by
      simp only [mainFrames, turns_advance, after_past, turns_of_turn hturn]
      cases he : frame? ⟨o, ans⟩ <;> simp [he]
    rw [hmain, hkept.jobFrames_advance hturn hrest]
    have hframes : ((l.after E service o).advance t ⟨o, ans⟩ (next ans)).framesOf r =
        l.framesOf r ++ (frame? ⟨o, ans⟩).toList.filter fun frame => frame.requestId = r := by
      simp only [framesOf, advance, after_frames hans, List.filter_append]
    rw [hframes, h r, List.filter_append]
    cases he : frame? ⟨o, ans⟩ with
    | none => simp
    | some frame =>
      by_cases hr : frame.requestId = r
      · have hnone : l.jobFrames r = [] := by
          obtain rfl : o = .send frame := op_of_frame? he
          simp [jobFrames, ← hr, hkept.sending hturn hrest hincreasing]
        simp [hnone]
      · simp [hr]
  | @job job _ r o next ans hjob hrest hans =>
    intro r'
    have hsend : ∀ frame, frame? ⟨o, ans⟩ = some frame → frame.requestId = r := by
      have hsubject : ∀ r', o.subject? = some r' → r' = r :=
        hkept.job_op (P := fun o => ∀ r', o.subject? = some r' → r' = r) hjob hrest
          (by simp [ConnectionOp.subject?]) (by simp [ConnectionOp.subject?])
          (by simp [ConnectionOp.subject?]) (by simp [ConnectionOp.subject?])
          (by simp [ConnectionOp.subject?])
      intro frame he
      obtain rfl : o = .send frame := op_of_frame? he
      exact hsubject _ rfl
    have hjobs := hkept.advanceJob_jobs hjob hrest ans r'
    have hmain : ((l.after E service o).advanceJob r job ⟨o, ans⟩ (next ans)).mainFrames =
        l.mainFrames := by
      simp [mainFrames, turns_advanceJob]
    have hframes : ((l.after E service o).advanceJob r job ⟨o, ans⟩ (next ans)).framesOf r' =
        l.framesOf r' ++ (frame? ⟨o, ans⟩).toList.filter fun frame => frame.requestId = r' := by
      simp only [framesOf, advanceJob, after_frames hans, List.filter_append]
    rw [hmain, hframes, h r']
    by_cases hr : r' = r
    · subst hr
      have hjobFrames : ((l.after E service o).advanceJob r' job ⟨o, ans⟩ (next ans)).jobFrames r' =
          l.jobFrames r' ++ (frame? ⟨o, ans⟩).toList := by
        rw [if_pos rfl] at hjobs
        simp only [jobFrames, hjobs, hjob, List.filterMap_append]
        cases he : frame? ⟨o, ans⟩ <;> simp [he]
      rw [hjobFrames]
      cases he : frame? ⟨o, ans⟩ with
      | none => simp
      | some frame => simp [hsend frame he]
    · have hjobFrames : ((l.after E service o).advanceJob r job ⟨o, ans⟩ (next ans)).jobFrames r' =
          l.jobFrames r' := by
        rw [if_neg hr] at hjobs
        simp only [jobFrames, hjobs]
      rw [hjobFrames]
      cases he : frame? ⟨o, ans⟩ with
      | none => simp
      | some frame => simp [hsend frame he, Ne.symm hr]
  | expire hjob hawaited => exact h
  | disconnect => exact h
  | abort => exact h

theorem Step.increasing (hstep : Step E service l l') (h : Increasing l'.turns) :
    Increasing l.turns := by
  cases hstep with
  | receive hphase hopen =>
    rw [turns_take] at h
    exact h.of_append
  | main hturn hrest hans =>
    rw [turns_advance, after_past] at h
    rw [turns_of_turn hturn]
    rw [Increasing, List.filterMap_append] at h ⊢
    exact h
  | job hjob hrest hans => simpa [turns_advanceJob] using h
  | expire hjob hawaited => exact h
  | disconnect => exact h
  | abort => exact h

theorem Reachable.queued (h : l.Reachable E service) (hincreasing : Increasing l.turns) :
    l.Queued := by
  induction h with
  | refl => exact fun r => rfl
  | tail hreachable hstep ih =>
    have hincreasing := hstep.increasing hincreasing
    exact (ih hincreasing).step (Reachable.kept hreachable) hincreasing hstep

end

end Link

end NostdbServer
