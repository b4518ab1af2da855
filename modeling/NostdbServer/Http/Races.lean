import NostdbServer.Effects.Race
import NostdbServer.Http.Queries
import NostdbServer.Protocol.Workers

/-!
# The timeout races

Four tasks wait for a worker with a timer beside it: the query and commit tasks
of a connection, `execute_one` and `execute_batch`. What the first two hand on is
`timed`, as `withTimeout_performs` says, and what the other two answer is
`settled`, as `awaitWorker_performs` says. In whatever order worker, timer and
cancellation come, that is a success exactly if the engine call was one.
-/

namespace NostdbServer

open Effects

/-- Once the wait is over the worker is done, and what is handed on is a value
exactly if an engine call of the worker returned it. -/
def Faithful (worker : Prog S ε α) (returned : α → List (Event S) → Prop)
    (handOn : Bool → Except ε α → Except ε' α) : Prop :=
  ∀ race expired, Race.Reaches worker race → race.waiting = .over expired →
    ∃ outcome, race.outcome? = some outcome ∧
      ∀ value, handOn expired outcome = .ok value ↔ returned value race.log

/-- A hand-on that keeps values and makes none. -/
theorem Faithful.of_performs {worker : Prog S ε α} {R : Except ε α → List (Event S) → Prop}
    {returned : α → List (Event S) → Prop} {handOn : Bool → Except ε α → Except ε' α}
    (hworker : Performs worker R)
    (hreturned : ∀ r log, R r log → ∀ value, r = .ok value ↔ returned value log)
    (hhand : ∀ expired r value, handOn expired r = .ok value ↔ r = .ok value) :
    Faithful worker returned handOn := by
  intro race expired hrace hover
  obtain ⟨outcome, houtcome⟩ := hrace.over hover
  refine ⟨outcome, houtcome, fun value => ?_⟩
  rw [hhand, hreturned _ _ (hworker.run hrace.run houtcome)]

-- ---------------------------------------------------------------------------
-- Connections
-- ---------------------------------------------------------------------------

theorem timed_ok {message : String} {expired : Bool} {r : Except ProtocolFailure α} {value : α} :
    timed message expired r = .ok value ↔ r = .ok value := by
  cases r with
  | ok => exact Iff.rfl
  | error => exact iff_of_false nofun nofun

/-- A worker succeeds with what its engine call returned. -/
theorem Worked.returned {call : ManagedDatabase → Except DatabaseError α → Event connection}
    (hengine : ∀ handle answer, (call handle answer).op.callsEngine = true)
    (hinj : ∀ handle answer handle' answer', call handle answer = call handle' answer' →
      answer = answer') (h : Worked databaseId token call refusal r log) (value : α) :
    r = .ok value ↔ ∃ handle, call handle (.ok value) ∈ log := by
  have hlooks : ∀ {l handle answer}, Looks l → call handle answer ∉ l := by
    intro l handle answer hl hmem
    cases (ConnectionOp.callsEngine_of_looks (hl _ hmem)).symm.trans (hengine handle answer)
  have hmid : ∀ {l c l' handle}, Looks l → Looks l' → call handle (.ok value) ∈ l ++ c :: l' →
      call handle (.ok value) = c := by
    intro l c l' handle hl hl' hmem
    rcases List.mem_append.mp hmem with hmem | hmem
    · exact absurd hmem (hlooks hl)
    · exact (List.mem_cons.mp hmem).resolve_right (hlooks hl')
  cases h with
  | refused => exact iff_of_false nofun (by simp)
  | missing _ hlog => exact iff_of_false nofun fun ⟨_, hmem⟩ => hlooks hlog hmem
  | found _ hlog _ hcalled =>
    cases hcalled with
    | unavailable hlater =>
      exact iff_of_false nofun fun ⟨_, hmem⟩ => hlooks (hlog.append hlater) hmem
    | @done before later value' hbefore hlater =>
      rw [← List.append_assoc]
      constructor
      · rintro ⟨⟩
        exact ⟨_, List.mem_append_right _ List.mem_cons_self⟩
      · rintro ⟨_, hmem⟩
        cases hinj _ _ _ _ (hmid (hlog.append hbefore) hlater hmem)
        rfl
    | @failed before later error cancelled hbefore hlater =>
      rw [← List.append_assoc]
      refine iff_of_false nofun fun ⟨_, hmem⟩ => ?_
      cases hinj _ _ _ _ (hmid (hlog.append hbefore) hlater hmem)

-- ---------------------------------------------------------------------------
-- HTTP
-- ---------------------------------------------------------------------------

namespace Http

theorem settled_ok {message : String} {expired : Bool} {r : Except String α} {value : α} :
    (settled message expired r).1 = .ok value ↔ r = .ok value := by
  cases r with
  | ok value => simp [settled]
  | error error =>
    simp only [settled, reduceCtorEq, iff_false]
    split <;> simp

theorem Worked.returned (config : Config) (x : Execution) {r : Except String x.Value}
    (h : Worked request (x.call config) r log) (value : x.Value) :
    r = .ok value ↔ x.call config (.ok value) ∈ log := by
  have hmem : x.call config (.ok value) ∈ log ↔
      x.call config (.ok value) ∈ log.filter isEngineCall := by
    rw [List.mem_filter, x.isEngineCall_call]
    simp
  rw [hmem]
  obtain ⟨hnone, message, rfl⟩ | ⟨answer, hone, rfl⟩ := h.calls
  · rw [hnone]
    exact iff_of_false nofun List.not_mem_nil
  · rw [hone, List.mem_singleton]
    constructor
    · intro h
      cases answer with
      | error => cases h
      | ok => cases h; rfl
    · intro h
      cases x.call_inj h
      rfl

end Http

/-- In every order of the timer, cancellation and the worker, each of the four
tasks hands on a value exactly if the engine call was made and returned it, and
not before the worker is done. -/
theorem races_report_the_engine (E : Engine) (service : Service) (config : Http.Config) :
    (∀ databaseId query values readOnly limits token,
      Faithful (executeSelected E service databaseId query values readOnly limits token)
        (fun value log => ∃ handle, queryCall service query values limits handle (.ok value) ∈ log)
        (timed "query timeout exceeded")) ∧
    (∀ databaseId statements token,
      Faithful (executeSelectedTransaction service databaseId statements token)
        (fun values log => ∃ handle, transactionCall service statements handle (.ok values) ∈ log)
        (timed "transaction timeout exceeded")) ∧
    (∀ request statement limits,
      Faithful (Http.oneWorker request statement limits)
        (fun value log => Http.oneCall statement limits (.ok value) ∈ log)
        (fun expired r => (Http.settled Http.queryTimedOut expired r).1)) ∧
    ∀ request statements,
      Faithful (Http.batchWorker request statements config.queryLimits)
        (fun values log => Http.batchCall statements config.queryLimits (.ok values) ∈ log)
        (fun expired r => (Http.settled Http.transactionTimedOut expired r).1) := by
  refine ⟨?_, ?_, ?_, ?_⟩
  · intro databaseId query values readOnly limits token
    refine .of_performs (executeSelected_performs E service) ?_ fun _ _ _ => timed_ok
    intro r log h
    refine h.returned (fun _ _ => rfl) ?_
    exact fun _ _ _ _ h => eq_of_heq (Event.mk.inj h).2
  · intro databaseId statements token
    refine .of_performs (executeSelectedTransaction_performs service) ?_ fun _ _ _ => timed_ok
    intro r log h
    refine h.returned (fun _ _ => rfl) ?_
    exact fun _ _ _ _ h => eq_of_heq (Event.mk.inj h).2
  · intro request statement limits
    refine .of_performs (Http.oneWorker_performs request statement limits) ?_
      fun _ _ _ => Http.settled_ok
    exact fun r log h => Http.Worked.returned config (.one statement limits) h
  · intro request statements
    refine .of_performs (Http.batchWorker_performs request statements config.queryLimits) ?_
      fun _ _ _ => Http.settled_ok
    exact fun r log h => Http.Worked.returned config (.batch statements) h

end NostdbServer
