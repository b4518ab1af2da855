import NostdbServer.Http.Imports
import Mathlib.Data.List.Infix

/-!
# Queries through HTTP

`execute_one` and `execute_batch`: a worker that calls the engine once, and the
task that waits for it. Between the two an engine error is a text; a prefix
tells its kind, and a text with the words of a cancellation anywhere in it is
taken for a timeout.
-/

namespace NostdbServer.Http

open Effects

-- ---------------------------------------------------------------------------
-- Texts
-- ---------------------------------------------------------------------------

/-- `text.contains(part)` -/
def containsText (text part : String) : Bool := decide (part.toList <:+: text.toList)

/-- What follows `start` at the beginning of `text`. -/
def stripStart (start text : String) : Option String :=
  if start.toList <+: text.toList then
    some (String.ofList (text.toList.drop start.toList.length))
  else none

def cancelledText : String := "query execution cancelled"

structure DatabaseFailure where
  code : Option QueryErrorCode
  message : String

def DatabaseFailure.from : DatabaseError → DatabaseFailure
  | .query code message => ⟨some code, message⟩
  | .storage _ message => ⟨none, message⟩

def DatabaseFailure.kind (failure : DatabaseFailure) : String :=
  match failure.code with
  | some .resourceLimit => "resource_limit|"
  | some .other => "query_error|"
  | none => "database_error|"

def DatabaseFailure.display (failure : DatabaseFailure) : String :=
  failure.kind ++ failure.message

def databaseMessage (message : String) : ApiError :=
  match stripStart "resource_limit|" message with
  | some message => ⟨.tooManyRequests, "resource_limit", message⟩
  | none =>
  match stripStart "query_error|" message with
  | some message => ⟨.badRequest, "query_error", message⟩
  | none =>
  match stripStart "database_error|" message with
  | some message => ⟨.internalServerError, "database_error", message⟩
  | none => .internal message

/-- A text without the separator that lies in two texts around one lies in one
of them. -/
theorem infix_split {p k m : List Char} {c : Char} (hc : c ∉ p) (h : p <:+: k ++ c :: m) :
    p <:+: k ∨ p <:+: m := by
  induction k with
  | nil =>
    rcases List.infix_cons_iff.mp h with hprefix | hinfix
    · cases p with
      | nil => exact .inl (List.nil_infix)
      | cons x p =>
        obtain ⟨rfl, -⟩ := List.cons_prefix_cons.mp hprefix
        exact absurd List.mem_cons_self hc
    · exact .inr hinfix
  | cons x k ih =>
    rcases List.infix_cons_iff.mp h with hprefix | hinfix
    · left
      by_cases hlength : p.length ≤ (x :: k).length
      · exact (List.prefix_of_prefix_length_le hprefix (List.prefix_append _ _) hlength).isInfix
      · have htext : x :: k ++ [c] <+: x :: k ++ c :: m := ⟨m, by simp⟩
        have hk : x :: k ++ [c] <+: p := by
          refine List.prefix_of_prefix_length_le htext hprefix ?_
          simp only [List.length_append, List.length_cons, List.length_nil] at hlength ⊢
          omega
        exact absurd (hk.subset (by simp)) hc
    · exact (ih hinfix).imp_left fun h => h.trans (List.suffix_cons x k).isInfix

/-- The prefix of the kind does not make a message look like a cancellation. -/
theorem containsText_display (failure : DatabaseFailure) :
    containsText failure.display cancelledText = containsText failure.message cancelledText := by
  have hsplit : ∀ (kind k message : String), kind.toList = k.toList ++ ['|'] →
      ¬ cancelledText.toList <:+: k.toList →
      (cancelledText.toList <:+: kind.toList ++ message.toList ↔
        cancelledText.toList <:+: message.toList) := by
    intro kind k message hkind hk
    rw [hkind, List.append_assoc, List.singleton_append]
    constructor
    · exact fun h => (infix_split (by decide) h).resolve_left hk
    · exact fun h => h.trans ⟨k.toList ++ ['|'], [], by simp⟩
  unfold containsText
  refine decide_eq_decide.mpr ?_
  obtain ⟨code, message⟩ := failure
  rw [DatabaseFailure.display, String.toList_append]
  match code with
  | some .resourceLimit => exact hsplit "resource_limit|" "resource_limit" message (by decide) (by decide)
  | some .other => exact hsplit "query_error|" "query_error" message (by decide) (by decide)
  | none => exact hsplit "database_error|" "database_error" message (by decide) (by decide)

/-- The response to an engine error, by its kind alone. -/
def byKind : DatabaseError → ApiError
  | .query .resourceLimit message => ⟨.tooManyRequests, "resource_limit", message⟩
  | .query .other message => ⟨.badRequest, "query_error", message⟩
  | .storage _ message => ⟨.internalServerError, "database_error", message⟩

theorem databaseMessage_display (error : DatabaseError) :
    databaseMessage (DatabaseFailure.from error).display = byKind error := by
  have hstrip : ∀ start message, stripStart start (start ++ message) = some message := by
    intro start message
    simp [stripStart]
  have hother : ∀ (c c' : Char) (start kind message : String), c ≠ c' →
      start.toList.head? = some c → kind.toList.head? = some c' →
      stripStart start (kind ++ message) = none := by
    intro c c' start kind message hne hstart hkind
    obtain ⟨s, hs⟩ := List.head?_eq_some_iff.mp hstart
    obtain ⟨k, hk⟩ := List.head?_eq_some_iff.mp hkind
    simp [stripStart, hs, hk, hne]
  match error with
  | .query .resourceLimit message =>
    simp only [databaseMessage, DatabaseFailure.display, DatabaseFailure.from, DatabaseFailure.kind,
      hstrip, byKind]
  | .query .other message =>
    have hfirst := hother 'r' 'q' "resource_limit|" "query_error|" message (by decide) rfl rfl
    simp only [databaseMessage, DatabaseFailure.display, DatabaseFailure.from, DatabaseFailure.kind,
      hfirst, hstrip, byKind]
  | .storage kind message =>
    have hfirst := hother 'r' 'd' "resource_limit|" "database_error|" message (by decide) rfl rfl
    have hsecond := hother 'q' 'd' "query_error|" "database_error|" message (by decide) rfl rfl
    simp only [databaseMessage, DatabaseFailure.display, DatabaseFailure.from, DatabaseFailure.kind,
      hfirst, hsecond, hstrip, byKind]

-- ---------------------------------------------------------------------------
-- Worker and task
-- ---------------------------------------------------------------------------

/-- One call of the engine, if there is a Database in the slot. -/
def withDatabase (engine : Prog http String (Except DatabaseError α)) : Prog http String α := do
  match ← Prog.call (S := http) (.storage .peek) with
  | none => .fail "database is temporarily unavailable"
  | some _ =>
    match ← engine with
    | .ok value => pure value
    | .error error => .fail (DatabaseFailure.from error).display

def worker (request : Nat) (engine : Prog http String (Except DatabaseError α)) :
    Prog http String α := do
  let late : Bool ← Prog.call (S := http) (.pastDeadline request)
  if late then .fail cancelledText
  else
    Prog.call (S := http) (.storage .lock)
    let result ← (withDatabase engine).attempt
    Prog.call (S := http) (.storage .unlock)
    Prog.ofExcept result

def timeoutError (message : String) : Prog http ApiError α := do
  Prog.call (S := http) (.count .timeouts)
  .fail ⟨.requestTimeout, "query_timeout", message⟩

/-- `tokio::time::timeout` around the worker, and `finish_timeout` if it fires. -/
def awaitWorker (request : Nat) (message : String) (worker : Prog http String α) :
    Prog http ApiError α := do
  let result ← worker.attempt
  let expired : Bool ← Prog.call (S := http) (.join request)
  match result with
  | .ok value => pure value
  | .error error =>
    if containsText error cancelledText then timeoutError message
    else if expired then .fail (databaseMessage error)
    else
      Prog.call (S := http) (.count .queryErrors)
      .fail (databaseMessage error)

def queryTimedOut : String := "query exceeded the configured wall-clock timeout"

def transactionTimedOut : String := "transaction exceeded the configured wall-clock timeout"

/-- The worker of `execute_one`. -/
def oneWorker (request : Nat) (statement : Statement) (limits : QueryLimits) :
    Prog http String StatementResult :=
  worker request (Prog.call (S := http) (.storage (.execute statement limits)))

/-- The worker of `execute_batch`. -/
def batchWorker (request : Nat) (statements : List Statement) (limits : QueryLimits) :
    Prog http String (List StatementResult) :=
  worker request (Prog.call (S := http) (.storage (.executeTransaction statements limits)))

def executeOne (request : Nat) (statement : Statement) (limits : QueryLimits) :
    Prog http ApiError StatementResult := do
  Prog.call (S := http) (.count .queries)
  awaitWorker request queryTimedOut (oneWorker request statement limits)

def executeBatch (config : Config) (request : Nat) (statements : List Statement) :
    Prog http ApiError (List StatementResult) := do
  Prog.call (S := http) (.count .queries)
  awaitWorker request transactionTimedOut (batchWorker request statements config.queryLimits)

-- ---------------------------------------------------------------------------
-- What they do
-- ---------------------------------------------------------------------------

/-- The events of a worker. `call` is that of the engine call with its answer. -/
inductive Worked (request : Nat) (call : Except DatabaseError α → Event http) :
    Except String α → List (Event http) → Prop
  | late : Worked request call (.error cancelledText) [⟨.pastDeadline request, true⟩]
  | closed : Worked request call (.error "database is temporarily unavailable")
      [⟨.pastDeadline request, false⟩, ⟨.storage .lock, ()⟩, ⟨.storage .peek, none⟩,
        ⟨.storage .unlock, ()⟩]
  | called (database : Database) (answer : Except DatabaseError α) :
      Worked request call (answer.mapError fun error => (DatabaseFailure.from error).display)
        [⟨.pastDeadline request, false⟩, ⟨.storage .lock, ()⟩, ⟨.storage .peek, some database⟩,
          call answer, ⟨.storage .unlock, ()⟩]

section
variable {request : Nat} {call : Except DatabaseError α → Event http}

theorem withDatabase_performs {engine : Prog http String (Except DatabaseError α)}
    (hengine : Performs engine fun r log => ∃ answer, r = .ok answer ∧ log = [call answer]) :
    Performs (withDatabase engine) fun r log =>
      (r = .error "database is temporarily unavailable" ∧ log = [⟨.storage .peek, none⟩]) ∨
      ∃ database answer, r = answer.mapError (fun error => (DatabaseFailure.from error).display) ∧
        log = [⟨.storage .peek, some database⟩, call answer] := by
  refine Performs.step fun slot => ?_
  cases slot with
  | none => exact Performs.fail (.inl ⟨rfl, rfl⟩)
  | some database =>
    refine Performs.bind hengine ?_ ?_
    · rintro (error | value) _ ⟨_, ⟨⟩, rfl⟩
      · exact Performs.fail (.inr ⟨database, .error error, rfl, rfl⟩)
      · exact Performs.pure (.inr ⟨database, .ok value, rfl, rfl⟩)
    · rintro _ _ ⟨_, ⟨⟩, -⟩

theorem worker_performs {engine : Prog http String (Except DatabaseError α)}
    (hengine : Performs engine fun r log => ∃ answer, r = .ok answer ∧ log = [call answer]) :
    Performs (worker request engine) (Worked request call) := by
  refine Performs.step fun late => ?_
  cases late with
  | true => exact Performs.fail .late
  | false =>
    refine Performs.step fun _ => Performs.attempt_bind (withDatabase_performs hengine) ?_
    rintro _ _ (⟨rfl, rfl⟩ | ⟨database, answer, rfl, rfl⟩)
    · exact Performs.step fun _ => Performs.fail .closed
    · exact Performs.step fun _ => Performs.ofExcept (.called database answer)

/-- The answer of a task to what its worker came to, and the counters it adds to. -/
def settled (message : String) (expired : Bool) :
    Except String α → Except ApiError α × List Counter
  | .ok value => (.ok value, [])
  | .error error =>
    if containsText error cancelledText then
      (.error ⟨.requestTimeout, "query_timeout", message⟩, [.timeouts])
    else (.error (databaseMessage error), if expired then [] else [.queryErrors])

/-- What a task has done once it answers: its worker is done, and the answer is
settled by that and by whether the timer had fired. -/
def Awaited (request : Nat) (message : String) (R : Except String α → List (Event http) → Prop)
    (r : Except ApiError α) (log : List (Event http)) : Prop :=
  ∃ result workerLog expired, R result workerLog ∧ r = (settled message expired result).1 ∧
    log = workerLog ++ ⟨.join request, expired⟩ ::
      (settled message expired result).2.map fun counter => ⟨.count counter, ()⟩

theorem awaitWorker_performs {message : String} {worker : Prog http String α}
    {R : Except String α → List (Event http) → Prop} (h : Performs worker R) :
    Performs (awaitWorker request message worker) (Awaited request message R) := by
  refine Performs.attempt_bind h fun result l hl => Performs.step fun expired => ?_
  cases result with
  | ok value => exact Performs.pure ⟨_, l, expired, hl, rfl, rfl⟩
  | error error =>
    by_cases herror : containsText error cancelledText = true
    · dsimp only
      rw [if_pos herror]
      refine Performs.step ?_
      rintro ⟨⟩
      refine Performs.fail ⟨_, l, expired, hl, ?_, ?_⟩ <;> simp [settled, herror]
    · dsimp only
      rw [if_neg herror]
      cases expired with
      | true => refine Performs.fail ⟨_, l, true, hl, ?_, ?_⟩ <;> simp [settled, herror]
      | false =>
        refine Performs.step ?_
        rintro ⟨⟩
        refine Performs.fail ⟨_, l, false, hl, ?_, ?_⟩ <;> simp [settled, herror]

end

/-- The event of an engine call of `execute_one`. -/
def oneCall (statement : Statement) (limits : QueryLimits)
    (answer : Except DatabaseError StatementResult) : Event http :=
  ⟨.storage (.execute statement limits), answer⟩

/-- The event of an engine call of `execute_batch`. -/
def batchCall (statements : List Statement) (limits : QueryLimits)
    (answer : Except DatabaseError (List StatementResult)) : Event http :=
  ⟨.storage (.executeTransaction statements limits), answer⟩

theorem oneWorker_performs (request : Nat) (statement : Statement) (limits : QueryLimits) :
    Performs (oneWorker request statement limits) (Worked request (oneCall statement limits)) :=
  worker_performs (Performs.op (S := http) fun answer => Performs.pure ⟨answer, rfl, rfl⟩)

theorem batchWorker_performs (request : Nat) (statements : List Statement) (limits : QueryLimits) :
    Performs (batchWorker request statements limits)
      (Worked request (batchCall statements limits)) :=
  worker_performs (Performs.op (S := http) fun answer => Performs.pure ⟨answer, rfl, rfl⟩)

/-- The two routes to the engine. -/
inductive Execution
  | one (statement : Statement) (limits : QueryLimits)
  | batch (statements : List Statement)

namespace Execution

def Value : Execution → Type
  | .one _ _ => StatementResult
  | .batch _ => List StatementResult

section
variable (config : Config) (request : Nat)

def run : (x : Execution) → Prog http ApiError x.Value
  | .one statement limits => executeOne request statement limits
  | .batch statements => executeBatch config request statements

def timedOut : Execution → String
  | .one _ _ => queryTimedOut
  | .batch _ => transactionTimedOut

/-- The event of the engine call. -/
def call : (x : Execution) → Except DatabaseError x.Value → Event http
  | .one statement limits => oneCall statement limits
  | .batch statements => batchCall statements config.queryLimits

theorem run_performs (x : Execution) :
    Performs (x.run config request) fun r log => ∃ l, log = ⟨.count .queries, ()⟩ :: l ∧
      Awaited request x.timedOut (Worked request (x.call config)) r l := by
  cases x with
  | one statement limits =>
    refine Performs.step fun ⟨⟩ => ?_
    exact (awaitWorker_performs (oneWorker_performs request statement limits)).mono
      fun r l hl => ⟨l, rfl, hl⟩
  | batch statements =>
    refine Performs.step fun ⟨⟩ => ?_
    exact (awaitWorker_performs (batchWorker_performs request statements _)).mono
      fun r l hl => ⟨l, rfl, hl⟩

end

end Execution

/-- An engine call, as opposed to the steps around it. -/
def isEngineCall (e : Event http) : Bool :=
  match e with
  | ⟨.storage (.execute _ _), _⟩ | ⟨.storage (.executeTransaction _ _), _⟩ => true
  | _ => false

theorem Execution.isEngineCall_call {config : Config} (x : Execution)
    (answer : Except DatabaseError x.Value) : isEngineCall (x.call config answer) = true := by
  cases x <;> rfl

theorem Execution.call_inj {config : Config} (x : Execution)
    {answer answer' : Except DatabaseError x.Value}
    (h : x.call config answer = x.call config answer') : answer = answer' := by
  cases x <;> exact eq_of_heq (Event.mk.inj h).2

/-- The engine calls of a worker, and what it comes to by them. -/
theorem Worked.calls {config : Config} {x : Execution} {r : Except String x.Value}
    (h : Worked request (x.call config) r log) :
    (log.filter isEngineCall = [] ∧ ∃ message, r = .error message) ∨
    ∃ answer, log.filter isEngineCall = [x.call config answer] ∧
      r = answer.mapError fun error => (DatabaseFailure.from error).display := by
  cases h with
  | late => exact .inl ⟨rfl, _, rfl⟩
  | closed => exact .inl ⟨rfl, _, rfl⟩
  | called database answer =>
    refine .inr ⟨answer, ?_, rfl⟩
    cases x <;> rfl

/-- What the task does itself, as opposed to its worker. -/
def isOwn (e : Event http) : Bool :=
  match e with
  | ⟨.count _, _⟩ | ⟨.join _, _⟩ => true
  | _ => false

theorem Worked.own {config : Config} {x : Execution} {r : Except String x.Value}
    (h : Worked request (x.call config) r log) : ∀ e ∈ log, isOwn e = false := by
  cases h with
  | late => simp [isOwn]
  | closed => simp [isOwn]
  | called database answer => cases x <;> simp [isOwn, Execution.call, oneCall, batchCall]

/-- What an execution has answered and counted, by its engine call. -/
theorem Execution.answered {config : Config} {x : Execution} {answer : Except DatabaseError x.Value}
    {q : Prog http ApiError x.Value} {r : Except ApiError x.Value}
    (hrun : (x.run config request).Run log q) (hq : q.result? = some r)
    (hcall : x.call config answer ∈ log) (hjoin : ⟨.join request, false⟩ ∈ log) :
    let s := settled x.timedOut false
      (answer.mapError fun error => (DatabaseFailure.from error).display)
    r = s.1 ∧ (⟨.count .timeouts, ()⟩ ∈ log ↔ .timeouts ∈ s.2) := by
  obtain ⟨l, rfl, result, workerLog, expired, hworked, rfl, rfl⟩ :=
    (x.run_performs config request).run hrun hq
  have hengine : isEngineCall (x.call config answer) = true := x.isEngineCall_call answer
  have hown : ∀ e, isOwn e = true → e ∉ workerLog := fun e he hmem => by
    cases he.symm.trans (hworked.own e hmem)
  -- the task has joined once, and before its timer fired
  have hexpired : expired = false := by
    simp only [List.mem_cons, List.mem_append, List.mem_map] at hjoin
    obtain h | h | h | ⟨counter, -, h⟩ := hjoin
    · cases h
    · exact absurd h (hown _ rfl)
    · exact (eq_of_heq (Event.mk.inj h).2).symm
    · cases h
  subst hexpired
  have hresult : result = answer.mapError fun error => (DatabaseFailure.from error).display := by
    have hmem : x.call config answer ∈ workerLog := by
      simp only [List.mem_cons, List.mem_append, List.mem_map] at hcall
      obtain h | h | h | ⟨counter, -, h⟩ := hcall
      · rw [h] at hengine
        cases hengine
      · exact h
      · rw [h] at hengine
        cases hengine
      · rw [← h] at hengine
        cases hengine
    have hmem := List.mem_filter.mpr ⟨hmem, hengine⟩
    obtain ⟨hnone, -⟩ | ⟨answer', hone, rfl⟩ := hworked.calls
    · rw [hnone] at hmem
      cases hmem
    · rw [hone, List.mem_singleton] at hmem
      rw [x.call_inj hmem]
  subst hresult
  refine ⟨rfl, ?_⟩
  simp only [List.mem_cons, List.mem_append, List.mem_map]
  constructor
  · rintro (h | h | h | ⟨counter, hcounter, h⟩)
    · cases h
    · exact absurd h (hown _ rfl)
    · cases h
    · cases h
      exact hcounter
  · exact fun h => .inr (.inr (.inr ⟨_, h, rfl⟩))

/-- An engine error of an execution whose worker started before its deadline and
ended before the timer fired is answered by its kind and with its own message,
and no timeout is counted, exactly if the message does not contain the words of
a cancellation. -/
theorem engine_error_answered_by_kind_iff (config : Config) (request : Nat) (x : Execution)
    (error : DatabaseError) {log : List (Event http)} {q : Prog http ApiError x.Value}
    {r : Except ApiError x.Value} (hrun : (x.run config request).Run log q)
    (hq : q.result? = some r) (hcall : x.call config (.error error) ∈ log)
    (hjoin : ⟨.join request, false⟩ ∈ log) :
    (r = .error (byKind error) ∧ ⟨.count .timeouts, ()⟩ ∉ log) ↔
      containsText (DatabaseFailure.from error).message cancelledText = false := by
  obtain ⟨rfl, hcount⟩ := Execution.answered hrun hq hcall hjoin
  rw [hcount]
  simp only [Except.mapError, settled, containsText_display, databaseMessage_display]
  cases hcontains : containsText (DatabaseFailure.from error).message cancelledText with
  | true =>
    refine iff_of_false ?_ nofun
    rintro ⟨-, h⟩
    simp at h
  | false => simp

/-- An engine that cannot read any query and says so with `message`. -/
def Engine.refusing (message : String) : Engine :=
  { Engine.plain with
    execute := fun _ _ _ => .error (.query .other message)
    executeTransaction := fun _ _ _ => .error (.query .other message) }

/-- An error of another text. -/
theorem engine_error_answered_by_kind_unknown_variable :
    let world := httpWorld (Engine.refusing "unknown variable x") .plain
    let x := Execution.one ⟨"RETURN x", []⟩ Config.plain.queryLimits
    ∃ r, (world.run (List.replicate 8 (.of .ok)) (x.run .plain 0) (.serving [7])).1.result? = some r ∧
      r = .error ⟨.badRequest, "query_error", "unknown variable x"⟩ := by
  refine ⟨_, rfl, ?_⟩
  exact ((engine_error_answered_by_kind_iff .plain 0
    (.one ⟨"RETURN x", []⟩ Config.plain.queryLimits) (.query .other "unknown variable x")
    ((httpWorld (Engine.refusing "unknown variable x") .plain).run_trace
      (List.replicate 8 (.of .ok)) _ (.serving [7])) rfl (List.mem_of_getElem? (i := 4) rfl)
    (List.mem_of_getElem? (i := 6) rfl)).mpr (by decide +kernel)).1

/-- The text of an error quotes the query, and the query has the words of a
cancellation in it: the answer is a timeout, and is counted as one. -/
theorem engine_error_answered_as_timeout :
    let world := httpWorld (Engine.refusing "unknown variable `query execution cancelled`") .plain
    let run := world.run (List.replicate 8 (.of .ok))
      (executeOne 0 ⟨"RETURN `query execution cancelled`", []⟩ Config.plain.queryLimits)
      (.serving [7])
    run.1.result? = some (.error ⟨.requestTimeout, "query_timeout",
        "query exceeded the configured wall-clock timeout"⟩) ∧
      run.2.metrics .timeouts = 1 := by
  exact ⟨rfl, rfl⟩

end NostdbServer.Http
