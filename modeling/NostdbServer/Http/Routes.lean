import NostdbServer.Http.Queries
import NostdbServer.Http.Response

/-!
# The query and session routes

Each request runs its route as a program of its own; any number of them take
turns on the shared state. A request keeps the number it arrived with, which is
never given again.
-/

namespace NostdbServer.Http

open Effects

-- ---------------------------------------------------------------------------
-- Reading a query
-- ---------------------------------------------------------------------------

section
variable (config : Config)

def parseQuery (body : Bytes) : Except ApiError QueryRequest :=
  if body.length > config.requestBodyBytes then
    .error ⟨.payloadTooLarge, "request_too_large", "JSON request body exceeds the configured limit"⟩
  else (config.parseQuery body).mapError .badRequest

def requireReadOnly (request : QueryRequest) : Except ApiError Unit :=
  if request.readOnly then
    (config.prepare request.query).mapError fun error =>
      ⟨.badRequest, "query_error", s!"read-only query required: {error}"⟩
  else .ok ()

/-- A limit of the request, at most the configured one. -/
def atMost (requested : Option Nat) (configured : Nat) : Nat :=
  min (requested.getD configured) configured

def RequestLimits.effective (limits : RequestLimits) : Except ApiError (QueryLimits × Nat) :=
  let configured := config.queryLimits
  let timeout := atMost limits.timeoutMs config.queryTimeout
  if timeout = 0 then .error (.badRequest "timeout_ms must be positive")
  else .ok (⟨atMost limits.maxRows configured.maxRows,
    atMost limits.maxMemoryBytes configured.maxMemoryBytes,
    atMost limits.maxOperations configured.maxOperations,
    atMost limits.maxTraversals configured.maxTraversals⟩, timeout)

def effectiveLimits : Option RequestLimits → Except ApiError (QueryLimits × Nat)
  | none => .ok (config.queryLimits, config.queryTimeout)
  | some limits => limits.effective config

/-- The checks of `query` and `session_query` before anything is shared. -/
def acceptQuery (body : Bytes) : Except ApiError (QueryRequest × Statement) := do
  let request ← parseQuery config body
  requireReadOnly config request
  let values ← (parameters config.floatOfInt request.parameters).mapError .badRequest
  pure (request, ⟨request.query, values⟩)

-- ---------------------------------------------------------------------------
-- Routes
-- ---------------------------------------------------------------------------

/-- What a route answers with. -/
inductive Reply
  | executed (result : StatementResult) (streaming : Bool)
  | created (id : String)
  | deleted
  | active
  | queued (statementCount : Nat)
  | committed (results : List StatementResult)
  | rolledBack

def Reply.response (floatText : UInt64 → String) : Reply → Response
  | .executed result streaming => Http.response floatText result streaming
  | .created id => json .created (.object [("session_id", .string id)])
  | .deleted => ⟨.noContent, "", []⟩
  | .active => json .ok (.object [("status", .string "active")])
  | .queued count =>
    json .ok (.object [("statement_count", .nat count), ("status", .string "queued")])
  | .committed results =>
    json .ok (.object [("results", .array (results.map statementJson)),
      ("status", .string "committed")])
  | .rolledBack => json .ok (.object [("status", .string "rolled_back")])
where
  json (status : StatusCode) (value : Json) : Response :=
    ⟨status, "application/json", [value.text floatText]⟩

def inSession (o : SessionOp) : Prog http ApiError o.Ans := Prog.call (S := http) (.session o)

section
variable (request : Nat)

/-- `execute_one` with the limits of the request. -/
def executeLimited (query : QueryRequest) (statement : Statement) : Prog http ApiError Reply := do
  let (limits, _) ← Prog.ofExcept (effectiveLimits config query.limits)
  let result ← executeOne request statement limits
  pure (.executed result query.stream)

def query (body : Bytes) : Prog http ApiError Reply := do
  let (query, statement) ← Prog.ofExcept (acceptQuery config body)
  executeLimited config request query statement

def createSession : Prog http ApiError Reply := do
  let answer ← inSession .create
  let id ← Prog.ofExcept answer
  Prog.call (S := http) (.count .sessionsCreated)
  pure (.created id)

def deleteSession (id : String) : Prog http ApiError Reply := do
  let answer ← inSession (.delete id)
  Prog.ofExcept answer
  pure .deleted

def begin (id : String) : Prog http ApiError Reply := do
  let answer ← inSession (.begin id)
  Prog.ofExcept answer
  pure .active

def sessionQuery (id : String) (body : Bytes) : Prog http ApiError Reply := do
  let (query, statement) ← Prog.ofExcept (acceptQuery config body)
  let answer ← inSession (.place id statement query.limits.isSome)
  match ← Prog.ofExcept answer with
  | .queued count => pure (.queued count)
  | .immediate => executeLimited config request query statement

def commit (id : String) : Prog http ApiError Reply := do
  let answer ← inSession (.commit id)
  let statements ← Prog.ofExcept answer
  let results ← executeBatch config request statements
  pure (.committed results)

def rollback (id : String) : Prog http ApiError Reply := do
  let answer ← inSession (.rollback id)
  Prog.ofExcept answer
  pure .rolledBack

end

inductive Request
  | query (body : Bytes)
  | createSession
  | deleteSession (id : String)
  | begin (id : String)
  | sessionQuery (id : String) (body : Bytes)
  | commit (id : String)
  | rollback (id : String)

def Request.route (n : Nat) : Request → Prog http ApiError Reply
  | .query body => Http.query config n body
  | .createSession => Http.createSession
  | .deleteSession id => Http.deleteSession id
  | .begin id => Http.begin id
  | .sessionQuery id body => Http.sessionQuery config n id body
  | .commit id => Http.commit config n id
  | .rollback id => Http.rollback id

end

-- ---------------------------------------------------------------------------
-- What a request does
-- ---------------------------------------------------------------------------

/-- A step of an execution. -/
def HttpOp.Runs (config : Config) (x : Execution) : HttpOp → Prop
  | .storage (.execute statement limits) => x = .one statement limits
  | .storage (.executeTransaction statements limits) =>
    x = .batch statements ∧ limits = config.queryLimits
  | .storage .lock | .storage .peek | .storage .unlock => True
  | .count _ | .pastDeadline _ | .join _ => True
  | _ => False

section
variable {config : Config} {n : Nat}

theorem worker_only {P : HttpOp → Prop} {engine : Prog http String (Except DatabaseError α)}
    (hlate : P (.pastDeadline n)) (hlock : P (.storage .lock)) (hpeek : P (.storage .peek))
    (hunlock : P (.storage .unlock)) (hengine : engine.Only P) : (worker n engine).Only P := by
  refine Prog.Only.step hlate fun late => ?_
  cases late with
  | true => trivial
  | false =>
    refine Prog.Only.step hlock fun _ => Prog.Only.bind (Prog.Only.attempt ?_) fun result =>
      Prog.Only.step hunlock fun _ => by cases result <;> trivial
    refine Prog.Only.step hpeek fun slot => ?_
    cases slot with
    | none => trivial
    | some database => exact Prog.Only.bind hengine fun answer => by cases answer <;> trivial

theorem awaitWorker_only {P : HttpOp → Prop} {worker : Prog http String α} {message : String}
    (hjoin : P (.join n)) (hcount : ∀ counter, P (.count counter)) (h : worker.Only P) :
    (awaitWorker n message worker).Only P := by
  refine Prog.Only.bind (Prog.Only.attempt h) fun result => Prog.Only.step hjoin fun expired => ?_
  cases result with
  | ok value => trivial
  | error error =>
    dsimp only
    split
    · exact Prog.Only.step (hcount _) fun _ => trivial
    · split
      · trivial
      · exact Prog.Only.step (hcount _) fun _ => trivial

theorem Execution.run_only (config : Config) (n : Nat) (x : Execution) :
    (x.run config n).Only (HttpOp.Runs config x) := by
  cases x with
  | one statement limits =>
    refine Prog.Only.step trivial fun _ => awaitWorker_only trivial (fun _ => trivial) ?_
    exact worker_only trivial trivial trivial trivial ⟨rfl, fun _ => trivial⟩
  | batch statements =>
    refine Prog.Only.step trivial fun _ => awaitWorker_only trivial (fun _ => trivial) ?_
    exact worker_only trivial trivial trivial trivial ⟨⟨rfl, rfl⟩, fun _ => trivial⟩

end

/-- What a request has done at some point of its route. -/
inductive Conduct (config : Config) : Request → List (Event http) → Prop
  | arrived : Conduct config request []
  | queried (haccept : acceptQuery config body = .ok (asked, statement))
      (hlog : ∀ e ∈ log, e.op.Runs config (.one statement limits)) :
      Conduct config (.query body) log
  | created (hlog : ∀ e ∈ log, e.op = .count .sessionsCreated) :
      Conduct config .createSession (⟨.session .create, ans⟩ :: log)
  | deleted {id : String} : Conduct config (.deleteSession id) [⟨.session (.delete id), ans⟩]
  | begun {id : String} : Conduct config (.begin id) [⟨.session (.begin id), ans⟩]
  | placed {id : String} (haccept : acceptQuery config body = .ok (asked, statement))
      (hlog : ∀ e ∈ log, ans = .ok .immediate ∧
        ∃ limits, e.op.Runs config (.one statement limits)) :
      Conduct config (.sessionQuery id body)
        (⟨.session (.place id statement asked.limits.isSome), ans⟩ :: log)
  | committed {id : String} (hlog : ∀ e ∈ log, ∃ statements, ans = .ok statements ∧
        e.op.Runs config (.batch statements)) :
      Conduct config (.commit id) (⟨.session (.commit id), ans⟩ :: log)
  | rolledBack {id : String} : Conduct config (.rollback id) [⟨.session (.rollback id), ans⟩]

section
variable {config : Config} {n : Nat} {log : List (Event http)} {rest : Prog http ApiError Reply}

theorem run_ended {p : Prog http ApiError Reply} (h : p.Run log rest) (hp : p.result?.isSome) :
    log = [] := by
  cases h with
  | refl => rfl
  | step => cases hp

theorem executeLimited_run {query : QueryRequest} {statement : Statement}
    (h : (executeLimited config n query statement).Run log rest) :
    ∃ limits, ∀ e ∈ log, e.op.Runs config (.one statement limits) := by
  unfold executeLimited at h
  cases hlimits : effectiveLimits config query.limits with
  | error error =>
    rw [hlimits] at h
    cases h
    exact ⟨config.queryLimits, nofun⟩
  | ok limits =>
    rw [hlimits] at h
    change ((executeOne n statement limits.1).bind _).Run log rest at h
    refine ⟨limits.1, (h.only ?_).1⟩
    exact Prog.Only.bind (Execution.run_only config n (.one statement limits.1)) fun _ => trivial

/-- A commit that took a queue runs it. -/
theorem commit_run {id : String} (h : (commit config n id).Run log rest) :
    log = [] ∨ (∃ error, log = [⟨.session (.commit id), .error error⟩] ∧ rest = .fail error) ∨
      ∃ statements more, log = ⟨.session (.commit id), .ok statements⟩ :: more ∧
        ((executeBatch config n statements).bind fun results => .pure (.committed results)).Run
          more rest := by
  cases h with
  | refl => exact .inl rfl
  | step taken h =>
    cases taken with
    | error error =>
      cases h
      exact .inr (.inl ⟨error, rfl, rfl⟩)
    | ok statements => exact .inr (.inr ⟨statements, _, rfl, h⟩)

theorem Request.conduct {request : Request} (h : (request.route config n).Run log rest) :
    Conduct config request log := by
  cases request with
  | query body =>
    change (Http.query config n body).Run log rest at h
    unfold Http.query at h
    cases haccept : acceptQuery config body with
    | error error =>
      rw [haccept] at h
      cases h
      exact .arrived
    | ok accepted =>
      rw [haccept] at h
      obtain ⟨limits, hlog⟩ := executeLimited_run h
      exact .queried haccept hlog
  | createSession =>
    cases h with
    | refl => exact .arrived
    | step created h =>
      refine .created ?_
      cases created with
      | error error =>
        cases h
        exact nofun
      | ok id => exact (h.only (P := fun o : HttpOp => o = .count .sessionsCreated)
          ⟨rfl, fun _ => trivial⟩).1
  | deleteSession id =>
    cases h with
    | refl => exact .arrived
    | step deleted h =>
      cases run_ended h (by cases deleted <;> rfl)
      exact .deleted
  | begin id =>
    cases h with
    | refl => exact .arrived
    | step begun h =>
      cases run_ended h (by cases begun <;> rfl)
      exact .begun
  | sessionQuery id body =>
    change (Http.sessionQuery config n id body).Run log rest at h
    unfold Http.sessionQuery at h
    cases haccept : acceptQuery config body with
    | error error =>
      rw [haccept] at h
      cases h
      exact .arrived
    | ok accepted =>
      rw [haccept] at h
      cases h with
      | refl => exact .arrived
      | step placed h =>
        refine .placed haccept ?_
        cases placed with
        | error error =>
          cases h
          exact nofun
        | ok placed =>
          cases placed with
          | queued count =>
            cases h
            exact nofun
          | immediate =>
            obtain ⟨limits, hlog⟩ := executeLimited_run h
            exact fun e he => ⟨rfl, limits, hlog e he⟩
  | commit id =>
    obtain rfl | ⟨error, rfl, -⟩ | ⟨statements, more, rfl, hmore⟩ := commit_run h
    · exact .arrived
    · exact .committed nofun
    · have honly := hmore.only
        (Prog.Only.bind (Execution.run_only config n (.batch statements)) fun _ => trivial)
      exact .committed fun e he => ⟨statements, rfl, honly.1 e he⟩
  | rollback id =>
    cases h with
    | refl => exact .arrived
    | step rolledBack h =>
      cases run_ended h (by cases rolledBack <;> rfl)
      exact .rolledBack

end

-- ---------------------------------------------------------------------------
-- Sections that fail
-- ---------------------------------------------------------------------------

/-- The error a section was answered with. -/
def SessionOp.error? : (o : SessionOp) → o.Ans → Option ApiError
  | .create, .error error | .delete _, .error error | .begin _, .error error
  | .place _ _ _, .error error | .commit _, .error error | .rollback _, .error error => some error
  | _, _ => none

def HttpOp.Unlocked (o : HttpOp) : Prop := ∀ section', o ≠ .session section'

section
variable {config : Config} {n : Nat} {log : List (Event http)} {rest : Prog http ApiError Reply}

theorem HttpOp.Runs.unlocked {o : HttpOp} (h : o.Runs config x) : o.Unlocked := by
  rintro _ rfl
  exact h

/-- A section of a request is the first thing it does. -/
theorem Conduct.head {o : SessionOp} {answer : o.Ans} (h : Conduct config request log)
    (hmem : ⟨.session o, answer⟩ ∈ log) : ∃ more, log = ⟨.session o, answer⟩ :: more := by
  have hhead : ∀ {o' : SessionOp} {answer' : o'.Ans} {more : List (Event http)},
      (⟨.session o, answer⟩ : Event http) ∈ ⟨.session o', answer'⟩ :: more →
      (∀ e ∈ more, HttpOp.Unlocked e.op) →
      ∃ more', (⟨.session o', answer'⟩ :: more : List (Event http)) =
        ⟨.session o, answer⟩ :: more' := by
    intro o' answer' more hmem hmore
    rcases List.mem_cons.mp hmem with heq | hmem
    · exact ⟨more, by rw [heq]⟩
    · exact absurd rfl (hmore _ hmem o)
  cases h with
  | arrived => cases hmem
  | queried haccept hlog => exact absurd rfl ((hlog _ hmem).unlocked o)
  | created hlog =>
    refine hhead hmem fun e he => ?_
    rw [hlog e he]
    nofun
  | placed haccept hlog =>
    refine hhead hmem fun e he => ?_
    obtain ⟨-, limits, hruns⟩ := hlog e he
    exact hruns.unlocked
  | committed hlog =>
    refine hhead hmem fun e he => ?_
    obtain ⟨statements, -, hruns⟩ := hlog e he
    exact hruns.unlocked
  | _ => exact hhead hmem nofun

theorem executeLimited_unlocked {query : QueryRequest} {statement : Statement} :
    (executeLimited config n query statement).Only HttpOp.Unlocked := by
  unfold executeLimited
  cases effectiveLimits config query.limits with
  | error error => trivial
  | ok limits =>
    change ((executeOne n statement limits.1).bind _).Only _
    refine Prog.Only.bind ?_ fun _ => trivial
    exact (Execution.run_only config n (.one statement limits.1)).mono fun _ h => h.unlocked

/-- A route that fails with the error of its only section. -/
theorem section_refused {o o' : SessionOp} {answer : o'.Ans}
    {next : o.Ans → Prog http ApiError Reply}
    (hfail : ∀ answer error, o.error? answer = some error → next answer = .fail error)
    (hnext : ∀ answer, o.error? answer = none → (next answer).Only HttpOp.Unlocked)
    (h : ((inSession o).bind next).Run log rest) (hmem : ⟨.session o', answer⟩ ∈ log)
    (herror : o'.error? answer = some error) : rest = .fail error := by
  cases h with
  | refl => cases hmem
  | step given h =>
    change (next given).Run _ rest at h
    cases hgiven : o.error? given with
    | none =>
      rcases List.mem_cons.mp hmem with heq | hmem
      · cases heq
        cases hgiven.symm.trans herror
      · exact absurd rfl ((h.only (hnext given hgiven)).1 _ hmem o')
    | some error' =>
      rw [hfail given error' hgiven] at h
      cases h
      cases List.mem_singleton.mp hmem
      cases hgiven.symm.trans herror
      rfl

theorem Request.refused {request : Request} {o : SessionOp} {answer : o.Ans}
    (h : (request.route config n).Run log rest) (hmem : ⟨.session o, answer⟩ ∈ log)
    (herror : o.error? answer = some error) : rest = .fail error := by
  cases request with
  | query body =>
    change (Http.query config n body).Run log rest at h
    unfold Http.query at h
    cases haccept : acceptQuery config body with
    | error error =>
      rw [haccept] at h
      cases h
      cases hmem
    | ok accepted =>
      rw [haccept] at h
      exact absurd rfl ((h.only executeLimited_unlocked).1 _ hmem o)
  | createSession =>
    refine section_refused (o := .create) ?_ ?_ h hmem herror
    · rintro (_ | _) error ⟨⟩
      rfl
    · rintro (_ | id) hnone
      · cases hnone
      · exact Prog.Only.step nofun fun _ => trivial
  | deleteSession id =>
    refine section_refused (o := .delete id) ?_ ?_ h hmem herror
    · rintro (_ | _) error ⟨⟩
      rfl
    · rintro (_ | _) _ <;> trivial
  | begin id =>
    refine section_refused (o := .begin id) ?_ ?_ h hmem herror
    · rintro (_ | _) error ⟨⟩
      rfl
    · rintro (_ | _) _ <;> trivial
  | sessionQuery id body =>
    change (Http.sessionQuery config n id body).Run log rest at h
    unfold Http.sessionQuery at h
    cases haccept : acceptQuery config body with
    | error error =>
      rw [haccept] at h
      cases h
      cases hmem
    | ok accepted =>
      rw [haccept] at h
      refine section_refused (o := .place id accepted.2 accepted.1.limits.isSome) ?_ ?_ h hmem
        herror
      · rintro (_ | _) error ⟨⟩
        rfl
      · rintro (_ | placed) _
        · trivial
        · cases placed with
          | queued count => trivial
          | immediate => exact executeLimited_unlocked
  | commit id =>
    refine section_refused (o := .commit id) ?_ ?_ h hmem herror
    · rintro (_ | _) error ⟨⟩
      rfl
    · rintro (_ | statements) _
      · trivial
      · change ((executeBatch config n statements).bind _).Only _
        refine Prog.Only.bind ?_ fun _ => trivial
        exact (Execution.run_only config n (.batch statements)).mono fun _ h => h.unlocked
  | rollback id =>
    refine section_refused (o := .rollback id) ?_ ?_ h hmem herror
    · rintro (_ | _) error ⟨⟩
      rfl
    · rintro (_ | _) _ <;> trivial

end

-- ---------------------------------------------------------------------------
-- Any number of requests
-- ---------------------------------------------------------------------------

/-- The shared state, the requests that have arrived with what they still have to
do, and everything that was done so far. -/
structure Traffic where
  adapter : Adapter
  requests : Nat → Option (Request × Prog http ApiError Reply)
  log : List (Nat × Event http)

namespace Traffic

/-- A server that has been started. -/
def fresh (site : Site) (metrics : Counter → Nat) : Traffic :=
  ⟨⟨site, ∅, metrics, fun _ => false⟩, fun _ => none, []⟩

/-- What can happen next: a request arrives, its timer fires, or it takes its turn.
The other routes change no session and execute no statement; `elsewhere` is a step
of one of them, with whatever it makes of the Database and the counters. -/
inductive Occurrence
  | arrive (n : Nat) (request : Request)
  | expire (n : Nat)
  | act (n : Nat) (c : Chance)
  | elsewhere (site : Site) (metrics : Counter → Nat)

def occur (E : Engine) (config : Config) (t : Traffic) : Occurrence → Traffic
  | .arrive n request =>
    match t.requests n with
    | some _ => t
    | none =>
      { t with requests := Function.update t.requests n (some (request, request.route config n)) }
  | .expire n =>
    { t with adapter := { t.adapter with expired := Function.update t.adapter.expired n true } }
  | .act n c =>
    match t.requests n with
    | some (request, .op o next) =>
      match Adapter.step E config o c t.adapter with
      | some (ans, adapter) =>
        ⟨adapter, Function.update t.requests n (some (request, next ans)), t.log ++ [(n, ⟨o, ans⟩)]⟩
      | none => t
    | _ => t
  | .elsewhere site metrics => { t with adapter := { t.adapter with site, metrics } }

/-- In whatever order requests arrive and take turns. -/
def Reaches (E : Engine) (config : Config) (t : Traffic) : Prop :=
  ∃ site metrics occurrences, t = List.foldl (occur E config) (fresh site metrics) occurrences

/-- The changes an occurrence can make. -/
inductive Step (E : Engine) (config : Config) : Traffic → Traffic → Prop
  | arrive {t : Traffic} {n : Nat} (request : Request) (h : t.requests n = none) :
      Step E config t
        { t with requests := Function.update t.requests n (some (request, request.route config n)) }
  | expire (t : Traffic) (n : Nat) :
      Step E config t { t with adapter := { t.adapter with
        expired := Function.update t.adapter.expired n true } }
  | elsewhere (t : Traffic) (site : Site) (metrics : Counter → Nat) :
      Step E config t { t with adapter := { t.adapter with site, metrics } }
  | act {t : Traffic} {n : Nat} {request : Request} {o : HttpOp}
      {next : o.Ans → Prog http ApiError Reply} {c : Chance} {ans : o.Ans} {adapter : Adapter}
      (h : t.requests n = some (request, .op o next))
      (hs : Adapter.step E config o c t.adapter = some (ans, adapter)) :
      Step E config t
        ⟨adapter, Function.update t.requests n (some (request, next ans)), t.log ++ [(n, ⟨o, ans⟩)]⟩

theorem occur_cases (E : Engine) (config : Config) (t : Traffic) (o : Occurrence) :
    t.occur E config o = t ∨ Step E config t (t.occur E config o) := by
  cases o with
  | arrive n request =>
    cases hn : t.requests n with
    | some r => exact .inl (by simp only [occur, hn])
    | none =>
      refine .inr ?_
      simp only [occur, hn]
      exact .arrive request hn
  | expire n => exact .inr (.expire t n)
  | elsewhere site metrics => exact .inr (.elsewhere t site metrics)
  | act n c =>
    unfold occur
    dsimp only
    split
    · rename_i hn
      split
      · rename_i hs
        exact .inr (.act hn hs)
      · exact .inl rfl
    · exact .inl rfl

/-- What holds of a fresh server and is kept by every change. -/
theorem Reaches.induct {E : Engine} {config : Config} {t : Traffic} {P : Traffic → Prop}
    (h : Reaches E config t) (hfresh : ∀ site metrics, P (fresh site metrics))
    (hstep : ∀ t t', P t → Step E config t t' → P t') : P t := by
  obtain ⟨site, metrics, occurrences, rfl⟩ := h
  refine List.foldlRecOn occurrences _ (hfresh site metrics) fun t ht o _ => ?_
  obtain hsame | hchange := occur_cases E config t o
  · rwa [hsame]
  · exact hstep t _ ht hchange

/-- What request `n` has done. -/
def eventsOf (t : Traffic) (n : Nat) : List (Event http) :=
  t.log.filterMap fun (m, e) => if m = n then some e else none

section
variable {E : Engine} {config : Config} {t : Traffic} {n : Nat}

/-- The done and the open part of a request are its route. -/
structure Routed (config : Config) (t : Traffic) : Prop where
  none : ∀ n, t.requests n = none → t.eventsOf n = []
  some : ∀ n request rest, t.requests n = some (request, rest) →
    (request.route config n).Run (t.eventsOf n) rest

theorem Routed.fresh (site : Site) (metrics : Counter → Nat) :
    Routed config (fresh site metrics) := ⟨fun _ _ => rfl, nofun⟩

theorem eventsOf_act {a : Adapter} {e : Event http} {m : Nat}
    {r : Nat → Option (Request × Prog http ApiError Reply)} :
    eventsOf ⟨a, r, t.log ++ [(n, e)]⟩ m =
      if m = n then t.eventsOf n ++ [e] else t.eventsOf m := by
  by_cases hmn : m = n
  · subst hmn
    simp [eventsOf]
  · simp [eventsOf, hmn, Ne.symm hmn]

theorem Routed.step {t t' : Traffic} (h : Routed config t) (hs : Step E config t t') :
    Routed config t' := by
  cases hs with
  | @arrive n request hnone =>
    refine ⟨fun m hm => h.none m ?_, fun m r rest hm => ?_⟩
    · by_cases hmn : m = n
      · subst hmn
        simp at hm
      · simpa [hmn] using hm
    · by_cases hmn : m = n
      · subst hmn
        simp only [Function.update_self, Option.some.injEq, Prod.mk.injEq] at hm
        obtain ⟨rfl, rfl⟩ := hm
        change Prog.Run _ (t.eventsOf m) _
        rw [h.none m hnone]
        exact .refl _
      · exact h.some m r rest (by simpa [hmn] using hm)
  | expire | elsewhere => exact ⟨h.none, h.some⟩
  | @act n request o next c ans adapter hn hstep =>
    refine ⟨fun m hm => ?_, fun m r rest hm => ?_⟩
    · by_cases hmn : m = n
      · subst hmn
        simp at hm
      · rw [eventsOf_act, if_neg hmn]
        exact h.none m (by simpa [hmn] using hm)
    · by_cases hmn : m = n
      · subst hmn
        simp only [Function.update_self, Option.some.injEq, Prod.mk.injEq] at hm
        obtain ⟨rfl, rfl⟩ := hm
        rw [eventsOf_act, if_pos rfl]
        exact (h.some m _ _ hn).snoc ans
      · rw [eventsOf_act, if_neg hmn]
        exact h.some m r rest (by simpa [hmn] using hm)

theorem Reaches.routed (h : Reaches E config t) : Routed config t :=
  h.induct .fresh fun _ _ ht hs => ht.step hs

end

end Traffic

end NostdbServer.Http
