import NostdbServer.Http.Sessions
import NostdbServer.Protocol.Statements

/-!
# Read-only statements

What an engine does to a Database is taken apart into what each statement does,
and only a statement that `prepare_write` accepts and `prepare` rejects may
change anything. Connections refuse what `prepare_write` accepts, HTTP requests
need what `prepare` accepts; either way a `read_only` statement is passed by.
-/

namespace NostdbServer

open Effects

-- ---------------------------------------------------------------------------
-- The engine
-- ---------------------------------------------------------------------------

/-- One statement after the other. -/
inductive Chain (effect : Statement → Bytes → Bytes → Prop) : List Statement → Bytes → Bytes → Prop
  | nil : Chain effect [] content content
  | cons (h : effect statement content content') (hrest : Chain effect rest content' content'') :
      Chain effect (statement :: rest) content content''

/-- `effect` is what the statements do, and those that change a Database are
accepted by `prepare_write` and rejected by `prepare`. -/
structure Engine.Confined (E : Engine) (prepare : String → Except String Unit)
    (effect : Statement → Bytes → Bytes → Prop) : Prop where
  one : ∀ statement limits content result content',
    E.execute statement limits content = .ok (result, content') → effect statement content content'
  all : ∀ statements limits content results content',
    E.executeTransaction statements limits content = .ok (results, content') →
      Chain effect statements content content'
  writes : ∀ statement content content', effect statement content content' → content' ≠ content →
    E.preparesWrite statement.query = true ∧ (prepare statement.query).isOk = false

/-- The statements, of which those with the flag leave everything as it is. -/
inductive Passes (effect : Statement → Bytes → Bytes → Prop) :
    List (Bool × Statement) → Bytes → Bytes → Prop
  | nil : Passes effect [] content content
  | reads (hrest : Passes effect rest content content') :
      Passes effect ((true, statement) :: rest) content content'
  | writes (h : effect statement content content') (hrest : Passes effect rest content' content'') :
      Passes effect ((false, statement) :: rest) content content''

/-- A Database is left alone, or goes through the statements. -/
def Through (effect : Statement → Bytes → Bytes → Prop) (asked : List (Bool × Statement))
    (before after : Option Database) : Prop :=
  after = before ∨ ∃ content content', before = some ⟨content⟩ ∧ after = some ⟨content'⟩ ∧
    Passes effect asked content content'

section
variable {E : Engine} {prepare : String → Except String Unit}
  {effect : Statement → Bytes → Bytes → Prop} {asked : List (Bool × Statement)}

theorem Passes.of_chain (h : Chain effect (asked.map Prod.snd) content content')
    (hreads : ∀ a ∈ asked, a.1 = true → ∀ x y, effect a.2 x y → y = x) :
    Passes effect asked content content' := by
  induction asked generalizing content with
  | nil =>
    cases h
    exact .nil
  | cons a rest ih =>
    obtain ⟨flag, statement⟩ := a
    cases h with
    | cons hfirst hrest =>
      have hpasses := ih hrest fun a ha => hreads a (List.mem_cons_of_mem _ ha)
      cases flag with
      | false => exact .writes hfirst hpasses
      | true =>
        obtain rfl := hreads _ List.mem_cons_self rfl _ _ hfirst
        exact .reads hpasses

/-- Where all are `read_only`, nothing changes. -/
theorem Through.unchanged (h : Through effect asked before after)
    (hreads : ∀ a ∈ asked, a.1 = true) : after = before := by
  obtain hsame | ⟨content, content', rfl, rfl, hpasses⟩ := h
  · exact hsame
  · induction hpasses with
    | nil => rfl
    | reads _ ih => exact ih fun a ha => hreads a (List.mem_cons_of_mem _ ha)
    | writes => cases hreads _ List.mem_cons_self

theorem Engine.Confined.reads (hE : E.Confined prepare effect) {statement : Statement}
    (h : E.preparesWrite statement.query = false ∨ (prepare statement.query).isOk = true)
    (heffect : effect statement content content') : content' = content := by
  by_contra hne
  obtain ⟨hwrite, hprepare⟩ := hE.writes _ _ _ heffect hne
  rcases h with h | h
  · cases h.symm.trans hwrite
  · cases h.symm.trans hprepare

theorem Site.execute_slot {act : Bytes → Except DatabaseError (α × Bytes)} {s s' : Site}
    (h : s.execute E act c = (r, s')) : s'.slot = s.slot ∨ ∃ content a content',
      s.slot = some ⟨content⟩ ∧ act content = .ok (a, content') ∧ s'.slot = some ⟨content'⟩ := by
  unfold Site.execute at h
  split at h
  · cases h
    exact .inl rfl
  · cases h
    exact .inl rfl
  · rename_i d _ hslot
    split at h
    · cases h
      exact .inl rfl
    · rename_i a content' hact
      cases h
      exact .inr ⟨d.content, a, content', hslot, hact, rfl⟩

/-- What an engine call does to the Database it is made on. -/
theorem Engine.Confined.through (hE : E.Confined prepare effect) {o : StorageOp} {ans : o.Ans}
    {s s' : Site} (ho : o.executes = true) (hstatements : o.statements = asked.map Prod.snd)
    (hreads : ∀ a ∈ asked, a.1 = true →
      E.preparesWrite a.2.query = false ∨ (prepare a.2.query).isOk = true)
    (h : Site.step E o c s = some (ans, s')) : Through effect asked s.slot s'.slot := by
  have hpass {content content' : Bytes} (hchain : Chain effect o.statements content content') :
      Passes effect asked content content' := by
    rw [hstatements] at hchain
    exact .of_chain hchain fun a ha hflag x y => hE.reads (hreads a ha hflag)
  cases o with
  | execute statement limits =>
    obtain hsame | ⟨content, result, content', hslot, hact, hslot'⟩ :=
      Site.execute_slot (Option.some.inj h)
    · exact .inl hsame
    · exact .inr ⟨content, content', hslot, hslot',
        hpass (.cons (hE.one _ _ _ _ _ hact) .nil)⟩
  | executeTransaction statements limits =>
    obtain hsame | ⟨content, results, content', hslot, hact, hslot'⟩ :=
      Site.execute_slot (Option.some.inj h)
    · exact .inl hsame
    · exact .inr ⟨content, content', hslot, hslot', hpass (hE.all _ _ _ _ _ hact)⟩
  | _ => cases ho

end

-- ---------------------------------------------------------------------------
-- Connections
-- ---------------------------------------------------------------------------

/-- The operation a step of the server performs. -/
def Server.doing? {ι : Type} (s : Server ι) : Act ι → Option ConnectionOp
  | .main i _ => (s.links i).turn.bind fun t => t.rest.next?
  | .job i r _ => ((s.links i).jobs r).bind fun job => job.rest.next?
  | _ => none

theorem Requested.reads {asked : List (Bool × Statement)}
    (h : Requested E service turns r databaseId asked) :
    ∀ a ∈ asked, a.1 = true → E.preparesWrite a.2.query = false := by
  cases h with
  | query _ _ _ _ hreads =>
    rintro _ ha hflag
    cases List.mem_singleton.mp ha
    cases hflag
    exact hreads
  | @commit pre _ _ _ _ _ _ _ _ _ hreads hstatements =>
    intro a ha hflag
    obtain ⟨i, hi, rfl⟩ := List.mem_iff_get.mp ha
    have hi' : i < (queueAfter pre).length := i.isLt.trans_eq hstatements.length_eq.symm
    obtain ⟨hflag', hquery, -⟩ := hstatements.get hi' i.isLt
    have hread := hreads _ (List.get_mem _ ⟨i, hi'⟩)
    rwa [← hflag', hflag, Bool.true_and, ← hquery] at hread

section
variable {ι : Type} [DecidableEq ι] {E : Engine} {service : Service} {uuids : Nat → String}
  {prepare : String → Except String Unit} {effect : Statement → Bytes → Bytes → Prop}
  {d : Daemon} {s s' : Server ι} {a : Act ι} {id : String} {o : StorageOp}

/-- A step that executes statements is one of a task. -/
theorem Server.Reaches.executing (h : Server.Reaches E service uuids (.initial d) s)
    (hstep : s.step E service uuids a = some s')
    (hdoing : s.doing? a = some (.daemon (.storage id o))) (ho : o.executes = true) : ∃ i r c databaseId asked, a = .job i r c ∧
      Requested E service (s.links i).turns r databaseId asked ∧
      o.statements = asked.map Prod.snd ∧
      ∃ ans, Daemon.step E uuids (.storage id o) c s.daemon = some (ans, s'.daemon) := by
  have hcalls : ConnectionOp.callsEngine (.daemon (.storage id o)) = true := by
    cases o <;> first | rfl | cases ho
  cases a with
  | main i c =>
    obtain ⟨t, hturn, hnext⟩ := Option.bind_eq_some_iff.mp hdoing
    obtain ⟨next, hrest⟩ := Prog.of_next? hnext
    have hrun := (h.link i).kept.talk.run (t := t) (by simp [Link.turns_of_turn hturn])
    rw [hrest] at hrun
    cases hcalls.symm.trans (hrun.only (handleIncoming_administers _ _)).2.1
  | job i r c =>
    obtain ⟨job, hjob, hnext⟩ := Option.bind_eq_some_iff.mp hdoing
    obtain ⟨next, hrest⟩ := Prog.of_next? hnext
    obtain ⟨databaseId, handle, op, asked, heq, -, hrequested, hstatements⟩ :=
      (h.link i).kept.requested hjob hrest hcalls
    cases heq
    refine ⟨i, r, c, databaseId, asked, rfl, hrequested, hstatements, ?_⟩
    obtain ⟨job', hjob', hstep⟩ := Option.bind_eq_some_iff.mp hstep
    cases hjob.symm.trans hjob'
    rw [hrest] at hstep
    dsimp only at hstep
    split at hstep
    · cases hstep
    obtain ⟨⟨ans, s₁⟩, hperform, hstep⟩ := Option.bind_eq_some_iff.mp hstep
    cases hstep
    obtain ⟨result, hdaemon, heq⟩ := Option.map_eq_some_iff.mp hperform
    cases heq
    exact ⟨_, hdaemon⟩
  | _ => cases hdoing

/-- What it does to the Databases. -/
theorem Engine.Confined.daemon_step (hE : E.Confined prepare effect) {d' : Daemon} {ans : o.Ans}
    {asked : List (Bool × Statement)} (ho : o.executes = true)
    (hstatements : o.statements = asked.map Prod.snd)
    (hreads : ∀ a ∈ asked, a.1 = true → E.preparesWrite a.2.query = false)
    (h : Daemon.step E uuids (.storage id o) c d = some (ans, d')) :
    Through effect asked (d.contents id).2 (d'.contents id).2 ∧
      ∀ x, x ≠ id → d'.contents x = d.contents x := by
  obtain ⟨⟨ans', site⟩, hsite, heq⟩ := Option.map_eq_some_iff.mp h
  cases heq
  have hthrough := hE.through ho hstatements (fun a ha hflag => .inl (hreads a ha hflag)) hsite
  refine ⟨?_, fun x hx => ?_⟩
  · simpa [Daemon.contents, Daemon.site, Daemon.memory_putSite] using hthrough
  · exact Daemon.contents_putSite_of_ne hx

end

-- ---------------------------------------------------------------------------
-- HTTP requests
-- ---------------------------------------------------------------------------

namespace Http

def Request.body? : Request → Option Bytes
  | .query body | .sessionQuery _ body => some body
  | _ => none

/-- Whether the request carried `read_only`. -/
def Traffic.readOnly (config : Config) (t : Traffic) (n : Nat) : Bool :=
  match (t.requests n).bind fun r => r.1.body? with
  | some body =>
    match parseQuery config body with
    | .ok request => request.readOnly
    | .error _ => false
  | none => false

/-- What request `n` has to execute, each statement with the `read_only` of the
request that brought it. -/
inductive Asked (config : Config) (t : Traffic) (n : Nat) : List (Bool × Statement) → Prop
  | one {request : Request} (hn : t.requests n = some (request, rest))
      (hbody : request.body? = some body)
      (haccept : acceptQuery config body = .ok (asked, statement)) :
      Asked config t n [(t.readOnly config n, statement)]
  | batch {id : String} (hn : t.requests n = some (.commit id, rest))
      (hj : t.sections[j]? = some ⟨n, .commit id, .ok statements⟩)
      (hb : LatestBegin id t.sections b j) :
      Asked config t n (((t.sections.take j).drop (b + 1)).filterMap fun s =>
        (s.queued? id).map fun statement => (t.readOnly config s.request, statement))

section
variable {E : Engine} {config : Config} {t : Traffic} {n : Nat}

theorem acceptQuery_ok {asked : QueryRequest} {statement : Statement}
    (h : acceptQuery config body = .ok (asked, statement)) :
    parseQuery config body = .ok asked ∧ statement.query = asked.query ∧
      (asked.readOnly = true → (config.prepare asked.query).isOk = true) := by
  unfold acceptQuery at h
  cases hparse : parseQuery config body with
  | error error =>
    rw [hparse] at h
    cases h
  | ok request =>
    rw [hparse] at h
    cases hread : requireReadOnly config request with
    | error error =>
      simp only [bind, Except.bind, hread] at h
      cases h
    | ok =>
      simp only [bind, Except.bind, hread] at h
      cases hvalues : (parameters config.floatOfInt request.parameters).mapError
          ApiError.badRequest with
      | error error =>
        rw [hvalues] at h
        cases h
      | ok values =>
        rw [hvalues] at h
        cases h
        refine ⟨rfl, rfl, fun hflag => ?_⟩
        simp only [requireReadOnly, hflag, if_true] at hread
        cases hprepare : config.prepare asked.query with
        | error error =>
          rw [hprepare] at hread
          cases hread
        | ok => rfl

theorem readOnly_of_body {request : Request} {asked : QueryRequest} {statement : Statement}
    (hn : t.requests n = some (request, rest)) (hbody : request.body? = some body)
    (haccept : acceptQuery config body = .ok (asked, statement)) :
    t.readOnly config n = asked.readOnly := by
  simp [Traffic.readOnly, hn, hbody, (acceptQuery_ok haccept).1]

theorem Section.place_of_queued {id : String} {s : Section}
    (h : s.queued? id = some statement) : ∃ limited, s.op = .place id statement limited := by
  unfold Section.queued? at h
  split at h
  · split at h
    · rename_i htarget
      cases h
      exact ⟨_, by rw [htarget]⟩
    · cases h
  · cases h

theorem queued_reads {id : String} (h : t.Reaches E config) {s : Section} (hs : s ∈ t.sections)
    (hqueued : s.queued? id = some statement) (hread : t.readOnly config s.request = true) :
    (config.prepare statement.query).isOk = true := by
  obtain ⟨m, o, answer⟩ := s
  have hlog := Traffic.mem_sections.mp hs
  obtain ⟨limited, rfl⟩ := Section.place_of_queued hqueued
  obtain ⟨request, rest, hm, hrun⟩ := h.routes hlog
  obtain ⟨body, asked, rfl, haccept⟩ :=
    (Request.conduct hrun).placed_by (Traffic.mem_eventsOf.mpr hlog)
  obtain ⟨-, hquery, hprepare⟩ := acceptQuery_ok haccept
  rw [readOnly_of_body hm rfl haccept] at hread
  rw [hquery]
  exact hprepare hread

theorem Asked.reads (h : t.Reaches E config) {asked : List (Bool × Statement)}
    (hasked : Asked config t n asked) :
    ∀ a ∈ asked, a.1 = true → (config.prepare a.2.query).isOk = true := by
  intro a ha hflag
  cases hasked with
  | one hn hbody haccept =>
    cases List.mem_singleton.mp ha
    obtain ⟨-, hquery, hprepare⟩ := acceptQuery_ok haccept
    rw [hquery]
    exact hprepare ((readOnly_of_body hn hbody haccept).symm.trans hflag)
  | batch =>
    obtain ⟨s, hs, hqueued⟩ := List.mem_filterMap.mp ha
    obtain ⟨statement, hstatement, rfl⟩ := Option.map_eq_some_iff.mp hqueued
    exact queued_reads h (List.mem_of_mem_take (List.mem_of_mem_drop hs)) hstatement hflag

/-- A request that executes statements executes what it was asked. -/
theorem Traffic.Reaches.executing {o : StorageOp} {request : Request}
    {next : o.Ans → Prog http ApiError Reply} (h : t.Reaches E config)
    (hn : t.requests n = some (request, .op (.storage o) next)) (ho : o.executes = true) :
    ∃ asked, Asked config t n asked ∧ o.statements = asked.map Prod.snd := by
  have hone {statement : Statement} {limits : QueryLimits} {body : Bytes} {asked : QueryRequest}
      (hruns : HttpOp.Runs config (.one statement limits) (.storage o))
      (hbody : request.body? = some body)
      (haccept : acceptQuery config body = .ok (asked, statement)) :
      ∃ asked, Asked config t n asked ∧ o.statements = asked.map Prod.snd := by
    cases o with
    | execute =>
      cases hruns
      exact ⟨_, .one hn hbody haccept, rfl⟩
    | executeTransaction => cases hruns.1
    | _ => cases ho
  have hrun := h.routed.some n _ _ hn
  obtain ⟨ans⟩ := ConnectionOp.ans_nonempty (.daemon (.storage "" o))
  have hconduct := Request.conduct (hrun.snoc (S := http) ans)
  generalize hlog : t.eventsOf n ++ [⟨.storage o, ans⟩] = log at hconduct
  have hmem : ⟨.storage o, ans⟩ ∈ log := by simp [← hlog]
  cases hconduct with
  | arrived => cases hmem
  | queried haccept hevents => exact hone (hevents _ hmem) rfl haccept
  | created hevents =>
    rcases List.mem_cons.mp hmem with heq | hmem
    · cases heq
    · cases hevents _ hmem
  | placed haccept hevents =>
    rcases List.mem_cons.mp hmem with heq | hmem
    · cases heq
    · obtain ⟨-, limits, hruns⟩ := hevents _ hmem
      exact hone hruns rfl haccept
  | @committed _ _ id hevents =>
    rcases List.mem_cons.mp hmem with heq | hmem
    · cases heq
    obtain ⟨statements, rfl, hruns⟩ := hevents _ hmem
    have hsection : ⟨n, .commit id, .ok statements⟩ ∈ t.sections := by
      refine Traffic.mem_sections.mpr (Traffic.mem_eventsOf.mp ?_)
      cases hpast : t.eventsOf n with
      | nil =>
        rw [hpast] at hlog
        cases hlog
      | cons e past =>
        rw [hpast] at hlog
        obtain ⟨rfl, -⟩ := List.cons.inj hlog
        exact List.mem_cons_self
    obtain ⟨j, hj, hget⟩ := List.mem_iff_getElem.mp hsection
    obtain ⟨phase, hstart, hcourse, -⟩ := h.recorded.course id
    have hsome : t.sections[j]? = some ⟨n, .commit id, .ok statements⟩ := by
      rw [List.getElem?_eq_getElem hj, hget]
    obtain ⟨b, hlatest, -, hqueue⟩ := opened_by hcourse hstart (by omega)
      (Phase.eq_of_taken (hcourse j _ hsome).commits.symm)
    refine ⟨_, .batch hn hsome hlatest, ?_⟩
    cases o with
    | executeTransaction statements' limits =>
      cases hruns.1
      simp [StorageOp.statements, hqueue, queuedBetween, List.map_filterMap, Function.comp_def]
    | execute => cases hruns
    | _ => cases ho
  | _ => cases List.mem_singleton.mp hmem

end

end Http

-- ---------------------------------------------------------------------------
-- Every path to the engine
-- ---------------------------------------------------------------------------

/-- Whatever connections and HTTP requests do: a statement is executed for a
request that brought it or, in a transaction, queued it. Those that carried
`read_only` are passed by; where there are no others, no Database changes. A
transaction with a `read_only` statement that `prepare_write` accepts is not
executed at all. -/
theorem read_only_changes_nothing {E : Engine} {service : Service} {config : Http.Config}
    {effect : Statement → Bytes → Bytes → Prop} (hE : E.Confined config.prepare effect) :
    (∀ (ι : Type) [DecidableEq ι] (uuids : Nat → String) (d : Daemon) (s s' : Server ι) (a : Act ι)
      (id : String) (o : StorageOp), Server.Reaches E service uuids (.initial d) s →
      s.step E service uuids a = some s' → s.doing? a = some (.daemon (.storage id o)) →
      o.executes = true → ∃ i r c databaseId asked, a = .job i r c ∧
        Requested E service (s.links i).turns r databaseId asked ∧
        o.statements = asked.map Prod.snd ∧
        Through effect asked (s.daemon.contents id).2 (s'.daemon.contents id).2 ∧
        (∀ x, x ≠ id → s'.daemon.contents x = s.daemon.contents x) ∧
        ((∀ a ∈ asked, a.1 = true) → ∀ x,
          (s'.daemon.contents x).2 = (s.daemon.contents x).2)) ∧
    (∀ (ι : Type) [DecidableEq ι] (uuids : Nat → String) (d : Daemon) (s : Server ι) (i : ι)
      (pre post : List Turn) (t : Turn) (r : UInt64),
      Server.Reaches E service uuids (.initial d) s → (s.links i).turns = pre ++ t :: post →
      t.incoming = .frame ⟨r, .commit⟩ →
      (∃ queued ∈ queueAfter pre, queued.readOnly = true ∧ E.preparesWrite queued.query = true) →
      ∀ r' task, .spawn r' task ∉ t.log.map Event.op) ∧
    ∀ (t : Http.Traffic) (n : Nat) (request : Http.Request) (o : StorageOp)
      (next : o.Ans → Prog Http.http Http.ApiError Http.Reply) (c : Http.Chance) (ans : o.Ans)
      (adapter : Http.Adapter), t.Reaches E config →
      t.requests n = some (request, .op (.storage o) next) → o.executes = true →
      Http.Adapter.step E config (.storage o) c t.adapter = some (ans, adapter) →
      ∃ asked, Http.Asked config t n asked ∧ o.statements = asked.map Prod.snd ∧
        Through effect asked t.adapter.site.slot adapter.site.slot ∧
        ((∀ a ∈ asked, a.1 = true) → adapter.site.slot = t.adapter.site.slot) := by
  refine ⟨?_, ?_, ?_⟩
  · intro ι _ uuids d s s' a id o h hstep hdoing ho
    obtain ⟨i, r, c, databaseId, asked, rfl, hrequested, hstatements, ans, hdaemon⟩ :=
      h.executing hstep hdoing ho
    obtain ⟨hthrough, hothers⟩ := hE.daemon_step ho hstatements hrequested.reads hdaemon
    refine ⟨i, r, c, databaseId, asked, rfl, hrequested, hstatements, hthrough, hothers, ?_⟩
    intro hreads x
    by_cases hx : x = id
    · subst hx
      exact hthrough.unchanged hreads
    · rw [hothers x hx]
  · rintro ι _ uuids d s i pre post t r h hturns hincoming ⟨queued, hqueued, hread, hwrite⟩ r' task
      hspawn
    have htalk := (h.link i).kept.talk
    have ht : t ∈ (s.links i).turns := by simp [hturns]
    obtain ⟨state, frame, p, hbefore, hframe, hreceive, -⟩ :=
      handleIncoming_receives (htalk.run ht) hspawn rfl
    cases hincoming.symm.trans hframe
    obtain ⟨-, -, ⟨state', -, hlaunches⟩, -⟩ := receive_spawns hreceive hspawn
    cases hlaunches with
    | query hrequest => cases hrequest
    | snapshotExport hrequest => cases hrequest
    | commit _ _ hqueue _ hreads =>
      obtain ⟨hpre, hphase⟩ := (hturns ▸ htalk).upto
      obtain rfl := hpre.queue (hbefore ▸ hphase) hqueue
      have hfalse := List.any_eq_false.mp hreads queued hqueued
      simp [hread, hwrite] at hfalse
  · intro t n request o next c ans adapter h hn ho hstep
    obtain ⟨asked, hasked, hstatements⟩ := h.executing hn ho
    obtain ⟨⟨ans', site⟩, hsite, heq⟩ := Option.map_eq_some_iff.mp hstep
    cases heq
    have hthrough := hE.through ho hstatements (fun a ha hflag => .inr (hasked.reads h a ha hflag))
      hsite
    exact ⟨asked, hasked, hstatements, hthrough, hthrough.unchanged⟩

/-- What a statement leaves of a content, for an engine that only records. -/
def recorded (statement : Statement) (content : Bytes) : Bytes :=
  if statement.query = "CREATE ()" then content ++ [1] else content

def Engine.recording : Engine :=
  { Engine.plain with
    preparesWrite := fun query => query = "CREATE ()"
    execute := fun statement _ content => .ok (.read ⟨[], [], true⟩, recorded statement content)
    executeTransaction := fun statements _ content =>
      .ok (statements.map fun _ => .read ⟨[], [], true⟩,
        statements.foldl (fun content statement => recorded statement content) content) }

def Http.Config.matching : Http.Config :=
  { Http.Config.plain with
    parseQuery := fun _ => .ok ⟨"MATCH (n) RETURN n", [], false, true, none⟩
    prepare := fun query => if query = "CREATE ()" then .error "" else .ok () }

theorem recording_confined : Engine.recording.Confined Http.Config.matching.prepare
    fun statement content content' => content' = recorded statement content where
  one statement limits content result content' h := by
    cases h
    rfl
  all statements limits content results content' h := by
    cases h
    induction statements generalizing content with
    | nil => exact .nil
    | cons statement rest ih => exact .cons rfl (ih _)
  writes statement content content' heffect hne := by
    by_cases hquery : statement.query = "CREATE ()"
    · simp [Engine.recording, Http.Config.matching, hquery, Except.isOk, Except.toBool]
    · exact absurd (heffect.trans (if_neg hquery)) hne

/-- A `read_only` query is about to be executed. -/
def matchingQuery : Http.Traffic :=
  List.foldl (Http.Traffic.occur .recording .matching) (.fresh (.resting [7]) fun _ => 0)
    [.arrive 0 (.query []), .act 0 (.of .ok), .act 0 (.of .ok), .act 0 (.of .ok), .act 0 (.of .ok)]

theorem read_only_changes_nothing_matching :
    (matchingQuery.occur .recording .matching (.act 0 (.of .ok))).adapter.site.slot =
      matchingQuery.adapter.site.slot := by
  have hreaches : matchingQuery.Reaches .recording .matching := ⟨_, _, _, rfl⟩
  obtain ⟨-, -, hhttp⟩ := @read_only_changes_nothing _ .plain _ _ recording_confined
  obtain ⟨asked, hasked, -, -, hsame⟩ :=
    hhttp matchingQuery 0 _ _ _ (.of .ok) _ _ hreaches rfl rfl rfl
  refine hsame fun a ha => ?_
  cases hasked with
  | one =>
    cases List.mem_singleton.mp ha
    rfl
  | batch hn => cases hn

end NostdbServer
