import NostdbServer.Daemon.Steps
import NostdbServer.Protocol.Moments
import NostdbServer.Protocol.Uploads

/-!
# The Database that an upload replaces

An upload keeps the name it was begun with, and its commit looks the name up once
more. So the Database that is replaced is the one the name denotes at the commit.
-/

namespace NostdbServer

open Effects

-- ---------------------------------------------------------------------------
-- What a restore does to the files
-- ---------------------------------------------------------------------------

/-- The step that puts a snapshot in the place of the Database. -/
def installed : Event storage := ⟨.file (.rename .restoreCandidate .database), .ok ()⟩

/-- A success comes after the snapshot was put in place. -/
def Installs (r : Except ProtocolFailure Unit) (log : List (Event storage)) : Prop :=
  r = .ok () → installed ∈ log

theorem Installs.after (r : Except ProtocolFailure Unit) (log log' : List (Event storage))
    (h : Installs r log') : Installs r (log ++ log') :=
  fun hr => List.mem_append_right _ (h hr)

theorem Installs.error (e : ProtocolFailure) (log : List (Event storage)) :
    Installs (.error e) log := nofun

section
variable {handle : ManagedDatabase}

/-- Something first, and then a program that installs. -/
theorem Installs.bind {p : Prog storage ProtocolFailure α}
    {f : α → Prog storage ProtocolFailure Unit} (hf : ∀ a, Performs (f a) Installs) :
    Performs (p.bind f) Installs :=
  Performs.after Installs.after Installs.error hf

theorem Installs.fail {e : ProtocolFailure} :
    Performs (.fail e : Prog storage ProtocolFailure Unit) Installs :=
  Performs.fail nofun

theorem reopenLive_installs {what reopening : String} :
    Performs (reopenLive handle what reopening) Installs := by
  refine Installs.bind ?_
  rintro (_ | _)
  · exact Installs.fail
  · refine Installs.bind fun _ => Installs.bind ?_
    rintro (_ | _) <;> exact Installs.fail

theorem rollBackInstalled_installs {error : String} :
    Performs (rollBackInstalled handle error) Installs := by
  refine Installs.bind ?_
  rintro (_ | _)
  · exact Installs.fail
  · refine Installs.bind fun _ => Installs.bind fun _ => Installs.bind ?_
    rintro (_ | _)
    · exact Installs.fail
    · exact Installs.bind fun _ => reopenLive_installs

theorem installSnapshot_installs : Performs (installSnapshot handle) Installs := by
  refine Installs.bind ?_
  rintro (_ | current)
  · exact Installs.fail
  refine Installs.bind ?_
  rintro (_ | _)
  · refine Installs.bind fun _ => Installs.bind ?_
    rintro (_ | _) <;> exact Installs.fail
  refine Installs.bind ?_
  rintro (_ | _)
  · exact reopenLive_installs
  refine Installs.bind fun _ => Performs.step ?_
  rintro (_ | _)
  · refine Performs.mono (R := Installs) (Installs.bind ?_) fun r l h =>
      Installs.after r [_] l h
    rintro (_ | _)
    · exact Installs.fail
    · exact Installs.bind fun _ => reopenLive_installs
  · exact (Performs.of_only (Prog.Only.of_forall (P := fun _ => True) (fun _ => trivial) _)).mono
      fun _ _ _ _ => List.mem_cons_self ..

theorem withGuard_installs {body : Prog storage ProtocolFailure Unit} (h : Performs body Installs) :
    Performs (withGuard body) Installs := by
  refine Installs.bind fun _ => Performs.attempt_bind h ?_
  intro r log hlog
  refine Performs.step fun _ => Performs.ofExcept fun hr => ?_
  exact List.mem_append_left _ (hlog hr)

theorem restoreSnapshotWithOperations_installs (K : Codec RestoreJournal) (bytes : Bytes) :
    Performs (restoreSnapshotWithOperations K handle bytes) Installs := by
  unfold restoreSnapshotWithOperations
  split
  · exact Installs.fail
  refine Installs.bind fun _ => Installs.bind fun _ => ?_
  have hbody : Performs (do
      prepareSnapshot K handle bytes
      withGuard (installSnapshot handle)) Installs :=
    Installs.bind fun _ => withGuard_installs installSnapshot_installs
  refine Performs.attempt_bind hbody ?_
  rintro (_ | ⟨⟩) log hlog
  · exact Performs.mono (R := Installs) (Installs.bind fun _ => Installs.fail)
      fun r l => Installs.after r log l
  · exact Performs.pure (Installs.after _ [] _ (by simpa using hlog))

end

-- ---------------------------------------------------------------------------
-- What a commit does to the Databases
-- ---------------------------------------------------------------------------

/-- An event on the files or the handle of one Database. -/
def within (databaseId : String) (e : Event storage) : Event connection :=
  ⟨.daemon (.storage databaseId e.op), e.answer⟩

theorem calling_inside {p : Prog storage ε α} {R : Except ε α → List (Event storage) → Prop}
    (h : Performs p R) :
    Performs (calling (inside databaseId p)) fun r log =>
      ∃ inner, R r inner ∧ log = inner.map (within databaseId) := by
  refine Performs.mono (Performs.lift (T := connection) (Performs.lift (T := daemon) h)) ?_
  rintro r log ⟨middle, ⟨inner, hr, hinner⟩, hmiddle⟩
  refine ⟨inner, hr, ?_⟩
  clear hr
  induction hinner generalizing log with
  | nil =>
    cases hmiddle
    rfl
  | @cons e _ _ _ he _ ih =>
    cases hmiddle with
    | cons he' hrest =>
      obtain ⟨ans, rfl, hans⟩ := he
      obtain ⟨ans', rfl, hans'⟩ := he'
      cases e
      cases hans
      cases hans'
      rw [List.map_cons, ih _ hrest]
      rfl

/-- The events of a restore that succeeds: it looks the name up, takes the handle
that is registered, and works on the Database of that handle only. -/
structure Restored (name : String) (log : List (Event connection)) (catalog : Catalog)
    (entry : CatalogDatabase) (handle : ManagedDatabase) : Prop where
  named : catalog.byName? name = some entry
  events : ∃ inner : List (Event storage), installed ∈ inner ∧
    log = lookedUp catalog ++ ⟨.daemon (.readHandle entry.id), some handle⟩ ::
      inner.map (within handle.id)

theorem restoreSnapshot_performs (root : DataDirectory) (name : String) (bytes : Bytes) :
    Performs (calling (restoreSnapshot root name bytes)) fun r log =>
      r = .ok () → ∃ catalog entry handle, Restored name log catalog entry handle := by
  unfold restoreSnapshot handleForName
  simp only [Prog.bind_eq, calling_bind, Prog.bind_assoc]
  refine Performs.bind (entryOf_performs name) ?_ fun _ _ _ => nofun
  rintro entry _ ⟨catalog, rfl, hentry⟩
  have hentry : catalog.byName? name = some entry := by
    cases h : catalog.byName? name <;> simp_all
  refine Performs.op (S := connection) (o := .daemon (.readHandle entry.id)) ?_
  rintro (_ | handle)
  · exact Performs.fail nofun
  refine Performs.mono (calling_inside (restoreSnapshotWithOperations_installs root.restore bytes)) ?_
  rintro r _ ⟨inner, hinstalls, rfl⟩ hr
  exact ⟨catalog, entry, handle, hentry, inner, hinstalls hr, rfl⟩

def ServerResponse.isRestored : ServerResponse → Bool
  | .snapshotRestore state _ => state = "restored"
  | _ => false

/-- The Database a snapshot is put in the place of. -/
def installs? : Event connection → Option String
  | ⟨.daemon (.storage databaseId (.file (.rename .restoreCandidate .database))), .ok _⟩ =>
    some databaseId
  | _ => none

namespace Turn

def isRestored (t : Turn) : Bool := t.responses.any ServerResponse.isRestored

/-- The turn takes up the begin of an upload for the name. -/
def beginsUpload (name : String) (t : Turn) : Bool :=
  match t.incoming with
  | .frame ⟨_, .snapshotRestoreBegin database _⟩ => database = name
  | _ => false

def commitsUpload (t : Turn) : Bool :=
  match t.incoming with
  | .frame ⟨_, .snapshotRestoreCommit⟩ => true
  | _ => false

/-- The Databases the turn replaces. -/
def replaced (t : Turn) : List String := t.log.filterMap installs?

end Turn

theorem response?_mem {log : List (Event connection)} (h : response ∈ log.filterMap response?) :
    ∃ frame, .send frame ∈ log.map Event.op := by
  obtain ⟨⟨o, ans⟩, he, hsome⟩ := List.mem_filterMap.mp h
  cases o with
  | send frame => exact ⟨frame, List.mem_map_of_mem (f := Event.op) he⟩
  | _ => cases hsome

section
variable {service : Service} {state : ConnectionState} {upload : SnapshotUpload}

/-- An operation that does not answer `restored`. -/
def ConnectionOp.Withheld : ConnectionOp → Prop
  | .send frame => frame.response.isRestored = false
  | _ => True

theorem any_isRestored {log : List (Event connection)} (h : ∀ e ∈ log, e.op.Withheld) :
    (log.filterMap response?).any ServerResponse.isRestored = false := by
  rw [List.any_eq_false]
  intro response hresponse
  obtain ⟨⟨o, ans⟩, he, hsome⟩ := List.mem_filterMap.mp hresponse
  have ho : o.Withheld := h _ he
  cases o with
  | send frame =>
    cases ans with
    | false => cases hsome
    | true =>
      cases hsome
      simpa [ConnectionOp.Withheld] using ho
  | _ => cases hsome

theorem sendFailure_withheld (requestId : UInt64) (error : ProtocolFailure) :
    (sendFailure service requestId error).Only (S := connection) ConnectionOp.Withheld :=
  sendResponse_sends rfl rfl

/-- A call that is answered `restored` has succeeded, and the answer is all that
follows it. -/
theorem restoreCall_restored
    (hrun : (restoreCall service requestId state upload).Run log rest)
    (hrestored : (log.filterMap response?).any ServerResponse.isRestored = true) :
    ∃ called answered catalog entry handle, log = called ++ answered ∧
      Restored upload.database called catalog entry handle ∧
        ∀ e ∈ answered, e.op.isDaemon = false := by
  have hcalling {o : ConnectionOp} (h : o.isDaemon = true) : o.Withheld := by
    cases o <;> first | trivial | cases h
  obtain ⟨p', hp, -⟩ | ⟨result, called, answered, rfl, hcalled, hanswer⟩ := hrun.of_bind
  · have honly := (hp.only (calling_only _).attempt).1
    cases hrestored.symm.trans (any_isRestored fun e he => hcalling (honly e he))
  have honly := (hcalled.only (calling_only _).attempt).1
  cases result with
  | error error =>
    have hsends := (hanswer.only ((sendFailure_withheld requestId error).bind fun _ => trivial)).1
    have hall : ∀ e ∈ called ++ answered, e.op.Withheld := by
      intro e he
      rcases List.mem_append.mp he with he | he
      · exact hcalling (honly e he)
      · exact hsends e he
    cases hrestored.symm.trans (any_isRestored hall)
  | ok value =>
    have hperforms : Performs
        ((calling (restoreSnapshot service.root upload.database upload.bytes)).attempt :
          Prog connection String _) fun r log => r = .ok (.ok ()) →
            ∃ catalog entry handle, Restored upload.database log catalog entry handle :=
      Performs.attempt (restoreSnapshot_performs _ _ _) fun r log h hr => h (by cases hr; rfl)
    obtain ⟨catalog, entry, handle, h⟩ := hperforms.run hcalled rfl rfl
    refine ⟨called, answered, catalog, entry, handle, rfl, h, ?_⟩
    have hresponds (result : Except ProtocolFailure Unit) (response : Unit → ServerResponse) :
        (respondResult service requestId result response).Only (S := connection)
          fun o => ConnectionOp.isDaemon o = false := respondResult_only (fun _ => rfl) _ _
    exact (hanswer.only ((hresponds _ _).bind fun _ => trivial)).1

/-- The commit of an upload that is answered `restored`. -/
theorem Conversation.restored {c : Turn} (h : Conversation E service turns) (hc : c ∈ turns)
    (hcommit : c.commitsUpload = true) (hrestored : c.isRestored = true) :
    ∃ state upload called answered catalog entry handle, c.before = .session state ∧
      state.restore = some upload ∧ c.log = called ++ answered ∧
        Restored upload.database called catalog entry handle ∧
          ∀ e ∈ answered, e.op.isDaemon = false := by
  have hrun := h.run hc
  obtain ⟨response, hresponse, -⟩ := List.any_eq_true.mp hrestored
  obtain ⟨sending, hsending⟩ := response?_mem hresponse
  obtain ⟨state, frame, p, hbefore, hincoming, hreceive, -⟩ :=
    handleIncoming_receives hrun hsending rfl
  have hrequest : frame.request = .snapshotRestoreCommit := by
    unfold Turn.commitsUpload at hcommit
    split at hcommit
    · rename_i hframe
      cases hincoming.symm.trans hframe
      rfl
    · cases hcommit
  obtain ⟨state', code, message, hrefused⟩ | ⟨upload, hupload, -, hcall⟩ :=
    receive_restoreCommit_cases hrequest hreceive
  · have honly := (hrefused.only ((sendFailure_withheld _ _).bind fun _ => trivial)).1
    cases hrestored.symm.trans (any_isRestored honly)
  · obtain ⟨called, answered, catalog, entry, handle, h⟩ := restoreCall_restored hcall hrestored
    exact ⟨state, upload, called, answered, catalog, entry, handle, hbefore, hupload, h⟩

end

section
variable {called answered : List (Event connection)} {catalog : Catalog} {entry : CatalogDatabase}
  {handle : ManagedDatabase} {t : Turn}

/-- Only the Database of the handle is replaced. -/
theorem Restored.replaced (h : Restored name called catalog entry handle)
    (hlog : t.log = called ++ answered) (hanswered : ∀ e ∈ answered, e.op.isDaemon = false)
    (databaseId : String) : databaseId ∈ t.replaced ↔ databaseId = handle.id := by
  obtain ⟨-, inner, hinstalled, rfl⟩ := h
  rw [Turn.replaced, hlog]
  constructor
  · intro hmem
    obtain ⟨e, he, hsome⟩ := List.mem_filterMap.mp hmem
    rcases List.mem_append.mp he with he | he
    · rcases List.mem_append.mp he with he | he
      · simp only [lookedUp, List.mem_cons, List.not_mem_nil, or_false] at he
        rcases he with rfl | rfl | rfl <;> cases hsome
      · rcases List.mem_cons.mp he with rfl | he
        · cases hsome
        · obtain ⟨⟨o, ans⟩, -, rfl⟩ := List.mem_map.mp he
          unfold within installs? at hsome
          split at hsome
          · rename_i heq
            injection congrArg Event.op heq with hop
            injection hop with hid
            rw [hid]
            exact (Option.some.inj hsome).symm
          · cases hsome
    · have hdaemon := hanswered _ he
      unfold installs? at hsome
      split at hsome
      · cases hdaemon
      · cases hsome
  · rintro rfl
    refine List.mem_filterMap.mpr ⟨within handle.id installed, ?_, rfl⟩
    refine List.mem_append_left _ (List.mem_append_right _ (List.mem_cons_of_mem _ ?_))
    exact List.mem_map_of_mem hinstalled

end

-- ---------------------------------------------------------------------------
-- The Database at the commit
-- ---------------------------------------------------------------------------

/-- The Database a name denotes. -/
def Daemon.denoted (d : Daemon) (name : String) : Option String :=
  (d.memory.catalog.byName? name).map CatalogDatabase.id

namespace Server

variable {ι : Type} [DecidableEq ι] {E : Engine} {service : Service} {uuids : Nat → String}
  {s s₀ : Server ι} {i : ι} {d : Daemon} {b c : Turn}

/-- The commit looks the name of its upload up, and replaces what it denotes. -/
theorem Reaches.replaces (hd : d.Keyed) (h₀ : Reaches E service uuids (initial d) s₀)
    (h : Reaches E service uuids s₀ s) (hturns : (s.links i).turns = past ++ c :: later)
    (hold : (s₀.links i).turns.length ≤ past.length) (hcommit : c.commitsUpload = true)
    (hrestored : c.isRestored = true) :
    ∃ state upload s₁ catalog replaced, c.before = .session state ∧ state.restore = some upload ∧
      Reaches E service uuids s₀ s₁ ∧ Reaches E service uuids s₁ s ∧
      Moment E service uuids s₁ i past [⟨.daemon .lockCatalog, ()⟩]
        ⟨.daemon .readCatalog, catalog⟩ ∧
      s₁.daemon.denoted upload.database = some replaced ∧
      ∀ databaseId, databaseId ∈ c.replaced ↔ databaseId = replaced := by
  have htalk := (Reaches.link (h₀.trans h) i).kept.talk
  obtain ⟨state, upload, called, answered, catalog, entry, handle, hbefore, hupload, hlog, hcalled,
    hanswered⟩ := htalk.restored (by rw [hturns]; simp) hcommit hrestored
  obtain ⟨inner, -, hevents⟩ := hcalled.events
  have hread : ∃ after, c.log = [⟨.daemon .lockCatalog, ()⟩] ++
      ⟨.daemon .readCatalog, catalog⟩ :: after := by
    rw [hlog, hevents]
    exact ⟨_, rfl⟩
  obtain ⟨after, hread⟩ := hread
  have hhandle : c.log = lookedUp catalog ++
      ⟨.daemon (.readHandle entry.id), some handle⟩ :: (inner.map (within handle.id) ++ answered) := by
    rw [hlog, hevents]
    simp
  obtain ⟨s₁, hs₁, hs, hmoment⟩ := h.moment hturns hread hold
  obtain ⟨s₂, hs₂, -, hmoment₂⟩ := h.moment hturns hhandle hold
  have hcatalog : s₁.daemon.memory.catalog = catalog := by
    obtain ⟨_, _, hstep⟩ := hmoment.daemon
    cases hstep
    rfl
  have hid : handle.id = entry.id := by
    obtain ⟨_, _, hstep⟩ := hmoment₂.daemon
    have hkeyed := Reaches.daemon (fun _ _ _ _ _ hstep h => Daemon.Keyed.step h hstep)
      (h₀.trans hs₂) hd
    simp only [Daemon.step] at hstep
    split at hstep
    · cases hstep
    · injection hstep with hstep
      injection hstep with hhandle
      exact hkeyed _ _ hhandle
  refine ⟨state, upload, s₁, catalog, entry.id, hbefore, hupload, hs₁, hs, hmoment, ?_, ?_⟩
  · rw [Daemon.denoted, hcatalog, hcalled.named]
    rfl
  · rw [← hid]
    exact hcalled.replaced hlog hanswered

theorem filter_getLast? {p : α → Bool} {a : α} {after : List α} (before : List α) (ha : p a = true)
    (hafter : ∀ x ∈ after, p x = false) :
    ((before ++ a :: after).filter p).getLast? = some a := by
  have hnil : after.filter p = [] := List.filter_eq_nil_iff.mpr fun x hx => by simp [hafter x hx]
  simp [List.filter_append, List.filter_cons_of_pos ha, hnil]

/-- A restored upload has replaced the Database its name denoted when it was begun
exactly if the name denotes the same Database when the commit looks it up. -/
theorem upload_replaces_its_database_iff (hd : d.Keyed)
    (h₀ : Reaches E service uuids (initial d) s₀) (hready : (s₀.links i).turns = earlier ++ [b])
    (h : Reaches E service uuids s₀ s)
    (hturns : (s.links i).turns = earlier ++ b :: since ++ c :: later)
    (hname : b.beginsUpload name = true) (hb : b.isReady = true)
    (hsince : ∀ t ∈ since, t.isReady = false) (hcommit : c.commitsUpload = true)
    (hrestored : c.isRestored = true) :
    ∃ s₁ catalog replaced, Reaches E service uuids s₀ s₁ ∧ Reaches E service uuids s₁ s ∧
      Moment E service uuids s₁ i (earlier ++ b :: since) [⟨.daemon .lockCatalog, ()⟩]
        ⟨.daemon .readCatalog, catalog⟩ ∧
      (∀ databaseId, databaseId ∈ c.replaced ↔ databaseId = replaced) ∧
      (s₀.daemon.denoted name = some replaced ↔ s₁.daemon.denoted name = s₀.daemon.denoted name) := by
  have hold : (s₀.links i).turns.length ≤ (earlier ++ b :: since).length := by
    rw [hready]
    simp
  obtain ⟨state, upload, s₁, catalog, replaced, hbefore, hupload, hs₁, hs, hmoment, hdenoted,
    hreplaced⟩ := Reaches.replaces hd h₀ h hturns hold hcommit hrestored
  -- The upload of the commit is the one `b` has begun.
  have htalk := (Reaches.link (h₀.trans h) i).kept.talk
  rw [hturns] at htalk
  obtain ⟨hpast, hphase⟩ := htalk.upto
  obtain ⟨earlier', b', since', hsplit, hof⟩ := hpast.uploading (hbefore ▸ hphase) hupload
  have hlast := filter_getLast? earlier hb hsince
  rw [hsplit, filter_getLast? earlier' hof.begun.1 hof.latest] at hlast
  have hsame : b' = b := Option.some.inj hlast
  obtain ⟨-, ⟨requestId, request⟩, hbegin, hrequest⟩ := hof.begun
  dsimp only at hrequest
  subst hrequest
  have hname : upload.database = name := by simpa [Turn.beginsUpload, ← hsame, hbegin] using hname
  subst hname
  refine ⟨s₁, catalog, replaced, hs₁, hs, hmoment, hreplaced, ?_⟩
  rw [hdenoted, eq_comm]

-- ---------------------------------------------------------------------------
-- A name that is used again
-- ---------------------------------------------------------------------------

/-- The Database `main` as it was, and the one created under its name. -/
def firstMain : String := "00000000-0000-4000-8000-000000000001"
def secondMain : String := "00000000-0000-4000-8000-000000000002"

def onMain (acts : List (Act Bool)) (s : Server Bool) : Option (Server Bool) :=
  s.run .plain { Service.plain with decodeBase64 := fun _ => .ok [7] } (fun _ => secondMain) acts

/-- An upload for `main` is begun. -/
def begunUpload : Option (Server Bool) :=
  onMain (Act.request false 1 (.hello 1 "admin" "uploader") 1 ++
    Act.request false 2 (.snapshotRestoreBegin "main" 1) 4)
    (.initial (.single (.plain "data") firstMain "main" [0]))

/-- Its one chunk, and its commit. -/
def wholeUpload : List (Act Bool) :=
  Act.request false 3 (.snapshotRestoreChunk 0 "Bw==") 1 ++
    Act.request false 4 .snapshotRestoreCommit 34

/-- Another connection drops `main` and creates it anew. -/
def reusedName : List (Act Bool) :=
  Act.request true 1 (.hello 1 "admin" "other") 1 ++
    Act.request true 2 (.databaseDrop "main" "main") 24 ++
    Act.request true 3 (.databaseCreate "main") 21

theorem upload_replaces_its_database_kept : ∃ s₀ s c s₁ replaced, begunUpload = some s₀ ∧
    onMain wholeUpload s₀ = some s ∧ (s.links false).turns.getLast? = some c ∧
    c.isRestored = true ∧ (∀ databaseId, databaseId ∈ c.replaced ↔ databaseId = replaced) ∧
    (s₀.daemon.denoted "main" = some replaced ↔
      (s₁ : Server Bool).daemon.denoted "main" = s₀.daemon.denoted "main") := by
  have h : (begunUpload.any fun s₀ => (onMain wholeUpload s₀).any fun s =>
      ((s₀.links false).turns.map fun t => (t.isReady, t.beginsUpload "main", t.after.isSome)) =
        [(false, false, true), (true, true, true)] ∧
      ((s.links false).turns.map fun t => (t.isReady, t.commitsUpload, t.isRestored)) =
        [(false, false, false), (true, false, false), (false, false, false),
          (false, true, true)]) = true := by decide +kernel
  obtain ⟨s₀, hs₀, h⟩ := (Option.any_eq_true _ _).mp h
  obtain ⟨s, hs, h⟩ := (Option.any_eq_true _ _).mp h
  obtain ⟨hbegun, hwhole⟩ := of_decide_eq_true h
  obtain ⟨hello, _, hturns₀, -, hb⟩ := List.map_eq_cons_iff.mp hbegun
  obtain ⟨b, _, rfl, hready, hnil⟩ := List.map_eq_cons_iff.mp hb
  cases List.map_eq_nil_iff.mp hnil
  simp only [Prod.mk.injEq] at hready
  obtain ⟨φ, hfinished⟩ := Option.isSome_iff_exists.mp hready.2.2
  have hturns₀ : (s₀.links false).turns = [hello] ++ [b] := hturns₀
  obtain ⟨since, hturns⟩ := Reaches.finished (reaches_of_run hs) hturns₀ hfinished
  rw [hturns] at hwhole
  simp only [List.map_append, List.map_cons, List.map_nil, List.cons_append, List.nil_append,
    List.cons.injEq] at hwhole
  obtain ⟨chunk, _, rfl, hchunk, hc⟩ := List.map_eq_cons_iff.mp hwhole.2.2
  obtain ⟨c, _, rfl, hcommit, hnil⟩ := List.map_eq_cons_iff.mp hc
  cases List.map_eq_nil_iff.mp hnil
  simp only [Prod.mk.injEq] at hchunk hcommit
  have hturns : (s.links false).turns = [hello] ++ b :: [chunk] ++ c :: [] := hturns
  have hkeyed : (Daemon.single (.plain "data") firstMain "main" [0]).Keyed := by
    intro databaseId handle hhandle
    simp only [Daemon.single, Option.ite_none_right_eq_some, Option.some.injEq] at hhandle
    obtain ⟨rfl, rfl⟩ := hhandle
    rfl
  obtain ⟨s₁, -, replaced, -, -, -, hreplaced, hiff⟩ := upload_replaces_its_database_iff hkeyed
    (reaches_of_run hs₀) hturns₀ (reaches_of_run hs) hturns hready.2.1 hready.1
    (by simpa using hchunk.1) hcommit.2.1 hcommit.2.2
  exact ⟨s₀, s, c, s₁, replaced, hs₀, hs, by rw [hturns]; rfl, hcommit.2.2, hreplaced, hiff⟩

/-- The upload that was begun for the first Database replaces the second. -/
theorem upload_replaces_another_database : ∃ s₀ s b c, begunUpload = some s₀ ∧
    (onMain (reusedName ++ wholeUpload) s₀) = some s ∧
    (s₀.links false).turns.getLast? = some b ∧ b.beginsUpload "main" = true ∧ b.isReady = true ∧
    s₀.daemon.denoted "main" = some firstMain ∧
    (s.links false).turns.getLast? = some c ∧ c.commitsUpload = true ∧ c.isRestored = true ∧
    c.replaced = [secondMain] := by
  have h : (begunUpload.any fun s₀ => (onMain (reusedName ++ wholeUpload) s₀).any fun s =>
      ((s₀.links false).turns.getLast?.any fun b => b.beginsUpload "main" && b.isReady) &&
      decide (s₀.daemon.denoted "main" = some firstMain) &&
      ((s.links false).turns.getLast?.any fun c => c.commitsUpload && c.isRestored &&
        decide (c.replaced = [secondMain]))) = true := by decide +kernel
  obtain ⟨s₀, hs₀, h⟩ := (Option.any_eq_true _ _).mp h
  obtain ⟨s, hs, h⟩ := (Option.any_eq_true _ _).mp h
  simp only [Bool.and_eq_true, decide_eq_true_eq] at h
  obtain ⟨⟨hb, hdenoted⟩, hc⟩ := h
  obtain ⟨b, hlast, hb⟩ := (Option.any_eq_true _ _).mp hb
  obtain ⟨c, hlast', hc⟩ := (Option.any_eq_true _ _).mp hc
  simp only [Bool.and_eq_true, decide_eq_true_eq] at hb hc
  exact ⟨s₀, s, b, c, hs₀, hs, hlast, hb.1, hb.2, hdenoted, hlast', hc.1.1, hc.1.2, hc.2⟩

end Server

end NostdbServer
