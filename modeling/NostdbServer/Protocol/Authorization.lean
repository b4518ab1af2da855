import NostdbServer.Protocol.Sizes
import NostdbServer.Protocol.Turns

/-!
# Authorization

Nothing happens on a connection whose first frame is not a valid hello, and a
connection without the administrative credential gets no administrative request
past the first check: it is denied and nothing is changed by it.
-/

namespace NostdbServer

open Effects

def Turn.frame? (t : Turn) : Option ClientFrame :=
  match t.incoming with
  | .frame frame => some frame
  | _ => none

def firstFrame? (turns : List Turn) : Option ClientFrame := turns.findSome? Turn.frame?

theorem firstFrame?_append (turns turns' : List Turn) :
    firstFrame? (turns ++ turns') = (firstFrame? turns).or (firstFrame? turns') :=
  List.findSome?_append

/-- A hello that starts a session. -/
structure Hello (service : Service) (frame : ClientFrame) (credential : String) : Prop where
  identified : frame.requestId ≠ 0
  request : ∃ clientName, frame.request = .hello DATABASE_PROTOCOL_VERSION credential clientName
  known : credential = service.credentials.query ∨ credential = service.credentials.admin

/-- The session was started by the first frame. -/
structure Admitted (service : Service) (turns : List Turn) (role : ClientRole) : Prop where
  hello : ∃ frame credential, firstFrame? turns = some frame ∧ Hello service frame credential ∧
    service.credentials.authenticate credential = some role

theorem Admitted.append (h : Admitted service turns role) (turns' : List Turn) :
    Admitted service (turns ++ turns') role := by
  obtain ⟨frame, credential, hfirst, hhello, hrole⟩ := h
  exact ⟨frame, credential, by rw [firstFrame?_append, hfirst]; rfl, hhello, hrole⟩

theorem Changed.role (h : Changed frame state state') : state'.role = state.role := by
  cases h <;> rfl

theorem receive_role {frame : ClientFrame}
    (h : (receive E service frame state).Run log (.pure state')) : state'.role = state.role := by
  obtain ⟨-, rfl⟩ | ⟨-, h⟩ := receive_changed.run h
  · rfl
  · exact h.role

/-- Who a conversation in its greeting or in a session is held with. -/
theorem Conversation.admitted (h : Conversation E service turns) :
    (phaseAfter turns = some .greeting → firstFrame? turns = none) ∧
      ∀ state, phaseAfter turns = some (.session state) → Admitted service turns state.role := by
  induction h with
  | start => exact ⟨fun _ => rfl, fun state h => by cases h⟩
  | @turn turns before incoming log rest hturns hphase hrun ih =>
    obtain ⟨hgreeting, hsession⟩ := ih
    have hended {φ : Phase} := Turn.ended (φ := φ) (t := ⟨before, incoming, log, rest⟩) hrun
    simp only [phaseAfter_snoc, firstFrame?_append]
    refine ⟨fun hafter => ?_, fun state hafter => ?_⟩
    · cases hended hafter with
      | waiting hbefore hincoming =>
        cases hbefore
        have hframe : firstFrame? [⟨.greeting, incoming, log, rest⟩] = none := by
          cases incoming <;> first | rfl | exact absurd rfl (hincoming _)
        rw [hgreeting hphase, hframe]
        rfl
      | greeted _ _ h => cases h
    · cases hended hafter with
      | greeted hbefore hincoming h =>
        cases hbefore
        cases hincoming
        cases h with
        | @session credential clientName role hrequest hid hrole =>
          refine ⟨_, credential, by rw [firstFrame?_append, hgreeting hphase]; rfl,
            ⟨hid, ⟨_, hrequest⟩, ?_⟩, hrole⟩
          exact (Credentials.authenticate_isSome.mp (by simp [hrole])).symm
      | woken hbefore => exact (hsession _ (hbefore ▸ hphase)).append _
      | received hbefore _ h =>
        rw [receive_role h]
        exact (hsession _ (hbefore ▸ hphase)).append _

-- ---------------------------------------------------------------------------
-- Without the administrative credential
-- ---------------------------------------------------------------------------

/-- The code of a failure that is sent. -/
def ConnectionOp.errorCode? : ConnectionOp → Option ErrorCode
  | .send ⟨_, .error code _ _⟩ => some code
  | _ => none

def denial : ProtocolFailure :=
  .new .permissionDenied "administrative credential is required"

def ClientRequest.selects : ClientRequest → Bool
  | .selectDatabase _ => true
  | _ => false

/-- What a request may do without the administrative credential. -/
def ConnectionOp.unprivileged (request : ClientRequest) : ConnectionOp → Bool
  | .daemon .lockCatalog | .daemon .readCatalog | .daemon .unlockCatalog => request.selects
  | .daemon _ => false
  | .spawn _ (.snapshotExport _) => false
  | _ => true

theorem ConnectionOp.unprivileged_daemon {request : ClientRequest} {o : DaemonOp}
    (h : ConnectionOp.unprivileged request (.daemon o) = true) :
    (o = .lockCatalog ∨ o = .readCatalog ∨ o = .unlockCatalog) ∧
      ∃ database, request = .selectDatabase database := by
  have hselect (h : request.selects = true) : ∃ database, request = .selectDatabase database := by
    unfold ClientRequest.selects at h
    split at h
    · exact ⟨_, rfl⟩
    · cases h
  cases o with
  | lockCatalog => exact ⟨.inl rfl, hselect h⟩
  | readCatalog => exact ⟨.inr (.inl rfl), hselect h⟩
  | unlockCatalog => exact ⟨.inr (.inr rfl), hselect h⟩
  | _ => cases h

theorem selectDatabase_only {P : ConnectionOp → Prop} (hlock : P (.daemon .lockCatalog))
    (hread : P (.daemon .readCatalog)) (hunlock : P (.daemon .unlockCatalog)) :
    (calling (selectDatabase database)).Only (S := connection) P := by
  refine Prog.Only.lift (Prog.Only.bind ?_ fun _ => trivial)
  refine Prog.Only.step hlock fun _ => Prog.Only.step hread fun catalog => ?_
  refine Prog.Only.bind (Prog.Only.attempt ?_) fun result => Prog.Only.step hunlock fun _ => ?_
  · dsimp only
    split <;> trivial
  · cases result <;> trivial

section
variable {frame : ClientFrame} {state : ConnectionState}

theorem receive_unprivileged (hrole : state.role ≠ .admin) :
    (receive E service frame state).Only (S := connection) fun o =>
      ConnectionOp.unprivileged frame.request o = true := by
  have hsend (response : ServerResponse) : ConnectionOp.unprivileged frame.request
      (.send ⟨frame.requestId, response⟩) = true := rfl
  unfold receive
  split
  · exact refuse_only hsend
  unfold dispatch
  dsimp only
  split
  · exact refuse_only hsend
  rename_i hprivileged
  have hplain : isAdminRequest frame.request = false := by simpa [hrole] using hprivileged
  split
  · exact refuse_only hsend
  split
  case h_1 => exact refuse_only hsend
  case h_2 => exact answer_only hsend
  case h_3 database hrequest =>
    refine dispatchSelect_only hsend (selectDatabase_only ?_ ?_ ?_)
    all_goals simp [hrequest, ConnectionOp.unprivileged, ClientRequest.selects]
  case h_4 hrequest => exact dispatchQuery_only hsend rfl fun _ => rfl
  case h_5 => exact dispatchBegin_only hsend
  case h_6 => exact dispatchCommit_only hsend rfl fun _ _ => rfl
  case h_7 => exact dispatchRollback_only hsend
  case h_8 => exact dispatchCancel_only hsend rfl rfl
  all_goals simp_all [isAdminRequest]

/-- An administrative request gets nothing but the denial. -/
theorem receive_denied (hrole : state.role ≠ .admin) (hadmin : isAdminRequest frame.request = true)
    (hnew : state.lastRequestId < frame.requestId) :
    receive E service frame state =
      (offer (failureFrame frame.requestId denial)).bind fun _ =>
        .pure { state with lastRequestId := frame.requestId } := by
  have hfits : service.Fits (failureFrame frame.requestId denial) :=
    service.fits_failure (by decide +kernel) _
  have hsize : ¬ (service.frameSize (failureFrame frame.requestId denial) = 0 ∨
      MAX_FRAME_BYTES < service.frameSize (failureFrame frame.requestId denial)) := by
    simpa [Nat.pos_iff_ne_zero, Service.Fits] using hfits
  unfold receive
  rw [if_neg (UInt64.not_le.mpr hnew)]
  unfold dispatch
  dsimp only
  rw [if_pos ⟨hrole, hadmin⟩]
  unfold refuse sendFailure sendResponse
  dsimp only
  exact congrArg (Prog.bind · _) (if_neg hsize)

end

/-- A session without the administrative credential has no upload. -/
theorem Conversation.no_upload {state : ConnectionState} (h : Conversation E service turns)
    (hphase : phaseAfter turns = some (.session state)) (hrole : state.role ≠ .admin) :
    state.restore = none := by
  induction h generalizing state with
  | start => cases hphase
  | @turn turns before incoming log rest hturns hbefore hrun ih =>
    rw [phaseAfter_snoc] at hphase
    cases Turn.ended hrun hphase with
    | greeted _ _ h =>
      cases h
      rfl
    | woken heq => exact ih (heq ▸ hbefore) hrole
    | @received state₀ _ _ heq _ hreceive =>
      have hrole₀ : state₀.role ≠ .admin := receive_role hreceive ▸ hrole
      have hnone := ih (heq ▸ hbefore) hrole₀
      obtain ⟨-, rfl⟩ | ⟨-, hchanged⟩ := receive_changed.run hreceive
      · exact hnone
      · cases hchanged with
        | restore hadmin => exact absurd hadmin hrole₀
        | _ => exact hnone

/-- The turn belongs to a session, or does something to the daemon. -/
def Turn.Engages (t : Turn) : Prop :=
  (∃ state, t.before = .session state ∨ t.after = some (.session state)) ∨
    ∃ o ∈ t.log.map Event.op, o.isDaemon = true ∨ ∃ r task, o = .spawn r task

/-- All that a turn can do without the administrative credential. -/
structure Turn.Unprivileged (t : Turn) : Prop where
  state : ∀ state, t.before = .session state ∨ t.after = some (.session state) →
    state.role = .query ∧ state.restore = none
  daemon : ∀ o, .daemon o ∈ t.log.map Event.op →
    (o = .lockCatalog ∨ o = .readCatalog ∨ o = .unlockCatalog) ∧
      ∃ frame database, t.incoming = .frame frame ∧ frame.request = .selectDatabase database
  tasks : ∀ r database, .spawn r (.snapshotExport database) ∉ t.log.map Event.op
  /-- An administrative request is denied and leaves the state as it was, unless
  the response cannot be sent at all. -/
  denied : ∀ state frame, t.before = .session state → t.incoming = .frame frame →
    isAdminRequest frame.request = true → state.lastRequestId < frame.requestId →
    t.log = [] ∧ t.after = none ∨
    t.log = [sent (failureFrame frame.requestId denial)] ∧
      t.after = some (.session { state with lastRequestId := frame.requestId }) ∨
    t.log = [⟨.send (failureFrame frame.requestId denial), false⟩] ∧ t.after = some .closed

structure Authorized (service : Service) (turns : List Turn) : Prop where
  greeted : ∀ t ∈ turns, t.Engages →
    ∃ frame credential, firstFrame? turns = some frame ∧ Hello service frame credential
  unprivileged : ∀ frame credential, firstFrame? turns = some frame →
    Hello service frame credential → credential ≠ service.credentials.admin →
    ∀ t ∈ turns, t.Unprivileged

theorem Conversation.session {t : Turn} {state : ConnectionState} (h : Conversation E service turns)
    (ht : t ∈ turns) (hstate : t.before = .session state ∨ t.after = some (.session state)) :
    Admitted service turns state.role ∧ (state.role ≠ .admin → state.restore = none) := by
  obtain ⟨pre, post, rfl⟩ := List.append_of_mem ht
  rcases hstate with hbefore | hafter
  · obtain ⟨hpre, hphase⟩ := h.upto
    rw [hbefore] at hphase
    exact ⟨(hpre.admitted.2 state hphase).append _, hpre.no_upload hphase⟩
  · have hphase : phaseAfter (pre ++ [t]) = some (.session state) := by simpa using hafter
    refine ⟨?_, h.through.no_upload hphase⟩
    simpa using (h.through.admitted.2 state hphase).append post

theorem Admitted.query {frame : ClientFrame} (h : Admitted service turns role)
    (hfirst : firstFrame? turns = some frame) (hhello : Hello service frame credential)
    (hcredential : credential ≠ service.credentials.admin) : role = .query := by
  obtain ⟨frame', credential', hfirst', hhello', hrole⟩ := h
  cases hfirst.symm.trans hfirst'
  obtain ⟨_, hrequest⟩ := hhello.request
  obtain ⟨_, hrequest'⟩ := hhello'.request
  cases hrequest.symm.trans hrequest'
  cases role with
  | query => rfl
  | admin => exact absurd (Credentials.authenticate_admin.mp hrole) hcredential

theorem Turn.unprivileged {t : Turn}
    (h : (handleIncoming E service t.before t.incoming).Run t.log t.rest)
    (hstate : ∀ state, t.before = .session state ∨ t.after = some (.session state) →
      state.role = .query ∧ state.restore = none) : t.Unprivileged where
  state := hstate
  daemon o ho := by
    obtain ⟨state, frame, p, hbefore, hincoming, hrun, -⟩ := handleIncoming_receives h ho rfl
    have hrole : state.role ≠ .admin := by simp [(hstate state (.inl hbefore)).1]
    obtain ⟨e, he, heq⟩ := List.mem_map.mp ho
    have hop := (hrun.only (receive_unprivileged hrole)).1 e he
    rw [heq] at hop
    obtain ⟨hread, database, hrequest⟩ := ConnectionOp.unprivileged_daemon hop
    exact ⟨hread, frame, database, hincoming, hrequest⟩
  tasks r database hspawn := by
    obtain ⟨state, frame, p, hbefore, -, hrun, -⟩ := handleIncoming_receives h hspawn rfl
    have hrole : state.role ≠ .admin := by simp [(hstate state (.inl hbefore)).1]
    obtain ⟨e, he, heq⟩ := List.mem_map.mp hspawn
    have hop := (hrun.only (receive_unprivileged hrole)).1 e he
    rw [heq] at hop
    cases hop
  denied state frame hbefore hincoming hadmin hnew := by
    have hrole : state.role ≠ .admin := by simp [(hstate state (.inl hbefore)).1]
    obtain ⟨before, incoming, log, rest⟩ := t
    dsimp only at hbefore hincoming h
    subst hbefore hincoming
    change ((receive E service frame state).bind _).Run log rest at h
    rw [receive_denied hrole hadmin hnew] at h
    cases h with
    | refl => exact .inl ⟨rfl, rfl⟩
    | step accepted h =>
      cases accepted with
      | true =>
        cases h
        exact .inr (.inl ⟨rfl, rfl⟩)
      | false =>
        cases h
        exact .inr (.inr ⟨rfl, rfl⟩)

theorem connections_are_authorized (h : Conversation E service turns) :
    Authorized service turns where
  greeted t ht hengages := by
    have hadmitted : ∃ role, Admitted service turns role := by
      obtain ⟨state, hstate⟩ | ⟨o, ho, hop⟩ := hengages
      · exact ⟨_, (h.session ht hstate).1⟩
      · have hreceives : ConnectionOp.receives o = true := by
          obtain hdaemon | ⟨r, task, rfl⟩ := hop
          · cases o <;> first | rfl | cases hdaemon
          · rfl
        obtain ⟨state, -, -, hstate, -⟩ := handleIncoming_receives (h.run ht) ho hreceives
        exact ⟨_, (h.session ht (.inl hstate)).1⟩
    obtain ⟨role, frame, credential, hfirst, hhello, -⟩ := hadmitted
    exact ⟨frame, credential, hfirst, hhello⟩
  unprivileged frame credential hfirst hhello hcredential t ht := by
    refine Turn.unprivileged (h.run ht) fun state hstate => ?_
    obtain ⟨hadmitted, hupload⟩ := h.session ht hstate
    have hrole := hadmitted.query hfirst hhello hcredential
    exact ⟨hrole, hupload (by simp [hrole])⟩

/-- A client with the query credential asks for the list of Databases. -/
def curiousClient : List Turn :=
  converse .plain .plain (quietly ⟨CATALOG_VERSION, [⟨"id", "main", "ready"⟩]⟩) []
    [.frame ⟨1, .hello 1 "query" "client"⟩, .frame ⟨2, .databaseList⟩]

theorem connections_are_authorized_curious :
    (curiousClient.flatMap fun t => t.log.map fun e => e.op.errorCode?) =
        [none, some .permissionDenied] ∧
      Authorized .plain curiousClient :=
  ⟨by decide +kernel, connections_are_authorized (.converse (E := .plain) .start)⟩

end NostdbServer
