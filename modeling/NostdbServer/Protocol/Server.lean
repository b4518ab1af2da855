import Mathlib.Logic.Relation
import NostdbServer.Protocol.Authorization

/-!
# The server

Any number of connections on one daemon. Each connection takes its frames one
after the other; the tasks it started run beside it, and everything they do is
one step at a time, in any order. A link holds what belongs to one connection:
its turns so far, its tasks, the queue of responses, and the map of active
requests with their tokens and timers.

A task whose connection has returned with an error is aborted at some point: it
goes no further than the worker it has started.
-/

namespace NostdbServer

open Effects

/-- A task: what it has done and what is left. -/
structure Job where
  task : Task
  log : List (Event connection)
  rest : Prog connection String Unit

structure Link where
  past : List Turn
  turn : Option Turn
  jobs : UInt64 → Option Job
  spawned : List UInt64
  frames : List ServerFrame
  connected : Bool
  active : UInt64 → Bool
  cancelled : UInt64 → Bool
  expired : UInt64 → Bool
  aborted : UInt64 → Bool

def ConnectionOp.isJoin : ConnectionOp → Bool
  | .join _ => true
  | _ => false

/-- What a worker does by itself, on a thread of its own. -/
def ConnectionOp.byWorker : ConnectionOp → Bool
  | .daemon _ | .isCancelled _ => true
  | _ => false

def Job.finished (job : Job) : Bool := job.rest.result?.isSome

/-- The worker of the task is still awaited. -/
def Job.awaited (job : Job) : Bool :=
  match job.task with
  | .snapshotExport _ => false
  | _ => !job.log.any fun e => e.op.isJoin

namespace Link

def initial : Link :=
  ⟨[], none, fun _ => none, [], [], true, fun _ => false, fun _ => false, fun _ => false,
    fun _ => false⟩

def turns (l : Link) : List Turn := l.past ++ l.turn.toList

section
variable (E : Engine) (service : Service)

/-- The next frame is taken up. -/
def take (l : Link) (before : Phase) (incoming : Incoming) : Link :=
  { l with
    past := l.turns
    turn := some ⟨before, incoming, [], handleIncoming E service before incoming⟩ }

def start (l : Link) (requestId : UInt64) (task : Task) : Link :=
  { l with
    jobs := Function.update l.jobs requestId (some ⟨task, [], runTask E service requestId task⟩)
    spawned := l.spawned ++ [requestId] }

/-- The link after an operation. -/
def after (l : Link) : ConnectionOp → Link
  | .send frame => if l.connected then { l with frames := l.frames ++ [frame] } else l
  | .spawn requestId task => l.start E service requestId task
  | .insertActive requestId => { l with active := Function.update l.active requestId true }
  | .removeActive requestId => { l with active := Function.update l.active requestId false }
  | .cancel requestId => { l with cancelled := Function.update l.cancelled requestId true }
  | .cancelAll => { l with cancelled := fun r => l.cancelled r || l.active r }
  | _ => l

end

/-- `none`: the operation has to wait, or is not one of the link. -/
def answer (l : Link) (c : Outcome) : (o : ConnectionOp) → Option o.Ans
  | .daemon _ => none
  | .write _ | .joinWriter =>
    some (match c.error? with
      | some e => .error e.message
      | none => .ok ())
  | .send _ => some l.connected
  | .insertActive requestId | .isActive requestId => some (l.active requestId)
  | .isCancelled requestId => some (l.cancelled requestId)
  | .join requestId => some (l.expired requestId)
  | .spawn _ _ | .removeActive _ | .cancel _ | .cancelAll => some ()
  | .joinTasks => if l.spawned.all fun r => (l.jobs r).all Job.finished then some () else none

/-- The event of the turn, and what is left of it. -/
def advance (l : Link) (t : Turn) (e : Event connection) (rest : Prog connection String Phase) :
    Link :=
  { l with turn := some { t with log := t.log ++ [e], rest } }

def advanceJob (l : Link) (r : UInt64) (job : Job) (e : Event connection)
    (rest : Prog connection String Unit) : Link :=
  { l with jobs := Function.update l.jobs r (some { job with log := job.log ++ [e], rest }) }

def expire (l : Link) (r : UInt64) : Link :=
  { l with
    expired := Function.update l.expired r true
    cancelled := Function.update l.cancelled r true }

end Link

structure Server (ι : Type) where
  daemon : Daemon
  links : ι → Link

inductive Act (ι : Type)
  | receive (i : ι) (incoming : Incoming)
  | main (i : ι) (outcome : Outcome)
  | job (i : ι) (requestId : UInt64) (outcome : Outcome)
  | expire (i : ι) (requestId : UInt64)
  | disconnect (i : ι)
  | abort (i : ι) (requestId : UInt64)

section
variable {ι : Type}

def Act.mains (i : ι) (n : Nat) : List (Act ι) := List.replicate n (.main i .ok)

def Act.jobs (i : ι) (r : UInt64) (n : Nat) : List (Act ι) := List.replicate n (.job i r .ok)

/-- A request, and the next `n` steps of its connection. -/
def Act.request (i : ι) (r : UInt64) (request : ClientRequest) (n : Nat) : List (Act ι) :=
  .receive i (.frame ⟨r, request⟩) :: mains i n

end

namespace Server

variable {ι : Type} [DecidableEq ι]

def initial (d : Daemon) : Server ι := ⟨d, fun _ => .initial⟩

def setLink (s : Server ι) (i : ι) (l : Link) : Server ι :=
  { s with links := Function.update s.links i l }

section
variable (E : Engine) (service : Service) (uuids : Nat → String)

def perform (s : Server ι) (i : ι) (o : ConnectionOp) (c : Outcome) :
    Option (o.Ans × Server ι) :=
  match o with
  | .daemon o =>
    (Daemon.step E uuids o c s.daemon).map fun r => (r.1, { s with daemon := r.2 })
  | o => ((s.links i).answer c o).map fun ans => (ans, s.setLink i ((s.links i).after E service o))

def step (s : Server ι) : Act ι → Option (Server ι)
  | .receive i incoming =>
    match phaseAfter (s.links i).turns with
    | none | some .closed => none
    | some before => some (s.setLink i ((s.links i).take E service before incoming))
  | .main i c => do
    let t ← (s.links i).turn
    match t.rest with
    | .op o next =>
      let (ans, s') ← s.perform E service uuids i o c
      some (s'.setLink i ((s'.links i).advance t ⟨o, ans⟩ (next ans)))
    | _ => none
  | .job i r c => do
    let job ← (s.links i).jobs r
    match job.rest with
    | .op o next =>
      if (s.links i).aborted r && !o.byWorker then none
      else
        let (ans, s') ← s.perform E service uuids i o c
        some (s'.setLink i ((s'.links i).advanceJob r job ⟨o, ans⟩ (next ans)))
    | _ => none
  | .expire i r => do
    let job ← (s.links i).jobs r
    if job.awaited then some (s.setLink i ((s.links i).expire r)) else none
  | .disconnect i => some (s.setLink i { s.links i with connected := false })
  | .abort i r =>
    match phaseAfter (s.links i).turns with
    | some .closed =>
      some (s.setLink i { s.links i with
        aborted := Function.update (s.links i).aborted r true })
    | _ => none

def run (s : Server ι) : List (Act ι) → Option (Server ι)
  | [] => some s
  | a :: as => (s.step E service uuids a).bind fun s' => run s' as

/-- `t` is reached from `s` in some order of steps. -/
def Reaches (s t : Server ι) : Prop :=
  Relation.ReflTransGen (fun s t => ∃ a, step E service uuids s a = some t) s t

end

end Server

-- ---------------------------------------------------------------------------
-- One link among the others
-- ---------------------------------------------------------------------------

namespace Link

section
variable (E : Engine) (service : Service)

/-- The operation gets the answer. What the daemon answers is left open. -/
def Answers (l : Link) (o : ConnectionOp) (ans : o.Ans) : Prop :=
  (∃ d, o = .daemon d) ∨ ∃ c, l.answer c o = some ans

inductive Step : Link → Link → Prop
  | receive (hphase : phaseAfter l.turns = some before) (hopen : before ≠ .closed) :
      Step l (l.take E service before incoming)
  | main {o : ConnectionOp} {next : o.Ans → Prog connection String Phase} {ans : o.Ans}
      (hturn : l.turn = some t) (hrest : t.rest = .op o next) (hans : l.Answers o ans) :
      Step l ((l.after E service o).advance t ⟨o, ans⟩ (next ans))
  | job {o : ConnectionOp} {next : o.Ans → Prog connection String Unit} {ans : o.Ans}
      (hjob : l.jobs r = some job) (hrest : job.rest = .op o next) (hans : l.Answers o ans) :
      Step l ((l.after E service o).advanceJob r job ⟨o, ans⟩ (next ans))
  | expire (hjob : l.jobs r = some job) (hawaited : job.awaited = true) : Step l (l.expire r)
  | disconnect : Step l { l with connected := false }
  | abort (hphase : phaseAfter l.turns = some .closed) :
      Step l { l with aborted := Function.update l.aborted r true }

/-- A link as it can be at any moment. -/
def Reachable (l : Link) : Prop := Relation.ReflTransGen (Step E service) .initial l

end

end Link

namespace Server

variable {ι : Type} [DecidableEq ι] {E : Engine} {service : Service} {uuids : Nat → String}
  {s s' t : Server ι} {i : ι}

@[simp] theorem setLink_links_self (s : Server ι) (i : ι) (l : Link) : (s.setLink i l).links i = l := by
  simp [setLink]

theorem setLink_links_of_ne {j : ι} (s : Server ι) (l : Link) (h : j ≠ i) :
    (s.setLink i l).links j = s.links j := by
  simp [setLink, h]

theorem perform_own {o : ConnectionOp} (ho : ∀ d, o ≠ .daemon d) :
    s.perform E service uuids i o c =
      ((s.links i).answer c o).map fun ans => (ans, s.setLink i ((s.links i).after E service o)) := by
  cases o <;> first | rfl | exact absurd rfl (ho _)

theorem perform_link {o : ConnectionOp} {ans : o.Ans}
    (h : s.perform E service uuids i o c = some (ans, s')) :
    (s.links i).Answers o ans ∧ s'.links i = (s.links i).after E service o ∧
      ∀ j, j ≠ i → s'.links j = s.links j := by
  by_cases ho : ∃ d, o = .daemon d
  · obtain ⟨o, rfl⟩ := ho
    obtain ⟨r, -, hr⟩ := Option.map_eq_some_iff.mp h
    cases hr
    exact ⟨.inl ⟨o, rfl⟩, rfl, fun _ _ => rfl⟩
  · rw [perform_own (not_exists.mp ho)] at h
    obtain ⟨ans', hans, hr⟩ := Option.map_eq_some_iff.mp h
    cases hr
    exact ⟨.inr ⟨c, hans⟩, setLink_links_self _ _ _, fun j hj => setLink_links_of_ne s _ hj⟩

/-- A step of the server is a step of one link. -/
theorem step_link {a : Act ι} (h : s.step E service uuids a = some t) :
    ∃ i, (s.links i).Step E service (t.links i) ∧ ∀ j, j ≠ i → t.links j = s.links j := by
  cases a with
  | receive i incoming =>
    simp only [step] at h
    split at h
    · cases h
    · cases h
    · rename_i before hphase hopen
      cases h
      refine ⟨i, ?_, fun j hj => setLink_links_of_ne s _ hj⟩
      rw [setLink_links_self]
      exact .receive hopen (by simpa using hphase)
  | main i c =>
    obtain ⟨turn, hturn, h⟩ := Option.bind_eq_some_iff.mp h
    split at h
    · rename_i o next hrest
      obtain ⟨⟨ans, s'⟩, hperform, h⟩ := Option.bind_eq_some_iff.mp h
      cases h
      obtain ⟨hans, hlink, hothers⟩ := perform_link hperform
      refine ⟨i, ?_, fun j hj => (setLink_links_of_ne s' _ hj).trans (hothers j hj)⟩
      rw [setLink_links_self, hlink]
      exact .main hturn hrest hans
    · cases h
  | job i r c =>
    obtain ⟨job, hjob, h⟩ := Option.bind_eq_some_iff.mp h
    split at h
    · rename_i o next hrest
      split at h
      · cases h
      obtain ⟨⟨ans, s'⟩, hperform, h⟩ := Option.bind_eq_some_iff.mp h
      cases h
      obtain ⟨hans, hlink, hothers⟩ := perform_link hperform
      refine ⟨i, ?_, fun j hj => (setLink_links_of_ne s' _ hj).trans (hothers j hj)⟩
      rw [setLink_links_self, hlink]
      exact .job hjob hrest hans
    · cases h
  | expire i r =>
    obtain ⟨job, hjob, h⟩ := Option.bind_eq_some_iff.mp h
    split at h
    · rename_i hawaited
      cases h
      refine ⟨i, ?_, fun j hj => setLink_links_of_ne s _ hj⟩
      rw [setLink_links_self]
      exact .expire hjob hawaited
    · cases h
  | disconnect i =>
    cases h
    refine ⟨i, ?_, fun j hj => setLink_links_of_ne s _ hj⟩
    rw [setLink_links_self]
    exact .disconnect
  | abort i r =>
    simp only [step] at h
    split at h
    · rename_i hphase
      cases h
      refine ⟨i, ?_, fun j hj => setLink_links_of_ne s _ hj⟩
      rw [setLink_links_self]
      exact .abort hphase
    · cases h

theorem reaches_of_run {acts : List (Act ι)} (h : s.run E service uuids acts = some t) :
    Reaches E service uuids s t := by
  induction acts generalizing s with
  | nil =>
    cases h
    exact .refl
  | cons a acts ih =>
    obtain ⟨s', hstep, hrun⟩ := Option.bind_eq_some_iff.mp h
    exact .head ⟨a, hstep⟩ (ih hrun)

theorem Reaches.link {d : Daemon} (h : Reaches E service uuids (initial d) s) (i : ι) :
    (s.links i).Reachable E service := by
  induction h with
  | refl => exact .refl
  | tail _ hstep ih =>
    obtain ⟨a, ha⟩ := hstep
    obtain ⟨j, hj, hothers⟩ := step_link ha
    by_cases hij : i = j
    · subst hij
      exact ih.tail hj
    · rw [hothers i hij]
      exact ih

end Server

end NostdbServer
