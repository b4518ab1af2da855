import Mathlib.Logic.Relation
import NostdbServer.Daemon.Recovery
import NostdbServer.Restore.Safety

/-!
# Runs of restores, writes, crashes and recoveries

The life of a data directory as far as snapshot restore goes. On each Database
one restore call may be under way; calls on different Databases interleave step
by step. A crash drops the process with every call in it. Beside the daemon the
run keeps, for each Database, the content committed last and the snapshots left
open since: those of calls that a crash cut off, or that reported an error and
left the Database closed.
-/

namespace NostdbServer

open Effects Relation

/-- Creating a file with its content is all or nothing. -/
def Outcome.Whole (c : Outcome) : Prop := ∀ n m, c ≠ .torn n m

/-- A restore call with what is left of it. -/
structure Call where
  bytes : Bytes
  rest : Prog storage ProtocolFailure Unit

structure Run where
  daemon : Daemon
  up : Bool
  calls : String → Option Call
  committed : String → Bytes
  offered : String → List Bytes

/-- The run after something happened to the Database `id`. -/
def Run.set (r : Run) (id : String) (d : Daemon) (call : Option Call) (committed : Bytes)
    (offered : List Bytes) : Run where
  daemon := d
  up := r.up
  calls := Function.update r.calls id call
  committed := Function.update r.committed id committed
  offered := Function.update r.offered id offered

namespace Daemon

/-- The handle a Database gets when it is opened from its file. -/
def openedHandle (files : DbFiles) : Handle :=
  match files .database with
  | some (.file content) => ⟨some ⟨content⟩, false⟩
  | _ => ⟨none, false⟩

/-- The Databases of `known` are opened. -/
def opened (d : Daemon) (known : String → Bool) : Daemon :=
  let handles id := if known id then openedHandle (d.filesOf id) else ⟨none, false⟩
  { d with memory := { idle with handles } }

end Daemon

/-- A crash leaves open what became of the calls under way. -/
def Run.crashed (r : Run) : Run where
  daemon := r.daemon.crashed
  up := false
  calls _ := none
  committed := r.committed
  offered id := (r.calls id).toList.map Call.bytes ++ r.offered id

section
variable (E : Engine) (root : DataDirectory) (uuids : Nat → String)

inductive Run.Step : Run → Run → Prop
  | call (id : String) (bytes : Bytes) (up : r.up = true) (free : r.calls id = none)
    (managed : r.daemon.hasDirectory (.database id) = true) :
    Step r (r.set id r.daemon
      (some ⟨bytes, restoreSnapshotWithOperations root.restore (root.managed id) bytes⟩)
      (r.committed id) (r.offered id))
  | step (id : String) (c : Outcome) (call : r.calls id = some ⟨bytes, .op o next⟩)
    (whole : Outcome.Whole c)
    (stepped : (daemonWorld E uuids).step (.storage id o) c r.daemon = some (ans, d)) :
    Step r (r.set id d (some ⟨bytes, next ans⟩) (r.committed id) (r.offered id))
  | succeed (id : String) (call : r.calls id = some ⟨bytes, .pure ()⟩) :
    Step r (r.set id r.daemon none ((E.adopt bytes).toOption.getD (r.committed id)) [])
  | fail (id : String) (error : ProtocolFailure) (call : r.calls id = some ⟨bytes, .fail error⟩) :
    Step r (r.set id r.daemon none (r.committed id)
      (if (r.daemon.site id).slot.isSome then r.offered id else bytes :: r.offered id))
  | write (id : String) (content : Bytes) (up : r.up = true) (free : r.calls id = none)
    (managed : r.daemon.hasDirectory (.database id) = true)
    (opened : (r.daemon.site id).slot.isSome = true) (sound : E.Sound content) :
    Step r (r.set id (r.daemon.putSite id ((r.daemon.site id).commit content)) none content [])
  | crash : Step r r.crashed
  | cutRecovery (n : Nat) (down : r.up = false) :
    Step r { r with
      daemon := ((daemonWorld E uuids).run (List.replicate n .ok)
        (recoverSnapshotOperations root) r.daemon).2.crashed }
  | start (known : String → Bool) (down : r.up = false)
    (recovered : (daemonWorld E uuids).eval .ok (recoverSnapshotOperations root) r.daemon =
      some (.ok (), d)) :
    Step r { r with daemon := d.opened known, up := true }

end

/-- Every Database is valid, open and without restore files. -/
structure Run.Initial (E : Engine) (r : Run) : Prop where
  calls : ∀ id, r.calls id = none
  database : ∀ id, r.daemon.hasDirectory (.database id) = true →
    (r.daemon.site id).view = .clean (r.committed id) (some ⟨r.committed id⟩) false
  sound : ∀ id, r.daemon.hasDirectory (.database id) = true → E.Sound (r.committed id)

/-- The content committed last, or a validated snapshot that was left open since. -/
def Run.Possible (E : Engine) (r : Run) (id : String) (x : Bytes) : Prop :=
  x = r.committed id ∨ ∃ bytes ∈ r.offered id, Validated E bytes x

/-- What holds of a Database between two steps of the run. -/
inductive Standing (E : Engine) (root : DataDirectory) (id : String) (x : Bytes) (up : Bool) :
    Option Call → Site → Prop
  | resting (leads : Leads E (restoreJournal root.restore id) x s.view)
    (attached : up = true → Attached x s.view ∧ s.locked = false) : Standing E root id x up none s
  | calling (wp : (storageSetting E Outcome.Whole).Wp
      (fun t => Covered E (restoreJournal root.restore id) x call.bytes t.view) call.rest s
      (fun _ t => CallDone E (restoreJournal root.restore id) call.bytes t.view)
      (fun _ t => CallFailed E (restoreJournal root.restore id) x call.bytes t.view)) :
    Standing E root id x up (some call) s

/-- The invariant of a run over the Databases in `managed`. -/
structure Run.Inv (E : Engine) (root : DataDirectory) (managed : String → Bool) (r : Run) :
    Prop where
  directory : ∀ id, r.daemon.hasDirectory (.database id) = managed id
  down : r.up = false → ∀ id, r.calls id = none
  unmanaged : ∀ id, managed id = false → r.calls id = none
  standing : ∀ id, managed id = true →
    ∃ x, r.Possible E id x ∧ Standing E root id x r.up (r.calls id) (r.daemon.site id)

section
variable {E : Engine} {root : DataDirectory} {uuids : Nat → String} {managed : String → Bool}
  {r r' : Run} {id : String}

theorem Run.Initial.inv (h : r.Initial E) :
    r.Inv E root fun id => r.daemon.hasDirectory (.database id) where
  directory _ := rfl
  down _ := h.calls
  unmanaged id _ := h.calls id
  standing id hid := by
    refine ⟨r.committed id, .inl rfl, ?_⟩
    have hview := h.database id hid
    rw [h.calls id]
    refine .resting (hview ▸ .clean) fun _ => ⟨hview ▸ attached_put _ _ _ _ _, ?_⟩
    exact congrArg View.locked hview

/-- A step on one Database has to keep the invariant of that Database only. -/
theorem Run.Inv.set {d : Daemon} {call : Option Call} {committed x : Bytes} {offered : List Bytes}
    (h : r.Inv E root managed) (hid : managed id = true) (hw : Daemon.Within (· = id) r.daemon d) (hup : r.up = true)
    (hx : x = committed ∨ ∃ bytes ∈ offered, Validated E bytes x)
    (hst : Standing E root id x r.up call (d.site id)) :
    (r.set id d call committed offered).Inv E root managed where
  directory i := (hw.hasDirectory _).trans (h.directory i)
  down hdown := by
    rw [show (r.set id d call committed offered).up = r.up from rfl, hup] at hdown
    cases hdown
  unmanaged i hi := by
    have hne : i ≠ id := by
      rintro rfl
      rw [hid] at hi
      cases hi
    simpa [Run.set, hne] using h.unmanaged i hi
  standing i hi := by
    by_cases hne : i = id
    · subst hne
      refine ⟨x, ?_, ?_⟩
      · simpa [Run.Possible, Run.set] using hx
      · simpa [Run.set] using hst
    · obtain ⟨y, hy, hs⟩ := h.standing i hi
      refine ⟨y, ?_, ?_⟩
      · simpa [Run.Possible, Run.set, hne] using hy
      · simpa [Run.set, hne, hw.site hne] using hs

theorem Run.Inv.managed_of_call (h : r.Inv E root managed) (hcall : r.calls id = some call) :
    managed id = true := by
  by_contra hm
  rw [h.unmanaged id (by simpa using hm)] at hcall
  cases hcall

theorem Run.Inv.up_of_call (h : r.Inv E root managed) (hcall : r.calls id = some call) :
    r.up = true := by
  by_contra hup
  rw [h.down (by simpa using hup) id] at hcall
  cases hcall

/-- Wherever a call stands, the files lead to the content before it or to its snapshot. -/
theorem Standing.leads (h : Standing E root id x up call s) :
    ∃ y, (y = x ∨ ∃ c ∈ call, Validated E c.bytes y) ∧
      Leads E (restoreJournal root.restore id) y s.view := by
  cases h with
  | resting hl _ => exact ⟨x, .inl rfl, hl⟩
  | @calling s call wp =>
    obtain ⟨bytes, rest⟩ := call
    have hcov : Covered E (restoreJournal root.restore id) x bytes s.view := by
      cases rest with
      | pure u =>
        obtain ⟨-, S, hv, hS, -⟩ := wp s rfl
        exact ⟨S, .inr hv, hS⟩
      | fail e =>
        obtain ⟨-, ⟨hx, -⟩ | ⟨S, hv, hS, -⟩⟩ := wp s rfl
        · exact ⟨x, .inl rfl, hx⟩
        · exact ⟨S, .inr hv, hS⟩
      | op o next => exact wp.crash
    obtain ⟨y, hy, hl⟩ := hcov
    refine ⟨y, ?_, hl⟩
    rcases hy with rfl | hv
    · exact .inl rfl
    · exact .inr ⟨⟨bytes, rest⟩, rfl, hv⟩

-- ---------------------------------------------------------------------------
-- Steps on one Database
-- ---------------------------------------------------------------------------

theorem Run.Inv.call (h : r.Inv E root managed) (hadopt : ∀ b S, Validated E b S → E.Sound S)
    (bytes : Bytes) (up : r.up = true) (free : r.calls id = none)
    (hid : r.daemon.hasDirectory (.database id) = true) :
    (r.set id r.daemon
      (some ⟨bytes, restoreSnapshotWithOperations root.restore (root.managed id) bytes⟩)
      (r.committed id) (r.offered id)).Inv E root managed := by
  have hm : managed id = true := (h.directory id).symm.trans hid
  obtain ⟨x, hx, hs⟩ := h.standing id hm
  rw [free] at hs
  obtain ⟨hl, hat⟩ := hs
  obtain ⟨ha, hlock⟩ := hat up
  have whole : ∀ n m, ¬ Outcome.Whole (.torn n m) := fun n m hw => hw n m rfl
  have hl : Leads E (restoreJournal root.restore (root.managed id).id) x _ := hl
  exact h.set hm (.refl _) up hx
    (.calling (restoreSnapshotWithOperations_exec whole hadopt hl ha hlock _ rfl))

theorem Run.Inv.stepped (h : r.Inv E root managed) {next : storage.Ans o → _}
    (hcall : r.calls id = some ⟨bytes, .op o next⟩) (whole : Outcome.Whole c)
    (hs : (daemonWorld E uuids).step (.storage id o) c r.daemon = some (ans, d)) :
    (r.set id d (some ⟨bytes, next ans⟩) (r.committed id) (r.offered id)).Inv E root managed := by
  have hm := h.managed_of_call hcall
  have hid : r.daemon.hasDirectory (.database id) = true := (h.directory id).trans hm
  obtain ⟨s, hstep, rfl⟩ := storage_step_cases hid hs
  obtain ⟨x, hx, hst⟩ := h.standing id hm
  rw [hcall] at hst
  obtain - | ⟨wp⟩ := hst
  refine h.set hm (Daemon.within_putSite hid) (h.up_of_call hcall) hx ?_
  rw [Daemon.site_putSite hid]
  exact .calling (wp.step whole hstep).2

theorem Run.Inv.succeeded (h : r.Inv E root managed)
    (hcall : r.calls id = some ⟨bytes, .pure ()⟩) :
    (r.set id r.daemon none ((E.adopt bytes).toOption.getD (r.committed id)) []).Inv E root
      managed := by
  have hm := h.managed_of_call hcall
  obtain ⟨x, -, hst⟩ := h.standing id hm
  rw [hcall] at hst
  obtain - | ⟨wp⟩ := hst
  obtain ⟨hlock, S, hv, hS, hslot, hdb⟩ := wp _ rfl
  refine h.set hm (.refl _) (h.up_of_call hcall) (x := S) (.inl ?_)
    (.resting hS fun _ => ⟨fun d hd => ⟨?_, hdb⟩, hlock⟩)
  · rw [hv.2]
    rfl
  · rw [hslot] at hd
    cases hd
    rfl

theorem Run.Inv.failed (h : r.Inv E root managed)
    (hcall : r.calls id = some ⟨bytes, .fail error⟩) :
    (r.set id r.daemon none (r.committed id)
      (if (r.daemon.site id).slot.isSome then r.offered id else bytes :: r.offered id)).Inv E root
      managed := by
  have hm := h.managed_of_call hcall
  obtain ⟨x, hx, hst⟩ := h.standing id hm
  rw [hcall] at hst
  obtain - | ⟨wp⟩ := hst
  obtain ⟨hlock, ⟨hl, ha⟩ | ⟨S, hv, hS, hslot⟩⟩ := wp _ rfl
  · refine h.set hm (.refl _) (h.up_of_call hcall) ?_ (.resting hl fun _ => ⟨ha, hlock⟩)
    split
    · exact hx
    · exact hx.imp_right fun ⟨b, hb, hv⟩ => ⟨b, by simp [hb], hv⟩
  · have hslot : (r.daemon.site id).slot = none := hslot
    refine h.set hm (.refl _) (h.up_of_call hcall) (.inr ⟨bytes, ?_, hv⟩)
      (.resting hS fun _ => ⟨attached_closed hslot, hlock⟩)
    simp [hslot]

/-- A committed write moves what the files lead to. -/
theorem Leads.commit {journal : Node} {v : View} (h : Leads E journal x v)
    (hdb : v.database = some (.file x)) (hy : E.Sound y) :
    Leads E journal y { v with database := some (.file y), slot := some ⟨y⟩ } := by
  cases h with
  | unjournaled c => exact .unjournaled c
  | prepared c => exact .prepared c
  | installed b _ => exact .installed b hy
  | moved _ _ => cases hdb
  | removed => cases hdb

theorem Run.Inv.written (h : r.Inv E root managed) (up : r.up = true)
    (free : r.calls id = none) (hid : r.daemon.hasDirectory (.database id) = true)
    (hopen : (r.daemon.site id).slot.isSome = true) (sound : E.Sound content) :
    (r.set id (r.daemon.putSite id ((r.daemon.site id).commit content)) none content []).Inv E
      root managed := by
  have hm : managed id = true := (h.directory id).symm.trans hid
  obtain ⟨x, -, hst⟩ := h.standing id hm
  rw [free] at hst
  obtain ⟨hl, hat⟩ := hst
  obtain ⟨ha, hlock⟩ := hat up
  obtain ⟨d, hd⟩ := Option.isSome_iff_exists.mp hopen
  have hview : ((r.daemon.site id).commit content).view =
      { (r.daemon.site id).view with
        database := some (.file content), slot := some ⟨content⟩ } := by
    simp [Site.view, Site.commit, Site.setFile]
  refine h.set hm (Daemon.within_putSite hid) up (x := content) (.inl rfl) ?_
  rw [Daemon.site_putSite hid]
  refine .resting (hview ▸ hl.commit (ha d hd).2 sound) fun _ => ⟨?_, hlock⟩
  rw [hview]
  exact attached_put _ _ _ _ _

-- ---------------------------------------------------------------------------
-- Crashes and recoveries
-- ---------------------------------------------------------------------------

/-- No call is under way, and every Database leads to a possible content. -/
theorem Run.Inv.of_free (hcalls : ∀ id, r.calls id = none)
    (hdir : ∀ id, r.daemon.hasDirectory (.database id) = managed id)
    (hst : ∀ id, managed id = true →
      ∃ x, r.Possible E id x ∧ Standing E root id x r.up none (r.daemon.site id)) :
    r.Inv E root managed where
  directory := hdir
  down _ := hcalls
  unmanaged id _ := hcalls id
  standing id hid := by
    rw [hcalls id]
    exact hst id hid

theorem Daemon.site_crashed (d : Daemon) (id : String) :
    (d.crashed.site id).view = { (d.site id).view with slot := none, locked := false } := rfl

theorem Daemon.site_opened {d : Daemon} {known : String → Bool} {x : Bytes}
    (h : d.filesOf id .database = some (.file x)) :
    ((d.opened known).site id).view =
      { (d.site id).view with slot := if known id then some ⟨x⟩ else none, locked := false } := by
  by_cases hk : known id = true
  · simp [Site.view, Daemon.site, Daemon.opened, Daemon.openedHandle, Daemon.filesOf,
      Daemon.entry] at h ⊢
    simp [hk, h]
  · simp [Site.view, Daemon.site, Daemon.opened, Daemon.filesOf, Daemon.entry, hk]

theorem Run.Inv.crashed (h : r.Inv E root managed) :
    r.crashed.Inv E root managed := by
  refine .of_free (fun _ => rfl) h.directory fun id hid => ?_
  obtain ⟨x, hx, hs⟩ := h.standing id hid
  obtain ⟨y, hy, hl⟩ := hs.leads
  refine ⟨y, ?_, .resting (Daemon.site_crashed _ _ ▸ hl.handle) fun hup => by cases hup⟩
  rcases hy with rfl | ⟨c, hc, hv⟩
  · exact hx.imp_right fun ⟨b, hb, hv⟩ => ⟨b, by simp [Run.crashed, hb], hv⟩
  · exact .inr ⟨c.bytes, by simp [Run.crashed, Option.mem_def.mp hc], hv⟩

/-- What every Database can settle on, as recovery is going to find it. -/
theorem Run.Inv.settling (h : r.Inv E root managed) (down : r.up = false) :
    ∃ content : String → Bytes, (∀ id, managed id = true → r.Possible E id (content id)) ∧
      Settling E root (fun id => some (.file (content id))) r.daemon := by
  have hpick : ∀ id, ∃ y, managed id = true → r.Possible E id y ∧
      Leads E (restoreJournal root.restore id) y (r.daemon.site id).view := by
    intro id
    by_cases hid : managed id = true
    · obtain ⟨x, hx, hs⟩ := h.standing id hid
      rw [h.down down id] at hs
      obtain ⟨hl, -⟩ := hs
      exact ⟨x, fun _ => ⟨hx, hl⟩⟩
    · exact ⟨[], fun hm => absurd hm hid⟩
  choose content hcontent using hpick
  refine ⟨content, fun id hid => (hcontent id hid).1, fun id hdir => ?_⟩
  exact .inl ⟨content id, rfl, (hcontent id ((h.directory id).symm.trans hdir)).2⟩

end

section
variable {E : Engine} {root : DataDirectory} {uuids : Nat → String}
  {content : String → Option Node} {d : Daemon}

theorem Settled.settling (h : ∀ id, Settled content [id] d) : Settling E root content d :=
  fun id hid => .inr (h id id (by simp) hid)

/-- A recovery cut anywhere leaves the directories settling on the same content. -/
theorem recoverSnapshotOperations_cut (h : Settling E root content d) (n : Nat) :
    let d' := ((daemonWorld E uuids).run (List.replicate n .ok) (recoverSnapshotOperations root) d).2
    Daemon.Within (fun _ => True) d d' ∧ Settling E root content d' := by
  have hwp := (Setting.Wp.run (W := daemonSetting E uuids (· = .ok))
    (recoverSnapshotOperations_wp not_faulty_ok h) (List.replicate n .ok)
    fun _ _ _ hc => List.eq_of_mem_replicate hc)
  dsimp only
  change (daemonSetting E uuids (· = .ok)).Wp _
    ((daemonWorld E uuids).run (List.replicate n .ok) (recoverSnapshotOperations root) d).1
    ((daemonWorld E uuids).run (List.replicate n .ok) (recoverSnapshotOperations root) d).2
    _ _ at hwp
  revert hwp
  cases ((daemonWorld E uuids).run (List.replicate n .ok) (recoverSnapshotOperations root) d).1 with
  | pure u =>
    intro hwp
    obtain ⟨hw, hs⟩ := hwp _ rfl
    exact ⟨hw, Settled.settling hs⟩
  | fail e =>
    intro hwp
    exact (hwp _ rfl).elim
  | op o next =>
    intro hwp
    exact hwp.crash

theorem Run.Inv.recoveryCut {managed : String → Bool} {r : Run} (h : r.Inv E root managed)
    (down : r.up = false) (n : Nat) :
    Run.Inv E root managed { r with
      daemon := ((daemonWorld E uuids).run (List.replicate n .ok)
        (recoverSnapshotOperations root) r.daemon).2.crashed } := by
  obtain ⟨content, hcontent, hs⟩ := h.settling down
  obtain ⟨hw, hs'⟩ := recoverSnapshotOperations_cut (E := E) hs n
  refine .of_free (h.down down) (fun id => (hw.hasDirectory _).trans (h.directory id)) ?_
  intro id hid
  have hdir := (hw.hasDirectory _).trans ((h.directory id).trans hid)
  refine ⟨content id, hcontent id hid, .resting ?_ fun hup => ?_⟩
  · rw [Daemon.site_crashed]
    rcases hs' id hdir with ⟨x, hx, hl⟩ | hv
    · cases hx
      exact hl.handle
    · rw [hv]
      exact .clean
  · rw [show _ = r.up from rfl, down] at hup
    cases hup

theorem Run.Inv.started {managed : String → Bool} {r : Run} (h : r.Inv E root managed)
    (down : r.up = false) (known : String → Bool)
    (he : (daemonWorld E uuids).eval .ok (recoverSnapshotOperations root) r.daemon =
      some (.ok (), d)) :
    Run.Inv E root managed { r with daemon := d.opened known, up := true } := by
  obtain ⟨content, hcontent, hs⟩ := h.settling down
  obtain ⟨d', he', hw, hset⟩ := recoverSnapshotOperations_eval (E := E) hs
  cases he.symm.trans he'
  refine .of_free (h.down down) (fun id => (hw.hasDirectory _).trans (h.directory id)) ?_
  intro id hid
  have hdir := (hw.hasDirectory _).trans ((h.directory id).trans hid)
  have hv := hset id id (by simp) hdir
  have hdb : d.filesOf id .database = some (.file (content id)) := congrArg View.database hv
  have hview : ((d.opened known).site id).view =
      .clean (content id) (if known id then some ⟨content id⟩ else none) false := by
    rw [Daemon.site_opened hdb, hv]
    rfl
  refine ⟨content id, hcontent id hid, .resting (hview ▸ .clean) fun _ => ⟨?_, ?_⟩⟩
  · rw [hview]
    intro db hdb
    change (if known id = true then some ⟨content id⟩ else none) = some db at hdb
    split at hdb
    · cases hdb
      exact ⟨rfl, rfl⟩
    · cases hdb
  · exact congrArg View.locked hview

theorem Run.Step.inv {managed : String → Bool} {r r' : Run}
    (hadopt : ∀ b S, Validated E b S → E.Sound S) (h : r.Inv E root managed)
    (hs : Run.Step E root uuids r r') : r'.Inv E root managed := by
  cases hs with
  | call id bytes up free dir => exact h.call hadopt bytes up free dir
  | step id c call whole stepped => exact h.stepped call whole stepped
  | succeed id call => exact h.succeeded call
  | fail id error call => exact h.failed call
  | write id content up free dir opened sound => exact h.written up free dir opened sound
  | crash => exact h.crashed
  | cutRecovery n down => exact h.recoveryCut down n
  | start known down recovered => exact h.started down known recovered

theorem Run.inv_of_reachable {r₀ r : Run} (hadopt : ∀ b S, Validated E b S → E.Sound S)
    (hinit : r₀.Initial E) (hr : ReflTransGen (Run.Step E root uuids) r₀ r) :
    r.Inv E root fun id => r₀.daemon.hasDirectory (.database id) := by
  induction hr with
  | refl => exact hinit.inv
  | tail _ hs ih => exact hs.inv hadopt ih

end

/-- Restore never loses a Database. However the calls, writes, crashes and cut
recoveries went, the next uninterrupted recovery succeeds, removes every restore
file, and leaves in each Database the content committed last or a validated
snapshot that a call since left open. -/
theorem restore_never_loses_a_database (E : Engine) (root : DataDirectory) (uuids : Nat → String)
    (hadopt : ∀ b S, Validated E b S → E.Sound S) {r₀ r : Run} (hinit : r₀.Initial E)
    (hr : ReflTransGen (Run.Step E root uuids) r₀ r) (hdown : r.up = false) :
    ∃ d, (daemonWorld E uuids).eval .ok (recoverSnapshotOperations root) r.daemon =
        some (.ok (), d) ∧
      ∀ id, r₀.daemon.hasDirectory (.database id) = true →
        d.filesOf id .restoreCandidate = none ∧ d.filesOf id .restoreBackup = none ∧
        d.filesOf id .restoreOperation = none ∧
        ∃ x, d.filesOf id .database = some (.file x) ∧ r.Possible E id x := by
  have h := Run.inv_of_reachable hadopt hinit hr
  obtain ⟨content, hcontent, hs⟩ := h.settling hdown
  obtain ⟨d, he, hw, hset⟩ := recoverSnapshotOperations_eval (E := E) hs
  refine ⟨d, he, fun id hid => ?_⟩
  have hv := hset id id (by simp) ((hw.hasDirectory _).trans ((h.directory id).trans hid))
  exact ⟨congrArg View.candidate hv, congrArg View.backup hv, congrArg View.operation hv,
    content id, congrArg View.database hv, hcontent id hid⟩

/-- One open Database with content `content`. -/
def Run.single (id : String) (content : Bytes) : Run where
  daemon := ⟨AList.singleton (.database id) (.directory
      fun f => if f = .database then some (.file content) else none),
    { Daemon.idle with handles := fun i => ⟨if i = id then some ⟨content⟩ else none, false⟩ }, 0⟩
  up := true
  calls _ := none
  committed _ := content
  offered _ := []

theorem Run.single_initial {id : String} (h : E.Sound content) : (Run.single id content).Initial E where
  calls _ := rfl
  database i hi := by
    obtain ⟨files, hf⟩ := Daemon.hasDirectory_iff.mp hi
    obtain ⟨rfl, rfl⟩ : id = i ∧ files = fun f =>
        if f = .database then some (.file content) else none := by
      simp only [Run.single, Daemon.entry, ← AList.insert_empty] at hf
      by_cases hid : id = i
      · subst hid
        rw [AList.lookup_insert] at hf
        cases hf
        exact ⟨rfl, rfl⟩
      · rw [AList.lookup_insert_ne (by simpa using Ne.symm hid), AList.lookup_empty] at hf
        cases hf
    simp only [Site.view, Daemon.site, Daemon.filesOf_eq hf]
    simp [Run.single, View.clean, View.settled]
  sound _ _ := h

/-- That Database while `snapshot` is being restored over it. -/
def Run.restoring (id : String) (content snapshot : Bytes) (root : DataDirectory) : Run :=
  (Run.single id content).set id (Run.single id content).daemon
    (some ⟨snapshot, restoreSnapshotWithOperations root.restore (root.managed id) snapshot⟩)
    content []

theorem restore_never_loses_a_database_single :
    ∃ d, (daemonWorld .plain fun _ => "").eval .ok (recoverSnapshotOperations (.plain "/data"))
        (Run.restoring "a" [7] [9] (.plain "/data")).crashed.daemon = some (.ok (), d) ∧
      ∀ id, (Run.single "a" [7]).daemon.hasDirectory (.database id) = true →
        d.filesOf id .restoreCandidate = none ∧ d.filesOf id .restoreBackup = none ∧
        d.filesOf id .restoreOperation = none ∧
        ∃ x, d.filesOf id .database = some (.file x) ∧
          (Run.restoring "a" [7] [9] (.plain "/data")).crashed.Possible .plain id x :=
  restore_never_loses_a_database .plain (.plain "/data") (fun _ => "") (fun _ _ _ => ⟨rfl, rfl⟩)
    (Run.single_initial ⟨rfl, rfl⟩) (.tail (.single (.call "a" [9] rfl rfl rfl)) .crash) rfl

end NostdbServer
