import NostdbServer.Daemon.Agreement
import NostdbServer.Daemon.Tally

/-!
# Threads and one Database

What the daemon shows of the Database `x`: the catalog and the map of handles,
and whether its handle is locked and holds an open Database. The tallies of the
threads fit it: who holds a lock finds it locked, and what was read under a lock
is still so. Two threads never both hold a lock.

A Database that a drop has removed from the catalog is `Gone`: it is closed, no
thread has it in hand, and no identifier drawn from then on is its own.
-/

namespace NostdbServer

open Effects

structure Sight where
  registry : Registry
  mutex : Bool
  isOpen : Bool

def Daemon.sight (d : Daemon) (x : String) : Sight :=
  ⟨d.registry, (d.memory.handles x).locked, (d.memory.handles x).slot.isSome⟩

namespace StorageOp

def seen : StorageOp → Sight → Sight
  | .lock, v => { v with mutex := true }
  | .unlock, v => { v with mutex := false }
  | .take, v => { v with isOpen := false }
  | .put _, v => { v with isOpen := true }
  | _, v => v

def Shows (v : Sight) : (o : StorageOp) → o.Ans → Prop
  | .lock, _ => v.mutex = false
  | .take, ans | .peek, ans => Option.isSome ans = v.isOpen
  | _, _ => True

end StorageOp

namespace DaemonOp

/-- What is to be seen after a step. -/
def seen (x : String) : DaemonOp → Sight → Sight
  | .storage id o, v => if id = x then o.seen v else v
  | .newHandle id _, v => if id = x then { v with mutex := false, isOpen := true } else v
  | o, v => { v with registry := o.registers v.registry }

/-- What the answer tells. -/
def Shows (uuids : Nat → String) (x : String) (v : Sight) : (o : DaemonOp) → o.Ans → Prop
  | .lockCatalog, _ => v.registry.locked = false
  | .readCatalog, catalog => catalog = v.registry.catalog
  | .newId, id => id = uuids v.registry.issued
  | .getHandle id, ans | .readHandle id, ans => ans = v.registry.databases id
  | .storage id o, ans => id = x → o.Shows v ans
  | _, _ => True

end DaemonOp

-- ---------------------------------------------------------------------------
-- Steps of the daemon
-- ---------------------------------------------------------------------------

/-- The handle is the same, up to the content of the open Database. -/
structure Site.SameHandle (s t : Site) : Prop where
  locked : t.locked = s.locked
  isSome : t.slot.isSome = s.slot.isSome

namespace Site.SameHandle

variable {E : Engine} {s t : Site}

theorem leaveLockFile {f : DbFile} : s.SameHandle (s.leaveLockFile E f) := by
  unfold Site.leaveLockFile
  split <;> exact ⟨rfl, rfl⟩

theorem file {o : FileOp DbFile} {ans : o.Ans} (h : siteFiles.step o c s = (ans, t)) :
    s.SameHandle t := by
  have hkept : s.SameHandle (siteFiles.step o c s).2 := Volume.step_preserves
    (P := fun t : Site => s.SameHandle t) (fun _ _ _ h => ⟨h.locked, h.isSome⟩) o ⟨rfl, rfl⟩
  rwa [h] at hkept

theorem engineStep {act : Bytes → Except String (α × Site)} (h : s.engineStep c f act = (r, t))
    (hact : ∀ b a t, act b = .ok (a, t) → s.SameHandle t) : s.SameHandle t := by
  obtain ⟨_, _, rfl, _⟩ | ⟨_, b, a, _, ha, _⟩ := Site.engineStep_cases h
  · exact ⟨rfl, rfl⟩
  · exact hact b a t ha

theorem execute {act : Bytes → Except DatabaseError (α × Bytes)} (h : s.execute E act c = (r, t)) :
    s.SameHandle t := by
  unfold Site.execute at h
  split at h
  · cases h
    exact ⟨rfl, rfl⟩
  · cases h
    exact ⟨rfl, rfl⟩
  · rename_i hslot
    split at h
    · cases h
      exact ⟨rfl, rfl⟩
    · cases h
      exact ⟨rfl, by rw [hslot]; rfl⟩

end Site.SameHandle

/-- A step inside the Database, as far as it can be seen. -/
theorem Site.step_seen {o : StorageOp} {ans : o.Ans} {s t : Site} {v : Sight}
    (h : Site.step E o c s = some (ans, t)) (hmutex : v.mutex = s.locked)
    (hopen : v.isOpen = s.slot.isSome) :
    o.Shows v ans ∧ (o.seen v).registry = v.registry ∧ (o.seen v).mutex = t.locked ∧
      (o.seen v).isOpen = t.slot.isSome := by
  have hsame (hst : s.SameHandle t) : v.registry = v.registry ∧ v.mutex = t.locked ∧
      v.isOpen = t.slot.isSome :=
    ⟨rfl, hmutex.trans hst.locked.symm, hopen.trans hst.isSome.symm⟩
  cases o with
  | file o => exact ⟨trivial, hsame (.file (Option.some.inj h))⟩
  | openDatabase f =>
    refine ⟨trivial, hsame (.engineStep (Option.some.inj h) fun b a t hact => ?_)⟩
    cases hb : E.accepts b with
    | error e => simp [hb, Except.map] at hact
    | ok u =>
      rw [hb] at hact
      cases hact
      exact .leaveLockFile
  | checkDatabase f =>
    refine ⟨trivial, hsame (.engineStep (Option.some.inj h) fun b a t hact => ?_)⟩
    cases hb : E.check b with
    | error e => simp [hb, Except.map] at hact
    | ok u =>
      rw [hb] at hact
      cases hact
      exact ⟨rfl, rfl⟩
  | adoptServerAuthority f =>
    refine ⟨trivial, hsame (.engineStep (Option.some.inj h) fun b a t hact => ?_)⟩
    cases hb : E.adopt b with
    | error e => simp [hb, Except.map] at hact
    | ok u =>
      rw [hb] at hact
      cases hact
      exact ⟨rfl, rfl⟩
  | checkpointDatabase f =>
    refine ⟨trivial, hsame (.engineStep (Option.some.inj h) fun b a t hact => ?_)⟩
    cases hact
    exact ⟨rfl, rfl⟩
  | lock =>
    simp only [Site.step] at h
    split at h
    · cases h
    · rename_i hlocked
      cases h
      exact ⟨hmutex.trans (by simpa using hlocked), rfl, rfl, hopen⟩
  | unlock =>
    cases h
    exact ⟨trivial, rfl, rfl, hopen⟩
  | take =>
    cases h
    exact ⟨hopen.symm, rfl, hmutex, rfl⟩
  | put database =>
    cases h
    exact ⟨trivial, rfl, hmutex, rfl⟩
  | checkpoint database =>
    simp only [Site.step] at h
    split at h <;> cases h <;> exact ⟨trivial, hsame ⟨rfl, rfl⟩⟩
  | peek =>
    cases h
    exact ⟨hopen.symm, hsame ⟨rfl, rfl⟩⟩
  | execute statement limits => exact ⟨trivial, hsame (.execute (Option.some.inj h))⟩
  | executeTransaction statements limits =>
    exact ⟨trivial, hsame (.execute (Option.some.inj h))⟩
  | inspect i =>
    cases h
    exact ⟨trivial, hsame ⟨rfl, rfl⟩⟩

namespace Daemon

variable {d d' : Daemon} {x id : String}

theorem sight_putSite_of_ne {s : Site} (h : id ≠ x) : (d.putSite id s).sight x = d.sight x := by
  simp only [sight, registry_putSite, memory_putSite, Function.update_of_ne (Ne.symm h)]

theorem sight_putSite {s : Site} :
    (d.putSite x s).sight x = ⟨d.registry, s.locked, s.slot.isSome⟩ := by
  simp only [sight, registry_putSite, memory_putSite, Function.update_self]

theorem step_sight {o : DaemonOp} {ans : o.Ans} (h : step E uuids o c d = some (ans, d')) :
    o.Shows uuids x (d.sight x) ans ∧ d'.sight x = o.seen x (d.sight x) := by
  have hregistry := step_registry h
  -- Steps that leave the handles alone.
  have hkept (hh : d'.memory.handles x = d.memory.handles x) :
      d'.sight x = { d.sight x with registry := o.registers d.registry } := by
    simp only [sight, hregistry, hh]
  cases o with
  | storage id o =>
    obtain ⟨⟨r, s⟩, hs, hr⟩ := Option.map_eq_some_iff.mp h
    cases hr
    simp only [DaemonOp.Shows, DaemonOp.seen]
    by_cases hid : id = x
    · subst hid
      obtain ⟨hshows, hreg, hmutex, hopen⟩ := Site.step_seen (v := d.sight id) hs rfl rfl
      refine ⟨fun _ => hshows, ?_⟩
      rw [if_pos rfl, sight_putSite, ← hmutex, ← hopen]
      exact congrArg (fun r => Sight.mk r _ _) hreg.symm
    · exact ⟨fun h => absurd h hid, by rw [if_neg hid, sight_putSite_of_ne hid]⟩
  | createDatabase id =>
    refine ⟨trivial, ?_⟩
    have h := (Option.some.inj h).symm
    unfold createDatabase at h
    split at h
    · cases h
      rfl
    · split at h
      · cases h
        rfl
      · cases h
        by_cases hid : id = x
        · subst hid
          have hsame : (d.site id).SameHandle ((d.site id).created E) :=
            ⟨Site.SameHandle.leaveLockFile.locked, Site.SameHandle.leaveLockFile.isSome⟩
          rw [sight_putSite, hsame.locked, hsame.isSome]
          rfl
        · exact sight_putSite_of_ne hid
    · cases h
      rfl
  | newHandle id database =>
    cases h
    refine ⟨trivial, ?_⟩
    simp only [DaemonOp.seen]
    by_cases hid : id = x
    · subst hid
      simp [sight, registry, setHandle]
    · simp [sight, registry, setHandle, hid, Function.update_of_ne (Ne.symm hid)]
  | lockCatalog =>
    simp only [step] at h
    split at h
    · cases h
    · rename_i hlocked
      cases h
      exact ⟨Bool.eq_false_of_not_eq_true hlocked, rfl⟩
  | readHandle id =>
    simp only [step] at h
    split at h
    · cases h
    · cases h
      exact ⟨rfl, rfl⟩
  | newId | readCatalog | getHandle _ =>
    cases h
    exact ⟨rfl, rfl⟩
  | isDir _ | unlockCatalog | writeCatalog _ | unlockDatabases | insertHandle _ | removeHandle _ =>
    cases h
    exact ⟨trivial, rfl⟩
  | lockDatabases =>
    simp only [step] at h
    split at h
    · cases h
    · cases h
      exact ⟨trivial, rfl⟩
  | root o | createDir p | removeDir p | readDatabases =>
    refine ⟨trivial, hkept ?_⟩
    obtain hm | hm | ⟨_, _, (⟨_, ho⟩ | ho), _⟩ := step_memory h
    · rw [hm]
    · cases hm
    · cases ho
    · cases ho

end Daemon

-- ---------------------------------------------------------------------------
-- Tallies that fit
-- ---------------------------------------------------------------------------

/-- The identifier is not drawn any more. -/
def Sight.Old (uuids : Nat → String) (x : String) (v : Sight) : Prop :=
  ∀ n, v.registry.issued ≤ n → uuids n ≠ x

namespace Tally

/-- What a thread counts on is so. -/
structure Fit (uuids : Nat → String) (start : Nat) (x : String) (v : Sight) (m : Tally) : Prop where
  issued : start ≤ v.registry.issued
  keyed : ∀ id handle, v.registry.databases id = some handle → handle.id = id
  registered : (v.registry.databases x).isSome = true → v.Old uuids x
  holds : m.holds = true → v.registry.locked = true
  read : m.holds = true → ∀ catalog, m.read = some catalog → catalog = v.registry.catalog
  knows : m.knows = true → v.Old uuids x
  guard : m.guard = true → v.mutex = true ∧ m.knows = true
  peeked : m.peeked = true → m.guard = true ∧ v.isOpen = true
  taken : m.taken = true → m.guard = true ∧ v.isOpen = false
  closed : m.closed = true →
    m.holds = true ∧ m.knows = true ∧ m.taken = false ∧ v.isOpen = false
  drawn : m.drawn = true → m.holds = true ∧ m.knows = false ∧ m.made = false ∧
    (v.registry.databases x).isSome = false ∧ v.Old uuids x
  made : m.made = true → m.holds = true ∧ v.Old uuids x

/-- What two threads cannot both be at. -/
structure Apart (m n : Tally) : Prop where
  holds : m.holds = true → n.holds = false
  guard : m.guard = true → n.guard = false
  closed : m.closed = true → n.taken = false
  taken : m.taken = true → n.closed = false
  drawn : m.drawn = true → n.knows = false
  knows : m.knows = true → n.drawn = false

theorem Apart.symm {m n : Tally} (h : m.Apart n) : n.Apart m where
  holds hn := by
    by_contra hm
    simp [h.holds (by simpa using hm)] at hn
  guard hn := by
    by_contra hm
    simp [h.guard (by simpa using hm)] at hn
  closed hn := by
    by_contra hm
    simp [h.taken (by simpa using hm)] at hn
  taken hn := by
    by_contra hm
    simp [h.closed (by simpa using hm)] at hn
  drawn hn := by
    by_contra hm
    simp [h.knows (by simpa using hm)] at hn
  knows hn := by
    by_contra hm
    simp [h.drawn (by simpa using hm)] at hn

theorem absurd_bool {b : Bool} {P : Prop} (h : b = true) (h' : b = false) : P := by
  cases h.symm.trans h'

section
variable {uuids : Nat → String} {start : Nat} {x : String} {v : Sight} {m n : Tally}

/-- A step inside the Database. -/
theorem Fit.storage (hm : m.Fit uuids start x v) {o : StorageOp} {ans : o.Ans}
    (ho : o.Permitted m) (hans : o.Shows v ans) :
    (o.tallied m ans).Fit uuids start x (o.seen v) := by
  cases o with
  | lock =>
    exact { hm with
      guard := fun _ => ⟨rfl, ho⟩
      peeked := fun h => ⟨rfl, (hm.peeked h).2⟩
      taken := fun h => ⟨rfl, (hm.taken h).2⟩ }
  | unlock =>
    refine { hm with guard := nofun, peeked := nofun, taken := nofun, closed := fun h => ?_ }
    rcases Bool.or_eq_true_iff.mp h with h | h
    · exact ⟨(hm.closed h).1, (hm.closed h).2.1, rfl, (hm.closed h).2.2.2⟩
    · obtain ⟨htaken, hholds⟩ := Bool.and_eq_true_iff.mp h
      exact ⟨hholds, (hm.guard ho).2, rfl, (hm.taken htaken).2⟩
  | take =>
    refine { hm with peeked := nofun, taken := fun _ => ⟨ho, rfl⟩, closed := fun h => ?_ }
    obtain ⟨hholds, hknows, htaken, hopen⟩ := hm.closed h
    refine ⟨hholds, hknows, ?_, rfl⟩
    rw [← hans] at hopen
    exact Bool.or_eq_false_iff.mpr ⟨htaken, hopen⟩
  | put database =>
    exact { hm with
      peeked := fun h => ⟨(hm.peeked h).1, rfl⟩
      taken := nofun
      closed := nofun }
  | peek => exact { hm with peeked := fun h => ⟨ho, hans.symm.trans h⟩ }
  | _ => exact { hm with }

/-- Whether a handle of the Database was found. -/
theorem Fit.found (hm : m.Fit uuids start x v) {id : String} {found : Option ManagedDatabase}
    (hfound : found = v.registry.databases id)
    (h : (found.any fun handle : ManagedDatabase => handle.id = x) = true) :
    (v.registry.databases x).isSome = true := by
  obtain ⟨handle, hsome, hid⟩ := (Option.any_eq_true _ _).mp h
  have hkey := hm.keyed id handle (hfound ▸ hsome)
  rw [← of_decide_eq_true hid, hkey, ← hfound, hsome]
  rfl

theorem Fit.look (hm : m.Fit uuids start x v) {id : String} {found : Option ManagedDatabase}
    (hfound : found = v.registry.databases id) :
    { m with knows := m.knows || found.any fun handle : ManagedDatabase => handle.id = x }.Fit
      uuids start x v := by
  have hknown (h : m.knows = true) :
      (m.knows || found.any fun handle => decide (handle.id = x)) = true := by rw [h]; rfl
  refine { hm with
    knows := fun h => ?_
    guard := fun h => ⟨(hm.guard h).1, hknown (hm.guard h).2⟩
    closed := fun h => ⟨(hm.closed h).1, hknown (hm.closed h).2.1, (hm.closed h).2.2⟩
    drawn := fun h => ?_ }
  · rcases Bool.or_eq_true_iff.mp h with h | h
    · exact hm.knows h
    · exact hm.registered (hm.found hfound h)
  · obtain ⟨hholds, hknows, hmade, hnone, hold⟩ := hm.drawn h
    refine ⟨hholds, Bool.or_eq_false_iff.mpr ⟨hknows, ?_⟩, hmade, hnone, hold⟩
    by_contra hany
    rw [hm.found hfound (Bool.eq_true_of_not_eq_false hany)] at hnone
    cases hnone

theorem Old.later {v w : Sight} (h : v.Old uuids x)
    (hissued : v.registry.issued ≤ w.registry.issued) : w.Old uuids x :=
  fun n hn => h n (hissued.trans hn)

/-- The identifier is drawn now, and so was not in use before. -/
theorem Fit.unused (hm : m.Fit uuids start x v) (hx : uuids v.registry.issued = x) :
    (v.registry.databases x).isSome = false ∧ m.knows = false := by
  constructor
  · by_contra h
    exact hm.registered (Bool.eq_true_of_not_eq_false h) _ le_rfl hx
  · by_contra h
    exact hm.knows (Bool.eq_true_of_not_eq_false h) _ le_rfl hx

theorem Fit.newId (hnew : ∀ k n, start ≤ k → k < n → uuids n ≠ uuids k)
    (hm : m.Fit uuids start x v) (hholds : m.holds = true) (hdrawn : m.drawn = false)
    (hmade : m.made = false) :
    { m with drawn := m.drawn || decide (uuids v.registry.issued = x) }.Fit uuids start x
      { v with registry := { v.registry with issued := v.registry.issued + 1 } } := by
  have hlater (h : v.Old uuids x) : Sight.Old uuids x
      { v with registry := { v.registry with issued := v.registry.issued + 1 } } :=
    Old.later h (Nat.le_succ _)
  refine { hm with
    issued := hm.issued.trans (Nat.le_succ _)
    registered := fun h => hlater (hm.registered h)
    knows := fun h => hlater (hm.knows h)
    made := fun h => ⟨(hm.made h).1, hlater (hm.made h).2⟩
    drawn := fun h => ?_ }
  rw [hdrawn] at h
  have hx := of_decide_eq_true h
  obtain ⟨hnone, hknows⟩ := hm.unused hx
  exact ⟨hholds, hknows, hmade, hnone, fun n hn => hx ▸ hnew _ n hm.issued hn⟩

/-- A handle is registered under its own identifier. -/
theorem Fit.keyed_insert (hm : m.Fit uuids start x v) (inserted : ManagedDatabase) (id : String)
    (handle : ManagedDatabase)
    (h : Function.update v.registry.databases inserted.id (some inserted) id = some handle) :
    handle.id = id := by
  by_cases hid : id = inserted.id
  · subst hid
    rw [Function.update_self] at h
    cases h
    rfl
  · rw [Function.update_of_ne hid] at h
    exact hm.keyed id handle h

theorem Fit.keyed_erase (hm : m.Fit uuids start x v) (erased id : String) (handle : ManagedDatabase)
    (h : Function.update v.registry.databases erased none id = some handle) : handle.id = id := by
  by_cases hid : id = erased
  · subst hid
    rw [Function.update_self] at h
    cases h
  · rw [Function.update_of_ne hid] at h
    exact hm.keyed id handle h

/-- With a handle put into the map: it is an old one, unless it is another's. -/
theorem Fit.insert (hm : m.Fit uuids start x v) (handle : ManagedDatabase)
    (hold : handle.id = x → v.Old uuids x) (hdrawn : handle.id = x → m.drawn = false) :
    m.Fit uuids start x (DaemonOp.seen x (.insertHandle handle) v) := by
  have hother (hid : handle.id ≠ x) :
      Function.update v.registry.databases handle.id (some handle) x = v.registry.databases x :=
    Function.update_of_ne (Ne.symm hid) _ _
  refine { hm with
    keyed := hm.keyed_insert handle
    registered := fun h => ?_
    drawn := fun h => ?_ }
  · by_cases hid : handle.id = x
    · exact hold hid
    · exact hm.registered (hother hid ▸ h)
  · by_cases hid : handle.id = x
    · rw [hdrawn hid] at h
      cases h
    · obtain ⟨hholds, hknows, hmade, hnone, hold⟩ := hm.drawn h
      exact ⟨hholds, hknows, hmade, (congrArg Option.isSome (hother hid)).trans hnone, hold⟩

theorem Fit.erase (hm : m.Fit uuids start x v) (id : String) :
    m.Fit uuids start x (DaemonOp.seen x (.removeHandle id) v) := by
  have hless (h : (Function.update v.registry.databases id none x).isSome = true) :
      (v.registry.databases x).isSome = true := by
    by_cases hid : x = id
    · rw [hid, Function.update_self] at h
      cases h
    · rwa [Function.update_of_ne hid] at h
  refine { hm with
    keyed := hm.keyed_erase id
    registered := fun h => hm.registered (hless h)
    drawn := fun h => ?_ }
  obtain ⟨hholds, hknows, hmade, hnone, hold⟩ := hm.drawn h
  refine ⟨hholds, hknows, hmade, ?_, hold⟩
  by_contra h
  rw [hless (Bool.eq_true_of_not_eq_false h)] at hnone
  cases hnone

theorem Fit.step (hnew : ∀ k n, start ≤ k → k < n → uuids n ≠ uuids k)
    (hm : m.Fit uuids start x v) {o : DaemonOp} {ans : o.Ans} (ho : o.Permitted x m)
    (hans : o.Shows uuids x v ans) : (o.tallied x m ans).Fit uuids start x (o.seen x v) := by
  have hno {P : Prop} (h : false = true) : P := absurd_bool h rfl
  cases o with
  | storage id o =>
    simp only [DaemonOp.tallied, DaemonOp.seen]
    split
    · rename_i hid
      exact hm.storage (ho hid) (hans hid)
    · exact hm
  | lockCatalog =>
    exact { hm with
      holds := fun _ => rfl
      read := fun _ _ h => absurd h (Option.some_ne_none _).symm
      closed := fun h => ⟨rfl, (hm.closed h).2⟩
      drawn := fun h => ⟨rfl, (hm.drawn h).2⟩
      made := fun h => ⟨rfl, (hm.made h).2⟩ }
  | unlockCatalog =>
    exact { hm with holds := hno, read := hno, closed := hno, drawn := hno, made := hno }
  | readCatalog =>
    refine { hm with read := fun hholds catalog h => ?_ }
    rcases Option.or_eq_some_iff.mp h with h | ⟨_, h⟩
    · exact hm.read hholds catalog h
    · cases h
      exact hans
  | writeCatalog next =>
    exact { hm with
      read := fun _ catalog h => (Option.some.inj h).symm
      closed := hno }
  | newId =>
    cases hans
    exact hm.newId hnew ho.1 ho.2.1 ho.2.2
  | newHandle id database =>
    simp only [DaemonOp.tallied, DaemonOp.seen]
    split
    · rename_i hid
      obtain ⟨hholds, hknows, _, _, hold⟩ := hm.drawn (ho hid)
      -- Without a handle of the Database, there is nothing in hand.
      have hnot {b : Bool} (h : b = true → m.knows = true) : b = true → False := fun hb => by
        rw [h hb] at hknows
        cases hknows
      exact { hm with
        guard := fun h => (hnot (fun h => (hm.guard h).2) h).elim
        peeked := fun h => (hnot (fun h => (hm.guard (hm.peeked h).1).2) h).elim
        taken := fun h => (hnot (fun h => (hm.guard (hm.taken h).1).2) h).elim
        closed := fun h => (hnot (fun h => (hm.closed h).2.1) h).elim
        drawn := hno
        made := fun _ => ⟨hholds, hold⟩ }
    · exact hm
  | getHandle id => exact hm.look hans
  | readHandle id => exact hm.look hans
  | insertHandle handle =>
    refine hm.insert handle (fun hid => ?_) fun hid => ?_
    · exact (ho hid).elim (fun h => (hm.made h).2) hm.knows
    · by_contra h
      obtain ⟨_, hknows, hmade, _⟩ := hm.drawn (Bool.eq_true_of_not_eq_false h)
      rcases ho hid with h | h
      · cases h.symm.trans hmade
      · cases h.symm.trans hknows
  | removeHandle id => exact hm.erase id
  | _ => exact hm

-- ---------------------------------------------------------------------------
-- The steps of another thread
-- ---------------------------------------------------------------------------

/-- Another thread is at work inside the Database. -/
theorem Fit.storage_other (hm : m.Fit uuids start x v) (hn : n.Fit uuids start x v)
    (hapart : m.Apart n) {o : StorageOp} (ho : o.Permitted m) :
    n.Fit uuids start x (o.seen v) := by
  have hfree (h : m.guard = true) : n.guard = false := hapart.guard h
  cases o with
  | lock => exact { hn with guard := fun h => ⟨rfl, (hn.guard h).2⟩ }
  | unlock => exact { hn with guard := fun h => absurd_bool h (hfree ho) }
  | take =>
    exact { hn with
      peeked := fun h => absurd_bool (hn.peeked h).1 (hfree ho)
      taken := fun h => ⟨(hn.taken h).1, rfl⟩
      closed := fun h => ⟨(hn.closed h).1, (hn.closed h).2.1, (hn.closed h).2.2.1, rfl⟩ }
  | put database =>
    refine { hn with
      peeked := fun h => ⟨(hn.peeked h).1, rfl⟩
      taken := fun h => absurd_bool (hn.taken h).1 (hfree ho.1)
      closed := fun h => ?_ }
    rcases ho.2 with htaken | hclosed
    · exact absurd_bool h (hapart.taken htaken)
    · exact absurd_bool (hn.closed h).1 (hapart.holds (hm.closed hclosed).1)
  | _ => exact { hn with }

theorem Fit.other (hm : m.Fit uuids start x v) (hn : n.Fit uuids start x v) (hapart : m.Apart n)
    {o : DaemonOp} {ans : o.Ans} (ho : o.Permitted x m) (hans : o.Shows uuids x v ans) :
    n.Fit uuids start x (o.seen x v) := by
  cases o with
  | storage id o =>
    simp only [DaemonOp.seen]
    split
    · rename_i hid
      exact hm.storage_other hn hapart (ho hid)
    · exact hn
  | lockCatalog => exact { hn with holds := fun _ => rfl }
  | unlockCatalog => exact { hn with holds := fun h => absurd_bool h (hapart.holds ho) }
  | writeCatalog next =>
    exact { hn with read := fun h => absurd_bool h (hapart.holds ho.1) }
  | newId =>
    have hlater (h : v.Old uuids x) : (DaemonOp.seen x .newId v).Old uuids x :=
      Old.later h (Nat.le_succ _)
    refine { hn with
      issued := hn.issued.trans (Nat.le_succ _)
      registered := fun h => hlater (hn.registered h)
      knows := fun h => hlater (hn.knows h)
      made := fun h => ⟨(hn.made h).1, hlater (hn.made h).2⟩
      drawn := fun h => ?_ }
    obtain ⟨hholds, hknows, hmade, hnone, hold⟩ := hn.drawn h
    exact ⟨hholds, hknows, hmade, hnone, hlater hold⟩
  | newHandle id database =>
    simp only [DaemonOp.seen]
    split
    · rename_i hid
      have hknows := hapart.drawn (ho hid)
      exact { hn with
        guard := fun h => absurd_bool (hn.guard h).2 hknows
        peeked := fun h => absurd_bool (hn.guard (hn.peeked h).1).2 hknows
        taken := fun h => absurd_bool (hn.guard (hn.taken h).1).2 hknows
        closed := fun h => absurd_bool (hn.closed h).2.1 hknows }
    · exact hn
  | insertHandle handle =>
    refine hn.insert handle (fun hid => ?_) fun hid => ?_
    · exact (ho hid).elim (fun h => (hm.made h).2) hm.knows
    · rcases ho hid with hmade | hknows
      · by_contra h
        exact absurd_bool (hn.drawn (Bool.eq_true_of_not_eq_false h)).1
          (hapart.holds (hm.made hmade).1)
      · exact hapart.knows hknows
  | removeHandle id => exact hn.erase id
  | _ => exact hn

theorem Apart.storage (hn : n.Fit uuids start x v) (hm : m.Fit uuids start x v)
    (hapart : m.Apart n) {o : StorageOp} {ans : o.Ans} (ho : o.Permitted m)
    (hans : o.Shows v ans) : (o.tallied m ans).Apart n := by
  cases o with
  | lock =>
    refine { hapart with guard := fun _ => ?_ }
    by_contra h
    exact absurd_bool (hn.guard (Bool.eq_true_of_not_eq_false h)).1 hans
  | unlock =>
    refine { hapart with guard := nofun, taken := nofun, closed := fun h => ?_ }
    rcases Bool.or_eq_true_iff.mp h with h | h
    · exact hapart.closed h
    · by_contra htaken
      exact absurd_bool (hn.taken (Bool.eq_true_of_not_eq_false htaken)).1 (hapart.guard ho)
  | take =>
    refine { hapart with taken := fun h => ?_ }
    rcases Bool.or_eq_true_iff.mp h with h | h
    · exact hapart.taken h
    · by_contra hclosed
      exact absurd_bool (hans.symm.trans h) (hn.closed (Bool.eq_true_of_not_eq_false hclosed)).2.2.2
  | put database => exact { hapart with closed := nofun, taken := nofun }
  | peek => exact { hapart with }
  | _ => exact { hapart with }

theorem Apart.look (hn : n.Fit uuids start x v) (hapart : m.Apart n) {id : String}
    {found : Option ManagedDatabase} (hfound : found = v.registry.databases id) :
    { m with knows := m.knows || found.any fun handle : ManagedDatabase => handle.id = x }.Apart
      n := by
  refine { hapart with knows := fun h => ?_ }
  rcases Bool.or_eq_true_iff.mp h with h | h
  · exact hapart.knows h
  · by_contra hdrawn
    obtain ⟨_, _, _, hnone, _⟩ := hn.drawn (Bool.eq_true_of_not_eq_false hdrawn)
    exact absurd_bool (hn.found hfound h) hnone

theorem Apart.step (hm : m.Fit uuids start x v) (hn : n.Fit uuids start x v) (hapart : m.Apart n)
    {o : DaemonOp} {ans : o.Ans} (ho : o.Permitted x m) (hans : o.Shows uuids x v ans) :
    (o.tallied x m ans).Apart n := by
  have hno {P : Prop} (h : false = true) : P := absurd_bool h rfl
  cases o with
  | storage id o =>
    simp only [DaemonOp.tallied]
    split
    · rename_i hid
      exact hapart.storage hn hm (ho hid) (hans hid)
    · exact hapart
  | lockCatalog =>
    refine { hapart with holds := fun _ => ?_ }
    by_contra h
    exact absurd_bool (hn.holds (Bool.eq_true_of_not_eq_false h)) hans
  | unlockCatalog => exact { hapart with holds := hno, closed := hno, drawn := hno }
  | readCatalog => exact { hapart with }
  | writeCatalog next => exact { hapart with closed := hno }
  | newId =>
    cases hans
    refine { hapart with drawn := fun h => ?_ }
    rcases Bool.or_eq_true_iff.mp h with h | h
    · exact hapart.drawn h
    · exact (hn.unused (of_decide_eq_true h)).2
  | newHandle id database =>
    simp only [DaemonOp.tallied]
    split
    · exact { hapart with drawn := hno }
    · exact hapart
  | getHandle id => exact hapart.look hn hans
  | readHandle id => exact hapart.look hn hans
  | _ => exact hapart

end

end Tally

-- ---------------------------------------------------------------------------
-- All threads
-- ---------------------------------------------------------------------------

/-- The tallies of all threads fit what is to be seen of the Database. -/
abbrev Tallied (uuids : Nat → String) (start : Nat) (x : String) (v : Sight) (m : θ → Tally) :
    Prop :=
  Cohabit (Tally.Fit uuids start x) Tally.Apart v m

section
variable {θ : Type} [DecidableEq θ] {uuids : Nat → String} {start : Nat} {x : String} {v : Sight}
  {m : θ → Tally} {i : θ} {o : DaemonOp} {ans : o.Ans}

theorem Tallied.step (hnew : ∀ k n, start ≤ k → k < n → uuids n ≠ uuids k)
    (h : Tallied uuids start x v m) (ho : o.Permitted x (m i)) (hans : o.Shows uuids x v ans) :
    Tallied uuids start x (o.seen x v) (Function.update m i (o.tallied x (m i) ans)) := by
  refine h.act (fun _ _ => Tally.Apart.symm) ((h.fits i).step hnew ho hans) fun j hj => ?_
  have hapart := h.apart i j hj.symm
  exact ⟨(h.fits i).other (h.fits j) hapart ho hans, hapart.step (h.fits i) (h.fits j) ho hans⟩

/-- Nothing that could bring the Database back. -/
structure Tally.EmptyHanded (m : Tally) : Prop where
  taken : m.taken = false
  closed : m.closed = false
  drawn : m.drawn = false

/-- The Database was dropped, and stays so. -/
structure Gone (uuids : Nat → String) (x : String) (v : Sight) (m : θ → Tally) : Prop where
  absent : x ∉ v.registry.catalog.ids
  shut : v.isOpen = false
  old : v.Old uuids x
  empty : ∀ i, (m i).EmptyHanded

theorem emptyHanded_update {n : Tally} (h : ∀ i, (m i).EmptyHanded) (hn : n.EmptyHanded) :
    ∀ j, (Function.update m i n j).EmptyHanded := by
  intro j
  by_cases hj : j = i
  · rw [hj, Function.update_self]
    exact hn
  · rw [Function.update_of_ne hj]
    exact h j

/-- Whoever takes the Database out of the catalog has closed it before. -/
theorem Tallied.gone (h : Tallied uuids start x v m) (ho : o.Permitted x (m i))
    (hbefore : x ∈ v.registry.catalog.ids) (hafter : x ∉ (o.seen x v).registry.catalog.ids) :
    Gone uuids x (o.seen x v) (Function.update m i (o.tallied x (m i) ans)) := by
  cases o with
  | writeCatalog next =>
    obtain ⟨hholds, catalog, hread, -, hout⟩ := ho
    have hcatalog := (h.fits i).read hholds catalog hread
    have hclosed := (hout (hcatalog ▸ hbefore)).resolve_left hafter
    obtain ⟨_, hknows, htaken, hshut⟩ := (h.fits i).closed hclosed
    refine ⟨hafter, hshut, (h.fits i).knows hknows, fun j => ?_⟩
    by_cases hj : j = i
    · subst hj
      rw [Function.update_self]
      refine ⟨htaken, rfl, ?_⟩
      by_contra hdrawn
      exact Tally.absurd_bool hknows ((h.fits j).drawn (Bool.eq_true_of_not_eq_false hdrawn)).2.1
    · rw [Function.update_of_ne hj]
      have hapart := h.apart i j (Ne.symm hj)
      refine ⟨hapart.closed hclosed, ?_, hapart.knows hknows⟩
      by_contra hother
      exact Tally.absurd_bool ((h.fits j).closed (Bool.eq_true_of_not_eq_false hother)).1
        (hapart.holds hholds)
  | storage id o =>
    refine absurd hbefore ?_
    simp only [DaemonOp.seen] at hafter
    split at hafter
    · cases o <;> exact hafter
    · exact hafter
  | newHandle id database =>
    refine absurd hbefore ?_
    simp only [DaemonOp.seen] at hafter
    split at hafter <;> exact hafter
  | _ => exact absurd hbefore hafter

theorem Gone.storage {o : StorageOp} {ans : o.Ans} (h : Gone uuids x v m) (ho : o.Permitted (m i))
    (hans : o.Shows v ans) :
    Gone uuids x (o.seen v) (Function.update m i (o.tallied (m i) ans)) := by
  obtain ⟨habsent, hshut, hold, hempty⟩ := h
  obtain ⟨htaken, hclosed, hdrawn⟩ := hempty i
  have hupdate {n : Tally} (hn : n.EmptyHanded) := emptyHanded_update (i := i) hempty hn
  cases o with
  | unlock =>
    refine ⟨habsent, hshut, hold, hupdate ⟨rfl, ?_, hdrawn⟩⟩
    simp [StorageOp.tallied, hclosed, htaken]
  | take =>
    refine ⟨habsent, rfl, hold, hupdate ⟨?_, hclosed, hdrawn⟩⟩
    exact Bool.or_eq_false_iff.mpr ⟨htaken, hans.trans hshut⟩
  | put database =>
    rcases ho.2 with h | h
    · exact Tally.absurd_bool h htaken
    · exact Tally.absurd_bool h hclosed
  | _ => exact ⟨habsent, hshut, hold, hupdate ⟨htaken, hclosed, hdrawn⟩⟩

theorem Gone.step (hfit : (m i).Fit uuids start x v) (h : Gone uuids x v m)
    (ho : o.Permitted x (m i)) (hans : o.Shows uuids x v ans) :
    Gone uuids x (o.seen x v) (Function.update m i (o.tallied x (m i) ans)) := by
  obtain ⟨htaken, hclosed, hdrawn⟩ := h.empty i
  have hupdate {n : Tally} (hn : n.EmptyHanded) := emptyHanded_update (i := i) h.empty hn
  cases o with
  | storage id o =>
    simp only [DaemonOp.seen, DaemonOp.tallied]
    split
    · rename_i hid
      exact h.storage (ho hid) (hans hid)
    · rw [Function.update_eq_self]
      exact h
  | writeCatalog next =>
    obtain ⟨hholds, catalog, hread, hin, -⟩ := ho
    refine { h with absent := fun hnext => ?_, empty := hupdate ⟨htaken, rfl, hdrawn⟩ }
    rcases hin hnext with h' | h'
    · exact h.absent (hfit.read hholds catalog hread ▸ h')
    · exact Tally.absurd_bool h' hdrawn
  | newId =>
    cases hans
    refine { h with
      old := Tally.Old.later h.old (Nat.le_succ _)
      empty := hupdate ⟨htaken, hclosed, Bool.or_eq_false_iff.mpr ⟨hdrawn, ?_⟩⟩ }
    exact decide_eq_false (h.old _ le_rfl)
  | newHandle id database =>
    simp only [DaemonOp.seen, DaemonOp.tallied]
    split
    · rename_i hid
      exact Tally.absurd_bool (ho hid) hdrawn
    · rw [Function.update_eq_self]
      exact h
  | unlockCatalog => exact { h with empty := hupdate ⟨htaken, rfl, rfl⟩ }
  | _ => exact { h with empty := hupdate ⟨htaken, hclosed, hdrawn⟩ }

-- ---------------------------------------------------------------------------
-- Threads that start afresh
-- ---------------------------------------------------------------------------

theorem Tally.Fit.afresh {m : Tally} (h : m.Fit uuids start x v) :
    Tally.start.Fit uuids start x v where
  issued := h.issued
  keyed := h.keyed
  registered := h.registered
  holds := nofun
  read := nofun
  knows := nofun
  guard := nofun
  peeked := nofun
  taken := nofun
  closed := nofun
  drawn := nofun
  made := nofun

theorem Tally.apart_start (m : Tally) : Tally.start.Apart m :=
  ⟨nofun, nofun, nofun, nofun, nofun, nofun⟩

theorem Tallied.restart {m' : θ → Tally} (h : Tallied uuids start x v m)
    (hm : ∀ i, m' i = m i ∨ m' i = .start) : Tallied uuids start x v m' where
  fits i := by
    rcases hm i with hi | hi
    · rw [hi]
      exact h.fits i
    · rw [hi]
      exact (h.fits i).afresh
  apart i j hij := by
    rcases hm i with hi | hi
    · rcases hm j with hj | hj
      · rw [hi, hj]
        exact h.apart i j hij
      · rw [hj]
        exact (Tally.apart_start _).symm
    · rw [hi]
      exact Tally.apart_start _

theorem Gone.restart {m' : θ → Tally} (h : Gone uuids x v m)
    (hm : ∀ i, m' i = m i ∨ m' i = .start) : Gone uuids x v m' := by
  refine { h with empty := fun i => ?_ }
  rcases hm i with hi | hi
  · rw [hi]
    exact h.empty i
  · rw [hi]
    exact ⟨rfl, rfl, rfl⟩

/-- No statement is executed on it. -/
theorem Gone.idle {o : StorageOp} (hfit : (m i).Fit uuids start x v) (h : Gone uuids x v m)
    (ho : o.Permitted (m i)) : o.executes = false := by
  cases o with
  | execute _ _ | executeTransaction _ _ => exact Tally.absurd_bool (hfit.peeked ho.2).2 h.shut
  | _ => rfl

end

end NostdbServer
