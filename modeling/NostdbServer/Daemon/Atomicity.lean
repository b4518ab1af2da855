import NostdbServer.Catalog.Loads
import NostdbServer.Daemon.Changes

/-!
# Lifecycle calls and crashes

A create, rename or drop call is cut off after any number of its steps, the
process is gone, and loads of the data directory follow, each of them cut off
somewhere. The load that runs to its end finds the catalog from before the call
or the one it was to make, by whether the pending catalog was renamed onto
`server-state`.
-/

namespace NostdbServer

open Effects World

inductive LifecycleCall
  | create (name : String)
  | rename (name newName : String)
  | drop (name confirmName : String)

def LifecycleCall.program (root : DataDirectory) :
    LifecycleCall → Prog daemon ProtocolFailure DatabaseSummary
  | .create name => createDatabase root name
  | .rename name newName => renameDatabase root name newName
  | .drop name confirmName => dropDatabase root name confirmName

/-- The catalog the call is to make, `id` being the next identifier. -/
def LifecycleCall.after (c : Catalog) (id : String) : LifecycleCall → Catalog
  | .create name => c.add ⟨id, name, "ready"⟩
  | .rename name newName => (c.byName? name).elim c fun entry => c.rename entry.id newName
  | .drop name _ => (c.byName? name).elim c fun entry => c.remove entry.id

/-- A data directory at rest with a daemon on it, and an identifier to come that
nothing bears. -/
structure Quiescent (root : DataDirectory) (uuids : Nat → String) (c : Catalog) (d : Daemon) :
    Prop where
  accepted : validateCatalog c = .ok ()
  state : d.entry .serverState = some (.file (root.catalog.encode c))
  operation : d.entry .operation = none
  pending : d.entry .pending = none
  previous : d.entry .previous = none
  interrupted : d.entry interrupted = none
  storage : ∀ id, (d.entry (.database id)).isSome = true ↔ id ∈ c.ids
  stored : ∀ id ∈ c.ids, Stored d.entry id
  apart : ∀ id ∈ c.ids, d.entry (.trash id) = none ∧ d.entry (orphan id) = none
  fresh : Unseen c d.entry (uuids d.issued)
  parses : parsesAsUuid (uuids d.issued) = true
  catalog : d.memory.catalog = c
  handles : ∀ id handle, d.memory.databases id = some handle → handle.id = id

theorem Quiescent.idle {root : DataDirectory} {uuids : Nat → String} {c : Catalog} {d : Daemon}
    (h : Quiescent root uuids c d) : Idle root c (.of d false) := by
  have hvalid := validateCatalog_ok.mp h.accepted
  have honly : ∀ id, id ∉ c.ids → d.entry (.database id) = none := by
    intro id hid
    rw [← h.storage] at hid
    simpa using hid
  refine ⟨⟨⟨hvalid, .inl ⟨h.state, ?_⟩, ?_, .inl h.operation, ?_⟩, h.stored, h.apart⟩,
    ⟨h.state, h.previous, h.pending, h.operation⟩, honly, h.catalog, h.handles⟩
  · intro n hn
    cases h.previous.symm.trans hn
  · intro n hn
    cases h.pending.symm.trans hn
  · intro id hid hsome
    rw [show (Books.of d false).entry = d.entry from rfl, honly id hid] at hsome
    cases hsome

section
variable {E : Engine} {root : DataDirectory} {uuids : Nat → String} {c : Catalog} {d : Daemon}

theorem call_does {may : Outcome → Prop} {v : Books} (hm : ¬ Faulty may) (h : Idle root c v)
    (hi : v.installed = false) (hfresh : Unseen c v.entry (uuids v.issued))
    (hparse : parsesAsUuid (uuids v.issued) = true) (call : LifecycleCall) :
    Does E uuids may (Underway E root uuids c (call.after c (uuids v.issued)) v)
      (call.program root) v
      (fun _ => Finished E root uuids c (call.after c (uuids v.issued)) v)
      (fun _ => Finished E root uuids c (call.after c (uuids v.issued)) v) := by
  cases call with
  | create name => exact createDatabase_does hm h hi hfresh hparse rfl
  | rename name newName =>
    refine renameDatabase_does hm h hi ?_
    intro entry hentry
    simp [LifecycleCall.after, hentry]
  | drop name confirmName =>
    refine dropDatabase_does hm h hi ?_
    intro entry hentry
    simp [LifecycleCall.after, hentry]

-- ---------------------------------------------------------------------------
-- Crash atomicity
-- ---------------------------------------------------------------------------

theorem cutCall_underway (h : Quiescent root uuids c d) (call : LifecycleCall) (n : Nat) :
    Underway E root uuids c (call.after c (uuids d.issued)) (.of d false)
      (books ((daemonWorld E uuids).logged.run (List.replicate n .ok) (call.program root)
        (d, [])).2) := by
  refine (call_does not_faulty_ok h.idle rfl h.fresh h.parses call).cut
    (fun _ _ hq => hq.underway) (fun _ _ hf => hf.underway) rfl
    (List.replicate n .ok) fun _ _ hc => List.eq_of_mem_replicate hc

theorem Underway.loadable {after : Catalog} {v w : Books}
    (h : Underway E root uuids c after v w) (hv : v.entry NostdbServer.interrupted = none) :
    Loadable root (if w.installed then after else c) w.entry where
  toStartable := h.sound.toStartable
  free _ _ := h.interrupted.trans hv
  storage := h.sound.stored

/-- The Databases of the catalog hold what they held before the call; one that
the call created holds what the engine creates. -/
theorem Underway.content {after : Catalog} {w : Books} {id : String} (h : Quiescent root uuids c d)
    (hw : Underway E root uuids c after (.of d false) w)
    (hid : id ∈ (if w.installed then after else c).ids) :
    ∃ files, w.entry (.database id) = some (.directory files) ∧
      files .database = if id ∈ c.ids then d.filesOf id .database else some (.file E.created) := by
  obtain ⟨files, content, hfiles, hfile⟩ := hw.sound.stored id hid
  refine ⟨files, hfiles, ?_⟩
  rcases hw.grown id _ hfiles with hold | ⟨rfl, hnew⟩
  · have hold : d.entry (.database id) = some (.directory files) := hold
    rw [if_pos ((h.storage id).mp (by simp [hold])), Daemon.filesOf_eq hold]
  · rw [if_neg (show uuids (Books.of d false).issued ∉ c.ids from h.fresh.catalog)]
    rcases hnew with hnew | hnew
    · cases hnew
      cases hfile
    · cases hnew
      exact createdFiles_database E

variable (E) in
/-- A lifecycle call that crashes after any step is all or nothing: the next
load that is not cut off itself finds the new catalog if the rename onto
`server-state` happened and the old one if not, with exactly its storage, and
nothing of the call is left over. -/
theorem lifecycle_calls_are_crash_atomic (h : Quiescent root uuids c d) (call : LifecycleCall)
    (n : Nat) (cuts : List Nat) :
    let run := (daemonWorld E uuids).logged.run (List.replicate n .ok) (call.program root) (d, [])
    let c' := if run.2.2.any DaemonOp.installs then call.after c (uuids d.issued) else c
    ∃ d', (daemonWorld E uuids).eval .ok (load root)
        (cuts.foldl (cutLoad E uuids root) run.2.1.crashed) = some (.ok c', d') ∧
      (∀ id ∈ c'.ids, ∃ files, d'.entry (.database id) = some (.directory files) ∧
        files .database =
          if id ∈ c.ids then d.filesOf id .database else some (.file E.created)) ∧
      (∀ id, (d'.entry (.database id)).isSome = true ↔ id ∈ c'.ids) ∧
      d'.entry .serverState = some (.file (root.catalog.encode c')) ∧
      d'.entry .pending = none ∧ d'.entry .previous = none ∧ d'.entry .operation = none := by
  intro run c'
  have hunder : Underway E root uuids c _ (.of d false) (books run.2) := cutCall_underway h call n
  have hload : Loadable root c' run.2.1.crashed.entry := hunder.loadable h.interrupted
  have hcut : Loading root c' run.2.1.crashed.entry
      (cuts.foldl (cutLoad E uuids root) run.2.1.crashed).entry := cutLoads_loading hload cuts
  obtain ⟨d', he, hd⟩ := load_eval (E := E) hcut.loadable
  have hkept := hcut.kept.trans hd.loading.kept
  refine ⟨d', he, fun id hid => ?_, fun id => ⟨fun hsome => ?_, fun hid => ?_⟩, hd.state, hd.pending,
    hd.previous, hd.operation⟩
  · obtain ⟨files, hfiles, hcontent⟩ := hunder.content h hid
    exact ⟨files, (hkept id hid _ (.inl rfl)).trans hfiles, hcontent⟩
  · by_contra hid
    rw [hd.only id hid] at hsome
    cases hsome
  · obtain ⟨files, -, hfiles, -⟩ := hd.loading.loadable.storage id hid
    simp [hfiles]

theorem quiescent_single {id name : String} {content : Bytes}
    (hvalid : validateCatalog ⟨CATALOG_VERSION, [⟨id, name, "ready"⟩]⟩ = .ok ())
    (hne : uuids 0 ≠ id) (hparse : parsesAsUuid (uuids 0) = true) :
    Quiescent root uuids ⟨CATALOG_VERSION, [⟨id, name, "ready"⟩]⟩
      (.single root id name content) where
  accepted := hvalid
  state := by simp [Daemon.entry_single]
  operation := by simp [Daemon.entry_single]
  pending := by simp [Daemon.entry_single]
  previous := by simp [Daemon.entry_single]
  interrupted := by simp [Daemon.entry_single, interrupted]
  storage i := by by_cases h : i = id <;> simp [Daemon.entry_single, Catalog.ids, h]
  stored i hi := by
    obtain rfl : i = id := by simpa [Catalog.ids] using hi
    exact ⟨_, content, by rw [Daemon.entry_single, if_pos rfl], by simp⟩
  apart i _ := by simp [Daemon.entry_single, orphan]
  fresh := by
    refine ⟨by simpa [Catalog.ids, Daemon.single] using hne, ?_⟩
    rintro p (rfl | rfl | rfl)
    · have hne : RootPath.database (uuids 0) ≠ .database id := by simpa using hne
      exact (Daemon.entry_single id name content _).trans (if_neg hne)
    · simp [Daemon.entry_single]
    · simp [Daemon.entry_single, orphan]
  parses := hparse
  catalog := rfl
  handles i handle hh := by
    change (if i = id then some (root.managed id) else none) = some handle at hh
    split at hh
    · rename_i hi
      cases hh
      exact hi.symm
    · cases hh

theorem lifecycle_calls_are_crash_atomic_drop :
    ∃ c' d', (daemonWorld .plain fun _ => "00000000-0000-4000-8000-000000000002").eval .ok
        (load (.plain "/data"))
        ([4, 1].foldl (cutLoad .plain (fun _ => "00000000-0000-4000-8000-000000000002")
          (.plain "/data"))
          ((daemonWorld .plain fun _ => "00000000-0000-4000-8000-000000000002").logged.run
            (List.replicate 24 .ok) ((LifecycleCall.drop "main" "main").program (.plain "/data"))
            (.single (.plain "/data") "00000000-0000-4000-8000-000000000001" "main" [7],
              [])).2.1.crashed) = some (.ok c', d') ∧
      (∀ id, (d'.entry (.database id)).isSome = true ↔ id ∈ c'.ids) ∧
      d'.entry .pending = none ∧ d'.entry .previous = none ∧ d'.entry .operation = none := by
  have h : Quiescent (.plain "/data") (fun _ => "00000000-0000-4000-8000-000000000002")
      ⟨CATALOG_VERSION, [⟨"00000000-0000-4000-8000-000000000001", "main", "ready"⟩]⟩
      (.single (.plain "/data") "00000000-0000-4000-8000-000000000001" "main" [7]) :=
    quiescent_single (by decide) (by decide) (by decide)
  obtain ⟨d', he, -, honly, -, hrest⟩ :=
    lifecycle_calls_are_crash_atomic .plain h (.drop "main" "main") 24 [4, 1]
  exact ⟨_, d', he, honly, hrest⟩

end

end NostdbServer
