import NostdbServer.Catalog.Valid
import NostdbServer.Daemon.Rules

/-!
# What loads

`Loadable c e`: from the entries `e`, `CatalogStore::load` succeeds with the
catalog `c`. Each of its passes keeps that, so a load that is cut off can be
rerun, and what it moves is never storage of the catalog. `Startable` is the
part of it that the catalog's own files decide.
-/

namespace NostdbServer

open Effects World

abbrev Entries := RootPath → Option Entry

/-- The Database has its directory and its file. -/
def Stored (e : Entries) (id : String) : Prop :=
  ∃ files content, e (.database id) = some (.directory files) ∧
    files .database = some (.file content)

/-- The storage side of a committed operation is done or can be done. -/
def Finishable (c : Catalog) (e : Entries) (journal : OperationJournal) : Prop :=
  match journal.kind with
  | .create => journal.databaseId ∈ c.ids
  | .rename => True
  | .drop => journal.databaseId ∉ c.ids ∧
      ((e (.database journal.databaseId)).isSome = true → e (.trash journal.databaseId) = none)

structure Startable (root : DataDirectory) (c : Catalog) (e : Entries) : Prop where
  valid : c.Valid
  state : (e .serverState = some (.file (root.catalog.encode c)) ∧
      ∀ n, e .previous = some n → ∃ bytes, n = .file bytes) ∨
    (e .serverState = none ∧ e .previous = some (.file (root.catalog.encode c)))
  pending : ∀ n, e .pending = some n → ∃ bytes, n = .file bytes
  operation : e .operation = none ∨ ∃ journal,
    e .operation = some (.file (root.operation.encode journal)) ∧
    journal.operationVersion = OPERATION_VERSION ∧
    (journal.before = c ∨ journal.after = c ∧ Finishable c e journal)
  orphans : ∀ id, id ∉ c.ids → (e (.database id)).isSome = true → e (orphan id) = none

structure Loadable (root : DataDirectory) (c : Catalog) (e : Entries) : Prop extends
    Startable root c e where
  free : ∀ n, e .pending = some n → e interrupted = none
  storage : ∀ id ∈ c.ids, Stored e id

/-- The paths whose entries are storage, of the Database `id` or of any. -/
def RootPath.StorageOf (id : String) (p : RootPath) : Prop :=
  p = .database id ∨ p = .trash id ∨ p = orphan id

def RootPath.Storage (p : RootPath) : Prop := ∃ id, p.StorageOf id

/-- A load leaves the storage of the catalog alone. -/
def Kept (c : Catalog) (e₀ e : Entries) : Prop :=
  ∀ id ∈ c.ids, ∀ p : RootPath, p.StorageOf id → e p = e₀ p

/-- A load from `e₀`, stopped somewhere. -/
structure Loading (root : DataDirectory) (c : Catalog) (e₀ e : Entries) : Prop where
  loadable : Loadable root c e
  kept : Kept c e₀ e

/-- A load from `e₀`, done. -/
structure Loaded (root : DataDirectory) (c : Catalog) (e₀ e : Entries) : Prop where
  loading : Loading root c e₀ e
  state : e .serverState = some (.file (root.catalog.encode c))
  previous : e .previous = none
  pending : e .pending = none
  operation : e .operation = none
  only : ∀ id, id ∉ c.ids → e (.database id) = none

section
variable {c : Catalog} {e₀ e e' : Entries}

theorem Kept.refl (e : Entries) : Kept c e e := fun _ _ _ _ => rfl

theorem Kept.trans (h : Kept c e₀ e) (h' : Kept c e e') : Kept c e₀ e' :=
  fun id hid p hp => (h' id hid p hp).trans (h id hid p hp)

theorem Kept.of_eq (h : ∀ p : RootPath, p.Storage → e p = e₀ p) : Kept c e₀ e :=
  fun id _ p hp => h p ⟨id, hp⟩

end

theorem orphan_inj {a b : String} : orphan a = orphan b ↔ a = b := by
  simp [orphan]

theorem orphan_ne_interrupted (id : String) : orphan id ≠ interrupted := by
  intro h
  have h := congrArg String.toList (RootPath.recovery.inj h)
  simp [String.toList_append] at h

@[simp] theorem not_storage_serverState : ¬ RootPath.serverState.Storage := by
  simp [RootPath.Storage, RootPath.StorageOf, orphan]

@[simp] theorem not_storage_pending : ¬ RootPath.pending.Storage := by
  simp [RootPath.Storage, RootPath.StorageOf, orphan]

@[simp] theorem not_storage_previous : ¬ RootPath.previous.Storage := by
  simp [RootPath.Storage, RootPath.StorageOf, orphan]

@[simp] theorem not_storage_operation : ¬ RootPath.operation.Storage := by
  simp [RootPath.Storage, RootPath.StorageOf, orphan]

@[simp] theorem not_storage_interrupted : ¬ interrupted.Storage := by
  rintro ⟨id, h | h | h⟩
  · cases h
  · cases h
  · exact orphan_ne_interrupted id h.symm

section
variable {root : DataDirectory} {c : Catalog} {e₀ e e' : Entries} {p : RootPath} {n : Option Entry}

theorem Stored.congr {id : String} (h : Stored e id) (hs : ∀ p, p.Storage → e' p = e p) : Stored e' id := by
  obtain ⟨files, content, he, hf⟩ := h
  exact ⟨files, content, (hs _ ⟨id, .inl rfl⟩).trans he, hf⟩

theorem Finishable.congr (h : Finishable c e journal) (hs : ∀ p, p.Storage → e' p = e p) :
    Finishable c e' journal := by
  obtain ⟨version, kind, id, before, after⟩ := journal
  cases kind with
  | create => exact h
  | rename => trivial
  | drop =>
    refine ⟨h.1, fun hsome => ?_⟩
    rw [hs _ ⟨id, .inl rfl⟩] at hsome
    rw [hs _ ⟨id, .inr (.inl rfl)⟩]
    exact h.2 hsome

/-- Only the catalog's own files changed. -/
theorem Startable.congr (h : Startable root c e) (hs : ∀ p, p.Storage → e' p = e p)
    (state : (e' .serverState = some (.file (root.catalog.encode c)) ∧
        ∀ n, e' .previous = some n → ∃ bytes, n = .file bytes) ∨
      (e' .serverState = none ∧ e' .previous = some (.file (root.catalog.encode c))))
    (pending : ∀ n, e' .pending = some n → ∃ bytes, n = .file bytes)
    (operation : e' .operation = none ∨ e' .operation = e .operation) : Startable root c e' where
  valid := h.valid
  state := state
  pending := pending
  operation := by
    rcases operation with ho | ho
    · exact .inl ho
    · rw [ho]
      refine h.operation.imp_right ?_
      rintro ⟨journal, hj, hv, hside⟩
      exact ⟨journal, hj, hv, hside.imp_right fun hf => ⟨hf.1, hf.2.congr hs⟩⟩
  orphans id hid hsome := by
    rw [hs _ ⟨id, .inr (.inr rfl)⟩]
    refine h.orphans id hid ?_
    rwa [← hs _ ⟨id, .inl rfl⟩]

theorem Loadable.congr (h : Loadable root c e) (hs : ∀ p, p.Storage → e' p = e p)
    (state : (e' .serverState = some (.file (root.catalog.encode c)) ∧
        ∀ n, e' .previous = some n → ∃ bytes, n = .file bytes) ∨
      (e' .serverState = none ∧ e' .previous = some (.file (root.catalog.encode c))))
    (pending : ∀ n, e' .pending = some n → (∃ bytes, n = .file bytes) ∧ e' interrupted = none)
    (operation : e' .operation = none ∨ e' .operation = e .operation) : Loadable root c e' where
  toStartable := h.toStartable.congr hs state (fun n hn => (pending n hn).1) operation
  free n hn := (pending n hn).2
  storage id hid := (h.storage id hid).congr hs

theorem Loading.congr (h : Loading root c e₀ e) (hs : ∀ p, p.Storage → e' p = e p)
    (hl : Loadable root c e') : Loading root c e₀ e' :=
  ⟨hl, h.kept.trans (.of_eq hs)⟩

/-- An entry that is no storage may be set or moved without touching any. -/
theorem set_storage {v : Books} (hp : ¬ p.Storage) :
    ∀ r : RootPath, r.Storage → (v.set p n).entry r = v.entry r := by
  intro r hr
  rw [Books.set_entry, if_neg]
  rintro rfl
  exact hp hr

theorem move_storage {v : Books} {m : Entry} {q : RootPath} (hp : ¬ p.Storage) (hq : ¬ q.Storage) :
    ∀ r : RootPath, r.Storage → (v.move p q m).entry r = v.entry r := by
  intro r hr
  rw [Books.move_entry, if_neg, if_neg]
  · rintro rfl
    exact hp hr
  · rintro rfl
    exact hq hr

-- ---------------------------------------------------------------------------
-- The passes of a load
-- ---------------------------------------------------------------------------

variable {E : Engine} {uuids : Nat → String} {may : Outcome → Prop} {C : Books → Prop} {v : Books}

/-- `server-state` holds the catalog. -/
def Current (root : DataDirectory) (c : Catalog) (e : Entries) : Prop :=
  e .serverState = some (.file (root.catalog.encode c))

theorem readCatalogFile_does (hm : ¬ Faulty may) (hc : C v)
    (hp : v.entry p = some (.file (root.catalog.encode c))) {Q : Catalog → Books → Prop}
    {F : ServerError → Books → Prop} (hq : Q c v) :
    Does E uuids may C (readCatalogFile root p) v Q F := by
  unfold readCatalogFile
  simp only [Prog.bind_eq]
  refine Does.read_ok hm hc hp ?_
  simp only [Codec.decode_encode]
  exact Exec.pure hq

theorem removeIfExists_does (hm : ¬ Faulty may) (hc : C v)
    (hp : ∀ n, v.entry p = some n → ∃ bytes, n = .file bytes)
    {F : ServerError → Books → Prop} :
    Does E uuids may C (removeIfExists root p) v (fun _ w => w = v.set p none) F := by
  unfold removeIfExists
  simp only [Prog.bind_eq]
  refine Does.remove hc ?_ ?_ ?_
  · intro _ _
    exact Exec.pure rfl
  · intro hn
    refine Exec.pure ?_
    rw [← hn]
    exact (congrArg (fun e => { v with entry := e }) (Function.update_eq_self p v.entry)).symm
  · rintro e - (hi | ⟨files, hn⟩)
    · exact absurd hi.faulty hm
    · obtain ⟨bytes, hb⟩ := hp _ hn
      cases hb

theorem restorePrevious_does (hm : ¬ Faulty may) (h : Loading root c e₀ v.entry)
    {F : ServerError → Books → Prop} :
    Does E uuids may (fun w => Loading root c e₀ w.entry) restorePrevious v
      (fun _ w => Loading root c e₀ w.entry ∧ Current root c w.entry) F := by
  unfold restorePrevious
  simp only [Prog.bind_eq]
  refine Does.pathExists h (Does.pathExists h ?_)
  rcases h.loadable.state with ⟨hs, -⟩ | ⟨hs, hp⟩
  · rw [hs]
    exact Exec.pure ⟨h, hs⟩
  · rw [hs, hp]
    have hstate : Current root c
        (v.move .previous .serverState (.file (root.catalog.encode c))).entry := by
      simp [Current]
    refine Does.rename_ok hm (by simp) h hp (by rw [hs]; rfl) (Exec.pure ⟨?_, hstate⟩)
    refine h.congr (move_storage (by simp) (by simp)) (h.loadable.congr
      (move_storage (by simp) (by simp)) (.inl ⟨hstate, by simp⟩) ?_ (.inr (by simp)))
    intro n hn
    have hn : v.entry .pending = some n := by simpa using hn
    exact ⟨h.loadable.pending n hn, by simpa [interrupted] using h.loadable.free n hn⟩

theorem quarantinePending_does (hm : ¬ Faulty may) (h : Loading root c e₀ v.entry)
    (hcur : Current root c v.entry) {F : ServerError → Books → Prop} :
    Does E uuids may (fun w => Loading root c e₀ w.entry) quarantinePending v
      (fun _ w => Loading root c e₀ w.entry ∧ Current root c w.entry ∧ w.entry .pending = none)
      F := by
  unfold quarantinePending
  simp only [Prog.bind_eq]
  refine Does.pathExists h ?_
  cases hp : v.entry .pending with
  | none => exact Exec.pure ⟨h, hcur, hp⟩
  | some n =>
    obtain ⟨bytes, rfl⟩ := h.loadable.pending n hp
    have hfree := h.loadable.free _ hp
    refine Does.pathExists h ?_
    rw [hfree]
    have hstate : Current root c (v.move .pending interrupted (.file bytes)).entry := by
      simpa [Current, interrupted] using hcur
    refine Does.rename_ok hm (by simp [interrupted]) h hp (by rw [hfree]; rfl)
      (Exec.pure ⟨?_, hstate, by simp [interrupted]⟩)
    refine h.congr (move_storage (by simp) (by simp)) (h.loadable.congr
      (move_storage (by simp) (by simp)) (.inl ⟨hstate, ?_⟩) (by simp [interrupted])
      (.inr (by simp [interrupted])))
    intro n hn
    rcases h.loadable.state with ⟨-, hprev⟩ | ⟨hnone, -⟩
    · exact hprev n (by simpa [interrupted] using hn)
    · cases hcur.symm.trans hnone

/-- Only the journal and storage may need work. -/
structure Catalogued (root : DataDirectory) (c : Catalog) (e₀ e : Entries) : Prop where
  loading : Loading root c e₀ e
  current : Current root c e
  previous : e .previous = none
  pending : e .pending = none

theorem dropPrevious_does (hm : ¬ Faulty may) (h : Loading root c e₀ v.entry)
    (hcur : Current root c v.entry) (hpend : v.entry .pending = none)
    {F : ServerError → Books → Prop} :
    Does E uuids may (fun w => Loading root c e₀ w.entry) (dropPrevious root) v
      (fun _ w => Catalogued root c e₀ w.entry) F := by
  have hfile : ∀ n, v.entry .previous = some n → ∃ bytes, n = .file bytes := by
    rcases h.loadable.state with ⟨-, hprev⟩ | ⟨hnone, -⟩
    · exact hprev
    · cases hcur.symm.trans hnone
  unfold dropPrevious
  simp only [Prog.bind_eq]
  refine Does.pathExists h (Does.pathExists h ?_)
  rw [hcur]
  cases hp : v.entry .previous with
  | none => exact Exec.pure ⟨h, hcur, hp, hpend⟩
  | some n =>
    have hcur' : Current root c (v.set .previous none).entry := by
      simpa [Current] using hcur
    refine Exec.seq (P := fun _ w => v = w) (readCatalogFile_does hm h hcur rfl) ?_
      fun _ _ hf => hf
    rintro _ _ rfl
    refine (removeIfExists_does hm h hfile).mono (fun _ h => h) ?_ fun _ _ hf => hf
    rintro _ _ rfl
    refine ⟨?_, hcur', by simp, by simpa using hpend⟩
    refine h.congr (set_storage (by simp)) (h.loadable.congr (set_storage (by simp))
      (.inl ⟨hcur', by simp⟩) ?_ (.inr (by simp)))
    intro n hn
    simp [hpend] at hn

theorem recoverAtomicState_does (hm : ¬ Faulty may) (h : Loading root c e₀ v.entry)
    {F : ServerError → Books → Prop} :
    Does E uuids may (fun w => Loading root c e₀ w.entry) (recoverAtomicState root) v
      (fun _ w => Catalogued root c e₀ w.entry) F := by
  unfold recoverAtomicState
  simp only [Prog.bind_eq]
  refine Exec.seq (restorePrevious_does hm h) ?_ fun _ _ hf => hf
  rintro _ w ⟨hw, hcur⟩
  refine Exec.seq (quarantinePending_does hm hw hcur) ?_ fun _ _ hf => hf
  rintro _ w ⟨hw, hcur, hpend⟩
  refine Exec.seq (dropPrevious_does hm hw hcur hpend) ?_ fun _ _ hf => hf
  intro _ w hw
  unfold requireState
  refine Does.pathExists hw.loading ?_
  rw [hw.current]
  exact Exec.pure hw

/-- The storage of `id` was moved to the trash or put aside. -/
structure MovedAway (id : String) (e e' : Entries) : Prop where
  files : ∀ p, ¬ p.Storage → e' p = e p
  other : ∀ i p, i ≠ id → p.StorageOf i → e' p = e p
  had : (e (.database id)).isSome = true
  gone : e' (.database id) = none

theorem movedAway {id : String} {q : RootPath} {m : Entry} (hm : v.entry (.database id) = some m)
    (hq : q = .trash id ∨ q = orphan id) :
    MovedAway id v.entry (v.move (.database id) q m).entry where
  files p hp := by
    rw [Books.move_entry, if_neg, if_neg]
    · rintro rfl
      exact hp ⟨id, .inl rfl⟩
    · rintro rfl
      exact hp ⟨id, .inr hq⟩
  other i p hi hp := by
    rw [Books.move_entry, if_neg, if_neg]
    · rintro rfl
      rcases hp with h | h | h <;> simp [orphan, hi.symm] at h
    · rintro rfl
      rcases hq with rfl | rfl <;> rcases hp with h | h | h <;> simp [orphan, hi.symm] at h
  had := by simp [hm]
  gone := by
    rcases hq with rfl | rfl <;> simp [orphan]

theorem MovedAway.kept {id : String} (h : MovedAway id e e') (hid : id ∉ c.ids) : Kept c e e' := by
  intro i hi p hp
  refine h.other i p ?_ hp
  rintro rfl
  exact hid hi

/-- What moved away needs no more finishing, and nothing else changed. -/
theorem Startable.moveAway {id : String} (h : Startable root c e) (hm : MovedAway id e e') :
    Startable root c e' where
  valid := h.valid
  state := by
    rw [hm.files _ not_storage_serverState, hm.files _ not_storage_previous]
    exact h.state
  pending := by
    rw [hm.files _ not_storage_pending]
    exact h.pending
  operation := by
    rw [hm.files _ not_storage_operation]
    refine h.operation.imp_right ?_
    rintro ⟨journal, hj, hv, hside⟩
    refine ⟨journal, hj, hv, hside.imp_right fun hf => ⟨hf.1, ?_⟩⟩
    obtain ⟨version, kind, i, before, after⟩ := journal
    cases kind with
    | create => exact hf.2
    | rename => trivial
    | drop =>
      refine ⟨hf.2.1, fun hsome => ?_⟩
      have hne : i ≠ id := by
        rintro rfl
        rw [hm.gone] at hsome
        cases hsome
      rw [hm.other i _ hne (.inl rfl)] at hsome
      rw [hm.other i _ hne (.inr (.inl rfl))]
      exact hf.2.2 hsome
  orphans i hi hsome := by
    have hne : i ≠ id := by
      rintro rfl
      rw [hm.gone] at hsome
      cases hsome
    rw [hm.other i _ hne (.inl rfl)] at hsome
    rw [hm.other i _ hne (.inr (.inr rfl))]
    exact h.orphans i hi hsome

theorem Catalogued.moveAway {id : String} (h : Catalogued root c e₀ e) (hid : id ∉ c.ids)
    (hm : MovedAway id e e') : Catalogued root c e₀ e' := by
  have hpend : e' .pending = none := (hm.files _ (by simp)).trans h.pending
  refine ⟨⟨⟨h.loading.loadable.toStartable.moveAway hm, by simp [hpend], ?_⟩,
    h.loading.kept.trans (hm.kept hid)⟩, (hm.files _ (by simp)).trans h.current,
    (hm.files _ (by simp)).trans h.previous, hpend⟩
  intro i hi
  obtain ⟨files, content, hfiles, hfile⟩ := h.loading.loadable.storage i hi
  exact ⟨files, content, ((hm.kept hid) i hi _ (.inl rfl)).trans hfiles, hfile⟩

/-- The journal is settled: storage is what the catalog says, but for orphans. -/
structure Journaled (root : DataDirectory) (c : Catalog) (e₀ e : Entries) : Prop extends
    Catalogued root c e₀ e where
  operation : e .operation = none

theorem clearOperation_does (hm : ¬ Faulty may) (h : Catalogued root c e₀ v.entry)
    {F : ServerError → Books → Prop} :
    Does E uuids may (fun w => Loading root c e₀ w.entry) (removeIfExists root .operation) v
      (fun _ w => Journaled root c e₀ w.entry) F := by
  have hfile : ∀ n, v.entry .operation = some n → ∃ bytes, n = .file bytes := by
    intro n hn
    rcases h.loading.loadable.operation with ho | ⟨journal, ho, -⟩
    · cases ho.symm.trans hn
    · cases ho.symm.trans hn
      exact ⟨_, rfl⟩
  refine (removeIfExists_does hm h.loading hfile).mono (fun _ h => h) ?_ fun _ _ hf => hf
  rintro _ _ rfl
  have hcur : Current root c (v.set .operation none).entry := by
    simpa [Current] using h.current
  refine ⟨⟨h.loading.congr (set_storage (by simp)) (h.loading.loadable.congr
    (set_storage (by simp)) (.inl ⟨hcur, ?_⟩) ?_ (.inl (by simp))), hcur, ?_, ?_⟩, by simp⟩
  · simp [h.previous]
  · simp [h.pending]
  · simp [h.previous]
  · simp [h.pending]

theorem completeOperation_does {journal : OperationJournal} (hm : ¬ Faulty may)
    (h : Catalogued root c e₀ v.entry) (hside : Finishable c v.entry journal) {F : ServerError → Books → Prop} :
    Does E uuids may (fun w => Loading root c e₀ w.entry) (completeOperation journal) v
      (fun _ w => Catalogued root c e₀ w.entry) F := by
  obtain ⟨version, kind, id, before, after⟩ := journal
  unfold completeOperation
  cases kind with
  | create =>
    obtain ⟨files, content, hfiles, hfile⟩ := h.loading.loadable.storage id hside
    refine Does.isFile h.loading hfiles ?_
    simp only [hfile]
    exact Exec.pure h
  | rename => exact Exec.pure h
  | drop =>
    obtain ⟨hid, htrash⟩ := hside
    refine Does.pathExists h.loading ?_
    cases hd : v.entry (.database id) with
    | none => exact Exec.pure h
    | some m =>
      have hfree : v.entry (.trash id) = none := htrash (by simp [hd])
      refine Does.pathExists h.loading ?_
      rw [hfree]
      refine Does.rename_ok hm (by simp) h.loading hd (by rw [hfree]; rfl) (Exec.pure ?_)
      exact h.moveAway hid (movedAway hd (.inl rfl))

theorem recoverOperation_does (hm : ¬ Faulty may) (h : Catalogued root c e₀ v.entry)
    {F : ServerError → Books → Prop} :
    Does E uuids may (fun w => Loading root c e₀ w.entry) (recoverOperation root c) v
      (fun _ w => Journaled root c e₀ w.entry) F := by
  unfold recoverOperation
  simp only [Prog.bind_eq]
  refine Does.pathExists h.loading ?_
  rcases h.loading.loadable.operation with ho | ⟨journal, ho, hversion, hside⟩
  · rw [ho]
    exact Exec.pure ⟨h, ho⟩
  · simp only [ho, Option.isSome_some, ↓reduceIte]
    refine Does.read_ok hm h.loading ho ?_
    simp only [Codec.decode_encode, hversion, ne_eq, not_true_eq_false, ↓reduceIte]
    by_cases hbefore : c = journal.before
    · rw [if_pos hbefore]
      exact clearOperation_does hm h
    · have hside : journal.after = c ∧ Finishable c v.entry journal :=
        hside.resolve_left fun hb => hbefore hb.symm
      rw [if_neg hbefore, if_neg (by simp [hside.1])]
      refine Exec.seq (completeOperation_does hm h hside.2) ?_ fun _ _ hf => hf
      intro _ w hw
      exact clearOperation_does hm hw

theorem validateStorage_does (hc : C v) (databases : List CatalogDatabase)
    (hs : ∀ database ∈ databases, Stored v.entry database.id) {F : ServerError → Books → Prop} :
    Does E uuids may C (validateStorage databases) v (fun _ w => w = v) F := by
  induction databases with
  | nil => exact Exec.pure rfl
  | cons database rest ih =>
    obtain ⟨files, content, hfiles, hfile⟩ := hs database (by simp)
    unfold validateStorage
    simp only [Prog.bind_eq]
    refine Does.directoryExists hc (Does.isFile hc hfiles ?_)
    simp only [Books.hasDirectory, hfiles, hfile]
    exact ih fun d hd => hs d (by simp [hd])

theorem quarantineOrphans_does (hm : ¬ Faulty may) (names : List String)
    (h : Journaled root c e₀ v.entry) (hnodup : names.Nodup)
    (hpresent : ∀ name ∈ names, (v.entry (.database name)).isSome = true)
    (hall : ∀ id, id ∉ c.ids → (v.entry (.database id)).isSome = true → id ∈ names)
    {F : ServerError → Books → Prop} :
    Does E uuids may (fun w => Loading root c e₀ w.entry) (quarantineOrphans c.ids names) v
      (fun _ w => Loaded root c e₀ w.entry) F := by
  induction names generalizing v with
  | nil =>
    refine Exec.pure ⟨h.loading, h.current, h.previous, h.pending, h.operation, fun id hid => ?_⟩
    by_contra hne
    exact absurd (hall id hid (Option.isSome_iff_ne_none.mpr hne)) (by simp)
  | cons name rest ih =>
    obtain ⟨hname, hnodup⟩ := List.nodup_cons.mp hnodup
    unfold quarantineOrphans
    by_cases hknown : name ∈ c.ids
    · rw [if_pos hknown]
      refine ih h hnodup (fun n hn => hpresent n (by simp [hn])) fun id hid hsome => ?_
      refine (List.mem_cons.mp (hall id hid hsome)).resolve_left ?_
      rintro rfl
      exact hid hknown
    · rw [if_neg hknown]
      obtain ⟨m, hd⟩ := Option.isSome_iff_exists.mp (hpresent name (by simp))
      have hfree := h.loading.loadable.orphans name hknown (by simp [hd])
      refine Does.pathExists h.loading ?_
      rw [hfree]
      have hmoved := movedAway hd (.inr rfl)
      refine Does.rename_ok hm (by simp [orphan]) h.loading hd (by rw [hfree]; rfl) ?_
      refine ih ⟨h.toCatalogued.moveAway hknown hmoved,
        (hmoved.files _ (by simp)).trans h.operation⟩ hnodup ?_ ?_
      · intro n hn
        have hne : n ≠ name := by
          rintro rfl
          exact hname hn
        rw [hmoved.other n _ hne (.inl rfl)]
        exact hpresent n (by simp [hn])
      · intro id hid hsome
        have hne : id ≠ name := by
          rintro rfl
          rw [hmoved.gone] at hsome
          cases hsome
        rw [hmoved.other id _ hne (.inl rfl)] at hsome
        exact (List.mem_cons.mp (hall id hid hsome)).resolve_left hne

/-- From loadable entries a load without disk errors succeeds, and wherever it
is cut off the entries are still loadable. -/
theorem load_does (hm : ¬ Faulty may) (h : Loadable root c v.entry) :
    Does E uuids may (fun w => Loading root c v.entry w.entry) (load root) v
      (fun catalog w => catalog = c ∧ Loaded root c v.entry w.entry) (fun _ _ => False) := by
  unfold load
  simp only [Prog.bind_eq]
  refine Exec.seq (recoverAtomicState_does hm ⟨h, .refl _⟩) ?_ fun _ _ hf => hf
  intro _ w hw
  refine Exec.seq (P := fun catalog u => catalog = c ∧ w = u)
    (readCatalogFile_does hm hw.loading hw.current ⟨rfl, rfl⟩) ?_ fun _ _ hf => hf
  rintro _ _ ⟨rfl, rfl⟩
  rw [validateCatalog_ok.mpr h.valid, Prog.ofExcept_ok, Prog.bind_pure]
  refine Exec.seq (recoverOperation_does hm hw) ?_ fun _ _ hf => hf
  intro _ w hw
  refine Exec.seq (validateStorage_does hw.loading _ fun d hd => ?_) ?_ fun _ _ hf => hf
  · exact hw.loading.loadable.storage _ (List.mem_map_of_mem hd)
  · rintro _ _ rfl
    unfold recoverOrphans
    simp only [Prog.bind_eq]
    refine Exec.bind (Does.readDatabases_ok hm hw.loading fun names hnodup hmem => ?_)
    refine (quarantineOrphans_does hm names hw hnodup (fun n hn => (hmem n).mp hn)
      fun id _ hsome => (hmem id).mpr hsome).mono (fun _ h => h) ?_ fun _ _ hf => hf
    intro _ u hu
    exact Exec.pure ⟨rfl, hu⟩

end

end NostdbServer
