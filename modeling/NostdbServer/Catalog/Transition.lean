import NostdbServer.Catalog.Loading

/-!
# Replacing the catalog, step by step

`transition` on a disk without errors. Up to the rename of the pending catalog
onto `server-state` the old catalog loads, from there on the new one, and
nothing but the catalog's own files changes.
-/

namespace NostdbServer

open Effects World

/-- Nothing is under way in the catalog's own files. -/
structure Resting (root : DataDirectory) (c : Catalog) (e : Entries) : Prop where
  current : Current root c e
  previous : e .previous = none
  pending : e .pending = none
  operation : e .operation = none

/-- The paths a transition leaves alone. -/
def RootPath.Outside (p : RootPath) : Prop := p.Storage ∨ p = interrupted

/-- A transition from `v`, stopped somewhere. -/
structure Switching (root : DataDirectory) (before after : Catalog) (v w : Books) : Prop where
  startable : Startable root (if w.installed then after else before) w.entry
  outside : ∀ p : RootPath, p.Outside → w.entry p = v.entry p
  issued : w.issued = v.issued

/-- A transition from `v`, done but for its journal. -/
structure Switched (root : DataDirectory) (after : Catalog) (v w : Books) : Prop where
  startable : Startable root after w.entry
  current : Current root after w.entry
  previous : w.entry .previous = none
  pending : w.entry .pending = none
  operation : ∃ bytes, w.entry .operation = some (.file bytes)
  outside : ∀ p : RootPath, p.Outside → w.entry p = v.entry p
  installed : w.installed = true
  memory : w.memory = { v.memory with catalog := after }
  issued : w.issued = v.issued

section
variable {root : DataDirectory} {before after c : Catalog} {e e' : Entries}
  {journal : OperationJournal}

/-- What the catalog's files must show for `c` to be loaded, when a journal of
the current version with `c` on one side may be there. -/
theorem startable_of (valid : c.Valid)
    (orphans : ∀ id, id ∉ c.ids → (e (.database id)).isSome = true → e (orphan id) = none)
    (version : journal.operationVersion = OPERATION_VERSION)
    (side : journal.before = c ∨ journal.after = c ∧ Finishable c e journal)
    (outside : ∀ p : RootPath, p.Outside → e' p = e p)
    (state : (e' .serverState = some (.file (root.catalog.encode c)) ∧
        ∀ n, e' .previous = some n → ∃ bytes, n = .file bytes) ∨
      (e' .serverState = none ∧ e' .previous = some (.file (root.catalog.encode c))))
    (pending : ∀ n, e' .pending = some n → ∃ bytes, n = .file bytes)
    (operation : e' .operation = none ∨
      e' .operation = some (.file (root.operation.encode journal))) : Startable root c e' where
  valid := valid
  state := state
  pending := pending
  operation := operation.imp_right fun ho => ⟨journal, ho, version, side.imp_right fun hf =>
    ⟨hf.1, hf.2.congr fun p hp => outside p (.inl hp)⟩⟩
  orphans id hid hsome := by
    rw [outside _ (.inl ⟨id, .inl rfl⟩)] at hsome
    rw [outside _ (.inl ⟨id, .inr (.inr rfl)⟩)]
    exact orphans id hid hsome

@[simp] theorem not_outside_serverState : ¬ RootPath.serverState.Outside := by
  simp [RootPath.Outside, interrupted]

@[simp] theorem not_outside_pending : ¬ RootPath.pending.Outside := by
  simp [RootPath.Outside, interrupted]

@[simp] theorem not_outside_previous : ¬ RootPath.previous.Outside := by
  simp [RootPath.Outside, interrupted]

@[simp] theorem not_outside_operation : ¬ RootPath.operation.Outside := by
  simp [RootPath.Outside, interrupted]

theorem set_outside {v w : Books} {p : RootPath} {n : Option Entry} (hp : ¬ p.Outside)
    (h : ∀ q : RootPath, q.Outside → w.entry q = v.entry q) :
    ∀ q : RootPath, q.Outside → (w.set p n).entry q = v.entry q := by
  intro q hq
  rw [Books.set_entry, if_neg, h q hq]
  rintro rfl
  exact hp hq

theorem move_outside {v w : Books} {p r : RootPath} {n : Entry} (hp : ¬ p.Outside)
    (hr : ¬ r.Outside) (h : ∀ q : RootPath, q.Outside → w.entry q = v.entry q) :
    ∀ q : RootPath, q.Outside → (w.move p r n).entry q = v.entry q := by
  intro q hq
  rw [Books.move_entry, if_neg, if_neg, h q hq]
  · rintro rfl
    exact hp hq
  · rintro rfl
    exact hr hq

variable {E : Engine} {uuids : Nat → String} {may : Outcome → Prop} {C : Books → Prop} {v : Books}

theorem writeJsonNew_does {p : RootPath} {bytes : Bytes} (hm : ¬ Faulty may) (hc : C v)
    (hp : v.entry p = none) {F : ServerError → Books → Prop} :
    Does E uuids may C (writeJsonNew root p bytes) v
      (fun _ w => w = v.set p (some (.file bytes))) F := by
  unfold writeJsonNew
  simp only [Prog.bind_eq]
  exact Does.createNew_ok hm hc hp (Exec.pure rfl)

theorem syncParent_does (hm : ¬ Faulty may) (hc : C v) {F : ServerError → Books → Prop} :
    Does E uuids may C syncParent v (fun _ w => w = v) F := by
  unfold syncParent
  simp only [Prog.bind_eq]
  exact Does.sync hc (Exec.pure rfl) fun _ hi => absurd hi.faulty hm

/-- The order in which the files of the catalog change. -/
def Books.journaled (v : Books) (bytes : Bytes) : Books := v.set .operation (some (.file bytes))
def Books.prepared (v : Books) (bytes : Bytes) : Books :=
  (v.set .pending (some (.file bytes))).set .previous none
def Books.preserved (v : Books) (old : Bytes) : Books := v.move .serverState .previous (.file old)
def Books.committed (v : Books) (new : Bytes) : Books := v.move .pending .serverState (.file new)

theorem installPending_does (hm : ¬ Faulty may) (hc : C v)
    (hp : v.entry .pending = some (.file new)) (hs : v.entry .serverState = none)
    (hprev : v.entry .previous = some (.file old)) (hcommit : C (v.committed new))
    (create : Bool) {F : ServerError → Books → Prop} :
    Does E uuids may C (installPending root create) v
      (fun _ w => w = (v.committed new).set .previous none) F := by
  unfold installPending
  simp only [Prog.bind_eq]
  refine Does.rename_ok hm (by simp) hc hp (by rw [hs]; rfl) ?_
  refine Exec.attempt ((syncParent_does hm hcommit).mono (fun _ h => h) ?_
    fun _ _ (hf : False) => hf.elim)
  rintro _ _ rfl
  refine Exec.attempt ((removeIfExists_does hm hcommit ?_).mono (fun _ h => h) ?_
    fun _ _ (hf : False) => hf.elim)
  · intro n hn
    have hn : v.entry .previous = some n := by simpa [Books.committed] using hn
    exact ⟨old, Option.some.inj (hn.symm.trans hprev)⟩
  · rintro _ _ rfl
    exact Exec.pure rfl

theorem writeAtomic_does (hm : ¬ Faulty may) (hc : C v)
    (hpend : v.entry .pending = none)
    (hprev : ∀ n, v.entry .previous = some n → ∃ bytes, n = .file bytes)
    (hs : v.entry .serverState = some (.file old))
    (hpending : C (v.set .pending (some (.file (root.catalog.encode c)))))
    (hprepared : C (v.prepared (root.catalog.encode c)))
    (hpreserved : C ((v.prepared (root.catalog.encode c)).preserved old))
    (hcommit : C (((v.prepared (root.catalog.encode c)).preserved old).committed
      (root.catalog.encode c)))
    {F : ServerError → Books → Prop} :
    Does E uuids may C (writeAtomic root c false) v
      (fun _ w => w = (((v.prepared (root.catalog.encode c)).preserved old).committed
        (root.catalog.encode c)).set .previous none) F := by
  unfold writeAtomic
  simp only [Prog.bind_eq]
  refine Exec.seq (writeJsonNew_does hm hc hpend) ?_ fun _ _ hf => hf
  rintro _ _ rfl
  refine Exec.seq (removeIfExists_does hm hpending ?_) ?_ fun _ _ hf => hf
  · intro n hn
    exact hprev n (by simpa using hn)
  · rintro _ _ rfl
    refine Does.rename_ok hm (by simp) hprepared (by simpa using hs) (by simp; rfl) ?_
    have hkept : ((v.prepared (root.catalog.encode c)).preserved old).entry .previous =
        some (.file old) := by simp [Books.preserved]
    refine installPending_does hm hpreserved ?_ ?_ hkept hcommit false
    all_goals simp [Books.preserved, Books.prepared]

/-- A change of the catalog from rest, with what makes the new one load. -/
structure Change (root : DataDirectory) (after : Catalog) (journal : OperationJournal)
    (v : Books) : Prop where
  startable : Startable root v.memory.catalog v.entry
  resting : Resting root v.memory.catalog v.entry
  installed : v.installed = false
  valid : after.Valid
  orphans : ∀ i, i ∉ after.ids → (v.entry (.database i)).isSome = true → v.entry (orphan i) = none
  version : journal.operationVersion = OPERATION_VERSION
  left : journal.before = v.memory.catalog
  right : journal.after = after
  finishable : Finishable after v.entry journal

namespace Change

variable {w : Books} (h : Change root after journal v)
include h

theorem start : Switching root v.memory.catalog after v v := by
  refine ⟨?_, fun _ _ => rfl, rfl⟩
  rw [h.installed]
  exact h.startable

/-- Up to the commit, the old catalog is in place or preserved. -/
theorem uncommitted (hi : w.installed = false) (hissued : w.issued = v.issued)
    (outside : ∀ p : RootPath, p.Outside → w.entry p = v.entry p)
    (state : (Current root v.memory.catalog w.entry ∧ w.entry .previous = none) ∨
      (w.entry .serverState = none ∧
        w.entry .previous = some (.file (root.catalog.encode v.memory.catalog))))
    (pending : ∀ n, w.entry .pending = some n → ∃ bytes, n = .file bytes)
    (operation : w.entry .operation = some (.file (root.operation.encode journal))) :
    Switching root v.memory.catalog after v w := by
  refine ⟨?_, outside, hissued⟩
  rw [hi]
  refine startable_of h.startable.valid h.startable.orphans h.version (.inl h.left) outside
    (state.imp_left ?_) pending (.inr operation)
  rintro ⟨hcur, hprev⟩
  exact ⟨hcur, by simp [hprev]⟩

/-- From the commit on, the new one is. -/
theorem committed (outside : ∀ p : RootPath, p.Outside → w.entry p = v.entry p)
    (state : Current root after w.entry)
    (previous : ∀ n, w.entry .previous = some n → ∃ bytes, n = .file bytes)
    (pending : w.entry .pending = none)
    (operation : w.entry .operation = some (.file (root.operation.encode journal))) :
    Startable root after w.entry :=
  startable_of h.valid h.orphans h.version (.inr ⟨h.right, h.finishable⟩) outside
    (.inl ⟨state, previous⟩) (by simp [pending]) (.inr operation)

end Change

theorem transition_does {kind : OperationKind} {id : String} (hm : ¬ Faulty may)
    (h : Change root after ⟨OPERATION_VERSION, kind, id, v.memory.catalog, after⟩ v)
    {F : ServerError → Books → Prop} :
    Does E uuids may (Switching root v.memory.catalog after v) (transition root after kind id) v
      (fun _ w => Switched root after v w) F := by
  have hstate : v.entry .serverState = some (.file (root.catalog.encode v.memory.catalog)) :=
    h.resting.current
  have hprev := h.resting.previous
  have hpend := h.resting.pending
  have hnew := h.installed
  unfold transition
  simp only [Prog.bind_eq, validateCatalog_ok.mpr h.valid, Prog.ofExcept_ok, Prog.bind_pure]
  refine Does.readCatalog h.start ?_
  refine Exec.seq (writeJsonNew_does hm h.start h.resting.operation) ?_ fun _ _ hf => hf
  rintro _ _ rfl
  -- What each state of the replacement looks like from outside.
  have hout : ∀ p : RootPath, p.Outside → (v.set .operation (some (.file
      (root.operation.encode ⟨OPERATION_VERSION, kind, id, v.memory.catalog, after⟩)))).entry p =
        v.entry p := set_outside (by simp) fun _ _ => rfl
  refine Exec.attempt ((writeAtomic_does hm ?_ (by simpa using hpend) (by simp [hprev])
    (by simpa using hstate) ?_ ?_ ?_ ?_).mono (fun _ h => h) ?_ fun _ _ (hf : False) => hf.elim)
  · refine h.uncommitted hnew rfl hout (.inl ⟨?_, ?_⟩) ?_ ?_
    all_goals simp [Current, hstate, hprev, hpend]
  · refine h.uncommitted hnew rfl (set_outside (by simp) hout) (.inl ⟨?_, ?_⟩) ?_ ?_
    all_goals simp [Current, hstate, hprev]
  · refine h.uncommitted hnew rfl (set_outside (by simp) (set_outside (by simp) hout))
      (.inl ⟨?_, ?_⟩) ?_ ?_
    all_goals simp [Books.prepared, Current, hstate]
  · refine h.uncommitted ?_ rfl (move_outside (by simp) (by simp)
      (set_outside (by simp) (set_outside (by simp) hout))) (.inr ⟨?_, ?_⟩) ?_ ?_
    all_goals simp [Books.prepared, Books.preserved, DaemonOp.installs, hnew]
  · refine ⟨?_, move_outside (by simp) (by simp) (move_outside (by simp) (by simp)
      (set_outside (by simp) (set_outside (by simp) hout))), rfl⟩
    rw [show (Books.committed _ _).installed = true by simp [Books.committed, DaemonOp.installs]]
    refine h.committed (move_outside (by simp) (by simp) (move_outside (by simp) (by simp)
      (set_outside (by simp) (set_outside (by simp) hout)))) ?_ ?_ ?_ ?_
    all_goals simp [Books.prepared, Books.preserved, Books.committed, Current]
  · rintro _ w rfl
    generalize hw : Books.set (Books.committed _ _) _ _ = w
    have hwout : ∀ p : RootPath, p.Outside → w.entry p = v.entry p := by
      rw [← hw]
      exact set_outside (by simp) (move_outside (by simp) (by simp)
        (move_outside (by simp) (by simp) (set_outside (by simp) (set_outside (by simp) hout))))
    have hwcur : Current root after w.entry := by
      simp [← hw, Books.prepared, Books.preserved, Books.committed, Current]
    have hwprev : w.entry .previous = none := by simp [← hw]
    have hwpend : w.entry .pending = none := by simp [← hw, Books.committed]
    have hwop : w.entry .operation = some (.file (root.operation.encode
        ⟨OPERATION_VERSION, kind, id, v.memory.catalog, after⟩)) := by
      simp [← hw, Books.prepared, Books.preserved, Books.committed]
    have hwi : w.installed = true := by simp [← hw, Books.committed, DaemonOp.installs]
    have hwissued : w.issued = v.issued := by rw [← hw]; rfl
    have hwmem : w.memory = v.memory := by rw [← hw]; rfl
    have hstart : Startable root after w.entry :=
      h.committed hwout hwcur (by simp [hwprev]) hwpend hwop
    refine Does.inner rfl ⟨?_, hwout, hwissued⟩ fun _ => Exec.pure ?_
    · rw [hwi]
      exact hstart
    · exact ⟨hstart, hwcur, hwprev, hwpend, ⟨_, hwop⟩, hwout, hwi, by simp [hwmem], hwissued⟩

theorem finishTransition_does {w : Books} (hm : ¬ Faulty may) (h : Switched root after v w)
    (hc : C w) {F : ServerError → Books → Prop} :
    Does E uuids may C (finishTransition root) w
      (fun _ u => u = w.set .operation none) F := by
  refine removeIfExists_does hm hc ?_
  intro n hn
  obtain ⟨bytes, hb⟩ := h.operation
  exact ⟨bytes, Option.some.inj (hn.symm.trans hb)⟩

end

end NostdbServer
