import NostdbServer.Catalog.Compensation

/-!
# The catalog on disk over many transitions

`StoreRun` is a sequence of calls of the catalog store in which every step may
fail. What a transition does to the two files that may hold the committed
catalog is followed with an account of one event: the rename that puts
`server-state.previous` back has failed.
-/

namespace NostdbServer

open Effects World

/-- The file at `p` is the catalog `c`. -/
def CatalogAt (root : DataDirectory) (entry : RootPath → Option Entry) (p : RootPath) (c : Catalog) :
    Prop :=
  ∃ bytes, entry p = some (.file bytes) ∧ root.catalog.decode bytes = .ok c

theorem CatalogAt.congr {entry entry' : RootPath → Option Entry} (h : CatalogAt root entry p c)
    (he : entry' q = entry p) : CatalogAt root entry' q c := by
  obtain ⟨bytes, hp, hc⟩ := h
  exact ⟨bytes, he.trans hp, hc⟩

theorem catalogAt_encode {entry : RootPath → Option Entry}
    (h : entry p = some (.file (root.catalog.encode c))) : CatalogAt root entry p c :=
  ⟨_, h, root.catalog.decode_encode c⟩

-- ---------------------------------------------------------------------------
-- Calls of the store
-- ---------------------------------------------------------------------------

inductive StoreCall
  | transition (next : Catalog) (kind : OperationKind) (databaseId : String)
  | finishTransition

namespace StoreCall

def prog (root : DataDirectory) : StoreCall → Prog daemon ServerError Unit
  | .transition next kind databaseId => NostdbServer.transition root next kind databaseId
  | .finishTransition => NostdbServer.finishTransition root

/-- The last committed catalog after the call, which was `c` before it. -/
def committed (c : Catalog) : StoreCall → Except ServerError Unit → Catalog
  | .transition next _ _, .ok () => next
  | _, _ => c

end StoreCall

/-- The data directory and the last committed catalog after calls of the store
of which each met `ok`. -/
inductive StoreRun (E : Engine) (uuids : Nat → String) (root : DataDirectory)
    (ok : Catalog → StoreCall → Daemon → List (Event daemon) → Prop) (d₀ : Daemon) (c₀ : Catalog) :
    Daemon → Catalog → Prop
  | start : StoreRun E uuids root ok d₀ c₀ d₀ c₀
  | call {d : Daemon} {c : Catalog} {r : Except ServerError Unit} (call : StoreCall)
      (cs : List Outcome) (before : StoreRun E uuids root ok d₀ c₀ d c)
      (meets : ok c call d ((daemonWorld E uuids).trace cs (call.prog root) d))
      (ends : ((daemonWorld E uuids).run cs (call.prog root) d).1.result? = some r) :
      StoreRun E uuids root ok d₀ c₀ ((daemonWorld E uuids).run cs (call.prog root) d).2
        (call.committed c r)

-- ---------------------------------------------------------------------------
-- The account of failed rollbacks
-- ---------------------------------------------------------------------------

def DaemonOp.restores : DaemonOp → Bool
  | .root (.rename .previous .serverState) => true
  | _ => false

/-- The saved catalog was to be put back, and was not. -/
def rollbackFailed (e : Event daemon) : Bool := DaemonOp.restores e.op && DaemonOp.fails e

abbrev DoesRolling (E : Engine) (uuids : Nat → String) (p : Prog daemon ε α) (lost : Bool)
    (v : Books) (Q : α → Bool → Books → Prop) (F : ε → Bool → Books → Prop) : Prop :=
  (daemonWorld E uuids).logged.Notes (fun lost e => rollbackFailed e || lost) books p lost v Q F

theorem foldl_rollbackFailed (log : List (Event daemon)) (lost : Bool) :
    log.foldl (fun lost e => rollbackFailed e || lost) lost = (log.any rollbackFailed || lost) := by
  induction log generalizing lost with
  | nil => rfl
  | cons e log ih => rw [List.foldl_cons, ih, List.any_cons, Bool.or_left_comm, Bool.or_assoc]

theorem DoesRolling.outcome {p : Prog daemon ε α} {d : Daemon} {cs : List Outcome}
    {Q : α → Bool → Books → Prop} {F : ε → Bool → Books → Prop}
    (h : DoesRolling E uuids p false (.of d false) Q F)
    (hr : ((daemonWorld E uuids).run cs p d).1.result? = some r) :
    ∃ installed,
      Setting.Post (fun a => Q a (((daemonWorld E uuids).trace cs p d).any rollbackFailed))
        (fun e => F e (((daemonWorld E uuids).trace cs p d).any rollbackFailed)) r
        (.of ((daemonWorld E uuids).run cs p d).2 installed) := by
  obtain ⟨hprog, hstate⟩ := (daemonWorld E uuids).run_logged cs p d []
  have hr' : ((daemonWorld E uuids).logged.run cs p (d, [])).1.result? = some r := by rwa [hprog]
  have := Notes.outcome (s := (d, [])) h rfl hr'
  rw [trace_logged, foldl_rollbackFailed, Bool.or_false, books, hstate] at this
  exact ⟨_, this⟩

section
variable {E : Engine} {uuids : Nat → String} {root : DataDirectory} {lost : Bool} {v : Books}
  {c next : Catalog}

namespace DoesRolling

section
variable {Q : β → Bool → Books → Prop} {F : ε → Bool → Books → Prop}

theorem entered {p : Prog daemon ε β} {o : DaemonOp} {ans : daemon.Ans o}
    (ho : o.restores = false) (h : DoesRolling E uuids p lost v Q F) :
    DoesRolling E uuids p (rollbackFailed ⟨o, ans⟩ || lost) v Q F := by
  simpa only [rollbackFailed, ho, Bool.false_and, Bool.false_or] using h

theorem remove {p : RootPath} {k : Except IoError Unit → Prog daemon ε β}
    (hok : DoesRolling E uuids (k (.ok ())) lost (v.set p none) Q F)
    (hfail : ∀ e, DoesRolling E uuids (k (.error e)) lost v Q F) :
    DoesRolling E uuids ((DaemonOp.remove p).bind k) lost v Q F :=
  Does.remove trivial (fun _ _ => hok) (fun _ => hfail _) fun e _ _ => hfail e

theorem rename {p q : RootPath} {k : Except IoError Unit → Prog daemon ε β} (hne : p ≠ q)
    (hp : DaemonOp.restores (.root (.rename p q)) = false)
    (hok : ∀ n, v.entry p = some n → DoesRolling E uuids (k (.ok ())) lost (v.move p q n) Q F)
    (hfail : ∀ e b, DoesRolling E uuids (k (.error e)) lost { v with installed := b } Q F) :
    DoesRolling E uuids ((DaemonOp.rename p q).bind k) lost v Q F :=
  Does.rename hne trivial (fun n hn _ => entered hp (hok n hn))
    fun e b _ _ => entered hp (hfail e b)

theorem sync {k : Except IoError Unit → Prog daemon ε β}
    (h : ∀ r, DoesRolling E uuids (k r) lost v Q F) :
    DoesRolling E uuids (DaemonOp.sync.bind k) lost v Q F :=
  Does.sync trivial (h _) fun _ _ => h _

theorem createNew {p : RootPath} {bytes : Bytes} {k : Except CreateError Unit → Prog daemon ε β}
    (hok : DoesRolling E uuids (k (.ok ())) lost (v.set p (some (.file bytes))) Q F)
    (hopening : ∀ e, DoesRolling E uuids (k (.error (.opening e))) lost v Q F)
    (htorn : ∀ e n, DoesRolling E uuids (k (.error (.writing e))) lost (v.set p n) Q F) :
    DoesRolling E uuids ((DaemonOp.createNew p bytes).bind k) lost v Q F :=
  Does.createNew trivial (fun _ => hok) (fun e _ => hopening e) fun _ _ _ _ => htorn _ _

theorem readCatalog {k : Catalog → Prog daemon ε β}
    (h : DoesRolling E uuids (k v.memory.catalog) lost v Q F) :
    DoesRolling E uuids ((Prog.call (S := daemon) .readCatalog).bind k) lost v Q F :=
  Does.readCatalog trivial h

end

end DoesRolling

-- ---------------------------------------------------------------------------
-- The helpers
-- ---------------------------------------------------------------------------

/-- Every entry but `p` is as before. -/
def Books.SameBut (v w : Books) (p : RootPath) : Prop := ∀ q, q ≠ p → w.entry q = v.entry q

theorem Books.sameBut_set (v : Books) (p : RootPath) (n : Option Entry) :
    v.SameBut (v.set p n) p := by
  intro q hq
  simp [hq]

theorem removeIfExists_rolling :
    DoesRolling E uuids (removeIfExists root p) lost v
      (fun _ lost' w => lost' = lost ∧ v.SameBut w p)
      (fun _ lost' w => lost' = lost ∧ v.SameBut w p) := by
  unfold removeIfExists
  simp only [Prog.bind_eq]
  refine DoesRolling.remove ?_ ?_
  · exact Notes.pure ⟨rfl, v.sameBut_set p none⟩
  · intro e
    dsimp only
    split
    · exact Notes.pure ⟨rfl, fun _ _ => rfl⟩
    · exact Notes.fail ⟨rfl, fun _ _ => rfl⟩

theorem writeJsonNew_rolling {bytes : Bytes} :
    DoesRolling E uuids (writeJsonNew root p bytes) lost v
      (fun _ lost' w => lost' = lost ∧ w.entry p = some (.file bytes) ∧ v.SameBut w p)
      (fun _ lost' w => lost' = lost ∧ v.SameBut w p) := by
  unfold writeJsonNew
  simp only [Prog.bind_eq]
  refine DoesRolling.createNew ?_ ?_ ?_
  · exact Notes.pure ⟨rfl, by simp, v.sameBut_set p _⟩
  · intro e
    exact Notes.fail ⟨rfl, fun _ _ => rfl⟩
  · intro e n
    refine DoesRolling.remove ?_ ?_
    · refine Notes.fail ⟨rfl, fun q hq => ?_⟩
      simp [hq]
    · intro cleanup
      dsimp only
      split <;> exact Notes.fail ⟨rfl, v.sameBut_set p n⟩

/-- Where the catalog is after a transition that failed. -/
def Books.Retained (root : DataDirectory) (c : Catalog) (lost : Bool) (v : Books) : Prop :=
  CatalogAt root v.entry .serverState c ∨ lost = true ∧ CatalogAt root v.entry .previous c

/-- The saved catalog is put back, or the account says that it was not. -/
theorem DoesRolling.restore {k : Except IoError Unit → Prog daemon ε β}
    {Q : β → Bool → Books → Prop} {F : ε → Bool → Books → Prop}
    (hc : CatalogAt root v.entry .previous c)
    (h : ∀ r lost w, w.Retained root c lost → DoesRolling E uuids (k r) lost w Q F) :
    DoesRolling E uuids ((DaemonOp.rename .previous .serverState).bind k) lost v Q F := by
  refine Does.rename (by decide) trivial ?_ ?_
  · intro n hn _
    exact h _ _ _ (.inl (hc.congr (by simp [Books.move, hn])))
  · intro e b _ _
    exact h _ _ _ (.inr ⟨rfl, hc⟩)

theorem syncParent_rolling :
    DoesRolling E uuids syncParent lost v (fun _ lost' w => lost' = lost ∧ w = v)
      (fun _ lost' w => lost' = lost ∧ w = v) := by
  unfold syncParent
  simp only [Prog.bind_eq]
  refine DoesRolling.sync ?_
  rintro (_ | _)
  · exact Notes.fail ⟨rfl, rfl⟩
  · exact Notes.pure ⟨rfl, rfl⟩

theorem installPending_rolling (hc : CatalogAt root v.entry .previous c)
    (hnext : v.entry .pending = some (.file (root.catalog.encode next))) :
    DoesRolling E uuids (installPending root false) lost v
      (fun _ _ w => CatalogAt root w.entry .serverState next)
      (fun _ lost' w => w.Retained root c lost') := by
  unfold installPending
  simp only [Prog.bind_eq]
  refine DoesRolling.rename (by decide) rfl ?_ ?_
  · intro n hn
    have hc : CatalogAt root (v.move .pending .serverState n).entry .previous c :=
      hc.congr (by simp [Books.move])
    have hnext : (v.move .pending .serverState n).entry .serverState =
        some (.file (root.catalog.encode next)) := by
      rw [← hnext, hn]
      simp [Books.move]
    refine Notes.attempt (syncParent_rolling.mono ?_ ?_)
    · rintro _ _ _ ⟨rfl, rfl⟩
      refine Notes.attempt (removeIfExists_rolling.mono ?_ ?_)
      all_goals
        rintro _ _ _ ⟨-, hsame⟩
        exact Notes.pure (catalogAt_encode ((hsame _ (by decide)).trans hnext))
    · rintro _ _ _ ⟨rfl, rfl⟩
      refine DoesRolling.remove ?_ fun _ => ?_
      · refine DoesRolling.restore (hc.congr (by simp)) ?_
        intro _ _ _ hkept
        exact DoesRolling.sync fun _ => Notes.fail hkept
      · refine DoesRolling.restore hc ?_
        intro _ _ _ hkept
        exact DoesRolling.sync fun _ => Notes.fail hkept
  · intro e b
    refine DoesRolling.remove ?_ fun _ => ?_
    · refine DoesRolling.restore (hc.congr (by simp)) ?_
      intro _ _ _ hkept
      exact Notes.fail hkept
    · refine DoesRolling.restore hc ?_
      intro _ _ _ hkept
      exact Notes.fail hkept

theorem writeAtomic_rolling (hc : CatalogAt root v.entry .serverState c) :
    DoesRolling E uuids (writeAtomic root next false) lost v
      (fun _ _ w => CatalogAt root w.entry .serverState next)
      (fun _ lost' w => w.Retained root c lost') := by
  refine Notes.seq writeJsonNew_rolling ?_ ?_
  · rintro _ _ w ⟨rfl, hpending, hsame⟩
    have hc := hc.congr (hsame .serverState (by decide))
    refine Notes.seq removeIfExists_rolling ?_ ?_
    · rintro _ _ u ⟨rfl, hsame⟩
      have hc := hc.congr (hsame .serverState (by decide))
      have hpending := (hsame .pending (by decide)).trans hpending
      refine DoesRolling.rename (by decide) rfl ?_ ?_
      · intro n hn
        refine installPending_rolling (hc.congr ?_) ?_
        · simp [Books.move, hn]
        · simp [Books.move, hpending]
      · intro e b
        exact Notes.fail (.inl hc)
    · rintro _ _ u ⟨-, hsame⟩
      exact .inl (hc.congr (hsame _ (by decide)))
  · rintro _ _ w ⟨-, hsame⟩
    exact .inl (hc.congr (hsame _ (by decide)))

theorem transition_rolling {id : String} (hc : CatalogAt root v.entry .serverState c) :
    DoesRolling E uuids (transition root next kind id) lost v
      (fun _ _ w => CatalogAt root w.entry .serverState next)
      (fun _ lost' w => w.Retained root c lost') := by
  unfold transition
  simp only [Prog.bind_eq]
  cases validateCatalog next with
  | error e => exact Notes.fail (.inl hc)
  | ok _ =>
    simp only [Prog.ofExcept_ok, Prog.bind_pure]
    refine DoesRolling.readCatalog (Notes.seq writeJsonNew_rolling ?_ ?_)
    · rintro _ _ w ⟨rfl, -, hsame⟩
      have hc := hc.congr (hsame .serverState (by decide))
      refine Notes.attempt ((writeAtomic_rolling hc).mono ?_ ?_)
      · intro _ _ _ hnext
        exact Does.inner rfl trivial fun _ => Exec.pure hnext
      · intro _ _ u hkept
        refine DoesRolling.remove (Notes.fail ?_) fun _ => Notes.fail hkept
        exact hkept.imp (fun h => h.congr (by simp)) fun h => ⟨h.1, h.2.congr (by simp)⟩
    · rintro _ _ w ⟨-, hsame⟩
      exact .inl (hc.congr (hsame _ (by decide)))

end

-- ---------------------------------------------------------------------------
-- Whole runs
-- ---------------------------------------------------------------------------

/-- A transition starts with the committed catalog in place. -/
def StartsInPlace (root : DataDirectory) (c : Catalog) (call : StoreCall) (d : Daemon)
    (_ : List (Event daemon)) : Prop :=
  call = .finishTransition ∨ CatalogAt root d.entry .serverState c

/-- The saved catalog was put back wherever it had to be. -/
def RolledBack (_ : Catalog) (_ : StoreCall) (_ : Daemon) (log : List (Event daemon)) : Prop :=
  log.any rollbackFailed = false

section
variable {E : Engine} {uuids : Nat → String} {root : DataDirectory} {c : Catalog} {d : Daemon}
  {cs : List Outcome} {r : Except ServerError Unit}

theorem finishTransition_catalogAt {p : RootPath} (hp : p ≠ .operation)
    (hc : CatalogAt root d.entry p c)
    (hr : ((daemonWorld E uuids).run cs (finishTransition root) d).1.result? = some r) :
    CatalogAt root ((daemonWorld E uuids).run cs (finishTransition root) d).2.entry p c := by
  obtain ⟨_, hpost⟩ := DoesRolling.outcome removeIfExists_rolling hr
  cases r <;> exact hc.congr (hpost.2 _ hp)

theorem StoreCall.step_inPlace {call : StoreCall} (hc : CatalogAt root d.entry .serverState c)
    (hr : ((daemonWorld E uuids).run cs (call.prog root) d).1.result? = some r) :
    CatalogAt root ((daemonWorld E uuids).run cs (call.prog root) d).2.entry .serverState
        (call.committed c r) ∨
      ((daemonWorld E uuids).trace cs (call.prog root) d).any rollbackFailed = true ∧
        CatalogAt root ((daemonWorld E uuids).run cs (call.prog root) d).2.entry .previous
          (call.committed c r) := by
  cases call with
  | transition next kind id =>
    obtain ⟨_, hpost⟩ := DoesRolling.outcome (transition_rolling hc) hr
    cases r with
    | ok _ => exact .inl hpost
    | error e => exact hpost
  | finishTransition =>
    exact .inl (finishTransition_catalogAt (by decide) hc hr)

end

end NostdbServer
