import NostdbServer.Http.Imports

/-!
# Restarting after an interrupted import

`AppState::new` opens the Database at the configured path, or creates one if
there is nothing at the path. A snapshot import that is cut short is made good
by that unless it stopped between its two renames.
-/

namespace NostdbServer.Http

open Effects World

/-- What a started server serves. -/
inductive Served
  | opened (content : Bytes)
  | created
  deriving DecidableEq, Repr

def Served.content (E : Engine) : Served → Bytes
  | .opened content => content
  | .created => E.created

/-- `EmbeddedDatabase::open` or `create`. -/
def openOrCreate (E : Engine) (files : DbFile → Option Node) : Except ServerError Served :=
  match files target with
  | none => .ok .created
  | some .directory => .error ⟨IoError.isDirectory.message⟩
  | some (.file content) =>
    match E.accepts content with
    | .error error => .error ⟨error⟩
    | .ok () => .ok (.opened content)

/-- `AppState::new` with a configuration that passes validation, in a directory
that exists. -/
def newState (E : Engine) (files : DbFile → Option Node) : Except ServerError Served :=
  match openOrCreate E files with
  | .error error => .error error
  | .ok served =>
    match E.sourceEnabled (served.content E) with
    | .error error => .error ⟨error⟩
    | .ok true => .error ⟨"server mode refuses a database with a human-readable-source synchronization baseline; import an NDB-only snapshot"⟩
    | .ok false => .ok served

/-- A Database that server mode opens. -/
structure Acceptable (E : Engine) (content : Bytes) : Prop where
  opens : E.accepts content = .ok ()
  serverMode : E.sourceEnabled content = .ok false

/-- A snapshot that passes every check of an import, as `installed`. -/
structure Compatible (E : Engine) (body installed : Bytes) : Prop where
  opens : E.accepts body = .ok ()
  valid : E.check body = .ok true
  adopted : E.adopt body = .ok installed
  acceptable : Acceptable E installed

/-- Which of the two renames were done. -/
structure Moves where
  away : Bool
  placed : Bool
  deriving DecidableEq, Repr

namespace Moves

def none : Moves := ⟨false, false⟩

def note (m : Moves) (e : Event storage) : Moves :=
  match e with
  | ⟨.file (.rename .database .restoreBackup), .ok _⟩ => { m with away := true }
  | ⟨.file (.rename .restoreCandidate .database), .ok _⟩ => { m with placed := true }
  | _ => m

/-- The Database is moved away and the snapshot not yet in its place. -/
def between (m : Moves) : Bool := m.away && !m.placed

end Moves

/-- The renames of the run. -/
def movesOf (log : List (Event storage)) : Moves := log.foldl Moves.note .none

/-- Every step but the two renames. -/
def StorageOp.Stays : StorageOp → Prop
  | .file (.rename .database .restoreBackup) | .file (.rename .restoreCandidate .database) => False
  | _ => True

section
variable {E : Engine} {live installed body : Bytes} {m : Moves} {v : View}

theorem Moves.note_stays (m : Moves) (o : StorageOp) (answer : o.Ans) (h : StorageOp.Stays o) :
    m.note ⟨o, answer⟩ = m := by
  unfold Moves.note
  split
  · rename_i heq
    cases heq
    exact h.elim
  · rename_i heq
    cases heq
    exact h.elim
  · rfl

/-- What is at the path wherever an import is cut. -/
def Standing (live installed : Bytes) (m : Moves) (w : View) : Prop :=
  if m.between then w.database = none
  else w.database = some (.file live) ∨ w.database = some (.file installed)

theorem newState_file {files : DbFile → Option Node} (h : Acceptable E live)
    (hfile : files target = some (.file live)) : newState E files = .ok (.opened live) := by
  simp [newState, openOrCreate, hfile, h.opens, Served.content, h.serverMode]

theorem newState_missing {files : DbFile → Option Node} (hnone : files target = none)
    (content : Bytes) : newState E files ≠ .ok (.opened content) := by
  unfold newState openOrCreate
  rw [hnone]
  dsimp only
  split <;> nofun

theorem not_injected_ok : ¬ Injected (· = .ok) e := fun h => not_faulty_ok h.faulty

theorem stage_exec (hbody : Compatible E body installed) {C : View → Prop}
    (hC : ∀ candidate, C { View.serving live with candidate }) :
    Exec E (· = .ok) C (stage body) (.serving live)
      (fun _ w => w = { View.serving live with candidate := some (.file installed) })
      (fun _ w => ∃ candidate, w = { View.serving live with candidate }) := by
  unfold stage
  simp only [Prog.bind_eq]
  refine Exec.createNew trivial (hC _) ?_ (fun _ _ => Exec.fail ⟨_, rfl⟩) fun _ _ hm => nomatch hm
  intro _
  refine Exec.openDatabase trivial (hC _) (fun _ _ _ => ?_) fun _ _ => Exec.fail ⟨_, rfl⟩
  refine Exec.checkDatabase trivial (hC _) ?_ fun _ _ => Exec.fail ⟨_, rfl⟩
  rintro _ (_ | _) - -
  · exact Exec.fail ⟨_, rfl⟩
  refine Exec.adoptServerAuthority trivial (hC _) ?_ fun _ => Exec.fail ⟨_, rfl⟩
  intro b b' hb hadopt
  cases hb
  cases hbody.adopted.symm.trans hadopt
  refine Exec.checkpointDatabase (hC _) ?_
  rintro (error | _)
  · exact Exec.fail ⟨_, rfl⟩
  · exact Exec.pure rfl

/-- With the snapshot in its place, the rest only changes the slot and the backup. -/
theorem openInstalled_exec (hbody : Compatible E body installed) {C : View → Prop}
    (hC : ∀ slot backup, C ⟨some (.file installed), none, backup, none, slot, true⟩) :
    Exec E (· = .ok) C openInstalled
      ⟨some (.file installed), none, some (.file live), none, none, true⟩
      (fun _ w => w.database = some (.file installed))
      (fun _ w => w.database = some (.file installed)) := by
  unfold openInstalled
  simp only [Prog.bind_eq]
  refine Exec.openDatabase trivial (hC _ _) ?_ ?_
  · intro b hb _
    exact Exec.put (hC _ _) (Exec.remove trivial (hC _ _) (fun _ => Exec.pure rfl)
      (fun _ => Exec.fail rfl) fun _ _ _ => Exec.fail rfl)
  · rintro e (he | he)
    · exact absurd he not_injected_ok
    · cases (he installed rfl).symm.trans hbody.acceptable.opens

theorem reopenTarget_stays : reopenTarget.Only StorageOp.Stays := by
  refine Prog.Only.step trivial ?_
  rintro (error | database)
  · trivial
  · exact ⟨trivial, fun _ => trivial⟩

theorem openInstalled_stays : openInstalled.Only StorageOp.Stays := by
  refine Prog.Only.step trivial ?_
  rintro (error | database)
  · refine Prog.Only.step trivial fun _ => Prog.Only.step trivial fun _ => ?_
    exact reopenTarget_stays.bind fun _ => trivial
  · refine Prog.Only.step trivial fun _ => Prog.Only.step trivial ?_
    rintro (error | _) <;> trivial

theorem stage_stays : (stage body).Only StorageOp.Stays := by
  refine Prog.Only.step trivial ?_
  rintro ((error | error) | _)
  · trivial
  · trivial
  refine Prog.Only.step trivial ?_
  rintro (error | _)
  · trivial
  refine Prog.Only.step trivial ?_
  rintro (error | _ | _)
  · trivial
  · trivial
  refine Prog.Only.step trivial ?_
  rintro (error | _)
  · trivial
  refine Prog.Only.step trivial ?_
  rintro (error | _) <;> trivial

theorem removeTemporary_stays : removeTemporary.Only StorageOp.Stays := by
  refine Prog.Only.step trivial ?_
  rintro (_ | _)
  · trivial
  · exact Prog.Only.step trivial fun _ => trivial

abbrev Cuts (E : Engine) (C : Moves → View → Prop) (p : Prog storage ε α) (m : Moves) (v : View)
    (Q : α → Moves → View → Prop) (F : ε → Moves → View → Prop) : Prop :=
  (storageWorld E).Keeps Moves.note (fun _ c => c = .ok) Site.view C p m v Q F

section
variable {C : Moves → View → Prop} {Q : β → Moves → View → Prop} {F : ε → Moves → View → Prop}

theorem take_cuts {k : Option Database → Prog storage ε β} (hc : C m v)
    (h : Cuts E C (k v.slot) m { v with slot := none } Q F) :
    Cuts E C ((Prog.call (S := storage) .take).bind k) m v Q F := by
  refine Keeps.op (R := fun a w => a = v.slot ∧ w = { v with slot := none }) hc
    (Exec.take (k := .pure) trivial (Exec.pure ⟨rfl, rfl⟩)) ?_
  rintro _ _ ⟨rfl, rfl⟩
  exact h

theorem checkpoint_cuts {d : Database} {k : Except DatabaseError Unit → Prog storage ε β}
    (hc : C m v) (h : ∀ r, Cuts E C (k r) m v Q F) :
    Cuts E C ((Prog.call (S := storage) (.checkpoint d)).bind k) m v Q F := by
  refine Keeps.op (R := fun _ w => w = v) hc
    (Exec.checkpoint (k := .pure) trivial fun _ => Exec.pure rfl) ?_
  rintro r _ rfl
  exact h r

theorem unlock_cuts {k : Unit → Prog storage ε β} (hc : C m v)
    (h : Cuts E C (k ()) m { v with locked := false } Q F) :
    Cuts E C ((Prog.call (S := storage) .unlock).bind k) m v Q F := by
  refine Keeps.op (R := fun _ w => w = { v with locked := false }) hc
    (Exec.unlock (k := .pure) trivial (Exec.pure rfl)) ?_
  rintro _ _ rfl
  exact h

theorem rename_cuts {f g : DbFile} {n : Node} {k : Except IoError Unit → Prog storage ε β}
    (hf : f.Core) (hg : g.Core) (hne : f ≠ g) (hc : C m v) (hsource : v.get f = some n)
    (htarget : v.get g = none)
    (h : Cuts E C (k (.ok ())) (m.note ⟨.file (.rename f g), .ok ()⟩)
      ((v.set f none).set g (some n)) Q F) :
    Cuts E C ((StorageOp.rename f g).bind k) m v Q F := by
  refine Keeps.op (R := fun a w => a = .ok () ∧ w = (v.set f none).set g (some n)) hc
    (Exec.rename (k := .pure) hf hg hne trivial ?_ ?_) ?_
  · intro n' hn
    cases hsource.symm.trans hn
    exact Exec.pure ⟨rfl, rfl⟩
  · rintro e (he | he)
    · exact absurd he not_injected_ok
    · have := he n hsource
      rw [htarget] at this
      cases this
  · rintro _ _ ⟨rfl, rfl⟩
    exact h

end

theorem replace_cuts (hbody : Compatible E body installed) :
    Cuts E (Standing live installed) replace .none
      ⟨some (.file live), some (.file installed), none, none, some ⟨live⟩, true⟩
      (fun _ => Standing live installed) (fun _ => Standing live installed) := by
  unfold replace
  simp only [Prog.bind_eq]
  refine take_cuts (.inl rfl) (checkpoint_cuts (.inl rfl) ?_)
  rintro (error | _)
  · exact Keeps.fail (.inl rfl)
  refine rename_cuts trivial trivial (by simp) (.inl rfl) rfl rfl ?_
  refine rename_cuts trivial trivial (by simp) rfl rfl rfl ?_
  have hopened : ∀ w : View, w.database = some (.file installed) →
      Standing live installed ⟨true, true⟩ w := fun w hw => .inr hw
  refine Keeps.mono (Keeps.quiet (P := StorageOp.Stays) (Moves.note_stays _) openInstalled_stays
    (openInstalled_exec hbody fun slot backup => hopened _ rfl)) ?_ ?_
  · rintro _ _ w ⟨rfl, hw⟩
    exact hopened w hw
  · rintro _ _ w ⟨rfl, hw⟩
    exact hopened w hw

theorem Standing.congr {w : View} (h : Standing live installed m v)
    (hw : w.database = v.database) : Standing live installed m w := by
  unfold Standing
  rw [hw]
  exact h

/-- The end of every import: the path is left alone. -/
theorem removeTemporary_cuts (h : Standing live installed m v) :
    Cuts E (Standing live installed) removeTemporary m v (fun _ => Standing live installed)
      (fun _ => Standing live installed) := by
  have hexec : Exec E (· = .ok) (Standing live installed m) removeTemporary v
      (fun _ => Standing live installed m) (fun _ => Standing live installed m) := by
    unfold removeTemporary
    simp only [Prog.bind_eq]
    refine Exec.pathExists trivial h ?_
    split
    · exact Exec.remove trivial h (fun _ => Exec.pure (h.congr rfl)) (fun _ => Exec.pure h)
        fun _ _ _ => Exec.pure h
    · exact Exec.pure h
  refine Keeps.mono (Keeps.quiet (Moves.note_stays m) removeTemporary_stays hexec) ?_ ?_
  · rintro _ _ _ ⟨rfl, h⟩
    exact h
  · rintro _ _ _ ⟨rfl, h⟩
    exact h

theorem restoreSnapshot_cuts (hbody : Compatible E body installed) :
    Cuts E (Standing live installed) (restoreSnapshot body) .none (.serving live)
      (fun _ => Standing live installed) (fun _ => Standing live installed) := by
  have hend : ∀ (result : Except ApiError Unit) {m w}, Standing live installed m w →
      Cuts E (Standing live installed) (removeTemporary.bind fun _ => Prog.ofExcept result) m w
        (fun _ => Standing live installed) (fun _ => Standing live installed) := by
    intro result m w h
    refine Keeps.seq (removeTemporary_cuts h) (fun _ m w h => ?_) fun _ _ _ h => h
    cases result with
    | error e => exact Keeps.fail h
    | ok a => exact Keeps.pure h
  have hstaged : ∀ candidate, Standing live installed .none
      { View.serving live with candidate } := fun _ => .inl rfl
  unfold restoreSnapshot
  simp only [Prog.bind_eq]
  refine Keeps.attempt (Keeps.seq (Keeps.quiet (Moves.note_stays _) stage_stays
    (stage_exec hbody hstaged)) ?_ ?_)
  · rintro _ _ _ ⟨rfl, rfl⟩
    unfold withGuard
    simp only [Prog.bind_eq]
    refine Keeps.op (R := fun _ w => w = _) (hstaged _)
      (Exec.lock (k := .pure) trivial fun _ => Exec.pure rfl) ?_
    rintro _ _ rfl
    refine Keeps.attempt (Keeps.mono (replace_cuts hbody) ?_ ?_)
    · intro a m w h
      exact unlock_cuts h (Keeps.pure (hend _ (h.congr rfl)))
    · intro e m w h
      exact unlock_cuts h (Keeps.fail (hend _ (h.congr rfl)))
  · rintro e _ _ ⟨rfl, candidate, rfl⟩
    exact hend _ (hstaged candidate)

variable (E) in
/-- Wherever an import of a compatible snapshot is cut between two steps, the
next start serves the Database that was live or the snapshot exactly if the cut
is not between the two renames. -/
theorem interrupted_import_is_served_iff {s : Site} (hs : s.view = .serving live)
    (hlive : Acceptable E live) (hbody : Compatible E body installed) (n : Nat) :
    let cs := List.replicate n Outcome.ok
    let files := ((storageWorld E).run cs (restoreSnapshot body) s).2.files
    (newState E files = .ok (.opened live) ∨ newState E files = .ok (.opened installed)) ↔
      (movesOf ((storageWorld E).trace cs (restoreSnapshot body) s)).between = false := by
  have h := (restoreSnapshot_cuts hbody).cut (fun _ _ _ h => h) (fun _ _ _ h => h) hs
    (List.replicate n .ok) fun _ c hc => List.eq_of_mem_replicate hc
  dsimp only
  change Standing live installed (movesOf _) _ at h
  unfold Standing at h
  split at h
  · rename_i hbetween
    rw [hbetween]
    refine iff_of_false ?_ nofun
    have hfiles := newState_missing (E := E) h
    rintro (h | h)
    · exact hfiles live h
    · exact hfiles installed h
  · rename_i hbetween
    refine iff_of_true ?_ (Bool.not_eq_true _ ▸ hbetween)
    rcases h with h | h
    · exact .inl (newState_file hlive h)
    · exact .inr (newState_file hbody.acceptable h)

end

/-- The server stops right before the live Database is moved away. -/
theorem interrupted_import_is_served_before_renames :
    let files := ((storageWorld .plain).run (List.replicate 8 .ok) (restoreSnapshot [1])
      (.resting [7])).2.files
    newState .plain files = .ok (.opened [7]) ∨ newState .plain files = .ok (.opened [1]) :=
  (interrupted_import_is_served_iff .plain (s := .resting [7]) rfl ⟨rfl, rfl⟩
    ⟨rfl, rfl, rfl, rfl, rfl⟩ 8).mpr (by decide +kernel)

/-- The server stops between the two renames: the next start finds nothing at the
path and serves a new, empty Database. -/
theorem interrupted_import_serves_new_database :
    let run := (storageWorld .plain).run (List.replicate 9 .ok) (restoreSnapshot [1])
      (.resting [7])
    newState .plain run.2.files = .ok .created ∧ run.2.files backup = some (.file [7]) ∧
      run.2.files temporary = some (.file [1]) := by
  decide +kernel

end NostdbServer.Http
