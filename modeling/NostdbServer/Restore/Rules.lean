import NostdbServer.Effects.Exec
import NostdbServer.Restore.Recovery

/-!
# Rules for the storage steps

`View` is a Site without its sidecars: the four files restore and recovery
decide by, the handle and its mutex. `Exec` is the weakest precondition over
views; there is one rule per step, and sidecar steps leave the view alone.
-/

namespace NostdbServer

open Effects World

structure View where
  database : Option Node
  candidate : Option Node
  backup : Option Node
  operation : Option Node
  slot : Option Database
  locked : Bool
  deriving DecidableEq, Repr

namespace View

def get (v : View) : DbFile → Option Node
  | .database => v.database
  | .restoreCandidate => v.candidate
  | .restoreBackup => v.backup
  | .restoreOperation => v.operation
  | .sidecar _ => none

def set (v : View) : DbFile → Option Node → View
  | .database, n => { v with database := n }
  | .restoreCandidate, n => { v with candidate := n }
  | .restoreBackup, n => { v with backup := n }
  | .restoreOperation, n => { v with operation := n }
  | .sidecar _, _ => v

end View

/-- A Database that is open on `live`, with nothing of a restore beside it. -/
def View.serving (live : Bytes) : View := ⟨some (.file live), none, none, none, some ⟨live⟩, false⟩

def DbFile.Core : DbFile → Prop
  | .sidecar _ => False
  | _ => True

def Site.view (s : Site) : View :=
  ⟨s.files .database, s.files .restoreCandidate, s.files .restoreBackup,
    s.files .restoreOperation, s.slot, s.locked⟩

theorem Site.view_get (s : Site) (hf : f.Core) : s.view.get f = s.files f := by
  cases f <;> first | rfl | exact hf.elim

@[simp] theorem Site.view_setFile (s : Site) (f : DbFile) (n : Option Node) :
    (s.setFile f n).view = s.view.set f n := by
  cases f <;> simp [Site.view, Site.setFile, View.set]

@[simp] theorem Site.view_slot (s : Site) : s.view.slot = s.slot := rfl
@[simp] theorem Site.view_locked (s : Site) : s.view.locked = s.locked := rfl

theorem Site.view_leaveLockFile (E : Engine) (f : DbFile) (s : Site) :
    (s.leaveLockFile E f).view = s.view := by
  unfold Site.leaveLockFile
  split
  · rfl
  · simp [View.set]

/-- Operations on a handle that leave the files of its Database alone. -/
def StorageOp.Still : StorageOp → Prop
  | .lock | .unlock | .take | .put _ | .checkpoint _ | .peek => True
  | _ => False

theorem StorageOp.Still.files {E : Engine} {o : StorageOp} {ans : o.Ans} {s t : Site} (ho : o.Still)
    (h : Site.step E o oc s = some (ans, t)) : t.files = s.files := by
  cases o with
  | lock =>
    change (if s.locked then none else some ((), { s with locked := true })) = some (ans, t) at h
    split at h <;> cases h
    rfl
  | checkpoint database =>
    simp only [Site.step] at h
    split at h <;> cases h <;> rfl
  | unlock | take | put _ | peek => cases h; rfl
  | _ => exact ho.elim

/-- Storage used by one party at a time, with the outcomes `may` allows. -/
def storageSetting (E : Engine) (may : Outcome → Prop) : Setting storage Outcome Site :=
  (storageWorld E).alone fun _ c => may c

abbrev Exec (E : Engine) (may : Outcome → Prop) (C : View → Prop) (p : Prog storage ε α)
    (v : View) (Q : α → View → Prop) (F : ε → View → Prop) : Prop :=
  (storageWorld E).Exec (fun _ c => may c) Site.view C p v Q F

/-- An error the disk reports by itself. -/
def Injected (may : Outcome → Prop) (message : String) : Prop :=
  ∃ c, may c ∧ (c.error?).map IoError.message = some message

theorem injected_of_error? (hm : may c) (h : c.error? = some e) : Injected may e.message :=
  ⟨c, hm, by simp [h]⟩

theorem kind_of_error? {c : Outcome} (h : c.error? = some e) : e.isNotFound = false := by
  cases c with
  | ok => simp [Outcome.error?] at h
  | fail m => simp only [Outcome.error?, Option.some.injEq] at h; subst h; rfl
  | torn n m => simp only [Outcome.error?, Option.some.injEq] at h; subst h; rfl

namespace Exec

variable {E : Engine} {may : Outcome → Prop} {C : View → Prop} {v : View}

variable {Q : β → View → Prop} {F : ε → View → Prop}

-- ---------------------------------------------------------------------------
-- File steps
-- ---------------------------------------------------------------------------

theorem pathExists {f : DbFile} {k : Bool → Prog storage ε β} (hf : f.Core) (hc : C v)
    (h : Exec E may C (k (v.get f).isSome) v Q F) :
    Exec E may C ((StorageOp.pathExists f).bind k) v Q F := by
  refine Exec.op hc ?_
  rintro s rfl c - ans t hs
  cases Option.some.inj hs
  rw [Site.view_get s hf] at h
  exact h

theorem read {f : DbFile} {k : Except IoError Bytes → Prog storage ε β} (hf : f.Core) (hc : C v)
    (hok : ∀ b, v.get f = some (.file b) → Exec E may C (k (.ok b)) v Q F)
    (hfail : ∀ e, (Injected may e.message ∨ v.get f = none ∨ v.get f = some .directory) →
      Exec E may C (k (.error e)) v Q F) :
    Exec E may C ((StorageOp.read f).bind k) v Q F := by
  refine Exec.op hc ?_
  rintro s rfl c hm ans t hs
  rw [Site.view_get s hf] at hok hfail
  obtain ⟨rfl, ⟨e, he, rfl⟩ | ⟨-, hn, rfl⟩ | ⟨-, n, hn, hb, rfl⟩ | ⟨-, n, b, hn, hb, rfl⟩⟩ :=
    Volume.read_cases (Option.some.inj hs)
  · exact hfail e (.inl (injected_of_error? hm he))
  · exact hfail _ (.inr (.inl hn))
  · cases n with
    | file b => cases hb
    | directory => exact hfail _ (.inr (.inr hn))
  · cases n with
    | file b' => cases hb; exact hok b hn
    | directory => cases hb

theorem remove {f : DbFile} {k : Except IoError Unit → Prog storage ε β} (hf : f.Core) (hc : C v)
    (hok : (v.get f).isSome → Exec E may C (k (.ok ())) (v.set f none) Q F)
    (habsent : v.get f = none → Exec E may C (k (.error .notFound)) v Q F)
    (hfail : ∀ e, e.isNotFound = false → (Injected may e.message ∨ v.get f = some .directory) →
      Exec E may C (k (.error e)) v Q F) :
    Exec E may C ((StorageOp.remove f).bind k) v Q F := by
  refine Exec.op hc ?_
  rintro s rfl c hm ans t hs
  rw [Site.view_get s hf] at hok habsent hfail
  obtain ⟨e, rfl, rfl, he | ⟨-, ⟨hn, rfl⟩ | ⟨n, hn, hb, rfl⟩⟩⟩ | ⟨-, ⟨n, b, hn, -⟩, rfl, rfl⟩ :=
    Volume.remove_cases (Option.some.inj hs)
  · exact hfail e (kind_of_error? he) (.inl (injected_of_error? hm he))
  · exact habsent hn
  · cases n with
    | file b => cases hb
    | directory => exact hfail _ rfl (.inr hn)
  · rw [siteFiles_get] at hn
    rw [← Site.view_setFile] at hok
    exact hok (by simp [hn])

theorem rename {f g : DbFile} {k : Except IoError Unit → Prog storage ε β} (hf : f.Core)
    (hg : g.Core) (hne : f ≠ g) (hc : C v)
    (hok : ∀ n, v.get f = some n → Exec E may C (k (.ok ())) ((v.set f none).set g (some n)) Q F)
    (hfail : ∀ e, (Injected may e.message ∨
      ∀ n, v.get f = some n → Volume.replaceable n (v.get g) = false) →
      Exec E may C (k (.error e)) v Q F) :
    Exec E may C ((StorageOp.rename f g).bind k) v Q F := by
  refine Exec.op hc ?_
  rintro s rfl c hm ans t hs
  simp only [Site.view_get s hf, Site.view_get s hg] at hok hfail
  obtain ⟨e, rfl, rfl, he | ⟨-, ⟨hn, rfl⟩ | ⟨n, hn, hr⟩⟩⟩ | ⟨-, n, hn, -, rfl, rfl⟩ :=
    Volume.rename_cases hne (Option.some.inj hs)
  · exact hfail e (.inl (injected_of_error? hm he))
  · refine hfail _ (.inr fun n hn' => ?_)
    rw [siteFiles_get, hn'] at hn
    cases hn
  · refine hfail e (.inr fun m hm' => ?_)
    rw [siteFiles_get, hm'] at hn
    cases hn
    exact hr
  · simp only [← Site.view_setFile] at hok
    exact hok n hn

theorem sync {k : Except IoError Unit → Prog storage ε β} (hc : C v)
    (hok : Exec E may C (k (.ok ())) v Q F)
    (hfail : ∀ e, Injected may e.message → Exec E may C (k (.error e)) v Q F) :
    Exec E may C (StorageOp.sync.bind k) v Q F := by
  refine Exec.op hc ?_
  rintro s rfl c hm ans t hs
  obtain ⟨rfl, ⟨e, he, rfl⟩ | ⟨-, rfl⟩⟩ := Volume.sync_cases (Option.some.inj hs)
  · exact hfail e (injected_of_error? hm he)
  · exact hok

theorem createNew {f : DbFile} {bytes : Bytes} {k : Except CreateError Unit → Prog storage ε β}
    (hf : f.Core) (hc : C v)
    (hok : v.get f = none → Exec E may C (k (.ok ())) (v.set f (some (.file bytes))) Q F)
    (hopening : ∀ e, (v.get f = none → Injected may e.message) →
      Exec E may C (k (.error (.opening e))) v Q F)
    (htorn : ∀ n m, may (.torn n m) → v.get f = none →
      Exec E may C (k (.error (.writing ⟨.other, m⟩))) (v.set f (some (.file (bytes.take n)))) Q F) :
    Exec E may C ((StorageOp.createNew f bytes).bind k) v Q F := by
  refine Exec.op hc ?_
  rintro s rfl c hm ans t hs
  rw [Site.view_get s hf] at hok hopening htorn
  obtain ⟨e, rfl, rfl, ⟨n, hn⟩ | ⟨m, rfl, rfl⟩⟩ | ⟨n, m, rfl, hn, rfl, rfl⟩ | ⟨rfl, hn, rfl, rfl⟩ :=
    Volume.createNew_cases (Option.some.inj hs)
  · refine hopening e fun hn' => ?_
    rw [siteFiles_get, hn'] at hn
    cases hn
  · exact hopening _ fun _ => ⟨_, hm, rfl⟩
  · simp only [← Site.view_setFile] at htorn
    exact htorn n m hm hn
  · rw [← Site.view_setFile] at hok
    exact hok hn

/-- Sidecars are outside the view, whatever happens to them. -/
theorem removeSidecar {f : DbFile} {Q : Unit → View → Prop} (hc : C v) (h : Q () v) :
    Exec E may C (removeSidecar f) v Q F := by
  refine Exec.op hc ?_
  rintro s rfl c hm ans t hs
  obtain ⟨e, rfl, rfl, -⟩ | ⟨-, -, rfl, rfl⟩ := Volume.remove_cases (Option.some.inj hs)
  · exact Exec.pure h
  · have hv : (s.setFile (.sidecar f) none).view = s.view := by simp [View.set]
    rw [← hv] at h
    exact Exec.pure h

-- ---------------------------------------------------------------------------
-- Engine and handle steps
-- ---------------------------------------------------------------------------

theorem openDatabase {f : DbFile} {k : Except String Database → Prog storage ε β} (hf : f.Core)
    (hc : C v)
    (hok : ∀ b, v.get f = some (.file b) → E.accepts b = .ok () →
      Exec E may C (k (.ok ⟨b⟩)) v Q F)
    (hfail : ∀ e, (Injected may e ∨ ∀ b, v.get f = some (.file b) → E.accepts b = .error e) →
      Exec E may C (k (.error e)) v Q F) :
    Exec E may C ((Prog.call (S := storage) (.openDatabase f)).bind k) v Q F := by
  refine Exec.op hc ?_
  rintro s rfl c hm ans t hs
  rw [Site.view_get s hf] at hok hfail
  obtain ⟨m, rfl, rfl, ⟨e, he, rfl⟩ | ⟨-, hact⟩⟩ | ⟨-, b, a, hb, hact, rfl⟩ :=
    Site.engineStep_cases (Option.some.inj hs)
  · exact hfail _ (.inl (injected_of_error? hm he))
  · exact hfail m (.inr fun b hb => map_error.mp (hact b hb))
  · obtain ⟨u, ha, hr⟩ := map_ok.mp hact
    cases hr
    rw [Site.view_leaveLockFile]
    exact hok b hb ha

theorem checkDatabase {f : DbFile} {k : Except String Bool → Prog storage ε β} (hf : f.Core)
    (hc : C v)
    (hok : ∀ b valid, v.get f = some (.file b) → E.check b = .ok valid →
      Exec E may C (k (.ok valid)) v Q F)
    (hfail : ∀ e, (Injected may e ∨ ∀ b, v.get f = some (.file b) → E.check b = .error e) →
      Exec E may C (k (.error e)) v Q F) :
    Exec E may C ((Prog.call (S := storage) (.checkDatabase f)).bind k) v Q F := by
  refine Exec.op hc ?_
  rintro s rfl c hm ans t hs
  rw [Site.view_get s hf] at hok hfail
  obtain ⟨m, rfl, rfl, ⟨e, he, rfl⟩ | ⟨-, hact⟩⟩ | ⟨-, b, a, hb, hact, rfl⟩ :=
    Site.engineStep_cases (Option.some.inj hs)
  · exact hfail _ (.inl (injected_of_error? hm he))
  · exact hfail m (.inr fun b hb => map_error.mp (hact b hb))
  · obtain ⟨valid, ha, hr⟩ := map_ok.mp hact
    cases hr
    exact hok b _ hb ha

theorem adoptServerAuthority {f : DbFile} {k : Except String Unit → Prog storage ε β}
    (hf : f.Core) (hc : C v)
    (hok : ∀ b b', v.get f = some (.file b) → E.adopt b = .ok b' →
      Exec E may C (k (.ok ())) (v.set f (some (.file b'))) Q F)
    (hfail : ∀ e, Exec E may C (k (.error e)) v Q F) :
    Exec E may C ((Prog.call (S := storage) (.adoptServerAuthority f)).bind k) v Q F := by
  refine Exec.op hc ?_
  rintro s rfl c hm ans t hs
  rw [Site.view_get s hf] at hok
  obtain ⟨m, rfl, rfl, -⟩ | ⟨-, b, a, hb, hact, rfl⟩ :=
    Site.engineStep_cases (Option.some.inj hs)
  · exact hfail m
  · obtain ⟨b', ha, hr⟩ := map_ok.mp hact
    cases hr
    rw [Site.view_setFile]
    exact hok b b' hb ha

theorem checkpointDatabase {f : DbFile} {k : Except String Unit → Prog storage ε β} (hc : C v)
    (h : ∀ r, Exec E may C (k r) v Q F) :
    Exec E may C ((Prog.call (S := storage) (.checkpointDatabase f)).bind k) v Q F := by
  refine Exec.op hc ?_
  rintro s rfl c hm ans t hs
  obtain ⟨m, rfl, rfl, -⟩ | ⟨-, b, a, hb, hact, rfl⟩ :=
    Site.engineStep_cases (Option.some.inj hs)
  · exact h _
  · cases hact
    exact h _

theorem lock {k : Unit → Prog storage ε β} (hc : C v)
    (h : v.locked = false → Exec E may C (k ()) { v with locked := true } Q F) :
    Exec E may C ((Prog.call (S := storage) .lock).bind k) v Q F := by
  refine Exec.op hc ?_
  rintro s rfl c - ans t hs
  change (if s.locked then none else some ((), { s with locked := true })) = some (ans, t) at hs
  split at hs
  · cases hs
  · rename_i hl
    cases hs
    exact h (by simpa using hl)

theorem unlock {k : Unit → Prog storage ε β} (hc : C v)
    (h : Exec E may C (k ()) { v with locked := false } Q F) :
    Exec E may C ((Prog.call (S := storage) .unlock).bind k) v Q F := by
  refine Exec.op hc ?_
  rintro s rfl c - ans t hs
  cases hs
  exact h

theorem take {k : Option Database → Prog storage ε β} (hc : C v)
    (h : Exec E may C (k v.slot) { v with slot := none } Q F) :
    Exec E may C ((Prog.call (S := storage) .take).bind k) v Q F := by
  refine Exec.op hc ?_
  rintro s rfl c - ans t hs
  cases hs
  exact h

theorem put {d : Database} {k : Unit → Prog storage ε β} (hc : C v)
    (h : Exec E may C (k ()) { v with slot := some d } Q F) :
    Exec E may C ((Prog.call (S := storage) (.put d)).bind k) v Q F := by
  refine Exec.op hc ?_
  rintro s rfl c - ans t hs
  cases hs
  exact h

theorem checkpoint {d : Database} {k : Except DatabaseError Unit → Prog storage ε β} (hc : C v)
    (h : ∀ r, Exec E may C (k r) v Q F) :
    Exec E may C ((Prog.call (S := storage) (.checkpoint d)).bind k) v Q F := by
  refine Exec.op hc ?_
  rintro s rfl c - ans t hs
  simp only [storageWorld, Site.step] at hs
  split at hs <;> cases hs <;> exact h _

end Exec

end NostdbServer
