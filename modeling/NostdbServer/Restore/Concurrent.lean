import Mathlib.Logic.Relation
import NostdbServer.Effects.Pool
import NostdbServer.Restore.Leads

/-!
# Concurrent replacements of one Database

Any number of `restore_snapshot` and `import_logical` calls on one Database take
turns, one step at a time, without a crash and without disk errors. Beside the
Site a run remembers which call wrote the candidate that is there, and what each
call did with it. A call keeps its candidate as long as nobody removes it from
under a call that has not returned; then what is installed is what the call that
installs it was given, wrote and validated.
-/

namespace NostdbServer

open Effects Relation

/-- What a call does with a candidate file. -/
inductive Deed
  | wrote (bytes : Bytes)
  | opened (content : Bytes)
  | checked (content : Bytes)
  | adopted (content result : Bytes)
  | installed (content : Bytes)
  deriving DecidableEq, Repr

def Site.candidate (s : Site) : Option Bytes :=
  (s.files .restoreCandidate).bind FileLike.bytes?

/-- The deed in a step that led from one Site to another. -/
def deed? (before after : Site) : (o : StorageOp) → o.Ans → Option Deed
  | .file (.createNew .restoreCandidate bytes), .ok () => some (.wrote bytes)
  | .openDatabase .restoreCandidate, .ok database => some (.opened database.content)
  | .checkDatabase .restoreCandidate, .ok true => before.candidate.map .checked
  | .adoptServerAuthority .restoreCandidate, .ok () =>
    before.candidate.bind fun content => after.candidate.map (.adopted content)
  | .file (.rename .restoreCandidate .database), .ok () => before.candidate.map .installed
  | _, _ => none

structure Shared where
  site : Site
  owner : Option Nat
  running : Nat → Bool
  deeds : Nat → List Deed

/-- The state after call `i` took a step to `site`. A candidate belongs to the
call whose step brought it. -/
def Shared.after (s : Shared) (i : Nat) (site : Site) (deed : Option Deed) : Shared :=
  { s with
    site
    owner := match s.site.files .restoreCandidate, site.files .restoreCandidate with
      | _, none => none
      | none, some _ => some i
      | some _, some _ => s.owner
    deeds := Function.update s.deeds i (s.deeds i ++ deed.toList) }

def replacementWorld (E : Engine) (i : Nat) : World storage Outcome Shared where
  step o c s := (Site.step E o c s.site).map fun r => (r.1, s.after i r.2 (deed? s.site r.2 o r.1))

/-- A call that replaces the content of a Database. What the engine makes of a
logical package is `compile`, in a directory of the call's own. -/
inductive Replacement (π : Type)
  | restoreSnapshot (bytes : Bytes)
  | importLogical (package : π)

namespace Replacement

variable {π : Type} (compile : π → Except ProtocolFailure Bytes)

def bytes : Replacement π → Except ProtocolFailure Bytes
  | .restoreSnapshot bytes => .ok bytes
  | .importLogical package => compile package

def program (K : Codec RestoreJournal) (handle : ManagedDatabase) (r : Replacement π) :
    Prog storage ProtocolFailure Unit := do
  let bytes ← Prog.ofExcept (r.bytes compile)
  restoreSnapshotWithOperations K handle bytes

end Replacement

structure Replacing (π : Type) where
  pool : Pool Nat storage ProtocolFailure Unit Shared
  given : Nat → Option (Replacement π)
  results : Nat → Option (Except ProtocolFailure Unit)

inductive ReplacementAct (π : Type)
  | start (i : Nat) (r : Replacement π)
  | act (i : Nat)
  | return (i : Nat)

namespace Replacing

variable {π : Type}

def initial (site : Site) : Replacing π where
  pool := ⟨⟨site, none, fun _ => false, fun _ => []⟩, fun _ => none⟩
  given _ := none
  results _ := none

def setRunning (s : Shared) (i : Nat) (b : Bool) : Shared :=
  { s with running := Function.update s.running i b }

def step (E : Engine) (K : Codec RestoreJournal) (handle : ManagedDatabase)
    (compile : π → Except ProtocolFailure Bytes) (r : Replacing π) :
    ReplacementAct π → Option (Replacing π)
  | .start i replacement =>
    if (r.given i).isSome then none
    else some {
      pool := ⟨setRunning r.pool.state i true,
        Function.update r.pool.threads i (some (replacement.program compile K handle))⟩
      given := Function.update r.given i (some replacement)
      results := r.results }
  | .act i => (r.pool.act (replacementWorld E i) i .ok).map fun pool => { r with pool }
  | .return i => do
    let rest ← r.pool.threads i
    let result ← rest.result?
    some {
      pool := ⟨setRunning r.pool.state i false, Function.update r.pool.threads i none⟩
      given := r.given
      results := Function.update r.results i (some result) }

/-- A call removes a candidate only if it is its own, or of a call that has
returned. -/
def careful (r : Replacing π) : ReplacementAct π → Bool
  | .act i =>
    match r.pool.threads i, r.pool.state.owner with
    | some (.op (.file (.remove .restoreCandidate)) _), some j =>
      j = i || !r.pool.state.running j
    | _, _ => true
  | _ => true

/-- The acts in turn, as long as `allowed`. -/
def run (E : Engine) (K : Codec RestoreJournal) (handle : ManagedDatabase)
    (compile : π → Except ProtocolFailure Bytes)
    (allowed : Replacing π → ReplacementAct π → Bool) (r : Replacing π) :
    List (ReplacementAct π) → Option (Replacing π)
  | [] => some r
  | a :: as =>
    if allowed r a then (r.step E K handle compile a).bind fun r' =>
      run E K handle compile allowed r' as
    else none

end Replacing

-- ---------------------------------------------------------------------------
-- What the calls owe each other
-- ---------------------------------------------------------------------------

/-- A call wrote the content, and opened, checked and adopted it. -/
def Deed.Validate (deeds : List Deed) (content : Bytes) : Prop :=
  ∃ bytes, [.wrote bytes, .opened bytes, .checked bytes, .adopted bytes content] <+: deeds

/-- Content that may be found under the name of the Database. -/
def Shared.Fit (original : Bytes) (s : Shared) (content : Bytes) : Prop :=
  content = original ∨ ∃ i, Deed.Validate (s.deeds i) content

structure Shared.Good (original : Bytes) (s : Shared) : Prop where
  owned : s.site.files .restoreCandidate = none → s.owner = none
  database : ∀ x, s.site.files .database = some (.file x) → s.Fit original x
  backup : ∀ x, s.site.files .restoreBackup = some (.file x) → s.Fit original x

/-- Call `j` is left alone: its candidate, and the record of what it did. -/
structure Shared.Spares (j : Nat) (s t : Shared) : Prop where
  running : t.running j = s.running j
  deeds : t.deeds j = s.deeds j
  candidate : s.running j = true → s.owner = some j →
    t.owner = some j ∧ t.site.files .restoreCandidate = s.site.files .restoreCandidate

theorem Shared.Spares.refl (j : Nat) (s : Shared) : Spares j s s :=
  ⟨rfl, rfl, fun _ ho => ⟨ho, rfl⟩⟩

theorem Shared.Spares.trans {s t u : Shared} (h : Spares j s t) (h' : Spares j t u) :
    Spares j s u := by
  refine ⟨h'.running.trans h.running, h'.deeds.trans h.deeds, fun hr ho => ?_⟩
  obtain ⟨hto, htc⟩ := h.candidate hr ho
  obtain ⟨huo, huc⟩ := h'.candidate (h.running.trans hr) hto
  exact ⟨huo, huc.trans htc⟩

/-- Call `i` among the others, on a disk without errors, when no candidate is
removed from under a call that has not returned. -/
def replacementSetting (E : Engine) (original : Bytes) (i : Nat) :
    Setting storage Outcome Shared where
  toWorld := replacementWorld E i
  may o c s := c = .ok ∧ (o = .file (.remove .restoreCandidate) →
    ∀ j, s.owner = some j → j = i ∨ s.running j = false)
  rely s t := s.Spares i t ∧ (s.Good original → t.Good original)
  guar s t := (∀ j, j ≠ i → s.Spares j t) ∧ (s.Good original → t.Good original)
  rely_refl s := ⟨.refl i s, fun h => h⟩
  rely_trans h h' := ⟨h.1.trans h'.1, fun hg => h'.2 (h.2 hg)⟩

/-- Steps that leave the candidate alone and bring no new content. -/
def StorageOp.Quiet : StorageOp → Prop
  | .file (.pathExists _) | .file (.isFile _) | .file (.read _) | .file .sync => True
  | .file (.createNew f _) => f = .restoreOperation
  | .file (.remove f) => f ≠ .restoreCandidate
  | .file (.rename f g) =>
    (f = .database ∧ g = .restoreBackup) ∨ (f = .restoreBackup ∧ g = .database)
  | .openDatabase f => f ≠ .restoreCandidate
  | .checkpointDatabase _ | .lock | .unlock | .take | .put _ | .checkpoint _ | .peek => True
  | _ => False

/-- Quiet steps, and the removal of a candidate. -/
def StorageOp.Harmless (o : StorageOp) : Prop := o.Quiet ∨ o = .file (.remove .restoreCandidate)

/-- The files of a Site that matter here are as they were, or were exchanged. -/
structure Site.NoNews (s t : Site) : Prop where
  candidate : t.files .restoreCandidate = s.files .restoreCandidate
  content : ∀ x, t.files .database = some (.file x) ∨ t.files .restoreBackup = some (.file x) →
    s.files .database = some (.file x) ∨ s.files .restoreBackup = some (.file x)

theorem Site.NoNews.refl (s : Site) : s.NoNews s := ⟨rfl, fun _ h => h⟩

theorem Site.NoNews.of_files {s t : Site} (h : t.files = s.files) : s.NoNews t := by
  refine ⟨by rw [h], fun x hx => ?_⟩
  rwa [h] at hx

theorem Site.NoNews.setFile {s : Site} {f : DbFile} {n : Option Node} (hf : f ≠ .restoreCandidate)
    (hn : n = none ∨ f ≠ .database ∧ f ≠ .restoreBackup) : s.NoNews (s.setFile f n) := by
  refine ⟨by simp [Site.setFile, hf.symm], fun x hx => ?_⟩
  simp only [Site.setFile, Function.update_apply] at hx
  rcases hn with rfl | ⟨hd, hb⟩
  · refine hx.imp (fun h => ?_) fun h => ?_
    all_goals
      split at h
      · cases h
      · exact h
  · simpa [hd.symm, hb.symm] using hx

theorem Site.NoNews.leaveLockFile {E : Engine} {s : Site} {f : DbFile} :
    s.NoNews (s.leaveLockFile E f) := by
  unfold Site.leaveLockFile
  split
  · exact .refl s
  · exact .setFile (by simp) (.inr ⟨by simp, by simp⟩)

theorem StorageOp.Quiet.noNews {E : Engine} {o : StorageOp} {s t : Site} {ans : o.Ans}
    (ho : o.Quiet) (h : Site.step E o c s = some (ans, t)) : s.NoNews t := by
  cases o with
  | file o =>
    have h := Option.some.inj h
    cases o with
    | pathExists f | isFile f => cases h; exact .refl s
    | read f => obtain ⟨rfl, -⟩ := Volume.read_cases h; exact .refl _
    | sync => obtain ⟨rfl, -⟩ := Volume.sync_cases h; exact .refl _
    | createNew f bytes =>
      obtain rfl : f = .restoreOperation := ho
      obtain ⟨e, -, rfl, -⟩ | ⟨n, m, -, -, -, rfl⟩ | ⟨-, -, -, rfl⟩ := Volume.createNew_cases h
      · exact .refl _
      · exact .setFile (by simp) (.inr ⟨by simp, by simp⟩)
      · exact .setFile (by simp) (.inr ⟨by simp, by simp⟩)
    | remove f =>
      obtain ⟨e, -, rfl, -⟩ | ⟨-, -, -, rfl⟩ := Volume.remove_cases h
      · exact .refl _
      · exact .setFile ho (.inl rfl)
    | rename f g =>
      have hne : f ≠ g := by
        rcases ho with ⟨rfl, rfl⟩ | ⟨rfl, rfl⟩ <;> simp
      obtain ⟨e, -, rfl, -⟩ | ⟨-, n, hn, -, -, rfl⟩ := Volume.rename_cases hne h
      · exact .refl _
      · refine ⟨?_, fun x hx => ?_⟩
        · rcases ho with ⟨rfl, rfl⟩ | ⟨rfl, rfl⟩ <;> simp [siteFiles, Site.setFile]
        · rcases ho with ⟨rfl, rfl⟩ | ⟨rfl, rfl⟩ <;>
            simp_all [siteFiles, Site.setFile]
  | openDatabase f =>
    obtain ⟨m, -, rfl, -⟩ | ⟨-, b, a, -, hact, -⟩ := Site.engineStep_cases (Option.some.inj h)
    · exact .refl _
    · obtain ⟨u, -, hr⟩ := map_ok.mp hact
      cases hr
      exact .leaveLockFile
  | checkpointDatabase f =>
    obtain ⟨m, -, rfl, -⟩ | ⟨-, b, a, -, hact, -⟩ := Site.engineStep_cases (Option.some.inj h)
    · exact .refl _
    · cases hact
      exact .refl _
  | lock | unlock | take | put _ | checkpoint _ | peek =>
    refine .of_files (StorageOp.Still.files ?_ h)
    trivial
  | _ => exact ho.elim

theorem StorageOp.Harmless.deed? {o : StorageOp} (ho : o.Harmless) (s t : Site) (ans : o.Ans) :
    NostdbServer.deed? s t o ans = none := by
  rcases ho with ho | rfl
  · cases o with
    | file o =>
      cases o with
      | createNew f bytes => obtain rfl : f = .restoreOperation := ho; rfl
      | rename f g => rcases ho with ⟨rfl, rfl⟩ | ⟨rfl, rfl⟩ <;> rfl
      | _ => rfl
    | openDatabase f => cases f <;> first | rfl | exact absurd rfl ho
    | checkDatabase f | adoptServerAuthority f => exact ho.elim
    | _ => rfl
  · rfl

section
variable {E : Engine} {original : Bytes} {i : Nat} {s t : Shared} {site : Site} {deed : Option Deed}

theorem Shared.Fit.after (h : s.Fit original x) : (s.after i site deed).Fit original x := by
  refine h.imp_right ?_
  rintro ⟨j, bytes, hj⟩
  refine ⟨j, bytes, ?_⟩
  by_cases hij : j = i
  · subst hij
    simpa [Shared.after] using hj.trans (List.prefix_append _ _)
  · simpa [Shared.after, hij] using hj

/-- A call that is at work, with the record of what it did. -/
structure Bare (original : Bytes) (i : Nat) (ds : List Deed) (s : Shared) : Prop where
  good : s.Good original
  running : s.running i = true
  deeds : s.deeds i = ds

/-- A call that has its candidate in place. -/
structure Held (original : Bytes) (i : Nat) (content : Bytes) (ds : List Deed) (s : Shared) :
    Prop extends Bare original i ds s where
  owner : s.owner = some i
  candidate : s.site.files .restoreCandidate = some (.file content)

theorem Bare.stable {ds : List Deed} (h : Bare original i ds s)
    (hr : (replacementSetting E original i).rely s t) : Bare original i ds t :=
  ⟨hr.2 h.good, hr.1.running.trans h.running, hr.1.deeds.trans h.deeds⟩

theorem Held.stable {ds : List Deed} (h : Held original i content ds s)
    (hr : (replacementSetting E original i).rely s t) : Held original i content ds t := by
  obtain ⟨ho, hc⟩ := hr.1.candidate h.running h.owner
  exact ⟨h.toBare.stable hr, ho, hc.trans h.candidate⟩

theorem Held.content? {ds : List Deed} (h : Held original i content ds s) :
    s.site.candidate = some content := by
  simp [Site.candidate, h.candidate, FileLike.bytes?]

-- ---------------------------------------------------------------------------
-- One step of a call
-- ---------------------------------------------------------------------------

@[simp] theorem Shared.after_site : (s.after i site deed).site = site := rfl
@[simp] theorem Shared.after_running : (s.after i site deed).running = s.running := rfl

@[simp] theorem Shared.after_deeds_self :
    (s.after i site deed).deeds i = s.deeds i ++ deed.toList := by
  simp [Shared.after]

theorem Shared.after_deeds_of_ne {j : Nat} (h : j ≠ i) :
    (s.after i site deed).deeds j = s.deeds j := by
  simp [Shared.after, h]

/-- The candidate stays where it is, so its owner does. -/
theorem Shared.after_owner (hg : s.Good original)
    (hc : site.files .restoreCandidate = none ↔ s.site.files .restoreCandidate = none) :
    (s.after i site deed).owner = s.owner := by
  cases hs : s.site.files .restoreCandidate with
  | none =>
    rw [hg.owned hs]
    simp [Shared.after, hc.mpr hs]
  | some n =>
    have : site.files .restoreCandidate ≠ none := fun h => by simp [hc.mp h] at hs
    obtain ⟨m, hm⟩ := Option.ne_none_iff_exists'.mp this
    simp [Shared.after, hs, hm]

theorem Shared.Good.noNews (hg : s.Good original) (hn : s.site.NoNews site) :
    (s.after i site deed).Good original := by
  have hfit : ∀ x, site.files .database = some (.file x) ∨ site.files .restoreBackup =
      some (.file x) → (s.after i site deed).Fit original x := by
    intro x hx
    exact ((hn.content x hx).elim (hg.database x) (hg.backup x)).after
  refine ⟨fun hc => ?_, fun x hx => hfit x (.inl hx), fun x hx => hfit x (.inr hx)⟩
  simp only [Shared.after_site] at hc
  simp [Shared.after, hc]

/-- A quiet step spares everybody. -/
theorem Shared.Spares.noNews (hg : s.Good original) (hn : s.site.NoNews site) {j : Nat}
    (hj : j ≠ i) : s.Spares j (s.after i site deed) := by
  refine ⟨rfl, Shared.after_deeds_of_ne hj, fun _ ho => ⟨?_, hn.candidate⟩⟩
  rw [Shared.after_owner hg (by rw [hn.candidate]), ho]

theorem replacement_step_cases {o : StorageOp} {ans : o.Ans}
    (hs : (replacementWorld E i).step o c s = some (ans, t)) :
    ∃ site, Site.step E o c s.site = some (ans, site) ∧
      t = s.after i site (deed? s.site site o ans) := by
  obtain ⟨⟨ans', site⟩, hstep, hr⟩ := Option.map_eq_some_iff.mp hs
  cases hr
  exact ⟨site, hstep, rfl⟩

/-- A step without news, whatever is recorded of it. -/
theorem Bare.noNews {ds : List Deed} (h : Bare original i ds s) (hn : s.site.NoNews site)
    (deed : Option Deed) :
    (replacementSetting E original i).guar s (s.after i site deed) ∧
      Bare original i (ds ++ deed.toList) (s.after i site deed) :=
  ⟨⟨fun _ hj => .noNews h.good hn hj, fun _ => h.good.noNews hn⟩,
    h.good.noNews hn, h.running, by rw [Shared.after_deeds_self, h.deeds]⟩

theorem Held.noNews {ds : List Deed} (h : Held original i content ds s)
    (hn : s.site.NoNews site) (deed : Option Deed) :
    (replacementSetting E original i).guar s (s.after i site deed) ∧
      Held original i content (ds ++ deed.toList) (s.after i site deed) := by
  obtain ⟨hg, hb⟩ := h.toBare.noNews (E := E) hn deed
  refine ⟨hg, hb, ?_, hn.candidate.trans h.candidate⟩
  exact (Shared.after_owner h.good (by rw [hn.candidate])).trans h.owner

/-- So does the removal of a candidate, when nobody needs it. -/
theorem harmless_step {ds : List Deed} {o : StorageOp} {ans : o.Ans} (ho : o.Harmless)
    (hm : (replacementSetting E original i).may o c s) (h : Bare original i ds s)
    (hs : (replacementWorld E i).step o c s = some (ans, t)) :
    (replacementSetting E original i).guar s t ∧ Bare original i ds t := by
  rcases ho with ho | rfl
  · obtain ⟨site, hstep, rfl⟩ := replacement_step_cases hs
    rw [StorageOp.Harmless.deed? (.inl ho)]
    simpa using h.noNews (ho.noNews hstep) none
  · obtain ⟨site, hstep, rfl⟩ := replacement_step_cases hs
    obtain ⟨e, -, rfl, -⟩ | ⟨-, -, -, rfl⟩ := Volume.remove_cases (Option.some.inj hstep)
    · simpa [deed?] using h.noNews (.refl s.site) none
    · have hgood : (s.after i (siteFiles.set s.site .restoreCandidate none) none).Good original := by
        refine ⟨fun _ => ?_, fun x hx => (h.good.database x ?_).after,
          fun x hx => (h.good.backup x ?_).after⟩
        · simp [Shared.after, siteFiles, Site.setFile]
        · simpa [siteFiles, Site.setFile] using hx
        · simpa [siteFiles, Site.setFile] using hx
      refine ⟨⟨fun j hj => ⟨rfl, Shared.after_deeds_of_ne hj, fun hrun hown => ?_⟩, fun _ => hgood⟩,
        ⟨hgood, h.running, by simp [h.deeds, deed?]⟩⟩
      rcases hm.2 rfl j hown with rfl | hstop
      · exact absurd rfl hj
      · rw [hstop] at hrun
        cases hrun

theorem harmless_wp {ds : List Deed} {p : Prog storage ε α} (hp : p.Only StorageOp.Harmless)
    (h : Bare original i ds s) :
    (replacementSetting E original i).Wp (Shared.Good original) p s
      (fun _ => Bare original i ds) (fun _ => Bare original i ds) := by
  refine (Setting.Wp.of_only (P := StorageOp.Harmless) (I := Bare original i ds)
    (fun _ _ hs hr => hs.stable hr) ?_ hp h).mono (fun _ h => h.good) (fun _ _ h => h)
    fun _ _ h => h
  intro o c s ans t ho hm hs hb
  exact harmless_step ho hm hb hs

theorem harmless_call {ds : List Deed} {o : StorageOp} {k : storage.Ans o → Prog storage ε α}
    {Q : α → Shared → Prop} {F : ε → Shared → Prop} (ho : o.Harmless) (h : Bare original i ds s)
    (hk : ∀ ans t, Bare original i ds t →
      (replacementSetting E original i).Wp (Shared.Good original) (k ans) t Q F) :
    (replacementSetting E original i).Wp (Shared.Good original) ((Prog.call o).bind k) s Q F := by
  refine Setting.Wp.op (P := Bare original i ds) (fun _ _ hs hr => hs.stable hr) h
    (fun _ h => h.good) fun s h c hm ans t hs => ?_
  obtain ⟨hg, hb⟩ := harmless_step ho hm h hs
  exact ⟨hg, hk ans t hb⟩

theorem quiet_op {ds : List Deed} {o : StorageOp} {next : storage.Ans o → Prog storage ε α}
    {Q : α → Shared → Prop} {F : ε → Shared → Prop} (ho : o.Quiet)
    (h : Held original i content ds s)
    (hk : ∀ ans t, Held original i content ds t →
      (replacementSetting E original i).Wp (Shared.Good original) (next ans) t Q F) :
    (replacementSetting E original i).Wp (Shared.Good original) (.op o next) s Q F := by
  refine Setting.Wp.op (P := Held original i content ds) (fun _ _ hs hr => hs.stable hr) h
    (fun _ h => h.good) fun s h c _ ans t hs => ?_
  obtain ⟨site, hstep, rfl⟩ := replacement_step_cases hs
  rw [StorageOp.Harmless.deed? (.inl ho)]
  obtain ⟨hg, hh⟩ := h.noNews (E := E) (ho.noNews hstep) none
  exact ⟨hg, hk ans _ (by simpa using hh)⟩

theorem quiet_call {ds : List Deed} {o : StorageOp} {k : storage.Ans o → Prog storage ε α}
    {Q : α → Shared → Prop} {F : ε → Shared → Prop} (ho : o.Quiet)
    (h : Held original i content ds s)
    (hk : ∀ ans t, Held original i content ds t →
      (replacementSetting E original i).Wp (Shared.Good original) (k ans) t Q F) :
    (replacementSetting E original i).Wp (Shared.Good original) ((Prog.call o).bind k) s Q F :=
  quiet_op ho h hk

theorem harmless_of_tidies {p : Prog storage ε α} (h : p.Only StorageOp.Tidies) :
    p.Only StorageOp.Harmless := by
  refine h.mono fun o ho => ?_
  cases o with
  | file o =>
    cases o with
    | remove f =>
      by_cases hf : f = .restoreCandidate
      · exact .inr (by rw [hf])
      · exact .inl hf
    | pathExists _ | sync => exact .inl trivial
    | _ => exact ho.elim
  | _ => exact ho.elim

-- ---------------------------------------------------------------------------
-- The steps on the candidate
-- ---------------------------------------------------------------------------

section
variable {ds : List Deed} {Q : β → Shared → Prop} {F : ε → Shared → Prop}

theorem createCandidate_op {bytes : Bytes} {k : Except CreateError Unit → Prog storage ε β}
    (h : Bare original i ds s)
    (hok : ∀ t, Held original i bytes (ds ++ [.wrote bytes]) t →
      (replacementSetting E original i).Wp (Shared.Good original) (k (.ok ())) t Q F)
    (hfail : ∀ e t, Bare original i ds t →
      (replacementSetting E original i).Wp (Shared.Good original) (k (.error e)) t Q F) :
    (replacementSetting E original i).Wp (Shared.Good original)
      ((StorageOp.createNew .restoreCandidate bytes).bind k) s Q F := by
  refine Setting.Wp.op (P := Bare original i ds) (fun _ _ hs hr => hs.stable hr) h
    (fun _ h => h.good) fun s h c hm ans t hs => ?_
  obtain ⟨site, hstep, rfl⟩ := replacement_step_cases hs
  obtain ⟨rfl, -⟩ := hm
  obtain ⟨e, rfl, rfl, -⟩ | ⟨n, m, hc, -⟩ | ⟨-, hn, rfl, rfl⟩ :=
    Volume.createNew_cases (Option.some.inj hstep)
  · obtain ⟨hg, hb⟩ := h.noNews (E := E) (.refl s.site) none
    exact ⟨hg, hfail _ _ (by simpa [deed?] using hb)⟩
  · cases hc
  · have hn : s.site.files .restoreCandidate = none := hn
    -- There was no candidate, so nobody can miss one.
    have hown := h.good.owned hn
    have hgood : (s.after i (siteFiles.set s.site .restoreCandidate (some (.file bytes)))
        (some (.wrote bytes))).Good original := by
      refine ⟨fun hc => ?_, fun x hx => (h.good.database x ?_).after,
        fun x hx => (h.good.backup x ?_).after⟩
      · simp [siteFiles, Site.setFile] at hc
      · simpa [siteFiles, Site.setFile] using hx
      · simpa [siteFiles, Site.setFile] using hx
    refine ⟨⟨fun j hj => ⟨rfl, Shared.after_deeds_of_ne hj, fun _ ho => ?_⟩, fun _ => hgood⟩,
      hok _ ⟨⟨hgood, h.running, by simp [h.deeds, deed?]⟩, ?_, ?_⟩⟩
    · rw [hown] at ho
      cases ho
    · simp [Shared.after, hn, siteFiles, Site.setFile]
    · simp [siteFiles, Site.setFile, FileLike.ofBytes]

theorem openCandidate_op {k : Except String Database → Prog storage ε β}
    (h : Held original i content ds s)
    (hok : ∀ t, Held original i content (ds ++ [.opened content]) t →
      (replacementSetting E original i).Wp (Shared.Good original) (k (.ok ⟨content⟩)) t Q F)
    (hfail : ∀ e t, Held original i content ds t →
      (replacementSetting E original i).Wp (Shared.Good original) (k (.error e)) t Q F) :
    (replacementSetting E original i).Wp (Shared.Good original)
      ((Prog.call (S := storage) (.openDatabase .restoreCandidate)).bind k) s Q F := by
  refine Setting.Wp.op (P := Held original i content ds) (fun _ _ hs hr => hs.stable hr) h
    (fun _ h => h.good) fun s h c _ ans t hs => ?_
  obtain ⟨site, hstep, rfl⟩ := replacement_step_cases hs
  obtain ⟨m, rfl, rfl, -⟩ | ⟨-, b, a, hb, hact, rfl⟩ :=
    Site.engineStep_cases (Option.some.inj hstep)
  · obtain ⟨hg, hh⟩ := h.noNews (E := E) (.refl s.site) none
    exact ⟨hg, hfail m _ (by simpa [deed?] using hh)⟩
  · obtain ⟨u, -, hr⟩ := map_ok.mp hact
    cases hr
    cases hb.symm.trans h.candidate
    obtain ⟨hg, hh⟩ := h.noNews (E := E) (.leaveLockFile (E := E) (f := .restoreCandidate))
      (some (.opened content))
    exact ⟨hg, hok _ hh⟩

theorem checkCandidate_op {k : Except String Bool → Prog storage ε β}
    (h : Held original i content ds s)
    (hok : ∀ t, Held original i content (ds ++ [.checked content]) t →
      (replacementSetting E original i).Wp (Shared.Good original) (k (.ok true)) t Q F)
    (hfail : ∀ r t, r ≠ .ok true → Held original i content ds t →
      (replacementSetting E original i).Wp (Shared.Good original) (k r) t Q F) :
    (replacementSetting E original i).Wp (Shared.Good original)
      ((Prog.call (S := storage) (.checkDatabase .restoreCandidate)).bind k) s Q F := by
  refine Setting.Wp.op (P := Held original i content ds) (fun _ _ hs hr => hs.stable hr) h
    (fun _ h => h.good) fun s h c _ ans t hs => ?_
  obtain ⟨site, hstep, rfl⟩ := replacement_step_cases hs
  obtain ⟨m, rfl, rfl, -⟩ | ⟨-, b, a, hb, hact, rfl⟩ :=
    Site.engineStep_cases (Option.some.inj hstep)
  · obtain ⟨hg, hh⟩ := h.noNews (E := E) (.refl s.site) none
    exact ⟨hg, hfail _ _ (by simp) (by simpa [deed?] using hh)⟩
  · obtain ⟨valid, -, hr⟩ := map_ok.mp hact
    cases hr
    cases a with
    | false =>
      obtain ⟨hg, hh⟩ := h.noNews (E := E) (.refl s.site) none
      exact ⟨hg, hfail _ _ (by simp) (by simpa [deed?] using hh)⟩
    | true =>
      have hd : deed? s.site s.site (.checkDatabase .restoreCandidate) (.ok true) =
          some (.checked content) := by simp [deed?, h.content?]
      rw [hd]
      obtain ⟨hg, hh⟩ := h.noNews (E := E) (.refl s.site) (some (.checked content))
      exact ⟨hg, hok _ hh⟩

theorem adoptCandidate_op {k : Except String Unit → Prog storage ε β}
    (h : Held original i content ds s)
    (hok : ∀ x t, E.adopt content = .ok x → Held original i x (ds ++ [.adopted content x]) t →
      (replacementSetting E original i).Wp (Shared.Good original) (k (.ok ())) t Q F)
    (hfail : ∀ e t, Held original i content ds t →
      (replacementSetting E original i).Wp (Shared.Good original) (k (.error e)) t Q F) :
    (replacementSetting E original i).Wp (Shared.Good original)
      ((Prog.call (S := storage) (.adoptServerAuthority .restoreCandidate)).bind k) s Q F := by
  refine Setting.Wp.op (P := Held original i content ds) (fun _ _ hs hr => hs.stable hr) h
    (fun _ h => h.good) fun s h c _ ans t hs => ?_
  obtain ⟨site, hstep, rfl⟩ := replacement_step_cases hs
  obtain ⟨m, rfl, rfl, -⟩ | ⟨-, b, a, hb, hact, rfl⟩ :=
    Site.engineStep_cases (Option.some.inj hstep)
  · obtain ⟨hg, hh⟩ := h.noNews (E := E) (.refl s.site) none
    exact ⟨hg, hfail m _ (by simpa [deed?] using hh)⟩
  · obtain ⟨x, hx, hr⟩ := map_ok.mp hact
    cases hr
    cases hb.symm.trans h.candidate
    have hnew : (s.site.setFile .restoreCandidate (some (.file x))).candidate = some x := by
      simp [Site.candidate, Site.setFile, FileLike.bytes?]
    have hd : deed? s.site (s.site.setFile .restoreCandidate (some (.file x)))
        (.adoptServerAuthority .restoreCandidate) (.ok ()) = some (.adopted content x) := by
      simp [deed?, h.content?, hnew]
    rw [hd]
    have hgood : (s.after i (s.site.setFile .restoreCandidate (some (.file x)))
        (some (.adopted content x))).Good original := by
      refine ⟨fun hc => ?_, fun y hy => (h.good.database y ?_).after,
        fun y hy => (h.good.backup y ?_).after⟩
      · simp [Site.setFile] at hc
      · simpa [Site.setFile] using hy
      · simpa [Site.setFile] using hy
    refine ⟨⟨fun j hj => ⟨rfl, Shared.after_deeds_of_ne hj, fun _ ho => ?_⟩, fun _ => hgood⟩,
      hok x _ hx ⟨⟨hgood, h.running, by simp [h.deeds]⟩, ?_, ?_⟩⟩
    · cases h.owner.symm.trans ho
      exact absurd rfl hj
    · simp [Shared.after, h.candidate, h.owner, Site.setFile]
    · simp [Site.setFile]

theorem installCandidate_op {k : Except IoError Unit → Prog storage ε β}
    (h : Held original i content ds s) (hv : Deed.Validate ds content)
    (hok : ∀ t, Bare original i (ds ++ [.installed content]) t →
      (replacementSetting E original i).Wp (Shared.Good original) (k (.ok ())) t Q F)
    (hfail : ∀ e t, Held original i content ds t →
      (replacementSetting E original i).Wp (Shared.Good original) (k (.error e)) t Q F) :
    (replacementSetting E original i).Wp (Shared.Good original)
      ((StorageOp.rename .restoreCandidate .database).bind k) s Q F := by
  refine Setting.Wp.op (P := Held original i content ds) (fun _ _ hs hr => hs.stable hr) h
    (fun _ h => h.good) fun s h c _ ans t hs => ?_
  obtain ⟨site, hstep, rfl⟩ := replacement_step_cases hs
  obtain ⟨e, rfl, rfl, -⟩ | ⟨-, n, hn, -, rfl, rfl⟩ :=
    Volume.rename_cases (by simp) (Option.some.inj hstep)
  · obtain ⟨hg, hh⟩ := h.noNews (E := E) (.refl s.site) none
    exact ⟨hg, hfail e _ (by simpa [deed?] using hh)⟩
  · cases hn.symm.trans h.candidate
    have hd : ∀ site, deed? s.site site (.file (.rename .restoreCandidate .database)) (.ok ()) =
        some (.installed content) := by simp [deed?, h.content?]
    rw [hd]
    have hfit : ∀ site, (s.after i site (some (.installed content))).Fit original content := by
      refine fun site => Shared.Fit.after (.inr ⟨i, ?_⟩)
      rw [h.deeds]
      exact hv
    have hgood : (s.after i (siteFiles.set (siteFiles.set s.site .restoreCandidate none) .database
        (some (.file content))) (some (.installed content))).Good original := by
      refine ⟨fun _ => ?_, fun y hy => ?_, fun y hy => (h.good.backup y ?_).after⟩
      · simp [Shared.after, siteFiles, Site.setFile]
      · obtain rfl : content = y := by simpa [siteFiles, Site.setFile] using hy
        exact hfit _
      · simpa [siteFiles, Site.setFile] using hy
    refine ⟨⟨fun j hj => ⟨rfl, Shared.after_deeds_of_ne hj, fun _ ho => ?_⟩, fun _ => hgood⟩,
      hok _ ⟨hgood, h.running, by simp [h.deeds]⟩⟩
    cases h.owner.symm.trans ho
    exact absurd rfl hj

end

-- ---------------------------------------------------------------------------
-- A whole call
-- ---------------------------------------------------------------------------

section
variable {K : Codec RestoreJournal} {handle : ManagedDatabase} {ds : List Deed}

/-- The call is still at work, whatever it has done. -/
def AtWork (original : Bytes) (i : Nat) (s : Shared) : Prop := ∃ ds, Bare original i ds s

theorem quiet_wp {p : Prog storage ε α} (hp : p.Only StorageOp.Quiet)
    (h : Held original i content ds s) :
    (replacementSetting E original i).Wp (Shared.Good original) p s
      (fun _ => Held original i content ds) (fun _ => Held original i content ds) := by
  induction p generalizing s with
  | pure a => exact fun t hr => h.stable hr
  | fail e => exact fun t hr => h.stable hr
  | op o next ih => exact quiet_op hp.1 h fun ans t ht => ih ans (hp.2 ans) ht

theorem syncRestoreDirectory_quiet :
    ((syncRestoreDirectory handle).mapError (internal ·.message)).Only StorageOp.Quiet := by
  refine Prog.Only.mapError (Prog.Only.step trivial ?_)
  rintro (_ | _) <;> trivial

theorem writeRestoreJournal_quiet : (writeRestoreJournal K handle).Only StorageOp.Quiet := by
  refine Prog.Only.step rfl ?_
  rintro (⟨_ | _⟩ | _)
  · trivial
  · refine Prog.Only.step (by simp [StorageOp.Quiet]) ?_
    rintro (cleanup | _)
    · dsimp only
      split <;> trivial
    · trivial
  · trivial

theorem writeCandidate_wp (bytes : Bytes) (h : Bare original i ds s) :
    (replacementSetting E original i).Wp (Shared.Good original)
      (writeNewSynced handle .restoreCandidate bytes) s
      (fun _ => Held original i bytes (ds ++ [.wrote bytes])) (fun _ => AtWork original i) := by
  unfold writeNewSynced
  simp only [Prog.bind_eq]
  refine createCandidate_op h (fun t ht => fun u hr => ht.stable hr) fun e t ht => ?_
  cases e with
  | opening error => exact fun u hr => ⟨ds, ht.stable hr⟩
  | writing error =>
    -- Not on a disk without errors, but no harm either: the file is the call's own.
    refine harmless_call (.inr rfl) ht fun ans u hu => ?_
    rcases ans with cleanup | _
    · dsimp only
      split <;> exact fun w hr => ⟨ds, hu.stable hr⟩
    · exact fun w hr => ⟨ds, hu.stable hr⟩

theorem prepareSnapshot_wp (bytes : Bytes) (h : Bare original i [] s) :
    (replacementSetting E original i).Wp (Shared.Good original) (prepareSnapshot K handle bytes) s
      (fun _ t => ∃ x, E.adopt bytes = .ok x ∧ Held original i x
        [.wrote bytes, .opened bytes, .checked bytes, .adopted bytes x] t)
      (fun _ => AtWork original i) := by
  have hfail : ∀ {content ds} {e : ProtocolFailure} {t}, Held original i content ds t →
      (replacementSetting E original i).Wp (Shared.Good original) (.fail e) t
        (fun (_ : Unit) t => ∃ x, E.adopt bytes = .ok x ∧ Held original i x
          [.wrote bytes, .opened bytes, .checked bytes, .adopted bytes x] t)
        (fun _ => AtWork original i) := fun ht u hr => ⟨_, (ht.stable hr).toBare⟩
  unfold prepareSnapshot
  simp only [Prog.bind_eq]
  refine Setting.Wp.bind ((writeCandidate_wp bytes h).mono (fun _ h => h) ?_ fun _ _ h => h)
  intro _ t ht
  refine openCandidate_op ht (fun t ht => ?_) fun e t ht => hfail ht
  refine checkCandidate_op ht (fun t ht => ?_) fun r t hr ht => ?_
  · refine adoptCandidate_op ht (fun x t hx ht => ?_) fun e t ht => hfail ht
    refine quiet_call trivial ht fun ans t ht => ?_
    cases ans with
    | error e => exact hfail ht
    | ok u =>
      refine Setting.Wp.bind ((quiet_wp writeRestoreJournal_quiet ht).mono (fun _ h => h) ?_ ?_)
      · intro _ t ht
        refine (quiet_wp syncRestoreDirectory_quiet ht).mono (fun _ h => h) ?_ ?_
        · exact fun _ t ht => ⟨x, hx, ht⟩
        · exact fun _ t ht => ⟨_, ht.toBare⟩
      · exact fun _ t ht => ⟨_, ht.toBare⟩
  · match r, hr with
    | .error e, _ => exact hfail ht
    | .ok false, _ => exact hfail ht

section
variable {Q : Unit → Shared → Prop}

/-- The ways back end in an error, after steps that harm nobody. -/
theorem cleanup_wp {p : Prog storage ServerError Unit}
    {k : Except ServerError Unit → Prog storage ProtocolFailure Unit}
    (hp : p.Only StorageOp.Tidies) (hk : ∀ r, ∃ e, k r = .fail e) (h : Bare original i ds s) :
    (replacementSetting E original i).Wp (Shared.Good original) (p.attempt.bind k) s Q
      (fun _ => AtWork original i) := by
  refine Setting.Wp.bind (Setting.Wp.attempt ((harmless_wp (harmless_of_tidies hp) h).mono
    (fun _ h => h) ?_ ?_))
  all_goals
    intro r t ht
    obtain ⟨e, he⟩ := hk _
    rw [he]
    exact fun u hr => ⟨ds, ht.stable hr⟩

theorem sync_wp {k : Unit → Prog storage ProtocolFailure Unit} (h : Bare original i ds s)
    (hk : ∀ t, Bare original i ds t → (replacementSetting E original i).Wp
      (Shared.Good original) (k ()) t Q (fun _ => AtWork original i)) :
    (replacementSetting E original i).Wp (Shared.Good original)
      (((syncRestoreDirectory handle).mapError (internal ·.message)).bind k) s Q
      (fun _ => AtWork original i) := by
  refine Setting.Wp.bind ((harmless_wp
    (harmless_of_tidies syncRestoreDirectory_tidies).mapError h).mono (fun _ h => h) ?_ ?_)
  · exact fun _ t ht => hk t ht
  · exact fun _ t ht => ⟨ds, ht⟩

theorem reopenLive_wp {what reopening : String} (h : Bare original i ds s) :
    (replacementSetting E original i).Wp (Shared.Good original) (reopenLive handle what reopening)
      s Q (fun _ => AtWork original i) := by
  unfold reopenLive
  simp only [Prog.bind_eq]
  refine harmless_call (.inl (by simp [StorageOp.Quiet])) h fun opened t ht => ?_
  cases opened with
  | error error => exact fun u hr => ⟨ds, ht.stable hr⟩
  | ok database =>
    refine harmless_call (.inl trivial) ht fun _ t ht => ?_
    refine cleanup_wp cleanupUncommittedRestore_tidies ?_ ht
    rintro (_ | _) <;> exact ⟨_, rfl⟩

theorem rollBackInstalled_wp {error : String} (h : Bare original i ds s) :
    (replacementSetting E original i).Wp (Shared.Good original) (rollBackInstalled handle error)
      s Q (fun _ => AtWork original i) := by
  unfold rollBackInstalled
  simp only [Prog.bind_eq]
  refine harmless_call (.inl (by simp [StorageOp.Quiet])) h fun removed t ht => ?_
  cases removed with
  | error removal => exact fun u hr => ⟨ds, ht.stable hr⟩
  | ok u =>
    refine Setting.Wp.bind ((harmless_wp (harmless_of_tidies removeSidecar_tidies) ht).mono
      (fun _ h => h) ?_ fun _ _ h => ⟨ds, h⟩)
    refine fun _ t ht => sync_wp ht fun t ht => ?_
    refine harmless_call (.inl (.inr ⟨rfl, rfl⟩)) ht fun moved t ht => ?_
    cases moved with
    | error rollback => exact fun u hr => ⟨ds, ht.stable hr⟩
    | ok u => exact sync_wp ht fun t ht => reopenLive_wp ht

end

/-- What runs under the mutex. -/
theorem installSnapshot_wp (h : Held original i content ds s) (hv : Deed.Validate ds content) :
    (replacementSetting E original i).Wp (Shared.Good original) (installSnapshot handle) s
      (fun _ => Bare original i (ds ++ [.installed content])) (fun _ => AtWork original i) := by
  unfold installSnapshot
  simp only [Prog.bind_eq]
  refine quiet_call trivial h fun slot t ht => ?_
  cases slot with
  | none => exact fun u hr => ⟨ds, (ht.stable hr).toBare⟩
  | some current =>
    refine quiet_call trivial ht fun checkpointed t ht => ?_
    cases checkpointed with
    | error error =>
      refine harmless_call (.inl trivial) ht.toBare fun _ t ht => ?_
      refine cleanup_wp cleanupUncommittedRestore_tidies ?_ ht
      rintro (_ | _) <;> exact ⟨_, rfl⟩
    | ok u =>
      refine quiet_call (.inl ⟨rfl, rfl⟩) ht fun moved t ht => ?_
      cases moved with
      | error error => exact reopenLive_wp ht.toBare
      | ok u =>
        refine Setting.Wp.bind ((quiet_wp syncRestoreDirectory_quiet ht).mono (fun _ h => h) ?_
          fun _ t ht => ⟨ds, ht.toBare⟩)
        intro _ t ht
        refine installCandidate_op ht hv (fun t ht => sync_wp ht fun t ht => ?_)
          fun error t ht => ?_
        · refine harmless_call (.inl (by simp [StorageOp.Quiet])) ht fun opened t ht => ?_
          cases opened with
          | error error => exact rollBackInstalled_wp ht
          | ok database =>
            refine harmless_call (.inl trivial) ht fun _ t ht => ?_
            exact (harmless_wp (harmless_of_tidies cleanupCommittedRestore_tidies) ht).mono
              (fun _ h => h) (fun _ _ h => h) fun _ _ h => ⟨_, h⟩
        · refine harmless_call (.inl (.inr ⟨rfl, rfl⟩)) ht.toBare fun moved t ht => ?_
          cases moved with
          | error rollback => exact fun u hr => ⟨ds, ht.stable hr⟩
          | ok u => exact sync_wp ht fun t ht => reopenLive_wp ht

theorem withGuard_wp {body : Prog storage ProtocolFailure Unit} (h : Held original i content ds s)
    (hbody : ∀ t, Held original i content ds t → (replacementSetting E original i).Wp
      (Shared.Good original) body t (fun _ => Bare original i ds') (fun _ => AtWork original i)) :
    (replacementSetting E original i).Wp (Shared.Good original) (withGuard body) s
      (fun _ => Bare original i ds') (fun _ => AtWork original i) := by
  unfold withGuard
  simp only [Prog.bind_eq]
  refine quiet_call trivial h fun _ t ht => Setting.Wp.bind (Setting.Wp.attempt
    ((hbody t ht).mono (fun _ h => h) ?_ ?_))
  · exact fun _ t ht => harmless_call (.inl trivial) ht fun _ t ht u hr => ht.stable hr
  · rintro e t ⟨ds, ht⟩
    exact harmless_call (.inl trivial) ht fun _ t ht u hr => ⟨ds, ht.stable hr⟩

/-- A failed call clears its candidate away, if it can. -/
theorem failed_wp {e : ProtocolFailure} {Q : Unit → Shared → Prop} (h : AtWork original i s) :
    (replacementSetting E original i).Wp (Shared.Good original)
      ((dropUnjournaledCandidate handle).bind fun _ => .fail e) s Q
      (fun _ => AtWork original i) := by
  obtain ⟨ds, h⟩ := h
  refine Setting.Wp.bind ((harmless_wp (harmless_of_tidies dropUnjournaledCandidate_tidies) h).mono
    (fun _ h => h) ?_ fun _ _ h => ⟨ds, h⟩)
  exact fun _ t ht u hr => ⟨ds, ht.stable hr⟩

/-- A call that succeeds wrote, validated and installed what it was given. -/
theorem restoreSnapshotWithOperations_wp (bytes : Bytes) (h : Bare original i [] s) :
    (replacementSetting E original i).Wp (Shared.Good original)
      (restoreSnapshotWithOperations K handle bytes) s
      (fun _ t => ∃ x, E.adopt bytes = .ok x ∧ Bare original i
        [.wrote bytes, .opened bytes, .checked bytes, .adopted bytes x, .installed x] t)
      (fun _ => AtWork original i) := by
  unfold restoreSnapshotWithOperations
  split
  · exact fun u hr => ⟨[], h.stable hr⟩
  simp only [Prog.bind_eq]
  refine Setting.Wp.bind ((harmless_wp (harmless_of_tidies
    cleanupUnjournaledRestoreCandidate_tidies).mapError h).mono (fun _ h => h) ?_
    fun _ _ h => ⟨[], h⟩)
  intro _ t ht
  refine Setting.Wp.bind ((harmless_wp (harmless_of_tidies (refuseLeftovers_tidies _)) ht).mono
    (fun _ h => h) ?_ fun _ _ h => ⟨[], h⟩)
  intro _ t ht
  refine Setting.Wp.bind (Setting.Wp.attempt (Setting.Wp.bind
    ((prepareSnapshot_wp bytes ht).mono (fun _ h => h) ?_ ?_)))
  · rintro _ t ⟨x, hx, ht⟩
    have hv : Deed.Validate [.wrote bytes, .opened bytes, .checked bytes, .adopted bytes x] x :=
      ⟨bytes, List.prefix_rfl⟩
    refine (withGuard_wp ht fun t ht => installSnapshot_wp ht hv).mono (fun _ h => h) ?_ ?_
    · exact fun _ t ht u hr => ⟨x, hx, ht.stable hr⟩
    · exact fun _ t ht => failed_wp ht
  · exact fun _ t ht => failed_wp ht

end

end

-- ---------------------------------------------------------------------------
-- All calls together
-- ---------------------------------------------------------------------------

namespace Replacing

variable {π : Type} {E : Engine} {K : Codec RestoreJournal} {handle : ManagedDatabase}
  {compile : π → Except ProtocolFailure Bytes} {original : Bytes} {r r' : Replacing π}

/-- A step in which no candidate is removed from under a call. -/
def Step (E : Engine) (K : Codec RestoreJournal) (handle : ManagedDatabase)
    (compile : π → Except ProtocolFailure Bytes) (r r' : Replacing π) : Prop :=
  ∃ a, r.careful a = true ∧ r.step E K handle compile a = some r'

/-- What call `i` did if it succeeds. -/
def Succeeded (E : Engine) (compile : π → Except ProtocolFailure Bytes)
    (given : Option (Replacement π)) (deeds : List Deed) : Prop :=
  ∃ replacement bytes x, given = some replacement ∧ replacement.bytes compile = .ok bytes ∧
    E.adopt bytes = .ok x ∧
    deeds = [.wrote bytes, .opened bytes, .checked bytes, .adopted bytes x, .installed x]

structure Inv (E : Engine) (compile : π → Except ProtocolFailure Bytes) (original : Bytes)
    (r : Replacing π) : Prop where
  good : r.pool.state.Good original
  safe : r.pool.Safe (replacementSetting E original) (Shared.Good original)
    (fun i _ s => Succeeded E compile (r.given i) (s.deeds i)) (fun _ _ _ => True)
  unused : ∀ i, r.given i = none → r.pool.threads i = none ∧ r.results i = none ∧
    r.pool.state.deeds i = []
  returned : ∀ i, r.results i = some (.ok ()) →
    Succeeded E compile (r.given i) (r.pool.state.deeds i)
  settled : ∀ i result, r.results i = some result → r.pool.threads i = none

/-- Starting or ending a call is nobody else's concern. -/
theorem rely_setRunning {s : Shared} {i j : Nat} {b : Bool} (hij : j ≠ i) :
    (replacementSetting E original j).rely s (setRunning s i b) := by
  refine ⟨⟨by simp [setRunning, hij], rfl, fun _ ho => ⟨ho, rfl⟩⟩, fun h => ?_⟩
  exact ⟨h.owned, h.database, h.backup⟩

theorem compatible (i j : Nat) (s t : Shared) (hij : i ≠ j)
    (h : (replacementSetting E original i).guar s t) :
    (replacementSetting E original j).rely s t := ⟨h.1 j (Ne.symm hij), h.2⟩

theorem inv_initial {site : Site} (h : site.view = .clean original slot locked) :
    (initial site : Replacing π).Inv E compile original where
  good := by
    refine ⟨fun _ => rfl, fun x hx => .inl ?_, fun x hx => ?_⟩
    · cases (congrArg View.database h).symm.trans hx
      rfl
    · cases (congrArg View.backup h).symm.trans hx
  safe i rest hi := by cases hi
  unused i _ := ⟨rfl, rfl, rfl⟩
  returned i hi := by cases hi
  settled i result hi := by cases hi

theorem Inv.start {i : Nat} {replacement : Replacement π} (h : r.Inv E compile original)
    (hs : r.step E K handle compile (.start i replacement) = some r') :
    r'.Inv E compile original := by
  simp only [step] at hs
  split at hs
  · cases hs
  rename_i hgiven
  obtain ⟨hthread, hresult, hdeeds⟩ := h.unused i (by simpa using hgiven)
  cases hs
  have hgood : (setRunning r.pool.state i true).Good original :=
    ⟨h.good.owned, h.good.database, h.good.backup⟩
  refine ⟨hgood, fun j rest hj => ?_, fun j hj => ?_, fun j hj => ?_, fun j result hj => ?_⟩
  · by_cases hij : j = i
    · subst hij
      simp only [Function.update_self, Option.some.injEq] at hj
      subst hj
      unfold Replacement.program
      cases hbytes : replacement.bytes compile with
      | error e => exact fun _ _ => trivial
      | ok bytes =>
        refine (restoreSnapshotWithOperations_wp bytes ⟨hgood, ?_, hdeeds⟩).mono (fun _ h => h) ?_
          fun _ _ _ => trivial
        · simp [setRunning]
        · rintro _ t ⟨x, hx, ht⟩
          exact ⟨replacement, bytes, x, by simp, hbytes, hx, ht.deeds⟩
    · have hj : r.pool.threads j = some rest := by simpa [hij] using hj
      simpa [hij] using (h.safe j rest hj).rely (rely_setRunning hij)
  · by_cases hij : j = i
    · simp [hij] at hj
    · simpa [hij, setRunning] using h.unused j (by simpa [hij] using hj)
  · by_cases hij : j = i
    · subst hij
      cases hresult.symm.trans hj
    · simpa [hij, setRunning] using h.returned j hj
  · by_cases hij : j = i
    · subst hij
      cases hresult.symm.trans hj
    · simpa [hij] using h.settled j result hj

theorem Inv.act {i : Nat} (h : r.Inv E compile original) (hcareful : r.careful (.act i) = true)
    (hs : r.step E K handle compile (.act i) = some r') : r'.Inv E compile original := by
  obtain ⟨pool, hact, rfl⟩ := Option.map_eq_some_iff.mp hs
  have hmay : ∀ o next, r.pool.threads i = some (.op o next) →
      (replacementSetting E original i).may o .ok r.pool.state := by
    intro o next ho
    refine ⟨rfl, ?_⟩
    rintro rfl j hj
    simpa [careful, ho, hj] using hcareful
  obtain ⟨hsafe, hguar⟩ := h.safe.act compatible hmay hact
  obtain ⟨o, next, ans, t, hi, hstep, rfl⟩ := Pool.act_cases hact
  have hother : ∀ j, r.pool.threads j = none → j ≠ i := by
    rintro j hj rfl
    cases hj.symm.trans hi
  refine ⟨hguar.2 h.good, hsafe, fun j hj => ?_, fun j hj => ?_, fun j result hj => ?_⟩
  · obtain ⟨hthread, hresult, hdeeds⟩ := h.unused j hj
    refine ⟨?_, hresult, (hguar.1 j (hother j hthread)).deeds.trans hdeeds⟩
    simpa [hother j hthread] using hthread
  · have hne := hother j (h.settled j _ hj)
    rw [(hguar.1 j hne).deeds]
    exact h.returned j hj
  · have hthread := h.settled j result hj
    simpa [hother j hthread] using hthread

theorem Inv.return {i : Nat} (h : r.Inv E compile original)
    (hs : r.step E K handle compile (.return i) = some r') : r'.Inv E compile original := by
  simp only [step, Option.bind_eq_bind, Option.bind_eq_some_iff] at hs
  obtain ⟨rest, hrest, result, hresult, hs⟩ := hs
  cases hs
  have hwp := h.safe i rest hrest
  refine ⟨⟨h.good.owned, h.good.database, h.good.backup⟩, fun j rest hj => ?_, fun j hj => ?_,
    fun j hj => ?_, fun j result hj => ?_⟩
  · by_cases hij : j = i
    · simp [hij] at hj
    · have hj : r.pool.threads j = some rest := by simpa [hij] using hj
      exact (h.safe j rest hj).rely (rely_setRunning hij)
  · have hne : j ≠ i := by
      rintro rfl
      cases (h.unused j hj).1.symm.trans hrest
    simpa [hne, setRunning] using h.unused j hj
  · by_cases hij : j = i
    · subst hij
      simp only [Function.update_self, Option.some.injEq] at hj
      subst hj
      cases rest with
      | pure u =>
        have hq := hwp r.pool.state ((replacementSetting E original j).rely_refl _)
        exact hq
      | fail e => cases hresult
      | op o next => cases hresult
    · exact h.returned j (by simpa [hij] using hj)
  · by_cases hij : j = i
    · simp [hij]
    · simpa [hij] using h.settled j result (by simpa [hij] using hj)

theorem reachable_of_run {acts : List (ReplacementAct π)}
    (h : r.run E K handle compile careful acts = some r') :
    ReflTransGen (Step E K handle compile) r r' := by
  induction acts generalizing r with
  | nil =>
    cases h
    exact .refl
  | cons a as ih =>
    simp only [run] at h
    split at h
    · rename_i hcareful
      obtain ⟨r₁, hs, h⟩ := Option.bind_eq_some_iff.mp h
      exact .head ⟨a, hcareful, hs⟩ (ih h)
    · cases h

theorem inv_of_reachable {site : Site} (hsite : site.view = .clean original slot locked)
    (h : ReflTransGen (Step E K handle compile) (initial site) r) : r.Inv E compile original := by
  induction h with
  | refl => exact inv_initial hsite
  | tail _ hstep ih =>
    obtain ⟨a, hcareful, hs⟩ := hstep
    cases a with
    | start i replacement => exact ih.start hs
    | act i => exact ih.act hcareful hs
    | «return» i => exact ih.return hs

end Replacing

/-- As long as no call removes the candidate of another call that has not
returned, replacements do not mix: what is found under the name of the Database
was there at first, or some call wrote it and opened, checked and adopted it
itself; and a call that returned success installed the bytes it was given. -/
theorem careful_replacements_do_not_mix (E : Engine) (K : Codec RestoreJournal)
    (handle : ManagedDatabase) (compile : π → Except ProtocolFailure Bytes) {site : Site}
    {original : Bytes} {r : Replacing π}
    (hsite : site.view = .clean original (some ⟨original⟩) false)
    (h : ReflTransGen (Replacing.Step E K handle compile) (.initial site) r) :
    (∀ x, r.pool.state.site.files .database = some (.file x) → x = original ∨
      ∃ i bytes, [.wrote bytes, .opened bytes, .checked bytes, .adopted bytes x] <+:
        r.pool.state.deeds i) ∧
    ∀ i, r.results i = some (.ok ()) → ∃ replacement bytes x,
      r.given i = some replacement ∧ replacement.bytes compile = .ok bytes ∧
      E.adopt bytes = .ok x ∧ r.pool.state.deeds i =
        [.wrote bytes, .opened bytes, .checked bytes, .adopted bytes x, .installed x] := by
  have hinv := Replacing.inv_of_reachable hsite h
  exact ⟨hinv.good.database, hinv.returned⟩

/-- Two calls at once: a snapshot is restored, and a package that does not compile
is refused. -/
def twoCalls : List (ReplacementAct Unit) :=
  .start 0 (.restoreSnapshot [1]) :: .start 1 (.importLogical ()) :: List.replicate 29 (.act 0) ++
    [.return 1, .return 0]

theorem careful_replacements_do_not_mix_two :
    ∃ r : Replacing Unit, (Replacing.initial (.resting [0])).run .plain
        RestoreJournal.format.codec ⟨"a", "/data/databases/a"⟩
        (fun _ => .error (internal "no such module")) Replacing.careful twoCalls = some r ∧
      r.results 0 = some (.ok ()) ∧ ∃ replacement bytes x, r.given 0 = some replacement ∧
        replacement.bytes (fun _ => .error (internal "no such module")) = .ok bytes ∧
        Engine.plain.adopt bytes = .ok x ∧ r.pool.state.deeds 0 =
          [.wrote bytes, .opened bytes, .checked bytes, .adopted bytes x, .installed x] := by
  have hrun : ((Replacing.initial (.resting [0])).run .plain
      RestoreJournal.format.codec ⟨"a", "/data/databases/a"⟩
      (fun _ => .error (internal "no such module")) Replacing.careful twoCalls).map (·.results 0) =
      some (some (.ok ())) := rfl
  obtain ⟨r, hr, hresult⟩ := Option.map_eq_some_iff.mp hrun
  exact ⟨r, hr, hresult, (careful_replacements_do_not_mix .plain RestoreJournal.format.codec
    ⟨"a", "/data/databases/a"⟩ _ rfl (Replacing.reachable_of_run hr)).2 0 hresult⟩

/-- A call is given one snapshot and writes it, another call clears it away and
writes its own, and the first installs that and reports success. The content was
never opened or checked by the call that wrote it. -/
theorem replacements_mix :
    ((Replacing.initial (.resting [0])).run .plain RestoreJournal.format.codec
      ⟨"a", "/data/databases/a"⟩ Empty.elim (fun _ _ => true)
      ([.start 0 (.restoreSnapshot [1]), .start 1 (.restoreSnapshot [2])] ++
        List.replicate 7 (.act 0) ++ List.replicate 13 (.act 1) ++ List.replicate 22 (.act 0) ++
        [.return 0])).map
      (fun r => (r.results 0, r.pool.state.site.files .database, r.pool.state.deeds 0,
        r.pool.state.deeds 1)) =
    some (some (.ok ()), some (.file [2]),
      [.wrote [1], .opened [2], .checked [2], .adopted [2] [2], .installed [2]], [.wrote [2]]) := rfl

end NostdbServer
