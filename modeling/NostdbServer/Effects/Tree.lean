import Mathlib.Data.List.Infix
import NostdbServer.Effects.Exec
import NostdbServer.Effects.Files

/-!
# Trees of files

A file system as far as the names in it go: a path is the list of its
components from the root, without links, and every entry but the root has a
directory above it (`Rooted`). Beside the steps on files there are those on
directories. `createDirAll` makes every directory that is missing on the way; it
can stop after any of them. The directories it has made so far are kept in
`made`, for statements about them.
-/

namespace Effects

abbrev Path := List String

instance : LawfulBEq Path := inferInstance

inductive TreeNode
  | file (bytes : Bytes)
  | directory
  deriving DecidableEq, Repr

instance : FileLike TreeNode where
  ofBytes := .file
  bytes?
    | .file b => some b
    | .directory => none
  bytes?_ofBytes _ := rfl

structure FileTree where
  nodes : AList fun _ : Path => TreeNode
  made : List Path

inductive TreeOp
  | file (o : FileOp Path)
  | inspect (p : Path)
  | firstEntry (p : Path)
  | createDirAll (p : Path)
  | createDir (p : Path)
  | removeDir (p : Path)

def TreeOp.Ans : TreeOp → Type
  | .file o => o.Ans
  | .inspect _ | .createDirAll _ | .createDir _ | .removeDir _ => Except IoError Unit
  | .firstEntry _ => Except IoError (Option String)

def IoError.notADirectory : IoError := ⟨.other, "Not a directory (os error 20)"⟩
def IoError.notEmpty : IoError := ⟨.other, "Directory not empty (os error 39)"⟩

namespace FileTree

def get (t : FileTree) (p : Path) : Option TreeNode := t.nodes.lookup p

def files : Volume FileTree Path TreeNode where
  get := get
  set t p n := { t with nodes := Volume.ofAList.set t.nodes p n }
  get_set t p q n := Volume.ofAList.get_set t.nodes p q n

/-- A name in the directory `p`. -/
def child? (t : FileTree) (p : Path) : Option String :=
  t.nodes.keys.findSome? fun q => if q.dropLast = p then q.getLast? else none

/-- A file stands on the way to `p`. -/
def blocked (t : FileTree) (p : Path) : Bool :=
  p.dropLast.inits.any fun q => ((t.get q).bind FileLike.bytes?).isSome

/-- The directories to be made for `p` to be there. -/
def missing (t : FileTree) (p : Path) : List Path := p.inits.filter fun q => (t.get q).isNone

def makeAll (t : FileTree) (ps : List Path) : FileTree :=
  { ps.foldl (fun t p => files.set t p (some .directory)) t with made := t.made ++ ps }

def inspect (p : Path) (c : Outcome) (t : FileTree) : Except IoError Unit :=
  match c.error? with
  | some e => .error e
  | none =>
    if t.blocked p then .error .notADirectory
    else if (t.get p).isSome then .ok () else .error .notFound

def firstEntry (p : Path) (c : Outcome) (t : FileTree) : Except IoError (Option String) :=
  match c.error?, t.get p with
  | some e, _ => .error e
  | none, none => .error .notFound
  | none, some (.file _) => .error .notADirectory
  | none, some .directory => .ok (t.child? p)

def createDirAll (p : Path) (c : Outcome) (t : FileTree) : Except IoError Unit × FileTree :=
  if t.blocked p then (.error .notADirectory, t)
  else match t.get p, c with
    | some (.file _), _ => (.error .alreadyExists, t)
    | some .directory, _ => (.ok (), t)
    | none, .ok => (.ok (), t.makeAll (t.missing p))
    | none, .fail m => (.error ⟨.other, m⟩, t)
    | none, .torn n m => (.error ⟨.other, m⟩, t.makeAll ((t.missing p).dropLast.take n))

def createDir (p : Path) (c : Outcome) (t : FileTree) : Except IoError Unit × FileTree :=
  match c.error?, t.get p with
  | some e, _ => (.error e, t)
  | none, some _ => (.error .alreadyExists, t)
  | none, none =>
    if t.get p.dropLast = some .directory then (.ok (), files.set t p (some .directory))
    else (.error .notFound, t)

def removeDir (p : Path) (c : Outcome) (t : FileTree) : Except IoError Unit × FileTree :=
  match c.error?, t.get p with
  | some e, _ => (.error e, t)
  | none, none => (.error (if t.blocked p then .notADirectory else .notFound), t)
  | none, some (.file _) => (.error .notADirectory, t)
  | none, some .directory =>
    if (t.child? p).isSome then (.error .notEmpty, t) else (.ok (), files.set t p none)

/-- A file is created only in a directory that is there. -/
def outcomeAt (t : FileTree) (p : Path) (c : Outcome) : Outcome :=
  if t.get p.dropLast = some .directory then c else .fail IoError.notFound.message

/-- `fs::write`: a file that is there is overwritten. -/
def write (p : Path) (bytes : Bytes) (c : Outcome) (t : FileTree) : Except IoError Unit × FileTree :=
  if t.get p = some .directory then (.error .isDirectory, t)
  else match t.outcomeAt p c with
    | .ok => (.ok (), files.set t p (some (.file bytes)))
    | .fail m => (.error ⟨.other, m⟩, t)
    | .torn n m => (.error ⟨.other, m⟩, files.set t p (some (.file (bytes.take n))))

def step (t : FileTree) : (o : TreeOp) → Outcome → o.Ans × FileTree
  | .file (.createNew p bytes), c => files.step (.createNew p bytes) (t.outcomeAt p c) t
  | .file o, c => files.step o c t
  | .inspect p, c => (t.inspect p c, t)
  | .firstEntry p, c => (t.firstEntry p c, t)
  | .createDirAll p, c => t.createDirAll p c
  | .createDir p, c => t.createDir p c
  | .removeDir p, c => t.removeDir p c

end FileTree

-- ---------------------------------------------------------------------------
-- The tree as a function
-- ---------------------------------------------------------------------------

structure TreeView where
  get : Path → Option TreeNode
  made : List Path

def FileTree.view (t : FileTree) : TreeView := ⟨t.get, t.made⟩

/-- Every entry but the root has a directory above it. -/
structure Rooted (e : Path → Option TreeNode) : Prop where
  root : e [] = some .directory
  parent : ∀ p name, (e (p ++ [name])).isSome = true → e p = some .directory

theorem Rooted.above {e : Path → Option TreeNode} (h : Rooted e) {p r : Path} (hr : r ≠ [])
    (hp : (e (p ++ r)).isSome = true) : e p = some .directory := by
  induction r using List.reverseRecOn with
  | nil => exact absurd rfl hr
  | append_singleton r name ih =>
    rw [← List.append_assoc] at hp
    have hparent := h.parent _ name hp
    by_cases hr : r = []
    · rwa [hr, List.append_nil] at hparent
    · exact ih hr (by rw [hparent]; rfl)

namespace TreeView

def set (v : TreeView) (p : Path) (n : Option TreeNode) : TreeView :=
  { v with get := Function.update v.get p n }

/-- The paths are directories now, and known to be made. -/
def makeAll (v : TreeView) (ps : List Path) : TreeView :=
  ⟨fun p => if p ∈ ps then some .directory else v.get p, v.made ++ ps⟩

@[simp] theorem set_get (v : TreeView) (p q : Path) (n : Option TreeNode) :
    (v.set p n).get q = if q = p then n else v.get q := Function.update_apply _ _ _ _

@[simp] theorem set_made (v : TreeView) (p : Path) (n : Option TreeNode) :
    (v.set p n).made = v.made := rfl

end TreeView

namespace FileTree

variable {t t' : FileTree} {p q : Path} {c : Outcome}

theorem get_set (t : FileTree) (p q : Path) (n : Option TreeNode) :
    (files.set t p n).get q = if q = p then n else t.get q :=
  files.get_set t p q n

@[simp] theorem view_set (t : FileTree) (p : Path) (n : Option TreeNode) :
    (files.set t p n).view = t.view.set p n := by
  unfold view TreeView.set
  congr 1
  funext q
  rw [get_set, Function.update_apply]

theorem get_foldl (ps : List Path) :
    (ps.foldl (fun t p => files.set t p (some .directory)) t).get q =
      if q ∈ ps then some .directory else t.get q := by
  induction ps generalizing t with
  | nil => simp
  | cons p ps ih =>
    rw [List.foldl_cons, ih, get_set]
    by_cases hq : q = p <;> by_cases hps : q ∈ ps <;> simp [hq, hps]

@[simp] theorem view_makeAll (t : FileTree) (ps : List Path) :
    (t.makeAll ps).view = t.view.makeAll ps := by
  unfold view TreeView.makeAll
  congr 1
  funext q
  exact get_foldl ps

theorem child?_eq_none : t.child? p = none ↔ ∀ name, t.get (p ++ [name]) = none := by
  unfold child?
  rw [List.findSome?_eq_none_iff]
  constructor
  · intro h name
    by_contra hne
    have hmem : p ++ [name] ∈ t.nodes.keys :=
      AList.lookup_isSome.mp (Option.isSome_iff_ne_none.mpr hne)
    simpa using h _ hmem
  · intro h q hq
    split
    · rename_i hp
      cases hlast : q.getLast? with
      | none => rfl
      | some name =>
        have hsplit : q = p ++ [name] := by
          rw [← hp]
          exact (List.dropLast_append_getLast? name hlast).symm
        have hsome := AList.lookup_isSome.mpr hq
        rw [hsplit] at hsome
        have hnone : t.nodes.lookup (p ++ [name]) = none := h name
        rw [hnone] at hsome
        cases hsome
    · rfl

theorem mem_missing : q ∈ t.missing p ↔ q <+: p ∧ t.get q = none := by
  rw [missing, List.mem_filter, List.mem_inits, Option.isNone_iff_eq_none]

/-- Nothing is on the list twice, and `p` itself comes last. -/
theorem missing_eq (hp : t.get p = none) :
    ∃ ps, t.missing p = ps ++ [p] ∧ ∀ q ∈ ps, q <+: p ∧ q ≠ p ∧ t.get q = none := by
  induction p using List.reverseRecOn with
  | nil => exact ⟨[], by simp [missing, hp], by simp⟩
  | append_singleton p name _ =>
    refine ⟨t.missing p, ?_, ?_⟩
    · simp [missing, List.inits_append, hp]
    · intro q hq
      obtain ⟨hpre, hnone⟩ := List.mem_filter.mp hq
      have hpre := (List.mem_inits q p).mp hpre
      refine ⟨hpre.trans (List.prefix_append _ _), ?_, by simpa using hnone⟩
      rintro rfl
      exact absurd hpre.length_le (by simp)

/-- What `create_dir_all` can do. -/
theorem createDirAll_cases (h : t.createDirAll p c = (r, t')) :
    (t' = t ∧ (t.get p = some .directory ∧ r = .ok () ∨ ∃ e, r = .error e)) ∨
    (t.get p = none ∧ (∀ q, q <+: p → t.get q = none ∨ t.get q = some .directory) ∧
      ((r = .ok () ∧ t' = t.makeAll (t.missing p)) ∨
        ∃ e ps, r = .error e ∧ ps <+: (t.missing p).dropLast ∧ t' = t.makeAll ps)) := by
  unfold createDirAll at h
  split at h
  · cases h
    exact .inl ⟨rfl, .inr ⟨_, rfl⟩⟩
  · rename_i hblocked
    have hfree : t.get p = none → ∀ q, q <+: p → t.get q = none ∨ t.get q = some .directory := by
      intro hp q hq
      by_cases hqp : q = p
      · exact .inl (hqp ▸ hp)
      · have hq : q ∈ p.dropLast.inits := by
          rw [List.mem_inits]
          obtain ⟨r, rfl⟩ := hq
          have hr : r ≠ [] := by
            rintro rfl
            simp at hqp
          rw [List.dropLast_append_of_ne_nil hr]
          exact List.prefix_append _ _
        simp only [blocked, List.any_eq_true, not_exists, not_and] at hblocked
        have hfile := hblocked q hq
        cases hn : t.get q with
        | none => exact .inl rfl
        | some n =>
          cases n with
          | file b => simp [hn, FileLike.bytes?] at hfile
          | directory => exact .inr rfl
    split at h
    · cases h
      exact .inl ⟨rfl, .inr ⟨_, rfl⟩⟩
    · rename_i hp
      cases h
      exact .inl ⟨rfl, .inl ⟨hp, rfl⟩⟩
    · rename_i hp
      cases h
      exact .inr ⟨hp, hfree hp, .inl ⟨rfl, rfl⟩⟩
    · cases h
      exact .inl ⟨rfl, .inr ⟨_, rfl⟩⟩
    · rename_i n m hp
      cases h
      exact .inr ⟨hp, hfree hp, .inr ⟨_, _, rfl, List.take_prefix _ _, rfl⟩⟩

theorem write_cases {bytes : Bytes} (h : t.write p bytes c = (r, t')) :
    (t' = t ∧ ∃ e, r = .error e) ∨
      (t.get p ≠ some .directory ∧ ((r = .ok () ∧ t' = files.set t p (some (.file bytes))) ∨
        ∃ e n, r = .error e ∧ t' = files.set t p (some (.file (bytes.take n))))) := by
  unfold write at h
  split at h
  · cases h
    exact .inl ⟨rfl, _, rfl⟩
  · rename_i hp
    split at h
    · cases h
      exact .inr ⟨hp, .inl ⟨rfl, rfl⟩⟩
    · cases h
      exact .inl ⟨rfl, _, rfl⟩
    · cases h
      exact .inr ⟨hp, .inr ⟨_, _, rfl, rfl⟩⟩

theorem createDir_cases (h : t.createDir p c = (r, t')) :
    (t' = t ∧ ∃ e, r = .error e) ∨
      (t.get p = none ∧ r = .ok () ∧ t' = files.set t p (some .directory)) := by
  unfold createDir at h
  split at h
  · cases h
    exact .inl ⟨rfl, _, rfl⟩
  · cases h
    exact .inl ⟨rfl, _, rfl⟩
  · rename_i hp
    split at h
    · cases h
      exact .inr ⟨hp, rfl, rfl⟩
    · cases h
      exact .inl ⟨rfl, _, rfl⟩

theorem removeDir_cases (h : t.removeDir p .ok = (r, t')) :
    (t' = t ∧ (t.get p = none ∨ (∃ b, t.get p = some (.file b)) ∨ ∃ name, (t.get (p ++ [name])).isSome)) ∨
      (t.get p = some .directory ∧ r = .ok () ∧ t' = files.set t p none) := by
  unfold removeDir at h
  simp only [Outcome.error?] at h
  split at h
  · rename_i he
    cases he
  · rename_i hp
    cases h
    exact .inl ⟨rfl, .inl hp⟩
  · rename_i b _ hp
    cases h
    exact .inl ⟨rfl, .inr (.inl ⟨b, hp⟩)⟩
  · rename_i hp
    split at h
    · rename_i hchild
      cases h
      refine .inl ⟨rfl, .inr (.inr ?_)⟩
      by_contra hnone
      simp only [not_exists, Bool.not_eq_true, Option.isSome_eq_false_iff,
        Option.isNone_iff_eq_none] at hnone
      rw [child?_eq_none.mpr hnone] at hchild
      cases hchild
    · cases h
      exact .inr ⟨hp, rfl, rfl⟩

end FileTree

/-- A file system with these directories and nothing else. -/
def topLevel (names : List String) : FileTree :=
  { FileTree.makeAll ⟨∅, []⟩ ([] :: names.map ([·])) with made := [] }

theorem rooted_topLevel (names : List String) : Rooted (topLevel names).get := by
  have hget : ∀ p, (topLevel names).get p =
      if p ∈ [] :: names.map ([·]) then some .directory else none := fun p =>
    congrArg (TreeView.get · p) (FileTree.view_makeAll ⟨∅, []⟩ ([] :: names.map ([·])))
  refine ⟨by simp [hget], fun p name h => ?_⟩
  obtain ⟨a, -, ha⟩ : ∃ a, a ∈ names ∧ [a] = p ++ [name] := by simpa [hget] using h
  have hp : p = [] := by
    have hlength := congrArg List.length ha
    rw [List.length_append, List.length_singleton, List.length_singleton] at hlength
    exact List.length_eq_zero_iff.mp (by omega)
  simp [hget, hp]

end Effects
