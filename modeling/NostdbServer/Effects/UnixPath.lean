import Mathlib.Data.List.Induction
import Mathlib.Data.List.TakeWhile

/-!
# Paths as `std::path` reads them on Unix

A path is a text. Its parts are what stands between the separators; a part that
is empty or a single dot does not count as a component, unless the dot comes
first. Two paths are compared by their components, so one path has many
spellings.
-/

namespace Effects

structure PathBuf where
  text : String
  deriving DecidableEq, Repr

inductive Component
  | rootDir
  | curDir
  | parentDir
  | normal (name : List Char)
  deriving DecidableEq, Repr

def Component.isNormal : Component → Bool
  | .normal _ => true
  | _ => false

/-- The extension of a file name, after its last dot; a leading dot does not
start one. -/
def extensionOf (name : List Char) : Option (List Char) :=
  match name.reverse.dropWhile (· ≠ '.') with
  | '.' :: _ :: _ => some (name.reverse.takeWhile (· ≠ '.')).reverse
  | _ => none

namespace PathBuf

def parts (p : PathBuf) : List (List Char) := p.text.toList.splitOn '/'

def isAbsolute (p : PathBuf) : Bool := p.text.toList.head? = some '/'

def redundant (part : List Char) : Bool := part = [] || part = ['.']

def component (part : List Char) : Component :=
  if part = ['.', '.'] then .parentDir else .normal part

def components (p : PathBuf) : List Component :=
  (if p.isAbsolute then [.rootDir] else if p.parts.head? = some ['.'] then [.curDir] else []) ++
    (p.parts.filter (!redundant ·)).map component

/-- `==` of the library -/
def same (p q : PathBuf) : Bool := p.components = q.components

def fileName (p : PathBuf) : Option (List Char) :=
  match p.components.getLast? with
  | some (.normal name) => some name
  | _ => none

def extension (p : PathBuf) : Option (List Char) := p.fileName.bind extensionOf

/-- The plain names among the components. -/
def names (p : PathBuf) : List String :=
  p.components.filterMap fun
    | .normal name => some (String.ofList name)
    | _ => none

/-- The components of `base.join(p)`. -/
def joined (base : List String) (p : PathBuf) : List Component :=
  if p.isAbsolute then p.components else base.map (.normal ·.toList) ++ p.components

/-- The spelling ends in a name. If it does not, the system takes it for a
directory. -/
def namesFile (p : PathBuf) : Bool := p.parts.getLast?.all (!redundant ·)

end PathBuf

/-- Where the components lead, from the root on and without links. -/
def resolve (components : List Component) : List String :=
  components.foldl (fun at_ c => match c with
    | .rootDir => []
    | .curDir => at_
    | .parentDir => at_.dropLast
    | .normal name => at_ ++ [String.ofList name]) []

-- ---------------------------------------------------------------------------
-- Extensions
-- ---------------------------------------------------------------------------

theorem extensionOf_append {stem ext : List Char} (hext : '.' ∉ ext) :
    extensionOf (stem ++ '.' :: ext) = if stem = [] then none else some ext := by
  have hplain : ∀ c ∈ ext.reverse, decide (c ≠ '.') = true := by
    intro c hc
    refine decide_eq_true ?_
    rintro rfl
    exact hext (List.mem_reverse.mp hc)
  have hreverse : (stem ++ '.' :: ext).reverse = ext.reverse ++ '.' :: stem.reverse := by simp
  unfold extensionOf
  rw [hreverse, List.dropWhile_append_of_pos hplain, List.takeWhile_append_of_pos hplain]
  simp only [ne_eq, not_true_eq_false, decide_false, Bool.false_eq_true, not_false_eq_true,
    List.dropWhile_cons_of_neg, List.takeWhile_cons_of_neg, List.append_nil, List.reverse_reverse]
  rcases List.eq_nil_or_concat stem with rfl | ⟨stem, c, rfl⟩
  · rfl
  · simp

theorem extensionOf_eq_some {name ext : List Char} :
    extensionOf name = some ext ↔ '.' ∉ ext ∧ ∃ stem, stem ≠ [] ∧ name = stem ++ '.' :: ext := by
  constructor
  · intro h
    unfold extensionOf at h
    split at h
    · rename_i c rest hdrop
      cases h
      refine ⟨fun hmem => ?_, (c :: rest).reverse, by simp, ?_⟩
      · simpa using List.mem_takeWhile_imp (List.mem_reverse.mp hmem)
      · calc name
          _ = (name.reverse.takeWhile (· ≠ '.') ++ name.reverse.dropWhile (· ≠ '.')).reverse := by
            rw [List.takeWhile_append_dropWhile, List.reverse_reverse]
          _ = (c :: rest).reverse ++ '.' :: (name.reverse.takeWhile (· ≠ '.')).reverse := by
            rw [hdrop, List.reverse_append, List.reverse_cons, List.append_assoc]
            rfl
    · cases h
  · rintro ⟨hext, stem, hstem, rfl⟩
    rw [extensionOf_append hext, if_neg hstem]

-- ---------------------------------------------------------------------------
-- Parts
-- ---------------------------------------------------------------------------

theorem not_mem_of_mem_splitOn [DecidableEq α] {sep : α} {xs part : List α}
    (h : part ∈ xs.splitOn sep) : sep ∉ part := by
  induction xs generalizing part with
  | nil =>
    rw [List.splitOn_nil, List.mem_singleton] at h
    simp [h]
  | cons x xs ih =>
    rw [List.splitOn_cons_eq_if_modifyHead] at h
    split at h
    · rcases List.mem_cons.mp h with rfl | h
      · simp
      · exact ih h
    · rename_i hx
      obtain ⟨first, rest, hsplit⟩ := List.exists_cons_of_ne_nil (List.splitOn_ne_nil sep xs)
      rw [hsplit, List.modifyHead_cons] at h
      rcases List.mem_cons.mp h with rfl | h
      · have hfirst : sep ∉ first := ih (by rw [hsplit]; exact List.mem_cons_self ..)
        rw [List.mem_cons, not_or]
        exact ⟨fun hsep => hx (beq_iff_eq.mpr hsep.symm), hfirst⟩
      · exact ih (by rw [hsplit]; exact List.mem_cons_of_mem _ h)

theorem head?_splitOn_eq_nil [DecidableEq α] {sep : α} {xs : List α} :
    (xs.splitOn sep).head? = some [] ↔ xs = [] ∨ xs.head? = some sep := by
  cases xs with
  | nil => simp
  | cons x xs =>
    rw [List.splitOn_cons_eq_if_modifyHead]
    obtain ⟨first, rest, hsplit⟩ := List.exists_cons_of_ne_nil (List.splitOn_ne_nil sep xs)
    by_cases hx : x = sep <;> simp [hx, hsplit]

namespace PathBuf

variable {p : PathBuf}

theorem parts_ne_nil (p : PathBuf) : p.parts ≠ [] := List.splitOn_ne_nil _ _

theorem intercalate_parts (p : PathBuf) : ['/'].intercalate p.parts = p.text.toList :=
  List.intercalate_splitOn _

/-- The path is relative and not empty exactly when its first part is not. -/
theorem head?_parts_eq_nil :
    p.parts.head? = some [] ↔ p.text.isEmpty = true ∨ p.isAbsolute = true := by
  rw [parts, head?_splitOn_eq_nil, isAbsolute]
  simp

theorem component_isNormal {part : List Char} :
    (component part).isNormal = true ↔ part ≠ ['.', '.'] := by
  unfold component
  split <;> simp_all [Component.isNormal]

/-- A relative path has only plain names as components. -/
theorem all_isNormal (h : p.isAbsolute = false) :
    p.components.all Component.isNormal = true ↔
      p.parts.head? ≠ some ['.'] ∧ ['.', '.'] ∉ p.parts := by
  have hrest : ((p.parts.filter (!redundant ·)).map component).all Component.isNormal = true ↔
      ['.', '.'] ∉ p.parts := by
    rw [List.all_map, List.all_eq_true]
    simp only [List.mem_filter, Function.comp_apply, component_isNormal]
    refine ⟨fun hall hmem => hall _ ⟨hmem, by decide⟩ rfl, ?_⟩
    rintro hnot part ⟨hmem, -⟩ rfl
    exact hnot hmem
  rw [components, h, List.all_append, Bool.and_eq_true, hrest]
  simp only [Bool.false_eq_true, ↓reduceIte]
  by_cases hdot : p.parts.head? = some ['.'] <;> simp [hdot, Component.isNormal]

theorem fileName_of_normal (habs : p.isAbsolute = false)
    (h : p.components.all Component.isNormal = true) :
    p.fileName = (p.parts.filter (!redundant ·)).getLast? := by
  obtain ⟨hdot, hup⟩ := (all_isNormal habs).mp h
  have hcomponents : p.components = (p.parts.filter (!redundant ·)).map .normal := by
    rw [components, habs]
    simp only [Bool.false_eq_true, ↓reduceIte, hdot, List.nil_append]
    refine List.map_congr_left fun part hpart => if_neg ?_
    rintro rfl
    exact hup (List.mem_filter.mp hpart).1
  rw [fileName, hcomponents, List.getLast?_map]
  cases (p.parts.filter (!redundant ·)).getLast? <;> rfl

/-- Plain names are all there is to such a path. -/
theorem components_eq_names (h : p.components.all Component.isNormal = true) :
    p.components = p.names.map (.normal ·.toList) := by
  unfold names
  generalize p.components = cs at h
  induction cs with
  | nil => rfl
  | cons c cs ih =>
    rw [List.all_cons, Bool.and_eq_true] at h
    cases c with
    | normal name =>
      simp only [List.filterMap_cons, List.map_cons, String.toList_ofList]
      exact congrArg _ (ih h.2)
    | _ => cases h.1

end PathBuf

theorem resolve_normal (names : List String) :
    resolve (names.map (.normal ·.toList)) = names := by
  induction names using List.reverseRecOn with
  | nil => rfl
  | append_singleton names name ih =>
    unfold resolve at ih ⊢
    rw [List.map_append, List.foldl_append, ih]
    simp

/-- A path of plain names leads below the place it is joined to. -/
theorem PathBuf.resolve_joined {p : PathBuf} {base : List String} (habs : p.isAbsolute = false)
    (h : p.components.all Component.isNormal = true) :
    resolve (p.joined base) = base ++ p.names := by
  rw [joined, habs, components_eq_names h]
  simp only [Bool.false_eq_true, ↓reduceIte]
  rw [← List.map_append, resolve_normal]

theorem PathBuf.resolve_dropLast {p : PathBuf} {base : List String} (habs : p.isAbsolute = false)
    (h : p.components.all Component.isNormal = true) (hne : p.names ≠ []) :
    resolve (p.joined base).dropLast = base ++ p.names.dropLast := by
  rw [joined, habs, components_eq_names h]
  simp only [Bool.false_eq_true, ↓reduceIte]
  rw [← List.map_append, ← List.map_dropLast, List.dropLast_append_of_ne_nil hne, resolve_normal]

end Effects
