import NostdbServer.Http.Snapshot

/-!
# Which module paths are accepted

The check looks at the components of a path and so passes over empty parts and
inner dots. A normalized path is accepted; the strings that are accepted without
being normalized are those with such a part after the first.
-/

namespace NostdbServer

open Effects PathBuf

/-- Names joined by single separators, the last one that of a `.nost` file. -/
def ModulePath (s : String) : Prop :=
  ∃ names : List (List Char), names ≠ [] ∧ s.toList = ['/'].intercalate names ∧
    (∀ name ∈ names, name ≠ [] ∧ name ≠ ['.'] ∧ name ≠ ['.', '.'] ∧ '/' ∉ name) ∧
    ∃ stem, stem ≠ [] ∧ names.getLast? = some (stem ++ ['.', 'n', 'o', 's', 't'])

/-- No part after the first is empty or a dot. -/
def Tidily (s : String) : Prop := ∀ part ∈ (PathBuf.mk s).parts.tail, redundant part = false

section
variable {s : String}

theorem modulePath_iff : ModulePath s ↔
    (∀ part ∈ (PathBuf.mk s).parts, redundant part = false ∧ part ≠ ['.', '.']) ∧
      ∃ stem, stem ≠ [] ∧ (PathBuf.mk s).parts.getLast? = some (stem ++ ['.', 'n', 'o', 's', 't']) := by
  constructor
  · rintro ⟨names, hne, hjoin, hnames, hlast⟩
    have hparts : (PathBuf.mk s).parts = names := by
      rw [parts, hjoin]
      exact List.splitOn_intercalate _ (fun name hname => (hnames name hname).2.2.2) hne
    rw [hparts]
    refine ⟨fun part hpart => ?_, hlast⟩
    obtain ⟨hnil, hdot, hup, -⟩ := hnames part hpart
    exact ⟨by simp [redundant, hnil, hdot], hup⟩
  · rintro ⟨hplain, hlast⟩
    refine ⟨_, parts_ne_nil _, (intercalate_parts _).symm, fun part hpart => ?_, hlast⟩
    obtain ⟨hred, hup⟩ := hplain part hpart
    have hred : part ≠ [] ∧ part ≠ ['.'] := by simpa [redundant] using hred
    exact ⟨hred.1, hred.2, hup, not_mem_of_mem_splitOn hpart⟩

theorem checkedModulePath_isOk {error : String → ε} : (checkedModulePath error s).isOk = true ↔
    (PathBuf.mk s).parts.head? ≠ some [] ∧ (PathBuf.mk s).parts.head? ≠ some ['.'] ∧
      ['.', '.'] ∉ (PathBuf.mk s).parts ∧ ∃ stem, stem ≠ [] ∧
        ((PathBuf.mk s).parts.filter (!redundant ·)).getLast? =
          some (stem ++ ['.', 'n', 'o', 's', 't']) := by
  have hok : (checkedModulePath error s).isOk = true ↔ s.isEmpty = false ∧
      (PathBuf.mk s).isAbsolute = false ∧
      (PathBuf.mk s).components.all Component.isNormal = true ∧
      (PathBuf.mk s).extension = some ['n', 'o', 's', 't'] := by
    unfold checkedModulePath
    dsimp only
    split
    · rename_i h
      refine iff_of_false (by simp [Except.isOk, Except.toBool]) fun ⟨hempty, habs, hall, hext⟩ => ?_
      simp only [hempty, habs, hext, ne_eq, not_true_eq_false, decide_false, Bool.or_false,
        Bool.false_or, List.any_eq_true, Bool.not_eq_eq_eq_not, Bool.not_true] at h
      obtain ⟨c, hc, hnot⟩ := h
      cases (List.all_eq_true.mp hall c hc).symm.trans hnot
    · rename_i h
      refine iff_of_true rfl ?_
      simpa [and_assoc] using h
  have hname : '.' ∉ ['n', 'o', 's', 't'] := by decide
  rw [hok]
  constructor
  · rintro ⟨hempty, habs, hall, hext⟩
    obtain ⟨hdot, hup⟩ := (all_isNormal habs).mp hall
    refine ⟨fun hnil => ?_, hdot, hup, ?_⟩
    · rcases head?_parts_eq_nil.mp hnil with h | h
      · cases hempty.symm.trans h
      · cases habs.symm.trans h
    · rw [extension, fileName_of_normal habs hall] at hext
      obtain ⟨name, hlast, hname⟩ := Option.bind_eq_some_iff.mp hext
      obtain ⟨-, stem, hstem, rfl⟩ := extensionOf_eq_some.mp hname
      exact ⟨stem, hstem, hlast⟩
  · rintro ⟨hnil, hdot, hup, stem, hstem, hlast⟩
    obtain ⟨hempty, habs⟩ := not_or.mp (mt head?_parts_eq_nil.mpr hnil)
    have habs : (PathBuf.mk s).isAbsolute = false := by simpa using habs
    have hall := (all_isNormal habs).mpr ⟨hdot, hup⟩
    refine ⟨by simpa using hempty, habs, hall, ?_⟩
    rw [extension, fileName_of_normal habs hall, hlast]
    exact extensionOf_eq_some.mpr ⟨hname, stem, hstem, rfl⟩

/-- A path in which every part counts is accepted exactly when it is one of the
grammar. -/
theorem checkedModulePath_of_tidily {error : String → ε} (h : Tidily s) :
    (checkedModulePath error s).isOk = true ↔ ModulePath s := by
  rw [checkedModulePath_isOk, modulePath_iff]
  obtain ⟨first, rest, hparts⟩ := List.exists_cons_of_ne_nil (parts_ne_nil ⟨s⟩)
  unfold Tidily at h
  rw [hparts] at h ⊢
  rw [List.tail_cons] at h
  have hfirst : redundant first = false ↔ first ≠ [] ∧ first ≠ ['.'] := by simp [redundant]
  constructor
  · rintro ⟨hnil, hdot, hup, hlast⟩
    have hplain : ∀ part ∈ first :: rest, redundant part = false :=
      List.forall_mem_cons.mpr ⟨hfirst.mpr ⟨by simpa using hnil, by simpa using hdot⟩, h⟩
    rw [List.filter_eq_self.mpr fun part hpart => by rw [hplain part hpart, Bool.not_false]] at hlast
    refine ⟨fun part hpart => ⟨hplain part hpart, ?_⟩, hlast⟩
    rintro rfl
    exact hup hpart
  · rintro ⟨hplain, hlast⟩
    have hhead := hfirst.mp (hplain first (List.mem_cons_self ..)).1
    refine ⟨by simpa using hhead.1, by simpa using hhead.2, fun hup => (hplain _ hup).2 rfl, ?_⟩
    rwa [List.filter_eq_self.mpr fun part hpart => by rw [(hplain part hpart).1, Bool.not_false]]

theorem tidily_of_modulePath (h : ModulePath s) : Tidily s := fun part hpart =>
  ((modulePath_iff.mp h).1 part (List.mem_of_mem_tail hpart)).1

end

end NostdbServer
