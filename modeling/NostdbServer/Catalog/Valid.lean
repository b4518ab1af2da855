import Mathlib.Data.String.Basic
import NostdbServer.Daemon.Lifecycle

/-!
# Valid catalogs

What `validate_catalog` accepts, and that the three lifecycle changes keep it.
-/

namespace NostdbServer

namespace Catalog

/-- What the loop checks of one entry by itself. -/
def Acceptable (entry : CatalogDatabase) : Prop :=
  parsesAsUuid entry.id = true ∧ validDatabaseName entry.name = true ∧ entry.state = "ready"

def Below (left right : CatalogDatabase) : Prop := left.name < right.name

instance : IsTrans CatalogDatabase Below := ⟨fun _ _ _ h h' => lt_trans (α := String) h h'⟩

structure Valid (catalog : Catalog) : Prop where
  version : catalog.catalogVersion = CATALOG_VERSION
  entries : ∀ entry ∈ catalog.databases, Acceptable entry
  ids : catalog.ids.Nodup
  sorted : catalog.databases.Pairwise Below

theorem Valid.names {catalog : Catalog} (h : catalog.Valid) : catalog.names.Nodup := by
  refine List.pairwise_map.mpr (h.sorted.imp ?_)
  intro left right hlt heq
  exact absurd heq (ne_of_lt hlt)

end Catalog

theorem validateEntries_ok {ids names : List String} {databases : List CatalogDatabase} :
    validateEntries ids names databases = .ok () ↔
      (∀ entry ∈ databases, Catalog.Acceptable entry ∧ entry.id ∉ ids ∧ entry.name ∉ names) ∧
      (databases.map (·.id)).Nodup ∧ (databases.map (·.name)).Nodup := by
  induction databases generalizing ids names with
  | nil => simp [validateEntries]
  | cons database rest ih =>
    unfold validateEntries
    split
    · rename_i h
      simp_all [Catalog.Acceptable]
    split
    · rename_i h
      simp_all [Catalog.Acceptable]
    split
    · rename_i h
      simp_all [Catalog.Acceptable]
    split
    · rename_i h
      simp only [reduceCtorEq, List.mem_cons, forall_eq_or_imp, false_iff, not_and]
      intro h'
      exact absurd h (by simpa using h'.1.2)
    · rename_i huuid hname hstate hdup
      rw [ih]
      simp only [Bool.not_eq_true', Bool.not_eq_false] at huuid hname
      simp only [ne_eq, not_not] at hstate
      simp only [List.mem_cons, not_or, forall_eq_or_imp, List.map_cons, List.nodup_cons,
        List.mem_map, not_exists, not_and, Catalog.Acceptable, huuid, hname, hstate, true_and] at *
      constructor
      · rintro ⟨hentries, hids, hnames⟩
        refine ⟨⟨hdup, fun e he => ?_⟩, ⟨fun e he => ?_, hids⟩, ⟨fun e he => ?_, hnames⟩⟩
        · obtain ⟨ha, ⟨-, hi⟩, -, hn⟩ := hentries e he
          exact ⟨ha, hi, hn⟩
        · exact (hentries e he).2.1.1
        · exact (hentries e he).2.2.1
      · rintro ⟨⟨-, hentries⟩, ⟨hi, hids⟩, ⟨hn, hnames⟩⟩
        refine ⟨fun e he => ?_, hids, hnames⟩
        obtain ⟨ha, hi', hn'⟩ := hentries e he
        exact ⟨ha, ⟨hi e he, hi'⟩, hn e he, hn'⟩

theorem sortedByName_iff {databases : List CatalogDatabase} :
    sortedByName databases = true ↔ databases.Pairwise Catalog.Below := by
  rw [← List.isChain_iff_pairwise]
  induction databases with
  | nil => simp [sortedByName]
  | cons left rest ih =>
    cases rest with
    | nil => simp [sortedByName]
    | cons right rest => simp [sortedByName, ih, Catalog.Below]

theorem validateCatalog_ok {catalog : Catalog} :
    validateCatalog catalog = .ok () ↔ catalog.Valid := by
  have hparts : validateCatalog catalog = .ok () ↔ catalog.catalogVersion = CATALOG_VERSION ∧
      validateEntries [] [] catalog.databases = .ok () ∧
      sortedByName catalog.databases = true := by
    unfold validateCatalog
    by_cases hversion : catalog.catalogVersion = CATALOG_VERSION
    · cases hv : validateEntries [] [] catalog.databases <;>
        by_cases hs : sortedByName catalog.databases = true <;>
        simp [hversion, hs, bind, Except.bind]
    · simp [hversion]
  rw [hparts, validateEntries_ok, sortedByName_iff]
  constructor
  · rintro ⟨hv, ⟨hentries, hids, -⟩, hsorted⟩
    exact ⟨hv, fun e he => (hentries e he).1, hids, hsorted⟩
  · intro h
    exact ⟨h.version, ⟨fun e he => ⟨h.entries e he, by simp, by simp⟩, h.ids, h.names⟩, h.sorted⟩

-- ---------------------------------------------------------------------------
-- The lifecycle changes
-- ---------------------------------------------------------------------------

namespace Catalog

variable {catalog : Catalog} {entry : CatalogDatabase} {id newName : String}

theorem sortByName_perm (databases : List CatalogDatabase) :
    (sortByName databases).Perm databases := List.perm_insertionSort _ _

/-- Sorting entries with distinct names puts each below the next. -/
theorem sortByName_below {databases : List CatalogDatabase}
    (h : (databases.map (·.name)).Nodup) : (sortByName databases).Pairwise Below := by
  have hle : (sortByName databases).Pairwise fun left right => left.name ≤ right.name :=
    List.pairwise_insertionSort (fun left right => left.name ≤ right.name) databases
  have hne : (sortByName databases).Pairwise fun left right => left.name ≠ right.name :=
    List.pairwise_map.mp (((sortByName_perm databases).map CatalogDatabase.name).nodup_iff.mpr h)
  exact (hle.and hne).imp fun h => lt_of_le_of_ne h.1 h.2

/-- A sorted catalog of acceptable, distinct entries is valid. -/
theorem valid_sortByName {databases : List CatalogDatabase}
    (hentries : ∀ entry ∈ databases, Acceptable entry) (hids : (databases.map (·.id)).Nodup)
    (hnames : (databases.map (·.name)).Nodup) :
    Valid ⟨CATALOG_VERSION, sortByName databases⟩ where
  version := rfl
  entries e he := hentries e ((sortByName_perm databases).mem_iff.mp he)
  ids := ((sortByName_perm databases).map _).nodup_iff.mpr hids
  sorted := sortByName_below hnames

theorem mem_add {e : CatalogDatabase} :
    e ∈ (catalog.add entry).databases ↔ e ∈ catalog.databases ∨ e = entry := by
  rw [add, (sortByName_perm _).mem_iff]
  simp

theorem Valid.add (h : catalog.Valid) (hentry : Acceptable entry) (hid : entry.id ∉ catalog.ids)
    (hname : entry.name ∉ catalog.names) : (catalog.add entry).Valid := by
  rw [Catalog.add, h.version]
  refine valid_sortByName ?_ ?_ ?_
  · intro e he
    rcases List.mem_append.mp he with he | he
    · exact h.entries e he
    · rw [List.mem_singleton.mp he]
      exact hentry
  · rw [List.map_append]
    exact h.ids.append (by simp) (by simpa using hid)
  · rw [List.map_append]
    exact h.names.append (by simp) (by simpa using hname)

theorem map_id_setName (databases : List CatalogDatabase) :
    (setName id newName databases).map (·.id) = databases.map (·.id) := by
  induction databases with
  | nil => rfl
  | cons entry rest ih =>
    unfold setName
    split
    · simp
    · simp [ih]

theorem mem_setName {e : CatalogDatabase} {databases : List CatalogDatabase}
    (h : e ∈ setName id newName databases) :
    e ∈ databases ∨ ∃ old ∈ databases, e = { old with name := newName } := by
  induction databases with
  | nil => simp [setName] at h
  | cons entry rest ih =>
    unfold setName at h
    split at h
    · rcases List.mem_cons.mp h with rfl | h
      · exact .inr ⟨entry, by simp, rfl⟩
      · exact .inl (by simp [h])
    · rcases List.mem_cons.mp h with rfl | h
      · exact .inl (by simp)
      · rcases ih h with he | ⟨old, hold, rfl⟩
        · exact .inl (by simp [he])
        · exact .inr ⟨old, by simp [hold], rfl⟩

theorem nodup_setName {databases : List CatalogDatabase}
    (h : (databases.map (·.name)).Nodup) (hnew : newName ∉ databases.map (·.name)) :
    ((setName id newName databases).map (·.name)).Nodup := by
  induction databases with
  | nil => simp [setName]
  | cons entry rest ih =>
    simp only [List.map_cons, List.nodup_cons, List.mem_cons, not_or] at h hnew
    unfold setName
    split
    · simpa using ⟨by simpa using hnew.2, h.2⟩
    · simp only [List.map_cons, List.nodup_cons]
      refine ⟨fun hmem => ?_, ih h.2 hnew.2⟩
      obtain ⟨e, he, hname⟩ := List.mem_map.mp hmem
      rcases mem_setName he with he | ⟨old, -, rfl⟩
      · exact h.1 (List.mem_map.mpr ⟨e, he, hname⟩)
      · exact hnew.1 hname

theorem ids_rename : (catalog.rename id newName).ids.Perm catalog.ids := by
  have h := ((sortByName_perm (setName id newName catalog.databases)).map CatalogDatabase.id)
  rwa [map_id_setName] at h

theorem Valid.rename (h : catalog.Valid) (hvalid : validDatabaseName newName = true)
    (hnew : newName ∉ catalog.names) : (catalog.rename id newName).Valid := by
  rw [Catalog.rename, h.version]
  refine valid_sortByName ?_ ?_ (nodup_setName h.names hnew)
  · intro e he
    rcases mem_setName he with he | ⟨old, hold, rfl⟩
    · exact h.entries e he
    · exact ⟨(h.entries old hold).1, hvalid, (h.entries old hold).2.2⟩
  · rw [map_id_setName]
    exact h.ids

theorem mem_remove {e : CatalogDatabase} :
    e ∈ (catalog.remove id).databases ↔ e ∈ catalog.databases ∧ e.id ≠ id := by
  simp [remove]

theorem Valid.remove (h : catalog.Valid) : (catalog.remove id).Valid where
  version := h.version
  entries e he := h.entries e (mem_remove.mp he).1
  ids := h.ids.sublist (List.filter_sublist.map _)
  sorted := h.sorted.sublist List.filter_sublist

end Catalog

end NostdbServer
