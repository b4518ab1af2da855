import NostdbServer.Catalog.Valid

/-!
# The catalog as a map

A valid catalog is a map from names to identifiers, kept as a sorted list. The
three lifecycle changes, each an edit of the list, are single updates of it.
-/

namespace NostdbServer

namespace Catalog

variable {c : Catalog} {name newName id : String} {entry existing : CatalogDatabase}

/-- The catalog as a map from names to identifiers. -/
def idOf? (c : Catalog) (name : String) : Option String := (c.byName? name).map (·.id)

theorem Valid.eq_of_name {left right : CatalogDatabase} (h : c.Valid)
    (hl : left ∈ c.databases) (hr : right ∈ c.databases) (hname : left.name = right.name) :
    left = right :=
  List.inj_on_of_nodup_map h.names hl hr hname

theorem Valid.eq_of_id {left right : CatalogDatabase} (h : c.Valid)
    (hl : left ∈ c.databases) (hr : right ∈ c.databases) (hid : left.id = right.id) :
    left = right :=
  List.inj_on_of_nodup_map h.ids hl hr hid

theorem mem_of_byName? (h : c.byName? name = some entry) :
    entry ∈ c.databases ∧ entry.name = name :=
  ⟨List.mem_of_find?_eq_some h, by simpa using List.find?_some h⟩

theorem Valid.idOf?_eq_some (h : c.Valid) :
    c.idOf? name = some id ↔ ∃ entry ∈ c.databases, entry.name = name ∧ entry.id = id := by
  constructor
  · intro hid
    obtain ⟨entry, hentry, rfl⟩ := Option.map_eq_some_iff.mp hid
    exact ⟨entry, (mem_of_byName? hentry).1, (mem_of_byName? hentry).2, rfl⟩
  · rintro ⟨entry, hmem, rfl, rfl⟩
    cases hfound : c.byName? entry.name with
    | none => exact absurd hmem (by simpa using List.find?_eq_none.mp hfound entry)
    | some found =>
      obtain ⟨hmem', hname⟩ := mem_of_byName? hfound
      rw [idOf?, hfound, h.eq_of_name hmem' hmem hname]
      rfl

theorem idOf?_eq_none (h : name ∉ c.names) : c.idOf? name = none := by
  rw [idOf?, Option.map_eq_none_iff]
  refine List.find?_eq_none.mpr fun entry hentry heq => h ?_
  exact List.mem_map.mpr ⟨entry, hentry, by simpa using heq⟩

theorem Valid.idOf?_add (h : c.Valid) (hadd : (c.add entry).Valid) (hname : entry.name ∉ c.names) :
    (c.add entry).idOf? = Function.update c.idOf? entry.name (some entry.id) := by
  funext name
  ext id
  rw [Function.update_apply, hadd.idOf?_eq_some]
  simp only [mem_add]
  split
  · rename_i heq
    subst heq
    constructor
    · rintro ⟨e, he | rfl, hn, rfl⟩
      · exact absurd (List.mem_map.mpr ⟨e, he, hn⟩) hname
      · rfl
    · rintro ⟨⟩
      exact ⟨entry, .inr rfl, rfl, rfl⟩
  · rename_i hne
    rw [h.idOf?_eq_some]
    constructor
    · rintro ⟨e, he | rfl, hn, hid⟩
      · exact ⟨e, he, hn, hid⟩
      · exact absurd hn.symm hne
    · rintro ⟨e, he, hn, hid⟩
      exact ⟨e, .inl he, hn, hid⟩

theorem Valid.idOf?_remove (h : c.Valid) (hentry : c.byName? name = some entry) :
    (c.remove entry.id).idOf? = Function.update c.idOf? name none := by
  obtain ⟨hmem, rfl⟩ := mem_of_byName? hentry
  funext name
  ext id
  rw [Function.update_apply, h.remove.idOf?_eq_some]
  simp only [mem_remove]
  split
  · rename_i heq
    subst heq
    constructor
    · rintro ⟨e, ⟨he, hne⟩, hn, -⟩
      exact absurd (congrArg CatalogDatabase.id (h.eq_of_name he hmem hn)) hne
    · rintro ⟨⟩
  · rename_i hne
    rw [h.idOf?_eq_some]
    constructor
    · rintro ⟨e, ⟨he, -⟩, hn, hid⟩
      exact ⟨e, he, hn, hid⟩
    · rintro ⟨e, he, rfl, hid⟩
      exact ⟨e, ⟨he, fun hsame => hne (congrArg _ (h.eq_of_id he hmem hsame))⟩, rfl, hid⟩

theorem mem_setName_iff {databases : List CatalogDatabase} (h : (databases.map (·.id)).Nodup) :
    entry ∈ setName id newName databases ↔
      (entry ∈ databases ∧ entry.id ≠ id) ∨
        ∃ old ∈ databases, old.id = id ∧ entry = { old with name := newName } := by
  induction databases with
  | nil => simp [setName]
  | cons first rest ih =>
    simp only [List.map_cons, List.nodup_cons] at h
    have hrest : ∀ e ∈ rest, first.id ≠ e.id := by
      intro e he heq
      exact h.1 (heq ▸ List.mem_map_of_mem he)
    unfold setName
    split
    · rename_i hid
      subst hid
      constructor
      · intro he
        rcases List.mem_cons.mp he with rfl | he
        · exact .inr ⟨first, by simp, rfl, rfl⟩
        · exact .inl ⟨by simp [he], (hrest _ he).symm⟩
      · rintro (⟨he, hne⟩ | ⟨old, hold, hid, rfl⟩)
        · rcases List.mem_cons.mp he with rfl | he
          · exact absurd rfl hne
          · simp [he]
        · rcases List.mem_cons.mp hold with rfl | hold
          · simp
          · exact absurd hid.symm (hrest _ hold)
    · rename_i hid
      rw [List.mem_cons, ih h.2]
      constructor
      · rintro (rfl | ⟨he, hne⟩ | ⟨old, hold, hold', rfl⟩)
        · exact .inl ⟨by simp, hid⟩
        · exact .inl ⟨by simp [he], hne⟩
        · exact .inr ⟨old, by simp [hold], hold', rfl⟩
      · rintro (⟨he, hne⟩ | ⟨old, hold, hold', rfl⟩)
        · rcases List.mem_cons.mp he with rfl | he
          · exact .inl rfl
          · exact .inr (.inl ⟨he, hne⟩)
        · rcases List.mem_cons.mp hold with rfl | hold
          · exact absurd hold' hid
          · exact .inr (.inr ⟨old, hold, hold', rfl⟩)

theorem Valid.idOf?_rename (h : c.Valid) (hexisting : c.byName? name = some existing)
    (hnew : newName ∉ c.names) (hrename : (c.rename existing.id newName).Valid) :
    (c.rename existing.id newName).idOf? =
      Function.update (Function.update c.idOf? name none) newName (some existing.id) := by
  obtain ⟨hmem, rfl⟩ := mem_of_byName? hexisting
  have hentry : ∀ e, e ∈ (c.rename existing.id newName).databases ↔
      (e ∈ c.databases ∧ e.id ≠ existing.id) ∨ e = { existing with name := newName } := by
    intro e
    rw [Catalog.rename, (sortByName_perm _).mem_iff, mem_setName_iff h.ids]
    refine or_congr_right ⟨?_, fun he => ⟨existing, hmem, rfl, he⟩⟩
    rintro ⟨old, hold, hid, rfl⟩
    rw [h.eq_of_id hold hmem hid]
  funext name
  ext id
  rw [Function.update_apply, Function.update_apply, hrename.idOf?_eq_some]
  simp only [hentry]
  split
  · rename_i heq
    subst heq
    constructor
    · rintro ⟨e, ⟨he, -⟩ | rfl, hn, rfl⟩
      · exact absurd (List.mem_map.mpr ⟨e, he, hn⟩) hnew
      · rfl
    · rintro ⟨⟩
      exact ⟨_, .inr rfl, rfl, rfl⟩
  · rename_i hne
    split
    · rename_i heq
      subst heq
      constructor
      · rintro ⟨e, ⟨he, hid⟩ | rfl, hn, -⟩
        · exact absurd (congrArg CatalogDatabase.id (h.eq_of_name he hmem hn)) hid
        · exact absurd hn.symm hne
      · rintro ⟨⟩
    · rename_i hother
      rw [h.idOf?_eq_some]
      constructor
      · rintro ⟨e, ⟨he, -⟩ | rfl, hn, hid⟩
        · exact ⟨e, he, hn, hid⟩
        · exact absurd hn.symm hne
      · rintro ⟨e, he, rfl, hid⟩
        exact ⟨e, .inl ⟨he, fun hsame => hother (congrArg _ (h.eq_of_id he hmem hsame))⟩, rfl, hid⟩

end Catalog

end NostdbServer
