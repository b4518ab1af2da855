import NostdbServer.Daemon.Lifecycle
import NostdbServer.Restore.Rules

/-!
# One Database among the others

What a program on one Database leaves alone: every other entry of the data
directory, every other handle, the catalog. A `Wp` about the Site of the
Database is one about the daemon, with that frame around it.
-/

namespace NostdbServer

open Effects

namespace Daemon

variable {d d' d'' : Daemon} {id i : String} {s : Site}

@[simp] theorem entry_set (d : Daemon) (p q : RootPath) (n : Option Entry) :
    (rootFiles.set d p n).entry q = if q = p then n else d.entry q :=
  rootFiles.get_set d p q n

@[simp] theorem memory_set (d : Daemon) (p : RootPath) (n : Option Entry) :
    (rootFiles.set d p n).memory = d.memory := rfl

@[simp] theorem issued_set (d : Daemon) (p : RootPath) (n : Option Entry) :
    (rootFiles.set d p n).issued = d.issued := rfl

@[simp] theorem entry_setHandle (d : Daemon) (id : String) (h : Handle) (p : RootPath) :
    (d.setHandle id h).entry p = d.entry p := rfl

theorem hasDirectory_iff {p : RootPath} :
    d.hasDirectory p = true ↔ ∃ files, d.entry p = some (.directory files) := by
  unfold hasDirectory
  split
  · rename_i files h
    simp [h]
  · rename_i h
    simp only [Bool.false_eq_true, false_iff, not_exists]
    exact h

theorem hasDirectory_congr {p : RootPath} (h : d'.entry p = d.entry p) :
    d'.hasDirectory p = d.hasDirectory p := by
  simp [hasDirectory, h]

@[simp] theorem hasDirectory_setHandle (d : Daemon) (id : String) (h : Handle) (p : RootPath) :
    (d.setHandle id h).hasDirectory p = d.hasDirectory p := rfl

theorem filesOf_eq {files : DbFiles} (h : d.entry (.database id) = some (.directory files)) :
    d.filesOf id = files := by
  simp [filesOf, h]

theorem entry_putSite (hd : d.hasDirectory (.database id) = true) (p : RootPath) :
    (d.putSite id s).entry p =
      if p = .database id then some (.directory s.files) else d.entry p := by
  simp [putSite, hd]

theorem entry_putSite_of_files (hs : s.files = d.filesOf id) : (d.putSite id s).entry = d.entry := by
  funext p
  by_cases hd : d.hasDirectory (.database id) = true
  · obtain ⟨files, hf⟩ := hasDirectory_iff.mp hd
    rw [entry_putSite hd, hs, filesOf_eq hf]
    split
    · rename_i hp
      rw [hp, hf]
    · rfl
  · simp [putSite, hd]

theorem memory_putSite : (d.putSite id s).memory =
    { d.memory with handles := Function.update d.memory.handles id ⟨s.slot, s.locked⟩ } := by
  unfold putSite
  split <;> rfl

theorem issued_putSite : (d.putSite id s).issued = d.issued := by
  unfold putSite
  split <;> rfl

theorem site_putSite (hd : d.hasDirectory (.database id) = true) :
    (d.putSite id s).site id = s := by
  simp [site, filesOf, entry_putSite hd, memory_putSite]

/-- Only Databases in `P` changed, and no directory came or went. -/
structure Within (P : String → Prop) (d d' : Daemon) : Prop where
  entry : ∀ p, (∀ id, p = .database id → P id → d.hasDirectory p = false) → d'.entry p = d.entry p
  hasDirectory : ∀ p, d'.hasDirectory p = d.hasDirectory p
  handles : ∀ id, ¬ P id → d'.memory.handles id = d.memory.handles id
  memory : { d'.memory with handles := d.memory.handles } = d.memory
  issued : d'.issued = d.issued

namespace Within

variable {P P' : String → Prop}

theorem refl (d : Daemon) : Within P d d := ⟨fun _ _ => rfl, fun _ => rfl, fun _ _ => rfl, rfl, rfl⟩

theorem trans (h : Within P d d') (h' : Within P d' d'') : Within P d d'' where
  entry p hp := by
    have hp' : ∀ id, p = .database id → P id → d'.hasDirectory p = false := by
      intro id hid hP
      rw [h.hasDirectory, hp id hid hP]
    rw [h'.entry p hp', h.entry p hp]
  hasDirectory p := (h'.hasDirectory p).trans (h.hasDirectory p)
  handles id hid := (h'.handles id hid).trans (h.handles id hid)
  memory := by
    have hm := h.memory
    have hm' := h'.memory
    rw [← hm'] at hm
    exact hm
  issued := h'.issued.trans h.issued

theorem mono (h : Within P d d') (hP : ∀ id, P id → P' id) : Within P' d d' where
  entry p hp := h.entry p fun id hid hi => hp id hid (hP id hi)
  hasDirectory := h.hasDirectory
  handles id hid := h.handles id fun hi => hid (hP id hi)
  memory := h.memory
  issued := h.issued

/-- Where nothing changed, the Site is the same. -/
theorem site (h : Within P d d') (hi : ¬ P i) : d'.site i = d.site i := by
  have he : d'.entry (.database i) = d.entry (.database i) := by
    refine h.entry _ ?_
    rintro id ⟨⟩ hP
    exact absurd hP hi
  simp [Daemon.site, filesOf, he, h.handles i hi]

end Within

theorem within_putSite (hd : d.hasDirectory (.database id) = true) :
    Within (· = id) d (d.putSite id s) where
  entry p hp := by
    rw [entry_putSite hd, if_neg]
    rintro rfl
    rw [hp id rfl rfl] at hd
    cases hd
  hasDirectory p := by
    by_cases h : p = .database id
    · subst h
      rw [hd]
      exact hasDirectory_iff.mpr ⟨_, by rw [entry_putSite hd, if_pos rfl]⟩
    · exact hasDirectory_congr (by rw [entry_putSite hd, if_neg h])
  handles i hi := by simp [memory_putSite, hi]
  memory := by simp [memory_putSite]
  issued := issued_putSite

theorem mem_listing : id ∈ d.listing ↔ (d.entry (.database id)).isSome = true := by
  have hkeys : id ∈ d.listing ↔ .database id ∈ d.disk.keys := by
    simp only [listing, List.mem_filterMap]
    constructor
    · rintro ⟨p, hp, h⟩
      split at h
      · cases h
        exact hp
      · cases h
    · intro h
      exact ⟨_, h, rfl⟩
  rw [hkeys, entry, AList.lookup_isSome]
  rfl

theorem listing_nodup (d : Daemon) : d.listing.Nodup := by
  refine d.disk.keys_nodup.filterMap ?_
  intro p q id hp hq
  split at hp
  · cases hp
    split at hq
    · cases hq
      rfl
    · cases hq
  · cases hp

end Daemon

/-- The daemon used by one caller at a time, with the outcomes `may` allows. -/
def daemonSetting (E : Engine) (uuids : Nat → String) (may : Outcome → Prop) :
    Setting daemon Outcome Daemon :=
  (daemonWorld E uuids).alone fun _ c => may c

section
variable {E : Engine} {uuids : Nat → String} {may : Outcome → Prop} {d : Daemon} {id : String}

/-- A storage step where the directory exists is a step of its Site. -/
theorem storage_step_cases {o : StorageOp} {ans : o.Ans} {d' : Daemon}
    (hd : d.hasDirectory (.database id) = true)
    (h : (daemonWorld E uuids).step (.storage id o) c d = some (ans, d')) :
    ∃ s, Site.step E o c (d.site id) = some (ans, s) ∧ d' = d.putSite id s := by
  change Daemon.step E uuids (.storage id o) c d = some (ans, d') at h
  simp only [Daemon.step, Daemon.outcomeAt, hd, if_true] at h
  obtain ⟨⟨ans', s⟩, hs, hr⟩ := Option.map_eq_some_iff.mp h
  cases hr
  exact ⟨s, hs, rfl⟩

theorem embeds_storage (hd : d.hasDirectory (.database id) = true) :
    Setting.Embeds (storageSetting E may) (daemonSetting E uuids may) (.storage id)
      (fun _ ans => ans) fun s t => t.site id = s ∧ Daemon.Within (· = id) d t where
  rely := by
    rintro s t _ ⟨rfl, hw⟩ rfl
    exact ⟨_, rfl, rfl, hw⟩
  step := by
    rintro _ t o c ans t' ⟨rfl, hw⟩ hm hs
    have hdt : t.hasDirectory (.database id) = true := (hw.hasDirectory _).trans hd
    obtain ⟨s', hs', rfl⟩ := storage_step_cases hdt hs
    exact ⟨hm, trivial, s', hs', Daemon.site_putSite hdt, hw.trans (Daemon.within_putSite hdt)⟩

theorem inside_wp {p : Prog storage ε α} {C : Site → Prop} {Q : α → Site → Prop}
    {F : ε → Site → Prop} (hd : d.hasDirectory (.database id) = true)
    (h : (storageSetting E may).Wp C p (d.site id) Q F) :
    (daemonSetting E uuids may).Wp (fun t => Daemon.Within (· = id) d t ∧ C (t.site id))
      (inside id p) d (fun a t => Daemon.Within (· = id) d t ∧ Q a (t.site id))
      (fun e t => Daemon.Within (· = id) d t ∧ F e (t.site id)) := by
  refine (Setting.Wp.lift (embeds_storage hd) h ⟨rfl, .refl d⟩).mono ?_ ?_ ?_
  · rintro t ⟨_, ⟨rfl, hw⟩, hc⟩
    exact ⟨hw, hc⟩
  · rintro a t ⟨_, ⟨rfl, hw⟩, hq⟩
    exact ⟨hw, hq⟩
  · rintro e t ⟨_, ⟨rfl, hw⟩, hf⟩
    exact ⟨hw, hf⟩

end

end NostdbServer
