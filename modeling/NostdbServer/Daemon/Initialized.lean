import NostdbServer.Daemon.Rollback

/-!
# What a failed initialization leaves behind

The rollback takes back the files and directories the call knows of. What it
does not know of are the directories that `create_dir_all` made on the way to the
data directory and to the configuration file. A failed call restores the file
system exactly when there are none of these.
-/

namespace NostdbServer

open Effects World

section
variable {e : Path → Option TreeNode} {root : Path} {o : Inside} {v : TreeView} {existed : Bool}

-- ---------------------------------------------------------------------------
-- Laying out the data directory
-- ---------------------------------------------------------------------------

theorem laid_concat (rs : List Path) (r : Path) :
    Function.update (laid rs) r (some .directory) = laid (rs ++ [r]) := by
  funext r'
  by_cases he : r' = r
  · simp [he, laid]
  · simp [laid, Function.update_of_ne he, he]

theorem createLayout_lays {current : Path} {F : ε → TreeView → Prop} (names : List String)
    (rs : List Path) (h : At e root (laid rs) v) :
    Inits current (createLayout root names (rs.map (root ++ ·))) v
      (fun result w => ∃ made, made <+: names ∧
        result.2 = (rs ++ made.map ([·])).map (root ++ ·) ∧
        At e root (laid (rs ++ made.map ([·]))) w ∧ (result.1 = none → made = names)) F := by
  induction names generalizing rs v with
  | nil => exact Exec.pure ⟨[], List.prefix_rfl, by simp, by simpa using h, fun _ => rfl⟩
  | cons name names ih =>
    refine Inits.createDir (fun _ => ?_) fun _ => ?_
    · have hat := h.set [name] (some .directory)
      rw [laid_concat] at hat
      have hcreated : rs.map (root ++ ·) ++ [root ++ [name]] = (rs ++ [[name]]).map (root ++ ·) := by
        simp
      dsimp only
      rw [hcreated]
      refine (ih _ hat).mono (fun _ h => h) ?_ fun _ _ hf => hf
      rintro result w ⟨made, hmade, hcreated, hw, hall⟩
      refine ⟨name :: made, List.cons_prefix_cons.mpr ⟨rfl, hmade⟩, ?_, ?_, fun hn => ?_⟩
      · simpa using hcreated
      · simpa using hw
      · rw [hall hn]
    · exact Exec.pure ⟨[], List.nil_prefix, by simp, by simpa using h, fun hn => by cases hn⟩

section
variable {current : Path} {d : DataDirectory} {f : RootPath} {r : Path}

theorem At.undone (h : At e root o v) (hr : o r = none) (n : Option TreeNode) :
    At e root o ((v.set (root ++ r) n).set (root ++ r) none) := by
  have hat := (h.set r n).set r none
  rwa [Function.update_idem, ← hr, Function.update_eq_self, hr] at hat

/-- A file of the catalog store that is written, or not there. -/
theorem writeJsonNew_writes {bytes : Bytes} (hf : f.under root = root ++ r) (h : At e root o v)
    (hr : o r = none) :
    Inits current (inStore root (writeJsonNew d f bytes)) v
      (fun _ w => At e root (Function.update o r (some (.file bytes))) w)
      fun _ w => At e root o w := by
  refine Inits.storeCreate (fun _ => ?_) (fun _ => ?_) fun n _ _ => ?_
  · rw [hf]
    exact Exec.pure (h.set r _)
  · exact Exec.fail h
  · refine Inits.storeRemove (fun _ _ => ?_) fun _ hstuck => ?_
    · rw [hf]
      exact Exec.fail (h.undone hr _)
    · rw [TreeView.set_get, if_pos rfl] at hstuck
      rcases hstuck with hs | hs <;> cases hs

theorem installPending_installs {bytes : Bytes}
    (h : At e root (Function.update o ["server-state.pending"] (some (.file bytes))) v)
    (hpending : o ["server-state.pending"] = none) (hstate : o ["server-state"] = none)
    (hprevious : o ["server-state.previous"] = none) :
    Inits current (inStore root (installPending d true)) v
      (fun _ w => At e root (Function.update o ["server-state"] (some (.file bytes))) w)
      fun _ w => At e root o w := by
  have hundo {w : TreeView} {r : Path} {n : Option TreeNode} (hr : o r = none)
      (hw : At e root (Function.update o r n) w) : At e root o (w.set (root ++ r) none) := by
    have hset := hw.set r none
    rwa [Function.update_idem, ← hr, Function.update_eq_self, hr] at hset
  unfold installPending
  refine Inits.storeRename (by simp) (fun n hn => ?_) fun _ => ?_
  · have hn : some n = some (TreeNode.file bytes) := by
      rw [← hn]
      exact (h.inside ["server-state.pending"]).trans (Function.update_self ..)
    cases hn
    have hat : At e root (Function.update o ["server-state"] (some (.file bytes)))
        ((v.set (root ++ ["server-state.pending"]) none).set (root ++ ["server-state"])
          (some (.file bytes))) := (hundo hpending h).set _ _
    refine Inits.storeAttempt (P := fun _ w =>
      At e root (Function.update o ["server-state"] (some (.file bytes))) w) (G := fun _ w =>
      At e root (Function.update o ["server-state"] (some (.file bytes))) w)
      (Inits.storeSync ?_) ?_ ?_
    · rintro (_ | _)
      · exact Exec.fail hat
      · exact Exec.pure hat
    · intro _ w hw
      have hnone : w.get (RootPath.previous.under root) = none := by
        refine (hw.inside ["server-state.previous"]).trans ?_
        rw [Function.update_of_ne (by decide), hprevious]
      refine Inits.storeAttempt (P := fun _ w' => w' = w) (G := fun _ w' => w' = w)
        (Inits.storeRemove (fun b hb => ?_) fun e _ => ?_) ?_ ?_
      · cases hnone.symm.trans hb
      · dsimp only
        split
        · exact Exec.pure rfl
        · exact Exec.fail rfl
      · rintro _ _ rfl
        exact Exec.pure hw
      · rintro _ _ rfl
        exact Exec.pure hw
    · intro _ w hw
      refine Inits.storeRemove (fun _ _ => Exec.fail (hundo hstate hw)) fun _ hstuck => ?_
      have hfile : w.get (RootPath.serverState.under root) = some (.file bytes) :=
        (hw.inside ["server-state"]).trans (Function.update_self ..)
      rw [hfile] at hstuck
      rcases hstuck with hs | hs <;> cases hs
  · refine Inits.storeRemove (fun _ _ => Exec.fail (hundo hpending h)) fun _ hstuck => ?_
    have hfile : v.get (RootPath.pending.under root) = some (.file bytes) :=
      (h.inside ["server-state.pending"]).trans (Function.update_self ..)
    rw [hfile] at hstuck
    rcases hstuck with hs | hs <;> cases hs

theorem writeAtomic_writes {catalog : Catalog} (h : At e root o v)
    (hpending : o ["server-state.pending"] = none) (hstate : o ["server-state"] = none)
    (hprevious : o ["server-state.previous"] = none) :
    Inits current (inStore root (writeAtomic d catalog true)) v
      (fun _ w => ∃ bytes, At e root (Function.update o ["server-state"] (some (.file bytes))) w)
      fun _ w => At e root o w := by
  unfold writeAtomic
  refine Inits.storeSeq (writeJsonNew_writes rfl h hpending) (fun _ w hw => ?_) fun _ _ hf => hf
  refine Inits.storeExists ?_
  have hnone : w.get (RootPath.serverState.under root) = none := by
    refine (hw.inside ["server-state"]).trans ?_
    rw [Function.update_of_ne (by decide), hstate]
  rw [hnone]
  exact (installPending_installs hw hpending hstate hprevious).mono (fun _ h => h)
    (fun _ _ hat => ⟨_, hat⟩) fun _ _ hf => hf

theorem layOut_lays {libraries : InitLibraries} (hvacant : Vacant e root existed)
    (h : At e root (laid []) v) :
    Inits current (layOut libraries root existed) v
      (fun _ w => ∃ bytes,
        At e root (Function.update (laid layoutNames) ["server-state"] (some (.file bytes))) w)
      fun _ w => Back e root w := by
  have hback {w : TreeView} {error : ServerError} {names : List String}
      (hw : At e root (laid (names.map ([·]))) w) {Q : Unit → TreeView → Prop} :
      Inits current (failAfter error "catalog initialization" (rollbackCreatedDirectories root
        existed ((names.map ([·])).map (root ++ ·)))) w Q fun _ w => Back e root w := by
    refine failAfter_keeps (rollbackCreatedDirectories_back hvacant hw fun r hr => ?_)
    obtain ⟨name, -, rfl⟩ := List.mem_map.mp hr
    rfl
  unfold layOut
  refine Exec.seq (createLayout_lays layoutDirectories [] h) ?_ fun _ _ hf => hf
  rintro ⟨failure, created⟩ w ⟨made, -, rfl, hw, hall⟩
  rw [List.nil_append] at hw
  cases failure with
  | some error => exact hback hw
  | none =>
    obtain rfl := hall rfl
    refine Exec.attempt ((writeAtomic_writes hw ?_ ?_ ?_).mono (fun _ h => h) ?_ ?_)
    · decide
    · decide
    · decide
    · exact fun _ _ hat => Exec.pure hat
    · exact fun _ _ hat => hback hat

-- The same steps below a directory that was made on the way to the root.

theorem createLayout_stays {F : ε → TreeView → Prop} (hq : q.length < root.length)
    (names : List String) (created : List Path) (hcreated : ∀ p ∈ created, p ≠ q)
    (h : Stays q v) :
    Inits current (createLayout root names created) v
      (fun result w => Stays q w ∧ ∀ p ∈ result.2, p ≠ q) F := by
  induction names generalizing created v with
  | nil => exact Exec.pure ⟨h, hcreated⟩
  | cons name names ih =>
    refine Inits.createDir (fun _ => ?_) fun _ => ?_
    · refine ih _ ?_ (h.set (above_ne hq [name]) _)
      intro p hp
      rcases List.mem_append.mp hp with hp | hp
      · exact hcreated p hp
      · rw [List.mem_singleton.mp hp]
        exact above_ne hq [name]
    · exact Exec.pure ⟨h, hcreated⟩

theorem layOut_stays {libraries : InitLibraries} (hq : q.length < root.length) (h : Stays q v) :
    Inits current (layOut libraries root existed) v (fun _ w => Stays q w)
      fun _ w => Stays q w := by
  have hroot : root ≠ q := by simpa using above_ne hq []
  unfold layOut
  refine Exec.seq (createLayout_stays hq _ [] (by simp) h) ?_ fun _ _ hf => hf
  rintro ⟨failure, created⟩ w ⟨hw, hcreated⟩
  have hback : ∀ error, (failAfter error "catalog initialization"
      (rollbackCreatedDirectories root existed created) : Prog init ServerError Unit).Only
      (InitOp.Spares q) :=
    fun _ => failAfter_spares (rollbackCreatedDirectories_spares hcreated hroot)
  cases failure with
  | some error => exact stays_inits (hback error) hw
  | none =>
    refine stays_inits ((writeAtomic_spares hq).attempt.bind ?_) hw
    rintro (_ | _)
    · exact hback _
    · trivial

/-- A directory stays that was not there before and that the rollback does not
know of. -/
def Stray (e : Path → Option TreeNode) (root : Path) (v : TreeView) : Prop :=
  ∃ q, Stays q v ∧ Strange root q ∧ e q = none

theorem Stray.inits {p : Prog init ε α} (h : Stray e root v)
    (hp : ∀ q, Strange root q → p.Only (InitOp.Spares q)) :
    Inits current p v (fun _ w => Stray e root w) fun _ w => Stray e root w := by
  obtain ⟨q, hstays, hq, he⟩ := h
  exact (stays_inits (hp q hq) hstays).mono (fun _ h => h) (fun _ _ hw => ⟨q, hw, hq, he⟩)
    fun _ _ hw => ⟨q, hw, hq, he⟩

theorem At.makeAll (h : At e root o v) (hr : r = [] ∨ r = credentialsName) {ps : List Path}
    (hps : ps ≠ []) (hall : ∀ q ∈ ps, q = root ++ r) :
    At e root (Function.update o r (some .directory)) (v.makeAll ps) := by
  have hmem : ∀ q, q ∈ ps ↔ q = root ++ r := by
    refine fun q => ⟨hall q, ?_⟩
    rintro rfl
    obtain ⟨q, hq⟩ := List.exists_mem_of_ne_nil ps hps
    exact hall q hq ▸ hq
  have hget : (v.makeAll ps).get = (v.set (root ++ r) (some .directory)).get := by
    funext q
    rw [TreeView.set_get]
    simp only [TreeView.makeAll, hmem]
  have hset := h.set r (some .directory)
  refine ⟨fun r' => ?_, fun p hp => ?_, fun q hq => ?_, fun q hq hne => ?_⟩
  · rw [hget, hset.inside]
  · rw [hget, hset.outside p hp]
  · rcases List.mem_append.mp hq with hq | hq
    · exact h.made q hq
    · rcases hr with rfl | rfl
      · exact .inl (by simpa using hall q hq)
      · exact .inr (hall q hq)
  · rw [hget, hset.above q hq hne]

theorem vacant_of_absent (hrooted : Rooted e) (h : e root = none) : Vacant e root false := by
  refine ⟨h, fun r hr => ?_⟩
  by_contra hne
  cases h.symm.trans (hrooted.above hr (Option.isSome_iff_ne_none.mpr hne))

theorem vacant_of_empty (hrooted : Rooted e) (h : e root = some .directory)
    (hempty : ∀ name, e (root ++ [name]) = none) : Vacant e root true := by
  refine ⟨h, fun r hr => ?_⟩
  obtain ⟨name, rest, rfl⟩ := List.exists_cons_of_ne_nil hr
  by_contra hne
  have hsome := Option.isSome_iff_ne_none.mpr hne
  by_cases hrest : rest = []
  · subst hrest
    exact hne (hempty name)
  · rw [List.append_cons] at hsome
    cases (hempty name).symm.trans (hrooted.above hrest hsome)

/-- Creating an absent root: a directory above it is new as well, or the root
alone is. -/
theorem Inits.createRoot {Q : β → TreeView → Prop} {F : ε → TreeView → Prop}
    {k : Except IoError Unit → Prog init ε β} (hvacant : Vacant e root false) (hget : v.get = e)
    (hmade : v.made = []) (hfail : ∀ error, Inits current (k (.error error)) v Q F)
    (habove : ∀ r q w, q.length < root.length → e q = none → Stays q w →
      Inits current (k r) w Q F)
    (hat : ∀ w, At e root (laid []) w → Inits current (k (.ok ())) w Q F) :
    Inits current ((onTree (.createDirAll root)).bind k) v Q F := by
  have hnone : e root = none := hvacant.top
  refine Inits.createDirAll (fun hd => ?_) hfail fun hfree r ps hps hnew hr => ?_
  · rw [hget, hnone] at hd
    cases hd
  by_cases hother : ∃ q ∈ ps, q ≠ root
  · obtain ⟨q, hq, hne⟩ := hother
    refine habove r q _ ?_ (hget ▸ (hnew q hq).2)
      ⟨by simp [TreeView.makeAll, hq], List.mem_append_right _ hq⟩
    exact lt_of_le_of_ne (hnew q hq).1.length_le fun hl => hne ((hnew q hq).1.eq_of_length hl)
  · have hall : ∀ q ∈ ps, q = root := fun q hq => by
      by_contra hne
      exact hother ⟨q, hq, hne⟩
    have hroot : root ∈ ps := by
      obtain ⟨q, hq⟩ := List.exists_mem_of_ne_nil ps hps
      exact hall q hq ▸ hq
    obtain ⟨rfl, hmissing⟩ := hr.resolve_right (absurd hroot)
    have hbefore : At e root (fun _ => none) v := by
      refine ⟨fun r => ?_, fun p _ => by rw [hget], by simp [hmade], fun q hq hne => ?_⟩
      · rw [hget]
        by_cases hr : r = []
        · rw [hr, List.append_nil, hnone]
        · exact hvacant.below r hr
      · refine (hfree q hq).resolve_left fun hn => hne (hall q (hmissing q hq hn))
    have hlaid : Function.update (fun _ => none) [] (some .directory) = laid [] := by
      funext r
      by_cases hr : r = [] <;> simp [laid, hr]
    refine hat _ ?_
    rw [← hlaid]
    exact hbefore.makeAll (.inl rfl) hps fun q hq => by rw [hall q hq, List.append_nil]

theorem initializeStore_lays {libraries : InitLibraries} (hrooted : Rooted e) (hget : v.get = e)
    (hmade : v.made = []) :
    Inits current (initializeStore libraries root) v
      (fun _ w => (Vacant e root (e root).isSome ∧ ∃ bytes,
        At e root (Function.update (laid layoutNames) ["server-state"] (some (.file bytes))) w) ∨
        Stray e root w)
      fun _ w => Back e root w ∨ Stray e root w := by
  have hsame : Back e root v := ⟨fun p => by rw [hget], by simp [hmade]⟩
  have hlay {existed : Bool} {w : TreeView} (hvacant : Vacant e root existed)
      (hw : At e root (laid []) w) :
      Inits current (layOut libraries root existed) w
        (fun _ w => (Vacant e root existed ∧ ∃ bytes,
          At e root (Function.update (laid layoutNames) ["server-state"] (some (.file bytes))) w) ∨
          Stray e root w)
        fun _ w => Back e root w ∨ Stray e root w :=
    (layOut_lays hvacant hw).mono (fun _ h => h) (fun _ _ hw => .inl ⟨hvacant, hw⟩)
      fun _ _ hw => .inl hw
  unfold initializeStore
  refine Inits.pathExists ?_
  rw [hget]
  cases hroot : (e root).isSome with
  | true =>
    refine Inits.firstEntry (fun hd hempty => ?_) (fun _ => Exec.fail (.inl hsame))
      fun _ => Exec.fail (.inl hsame)
    rw [hget] at hd hempty
    have hvacant := vacant_of_empty hrooted hd hempty
    refine hlay hvacant ⟨fun r => ?_, fun p _ => by rw [hget], by simp [hmade], fun q hq hne => ?_⟩
    · by_cases hr : r = []
      · simpa [hr, laid, hget] using hd
      · simpa [laid, hr, hget] using hvacant.below r hr
    · obtain ⟨r, rfl⟩ := hq
      rw [hget]
      refine hrooted.above ?_ hroot
      rintro rfl
      exact hne (by simp)
  | false =>
    have hnone : e root = none := by simpa using hroot
    have hvacant := vacant_of_absent hrooted hnone
    refine Inits.createRoot hvacant hget hmade (fun _ => ?_) (fun r q w hq he hw => ?_)
      fun w hw => hlay hvacant hw
    · refine failAfter_keeps (Inits.removeDir (fun _ hd => ?_) fun r _ => ?_)
      · rw [hget, hvacant.top] at hd
        cases hd
      · exact reportFailures_keeps (.inl hsame)
    · have hstray : ∀ w, Stays q w → Stray e root w := fun w hw =>
        ⟨q, hw, strange_of_above hq, he⟩
      have hmono {p : Prog init ServerError Unit}
          (h : Inits current p w (fun _ w => Stays q w) fun _ w => Stays q w) :
          Inits current p w (fun _ w => (Vacant e root false ∧ ∃ bytes,
            At e root (Function.update (laid layoutNames) ["server-state"] (some (.file bytes))) w) ∨
            Stray e root w) fun _ w => Back e root w ∨ Stray e root w :=
        h.mono (fun _ h => h) (fun _ w hw => .inr (hstray w hw)) fun _ w hw => .inr (hstray w hw)
      cases r with
      | ok _ => exact hmono (layOut_stays hq hw)
      | error _ =>
        exact hmono (stays_inits (failAfter_spares (rollbackCreatedDirectories_spares (by simp)
          (by simpa using above_ne hq []))) hw)

-- ---------------------------------------------------------------------------
-- The credentials and the configuration
-- ---------------------------------------------------------------------------

theorem Owned.credentials {query admin : Bool} (h : Owned query admin o) :
    Owned query admin (Function.update o credentialsName (some .directory)) := by
  refine ⟨?_, fun r hr => ?_⟩
  · rw [Function.update_of_ne (by decide), h.top]
  · by_cases he : r = credentialsName
    · subst he
      exact .inr (.inl ⟨.inl rfl, Function.update_self ..⟩)
    · rw [Function.update_of_ne he]
      exact h.only r hr

theorem Owned.file {query admin query' admin' : Bool} {name : Path} {b : Bytes}
    (h : Owned query admin o) (hname : name = queryName ∧ query' = true ∧ admin' = admin ∨
      name = adminName ∧ query' = query ∧ admin' = true) :
    Owned query' admin' (Function.update o name (some (.file b))) := by
  refine ⟨?_, fun r hr => ?_⟩
  · rw [Function.update_of_ne, h.top]
    rintro rfl
    rcases hname with ⟨h, -⟩ | ⟨h, -⟩ <;> cases h
  · by_cases he : r = name
    · subst he
      refine .inr (.inr ⟨.inr ?_, b, Function.update_self ..⟩)
      rcases hname with ⟨hn, hq, -⟩ | ⟨hn, -, ha⟩
      · exact .inl ⟨hq, hn⟩
      · exact .inr ⟨ha, hn⟩
    · rw [Function.update_of_ne he]
      refine (h.only r hr).imp_right (Or.imp_right ?_)
      rintro ⟨hs | ⟨hq, hn⟩ | ⟨ha, hn⟩, hb⟩
      · exact ⟨.inl hs, hb⟩
      · refine ⟨.inr (.inl ⟨?_, hn⟩), hb⟩
        rcases hname with ⟨-, hq', -⟩ | ⟨-, hq', -⟩
        · exact hq'
        · rw [hq', hq]
      · refine ⟨.inr (.inr ⟨?_, hn⟩), hb⟩
        rcases hname with ⟨-, -, ha'⟩ | ⟨-, -, ha'⟩
        · rw [ha', ha]
        · exact ha'

/-- `credentials` is made where it is missing. -/
theorem createParent_credentials {file what : String} (h : At e root o v)
    (htop : o [] = some .directory)
    (hkind : o credentialsName = none ∨ o credentialsName = some .directory) :
    Inits current (createParent (root ++ ["credentials", file]) what) v
      (fun _ w => At e root (Function.update o credentialsName (some .directory)) w)
      fun _ w => At e root o w := by
  have hparent : (root ++ ["credentials", file]).dropLast = root ++ credentialsName := by
    rw [List.dropLast_append_of_ne_nil (by simp)]
    rfl
  unfold createParent
  rw [if_neg (by simp), hparent]
  refine Inits.createDirAll (fun hd => ?_) (fun _ => Exec.fail h) fun _ r ps hps hnew hr => ?_
  · rw [h.inside] at hd
    refine Exec.pure ?_
    rwa [← hd, Function.update_eq_self]
  · have hall : ∀ q ∈ ps, q = root ++ credentialsName := by
      intro q hq
      obtain ⟨hpre, hn⟩ := hnew q hq
      refine (List.prefix_concat_iff.mp hpre).resolve_right fun hpre => ?_
      by_cases he : q = root
      · rw [he, h.top, htop] at hn
        cases hn
      · cases (h.above q hpre he).symm.trans hn
    have hmem : root ++ credentialsName ∈ ps := by
      obtain ⟨q, hq⟩ := List.exists_mem_of_ne_nil ps hps
      exact hall q hq ▸ hq
    obtain ⟨rfl, -⟩ := hr.resolve_right (absurd hmem)
    exact Exec.pure (h.makeAll (.inr rfl) hps hall)

theorem writeCredential_writes {file credential : String} (h : At e root o v)
    (htop : o [] = some .directory)
    (hkind : o credentialsName = none ∨ o credentialsName = some .directory)
    (hfile : o ["credentials", file] = none) :
    Inits current (writeCredential (root ++ ["credentials", file]) credential) v
      (fun _ w => ∃ bytes, At e root (Function.update (Function.update o credentialsName
        (some .directory)) ["credentials", file] (some (.file bytes))) w)
      fun _ w => At e root o w ∨
        At e root (Function.update o credentialsName (some .directory)) w := by
  unfold writeCredential writeNewFile persistNewFile
  refine Exec.seq (createParent_credentials h htop hkind) (fun _ w hw => ?_)
    fun _ _ hf => .inl hf
  refine Inits.createNew (fun _ => Exec.pure ⟨_, hw.set _ _⟩) (fun _ => Exec.fail (.inr hw))
    fun n _ _ => ?_
  refine Inits.remove (fun _ _ => ?_) fun _ hstuck => ?_
  · refine Exec.fail (.inr (hw.undone ?_ _))
    rw [Function.update_of_ne (by simp [credentialsName]), hfile]
  · rw [TreeView.set_get, if_pos rfl] at hstuck
    rcases hstuck with hs | hs <;> cases hs

/-- A path that is missing while the data directory stands was missing before,
and the rollback does not know of it. -/
theorem At.strange (hvacant : Vacant e root existed) (h : At e root o v)
    (htop : o [] = some .directory) (hcredentials : o credentialsName = some .directory)
    (hlayout : ∀ name ∈ layoutDirectories, o [name] = some .directory) (hq : v.get q = none) :
    Strange root q ∧ e q = none := by
  have hstands : ∀ r, o r = some .directory → root ++ r ≠ q := by
    rintro r hr rfl
    rw [h.inside, hr] at hq
    cases hq
  have hroot : root ≠ q := by simpa using hstands [] htop
  refine ⟨⟨hroot, hstands _ hcredentials, fun name hname => hstands _ (hlayout name hname)⟩, ?_⟩
  by_cases hpre : root <+: q
  · obtain ⟨r, rfl⟩ := hpre
    refine hvacant.below r ?_
    rintro rfl
    exact hroot (by simp)
  · rw [← h.outside q hpre, hq]

section
variable {path : Path} (hmissing : ∀ q, v.get q = none → Strange root q ∧ e q = none)
include hmissing

theorem createParent_leaves {what : String} :
    Inits current (createParent path what) v (fun _ w => w = v ∨ Stray e root w)
      fun _ w => w = v ∨ Stray e root w := by
  unfold createParent
  split
  · exact Exec.pure (.inl rfl)
  · refine Inits.createDirAll (fun _ => Exec.pure (.inl rfl)) (fun _ => Exec.fail (.inl rfl))
      fun _ r ps hps hnew _ => ?_
    obtain ⟨q, hq⟩ := List.exists_mem_of_ne_nil ps hps
    have hstray : Stray e root (v.makeAll ps) :=
      ⟨q, ⟨by simp [TreeView.makeAll, hq], List.mem_append_right _ hq⟩, hmissing q (hnew q hq).2⟩
    cases r with
    | ok _ => exact Exec.pure (.inr hstray)
    | error _ => exact Exec.fail (.inr hstray)

theorem writeNewFile_leaves {bytes : Bytes} :
    Inits current (writeNewFile path bytes) v (fun _ _ => True)
      fun _ w => w = v ∨ Stray e root w := by
  refine Exec.seq (createParent_leaves hmissing) ?_ fun _ _ hf => hf
  rintro _ w (rfl | hstray)
  · unfold persistNewFile
    refine Inits.createNew (fun _ => Exec.pure trivial) (fun _ => Exec.fail (.inl rfl))
      fun n _ hnone => Inits.remove (fun _ _ => ?_) fun _ hstuck => ?_
    · refine Exec.fail (.inl ?_)
      simp only [TreeView.set, Function.update_idem]
      rw [← hnone, Function.update_eq_self]
    · rw [TreeView.set_get, if_pos rfl] at hstuck
      rcases hstuck with hs | hs <;> cases hs
  · exact (hstray.inits fun q _ => persistNewFile_spares).mono (fun _ h => h)
      (fun _ _ _ => trivial) fun _ _ hf => .inr hf

theorem writeNew_leaves {libraries : InitLibraries} {config : DaemonConfig} :
    Inits current (config.writeNew libraries path) v (fun _ _ => True)
      fun _ w => w = v ∨ Stray e root w := by
  unfold DaemonConfig.writeNew
  cases config.validate libraries with
  | error _ => exact Exec.fail (.inl rfl)
  | ok _ =>
    refine Exec.seq (p := createParent path _) (createParent_leaves hmissing) ?_ fun _ _ hf => hf
    cases libraries.encodeConfig config with
    | error _ => exact fun _ _ hw => Exec.fail hw
    | ok source =>
      rintro _ w (rfl | hstray)
      · exact writeNewFile_leaves hmissing
      · exact (hstray.inits fun q _ => writeNewFile_spares).mono (fun _ h => h)
          (fun _ _ _ => trivial) fun _ _ hf => .inr hf

end

/-- What the closure leaves if it fails is known to the rollback, or stray. -/
theorem writeFiles_leaves {libraries : InitLibraries} {configPath : Path}
    {listen query admin : String} {bytes : Bytes} (hvacant : Vacant e root existed)
    (h : At e root (Function.update (laid layoutNames) ["server-state"] (some (.file bytes))) v)
    {F : ε → TreeView → Prop} :
    Inits current (writeFiles libraries (.new root listen) configPath query admin) v
      (fun result w => result.2.2 = .ok () ∨
        (∃ o, At e root o w ∧ Owned result.1 result.2.1 o) ∨ Stray e root w) F := by
  have howned : Owned false false
      (Function.update (laid layoutNames) ["server-state"] (some (.file bytes))) := by
    refine ⟨rfl, fun r hr => ?_⟩
    by_cases he : r = ["server-state"]
    · subst he
      exact .inr (.inr ⟨.inl (by decide), bytes, Function.update_self ..⟩)
    · rw [Function.update_of_ne he]
      by_cases hl : r ∈ layoutNames
      · exact .inr (.inl ⟨.inr hl, by simp [laid, hl]⟩)
      · exact .inl (by simp [laid, hl, hr])
  unfold writeFiles
  refine Exec.attempt ((writeCredential_writes h rfl (.inl rfl) rfl).mono (fun _ h => h) ?_ ?_)
  swap
  · rintro _ w (hw | hw)
    · exact Exec.pure (.inr (.inl ⟨_, hw, howned⟩))
    · exact Exec.pure (.inr (.inl ⟨_, hw, howned.credentials⟩))
  rintro _ w ⟨b, hw⟩
  have howned₁ := howned.credentials.file (b := b) (.inl ⟨rfl, rfl, rfl⟩)
  refine Exec.attempt ((writeCredential_writes hw rfl (.inr rfl) rfl).mono (fun _ h => h) ?_ ?_)
  swap
  · rintro _ w (hw | hw)
    · exact Exec.pure (.inr (.inl ⟨_, hw, howned₁⟩))
    · exact Exec.pure (.inr (.inl ⟨_, hw, howned₁.credentials⟩))
  rintro _ w ⟨b', hw⟩
  have howned₂ := howned₁.credentials.file (b := b') (.inr ⟨rfl, rfl, rfl⟩)
  have hmissing := fun q => hw.strange (q := q) hvacant rfl rfl (by
    simp only [layoutDirectories, List.forall_mem_cons]
    exact ⟨rfl, rfl, rfl, rfl, rfl, by simp⟩)
  refine Exec.attempt ((writeNew_leaves hmissing).mono (fun _ h => h) ?_ ?_)
  · exact fun _ _ _ => Exec.pure (.inl rfl)
  · rintro _ w (rfl | hstray)
    · exact Exec.pure (.inr (.inl ⟨_, hw, howned₂⟩))
    · exact Exec.pure (.inr (.inr hstray))

end

end

-- ---------------------------------------------------------------------------
-- The whole call
-- ---------------------------------------------------------------------------

section
variable {current : Path} {v : TreeView}

theorem absolute_resolves (path : PathArgument) :
    Inits current (absolute path) v (fun p w => p = path.resolved current ∧ w = v)
      fun _ w => w = v := by
  cases path with
  | absolute p => exact Exec.pure ⟨rfl, rfl⟩
  | relative p =>
    refine Inits.op ?_
    rintro t c ans t' rfl hs
    have hs := Option.some.inj hs
    split at hs
    · cases hs
      exact Exec.fail rfl
    · cases hs
      exact Exec.pure ⟨rfl, rfl⟩

theorem ensureNewPath_looks {path : Path} {description : String} :
    Inits current (ensureNewPath path description) v (fun _ w => w = v) fun _ w => w = v := by
  refine Inits.inspect ?_
  rintro (error | _)
  · dsimp only
    split
    · exact Exec.pure rfl
    · exact Exec.fail rfl
  · exact Exec.fail rfl

theorem initializeDaemon_leaves {e : Path → Option TreeNode} {libraries : InitLibraries}
    {configPath dataDirectory : PathArgument} {listen query admin : String} (hrooted : Rooted e)
    (hget : v.get = e) (hmade : v.made = []) :
    Inits current (initializeDaemon libraries configPath dataDirectory listen query admin) v
      (fun _ _ => True) fun _ w =>
        Back e (dataDirectory.resolved current) w ∨ Stray e (dataDirectory.resolved current) w := by
  have hsame : Back e (dataDirectory.resolved current) v := ⟨fun p => by rw [hget], by simp [hmade]⟩
  unfold initializeDaemon
  refine Exec.seq (absolute_resolves dataDirectory) ?_ (by rintro _ w rfl; exact .inl hsame)
  rintro _ w ⟨rfl, rfl⟩
  refine Exec.seq (absolute_resolves configPath) ?_ (by rintro _ w rfl; exact .inl hsame)
  rintro _ w ⟨rfl, rfl⟩
  dsimp only
  cases (DaemonConfig.new (dataDirectory.resolved current) listen).listenAddress libraries with
  | error _ => exact Exec.fail (.inl hsame)
  | ok _ =>
    refine Exec.seq (p := ensureNewPath _ _) ensureNewPath_looks ?_
      (by rintro _ w rfl; exact .inl hsame)
    rintro _ w rfl
    refine Inits.pathExists ?_
    refine Exec.seq (initializeStore_lays hrooted hget hmade) ?_ fun _ _ hf => hf
    rw [hget]
    rintro _ w (⟨hvacant, bytes, hw⟩ | hstray)
    · refine Exec.seq (writeFiles_leaves hvacant hw) ?_ fun _ _ hf => hf
      rintro ⟨queryCreated, adminCreated, result⟩ w hw
      cases result with
      | ok _ => exact Exec.pure trivial
      | error error =>
        obtain hok | ⟨o, hat, howned⟩ | hstray := hw
        · cases hok
        · exact failAfter_keeps ((rollbackInitialization_back hvacant hat howned).mono
            (fun _ h => h) (fun _ _ h => .inl h) fun _ _ h => .inl h)
        · exact (hstray.inits fun q hq => failAfter_spares (rollbackInitialization_spares hq)).mono
            (fun _ h => h) (fun _ _ _ => trivial) fun _ _ h => .inr h
    · refine (hstray.inits fun q hq => writeFiles_spares.bind ?_).mono (fun _ h => h)
        (fun _ _ _ => trivial) fun _ _ h => .inr h
      rintro ⟨queryCreated, adminCreated, error | _⟩
      · exact failAfter_spares (rollbackInitialization_spares hq)
      · trivial

end

/-- After a call that fails, the file system is the one before it exactly when
`create_dir_all` made no directory but the root and `credentials`. -/
theorem failed_initialization_restores_iff (libraries : InitLibraries) (current : Path)
    (configPath dataDirectory : PathArgument) (listen query admin : String) (t : FileTree)
    (hrooted : Rooted t.get) (hmade : t.made = []) (cs : List Outcome) (error : ServerError)
    (h : ((forgivingWorld current).run cs
      (initializeDaemon libraries configPath dataDirectory listen query admin) t).1.result? =
        some (.error error)) :
    let t' := ((forgivingWorld current).run cs
      (initializeDaemon libraries configPath dataDirectory listen query admin) t).2
    let root := dataDirectory.resolved current
    (∀ p, t'.get p = t.get p) ↔ ∀ q ∈ t'.made, q = root ∨ q = root ++ ["credentials"] := by
  intro t' root
  have hend : Back t.get root t'.view ∨ Stray t.get root t'.view :=
    (initializeDaemon_leaves (v := t.view) hrooted rfl hmade).run rfl cs (fun _ _ _ => trivial) h
  rcases hend with ⟨hget, hknown⟩ | ⟨q, ⟨hget, hq⟩, hstrange, hnone⟩
  · exact ⟨fun _ => hknown, fun _ => hget⟩
  · constructor
    · intro hsame
      cases hget.symm.trans ((hsame q).trans hnone)
    · intro hknown
      rcases hknown q hq with rfl | rfl
      · exact absurd rfl hstrange.top
      · exact absurd rfl hstrange.credentials

def InitLibraries.plain : InitLibraries where
  parseListen := .ok
  trim := id
  encodeConfig _ := .ok []
  catalog := (DataDirectory.plain "").catalog
  operation := (DataDirectory.plain "").operation
  restore := (DataDirectory.plain "").restore

/-- The configuration cannot be written, in the twenty-first step. -/
def fullDisk : List Outcome :=
  List.replicate 20 .ok ++ .fail "No space left on device" :: List.replicate 20 .ok

theorem failed_initialization_restores_beside_etc :
    let call := (forgivingWorld []).run fullDisk (initializeDaemon .plain
      (.absolute ["etc", "server.toml"]) (.absolute ["srv"]) "127.0.0.1:7000" "query" "admin")
      (topLevel ["etc"])
    call.1.result? = some (.error ⟨"cannot create /etc/server.toml: No space left on device"⟩) ∧
      ∀ p, call.2.get p = (topLevel ["etc"]).get p :=
  ⟨rfl, (failed_initialization_restores_iff .plain [] (.absolute ["etc", "server.toml"])
    (.absolute ["srv"]) "127.0.0.1:7000" "query" "admin" (topLevel ["etc"]) (rooted_topLevel _) rfl
    fullDisk ⟨"cannot create /etc/server.toml: No space left on device"⟩ rfl).mpr
    (by decide +kernel)⟩

/-- The directory above the data directory stays behind. -/
theorem failed_initialization_leaves_srv :
    let t := topLevel ["etc"]
    let call := (forgivingWorld []).run fullDisk (initializeDaemon .plain
      (.absolute ["etc", "server.toml"]) (.absolute ["srv", "nostdb"]) "127.0.0.1:7000" "query"
      "admin") t
    (Rooted t.get ∧ t.made = []) ∧
      call.1.result? = some (.error ⟨"cannot create /etc/server.toml: No space left on device"⟩) ∧
      t.get ["srv"] = none ∧ call.2.get ["srv"] = some .directory :=
  ⟨⟨rooted_topLevel _, rfl⟩, rfl, rfl, rfl⟩

end NostdbServer
