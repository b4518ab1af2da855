import NostdbServer.Daemon.InitRules

/-!
# Taking an initialization back

The rollback of the catalog store and of the whole call knows the files and
directories they make in the data directory, and removes those that are there.
-/

namespace NostdbServer

open Effects World

-- ---------------------------------------------------------------------------
-- The data directory while it is laid out
-- ---------------------------------------------------------------------------

/-- What stands in the data directory, by the path from there. -/
abbrev Inside := Path → Option TreeNode

/-- The data directory was absent or empty. -/
structure Vacant (e : Path → Option TreeNode) (root : Path) (existed : Bool) : Prop where
  top : e root = if existed then some .directory else none
  below : ∀ r, r ≠ [] → e (root ++ r) = none

/-- The file system is `e` outside the data directory and `o` inside it, and
`create_dir_all` made nothing but directories the rollback knows of. -/
structure At (e : Path → Option TreeNode) (root : Path) (o : Inside) (v : TreeView) : Prop where
  inside : ∀ r, v.get (root ++ r) = o r
  outside : ∀ p, ¬ root <+: p → v.get p = e p
  made : ∀ q ∈ v.made, q = root ∨ q = root ++ ["credentials"]
  above : ∀ q, q <+: root → q ≠ root → v.get q = some .directory

section
variable {e : Path → Option TreeNode} {root : Path} {o : Inside} {v : TreeView} {existed : Bool}

theorem At.top (h : At e root o v) : v.get root = o [] := by
  simpa using h.inside []

theorem At.set (h : At e root o v) (r : Path) (n : Option TreeNode) :
    At e root (Function.update o r n) (v.set (root ++ r) n) where
  inside r' := by
    rw [TreeView.set_get, Function.update_apply, h.inside]
    simp only [List.append_cancel_left_eq]
  outside p hp := by
    rw [TreeView.set_get, if_neg, h.outside p hp]
    rintro rfl
    exact hp (List.prefix_append _ _)
  made := h.made
  above q hq hne := by
    rw [TreeView.set_get, if_neg, h.above q hq hne]
    rintro rfl
    exact hne (hq.eq_of_length_le (by simp))

/-- Nothing has changed. -/
theorem At.restored (h : At e root o v) (ho : ∀ r, o r = e (root ++ r)) (p : Path) :
    v.get p = e p := by
  by_cases hp : root <+: p
  · obtain ⟨r, rfl⟩ := hp
    rw [h.inside, ho]
  · exact h.outside p hp

/-- The rollback took everything back. -/
def Back (e : Path → Option TreeNode) (root : Path) (v : TreeView) : Prop :=
  (∀ p, v.get p = e p) ∧ ∀ q ∈ v.made, q = root ∨ q = root ++ ["credentials"]

/-- The directories among the entries are removed, and the root with them if it
is not to stay. -/
theorem removeDirectories_back {current : Path} (hvacant : Vacant e root existed)
    (rs : List Path) (h : At e root o v) (htop : o [] = some .directory)
    (hrs : ∀ r ∈ rs, r ≠ [] ∧ (o r = none ∨ o r = some .directory))
    (hflat : ∀ r, r ≠ [] → (o r).isSome = true → r.length = 1 ∧ r ∈ rs)
    {F : ε → TreeView → Prop} :
    Inits current (removeDirectories (rs.map (root ++ ·) ++ ownRoot root existed)) v
      (fun _ w => Back e root w) F := by
  induction rs generalizing o v with
  | nil =>
    have hnone : ∀ r, r ≠ [] → o r = none := by
      intro r hr
      by_contra hne
      simpa using (hflat r hr (Option.isSome_iff_ne_none.mpr hne)).2
    have hbelow : ∀ r, r ≠ [] → o r = e (root ++ r) := fun r hr =>
      (hnone r hr).trans (hvacant.below r hr).symm
    cases existed with
    | true =>
      refine Exec.pure ⟨h.restored fun r => ?_, h.made⟩
      by_cases hr : r = []
      · rw [hr, List.append_nil, htop, hvacant.top, if_pos rfl]
      · exact hbelow r hr
    | false =>
      refine Inits.removeDir ?_ ?_
      · intro _ _
        have hset := h.set [] none
        rw [List.append_nil] at hset
        refine Exec.pure ⟨hset.restored fun r => ?_, h.made⟩
        by_cases hr : r = []
        · rw [hr, List.append_nil, Function.update_self, hvacant.top]
          rfl
        · rw [Function.update_of_ne hr]
          exact hbelow r hr
      · rintro _ (hn | ⟨b, hb⟩ | ⟨name, hname⟩)
        · cases htop.symm.trans (h.top.symm.trans hn)
        · cases htop.symm.trans (h.top.symm.trans hb)
        · rw [h.inside, hnone [name] (by simp)] at hname
          cases hname
  | cons r rs ih =>
    obtain ⟨⟨hr, hkind⟩, hrs⟩ := List.forall_mem_cons.mp hrs
    have hnext {w : TreeView} {o' : Inside} (hat : At e root o' w) (hgone : o' r = none)
        (hsame : ∀ r', r' ≠ r → o' r' = o r') :
        Inits current (removeDirectories (rs.map (root ++ ·) ++ ownRoot root existed)) w
          (fun _ w => Back e root w) F := by
      refine ih hat ((hsame [] (Ne.symm hr)).trans htop) (fun r' hr' => ⟨(hrs r' hr').1, ?_⟩)
        fun r' hr' hsome => ?_
      · by_cases he : r' = r
        · exact .inl (he ▸ hgone)
        · rw [hsame r' he]
          exact (hrs r' hr').2
      · have hne : r' ≠ r := by
          rintro rfl
          rw [hgone] at hsome
          cases hsome
        rw [hsame r' hne] at hsome
        obtain ⟨hlength, hmem⟩ := hflat r' hr' hsome
        exact ⟨hlength, (List.mem_cons.mp hmem).resolve_left hne⟩
    refine Inits.removeDir ?_ ?_
    · intro _ _
      refine Exec.seq (hnext (h.set r none) (Function.update_self ..)
        fun r' hne => Function.update_of_ne hne ..) ?_ fun _ _ hf => hf
      exact fun _ _ hback => Exec.pure hback
    · rintro _ hstuck
      have hgone : o r = none := by
        obtain hn | ⟨b, hb⟩ | ⟨name, hname⟩ := hstuck
        · rwa [h.inside] at hn
        · rw [h.inside] at hb
          rcases hkind with hk | hk
          · exact hk
          · cases hk.symm.trans hb
        · -- Nothing stands deeper than one level.
          rw [List.append_assoc, h.inside] at hname
          have := (hflat _ (by simp) hname).1
          simp only [List.length_append, List.length_cons, List.length_nil] at this
          exact absurd (List.length_eq_zero_iff.mp (by omega)) hr
      refine Exec.seq (hnext h hgone fun _ _ => rfl) ?_ fun _ _ hf => hf
      exact fun _ _ hback => Exec.pure hback

theorem removeFiles_gone {current : Path} (rs : List Path) (h : At e root o v)
    (hrs : ∀ r ∈ rs, o r = none ∨ ∃ b, o r = some (.file b)) {F : ε → TreeView → Prop} :
    Inits current (removeFiles (rs.map (root ++ ·))) v
      (fun _ w => At e root (fun r => if r ∈ rs then none else o r) w) F := by
  induction rs generalizing o v with
  | nil =>
    refine Exec.pure ?_
    simpa using h
  | cons r rs ih =>
    obtain ⟨hkind, hrs⟩ := List.forall_mem_cons.mp hrs
    have hnext {w : TreeView} {o' : Inside} (hat : At e root o' w) (hgone : o' r = none)
        (hsame : ∀ r', r' ≠ r → o' r' = o r') :
        Inits current (removeFiles (rs.map (root ++ ·))) w
          (fun _ w => At e root (fun r' => if r' ∈ r :: rs then none else o r') w) F := by
      refine (ih hat fun r' hr' => ?_).mono (fun _ h => h) ?_ fun _ _ hf => hf
      · by_cases he : r' = r
        · exact .inl (he ▸ hgone)
        · rw [hsame r' he]
          exact hrs r' hr'
      · intro _ u hu
        have hfun : (fun r' => if r' ∈ rs then none else o' r') =
            fun r' => if r' ∈ r :: rs then none else o r' := by
          funext r'
          by_cases he : r' = r
          · subst he
            simp [hgone]
          · simp [he, hsame r' he]
        rwa [hfun] at hu
    refine Inits.remove ?_ ?_
    · intro _ _
      refine Exec.seq (hnext (h.set r none) (Function.update_self ..)
        fun r' hne => Function.update_of_ne hne ..) ?_ fun _ _ hf => hf
      exact fun _ _ hat => Exec.pure hat
    · rintro _ hstuck
      rw [h.inside] at hstuck
      have hgone : o r = none := by
        rcases hkind with hk | ⟨b, hk⟩
        · exact hk
        · rw [hk] at hstuck
          rcases hstuck with hs | hs <;> cases hs
      refine Exec.seq (hnext h hgone fun _ _ => rfl) ?_ fun _ _ hf => hf
      exact fun _ _ hat => Exec.pure hat

-- ---------------------------------------------------------------------------
-- Rollbacks
-- ---------------------------------------------------------------------------

theorem reportFailures_keeps {current : Path} {P : TreeView → Prop} {failures : List String}
    (h : P v) : Inits current (reportFailures failures) v (fun _ w => P w) fun _ w => P w := by
  unfold reportFailures
  split
  · exact Exec.pure h
  · exact Exec.fail h

theorem failAfter_keeps {current : Path} {P : TreeView → Prop} {error : ServerError} {what : String}
    {rollback : Prog init ServerError Unit} {Q : α → TreeView → Prop}
    (h : Inits current rollback v (fun _ w => P w) fun _ w => P w) :
    Inits current (failAfter error what rollback : Prog init ServerError α) v Q fun _ w => P w :=
  Exec.attempt (h.mono (fun _ h => h) (fun _ _ hp => Exec.fail hp) fun _ _ hp => Exec.fail hp)

/-- The root and the directories named stand in the data directory. -/
def laid (rs : List Path) : Inside := fun r => if r = [] ∨ r ∈ rs then some .directory else none

theorem rollbackCreatedDirectories_back {current : Path} (hvacant : Vacant e root existed)
    {rs : List Path} (h : At e root (laid rs) v) (hrs : ∀ r ∈ rs, r.length = 1) :
    Inits current (rollbackCreatedDirectories root existed (rs.map (root ++ ·))) v
      (fun _ w => Back e root w) fun _ w => Back e root w := by
  unfold rollbackCreatedDirectories
  rw [← List.map_reverse]
  refine Exec.seq (removeDirectories_back hvacant rs.reverse h (by simp [laid]) ?_ ?_) ?_
    fun _ _ hf => hf
  · intro r hr
    have hr : r ∈ rs := List.mem_reverse.mp hr
    refine ⟨?_, .inr (by simp [laid, hr])⟩
    rintro rfl
    simpa using hrs [] hr
  · intro r hr hsome
    have hmem : r ∈ rs := by
      by_contra hmem
      simp [laid, hr, hmem] at hsome
    exact ⟨hrs r hmem, List.mem_reverse.mpr hmem⟩
  · exact fun _ _ hback => reportFailures_keeps hback

def layoutNames : List Path := layoutDirectories.map ([·])

def storeNames : List Path :=
  [["server-state.pending"], ["server-state.previous"], ["server-operation"], ["server-state"]]

def credentialsName : Path := ["credentials"]
def queryName : Path := ["credentials", "client.token"]
def adminName : Path := ["credentials", "admin.token"]

/-- Everything in the data directory is the call's own; of the credentials, what
is known to be written. -/
structure Owned (query admin : Bool) (o : Inside) : Prop where
  top : o [] = some .directory
  only : ∀ r, r ≠ [] → o r = none ∨
    ((r = credentialsName ∨ r ∈ layoutNames) ∧ o r = some .directory) ∨
    ((r ∈ storeNames ∨ (query = true ∧ r = queryName) ∨ (admin = true ∧ r = adminName)) ∧
      ∃ b, o r = some (.file b))

theorem rollbackStore_back {current : Path} (hvacant : Vacant e root existed)
    (h : At e root o v) (htop : o [] = some .directory)
    (honly : ∀ r, r ≠ [] → o r = none ∨ (r ∈ layoutNames ∧ o r = some .directory) ∨
      (r ∈ storeNames ∧ ∃ b, o r = some (.file b))) :
    Inits current (rollbackStore root existed) v (fun _ w => Back e root w)
      fun _ w => Back e root w := by
  have hapart : ∀ r ∈ layoutNames, r ∉ storeNames := by decide
  have hflat : ∀ r ∈ layoutNames, r.length = 1 ∧ r ≠ [] := by decide
  have hnil : [] ∉ storeNames := by decide
  have hfiles : [RootPath.pending, .previous, .operation, .serverState].map (·.under root) =
      storeNames.map (root ++ ·) := rfl
  have hdirectories : layoutDirectories.reverse.map (root ++ [·]) =
      layoutNames.reverse.map (root ++ ·) := rfl
  unfold rollbackStore
  rw [hfiles, hdirectories]
  refine Exec.seq (removeFiles_gone storeNames h fun r hr => ?_) ?_ fun _ _ hf => hf
  · have hne : r ≠ [] := by
      rintro rfl
      exact hnil hr
    obtain hn | ⟨hl, -⟩ | ⟨-, hb⟩ := honly r hne
    · exact .inl hn
    · exact absurd hr (hapart r hl)
    · exact .inr hb
  · intro _ w hw
    refine Exec.seq (removeDirectories_back hvacant layoutNames.reverse hw (by simp [hnil, htop])
      (fun r hr => ?_) fun r hr hsome => ?_) ?_ fun _ _ hf => hf
    · have hr : r ∈ layoutNames := List.mem_reverse.mp hr
      refine ⟨(hflat r hr).2, ?_⟩
      rw [if_neg (hapart r hr)]
      obtain hn | ⟨-, hd⟩ | ⟨hs, -⟩ := honly r (hflat r hr).2
      · exact .inl hn
      · exact .inr hd
      · exact absurd hs (hapart r hr)
    · split at hsome
      · cases hsome
      · rename_i hstore
        obtain hn | ⟨hl, -⟩ | ⟨hs, -⟩ := honly r hr
        · rw [hn] at hsome
          cases hsome
        · exact ⟨(hflat r hl).1, List.mem_reverse.mpr hl⟩
        · exact absurd hs hstore
    · exact fun _ _ hback => reportFailures_keeps hback

/-- The rollback once the credentials are gone. -/
theorem removeCredentials_back {current : Path} (hvacant : Vacant e root existed)
    (h : At e root o v) (htop : o [] = some .directory)
    (honly : ∀ r, r ≠ [] → o r = none ∨
      ((r = credentialsName ∨ r ∈ layoutNames) ∧ o r = some .directory) ∨
      (r ∈ storeNames ∧ ∃ b, o r = some (.file b)))
    {k : List String → Except ServerError Unit → Prog init ServerError Unit}
    (hk : ∀ failures result w, Back e root w →
      Inits current (k failures result) w (fun _ w => Back e root w) fun _ w => Back e root w) :
    Inits current ((removeDirectories [root ++ credentialsName]).bind fun failures =>
      (rollbackStore root existed).attempt.bind (k failures)) v
      (fun _ w => Back e root w) fun _ w => Back e root w := by
  have hname : credentialsName ≠ [] ∧ credentialsName ∉ layoutNames ++ storeNames := by decide
  have hflat : ∀ r ∈ layoutNames ++ storeNames, r.length = 1 := by decide
  have hnext {w : TreeView} {o' : Inside} (hat : At e root o' w) (hgone : o' credentialsName = none)
      (hsame : ∀ r, r ≠ credentialsName → o' r = o r) (failures : List String) :
      Inits current ((rollbackStore root existed).attempt.bind (k failures)) w
        (fun _ w => Back e root w) fun _ w => Back e root w := by
    refine Exec.attempt ((rollbackStore_back hvacant hat ?_ fun r hr => ?_).mono (fun _ h => h)
      (fun _ _ hback => hk _ _ _ hback) fun _ _ hback => hk _ _ _ hback)
    · rw [hsame [] (Ne.symm hname.1), htop]
    · by_cases he : r = credentialsName
      · exact .inl (he ▸ hgone)
      · rw [hsame r he]
        obtain hn | ⟨hc | hl, hd⟩ | hs := honly r hr
        · exact .inl hn
        · exact absurd hc he
        · exact .inr (.inl ⟨hl, hd⟩)
        · exact .inr (.inr hs)
  refine Inits.removeDir ?_ ?_
  · exact fun _ _ => hnext (h.set _ none) (Function.update_self ..)
      (fun r hne => Function.update_of_ne hne ..) _
  · intro _ hstuck
    refine hnext h ?_ (fun _ _ => rfl) _
    obtain hn | ⟨b, hb⟩ | ⟨name, hsome⟩ := hstuck
    · rwa [h.inside] at hn
    · rw [h.inside] at hb
      obtain hn | ⟨-, hd⟩ | ⟨hs, -⟩ := honly _ hname.1
      · exact hn
      · cases hd.symm.trans hb
      · exact absurd (List.mem_append_right _ hs) hname.2
    · -- Only the credentials could stand in there.
      rw [List.append_assoc, h.inside] at hsome
      have hlong : (credentialsName ++ [name]).length = 2 := rfl
      obtain hn | ⟨hc | hl, -⟩ | ⟨hs, -⟩ := honly (credentialsName ++ [name]) (by simp)
      · rw [hn] at hsome
        cases hsome
      · cases hc
      · cases hlong.symm.trans (hflat _ (List.mem_append_left _ hl))
      · cases hlong.symm.trans (hflat _ (List.mem_append_right _ hs))

theorem rollbackInitialization_back {current : Path} (hvacant : Vacant e root existed)
    {listen : String} {query admin : Bool} (h : At e root o v) (howned : Owned query admin o) :
    Inits current (rollbackInitialization (.new root listen) existed query admin) v
      (fun _ w => Back e root w) fun _ w => Back e root w := by
  have hfiles : (if admin then [(DaemonConfig.new root listen).adminCredentialFile] else []) ++
      (if query then [(DaemonConfig.new root listen).queryCredentialFile] else []) =
      ((if admin then [adminName] else []) ++ (if query then [queryName] else [])).map
        (root ++ ·) := by
    cases admin <;> cases query <;> rfl
  have hmem : ∀ r, r ∈ (if admin then [adminName] else []) ++ (if query then [queryName] else []) ↔
      admin = true ∧ r = adminName ∨ query = true ∧ r = queryName := by
    cases admin <;> cases query <;> simp
  have hapart : ∀ r ∈ [adminName, queryName], r ≠ [] ∧ r ≠ credentialsName ∧ r ∉ layoutNames ∧
      r ∉ storeNames := by
    decide
  unfold rollbackInitialization
  rw [hfiles]
  refine Exec.seq (removeFiles_gone _ h fun r hr => ?_) ?_ fun _ _ hf => hf
  · have hr : r ∈ [adminName, queryName] := by
      rcases (hmem r).mp hr with ⟨-, rfl⟩ | ⟨-, rfl⟩ <;> simp
    obtain hn | ⟨hc | hl, -⟩ | ⟨-, hb⟩ := howned.only r (hapart r hr).1
    · exact .inl hn
    · exact absurd hc (hapart r hr).2.1
    · exact absurd hl (hapart r hr).2.2.1
    · exact .inr hb
  · intro failures w hw
    refine removeCredentials_back hvacant hw ?_ (fun r hr => ?_)
      fun _ _ _ hback => reportFailures_keeps hback
    · rw [if_neg, howned.top]
      rw [hmem]
      rintro (⟨-, h⟩ | ⟨-, h⟩) <;> cases h
    · by_cases hkept : admin = true ∧ r = adminName ∨ query = true ∧ r = queryName
      · exact .inl (if_pos ((hmem r).mpr hkept))
      · rw [if_neg fun hr => hkept ((hmem r).mp hr)]
        obtain hn | hd | ⟨hs | hq | ha, hb⟩ := howned.only r hr
        · exact .inl hn
        · exact .inr (.inl hd)
        · exact .inr (.inr ⟨hs, hb⟩)
        · exact absurd (.inr hq) hkept
        · exact absurd (.inl ha) hkept

end

end NostdbServer
