import NostdbServer.Effects.Prog
import Mathlib.Data.List.AList

/-!
# File steps with faults

The steps a program takes on the files of a directory, each with the outcome
the operating system gives it. A failed step changes nothing and says so; a
torn write leaves the beginning of the content behind. `NotFound` is reported
exactly for a path that does not exist, so an injected failure never has that
kind.
-/

namespace Effects

abbrev Bytes := List UInt8

/-- What happens to one step. -/
inductive Outcome
  | ok
  | fail (message : String)
  | torn (written : Nat) (message : String)
  deriving DecidableEq, Repr

inductive IoErrorKind
  | notFound
  | alreadyExists
  | other
  deriving DecidableEq, Repr

structure IoError where
  kind : IoErrorKind
  message : String
  deriving DecidableEq, Repr

def IoError.isNotFound (e : IoError) : Bool := e.kind = .notFound

instance : ToString IoError := ⟨IoError.message⟩

def IoError.notFound : IoError := ⟨.notFound, "No such file or directory (os error 2)"⟩
def IoError.alreadyExists : IoError := ⟨.alreadyExists, "File exists (os error 17)"⟩
def IoError.isDirectory : IoError := ⟨.other, "Is a directory (os error 21)"⟩

def Outcome.error? : Outcome → Option IoError
  | .ok => none
  | .fail m | .torn _ m => some ⟨.other, m⟩

/-- Writing a new file fails when it is opened, or later with part of the
content already there. -/
inductive CreateError
  | opening (error : IoError)
  | writing (error : IoError)
  deriving DecidableEq, Repr

inductive FileOp (κ : Type)
  | pathExists (f : κ)
  | isFile (f : κ)
  | read (f : κ)
  | createNew (f : κ) (bytes : Bytes)
  | rename (source target : κ)
  | remove (f : κ)
  | sync

def FileOp.Ans : FileOp κ → Type
  | .pathExists _ | .isFile _ => Bool
  | .read _ => Except IoError Bytes
  | .createNew _ _ => Except CreateError Unit
  | .rename _ _ | .remove _ | .sync => Except IoError Unit

/-- The step could not be done. Removing what is not there counts as done. -/
def FileOp.failed : (o : FileOp κ) → o.Ans → Bool
  | .pathExists _, _ | .isFile _, _ => false
  | .read _, r => !Except.isOk r
  | .createNew _ _, r => !Except.isOk r
  | .rename _ _, r | .sync, r => !Except.isOk r
  | .remove _, .ok _ => false
  | .remove _, .error e => !e.isNotFound

/-- The entries a step can change. -/
def FileOp.Changes (o : FileOp κ) (g : κ) : Prop :=
  match o with
  | .createNew f _ | .remove f => f = g
  | .rename source target => source = g ∨ target = g
  | _ => False

/-- What a directory entry can be: at least a file with its content. -/
class FileLike (ν : Type) where
  ofBytes : Bytes → ν
  bytes? : ν → Option Bytes
  bytes?_ofBytes (b : Bytes) : bytes? (ofBytes b) = some b

attribute [simp] FileLike.bytes?_ofBytes

/-- A state with named entries in it. -/
structure Volume (σ κ ν : Type) [DecidableEq κ] where
  get : σ → κ → Option ν
  set : σ → κ → Option ν → σ
  get_set (s : σ) (f g : κ) (n : Option ν) : get (set s f n) g = if g = f then n else get s g

namespace Volume

variable {σ κ ν : Type} [DecidableEq κ] [FileLike ν]

/-- A plain file may be replaced by a rename; anything else is in the way. -/
def replaceable (source : ν) (target : Option ν) : Bool :=
  match target with
  | none => true
  | some n => (FileLike.bytes? source).isSome && (FileLike.bytes? n).isSome

def read (V : Volume σ κ ν) (f : κ) (c : Outcome) (s : σ) : Except IoError Bytes × σ :=
  match c.error?, V.get s f with
  | some e, _ => (.error e, s)
  | none, none => (.error .notFound, s)
  | none, some n => ((FileLike.bytes? n).elim (.error .isDirectory) .ok, s)

def createNew (V : Volume σ κ ν) (f : κ) (bytes : Bytes) (c : Outcome) (s : σ) :
    Except CreateError Unit × σ :=
  match V.get s f, c with
  | some _, _ => (.error (.opening .alreadyExists), s)
  | none, .fail m => (.error (.opening ⟨.other, m⟩), s)
  | none, .torn n m =>
    (.error (.writing ⟨.other, m⟩), V.set s f (some (FileLike.ofBytes (bytes.take n))))
  | none, .ok => (.ok (), V.set s f (some (FileLike.ofBytes bytes)))

def rename (V : Volume σ κ ν) (source target : κ) (c : Outcome) (s : σ) :
    Except IoError Unit × σ :=
  match c.error?, V.get s source with
  | some e, _ => (.error e, s)
  | none, none => (.error .notFound, s)
  | none, some n =>
    if source = target then (.ok (), s)
    else if replaceable n (V.get s target) then
      (.ok (), V.set (V.set s source none) target (some n))
    else (.error .isDirectory, s)

def remove (V : Volume σ κ ν) (f : κ) (c : Outcome) (s : σ) : Except IoError Unit × σ :=
  match c.error?, V.get s f with
  | some e, _ => (.error e, s)
  | none, none => (.error .notFound, s)
  | none, some n =>
    if (FileLike.bytes? n).isSome then (.ok (), V.set s f none) else (.error .isDirectory, s)

def sync (c : Outcome) (s : σ) : Except IoError Unit × σ :=
  match c.error? with
  | some e => (.error e, s)
  | none => (.ok (), s)

def step (V : Volume σ κ ν) : (o : FileOp κ) → Outcome → σ → o.Ans × σ
  | .pathExists f, _, s => ((V.get s f).isSome, s)
  | .isFile f, _, s => (((V.get s f).bind FileLike.bytes?).isSome, s)
  | .read f, c, s => V.read f c s
  | .createNew f bytes, c, s => V.createNew f bytes c s
  | .rename source target, c, s => V.rename source target c s
  | .remove f, c, s => V.remove f c s
  | .sync, c, s => Volume.sync c s

-- ---------------------------------------------------------------------------
-- What a step can do
-- ---------------------------------------------------------------------------

variable {V : Volume σ κ ν} {c : Outcome} {s t : σ}

theorem read_cases (h : V.read f c s = (r, t)) :
    t = s ∧ ((∃ e, c.error? = some e ∧ r = .error e) ∨
      (c.error? = none ∧ V.get s f = none ∧ r = .error .notFound) ∨
      (c.error? = none ∧ ∃ n, V.get s f = some n ∧ FileLike.bytes? n = none ∧
        r = .error .isDirectory) ∨
      (c.error? = none ∧ ∃ n b, V.get s f = some n ∧ FileLike.bytes? n = some b ∧ r = .ok b)) := by
  unfold read at h
  split at h
  · rename_i e he
    cases h
    exact ⟨rfl, .inl ⟨e, he, rfl⟩⟩
  · rename_i he hn
    cases h
    exact ⟨rfl, .inr (.inl ⟨he, hn, rfl⟩)⟩
  · rename_i n he hn
    cases h
    cases hb : FileLike.bytes? n with
    | none => exact ⟨rfl, .inr (.inr (.inl ⟨he, n, hn, hb, rfl⟩))⟩
    | some b => exact ⟨rfl, .inr (.inr (.inr ⟨he, n, b, hn, hb, rfl⟩))⟩

theorem createNew_cases (h : V.createNew f bytes c s = (r, t)) :
    (∃ e, r = .error (.opening e) ∧ t = s ∧
      ((∃ n, V.get s f = some n) ∨ ∃ m, c = .fail m ∧ e = ⟨.other, m⟩)) ∨
    (∃ n m, c = .torn n m ∧ V.get s f = none ∧ r = .error (.writing ⟨.other, m⟩) ∧
      t = V.set s f (some (FileLike.ofBytes (bytes.take n)))) ∨
    (c = .ok ∧ V.get s f = none ∧ r = .ok () ∧ t = V.set s f (some (FileLike.ofBytes bytes))) := by
  unfold createNew at h
  split at h
  · rename_i n hn
    cases h
    exact .inl ⟨_, rfl, rfl, .inl ⟨n, hn⟩⟩
  · rename_i m _
    cases h
    exact .inl ⟨_, rfl, rfl, .inr ⟨m, rfl, rfl⟩⟩
  · rename_i n m hn
    cases h
    exact .inr (.inl ⟨n, m, rfl, hn, rfl, rfl⟩)
  · rename_i hn
    cases h
    exact .inr (.inr ⟨rfl, hn, rfl, rfl⟩)

theorem rename_self {V : Volume σ κ ν} (h : V.rename f f c s = (r, t)) : t = s := by
  unfold rename at h
  split at h
  · cases h
    rfl
  · cases h
    rfl
  · rw [if_pos rfl] at h
    cases h
    rfl

theorem rename_cases (hne : f ≠ g) (h : V.rename f g c s = (r, t)) :
    (∃ e, r = .error e ∧ t = s ∧ (c.error? = some e ∨
      c.error? = none ∧ (V.get s f = none ∧ e = .notFound ∨
        ∃ n, V.get s f = some n ∧ replaceable n (V.get s g) = false))) ∨
    (c.error? = none ∧ ∃ n, V.get s f = some n ∧ replaceable n (V.get s g) = true ∧ r = .ok () ∧
      t = V.set (V.set s f none) g (some n)) := by
  unfold rename at h
  split at h
  · rename_i e he
    cases h
    exact .inl ⟨e, rfl, rfl, .inl he⟩
  · rename_i he hn
    cases h
    exact .inl ⟨_, rfl, rfl, .inr ⟨he, .inl ⟨hn, rfl⟩⟩⟩
  · rename_i n he hn
    rw [if_neg hne] at h
    split at h
    · rename_i hr
      cases h
      exact .inr ⟨he, n, hn, hr, rfl, rfl⟩
    · rename_i hr
      cases h
      exact .inl ⟨_, rfl, rfl, .inr ⟨he, .inr ⟨n, hn, by simpa using hr⟩⟩⟩

theorem remove_cases (h : V.remove f c s = (r, t)) :
    (∃ e, r = .error e ∧ t = s ∧ (c.error? = some e ∨
      c.error? = none ∧ (V.get s f = none ∧ e = .notFound ∨
        ∃ n, V.get s f = some n ∧ FileLike.bytes? n = none ∧ e = .isDirectory))) ∨
    (c.error? = none ∧ (∃ n b, V.get s f = some n ∧ FileLike.bytes? n = some b) ∧ r = .ok () ∧
      t = V.set s f none) := by
  unfold remove at h
  split at h
  · rename_i e he
    cases h
    exact .inl ⟨e, rfl, rfl, .inl he⟩
  · rename_i he hn
    cases h
    exact .inl ⟨_, rfl, rfl, .inr ⟨he, .inl ⟨hn, rfl⟩⟩⟩
  · rename_i n he hn
    split at h
    · rename_i hb
      cases h
      obtain ⟨b, hb⟩ := Option.isSome_iff_exists.mp hb
      exact .inr ⟨he, ⟨n, b, hn, hb⟩, rfl, rfl⟩
    · rename_i hb
      cases h
      exact .inl ⟨_, rfl, rfl, .inr ⟨he, .inr ⟨n, hn, by simpa using hb, rfl⟩⟩⟩

theorem sync_cases (h : Volume.sync c s = (r, t)) :
    t = s ∧ ((∃ e, c.error? = some e ∧ r = .error e) ∨ (c.error? = none ∧ r = .ok ())) := by
  unfold sync at h
  split at h
  · rename_i e he
    cases h
    exact ⟨rfl, .inl ⟨e, he, rfl⟩⟩
  · rename_i he
    cases h
    exact ⟨rfl, .inr ⟨he, rfl⟩⟩

/-- What survives every change of an entry survives every step. -/
theorem step_preserves {P : σ → Prop} (hset : ∀ s f n, P s → P (V.set s f n)) (o : FileOp κ)
    (h : P s) : P (V.step o c s).2 := by
  cases o with
  | pathExists f => exact h
  | isFile f => exact h
  | read f =>
    simp only [step, read]
    split <;> exact h
  | createNew f bytes =>
    simp only [step, createNew]
    split <;> first | exact h | exact hset _ _ _ h
  | rename f g =>
    simp only [step, rename]
    split
    · exact h
    · exact h
    · split
      · exact h
      split
      · exact hset _ _ _ (hset _ _ _ h)
      · exact h
  | remove f =>
    simp only [step, remove]
    split
    · exact h
    · exact h
    · split
      · exact hset _ _ _ h
      · exact h
  | sync =>
    simp only [step, sync]
    split <;> exact h

/-- A step leaves the entries alone that it does not name. -/
theorem get_step {o : FileOp κ} {g : κ} (h : ¬ o.Changes g) :
    V.get (V.step o c s).2 g = V.get s g := by
  cases o with
  | pathExists f => rfl
  | isFile f => rfl
  | read f =>
    simp only [step, read]
    split <;> rfl
  | createNew f bytes =>
    have hg : ∀ n, V.get (V.set s f n) g = V.get s g := fun n => by
      rw [V.get_set, if_neg (Ne.symm h)]
    simp only [step, createNew]
    split <;> first | rfl | exact hg _
  | rename source target =>
    obtain ⟨hsource, htarget⟩ := not_or.mp h
    have hg : ∀ n, V.get (V.set (V.set s source none) target n) g = V.get s g := fun n => by
      rw [V.get_set, if_neg (Ne.symm htarget), V.get_set, if_neg (Ne.symm hsource)]
    simp only [step, rename]
    split
    · rfl
    · rfl
    · split
      · rfl
      split
      · exact hg _
      · rfl
  | remove f =>
    have hg : ∀ n, V.get (V.set s f n) g = V.get s g := fun n => by
      rw [V.get_set, if_neg (Ne.symm h)]
    simp only [step, remove]
    split
    · rfl
    · rfl
    · split
      · exact hg _
      · rfl
  | sync =>
    simp only [step, sync]
    split <;> rfl

/-- Entries kept as a function of their name. -/
def ofFun : Volume (κ → Option ν) κ ν where
  get s f := s f
  set s f n := Function.update s f n
  get_set s f g n := by simp [Function.update_apply]

/-- Entries kept as a finite list, so that they can be listed. -/
def ofAList : Volume (AList fun _ : κ => ν) κ ν where
  get s f := s.lookup f
  set s f
    | none => s.erase f
    | some n => s.insert f n
  get_set s f g n := by
    cases n with
    | none =>
      by_cases h : g = f
      · subst h; simp
      · simp [h, AList.lookup_erase_ne h]
    | some n =>
      by_cases h : g = f
      · subst h; simp
      · simp [h, AList.lookup_insert_ne h]

end Volume

theorem map_ok {x : Except ε α} {f : α → β} : x.map f = .ok b ↔ ∃ a, x = .ok a ∧ f a = b := by
  cases x <;> simp [Except.map]

theorem map_error {x : Except ε α} {f : α → β} : x.map f = .error e ↔ x = .error e := by
  cases x <;> simp [Except.map]

end Effects
