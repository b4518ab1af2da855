import Mathlib.Order.WellFounded
import NostdbServer.Effects.Discipline

/-!
# Locks

A program, seen by the locks it takes and gives back. An operation may take a
lock, give one back, or hold one shared while it is performed; all others only
take time, and their answers are arbitrary. A crew is any number of such
programs with the locks each of them holds. Programs that take locks in a
well-founded order, and end holding none, never all wait: every crew of them
with an unfinished program has one that can go on.
-/

namespace Effects

/-- What an operation does with a lock. -/
inductive LockUse (κ : Type)
  | none
  | takes (k : κ)
  | gives (k : κ)
  | shares (k : κ)

inductive LockOp (κ : Type) (S : Signature)
  | acquire (k : κ) (shared : Bool)
  | release (k : κ)
  | work (o : S.Op)

def LockOp.Ans : LockOp κ S → Type
  | .acquire _ _ | .release _ => Unit
  | .work o => S.Ans o

abbrev locking (κ : Type) (S : Signature) : Signature := ⟨LockOp κ S, LockOp.Ans⟩

abbrev LockProg (κ : Type) (S : Signature) := Prog (locking κ S) Unit Unit

namespace LockProg

variable {κ : Type} {S : Signature}

def acquire (k : κ) (shared : Bool) (rest : LockProg κ S) : LockProg κ S :=
  .op (S := locking κ S) (.acquire k shared) fun _ => rest

def release (k : κ) (rest : LockProg κ S) : LockProg κ S :=
  .op (S := locking κ S) (.release k) fun _ => rest

def work (o : S.Op) (next : S.Ans o → LockProg κ S) : LockProg κ S :=
  .op (S := locking κ S) (.work o) next

end LockProg

/-- The locks of a program, and how it goes on after each answer. -/
def Prog.locked (use : S.Op → LockUse κ) : Prog S ε α → LockProg κ S
  | .pure _ => .pure ()
  | .fail _ => .fail ()
  | .op o next =>
    match use o with
    | .none => .work o fun ans => (next ans).locked use
    | .takes k => .acquire k false (.work o fun ans => (next ans).locked use)
    | .gives k => .work o fun ans => .release k ((next ans).locked use)
    | .shares k => .acquire k true (.work o fun ans => .release k ((next ans).locked use))

-- ---------------------------------------------------------------------------
-- Crews
-- ---------------------------------------------------------------------------

/-- The locks a program holds, and whether it shares them. -/
abbrev Held (κ : Type) := List (κ × Bool)

structure Crew (ι κ : Type) (S : Signature) where
  held : ι → Held κ
  threads : ι → Option (LockProg κ S)

namespace Crew

variable {ι κ : Type} {S : Signature} [DecidableEq ι] [DecidableEq κ]

def empty : Crew ι κ S := ⟨fun _ => [], fun _ => none⟩

/-- Thread `i` goes on with `rest`, holding `locks`. -/
def goesOn (c : Crew ι κ S) (i : ι) (locks : Held κ) (rest : LockProg κ S) : Crew ι κ S :=
  ⟨Function.update c.held i locks, Function.update c.threads i (some rest)⟩

/-- A lock is granted to one, or shared by several. Where writers are preferred
it is not shared while somebody waits for it alone. -/
def Grants (preferring : Bool) (c : Crew ι κ S) (k : κ) : Bool → Prop
  | false => ∀ j, ∀ h ∈ c.held j, h.1 ≠ k
  | true => (∀ j, (k, false) ∉ c.held j) ∧
      (preferring = true → ∀ j rest, c.threads j ≠ some (.acquire k false rest))

inductive Step (preferring : Bool) (c : Crew ι κ S) (i : ι) : Crew ι κ S → Prop
  | acquire {k : κ} {shared : Bool} {rest : LockProg κ S}
      (at' : c.threads i = some (.acquire k shared rest)) (granted : c.Grants preferring k shared) :
      Step preferring c i (c.goesOn i ((k, shared) :: c.held i) rest)
  | release {k : κ} {rest : LockProg κ S} (at' : c.threads i = some (.release k rest)) :
      Step preferring c i (c.goesOn i ((c.held i).filter (·.1 ≠ k)) rest)
  | work {o : S.Op} {next : S.Ans o → LockProg κ S} (at' : c.threads i = some (.work o next))
      (ans : S.Ans o) : Step preferring c i (c.goesOn i (c.held i) (next ans))

/-- Programs of the kind `P` start at any time and take turns. -/
inductive Reaches (preferring : Bool) (P : LockProg κ S → Prop) : Crew ι κ S → Prop
  | empty : Reaches preferring P empty
  | start {c : Crew ι κ S} {i : ι} {p : LockProg κ S} : Reaches preferring P c → P p →
      c.threads i = none → Reaches preferring P (c.goesOn i [] p)
  | step {c c' : Crew ι κ S} {i : ι} : Reaches preferring P c → Step preferring c i c' →
      Reaches preferring P c'

end Crew

-- ---------------------------------------------------------------------------
-- Lock order
-- ---------------------------------------------------------------------------

section
variable {κ ρ : Type} {S : Signature} [DecidableEq κ] [Preorder ρ] {rank : κ → ρ}

/-- Takes only locks above those it holds, and holds none at its end. -/
def Ordered (rank : κ → ρ) : Held κ → LockProg κ S → Prop
  | held, .pure _ | held, .fail _ => held = []
  | held, .op (.acquire k shared) next =>
    (∀ h ∈ held, rank h.1 < rank k) ∧ Ordered rank ((k, shared) :: held) (next ())
  | held, .op (.release k) next => Ordered rank (held.filter (·.1 ≠ k)) (next ())
  | held, .op (.work _) next => ∀ ans, Ordered rank held (next ans)

/-- A lock that stands above those held is none of them. -/
theorem filter_taken {held : List κ} {k : κ} (hk : ∀ h ∈ held, rank h < rank k) :
    (k :: held).filter (· ≠ k) = held := by
  simp only [ne_eq, not_true_eq_false, decide_false, Bool.false_eq_true, not_false_eq_true,
    List.filter_cons_of_neg, List.filter_eq_self]
  intro h hh
  simpa using fun heq : h = k => lt_irrefl _ (heq ▸ hk h hh)

/-- The account of the locks held by themselves. -/
def lockOrder (rank : κ → ρ) (use : S.Op → LockUse κ) : Discipline S (List κ) where
  allowed held o :=
    match use o with
    | .takes k | .shares k => ∀ h ∈ held, rank h < rank k
    | .none | .gives _ => True
  admits _ _ _ := True
  next held o _ :=
    match use o with
    | .takes k => k :: held
    | .gives k => held.filter (· ≠ k)
    | .none | .shares _ => held

theorem Ordered.of_obeys {use : S.Op → LockUse κ} {p : Prog S ε α} {held : List κ}
    (h : (lockOrder rank use).Obeys p held (fun _ m => m = []) fun _ m => m = []) :
    Ordered rank (held.map (·, false)) (p.locked use) := by
  induction p generalizing held with
  | pure a => exact List.map_eq_nil_iff.mpr h
  | fail e => exact List.map_eq_nil_iff.mpr h
  | op o next ih =>
    obtain ⟨hallowed, hnext⟩ := h
    have hrest : ∀ ans, Ordered rank (((lockOrder rank use).next held o ans).map (·, false))
        ((next ans).locked use) := fun ans => ih ans (hnext ans trivial)
    simp only [lockOrder] at hallowed hrest
    unfold Prog.locked
    cases huse : use o with
    | none =>
      simp only [huse] at hrest
      exact hrest
    | takes k =>
      simp only [huse, List.map_cons] at hallowed hrest
      exact ⟨by simpa using hallowed, hrest⟩
    | gives k =>
      simp only [huse] at hrest
      intro ans
      change Ordered rank (List.filter _ _) _
      rw [List.filter_map]
      exact hrest ans
    | shares k =>
      simp only [huse] at hallowed hrest
      refine ⟨by simpa using hallowed, fun ans => ?_⟩
      have hback : (((k, true) :: held.map (·, false)).filter (·.1 ≠ k) : Held κ) =
          held.map (·, false) := by
        have hheld : (held.map (·, false)).filter (fun h => decide (h.1 ≠ k)) =
            (held.filter (· ≠ k)).map (·, false) := List.filter_map ..
        have htaken := filter_taken hallowed
        simp only [ne_eq, not_true_eq_false, decide_false, Bool.false_eq_true, not_false_eq_true,
          List.filter_cons_of_neg] at htaken hheld ⊢
        rw [hheld, htaken]
      change Ordered rank (List.filter _ _) _
      rw [hback]
      exact hrest ans

-- ---------------------------------------------------------------------------
-- Rules
-- ---------------------------------------------------------------------------

/-- Keeps the order, from holding `held` to holding `left`, however it ends. -/
def Trades (rank : κ → ρ) (use : S.Op → LockUse κ) (p : Prog S ε α) (held left : List κ) : Prop :=
  (lockOrder rank use).Obeys p held (fun _ m => m = left) fun _ m => m = left

/-- Ends with the locks it began with. -/
abbrev Balanced (rank : κ → ρ) (use : S.Op → LockUse κ) (p : Prog S ε α) (held : List κ) : Prop :=
  Trades rank use p held held

namespace Trades

variable {use : S.Op → LockUse κ} {held left : List κ} {k : κ}

theorem ordered {p : Prog S ε α} (h : Balanced rank use p []) : Ordered rank [] (p.locked use) :=
  .of_obeys h

theorem pure (a : α) : Balanced rank use (.pure a : Prog S ε α) held := rfl

theorem fail (e : ε) : Balanced rank use (.fail e : Prog S ε α) held := rfl

theorem ofExcept (r : Except ε α) : Balanced rank use (Prog.ofExcept r : Prog S ε α) held := by
  cases r <;> rfl

theorem of_only {p : Prog S ε α} (h : p.Only fun o => use o = .none) : Balanced rank use p held := by
  refine Discipline.Obeys.of_only (M := (· = held)) h ?_ rfl
  rintro _ o rfl ho
  simp only [lockOrder, ho]
  exact ⟨trivial, fun _ _ => trivial⟩

theorem bind {p : Prog S ε α} {f : α → Prog S ε β} (h : Balanced rank use p held)
    (hf : ∀ a, Balanced rank use (f a) held) : Balanced rank use (p.bind f) held := by
  refine Discipline.Obeys.bind (h.mono ?_ fun _ _ hm => hm)
  rintro a _ rfl
  exact hf a

theorem attempt {p : Prog S ε α} {f : Except ε α → Prog S ε' β} (h : Balanced rank use p held)
    (hf : ∀ r, Trades rank use (f r) held left) :
    Trades rank use (p.attempt.bind f) held left := by
  refine Discipline.Obeys.bind (Discipline.Obeys.attempt (h.mono ?_ ?_))
  · rintro a _ rfl
    exact hf _
  · rintro e _ rfl
    exact hf _

theorem mapError {p : Prog S ε α} {g : ε → ε'} (h : Balanced rank use p held) :
    Balanced rank use (p.mapError g) held :=
  Discipline.Obeys.mapError h

theorem step {o : S.Op} {f : S.Ans o → Prog S ε β} (ho : use o = .none)
    (hf : ∀ ans, Trades rank use (f ans) held left) :
    Trades rank use ((Prog.call o).bind f) held left := by
  refine Discipline.Obeys.step (by simp [lockOrder, ho]) fun ans _ => ?_
  have hnext : (lockOrder rank use).next held o ans = held := by simp [lockOrder, ho]
  rw [hnext]
  exact hf ans

theorem takes {o : S.Op} {f : S.Ans o → Prog S ε β} (ho : use o = .takes k)
    (hk : ∀ h ∈ held, rank h < rank k) (hf : ∀ ans, Trades rank use (f ans) (k :: held) left) :
    Trades rank use ((Prog.call o).bind f) held left := by
  refine Discipline.Obeys.step (by simpa only [lockOrder, ho] using hk) fun ans _ => ?_
  have hnext : (lockOrder rank use).next held o ans = k :: held := by simp [lockOrder, ho]
  rw [hnext]
  exact hf ans

theorem gives {o : S.Op} {f : S.Ans o → Prog S ε β} (ho : use o = .gives k)
    (hk : ∀ h ∈ held, rank h < rank k) (hf : ∀ ans, Trades rank use (f ans) held left) :
    Trades rank use ((Prog.call o).bind f) (k :: held) left := by
  refine Discipline.Obeys.step (by simp [lockOrder, ho]) fun ans _ => ?_
  have hnext : (lockOrder rank use).next (k :: held) o ans = held := by
    simp only [lockOrder, ho]
    exact filter_taken hk
  rw [hnext]
  exact hf ans

theorem shares {o : S.Op} {f : S.Ans o → Prog S ε β} (ho : use o = .shares k)
    (hk : ∀ h ∈ held, rank h < rank k) (hf : ∀ ans, Trades rank use (f ans) held left) :
    Trades rank use ((Prog.call o).bind f) held left := by
  refine Discipline.Obeys.step (by simpa only [lockOrder, ho] using hk) fun ans _ => ?_
  have hnext : (lockOrder rank use).next held o ans = held := by simp [lockOrder, ho]
  rw [hnext]
  exact hf ans

theorem lift {T : Signature} {use' : T.Op → LockUse κ} {g : S.Op → T.Op}
    {back : (o : S.Op) → T.Ans (g o) → S.Ans o} {p : Prog S ε α} (hg : ∀ o, use' (g o) = use o)
    (h : Trades rank use p held left) : Trades rank use' (p.lift g back) held left := by
  refine Discipline.Obeys.lift ?_ (fun _ _ _ _ => trivial) ?_ h
  · intro m o ho
    simpa only [lockOrder, hg] using ho
  · intro m o ans
    simp only [lockOrder, hg]

end Trades

end

-- ---------------------------------------------------------------------------
-- Somebody can always go on
-- ---------------------------------------------------------------------------

namespace Crew

variable {ι κ ρ : Type} {S : Signature} [DecidableEq ι] [DecidableEq κ] [Preorder ρ]
  {rank : κ → ρ} {preferring : Bool} {P : LockProg κ S → Prop} {c c' : Crew ι κ S} {i : ι}

/-- Every thread keeps the order; who has not started holds nothing. -/
def Disciplined (rank : κ → ρ) (c : Crew ι κ S) : Prop :=
  ∀ i, match c.threads i with
    | some p => Ordered rank (c.held i) p
    | none => c.held i = []

theorem Disciplined.goesOn {locks : Held κ} {rest : LockProg κ S} (h : c.Disciplined rank)
    (hi : Ordered rank locks rest) : (c.goesOn i locks rest).Disciplined rank := by
  intro j
  by_cases hij : j = i
  · subst hij
    simpa [Crew.goesOn] using hi
  · simpa [Crew.goesOn, hij] using h j

omit [DecidableEq ι] in
theorem Disciplined.ordered {p : LockProg κ S} (h : c.Disciplined rank) (hi : c.threads i = some p) :
    Ordered rank (c.held i) p := by
  have := h i
  rwa [hi] at this

theorem Disciplined.step (h : c.Disciplined rank) (hs : Step preferring c i c') :
    c'.Disciplined rank := by
  cases hs with
  | acquire hat _ => exact h.goesOn (h.ordered hat).2
  | release hat => exact h.goesOn (h.ordered hat)
  | work hat ans => exact h.goesOn (h.ordered hat ans)

theorem Reaches.disciplined (hP : ∀ p, P p → Ordered rank [] p) (h : Reaches preferring P c) :
    c.Disciplined rank := by
  induction h with
  | empty => exact fun _ => rfl
  | start _ hp _ ih => exact ih.goesOn (hP _ hp)
  | step _ hs ih => exact ih.step hs

/-- Who holds a lock can go on, or waits for one above it. -/
theorem Disciplined.holder (h : c.Disciplined rank) (hans : ∀ o, Nonempty (S.Ans o)) {k : κ}
    {shared : Bool} (hk : (k, shared) ∈ c.held i) :
    (∃ c', Step preferring c i c') ∨ ∃ k' shared' rest,
      c.threads i = some (.acquire k' shared' rest) ∧ rank k < rank k' := by
  have hi := h i
  split at hi
  · rename_i p hp
    cases p with
    | pure _ | fail _ =>
      rw [show c.held i = [] from hi] at hk
      cases hk
    | op o next =>
      cases o with
      | acquire k' shared' => exact .inr ⟨k', shared', next (), hp, hi.1 _ hk⟩
      | release k' =>
        have hp : c.threads i = some (.release k' (next ())) := hp
        exact .inl ⟨_, .release hp⟩
      | work o =>
        obtain ⟨ans⟩ := hans o
        exact .inl ⟨_, .work hp ans⟩
  · rw [hi] at hk
    cases hk

variable [WellFoundedGT ρ]

/-- If somebody waits for a lock, somebody can go on: follow the holders up. -/
theorem Disciplined.waiting (h : c.Disciplined rank) (hans : ∀ o, Nonempty (S.Ans o)) (r : ρ) :
    ∀ k, rank k = r → ∀ shared rest i, c.threads i = some (.acquire k shared rest) →
      ∃ j c', Step preferring c j c' := by
  induction r using WellFoundedGT.induction with
  | ind r ih =>
    rintro k rfl shared rest i hi
    have hheld : ∀ j shared', (k, shared') ∈ c.held j → ∃ j c', Step preferring c j c' := by
      intro j shared' hj
      obtain ⟨c', hs⟩ | ⟨k', shared', rest', hj', hlt⟩ := h.holder hans hj
      · exact ⟨j, c', hs⟩
      · exact ih _ hlt k' rfl shared' rest' j hj'
    have halone : ∀ rest i, c.threads i = some (.acquire k false rest) →
        ∃ j c', Step preferring c j c' := by
      intro rest i hi
      by_cases hfree : c.Grants preferring k false
      · exact ⟨i, _, .acquire hi hfree⟩
      · simp only [Grants, not_forall, not_not] at hfree
        obtain ⟨j, ⟨_, shared'⟩, hj, rfl⟩ := hfree
        exact hheld j shared' hj
    cases shared with
    | false => exact halone rest i hi
    | true =>
      by_cases hfree : c.Grants preferring k true
      · exact ⟨i, _, .acquire hi hfree⟩
      · simp only [Grants, not_and_or, not_forall, not_not] at hfree
        obtain ⟨j, hj⟩ | ⟨-, j, rest', hj⟩ := hfree
        · exact hheld j false hj
        · exact halone rest' j hj

/-- No deadlock: in a crew with an unfinished program, some program takes a step. -/
theorem Reaches.progress (hP : ∀ p, P p → Ordered rank [] p) (hans : ∀ o, Nonempty (S.Ans o))
    (h : Reaches preferring P c) {o : LockOp κ S} {next : LockOp.Ans o → LockProg κ S}
    (hi : c.threads i = some (.op o next)) : ∃ j c', Step preferring c j c' := by
  have hd := h.disciplined hP
  cases o with
  | acquire k shared => exact hd.waiting hans _ k rfl shared (next ()) i hi
  | release k =>
    have hi : c.threads i = some (.release k (next ())) := hi
    exact ⟨i, _, .release hi⟩
  | work o =>
    obtain ⟨ans⟩ := hans o
    exact ⟨i, _, .work hi ans⟩

end Crew

end Effects
