import Mathlib.Data.List.Forall2
import NostdbServer.Effects.Pool

/-!
# What a program does, whatever it is answered

An event is an operation with its answer, and a run of a program is the list of
events that takes it from one point to another. No state interprets the
operations here: the answers are arbitrary. A `Discipline` is a local account of
the past, which says what a program may do next and which answers it can count
on; `Obeys` is that a program keeps to it. Threads that obey a discipline share
an invariant about their accounts and the state as soon as every permitted
operation keeps it.
-/

namespace Effects

structure Event (S : Signature) where
  op : S.Op
  answer : S.Ans op

namespace Prog

variable {S : Signature} {ε ε' α β : Type}

/-- `p`, performing the events, comes to `q`. -/
inductive Run : Prog S ε α → List (Event S) → Prog S ε α → Prop
  | refl (p : Prog S ε α) : Run p [] p
  | step {o : S.Op} {next : S.Ans o → Prog S ε α} {q : Prog S ε α} {log : List (Event S)}
      (ans : S.Ans o) : Run (next ans) log q → Run (.op o next) (⟨o, ans⟩ :: log) q

theorem Run.snoc {p : Prog S ε α} {o : S.Op} {next : S.Ans o → Prog S ε α}
    (h : Run p log (.op o next)) (ans : S.Ans o) : Run p (log ++ [⟨o, ans⟩]) (next ans) := by
  generalize hq : Prog.op o next = q at h
  induction h with
  | refl p =>
    subst hq
    exact .step ans (.refl _)
  | step ans' _ ih => exact .step ans' (ih hq)

theorem Run.append {p q r : Prog S ε α} (h : Run p log q) (h' : Run q log' r) :
    Run p (log ++ log') r := by
  induction h with
  | refl p => exact h'
  | step ans _ ih => exact .step ans (ih h')

/-- Where every operation has an answer, a program can be brought to an end. -/
theorem Run.complete (hans : ∀ o, Nonempty (S.Ans o)) (p : Prog S ε α) :
    ∃ log q r, Run p log q ∧ q.result? = some r := by
  induction p with
  | pure a => exact ⟨[], _, _, .refl _, rfl⟩
  | fail e => exact ⟨[], _, _, .refl _, rfl⟩
  | op o next ih =>
    obtain ⟨ans⟩ := hans o
    obtain ⟨log, q, r, hrun, hq⟩ := ih ans
    exact ⟨_, q, r, .step ans hrun, hq⟩

/-- A run of two programs in a row is still in the first one, or past it. -/
theorem Run.of_bind {p : Prog S ε α} {f : α → Prog S ε β} {q : Prog S ε β}
    (h : Run (p.bind f) log q) :
    (∃ p', Run p log p' ∧ q = p'.bind f) ∨
      ∃ a before after, log = before ++ after ∧ Run p before (.pure a) ∧ Run (f a) after q := by
  induction p generalizing log with
  | pure a => exact .inr ⟨a, [], log, rfl, .refl _, h⟩
  | fail e =>
    cases h
    exact .inl ⟨_, .refl _, rfl⟩
  | op o next ih =>
    cases h with
    | refl => exact .inl ⟨_, .refl _, rfl⟩
    | step ans h =>
      obtain ⟨p', hp, rfl⟩ | ⟨a, before, after, rfl, hp, hf⟩ := ih ans h
      · exact .inl ⟨p', .step ans hp, rfl⟩
      · exact .inr ⟨a, _, after, rfl, .step ans hp, hf⟩

/-- The run to the end in which every operation is answered by `ans`. -/
def answered (ans : (o : S.Op) → S.Ans o) : Prog S ε α → List (Event S) × Prog S ε α
  | .pure a => ([], .pure a)
  | .fail e => ([], .fail e)
  | .op o next =>
    let (log, q) := (next (ans o)).answered ans
    (⟨o, ans o⟩ :: log, q)

theorem Run.answered (ans : (o : S.Op) → S.Ans o) (p : Prog S ε α) :
    Run p (p.answered ans).1 (p.answered ans).2 := by
  induction p with
  | pure a => exact .refl _
  | fail e => exact .refl _
  | op o next ih => exact .step _ (ih _)

theorem Run.only {P : S.Op → Prop} {p q : Prog S ε α} (h : Run p log q) (hp : p.Only P) :
    (∀ e ∈ log, P e.op) ∧ q.Only P := by
  induction h with
  | refl p => exact ⟨by simp, hp⟩
  | step ans _ ih =>
    obtain ⟨hlog, hq⟩ := ih (hp.2 ans)
    exact ⟨List.forall_mem_cons.mpr ⟨hp.1, hlog⟩, hq⟩

end Prog

/-- `e'` is what `e` becomes in a larger signature. -/
def Event.Lifts {S T : Signature} (f : S.Op → T.Op) (g : (o : S.Op) → T.Ans (f o) → S.Ans o)
    (e : Event S) (e' : Event T) : Prop :=
  ∃ ans, e' = ⟨f e.op, ans⟩ ∧ e.answer = g e.op ans

theorem Prog.Run.of_lift {S T : Signature} {f : S.Op → T.Op}
    {g : (o : S.Op) → T.Ans (f o) → S.Ans o} {p : Prog S ε α} {q : Prog T ε α}
    {log : List (Event T)} (h : (p.lift f g).Run log q) :
    ∃ inner p', p.Run inner p' ∧ q = p'.lift f g ∧ List.Forall₂ (Event.Lifts f g) inner log := by
  induction p generalizing log with
  | pure a =>
    cases h
    exact ⟨[], .pure a, .refl _, rfl, .nil⟩
  | fail e =>
    cases h
    exact ⟨[], .fail e, .refl _, rfl, .nil⟩
  | op o next ih =>
    cases h with
    | refl => exact ⟨[], .op o next, .refl _, rfl, .nil⟩
    | step ans h =>
      obtain ⟨inner, p', hp, rfl, hevents⟩ := ih _ h
      exact ⟨_, p', .step _ hp, rfl, .cons ⟨ans, rfl, rfl⟩ hevents⟩

/-- An account `μ` of the past: what may be done next, which answers to count on,
and how an event changes the account. -/
structure Discipline (S : Signature) (μ : Type) where
  allowed : μ → S.Op → Prop
  admits : μ → (o : S.Op) → S.Ans o → Prop
  next : μ → (o : S.Op) → S.Ans o → μ

namespace Discipline

variable {S : Signature} {μ : Type} (D : Discipline S μ)

def Obeys (p : Prog S ε α) (m : μ) (Q : α → μ → Prop) (F : ε → μ → Prop) : Prop :=
  match p with
  | .pure a => Q a m
  | .fail e => F e m
  | .op o next => D.allowed m o ∧
      ∀ ans, D.admits m o ans → Obeys (next ans) (D.next m o ans) Q F

variable {D} {m : μ}

section
variable {Q Q' : α → μ → Prop} {F F' : ε → μ → Prop} {p : Prog S ε α}

theorem Obeys.mono (h : D.Obeys p m Q F) (hq : ∀ a m, Q a m → Q' a m)
    (hf : ∀ e m, F e m → F' e m) : D.Obeys p m Q' F' := by
  induction p generalizing m with
  | pure a => exact hq a m h
  | fail e => exact hf e m h
  | op o next ih => exact ⟨h.1, fun ans ha => ih ans (h.2 ans ha)⟩

/-- A program whose operations keep the account within `M` obeys from there. -/
theorem Obeys.of_only {P : S.Op → Prop} {M : μ → Prop} (hp : p.Only P)
    (hstep : ∀ m o, M m → P o → D.allowed m o ∧ ∀ ans, D.admits m o ans → M (D.next m o ans))
    (hm : M m) : D.Obeys p m (fun _ => M) (fun _ => M) := by
  induction p generalizing m with
  | pure a => exact hm
  | fail e => exact hm
  | op o next ih =>
    obtain ⟨hallowed, hnext⟩ := hstep m o hm hp.1
    exact ⟨hallowed, fun ans ha => ih ans (hp.2 ans) (hnext ans ha)⟩

end

theorem Obeys.bind {p : Prog S ε α} {f : α → Prog S ε β} {Q : β → μ → Prop} {F : ε → μ → Prop}
    (h : D.Obeys p m (fun a m => D.Obeys (f a) m Q F) F) : D.Obeys (p.bind f) m Q F := by
  induction p generalizing m with
  | pure a => exact h
  | fail e => exact h
  | op o next ih => exact ⟨h.1, fun ans ha => ih ans (h.2 ans ha)⟩

/-- An operation and what follows each admitted answer. -/
theorem Obeys.step {f : S.Ans o → Prog S ε β} {Q : β → μ → Prop} {F : ε → μ → Prop}
    (ho : D.allowed m o) (h : ∀ ans, D.admits m o ans → D.Obeys (f ans) (D.next m o ans) Q F) :
    D.Obeys ((Prog.call o).bind f) m Q F := ⟨ho, h⟩

theorem Obeys.attempt {p : Prog S ε α} {Q : Except ε α → μ → Prop} {F : ε' → μ → Prop}
    (h : D.Obeys p m (fun a => Q (.ok a)) (fun e => Q (.error e))) :
    D.Obeys (p.attempt : Prog S ε' _) m Q F := by
  induction p generalizing m with
  | pure a => exact h
  | fail e => exact h
  | op o next ih => exact ⟨h.1, fun ans ha => ih ans (h.2 ans ha)⟩

theorem Obeys.mapError {p : Prog S ε α} {f : ε → ε'} {Q : α → μ → Prop} {F : ε' → μ → Prop}
    (h : D.Obeys p m Q (fun e => F (f e))) : D.Obeys (p.mapError f) m Q F := by
  induction p generalizing m with
  | pure a => exact h
  | fail e => exact h
  | op o next ih => exact ⟨h.1, fun ans ha => ih ans (h.2 ans ha)⟩

/-- A program keeps its discipline inside a larger one. -/
theorem Obeys.lift {T : Signature} {D' : Discipline T μ} {f : S.Op → T.Op}
    {g : (o : S.Op) → T.Ans (f o) → S.Ans o}
    (hallowed : ∀ m o, D.allowed m o → D'.allowed m (f o))
    (hadmits : ∀ m o ans, D'.admits m (f o) ans → D.admits m o (g o ans))
    (hnext : ∀ m o ans, D'.next m (f o) ans = D.next m o (g o ans))
    {p : Prog S ε α} {Q : α → μ → Prop} {F : ε → μ → Prop} (h : D.Obeys p m Q F) :
    D'.Obeys (p.lift f g) m Q F := by
  induction p generalizing m with
  | pure a => exact h
  | fail e => exact h
  | op o next ih =>
    refine ⟨hallowed m o h.1, fun ans ha => ?_⟩
    rw [hnext]
    exact ih _ (h.2 _ (hadmits m o ans ha))

-- ---------------------------------------------------------------------------
-- The account of everything that happened
-- ---------------------------------------------------------------------------

/-- The account is the list of events itself; nothing is forbidden and any
answer must be reckoned with. -/
def history (S : Signature) : Discipline S (List (Event S)) where
  allowed _ _ := True
  admits _ _ _ := True
  next log o ans := log ++ [⟨o, ans⟩]

@[simp] theorem history_next (log : List (Event S)) (o : S.Op) (ans : S.Ans o) :
    (history S).next log o ans = log ++ [⟨o, ans⟩] := rfl

theorem Obeys.run {p q : Prog S ε α} {Q : α → List (Event S) → Prop}
    {F : ε → List (Event S) → Prop} {before : List (Event S)}
    (h : (history S).Obeys p before Q F) (hr : p.Run log q) :
    (history S).Obeys q (before ++ log) Q F := by
  induction hr generalizing before with
  | refl p => simpa using h
  | step ans _ ih => simpa using ih (h.2 ans trivial)

/-- The events of a program, appended to those before, when all of them satisfy
`P`. -/
theorem Obeys.events {P : S.Op → Prop} {p : Prog S ε α} (hp : p.Only P)
    (before : List (Event S)) :
    (history S).Obeys p before
      (fun _ log => ∃ l, log = before ++ l ∧ ∀ e ∈ l, P e.op)
      (fun _ log => ∃ l, log = before ++ l ∧ ∀ e ∈ l, P e.op) := by
  refine Obeys.of_only hp ?_ ⟨[], by simp, by simp⟩
  rintro _ o ⟨l, rfl, hl⟩ ho
  refine ⟨trivial, fun ans _ => ⟨l ++ [⟨o, ans⟩], by simp, ?_⟩⟩
  simpa [or_imp, forall_and] using ⟨hl, ho⟩

end Discipline

-- ---------------------------------------------------------------------------
-- Programs and the events they perform
-- ---------------------------------------------------------------------------

/-- `p` ends in values and errors that `R` relates to the events it performed. -/
def Performs (p : Prog S ε α)
    (R : Except ε α → List (Event S) → Prop) : Prop :=
  ∀ before, (Discipline.history S).Obeys p before
    (fun a log => ∃ l, log = before ++ l ∧ R (.ok a) l)
    (fun e log => ∃ l, log = before ++ l ∧ R (.error e) l)

namespace Performs

theorem run {p : Prog S ε α} {R : Except ε α → List (Event S) → Prop}
    (h : Performs p R) (hrun : p.Run log q) (hq : q.result? = some r) : R r log := by
  have hend := Discipline.Obeys.run (h []) hrun
  cases q with
  | pure a =>
    cases hq
    obtain ⟨l, hl, hr⟩ := hend
    cases hl
    exact hr
  | fail e =>
    cases hq
    obtain ⟨l, hl, hr⟩ := hend
    cases hl
    exact hr
  | op o next => cases hq

theorem of_run {p : Prog S ε α} {R : Except ε α → List (Event S) → Prop}
    (h : ∀ log q r, p.Run log q → q.result? = some r → R r log) : Performs p R := by
  induction p generalizing R with
  | pure a => exact fun _ => ⟨[], by simp, h _ _ _ (.refl _) rfl⟩
  | fail e => exact fun _ => ⟨[], by simp, h _ _ _ (.refl _) rfl⟩
  | op o next ih =>
    refine fun before => ⟨trivial, fun ans _ => ?_⟩
    have hnext := ih ans (R := fun r l => R r (⟨o, ans⟩ :: l))
      (fun log q r hrun hr => h _ _ _ (.step ans hrun) hr) (before ++ [⟨o, ans⟩])
    refine hnext.mono ?_ ?_
    · rintro a _ ⟨l, rfl, hl⟩
      exact ⟨_, by simp, hl⟩
    · rintro e _ ⟨l, rfl, hl⟩
      exact ⟨_, by simp, hl⟩

/-- The events so far are the first of those of some run to the end. -/
theorem begun {p q : Prog S ε α} {R : Except ε α → List (Event S) → Prop}
    (hans : ∀ o, Nonempty (S.Ans o)) (h : Performs p R) (hrun : p.Run log q) :
    ∃ later q' r, q.Run later q' ∧ q'.result? = some r ∧ R r (log ++ later) := by
  obtain ⟨later, q', r, hlater, hr⟩ := Prog.Run.complete hans q
  exact ⟨later, q', r, hlater, hr, h.run (hrun.append hlater) hr⟩

theorem mono {p : Prog S ε α} {R R' : Except ε α → List (Event S) → Prop}
    (h : Performs p R) (hr : ∀ r l, R r l → R' r l) : Performs p R' := by
  refine fun before => (h before).mono ?_ ?_
  · rintro a _ ⟨l, rfl, hl⟩
    exact ⟨l, rfl, hr _ l hl⟩
  · rintro e _ ⟨l, rfl, hl⟩
    exact ⟨l, rfl, hr _ l hl⟩

theorem pure {R : Except ε α → List (Event S) → Prop} (h : R (.ok a) []) :
    Performs (.pure a : Prog S ε α) R :=
  fun _ => ⟨[], by simp, h⟩

theorem fail {R : Except ε α → List (Event S) → Prop} (h : R (.error e) []) :
    Performs (.fail e : Prog S ε α) R :=
  fun _ => ⟨[], by simp, h⟩

theorem ofExcept {R : Except ε α → List (Event S) → Prop} {r : Except ε α} (h : R r []) :
    Performs (Prog.ofExcept r : Prog S ε α) R := by
  cases r with
  | ok a => exact pure h
  | error e => exact fail h

/-- The events of what follows come after those of `p`. -/
theorem bind {p : Prog S ε α} {f : α → Prog S ε β}
    {R : Except ε α → List (Event S) → Prop}
    {R' : Except ε β → List (Event S) → Prop} (h : Performs p R)
    (hok : ∀ a l, R (.ok a) l → Performs (f a) fun r l' => R' r (l ++ l'))
    (herror : ∀ e l, R (.error e) l → R' (.error e) l) : Performs (p.bind f) R' := by
  refine fun before => Discipline.Obeys.bind ((h before).mono ?_ ?_)
  · rintro a _ ⟨l, rfl, hl⟩
    refine (hok a l hl (before ++ l)).mono ?_ ?_
    · rintro b _ ⟨l', rfl, hl'⟩
      exact ⟨l ++ l', by simp, hl'⟩
    · rintro e _ ⟨l', rfl, hl'⟩
      exact ⟨l ++ l', by simp, hl'⟩
  · rintro e _ ⟨l, rfl, hl⟩
    exact ⟨l, rfl, herror e l hl⟩

theorem attempt {p : Prog S ε α} {R : Except ε α → List (Event S) → Prop}
    {R' : Except ε' (Except ε α) → List (Event S) → Prop} (h : Performs p R)
    (hr : ∀ r l, R r l → R' (.ok r) l) : Performs (p.attempt : Prog S ε' _) R' := by
  refine fun before => Discipline.Obeys.attempt ((h before).mono ?_ ?_)
  · rintro a _ ⟨l, rfl, hl⟩
    exact ⟨l, rfl, hr _ l hl⟩
  · rintro e _ ⟨l, rfl, hl⟩
    exact ⟨l, rfl, hr _ l hl⟩

theorem attempt_bind {p : Prog S ε α} {f : Except ε α → Prog S ε' β}
    {R : Except ε α → List (Event S) → Prop} {R' : Except ε' β → List (Event S) → Prop}
    (h : Performs p R) (hf : ∀ r l, R r l → Performs (f r) fun r' l' => R' r' (l ++ l')) :
    Performs (p.attempt.bind f) R' := by
  have hattempt : Performs (p.attempt : Prog S ε' _) fun r l => ∃ r', r = .ok r' ∧ R r' l :=
    attempt h fun r l hl => ⟨r, rfl, hl⟩
  refine bind hattempt ?_ ?_
  · rintro r l ⟨_, hr, hl⟩
    cases hr
    exact hf r l hl
  · rintro _ _ ⟨_, hr, _⟩
    cases hr

theorem op {o : S.Op} {next : S.Ans o → Prog S ε α} {R : Except ε α → List (Event S) → Prop}
    (h : ∀ ans, Performs (next ans) fun r l => R r (⟨o, ans⟩ :: l)) :
    Performs (.op o next) R := by
  refine fun before => ⟨trivial, fun ans _ => (h ans _).mono ?_ ?_⟩
  · rintro b _ ⟨l, rfl, hl⟩
    exact ⟨_, by simp, hl⟩
  · rintro e _ ⟨l, rfl, hl⟩
    exact ⟨_, by simp, hl⟩

theorem step {o : S.Op} {f : S.Ans o → Prog S ε β} {R : Except ε β → List (Event S) → Prop}
    (h : ∀ ans, Performs (f ans) fun r l => R r (⟨o, ans⟩ :: l)) :
    Performs ((Prog.call o).bind f) R := op h

theorem of_only {P : S.Op → Prop} {p : Prog S ε α} (hp : p.Only P) :
    Performs p fun _ log => ∀ e ∈ log, P e.op :=
  fun before => Discipline.Obeys.events hp before

/-- After anything that cannot spoil what is to be shown. -/
theorem after {p : Prog S ε α} {f : α → Prog S ε β} {R : Except ε β → List (Event S) → Prop}
    (hR : ∀ r l l', R r l' → R r (l ++ l')) (herror : ∀ e l, R (.error e) l)
    (hf : ∀ a, Performs (f a) R) : Performs (p.bind f) R := by
  refine bind (of_only (Prog.Only.of_forall (P := fun _ => True) (fun _ => trivial) p)) ?_ ?_
  · exact fun a l _ => (hf a).mono fun r l' => hR r l l'
  · exact fun e l _ => herror e l

theorem lift {S T : Signature} {f : S.Op → T.Op} {g : (o : S.Op) → T.Ans (f o) → S.Ans o}
    {p : Prog S ε α} {R : Except ε α → List (Event S) → Prop} (h : Performs p R) :
    Performs (p.lift f g) fun r log =>
      ∃ inner, R r inner ∧ List.Forall₂ (Event.Lifts f g) inner log := by
  refine of_run fun log q r hrun hr => ?_
  obtain ⟨inner, p', hp, rfl, hevents⟩ := hrun.of_lift
  refine ⟨inner, h.run hp ?_, hevents⟩
  cases p' with
  | op => cases hr
  | _ => exact hr

end Performs

-- ---------------------------------------------------------------------------
-- Threads
-- ---------------------------------------------------------------------------

namespace Pool

variable {ι : Type} [DecidableEq ι] {S : Signature} {χ σ ε α μ : Type} {D : Discipline S μ}
  {I : (ι → μ) → σ → Prop} {Q : ι → α → μ → Prop} {F : ι → ε → μ → Prop}
  {p p' : Pool ι S ε α σ} {i : ι}

/-- Every thread obeys from its account, and the accounts fit the state. -/
structure Orderly (D : Discipline S μ) (I : (ι → μ) → σ → Prop) (Q : ι → α → μ → Prop)
    (F : ι → ε → μ → Prop) (p : Pool ι S ε α σ) (m : ι → μ) : Prop where
  fits : I m p.state
  obeys : ∀ i rest, p.threads i = some rest → D.Obeys rest (m i) (Q i) (F i)

theorem Orderly.act {W : World S χ σ} {m : ι → μ} (h : Orderly D I Q F p m)
    (step : ∀ o ans t, I m p.state → D.allowed (m i) o → W.step o c p.state = some (ans, t) →
      D.admits (m i) o ans ∧ I (Function.update m i (D.next (m i) o ans)) t)
    (hact : p.act W i c = some p') : ∃ m', Orderly D I Q F p' m' := by
  obtain ⟨o, next, ans, t, hp, hs, rfl⟩ := act_cases hact
  obtain ⟨hallowed, hnext⟩ := h.obeys i _ hp
  obtain ⟨hadmits, hfits⟩ := step o ans t h.fits hallowed hs
  refine ⟨_, hfits, fun j rest hj => ?_⟩
  by_cases hij : j = i
  · subst hij
    simp only [Function.update_self, Option.some.injEq] at hj ⊢
    subst hj
    exact hnext ans hadmits
  · have hj : p.threads j = some rest := by simpa [hij] using hj
    simpa [hij] using h.obeys j rest hj

end Pool

end Effects
