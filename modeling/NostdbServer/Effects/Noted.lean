import NostdbServer.Effects.Discipline
import NostdbServer.Effects.Exec

/-!
# Programs that keep an account

`noted` threads an account through a program: every event is entered, and the
outcome comes with what the account is then. The operations stay the same, so
every rule about them serves the noted program too. The account of a run is the
one of its trace.

The account used most is the list of the steps that failed. `Once` is the
specification of a program that is to be judged on the runs in which at most
one step fails.
-/

namespace Effects

namespace Prog

variable {S : Signature} {ε ε' α β μ : Type}

def noted (note : μ → Event S → μ) : Prog S ε α → μ → Prog S (ε × μ) (α × μ)
  | .pure a, m => .pure (a, m)
  | .fail e, m => .fail (e, m)
  | .op o next, m => .op o fun ans => (next ans).noted note (note m ⟨o, ans⟩)

variable {note : μ → Event S → μ}

theorem noted_bind (p : Prog S ε α) (f : α → Prog S ε β) (m : μ) :
    (p.bind f).noted note m = (p.noted note m).bind fun r => (f r.1).noted note r.2 := by
  induction p generalizing m with
  | pure a => rfl
  | fail e => rfl
  | op o next ih => simp only [bind_op, noted, ih]

/-- What an attempt hands on, with the account. -/
def settle (k : Except ε α → μ → β) : Except (ε × μ) (α × μ) → β
  | .ok (a, m) => k (.ok a) m
  | .error (e, m) => k (.error e) m

theorem noted_attempt (p : Prog S ε α) (k : Except ε α → Prog S ε' β) (m : μ) :
    ((p.attempt : Prog S ε' _).bind k).noted note m =
      ((p.noted note m).attempt : Prog S (ε' × μ) _).bind
        (settle fun r m => (k r).noted note m) := by
  induction p generalizing m with
  | pure a => rfl
  | fail e => rfl
  | op o next ih => simp only [attempt, bind_op, noted, ih]

theorem noted_mapError (p : Prog S ε α) (f : ε → ε') (m : μ) :
    (p.mapError f).noted note m = (p.noted note m).mapError fun r => (f r.1, r.2) := by
  induction p generalizing m with
  | pure a => rfl
  | fail e => rfl
  | op o next ih => simp only [mapError, noted, ih]

end Prog

namespace World

variable {S : Signature} {χ σ ε α μ : Type} (W : World S χ σ)

/-- The events of the run along a list of choices. -/
def trace : List χ → Prog S ε α → σ → List (Event S)
  | c :: cs, .op o next, s =>
    match W.step o c s with
    | some (ans, s') => ⟨o, ans⟩ :: trace cs (next ans) s'
    | none => []
  | _, _, _ => []

theorem run_trace (cs : List χ) (p : Prog S ε α) (s : σ) :
    p.Run (W.trace cs p s) (W.run cs p s).1 := by
  induction cs generalizing p s with
  | nil => cases p <;> exact .refl _
  | cons c cs ih =>
    cases p with
    | pure a => exact .refl _
    | fail e => exact .refl _
    | op o next =>
      cases h : W.step o c s with
      | none => simpa [trace, run, h] using Prog.Run.refl (.op o next)
      | some r => simpa [trace, run, h] using Prog.Run.step r.1 (ih (next r.1) r.2)

theorem run_noted (note : μ → Event S → μ) (cs : List χ) (p : Prog S ε α) (s : σ) (m : μ) :
    W.run cs (p.noted note m) s =
      ((W.run cs p s).1.noted note ((W.trace cs p s).foldl note m), (W.run cs p s).2) := by
  induction cs generalizing p s m with
  | nil => cases p <;> rfl
  | cons c cs ih =>
    cases p with
    | pure a => rfl
    | fail e => rfl
    | op o next =>
      cases h : W.step o c s with
      | none => simp [Prog.noted, run, trace, h]
      | some r => simp only [Prog.noted, run, trace, h, List.foldl_cons, ih]

/-- The same world, where a step whose event is not `ok` does not take place. -/
def heeding (ok : Event S → Bool) : World S χ σ :=
  ⟨fun o c s => (W.step o c s).filter fun r => ok ⟨o, r.1⟩⟩

theorem step_heeding {W : World S χ σ} {ok : Event S → Bool} {o : S.Op} {ans : S.Ans o} {s s' : σ} :
    (W.heeding ok).step o c s = some (ans, s') ↔
      W.step o c s = some (ans, s') ∧ ok ⟨o, ans⟩ = true := by
  simp [heeding, Option.filter_eq_some_iff]

theorem run_heeding {ok : Event S → Bool} {cs : List χ} {p : Prog S ε α} {s : σ}
    (h : ∀ e ∈ W.trace cs p s, ok e = true) : (W.heeding ok).run cs p s = W.run cs p s := by
  induction cs generalizing p s with
  | nil => cases p <;> rfl
  | cons c cs ih =>
    cases p with
    | pure a => rfl
    | fail e => rfl
    | op o next =>
      cases hs : W.step o c s with
      | none => simp [run, heeding, hs]
      | some r =>
        simp only [trace, hs, List.mem_cons, forall_eq_or_imp] at h
        simp only [run, hs, step_heeding.mpr ⟨hs, h.1⟩, ih h.2]

theorem trace_logged (cs : List χ) (p : Prog S ε α) (s : σ) (l : List S.Op) :
    W.logged.trace cs p (s, l) = W.trace cs p s := by
  induction cs generalizing p s l with
  | nil => cases p <;> rfl
  | cons c cs ih =>
    cases p with
    | pure a => rfl
    | fail e => rfl
    | op o next =>
      cases h : W.step o c s with
      | none => simp [trace, logged, h]
      | some r =>
        simp only [trace, h, show W.logged.step o c (s, l) = some (r.1, r.2, l ++ [o]) by
          simp [logged, h], ih]

end World

-- ---------------------------------------------------------------------------
-- Specifications with an account
-- ---------------------------------------------------------------------------

/-- `p`, with the account `m` behind it, ends in `Q` or `F`, whatever the
choices are. -/
def World.Notes (W : World S χ σ) (note : μ → Event S → μ) (view : σ → ω) (p : Prog S ε α)
    (m : μ) (v : ω) (Q : α → μ → ω → Prop) (F : ε → μ → ω → Prop) : Prop :=
  W.Exec (fun _ _ => True) view (fun _ => True) (p.noted note m) v
    (fun r w => Q r.1 r.2 w) (fun r w => F r.1 r.2 w)

namespace World.Notes

variable {S : Signature} {χ σ ω ε ε' α β μ : Type} {W : World S χ σ} {note : μ → Event S → μ}
  {view : σ → ω} {m : μ} {v : ω}

section
variable {Q Q' : α → μ → ω → Prop} {F F' : ε → μ → ω → Prop} {p : Prog S ε α}

theorem mono (h : W.Notes note view p m v Q F) (hq : ∀ a m v, Q a m v → Q' a m v)
    (hf : ∀ e m v, F e m v → F' e m v) : W.Notes note view p m v Q' F' :=
  Exec.mono h (fun _ hc => hc) (fun _ _ h => hq _ _ _ h) fun _ _ h => hf _ _ _ h

theorem pure (h : Q a m v) : W.Notes note view (.pure a) m v Q F := Exec.pure h

theorem fail (h : F e m v) : W.Notes note view (.fail e) m v Q F := Exec.fail h

/-- Every program ends somehow. -/
theorem any : W.Notes note view p m v (fun _ _ _ => True) (fun _ _ _ => True) := by
  induction p generalizing m v with
  | pure a => exact pure trivial
  | fail e => exact fail trivial
  | op o next ih => exact Exec.op trivial fun s _ c _ ans t _ => ih ans

/-- What no event takes from the account holds in the end. -/
theorem doomed {P : μ → Prop} (hnote : ∀ m e, P m → P (note m e)) (hq : ∀ a m w, P m → Q a m w)
    (hf : ∀ e m w, P m → F e m w) (hm : P m) : W.Notes note view p m v Q F := by
  induction p generalizing m v with
  | pure a => exact pure (hq _ _ _ hm)
  | fail e => exact fail (hf _ _ _ hm)
  | op o next ih => exact Exec.op trivial fun s _ c _ ans t _ => ih ans (hnote _ _ hm)

/-- A program on one component of a larger state, with an account that enters
its events in the same way. -/
theorem lift {T : Signature} {χ' τ : Type} {W' : World T χ' τ} {f : S.Op → T.Op}
    {g : (o : S.Op) → T.Ans (f o) → S.Ans o} {note' : μ → Event T → μ} (part : τ → σ)
    (choice : χ' → χ)
    (hstep : ∀ o c t ans t', W'.step (f o) c t = some (ans, t') →
      W.step o (choice c) (part t) = some (g o ans, part t'))
    (hnote : ∀ m o ans, note' m ⟨f o, ans⟩ = note m ⟨o, g o ans⟩)
    (h : W.Notes note view p m v Q F) :
    W'.Notes note' (fun t => view (part t)) (p.lift f g) m v Q F := by
  intro t ht
  have hwp := h (part t) ht
  clear h ht
  induction p generalizing m t with
  | pure a =>
    rintro _ rfl
    exact hwp _ rfl
  | fail e =>
    rintro _ rfl
    exact hwp _ rfl
  | op o next ih =>
    rintro _ rfl
    refine ⟨trivial, fun c _ ans t' hs => ⟨trivial, ?_⟩⟩
    have hnext := ((hwp _ rfl).2 (choice c) trivial _ _ (hstep o c t ans t' hs)).2
    simp only [hnote]
    exact ih _ t' hnext

/-- How a run ends that has come to its end. -/
theorem outcome (h : W.Notes note view p m v Q F) {s : σ} (hs : view s = v) {cs : List χ}
    (hr : (W.run cs p s).1.result? = some r) :
    Setting.Post (fun a => Q a ((W.trace cs p s).foldl note m))
      (fun e => F e ((W.trace cs p s).foldl note m)) r (view (W.run cs p s).2) := by
  have hrest := (h s hs).run cs fun _ _ _ _ => trivial
  change (W.alone _).Wp _ (W.run cs (p.noted note m) s).1 (W.run cs (p.noted note m) s).2 _ _ at hrest
  rw [W.run_noted note cs p s m] at hrest
  generalize (W.run cs p s).1 = rest at hrest hr
  cases rest with
  | pure a =>
    cases hr
    exact hrest _ rfl
  | fail e =>
    cases hr
    exact hrest _ rfl
  | op o next => cases hr

end

section
variable {Q : β → μ → ω → Prop} {F : ε → μ → ω → Prop}

theorem bind {p : Prog S ε α} {k : α → Prog S ε β}
    (h : W.Notes note view p m v (fun a m w => W.Notes note view (k a) m w Q F) F) :
    W.Notes note view (p.bind k) m v Q F := by
  unfold Notes
  rw [Prog.noted_bind]
  exact Exec.bind h

theorem attempt {p : Prog S ε α} {k : Except ε α → Prog S ε' β} {F : ε' → μ → ω → Prop}
    (h : W.Notes note view p m v (fun a m w => W.Notes note view (k (.ok a)) m w Q F)
      (fun e m w => W.Notes note view (k (.error e)) m w Q F)) :
    W.Notes note view ((p.attempt : Prog S ε' _).bind k) m v Q F := by
  unfold Notes
  rw [Prog.noted_attempt]
  exact Exec.attempt h

theorem mapError {p : Prog S ε α} {g : ε → ε'} {Q : α → μ → ω → Prop} {F : ε' → μ → ω → Prop}
    (h : W.Notes note view p m v Q (fun e m w => F (g e) m w)) :
    W.Notes note view (p.mapError g) m v Q F := by
  unfold Notes
  rw [Prog.noted_mapError]
  exact Exec.mapError h

/-- Changes `p`'s conclusion into what the rest of the program needs. -/
theorem seq {p : Prog S ε α} {k : α → Prog S ε β} {P : α → μ → ω → Prop} {G : ε → μ → ω → Prop}
    (h : W.Notes note view p m v P G) (hk : ∀ a m w, P a m w → W.Notes note view (k a) m w Q F)
    (hg : ∀ e m w, G e m w → F e m w) : W.Notes note view (p.bind k) m v Q F :=
  bind (h.mono hk hg)

end

end World.Notes

-- ---------------------------------------------------------------------------
-- Runs that are cut
-- ---------------------------------------------------------------------------

/-- The world with the account of what was done in it. -/
def World.kept (W : World S χ σ) (note : μ → Event S → μ) : World S χ (σ × μ) where
  step o c s := (W.step o c s.1).map fun r => (r.1, r.2, note s.2 ⟨o, r.1⟩)

theorem World.run_kept (W : World S χ σ) (note : μ → Event S → μ) (cs : List χ)
    (p : Prog S ε α) (s : σ) (m : μ) :
    (W.kept note).run cs p (s, m) =
      ((W.run cs p s).1, (W.run cs p s).2, (W.trace cs p s).foldl note m) := by
  induction cs generalizing p s m with
  | nil => cases p <;> rfl
  | cons c cs ih =>
    cases p with
    | pure a => rfl
    | fail e => rfl
    | op o next =>
      cases h : W.step o c s with
      | none => simp [run, trace, kept, h]
      | some r =>
        have hkept : (W.kept note).step o c (s, m) = some (r.1, r.2, note m ⟨o, r.1⟩) := by
          simp [kept, h]
        simp only [run, trace, h, hkept, List.foldl_cons, ih]

/-- Like `Exec`, about the view and the account together: `C` holds wherever the
program is cut. -/
def World.Keeps (W : World S χ σ) (note : μ → Event S → μ) (may : S.Op → χ → Prop) (view : σ → ω)
    (C : μ → ω → Prop) (p : Prog S ε α) (m : μ) (v : ω) (Q : α → μ → ω → Prop)
    (F : ε → μ → ω → Prop) : Prop :=
  (W.kept note).Exec may (fun s => (view s.1, s.2)) (fun w => C w.2 w.1) p (v, m)
    (fun a w => Q a w.2 w.1) (fun e w => F e w.2 w.1)

namespace World.Keeps

variable {S : Signature} {χ σ ω ε ε' α β μ : Type} {W : World S χ σ} {note : μ → Event S → μ}
  {may : S.Op → χ → Prop} {view : σ → ω} {C : μ → ω → Prop} {m : μ} {v : ω}

theorem pure {Q : α → μ → ω → Prop} {F : ε → μ → ω → Prop} (h : Q a m v) :
    W.Keeps note may view C (.pure a) m v Q F := Exec.pure h

theorem fail {Q : α → μ → ω → Prop} {F : ε → μ → ω → Prop} (h : F e m v) :
    W.Keeps note may view C (.fail e) m v Q F := Exec.fail h

section
variable {Q : β → μ → ω → Prop} {F : ε → μ → ω → Prop}

/-- An operation, by what it can answer and what the view is then. -/
theorem op {o : S.Op} {k : S.Ans o → Prog S ε β} {R : S.Ans o → ω → Prop} (hc : C m v)
    (ho : W.Exec may view (fun _ => True) (Prog.call o : Prog S ε _) v R (fun _ _ => False))
    (h : ∀ ans w, R ans w → W.Keeps note may view C (k ans) (note m ⟨o, ans⟩) w Q F) :
    W.Keeps note may view C ((Prog.call o).bind k) m v Q F := by
  refine Exec.op hc ?_
  rintro ⟨s, m'⟩ hv c hm ans t hs
  cases hv
  obtain ⟨r, hr, ht⟩ := Option.map_eq_some_iff.mp hs
  cases ht
  exact h _ _ (((ho s rfl s rfl).2 c hm r.1 r.2 hr).2 r.2 rfl)

theorem attempt {p : Prog S ε α} {k : Except ε α → Prog S ε' β} {F : ε' → μ → ω → Prop}
    (h : W.Keeps note may view C p m v (fun a m w => W.Keeps note may view C (k (.ok a)) m w Q F)
      (fun e m w => W.Keeps note may view C (k (.error e)) m w Q F)) :
    W.Keeps note may view C ((p.attempt : Prog S ε' _).bind k) m v Q F :=
  Exec.attempt h

theorem seq {p : Prog S ε α} {k : α → Prog S ε β} {P : α → μ → ω → Prop}
    {G : ε → μ → ω → Prop} (h : W.Keeps note may view C p m v P G)
    (hk : ∀ a m w, P a m w → W.Keeps note may view C (k a) m w Q F)
    (hg : ∀ e m w, G e m w → F e m w) : W.Keeps note may view C (p.bind k) m v Q F :=
  Exec.seq h (fun a w => hk a w.2 w.1) fun e w => hg e w.2 w.1

end

section
variable {Q Q' : α → μ → ω → Prop} {F F' : ε → μ → ω → Prop} {p : Prog S ε α}

theorem mono (h : W.Keeps note may view C p m v Q F) (hq : ∀ a m v, Q a m v → Q' a m v)
    (hf : ∀ e m v, F e m v → F' e m v) : W.Keeps note may view C p m v Q' F' :=
  Exec.mono h (fun _ hc => hc) (fun _ _ h => hq _ _ _ h) fun _ _ h => hf _ _ _ h

/-- A program none of whose events is entered. -/
theorem quiet {P : S.Op → Prop} (hnote : ∀ o ans, P o → note m ⟨o, ans⟩ = m) (hp : p.Only P)
    {Q : α → ω → Prop} {F : ε → ω → Prop} (h : W.Exec may view (C m) p v Q F) :
    W.Keeps note may view C p m v (fun a m' w => m' = m ∧ Q a w)
      (fun e m' w => m' = m ∧ F e w) := by
  rintro ⟨s, m'⟩ hv
  obtain ⟨hs, hm : m' = m⟩ := Prod.mk.inj hv
  subst hm
  have hwp := h s hs
  clear h hv hs
  induction p generalizing s with
  | pure a =>
    rintro _ rfl
    exact ⟨rfl, hwp _ rfl⟩
  | fail e =>
    rintro _ rfl
    exact ⟨rfl, hwp _ rfl⟩
  | op o next ih =>
    rintro _ rfl
    obtain ⟨hc, hstep⟩ := hwp _ rfl
    refine ⟨hc, fun c hm ans t hs => ⟨trivial, ?_⟩⟩
    obtain ⟨r, hr, ht⟩ := Option.map_eq_some_iff.mp hs
    cases ht
    simp only [hnote o _ hp.1]
    exact ih _ (hp.2 _) _ (hstep c hm _ _ hr).2

/-- Wherever the program is cut, or if it has stopped by itself, `C` holds. -/
theorem cut (h : W.Keeps note may view C p m v Q F) (hq : ∀ a m w, Q a m w → C m w)
    (hf : ∀ e m w, F e m w → C m w) {s : σ} (hs : view s = v) (cs : List χ)
    (hcs : ∀ o, ∀ c ∈ cs, may o c) :
    C ((W.trace cs p s).foldl note m) (view (W.run cs p s).2) := by
  have := Exec.cut h (fun a w => hq a w.2 w.1) (fun e w => hf e w.2 w.1)
    (s := (s, m)) (by rw [hs]) cs hcs
  rw [World.run_kept] at this
  exact this

end

end World.Keeps

-- ---------------------------------------------------------------------------
-- At most one failure
-- ---------------------------------------------------------------------------

section
variable {S : Signature} (failed : Event S → Bool)

/-- The steps of a run that failed. -/
def failures (log : List (Event S)) : List S.Op := (log.filter failed).map Event.op

def tally (fs : List S.Op) (e : Event S) : List S.Op := if failed e then fs ++ [e.op] else fs

theorem foldl_tally (log : List (Event S)) (fs : List S.Op) :
    log.foldl (tally failed) fs = fs ++ failures failed log := by
  induction log generalizing fs with
  | nil => simp [failures]
  | cons e log ih =>
    rw [List.foldl_cons, ih]
    by_cases he : failed e <;> simp [tally, failures, he]

end

/-- `p`, with the failures `fs` behind it, ends in `Q` or `F` if there is at most
one failure in the end. -/
def World.Once (W : World S χ σ) (failed : Event S → Bool) (view : σ → ω) (p : Prog S ε α)
    (fs : List S.Op) (v : ω) (Q : α → List S.Op → ω → Prop) (F : ε → List S.Op → ω → Prop) : Prop :=
  W.Exec (fun _ _ => True) view (fun _ => True) (p.noted (tally failed) fs) v
    (fun r w => r.2.length ≤ 1 → Q r.1 r.2 w) (fun r w => r.2.length ≤ 1 → F r.1 r.2 w)

namespace World.Once

variable {S : Signature} {χ σ ω ε ε' α β : Type} {W : World S χ σ} {failed : Event S → Bool}
  {view : σ → ω} {fs : List S.Op} {v : ω}

section
variable {Q Q' : α → List S.Op → ω → Prop} {F F' : ε → List S.Op → ω → Prop} {p : Prog S ε α}

theorem iff_notes : W.Once failed view p fs v Q F ↔
    W.Notes (tally failed) view p fs v (fun a fs w => fs.length ≤ 1 → Q a fs w)
      (fun e fs w => fs.length ≤ 1 → F e fs w) := Iff.rfl

theorem mono (h : W.Once failed view p fs v Q F) (hq : ∀ a fs v, Q a fs v → Q' a fs v)
    (hf : ∀ e fs v, F e fs v → F' e fs v) : W.Once failed view p fs v Q' F' :=
  iff_notes.mpr ((iff_notes.mp h).mono (fun _ _ _ h hl => hq _ _ _ (h hl))
    fun _ _ _ h hl => hf _ _ _ (h hl))

theorem pure (h : Q a fs v) : W.Once failed view (.pure a) fs v Q F :=
  iff_notes.mpr (Notes.pure fun _ => h)

theorem fail (h : F e fs v) : W.Once failed view (.fail e) fs v Q F :=
  iff_notes.mpr (Notes.fail fun _ => h)

/-- Runs with two failures are not judged. -/
theorem overspent (hl : 1 < fs.length) : W.Once failed view p fs v Q F := by
  induction p generalizing fs v with
  | pure a => exact Exec.pure fun h => absurd h (Nat.not_le.mpr hl)
  | fail e => exact Exec.fail fun h => absurd h (Nat.not_le.mpr hl)
  | op o next ih =>
    refine Exec.op trivial fun s _ c _ ans t _ => ih ans ?_
    unfold tally
    split
    · simp only [List.length_append]
      omega
    · exact hl

/-- What is known for runs within the limit is enough. -/
theorem of_length_le (h : fs.length ≤ 1 → W.Once failed view p fs v Q F) :
    W.Once failed view p fs v Q F := by
  by_cases hl : fs.length ≤ 1
  · exact h hl
  · exact overspent (Nat.not_le.mp hl)

/-- A step that fails is the first one to fail. -/
theorem spend (h : fs = [] → W.Once failed view p [o] v Q F) :
    W.Once failed view p (fs ++ [o]) v Q F := by
  cases fs with
  | nil => exact h rfl
  | cons o' fs => exact overspent (by simp)

theorem outcome (h : W.Once failed view p [] v Q F) {s : σ} (hs : view s = v) {cs : List χ}
    (hone : (failures failed (W.trace cs p s)).length ≤ 1)
    (hr : (W.run cs p s).1.result? = some r) :
    Setting.Post (fun a => Q a (failures failed (W.trace cs p s)))
      (fun e => F e (failures failed (W.trace cs p s))) r (view (W.run cs p s).2) := by
  have := (iff_notes.mp h).outcome hs hr
  rw [foldl_tally, List.nil_append] at this
  cases r with
  | ok a => exact this hone
  | error e => exact this hone

end

section
variable {Q : β → List S.Op → ω → Prop} {F : ε → List S.Op → ω → Prop}

theorem bind {p : Prog S ε α} {k : α → Prog S ε β}
    (h : W.Once failed view p fs v (fun a fs w => W.Once failed view (k a) fs w Q F) F) :
    W.Once failed view (p.bind k) fs v Q F :=
  iff_notes.mpr (Notes.bind ((iff_notes.mp h).mono (fun _ _ _ => of_length_le)
    fun _ _ _ hf => hf))

theorem attempt {p : Prog S ε α} {k : Except ε α → Prog S ε' β}
    {F : ε' → List S.Op → ω → Prop}
    (h : W.Once failed view p fs v (fun a fs w => W.Once failed view (k (.ok a)) fs w Q F)
      (fun e fs w => W.Once failed view (k (.error e)) fs w Q F)) :
    W.Once failed view ((p.attempt : Prog S ε' _).bind k) fs v Q F :=
  iff_notes.mpr (Notes.attempt ((iff_notes.mp h).mono (fun _ _ _ => of_length_le)
    fun _ _ _ => of_length_le))

theorem mapError {p : Prog S ε α} {g : ε → ε'} {Q : α → List S.Op → ω → Prop}
    {F : ε' → List S.Op → ω → Prop}
    (h : W.Once failed view p fs v Q (fun e fs w => F (g e) fs w)) :
    W.Once failed view (p.mapError g) fs v Q F :=
  iff_notes.mpr (Notes.mapError (iff_notes.mp h))

/-- Changes `p`'s conclusion into what the rest of the program needs. -/
theorem seq {p : Prog S ε α} {k : α → Prog S ε β} {P : α → List S.Op → ω → Prop}
    {G : ε → List S.Op → ω → Prop} (h : W.Once failed view p fs v P G)
    (hk : ∀ a fs w, P a fs w → W.Once failed view (k a) fs w Q F)
    (hg : ∀ e fs w, G e fs w → F e fs w) : W.Once failed view (p.bind k) fs v Q F :=
  bind (h.mono hk hg)

end

end World.Once

end Effects
