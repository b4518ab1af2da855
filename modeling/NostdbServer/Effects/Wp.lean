import NostdbServer.Effects.Prog

/-!
# Weakest preconditions with crashes and interference

`Wp C p s Q E`: started in `s`, the program `p` ends only in values and states
of `Q` or errors and states of `E`, and every state it can be stopped in
satisfies `C`. Between two steps the environment may move the state along
`rely`, and at each operation it picks any choice the setting allows, so one
`Wp` covers every schedule of faults and every crash point. Each step keeps to
`guar`, which is what the other parties rely on.
-/

namespace Effects

/-- A world, the choices its adversary may take, what other parties may do to
the state between two steps, and what a step promises them. -/
structure Setting (S : Signature) (χ σ : Type) extends World S χ σ where
  may : S.Op → χ → σ → Prop
  rely : σ → σ → Prop
  guar : σ → σ → Prop
  rely_refl (s : σ) : rely s s
  rely_trans : rely a b → rely b c → rely a c

/-- Nobody else touches the state. -/
def World.alone (W : World S χ σ) (may : S.Op → χ → Prop) : Setting S χ σ where
  toWorld := W
  may o c _ := may o c
  rely := Eq
  guar _ _ := True
  rely_refl _ := rfl
  rely_trans := Eq.trans

namespace Setting

variable {S : Signature} {χ σ : Type} (W : Setting S χ σ)

def Wp (C : σ → Prop) (p : Prog S ε α) (s : σ) (Q : α → σ → Prop) (E : ε → σ → Prop) : Prop :=
  match p with
  | .pure a => ∀ s', W.rely s s' → Q a s'
  | .fail e => ∀ s', W.rely s s' → E e s'
  | .op o next => ∀ s', W.rely s s' → C s' ∧
      ∀ c, W.may o c s' → ∀ ans t, W.step o c s' = some (ans, t) →
        W.guar s' t ∧ Wp C (next ans) t Q E

variable {W} {C C' : σ → Prop} {s s' : σ}

section
variable {Q Q' : α → σ → Prop} {E E' : ε → σ → Prop} {p : Prog S ε α}

theorem Wp.rely (h : W.Wp C p s Q E) (hr : W.rely s s') : W.Wp C p s' Q E := by
  cases p with
  | pure a => exact fun t ht => h t (W.rely_trans hr ht)
  | fail e => exact fun t ht => h t (W.rely_trans hr ht)
  | op o next => exact fun t ht => h t (W.rely_trans hr ht)

theorem Wp.mono (h : W.Wp C p s Q E) (hc : ∀ s, C s → C' s) (hq : ∀ a s, Q a s → Q' a s)
    (he : ∀ e s, E e s → E' e s) : W.Wp C' p s Q' E' := by
  induction p generalizing s with
  | pure a => exact fun t ht => hq a t (h t ht)
  | fail e => exact fun t ht => he e t (h t ht)
  | op o next ih =>
    intro t ht
    obtain ⟨hct, hstep⟩ := h t ht
    refine ⟨hc t hct, fun c hm ans u hu => ?_⟩
    obtain ⟨hg, hn⟩ := hstep c hm ans u hu
    exact ⟨hg, ih ans hn⟩

theorem Wp.and (h : W.Wp C p s Q E) (h' : W.Wp C' p s Q' E') :
    W.Wp (fun s => C s ∧ C' s) p s (fun a s => Q a s ∧ Q' a s) (fun e s => E e s ∧ E' e s) := by
  induction p generalizing s with
  | pure a => exact fun t ht => ⟨h t ht, h' t ht⟩
  | fail e => exact fun t ht => ⟨h t ht, h' t ht⟩
  | op o next ih =>
    intro t ht
    obtain ⟨hct, hstep⟩ := h t ht
    obtain ⟨hct', hstep'⟩ := h' t ht
    refine ⟨⟨hct, hct'⟩, fun c hm ans u hu => ?_⟩
    obtain ⟨hg, hn⟩ := hstep c hm ans u hu
    exact ⟨hg, ih ans hn (hstep' c hm ans u hu).2⟩

/-- One operation from an assertion `P` that interference keeps: `P` allows a
crash, and every answer the adversary can give continues safely. -/
theorem Wp.op {P : σ → Prop} {next : S.Ans o → Prog S ε α}
    (stable : ∀ s s', P s → W.rely s s' → P s') (hp : P s) (hc : ∀ s, P s → C s)
    (h : ∀ s, P s → ∀ c, W.may o c s → ∀ ans t, W.step o c s = some (ans, t) →
      W.guar s t ∧ W.Wp C (next ans) t Q E) : W.Wp C (.op o next) s Q E :=
  fun s' hr => ⟨hc s' (stable s s' hp hr), h s' (stable s s' hp hr)⟩

theorem Wp.crash {next : S.Ans o → Prog S ε α} (h : W.Wp C (.op o next) s Q E) : C s :=
  (h s (W.rely_refl s)).1

theorem Wp.step {next : S.Ans o → Prog S ε α} (h : W.Wp C (.op o next) s Q E)
    (hm : W.may o c s) (hs : W.step o c s = some (ans, s')) :
    W.guar s s' ∧ W.Wp C (next ans) s' Q E :=
  (h s (W.rely_refl s)).2 c hm ans s' hs

end

theorem Wp.bind {p : Prog S ε α} {f : α → Prog S ε β} {Q : β → σ → Prop} {E : ε → σ → Prop}
    (h : W.Wp C p s (fun a t => W.Wp C (f a) t Q E) E) : W.Wp C (p.bind f) s Q E := by
  induction p generalizing s with
  | pure a => exact h s (W.rely_refl s)
  | fail e => exact h
  | op o next ih =>
    intro t ht
    obtain ⟨hct, hstep⟩ := h t ht
    refine ⟨hct, fun c hm ans u hu => ?_⟩
    obtain ⟨hg, hn⟩ := hstep c hm ans u hu
    exact ⟨hg, ih ans hn⟩

theorem Wp.attempt {p : Prog S ε α} {Q : Except ε α → σ → Prop} {E : ε' → σ → Prop}
    (h : W.Wp C p s (fun a t => Q (.ok a) t) (fun e t => Q (.error e) t)) :
    W.Wp C (p.attempt : Prog S ε' _) s Q E := by
  induction p generalizing s with
  | pure a => exact h
  | fail e => exact h
  | op o next ih =>
    intro t ht
    obtain ⟨hct, hstep⟩ := h t ht
    refine ⟨hct, fun c hm ans u hu => ?_⟩
    obtain ⟨hg, hn⟩ := hstep c hm ans u hu
    exact ⟨hg, ih ans hn⟩

theorem Wp.mapError {p : Prog S ε α} {f : ε → ε'} {Q : α → σ → Prop} {E : ε' → σ → Prop}
    (h : W.Wp C p s Q (fun e t => E (f e) t)) : W.Wp C (p.mapError f) s Q E := by
  induction p generalizing s with
  | pure a => exact h
  | fail e => exact h
  | op o next ih =>
    intro t ht
    obtain ⟨hct, hstep⟩ := h t ht
    refine ⟨hct, fun c hm ans u hu => ?_⟩
    obtain ⟨hg, hn⟩ := hstep c hm ans u hu
    exact ⟨hg, ih ans hn⟩

/-- What every operation of a program keeps, the program keeps. -/
theorem Wp.of_only {P : S.Op → Prop} {I : σ → Prop} {p : Prog S ε α}
    (stable : ∀ s s', I s → W.rely s s' → I s')
    (hstep : ∀ o c s ans t, P o → W.may o c s → W.step o c s = some (ans, t) → I s →
      W.guar s t ∧ I t) (hp : p.Only P) (h : I s) : W.Wp I p s (fun _ => I) (fun _ => I) := by
  induction p generalizing s with
  | pure a => exact fun t ht => stable s t h ht
  | fail e => exact fun t ht => stable s t h ht
  | op o next ih =>
    intro t ht
    have hI := stable s t h ht
    refine ⟨hI, fun c hm ans u hu => ?_⟩
    obtain ⟨hg, hu⟩ := hstep o c t ans u hp.1 hm hu hI
    exact ⟨hg, ih ans (hp.2 ans) hu⟩

-- ---------------------------------------------------------------------------
-- From weakest preconditions to runs
-- ---------------------------------------------------------------------------

/-- A program cut anywhere is still covered by its own `Wp`. -/
theorem Wp.run {p : Prog S ε α} {Q : α → σ → Prop} {E : ε → σ → Prop} (h : W.Wp C p s Q E)
    (cs : List χ) (hcs : ∀ o s, ∀ c ∈ cs, W.may o c s) :
    W.Wp C (W.run cs p s).1 (W.run cs p s).2 Q E := by
  induction cs generalizing p s with
  | nil => cases p <;> exact h
  | cons c cs ih =>
    cases p with
    | pure a => exact h
    | fail e => exact h
    | op o next =>
      simp only [World.run]
      split
      · rename_i ans t hs
        exact ih (h.step (hcs o s c (by simp)) hs).2 fun o' s' c' hc' =>
          hcs o' s' c' (by simp [hc'])
      · exact h

/-- What every step promises, and several steps then do, a run does. -/
theorem Wp.kept {R : σ → σ → Prop} (hrefl : ∀ s, R s s) (htrans : ∀ {a b c}, R a b → R b c → R a c)
    (hguar : ∀ s t, W.guar s t → R s t) {p : Prog S ε α} {Q : α → σ → Prop} {E : ε → σ → Prop}
    (h : W.Wp C p s Q E) (cs : List χ) (hcs : ∀ o s, ∀ c ∈ cs, W.may o c s) :
    R s (W.run cs p s).2 := by
  induction cs generalizing p s with
  | nil => cases p <;> exact hrefl s
  | cons c cs ih =>
    cases p with
    | pure a => exact hrefl s
    | fail e => exact hrefl s
    | op o next =>
      simp only [World.run]
      split
      · rename_i ans t hs
        obtain ⟨hg, hn⟩ := h.step (hcs o s c (by simp)) hs
        exact htrans (hguar s t hg) (ih hn fun o' s' c' hc' => hcs o' s' c' (by simp [hc']))
      · exact hrefl s

/-- The postcondition for an outcome, value or error. -/
def Post (Q : α → σ → Prop) (E : ε → σ → Prop) : Except ε α → σ → Prop
  | .ok a => Q a
  | .error e => E e

/-- A program that has ended. -/
theorem Wp.ended {p : Prog S ε α} {Q : α → σ → Prop} {E : ε → σ → Prop} (h : W.Wp C p s Q E)
    {r : Except ε α} (hr : p.result? = some r) : Post Q E r s := by
  cases p with
  | pure a =>
    cases hr
    exact h s (W.rely_refl s)
  | fail e =>
    cases hr
    exact h s (W.rely_refl s)
  | op o next => cases hr

/-- A complete run ends in a value of `Q` or an error of `E`. -/
theorem Wp.eval {p : Prog S ε α} {Q : α → σ → Prop} {E : ε → σ → Prop} (h : W.Wp C p s Q E)
    (hm : ∀ o s, W.may o c s) (he : W.eval c p s = some (r, s')) : Post Q E r s' := by
  induction p generalizing s with
  | pure a =>
    simp only [World.eval, Option.some.injEq, Prod.mk.injEq] at he
    obtain ⟨rfl, rfl⟩ := he
    exact h s (W.rely_refl s)
  | fail e =>
    simp only [World.eval, Option.some.injEq, Prod.mk.injEq] at he
    obtain ⟨rfl, rfl⟩ := he
    exact h s (W.rely_refl s)
  | op o next ih =>
    simp only [World.eval, Option.bind_eq_some_iff] at he
    obtain ⟨⟨ans, t⟩, hs, he⟩ := he
    exact ih ans (h.step (hm o s) hs).2 he

-- ---------------------------------------------------------------------------
-- A program on one component of a larger state
-- ---------------------------------------------------------------------------

/-- `W'` performs the operations of `W` on the part of its state that `R`
relates to a state of `W`, and nothing else of it changes. -/
structure Embeds {T : Signature} {τ : Type} (W : Setting S χ σ) (W' : Setting T χ τ)
    (f : S.Op → T.Op) (g : (o : S.Op) → T.Ans (f o) → S.Ans o) (R : σ → τ → Prop) : Prop where
  rely : ∀ {s t t'}, R s t → W'.rely t t' → ∃ s', W.rely s s' ∧ R s' t'
  step : ∀ {s t o c ans t'}, R s t → W'.may (f o) c t → W'.step (f o) c t = some (ans, t') →
    W.may o c s ∧ W'.guar t t' ∧ ∃ s', W.step o c s = some (g o ans, s') ∧ R s' t'

theorem Wp.lift {T : Signature} {τ : Type} {W' : Setting T χ τ} {f : S.Op → T.Op}
    {g : (o : S.Op) → T.Ans (f o) → S.Ans o} {R : σ → τ → Prop} (em : Embeds W W' f g R)
    {p : Prog S ε α} {t : τ} {Q : α → σ → Prop} {E : ε → σ → Prop}
    (h : W.Wp C p s Q E) (hr : R s t) :
    W'.Wp (fun t => ∃ s, R s t ∧ C s) (p.lift f g) t
      (fun a t => ∃ s, R s t ∧ Q a s) (fun e t => ∃ s, R s t ∧ E e s) := by
  induction p generalizing s t with
  | pure a =>
    intro t' ht
    obtain ⟨s', hs, hr'⟩ := em.rely hr ht
    exact ⟨s', hr', h s' hs⟩
  | fail e =>
    intro t' ht
    obtain ⟨s', hs, hr'⟩ := em.rely hr ht
    exact ⟨s', hr', h s' hs⟩
  | op o next ih =>
    intro t' ht
    obtain ⟨s', hs, hr'⟩ := em.rely hr ht
    obtain ⟨hc, hstep⟩ := h s' hs
    refine ⟨⟨s', hr', hc⟩, fun c hm ans u hu => ?_⟩
    obtain ⟨hm', hg, v, hv, hrv⟩ := em.step hr' hm hu
    exact ⟨hg, ih _ (hstep c hm' _ v hv).2 hrv⟩

end Setting

end Effects
