import NostdbServer.Effects.Wp

/-!
# Sequential programs, by a view of the state

`Exec may view C p v Q F`: from every state that looks like `v`, a program that
nobody interferes with ends in `Q` or `F` and can only be stopped in `C`, all of
them about the view. A rule for an operation says what the view is afterwards;
the rest is the same for every signature.
-/

namespace Effects

def World.Exec (W : World S χ σ) (may : S.Op → χ → Prop) (view : σ → ω) (C : ω → Prop)
    (p : Prog S ε α) (v : ω) (Q : α → ω → Prop) (F : ε → ω → Prop) : Prop :=
  ∀ s, view s = v →
    (W.alone may).Wp (fun t => C (view t)) p s (fun a t => Q a (view t)) (fun e t => F e (view t))

namespace World.Exec

variable {S : Signature} {χ σ ω : Type} {W : World S χ σ} {may : S.Op → χ → Prop} {view : σ → ω}
  {C : ω → Prop} {v : ω}

section
variable {Q : α → ω → Prop} {F : ε → ω → Prop} {p : Prog S ε α}

theorem mono {C' : ω → Prop} {Q' : α → ω → Prop} {F' : ε → ω → Prop}
    (h : W.Exec may view C p v Q F) (hc : ∀ v, C v → C' v) (hq : ∀ a v, Q a v → Q' a v)
    (hf : ∀ e v, F e v → F' e v) : W.Exec may view C' p v Q' F' :=
  fun s hs => (h s hs).mono (fun t => hc (view t)) (fun a t => hq a (view t))
    fun e t => hf e (view t)

theorem pure (h : Q a v) : W.Exec may view C (.pure a) v Q F := by
  rintro s rfl t rfl
  exact h

theorem fail (h : F e v) : W.Exec may view C (.fail e) v Q F := by
  rintro s rfl t rfl
  exact h

/-- A step, given what it can answer and what the view is afterwards. -/
theorem op {o : S.Op} {next : S.Ans o → Prog S ε α} (hc : C v)
    (h : ∀ s, view s = v → ∀ c, may o c → ∀ ans t, W.step o c s = some (ans, t) →
      W.Exec may view C (next ans) (view t) Q F) : W.Exec may view C (.op o next) v Q F := by
  rintro s rfl t rfl
  exact ⟨hc, fun c hm ans u hu => ⟨trivial, h s rfl c hm ans u hu u rfl⟩⟩

end

section
variable {Q : β → ω → Prop} {F : ε → ω → Prop}

theorem bind {p : Prog S ε α} {k : α → Prog S ε β}
    (h : W.Exec may view C p v (fun a w => W.Exec may view C (k a) w Q F) F) :
    W.Exec may view C (p.bind k) v Q F := by
  intro s hs
  refine Setting.Wp.bind ((h s hs).mono (fun _ hc => hc) ?_ fun _ _ hf => hf)
  intro a t ht
  exact ht t rfl

theorem attempt {p : Prog S ε α} {k : Except ε α → Prog S ε' β} {F : ε' → ω → Prop}
    (h : W.Exec may view C p v (fun a w => W.Exec may view C (k (.ok a)) w Q F)
      (fun e w => W.Exec may view C (k (.error e)) w Q F)) :
    W.Exec may view C ((p.attempt : Prog S ε' _).bind k) v Q F := by
  intro s hs
  refine Setting.Wp.bind (Setting.Wp.attempt ((h s hs).mono (fun _ hc => hc) ?_ ?_))
  · intro a t ht
    exact ht t rfl
  · intro e t ht
    exact ht t rfl

theorem mapError {p : Prog S ε α} {g : ε → ε'} {Q : α → ω → Prop} {F : ε' → ω → Prop}
    (h : W.Exec may view C p v Q (fun e w => F (g e) w)) :
    W.Exec may view C (p.mapError g) v Q F :=
  fun s hs => Setting.Wp.mapError (h s hs)

/-- Changes `p`'s conclusion into what the rest of the program needs. -/
theorem seq {p : Prog S ε α} {k : α → Prog S ε β} {P : α → ω → Prop} {G : ε → ω → Prop}
    (h : W.Exec may view C p v P G) (hk : ∀ a w, P a w → W.Exec may view C (k a) w Q F)
    (hg : ∀ e w, G e w → F e w) : W.Exec may view C (p.bind k) v Q F :=
  bind (h.mono (fun _ hc => hc) hk hg)

end

section
variable {Q : α → ω → Prop} {F : ε → ω → Prop} {p : Prog S ε α}

theorem any (p : Prog S ε α) (v : ω) :
    W.Exec may view (fun _ => True) p v (fun _ _ => True) fun _ _ => True := by
  induction p generalizing v with
  | pure a => exact pure trivial
  | fail e => exact fail trivial
  | op o next ih => exact op trivial fun _ _ _ _ ans t _ => ih ans (view t)

/-- A program that has stopped by itself or is about to go on. -/
theorem now {s : σ} (h : (W.alone may).Wp (fun t => C (view t)) p s (fun a t => Q a (view t))
    (fun e t => F e (view t))) (hq : ∀ a w, Q a w → C w) (hf : ∀ e w, F e w → C w) :
    C (view s) := by
  cases p with
  | pure a => exact hq a _ (h _ rfl)
  | fail e => exact hf e _ (h _ rfl)
  | op o next => exact h.crash

/-- Wherever the program is cut, or if it has stopped by itself, `C` holds. -/
theorem cut (h : W.Exec may view C p v Q F) (hq : ∀ a w, Q a w → C w) (hf : ∀ e w, F e w → C w)
    {s : σ} (hs : view s = v) (cs : List χ) (hcs : ∀ o, ∀ c ∈ cs, may o c) :
    C (view (W.run cs p s).2) :=
  now ((h s hs).run cs fun o _ c hc => hcs o c hc) hq hf

/-- The same one step later. -/
theorem cutAfter (h : W.Exec may view C p v Q F) (hq : ∀ a w, Q a w → C w)
    (hf : ∀ e w, F e w → C w) {s s' : σ} (hs : view s = v) (cs : List χ)
    (hcs : ∀ o, ∀ c ∈ cs, may o c) (hnext : (W.run cs p s).1.next? = some o) (hc : may o c)
    (hstep : W.step o c (W.run cs p s).2 = some (ans, s')) : C (view s') := by
  have hrest := (h s hs).run cs fun o _ c hc => hcs o c hc
  obtain ⟨next, hop⟩ := Prog.of_next? hnext
  change (W.alone may).Wp _ (W.run cs p s).1 (W.run cs p s).2 _ _ at hrest
  rw [hop] at hrest
  exact now (hrest.step hc hstep).2 hq hf

/-- How a run that has ended ended. -/
theorem run (h : W.Exec may view C p v Q F) {s : σ} (hs : view s = v) (cs : List χ)
    (hcs : ∀ o, ∀ c ∈ cs, may o c) {r : Except ε α} (hr : (W.run cs p s).1.result? = some r) :
    Setting.Post Q F r (view (W.run cs p s).2) := by
  have hend := ((h s hs).run cs fun o _ c hc => hcs o c hc).ended hr
  cases r <;> exact hend

/-- How a complete run ends. -/
theorem eval (h : W.Exec may view C p v Q F) {s s' : σ} (hs : view s = v) (hc : ∀ o, may o c)
    (he : W.eval c p s = some (r, s')) : Setting.Post Q F r (view s') := by
  have := (h s hs).eval (fun o _ => hc o) he
  cases r <;> exact this

end

end World.Exec

/-- That the operations are recorded is no matter to a program. -/
theorem Setting.Wp.logged {W : World S χ σ} {may : S.Op → χ → Prop} {C : σ → Prop}
    {p : Prog S ε α} {s : σ} {Q : α → σ → Prop} {F : ε → σ → Prop}
    (h : (W.alone may).Wp C p s Q F) (l : List S.Op) :
    (W.logged.alone may).Wp (fun t => C t.1) p (s, l) (fun a t => Q a t.1) (fun e t => F e t.1) := by
  induction p generalizing s l with
  | pure a =>
    rintro _ rfl
    exact h s rfl
  | fail e =>
    rintro _ rfl
    exact h s rfl
  | op o next ih =>
    rintro _ rfl
    obtain ⟨hc, hstep⟩ := h s rfl
    refine ⟨hc, fun c hm ans t hs => ⟨trivial, ?_⟩⟩
    have hs : (W.step o c s).map (fun r => (r.1, r.2, l ++ [o])) = some (ans, t) := hs
    obtain ⟨⟨ans', u⟩, hu, hr⟩ := Option.map_eq_some_iff.mp hs
    cases hr
    exact ih ans' (hstep c hm ans' u hu).2 (l ++ [o])

end Effects
