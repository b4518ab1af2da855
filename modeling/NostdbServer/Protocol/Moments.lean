import NostdbServer.Protocol.Links

/-!
# Moments of a run

Every event in the log of a turn happened at some moment of the run, and what the
daemon answered is what it held at that moment.
-/

namespace NostdbServer

open Effects

/-- A task goes on where it is. -/
theorem Link.Step.job_grows {l l' : Link} {job : Job} (h : Link.Step E service l l') (hkept : l.Kept E service)
    (hjob : l.jobs r = some job) :
    ∃ job', l'.jobs r = some job' ∧ job'.task = job.task ∧ job.log <+: job'.log := by
  cases h with
  | receive | expire | disconnect | abort => exact ⟨job, hjob, rfl, List.prefix_rfl⟩
  | main hturn hrest _ => exact ⟨job, hkept.jobs_advance hturn hrest hjob, rfl, List.prefix_rfl⟩
  | @job job₀ _ r' o next ans hjob₀ hrest _ =>
    have hjobs := hkept.advanceJob_jobs hjob₀ hrest ans r
    by_cases hr : r = r'
    · subst hr
      cases hjob.symm.trans hjob₀
      exact ⟨_, hjobs.trans (if_pos rfl), rfl, List.prefix_append _ _⟩
    · exact ⟨job, (hjobs.trans (if_neg hr)).trans hjob, rfl, List.prefix_rfl⟩

namespace Server

variable {ι : Type} [DecidableEq ι] {E : Engine} {service : Service} {uuids : Nat → String}
  {s s₀ t : Server ι} {i : ι}

/-- What is no call of the daemon leaves it alone. -/
theorem perform_daemon_own {o : ConnectionOp} {ans : o.Ans} (ho : o.isDaemon = false)
    (h : s.perform E service uuids i o c = some (ans, s')) : s'.daemon = s.daemon := by
  have hnot : ∀ d, o ≠ .daemon d := by
    rintro d rfl
    cases ho
  rw [perform_own hnot] at h
  obtain ⟨ans', -, heq⟩ := Option.map_eq_some_iff.mp h
  cases heq
  rfl

theorem perform_daemon {o : ConnectionOp} {ans : o.Ans}
    (h : s.perform E service uuids i o c = some (ans, s')) :
    s'.daemon = s.daemon ∨ ∃ o' ans', Daemon.step E uuids o' c s.daemon = some (ans', s'.daemon) := by
  cases o with
  | daemon o =>
    obtain ⟨r, hr, heq⟩ := Option.map_eq_some_iff.mp h
    cases heq
    exact .inr ⟨o, r.1, hr⟩
  | _ => exact .inl (perform_daemon_own rfl h)

/-- A step of the server is at most one step of the daemon. -/
theorem step_daemon {a : Act ι} (h : s.step E service uuids a = some t) :
    t.daemon = s.daemon ∨ ∃ o c ans, Daemon.step E uuids o c s.daemon = some (ans, t.daemon) := by
  cases a with
  | receive j incoming =>
    simp only [step] at h
    split at h <;> cases h
    exact .inl rfl
  | main j c =>
    obtain ⟨turn, hturn, h⟩ := Option.bind_eq_some_iff.mp h
    split at h
    · obtain ⟨⟨ans, s'⟩, hperform, h⟩ := Option.bind_eq_some_iff.mp h
      cases h
      obtain hkept | ⟨o, ans, hstep⟩ := perform_daemon hperform
      · exact .inl hkept
      · exact .inr ⟨o, c, ans, hstep⟩
    · cases h
  | job j r c =>
    obtain ⟨job, hjob, h⟩ := Option.bind_eq_some_iff.mp h
    split at h
    · split at h
      · cases h
      obtain ⟨⟨ans, s'⟩, hperform, h⟩ := Option.bind_eq_some_iff.mp h
      cases h
      obtain hkept | ⟨o, ans, hstep⟩ := perform_daemon hperform
      · exact .inl hkept
      · exact .inr ⟨o, c, ans, hstep⟩
    · cases h
  | expire j r =>
    obtain ⟨job, hjob, h⟩ := Option.bind_eq_some_iff.mp h
    split at h <;> cases h
    exact .inl rfl
  | disconnect j =>
    cases h
    exact .inl rfl
  | abort j r =>
    simp only [step] at h
    split at h <;> cases h
    exact .inl rfl

/-- What every step of the daemon keeps holds of it all along. -/
theorem Reaches.daemon {P : Daemon → Prop}
    (hstep : ∀ d d' o c (ans : DaemonOp.Ans o), Daemon.step E uuids o c d = some (ans, d') → P d → P d')
    (h : Reaches E service uuids s₀ s) (h₀ : P s₀.daemon) : P s.daemon := by
  induction h with
  | refl => exact h₀
  | tail _ h ih =>
    obtain ⟨a, ha⟩ := h
    rcases step_daemon ha with heq | ⟨o, c, ans, hd⟩
    · rw [heq]
      exact ih
    · exact hstep _ _ o c ans hd ih

/-- Everything a step can do to the turns of a connection. -/
inductive Turned (E : Engine) (service : Service) (uuids : Nat → String) (s t : Server ι) (i : ι) :
    Prop
  | kept (h : (t.links i).turns = (s.links i).turns)
  | begun (h : (t.links i).turns = (s.links i).turns ++ [⟨before, incoming, [], rest⟩])
  | advanced {o : ConnectionOp} {next : o.Ans → Prog connection String Phase} {ans : o.Ans}
      (hturns : (s.links i).turns = past ++ [u]) (hrest : u.rest = .op o next)
      (hperform : s.perform E service uuids i o c = some (ans, s'))
      (h : (t.links i).turns = past ++ [{ u with log := u.log ++ [⟨o, ans⟩], rest }])

theorem step_turned {a : Act ι} (h : s.step E service uuids a = some t) (i : ι) :
    Turned E service uuids s t i := by
  -- What another connection does is no concern of this one.
  have hother {j : ι} {s' : Server ι} {l : Link} (hij : i ≠ j) (hs' : s'.links i = s.links i) :
      ((s'.setLink j l).links i).turns = (s.links i).turns := by
    rw [setLink_links_of_ne s' l hij, hs']
  cases a with
  | receive j incoming =>
    simp only [step] at h
    split at h
    · cases h
    · cases h
    · cases h
      by_cases hij : i = j
      · subst hij
        exact .begun (by rw [setLink_links_self, Link.turns_take])
      · exact .kept (hother hij rfl)
  | main j c =>
    obtain ⟨turn, hturn, h⟩ := Option.bind_eq_some_iff.mp h
    split at h
    · rename_i o next hrest
      obtain ⟨⟨ans, s'⟩, hperform, h⟩ := Option.bind_eq_some_iff.mp h
      cases h
      obtain ⟨-, hlink, hothers⟩ := perform_link hperform
      by_cases hij : i = j
      · subst hij
        have hafter : ((s'.links i).advance turn ⟨o, ans⟩ (next ans)).turns = _ := Link.turns_advance
        rw [show (s'.links i).past = (s.links i).past by rw [hlink, Link.after_past]] at hafter
        exact .advanced (Link.turns_of_turn hturn) hrest hperform
          ((congrArg Link.turns (setLink_links_self _ _ _)).trans hafter)
      · exact .kept (hother hij (hothers i hij))
    · cases h
  | job j r c =>
    obtain ⟨job, hjob, h⟩ := Option.bind_eq_some_iff.mp h
    split at h
    · split at h
      · cases h
      obtain ⟨⟨ans, s'⟩, hperform, h⟩ := Option.bind_eq_some_iff.mp h
      cases h
      obtain ⟨-, hlink, hothers⟩ := perform_link hperform
      refine .kept ?_
      by_cases hij : i = j
      · subst hij
        rw [setLink_links_self, hlink, Link.turns_advanceJob, Link.after_turns]
      · exact hother hij (hothers i hij)
    · cases h
  | expire j r =>
    obtain ⟨job, hjob, h⟩ := Option.bind_eq_some_iff.mp h
    split at h
    · cases h
      refine .kept ?_
      by_cases hij : i = j
      · subst hij
        rw [setLink_links_self]
        rfl
      · exact hother hij rfl
    · cases h
  | disconnect j =>
    cases h
    refine .kept ?_
    by_cases hij : i = j
    · subst hij
      rw [setLink_links_self]
      rfl
    · exact hother hij rfl
  | abort j r =>
    simp only [step] at h
    split at h
    · cases h
      refine .kept ?_
      by_cases hij : i = j
      · subst hij
        rw [setLink_links_self]
        rfl
      · exact hother hij rfl
    · cases h

/-- An event of a task was there, or has just happened. -/
theorem step_jobDid {a : Act ι} (h : s.step E service uuids a = some t)
    (hkept : (s.links i).Kept E service) (hdid : (t.links i).JobDid r e) :
    (s.links i).JobDid r e ∨ ∃ c s', s.perform E service uuids i e.op c = some (e.answer, s') := by
  have hother {j : ι} {s' : Server ι} {l : Link} (hij : i ≠ j) (hs' : s'.links i = s.links i)
      (hdid : ((s'.setLink j l).links i).JobDid r e) : (s.links i).JobDid r e := by
    rwa [setLink_links_of_ne s' l hij, hs'] at hdid
  have hown {l : Link} (hjobs : l.jobs = (s.links i).jobs) (hdid : l.JobDid r e) :
      (s.links i).JobDid r e := by
    rwa [Link.JobDid, hjobs] at hdid
  cases a with
  | receive j incoming =>
    simp only [step] at h
    split at h <;> cases h
    by_cases hij : i = j
    · subst hij
      rw [setLink_links_self] at hdid
      exact .inl (hown rfl hdid)
    · exact .inl (hother hij rfl hdid)
  | main j c =>
    obtain ⟨turn, hturn, h⟩ := Option.bind_eq_some_iff.mp h
    split at h
    · obtain ⟨⟨ans, s'⟩, hperform, h⟩ := Option.bind_eq_some_iff.mp h
      cases h
      obtain ⟨-, hlink, hothers⟩ := perform_link hperform
      by_cases hij : i = j
      · subst hij
        rw [setLink_links_self, hlink] at hdid
        exact .inl (Link.of_jobDid_advance hdid)
      · exact .inl (hother hij (hothers i hij) hdid)
    · cases h
  | job j r' c =>
    obtain ⟨job, hjob, h⟩ := Option.bind_eq_some_iff.mp h
    split at h
    · rename_i o next hrest
      split at h
      · cases h
      obtain ⟨⟨ans, s'⟩, hperform, h⟩ := Option.bind_eq_some_iff.mp h
      cases h
      obtain ⟨-, hlink, hothers⟩ := perform_link hperform
      by_cases hij : i = j
      · subst hij
        rw [setLink_links_self, hlink] at hdid
        obtain hold | ⟨-, rfl⟩ := hkept.of_jobDid_advanceJob hjob hrest hdid
        · exact .inl hold
        · exact .inr ⟨c, s', hperform⟩
      · exact .inl (hother hij (hothers i hij) hdid)
    · cases h
  | expire j r' =>
    obtain ⟨job, hjob, h⟩ := Option.bind_eq_some_iff.mp h
    split at h <;> cases h
    by_cases hij : i = j
    · subst hij
      rw [setLink_links_self] at hdid
      exact .inl (hown rfl hdid)
    · exact .inl (hother hij rfl hdid)
  | disconnect j =>
    cases h
    by_cases hij : i = j
    · subst hij
      rw [setLink_links_self] at hdid
      exact .inl (hown rfl hdid)
    · exact .inl (hother hij rfl hdid)
  | abort j r' =>
    simp only [step] at h
    split at h <;> cases h
    by_cases hij : i = j
    · subst hij
      rw [setLink_links_self] at hdid
      exact .inl (hown rfl hdid)
    · exact .inl (hother hij rfl hdid)

/-- What the daemon answered to a task, it answered at some moment. -/
theorem Reaches.answered {d : Daemon} {o : DaemonOp} {ans : o.Ans}
    (h : Reaches E service uuids (initial d) s) (hdid : (s.links i).JobDid r ⟨.daemon o, ans⟩) :
    ∃ s₁ c d', Reaches E service uuids (initial d) s₁ ∧ Reaches E service uuids s₁ s ∧
      Daemon.step E uuids o c s₁.daemon = some (ans, d') := by
  induction h with
  | refl =>
    obtain ⟨job, hjob, -⟩ := hdid
    cases hjob
  | @tail s s' hreach hstep ih =>
    obtain ⟨a, ha⟩ := hstep
    obtain hold | ⟨c, s'', hperform⟩ := step_jobDid ha (Reaches.link hreach i).kept hdid
    · obtain ⟨s₁, c, d', h₁, h₂, hd⟩ := ih hold
      exact ⟨s₁, c, d', h₁, h₂.tail ⟨a, ha⟩, hd⟩
    · obtain ⟨r, hr, heq⟩ := Option.map_eq_some_iff.mp hperform
      cases heq
      exact ⟨s, c, r.2, hreach, .single ⟨a, ha⟩, hr⟩

/-- In `s` the turn after `past` has done `before`, and does `e` next. -/
structure Moment (E : Engine) (service : Service) (uuids : Nat → String) (s : Server ι) (i : ι)
    (past : List Turn) (before : List (Event connection)) (e : Event connection) : Prop where
  turns : ∃ u, (s.links i).turns = past ++ [u] ∧ u.log = before
  performed : ∃ c s', s.perform E service uuids i e.op c = some (e.answer, s')

theorem Moment.daemon {o : DaemonOp} {ans : o.Ans}
    (h : Moment E service uuids s i past before ⟨.daemon o, ans⟩) :
    ∃ c d', Daemon.step E uuids o c s.daemon = some (ans, d') := by
  obtain ⟨c, s', hperform⟩ := h.performed
  obtain ⟨r, hr, heq⟩ := Option.map_eq_some_iff.mp hperform
  cases heq
  exact ⟨c, r.2, hr⟩

/-- The event of a turn that was not there yet happened on the way. -/
theorem Reaches.moment (h : Reaches E service uuids s₀ s)
    (hturns : (s.links i).turns = past ++ u :: later) (hlog : u.log = before ++ e :: after)
    (hold : (s₀.links i).turns.length ≤ past.length) :
    ∃ s₁, Reaches E service uuids s₀ s₁ ∧ Reaches E service uuids s₁ s ∧
      Moment E service uuids s₁ i past before e := by
  induction h generalizing u later after with
  | refl =>
    rw [hturns] at hold
    simp at hold
  | @tail s' s hreach hstep ih =>
    obtain ⟨a, ha⟩ := hstep
    have hlater {v : Turn} {later' : List Turn} {after' : List (Event connection)}
        (hv : (s'.links i).turns = past ++ v :: later') (hvlog : v.log = before ++ e :: after') :
        ∃ s₁, Reaches E service uuids s₀ s₁ ∧ Reaches E service uuids s₁ s ∧
          Moment E service uuids s₁ i past before e := by
      obtain ⟨s₁, h₀, h₁, hmoment⟩ := ih hv hvlog
      exact ⟨s₁, h₀, h₁.tail ⟨a, ha⟩, hmoment⟩
    cases step_turned ha i with
    | kept hkept => exact hlater (hkept.symm.trans hturns) hlog
    | begun hbegun =>
      rcases List.eq_nil_or_concat' later with rfl | ⟨later', last, rfl⟩
      · obtain ⟨-, heq⟩ := List.append_inj' (hturns.symm.trans hbegun) rfl
        cases heq
        simp at hlog
      · rw [← List.cons_append, ← List.append_assoc] at hturns
        exact hlater (List.append_inj' (hturns.symm.trans hbegun) rfl).1.symm hlog
    | @advanced past' v c s'' rest o next ans hbefore _ hperform hafter =>
      rcases List.eq_nil_or_concat' later with rfl | ⟨later', last, rfl⟩
      · obtain ⟨rfl, heq⟩ := List.append_inj' (hturns.symm.trans hafter) rfl
        cases heq
        rcases List.eq_nil_or_concat' after with rfl | ⟨after', last, rfl⟩
        · obtain ⟨hv, he⟩ := List.append_inj' hlog rfl
          cases he
          exact ⟨s', hreach, .single ⟨a, ha⟩, ⟨v, hbefore, hv⟩, c, s'', hperform⟩
        · rw [← List.cons_append, ← List.append_assoc] at hlog
          exact hlater hbefore (List.append_inj' hlog rfl).1
      · rw [← List.cons_append, ← List.append_assoc] at hturns
        obtain ⟨hpast, -⟩ := List.append_inj' (hturns.symm.trans hafter) rfl
        rw [← hpast, List.append_assoc] at hbefore
        exact hlater hbefore hlog

theorem Reaches.job_grows {d : Daemon} {job : Job} (h₀ : Reaches E service uuids (initial d) s₀)
    (h : Reaches E service uuids s₀ s) (hjob : (s₀.links i).jobs r = some job) :
    ∃ job', (s.links i).jobs r = some job' ∧ job'.task = job.task ∧ job.log <+: job'.log := by
  induction h with
  | refl => exact ⟨job, hjob, rfl, List.prefix_rfl⟩
  | tail hreach hstep ih =>
    obtain ⟨job', hjob', htask, hlog⟩ := ih
    obtain ⟨a, ha⟩ := hstep
    obtain ⟨j, hlink, hothers⟩ := step_link ha
    by_cases hij : i = j
    · subst hij
      have hkept := (Reaches.link (h₀.trans hreach) i).kept
      obtain ⟨job'', hjob'', htask', hlog'⟩ := hlink.job_grows hkept hjob'
      exact ⟨job'', hjob'', htask'.trans htask, hlog.trans hlog'⟩
    · exact ⟨job', by rw [hothers i hij, hjob'], htask, hlog⟩

/-- A finished turn stays as it is. -/
theorem Reaches.finished {b : Turn} (h : Reaches E service uuids s₀ s)
    (hturns : (s₀.links i).turns = earlier ++ [b]) (hfinished : b.after = some φ) :
    ∃ since, (s.links i).turns = earlier ++ b :: since := by
  induction h with
  | refl => exact ⟨[], hturns⟩
  | tail _ hstep ih =>
    obtain ⟨a, ha⟩ := hstep
    obtain ⟨since, hsince⟩ := ih
    cases step_turned ha i with
    | kept hkept => exact ⟨since, hkept.trans hsince⟩
    | begun hbegun => exact ⟨since ++ [_], by rw [hbegun, hsince]; simp; rfl⟩
    | @advanced past u c s'' rest o next ans hbefore hrest _ hafter =>
      rcases List.eq_nil_or_concat' since with rfl | ⟨since', last, rfl⟩
      · obtain ⟨-, heq⟩ := List.append_inj' (hsince.symm.trans hbefore) rfl
        cases heq
        simp [Turn.after, hrest] at hfinished
      · rw [← List.cons_append, ← List.append_assoc] at hsince
        obtain ⟨rfl, -⟩ := List.append_inj' (hsince.symm.trans hbefore) rfl
        exact ⟨since' ++ [_], by rw [hafter, List.append_assoc]; rfl⟩

end Server

end NostdbServer
