import NostdbServer.Effects.History
import NostdbServer.Http.Routes

/-!
# Session transactions

The sections under the session lock, in the order in which they were entered,
are a history of every session. `Life` is the life of one session as a
transition relation: each section finds the session in a phase and is answered by it.
A session is known by its id; a section that creates a session under an id in
use ends the one before.
-/

namespace NostdbServer.Http

open Effects

-- ---------------------------------------------------------------------------
-- Sections
-- ---------------------------------------------------------------------------

/-- A section with the request that entered it. -/
structure Section where
  request : Nat
  op : SessionOp
  answer : op.Ans

namespace Section

def of? : Nat × Event http → Option Section
  | (n, ⟨.session o, answer⟩) => some ⟨n, o, answer⟩
  | _ => none

def Begins (id : String) (s : Section) : Prop := ∃ n, s = ⟨n, .begin id, .ok ()⟩

def Commits (id : String) (s : Section) : Prop := s.op = .commit id

/-- A section that takes the queue of the session, if there is one. -/
def Takes (id : String) (s : Section) : Prop := s.op = .commit id ∨ s.op = .rollback id

/-- The session is deleted, or there is another one under its id. -/
def Replaces (id : String) (s : Section) : Prop :=
  s.op = .delete id ∨ ∃ n, s = ⟨n, .create, .ok id⟩

def Ends (id : String) (s : Section) : Prop := s.Takes id ∨ s.Replaces id

/-- The statement a query was answered `queued` for. -/
def queued? (id : String) : Section → Option Statement
  | ⟨_, .place target statement _, .ok (.queued _)⟩ => if target = id then some statement else none
  | _ => none

/-- The session a section is about. -/
def session? : Section → Option String
  | ⟨_, .create, .ok id⟩ => some id
  | ⟨_, .create, .error _⟩ => none
  | ⟨_, .delete id, _⟩ | ⟨_, .begin id, _⟩ | ⟨_, .place id _ _, _⟩ | ⟨_, .commit id, _⟩
  | ⟨_, .rollback id, _⟩ => some id

end Section

-- ---------------------------------------------------------------------------
-- The life of a session
-- ---------------------------------------------------------------------------

inductive Phase
  | absent
  | idle
  | active (statements : List Statement)

def Phase.of : Option Session → Phase
  | none => .absent
  | some ⟨none⟩ => .idle
  | some ⟨some statements⟩ => .active statements

def Sessions.phase (sessions : Sessions) (id : String) : Phase := .of (sessions.lookup id)

def transactionActive : ApiError :=
  ⟨.conflict, "transaction_active", "session already has an active transaction"⟩

/-- What a section can do with session `id`. -/
inductive Life (config : Config) (id : String) : Phase → Section → Phase → Prop
  | elsewhere (h : s.session? ≠ some id) : Life config id phase s phase
  | created : Life config id phase ⟨n, .create, .ok id⟩ .idle
  | deleted (h : phase ≠ .absent) : Life config id phase ⟨n, .delete id, .ok ()⟩ .absent
  | noDelete : Life config id .absent ⟨n, .delete id, .error sessionNotFound⟩ .absent
  | begun : Life config id .idle ⟨n, .begin id, .ok ()⟩ (.active [])
  | noBegin : Life config id .absent ⟨n, .begin id, .error sessionNotFound⟩ .absent
  | begunBefore : Life config id (.active statements) ⟨n, .begin id, .error transactionActive⟩
      (.active statements)
  | queued (h : statements.length < config.maxTransactionStatements) :
      Life config id (.active statements)
        ⟨n, .place id statement limited, .ok (.queued (statements.length + 1))⟩
        (.active (statements ++ [statement]))
  | refused : Life config id (.active statements) ⟨n, .place id statement limited, .error error⟩
      (.active statements)
  | immediate : Life config id .idle ⟨n, .place id statement limited, .ok .immediate⟩ .idle
  | noPlace : Life config id .absent ⟨n, .place id statement limited, .error sessionNotFound⟩
      .absent
  | committed : Life config id (.active statements) ⟨n, .commit id, .ok statements⟩ .idle
  | nothingToCommit : Life config id .idle ⟨n, .commit id, .error noTransaction⟩ .idle
  | noCommit : Life config id .absent ⟨n, .commit id, .error sessionNotFound⟩ .absent
  | rolledBack : Life config id (.active statements) ⟨n, .rollback id, .ok ()⟩ .idle
  | nothingToRollBack : Life config id .idle ⟨n, .rollback id, .error noTransaction⟩ .idle
  | noRollback : Life config id .absent ⟨n, .rollback id, .error sessionNotFound⟩ .absent

section
variable {E : Engine} {config : Config} {sessions : Sessions} {id : String}

theorem Sessions.length_of_refusal
    (h : Sessions.refusal E config statements statement limited = none) :
    statements.length < config.maxTransactionStatements := by
  unfold Sessions.refusal at h
  split at h
  · cases h
  · split at h
    · cases h
    · omega

/-- A section about another session leaves this one as it is. -/
theorem Sessions.lookup_step (n : Nat) (uuid : String) (o : SessionOp)
    (h : Section.session? ⟨n, o, (sessions.step E config uuid o).1⟩ ≠ some id) :
    (sessions.step E config uuid o).2.lookup id = sessions.lookup id := by
  cases o with
  | create =>
    dsimp only [Sessions.step, Sessions.create] at h ⊢
    split
    · rfl
    · rename_i hroom
      rw [if_neg hroom] at h
      exact AList.lookup_insert_ne fun he => h (congrArg some he.symm)
  | delete target =>
    have hne : id ≠ target := fun he => h (congrArg some he.symm)
    dsimp only [Sessions.step, Sessions.delete]
    split
    · rfl
    · exact AList.lookup_erase_ne hne
  | begin target =>
    have hne : id ≠ target := fun he => h (congrArg some he.symm)
    dsimp only [Sessions.step, Sessions.begin]
    split
    · rfl
    · rfl
    · exact AList.lookup_insert_ne hne
  | place target statement limited =>
    have hne : id ≠ target := fun he => h (congrArg some he.symm)
    dsimp only [Sessions.step, Sessions.place]
    split
    · rfl
    · rfl
    · split
      · rfl
      · exact AList.lookup_insert_ne hne
  | commit target =>
    have hne : id ≠ target := fun he => h (congrArg some he.symm)
    dsimp only [Sessions.step, Sessions.take]
    split
    · rfl
    · rfl
    · exact AList.lookup_insert_ne hne
  | rollback target =>
    have hne : id ≠ target := fun he => h (congrArg some he.symm)
    dsimp only [Sessions.step, Sessions.take]
    split
    · rfl
    · rfl
    · exact AList.lookup_insert_ne hne

/-- Every section is a step in the life of every session. -/
theorem Sessions.step_life (n : Nat) (uuid : String) (o : SessionOp) :
    Life config id (sessions.phase id) ⟨n, o, (sessions.step E config uuid o).1⟩
      ((sessions.step E config uuid o).2.phase id) := by
  by_cases hother : Section.session? ⟨n, o, (sessions.step E config uuid o).1⟩ ≠ some id
  · unfold Sessions.phase
    rw [lookup_step n uuid o hother]
    exact .elsewhere hother
  rw [not_not] at hother
  cases o with
  | create =>
    dsimp only [Sessions.step, Sessions.create] at hother ⊢
    split
    · rename_i hfull
      rw [if_pos hfull] at hother
      cases hother
    · rename_i hroom
      rw [if_neg hroom] at hother
      cases hother
      unfold Sessions.phase
      rw [AList.lookup_insert]
      exact .created
  | delete target =>
    cases hother
    dsimp only [Sessions.step, Sessions.delete]
    split <;> rename_i hlookup
    · unfold Sessions.phase
      rw [hlookup]
      exact .noDelete
    · unfold Sessions.phase
      rw [AList.lookup_erase]
      exact .deleted (by rw [hlookup]; unfold Phase.of; split <;> simp_all)
  | begin target =>
    cases hother
    dsimp only [Sessions.step, Sessions.begin]
    split <;> rename_i hlookup <;> unfold Sessions.phase <;>
      simp only [hlookup, AList.lookup_insert]
    · exact .noBegin
    · exact .begunBefore
    · exact .begun
  | place target statement limited =>
    cases hother
    dsimp only [Sessions.step, Sessions.place]
    split <;> rename_i hlookup
    · unfold Sessions.phase
      rw [hlookup]
      exact .noPlace
    · unfold Sessions.phase
      rw [hlookup]
      exact .immediate
    · split <;> rename_i hrefusal <;> unfold Sessions.phase <;>
        simp only [hlookup, AList.lookup_insert]
      · exact .refused
      · exact .queued (length_of_refusal hrefusal)
  | commit target =>
    cases hother
    dsimp only [Sessions.step, Sessions.take]
    split <;> rename_i hlookup <;> unfold Sessions.phase <;>
      simp only [hlookup, AList.lookup_insert]
    · exact .noCommit
    · exact .nothingToCommit
    · exact .committed
  | rollback target =>
    cases hother
    dsimp only [Sessions.step, Sessions.take]
    split <;> rename_i hlookup <;> unfold Sessions.phase <;>
      simp only [hlookup, AList.lookup_insert]
    · exact .noRollback
    · exact .nothingToRollBack
    · exact .rolledBack

end

-- ---------------------------------------------------------------------------
-- One move
-- ---------------------------------------------------------------------------

def Phase.Active : Phase → Prop
  | .active _ => True
  | .absent | .idle => False

theorem Phase.Active.eq {p : Phase} (h : p.Active) : ∃ statements, p = .active statements := by
  cases p with
  | active statements => exact ⟨statements, rfl⟩
  | _ => cases h

/-- What taking the queue comes to. -/
def Phase.taken : Phase → Except ApiError (List Statement)
  | .absent => .error sessionNotFound
  | .idle => .error noTransaction
  | .active statements => .ok statements

theorem Phase.eq_of_taken {p : Phase} (h : p.taken = .ok statements) : p = .active statements := by
  cases p with
  | active => exact congrArg _ (Except.ok.inj h)
  | _ => cases h

def Phase.queue : Phase → List Statement
  | .active statements => statements
  | .absent | .idle => []

def Section.error? (s : Section) : Option ApiError := s.op.error? s.answer

namespace Section

theorem session?_of_ends {id : String} {s : Section} (h : s.Ends id) : s.session? = some id := by
  obtain ⟨n, o, answer⟩ := s
  obtain (rfl | rfl) | rfl | ⟨m, h⟩ := h
  · rfl
  · rfl
  · rfl
  · cases h
    rfl

theorem session?_of_queued {id : String} {s : Section} (h : s.queued? id = some statement) :
    s.session? = some id := by
  unfold queued? at h
  split at h
  · split at h
    · rename_i htarget
      exact congrArg some htarget
    · cases h
  · cases h

end Section

namespace Life

section
variable {config : Config} {id : String} {p p' : Phase} {s : Section}

/-- A transaction stays open until its session ends it, and takes up what is queued. -/
theorem stays (h : Life config id (.active statements) s p') (hs : ¬ s.Ends id) :
    p' = .active (statements ++ (s.queued? id).toList) := by
  cases h with
  | elsewhere h =>
    cases hqueued : s.queued? id with
    | none => simp
    | some statement => exact absurd (Section.session?_of_queued hqueued) h
  | begunBefore | refused => simp [Section.queued?]
  | queued => simp [Section.queued?]
  | created => exact absurd (.inr (.inr ⟨_, rfl⟩)) hs
  | deleted => exact absurd (.inr (.inl rfl)) hs
  | committed => exact absurd (.inl (.inl rfl)) hs
  | rolledBack => exact absurd (.inl (.inr rfl)) hs

theorem ends (h : Life config id p s p') (hs : s.Ends id) : ¬ p'.Active := by
  cases h with
  | elsewhere h => exact absurd (Section.session?_of_ends hs) h
  | begun | begunBefore | queued | refused => obtain (h | h) | h | ⟨m, h⟩ := hs <;> cases h
  | _ => exact not_false

/-- A transaction is opened by a begin only. -/
theorem opens (h : Life config id p s p') (hp : ¬ p.Active) (hp' : p'.Active) :
    s.Begins id ∧ p' = .active [] := by
  cases h with
  | elsewhere => exact absurd hp' hp
  | begun => exact ⟨⟨_, rfl⟩, rfl⟩
  | queued | refused | begunBefore => exact absurd trivial hp
  | _ => cases hp'

theorem begins (h : Life config id p s p') (hs : s.Begins id) : p = .idle ∧ p' = .active [] := by
  obtain ⟨n, rfl⟩ := hs
  cases h with
  | elsewhere h => exact absurd rfl h
  | begun => exact ⟨rfl, rfl⟩

/-- A statement is queued in an open transaction. -/
theorem queues (h : Life config id p s p') (hs : s.queued? id = some statement) : p'.Active := by
  cases h with
  | elsewhere h => exact absurd (Section.session?_of_queued hs) h
  | queued => trivial
  | _ => cases hs

theorem present (h : Life config id p s p') (hs : ¬ s.Replaces id) (hp : p ≠ .absent) :
    p' ≠ .absent := by
  cases h with
  | elsewhere => exact hp
  | deleted => exact absurd (.inl rfl) hs
  | noDelete | noBegin | noPlace | noCommit | noRollback => exact hp
  | _ => nofun

theorem commits (h : Life config id p ⟨n, .commit id, ans⟩ p') : ans = p.taken := by
  cases h with
  | elsewhere h => exact absurd rfl h
  | _ => rfl

/-- Whoever takes the queue is answered by the phase. -/
theorem takes (h : Life config id p s p') (hs : s.Takes id) (hp : p ≠ .absent) :
    (p.Active → s.error? = none) ∧ (¬ p.Active → s.error? = some noTransaction) ∧ p' = .idle := by
  cases h with
  | elsewhere h => exact absurd (Section.session?_of_ends (.inl hs)) h
  | committed | rolledBack => exact ⟨fun _ => rfl, fun h => absurd trivial h, rfl⟩
  | nothingToCommit | nothingToRollBack => exact ⟨False.elim, fun _ => rfl, rfl⟩
  | noDelete | noBegin | noPlace | noCommit | noRollback => exact absurd rfl hp
  | _ => obtain h | h := hs <;> cases h

theorem bounded (h : Life config id p s p')
    (hp : p.queue.length ≤ config.maxTransactionStatements) :
    p'.queue.length ≤ config.maxTransactionStatements := by
  cases h with
  | elsewhere => exact hp
  | queued h =>
    simp only [Phase.queue, List.length_append, List.length_singleton]
    exact h
  | refused | begunBefore => exact hp
  | _ => exact Nat.zero_le _

end

end Life

-- ---------------------------------------------------------------------------
-- The history of a session
-- ---------------------------------------------------------------------------

section
variable (id : String) (sections : List Section)

/-- The session's last begin before `j` is at `b`. -/
def LatestBegin (b j : Nat) : Prop :=
  b < j ∧ (∃ s, sections[b]? = some s ∧ s.Begins id) ∧
    ∀ k s, b < k → k < j → sections[k]? = some s → ¬ s.Begins id

/-- The first end of the session after `i` is at `j`. -/
def NextEnd (i j : Nat) : Prop :=
  i < j ∧ (∃ s, sections[j]? = some s ∧ s.Ends id) ∧
    ∀ k s, i < k → k < j → sections[k]? = some s → ¬ s.Ends id

/-- What was queued after `b` and before `j`. -/
def queuedBetween (b j : Nat) : List Statement :=
  ((sections.take j).drop (b + 1)).filterMap (Section.queued? id)

/-- A commit at `j` has taken the queue that the statement queued at `i` is in. -/
def Hands (i j : Nat) : Prop :=
  (∃ n statements, sections[j]? = some ⟨n, .commit id, .ok statements⟩) ∧
    ∃ b, LatestBegin id sections b j ∧ b < i ∧ i < j

end

section
variable {config : Config} {id : String} {sections : List Section} {phase : Nat → Phase}
  {s : Section} {b i j : Nat}

theorem queuedBetween_self : queuedBetween id sections b (b + 1) = [] := by
  rw [queuedBetween, List.drop_eq_nil_of_le (by simp), List.filterMap_nil]

theorem queuedBetween_succ (hs : sections[j]? = some s) (hb : b < j) :
    queuedBetween id sections b (j + 1) =
      queuedBetween id sections b j ++ (s.queued? id).toList := by
  obtain ⟨hj, rfl⟩ := List.getElem?_eq_some_iff.mp hs
  unfold queuedBetween
  rw [List.take_succ_eq_append_getElem hj, List.drop_append_of_le_length, List.filterMap_append]
  · cases h : sections[j].queued? id <;> simp [h]
  · rw [List.length_take]
    omega

/-- An open transaction is still open where its session has not ended it. -/
theorem stays_open (h : Course (Life config id) sections phase) (hij : i ≤ j)
    (hj : j ≤ sections.length) (hi : (phase i).Active)
    (hquiet : ∀ k s, i ≤ k → k < j → sections[k]? = some s → ¬ s.Ends id) : (phase j).Active := by
  refine h.carry (P := fun _ p => p.Active) hij hj hi fun k s p p' hik hkj hk hlife hp => ?_
  cases p with
  | active statements =>
    rw [hlife.stays (hquiet k s hik hkj hk)]
    trivial
  | _ => cases hp

/-- Without a begin none is opened. -/
theorem stays_closed (h : Course (Life config id) sections phase) (hij : i ≤ j)
    (hj : j ≤ sections.length) (hi : ¬ (phase i).Active)
    (hquiet : ∀ k s, i ≤ k → k < j → sections[k]? = some s → ¬ s.Begins id) :
    ¬ (phase j).Active := by
  refine h.carry (P := fun _ p => ¬ p.Active) hij hj hi fun k s p p' hik hkj hk hlife hp hp' => ?_
  exact hquiet k s hik hkj hk (hlife.opens hp hp').1

/-- An open transaction was opened by the last begin, has not been ended since
and has what was queued since. -/
theorem opened_by (h : Course (Life config id) sections phase) (hstart : phase 0 = .absent)
    (hj : j ≤ sections.length) (hp : phase j = .active statements) :
    ∃ b, LatestBegin id sections b j ∧
      (∀ k s, b < k → k < j → sections[k]? = some s → ¬ s.Ends id) ∧
      statements = queuedBetween id sections b j := by
  have hactive : (phase j).Active := by
    rw [hp]
    trivial
  have hinactive : ¬ (phase 0).Active := by
    rw [hstart]
    exact not_false
  obtain ⟨b, hbj, hclosed, hsince⟩ := Course.latest (P := Phase.Active) hinactive hactive
  have hb : sections[b]? = some sections[b] := List.getElem?_eq_getElem (by omega)
  obtain ⟨hbegins, hempty⟩ := (h b _ hb).opens hclosed (hsince (b + 1) (by omega) (by omega))
  have hquiet : ∀ k s, b < k → k < j → sections[k]? = some s → ¬ s.Ends id := by
    intro k s hbk hkj hk hends
    exact (h k s hk).ends hends (hsince (k + 1) (by omega) (by omega))
  refine ⟨b, ⟨hbj, ⟨_, hb, hbegins⟩, fun k s hbk hkj hk hs => ?_⟩, hquiet, ?_⟩
  · have hidle := ((h k s hk).begins hs).1
    have hopen := hsince k hbk (by omega)
    rw [hidle] at hopen
    exact hopen
  · have hqueue : phase j = .active (queuedBetween id sections b j) := by
      refine h.carry (P := fun k p => p = .active (queuedBetween id sections b k))
        (show b + 1 ≤ j from hbj) hj ?_ fun k s p p' hbk hkj hk hlife hp => ?_
      · rw [hempty, queuedBetween_self]
      · subst hp
        rw [hlife.stays (hquiet k s (by omega) hkj hk), queuedBetween_succ hk (by omega)]
    rw [hp] at hqueue
    exact Phase.active.inj hqueue

theorem queue_bounded (h : Course (Life config id) sections phase) (hstart : phase 0 = .absent)
    (hj : j ≤ sections.length) : (phase j).queue.length ≤ config.maxTransactionStatements := by
  refine h.carry (P := fun _ p => p.queue.length ≤ config.maxTransactionStatements)
    (Nat.zero_le j) hj ?_ fun k s p p' _ _ _ hlife => hlife.bounded
  rw [hstart]
  exact Nat.zero_le _

theorem LatestBegin.unique {b b' : Nat} (h : LatestBegin id sections b j)
    (h' : LatestBegin id sections b' j) : b = b' := by
  obtain ⟨hbj, ⟨s, hs, hbegins⟩, hlast⟩ := h
  obtain ⟨hbj', ⟨s', hs', hbegins'⟩, hlast'⟩ := h'
  obtain hlt | heq | hlt := Nat.lt_trichotomy b b'
  · exact absurd hbegins' (hlast b' s' hlt hbj' hs')
  · exact heq
  · exact absurd hbegins (hlast' b s hlt hbj hs)

theorem NextEnd.unique {j j' : Nat} (h : NextEnd id sections i j)
    (h' : NextEnd id sections i j') : j = j' := by
  obtain ⟨hij, ⟨s, hs, hends⟩, hfirst⟩ := h
  obtain ⟨hij', ⟨s', hs', hends'⟩, hfirst'⟩ := h'
  obtain hlt | heq | hlt := Nat.lt_trichotomy j j'
  · exact absurd hends (hfirst' j s hij hlt hs)
  · exact heq
  · exact absurd hends' (hfirst j' s' hij' hlt hs')

/-- A queued statement is taken by a commit exactly if that is the next end of
its session. -/
theorem hands_iff (h : Course (Life config id) sections phase) (hstart : phase 0 = .absent)
    (hi : sections[i]? = some s) (hqueued : s.queued? id = some statement) :
    Hands id sections i j ↔
      NextEnd id sections i j ∧ ∃ s, sections[j]? = some s ∧ s.Commits id := by
  have hopen : (phase (i + 1)).Active := (h i s hi).queues hqueued
  constructor
  · rintro ⟨⟨n, statements, hj⟩, b, hlatest, hbi, hij⟩
    obtain ⟨hlt, -⟩ := List.getElem?_eq_some_iff.mp hj
    have hphase := Phase.eq_of_taken (h j _ hj).commits.symm
    obtain ⟨b', hlatest', hquiet, -⟩ := opened_by h hstart (by omega) hphase
    obtain rfl := hlatest.unique hlatest'
    exact ⟨⟨hij, ⟨_, hj, .inl (.inl rfl)⟩, fun k s hik => hquiet k s (by omega)⟩, _, hj, rfl⟩
  · rintro ⟨⟨hij, -, hquiet⟩, ⟨n, o, answer⟩, hj, rfl⟩
    obtain ⟨hlt, -⟩ := List.getElem?_eq_some_iff.mp hj
    have hstill : ∀ k, i < k → k ≤ j → (phase k).Active := fun k hik hkj =>
      stays_open h (show i + 1 ≤ k from hik) (by omega) hopen fun l s hil hlk =>
        hquiet l s (by omega) (by omega)
    obtain ⟨statements, hphase⟩ := (hstill j hij (le_refl j)).eq
    obtain rfl : answer = .ok statements := (h j _ hj).commits.trans (congrArg Phase.taken hphase)
    obtain ⟨b, hlatest, -, -⟩ := opened_by h hstart (by omega) hphase
    refine ⟨⟨n, statements, hj⟩, b, hlatest, ?_, hij⟩
    -- a begin after the statement would have found its transaction open
    obtain ⟨hbj, ⟨s', hs', hbegins⟩, -⟩ := hlatest
    obtain hlt | rfl | hgt := Nat.lt_trichotomy b i
    · exact hlt
    · cases hi.symm.trans hs'
      obtain ⟨m, rfl⟩ := hbegins
      cases hqueued
    · have hidle := hstill b hgt (by omega)
      rw [((h b s' hs').begins hbegins).1] at hidle
      cases hidle

/-- Of the sections that would take the queue of one transaction, the first does. -/
theorem raced (h : Course (Life config id) sections phase) (hlatest : LatestBegin id sections b j)
    (hkept : ∀ k s, b < k → k < j → sections[k]? = some s → ¬ s.Replaces id)
    (hj : sections[j]? = some s) (htakes : s.Takes id) :
    ((∀ k s, b < k → k < j → sections[k]? = some s → ¬ s.Takes id) → s.error? = none) ∧
    ((∃ k s, b < k ∧ k < j ∧ sections[k]? = some s ∧ s.Takes id) →
      s.error? = some noTransaction) := by
  obtain ⟨hbj, ⟨s', hs', hbegins⟩, hlast⟩ := hlatest
  obtain ⟨hlt, -⟩ := List.getElem?_eq_some_iff.mp hj
  have hopened := ((h b s' hs').begins hbegins).2
  have hpresent : phase j ≠ .absent := by
    refine h.carry (P := fun _ p => p ≠ .absent) (show b + 1 ≤ j from hbj) (by omega) ?_
      fun k s p p' hbk hkj hk hlife => hlife.present (hkept k s (by omega) hkj hk)
    rw [hopened]
    nofun
  obtain ⟨htook, hrefused, -⟩ := (h j s hj).takes htakes hpresent
  constructor
  · intro hnone
    refine htook (stays_open h (show b + 1 ≤ j from hbj) (by omega) ?_ ?_)
    · rw [hopened]
      trivial
    · rintro k s hbk hkj hk (hs | hs)
      · exact hnone k s (by omega) hkj hk hs
      · exact hkept k s (by omega) hkj hk hs
  · rintro ⟨k, s, hbk, hkj, hk, hs⟩
    refine hrefused (stays_closed h (show k + 1 ≤ j from hkj) (by omega) ?_ ?_)
    · exact (h k s hk).ends (.inl hs)
    · exact fun l s hkl hlj => hlast l s (by omega) hlj

end

-- ---------------------------------------------------------------------------
-- Every traffic
-- ---------------------------------------------------------------------------

namespace Sessions

variable {E : Engine} {config : Config} {sessions : Sessions}

theorem length_insert {id : String} {session session' : Session}
    (h : sessions.lookup id = some session) :
    (AList.insert id session' sessions).keys.length = sessions.keys.length := by
  have hmem : id ∈ sessions.keys := AList.mem_keys.mp (AList.lookup_isSome.mp (by rw [h]; rfl))
  have hpos := List.length_pos_of_mem hmem
  rw [AList.keys_insert, List.length_cons, List.length_erase_of_mem hmem]
  omega

theorem length_take (id : String) : (sessions.take id).2.keys.length = sessions.keys.length := by
  unfold take
  split
  · rfl
  · rfl
  · rename_i h
    exact length_insert h

theorem length_step (uuid : String) (o : SessionOp)
    (h : sessions.keys.length ≤ config.maxSessions) :
    (sessions.step E config uuid o).2.keys.length ≤ config.maxSessions := by
  cases o with
  | create =>
    dsimp only [step, create]
    split
    · exact h
    · rename_i hroom
      have herase := List.length_erase_le (a := uuid) (l := sessions.keys)
      rw [AList.keys_insert, List.length_cons]
      omega
  | delete id =>
    dsimp only [step, delete]
    split
    · exact h
    · rw [AList.keys_erase]
      exact List.length_erase_le.trans h
  | begin id =>
    dsimp only [step, begin]
    split
    · exact h
    · exact h
    · rename_i hlookup
      rwa [length_insert hlookup]
  | place id statement limited =>
    dsimp only [step, place]
    split
    · exact h
    · exact h
    · rename_i hlookup
      split
      · exact h
      · rwa [length_insert hlookup]
  | commit id => exact (length_take id).trans_le h
  | rollback id => exact (length_take id).trans_le h

end Sessions

def Traffic.sections (t : Traffic) : List Section := t.log.filterMap Section.of?

/-- Every session is where its history has brought it. -/
structure Traffic.Recorded (config : Config) (t : Traffic) : Prop where
  room : t.adapter.sessions.keys.length ≤ config.maxSessions
  course : ∀ id, ∃ phase, phase 0 = .absent ∧ Course (Life config id) t.sections phase ∧
    phase t.sections.length = t.adapter.sessions.phase id

namespace Traffic

section
variable {E : Engine} {config : Config} {t t' : Traffic}

theorem step_session {a a' : Adapter} {o : SessionOp} {ans : o.Ans}
    (h : Adapter.step E config (.session o) c a = some (ans, a')) :
    ans = (a.sessions.step E config c.uuid o).1 ∧
      a'.sessions = (a.sessions.step E config c.uuid o).2 := by
  cases h
  exact ⟨rfl, rfl⟩

theorem sections_session {a : Adapter} {n : Nat} {o : SessionOp} {ans : o.Ans}
    {r : Nat → Option (Request × Prog http ApiError Reply)} :
    Traffic.sections ⟨a, r, t.log ++ [(n, ⟨.session o, ans⟩)]⟩ =
      t.sections ++ [⟨n, o, ans⟩] := by
  simp [Traffic.sections, Section.of?]

theorem Recorded.same (h : Recorded config t) (hlog : t'.sections = t.sections)
    (hsessions : t'.adapter.sessions = t.adapter.sessions) : Recorded config t' := by
  refine ⟨?_, fun id => ?_⟩
  · rw [hsessions]
    exact h.room
  · rw [hlog, hsessions]
    exact h.course id

theorem Recorded.step (h : Recorded config t) (hs : Step E config t t') : Recorded config t' := by
  cases hs with
  | arrive request hn => exact h.same rfl rfl
  | expire | elsewhere => exact h.same rfl rfl
  | @act n request o next c ans adapter hn hstep =>
    cases o with
    | session o =>
      obtain ⟨rfl, hsessions⟩ := step_session hstep
      refine ⟨?_, fun id => ?_⟩
      · rw [hsessions]
        exact Sessions.length_step c.uuid o h.room
      · obtain ⟨phase, hstart, hcourse, hnow⟩ := h.course id
        have hlife : Life config id (t.adapter.sessions.phase id) _ _ :=
          Sessions.step_life (E := E) n c.uuid o
        rw [← hnow, ← hsessions] at hlife
        rw [sections_session]
        refine ⟨_, ?_, hcourse.snoc hlife, ?_⟩
        · rwa [Function.update_of_ne (by omega)]
        · rw [List.length_append, List.length_singleton, Function.update_self]
    | storage o =>
      obtain ⟨r, -, hr⟩ := Option.map_eq_some_iff.mp hstep
      cases hr
      exact h.same (by simp [Traffic.sections, Section.of?]) rfl
    | _ =>
      cases hstep
      exact h.same (by simp [Traffic.sections, Section.of?]) rfl

theorem Reaches.recorded (h : Reaches E config t) : Recorded config t := by
  refine h.induct (fun site metrics => ?_) fun _ _ ht hs => ht.step hs
  exact ⟨Nat.zero_le _, fun id => ⟨fun _ => .absent, rfl, .nil, rfl⟩⟩

theorem mem_eventsOf {n : Nat} {e : Event http} : e ∈ t.eventsOf n ↔ (n, e) ∈ t.log := by
  simp only [eventsOf, List.mem_filterMap]
  constructor
  · rintro ⟨⟨m, e'⟩, hmem, h⟩
    dsimp only at h
    split at h
    · rename_i hm
      cases h
      rwa [← hm]
    · cases h
  · exact fun h => ⟨_, h, if_pos rfl⟩

theorem mem_sections {n : Nat} {o : SessionOp} {answer : o.Ans} :
    ⟨n, o, answer⟩ ∈ t.sections ↔ (n, ⟨.session o, answer⟩) ∈ t.log := by
  simp only [sections, List.mem_filterMap]
  constructor
  · rintro ⟨⟨m, o', answer'⟩, hmem, h⟩
    cases o' with
    | session o' =>
      cases h
      exact hmem
    | _ => cases h
  · exact fun h => ⟨_, h, rfl⟩

/-- Whoever has done something has arrived. -/
theorem Reaches.routes (h : Reaches E config t) (hlog : (n, e) ∈ t.log) :
    ∃ request rest, t.requests n = some (request, rest) ∧
      (request.route config n).Run (t.eventsOf n) rest := by
  cases hn : t.requests n with
  | none =>
    have hmem := mem_eventsOf.mpr hlog
    rw [h.routed.none n hn] at hmem
    cases hmem
  | some r => exact ⟨r.1, r.2, rfl, h.routed.some n _ _ hn⟩

end

end Traffic

namespace Conduct

variable {config : Config} {request : Request} {log : List (Event http)}

theorem placed_by {id : String} {answer : SessionOp.Ans (.place id statement limited)}
    (h : Conduct config request log)
    (hmem : ⟨.session (.place id statement limited), answer⟩ ∈ log) :
    ∃ body asked, request = .sessionQuery id body ∧
      acceptQuery config body = .ok (asked, statement) := by
  obtain ⟨more, rfl⟩ := h.head hmem
  cases h with
  | queried haccept hlog => cases hlog _ hmem
  | placed haccept => exact ⟨_, _, rfl, haccept⟩

theorem commit_by {id : String} {answer : SessionOp.Ans (.commit id)}
    (h : Conduct config request log) (hmem : ⟨.session (.commit id), answer⟩ ∈ log) :
    request = .commit id := by
  obtain ⟨more, rfl⟩ := h.head hmem
  cases h with
  | queried haccept hlog => cases hlog _ hmem
  | committed => rfl

theorem batch_by (h : Conduct config request log)
    (hmem : ⟨.storage (.executeTransaction statements limits), ans⟩ ∈ log) :
    ∃ id, ⟨.session (.commit id), .ok statements⟩ ∈ log := by
  cases h with
  | arrived => cases hmem
  | queried haccept hlog => cases (hlog _ hmem).1
  | created hlog =>
    rcases List.mem_cons.mp hmem with heq | hmem
    · cases heq
    · cases hlog _ hmem
  | placed haccept hlog =>
    rcases List.mem_cons.mp hmem with heq | hmem
    · cases heq
    · obtain ⟨-, limits, hruns⟩ := hlog _ hmem
      cases hruns.1
  | committed hlog =>
    rcases List.mem_cons.mp hmem with heq | hmem
    · cases heq
    · obtain ⟨statements', rfl, hruns⟩ := hlog _ hmem
      cases hruns.1
      exact ⟨_, List.mem_cons_self⟩
  | _ => cases List.mem_singleton.mp hmem

end Conduct

/-- In whatever order the routes enter the session lock: sessions and queues stay
within their limits; a commit that took a queue goes on with `execute_batch`, and
nothing else does; it has what its session queued since the last begin; a queued
statement is handed on exactly by a commit that is the next end of its session;
and of those who would take one queue the first does, while the others are
answered `no_transaction`. -/
theorem session_statements_handed_on_once {E : Engine} {config : Config} {t : Traffic}
    (h : t.Reaches E config) :
    t.adapter.sessions.keys.length ≤ config.maxSessions ∧
    (∀ id statements, t.adapter.sessions.lookup id = some ⟨some statements⟩ →
      statements.length ≤ config.maxTransactionStatements) ∧
    (∀ s ∈ t.sections, ∀ id statement limited, s.op = .place id statement limited →
      ∃ body asked rest, t.requests s.request = some (.sessionQuery id body, rest) ∧
        acceptQuery config body = .ok (asked, statement)) ∧
    (∀ s ∈ t.sections, ∀ error, s.error? = some error →
      ∃ request, t.requests s.request = some (request, .fail error)) ∧
    (∀ n id statements, ⟨n, .commit id, .ok statements⟩ ∈ t.sections →
      ∃ rest more, t.requests n = some (.commit id, rest) ∧
        t.eventsOf n = ⟨.session (.commit id), .ok statements⟩ :: more ∧
        ((executeBatch config n statements).bind fun results => .pure (.committed results)).Run
          more rest) ∧
    (∀ n statements limits answer,
      (n, ⟨.storage (.executeTransaction statements limits), answer⟩) ∈ t.log →
      ∃ id, ⟨n, .commit id, .ok statements⟩ ∈ t.sections) ∧
    ∀ id,
      (∀ j n statements, t.sections[j]? = some ⟨n, .commit id, .ok statements⟩ →
        ∃ b, LatestBegin id t.sections b j ∧ statements = queuedBetween id t.sections b j) ∧
      (∀ i s statement, t.sections[i]? = some s → s.queued? id = some statement →
        (∀ j, Hands id t.sections i j ↔
          NextEnd id t.sections i j ∧ ∃ s, t.sections[j]? = some s ∧ s.Commits id) ∧
        ∀ j j', Hands id t.sections i j → Hands id t.sections i j' → j = j') ∧
      ∀ b j s, LatestBegin id t.sections b j → t.sections[j]? = some s → s.Takes id →
        (∀ k s, b < k → k < j → t.sections[k]? = some s → ¬ s.Replaces id) →
        ((∀ k s, b < k → k < j → t.sections[k]? = some s → ¬ s.Takes id) → s.error? = none) ∧
        ((∃ k s, b < k ∧ k < j ∧ t.sections[k]? = some s ∧ s.Takes id) →
          s.error? = some noTransaction) := by
  refine ⟨h.recorded.room, ?_, ?_, ?_, ?_, ?_, fun id => ?_⟩
  · intro id statements hlookup
    obtain ⟨phase, hstart, hcourse, hnow⟩ := h.recorded.course id
    have hbound := queue_bounded hcourse hstart (le_refl _)
    rwa [hnow, Sessions.phase, hlookup] at hbound
  · rintro ⟨n, o, answer⟩ hs id statement limited rfl
    have hlog := Traffic.mem_sections.mp hs
    obtain ⟨request, rest, hn, hrun⟩ := h.routes hlog
    obtain ⟨body, asked, rfl, haccept⟩ :=
      (Request.conduct hrun).placed_by (Traffic.mem_eventsOf.mpr hlog)
    exact ⟨body, asked, rest, hn, haccept⟩
  · rintro ⟨n, o, answer⟩ hs error herror
    have hlog := Traffic.mem_sections.mp hs
    obtain ⟨request, rest, hn, hrun⟩ := h.routes hlog
    exact ⟨request, by rw [hn, Request.refused hrun (Traffic.mem_eventsOf.mpr hlog) herror]⟩
  · intro n id statements hs
    have hlog := Traffic.mem_sections.mp hs
    obtain ⟨request, rest, hn, hrun⟩ := h.routes hlog
    have hmem := Traffic.mem_eventsOf.mpr hlog
    obtain rfl := (Request.conduct hrun).commit_by hmem
    obtain ⟨_, hhead⟩ := (Request.conduct hrun).head hmem
    obtain hnil | ⟨error, hlog, -⟩ | ⟨statements', more, hlog, hmore⟩ := commit_run hrun
    · rw [hnil] at hmem
      cases hmem
    · cases hhead.symm.trans hlog
    · cases hhead.symm.trans hlog
      exact ⟨rest, _, hn, hlog, hmore⟩
  · intro n statements limits answer hlog
    obtain ⟨request, rest, hn, hrun⟩ := h.routes hlog
    obtain ⟨id, hmem⟩ := (Request.conduct hrun).batch_by (Traffic.mem_eventsOf.mpr hlog)
    exact ⟨id, Traffic.mem_sections.mpr (Traffic.mem_eventsOf.mp hmem)⟩
  · obtain ⟨phase, hstart, hcourse, -⟩ := h.recorded.course id
    refine ⟨fun j n statements hj => ?_, fun i s statement hi hqueued => ⟨fun j => ?_, ?_⟩, ?_⟩
    · obtain ⟨hlt, -⟩ := List.getElem?_eq_some_iff.mp hj
      obtain ⟨b, hlatest, -, heq⟩ := opened_by hcourse hstart (by omega)
        (Phase.eq_of_taken (hcourse j _ hj).commits.symm)
      exact ⟨b, hlatest, heq⟩
    · exact hands_iff hcourse hstart hi hqueued
    · intro j j' hj hj'
      exact ((hands_iff hcourse hstart hi hqueued).mp hj).1.unique
        ((hands_iff hcourse hstart hi hqueued).mp hj').1
    · exact fun b j s hlatest hj htakes hkept => raced hcourse hlatest hkept hj htakes

def Config.asking : Config :=
  { Config.plain with parseQuery := fun _ => .ok ⟨"CREATE ()", [], false, false, none⟩ }

/-- A statement is queued, and two commits race for it. -/
def racingCommits : Traffic :=
  let chance : Chance := { Chance.of .ok with uuid := "s" }
  List.foldl (Traffic.occur .plain .asking) (.fresh (.resting [7]) fun _ => 0)
    [.arrive 0 .createSession, .act 0 chance, .arrive 1 (.begin "s"), .act 1 chance,
      .arrive 2 (.sessionQuery "s" []), .arrive 3 (.commit "s"), .act 2 chance,
      .arrive 4 (.commit "s"), .act 4 chance, .act 3 chance]

theorem session_statements_handed_on_once_racing :
    Hands "s" racingCommits.sections 2 3 ∧
      racingCommits.sections[4]?.bind Section.error? = some noTransaction := by
  have hreaches : racingCommits.Reaches .plain .asking := ⟨_, _, _, rfl⟩
  obtain ⟨-, -, -, -, -, -, h⟩ := session_statements_handed_on_once hreaches
  obtain ⟨-, hhanded, hraced⟩ := h "s"
  constructor
  · refine ((hhanded 2 _ ⟨"CREATE ()", []⟩ rfl rfl).1 3).mpr
      ⟨⟨by decide, ⟨_, rfl, .inl (.inl rfl)⟩, ?_⟩, _, rfl, rfl⟩
    intro k s hk hk'
    omega
  · have hbetween : ∀ k s, 1 < k → k < 4 → racingCommits.sections[k]? = some s →
        ¬ s.Begins "s" ∧ ¬ s.Replaces "s" := by
      intro k s hk hk' hs
      obtain rfl | rfl : k = 2 ∨ k = 3 := by omega
      all_goals
        cases hs
        refine ⟨?_, ?_⟩
        · rintro ⟨n, h⟩
          cases h
        · rintro (h | ⟨n, h⟩) <;> cases h
    have hlatest : LatestBegin "s" racingCommits.sections 1 4 :=
      ⟨by decide, ⟨_, rfl, _, rfl⟩, fun k s hk hk' hs => (hbetween k s hk hk' hs).1⟩
    exact (hraced 1 4 _ hlatest rfl (.inl rfl) fun k s hk hk' hs => (hbetween k s hk hk' hs).2).2
      ⟨3, _, by decide, by decide, rfl, .inl rfl⟩

end NostdbServer.Http
