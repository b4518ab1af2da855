import NostdbServer.Effects.Noted
import NostdbServer.Restore.Specs

/-!
# Rules for storage programs with an account

The rules of the storage steps for programs that note their events, whatever
the account is: every outcome of a step is entered as it was answered.
-/

namespace NostdbServer

open Effects World

abbrev Notes (E : Engine) (note : μ → Event storage → μ) (p : Prog storage ε α) (m : μ) (v : View)
    (Q : α → μ → View → Prop) (F : ε → μ → View → Prop) : Prop :=
  (storageWorld E).Notes note Site.view p m v Q F

namespace Notes

variable {E : Engine} {μ : Type} {note : μ → Event storage → μ} {m : μ} {v : View}
  {Q : β → μ → View → Prop} {F : ε → μ → View → Prop}

theorem pathExists {f : DbFile} {k : Bool → Prog storage ε β} (hf : f.Core)
    (h : Notes E note (k (v.get f).isSome) (note m ⟨.file (.pathExists f), (v.get f).isSome⟩) v
      Q F) : Notes E note ((StorageOp.pathExists f).bind k) m v Q F :=
  Exec.pathExists hf trivial h

theorem remove {f : DbFile} {k : Except IoError Unit → Prog storage ε β} (hf : f.Core)
    (hok : (v.get f).isSome →
      Notes E note (k (.ok ())) (note m ⟨.file (.remove f), .ok ()⟩) (v.set f none) Q F)
    (habsent : v.get f = none →
      Notes E note (k (.error .notFound)) (note m ⟨.file (.remove f), .error .notFound⟩) v Q F)
    (hfail : ∀ e, e.isNotFound = false →
      Notes E note (k (.error e)) (note m ⟨.file (.remove f), .error e⟩) v Q F) :
    Notes E note ((StorageOp.remove f).bind k) m v Q F :=
  Exec.remove hf trivial hok habsent fun e he _ => hfail e he

theorem rename {f g : DbFile} {k : Except IoError Unit → Prog storage ε β} (hf : f.Core)
    (hg : g.Core) (hne : f ≠ g)
    (hok : ∀ n, v.get f = some n →
      Notes E note (k (.ok ())) (note m ⟨.file (.rename f g), .ok ()⟩)
        ((v.set f none).set g (some n)) Q F)
    (hfail : ∀ e, Notes E note (k (.error e)) (note m ⟨.file (.rename f g), .error e⟩) v Q F) :
    Notes E note ((StorageOp.rename f g).bind k) m v Q F :=
  Exec.rename hf hg hne trivial hok fun e _ => hfail e

theorem sync {k : Except IoError Unit → Prog storage ε β}
    (hok : Notes E note (k (.ok ())) (note m ⟨.file .sync, .ok ()⟩) v Q F)
    (hfail : ∀ e, Notes E note (k (.error e)) (note m ⟨.file .sync, .error e⟩) v Q F) :
    Notes E note (StorageOp.sync.bind k) m v Q F :=
  Exec.sync trivial hok fun e _ => hfail e

theorem createNew {f : DbFile} {bytes : Bytes} {k : Except CreateError Unit → Prog storage ε β}
    (hf : f.Core)
    (hok : v.get f = none → Notes E note (k (.ok ()))
      (note m ⟨.file (.createNew f bytes), .ok ()⟩) (v.set f (some (.file bytes))) Q F)
    (hopening : ∀ e, Notes E note (k (.error (.opening e)))
      (note m ⟨.file (.createNew f bytes), .error (.opening e)⟩) v Q F)
    (htorn : v.get f = none → ∀ n e, Notes E note (k (.error (.writing e)))
      (note m ⟨.file (.createNew f bytes), .error (.writing e)⟩)
        (v.set f (some (.file (bytes.take n)))) Q F) :
    Notes E note ((StorageOp.createNew f bytes).bind k) m v Q F :=
  Exec.createNew hf trivial hok (fun e _ => hopening e) fun n _ _ hn => htorn hn n _

/-- A sidecar goes or stays; the view is the same. -/
theorem removeSidecar {f : DbFile} {k : Unit → Prog storage ε β}
    (h : ∀ r, Notes E note (k ()) (note m ⟨.file (.remove (.sidecar f)), r⟩) v Q F) :
    Notes E note ((removeSidecar f).bind k) m v Q F := by
  refine Exec.op trivial ?_
  rintro s rfl c - ans t hs
  have hview : t.view = s.view := by
    obtain ⟨e, -, rfl, -⟩ | ⟨-, -, -, rfl⟩ := Volume.remove_cases (Option.some.inj hs)
    · rfl
    · exact (Site.view_setFile s (.sidecar f) none).trans rfl
  rw [hview]
  exact h ans

theorem openDatabase {f : DbFile} {k : Except String Database → Prog storage ε β} (hf : f.Core)
    (hok : ∀ b, v.get f = some (.file b) → E.accepts b = .ok () →
      Notes E note (k (.ok ⟨b⟩)) (note m ⟨.openDatabase f, .ok ⟨b⟩⟩) v Q F)
    (hfail : ∀ e, Notes E note (k (.error e)) (note m ⟨.openDatabase f, .error e⟩) v Q F) :
    Notes E note ((Prog.call (S := storage) (.openDatabase f)).bind k) m v Q F :=
  Exec.openDatabase hf trivial hok fun e _ => hfail e

theorem checkDatabase {f : DbFile} {k : Except String Bool → Prog storage ε β} (hf : f.Core)
    (h : ∀ r, Notes E note (k r) (note m ⟨.checkDatabase f, r⟩) v Q F) :
    Notes E note ((Prog.call (S := storage) (.checkDatabase f)).bind k) m v Q F :=
  Exec.checkDatabase hf trivial (fun _ valid _ _ => h (.ok valid)) fun e _ => h (.error e)

theorem adoptServerAuthority {f : DbFile} {k : Except String Unit → Prog storage ε β}
    (hf : f.Core)
    (hok : ∀ b, Notes E note (k (.ok ())) (note m ⟨.adoptServerAuthority f, .ok ()⟩)
      (v.set f (some (.file b))) Q F)
    (hfail : ∀ e, Notes E note (k (.error e)) (note m ⟨.adoptServerAuthority f, .error e⟩) v Q F) :
    Notes E note ((Prog.call (S := storage) (.adoptServerAuthority f)).bind k) m v Q F :=
  Exec.adoptServerAuthority hf trivial (fun _ b _ _ => hok b) hfail

theorem checkpointDatabase {f : DbFile} {k : Except String Unit → Prog storage ε β}
    (h : ∀ r, Notes E note (k r) (note m ⟨.checkpointDatabase f, r⟩) v Q F) :
    Notes E note ((Prog.call (S := storage) (.checkpointDatabase f)).bind k) m v Q F :=
  Exec.checkpointDatabase trivial h

theorem lock {k : Unit → Prog storage ε β}
    (h : Notes E note (k ()) (note m ⟨.lock, ()⟩) { v with locked := true } Q F) :
    Notes E note ((Prog.call (S := storage) .lock).bind k) m v Q F :=
  Exec.lock trivial fun _ => h

theorem unlock {k : Unit → Prog storage ε β}
    (h : Notes E note (k ()) (note m ⟨.unlock, ()⟩) { v with locked := false } Q F) :
    Notes E note ((Prog.call (S := storage) .unlock).bind k) m v Q F :=
  Exec.unlock trivial h

theorem take {k : Option Database → Prog storage ε β}
    (h : Notes E note (k v.slot) (note m ⟨.take, v.slot⟩) { v with slot := none } Q F) :
    Notes E note ((Prog.call (S := storage) .take).bind k) m v Q F :=
  Exec.take trivial h

theorem put {d : Database} {k : Unit → Prog storage ε β}
    (h : Notes E note (k ()) (note m ⟨.put d, ()⟩) { v with slot := some d } Q F) :
    Notes E note ((Prog.call (S := storage) (.put d)).bind k) m v Q F :=
  Exec.put trivial h

theorem checkpoint {d : Database} {k : Except DatabaseError Unit → Prog storage ε β}
    (h : ∀ r, Notes E note (k r) (note m ⟨.checkpoint d, r⟩) v Q F) :
    Notes E note ((Prog.call (S := storage) (.checkpoint d)).bind k) m v Q F :=
  Exec.checkpoint trivial h

end Notes

end NostdbServer
