import Mathlib.Data.List.Induction
import TensorProgram.Proofs.Minting

/-!
Interleaving. Sessions on all threads take their steps in any order, and draw on one supply of
identities. `Action.Leads` says everything that one action of a program can come to; what is
new in the log is read off it, and with it that the supply accounts for the whole log.
-/

namespace TensorProgram

namespace Action

/-- The thread that a session is to be entered on. -/
def enters? : Action → Option ThreadId
  | .enter t _ => some t
  | _ => none

/-- The thread on whose session the action works. -/
def thread? : Action → Option ThreadId
  | .openScope t _ | .call t _ => some t
  | _ => none

/-- The guard that is used up. -/
def guard? : Action → Option Guard
  | .close g | .drop g => some g
  | _ => none

/-- The session that ends. -/
def ended? : Action → Option SessionId
  | .finish id | .leave id => some id
  | _ => none

variable {a : Action}

theorem of_thread {t : ThreadId} (h : a.thread? = some t) :
    a.enters? = none ∧ a.guard? = none ∧ a.ended? = none := by
  cases a with
  | openScope _ _ | call _ _ => exact ⟨rfl, rfl, rfl⟩
  | _ => cases h

theorem of_guard {g : Guard} (h : a.guard? = some g) :
    a.enters? = none ∧ a.thread? = none ∧ a.ended? = none := by
  cases a with
  | close _ | drop _ => exact ⟨rfl, rfl, rfl⟩
  | _ => cases h

theorem of_ended {id : SessionId} (h : a.ended? = some id) :
    a.enters? = none ∧ a.thread? = none ∧ a.guard? = none := by
  cases a with
  | finish _ | leave _ => exact ⟨rfl, rfl, rfl⟩
  | _ => cases h

end Action

namespace Program

variable (p : Program) (id : SessionId) (e : Event) (b : Builder) (s : Supply)

@[simp]
theorem supply_advance : (p.advance id e b s).world.supply = s := rfl

@[simp]
theorem builder_advance :
    (p.advance id e b s).world.builder = update p.world.builder id b := rfl

@[simp]
theorem live_advance : (p.advance id e b s).world.live = p.world.live := rfl

@[simp]
theorem entered_advance : (p.advance id e b s).world.entered = p.world.entered := rfl

@[simp]
theorem guards_advance : (p.advance id e b s).guards = p.guards := rfl

@[simp]
theorem sessions_advance : (p.advance id e b s).sessions = p.sessions := rfl

@[simp]
theorem log_advance : (p.advance id e b s).log = p.log ++ [(id, e)] := rfl

end Program

/-- What an action comes to. -/
inductive Action.Leads (p : Program) : Action → Program → Prop where
  | entered (t : ThreadId) (config : Config) (free : p.world.live t = none) :
      Leads p (.enter t config) ({ p with
        world := { p.world with
          entered := p.world.entered + 1
          builder := update p.world.builder p.world.entered { config }
          live := update p.world.live t (some p.world.entered) }
        sessions := p.world.entered :: p.sessions }.note p.world.entered (.entered config))
  | occupied (t : ThreadId) (config : Config) {id : SessionId}
      (busy : p.world.live t = some id) : Leads p (.enter t config) p
  | idle {a : Action} {t : ThreadId} {s : Supply} (on : a.thread? = some t)
      (free : p.world.live t = none) (mints : p.world.supply.Mints [] s) :
      Leads p a { p with world := { p.world with supply := s } }
  | opened {t : ThreadId} {o : Opening} {id n : Nat} {kind : ScopeKind} {v : Value} {b : Builder}
      {s : Supply} (live : p.world.live t = some id)
      (done : (p.world.builder id).openScope p.world.supply o = (.ok (n, kind, v), b, s)) :
      Leads p (.openScope t o)
        { p.advance id (.opened n o v) b s with guards := ⟨id, n, kind⟩ :: p.guards }
  | called {t : ThreadId} {c : Call} {id : SessionId} {v : Value} {b : Builder} {s : Supply}
      (live : p.world.live t = some id)
      (done : (p.world.builder id).call p.world.supply c = (.ok v, b, s)) :
      Leads p (.call t c) (p.advance id (.called p.world.supply c v) b s)
  | openFailed {t : ThreadId} {o : Opening} {id : SessionId} {f : Failure} {b : Builder}
      {s : Supply} (live : p.world.live t = some id)
      (done : (p.world.builder id).openScope p.world.supply o = (.error f, b, s)) :
      Leads p (.openScope t o) (p.advance id (.failed f) b s)
  | callFailed {t : ThreadId} {c : Call} {id : SessionId} {f : Failure} {b : Builder} {s : Supply}
      (live : p.world.live t = some id)
      (done : (p.world.builder id).call p.world.supply c = (.error f, b, s)) :
      Leads p (.call t c) (p.advance id (.failed f) b s)
  | closed {a : Action} {g : Guard} (of : a.guard? = some g) (held : g ∈ p.guards) :
      Leads p a { p.advance g.session ((p.world.builder g.session).closeEvent g.frame g.kind)
        ((p.world.builder g.session).close g.frame g.kind).2 p.world.supply with
        guards := p.guards.erase g }
  | spent {a : Action} {g : Guard} (of : a.guard? = some g) (gone : g ∉ p.guards) : Leads p a p
  | outside {a : Action} {s : Supply} (enter : a.enters? = none) (thread : a.thread? = none)
      (guard : a.guard? = none) (ended : a.ended? = none) (mints : p.world.supply.Mints [] s) :
      Leads p a { p with world := { p.world with supply := s } }
  | finished {id : SessionId} (held : id ∈ p.sessions) : Leads p (.finish id)
      { p with world := (p.world.finish id).2, sessions := p.sessions.filter (· ≠ id) }
  | left {id : SessionId} (held : id ∈ p.sessions) : Leads p (.leave id)
      { p with world := p.world.leave id, sessions := p.sessions.filter (· ≠ id) }
  | lapsed {a : Action} {id : SessionId} (of : a.ended? = some id) (gone : id ∉ p.sessions) :
      Leads p a p

namespace Program

variable {p q : Program} {a : Action}

theorem leads_openScope (p : Program) (t : ThreadId) (o : Opening) :
    (Action.openScope t o).Leads p (p.step (.openScope t o)) := by
  cases ht : p.world.live t with
  | none =>
      rw [step_openScope_of_idle ht]
      exact .idle rfl ht (.refl _)
  | some id =>
      obtain ⟨r, b, s, hr⟩ : ∃ r b s,
          (p.world.builder id).openScope p.world.supply o = (r, b, s) := ⟨_, _, _, rfl⟩
      rw [step_openScope_of_live ht hr]
      cases r with
      | error f => exact .openFailed ht hr
      | ok x => exact .opened ht hr

theorem leads_call (p : Program) (t : ThreadId) (c : Call) :
    (Action.call t c).Leads p (p.step (.call t c)) := by
  cases ht : p.world.live t with
  | none =>
      rw [step_call_of_idle ht]
      exact .idle rfl ht (c.mints_unserved _)
  | some id =>
      obtain ⟨r, b, s, hr⟩ : ∃ r b s,
          (p.world.builder id).call p.world.supply c = (r, b, s) := ⟨_, _, _, rfl⟩
      rw [step_call_of_live ht hr]
      cases r with
      | error f => exact .callFailed ht hr
      | ok v => exact .called ht hr

theorem leads_close (p : Program) (g : Guard) : (Action.close g).Leads p (p.step (.close g)) := by
  by_cases hg : g ∈ p.guards
  · simp only [step, World.close, hg, if_true, note]
    exact .closed rfl hg
  · simp only [step, hg, if_false]
    exact .spent rfl hg

theorem step_leads (p : Program) (a : Action) : a.Leads p (p.step a) := by
  cases a with
  | enter t config =>
      cases ht : p.world.live t with
      | some id =>
          simp only [step, World.enter, ht]
          exact .occupied t config ht
      | none =>
          simp only [step, World.enter, ht]
          exact .entered t config ht
  | openScope t o => exact p.leads_openScope t o
  | call t c => exact p.leads_call t c
  | close g => exact p.leads_close g
  | drop g =>
      by_cases hg : g ∈ p.guards
      · simp only [step, World.drop, World.close, hg, if_true, note]
        exact .closed rfl hg
      · simp only [step, hg, if_false]
        exact .spent rfl hg
  | declare shape dtype o =>
      simp only [step, World.declare]
      split
      · rename_i x s hd
        exact .outside rfl rfl rfl rfl (Buffer.mints_declare hd)
      · exact .outside rfl rfl rfl rfl (.refl _)
  | mint n =>
      simp only [step, World.mint]
      refine .outside rfl rfl rfl rfl ⟨rfl, Nat.le_add_right _ _, [], rfl, .nil, ?_⟩
      simp
  | finish id =>
      by_cases hid : id ∈ p.sessions
      · simp only [step, hid, if_true]
        exact .finished hid
      · simp only [step, hid, if_false]
        exact .lapsed rfl hid
  | leave id =>
      by_cases hid : id ∈ p.sessions
      · simp only [step, hid, if_true]
        exact .left hid
      · simp only [step, hid, if_false]
        exact .lapsed rfl hid

theorem run_append (supply : Supply) (acts : List Action) (a : Action) :
    run supply (acts ++ [a]) = (run supply acts).step a := by
  rw [run, List.foldl_append]
  rfl

end Program

theorem Builder.closeEvent_eq (b : Builder) (id : Nat) (kind : ScopeKind) :
    b.closeEvent id kind = .closed id ∨ (∃ e, b.closeEvent id kind = .discarded id e) ∨
      ∃ e, b.closeEvent id kind = .failed (.refused e) := by
  rw [closeEvent]
  split
  · exact .inl rfl
  · split
    · exact .inr (.inl ⟨_, rfl⟩)
    · exact .inr (.inr ⟨_, rfl⟩)

theorem Builder.minted_closeEvent (b : Builder) (id : Nat) (kind : ScopeKind) :
    (b.closeEvent id kind).minted = [] := by
  obtain he | ⟨e, he⟩ | ⟨e, he⟩ := b.closeEvent_eq id kind <;> rw [he] <;> rfl

/-- What is added to the log accounts for what is taken from the supply. -/
theorem Action.Leads.mints {p q : Program} {a : Action} (h : a.Leads p q) :
    ∃ news, q.log = p.log ++ news ∧
      p.world.supply.Mints (news.flatMap (·.2.minted)) q.world.supply := by
  cases h with
  | entered t config free => exact ⟨[_], rfl, .refl _⟩
  | opened live done =>
      refine ⟨[_], rfl, ?_⟩
      simpa using Builder.mints_openScope done
  | called live done =>
      refine ⟨[_], rfl, ?_⟩
      simpa using Builder.mints_call done
  | openFailed live done => exact ⟨[_], rfl, Builder.forward_openScope done⟩
  | @callFailed _ c _ _ _ _ live done => exact ⟨[_], rfl, Builder.forward_edit c.forward_run done⟩
  | closed of held =>
      refine ⟨[_], rfl, ?_⟩
      simpa [Builder.minted_closeEvent] using Supply.Mints.refl _
  | idle _ _ mints | outside _ _ _ _ mints => exact ⟨[], (List.append_nil _).symm, mints⟩
  | occupied _ _ _ | spent _ _ | finished _ | left _ | lapsed _ _ =>
      exact ⟨[], (List.append_nil _).symm, .refl _⟩

namespace Program

/-- The identities in the log have been handed out in its order. -/
theorem mints_run (supply : Supply) (acts : List Action) :
    supply.Mints ((run supply acts).log.flatMap (·.2.minted)) (run supply acts).world.supply := by
  induction acts using List.reverseRecOn with
  | nil => exact .refl _
  | append_singleton acts a ih =>
      rw [run_append]
      obtain ⟨news, hl, hm⟩ := ((run supply acts).step_leads a).mints
      rw [hl, List.flatMap_append]
      exact ih.trans hm

theorem about_flatMap_sublist {α : Type} (id : SessionId) (log : List (SessionId × Event))
    (f : Event → List α) : ((about id log).flatMap f).Sublist (log.flatMap (f ·.2)) := by
  induction log with
  | nil => exact .slnil
  | cons x log ih =>
      rw [about, List.filterMap_cons]
      by_cases hx : x.1 = id
      · simp only [hx, if_true, List.flatMap_cons]
        exact (List.Sublist.refl _).append ih
      · simp only [hx, if_false, List.flatMap_cons]
        exact ih.trans (List.sublist_append_right _ _)

/-- A session gets no new identity twice. -/
theorem minted_nodup {supply : Supply} (hs : Function.Injective supply.stream)
    (acts : List Action) (id : SessionId) :
    (((run supply acts).history id).flatMap Event.minted).Nodup :=
  ((mints_run supply acts).nodup hs).sublist (about_flatMap_sublist id _ _)

end Program

end TensorProgram
