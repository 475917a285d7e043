import Mathlib.Data.List.Induction
import TensorProgram.Proofs.Stack

/-!
Guards. A program has at most one guard for a scope, and while it has one the scope is open,
even if the session has ended in the meantime. What was checked when the scope was opened
still holds when it is closed, so that closing it in its turn cannot miss the scope that it
was opened in.
-/

namespace TensorProgram

theorem Scope.Stacked.sitsOn {above below : List Scope} {x : Scope}
    (h : Stacked (above ++ x :: below)) : x.SitsOn below := by
  induction above with
  | nil => exact h.1
  | cons y above ih => exact ih h.2.2

namespace Builder

variable {b b' : Builder}

theorem result_appended {s : Stmt} (h : b.appended s = .ok b') (ho : b'.frames ≠ []) :
    b'.result = b.result := by
  obtain ⟨f, fs, -, rfl⟩ | ⟨hf, r, rfl⟩ := appended_eq_ok h
  · rfl
  · exact absurd hf ho

theorem result_appendedAll {ss : List Stmt} (h : b.appendedAll ss = .ok b')
    (ho : b'.frames ≠ []) : b'.result = b.result := by
  induction ss generalizing b with
  | nil =>
      cases h
      rfl
  | cons s ss ih =>
      cases hs : b.appended s with
      | error e => simp [appendedAll, hs, Except.bind] at h
      | ok b'' =>
          rw [appendedAll, hs] at h
          have hk := congrArg List.length (Scope.scopes_appendedAll h)
          have ho'' : b''.frames ≠ [] := by
            intro hn
            simp [hn] at hk
            exact ho hk
          exact (ih h).trans (result_appended hs ho'')

theorem result_delivered {p : Product} (h : b.delivered p = .ok b') (ho : b'.frames ≠ []) :
    b'.result = b.result := by
  cases p with
  | stmts ss => exact result_appendedAll h ho
  | func f =>
      obtain ⟨hf, -, rfl⟩ := delivered_func h
      exact absurd hf ho
  | blockInit s =>
      obtain ⟨x, -, rfl⟩ := delivered_blockInit h
      exact result_setTop _ _
  | thenCase s =>
      obtain ⟨i, -, rfl⟩ := delivered_thenCase h
      exact result_setTop _ _
  | elseCase s =>
      obtain ⟨i, -, rfl⟩ := delivered_elseCase h
      exact result_setTop _ _

theorem result_performed {eff : Effect} (h : b.performed eff = .ok b') (ho : b'.frames ≠ []) :
    b'.result = b.result := by
  cases eff with
  | setTop x =>
      cases h
      exact result_setTop _ _
  | registerThread v tag =>
      cases h
      rfl
  | append s => exact result_appended h ho

end Builder

/-- The result does not change while a scope is open. -/
theorem Event.Took.result {b b' : Builder} {e : Event} (h : e.Took b b') (ho : b'.frames ≠ []) :
    b'.result = b.result := by
  cases e with
  | entered config => cases h
  | opened id o v =>
      obtain ⟨scope, s, s', -, -, rfl⟩ := h
      rfl
  | called s c v =>
      obtain ⟨eff, s', -, hp⟩ := h
      exact Builder.result_performed hp ho
  | closed id =>
      obtain ⟨f, fs, p, -, -, -, hd⟩ := h
      exact (Builder.result_delivered hd ho :)
  | discarded id e =>
      obtain ⟨f, fs, -, -, -, rfl⟩ := h
      rfl
  | failed f =>
      obtain rfl := h
      cases f <;> rfl

/-- What holds of a builder at every moment, also after the end of its session. -/
structure Builder.WellStacked (b : Builder) : Prop where
  ordered : (b.nextId :: b.frames.map Frame.id).Pairwise (· > ·)
  stacked : Scope.Stacked (b.frames.map Frame.scope)
  /-- A session with an open function has not produced anything. -/
  quiet : ∀ f ∈ b.frames, f.kind = .primFunc → b.result = none

namespace Builder.WellStacked

variable {b b' : Builder}

theorem start (config : Config) : WellStacked { config } where
  ordered := by simp
  stacked := trivial
  quiet := by simp

theorem took {e : Event} (h : b.WellStacked) (ht : e.Took b b') : b'.WellStacked where
  ordered := ht.moves.ordered h.ordered
  stacked := h.stacked.took ht
  quiet := by
    intro f hf hk
    rw [ht.result (List.ne_nil_of_mem hf)]
    have old (hf : f.key ∈ b.frames.map Frame.key) : b.result = none := by
      obtain ⟨g, hg, he⟩ := List.mem_map.1 hf
      exact h.quiet g hg ((congrArg Prod.snd he).trans hk)
    have hf := List.mem_map_of_mem (f := Frame.key) hf
    have hm := ht.moves
    cases e with
    | opened id o v =>
        rw [hm.2.2, List.mem_cons] at hf
        obtain hf | hf := hf
        · -- The scope is a new one, and a function is opened only where there is no result.
          obtain ⟨scope, s, s', hs, -, -⟩ := ht
          have ho : o.kind = .primFunc := (congrArg Prod.snd hf).symm.trans hk
          cases Opening.scope_makes hs with
          | primFunc top idle => exact idle
          | _ => cases ho
        · exact old hf
    | closed id | discarded id _ =>
        obtain ⟨-, kind, hb⟩ := hm
        exact old (hb ▸ List.mem_cons_of_mem _ hf)
    | entered _ | called _ _ _ | failed _ => exact old (hm.2 ▸ hf)

theorem finish (h : b.WellStacked) : b.finish.2.WellStacked := by
  rw [Builder.finish]
  cases b.firstError with
  | some e => exact ⟨h.ordered, h.stacked, h.quiet⟩
  | none =>
      dsimp only
      split
      · cases b.result with
        | none => exact h
        | some r => exact ⟨h.ordered, h.stacked, fun _ _ _ => rfl⟩
      · exact h

end Builder.WellStacked

theorem Builder.frames_finish (b : Builder) : b.finish.2.frames = b.frames := by
  rw [finish]
  cases b.firstError with
  | some e => rfl
  | none =>
      dsimp only
      split
      · cases b.result <;> rfl
      · rfl

theorem Builder.finish_rest (b : Builder) :
    b.finish.2.config = b.config ∧ b.finish.2.nextId = b.nextId := by
  rw [finish]
  cases b.firstError with
  | some e => exact ⟨rfl, rfl⟩
  | none =>
      dsimp only
      split
      · cases b.result <;> exact ⟨rfl, rfl⟩
      · exact ⟨rfl, rfl⟩

theorem Builder.closeEvent_closes {b : Builder} {id n : Nat} {kind : ScopeKind} (h : n ≠ id) :
    (b.closeEvent id kind).closes n = false := by
  rw [closeEvent]
  split
  · simp [Event.closes, h.symm]
  · split
    · simp [Event.closes, h.symm]
    · rfl

namespace Program

/-- The builders are well stacked, and each guard is the only one for a scope that is open. -/
structure Guarded (p : Program) : Prop where
  builders : ∀ id, (p.world.builder id).WellStacked
  opened : ∀ g ∈ p.guards,
    (g.frame, g.kind) ∈ (p.world.builder g.session).frames.map Frame.key
  single : (p.guards.map fun g => (g.session, g.frame)).Nodup

theorem guarded_start (supply : Supply) : Guarded { world := .start supply } where
  builders _ := .start {}
  opened := by simp
  single := by simp

/-- The builder of one session takes a step that leaves the scopes of the guards open. -/
theorem Guarded.builderStep {p q : Program} (h : p.Guarded) {id : SessionId} {e : Event}
    {b : Builder} (hs : (p.world.builder id).Step e b)
    (hw : q.world.builder = update p.world.builder id b)
    (ho : ∀ g ∈ q.guards, g.session = id ∧ (g.frame, g.kind) ∈ b.frames.map Frame.key ∨
      g ∈ p.guards ∧ (g.session = id → e.closes g.frame = false))
    (hn : (q.guards.map fun g => (g.session, g.frame)).Nodup) : q.Guarded where
  builders id' := by
    rw [hw]
    by_cases hi : id' = id
    · subst hi
      rw [update_self]
      exact (h.builders id').took hs.took
    · rw [update_of_ne _ _ hi]
      exact h.builders id'
  opened g hg := by
    rw [hw]
    obtain ⟨rfl, hk⟩ | ⟨hg, hc⟩ := ho g hg
    · rwa [update_self]
    · by_cases hi : g.session = id
      · rw [hi, update_self]
        exact hs.took.moves.mem_keys (hi ▸ h.opened g hg) (hc hi)
      · rw [update_of_ne _ _ hi]
        exact h.opened g hg
  single := hn

/-- A step that is taken by no builder. -/
theorem Guarded.quiet {p q : Program} (h : p.Guarded) (hg : q.guards = p.guards)
    (hb : ∀ id, (q.world.builder id).WellStacked)
    (hw : ∀ g ∈ p.guards, (q.world.builder g.session).frames =
      (p.world.builder g.session).frames) : q.Guarded where
  builders := hb
  opened g hm := by
    rw [hg] at hm
    rw [hw g hm]
    exact h.opened g hm
  single := hg ▸ h.single

theorem Guarded.openScope {p : Program} (h : p.Guarded) (t : ThreadId) (o : Opening) :
    (p.step (.openScope t o)).Guarded := by
  cases ht : p.world.live t with
  | none => rwa [step_openScope_of_idle ht]
  | some id =>
      obtain ⟨r, b, s, hr⟩ : ∃ r b s,
          (p.world.builder id).openScope p.world.supply o = (r, b, s) := ⟨_, _, _, rfl⟩
      rw [step_openScope_of_live ht hr]
      cases r with
      | error f =>
          exact h.builderStep (.openFailed hr) rfl (fun g hg => .inr ⟨hg, fun _ => rfl⟩) h.single
      | ok x =>
          obtain ⟨frame, kind, v⟩ := x
          obtain ⟨scope, -, rfl, rfl, rfl⟩ := Builder.openScope_ok hr
          refine h.builderStep (.opened hr) rfl ?_ ?_
          · intro g hg
            obtain rfl | hg := List.mem_cons.1 hg
            · exact .inl ⟨rfl, List.mem_cons_self⟩
            · exact .inr ⟨hg, fun _ => rfl⟩
          · -- The number of the new scope is greater than that of any open one.
            rw [List.map_cons, List.nodup_cons]
            refine ⟨?_, h.single⟩
            intro hm
            obtain ⟨g, hg, he⟩ := List.mem_map.1 hm
            obtain ⟨hi, hfr⟩ := Prod.mk.inj he
            obtain ⟨f, hf, hk⟩ := List.mem_map.1 (h.opened g hg)
            obtain ⟨hid, -⟩ := Prod.mk.inj hk
            dsimp only at hi hfr
            rw [hi] at hf
            have hlt := (List.pairwise_cons.1 (h.builders id).ordered).1 f.id
              (List.mem_map_of_mem hf)
            omega

theorem Guarded.call {p : Program} (h : p.Guarded) (t : ThreadId) (c : Call) :
    (p.step (.call t c)).Guarded := by
  cases ht : p.world.live t with
  | none =>
      rw [step_call_of_idle ht]
      exact h.quiet rfl h.builders fun _ _ => rfl
  | some id =>
      obtain ⟨r, b, s, hr⟩ : ∃ r b s,
          (p.world.builder id).call p.world.supply c = (r, b, s) := ⟨_, _, _, rfl⟩
      rw [step_call_of_live ht hr]
      cases r with
      | error f =>
          exact h.builderStep (.callFailed hr) rfl (fun g hg => .inr ⟨hg, fun _ => rfl⟩) h.single
      | ok v => exact h.builderStep (.called hr) rfl (fun g hg => .inr ⟨hg, fun _ => rfl⟩) h.single

theorem Guarded.close {p : Program} (h : p.Guarded) (g : Guard) :
    (p.step (.close g)).Guarded := by
  by_cases hg : g ∈ p.guards
  · simp only [step, World.close, hg, if_true, note]
    refine h.builderStep (.close g.frame g.kind) rfl ?_ ?_
    · intro g' hg'
      refine .inr ⟨List.mem_of_mem_erase hg', fun hi => Builder.closeEvent_closes ?_⟩
      -- No other guard is for the same scope.
      intro hf
      have hp := (List.perm_cons_erase hg).map fun g => (g.session, g.frame)
      have hn := hp.nodup_iff.1 h.single
      rw [List.map_cons, List.nodup_cons] at hn
      apply hn.1
      rw [← hi, ← hf]
      exact List.mem_map_of_mem hg'
    · exact h.single.sublist (List.erase_sublist.map _)
  · have hs : p.step (.close g) = p := by simp [step, hg]
    rwa [hs]

/-- A session that is entered is none that a guard is for. -/
theorem Guarded.enter {p : Program} (h : p.Guarded) (hp : p.Sound) (t : ThreadId)
    (config : Config) : (p.step (.enter t config)).Guarded := by
  cases ht : p.world.live t with
  | some id =>
      have hs : p.step (.enter t config) = p := by simp [step, World.enter, ht]
      rwa [hs]
  | none =>
      simp only [step, World.enter, ht, note]
      refine h.quiet rfl ?_ ?_
      · intro id
        by_cases hi : id = p.world.entered
        · subst hi
          simpa only [update_self] using Builder.WellStacked.start config
        · simpa only [update_of_ne _ _ hi] using h.builders id
      · intro g hg
        simp only [update_of_ne _ _ (Nat.ne_of_lt (hp.guards g hg))]

/-- The end of a session leaves its scopes as they are. -/
theorem Guarded.finish {p : Program} (h : p.Guarded) (id : SessionId) :
    (p.step (.finish id)).Guarded := by
  simp only [step]
  split
  · refine h.quiet rfl ?_ ?_
    · intro id'
      by_cases hi : id' = id
      · subst hi
        simpa only [World.finish, World.leave, update_self] using (h.builders id').finish
      · simpa only [World.finish, World.leave, update_of_ne _ _ hi] using h.builders id'
    · intro g hg
      by_cases hi : g.session = id
      · subst hi
        simpa only [World.finish, World.leave, update_self] using Builder.frames_finish _
      · simp only [World.finish, World.leave, update_of_ne _ _ hi]
  · exact h

theorem Guarded.step {p : Program} (h : p.Guarded) (hp : p.Sound) (a : Action) :
    (p.step a).Guarded := by
  cases a with
  | enter t config => exact h.enter hp t config
  | openScope t o => exact h.openScope t o
  | call t c => exact h.call t c
  | close g => exact h.close g
  | drop g => exact step_drop p g ▸ h.close g
  | declare shape dtype o =>
      simp only [Program.step, World.declare]
      split
      · exact h.quiet rfl h.builders fun _ _ => rfl
      · exact h.quiet rfl h.builders fun _ _ => rfl
  | mint n => exact h.quiet rfl h.builders fun _ _ => rfl
  | finish id => exact h.finish id
  | leave id =>
      simp only [Program.step]
      split
      · exact h.quiet rfl h.builders fun _ _ => rfl
      · exact h

theorem guarded_run (supply : Supply) (acts : List Action) : (run supply acts).Guarded := by
  induction acts using List.reverseRecOn with
  | nil => exact guarded_start supply
  | append_singleton acts a ih =>
      rw [run, List.foldl_append]
      exact ih.step (sound_run supply acts) a

end Program

/-- The scope that is to be closed is not open, or is not where it was opened. -/
def BuildError.isAstray : BuildError → Bool
  | .frameNotOpen _ | .nestedFunction _ => true
  | e => e = .functionAfterResult

/-- What a scope makes is wrong in itself, or comes after a function. -/
def BuildError.isUnfit : BuildError → Bool
  | .pairing _ _ | .invalidFunction _ | .invalidBlock _ _ => true
  | e => e = .statementAfterFunction

theorem BuildError.isAstray_of_isUnfit {e : BuildError} (h : e.isUnfit = true) :
    e.isAstray = false := by
  cases e with
  | pairing _ _ | invalidFunction _ | invalidBlock _ _ => rfl
  | argumentShape op detail =>
      rw [of_decide_eq_true h]
      rfl
  | _ => cases h

theorem FuncScope.check_error {g : FuncScope} {e : BuildError} (h : g.check = .error e) :
    e.isUnfit = true := by
  rw [check] at h
  split at h
  · cases h
    rfl
  · split at h
    · cases h
      rfl
    · cases h

/-- What a scope makes can be wrong in itself only. -/
theorem Frame.close_error {c : Config} {f : Frame} {e : BuildError} (h : f.close c = .error e) :
    e.isUnfit = true := by
  rw [close] at h
  cases hs : f.scope with
  | func g =>
      cases hc : g.check with
      | ok u => simp [hs, FuncScope.close, hc] at h
      | error e' =>
          simp only [hs, FuncScope.close, hc, error_bind, Except.error.injEq] at h
          exact h ▸ FuncScope.check_error hc
  | block x =>
      cases hr : x.realization with
      | ok r => simp [hs, BlockScope.close, hr] at h
      | error e' =>
          simp only [hs, BlockScope.close, hr, error_bind, Except.error.injEq] at h
          rw [← h]
          rw [BlockScope.realization] at hr
          cases hb : x.bare <;> cases ha : x.axes.isEmpty <;> cases hp : x.predicate.isNone <;>
            simp only [hb, ha, hp, if_true, if_false, Bool.false_eq_true, pure_eq_ok,
              throw_eq_error, Except.error.injEq, reduceCtorEq] at hr <;>
            exact hr ▸ rfl
  | branch i =>
      cases hf : f.stmts with
      | cons s ss =>
          simp only [hs, BranchScope.close, hf, List.isEmpty_cons, Bool.false_eq_true, if_false,
            throw_eq_error, error_bind, Except.error.injEq] at h
          exact h ▸ rfl
      | nil =>
          cases ht : i.thenCase with
          | some s => simp [hs, BranchScope.close, hf, ht] at h
          | none =>
              simp only [hs, BranchScope.close, hf, ht, List.isEmpty_nil, if_true,
                throw_eq_error, error_bind, Except.error.injEq] at h
              exact h ▸ rfl
  | blockInit | thenCase | elseCase | wrap w => simp [hs] at h

namespace Builder

variable {b b' : Builder} {f : Frame}

theorem appendedAll_error {ss : List Stmt} {e : BuildError} (h : b.appendedAll ss = .error e) :
    e = .statementAfterFunction := by
  induction ss generalizing b with
  | nil => cases h
  | cons s ss ih =>
      cases hs : b.appended s with
      | error e' =>
          rw [appendedAll, hs] at h
          cases h
          exact (appended_eq_error_iff.1 hs).2.2
      | ok b'' =>
          rw [appendedAll, hs] at h
          exact ih h

/-- Statements are refused only where the session has produced a function. -/
theorem stmts_close_error {fs : List Frame} {ss : List Stmt} {kind : ScopeKind} {e : BuildError}
    (hf : b.frames = f :: fs) (hc : f.close b.config = .ok (.stmts ss))
    (he : (b.close f.id kind).1 = .error e) : e = .statementAfterFunction := by
  rw [close_of_top kind hf, hc] at he
  cases hd : { b with frames := fs }.appendedAll ss with
  | ok b' => simp [Except.bind, delivered, hd] at he
  | error e' =>
      simp only [Except.bind, delivered, hd, Except.error.injEq] at he
      exact he ▸ appendedAll_error hd

end Builder

/-- What comes of closing a scope in its turn, with `below` around it, for those kinds of scope
that rely on something in there. -/
def Scope.Lands (stmts : List Stmt) (r : Except BuildError Unit) (b' : Builder) :
    Scope → List Frame → Prop
  | .func x, _ => r = x.check
  | .blockInit, g :: fs => r = .ok () ∧ ∃ x, g.scope = .block x ∧ x.init = none ∧ b'.frames =
      { g with scope := .block { x with init := some (.sequence stmts) } } :: fs
  | .thenCase, g :: fs => r = .ok () ∧ ∃ i, g.scope = .branch i ∧ i.thenCase = none ∧
      i.elseCase = none ∧ b'.frames =
        { g with scope := .branch { i with thenCase := some (.sequence stmts) } } :: fs
  | .elseCase, g :: fs => r = .ok () ∧ ∃ i, g.scope = .branch i ∧ i.thenCase.isSome ∧
      i.elseCase = none ∧ b'.frames =
        { g with scope := .branch { i with elseCase := some (.sequence stmts) } } :: fs
  | .blockInit, [] | .thenCase, [] | .elseCase, [] => False
  | .block _, _ | .branch _, _ | .wrap _, _ => True

namespace Scope

theorem sitsOn_blockInit {fs : List Frame} (h : SitsOn .blockInit (fs.map Frame.scope)) :
    ∃ g gs x, fs = g :: gs ∧ g.scope = .block x ∧ x.init = none := by
  cases fs with
  | nil => exact h.elim
  | cons g gs =>
      rw [List.map_cons] at h
      cases hg : g.scope with
      | block x => exact ⟨g, gs, x, rfl, hg, by rwa [hg] at h⟩
      | func _ | blockInit | branch _ | thenCase | elseCase | wrap _ => simp [hg, SitsOn] at h

theorem sitsOn_thenCase {fs : List Frame} (h : SitsOn .thenCase (fs.map Frame.scope)) :
    ∃ g gs i, fs = g :: gs ∧ g.scope = .branch i ∧ i.thenCase = none ∧ i.elseCase = none := by
  cases fs with
  | nil => exact h.elim
  | cons g gs =>
      rw [List.map_cons] at h
      cases hg : g.scope with
      | branch i => exact ⟨g, gs, i, rfl, hg, by rwa [hg] at h⟩
      | func _ | blockInit | block _ | thenCase | elseCase | wrap _ => simp [hg, SitsOn] at h

theorem sitsOn_elseCase {fs : List Frame} (h : SitsOn .elseCase (fs.map Frame.scope)) :
    ∃ g gs i, fs = g :: gs ∧ g.scope = .branch i ∧ i.thenCase.isSome ∧ i.elseCase = none := by
  cases fs with
  | nil => exact h.elim
  | cons g gs =>
      rw [List.map_cons] at h
      cases hg : g.scope with
      | branch i => exact ⟨g, gs, i, rfl, hg, by rwa [hg] at h⟩
      | func _ | blockInit | block _ | thenCase | elseCase | wrap _ => simp [hg, SitsOn] at h

end Scope

namespace Builder.WellStacked

variable {b : Builder} {f : Frame} {fs : List Frame}

theorem close_func (h : b.WellStacked) {g : FuncScope} (hf : b.frames = f :: fs)
    (hs : f.scope = .func g) (kind : ScopeKind) : (b.close f.id kind).1 = g.check := by
  have hb : fs = [] := by
    have hst := h.stacked
    rw [hf, List.map_cons, hs] at hst
    simpa [Scope.SitsOn] using hst.1
  have hq : b.result = none := h.quiet f (by simp [hf]) (by simp [Frame.kind, hs, Scope.kind])
  rw [close_of_top kind hf, Frame.close, hs, hb]
  cases hc : g.check with
  | error e => simp [FuncScope.close, hc, Except.bind]
  | ok u => simp [FuncScope.close, hc, Except.bind, delivered, topKind?, hq]

/-- A function is accepted if it is sound, and an init or a branch always is. -/
theorem close_lands (h : b.WellStacked) (hf : b.frames = f :: fs) (kind : ScopeKind) :
    f.scope.Lands f.stmts (b.close f.id kind).1 (b.close f.id kind).2 fs := by
  have hst := h.stacked
  rw [hf] at hst
  have hsit : f.scope.SitsOn (fs.map Frame.scope) := hst.1
  cases hs : f.scope with
  | func g => exact h.close_func hf hs kind
  | block _ | branch _ | wrap _ => trivial
  | blockInit =>
      obtain ⟨g, gs, x, rfl, hg, hi⟩ := Scope.sitsOn_blockInit (hs ▸ hsit)
      rw [close_of_top kind hf, Frame.close, hs]
      simp [Scope.Lands, Except.bind, Except.map, delivered, topBlock, top?, hg, hi, setTop,
        Scope.block?]
  | thenCase =>
      obtain ⟨g, gs, i, rfl, hg, ht, he⟩ := Scope.sitsOn_thenCase (hs ▸ hsit)
      rw [close_of_top kind hf, Frame.close, hs]
      simp [Scope.Lands, Except.bind, Except.map, delivered, topBranch, top?, hg, ht, he, setTop,
        Scope.branch?]
  | elseCase =>
      obtain ⟨g, gs, i, rfl, hg, ht, he⟩ := Scope.sitsOn_elseCase (hs ▸ hsit)
      rw [close_of_top kind hf, Frame.close, hs]
      simp [Scope.Lands, Except.bind, Except.map, delivered, topBranch, top?, hg, ht, he, setTop,
        Scope.branch?]

theorem close_deeper (h : b.WellStacked) {t : Frame} {above : List Frame}
    (hf : b.frames = t :: (above ++ f :: fs)) (kind : ScopeKind) :
    (b.close f.id kind).1 = .error (.outOfOrderClose kind t.kind) := by
  have hlt : f.id < t.id := by
    have ho := (List.pairwise_cons.1 h.ordered).2
    rw [hf, List.map_cons, List.pairwise_cons] at ho
    exact ho.1 f.id (by simp)
  have ht : t.id ≠ f.id := by omega
  have hm : (above ++ f :: fs).any (fun x => x.id = f.id) = true := by simp
  simp only [close, Change.close, bind_inPlace, Change.get_apply, hf, ht, if_false, hm,
    if_true, Change.throw_apply]

/-- A scope that is closed in its turn fails only for what it makes. -/
theorem close_top_error (h : b.WellStacked) (hf : b.frames = f :: fs) {kind : ScopeKind}
    {e : BuildError} (he : (b.close f.id kind).1 = .error e) : e.isUnfit = true := by
  have hl := h.close_lands hf kind
  rw [he] at hl
  cases hc : f.close b.config with
  | error e' =>
      rw [close_of_top kind hf, hc] at he
      cases he
      exact Frame.close_error hc
  | ok p =>
      have hp := Frame.close_closes hc
      generalize f.scope = x at hp hl
      cases hp with
      | func sound => exact FuncScope.check_error hl.symm
      | blockInit | thenCase | elseCase =>
          cases fs with
          | nil => exact hl.elim
          | cons g gs => cases hl.1
      | block _ | branch _ _ | wrap _ =>
          rw [stmts_close_error hf hc he]
          rfl

/-- No scope that is open goes astray when it is closed, in its turn or not. -/
theorem close_error (h : b.WellStacked) {above : List Frame} (hf : b.frames = above ++ f :: fs)
    {kind : ScopeKind} {e : BuildError} (he : (b.close f.id kind).1 = .error e) :
    e.isAstray = false := by
  cases above with
  | nil => exact BuildError.isAstray_of_isUnfit (h.close_top_error hf he)
  | cons t above =>
      rw [h.close_deeper hf] at he
      cases he
      rfl

end Builder.WellStacked

/-- The scope of the guard is open, and what can be wrong with closing it is that another scope
is open inside it or what the scope itself makes, never where it is. -/
def World.InPlace (w : World) (g : Guard) : Prop :=
  ∃ above f below r, (w.builder g.session).frames = above ++ f :: below ∧
    f.key = (g.frame, g.kind) ∧ (w.close g).1 = r ∧
    (∀ kind, r ≠ .error (.frameNotOpen kind)) ∧
    (∀ kind, r ≠ .error (.nestedFunction kind)) ∧
    r ≠ .error .functionAfterResult ∧
    (∀ t ts, above = t :: ts → r = .error (.outOfOrderClose g.kind t.kind)) ∧
    (above = [] → f.scope.Lands f.stmts r ((w.close g).2.builder g.session) below)

theorem World.inPlace {w : World} {g : Guard} (hw : (w.builder g.session).WellStacked)
    (ho : (g.frame, g.kind) ∈ (w.builder g.session).frames.map Frame.key) : w.InPlace g := by
  obtain ⟨f, hf, hk⟩ := List.mem_map.1 ho
  obtain ⟨above, below, hb⟩ := List.append_of_mem hf
  obtain ⟨hid, -⟩ := Prod.mk.inj hk
  have hc : (w.close g).1 = ((w.builder g.session).close f.id g.kind).1 := by
    rw [close, hid]
  have hn : (w.close g).2.builder g.session = ((w.builder g.session).close f.id g.kind).2 := by
    rw [close, hid]
    exact update_self _ _ _
  have ha : ∀ e, (w.close g).1 = .error e → e.isAstray = false := by
    intro e he
    exact hw.close_error hb (hc ▸ he)
  refine ⟨above, f, below, _, hb, hk, rfl, ?_, ?_, ?_, ?_, ?_⟩
  · intro kind he
    cases ha _ he
  · intro kind he
    cases ha _ he
  · intro he
    cases ha _ he
  · rintro t ts rfl
    rw [hc]
    exact hw.close_deeper hb g.kind
  · rintro rfl
    rw [hc, hn]
    exact hw.close_lands hb g.kind

namespace Program

/-- Whatever a program does, the scopes of every session stay where they were opened: numbered
from the outside in, a function outermost and in a session that has produced nothing, an init
in a block without one, and the branches of a conditional in their order. Every guard in hand
finds its scope there. -/
theorem guards_in_place (supply : Supply) (acts : List Action) :
    (∀ id, let b := (run supply acts).world.builder id
      (b.nextId :: b.frames.map Frame.id).Pairwise (· > ·) ∧
      ∀ above f below, b.frames = above ++ f :: below →
        f.scope.SitsOn (below.map Frame.scope) ∧ (f.kind = .primFunc → b.result = none)) ∧
    ∀ g ∈ (run supply acts).guards, (run supply acts).world.InPlace g := by
  have hp := guarded_run supply acts
  constructor
  · intro id b
    refine ⟨(hp.builders id).ordered, ?_⟩
    intro above f below hf
    have hst := (hp.builders id).stacked
    rw [show ((run supply acts).world.builder id).frames = _ from hf, List.map_append,
      List.map_cons] at hst
    exact ⟨hst.sitsOn, (hp.builders id).quiet f (by simp [b, hf])⟩
  · intro g hg
    exact World.inPlace (hp.builders g.session) (hp.opened g hg)

/-- The init of a block whose session has been ended too early, after the block was closed out
of order. -/
theorem guards_in_place_init :
    let acts : List Action := [.enter 0 {}, .openScope 0 .primFunc,
      .openScope 0 (.block "b" false), .openScope 0 .blockInit, .close ⟨0, 1, .block⟩, .finish 0]
    let w := (run .counting acts).world
    (w.close ⟨0, 2, .blockInit⟩).1 = .ok () ∧ w.InPlace ⟨0, 2, .blockInit⟩ ∧
      w.InPlace ⟨0, 0, .primFunc⟩ := by
  intro acts w
  have hg := (guards_in_place .counting acts).2
  exact ⟨rfl, hg ⟨0, 2, .blockInit⟩ (by decide), hg ⟨0, 0, .primFunc⟩ (by decide)⟩

end Program

end TensorProgram
