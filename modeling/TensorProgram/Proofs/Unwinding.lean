import Mathlib.Data.List.Forall2
import TensorProgram.Proofs.Guards
import TensorProgram.Proofs.Interface
import TensorProgram.Proofs.Sessions

/-!
Unwinding. A part of a program that closes its own scopes last first leaves the stack as it found
it, wherever it fails on the way: each closing takes away the scope that is its own, whatever
becomes of what the scope has made, and what lies below is out of reach, apart from the threads
that are registered with the function.
-/

namespace TensorProgram

/-- A frame below the innermost one, now and later: a function may have got more threads. -/
inductive Frame.Grows (f : Frame) : Frame → Prop where
  | same : Grows f f
  | threads {g : FuncScope} {ts : OrderedMap Var IterVar} (of : f.scope = .func g)
      (more : g.threads.entries <+: ts.entries) :
      Grows f { f with scope := .func { g with threads := ts } }

instance : Std.Refl Frame.Grows := ⟨fun _ => .same⟩

namespace Frame.Grows

variable {f g h : Frame} {fs gs hs : List Frame}

theorem trans (hf : f.Grows g) (hg : g.Grows h) : f.Grows h := by
  cases hf with
  | same => exact hg
  | @threads g₀ ts of more =>
      cases hg with
      | same => exact .threads of more
      | threads of' more' =>
          cases of'
          exact .threads (g := g₀) of (more.trans more')

theorem key (h : f.Grows g) : g.key = f.key := by
  cases h with
  | same => rfl
  | threads of _ => simp [Frame.key, Frame.kind, of, Scope.kind]

theorem keys (h : List.Forall₂ Grows fs gs) : gs.map Frame.key = fs.map Frame.key := by
  induction h with
  | nil => rfl
  | cons hf _ ih => rw [List.map_cons, List.map_cons, hf.key, ih]

theorem trans_all (h : List.Forall₂ Grows fs gs) (h' : List.Forall₂ Grows gs hs) :
    List.Forall₂ Grows fs hs := by
  induction h generalizing hs with
  | nil => exact h'
  | cons hf _ ih =>
      cases h' with
      | cons hg hr => exact .cons (hf.trans hg) (ih hr)

end Frame.Grows

/-- A stack and what it has become while its scopes were open: anything in the innermost scope
may have changed, and those below have grown at most. -/
structure Settled (fs fs' : List Frame) : Prop where
  keys : fs'.map Frame.key = fs.map Frame.key
  below : List.Forall₂ Frame.Grows fs.tail fs'.tail

namespace Settled

variable {fs gs hs : List Frame}

theorem of_grows (h : List.Forall₂ Frame.Grows fs gs) : Settled fs gs where
  keys := Frame.Grows.keys h
  below := by
    rw [← List.drop_one, ← List.drop_one]
    exact List.forall₂_drop 1 h

theorem of_tail (hk : gs.map Frame.key = fs.map Frame.key) (ht : gs.tail = fs.tail) :
    Settled fs gs :=
  ⟨hk, ht ▸ List.forall₂_refl _⟩

theorem refl (fs : List Frame) : Settled fs fs := .of_tail rfl rfl

theorem trans (h : Settled fs gs) (h' : Settled gs hs) : Settled fs hs :=
  ⟨h'.keys.trans h.keys, Frame.Grows.trans_all h.below h'.below⟩

/-- The lower part of a stack has settled too. -/
theorem split {above : List Frame} (h : Settled (above ++ fs) gs) :
    ∃ above' fs', gs = above' ++ fs' ∧ above'.map Frame.key = above.map Frame.key ∧
      Settled fs fs' := by
  cases above with
  | nil => exact ⟨[], gs, rfl, rfl, h⟩
  | cons f above =>
      cases gs with
      | nil => cases h.keys
      | cons g gs =>
          have hb : List.Forall₂ Frame.Grows (above ++ fs) gs := h.below
          have ha := List.forall₂_take above.length hb
          have hf := List.forall₂_drop above.length hb
          rw [List.take_left] at ha
          rw [List.drop_left] at hf
          refine ⟨g :: gs.take above.length, gs.drop above.length, ?_, ?_, .of_grows hf⟩
          · rw [List.cons_append, List.take_append_drop]
          · rw [List.map_cons, List.map_cons, Frame.Grows.keys ha, (List.cons.inj h.keys).1]

end Settled

/-- The identities under which threads are registered. -/
def Scope.threadIds : Scope → List VarId
  | .func g => g.threads.keys.map Var.id
  | _ => []

def Builder.threadIds (b : Builder) : List VarId := b.frames.flatMap (·.scope.threadIds)

namespace Builder

variable {b b' : Builder}

theorem threadIds_congr (h : b'.frames.map Frame.scope = b.frames.map Frame.scope) :
    b'.threadIds = b.threadIds := by
  have hm (b : Builder) : b.threadIds = (b.frames.map Frame.scope).flatMap Scope.threadIds := by
    rw [threadIds, List.flatMap_map]
  rw [hm, hm, h]

theorem threadIds_pop {f : Frame} {fs : List Frame} (h : b.frames = f :: fs) :
    threadIds { b with frames := fs } ⊆ b.threadIds := by
  rw [threadIds, threadIds, h]
  exact List.subset_append_right _ _

theorem threadIds_setTop {x y : Scope} (ht : b.Top x) (h : y.threadIds = x.threadIds) :
    (b.setTop y).threadIds = b.threadIds := by
  obtain ⟨f, fs, hf, rfl⟩ := ht
  simp only [threadIds, frames_setTop hf, hf, List.flatMap_cons, h]

theorem threadIds_registerThread (v : Var) (tag : String) :
    (b.registerThread v tag).threadIds ⊆ b.threadIds ++ [v.id] := by
  rw [threadIds, threadIds, registerThread]
  dsimp only
  generalize b.frames = fs
  induction fs with
  | nil => simp [updateFunc]
  | cons f fs ih =>
      intro i hi
      cases hf : f.scope with
      | func g =>
          simp only [updateFunc, hf, List.flatMap_cons, List.mem_append, Scope.threadIds,
            List.mem_map, List.mem_singleton] at hi ⊢
          obtain ⟨w, hw, rfl⟩ | hi := hi
          · obtain hw | rfl := OrderedMap.mem_keys_insert hw
            · exact .inl (.inl ⟨w, hw, rfl⟩)
            · exact .inr rfl
          · exact .inl (.inr hi)
      | block _ | blockInit | branch _ | thenCase | elseCase | wrap _ =>
          simp only [updateFunc, hf, List.flatMap_cons, Scope.threadIds, List.nil_append] at hi ⊢
          exact ih hi

/-- A thread that is not registered yet comes last. -/
theorem grows_registerThread {v : Var} (h : v.id ∉ b.threadIds) (tag : String) :
    List.Forall₂ Frame.Grows b.frames (b.registerThread v tag).frames := by
  rw [threadIds] at h
  rw [registerThread]
  dsimp only
  generalize b.frames = fs at h ⊢
  induction fs with
  | nil => exact .nil
  | cons f fs ih =>
      rw [List.flatMap_cons, List.mem_append, not_or] at h
      cases hf : f.scope with
      | func g =>
          have hn : Keyed.key v ∉ g.threads.entries.map fun e => Keyed.key e.1 := by
            simpa [hf, Scope.threadIds, OrderedMap.keys, Keyed.key] using h.1
          simp only [updateFunc, hf]
          refine .cons (.threads hf ?_) (List.forall₂_refl fs)
          rw [OrderedMap.entries_insert, OrderedMap.put_of_notMem v _ hn]
          exact List.prefix_append _ _
      | block _ | blockInit | branch _ | thenCase | elseCase | wrap _ =>
          simp only [updateFunc, hf]
          exact .cons .same (ih h.2)

/-- What is delivered goes to the innermost scope, or to the result. -/
theorem tail_appended {s : Stmt} (h : b.appended s = .ok b') :
    b'.frames.tail = b.frames.tail := by
  obtain ⟨f, fs, hf, rfl⟩ | ⟨-, r, rfl⟩ := appended_eq_ok h
  · simp [hf]
  · rfl

theorem tail_appendedAll {ss : List Stmt} (h : b.appendedAll ss = .ok b') :
    b'.frames.tail = b.frames.tail := by
  refine appendedAll_induction (R := fun b b' => b'.frames.tail = b.frames.tail) ?_ ?_
    tail_appended h
  · exact fun _ => rfl
  · exact fun h h' => h'.trans h

theorem tail_setTop (x : Scope) : (b.setTop x).frames.tail = b.frames.tail := by
  rw [setTop]
  split <;> simp [*]

theorem tail_delivered {p : Product} (h : b.delivered p = .ok b') :
    b'.frames.tail = b.frames.tail := by
  cases p with
  | stmts ss => exact tail_appendedAll h
  | func f =>
      obtain ⟨-, -, rfl⟩ := delivered_func h
      rfl
  | blockInit s =>
      obtain ⟨x, -, rfl⟩ := delivered_blockInit h
      exact tail_setTop _
  | thenCase s =>
      obtain ⟨i, -, rfl⟩ := delivered_thenCase h
      exact tail_setTop _
  | elseCase s =>
      obtain ⟨i, -, rfl⟩ := delivered_elseCase h
      exact tail_setTop _

theorem threadIds_delivered {p : Product} (h : b.delivered p = .ok b') :
    b'.threadIds = b.threadIds := by
  cases p with
  | stmts ss => exact threadIds_congr (Scope.scopes_appendedAll h)
  | func f =>
      obtain ⟨-, -, rfl⟩ := delivered_func h
      rfl
  | blockInit s =>
      obtain ⟨x, ht, rfl⟩ := delivered_blockInit h
      exact threadIds_setTop ht rfl
  | thenCase s =>
      obtain ⟨i, ht, rfl⟩ := delivered_thenCase h
      exact threadIds_setTop ht rfl
  | elseCase s =>
      obtain ⟨i, ht, rfl⟩ := delivered_elseCase h
      exact threadIds_setTop ht rfl

theorem frames_failed (b : Builder) (f : Failure) : (b.failed f).frames = b.frames := by
  cases f <;> rfl

/-- The innermost scope is gone once it is closed, and what it has made goes no deeper than to the
next. -/
theorem close_top {f : Frame} {fs : List Frame} (kind : ScopeKind) (hf : b.frames = f :: fs) :
    (b.close f.id kind).2.frames.map Frame.key = fs.map Frame.key ∧
      (b.close f.id kind).2.frames.tail = fs.tail ∧
      ((b.close f.id kind).1 ≠ .ok () → (b.close f.id kind).2.frames = fs) := by
  cases hr : (f.close b.config).bind { b with frames := fs }.delivered with
  | error e =>
      rw [close_of_top kind hf, hr]
      exact ⟨rfl, rfl, fun _ => rfl⟩
  | ok b' =>
      rw [close_of_top kind hf, hr]
      cases hp : f.close b.config with
      | error e => simp [hp, Except.bind] at hr
      | ok p =>
          rw [hp] at hr
          exact ⟨(keeps_delivered hr).keys, tail_delivered hr, fun h => absurd rfl h⟩

end Builder

theorem Scope.Refines.threadIds {x y : Scope} (h : x.Refines y) : y.threadIds = x.threadIds := by
  cases h with
  | block _ => rfl
  | func h => simp [Scope.threadIds, h]

theorem Opening.Makes.threadIds {b : Builder} {o : Opening} {v : Value} {x : Scope}
    (h : o.Makes b v x) : x.threadIds = [] := by
  cases h <;> rfl

namespace Event

variable {b b' : Builder} {e : Event}

/-- Threads are registered under the identities that are minted for them. -/
theorem Took.threadIds (h : e.Took b b') : b'.threadIds ⊆ b.threadIds ++ e.minted := by
  have same (h : b'.threadIds = b.threadIds) : b'.threadIds ⊆ b.threadIds ++ e.minted :=
    h ▸ List.subset_append_left _ _
  cases e with
  | entered config => cases h
  | opened id o v =>
      obtain ⟨x, s, s', hx, -, rfl⟩ := h
      refine same ?_
      simp [Builder.threadIds, Builder.push, (Opening.scope_makes hx).threadIds]
  | called s c v =>
      obtain ⟨eff, s', he, hp⟩ := h
      have hd := Call.effect_does he
      cases eff with
      | setTop y =>
          obtain ⟨x, ht, hr⟩ := hd.refines
          cases hp
          exact same (Builder.threadIds_setTop ht hr.threadIds)
      | registerThread w tag =>
          cases hd
          cases hp
          exact Builder.threadIds_registerThread _ _
      | append s => exact same (Builder.threadIds_congr (Scope.scopes_appended hp))
  | closed id =>
      obtain ⟨f, fs, p, hf, -, -, hd⟩ := h
      rw [Builder.threadIds_delivered hd]
      exact List.Subset.trans (Builder.threadIds_pop hf) (List.subset_append_left _ _)
  | discarded id e =>
      obtain ⟨f, fs, hf, -, -, rfl⟩ := h
      exact List.Subset.trans (Builder.threadIds_pop hf) (List.subset_append_left _ _)
  | failed f =>
      obtain rfl := h
      exact same (Builder.threadIds_congr (by rw [Builder.frames_failed]))

/-- A call reaches below the innermost scope only to register a thread. -/
theorem settled_of_called {s : Supply} {c : Call} {v : Value} (h : (called s c v).Took b b')
    (hn : ∀ i ∈ (called s c v).minted, i ∉ b.threadIds) : Settled b.frames b'.frames := by
  obtain ⟨eff, s', he, hp⟩ := h
  have hd := Call.effect_does he
  cases eff with
  | setTop y =>
      cases hp
      exact .of_tail (hd.keeps rfl).keys (Builder.tail_setTop y)
  | registerThread w tag =>
      cases hd
      cases hp
      exact .of_grows (Builder.grows_registerThread (hn w.id (by simp [minted])) _)
  | append s => exact .of_tail (Builder.keeps_appended hp).keys (Builder.tail_appended hp)

end Event

theorem Builder.Lived.threadIds {config : Config} {H : List Event} {b : Builder}
    (h : Lived config H b) : b.threadIds ⊆ H.flatMap Event.minted := by
  induction h with
  | start => simp [Builder.threadIds]
  | @step H b e b' past last ih =>
      rw [List.flatMap_append, List.flatMap_singleton]
      refine List.Subset.trans last.took.threadIds (List.append_subset.2 ⟨?_, ?_⟩)
      · exact List.Subset.trans ih (List.subset_append_left _ _)
      · exact List.subset_append_right _ _

/-- The scopes of the guards, innermost first, stand on what the stack `fs` has become. -/
def Builder.StandsOn (b : Builder) (held : List Guard) (fs : List Frame) : Prop :=
  ∃ above below, b.frames = above ++ below ∧
    above.map Frame.key = held.map (fun g => (g.frame, g.kind)) ∧ Settled fs below

namespace Builder.StandsOn

variable {b b' : Builder} {held : List Guard} {g : Guard} {f : Frame} {fs : List Frame}

theorem refl (b : Builder) : b.StandsOn [] b.frames := ⟨[], b.frames, rfl, rfl, .refl _⟩

theorem done (h : b.StandsOn [] fs) : Settled fs b.frames := by
  obtain ⟨above, below, hb, hk, hs⟩ := h
  rw [List.map_nil, List.map_eq_nil_iff] at hk
  rwa [hb, hk, List.nil_append]

theorem settled (h : b.StandsOn held fs) (hs : Settled b.frames b'.frames) :
    b'.StandsOn held fs := by
  obtain ⟨above, below, hb, hk, hf⟩ := h
  obtain ⟨above', below', hb', hk', hf'⟩ := (hb ▸ hs).split
  exact ⟨above', below', hb', hk'.trans hk, hf.trans hf'⟩

theorem push (h : b.StandsOn held fs) (hb : b'.frames = f :: b.frames)
    (hk : f.key = (g.frame, g.kind)) : b'.StandsOn (g :: held) fs := by
  obtain ⟨above, below, ha, hks, hf⟩ := h
  exact ⟨f :: above, below, by rw [hb, ha, List.cons_append], by simp [hk, hks], hf⟩

theorem top (h : b.StandsOn (g :: held) fs) :
    ∃ f rest, b.frames = f :: rest ∧ f.key = (g.frame, g.kind) ∧
      StandsOn { b with frames := rest } held fs := by
  obtain ⟨above, below, hb, hk, hf⟩ := h
  cases above with
  | nil => cases hk
  | cons f above =>
      obtain ⟨hg, hk⟩ := List.cons.inj hk
      exact ⟨f, above ++ below, hb, hg, above, below, rfl, hk, hf⟩

end Builder.StandsOn

namespace Program

variable {p : Program} {a : Action} {g : Guard} {id : SessionId} {supply : Supply}

/-- The guard of the scope that the action opens, if it succeeds in that. -/
def opening? (p : Program) : Action → Option Guard
  | .openScope t o =>
      match (p.world.openScope t o).1 with
      | .ok (g, _) => some g
      | .error _ => none
  | _ => none

theorem opening?_eq_some (h : p.opening? a = some g) :
    a.guard? = none ∧ (p.step a).guards = g :: p.guards ∧ ∃ f,
      ((p.step a).world.builder g.session).frames =
        f :: (p.world.builder g.session).frames ∧ f.key = (g.frame, g.kind) := by
  cases a with
  | openScope t o =>
      rw [opening?] at h
      cases ht : p.world.live t with
      | none =>
          rw [World.openScope_of_idle ht] at h
          cases h
      | some id =>
          obtain ⟨r, b, s, hr⟩ : ∃ r b s,
              (p.world.builder id).openScope p.world.supply o = (r, b, s) := ⟨_, _, _, rfl⟩
          rw [World.openScope_of_live ht, hr] at h
          rw [step_openScope_of_live ht hr]
          cases r with
          | error f => cases h
          | ok x =>
              obtain ⟨scope, -, hn, hk, rfl⟩ := Builder.openScope_ok hr
              cases h
              refine ⟨rfl, rfl, ⟨_, scope, []⟩, ?_, by rw [hn, hk]; rfl⟩
              simp [Builder.push, update_self]
  | _ => cases h

theorem step_of_guard (ha : a.guard? = some g) (hg : g ∈ p.guards) :
    (p.step a).world = (p.world.close g).2 ∧ (p.step a).guards = p.guards.erase g := by
  cases a with
  | close _ | drop _ =>
      cases ha
      simp [step, World.drop, note, hg]
  | _ => cases ha

/-- Closing `g` by the action `a` takes away the innermost scope, which is its own. If what that
has made is not accepted, then nothing else happens to the stack. -/
def TakesOwn (p : Program) (a : Action) (g : Guard) : Prop :=
  g ∈ p.guards ∧ ∃ f fs, (p.world.builder g.session).frames = f :: fs ∧
    f.key = (g.frame, g.kind) ∧
    let frames := ((p.step a).world.builder g.session).frames
    frames.map Frame.key = fs.map Frame.key ∧ frames.tail = fs.tail ∧
    ((p.world.close g).1 ≠ .ok () → frames = fs) ∧
    (∀ kind top, (p.world.close g).1 ≠ .error (.outOfOrderClose kind top)) ∧
    ∀ kind, (p.world.close g).1 ≠ .error (.frameNotOpen kind)

theorem Guarded.takesOwn (h : p.Guarded) (ha : a.guard? = some g) (hg : g ∈ p.guards)
    {f : Frame} {fs : List Frame} (hf : (p.world.builder g.session).frames = f :: fs)
    (hk : f.key = (g.frame, g.kind)) : p.TakesOwn a g := by
  obtain ⟨hid, -⟩ := Prod.mk.inj hk
  have hc : (p.world.close g).1 = ((p.world.builder g.session).close f.id g.kind).1 := by
    rw [World.close, hid]
  have hb : (p.step a).world.builder g.session =
      ((p.world.builder g.session).close f.id g.kind).2 := by
    rw [(step_of_guard ha hg).1, World.close, hid]
    exact update_self _ _ _
  obtain ⟨hks, ht, he⟩ := Builder.close_top g.kind hf
  have hu : ∀ e, (p.world.close g).1 = .error e → e.isUnfit = true := by
    intro e he
    exact (h.builders g.session).close_top_error hf (hc ▸ he)
  refine ⟨hg, f, fs, hf, hk, ?_⟩
  rw [hb, hc]
  refine ⟨hks, ht, he, ?_, ?_⟩
  · intro kind top he
    cases hu _ (hc.trans he)
  · intro kind he
    cases hu _ (hc.trans he)

/-- A new thread is registered under a new identity. -/
theorem notMem_threadIds (hs : Function.Injective supply.stream) {acts : List Action}
    {t : ThreadId} {c : Call} {v : Value} {b : Builder} {s : Supply}
    (ht : (run supply acts).world.live t = some id)
    (hr : ((run supply acts).world.builder id).call (run supply acts).world.supply c =
      (.ok v, b, s)) :
    ∀ i ∈ (Event.called (run supply acts).world.supply c v).minted,
      i ∉ ((run supply acts).world.builder id).threadIds := by
  intro i hi hm
  obtain ⟨config, H, hh, hl⟩ := lived_run ((seated_run supply acts).held t id ht)
  have hn := minted_nodup hs (acts ++ [.call t c]) id
  rw [run_append, step_call_of_live ht hr, history, log_advance, about_append_self,
    List.flatMap_append, List.nodup_append] at hn
  refine hn.2.2 i ?_ i (by simpa using hi) rfl
  rw [show about id _ = _ from hh, List.flatMap_cons]
  exact List.mem_append_right _ (hl.threadIds hm)

theorem settled_update {w : SessionId → Builder} {id' : SessionId} {b : Builder}
    (h : id' = id → Settled (w id).frames b.frames) :
    Settled (w id).frames (update w id' b id).frames := by
  rw [update]
  split
  · rename_i he
    exact h he.symm
  · exact .refl _

/-- Without a scope opened or closed in a session, its stack settles. -/
theorem settled_step (hs : Function.Injective supply.stream) (acts : List Action)
    (hid : id < (run supply acts).world.entered) (hg : ∀ g ∈ a.guard?, g.session ≠ id)
    (ho : ∀ g ∈ (run supply acts).opening? a, g.session ≠ id) :
    Settled ((run supply acts).world.builder id).frames
      (((run supply acts).step a).world.builder id).frames := by
  have hl := (run supply acts).step_leads a
  generalize (run supply acts).step a = q at hl
  cases hl with
  | entered t config free => exact settled_update fun he => absurd he (Nat.ne_of_gt hid)
  | @opened t o id' n kind v b s live done =>
      have hn : id' ≠ id := ho ⟨id', n, kind⟩ (by
        simp [opening?, World.openScope_of_live live, done, Except.map])
      exact settled_update fun he => absurd he hn
  | called live done =>
      refine settled_update ?_
      rintro rfl
      exact Event.settled_of_called (Builder.Step.called done).took
        (notMem_threadIds hs live done)
  | openFailed live done =>
      refine settled_update ?_
      rintro rfl
      rw [Builder.openScope_error done, Builder.frames_failed]
      exact .refl _
  | callFailed live done =>
      refine settled_update ?_
      rintro rfl
      rw [Builder.call_error done, Builder.frames_failed]
      exact .refl _
  | closed of _ => exact settled_update fun he => absurd he (hg _ of)
  | @finished id' held =>
      refine settled_update (b := ((run supply acts).world.builder id').finish.2) ?_
      rintro rfl
      rw [Builder.frames_finish]
      exact .refl _
  | occupied _ _ _ | idle _ _ _ | spent _ _ | outside _ _ _ _ _ | left _ | lapsed _ _ =>
      exact .refl _

theorem sublist_step {held : List Guard} (hh : held.Sublist p.guards)
    (hk : ∀ g ∈ held, g.session = id) (ha : ∀ g ∈ a.guard?, g.session ≠ id) :
    held.Sublist (p.step a).guards := by
  have hl := p.step_leads a
  generalize p.step a = q at hl
  cases hl with
  | opened _ _ => exact hh.cons _
  | @closed a g of _ =>
      have hg : g ∉ held := fun hm => ha g of (hk g hm)
      have he := hh.erase g
      rwa [List.erase_of_not_mem hg] at he
  | _ => exact hh

/-- From `p` on, with the guards `held` of session `id` in hand, the actions use up these guards and
those that they get on the way, always the latest one first, until there is none left. Everything
else they do is up to them. -/
inductive LastFirst (id : SessionId) : Program → List Guard → List Action → Prop where
  | done {p : Program} : LastFirst id p [] []
  | opens {p : Program} {held : List Guard} {a : Action} {acts : List Action} {g : Guard}
      (new : p.opening? a = some g) (own : g.session = id)
      (rest : LastFirst id (p.step a) (g :: held) acts) : LastFirst id p held (a :: acts)
  | closes {p : Program} {held : List Guard} {a : Action} {acts : List Action} {g : Guard}
      (last : a.guard? = some g) (rest : LastFirst id (p.step a) held acts) :
      LastFirst id p (g :: held) (a :: acts)
  | other {p : Program} {held : List Guard} {a : Action} {acts : List Action}
      (quiet : ∀ g ∈ p.opening? a, g.session ≠ id) (spares : ∀ g ∈ a.guard?, g.session ≠ id)
      (rest : LastFirst id (p.step a) held acts) : LastFirst id p held (a :: acts)

/-- In the part `seg` of a program, which comes after `acts`, every closing of a guard of session
`id` takes away the guard's own scope, and in the end the stack is what has become of `fs`. -/
structure Unwinds (supply : Supply) (id : SessionId) (fs : List Frame) (acts seg : List Action) :
    Prop where
  own : ∀ pre a post g, seg = pre ++ a :: post → a.guard? = some g → g.session = id →
    (run supply (acts ++ pre)).TakesOwn a g
  settled : Settled fs ((run supply (acts ++ seg)).world.builder id).frames

theorem Unwinds.cons {fs : List Frame} {acts seg : List Action}
    (h : ∀ g, a.guard? = some g → g.session = id → (run supply acts).TakesOwn a g)
    (hr : Unwinds supply id fs (acts ++ [a]) seg) : Unwinds supply id fs acts (a :: seg) where
  own := by
    intro pre a' post g he ha hg
    cases pre with
    | nil =>
        cases he
        simpa using h g ha hg
    | cons x pre =>
        cases he
        simpa using hr.own pre a' post g rfl ha hg
  settled := by simpa using hr.settled

theorem entered_le_step (p : Program) (a : Action) :
    p.world.entered ≤ (p.step a).world.entered := by
  have hl := p.step_leads a
  generalize p.step a = q at hl
  cases hl with
  | entered t config free => exact Nat.le_succ _
  | _ => exact Nat.le_refl _

theorem LastFirst.unwinds (hs : Function.Injective supply.stream) {acts seg : List Action}
    {held : List Guard} {fs : List Frame} (h : LastFirst id p held seg) (hp : run supply acts = p)
    (hid : id < p.world.entered) (hh : held.Sublist p.guards) (hk : ∀ g ∈ held, g.session = id)
    (hf : (p.world.builder id).StandsOn held fs) : Unwinds supply id fs acts seg := by
  induction h generalizing acts with
  | done =>
      constructor
      · intro pre a post g he
        simp at he
      · rw [List.append_nil, hp]
        exact hf.done
  | @opens p held a seg g new own rest ih =>
      have hn : run supply (acts ++ [a]) = p.step a := hp ▸ run_append supply acts a
      have hid' := Nat.lt_of_lt_of_le hid (p.entered_le_step a)
      obtain ⟨ha, hgs, f, hb, hfk⟩ := opening?_eq_some new
      refine .cons ?_ (ih hn hid' (hgs ▸ hh.cons_cons g) (List.forall_mem_cons.2 ⟨own, hk⟩)
        (hf.push (own ▸ hb) hfk))
      intro g' hg'
      cases ha.symm.trans hg'
  | @closes p held a seg g last rest ih =>
      have hn : run supply (acts ++ [a]) = p.step a := hp ▸ run_append supply acts a
      have hid' := Nat.lt_of_lt_of_le hid (p.entered_le_step a)
      have hg : g ∈ p.guards := hh.subset List.mem_cons_self
      obtain rfl : g.session = id := hk g List.mem_cons_self
      obtain ⟨f, fs', hb, hfk, hst⟩ := hf.top
      have ht : p.TakesOwn a g := (hp ▸ guarded_run supply acts).takesOwn last hg hb hfk
      refine .cons ?_ (ih hn hid' ?_ (fun g' hg' => hk g' (List.mem_cons_of_mem _ hg')) ?_)
      · intro g' hg' _
        cases last.symm.trans hg'
        exact hp ▸ ht
      · rw [(step_of_guard last hg).2]
        simpa using hh.erase g
      · obtain ⟨-, f', fs'', hb', -, hks, htl, -⟩ := ht
        cases hb.symm.trans hb'
        exact hst.settled (.of_tail hks htl)
  | @other p held a seg quiet spares rest ih =>
      have hn : run supply (acts ++ [a]) = p.step a := hp ▸ run_append supply acts a
      have hid' := Nat.lt_of_lt_of_le hid (p.entered_le_step a)
      subst hp
      refine .cons ?_ (ih hn hid' (sublist_step hh hk spares) hk ?_)
      · intro g hg hi
        exact absurd hi (spares g hg)
      · exact hf.settled (settled_step hs acts hid spares quiet)

/-- A part of a program that closes what it opens, last first, leaves the stack of its session as
it found it, whatever fails on the way. Each closing takes away its own scope, even where that makes
nothing; in the end the same scopes are open, and those below the innermost one have not been
touched but for threads registered with the function. -/
theorem segment_unwinds {supply : Supply} (hs : Function.Injective supply.stream)
    {acts seg : List Action} {id : SessionId} (hid : id < (run supply acts).world.entered)
    (h : LastFirst id (run supply acts) [] seg) :
    let before := ((run supply acts).world.builder id).frames
    let after := ((run supply (acts ++ seg)).world.builder id).frames
    (∀ pre a post g, seg = pre ++ a :: post → a.guard? = some g → g.session = id →
      (run supply (acts ++ pre)).TakesOwn a g) ∧
    after.map Frame.key = before.map Frame.key ∧
    List.Forall₂ Frame.Grows before.tail after.tail := by
  intro before after
  have hu : Unwinds supply id before acts seg :=
    h.unwinds hs rfl hid (List.nil_sublist _) (by simp) (.refl _)
  exact ⟨hu.own, hu.settled.keys, hu.settled.below⟩

/-- In a block, a conditional is opened that comes to nothing: an else branch is not accepted, and
neither is the conditional. By then a thread has been registered with the function. -/
theorem segment_unwinds_conditional :
    let acts : List Action := [.enter 0 {}, .openScope 0 .primFunc, .openScope 0 (.block "b" false)]
    let fails : List Action := [.openScope 0 (.branch (.bool true)), .call 0 (.envThread "x"),
      .openScope 0 .elseCase]
    let close : Action := .close ⟨0, 2, .branch⟩
    let before := ((run .counting acts).world.builder 0).frames
    let after := ((run .counting (acts ++ (fails ++ [close]))).world.builder 0).frames
    (run .counting (acts ++ fails)).TakesOwn close ⟨0, 2, .branch⟩ ∧
      after.map Frame.key = [(1, .block), (0, .primFunc)] ∧
      List.Forall₂ Frame.Grows before.tail after.tail ∧
      before.flatMap (·.scope.threadIds) = [] ∧ after.flatMap (·.scope.threadIds) = [0] := by
  intro acts fails close before after
  have h : LastFirst 0 (run .counting acts) [] (fails ++ [close]) := by
    refine .opens (g := ⟨0, 2, .branch⟩) rfl rfl ?_
    refine .other (by decide) (by decide) ?_
    refine .other (by decide) (by decide) ?_
    exact .closes rfl .done
  have hs : Function.Injective Supply.counting.stream := fun _ _ h => h
  obtain ⟨ho, hk, hg⟩ := segment_unwinds hs (by decide) h
  exact ⟨ho fails close [] _ rfl rfl rfl, hk, hg, rfl, rfl⟩

end Program

end TensorProgram
