import TensorProgram.Proofs.Contents
import TensorProgram.Proofs.Lexical
import TensorProgram.Proofs.Unwinding

/-!
Extension. An operation that goes through changes one place of the builder: a call changes the
innermost scope or, to register a thread, the function, and closing a scope changes the one around
it. Where no scope is open the place is the result. Nothing that is there already is lost: lists
and maps get longer at the end, and what can be set once is set for good. Only a buffer behind a
parameter can be replaced, when a handle made for an argument turns out to be that parameter.
-/

namespace TensorProgram

/-- What has been set is set for good. -/
def SetOnce {α : Type} (old new : Option α) : Prop := ∀ x, old = some x → new = some x

theorem SetOnce.refl {α : Type} (o : Option α) : SetOnce o o := fun _ h => h

theorem SetOnce.of_none {α : Type} {o : Option α} (h : o = none) (new : Option α) :
    SetOnce o new := by
  intro x hx
  rw [h] at hx
  cases hx

theorem SetOnce.trans {α : Type} {a b c : Option α} (h : SetOnce a b) (h' : SetOnce b c) :
    SetOnce a c :=
  fun x hx => h' x (h x hx)

/-- Every entry keeps its key and its place, and its buffer too unless the key is one of `ids`. -/
def Keeps (ids : List VarId) (old new : List (Var × Buffer)) : Prop :=
  ∀ (n : Nat) v x, old[n]? = some (v, x) → ∃ y, new[n]? = some (v, y) ∧ (v.id ∉ ids → y = x)

namespace Keeps

variable {ids ids' : List VarId} {l m n : List (Var × Buffer)}

theorem of_initial (h : l <+: m) : Keeps ids l m := by
  intro i v x hi
  obtain ⟨hlt, hi⟩ := List.getElem?_eq_some_iff.1 hi
  obtain ⟨r, rfl⟩ := h
  exact ⟨x, by rw [List.getElem?_append_left hlt, List.getElem?_eq_getElem hlt, hi], fun _ => rfl⟩

theorem refl (l : List (Var × Buffer)) : Keeps ids l l := of_initial (List.prefix_refl l)

theorem trans (h : Keeps ids l m) (h' : Keeps ids m n) : Keeps ids l n := by
  intro i v x hi
  obtain ⟨y, hy, hyx⟩ := h i v x hi
  obtain ⟨z, hz, hzy⟩ := h' i v y hy
  exact ⟨z, hz, fun hv => (hzy hv).trans (hyx hv)⟩

theorem mono (h : Keeps ids l m) (hi : ids ⊆ ids') : Keeps ids' l m := by
  intro i v x hx
  obtain ⟨y, hy, hyx⟩ := h i v x hx
  exact ⟨y, hy, fun hv => hyx fun hm => hv (hi hm)⟩

/-- To put a buffer behind `v` changes the entry of `v` alone, or adds one. -/
theorem put (v : Var) (x : Buffer) (l : List (Var × Buffer)) :
    Keeps [v.id] l (OrderedMap.put v x l) := by
  induction l with
  | nil => exact fun i w y hi => by simp at hi
  | cons e l ih =>
      intro i w y hi
      rw [OrderedMap.put]
      split
      · rename_i hv
        cases i with
        | zero =>
            obtain rfl : e = (w, y) := Option.some.inj hi
            exact ⟨x, rfl, fun hn => absurd (List.mem_singleton.2 hv) hn⟩
        | succ i => exact ⟨y, hi, fun _ => rfl⟩
      · cases i with
        | zero => exact ⟨y, hi, fun _ => rfl⟩
        | succ i => exact ih i w y hi

end Keeps

/-- `g'` is `g` with more in it, apart from buffers behind the parameters `ids`. -/
structure FuncScope.Extends (ids : List VarId) (g g' : FuncScope) : Prop where
  name : SetOnce g.name g'.name
  params : g.params <+: g'.params
  retType : SetOnce g.retType g'.retType
  bufferMap : Keeps ids g.bufferMap.entries g'.bufferMap.entries
  preflattened : g.preflattened.entries <+: g'.preflattened.entries
  attrs : SetOnce g.attrs g'.attrs
  threads : g.threads.entries <+: g'.threads.entries
  allocs : g.allocs <+: g'.allocs

variable {ids ids' : List VarId}

theorem FuncScope.Extends.refl (ids : List VarId) (g : FuncScope) : g.Extends ids g where
  name := .refl _
  params := List.prefix_refl _
  retType := .refl _
  bufferMap := .refl _
  preflattened := List.prefix_refl _
  attrs := .refl _
  threads := List.prefix_refl _
  allocs := List.prefix_refl _

theorem FuncScope.Extends.trans {a b c : FuncScope} (h : a.Extends ids b) (h' : b.Extends ids c) :
    a.Extends ids c where
  name := h.name.trans h'.name
  params := h.params.trans h'.params
  retType := h.retType.trans h'.retType
  bufferMap := h.bufferMap.trans h'.bufferMap
  preflattened := h.preflattened.trans h'.preflattened
  attrs := h.attrs.trans h'.attrs
  threads := h.threads.trans h'.threads
  allocs := h.allocs.trans h'.allocs

theorem FuncScope.Extends.mono {a b : FuncScope} (h : a.Extends ids b) (hi : ids ⊆ ids') :
    a.Extends ids' b :=
  { h with bufferMap := h.bufferMap.mono hi }

/-- `y` is `x` with more in it. -/
structure BlockScope.Extends (x y : BlockScope) : Prop where
  name : y.name = x.name
  bare : y.bare = x.bare
  axes : x.axes <+: y.axes
  reads : SetOnce x.reads y.reads
  writes : SetOnce x.writes y.writes
  predicate : SetOnce x.predicate y.predicate
  annotations : SetOnce x.annotations y.annotations
  allocs : x.allocs <+: y.allocs
  matched : x.matched <+: y.matched
  init : SetOnce x.init y.init

theorem BlockScope.Extends.refl (x : BlockScope) : x.Extends x where
  name := rfl
  bare := rfl
  axes := List.prefix_refl _
  reads := .refl _
  writes := .refl _
  predicate := .refl _
  annotations := .refl _
  allocs := List.prefix_refl _
  matched := List.prefix_refl _
  init := .refl _

theorem BlockScope.Extends.trans {a b c : BlockScope} (h : a.Extends b) (h' : b.Extends c) :
    a.Extends c where
  name := h'.name.trans h.name
  bare := h'.bare.trans h.bare
  axes := h.axes.trans h'.axes
  reads := h.reads.trans h'.reads
  writes := h.writes.trans h'.writes
  predicate := h.predicate.trans h'.predicate
  annotations := h.annotations.trans h'.annotations
  allocs := h.allocs.trans h'.allocs
  matched := h.matched.trans h'.matched
  init := h.init.trans h'.init

/-- `j` is `i` with more in it. -/
structure BranchScope.Extends (i j : BranchScope) : Prop where
  condition : j.condition = i.condition
  thenCase : SetOnce i.thenCase j.thenCase
  elseCase : SetOnce i.elseCase j.elseCase

/-- The second scope is the first with more in it. A scope of the other kinds is what it was
opened as. -/
inductive Scope.Extends (ids : List VarId) : Scope → Scope → Prop where
  | func {g g' : FuncScope} (more : g.Extends ids g') : Extends ids (.func g) (.func g')
  | block {x y : BlockScope} (more : x.Extends y) : Extends ids (.block x) (.block y)
  | branch {i j : BranchScope} (more : i.Extends j) : Extends ids (.branch i) (.branch j)
  | blockInit : Extends ids .blockInit .blockInit
  | thenCase : Extends ids .thenCase .thenCase
  | elseCase : Extends ids .elseCase .elseCase
  | wrap (w : Wrapper) : Extends ids (.wrap w) (.wrap w)

namespace Scope.Extends

theorem refl : (x : Scope) → x.Extends ids x
  | .func g => .func (.refl ids g)
  | .block x => .block (.refl x)
  | .branch _ => .branch ⟨rfl, .refl _, .refl _⟩
  | .blockInit => .blockInit
  | .thenCase => .thenCase
  | .elseCase => .elseCase
  | .wrap w => .wrap w

theorem trans {x y z : Scope} (h : x.Extends ids y) (h' : y.Extends ids z) :
    x.Extends ids z := by
  cases h with
  | func more =>
      cases h' with
      | func more' => exact .func (more.trans more')
  | block more =>
      cases h' with
      | block more' => exact .block (more.trans more')
  | branch more =>
      cases h' with
      | branch more' =>
          exact .branch ⟨more'.condition.trans more.condition, more.thenCase.trans more'.thenCase,
            more.elseCase.trans more'.elseCase⟩
  | blockInit | thenCase | elseCase | wrap _ => exact h'

theorem mono {x y : Scope} (h : x.Extends ids y) (hi : ids ⊆ ids') : x.Extends ids' y := by
  cases h with
  | func more => exact .func (more.mono hi)
  | block more => exact .block more
  | branch more => exact .branch more
  | blockInit => exact .blockInit
  | thenCase => exact .thenCase
  | elseCase => exact .elseCase
  | wrap w => exact .wrap w

end Scope.Extends

/-- The same open scope, later. -/
structure Frame.Extends (ids : List VarId) (f f' : Frame) : Prop where
  id : f'.id = f.id
  scope : f.scope.Extends ids f'.scope
  stmts : f.stmts <+: f'.stmts

namespace Frame.Extends

theorem refl (f : Frame) : f.Extends ids f := ⟨rfl, .refl _, List.prefix_refl _⟩

theorem trans {f g h : Frame} (hf : f.Extends ids g) (hg : g.Extends ids h) : f.Extends ids h :=
  ⟨hg.id.trans hf.id, hf.scope.trans hg.scope, hf.stmts.trans hg.stmts⟩

theorem mono {f g : Frame} (h : f.Extends ids g) (hi : ids ⊆ ids') : f.Extends ids' g :=
  ⟨h.id, h.scope.mono hi, h.stmts⟩

theorem of_scope {f : Frame} {y : Scope} (h : f.scope.Extends ids y) :
    f.Extends ids { f with scope := y } :=
  ⟨rfl, h, List.prefix_refl _⟩

end Frame.Extends

/-- A result, later: it comes into being, or gets more statements. -/
inductive Output.Extends : Option Output → Option Output → Prop where
  | start (r : Option Output) : Extends none r
  | same (r : Option Output) : Extends r r
  | stmt {s t : Stmt} (more : s.members <+: t.members) : Extends (some (.stmt s)) (some (.stmt t))

theorem Output.Extends.trans {a b c : Option Output} (h : Extends a b) (h' : Extends b c) :
    Extends a c := by
  cases h with
  | start r => exact .start c
  | same r => exact h'
  | stmt more =>
      cases h' with
      | same r => exact .stmt more
      | stmt more' => exact .stmt (more.trans more')

/-- To put a statement after a result leaves the members of the result where they are. -/
theorem Stmt.prefix_members_sequence (r : Stmt) {s : Stmt}
    (hs : s.members = [s]) : r.members <+: (Stmt.sequence [r, s]).members := by
  have hm : [r, s].flatMap Stmt.members = r.members ++ [s] := by simp [hs]
  rw [Stmt.sequence, hm]
  rcases r.members with _ | ⟨x, _ | ⟨y, xs⟩⟩
  · exact List.nil_prefix
  · exact List.prefix_append [x] [s]
  · exact List.prefix_append (x :: y :: xs) [s]

namespace Builder

/-- The innermost scope or, where none is open, the result gets more in it, and nothing else
changes. Only what is behind the parameters `ids` may be replaced. -/
inductive ExtendsTop (ids : List VarId) (b : Builder) : Builder → Prop where
  | frame {f f' : Frame} {fs : List Frame} (top : b.frames = f :: fs) (more : f.Extends ids f') :
      ExtendsTop ids b { b with frames := f' :: fs }
  | result {r : Option Output} (idle : b.frames = []) (more : Output.Extends b.result r) :
      ExtendsTop ids b { b with result := r }

/-- The function gets the thread `v`, as the last of its threads, and nothing else changes. -/
inductive RegistersThread (b : Builder) (v : Var) (tag : String) : Builder → Prop where
  | last {above : List Frame} {f : Frame} {g : FuncScope} {ts : OrderedMap Var IterVar}
      (bottom : b.frames = above ++ [f]) (inside : ∀ x ∈ above, x.scope.func? = none)
      (function : f.scope = .func g)
      (more : ts.entries = g.threads.entries ++ [(v, ⟨none, v, .threadIndex, tag⟩)]) :
      RegistersThread b v tag
        { b with frames := above ++ [{ f with scope := .func { g with threads := ts } }] }

variable {b b' b'' : Builder}

theorem ExtendsTop.refl (b : Builder) : ExtendsTop ids b b := by
  cases hf : b.frames with
  | nil => exact .result (r := b.result) hf (.same _)
  | cons f fs =>
      have h : ExtendsTop ids b { b with frames := f :: fs } := .frame hf (.refl f)
      rwa [← hf] at h

theorem ExtendsTop.trans (h : ExtendsTop ids b b') (h' : ExtendsTop ids b' b'') :
    ExtendsTop ids b b'' := by
  cases h with
  | frame top more =>
      cases h' with
      | frame top' more' =>
          cases top'
          exact .frame top (more.trans more')
      | result idle more' => cases idle
  | result idle more =>
      cases h' with
      | frame top' more' => cases idle.symm.trans top'
      | result idle' more' => exact .result idle (more.trans more')

theorem ExtendsTop.setTop {x y : Scope} (ht : b.Top x) (h : x.Extends ids y) :
    ExtendsTop ids b (b.setTop y) := by
  obtain ⟨f, fs, hf, rfl⟩ := ht
  have hs : b.setTop y = { b with frames := { f with scope := y } :: fs } := by
    simp only [Builder.setTop, hf]
  rw [hs]
  exact .frame hf (.of_scope h)

theorem ExtendsTop.appended {s : Stmt} (hs : s.members = [s]) (h : b.appended s = .ok b') :
    ExtendsTop ids b b' := by
  rw [Builder.appended] at h
  cases hf : b.frames with
  | cons f fs =>
      simp only [hf, Except.ok.injEq] at h
      rw [← h]
      exact .frame hf ⟨rfl, .refl _, List.prefix_append _ _⟩
  | nil =>
      cases hr : b.result with
      | none =>
          simp only [hf, hr, Except.ok.injEq] at h
          rw [← h, ← hf]
          exact .result hf (hr ▸ .start _)
      | some r =>
          cases r with
          | func g => simp [hf, hr] at h
          | stmt r =>
              simp only [hf, hr, Except.ok.injEq] at h
              rw [← h, ← hf]
              exact .result hf (hr ▸ .stmt (r.prefix_members_sequence hs))

theorem ExtendsTop.appendedAll {ss : List Stmt} (hs : Stmt.Flat ss)
    (h : b.appendedAll ss = .ok b') : ExtendsTop ids b b' := by
  induction ss generalizing b with
  | nil =>
      cases h
      exact .refl _
  | cons s ss ih =>
      cases ha : b.appended s with
      | error e => simp [Builder.appendedAll, ha, Except.bind] at h
      | ok b₁ =>
          rw [Builder.appendedAll, ha] at h
          have hone : ExtendsTop ids b b₁ := .appended (hs s List.mem_cons_self) ha
          exact hone.trans (ih (fun t ht => hs t (List.mem_cons_of_mem s ht)) h)

end Builder

/-! Calls. -/

/-- A field that is set by a call was not set, and a key that is put into a map was not in it,
unless it is a new handle. -/
theorem Call.Does.extends {b : Builder} {s : Supply} {c : Call} {v : Value} {y : Scope}
    (h : c.Does b s v (.setTop y)) :
    ∃ x, b.Top x ∧ x.Extends (Event.called s c v).handle?.toList y := by
  have put {β : Type} {m : OrderedMap Var β} {v : Var} (x : β) (hv : m.contains v = false) :
      m.entries <+: (m.insert v x).entries := by
    rw [OrderedMap.entries_insert, OrderedMap.put_of_notMem _ _ (OrderedMap.notMem_of_contains hv)]
    exact List.prefix_append _ _
  cases h with
  | guard _ top unset =>
      exact ⟨_, top, .block { BlockScope.Extends.refl _ with predicate := .of_none unset _ }⟩
  | reads _ top unset =>
      exact ⟨_, top, .block { BlockScope.Extends.refl _ with reads := .of_none unset _ }⟩
  | writes _ top unset =>
      exact ⟨_, top, .block { BlockScope.Extends.refl _ with writes := .of_none unset _ }⟩
  | blockAttrs _ top unset =>
      exact ⟨_, top, .block { BlockScope.Extends.refl _ with annotations := .of_none unset _ }⟩
  | allocInBlock _ _ _ _ top =>
      exact ⟨_, top, .block { BlockScope.Extends.refl _ with allocs := List.prefix_append _ _ }⟩
  | allocInFunc _ _ _ _ top =>
      exact ⟨_, top, .func { FuncScope.Extends.refl [] _ with allocs := List.prefix_append _ _ }⟩
  | matchParam _ _ _ _ _ top unused =>
      exact ⟨_, top, .func { FuncScope.Extends.refl [] _ with bufferMap := .of_initial (put _ unused) }⟩
  | matchRegion _ _ _ _ _ top =>
      exact ⟨_, top, .block { BlockScope.Extends.refl _ with matched := List.prefix_append _ _ }⟩
  | preflattened _ _ _ _ _ top _ unused =>
      exact ⟨_, top, .func { FuncScope.Extends.refl [] _ with preflattened := put _ unused }⟩
  | argVar _ _ top =>
      exact ⟨_, top, .func { FuncScope.Extends.refl [] _ with params := List.prefix_append _ _ }⟩
  | argBuffer _ _ top =>
      exact ⟨_, top, .func { FuncScope.Extends.refl [s.take.1] _ with
        params := List.prefix_append _ _, bufferMap := .put _ _ _ }⟩
  | funcName _ top unset =>
      exact ⟨_, top, .func { FuncScope.Extends.refl [] _ with name := .of_none unset _ }⟩
  | funcAttrs _ top unset =>
      exact ⟨_, top, .func { FuncScope.Extends.refl [] _ with attrs := .of_none unset _ }⟩
  | funcRet _ top unset =>
      exact ⟨_, top, .func { FuncScope.Extends.refl [] _ with retType := .of_none unset _ }⟩
  | axis _ _ _ _ _ top | remap _ _ _ top _ =>
      exact ⟨_, top, .block { BlockScope.Extends.refl _ with axes := List.prefix_append _ _ }⟩

/-- The function changes, and what lies over it does not. -/
theorem Builder.updateFunc_append (k : FuncScope → FuncScope) {above below : List Frame}
    {f : Frame} {g : FuncScope} (ha : ∀ x ∈ above, x.scope.func? = none)
    (hf : f.scope = .func g) : updateFunc k (above ++ f :: below) =
      above ++ { f with scope := .func (k g) } :: below := by
  rw [updateFunc_of_none k ha]
  simp [updateFunc, hf]

theorem Builder.registersThread {b : Builder} {v : Var} (tag : String)
    (hs : Scope.Stacked (b.frames.map Frame.scope)) (hf : b.nearestFunc?.isSome)
    (hv : v.id ∉ b.threadIds) : b.RegistersThread v tag (b.registerThread v tag) := by
  obtain ⟨g, hg⟩ := Option.isSome_iff_exists.1 hf
  obtain ⟨above, f, below, hb, hfg, ha⟩ := List.findSome?_eq_some_iff.1 hg
  have hfg : f.scope = .func g := by
    cases hfs : f.scope <;> simp_all [Scope.func?]
  obtain rfl : below = [] := by
    rw [hb, List.map_append, List.map_cons, hfg] at hs
    simpa [Scope.SitsOn] using Scope.Stacked.sitsOn hs
  have hn : Keyed.key v ∉ g.threads.entries.map fun e => Keyed.key e.1 := by
    intro hm
    refine hv (List.mem_flatMap.2 ⟨f, by simp [hb], ?_⟩)
    simpa [hfg, Scope.threadIds, OrderedMap.keys, Keyed.key] using hm
  have hr : b.registerThread v tag = { b with frames := above ++ [{ f with
      scope := .func { g with threads := g.threads.insert v (.thread none v tag) } }] } := by
    simp only [Builder.registerThread, hb, Builder.updateFunc_append _ ha hfg]
  rw [hr]
  refine .last hb ha hfg ?_
  rw [OrderedMap.entries_insert, OrderedMap.put_of_notMem _ _ hn]
  rfl

theorem Call.nearestFunc_of_envThread {b : Builder} {tag : String} {eff : Effect} {v : Value}
    {s s' : Supply} (h : (Call.envThread tag).effect b s = .ok ((eff, v), s')) :
    b.nearestFunc?.isSome := by
  simp only [Call.effect] at h
  split at h
  · cases h
  · rename_i hf
    exact Option.isSome_iff_ne_none.2 (by simpa using hf)

/-- A call that goes through registers a thread or else changes the innermost scope. A call that
makes a handle may replace the buffer behind a parameter of that identity. -/
inductive Builder.CallFootprint (b : Builder) (s : Supply) : Call → Builder → Prop where
  | thread {tag : String} {v : Var} {b' : Builder} (only : b.RegistersThread v tag b') :
      CallFootprint b s (.envThread tag) b'
  | argument {name : String} {x : Buffer} {b' : Builder} (only : ExtendsTop [s.take.1] b b') :
      CallFootprint b s (.argBuffer name x) b'
  | other {c : Call} {b' : Builder} (leaf : ∀ tag, c ≠ .envThread tag)
      (given : ∀ name x, c ≠ .argBuffer name x) (only : ExtendsTop [] b b') :
      CallFootprint b s c b'

theorem Event.Took.callFootprint {b b' : Builder} {s : Supply} {c : Call} {v : Value}
    (h : (Event.called s c v).Took b b') (hs : Scope.Stacked (b.frames.map Frame.scope))
    (threads : ∀ i ∈ (Event.called s c v).minted, i ∉ b.threadIds) : b.CallFootprint s c b' := by
  obtain ⟨eff, s', he, hp⟩ := h
  have hd := Call.effect_does he
  cases eff with
  | registerThread w tag =>
      cases hd
      cases hp
      refine .thread (Builder.registersThread _ hs (Call.nearestFunc_of_envThread he) ?_)
      exact threads w.id List.mem_cons_self
  | setTop y =>
      obtain ⟨x, ht, hx⟩ := hd.extends
      cases hp
      cases c with
      | argBuffer name y => exact .argument (.setTop ht hx)
      | envThread tag => cases hd
      | _ => exact .other nofun nofun (.setTop ht hx)
  | append stmt =>
      have hstmt : stmt.members = [stmt] := by cases hd <;> rfl
      refine .other ?_ ?_ (.appended hstmt hp)
      · rintro tag rfl
        cases hd
      · rintro name x rfl
        cases hd

/-! Closings. -/

/-- The statements in open scopes are no sequences. -/
def Builder.Flat (b : Builder) : Prop := ∀ f ∈ b.frames, Stmt.Flat f.stmts

theorem Wrapper.flat_close (w : Wrapper) {ss : List Stmt} (h : Stmt.Flat ss) :
    Stmt.Flat (w.close ss) := by
  rw [Wrapper.close]
  split
  · exact h
  · rename_i hw
    intro s hs
    obtain rfl := List.mem_singleton.1 hs
    cases hh : w.heads with
    | nil => simp [hh] at hw
    | cons head heads => rfl

namespace Builder.Flat

variable {b b' : Builder}

theorem of_stmts (h : b.Flat) (hs : b'.frames.map Frame.stmts = b.frames.map Frame.stmts) :
    b'.Flat := by
  intro f hf
  have hm : f.stmts ∈ b.frames.map Frame.stmts := hs ▸ List.mem_map_of_mem hf
  obtain ⟨g, hg, he⟩ := List.mem_map.1 hm
  exact he ▸ h g hg

theorem setTop (h : b.Flat) (x : Scope) : (b.setTop x).Flat := by
  cases hf : b.frames with
  | nil => exact h.of_stmts (by simp [Builder.setTop, hf])
  | cons f fs => exact h.of_stmts (by simp [frames_setTop hf, hf])

theorem registerThread (h : b.Flat) (v : Var) (tag : String) : (b.registerThread v tag).Flat := by
  refine h.of_stmts ?_
  rw [Builder.registerThread]
  dsimp only
  generalize b.frames = fs
  induction fs with
  | nil => rfl
  | cons f fs ih => cases hf : f.scope <;> simp [updateFunc, hf, ih]

theorem appended (h : b.Flat) {s : Stmt} (hs : s.members = [s]) (ha : b.appended s = .ok b') :
    b'.Flat := by
  obtain ⟨f, fs, hf, rfl⟩ | ⟨hf, r, rfl⟩ := appended_eq_ok ha
  · intro g hg
    obtain rfl | hg := List.mem_cons.1 hg
    · refine (h f (hf ▸ List.mem_cons_self)).append ?_
      intro t ht
      obtain rfl := List.mem_singleton.1 ht
      exact hs
    · exact h g (hf ▸ List.mem_cons_of_mem f hg)
  · exact h

theorem appendedAll (h : b.Flat) {ss : List Stmt} (hs : Stmt.Flat ss)
    (ha : b.appendedAll ss = .ok b') : b'.Flat := by
  induction ss generalizing b with
  | nil =>
      cases ha
      exact h
  | cons s ss ih =>
      cases hb : b.appended s with
      | error e => simp [Builder.appendedAll, hb, Except.bind] at ha
      | ok b₁ =>
          rw [Builder.appendedAll, hb] at ha
          have h₁ := h.appended (hs s List.mem_cons_self) hb
          exact ih h₁ (fun t ht => hs t (List.mem_cons_of_mem s ht)) ha

/-- A closed scope hands on its statements as they are only if it has no heads for them. -/
theorem product {c : Config} {f : Frame} {ss : List Stmt} (h : Stmt.Flat f.stmts)
    (hc : f.close c = .ok (.stmts ss)) : Stmt.Flat ss := by
  have hp := Frame.close_closes hc
  generalize f.scope = x at hp
  cases hp with
  | wrap w => exact w.flat_close h
  | block _ | branch _ _ =>
      intro t ht
      obtain rfl := List.mem_singleton.1 ht
      rfl

theorem took {e : Event} (h : b.Flat) (ht : e.Took b b') : b'.Flat := by
  have pop {f : Frame} {fs : List Frame} (hf : b.frames = f :: fs) :
      Flat { b with frames := fs } := fun g hg => h g (hf ▸ List.mem_cons_of_mem f hg)
  cases e with
  | entered config => cases ht
  | opened id o v =>
      obtain ⟨x, s, s', -, -, rfl⟩ := ht
      intro f hf
      obtain rfl | hf := List.mem_cons.1 hf
      · exact .nil
      · exact h f hf
  | called s c v =>
      obtain ⟨eff, s', he, hp⟩ := ht
      cases eff with
      | setTop x =>
          cases hp
          exact h.setTop x
      | registerThread w tag =>
          cases hp
          exact h.registerThread w tag
      | append stmt =>
          have hd := Call.effect_does he
          exact h.appended (by cases hd <;> rfl) hp
  | closed id =>
      obtain ⟨f, fs, p, hf, -, hc, hd⟩ := ht
      cases p with
      | stmts ss => exact (pop hf).appendedAll (product (h f (hf ▸ List.mem_cons_self)) hc) hd
      | func g =>
          obtain ⟨-, -, rfl⟩ := delivered_func hd
          exact pop hf
      | blockInit s =>
          obtain ⟨x, -, rfl⟩ := delivered_blockInit hd
          exact (pop hf).setTop _
      | thenCase s =>
          obtain ⟨i, -, rfl⟩ := delivered_thenCase hd
          exact (pop hf).setTop _
      | elseCase s =>
          obtain ⟨i, -, rfl⟩ := delivered_elseCase hd
          exact (pop hf).setTop _
  | discarded id e =>
      obtain ⟨f, fs, hf, -, -, rfl⟩ := ht
      exact pop hf
  | failed f =>
      obtain rfl := ht
      exact h.of_stmts (by rw [frames_failed])

end Builder.Flat

/-- What a scope delivers when it is closed goes to the scope around it. -/
theorem Builder.ExtendsTop.delivered {b b' : Builder} {f : Frame} {fs : List Frame} {p : Product}
    (hs : Scope.Stacked (b.frames.map Frame.scope)) (hfl : b.Flat) (hf : b.frames = f :: fs)
    (hc : f.close b.config = .ok p) (hd : { b with frames := fs }.delivered p = .ok b') :
    ExtendsTop [] { b with frames := fs } b' := by
  have hss : Stmt.Flat f.stmts := hfl f (hf ▸ List.mem_cons_self)
  rw [hf] at hs
  obtain ⟨hsit, -, -⟩ := hs
  have hp := Frame.close_closes hc
  generalize hx : f.scope = x at hsit hp
  cases hp with
  | func _ =>
      obtain ⟨hn, hr, rfl⟩ := Builder.delivered_func hd
      exact .result hn (hr ▸ .start _)
  | block _ | branch _ _ | wrap _ => exact .appendedAll (Builder.Flat.product hss hc) hd
  | blockInit =>
      obtain ⟨y, ht, rfl⟩ := Builder.delivered_blockInit hd
      obtain ⟨g, gs, z, rfl, hg, hz⟩ := Scope.sitsOn_blockInit hsit
      cases ht.unique ⟨g, gs, rfl, hg⟩
      exact .setTop ht (.block { BlockScope.Extends.refl _ with init := .of_none hz _ })
  | thenCase =>
      obtain ⟨i, ht, rfl⟩ := Builder.delivered_thenCase hd
      obtain ⟨g, gs, j, rfl, hg, hj, -⟩ := Scope.sitsOn_thenCase hsit
      cases ht.unique ⟨g, gs, rfl, hg⟩
      exact .setTop ht (.branch ⟨rfl, .of_none hj _, .refl _⟩)
  | elseCase =>
      obtain ⟨i, ht, rfl⟩ := Builder.delivered_elseCase hd
      obtain ⟨g, gs, j, rfl, hg, -, hj⟩ := Scope.sitsOn_elseCase hsit
      cases ht.unique ⟨g, gs, rfl, hg⟩
      exact .setTop ht (.branch ⟨rfl, .refl _, .of_none hj _⟩)

end TensorProgram
