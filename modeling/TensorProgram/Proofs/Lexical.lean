import TensorProgram.Proofs.Binders
import TensorProgram.Proofs.Handles

/-!
Lexical scope. While a program is built, an axis finds its loop and a region its buffer in the
stack of open scopes. In the finished tree the stack is gone, and what was found there lies among
the statements around: what the open scopes declare is what the statements made of them will
declare, and a scope that closes leaves its parts inside what they refer to.
-/

namespace TensorProgram

/-- What the parts of a statement can refer to: a loop, or the memory of a buffer. -/
inductive Decl where
  | loop (l : Loop)
  | memory (id : VarId)

def Buffer.decl (x : Buffer) : Decl := .memory x.data.id

def Head.decls : Head → List Decl
  | .loop l => [.loop l]
  | .allocate v _ _ _ _ | .allocateConst v _ _ _ _ => [.memory v.id]
  | _ => []

def Block.decls (x : Block) : List Decl :=
  (x.allocs ++ x.matched.map MatchRegion.buffer).map Buffer.decl

def Stmt.decls : Stmt → List Decl
  | .under h _ => h.decls
  | .block _ x _ _ => x.decls
  | _ => []

/-- A function declares the buffers of its maps. -/
def Output.decls : Output → List Decl
  | .func f => (f.bufferMap.values ++ f.preflattened.values).map Buffer.decl
  | .stmt _ => []

/-- What an open scope declares is what it will be made into. -/
def Scope.decls : Scope → List Decl
  | .func g => (g.bufferMap.values ++ g.preflattened.values ++ g.allocs).map Buffer.decl
  | .block x => x.head.decls
  | .wrap w => w.heads.flatMap Head.decls
  | .blockInit | .branch _ | .thenCase | .elseCase => []

/-- The expression `e'` is `e` brought to the type `d`: a literal is retyped, and anything else is
cast unless it has that type already. -/
inductive Expr.Brought (d : DataType) : Expr → Expr → Prop where
  | literal (value : Int64) (old : DataType) : Brought d (.int value old) (.int value d)
  | same {e : Expr} (symbolic : ∀ value old, e ≠ .int value old) (fits : e.dtype = d) :
      Brought d e e
  | cast {e : Expr} (symbolic : ∀ value old, e ≠ .int value old) (differs : e.dtype ≠ d) :
      Brought d e (.cast d e)

namespace Expr

theorem brought_castTo (d : DataType) {e : Expr} (h : ∀ value old, e ≠ .int value old) :
    e.Brought d (e.castTo d) := by
  rw [castTo]
  split
  · exact .same h ‹_›
  · exact .cast h ‹_›

theorem brought_asIndex (d : DataType) (e : Expr) : e.Brought d (e.asIndex d) := by
  cases e with
  | int value old => exact .literal value old
  | _ => exact brought_castTo d nofun

theorem Brought.eq {d : DataType} {e e' : Expr} (h : e.Brought d e') : e' = e.asIndex d := by
  cases h with
  | literal value old => rfl
  | same symbolic fits =>
      cases e with
      | int value old => exact absurd rfl (symbolic value old)
      | _ => exact (if_pos fits).symm
  | cast symbolic differs =>
      cases e with
      | int value old => exact absurd rfl (symbolic value old)
      | _ => exact (if_neg differs).symm

end Expr

/-- The axis with the value `e` goes over the loop `l`: the value is the variable of the loop, cast
if it is of another type than the axis, and the domain is that of the loop, with both bounds
brought to the type of the axis. -/
def IterVar.Over (a : IterVar) (e : Expr) (l : Loop) : Prop :=
  (∃ v, v.id = l.var.id ∧ (v.dtype = a.var.dtype ∧ e = .var v ∨
    v.dtype ≠ a.var.dtype ∧ e = .cast a.var.dtype (.var v))) ∧
  ∃ min extent, a.dom = some ⟨min, extent⟩ ∧
    min.dtype = a.var.dtype ∧ l.min.Brought a.var.dtype min ∧
    extent.dtype = a.var.dtype ∧ l.extent.Brought a.var.dtype extent

/-- What `Γ` has is in `Δ`, but for memory that is lost. -/
def Decl.Within (L : VarId → Prop) (Γ Δ : List Decl) : Prop :=
  ∀ d ∈ Γ, d ∈ Δ ∨ ∃ id, d = .memory id ∧ L id

namespace Decl.Within

variable {L : VarId → Prop} {Γ Δ Θ : List Decl}

theorem of_subset (h : Γ ⊆ Δ) : Within L Γ Δ := fun _ hd => .inl (h hd)

theorem append_left (h : Within L Γ Δ) (Θ : List Decl) : Within L (Θ ++ Γ) (Θ ++ Δ) := by
  intro d hd
  obtain hd | hd := List.mem_append.1 hd
  · exact .inl (List.mem_append_left _ hd)
  · exact (h d hd).imp_left (List.mem_append_right _)

theorem append_right (h : Within L Γ Δ) (Θ : List Decl) : Within L (Γ ++ Θ) (Δ ++ Θ) := by
  intro d hd
  obtain hd | hd := List.mem_append.1 hd
  · exact (h d hd).imp_left (List.mem_append_left _)
  · exact .inl (List.mem_append_right _ hd)

end Decl.Within

namespace Stmt

variable {R : List VarId} {L : VarId → Prop} {Γ Δ : List Decl} {s t : Stmt}

/-- What a statement refers to is in `Γ`: for each axis of a block that is one of `R` the loop that
it goes over, and for a region the memory that it is realized in, unless that is among the lost
memory `L`. -/
def Scoped (R : List VarId) (L : VarId → Prop) (Γ : List Decl) : Stmt → Prop
  | .block r x _ _ => ∀ (n : Nat) (a : IterVar), x.iterVars[n]? = some a → a.var.id ∈ R →
      ∃ ρ e l, r = some ρ ∧ ρ.values[n]? = some e ∧ .loop l ∈ Γ ∧ a.Over e l
  | .under (.realize region _) _ => L region.buffer.data.id ∨ region.buffer.decl ∈ Γ
  | _ => True

/-- All that is referred to in `t` is declared around it in `t`, or in `Γ`. -/
def Resolves (R : List VarId) (L : VarId → Prop) (Γ : List Decl) (t : Stmt) : Prop :=
  ∀ around s, t.Occurs around s → s.Scoped R L (around.flatMap decls ++ Γ)

theorem Scoped.mono (h : s.Scoped R L Γ) (hw : Decl.Within L Γ Δ) : s.Scoped R L Δ := by
  cases s with
  | block r x init body =>
      intro n a hn ha
      obtain ⟨ρ, e, l, hr, he, hl, ho⟩ := h n a hn ha
      exact ⟨ρ, e, l, hr, he, (hw _ hl).resolve_right (by simp), ho⟩
  | under head body =>
      cases head with
      | realize region c =>
          obtain h | h := h
          · exact .inl h
          · obtain hd | ⟨id, hid, hl⟩ := hw _ h
            · exact .inr hd
            · cases hid
              exact .inl hl
      | loop _ | whileLoop _ | bind _ _ | allocate _ _ _ _ _ | allocateConst _ _ _ _ _
      | attr _ _ _ | assert _ _ => trivial
  | seq _ | branch _ _ _ | leaf _ => trivial

theorem Resolves.mono (h : t.Resolves R L Γ) (hw : Decl.Within L Γ Δ) : t.Resolves R L Δ :=
  fun around s ho => (h around s ho).mono (hw.append_left _)

theorem Resolves.node (h : t.Scoped R L Γ)
    (hc : ∀ c ∈ t.children, c.Resolves R L (t.decls ++ Γ)) : t.Resolves R L Γ := by
  intro around s ho
  obtain ⟨rfl, rfl⟩ | ⟨c, hm, inner, rfl, hi⟩ := ho.split
  · exact h
  · simpa using hc c hm inner s hi

theorem Resolves.of_mem_members {c : Stmt} (h : t.Resolves R L Γ) (hc : c ∈ t.members) :
    c.Resolves R L Γ := by
  cases t with
  | seq ss =>
      intro around s ho
      simpa [decls] using h _ _ (ho.of_child hc)
  | block _ _ _ _ | branch _ _ _ | under _ _ | leaf _ =>
      obtain rfl := List.mem_singleton.1 hc
      exact h

theorem resolves_leaf (l : Leaf) : (leaf l).Resolves R L Γ :=
  .node trivial (by simp [children])

theorem resolves_sequence {ss : List Stmt} (h : ∀ s ∈ ss, s.Resolves R L Γ) :
    (sequence ss).Resolves R L Γ := by
  have hm : ∀ c ∈ ss.flatMap members, c.Resolves R L Γ := by
    intro c hc
    obtain ⟨s, hs, hc⟩ := List.mem_flatMap.1 hc
    exact (h s hs).of_mem_members hc
  rw [sequence]
  split
  · exact resolves_leaf _
  · rename_i s he
    exact hm s (by simp [he])
  · rename_i s t r he
    rw [he] at hm
    exact .node trivial hm

/-- A body inside heads, of which those that realize a region refer to `Γ`. -/
theorem resolves_wrap {heads : List Head}
    (h : ∀ region c, Head.realize region c ∈ heads →
      L region.buffer.data.id ∨ region.buffer.decl ∈ Γ)
    (hs : s.Resolves R L (heads.flatMap Head.decls ++ Γ)) : (Head.wrap heads s).Resolves R L Γ := by
  induction heads generalizing Γ with
  | nil => exact hs
  | cons head heads ih =>
      refine .node ?_ ?_
      · cases head with
        | realize region c => exact h region c List.mem_cons_self
        | loop _ | whileLoop _ | bind _ _ | allocate _ _ _ _ _ | allocateConst _ _ _ _ _
        | attr _ _ _ | assert _ _ => trivial
      · intro c hc
        obtain rfl := List.mem_singleton.1 hc
        refine ih ?_ (hs.mono (.of_subset ?_))
        · intro region c hm
          exact (h region c (List.mem_cons_of_mem _ hm)).imp_right (List.mem_append_right _)
        · intro d hd
          simp only [decls, List.flatMap_cons, List.mem_append] at hd ⊢
          tauto

end Stmt

/-- What an open scope refers to is declared in those around it, and what it declares for lookup
is what it will be made into. -/
def Scope.Resolves (R : List VarId) (L : VarId → Prop) (Γ : List Decl) : Scope → Prop
  | .block x =>
      (∀ a ∈ x.axes, a.1.var.id ∈ R → ∃ l, .loop l ∈ Γ ∧ a.1.Over a.2 l) ∧
      ∀ s ∈ x.init, s.Resolves R L (x.head.decls ++ Γ)
  | .branch i =>
      (∀ s ∈ i.thenCase, s.Resolves R L Γ) ∧ ∀ s ∈ i.elseCase, s.Resolves R L Γ
  | .wrap w =>
      (∀ y ∈ w.buffer, y.decl ∈ w.heads.flatMap Head.decls) ∧
      ∀ region c, Head.realize region c ∈ w.heads →
        L region.buffer.data.id ∨ region.buffer.decl ∈ Γ
  | .func _ | .blockInit | .thenCase | .elseCase => True

def Product.Resolves (R : List VarId) (L : VarId → Prop) (Γ : List Decl) : Product → Prop
  | .stmts ss => ∀ s ∈ ss, s.Resolves R L Γ
  | .func f => f.body.Resolves R L (Output.func f).decls
  | .blockInit s | .thenCase s | .elseCase s => s.Resolves R L Γ

/-- What is declared in open scopes. -/
def Frame.declsOf (fs : List Frame) : List Decl := fs.flatMap (·.scope.decls)

/-- Everything in open scopes refers to what is declared there or further out. -/
def Frame.Resolve (R : List VarId) (L : VarId → Prop) : List Frame → Prop
  | [] => True
  | f :: fs => f.scope.Resolves R L (declsOf fs) ∧
      (∀ s ∈ f.stmts, s.Resolves R L (declsOf (f :: fs))) ∧ Resolve R L fs

structure Builder.Resolved (R : List VarId) (L : VarId → Prop) (b : Builder) : Prop where
  frames : Frame.Resolve R L b.frames
  result : ∀ r ∈ b.result, r.body.Resolves R L r.decls

variable {R : List VarId} {L : VarId → Prop}

/-! What is found in the stack is declared there. -/

theorem Scope.Resolves.decl_mem {Γ : List Decl} {x : Scope} {y : Buffer} (h : x.Resolves R L Γ)
    (hy : y ∈ x.buffers) : y.decl ∈ x.decls := by
  cases x with
  | func g => exact List.mem_map_of_mem hy
  | block x => exact List.mem_map_of_mem hy
  | wrap w => exact h.1 y (Option.mem_toList.1 hy)
  | blockInit | branch _ | thenCase | elseCase => cases hy

theorem Frame.Resolve.of_mem {fs : List Frame} (h : Resolve R L fs) {f : Frame} (hf : f ∈ fs) :
    ∃ Γ, f.scope.Resolves R L Γ := by
  induction fs with
  | nil => cases hf
  | cons g gs ih =>
      obtain rfl | hf := List.mem_cons.1 hf
      · exact ⟨_, h.1⟩
      · exact ih h.2.2 hf

theorem Builder.Resolved.declares {b : Builder} {x : Buffer} (h : b.Resolved R L)
    (hx : b.declares x) : x.decl ∈ Frame.declsOf b.frames := by
  rw [Builder.declares, List.any_eq_true] at hx
  obtain ⟨f, hf, hx⟩ := hx
  obtain ⟨y, hy, hs⟩ := List.any_eq_true.1 hx
  obtain ⟨Γ, hr⟩ := h.frames.of_mem hf
  have hid : y.data.id = x.data.id := by
    rw [Buffer.sameAs, Bool.and_eq_true] at hs
    exact of_decide_eq_true hs.1
  have hd : x.decl = y.decl := by rw [Buffer.decl, Buffer.decl, hid]
  rw [hd]
  exact List.mem_flatMap.2 ⟨f, hf, hr.decl_mem hy⟩

theorem Head.loop_of_domain? {v : Var} {head : Head} {dom : Range}
    (h : head.domain? v = some dom) :
    ∃ l, head = .loop l ∧ v.id = l.var.id ∧ dom = ⟨l.min, l.extent⟩ := by
  cases head with
  | loop l =>
      rw [domain?] at h
      split at h
      · rename_i hs
        cases h
        exact ⟨l, rfl, (of_decide_eq_true hs).symm, rfl⟩
      · cases h
  | whileLoop _ | bind _ _ | allocate _ _ _ _ _ | allocateConst _ _ _ _ _ | attr _ _ _
  | assert _ _ | realize _ _ => cases h

theorem Builder.loop_of_loopDomain? {b : Builder} {v : Var} {dom : Range}
    (h : b.loopDomain? v = some dom) :
    ∃ l, .loop l ∈ Frame.declsOf b.frames ∧ v.id = l.var.id ∧ dom = ⟨l.min, l.extent⟩ := by
  obtain ⟨f, hf, h⟩ := List.exists_of_findSome?_eq_some h
  obtain ⟨head, hh, h⟩ := List.exists_of_findSome?_eq_some h
  obtain ⟨l, rfl, hv, hd⟩ := Head.loop_of_domain? h
  refine ⟨l, List.mem_flatMap.2 ⟨f, hf, ?_⟩, hv, hd⟩
  cases hs : f.scope with
  | wrap w =>
      rw [hs] at hh
      exact List.mem_flatMap.2 ⟨_, hh, List.mem_singleton.2 rfl⟩
  | func _ | block _ | blockInit | branch _ | thenCase | elseCase =>
      rw [hs] at hh
      cases hh

theorem Call.remapAxes_over {b : Builder} {dtype : Option DataType} {ps : List (Char × Expr)}
    {axes : List (IterVar × Expr)} {s s' : Supply} (h : remapAxes b dtype ps s = .ok (axes, s')) :
    ∀ a ∈ axes, ∃ l, .loop l ∈ Frame.declsOf b.frames ∧ a.1.Over a.2 l := by
  have value (v : Var) (d : DataType) : v.dtype = d ∧ (Expr.var v).castTo d = .var v ∨
      v.dtype ≠ d ∧ (Expr.var v).castTo d = .cast d (.var v) := by
    by_cases hd : v.dtype = d
    · exact .inl ⟨hd, if_pos hd⟩
    · exact .inr ⟨hd, if_neg hd⟩
  induction ps generalizing s axes with
  | nil =>
      cases Attempt.pure_eq_ok.1 h
      simp
  | cons p ps ih =>
      simp only [remapAxes, Attempt.bind_eq_ok, Attempt.pure_eq_ok] at h
      obtain ⟨a, _, ha, as, _, has, h⟩ := h
      cases h
      refine List.forall_mem_cons.2 ⟨?_, ih has⟩
      obtain ⟨kind, v, dom, w, -, hv, hl, hw, rfl⟩ := remapAxis_eq_ok ha
      obtain ⟨l, hm, hid, rfl⟩ := Builder.loop_of_loopDomain? hl
      have hp : p.2 = .var v := by
        cases hp : p.2 <;> simp [hp, Expr.asVar?] at hv
        rw [hv]
      have hd : w.dtype = dtype.getD v.dtype := congrArg (·.1.dtype) hw
      refine ⟨l, hm, ⟨v, hid, ?_⟩, _, _, rfl, ?_⟩
      · rw [hp, ← hd]
        exact value v w.dtype
      · rw [← hd]
        exact ⟨Expr.dtype_asIndex _ _, Expr.brought_asIndex _ _, Expr.dtype_asIndex _ _,
          Expr.brought_asIndex _ _⟩

namespace OrderedMap

variable {α β κ : Type} [Keyed α κ] [DecidableEq κ] {m : OrderedMap α β} {a : α} {b : β}

/-- Under a new key nothing is replaced. -/
theorem values_insert (h : Keyed.key a ∉ m.entries.map fun e => Keyed.key e.1) :
    (m.insert a b).values = m.values ++ [b] := by
  rw [values, entries_insert, put_of_notMem a b h, List.map_append]
  rfl

/-- Only the value under the key of `a` is replaced. -/
theorem mem_insert_of_mem (a : α) (b : β) {e : α × β} (h : e ∈ m.entries) :
    Keyed.key e.1 = Keyed.key a ∨ e ∈ (m.insert a b).entries := by
  rw [entries_insert]
  generalize m.entries = l at h
  induction l with
  | nil => cases h
  | cons x l ih =>
      rw [put]
      split
      · rename_i hx
        obtain rfl | h := List.mem_cons.1 h
        · exact .inl hx
        · exact .inr (List.mem_cons_of_mem _ h)
      · obtain rfl | h := List.mem_cons.1 h
        · exact .inr List.mem_cons_self
        · exact (ih h).imp_right (List.mem_cons_of_mem _)

theorem notMem_of_contains (h : m.contains a = false) :
    Keyed.key a ∉ m.entries.map fun e => Keyed.key e.1 := by
  intro hm
  obtain ⟨e, he, hk⟩ := List.mem_map.1 hm
  have hs : m.entry? a = some e := entry?_eq_some_iff.2 ⟨he, hk⟩
  have hg : m.get? a = some e.2 := congrArg (Option.map Prod.snd) hs
  rw [contains, hg] at h
  cases h

end OrderedMap

theorem Block.loop_notMem_decls (x : Block) (l : Loop) : Decl.loop l ∉ x.decls := by
  simp [decls, Buffer.decl]

namespace Frame

theorem declsOf_congr {fs gs : List Frame} (h : gs.map Frame.scope = fs.map Frame.scope) :
    declsOf gs = declsOf fs := by
  have hd (fs : List Frame) : declsOf fs = (fs.map Frame.scope).flatMap Scope.decls := by
    rw [List.flatMap_map]
    rfl
  rw [hd, hd, h]

/-- The threads of a function are not declared. -/
theorem declsOf_updateFunc {g : FuncScope → FuncScope}
    (hg : ∀ x, (Scope.func (g x)).decls = (Scope.func x).decls) (fs : List Frame) :
    declsOf (Builder.updateFunc g fs) = declsOf fs := by
  induction fs with
  | nil => rfl
  | cons f fs ih =>
      cases hs : f.scope with
      | func x => simp [Builder.updateFunc, hs, declsOf, hg]
      | block _ | blockInit | branch _ | thenCase | elseCase | wrap _ =>
          have hu : Builder.updateFunc g (f :: fs) = f :: Builder.updateFunc g fs := by
            simp [Builder.updateFunc, hs]
          rw [hu]
          exact congrArg (f.scope.decls ++ ·) ih

theorem Resolve.updateFunc {g : FuncScope → FuncScope}
    (hg : ∀ x, (Scope.func (g x)).decls = (Scope.func x).decls) {fs : List Frame}
    (h : Resolve R L fs) : Resolve R L (Builder.updateFunc g fs) := by
  induction fs with
  | nil => trivial
  | cons f fs ih =>
      obtain ⟨hx, hss, hr⟩ := h
      have hd := declsOf_updateFunc hg (f :: fs)
      cases hs : f.scope with
      | func x =>
          rw [← hd] at hss
          simp only [Builder.updateFunc, hs] at hss ⊢
          exact ⟨trivial, hss, hr⟩
      | block _ | blockInit | branch _ | thenCase | elseCase | wrap _ =>
          have hu : Builder.updateFunc g (f :: fs) = f :: Builder.updateFunc g fs := by
            simp [Builder.updateFunc, hs]
          rw [hu] at hd ⊢
          refine ⟨?_, hd ▸ hss, ih hr⟩
          rwa [declsOf_updateFunc hg]

end Frame

/-- A scope that closes leaves its parts inside what they refer to. -/
theorem Scope.Closes.resolves {c : Config} {ss : List Stmt} {x : Scope} {p : Product}
    {Γ : List Decl} (h : x.Closes c ss p) (hx : x.Resolves R L Γ)
    (hs : ∀ s ∈ ss, s.Resolves R L (x.decls ++ Γ)) (hΓ : ∀ g, x = .func g → Γ = []) :
    p.Resolves R L Γ := by
  have hbody := Stmt.resolves_sequence hs
  cases h with
  | @func g sound =>
      obtain rfl := hΓ g rfl
      simp only [Product.Resolves]
      split
      · rename_i he
        refine hbody.mono (.of_subset ?_)
        simp [Scope.decls, Output.decls, List.isEmpty_iff.1 he]
      · refine .node (fun n a hn => by simp at hn) ?_
        intro s hm
        obtain rfl := List.mem_singleton.1 hm
        refine hbody.mono (.of_subset ?_)
        intro d hd
        simpa [Scope.decls, Output.decls, FuncScope.rootBlock, Stmt.decls, Block.decls, or_comm,
          or_assoc, or_left_comm] using hd
  | @block x r bound =>
      intro s hm
      obtain rfl := List.mem_singleton.1 hm
      refine .node ?_ ?_
      · intro n a hn ha
        obtain ⟨y, hy, rfl⟩ : ∃ y, x.axes[n]? = some y ∧ y.1 = a := by
          simpa [BlockScope.head] using hn
        obtain ⟨l, hl, ho⟩ := hx.1 y (List.mem_of_getElem? hy) ha
        have hr := BlockScope.realization_eq_ok bound
        have hok := BlockScope.ok_of_realization bound none .noOp
        cases hb : x.bare with
        | true =>
            simp only [hb, if_true] at hr
            rw [hr] at hok
            simp only [Stmt.Ok] at hok
            rw [hok] at hn
            cases hn
        | false =>
            simp only [hb, Bool.false_eq_true, if_false] at hr
            exact ⟨_, y.2, l, hr, by simp [hy], hl, ho⟩
      · intro s hm
        rw [Stmt.children, List.mem_append, List.mem_singleton, Option.mem_toList] at hm
        obtain hm | rfl := hm
        · exact hx.2 s hm
        · exact hbody
  | blockInit | thenCase | elseCase => exact hbody
  | @branch i s empty paired =>
      intro t hm
      obtain rfl := List.mem_singleton.1 hm
      refine .node trivial ?_
      intro t ht
      rw [Stmt.children, List.mem_cons, Option.mem_toList] at ht
      obtain rfl | ht := ht
      · exact hx.1 t paired
      · exact hx.2 t ht
  | wrap w =>
      intro s hm
      rw [Wrapper.close] at hm
      split at hm
      · rename_i he
        simpa [Scope.decls, List.isEmpty_iff.1 he] using hs s hm
      · obtain rfl := List.mem_singleton.1 hm
        exact Stmt.resolves_wrap hx.2 hbody

theorem Opening.Makes.resolves {b : Builder} {o : Opening} {v : Value} {x : Scope}
    (h : o.Makes b v x) (hb : b.Resolved R L) : x.Resolves R L (Frame.declsOf b.frames) := by
  cases h with
  | primFunc _ _ | blockInit _ _ | thenCase _ _ | elseCase _ _ _ => trivial
  | block name bare => simp [Scope.Resolves]
  | branch condition => simp [Scope.Resolves]
  | grid extents length =>
      refine ⟨by simp, ?_⟩
      intro region c hm
      obtain ⟨n, hn, he⟩ := List.getElem_of_mem hm
      rw [List.getElem_zipWith] at he
      cases he
  | realize region scope condition ranks declared =>
      refine ⟨by simp, ?_⟩
      intro region' c hm
      simp only [List.mem_cons, reduceCtorEq, List.not_mem_nil, or_false, false_or] at hm
      cases hm
      exact .inr (hb.declares declared)
  | allocate _ _ _ _ _ buffer | allocateConst _ _ _ _ buffer =>
      simp [Scope.Resolves, Head.decls, Buffer.decl]
  | loop _ _ _ _ _ _ | whileLoop _ | bind _ _ | attr _ _ _ | assert _ _ | launchThread _ _ _ _ =>
      simp [Scope.Resolves]

namespace Builder.Resolved

variable {b b' : Builder}

theorem setTop {x y : Scope} (h : b.Resolved R L) (ht : b.Top x)
    (hd : Decl.Within L x.decls y.decls)
    (hy : ∀ Γ, Frame.declsOf b.frames = x.decls ++ Γ → x.Resolves R L Γ → y.Resolves R L Γ) :
    (b.setTop y).Resolved R L := by
  obtain ⟨f, fs, hf, rfl⟩ := ht
  have hr := h.frames
  rw [hf] at hr hy
  obtain ⟨hx, hss, hr⟩ := hr
  constructor
  · rw [frames_setTop hf]
    exact ⟨hy _ rfl hx, fun s hs => (hss s hs).mono (hd.append_right _), hr⟩
  · rw [result_setTop]
    exact h.result

theorem setBlock {x y : BlockScope} (h : b.Resolved R L) (ht : b.Top (.block x))
    (hd : x.head.decls ⊆ y.head.decls) (hi : y.init = x.init)
    (ha : ∀ a ∈ y.axes, a ∈ x.axes ∨ a.1.var.id ∉ R ∨
      ∃ l, .loop l ∈ Frame.declsOf b.frames ∧ a.1.Over a.2 l) :
    (b.setTop (.block y)).Resolved R L := by
  refine h.setTop ht (.of_subset hd) ?_
  intro Γ hΓ hx
  constructor
  · intro a hm hR
    obtain hm | hn | ⟨l, hl, ho⟩ := ha a hm
    · exact hx.1 a hm hR
    · exact absurd hR hn
    · rw [hΓ, List.mem_append] at hl
      exact ⟨l, hl.resolve_left (x.head.loop_notMem_decls l), ho⟩
  · intro s hs
    exact (hx.2 s (hi ▸ hs)).mono (.of_subset (List.append_subset.2
      ⟨List.Subset.trans hd (List.subset_append_left _ _), List.subset_append_right _ _⟩))

theorem setFunc {g g' : FuncScope} (h : b.Resolved R L) (ht : b.Top (.func g))
    (hd : Decl.Within L (Scope.func g).decls (Scope.func g').decls) :
    (b.setTop (.func g')).Resolved R L :=
  h.setTop ht hd fun _ _ _ => trivial

theorem registerThread (h : b.Resolved R L) (v : Var) (tag : String) :
    (b.registerThread v tag).Resolved R L := by
  refine ⟨h.frames.updateFunc ?_, h.result⟩
  intro x
  rfl

theorem appended {s : Stmt} (h : b.Resolved R L) (hs : s.Resolves R L (Frame.declsOf b.frames))
    (ha : b.appended s = .ok b') : b'.Resolved R L := by
  rw [Builder.appended] at ha
  cases hf : b.frames with
  | cons f fs =>
      simp only [hf, Except.ok.injEq] at ha
      subst ha
      have hr := h.frames
      rw [hf] at hr hs
      obtain ⟨hx, hss, hr⟩ := hr
      refine ⟨⟨hx, ?_, hr⟩, h.result⟩
      intro t ht
      rw [List.mem_append, List.mem_singleton] at ht
      obtain ht | rfl := ht
      · exact hss t ht
      · exact hs
  | nil =>
      simp only [hf] at ha
      rw [hf] at hs
      cases hr : b.result with
      | none =>
          simp only [hr, Except.ok.injEq] at ha
          subst ha
          refine ⟨trivial, ?_⟩
          rintro r ⟨⟩
          exact hs
      | some r =>
          cases r with
          | func g => simp [hr] at ha
          | stmt r =>
              simp only [hr, Except.ok.injEq] at ha
              subst ha
              refine ⟨trivial, ?_⟩
              rintro o ⟨⟩
              refine Stmt.resolves_sequence ?_
              intro t ht
              rw [List.mem_cons, List.mem_singleton] at ht
              obtain rfl | rfl := ht
              · exact h.result _ hr
              · exact hs

theorem appendedAll {ss : List Stmt} (h : b.Resolved R L)
    (hs : ∀ s ∈ ss, s.Resolves R L (Frame.declsOf b.frames))
    (ha : b.appendedAll ss = .ok b') : b'.Resolved R L := by
  induction ss generalizing b with
  | nil =>
      cases ha
      exact h
  | cons s ss ih =>
      rw [List.forall_mem_cons] at hs
      cases hb : b.appended s with
      | error e => simp [Builder.appendedAll, hb, Except.bind] at ha
      | ok b'' =>
          rw [Builder.appendedAll, hb] at ha
          refine ih (h.appended hs.1 hb) ?_ ha
          rw [Frame.declsOf_congr (Scope.scopes_appended hb)]
          exact hs.2

theorem delivered {p : Product} (h : b.Resolved R L)
    (hp : p.Resolves R L (Frame.declsOf b.frames)) (hd : b.delivered p = .ok b') :
    b'.Resolved R L := by
  cases p with
  | stmts ss => exact h.appendedAll hp hd
  | func f =>
      obtain ⟨hf, -, rfl⟩ := delivered_func hd
      refine ⟨h.frames, ?_⟩
      rintro r ⟨⟩
      exact hp
  | blockInit s =>
      obtain ⟨x, ht, rfl⟩ := delivered_blockInit hd
      refine h.setTop ht (.of_subset fun _ hd => hd) fun Γ hΓ hx => ⟨hx.1, ?_⟩
      rintro t ⟨⟩
      rw [hΓ] at hp
      exact hp
  | thenCase s =>
      obtain ⟨i, ht, rfl⟩ := delivered_thenCase hd
      refine h.setTop ht (.of_subset fun _ hd => hd) fun Γ hΓ hx => ⟨?_, hx.2⟩
      rintro t ⟨⟩
      rw [hΓ] at hp
      exact hp
  | elseCase s =>
      obtain ⟨i, ht, rfl⟩ := delivered_elseCase hd
      refine h.setTop ht (.of_subset fun _ hd => hd) fun Γ hΓ hx => ⟨hx.1, ?_⟩
      rintro t ⟨⟩
      rw [hΓ] at hp
      exact hp

theorem pop {f : Frame} {fs : List Frame} (h : b.Resolved R L) (hf : b.frames = f :: fs) :
    Resolved R L { b with frames := fs } := by
  have hr := h.frames
  rw [hf] at hr
  exact ⟨hr.2.2, h.result⟩

end Builder.Resolved

namespace Event

/-- The identities of the axes that the event adds one for one to loops. -/
def remapped : Event → List VarId
  | .called _ (.remap _ _ _) (.vars vs) => vs.map Var.id
  | _ => []

/-- The identity of the axis that the event adds with a domain of its own. -/
def axis? : Event → Option VarId
  | .called _ (.axis _ _ _ _) (.var v) => some v.id
  | _ => none

theorem eq_of_axis? {e : Event} {i : VarId} (h : i ∈ e.axis?) :
    e.binders = [i] ∧ e.remapped = [] := by
  unfold axis? at h
  split at h
  · cases h
    exact ⟨rfl, rfl⟩
  · cases h

theorem mem_binders_of_remapped {e : Event} {i : VarId} (h : i ∈ e.remapped) :
    i ∈ e.binders := by
  unfold remapped at h
  split at h
  · exact h
  · cases h

theorem axis_notMem_remapped {H : List Event} (hn : (H.flatMap binders).Nodup) {e : Event}
    (he : e ∈ H) {i : VarId} (hi : i ∈ e.axis?) : i ∉ H.flatMap remapped := by
  intro hm
  obtain ⟨d, hd, hid⟩ := List.mem_flatMap.1 hm
  obtain ⟨hb, hr⟩ := eq_of_axis? hi
  obtain rfl := eq_of_nodup_flatMap hn hd he (mem_binders_of_remapped hid) (by simp [hb])
  rw [hr] at hid
  cases hid

end Event

namespace Builder.Resolved

variable {b b' : Builder}

theorem performed {s : Supply} {c : Call} {v : Value} {eff : Effect} (h : b.Resolved R L)
    (hd : c.Does b s v eff) (hp : b.performed eff = .ok b')
    (hR : ∀ i ∈ (Event.called s c v).axis?, i ∉ R)
    (hL : ∀ p ∈ b.interface.bufferMap.entries,
      (Event.called s c v).handle? = some p.1.id → L p.2.data.id) :
    b'.Resolved R L := by
  cases hd with
  | store _ _ _ | prefetch _ _ | evaluate _ => exact h.appended (Stmt.resolves_leaf _) hp
  | envThread w =>
      cases hp
      exact h.registerThread w w.name
  | guard _ top _ | reads _ top _ | writes _ top _ | blockAttrs _ top _ =>
      cases hp
      exact h.setBlock top (fun _ hd => hd) rfl fun a ha => .inl ha
  | allocInBlock _ _ _ buffer top | matchRegion _ _ _ _ buffer top =>
      cases hp
      refine h.setBlock top ?_ rfl fun a ha => .inl ha
      intro d hd
      simp only [Block.decls, BlockScope.head, List.map_append, List.mem_append] at hd ⊢
      tauto
  | axis kind dom binding dtype w top =>
      cases hp
      refine h.setBlock top (fun _ hd => hd) rfl ?_
      intro a ha
      obtain ha | ha := List.mem_append.1 ha
      · exact .inl ha
      · obtain rfl := List.mem_singleton.1 ha
        exact .inr (.inl (hR w.id rfl))
  | remap kinds bindings dtype top made =>
      cases hp
      refine h.setBlock top (fun _ hd => hd) rfl ?_
      intro a ha
      obtain ha | ha := List.mem_append.1 ha
      · exact .inl ha
      · exact .inr (.inr (Call.remapAxes_over made a ha))
  | argVar _ _ top | funcName _ top _ | funcAttrs _ top _ | funcRet _ top _ =>
      cases hp
      exact h.setFunc top (.of_subset fun _ hd => hd)
  | allocInFunc _ _ _ buffer top =>
      cases hp
      refine h.setFunc top (.of_subset fun d hd => ?_)
      simp only [Scope.decls, List.map_append, List.mem_append] at hd ⊢
      tauto
  | matchParam p shape dtype o buffer top free =>
      cases hp
      refine h.setFunc top (.of_subset fun d hd => ?_)
      simp only [Scope.decls, OrderedMap.values_insert (OrderedMap.notMem_of_contains free),
        List.map_append, List.mem_append] at hd ⊢
      tauto
  | preflattened of shape dtype o buffer top behind free =>
      cases hp
      refine h.setFunc top (.of_subset fun d hd => ?_)
      simp only [Scope.decls, OrderedMap.values_insert (OrderedMap.notMem_of_contains free),
        List.map_append, List.mem_append] at hd ⊢
      tauto
  | @argBuffer name x g top =>
      cases hp
      rw [Builder.interface_of_top top] at hL
      refine h.setFunc top fun d hd => ?_
      simp only [Scope.decls, List.map_append, List.mem_append] at hd ⊢
      obtain (hd | hd) | hd := hd
      · obtain ⟨y, hy, rfl⟩ := List.mem_map.1 hd
        obtain ⟨p, hp, rfl⟩ := List.mem_map.1 hy
        -- A buffer goes only if it lies behind the variable that the handle turns out to be.
        obtain hk | hk := OrderedMap.mem_insert_of_mem (Var.fresh name .handle s).1
          { x with name } hp
        · exact .inr ⟨_, rfl, hL p hp (congrArg some hk.symm)⟩
        · exact .inl (.inl (.inl (List.mem_map_of_mem (List.mem_map_of_mem hk))))
      · exact .inl (.inl (.inr hd))
      · exact .inl (.inr hd)

theorem took {e : Event} (h : b.Resolved R L) (hs : Scope.Stacked (b.frames.map Frame.scope))
    (ht : e.Took b b') (hR : ∀ i ∈ e.axis?, i ∉ R)
    (hL : ∀ p ∈ b.interface.bufferMap.entries, e.handle? = some p.1.id → L p.2.data.id) :
    b'.Resolved R L := by
  cases e with
  | entered config => cases ht
  | opened id o v =>
      obtain ⟨x, s, s', hx, -, rfl⟩ := ht
      exact ⟨⟨(Opening.scope_makes hx).resolves h, by simp, h.frames⟩, h.result⟩
  | called s c v =>
      obtain ⟨eff, s', he, hp⟩ := ht
      exact h.performed (Call.effect_does he) hp hR hL
  | closed id =>
      obtain ⟨f, fs, p, hf, -, hc, hd⟩ := ht
      have hr := h.frames
      rw [hf] at hr hs
      refine (h.pop hf).delivered ?_ hd
      refine (Frame.close_closes hc).resolves hr.1 hr.2.1 ?_
      intro g hg
      have hsit := hs.1
      rw [hg] at hsit
      have hfs : fs = [] := List.map_eq_nil_iff.1 hsit
      rw [hfs]
      rfl
  | discarded id e =>
      obtain ⟨f, fs, hf, -, -, rfl⟩ := ht
      exact ⟨(h.pop hf).frames, h.result⟩
  | failed f =>
      obtain rfl := ht
      cases f <;> exact ⟨h.frames, h.result⟩

end Builder.Resolved

theorem Builder.Lived.resolved {config : Config} {H : List Event} {b : Builder}
    (h : Lived config H b) (hc : H.findSome? Event.error? = none)
    (hR : ∀ e ∈ H, ∀ i ∈ e.axis?, i ∉ R)
    (hL : ∀ past d mid e, past ++ d :: mid ++ [e] <+: H → ∀ i x, d.keyed? = some i →
      d.declared? = some x → e.handle? = some i → L x.data.id) : b.Resolved R L := by
  induction h with
  | start => exact ⟨trivial, by simp⟩
  | @step H b e b' past last ih =>
      rw [List.findSome?_append, Option.or_eq_none_iff] at hc
      have hR' : ∀ e ∈ H, ∀ i ∈ e.axis?, i ∉ R := fun d hd => hR d (List.mem_append_left _ hd)
      have hr := ih hc.1 hR' fun _ _ _ _ hp => hL _ _ _ _ (hp.trans (List.prefix_append _ _))
      refine hr.took past.stacked last.took (hR e (by simp)) ?_
      intro p hp he
      obtain ⟨d, hd, hk, hx⟩ := (past.interface hc.1).put p hp
      obtain ⟨front, mid, rfl⟩ := List.append_of_mem hd
      exact hL front d mid e (List.prefix_refl _) _ _ hk hx he

theorem Decl.loop_mem_around {around : List Stmt} {l : Loop}
    (h : Decl.loop l ∈ around.flatMap Stmt.decls) : ∃ body, Stmt.under (.loop l) body ∈ around := by
  obtain ⟨s, hs, hl⟩ := List.mem_flatMap.1 h
  cases s with
  | under head body =>
      cases head with
      | loop l' =>
          obtain rfl : l = l' := by simpa [Stmt.decls, Head.decls] using hl
          exact ⟨body, hs⟩
      | allocate _ _ _ _ _ | allocateConst _ _ _ _ _ =>
          simp [Stmt.decls, Head.decls] at hl
      | whileLoop _ | bind _ _ | attr _ _ _ | assert _ _ | realize _ _ => cases hl
  | block r x init body => exact absurd hl (x.loop_notMem_decls l)
  | seq _ | branch _ _ _ | leaf _ => cases hl

theorem Output.loop_notMem_decls (out : Output) (l : Loop) : Decl.loop l ∉ out.decls := by
  cases out <;> simp [decls, Buffer.decl]

namespace Program

/-- What has been looked up in the open scopes lies around in the output: the loop of each axis
that was made for one, and the memory of each region that is realized, unless that belonged to a
buffer whose place a handle has taken. No two loops or axes have the same variable. -/
theorem output_resolves {supply : Supply} (hs : Function.Injective supply.stream)
    {acts : List Action} {id : SessionId} {out : Output} (hid : id ∈ (run supply acts).sessions)
    (h : ((run supply acts).world.finish id).1 = .ok out) :
    (∀ around r x init body, out.body.Occurs around (.block r x init body) →
      ∀ (n : Nat) (a : IterVar), x.iterVars[n]? = some a →
        a.var.id ∈ ((run supply acts).history id).flatMap Event.remapped →
        ∃ ρ e l inner, r = some ρ ∧ ρ.values[n]? = some e ∧ .under (.loop l) inner ∈ around ∧
          a.Over e l) ∧
    (∀ around region condition body,
      out.body.Occurs around (.under (.realize region condition) body) →
      (∃ s ∈ around, .memory region.buffer.data.id ∈ s.decls) ∨
      .memory region.buffer.data.id ∈ out.decls ∨
      ∃ x, x.data.id = region.buffer.data.id ∧
        Event.Displaced x ((run supply acts).history id)) ∧
    out.body.binders.Nodup := by
  obtain ⟨config, H, hh, hl⟩ := lived_run hid
  obtain ⟨he, hf, hr⟩ := Builder.finish_eq_ok h
  have hc : H.findSome? Event.error? = none := hl.firstError_eq.symm.trans he
  have hn := binders_nodup hs acts id
  have hR : ∀ e ∈ H, ∀ i ∈ e.axis?, i ∉ ((run supply acts).history id).flatMap Event.remapped :=
    fun e hm i hi => Event.axis_notMem_remapped hn (hh ▸ List.mem_cons_of_mem _ hm) hi
  have hL : ∀ past d mid e, past ++ d :: mid ++ [e] <+: H → ∀ i x, d.keyed? = some i →
      d.declared? = some x → e.handle? = some i →
      ∃ y, y.data.id = x.data.id ∧ Event.Displaced y ((run supply acts).history id) := by
    rintro past d mid e ⟨rest, hp⟩ i x hk hx hd
    have hsplit : (run supply acts).history id =
        (.entered config :: past) ++ d :: mid ++ e :: rest := by
      rw [hh, ← hp]
      simp
    have hm := minted_nodup hs acts id
    rw [hsplit] at hm ⊢
    exact ⟨x, rfl, Event.displaced_of_handle hm hk hx hd⟩
  have hres := (hl.resolved (L := fun i => ∃ y, y.data.id = i ∧
    Event.Displaced y ((run supply acts).history id)) hc hR hL).result out hr
  refine ⟨?_, ?_, ?_⟩
  · intro around r x init body ho n a ha hm
    obtain ⟨ρ, e, l, hr, hv, hl, hover⟩ := hres _ _ ho n a ha hm
    obtain hl | hl := List.mem_append.1 hl
    · obtain ⟨inner, hin⟩ := Decl.loop_mem_around hl
      exact ⟨ρ, e, l, inner, hr, hv, hin, hover⟩
    · exact absurd hl (out.loop_notMem_decls l)
  · intro around region condition body ho
    obtain hd | hd := hres _ _ ho
    · exact .inr (.inr hd)
    · obtain hd | hd := List.mem_append.1 hd
      · exact .inl (List.mem_flatMap.1 hd)
      · exact .inr (.inl hd)
  · have hb := hl.binders hc
    rw [hh] at hn
    have hn : (H.flatMap Event.binders).Nodup := hn
    rw [← hb.nodup_iff] at hn
    simpa [Builder.binders, hf, hr] using hn

/-- The buffer behind the parameter of `tiling`. -/
def tiledBuffer : Buffer :=
  ⟨⟨1000, "buffer", .handle, some (.pointer (.float 32) "global")⟩, .float 32, [.int32 4], [],
    .int32 0, "buffer", 64, 1, .default, []⟩

/-- A buffer behind a parameter is realized around a grid of two loops, which a block inside goes
over. -/
def tiling : List Action := [.enter 0 {}, .openScope 0 .primFunc, .call 0 (.argVar "p" ownParam),
  .call 0 (.matchBuffer (.param ownParam) [.int32 4] (.float 32) {}),
  .openScope 0 (.realize tiledBuffer.full "" none), .openScope 0 (.grid [.int32 4, .int32 8]),
  .openScope 0 (.block "tile" false),
  .call 0 (.remap "SR" [.var ⟨1001, "i0", .int 32, none⟩, .var ⟨1002, "i1", .int 32, none⟩]
    (some (.int 64))),
  .call 0 (.evaluate (.int32 1)), .close ⟨0, 3, .block⟩, .close ⟨0, 2, .loops⟩,
  .close ⟨0, 1, .realize⟩, .close ⟨0, 0, .primFunc⟩]

theorem output_resolves_tiling :
    let d : DataType := .int 64
    let axes : List IterVar := [⟨some ⟨.int 0 d, .int 4 d⟩, ⟨1003, "vi0", d, none⟩, .spatial, ""⟩,
      ⟨some ⟨.int 0 d, .int 8 d⟩, ⟨1004, "vi1", d, none⟩, .reduce, ""⟩]
    ∃ out around ρ x init body, ((run ⟨(· + 1000), 0⟩ tiling).world.finish 0).1 = .ok out ∧
      out.body.binders = [1001, 1002, 1003, 1004] ∧ out.body.binders.Nodup ∧
      out.body.Occurs around (.block (some ρ) x init body) ∧
      x.iterVars = axes ∧
      (∀ (n : Nat) (a : IterVar), x.iterVars[n]? = some a → a.var.id ∈ [1003, 1004] →
        ∃ e l inner, ρ.values[n]? = some e ∧ .under (.loop l) inner ∈ around ∧ a.Over e l) ∧
      ∀ around region condition body,
        out.body.Occurs around (.under (.realize region condition) body) →
        (∃ s ∈ around, .memory region.buffer.data.id ∈ s.decls) ∨
        .memory region.buffer.data.id ∈ out.decls := by
  intro d axes
  have hs : Function.Injective (Supply.mk (· + 1000) 0).stream :=
    fun _ _ h => Nat.add_right_cancel h
  have hid : 0 ∈ (run ⟨(· + 1000), 0⟩ tiling).sessions := by decide
  have arguments : ∀ e ∈ (run ⟨(· + 1000), 0⟩ tiling).history 0, e.handle? = none := by decide
  obtain ⟨out, h, hb⟩ : ∃ out, ((run ⟨(· + 1000), 0⟩ tiling).world.finish 0).1 = .ok out ∧
    out.body.binders = [1001, 1002, 1003, 1004] := ⟨_, rfl, rfl⟩
  obtain ⟨haxes, hregions, hn⟩ := output_resolves hs hid h
  obtain ⟨around, ρ, x, init, body, ho, hx⟩ : ∃ around ρ x init body,
      out.body.Occurs around (.block (some ρ) x init body) ∧ x.iterVars = axes := by
    cases h
    exact ⟨_, _, _, _, _, .child (.child (.child (.child .root List.mem_cons_self)
      List.mem_cons_self) List.mem_cons_self) List.mem_cons_self, rfl⟩
  refine ⟨out, around, ρ, x, init, body, h, hb, hn, ho, hx, ?_, ?_⟩
  · intro n a ha hm
    obtain ⟨_, e, l, inner, hρ, hv, hin, hover⟩ := haxes _ _ _ _ _ ho n a ha hm
    cases hρ
    exact ⟨e, l, inner, hv, hin, hover⟩
  · intro around region condition body ho
    obtain hd | hd | ⟨x, -, hx⟩ := hregions around region condition body ho
    · exact .inl hd
    · exact .inr hd
    · exact absurd hx (Event.not_displaced arguments x)

/-- The buffer that loses its place is realized before it does. -/
def realizedBefore : List Action := usurping.take 3 ++
  [.openScope 0 (.realize usurpedBuffer.full "" none), .close ⟨0, 1, .realize⟩,
    .call 0 (.argBuffer "A" handedBuffer), .close ⟨0, 0, .primFunc⟩]

theorem usurped_region_undeclared :
    ∃ out around region condition body,
      ((run .counting realizedBefore).world.finish 0).1 = .ok out ∧
      out.body.Occurs around (.under (.realize region condition) body) ∧
      (∀ s ∈ around, .memory region.buffer.data.id ∉ s.decls) ∧
      .memory region.buffer.data.id ∉ out.decls := by
  refine ⟨_, _, _, _, _, rfl, .child .root List.mem_cons_self, ?_, ?_⟩
  · intro s hs
    obtain rfl := List.mem_singleton.1 hs
    exact List.not_mem_nil
  · change Decl.memory 0 ∉ [Decl.memory 101]
    simp

end Program

end TensorProgram
