import Mathlib.Algebra.Ring.Int.Defs
import TensorProgram.Proofs.Stack

/-!
Well-formed statements. Every statement in what a session gives back, however deep it lies, is
put together as its kind demands. What is demanded of a statement is settled at different
times, when its scope is opened, when it is delivered and when its scope is closed, and all of
it is invariant: of the statements in the open scopes, of the heads that wait for a body, and of
the result.
-/

namespace TensorProgram

/-- In `t` there is the statement `s` inside those of `around`, innermost first. -/
inductive Stmt.Occurs (t : Stmt) : List Stmt → Stmt → Prop where
  | root : Occurs t [] t
  | child {around : List Stmt} {s c : Stmt} (parent : Occurs t around s) (h : c ∈ s.children) :
      Occurs t (s :: around) c

/-- The variable is declared as a pointer to `dtype` data. -/
def Var.PointsTo (v : Var) (dtype : DataType) : Prop :=
  ∃ scope, v.typeHint = some (.pointer dtype scope)

/-- The two bounds have the type of the variable, and the loop runs on a hardware thread exactly
if it is of that kind. -/
def Loop.Ok (l : Loop) : Prop :=
  l.min.dtype = l.var.dtype ∧ l.extent.dtype = l.var.dtype ∧
  (l.thread.isSome ↔ l.kind = .threadBinding) ∧
  ∀ t ∈ l.thread, t.var = l.var ∧ t.dom = some ⟨l.min, l.extent⟩ ∧ t.kind = .threadIndex

/-- The values are of the right kind, and if all extents are literals there are as many of them
as the array has elements. -/
def ConstantData.Fills (data : ConstantData) (dtype : DataType) (extents : List Expr) : Prop :=
  data.fits dtype ∧ ∀ dims, extents.mapM Expr.asInt? = some dims →
    (∀ d ∈ dims, 0 ≤ d.toInt) ∧ (dims.map Int64.toInt).prod = data.length

def Head.Ok (around : List Stmt) : Head → Prop
  | .loop l => l.Ok
  | .allocate v dtype extents _ _ => extents ≠ [] ∧ v.PointsTo dtype
  | .allocateConst v dtype extents data _ => v.PointsTo dtype ∧ data.Fills dtype extents
  | .assert _ message => ∃ text, message = .str text
  | .realize r _ => r.ranges.length = r.buffer.rank ∧ ∃ scope body rest,
      around = .under (.attr (.var r.buffer.data) "realize_scope" scope) body :: rest
  | .whileLoop _ | .bind _ _ | .attr _ _ _ => True

def Leaf.Ok : Leaf → Prop
  | .store buffer value indices => indices.length = buffer.rank ∧ value.dtype = buffer.dtype
  | .prefetch buffer bounds => bounds.length = buffer.rank
  | .evaluate _ => True

namespace Stmt

/-- What is demanded of a statement inside those of `around`, apart from its parts. -/
def Ok (around : List Stmt) : Stmt → Prop
  | .seq ss => 2 ≤ ss.length ∧ ∀ s ∈ ss, ∀ ms, s ≠ .seq ms
  | .block none b _ _ => b.iterVars = []
  | .block (some r) b _ _ => r.values.length = b.iterVars.length
  | .branch _ _ _ => True
  | .under h _ => h.Ok around
  | .leaf l => l.Ok

/-- Every statement in `t` is as it should be. -/
def Sound (t : Stmt) : Prop := ∀ around s, t.Occurs around s → s.Ok around

variable {t s : Stmt} {around : List Stmt}

theorem Occurs.of_child {c : Stmt} (hc : c ∈ t.children) (h : c.Occurs around s) :
    t.Occurs (around ++ [t]) s := by
  induction h with
  | root => exact .child .root hc
  | child parent h ih => exact .child ih h

/-- What occurs in a statement is the statement itself or occurs in a part of it. -/
theorem Occurs.split (h : t.Occurs around s) : around = [] ∧ s = t ∨
    ∃ c ∈ t.children, ∃ inner, around = inner ++ [t] ∧ c.Occurs inner s := by
  induction h with
  | root => exact .inl ⟨rfl, rfl⟩
  | @child around s c parent hc ih =>
      obtain ⟨rfl, rfl⟩ | ⟨d, hd, inner, rfl, ho⟩ := ih
      · exact .inr ⟨c, hc, [], rfl, .root⟩
      · exact .inr ⟨d, hd, s :: inner, rfl, .child ho hc⟩

/-- What is all right on its own is so inside anything. -/
theorem Ok.append (h : s.Ok around) (outer : List Stmt) : s.Ok (around ++ outer) := by
  cases s with
  | seq ss | branch _ _ _ | leaf l => exact h
  | block r b init body => cases r <;> exact h
  | under head body =>
      cases head with
      | loop l | whileLoop _ | bind _ _ | allocate _ _ _ _ _ | allocateConst _ _ _ _ _
      | attr _ _ _ | assert _ _ => exact h
      | realize r c =>
          obtain ⟨hr, scope, b, rest, rfl⟩ := h
          exact ⟨hr, scope, b, rest ++ outer, rfl⟩

/-- A sequence around a statement is nothing that the statement relies on. -/
theorem Ok.of_seq {ss : List Stmt} (h : s.Ok (around ++ [.seq ss])) : s.Ok around := by
  cases s with
  | seq ss | branch _ _ _ | leaf l => exact h
  | block r b init body => cases r <;> exact h
  | under head body =>
      cases head with
      | loop l | whileLoop _ | bind _ _ | allocate _ _ _ _ _ | allocateConst _ _ _ _ _
      | attr _ _ _ | assert _ _ => exact h
      | realize r c =>
          obtain ⟨hr, scope, b, rest, he⟩ := h
          cases around with
          | nil => cases he
          | cons x around =>
              cases he
              exact ⟨hr, scope, b, around, rfl⟩

theorem Sound.node (h : t.Ok []) (hc : ∀ c ∈ t.children, c.Sound) : t.Sound := by
  intro around s ho
  obtain ⟨rfl, rfl⟩ | ⟨c, hm, inner, rfl, hi⟩ := ho.split
  · exact h
  · exact (hc c hm inner s hi).append [t]

theorem Sound.of_mem_members {c : Stmt} (h : t.Sound) (hc : c ∈ t.members) : c.Sound := by
  cases t with
  | seq ss =>
      intro around s ho
      exact (h _ _ (ho.of_child hc)).of_seq
  | block _ _ _ _ | branch _ _ _ | under _ _ | leaf _ =>
      obtain rfl := List.mem_singleton.1 hc
      exact h

theorem Sound.ne_seq_of_mem_members {c : Stmt} (h : t.Sound) (hc : c ∈ t.members) :
    ∀ ss, c ≠ .seq ss := by
  cases t with
  | seq ss => exact (h [] _ .root).2 c hc
  | block _ _ _ _ | branch _ _ _ | under _ _ | leaf _ =>
      obtain rfl := List.mem_singleton.1 hc
      intro ss he
      cases he

theorem sound_sequence {ss : List Stmt} (h : ∀ s ∈ ss, s.Sound) : (sequence ss).Sound := by
  have hm : ∀ c ∈ ss.flatMap members, c.Sound ∧ ∀ ms, c ≠ .seq ms := by
    intro c hc
    obtain ⟨s, hs, hc⟩ := List.mem_flatMap.1 hc
    exact ⟨(h s hs).of_mem_members hc, (h s hs).ne_seq_of_mem_members hc⟩
  rw [sequence]
  split
  · exact .node trivial (by simp [noOp, evaluate, children])
  · rename_i s he
    exact (hm s (by simp [he])).1
  · rename_i s t r he
    rw [he] at hm
    refine .node ⟨by simp, fun c hc => (hm c hc).2⟩ fun c hc => (hm c hc).1

/-- What a head demands is settled once its place is known. -/
theorem sound_under {head : Head} (h : head.Ok []) (hs : s.Sound) : (under head s).Sound := by
  refine .node h ?_
  intro c hc
  obtain rfl := List.mem_singleton.1 hc
  exact hs

theorem sound_wrap {heads : List Head} (h : ∀ head ∈ heads, head.Ok []) (hs : s.Sound) :
    (Head.wrap heads s).Sound := by
  induction heads with
  | nil => exact hs
  | cons head heads ih =>
      exact sound_under (h head List.mem_cons_self)
        (ih fun head hm => h head (List.mem_cons_of_mem _ hm))

/-- A region is realized directly inside an attribute on its memory. -/
theorem sound_realize {r : Region} {scope condition : Expr} (hr : r.ranges.length = r.buffer.rank)
    (hs : s.Sound) : (Head.wrap [.attr (.var r.buffer.data) "realize_scope" scope,
      .realize r condition] s).Sound := by
  simp only [Head.wrap, List.foldr_cons, List.foldr_nil]
  intro around x ho
  obtain ⟨rfl, rfl⟩ | ⟨c, hc, inner, rfl, ho⟩ := ho.split
  · trivial
  · obtain rfl := List.mem_singleton.1 hc
    obtain ⟨rfl, rfl⟩ | ⟨d, hd, inner', rfl, ho'⟩ := ho.split
    · exact ⟨hr, _, _, _, rfl⟩
    · obtain rfl := List.mem_singleton.1 hd
      exact ((hs _ _ ho').append _).append _

end Stmt

/-- Whatever body the scope is closed with, and whatever it holds already, is as it should be. -/
def Scope.Sound : Scope → Prop
  | .block x => ∀ s ∈ x.init, s.Sound
  | .branch i => (∀ s ∈ i.thenCase, s.Sound) ∧ ∀ s ∈ i.elseCase, s.Sound
  | .wrap w => ∀ body : Stmt, body.Sound → (Head.wrap w.heads body).Sound
  | .func _ | .blockInit | .thenCase | .elseCase => True

def Product.Sound : Product → Prop
  | .stmts ss => ∀ s ∈ ss, s.Sound
  | .func f => f.body.Sound
  | .blockInit s | .thenCase s | .elseCase s => s.Sound

/-- The statement of an output, or the body of its function. -/
def Output.body : Output → Stmt
  | .func f => f.body
  | .stmt s => s

/-- All statements that a session has made so far are as they should be. -/
structure Builder.Sound (b : Builder) : Prop where
  scopes : ∀ f ∈ b.frames, f.scope.Sound
  stmts : ∀ f ∈ b.frames, ∀ s ∈ f.stmts, s.Sound
  result : ∀ r ∈ b.result, r.body.Sound

namespace Expr

@[simp]
theorem dtype_castTo (d : DataType) (e : Expr) : (e.castTo d).dtype = d := by
  rw [castTo]
  split
  · assumption
  · rfl

@[simp]
theorem dtype_asIndex (d : DataType) (e : Expr) : (e.asIndex d).dtype = d := by
  cases e with
  | int v _ => rfl
  | _ => exact dtype_castTo d _

/-- A difference has the type of what is subtracted from. -/
theorem dtype_subFolded {a b e : Expr} (h : a.subFolded b = .ok e) : e.dtype = a.dtype := by
  simp only [subFolded] at h
  split at h
  · rename_i x d y d'
    cases hs : subExact x y with
    | error o => simp [hs] at h
    | ok z =>
        simp only [hs, ok_bind, pure_eq_ok, Except.ok.injEq] at h
        rw [← h]
        rfl
  · simp only [pure_eq_ok, Except.ok.injEq] at h
    rw [← h]
    split <;> rfl
  · cases h
    rfl

end Expr

theorem LoopMode.node_ok (mode : LoopMode) {v : Var} {min extent : Expr} (m : Annotations)
    (hmin : min.dtype = v.dtype) (hext : extent.dtype = v.dtype) :
    (mode.node v min extent m).Ok := by
  cases mode with
  | thread tag =>
      refine ⟨hmin, hext, by simp [node], ?_⟩
      intro t ht
      cases ht
      exact ⟨rfl, rfl, rfl⟩
  | serial | parallel | vectorized | unrolled =>
      exact ⟨hmin, hext, by simp [node], fun t ht => by cases ht⟩

namespace ConstantData

/-- The elements of an array are counted only if no extent is negative. -/
theorem sizeFrom_eq_ok {size n : Int64} {ds : List Int64} (h : sizeFrom size ds = .ok n) :
    (∀ d ∈ ds, 0 ≤ d.toInt) ∧ n.toInt = size.toInt * (ds.map Int64.toInt).prod := by
  induction ds generalizing size with
  | nil =>
      cases h
      simp
  | cons d ds ih =>
      rw [sizeFrom] at h
      split at h
      · cases h
      · rename_i hd
        cases hm : mulExact? size d with
        | none => simp [hm] at h
        | some size' =>
            rw [hm] at h
            obtain ⟨hds, hn⟩ := ih h
            rw [mulExact?_eq_some_iff] at hm
            constructor
            · intro x hx
              obtain rfl | hx := List.mem_cons.1 hx
              · omega
              · exact hds x hx
            · rw [hn, hm, List.map_cons, List.prod_cons, Int.mul_assoc]

theorem fills_of_check {data : ConstantData} {dtype : DataType} {extents : List Expr} {u : Unit}
    (h : data.check dtype extents = .ok u) : data.Fills dtype extents := by
  rw [check] at h
  cases hc : data.checkCount extents with
  | error e => simp [hc] at h
  | ok u' =>
      simp only [hc, ok_bind] at h
      split at h
      · rename_i hf
        refine ⟨hf, ?_⟩
        intro dims hd
        rw [checkCount, hd] at hc
        cases hz : sizeFrom 1 dims with
        | error e => simp [hz] at hc
        | ok size =>
            obtain ⟨hds, hn⟩ := sizeFrom_eq_ok hz
            simp only [hz, ok_bind] at hc
            split at hc
            · rename_i hl
              refine ⟨hds, ?_⟩
              rw [← hl, hn]
              simp
            · cases hc
      · cases h

end ConstantData

namespace Opening

variable {b : Builder} {s s' : Supply}

/-- The buffer of an allocation lies behind a pointer of its own, which tells the storage scope. -/
theorem allocation_eq_ok {extents : List Expr} {dtype : DataType} {scope : String}
    {buffer : Buffer} (h : allocation extents dtype scope s = .ok (buffer, s')) :
    buffer.dtype = dtype ∧ buffer.data.typeHint = some (.pointer dtype scope) := by
  rw [allocation, Attempt.declare_eq_ok, Buffer.declare] at h
  cases hc : BufferOptions.check { name := "buf", scope } extents.length with
  | error e => simp [hc] at h
  | ok kind =>
      simp only [hc, ok_bind, pure_eq_ok, Except.ok.injEq, Prod.mk.injEq] at h
      obtain ⟨rfl, -⟩ := h
      exact ⟨rfl, rfl⟩

theorem scope_allocate {extents : List Expr} {dtype : DataType} {scope : String}
    {condition : Option Expr} {annotations : Option Annotations} {x : Scope} {buffer : Buffer}
    (h : (allocate extents dtype scope condition annotations).scope b s =
      .ok ((x, .buffer buffer), s')) :
    extents ≠ [] ∧ buffer.dtype = dtype ∧
      buffer.data.typeHint = some (.pointer dtype (b.storageScopeOr scope)) := by
  obtain ⟨he, buffer, ha, hv, -⟩ := scope_allocate_eq_ok h
  cases hv
  exact ⟨he, allocation_eq_ok ha⟩

theorem scope_allocateConst {data : ConstantData} {dtype : DataType} {extents : List Expr}
    {annotations : Option Annotations} {x : Scope} {buffer : Buffer}
    (h : (allocateConst data dtype extents annotations).scope b s =
      .ok ((x, .buffer buffer), s')) :
    data.Fills dtype extents ∧ buffer.dtype = dtype ∧
      buffer.data.typeHint = some (.pointer dtype b.config.storageScope) := by
  obtain ⟨⟨u, hc⟩, buffer, ha, hv, -⟩ := scope_allocateConst_eq_ok h
  cases hv
  exact ⟨ConstantData.fills_of_check hc, allocation_eq_ok ha⟩

/-- One head that demands nothing of its place. -/
theorem wrap_sound {w : Wrapper} {head : Head} (hw : w.heads = [head]) (h : head.Ok []) :
    (Scope.wrap w).Sound := by
  intro body hb
  refine Stmt.sound_wrap ?_ hb
  intro head' hh
  obtain rfl := List.mem_singleton.1 (hw ▸ hh)
  exact h

theorem scope_sound {o : Opening} {v : Value} {x : Scope}
    (h : o.scope b s = .ok ((x, v), s')) : x.Sound := by
  have hm := scope_makes h
  cases hm with
  | primFunc _ _ | blockInit _ _ | thenCase _ _ | elseCase _ _ _ => trivial
  | block name bare =>
      intro s hs
      cases hs
  | branch condition =>
      constructor
      · intro s hs
        cases hs
      · intro s hs
        cases hs
  | loop mode start stop annotations type length =>
      apply wrap_sound rfl
      exact mode.node_ok _ (Expr.dtype_asIndex _ _)
        ((Expr.dtype_subFolded length).trans (Expr.dtype_asIndex _ _))
  | grid extents length =>
      intro body hb
      refine Stmt.sound_wrap ?_ hb
      intro head hh
      obtain ⟨n, hn, rfl⟩ := List.getElem_of_mem hh
      rw [List.getElem_zipWith]
      exact LoopMode.serial.node_ok ∅ rfl (Expr.dtype_asIndex _ _)
  | whileLoop _ | bind _ _ | attr _ _ _ | launchThread _ _ _ _ => exact wrap_sound rfl trivial
  | assert condition message => exact wrap_sound rfl ⟨message, rfl⟩
  | allocate extents dtype scope condition annotations buffer =>
      obtain ⟨he, hd, hp⟩ := scope_allocate h
      exact wrap_sound rfl ⟨he, _, hd ▸ hp⟩
  | allocateConst data dtype extents annotations buffer =>
      obtain ⟨hf, hd, hp⟩ := scope_allocateConst h
      exact wrap_sound rfl ⟨⟨_, hd ▸ hp⟩, hd ▸ hf⟩
  | realize region scope condition ranks _ =>
      intro body hb
      exact Stmt.sound_realize ranks hb

end Opening

namespace Stmt

theorem sound_leaf {l : Leaf} (h : l.Ok) : (leaf l).Sound :=
  .node h (by simp [children])

end Stmt

theorem Call.append_sound {b : Builder} {c : Call} {v : Value} {st : Stmt} {s s' : Supply}
    (h : c.effect b s = .ok ((.append st, v), s')) : st.Sound := by
  have hd := effect_does h
  have rank {op what : String} {n : Nat} {buffer : Buffer} {u : Unit}
      (hc : checkRank op what n buffer = .ok u) : n = buffer.rank := by
    rw [checkRank] at hc
    split at hc
    · assumption
    · cases hc
  cases hd with
  | evaluate value => exact Stmt.sound_leaf trivial
  | store buffer value indices =>
      simp only [effect, Attempt.bind_eq_ok, Attempt.check_eq_ok] at h
      obtain ⟨_, _, ⟨hc, -⟩, -⟩ := h
      exact Stmt.sound_leaf ⟨rank hc, Expr.dtype_castTo _ _⟩
  | prefetch buffer bounds =>
      simp only [effect, Attempt.bind_eq_ok, Attempt.check_eq_ok] at h
      obtain ⟨_, _, ⟨hc, -⟩, -⟩ := h
      exact Stmt.sound_leaf (rank hc)

theorem Scope.Refines.sound {x y : Scope} (h : x.Refines y) (hx : x.Sound) : y.Sound := by
  cases h with
  | block h =>
      intro s hs
      exact hx s (h ▸ hs)
  | func _ => trivial

/-- Values and iteration variables of a block come in pairs, and a bare block has neither. -/
theorem BlockScope.ok_of_realization {x : BlockScope} {r : Option Realization}
    (h : x.realization = .ok r) (init : Option Stmt) (body : Stmt) :
    (Stmt.block r x.head init body).Ok [] := by
  rw [realization] at h
  cases hb : x.bare with
  | false =>
      simp only [hb, Bool.false_eq_true, if_false, pure_eq_ok, Except.ok.injEq] at h
      subst h
      simp [Stmt.Ok, head]
  | true =>
      cases ha : x.axes with
      | cons a as => simp [hb, ha] at h
      | nil =>
          simp only [hb, ha, if_true, List.isEmpty_nil] at h
          split at h
          · cases h
            simp [Stmt.Ok, head, ha]
          · cases h

theorem Frame.close_sound {c : Config} {f : Frame} {p : Product} (hx : f.scope.Sound)
    (hs : ∀ s ∈ f.stmts, s.Sound) (h : f.close c = .ok p) : p.Sound := by
  have hc := close_closes h
  have hbody := Stmt.sound_sequence hs
  generalize f.scope = x at hx hc
  cases hc with
  | func _ =>
      simp only [Product.Sound]
      split
      · exact hbody
      · refine .node rfl ?_
        intro c hc
        obtain rfl := List.mem_singleton.1 hc
        exact hbody
  | @block x r bound =>
      intro s hs
      obtain rfl := List.mem_singleton.1 hs
      refine .node (BlockScope.ok_of_realization bound _ _) ?_
      intro c hc
      rw [Stmt.children, List.mem_append, List.mem_singleton, Option.mem_toList] at hc
      obtain hc | rfl := hc
      · exact hx c hc
      · exact hbody
  | @branch i s empty paired =>
      intro t ht
      obtain rfl := List.mem_singleton.1 ht
      refine .node trivial ?_
      intro c hc
      rw [Stmt.children, List.mem_cons, Option.mem_toList] at hc
      obtain rfl | hc := hc
      · exact hx.1 c paired
      · exact hx.2 c hc
  | blockInit | thenCase | elseCase => exact hbody
  | wrap w =>
      intro s hm
      rw [Wrapper.close] at hm
      split at hm
      · exact hs s hm
      · obtain rfl := List.mem_singleton.1 hm
        exact hx _ hbody

namespace Builder.Sound

variable {b b' : Builder}

theorem start (config : Config) : Sound { config } where
  scopes := by simp
  stmts := by simp
  result := by simp

theorem setTop {x y : Scope} (h : b.Sound) (ht : b.Top x) (hy : x.Sound → y.Sound) :
    (b.setTop y).Sound := by
  obtain ⟨f, fs, hf, rfl⟩ := ht
  constructor
  · intro g hg
    rw [frames_setTop hf, List.mem_cons] at hg
    obtain rfl | hg := hg
    · exact hy (h.scopes f (by simp [hf]))
    · exact h.scopes g (by simp [hf, hg])
  · intro g hg
    rw [frames_setTop hf, List.mem_cons] at hg
    obtain rfl | hg := hg
    · exact h.stmts f (by simp [hf])
    · exact h.stmts g (by simp [hf, hg])
  · rw [result_setTop]
    exact h.result

/-- A function holds no statement apart from those delivered to it. -/
theorem updateFunc {g : FuncScope → FuncScope} {fs : List Frame}
    (h : ∀ f ∈ fs, f.scope.Sound ∧ ∀ s ∈ f.stmts, s.Sound) :
    ∀ f ∈ Builder.updateFunc g fs, f.scope.Sound ∧ ∀ s ∈ f.stmts, s.Sound := by
  induction fs with
  | nil => exact h
  | cons f fs ih =>
      rw [List.forall_mem_cons] at h
      rw [Builder.updateFunc]
      split
      · exact List.forall_mem_cons.2 ⟨⟨trivial, h.1.2⟩, h.2⟩
      · exact List.forall_mem_cons.2 ⟨h.1, ih h.2⟩

theorem registerThread (h : b.Sound) (v : Var) (tag : String) :
    (b.registerThread v tag).Sound := by
  have hb : ∀ f ∈ b.frames, f.scope.Sound ∧ ∀ s ∈ f.stmts, s.Sound :=
    fun f hf => ⟨h.scopes f hf, h.stmts f hf⟩
  exact ⟨fun f hf => (updateFunc hb f hf).1, fun f hf => (updateFunc hb f hf).2, h.result⟩

theorem appended {s : Stmt} (h : b.Sound) (hs : s.Sound) (ha : b.appended s = .ok b') :
    b'.Sound := by
  rw [Builder.appended] at ha
  cases hf : b.frames with
  | cons f fs =>
      simp only [hf, Except.ok.injEq] at ha
      subst ha
      refine ⟨?_, ?_, h.result⟩
      · have hx := h.scopes
        rw [hf, List.forall_mem_cons] at hx
        exact List.forall_mem_cons.2 hx
      · have hx := h.stmts
        rw [hf, List.forall_mem_cons] at hx
        refine List.forall_mem_cons.2 ⟨?_, hx.2⟩
        intro t ht
        rw [List.mem_append, List.mem_singleton] at ht
        obtain ht | rfl := ht
        · exact hx.1 t ht
        · exact hs
  | nil =>
      simp only [hf] at ha
      cases hr : b.result with
      | none =>
          simp only [hr, Except.ok.injEq] at ha
          subst ha
          refine ⟨by simp, by simp, ?_⟩
          rintro r ⟨⟩
          exact hs
      | some r =>
          cases r with
          | func g => simp [hr] at ha
          | stmt r =>
              simp only [hr, Except.ok.injEq] at ha
              subst ha
              refine ⟨by simp, by simp, ?_⟩
              rintro o ⟨⟩
              refine Stmt.sound_sequence ?_
              intro t ht
              rw [List.mem_cons, List.mem_singleton] at ht
              obtain rfl | rfl := ht
              · exact h.result _ hr
              · exact hs

theorem appendedAll {ss : List Stmt} (h : b.Sound) (hs : ∀ s ∈ ss, s.Sound)
    (ha : b.appendedAll ss = .ok b') : b'.Sound := by
  induction ss generalizing b with
  | nil =>
      cases ha
      exact h
  | cons s ss ih =>
      rw [List.forall_mem_cons] at hs
      cases hb : b.appended s with
      | error e => simp [Builder.appendedAll, hb, Except.bind] at ha
      | ok b'' =>
          rw [Builder.appendedAll, hb] at ha
          exact ih (h.appended hs.1 hb) hs.2 ha

theorem delivered {p : Product} (h : b.Sound) (hp : p.Sound) (hd : b.delivered p = .ok b') :
    b'.Sound := by
  cases p with
  | stmts ss => exact h.appendedAll hp hd
  | func f =>
      obtain ⟨hf, -, rfl⟩ := delivered_func hd
      refine ⟨h.scopes, h.stmts, ?_⟩
      rintro r ⟨⟩
      exact hp
  | blockInit s =>
      obtain ⟨x, ht, rfl⟩ := delivered_blockInit hd
      refine h.setTop ht fun _ => ?_
      rintro t ⟨⟩
      exact hp
  | thenCase s =>
      obtain ⟨i, ht, rfl⟩ := delivered_thenCase hd
      refine h.setTop ht fun hx => ⟨?_, hx.2⟩
      rintro t ⟨⟩
      exact hp
  | elseCase s =>
      obtain ⟨i, ht, rfl⟩ := delivered_elseCase hd
      refine h.setTop ht fun hx => ⟨hx.1, ?_⟩
      rintro t ⟨⟩
      exact hp

/-- The innermost scope is gone, and the others are as they were. -/
theorem pop {f : Frame} {fs : List Frame} (h : b.Sound) (hf : b.frames = f :: fs) :
    Sound { b with frames := fs } where
  scopes g hg := h.scopes g (hf ▸ List.mem_cons_of_mem f hg)
  stmts g hg := h.stmts g (hf ▸ List.mem_cons_of_mem f hg)
  result := h.result

theorem took {e : Event} (h : b.Sound) (ht : e.Took b b') : b'.Sound := by
  cases e with
  | entered config => cases ht
  | opened id o v =>
      obtain ⟨x, s, s', hx, -, rfl⟩ := ht
      exact ⟨List.forall_mem_cons.2 ⟨Opening.scope_sound hx, h.scopes⟩,
        List.forall_mem_cons.2 ⟨by simp, h.stmts⟩, h.result⟩
  | called s c v =>
      obtain ⟨eff, s', he, hp⟩ := ht
      cases eff with
      | setTop y =>
          obtain ⟨x, ht, hr⟩ := (Call.effect_does he).refines
          cases hp
          exact h.setTop ht hr.sound
      | registerThread v tag =>
          cases hp
          exact h.registerThread v tag
      | append st => exact h.appended (Call.append_sound he) hp
  | closed id =>
      obtain ⟨f, fs, p, hf, -, hc, hd⟩ := ht
      have hm : f ∈ b.frames := by simp [hf]
      exact (h.pop hf).delivered (Frame.close_sound (h.scopes f hm) (h.stmts f hm) hc) hd
  | discarded id e =>
      obtain ⟨f, fs, hf, -, -, rfl⟩ := ht
      have hb := h.pop hf
      exact ⟨hb.scopes, hb.stmts, hb.result⟩
  | failed f =>
      obtain rfl := ht
      cases f <;> exact ⟨h.scopes, h.stmts, h.result⟩

end Builder.Sound

theorem Builder.Lived.sound {config : Config} {H : List Event} {b : Builder}
    (h : Lived config H b) : b.Sound := by
  induction h with
  | start => exact .start config
  | step past last ih => exact ih.took last.took

namespace Program

/-- Every statement in what a session gives back, at any depth and in whatever place, is put
together as its kind demands. -/
theorem output_well_formed {supply : Supply} {acts : List Action} {id : SessionId} {out : Output}
    (hid : id ∈ (run supply acts).sessions) (h : ((run supply acts).world.finish id).1 = .ok out)
    {around : List Stmt} {s : Stmt} (ho : out.body.Occurs around s) : s.Ok around := by
  obtain ⟨config, H, -, hl⟩ := lived_run hid
  obtain ⟨-, -, hr⟩ := Builder.finish_eq_ok h
  exact hl.sound.result out hr around s ho

/-- The first buffer of four floats that a program declares. -/
def firstBuffer : Buffer :=
  ⟨⟨0, "buffer", .handle, some (.pointer (.float 32) "global")⟩, .float 32, [.int32 4], [],
    .int32 0, "buffer", 64, 1, .default, []⟩

/-- A buffer realized around a nest of two loops, the inner one on a hardware thread, around two
statements, in a function that allocates. -/
def realizing : List Action := [.enter 0 {}, .openScope 0 .primFunc,
  .call 0 (.allocBuffer [.int32 4] (.float 32) {}),
  .openScope 0 (.realize firstBuffer.full "" none),
  .openScope 0 (.loop .serial (.int32 0) (.int64 4) none),
  .openScope 0 (.loop (.thread "threadIdx.x") (.int32 1) (.int32 4) none),
  .call 0 (.evaluate (.int32 1)), .call 0 (.store firstBuffer (.int32 1) [.int32 0]),
  .close ⟨0, 3, .loops⟩, .close ⟨0, 2, .loops⟩, .drop ⟨0, 1, .realize⟩, .close ⟨0, 0, .primFunc⟩]

theorem output_well_formed_realizing :
    ∃ out, ((run .counting realizing).world.finish 0).1 = .ok out ∧
      ∀ around s, out.body.Occurs around s → s.Ok around := by
  have hid : 0 ∈ (run .counting realizing).sessions := by decide
  obtain ⟨out, h⟩ : ∃ out, ((run .counting realizing).world.finish 0).1 = .ok out := ⟨_, rfl⟩
  exact ⟨out, h, fun around s ho => output_well_formed hid h ho⟩

end Program

end TensorProgram
