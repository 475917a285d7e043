import TensorProgram.Proofs.Minting
import TensorProgram.Proofs.Replay
import TensorProgram.Proofs.WellFormed

/-!
Listings. Something is listed of statements, head by head and axis by axis. All that is listed of
what a session has made so far comes from the heads that its openings have made, each inside those
that were around it then, and from the axes that its calls have made: nothing is lost, and nothing
doubled, when scopes close into statements.
-/

namespace TensorProgram

/-- What is listed of a head inside other heads, innermost first, and what of an axis. -/
structure Listing (α : Type) where
  head : List Head → Head → List α
  axis : IterVar → List α

/-- The heads around what is inside the scope. -/
def Scope.inside (around : List Head) (x : Scope) : List Head := x.heads.reverse ++ around

namespace Frame

/-- The heads around what is done in the innermost scope, innermost first. -/
def around : List Frame → List Head
  | [] => []
  | f :: fs => f.scope.inside (around fs)

theorem around_congr {fs gs : List Frame} (h : gs.map Frame.scope = fs.map Frame.scope) :
    around gs = around fs := by
  induction fs generalizing gs with
  | nil => rw [List.map_eq_nil_iff.1 h]
  | cons f fs ih =>
      cases gs with
      | nil => cases h
      | cons g gs =>
          rw [List.map_cons, List.map_cons, List.cons.injEq] at h
          rw [around, around, ih h.2, h.1]

end Frame

namespace Listing

section

variable {α : Type} (L : Listing α)

/-- Heads one inside the other, outermost first. -/
def nest (around : List Head) : List Head → List α
  | [] => []
  | h :: hs => L.head around h ++ nest (h :: around) hs

mutual

/-- A statement that lies inside `around`. -/
def stmt (around : List Head) : Stmt → List α
  | .seq ss => stmts around ss
  | .block _ x init body => x.iterVars.flatMap L.axis ++ option around init ++ stmt around body
  | .branch _ s e => stmt around s ++ option around e
  | .under h s => L.head around h ++ stmt (h :: around) s
  | .leaf _ => []
termination_by structural s => s

def stmts (around : List Head) : List Stmt → List α
  | [] => []
  | s :: ss => stmt around s ++ stmts around ss
termination_by structural ss => ss

def option (around : List Head) : Option Stmt → List α
  | none => []
  | some s => stmt around s
termination_by structural s => s

end

/-- A scope apart from the statements delivered to it. -/
def scope (around : List Head) : Scope → List α
  | .block x => x.axes.flatMap (fun a => L.axis a.1) ++ x.init.toList.flatMap (L.stmt around)
  | .branch i => i.thenCase.toList.flatMap (L.stmt around) ++
      i.elseCase.toList.flatMap (L.stmt around)
  | .wrap w => L.nest around w.heads
  | .func _ | .blockInit | .thenCase | .elseCase => []

def frames : List Frame → List α
  | [] => []
  | f :: fs => L.scope (Frame.around fs) f.scope ++
      f.stmts.flatMap (L.stmt (f.scope.inside (Frame.around fs))) ++ frames fs

/-- All that a session has made so far. -/
def builder (b : Builder) : List α :=
  L.frames b.frames ++ b.result.toList.flatMap fun out => L.stmt [] out.body

def product (around : List Head) : Product → List α
  | .stmts ss => ss.flatMap (L.stmt around)
  | .func f => L.stmt around f.body
  | .blockInit s | .thenCase s | .elseCase s => L.stmt around s

variable (around : List Head)

@[simp]
theorem stmts_eq (ss : List Stmt) : L.stmts around ss = ss.flatMap (L.stmt around) := by
  induction ss with
  | nil => rfl
  | cons s ss ih => rw [stmts, ih, List.flatMap_cons]

@[simp]
theorem option_eq (s : Option Stmt) :
    L.option around s = s.toList.flatMap (L.stmt around) := by
  cases s <;> simp [option]

theorem stmt_members (s : Stmt) : s.members.flatMap (L.stmt around) = L.stmt around s := by
  cases s <;> simp [Stmt.members, stmt]

theorem stmt_sequence (ss : List Stmt) :
    L.stmt around (.sequence ss) = ss.flatMap (L.stmt around) := by
  have hm : (ss.flatMap Stmt.members).flatMap (L.stmt around) = ss.flatMap (L.stmt around) := by
    rw [List.flatMap_assoc]
    exact congrArg ss.flatMap (funext (L.stmt_members around))
  rw [Stmt.sequence, ← hm]
  split
  · rename_i he
    rw [he]
    rfl
  · rename_i s he
    simp [he]
  · rename_i s t r he
    rw [he, stmt, stmts_eq]

theorem stmt_wrap (hs : List Head) (s : Stmt) :
    L.stmt around (Head.wrap hs s) = L.nest around hs ++ L.stmt (hs.reverse ++ around) s := by
  induction hs generalizing around with
  | nil => rfl
  | cons h hs ih =>
      have hw : Head.wrap (h :: hs) s = .under h (Head.wrap hs s) := rfl
      rw [hw, stmt, ih, nest, List.reverse_cons, List.append_assoc, List.append_assoc]
      rfl

/-- Closing a scope leaves everything in its place. -/
theorem product_of_closes {c : Config} {ss : List Stmt} {x : Scope} {p : Product}
    (h : x.Closes c ss p) :
    L.product around p = L.scope around x ++ ss.flatMap (L.stmt (x.inside around)) := by
  cases h with
  | func _ =>
      simp only [product, scope, Scope.inside, Scope.heads, List.reverse_nil, List.nil_append]
      split
      · exact L.stmt_sequence around ss
      · simp [FuncScope.rootBlock, stmt, stmt_sequence]
  | block _ =>
      simp [product, scope, Scope.inside, Scope.heads, stmt, stmt_sequence, BlockScope.head,
        List.flatMap_map]
  | blockInit | thenCase | elseCase =>
      simp [product, scope, Scope.inside, Scope.heads, stmt_sequence]
  | branch empty paired => simp [product, scope, stmt, empty, paired]
  | wrap w =>
      simp only [product, scope, Scope.inside, Scope.heads, Wrapper.close]
      split
      · rename_i he
        rw [List.isEmpty_iff.1 he]
        rfl
      · simp [stmt_wrap, stmt_sequence]

variable {b b' : Builder}

theorem builder_push {o : Opening} {v : Value} {x : Scope} (h : o.Makes b v x) :
    L.builder (b.push x) = L.nest (Frame.around b.frames) x.heads ++ L.builder b := by
  have hx : L.scope (Frame.around b.frames) x = L.nest (Frame.around b.frames) x.heads := by
    cases h <;> rfl
  simp [builder, Builder.push, frames, hx]

theorem builder_setTop {x y : Scope} (new : List α) (ht : b.Top x) (hx : x.heads = [])
    (hy : y.heads = []) (h : (L.scope (Frame.around b.frames) y).Perm
      (L.scope (Frame.around b.frames) x ++ new)) :
    (L.builder (b.setTop y)).Perm (L.builder b ++ new) := by
  classical
  obtain ⟨f, fs, hf, rfl⟩ := ht
  have ha : Frame.around b.frames = Frame.around fs := by
    simp [hf, Frame.around, Scope.inside, hx]
  rw [ha] at h
  rw [List.perm_iff_count] at h ⊢
  intro n
  have hn := h n
  simp only [builder, Builder.frames_setTop hf, Builder.result_setTop, hf, frames, Scope.inside,
    hx, hy, List.count_append] at hn ⊢
  omega

theorem builder_registerThread (v : Var) (tag : String) :
    L.builder (b.registerThread v tag) = L.builder b := by
  have hr (fs : List Frame) (g : FuncScope → FuncScope) :
      Frame.around (Builder.updateFunc g fs) = Frame.around fs ∧
        L.frames (Builder.updateFunc g fs) = L.frames fs := by
    induction fs with
    | nil => exact ⟨rfl, rfl⟩
    | cons f fs ih =>
        cases hs : f.scope with
        | func x =>
            simp [Builder.updateFunc, hs, Frame.around, frames, scope, Scope.inside, Scope.heads]
        | block _ | blockInit | branch _ | thenCase | elseCase | wrap _ =>
            simp only [Builder.updateFunc, hs, Frame.around, frames, ih, and_self]
  simp only [builder, Builder.registerThread, hr]

theorem builder_appended {s : Stmt} (h : b.appended s = .ok b') :
    (L.builder b').Perm (L.builder b ++ L.stmt (Frame.around b.frames) s) := by
  classical
  rw [List.perm_iff_count]
  intro n
  rw [Builder.appended] at h
  cases hf : b.frames with
  | cons f fs =>
      simp only [hf, Except.ok.injEq] at h
      subst h
      simp only [builder, hf, frames, Frame.around, List.flatMap_append, List.flatMap_cons,
        List.flatMap_nil, List.count_append, List.count_nil]
      omega
  | nil =>
      simp only [hf] at h
      cases hr : b.result with
      | none =>
          simp only [hr, Except.ok.injEq] at h
          subst h
          simp [builder, hf, hr, Output.body, frames, Frame.around]
      | some out =>
          cases out with
          | func g => simp [hr] at h
          | stmt r =>
              simp only [hr, Except.ok.injEq] at h
              subst h
              simp [builder, hf, hr, Output.body, stmt_sequence, frames, Frame.around]

theorem builder_appendedAll {ss : List Stmt} (h : b.appendedAll ss = .ok b') :
    (L.builder b').Perm (L.builder b ++ ss.flatMap (L.stmt (Frame.around b.frames))) := by
  induction ss generalizing b with
  | nil =>
      cases h
      simp
  | cons s ss ih =>
      cases hs : b.appended s with
      | error e => simp [Builder.appendedAll, hs, Except.bind] at h
      | ok b'' =>
          rw [Builder.appendedAll, hs] at h
          have hr := ih h
          rw [Frame.around_congr (Scope.scopes_appended hs)] at hr
          refine hr.trans ?_
          rw [List.flatMap_cons, ← List.append_assoc]
          exact (L.builder_appended hs).append_right _

/-- What a product is to fill has been empty until then. -/
theorem builder_delivered {p : Product} (hs : p.SitsOn (b.frames.map Frame.scope))
    (h : b.delivered p = .ok b') :
    (L.builder b').Perm (L.builder b ++ L.product (Frame.around b.frames) p) := by
  cases p with
  | stmts ss => exact L.builder_appendedAll h
  | func f =>
      obtain ⟨hf, hr, rfl⟩ := Builder.delivered_func h
      simp [builder, hf, hr, Output.body, product, Frame.around]
  | blockInit s =>
      obtain ⟨x, ht, rfl⟩ := Builder.delivered_blockInit h
      have hx : x.init = none := by
        obtain ⟨f, fs, hf, hx⟩ := ht
        simpa [Product.SitsOn, Scope.SitsOn, hf, hx] using hs
      refine L.builder_setTop _ ht rfl rfl ?_
      simp [scope, hx, product]
  | thenCase s =>
      obtain ⟨i, ht, rfl⟩ := Builder.delivered_thenCase h
      have hi : i.thenCase = none ∧ i.elseCase = none := by
        obtain ⟨f, fs, hf, hx⟩ := ht
        simpa [Product.SitsOn, Scope.SitsOn, hf, hx] using hs
      refine L.builder_setTop _ ht rfl rfl ?_
      simp [scope, hi, product]
  | elseCase s =>
      obtain ⟨i, ht, rfl⟩ := Builder.delivered_elseCase h
      have hi : i.elseCase = none := by
        obtain ⟨f, fs, hf, hx⟩ := ht
        have hi : i.thenCase.isSome ∧ i.elseCase = none := by
          simpa [Product.SitsOn, Scope.SitsOn, hf, hx] using hs
        exact hi.2
      refine L.builder_setTop _ ht rfl rfl ?_
      simp [scope, hi, product]

end

end Listing

/-- A call adds the axes that it has made. -/
theorem Call.Does.adds {b b' : Builder} {s : Supply} {c : Call} {v : Value} {eff : Effect}
    (h : c.Does b s v eff) (hp : b.performed eff = .ok b') :
    ∃ as : List IterVar, as.map (·.var.id) = (Event.called s c v).binders ∧
      ∀ {α : Type} (L : Listing α), (L.builder b').Perm (L.builder b ++ as.flatMap L.axis) := by
  cases h with
  | store _ _ _ | prefetch _ _ | evaluate _ =>
      refine ⟨[], rfl, fun L => ?_⟩
      simpa [Stmt.store, Stmt.prefetch, Stmt.evaluate, Listing.stmt] using L.builder_appended hp
  | envThread w =>
      cases hp
      refine ⟨[], rfl, fun L => ?_⟩
      rw [L.builder_registerThread]
      simp
  | guard _ top _ | reads _ top _ | writes _ top _ | blockAttrs _ top _
  | allocInBlock _ _ _ _ top | matchRegion _ _ _ _ _ top | allocInFunc _ _ _ _ top
  | matchParam _ _ _ _ _ top _ | preflattened _ _ _ _ _ top _ _ | argVar _ _ top
  | argBuffer _ _ top | funcName _ top _ | funcAttrs _ top _ | funcRet _ top _ =>
      cases hp
      refine ⟨[], rfl, fun L => L.builder_setTop _ top rfl rfl ?_⟩
      simp [Listing.scope]
  | axis kind dom binding dtype w top =>
      cases hp
      refine ⟨[.axis dom w kind.iterKind], rfl, fun L => L.builder_setTop _ top rfl rfl ?_⟩
      simp only [Listing.scope, List.flatMap_append, List.flatMap_cons, List.flatMap_nil,
        List.append_nil, List.append_assoc]
      exact (List.perm_append_comm).append_left _
  | @remap kinds bindings dtype axes _ _ top made =>
      cases hp
      refine ⟨axes.map Prod.fst, by simp [Event.binders, Function.comp_def],
        fun L => L.builder_setTop _ top rfl rfl ?_⟩
      simp only [Listing.scope, List.flatMap_append, List.flatMap_map, List.append_assoc]
      exact (List.perm_append_comm).append_left _

/-- The heads and the axes that an event makes. -/
def Event.Adds (b : Builder) (hs : List Head) (as : List IterVar) : Event → Prop
  | .opened _ o v => as = [] ∧ ∃ x s s', o.scope b s = .ok ((x, v), s') ∧ hs = x.heads
  | e => hs = [] ∧ as.map (·.var.id) = e.binders

/-- What a step adds to what is listed it makes in the innermost scope. -/
theorem Event.Took.adds {b b' : Builder} {e : Event} (h : e.Took b b') (he : e.error? = none)
    (hs : Scope.Stacked (b.frames.map Frame.scope)) : ∃ hs as, e.Adds b hs as ∧
      ∀ {α : Type} (L : Listing α), (L.builder b').Perm
        (L.builder b ++ (L.nest (Frame.around b.frames) hs ++ as.flatMap L.axis)) := by
  cases e with
  | entered config => cases h
  | discarded id e => cases he
  | failed f =>
      cases f with
      | refused e => cases he
      | overflow o =>
          obtain rfl := h
          exact ⟨[], [], ⟨rfl, rfl⟩, fun L => by simp [Listing.nest]⟩
  | opened id o v =>
      obtain ⟨x, s, s', hx, -, rfl⟩ := h
      refine ⟨x.heads, [], ⟨rfl, x, s, s', hx, rfl⟩, fun L => ?_⟩
      rw [L.builder_push (Opening.scope_makes hx), List.flatMap_nil, List.append_nil]
      exact List.perm_append_comm
  | called s c v =>
      obtain ⟨eff, s', he, hp⟩ := h
      obtain ⟨as, ha, hl⟩ := (Call.effect_does he).adds hp
      exact ⟨[], as, ⟨rfl, ha⟩, hl⟩
  | closed id =>
      obtain ⟨f, fs, p, hf, -, hc, hd⟩ := h
      have hp := Frame.close_closes hc
      rw [hf] at hs
      refine ⟨[], [], ⟨rfl, rfl⟩, fun L => ?_⟩
      have hb := L.builder_delivered (hp.sitsOn hs.1) hd
      rw [L.product_of_closes _ hp] at hb
      refine hb.trans ?_
      classical
      rw [List.perm_iff_count]
      intro n
      simp only [Listing.builder, hf, Listing.frames, Listing.nest, List.flatMap_nil,
        List.count_append, List.count_nil]
      omega

end TensorProgram
