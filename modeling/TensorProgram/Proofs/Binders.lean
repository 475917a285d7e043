import TensorProgram.Proofs.Interleaving
import TensorProgram.Proofs.Listing

/-!
Binders. A loop binds its variable and a block those of its axes. Every binder in what a session
has made so far comes from one event of its history, and from each event come as many as it has
minted: nothing is lost, and nothing doubled, when scopes close into statements.
-/

namespace TensorProgram

def Head.binders : Head → List VarId
  | .loop l => [l.var.id]
  | _ => []

mutual

/-- The identities of the variables of all loops and of all axes of blocks. -/
def Stmt.binders : Stmt → List VarId
  | .seq ss => Stmt.bindersList ss
  | .block _ x init body =>
      x.iterVars.map (·.var.id) ++ Stmt.bindersOption init ++ body.binders
  | .branch _ s e => s.binders ++ Stmt.bindersOption e
  | .under h s => h.binders ++ s.binders
  | .leaf _ => []
termination_by structural s => s

def Stmt.bindersList : List Stmt → List VarId
  | [] => []
  | s :: ss => s.binders ++ Stmt.bindersList ss
termination_by structural ss => ss

def Stmt.bindersOption : Option Stmt → List VarId
  | none => []
  | some s => s.binders
termination_by structural s => s

end

/-- What the scope binds apart from the statements delivered to it. -/
def Scope.binders : Scope → List VarId
  | .block x => x.axes.map (·.1.var.id) ++ x.init.toList.flatMap Stmt.binders
  | .branch i => i.thenCase.toList.flatMap Stmt.binders ++ i.elseCase.toList.flatMap Stmt.binders
  | .wrap w => w.heads.flatMap Head.binders
  | .func _ | .blockInit | .thenCase | .elseCase => []

def Frame.binders (f : Frame) : List VarId := f.scope.binders ++ f.stmts.flatMap Stmt.binders

def Builder.binders (b : Builder) : List VarId :=
  b.frames.flatMap Frame.binders ++ b.result.toList.flatMap (·.body.binders)

namespace Listing

/-- The variables of loops and of axes. -/
def binders : Listing VarId where
  head _ h := h.binders
  axis a := [a.var.id]

theorem axes_binders (as : List IterVar) : as.flatMap binders.axis = as.map (·.var.id) :=
  List.map_eq_flatMap.symm

mutual

theorem stmt_binders (around : List Head) : (s : Stmt) → binders.stmt around s = s.binders
  | .seq ss => stmts_binders around ss
  | .block _ x init body => by
      rw [stmt, Stmt.binders, option_binders, stmt_binders around body, axes_binders]
  | .branch _ s e => by rw [stmt, Stmt.binders, option_binders, stmt_binders around s]
  | .under h s => congrArg (h.binders ++ ·) (stmt_binders (h :: around) s)
  | .leaf _ => rfl
termination_by structural s => s

theorem stmts_binders (around : List Head) :
    (ss : List Stmt) → binders.stmts around ss = Stmt.bindersList ss
  | [] => rfl
  | s :: ss => by rw [stmts, Stmt.bindersList, stmt_binders around s, stmts_binders around ss]
termination_by structural ss => ss

theorem option_binders (around : List Head) :
    (s : Option Stmt) → binders.option around s = Stmt.bindersOption s
  | none => rfl
  | some s => stmt_binders around s
termination_by structural s => s

end

theorem nest_binders (around hs : List Head) :
    binders.nest around hs = hs.flatMap Head.binders := by
  induction hs generalizing around with
  | nil => rfl
  | cons h hs ih => rw [nest, ih, List.flatMap_cons]; rfl

theorem builder_binders (b : Builder) : binders.builder b = b.binders := by
  have hs (around : List Head) : binders.stmt around = Stmt.binders :=
    funext (stmt_binders around)
  have hx (around : List Head) (x : Scope) : binders.scope around x = x.binders := by
    cases x with
    | block x => rw [scope, hs, Scope.binders, List.map_eq_flatMap]; rfl
    | branch i => rw [scope, hs, Scope.binders]
    | wrap w => exact nest_binders around w.heads
    | func _ | blockInit | thenCase | elseCase => rfl
  have hf (fs : List Frame) : binders.frames fs = fs.flatMap Frame.binders := by
    induction fs with
    | nil => rfl
    | cons f fs ih => rw [frames, ih, hs, hx, List.flatMap_cons, Frame.binders]
  rw [builder, hf, hs, Builder.binders]

end Listing

theorem Opening.binders_gridHeads {es : List Expr} {vs : List Var} (h : vs.length = es.length) :
    (List.zipWith gridHead es vs).flatMap Head.binders = vs.map Var.id := by
  induction es generalizing vs with
  | nil =>
      rw [List.length_eq_zero_iff.1 h]
      rfl
  | cons e es ih =>
      cases vs with
      | nil => cases h
      | cons v vs => simp [ih (Nat.succ.inj h), gridHead, Head.binders]

theorem Opening.Makes.binders {b : Builder} {o : Opening} {v : Value} {x : Scope}
    (h : o.Makes b v x) (id : Nat) :
    x.heads.flatMap Head.binders = (Event.opened id o v).binders := by
  cases h with
  | grid extents length => exact binders_gridHeads length
  | loop mode _ _ _ _ _ => simp [Scope.heads, Head.binders, Event.binders]
  | _ => rfl

theorem Event.Adds.binders {b : Builder} {hs : List Head} {as : List IterVar} {e : Event}
    (h : e.Adds b hs as) : hs.flatMap Head.binders ++ as.map (·.var.id) = e.binders := by
  cases e with
  | opened id o v =>
      obtain ⟨rfl, x, s, s', hx, rfl⟩ := h
      rw [(Opening.scope_makes hx).binders id, List.map_nil, List.append_nil]
  | called _ _ _ | entered _ | closed _ | discarded _ _ | failed _ =>
      obtain ⟨rfl, h⟩ := h
      exact h

theorem Event.Took.binders {b b' : Builder} {e : Event} (h : e.Took b b') (he : e.error? = none)
    (hs : Scope.Stacked (b.frames.map Frame.scope)) :
    b'.binders.Perm (b.binders ++ e.binders) := by
  obtain ⟨heads, axes, ha, hl⟩ := h.adds he hs
  have hb := hl Listing.binders
  rwa [Listing.builder_binders, Listing.builder_binders, Listing.nest_binders,
    Listing.axes_binders, ha.binders] at hb

/-- The binders are those of the history. -/
theorem Builder.Lived.binders {config : Config} {H : List Event} {b : Builder}
    (h : Lived config H b) (hc : H.findSome? Event.error? = none) :
    b.binders.Perm (H.flatMap Event.binders) := by
  induction h with
  | start => exact .refl _
  | @step H b e b' past last ih =>
      rw [List.findSome?_append, Option.or_eq_none_iff] at hc
      have hb := last.took.binders (by simpa using hc.2) past.stacked
      rw [List.flatMap_append, List.flatMap_singleton]
      exact hb.trans ((ih hc.1).append_right _)

/-- What an event binds it has minted. -/
theorem Event.binders_sublist (e : Event) : e.binders.Sublist e.minted := by
  cases e with
  | called s c v =>
      cases c with
      | argBuffer name x => exact List.nil_sublist _
      | envThread tag => exact List.nil_sublist _
      | _ => exact .refl _
  | _ => exact .refl _

namespace Program

theorem binders_nodup {supply : Supply} (hs : Function.Injective supply.stream)
    (acts : List Action) (id : SessionId) :
    (((run supply acts).history id).flatMap Event.binders).Nodup := by
  refine (minted_nodup hs acts id).sublist ?_
  generalize (run supply acts).history id = H
  induction H with
  | nil => exact .slnil
  | cons e H ih => exact e.binders_sublist.append ih

end Program

end TensorProgram
