import Mathlib.Data.List.Nodup
import Mathlib.Data.List.Pairwise
import TensorProgram.Proofs.Effects
import TensorProgram.Proofs.History

/-!
Minting. The supply of identities only ever moves forward, whatever an operation comes to, and
the identities that an operation gives to loops, axes, handles and threads are handed out while
it runs, one after the other. A supply that does not repeat itself thus hands out each identity
of a history once.
-/

namespace TensorProgram

namespace Supply

/-- On the way from `s` to `s'` the identities `ids` have been handed out, in this order, and maybe
others too. -/
structure Mints (s : Supply) (ids : List VarId) (s' : Supply) : Prop where
  stream : s'.stream = s.stream
  forward : s.used ≤ s'.used
  places : ∃ ns : List Nat, ids = ns.map s.stream ∧ ns.Pairwise (· < ·) ∧
    ∀ n ∈ ns, s.used ≤ n ∧ n < s'.used

variable {s s' s'' : Supply} {is js : List VarId}

theorem Mints.refl (s : Supply) : s.Mints [] s := ⟨rfl, Nat.le_refl _, [], rfl, .nil, by simp⟩

theorem Mints.trans (h : s.Mints is s') (h' : s'.Mints js s'') : s.Mints (is ++ js) s'' := by
  obtain ⟨hs, hf, ns, rfl, hp, hn⟩ := h
  obtain ⟨hs', hf', ms, rfl, hp', hm⟩ := h'
  refine ⟨hs'.trans hs, Nat.le_trans hf hf', ns ++ ms, by rw [hs, List.map_append], ?_, ?_⟩
  · rw [List.pairwise_append]
    refine ⟨hp, hp', ?_⟩
    intro n hn' m hm'
    exact Nat.lt_of_lt_of_le (hn n hn').2 (hm m hm').1
  · intro n hn'
    obtain hn' | hn' := List.mem_append.1 hn'
    · have := hn n hn'
      omega
    · have := hm n hn'
      omega

theorem Mints.forget (h : s.Mints is s') : s.Mints [] s' :=
  ⟨h.stream, h.forward, [], rfl, .nil, by simp⟩

theorem Mints.take (s : Supply) : s.Mints [s.take.1] s.take.2 := by
  refine ⟨rfl, Nat.le_succ _, [s.used], rfl, List.pairwise_singleton _ _, ?_⟩
  intro n hn
  obtain rfl := List.mem_singleton.1 hn
  exact ⟨Nat.le_refl _, Nat.lt_succ_self _⟩

theorem Mints.nodup (h : s.Mints is s') (hs : Function.Injective s.stream) : is.Nodup := by
  obtain ⟨-, -, ns, rfl, hp, -⟩ := h
  rw [List.Nodup, List.pairwise_map]
  refine hp.imp fun hlt he => ?_
  have := hs he
  omega

end Supply

/-! Buffers and single variables. -/

theorem Var.mints_fresh (name : String) (dtype : DataType) (s : Supply) :
    s.Mints [(Var.fresh name dtype s).1.id] (Var.fresh name dtype s).2 := .take s

theorem BufferOptions.mints_pointer (o : BufferOptions) (dtype : DataType) (s : Supply) :
    s.Mints [] (o.pointer dtype s).2 := by
  rw [pointer]
  split
  · exact .refl s
  · exact (Supply.Mints.take s).forget

theorem BufferOptions.mints_offset (o : BufferOptions) (s : Supply) :
    s.Mints [] (o.offset s).2 := by
  rw [offset]
  split
  · exact .refl s
  · split
    · exact .refl s
    · exact (Supply.Mints.take s).forget

theorem Buffer.mints_declare {shape : List Expr} {dtype : DataType} {o : BufferOptions}
    {s : Supply} {r : Buffer × Supply} (h : Buffer.declare shape dtype o s = .ok r) :
    s.Mints [] r.2 := by
  rw [declare] at h
  cases hc : o.check shape.length with
  | error e => simp [hc] at h
  | ok kind =>
      simp only [hc, ok_bind, pure_eq_ok, Except.ok.injEq] at h
      rw [← h]
      exact (o.mints_pointer dtype s).trans (o.mints_offset _)

/-! No computation takes the supply back. -/

namespace Attempt

variable {α β : Type}

def Forward (x : Attempt α) : Prop := ∀ s a s', x s = .ok (a, s') → s.Mints [] s'

theorem forward_pure (a : α) : Forward (pure a) := by
  intro s a' s' h
  cases pure_eq_ok.1 h
  exact .refl s

theorem Forward.bind {x : Attempt α} {f : α → Attempt β} (hx : Forward x)
    (hf : ∀ a, Forward (f a)) : Forward (x >>= f) := by
  intro s b s'' h
  obtain ⟨a, s', ha, hb⟩ := bind_eq_ok.1 h
  exact (hx s a s' ha).trans (hf a s' b s'' hb)

theorem forward_check (x : Except BuildError α) : Forward (check x) := by
  intro s a s' h
  obtain ⟨-, hs⟩ := check_eq_ok.1 h
  cases hs
  exact .refl _

theorem forward_exact (x : Except Overflow α) : Forward (exact x) := by
  intro s a s' h
  obtain ⟨-, hs⟩ := exact_eq_ok.1 h
  cases hs
  exact .refl _

theorem forward_refuse (e : BuildError) : Forward (refuse e : Attempt α) := by
  intro s a s' h
  cases h

theorem forward_fresh (name : String) (dtype : DataType) : Forward (fresh name dtype) := by
  intro s a s' h
  cases fresh_eq_ok.1 h
  exact (Var.mints_fresh name dtype s).forget

theorem forward_declare (shape : List Expr) (dtype : DataType) (o : BufferOptions) :
    Forward (declare shape dtype o) := by
  intro s a s' h
  exact Buffer.mints_declare (declare_eq_ok.1 h)

end Attempt

namespace Opening

open Attempt

theorem forward_singleLoop (b : Builder) (mode : LoopMode) (start stop : Expr)
    (annotations : Annotations) : Forward (singleLoop b mode start stop annotations) :=
  (forward_check _).bind fun _ => (forward_exact _).bind fun _ =>
    (forward_fresh _ _).bind fun _ => forward_pure _

theorem forward_gridLoops (b : Builder) (k : Nat) (es : List Expr) :
    Forward (gridLoops b k es) := by
  induction es generalizing k with
  | nil => exact forward_pure _
  | cons e es ih =>
      have hg : Forward (gridLoop b k e) := (forward_fresh _ _).bind fun _ => forward_pure _
      exact hg.bind fun _ => (ih (k + 1)).bind fun _ => forward_pure _

theorem forward_scope (b : Builder) (o : Opening) : Forward (o.scope b) := by
  cases o with
  | block _ _ | branch _ | whileLoop _ | bind _ _ | attr _ _ _ | assert _ _ => exact forward_pure _
  | primFunc | blockInit | thenCase | elseCase | launchThread _ _ | realize _ _ _ =>
      exact (forward_check _).bind fun _ => forward_pure _
  | loop mode start stop annotations =>
      exact (forward_singleLoop b mode start stop _).bind fun _ => forward_pure _
  | grid extents => exact (forward_gridLoops b 0 extents).bind fun _ => forward_pure _
  | allocate extents dtype scope condition annotations =>
      simp only [Opening.scope]
      split
      · exact forward_refuse _
      · exact (forward_declare _ _ _).bind fun _ => forward_pure _
  | allocateConst data dtype extents annotations =>
      exact (forward_check _).bind fun _ => (forward_declare _ _ _).bind fun _ => forward_pure _

end Opening

namespace Edit

variable {α β : Type}

def Forward (x : Edit α) : Prop := ∀ p : Builder × Supply, p.2.Mints [] (x p).2.2

theorem forward_pure (a : α) : Forward (pure a) := fun p => .refl p.2

theorem Forward.bind {x : Edit α} {f : α → Edit β} (hx : Forward x)
    (hf : ∀ a, Forward (f a)) : Forward (x >>= f) := by
  intro p
  have hp := hx p
  rw [bind_inPlace]
  generalize x p = r at hp ⊢
  obtain ⟨r, p'⟩ := r
  cases r with
  | error e => exact hp
  | ok a => exact hp.trans (hf a p')

theorem forward_get : Forward get := fun p => .refl p.2

theorem forward_change (x : Change α) : Forward (change x) := by
  intro ⟨b, s⟩
  rw [change]
  split <;> exact .refl s

theorem forward_look (f : Builder → Except BuildError α) : Forward (look f) := forward_change _

theorem forward_write (f : Builder → Builder) : Forward (write f) := forward_change _

theorem forward_refuse (e : BuildError) : Forward (refuse e : Edit α) := fun p => .refl p.2

theorem forward_attempt {x : Builder → Attempt α} (hx : ∀ b, (x b).Forward) :
    Forward (attempt x) := by
  intro ⟨b, s⟩
  rw [attempt_apply]
  split
  · rename_i a s' h
    exact hx b s a s' h
  · exact .refl s

theorem forward_fresh (name : String) (dtype : DataType) : Forward (fresh name dtype) :=
  forward_attempt fun _ => Attempt.forward_fresh name dtype

theorem Forward.ite {p : Prop} [Decidable p] {x y : Edit α} (hx : Forward x) (hy : Forward y) :
    Forward (if p then x else y) := by
  split
  · exact hx
  · exact hy

end Edit

namespace Call

open Edit

variable {α : Type}

theorem forward_setBlock (op field : String) (old : BlockScope → Option α)
    (set : BlockScope → BlockScope) : Forward (setBlock op field old set) :=
  (forward_look _).bind fun _ => .ite (forward_refuse _) (forward_write _)

theorem forward_setFunc (op : String) (old : FuncScope → Option α) (set : FuncScope → FuncScope) :
    Forward (setFunc op old set) :=
  (forward_look _).bind fun _ => .ite (forward_refuse _) (forward_write _)

theorem forward_own (buffer : Buffer) : Forward (own buffer) := by
  refine forward_get.bind fun p => ?_
  dsimp only
  split
  · exact forward_write _
  · exact forward_write _
  · exact forward_refuse _

theorem forward_matchTo (buffer : Buffer) (target : MatchTarget) :
    Forward (matchTo buffer target) := by
  cases target with
  | param v => exact (forward_look _).bind fun _ => .ite (forward_refuse _) (forward_write _)
  | region r => exact (forward_look _).bind fun _ => forward_write _

theorem forward_preflatten (of buffer : Buffer) : Forward (preflatten of buffer) := by
  refine (forward_look _).bind fun f => ?_
  split
  · exact forward_refuse _
  · exact .ite (forward_refuse _) (forward_write _)

theorem forward_addAxes (op : String) (as : List (IterVar × Expr)) : Forward (addAxes op as) := by
  induction as with
  | nil => exact forward_pure _
  | cons a as ih => exact (forward_look _).bind fun _ => (forward_write _).bind fun _ => ih

theorem forward_remapAxis (b : Builder) (dtype : Option DataType) (c : Char) (e : Expr) :
    (remapAxis b dtype c e).Forward := by
  rw [remapAxis]
  repeat' split
  · exact Attempt.forward_refuse _
  · exact Attempt.forward_refuse _
  · exact Attempt.forward_refuse _
  · exact (Attempt.forward_fresh _ _).bind fun _ => Attempt.forward_pure _

theorem forward_makeAxes (dtype : Option DataType) (ps : List (Char × Expr)) :
    Forward (makeAxes dtype ps) := by
  induction ps with
  | nil => exact forward_pure _
  | cons p ps ih =>
      exact (forward_attempt fun b => forward_remapAxis b dtype p.1 p.2).bind fun _ =>
        ih.bind fun _ => forward_pure _

theorem forward_run (c : Call) : Forward c.run := by
  have declares (f : Builder → BufferOptions) (shape : List Expr) (dtype : DataType) :
      Forward (attempt fun b => .declare shape dtype (f b)) :=
    forward_attempt fun b => Attempt.forward_declare shape dtype (f b)
  cases c with
  | guard _ | reads _ | writes _ | blockAttrs _ =>
      exact (forward_setBlock _ _ _ _).bind fun _ => forward_pure _
  | funcName _ | funcAttrs _ | funcRet _ =>
      exact (forward_setFunc _ _ _).bind fun _ => forward_pure _
  | allocBuffer shape dtype options =>
      exact (declares _ shape dtype).bind fun _ => (forward_own _).bind fun _ => forward_pure _
  | matchBuffer target shape dtype options =>
      exact (declares _ shape dtype).bind fun _ => (forward_matchTo _ _).bind fun _ =>
        forward_pure _
  | preflattenedBuffer of shape dtype options =>
      exact (declares _ shape dtype).bind fun _ => (forward_preflatten _ _).bind fun _ =>
        forward_pure _
  | argVar name v =>
      exact (forward_look _).bind fun _ => (forward_write _).bind fun _ => forward_pure _
  | argBuffer name buffer =>
      exact (forward_fresh _ _).bind fun _ => (forward_look _).bind fun _ =>
        (forward_write _).bind fun _ => (forward_write _).bind fun _ => forward_pure _
  | envThread tag =>
      refine forward_get.bind fun p => ?_
      exact .ite (forward_refuse _) <| (forward_fresh _ _).bind fun _ =>
        (forward_write _).bind fun _ => forward_pure _
  | store _ _ _ | prefetch _ _ =>
      exact (forward_look _).bind fun _ => (forward_change _).bind fun _ => forward_pure _
  | evaluate value => exact (forward_change _).bind fun _ => forward_pure _
  | axis kind dom binding dtype =>
      exact (forward_look _).bind fun _ => (forward_fresh _ _).bind fun _ =>
        (forward_addAxes _ _).bind fun _ => forward_pure _
  | remap kinds bindings dtype =>
      exact .ite (forward_refuse _) <| (forward_look _).bind fun _ =>
        (forward_makeAxes dtype _).bind fun _ =>
          (forward_addAxes _ _).bind fun _ => forward_pure _

theorem mints_unserved (c : Call) (s : Supply) : s.Mints [] (c.unserved s) := by
  cases c with
  | argBuffer name buffer => exact (Var.mints_fresh name .handle s).forget
  | _ => exact .refl s

end Call

/-- Lists without an element in common are those of different things. -/
theorem eq_of_nodup_flatMap {α β : Type} {l : List α} {f : α → List β} (h : (l.flatMap f).Nodup)
    {a b : α} (ha : a ∈ l) (hb : b ∈ l) {i : β} (hia : i ∈ f a) (hib : i ∈ f b) : a = b := by
  by_contra hne
  have : Std.Symm (Function.onFun List.Disjoint f) := ⟨fun _ _ h => List.disjoint_symm h⟩
  exact (List.nodup_flatMap.1 h).2.forall ha hb hne hia hib

namespace Event

/-- The identities of the variables that the event makes for loops and for axes of blocks. -/
def binders : Event → List VarId
  | .opened _ (.loop _ _ _ _) (.var v) => [v.id]
  | .opened _ (.grid _) (.vars vs) => vs.map Var.id
  | .called _ (.axis _ _ _ _) (.var v) => [v.id]
  | .called _ (.remap _ _ _) (.vars vs) => vs.map Var.id
  | _ => []

/-- The new identities of the event, those of buffers apart. A buffer that is an argument lies
behind a new handle. -/
def minted : Event → List VarId
  | .called s (.argBuffer name _) _ => [(Var.fresh name .handle s).1.id]
  | .called _ (.envThread _) (.var v) => [v.id]
  | e => e.binders

end Event

theorem Opening.mints_gridLoops {b : Builder} {k : Nat} {es : List Expr} {s s' : Supply}
    {loops : List (Var × Head)} (h : gridLoops b k es s = .ok (loops, s')) :
    s.Mints (loops.map fun l => l.1.id) s' := by
  induction es generalizing k s loops with
  | nil =>
      cases Attempt.pure_eq_ok.1 h
      exact .refl _
  | cons e es ih =>
      simp only [gridLoops, gridLoop, Attempt.bind_eq_ok, Attempt.pure_eq_ok,
        Attempt.fresh_eq_ok] at h
      obtain ⟨_, _, ⟨v, _, hv, hp⟩, rest, _, hr, h⟩ := h
      cases hp
      cases h
      cases hv
      exact (Var.mints_fresh _ _ _).trans (ih hr)

theorem Call.mints_remapAxes {b : Builder} {dtype : Option DataType} {ps : List (Char × Expr)}
    {axes : List (IterVar × Expr)} {s s' : Supply} (h : remapAxes b dtype ps s = .ok (axes, s')) :
    s.Mints (axes.map fun a => a.1.var.id) s' := by
  induction ps generalizing s axes with
  | nil =>
      cases Attempt.pure_eq_ok.1 h
      exact .refl _
  | cons p ps ih =>
      simp only [remapAxes, Attempt.bind_eq_ok, Attempt.pure_eq_ok] at h
      obtain ⟨a, s'', ha, as, _, has, h⟩ := h
      cases h
      obtain ⟨kind, v, dom, w, -, -, -, hw, rfl⟩ := remapAxis_eq_ok ha
      have hone : s.Mints [w.id] s'' := by
        cases hw
        exact Var.mints_fresh _ _ _
      exact hone.trans (ih has)

namespace Builder

variable {b b' : Builder} {s s' : Supply}

theorem forward_edit {α : Type} {x : Edit α} (hx : x.Forward) {r : Except Failure α}
    (h : b.edit s x = (r, b', s')) : s.Mints [] s' := by
  have hp := hx (b, s)
  rw [edit] at h
  cases hr : x (b, s) with
  | mk r' p =>
      rw [hr] at h hp
      cases r' with
      | error f => cases f <;> cases h <;> exact hp
      | ok a =>
          cases h
          exact hp

theorem forward_openScope {o : Opening} {r : Except Failure (Nat × ScopeKind × Value)}
    (h : b.openScope s o = (r, b', s')) : s.Mints [] s' := by
  rw [openScope] at h
  refine forward_edit ?_ h
  exact (Edit.forward_attempt fun b => o.forward_scope b).bind fun _ =>
    Edit.forward_get.bind fun _ => (Edit.forward_write _).bind fun _ => Edit.forward_pure _

theorem mints_openScope {o : Opening} {id : Nat} {kind : ScopeKind} {v : Value}
    (h : b.openScope s o = (.ok (id, kind, v), b', s')) :
    s.Mints (Event.opened id o v).minted s' := by
  obtain ⟨scope, hs, -⟩ := openScope_ok h
  have hf := Opening.forward_scope b o s _ s' hs
  cases o with
  | loop mode start stop annotations =>
      simp only [Opening.scope, Opening.singleLoop, Attempt.bind_eq_ok, Attempt.check_eq_ok,
        Attempt.exact_eq_ok, Attempt.fresh_eq_ok, Attempt.pure_eq_ok] at hs
      obtain ⟨_, _, ⟨_, _, ⟨-, rfl⟩, extent, _, ⟨-, rfl⟩, w, _, hw, hp⟩, hs⟩ := hs
      cases hp
      cases hs
      cases hw
      exact Var.mints_fresh _ _ _
  | grid extents =>
      simp only [Opening.scope, Attempt.bind_eq_ok, Attempt.pure_eq_ok] at hs
      obtain ⟨loops, _, hl, hs⟩ := hs
      cases hs
      simpa [Event.minted, Event.binders, Function.comp_def] using Opening.mints_gridLoops hl
  | _ => exact hf

theorem mints_call {c : Call} {v : Value} (h : b.call s c = (.ok v, b', s')) :
    s.Mints (Event.called s c v).minted s' := by
  have hf : s.Mints [] s' := forward_edit c.forward_run h
  obtain ⟨eff, he, -⟩ := call_ok h
  cases c with
  | argBuffer name buffer =>
      simp only [Call.effect, Attempt.bind_eq_ok, Attempt.check_eq_ok, Attempt.pure_eq_ok,
        Attempt.fresh_eq_ok] at he
      obtain ⟨p, _, hp, g, _, ⟨-, rfl⟩, he⟩ := he
      cases he
      cases hp
      exact Var.mints_fresh _ _ s
  | envThread tag =>
      simp only [Call.effect] at he
      split at he
      · cases he
      · simp only [Attempt.bind_eq_ok, Attempt.pure_eq_ok, Attempt.fresh_eq_ok] at he
        obtain ⟨p, _, hp, he⟩ := he
        cases he
        cases hp
        exact Var.mints_fresh _ _ s
  | axis kind dom binding dtype =>
      simp only [Call.effect, Attempt.bind_eq_ok, Attempt.check_eq_ok, Attempt.pure_eq_ok,
        Attempt.fresh_eq_ok] at he
      obtain ⟨x, _, ⟨-, rfl⟩, p, _, hp, he⟩ := he
      cases he
      cases hp
      exact Var.mints_fresh _ _ _
  | remap kinds bindings dtype =>
      simp only [Call.effect] at he
      split at he
      · cases he
      · simp only [Attempt.bind_eq_ok, Attempt.check_eq_ok, Attempt.pure_eq_ok] at he
        obtain ⟨x, _, ⟨-, rfl⟩, axes, _, ha, he⟩ := he
        cases he
        simpa [Event.minted, Event.binders, Function.comp_def] using Call.mints_remapAxes ha
  | _ => exact hf

end Builder

end TensorProgram
