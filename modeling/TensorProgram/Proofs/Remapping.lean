import Mathlib.Data.List.Forall2
import TensorProgram.Proofs.Hollow
import TensorProgram.Proofs.Lexical
import TensorProgram.Proofs.Tracking
import TensorProgram.Proofs.Views
import TensorProgram.Proofs.WellFormed

/-!
Remapping. A block gets one axis for each of a list of loop variables in one call, or none at all
if the list has a mistake in it, wherever that is. The axes are those that would have been made one
by one, over the domains of the loops and of the same types, but for the names of their variables.
-/

namespace TensorProgram

namespace Builder

/-- A loop over `v` is open. -/
def Loops (b : Builder) (v : Var) : Prop :=
  ∃ f ∈ b.frames, f.kind = .loops ∧ ∃ l, .loop l ∈ f.scope.heads ∧ l.var.id = v.id

/-- What is asked of a remapping: as many letters as bindings, a block to put the axes in, letters
that are known, and bindings that are variables of open loops. -/
structure Remappable (b : Builder) (kinds : String) (bindings : List Expr) : Prop where
  count : kinds.length = bindings.length
  block : ∃ x, b.Top (.block x)
  letters : ∀ c ∈ kinds.toList, c = 'S' ∨ c = 'R'
  loops : ∀ e ∈ bindings, ∃ v, e = .var v ∧ b.Loops v

/-- Of the open loops over `v`, `l` is the innermost one. -/
def Nearest (b : Builder) (v : Var) (l : Loop) : Prop :=
  ∃ inner outer, b.frames.flatMap (·.scope.heads) = inner ++ .loop l :: outer ∧
    l.var.id = v.id ∧ ∀ k, .loop k ∈ inner → k.var.id ≠ v.id

/-- The call makes one axis of a remapping alone: over the bounds of the innermost loop over the
variable, and with everything of the type that is given or else the variable's. -/
def Single (b : Builder) (dtype : Option DataType) (p : Char × Expr) (c : Call) : Prop :=
  ∃ kind v l min extent value,
    (p.1 = 'S' ∧ kind = .spatial ∨ p.1 = 'R' ∧ kind = .reduce) ∧
    p.2 = .var v ∧ b.Nearest v l ∧
    let d := dtype.getD v.dtype
    l.min.Brought d min ∧ l.extent.Brought d extent ∧ p.2.Brought d value ∧
    c = .axis kind ⟨min, extent⟩ value (some d)

end Builder

/-- The variable, the domain and the value of an axis are all of the type `d`. -/
def IterVar.OfType (a : IterVar) (value : Expr) (d : DataType) : Prop :=
  a.var.dtype = d ∧ value.dtype = d ∧
    ∃ dom, a.dom = some dom ∧ dom.min.dtype = d ∧ dom.extent.dtype = d

/-- An axis under another name. -/
def IterVar.named (name : String) (a : IterVar × Expr) : IterVar × Expr :=
  ({ a.1 with var := a.1.var.renamed name }, a.2)

theorem Expr.asVar?_eq_some {e : Expr} {v : Var} : e.asVar? = some v ↔ e = .var v := by
  cases e <;> simp [asVar?]

theorem AxisKind.ofChar?_eq_some {c : Char} {kind : AxisKind} (h : ofChar? c = some kind) :
    c = 'S' ∧ kind = .spatial ∨ c = 'R' ∧ kind = .reduce := by
  rw [ofChar?] at h
  split at h
  · exact .inl ⟨‹_›, (Option.some.inj h).symm⟩
  · split at h
    · exact .inr ⟨‹_›, (Option.some.inj h).symm⟩
    · cases h

theorem AxisKind.isSome_ofChar? {c : Char} : (ofChar? c).isSome ↔ c = 'S' ∨ c = 'R' := by
  rw [ofChar?]
  split
  · simp [*]
  · split <;> simp [*]

/-- A scope of loops was opened as one. -/
theorem Nest.Shows.kind_of_loop {c : Config} {xs : List Pending} {fs : List Frame}
    (h : Shows c xs fs) (hk : xs.map Pending.key = fs.map Frame.key) :
    ∀ f ∈ fs, ∀ l, .loop l ∈ f.scope.heads → f.kind = .loops := by
  induction xs generalizing fs with
  | nil => simp [h.frames_eq_nil]
  | cons x xs ih =>
      obtain ⟨f, fs, rfl⟩ := h.frames_eq_cons
      rw [List.map_cons, List.map_cons, List.cons.injEq] at hk
      refine List.forall_mem_cons.2 ⟨fun l hl => ?_, ih h.2.2.2 hk.2⟩
      have hf : x.opening.kind = f.kind := congrArg Prod.snd hk.1
      rw [h.2.1.heads] at hl
      rw [← hf]
      cases ho : x.opening with
      | loop _ _ _ _ | grid _ => rfl
      | _ => simp [ho, Opening.heads] at hl

namespace Builder

variable {b : Builder}

theorem isSome_loopDomain? (hb : ∀ f ∈ b.frames, ∀ l, .loop l ∈ f.scope.heads → f.kind = .loops)
    (v : Var) : (b.loopDomain? v).isSome ↔ b.Loops v := by
  simp only [loopDomain?, Loops, List.isSome_findSome?, List.any_eq_true]
  constructor
  · rintro ⟨f, hf, head, hh, hd⟩
    obtain ⟨dom, hd⟩ := Option.isSome_iff_exists.1 hd
    obtain ⟨l, rfl, hid, -⟩ := Head.loop_of_domain? hd
    exact ⟨f, hf, hb f hf l hh, l, hh, hid.symm⟩
  · rintro ⟨f, hf, -, l, hl, hid⟩
    exact ⟨f, hf, _, hl, by simp [Head.domain?, Var.same, hid]⟩

theorem nearest_of_loopDomain? {v : Var} {dom : Range} (h : b.loopDomain? v = some dom) :
    ∃ l, b.Nearest v l ∧ dom = ⟨l.min, l.extent⟩ := by
  rw [loopDomain?, Nest.findSome?_heads] at h
  obtain ⟨inner, head, outer, hb, hd, hi⟩ := List.findSome?_eq_some_iff.1 h
  obtain ⟨l, rfl, hid, rfl⟩ := Head.loop_of_domain? hd
  refine ⟨l, ⟨inner, outer, hb, hid.symm, fun k hk he => ?_⟩, rfl⟩
  simpa [Head.domain?, Var.same, he] using hi _ hk

theorem Nearest.loopDomain? {v : Var} {l : Loop} (h : b.Nearest v l) :
    b.loopDomain? v = some ⟨l.min, l.extent⟩ := by
  obtain ⟨inner, outer, hb, hid, hi⟩ := h
  rw [Builder.loopDomain?, Nest.findSome?_heads]
  refine List.findSome?_eq_some_iff.2 ⟨inner, _, outer, hb, ?_, fun head hh => ?_⟩
  · simp [Head.domain?, Var.same, hid]
  · cases head with
    | loop k => simp [Head.domain?, Var.same, hi k hh]
    | whileLoop _ | bind _ _ | allocate _ _ _ _ _ | allocateConst _ _ _ _ _ | attr _ _ _
    | assert _ _ | realize _ _ => rfl

/-- There is one such call at most. -/
theorem Single.unique {dtype : Option DataType} {p : Char × Expr} {c c' : Call}
    (h : b.Single dtype p c) (h' : b.Single dtype p c') : c = c' := by
  obtain ⟨kind, v, l, min, extent, value, hk, hv, hl, hmin, hextent, hvalue, rfl⟩ := h
  obtain ⟨kind', v', l', min', extent', value', hk', hv', hl', hmin', hextent', hvalue', rfl⟩ := h'
  obtain rfl : v = v' := Expr.var.inj (hv.symm.trans hv')
  have hdom := Option.some.inj (hl.loopDomain?.symm.trans hl'.loopDomain?)
  obtain ⟨hm, he⟩ := Range.mk.inj hdom
  have hkind : kind = kind' := by
    obtain ⟨hc, rfl⟩ | ⟨hc, rfl⟩ := hk <;> obtain ⟨hc', rfl⟩ | ⟨hc', rfl⟩ := hk' <;>
      simp_all
  rw [hkind, hmin.eq, hmin'.eq, hextent.eq, hextent'.eq, hvalue.eq, hvalue'.eq, hm, he]

end Builder

namespace Call

variable {b : Builder} {dtype : Option DataType} {s s' : Supply}

theorem remapAxis_ok_iff {c : Char} {e : Expr} :
    (∃ r, remapAxis b dtype c e s = .ok r) ↔
      (AxisKind.ofChar? c).isSome ∧ ∃ v, e = .var v ∧ (b.loopDomain? v).isSome := by
  constructor
  · rintro ⟨r, hr⟩
    obtain ⟨kind, v, dom, w, hk, hv, hd, -, -⟩ := remapAxis_eq_ok hr
    exact ⟨by simp [hk], v, Expr.asVar?_eq_some.1 hv, by simp [hd]⟩
  · rintro ⟨hk, v, rfl, hd⟩
    obtain ⟨kind, hk⟩ := Option.isSome_iff_exists.1 hk
    obtain ⟨dom, hd⟩ := Option.isSome_iff_exists.1 hd
    exact ⟨_, by simp only [remapAxis, hk, Expr.asVar?, hd]; rfl⟩

/-- A remapping succeeds if each of its axes does. -/
theorem remapAxes_ok_iff {ps : List (Char × Expr)} :
    (∃ r, remapAxes b dtype ps s = .ok r) ↔
      ∀ p ∈ ps, (AxisKind.ofChar? p.1).isSome ∧ ∃ v, p.2 = .var v ∧ (b.loopDomain? v).isSome := by
  induction ps generalizing s with
  | nil => exact ⟨by simp, fun _ => ⟨([], s), rfl⟩⟩
  | cons p ps ih =>
      simp only [remapAxes, Attempt.bind_eq_ok, Attempt.pure_eq_ok]
      rw [List.forall_mem_cons]
      constructor
      · rintro ⟨r, a, s₁, ha, as, s₂, has, -⟩
        exact ⟨remapAxis_ok_iff.1 ⟨_, ha⟩, ih.1 ⟨_, has⟩⟩
      · rintro ⟨hp, hps⟩
        obtain ⟨⟨a, s₁⟩, ha⟩ := remapAxis_ok_iff.2 hp
        obtain ⟨⟨as, s₂⟩, has⟩ := ih.2 hps
        exact ⟨_, a, s₁, ha, as, s₂, has, rfl⟩

/-- An axis of a remapping is the one that a call of its own makes, in any block. -/
theorem remapAxis_single {c : Char} {e : Expr} {a : IterVar × Expr}
    (h : remapAxis b dtype c e s = .ok (a, s')) :
    ∃ call v, b.Single dtype (c, e) call ∧ e = .var v ∧
      a.1.OfType a.2 (dtype.getD v.dtype) ∧ s' = { s with used := s.used + 1 } ∧
      ∀ b' : Builder, ∀ x, b'.Top (.block x) → b'.call s call = (.ok (.var (a.1.var.renamed "v")),
        b'.setTop (.block { x with axes := x.axes ++ [IterVar.named "v" a] }), s') := by
  obtain ⟨kind, v, dom, w, hk, hv, hd, hw, rfl⟩ := remapAxis_eq_ok h
  obtain ⟨rfl, rfl⟩ := Prod.mk.inj hw
  obtain rfl := Expr.asVar?_eq_some.1 hv
  obtain ⟨l, hl, rfl⟩ := Builder.nearest_of_loopDomain? hd
  refine ⟨_, v, ⟨kind, v, l, _, _, _, AxisKind.ofChar?_eq_some hk, rfl, hl,
    Expr.brought_asIndex _ _, Expr.brought_asIndex _ _, Expr.brought_castTo _ nofun, rfl⟩, rfl,
    ?_, rfl, ?_⟩
  · exact ⟨rfl, Expr.dtype_castTo _ _, _, rfl, Expr.dtype_asIndex _ _, Expr.dtype_asIndex _ _⟩
  · intro b' x top
    rw [Builder.call_eq, effect, Attempt.bind_apply, Attempt.check_apply,
      Builder.topBlock_eq_ok_iff.2 top]
    rfl

/-- The axes of a remapping in the order of the bindings. -/
theorem remapAxes_types {ps : List (Char × Expr)} {axes : List (IterVar × Expr)}
    (h : remapAxes b dtype ps s = .ok (axes, s')) : List.Forall₂ (fun p a =>
      ∃ v, p.2 = .var v ∧ a.1.OfType a.2 (dtype.getD v.dtype)) ps axes := by
  induction ps generalizing s axes with
  | nil =>
      cases Attempt.pure_eq_ok.1 h
      exact .nil
  | cons p ps ih =>
      simp only [remapAxes, Attempt.bind_eq_ok, Attempt.pure_eq_ok] at h
      obtain ⟨a, s₁, ha, as, s₂, has, h⟩ := h
      cases h
      obtain ⟨call, v, -, hv, htype, -⟩ := remapAxis_single ha
      exact .cons ⟨v, hv, htype⟩ (ih has)

/-- A remapping that is refused on the way has used up one variable for each axis before. -/
theorem afterAxes_eq (ps : List (Char × Expr)) (s : Supply) :
    ∃ n ≤ ps.length, afterAxes b dtype ps s = { s with used := s.used + n } := by
  induction ps generalizing s with
  | nil => exact ⟨0, Nat.le_refl _, rfl⟩
  | cons p ps ih =>
      rw [afterAxes]
      cases ha : remapAxis b dtype p.1 p.2 s with
      | error f => exact ⟨0, Nat.zero_le _, rfl⟩
      | ok r =>
          obtain ⟨-, -, -, -, -, hs, -⟩ := remapAxis_single ha
          obtain ⟨n, hn, he⟩ := ih r.2
          refine ⟨n + 1, Nat.succ_le_succ hn, ?_⟩
          change afterAxes b dtype ps r.2 = _
          rw [he, hs, Nat.add_right_comm]
          rfl

end Call

namespace Builder

variable {b : Builder} (kinds : String) (bindings : List Expr) (dtype : Option DataType)
  (s : Supply)

/-- What is asked of a remapping is looked for axis by axis. -/
theorem remappable_iff (hb : ∀ f ∈ b.frames, ∀ l, .loop l ∈ f.scope.heads → f.kind = .loops) :
    b.Remappable kinds bindings ↔ kinds.length = bindings.length ∧ (∃ x, b.Top (.block x)) ∧
      ∃ r, Call.remapAxes b dtype (kinds.toList.zip bindings) s = .ok r := by
  rw [Call.remapAxes_ok_iff]
  constructor
  · rintro ⟨count, block, letters, loops⟩
    refine ⟨count, block, fun p hp => ?_⟩
    obtain ⟨hc, he⟩ := List.of_mem_zip hp
    obtain ⟨v, hv, hl⟩ := loops p.2 he
    exact ⟨AxisKind.isSome_ofChar?.2 (letters p.1 hc), v, hv, (isSome_loopDomain? hb v).2 hl⟩
  · rintro ⟨count, block, pairs⟩
    have hlen : kinds.toList.length = bindings.length := String.length_toList.trans count
    have hk : kinds.toList = (kinds.toList.zip bindings).map Prod.fst :=
      (List.map_fst_zip (Nat.le_of_eq hlen)).symm
    have he : bindings = (kinds.toList.zip bindings).map Prod.snd :=
      (List.map_snd_zip (Nat.le_of_eq hlen.symm)).symm
    refine ⟨count, block, ?_, ?_⟩
    · rw [hk]
      intro c hc
      obtain ⟨p, hp, rfl⟩ := List.mem_map.1 hc
      exact AxisKind.isSome_ofChar?.1 (pairs p hp).1
    · rw [he]
      intro e he
      obtain ⟨p, hp, rfl⟩ := List.mem_map.1 he
      obtain ⟨v, hv, hl⟩ := (pairs p hp).2
      exact ⟨v, hv, (isSome_loopDomain? hb v).1 hl⟩

/-- A remapping that is not in order is refused, and one that is in order adds all of its axes. -/
theorem call_remap (hb : ∀ f ∈ b.frames, ∀ l, .loop l ∈ f.scope.heads → f.kind = .loops) :
    (¬b.Remappable kinds bindings →
      ∃ e, ∃ n ≤ bindings.length, b.call s (.remap kinds bindings dtype) =
        (.error (.refused e), b.record e, { s with used := s.used + n })) ∧
    ∀ x, b.Top (.block x) → b.Remappable kinds bindings → ∃ new s',
      Call.remapAxes b dtype (kinds.toList.zip bindings) s = .ok (new, s') ∧
      b.call s (.remap kinds bindings dtype) = (.ok (.vars (new.map (·.1.var))),
        b.setTop (.block { x with axes := x.axes ++ new }), s') := by
  constructor
  · intro hn
    rw [call_eq]
    cases he : (Call.remap kinds bindings dtype).effect b s with
    | error f =>
        obtain ⟨e, rfl⟩ := Call.effect_refuses b _ he
        obtain ⟨n, hn, hs⟩ : ∃ n ≤ bindings.length,
            (Call.remap kinds bindings dtype).spent b s = { s with used := s.used + n } := by
          rw [Call.spent]
          split
          · obtain ⟨n, hn, hs⟩ := Call.afterAxes_eq (kinds.toList.zip bindings) s
            refine ⟨n, Nat.le_trans hn ?_, hs⟩
            rw [List.length_zip]
            exact Nat.min_le_right _ _
          · exact ⟨0, Nat.zero_le _, rfl⟩
        exact ⟨e, n, hn, by rw [hs]; rfl⟩
    | ok r =>
        refine absurd ((remappable_iff kinds bindings dtype s hb).2 ?_) hn
        simp only [Call.effect] at he
        split at he
        · cases he
        · rename_i count
          simp only [Attempt.bind_eq_ok, Attempt.check_eq_ok] at he
          obtain ⟨x, _, ⟨hx, rfl⟩, axes, s', ha, -⟩ := he
          exact ⟨not_not.1 count, ⟨x, topBlock_eq_ok_iff.1 hx⟩, _, ha⟩
  · intro x top hr
    obtain ⟨count, -, ⟨new, s'⟩, hn⟩ := (remappable_iff kinds bindings dtype s hb).1 hr
    refine ⟨new, s', hn, ?_⟩
    have hc : ¬kinds.length ≠ bindings.length := not_not.2 count
    simp only [call_eq, Call.effect, if_neg hc, Attempt.bind_apply, Attempt.check_apply,
      topBlock_eq_ok_iff.2 top, hn]
    rfl

end Builder

namespace Program

variable {supply : Supply} {acts : List Action} {id : SessionId} {t : ThreadId}

theorem kind_of_loop_run (supply : Supply) (acts : List Action) (id : SessionId) :
    ∀ f ∈ ((run supply acts).world.builder id).frames, ∀ l, .loop l ∈ f.scope.heads →
      f.kind = .loops :=
  (shows_run supply acts id).kind_of_loop (keys_run supply acts id)

theorem world_call {c : Call} {v : Value} {b : Builder} {s : Supply}
    (live : (run supply acts).world.live t = some id)
    (done : ((run supply acts).world.builder id).call (run supply acts).world.supply c =
      (.ok v, b, s)) : (run supply (acts ++ [.call t c])).world = { (run supply acts).world with
        supply := s, builder := update (run supply acts).world.builder id b } := by
  rw [run_append, step_call_of_live live done]
  rfl

/-- Axes that are made one by one are those of the remapping, under another name. -/
theorem singles_run {b : Builder} {dtype : Option DataType} {ps : List (Char × Expr)}
    {new : List (IterVar × Expr)} {s : Supply} {x : BlockScope}
    (live : (run supply acts).world.live t = some id)
    (top : ((run supply acts).world.builder id).Top (.block x))
    (h : Call.remapAxes b dtype ps (run supply acts).world.supply = .ok (new, s)) :
    ∃ singles, List.Forall₂ (b.Single dtype) ps singles ∧
      let w := (run supply (acts ++ singles.map (.call t))).world
      w.builder id = ((run supply acts).world.builder id).setTop
        (.block { x with axes := x.axes ++ new.map (IterVar.named "v") }) ∧ w.supply = s := by
  induction ps generalizing acts new x with
  | nil =>
      cases Attempt.pure_eq_ok.1 h
      obtain ⟨f, fs, hf, hx⟩ := top
      have hb := Builder.setTop_self hf
      rw [hx] at hb
      exact ⟨[], .nil, by simpa using hb.symm⟩
  | cons p ps ih =>
      simp only [Call.remapAxes, Attempt.bind_eq_ok, Attempt.pure_eq_ok] at h
      obtain ⟨a, s₁, ha, as, s₂, has, h⟩ := h
      cases h
      obtain ⟨call, v, hs, -, -, -, hcall⟩ := Call.remapAxis_single ha
      have done := hcall _ x top
      obtain ⟨f, fs, hf, -⟩ := top
      have hb : (run supply (acts ++ [.call t call])).world.builder id = _ :=
        (congrFun (congrArg World.builder (world_call live done)) id).trans (update_self _ _ _)
      -- After the first call the same block is on top, with one axis more.
      have htop : ((run supply (acts ++ [.call t call])).world.builder id).Top
          (.block { x with axes := x.axes ++ [IterVar.named "v" a] }) := by
        rw [hb]
        exact ⟨_, fs, Builder.frames_setTop hf _, rfl⟩
      obtain ⟨singles, hsingles, hr⟩ := ih (by rw [world_call live done]; exact live) htop
        (by rw [world_call live done]; exact has)
      rw [hb, Builder.setTop_setTop, List.append_assoc] at hr
      exact ⟨call :: singles, .cons hs hsingles, by simpa using hr⟩

/-- A remapping succeeds if the bindings, one for each letter, are variables of open loops around a
block that is innermost. Then it adds to the block, in their order, the axes that calls of their
own would have made; otherwise it adds none. -/
theorem remap_all_or_nothing (supply : Supply) (acts : List Action) (t : ThreadId) (kinds : String)
    (bindings : List Expr) (dtype : Option DataType) :
    let w := (run supply acts).world
    let c := Call.remap kinds bindings dtype
    ((∃ v, (w.call t c).1 = .ok v) ↔
      ∃ id, w.live t = some id ∧ (w.builder id).Remappable kinds bindings) ∧
    ∀ id, w.live t = some id →
      let b := w.builder id
      (¬b.Remappable kinds bindings → ∃ e, ∃ n ≤ bindings.length,
        w.call t c = (.error (.refused e), { w with
          supply := { w.supply with used := w.supply.used + n }
          builder := update w.builder id (b.record e) })) ∧
      ∀ x, b.Top (.block x) → b.Remappable kinds bindings →
        ∃ (new : List (IterVar × Expr)) (s : Supply) (singles : List Call),
          w.call t c = (.ok (.vars (new.map (·.1.var))), { w with
            supply := s
            builder := update w.builder id
              (b.setTop (.block { x with axes := x.axes ++ new })) }) ∧
          List.Forall₂ (fun e a => ∃ v, e = .var v ∧ a.1.OfType a.2 (dtype.getD v.dtype))
            bindings new ∧
          List.Forall₂ (b.Single dtype) (kinds.toList.zip bindings) singles ∧
          let w' := (run supply (acts ++ singles.map (.call t))).world
          w'.builder id =
            b.setTop (.block { x with axes := x.axes ++ new.map (IterVar.named "v") }) ∧
          w'.supply = s := by
  intro w c
  have spec (id : SessionId) (live : w.live t = some id) :=
    Builder.call_remap kinds bindings dtype w.supply (kind_of_loop_run supply acts id)
  refine ⟨?_, fun id live => ⟨?_, ?_⟩⟩
  · constructor
    · rintro ⟨v, hv⟩
      cases live : w.live t with
      | none => simp [World.call_of_idle live] at hv
      | some id =>
          refine ⟨id, rfl, ?_⟩
          by_contra hn
          obtain ⟨e, n, -, he⟩ := (spec id live).1 hn
          rw [World.call_of_live live, he] at hv
          cases hv
    · rintro ⟨id, live, hr⟩
      obtain ⟨x, top⟩ := hr.block
      obtain ⟨new, s, -, hc⟩ := (spec id live).2 x top hr
      exact ⟨_, by rw [World.call_of_live live, hc]⟩
  · intro hn
    obtain ⟨e, n, hle, he⟩ := (spec id live).1 hn
    exact ⟨e, n, hle, by rw [World.call_of_live live, he]⟩
  · intro x top hr
    obtain ⟨new, s, hn, hc⟩ := (spec id live).2 x top hr
    obtain ⟨singles, hsingles, hrun⟩ := singles_run live top hn
    have hcount : bindings.length = kinds.toList.length :=
      hr.count.symm.trans String.length_toList.symm
    have hmap := List.map_snd_zip (Nat.le_of_eq hcount)
    refine ⟨new, s, singles, by rw [World.call_of_live live, hc], ?_, hsingles, hrun⟩
    rw [← hmap, List.forall₂_map_left_iff]
    exact Call.remapAxes_types hn

/-- A block in two loops from a grid, in a loop that does not start at zero. -/
def remapping : List Action := [.enter 0 {},
  .openScope 0 (.loop .serial (.int32 2) (.int32 10) none),
  .openScope 0 (.grid [.int32 4, .int32 5]),
  .openScope 0 (.block "B" false)]

theorem remap_all_or_nothing_remapping :
    let w := (run .counting remapping).world
    let e (id : VarId) : Expr := .var ⟨id, "i", .int 32, none⟩
    let d : DataType := .int 64
    let singles : List Call := [.axis .spatial ⟨.int 0 d, .int 5 d⟩ (.cast d (e 2)) (some d),
      .axis .reduce ⟨.int 2 d, .int 8 d⟩ (.cast d (e 0)) (some d)]
    (∃ f, (w.call 0 (.remap "SX" [e 2, e 0] (some d))).1 = .error f) ∧
    ∃ (x : BlockScope) (new : List (IterVar × Expr)), (w.builder 0).Top (.block x) ∧
      (w.call 0 (.remap "SR" [e 2, e 0] (some d))).1 =
        .ok (.vars (new.map (·.1.var))) ∧ new.length = 2 ∧
      (run .counting (remapping ++ singles.map (.call 0))).world.builder 0 =
        (w.builder 0).setTop (.block { x with axes := new.map (IterVar.named "v") }) := by
  intro w e d singles
  constructor
  · have hn : ¬(w.builder 0).Remappable "SX" [e 2, e 0] := fun h => by
      simpa using h.letters 'X' (by simp)
    obtain ⟨f, n, -, hf⟩ := ((remap_all_or_nothing .counting remapping 0 "SX" [e 2, e 0]
      (some d)).2 0 rfl).1 hn
    exact ⟨_, congrArg Prod.fst hf⟩
  · have top : (w.builder 0).Top (.block { name := "B", bare := false }) := ⟨_, _, rfl, rfl⟩
    have hr : (w.builder 0).Remappable "SR" [e 2, e 0] := by
      refine ⟨rfl, ⟨_, top⟩, by simp, ?_⟩
      intro a ha
      rw [List.mem_cons, List.mem_singleton] at ha
      obtain rfl | rfl := ha
      · exact ⟨_, rfl, _, List.mem_cons_of_mem _ List.mem_cons_self, rfl, _,
          List.mem_cons_of_mem _ List.mem_cons_self, rfl⟩
      · exact ⟨_, rfl, _, List.mem_cons_of_mem _ (List.mem_cons_of_mem _ List.mem_cons_self), rfl,
          _, List.mem_cons_self, rfl⟩
    obtain ⟨new, s, made, hc, htypes, hmade, hw, -⟩ :=
      ((remap_all_or_nothing .counting remapping 0 "SR" [e 2, e 0] (some d)).2 0 rfl).2 _ top hr
    -- The two loops are the second of the grid, with the first one above it, and the outermost.
    have hsingles : List.Forall₂ ((w.builder 0).Single (some d)) ("SR".toList.zip [e 2, e 0])
        singles := by
      refine .cons ⟨_, _, _, _, _, _, .inl ⟨rfl, rfl⟩, rfl, ⟨[_], _, rfl, rfl, ?_⟩,
        .literal _ _, .literal _ _, .cast nofun (by decide), rfl⟩
        (.cons ⟨_, _, _, _, _, _, .inr ⟨rfl, rfl⟩, rfl, ⟨[_, _], _, rfl, rfl, ?_⟩,
          .literal _ _, .literal _ _, .cast nofun (by decide), rfl⟩ .nil)
      · intro k hk
        cases List.mem_singleton.1 hk
        decide
      · intro k hk
        rw [List.mem_cons, List.mem_singleton] at hk
        obtain hk | hk := hk <;> cases hk <;> decide
    have unique : Relator.RightUnique ((w.builder 0).Single (some d)) :=
      fun _ _ _ h h' => h.unique h'
    obtain rfl := unique.forall₂ hmade hsingles
    exact ⟨_, new, top, congrArg Prod.fst hc, htypes.length_eq.symm, hw⟩

end Program

end TensorProgram
