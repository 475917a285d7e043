import Mathlib.Data.List.Nodup
import Mathlib.Data.List.Perm.Lattice
import TensorProgram.Proofs.Guards

/-!
Interfaces. What a function takes is said by calls that can come in any order; whether it makes
sense is looked at when the function is closed. `Interface.Step` says what each event adds, so
that the interface of a function that has been accepted can be read off the history.
-/

namespace TensorProgram

namespace OrderedMap

variable {α β κ : Type} [Keyed α κ] [DecidableEq κ] {m : OrderedMap α β} {a k : α} {b : β}

theorem map_fst_put (a : α) (b : β) (l : List (α × β)) :
    (put a b l).map Prod.fst = if Keyed.key a ∈ l.map (fun e => Keyed.key e.1)
      then l.map Prod.fst else l.map Prod.fst ++ [a] := by
  induction l with
  | nil => simp [put]
  | cons e r ih =>
      by_cases h : Keyed.key e.1 = Keyed.key a
      · simp [put, h]
      · by_cases hr : Keyed.key a ∈ r.map (fun e => Keyed.key e.1)
        · simp only [put, h, if_false, List.map_cons, ih, List.mem_cons, hr, or_true, if_true]
        · simp only [put, h, if_false, List.map_cons, ih, List.mem_cons, Ne.symm h, hr, or_self,
            List.cons_append]

theorem mem_keys_insert_of_mem (h : k ∈ m.keys) : k ∈ (m.insert a b).keys := by
  rw [keys, entries_insert, map_fst_put]
  split
  · exact h
  · exact List.mem_append_left _ h

theorem mem_keys_insert (h : k ∈ (m.insert a b).keys) : k ∈ m.keys ∨ k = a := by
  rw [keys, entries_insert, map_fst_put] at h
  split at h
  · exact .inl h
  · rwa [List.mem_append, List.mem_singleton] at h

/-- The entry under the key of `a`. -/
def entry? (m : OrderedMap α β) (a : α) : Option (α × β) :=
  m.entries.find? fun e => Keyed.key e.1 = Keyed.key a

theorem entry?_eq_some_iff {e : α × β} :
    m.entry? a = some e ↔ e ∈ m.entries ∧ Keyed.key e.1 = Keyed.key a := by
  constructor
  · intro h
    exact ⟨List.mem_of_find?_eq_some h, of_decide_eq_true (List.find?_some h :)⟩
  · rintro ⟨he, hk⟩
    cases hf : m.entry? a with
    | none => exact absurd (decide_eq_true hk) (List.find?_eq_none.1 hf e he)
    | some e' =>
        have hk' : Keyed.key e'.1 = Keyed.key a := of_decide_eq_true (List.find?_some hf :)
        rw [List.inj_on_of_nodup_map m.nodup (List.mem_of_find?_eq_some hf) he (hk'.trans hk.symm)]

theorem get?_congr {c : α} (h : Keyed.key a = Keyed.key c) : m.get? a = m.get? c := by
  rw [get?, get?, h]

end OrderedMap

/-- What a function takes: its parameters, and the buffers that lie behind them, before and
after flattening. -/
structure Interface where
  params : List Var := []
  bufferMap : OrderedMap Var Buffer := ∅
  preflattened : OrderedMap Var Buffer := ∅

def FuncScope.interface (g : FuncScope) : Interface := ⟨g.params, g.bufferMap, g.preflattened⟩

def PrimFunc.interface (f : PrimFunc) : Interface := ⟨f.params, f.bufferMap, f.preflattened⟩

def Output.interface : Output → Interface
  | .func f => f.interface
  | .stmt _ => {}

/-- The interface of the function that the session is about, if it is about one. -/
def Builder.interface (b : Builder) : Interface :=
  match b.nearestFunc? with
  | some g => g.interface
  | none => (b.result.map Output.interface).getD {}

/-- The parameters are distinct, and all buffers lie behind parameters. -/
structure Interface.Closed (I : Interface) : Prop where
  distinct : (I.params.map Var.id).Nodup
  known : ∀ k ∈ I.bufferMap.keys ++ I.preflattened.keys, k.id ∈ I.params.map Var.id

namespace FuncScope

theorem repeated?_eq_none_iff {seen : List VarId} {vs : List Var} :
    repeated? seen vs = none ↔ (vs.map Var.id).Nodup ∧ ∀ v ∈ vs, v.id ∉ seen := by
  induction vs generalizing seen with
  | nil => simp [repeated?]
  | cons v vs ih =>
      rw [repeated?]
      by_cases hv : v.id ∈ seen
      · simp [hv]
      · rw [if_neg hv, ih, List.map_cons, List.nodup_cons, List.forall_mem_cons]
        simp only [List.mem_cons, not_or, List.mem_map, not_exists, not_and]
        constructor
        · rintro ⟨hn, hs⟩
          exact ⟨⟨fun w hw => (hs w hw).1, hn⟩, hv, fun w hw => (hs w hw).2⟩
        · rintro ⟨⟨hd, hn⟩, -, hs⟩
          exact ⟨hn, fun w hw => ⟨hd w hw, hs w hw⟩⟩

/-- A function is accepted on account of identities alone. -/
theorem check_eq_ok_iff {g : FuncScope} : g.check = .ok () ↔ g.interface.Closed := by
  have hk (k : Var) : g.params.any k.same = true ↔ k.id ∈ g.params.map Var.id := by
    simp only [List.any_eq_true, Var.same, decide_eq_true_eq, List.mem_map]
    exact exists_congr fun v => and_congr_right fun _ => eq_comm
  cases hr : repeated? [] g.params with
  | some v =>
      have hn : ¬ (g.params.map Var.id).Nodup := by
        intro hn
        have : repeated? [] g.params = none := repeated?_eq_none_iff.2 ⟨hn, by simp⟩
        rw [hr] at this
        cases this
      simp only [check, hr, throw_eq_error, reduceCtorEq, false_iff]
      exact fun h => hn h.distinct
  | none =>
      have hn := (repeated?_eq_none_iff.1 hr).1
      cases hf : (g.bufferMap.keys ++ g.preflattened.keys).find? fun k =>
          !g.params.any k.same with
      | some k =>
          simp only [check, hr, hf, throw_eq_error, reduceCtorEq, false_iff]
          intro h
          have hm := h.known k (List.mem_of_find?_eq_some hf)
          have hu := List.find?_some hf
          rw [(hk k).2 hm] at hu
          cases hu
      | none =>
          simp only [check, hr, hf, pure_eq_ok, true_iff]
          refine ⟨hn, ?_⟩
          intro k hm
          have hu := List.find?_eq_none.1 hf k hm
          exact (hk k).1 (by simpa using hu)

theorem check_eq_error {g : FuncScope} {e : BuildError} (h : g.check = .error e) :
    ∃ detail, e = .invalidFunction detail := by
  rw [check] at h
  split at h
  · cases h
    exact ⟨_, rfl⟩
  · split at h
    · cases h
      exact ⟨_, rfl⟩
    · cases h

end FuncScope

namespace Builder

variable {b b' : Builder}

theorem interface_of_top {g : FuncScope} (h : b.Top (.func g)) : b.interface = g.interface := by
  obtain ⟨f, fs, hf, hs⟩ := h
  simp [interface, nearestFunc?, hf, hs, Scope.func?]

theorem interface_congr (hs : b'.frames.map Frame.scope = b.frames.map Frame.scope)
    (hr : b'.result = b.result) : b'.interface = b.interface := by
  have hn (b : Builder) : b.nearestFunc? = (b.frames.map Frame.scope).findSome? Scope.func? := by
    rw [nearestFunc?, List.findSome?_map]
    rfl
  rw [interface, interface, hn, hn, hs, hr]

theorem interface_cons {f : Frame} {fs : List Frame} (hf : b.frames = f :: fs)
    (hs : f.scope.func? = none) : interface { b with frames := fs } = b.interface := by
  simp [interface, nearestFunc?, hf, hs]

theorem interface_push {x : Scope} (hx : x.func? = none) : (b.push x).interface = b.interface :=
  (interface_cons (b := b.push x) rfl hx).symm

theorem interface_setTop {x y : Scope} (ht : b.Top x) (hx : x.func? = none)
    (hy : y.func? = none) : (b.setTop y).interface = b.interface := by
  obtain ⟨f, fs, hf, rfl⟩ := ht
  simp only [interface, nearestFunc?, frames_setTop hf, result_setTop, hf, List.findSome?_cons,
    hx, hy]

theorem interface_setTop_func {x : Scope} (ht : b.Top x) (g : FuncScope) :
    (b.setTop (.func g)).interface = g.interface := by
  obtain ⟨f, fs, hf, -⟩ := ht
  exact interface_of_top ⟨_, _, frames_setTop hf _, rfl⟩

theorem interface_registerThread (v : Var) (tag : String) :
    (b.registerThread v tag).interface = b.interface := by
  simp only [interface, registerThread, nearestFunc?]
  generalize b.frames = fs
  induction fs with
  | nil => rfl
  | cons f fs ih =>
      cases hs : f.scope with
      | func g => simp [updateFunc, hs, Scope.func?, FuncScope.interface]
      | block _ | blockInit | branch _ | thenCase | elseCase | wrap _ =>
          simpa [updateFunc, hs, Scope.func?] using ih

/-- A session that takes statements at depth zero is about no function. -/
theorem interface_appended {s : Stmt} (h : b.appended s = .ok b') :
    b'.interface = b.interface := by
  obtain ⟨f, fs, hf, rfl⟩ | ⟨hf, r, rfl⟩ := appended_eq_ok h
  · exact interface_congr (by simp [hf]) rfl
  · rw [appended, hf] at h
    cases hr : b.result with
    | none => simp [interface, nearestFunc?, hf, hr, Output.interface]
    | some out =>
        cases out with
        | stmt r' => simp [interface, nearestFunc?, hf, hr, Output.interface]
        | func g => simp [hr] at h

theorem interface_appendedAll {ss : List Stmt} (h : b.appendedAll ss = .ok b') :
    b'.interface = b.interface := by
  refine appendedAll_induction (R := fun b b' => b'.interface = b.interface) ?_ ?_
    interface_appended h
  · exact fun _ => rfl
  · exact fun h h' => h'.trans h

end Builder

namespace Event

/-- The parameter that the event adds. A buffer that is an argument lies behind a new handle. -/
def param? : Event → Option Var
  | .called _ (.argVar name v) _ => some (v.renamed name)
  | .called s (.argBuffer name _) _ => some (Var.fresh name .handle s).1
  | _ => none

/-- The event adds to the interface of a function. -/
def declares : Event → Bool
  | .called _ (.argVar _ _) _ | .called _ (.argBuffer _ _) _
  | .called _ (.matchBuffer (.param _) _ _ _) _ | .called _ (.preflattenedBuffer _ _ _ _) _ => true
  | _ => false

end Event

/-- What an event makes of an interface. -/
inductive Interface.Step (I : Interface) : Event → Interface → Prop where
  | same {e : Event} (quiet : e.declares = false) : Step I e I
  | argVar (s : Supply) (name : String) (v : Var) :
      Step I (.called s (.argVar name v) (.var (v.renamed name)))
        { I with params := I.params ++ [v.renamed name] }
  | argBuffer (s : Supply) (name : String) (x : Buffer) :
      Step I (.called s (.argBuffer name x) (.buffer { x with name })) { I with
        params := I.params ++ [(Var.fresh name .handle s).1]
        bufferMap := I.bufferMap.insert (Var.fresh name .handle s).1 { x with name } }
  | matched (s : Supply) (v : Var) (shape : List Expr) (dtype : DataType) (o : BufferOptions)
      (x : Buffer) (free : I.bufferMap.contains v = false) :
      Step I (.called s (.matchBuffer (.param v) shape dtype o) (.buffer x))
        { I with bufferMap := I.bufferMap.insert v x }
  | preflattened (s : Supply) (of : Buffer) (shape : List Expr) (dtype : DataType)
      (o : BufferOptions) (x : Buffer) {v : Var} {y : Buffer}
      (behind : I.bufferMap.entries.find? (fun e => e.2.sameAs of) = some (v, y))
      (free : I.preflattened.contains v = false) :
      Step I (.called s (.preflattenedBuffer of shape dtype o) (.buffer x))
        { I with preflattened := I.preflattened.insert v x }

/-- The interface that a run without mistakes makes. -/
inductive Interface.Made : List Event → Interface → Prop where
  | start : Made [] {}
  | step {H : List Event} {I : Interface} {e : Event} {J : Interface} (past : Made H I)
      (last : I.Step e J) : Made (H ++ [e]) J

theorem Call.Does.interface {b b' : Builder} {s : Supply} {c : Call} {v : Value} {eff : Effect}
    (h : c.Does b s v eff) (hp : b.performed eff = .ok b') :
    b.interface.Step (.called s c v) b'.interface := by
  cases h with
  | store _ _ _ | prefetch _ _ | evaluate _ =>
      rw [Builder.interface_appended hp]
      exact .same rfl
  | envThread w =>
      cases hp
      rw [Builder.interface_registerThread]
      exact .same rfl
  | guard _ top _ | reads _ top _ | writes _ top _ | blockAttrs _ top _
  | allocInBlock _ _ _ _ top | matchRegion _ _ _ _ _ top | axis _ _ _ _ _ top
  | remap _ _ _ top _ =>
      cases hp
      rw [Builder.interface_setTop top rfl rfl]
      exact .same rfl
  | allocInFunc _ _ _ _ top | funcName _ top _ | funcAttrs _ top _ | funcRet _ top _ =>
      cases hp
      rw [Builder.interface_setTop_func top, Builder.interface_of_top top]
      exact .same rfl
  | matchParam p shape dtype o x top free =>
      cases hp
      rw [Builder.interface_setTop_func top, Builder.interface_of_top top]
      exact .matched s p shape dtype o x free
  | preflattened of shape dtype o x top behind free =>
      cases hp
      rw [Builder.interface_setTop_func top, Builder.interface_of_top top]
      exact .preflattened s of shape dtype o x behind free
  | argVar name w top =>
      cases hp
      rw [Builder.interface_setTop_func top, Builder.interface_of_top top]
      exact .argVar s name w
  | argBuffer name x top =>
      cases hp
      rw [Builder.interface_setTop_func top, Builder.interface_of_top top]
      exact .argBuffer s name x

/-- A function is opened without an interface, and closed with the one that it has got. -/
theorem Event.Took.interface {b b' : Builder} {e : Event} (h : e.Took b b')
    (he : e.error? = none) : b.interface.Step e b'.interface := by
  cases e with
  | entered config => cases h
  | discarded id e => cases he
  | failed f =>
      cases f with
      | refused e => cases he
      | overflow o =>
          obtain rfl := h
          exact .same rfl
  | called s c v =>
      obtain ⟨eff, s', he, hp⟩ := h
      exact (Call.effect_does he).interface hp
  | opened id o v =>
      obtain ⟨x, s, s', hx, -, rfl⟩ := h
      have hm := Opening.scope_makes hx
      have hb : (b.push x).interface = b.interface := by
        cases hm with
        | primFunc top idle =>
            simp [Builder.interface, Builder.nearestFunc?, Builder.push, top, idle, Scope.func?,
              FuncScope.interface]
        | _ => exact Builder.interface_push rfl
      rw [hb]
      exact .same rfl
  | closed id =>
      obtain ⟨f, fs, p, hf, -, hc, hd⟩ := h
      have hp := Frame.close_closes hc
      have pop := Builder.interface_cons hf
      have hb : b'.interface = b.interface := by
        generalize hx : f.scope = x at hp pop
        cases hp with
        | func _ =>
            obtain ⟨hfs, -, rfl⟩ := Builder.delivered_func hd
            rw [Builder.interface_of_top ⟨f, fs, hf, hx⟩]
            obtain rfl : fs = [] := hfs
            rfl
        | block _ | branch _ _ | wrap _ => exact (Builder.interface_appendedAll hd).trans (pop rfl)
        | blockInit =>
            obtain ⟨y, ht, rfl⟩ := Builder.delivered_blockInit hd
            exact (Builder.interface_setTop ht rfl rfl).trans (pop rfl)
        | thenCase =>
            obtain ⟨i, ht, rfl⟩ := Builder.delivered_thenCase hd
            exact (Builder.interface_setTop ht rfl rfl).trans (pop rfl)
        | elseCase =>
            obtain ⟨i, ht, rfl⟩ := Builder.delivered_elseCase hd
            exact (Builder.interface_setTop ht rfl rfl).trans (pop rfl)
      rw [hb]
      exact .same rfl

theorem Builder.Lived.interface {config : Config} {H : List Event} {b : Builder}
    (h : Lived config H b) (hc : H.findSome? Event.error? = none) :
    Interface.Made H b.interface := by
  induction h with
  | start => exact .start
  | @step H b e b' past last ih =>
      rw [List.findSome?_append, Option.or_eq_none_iff] at hc
      exact .step (ih hc.1) (last.took.interface (by simpa using hc.2))

namespace Interface.Made

variable {H : List Event} {I : Interface}

theorem params_eq (h : Made H I) : I.params = H.filterMap Event.param? := by
  induction h with
  | start => rfl
  | @step H I e J past last ih =>
      rw [List.filterMap_append, ← ih]
      cases last with
      | same quiet =>
          have hq : e.param? = none := by
            cases e with
            | called s c v => cases c <;> first | rfl | cases quiet
            | _ => rfl
          simp [hq]
      | argVar s name v => rfl
      | argBuffer s name x => rfl
      | matched s v shape dtype o x free => simp [Event.param?]
      | preflattened s of shape dtype o x behind free => simp [Event.param?]

/-- Only what lies behind a parameter is seen before flattening. -/
theorem preflattened_keys (h : Made H I) : ∀ k ∈ I.preflattened.keys, k ∈ I.bufferMap.keys := by
  induction h with
  | start => simp [OrderedMap.keys]
  | step past last ih =>
      intro k hk
      cases last with
      | same _ | argVar _ _ _ => exact ih k hk
      | argBuffer s name x => exact OrderedMap.mem_keys_insert_of_mem (ih k hk)
      | matched s v shape dtype o x free => exact OrderedMap.mem_keys_insert_of_mem (ih k hk)
      | preflattened s of shape dtype o x behind free =>
          obtain hk | rfl := OrderedMap.mem_keys_insert hk
          · exact ih k hk
          · exact List.mem_map.2 ⟨_, List.mem_of_find?_eq_some behind, rfl⟩

/-- A buffer that is an argument stays behind its handle, as long as no other parameter is that
handle. -/
theorem get?_argBuffer (h : Made H I) (hn : (I.params.map Var.id).Nodup) {s : Supply}
    {name : String} {x : Buffer} {v : Value} (he : Event.called s (.argBuffer name x) v ∈ H) :
    ∃ y, v = .buffer y ∧ I.bufferMap.get? (Var.fresh name .handle s).1 = some y := by
  induction h with
  | start => cases he
  | @step H I e J past last ih =>
      rw [List.mem_append, List.mem_singleton] at he
      cases last with
      | same quiet =>
          obtain he | rfl := he
          · exact ih hn he
          · cases quiet
      | argVar s' name' w =>
          obtain he | he := he
          · refine ih (hn.sublist ?_) he
            simp
          · cases he
      | matched s' w shape dtype o x' free =>
          obtain he | he := he
          · obtain ⟨y, hv, hy⟩ := ih hn he
            refine ⟨y, hv, ?_⟩
            rw [OrderedMap.get?_insert]
            split
            · rename_i hk
              rw [OrderedMap.contains, ← OrderedMap.get?_congr hk, hy] at free
              cases free
            · exact hy
          · cases he
      | preflattened s' of shape dtype o x' behind free =>
          obtain he | he := he
          · exact ih hn he
          · cases he
      | argBuffer s' name' x' =>
          obtain he | he := he
          · rw [List.map_append, List.nodup_append] at hn
            obtain ⟨y, hv, hy⟩ := ih hn.1 he
            refine ⟨y, hv, ?_⟩
            rw [OrderedMap.get?_insert, if_neg, hy]
            have hp : (Var.fresh name .handle s).1 ∈ I.params := by
              rw [past.params_eq]
              exact List.mem_filterMap.2 ⟨_, he, rfl⟩
            exact hn.2.2 _ (List.mem_map_of_mem hp) _ (List.mem_singleton.2 rfl)
          · cases he
            refine ⟨_, rfl, ?_⟩
            rw [OrderedMap.get?_insert, if_pos rfl]

end Interface.Made

theorem Builder.result_of_appended {b b' : Builder} {s : Stmt} {f : PrimFunc}
    (h : b.appended s = .ok b') (hf : b'.result = some (.func f)) :
    b.result = some (.func f) := by
  obtain ⟨g, gs, -, rfl⟩ | ⟨-, r, rfl⟩ := appended_eq_ok h
  · exact hf
  · cases hf

theorem Builder.result_of_appendedAll {b b' : Builder} {ss : List Stmt} {f : PrimFunc}
    (h : b.appendedAll ss = .ok b') (hf : b'.result = some (.func f)) :
    b.result = some (.func f) := by
  refine appendedAll_induction
    (R := fun b b' => b'.result = some (.func f) → b.result = some (.func f)) ?_ ?_
    result_of_appended h hf
  · exact fun _ hf => hf
  · exact fun h h' hf => h (h' hf)

/-- The function that a session gives back has been looked at when it was closed. -/
theorem Event.Took.result_func {b b' : Builder} {e : Event} {f : PrimFunc} (h : e.Took b b')
    (hf : b'.result = some (.func f)) : b.result = some (.func f) ∨ f.interface.Closed := by
  cases e with
  | entered config => cases h
  | opened id o v =>
      obtain ⟨x, s, s', -, -, rfl⟩ := h
      exact .inl hf
  | called s c v =>
      obtain ⟨eff, s', -, hp⟩ := h
      cases eff with
      | setTop x =>
          cases hp
          rw [Builder.result_setTop] at hf
          exact .inl hf
      | registerThread w tag =>
          cases hp
          exact .inl hf
      | append st => exact .inl (Builder.result_of_appended hp hf)
  | closed id =>
      obtain ⟨g, gs, p, -, -, hc, hd⟩ := h
      have hp := Frame.close_closes hc
      generalize g.scope = x at hp
      cases hp with
      | func sound =>
          obtain ⟨-, -, rfl⟩ := Builder.delivered_func hd
          cases hf
          exact .inr (FuncScope.check_eq_ok_iff.1 sound)
      | block _ | branch _ _ | wrap _ =>
          refine .inl ?_
          exact (Builder.result_of_appendedAll hd hf :)
      | blockInit =>
          obtain ⟨y, -, rfl⟩ := Builder.delivered_blockInit hd
          rw [Builder.result_setTop] at hf
          exact .inl hf
      | thenCase =>
          obtain ⟨i, -, rfl⟩ := Builder.delivered_thenCase hd
          rw [Builder.result_setTop] at hf
          exact .inl hf
      | elseCase =>
          obtain ⟨i, -, rfl⟩ := Builder.delivered_elseCase hd
          rw [Builder.result_setTop] at hf
          exact .inl hf
  | discarded id e =>
      obtain ⟨g, gs, -, -, -, rfl⟩ := h
      exact .inl hf
  | failed x =>
      obtain rfl := h
      cases x <;> exact .inl hf

theorem Builder.Lived.result_closed {config : Config} {H : List Event} {b : Builder}
    {f : PrimFunc} (h : Lived config H b) (hf : b.result = some (.func f)) :
    f.interface.Closed := by
  induction h with
  | start => cases hf
  | step past last ih => exact (last.took.result_func hf).elim ih id

/-- As all keys are parameters, and no parameter occurs twice, going through the parameters
comes by every buffer once. -/
theorem PrimFunc.paramBuffers_perm {f : PrimFunc} (h : f.interface.Closed) :
    ∃ es : List (Var × Buffer), es.Perm f.bufferMap.entries ∧ f.paramBuffers = es.map Prod.snd ∧
      (es.map (·.1.id)).Sublist (f.params.map Var.id) := by
  have hsub : ((f.params.filterMap f.bufferMap.entry?).map (·.1.id)).Sublist
      (f.params.map Var.id) := by
    generalize f.params = vs
    induction vs with
    | nil => exact .slnil
    | cons v vs ih =>
        cases he : f.bufferMap.entry? v with
        | none => simpa [he] using ih.cons v.id
        | some e =>
            have hid : e.1.id = v.id := (OrderedMap.entry?_eq_some_iff.1 he).2
            simpa [he, hid] using ih
  have hentries : f.bufferMap.entries.Nodup := .of_map _ f.bufferMap.nodup
  refine ⟨f.params.filterMap f.bufferMap.entry?, ?_, ?_, hsub⟩
  · refine (List.perm_ext_iff_of_nodup ((h.distinct.sublist hsub).of_map _) hentries).2 ?_
    intro e
    rw [List.mem_filterMap]
    constructor
    · rintro ⟨v, -, he⟩
      exact (OrderedMap.entry?_eq_some_iff.1 he).1
    · intro he
      have hk : e.1 ∈ f.bufferMap.keys := List.mem_map_of_mem he
      obtain ⟨v, hv, hid⟩ := List.mem_map.1 (h.known e.1 (List.mem_append_left _ hk))
      exact ⟨v, hv, OrderedMap.entry?_eq_some_iff.2 ⟨he, hid.symm⟩⟩
  · rw [paramBuffers, List.map_filterMap]
    rfl

theorem Builder.frames_close_of_top {b : Builder} {f : Frame} {fs : List Frame} {e : BuildError}
    (kind : ScopeKind) (hf : b.frames = f :: fs) (he : (b.close f.id kind).1 = .error e) :
    (b.close f.id kind).2.frames = fs ∧ (b.close f.id kind).2.result = b.result := by
  rw [close_of_top kind hf] at he ⊢
  cases hr : (f.close b.config).bind { b with frames := fs }.delivered with
  | ok b' => simp [hr] at he
  | error e' => exact ⟨rfl, rfl⟩

namespace Program

/-- A function is accepted exactly if its parameters are distinct and its buffers lie behind
them, and it is gone otherwise; a function that a session gives back has the parameters in the
order of their calls, with the right buffers behind them. -/
theorem function_interfaces (supply : Supply) (acts : List Action) (id : SessionId) :
    (∀ f fs g kind, ((run supply acts).world.builder id).frames = f :: fs → f.scope = .func g →
      let closed := ((run supply acts).world.builder id).close f.id kind
      (closed.1 = .ok () ↔ (g.params.map Var.id).Nodup ∧
        ∀ k ∈ g.bufferMap.keys ++ g.preflattened.keys, k.id ∈ g.params.map Var.id) ∧
      (closed.1 ≠ .ok () → (∃ detail, closed.1 = .error (.invalidFunction detail)) ∧
        closed.2.frames = fs ∧ closed.2.result = none)) ∧
    (id ∈ (run supply acts).sessions → ∀ f,
      ((run supply acts).world.finish id).1 = .ok (.func f) →
      f.params = ((run supply acts).history id).filterMap Event.param? ∧
      (f.params.map Var.id).Nodup ∧
      (∀ k ∈ f.bufferMap.keys, k.id ∈ f.params.map Var.id) ∧
      (∀ k ∈ f.preflattened.keys, k ∈ f.bufferMap.keys) ∧
      (∀ s name x v, Event.called s (.argBuffer name x) v ∈ (run supply acts).history id →
        ∃ y, v = .buffer y ∧ f.bufferMap.get? (Var.fresh name .handle s).1 = some y) ∧
      ∃ es : List (Var × Buffer), es.Perm f.bufferMap.entries ∧ f.paramBuffers = es.map Prod.snd ∧
        (es.map (·.1.id)).Sublist (f.params.map Var.id)) := by
  constructor
  · intro f fs g kind hf hs closed
    have hb := (guarded_run supply acts).builders id
    have hc : closed.1 = g.check := hb.close_func hf hs kind
    constructor
    · rw [hc, FuncScope.check_eq_ok_iff]
      exact ⟨fun h => ⟨h.distinct, h.known⟩, fun h => ⟨h.1, h.2⟩⟩
    · intro hne
      cases he : closed.1 with
      | ok u => exact absurd he hne
      | error e =>
          obtain ⟨detail, rfl⟩ := FuncScope.check_eq_error (hc.symm.trans he)
          obtain ⟨hfs, hr⟩ := Builder.frames_close_of_top kind hf he
          refine ⟨⟨detail, rfl⟩, hfs, ?_⟩
          rw [hr]
          exact hb.quiet f (by simp [hf]) (by simp [Frame.kind, hs, Scope.kind])
  · intro hid f h
    obtain ⟨config, H, hh, hl⟩ := lived_run hid
    obtain ⟨he, hf, hr⟩ := Builder.finish_eq_ok h
    have hclosed := hl.result_closed hr
    have hm := hl.interface (hl.firstError_eq.symm.trans he)
    have hi : ((run supply acts).world.builder id).interface = f.interface := by
      simp [Builder.interface, Builder.nearestFunc?, hf, hr, Output.interface]
    rw [hi] at hm
    rw [hh]
    refine ⟨hm.params_eq, hclosed.distinct, ?_, hm.preflattened_keys, ?_,
      PrimFunc.paramBuffers_perm hclosed⟩
    · intro k hk
      exact hclosed.known k (List.mem_append_left _ hk)
    · intro s name x v hv
      obtain hv | hv := List.mem_cons.1 hv
      · cases hv
      · exact hm.get?_argBuffer hclosed.distinct hv

/-- A parameter of the program's own, and a buffer that it hands to a function. -/
def ownParam : Var := ⟨100, "n", .handle, none⟩

def handedBuffer : Buffer :=
  ⟨⟨101, "data", .handle, none⟩, .float 32, [.int32 4], [], .int32 0, "data", 64, 1, .default, []⟩

/-- A function that is still open, with two parameters and a buffer behind each. -/
def declaring : List Action := [.enter 0 {}, .openScope 0 .primFunc,
  .call 0 (.matchBuffer (.param ownParam) [.int32 4] (.float 32) {}),
  .call 0 (.argBuffer "A" handedBuffer), .call 0 (.argVar "m" ownParam),
  .call 0 (.preflattenedBuffer { handedBuffer with name := "A" } [.int32 2] (.float 32) {}),
  .call 0 (.evaluate (.int32 1))]

def declared : List Action := declaring ++ [.close ⟨0, 0, .primFunc⟩]

theorem function_interfaces_declaring :
    (((run .counting declaring).world.builder 0).close 0 .primFunc).1 = .ok () ∧
    (∃ detail, (((run .counting (declaring ++ [.call 0 (.argVar "again" ownParam)])).world.builder
      0).close 0 .primFunc).1 = .error (.invalidFunction detail)) ∧
    ∃ f, ((run .counting declared).world.finish 0).1 = .ok (.func f) ∧
      (∀ k ∈ f.preflattened.keys, k ∈ f.bufferMap.keys) ∧
      f.bufferMap.get? (Var.fresh "A" .handle ⟨id, 1⟩).1 =
        some { handedBuffer with name := "A" } := by
  refine ⟨?_, ?_, ?_⟩
  · exact ((function_interfaces .counting declaring 0).1 _ _ _ .primFunc rfl rfl).1.2
      ⟨by decide, by decide⟩
  · have h := (function_interfaces .counting
      (declaring ++ [.call 0 (.argVar "again" ownParam)]) 0).1 _ _ _ .primFunc rfl rfl
    refine (h.2 fun hc => ?_).1
    have hn := (h.1.1 hc).1
    revert hn
    decide
  · have hid : 0 ∈ (run .counting declared).sessions := by decide
    obtain ⟨f, hf⟩ : ∃ f, ((run .counting declared).world.finish 0).1 = .ok (.func f) := ⟨_, rfl⟩
    have hcall : Event.called ⟨id, 1⟩ (.argBuffer "A" handedBuffer)
        (.buffer { handedBuffer with name := "A" }) ∈ (run .counting declared).history 0 :=
      List.mem_of_getElem? (i := 3) rfl
    obtain ⟨-, -, -, hp, hb, -⟩ := (function_interfaces .counting declared 0).2 hid f hf
    obtain ⟨y, hv, hy⟩ := hb _ _ _ _ hcall
    cases hv
    exact ⟨f, hf, hp, hy⟩

end Program

end TensorProgram
