import TensorProgram.Proofs.Effects
import TensorProgram.Proofs.History

/-!
The stack of open scopes. Its scopes are numbered upwards in the order in which they were
opened, and every scope sits where it belongs, so that what was checked at an opening still
holds at the closing, whatever has been done in between. The open scopes are read off the
history: they are those opened and not yet closed.
-/

namespace TensorProgram

/-- The number and the kind of an open scope, which it keeps. -/
def Frame.key (f : Frame) : Nat × ScopeKind := (f.id, f.kind)

theorem Scope.eq_block {x : Scope} (h : x.kind = .block) : ∃ y, x = .block y := by
  cases x with
  | block y => exact ⟨y, rfl⟩
  | wrap w => cases hw : w.kind <;> simp [kind, hw, WrapKind.scopeKind] at h
  | _ => cases h

theorem Scope.eq_func {x : Scope} (h : x.kind = .primFunc) : ∃ g, x = .func g := by
  cases x with
  | func g => exact ⟨g, rfl⟩
  | wrap w => cases hw : w.kind <;> simp [kind, hw, WrapKind.scopeKind] at h
  | _ => cases h

namespace Builder

/-- What an operation leaves alone that neither opens nor closes a scope. -/
structure Keeps (b b' : Builder) : Prop where
  config : b'.config = b.config
  nextId : b'.nextId = b.nextId
  firstError : b'.firstError = b.firstError
  keys : b'.frames.map Frame.key = b.frames.map Frame.key

theorem Keeps.refl (b : Builder) : b.Keeps b := ⟨rfl, rfl, rfl, rfl⟩

theorem Keeps.trans {a b c : Builder} (h : a.Keeps b) (h' : b.Keeps c) : a.Keeps c :=
  ⟨h'.config.trans h.config, h'.nextId.trans h.nextId, h'.firstError.trans h.firstError,
    h'.keys.trans h.keys⟩

variable {b b' : Builder}

theorem keeps_setTop {x y : Scope} (h : b.Top x) (hk : y.kind = x.kind) :
    b.Keeps (b.setTop y) := by
  obtain ⟨f, fs, hf, rfl⟩ := h
  obtain ⟨config, frames, nextId, result, firstError⟩ := b
  cases hf
  exact ⟨rfl, rfl, rfl, by simp [setTop, Frame.key, Frame.kind, hk]⟩

theorem keeps_appended {s : Stmt} (h : b.appended s = .ok b') : b.Keeps b' := by
  obtain ⟨f, fs, hf, rfl⟩ | ⟨-, r, rfl⟩ := appended_eq_ok h
  · exact ⟨rfl, rfl, rfl, by simp [hf, Frame.key, Frame.kind]⟩
  · exact ⟨rfl, rfl, rfl, rfl⟩

theorem keeps_delivered {p : Product} (h : b.delivered p = .ok b') : b.Keeps b' := by
  cases p with
  | stmts ss => exact appendedAll_induction .refl .trans keeps_appended h
  | func f =>
      obtain ⟨-, -, rfl⟩ := delivered_func h
      exact ⟨rfl, rfl, rfl, rfl⟩
  | blockInit s =>
      obtain ⟨x, ht, rfl⟩ := delivered_blockInit h
      exact keeps_setTop ht rfl
  | thenCase s =>
      obtain ⟨i, ht, rfl⟩ := delivered_thenCase h
      exact keeps_setTop ht rfl
  | elseCase s =>
      obtain ⟨i, ht, rfl⟩ := delivered_elseCase h
      exact keeps_setTop ht rfl

theorem key_updateFunc (g : FuncScope → FuncScope) (fs : List Frame) :
    (updateFunc g fs).map Frame.key = fs.map Frame.key := by
  induction fs with
  | nil => rfl
  | cons f fs ih =>
      cases hf : f.scope <;>
        simp [updateFunc, hf, ih, Frame.key, Frame.kind, Scope.kind]

theorem updateFunc_of_none (g : FuncScope → FuncScope) {above : List Frame}
    (h : ∀ f ∈ above, f.scope.func? = none) (below : List Frame) :
    updateFunc g (above ++ below) = above ++ updateFunc g below := by
  induction above with
  | nil => rfl
  | cons f above ih =>
      have hf := h f List.mem_cons_self
      have hr := ih fun x hx => h x (List.mem_cons_of_mem f hx)
      cases hs : f.scope with
      | func x => simp [hs, Scope.func?] at hf
      | _ => simp [updateFunc, hs, hr]

/-- There is a function among the scopes above, and none below is changed. -/
theorem updateFunc_of_some (g : FuncScope → FuncScope) {above : List Frame}
    (h : ∃ f ∈ above, f.scope.func? ≠ none) (below : List Frame) :
    updateFunc g (above ++ below) = updateFunc g above ++ below := by
  induction above with
  | nil =>
      obtain ⟨f, hf, -⟩ := h
      cases hf
  | cons f above ih =>
      cases hs : f.scope with
      | func x => simp [updateFunc, hs]
      | block _ | blockInit | branch _ | thenCase | elseCase | wrap _ =>
          have ha : ∃ f ∈ above, f.scope.func? ≠ none := by
            obtain ⟨g, hg, hn⟩ := h
            obtain rfl | hg := List.mem_cons.1 hg
            · exact absurd (by rw [hs]; rfl) hn
            · exact ⟨g, hg, hn⟩
          simp [updateFunc, hs, ih ha]

theorem mem_updateFunc {g : FuncScope → FuncScope} {fs : List Frame} {f : Frame}
    (h : f ∈ updateFunc g fs) :
    f ∈ fs ∨ ∃ f₀ x, f₀ ∈ fs ∧ f₀.scope = .func x ∧ f = { f₀ with scope := .func (g x) } := by
  induction fs with
  | nil => cases h
  | cons f₀ fs ih =>
      have later (h : f ∈ f₀ :: updateFunc g fs) : f ∈ f₀ :: fs ∨
          ∃ f₁ x, f₁ ∈ f₀ :: fs ∧ f₁.scope = .func x ∧ f = { f₁ with scope := .func (g x) } := by
        obtain rfl | h := List.mem_cons.1 h
        · exact Or.inl List.mem_cons_self
        · obtain h | ⟨f₁, x, h, hx, he⟩ := ih h
          · exact Or.inl (List.mem_cons_of_mem f₀ h)
          · exact Or.inr ⟨f₁, x, List.mem_cons_of_mem f₀ h, hx, he⟩
      cases hf : f₀.scope with
      | func x =>
          simp only [updateFunc, hf] at h
          obtain rfl | h := List.mem_cons.1 h
          · exact Or.inr ⟨f₀, x, List.mem_cons_self, hf, rfl⟩
          · exact Or.inl (List.mem_cons_of_mem f₀ h)
      | _ =>
          simp only [updateFunc, hf] at h
          exact later h

end Builder

/-- A call that changes a field changes one of the innermost block or function, and neither
the init of the block nor the threads of the function. -/
inductive Scope.Refines : Scope → Scope → Prop where
  | block {x y : BlockScope} (h : y.init = x.init) : Refines (.block x) (.block y)
  | func {g g' : FuncScope} (h : g'.threads = g.threads) : Refines (.func g) (.func g')

theorem Scope.Refines.kind {x y : Scope} (h : x.Refines y) : y.kind = x.kind := by
  cases h <;> rfl

theorem Call.Does.refines {b : Builder} {s : Supply} {c : Call} {v : Value} {y : Scope}
    (h : c.Does b s v (.setTop y)) : ∃ x, b.Top x ∧ x.Refines y := by
  cases h with
  | guard _ top _ | reads _ top _ | writes _ top _ | blockAttrs _ top _
  | allocInBlock _ _ _ _ top | matchRegion _ _ _ _ _ top | axis _ _ _ _ _ top
  | remap _ _ _ top _ => exact ⟨_, top, .block rfl⟩
  | allocInFunc _ _ _ _ top | matchParam _ _ _ _ _ top _ | preflattened _ _ _ _ _ top _ _
  | argVar _ _ top | argBuffer _ _ top | funcName _ top _ | funcAttrs _ top _
  | funcRet _ top _ => exact ⟨_, top, .func rfl⟩

theorem Call.Does.keeps {b b' : Builder} {s : Supply} {c : Call} {v : Value} {eff : Effect}
    (h : c.Does b s v eff) (hp : b.performed eff = .ok b') : b.Keeps b' := by
  cases eff with
  | setTop y =>
      obtain ⟨x, ht, hr⟩ := h.refines
      cases hp
      exact Builder.keeps_setTop ht hr.kind
  | registerThread w tag =>
      cases hp
      exact ⟨rfl, rfl, rfl, Builder.key_updateFunc _ _⟩
  | append s => exact Builder.keeps_appended hp

def Opening.kind : Opening → ScopeKind
  | .primFunc => .primFunc
  | .block _ _ => .block
  | .blockInit => .blockInit
  | .loop _ _ _ _ | .grid _ => .loops
  | .branch _ => .branch
  | .thenCase => .thenCase
  | .elseCase => .elseCase
  | .whileLoop _ => .whileLoop
  | .bind _ _ => .bind
  | .allocate _ _ _ _ _ => .allocate
  | .allocateConst _ _ _ _ => .allocateConst
  | .attr _ _ _ => .attr
  | .assert _ _ => .assert
  | .launchThread _ _ => .launchThread
  | .realize _ _ _ => .realize

theorem Opening.Makes.kind {b : Builder} {o : Opening} {v : Value} {x : Scope}
    (h : o.Makes b v x) : x.kind = o.kind := by
  cases h <;> rfl

namespace Event

/-- The mistake that the session remembers of the event. What no word can hold is none. -/
def error? : Event → Option BuildError
  | .failed (.refused e) | .discarded _ e => some e
  | _ => none

def opened? : Event → Option (Nat × ScopeKind)
  | .opened id o _ => some (id, o.kind)
  | _ => none

/-- The scope is no longer open after the event, whether or not its product was accepted. -/
def closes (id : Nat) : Event → Bool
  | .closed id' | .discarded id' _ => id' = id
  | _ => false

/-- The scopes opened and not yet closed, in the order in which they were opened. -/
def unclosed (H : List Event) : List (Nat × ScopeKind) :=
  (H.filterMap opened?).filter fun x => !H.any (closes x.1)

theorem unclosed_append {H : List Event} {e : Event} (h : e.opened? = none) :
    unclosed (H ++ [e]) = (unclosed H).filter fun x => !e.closes x.1 := by
  simp only [unclosed, List.filterMap_append, List.filter_filter, List.any_append,
    List.filterMap_cons, h, List.filterMap_nil, List.append_nil, List.any_cons, List.any_nil,
    Bool.or_false, Bool.not_or]
  exact List.filter_congr fun x _ => Bool.and_comm _ _

/-- What a step with this event does to the numbers and kinds of the open scopes. -/
def Moves (b b' : Builder) : Event → Prop
  | .opened id o _ => id = b.nextId ∧ b'.nextId = b.nextId + 1 ∧
      b'.frames.map Frame.key = (id, o.kind) :: b.frames.map Frame.key
  | .closed id | .discarded id _ => b'.nextId = b.nextId ∧ ∃ kind,
      b.frames.map Frame.key = (id, kind) :: b'.frames.map Frame.key
  | .entered _ | .called _ _ _ | .failed _ => b'.nextId = b.nextId ∧
      b'.frames.map Frame.key = b.frames.map Frame.key

variable {b b' : Builder} {e : Event}

theorem Took.moves (h : e.Took b b') : e.Moves b b' := by
  cases e with
  | entered config => cases h
  | opened id o v =>
      obtain ⟨scope, s, s', hs, rfl, rfl⟩ := h
      exact ⟨rfl, rfl, by simp [Builder.push, Frame.key, Frame.kind, (Opening.scope_makes hs).kind]⟩
  | called s c v =>
      obtain ⟨eff, s', he, hp⟩ := h
      have hk := (Call.effect_does he).keeps hp
      exact ⟨hk.nextId, hk.keys⟩
  | closed id =>
      obtain ⟨f, fs, p, hf, rfl, hc, hd⟩ := h
      have hk := Builder.keeps_delivered hd
      exact ⟨hk.nextId, f.kind, by simp [hf, hk.keys, Frame.key]⟩
  | discarded id e =>
      obtain ⟨f, fs, hf, rfl, he, rfl⟩ := h
      exact ⟨rfl, f.kind, by simp [hf, Builder.record, Frame.key]⟩
  | failed f =>
      obtain rfl := h
      cases f <;> exact ⟨rfl, rfl⟩

theorem Moves.ordered (h : e.Moves b b')
    (hb : (b.nextId :: b.frames.map Frame.id).Pairwise (· > ·)) :
    (b'.nextId :: b'.frames.map Frame.id).Pairwise (· > ·) := by
  have hk (b : Builder) : b.frames.map Frame.id = (b.frames.map Frame.key).map Prod.fst := by
    simp [Frame.key, Function.comp_def]
  simp only [hk] at hb ⊢
  cases e with
  | opened id o v =>
      obtain ⟨rfl, hn, hf⟩ := h
      rw [hn, hf, List.map_cons, List.pairwise_cons]
      refine ⟨?_, hb⟩
      intro n hn
      obtain rfl | hn := List.mem_cons.1 hn
      · exact Nat.lt_succ_self _
      · exact Nat.lt_succ_of_lt ((List.pairwise_cons.1 hb).1 n hn)
  | closed id | discarded id _ =>
      obtain ⟨hn, kind, hf⟩ := h
      rw [hf, List.map_cons] at hb
      rw [hn]
      exact hb.sublist (by simp)
  | entered _ | called _ _ _ | failed _ =>
      obtain ⟨hn, hf⟩ := h
      rwa [hn, hf]

theorem Moves.nextId_le (h : e.Moves b b') : b.nextId ≤ b'.nextId := by
  cases e with
  | opened id o v => exact h.2.1 ▸ Nat.le_succ _
  | closed _ | discarded _ _ | entered _ | called _ _ _ | failed _ => exact Nat.le_of_eq h.1.symm

/-- A scope that is open stays so until it is closed. -/
theorem Moves.mem_keys (h : e.Moves b b') {x : Nat × ScopeKind}
    (hx : x ∈ b.frames.map Frame.key) (hc : e.closes x.1 = false) :
    x ∈ b'.frames.map Frame.key := by
  cases e with
  | opened id o v =>
      rw [h.2.2]
      exact List.mem_cons_of_mem _ hx
  | closed id | discarded id _ =>
      obtain ⟨-, kind, hf⟩ := h
      rw [hf, List.mem_cons] at hx
      obtain rfl | hx := hx
      · simp [closes] at hc
      · exact hx
  | entered _ | called _ _ _ | failed _ =>
      rw [h.2]
      exact hx

theorem Took.config (h : e.Took b b') : b'.config = b.config := by
  cases e with
  | entered config => cases h
  | opened id o v =>
      obtain ⟨scope, s, s', -, -, rfl⟩ := h
      rfl
  | called s c v =>
      obtain ⟨eff, s', he, hp⟩ := h
      exact ((Call.effect_does he).keeps hp).config
  | closed id =>
      obtain ⟨f, fs, p, -, -, -, hd⟩ := h
      exact (Builder.keeps_delivered hd).config
  | discarded id e =>
      obtain ⟨f, fs, -, -, -, rfl⟩ := h
      rfl
  | failed f =>
      obtain rfl := h
      cases f <;> rfl

theorem Took.firstError (h : e.Took b b') : b'.firstError = b.firstError.or e.error? := by
  cases e with
  | entered config => cases h
  | opened id o v =>
      obtain ⟨scope, s, s', -, -, rfl⟩ := h
      simp [error?, Builder.push]
  | called s c v =>
      obtain ⟨eff, s', he, hp⟩ := h
      simp [error?, ((Call.effect_does he).keeps hp).firstError]
  | closed id =>
      obtain ⟨f, fs, p, -, -, -, hd⟩ := h
      simp [error?, (Builder.keeps_delivered hd).firstError]
  | discarded id e =>
      obtain ⟨f, fs, -, -, -, rfl⟩ := h
      rfl
  | failed f =>
      obtain rfl := h
      cases f with
      | refused e => rfl
      | overflow o => simp [error?, Builder.failed]

end Event

namespace Builder.Lived

variable {config : Config} {H : List Event} {b : Builder}

theorem config_eq (h : Lived config H b) : b.config = config := by
  induction h with
  | start => rfl
  | step past last ih => exact last.took.config.trans ih

/-- The builder remembers the first mistake that was made. -/
theorem firstError_eq (h : Lived config H b) : b.firstError = H.findSome? Event.error? := by
  induction h with
  | start => rfl
  | @step H b e b' past last ih =>
      rw [last.took.firstError, ih, List.findSome?_append, List.findSome?_cons]
      cases e.error? <;> rfl

/-- Inner scopes have greater numbers, and all of them have been used. -/
theorem ordered (h : Lived config H b) :
    (b.nextId :: b.frames.map Frame.id).Pairwise (· > ·) := by
  induction h with
  | start => simp
  | step past last ih => exact last.took.moves.ordered ih

/-- The scopes are numbered in the order of their openings. -/
theorem opened_ids (h : Lived config H b) :
    (H.filterMap Event.opened?).map Prod.fst = List.range b.nextId := by
  induction h with
  | start => rfl
  | @step H b e b' past last ih =>
      have hm := last.took.moves
      rw [List.filterMap_append, List.map_append, ih]
      cases e with
      | opened id o v =>
          obtain ⟨rfl, hn, hf⟩ := hm
          rw [hn, List.range_succ]
          rfl
      | closed id | discarded id _ | entered _ | called _ _ _ | failed _ =>
          rw [hm.1]
          simp [Event.opened?]

/-- Only scopes that have been opened are closed. -/
theorem lt_of_closes (h : Lived config H b) {id : Nat} (hc : H.any (Event.closes id)) :
    id < b.nextId := by
  induction h with
  | start => simp at hc
  | @step H b e b' past last ih =>
      have hm := last.took.moves
      rw [List.any_append, Bool.or_eq_true] at hc
      obtain hc | hc := hc
      · have hlt := ih hc
        cases e with
        | opened id' o v => exact hm.2.1 ▸ Nat.lt_succ_of_lt hlt
        | closed id' | discarded id' _ | entered _ | called _ _ _ | failed _ =>
            exact hm.1 ▸ hlt
      · cases e with
        | closed id' | discarded id' _ =>
            obtain rfl : id' = id := by simpa [Event.closes] using hc
            obtain ⟨hn, kind, hf⟩ := hm
            have hid : id' ∈ b.frames.map Frame.id := by
              have hmem : (id', kind) ∈ b.frames.map Frame.key := by simp [hf]
              obtain ⟨f, hf, he⟩ := List.mem_map.1 hmem
              exact List.mem_map.2 ⟨f, hf, congrArg Prod.fst he⟩
            rw [hn]
            exact (List.pairwise_cons.1 past.ordered).1 id' hid
        | opened _ _ _ | entered _ | called _ _ _ | failed _ => simp [Event.closes] at hc

/-- The open scopes are those opened and not yet closed. -/
theorem unclosed_eq (h : Lived config H b) :
    Event.unclosed H = (b.frames.map Frame.key).reverse := by
  induction h with
  | start => rfl
  | @step H b e b' past last ih =>
      have hm := last.took.moves
      cases e with
      | opened id o v =>
          obtain ⟨rfl, hn, hf⟩ := hm
          -- The new number has not been used, so nothing that was closed has it.
          have hnew : H.any (Event.closes b.nextId) = false := by
            rw [Bool.eq_false_iff]
            intro hc
            exact Nat.lt_irrefl _ (past.lt_of_closes hc)
          rw [hf, List.reverse_cons, ← ih]
          simp [Event.unclosed, Event.opened?, Event.closes, hnew]
      | closed id | discarded id _ =>
          obtain ⟨hn, kind, hf⟩ := hm
          have hid : ∀ x ∈ b'.frames.map Frame.key, x.1 ≠ id := by
            have hp : ((b.frames.map Frame.key).map Prod.fst).Pairwise (· > ·) := by
              simpa [Frame.key, Function.comp_def] using (List.pairwise_cons.1 past.ordered).2
            rw [hf, List.map_cons, List.pairwise_cons] at hp
            intro x hx
            exact Nat.ne_of_lt (hp.1 x.1 (List.mem_map_of_mem hx))
          rw [Event.unclosed_append rfl, ih, hf, List.filter_reverse, List.filter_cons]
          simp only [Event.closes, decide_true, Bool.not_true, Bool.false_eq_true, if_false]
          rw [List.filter_eq_self.2]
          intro x hx
          simpa using (hid x hx).symm
      | entered _ | called _ _ _ | failed _ =>
          rw [hm.2, ← ih, Event.unclosed_append rfl]
          simp [Event.closes]

end Builder.Lived

namespace Scope

/-- What a scope relies on in those below it, from its opening to its closing. -/
def SitsOn : Scope → List Scope → Prop
  | .func _, below => below = []
  | .blockInit, .block x :: _ => x.init = none
  | .thenCase, .branch i :: _ => i.thenCase = none ∧ i.elseCase = none
  | .elseCase, .branch i :: _ => i.thenCase.isSome ∧ i.elseCase = none
  | .blockInit, _ | .thenCase, _ | .elseCase, _ => False
  | .block _, _ | .branch _, _ | .wrap _, _ => True

/-- An else branch comes after a then branch, and a thread has the name of its variable and
no domain until it is launched. -/
def Ordered : Scope → Prop
  | .branch i => i.elseCase.isSome → i.thenCase.isSome
  | .func g => ∀ e ∈ g.threads.entries, e.2 = .thread none e.2.var e.2.var.name
  | _ => True

/-- A stack of scopes, innermost first, each of which sits where it belongs. -/
def Stacked : List Scope → Prop
  | [] => True
  | x :: xs => x.SitsOn xs ∧ x.Ordered ∧ Stacked xs

theorem Refines.sitsOn {x y : Scope} (h : x.Refines y) {xs : List Scope} (hs : x.SitsOn xs) :
    y.SitsOn xs := by
  cases h with
  | block _ => trivial
  | func _ => exact hs

theorem Refines.ordered {x y : Scope} (h : x.Refines y) (ho : x.Ordered) : y.Ordered := by
  cases h with
  | block _ => trivial
  | func h =>
      intro e he
      exact ho e (h ▸ he)

/-- What a scope relies on is not in the thread registry of a function. -/
theorem SitsOn.updateFunc {x : Scope} {g : FuncScope → FuncScope} {fs : List Frame}
    (h : x.SitsOn (fs.map Frame.scope)) : x.SitsOn ((Builder.updateFunc g fs).map Frame.scope) := by
  cases fs with
  | nil => exact h
  | cons f fs =>
      cases hf : f.scope with
      | func y =>
          cases x <;> simp [hf, SitsOn] at h ⊢
      | block y | branch y | blockInit | thenCase | elseCase | wrap y =>
          cases x <;> simp_all [Builder.updateFunc, SitsOn]

end Scope

theorem OrderedMap.mem_put {κ α β : Type} [Keyed α κ] [DecidableEq κ] {a : α} {b : β}
    {l : List (α × β)} {e : α × β} (h : e ∈ OrderedMap.put a b l) :
    e ∈ l ∨ Keyed.key e.1 = Keyed.key a ∧ e.2 = b := by
  induction l with
  | nil =>
      rw [OrderedMap.put, List.mem_singleton] at h
      exact Or.inr ⟨congrArg (Keyed.key ·.1) h, congrArg Prod.snd h⟩
  | cons x l ih =>
      rw [OrderedMap.put] at h
      split at h
      · rename_i hx
        obtain rfl | h := List.mem_cons.1 h
        · exact Or.inr ⟨hx, rfl⟩
        · exact Or.inl (List.mem_cons_of_mem _ h)
      · obtain rfl | h := List.mem_cons.1 h
        · exact Or.inl List.mem_cons_self
        · exact (ih h).imp_left (List.mem_cons_of_mem _)

namespace Scope

variable {b b' : Builder}

theorem Stacked.registerThread (v : Var) (h : Stacked (b.frames.map Frame.scope)) :
    Stacked ((b.registerThread v v.name).frames.map Frame.scope) := by
  rw [Builder.registerThread]
  dsimp only
  generalize b.frames = fs at h ⊢
  induction fs with
  | nil => trivial
  | cons f fs ih =>
      obtain ⟨hs, ho, hr⟩ := h
      cases hf : f.scope with
      | func g =>
          rw [hf] at hs ho
          simp only [Builder.updateFunc, hf, List.map_cons]
          refine ⟨hs, ?_, hr⟩
          intro e he
          obtain he | he := OrderedMap.mem_put he
          · exact ho e he
          · rw [he.2]
            rfl
      | block x | branch x | blockInit | thenCase | elseCase | wrap x =>
          simp only [Builder.updateFunc, hf, List.map_cons]
          exact ⟨hf ▸ hs.updateFunc, hf ▸ ho, ih hr⟩

theorem Stacked.setTop {x y : Scope} (h : Stacked (b.frames.map Frame.scope)) (ht : b.Top x)
    (hs : ∀ xs, x.SitsOn xs → y.SitsOn xs) (ho : x.Ordered → y.Ordered) :
    Stacked ((b.setTop y).frames.map Frame.scope) := by
  obtain ⟨f, fs, hf, rfl⟩ := ht
  rw [hf] at h
  rw [Builder.frames_setTop hf]
  exact ⟨hs _ h.1, ho h.2.1, h.2.2⟩

theorem scopes_appended {s : Stmt} (h : b.appended s = .ok b') :
    b'.frames.map Frame.scope = b.frames.map Frame.scope := by
  obtain ⟨f, fs, hf, rfl⟩ | ⟨-, r, rfl⟩ := Builder.appended_eq_ok h
  · simp [hf]
  · rfl

theorem scopes_appendedAll {ss : List Stmt} (h : b.appendedAll ss = .ok b') :
    b'.frames.map Frame.scope = b.frames.map Frame.scope := by
  refine Builder.appendedAll_induction (R := fun b b' =>
    b'.frames.map Frame.scope = b.frames.map Frame.scope) ?_ ?_ scopes_appended h
  · exact fun _ => rfl
  · exact fun h h' => h'.trans h

theorem Stacked.performed {s : Supply} {c : Call} {v : Value} {eff : Effect}
    (h : Stacked (b.frames.map Frame.scope)) (hd : c.Does b s v eff)
    (hp : b.performed eff = .ok b') : Stacked (b'.frames.map Frame.scope) := by
  cases eff with
  | setTop y =>
      obtain ⟨x, ht, hr⟩ := hd.refines
      cases hp
      exact h.setTop ht (fun _ => hr.sitsOn) hr.ordered
  | registerThread w tag =>
      cases hd
      cases hp
      exact h.registerThread w
  | append s => exact scopes_appended hp ▸ h

theorem Stacked.push {o : Opening} {v : Value} {x : Scope}
    (h : Stacked (b.frames.map Frame.scope)) (hm : o.Makes b v x) :
    Stacked ((b.push x).frames.map Frame.scope) := by
  refine ⟨?_, ?_, h⟩
  · cases hm with
    | primFunc top idle => simp [SitsOn, top]
    | blockInit top unset =>
        obtain ⟨f, fs, hf, hx⟩ := top
        simpa [hf, hx, SitsOn] using unset
    | thenCase top unset =>
        obtain ⟨f, fs, hf, hi⟩ := top
        rw [hf, List.map_cons, hi] at h ⊢
        refine ⟨unset, ?_⟩
        have ho := h.2.1
        simpa [Ordered, unset] using ho
    | elseCase top set unset =>
        obtain ⟨f, fs, hf, hi⟩ := top
        rw [hf, List.map_cons, hi]
        exact ⟨set, unset⟩
    | _ => trivial
  · cases hm with
    | primFunc _ _ => simp [Ordered]
    | branch _ => simp [Ordered]
    | _ => trivial

/-- The product of a scope is delivered to the one that it has sat on since its opening. -/
theorem Stacked.delivered {f : Frame} {fs : List Frame} {p : Product} {c : Config}
    (h : Stacked (b.frames.map Frame.scope)) (hf : b.frames = f :: fs) (hc : f.close c = .ok p)
    (hd : { b with frames := fs }.delivered p = .ok b') : Stacked (b'.frames.map Frame.scope) := by
  rw [hf] at h
  obtain ⟨hs, -, hr⟩ := h
  have hp := Frame.close_closes hc
  generalize hx : f.scope = x at hs hp
  cases hp with
  | block _ | branch _ _ | wrap _ => exact scopes_appendedAll hd ▸ hr
  | func _ =>
      obtain ⟨-, -, rfl⟩ := Builder.delivered_func hd
      exact hr
  | blockInit =>
      obtain ⟨y, ht, rfl⟩ := Builder.delivered_blockInit hd
      exact Stacked.setTop hr ht (fun _ _ => trivial) fun _ => trivial
  | thenCase =>
      obtain ⟨i, ht, rfl⟩ := Builder.delivered_thenCase hd
      exact Stacked.setTop hr ht (fun _ _ => trivial) fun _ _ => rfl
  | elseCase =>
      obtain ⟨i, ⟨g, gs, hg, hi⟩, rfl⟩ := Builder.delivered_elseCase hd
      obtain rfl : fs = g :: gs := hg
      rw [List.map_cons, hi] at hs
      exact Stacked.setTop hr ⟨g, gs, rfl, hi⟩ (fun _ _ => trivial) fun _ _ => hs.1

theorem Stacked.took {e : Event} (h : Stacked (b.frames.map Frame.scope)) (ht : e.Took b b') :
    Stacked (b'.frames.map Frame.scope) := by
  cases e with
  | entered config => cases ht
  | opened id o v =>
      obtain ⟨x, s, s', hs, -, rfl⟩ := ht
      exact h.push (Opening.scope_makes hs)
  | called s c v =>
      obtain ⟨eff, s', he, hp⟩ := ht
      exact h.performed (Call.effect_does he) hp
  | closed id =>
      obtain ⟨f, fs, p, hf, -, hc, hd⟩ := ht
      exact h.delivered hf hc hd
  | discarded id e =>
      obtain ⟨f, fs, hf, -, -, rfl⟩ := ht
      rw [hf] at h
      exact h.2.2
  | failed f =>
      obtain rfl := ht
      cases f <;> exact h

end Scope

theorem Builder.Lived.stacked {config : Config} {H : List Event} {b : Builder}
    (h : Lived config H b) : Scope.Stacked (b.frames.map Frame.scope) := by
  induction h with
  | start => trivial
  | step past last ih => exact ih.took last.took

/-! What can be seen of the open scopes. -/

/-- What is told of a scope that does not change when its init or its branches come in. -/
structure Scope.Steady {α : Type} (φ : Scope → α) : Prop where
  init (x : BlockScope) (s : Option Stmt) : φ (.block { x with init := s }) = φ (.block x)
  branch (i j : BranchScope) : φ (.branch i) = φ (.branch j)

namespace Builder

variable {α : Type} {b b' : Builder}

/-- The open scopes, innermost first, with what `φ` tells of each. -/
def told (φ : Scope → α) (b : Builder) : List ((Nat × ScopeKind) × α) :=
  b.frames.map fun f => (f.key, φ f.scope)

variable {φ : Scope → α}

theorem keys_told (b : Builder) : (b.told φ).map Prod.fst = b.frames.map Frame.key := by
  simp [told, Function.comp_def]

theorem told_setTop {x y : Scope} (ht : b.Top x) (hk : y.kind = x.kind) :
    ∃ k rest, b.told φ = (k, φ x) :: rest ∧ (b.setTop y).told φ = (k, φ y) :: rest := by
  obtain ⟨f, fs, hf, rfl⟩ := ht
  refine ⟨f.key, fs.map fun f => (f.key, φ f.scope), by rw [told, hf]; rfl, ?_⟩
  simp [told, frames_setTop hf, Frame.key, Frame.kind, hk]

theorem told_setTop_eq {x y : Scope} (ht : b.Top x) (hk : y.kind = x.kind) (hφ : φ y = φ x) :
    (b.setTop y).told φ = b.told φ := by
  obtain ⟨k, rest, hb, hb'⟩ := told_setTop (φ := φ) ht hk
  rw [hb, hb', hφ]

theorem told_appended {s : Stmt} (h : b.appended s = .ok b') : b'.told φ = b.told φ := by
  obtain ⟨f, fs, hf, rfl⟩ | ⟨-, r, rfl⟩ := appended_eq_ok h
  · simp [told, hf, Frame.key, Frame.kind]
  · rfl

theorem told_delivered (hφ : Scope.Steady φ) {p : Product} (h : b.delivered p = .ok b') :
    b'.told φ = b.told φ := by
  cases p with
  | stmts ss =>
      exact appendedAll_induction (R := fun b b' => b'.told φ = b.told φ) (fun _ => rfl)
        (fun h h' => h'.trans h) told_appended h
  | func f =>
      obtain ⟨-, -, rfl⟩ := delivered_func h
      rfl
  | blockInit s =>
      obtain ⟨x, ht, rfl⟩ := delivered_blockInit h
      exact told_setTop_eq ht rfl (hφ.init x _)
  | thenCase s =>
      obtain ⟨i, ht, rfl⟩ := delivered_thenCase h
      exact told_setTop_eq ht rfl (hφ.branch _ i)
  | elseCase s =>
      obtain ⟨i, ht, rfl⟩ := delivered_elseCase h
      exact told_setTop_eq ht rfl (hφ.branch _ i)

end Builder

/-- The scope that an event closes is the innermost one, and nothing else is told of the others. -/
theorem Event.Took.told_closes {α : Type} {φ : Scope → α} {b b' : Builder} {e : Event} {id : Nat}
    (h : e.Took b b') (hφ : Scope.Steady φ) (hc : e.closes id) :
    ∃ f fs, b.frames = f :: fs ∧ f.id = id ∧ b.told φ = (f.key, φ f.scope) :: b'.told φ := by
  cases e with
  | closed id' =>
      obtain rfl : id' = id := of_decide_eq_true hc
      obtain ⟨f, fs, p, hf, hid, -, hd⟩ := h
      refine ⟨f, fs, hf, hid, ?_⟩
      rw [Builder.told_delivered hφ hd, Builder.told, hf]
      rfl
  | discarded id' e =>
      obtain rfl : id' = id := of_decide_eq_true hc
      obtain ⟨f, fs, hf, hid, -, rfl⟩ := h
      refine ⟨f, fs, hf, hid, ?_⟩
      rw [Builder.told, hf]
      rfl
  | entered _ | opened _ _ _ | called _ _ _ | failed _ => cases hc

/-- Where no scope is opened and no call is made, nothing new is told. -/
theorem Event.Took.told_subset {α : Type} {φ : Scope → α} {b b' : Builder} {e : Event}
    (h : e.Took b b') (hφ : Scope.Steady φ) (ho : e.opened? = none)
    (hc : ∀ s c v, e ≠ .called s c v) : b'.told φ ⊆ b.told φ := by
  cases e with
  | entered config => cases h
  | opened id o v => cases ho
  | called s c v => exact absurd rfl (hc s c v)
  | closed id | discarded id _ =>
      obtain ⟨f, fs, -, -, ht⟩ := h.told_closes hφ (decide_eq_true rfl)
      rw [ht]
      exact List.subset_cons_self _ _
  | failed f =>
      obtain rfl := h
      cases f <;> exact List.Subset.refl _

namespace Builder.Lived

variable {config : Config} {H : List Event} {b : Builder} {k : Nat × ScopeKind}

theorem lt_of_opened (h : Lived config H b) (hk : k ∈ H.filterMap Event.opened?) :
    k.1 < b.nextId := by
  have hm := List.mem_map_of_mem (f := Prod.fst) hk
  rwa [h.opened_ids, List.mem_range] at hm

/-- What is told is told of the scopes that the history says are open. -/
theorem mem_unclosed_iff (h : Lived config H b) {α : Type} (φ : Scope → α) :
    k ∈ Event.unclosed H ↔ ∃ a, (k, a) ∈ b.told φ := by
  rw [h.unclosed_eq, List.mem_reverse, ← b.keys_told (φ := φ), List.mem_map]
  constructor
  · rintro ⟨r, hr, rfl⟩
    exact ⟨r.2, hr⟩
  · rintro ⟨a, ha⟩
    exact ⟨(k, a), ha, rfl⟩

/-- The innermost scope is the one that was opened last of those that are open. -/
theorem told_innermost (h : Lived config H b) {α : Type} {φ : Scope → α} {a : α}
    {rest : List ((Nat × ScopeKind) × α)} (ht : b.told φ = (k, a) :: rest) :
    (Event.unclosed H).getLast? = some k ∧ ∀ r ∈ rest, r.1 ≠ k := by
  have hkeys : k :: rest.map Prod.fst = b.frames.map Frame.key := by
    rw [← b.keys_told (φ := φ), ht, List.map_cons]
  constructor
  · rw [h.unclosed_eq, ← hkeys, List.getLast?_reverse, List.head?_cons]
  · have hids : (k :: rest.map Prod.fst).map Prod.fst = b.frames.map Frame.id := by
      rw [hkeys, List.map_map]
      rfl
    have hordered := (List.pairwise_cons.1 h.ordered).2
    rw [← hids, List.map_cons, List.pairwise_cons] at hordered
    rintro r hr rfl
    have hm : r.1.1 ∈ (rest.map Prod.fst).map Prod.fst :=
      List.mem_map_of_mem (List.mem_map_of_mem hr)
    exact Nat.lt_irrefl _ (hordered.1 _ hm)

end Builder.Lived

/-! Moments of a history. -/

namespace Event

/-- At some moment `P` held of an event and of what had come before it. -/
def Happened (P : List Event → Event → Prop) (H : List Event) : Prop :=
  ∃ past e, past ++ [e] <+: H ∧ P past e

variable {P : List Event → Event → Prop} {H H' : List Event} {e : Event}

theorem happened_snoc : Happened P (H ++ [e]) ↔ Happened P H ∨ P H e := by
  constructor
  · rintro ⟨past, d, hp, hd⟩
    obtain heq | hp := List.prefix_concat_iff.1 hp
    · obtain ⟨rfl, hde⟩ := List.append_inj' heq rfl
      obtain rfl := List.singleton_inj.1 hde
      exact .inr hd
    · exact .inl ⟨past, d, hp, hd⟩
  · rintro (⟨past, d, hp, hd⟩ | hd)
    · exact ⟨past, d, hp.trans (List.prefix_append _ _), hd⟩
    · exact ⟨H, e, List.prefix_refl _, hd⟩

theorem Happened.mono (hH : H <+: H') : Happened P H → Happened P H' := by
  rintro ⟨past, e, hp, he⟩
  exact ⟨past, e, hp.trans hH, he⟩

theorem unclosed_entered (config : Config) : unclosed (.entered config :: H) = unclosed H := rfl

/-- What does not look at how the session has been entered. -/
theorem happened_entered {config : Config} (start : ¬P [] (.entered config))
    (later : ∀ past e, P (.entered config :: past) e ↔ P past e) :
    Happened P (.entered config :: H) ↔ Happened P H := by
  constructor
  · rintro ⟨past, e, hp, he⟩
    cases past with
    | nil =>
        obtain ⟨rfl, -⟩ := List.cons_prefix_cons.1 hp
        exact absurd he start
    | cons d past =>
        obtain ⟨rfl, htail⟩ := List.cons_prefix_cons.1 hp
        exact ⟨past, e, htail, (later past e).1 he⟩
  · rintro ⟨past, e, hp, he⟩
    exact ⟨.entered config :: past, e, List.cons_prefix_cons.2 ⟨rfl, hp⟩, (later past e).2 he⟩

end Event

end TensorProgram
