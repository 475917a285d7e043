import TensorProgram.Proofs.Branches
import TensorProgram.Proofs.Lexical
import TensorProgram.Proofs.Unwinding
import TensorProgram.Proofs.Views

/-!
Settings. Some things can be said of a block or a function once. The first time is accepted, and
what was said then is what the block or function is made with, whatever has been tried after it
and whatever lies in between. A parameter takes one buffer, and one view of it before flattening.
-/

namespace TensorProgram

/-- What can be said once of a block or a function. -/
inductive Setting where
  | guard
  | reads
  | writes
  | blockAttrs
  | init
  | funcName
  | funcAttrs
  | funcRet
  deriving DecidableEq

namespace Setting

/-- The kind of scope that it is said in. -/
def kind : Setting → ScopeKind
  | .guard | .reads | .writes | .blockAttrs | .init => .block
  | .funcName | .funcAttrs | .funcRet => .primFunc

/-- What it is called when it is said again. -/
def field : Setting → String
  | .guard => "where"
  | .reads => "reads"
  | .writes => "writes"
  | .blockAttrs => "block_attrs"
  | .init => "init"
  | .funcName => "func_name"
  | .funcAttrs => "func_attrs"
  | .funcRet => "func_ret"

/-- The mistake of saying it again. -/
def again (k : Setting) : BuildError := .duplicateSetting k.kind k.field

theorem kind_eq (k : Setting) : k.kind = .block ∨ k.kind = .primFunc := by
  cases k <;> simp [kind]

end Setting

def Call.setting? : Call → Option Setting
  | .guard _ => some .guard
  | .reads _ => some .reads
  | .writes _ => some .writes
  | .blockAttrs _ => some .blockAttrs
  | .funcName _ => some .funcName
  | .funcAttrs _ => some .funcAttrs
  | .funcRet _ => some .funcRet
  | _ => none

namespace Item

/-- An init is a scope of its own. -/
def setting? : Item → Option Setting
  | .call _ k _ => k.setting?
  | .scope _ .blockInit _ _ => some .init
  | .scope _ _ _ _ => none

/-- The item tells the scope `k`. -/
def tells (k : Setting) (i : Item) : Bool := i.setting? = some k

/-- What the items tell the scope that they lie in. -/
def settings (items : List Item) : List Setting := items.filterMap setting?

/-- The init that the item makes. -/
def init? (c : Config) (around : List Head) : Item → Option Stmt
  | .scope _ .blockInit _ items => some (body c around items)
  | _ => none

end Item

/-- It has been said already in the scope. -/
def Scope.has : Scope → Setting → Bool
  | .block x, .guard => x.predicate.isSome
  | .block x, .reads => x.reads.isSome
  | .block x, .writes => x.writes.isSome
  | .block x, .blockAttrs => x.annotations.isSome
  | .block x, .init => x.init.isSome
  | .func g, .funcName => g.name.isSome
  | .func g, .funcAttrs => g.attrs.isSome
  | .func g, .funcRet => g.retType.isSome
  | _, _ => false

namespace Item

variable {c : Config} {around : List Head} {items : List Item}

theorem isSome_findSome? {α : Type} {f : Item → Option α} {k : Setting}
    (hf : ∀ i, (f i).isSome = i.tells k) : (items.findSome? f).isSome = items.any (tells k) := by
  rw [List.isSome_findSome?]
  exact congrArg items.any (funext hf)

theorem mem_settings {k : Setting} : k ∈ settings items ↔ items.any (tells k) = true := by
  simp [settings, tells]

theorem init?_product (c : Config) (around : List Head) (i : Item) :
    (i.product c around).init? = i.init? c around := by
  cases i with
  | call s k v => rfl
  | scope id o v items =>
      cases o with
      | grid es => cases es <;> rfl
      | _ => rfl

theorem findSome?_init?_products (c : Config) (around : List Head) (items : List Item) :
    (products c around items).findSome? Product.init? = items.findSome? (init? c around) := by
  rw [products_eq, List.findSome?_map]
  exact congrArg (items.findSome? ·) (funext (init?_product c around))

end Item

theorem Opening.kind_of_wraps {o : Opening} (h : o.wraps = true) :
    o.kind ≠ .block ∧ o.kind ≠ .primFunc := by
  cases o <;> simp [wraps, kind] at h ⊢

/-- An open scope has been told what its items say. -/
theorem Opening.Shows.has {c : Config} {around : List Head} {v : Value} {items : List Item}
    {heads : List Head} {o : Opening} {x : Scope}
    (h : o.Shows c around v items (Item.products c heads items) x) {k : Setting}
    (hk : x.kind = k.kind) : x.has k = items.any (Item.tells k) := by
  cases h with
  | func threads =>
      cases k with
      | funcName | funcAttrs | funcRet =>
          refine Item.isSome_findSome? fun i => ?_
          cases i with
          | call s k u => cases k <;> rfl
          | scope id o u is => cases o <;> rfl
      | _ => cases hk
  | block name bare =>
      cases k with
      | guard | reads | writes | blockAttrs =>
          refine Item.isSome_findSome? fun i => ?_
          cases i with
          | call s k u => cases k <;> rfl
          | scope id o u is => cases o <;> rfl
      | init =>
          rw [Scope.has, BlockScope.collect, Item.findSome?_init?_products]
          refine Item.isSome_findSome? fun i => ?_
          cases i with
          | call s k u => cases k <;> rfl
          | scope id o u is => cases o <;> rfl
      | _ => cases hk
  | wrap ho hw =>
      obtain hb | hb := k.kind_eq
      · obtain ⟨y, hy⟩ := Scope.eq_block (hk.trans hb)
        cases hy
      · obtain ⟨g, hg⟩ := Scope.eq_func (hk.trans hb)
        cases hg
  | blockInit | branch _ | thenCase | elseCase => cases k <;> cases hk

/-- A block or function that is open was opened as one. -/
theorem Opening.Shows.kind {c : Config} {around : List Head} {v : Value} {items : List Item}
    {ps : List Product} {o : Opening} {x : Scope} (h : o.Shows c around v items ps x)
    {k : Setting} (hk : o.kind = k.kind) : x.kind = k.kind := by
  cases h with
  | wrap ho hw =>
      obtain ⟨hb, hf⟩ := Opening.kind_of_wraps ho
      rw [hk] at hb hf
      exact (k.kind_eq.elim hb hf).elim
  | _ => exact hk

theorem OrderedMap.contains_eq {β : Type} (m : OrderedMap Var β) (v : Var) :
    m.contains v = decide (v.id ∈ m.entries.map (·.1.id)) := by
  rw [Bool.eq_iff_iff]
  simp [contains, get?, List.find?_isSome, Keyed.key]

namespace Call

variable {b : Builder} {c : Call} {s : Supply}

theorem blockEffect_of_top {α : Type} {x : BlockScope} (h : b.Top (.block x)) (op field : String)
    (old : BlockScope → Option α) (set : BlockScope → BlockScope) :
    blockEffect b op field old set =
      if (old x).isSome then .error (.duplicateSetting .block field)
      else .ok (.setTop (.block (set x))) := by
  simp only [blockEffect, Builder.topBlock_eq_ok_iff.2 h, ok_bind]
  rfl

theorem funcEffect_of_top {α : Type} {g : FuncScope} (h : b.Top (.func g)) (op : String)
    (old : FuncScope → Option α) (set : FuncScope → FuncScope) :
    funcEffect b op old set =
      if (old g).isSome then .error (.duplicateSetting .primFunc op)
      else .ok (.setTop (.func (set g))) := by
  simp only [funcEffect, Builder.topFunc_eq_ok_iff.2 h, ok_bind]
  rfl

/-- A setting is accepted in a scope that has not been told, and in no other. -/
theorem effect_setting {k : Setting} (hk : c.setting? = some k) {x : Scope} (ht : b.Top x)
    (hx : x.kind = k.kind) (s : Supply) :
    (x.has k = true → c.effect b s = .error (.refused k.again)) ∧
    (x.has k = false → ∃ y v, c.effect b s = .ok ((.setTop y, v), s)) := by
  have settle (old : Bool) (y : Scope) (v : Value) :
      let r : Attempt (Effect × Value) := do
        return (← Attempt.check (if old then .error k.again else .ok (.setTop y)), v)
      (old = true → r s = .error (.refused k.again)) ∧
        (old = false → ∃ y v, r s = .ok ((.setTop y, v), s)) := by
    cases old with
    | true => exact ⟨fun _ => rfl, by simp⟩
    | false => exact ⟨by simp, fun _ => ⟨y, v, rfl⟩⟩
  cases c with
  | guard _ | reads _ | writes _ | blockAttrs _ =>
      cases hk
      obtain ⟨y, rfl⟩ := Scope.eq_block hx
      rw [effect, blockEffect_of_top ht]
      exact settle _ _ _
  | funcName _ | funcAttrs _ | funcRet _ =>
      cases hk
      obtain ⟨y, rfl⟩ := Scope.eq_func hx
      rw [effect, funcEffect_of_top ht]
      exact settle _ _ _
  | _ => cases hk

/-- A buffer is matched to a parameter that is not a key yet. -/
theorem effect_matchParam {g : FuncScope} (ht : b.Top (.func g)) (p : Var) (shape : List Expr)
    (dtype : DataType) (o : BufferOptions) (s : Supply) :
    (Call.matchBuffer (.param p) shape dtype o).effect b s =
      match Buffer.declare shape dtype (o.alignmentOr b.config.alignment) s with
      | .error e => .error (.refused e)
      | .ok (y, s') => if g.bufferMap.contains p then .error (.refused (.parameterMatched p.text))
          else .ok ((.setTop (.func { g with bufferMap := g.bufferMap.insert p y }), .buffer y), s')
    := by
  rw [effect, Attempt.bind_apply, Attempt.declare_apply]
  cases Buffer.declare shape dtype (o.alignmentOr b.config.alignment) s with
  | error e => rfl
  | ok r =>
      simp only [Attempt.bind_apply, Attempt.check_apply, matchEffect,
        Builder.topFunc_eq_ok_iff.2 ht, ok_bind]
      cases g.bufferMap.contains p <;> rfl

/-- A view is taken of a buffer behind a parameter without a view. -/
theorem effect_preflattened {g : FuncScope} (ht : b.Top (.func g)) (of : Buffer)
    (shape : List Expr) (dtype : DataType) (o : BufferOptions) (s : Supply) :
    (Call.preflattenedBuffer of shape dtype o).effect b s =
      match Buffer.declare shape dtype { o with data := o.data.or (some of.data) } s with
      | .error e => .error (.refused e)
      | .ok (y, s') => match g.bufferMap.entries.find? fun e => e.2.sameAs of with
        | none => .error (.refused (.bufferUnmatched of.name))
        | some e => if g.preflattened.contains e.1 then
              .error (.refused (.duplicateSetting .primFunc "preflattened_buffer"))
            else .ok ((.setTop (.func { g with preflattened := g.preflattened.insert e.1 y }),
              .buffer y), s') := by
  rw [effect, Attempt.bind_apply, Attempt.declare_apply]
  cases Buffer.declare shape dtype { o with data := o.data.or (some of.data) } s with
  | error e => rfl
  | ok r =>
      simp only [Attempt.bind_apply, Attempt.check_apply, preflattenEffect,
        Builder.topFunc_eq_ok_iff.2 ht, ok_bind]
      cases g.bufferMap.entries.find? fun e => e.2.sameAs of with
      | none => rfl
      | some e =>
          dsimp only
          cases g.preflattened.contains e.1 <;> rfl

/-- A setting that goes through is the first one. -/
theorem Does.unset {v : Value} {eff : Effect} (h : c.Does b s v eff) {k : Setting}
    (hk : c.setting? = some k) : ∃ x, b.Top x ∧ x.kind = k.kind ∧ x.has k = false := by
  cases h with
  | guard _ top unset | reads _ top unset | writes _ top unset | blockAttrs _ top unset
  | funcName _ top unset | funcAttrs _ top unset | funcRet _ top unset =>
      cases hk
      exact ⟨_, top, rfl, by simp [Scope.has, unset]⟩
  | _ => cases hk

end Call

theorem Opening.checkInit_of_top {b : Builder} {x : BlockScope} (h : b.Top (.block x)) :
    checkInit b = if x.init.isSome then .error Setting.init.again else .ok () := by
  simp only [checkInit, Builder.topBlock_eq_ok_iff.2 h, ok_bind]
  rfl

namespace Item

variable {c : Config} {around : List Head} {items : List Item}

/-- The settings among the items after one more. -/
theorem nodup_snoc {i : Item} (h : (settings items).Nodup)
    (hi : ∀ k, i.setting? = some k → items.any (tells k) = false) :
    (settings (items ++ [i])).Nodup := by
  rw [settings, List.filterMap_append, filterMap_singleton]
  cases hs : i.setting? with
  | none => rwa [Option.toList_none, List.append_nil]
  | some k =>
      rw [Option.toList_some, List.nodup_append]
      refine ⟨h, by simp, ?_⟩
      intro k' hk' k'' hk''
      obtain rfl := List.mem_singleton.1 hk''
      rintro rfl
      obtain ⟨j, hj, hjk⟩ := List.mem_filterMap.1 hk'
      exact absurd (decide_eq_true hjk) (List.any_eq_false.1 (hi k' hs) j hj)

end Item

/-- What has been said shows in what the scope makes, and where nothing has been said the default
does. -/
def Product.Carries (c : Config) (around : List Head) (items : List Item) : Product → Prop
  | .stmts [.block r x init _] =>
      x.reads = (items.findSome? Item.reads?).getD [] ∧
      x.writes = (items.findSome? Item.writes?).getD [] ∧
      x.annotations = (items.findSome? Item.blockAttrs?).getD ∅ ∧
      init = items.findSome? (Item.init? c around) ∧
      match r with
      | some r => r.predicate = (items.findSome? Item.predicate?).getD (.bool true)
      | none => items.findSome? Item.predicate? = none
  | .func g =>
      g.name = items.findSome? Item.funcName? ∧
      g.attrs = (items.findSome? Item.funcAttrs?).getD ∅ ∧
      g.retType = (items.findSome? Item.funcRet?).getD .void
  | _ => False

/-- A block without values has no predicate either. -/
theorem BlockScope.predicate_of_realization {x : BlockScope} (h : x.realization = .ok none) :
    x.predicate = none := by
  rw [realization] at h
  cases hb : x.bare <;> cases ha : x.axes.isEmpty <;> cases hp : x.predicate <;>
    simp [hb, ha, hp] at h ⊢

theorem Opening.Shows.carries {c : Config} {around : List Head} {v : Value} {items : List Item}
    {o : Opening} {f : Frame} {p : Product}
    (h : o.Shows c around v items (Item.products c (o.heads c around v ++ around) items) f.scope)
    (ho : o.kind = .block ∨ o.kind = .primFunc) (hp : f.close c = .ok p) :
    p.Carries c around items := by
  have hc := Frame.close_closes hp
  generalize f.scope = x at h hc
  cases h with
  | func threads =>
      cases hc with
      | func sound => exact ⟨rfl, rfl, rfl⟩
  | block name bare =>
      cases hc with
      | @block _ r bound =>
          refine ⟨rfl, rfl, rfl, Item.findSome?_init?_products c around items, ?_⟩
          cases r with
          | none => exact BlockScope.predicate_of_realization bound
          | some r =>
              have hr := BlockScope.realization_eq_ok bound
              split at hr
              · cases hr
              · cases hr
                rfl
  | wrap hw _ =>
      obtain ⟨hb, hf⟩ := Opening.kind_of_wraps hw
      exact (ho.elim hb hf).elim
  | blockInit | branch _ | thenCase | elseCase => simp [Opening.kind] at ho

/-! Parameters. Buffers lie behind parameters, and views of them before flattening as well. -/

namespace Item

/-- The parameter that a buffer is matched to, and the buffer. -/
def matchedTo? : Item → Option (Var × Buffer)
  | .call _ (.matchBuffer (.param p) _ _ _) (.buffer x) => some (p, x)
  | _ => none

/-- The handle that is made for an argument, and the argument. -/
def argued? : Item → Option (Var × Buffer)
  | .call s (.argBuffer name _) (.buffer x) => some ((Var.fresh name .handle s).1, x)
  | _ => none

/-- The parameter that the item puts a buffer behind, and the buffer. -/
def backed? (i : Item) : Option (Var × Buffer) := i.matchedTo?.or i.argued?

/-- A buffer, and the view of it before flattening that the item makes. -/
def view? : Item → Option (Buffer × Buffer)
  | .call _ (.preflattenedBuffer of _ _ _) (.buffer x) => some (of, x)
  | _ => none

/-- What was put behind the parameters, in the order in which it was put there. -/
def backed (items : List Item) : List (Var × Buffer) := items.filterMap backed?

/-- A parameter that has a buffer keeps its place when it gets another one. -/
def place (l : List (Var × Buffer)) (e : Var × Buffer) : List (Var × Buffer) :=
  if e.1.id ∈ l.map (·.1.id) then l.map fun d => if d.1.id = e.1.id then (d.1, e.2) else d
  else l ++ [e]

/-- What lies behind the parameters now, in the order in which they got their first buffers. -/
def lying (items : List Item) : List (Var × Buffer) := (backed items).foldl place []

/-- The parameter that the buffer lies behind. -/
def paramOf? (items : List Item) (of : Buffer) : Option Var :=
  ((lying items).find? fun e => e.2.sameAs of).map Prod.fst

/-- The views before flattening that `items` make after `past`, for the parameters that the buffers
they are views of lie behind at that time. -/
def viewedAfter (past : List Item) : List Item → List (Var × Buffer)
  | [] => []
  | i :: is => (i.view?.bind fun v => (paramOf? past v.1).map fun p => (p, v.2)).toList ++
      viewedAfter (past ++ [i]) is

def viewed (items : List Item) : List (Var × Buffer) := viewedAfter [] items

/-- The maps of a function with these items, before and after flattening. -/
def maps (items : List Item) : OrderedMap Var Buffer × OrderedMap Var Buffer :=
  items.foldl behind (∅, ∅)

/-- The maps of a function list what its items say. Every view was of a buffer that lay behind a
parameter. -/
structure Mapped (items : List Item) : Prop where
  lying : (maps items).1.entries = lying items
  viewed : (maps items).2.entries = viewed items
  views : (Item.viewed items).map Prod.snd = items.filterMap fun i => i.view?.map Prod.snd
  /-- No variable is matched that is a parameter with a buffer. -/
  once : ((items.filterMap matchedTo?).map (·.1.id)).Nodup

variable {is : List Item} {i : Item}

theorem argued?_eq_some {p : Var × Buffer} (h : i.argued? = some p) :
    ∃ s name y x, i = .call s (.argBuffer name y) (.buffer x) ∧
      p = ((Var.fresh name .handle s).1, x) := by
  rw [argued?.eq_def] at h
  split at h
  · exact ⟨_, _, _, _, rfl, (Option.some.inj h).symm⟩
  · cases h

theorem maps_snoc (is : List Item) (i : Item) : maps (is ++ [i]) = i.behind (maps is) :=
  List.foldl_append

theorem backed_snoc (is : List Item) (i : Item) :
    backed (is ++ [i]) = backed is ++ i.backed?.toList := by
  rw [backed, List.filterMap_append, filterMap_singleton]
  rfl

theorem viewedAfter_append (past is js : List Item) :
    viewedAfter past (is ++ js) = viewedAfter past is ++ viewedAfter (past ++ is) js := by
  induction is generalizing past with
  | nil => rw [List.nil_append, List.append_nil, viewedAfter, List.nil_append]
  | cons i is ih =>
      rw [List.cons_append, viewedAfter, viewedAfter, ih, List.append_assoc, List.append_assoc]
      rfl

theorem viewed_snoc (is : List Item) (i : Item) : viewed (is ++ [i]) =
    viewed is ++ (i.view?.bind fun v => (paramOf? is v.1).map fun p => (p, v.2)).toList := by
  rw [viewed, viewedAfter_append, List.nil_append, viewedAfter, viewedAfter, List.append_nil]
  rfl

theorem lying_snoc (is : List Item) (i : Item) :
    lying (is ++ [i]) = i.backed?.toList.foldl place (lying is) := by
  rw [lying, backed_snoc, List.foldl_append]
  rfl

theorem viewed_snoc_of_none (is : List Item) (hv : i.view? = none) :
    viewed (is ++ [i]) = viewed is := by
  rw [viewed_snoc, hv, Option.bind_none, Option.toList_none, List.append_nil]

theorem views_snoc_of_none (is : List Item) (hv : i.view? = none) :
    ((is ++ [i]).filterMap fun i => i.view?.map Prod.snd) =
      is.filterMap fun i => i.view?.map Prod.snd := by
  rw [List.filterMap_append, filterMap_singleton, hv, Option.map_none, Option.toList_none,
    List.append_nil]

theorem mem_backed_of_matched {k : VarId} (h : k ∈ (is.filterMap matchedTo?).map (·.1.id)) :
    k ∈ (backed is).map (·.1.id) := by
  obtain ⟨d, hd, he⟩ := List.mem_map.1 h
  obtain ⟨j, hj, hjd⟩ := List.mem_filterMap.1 hd
  refine List.mem_map.2 ⟨d, List.mem_filterMap.2 ⟨j, hj, ?_⟩, he⟩
  rw [backed?, hjd]
  rfl

/-- A variable is matched once if it is matched only where nothing lies behind it. -/
theorem nodup_matched_snoc (h : ((is.filterMap matchedTo?).map (·.1.id)).Nodup)
    (free : ∀ e ∈ i.matchedTo?, e.1.id ∉ (backed is).map (·.1.id)) :
    (((is ++ [i]).filterMap matchedTo?).map (·.1.id)).Nodup := by
  rw [List.filterMap_append, filterMap_singleton]
  cases hm : i.matchedTo? with
  | none => rwa [Option.toList_none, List.append_nil]
  | some e =>
      rw [Option.toList_some, List.map_append, List.nodup_append]
      refine ⟨h, List.nodup_singleton _, ?_⟩
      intro k hk k' hk'
      obtain rfl := List.mem_singleton.1 hk'
      rintro rfl
      exact free e hm (mem_backed_of_matched hk)

theorem place_of_notMem {l : List (Var × Buffer)} {e : Var × Buffer}
    (h : e.1.id ∉ l.map (·.1.id)) : place l e = l ++ [e] := if_neg h

theorem keys_place (l : List (Var × Buffer)) (e : Var × Buffer) :
    (place l e).map (·.1.id) =
      if e.1.id ∈ l.map (·.1.id) then l.map (·.1.id) else l.map (·.1.id) ++ [e.1.id] := by
  rw [place]
  split
  · rw [List.map_map]
    refine List.map_congr_left fun d _ => ?_
    simp only [Function.comp_apply]
    split <;> rfl
  · rw [List.map_append]
    rfl

/-- To put a buffer behind a parameter of a map is to place it there. -/
theorem put_eq_place (v : Var) (x : Buffer) {l : List (Var × Buffer)}
    (h : (l.map (·.1.id)).Nodup) : OrderedMap.put v x l = place l (v, x) := by
  induction l with
  | nil => rfl
  | cons e l ih =>
      rw [List.map_cons, List.nodup_cons] at h
      by_cases hv : e.1.id = v.id
      · have hl : l.map (fun d => if d.1.id = v.id then (d.1, x) else d) = l := by
          refine (List.map_congr_left fun d hd => if_neg fun he => h.1 ?_).trans (List.map_id l)
          exact List.mem_map.2 ⟨d, hd, he.trans hv.symm⟩
        simp [OrderedMap.put, place, Keyed.key, hv, hl]
      · have hv' : v.id ≠ e.1.id := Ne.symm hv
        have hp : OrderedMap.put v x (e :: l) = e :: place l (v, x) := by
          rw [← ih h.2]
          exact if_neg hv
        rw [hp, place, place]
        by_cases hl : v.id ∈ l.map (·.1.id)
        · rw [if_pos hl, if_pos (by simp [hl]), List.map_cons, if_neg hv]
        · rw [if_neg hl, if_neg (by simpa [hv'] using hl), List.cons_append]

theorem mem_keys_lying (k : VarId) (is : List Item) :
    k ∈ (lying is).map (·.1.id) ↔ k ∈ (backed is).map (·.1.id) := by
  have keys (es : List (Var × Buffer)) : ∀ l : List (Var × Buffer),
      k ∈ (es.foldl place l).map (·.1.id) ↔ k ∈ l.map (·.1.id) ∨ k ∈ es.map (·.1.id) := by
    induction es with
    | nil => simp
    | cons e es ih =>
        intro l
        rw [List.foldl_cons, ih, keys_place, List.map_cons, List.mem_cons]
        split
        · rename_i he
          constructor
          · exact Or.imp_right Or.inr
          · rintro (h | rfl | h)
            · exact .inl h
            · exact .inl he
            · exact .inr h
        · rw [List.mem_append, List.mem_singleton, or_assoc]
  rw [lying, keys, List.map_nil]
  simp

/-- Where nothing was put behind a parameter twice, everything lies where it was put. -/
theorem lying_eq_backed (h : ((backed is).map (·.1.id)).Nodup) : lying is = backed is := by
  have all (es : List (Var × Buffer)) : ∀ l : List (Var × Buffer),
      ((l ++ es).map (·.1.id)).Nodup → es.foldl place l = l ++ es := by
    induction es with
    | nil => simp
    | cons e es ih =>
        intro l hl
        have hn : e.1.id ∉ l.map (·.1.id) := by
          intro he
          rw [List.map_append, List.nodup_append] at hl
          exact hl.2.2 _ he _ (by simp) rfl
        rw [List.foldl_cons, place_of_notMem hn, ih _ (by simpa using hl), List.append_assoc]
        rfl
  exact all (backed is) [] h

namespace Mapped

theorem start : Mapped [] := ⟨rfl, rfl, rfl, List.nodup_nil⟩

theorem keys_nodup (h : Mapped is) : ((Item.lying is).map (·.1.id)).Nodup :=
  h.lying ▸ (maps is).1.nodup

theorem other (h : Mapped is) (hb : i.backed? = none) (hv : i.view? = none)
    (hi : i.behind (maps is) = maps is) : Mapped (is ++ [i]) where
  lying := by
    rw [maps_snoc, hi, lying_snoc, hb]
    exact h.lying
  viewed := by rw [maps_snoc, hi, viewed_snoc_of_none is hv, h.viewed]
  views := by rw [viewed_snoc_of_none is hv, views_snoc_of_none is hv, h.views]
  once := nodup_matched_snoc h.once fun e he => by
    cases (Option.or_eq_none_iff.1 hb).1.symm.trans he

theorem back (h : Mapped is) {e : Var × Buffer} (hb : i.backed? = some e)
    (hv : i.view? = none) (hi : i.behind (maps is) = ((maps is).1.insert e.1 e.2, (maps is).2))
    (free : ∀ e ∈ i.matchedTo?, e.1.id ∉ (Item.backed is).map (·.1.id)) :
    Mapped (is ++ [i]) where
  lying := by
    rw [maps_snoc, hi, lying_snoc, hb, OrderedMap.entries_insert, h.lying]
    exact put_eq_place e.1 e.2 h.keys_nodup
  viewed := by rw [maps_snoc, hi, viewed_snoc_of_none is hv, h.viewed]
  views := by rw [viewed_snoc_of_none is hv, views_snoc_of_none is hv, h.views]
  once := nodup_matched_snoc h.once free

theorem view (h : Mapped is) {of x : Buffer} {p : Var} (hb : i.backed? = none)
    (hv : i.view? = some (of, x)) (hp : paramOf? is of = some p)
    (hi : i.behind (maps is) = ((maps is).1, (maps is).2.insert p x))
    (free : p.id ∉ (Item.viewed is).map (·.1.id)) : Mapped (is ++ [i]) where
  lying := by
    rw [maps_snoc, hi, lying_snoc, hb]
    exact h.lying
  viewed := by
    rw [maps_snoc, hi, viewed_snoc, hv, OrderedMap.entries_insert, h.viewed, Option.bind_some, hp]
    exact OrderedMap.put_of_notMem p x free
  views := by
    rw [viewed_snoc, hv, Option.bind_some, hp, List.map_append, h.views, List.filterMap_append,
      filterMap_singleton, hv]
    rfl
  once := nodup_matched_snoc h.once fun e he => by
    cases (Option.or_eq_none_iff.1 hb).1.symm.trans he

end Mapped

end Item

/-- A call that goes through in a function adds to its maps what its item tells. -/
theorem Opening.Shows.mapped {c : Config} {around : List Head} {v u : Value} {is : List Item}
    {ps : List Product} {o : Opening} {x : Scope} {b : Builder} {s : Supply} {k : Call}
    {eff : Effect} (h : o.Shows c around v is ps x) (ht : b.Top x) (hd : k.Does b s u eff)
    (hm : Item.Mapped is) : Item.Mapped (is ++ [.call s k u]) := by
  have func {g : FuncScope} (top : b.Top (.func g)) :
      g.bufferMap = (Item.maps is).1 ∧ g.preflattened = (Item.maps is).2 := by
    obtain rfl := ht.unique top
    cases h with
    | func threads => exact ⟨rfl, rfl⟩
  cases hd with
  | matchParam p shape dtype o buffer top free =>
      have hn := OrderedMap.notMem_of_contains free
      rw [(func top).1, hm.lying] at hn
      refine hm.back rfl rfl rfl fun e he => ?_
      cases he
      exact mt (Item.mem_keys_lying _ _).2 hn
  | argBuffer name buffer top => exact hm.back rfl rfl rfl nofun
  | @preflattened of shape dtype o buffer p y g top behind free =>
      have hn := OrderedMap.notMem_of_contains free
      rw [(func top).2, hm.viewed] at hn
      rw [(func top).1] at behind
      have hp : Item.paramOf? is of = some p := by
        rw [Item.paramOf?, ← hm.lying, behind]
        rfl
      refine hm.view rfl rfl hp ?_ hn
      simp only [Item.behind, behind]
  | _ => exact hm.other rfl rfl rfl

/-- If the two items put buffers behind one parameter, then the first is matched to it, and it is
the handle of the second. -/
def Item.Apart (i j : Item) : Prop :=
  ∀ p ∈ i.backed?, ∀ q ∈ j.backed?, p.1.id = q.1.id →
    i.matchedTo? = some p ∧ j.argued? = some q

theorem Item.apart_of_backed {i j : Item} (h : j.backed? = none) : i.Apart j := by
  intro p _ q hq
  rw [h] at hq
  cases hq

/-- No call puts a buffer behind a parameter that has one, unless it has made the handle for it. -/
theorem Opening.Shows.apart {c : Config} {around : List Head} {v u : Value} {is : List Item}
    {ps : List Product} {o : Opening} {x : Scope} {b : Builder} {s : Supply} {k : Call}
    {eff : Effect} (h : o.Shows c around v is ps x) (ht : b.Top x) (hd : k.Does b s u eff)
    (hm : Item.Mapped is)
    (fresh : ∀ i ∈ is, ∀ p ∈ i.argued?, ∀ name y, k = .argBuffer name y → p.1.id ≠ s.take.1) :
    ∀ i ∈ is, i.Apart (.call s k u) := by
  cases hd with
  | matchParam p shape dtype o buffer top free =>
      obtain rfl := ht.unique top
      cases h with
      | func threads =>
          have hn := OrderedMap.notMem_of_contains free
          rw [show (FuncScope.collect is).bufferMap = (Item.maps is).1 from rfl, hm.lying] at hn
          intro i hi q hq e he hqe
          cases he
          refine absurd ((Item.mem_keys_lying _ _).2 ?_) hn
          exact List.mem_map.2 ⟨q, List.mem_filterMap.2 ⟨i, hi, hq⟩, hqe⟩
  | argBuffer name buffer top =>
      intro i hi q hq e he hqe
      cases he
      refine ⟨?_, rfl⟩
      obtain hq | ⟨-, hq⟩ := Option.or_eq_some_iff.1 hq
      · exact hq
      · exact absurd hqe (fresh i hi q hq name _ rfl)
  | _ => exact fun i _ => Item.apart_of_backed rfl

namespace Program

variable {supply : Supply} {acts : List Action} {id : SessionId} {t : ThreadId} {x : Pending}
  {xs : List Pending}

/-- Nothing has been said twice directly in an open scope. -/
theorem settings_nodup (supply : Supply) (acts : List Action) (id : SessionId) :
    ∀ x ∈ (run supply acts).pending id, (Item.settings x.items).Nodup := by
  refine items_run (I := fun is => (Item.settings is).Nodup) List.nodup_nil ?_ ?_
  · intro H b s c u eff s' x xs _ hm he hn hx
    refine Item.nodup_snoc hx fun k hk => ?_
    obtain ⟨f, fs, hf, h⟩ := hm.scopes.frames_of_cons hn
    obtain ⟨y, ht, hy, hu⟩ := (Call.effect_does he).unset hk
    obtain rfl := Builder.Top.unique ⟨f, fs, hf, rfl⟩ ht
    rw [← h.2.1.has hy, hu]
  · intro n b y x xs hm hs hn hx
    refine Item.nodup_snoc hx fun k hk => ?_
    obtain ⟨f, fs, hf, -, hy, -, hr⟩ := hm.scopes.frames_of_cons hn
    rw [hf] at hs
    obtain ⟨g, gs, rfl⟩ := hr.frames_eq_cons
    have hsit : f.scope.SitsOn ((g :: gs).map Frame.scope) := hs.1
    generalize f.scope = z at hy hsit
    cases ho : y.opening with
    | blockInit =>
        rw [ho] at hk hy
        cases hk
        cases hy with
        | wrap ho _ => cases ho
        | blockInit =>
            obtain ⟨_, _, z, he, hz, hu⟩ := Scope.sitsOn_blockInit hsit
            cases he
            have hh := hr.2.1.has (k := .init) (by rw [hz]; rfl)
            rw [← hh, hz, Scope.has, hu]
            rfl
    | _ => rw [ho] at hk; cases hk

/-- A setting is accepted the first time, and refused from then on. -/
theorem setting_once (live : (run supply acts).world.live t = some id)
    (hn : (run supply acts).pending id = x :: xs) {c : Call} {k : Setting}
    (hk : c.setting? = some k) (ho : x.opening.kind = k.kind) :
    let w := (run supply acts).world
    (k ∈ Item.settings x.items → w.call t c = (.error (.refused k.again),
      { w with builder := update w.builder id ((w.builder id).record k.again) })) ∧
    (k ∉ Item.settings x.items → ∃ v b,
      w.call t c = (.ok v, { w with builder := update w.builder id b }) ∧
      (run supply (acts ++ [.call t c])).pending id =
        { x with items := x.items ++ [.call w.supply c v] } :: xs) := by
  intro w
  obtain ⟨f, fs, hf, h⟩ := (shows_run supply acts id).frames_of_cons hn
  have hx := h.2.1.kind ho
  have ht : (w.builder id).Top f.scope := ⟨f, fs, hf, rfl⟩
  obtain ⟨refused, accepted⟩ := Call.effect_setting hk ht hx w.supply
  rw [h.2.1.has hx] at refused accepted
  have hc := (w.builder id).call_eq w.supply c
  rw [Item.mem_settings, Bool.not_eq_true]
  constructor
  · intro hs
    rw [refused hs] at hc
    have hspent : c.spent (w.builder id) w.supply = w.supply := by
      cases c <;> first | rfl | cases hk
    rw [hspent] at hc
    rw [World.call_of_live live, hc]
    rfl
  · intro hs
    obtain ⟨y, v, he⟩ := accepted hs
    rw [he] at hc
    refine ⟨v, (w.builder id).setTop y, ?_, pending_call live hc hn⟩
    rw [World.call_of_live live, hc]
    rfl

/-- An init is opened the first time, and refused from then on. -/
theorem init_once (live : (run supply acts).world.live t = some id)
    (hn : (run supply acts).pending id = x :: xs) (ho : x.opening.kind = .block) :
    let w := (run supply acts).world
    (.init ∈ Item.settings x.items →
      w.openScope t .blockInit = (.error (.refused Setting.init.again),
        { w with builder := update w.builder id ((w.builder id).record Setting.init.again) })) ∧
    (.init ∉ Item.settings x.items → w.openScope t .blockInit =
      (.ok (⟨id, (w.builder id).nextId, .blockInit⟩, .unit),
        { w with builder := update w.builder id ((w.builder id).push .blockInit) })) := by
  intro w
  obtain ⟨f, fs, hf, h⟩ := (shows_run supply acts id).frames_of_cons hn
  have hx := h.2.1.kind (k := .init) ho
  obtain ⟨y, hy⟩ := Scope.eq_block hx
  have ht : (w.builder id).Top (.block y) := ⟨f, fs, hf, hy⟩
  have hh := h.2.1.has hx
  rw [hy] at hh
  rw [Item.mem_settings, ← hh, World.openScope_of_check live fun _ => rfl,
    Opening.checkInit_of_top ht, Scope.has]
  cases y.init with
  | none => exact ⟨by simp, fun _ => rfl⟩
  | some s => exact ⟨fun _ => rfl, by simp⟩

/-- The maps of every function that is open list what has been put into them. -/
theorem mapped_run (supply : Supply) (acts : List Action) (id : SessionId) :
    ∀ x ∈ (run supply acts).pending id, Item.Mapped x.items := by
  refine items_run Item.Mapped.start ?_ ?_
  · intro H b s k u eff s' x xs _ hm he hn hx
    obtain ⟨f, fs, hf, h⟩ := hm.scopes.frames_of_cons hn
    exact h.2.1.mapped ⟨f, fs, hf, rfl⟩ (Call.effect_does he) hx
  · intro n b y x xs _ _ _ hx
    exact hx.other rfl rfl rfl

/-- A parameter gets a second buffer only if it was matched to the first and is the handle of the
second. -/
theorem apart_run (hs : Function.Injective supply.stream) (acts : List Action) (id : SessionId) :
    ∀ x ∈ (run supply acts).pending id, x.items.Pairwise Item.Apart := by
  suffices h : ∀ x ∈ (run supply acts).pending id,
      Item.Mapped x.items ∧ x.items.Pairwise Item.Apart from fun x hx => (h x hx).2
  refine items_run (I := fun is => Item.Mapped is ∧ is.Pairwise Item.Apart)
    ⟨Item.Mapped.start, List.Pairwise.nil⟩ ?_ ?_
  · intro H b s k u eff s' x xs hH hm he hn ⟨hmap, hx⟩
    obtain ⟨f, fs, hf, h⟩ := hm.scopes.frames_of_cons hn
    have top : b.Top f.scope := ⟨f, fs, hf, rfl⟩
    refine ⟨h.2.1.mapped top (Call.effect_does he) hmap, ?_⟩
    rw [List.pairwise_append]
    refine ⟨hx, List.pairwise_singleton _ _, ?_⟩
    intro i hi j hj
    obtain rfl := List.mem_singleton.1 hj
    refine h.2.1.apart top (Call.effect_does he) hmap ?_ i hi
    -- Both handles have been minted in the session, which mints none twice.
    rintro i hi p hp name y rfl
    obtain ⟨s', name', y', v', rfl, rfl⟩ := Item.argued?_eq_some hp
    have hd := Nest.called_mem_of_tracked x (by rw [hn]; exact List.mem_cons_self) _ _ _ hi
    obtain ⟨r, hr⟩ := hH
    have hnodup := minted_nodup hs acts id
    rw [← hr, List.flatMap_append, List.flatMap_append] at hnodup
    refine (List.nodup_append.1 (List.nodup_append.1 hnodup).1).2.2 _ ?_ _ ?_
    · exact List.mem_flatMap.2 ⟨_, hd, by simp [Event.minted]⟩
    · simp [Event.minted, Var.fresh]
  · intro n b y x xs _ _ _ hx
    refine ⟨hx.1.other rfl rfl rfl, ?_⟩
    rw [List.pairwise_append]
    refine ⟨hx.2, List.pairwise_singleton _ _, ?_⟩
    intro i _ j hj
    obtain rfl := List.mem_singleton.1 hj
    exact Item.apart_of_backed rfl

/-- An init that is closed counts. -/
theorem init_closed {y : Pending} (hn : (run supply acts).pending id = y :: x :: xs)
    (ho : y.opening = .blockInit)
    (held : ⟨id, y.id, .blockInit⟩ ∈ (run supply acts).guards) :
    let g : Guard := ⟨id, y.id, .blockInit⟩
    ((run supply acts).world.close g).1 = .ok () ∧
      (run supply (acts ++ [.close g])).pending id =
        { x with items := x.items ++ [.scope y.id y.opening y.value y.items] } :: xs := by
  intro g
  obtain ⟨f, fs, hf, hid, hy, -, hr⟩ := (shows_run supply acts id).frames_of_cons hn
  obtain ⟨f', fs', rfl⟩ := hr.frames_eq_cons
  have hs : f.scope = .blockInit := by
    generalize f.scope = z at hy
    rw [ho] at hy
    cases hy with
    | wrap ho _ => cases ho
    | blockInit => rfl
  have hl := ((guarded_run supply acts).builders id).close_lands hf .blockInit
  rw [hs, hid] at hl
  have hok : (((run supply acts).world.builder id).close y.id .blockInit).1 = .ok () := hl.1
  refine ⟨hok, ?_⟩
  have hc : ((run supply acts).world.builder g.session).closeEvent g.frame g.kind =
      .closed y.id := by
    simp [Builder.closeEvent, g, hok]
  rw [run_append, pending, history, step, if_pos held, note]
  dsimp only
  rw [about_append_self, hc, Nest.tracked_append]
  have hscopes : (Nest.tracked (about id (run supply acts).log)).scopes = y :: x :: xs := hn
  simp only [Nest.track, Nest.follow, hscopes, Nest.add]

/-- The maps of the innermost function, as they are. -/
theorem func_of_pending (hn : (run supply acts).pending id = x :: xs)
    (ho : x.opening = .primFunc) : let b := (run supply acts).world.builder id
    ∃ f fs g, b.frames = f :: fs ∧ f.id = x.id ∧ f.scope = .func g ∧
      g.bufferMap = (Item.maps x.items).1 ∧ g.preflattened = (Item.maps x.items).2 := by
  intro b
  obtain ⟨f, fs, hf, hid, hx, -, -⟩ := (shows_run supply acts id).frames_of_cons hn
  suffices hg : ∃ g, f.scope = .func g ∧ g.bufferMap = (Item.maps x.items).1 ∧
      g.preflattened = (Item.maps x.items).2 by
    obtain ⟨g, hg⟩ := hg
    exact ⟨f, fs, g, hf, hid, hg⟩
  generalize f.scope = y at hx
  rw [ho] at hx
  cases hx with
  | func threads => exact ⟨_, rfl, rfl, rfl⟩
  | wrap ho _ => cases ho

/-- A block or function `x` that is innermost in its session, in `xs`, and what can be said of it
once. -/
structure SaidOnce (supply : Supply) (acts : List Action) (id : SessionId) (x : Pending)
    (xs : List Pending) : Prop where
  /-- Of the calls of one operation that were made directly in it, one at most went through. -/
  once : (Item.settings x.items).Nodup
  refused (t c k) (live : (run supply acts).world.live t = some id) (of : c.setting? = some k)
    (fits : x.opening.kind = k.kind) (said : k ∈ Item.settings x.items) :
    let w := (run supply acts).world
    w.call t c = (.error (.refused k.again),
      { w with builder := update w.builder id ((w.builder id).record k.again) })
  accepted (t c k) (live : (run supply acts).world.live t = some id) (of : c.setting? = some k)
    (fits : x.opening.kind = k.kind) (unsaid : k ∉ Item.settings x.items) :
    let w := (run supply acts).world
    ∃ v b, w.call t c = (.ok v, { w with builder := update w.builder id b }) ∧
      (run supply (acts ++ [.call t c])).pending id =
        { x with items := x.items ++ [.call w.supply c v] } :: xs
  initRefused (t : ThreadId) (live : (run supply acts).world.live t = some id)
    (fits : x.opening.kind = .block) (said : .init ∈ Item.settings x.items) :
    let w := (run supply acts).world
    w.openScope t .blockInit = (.error (.refused Setting.init.again),
      { w with builder := update w.builder id ((w.builder id).record Setting.init.again) })
  initAccepted (t : ThreadId) (live : (run supply acts).world.live t = some id)
    (fits : x.opening.kind = .block) (unsaid : .init ∉ Item.settings x.items) :
    let w := (run supply acts).world
    w.openScope t .blockInit = (.ok (⟨id, (w.builder id).nextId, .blockInit⟩, .unit),
      { w with builder := update w.builder id ((w.builder id).push .blockInit) })
  /-- What has been said stays said, whatever the program does next. -/
  stays (more : List Action) (y : Pending)
    (later : y ∈ (run supply (acts ++ more)).pending id)
    (same : y.id = x.id) : x.Lasts y
  /-- What the scope makes carries it. -/
  carried : let b := (run supply acts).world.builder id
    ∃ f fs, b.frames = f :: fs ∧ f.id = x.id ∧ ∀ p, f.close b.config = .ok p →
      p.Carries b.config (Nest.around b.config xs) x.items

theorem said_once (hn : (run supply acts).pending id = x :: xs)
    (ho : x.opening.kind = .block ∨ x.opening.kind = .primFunc) :
    SaidOnce supply acts id x xs where
  once := settings_nodup supply acts id x (by rw [hn]; exact List.mem_cons_self)
  refused _ _ _ live of fits said := (setting_once live hn of fits).1 said
  accepted _ _ _ live of fits unsaid := (setting_once live hn of fits).2 unsaid
  initRefused _ live fits said := (init_once live hn fits).1 said
  initAccepted _ live fits unsaid := (init_once live hn fits).2 unsaid
  stays _ _ hy same := pending_lasts (by rw [hn]; exact List.mem_cons_self) hy same
  carried := by
    obtain ⟨f, fs, hf, h⟩ := (shows_run supply acts id).frames_of_cons hn
    exact ⟨f, fs, hf, h.1, fun p hp => h.2.1.carries ho hp⟩

/-- A function `x` that is innermost in its session, in `xs`, and the buffers behind its
parameters. -/
structure BackedOnce (supply : Supply) (acts : List Action) (id : SessionId) (x : Pending)
    (xs : List Pending) : Prop where
  /-- A variable is matched to one buffer at most, and has one view of it. -/
  once : ((x.items.filterMap Item.matchedTo?).map (·.1.id)).Nodup
  viewed : ((Item.viewed x.items).map (·.1.id)).Nodup
  /-- What is put behind a parameter later is an argument whose handle it is. -/
  apart : Function.Injective supply.stream → x.items.Pairwise Item.Apart
  matched (t v shape dtype o) (live : (run supply acts).world.live t = some id) :
    let w := (run supply acts).world
    (w.call t (.matchBuffer (.param v) shape dtype o)).1 =
      match Buffer.declare shape dtype (o.alignmentOr (w.builder id).config.alignment)
        w.supply with
      | .error e => .error (.refused e)
      | .ok (y, _) => if v.id ∈ (Item.backed x.items).map (·.1.id) then
            .error (.refused (.parameterMatched v.text))
          else .ok (.buffer y)
  preflattened (t of shape dtype o) (live : (run supply acts).world.live t = some id) :
    let w := (run supply acts).world
    (w.call t (.preflattenedBuffer of shape dtype o)).1 =
      match Buffer.declare shape dtype { o with data := o.data.or (some of.data) } w.supply with
      | .error e => .error (.refused e)
      | .ok (y, _) => match Item.paramOf? x.items of with
        | none => .error (.refused (.bufferUnmatched of.name))
        | some p => if p.id ∈ (Item.viewed x.items).map (·.1.id) then
              .error (.refused (.duplicateSetting .primFunc "preflattened_buffer"))
            else .ok (.buffer y)
  accepted (t c v) (live : (run supply acts).world.live t = some id)
    (done : ((run supply acts).world.call t c).1 = .ok v) :
    (run supply (acts ++ [.call t c])).pending id =
      { x with items := x.items ++ [.call (run supply acts).world.supply c v] } :: xs
  /-- A call that fails leaves the maps alone, with all that is open. -/
  refused (t c e) (live : (run supply acts).world.live t = some id)
    (failed : ((run supply acts).world.call t c).1 = .error e) :
    (((run supply acts).world.call t c).2.builder id).frames =
      ((run supply acts).world.builder id).frames
  /-- The maps of the function list the buffers in the order of the calls. -/
  listed : let b := (run supply acts).world.builder id
    ∃ f fs, b.frames = f :: fs ∧ f.id = x.id ∧ ∀ g, f.close b.config = .ok (.func g) →
      g.bufferMap.entries = Item.lying x.items ∧ g.preflattened.entries = Item.viewed x.items
  kept : ((Item.backed x.items).map (·.1.id)).Nodup → Item.lying x.items = Item.backed x.items
  views : (Item.viewed x.items).map Prod.snd =
    x.items.filterMap fun i => i.view?.map Prod.snd

/-- A call that goes through is one more item of the innermost scope. -/
theorem pending_accepted (hn : (run supply acts).pending id = x :: xs)
    (live : (run supply acts).world.live t = some id) {c : Call} {v : Value}
    (done : ((run supply acts).world.call t c).1 = .ok v) :
    (run supply (acts ++ [.call t c])).pending id =
      { x with items := x.items ++ [.call (run supply acts).world.supply c v] } :: xs := by
  obtain ⟨r, b, s, hr⟩ : ∃ r b s, ((run supply acts).world.builder id).call
      (run supply acts).world.supply c = (r, b, s) := ⟨_, _, _, rfl⟩
  rw [World.call_of_live live, hr] at done
  obtain rfl := done
  exact pending_call live hr hn

theorem frames_of_refused (live : (run supply acts).world.live t = some id) {c : Call}
    {e : Failure} (failed : ((run supply acts).world.call t c).1 = .error e) :
    (((run supply acts).world.call t c).2.builder id).frames =
      ((run supply acts).world.builder id).frames := by
  obtain ⟨r, b, s, hr⟩ : ∃ r b s, ((run supply acts).world.builder id).call
      (run supply acts).world.supply c = (r, b, s) := ⟨_, _, _, rfl⟩
  rw [World.call_of_live live, hr] at failed ⊢
  obtain rfl := failed
  rw [Builder.call_error hr]
  exact (congrArg Builder.frames (update_self _ _ _)).trans (Builder.frames_failed _ e)

theorem backed_once (hn : (run supply acts).pending id = x :: xs) (ho : x.opening = .primFunc) :
    BackedOnce supply acts id x xs := by
  have hx : x ∈ (run supply acts).pending id := by
    rw [hn]
    exact List.mem_cons_self
  have hm := mapped_run supply acts id x hx
  obtain ⟨f, fs, g, hf, hid, hg, hback, hview⟩ := func_of_pending hn ho
  have top : ((run supply acts).world.builder id).Top (.func g) := ⟨f, fs, hf, hg⟩
  have hlying : g.bufferMap.entries = Item.lying x.items := hback ▸ hm.lying
  have hviewed : g.preflattened.entries = Item.viewed x.items := hview ▸ hm.viewed
  constructor
  · exact hm.once
  · exact hviewed ▸ g.preflattened.nodup
  · exact fun hs => apart_run hs acts id x hx
  · intro t v shape dtype o live w
    rw [World.call_of_live live, Builder.call_eq, Call.effect_matchParam top,
      OrderedMap.contains_eq, hlying]
    cases Buffer.declare shape dtype (o.alignmentOr (w.builder id).config.alignment) w.supply with
    | error e => rfl
    | ok r =>
        simp only [decide_eq_true_eq, Item.mem_keys_lying]
        by_cases hv : v.id ∈ (Item.backed x.items).map (·.1.id)
        · simp only [if_pos hv]
        · simp only [if_neg hv]
          rfl
  · intro t of shape dtype o live w
    rw [World.call_of_live live, Builder.call_eq, Call.effect_preflattened top, hlying]
    cases Buffer.declare shape dtype { o with data := o.data.or (some of.data) } w.supply with
    | error e => rfl
    | ok r =>
        simp only [Item.paramOf?]
        cases (Item.lying x.items).find? fun e => e.2.sameAs of with
        | none => rfl
        | some e =>
            simp only [Option.map_some, OrderedMap.contains_eq, hviewed, decide_eq_true_eq]
            by_cases hv : e.1.id ∈ (Item.viewed x.items).map (·.1.id)
            · simp only [if_pos hv]
            · simp only [if_neg hv]
              rfl
  · exact fun t c v live done => pending_accepted hn live done
  · exact fun t c e live failed => frames_of_refused live failed
  · refine ⟨f, fs, hf, hid, fun F hF => ?_⟩
    have hc := Frame.close_closes hF
    rw [hg] at hc
    cases hc with
    | func sound => exact ⟨hlying, hviewed⟩
  · exact Item.lying_eq_backed
  · exact hm.views

/-- What can be said once of a block or a function is said by the first call and kept. A parameter
takes the first buffer, and the first view of it, and the maps list them. Only an argument can take
the place of a buffer, if its handle turns out to be the parameter. -/
theorem settings_once (supply : Supply) (acts : List Action) (id : SessionId) :
    (∀ x xs, (run supply acts).pending id = x :: xs →
      x.opening.kind = .block ∨ x.opening.kind = .primFunc → SaidOnce supply acts id x xs) ∧
    (∀ y x xs, (run supply acts).pending id = y :: x :: xs → y.opening = .blockInit →
      let g : Guard := ⟨id, y.id, .blockInit⟩
      g ∈ (run supply acts).guards → ∀ a ∈ [Action.close g, .drop g],
        ((run supply acts).world.close g).1 = .ok () ∧ (run supply (acts ++ [a])).pending id =
          { x with items := x.items ++ [.scope y.id y.opening y.value y.items] } :: xs) ∧
    ∀ x xs, (run supply acts).pending id = x :: xs → x.opening = .primFunc →
      BackedOnce supply acts id x xs := by
  refine ⟨fun x xs hn ho => said_once hn ho, ?_, fun x xs hn ho => backed_once hn ho⟩
  intro y x xs hn ho g held a ha
  rw [List.mem_cons, List.mem_singleton] at ha
  obtain rfl | rfl := ha
  · exact init_closed hn ho held
  · have hd : run supply (acts ++ [.drop g]) = run supply (acts ++ [.close g]) := by
      rw [run_append, run_append, step_drop]
    exact hd ▸ init_closed hn ho held

/-- A block whose init comes after a predicate and before another one, which is refused. -/
def settling : List Action := [.enter 0 {}, .openScope 0 (.block "B" false),
  .call 0 (.guard (.bool false)), .openScope 0 .blockInit, .call 0 (.evaluate (.int32 1)),
  .drop ⟨0, 1, .blockInit⟩, .call 0 (.guard (.bool true))]

/-- The buffer of `matching`. -/
def matchedBuffer : Buffer :=
  ⟨⟨1, "buffer", .handle, some (.pointer (.int 32) "global")⟩, .int 32, [.int32 8], [], .int32 0,
    "buffer", 64, 1, .default, []⟩

/-- A function with a buffer behind its parameter and a view of it. To put another one there is
refused, and so is a second name. -/
def matching : List Action :=
  let A : Var := ⟨0, "A", .handle, none⟩
  [.enter 0 {}, .openScope 0 .primFunc, .call 0 (.argVar "A" A),
    .call 0 (.matchBuffer (.param A) [.int32 8] (.int 32) {}), .call 0 (.funcName "first"),
    .call 0 (.matchBuffer (.param A) [.int32 4] (.int 32) {}), .call 0 (.funcName "second"),
    .call 0 (.preflattenedBuffer matchedBuffer [.int32 2, .int32 4] (.int 32) {})]

theorem settings_once_matching :
    let w := (run .counting settling).world
    let w' := (run ⟨Nat.succ, 0⟩ matching).world
    (w.openScope 0 .blockInit).1 = .error (.refused (.duplicateSetting .block "init")) ∧
    (w.call 0 (.guard (.bool true))).1 = .error (.refused (.duplicateSetting .block "where")) ∧
    (w'.call 0 (.matchBuffer (.param ⟨0, "A", .handle, none⟩) [.int32 2] (.int 32) {})).1 =
      .error (.refused (.parameterMatched "A")) ∧
    (w'.call 0 (.preflattenedBuffer matchedBuffer [.int32 8] (.int 32) {})).1 =
      .error (.refused (.duplicateSetting .primFunc "preflattened_buffer")) ∧
    ∃ f fs g, (w'.builder 0).frames = f :: fs ∧ f.close (w'.builder 0).config = .ok (.func g) ∧
      g.name = some "first" ∧
      g.bufferMap.entries.map (fun e => (e.1.id, e.2.shape)) = [(0, [.int32 8])] ∧
      g.preflattened.entries.map (fun e => (e.1.id, e.2.shape)) = [(0, [.int32 2, .int32 4])] := by
  intro w w'
  have block := (settings_once .counting settling 0).1 _ _ rfl (.inl rfl)
  obtain ⟨hfuncs, -, hbacked⟩ := settings_once ⟨Nat.succ, 0⟩ matching 0
  have func := hfuncs _ _ rfl (.inr rfl)
  have backed := hbacked _ _ rfl rfl
  refine ⟨?_, ?_, ?_, ?_, ?_⟩
  · exact congrArg Prod.fst (block.initRefused 0 rfl rfl (by decide))
  · exact congrArg Prod.fst (block.refused 0 _ .guard rfl rfl rfl (by decide))
  · exact backed.matched 0 _ _ _ _ rfl
  · exact backed.preflattened 0 _ _ _ _ rfl
  · obtain ⟨f, fs, hf, -, carried⟩ := func.carried
    obtain ⟨f', fs', hf', -, listed⟩ := backed.listed
    obtain ⟨rfl, rfl⟩ := List.cons.inj (hf'.symm.trans hf)
    obtain ⟨rfl, -⟩ := List.cons.inj hf
    refine ⟨_, _, _, hf, rfl, (carried _ rfl).1, ?_, ?_⟩
    · rw [(listed _ rfl).1]
      rfl
    · rw [(listed _ rfl).2]
      rfl

/-- A function has lost the buffer that was matched to a variable if the handle of an argument
turned out to be the variable. -/
theorem usurped_buffer_unlisted :
    let p : Var := ⟨1, "p", .handle, none⟩
    let w := (run .counting (usurping.take 2)).world
    (w.call 0 (.matchBuffer (.param p) [.int32 4] (.float 32) {})).1 =
      .ok (.buffer usurpedBuffer) ∧
    ∃ g, ((run .counting (usurping ++ [.close ⟨0, 0, .primFunc⟩])).world.finish 0).1 =
        .ok (.func g) ∧
      g.bufferMap.entries = [(p, { handedBuffer with name := "A" })] ∧
      ∀ e ∈ g.bufferMap.entries, e.2.name ≠ usurpedBuffer.name := by
  refine ⟨rfl, _, rfl, rfl, ?_⟩
  decide

end Program

end TensorProgram
