import TensorProgram.Proofs.Contents

/-!
The builder and the nesting agree. A run that is not over is a nest: the items that are
complete, and the open scopes with the items in them so far. Every step keeps the stack of
the builder and the nest in correspondence, so that the frames and the result of a builder
can be read off its history by recursion.
-/

namespace TensorProgram

/-- A product for the innermost scope finds there what it relies on. -/
def Product.SitsOn (below : List Scope) : Product → Prop
  | .blockInit _ => Scope.blockInit.SitsOn below
  | .thenCase _ => Scope.thenCase.SitsOn below
  | .elseCase _ => Scope.elseCase.SitsOn below
  | .stmts _ | .func _ => True

/-- What a scope sits on is what its product is delivered to. -/
theorem Scope.Closes.sitsOn {c : Config} {ss : List Stmt} {x : Scope} {p : Product}
    {below : List Scope} (h : x.Closes c ss p) (hs : x.SitsOn below) : p.SitsOn below := by
  cases h with
  | func _ | block _ | branch _ _ | wrap _ => trivial
  | blockInit | thenCase | elseCase => exact hs

/-- The event is something done, not something that failed. -/
def Event.done : Event → Bool
  | .failed _ => false
  | _ => true

/-- A scope that is open: how it was opened, and what has been done directly in it. -/
structure Pending where
  id : Nat
  opening : Opening
  value : Value
  items : List Item := []

/-- A run that is not over. The open scopes come innermost first. -/
structure Nest where
  scopes : List Pending := []
  items : List Item := []

namespace Nest

def add (n : Nest) (i : Item) : Nest :=
  match n.scopes with
  | [] => { n with items := n.items ++ [i] }
  | x :: xs => { n with scopes := { x with items := x.items ++ [i] } :: xs }

/-- The nest after one more event. Failures are no part of it. -/
def follow (n : Nest) : Event → Nest
  | .opened id o v => { n with scopes := ⟨id, o, v, []⟩ :: n.scopes }
  | .called s c v => n.add (.call s c v)
  | .closed id =>
      match n.scopes with
      | x :: xs => { n with scopes := xs }.add (.scope id x.opening x.value x.items)
      | [] => n
  | .entered _ | .discarded _ _ | .failed _ => n

def ofEvents (H : List Event) : Nest := H.foldl follow {}

def pendingEvents : List Pending → List Event
  | [] => []
  | x :: xs => pendingEvents xs ++ .opened x.id x.opening x.value :: Item.eventsList x.items

/-- The run that has led to the nest. -/
def events (n : Nest) : List Event := Item.eventsList n.items ++ pendingEvents n.scopes

/-- The heads around what is done in the innermost scope. -/
def around (c : Config) : List Pending → List Head
  | [] => []
  | x :: xs => x.opening.heads c (around c xs) x.value ++ around c xs

/-- What has been done directly in the scope `x`, which lies in `xs`, makes these products. -/
def products (c : Config) (x : Pending) (xs : List Pending) : List Product :=
  Item.products c (around c (x :: xs)) x.items

/-- The open scopes of a builder, one by one. -/
def Shows (c : Config) : List Pending → List Frame → Prop
  | [], [] => True
  | x :: xs, f :: fs =>
      f.id = x.id ∧
      x.opening.Shows c (around c xs) x.value x.items (products c x xs) f.scope ∧
      f.stmts = (products c x xs).flatMap Product.body ∧
      Shows c xs fs
  | _, _ => False

/-- The nest and the builder are in correspondence. -/
structure Models (c : Config) (n : Nest) (b : Builder) : Prop where
  scopes : Shows c n.scopes b.frames
  result : b.result = Item.output c n.items

end Nest

theorem Opening.Shows.heads {c : Config} {around : List Head} {v : Value} {items : List Item}
    {ps : List Product} {o : Opening} {x : Scope} (h : o.Shows c around v items ps x) :
    x.heads = o.heads c around v := by
  cases h with
  | wrap ho hw => exact hw
  | _ => rfl

namespace Nest

variable {c : Config}

/-- Items that are added one by one are added together. -/
theorem foldl_add (n : Nest) (is : List Item) : is.foldl add n =
    match n.scopes with
    | [] => { n with items := n.items ++ is }
    | x :: xs => { n with scopes := { x with items := x.items ++ is } :: xs } := by
  induction is generalizing n with
  | nil => cases hn : n.scopes <;> simp [← hn]
  | cons i is ih =>
      rw [List.foldl_cons, ih]
      cases hn : n.scopes <;> simp [add, hn]

theorem events_add (n : Nest) (i : Item) : (n.add i).events = n.events ++ i.events := by
  obtain ⟨scopes, items⟩ := n
  cases scopes with
  | nil => simp [add, events, pendingEvents, Item.eventsList_append, Item.eventsList]
  | cons x xs => simp [add, events, pendingEvents, Item.eventsList_append, Item.eventsList]

/-- As many scopes are open in the nest as in the builder. -/
theorem Shows.frames_eq_nil {fs : List Frame} (h : Shows c [] fs) : fs = [] := by
  cases fs with
  | nil => rfl
  | cons f fs => cases h

theorem Shows.scopes_eq_nil {xs : List Pending} (h : Shows c xs []) : xs = [] := by
  cases xs with
  | nil => rfl
  | cons x xs => cases h

theorem Shows.frames_eq_cons {x : Pending} {xs : List Pending} {fs : List Frame}
    (h : Shows c (x :: xs) fs) : ∃ g gs, fs = g :: gs := by
  cases fs with
  | nil => cases h
  | cons g gs => exact ⟨g, gs, rfl⟩

theorem Shows.scopes_eq_cons {xs : List Pending} {f : Frame} {fs : List Frame}
    (h : Shows c xs (f :: fs)) : ∃ y ys, xs = y :: ys := by
  cases xs with
  | nil => cases h
  | cons y ys => exact ⟨y, ys, rfl⟩

/-- The innermost frame of a nest with a scope that is open. -/
theorem Shows.frames_of_cons {x : Pending} {xs ys : List Pending} {fs : List Frame}
    (h : Shows c ys fs) (hx : ys = x :: xs) :
    ∃ g gs, fs = g :: gs ∧ Shows c (x :: xs) (g :: gs) := by
  subst hx
  obtain ⟨g, gs, rfl⟩ := h.frames_eq_cons
  exact ⟨g, gs, rfl, h⟩

/-- The innermost scope of a builder with a frame. -/
theorem Shows.scopes_of_cons {xs : List Pending} {f : Frame} {fs gs : List Frame}
    (h : Shows c xs gs) (hf : gs = f :: fs) :
    ∃ y ys, xs = y :: ys ∧ Shows c (y :: ys) (f :: fs) := by
  subst hf
  obtain ⟨y, ys, rfl⟩ := h.scopes_eq_cons
  exact ⟨y, ys, rfl, h⟩

/-- The heads that the builder sees are those of the nest. -/
theorem Shows.around_eq {xs : List Pending} {fs : List Frame} (h : Shows c xs fs) :
    fs.flatMap (·.scope.heads) = around c xs := by
  induction xs generalizing fs with
  | nil =>
      rw [h.frames_eq_nil]
      rfl
  | cons x xs ih =>
      obtain ⟨f, fs, rfl⟩ := h.frames_eq_cons
      obtain ⟨-, hs, -, hr⟩ := h
      rw [List.flatMap_cons, ih hr, hs.heads, around]

theorem findSome?_heads {α : Type} (g : Head → Option α) (fs : List Frame) :
    fs.findSome? (fun f => f.scope.heads.findSome? g) =
      (fs.flatMap (·.scope.heads)).findSome? g := by
  induction fs with
  | nil => rfl
  | cons f fs ih =>
      rw [List.findSome?_cons, ih, List.flatMap_cons, List.findSome?_append]
      cases f.scope.heads.findSome? g <;> rfl

theorem Models.loopDomain? {n : Nest} {b : Builder} (h : n.Models c b) (v : Var) :
    b.loopDomain? v = (around c n.scopes).findSome? (Head.domain? v) := by
  rw [Builder.loopDomain?, findSome?_heads, h.scopes.around_eq]

theorem Models.storageScopeOr {n : Nest} {b : Builder} (h : n.Models c b) (hc : b.config = c)
    (given : String) : b.storageScopeOr given = Opening.place c (around c n.scopes) given := by
  rw [Builder.storageScopeOr, Opening.place, Builder.storageScope, findSome?_heads,
    h.scopes.around_eq, hc]

variable {n : Nest} {b b' : Builder}

theorem ordered_of_mem {xs : List Scope} (h : Scope.Stacked xs) {x : Scope} (hx : x ∈ xs) :
    x.Ordered := by
  induction xs with
  | nil => cases hx
  | cons y ys ih =>
      obtain rfl | hx := List.mem_cons.1 hx
      · exact h.2.1
      · exact ih h.2.2 hx

/-- A thread that is found in the registry is one without a domain. -/
theorem registered_thread {g : FuncScope} {var : Var} {t : IterVar}
    (hs : Scope.Stacked (b.frames.map Frame.scope)) (hg : b.nearestFunc? = some g)
    (ht : g.threads.get? var = some t) : t = .thread none t.var t.var.name := by
  obtain ⟨f, hf, hx⟩ := List.exists_of_findSome?_eq_some hg
  have hx : f.scope = .func g := by
    cases hs : f.scope <;> simp [hs, Scope.func?] at hx
    rw [hx]
  have ho : (Scope.func g).Ordered := ordered_of_mem hs (List.mem_map.2 ⟨f, hf, hx⟩)
  rw [OrderedMap.get?] at ht
  obtain ⟨e, he, rfl⟩ := Option.map_eq_some_iff.1 ht
  exact ho e (List.mem_of_find?_eq_some he)

theorem Models.makes {o : Opening} {v : Value} {x : Scope} (h : n.Models c b)
    (hc : b.config = c) (hs : Scope.Stacked (b.frames.map Frame.scope)) (hm : o.Makes b v x) :
    o.Shows c (around c n.scopes) v [] [] x := by
  cases hm with
  | primFunc _ _ => exact .func ∅
  | block name bare => exact .block name bare
  | blockInit _ _ => exact .blockInit
  | branch condition => exact .branch condition
  | thenCase _ _ => exact .thenCase
  | elseCase _ _ _ => exact .elseCase
  | loop mode start stop annotations type length =>
      refine .wrap rfl ?_
      simp only [Opening.heads, Opening.length, Value.asVar, length]
  | launchThread var extent inside registered =>
      refine .wrap rfl ?_
      rw [registered_thread hs inside registered]
      rfl
  | realize region scope condition _ _ =>
      refine .wrap rfl ?_
      rw [h.storageScopeOr hc]
      rfl
  | grid extents length => exact .wrap rfl (Opening.gridHeads_eq length).symm
  | whileLoop _ | bind _ _ | allocate _ _ _ _ _ _ | allocateConst _ _ _ _ _
  | attr _ _ _ | assert _ _ => exact .wrap rfl rfl

theorem Models.push {o : Opening} {v : Value} {x : Scope} (h : n.Models c b)
    (hc : b.config = c) (hs : Scope.Stacked (b.frames.map Frame.scope)) (hm : o.Makes b v x) :
    (n.follow (.opened b.nextId o v)).Models c (b.push x) where
  scopes := ⟨rfl, h.makes hc hs hm, rfl, h.scopes⟩
  result := h.result

theorem appendedAll_of_top {f : Frame} {fs : List Frame} (hf : b.frames = f :: fs)
    (ss : List Stmt) : b.appendedAll ss =
      .ok { b with frames := { f with stmts := f.stmts ++ ss } :: fs } := by
  induction ss generalizing b f with
  | nil =>
      obtain ⟨config, frames, nextId, result, firstError⟩ := b
      cases hf
      simp [Builder.appendedAll]
  | cons s ss ih =>
      let g : Frame := { f with stmts := f.stmts ++ [s] }
      have hs : b.appended s = .ok { b with frames := g :: fs } := by
        simp [Builder.appended, hf, g]
      have ih := ih (b := { b with frames := g :: fs }) (f := g) rfl
      rw [Builder.appendedAll, hs]
      simpa [Except.bind, g] using ih

theorem appended_of_root {fn : Option PrimFunc} {rs : List Stmt} {s : Stmt}
    (hf : b.frames = []) (hr : b.result = Output.collect fn rs) (hrs : Stmt.Flat rs)
    (hs : s.members = [s]) (h : b.appended s = .ok b') :
    b' = { b with result := Output.collect fn (rs ++ [s]) } := by
  rw [Builder.appended] at h
  cases fn with
  | some g => simp [hf, hr, Output.collect] at h
  | none =>
      cases rs with
      | nil =>
          have hone : Stmt.sequence [s] = s := by simp [Stmt.sequence, hs]
          simp only [hf, hr, Output.collect, Except.ok.injEq] at h
          simp [← h, Output.collect, hone, hf]
      | cons r rs =>
          simp only [hf, hr, Output.collect, Except.ok.injEq] at h
          simp [← h, Output.collect, Stmt.sequence_sequence hrs hs, hf]

theorem appendedAll_of_root {fn : Option PrimFunc} {rs ss : List Stmt} (hf : b.frames = [])
    (hr : b.result = Output.collect fn rs) (hrs : Stmt.Flat rs) (hss : Stmt.Flat ss)
    (h : b.appendedAll ss = .ok b') :
    b' = { b with result := Output.collect fn (rs ++ ss) } := by
  induction ss generalizing b rs with
  | nil =>
      cases h
      rw [List.append_nil, ← hr]
  | cons s ss ih =>
      cases hs : b.appended s with
      | error e => simp [Builder.appendedAll, hs, Except.bind] at h
      | ok b'' =>
          have hm : s.members = [s] := hss s List.mem_cons_self
          obtain rfl := appended_of_root hf hr hrs hm hs
          rw [Builder.appendedAll, hs] at h
          have hrs' : Stmt.Flat (rs ++ [s]) := by
            refine hrs.append fun t ht => ?_
            obtain rfl := List.mem_singleton.1 ht
            exact hm
          have := ih (by exact hf) rfl hrs' (fun t ht => hss t (List.mem_cons_of_mem s ht)) h
          simpa using this

theorem products_snoc (x : Pending) (xs : List Pending) (i : Item) :
    products c { x with items := x.items ++ [i] } xs =
      products c x xs ++ [i.product c (around c (x :: xs))] :=
  Item.products_append c _ x.items [i]

/-- The correspondence after an item that lies in the innermost scope. -/
theorem Models.snoc {x : Pending} {xs : List Pending} {f : Frame} {fs : List Frame} {i : Item}
    {p : Product} (g : Frame) (h : n.Models c b) (hn : n.scopes = x :: xs) (hf : b.frames = f :: fs)
    (hp : i.product c (around c (x :: xs)) = p) (hid : g.id = f.id)
    (hg : x.opening.Shows c (around c xs) x.value (x.items ++ [i]) (products c x xs ++ [p]) g.scope)
    (hss : g.stmts = f.stmts ++ p.body) (hb : b'.frames = g :: fs) (hr : b'.result = b.result) :
    (n.add i).Models c b' := by
  obtain ⟨hs, hres⟩ := h
  rw [hn, hf] at hs
  obtain ⟨hx, -, hst, hrest⟩ := hs
  constructor
  · rw [hb, add, hn]
    refine ⟨hid.trans hx, ?_, ?_, hrest⟩
    · rw [products_snoc, hp]
      exact hg
    · rw [hss, hst, products_snoc, hp]
      simp
  · rw [hr, hres, add, hn]

/-- The correspondence after an item at depth zero. -/
theorem Models.rootSnoc {i : Item} {p : Product} (h : n.Models c b) (hf : b.frames = [])
    (hp : i.product c [] = p) (hb : b'.frames = [])
    (hr : b'.result = Output.collect
      ((Item.products c [] n.items ++ [p]).findSome? Product.func?)
      ((Item.products c [] n.items ++ [p]).flatMap Product.body)) :
    (n.add i).Models c b' := by
  have hn : n.scopes = [] := Shows.scopes_eq_nil (hf ▸ h.scopes)
  constructor
  · rw [hb, add, hn]
    trivial
  · rw [hr, ← hp, add, hn]
    simp only [Item.output, Item.products_append, Item.products]

/-- The correspondence after an item that changes the innermost scope and delivers nothing
to its body. -/
theorem Models.setTop {x : Pending} {xs : List Pending} {f : Frame} {fs : List Frame} {i : Item}
    {p : Product} (y : Scope) (h : n.Models c b) (hn : n.scopes = x :: xs)
    (hf : b.frames = f :: fs) (hp : i.product c (around c (x :: xs)) = p) (hbody : p.body = [])
    (hy : x.opening.Shows c (around c xs) x.value (x.items ++ [i]) (products c x xs ++ [p]) y) :
    (n.add i).Models c (b.setTop y) := by
  refine h.snoc { f with scope := y } hn hf hp rfl hy ?_ (Builder.frames_setTop hf y)
    (Builder.result_setTop b y)
  rw [hbody, List.append_nil]

theorem Models.deliveredAtRoot {i : Item} {p : Product} (h : n.Models c b)
    (hf : b.frames = []) (hp : i.product c [] = p) (hd : b.delivered p = .ok b') :
    (n.add i).Models c b' := by
  cases p with
  | stmts ss =>
      have hss : Stmt.Flat ss := by
        have := Item.flat_product c [] i
        rwa [hp] at this
      have hb := appendedAll_of_root hf h.result (Item.flat_products c [] n.items) hss hd
      refine h.rootSnoc hf hp (by rw [hb, hf]) ?_
      rw [hb]
      simp [Product.body, Product.func?]
  | func g =>
      obtain ⟨-, hr, rfl⟩ := Builder.delivered_func hd
      have hnone : (Item.products c [] n.items).findSome? Product.func? = none := by
        have hr' := h.result
        rw [hr, Item.output] at hr'
        cases hg : (Item.products c [] n.items).findSome? Product.func? with
        | none => rfl
        | some g' => simp [hg, Output.collect] at hr'
      refine h.rootSnoc hf hp hf ?_
      simp [hnone, Product.func?, Output.collect]
  | blockInit s =>
      obtain ⟨y, ht, -⟩ := Builder.delivered_blockInit hd
      exact absurd hf ht.frames_ne_nil
  | thenCase s =>
      obtain ⟨y, ht, -⟩ := Builder.delivered_thenCase hd
      exact absurd hf ht.frames_ne_nil
  | elseCase s =>
      obtain ⟨y, ht, -⟩ := Builder.delivered_elseCase hd
      exact absurd hf ht.frames_ne_nil

theorem Models.deliveredInto {x : Pending} {xs : List Pending} {f : Frame} {fs : List Frame}
    {i : Item} {p : Product} (h : n.Models c b) (hn : n.scopes = x :: xs)
    (hf : b.frames = f :: fs) (hi : i.Quiet) (hp : i.product c (around c (x :: xs)) = p)
    (hs : p.SitsOn (f.scope :: fs.map Frame.scope)) (hd : b.delivered p = .ok b') :
    (n.add i).Models c b' := by
  have hscopes := h.scopes
  rw [hn, hf] at hscopes
  obtain ⟨-, hx, -, -⟩ := hscopes
  have htop : b.Top f.scope := ⟨f, fs, hf, rfl⟩
  cases p with
  | stmts ss =>
      rw [show b.delivered (.stmts ss) = b.appendedAll ss from rfl,
        appendedAll_of_top hf] at hd
      obtain rfl := Except.ok.inj hd
      exact h.snoc { f with stmts := f.stmts ++ ss } hn hf hp rfl (hx.quiet hi ss) rfl rfl rfl
  | func g =>
      obtain ⟨hnil, -, -⟩ := Builder.delivered_func hd
      exact absurd hnil htop.frames_ne_nil
  | blockInit s =>
      obtain ⟨y, ht, rfl⟩ := Builder.delivered_blockInit hd
      rw [htop.unique ht] at hs hx
      exact h.setTop _ hn hf hp rfl (hx.init hi hs s)
  | thenCase s =>
      obtain ⟨y, ht, rfl⟩ := Builder.delivered_thenCase hd
      rw [htop.unique ht] at hs hx
      exact h.setTop _ hn hf hp rfl (hx.thenBranch hs.1 s)
  | elseCase s =>
      obtain ⟨y, ht, rfl⟩ := Builder.delivered_elseCase hd
      rw [htop.unique ht] at hs hx
      exact h.setTop _ hn hf hp rfl (hx.elseBranch hs.2 s)

/-- The product of an item is delivered where the item is added. -/
theorem Models.delivered {i : Item} {p : Product} (h : n.Models c b) (hi : i.Quiet)
    (hp : i.product c (around c n.scopes) = p) (hs : p.SitsOn (b.frames.map Frame.scope))
    (hd : b.delivered p = .ok b') : (n.add i).Models c b' := by
  have hscopes := h.scopes
  cases hf : b.frames with
  | nil =>
      rw [hf] at hscopes
      rw [hscopes.scopes_eq_nil] at hp
      exact h.deliveredAtRoot hf hp hd
  | cons f fs =>
      rw [hf] at hscopes
      obtain ⟨x, xs, hn⟩ := hscopes.scopes_eq_cons
      rw [hn] at hp
      rw [hf] at hs
      exact h.deliveredInto hn hf hi hp hs hd

theorem Shows.registerThread {xs : List Pending} {fs : List Frame} (h : Shows c xs fs)
    (g : FuncScope → FuncScope)
    (hg : ∀ y, ∃ threads, g y = { y with threads }) : Shows c xs (Builder.updateFunc g fs) := by
  induction xs generalizing fs with
  | nil =>
      obtain rfl := h.frames_eq_nil
      trivial
  | cons x xs ih =>
      obtain ⟨f, fs, rfl⟩ := h.frames_eq_cons
      obtain ⟨hid, hx, hst, hr⟩ := h
      cases hf : f.scope with
      | func y =>
          obtain ⟨threads, ht⟩ := hg y
          simp only [Builder.updateFunc, hf, ht]
          refine ⟨hid, ?_, hst, hr⟩
          rw [hf] at hx
          generalize x.opening = o at hx ⊢
          cases hx with
          | func _ => exact .func threads
      | block _ | blockInit | branch _ | thenCase | elseCase | wrap _ =>
          simp only [Builder.updateFunc, hf]
          exact ⟨hid, hf ▸ hx, hst, ih hr⟩

theorem Models.performed {s : Supply} {k : Call} {u : Value} {eff : Effect} (h : n.Models c b)
    (hd : k.Does b s u eff) (hp : b.performed eff = .ok b') :
    (n.add (.call s k u)).Models c b' := by
  cases eff with
  | append stmt =>
      have hone : b.delivered (.stmts [stmt]) = .ok b' := by
        rw [Builder.performed] at hp
        simp [Builder.delivered, Builder.appendedAll, hp, Except.bind]
      cases hd with
      | store _ _ _ | prefetch _ _ | evaluate _ => exact h.delivered trivial rfl trivial hone
  | registerThread w tag =>
      cases hd
      cases hp
      have hm : n.Models c (b.registerThread w w.name) :=
        ⟨h.scopes.registerThread _ fun y => ⟨_, rfl⟩, h.result⟩
      exact hm.delivered trivial rfl trivial rfl
  | setTop y =>
      obtain ⟨x, ht, hr⟩ := hd.refines
      cases hp
      obtain ⟨f, fs, hf, hx⟩ := ht
      obtain ⟨z, zs, hn, -, hz, -, -⟩ := h.scopes.scopes_of_cons hf
      rw [hx] at hz
      have hstmts : k.stmts = [] := by
        cases hd <;> rfl
      have hp : (Item.call s k u).product c (around c (z :: zs)) = .stmts [] := by
        rw [Item.product, hstmts]
      refine h.setTop y hn hf hp rfl ?_
      cases hr with
      | @block y y' hi =>
          have hl (v : Var) : b.loopDomain? v = (around c zs).findSome? (Head.domain? v) := by
            rw [h.loopDomain?, hn, around, ← hz.heads]
            rfl
          exact hz.block_call ⟨f, fs, hf, hx⟩ hd hl
      | @func y y' hi => exact hz.func_call ⟨f, fs, hf, hx⟩ hd

theorem Models.closed {f : Frame} {fs : List Frame} {p : Product} (h : n.Models c b)
    (hc : b.config = c) (hs : Scope.Stacked (b.frames.map Frame.scope)) (hf : b.frames = f :: fs)
    (hp : f.close b.config = .ok p) (hd : { b with frames := fs }.delivered p = .ok b') :
    (n.follow (.closed f.id)).Models c b' := by
  obtain ⟨hscopes, hres⟩ := h
  rw [hf] at hs
  obtain ⟨x, xs, hn, -, hx, hst, hr⟩ := hscopes.scopes_of_cons hf
  have hcl := Frame.close_closes hp
  have hsits : p.SitsOn (fs.map Frame.scope) := hcl.sitsOn hs.1
  rw [hst, hc] at hcl
  have hm : Models c { n with scopes := xs } { b with frames := fs } := ⟨hr, hres⟩
  simp only [follow, hn]
  exact hm.delivered (i := .scope f.id x.opening x.value x.items) trivial (hx.closes hcl) hsits hd

/-- Every event that is no mistake keeps the nest and the builder in correspondence. -/
theorem Models.took {e : Event} (h : n.Models c b) (hc : b.config = c)
    (hs : Scope.Stacked (b.frames.map Frame.scope)) (ht : e.Took b b') (he : e.error? = none) :
    (n.follow e).Models c b' := by
  cases e with
  | entered config => cases ht
  | opened id o v =>
      obtain ⟨x, s, s', hx, rfl, rfl⟩ := ht
      exact h.push hc hs (Opening.scope_makes hx)
  | called s k v =>
      obtain ⟨eff, s', he, hp⟩ := ht
      exact h.performed (Call.effect_does he) hp
  | closed id =>
      obtain ⟨f, fs, p, hf, rfl, hp, hd⟩ := ht
      exact h.closed hc hs hf hp hd
  | discarded id e => cases he
  | failed f =>
      obtain rfl := ht
      cases f with
      | refused e => cases he
      | overflow o => exact h

theorem ofEvents_append (H : List Event) (e : Event) :
    ofEvents (H ++ [e]) = (ofEvents H).follow e := by
  simp [ofEvents]

/-- The nest is the run so far. -/
theorem Models.events_took {e : Event} (h : n.Models c b) (ht : e.Took b b')
    (he : e.error? = none) :
    (n.follow e).events = n.events ++ if e.done then [e] else [] := by
  cases e with
  | entered config => cases ht
  | opened id o v => simp [follow, events, pendingEvents, Item.eventsList, Event.done]
  | called s k v => simp [follow, events_add, Item.events, Event.done]
  | closed id =>
      obtain ⟨f, fs, p, hf, rfl, -, -⟩ := ht
      obtain ⟨x, xs, hn, hid, -⟩ := h.scopes.scopes_of_cons hf
      simp only [follow, hn, events_add, Item.events, Event.done]
      simp [events, pendingEvents, hn, hid]
  | discarded id e => cases he
  | failed f => simp [follow, Event.done]

end Nest

/-- A run without mistakes is what its nest says. -/
theorem Builder.Lived.models {config : Config} {H : List Event} {b : Builder}
    (h : Lived config H b) (hc : H.findSome? Event.error? = none) :
    (Nest.ofEvents H).Models config b ∧ (Nest.ofEvents H).events = H.filter Event.done := by
  induction h with
  | start => exact ⟨⟨trivial, rfl⟩, rfl⟩
  | @step H b e b' past last ih =>
      rw [List.findSome?_append, Option.or_eq_none_iff] at hc
      obtain ⟨hH, he⟩ := hc
      have he : e.error? = none := by simpa using he
      obtain ⟨hm, hev⟩ := ih hH
      rw [Nest.ofEvents_append]
      refine ⟨hm.took past.config_eq past.stacked last.took he, ?_⟩
      rw [hm.events_took last.took he, hev, List.filter_append]
      cases hd : e.done <;> simp [hd]

namespace Item

mutual

theorem follow_events (n : Nest) : (i : Item) → i.events.foldl Nest.follow n = n.add i
  | .call _ _ _ => rfl
  | .scope id o v items => by
      rw [events, List.foldl_cons, List.foldl_append, follow_eventsList, Nest.follow,
        Nest.foldl_add]
      rfl
termination_by structural i => i

theorem follow_eventsList (n : Nest) :
    (is : List Item) → (eventsList is).foldl Nest.follow n = is.foldl Nest.add n
  | [] => rfl
  | i :: is => by
      rw [eventsList, List.foldl_append, follow_events n i, List.foldl_cons]
      exact follow_eventsList _ is
termination_by structural is => is

end

end Item

end TensorProgram
