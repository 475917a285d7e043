import TensorProgram.Proofs.AlphaEquivalence
import TensorProgram.Proofs.Tasks
import TensorProgram.Proofs.ValueEquality

/-!
Shared tasks. Functions that are equal as values have one structure, and with it one task, if their
maps list the keys in the same order; and only then, as structure counts the order and values do
not.
-/

namespace TensorProgram

/-! Renaming leaves the keys in their order. -/

section

variable (σ : VarId → VarId)

theorem Annotations.keys_outline (m : Annotations) : (Annotations.outline σ m).keys = m.keys := by
  simp [Annotations.outline, OrderedMap.mapValues, OrderedMap.keys, Function.comp_def]

theorem Head.order_outline (h : Head) : (h.outline σ).order = h.order := by
  cases h <;> simp only [Head.outline, Head.order, Annotations.keys_outline]

mutual

theorem Stmt.orders_outline : (s : Stmt) → (s.outline σ).orders = s.orders
  | .seq ss => Stmt.ordersList_outline ss
  | .block _ b init body => by
      simp only [Stmt.outline, Stmt.orders, Block.outline, Annotations.keys_outline,
        Stmt.ordersOption_outline init, Stmt.orders_outline body]
  | .branch _ s e => by
      rw [Stmt.outline, Stmt.orders, Stmt.orders, Stmt.orders_outline s,
        Stmt.ordersOption_outline e]
  | .under h s => by
      rw [Stmt.outline, Stmt.orders, Stmt.orders, Head.order_outline, Stmt.orders_outline s]
  | .leaf _ => rfl
termination_by structural s => s

theorem Stmt.ordersList_outline : (ss : List Stmt) →
    Stmt.ordersList (Stmt.outlineList σ ss) = Stmt.ordersList ss
  | [] => rfl
  | s :: ss => by
      rw [Stmt.outlineList, Stmt.ordersList, Stmt.ordersList, Stmt.orders_outline s,
        Stmt.ordersList_outline ss]
termination_by structural ss => ss

theorem Stmt.ordersOption_outline : (s : Option Stmt) →
    Stmt.ordersOption (Stmt.outlineOption σ s) = Stmt.ordersOption s
  | none => rfl
  | some s => Stmt.orders_outline s
termination_by structural s => s

end

end

/-- A structural class has one leader. -/
theorem Task.leader_unique {cs : List (String × PrimFunc)} {c d : String × PrimFunc}
    (hc : c ∈ leaders cs) (hd : d ∈ leaders cs) (h : c.2.fingerprint = d.2.fingerprint) :
    c = d := by
  have hnodup := nodup_entries "" cs
  rw [fst_entries] at hnodup
  exact List.inj_on_of_nodup_map hnodup hc hd h

namespace Module

variable {m : Module} {f g : PrimFunc} {a b : String} {target : String}

theorem unresolved?_eq_none (known : ∀ c ∈ m.kernelCalls, (m.primByName? c.2).isSome) :
    m.unresolved? m.kernelCalls = none := by
  rw [unresolved?, List.find?_eq_none]
  intro c hc
  obtain ⟨k, hk⟩ := Option.isSome_iff_exists.1 (known c hc)
  simp [hk]

theorem mem_called {c : String × String} (hc : c ∈ m.kernelCalls) (h : m.primByName? c.2 = some f) :
    (c.2, f) ∈ m.called :=
  List.mem_filterMap.2 ⟨c, hc, by rw [h]; rfl⟩

/-- The functions, registered as `a` and `b`, have one task, and all their calls count for it. -/
structure SharedTask (m : Module) (target : String) (f g : PrimFunc) (a b : String) (ts : List Task)
    (t : Task) : Prop where
  mem : t ∈ ts
  tuned : t.target = target
  left : t.func.structuralEq f
  right : t.func.structuralEq g
  unique : ∀ u ∈ ts, u.func.structuralEq f ∨ u.func.structuralEq g → u = t
  weight : m.kernelCalls.countP (fun c => c.2 = a ∨ c.2 = b) ≤ t.weight

/-- Functions of one structure have one task, if one of them is called. -/
theorem sharedTask_of_structuralEq (h : f.structuralEq g = true)
    (hf : m.primByName? a = some (f.withName a)) (hg : m.primByName? b = some (g.withName b))
    (known : ∀ c ∈ m.kernelCalls, (m.primByName? c.2).isSome)
    (called : ∃ c ∈ m.kernelCalls, c.2 = a ∨ c.2 = b) :
    ∃ ts, m.tasks target = .ok ts ∧ ∃ t, m.SharedTask target f g a b ts t := by
  have hfg : f.fingerprint = g.fingerprint := PrimFunc.structuralEq_iff.1 h
  -- What is registered as `a` or `b` has the structure of both.
  have hab {c : String × String} (hc : c.2 = a ∨ c.2 = b) :
      ∃ k, m.primByName? c.2 = some k ∧ k.fingerprint = f.fingerprint := by
    obtain hc | hc := hc
    · exact ⟨f.withName a, hc ▸ hf, rfl⟩
    · exact ⟨g.withName b, hc ▸ hg, hfg.symm⟩
  obtain ⟨c, hc, hcab⟩ := called
  obtain ⟨k, hk, hkf⟩ := hab hcab
  obtain ⟨d, hd, hdk⟩ := Task.exists_leader (mem_called hc hk)
  have hdf : d.2.fingerprint = f.fingerprint := (PrimFunc.structuralEq_iff.1 hdk).trans hkf
  refine ⟨Task.ofCalls target m.called, by rw [tasks_eq, unresolved?_eq_none known],
    Task.ofClass target m.called d, ?_⟩
  refine ⟨List.mem_map_of_mem hd, rfl, PrimFunc.structuralEq_iff.2 hdf,
    PrimFunc.structuralEq_iff.2 (hdf.trans hfg), ?_, ?_⟩
  · intro u hu hfg'
    obtain ⟨e, he, rfl⟩ := List.mem_map.1 hu
    have hef : e.2.fingerprint = f.fingerprint := by
      obtain hef | heg := hfg'
      · exact PrimFunc.structuralEq_iff.1 hef
      · exact (PrimFunc.structuralEq_iff.1 heg).trans hfg.symm
    rw [Task.leader_unique he hd (hef.trans hdf.symm)]
  · simp only [Task.ofClass, called, resolve, List.countP_filterMap]
    refine List.countP_mono_left fun c _ hc => ?_
    obtain ⟨k, hk, hkf⟩ := hab (of_decide_eq_true hc)
    simp [hk, PrimFunc.structuralEq_iff, hdf, hkf]

end Module

namespace PrimFunc

variable {f g : PrimFunc}

theorem fit_atoms {vs : List Var} (hv : ∀ v ∈ f.occurrences, v ∈ vs)
    (hx : ∀ x ∈ f.floats, x.Plain) : Fit vs f.atoms := by
  intro a ha
  cases a with
  | var v => exact hv v (List.mem_filterMap.2 ⟨_, ha, rfl⟩)
  | float x => exact hx x (List.mem_filterMap.2 ⟨_, ha, rfl⟩)

/-- A renaming that leaves the parameters alone leaves the keys alone that are parameters. -/
theorem keys_of_outline {σ : VarId → VarId} {m n : OrderedMap Var Buffer}
    (h : m.entries.map (fun e => (e.1.outline σ, e.2.outline σ)) =
      n.entries.map fun e => (e.1.outline id, e.2.outline id))
    (hk : ∀ k ∈ m.keys, σ k.id = k.id) : m.keys.map Var.id = n.keys.map Var.id := by
  have hm : m.entries.map (fun e => σ e.1.id) = n.entries.map fun e => e.1.id := by
    simpa [Var.outline, Function.comp_def] using congrArg (List.map fun e => e.1.id) h
  have hs : m.entries.map (fun e => e.1.id) = m.entries.map fun e => σ e.1.id :=
    List.map_congr_left fun e he => (hk e.1 (List.mem_map_of_mem he)).symm
  simpa [OrderedMap.keys, Function.comp_def] using hs.trans hm

/-- Functions that are equal as values and have one structure have their maps in one order. -/
theorem sameOrders_of_structuralEq (hf : f.body.constantsFit) (hg : g.body.constantsFit)
    (closed : f.interface.Closed) (equal : f.valueEq g = true) (h : f.structuralEq g = true) :
    f.SameOrders g := by
  obtain ⟨σ, -, ho⟩ := AlphaEquiv.of_fingerprint_eq hf hg (structuralEq_iff.1 h)
  simp only [valueEq, Bool.and_eq_true, decide_eq_true_eq] at equal
  have hparams : f.params.map Var.id = g.params.map Var.id := by
    rw [← List.forall₂_eq_eq_eq, List.forall₂_map_left_iff, List.forall₂_map_right_iff]
    exact (eqList_iff_forall₂.1 equal.1.1.1.1.1.2).imp fun v w h => by simpa [Var.same] using h
  have hσ : f.params.map (fun v => σ v.id) = g.params.map Var.id := by
    simpa [outline, Var.outline, Function.comp_def] using
      congrArg (fun o => o.params.map Var.id) ho
  have hfix : ∀ i ∈ f.params.map Var.id, σ i = i := by
    intro i hi
    obtain ⟨v, hv, rfl⟩ := List.mem_map.1 hi
    exact List.map_inj_left.1 (hσ.trans hparams.symm) v hv
  refine ⟨?_, ?_, ?_, ?_⟩
  · refine keys_of_outline (congrArg Outline.bufferMap ho) fun k hk => hfix _ ?_
    exact closed.known k (List.mem_append_left _ hk)
  · refine keys_of_outline (congrArg Outline.preflattened ho) fun k hk => hfix _ ?_
    exact closed.known k (List.mem_append_right _ hk)
  · simpa [outline, Annotations.keys_outline] using congrArg (fun o => o.attrs.keys) ho
  · simpa [outline, Stmt.orders_outline] using congrArg (fun o => o.body.orders) ho

/-- Functions that are equal as values have one structure, if their maps list the keys in the same
order, all their variables have one type each, and all their floats are plain. Where one of the two
is called there is one task for both, under whatever names they are registered. -/
theorem structuralEq_of_valueEq (types : SameTypes (f.occurrences ++ g.occurrences))
    (plain : ∀ x ∈ f.floats ++ g.floats, x.Plain) (orders : f.SameOrders g)
    (equal : f.valueEq g = true) :
    f.structuralEq g = true ∧
    ∀ (m : Module) (target a b : String),
      m.primByName? a = some (f.withName a) → m.primByName? b = some (g.withName b) →
      (∀ c ∈ m.kernelCalls, (m.primByName? c.2).isSome) →
      (∃ c ∈ m.kernelCalls, c.2 = a ∨ c.2 = b) →
      ∃ ts, m.tasks target = .ok ts ∧ ∃ t, m.SharedTask target f g a b ts t := by
  have hf : Fit (f.occurrences ++ g.occurrences) f.atoms :=
    fit_atoms (fun v hv => List.mem_append_left _ hv) fun x hx =>
      plain x (List.mem_append_left _ hx)
  have hg : Fit (f.occurrences ++ g.occurrences) g.atoms :=
    fit_atoms (fun v hv => List.mem_append_right _ hv) fun x hx =>
      plain x (List.mem_append_right _ hx)
  have h : f.structuralEq g = true := by
    rw [structuralEq_iff, fingerprint, fingerprint, agree types equal orders hf hg]
  refine ⟨h, ?_⟩
  intro m target a b hfa hgb known called
  exact Module.sharedTask_of_structuralEq h hfa hgb known called

/-- A function over the buffer `a` and the variable `i`, with attributes in a given order. -/
def scaling (i : String) (attrs : List (String × AttrValue)) : PrimFunc where
  name := none
  params := [⟨0, "a", .handle, none⟩]
  body := .under (.loop ⟨⟨1, i, .int 32, none⟩, .int32 0, .int32 8, .serial, none,
    .ofList [("step", .int 2), ("rate", .float ⟨0⟩)]⟩) (.evaluate (.var ⟨1, i, .int 32, none⟩))
  retType := .void
  bufferMap := .ofList [(⟨0, "a", .handle, none⟩,
    ⟨⟨2, "A", .handle, some (.pointer (.int 32) "global")⟩, .int 32, [.int32 8], [], .int32 0, "A",
      64, 1, .default, []⟩)]
  preflattened := ∅
  attrs := .ofList attrs

/-- A module that calls two functions. -/
def calling (f g : PrimFunc) : Except ModuleError Module := do
  let (_, m) ← (Module.empty "calling").addPrim "one" f
  let (_, m) ← m.addPrim "two" g
  m.addGraph ⟨"main", [.kernel "one", .kernel "two"]⟩

theorem structuralEq_of_valueEq_scaling :
    let f := scaling "i" [("a", .int 1), ("b", .int 2)]
    let g := scaling "j" [("a", .int 1), ("b", .int 2)]
    f.structuralEq g = true ∧ ∃ m ts t, calling f g = .ok m ∧ m.tasks "cpu" = .ok ts ∧
      t ∈ ts ∧ 2 ≤ t.weight := by
  intro f g
  obtain ⟨m, hm⟩ : ∃ m, calling f g = .ok m := ⟨_, rfl⟩
  obtain ⟨h, tasks⟩ := structuralEq_of_valueEq (f := f) (g := g) (by decide) (by decide)
    ⟨rfl, rfl, rfl, rfl⟩ (by decide)
  have tasks := tasks m "cpu" "one" "two"
  cases hm
  obtain ⟨ts, ht, t, shared⟩ := tasks rfl rfl (by decide) ⟨("main", "one"), by decide, .inl rfl⟩
  exact ⟨h, _, ts, t, rfl, ht, shared.mem, shared.weight⟩

/-- Equal functions with their attributes in two orders are of two structures, and have two
tasks. -/
theorem valueEq_of_two_structures :
    let f := scaling "i" [("a", .int 1), ("b", .int 2)]
    let g := scaling "i" [("b", .int 2), ("a", .int 1)]
    f.valueEq g = true ∧ SameTypes (f.occurrences ++ g.occurrences) ∧
      (∀ x ∈ f.floats ++ g.floats, x.Plain) ∧ f.structuralEq g = false ∧
      ∃ m ts, calling f g = .ok m ∧ m.tasks "cpu" = .ok ts ∧
        ts.map Task.name = ["one", "two"] := by
  intro f g
  refine ⟨by decide, by decide, by decide, by decide, _, _, rfl, rfl, rfl⟩

end PrimFunc

end TensorProgram
