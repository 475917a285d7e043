import Mathlib.Data.List.Nodup
import TensorProgram.Module
import TensorProgram.Proofs.Interface
import TensorProgram.Proofs.Transaction

/-!
Modules as registries. Functions of both kinds are added to a new module in any order, and some
additions are refused. What a module then holds is told by the additions that went through, in
their order: names are used up by them, tensor functions are numbered by them, and what was
found under a number or a name once is found there for good.
-/

namespace TensorProgram.Module

/-- A function to be added to a module: a tensor function under a given name or under its own, or
a graph function. -/
inductive Addition where
  | prim (name : String) (f : PrimFunc)
  | named (f : PrimFunc)
  | graph (g : GraphFunc)

namespace Addition

/-- The name that the function is to have in the module. -/
def name? : Addition → Option String
  | .prim name _ => some name
  | .named f => f.name
  | .graph g => some g.name

/-- The tensor function to be added, under its name in the module. -/
def prim? : Addition → Option (String × PrimFunc)
  | .prim name f => some (name, f)
  | .named f => f.name.map fun name => (name, f)
  | .graph _ => none

def graph? : Addition → Option GraphFunc
  | .graph g => some g
  | _ => none

/-- Carries out an addition. The result is the number of a tensor function. -/
def carry : Addition → Update (Option FunctionId)
  | .prim name f => return some (← registerPrim name f)
  | .named f => return some (← registerNamed f)
  | .graph g => do
      registerGraph g
      return none

end Addition

/-- A module in the making, and the additions that have gone through so far. -/
structure Registry where
  unit : Module
  log : List Addition := []

namespace Registry

/-- The module is what the addition has made of it, whether it has gone through or not. -/
def step (r : Registry) (a : Addition) : Registry :=
  match a.carry r.unit with
  | (.ok _, m) => ⟨m, r.log ++ [a]⟩
  | (.error _, m) => ⟨m, r.log⟩

/-- The additions `as`, one after the other, to a new module. -/
def run (name : String) (as : List Addition) : Registry := as.foldl step { unit := .empty name }

/-- The names of functions in the order in which they came in. -/
def names (r : Registry) : List String := r.log.filterMap Addition.name?

/-- The tensor functions as given, under their names, in the order in which they came in. -/
def prims (r : Registry) : List (String × PrimFunc) := r.log.filterMap Addition.prim?

def graphs (r : Registry) : List GraphFunc := r.log.filterMap Addition.graph?

/-- The two containers and the index say what the log says, and no name is in the log twice. -/
structure Kept (r : Registry) : Prop where
  values : r.unit.prims.values = r.prims.map fun e => e.2.withName e.1
  /-- The number under a name is the place of the function. -/
  index : r.unit.prims.index.entries = (r.prims.map Prod.fst).zipIdx
  graphs : r.unit.graphs = r.graphs
  distinct : r.names.Nodup

/-- The names of both kinds of function, one kind after the other. -/
theorem names_perm (r : Registry) :
    r.names.Perm (r.prims.map Prod.fst ++ r.graphs.map GraphFunc.name) := by
  simp only [names, prims, graphs]
  induction r.log with
  | nil => exact .refl _
  | cons a log ih =>
      cases a with
      | prim name f => exact ih.cons name
      | graph g => exact (ih.cons g.name).trans List.perm_middle.symm
      | named f =>
          cases hf : f.name with
          | none =>
              simpa only [Addition.name?, Addition.prim?, Addition.graph?, List.filterMap_cons, hf,
                Option.map_none] using ih
          | some name =>
              simpa only [Addition.name?, Addition.prim?, Addition.graph?, List.filterMap_cons, hf,
                Option.map_some, List.map_cons, List.cons_append] using ih.cons name

end Registry

section Carry

variable {m : Module} {a : Addition} {n : String}

theorem nameTaken_iff :
    m.nameTaken n = true ↔ n ∈ m.prims.index.keys ++ m.graphs.map GraphFunc.name := by
  have hp : m.prims.index.contains n = true ↔ n ∈ m.prims.index.keys := by
    simp [OrderedMap.contains, OrderedMap.get?, OrderedMap.keys, Keyed.key]
  rw [nameTaken, Bool.or_eq_true, hp, List.mem_append, List.mem_map, List.any_eq_true]
  simp only [decide_eq_true_eq]

theorem registerPrim_apply (n : String) (f : PrimFunc) (m : Module) :
    registerPrim n f m = if m.nameTaken n then (.error (.duplicateFunction n), m)
      else (.ok m.prims.values.length, { m with prims :=
        ⟨m.prims.values ++ [f.withName n], m.prims.index.insert n m.prims.values.length⟩ }) := by
  have hget : (get : Update Module) m = (.ok m, m) := rfl
  simp only [registerPrim, bind_inPlace, hget]
  split <;> rfl

theorem registerGraph_apply (g : GraphFunc) (m : Module) :
    registerGraph g m = if m.nameTaken g.name then (.error (.duplicateFunction g.name), m)
      else (.ok (), { m with graphs := m.graphs ++ [g] }) := by
  have hget : (get : Update Module) m = (.ok m, m) := rfl
  simp only [registerGraph, bind_inPlace, hget]
  split <;> rfl

/-- The module with one more function, whose name is free. -/
def grown (m : Module) (a : Addition) : Module where
  name := m.name
  prims := match a.prim? with
    | some (name, f) => ⟨m.prims.values ++ [f.withName name],
        m.prims.index.insert name m.prims.values.length⟩
    | none => m.prims
  graphs := m.graphs ++ a.graph?.toList

/-- An addition looks at the name before it changes anything. -/
theorem carry_eq (a : Addition) (m : Module) : a.carry m = match a.name? with
    | none => (.error .unnamedFunction, m)
    | some n => if m.nameTaken n then (.error (.duplicateFunction n), m)
        else (.ok (a.prim?.map fun _ => m.prims.values.length), m.grown a) := by
  cases a with
  | prim name f =>
      simp only [Addition.carry, Addition.name?, bind_inPlace, registerPrim_apply]
      cases m.nameTaken name with
      | true => rfl
      | false => simp [grown, Addition.prim?, Addition.graph?]; rfl
  | named f =>
      cases hf : f.name with
      | none => simp only [Addition.carry, Addition.name?, registerNamed, hf]; rfl
      | some name =>
          simp only [Addition.carry, Addition.name?, registerNamed, hf, bind_inPlace,
            registerPrim_apply]
          cases m.nameTaken name with
          | true => rfl
          | false => simp [grown, Addition.prim?, Addition.graph?, hf]; rfl
  | graph g =>
      simp only [Addition.carry, Addition.name?, bind_inPlace, registerGraph_apply]
      cases m.nameTaken g.name with
      | true => rfl
      | false => simp [grown, Addition.prim?, Addition.graph?]; rfl

theorem carry_of_unnamed (h : a.name? = none) : a.carry m = (.error .unnamedFunction, m) := by
  rw [carry_eq, h]

theorem carry_of_taken (h : a.name? = some n) (ht : m.nameTaken n = true) :
    a.carry m = (.error (.duplicateFunction n), m) := by
  simp [carry_eq, h, ht]

theorem carry_of_free (h : a.name? = some n) (ht : m.nameTaken n = false) :
    a.carry m = (.ok (a.prim?.map fun _ => m.prims.values.length), m.grown a) := by
  simp [carry_eq, h, ht]

end Carry

namespace Registry

variable {r : Registry} {a : Addition} {n : String}

theorem Kept.keys (h : r.Kept) : r.unit.prims.index.keys = r.prims.map Prod.fst := by
  rw [OrderedMap.keys, h.index]
  exact List.zipIdx_map_fst 0 _

theorem Kept.names_taken (h : r.Kept) : r.unit.nameTaken n = true ↔ n ∈ r.names := by
  rw [nameTaken_iff, h.keys, h.graphs, r.names_perm.mem_iff]

/-- An addition to a module that has been kept is refused for its name or else goes through. -/
theorem Kept.carry_cases (h : r.Kept) (a : Addition) :
    (a.name? = none ∧ a.carry r.unit = (.error .unnamedFunction, r.unit)) ∨
    (∃ n, a.name? = some n ∧ n ∈ r.names ∧
      a.carry r.unit = (.error (.duplicateFunction n), r.unit)) ∨
    (∃ n, a.name? = some n ∧ n ∉ r.names ∧
      a.carry r.unit = (.ok (a.prim?.map fun _ => r.prims.length), r.unit.grown a)) := by
  cases hn : a.name? with
  | none => exact .inl ⟨rfl, carry_of_unnamed hn⟩
  | some n =>
      by_cases ht : n ∈ r.names
      · exact .inr (.inl ⟨n, rfl, ht, carry_of_taken hn (h.names_taken.2 ht)⟩)
      · have hf : r.unit.nameTaken n = false := by
          rw [Bool.eq_false_iff]
          exact fun hc => ht (h.names_taken.1 hc)
        have hs : r.unit.prims.values.length = r.prims.length := by rw [h.values, List.length_map]
        exact .inr (.inr ⟨n, rfl, ht, hs ▸ carry_of_free hn hf⟩)

theorem name_of_prim? {f : PrimFunc} (h : a.prim? = some (n, f)) : a.name? = some n := by
  cases a with
  | prim name g =>
      cases h
      rfl
  | named g =>
      simp only [Addition.prim?, Option.map_eq_some_iff] at h
      obtain ⟨name, hg, he⟩ := h
      cases he
      exact hg
  | graph g => cases h

theorem Kept.grown (h : r.Kept) (hn : a.name? = some n) (hf : n ∉ r.names) :
    Kept ⟨r.unit.grown a, r.log ++ [a]⟩ := by
  constructor
  case values =>
    cases hp : a.prim? with
    | none => simpa [Registry.prims, Module.grown, hp] using h.values
    | some e => simp [Registry.prims, Module.grown, hp, h.values]
  case index =>
    cases hp : a.prim? with
    | none => simpa [Registry.prims, Module.grown, hp] using h.index
    | some e =>
        obtain ⟨name, f⟩ := e
        obtain rfl : name = n := Option.some.inj ((name_of_prim? hp).symm.trans hn)
        have hk : Keyed.key name ∉ r.unit.prims.index.entries.map fun e => Keyed.key e.1 := by
          intro hm
          refine hf (h.names_taken.1 (nameTaken_iff.2 (List.mem_append_left _ ?_)))
          simpa [OrderedMap.keys, Keyed.key] using hm
        have hput := OrderedMap.put_of_notMem name r.unit.prims.values.length hk
        simp only [Module.grown, hp, OrderedMap.entries_insert, hput]
        simp [Registry.prims, hp, List.zipIdx_append, h.index, h.values]
  case graphs =>
    cases hg : a.graph? <;> simp [Registry.graphs, Module.grown, hg, h.graphs]
  case distinct =>
    simp only [names, List.filterMap_append, List.filterMap_cons, hn, List.filterMap_nil]
    rw [List.nodup_append]
    refine ⟨h.distinct, List.nodup_singleton _, ?_⟩
    intro x hx y hy hxy
    rw [List.mem_singleton.1 hy] at hxy
    exact hf (hxy ▸ hx)

theorem Kept.step (h : r.Kept) (a : Addition) : (r.step a).Kept := by
  obtain ⟨-, ha⟩ | ⟨n, -, -, ha⟩ | ⟨n, hn, hf, ha⟩ := h.carry_cases a
  · rwa [Registry.step, ha]
  · rwa [Registry.step, ha]
  · rw [Registry.step, ha]
    exact h.grown hn hf

theorem Kept.foldl (h : r.Kept) (as : List Addition) : (as.foldl Registry.step r).Kept := by
  induction as generalizing r with
  | nil => exact h
  | cons a as ih => exact ih (h.step a)

theorem kept_run (name : String) (as : List Addition) : (run name as).Kept :=
  Kept.foldl ⟨rfl, rfl, rfl, by simp [names]⟩ as

/-- Nothing that has gone through is taken back. -/
theorem log_foldl (r : Registry) (as : List Addition) : r.log <+: (as.foldl step r).log := by
  induction as generalizing r with
  | nil => exact List.prefix_refl _
  | cons a as ih =>
      refine List.IsPrefix.trans ?_ (ih (r.step a))
      rw [step]
      split
      · exact List.prefix_append _ _
      · exact List.prefix_refl _

theorem Kept.prim? (h : r.Kept) (k : FunctionId) :
    r.unit.prim? k = r.prims[k]?.map fun e => e.2.withName e.1 := by
  rw [Module.prim?, h.values, List.getElem?_map]

/-- The index leads from a name to the place of its function. -/
theorem Kept.get?_index (h : r.Kept) {k : FunctionId} :
    r.unit.prims.index.get? n = some k ↔ (r.prims.map Prod.fst)[k]? = some n := by
  have he : r.unit.prims.index.get? n = (r.unit.prims.index.entry? n).map Prod.snd := rfl
  rw [he, Option.map_eq_some_iff]
  simp only [OrderedMap.entry?_eq_some_iff, h.index]
  constructor
  · rintro ⟨⟨n', k'⟩, ⟨hm, hn⟩, rfl⟩
    obtain rfl : n' = n := hn
    exact List.mk_mem_zipIdx_iff_getElem?.1 hm
  · intro hk
    exact ⟨(n, k), ⟨List.mk_mem_zipIdx_iff_getElem?.2 hk, rfl⟩, rfl⟩

theorem Kept.primByName?_eq_some (h : r.Kept) {g : PrimFunc} :
    r.unit.primByName? n = some g ↔ ∃ f, (n, f) ∈ r.prims ∧ g = f.withName n := by
  rw [primByName?, Option.bind_eq_bind, Option.bind_eq_some_iff]
  simp only [h.get?_index, h.prim?, List.getElem?_map, Option.map_eq_some_iff]
  constructor
  · rintro ⟨k, ⟨e, he, rfl⟩, e', he', rfl⟩
    obtain rfl := Option.some.inj (he.symm.trans he')
    exact ⟨e.2, List.mem_of_getElem? he, rfl⟩
  · rintro ⟨f, hf, rfl⟩
    obtain ⟨k, hk⟩ := List.mem_iff_getElem?.1 hf
    exact ⟨k, ⟨(n, f), hk, rfl⟩, (n, f), hk, rfl⟩

/-- An addition that goes through is the last in the log. -/
theorem Kept.log_step (h : r.Kept) {k : Option FunctionId} {m : Module}
    (ha : a.carry r.unit = (.ok k, m)) :
    (r.step a).log = r.log ++ [a] ∧ k = a.prim?.map fun _ => r.prims.length := by
  obtain ⟨-, hc⟩ | ⟨n, -, -, hc⟩ | ⟨n, hn, hf, hc⟩ := h.carry_cases a
  · cases ha.symm.trans hc
  · cases ha.symm.trans hc
  · cases ha.symm.trans hc
    exact ⟨by rw [Registry.step, hc], rfl⟩

/-- A tensor function gets the number of those before it, and is found from then on. -/
theorem found_of_added {name n : String} {as : List Addition} {f : PrimFunc}
    {k : Option FunctionId} {m : Module} (hp : a.prim? = some (n, f))
    (ha : a.carry (run name as).unit = (.ok k, m)) :
    k = some (run name as).prims.length ∧ ∀ more,
      let later := (run name (as ++ a :: more)).unit
      later.prim? (run name as).prims.length = some { f with name := some n } ∧
        later.primByName? n = some { f with name := some n } := by
  generalize hr : run name as = r at ha ⊢
  have h : r.Kept := hr ▸ kept_run name as
  obtain ⟨hl, hk⟩ := h.log_step ha
  refine ⟨by rw [hk, hp, Option.map_some], fun more => ?_⟩
  have hrun : run name (as ++ a :: more) = more.foldl step (r.step a) := by
    rw [← hr]
    exact List.foldl_append
  have hkept : (run name (as ++ a :: more)).Kept := kept_run _ _
  have hpre : r.prims ++ [(n, f)] <+: (run name (as ++ a :: more)).prims := by
    rw [hrun]
    have hs : (r.step a).prims = r.prims ++ [(n, f)] := by simp [prims, hl, hp]
    exact hs ▸ (log_foldl (r.step a) more).filterMap _
  have hat : (run name (as ++ a :: more)).prims[r.prims.length]? = some (n, f) := by
    obtain ⟨rest, hrest⟩ := hpre
    simp [← hrest]
  constructor
  · rw [hkept.prim?, hat]
    rfl
  · exact hkept.primByName?_eq_some.2 ⟨f, List.mem_of_getElem? hat, rfl⟩

/-- The names that the functions of both kinds carry in the module are those in the log. -/
theorem Kept.carried (h : r.Kept) :
    (r.unit.prims.values.map PrimFunc.name ++ r.unit.graphs.map fun g => some g.name).Perm
      (r.names.map some) := by
  have hv : r.unit.prims.values.map PrimFunc.name = (r.prims.map Prod.fst).map some := by
    rw [h.values, List.map_map, List.map_map]
    rfl
  have hg : (r.unit.graphs.map fun g => some g.name) = (r.graphs.map GraphFunc.name).map some := by
    rw [h.graphs, List.map_map]
    rfl
  rw [hv, hg, ← List.map_append]
  exact r.names_perm.symm.map some

/-- What comes out of any additions to a new module. A name that has been used is refused, for
either kind of function, and so is a function without a name; nothing else is, and what is
refused leaves the module as it was. No two functions have one name. A tensor function gets the
number of those before it; it is found under its number and its name, from then on and as it was
given but for the name, and nothing is found under any other number or name. -/
theorem additions_kept (name : String) (as : List Addition) :
    let r := run name as
    (∀ a : Addition, a.name? = none → (a.carry r.unit).1 = .error .unnamedFunction) ∧
    (∀ (a : Addition) n, a.name? = some n → n ∈ r.names →
      (a.carry r.unit).1 = .error (.duplicateFunction n)) ∧
    (∀ (a : Addition) n, a.name? = some n → n ∉ r.names → ∃ k, (a.carry r.unit).1 = .ok k) ∧
    (∀ (a : Addition) e, (a.carry r.unit).1 = .error e → (a.carry r.unit).2 = r.unit ∧ r.step a = r) ∧
    (r.unit.prims.values.map PrimFunc.name ++
      r.unit.graphs.map fun g => some g.name).Nodup ∧
    (∀ (a : Addition) n f k, a.prim? = some (n, f) → (a.carry r.unit).1 = .ok k →
      k = some r.prims.length ∧ ∀ more,
        let later := (run name (as ++ a :: more)).unit
        later.prim? r.prims.length = some { f with name := some n } ∧
          later.primByName? n = some { f with name := some n }) ∧
    (∀ k, r.prims.length ≤ k → r.unit.prim? k = none) ∧
    (∀ n, n ∉ r.prims.map Prod.fst → r.unit.primByName? n = none) := by
  intro r
  have h : r.Kept := kept_run name as
  refine ⟨?_, ?_, ?_, ?_, ?_, ?_, ?_, ?_⟩
  · exact fun a hn => congrArg Prod.fst (carry_of_unnamed hn)
  · exact fun a n hn ht => congrArg Prod.fst (carry_of_taken hn (h.names_taken.2 ht))
  · intro a n hn hf
    obtain ⟨hc, -⟩ | ⟨n', hn', ht, -⟩ | ⟨n', -, -, ha⟩ := h.carry_cases a
    · cases hn.symm.trans hc
    · cases hn.symm.trans hn'
      exact absurd ht hf
    · exact ⟨_, congrArg Prod.fst ha⟩
  · intro a e he
    obtain ⟨-, ha⟩ | ⟨n, -, -, ha⟩ | ⟨n, -, -, ha⟩ := h.carry_cases a
    · exact ⟨congrArg Prod.snd ha, by rw [step, ha]⟩
    · exact ⟨congrArg Prod.snd ha, by rw [step, ha]⟩
    · cases (congrArg Prod.fst ha).symm.trans he
  · rw [h.carried.nodup_iff]
    exact h.distinct.map fun _ _ => Option.some.inj
  · exact fun a n f k hp ha => found_of_added hp (Prod.ext ha rfl)
  · intro k hk
    rw [h.prim?, List.getElem?_eq_none hk, Option.map_none]
  · intro n hn
    rw [Option.eq_none_iff_forall_not_mem]
    intro g hg
    obtain ⟨f, hf, -⟩ := h.primByName?_eq_some.1 hg
    exact hn (List.mem_map.2 ⟨_, hf, rfl⟩)

/-- A graph function and a tensor function, and a refusal of each kind in between. -/
theorem additions_kept_refusing :
    let f : PrimFunc := ⟨none, [], .noOp, .void, ∅, ∅, ∅⟩
    let as : List Addition := [.named f, .graph ⟨"main", []⟩, .prim "main" f]
    let r := run "unit" as
    let later := (run "unit" (as ++ [.prim "a" f, .named f, .prim "b" f])).unit
    r.log.length = 1 ∧ ((Addition.named f).carry r.unit).1 = .error .unnamedFunction ∧
      ((Addition.prim "main" f).carry r.unit).1 = .error (.duplicateFunction "main") ∧
      ((Addition.prim "main" f).carry r.unit).2 = r.unit ∧
      later.prim? 0 = some { f with name := some "a" } ∧
      later.primByName? "a" = some { f with name := some "a" } ∧
      r.unit.prim? 0 = none ∧ r.unit.primByName? "main" = none := by
  intro f as r later
  obtain ⟨hu, ht, hf, hs, -, hk, hi, hn⟩ := additions_kept "unit" as
  have taken := ht (.prim "main" f) "main" rfl (by decide)
  obtain ⟨k, ha⟩ := hf (.prim "a" f) "a" rfl (by decide)
  obtain ⟨-, hl⟩ := hk (.prim "a" f) "a" f k rfl ha
  obtain ⟨hnum, hname⟩ := hl [.named f, .prim "b" f]
  exact ⟨rfl, hu _ rfl, taken, (hs _ _ taken).1, hnum, hname, hi 0 (by decide), hn _ (by decide)⟩

end Registry

end TensorProgram.Module
