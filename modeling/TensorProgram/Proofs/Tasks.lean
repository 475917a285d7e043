import Mathlib.Algebra.GroupWithZero.Nat
import Mathlib.Data.List.Induction
import TensorProgram.Task

/-!
Tasks and structural classes. The functions that a module calls fall into classes of
structurally equal ones. Counting the calls one by one, as it is done, comes to one task for
each class, which stands for its first callee; what is not called has no part in it.
-/

namespace TensorProgram

theorem PrimFunc.structuralEq_iff {f g : PrimFunc} :
    f.structuralEq g = true ↔ f.fingerprint = g.fingerprint := by
  rw [structuralEq, decide_eq_true_iff]

namespace Task

/-- The calls that are the first of their structural class. -/
def leaders : List (String × PrimFunc) → List (String × PrimFunc)
  | [] => []
  | c :: cs => c :: (leaders cs).filter fun d => !c.2.structuralEq d.2

/-- The task that stands for the class of `c` among the calls. -/
def ofClass (target : String) (cs : List (String × PrimFunc)) (c : String × PrimFunc) : Task :=
  ⟨c.1, c.2, target, cs.countP fun d => c.2.structuralEq d.2⟩

/-- One task for each structural class of the functions called. -/
def ofCalls (target : String) (cs : List (String × PrimFunc)) : List Task :=
  (leaders cs).map (ofClass target cs)

section

variable {c d : String × PrimFunc} {cs : List (String × PrimFunc)}

theorem leaders_sublist (cs : List (String × PrimFunc)) : (leaders cs).Sublist cs := by
  induction cs with
  | nil => exact .slnil
  | cons c cs ih => exact (List.filter_sublist.trans ih).cons_cons c

theorem leaders_pairwise (cs : List (String × PrimFunc)) :
    (leaders cs).Pairwise fun c d => c.2.structuralEq d.2 = false := by
  induction cs with
  | nil => exact .nil
  | cons c cs ih =>
      refine .cons ?_ (ih.sublist List.filter_sublist)
      intro d hd
      simpa using (List.mem_filter.1 hd).2

/-- Every class has a first call. -/
theorem exists_leader (h : c ∈ cs) : ∃ d ∈ leaders cs, d.2.structuralEq c.2 = true := by
  induction cs with
  | nil => cases h
  | cons b cs ih =>
      by_cases hb : b.2.structuralEq c.2 = true
      · exact ⟨b, List.mem_cons_self, hb⟩
      · obtain rfl | h := List.mem_cons.1 h
        · exact absurd (PrimFunc.structuralEq_iff.2 rfl) hb
        · obtain ⟨d, hd, he⟩ := ih h
          refine ⟨d, List.mem_cons_of_mem b (List.mem_filter.2 ⟨hd, ?_⟩), he⟩
          -- The leader of `c` is not in the class of `b`, as `c` is not.
          rw [PrimFunc.structuralEq_iff] at hb he
          rw [Bool.not_eq_true', ← Bool.not_eq_true, PrimFunc.structuralEq_iff]
          exact fun hd => hb (hd.trans he)

theorem find?_leader (h : d ∈ leaders cs) :
    cs.find? (fun c => d.2.structuralEq c.2) = some d := by
  induction cs with
  | nil => cases h
  | cons b cs ih =>
      obtain rfl | h := List.mem_cons.1 h
      · exact List.find?_cons_of_pos (PrimFunc.structuralEq_iff.2 rfl)
      · obtain ⟨h, hn⟩ := List.mem_filter.1 h
        rw [Bool.not_eq_true', ← Bool.not_eq_true, PrimFunc.structuralEq_iff] at hn
        rw [List.find?_cons_of_neg]
        · exact ih h
        · rw [PrimFunc.structuralEq_iff]
          exact fun he => hn he.symm

/-- Leaders come in the order of the first calls of their classes. -/
theorem leaders_ordered (cs : List (String × PrimFunc)) :
    (leaders cs).Pairwise fun c d =>
      cs.findIdx (fun b => c.2.structuralEq b.2) < cs.findIdx (fun b => d.2.structuralEq b.2) := by
  induction cs with
  | nil => exact .nil
  | cons b cs ih =>
      have hnext {d : String × PrimFunc} (hd : d ∈ (leaders cs).filter fun d =>
          !b.2.structuralEq d.2) : (b :: cs).findIdx (fun a => d.2.structuralEq a.2) =
            cs.findIdx (fun a => d.2.structuralEq a.2) + 1 := by
        have hn := (List.mem_filter.1 hd).2
        rw [Bool.not_eq_true', ← Bool.not_eq_true, PrimFunc.structuralEq_iff] at hn
        have hb : d.2.structuralEq b.2 = false := by
          rw [← Bool.not_eq_true, PrimFunc.structuralEq_iff]
          exact Ne.symm hn
        rw [List.findIdx_cons, hb]
        rfl
      refine .cons ?_ ?_
      · intro d hd
        have hself : b.2.structuralEq b.2 = true := PrimFunc.structuralEq_iff.2 rfl
        rw [hnext hd, List.findIdx_cons, hself]
        exact Nat.succ_pos _
      · refine (ih.sublist List.filter_sublist).imp_of_mem fun hc hd h => ?_
        rw [hnext hc, hnext hd]
        exact Nat.succ_lt_succ h

/-- One more call adds a class or falls into one that is there. -/
theorem leaders_snoc (cs : List (String × PrimFunc)) (c : String × PrimFunc) :
    leaders (cs ++ [c]) =
      if cs.any fun d => d.2.structuralEq c.2 then leaders cs else leaders cs ++ [c] := by
  induction cs with
  | nil => rfl
  | cons b cs ih =>
      rw [List.cons_append, leaders, ih, List.any_cons]
      by_cases hb : b.2.structuralEq c.2 = true
      · by_cases hc : (cs.any fun d => d.2.structuralEq c.2) = true
        · simp [hb, hc, leaders]
        · simp [hb, hc, leaders]
      · by_cases hc : (cs.any fun d => d.2.structuralEq c.2) = true
        · simp [hb, hc, leaders]
        · simp [hb, hc, leaders]

end

section

variable {key : Fingerprint} {new : Task} {l : List (Fingerprint × Task)}

theorem tally_of_notMem (h : key ∉ l.map Prod.fst) : tally key new l = l ++ [(key, new)] := by
  induction l with
  | nil => rfl
  | cons e l ih =>
      rw [List.map_cons, List.mem_cons, not_or] at h
      rw [tally, if_neg (Ne.symm h.1), ih h.2, List.cons_append]

/-- Keys are distinct, so that to count the first entry with a key is to count every one. -/
theorem tally_of_mem (hl : (l.map Prod.fst).Nodup) (h : key ∈ l.map Prod.fst) :
    tally key new l =
      l.map fun e => (e.1, { e.2 with weight := e.2.weight + if e.1 = key then 1 else 0 }) := by
  induction l with
  | nil => cases h
  | cons e l ih =>
      rw [List.map_cons, List.nodup_cons] at hl
      by_cases he : e.1 = key
      · have hrest : ∀ x ∈ l,
            (x.1, { x.2 with weight := x.2.weight + if x.1 = key then 1 else 0 }) = x := by
          intro x hx
          have hk : x.1 ≠ key := fun hk => hl.1 (he.trans hk.symm ▸ List.mem_map_of_mem hx)
          simp [hk]
        rw [tally, if_pos he, List.map_cons, List.map_congr_left hrest, List.map_id', if_pos he]
      · have h : key ∈ l.map Prod.fst := by
          rw [List.map_cons, List.mem_cons] at h
          exact h.resolve_left (Ne.symm he)
        rw [tally, if_neg he, ih hl.2 h, List.map_cons, if_neg he]
        rfl

/-- Every call counts once. -/
theorem sum_weight_tally (hn : new.weight = 1) :
    ((tally key new l).map fun e => e.2.weight).sum = (l.map fun e => e.2.weight).sum + 1 := by
  induction l with
  | nil => simp [tally, hn]
  | cons e l ih =>
      by_cases he : e.1 = key
      · simp [tally, he]
        omega
      · simp [tally, he, ih]
        omega

end

/-- The tasks of some calls under the fingerprints of their classes. -/
def entries (target : String) (cs : List (String × PrimFunc)) : List (Fingerprint × Task) :=
  (leaders cs).map fun c => (c.2.fingerprint, ofClass target cs c)

variable (target : String) (cs : List (String × PrimFunc)) (c : String × PrimFunc)

theorem fst_entries :
    (entries target cs).map Prod.fst = (leaders cs).map fun c => c.2.fingerprint := by
  simp [entries, Function.comp_def]

theorem nodup_entries : ((entries target cs).map Prod.fst).Nodup := by
  rw [fst_entries, List.nodup_iff_pairwise_ne, List.pairwise_map]
  refine (leaders_pairwise cs).imp fun h he => ?_
  rw [PrimFunc.structuralEq_iff.2 he] at h
  cases h

theorem mem_entries_iff :
    c.2.fingerprint ∈ (entries target cs).map Prod.fst ↔
      cs.any (fun d => d.2.structuralEq c.2) = true := by
  rw [fst_entries, List.mem_map, List.any_eq_true]
  constructor
  · intro h
    obtain ⟨d, hd, he⟩ := h
    exact ⟨d, (leaders_sublist cs).subset hd, PrimFunc.structuralEq_iff.2 he⟩
  · intro h
    obtain ⟨d, hd, he⟩ := h
    obtain ⟨b, hb, hbd⟩ := exists_leader hd
    rw [PrimFunc.structuralEq_iff] at he hbd
    exact ⟨b, hb, hbd.trans he⟩

/-- The class of `d` has one member more if the call of `c` falls into it. -/
theorem ofClass_snoc (d : String × PrimFunc) :
    ofClass target (cs ++ [c]) d = { ofClass target cs d with
      weight := (ofClass target cs d).weight +
        if d.2.fingerprint = c.2.fingerprint then 1 else 0 } := by
  simp [ofClass, List.countP_append, PrimFunc.structuralEq_iff, List.countP_cons]

/-- Counting one more call gives the tasks of the calls with that one. -/
theorem tally_entries :
    tally c.2.fingerprint ⟨c.1, c.2, target, 1⟩ (entries target cs) = entries target (cs ++ [c]) := by
  have hm := mem_entries_iff target cs c
  by_cases ha : cs.any (fun d => d.2.structuralEq c.2) = true
  · rw [tally_of_mem (nodup_entries target cs) (hm.2 ha), entries, entries, leaders_snoc,
      if_pos ha, List.map_map]
    exact List.map_congr_left fun d _ => by rw [ofClass_snoc]; rfl
  · have hnone : ∀ d ∈ cs, d.2.fingerprint ≠ c.2.fingerprint := by
      intro d hd he
      exact ha (List.any_eq_true.2 ⟨d, hd, PrimFunc.structuralEq_iff.2 he⟩)
    have hself : ofClass target (cs ++ [c]) c = ⟨c.1, c.2, target, 1⟩ := by
      have hz : (cs.countP fun d => c.2.structuralEq d.2) = 0 := by
        rw [List.countP_eq_zero]
        intro d hd
        rw [PrimFunc.structuralEq_iff]
        exact (hnone d hd).symm
      rw [ofClass_snoc, ofClass, hz]
      simp
    rw [tally_of_notMem (fun h => ha (hm.1 h)), entries, entries, leaders_snoc, if_neg ha,
      List.map_append, List.map_singleton, hself]
    congr 1
    refine List.map_congr_left fun d hd => ?_
    have hd := hnone d ((leaders_sublist cs).subset hd)
    rw [ofClass_snoc, if_neg hd]
    rfl

theorem sum_weight_entries :
    ((entries target cs).map fun e => e.2.weight).sum = cs.length := by
  induction cs using List.reverseRecOn with
  | nil => rfl
  | append_singleton cs c ih =>
      rw [← tally_entries, sum_weight_tally rfl, ih, List.length_append, List.length_singleton]

end Task

namespace Module

/-- The calls of functions that are registered, each as its name and its function. -/
def resolve (m : Module) (calls : List (String × String)) : List (String × PrimFunc) :=
  calls.filterMap fun c => (m.primByName? c.2).map fun f => (c.2, f)

/-- What the graph functions call. -/
def called (m : Module) : List (String × PrimFunc) := m.resolve m.kernelCalls

/-- The first call of a function that is not registered, as its caller and its callee. -/
def unresolved? (m : Module) (calls : List (String × String)) : Option (String × String) :=
  calls.find? fun c => (m.primByName? c.2).isNone

variable {m : Module}

/-- The loop over the calls, from the middle. -/
theorem tallyCalls_entries (target : String) (cs : List (String × PrimFunc))
    (calls : List (String × String)) :
    m.tallyCalls target (Task.entries target cs) calls = match m.unresolved? calls with
      | some c => .error (.unknownFunction c.1 c.2)
      | none => .ok (Task.entries target (cs ++ m.resolve calls)) := by
  induction calls generalizing cs with
  | nil =>
      rw [resolve, List.filterMap_nil, List.append_nil]
      rfl
  | cons c calls ih =>
      cases hf : m.primByName? c.2 with
      | none =>
          rw [tallyCalls, hf, unresolved?, List.find?_cons_of_pos (by simp [hf])]
          rfl
      | some f =>
          have ht := Task.tally_entries target cs (c.2, f)
          have hu : m.unresolved? (c :: calls) = m.unresolved? calls := by simp [unresolved?, hf]
          have hr : cs ++ m.resolve (c :: calls) = cs ++ [(c.2, f)] ++ m.resolve calls := by
            simp [resolve, hf]
          rw [tallyCalls, hf, hu, hr, ← ih, ← ht]

theorem tasks_eq (m : Module) (target : String) :
    m.tasks target = match m.unresolved? m.kernelCalls with
      | some c => .error (.unknownFunction c.1 c.2)
      | none => .ok (Task.ofCalls target m.called) := by
  have h := tallyCalls_entries (m := m) target [] m.kernelCalls
  have hs : Task.entries target [] = [] := rfl
  rw [hs, List.nil_append] at h
  rw [tasks, h]
  cases m.unresolved? m.kernelCalls with
  | some c => rfl
  | none =>
      have ho : (Task.entries target m.called).map Prod.snd = Task.ofCalls target m.called := by
        simp [Task.entries, Task.ofCalls, Function.comp_def]
      exact congrArg Except.ok ho

theorem resolve_congr {m' : Module} {calls : List (String × String)}
    (h : ∀ c ∈ calls, m'.primByName? c.2 = m.primByName? c.2) :
    m'.resolve calls = m.resolve calls ∧ m'.unresolved? calls = m.unresolved? calls := by
  induction calls with
  | nil => exact ⟨rfl, rfl⟩
  | cons c calls ih =>
      obtain ⟨hr, hu⟩ := ih fun d hd => h d (List.mem_cons_of_mem c hd)
      have hc := h c List.mem_cons_self
      simp only [resolve, unresolved?, List.filterMap_cons, List.find?_cons, hc] at hr hu ⊢
      rw [hr, hu]
      exact ⟨rfl, rfl⟩

/-- When every callee is registered, what is called is what the calls name. -/
theorem called_names (h : ∀ c ∈ m.kernelCalls, (m.primByName? c.2).isSome) :
    m.called.map Prod.fst = m.kernelCalls.map Prod.snd := by
  rw [called, resolve]
  generalize m.kernelCalls = calls at h
  induction calls with
  | nil => rfl
  | cons c calls ih =>
      obtain ⟨f, hf⟩ := Option.isSome_iff_exists.1 (h c List.mem_cons_self)
      have ih := ih fun d hd => h d (List.mem_cons_of_mem c hd)
      simp [hf, ih]

/-- The tasks of a module are the structural classes of what its graph functions call. A class
has one task, which has the name and the function of the first callee in the class and weighs as
much as there are calls in it, and the tasks come in the order of these first calls. If a callee
is not registered, the first such call is the error. -/
theorem tasks_are_classes (m : Module) (target : String) :
    (∀ caller callee,
      m.kernelCalls.find? (fun c => (m.primByName? c.2).isNone) = some (caller, callee) →
        m.tasks target = .error (.unknownFunction caller callee)) ∧
    ((∀ c ∈ m.kernelCalls, (m.primByName? c.2).isSome) →
      m.called.map Prod.fst = m.kernelCalls.map Prod.snd ∧
      ∃ ts, m.tasks target = .ok ts ∧
        (∀ t ∈ ts, t.target = target ∧
          m.called.find? (fun c => t.func.structuralEq c.2) = some (t.name, t.func) ∧
          t.weight = m.called.countP fun c => t.func.structuralEq c.2) ∧
        (∀ c ∈ m.called, ∃ t ∈ ts, t.func.structuralEq c.2) ∧
        (ts.Pairwise fun s t => s.func.structuralEq t.func = false ∧
          m.called.findIdx (fun c => s.func.structuralEq c.2) <
            m.called.findIdx (fun c => t.func.structuralEq c.2)) ∧
        (ts.map Task.weight).sum = m.kernelCalls.length) ∧
    (∀ m' : Module, m'.kernelCalls = m.kernelCalls →
      (∀ c ∈ m.kernelCalls, m'.primByName? c.2 = m.primByName? c.2) →
        m'.tasks target = m.tasks target) := by
  refine ⟨?_, ?_, ?_⟩
  · intro caller callee h
    rw [tasks_eq, unresolved?, h]
  · intro h
    have hn : m.unresolved? m.kernelCalls = none := by
      rw [unresolved?, List.find?_eq_none]
      intro c hc
      obtain ⟨f, hf⟩ := Option.isSome_iff_exists.1 (h c hc)
      simp [hf]
    refine ⟨called_names h, Task.ofCalls target m.called, by rw [tasks_eq, hn], ?_, ?_, ?_, ?_⟩
    · intro t ht
      obtain ⟨d, hd, rfl⟩ := List.mem_map.1 ht
      exact ⟨rfl, Task.find?_leader hd, rfl⟩
    · intro c hc
      obtain ⟨d, hd, he⟩ := Task.exists_leader hc
      exact ⟨_, List.mem_map_of_mem hd, he⟩
    · rw [Task.ofCalls, List.pairwise_map]
      exact (Task.leaders_pairwise m.called).and (Task.leaders_ordered m.called)
    · have hw := Task.sum_weight_entries target m.called
      have hl : m.called.length = m.kernelCalls.length := by
        rw [← List.length_map (f := Prod.fst), called_names h, List.length_map]
      rw [← hl, ← hw, Task.entries, Task.ofCalls, List.map_map, List.map_map]
      rfl
  · intro m' hk hp
    obtain ⟨hr, hu⟩ := resolve_congr hp
    rw [tasks_eq, tasks_eq, called, called, hk, hr, hu]

/-- A function that evaluates a constant. -/
def evaluating (n : Int64) : PrimFunc := ⟨none, [], .evaluate (.int32 n), .void, ∅, ∅, ∅⟩

/-- A module with two copies of one function and one other, all of them called, with `others` among
the calls. -/
def twins (others : List GraphCall) : Except ModuleError Module := do
  let (_, m) ← (empty "twins").addPrim "one" (evaluating 1)
  let (_, m) ← m.addPrim "two" (evaluating 2)
  let (_, m) ← m.addPrim "copy" (evaluating 1)
  let m ← m.addGraph ⟨"main", [.kernel "copy", .external "log", .kernel "two", .kernel "one"]⟩
  m.addGraph ⟨"rest", others ++ [.kernel "copy"]⟩

theorem tasks_are_classes_twins :
    ∃ m m' m'' : Module, twins [] = .ok m ∧ twins [.operator "add"] = .ok m' ∧
      twins [.kernel "add"] = .ok m'' ∧
      m.tasks "cpu" = .ok [⟨"copy", (evaluating 1).withName "copy", "cpu", 3⟩,
        ⟨"two", (evaluating 2).withName "two", "cpu", 1⟩] ∧
      (∃ ts, m.tasks "cpu" = .ok ts ∧ (ts.map Task.weight).sum = 4) ∧
      m'.tasks "cpu" = m.tasks "cpu" ∧
      m''.tasks "cpu" = .error (.unknownFunction "rest" "add") := by
  obtain ⟨m, h⟩ : ∃ m, twins [] = .ok m := ⟨_, rfl⟩
  have classes := (tasks_are_classes m "cpu").2.1
  cases h
  refine ⟨_, _, _, rfl, rfl, rfl, rfl, ?_, ?_, ?_⟩
  · obtain ⟨-, ts, ht, -, -, -, hw⟩ := classes (by decide)
    exact ⟨ts, ht, hw⟩
  · exact (tasks_are_classes _ "cpu").2.2 _ rfl (by intro c _; rfl)
  · exact (tasks_are_classes _ "cpu").1 _ _ rfl

end Module

end TensorProgram
