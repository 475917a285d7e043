import Mathlib.Data.Set.Function
import TensorProgram.Proofs.AlikeRuns
import TensorProgram.Proofs.AlphaEquivalence
import TensorProgram.Proofs.Tasks

/-!
New identities. Which identities a supply hands out has no part in what a script comes to, as long
as they are new: two runs go the same way, and one renaming leads from all that the first makes to
all that the second makes. The runs are compared in a code for identities in which those of both
read alike: a given one by itself, a new one by its place in the supply.
-/

namespace TensorProgram

open Masked

namespace Supply

variable (s s' : Supply) (given : List VarId)

/-- What is still to be handed out. -/
def future (n : Nat) : VarId := s.stream (s.used + n)

/-- What is still to be handed out is new. -/
structure Fresh : Prop where
  injective : Function.Injective s.future
  avoids : ∀ n, s.future n ∉ given

/-- The identities that there are or can come to be. -/
def reach : Set VarId := {i | i ∈ given} ∪ Set.range s.future

/-- Triples the identities in `given`, and takes the `n`th new one to `3 * n + 1`. -/
noncomputable def code (i : Nat) : Nat :=
  open Classical in
  if i ∈ given then 3 * i
  else if i ∈ Set.range s.future then 3 * Function.invFun s.future i + 1
  else 3 * i + 2

/-- From what one supply hands out to what another one does. -/
noncomputable def transport : VarId → VarId := Function.invFun (s'.code given) ∘ s.code given

variable {s s' given}

theorem code_given {i : Nat} (h : i ∈ given) : s.code given i = 3 * i := if_pos h

theorem code_future (h : s.Fresh given) (n : Nat) : s.code given (s.future n) = 3 * n + 1 := by
  rw [code, if_neg (h.avoids n), if_pos (Set.mem_range_self n),
    Function.leftInverse_invFun h.injective n]

theorem code_other {i : Nat} (h : i ∉ s.reach given) : s.code given i = 3 * i + 2 := by
  have hg : i ∉ given := fun hi => h (Or.inl hi)
  have hf : i ∉ Set.range s.future := fun hi => h (Or.inr hi)
  rw [code, if_neg hg, if_neg hf]

theorem code_injective (h : s.Fresh given) : Function.Injective (s.code given) := by
  have cases (i : Nat) : (s.code given i = 3 * i ∨ s.code given i = 3 * i + 2) ∨
      ∃ n, s.future n = i ∧ s.code given i = 3 * n + 1 := by
    by_cases hi : i ∈ s.reach given
    · obtain hi | ⟨n, hn⟩ := hi
      · exact Or.inl (Or.inl (code_given hi))
      · exact Or.inr ⟨n, hn, hn ▸ code_future h n⟩
    · exact Or.inl (Or.inr (code_other hi))
  intro i j hij
  obtain hi | ⟨n, hn, hi⟩ := cases i
  · obtain hj | ⟨m, -, hj⟩ := cases j <;> omega
  · obtain hj | ⟨m, hm, hj⟩ := cases j
    · omega
    · have he : n = m := by omega
      rw [← hn, he, hm]

theorem transport_of_code (h' : s'.Fresh given) {i j : VarId}
    (hij : s.code given i = s'.code given j) : s.transport s' given i = j := by
  rw [transport, Function.comp_apply, hij, Function.leftInverse_invFun (code_injective h') j]

theorem transport_given (h' : s'.Fresh given) {i : VarId} (hi : i ∈ given) :
    s.transport s' given i = i :=
  transport_of_code h' ((code_given hi).trans (code_given hi).symm)

theorem transport_future (h : s.Fresh given) (h' : s'.Fresh given) (n : Nat) :
    s.transport s' given (s.future n) = s'.future n :=
  transport_of_code h' ((code_future h n).trans (code_future h' n).symm)

theorem bijOn_transport (h : s.Fresh given) (h' : s'.Fresh given) :
    Set.BijOn (s.transport s' given) (s.reach given) (s'.reach given) := by
  refine ⟨?_, ?_, ?_⟩
  · rintro i (hi | ⟨n, rfl⟩)
    · exact Or.inl (by rwa [transport_given h' hi])
    · exact Or.inr ⟨n, (transport_future h h' n).symm⟩
  · -- On what is reached no code gets lost.
    have hcode : ∀ i ∈ s.reach given, s'.code given (s.transport s' given i) = s.code given i := by
      rintro i (hi | ⟨n, rfl⟩)
      · rw [transport_given h' hi, code_given hi, code_given hi]
      · rw [transport_future h h' n, code_future h n, code_future h' n]
    intro i hi j hj hij
    apply code_injective h
    rw [← hcode i hi, ← hcode j hj, hij]
  · rintro j (hj | ⟨n, rfl⟩)
    · exact ⟨j, Or.inl hj, transport_given h' hj⟩
    · exact ⟨s.future n, Or.inr ⟨n, rfl⟩, transport_future h h' n⟩

end Supply

/-! What has one mask under two maps. -/

section

variable {α : Type} [Masked α]

/-- No identities outside `D` are in `a`. -/
def Masked.Supports (D : Set VarId) (a : α) : Prop :=
  ∀ τ : VarId → VarId, Set.EqOn τ id D → mask τ a = mask id a

/-- Takes the identities in `D` where doubling takes them, and the others somewhere else. -/
noncomputable def apart (D : Set VarId) (i : Nat) : Nat :=
  open Classical in if i ∈ D then 2 * i else 2 * i + 1

theorem double_injective : Function.Injective fun i : Nat => 2 * i := by
  intro i j h
  exact Nat.eq_of_mul_eq_mul_left Nat.two_pos h

theorem apart_injective (D : Set VarId) : Function.Injective (apart D) := by
  intro i j h
  simp only [apart] at h
  split at h <;> split at h <;> omega

/-- What is outside `D` would show. -/
theorem Masked.supports_of_alike [LawfulMasked α] {D : Set VarId} {a : α}
    (h : mask (fun i : Nat => 2 * i) a = mask (apart D) a) : Supports D a := by
  intro τ hτ
  let back (j : Nat) : Nat := if j % 2 = 0 then τ (j / 2) else j / 2
  have hd : back ∘ (fun i : Nat => 2 * i) = τ := by
    funext i
    simp [back]
  have hp : back ∘ apart D = id := by
    funext (i : Nat)
    by_cases hi : i ∈ D
    · simp [back, apart, hi, hτ hi]
    · have hm : (2 * i + 1) % 2 = 1 := by omega
      have hq : (2 * i + 1) / 2 = i := by omega
      simp [back, apart, hi, hm, hq]
  have hb := congrArg (mask back) h
  rwa [mask_mask double_injective, mask_mask (apart_injective D), hd, hp] at hb

end

/-! Functions that are alike. -/

section

variable {ρ ρ' : VarId → VarId}

namespace PrimFunc

variable {f f' : PrimFunc}

theorem renumber_outline_tokens (hρ : Function.Injective ρ) (f : PrimFunc) :
    renumber [] (f.outline ρ).tokens = renumber [] f.tokens := by
  have hi : Set.InjOn ρ {i | i ∈ [] ∨ i ∈ Token.varsOf f.tokens} := hρ.injOn
  rw [tokens_outline]
  exact renumber_map hi

theorem fingerprint_alike (hρ : Function.Injective ρ) (hρ' : Function.Injective ρ')
    (h : mask ρ f = mask ρ' f') : f.fingerprint = f'.fingerprint := by
  have ho : f.outline ρ = f'.outline ρ' := by
    have h := congrArg (PrimFunc.outline id) h
    rwa [outline_mask hρ, outline_mask hρ'] at h
  rw [fingerprint, fingerprint, ← renumber_outline_tokens hρ, ho, renumber_outline_tokens hρ']

end PrimFunc

end

namespace Module

/-- A function that is called is in one task. -/
theorem filter_tasks {m : Module} {target : String} {ts : List Task} (h : m.tasks target = .ok ts)
    {c : String × PrimFunc} (hc : c ∈ m.called) :
    ∃ t, ts.filter (fun t => t.func.structuralEq c.2) = [t] := by
  have hts : ts = Task.ofCalls target m.called := by
    rw [tasks_eq] at h
    cases hu : m.unresolved? m.kernelCalls with
    | some _ =>
        rw [hu] at h
        cases h
    | none =>
        rw [hu] at h
        exact (Except.ok.inj h).symm
  have hp : ts.Pairwise fun t u => t.func.structuralEq u.func = false := by
    rw [hts, Task.ofCalls, List.pairwise_map]
    exact Task.leaders_pairwise m.called
  obtain ⟨d, hd, he⟩ := Task.exists_leader hc
  have hmem : Task.ofClass target m.called d ∈ ts := hts ▸ List.mem_map_of_mem hd
  have hp := hp.filter fun t => t.func.structuralEq c.2
  have hf {t : Task} (ht : t ∈ ts.filter fun t => t.func.structuralEq c.2) :
      t.func.fingerprint = c.2.fingerprint :=
    PrimFunc.structuralEq_iff.1 (List.mem_filter.1 ht).2
  cases hl : ts.filter fun t => t.func.structuralEq c.2 with
  | nil =>
      have hn : Task.ofClass target m.called d ∈ ts.filter fun t => t.func.structuralEq c.2 :=
        List.mem_filter.2 ⟨hmem, he⟩
      rw [hl] at hn
      cases hn
  | cons t us =>
      cases us with
      | nil => exact ⟨t, rfl⟩
      | cons u us =>
          rw [hl] at hp hf
          have hne := (List.pairwise_cons.1 hp).1 u List.mem_cons_self
          have ht := hf List.mem_cons_self
          have hu := hf (List.mem_cons_of_mem t List.mem_cons_self)
          rw [← Bool.not_eq_true, PrimFunc.structuralEq_iff] at hne
          exact absurd (ht.trans hu.symm) hne

end Module

/-- Wherever both are called, there is one task for the two. -/
def PrimFunc.SameTask (f f' : PrimFunc) : Prop :=
  ∀ (m : Module) (target : String) (ts : List Task) (name name' : String),
    (name, f.withName name) ∈ m.called → (name', f'.withName name') ∈ m.called →
      m.tasks target = .ok ts →
        ∃ t, ts.filter (fun t => t.func.structuralEq (f.withName name)) = [t] ∧
          ts.filter (fun t => t.func.structuralEq (f'.withName name')) = [t]

theorem PrimFunc.sameTask_of_fingerprint {f f' : PrimFunc} (h : f.fingerprint = f'.fingerprint) :
    f.SameTask f' := by
  intro m target ts name name' hf hf' hts
  obtain ⟨t, ht⟩ := Module.filter_tasks hts hf
  have he (t : Task) : t.func.structuralEq (f.withName name) =
      t.func.structuralEq (f'.withName name') := by
    have h : (f.withName name).fingerprint = (f'.withName name').fingerprint := h
    rw [structuralEq, structuralEq, h]
  refine ⟨t, ht, ?_⟩
  rw [← ht]
  exact (List.filter_congr fun t _ => he t).symm

/-! Two runs. -/

namespace Script

instance Ty.lawfulMasked : (t : Ty) → LawfulMasked t.Val
  | .var => inferInstanceAs (LawfulMasked Var)
  | .expr => inferInstanceAs (LawfulMasked Expr)
  | .range => inferInstanceAs (LawfulMasked Range)
  | .iterVar => inferInstanceAs (LawfulMasked IterVar)
  | .buffer => inferInstanceAs (LawfulMasked Buffer)
  | .region => inferInstanceAs (LawfulMasked Region)
  | .attrValue => inferInstanceAs (LawfulMasked AttrValue)
  | .annotations => inferInstanceAs (LawfulMasked Annotations)
  | .node => inferInstanceAs (LawfulMasked AttrNode)
  | .options => inferInstanceAs (LawfulMasked BufferOptions)
  | .target => inferInstanceAs (LawfulMasked MatchTarget)
  | .type => inferInstanceAs (LawfulMasked ValueType)
  | .bufferMap => inferInstanceAs (LawfulMasked (OrderedMap Var Buffer))
  | .matched => inferInstanceAs (LawfulMasked MatchRegion)
  | .stmt => inferInstanceAs (LawfulMasked Stmt)
  | .func => inferInstanceAs (LawfulMasked PrimFunc)
  | .list t => have := t.lawfulMasked; inferInstanceAs (LawfulMasked (List t.Val))
  | .option t => have := t.lawfulMasked; inferInstanceAs (LawfulMasked (Option t.Val))

instance : LawfulMasked Answer where
  mask_mask hρ τ a := by
    cases a with
    | skipped | done | entered id => rfl
    | failed f => exact congrArg Answer.failed (mask_mask hρ τ f)
    | opened g v => exact congrArg (Answer.opened g) (mask_mask hρ τ v)
    | returned v => exact congrArg Answer.returned (mask_mask hρ τ v)
    | made t a => exact congrArg (Answer.made t) (mask_mask hρ τ a)
    | output out => exact congrArg Answer.output (mask_mask hρ τ out)

/-- Whether a call is made, and then whether it fails and with which variant of error. -/
def Answer.verdict : Answer → Option (Except String Unit)
  | .skipped => none
  | .failed (.refused e) => some (.error e.name)
  | .failed (.overflow o) => some (.error o.message)
  | _ => some (.ok ())

theorem Answer.verdict_mask (ρ : VarId → VarId) (a : Answer) : (mask ρ a).verdict = a.verdict := by
  cases a with
  | failed f =>
      cases f with
      | refused e => cases e <;> rfl
      | overflow o => rfl
  | _ => rfl

/-- The function that the `k`th call comes to. -/
def Run.func? (x : Run) (k : Nat) : Option PrimFunc := x.answers[k]?.bind (·.get? .func)

/-- The two runs went the same way, and `σ` leads from what the first made, the identities of
which are in `D`, to what the second made, the identities of which are in `D'`. -/
structure Run.Corresponds (σ : VarId → VarId) (D D' : Set VarId) (x x' : Run) : Prop where
  verdicts : x.answers.map Answer.verdict = x'.answers.map Answer.verdict
  openKinds : ∀ i, (x.world.builder i).openKinds = (x'.world.builder i).openKinds
  live : x.world.live = x'.world.live
  answers : mask σ x.answers = mask id x'.answers
  left : Supports D x.answers
  right : Supports D' x'.answers
  funcs : ∀ k, Option.Rel (fun f f' => f.structuralEq f' = true ∧ f.SameTask f')
    (x.func? k) (x'.func? k)

section

variable {ρ ρ' : VarId → VarId} {s s' : Supply} {given : List VarId} {script : List Step}

theorem start_alike (h : ∀ n, ρ (s.future n) = ρ' (s'.future n)) :
    mask ρ (World.start s) = mask ρ' (World.start s') := by
  have hs : mask ρ s = mask ρ' s' := congrArg (Supply.mk · 0) (funext h)
  exact congrArg (World.mk · 0 (fun _ => { config := {} }) fun _ => none) hs

theorem supports_run (script : List Step) (s : Supply) (hg : ∀ g ∈ ids script, g ∈ given) :
    Supports (s.reach given) (run script (.start s)).answers := by
  have ha {i : VarId} (hi : i ∈ s.reach given) : (fun i : Nat => 2 * i) i =
      apart (s.reach given) i := (if_pos hi).symm
  have hw : mask (fun i : Nat => 2 * i) (World.start s) =
      mask (apart (s.reach given)) (World.start s) := by
    apply start_alike
    intro n
    exact ha (Or.inr (Set.mem_range_self n))
  have h := run_alike double_injective (apart_injective _) hw script fun g hi =>
    ha (Or.inl (hg g hi))
  exact supports_of_alike (congrArg Run.answers h)

theorem func?_alike {x x' : Run} (h : mask ρ x = mask ρ' x') (k : Nat) :
    mask ρ (x.func? k) = mask ρ' (x'.func? k) := by
  apply bind_alike (getElem?_alike (congrArg Run.answers h) k)
  intro a a' ha
  rw [← Answer.get?_mask, ha, Answer.get?_mask]

theorem run_corresponds (h : s.Fresh given) (h' : s'.Fresh given)
    (hg : ∀ g ∈ ids script, g ∈ given) :
    (run script (.start s)).Corresponds (s.transport s' given) (s.reach given) (s'.reach given)
      (run script (.start s')) := by
  have hc := Supply.code_injective h
  have hc' := Supply.code_injective h'
  have hw : mask (s.code given) (World.start s) = mask (s'.code given) (World.start s') := by
    apply start_alike
    intro n
    rw [Supply.code_future h, Supply.code_future h']
  have hr := run_alike hc hc' hw script fun g hi => by
    rw [Supply.code_given (hg g hi), Supply.code_given (hg g hi)]
  generalize hx : run script (.start s) = x at hr
  generalize hx' : run script (.start s') = x' at hr
  have ha : mask (s.code given) x.answers = mask (s'.code given) x'.answers :=
    congrArg Run.answers hr
  refine ⟨?verdicts, ?openKinds, ?live, ?answers, ?left, ?right, ?funcs⟩
  case verdicts =>
    have hv (ρ : VarId → VarId) (as : List Answer) :
        (mask ρ as).map Answer.verdict = as.map Answer.verdict := by
      rw [mask_list, List.map_map]
      exact List.map_congr_left fun a _ => a.verdict_mask ρ
    exact same_of_mask ha hv
  case openKinds =>
    intro i
    have hb : mask (s.code given) (x.world.builder i) = mask (s'.code given) (x'.world.builder i) :=
      congrArg (fun x => x.world.builder i) hr
    exact same_of_mask hb fun _ b => b.openKinds_mask
  case live => exact (congrArg (fun x => x.world.live) hr :)
  case answers =>
    -- The code of the second run is read, and so that of the first one is, too.
    have ht := congrArg (mask (Function.invFun (s'.code given))) ha
    rw [mask_mask hc, mask_mask hc', Function.invFun_comp hc'] at ht
    exact ht
  case left => exact hx ▸ supports_run script s hg
  case right => exact hx' ▸ supports_run script s' hg
  case funcs =>
    intro k
    obtain ⟨hf, hf'⟩ | ⟨f, f', hf, hf', he⟩ := option_alike (func?_alike hr k)
    · rw [hf, hf']
      exact .none
    · rw [hf, hf']
      have he := PrimFunc.fingerprint_alike hc hc' he
      exact .some ⟨PrimFunc.structuralEq_iff.2 he, PrimFunc.sameTask_of_fingerprint he⟩

/-- Two runs of a script correspond at every step, whatever new identities they are handed. One
renaming, which leaves the identities given in the script as they are, leads from all that the first
makes to all that the second makes. -/
theorem runs_correspond (script : List Step) (s s' : Supply) (h : s.Fresh (ids script))
    (h' : s'.Fresh (ids script)) :
    ∃ σ : VarId → VarId,
      Set.BijOn σ (s.reach (ids script)) (s'.reach (ids script)) ∧
      (∀ i ∈ ids script, σ i = i) ∧
      ∀ n, (run (script.take n) (.start s)).Corresponds σ (s.reach (ids script))
        (s'.reach (ids script)) (run (script.take n) (.start s')) := by
  refine ⟨s.transport s' (ids script), Supply.bijOn_transport h h', ?given, ?runs⟩
  case given =>
    intro i hi
    exact Supply.transport_given h' hi
  case runs =>
    intro n
    apply run_corresponds h h'
    intro g hg
    obtain ⟨c, hc, hg⟩ := List.mem_flatMap.1 hg
    exact List.mem_flatMap.2 ⟨c, List.mem_of_mem_take hc, hg⟩

/-- A loop over the parameter `n` of a function, with a block in it that evaluates its axis. -/
def counted : List Step :=
  let n : Var := ⟨0, "n", .int 32, none⟩
  let loop : Term [.expr, .expr, .option .annotations] .opening := .opening (.loop .serial)
  let index : Term [] (.value .expr) := .app (.data .ofVar) (.result 4 .var)
  let axis : Term [] (.value .var) := .item .var (.result 6 (.list .var)) 0
  [.enter 0 {},
    .openScope 0 (.opening .primFunc),
    .call 0 (.call (.funcName "main")),
    .call 0 (.app (.call (.argVar "n")) (.given n)),
    .openScope 0 (.app (.app (.app loop (.data (.int 0 (.int 32))))
      (.app (.data .ofVar) (.given n))) (.data (.none .annotations))),
    .openScope 0 (.opening (.block "b" false)),
    .call 0 (.app (.call (.remap "S" none))
      (.app (.app (.data (.cons .expr)) index) (.data (.nil .expr)))),
    .call 0 (.app (.call .evaluate) (.app (.data .ofVar) axis)),
    .close 5, .close 4, .close 1, .finish 0]

/-- The identity that is given is the first of all, and the script is run at once or later. -/
theorem runs_correspond_counted :
    let early : Supply := ⟨id, 1⟩
    let late : Supply := ⟨id, 20⟩
    early.Fresh (ids counted) ∧ late.Fresh (ids counted) ∧
      ∃ f f', (run counted (.start early)).func? 11 = some f ∧
        (run counted (.start late)).func? 11 = some f' ∧
        f.vars = [0, 1, 0, 1, 0, 2, 2] ∧ f'.vars = [0, 20, 0, 20, 0, 21, 21] ∧
        f.structuralEq f' = true ∧ f.SameTask f' := by
  intro early late
  have hids : ids counted = [0, 0] := rfl
  have hfresh (used : Nat) (hu : 0 < used) : (⟨id, used⟩ : Supply).Fresh (ids counted) := by
    refine ⟨fun n m h => Nat.add_left_cancel h, fun n h => ?_⟩
    have h0 : used + n = 0 := by simpa [hids, Supply.future] using h
    omega
  have h : early.Fresh (ids counted) := hfresh 1 Nat.one_pos
  have h' : late.Fresh (ids counted) := hfresh 20 (by decide)
  obtain ⟨σ, -, -, hn⟩ := runs_correspond counted early late h h'
  have hfuncs := (hn 12).funcs 11
  have htake : counted.take 12 = counted := rfl
  rw [htake] at hfuncs
  have hv : ((run counted (.start early)).func? 11).map (·.vars) =
      some [0, 1, 0, 1, 0, 2, 2] := by decide +kernel
  have hv' : ((run counted (.start late)).func? 11).map (·.vars) =
      some [0, 20, 0, 20, 0, 21, 21] := by decide +kernel
  obtain ⟨f, hf, hv⟩ := Option.map_eq_some_iff.1 hv
  obtain ⟨f', hf', hv'⟩ := Option.map_eq_some_iff.1 hv'
  rw [hf, hf'] at hfuncs
  cases hfuncs with
  | some he => exact ⟨h, h', f, f', hf, hf', hv, hv', he.1, he.2⟩

end

end Script

end TensorProgram
