import TensorProgram.Proofs.FreshIds
import TensorProgram.Proofs.GridRuns

/-!
Grids are nests. Whatever stands around a grid and in it, sessions end with it as they end with a
nest of loops in its place, up to the identities and the names of variables. Where a session ends
well with a grid of no extents, it does so without the grid, and with the same output.
-/

namespace TensorProgram

open Masked

/-- The outputs are equal up to the names of variables and to their identities: in each place `ρ`
takes that in the first to where `ρ'` takes that in the second. -/
inductive Output.Same (ρ ρ' : VarId → VarId) : Output → Output → Prop where
  | stmt {a a' : Stmt} (alike : mask ρ a = mask ρ' a') : Same ρ ρ' (.stmt a) (.stmt a')
  | func {f f' : PrimFunc} (alike : mask ρ f = mask ρ' f') (equal : f.structuralEq f' = true) :
      Same ρ ρ' (.func f) (.func f')

theorem Output.same_of_alike {ρ ρ' : VarId → VarId} (hρ : Function.Injective ρ)
    (hρ' : Function.Injective ρ') {out out' : Output} (h : mask ρ out = mask ρ' out') :
    Same ρ ρ' out out' := by
  cases out with
  | stmt a =>
      cases out' with
      | stmt a' => exact .stmt (Output.stmt.inj h)
      | func f' => cases h
  | func f =>
      cases out' with
      | stmt a' => cases h
      | func f' =>
          have ha : mask ρ f = mask ρ' f' := Output.func.inj h
          exact .func ha (PrimFunc.structuralEq_iff.2 (PrimFunc.fingerprint_alike hρ hρ' ha))

namespace Script

/-! The identities given in the scripts. -/

theorem Term.ids_relocate (r : Relocation) {ts : List Ty} {k : Kind} (e : Term ts k) :
    (e.relocate r).ids = e.ids := by
  have hresults (t : Ty) (k n : Nat) : (Relocation.results t k n).ids = [] := by
    induction n generalizing k with
    | zero => rfl
    | succ n ih => exact ih (k + 1)
  induction e with
  | result n t =>
      rw [relocate, Relocation.result]
      split
      · cases t with
        | list u =>
            cases u with
            | var => exact hresults .var r.opening r.width
            | _ => rfl
        | _ => rfl
      · cases r.place? n <;> rfl
  | item t l n ih => exact ih
  | app f a ihf iha => exact congrArg₂ List.append ihf iha
  | given v | data p | node p | opening p | call p => rfl

theorem Step.ids_relocate (r : Relocation) (s : Step) : (s.relocate r).ids = s.ids := by
  cases s with
  | openScope t o => exact o.ids_relocate r
  | call t c => exact c.ids_relocate r
  | make t a | fold t a | mint t a => exact a.ids_relocate r
  | declare d shape o => exact congrArg₂ List.append (shape.ids_relocate r) (o.ids_relocate r)
  | close n | drop n | finish n | leave n | asFunc n | asStmt n =>
      rw [relocate]
      cases r.place? n <;> rfl
  | enter t c | current t op => rfl

theorem ids_append (ss ss' : List Step) : ids (ss ++ ss') = ids ss ++ ids ss' :=
  List.flatMap_append

theorem ids_relocate (r : Relocation) (script : List Step) :
    ids (script.map (Step.relocate r)) = ids script := by
  rw [ids, List.flatMap_map]
  exact congrArg (script.flatMap ·) (funext (Step.ids_relocate r))

theorem ids_closes (p n : Nat) : ids (closes p n) = [] := by
  induction n with
  | zero => rfl
  | succ n ih => exact ih

theorem ids_serial (t : ThreadId) (es : List (Term [] (.value .expr))) :
    ids (es.map (.serial t)) = (Step.grid t es).ids := by
  have hserial (e : Term [] (.value .expr)) : (Step.serial t e).ids = e.ids := List.append_nil e.ids
  induction es with
  | nil => rfl
  | cons e es ih =>
      rw [List.map_cons, ids, List.flatMap_cons, hserial]
      exact congrArg (e.ids ++ ·) ih

theorem ids_nestScript (pre : List Step) (t : ThreadId) (es : List (Term [] (.value .expr)))
    (body post : List Step) :
    ids (nestScript pre t es body post) = ids (gridScript pre t es body post) := by
  have hgrid : ids (gridScript pre t es body post) =
      ids pre ++ ((Step.grid t es).ids ++ (ids body ++ ([] ++ ids post))) := by
    rw [gridScript, ids_append]
    refine congrArg (ids pre ++ ·) (congrArg ((Step.grid t es).ids ++ ·) ?_)
    exact ids_append body (.close pre.length :: post)
  simp only [nestScript, ids_append, ids_relocate, ids_closes, ids_serial, hgrid]

/-! Alike runs come to alike outcomes. -/

section

variable {ρ ρ' : VarId → VarId}

theorem Run.ends_alike {x x' : Run} (hx : mask ρ x = mask ρ' x') (j : SessionId) (s : Step) :
    x.ends j s = x'.ends j s := by
  have has : mask ρ x.answers = mask ρ' x'.answers := congrArg Run.answers hx
  rw [ends, ends]
  cases s.finishes? with
  | none => rfl
  | some n => rw [Option.bind_some, Option.bind_some, Answer.bind_same Answer.session?_mask has n]

theorem Run.outcome_alike (hρ : Function.Injective ρ) (hρ' : Function.Injective ρ') {x x' : Run}
    (hx : mask ρ x = mask ρ' x') (j : SessionId) {script : List Step}
    (hs : ∀ g ∈ ids script, ρ g = ρ' g) :
    mask ρ (x.outcome j script) = mask ρ' (x'.outcome j script) := by
  induction script generalizing x x' with
  | nil => rfl
  | cons s ss ih =>
      have hids : ids (s :: ss) = s.ids ++ ids ss := List.flatMap_cons
      rw [hids] at hs
      have has : mask ρ x.answers = mask ρ' x'.answers := congrArg Run.answers hx
      have hw : mask ρ x.world = mask ρ' x'.world := congrArg Run.world hx
      have hs₁ : ∀ g ∈ s.ids, ρ g = ρ' g := fun g hg => hs g (List.mem_append_left _ hg)
      rw [outcome, outcome, Run.ends_alike hx j s]
      split
      · exact congrArg some (congrArg Prod.fst (Step.act_alike hρ hρ' has hw s hs₁))
      · exact ih (Run.step_alike hρ hρ' hx s hs₁) fun g hg => hs g (List.mem_append_right _ hg)

theorem output?_alike {a a' : Option Answer} (h : mask ρ a = mask ρ' a') :
    mask ρ (a.bind Answer.output?) = mask ρ' (a'.bind Answer.output?) :=
  bind_alike h fun _ _ h => alike_of_mask h Answer.output?_mask

end

theorem openings_alike (k : SessionId) {row row' : List Loop} (h : mask id row = mask id row')
    (q : Nat) : mask id (openings k q row) = mask id (openings k q row') := by
  induction row generalizing row' q with
  | nil =>
      obtain ⟨-, rfl⟩ | ⟨_, _, _, _, h, -⟩ := list_alike h
      · rfl
      · cases h
  | cons l ls ih =>
      obtain ⟨he, -⟩ | ⟨_, _, l', ls', he, rfl, hl, hls⟩ := list_alike h
      · cases he
      · cases he
        have hv : mask id l.var = mask id l'.var := congrArg Loop.var hl
        exact congrArg₂ List.cons (congrArg (fun v => Answer.opened _ (.var v)) hv) (ih hls (q + 1))

/-- Opened one inside the other, loops that differ in names only make runs that do, too. -/
theorem Run.nested_alike (x : Run) (k : SessionId) {row row' : List Loop}
    (h : mask id row = mask id row') : mask id (x.nested k row) = mask id (x.nested k row') := by
  have hl : row.length = row'.length := length_alike h
  have hb : ∀ i, mask id (update x.world.builder k ((x.world.builder k).stacked row) i) =
      mask id (update x.world.builder k ((x.world.builder k).stacked row') i) :=
    World.update_alike (fun _ => rfl) k (Builder.mask_stacked rfl h)
  have hw := World.with_alike (w := x.world) (ρ := id) rfl
    (congrArg (fun n => mask id (x.world.supply.skip n)) hl) hb
  exact congrArg₂ Run.mk hw (append_alike rfl (openings_alike k h _))

/-! One supply. -/

theorem output_append (j : SessionId) (ss ss' : List Step) (w : World) :
    output j (ss ++ ss') w =
      ((Run.outcome j ⟨w, []⟩ ss).or ((run ss w).outcome j ss')).bind Answer.output? :=
  congrArg (Option.bind · Answer.output?) (Run.outcome_append j ⟨w, []⟩ ss ss')

section

variable {pre body post : List Step} {t : ThreadId} {es : List (Term [] (.value .expr))}
  {s : Supply} {xs : List Expr}

/-- The loops of a grid have variables of their own. -/
theorem nodup_loopRow {x : Run} (hm : s.Mints [] x.world.supply)
    (hs : Function.Injective s.future) (c : Config) (name : Nat → String) (xs : List Expr) :
    ((Opening.loopRow c name 0 xs x.world.supply).map fun l => l.var.id).Nodup := by
  rw [Opening.ids_loopRow]
  apply List.nodup_range.map_on
  intro n _ m _ h
  have hn (n : Nat) : x.world.supply.stream (x.world.supply.used + n) =
      s.future (x.world.supply.used - s.used + n) := by
    rw [hm.stream, Supply.future]
    have := hm.forward
    congr 1
    omega
  rw [hn, hn] at h
  exact Nat.add_left_cancel (hs h)

theorem Run.outcome_serial (x : Run) (j : SessionId) (script : List Step) :
    x.outcome j (es.map (.serial t) ++ script) =
      ((es.map (.serial t)).foldl Run.step x).outcome j script := by
  induction es generalizing x with
  | nil => rfl
  | cons e es ih => exact ih _

/-- What a grid and a nest lead to differs in names only. -/
theorem Run.Sound.grid_alike {x : Run} (hx : x.Sound) (hm : s.Mints [] x.world.supply)
    (hf : Function.Injective s.future) (hn : es ≠ []) (hl : x.answers.length = pre.length)
    (hs : ∀ st ∈ body ++ post, st.closes? ≠ some pre.length)
    (he : es.mapM (fun e => e.eval x.answers) = some xs) (hy : ∀ y ∈ xs, ¬y.Negative)
    (j : SessionId) :
    let r := Relocation.around pre body es.length
    mask id (((x.step (.grid t es)).outcome j (body ++ .close pre.length :: post)).bind
        Answer.output?) =
      mask id ((((es.map (.serial t)).foldl Run.step x).outcome j (body.map (Step.relocate r) ++
        (closes pre.length es.length ++ post.map (Step.relocate r)))).bind Answer.output?) := by
  intro r
  have hb : x.answers.length + 1 + body.length = r.closing := by rw [hl]; rfl
  have hxs : xs.length = es.length := length_of_mapM he
  have hne : xs ≠ [] := by
    rintro rfl
    exact hn (List.length_eq_zero_iff.1 hxs.symm)
  cases ht : x.world.live t with
  | some k =>
      have hrow := Opening.length_loopRow (x.world.builder k).config (fun i => "i" ++ toString i) 0
        xs x.world.supply
      have hd := nodup_loopRow hm hf (x.world.builder k).config (fun i => "i" ++ toString i) xs
      have hmask := Opening.mask_loopRow (x.world.builder k).config (fun i => "i" ++ toString i)
        (fun _ => "i") 0 xs x.world.supply
      rw [Run.step_grid ht he, Run.foldl_serial ht he hy 0]
      generalize Opening.loopRow (x.world.builder k).config (fun i => "i" ++ toString i) 0
        xs x.world.supply = row at *
      have hrn : row ≠ [] := by
        rintro rfl
        exact hne (List.length_eq_zero_iff.1 hrow.symm)
      have hrel := hx.gridded_rest (r := r) ht hl (hrow.trans hxs) hd hrn hb hs j
      refine (congrArg (mask id) (Answer.Reads.bind_output? hrel)).symm.trans (output?_alike ?_)
      exact Run.outcome_alike Function.injective_id Function.injective_id
        (x.nested_alike k hmask) j fun _ _ => rfl
  | none =>
      rw [Run.step_grid_idle ht he, Run.foldl_serial_idle ht he]
      have hrel := Run.failed_rest (r := r) (.refused (.noActiveBuilder "grid"))
        (xs.map fun _ => .refused (.noActiveBuilder "serial")) hl
        ((List.length_map ..).trans hxs) (by simpa using hne) hb hs j
      exact congrArg (mask id) (Answer.Reads.bind_output? hrel).symm

/-- With identities from one supply, only names differ. -/
theorem output_nestScript (h : s.Fresh (ids (gridScript pre t es body post))) (hn : es ≠ [])
    (hs : ∀ st ∈ body ++ post, st.closes? ≠ some pre.length)
    (he : es.mapM (fun e => e.eval (run pre (.start s)).answers) = some xs)
    (hx : ∀ y ∈ xs, ¬y.Negative) (j : SessionId) :
    mask id (output j (gridScript pre t es body post) (.start s)) =
      mask id (output j (nestScript pre t es body post) (.start s)) := by
  have hlen : (run pre (.start s)).answers.length = pre.length := length_run pre (.start s)
  rw [gridScript, nestScript, output_append, output_append]
  cases Run.outcome j ⟨.start s, []⟩ pre with
  | some a => rfl
  | none =>
      rw [Option.none_or, Option.none_or, Run.outcome_serial]
      exact (sound_run pre s).grid_alike (mints_run pre s) h.injective hn hlen hs he hx j

/-- A hollow grid can be left out. -/
theorem output_leave_out {k : SessionId} {out : Output}
    (hs : ∀ st ∈ body ++ post, st.closes? ≠ some pre.length)
    (ht : (run pre (.start s)).world.live t = some k)
    (h : output k (gridScript pre t [] body post) (.start s) = some out) :
    output k (nestScript pre t [] body post) (.start s) = some out := by
  have hlen : (run pre (.start s)).answers.length = pre.length := length_run pre (.start s)
  rw [gridScript, output_append] at h
  rw [nestScript, output_append]
  cases ho : Run.outcome k ⟨.start s, []⟩ pre with
  | some a =>
      rw [ho] at h
      exact h
  | none =>
      rw [ho, Option.none_or] at h
      have he : ([] : List (Term [] (.value .expr))).mapM
          (fun e => e.eval (run pre (.start s)).answers) = some [] := rfl
      have hg : (run pre (.start s)).outcome k (.grid t [] :: (body ++ .close pre.length :: post)) =
          ((run pre (.start s)).gridded k []).outcome k (body ++ .close pre.length :: post) :=
        congrArg (Run.outcome k · (body ++ .close pre.length :: post)) (Run.step_grid ht he)
      rw [hg] at h
      exact (sound_run pre s).hollow_rest (r := .around pre body 0) ht hlen rfl
        (by rw [hlen]; rfl) hs h

end

/-- Around any calls, a grid comes to what a nest of loops comes to. The grid is closed by the call
after the body alone. With new identities from their supplies, every session ends well in both runs
or in neither, and the outputs are equal up to the identities and the names of variables. The
session that has a grid of no extents, if it ends well, does so without it, and its output is the
same. -/
theorem grids_are_nests (pre : List Step) (t : ThreadId) (es : List (Term [] (.value .expr)))
    (body post : List Step) (s : Supply) (xs : List Expr)
    (hs : ∀ st ∈ body ++ post, st.closes? ≠ some pre.length)
    (he : es.mapM (fun e => e.eval (run pre (.start s)).answers) = some xs)
    (hx : ∀ y ∈ xs, ¬y.Negative) :
    let grid := gridScript pre t es body post
    let nest := nestScript pre t es body post
    (es ≠ [] → ∀ s' : Supply, s.Fresh (ids grid) → s'.Fresh (ids grid) →
      ∃ ρ ρ' : VarId → VarId, Function.Injective ρ ∧ Function.Injective ρ' ∧
        (∀ i ∈ ids grid, ρ i = ρ' i) ∧
        ∀ k, Option.Rel (Output.Same ρ ρ') (output k grid (.start s)) (output k nest (.start s'))) ∧
    (es = [] → ∀ k, (run pre (.start s)).world.live t = some k →
      ∀ out, output k grid (.start s) = some out → output k nest (.start s) = some out) := by
  intro grid nest
  refine ⟨?nonempty, ?empty⟩
  case nonempty =>
    intro hn s' h h'
    have hc := Supply.code_injective h
    have hc' := Supply.code_injective h'
    have hg : ∀ i ∈ ids grid, s.code (ids grid) i = s'.code (ids grid) i := fun i hi =>
      (Supply.code_given hi).trans (Supply.code_given hi).symm
    refine ⟨s.code (ids grid), s'.code (ids grid), hc, hc', hg, fun k => ?_⟩
    have hone : mask (s.code (ids grid)) (output k grid (.start s)) =
        mask (s.code (ids grid)) (output k nest (.start s)) := by
      have hid := congrArg (mask (s.code (ids grid))) (output_nestScript h hn hs he hx k)
      rwa [mask_mask Function.injective_id, mask_mask Function.injective_id] at hid
    have htwo : mask (s.code (ids grid)) (output k nest (.start s)) =
        mask (s'.code (ids grid)) (output k nest (.start s')) := by
      have hw : mask (s.code (ids grid)) (World.start s) =
          mask (s'.code (ids grid)) (World.start s') := start_alike fun n => by
        rw [Supply.code_future h, Supply.code_future h']
      refine output?_alike (Run.outcome_alike hc hc' (congrArg (Run.mk · []) hw) k ?_)
      rw [ids_nestScript]
      exact hg
    have hrel := rel_of_alike (hone.trans htwo)
    generalize output k grid (.start s) = a at hrel
    generalize output k nest (.start s') = a' at hrel
    cases hrel with
    | none => exact .none
    | some h => exact .some (Output.same_of_alike hc hc' h)
  case empty =>
    rintro rfl k ht out h
    exact output_leave_out hs ht h

/-- The start of a function. -/
def begun : List Step :=
  [.enter 0 {}, .openScope 0 (.opening .primFunc), .call 0 (.call (.funcName "main"))]

/-- The end of the function and of its session. -/
def ended : List Step := [.close 1, .finish 0]

def literal (n : Int64) : Term [] (.value .expr) := .data (.int n (.int 32))

/-- The variable at a place of those that the call answers with. -/
def varAt (call place : Nat) : Term [] (.value .expr) :=
  .app (.data .ofVar) (.item .var (.result call (.list .var)) place)

/-- A block over two loops, which the fourth call has opened. It evaluates its second axis. -/
def remapped : List Step :=
  [.openScope 0 (.opening (.block "b" false)),
    .call 0 (.app (.call (.remap "SS" none)) (.ofList [varAt 3 0, varAt 3 1])),
    .call 0 (.app (.call .evaluate) (varAt 5 1)),
    .close 4]

/-- The block in a grid and in a nest, and a grid around nothing but a literal. -/
theorem grids_are_nests_remapped :
    let early : Supply := ⟨id, 1⟩
    let late : Supply := ⟨id, 20⟩
    let bare : List Step := [.call 0 (.app (.call .evaluate) (literal 7))]
    (∃ f f', output 0 (gridScript begun 0 [literal 4, literal 8] remapped ended)
          (.start early) = some (.func f) ∧
        output 0 (nestScript begun 0 [literal 4, literal 8] remapped ended)
          (.start late) = some (.func f') ∧
        f.vars = [1, 2, 1, 2, 3, 4, 4] ∧ f'.vars = [20, 21, 20, 21, 22, 23, 23] ∧
        f.structuralEq f' = true) ∧
      ∃ f, output 0 (nestScript begun 0 [] bare ended) (.start early) = some (.func f) ∧
        f.body = .evaluate (.int32 7) := by
  intro early late bare
  have hids : ids (gridScript begun 0 [literal 4, literal 8] remapped ended) = [] := rfl
  have hfresh (used : Nat) : (⟨id, used⟩ : Supply).Fresh
      (ids (gridScript begun 0 [literal 4, literal 8] remapped ended)) := by
    rw [hids]
    exact ⟨fun n m h => Nat.add_left_cancel h, fun n h => by cases h⟩
  have hx : ∀ y ∈ [Expr.int32 4, .int32 8], ¬y.Negative := by
    rintro y hy ⟨k, hk, hlt⟩
    obtain rfl | rfl : y = .int32 4 ∨ y = .int32 8 := by simpa using hy
    all_goals
      cases hk
      exact absurd hlt (by decide)
  refine ⟨?_, ?_⟩
  · have hv : ((output 0 (gridScript begun 0 [literal 4, literal 8] remapped ended)
        (.start early)).bind (·.asFunc.toOption)).map (·.vars) = some [1, 2, 1, 2, 3, 4, 4] := by
      decide +kernel
    have hv' : ((output 0 (nestScript begun 0 [literal 4, literal 8] remapped ended)
        (.start late)).bind (·.asFunc.toOption)).map (·.vars) =
          some [20, 21, 20, 21, 22, 23, 23] := by
      decide +kernel
    obtain ⟨ρ, ρ', -, -, -, hk⟩ := (grids_are_nests begun 0 [literal 4, literal 8] remapped ended
      early [.int32 4, .int32 8] (by decide) rfl hx).1 (by simp) late (hfresh 1) (hfresh 20)
    have h := hk 0
    generalize output 0 (gridScript begun 0 [literal 4, literal 8] remapped ended)
      (.start early) = o at hv h
    generalize output 0 (nestScript begun 0 [literal 4, literal 8] remapped ended)
      (.start late) = o' at hv' h
    cases h with
    | none => cases hv
    | some h =>
        cases h with
        | stmt => cases hv
        | func ha he => exact ⟨_, _, rfl, rfl, Option.some.inj hv, Option.some.inj hv', he⟩
  · have h := (grids_are_nests begun 0 [] bare ended early [] (by decide) rfl (by simp)).2 rfl 0 rfl
      _ rfl
    exact ⟨_, h, rfl⟩

/-- In the nest the block comes one call later, and the loops are closed innermost first. -/
example : nestScript begun 0 [literal 4, literal 8] remapped ended = begun ++
    [.serial 0 (literal 4), .serial 0 (literal 8),
      .openScope 0 (.opening (.block "b" false)),
      .call 0 (.app (.call (.remap "SS" none)) (.ofList [
        .app (.data .ofVar) (.item .var (Relocation.results .var 3 2) 0),
        .app (.data .ofVar) (.item .var (Relocation.results .var 3 2) 1)])),
      .call 0 (.app (.call .evaluate) (varAt 6 1)),
      .close 5, .close 4, .close 3, .close 1, .finish 0] := rfl

end Script

end TensorProgram
