import TensorProgram.Proofs.Sessions
import TensorProgram.Proofs.WellFormed

/-!
The range of a loop. A loop from `start` to `stop` is refused when both are literals in the
wrong order, and overflows when they are literals too far apart; in every other case it opens
one scope with one new variable that ranges over `[start, stop)` exactly. Exactness is about
what expressions denote: casts and the folding of literals change how the bounds are written,
and not which integers lie between them.
-/

namespace TensorProgram

/-- What an operator computes on integers without limits. Truth values are one and zero. -/
def BinOp.denote : BinOp → Int → Int → Int
  | .add => (· + ·)
  | .sub => (· - ·)
  | .mul => (· * ·)
  | .floorDiv => Int.fdiv
  | .floorMod => Int.fmod
  | .min => Min.min
  | .max => Max.max
  | .eq => fun a b => if a = b then 1 else 0
  | .ne => fun a b => if a ≠ b then 1 else 0
  | .lt => fun a b => if a < b then 1 else 0
  | .le => fun a b => if a ≤ b then 1 else 0
  | .gt => fun a b => if b < a then 1 else 0
  | .ge => fun a b => if b ≤ a then 1 else 0
  | .and => fun a b => if a ≠ 0 ∧ b ≠ 0 then 1 else 0
  | .or => fun a b => if a ≠ 0 ∨ b ≠ 0 then 1 else 0

namespace Expr

/-- The integer that an expression stands for when its leaves stand for those that `ρ` gives
them. A cast does not change the value. -/
def denote (ρ : Expr → Int) : Expr → Int
  | .int value _ => value.toInt
  | .binary op lhs rhs => op.denote (lhs.denote ρ) (rhs.denote ρ)
  | .not value => if value.denote ρ = 0 then 1 else 0
  | .cast _ value => value.denote ρ
  | .float value dtype => ρ (.float value dtype)
  | .str value => ρ (.str value)
  | .var v => ρ (.var v)
  | .load buffer indices => ρ (.load buffer indices)
  | .call op args dtype => ρ (.call op args dtype)
termination_by structural e => e

/-- Literal bounds in the wrong order. -/
def Reversed (start stop : Expr) : Prop :=
  ∃ lo hi, start.asInt? = some lo ∧ stop.asInt? = some hi ∧ hi.toInt < lo.toInt

/-- Literal bounds in order, with more integers between them than a word can count. -/
def Overlong (start stop : Expr) : Prop :=
  ∃ lo hi, start.asInt? = some lo ∧ stop.asInt? = some hi ∧ lo.toInt ≤ hi.toInt ∧
    Int64.maxValue.toInt < hi.toInt - lo.toInt

theorem Overlong.not_reversed {start stop : Expr} (h : start.Overlong stop) :
    ¬start.Reversed stop := by
  obtain ⟨lo, hi, hlo, hhi, hle, -⟩ := h
  rintro ⟨lo', hi', hlo', hhi', hlt⟩
  cases hlo.symm.trans hlo'
  cases hhi.symm.trans hhi'
  omega

variable {ρ : Expr → Int}

theorem denote_castTo (d : DataType) (e : Expr) : (e.castTo d).denote ρ = e.denote ρ := by
  rw [castTo]
  split
  · rfl
  · rw [denote]

theorem denote_asIndex (d : DataType) (e : Expr) : (e.asIndex d).denote ρ = e.denote ρ := by
  cases e with
  | int value dtype => simp only [asIndex, denote]
  | _ => exact denote_castTo d _

/-- Folding does not change the difference. -/
theorem denote_subFolded {a b e : Expr} (h : a.subFolded b = .ok e) :
    e.denote ρ = a.denote ρ - b.denote ρ := by
  simp only [subFolded] at h
  split at h
  · rename_i x d y d'
    cases hs : subExact x y with
    | error o => simp [hs] at h
    | ok z =>
        simp only [hs, ok_bind, pure_eq_ok, Except.ok.injEq] at h
        rw [← h]
        simpa only [denote] using subExact_eq_ok_iff.1 hs
  · rename_i y d _
    simp only [pure_eq_ok, Except.ok.injEq] at h
    rw [← h]
    split
    · rename_i hy
      simp [hy, denote]
    · simp only [denote, BinOp.denote]
  · simp only [pure_eq_ok, Except.ok.injEq] at h
    rw [← h]
    simp only [denote, BinOp.denote]

theorem asInt?_eq_some {e : Expr} {x : Int64} : e.asInt? = some x ↔ ∃ d, e = .int x d := by
  cases e <;> simp [asInt?]

/-- Only two literals can have a difference that does not fold. -/
theorem subFolded_eq_error {a b : Expr} {o : Overflow} (h : a.subFolded b = .error o) :
    ∃ x y, a.asInt? = some x ∧ b.asInt? = some y ∧ subExact x y = .error o := by
  simp only [subFolded] at h
  split at h
  · rename_i x d y d'
    refine ⟨x, y, rfl, rfl, ?_⟩
    cases hs : subExact x y with
    | error o' => simpa [hs] using h
    | ok z => simp [hs] at h
  · simp at h
  · simp at h

theorem asInt?_asIndex (d : DataType) (e : Expr) : (e.asIndex d).asInt? = e.asInt? := by
  cases e with
  | int value dtype => rfl
  | _ =>
      simp only [asIndex, castTo]
      split <;> rfl

end Expr

theorem subExact_eq_error {a b : Int64} {o : Overflow} (h : subExact a b = .error o) :
    o = .subtract ∧ word? (a.toInt - b.toInt) = none := by
  rw [subExact] at h
  cases hw : word? (a.toInt - b.toInt) with
  | some w => simp [hw] at h
  | none =>
      simp only [hw, Except.error.injEq] at h
      exact ⟨h.symm, rfl⟩

/-- A difference that is no smaller than zero fits a word unless it is too large. -/
theorem word?_sub_eq_none {a b : Int64} (h : b.toInt ≤ a.toInt) :
    word? (a.toInt - b.toInt) = none ↔ Int64.maxValue.toInt < a.toInt - b.toInt := by
  have hmin : Int64.minValue.toInt ≤ 0 := by decide
  simp only [word?, ite_eq_right_iff, reduceCtorEq, imp_false, not_and, Int.not_le]
  exact ⟨fun h' => h' (by omega), fun h' _ => h'⟩

/-- Of two bounds, the first that is no literal decides the type of the loop. -/
theorem Config.loopType_eq (c : Config) (start stop : Expr) :
    c.loopType start stop =
      (([start, stop].find? fun e => !e.isLiteral).map Expr.dtype).getD c.indexType := by
  cases hstart : start.isLiteral <;> cases hstop : stop.isLiteral <;>
    simp [loopType, hstart, hstop]

namespace Opening

variable {start stop : Expr}

theorem checkBounds_of_reversed (op : String) {lo hi : Int64} (hlo : start.asInt? = some lo)
    (hhi : stop.asInt? = some hi) (h : hi.toInt < lo.toInt) :
    checkBounds op start stop = .error (.emptyRange op lo hi) := by
  simp [checkBounds, hlo, hhi, h]

theorem checkBounds_eq_ok (op : String) (h : ¬start.Reversed stop) :
    checkBounds op start stop = .ok () := by
  cases hlo : start.asInt? with
  | none => simp [checkBounds, hlo]
  | some lo =>
      cases hhi : stop.asInt? with
      | none => simp [checkBounds, hlo, hhi]
      | some hi =>
          have hle : ¬hi.toInt < lo.toInt := fun hlt => h ⟨lo, hi, hlo, hhi, hlt⟩
          simp [checkBounds, hlo, hhi, hle]

/-- Bounds that have no extent are too far apart. -/
theorem extent_eq_error {d : DataType} {o : Overflow} (hr : ¬start.Reversed stop)
    (h : (stop.asIndex d).subFolded (start.asIndex d) = .error o) :
    o = .subtract ∧ start.Overlong stop := by
  obtain ⟨hi, lo, hhi, hlo, hs⟩ := Expr.subFolded_eq_error h
  rw [Expr.asInt?_asIndex] at hhi hlo
  have hle : lo.toInt ≤ hi.toInt := by
    by_contra hlt
    exact hr ⟨lo, hi, hlo, hhi, by omega⟩
  obtain ⟨ho, hw⟩ := subExact_eq_error hs
  exact ⟨ho, lo, hi, hlo, hhi, hle, (word?_sub_eq_none hle).1 hw⟩

theorem extent_of_overlong (d : DataType) (h : start.Overlong stop) :
    (stop.asIndex d).subFolded (start.asIndex d) = .error .subtract := by
  obtain ⟨lo, hi, hlo, hhi, hle, hlt⟩ := h
  obtain ⟨d₁, rfl⟩ := Expr.asInt?_eq_some.1 hlo
  obtain ⟨d₂, rfl⟩ := Expr.asInt?_eq_some.1 hhi
  simp [Expr.asIndex, Expr.subFolded, subExact, (word?_sub_eq_none hle).2 hlt]

/-- The retyped lower bound and the extent reach from `start` to `stop`. -/
theorem range_exact {d : DataType} {extent : Expr} (ρ : Expr → Int)
    (h : (stop.asIndex d).subFolded (start.asIndex d) = .ok extent) :
    (start.asIndex d).denote ρ = start.denote ρ ∧
      (start.asIndex d).denote ρ + extent.denote ρ = stop.denote ρ := by
  have hd : extent.denote ρ = _ := Expr.denote_subFolded h
  rw [Expr.denote_asIndex, Expr.denote_asIndex] at hd
  rw [Expr.denote_asIndex, hd]
  exact ⟨rfl, by omega⟩

variable (b : Builder) (mode : LoopMode) (annotations : Annotations) (s : Supply)

theorem singleLoop_of_reversed {lo hi : Int64} (hlo : start.asInt? = some lo)
    (hhi : stop.asInt? = some hi) (h : hi.toInt < lo.toInt) :
    singleLoop b mode start stop annotations s = .error (.refused (.emptyRange mode.op lo hi)) := by
  simp only [singleLoop, Attempt.bind_apply, Attempt.check_apply,
    checkBounds_of_reversed mode.op hlo hhi h]

theorem singleLoop_of_overlong (h : start.Overlong stop) :
    singleLoop b mode start stop annotations s = .error (.overflow .subtract) := by
  have hc := checkBounds_eq_ok mode.op h.not_reversed
  simp only [singleLoop, Attempt.bind_apply, Attempt.check_apply, Attempt.exact_apply, hc,
    extent_of_overlong _ h]

/-- Every other loop has an extent. -/
theorem singleLoop_of_fits (hr : ¬start.Reversed stop) (ho : ¬start.Overlong stop) :
    let v := (Var.fresh "i" (b.config.loopType start stop) s).1
    ∃ extent, (stop.asIndex v.dtype).subFolded (start.asIndex v.dtype) = .ok extent ∧
      singleLoop b mode start stop annotations s =
        .ok ((v, .loop (mode.node v (start.asIndex v.dtype) extent annotations)), s.take.2) := by
  intro v
  have hd : v.dtype = b.config.loopType start stop := rfl
  have hc := checkBounds_eq_ok mode.op hr
  cases he : (stop.asIndex v.dtype).subFolded (start.asIndex v.dtype) with
  | error o => exact absurd (extent_eq_error hr he).2 ho
  | ok extent =>
      refine ⟨extent, rfl, ?_⟩
      rw [hd] at he
      simp only [singleLoop, Attempt.bind_apply, Attempt.check_apply, Attempt.exact_apply,
        Attempt.fresh_apply, Attempt.pure_apply, hc, he, Loop.over_eq]
      rfl

end Opening

namespace Program

/-- A loop can be opened in every state of a session unless its bounds are literals in the wrong
order or too far apart, and then it runs over the integers between its bounds. -/
theorem loop_ranges {supply : Supply} (hs : Function.Injective supply.stream)
    (acts : List Action) {t : ThreadId} {id : SessionId}
    (live : (run supply acts).world.live t = some id)
    (mode : LoopMode) (start stop : Expr) (annotations : Option Annotations) :
    let w := (run supply acts).world
    let b := w.builder id
    let r := w.openScope t (.loop mode start stop annotations)
    let type := (([start, stop].find? fun e => !e.isLiteral).map Expr.dtype).getD
      b.config.indexType
    (start.Reversed stop → ∃ e : BuildError, e.category = .argumentShape ∧
      r = (.error (.refused e), { w with builder := update w.builder id (b.record e) })) ∧
    (start.Overlong stop → r = (.error (.overflow .subtract), w)) ∧
    (¬start.Reversed stop → ¬start.Overlong stop → ∃ v min extent,
      let loop := mode.node v min extent (annotations.getD ∅)
      let frame : Frame :=
        { id := b.nextId, scope := .wrap { kind := .loops, heads := [.loop loop] }, stmts := [] }
      r = (.ok (⟨id, b.nextId, .loops⟩, .var v), { w with
        supply := { w.supply with used := w.supply.used + 1 }
        builder := update w.builder id
          { b with frames := frame :: b.frames, nextId := b.nextId + 1 } }) ∧
      (∀ n < w.supply.used, v.id ≠ supply.stream n) ∧
      v.dtype = type ∧ min.dtype = type ∧ extent.dtype = type ∧
      ∀ ρ, min.denote ρ = start.denote ρ ∧ min.denote ρ + extent.denote ρ = stop.denote ρ) := by
  intro w b r type
  have hr : r = _ := World.openScope_of_live live _
  rw [Builder.openScope_eq] at hr
  simp only [Opening.scope, Attempt.bind_apply, Attempt.pure_apply] at hr
  refine ⟨?_, ?_, ?_⟩
  · rintro ⟨lo, hi, hlo, hhi, hlt⟩
    rw [Opening.singleLoop_of_reversed _ _ _ _ hlo hhi hlt] at hr
    exact ⟨.emptyRange mode.op lo hi, rfl, hr⟩
  · intro ho
    rw [Opening.singleLoop_of_overlong _ _ _ _ ho] at hr
    change r = (_, { w with builder := update w.builder id b }) at hr
    rwa [update_eq, Function.update_eq_self] at hr
  · intro hn ho
    obtain ⟨extent, he, hl⟩ := Opening.singleLoop_of_fits b mode (annotations.getD ∅) w.supply hn ho
    have hv : ∀ n < w.supply.used, (Var.fresh "i" (b.config.loopType start stop) w.supply).1.id ≠
        supply.stream n := by
      intro n hlt heq
      have hst : w.supply.stream = supply.stream := (mints_run supply acts).stream
      have hn : w.supply.used = n := hs (hst ▸ heq)
      omega
    have ht : (Var.fresh "i" (b.config.loopType start stop) w.supply).1.dtype = type :=
      b.config.loopType_eq start stop
    rw [hl] at hr
    refine ⟨_, _, extent, hr, hv, ht, (Expr.dtype_asIndex _ _).trans ht, ?_, ?_⟩
    · exact (Expr.dtype_subFolded he).trans ((Expr.dtype_asIndex _ _).trans ht)
    · exact fun ρ => Opening.range_exact ρ he

/-- Three loops in a function: from an `int64` variable to an `int32` literal, from two down to
one, and over all words. -/
theorem loop_ranges_mixed :
    let acts : List Action := [.enter 0 {}, .openScope 0 .primFunc]
    let w := (run .counting acts).world
    let start : Expr := .var ⟨7, "n", .int 64, none⟩
    let wide := w.openScope 0
      (.loop .serial (.int32 Int64.minValue) (.int32 Int64.maxValue) none)
    w.live 0 = some 0 ∧
      (∃ e : BuildError, e.category = .argumentShape ∧
        (w.openScope 0 (.loop .parallel (.int32 2) (.int32 1) none)).1 = .error (.refused e)) ∧
      wide = (.error (.overflow .subtract), w) ∧
      let v : Var := ⟨0, "i", .int 64, none⟩
      let extent : Expr := .binary .sub (.int 10 (.int 64)) start
      let thread : IterVar := ⟨some ⟨start, extent⟩, v, .threadIndex, "threadIdx.x"⟩
      let loop : Loop := ⟨v, start, extent, .threadBinding, some thread, ∅⟩
      let r := w.openScope 0 (.loop (.thread "threadIdx.x") start (.int32 10) none)
      r.1 = .ok (⟨0, 1, .loops⟩, .var v) ∧
        (r.2.builder 0).frames =
          ⟨1, .wrap { kind := .loops, heads := [.loop loop] }, []⟩ :: (w.builder 0).frames ∧
        extent.dtype = .int 64 ∧ ∀ ρ, start.denote ρ + extent.denote ρ = 10 := by
  intro acts w start wide
  have live : w.live 0 = some 0 := rfl
  have injective : Function.Injective Supply.counting.stream := Function.injective_id
  have ranges := loop_ranges injective acts live
  refine ⟨live, ?_, ?_, ?_⟩
  · obtain ⟨e, he, hr⟩ :=
      (ranges .parallel (.int32 2) (.int32 1) none).1 ⟨2, 1, rfl, rfl, by decide⟩
    exact ⟨e, he, congrArg Prod.fst hr⟩
  · exact (ranges _ _ _ none).2.1 ⟨_, _, rfl, rfl, by decide, by decide⟩
  · intro v extent thread loop r
    have symbolic (p : Int64 → Int64 → Prop) :
        ¬∃ lo hi, start.asInt? = some lo ∧ (Expr.int32 10).asInt? = some hi ∧ p lo hi := by
      rintro ⟨_, _, h, -⟩
      cases h
    obtain ⟨x, min, length, hr, -, -, -, he, hd⟩ :=
      (ranges (.thread "threadIdx.x") start (.int32 10) none).2.2 (symbolic _) (symbolic _)
    let frames (r : Except Failure (Guard × Value) × World) := (r.2.builder 0).frames
    let heads (r : Except Failure (Guard × Value) × World) :=
      (frames r).flatMap fun f => f.scope.heads
    have hheads : [Head.loop loop] = [.loop ⟨x, min, length, .threadBinding,
        some ⟨some ⟨min, length⟩, x, .threadIndex, "threadIdx.x"⟩, ∅⟩] :=
      congrArg heads hr
    obtain ⟨rfl, rfl, rfl, -⟩ := Loop.mk.inj (Head.loop.inj (List.singleton_inj.1 hheads))
    exact ⟨congrArg Prod.fst hr, congrArg frames hr, he, fun ρ => (hd ρ).2⟩

end Program

end TensorProgram
