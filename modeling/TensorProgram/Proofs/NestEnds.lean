import TensorProgram.Proofs.AlikeWorlds
import TensorProgram.Proofs.LoopRange
import TensorProgram.Proofs.Nests

/-!
The ends of a nest. Loops opened one inside the other are the nest of the scope that a grid of the
same extents opens, up to the names of the variables, and to close them one after the other does to
the builder what it does to close the one scope.
-/

namespace TensorProgram

open Masked

namespace Builder

/-- Closes the `n` scopes numbered from `p` on, innermost first. -/
def closeNest (p : Nat) : Nat → Builder → Builder
  | 0, b => b
  | n + 1, b => closeNest p n (b.close (p + n) .loops).2

variable {σ : Site} {b : Builder}

theorem record_record (b : Builder) (e e' : BuildError) :
    (b.record e).record e' = b.record e := by
  cases h : b.firstError <;> simp [record, h]

/-- The first mistake stands. -/
theorem closeNest_refused {p n : Nat} {e : BuildError}
    (h : ∀ k, k ≤ n → ∀ c : Builder, c.frames = b.frames →
      c.close (p + k) .loops = (.error e, c.record e)) :
    closeNest p (n + 1) b = b.record e := by
  induction n generalizing b with
  | zero => rw [closeNest, closeNest, h 0 (Nat.le_refl 0) b rfl]
  | succ n ih =>
      have hr := ih (b := b.record e) fun k hk c hc => h k (Nat.le_succ_of_le hk) c hc
      rw [closeNest, h (n + 1) (Nat.le_refl _) b rfl]
      exact hr.trans (record_record b e e)

/-- The builder after the scope of heads on top has been closed with these statements in it, the
rest of the scopes being `rest`. -/
def wrapped (b : Builder) (rest : List Frame) (heads : List Head) (ss : List Stmt) : Builder :=
  match { b with frames := rest }.appended (Head.wrap heads (.sequence ss)) with
  | .ok c => c
  | .error e => { b with frames := rest }.record e

theorem close_wrap {id : Nat} {w : Wrapper} {ss : List Stmt} {rest : List Frame}
    (h : b.frames = ⟨id, .wrap w, ss⟩ :: rest) (hw : w.heads ≠ []) (kind : ScopeKind) :
    (b.close id kind).2 = b.wrapped rest w.heads ss := by
  have hp : Frame.close b.config ⟨id, .wrap w, ss⟩ =
      .ok (.stmts [Head.wrap w.heads (.sequence ss)]) := by
    simp [Frame.close, Wrapper.close, hw]
  have hc : b.close id kind = _ := close_of_top kind h
  rw [hp] at hc
  rw [hc, wrapped]
  simp only [Except.bind, delivered, appendedAll]
  cases { b with frames := rest }.appended (Head.wrap w.heads (.sequence ss)) <;> rfl

/-- Around the body there is one loop after the other. -/
theorem closeNest_nest {p : Nat} {ss : List Stmt} {l : Loop} {ls : List Loop} {rest : List Frame}
    (h : b.frames = nest p ss (l :: ls) ++ rest) :
    closeNest p (ls.length + 1) b = b.wrapped rest ((l :: ls).reverse.map .loop) ss := by
  induction ls generalizing b l ss with
  | nil => exact close_wrap h (List.cons_ne_nil _ _) .loops
  | cons m ms ih =>
      have hc : (b.close (p + (m :: ms).length) .loops).2 =
          { b with frames := nest p [Head.wrap [.loop l] (.sequence ss)] (m :: ms) ++ rest } :=
        close_wrap (b := b) h (List.cons_ne_nil _ _) .loops
      change closeNest p (ms.length + 1) (b.close (p + (m :: ms).length) .loops).2 = _
      rw [hc, ih rfl]
      have hs : Head.wrap ((m :: ms).reverse.map .loop)
          (.sequence [Head.wrap [.loop l] (.sequence ss)]) =
            Head.wrap ((l :: m :: ms).reverse.map .loop) (.sequence ss) := by
        rw [List.reverse_cons (a := l), List.map_append]
        exact (List.foldr_append).symm
      rw [wrapped, wrapped, hs]

theorem any_id_nest_of_lt {p k : Nat} {ss : List Stmt} {ls : List Loop} (hk : k < ls.length) :
    (nest p ss ls).any (·.id = p + k) = true := by
  induction ls generalizing ss with
  | nil => cases hk
  | cons l ls ih =>
      rw [nest, List.any_cons, Bool.or_eq_true]
      obtain hk | rfl := Nat.lt_succ_iff_lt_or_eq.1 hk
      · exact Or.inr (ih hk)
      · exact Or.inl (decide_eq_true rfl)

theorem wrapped_spread {fs : List Frame} (h : σ.Marks { b with frames := fs }) (heads : List Head)
    (ss : List Stmt) :
    (b.wrapped fs heads ss).spread σ =
      (b.spread σ).wrapped (fs.flatMap σ.spread) heads ss := by
  have ha := spread_appended h (Head.wrap heads (.sequence ss))
  change Builder.appended { b.spread σ with frames := fs.flatMap σ.spread } _ = _ at ha
  rw [wrapped, wrapped, ha]
  cases { b with frames := fs }.appended (Head.wrap heads (.sequence ss)) <;> rfl

/-- Each scope of the nest is open if the one scope is. -/
theorem any_site_spread (h : σ.Marks b) {k : Nat} (hk : k < σ.loops.length) {fs : List Frame}
    (hfs : fs ⊆ b.frames) :
    (fs.flatMap σ.spread).any (·.id = σ.frame + k) = fs.any (·.id = σ.frame) := by
  apply Site.any_spread
  intro f hf
  obtain ⟨hn, hs⟩ | ⟨-, l, ls, hl, hi, hs⟩ := h.cases (hfs hf)
  · have ho := shift_outside (n := σ.loops.length) hn
    have hne : σ.place f.id ≠ σ.frame + k := by
      rw [Site.place]
      omega
    rw [hs]
    simp [hne, hn]
  · rw [hs, any_id_nest_of_lt (hl ▸ hk), decide_eq_true hi]

theorem closeNest_spread (h : σ.Marks b) (hn : σ.loops ≠ []) :
    closeNest σ.frame σ.loops.length (b.spread σ) = (b.close σ.frame .loops).2.spread σ := by
  obtain ⟨l, ls, hl⟩ := List.exists_cons_of_ne_nil hn
  have refused {e : BuildError} (hc : ∀ k, k ≤ ls.length → ∀ c : Builder,
      c.frames = (b.spread σ).frames → c.close (σ.frame + k) .loops = (.error e, c.record e)) :
      closeNest σ.frame σ.loops.length (b.spread σ) = (b.record e).spread σ := by
    rw [hl]
    exact closeNest_refused hc
  cases hb : b.frames with
  | nil =>
      have hs : (b.spread σ).frames = [] := by simp [spread, hb]
      rw [close_of_nil .loops hb]
      exact refused fun k _ c hc => close_of_nil .loops (hc.trans hs)
  | cons f fs =>
      have hfs : fs ⊆ b.frames := hb ▸ List.subset_cons_self f fs
      obtain ⟨hne, hs⟩ | ⟨hx, -, -, -, hi, hs⟩ := h.cases (hb ▸ List.mem_cons_self : f ∈ b.frames)
      · have hs : (b.spread σ).frames = { f with id := σ.place f.id } :: fs.flatMap σ.spread := by
          simp [spread, hb, hs]
        rw [close_of_ne .loops hb hne]
        refine refused fun k hk c hc => ?_
        have hk : k < σ.loops.length := by
          rw [hl, List.length_cons]
          omega
        have ho := shift_outside (n := σ.loops.length) hne
        have hid : σ.place f.id ≠ σ.frame + k := by
          rw [Site.place]
          omega
        rw [close_of_ne .loops (hc.trans hs) hid]
        simp only [missed, any_site_spread h hk hfs]
        rfl
      · have hf : b.frames = ⟨σ.frame, σ.scope, f.stmts⟩ :: fs := by rw [hb, ← hi, ← hx]
        have hs : (b.spread σ).frames =
            nest σ.frame f.stmts (l :: ls) ++ fs.flatMap σ.spread := by
          simp [spread, hb, Site.spread_of_eq hi, hl]
        have hheads : σ.loops.reverse.map Head.loop ≠ [] := by simp [hn]
        have hc := close_wrap hf hheads .loops
        rw [hc, hl, List.length_cons, closeNest_nest hs, wrapped_spread (h.pop hb)]

end Builder

/-! The opening. -/

/-- The supply after `n` identities have been handed out. -/
def Supply.skip (s : Supply) (n : Nat) : Supply := { s with used := s.used + n }

theorem Supply.take_skip (s : Supply) (n : Nat) : s.take.2.skip n = s.skip (n + 1) :=
  congrArg (Supply.mk s.stream) (by rw [Nat.add_comm n, ← Nat.add_assoc]; rfl)

/-- A literal, and below zero. -/
def Expr.Negative (e : Expr) : Prop := ∃ k, e.asInt? = some k ∧ k.toInt < 0

theorem subExact_zero (x : Int64) : subExact x 0 = .ok x := by
  rw [subExact_eq_ok_iff]
  simp

theorem Expr.subFolded_zero (e : Expr) (d : DataType) : e.subFolded (.int 0 d) = .ok e := by
  cases e with
  | int x d' => simp [subFolded, subExact_zero]
  | _ => rfl

namespace Opening

/-- The loops over `[0, e)` for the extents `e`, with variables named by their places. -/
def loopRow (c : Config) (name : Nat → String) : Nat → List Expr → Supply → List Loop
  | _, [], _ => []
  | k, e :: es, s =>
      let dtype := c.loopType (.int32 0) e
      .over .serial (Var.fresh (name k) dtype s).1 ⟨.int 0 dtype, e.asIndex dtype⟩ ∅ ::
        loopRow c name (k + 1) es s.take.2

theorem length_loopRow (c : Config) (name : Nat → String) (k : Nat) (es : List Expr) (s : Supply) :
    (loopRow c name k es s).length = es.length := by
  induction es generalizing k s with
  | nil => rfl
  | cons e es ih => simp [loopRow, ih]

theorem gridLoops_eq_row (b : Builder) (k : Nat) (es : List Expr) (s : Supply) :
    gridLoops b k es s =
      .ok ((loopRow b.config (fun k => "i" ++ toString k) k es s).map fun l => (l.var, .loop l),
        s.skip es.length) := by
  induction es generalizing k s with
  | nil => rfl
  | cons e es ih =>
      simp only [gridLoops, gridLoop, Attempt.bind_apply, Attempt.fresh_apply, Attempt.pure_apply]
      rw [ih]
      have hs : (Var.fresh ("i" ++ toString k) (b.config.loopType (.int32 0) e) s).2.skip
          es.length = s.skip (es.length + 1) := s.take_skip es.length
      rw [hs]
      rfl

/-- A grid opens one scope for all of its loops. -/
theorem scope_grid (b : Builder) (es : List Expr) (s : Supply) :
    let row := loopRow b.config (fun k => "i" ++ toString k) 0 es s
    Opening.scope b (.grid es) s =
      .ok ((.wrap { kind := .loops, heads := row.map .loop }, .vars (row.map Loop.var)),
        s.skip es.length) := by
  intro row
  simp only [scope, Attempt.bind_apply, Attempt.pure_apply, gridLoops_eq_row, wrapping,
    List.map_map]
  rfl

/-- Over an extent that is no literal below zero there is a loop. -/
theorem scope_serial (b : Builder) {e : Expr} (he : ¬e.Negative) (s : Supply) :
    let dtype := b.config.loopType (.int32 0) e
    let v := (Var.fresh "i" dtype s).1
    Opening.scope b (.loop .serial (.int32 0) e none) s =
      .ok ((.wrap { kind := .loops, heads :=
        [.loop (.over .serial v ⟨.int 0 dtype, e.asIndex dtype⟩ ∅)] }, .var v), s.take.2) := by
  have hr : ¬(Expr.int32 0).Reversed e := by
    rintro ⟨lo, hi, hlo, hhi, hlt⟩
    cases hlo
    exact he ⟨hi, hhi, hlt⟩
  have hc : checkBounds "serial" (.int32 0) e = .ok () := checkBounds_eq_ok _ hr
  have hx (d : DataType) :
      (e.asIndex d).subFolded ((Expr.int32 0).asIndex d) = .ok (e.asIndex d) :=
    Expr.subFolded_zero (e.asIndex d) d
  simp only [scope, singleLoop, Attempt.bind_apply, Attempt.check_apply, Attempt.exact_apply,
    Attempt.fresh_apply, Attempt.pure_apply, LoopMode.op, hc, hx]
  rfl

theorem ids_loopRow (c : Config) (name : Nat → String) (k : Nat) (es : List Expr) (s : Supply) :
    (loopRow c name k es s).map (fun l => l.var.id) =
      (List.range es.length).map fun n => s.stream (s.used + n) := by
  induction es generalizing k s with
  | nil => rfl
  | cons e es ih =>
      rw [loopRow, List.map_cons, ih, List.length_cons, List.range_succ_eq_map, List.map_cons,
        List.map_map]
      congr 1
      apply List.map_congr_left
      intro n _
      change s.stream (s.used + 1 + n) = s.stream (s.used + (n + 1))
      rw [Nat.add_right_comm, Nat.add_assoc]

/-- Names are all that two rows differ in. -/
theorem mask_loopRow (c : Config) (name name' : Nat → String) (k : Nat) (es : List Expr)
    (s : Supply) :
    mask id (loopRow c name k es s) = mask id (loopRow c name' k es s) := by
  induction es generalizing k s with
  | nil => rfl
  | cons e es ih => exact congrArg₂ List.cons rfl (ih (k + 1) s.take.2)

end Opening

namespace Builder

/-- The loops, opened one inside the other. -/
def stacked (b : Builder) (row : List Loop) : Builder :=
  row.foldl (fun b l => b.push (.wrap { kind := .loops, heads := [.loop l] })) b

theorem stacked_append (b : Builder) (row : List Loop) (l : Loop) :
    b.stacked (row ++ [l]) = (b.stacked row).push (.wrap { kind := .loops, heads := [.loop l] }) :=
  List.foldl_append

theorem stacked_eq (b : Builder) (row : List Loop) :
    b.stacked row = { b with
      frames := nest b.nextId [] row.reverse ++ b.frames
      nextId := b.nextId + row.length } := by
  induction row using List.reverseRecOn with
  | nil => rfl
  | append_singleton row l ih =>
      rw [stacked_append, ih, List.reverse_append, List.length_append]
      simp [push, nest, Nat.add_assoc]

theorem mask_stacked {b b' : Builder} (hb : mask id b = mask id b') {row row' : List Loop}
    (h : mask id row = mask id row') : mask id (b.stacked row) = mask id (b'.stacked row') := by
  induction row generalizing b b' row' with
  | nil =>
      obtain ⟨-, rfl⟩ | ⟨_, _, _, _, h, -⟩ := list_alike h
      · exact hb
      · cases h
  | cons l ls ih =>
      obtain ⟨he, -⟩ | ⟨_, _, l', ls', he, rfl, hl, hls⟩ := list_alike h
      · cases he
      · cases he
        have hx : mask id (Scope.wrap { kind := .loops, heads := [.loop l] }) =
            mask id (Scope.wrap { kind := .loops, heads := [.loop l'] }) :=
          congrArg (fun l => Scope.wrap { kind := .loops, heads := [.loop l] }) hl
        have hp : mask id (b.push (.wrap { kind := .loops, heads := [.loop l] })) =
            mask id (b'.push (.wrap { kind := .loops, heads := [.loop l'] })) := by
          rw [← push_mask, hb, hx, push_mask]
        exact ih hp hls

end Builder

namespace Site

/-- The site of a grid that is to be opened. -/
def ofRow (b : Builder) (row : List Loop) (h : (row.map fun l => l.var.id).Nodup) : Site where
  frame := b.nextId
  loops := row.reverse
  distinct := by
    rw [List.map_reverse]
    exact List.nodup_reverse.2 h

variable {b : Builder} {row : List Loop} {h : (row.map fun l => l.var.id).Nodup}

theorem scope_ofRow : (ofRow b row h).scope = .wrap { kind := .loops, heads := row.map .loop } := by
  rw [scope, ofRow, List.reverse_reverse]

theorem marks_ofRow (hb : ∀ f ∈ b.frames, f.id < b.nextId) (hr : row ≠ []) :
    (ofRow b row h).Marks (b.push (ofRow b row h).scope) where
  next := Nat.lt_succ_self _
  scope := by
    intro f hf hid
    obtain rfl | hf := List.mem_cons.1 hf
    · exact ⟨rfl, by simpa [ofRow] using hr⟩
    · exact absurd hid (Nat.ne_of_lt (hb f hf))

/-- The nest of the scope of a grid is made of its loops, opened one inside the other. -/
theorem spread_push_ofRow (hb : ∀ f ∈ b.frames, f.id < b.nextId) :
    (b.push (ofRow b row h).scope).spread (ofRow b row h) = b.stacked row := by
  have hs : b.frames.flatMap (ofRow b row h).spread = b.frames := flatMap_spread_of_lt hb
  have htop : (ofRow b row h).spread ⟨b.nextId, (ofRow b row h).scope, []⟩ =
      nest b.nextId [] row.reverse := spread_of_eq rfl
  have hnext : (ofRow b row h).place (b.nextId + 1) = b.nextId + row.length := by
    change shift row.reverse.length b.nextId (b.nextId + 1) = _
    rw [shift_of_lt (Nat.lt_succ_self _), List.length_reverse]
    omega
  rw [Builder.stacked_eq]
  simp only [Builder.spread, Builder.push, List.flatMap_cons, hs, htop, hnext]

end Site

end TensorProgram
