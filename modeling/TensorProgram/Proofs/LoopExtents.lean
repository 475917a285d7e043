import TensorProgram.Proofs.LoopRange
import TensorProgram.Proofs.Placement

/-!
The extents of loops. Every loop of an output was made by an opening. A loop between two bounds is
opened only if literal bounds are in order, so that a literal extent is never negative; the extents
of a grid are taken as they are given.
-/

namespace TensorProgram

theorem Listing.mem_of_mem_heads_nest {x : List Head × Head} {around hs : List Head}
    (h : x ∈ Listing.heads.nest around hs) : x.2 ∈ hs := by
  induction hs generalizing around with
  | nil => cases h
  | cons k hs ih =>
      obtain h | h := List.mem_append.1 h
      · rw [List.mem_singleton.1 h]
        exact List.mem_cons_self
      · exact List.mem_cons_of_mem k (ih h)

namespace Stmt

theorem heads_of_child {s c : Stmt} (hc : c ∈ s.children) (around : List Head) :
    ∃ inner, c.heads inner ⊆ s.heads around := by
  cases s with
  | seq ss =>
      refine ⟨around, fun x hx => ?_⟩
      rw [heads, Listing.stmt, Listing.stmts_eq]
      exact List.mem_flatMap.2 ⟨c, hc, hx⟩
  | block r b init body =>
      refine ⟨around, fun x hx => ?_⟩
      simp only [heads, Listing.stmt, Listing.option_eq, List.mem_append, List.mem_flatMap]
      obtain hc | hc := List.mem_append.1 hc
      · exact .inl (.inr ⟨c, hc, hx⟩)
      · exact .inr (List.mem_singleton.1 hc ▸ hx)
  | branch _ s e =>
      refine ⟨around, fun x hx => ?_⟩
      simp only [heads, Listing.stmt, Listing.option_eq, List.mem_append, List.mem_flatMap]
      obtain rfl | hc := List.mem_cons.1 hc
      · exact .inl hx
      · exact .inr ⟨c, hc, hx⟩
  | under head body =>
      obtain rfl := List.mem_singleton.1 hc
      exact ⟨head :: around, List.subset_append_right _ _⟩
  | leaf l => cases hc

/-- What occurs in a statement lists its heads there. -/
theorem Occurs.heads_subset {t s : Stmt} {outer : List Stmt} (h : t.Occurs outer s)
    (around : List Head) : ∃ inner, s.heads inner ⊆ t.heads around := by
  induction h with
  | root => exact ⟨around, List.Subset.refl _⟩
  | child parent hc ih =>
      obtain ⟨inner, hs⟩ := ih
      obtain ⟨inner', hs'⟩ := heads_of_child hc inner
      exact ⟨inner', fun _ hx => hs (hs' hx)⟩

end Stmt

/-- Every head that a session has made so far was made by one of its openings. -/
theorem Builder.Lived.made {config : Config} {H : List Event} {b : Builder}
    (h : Lived config H b) (hc : H.findSome? Event.error? = none) :
    ∀ x ∈ Listing.heads.builder b, ∃ k o v b₀ s scope s', .opened k o v ∈ H ∧
      o.scope b₀ s = .ok ((scope, v), s') ∧ x.2 ∈ scope.heads := by
  induction h with
  | start => simp [Listing.builder, Listing.frames]
  | @step H b e b' past last ih =>
      rw [List.findSome?_append, Option.or_eq_none_iff] at hc
      obtain ⟨hs, as, ha, hadds⟩ := last.took.adds (by simpa using hc.2) past.stacked
      intro x hx
      have haxes : as.flatMap Listing.heads.axis = [] := List.flatMap_eq_nil_iff.2 fun _ _ => rfl
      rw [(hadds Listing.heads).mem_iff, haxes, List.append_nil, List.mem_append] at hx
      obtain hx | hx := hx
      · obtain ⟨k, o, v, b₀, s, scope, s', hk, made⟩ := ih hc.1 x hx
        exact ⟨k, o, v, b₀, s, scope, s', List.mem_append_left _ hk, made⟩
      · have hm := Listing.mem_of_mem_heads_nest hx
        cases e with
        | opened k o v =>
            obtain ⟨-, scope, s, s', hscope, rfl⟩ := ha
            exact ⟨k, o, v, b, s, scope, s', by simp, hscope, hm⟩
        | called _ _ _ | entered _ | closed _ | discarded _ _ | failed _ =>
            obtain ⟨rfl, -⟩ := ha
            cases hm

/-- Only two literals have a difference that is one. -/
theorem Expr.asInt?_subFolded {a b e : Expr} {n : Int64} (h : a.subFolded b = .ok e)
    (hn : e.asInt? = some n) :
    ∃ x y, a.asInt? = some x ∧ b.asInt? = some y ∧ n.toInt = x.toInt - y.toInt := by
  simp only [subFolded] at h
  split at h
  · rename_i x d y d'
    cases hs : subExact x y with
    | error o => simp [hs] at h
    | ok z =>
        simp only [hs, ok_bind, pure_eq_ok, Except.ok.injEq] at h
        rw [← h] at hn
        cases hn
        exact ⟨x, y, rfl, rfl, subExact_eq_ok_iff.1 hs⟩
  · rename_i y d ha
    simp only [pure_eq_ok, Except.ok.injEq] at h
    rw [← h] at hn
    split at hn
    · obtain ⟨d', rfl⟩ := asInt?_eq_some.1 hn
      exact (ha n d' rfl).elim
    · cases hn
  · simp only [pure_eq_ok, Except.ok.injEq] at h
    rw [← h] at hn
    cases hn

namespace Opening

variable {b : Builder} {o : Opening} {v : Value} {x : Scope} {s s' : Supply}

theorem not_reversed_of_scope {mode : LoopMode} {start stop : Expr}
    {annotations : Option Annotations}
    (h : (loop mode start stop annotations).scope b s = .ok ((x, v), s')) :
    ¬start.Reversed stop := by
  rintro ⟨lo, hi, hlo, hhi, hlt⟩
  have hr := singleLoop_of_reversed b mode (annotations.getD ∅) s hlo hhi hlt
  simp [Opening.scope, Attempt.bind_apply, hr] at h

/-- A negative literal extent is one that a grid was given. -/
theorem grid_of_negative (h : o.scope b s = .ok ((x, v), s')) {l : Loop} (hl : .loop l ∈ x.heads)
    {n : Int64} (hn : l.extent.asInt? = some n) (neg : n.toInt < 0) :
    ∃ extents vs e, o = .grid extents ∧ v = .vars vs ∧ (e, l.var) ∈ extents.zip vs ∧
      e.asInt? = some n := by
  have hm := Opening.scope_makes h
  cases hm with
  | loop mode start stop annotations type length =>
      obtain rfl := Head.loop.inj (List.mem_singleton.1 hl)
      rw [LoopMode.node_extent] at hn
      obtain ⟨hi, lo, hhi, hlo, hsub⟩ := Expr.asInt?_subFolded length hn
      rw [Expr.asInt?_asIndex] at hhi hlo
      exact absurd ⟨lo, hi, hlo, hhi, by omega⟩ (not_reversed_of_scope h)
  | @grid extents vs length =>
      simp only [Scope.heads, ← List.map_uncurry_zip_eq_zipWith, List.mem_map] at hl
      obtain ⟨⟨e, w⟩, he, hw⟩ := hl
      obtain rfl := Head.loop.inj hw
      exact ⟨extents, vs, e, rfl, rfl, he, by rwa [← Expr.asInt?_asIndex w.dtype]⟩
  | _ => simp [Scope.heads] at hl

end Opening

/-- What has been opened could be opened. -/
theorem Builder.Lived.scope_of_opened {config : Config} {H : List Event} {b : Builder}
    (h : Lived config H b) {k : Nat} {o : Opening} {v : Value} (hk : .opened k o v ∈ H) :
    ∃ b₀ s x s', o.scope b₀ s = .ok ((x, v), s') := by
  induction h with
  | start => cases hk
  | @step H b e b' past last ih =>
      obtain hk | hk := List.mem_append.1 hk
      · exact ih hk
      · obtain rfl := List.mem_singleton.1 hk
        obtain ⟨x, s, s', hx, -⟩ := last.took
        exact ⟨b, s, x, s', hx⟩

namespace Program

variable {supply : Supply} {acts : List Action} {id : SessionId}

/-- No loop is opened between literal bounds in the wrong order, and a loop of the output whose
extent is a negative literal is one of a grid that was given this extent. -/
theorem negative_extents_of_grids {out : Output} (hid : id ∈ (run supply acts).sessions)
    (h : ((run supply acts).world.finish id).1 = .ok out) :
    (∀ k mode start stop annotations v,
      .opened k (.loop mode start stop annotations) v ∈ (run supply acts).history id →
        ¬start.Reversed stop) ∧
    ∀ around l body n, out.body.Occurs around (.under (.loop l) body) →
      l.extent.asInt? = some n → 0 ≤ n.toInt ∨ ∃ k extents vs e,
        .opened k (.grid extents) (.vars vs) ∈ (run supply acts).history id ∧
          (e, l.var) ∈ extents.zip vs ∧ e.asInt? = some n := by
  obtain ⟨config, H, hh, hl⟩ := lived_run hid
  obtain ⟨he, hf, hr⟩ := Builder.finish_eq_ok h
  have opened_iff {k : Nat} {o : Opening} {v : Value} :
      .opened k o v ∈ (run supply acts).history id ↔ .opened k o v ∈ H := by simp [hh]
  constructor
  · intro k mode start stop annotations v hk
    obtain ⟨b, s, x, s', hx⟩ := hl.scope_of_opened (opened_iff.1 hk)
    exact Opening.not_reversed_of_scope hx
  · intro around l body n ho hn
    have hm : Listing.heads.builder ((run supply acts).world.builder id) = out.body.heads [] := by
      simp [Listing.builder, Listing.frames, hf, hr, Stmt.heads]
    obtain ⟨inner, hsub⟩ := ho.heads_subset []
    have hloop : (inner, Head.loop l) ∈ out.body.heads [] := hsub List.mem_cons_self
    obtain ⟨k, o, v, b, s, x, s', hk, hx, hmem⟩ :=
      hl.made (hl.firstError_eq ▸ he) _ (hm ▸ hloop)
    by_cases neg : n.toInt < 0
    · obtain ⟨extents, vs, e, rfl, rfl, hz, hen⟩ := Opening.grid_of_negative hx hmem hn neg
      exact .inr ⟨k, extents, vs, e, opened_iff.2 hk, hz, hen⟩
    · exact .inl (Int.not_lt.1 neg)

/-- A grid of two dimensions, one of which has a negative extent, in a loop of three steps. -/
def shrinking : List Action := [.enter 0 {},
  .openScope 0 (.loop .serial (.int32 2) (.int32 5) none),
  .openScope 0 (.grid [.int32 4, .int32 (-3)]), .close ⟨0, 1, .loops⟩, .close ⟨0, 0, .loops⟩]

theorem negative_extents_of_grids_shrinking :
    ∃ out, ((run .counting shrinking).world.finish 0).1 = .ok out ∧
      ∀ around l body n, out.body.Occurs around (.under (.loop l) body) →
        l.extent.asInt? = some n → 0 ≤ n.toInt ∨ ∃ k extents vs e,
          .opened k (.grid extents) (.vars vs) ∈ (run .counting shrinking).history 0 ∧
            (e, l.var) ∈ extents.zip vs ∧ e.asInt? = some n := by
  have hid : 0 ∈ (run .counting shrinking).sessions := by decide
  refine ⟨_, rfl, ?_⟩
  exact (negative_extents_of_grids hid rfl).2

/-- A grid is opened with an extent of minus three and makes a loop of it, where a loop from zero
to minus three is refused. -/
theorem negative_extent_accepted :
    let w := (run .counting [.enter 0 {}]).world
    (w.openScope 0 (.loop .serial (.int32 0) (.int32 (-3)) none)).1 =
      .error (.refused (.emptyRange "serial" 0 (-3))) ∧
    ∃ out l body n, ((run .counting [.enter 0 {}, .openScope 0 (.grid [.int32 (-3)]),
        .close ⟨0, 0, .loops⟩]).world.finish 0).1 = .ok out ∧
      out.body.Occurs [] (.under (.loop l) body) ∧ l.extent.asInt? = some n ∧ n.toInt < 0 :=
  ⟨rfl, _, _, _, _, rfl, .root, rfl, by decide⟩

end Program

end TensorProgram
