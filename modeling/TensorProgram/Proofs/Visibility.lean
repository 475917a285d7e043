import TensorProgram.Proofs.Lexical
import TensorProgram.Proofs.Sessions

/-!
Visibility. A buffer can be realized where it is visible: it has been declared in a scope that is
still open, by one of the calls that give back a buffer, or by the allocation that the scope is.
What has been declared in a scope stays there for as long as the scope is open, and is gone with
it. Only a buffer behind a parameter can go before, when a handle for an argument turns out to be
that parameter.
-/

namespace TensorProgram

namespace Event

/-- The buffer `p.2` was declared when the scope `k` was the innermost one, and is still there: if
it lies behind the parameter `p.1`, no handle has been that parameter since. -/
def Stands (k : Nat × ScopeKind) (p : Option VarId × Buffer) (H : List Event) : Prop :=
  ∃ past e rest, H = past ++ e :: rest ∧ e.keyed? = p.1 ∧ e.declared? = some p.2 ∧
    (unclosed (past ++ [e])).getLast? = some k ∧ ∀ i ∈ p.1, ∀ d ∈ rest, d.handle? ≠ some i

/-- Some buffer with the data and the name of `x` was declared in a scope that is still open, and
is still there. -/
def Visible (x : Buffer) (H : List Event) : Prop :=
  ∃ k ∈ unclosed H, ∃ p, Stands k p H ∧ p.2.data.id = x.data.id ∧ p.2.name = x.name

variable {k : Nat × ScopeKind} {p : Option VarId × Buffer} {x : Buffer} {H : List Event} {e : Event}

theorem stands_snoc : Stands k p (H ++ [e]) ↔
    Stands k p H ∧ (∀ i ∈ p.1, e.handle? ≠ some i) ∨
      e.keyed? = p.1 ∧ e.declared? = some p.2 ∧ (unclosed (H ++ [e])).getLast? = some k := by
  constructor
  · rintro ⟨past, d, rest, hH, hk, hx, hlast, hrest⟩
    obtain rfl | ⟨rest', d', rfl⟩ := List.eq_nil_or_concat rest
    · obtain ⟨rfl, hd⟩ := List.append_inj' hH rfl
      obtain rfl := List.singleton_inj.1 hd
      exact .inr ⟨hk, hx, hlast⟩
    · rw [List.concat_eq_append, ← List.cons_append, ← List.append_assoc] at hH
      obtain ⟨rfl, hd⟩ := List.append_inj' hH rfl
      obtain rfl := List.singleton_inj.1 hd
      rw [List.concat_eq_append] at hrest
      refine .inl ⟨⟨past, d, rest', rfl, hk, hx, hlast, fun i hi c hc => ?_⟩, fun i hi => ?_⟩
      · exact hrest i hi c (List.mem_append_left _ hc)
      · exact hrest i hi e (List.mem_append_right _ List.mem_cons_self)
  · rintro (⟨⟨past, d, rest, rfl, hk, hx, hlast, hrest⟩, he⟩ | ⟨hk, hx, hlast⟩)
    · refine ⟨past, d, rest ++ [e], by simp, hk, hx, hlast, fun i hi c hc => ?_⟩
      obtain hc | hc := List.mem_append.1 hc
      · exact hrest i hi c hc
      · exact List.mem_singleton.1 hc ▸ he i hi
    · exact ⟨H, e, [], rfl, hk, hx, hlast, by simp⟩

/-- Nothing is declared in a scope before it is opened. -/
theorem Stands.opened (h : Stands k p H) : k ∈ H.filterMap opened? := by
  obtain ⟨past, e, rest, rfl, -, -, hk, -⟩ := h
  have hm := (List.mem_filter.1 (List.mem_of_getLast? hk)).1
  rw [← List.singleton_append, ← List.append_assoc, List.filterMap_append]
  exact List.mem_append_left _ hm

theorem visible_entered {config : Config} : Visible x (.entered config :: H) ↔ Visible x H := by
  have same {k : Nat × ScopeKind} {p : Option VarId × Buffer} :
      Stands k p (.entered config :: H) ↔ Stands k p H := by
    constructor
    · rintro ⟨past, e, rest, hH, hk, hx, hlast, hrest⟩
      cases past with
      | nil =>
          obtain ⟨rfl, -⟩ := List.cons.inj hH
          cases hx
      | cons d past =>
          obtain ⟨rfl, rfl⟩ := List.cons.inj hH
          exact ⟨past, e, rest, rfl, hk, hx, hlast, hrest⟩
    · rintro ⟨past, e, rest, rfl, hk, hx, hlast, hrest⟩
      exact ⟨.entered config :: past, e, rest, rfl, hk, hx, hlast, hrest⟩
  simp only [Visible, same, unclosed_entered]

end Event

/-- The buffers that the scope declares, each with the parameter that it lies behind, if it does. -/
def Scope.holdings : Scope → List (Option VarId × Buffer)
  | .func g => g.bufferMap.entries.map (fun p => (some p.1.id, p.2)) ++
      (g.preflattened.values ++ g.allocs).map (Prod.mk none)
  | x => x.buffers.map (Prod.mk none)

theorem Scope.map_snd_holdings (x : Scope) : x.holdings.map Prod.snd = x.buffers := by
  cases x with
  | func g =>
      simp [holdings, buffers, OrderedMap.values, Function.comp_def]
  | block _ | branch _ | blockInit | thenCase | elseCase | wrap _ =>
      simp [holdings, Function.comp_def]

theorem Scope.steady_holdings : Scope.Steady Scope.holdings where
  init _ _ := rfl
  branch _ _ := rfl

/-- What a scope declares is what its opening gave back, and lies behind no parameter. -/
theorem Opening.Makes.holdings {b : Builder} {o : Opening} {v : Value} {x : Scope}
    (h : o.Makes b v x) (k : Nat) :
    x.holdings = (Event.opened k o v).declared?.toList.map (Prod.mk none) := by
  cases h <;> rfl

/-- After an insertion there is one value under the key, and what was under the others. -/
theorem OrderedMap.mem_put_iff {α β κ : Type} [Keyed α κ] [DecidableEq κ] {a : α} {b : β}
    {l : List (α × β)} (hl : (l.map fun e => Keyed.key e.1).Nodup) {q : κ × β} :
    q ∈ (put a b l).map (fun e => (Keyed.key e.1, e.2)) ↔
      q ∈ l.map (fun e => (Keyed.key e.1, e.2)) ∧ q.1 ≠ Keyed.key a ∨ q = (Keyed.key a, b) := by
  induction l with
  | nil => simp [put]
  | cons x l ih =>
      obtain ⟨hx, hl⟩ := List.nodup_cons.1 hl
      rw [put]
      split
      · rename_i he
        have hne : q ∈ l.map (fun e => (Keyed.key e.1, e.2)) → q.1 ≠ Keyed.key a := by
          intro hq hk
          obtain ⟨e, hm, rfl⟩ := List.mem_map.1 hq
          exact hx (List.mem_map.2 ⟨e, hm, hk.trans he.symm⟩)
        simp only [List.map_cons, List.mem_cons, he]
        constructor
        · rintro (rfl | hq)
          · exact .inr rfl
          · exact .inl ⟨.inr hq, hne hq⟩
        · rintro (⟨rfl | hq, hk⟩ | rfl)
          · exact absurd rfl hk
          · exact .inr hq
          · exact .inl rfl
      · rename_i he
        simp only [List.map_cons, List.mem_cons, ih hl]
        constructor
        · rintro (rfl | ⟨hq, hk⟩ | rfl)
          · exact .inl ⟨.inl rfl, he⟩
          · exact .inl ⟨.inr hq, hk⟩
          · exact .inr rfl
        · rintro (⟨rfl | hq, hk⟩ | rfl)
          · exact .inl rfl
          · exact .inr (.inl ⟨hq, hk⟩)
          · exact .inr (.inr rfl)

/-- A buffer that is put behind a variable takes the place of what lies behind it already. -/
theorem Scope.mem_holdings_insert (g : FuncScope) (vs : List Var) (v : Var) (x : Buffer)
    {q : Option VarId × Buffer} :
    q ∈ (func { g with params := vs, bufferMap := g.bufferMap.insert v x }).holdings ↔
      q ∈ (func g).holdings ∧ q.1 ≠ some v.id ∨ q = (some v.id, x) := by
  obtain ⟨i, y⟩ := q
  cases i with
  | none => simp [holdings]
  | some i =>
      have hmap {l : List (Var × Buffer)} : (some i, y) ∈ l.map (fun p => (some p.1.id, p.2)) ↔
          (i, y) ∈ l.map fun p => (Keyed.key p.1, p.2) := by
        simp [Keyed.key]
      have hnone {l : List Buffer} : (some i, y) ∉ l.map (Prod.mk none) := by simp
      have hput := OrderedMap.mem_put_iff (a := v) (b := x) g.bufferMap.nodup (q := (i, y))
      simp only [holdings, List.mem_append, hmap, hnone, or_false, OrderedMap.entries_insert, hput]
      simp [Keyed.key]

/-- The event adds `x` to `ps`, in the place of what lies behind the handle that it makes. -/
def Event.Gains (e : Event) (x : Buffer) (ps qs : List (Option VarId × Buffer)) : Prop :=
  ∀ q, q ∈ qs ↔ q ∈ ps ∧ (∀ i ∈ q.1, e.handle? ≠ some i) ∨ q = (e.keyed?, x)

theorem Event.Gains.of_perm {e : Event} {x : Buffer} {ps qs : List (Option VarId × Buffer)}
    (handle : e.handle? = none) (h : qs.Perm ((e.keyed?, x) :: ps)) : e.Gains x ps qs := by
  intro q
  simp [h.mem_iff, handle, or_comm]

theorem Builder.told_registerThread (b : Builder) (v : Var) (tag : String) :
    (b.registerThread v tag).told Scope.holdings = b.told Scope.holdings := by
  rw [told, told, registerThread]
  dsimp only
  generalize b.frames = fs
  induction fs with
  | nil => rfl
  | cons f fs ih =>
      cases hf : f.scope with
      | func g => simp [updateFunc, hf, Frame.key, Frame.kind, Scope.kind, Scope.holdings]
      | block _ | blockInit | branch _ | thenCase | elseCase | wrap _ =>
          simp only [updateFunc, hf, List.map_cons, ih]

/-- A call adds the buffer that it declares to those of the innermost scope. If it makes a handle
for it, there is no other scope. -/
theorem Call.Does.holdings {b b' : Builder} {s : Supply} {c : Call} {v : Value} {eff : Effect}
    (h : c.Does b s v eff) (hp : b.performed eff = .ok b')
    (hb : Scope.Stacked (b.frames.map Frame.scope)) :
    let e := Event.called s c v
    e.declared? = none ∧ e.handle? = none ∧ b'.told Scope.holdings = b.told Scope.holdings ∨
    ∃ x k ps qs rest, e.declared? = some x ∧ b.told Scope.holdings = (k, ps) :: rest ∧
      b'.told Scope.holdings = (k, qs) :: rest ∧ e.Gains x ps qs ∧
      (e.handle? = none ∨ rest = []) := by
  intro e
  have adds {x : Buffer} {z z' : Scope} (hx : e.declared? = some x) (handle : e.handle? = none)
      (top : b.Top z) (kind : z'.kind = z.kind)
      (gains : z'.holdings.Perm ((e.keyed?, x) :: z.holdings)) :
      ∃ x k ps qs rest, e.declared? = some x ∧ b.told Scope.holdings = (k, ps) :: rest ∧
        (b.setTop z').told Scope.holdings = (k, qs) :: rest ∧ e.Gains x ps qs ∧
        (e.handle? = none ∨ rest = []) := by
    obtain ⟨k, rest, hb, hb'⟩ := Builder.told_setTop (φ := Scope.holdings) top kind
    exact ⟨x, k, _, _, rest, hx, hb, hb', .of_perm handle gains, .inl handle⟩
  cases h with
  | store _ _ _ | prefetch _ _ | evaluate _ => exact .inl ⟨rfl, rfl, Builder.told_appended hp⟩
  | envThread w =>
      cases hp
      exact .inl ⟨rfl, rfl, b.told_registerThread w w.name⟩
  | guard _ top _ | reads _ top _ | writes _ top _ | blockAttrs _ top _ | axis _ _ _ _ _ top
  | remap _ _ _ top _ | argVar _ _ top | funcName _ top _ | funcAttrs _ top _
  | funcRet _ top _ =>
      cases hp
      exact .inl ⟨rfl, rfl, Builder.told_setTop_eq top rfl rfl⟩
  | allocInBlock _ _ _ buffer top =>
      cases hp
      refine .inr (adds rfl rfl top rfl ?_)
      simp only [Scope.holdings, Scope.buffers, List.append_assoc, List.singleton_append]
      exact List.perm_middle.map (Prod.mk none)
  | allocInFunc _ _ _ buffer top =>
      cases hp
      refine .inr (adds rfl rfl top rfl ?_)
      simp only [Scope.holdings, ← List.append_assoc, List.map_append]
      exact List.perm_append_singleton _ _
  | matchRegion _ _ _ _ buffer top =>
      cases hp
      refine .inr (adds rfl rfl top rfl ?_)
      simp only [Scope.holdings, Scope.buffers, ← List.append_assoc, List.map_append]
      exact List.perm_append_singleton _ _
  | matchParam p _ _ _ buffer top free =>
      cases hp
      refine .inr (adds rfl rfl top rfl ?_)
      simp only [Scope.holdings, OrderedMap.entries_insert,
        OrderedMap.put_of_notMem _ _ (OrderedMap.notMem_of_contains free), List.map_append,
        List.append_assoc]
      exact List.perm_middle
  | preflattened _ _ _ _ buffer top _ free =>
      cases hp
      refine .inr (adds rfl rfl top rfl ?_)
      simp only [Scope.holdings, OrderedMap.values_insert (OrderedMap.notMem_of_contains free),
        List.append_assoc, List.singleton_append]
      exact ((List.perm_middle.map (Prod.mk none)).append_left _).trans List.perm_middle
  | @argBuffer name buffer g top =>
      cases hp
      let g' : FuncScope := { g with
        params := g.params ++ [(Var.fresh name .handle s).1]
        bufferMap := g.bufferMap.insert (Var.fresh name .handle s).1 { buffer with name } }
      obtain ⟨k, rest, hk, hk'⟩ := Builder.told_setTop (φ := Scope.holdings) top
        (rfl : (Scope.func g').kind = _)
      refine .inr ⟨_, k, _, _, rest, rfl, hk, hk', ?_, .inr ?_⟩
      · intro q
        have hne : (∀ i ∈ q.1, e.handle? ≠ some i) ↔ q.1 ≠ some s.take.1 := by
          cases q.1 with
          | none => simp
          | some i => simp [e, Event.handle?, eq_comm]
        rw [hne]
        exact Scope.mem_holdings_insert g _ _ _
      · obtain ⟨f, fs, hf, hg⟩ := top
        have hsit : Scope.SitsOn f.scope (fs.map Frame.scope) := by
          rw [hf] at hb
          exact hb.1
        rw [hg] at hsit
        rw [Builder.told, hf, List.map_cons] at hk
        rw [← (List.cons.inj hk).2, List.map_eq_nil_iff.1 hsit]
        rfl

/-- The scopes that are open tell which buffers have been declared in them. -/
def Builder.Remembers (b : Builder) (H : List Event) : Prop :=
  ∀ r ∈ b.told Scope.holdings, ∀ p, p ∈ r.2 ↔ Event.Stands r.1 p H

namespace Builder.Remembers

variable {H : List Event} {b b' : Builder} {e : Event}

theorem quiet (h : b.Remembers H) (he : e.declared? = none) (handle : e.handle? = none)
    (ht : b'.told Scope.holdings ⊆ b.told Scope.holdings) : b'.Remembers (H ++ [e]) := by
  intro r hr p
  rw [h r (ht hr), Event.stands_snoc]
  simp [he, handle]

/-- One scope is new or has got a new buffer, and it is the innermost one. -/
theorem declares {config : Config} (h : b.Remembers H) (hl : Lived config (H ++ [e]) b')
    {k : Nat × ScopeKind} {ps : List (Option VarId × Buffer)}
    {rest : List ((Nat × ScopeKind) × List (Option VarId × Buffer))}
    (ht : b'.told Scope.holdings = (k, ps) :: rest) (hrest : rest ⊆ b.told Scope.holdings)
    (handle : e.handle? = none ∨ rest = [])
    (gains : ∀ p, p ∈ ps ↔ Event.Stands k p H ∧ (∀ i ∈ p.1, e.handle? ≠ some i) ∨
      e.keyed? = p.1 ∧ e.declared? = some p.2) : b'.Remembers (H ++ [e]) := by
  obtain ⟨hlast, hne⟩ := hl.told_innermost ht
  intro r hr p
  rw [ht] at hr
  simp only [Event.stands_snoc, hlast, Option.some.injEq]
  obtain rfl | hr := List.mem_cons.1 hr
  · simpa using gains p
  · have hk : k ≠ r.1 := Ne.symm (hne r hr)
    obtain handle | rfl := handle
    · simpa [hk, handle] using h r (hrest hr) p
    · cases hr

end Builder.Remembers

theorem Builder.Lived.remembers {config : Config} {H : List Event} {b : Builder}
    (h : Lived config H b) : b.Remembers H := by
  induction h with
  | start => simp [Remembers, told]
  | @step H b e b' past last ih =>
      have took := last.took
      have now := past.step last
      cases e with
      | entered _ | failed _ | closed _ | discarded _ _ =>
          exact ih.quiet rfl rfl (took.told_subset Scope.steady_holdings rfl (by simp))
      | opened id o v =>
          obtain ⟨x, s, s', hx, -, rfl⟩ := took
          have hm := (Opening.scope_makes hx).holdings id
          refine ih.declares now rfl (List.Subset.refl _) (.inl rfl) fun p => ?_
          rw [hm]
          constructor
          · intro hp
            obtain ⟨y, hy, rfl⟩ := List.mem_map.1 hp
            exact .inr ⟨rfl, Option.mem_toList.1 hy⟩
          · rintro (⟨hd, -⟩ | ⟨hk, hx⟩)
            · exact absurd (past.lt_of_opened hd.opened) (Nat.lt_irrefl _)
            · exact List.mem_map.2 ⟨p.2, Option.mem_toList.2 hx, Prod.ext hk rfl⟩
      | called s c v =>
          obtain ⟨eff, s', he, hp⟩ := took
          obtain ⟨hn, handle, ht⟩ | ⟨x, k, ps, qs, rest, hx, hb, hb', gains, handle⟩ :=
            (Call.effect_does he).holdings hp past.stacked
          · exact ih.quiet hn handle (by rw [ht]; exact List.Subset.refl _)
          · have hk := ih (k, ps) (by rw [hb]; exact List.mem_cons_self)
            have hrest : rest ⊆ b.told Scope.holdings := by
              rw [hb]
              exact List.subset_cons_self _ _
            refine ih.declares now hb' hrest handle fun p => ?_
            rw [gains p, hk p, hx, Prod.ext_iff, Option.some.injEq]
            exact or_congr_right (and_congr eq_comm eq_comm)

namespace Builder.Lived

variable {config : Config} {H : List Event} {b : Builder} {x : Buffer}

/-- A buffer is found where it is visible. -/
theorem declares_iff_visible (h : Lived config H b) : b.declares x ↔ Event.Visible x H := by
  have same (y : Buffer) : y.sameAs x ↔ y.data.id = x.data.id ∧ y.name = x.name := by
    simp [Buffer.sameAs, Var.same]
  simp only [Builder.declares, List.any_eq_true, same]
  constructor
  · rintro ⟨f, hf, y, hy, hxy⟩
    have hr : (f.key, f.scope.holdings) ∈ b.told Scope.holdings := List.mem_map.2 ⟨f, hf, rfl⟩
    rw [← f.scope.map_snd_holdings] at hy
    obtain ⟨p, hp, rfl⟩ := List.mem_map.1 hy
    exact ⟨f.key, (h.mem_unclosed_iff _).2 ⟨_, hr⟩, p, (h.remembers _ hr p).1 hp, hxy⟩
  · rintro ⟨k, hk, p, hp, hxy⟩
    obtain ⟨ps, hr⟩ := (h.mem_unclosed_iff Scope.holdings).1 hk
    have hmem : p ∈ ps := (h.remembers _ hr p).2 hp
    obtain ⟨f, hf, he⟩ := List.mem_map.1 hr
    cases he
    exact ⟨f, hf, p.2, f.scope.map_snd_holdings ▸ List.mem_map_of_mem hmem, hxy⟩

end Builder.Lived

namespace Opening

variable {b : Builder} {s : Supply} {region : Region} {scope : String} {condition : Option Expr}

theorem checkRealize_of_declares (hr : region.ranges.length = region.buffer.rank)
    (hd : b.declares region.buffer) : checkRealize b region = .ok () := by
  simp [checkRealize, hr, hd]

theorem scope_realize_undeclared (hr : region.ranges.length = region.buffer.rank)
    (hd : ¬b.declares region.buffer) : (realize region scope condition).scope b s =
      .error (.refused (.undeclaredBuffer "realize" region.buffer.name)) := by
  simp only [Opening.scope, Attempt.bind_apply, Attempt.check_apply, checkRealize, hr, hd,
    ne_eq, not_true_eq_false, if_false]
  rfl

theorem scope_realize_ok_iff : (∃ x, (realize region scope condition).scope b s = .ok x) ↔
    region.ranges.length = region.buffer.rank ∧ b.declares region.buffer := by
  constructor
  · rintro ⟨x, h⟩
    simp only [Opening.scope, Attempt.bind_eq_ok, Attempt.check_eq_ok] at h
    obtain ⟨_, _, ⟨hc, -⟩, -⟩ := h
    exact checkRealize_eq_ok hc
  · rintro ⟨hr, hd⟩
    simp only [Opening.scope, Attempt.bind_apply, Attempt.check_apply,
      checkRealize_of_declares hr hd]
    exact ⟨_, rfl⟩

end Opening

namespace Program

variable {supply : Supply} {acts : List Action}

/-- A region is realized in a session if it has a range for each dimension of a buffer that is
visible there. With the right number of ranges it is refused because the buffer is not visible. -/
theorem realize_iff_visible (supply : Supply) (acts : List Action) (t : ThreadId) (region : Region)
    (scope : String) (condition : Option Expr) :
    let w := (run supply acts).world
    let r := w.openScope t (.realize region scope condition)
    ((∃ g, r.1 = .ok g) ↔ ∃ id, w.live t = some id ∧
      region.ranges.length = region.buffer.rank ∧
      Event.Visible region.buffer ((run supply acts).history id)) ∧
    ∀ id, w.live t = some id → region.ranges.length = region.buffer.rank →
      ¬Event.Visible region.buffer ((run supply acts).history id) →
      let e : BuildError := .undeclaredBuffer "realize" region.buffer.name
      r = (.error (.refused e),
        { w with builder := update w.builder id ((w.builder id).record e) }) := by
  intro w r
  have visible_iff {id : SessionId} (live : w.live t = some id) :
      Event.Visible region.buffer ((run supply acts).history id) ↔
        (w.builder id).declares region.buffer := by
    obtain ⟨config, H, hh, hl⟩ := lived_run ((seated_run supply acts).held t id live)
    rw [hh, Event.visible_entered]
    exact hl.declares_iff_visible.symm
  constructor
  · cases live : w.live t with
    | none => simp [r, World.openScope_of_idle live]
    | some id =>
        rw [World.openScope_ok_iff live, Opening.scope_realize_ok_iff, ← visible_iff live]
        simp
  · intro id live hr hv e
    exact World.openScope_refused live
      (Opening.scope_realize_undeclared hr (mt (visible_iff live).2 hv))

/-- The buffer that `sheltering` allocates in a block. -/
def shelteredBuffer : Buffer := { usurpedBuffer with data := { usurpedBuffer.data with id := 2 } }

/-- A function with two buffers behind parameters, one that it is given and one that is matched,
and a block that is closed after a buffer has been allocated in it. One more buffer is declared
outside. -/
def sheltering : List Action := [.enter 0 {}, .openScope 0 .primFunc,
  .call 0 (.argBuffer "A" handedBuffer),
  .call 0 (.matchBuffer (.param ownParam) [.int32 4] (.float 32) {}),
  .openScope 0 (.block "B" false), .call 0 (.allocBuffer [.int32 4] (.float 32) {}),
  .close ⟨0, 1, .block⟩, .declare [.int32 4] (.float 32) {}]

/-- The buffer of the block can be realized in the block, and not when the block has been closed.
The matched buffer can be realized, and the argument too under the name that it was given and under
no other; the buffer that was only declared cannot. -/
theorem realize_iff_visible_sheltering :
    let attempt (acts : List Action) (x : Buffer) :=
      ((run .counting acts).world.openScope 0 (.realize x.full "" none)).1
    let copy (id : VarId) : Buffer :=
      { shelteredBuffer with data := { shelteredBuffer.data with id } }
    (∃ g, attempt (sheltering.take 6) shelteredBuffer = .ok g) ∧
    (∃ g, attempt sheltering (copy 1) = .ok g) ∧
    (∃ g, attempt sheltering { handedBuffer with name := "A" } = .ok g) ∧
    ¬Event.Visible shelteredBuffer ((run .counting sheltering).history 0) ∧
    (∀ x ∈ [shelteredBuffer, handedBuffer, copy 3],
      attempt sheltering x = .error (.refused (.undeclaredBuffer "realize" x.name))) := by
  intro attempt copy
  have realized (acts : List Action) (x : Buffer) :=
    (realize_iff_visible .counting acts 0 x.full "" none).1.2
  have refused : ∀ x ∈ [shelteredBuffer, handedBuffer, copy 3],
      attempt sheltering x = .error (.refused (.undeclaredBuffer "realize" x.name)) := by
    simp only [List.forall_mem_cons, List.not_mem_nil, false_implies, implies_true, and_true]
    exact ⟨rfl, rfl, rfl⟩
  refine ⟨?_, ?_, ?_, fun visible => ?_, refused⟩
  · exact realized _ _ ⟨0, rfl, rfl, (1, .block), by decide, (none, shelteredBuffer),
      ⟨[_, _, _, _, _], _, [], rfl, rfl, rfl, rfl, nofun⟩, rfl, rfl⟩
  · refine realized _ _ ⟨0, rfl, rfl, (0, .primFunc), by decide, (some 100, copy 1),
      ⟨[_, _, _], _, [_, _, _], rfl, rfl, rfl, rfl, ?_⟩, rfl, rfl⟩
    rintro _ ⟨⟩
    decide
  · refine realized _ _ ⟨0, rfl, rfl, (0, .primFunc), by decide,
      (some 0, { handedBuffer with name := "A" }), ⟨[_, _], _, [_, _, _, _], rfl, rfl, rfl, rfl, ?_⟩,
      rfl, rfl⟩
    rintro _ ⟨⟩
    decide
  · obtain ⟨g, hg⟩ := realized sheltering shelteredBuffer ⟨0, rfl, rfl, visible⟩
    cases (refused shelteredBuffer List.mem_cons_self).symm.trans hg

/-- A buffer that was declared in a scope that is still open is not found if it has lost its place
to an argument. -/
theorem usurped_buffer_undeclared :
    let H := (run .counting usurping).history 0
    (∃ past e rest, H = past ++ e :: rest ∧ e.declared? = some usurpedBuffer ∧
      ∃ k ∈ Event.unclosed H, (Event.unclosed (past ++ [e])).getLast? = some k) ∧
    usurpedBuffer.full.ranges.length = usurpedBuffer.rank ∧
    ((run .counting usurping).world.openScope 0 (.realize usurpedBuffer.full "" none)).1 =
      .error (.refused (.undeclaredBuffer "realize" "buffer")) :=
  ⟨⟨[_, _], _, [_], rfl, rfl, (0, .primFunc), by decide, rfl⟩, rfl, rfl⟩

end Program

end TensorProgram
