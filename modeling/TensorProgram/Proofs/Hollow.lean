import TensorProgram.Proofs.Nests

/-!
Hollow scopes. The scope that an empty grid opens has no head to put around its statements, so that
these go to the scope around when it is closed. Until then they are held back, and other than that
the scope only keeps out what belongs directly into the one around: nothing that goes well is
another with it than without it, unless what is held back cannot be delivered in the end.
-/

namespace TensorProgram

/-- A scope without loops. -/
def Scope.hollow : Scope := .wrap { kind := .loops, heads := [] }

def Site.hollow (p : Nat) : Site := ⟨p, [], List.nodup_nil⟩

/-! What fails in a call is refused, for the session to remember. -/

/-- The attempt does not fail for an overflow. -/
def Attempt.Refuses {α : Type} (x : Attempt α) : Prop :=
  ∀ {s f}, x s = .error f → ∃ e, f = .refused e

namespace Attempt.Refuses

variable {α β : Type}

theorem pure (a : α) : (Pure.pure a : Attempt α).Refuses := by
  intro s f h
  cases h

theorem fresh (name : String) (dtype : DataType) : (Attempt.fresh name dtype).Refuses := by
  intro s f h
  cases h

theorem refuse (e : BuildError) : (Attempt.refuse e : Attempt α).Refuses := by
  intro s f h
  cases h
  exact ⟨e, rfl⟩

theorem check (x : Except BuildError α) : (Attempt.check x).Refuses := by
  intro s f h
  rw [Attempt.check_apply] at h
  cases x with
  | error e =>
      cases h
      exact ⟨e, rfl⟩
  | ok a => cases h

theorem declare (shape : List Expr) (dtype : DataType) (o : BufferOptions) :
    (Attempt.declare shape dtype o).Refuses := by
  intro s f h
  rw [Attempt.declare_apply] at h
  cases hd : Buffer.declare shape dtype o s with
  | error e =>
      rw [hd] at h
      cases h
      exact ⟨e, rfl⟩
  | ok r =>
      rw [hd] at h
      cases h

theorem bind {x : Attempt α} {g : α → Attempt β} (hx : x.Refuses) (hg : ∀ a, (g a).Refuses) :
    (x >>= g).Refuses := by
  intro s f h
  rw [Attempt.bind_apply] at h
  cases hs : x s with
  | error e =>
      rw [hs] at h
      cases h
      exact hx hs
  | ok r =>
      rw [hs] at h
      exact hg r.1 h

end Attempt.Refuses

namespace Call

open Attempt.Refuses

theorem remapAxes_refuses (b : Builder) (dtype : Option DataType) (ps : List (Char × Expr)) :
    (remapAxes b dtype ps).Refuses := by
  have one (c : Char) (e : Expr) : (remapAxis b dtype c e).Refuses := by
    rw [remapAxis]
    cases AxisKind.ofChar? c with
    | none => exact refuse _
    | some kind =>
        dsimp only
        cases e.asVar? with
        | none => exact refuse _
        | some v =>
            dsimp only
            cases b.loopDomain? v with
            | none => exact refuse _
            | some dom => exact bind (fresh _ _) fun _ => pure _
  induction ps with
  | nil => exact pure _
  | cons p ps ih => exact bind (one p.1 p.2) fun _ => bind ih fun _ => pure _

theorem effect_refuses (b : Builder) (c : Call) : (c.effect b).Refuses := by
  cases c with
  | guard _ | reads _ | writes _ | blockAttrs _ | funcName _ | funcAttrs _ | funcRet _ | argVar _ _
  | store _ _ _ | prefetch _ _ => exact bind (check _) fun _ => pure _
  | allocBuffer _ _ _ | matchBuffer _ _ _ _ | preflattenedBuffer _ _ _ _ =>
      exact bind (declare _ _ _) fun _ => bind (check _) fun _ => pure _
  | argBuffer _ _ => exact bind (fresh _ _) fun _ => bind (check _) fun _ => pure _
  | envThread tag =>
      rw [effect]
      split
      · exact refuse _
      · exact bind (fresh _ _) fun _ => pure _
  | evaluate _ => exact pure _
  | axis _ _ _ _ => exact bind (check _) fun _ => bind (fresh _ _) fun _ => pure _
  | remap kinds bindings dtype =>
      rw [effect]
      split
      · exact refuse _
      · exact bind (check _) fun _ => bind (remapAxes_refuses b dtype _) fun _ => pure _

end Call

/-! Builders with and without a hollow scope. -/

namespace Builder

/-- The builder with these scopes on top. -/
def under (b : Builder) (fs : List Frame) : Builder := { b with frames := fs ++ b.frames }

/-- What is done to all builders alike can be done before or after a statement is delivered. -/
theorem appendedAll_comm {g : Builder → Builder}
    (hg : ∀ b s, (g b).appended s = (b.appended s).map g) (b : Builder) (ss : List Stmt) :
    (g b).appendedAll ss = (b.appendedAll ss).map g := by
  induction ss generalizing b with
  | nil => rfl
  | cons s ss ih =>
      rw [appendedAll, appendedAll, hg]
      cases b.appended s with
      | error e => rfl
      | ok c => exact ih c

theorem appendedAll_append (b : Builder) (ss ss' : List Stmt) :
    b.appendedAll (ss ++ ss') = (b.appendedAll ss).bind (·.appendedAll ss') := by
  induction ss generalizing b with
  | nil => rfl
  | cons s ss ih =>
      rw [List.cons_append, appendedAll, appendedAll]
      cases b.appended s with
      | error e => rfl
      | ok c => exact ih c

/-- The number of the next scope is another one. -/
def numbered (n : Nat) (b : Builder) : Builder := { b with nextId := n }

theorem appended_numbered (n : Nat) (b : Builder) (s : Stmt) :
    (b.numbered n).appended s = (b.appended s).map (numbered n) := by
  obtain ⟨config, frames, nextId, result, firstError⟩ := b
  cases frames with
  | cons f fs => rfl
  | nil =>
      cases result with
      | none => rfl
      | some r => cases r <;> rfl

theorem appended_registerThread (v : Var) (tag : String) (b : Builder) (s : Stmt) :
    (b.registerThread v tag).appended s = (b.appended s).map (·.registerThread v tag) := by
  obtain ⟨config, frames, nextId, result, firstError⟩ := b
  cases frames with
  | cons f fs =>
      obtain ⟨id, scope, stmts⟩ := f
      cases scope <;> rfl
  | nil =>
      cases result with
      | none => rfl
      | some r => cases r <;> rfl

/-- The scope numbered `p` in `b` is a hollow one. The builder without it, in which its statements
are delivered as they come, is `x`, if they can be delivered. -/
inductive Hides (p : Nat) : Builder → Except BuildError Builder → Prop where
  | intro {l : Builder} {above : List Frame} {ss : List Stmt}
      (apart : ∀ f ∈ above, f.id ≠ p) (next : p < l.nextId) :
      Hides p (l.under (above ++ [⟨p, .hollow, ss⟩])) ((l.appendedAll ss).map (·.under above))

/-- After an operation the builder still hides a scope, and what the operation has come to it also
does to the builder without it. -/
def Hides.To (p : Nat) (x : Except BuildError Builder) (b' : Builder)
    (P : Builder → Builder → Prop) : Prop :=
  ∃ x', Hides p b' x' ∧ ∀ {e'}, x' = .ok e' → ∃ e, x = .ok e ∧ P e e'

variable {p : Nat} {l c : Builder} {above : List Frame} {ss : List Stmt}

theorem frames_under (l : Builder) (fs : List Frame) : (l.under fs).frames = fs ++ l.frames := rfl

/-- A hollow scope shows nothing, and nor do statements. -/
theorem sameContext_under (h : l.appendedAll ss = .ok c) (above : List Frame) :
    (l.under (above ++ [⟨p, .hollow, ss⟩])).SameContext (c.under above) := by
  have hk : l.Keeps c := appendedAll_induction .refl .trans keeps_appended h
  have hs : c.frames.map Frame.scope = l.frames.map Frame.scope := Scope.scopes_appendedAll h
  have find {α : Type} (view : Scope → Option α) (hv : view .hollow = none) :
      (c.under above).frames.findSome? (fun f => view f.scope) =
        (l.under (above ++ [⟨p, .hollow, ss⟩])).frames.findSome? fun f => view f.scope := by
    have hm (fs : List Frame) : fs.findSome? (fun f => view f.scope) =
        (fs.map Frame.scope).findSome? view := List.findSome?_map.symm
    simp [hm, frames_under, hs, hv]
  have any (test : Scope → Bool) (ht : test .hollow = false) :
      (c.under above).frames.any (fun f => test f.scope) =
        (l.under (above ++ [⟨p, .hollow, ss⟩])).frames.any fun f => test f.scope := by
    have hm (fs : List Frame) : fs.any (fun f => test f.scope) =
        (fs.map Frame.scope).any test := List.any_map.symm
    simp [hm, frames_under, hs, ht]
  have hc : (c.under above).config = (l.under (above ++ [⟨p, .hollow, ss⟩])).config := hk.config
  exact {
    config := hc
    nearestFunc := find Scope.func? rfl
    storageScope := by
      rw [storageScope, storageScope, find (fun x => x.heads.findSome? Head.storageScope?) rfl, hc]
    declares := fun x => any (fun y => y.buffers.any fun z => z.sameAs x) rfl
    loopDomain := fun v => find (fun x => x.heads.findSome? (Head.domain? v)) rfl }

/-- From inside a scope above it the hollow one cannot be told either. -/
theorem sameView_under (h : l.appendedAll ss = .ok c) (f : Frame) (above : List Frame) :
    (l.under (f :: above ++ [⟨p, .hollow, ss⟩])).SameView (c.under (f :: above)) where
  toSameContext := sameContext_under h (f :: above)
  topKind := rfl
  block := rfl
  func := rfl
  branch := rfl
  misplaced op kind hk := by
    have hs : c.frames.map Frame.scope = l.frames.map Frame.scope := Scope.scopes_appendedAll h
    have hm (fs : List Frame) : fs.any (fun f => f.kind = kind) =
        (fs.map Frame.scope).any fun x => x.kind = kind := by
      rw [List.any_map]
      rfl
    have ha : (c.under (f :: above)).frames.any (fun f => f.kind = kind) =
        (l.under (f :: above ++ [⟨p, .hollow, ss⟩])).frames.any fun f => f.kind = kind := by
      have hh : ¬Scope.kind .hollow = kind := fun he => hk he.symm
      simp only [hm, frames_under, List.map_append, List.any_append, hs, List.map_cons,
        List.map_nil, List.any_cons, List.any_nil, hh]
      simp
    rw [misplaced, misplaced, ha]
    rfl
  result := by
    intro hn
    cases hn

theorem map_eq_ok {α β ε : Type} {f : α → β} {y : Except ε α} {a : β} (h : y.map f = .ok a) :
    ∃ c, y = .ok c ∧ f c = a := by
  cases y with
  | error e => cases h
  | ok c => exact ⟨c, rfl, Except.ok.inj h⟩

theorem bind_eq_ok {α β ε : Type} {f : α → Except ε β} {y : Except ε α} {a : β}
    (h : y.bind f = .ok a) : ∃ c, y = .ok c ∧ f c = .ok a := by
  cases y with
  | error e => cases h
  | ok c => exact ⟨c, rfl, h⟩

namespace Hides

variable {b b' : Builder} {x : Except BuildError Builder}

theorem To.mono {P Q : Builder → Builder → Prop} (h : To p x b' P)
    (hPQ : ∀ {e e'}, x = .ok e → P e e' → Q e e') : To p x b' Q := by
  obtain ⟨x', hb, hx⟩ := h
  refine ⟨x', hb, fun he => ?_⟩
  obtain ⟨e, he, hp⟩ := hx he
  exact ⟨e, he, hPQ he hp⟩

theorem push (h : Hides p b x) (s : Scope) : To p x (b.push s) fun e e' => e' = e.push s := by
  obtain @⟨l, above, ss, apart, next⟩ := h
  have ha : (l.under (above ++ [⟨p, .hollow, ss⟩])).push s = (l.numbered (l.nextId + 1)).under
      ((⟨l.nextId, s, []⟩ :: above) ++ [⟨p, .hollow, ss⟩]) := rfl
  rw [ha]
  refine ⟨_, .intro ?_ (Nat.lt_succ_of_lt next), ?_⟩
  · intro f hf
    obtain rfl | hf := List.mem_cons.1 hf
    · exact Nat.ne_of_gt next
    · exact apart f hf
  · intro e' he
    rw [appendedAll_comm (appended_numbered _)] at he
    obtain ⟨_, hd, rfl⟩ := map_eq_ok he
    obtain ⟨c, hc, rfl⟩ := map_eq_ok hd
    have hk : l.Keeps c := appendedAll_induction .refl .trans keeps_appended hc
    refine ⟨_, by rw [hc]; rfl, ?_⟩
    simp [under, Builder.push, numbered, hk.nextId]

/-- The number of the hollow scope is not taken by a change to the one on top. -/
theorem apart_cons {f g : Frame} (apart : ∀ h ∈ f :: above, h.id ≠ p) (hg : g.id = f.id) :
    ∀ h ∈ g :: above, h.id ≠ p := by
  intro h hh
  obtain rfl | hh := List.mem_cons.1 hh
  · exact hg ▸ apart f List.mem_cons_self
  · exact apart h (List.mem_cons_of_mem f hh)

theorem setTop (h : Hides p b x) {y : Scope} (ht : b.Top y) (hy : ∀ w, y ≠ .wrap w) (z : Scope) :
    To p x (b.setTop z) fun e e' => e' = e.setTop z := by
  obtain @⟨l, above, ss, apart, next⟩ := h
  cases above with
  | nil =>
      obtain ⟨f, fs, hf, rfl⟩ := ht
      cases hf
      exact absurd rfl (hy _)
  | cons f above =>
      have hs : (l.under (f :: above ++ [⟨p, .hollow, ss⟩])).setTop z =
          l.under ({ f with scope := z } :: above ++ [⟨p, .hollow, ss⟩]) := rfl
      rw [hs]
      refine ⟨_, .intro (apart_cons apart rfl) next, ?_⟩
      intro e' he
      obtain ⟨c, hc, rfl⟩ := map_eq_ok he
      exact ⟨_, by rw [hc]; rfl, rfl⟩

theorem appended (h : Hides p b x) {s : Stmt} (ha : b.appended s = .ok b') :
    To p x b' fun e e' => e.appended s = .ok e' := by
  obtain @⟨l, above, ss, apart, next⟩ := h
  cases above with
  | nil =>
      obtain rfl : l.under [⟨p, .hollow, ss ++ [s]⟩] = b' := Except.ok.inj ha
      refine ⟨_, @Hides.intro p l [] (ss ++ [s]) apart next, ?_⟩
      intro e' he
      obtain ⟨d, hd, rfl⟩ := map_eq_ok he
      rw [appendedAll_append] at hd
      obtain ⟨c, hc, hd⟩ := bind_eq_ok hd
      obtain ⟨e, hs, hd⟩ := bind_eq_ok hd
      cases hd
      exact ⟨c, by rw [hc]; rfl, hs⟩
  | cons f above =>
      change Except.ok (l.under ({ f with stmts := f.stmts ++ [s] } :: above ++
        [⟨p, .hollow, ss⟩])) = .ok b' at ha
      cases ha
      refine ⟨_, .intro (apart_cons apart rfl) next, ?_⟩
      intro e' he
      obtain ⟨c, hc, rfl⟩ := map_eq_ok he
      exact ⟨_, by rw [hc]; rfl, rfl⟩

theorem registerThread (h : Hides p b x) (v : Var) (tag : String) :
    To p x (b.registerThread v tag) fun e e' => e' = e.registerThread v tag := by
  obtain @⟨l, above, ss, apart, next⟩ := h
  let g (f : FuncScope) := { f with threads := f.threads.insert v (.thread none v tag) }
  by_cases ha : ∃ f ∈ above, f.scope.func? ≠ none
  · have hs : (l.under (above ++ [⟨p, .hollow, ss⟩])).registerThread v tag =
        l.under (updateFunc g above ++ [⟨p, .hollow, ss⟩]) := by
      simp only [Builder.registerThread, under, List.append_assoc, updateFunc_of_some _ ha]
      rfl
    rw [hs]
    refine ⟨_, .intro ?_ next, ?_⟩
    · intro f hf
      obtain hf | ⟨f, -, hf, -, rfl⟩ := mem_updateFunc hf <;> exact apart f hf
    · intro e' he
      obtain ⟨c, hc, rfl⟩ := map_eq_ok he
      refine ⟨_, by rw [hc]; rfl, ?_⟩
      simp only [Builder.registerThread, under, updateFunc_of_some _ ha]
      rfl
  · have hn : ∀ f ∈ above, f.scope.func? = none := by
      intro f hf
      by_contra hne
      exact ha ⟨f, hf, hne⟩
    have hs : (l.under (above ++ [⟨p, .hollow, ss⟩])).registerThread v tag =
        (l.registerThread v tag).under (above ++ [⟨p, .hollow, ss⟩]) := by
      have hn' : ∀ f ∈ above ++ [(⟨p, .hollow, ss⟩ : Frame)], f.scope.func? = none := by
        intro f hf
        obtain hf | hf := List.mem_append.1 hf
        · exact hn f hf
        · rw [List.mem_singleton.1 hf]
          rfl
      simp only [Builder.registerThread, under, updateFunc_of_none _ hn']
    rw [hs]
    refine ⟨_, .intro apart next, ?_⟩
    intro e' he
    rw [appendedAll_comm (appended_registerThread v tag)] at he
    obtain ⟨_, hd, rfl⟩ := map_eq_ok he
    obtain ⟨c, hc, rfl⟩ := map_eq_ok hd
    refine ⟨_, by rw [hc]; rfl, ?_⟩
    simp only [Builder.registerThread, under, updateFunc_of_none _ hn]

theorem appendedAll (h : Hides p b x) {ss : List Stmt} (ha : b.appendedAll ss = .ok b') :
    To p x b' fun e e' => e.appendedAll ss = .ok e' := by
  induction ss generalizing b x with
  | nil =>
      cases ha
      exact ⟨x, h, fun he => ⟨_, he, rfl⟩⟩
  | cons s ss ih =>
      obtain ⟨c, hc, ha⟩ := bind_eq_ok ha
      obtain ⟨y, hy, hxy⟩ := h.appended hc
      obtain ⟨z, hz, hyz⟩ := ih hy ha
      refine ⟨z, hz, fun he => ?_⟩
      obtain ⟨d, hd, hde⟩ := hyz he
      obtain ⟨e, he, hed⟩ := hxy hd
      refine ⟨e, he, ?_⟩
      change (e.appended s).bind (·.appendedAll ss) = .ok _
      rw [hed]
      exact hde

theorem frames_ne_nil (h : Hides p b x) : b.frames ≠ [] := by
  cases h
  simp [frames_under]

theorem next (h : Hides p b x) : p < b.nextId := by
  obtain ⟨-, next⟩ := h
  exact next

theorem sameContext {e : Builder} (h : Hides p b (.ok e)) : b.SameContext e := by
  generalize hx : Except.ok e = x at h
  obtain ⟨apart, next⟩ := h
  obtain ⟨c, hc, rfl⟩ := map_eq_ok hx.symm
  exact sameContext_under hc _

theorem nextId_eq {e : Builder} (h : Hides p b (.ok e)) : e.nextId = b.nextId := by
  generalize hx : Except.ok e = x at h
  obtain ⟨apart, next⟩ := h
  obtain ⟨c, hc, rfl⟩ := map_eq_ok hx.symm
  exact (appendedAll_induction .refl .trans keeps_appended hc : Keeps _ c).nextId

/-- Either nothing has been opened in the hollow scope, or it cannot be seen. -/
theorem cases_top {e : Builder} (h : Hides p b (.ok e)) : b.Top .hollow ∨ b.SameView e := by
  generalize hx : Except.ok e = x at h
  obtain @⟨l, above, ss, apart, next⟩ := h
  obtain ⟨c, hc, rfl⟩ := map_eq_ok hx.symm
  cases above with
  | nil => exact Or.inl ⟨_, _, rfl, rfl⟩
  | cons f above => exact Or.inr (sameView_under hc f above)

theorem sameView {e : Builder} (h : Hides p b (.ok e)) {y : Scope} (ht : b.Top y)
    (hy : ∀ w, y ≠ .wrap w) : b.SameView e := by
  obtain hh | hv := h.cases_top
  · exact absurd (ht.unique hh) (hy _)
  · exact hv

theorem delivered (h : Hides p b x) {pr : Product} (hd : b.delivered pr = .ok b') :
    To p x b' fun e e' => e.delivered pr = .ok e' := by
  cases pr with
  | stmts ss => exact h.appendedAll hd
  | func f => exact absurd (delivered_func hd).1 h.frames_ne_nil
  | blockInit s =>
      obtain ⟨y, ht, rfl⟩ := delivered_blockInit hd
      refine To.mono (h.setTop ht (by simp) _) fun {e e'} he hp => ?_
      subst he hp
      rw [Builder.delivered, (h.sameView ht (by simp)).topBlock, topBlock_eq_ok_iff.2 ht]
      rfl
  | thenCase s =>
      obtain ⟨y, ht, rfl⟩ := delivered_thenCase hd
      refine To.mono (h.setTop ht (by simp) _) fun {e e'} he hp => ?_
      subst he hp
      rw [Builder.delivered, (h.sameView ht (by simp)).topBranch, topBranch_eq_ok_iff.2 ht]
      rfl
  | elseCase s =>
      obtain ⟨y, ht, rfl⟩ := delivered_elseCase hd
      refine To.mono (h.setTop ht (by simp) _) fun {e e'} he hp => ?_
      subst he hp
      rw [Builder.delivered, (h.sameView ht (by simp)).topBranch, topBranch_eq_ok_iff.2 ht]
      rfl

theorem performed (h : Hides p b x) {c : Call} {s s' : Supply} {eff : Effect} {v : Value}
    (he : c.effect b s = .ok ((eff, v), s')) (hp : b.performed eff = .ok b') :
    To p x b' fun e e' => e.performed eff = .ok e' := by
  cases eff with
  | setTop y =>
      obtain ⟨z, ht, hr⟩ := (Call.effect_does he).refines
      cases hp
      exact To.mono (h.setTop ht hr.ne_wrap y) fun _ hp => congrArg Except.ok hp.symm
  | registerThread w tag =>
      cases hp
      exact To.mono (h.registerThread w tag) fun _ hp => congrArg Except.ok hp.symm
  | append s => exact h.appended hp

/-- A mistake is remembered. -/
theorem firstError_record (b : Builder) (e : BuildError) : (b.record e).firstError.isSome := by
  cases h : b.firstError <;> simp [record, h]

theorem openScope (h : Hides p b x) (s : Supply) (o : Opening) :
    (b.openScope s o).2.1.firstError.isSome ∨ To p x (b.openScope s o).2.1 fun e e' =>
      e.openScope s o = ((b.openScope s o).1, e', (b.openScope s o).2.2) := by
  have hsame {e : Builder} (he : x = .ok e) : (∃ f, o.scope b s = .error (.refused f)) ∨
      o.scope e s = o.scope b s := by
    subst he
    obtain ht | hv := h.cases_top
    · exact Opening.scope_inside h.sameContext ht o s
    · exact Or.inr (Opening.scope_congr hv o s)
  rw [openScope_eq]
  cases ho : o.scope b s with
  | error f =>
      cases f with
      | refused f => exact Or.inl (firstError_record b f)
      | overflow f =>
          refine Or.inr ⟨x, h, fun {e} he => ⟨e, he, ?_⟩⟩
          obtain ⟨g, hg⟩ | hs := hsame he
          · cases ho.symm.trans hg
          · rw [openScope_eq, hs, ho]
            rfl
  | ok r =>
      refine Or.inr (To.mono (h.push r.1.1) fun {e e'} he hp => ?_)
      obtain ⟨g, hg⟩ | hs := hsame he
      · cases ho.symm.trans hg
      · subst he hp
        rw [openScope_eq, hs, ho, h.nextId_eq]

theorem call (h : Hides p b x) (s : Supply) (c : Call) :
    (b.call s c).2.1.firstError.isSome ∨ To p x (b.call s c).2.1 fun e e' =>
      e.call s c = ((b.call s c).1, e', (b.call s c).2.2) := by
  rw [call_eq]
  cases he : c.effect b s with
  | error f =>
      obtain ⟨f, rfl⟩ := Call.effect_refuses b c he
      exact Or.inl (firstError_record b f)
  | ok r =>
      dsimp only
      cases hp : b.performed r.1.1 with
      | error f => exact Or.inl (firstError_record b f)
      | ok b' =>
          refine Or.inr (To.mono (h.performed he hp) fun {e e'} hx hp' => ?_)
          have hs : c.effect e s = c.effect b s := by
            subst hx
            obtain ht | hv := h.cases_top
            · exact (Call.effect_inside h.sameContext ht he).1
            · exact Call.effect_congr hv c s
          rw [call_eq, hs, he]
          dsimp only
          rw [hp']

/-- Without the scope on top. -/
theorem pop {f : Frame} {above : List Frame} (apart : ∀ g ∈ f :: above, g.id ≠ p)
    (next : p < l.nextId) : Hides p (l.under (above ++ [⟨p, .hollow, ss⟩]))
      ((l.appendedAll ss).map (·.under above)) :=
  .intro (fun g hg => apart g (List.mem_cons_of_mem f hg)) next

theorem close (h : Hides p b x) {id : Nat} (hid : id ≠ p) (kind : ScopeKind) :
    (b.close id kind).2.firstError.isSome ∨ To p x (b.close id kind).2 fun e e' =>
      e.close id kind = ((b.close id kind).1, e') := by
  obtain @⟨l, above, ss, apart, next⟩ := h
  cases above with
  | nil =>
      rw [close_of_ne kind (f := ⟨p, .hollow, ss⟩) rfl (Ne.symm hid)]
      exact Or.inl (firstError_record _ _)
  | cons f above =>
      by_cases hf : f.id = id
      · subst hf
        have hpop : Hides p (l.under (above ++ [⟨p, .hollow, ss⟩])) _ := pop apart next
        have hf : (l.under (f :: above ++ [⟨p, .hollow, ss⟩])).frames =
          f :: (above ++ [⟨p, .hollow, ss⟩] ++ l.frames) := rfl
        obtain ⟨e, he⟩ | ⟨pr, b', hp, hd, hc⟩ := close_cases kind hf
        · rw [he]
          exact Or.inl (firstError_record _ _)
        · rw [hc]
          obtain ⟨x', hb, hx⟩ := hpop.delivered hd
          refine Or.inr ⟨x', hb, fun {e'} he => ?_⟩
          obtain ⟨d, hd, hde⟩ := hx he
          obtain ⟨c, hcs, rfl⟩ := map_eq_ok hd
          have hk : l.Keeps c := appendedAll_induction .refl .trans keeps_appended hcs
          refine ⟨c.under (f :: above), by rw [hcs]; rfl, ?_⟩
          refine close_of_delivered (b := c.under (f :: above)) (f := f) kind rfl ?_ hde
          exact (congrArg f.close hk.config).trans hp
      · rw [close_of_ne kind (f := f) rfl hf]
        exact Or.inl (firstError_record _ _)

/-- What was held back is delivered when the hollow scope is closed. -/
theorem close_self (h : Hides p b x) (kind : ScopeKind) :
    (b.close p kind).2.firstError.isSome ∨ x = .ok (b.close p kind).2 := by
  obtain @⟨l, above, ss, apart, next⟩ := h
  cases above with
  | nil =>
      obtain ⟨e, hc⟩ | ⟨q, c, hq, hd, hc⟩ :=
        close_cases kind (f := ⟨p, .hollow, ss⟩) (b := l.under [⟨p, .hollow, ss⟩]) rfl
      · refine Or.inl ?_
        rw [List.nil_append, hc]
        exact firstError_record _ _
      · cases hq
        have hd : l.appendedAll ss = .ok c := hd
        refine Or.inr ?_
        rw [List.nil_append, hc, hd]
        rfl
  | cons f above =>
      rw [close_of_ne kind (f := f) rfl (apart f List.mem_cons_self)]
      exact Or.inl (firstError_record _ _)

end Hides

/-- Past saving: a mistake has been made, or what a hollow scope holds back cannot be delivered. -/
def Doomed (p : Nat) (b : Builder) : Prop :=
  b.firstError.isSome ∨ ∃ e, Hides p b (.error e)

/-- The session cannot end well now: a mistake has been made, or a hollow scope is open. -/
def Unready (p : Nat) (b : Builder) : Prop :=
  b.firstError.isSome ∨ ∃ x, Hides p b x

variable {b : Builder}

theorem lasts_firstError : Lasts (fun _ => True) fun b => b.firstError.isSome :=
  lasts_of_step fun {b b' e} h hs => by
    rw [hs.took.firstError, Option.isSome_or, h, Bool.true_or]

/-- A hollow scope stays open. What can be delivered later could be before. -/
theorem lasts_hides (p : Nat) {Q : Except BuildError Builder → Prop}
    (hQ : ∀ {x x'}, Q x → (∀ {e'}, x' = .ok e' → ∃ e, x = .ok e) → Q x') :
    Lasts (· ≠ p) fun b => b.firstError.isSome ∨ ∃ x, Hides p b x ∧ Q x := by
  have next {x : Except BuildError Builder} {b' : Builder} {P : Builder → Builder → Prop} (hx : Q x)
      (h : b'.firstError.isSome ∨ Hides.To p x b' P) :
      b'.firstError.isSome ∨ ∃ x', Hides p b' x' ∧ Q x' := by
    refine h.imp_right ?_
    rintro ⟨x', hb, hxx⟩
    refine ⟨x', hb, hQ hx fun he => ?_⟩
    obtain ⟨e, he, -⟩ := hxx he
    exact ⟨e, he⟩
  refine ⟨fun {b} h s o => ?_, fun {b} h s c => ?_, fun {b} h id hid kind => ?_⟩
  · obtain h | ⟨x, h, hx⟩ := h
    · exact Or.inl (lasts_firstError.openScope h s o)
    · exact next hx (h.openScope s o)
  · obtain h | ⟨x, h, hx⟩ := h
    · exact Or.inl (lasts_firstError.call h s c)
    · exact next hx (h.call s c)
  · obtain h | ⟨x, h, hx⟩ := h
    · exact Or.inl (lasts_firstError.close h trivial kind)
    · exact next hx (h.close hid kind)

theorem lasts_doomed (p : Nat) : Lasts (· ≠ p) (Doomed p) := by
  have hd : Doomed p =
      fun b : Builder => b.firstError.isSome ∨ ∃ x, Hides p b x ∧ ∃ e, x = .error e := by
    funext b
    simp [Doomed]
  rw [hd]
  refine lasts_hides p fun {x x'} hx h => ?_
  obtain ⟨e, rfl⟩ := hx
  cases x' with
  | error e' => exact ⟨e', rfl⟩
  | ok c =>
      obtain ⟨_, he⟩ := h rfl
      cases he

theorem lasts_unready (p : Nat) : Lasts (· ≠ p) (Unready p) := by
  have hd : Unready p = fun b : Builder => b.firstError.isSome ∨ ∃ x, Hides p b x ∧ True := by
    funext b
    simp [Unready]
  rw [hd]
  exact lasts_hides p fun _ _ => trivial

theorem finish_of_firstError (h : b.firstError.isSome) : b.finish.1.toOption = none := by
  obtain ⟨e, he⟩ := Option.isSome_iff_exists.1 h
  rw [finish, he]
  rfl

theorem Unready.finish (h : Unready p b) : b.finish.1.toOption = none := by
  cases ho : b.finish.1 with
  | error e => rfl
  | ok out =>
      obtain ⟨he, hf, -⟩ := finish_eq_ok ho
      obtain h | ⟨x, h⟩ := h
      · rw [he] at h
        cases h
      · exact absurd hf h.frames_ne_nil

theorem Hides.To.doomed_or {b' e : Builder} {P : Builder → Builder → Prop}
    (h : To p (.ok e) b' P) : Doomed p b' ∨ ∃ e', P e e' ∧ Hides p b' (.ok e') := by
  obtain ⟨x', hb, hx⟩ := h
  cases x' with
  | error e => exact Or.inl (Or.inr ⟨e, hb⟩)
  | ok e' =>
      obtain ⟨_, he, hp⟩ := hx rfl
      cases he
      exact Or.inr ⟨e', hp, hb⟩

theorem mirrors_hides (p : Nat) :
    Mirrors id (· ≠ p) (fun b e => Hides p b (.ok e)) (Doomed p) where
  next h := Nat.ne_of_gt h.next
  openScope {b _} h s o := by
    obtain h | h := h.openScope s o
    · exact Or.inl (Or.inl h)
    · refine h.doomed_or.imp_right ?_
      rintro ⟨e', he, hb⟩
      refine ⟨e', he.trans ?_, hb⟩
      cases (b.openScope s o).1 <;> rfl
  call h s c := by
    obtain h | h := h.call s c
    · exact Or.inl (Or.inl h)
    · exact h.doomed_or
  close h id hid kind := by
    obtain h | h := h.close hid kind
    · exact Or.inl (Or.inl h)
    · exact h.doomed_or

theorem Doomed.close_self (h : Doomed p b) (kind : ScopeKind) :
    (b.close p kind).2.firstError.isSome := by
  obtain h | ⟨e, h⟩ := h
  · exact lasts_firstError.close h trivial kind
  · obtain h | h := h.close_self kind
    · exact h
    · cases h

/-- The builder without the hollow scope, in which the scopes opened later have lower numbers. -/
def Inlines (p : Nat) (b c : Builder) : Prop :=
  ∃ e, Hides p b (.ok e) ∧ (Site.hollow p).Unfolds e c

theorem mirrors_inlines (p : Nat) :
    Mirrors (Site.hollow p).place (· ≠ p) (Inlines p) (Doomed p) :=
  (mirrors_hides p).comp (Site.hollow p).mirrors id

theorem Inlines.close_self {c : Builder} (h : Inlines p b c) (kind : ScopeKind) :
    (b.close p kind).2.firstError.isSome ∨ (Site.hollow p).Unfolds (b.close p kind).2 c := by
  obtain ⟨e, h, hu⟩ := h
  obtain h | h := h.close_self kind
  · exact Or.inl h
  · cases h
    exact Or.inr hu

theorem Inlines.unready {c : Builder} (h : Inlines p b c) : Unready p b := by
  obtain ⟨e, h, -⟩ := h
  exact Or.inr ⟨_, h⟩

/-- To open a hollow scope shows in the numbers only. -/
theorem inlines_push (hb : ∀ f ∈ b.frames, f.id < b.nextId) :
    Inlines b.nextId (b.push .hollow) b := by
  refine ⟨b.numbered (b.nextId + 1), ?_, ⟨Nat.lt_succ_self _, ?_⟩, ?_⟩
  · exact @Hides.intro b.nextId (b.numbered (b.nextId + 1)) [] [] (by simp) (Nat.lt_succ_self _)
  · intro f hf hid
    exact absurd hid (Nat.ne_of_lt (hb f hf))
  · have hs : b.frames.flatMap (Site.hollow b.nextId).spread = b.frames :=
      Site.flatMap_spread_of_lt hb
    have hn : (Site.hollow b.nextId).place (b.nextId + 1) = b.nextId := by
      change shift 0 b.nextId (b.nextId + 1) = _
      rw [shift_of_lt (Nat.lt_succ_self _)]
      rfl
    simp only [spread, numbered, hs, hn]

end Builder

end TensorProgram
