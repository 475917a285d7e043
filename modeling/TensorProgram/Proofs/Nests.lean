import TensorProgram.Proofs.Mirrors
import TensorProgram.Proofs.Stack
import TensorProgram.Proofs.Views

/-!
Nests of loops. A scope of several loops can be spread over scopes of one loop each, one inside the
other. The scopes that are opened later get higher numbers by that, and otherwise every operation
does to the builder with the nest what it does to the one with the single scope: all that is seen
from inside is the loops, and the statements of the body are those of the innermost scope.
-/

namespace TensorProgram

/-- The place of `i` where `n` places take that of `p`. -/
def shift (n p i : Nat) : Nat := if i ≤ p then i else i + n - 1

theorem shift_of_le {n p i : Nat} (h : i ≤ p) : shift n p i = i := if_pos h

theorem shift_of_lt {n p i : Nat} (h : p < i) : shift n p i = i + n - 1 :=
  if_neg (Nat.not_le_of_lt h)

theorem shift_inj {n p i j : Nat} (hi : i ≠ p) (hj : j ≠ p) :
    shift n p i = shift n p j ↔ i = j := by
  simp only [shift]
  split <;> split <;> omega

/-- Nothing else comes to lie among the new places. -/
theorem shift_outside {n p i : Nat} (h : i ≠ p) : shift n p i < p ∨ p + n ≤ shift n p i := by
  simp only [shift]
  split <;> omega

/-- A scope that holds loops, innermost first, over different variables. -/
structure Site where
  frame : Nat
  loops : List Loop
  distinct : (loops.map fun l => l.var.id).Nodup

/-- Scopes of one loop each, numbered from `p` on. The statements are in the innermost one. -/
def nest (p : Nat) (stmts : List Stmt) : List Loop → List Frame
  | [] => []
  | l :: ls => ⟨p + ls.length, .wrap { kind := .loops, heads := [.loop l] }, stmts⟩ :: nest p [] ls

namespace Site

variable (σ : Site)

/-- The scope of all the loops. -/
def scope : Scope := .wrap { kind := .loops, heads := σ.loops.reverse.map .loop }

def place (i : Nat) : Nat := shift σ.loops.length σ.frame i

/-- The scopes in place of `f`. -/
def spread (f : Frame) : List Frame :=
  if f.id = σ.frame then nest σ.frame f.stmts σ.loops else [{ f with id := σ.place f.id }]

/-- The scope at the site, if it is open, is the one of the loops. -/
structure Marks (b : Builder) : Prop where
  next : σ.frame < b.nextId
  scope : ∀ f ∈ b.frames, f.id = σ.frame → f.scope = σ.scope ∧ σ.loops ≠ []

end Site

def Builder.spread (σ : Site) (b : Builder) : Builder :=
  { b with frames := b.frames.flatMap σ.spread, nextId := σ.place b.nextId }

namespace Site

variable {σ : Site} {f : Frame}

theorem spread_of_ne (h : f.id ≠ σ.frame) : σ.spread f = [{ f with id := σ.place f.id }] :=
  if_neg h

theorem spread_of_eq (h : f.id = σ.frame) : σ.spread f = nest σ.frame f.stmts σ.loops := if_pos h

/-- Scopes below the site are as they were. -/
theorem flatMap_spread_of_lt {fs : List Frame} (h : ∀ f ∈ fs, f.id < σ.frame) :
    fs.flatMap σ.spread = fs := by
  induction fs with
  | nil => rfl
  | cons f fs ih =>
      have hf : f.id < σ.frame := h f List.mem_cons_self
      rw [List.flatMap_cons, ih fun g hg => h g (List.mem_cons_of_mem f hg),
        spread_of_ne (Nat.ne_of_lt hf), place, shift_of_le (Nat.le_of_lt hf)]
      rfl

end Site

/-! What is seen of a nest. -/

section

variable {p : Nat} {stmts : List Stmt} {ls : List Loop}

theorem findSome?_nest {α : Type} {view : Frame → Option α} {part : Loop → Option α}
    (hv : ∀ i l ss, view ⟨i, .wrap { kind := .loops, heads := [.loop l] }, ss⟩ = part l) :
    (nest p stmts ls).findSome? view = ls.findSome? part := by
  induction ls generalizing stmts with
  | nil => rfl
  | cons l ls ih => rw [nest, List.findSome?_cons, List.findSome?_cons, hv, ih]

theorem any_nest {test : Frame → Bool} {b : Bool} (hn : ls ≠ [])
    (ht : ∀ i l ss, test ⟨i, .wrap { kind := .loops, heads := [.loop l] }, ss⟩ = b) :
    (nest p stmts ls).any test = b := by
  induction ls generalizing stmts with
  | nil => exact absurd rfl hn
  | cons l ls ih =>
      rw [nest, List.any_cons, ht]
      cases ls with
      | nil => simp [nest]
      | cons m ms => rw [ih (List.cons_ne_nil m ms), Bool.or_self]

/-- The loop over a variable is found from either end. -/
theorem findSome?_reverse_domain {ls : List Loop} (h : (ls.map fun l => l.var.id).Nodup) (v : Var) :
    ls.reverse.findSome? (fun l => Head.domain? v (.loop l)) =
      ls.findSome? fun l => Head.domain? v (.loop l) := by
  induction ls with
  | nil => rfl
  | cons l ls ih =>
      rw [List.map_cons, List.nodup_cons] at h
      rw [List.reverse_cons, List.findSome?_append, ih h.2, List.findSome?_cons,
        List.findSome?_cons, List.findSome?_nil]
      cases hl : Head.domain? v (.loop l) with
      | none => simp
      | some r =>
          have hid : l.var.id = v.id := by
            simp only [Head.domain?] at hl
            split at hl
            · rename_i hs
              simpa [Var.same] using hs
            · cases hl
          have hn : ls.findSome? (fun l => Head.domain? v (.loop l)) = none := by
            rw [List.findSome?_eq_none_iff]
            intro m hm
            have hne : m.var.id ≠ v.id := fun he =>
              h.1 (List.mem_map.2 ⟨m, hm, he.trans hid.symm⟩)
            simp [Head.domain?, Var.same, hne]
          rw [hn]
          rfl

end

namespace Site

variable {σ : Site} {fs : List Frame}

theorem findSome?_spread {α : Type} {view : Frame → Option α}
    (hv : ∀ f ∈ fs, (σ.spread f).findSome? view = view f) :
    (fs.flatMap σ.spread).findSome? view = fs.findSome? view := by
  induction fs with
  | nil => rfl
  | cons f fs ih =>
      rw [List.flatMap_cons, List.findSome?_append, hv f List.mem_cons_self,
        ih fun g hg => hv g (List.mem_cons_of_mem f hg), List.findSome?_cons]
      cases view f <;> rfl

theorem any_spread {test test' : Frame → Bool}
    (ht : ∀ f ∈ fs, (σ.spread f).any test = test' f) :
    (fs.flatMap σ.spread).any test = fs.any test' := by
  rw [List.any_flatMap]
  induction fs with
  | nil => rfl
  | cons f fs ih =>
      rw [List.any_cons, List.any_cons, ht f List.mem_cons_self,
        ih fun g hg => ht g (List.mem_cons_of_mem f hg)]

end Site

namespace Site.Marks

variable {σ : Site} {b : Builder} (h : σ.Marks b)

include h

/-- A frame apart from the site is one frame with another number; that of the site is the nest. -/
theorem cases {f : Frame} (hf : f ∈ b.frames) :
    (f.id ≠ σ.frame ∧ σ.spread f = [{ f with id := σ.place f.id }]) ∨
      f.scope = σ.scope ∧ ∃ l ls, σ.loops = l :: ls ∧ f.id = σ.frame ∧
        σ.spread f = nest σ.frame f.stmts (l :: ls) := by
  by_cases hid : f.id = σ.frame
  · obtain ⟨hx, hn⟩ := h.scope f hf hid
    obtain ⟨l, ls, hl⟩ := List.exists_cons_of_ne_nil hn
    exact Or.inr ⟨hx, l, ls, hl, hid, by rw [spread_of_eq hid, hl]⟩
  · exact Or.inl ⟨hid, spread_of_ne hid⟩

theorem findSome? {α : Type} (view : Scope → Option α) (part : Loop → Option α)
    (hone : ∀ l, view (.wrap { kind := .loops, heads := [.loop l] }) = part l)
    (hall : view σ.scope = σ.loops.findSome? part) :
    (b.spread σ).frames.findSome? (fun f => view f.scope) =
      b.frames.findSome? fun f => view f.scope := by
  apply findSome?_spread
  intro f hf
  obtain ⟨-, hs⟩ | ⟨hx, l, ls, hl, -, hs⟩ := h.cases hf
  · rw [hs, List.findSome?_cons]
    cases view f.scope <;> rfl
  · rw [hs, hx, hall, hl]
    exact findSome?_nest fun _ l _ => hone l

theorem any (test : Scope → Bool) {c : Bool}
    (hone : ∀ l, test (.wrap { kind := .loops, heads := [.loop l] }) = c)
    (hall : test σ.scope = c) :
    (b.spread σ).frames.any (fun f => test f.scope) = b.frames.any fun f => test f.scope := by
  apply any_spread
  intro f hf
  obtain ⟨-, hs⟩ | ⟨hx, l, ls, hl, -, hs⟩ := h.cases hf
  · rw [hs]
    exact Bool.or_false _
  · rw [hs, hx, hall]
    exact any_nest (List.cons_ne_nil l ls) fun _ l _ => hone l

theorem head? {β : Type} (view : Scope → β) {c : β}
    (hone : ∀ l, view (.wrap { kind := .loops, heads := [.loop l] }) = c)
    (hall : view σ.scope = c) :
    (b.spread σ).frames.head?.map (fun f => view f.scope) =
      b.frames.head?.map fun f => view f.scope := by
  rw [Builder.spread]
  dsimp only
  cases hb : b.frames with
  | nil => rfl
  | cons f fs =>
      rw [List.flatMap_cons]
      obtain ⟨-, hs⟩ | ⟨hx, l, ls, hl, -, hs⟩ := h.cases (hb ▸ List.mem_cons_self : f ∈ b.frames)
      · rw [hs]
        rfl
      · rw [hs]
        simp only [nest, List.cons_append, List.head?_cons, Option.map_some, hone, hx, hall]

theorem top? {α : Type} {view : Scope → Option α}
    (hone : ∀ l, view (.wrap { kind := .loops, heads := [.loop l] }) = none)
    (hall : view σ.scope = none) : (b.spread σ).top? view = b.top? view := by
  have hm := h.head? view hone hall
  have hj (b : Builder) : b.top? view = (b.frames.head?.map fun f => view f.scope).join := by
    rw [Builder.top?]
    cases b.frames.head? <;> rfl
  rw [hj, hj, hm]

theorem topKind? : (b.spread σ).topKind? = b.topKind? :=
  h.head? Scope.kind (c := .loops) (fun _ => rfl) rfl

/-- The nest looks from inside like the one scope. -/
theorem sameView : b.SameView (b.spread σ) where
  config := rfl
  nearestFunc := by
    refine h.findSome? Scope.func? (fun _ => none) (fun _ => rfl) ?_
    rw [List.findSome?_eq_none_iff.2 fun _ _ => rfl]
    rfl
  storageScope := by
    have hs := h.findSome? (fun x => x.heads.findSome? Head.storageScope?) (fun _ => none)
      (fun _ => rfl) (by
        rw [List.findSome?_eq_none_iff.2 fun _ _ => rfl]
        simp [Site.scope, Scope.heads, Head.storageScope?])
    rw [Builder.storageScope, Builder.storageScope, hs]
    rfl
  declares x :=
    h.any (fun y => y.buffers.any fun z => z.sameAs x) (c := false) (fun _ => rfl) rfl
  loopDomain v := by
    refine h.findSome? (fun x => x.heads.findSome? (Head.domain? v))
      (fun l => Head.domain? v (.loop l)) ?_ ?_
    · intro l
      simp only [Scope.heads, List.findSome?_cons, List.findSome?_nil]
      cases Head.domain? v (.loop l) <;> rfl
    · rw [← findSome?_reverse_domain σ.distinct v]
      exact List.findSome?_map
  topKind := h.topKind?
  block := h.top? (fun _ => rfl) rfl
  func := h.top? (fun _ => rfl) rfl
  branch := h.top? (fun _ => rfl) rfl
  misplaced op kind _ := by
    have hk : (b.spread σ).frames.any (·.kind = kind) = b.frames.any (·.kind = kind) :=
      h.any (fun x => x.kind = kind) (fun _ => rfl) rfl
    rw [Builder.misplaced, Builder.misplaced, h.topKind?, hk]
  result _ := rfl

end Site.Marks

/-! What is done to a nest. -/

theorem Scope.Refines.ne_wrap {x y : Scope} (h : x.Refines y) (w : Wrapper) : x ≠ .wrap w := by
  cases h <;> simp

namespace Builder

variable {σ : Site} {b : Builder}

theorem spread_push (h : σ.Marks b) (x : Scope) : (b.push x).spread σ = (b.spread σ).push x := by
  have hlt : σ.frame < b.nextId := h.next
  have hp : σ.place (b.nextId + 1) = σ.place b.nextId + 1 := by
    rw [Site.place, Site.place, shift_of_lt hlt, shift_of_lt (Nat.lt_succ_of_lt hlt)]
    omega
  have hs : σ.spread ⟨b.nextId, x, []⟩ = [⟨σ.place b.nextId, x, []⟩] :=
    Site.spread_of_ne (Nat.ne_of_gt hlt)
  simp only [spread, push, List.flatMap_cons, hs, hp, List.singleton_append]

theorem spread_setTop (h : σ.Marks b) {x : Scope} (ht : b.Top x) (hx : ∀ w, x ≠ .wrap w)
    (y : Scope) : (b.setTop y).spread σ = (b.spread σ).setTop y := by
  obtain ⟨f, fs, hf, rfl⟩ := ht
  obtain ⟨hn, hs⟩ | ⟨hw, -⟩ := h.cases (hf ▸ List.mem_cons_self : f ∈ b.frames)
  · have hs' : σ.spread { f with scope := y } = [{ f with scope := y, id := σ.place f.id }] :=
      Site.spread_of_ne hn
    simp only [spread, setTop, hf, List.flatMap_cons, hs, hs', List.singleton_append]
  · exact absurd hw (hx _)

/-- Only the innermost of a nest has statements. -/
theorem spread_appended (h : σ.Marks b) (s : Stmt) :
    (b.spread σ).appended s = (b.appended s).map (Builder.spread σ) := by
  rw [appended, appended]
  cases hb : b.frames with
  | nil =>
      have hs : (b.spread σ).frames = [] := by simp [spread, hb]
      have hr : (b.spread σ).result = b.result := rfl
      rw [hs, hr]
      cases b.result with
      | none => simp [Except.map, spread, hb]
      | some r => cases r <;> simp [Except.map, spread, hb]
  | cons f fs =>
      obtain ⟨hn, hs⟩ | ⟨-, l, ls, hl, hid, hs⟩ := h.cases (hb ▸ List.mem_cons_self : f ∈ b.frames)
      · have hs' : σ.spread { f with stmts := f.stmts ++ [s] } =
            [{ f with stmts := f.stmts ++ [s], id := σ.place f.id }] := Site.spread_of_ne hn
        simp [spread, hb, hs, hs', Except.map]
      · have hs' : σ.spread { f with stmts := f.stmts ++ [s] } =
            nest σ.frame (f.stmts ++ [s]) (l :: ls) := hl ▸ Site.spread_of_eq hid
        simp [spread, hb, hs, hs', Except.map, nest]

theorem any_id_nest {p id : Nat} {stmts : List Stmt} {ls : List Loop}
    (h : ∀ i, p ≤ i → i < p + ls.length → i ≠ id) : (nest p stmts ls).any (·.id = id) = false := by
  induction ls generalizing stmts with
  | nil => rfl
  | cons l ls ih =>
      simp only [List.length_cons] at h
      rw [nest, List.any_cons, ih fun i hlo hhi => h i hlo (by omega), Bool.or_false]
      exact decide_eq_false (h (p + ls.length) (by omega) (by omega))

theorem func?_nest (p : Nat) (stmts : List Stmt) (ls : List Loop) :
    ∀ f ∈ nest p stmts ls, f.scope.func? = none := by
  induction ls generalizing stmts with
  | nil => simp [nest]
  | cons l ls ih =>
      intro f hf
      obtain rfl | hf := List.mem_cons.1 hf
      · rfl
      · exact ih [] f hf

theorem spread_registerThread (h : σ.Marks b) (v : Var) (tag : String) :
    (b.registerThread v tag).spread σ = (b.spread σ).registerThread v tag := by
  have hu (g : FuncScope → FuncScope) {fs : List Frame} (hfs : fs ⊆ b.frames) :
      (updateFunc g fs).flatMap σ.spread = updateFunc g (fs.flatMap σ.spread) := by
    induction fs with
    | nil => rfl
    | cons f fs ih =>
        rw [List.cons_subset] at hfs
        have hr := ih hfs.2
        obtain ⟨hn, hs⟩ | ⟨hx, l, ls, -, -, hs⟩ := h.cases hfs.1
        · cases hf : f.scope with
          | func x =>
              have hs' : σ.spread { f with scope := .func (g x) } =
                [{ f with scope := .func (g x), id := σ.place f.id }] := Site.spread_of_ne hn
              simp [updateFunc, hf, hs, hs']
          | _ => simp [updateFunc, hf, hs, hr]
        · rw [List.flatMap_cons, hs, updateFunc_of_none g (func?_nest _ _ _), ← hr, ← hs]
          simp only [updateFunc, hx, Site.scope, List.flatMap_cons]
  simp only [registerThread, spread, hu _ (List.Subset.refl _)]

/-- What a call does to one builder it does to the other. -/
theorem spread_performed (h : σ.Marks b) {c : Call} {s s' : Supply} {eff : Effect} {v : Value}
    (he : c.effect b s = .ok ((eff, v), s')) :
    (b.spread σ).performed eff = (b.performed eff).map (Builder.spread σ) := by
  cases eff with
  | setTop y =>
      obtain ⟨x, ht, hr⟩ := (Call.effect_does he).refines
      exact congrArg Except.ok (spread_setTop h ht hr.ne_wrap y).symm
  | registerThread w tag => exact congrArg Except.ok (spread_registerThread h w tag).symm
  | append stmt => exact spread_appended h stmt

end Builder

/-! The site stays marked. -/

namespace Site.Marks

variable {σ : Site} {b b' : Builder}

/-- What is at the site has been there before. -/
theorem of_frames (h : σ.Marks b) (hn : b.nextId ≤ b'.nextId)
    (hf : ∀ f ∈ b'.frames, f.id = σ.frame → ∃ g ∈ b.frames, g.id = f.id ∧ g.scope = f.scope) :
    σ.Marks b' where
  next := Nat.lt_of_lt_of_le h.next hn
  scope f hm hid := by
    obtain ⟨g, hg, hi, hx⟩ := hf f hm hid
    exact hx ▸ h.scope g hg (hi.trans hid)

theorem push (h : σ.Marks b) (x : Scope) : σ.Marks (b.push x) := by
  refine h.of_frames (Nat.le_succ _) fun f hf hid => ?_
  obtain rfl | hf := List.mem_cons.1 hf
  · exact absurd hid (Nat.ne_of_gt h.next)
  · exact ⟨f, hf, rfl, rfl⟩

theorem setTop (h : σ.Marks b) {x : Scope} (ht : b.Top x) (hx : ∀ w, x ≠ .wrap w) (y : Scope) :
    σ.Marks (b.setTop y) := by
  obtain ⟨f, fs, hf, rfl⟩ := ht
  refine h.of_frames (by simp [Builder.setTop, hf]) fun g hg hid => ?_
  rw [Builder.frames_setTop hf] at hg
  obtain rfl | hg := List.mem_cons.1 hg
  · exact absurd (h.scope f (hf ▸ List.mem_cons_self) hid).1 (hx _)
  · exact ⟨g, hf ▸ List.mem_cons_of_mem f hg, rfl, rfl⟩

theorem appended (h : σ.Marks b) {s : Stmt} (ha : b.appended s = .ok b') : σ.Marks b' := by
  obtain ⟨f, fs, hf, rfl⟩ | ⟨-, r, rfl⟩ := Builder.appended_eq_ok ha
  · refine h.of_frames (Nat.le_refl _) fun g hg _ => ?_
    obtain rfl | hg := List.mem_cons.1 hg
    · exact ⟨f, hf ▸ List.mem_cons_self, rfl, rfl⟩
    · exact ⟨g, hf ▸ List.mem_cons_of_mem f hg, rfl, rfl⟩
  · exact h.of_frames (Nat.le_refl _) fun g hg _ => ⟨g, hg, rfl, rfl⟩

theorem registerThread (h : σ.Marks b) (v : Var) (tag : String) :
    σ.Marks (b.registerThread v tag) := by
  refine h.of_frames (Nat.le_refl _) fun f hf hid => ?_
  obtain hf | ⟨f, x, hm, hx, rfl⟩ := Builder.mem_updateFunc hf
  · exact ⟨f, hf, rfl, rfl⟩
  · have hs := (h.scope f hm hid).1
    rw [hx] at hs
    cases hs

theorem performed (h : σ.Marks b) {c : Call} {s s' : Supply} {eff : Effect} {v : Value}
    (he : c.effect b s = .ok ((eff, v), s')) (hp : b.performed eff = .ok b') : σ.Marks b' := by
  cases eff with
  | setTop y =>
      obtain ⟨x, ht, hr⟩ := (Call.effect_does he).refines
      cases hp
      exact h.setTop ht (hr.ne_wrap) y
  | registerThread w tag =>
      cases hp
      exact h.registerThread w tag
  | append stmt => exact h.appended hp

theorem appendedAll (h : σ.Marks b) {ss : List Stmt} (ha : b.appendedAll ss = .ok b') :
    σ.Marks b' :=
  Builder.appendedAll_induction (R := fun b b' => σ.Marks b → σ.Marks b') (fun _ h => h)
    (fun h h' hb => h' (h hb)) (fun ha hb => hb.appended ha) ha h

theorem delivered (h : σ.Marks b) {p : Product} (hd : b.delivered p = .ok b') : σ.Marks b' := by
  cases p with
  | stmts ss => exact h.appendedAll hd
  | func f =>
      obtain ⟨-, -, rfl⟩ := Builder.delivered_func hd
      exact ⟨h.next, h.scope⟩
  | blockInit s =>
      obtain ⟨x, ht, rfl⟩ := Builder.delivered_blockInit hd
      exact h.setTop ht (by simp) _
  | thenCase s =>
      obtain ⟨i, ht, rfl⟩ := Builder.delivered_thenCase hd
      exact h.setTop ht (by simp) _
  | elseCase s =>
      obtain ⟨i, ht, rfl⟩ := Builder.delivered_elseCase hd
      exact h.setTop ht (by simp) _

theorem pop (h : σ.Marks b) {f : Frame} {fs : List Frame} (hf : b.frames = f :: fs) :
    σ.Marks { b with frames := fs } :=
  ⟨h.next, fun g hg => h.scope g (hf ▸ List.mem_cons_of_mem f hg)⟩

theorem record (h : σ.Marks b) (e : BuildError) : σ.Marks (b.record e) := ⟨h.next, h.scope⟩

theorem failed (h : σ.Marks b) (f : Failure) : σ.Marks (b.failed f) := by
  cases f with
  | refused e => exact h.record e
  | overflow o => exact h

end Site.Marks

namespace Builder

variable {σ : Site} {b b' : Builder}

theorem spread_failed (b : Builder) (f : Failure) :
    (b.failed f).spread σ = (b.spread σ).failed f := by
  cases f <;> rfl

theorem spread_appendedAll (h : σ.Marks b) (ss : List Stmt) :
    (b.spread σ).appendedAll ss = (b.appendedAll ss).map (Builder.spread σ) := by
  induction ss generalizing b with
  | nil => rfl
  | cons s ss ih =>
      rw [appendedAll, appendedAll, spread_appended h]
      cases hs : b.appended s with
      | error e => rfl
      | ok c => exact ih (h.appended hs)

theorem spread_delivered (h : σ.Marks b) (p : Product) :
    (b.spread σ).delivered p = (b.delivered p).map (Builder.spread σ) := by
  have hv := h.sameView
  cases p with
  | stmts ss => exact spread_appendedAll h ss
  | func f =>
      have hr : (b.spread σ).result = b.result := rfl
      rw [delivered, delivered, hv.topKind, hr]
      cases b.topKind? with
      | some top => rfl
      | none => cases b.result <;> rfl
  | blockInit s =>
      rw [delivered, delivered, hv.topBlock]
      cases ht : b.topBlock "init" with
      | error e => rfl
      | ok x =>
          exact congrArg Except.ok (spread_setTop h (topBlock_eq_ok_iff.1 ht) (by simp) _).symm
  | thenCase s =>
      rw [delivered, delivered, hv.topBranch]
      cases ht : b.topBranch "then_" with
      | error e => rfl
      | ok i =>
          exact congrArg Except.ok (spread_setTop h (topBranch_eq_ok_iff.1 ht) (by simp) _).symm
  | elseCase s =>
      rw [delivered, delivered, hv.topBranch]
      cases ht : b.topBranch "else_" with
      | error e => rfl
      | ok i =>
          exact congrArg Except.ok (spread_setTop h (topBranch_eq_ok_iff.1 ht) (by simp) _).symm

/-- Opening a scope around a nest or over it. -/
theorem spread_openScope (h : σ.Marks b) (s : Supply) (o : Opening) :
    (b.spread σ).openScope s o =
      ((b.openScope s o).1.map fun r => (σ.place r.1, r.2), (b.openScope s o).2.1.spread σ,
        (b.openScope s o).2.2) := by
  rw [openScope_eq, openScope_eq, Opening.scope_congr h.sameView]
  cases o.scope b s with
  | error f => exact congrArg (fun c => (Except.error f, c, s)) (spread_failed b f).symm
  | ok p => exact congrArg (fun c => (Except.ok _, c, p.2)) (spread_push h p.1.1).symm

theorem spread_call (h : σ.Marks b) (s : Supply) (c : Call) :
    (b.spread σ).call s c =
      ((b.call s c).1, (b.call s c).2.1.spread σ, (b.call s c).2.2) := by
  rw [call_eq, call_eq, Call.effect_congr h.sameView, Call.spent_congr h.sameView]
  cases he : c.effect b s with
  | error f => exact congrArg (fun d => (Except.error f, d, _)) (spread_failed b f).symm
  | ok p =>
      dsimp only
      rw [spread_performed h he]
      cases b.performed p.1.1 <;> rfl

theorem any_id_spread (h : σ.Marks b) {id : Nat} (hid : id ≠ σ.frame) {fs : List Frame}
    (hfs : fs ⊆ b.frames) :
    (fs.flatMap σ.spread).any (·.id = σ.place id) = fs.any (·.id = id) := by
  apply Site.any_spread
  intro f hf
  obtain ⟨hn, hs⟩ | ⟨-, l, ls, hl, hi, hs⟩ := h.cases (hfs hf)
  · rw [hs]
    simp [Site.place, shift_inj hn hid]
  · have hne : f.id ≠ id := fun he => hid (he.symm.trans hi)
    have hnone : (nest σ.frame f.stmts (l :: ls)).any (·.id = σ.place id) = false := by
      have ho := shift_outside (n := σ.loops.length) hid
      refine any_id_nest fun i hlo hhi => ?_
      rw [← hl] at hhi
      rw [Site.place]
      omega
    rw [hs, hnone, decide_eq_false hne]

/-- What a scope makes when it is closed has nothing to do with its number. -/
theorem spread_close_top {f : Frame} {fs : List Frame} (h : σ.Marks b) (hb : b.frames = f :: fs)
    (hn : f.id ≠ σ.frame) (kind : ScopeKind) :
    (b.spread σ).close (σ.place f.id) kind =
      ((b.close f.id kind).1, (b.close f.id kind).2.spread σ) := by
  have hs : (b.spread σ).frames = { f with id := σ.place f.id } :: fs.flatMap σ.spread := by
    simp [spread, hb, Site.spread_of_ne hn]
  have hd : (Frame.close (b.spread σ).config { f with id := σ.place f.id }).bind
      { b.spread σ with frames := fs.flatMap σ.spread }.delivered =
        ((f.close b.config).bind { b with frames := fs }.delivered).map (Builder.spread σ) := by
    change (f.close b.config).bind (Builder.spread σ { b with frames := fs }).delivered = _
    cases f.close b.config with
    | error e => rfl
    | ok p => exact spread_delivered (h.pop hb) p
  have hc := close_of_top kind hs
  rw [hd] at hc
  rw [hc, close_of_top kind hb]
  cases (f.close b.config).bind { b with frames := fs }.delivered <;> rfl

theorem spread_close (h : σ.Marks b) {id : Nat} (hid : id ≠ σ.frame) (kind : ScopeKind) :
    (b.spread σ).close (σ.place id) kind =
      ((b.close id kind).1, (b.close id kind).2.spread σ) := by
  cases hb : b.frames with
  | nil =>
      have hs : (b.spread σ).frames = [] := by simp [spread, hb]
      rw [close_of_nil kind hb, close_of_nil kind hs]
      rfl
  | cons f fs =>
      have hfs : fs ⊆ b.frames := hb ▸ List.subset_cons_self f fs
      have hany := any_id_spread h hid hfs
      obtain ⟨hn, hs⟩ | ⟨hx, l, ls, hl, hi, hs⟩ := h.cases (hb ▸ List.mem_cons_self : f ∈ b.frames)
      · by_cases hf : f.id = id
        · exact hf ▸ spread_close_top h hb hn kind
        · have hs : (b.spread σ).frames = { f with id := σ.place f.id } :: fs.flatMap σ.spread := by
            simp [spread, hb, hs]
          have hne : σ.place f.id ≠ σ.place id := fun he => hf ((shift_inj hn hid).1 he)
          rw [close_of_ne kind hb hf, close_of_ne kind hs hne]
          simp only [missed, hany]
          rfl
      · have hf : f.id ≠ id := fun he => hid (he.symm.trans hi)
        have hs : (b.spread σ).frames = ⟨σ.frame + ls.length,
            .wrap { kind := .loops, heads := [.loop l] }, f.stmts⟩ ::
              (nest σ.frame [] ls ++ fs.flatMap σ.spread) := by
          simp [spread, hb, hs, nest]
        have ho := shift_outside (n := σ.loops.length) hid
        have hne : σ.frame + ls.length ≠ σ.place id := by
          rw [Site.place]
          rw [hl, List.length_cons] at ho ⊢
          omega
        have hnest : (nest σ.frame [] ls).any (·.id = σ.place id) = false :=
          any_id_nest fun i hlo hhi => by
            rw [Site.place]
            rw [hl, List.length_cons] at ho ⊢
            omega
        have hk : f.kind = .loops := by rw [Frame.kind, hx]; rfl
        rw [close_of_ne kind hb hf, close_of_ne kind hs hne]
        simp only [missed, List.any_append, hnest, hany, Bool.false_or, hk]
        rfl

theorem spread_finish (h : σ.Marks b) :
    (b.spread σ).finish.1.toOption = b.finish.1.toOption ∧
      (b.spread σ).finish.2 = b.finish.2.spread σ := by
  have he : (b.spread σ).firstError = b.firstError := rfl
  have hr : (b.spread σ).result = b.result := rfl
  have hf : (b.spread σ).frames.isEmpty = b.frames.isEmpty := by
    have hk (b : Builder) : b.frames.isEmpty = b.topKind?.isNone := by
      rw [topKind?]
      cases b.frames <;> rfl
    rw [hk, hk, h.topKind?]
  rw [finish, finish, he, hr, hf]
  cases b.firstError with
  | some e => exact ⟨rfl, rfl⟩
  | none =>
      dsimp only
      split
      · cases b.result <;> exact ⟨rfl, rfl⟩
      · exact ⟨rfl, rfl⟩

end Builder

namespace Site

variable {σ : Site} {b : Builder}

namespace Marks

variable (h : σ.Marks b)

include h

theorem openScope (s : Supply) (o : Opening) : σ.Marks (b.openScope s o).2.1 := by
  rw [Builder.openScope_eq]
  cases o.scope b s with
  | error f => exact h.failed f
  | ok p => exact h.push p.1.1

theorem call (s : Supply) (c : Call) : σ.Marks (b.call s c).2.1 := by
  rw [Builder.call_eq]
  cases he : c.effect b s with
  | error f => exact h.failed f
  | ok p =>
      dsimp only
      cases hp : b.performed p.1.1 with
      | error e => exact h.record e
      | ok b' => exact h.performed he hp

theorem close (id : Nat) (kind : ScopeKind) : σ.Marks (b.close id kind).2 := by
  cases hb : b.frames with
  | nil =>
      rw [Builder.close_of_nil kind hb]
      exact h.record _
  | cons f fs =>
      by_cases hid : f.id = id
      · rw [← hid, Builder.close_of_top kind hb]
        cases hp : f.close b.config with
        | error e => exact (h.pop hb).record e
        | ok p =>
            cases hd : { b with frames := fs }.delivered p with
            | error e => simpa only [Except.bind, hd] using (h.pop hb).record e
            | ok b' => simpa only [Except.bind, hd] using (h.pop hb).delivered hd
      · rw [Builder.close_of_ne kind hb hid]
        exact h.record _

theorem finish : σ.Marks b.finish.2 := by
  rw [Builder.finish]
  cases b.firstError with
  | some e => exact ⟨h.next, h.scope⟩
  | none =>
      dsimp only
      split
      · cases b.result <;> exact ⟨h.next, h.scope⟩
      · exact h

end Marks

/-- The builder with the nest is a mirror of the one with the single scope. -/
def Unfolds (σ : Site) (b b' : Builder) : Prop := σ.Marks b ∧ b' = b.spread σ

theorem mirrors (σ : Site) :
    Builder.Mirrors σ.place (· ≠ σ.frame) σ.Unfolds fun _ => False where
  next h := Nat.ne_of_gt h.1.next
  openScope := by
    rintro b _ ⟨h, rfl⟩ s o
    exact Or.inr ⟨_, Builder.spread_openScope h s o, h.openScope s o, rfl⟩
  call := by
    rintro b _ ⟨h, rfl⟩ s c
    exact Or.inr ⟨_, Builder.spread_call h s c, h.call s c, rfl⟩
  close := by
    rintro b _ ⟨h, rfl⟩ id hid kind
    exact Or.inr ⟨_, Builder.spread_close h hid kind, h.close id kind, rfl⟩

theorem finishes (σ : Site) : Builder.Finishes σ.Unfolds := by
  rintro b _ ⟨h, rfl⟩
  obtain ⟨hr, hb⟩ := Builder.spread_finish h
  exact ⟨hr, h.finish, hb⟩

end Site

end TensorProgram
