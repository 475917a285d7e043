import TensorProgram.Proofs.Outcome
import TensorProgram.Proofs.Tracking

/-!
Conditionals. A conditional takes a first branch, perhaps a second one after it, and nothing else
that makes a statement. This is looked at piece by piece, when a branch is opened and when the
conditional is closed; taken together the checks accept these lists of parts and no others,
whatever lies inside the branches or has been refused in between.
-/

namespace TensorProgram

namespace Item

/-- The item is a then branch. -/
def isThen : Item → Bool
  | .scope _ .thenCase _ _ => true
  | _ => false

/-- The item is an else branch. -/
def isElse : Item → Bool
  | .scope _ .elseCase _ _ => true
  | _ => false

def isBranch (i : Item) : Bool := i.isThen || i.isElse

/-- The statements that the items deliver, as one. -/
def body (c : Config) (around : List Head) (items : List Item) : Stmt :=
  .sequence ((products c around items).flatMap Product.body)

/-- The two cases of a conditional with these items, if its branches come in their order and no
other item delivers a statement. -/
def cases? (c : Config) (around : List Head) (items : List Item) : Option (Stmt × Option Stmt) :=
  match items.filter fun i => i.isBranch || i.delivers with
  | [.scope _ .thenCase _ ts] => some (body c around ts, none)
  | [.scope _ .thenCase _ ts, .scope _ .elseCase _ es] =>
      some (body c around ts, some (body c around es))
  | _ => none

/-- A branch, then perhaps another one. -/
inductive Paired : List Item → Prop where
  | none : Paired []
  | first (id : Nat) (v : Value) (ts : List Item) : Paired [.scope id .thenCase v ts]
  | both (id : Nat) (v : Value) (ts : List Item) (id' : Nat) (v' : Value) (es : List Item) :
      Paired [.scope id .thenCase v ts, .scope id' .elseCase v' es]

variable {c : Config} {around : List Head} {i : Item} {items : List Item}

theorem isSome_then?_product (c : Config) (around : List Head) (i : Item) :
    (i.product c around).then?.isSome = i.isThen := by
  cases i with
  | call s k v => rfl
  | scope id o v items =>
      cases o with
      | grid es => cases es <;> rfl
      | _ => rfl

theorem isSome_else?_product (c : Config) (around : List Head) (i : Item) :
    (i.product c around).else?.isSome = i.isElse := by
  cases i with
  | call s k v => rfl
  | scope id o v items =>
      cases o with
      | grid es => cases es <;> rfl
      | _ => rfl

/-- A branch goes to its conditional, and not to what is around that. -/
theorem isBranch_of_delivers (h : i.delivers = true) : i.isBranch = false := by
  cases i with
  | call s k v => rfl
  | scope id o v items =>
      cases o with
      | thenCase | elseCase => cases h
      | _ => rfl

theorem deliversAny_eq (is : List Item) : deliversAny is = is.any delivers := by
  induction is with
  | nil => rfl
  | cons i is ih => rw [deliversAny, ih, List.any_cons]

theorem findSome?_products_filter {α : Type} {f : Product → Option α} {p : Item → Bool}
    (hf : ∀ i, p i = false → f (product c around i) = none) (is : List Item) :
    (products c around is).findSome? f = (products c around (is.filter p)).findSome? f := by
  induction is with
  | nil => rfl
  | cons i is ih =>
      rw [products, List.findSome?_cons, ih]
      cases hp : p i with
      | true => rw [List.filter_cons_of_pos hp, products, List.findSome?_cons]
      | false =>
          rw [List.filter_cons_of_neg (by simp [hp]), hf i hp]

/-- What the checks at a conditional have come to when it is closed. -/
theorem cases?_eq (h : Paired (items.filter isBranch)) :
    let ps := products c around items
    cases? c around items = if ps.flatMap Product.body = [] then
      (ps.findSome? Product.then?).map fun t => (t, ps.findSome? Product.else?) else none := by
  intro ps
  have hempty := isEmpty_body_products c around items
  rw [deliversAny_eq] at hempty
  cases hd : items.any delivers with
  | true =>
      have hn : ps.flatMap Product.body ≠ [] := by
        rw [hd] at hempty
        exact mt List.isEmpty_iff.2 (by simp [ps, hempty])
      rw [if_neg hn]
      -- Some item delivers a statement, and so the items that matter are not branches only.
      obtain ⟨i, hi, hid⟩ := List.any_eq_true.1 hd
      have hm : i ∈ items.filter fun i => i.isBranch || i.delivers :=
        List.mem_filter.2 ⟨hi, by simp [hid]⟩
      have hb := isBranch_of_delivers hid
      rw [cases?]
      split
      · rename_i he
        rw [he, List.mem_singleton] at hm
        rw [hm] at hb
        cases hb
      · rename_i he
        rw [he, List.mem_cons, List.mem_singleton] at hm
        obtain rfl | rfl := hm <;> cases hb
      · rfl
  | false =>
      have hn : ps.flatMap Product.body = [] := by
        rw [hd] at hempty
        exact List.isEmpty_iff.1 hempty
      have hf : (items.filter fun i => i.isBranch || i.delivers) = items.filter isBranch := by
        refine List.filter_congr fun i hi => ?_
        rw [List.any_eq_false] at hd
        simp [hd i hi]
      have ht : ps.findSome? Product.then? =
          (products c around (items.filter isBranch)).findSome? Product.then? := by
        refine findSome?_products_filter (fun i hi => ?_) items
        rw [isBranch, Bool.or_eq_false_iff, ← isSome_then?_product c around] at hi
        exact Option.isSome_eq_false_iff.1 hi.1 |> Option.isNone_iff_eq_none.1
      have he : ps.findSome? Product.else? =
          (products c around (items.filter isBranch)).findSome? Product.else? := by
        refine findSome?_products_filter (fun i hi => ?_) items
        rw [isBranch, Bool.or_eq_false_iff, ← isSome_else?_product c around] at hi
        exact Option.isSome_eq_false_iff.1 hi.2 |> Option.isNone_iff_eq_none.1
      rw [if_pos hn, cases?, hf, ht, he]
      generalize items.filter isBranch = bs at h
      cases h with
      | none | first _ _ _ | both _ _ _ _ _ _ => rfl

/-- There are cases if there is a first branch and nothing delivers a statement. -/
theorem isSome_cases? (h : Paired (items.filter isBranch)) :
    (cases? c around items).isSome ↔ items.any isThen = true ∧ deliversAny items = false := by
  have hempty := isEmpty_body_products c around items
  rw [cases?_eq h, ← isSome_findSome?_products (isSome_then?_product c around)]
  cases hd : deliversAny items with
  | true =>
      rw [hd] at hempty
      have hn : (products c around items).flatMap Product.body ≠ [] :=
        mt List.isEmpty_iff.2 (by simp [hempty])
      simp [hn]
  | false =>
      rw [hd] at hempty
      rw [if_pos (List.isEmpty_iff.1 hempty)]
      simp

namespace Paired

variable {is : List Item}

theorem snoc_other (h : Paired (is.filter isBranch)) (hi : i.isBranch = false) :
    Paired ((is ++ [i]).filter isBranch) := by
  rw [List.filter_append, List.filter_cons_of_neg (by simp [hi]), List.filter_nil, List.append_nil]
  exact h

theorem snoc_then (h : Paired (is.filter isBranch)) (hn : is.any isThen = false) (id : Nat)
    (v : Value) (ts : List Item) :
    Paired ((is ++ [scope id .thenCase v ts]).filter isBranch) := by
  have hb : ∀ i ∈ is.filter isBranch, i.isThen = false := by
    intro i hi
    simpa using List.any_eq_false.1 hn i (List.mem_filter.1 hi).1
  rw [List.filter_append]
  generalize is.filter isBranch = bs at h hb
  cases h with
  | none => exact .first id v ts
  | first _ _ _ | both _ _ _ _ _ _ => cases hb _ List.mem_cons_self

theorem snoc_else (h : Paired (is.filter isBranch)) (ht : is.any isThen = true)
    (hn : is.any isElse = false) (id : Nat) (v : Value) (es : List Item) :
    Paired ((is ++ [scope id .elseCase v es]).filter isBranch) := by
  have hb : ∀ i ∈ is.filter isBranch, i.isElse = false := by
    intro i hi
    simpa using List.any_eq_false.1 hn i (List.mem_filter.1 hi).1
  obtain ⟨t, hm, ht⟩ := List.any_eq_true.1 ht
  have hm : t ∈ is.filter isBranch := List.mem_filter.2 ⟨hm, by simp [isBranch, ht]⟩
  rw [List.filter_append]
  generalize is.filter isBranch = bs at h hb hm
  cases h with
  | none => cases hm
  | first id' v' ts => exact .both id' v' ts id v es
  | both _ _ _ _ _ _ => cases hb _ (List.mem_cons_of_mem _ List.mem_cons_self)

end Paired

end Item

/-- A conditional is open exactly if a conditional has been opened, and its cases are those that
its items have made. -/
theorem Opening.Shows.branch? {c : Config} {around : List Head} {v : Value} {items : List Item}
    {ps : List Product} {o : Opening} {x : Scope} (h : o.Shows c around v items ps x)
    (i : BranchScope) : x.branch? = some i ↔
      o = .branch i.condition ∧ i.thenCase = ps.findSome? Product.then? ∧
        i.elseCase = ps.findSome? Product.else? := by
  cases h with
  | branch condition =>
      simp only [Scope.branch?, Option.some.injEq, Opening.branch.injEq]
      constructor
      · rintro rfl
        exact ⟨rfl, rfl, rfl⟩
      · rintro ⟨rfl, ht, he⟩
        rw [← ht, ← he]
  | func _ | block _ _ | blockInit | thenCase | elseCase => simp [Scope.branch?]
  | wrap ho hw =>
      simp only [Scope.branch?, reduceCtorEq, false_iff]
      rintro ⟨rfl, -⟩
      cases ho

theorem Scope.branch?_eq_some {x : Scope} {i : BranchScope} :
    x.branch? = some i ↔ x = .branch i := by
  cases x <;> simp [branch?]

namespace Nest

variable {c : Config} {x y : Pending} {xs : List Pending} {f g : Frame} {fs : List Frame}

/-- What is open of a conditional, in terms of its items. -/
theorem Shows.branch {i : BranchScope} (h : Shows c (x :: xs) (g :: fs))
    (hi : g.scope = .branch i) : x.opening = .branch i.condition ∧
      x.items.any Item.isThen = i.thenCase.isSome ∧
      x.items.any Item.isElse = i.elseCase.isSome := by
  obtain ⟨-, hg, -, -⟩ := h
  obtain ⟨ho, ht, he⟩ := (hg.branch? i).1 (by rw [hi]; rfl)
  rw [ht, he]
  exact ⟨ho, (Item.isSome_findSome?_products (Item.isSome_then?_product c _) _).symm,
    (Item.isSome_findSome?_products (Item.isSome_else?_product c _) _).symm⟩

/-- A branch that is closed comes after those that were there. -/
theorem Shows.paired (h : Shows c (y :: x :: xs) (f :: g :: fs))
    (hs : f.scope.SitsOn ((g :: fs).map Frame.scope))
    (hx : Item.Paired (x.items.filter Item.isBranch)) :
    Item.Paired ((x.items ++ [Item.scope y.id y.opening y.value y.items]).filter
      Item.isBranch) := by
  obtain ⟨-, hy, -, hg⟩ := h
  generalize f.scope = x at hs hy
  cases ho : y.opening with
  | thenCase =>
      rw [ho] at hy
      cases hy with
      | wrap ho _ => cases ho
      | thenCase =>
          obtain ⟨_, _, i, he, hi, ht, -⟩ := Scope.sitsOn_thenCase hs
          cases he
          refine hx.snoc_then ?_ _ _ _
          rw [(hg.branch hi).2.1, ht]
          rfl
  | elseCase =>
      rw [ho] at hy
      cases hy with
      | wrap ho _ => cases ho
      | elseCase =>
          obtain ⟨_, _, i, hn, hi, ht, he⟩ := Scope.sitsOn_elseCase hs
          cases hn
          refine hx.snoc_else ?_ ?_ _ _ _
          · rw [(hg.branch hi).2.1, ht]
          · rw [(hg.branch hi).2.2, he]
            rfl
  | _ => exact hx.snoc_other rfl

/-- Whether a conditional is the innermost scope, and which branches it has already. -/
theorem Shows.top?_branch {b : Builder} {ys : List Pending} (h : Shows c ys b.frames)
    (p : Bool → Bool → Prop) :
    (∃ i, b.top? Scope.branch? = some i ∧ p i.thenCase.isSome i.elseCase.isSome) ↔
      ∃ x xs condition, ys = x :: xs ∧ x.opening = .branch condition ∧
        p (x.items.any Item.isThen) (x.items.any Item.isElse) := by
  cases ys with
  | nil => simp [Builder.top?, h.frames_eq_nil]
  | cons x xs =>
      obtain ⟨f, fs, hf⟩ := h.frames_eq_cons
      rw [hf] at h
      have ht : b.top? Scope.branch? = f.scope.branch? := by simp [Builder.top?, hf]
      rw [ht]
      constructor
      · rintro ⟨i, hi, hp⟩
        obtain ⟨ho, ht, he⟩ := h.branch (Scope.branch?_eq_some.1 hi)
        refine ⟨x, xs, i.condition, rfl, ho, ?_⟩
        rwa [ht, he]
      · rintro ⟨_, _, condition, hn, ho, hp⟩
        cases hn
        have hi := (h.2.1.branch? ⟨condition, _, _⟩).2 ⟨ho, rfl, rfl⟩
        obtain ⟨-, ht, he⟩ := h.branch (Scope.branch?_eq_some.1 hi)
        rw [ht, he] at hp
        exact ⟨_, hi, hp⟩

/-- A conditional is closed to its cases, if it has come to any. -/
theorem Shows.close_branch {condition : Expr} (h : Shows c (x :: xs) (f :: fs))
    (ho : x.opening = .branch condition) (hp : Item.Paired (x.items.filter Item.isBranch)) :
    (∀ t e, Item.cases? c (around c xs) x.items = some (t, e) →
      f.close c = .ok (.stmts [.branch condition t e])) ∧
    (Item.cases? c (around c xs) x.items = none →
      ∃ detail, f.close c = .error (.pairing "if_" detail)) := by
  obtain ⟨-, hx, hst, -⟩ := h
  have ha : products c x xs = Item.products c (around c xs) x.items := by
    rw [products, around, ho]
    rfl
  rw [ha] at hx hst
  have hs := Scope.branch?_eq_some.1 ((hx.branch? ⟨condition, _, _⟩).2 ⟨ho, rfl, rfl⟩)
  rw [Item.cases?_eq hp, Frame.close, hs, hst]
  simp only [BranchScope.close, List.isEmpty_iff]
  split
  · cases (Item.products c (around c xs) x.items).findSome? Product.then? with
    | none => exact ⟨by simp, fun _ => ⟨_, rfl⟩⟩
    | some t =>
        refine ⟨?_, by simp⟩
        rintro _ _ ⟨⟩
        rfl
  · exact ⟨by simp, fun _ => ⟨_, rfl⟩⟩

end Nest

namespace Opening

variable {b : Builder}

theorem checkThen_eq_ok_iff :
    checkThen b = .ok () ↔ ∃ i, b.top? Scope.branch? = some i ∧ i.thenCase.isSome = false := by
  rw [checkThen]
  cases b.top? Scope.branch? with
  | none => simp
  | some i => cases hi : i.thenCase <;> simp [hi]

theorem checkElse_eq_ok_iff :
    checkElse b = .ok () ↔ ∃ i, b.top? Scope.branch? = some i ∧
      i.thenCase.isSome = true ∧ i.elseCase.isSome = false := by
  rw [checkElse]
  cases b.top? Scope.branch? with
  | none => simp
  | some i => cases hi : i.thenCase <;> cases he : i.elseCase <;> simp [hi, he]

theorem checkThen_error {e : BuildError} (h : checkThen b = .error e) :
    ∃ detail, e = .pairing "then_" detail := by
  rw [checkThen] at h
  split at h
  · exact ⟨_, (Except.error.inj h).symm⟩
  · split at h
    · exact ⟨_, (Except.error.inj h).symm⟩
    · cases h

theorem checkElse_error {e : BuildError} (h : checkElse b = .error e) :
    ∃ detail, e = .pairing "else_" detail := by
  rw [checkElse] at h
  split at h
  · exact ⟨_, (Except.error.inj h).symm⟩
  · split at h
    · exact ⟨_, (Except.error.inj h).symm⟩
    · split at h
      · exact ⟨_, (Except.error.inj h).symm⟩
      · cases h

end Opening

namespace World

variable {w : World} {t : ThreadId} {id : SessionId}

/-- An opening that makes a scope of its own is accepted if its check is. -/
theorem openScope_of_check {o : Opening} {x : Scope} {check : Builder → Except BuildError Unit}
    (live : w.live t = some id)
    (ho : ∀ b, o.scope b = do
      Attempt.check (check b)
      return (x, Value.unit)) :
    w.openScope t o = match check (w.builder id) with
      | .ok _ => (.ok (⟨id, (w.builder id).nextId, x.kind⟩, .unit),
          { w with builder := update w.builder id ((w.builder id).push x) })
      | .error e => (.error (.refused e),
          { w with builder := update w.builder id ((w.builder id).record e) }) := by
  rw [openScope_of_live live, Builder.openScope_eq, ho, Attempt.bind_apply, Attempt.check_apply]
  cases check (w.builder id) <;> rfl

/-- The innermost scope of a session is closed. -/
theorem close_of_top {f : Frame} {fs : List Frame} (hf : (w.builder id).frames = f :: fs)
    (kind : ScopeKind) :
    w.close ⟨id, f.id, kind⟩ =
      match (f.close (w.builder id).config).bind
        { w.builder id with frames := fs }.delivered with
      | .ok b => (.ok (), { w with builder := update w.builder id b })
      | .error e => (.error e, { w with
          builder := update w.builder id ({ w.builder id with frames := fs }.record e) }) := by
  rw [close, Builder.close_of_top kind hf]
  cases (f.close (w.builder id).config).bind { w.builder id with frames := fs }.delivered <;> rfl

theorem openScope_check_ok_iff {o : Opening} {x : Scope} {check : Builder → Except BuildError Unit}
    (live : w.live t = some id)
    (ho : ∀ b, o.scope b = do
      Attempt.check (check b)
      return (x, Value.unit)) :
    (∃ r, (w.openScope t o).1 = .ok r) ↔ check (w.builder id) = .ok () := by
  rw [openScope_of_check live ho]
  cases check (w.builder id) <;> simp

theorem openScope_check_error {o : Opening} {x : Scope} {check : Builder → Except BuildError Unit}
    {f : Failure} (live : w.live t = some id)
    (ho : ∀ b, o.scope b = do
      Attempt.check (check b)
      return (x, Value.unit))
    (h : (w.openScope t o).1 = .error f) :
    ∃ e, check (w.builder id) = .error e ∧ f = .refused e := by
  rw [openScope_of_check live ho] at h
  cases hc : check (w.builder id) with
  | ok u => simp [hc] at h
  | error e =>
      simp only [hc, Except.error.injEq] at h
      exact ⟨e, rfl, h.symm⟩

end World

namespace Program

/-- The branches of every conditional come in their order. -/
theorem paired_run (supply : Supply) (acts : List Action) (id : SessionId) :
    ∀ x ∈ (run supply acts).pending id, Item.Paired (x.items.filter Item.isBranch) := by
  refine items_run (I := fun is => Item.Paired (is.filter Item.isBranch)) Item.Paired.none ?_ ?_
  · intro H b s k u eff s' x xs _ _ _ _ hx
    exact hx.snoc_other rfl
  · intro n b y x xs hm hs hn hx
    obtain ⟨f, fs, hf, h⟩ := hm.scopes.frames_of_cons hn
    rw [hf] at hs
    obtain ⟨g, gs, rfl⟩ := h.2.2.2.frames_eq_cons
    exact h.paired hs.1 hx

/-- A branch can be opened directly in a conditional that has none of its kind, the second one
after the first; and a conditional that holds a first branch and delivers no statement of its own
is made of the statements delivered in its branches. Anything else is a mistake in pairing. -/
theorem branches_paired (supply : Supply) (acts : List Action) :
    let p := run supply acts
    let w := p.world
    (∀ t id, w.live t = some id →
      ((∃ r, (w.openScope t .thenCase).1 = .ok r) ↔ ∃ x xs condition, p.pending id = x :: xs ∧
        x.opening = .branch condition ∧ x.items.any Item.isThen = false) ∧
      ((∃ r, (w.openScope t .elseCase).1 = .ok r) ↔ ∃ x xs condition, p.pending id = x :: xs ∧
        x.opening = .branch condition ∧ x.items.any Item.isThen = true ∧
        x.items.any Item.isElse = false) ∧
      ∀ o ∈ [Opening.thenCase, .elseCase], ∀ f, (w.openScope t o).1 = .error f →
        ∃ detail, f = .refused (.pairing o.op detail)) ∧
    ∀ id x xs condition kind, p.pending id = x :: xs → x.opening = .branch condition →
      let b := w.builder id
      let closed := w.close ⟨id, x.id, kind⟩
      let made := Item.cases? b.config (Nest.around b.config xs) x.items
      (made.isSome ↔ x.items.any Item.isThen = true ∧ Item.deliversAny x.items = false) ∧
      ∃ f fs, b.frames = f :: fs ∧ f.id = x.id ∧
        (∀ t e, made = some (t, e) →
          f.close b.config = .ok (.stmts [.branch condition t e]) ∧
          closed = match { b with frames := fs }.appended (.branch condition t e) with
            | .ok b' => (.ok (), { w with builder := update w.builder id b' })
            | .error e => (.error e,
                { w with builder := update w.builder id ({ b with frames := fs }.record e) })) ∧
        (made = none → ∃ detail, f.close b.config = .error (.pairing "if_" detail) ∧
          closed.1 = .error (.pairing "if_" detail)) := by
  intro p w
  constructor
  · intro t id live
    have hs := shows_run supply acts id
    refine ⟨?_, ?_, ?_⟩
    · rw [World.openScope_check_ok_iff live fun _ => rfl, Opening.checkThen_eq_ok_iff]
      exact hs.top?_branch fun t _ => t = false
    · rw [World.openScope_check_ok_iff live fun _ => rfl, Opening.checkElse_eq_ok_iff]
      exact hs.top?_branch fun t e => t = true ∧ e = false
    · intro o ho f hf
      rw [List.mem_cons, List.mem_singleton] at ho
      obtain rfl | rfl := ho
      · obtain ⟨e, hc, rfl⟩ := World.openScope_check_error live (fun _ => rfl) hf
        obtain ⟨detail, rfl⟩ := Opening.checkThen_error hc
        exact ⟨detail, rfl⟩
      · obtain ⟨e, hc, rfl⟩ := World.openScope_check_error live (fun _ => rfl) hf
        obtain ⟨detail, rfl⟩ := Opening.checkElse_error hc
        exact ⟨detail, rfl⟩
  · intro id x xs condition kind hn ho b closed made
    have hp := paired_run supply acts id x (by rw [hn]; exact List.mem_cons_self)
    obtain ⟨f, fs, hf, h⟩ := (shows_run supply acts id).frames_of_cons hn
    obtain ⟨hok, herr⟩ := h.close_branch ho hp
    have hc : closed = _ := h.1 ▸ World.close_of_top hf kind
    refine ⟨Item.isSome_cases? hp, f, fs, hf, h.1, ?_, ?_⟩
    · intro t e hm
      refine ⟨hok t e hm, ?_⟩
      rw [hc, hok t e hm]
      simp only [Except.bind, Builder.delivered, Builder.appendedAll]
      cases { b with frames := fs }.appended (.branch condition t e) <;> rfl
    · intro hm
      obtain ⟨detail, hd⟩ := herr hm
      refine ⟨detail, hd, ?_⟩
      rw [hc, hd]
      rfl

/-- A conditional with both branches, in which an else came too early, a second then was refused,
and a grid without extents has put nothing between the two. -/
def branching : List Action := [.enter 0 {}, .openScope 0 (.branch (.bool true)),
  .openScope 0 .elseCase, .openScope 0 .thenCase, .call 0 (.evaluate (.int32 1)),
  .close ⟨0, 1, .thenCase⟩, .openScope 0 .thenCase, .openScope 0 (.grid []),
  .close ⟨0, 2, .loops⟩, .openScope 0 .elseCase, .call 0 (.evaluate (.int32 2)),
  .call 0 (.evaluate (.int32 3)), .drop ⟨0, 3, .elseCase⟩]

theorem branches_paired_branching :
    let w := (run .counting branching).world
    (∃ detail, (w.openScope 0 .elseCase).1 = .error (.refused (.pairing "else_" detail))) ∧
      ∃ f fs, (w.builder 0).frames = f :: fs ∧
        f.close (w.builder 0).config = .ok (.stmts [.branch (.bool true) (.evaluate (.int32 1))
          (some (.seq [.evaluate (.int32 2), .evaluate (.int32 3)]))]) ∧
        (w.close ⟨0, 0, .branch⟩).1 = .ok () := by
  intro w
  have h := branches_paired .counting branching
  constructor
  · obtain ⟨-, -, refused⟩ := h.1 0 0 rfl
    obtain ⟨detail, hd⟩ := refused .elseCase (by simp) _ rfl
    exact ⟨detail, congrArg Except.error hd⟩
  · obtain ⟨-, f, fs, hf, -, accepted, -⟩ := h.2 0 _ _ (.bool true) .branch rfl rfl
    exact ⟨f, fs, hf, (accepted _ _ rfl).1, rfl⟩

end Program

end TensorProgram
