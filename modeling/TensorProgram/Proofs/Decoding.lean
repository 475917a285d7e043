import TensorProgram.Proofs.Renaming

/-!
Reading back what is written down. Nothing marks the end of a piece of syntax, and an
optional type of a variable leaves no trace when it is missing; still, of two outlines
whose tokens are the beginnings of one list, both and both rests are the same, as long as
no type comes next. Of constants this is true only when their type tells their kind.
-/

namespace TensorProgram

/-- The tokens do not begin with a static type. -/
def plain : List Token → Bool
  | .tag n :: _ => n != "prim" && n != "ptr" && n != "tuple"
  | _ => true

namespace BinOp

theorem text_injective {a b : BinOp} (h : a.text = b.text) : a = b := by
  cases a <;> cases b <;> first | rfl | exact absurd h (by decide)

end BinOp

theorem BufferKind.text_injective {a b : BufferKind} (h : a.text = b.text) : a = b := by
  cases a <;> cases b <;> first | rfl | exact absurd h (by decide)

theorem IterKind.text_injective {a b : IterKind} (h : a.text = b.text) : a = b := by
  cases a <;> cases b <;> first | rfl | exact absurd h (by decide)

theorem LoopKind.text_injective {a b : LoopKind} (h : a.text = b.text) : a = b := by
  cases a <;> cases b <;> first | rfl | exact absurd h (by decide)

mutual

theorem ValueType.decode : (t u : ValueType) → (r r' : List Token) →
    t.tokens ++ r = u.tokens ++ r' → t = u ∧ r = r'
  | .prim d, u, r, r', h => by
      cases u with
      | prim e => simpa [ValueType.tokens] using h
      | pointer e s => simp [ValueType.tokens] at h
      | tuple us => simp [ValueType.tokens] at h
  | .pointer d s, u, r, r', h => by
      cases u with
      | prim e => simp [ValueType.tokens] at h
      | pointer e s' => simpa [ValueType.tokens, and_assoc] using h
      | tuple us => simp [ValueType.tokens] at h
  | .tuple ts, u, r, r', h => by
      cases u with
      | prim e => simp [ValueType.tokens] at h
      | pointer e s => simp [ValueType.tokens] at h
      | tuple us =>
          simp only [ValueType.tokens, List.cons_append, List.cons.injEq, Token.length.injEq,
            true_and] at h
          obtain ⟨hl, h⟩ := h
          obtain ⟨rfl, hr⟩ := ValueType.decodeList ts us r r' hl h
          exact ⟨rfl, hr⟩
termination_by structural t => t

theorem ValueType.decodeList : (ts us : List ValueType) → (r r' : List Token) →
    ts.length = us.length →
    ValueType.tokensList ts ++ r = ValueType.tokensList us ++ r' → ts = us ∧ r = r'
  | [], us, r, r', hl, h => by
      cases us with
      | nil => exact ⟨rfl, h⟩
      | cons u us => cases hl
  | t :: ts, us, r, r', hl, h => by
      cases us with
      | nil => cases hl
      | cons u us =>
          rw [ValueType.tokensList, ValueType.tokensList, List.append_assoc,
            List.append_assoc] at h
          obtain ⟨rfl, hs⟩ := ValueType.decode t u _ _ h
          obtain ⟨rfl, hr⟩ := ValueType.decodeList ts us r r' (Nat.succ.inj hl) hs
          exact ⟨rfl, hr⟩
termination_by structural ts => ts

end

theorem ValueType.not_plain (t : ValueType) (r : List Token) :
    plain (t.tokens ++ r) = false := by
  cases t <;> rfl

section

variable {σ τ : VarId → VarId}

theorem Var.decode {v w : Var} {r r' : List Token} (hr : plain r) (hr' : plain r')
    (h : (v.outline σ).tokens ++ r = (w.outline τ).tokens ++ r') :
    v.outline σ = w.outline τ ∧ r = r' := by
  simp only [Var.outline, Var.tokens, List.cons_append, List.cons.injEq, Token.var.injEq,
    Token.dtype.injEq] at h
  obtain ⟨hi, hd, h⟩ := h
  have ht : v.typeHint = w.typeHint ∧ r = r' := by
    cases hv : v.typeHint with
    | none =>
        cases hw : w.typeHint with
        | none => simpa [hv, hw] using h
        | some u =>
            have hn := ValueType.not_plain u r'
            simp only [hv, hw, Option.map_none, Option.map_some, Option.getD_none,
              Option.getD_some, List.nil_append] at h
            rw [← h, hr] at hn
            cases hn
    | some t =>
        cases hw : w.typeHint with
        | none =>
            have hn := ValueType.not_plain t r
            simp only [hv, hw, Option.map_none, Option.map_some, Option.getD_none,
              Option.getD_some, List.nil_append] at h
            rw [h, hr'] at hn
            cases hn
        | some u =>
            simp only [hv, hw, Option.map_some, Option.getD_some] at h
            obtain ⟨ht, hs⟩ := ValueType.decode t u _ _ h
            exact ⟨by rw [ht], hs⟩
  exact ⟨by simp [Var.outline, hi, hd, ht.1], ht.2⟩

theorem Expr.plain_tokens (e : Expr) (r : List Token) : plain (e.tokens ++ r) := by
  cases e <;> rfl

theorem Expr.plain_tokensList (es : List Expr) {r : List Token} (hr : plain r) :
    plain (Expr.tokensList es ++ r) := by
  cases es with
  | nil => exact hr
  | cons e es =>
      rw [Expr.tokensList, List.append_assoc]
      exact e.plain_tokens _

mutual

theorem Expr.decode : (x y : Expr) → (r r' : List Token) → plain r → plain r' →
    (x.outline σ).tokens ++ r = (y.outline τ).tokens ++ r' →
    x.outline σ = y.outline τ ∧ r = r'
  | .int v d, y, r, r', _, _, h => by
      cases y with
      | int w e => simpa [Expr.outline, Expr.tokens, and_assoc] using h
      | _ => simp [Expr.outline, Expr.tokens, Var.tokens] at h
  | .float v d, y, r, r', _, _, h => by
      cases y with
      | float w e => simpa [Expr.outline, Expr.tokens, and_assoc] using h
      | _ => simp [Expr.outline, Expr.tokens, Var.tokens] at h
  | .str s, y, r, r', _, _, h => by
      cases y with
      | str t => simpa [Expr.outline, Expr.tokens] using h
      | _ => simp [Expr.outline, Expr.tokens, Var.tokens] at h
  | .var v, y, r, r', hr, hr', h => by
      cases y with
      | var w =>
          obtain ⟨hv, hrest⟩ := Var.decode hr hr' h
          exact ⟨by rw [Expr.outline, Expr.outline, hv], hrest⟩
      | _ => simp [Expr.outline, Expr.tokens, Var.tokens] at h
  | .binary op a b, y, r, r', hr, hr', h => by
      cases y with
      | binary op' a' b' =>
          simp only [Expr.outline, Expr.tokens, List.cons_append, List.cons.injEq,
            Token.str.injEq, true_and, List.append_assoc] at h
          obtain ⟨ho, h⟩ := h
          obtain ⟨ha, h⟩ := Expr.decode a a' _ _ (Expr.plain_tokens _ _) (Expr.plain_tokens _ _) h
          obtain ⟨hb, h⟩ := Expr.decode b b' r r' hr hr' h
          exact ⟨by rw [Expr.outline, Expr.outline, BinOp.text_injective ho, ha, hb], h⟩
      | _ => simp [Expr.outline, Expr.tokens, Var.tokens] at h
  | .not a, y, r, r', hr, hr', h => by
      cases y with
      | not a' =>
          simp only [Expr.outline, Expr.tokens, List.cons_append, List.cons.injEq,
            true_and] at h
          obtain ⟨ha, h⟩ := Expr.decode a a' r r' hr hr' h
          exact ⟨by rw [Expr.outline, Expr.outline, ha], h⟩
      | _ => simp [Expr.outline, Expr.tokens, Var.tokens] at h
  | .cast d a, y, r, r', hr, hr', h => by
      cases y with
      | cast e a' =>
          simp only [Expr.outline, Expr.tokens, List.cons_append, List.cons.injEq,
            Token.dtype.injEq, true_and] at h
          obtain ⟨hd, h⟩ := h
          obtain ⟨ha, h⟩ := Expr.decode a a' r r' hr hr' h
          exact ⟨by rw [Expr.outline, Expr.outline, hd, ha], h⟩
      | _ => simp [Expr.outline, Expr.tokens, Var.tokens] at h
  | .load b is, y, r, r', hr, hr', h => by
      cases y with
      | load b' js =>
          simp only [Expr.outline, Expr.tokens, List.cons_append, List.cons.injEq, true_and,
            List.append_assoc] at h
          obtain ⟨hb, h⟩ := Buffer.decode b b' _ _ h
          simp only [List.cons.injEq, Token.length.injEq] at h
          obtain ⟨hl, h⟩ := h
          obtain ⟨hi, h⟩ := Expr.decodeList is js r r' hl hr hr' h
          exact ⟨by rw [Expr.outline, Expr.outline, hb, hi], h⟩
      | _ => simp [Expr.outline, Expr.tokens, Var.tokens] at h
  | .call op as d, y, r, r', hr, hr', h => by
      cases y with
      | call op' bs e =>
          simp only [Expr.outline, Expr.tokens, List.cons_append, List.cons.injEq,
            Token.str.injEq, Token.dtype.injEq, Token.length.injEq, true_and] at h
          obtain ⟨ho, hd, hl, h⟩ := h
          obtain ⟨ha, h⟩ := Expr.decodeList as bs r r' hl hr hr' h
          exact ⟨by rw [Expr.outline, Expr.outline, ho, hd, ha], h⟩
      | _ => simp [Expr.outline, Expr.tokens, Var.tokens] at h
termination_by structural x => x

theorem Expr.decodeList : (xs ys : List Expr) → (r r' : List Token) →
    (Expr.outlineList σ xs).length = (Expr.outlineList τ ys).length → plain r → plain r' →
    Expr.tokensList (Expr.outlineList σ xs) ++ r =
      Expr.tokensList (Expr.outlineList τ ys) ++ r' →
    Expr.outlineList σ xs = Expr.outlineList τ ys ∧ r = r'
  | [], ys, r, r', hl, _, _, h => by
      cases ys with
      | nil => exact ⟨rfl, h⟩
      | cons y ys => cases hl
  | x :: xs, ys, r, r', hl, hr, hr', h => by
      cases ys with
      | nil => cases hl
      | cons y ys =>
          rw [Expr.outlineList, Expr.outlineList, Expr.tokensList, Expr.tokensList,
            List.append_assoc, List.append_assoc] at h
          obtain ⟨hx, h⟩ := Expr.decode x y _ _ (Expr.plain_tokensList _ hr)
            (Expr.plain_tokensList _ hr') h
          obtain ⟨hxs, h⟩ := Expr.decodeList xs ys r r' (Nat.succ.inj hl) hr hr' h
          exact ⟨by rw [Expr.outlineList, Expr.outlineList, hx, hxs], h⟩
termination_by structural xs => xs

/-- A buffer ends with a list of known length, so that anything may follow it. -/
theorem Buffer.decode : (x y : Buffer) → (r r' : List Token) →
    (x.outline σ).tokens ++ r = (y.outline τ).tokens ++ r' →
    x.outline σ = y.outline τ ∧ r = r'
  | ⟨data, dtype, shape, strides, offset, name, alignment, factor, kind, separators⟩,
    ⟨data', dtype', shape', strides', offset', name', alignment', factor', kind', separators'⟩,
    r, r', h => by
      simp only [Buffer.outline, Buffer.tokens, List.cons_append, List.cons.injEq, true_and,
        List.append_assoc] at h
      obtain ⟨hv, h⟩ := Var.decode rfl rfl h
      simp only [List.cons.injEq, Token.dtype.injEq, Token.length.injEq] at h
      obtain ⟨hd, hl, h⟩ := h
      obtain ⟨hs, h⟩ := Expr.decodeList shape shape' _ _ hl rfl rfl h
      simp only [List.cons.injEq, Token.length.injEq] at h
      obtain ⟨hl, h⟩ := h
      obtain ⟨ht, h⟩ := Expr.decodeList strides strides' _ _ hl (Expr.plain_tokens _ _)
        (Expr.plain_tokens _ _) h
      obtain ⟨ho, h⟩ := Expr.decode offset offset' _ _ rfl rfl h
      simp only [List.cons.injEq, Token.int.injEq, Token.str.injEq, Token.length.injEq] at h
      obtain ⟨ha, hf, hk, hl, h⟩ := h
      obtain ⟨hp, h⟩ := List.append_inj h (by rw [List.length_map, List.length_map, hl])
      have hp := List.map_inj_right (fun _ _ h => Token.int.inj h) |>.1 hp
      exact ⟨by simp only [Buffer.outline, hv, hd, hs, ht, ho, ha, hf,
        BufferKind.text_injective hk, hp], h⟩
termination_by structural x => x

end

/-- Lists of outlines are read back if outlines are, whenever what follows is `P`. -/
theorem tokensOf_decode {α : Type} {f : α → List Token} {g g' : α → α} {P : List Token → Prop}
    (hP : ∀ x r, P (f x ++ r))
    (hd : ∀ x y r r', P r → P r' → f (g x) ++ r = f (g' y) ++ r' → g x = g' y ∧ r = r')
    {xs ys : List α} {r r' : List Token} (hr : P r) (hr' : P r')
    (h : tokensOf f (xs.map g) ++ r = tokensOf f (ys.map g') ++ r') :
    xs.map g = ys.map g' ∧ r = r' := by
  have hf (l : List α) {r : List Token} (hr : P r) : P (l.flatMap f ++ r) := by
    cases l with
    | nil => exact hr
    | cons x l =>
        rw [List.flatMap_cons, List.append_assoc]
        exact hP x _
  simp only [tokensOf, List.length_map, List.cons_append, List.cons.injEq,
    Token.length.injEq] at h
  obtain ⟨hl, h⟩ := h
  induction xs generalizing ys with
  | nil =>
      cases ys with
      | nil => exact ⟨rfl, h⟩
      | cons y ys => cases hl
  | cons x xs ih =>
      cases ys with
      | nil => cases hl
      | cons y ys =>
          rw [List.map_cons, List.map_cons, List.flatMap_cons, List.flatMap_cons,
            List.append_assoc, List.append_assoc] at h
          obtain ⟨hx, h⟩ := hd x y _ _ (hf _ hr) (hf _ hr') h
          obtain ⟨hxs, h⟩ := ih (Nat.succ.inj hl) h
          exact ⟨by rw [List.map_cons, List.map_cons, hx, hxs], h⟩

variable {r r' : List Token}

theorem Range.plain_tokens (x : Range) (r : List Token) : plain (x.tokens ++ r) := by
  rw [Range.tokens, List.append_assoc]
  exact x.min.plain_tokens _

theorem Range.decode {x y : Range} (hr : plain r) (hr' : plain r')
    (h : (x.outline σ).tokens ++ r = (y.outline τ).tokens ++ r') :
    x.outline σ = y.outline τ ∧ r = r' := by
  simp only [Range.outline, Range.tokens, List.append_assoc] at h
  obtain ⟨hm, h⟩ := Expr.decode x.min y.min _ _ (Expr.plain_tokens _ _) (Expr.plain_tokens _ _) h
  obtain ⟨he, h⟩ := Expr.decode x.extent y.extent r r' hr hr' h
  exact ⟨by rw [Range.outline, Range.outline, hm, he], h⟩

theorem Range.tokens_ne (x : Range) (r s : List Token) : x.tokens ++ r ≠ .tag "no_dom" :: s := by
  cases x with
  | mk min extent =>
      cases min <;> simp [Range.tokens, Expr.tokens, Var.tokens]

theorem IterVar.decode {x y : IterVar}
    (h : (x.outline σ).tokens ++ r = (y.outline τ).tokens ++ r') :
    x.outline σ = y.outline τ ∧ r = r' := by
  simp only [IterVar.outline, IterVar.tokens, List.cons_append, List.cons.injEq, true_and,
    List.append_assoc, List.nil_append] at h
  have hdom : x.dom.map (Range.outline σ) = y.dom.map (Range.outline τ) ∧
      (x.var.outline σ).tokens ++ .str x.kind.text :: .str x.tag :: r =
        (y.var.outline τ).tokens ++ .str y.kind.text :: .str y.tag :: r' := by
    cases hx : x.dom with
    | none =>
        cases hy : y.dom with
        | none => simpa [hx, hy] using h
        | some d =>
            simp only [hx, hy, Option.map_none, Option.map_some, Option.getD_none,
              Option.getD_some, List.cons_append, List.nil_append] at h
            exact absurd h.symm (Range.tokens_ne _ _ _)
    | some c =>
        cases hy : y.dom with
        | none =>
            simp only [hx, hy, Option.map_none, Option.map_some, Option.getD_none,
              Option.getD_some, List.cons_append, List.nil_append] at h
            exact absurd h (Range.tokens_ne _ _ _)
        | some d =>
            simp only [hx, hy, Option.map_some, Option.getD_some] at h
            obtain ⟨hd, h⟩ := Range.decode rfl rfl h
            exact ⟨by rw [Option.map_some, Option.map_some, hd], h⟩
  obtain ⟨hd, h⟩ := hdom
  obtain ⟨hv, h⟩ := Var.decode rfl rfl h
  simp only [List.cons.injEq, Token.str.injEq] at h
  obtain ⟨hk, ht, h⟩ := h
  exact ⟨by rw [IterVar.outline, IterVar.outline, hd, hv, IterKind.text_injective hk, ht], h⟩

theorem AttrValue.plain_tokens (a : AttrValue) (r : List Token) : plain (a.tokens ++ r) := by
  cases a <;> rfl

theorem AttrValue.plain_tokensList (as : List AttrValue) {r : List Token} (hr : plain r) :
    plain (AttrValue.tokensList as ++ r) := by
  cases as with
  | nil => exact hr
  | cons a as =>
      rw [AttrValue.tokensList, List.append_assoc]
      exact a.plain_tokens _

mutual

theorem AttrValue.decode : (x y : AttrValue) → (r r' : List Token) → plain r → plain r' →
    (x.outline σ).tokens ++ r = (y.outline τ).tokens ++ r' →
    x.outline σ = y.outline τ ∧ r = r'
  | .int v, y, r, r', _, _, h => by
      cases y with
      | int w => simpa [AttrValue.outline, AttrValue.tokens] using h
      | _ => simp [AttrValue.outline, AttrValue.tokens] at h
  | .float v, y, r, r', _, _, h => by
      cases y with
      | float w => simpa [AttrValue.outline, AttrValue.tokens] using h
      | _ => simp [AttrValue.outline, AttrValue.tokens] at h
  | .bool v, y, r, r', _, _, h => by
      cases y with
      | bool w =>
          have hv : v = w ∧ r = r' := by
            cases v <;> cases w <;> simp_all [AttrValue.outline, AttrValue.tokens]
          exact ⟨by rw [hv.1]; rfl, hv.2⟩
      | _ => simp [AttrValue.outline, AttrValue.tokens] at h
  | .str v, y, r, r', _, _, h => by
      cases y with
      | str w => simpa [AttrValue.outline, AttrValue.tokens] using h
      | _ => simp [AttrValue.outline, AttrValue.tokens] at h
  | .expr v, y, r, r', hr, hr', h => by
      cases y with
      | expr w =>
          simp only [AttrValue.outline, AttrValue.tokens, List.cons_append, List.cons.injEq,
            true_and] at h
          obtain ⟨he, h⟩ := Expr.decode v w r r' hr hr' h
          exact ⟨by rw [AttrValue.outline, AttrValue.outline, he], h⟩
      | _ => simp [AttrValue.outline, AttrValue.tokens] at h
  | .array as, y, r, r', hr, hr', h => by
      cases y with
      | array bs =>
          simp only [AttrValue.outline, AttrValue.tokens, List.cons_append, List.cons.injEq,
            Token.length.injEq, true_and] at h
          obtain ⟨hl, h⟩ := h
          obtain ⟨ha, h⟩ := AttrValue.decodeList as bs r r' hl hr hr' h
          exact ⟨by rw [AttrValue.outline, AttrValue.outline, ha], h⟩
      | _ => simp [AttrValue.outline, AttrValue.tokens] at h
termination_by structural x => x

theorem AttrValue.decodeList : (xs ys : List AttrValue) → (r r' : List Token) →
    (AttrValue.outlineList σ xs).length = (AttrValue.outlineList τ ys).length →
    plain r → plain r' →
    AttrValue.tokensList (AttrValue.outlineList σ xs) ++ r =
      AttrValue.tokensList (AttrValue.outlineList τ ys) ++ r' →
    AttrValue.outlineList σ xs = AttrValue.outlineList τ ys ∧ r = r'
  | [], ys, r, r', hl, _, _, h => by
      cases ys with
      | nil => exact ⟨rfl, h⟩
      | cons y ys => cases hl
  | x :: xs, ys, r, r', hl, hr, hr', h => by
      cases ys with
      | nil => cases hl
      | cons y ys =>
          rw [AttrValue.outlineList, AttrValue.outlineList, AttrValue.tokensList,
            AttrValue.tokensList, List.append_assoc, List.append_assoc] at h
          obtain ⟨hx, h⟩ := AttrValue.decode x y _ _ (AttrValue.plain_tokensList _ hr)
            (AttrValue.plain_tokensList _ hr') h
          obtain ⟨hxs, h⟩ := AttrValue.decodeList xs ys r r' (Nat.succ.inj hl) hr hr' h
          exact ⟨by rw [AttrValue.outlineList, AttrValue.outlineList, hx, hxs], h⟩
termination_by structural xs => xs

end

theorem Annotations.decode {m n : Annotations} (hr : plain r) (hr' : plain r')
    (h : Annotations.tokens (Annotations.outline σ m) ++ r =
      Annotations.tokens (Annotations.outline τ n) ++ r') :
    Annotations.outline σ m = Annotations.outline τ n ∧ r = r' := by
  have hd (x y : String × AttrValue) (s s' : List Token) (hs : plain s) (hs' : plain s')
      (h : (Token.str x.1 :: (x.2.outline σ).tokens) ++ s =
        (Token.str y.1 :: (y.2.outline τ).tokens) ++ s') :
      (x.1, x.2.outline σ) = (y.1, y.2.outline τ) ∧ s = s' := by
    simp only [List.cons_append, List.cons.injEq, Token.str.injEq] at h
    obtain ⟨hk, h⟩ := h
    obtain ⟨hv, h⟩ := AttrValue.decode x.2 y.2 s s' hs hs' h
    exact ⟨by rw [hk, hv], h⟩
  obtain ⟨he, h⟩ := tokensOf_decode (P := fun s => plain s) (fun _ _ => rfl) hd hr hr' h
  exact ⟨OrderedMap.ext he, h⟩

theorem Buffer.plain_tokens (b : Buffer) (r : List Token) : plain (b.tokens ++ r) := by
  cases b
  rfl

theorem Region.decode {x y : Region} (hr : plain r) (hr' : plain r')
    (h : (x.outline σ).tokens ++ r = (y.outline τ).tokens ++ r') :
    x.outline σ = y.outline τ ∧ r = r' := by
  simp only [Region.outline, Region.tokens, List.append_assoc] at h
  obtain ⟨hb, h⟩ := Buffer.decode x.buffer y.buffer _ _ h
  obtain ⟨hs, h⟩ := tokensOf_decode (P := fun s => plain s) Range.plain_tokens
    (fun _ _ _ _ hs hs' => Range.decode hs hs') hr hr' h
  exact ⟨by rw [Region.outline, Region.outline, hb, hs], h⟩

theorem Region.plain_tokens (x : Region) (r : List Token) : plain (x.tokens ++ r) := by
  rw [Region.tokens, List.append_assoc]
  exact x.buffer.plain_tokens _

theorem MatchRegion.decode {x y : MatchRegion} (hr : plain r) (hr' : plain r')
    (h : (x.outline σ).tokens ++ r = (y.outline τ).tokens ++ r') :
    x.outline σ = y.outline τ ∧ r = r' := by
  simp only [MatchRegion.outline, MatchRegion.tokens, List.append_assoc] at h
  obtain ⟨hb, h⟩ := Buffer.decode x.buffer y.buffer _ _ h
  obtain ⟨hs, h⟩ := Region.decode hr hr' h
  exact ⟨by rw [MatchRegion.outline, MatchRegion.outline, hb, hs], h⟩

theorem MatchRegion.plain_tokens (x : MatchRegion) (r : List Token) :
    plain (x.tokens ++ r) := by
  rw [MatchRegion.tokens, List.append_assoc]
  exact x.buffer.plain_tokens _

theorem ConstantData.plain_tokens (x : ConstantData) (r : List Token) :
    plain (x.tokens ++ r) := by
  cases x <;> rfl

/-- The type of a constant tells integers from floats, even if there are none. -/
theorem ConstantData.decode {x y : ConstantData} {d : DataType} (hx : x.fits d) (hy : y.fits d)
    (h : x.tokens ++ r = y.tokens ++ r') : x = y ∧ r = r' := by
  cases x with
  | ints vs =>
      cases y with
      | ints ws =>
          have h' : tokensOf (fun v => [Token.int v]) (vs.map id) ++ r =
              tokensOf (fun v => [Token.int v]) (ws.map id) ++ r' := by
            rw [List.map_id, List.map_id]
            exact h
          have hv := tokensOf_decode (P := fun _ => True) (fun _ _ => trivial)
            (fun x y s s' _ _ h => by simpa using h) trivial trivial h'
          simpa using hv
      | floats ws => simp_all [ConstantData.fits]
  | floats vs =>
      cases y with
      | ints ws => simp_all [ConstantData.fits]
      | floats ws =>
          have h' : tokensOf (fun v => [Token.float v]) (vs.map id) ++ r =
              tokensOf (fun v => [Token.float v]) (ws.map id) ++ r' := by
            rw [List.map_id, List.map_id]
            exact h
          have hv := tokensOf_decode (P := fun _ => True) (fun _ _ => trivial)
            (fun x y s s' _ _ h => by simpa using h) trivial trivial h'
          simpa using hv

theorem Block.decode {x y : Block} (hr : plain r) (hr' : plain r')
    (h : (x.outline σ).tokens ++ r = (y.outline τ).tokens ++ r') :
    x.outline σ = y.outline τ ∧ r = r' := by
  simp only [Block.outline, Block.tokens, List.cons_append, List.cons.injEq, Token.str.injEq,
    true_and, List.append_assoc] at h
  obtain ⟨hn, h⟩ := h
  obtain ⟨hi, h⟩ := tokensOf_decode (P := fun _ => True) (fun _ _ => trivial)
    (fun _ _ _ _ _ _ => IterVar.decode) trivial trivial h
  obtain ⟨hrd, h⟩ := tokensOf_decode (P := fun s => plain s) Region.plain_tokens
    (fun _ _ _ _ hs hs' => Region.decode hs hs') rfl rfl h
  obtain ⟨hw, h⟩ := tokensOf_decode (P := fun s => plain s) Region.plain_tokens
    (fun _ _ _ _ hs hs' => Region.decode hs hs') rfl rfl h
  obtain ⟨ha, h⟩ := tokensOf_decode (P := fun _ => True) (fun _ _ => trivial)
    (fun x y s s' _ _ => Buffer.decode x y s s') trivial trivial h
  obtain ⟨hm, h⟩ := tokensOf_decode (P := fun s => plain s) MatchRegion.plain_tokens
    (fun _ _ _ _ hs hs' => MatchRegion.decode hs hs') rfl rfl h
  obtain ⟨hs, h⟩ := Annotations.decode hr hr' h
  exact ⟨by simp only [Block.outline, hn, hi, hrd, hw, ha, hm, hs], h⟩

theorem Realization.decode {x y : Realization} (hr : plain r) (hr' : plain r')
    (h : (x.outline σ).tokens ++ r = (y.outline τ).tokens ++ r') :
    x.outline σ = y.outline τ ∧ r = r' := by
  simp only [Realization.outline, Realization.tokens, List.append_assoc] at h
  obtain ⟨hv, h⟩ := tokensOf_decode (P := fun s => plain s) Expr.plain_tokens
    (fun x y s s' => Expr.decode x y s s') (Expr.plain_tokens _ _) (Expr.plain_tokens _ _) h
  obtain ⟨hp, h⟩ := Expr.decode x.predicate y.predicate r r' hr hr' h
  exact ⟨by rw [Realization.outline, Realization.outline, hv, hp], h⟩

/-- The four kinds of attribute nodes begin with tokens of different kinds. -/
theorem AttrNode.decode {x y : AttrNode} (hr : plain r) (hr' : plain r')
    (h : (x.outline σ).tokens ++ r = (y.outline τ).tokens ++ r') :
    x.outline σ = y.outline τ ∧ r = r' := by
  cases x with
  | var v =>
      cases y with
      | var w =>
          obtain ⟨hv, h⟩ := Var.decode hr hr' h
          exact ⟨by rw [AttrNode.outline, AttrNode.outline, hv], h⟩
      | iterVar w => simp [AttrNode.outline, AttrNode.tokens, Var.tokens, IterVar.tokens] at h
      | buffer w =>
          cases w
          simp [AttrNode.outline, AttrNode.tokens, Var.tokens, Buffer.outline, Buffer.tokens] at h
      | str w => simp [AttrNode.outline, AttrNode.tokens, Var.tokens] at h
  | iterVar v =>
      cases y with
      | var w => simp [AttrNode.outline, AttrNode.tokens, Var.tokens, IterVar.tokens] at h
      | iterVar w =>
          obtain ⟨hv, h⟩ := IterVar.decode h
          exact ⟨by rw [AttrNode.outline, AttrNode.outline, hv], h⟩
      | buffer w =>
          cases w
          simp [AttrNode.outline, AttrNode.tokens, IterVar.tokens, Buffer.outline,
            Buffer.tokens] at h
      | str w => simp [AttrNode.outline, AttrNode.tokens, IterVar.tokens] at h
  | buffer v =>
      cases y with
      | var w =>
          cases v
          simp [AttrNode.outline, AttrNode.tokens, Var.tokens, Buffer.outline, Buffer.tokens] at h
      | iterVar w =>
          cases v
          simp [AttrNode.outline, AttrNode.tokens, IterVar.tokens, Buffer.outline,
            Buffer.tokens] at h
      | buffer w =>
          obtain ⟨hv, h⟩ := Buffer.decode v w r r' h
          exact ⟨by rw [AttrNode.outline, AttrNode.outline, hv], h⟩
      | str w =>
          cases v
          simp [AttrNode.outline, AttrNode.tokens, Buffer.outline, Buffer.tokens] at h
  | str v =>
      cases y with
      | var w => simp [AttrNode.outline, AttrNode.tokens, Var.tokens] at h
      | iterVar w => simp [AttrNode.outline, AttrNode.tokens, IterVar.tokens] at h
      | buffer w =>
          cases w
          simp [AttrNode.outline, AttrNode.tokens, Buffer.outline, Buffer.tokens] at h
      | str w => simpa [AttrNode.outline, AttrNode.tokens] using h

theorem Leaf.decode {x y : Leaf} (hn : x.name = y.name) (hr : plain r) (hr' : plain r')
    (h : (x.outline σ).tokens ++ r = (y.outline τ).tokens ++ r') :
    x.outline σ = y.outline τ ∧ r = r' := by
  cases x with
  | store b e is =>
      cases y with
      | store b' e' is' =>
          simp only [Leaf.outline, Leaf.tokens, List.append_assoc] at h
          obtain ⟨hb, h⟩ := Buffer.decode b b' _ _ h
          obtain ⟨he, h⟩ := Expr.decode e e' _ _ rfl rfl h
          obtain ⟨hi, h⟩ := tokensOf_decode (P := fun s => plain s) Expr.plain_tokens
            (fun x y s s' => Expr.decode x y s s') hr hr' h
          exact ⟨by rw [Leaf.outline, Leaf.outline, hb, he, hi], h⟩
      | prefetch _ _ | evaluate _ => simp [Leaf.name] at hn
  | prefetch b rs =>
      cases y with
      | prefetch b' rs' =>
          simp only [Leaf.outline, Leaf.tokens, List.append_assoc] at h
          obtain ⟨hb, h⟩ := Buffer.decode b b' _ _ h
          obtain ⟨hs, h⟩ := tokensOf_decode (P := fun s => plain s) Range.plain_tokens
            (fun _ _ _ _ hs hs' => Range.decode hs hs') hr hr' h
          exact ⟨by rw [Leaf.outline, Leaf.outline, hb, hs], h⟩
      | store _ _ _ | evaluate _ => simp [Leaf.name] at hn
  | evaluate e =>
      cases y with
      | evaluate e' =>
          obtain ⟨he, h⟩ := Expr.decode e e' r r' hr hr' h
          exact ⟨by rw [Leaf.outline, Leaf.outline, he], h⟩
      | store _ _ _ | prefetch _ _ => simp [Leaf.name] at hn

/-- The data of a constant is of the kind that its type says. -/
def Head.constantsFit : Head → Bool
  | .allocateConst _ d _ data _ => data.fits d
  | _ => true

theorem IterVar.decodeOption {x y : Option IterVar}
    (h : ((x.map (IterVar.outline σ)).map IterVar.tokens).getD [.tag "unbound"] ++ r =
      ((y.map (IterVar.outline τ)).map IterVar.tokens).getD [.tag "unbound"] ++ r') :
    x.map (IterVar.outline σ) = y.map (IterVar.outline τ) ∧ r = r' := by
  cases x with
  | none =>
      cases y with
      | none => simpa using h
      | some w => simp [IterVar.tokens] at h
  | some v =>
      cases y with
      | none => simp [IterVar.tokens] at h
      | some w =>
          simp only [Option.map_some, Option.getD_some] at h
          obtain ⟨hv, h⟩ := IterVar.decode h
          exact ⟨by rw [Option.map_some, Option.map_some, hv], h⟩

theorem Head.decode {x y : Head} (hn : x.name = y.name) (hx : x.constantsFit)
    (hy : y.constantsFit) (hr : plain r) (hr' : plain r')
    (h : (x.outline σ).tokens ++ r = (y.outline τ).tokens ++ r') :
    x.outline σ = y.outline τ ∧ r = r' := by
  cases x with
  | loop l =>
      cases y with
      | loop k =>
          simp only [Head.outline, Head.tokens, List.append_assoc, List.cons_append] at h
          obtain ⟨hv, h⟩ := Var.decode (Expr.plain_tokens _ _) (Expr.plain_tokens _ _) h
          obtain ⟨hm, h⟩ := Expr.decode l.min k.min _ _ (Expr.plain_tokens _ _)
            (Expr.plain_tokens _ _) h
          obtain ⟨he, h⟩ := Expr.decode l.extent k.extent _ _ rfl rfl h
          simp only [List.cons.injEq, Token.str.injEq] at h
          obtain ⟨hk, h⟩ := h
          obtain ⟨ht, h⟩ := IterVar.decodeOption h
          obtain ⟨ha, h⟩ := Annotations.decode hr hr' h
          exact ⟨by simp only [Head.outline, hv, hm, he, LoopKind.text_injective hk, ht, ha], h⟩
      | _ => simp [Head.name] at hn
  | whileLoop c =>
      cases y with
      | whileLoop c' =>
          obtain ⟨hc, h⟩ := Expr.decode c c' r r' hr hr' h
          exact ⟨by rw [Head.outline, Head.outline, hc], h⟩
      | _ => simp [Head.name] at hn
  | bind v e =>
      cases y with
      | bind w e' =>
          simp only [Head.outline, Head.tokens, List.append_assoc] at h
          obtain ⟨hv, h⟩ := Var.decode (Expr.plain_tokens _ _) (Expr.plain_tokens _ _) h
          obtain ⟨he, h⟩ := Expr.decode e e' r r' hr hr' h
          exact ⟨by rw [Head.outline, Head.outline, hv, he], h⟩
      | _ => simp [Head.name] at hn
  | allocate v d es c m =>
      cases y with
      | allocate w d' es' c' m' =>
          simp only [Head.outline, Head.tokens, List.append_assoc, List.cons_append] at h
          obtain ⟨hv, h⟩ := Var.decode rfl rfl h
          simp only [List.cons.injEq, Token.dtype.injEq] at h
          obtain ⟨hd, h⟩ := h
          obtain ⟨he, h⟩ := tokensOf_decode (P := fun s => plain s) Expr.plain_tokens
            (fun x y s s' => Expr.decode x y s s') (Expr.plain_tokens _ _)
            (Expr.plain_tokens _ _) h
          obtain ⟨hc, h⟩ := Expr.decode c c' _ _ rfl rfl h
          obtain ⟨hm, h⟩ := Annotations.decode hr hr' h
          exact ⟨by rw [Head.outline, Head.outline, hv, hd, he, hc, hm], h⟩
      | _ => simp [Head.name] at hn
  | allocateConst v d es data m =>
      cases y with
      | allocateConst w d' es' data' m' =>
          simp only [Head.outline, Head.tokens, List.append_assoc, List.cons_append] at h
          obtain ⟨hv, h⟩ := Var.decode rfl rfl h
          simp only [List.cons.injEq, Token.dtype.injEq] at h
          obtain ⟨hd, h⟩ := h
          have hy' : data'.fits d := hd ▸ hy
          obtain ⟨he, h⟩ := tokensOf_decode (P := fun s => plain s) Expr.plain_tokens
            (fun x y s s' => Expr.decode x y s s') (ConstantData.plain_tokens _ _)
            (ConstantData.plain_tokens _ _) h
          obtain ⟨hdata, h⟩ := ConstantData.decode hx hy' h
          obtain ⟨hm, h⟩ := Annotations.decode hr hr' h
          exact ⟨by rw [Head.outline, Head.outline, hv, hd, he, hdata, hm], h⟩
      | _ => simp [Head.name] at hn
  | attr node key e =>
      cases y with
      | attr node' key' e' =>
          simp only [Head.outline, Head.tokens, List.append_assoc, List.cons_append] at h
          obtain ⟨hv, h⟩ := AttrNode.decode rfl rfl h
          simp only [List.cons.injEq, Token.str.injEq] at h
          obtain ⟨hk, h⟩ := h
          obtain ⟨he, h⟩ := Expr.decode e e' r r' hr hr' h
          exact ⟨by rw [Head.outline, Head.outline, hv, hk, he], h⟩
      | _ => simp [Head.name] at hn
  | assert c m =>
      cases y with
      | assert c' m' =>
          simp only [Head.outline, Head.tokens, List.append_assoc] at h
          obtain ⟨hc, h⟩ := Expr.decode c c' _ _ (Expr.plain_tokens _ _) (Expr.plain_tokens _ _) h
          obtain ⟨hm, h⟩ := Expr.decode m m' r r' hr hr' h
          exact ⟨by rw [Head.outline, Head.outline, hc, hm], h⟩
      | _ => simp [Head.name] at hn
  | realize q c =>
      cases y with
      | realize q' c' =>
          simp only [Head.outline, Head.tokens, List.append_assoc] at h
          obtain ⟨hq, h⟩ := Region.decode (Expr.plain_tokens _ _) (Expr.plain_tokens _ _) h
          obtain ⟨hc, h⟩ := Expr.decode c c' r r' hr hr' h
          exact ⟨by rw [Head.outline, Head.outline, hq, hc], h⟩
      | _ => simp [Head.name] at hn

mutual

/-- All constants in the statement are of the kind that their type says. -/
def Stmt.constantsFit : Stmt → Bool
  | .seq ss => Stmt.constantsFitList ss
  | .block _ _ init body => Stmt.constantsFitOption init && body.constantsFit
  | .branch _ s e => s.constantsFit && Stmt.constantsFitOption e
  | .under h s => h.constantsFit && s.constantsFit
  | .leaf _ => true
termination_by structural s => s

def Stmt.constantsFitList : List Stmt → Bool
  | [] => true
  | s :: ss => s.constantsFit && Stmt.constantsFitList ss
termination_by structural ss => ss

def Stmt.constantsFitOption : Option Stmt → Bool
  | none => true
  | some s => s.constantsFit
termination_by structural s => s

end

/-- The tokens of a statement begin with the name of its kind. -/
theorem Stmt.tokens_eq (s : Stmt) : ∃ ts, s.tokens = .tag s.name :: ts := by
  cases s with
  | block r b init body => cases r <;> exact ⟨_, rfl⟩
  | _ => exact ⟨_, rfl⟩

theorem Stmt.plain_tokens (s : Stmt) (r : List Token) : plain (s.tokens ++ r) := by
  cases s with
  | block q b init body => cases q <;> rfl
  | under h s => cases h <;> rfl
  | leaf l => cases l <;> rfl
  | seq ss => rfl
  | branch c s e => rfl

theorem Stmt.plain_tokensList (ss : List Stmt) {r : List Token} (hr : plain r) :
    plain (Stmt.tokensList ss ++ r) := by
  cases ss with
  | nil => exact hr
  | cons s ss =>
      rw [Stmt.tokensList, List.append_assoc]
      exact s.plain_tokens _

theorem Stmt.plain_tokensOr {missing : String} (hm : missing = "no_init" ∨ missing = "no_else")
    (s : Option Stmt) (r : List Token) : plain (Stmt.tokensOr missing s ++ r) := by
  cases s with
  | some s => exact s.plain_tokens r
  | none => obtain rfl | rfl := hm <;> rfl

theorem Block.plain_tokens (b : Block) (r : List Token) : plain (b.tokens ++ r) := rfl

theorem Stmt.name_ne {s : Stmt} {missing : String}
    (hm : missing = "no_init" ∨ missing = "no_else") : s.name ≠ missing := by
  have hs : s.name ≠ "no_init" ∧ s.name ≠ "no_else" := by
    cases s with
    | block q b init body => cases q <;> simp [Stmt.name]
    | under h s => cases h <;> simp [Stmt.name, Head.name]
    | leaf l => cases l <;> simp [Stmt.name, Leaf.name]
    | seq ss => simp [Stmt.name]
    | branch c s e => simp [Stmt.name]
  obtain rfl | rfl := hm
  · exact hs.1
  · exact hs.2

theorem Stmt.name_outline (s : Stmt) : (s.outline σ).name = s.name := by
  cases s with
  | block q b init body => cases q <;> rfl
  | under h s => cases h <;> rfl
  | leaf l => cases l <;> rfl
  | seq ss => rfl
  | branch c s e => rfl

theorem Stmt.name_eq {x y : Stmt}
    (h : (x.outline σ).tokens ++ r = (y.outline τ).tokens ++ r') : x.name = y.name := by
  obtain ⟨ts, hx⟩ := (x.outline σ).tokens_eq
  obtain ⟨us, hy⟩ := (y.outline τ).tokens_eq
  rw [hx, hy, Stmt.name_outline, Stmt.name_outline, List.cons_append, List.cons_append,
    List.cons.injEq, Token.tag.injEq] at h
  exact h.1

/-- How a statement is built. -/
inductive Stmt.Shape where
  | seq
  | block (bound : Bool)
  | branch
  | under
  | leaf

def Stmt.shape : Stmt → Shape
  | .seq _ => .seq
  | .block r _ _ _ => .block r.isSome
  | .branch _ _ _ => .branch
  | .under _ _ => .under
  | .leaf _ => .leaf

def Stmt.Shape.ofName (name : String) : Shape :=
  if name = "seq" then .seq
  else if name = "block" then .block false
  else if name = "block_realize" then .block true
  else if name = "if_then_else" then .branch
  else if name = "buffer_store" ∨ name = "prefetch" ∨ name = "evaluate" then .leaf
  else .under

theorem Stmt.ofName_name (s : Stmt) : Shape.ofName s.name = s.shape := by
  cases s with
  | block q b init body => cases q <;> rfl
  | under h s => cases h <;> rfl
  | leaf l => cases l <;> rfl
  | seq ss => rfl
  | branch c s e => rfl

theorem Stmt.shape_eq {x y : Stmt} (h : x.name = y.name) : x.shape = y.shape := by
  rw [← ofName_name, h, ofName_name]

mutual

theorem Stmt.decode : (x y : Stmt) → x.constantsFit → y.constantsFit →
    (r r' : List Token) → plain r → plain r' →
    (x.outline σ).tokens ++ r = (y.outline τ).tokens ++ r' →
    x.outline σ = y.outline τ ∧ r = r'
  | .seq ss, y, hx, hy, r, r', hr, hr', h => by
      have hk := Stmt.shape_eq (Stmt.name_eq h)
      cases y with
      | seq ts =>
          simp only [Stmt.outline, Stmt.tokens, List.cons_append, List.cons.injEq,
            Token.length.injEq, true_and] at h
          obtain ⟨hl, h⟩ := h
          obtain ⟨hs, h⟩ := Stmt.decodeList ss ts hx hy r r' hl hr hr' h
          exact ⟨by rw [Stmt.outline, Stmt.outline, hs], h⟩
      | _ => cases hk
  | .block none b init body, y, hx, hy, r, r', hr, hr', h => by
      have hk := Stmt.shape_eq (Stmt.name_eq h)
      cases y with
      | block q b' init' body' =>
          cases q with
          | some q => cases hk
          | none =>
              simp only [Stmt.constantsFit, Bool.and_eq_true] at hx hy
              simp only [Stmt.outline, Option.map_none, Stmt.tokens, List.cons_append,
                List.cons.injEq, true_and, List.append_assoc] at h
              obtain ⟨hb, h⟩ := Block.decode (Stmt.plain_tokensOr (.inl rfl) _ _)
                (Stmt.plain_tokensOr (.inl rfl) _ _) h
              obtain ⟨hi, h⟩ := Stmt.decodeOr "no_init" (.inl rfl) init init' hx.1 hy.1 _ _
                (Stmt.plain_tokens _ _) (Stmt.plain_tokens _ _) h
              obtain ⟨hs, h⟩ := Stmt.decode body body' hx.2 hy.2 r r' hr hr' h
              exact ⟨by rw [Stmt.outline, Stmt.outline, Option.map_none, Option.map_none, hb, hi,
                hs], h⟩
      | _ => cases hk
  | .block (some p) b init body, y, hx, hy, r, r', hr, hr', h => by
      have hk := Stmt.shape_eq (Stmt.name_eq h)
      cases y with
      | block q b' init' body' =>
          cases q with
          | none => cases hk
          | some q =>
              simp only [Stmt.constantsFit, Bool.and_eq_true] at hx hy
              simp only [Stmt.outline, Option.map_some, Stmt.tokens, List.cons_append,
                List.cons.injEq, true_and, List.append_assoc] at h
              obtain ⟨hp, h⟩ := Realization.decode (Block.plain_tokens _ _)
                (Block.plain_tokens _ _) h
              obtain ⟨hb, h⟩ := Block.decode (Stmt.plain_tokensOr (.inl rfl) _ _)
                (Stmt.plain_tokensOr (.inl rfl) _ _) h
              obtain ⟨hi, h⟩ := Stmt.decodeOr "no_init" (.inl rfl) init init' hx.1 hy.1 _ _
                (Stmt.plain_tokens _ _) (Stmt.plain_tokens _ _) h
              obtain ⟨hs, h⟩ := Stmt.decode body body' hx.2 hy.2 r r' hr hr' h
              exact ⟨by rw [Stmt.outline, Stmt.outline, Option.map_some, Option.map_some, hp, hb,
                hi, hs], h⟩
      | _ => cases hk
  | .branch c s e, y, hx, hy, r, r', hr, hr', h => by
      have hk := Stmt.shape_eq (Stmt.name_eq h)
      cases y with
      | branch c' s' e' =>
          simp only [Stmt.constantsFit, Bool.and_eq_true] at hx hy
          simp only [Stmt.outline, Stmt.tokens, List.cons_append, List.cons.injEq, true_and,
            List.append_assoc] at h
          obtain ⟨hc, h⟩ := Expr.decode c c' _ _ (Stmt.plain_tokens _ _) (Stmt.plain_tokens _ _) h
          obtain ⟨hs, h⟩ := Stmt.decode s s' hx.1 hy.1 _ _ (Stmt.plain_tokensOr (.inr rfl) _ _)
            (Stmt.plain_tokensOr (.inr rfl) _ _) h
          obtain ⟨he, h⟩ := Stmt.decodeOr "no_else" (.inr rfl) e e' hx.2 hy.2 r r' hr hr' h
          exact ⟨by rw [Stmt.outline, Stmt.outline, hc, hs, he], h⟩
      | _ => cases hk
  | .under k s, y, hx, hy, r, r', hr, hr', h => by
      have hn := Stmt.name_eq h
      have hk := Stmt.shape_eq hn
      cases y with
      | under k' s' =>
          simp only [Stmt.constantsFit, Bool.and_eq_true] at hx hy
          simp only [Stmt.outline, Stmt.tokens, List.cons_append, List.cons.injEq,
            List.append_assoc] at h
          obtain ⟨hd, h⟩ := Head.decode hn hx.1 hy.1 (Stmt.plain_tokens _ _)
            (Stmt.plain_tokens _ _) h.2
          obtain ⟨hs, h⟩ := Stmt.decode s s' hx.2 hy.2 r r' hr hr' h
          exact ⟨by rw [Stmt.outline, Stmt.outline, hd, hs], h⟩
      | _ => cases hk
  | .leaf l, y, _, _, r, r', hr, hr', h => by
      have hn := Stmt.name_eq h
      have hk := Stmt.shape_eq hn
      cases y with
      | leaf l' =>
          simp only [Stmt.outline, Stmt.tokens, List.cons_append, List.cons.injEq] at h
          obtain ⟨hl, h⟩ := Leaf.decode hn hr hr' h.2
          exact ⟨by rw [Stmt.outline, Stmt.outline, hl], h⟩
      | _ => cases hk
termination_by structural x => x

theorem Stmt.decodeList : (xs ys : List Stmt) → Stmt.constantsFitList xs →
    Stmt.constantsFitList ys → (r r' : List Token) →
    (Stmt.outlineList σ xs).length = (Stmt.outlineList τ ys).length → plain r → plain r' →
    Stmt.tokensList (Stmt.outlineList σ xs) ++ r =
      Stmt.tokensList (Stmt.outlineList τ ys) ++ r' →
    Stmt.outlineList σ xs = Stmt.outlineList τ ys ∧ r = r'
  | [], ys, _, _, r, r', hl, _, _, h => by
      cases ys with
      | nil => exact ⟨rfl, h⟩
      | cons y ys => cases hl
  | x :: xs, ys, hx, hy, r, r', hl, hr, hr', h => by
      cases ys with
      | nil => cases hl
      | cons y ys =>
          simp only [Stmt.constantsFitList, Bool.and_eq_true] at hx hy
          rw [Stmt.outlineList, Stmt.outlineList, Stmt.tokensList, Stmt.tokensList,
            List.append_assoc, List.append_assoc] at h
          obtain ⟨hs, h⟩ := Stmt.decode x y hx.1 hy.1 _ _ (Stmt.plain_tokensList _ hr)
            (Stmt.plain_tokensList _ hr') h
          obtain ⟨hss, h⟩ := Stmt.decodeList xs ys hx.2 hy.2 r r' (Nat.succ.inj hl) hr hr' h
          exact ⟨by rw [Stmt.outlineList, Stmt.outlineList, hs, hss], h⟩
termination_by structural xs => xs

/-- The tag of a missing part is the name of no statement. -/
theorem Stmt.decodeOr (missing : String) (hm : missing = "no_init" ∨ missing = "no_else") :
    (x y : Option Stmt) → Stmt.constantsFitOption x → Stmt.constantsFitOption y →
    (r r' : List Token) → plain r → plain r' →
    Stmt.tokensOr missing (Stmt.outlineOption σ x) ++ r =
      Stmt.tokensOr missing (Stmt.outlineOption τ y) ++ r' →
    Stmt.outlineOption σ x = Stmt.outlineOption τ y ∧ r = r'
  | none, y, _, _, r, r', _, _, h => by
      cases y with
      | none => simpa [Stmt.outlineOption, Stmt.tokensOr] using h
      | some y =>
          obtain ⟨ts, ht⟩ := (y.outline τ).tokens_eq
          simp only [Stmt.outlineOption, Stmt.tokensOr, ht, List.cons_append, List.cons.injEq,
            Token.tag.injEq] at h
          exact absurd h.1.symm (Stmt.name_ne hm)
  | some x, y, hx, hy, r, r', hr, hr', h => by
      cases y with
      | none =>
          obtain ⟨ts, ht⟩ := (x.outline σ).tokens_eq
          simp only [Stmt.outlineOption, Stmt.tokensOr, ht, List.cons_append, List.cons.injEq,
            Token.tag.injEq] at h
          exact absurd h.1 (Stmt.name_ne hm)
      | some y =>
          obtain ⟨hs, h⟩ := Stmt.decode x y hx hy r r' hr hr' h
          exact ⟨by rw [Stmt.outlineOption, Stmt.outlineOption, hs], h⟩
termination_by structural x => x

end

/-- An outline is what its tokens say. -/
theorem PrimFunc.decode {f g : PrimFunc} (hf : f.body.constantsFit) (hg : g.body.constantsFit)
    (h : (f.outline σ).tokens = (g.outline τ).tokens) : f.outline σ = g.outline τ := by
  have hentry (x y : Var × Buffer) (s s' : List Token)
      (h : ((x.1.outline σ).tokens ++ (x.2.outline σ).tokens) ++ s =
        ((y.1.outline τ).tokens ++ (y.2.outline τ).tokens) ++ s') :
      (x.1.outline σ, x.2.outline σ) = (y.1.outline τ, y.2.outline τ) ∧ s = s' := by
    rw [List.append_assoc, List.append_assoc] at h
    obtain ⟨hv, h⟩ := Var.decode (Buffer.plain_tokens _ _) (Buffer.plain_tokens _ _) h
    obtain ⟨hb, h⟩ := Buffer.decode x.2 y.2 s s' h
    exact ⟨by rw [hv, hb], h⟩
  have hnil {ts us : List Token} (h : ts = us) : ts ++ [] = us ++ [] := by rw [h]
  have h := hnil h
  simp only [PrimFunc.outline, PrimFunc.Outline.tokens, List.cons_append, List.cons.injEq,
    true_and, List.append_assoc] at h
  obtain ⟨hp, h⟩ := tokensOf_decode (P := fun s => plain s) (fun _ _ => rfl)
    (fun _ _ _ _ hs hs' => Var.decode hs hs') rfl rfl h
  -- A type comes after the last map, but its entries end with buffers.
  obtain ⟨hb, h⟩ := tokensOf_decode (P := fun _ => True) (fun _ _ => trivial)
    (fun x y s s' _ _ => hentry x y s s') trivial trivial h
  obtain ⟨hq, h⟩ := tokensOf_decode (P := fun _ => True) (fun _ _ => trivial)
    (fun x y s s' _ _ => hentry x y s s') trivial trivial h
  obtain ⟨ht, h⟩ := ValueType.decode f.retType g.retType _ _ h
  obtain ⟨ha, h⟩ := Annotations.decode (Stmt.plain_tokens _ _) (Stmt.plain_tokens _ _) h
  obtain ⟨hs, -⟩ := Stmt.decode f.body g.body hf hg _ _ rfl rfl h
  simp only [PrimFunc.outline, hp, hb, hq, ht, ha, hs]

end

end TensorProgram
