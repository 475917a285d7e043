import TensorProgram.Proofs.Renaming

/-!
Renaming and the tokens. To write down an outline is to change the identities in what is
written down, and the variables in what is written down are those that occur.
-/

namespace TensorProgram

section

variable (σ : VarId → VarId)

theorem tokensOf_map {α β : Type} {f : α → List Token} {g : β → List Token} {h : α → β}
    (hf : ∀ x, g (h x) = (f x).map (Token.relabel σ)) (l : List α) :
    tokensOf g (l.map h) = (tokensOf f l).map (Token.relabel σ) := by
  have hl : (l.map h).flatMap g = (l.flatMap f).map (Token.relabel σ) := by
    induction l with
    | nil => rfl
    | cons x l ih => simp [hf, ih]
  rw [tokensOf, tokensOf, hl, List.length_map]
  rfl

mutual

theorem ValueType.map_tokens : (t : ValueType) → t.tokens.map (Token.relabel σ) = t.tokens
  | .prim _ => rfl
  | .pointer _ _ => rfl
  | .tuple ts => by
      rw [ValueType.tokens, List.map_cons, List.map_cons, ValueType.map_tokensList ts]
      rfl
termination_by structural t => t

theorem ValueType.map_tokensList :
    (ts : List ValueType) →
      (ValueType.tokensList ts).map (Token.relabel σ) = ValueType.tokensList ts
  | [] => rfl
  | t :: ts => by
      rw [ValueType.tokensList, List.map_append, ValueType.map_tokens t,
        ValueType.map_tokensList ts]
termination_by structural ts => ts

end

theorem Var.tokens_outline (v : Var) :
    (v.outline σ).tokens = v.tokens.map (Token.relabel σ) := by
  cases h : v.typeHint with
  | none => simp [Var.tokens, Var.outline, Token.relabel, h]
  | some t => simp [Var.tokens, Var.outline, Token.relabel, h, ValueType.map_tokens]

theorem Expr.length_outlineList (es : List Expr) :
    (Expr.outlineList σ es).length = es.length := by
  induction es with
  | nil => rfl
  | cons e es ih => rw [Expr.outlineList, List.length_cons, List.length_cons, ih]

mutual

theorem Expr.tokens_outline : (e : Expr) →
    (e.outline σ).tokens = e.tokens.map (Token.relabel σ)
  | .int _ _ => rfl
  | .float _ _ => rfl
  | .str _ => rfl
  | .var v => v.tokens_outline σ
  | .binary op a b => by
      simp [Expr.outline, Expr.tokens, Token.relabel, Expr.tokens_outline a,
        Expr.tokens_outline b]
  | .not a => by simp [Expr.outline, Expr.tokens, Token.relabel, Expr.tokens_outline a]
  | .cast d a => by simp [Expr.outline, Expr.tokens, Token.relabel, Expr.tokens_outline a]
  | .load b is => by
      simp [Expr.outline, Expr.tokens, Token.relabel, Expr.length_outlineList,
        Buffer.tokens_outline b, Expr.tokensList_outline is]
  | .call op as d => by
      simp [Expr.outline, Expr.tokens, Token.relabel, Expr.length_outlineList,
        Expr.tokensList_outline as]
termination_by structural e => e

theorem Expr.tokensList_outline : (es : List Expr) →
    Expr.tokensList (Expr.outlineList σ es) = (Expr.tokensList es).map (Token.relabel σ)
  | [] => rfl
  | e :: es => by
      rw [Expr.outlineList, Expr.tokensList, Expr.tokensList, List.map_append,
        Expr.tokens_outline e, Expr.tokensList_outline es]
termination_by structural es => es

theorem Buffer.tokens_outline : (b : Buffer) →
    (b.outline σ).tokens = b.tokens.map (Token.relabel σ)
  | ⟨data, dtype, shape, strides, offset, name, alignment, factor, kind, separators⟩ => by
      simp [Buffer.outline, Buffer.tokens, Token.relabel, Expr.length_outlineList,
        Var.tokens_outline, Expr.tokensList_outline shape, Expr.tokensList_outline strides,
        Expr.tokens_outline offset]
termination_by structural b => b

end

theorem Range.tokens_outline (r : Range) :
    (r.outline σ).tokens = r.tokens.map (Token.relabel σ) := by
  simp [Range.outline, Range.tokens, Expr.tokens_outline]

theorem IterVar.tokens_outline (v : IterVar) :
    (v.outline σ).tokens = v.tokens.map (Token.relabel σ) := by
  cases h : v.dom with
  | none => simp [IterVar.outline, IterVar.tokens, Token.relabel, Var.tokens_outline, h]
  | some r =>
      simp [IterVar.outline, IterVar.tokens, Token.relabel, Var.tokens_outline,
        Range.tokens_outline, h]

theorem AttrValue.length_outlineList (as : List AttrValue) :
    (AttrValue.outlineList σ as).length = as.length := by
  induction as with
  | nil => rfl
  | cons a as ih => rw [AttrValue.outlineList, List.length_cons, List.length_cons, ih]

mutual

theorem AttrValue.tokens_outline : (a : AttrValue) →
    (a.outline σ).tokens = a.tokens.map (Token.relabel σ)
  | .int _ => rfl
  | .float _ => rfl
  | .bool _ => rfl
  | .str _ => rfl
  | .expr e => by simp [AttrValue.outline, AttrValue.tokens, Token.relabel, Expr.tokens_outline]
  | .array as => by
      simp [AttrValue.outline, AttrValue.tokens, Token.relabel, AttrValue.length_outlineList,
        AttrValue.tokensList_outline as]
termination_by structural a => a

theorem AttrValue.tokensList_outline : (as : List AttrValue) →
    AttrValue.tokensList (AttrValue.outlineList σ as) =
      (AttrValue.tokensList as).map (Token.relabel σ)
  | [] => rfl
  | a :: as => by
      rw [AttrValue.outlineList, AttrValue.tokensList, AttrValue.tokensList, List.map_append,
        AttrValue.tokens_outline a, AttrValue.tokensList_outline as]
termination_by structural as => as

end

theorem Annotations.tokens_outline (m : Annotations) :
    Annotations.tokens (Annotations.outline σ m) =
      (Annotations.tokens m).map (Token.relabel σ) := by
  refine tokensOf_map σ (fun e => ?_) m.entries
  simp [Token.relabel, AttrValue.tokens_outline]

theorem Region.tokens_outline (r : Region) :
    (r.outline σ).tokens = r.tokens.map (Token.relabel σ) := by
  simp [Region.outline, Region.tokens, Buffer.tokens_outline,
    tokensOf_map σ (Range.tokens_outline σ)]

theorem MatchRegion.tokens_outline (m : MatchRegion) :
    (m.outline σ).tokens = m.tokens.map (Token.relabel σ) := by
  simp [MatchRegion.outline, MatchRegion.tokens, Buffer.tokens_outline, Region.tokens_outline]

theorem ConstantData.map_tokens (data : ConstantData) :
    data.tokens.map (Token.relabel σ) = data.tokens := by
  cases data with
  | ints vs =>
      have h := tokensOf_map σ (f := fun v => [Token.int v]) (g := fun v => [Token.int v])
        (h := id) (fun _ => rfl) vs
      rw [List.map_id] at h
      exact h.symm
  | floats vs =>
      have h := tokensOf_map σ (f := fun v => [Token.float v]) (g := fun v => [Token.float v])
        (h := id) (fun _ => rfl) vs
      rw [List.map_id] at h
      exact h.symm

theorem Block.tokens_outline (b : Block) :
    (b.outline σ).tokens = b.tokens.map (Token.relabel σ) := by
  simp [Block.outline, Block.tokens, Token.relabel, tokensOf_map σ (IterVar.tokens_outline σ),
    tokensOf_map σ (Region.tokens_outline σ), tokensOf_map σ (Buffer.tokens_outline σ),
    tokensOf_map σ (MatchRegion.tokens_outline σ), Annotations.tokens_outline]

theorem Realization.tokens_outline (r : Realization) :
    (r.outline σ).tokens = r.tokens.map (Token.relabel σ) := by
  simp [Realization.outline, Realization.tokens, tokensOf_map σ (Expr.tokens_outline σ),
    Expr.tokens_outline]

theorem AttrNode.tokens_outline (n : AttrNode) :
    (n.outline σ).tokens = n.tokens.map (Token.relabel σ) := by
  cases n with
  | var v => exact v.tokens_outline σ
  | iterVar v => exact v.tokens_outline σ
  | buffer b => exact b.tokens_outline σ
  | str s => rfl

theorem Head.tokens_outline (h : Head) :
    (h.outline σ).tokens = h.tokens.map (Token.relabel σ) := by
  cases h with
  | loop l =>
      cases ht : l.thread with
      | none =>
          simp [Head.outline, Head.tokens, Token.relabel, Var.tokens_outline, Expr.tokens_outline,
            Annotations.tokens_outline, ht]
      | some v =>
          simp [Head.outline, Head.tokens, Token.relabel, Var.tokens_outline, Expr.tokens_outline,
            Annotations.tokens_outline, IterVar.tokens_outline, ht]
  | whileLoop c => exact c.tokens_outline σ
  | bind v e => simp [Head.outline, Head.tokens, Var.tokens_outline, Expr.tokens_outline]
  | allocate v d es c m =>
      simp [Head.outline, Head.tokens, Token.relabel, Var.tokens_outline, Expr.tokens_outline,
        tokensOf_map σ (Expr.tokens_outline σ), Annotations.tokens_outline]
  | allocateConst v d es data m =>
      simp [Head.outline, Head.tokens, Token.relabel, Var.tokens_outline,
        tokensOf_map σ (Expr.tokens_outline σ), Annotations.tokens_outline,
        ConstantData.map_tokens]
  | attr node key e =>
      simp [Head.outline, Head.tokens, Token.relabel, AttrNode.tokens_outline,
        Expr.tokens_outline]
  | assert c m => simp [Head.outline, Head.tokens, Expr.tokens_outline]
  | realize r c => simp [Head.outline, Head.tokens, Region.tokens_outline, Expr.tokens_outline]

theorem Head.name_outline (h : Head) : (h.outline σ).name = h.name := by
  cases h <;> rfl

theorem Leaf.tokens_outline (l : Leaf) :
    (l.outline σ).tokens = l.tokens.map (Token.relabel σ) := by
  cases l with
  | store b e is =>
      simp [Leaf.outline, Leaf.tokens, Buffer.tokens_outline, Expr.tokens_outline,
        tokensOf_map σ (Expr.tokens_outline σ)]
  | prefetch b rs =>
      simp [Leaf.outline, Leaf.tokens, Buffer.tokens_outline,
        tokensOf_map σ (Range.tokens_outline σ)]
  | evaluate e => exact e.tokens_outline σ

theorem Leaf.name_outline (l : Leaf) : (l.outline σ).name = l.name := by
  cases l <;> rfl

theorem Stmt.length_outlineList (ss : List Stmt) :
    (Stmt.outlineList σ ss).length = ss.length := by
  induction ss with
  | nil => rfl
  | cons s ss ih => rw [Stmt.outlineList, List.length_cons, List.length_cons, ih]

mutual

theorem Stmt.tokens_outline : (s : Stmt) →
    (s.outline σ).tokens = s.tokens.map (Token.relabel σ)
  | .seq ss => by
      simp [Stmt.outline, Stmt.tokens, Token.relabel, Stmt.length_outlineList,
        Stmt.tokensList_outline ss]
  | .block none b init body => by
      simp [Stmt.outline, Stmt.tokens, Token.relabel, Block.tokens_outline,
        Stmt.tokensOr_outline "no_init" init, Stmt.tokens_outline body]
  | .block (some r) b init body => by
      simp [Stmt.outline, Stmt.tokens, Token.relabel, Realization.tokens_outline,
        Block.tokens_outline, Stmt.tokensOr_outline "no_init" init, Stmt.tokens_outline body]
  | .branch c s e => by
      simp [Stmt.outline, Stmt.tokens, Token.relabel, Expr.tokens_outline, Stmt.tokens_outline s,
        Stmt.tokensOr_outline "no_else" e]
  | .under h s => by
      simp [Stmt.outline, Stmt.tokens, Token.relabel, Head.name_outline, Head.tokens_outline,
        Stmt.tokens_outline s]
  | .leaf l => by
      simp [Stmt.outline, Stmt.tokens, Token.relabel, Leaf.name_outline, Leaf.tokens_outline]
termination_by structural s => s

theorem Stmt.tokensList_outline : (ss : List Stmt) →
    Stmt.tokensList (Stmt.outlineList σ ss) = (Stmt.tokensList ss).map (Token.relabel σ)
  | [] => rfl
  | s :: ss => by
      rw [Stmt.outlineList, Stmt.tokensList, Stmt.tokensList, List.map_append,
        Stmt.tokens_outline s, Stmt.tokensList_outline ss]
termination_by structural ss => ss

theorem Stmt.tokensOr_outline (missing : String) : (s : Option Stmt) →
    Stmt.tokensOr missing (Stmt.outlineOption σ s) =
      (Stmt.tokensOr missing s).map (Token.relabel σ)
  | none => rfl
  | some s => by
      rw [Stmt.outlineOption, Stmt.tokensOr, Stmt.tokensOr, Stmt.tokens_outline s]
termination_by structural s => s

end

theorem PrimFunc.tokens_outline (f : PrimFunc) :
    (f.outline σ).tokens = f.tokens.map (Token.relabel σ) := by
  have he (l : List (Var × Buffer)) :
      tokensOf (fun e => e.1.tokens ++ e.2.tokens)
          (l.map fun e => (e.1.outline σ, e.2.outline σ)) =
        (tokensOf (fun e => e.1.tokens ++ e.2.tokens) l).map (Token.relabel σ) := by
    refine tokensOf_map σ (fun e => ?_) l
    simp [Var.tokens_outline, Buffer.tokens_outline]
  simp [PrimFunc.outline, PrimFunc.Outline.tokens, PrimFunc.tokens, Token.relabel,
    tokensOf_map σ (Var.tokens_outline σ), he, ValueType.map_tokens,
    Annotations.tokens_outline, Stmt.tokens_outline]

end

/-! Variables in what is written down. -/

theorem flatMap_tokensOf {α : Type} {f : α → List Token} {g : α → List VarId}
    (hf : ∀ x, (f x).flatMap Token.vars = g x) (l : List α) :
    (tokensOf f l).flatMap Token.vars = l.flatMap g := by
  have hl : (l.flatMap f).flatMap Token.vars = l.flatMap g := by
    induction l with
    | nil => rfl
    | cons x l ih => simp [hf, ih]
  exact hl

mutual

theorem ValueType.flatMap_tokens : (t : ValueType) → t.tokens.flatMap Token.vars = []
  | .prim _ => rfl
  | .pointer _ _ => rfl
  | .tuple ts => ValueType.flatMap_tokensList ts
termination_by structural t => t

theorem ValueType.flatMap_tokensList :
    (ts : List ValueType) → (ValueType.tokensList ts).flatMap Token.vars = []
  | [] => rfl
  | t :: ts => by
      rw [ValueType.tokensList, List.flatMap_append, ValueType.flatMap_tokens t,
        ValueType.flatMap_tokensList ts, List.append_nil]
termination_by structural ts => ts

end

theorem Var.vars_tokens (v : Var) : v.tokens.flatMap Token.vars = [v.id] := by
  cases h : v.typeHint with
  | none => simp [Var.tokens, Token.vars, h]
  | some t => simp [Var.tokens, Token.vars, h, ValueType.flatMap_tokens]

mutual

theorem Expr.vars_tokens : (e : Expr) → e.tokens.flatMap Token.vars = e.vars
  | .int _ _ => rfl
  | .float _ _ => rfl
  | .str _ => rfl
  | .var v => v.vars_tokens
  | .binary op a b => by
      simp [Expr.tokens, Expr.vars, Token.vars, Expr.vars_tokens a, Expr.vars_tokens b]
  | .not a => by simp [Expr.tokens, Expr.vars, Token.vars, Expr.vars_tokens a]
  | .cast d a => by simp [Expr.tokens, Expr.vars, Token.vars, Expr.vars_tokens a]
  | .load b is => by
      simp [Expr.tokens, Expr.vars, Token.vars, Buffer.vars_tokens b, Expr.varsList_tokens is]
  | .call op as d => by simp [Expr.tokens, Expr.vars, Token.vars, Expr.varsList_tokens as]
termination_by structural e => e

theorem Expr.varsList_tokens : (es : List Expr) →
    (Expr.tokensList es).flatMap Token.vars = Expr.varsList es
  | [] => rfl
  | e :: es => by
      rw [Expr.tokensList, Expr.varsList, List.flatMap_append, Expr.vars_tokens e,
        Expr.varsList_tokens es]
termination_by structural es => es

theorem Buffer.vars_tokens : (b : Buffer) → b.tokens.flatMap Token.vars = b.vars
  | ⟨data, dtype, shape, strides, offset, name, alignment, factor, kind, separators⟩ => by
      have hs : (separators.map Token.int).flatMap Token.vars = [] := by
        simp [List.flatMap_map, Token.vars]
      simp [Buffer.tokens, Buffer.vars, Token.vars, Var.vars_tokens, Expr.varsList_tokens shape,
        Expr.varsList_tokens strides, Expr.vars_tokens offset, hs]
termination_by structural b => b

end

theorem Range.vars_tokens (r : Range) : r.tokens.flatMap Token.vars = r.vars := by
  simp [Range.tokens, Range.vars, Expr.vars_tokens]

theorem IterVar.vars_tokens (v : IterVar) : v.tokens.flatMap Token.vars = v.vars := by
  cases h : v.dom with
  | none => simp [IterVar.tokens, IterVar.vars, Token.vars, Var.vars_tokens, h]
  | some r =>
      simp [IterVar.tokens, IterVar.vars, Token.vars, Var.vars_tokens, Range.vars_tokens, h]

mutual

theorem AttrValue.vars_tokens : (a : AttrValue) → a.tokens.flatMap Token.vars = a.vars
  | .int _ => rfl
  | .float _ => rfl
  | .bool _ => rfl
  | .str _ => rfl
  | .expr e => by simp [AttrValue.tokens, AttrValue.vars, Token.vars, Expr.vars_tokens]
  | .array as => by
      simp [AttrValue.tokens, AttrValue.vars, Token.vars, AttrValue.varsList_tokens as]
termination_by structural a => a

theorem AttrValue.varsList_tokens : (as : List AttrValue) →
    (AttrValue.tokensList as).flatMap Token.vars = AttrValue.varsList as
  | [] => rfl
  | a :: as => by
      rw [AttrValue.tokensList, AttrValue.varsList, List.flatMap_append,
        AttrValue.vars_tokens a, AttrValue.varsList_tokens as]
termination_by structural as => as

end

theorem Annotations.vars_tokens (m : Annotations) :
    (Annotations.tokens m).flatMap Token.vars = Annotations.vars m := by
  refine flatMap_tokensOf (fun e => ?_) m.entries
  exact e.2.vars_tokens

theorem Region.vars_tokens (r : Region) : r.tokens.flatMap Token.vars = r.vars := by
  simp [Region.tokens, Region.vars, Buffer.vars_tokens, flatMap_tokensOf Range.vars_tokens]

theorem MatchRegion.vars_tokens (m : MatchRegion) :
    m.tokens.flatMap Token.vars = m.vars := by
  simp [MatchRegion.tokens, MatchRegion.vars, Buffer.vars_tokens, Region.vars_tokens]

theorem ConstantData.flatMap_tokens (data : ConstantData) :
    data.tokens.flatMap Token.vars = [] := by
  cases data with
  | ints vs =>
      rw [ConstantData.tokens, flatMap_tokensOf (fun _ => rfl)]
      simp [Token.vars]
  | floats vs =>
      rw [ConstantData.tokens, flatMap_tokensOf (fun _ => rfl)]
      simp [Token.vars]

theorem Block.vars_tokens (b : Block) : b.tokens.flatMap Token.vars = b.vars := by
  simp [Block.tokens, Block.vars, Token.vars, flatMap_tokensOf IterVar.vars_tokens,
    flatMap_tokensOf Region.vars_tokens, flatMap_tokensOf Buffer.vars_tokens,
    flatMap_tokensOf MatchRegion.vars_tokens, Annotations.vars_tokens]

theorem Realization.vars_tokens (r : Realization) :
    r.tokens.flatMap Token.vars = r.vars := by
  simp [Realization.tokens, Realization.vars, flatMap_tokensOf Expr.vars_tokens,
    Expr.vars_tokens]

theorem AttrNode.vars_tokens (n : AttrNode) : n.tokens.flatMap Token.vars = n.vars := by
  cases n with
  | var v => exact v.vars_tokens
  | iterVar v => exact v.vars_tokens
  | buffer b => exact b.vars_tokens
  | str s => rfl

theorem Head.vars_tokens (h : Head) : h.tokens.flatMap Token.vars = h.vars := by
  cases h with
  | loop l =>
      cases ht : l.thread with
      | none =>
          simp [Head.tokens, Head.vars, Token.vars, Var.vars_tokens, Expr.vars_tokens,
            Annotations.vars_tokens, ht]
      | some v =>
          simp [Head.tokens, Head.vars, Token.vars, Var.vars_tokens, Expr.vars_tokens,
            Annotations.vars_tokens, IterVar.vars_tokens, ht]
  | whileLoop c => exact c.vars_tokens
  | bind v e => simp [Head.tokens, Head.vars, Var.vars_tokens, Expr.vars_tokens]
  | allocate v d es c m =>
      simp [Head.tokens, Head.vars, Token.vars, Var.vars_tokens, Expr.vars_tokens,
        flatMap_tokensOf Expr.vars_tokens, Annotations.vars_tokens]
  | allocateConst v d es data m =>
      simp [Head.tokens, Head.vars, Token.vars, Var.vars_tokens,
        flatMap_tokensOf Expr.vars_tokens, Annotations.vars_tokens,
        ConstantData.flatMap_tokens]
  | attr node key e =>
      simp [Head.tokens, Head.vars, Token.vars, AttrNode.vars_tokens, Expr.vars_tokens]
  | assert c m => simp [Head.tokens, Head.vars, Expr.vars_tokens]
  | realize r c => simp [Head.tokens, Head.vars, Region.vars_tokens, Expr.vars_tokens]

theorem Leaf.vars_tokens (l : Leaf) : l.tokens.flatMap Token.vars = l.vars := by
  cases l with
  | store b e is =>
      simp [Leaf.tokens, Leaf.vars, Buffer.vars_tokens, Expr.vars_tokens,
        flatMap_tokensOf Expr.vars_tokens]
  | prefetch b rs =>
      simp [Leaf.tokens, Leaf.vars, Buffer.vars_tokens, flatMap_tokensOf Range.vars_tokens]
  | evaluate e => exact e.vars_tokens

mutual

theorem Stmt.vars_tokens : (s : Stmt) → s.tokens.flatMap Token.vars = s.vars
  | .seq ss => by simp [Stmt.tokens, Stmt.vars, Token.vars, Stmt.varsList_tokens ss]
  | .block none b init body => by
      simp [Stmt.tokens, Stmt.vars, Token.vars, Block.vars_tokens,
        Stmt.varsOption_tokens "no_init" init, Stmt.vars_tokens body]
  | .block (some r) b init body => by
      simp [Stmt.tokens, Stmt.vars, Token.vars, Realization.vars_tokens, Block.vars_tokens,
        Stmt.varsOption_tokens "no_init" init, Stmt.vars_tokens body]
  | .branch c s e => by
      simp [Stmt.tokens, Stmt.vars, Token.vars, Expr.vars_tokens, Stmt.vars_tokens s,
        Stmt.varsOption_tokens "no_else" e]
  | .under h s => by
      simp [Stmt.tokens, Stmt.vars, Token.vars, Head.vars_tokens, Stmt.vars_tokens s]
  | .leaf l => by simp [Stmt.tokens, Stmt.vars, Token.vars, Leaf.vars_tokens]
termination_by structural s => s

theorem Stmt.varsList_tokens : (ss : List Stmt) →
    (Stmt.tokensList ss).flatMap Token.vars = Stmt.varsList ss
  | [] => rfl
  | s :: ss => by
      rw [Stmt.tokensList, Stmt.varsList, List.flatMap_append, Stmt.vars_tokens s,
        Stmt.varsList_tokens ss]
termination_by structural ss => ss

theorem Stmt.varsOption_tokens (missing : String) : (s : Option Stmt) →
    (Stmt.tokensOr missing s).flatMap Token.vars = Stmt.varsOption s
  | none => rfl
  | some s => by rw [Stmt.tokensOr, Stmt.varsOption, Stmt.vars_tokens s]
termination_by structural s => s

end

theorem PrimFunc.vars_tokens (f : PrimFunc) : f.tokens.flatMap Token.vars = f.vars := by
  have hp (e : Var × Buffer) :
      (e.1.tokens ++ e.2.tokens).flatMap Token.vars = e.1.id :: e.2.vars := by
    simp [Var.vars_tokens, Buffer.vars_tokens]
  have hm : f.params.map Var.id = f.params.flatMap fun v => [v.id] := List.map_eq_flatMap
  simp [PrimFunc.tokens, PrimFunc.vars, Token.vars, flatMap_tokensOf Var.vars_tokens,
    flatMap_tokensOf hp, ValueType.flatMap_tokens, Annotations.vars_tokens, Stmt.vars_tokens, hm]

end TensorProgram
