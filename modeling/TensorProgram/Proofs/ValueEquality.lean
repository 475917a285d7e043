import Mathlib.Data.List.Forall2
import TensorProgram.Proofs.Interface
import TensorProgram.Proofs.Occurrences
import TensorProgram.ValueEq

/-!
Equality of values and structure. Functions that are equal as values are written down alike, and so
have one fingerprint, if variables and floats are the same for both kinds of equality and their
maps list the keys in the same order.
-/

namespace TensorProgram

namespace Binary64

def negativeZero : Binary64 := ofFields true 0 0

/-- A float that is equal to itself and to no other: no NaN, and not the negative zero. -/
structure Plain (x : Binary64) : Prop where
  number : x.isNaN = false
  unsigned : x ≠ negativeZero

instance (x : Binary64) : Decidable x.Plain :=
  decidable_of_iff (x.isNaN = false ∧ x ≠ negativeZero) ⟨fun h => ⟨h.1, h.2⟩, fun h => ⟨h.1, h.2⟩⟩

theorem Plain.eq_zero {x : Binary64} (hx : x.Plain) (h : x.isZero = true) : x = ⟨0⟩ := by
  have hlt : x.bits.toNat < 2 ^ 64 := x.bits.toNat_lt
  have hm : x.bits.toNat % 2 ^ 63 = 0 := by simpa [isZero] using h
  obtain hb | hb : x.bits.toNat = 0 ∨ x.bits.toNat = negativeZero.bits.toNat := by
    have hn : negativeZero.bits.toNat = 2 ^ 63 := by decide
    omega
  · exact congrArg Binary64.mk (UInt64.toNat_inj.1 hb)
  · exact absurd (congrArg Binary64.mk (UInt64.toNat_inj.1 hb)) hx.unsigned

theorem eq_of_ieeeEq {x y : Binary64} (hx : x.Plain) (hy : y.Plain) (h : x.ieeeEq y = true) :
    x = y := by
  simp only [ieeeEq, Bool.and_eq_true, Bool.or_eq_true, beq_iff_eq] at h
  obtain ⟨-, h | ⟨hx', hy'⟩⟩ := h
  · exact congrArg Binary64.mk h
  · rw [hx.eq_zero hx', hy.eq_zero hy']

end Binary64

/-- Variables of one identity have one type among these. -/
def SameTypes (vs : List Var) : Prop :=
  ∀ v ∈ vs, ∀ w ∈ vs, v.id = w.id → v.dtype = w.dtype ∧ v.typeHint = w.typeHint

instance (vs : List Var) : Decidable (SameTypes vs) :=
  inferInstanceAs (Decidable (∀ v ∈ vs, ∀ w ∈ vs, v.id = w.id → _))

/-- The atom is one of the variables, or a plain float. -/
def Atom.Fits (vs : List Var) : Atom → Prop
  | .var v => v ∈ vs
  | .float x => x.Plain

/-- All variables are among `vs`, and all floats are plain. -/
def Fit (vs : List Var) (as : List Atom) : Prop := ∀ a ∈ as, a.Fits vs

section

variable {vs : List Var}

@[simp]
theorem fit_var_cons {v : Var} {as : List Atom} : Fit vs (.var v :: as) ↔ v ∈ vs ∧ Fit vs as := by
  simp [Fit, Atom.Fits]

@[simp]
theorem fit_float_cons {x : Binary64} {as : List Atom} :
    Fit vs (.float x :: as) ↔ x.Plain ∧ Fit vs as := by
  simp [Fit, Atom.Fits]

@[simp]
theorem fit_append {as bs : List Atom} : Fit vs (as ++ bs) ↔ Fit vs as ∧ Fit vs bs := by
  simp only [Fit, List.forall_mem_append]

theorem fit_flatMap {α : Type} {atoms : α → List Atom} {l : List α} :
    Fit vs (l.flatMap atoms) ↔ ∀ x ∈ l, Fit vs (atoms x) := by
  simp only [Fit, List.mem_flatMap]
  exact ⟨fun h x hx a ha => h a ⟨x, hx, ha⟩, fun h a ⟨x, hx, ha⟩ => h x hx a ha⟩

theorem eqList_iff_forall₂ {α : Type} {same : α → α → Bool} {l l' : List α} :
    eqList same l l' = true ↔ List.Forall₂ (fun a b => same a b = true) l l' := by
  induction l generalizing l' with
  | nil => cases l' <;> simp [eqList]
  | cons a l ih => cases l' <;> simp [eqList, ih]

/-- Lists are written down alike if their elements are, one by one. -/
theorem tokensOf_of_forall₂ {α : Type} {R : α → α → Prop} {f : α → List Token} {l l' : List α}
    (h : List.Forall₂ R l l') (hf : ∀ a ∈ l, ∀ b ∈ l', R a b → f a = f b) :
    tokensOf f l = tokensOf f l' := by
  have hm : l.flatMap f = l'.flatMap f := by
    induction h with
    | nil => rfl
    | cons hab h ih =>
        rw [List.flatMap_cons, List.flatMap_cons,
          hf _ List.mem_cons_self _ List.mem_cons_self hab,
          ih fun a ha b hb => hf a (List.mem_cons_of_mem _ ha) b (List.mem_cons_of_mem _ hb)]
  rw [tokensOf, tokensOf, h.length_eq, hm]

/-- What is equal, and has no atoms but fitting ones, is written down alike. -/
def Agree (vs : List Var) {α : Type} (same : α → α → Bool) (atoms : α → List Atom)
    (tokens : α → List Token) : Prop :=
  ∀ a b, same a b = true → Fit vs (atoms a) → Fit vs (atoms b) → tokens a = tokens b

section

variable {α : Type} {same : α → α → Bool} {atoms : α → List Atom} {tokens : α → List Token}

theorem Agree.list (h : Agree vs same atoms tokens) {l l' : List α} (he : eqList same l l' = true)
    (hl : Fit vs (l.flatMap atoms)) (hl' : Fit vs (l'.flatMap atoms)) :
    tokensOf tokens l = tokensOf tokens l' := by
  rw [fit_flatMap] at hl hl'
  exact tokensOf_of_forall₂ (eqList_iff_forall₂.1 he) fun a ha b hb hab =>
    h a b hab (hl a ha) (hl' b hb)

theorem Agree.option (h : Agree vs same atoms tokens) (missing : List Token) {o o' : Option α}
    (he : eqOption same o o' = true) (ho : Fit vs (o.toList.flatMap atoms))
    (ho' : Fit vs (o'.toList.flatMap atoms)) :
    (o.map tokens).getD missing = (o'.map tokens).getD missing := by
  cases o with
  | none =>
      cases o' with
      | none => rfl
      | some b => simp [eqOption] at he
  | some a =>
      cases o' with
      | none => simp [eqOption] at he
      | some b =>
          rw [fit_flatMap] at ho ho'
          exact h a b he (ho a (by simp)) (ho' b (by simp))

end

/-- Equal maps in one order have equal entries, one by one. -/
theorem OrderedMap.forall₂_of_equivBy {α β κ : Type} [Keyed α κ] [DecidableEq κ]
    {same : β → β → Bool} {m n : OrderedMap α β} (h : m.equivBy same n = true)
    (hk : m.keys.map Keyed.key = n.keys.map Keyed.key) :
    List.Forall₂ (fun d e => Keyed.key d.1 = Keyed.key e.1 ∧ same d.2 e.2 = true)
      m.entries n.entries := by
  simp only [equivBy, Bool.and_eq_true, decide_eq_true_eq, List.all_eq_true] at h
  obtain ⟨hl, hs⟩ := h
  refine List.forall₂_iff_get.2 ⟨hl, fun i hi hj => ?_⟩
  have hkey : Keyed.key m.entries[i].1 = Keyed.key n.entries[i].1 := by
    have := List.getElem_of_eq hk (i := i) (by simpa [keys] using hi)
    simpa [keys] using this
  have hget : n.get? m.entries[i].1 = some n.entries[i].2 := by
    have he : n.entry? m.entries[i].1 = some n.entries[i] :=
      entry?_eq_some_iff.2 ⟨List.getElem_mem hj, hkey.symm⟩
    exact congrArg (Option.map Prod.snd) he
  have hv := hs _ (List.getElem_mem hi)
  rw [hget] at hv
  exact ⟨hkey, hv⟩

/-! Equality of values, from variables up. -/

theorem Var.agree (types : SameTypes vs) {v w : Var} (h : v.same w = true) (hv : v ∈ vs)
    (hw : w ∈ vs) : v.tokens = w.tokens := by
  have hid : v.id = w.id := by simpa [Var.same] using h
  obtain ⟨hd, ht⟩ := types v hv w hw hid
  rw [Var.tokens, Var.tokens, hid, hd, ht]

mutual

theorem Expr.agree (types : SameTypes vs) : (x y : Expr) → x.valueEq y = true →
    Fit vs x.atoms → Fit vs y.atoms → x.tokens = y.tokens
  | .int v d, y, h, hx, hy => by
      cases y with
      | int w e => simp_all [Expr.valueEq, Expr.tokens]
      | _ => simp [Expr.valueEq] at h
  | .float v d, y, h, hx, hy => by
      cases y with
      | float w e =>
          simp only [Expr.valueEq, Bool.and_eq_true, decide_eq_true_eq] at h
          simp only [Expr.atoms, fit_float_cons] at hx hy
          rw [Expr.tokens, Expr.tokens, Binary64.eq_of_ieeeEq hx.1 hy.1 h.1, h.2]
      | _ => simp [Expr.valueEq] at h
  | .str s, y, h, hx, hy => by
      cases y with
      | str t => simp_all [Expr.valueEq, Expr.tokens]
      | _ => simp [Expr.valueEq] at h
  | .var v, y, h, hx, hy => by
      cases y with
      | var w =>
          simp only [Expr.atoms, fit_var_cons] at hx hy
          exact Var.agree types h hx.1 hy.1
      | _ => simp [Expr.valueEq] at h
  | .binary o a b, y, h, hx, hy => by
      cases y with
      | binary p c d =>
          simp only [Expr.valueEq, Bool.and_eq_true, decide_eq_true_eq] at h
          simp only [Expr.atoms, fit_append] at hx hy
          obtain ⟨⟨ho, ha⟩, hb⟩ := h
          rw [Expr.tokens, Expr.tokens, ho, Expr.agree types a c ha hx.1 hy.1,
            Expr.agree types b d hb hx.2 hy.2]
      | _ => simp [Expr.valueEq] at h
  | .not a, y, h, hx, hy => by
      cases y with
      | not b => rw [Expr.tokens, Expr.tokens, Expr.agree types a b h hx hy]
      | _ => simp [Expr.valueEq] at h
  | .cast d a, y, h, hx, hy => by
      cases y with
      | cast e b =>
          simp only [Expr.valueEq, Bool.and_eq_true, decide_eq_true_eq] at h
          rw [Expr.tokens, Expr.tokens, h.1, Expr.agree types a b h.2 hx hy]
      | _ => simp [Expr.valueEq] at h
  | .load b is, y, h, hx, hy => by
      cases y with
      | load c js =>
          simp only [Expr.valueEq, Bool.and_eq_true] at h
          simp only [Expr.atoms, fit_append] at hx hy
          obtain ⟨hl, hi⟩ := Expr.agreeList types is js h.2 hx.2 hy.2
          rw [Expr.tokens, Expr.tokens, Buffer.agree types b c h.1 hx.1 hy.1, hl, hi]
      | _ => simp [Expr.valueEq] at h
  | .call o as d, y, h, hx, hy => by
      cases y with
      | call p bs e =>
          simp only [Expr.valueEq, Bool.and_eq_true, decide_eq_true_eq] at h
          obtain ⟨⟨ho, ha⟩, hd⟩ := h
          obtain ⟨hl, ha⟩ := Expr.agreeList types as bs ha hx hy
          rw [Expr.tokens, Expr.tokens, ho, hd, hl, ha]
      | _ => simp [Expr.valueEq] at h
termination_by structural x => x

theorem Expr.agreeList (types : SameTypes vs) : (xs ys : List Expr) →
    Expr.valueEqList xs ys = true → Fit vs (Expr.atomsList xs) → Fit vs (Expr.atomsList ys) →
    xs.length = ys.length ∧ Expr.tokensList xs = Expr.tokensList ys
  | [], ys, h, hx, hy => by
      cases ys with
      | nil => exact ⟨rfl, rfl⟩
      | cons y ys => simp [Expr.valueEqList] at h
  | x :: xs, ys, h, hx, hy => by
      cases ys with
      | nil => simp [Expr.valueEqList] at h
      | cons y ys =>
          simp only [Expr.valueEqList, Bool.and_eq_true] at h
          simp only [Expr.atomsList, fit_append] at hx hy
          obtain ⟨hl, ht⟩ := Expr.agreeList types xs ys h.2 hx.2 hy.2
          rw [Expr.tokensList, Expr.tokensList, Expr.agree types x y h.1 hx.1 hy.1, ht]
          exact ⟨congrArg Nat.succ hl, rfl⟩
termination_by structural xs => xs

theorem Buffer.agree (types : SameTypes vs) : (x y : Buffer) → x.valueEq y = true →
    Fit vs x.atoms → Fit vs y.atoms → x.tokens = y.tokens
  | ⟨data, dtype, shape, strides, offset, name, alignment, factor, kind, separators⟩,
    ⟨data', dtype', shape', strides', offset', name', alignment', factor', kind', separators'⟩,
    h, hx, hy => by
      simp only [Buffer.valueEq, Bool.and_eq_true, decide_eq_true_eq] at h
      simp only [Buffer.atoms, fit_var_cons, fit_append] at hx hy
      obtain ⟨⟨⟨⟨⟨⟨⟨⟨⟨hv, hd⟩, hs⟩, ht⟩, ho⟩, -⟩, ha⟩, hf⟩, hk⟩, hp⟩ := h
      obtain ⟨hxv, ⟨hxs, hxt⟩, hxo⟩ := hx
      obtain ⟨hyv, ⟨hys, hyt⟩, hyo⟩ := hy
      obtain ⟨hsl, hs⟩ := Expr.agreeList types shape shape' hs hxs hys
      obtain ⟨htl, ht⟩ := Expr.agreeList types strides strides' ht hxt hyt
      have hv := Var.agree types hv hxv hyv
      have ho := Expr.agree types offset offset' ho hxo hyo
      simp only [Buffer.tokens, hv, ho, hd, hsl, hs, htl, ht, ha, hf, hk, hp]
termination_by structural x => x

end

theorem Range.agree (types : SameTypes vs) : Agree vs Range.valueEq Range.atoms Range.tokens := by
  intro r q h hr hq
  simp only [Range.valueEq, Bool.and_eq_true] at h
  simp only [Range.atoms, fit_append] at hr hq
  rw [Range.tokens, Range.tokens, Expr.agree types _ _ h.1 hr.1 hq.1,
    Expr.agree types _ _ h.2 hr.2 hq.2]

theorem IterVar.agree (types : SameTypes vs) :
    Agree vs IterVar.valueEq IterVar.atoms IterVar.tokens := by
  intro v w h hv hw
  simp only [IterVar.valueEq, Bool.and_eq_true, decide_eq_true_eq] at h
  simp only [IterVar.atoms, fit_append, fit_var_cons] at hv hw
  obtain ⟨⟨⟨hd, hs⟩, hk⟩, ht⟩ := h
  have hd := (Range.agree types).option [.tag "no_dom"] hd hv.1 hw.1
  rw [IterVar.tokens, IterVar.tokens, hd, Var.agree types hs hv.2.1 hw.2.1, hk, ht]

mutual

theorem AttrValue.agree (types : SameTypes vs) : (x y : AttrValue) → x.valueEq y = true →
    Fit vs x.atoms → Fit vs y.atoms → x.tokens = y.tokens
  | .int v, y, h, hx, hy => by
      cases y with
      | int w => simp_all [AttrValue.valueEq, AttrValue.tokens]
      | _ => simp [AttrValue.valueEq] at h
  | .float v, y, h, hx, hy => by
      cases y with
      | float w =>
          simp only [AttrValue.atoms, fit_float_cons] at hx hy
          rw [AttrValue.tokens, AttrValue.tokens, Binary64.eq_of_ieeeEq hx.1 hy.1 h]
      | _ => simp [AttrValue.valueEq] at h
  | .bool v, y, h, hx, hy => by
      cases y with
      | bool w => simp_all [AttrValue.valueEq, AttrValue.tokens]
      | _ => simp [AttrValue.valueEq] at h
  | .str s, y, h, hx, hy => by
      cases y with
      | str t => simp_all [AttrValue.valueEq, AttrValue.tokens]
      | _ => simp [AttrValue.valueEq] at h
  | .expr e, y, h, hx, hy => by
      cases y with
      | expr e' => rw [AttrValue.tokens, AttrValue.tokens, Expr.agree types e e' h hx hy]
      | _ => simp [AttrValue.valueEq] at h
  | .array as, y, h, hx, hy => by
      cases y with
      | array bs =>
          obtain ⟨hl, ha⟩ := AttrValue.agreeList types as bs h hx hy
          rw [AttrValue.tokens, AttrValue.tokens, hl, ha]
      | _ => simp [AttrValue.valueEq] at h
termination_by structural x => x

theorem AttrValue.agreeList (types : SameTypes vs) : (xs ys : List AttrValue) →
    AttrValue.valueEqList xs ys = true → Fit vs (AttrValue.atomsList xs) →
    Fit vs (AttrValue.atomsList ys) →
    xs.length = ys.length ∧ AttrValue.tokensList xs = AttrValue.tokensList ys
  | [], ys, h, hx, hy => by
      cases ys with
      | nil => exact ⟨rfl, rfl⟩
      | cons y ys => simp [AttrValue.valueEqList] at h
  | x :: xs, ys, h, hx, hy => by
      cases ys with
      | nil => simp [AttrValue.valueEqList] at h
      | cons y ys =>
          simp only [AttrValue.valueEqList, Bool.and_eq_true] at h
          simp only [AttrValue.atomsList, fit_append] at hx hy
          obtain ⟨hl, ht⟩ := AttrValue.agreeList types xs ys h.2 hx.2 hy.2
          rw [AttrValue.tokensList, AttrValue.tokensList, AttrValue.agree types x y h.1 hx.1 hy.1,
            ht]
          exact ⟨congrArg Nat.succ hl, rfl⟩
termination_by structural xs => xs

end

/-- Annotations that are equal are written down alike in one order only. -/
theorem Annotations.agree (types : SameTypes vs) {m n : Annotations}
    (h : Annotations.valueEq m n = true) (hk : m.keys = n.keys) (hm : Fit vs (Annotations.atoms m))
    (hn : Fit vs (Annotations.atoms n)) : Annotations.tokens m = Annotations.tokens n := by
  simp only [Annotations.atoms, fit_flatMap] at hm hn
  refine tokensOf_of_forall₂ (OrderedMap.forall₂_of_equivBy h (congrArg _ hk)) ?_
  intro d hd e he hde
  have hkey : d.1 = e.1 := hde.1
  rw [hkey, AttrValue.agree types d.2 e.2 hde.2 (hm d hd) (hn e he)]

theorem Region.agree (types : SameTypes vs) :
    Agree vs Region.valueEq Region.atoms Region.tokens := by
  intro r q h hr hq
  simp only [Region.valueEq, Bool.and_eq_true] at h
  simp only [Region.atoms, fit_append] at hr hq
  rw [Region.tokens, Region.tokens, Buffer.agree types _ _ h.1 hr.1 hq.1,
    (Range.agree types).list h.2 hr.2 hq.2]

theorem MatchRegion.agree (types : SameTypes vs) :
    Agree vs MatchRegion.valueEq MatchRegion.atoms MatchRegion.tokens := by
  intro r q h hr hq
  simp only [MatchRegion.valueEq, Bool.and_eq_true] at h
  simp only [MatchRegion.atoms, fit_append] at hr hq
  rw [MatchRegion.tokens, MatchRegion.tokens, Buffer.agree types _ _ h.1 hr.1 hq.1,
    Region.agree types _ _ h.2 hr.2 hq.2]

theorem ConstantData.agree :
    Agree vs ConstantData.valueEq ConstantData.atoms ConstantData.tokens := by
  intro x y h hx hy
  cases x with
  | ints ns =>
      cases y with
      | ints ms =>
          obtain rfl : ns = ms := by simpa [ConstantData.valueEq] using h
          rfl
      | floats ys => simp [ConstantData.valueEq] at h
  | floats xs =>
      cases y with
      | ints ms => simp [ConstantData.valueEq] at h
      | floats ys =>
          refine tokensOf_of_forall₂ (eqList_iff_forall₂.1 h) fun a ha b hb hab => ?_
          have ha : a.Plain := hx (.float a) (List.mem_map_of_mem ha)
          have hb : b.Plain := hy (.float b) (List.mem_map_of_mem hb)
          rw [Binary64.eq_of_ieeeEq ha hb hab]

theorem Realization.agree (types : SameTypes vs) :
    Agree vs Realization.valueEq Realization.atoms Realization.tokens := by
  intro r q h hr hq
  simp only [Realization.valueEq, Bool.and_eq_true] at h
  simp only [Realization.atoms, fit_append] at hr hq
  have hv := Agree.list (Expr.agree types) h.1 hr.1 hq.1
  rw [Realization.tokens, Realization.tokens, hv, Expr.agree types _ _ h.2 hr.2 hq.2]

theorem Block.agree (types : SameTypes vs) {b c : Block} (h : b.valueEq c = true)
    (hk : b.annotations.keys = c.annotations.keys) (hb : Fit vs b.atoms) (hc : Fit vs c.atoms) :
    b.tokens = c.tokens := by
  simp only [Block.valueEq, Bool.and_eq_true, decide_eq_true_eq] at h
  simp only [Block.atoms, fit_append] at hb hc
  obtain ⟨⟨⟨⟨⟨⟨hn, hi⟩, hr⟩, hw⟩, ha⟩, hm⟩, hat⟩ := h
  obtain ⟨⟨⟨⟨⟨bi, br⟩, bw⟩, ba⟩, bm⟩, bat⟩ := hb
  obtain ⟨⟨⟨⟨⟨ci, cr⟩, cw⟩, ca⟩, cm⟩, cat⟩ := hc
  rw [Block.tokens, Block.tokens, hn, (IterVar.agree types).list hi bi ci,
    (Region.agree types).list hr br cr, (Region.agree types).list hw bw cw,
    Agree.list (Buffer.agree types) ha ba ca, (MatchRegion.agree types).list hm bm cm,
    Annotations.agree types hat hk bat cat]

theorem AttrNode.agree (types : SameTypes vs) :
    Agree vs AttrNode.valueEq AttrNode.atoms AttrNode.tokens := by
  intro x y h hx hy
  cases x with
  | var v =>
      cases y with
      | var w =>
          simp only [AttrNode.atoms, fit_var_cons] at hx hy
          exact Var.agree types h hx.1 hy.1
      | _ => simp [AttrNode.valueEq] at h
  | iterVar v =>
      cases y with
      | iterVar w => exact IterVar.agree types v w h hx hy
      | _ => simp [AttrNode.valueEq] at h
  | buffer b =>
      cases y with
      | buffer c => exact Buffer.agree types b c h hx hy
      | _ => simp [AttrNode.valueEq] at h
  | str s =>
      cases y with
      | str t => simp_all [AttrNode.valueEq, AttrNode.tokens]
      | _ => simp [AttrNode.valueEq] at h

/-- A head that is equal and has its map in the same order. -/
theorem Head.agree (types : SameTypes vs) {x y : Head} (h : x.valueEq y = true)
    (ho : x.order = y.order) (hx : Fit vs x.atoms) (hy : Fit vs y.atoms) :
    x.name = y.name ∧ x.tokens = y.tokens := by
  cases x with
  | loop l =>
      cases y with
      | loop k =>
          simp only [Head.valueEq, Loop.valueEq, Bool.and_eq_true, decide_eq_true_eq] at h
          simp only [Head.atoms, fit_var_cons, fit_append] at hx hy
          obtain ⟨⟨⟨⟨⟨hv, hm⟩, he⟩, hk⟩, ht⟩, ha⟩ := h
          obtain ⟨xv, ⟨⟨xm, xe⟩, xt⟩, xa⟩ := hx
          obtain ⟨yv, ⟨⟨ym, ye⟩, yt⟩, ya⟩ := hy
          rw [Head.tokens, Head.tokens, Var.agree types hv xv yv, Expr.agree types _ _ hm xm ym,
            Expr.agree types _ _ he xe ye, hk, (IterVar.agree types).option _ ht xt yt,
            Annotations.agree types ha ho xa ya]
          exact ⟨rfl, rfl⟩
      | _ => simp [Head.valueEq] at h
  | whileLoop c =>
      cases y with
      | whileLoop d => exact ⟨rfl, Expr.agree types c d h hx hy⟩
      | _ => simp [Head.valueEq] at h
  | bind v e =>
      cases y with
      | bind w f =>
          simp only [Head.valueEq, Bool.and_eq_true] at h
          simp only [Head.atoms, fit_var_cons] at hx hy
          rw [Head.tokens, Head.tokens, Var.agree types h.1 hx.1 hy.1,
            Expr.agree types e f h.2 hx.2 hy.2]
          exact ⟨rfl, rfl⟩
      | _ => simp [Head.valueEq] at h
  | allocate v d es c m =>
      cases y with
      | allocate w e fs k n =>
          simp only [Head.valueEq, Bool.and_eq_true, decide_eq_true_eq] at h
          simp only [Head.atoms, fit_var_cons, fit_append] at hx hy
          obtain ⟨⟨⟨⟨hv, hd⟩, he⟩, hc⟩, ha⟩ := h
          obtain ⟨xv, ⟨xe, xc⟩, xa⟩ := hx
          obtain ⟨yv, ⟨ye, yc⟩, ya⟩ := hy
          rw [Head.tokens, Head.tokens, Var.agree types hv xv yv, hd,
            Agree.list (Expr.agree types) he xe ye, Expr.agree types c k hc xc yc,
            Annotations.agree types ha ho xa ya]
          exact ⟨rfl, rfl⟩
      | _ => simp [Head.valueEq] at h
  | allocateConst v d es data m =>
      cases y with
      | allocateConst w e fs data' n =>
          simp only [Head.valueEq, Bool.and_eq_true, decide_eq_true_eq] at h
          simp only [Head.atoms, fit_var_cons, fit_append] at hx hy
          obtain ⟨⟨⟨⟨hv, hd⟩, he⟩, hc⟩, ha⟩ := h
          obtain ⟨xv, ⟨xe, xc⟩, xa⟩ := hx
          obtain ⟨yv, ⟨ye, yc⟩, ya⟩ := hy
          rw [Head.tokens, Head.tokens, Var.agree types hv xv yv, hd,
            Agree.list (Expr.agree types) he xe ye, ConstantData.agree data data' hc xc yc,
            Annotations.agree types ha ho xa ya]
          exact ⟨rfl, rfl⟩
      | _ => simp [Head.valueEq] at h
  | attr node key e =>
      cases y with
      | attr node' key' f =>
          simp only [Head.valueEq, Bool.and_eq_true, decide_eq_true_eq] at h
          simp only [Head.atoms, fit_append] at hx hy
          rw [Head.tokens, Head.tokens, AttrNode.agree types _ _ h.1.1 hx.1 hy.1, h.1.2,
            Expr.agree types e f h.2 hx.2 hy.2]
          exact ⟨rfl, rfl⟩
      | _ => simp [Head.valueEq] at h
  | assert c m =>
      cases y with
      | assert d n =>
          simp only [Head.valueEq, Bool.and_eq_true] at h
          simp only [Head.atoms, fit_append] at hx hy
          rw [Head.tokens, Head.tokens, Expr.agree types c d h.1 hx.1 hy.1,
            Expr.agree types m n h.2 hx.2 hy.2]
          exact ⟨rfl, rfl⟩
      | _ => simp [Head.valueEq] at h
  | realize r c =>
      cases y with
      | realize q d =>
          simp only [Head.valueEq, Bool.and_eq_true] at h
          simp only [Head.atoms, fit_append] at hx hy
          rw [Head.tokens, Head.tokens, Region.agree types r q h.1 hx.1 hy.1,
            Expr.agree types c d h.2 hx.2 hy.2]
          exact ⟨rfl, rfl⟩
      | _ => simp [Head.valueEq] at h

theorem Leaf.agree (types : SameTypes vs) {x y : Leaf} (h : x.valueEq y = true)
    (hx : Fit vs x.atoms) (hy : Fit vs y.atoms) : x.name = y.name ∧ x.tokens = y.tokens := by
  cases x with
  | store b e is =>
      cases y with
      | store c f js =>
          simp only [Leaf.valueEq, Bool.and_eq_true] at h
          simp only [Leaf.atoms, fit_append] at hx hy
          obtain ⟨⟨hb, he⟩, hi⟩ := h
          rw [Leaf.tokens, Leaf.tokens, Buffer.agree types b c hb hx.1.1 hy.1.1,
            Expr.agree types e f he hx.1.2 hy.1.2, Agree.list (Expr.agree types) hi hx.2 hy.2]
          exact ⟨rfl, rfl⟩
      | _ => simp [Leaf.valueEq] at h
  | prefetch b rs =>
      cases y with
      | prefetch c qs =>
          simp only [Leaf.valueEq, Bool.and_eq_true] at h
          simp only [Leaf.atoms, fit_append] at hx hy
          rw [Leaf.tokens, Leaf.tokens, Buffer.agree types b c h.1 hx.1 hy.1,
            (Range.agree types).list h.2 hx.2 hy.2]
          exact ⟨rfl, rfl⟩
      | _ => simp [Leaf.valueEq] at h
  | evaluate e =>
      cases y with
      | evaluate f => exact ⟨rfl, Expr.agree types e f h hx hy⟩
      | _ => simp [Leaf.valueEq] at h

mutual

/-- Where the maps of equal statements are in the same order one after the other, the statements
are written down alike, and what comes after their maps is the same. -/
theorem Stmt.agree (types : SameTypes vs) : (s t : Stmt) → (r r' : List (List String)) →
    s.valueEq t = true → s.orders ++ r = t.orders ++ r' → Fit vs s.atoms → Fit vs t.atoms →
    s.tokens = t.tokens ∧ r = r'
  | .seq ss, t, r, r', h, ho, hs, ht => by
      cases t with
      | seq ts =>
          obtain ⟨hl, he, hr⟩ := Stmt.agreeList types ss ts r r' h ho hs ht
          exact ⟨by rw [Stmt.tokens, Stmt.tokens, hl, he], hr⟩
      | _ => simp [Stmt.valueEq] at h
  | .block q b i s, t, r, r', h, ho, hs, ht => by
      cases t with
      | block p c j t =>
          simp only [Stmt.valueEq, Bool.and_eq_true] at h
          simp only [Stmt.orders, List.cons_append, List.cons.injEq, List.append_assoc] at ho
          simp only [Stmt.atoms, fit_append] at hs ht
          obtain ⟨⟨⟨hq, hb⟩, hi⟩, hbody⟩ := h
          obtain ⟨⟨⟨sq, sb⟩, si⟩, sbody⟩ := hs
          obtain ⟨⟨⟨tq, tb⟩, ti⟩, tbody⟩ := ht
          have hb := Block.agree types hb ho.1 sb tb
          obtain ⟨hi, ho⟩ := Stmt.agreeOr types "no_init" i j _ _ hi ho.2 si ti
          obtain ⟨hbody, hr⟩ := Stmt.agree types s t r r' hbody ho sbody tbody
          refine ⟨?_, hr⟩
          cases q with
          | none =>
              cases p with
              | none => rw [Stmt.tokens, Stmt.tokens, hb, hi, hbody]
              | some p => simp [eqOption] at hq
          | some q =>
              cases p with
              | none => simp [eqOption] at hq
              | some p =>
                  simp only [Option.toList_some, List.flatMap_singleton] at sq tq
                  rw [Stmt.tokens, Stmt.tokens, Realization.agree types q p hq sq tq, hb, hi,
                    hbody]
      | _ => simp [Stmt.valueEq] at h
  | .branch c s e, t, r, r', h, ho, hs, ht => by
      cases t with
      | branch d t f =>
          simp only [Stmt.valueEq, Bool.and_eq_true] at h
          simp only [Stmt.orders, List.append_assoc] at ho
          simp only [Stmt.atoms, fit_append] at hs ht
          obtain ⟨⟨hc, hthen⟩, helse⟩ := h
          have hc := Expr.agree types c d hc hs.1.1 ht.1.1
          obtain ⟨hthen, ho⟩ := Stmt.agree types s t _ _ hthen ho hs.1.2 ht.1.2
          obtain ⟨helse, hr⟩ := Stmt.agreeOr types "no_else" e f r r' helse ho hs.2 ht.2
          exact ⟨by rw [Stmt.tokens, Stmt.tokens, hc, hthen, helse], hr⟩
      | _ => simp [Stmt.valueEq] at h
  | .under x s, t, r, r', h, ho, hs, ht => by
      cases t with
      | under y t =>
          simp only [Stmt.valueEq, Bool.and_eq_true] at h
          simp only [Stmt.orders, List.cons_append, List.cons.injEq] at ho
          simp only [Stmt.atoms, fit_append] at hs ht
          obtain ⟨hn, hx⟩ := Head.agree types h.1 ho.1 hs.1 ht.1
          obtain ⟨hbody, hr⟩ := Stmt.agree types s t r r' h.2 ho.2 hs.2 ht.2
          exact ⟨by rw [Stmt.tokens, Stmt.tokens, hn, hx, hbody], hr⟩
      | _ => simp [Stmt.valueEq] at h
  | .leaf l, t, r, r', h, ho, hs, ht => by
      cases t with
      | leaf m =>
          obtain ⟨hn, hl⟩ := Leaf.agree types h hs ht
          exact ⟨by rw [Stmt.tokens, Stmt.tokens, hn, hl], ho⟩
      | _ => simp [Stmt.valueEq] at h
termination_by structural s => s

theorem Stmt.agreeList (types : SameTypes vs) : (ss ts : List Stmt) →
    (r r' : List (List String)) → Stmt.valueEqList ss ts = true →
    Stmt.ordersList ss ++ r = Stmt.ordersList ts ++ r' → Fit vs (Stmt.atomsList ss) →
    Fit vs (Stmt.atomsList ts) →
    ss.length = ts.length ∧ Stmt.tokensList ss = Stmt.tokensList ts ∧ r = r'
  | [], ts, r, r', h, ho, hs, ht => by
      cases ts with
      | nil => exact ⟨rfl, rfl, ho⟩
      | cons t ts => simp [Stmt.valueEqList] at h
  | s :: ss, ts, r, r', h, ho, hs, ht => by
      cases ts with
      | nil => simp [Stmt.valueEqList] at h
      | cons t ts =>
          simp only [Stmt.valueEqList, Bool.and_eq_true] at h
          simp only [Stmt.ordersList, List.append_assoc] at ho
          simp only [Stmt.atomsList, fit_append] at hs ht
          obtain ⟨he, ho⟩ := Stmt.agree types s t _ _ h.1 ho hs.1 ht.1
          obtain ⟨hl, hes, hr⟩ := Stmt.agreeList types ss ts r r' h.2 ho hs.2 ht.2
          exact ⟨congrArg Nat.succ hl, by rw [Stmt.tokensList, Stmt.tokensList, he, hes], hr⟩
termination_by structural ss => ss

theorem Stmt.agreeOr (types : SameTypes vs) (missing : String) : (s t : Option Stmt) →
    (r r' : List (List String)) → Stmt.valueEqOption s t = true →
    Stmt.ordersOption s ++ r = Stmt.ordersOption t ++ r' → Fit vs (Stmt.atomsOption s) →
    Fit vs (Stmt.atomsOption t) →
    Stmt.tokensOr missing s = Stmt.tokensOr missing t ∧ r = r'
  | none, t, r, r', h, ho, hs, ht => by
      cases t with
      | none => exact ⟨rfl, ho⟩
      | some t => simp [Stmt.valueEqOption] at h
  | some s, t, r, r', h, ho, hs, ht => by
      cases t with
      | none => simp [Stmt.valueEqOption] at h
      | some t => exact Stmt.agree types s t r r' h ho hs ht
termination_by structural s => s

end

/-- The maps of buffers, of which the keys are variables. -/
theorem Buffer.agreeMap (types : SameTypes vs) {m n : OrderedMap Var Buffer}
    (h : m.equivBy Buffer.valueEq n = true) (hk : m.keys.map Var.id = n.keys.map Var.id)
    (hm : Fit vs (m.entries.flatMap fun e => .var e.1 :: e.2.atoms))
    (hn : Fit vs (n.entries.flatMap fun e => .var e.1 :: e.2.atoms)) :
    tokensOf (fun e => e.1.tokens ++ e.2.tokens) m.entries =
      tokensOf (fun e => e.1.tokens ++ e.2.tokens) n.entries := by
  simp only [fit_flatMap, fit_var_cons] at hm hn
  refine tokensOf_of_forall₂ (OrderedMap.forall₂_of_equivBy h hk) ?_
  intro d hd e he hde
  have hkey : d.1.same e.1 = true := decide_eq_true hde.1
  rw [Var.agree types hkey (hm d hd).1 (hn e he).1,
    Buffer.agree types d.2 e.2 hde.2 (hm d hd).2 (hn e he).2]

theorem PrimFunc.agree (types : SameTypes vs) {f g : PrimFunc} (h : f.valueEq g = true)
    (ho : f.SameOrders g) (hf : Fit vs f.atoms) (hg : Fit vs g.atoms) : f.tokens = g.tokens := by
  simp only [PrimFunc.valueEq, Bool.and_eq_true, decide_eq_true_eq] at h
  simp only [PrimFunc.atoms, fit_append] at hf hg
  obtain ⟨⟨⟨⟨⟨⟨-, hp⟩, hb⟩, hr⟩, hm⟩, hl⟩, ha⟩ := h
  obtain ⟨⟨⟨⟨fp, fm⟩, fl⟩, fa⟩, fb⟩ := hf
  obtain ⟨⟨⟨⟨gp, gm⟩, gl⟩, ga⟩, gb⟩ := hg
  have hp : tokensOf Var.tokens f.params = tokensOf Var.tokens g.params := by
    refine tokensOf_of_forall₂ (eqList_iff_forall₂.1 hp) fun v hv w hw hvw => ?_
    have hv : v ∈ vs := fp (.var v) (List.mem_map_of_mem hv)
    have hw : w ∈ vs := gp (.var w) (List.mem_map_of_mem hw)
    exact Var.agree types hvw hv hw
  have hb := (Stmt.agree types f.body g.body [] [] hb (by rw [ho.body]) fb gb).1
  rw [PrimFunc.tokens, PrimFunc.tokens, hp, Buffer.agreeMap types hm ho.bufferMap fm gm,
    Buffer.agreeMap types hl ho.preflattened fl gl, hr, Annotations.agree types ha ho.attrs fa ga,
    hb]

end

end TensorProgram
