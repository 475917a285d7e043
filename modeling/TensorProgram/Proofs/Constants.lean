import Mathlib.Algebra.BigOperators.Group.List.Basic
import Mathlib.Algebra.Order.BigOperators.GroupWithZero.List
import Mathlib.Algebra.Order.Ring.Int
import TensorProgram.Proofs.History
import TensorProgram.Proofs.WellFormed

/-!
Constants. The extents of an array of constants are multiplied from the first to the last, and no
product on the way may leave the words. Where no extent is zero that asks nothing beyond the count
of the values; a zero at the end comes too late for the extents before it.
-/

namespace TensorProgram

/-- No product of the first extents exceeds the words. -/
def Countable (dims : List Int64) : Prop :=
  ∀ ds, ds <+: dims → (ds.map Int64.toInt).prod ≤ Int64.maxValue.toInt

theorem word?_isSome {n : Int} (h : 0 ≤ n) (hn : n ≤ Int64.maxValue.toInt) :
    ∃ w, word? n = some w := by
  have hmin : Int64.minValue.toInt ≤ n := Int.le_trans (by decide) h
  exact ⟨Int64.ofInt n, if_pos ⟨hmin, hn⟩⟩

namespace ConstantData

/-- The product is made if no extent is negative and no part of it exceeds the words. -/
theorem sizeFrom_ok_of_fits {size : Int64} {ds : List Int64} (hs : 0 ≤ size.toInt)
    (hds : ∀ d ∈ ds, 0 ≤ d.toInt)
    (fits : ∀ pre, pre <+: ds →
      size.toInt * (pre.map Int64.toInt).prod ≤ Int64.maxValue.toInt) :
    ∃ n, sizeFrom size ds = .ok n := by
  induction ds generalizing size with
  | nil => exact ⟨size, rfl⟩
  | cons d ds ih =>
      obtain ⟨hd, hds⟩ := List.forall_mem_cons.1 hds
      have hmul : 0 ≤ size.toInt * d.toInt := Int.mul_nonneg hs hd
      have hle : size.toInt * d.toInt ≤ Int64.maxValue.toInt := by
        simpa using fits [d] (by simp)
      obtain ⟨size', hm⟩ := word?_isSome hmul hle
      have hsize : size'.toInt = size.toInt * d.toInt := word?_eq_some_iff.1 hm
      rw [sizeFrom, if_neg (Int.not_lt.2 hd), mulExact?, hm]
      refine ih (hsize ▸ hmul) hds fun pre hpre => ?_
      have := fits (d :: pre) (List.cons_prefix_cons.2 ⟨rfl, hpre⟩)
      rwa [List.map_cons, List.prod_cons, ← Int.mul_assoc, ← hsize] at this

/-- No part of a product that has been made exceeds the words. -/
theorem fits_of_sizeFrom_ok {size n : Int64} {ds : List Int64} (h : sizeFrom size ds = .ok n) :
    ∀ pre, pre <+: ds → size.toInt * (pre.map Int64.toInt).prod ≤ Int64.maxValue.toInt := by
  induction ds generalizing size with
  | nil =>
      intro pre hpre
      rw [List.prefix_nil.1 hpre]
      simpa using Int64.toInt_le size
  | cons d ds ih =>
      intro pre hpre
      cases pre with
      | nil => simpa using Int64.toInt_le size
      | cons e pre =>
          obtain ⟨rfl, htail⟩ := List.cons_prefix_cons.1 hpre
          rw [sizeFrom] at h
          split at h
          · cases h
          · cases hm : mulExact? size e with
            | none => simp [hm] at h
            | some size' =>
                rw [hm] at h
                have hle := ih h pre htail
                rwa [mulExact?_eq_some_iff.1 hm, Int.mul_assoc, ← List.prod_cons,
                  ← List.map_cons] at hle

/-- The product of extents is made if it is there to be made, one factor after the other. -/
theorem sizeFrom_one_ok_iff {n : Int64} {dims : List Int64} :
    sizeFrom 1 dims = .ok n ↔
      (∀ d ∈ dims, 0 ≤ d.toInt) ∧ (dims.map Int64.toInt).prod = n.toInt ∧ Countable dims := by
  have one : (1 : Int64).toInt = 1 := by decide
  have one_nonneg : 0 ≤ (1 : Int64).toInt := by decide
  constructor
  · intro h
    obtain ⟨hds, hn⟩ := sizeFrom_eq_ok h
    refine ⟨hds, ?_, fun pre hpre => ?_⟩
    · rw [hn, one, Int.one_mul]
    · simpa [one] using fits_of_sizeFrom_ok h pre hpre
  · rintro ⟨hds, hn, hc⟩
    obtain ⟨m, hm⟩ := sizeFrom_ok_of_fits one_nonneg hds fun pre hpre => by
      simpa [one] using hc pre hpre
    obtain ⟨-, hprod⟩ := sizeFrom_eq_ok hm
    rw [one, Int.one_mul, hn] at hprod
    rw [hm, Int64.toInt_inj.1 hprod]

variable {data : ConstantData} {dtype : DataType} {extents : List Expr}

theorem checkCount_ok_iff {dims : List Int64} (hd : extents.mapM Expr.asInt? = some dims) :
    data.checkCount extents = .ok () ↔
      (∀ d ∈ dims, 0 ≤ d.toInt) ∧ (dims.map Int64.toInt).prod = data.length ∧ Countable dims := by
  rw [checkCount, hd]
  constructor
  · intro h
    cases hz : sizeFrom 1 dims with
    | error e => simp [hz] at h
    | ok n =>
        simp only [hz, ok_bind] at h
        obtain ⟨hds, hn, hc⟩ := sizeFrom_one_ok_iff.1 hz
        split at h
        · rename_i hl
          exact ⟨hds, hn.trans hl, hc⟩
        · cases h
  · rintro ⟨hds, hl, hc⟩
    have hfits : (dims.map Int64.toInt).prod ≤ Int64.maxValue.toInt := hc dims (List.prefix_refl _)
    obtain ⟨n, hn⟩ := word?_isSome (Int.natCast_nonneg data.length) (hl ▸ hfits)
    have hsize : n.toInt = data.length := word?_eq_some_iff.1 hn
    have hz : sizeFrom 1 dims = .ok n := sizeFrom_one_ok_iff.2 ⟨hds, hl.trans hsize.symm, hc⟩
    simp [hz, hsize]

/-- What is checked beyond the values being of the right kind and number is that their number
can be computed from the first extent to the last. -/
theorem check_ok_iff : data.check dtype extents = .ok () ↔
    data.Fills dtype extents ∧ ∀ dims, extents.mapM Expr.asInt? = some dims → Countable dims := by
  constructor
  · intro h
    refine ⟨fills_of_check h, fun dims hd => ?_⟩
    cases hc : data.checkCount extents with
    | error e => simp [check, hc] at h
    | ok u => exact ((checkCount_ok_iff hd).1 hc).2.2
  · rintro ⟨⟨hf, hd⟩, hc⟩
    have hcount : data.checkCount extents = .ok () := by
      cases hm : extents.mapM Expr.asInt? with
      | none => simp [checkCount, hm]
      | some dims =>
          obtain ⟨hds, hl⟩ := hd dims hm
          exact (checkCount_ok_iff hm).2 ⟨hds, hl, hc dims hm⟩
    simp [check, hcount, hf]

/-- Extents of which none is negative are refused for their size alone. -/
theorem sizeFrom_eq_error {size : Int64} {ds : List Int64} {e : BuildError}
    (hds : ∀ d ∈ ds, 0 ≤ d.toInt) (h : sizeFrom size ds = .error e) : e = .extentsTooLarge := by
  induction ds generalizing size with
  | nil => cases h
  | cons d ds ih =>
      obtain ⟨hd, hds⟩ := List.forall_mem_cons.1 hds
      rw [sizeFrom, if_neg (Int.not_lt.2 hd)] at h
      cases hm : mulExact? size d with
      | none => simpa [hm, eq_comm] using h
      | some size' =>
          rw [hm] at h
          exact ih hds h

theorem check_eq_error {dims : List Int64} (hf : data.Fills dtype extents)
    (hd : extents.mapM Expr.asInt? = some dims) (hc : ¬Countable dims) :
    data.check dtype extents = .error .extentsTooLarge := by
  obtain ⟨hds, hl⟩ := hf.2 dims hd
  cases hz : sizeFrom 1 dims with
  | ok n => exact absurd (sizeFrom_one_ok_iff.1 hz).2.2 hc
  | error e => simp [check, checkCount, hd, hz, sizeFrom_eq_error hds hz]

end ConstantData

/-- Without a zero the whole product is the largest on the way to it. -/
theorem countable_of_ne_zero {dims : List Int64} (hds : ∀ d ∈ dims, 0 ≤ d.toInt)
    (hz : 0 ∉ dims) (h : (dims.map Int64.toInt).prod ≤ Int64.maxValue.toInt) :
    Countable dims := by
  have hpos : ∀ d ∈ dims, 1 ≤ d.toInt := by
    intro d hd
    have hne : d.toInt ≠ (0 : Int64).toInt := fun h0 => hz (Int64.toInt_inj.1 h0 ▸ hd)
    rw [show (0 : Int64).toInt = 0 from rfl] at hne
    have := hds d hd
    omega
  have one_le {ds : List Int64} (hsub : ds ⊆ dims) : 1 ≤ (ds.map Int64.toInt).prod :=
    List.one_le_prod (List.forall_mem_map.2 fun d hd => hpos d (hsub hd))
  rintro pre ⟨post, rfl⟩
  have hpre := one_le (List.subset_append_left pre post)
  have hpost := one_le (List.subset_append_right pre post)
  rw [List.map_append, List.prod_append] at h
  exact Int.le_trans (le_mul_of_one_le_right (by omega) hpost) h

theorem mapM_perm {α β : Type} {f : α → Option β} {as as' : List α} (h : as.Perm as') :
    ∀ {bs}, as.mapM f = some bs → ∃ bs', as'.mapM f = some bs' ∧ bs.Perm bs' := by
  induction h with
  | nil => exact fun hb => ⟨_, hb, .refl _⟩
  | cons a h ih =>
      intro bs hb
      simp only [List.mapM_cons, Option.bind_eq_bind, Option.bind_eq_some_iff, Option.pure_def,
        Option.some.injEq] at hb ⊢
      obtain ⟨b, ha, cs, hcs, rfl⟩ := hb
      obtain ⟨cs', hcs', hp⟩ := ih hcs
      exact ⟨b :: cs', ⟨b, ha, cs', hcs', rfl⟩, hp.cons b⟩
  | swap a a' as =>
      intro bs hb
      simp only [List.mapM_cons, Option.bind_eq_bind, Option.bind_eq_some_iff, Option.pure_def,
        Option.some.injEq] at hb ⊢
      obtain ⟨b', ha', _, ⟨b, ha, cs, hcs, rfl⟩, rfl⟩ := hb
      exact ⟨b :: b' :: cs, ⟨b, ha, _, ⟨b', ha', cs, hcs, rfl⟩, rfl⟩, .swap b b' cs⟩
  | trans _ _ ih ih' =>
      intro bs hb
      obtain ⟨bs', hb', hp⟩ := ih hb
      obtain ⟨bs'', hb'', hp'⟩ := ih' hb'
      exact ⟨bs'', hb'', hp.trans hp'⟩

theorem ConstantData.Fills.of_dims {data : ConstantData} {dtype : DataType} {es : List Expr}
    {dims : List Int64} (hd : es.mapM Expr.asInt? = some dims) (kind : data.fits dtype)
    (signs : dims.all fun d => 0 ≤ d.toInt) (count : (dims.map Int64.toInt).prod = data.length) :
    data.Fills dtype es := by
  refine ⟨kind, fun dims' hd' => ?_⟩
  obtain rfl := Option.some.inj (hd.symm.trans hd')
  exact ⟨by simpa using signs, count⟩

/-- The order of the extents has no part in how many elements there are. -/
theorem ConstantData.Fills.perm {data : ConstantData} {dtype : DataType} {es es' : List Expr}
    (h : data.Fills dtype es) (hp : es.Perm es') : data.Fills dtype es' := by
  refine ⟨h.1, fun dims hd => ?_⟩
  obtain ⟨dims', hd', hperm⟩ := mapM_perm hp.symm hd
  obtain ⟨hds, hl⟩ := h.2 dims' hd'
  exact ⟨fun d hm => hds d (hperm.subset hm), ((hperm.map _).prod_eq).trans hl⟩

namespace Opening

/-- An array of constants has a buffer whenever its values have passed the check. -/
theorem scope_allocateConst_ok_iff {data : ConstantData} {dtype : DataType} {extents : List Expr}
    {annotations : Option Annotations} {b : Builder} {s : Supply} :
    (∃ x, (allocateConst data dtype extents annotations).scope b s = .ok x) ↔
      data.check dtype extents = .ok () := by
  constructor
  · rintro ⟨x, h⟩
    simp only [Opening.scope, Attempt.bind_eq_ok, Attempt.check_eq_ok] at h
    obtain ⟨_, _, ⟨hc, -⟩, -⟩ := h
    exact hc
  · intro h
    simp only [Opening.scope, Attempt.bind_apply, Attempt.check_apply, h]
    exact ⟨_, rfl⟩

theorem scope_allocateConst_refused {data : ConstantData} {dtype : DataType} {extents : List Expr}
    {e : BuildError} (h : data.check dtype extents = .error e) (annotations : Option Annotations)
    (b : Builder) (s : Supply) :
    (allocateConst data dtype extents annotations).scope b s = .error (.refused e) := by
  simp only [Opening.scope, Attempt.bind_apply, Attempt.check_apply, h]

end Opening

namespace World

variable {w : World} {t : ThreadId} {id : SessionId}

/-- A live session takes an array of constants if the values fill it and can be counted from the
first extent to the last. What fills it is refused otherwise. Where no extent is zero nothing is
refused that fills it, and the order of the extents has no part in that. -/
theorem constants_accepted_iff (live : w.live t = some id) (data : ConstantData)
    (dtype : DataType) (annotations : Option Annotations) :
    let attempt (extents : List Expr) :=
      w.openScope t (.allocateConst data dtype extents annotations)
    let accepts (extents : List Expr) := ∃ r, (attempt extents).1 = .ok r
    (∀ extents, accepts extents ↔ data.Fills dtype extents ∧
      ∀ dims, extents.mapM Expr.asInt? = some dims → Countable dims) ∧
    (∀ extents dims, data.Fills dtype extents → extents.mapM Expr.asInt? = some dims →
      ¬Countable dims → attempt extents = (.error (.refused .extentsTooLarge),
        { w with builder := update w.builder id ((w.builder id).record .extentsTooLarge) })) ∧
    (data.length ≤ Int64.maxValue.toInt → ∀ extents,
      (∀ dims, extents.mapM Expr.asInt? = some dims → 0 ∉ dims) →
        (accepts extents ↔ data.Fills dtype extents) ∧
        ∀ extents', extents.Perm extents' → (accepts extents' ↔ accepts extents)) := by
  intro attempt accepts
  have accepts_iff (extents : List Expr) : accepts extents ↔ data.Fills dtype extents ∧
      ∀ dims, extents.mapM Expr.asInt? = some dims → Countable dims := by
    rw [← ConstantData.check_ok_iff, ← Opening.scope_allocateConst_ok_iff]
    exact openScope_ok_iff live _
  have accepts_fills (hl : data.length ≤ Int64.maxValue.toInt) (extents : List Expr)
      (hz : ∀ dims, extents.mapM Expr.asInt? = some dims → 0 ∉ dims) :
      accepts extents ↔ data.Fills dtype extents := by
    rw [accepts_iff, and_iff_left_iff_imp]
    intro hf dims hd
    obtain ⟨hds, hn⟩ := hf.2 dims hd
    exact countable_of_ne_zero hds (hz dims hd) (hn ▸ hl)
  refine ⟨accepts_iff, ?_, fun hl extents hz => ⟨accepts_fills hl extents hz, ?_⟩⟩
  · intro extents dims hf hd hc
    exact openScope_refused live
      (Opening.scope_allocateConst_refused (ConstantData.check_eq_error hf hd hc) annotations _ _)
  · intro extents' hp
    have hz' : ∀ dims, extents'.mapM Expr.asInt? = some dims → 0 ∉ dims := by
      intro dims hd h0
      obtain ⟨dims', hd', hperm⟩ := mapM_perm hp.symm hd
      exact hz dims' hd' (hperm.subset h0)
    rw [accepts_fills hl extents hz, accepts_fills hl extents' hz']
    exact ⟨fun h => h.perm hp.symm, fun h => h.perm hp⟩

/-- Three values in an array of one by three, in a session that has just been entered. -/
theorem constants_accepted_iff_row :
    let w := (World.start .counting).enter 0 {} |>.2
    let row : List Expr := [.int32 1, .int32 3]
    w.live 0 = some 0 ∧ (ConstantData.ints [1, 2, 3]).Fills (.int 32) row ∧
      ∃ r, (w.openScope 0 (.allocateConst (.ints [1, 2, 3]) (.int 32) row none)).1 = .ok r := by
  intro w row
  have live : w.live 0 = some 0 := rfl
  have dims_eq : row.mapM Expr.asInt? = some [1, 3] := rfl
  have fills : (ConstantData.ints [1, 2, 3]).Fills (.int 32) row :=
    .of_dims dims_eq rfl (by decide) (by decide)
  refine ⟨live, fills, ?_⟩
  obtain ⟨-, -, zeroFree⟩ := constants_accepted_iff live (.ints [1, 2, 3]) (.int 32) none
  refine (zeroFree (by decide) row fun dims hd => ?_).1.2 fills
  obtain rfl := Option.some.inj (dims_eq.symm.trans hd)
  decide

/-- No values fill an array with a zero among its extents, whatever its place. A session takes it
if the zero comes first, and refuses it if it comes last. -/
theorem constants_refused_in_order :
    let w := (World.start .counting).enter 0 {} |>.2
    let large : Expr := .int 4611686018427387904 (.int 64)
    let attempt (extents : List Expr) :=
      (w.openScope 0 (.allocateConst (.ints []) (.int 32) extents none)).1
    (∀ extents ∈ [[.int32 0, large, .int32 4], [large, .int32 4, .int32 0]],
      (ConstantData.ints []).Fills (.int 32) extents) ∧
    (∃ r, attempt [.int32 0, large, .int32 4] = .ok r) ∧
    attempt [large, .int32 4, .int32 0] = .error (.refused .extentsTooLarge) := by
  intro w large attempt
  refine ⟨?_, ⟨_, rfl⟩, rfl⟩
  simp only [List.forall_mem_cons, List.not_mem_nil, false_implies, implies_true, and_true]
  have first : [.int32 0, large, .int32 4].mapM Expr.asInt? = some [0, 4611686018427387904, 4] :=
    rfl
  have last : [large, .int32 4, .int32 0].mapM Expr.asInt? = some [4611686018427387904, 4, 0] :=
    rfl
  exact ⟨.of_dims first rfl (by decide) (by decide), .of_dims last rfl (by decide) (by decide)⟩

end World

end TensorProgram
