import Mathlib.Data.List.GetD
import Mathlib.Data.List.Nodup
import Mathlib.Data.Set.Function
import TensorProgram.Proofs.Decoding
import TensorProgram.Proofs.Encoding

/-!
Fingerprints and renaming. Numbering the variables in the order of their first occurrences
gives two lists of tokens one list exactly if a renaming leads from one to the other. As an
outline can be read back from its tokens, functions with one fingerprint are those that are
equal up to the identities of variables and the names that outlines leave out.
-/

namespace TensorProgram

/-- The variables in a list of tokens, in the order of their occurrences. -/
def Token.varsOf (ts : List Token) : List VarId := ts.flatMap Token.vars

section

variable {σ : VarId → VarId} {seen seen' : List VarId} {i j : VarId}

theorem Token.varsOf_cons (t : Token) (ts : List Token) :
    varsOf (t :: ts) = t.vars ++ varsOf ts := rfl

theorem Token.varsOf_map (ts : List Token) :
    varsOf (ts.map (relabel σ)) = (varsOf ts).map σ := by
  induction ts with
  | nil => rfl
  | cons t ts ih =>
      have ht : (t.relabel σ).vars = t.vars.map σ := by cases t <;> rfl
      rw [List.map_cons, varsOf_cons, varsOf_cons, ht, ih, List.map_append]

theorem Token.relabel_id (t : Token) : t.relabel id = t := by cases t <;> rfl

theorem number_of_mem (h : i ∈ seen) : number seen i = (seen.idxOf i, seen) := if_pos h

theorem number_of_notMem (h : i ∉ seen) : number seen i = (seen.length, seen ++ [i]) := if_neg h

theorem mem_number {k : VarId} : k ∈ (number seen i).2 ↔ k ∈ seen ∨ k = i := by
  by_cases hi : i ∈ seen
  · rw [number_of_mem hi]
    constructor
    · exact Or.inl
    · intro hk
      obtain hk | rfl := hk
      · exact hk
      · exact hi
  · rw [number_of_notMem hi, List.mem_append, List.mem_singleton]

theorem idxOf_map (h : ∀ k ∈ seen, σ k = σ i → k = i) :
    (seen.map σ).idxOf (σ i) = seen.idxOf i := by
  induction seen with
  | nil => rfl
  | cons k l ih =>
      have ih := ih fun m hm => h m (List.mem_cons_of_mem k hm)
      by_cases hk : k = i
      · subst hk
        simp
      · have hne : σ k ≠ σ i := fun he => hk (h k List.mem_cons_self he)
        rw [List.map_cons, List.idxOf_cons_ne _ hne, List.idxOf_cons_ne _ hk, ih]

/-- A renaming does not change the numbers. -/
theorem number_map (h : Set.InjOn σ {k | k ∈ seen ∨ k = i}) :
    number (seen.map σ) (σ i) = ((number seen i).1, (number seen i).2.map σ) := by
  have hinj : ∀ k ∈ seen, σ k = σ i → k = i := fun k hk he => h (Or.inl hk) (Or.inr rfl) he
  have hmem : σ i ∈ seen.map σ ↔ i ∈ seen := by
    constructor
    · intro hi
      obtain ⟨k, hk, he⟩ := List.mem_map.1 hi
      exact hinj k hk he ▸ hk
    · exact List.mem_map_of_mem
  by_cases hi : i ∈ seen
  · rw [number_of_mem hi, number_of_mem (hmem.2 hi), idxOf_map hinj]
  · have hn : σ i ∉ seen.map σ := fun h => hi (hmem.1 h)
    rw [number_of_notMem hi, number_of_notMem hn, List.length_map, List.map_append,
      List.map_singleton]

/-- The variable at the head is among those seen in what follows. -/
theorem mem_number_or {ts : List Token} {k : VarId} :
    k ∈ (number seen i).2 ∨ k ∈ Token.varsOf ts ↔
      k ∈ seen ∨ k ∈ Token.varsOf (.var i :: ts) := by
  rw [mem_number, Token.varsOf_cons, or_assoc]
  simp [Token.vars]

theorem renumber_map {ts : List Token}
    (h : Set.InjOn σ {k | k ∈ seen ∨ k ∈ Token.varsOf ts}) :
    renumber (seen.map σ) (ts.map (Token.relabel σ)) = renumber seen ts := by
  induction ts generalizing seen with
  | nil => rfl
  | cons t ts ih =>
      cases t with
      | var i =>
          have hn := number_map (h.mono fun k hk => mem_number_or.1 (Or.inl (mem_number.2 hk)))
          have ih := ih (h.mono fun k hk => mem_number_or.1 hk)
          simp only [List.map_cons, Token.relabel, renumber, hn, ih]
      | tag _ | length _ | int _ | float _ | str _ | dtype _ =>
          simp only [List.map_cons, Token.relabel, renumber, ih h]

/-- Two lists without repetitions and of one length are renamings of each other. -/
theorem exists_map_eq (hl : seen.length = seen'.length) (hs : seen.Nodup) (hs' : seen'.Nodup) :
    ∃ σ : VarId → VarId, Set.InjOn σ {k | k ∈ seen} ∧ seen.map σ = seen' := by
  have hm : seen.map (fun k => seen'.getD (seen.idxOf k) 0) = seen' := by
    refine List.ext_getElem (by simpa using hl) fun n hn hn' => ?_
    have hn : n < seen.length := by simpa using hn
    rw [List.getElem_map, hs.idxOf_getElem n hn, List.getD_eq_getElem _ _ hn']
  refine ⟨_, ?_, hm⟩
  intro k hk m hm' he
  exact List.inj_on_of_nodup_map (hm.symm ▸ hs') hk hm' he

theorem nodup_number (hs : seen.Nodup) : (number seen i).2.Nodup := by
  by_cases hi : i ∈ seen
  · rwa [number_of_mem hi]
  · rw [number_of_notMem hi]
    exact hs.append (List.nodup_singleton i) (List.disjoint_singleton.2 hi)

/-- Variables with one number have both been seen, at one place, or neither. -/
theorem seen_of_number_eq (hl : seen.length = seen'.length)
    (h : (number seen i).1 = (number seen' j).1) :
    (i ∈ seen ∧ j ∈ seen' ∧ seen.idxOf i = seen'.idxOf j) ∨ (i ∉ seen ∧ j ∉ seen') := by
  by_cases hi : i ∈ seen
  · have hlt := List.idxOf_lt_length_of_mem hi
    rw [number_of_mem hi] at h
    by_cases hj : j ∈ seen'
    · rw [number_of_mem hj] at h
      exact Or.inl ⟨hi, hj, h⟩
    · rw [number_of_notMem hj] at h
      omega
  · rw [number_of_notMem hi] at h
    by_cases hj : j ∈ seen'
    · have hlt := List.idxOf_lt_length_of_mem hj
      rw [number_of_mem hj] at h
      omega
    · exact Or.inr ⟨hi, hj⟩

theorem length_number_eq (hl : seen.length = seen'.length)
    (h : (number seen i).1 = (number seen' j).1) :
    (number seen i).2.length = (number seen' j).2.length := by
  obtain ⟨hi, hj, -⟩ | ⟨hi, hj⟩ := seen_of_number_eq hl h
  · rwa [number_of_mem hi, number_of_mem hj]
  · rw [number_of_notMem hi, number_of_notMem hj, List.length_append, List.length_append, hl]
    rfl

/-- A renaming of the variables seen after two with one number takes one to the other. -/
theorem map_of_number_eq (hl : seen.length = seen'.length)
    (h : (number seen i).1 = (number seen' j).1)
    (hm : (number seen i).2.map σ = (number seen' j).2) : seen.map σ = seen' ∧ σ i = j := by
  obtain ⟨hi, hj, he⟩ | ⟨hi, hj⟩ := seen_of_number_eq hl h
  · rw [number_of_mem hi, number_of_mem hj] at hm
    have hlt : seen.idxOf i < (seen.map σ).length := by
      rw [List.length_map]
      exact List.idxOf_lt_length_of_mem hi
    have hlt' := List.idxOf_lt_length_of_mem hj
    have hij : σ i = j :=
      calc σ i = (seen.map σ)[seen.idxOf i] := by simp
        _ = seen'[seen'.idxOf j] := by simp only [hm, he]
        _ = j := List.getElem_idxOf hlt'
    exact ⟨hm, hij⟩
  · rw [number_of_notMem hi, number_of_notMem hj, List.map_append] at hm
    obtain ⟨hm, hij⟩ := List.append_inj hm (by rw [List.length_map, hl])
    exact ⟨hm, List.singleton_inj.1 hij⟩

/-- From the numbers of two lists of tokens a renaming can be read off. -/
theorem exists_renaming {ts us : List Token} (hl : seen.length = seen'.length)
    (hs : seen.Nodup) (hs' : seen'.Nodup) (h : renumber seen ts = renumber seen' us) :
    ∃ σ : VarId → VarId, Set.InjOn σ {k | k ∈ seen ∨ k ∈ Token.varsOf ts} ∧
      seen.map σ = seen' ∧ ts.map (Token.relabel σ) = us := by
  induction ts generalizing seen seen' us with
  | nil =>
      cases us with
      | nil =>
          obtain ⟨σ, hi, hm⟩ := exists_map_eq hl hs hs'
          exact ⟨σ, hi.mono fun k hk => hk.elim id fun hk => absurd hk List.not_mem_nil, hm, rfl⟩
      | cons u us => cases u <;> cases h
  | cons t ts ih =>
      cases us with
      | nil => cases t <;> cases h
      | cons u us =>
          cases t with
          | var i =>
              cases u with
              | var j =>
                  simp only [renumber, List.cons.injEq, Token.var.injEq] at h
                  obtain ⟨hn, h⟩ := h
                  obtain ⟨σ, hinj, hmap, hts⟩ :=
                    ih (length_number_eq hl hn) (nodup_number hs) (nodup_number hs') h
                  obtain ⟨hmap, hij⟩ := map_of_number_eq hl hn hmap
                  refine ⟨σ, hinj.mono fun k hk => mem_number_or.2 hk, hmap, ?_⟩
                  rw [List.map_cons, hts, Token.relabel, hij]
              | tag _ | length _ | int _ | float _ | str _ | dtype _ => cases h
          | tag _ | length _ | int _ | float _ | str _ | dtype _ =>
              cases u with
              | var _ => cases h
              | tag _ | length _ | int _ | float _ | str _ | dtype _ =>
                  simp only [renumber, List.cons.injEq] at h
                  obtain ⟨ht, h⟩ := h
                  obtain ⟨σ, hinj, hmap, hts⟩ := ih hl hs hs' h
                  exact ⟨σ, hinj, hmap, by rw [List.map_cons, hts, Token.relabel, ht]⟩

end

namespace PrimFunc

/-- One function is the other after a renaming, one to one, of the variables that occur. -/
def AlphaEquiv (f g : PrimFunc) : Prop :=
  ∃ σ : VarId → VarId,
    Set.BijOn σ {i | i ∈ f.vars} {i | i ∈ g.vars} ∧ f.outline σ = g.outline id

section

variable {f g : PrimFunc} {σ : VarId → VarId}

theorem map_tokens_of_outline (h : f.outline σ = g.outline id) :
    f.tokens.map (Token.relabel σ) = g.tokens := by
  have hg : g.tokens.map (Token.relabel id) = g.tokens := by
    rw [List.map_congr_left fun t _ => t.relabel_id, List.map_id']
  rw [← PrimFunc.tokens_outline, h, PrimFunc.tokens_outline, hg]

theorem outline_of_map_tokens (hf : f.body.constantsFit) (hg : g.body.constantsFit)
    (h : f.tokens.map (Token.relabel σ) = g.tokens) : f.outline σ = g.outline id := by
  refine PrimFunc.decode hf hg ?_
  rw [PrimFunc.tokens_outline, PrimFunc.tokens_outline, h,
    List.map_congr_left fun t _ => t.relabel_id, List.map_id']

theorem varsOf_tokens (f : PrimFunc) : Token.varsOf f.tokens = f.vars := f.vars_tokens

theorem map_vars_of_map_tokens (h : f.tokens.map (Token.relabel σ) = g.tokens) :
    f.vars.map σ = g.vars := by
  rw [← varsOf_tokens f, ← varsOf_tokens g, ← h, Token.varsOf_map]

theorem bijOn_vars (hi : Set.InjOn σ {i | i ∈ f.vars}) (h : f.vars.map σ = g.vars) :
    Set.BijOn σ {i | i ∈ f.vars} {i | i ∈ g.vars} := by
  rw [← h]
  refine ⟨fun i hi => List.mem_map_of_mem hi, hi, fun j hj => ?_⟩
  exact List.mem_map.1 hj

/-- Functions that are renamings of each other have one fingerprint. -/
theorem AlphaEquiv.fingerprint_eq (h : f.AlphaEquiv g) : f.fingerprint = g.fingerprint := by
  obtain ⟨σ, hb, ho⟩ := h
  have hi : Set.InjOn σ {k | k ∈ [] ∨ k ∈ Token.varsOf f.tokens} :=
    hb.injOn.mono fun k hk => by
      obtain hk | hk := hk
      · exact absurd hk List.not_mem_nil
      · exact varsOf_tokens f ▸ hk
  have hr : renumber [] (f.tokens.map (Token.relabel σ)) = renumber [] f.tokens :=
    renumber_map hi
  rw [fingerprint, fingerprint, ← hr, map_tokens_of_outline ho]

/-- A fingerprint tells functions apart that are not renamings of each other. -/
theorem AlphaEquiv.of_fingerprint_eq (hf : f.body.constantsFit) (hg : g.body.constantsFit)
    (h : f.fingerprint = g.fingerprint) : f.AlphaEquiv g := by
  have hr : renumber [] f.tokens = renumber [] g.tokens := Fingerprint.mk.inj h
  obtain ⟨σ, hi, -, ht⟩ := exists_renaming rfl List.nodup_nil List.nodup_nil hr
  have hi : Set.InjOn σ {i | i ∈ f.vars} :=
    hi.mono fun k hk => Or.inr ((varsOf_tokens f).symm ▸ hk)
  exact ⟨σ, bijOn_vars hi (map_vars_of_map_tokens ht), outline_of_map_tokens hf hg ht⟩

theorem structuralEq_iff_alphaEquiv (hf : f.body.constantsFit) (hg : g.body.constantsFit) :
    f.structuralEq g = true ↔ f.AlphaEquiv g := by
  rw [structuralEq, decide_eq_true_iff]
  constructor
  · exact AlphaEquiv.of_fingerprint_eq hf hg
  · exact AlphaEquiv.fingerprint_eq

end

/-- A function that fills `table` with constants and adds two of its variables. -/
def filled (name : String) (data : ConstantData) (table i j : VarId) : PrimFunc where
  name := some name
  params := [⟨i, name ++ "_i", .int 32, none⟩]
  body := .under (.allocateConst ⟨table, name, .handle, some (.pointer (.int 32) "global")⟩
    (.int 32) [.int32 2] data ∅) (.evaluate (.binary .add
      (.var ⟨i, "i", .int 32, none⟩) (.var ⟨j, "j", .int 32, none⟩)))
  retType := .void
  bufferMap := ∅
  preflattened := ∅
  attrs := ∅

/-- Two variables may not become one. -/
theorem structuralEq_iff_alphaEquiv_filled :
    (filled "f" (.ints [3, 4]) 0 1 2).body.constantsFit ∧
      (filled "g" (.ints [3, 4]) 9 0 1).body.constantsFit ∧
      (filled "g" (.ints [3, 4]) 9 0 0).body.constantsFit ∧
      (filled "f" (.ints [3, 4]) 0 1 2).AlphaEquiv (filled "g" (.ints [3, 4]) 9 0 1) ∧
      ¬ (filled "f" (.ints [3, 4]) 0 1 2).AlphaEquiv (filled "g" (.ints [3, 4]) 9 0 0) := by
  have hf : (filled "f" (.ints [3, 4]) 0 1 2).body.constantsFit := rfl
  have hg : (filled "g" (.ints [3, 4]) 9 0 1).body.constantsFit := rfl
  have hm : (filled "g" (.ints [3, 4]) 9 0 0).body.constantsFit := rfl
  refine ⟨hf, hg, hm, (structuralEq_iff_alphaEquiv hf hg).1 (by decide), fun h => ?_⟩
  have h := (structuralEq_iff_alphaEquiv hf hm).2 h
  exact absurd h (by decide)

/-- Constants of which their type does not tell the kind read alike when there are none. -/
example : (filled "f" (.ints []) 0 1 2).structuralEq (filled "f" (.floats []) 0 1 2) = true := by
  decide

end PrimFunc

end TensorProgram
