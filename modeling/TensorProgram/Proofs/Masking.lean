import Mathlib.Data.List.Nodup
import TensorProgram.Proofs.Encoding
import TensorProgram.World

/-!
Masks. The mask of a value under a map of identities has new identities, and no names of
variables, which can come to hold the text of an identity. In contrast to an outline it keeps
the names of buffers, since these tell buffers apart. The mask of an error is its cause, without
the details that can name a variable.
-/

namespace TensorProgram

/-- Values that mention variables. -/
class Masked (α : Type) where
  mask : (VarId → VarId) → α → α

open Masked

section

variable {α β ε : Type}

instance : Masked Unit := ⟨fun _ u => u⟩
instance : Masked Nat := ⟨fun _ n => n⟩
instance : Masked Bool := ⟨fun _ b => b⟩
instance : Masked ScopeKind := ⟨fun _ k => k⟩
instance : Masked Overflow := ⟨fun _ o => o⟩

instance [Masked α] : Masked (Option α) := ⟨fun ρ => Option.map (mask ρ)⟩
instance [Masked α] : Masked (List α) := ⟨fun ρ => List.map (mask ρ)⟩
instance [Masked α] [Masked β] : Masked (α × β) := ⟨fun ρ => Prod.map (mask ρ) (mask ρ)⟩

instance [Masked ε] [Masked α] : Masked (Except ε α) where
  mask ρ
    | .ok a => .ok (mask ρ a)
    | .error e => .error (mask ρ e)

end

instance : Masked Var := ⟨Var.outline⟩

section

variable (ρ : VarId → VarId)

mutual

def Expr.masked : Expr → Expr
  | .int v d => .int v d
  | .float v d => .float v d
  | .str s => .str s
  | .var v => .var (v.outline ρ)
  | .binary op a b => .binary op a.masked b.masked
  | .not a => .not a.masked
  | .cast d a => .cast d a.masked
  | .load b is => .load b.masked (Expr.maskedList is)
  | .call op as d => .call op (Expr.maskedList as) d
termination_by structural e => e

def Expr.maskedList : List Expr → List Expr
  | [] => []
  | e :: es => e.masked :: Expr.maskedList es
termination_by structural es => es

def Buffer.masked : Buffer → Buffer
  | ⟨data, dtype, shape, strides, offset, name, alignment, factor, kind, separators⟩ =>
      ⟨data.outline ρ, dtype, Expr.maskedList shape, Expr.maskedList strides, offset.masked, name,
        alignment, factor, kind, separators⟩
termination_by structural b => b

end

instance : Masked Expr := ⟨Expr.masked⟩
instance : Masked Buffer := ⟨Buffer.masked⟩
instance : Masked Range := ⟨fun ρ r => ⟨mask ρ r.min, mask ρ r.extent⟩⟩
instance : Masked IterVar := ⟨fun ρ v => ⟨mask ρ v.dom, mask ρ v.var, v.kind, v.tag⟩⟩

mutual

def AttrValue.masked : AttrValue → AttrValue
  | .int v => .int v
  | .float v => .float v
  | .bool v => .bool v
  | .str s => .str s
  | .expr e => .expr (e.masked ρ)
  | .array as => .array (AttrValue.maskedList as)
termination_by structural a => a

def AttrValue.maskedList : List AttrValue → List AttrValue
  | [] => []
  | a :: as => a.masked :: AttrValue.maskedList as
termination_by structural as => as

end

instance : Masked AttrValue := ⟨AttrValue.masked⟩
instance : Masked Annotations := ⟨fun ρ m => m.mapValues (mask ρ)⟩
instance : Masked Region := ⟨fun ρ r => ⟨mask ρ r.buffer, mask ρ r.ranges⟩⟩
instance : Masked MatchRegion := ⟨fun ρ m => ⟨mask ρ m.buffer, mask ρ m.source⟩⟩

instance : Masked Block where
  mask ρ b :=
    { name := b.name
      iterVars := mask ρ b.iterVars
      reads := mask ρ b.reads
      writes := mask ρ b.writes
      allocs := mask ρ b.allocs
      matched := mask ρ b.matched
      annotations := mask ρ b.annotations }

instance : Masked Realization := ⟨fun ρ r => ⟨mask ρ r.values, mask ρ r.predicate⟩⟩

instance : Masked AttrNode where
  mask ρ
    | .var v => .var (mask ρ v)
    | .iterVar v => .iterVar (mask ρ v)
    | .buffer b => .buffer (mask ρ b)
    | .str s => .str s

instance : Masked Loop where
  mask ρ l := ⟨mask ρ l.var, mask ρ l.min, mask ρ l.extent, l.kind, mask ρ l.thread,
    mask ρ l.annotations⟩

instance : Masked Head where
  mask ρ
    | .loop l => .loop (mask ρ l)
    | .whileLoop c => .whileLoop (mask ρ c)
    | .bind v e => .bind (mask ρ v) (mask ρ e)
    | .allocate v d es c m => .allocate (mask ρ v) d (mask ρ es) (mask ρ c) (mask ρ m)
    | .allocateConst v d es data m =>
        .allocateConst (mask ρ v) d (mask ρ es) data (mask ρ m)
    | .attr node key e => .attr (mask ρ node) key (mask ρ e)
    | .assert c m => .assert (mask ρ c) (mask ρ m)
    | .realize r c => .realize (mask ρ r) (mask ρ c)

instance : Masked Leaf where
  mask ρ
    | .store b e is => .store (mask ρ b) (mask ρ e) (mask ρ is)
    | .prefetch b rs => .prefetch (mask ρ b) (mask ρ rs)
    | .evaluate e => .evaluate (mask ρ e)

mutual

def Stmt.masked : Stmt → Stmt
  | .seq ss => .seq (Stmt.maskedList ss)
  | .block r b init body => .block (mask ρ r) (mask ρ b) (Stmt.maskedOption init)
      body.masked
  | .branch c s e => .branch (mask ρ c) s.masked (Stmt.maskedOption e)
  | .under h s => .under (mask ρ h) s.masked
  | .leaf l => .leaf (mask ρ l)
termination_by structural s => s

def Stmt.maskedList : List Stmt → List Stmt
  | [] => []
  | s :: ss => s.masked :: Stmt.maskedList ss
termination_by structural ss => ss

def Stmt.maskedOption : Option Stmt → Option Stmt
  | none => none
  | some s => some s.masked
termination_by structural s => s

end

instance : Masked Stmt := ⟨Stmt.masked⟩

end

/-- Entries whose keys come to be the same variable are put together. -/
instance {β : Type} [Masked β] : Masked (OrderedMap Var β) where
  mask ρ m := .ofList (mask ρ m.entries)

instance : Masked PrimFunc where
  mask ρ f :=
    { name := f.name
      params := mask ρ f.params
      body := mask ρ f.body
      retType := f.retType
      bufferMap := mask ρ f.bufferMap
      preflattened := mask ρ f.preflattened
      attrs := mask ρ f.attrs }

instance : Masked Output where
  mask ρ
    | .func f => .func (mask ρ f)
    | .stmt s => .stmt (mask ρ s)

instance : Masked ValueType := ⟨fun _ t => t⟩

instance : Masked Value where
  mask ρ
    | .unit => .unit
    | .var v => .var (mask ρ v)
    | .vars vs => .vars (mask ρ vs)
    | .buffer b => .buffer (mask ρ b)
    | .type t => .type t

instance : Masked BuildError where
  mask _
    | .argumentShape op _ => .argumentShape op ""
    | .invalidFunction _ => .invalidFunction ""
    | .unknownEnvThread _ => .unknownEnvThread ""
    | e => e

instance : Masked Failure where
  mask ρ
    | .refused e => .refused (mask ρ e)
    | .overflow o => .overflow o

section

variable {α β : Type} [Masked α] [Masked β] (ρ : VarId → VarId)

@[simp]
theorem mask_none : mask ρ (none : Option α) = none := rfl

@[simp]
theorem mask_some (a : α) : mask ρ (some a) = some (mask ρ a) := rfl

@[simp]
theorem mask_nil : mask ρ ([] : List α) = [] := rfl

@[simp]
theorem mask_cons (a : α) (as : List α) : mask ρ (a :: as) = mask ρ a :: mask ρ as := rfl

theorem mask_list (as : List α) : mask ρ as = as.map (mask ρ) := rfl

@[simp]
theorem mask_append (as bs : List α) : mask ρ (as ++ bs) = mask ρ as ++ mask ρ bs :=
  List.map_append

@[simp]
theorem length_mask (as : List α) : (mask ρ as).length = as.length := List.length_map _

@[simp]
theorem isEmpty_mask (as : List α) : (mask ρ as).isEmpty = as.isEmpty := by
  cases as <;> rfl

@[simp]
theorem isSome_mask (a : Option α) : (mask ρ a).isSome = a.isSome := by
  cases a <;> rfl

@[simp]
theorem mask_pair (a : α) (b : β) : mask ρ (a, b) = (mask ρ a, mask ρ b) := rfl

variable {ε : Type} [Masked ε]

@[simp]
theorem mask_ok (a : α) : mask ρ (Except.ok a : Except ε α) = .ok (mask ρ a) := rfl

@[simp]
theorem mask_error (e : ε) : mask ρ (Except.error e : Except ε α) = .error (mask ρ e) := rfl

end

theorem Expr.maskedList_eq (ρ : VarId → VarId) (es : List Expr) :
    Expr.maskedList ρ es = mask ρ es := by
  induction es with
  | nil => rfl
  | cons e es ih => rw [Expr.maskedList, ih, mask_cons]; rfl

theorem AttrValue.maskedList_eq (ρ : VarId → VarId) (as : List AttrValue) :
    AttrValue.maskedList ρ as = mask ρ as := by
  induction as with
  | nil => rfl
  | cons a as ih => rw [AttrValue.maskedList, ih, mask_cons]; rfl

theorem Stmt.maskedList_eq (ρ : VarId → VarId) (ss : List Stmt) :
    Stmt.maskedList ρ ss = mask ρ ss := by
  induction ss with
  | nil => rfl
  | cons s ss ih => rw [Stmt.maskedList, ih, mask_cons]; rfl

theorem Stmt.maskedOption_eq (ρ : VarId → VarId) (s : Option Stmt) :
    Stmt.maskedOption ρ s = mask ρ s := by
  cases s <;> rfl

section

variable (ρ : VarId → VarId)

@[simp]
theorem mask_expr_var (v : Var) : mask ρ (Expr.var v) = .var (mask ρ v) := rfl

@[simp]
theorem mask_binary (op : BinOp) (a b : Expr) :
    mask ρ (Expr.binary op a b) = .binary op (mask ρ a) (mask ρ b) := rfl

@[simp]
theorem mask_not (a : Expr) : mask ρ (Expr.not a) = .not (mask ρ a) := rfl

@[simp]
theorem mask_cast (d : DataType) (a : Expr) : mask ρ (Expr.cast d a) = .cast d (mask ρ a) := rfl

@[simp]
theorem mask_load (b : Buffer) (is : List Expr) :
    mask ρ (Expr.load b is) = .load (mask ρ b) (mask ρ is) :=
  congrArg (Expr.load _) (Expr.maskedList_eq ρ is)

@[simp]
theorem mask_call (op : String) (as : List Expr) (d : DataType) :
    mask ρ (Expr.call op as d) = .call op (mask ρ as) d :=
  congrArg (Expr.call op · d) (Expr.maskedList_eq ρ as)

@[simp]
theorem mask_buffer (data : Var) (dtype : DataType) (shape strides : List Expr) (offset : Expr)
    (name : String) (alignment factor : Int64) (kind : BufferKind) (separators : List Int64) :
    mask ρ (⟨data, dtype, shape, strides, offset, name, alignment, factor, kind, separators⟩ :
      Buffer) = ⟨mask ρ data, dtype, mask ρ shape, mask ρ strides, mask ρ offset, name, alignment,
        factor, kind, separators⟩ := by
  rw [← Expr.maskedList_eq, ← Expr.maskedList_eq]
  rfl

@[simp]
theorem mask_array (as : List AttrValue) :
    mask ρ (AttrValue.array as) = .array (mask ρ as) :=
  congrArg AttrValue.array (AttrValue.maskedList_eq ρ as)

@[simp]
theorem mask_seq (ss : List Stmt) : mask ρ (Stmt.seq ss) = .seq (mask ρ ss) :=
  congrArg Stmt.seq (Stmt.maskedList_eq ρ ss)

@[simp]
theorem mask_block (r : Option Realization) (b : Block) (init : Option Stmt) (body : Stmt) :
    mask ρ (Stmt.block r b init body) =
      .block (mask ρ r) (mask ρ b) (mask ρ init) (mask ρ body) := by
  rw [← Stmt.maskedOption_eq]
  rfl

@[simp]
theorem mask_branch (c : Expr) (s : Stmt) (e : Option Stmt) :
    mask ρ (Stmt.branch c s e) = .branch (mask ρ c) (mask ρ s) (mask ρ e) := by
  rw [← Stmt.maskedOption_eq]
  rfl

@[simp]
theorem mask_under (h : Head) (s : Stmt) :
    mask ρ (Stmt.under h s) = .under (mask ρ h) (mask ρ s) := rfl

@[simp]
theorem mask_leaf (l : Leaf) : mask ρ (Stmt.leaf l) = .leaf (mask ρ l) := rfl

end

/-- The map that is read off a list of entries with different keys has these entries. -/
theorem OrderedMap.entries_ofList {κ α β : Type} [Keyed α κ] [DecidableEq κ] {l : List (α × β)}
    (h : (l.map fun e => Keyed.key e.1).Nodup) : (ofList l).entries = l := by
  have hf (m : OrderedMap α β) (l : List (α × β))
      (h : ((m.entries ++ l).map fun e => Keyed.key e.1).Nodup) :
      (l.foldl (fun m e => m.insert e.1 e.2) m).entries = m.entries ++ l := by
    induction l generalizing m with
    | nil => simp
    | cons e l ih =>
        have he : Keyed.key e.1 ∉ m.entries.map fun e => Keyed.key e.1 := by
          rw [List.map_append, List.map_cons, List.nodup_append] at h
          intro hm
          exact h.2.2 _ hm _ List.mem_cons_self rfl
        have hi : (m.insert e.1 e.2).entries = m.entries ++ [e] :=
          (entries_insert m e.1 e.2).trans (put_of_notMem e.1 e.2 he)
        rw [List.foldl_cons, ih, hi, List.append_assoc, List.singleton_append]
        rwa [hi, List.append_assoc, List.singleton_append]
  exact hf ∅ l h

/-- Different variables stay so under an injective map. -/
theorem OrderedMap.entries_mask {β : Type} [Masked β] {ρ : VarId → VarId}
    (hρ : Function.Injective ρ) (m : OrderedMap Var β) :
    (mask ρ m).entries = mask ρ m.entries := by
  refine entries_ofList ?_
  have hk : (mask ρ m.entries).map (fun e => Keyed.key e.1) =
      (m.entries.map fun e => Keyed.key e.1).map ρ := by
    simp only [mask_list, List.map_map]
    rfl
  rw [hk]
  exact m.nodup.map hρ

/-- A mask can be put over another one. -/
class LawfulMasked (α : Type) [Masked α] : Prop where
  mask_mask {ρ : VarId → VarId} (hρ : Function.Injective ρ) (τ : VarId → VarId) (a : α) :
    mask τ (mask ρ a) = mask (τ ∘ ρ) a

export LawfulMasked (mask_mask)

section

variable {α β : Type} [Masked α] [Masked β] [LawfulMasked α] [LawfulMasked β]

instance : LawfulMasked (Option α) where
  mask_mask hρ τ a := by
    cases a with
    | none => rfl
    | some a => simp [mask_mask hρ]

instance : LawfulMasked (List α) where
  mask_mask hρ τ as := by
    induction as with
    | nil => rfl
    | cons a as ih => simp [mask_mask hρ, ih]

instance : LawfulMasked (α × β) where
  mask_mask hρ τ a := by
    obtain ⟨a, b⟩ := a
    simp [mask_mask hρ]

end

instance : LawfulMasked Var := ⟨fun _ _ _ => rfl⟩

section

variable {ρ : VarId → VarId} (τ : VarId → VarId)

mutual

theorem Expr.masked_masked : (e : Expr) → mask τ (mask ρ e) = mask (τ ∘ ρ) e
  | .int _ _ | .float _ _ | .str _ => rfl
  | .var v => rfl
  | .binary op a b => by simp [Expr.masked_masked a, Expr.masked_masked b]
  | .not a => by simp [Expr.masked_masked a]
  | .cast d a => by simp [Expr.masked_masked a]
  | .load b is => by simp [Buffer.masked_masked b, Expr.masked_maskedList is]
  | .call op as d => by simp [Expr.masked_maskedList as]
termination_by structural e => e

theorem Expr.masked_maskedList : (es : List Expr) → mask τ (mask ρ es) = mask (τ ∘ ρ) es
  | [] => rfl
  | e :: es => by simp [Expr.masked_masked e, Expr.masked_maskedList es]
termination_by structural es => es

theorem Buffer.masked_masked : (b : Buffer) → mask τ (mask ρ b) = mask (τ ∘ ρ) b
  | ⟨data, dtype, shape, strides, offset, name, alignment, factor, kind, separators⟩ => by
      simp [Expr.masked_maskedList shape, Expr.masked_maskedList strides, Expr.masked_masked offset]
      rfl
termination_by structural b => b

end

instance : LawfulMasked Expr := ⟨fun _ τ e => e.masked_masked τ⟩
instance : LawfulMasked Buffer := ⟨fun _ τ b => b.masked_masked τ⟩

instance : LawfulMasked Range where
  mask_mask hρ τ r := congrArg₂ Range.mk (mask_mask hρ τ r.min) (mask_mask hρ τ r.extent)

instance : LawfulMasked IterVar where
  mask_mask hρ τ v :=
    congrArg₂ (IterVar.mk · · v.kind v.tag) (mask_mask hρ τ v.dom) (mask_mask hρ τ v.var)

mutual

theorem AttrValue.masked_masked : (a : AttrValue) → mask τ (mask ρ a) = mask (τ ∘ ρ) a
  | .int _ | .float _ | .bool _ | .str _ => rfl
  | .expr e => congrArg AttrValue.expr (e.masked_masked τ)
  | .array as => by simp [AttrValue.masked_maskedList as]
termination_by structural a => a

theorem AttrValue.masked_maskedList : (as : List AttrValue) →
    mask τ (mask ρ as) = mask (τ ∘ ρ) as
  | [] => rfl
  | a :: as => by simp [AttrValue.masked_masked a, AttrValue.masked_maskedList as]
termination_by structural as => as

end

instance : LawfulMasked AttrValue := ⟨fun _ τ a => a.masked_masked τ⟩

instance : LawfulMasked Annotations where
  mask_mask hρ τ m := by
    refine OrderedMap.ext ?_
    have hm (ρ : VarId → VarId) (m : Annotations) :
        (mask ρ m).entries = m.entries.map fun e => (e.1, mask ρ e.2) := rfl
    rw [hm, hm, hm, List.map_map]
    refine List.map_congr_left fun e _ => ?_
    exact congrArg (Prod.mk e.1) (mask_mask hρ τ e.2)

instance : LawfulMasked Region where
  mask_mask hρ τ r := congrArg₂ Region.mk (mask_mask hρ τ r.buffer) (mask_mask hρ τ r.ranges)

instance : LawfulMasked MatchRegion where
  mask_mask hρ τ m :=
    congrArg₂ MatchRegion.mk (mask_mask hρ τ m.buffer) (mask_mask hρ τ m.source)

instance : LawfulMasked Block where
  mask_mask {ρ} hρ τ b := by
    have h (ρ : VarId → VarId) (b : Block) : mask ρ b = ⟨b.name, mask ρ b.iterVars, mask ρ b.reads,
      mask ρ b.writes, mask ρ b.allocs, mask ρ b.matched, mask ρ b.annotations⟩ := rfl
    simp only [h, mask_mask hρ]

instance : LawfulMasked Realization where
  mask_mask hρ τ r :=
    congrArg₂ Realization.mk (mask_mask hρ τ r.values) (mask_mask hρ τ r.predicate)

instance : LawfulMasked AttrNode where
  mask_mask hρ τ n := by
    cases n with
    | var v => exact congrArg AttrNode.var (mask_mask hρ τ v)
    | iterVar v => exact congrArg AttrNode.iterVar (mask_mask hρ τ v)
    | buffer b => exact congrArg AttrNode.buffer (mask_mask hρ τ b)
    | str s => rfl

instance : LawfulMasked Loop where
  mask_mask {ρ} hρ τ l := by
    have h (ρ : VarId → VarId) (l : Loop) : mask ρ l = ⟨mask ρ l.var, mask ρ l.min,
      mask ρ l.extent, l.kind, mask ρ l.thread, mask ρ l.annotations⟩ := rfl
    simp only [h, mask_mask hρ]

end

section

variable (ρ : VarId → VarId)

@[simp]
theorem mask_head_loop (l : Loop) : mask ρ (Head.loop l) = .loop (mask ρ l) := rfl

@[simp]
theorem mask_head_whileLoop (c : Expr) : mask ρ (Head.whileLoop c) = .whileLoop (mask ρ c) := rfl

@[simp]
theorem mask_head_bind (v : Var) (e : Expr) :
    mask ρ (Head.bind v e) = .bind (mask ρ v) (mask ρ e) := rfl

@[simp]
theorem mask_head_allocate (v : Var) (d : DataType) (es : List Expr) (c : Expr)
    (m : Annotations) : mask ρ (Head.allocate v d es c m) =
      .allocate (mask ρ v) d (mask ρ es) (mask ρ c) (mask ρ m) := rfl

@[simp]
theorem mask_head_allocateConst (v : Var) (d : DataType) (es : List Expr) (data : ConstantData)
    (m : Annotations) : mask ρ (Head.allocateConst v d es data m) =
      .allocateConst (mask ρ v) d (mask ρ es) data (mask ρ m) := rfl

@[simp]
theorem mask_head_attr (n : AttrNode) (key : String) (e : Expr) :
    mask ρ (Head.attr n key e) = .attr (mask ρ n) key (mask ρ e) := rfl

@[simp]
theorem mask_head_assert (c m : Expr) :
    mask ρ (Head.assert c m) = .assert (mask ρ c) (mask ρ m) := rfl

@[simp]
theorem mask_head_realize (r : Region) (c : Expr) :
    mask ρ (Head.realize r c) = .realize (mask ρ r) (mask ρ c) := rfl

@[simp]
theorem mask_store (b : Buffer) (e : Expr) (is : List Expr) :
    mask ρ (Leaf.store b e is) = .store (mask ρ b) (mask ρ e) (mask ρ is) := rfl

@[simp]
theorem mask_prefetch (b : Buffer) (rs : List Range) :
    mask ρ (Leaf.prefetch b rs) = .prefetch (mask ρ b) (mask ρ rs) := rfl

@[simp]
theorem mask_evaluate (e : Expr) : mask ρ (Leaf.evaluate e) = .evaluate (mask ρ e) := rfl

end

instance : LawfulMasked Head where
  mask_mask hρ τ h := by
    cases h <;> simp [mask_mask hρ]

instance : LawfulMasked Leaf where
  mask_mask hρ τ l := by
    cases l <;> simp [mask_mask hρ]

section

variable {ρ : VarId → VarId} (τ : VarId → VarId)

mutual

theorem Stmt.masked_masked (hρ : Function.Injective ρ) :
    (s : Stmt) → mask τ (mask ρ s) = mask (τ ∘ ρ) s
  | .seq ss => by simp [Stmt.masked_maskedList hρ ss]
  | .block r b init body => by
      simp [mask_mask hρ, Stmt.masked_maskedOption hρ init, Stmt.masked_masked hρ body]
  | .branch c s e => by
      simp [mask_mask hρ, Stmt.masked_masked hρ s, Stmt.masked_maskedOption hρ e]
  | .under h s => by simp [mask_mask hρ, Stmt.masked_masked hρ s]
  | .leaf l => by simp [mask_mask hρ]
termination_by structural s => s

theorem Stmt.masked_maskedList (hρ : Function.Injective ρ) :
    (ss : List Stmt) → mask τ (mask ρ ss) = mask (τ ∘ ρ) ss
  | [] => rfl
  | s :: ss => by simp [Stmt.masked_masked hρ s, Stmt.masked_maskedList hρ ss]
termination_by structural ss => ss

theorem Stmt.masked_maskedOption (hρ : Function.Injective ρ) :
    (s : Option Stmt) → mask τ (mask ρ s) = mask (τ ∘ ρ) s
  | none => rfl
  | some s => congrArg some (Stmt.masked_masked hρ s)
termination_by structural s => s

end

end

instance : LawfulMasked Stmt := ⟨fun hρ τ s => s.masked_masked τ hρ⟩

instance {β : Type} [Masked β] [LawfulMasked β] : LawfulMasked (OrderedMap Var β) where
  mask_mask {ρ} hρ τ m := by
    have h (τ : VarId → VarId) (m : OrderedMap Var β) :
        mask τ m = .ofList (mask τ m.entries) := rfl
    rw [h τ (mask ρ m), h (τ ∘ ρ) m, OrderedMap.entries_mask hρ, mask_mask hρ]

instance : LawfulMasked PrimFunc where
  mask_mask {ρ} hρ τ f := by
    have h (ρ : VarId → VarId) (f : PrimFunc) : mask ρ f = ⟨f.name, mask ρ f.params,
      mask ρ f.body, f.retType, mask ρ f.bufferMap, mask ρ f.preflattened, mask ρ f.attrs⟩ := rfl
    simp only [h, mask_mask hρ]

instance : LawfulMasked Output where
  mask_mask hρ τ out := by
    cases out with
    | func f => exact congrArg Output.func (mask_mask hρ τ f)
    | stmt s => exact congrArg Output.stmt (mask_mask hρ τ s)

instance : LawfulMasked ValueType := ⟨fun _ _ _ => rfl⟩

instance : LawfulMasked Value where
  mask_mask hρ τ v := by
    cases v with
    | unit | type t => rfl
    | var v => exact congrArg Value.var (mask_mask hρ τ v)
    | vars vs => exact congrArg Value.vars (mask_mask hρ τ vs)
    | buffer b => exact congrArg Value.buffer (mask_mask hρ τ b)

instance : LawfulMasked Failure where
  mask_mask _ _ f := by
    cases f with
    | refused e => cases e <;> rfl
    | overflow o => rfl

/-! The outline of a mask is an outline. -/

section

variable (τ ρ : VarId → VarId)

mutual

theorem Expr.outline_mask : (e : Expr) → (mask ρ e).outline τ = e.outline (τ ∘ ρ)
  | .int _ _ | .float _ _ | .str _ => rfl
  | .var v => rfl
  | .binary op a b => by simp [Expr.outline, Expr.outline_mask a, Expr.outline_mask b]
  | .not a => by simp [Expr.outline, Expr.outline_mask a]
  | .cast d a => by simp [Expr.outline, Expr.outline_mask a]
  | .load b is => by simp [Expr.outline, Buffer.outline_mask b, Expr.outlineList_mask is]
  | .call op as d => by simp [Expr.outline, Expr.outlineList_mask as]
termination_by structural e => e

theorem Expr.outlineList_mask : (es : List Expr) →
    Expr.outlineList τ (mask ρ es) = Expr.outlineList (τ ∘ ρ) es
  | [] => rfl
  | e :: es => by simp [Expr.outlineList, Expr.outline_mask e, Expr.outlineList_mask es]
termination_by structural es => es

theorem Buffer.outline_mask : (b : Buffer) → (mask ρ b).outline τ = b.outline (τ ∘ ρ)
  | ⟨data, dtype, shape, strides, offset, name, alignment, factor, kind, separators⟩ => by
      simp [Buffer.outline, Expr.outlineList_mask shape, Expr.outlineList_mask strides,
        Expr.outline_mask offset]
      rfl
termination_by structural b => b

end

theorem Var.outline_mask (v : Var) : (mask ρ v).outline τ = v.outline (τ ∘ ρ) := rfl

section

variable {α β : Type} [Masked α] {f : (VarId → VarId) → α → β}

theorem map_mask (h : ∀ a, f τ (mask ρ a) = f (τ ∘ ρ) a) (as : List α) :
    (mask ρ as).map (f τ) = as.map (f (τ ∘ ρ)) := by
  simp [mask_list, h]

theorem Option.map_mask (h : ∀ a, f τ (mask ρ a) = f (τ ∘ ρ) a) (a : Option α) :
    (mask ρ a).map (f τ) = a.map (f (τ ∘ ρ)) := by
  cases a with
  | none => rfl
  | some a => exact congrArg some (h a)

end

theorem Range.outline_mask (r : Range) : (mask ρ r).outline τ = r.outline (τ ∘ ρ) :=
  congrArg₂ Range.mk (r.min.outline_mask τ ρ) (r.extent.outline_mask τ ρ)

theorem IterVar.outline_mask (v : IterVar) : (mask ρ v).outline τ = v.outline (τ ∘ ρ) :=
  congrArg (IterVar.mk · _ v.kind v.tag) (Option.map_mask τ ρ (Range.outline_mask τ ρ) v.dom)

mutual

theorem AttrValue.outline_mask : (a : AttrValue) → (mask ρ a).outline τ = a.outline (τ ∘ ρ)
  | .int _ | .float _ | .bool _ | .str _ => rfl
  | .expr e => congrArg AttrValue.expr (e.outline_mask τ ρ)
  | .array as => by simp [AttrValue.outline, AttrValue.outlineList_mask as]
termination_by structural a => a

theorem AttrValue.outlineList_mask : (as : List AttrValue) →
    AttrValue.outlineList τ (mask ρ as) = AttrValue.outlineList (τ ∘ ρ) as
  | [] => rfl
  | a :: as => by
      simp [AttrValue.outlineList, AttrValue.outline_mask a, AttrValue.outlineList_mask as]
termination_by structural as => as

end

theorem Annotations.outline_mask (m : Annotations) :
    Annotations.outline τ (mask ρ m) = Annotations.outline (τ ∘ ρ) m := by
  refine OrderedMap.ext ?_
  have hm : (mask ρ m).entries = m.entries.map fun e => (e.1, mask ρ e.2) := rfl
  simp [outline, OrderedMap.mapValues, hm, AttrValue.outline_mask, Function.comp_def]

theorem Region.outline_mask (r : Region) : (mask ρ r).outline τ = r.outline (τ ∘ ρ) :=
  congrArg₂ Region.mk (r.buffer.outline_mask τ ρ) (map_mask τ ρ (Range.outline_mask τ ρ) r.ranges)

theorem MatchRegion.outline_mask (m : MatchRegion) :
    (mask ρ m).outline τ = m.outline (τ ∘ ρ) :=
  congrArg₂ MatchRegion.mk (m.buffer.outline_mask τ ρ) (m.source.outline_mask τ ρ)

theorem Block.outline_mask (b : Block) : (mask ρ b).outline τ = b.outline (τ ∘ ρ) := by
  have hb : mask ρ b = ⟨b.name, mask ρ b.iterVars, mask ρ b.reads, mask ρ b.writes,
    mask ρ b.allocs, mask ρ b.matched, mask ρ b.annotations⟩ := rfl
  simp only [hb, outline, map_mask τ ρ (IterVar.outline_mask τ ρ),
    map_mask τ ρ (Region.outline_mask τ ρ), map_mask τ ρ (Buffer.outline_mask τ ρ),
    map_mask τ ρ (MatchRegion.outline_mask τ ρ), Annotations.outline_mask]

theorem Realization.outline_mask (r : Realization) :
    (mask ρ r).outline τ = r.outline (τ ∘ ρ) :=
  congrArg₂ Realization.mk (map_mask τ ρ (Expr.outline_mask τ ρ) r.values)
    (r.predicate.outline_mask τ ρ)

theorem AttrNode.outline_mask (n : AttrNode) : (mask ρ n).outline τ = n.outline (τ ∘ ρ) := by
  cases n with
  | var v => rfl
  | iterVar v => exact congrArg AttrNode.iterVar (v.outline_mask τ ρ)
  | buffer b => exact congrArg AttrNode.buffer (b.outline_mask τ ρ)
  | str s => rfl

theorem Head.outline_mask (h : Head) : (mask ρ h).outline τ = h.outline (τ ∘ ρ) := by
  have hl (l : Loop) : mask ρ l = ⟨mask ρ l.var, mask ρ l.min, mask ρ l.extent, l.kind,
    mask ρ l.thread, mask ρ l.annotations⟩ := rfl
  cases h <;>
    simp only [outline, mask_head_loop, mask_head_whileLoop, mask_head_bind, mask_head_allocate,
      mask_head_allocateConst, mask_head_attr, mask_head_assert, mask_head_realize, hl,
      Var.outline_mask, Expr.outline_mask, map_mask τ ρ (Expr.outline_mask τ ρ),
      Option.map_mask τ ρ (IterVar.outline_mask τ ρ), Annotations.outline_mask,
      AttrNode.outline_mask, Region.outline_mask]

theorem Leaf.outline_mask (l : Leaf) : (mask ρ l).outline τ = l.outline (τ ∘ ρ) := by
  cases l <;>
    simp only [outline, mask_store, mask_prefetch, mask_evaluate, Buffer.outline_mask,
      Expr.outline_mask, map_mask τ ρ (Expr.outline_mask τ ρ),
      map_mask τ ρ (Range.outline_mask τ ρ)]

mutual

theorem Stmt.outline_mask : (s : Stmt) → (mask ρ s).outline τ = s.outline (τ ∘ ρ)
  | .seq ss => by simp [Stmt.outline, Stmt.outlineList_mask ss]
  | .block r b init body => by
      simp [Stmt.outline, Option.map_mask τ ρ (Realization.outline_mask τ ρ), Block.outline_mask,
        Stmt.outlineOption_mask init, Stmt.outline_mask body]
  | .branch c s e => by
      simp [Stmt.outline, Expr.outline_mask, Stmt.outline_mask s, Stmt.outlineOption_mask e]
  | .under h s => by simp [Stmt.outline, Head.outline_mask, Stmt.outline_mask s]
  | .leaf l => by simp [Stmt.outline, Leaf.outline_mask]
termination_by structural s => s

theorem Stmt.outlineList_mask : (ss : List Stmt) →
    Stmt.outlineList τ (mask ρ ss) = Stmt.outlineList (τ ∘ ρ) ss
  | [] => rfl
  | s :: ss => by simp [Stmt.outlineList, Stmt.outline_mask s, Stmt.outlineList_mask ss]
termination_by structural ss => ss

theorem Stmt.outlineOption_mask : (s : Option Stmt) →
    Stmt.outlineOption τ (mask ρ s) = Stmt.outlineOption (τ ∘ ρ) s
  | none => rfl
  | some s => congrArg some (Stmt.outline_mask s)
termination_by structural s => s

end

end

theorem PrimFunc.outline_mask {ρ : VarId → VarId} (hρ : Function.Injective ρ)
    (τ : VarId → VarId) (f : PrimFunc) : (mask ρ f).outline τ = f.outline (τ ∘ ρ) := by
  have hf : mask ρ f = ⟨f.name, mask ρ f.params, mask ρ f.body, f.retType, mask ρ f.bufferMap,
    mask ρ f.preflattened, mask ρ f.attrs⟩ := rfl
  have he (m : OrderedMap Var Buffer) :
      (mask ρ m).entries.map (fun e => (e.1.outline τ, e.2.outline τ)) =
        m.entries.map fun e => (e.1.outline (τ ∘ ρ), e.2.outline (τ ∘ ρ)) := by
    rw [OrderedMap.entries_mask hρ]
    refine map_mask τ ρ (f := fun τ (e : Var × Buffer) => (e.1.outline τ, e.2.outline τ)) ?_ _
    exact fun e => congrArg (Prod.mk _) (e.2.outline_mask τ ρ)
  rw [hf]
  simp only [outline, he, map_mask τ ρ (Var.outline_mask τ ρ), Annotations.outline_mask,
    Stmt.outline_mask]

end TensorProgram
