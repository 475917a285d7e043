import TensorProgram.Proofs.Interface
import TensorProgram.Proofs.Interleaving

/-!
Handles. A buffer that is an argument lies behind a handle minted for it. A variable that the
program made up itself may turn out to be that handle; then the buffer takes the place of the one
that lay behind the variable. In no other way does a buffer lose its place.
-/

namespace TensorProgram

namespace Event

/-- The identity of the parameter that the event puts a buffer behind. -/
def keyed? : Event → Option VarId
  | .called s (.argBuffer _ _) _ => some s.take.1
  | .called _ (.matchBuffer (.param v) _ _ _) _ => some v.id
  | _ => none

/-- The handle that the event makes for an argument. -/
def handle? : Event → Option VarId
  | .called s (.argBuffer _ _) _ => some s.take.1
  | _ => none

/-- The buffer that the event declares in the scope that is the innermost one after it. -/
def declared? : Event → Option Buffer
  | .opened _ (.allocate _ _ _ _ _) (.buffer x) => some x
  | .opened _ (.allocateConst _ _ _ _) (.buffer x) => some x
  | .called _ (.allocBuffer _ _ _) (.buffer x) => some x
  | .called _ (.matchBuffer _ _ _ _) (.buffer x) => some x
  | .called _ (.preflattenedBuffer _ _ _ _) (.buffer x) => some x
  | .called _ (.argBuffer _ _) (.buffer x) => some x
  | _ => none

/-- The buffer `x` was matched to a variable that a handle for an argument turned out to be. -/
def Displaced (x : Buffer) (H : List Event) : Prop :=
  ∃ past s v shape dtype o mid s' name y value rest,
    H = past ++ .called s (.matchBuffer (.param v) shape dtype o) (.buffer x) :: mid ++
      .called s' (.argBuffer name y) value :: rest ∧ s'.take.1 = v.id

/-- Only an argument takes the place of a buffer. -/
theorem not_displaced {H : List Event} (h : ∀ e ∈ H, e.handle? = none) (x : Buffer) :
    ¬Displaced x H := by
  rintro ⟨past, s, v, shape, dtype, o, mid, s', name, y, value, rest, rfl, -⟩
  cases h (.called s' (.argBuffer name y) value) (by simp)

/-- The first of two buffers behind one parameter was matched to it, as no handle is minted
twice. -/
theorem displaced_of_handle {past mid rest : List Event} {d e : Event} {i : VarId} {x : Buffer}
    (hn : ((past ++ d :: mid ++ e :: rest).flatMap minted).Nodup) (hk : d.keyed? = some i)
    (hd : d.declared? = some x) (he : e.handle? = some i) :
    Displaced x (past ++ d :: mid ++ e :: rest) := by
  unfold handle? at he
  split at he
  · rename_i s' name y value
    unfold keyed? at hk
    split at hk
    · rename_i s name' y' value'
      have hi : s.take.1 = s'.take.1 := Option.some.inj (hk.trans he.symm)
      rw [List.flatMap_append, List.nodup_append, List.flatMap_append] at hn
      exact absurd hi (hn.2.2 _ (by simp [minted, Var.fresh]) _ (by simp [minted, Var.fresh]))
    · rename_i s v shape dtype o value'
      cases value' with
      | buffer z =>
          cases hd
          exact ⟨past, s, v, shape, dtype, o, mid, s', name, y, value, rest, rfl,
            Option.some.inj (he.trans hk.symm)⟩
      | unit | var _ | vars _ | type _ => cases hd
    · cases hk
  · cases he

end Event

/-- What lies behind a parameter has been put there. -/
theorem Interface.Made.put {H : List Event} {I : Interface} (h : Made H I) :
    ∀ p ∈ I.bufferMap.entries, ∃ e ∈ H, e.keyed? = some p.1.id ∧ e.declared? = some p.2 := by
  induction h with
  | start => simp
  | @step H I e J past last ih =>
      intro p hp
      have old (hp : p ∈ I.bufferMap.entries) :
          ∃ d ∈ H ++ [e], d.keyed? = some p.1.id ∧ d.declared? = some p.2 := by
        obtain ⟨d, hd, he⟩ := ih p hp
        exact ⟨d, List.mem_append_left _ hd, he⟩
      have new : e ∈ H ++ [e] := List.mem_append_right _ (List.mem_singleton.2 rfl)
      cases last with
      | same _ | argVar _ _ _ | preflattened _ _ _ _ _ _ _ _ => exact old hp
      | argBuffer s name x =>
          obtain hp | ⟨hk, hx⟩ := OrderedMap.mem_put hp
          · exact old hp
          · exact ⟨_, new, congrArg some hk.symm, congrArg some hx.symm⟩
      | matched s v shape dtype o x free =>
          obtain hp | ⟨hk, hx⟩ := OrderedMap.mem_put hp
          · exact old hp
          · exact ⟨_, new, congrArg some hk.symm, congrArg some hx.symm⟩

namespace Program

/-- A buffer is matched to a variable that the handle of the next argument turns out to be. -/
def usurping : List Action := [.enter 0 {}, .openScope 0 .primFunc,
  .call 0 (.matchBuffer (.param ⟨1, "p", .handle, none⟩) [.int32 4] (.float 32) {}),
  .call 0 (.argBuffer "A" handedBuffer)]

/-- The buffer that loses its place in `usurping`. -/
def usurpedBuffer : Buffer :=
  ⟨⟨0, "buffer", .handle, some (.pointer (.float 32) "global")⟩, .float 32, [.int32 4], [],
    .int32 0, "buffer", 64, 1, .default, []⟩

end Program

end TensorProgram
