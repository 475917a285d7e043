import Mathlib.Data.List.Forall2
import TensorProgram.Proofs.Listing

/-!
Placement. Where memory lives is asked of the open scopes when it is allocated or realized. In the
finished tree the same is told by the statements around: each head of the tree was made by one
opening, inside those heads that were around it then, and the nearest attribute for the storage
scope among them is the one that was found.
-/

namespace TensorProgram

/-- The heads, each with those around it. -/
def Listing.heads : Listing (List Head × Head) where
  head around h := [(around, h)]
  axis _ := []

/-- The heads of a statement that lies inside `around`, each with those around it, innermost
first. -/
def Stmt.heads (around : List Head) (s : Stmt) : List (List Head × Head) :=
  Listing.heads.stmt around s

/-- What one opening has made: its heads, outermost first, and those around them, innermost
first. -/
structure Layer where
  around : List Head
  made : List Head

def Layer.heads (l : Layer) : List (List Head × Head) := Listing.heads.nest l.around l.made

/-- What the opening makes inside the heads around. Memory lies in the storage scope that is given,
or else in that of the nearest attribute around. Constants lie in that of the configuration. -/
def Opening.Lays (c : Config) (v : Value) (l : Layer) : Opening → Prop
  | .allocate extents dtype scope condition annotations => ∃ x, v = .buffer x ∧
      x.data.typeHint = some (.pointer dtype (place c l.around scope)) ∧
      l.made = [.allocate x.data dtype extents (condition.getD (.bool true)) (annotations.getD ∅)]
  | .allocateConst data dtype extents annotations => ∃ x, v = .buffer x ∧
      x.data.typeHint = some (.pointer dtype c.storageScope) ∧
      l.made = [.allocateConst x.data dtype extents data (annotations.getD ∅)]
  | .realize region scope condition =>
      l.made = [.attr (.var region.buffer.data) "realize_scope" (.str (place c l.around scope)),
        .realize region (condition.getD (.bool true))]
  | o => l.made = o.heads c l.around v

/-- No scope has two attributes for the storage scope, so that those of a scope are the same
from the inside and from the outside. -/
theorem Opening.findSome?_reverse (c : Config) (around : List Head) (v : Value) (o : Opening) :
    (o.heads c around v).reverse.findSome? Head.storageScope? =
      (o.heads c around v).findSome? Head.storageScope? := by
  cases o with
  | grid extents =>
      have hn (es : List Expr) (vs : List Var) :
          ∀ h ∈ gridHeads es vs, h.storageScope? = none := by
        induction es generalizing vs with
        | nil =>
            intro h hh
            cases hh
        | cons e es ih => exact List.forall_mem_cons.2 ⟨rfl, ih vs.tail⟩
      have hg := hn extents v.asVars
      rw [heads, List.findSome?_eq_none_iff.2 hg, List.findSome?_eq_none_iff]
      exact fun h hh => hg h (List.mem_reverse.1 hh)
  | _ => rfl

theorem Nest.Shows.findSome?_around {c : Config} {xs : List Pending} {fs : List Frame}
    (h : Shows c xs fs) : (Frame.around fs).findSome? Head.storageScope? =
      (around c xs).findSome? Head.storageScope? := by
  induction xs generalizing fs with
  | nil =>
      rw [h.frames_eq_nil]
      rfl
  | cons x xs ih =>
      obtain ⟨f, fs, rfl⟩ := h.frames_eq_cons
      obtain ⟨-, hs, -, hr⟩ := h
      rw [Frame.around, Scope.inside, List.findSome?_append, ih hr, hs.heads,
        Opening.findSome?_reverse, around, List.findSome?_append]

namespace Nest.Models

variable {c : Config} {n : Nest} {b : Builder}

/-- The scope that the builder finds is that of the nearest attribute. -/
theorem storageScopeOr_eq_place (h : n.Models c b) (hc : b.config = c) (given : String) :
    b.storageScopeOr given = Opening.place c (Frame.around b.frames) given := by
  rw [h.storageScopeOr hc, Opening.place, Opening.place, h.scopes.findSome?_around]

theorem lays {o : Opening} {v : Value} {x : Scope} {s s' : Supply} (h : n.Models c b)
    (hc : b.config = c) (hs : Scope.Stacked (b.frames.map Frame.scope))
    (ho : o.scope b s = .ok ((x, v), s')) : o.Lays c v ⟨Frame.around b.frames, x.heads⟩ := by
  have hm := Opening.scope_makes ho
  have hx : x.heads = o.heads c (around c n.scopes) v := (h.makes hc hs hm).heads
  cases hm with
  | allocate extents dtype scope condition annotations buffer =>
      obtain ⟨-, rfl, hp⟩ := Opening.scope_allocate ho
      rw [h.storageScopeOr_eq_place hc] at hp
      exact ⟨buffer, rfl, hp, rfl⟩
  | allocateConst data dtype extents annotations buffer =>
      obtain ⟨-, rfl, hp⟩ := Opening.scope_allocateConst ho
      exact ⟨buffer, rfl, hc ▸ hp, rfl⟩
  | realize region scope condition _ _ =>
      rw [Opening.Lays, ← h.storageScopeOr_eq_place hc]
      rfl
  | _ => exact hx

end Nest.Models

def Event.opening? : Event → Option (Opening × Value)
  | .opened _ o v => some (o, v)
  | _ => none

/-- The heads that an event adds are those of the scope that it opens. -/
theorem Event.Adds.lays {c : Config} {n : Nest} {b : Builder} {hs : List Head}
    {as : List IterVar} {e : Event} (h : e.Adds b hs as) (hn : n.Models c b) (hc : b.config = c)
    (stacked : Scope.Stacked (b.frames.map Frame.scope)) :
    ∃ layers, List.Forall₂ (fun x l => x.1.Lays c x.2 l) e.opening?.toList layers ∧
      layers.flatMap Layer.heads = Listing.heads.nest (Frame.around b.frames) hs := by
  cases e with
  | opened id o v =>
      obtain ⟨-, x, s, s', hx, rfl⟩ := h
      exact ⟨[⟨Frame.around b.frames, x.heads⟩], .cons (hn.lays hc stacked hx) .nil,
        List.flatMap_singleton _ _⟩
  | called _ _ _ | entered _ | closed _ | discarded _ _ | failed _ =>
      obtain ⟨rfl, -⟩ := h
      exact ⟨[], .nil, rfl⟩

/-- All heads that a session has made so far are those of its openings, in their places. -/
theorem Builder.Lived.lays {config : Config} {H : List Event} {b : Builder}
    (h : Lived config H b) (hc : H.findSome? Event.error? = none) :
    ∃ layers, List.Forall₂ (fun x l => x.1.Lays config x.2 l) (H.filterMap Event.opening?) layers ∧
      (Listing.heads.builder b).Perm (layers.flatMap Layer.heads) := by
  induction h with
  | start => exact ⟨[], .nil, .refl _⟩
  | @step H b e b' past last ih =>
      rw [List.findSome?_append, Option.or_eq_none_iff] at hc
      obtain ⟨layers, hl, hb⟩ := ih hc.1
      obtain ⟨hs, as, ha, hadds⟩ := last.took.adds (by simpa using hc.2) past.stacked
      obtain ⟨new, hn, hnew⟩ := ha.lays (past.models hc.1).1 past.config_eq past.stacked
      refine ⟨layers ++ new, ?_, ?_⟩
      · rw [List.filterMap_append, filterMap_singleton]
        exact List.rel_append hl hn
      · have hb' := hadds Listing.heads
        have hx : as.flatMap Listing.heads.axis = [] := List.flatMap_eq_nil_iff.2 fun _ _ => rfl
        rw [hx, List.append_nil] at hb'
        rw [List.flatMap_append, hnew]
        exact hb'.trans (hb.append_right _)

namespace Program

variable {supply : Supply} {acts : List Action} {id : SessionId}

/-- The heads in the output of a session are those that its openings have made, each once. An
allocation or realization has asked for the storage scope of the nearest attribute around it, and
it has got the one that is the nearest in the output. -/
theorem storage_scopes_lexical {out : Output} (hid : id ∈ (run supply acts).sessions)
    (h : ((run supply acts).world.finish id).1 = .ok out) :
    ∃ config H layers, (run supply acts).history id = .entered config :: H ∧
      List.Forall₂ (fun x l => x.1.Lays config x.2 l) (H.filterMap Event.opening?) layers ∧
      (out.body.heads []).Perm (layers.flatMap Layer.heads) := by
  obtain ⟨config, H, hh, hl⟩ := lived_run hid
  obtain ⟨he, hf, hr⟩ := Builder.finish_eq_ok h
  obtain ⟨layers, ho, hp⟩ := hl.lays (hl.firstError_eq ▸ he)
  refine ⟨config, H, layers, hh, ho, ?_⟩
  have hm : Listing.heads.builder ((run supply acts).world.builder id) = out.body.heads [] := by
    simp [Listing.builder, Listing.frames, hf, hr, Stmt.heads]
  exact hm ▸ hp

/-- The first buffer that `placing` allocates. -/
def placedBuffer : Buffer :=
  ⟨⟨0, "buf", .handle, some (.pointer (.float 32) "shared")⟩, .float 32, [.int32 4], [], .int32 0,
    "buf", 64, 1, .default, []⟩

/-- A buffer is allocated and realized, and a constant is allocated. The nearest attribute for the
storage scope holds no text and is passed over. -/
def placing : List Action := [.enter 0 { storageScope := "local" },
  .openScope 0 (.attr (.str "n") "storage_scope" (.str "shared")),
  .openScope 0 (.attr (.str "n") "storage_scope" (.int32 1)),
  .openScope 0 (.allocate [.int32 4] (.float 32) "" none none),
  .openScope 0 (.realize placedBuffer.full "" none),
  .openScope 0 (.allocateConst (.ints [7]) (.int 32) [.int32 1] none),
  .call 0 (.evaluate (.int32 0)), .close ⟨0, 4, .allocateConst⟩, .close ⟨0, 3, .realize⟩,
  .close ⟨0, 2, .allocate⟩, .close ⟨0, 1, .attr⟩, .close ⟨0, 0, .attr⟩]

theorem storage_scopes_lexical_placing :
    ∃ out, ((run .counting placing).world.finish 0).1 = .ok out ∧
      (out.body.heads []).map Prod.snd = [.attr (.str "n") "storage_scope" (.str "shared"),
        .attr (.str "n") "storage_scope" (.int32 1),
        .allocate placedBuffer.data (.float 32) [.int32 4] (.bool true) ∅,
        .attr (.var placedBuffer.data) "realize_scope" (.str "shared"),
        .realize placedBuffer.full (.bool true),
        .allocateConst ⟨1, "buf", .handle, some (.pointer (.int 32) "local")⟩ (.int 32)
          [.int32 1] (.ints [7]) ∅] ∧
      ∃ config H layers, (run .counting placing).history 0 = .entered config :: H ∧
        List.Forall₂ (fun x l => x.1.Lays config x.2 l) (H.filterMap Event.opening?) layers ∧
        (out.body.heads []).Perm (layers.flatMap Layer.heads) := by
  have hid : 0 ∈ (run .counting placing).sessions := by decide
  refine ⟨_, rfl, rfl, ?_⟩
  exact storage_scopes_lexical hid rfl

end Program

end TensorProgram
