import Mathlib
import TensorProgram.Proofs.Replay

/-!
What comes of a session. A session that ends well has been a nesting, and its output is what
the nesting makes by recursion. How it ends is settled by its history alone: by the first
mistake, by the scopes left open, and by whether there is anything to give back.
-/

namespace TensorProgram

namespace Item

/-- A nesting is read back from its run. -/
theorem ofEvents_eventsList (is : List Item) : Nest.ofEvents (eventsList is) = ⟨[], is⟩ := by
  rw [Nest.ofEvents, follow_eventsList, Nest.foldl_add]
  rfl

theorem eventsList_injective {is js : List Item} (h : eventsList is = eventsList js) :
    is = js := by
  have hn := ofEvents_eventsList is
  rw [h, ofEvents_eventsList] at hn
  exact (Nest.mk.inj hn).2.symm

theorem isSome_func?_product (c : Config) (around : List Head) (i : Item) :
    (i.product c around).func?.isSome = i.seals := by
  cases i with
  | call s k v => rfl
  | scope id o v items =>
      cases o with
      | grid es => cases es <;> rfl
      | _ => rfl

mutual

theorem isEmpty_body_product (c : Config) (around : List Head) :
    (i : Item) → (i.product c around).body.isEmpty = !i.delivers
  | .call _ k _ => (Bool.not_not _).symm
  | .scope _ o v items => by
      cases o with
      | grid es =>
          cases es with
          | nil => exact isEmpty_body_products c _ items
          | cons e es => rfl
      | _ => rfl
termination_by structural i => i

theorem isEmpty_body_products (c : Config) (around : List Head) :
    (is : List Item) →
      ((products c around is).flatMap Product.body).isEmpty = !deliversAny is
  | [] => rfl
  | i :: is => by
      have ha (ss ts : List Stmt) : (ss ++ ts).isEmpty = (ss.isEmpty && ts.isEmpty) := by
        cases ss <;> rfl
      rw [products, List.flatMap_cons, ha, isEmpty_body_product c around i,
        isEmpty_body_products c around is, deliversAny, Bool.not_or]
termination_by structural is => is

end

/-- Whether there is something in the products is seen from the items that can have made it. -/
theorem isSome_findSome?_products {c : Config} {around : List Head} {α : Type}
    {f : Product → Option α} {p : Item → Bool}
    (hf : ∀ i, (f (product c around i)).isSome = p i) (is : List Item) :
    ((products c around is).findSome? f).isSome = is.any p := by
  rw [products_eq, List.findSome?_map, List.isSome_findSome?]
  exact congrArg is.any (funext hf)

theorem isSome_output (c : Config) (is : List Item) :
    (output c is).isSome = (is.any seals || deliversAny is) := by
  have hs : ((products c [] is).findSome? Product.func?).isSome = is.any seals :=
    isSome_findSome?_products (isSome_func?_product c []) is
  rw [← hs, ← Bool.not_not (deliversAny is), ← isEmpty_body_products c [] is, output]
  cases (products c [] is).findSome? Product.func? with
  | some f => rfl
  | none => cases (products c [] is).flatMap Product.body <;> rfl

end Item

/-- How a session with this history ends, apart from what it gives back. -/
def Event.verdict (H : List Event) : Except BuildError Unit :=
  match H.findSome? error? with
  | some e => .error e
  | none =>
      if (unclosed H).isEmpty then
        let items := (Nest.ofEvents H).items
        if items.any Item.seals || Item.deliversAny items then .ok () else .error .missingResult
      else .error (.unclosedScope ((unclosed H).map Prod.snd))

namespace Event

/-- What no word can hold does not reach the state of the builder. -/
def reaches : Event → Bool
  | .failed (.overflow _) => false
  | _ => true

theorem unclosed_filter (H : List Event) : unclosed (H.filter reaches) = unclosed H := by
  have ho : (fun e => if reaches e then opened? e else none) = opened? := by
    funext e
    cases e with
    | failed f => cases f <;> rfl
    | _ => rfl
  have hc (id : Nat) : (fun e => reaches e && closes id e) = closes id := by
    funext e
    cases e with
    | failed f => cases f <;> rfl
    | _ => rfl
  simp only [unclosed, List.filterMap_filter, ho, List.any_filter, hc]

theorem ofEvents_filter (H : List Event) :
    Nest.ofEvents (H.filter reaches) = Nest.ofEvents H := by
  have hf : (fun n e => if reaches e then Nest.follow n e else n) = Nest.follow := by
    funext n e
    cases e with
    | failed f => cases f <;> rfl
    | _ => rfl
  rw [Nest.ofEvents, List.foldl_filter, hf, Nest.ofEvents]

/-- What does not reach the state of the builder has no influence on the end. -/
theorem verdict_filter (H : List Event) : verdict (H.filter reaches) = verdict H := by
  have he : (fun e => if reaches e then error? e else none) = error? := by
    funext e
    cases e with
    | failed f => cases f <;> rfl
    | _ => rfl
  have hs : (H.filter reaches).findSome? error? = H.findSome? error? := by
    rw [← List.head?_filterMap, List.filterMap_filter, he, List.head?_filterMap]
  rw [verdict, hs, unclosed_filter, ofEvents_filter, verdict]

end Event

namespace Builder.Lived

variable {config : Config} {H : List Event} {b : Builder}

/-- A run without mistakes in which every scope has been closed is a nesting. -/
theorem nests (h : Lived config H b) (hc : H.findSome? Event.error? = none)
    (hf : b.frames = []) :
    H.filter Event.done = Item.eventsList (Nest.ofEvents H).items ∧
      b.result = Item.output config (Nest.ofEvents H).items := by
  obtain ⟨⟨hs, hr⟩, hev⟩ := h.models hc
  have hn : (Nest.ofEvents H).scopes = [] := Nest.Shows.scopes_eq_nil (hf ▸ hs)
  refine ⟨?_, hr⟩
  rw [← hev, Nest.events, hn, Nest.pendingEvents, List.append_nil]

theorem unclosed_isEmpty (h : Lived config H b) :
    (Event.unclosed H).isEmpty = b.frames.isEmpty := by
  rw [h.unclosed_eq]
  cases b.frames <;> simp

theorem unclosed_kinds (h : Lived config H b) :
    (Event.unclosed H).map Prod.snd = b.openKinds := by
  rw [h.unclosed_eq, List.map_reverse, List.map_map]
  rfl

theorem finish_verdict (h : Lived config H b) :
    b.finish.1.map (fun _ => ()) = Event.verdict H := by
  rw [finish, Event.verdict]
  rw [← h.firstError_eq, h.unclosed_isEmpty, h.unclosed_kinds]
  cases he : b.firstError with
  | some e => rfl
  | none =>
      cases hf : b.frames with
      | cons f fs => rfl
      | nil =>
          obtain ⟨-, hr⟩ := h.nests (h.firstError_eq ▸ he) hf
          have ho := Item.isSome_output config (Nest.ofEvents H).items
          rw [← hr] at ho
          dsimp only
          rw [← ho]
          cases b.result <;> rfl

end Builder.Lived

namespace Program

variable {supply : Supply} {acts : List Action} {id : SessionId}

/-- A session that ends with an output has been a nesting of scopes: every scope was closed
once, innermost first, and nothing went wrong but for bounds that no word can tell apart.
The output is what the nesting makes by recursion. -/
theorem finished_run_nests {out : Output} (hid : id ∈ (run supply acts).sessions)
    (h : ((run supply acts).world.finish id).1 = .ok out) :
    ∃ config H items,
      (run supply acts).history id = .entered config :: H ∧
      (∀ e ∈ H, e.error? = none) ∧
      H.filter Event.done = Item.eventsList items ∧
      ((H.filterMap Event.opened?).map Prod.fst).Nodup ∧
      Item.output config items = some out := by
  obtain ⟨config, H, hh, hl⟩ := lived_run hid
  obtain ⟨he, hf, hr⟩ := Builder.finish_eq_ok h
  have hc : H.findSome? Event.error? = none := hl.firstError_eq ▸ he
  obtain ⟨hn, ho⟩ := hl.nests hc hf
  refine ⟨config, H, (Nest.ofEvents H).items, hh, ?_, hn, ?_, ?_⟩
  · exact List.findSome?_eq_none_iff.1 hc
  · rw [hl.opened_ids]
    exact List.nodup_range
  · rw [← ho, hr]

/-- A buffer of four floats. -/
def fourFloats (id : VarId) (name : String) : Buffer :=
  ⟨⟨id, name, .handle, some (.pointer (.float 32) "global")⟩, .float 32, [.int32 4], [], .int32 0,
    name, 64, 1, .default, []⟩

/-- A function with a parameter and an allocation, and in it two loops of one grid around a block
in which all has been said that can be. In the block there are an init and a grid without extents
around two statements. -/
def nesting : List Action :=
  let i : Expr := .var ⟨2, "i0", .int 32, none⟩
  let j : Expr := .var ⟨3, "i1", .int 32, none⟩
  let A := fourFloats 100 "A"
  [.enter 0 {}, .openScope 0 .primFunc, .call 0 (.funcName "main"), .call 0 (.argBuffer "A" A),
    .call 0 (.allocBuffer [.int32 4] (.float 32) {}),
    .openScope 0 (.grid [.int32 4, .int32 8]), .openScope 0 (.block "B" false),
    .call 0 (.remap "SR" [i, j] (some (.int 64))),
    .call 0 (.axis .scan ⟨.int32 0, .int32 2⟩ (.int32 1) none), .call 0 (.guard (.bool false)),
    .call 0 (.reads [⟨A, []⟩]), .call 0 (.writes [⟨A, []⟩, ⟨A, []⟩]),
    .call 0 (.blockAttrs ((∅ : Annotations).insert "key" (.int 1))),
    .call 0 (.allocBuffer [.int32 4] (.float 32) {}),
    .call 0 (.matchBuffer (.region ⟨A, []⟩) [.int32 4] (.float 32) {}),
    .openScope 0 .blockInit, .call 0 (.evaluate (.int32 0)), .drop ⟨0, 3, .blockInit⟩,
    .openScope 0 (.grid []), .call 0 (.evaluate (.int32 1)), .call 0 (.evaluate (.int32 2)),
    .close ⟨0, 4, .loops⟩, .close ⟨0, 2, .block⟩, .close ⟨0, 1, .loops⟩, .drop ⟨0, 0, .primFunc⟩]

/-- The block of `nesting`. The axes that are bound to the loops have the type that they were
given. -/
def nestedBlock : Stmt :=
  let i : Expr := .var ⟨2, "i0", .int 32, none⟩
  let j : Expr := .var ⟨3, "i1", .int 32, none⟩
  let A := fourFloats 100 "A"
  let wide (e : Int64) : Range := ⟨.int 0 (.int 64), .int e (.int 64)⟩
  .block (some ⟨[.cast (.int 64) i, .cast (.int 64) j, .int32 1], .bool false⟩)
    { name := "B"
      iterVars := [
        ⟨some (wide 4), ⟨4, "vi0", .int 64, none⟩, .spatial, ""⟩,
        ⟨some (wide 8), ⟨5, "vi1", .int 64, none⟩, .reduce, ""⟩,
        ⟨some ⟨.int32 0, .int32 2⟩, ⟨6, "v", .int 32, none⟩, .scan, ""⟩]
      reads := [⟨A, []⟩]
      writes := [⟨A, []⟩, ⟨A, []⟩]
      allocs := [fourFloats 7 "buffer"]
      matched := [⟨fourFloats 8 "buffer", ⟨A, []⟩⟩]
      annotations := (∅ : Annotations).insert "key" (.int 1) }
    (some (.evaluate (.int32 0)))
    (.seq [.evaluate (.int32 1), .evaluate (.int32 2)])

/-- The function that `nesting` makes. Its allocation belongs to a block around the loops. -/
def nestedFunc : PrimFunc :=
  let loop (id : VarId) (name : String) (extent : Int64) : Head :=
    .loop ⟨⟨id, name, .int 32, none⟩, .int32 0, .int32 extent, .serial, none, ∅⟩
  { name := some "main"
    params := [⟨0, "A", .handle, none⟩]
    body := .block (some ⟨[], .bool true⟩)
      ⟨"root", [], [], [], [fourFloats 1 "buffer"], [], ∅⟩ none
      (.under (loop 2 "i0" 4) (.under (loop 3 "i1" 8) nestedBlock))
    retType := .void
    bufferMap := (∅ : OrderedMap Var Buffer).insert ⟨0, "A", .handle, none⟩ (fourFloats 100 "A")
    preflattened := ∅
    attrs := ∅ }

theorem finished_run_nests_grid :
    ∃ config H items,
      (run .counting nesting).history 0 = .entered config :: H ∧
      (∀ e ∈ H, e.error? = none) ∧
      H.filter Event.done = Item.eventsList items ∧
      ((H.filterMap Event.opened?).map Prod.fst).Nodup ∧
      Item.output config items = some (.func nestedFunc) := by
  have session : 0 ∈ (run .counting nesting).sessions := by decide +kernel
  have finished : ((run .counting nesting).world.finish 0).1 = .ok (.func nestedFunc) := by cbv
  exact finished_run_nests session finished

/-- The end of a session is settled by that part of its history that has reached its builder.
The history is a nesting if nothing is wrong with it. -/
theorem finish_eq_verdict (hid : id ∈ (run supply acts).sessions) :
    ∃ config H, (run supply acts).history id = .entered config :: H ∧
      ((run supply acts).world.finish id).1.map (fun _ => ()) = Event.verdict H ∧
      Event.verdict H = Event.verdict (H.filter Event.reaches) ∧
      (H.findSome? Event.error? = none → Event.unclosed H = [] →
        H.filter Event.done = Item.eventsList (Nest.ofEvents H).items) := by
  obtain ⟨config, H, hh, hl⟩ := lived_run hid
  refine ⟨config, H, hh, hl.finish_verdict, (Event.verdict_filter H).symm, fun hc hu => ?_⟩
  have hf : ((run supply acts).world.builder id).frames = [] := by
    rw [← List.isEmpty_iff, ← hl.unclosed_isEmpty, hu]
    rfl
  exact (hl.nests hc hf).1

/-- A scope that is closed before the one inside it. -/
theorem finish_eq_verdict_out_of_order :
    let acts : List Action := [.enter 0 {}, .openScope 0 .primFunc,
      .openScope 0 (.block "b" false), .close ⟨0, 0, .primFunc⟩, .drop ⟨0, 1, .block⟩]
    ((run .counting acts).world.finish 0).1 = .error (.outOfOrderClose .primFunc .block) ∧
    ∃ config H, (run .counting acts).history 0 = .entered config :: H ∧
      ((run .counting acts).world.finish 0).1.map (fun _ => ()) = Event.verdict H ∧
      Event.verdict H = Event.verdict (H.filter Event.reaches) ∧
      (H.findSome? Event.error? = none → Event.unclosed H = [] →
        H.filter Event.done = Item.eventsList (Nest.ofEvents H).items) := by
  intro acts
  have hid : 0 ∈ (run .counting acts).sessions := by decide
  exact ⟨rfl, finish_eq_verdict hid⟩

end Program

end TensorProgram
