import Mathlib.Data.List.Induction
import TensorProgram.Proofs.Minting
import TensorProgram.Proofs.Mirrors
import TensorProgram.Proofs.Script
import TensorProgram.Proofs.Stack

/-!
What runs of scripts advance. Whatever a call comes to, the numbers that scopes are given only grow,
identities are handed out in the order of the supply, and a session is live only after it has been
entered. Hence the guards in the answers so far are of scopes that have been opened before.
-/

namespace TensorProgram

namespace Builder

/-- Inner scopes have greater numbers, and all of them have been used. -/
def Ordered (b : Builder) : Prop := (b.nextId :: b.frames.map Frame.id).Pairwise (· > ·)

theorem Ordered.lt_nextId {b : Builder} (h : b.Ordered) : ∀ f ∈ b.frames, f.id < b.nextId := by
  intro f hf
  exact (List.pairwise_cons.1 h).1 f.id (List.mem_map_of_mem hf)

/-- No number is used again. -/
structure Advances (b b' : Builder) : Prop where
  ordered : b.Ordered → b'.Ordered
  nextId : b.nextId ≤ b'.nextId

theorem Advances.refl (b : Builder) : b.Advances b := ⟨id, Nat.le_refl _⟩

theorem Step.advances {b b' : Builder} {e : Event} (h : b.Step e b') : b.Advances b' :=
  ⟨h.took.moves.ordered, h.took.moves.nextId_le⟩

variable (b : Builder)

theorem advances_openScope (s : Supply) (o : Opening) : b.Advances (b.openScope s o).2.1 := by
  obtain ⟨r, b', s', h⟩ : ∃ r b' s', b.openScope s o = (r, b', s') := ⟨_, _, _, rfl⟩
  rw [h]
  cases r with
  | error f => exact (Step.openFailed h).advances
  | ok x => exact (Step.opened h).advances

theorem advances_call (s : Supply) (c : Call) : b.Advances (b.call s c).2.1 := by
  obtain ⟨r, b', s', h⟩ : ∃ r b' s', b.call s c = (r, b', s') := ⟨_, _, _, rfl⟩
  rw [h]
  cases r with
  | error f => exact (Step.callFailed h).advances
  | ok v => exact (Step.called h).advances

theorem advances_finish : b.Advances b.finish.2 := by
  rw [finish]
  cases b.firstError with
  | some e => exact ⟨id, Nat.le_refl _⟩
  | none =>
      dsimp only
      split
      · cases b.result <;> exact ⟨id, Nat.le_refl _⟩
      · exact .refl b

end Builder

namespace World

/-- Sessions that are live have been entered, and the open scopes of all are in order. -/
structure Sound (w : World) : Prop where
  live : ∀ t id, w.live t = some id → id < w.entered
  ordered : ∀ id, (w.builder id).Ordered

structure Advances (w w' : World) : Prop where
  entered : w.entered ≤ w'.entered
  supply : w.supply.Mints [] w'.supply
  live : ∀ t id, w'.live t = some id → w.live t = some id ∨ id < w'.entered
  builder : ∀ id, (w.builder id).Advances (w'.builder id) ∨
    w.entered ≤ id ∧ ∃ c, w'.builder id = { config := c }

variable {w w' : World}

theorem Advances.sound (h : w.Advances w') (hw : w.Sound) : w'.Sound where
  live t id ht := (h.live t id ht).elim
    (fun ht => Nat.lt_of_lt_of_le (hw.live t id ht) h.entered) fun hlt => hlt
  ordered id := by
    obtain hb | ⟨-, c, hb⟩ := h.builder id
    · exact hb.ordered (hw.ordered id)
    · rw [hb]
      exact List.pairwise_singleton _ _

theorem Advances.nextId (h : w.Advances w') {id : SessionId} (hid : id < w.entered) :
    (w.builder id).nextId ≤ (w'.builder id).nextId := by
  obtain hb | ⟨hle, -⟩ := h.builder id
  · exact hb.nextId
  · exact absurd hid (Nat.not_lt_of_le hle)

theorem Advances.refl (w : World) : w.Advances w :=
  ⟨Nat.le_refl _, .refl _, fun _ _ ht => Or.inl ht, fun _ => Or.inl (.refl _)⟩

/-- One builder advances. -/
theorem advances_update {id : SessionId} {b : Builder} {s : Supply}
    {l : ThreadId → Option SessionId} (hb : (w.builder id).Advances b) (hs : w.supply.Mints [] s)
    (hl : ∀ t id, l t = some id → w.live t = some id) :
    w.Advances { w with supply := s, builder := update w.builder id b, live := l } where
  entered := Nat.le_refl _
  supply := hs
  live t id ht := Or.inl (hl t id ht)
  builder id' := by
    refine Or.inl ?_
    by_cases hid : id' = id
    · subst hid
      simpa only [update_self] using hb
    · simpa only [update_of_ne _ _ hid] using Builder.Advances.refl _

theorem advances_supply {s : Supply} (hs : w.supply.Mints [] s) :
    w.Advances { w with supply := s } :=
  ⟨Nat.le_refl _, hs, fun _ _ ht => Or.inl ht, fun _ => Or.inl (.refl _)⟩

variable (w)

theorem advances_enter (t : ThreadId) (c : Config) : w.Advances (w.enter t c).2 := by
  rw [enter]
  cases w.live t with
  | some id => exact .refl w
  | none =>
      refine ⟨Nat.le_succ _, .refl _, ?_, ?_⟩
      · intro t' id ht
        dsimp only at ht ⊢
        by_cases he : t' = t
        · subst he
          rw [update_self] at ht
          cases ht
          exact Or.inr (Nat.lt_succ_self _)
        · exact Or.inl ((update_of_ne w.live _ he).symm.trans ht)
      · intro id
        by_cases he : id = w.entered
        · subst he
          exact Or.inr ⟨Nat.le_refl _, c, update_self _ _ _⟩
        · simpa only [update_of_ne _ _ he] using Or.inl (Builder.Advances.refl _)

theorem advances_openScope (t : ThreadId) (o : Opening) : w.Advances (w.openScope t o).2 := by
  cases ht : w.live t with
  | none =>
      rw [openScope_of_idle ht]
      exact .refl w
  | some id =>
      rw [openScope_of_live ht]
      exact advances_update (Builder.advances_openScope _ _ _) (Builder.forward_openScope rfl)
        fun _ _ ht => ht

theorem advances_call (t : ThreadId) (c : Call) : w.Advances (w.call t c).2 := by
  cases ht : w.live t with
  | none =>
      rw [call_of_idle ht]
      exact advances_supply (c.mints_unserved _)
  | some id =>
      rw [call_of_live ht]
      exact advances_update (Builder.advances_call _ _ _)
        (Builder.forward_edit c.forward_run rfl) fun _ _ ht => ht

theorem advances_close (g : Guard) : w.Advances (w.close g).2 :=
  advances_update (Builder.Step.close g.frame g.kind).advances (.refl _) fun _ _ ht => ht

theorem advances_leave (id : SessionId) : w.Advances (w.leave id) :=
  ⟨Nat.le_refl _, .refl _, fun _ _ ht => Or.inl (Program.live_leave ht), fun _ => Or.inl (.refl _)⟩

theorem advances_finish (id : SessionId) : w.Advances (w.finish id).2 :=
  advances_update (Builder.advances_finish _) (.refl _) fun _ _ ht => Program.live_leave ht

theorem advances_mint {α : Type} {f : Supply → α × Supply} (hf : ∀ s : Supply, s.Mints [] (f s).2) :
    w.Advances (w.mint f).2 :=
  advances_supply (hf _)

theorem advances_declare (es : List Expr) (d : DataType) (o : BufferOptions) :
    w.Advances (w.declare es d o).2 := by
  rw [declare]
  cases hd : Buffer.declare es d o w.supply with
  | error e => exact .refl w
  | ok r => exact advances_supply (Buffer.mints_declare hd)

end World

namespace Script

/-- What is made takes its new variables from the supply. -/
def Fn.Forward : (ts : List Ty) → (k : Kind) → Fn ts k → Prop
  | [], .minted _, f => ∀ s : Supply, s.Mints [] (f s).2
  | [], _, _ => True
  | t :: ts, k, f => ∀ a : t.Val, Forward ts k (f a)

/-- Other values have no new variables in them. -/
theorem Fn.forward_of_ne {k : Kind} (hk : ∀ t, k ≠ .minted t) :
    (ts : List Ty) → (f : Fn ts k) → Forward ts k f
  | [], f => by
      cases k with
      | minted t => exact absurd rfl (hk t)
      | _ => trivial
  | _ :: ts, f => fun a => forward_of_ne hk ts (f a)

theorem Data.forward {ts : List Ty} {k : Kind} (p : Data ts k) : Fn.Forward ts k p.fn := by
  cases p with
  | newVar _ _ | newPointer _ _ _ | ptr _ _ =>
      intro s
      exact (Supply.Mints.take s).forget
  | castOrFresh d =>
      intro e s
      cases e with
      | none => exact (Supply.Mints.take s).forget
      | some x => exact .refl s
  | _ => exact Fn.forward_of_ne (by simp) _ _

theorem Node.forward {ts : List Ty} {k : Kind} (p : Node ts k) : Fn.Forward ts k p.fn := by
  cases p <;> exact Fn.forward_of_ne (by simp) _ _

theorem Term.eval_forward {as : List Answer} {ts : List Ty} {k : Kind} {e : Term ts k}
    {f : Fn ts k} (h : e.eval as = some f) : Fn.Forward ts k f := by
  induction e with
  | given v | result n t | item t l n => exact Fn.forward_of_ne (by simp) _ _
  | data p =>
      cases h
      exact p.forward
  | node p =>
      cases h
      exact p.forward
  | opening p | call p => exact Fn.forward_of_ne (by simp) _ _
  | app e a ihe iha =>
      simp only [eval, Option.bind_eq_some_iff, Option.map_eq_some_iff] at h
      obtain ⟨g, hg, x, -, rfl⟩ := h
      exact ihe hg x

variable {as : List Answer} {w : World}

theorem Step.advances (as : List Answer) (w : World) (s : Step) : w.Advances (s.act as w).2 := by
  have idle {α : Type} (x : Option α) {f : α → Answer × World} (hf : ∀ a, x = some a →
      w.Advances (f a).2) : w.Advances (attempt w x f).2 := by
    cases x with
    | none => exact .refl w
    | some a => exact hf a rfl
  cases s with
  | enter t c => exact w.advances_enter t c
  | current t op => exact .refl w
  | openScope t o => exact idle _ fun o _ => w.advances_openScope t o
  | call t c => exact idle _ fun c _ => w.advances_call t c
  | close n | drop n => exact idle _ fun g _ => w.advances_close g
  | finish n => exact idle _ fun i _ => w.advances_finish i
  | leave n => exact idle _ fun i _ => w.advances_leave i
  | asFunc n | asStmt n | make t a | fold t a => exact idle _ fun _ _ => .refl w
  | mint t a => exact idle _ fun f hf => w.advances_mint (Term.eval_forward hf)
  | declare d shape o => exact idle _ fun es _ => idle _ fun o _ => w.advances_declare es d o

namespace Answer

variable {α : Type}

theorem guard?_ofCheck {f : α → Answer} (hf : ∀ a, (f a).guard? = none)
    (r : Except BuildError α) : (ofCheck f r).guard? = none := by
  cases r with
  | error e => rfl
  | ok a => exact hf a

theorem guard?_ofCall {f : α → Answer} (hf : ∀ a, (f a).guard? = none) (r : Except Failure α) :
    (ofCall f r).guard? = none := by
  cases r with
  | error e => rfl
  | ok a => exact hf a

theorem guard?_ofFold {t : Ty} (r : Except Overflow t.Val) : (ofFold t r).guard? = none := by
  cases r <;> rfl

end Answer

/-- Only what opens a scope answers with a guard. -/
theorem Step.guard?_act {s : Step} (h : ∀ t o, s ≠ .openScope t o) :
    (s.act as w).1.guard? = none := by
  have idle {α : Type} (x : Option α) {f : α → Answer × World}
      (hf : ∀ a, (f a).1.guard? = none) : (attempt w x f).1.guard? = none := by
    cases x with
    | none => rfl
    | some a => exact hf a
  cases s with
  | openScope t o => exact absurd rfl (h t o)
  | enter t c | current t op => exact Answer.guard?_ofCheck (fun _ => rfl) _
  | call t c => exact idle _ fun _ => Answer.guard?_ofCall (fun _ => rfl) _
  | close n | finish n | asFunc n | asStmt n =>
      exact idle _ fun _ => Answer.guard?_ofCheck (fun _ => rfl) _
  | drop n | leave n | make t a | mint t a => exact idle _ fun _ => rfl
  | fold t a => exact idle _ fun _ => Answer.guard?_ofFold _
  | declare d shape o =>
      exact idle _ fun _ => idle _ fun _ => Answer.guard?_ofCheck (fun _ => rfl) _

/-- A guard is new, and its scope has been opened by the call. -/
theorem Step.guard_act {s : Step} {g : Guard} (h : (s.act as w).1.guard? = some g) :
    (∃ t, w.live t = some g.session) ∧ g.frame = (w.builder g.session).nextId ∧
      g.frame < ((s.act as w).2.builder g.session).nextId := by
  cases s with
  | openScope t o =>
      simp only [act] at h ⊢
      cases he : o.eval as with
      | none =>
          rw [he] at h
          cases h
      | some o =>
          simp only [he, attempt, Prod.map] at h ⊢
          cases ht : w.live t with
          | none =>
              rw [World.openScope_of_idle ht] at h
              cases h
          | some id =>
              rw [World.openScope_of_live ht, Builder.openScope_eq] at h
              cases ho : o.scope (w.builder id) w.supply with
              | error f =>
                  rw [ho] at h
                  cases h
              | ok r =>
                  rw [ho] at h
                  cases h
                  refine ⟨⟨t, ht⟩, rfl, ?_⟩
                  rw [World.openScope_of_live ht, Builder.openScope_eq, ho]
                  simp [update_self, Builder.push]
  | _ =>
      rw [guard?_act (by simp)] at h
      cases h

/-- The answers so far fit the world. -/
structure Run.Sound (x : Run) : Prop where
  world : x.world.Sound
  guards : ∀ (n : Nat) (g : Guard), x.answers[n]?.bind Answer.guard? = some g →
    g.session < x.world.entered ∧ g.frame < (x.world.builder g.session).nextId

/-- The answers after a call are those before it and one more. -/
theorem Run.bind_step {β : Type} {f : Answer → Option β} {x : Run} {s : Step} {n : Nat} {b : β}
    (h : (x.step s).answers[n]?.bind f = some b) : x.answers[n]?.bind f = some b ∨
      n = x.answers.length ∧ f (s.act x.answers x.world).1 = some b := by
  obtain ⟨a, ha, hf⟩ := Option.bind_eq_some_iff.1 h
  change (x.answers ++ [(s.act x.answers x.world).1])[n]? = some a at ha
  rw [List.getElem?_append] at ha
  split at ha
  · exact Or.inl (by rw [ha]; exact hf)
  · rename_i hn
    cases hk : n - x.answers.length with
    | zero =>
        rw [hk] at ha
        cases ha
        exact Or.inr ⟨by omega, hf⟩
    | succ k =>
        rw [hk] at ha
        cases ha

theorem Run.Sound.step {x : Run} (h : x.Sound) (s : Step) : (x.step s).Sound := by
  have ha : x.world.Advances (x.step s).world := Step.advances _ _ s
  refine ⟨ha.sound h.world, fun n g hg => ?_⟩
  obtain hg | ⟨-, hg⟩ := bind_step hg
  · obtain ⟨hs, hf⟩ := h.guards n g hg
    exact ⟨Nat.lt_of_lt_of_le hs ha.entered, Nat.lt_of_lt_of_le hf (ha.nextId hs)⟩
  · obtain ⟨⟨t, ht⟩, -, hf⟩ := Step.guard_act hg
    exact ⟨Nat.lt_of_lt_of_le (h.world.live t _ ht) ha.entered, hf⟩

theorem sound_run (script : List Step) (s : Supply) : (run script (.start s)).Sound := by
  induction script using List.reverseRecOn with
  | nil => exact ⟨⟨by simp [run, World.start], fun _ => List.pairwise_singleton _ _⟩, by simp [run]⟩
  | append_singleton script a ih =>
      rw [run, List.foldl_append]
      exact ih.step a

theorem mints_run (script : List Step) (s : Supply) :
    s.Mints [] (run script (.start s)).world.supply := by
  induction script using List.reverseRecOn with
  | nil => exact .refl s
  | append_singleton script a ih =>
      rw [run, List.foldl_append]
      exact ih.trans (Step.advances _ _ a).supply

/-- In session `k` the number `p` is that of the scope opened by call `n` and of no other. -/
structure Run.Owns (k : SessionId) (p n : Nat) (x : Run) : Prop where
  entered : k < x.world.entered
  next : p < (x.world.builder k).nextId
  past : n < x.answers.length
  guards : ∀ (i : Nat) (g : Guard), i ≠ n → x.answers[i]?.bind Answer.guard? = some g →
    g.session = k → g.frame ≠ p

theorem Run.Owns.step {k : SessionId} {p n : Nat} {x : Run} (h : x.Owns k p n) (s : Step) :
    (x.step s).Owns k p n := by
  have ha : x.world.Advances (x.step s).world := Step.advances _ _ s
  refine ⟨Nat.lt_of_lt_of_le h.entered ha.entered,
    Nat.lt_of_lt_of_le h.next (ha.nextId h.entered), ?_, fun i g hi hg hk => ?_⟩
  · simpa [Run.step] using Nat.lt_succ_of_lt h.past
  · obtain hg | ⟨-, hg⟩ := bind_step hg
    · exact h.guards i g hi hg hk
    · obtain ⟨-, hf, -⟩ := Step.guard_act hg
      rw [hf, hk]
      exact Nat.ne_of_gt h.next

end Script

end TensorProgram
