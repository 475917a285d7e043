import TensorProgram.Proofs.Sessions

/-!
Mirrored builders. Two worlds may differ in the builder of one session alone, and then every
operation comes to the same in both as long as it does so on the two builders. What this asks of
them is kept apart from the worlds: how they are related, which scopes may be closed, how those of
the one are numbered in the other, and when the first is past saving, so that nothing need be said
of the second.
-/

namespace TensorProgram

namespace Builder

/-- What no operation on a builder undoes, other than to close a scope not in `C`. -/
structure Lasts (C : Nat → Prop) (D : Builder → Prop) : Prop where
  openScope : ∀ {b}, D b → ∀ s o, D (b.openScope s o).2.1
  call : ∀ {b}, D b → ∀ s c, D (b.call s c).2.1
  close : ∀ {b}, D b → ∀ {id}, C id → ∀ kind, D (b.close id kind).2

/-- What no step undoes lasts. -/
theorem lasts_of_step {D : Builder → Prop} (h : ∀ {b b' e}, D b → b.Step e b' → D b') :
    Lasts (fun _ => True) D where
  openScope {b} hb s o := by
    obtain ⟨r, b', s', hr⟩ : ∃ r b' s', b.openScope s o = (r, b', s') := ⟨_, _, _, rfl⟩
    rw [hr]
    cases r with
    | error f => exact h hb (.openFailed hr)
    | ok x => exact h hb (.opened hr)
  call {b} hb s c := by
    obtain ⟨r, b', s', hr⟩ : ∃ r b' s', b.call s c = (r, b', s') := ⟨_, _, _, rfl⟩
    rw [hr]
    cases r with
    | error f => exact h hb (.callFailed hr)
    | ok v => exact h hb (.called hr)
  close hb id _ kind := h hb (.close id kind)

/-- Builders related by `R` answer alike and remain related, unless the first comes to be in `D`.
A scope that has the number `i` in the first has the number `γ i` in the second. -/
structure Mirrors (γ : Nat → Nat) (C : Nat → Prop) (R : Builder → Builder → Prop)
    (D : Builder → Prop) : Prop where
  next : ∀ {b b'}, R b b' → C b.nextId
  openScope : ∀ {b b'}, R b b' → ∀ s o, D (b.openScope s o).2.1 ∨
    ∃ c', b'.openScope s o = ((b.openScope s o).1.map fun r => (γ r.1, r.2), c',
        (b.openScope s o).2.2) ∧ R (b.openScope s o).2.1 c'
  call : ∀ {b b'}, R b b' → ∀ s c, D (b.call s c).2.1 ∨
    ∃ c', b'.call s c = ((b.call s c).1, c', (b.call s c).2.2) ∧ R (b.call s c).2.1 c'
  close : ∀ {b b'}, R b b' → ∀ {id}, C id → ∀ kind, D (b.close id kind).2 ∨
    ∃ c', b'.close (γ id) kind = ((b.close id kind).1, c') ∧ R (b.close id kind).2 c'

/-- A session of the one ends well if that of the other does, and with the same output. -/
def Finishes (R : Builder → Builder → Prop) : Prop :=
  ∀ {b b'}, R b b' → b'.finish.1.toOption = b.finish.1.toOption ∧ R b.finish.2 b'.finish.2

/-- A mirror of a mirror. -/
theorem Mirrors.comp {γ γ' : Nat → Nat} {C C' : Nat → Prop} {R R' : Builder → Builder → Prop}
    {D : Builder → Prop} (h : Mirrors γ C R D) (h' : Mirrors γ' C' R' fun _ => False)
    (hC : ∀ {i}, C i → C' (γ i)) :
    Mirrors (γ' ∘ γ) C (fun b c => ∃ b', R b b' ∧ R' b' c) D where
  next := by
    rintro b c ⟨b', hb, -⟩
    exact h.next hb
  openScope := by
    rintro b c ⟨b', hb, hc⟩ s o
    obtain hd | ⟨d, hd, hr⟩ := h.openScope hb s o
    · exact Or.inl hd
    · obtain hf | ⟨d', hd', hr'⟩ := h'.openScope hc s o
      · exact hf.elim
      · rw [hd] at hd' hr'
        refine Or.inr ⟨d', hd'.trans ?_, d, hr, hr'⟩
        cases (b.openScope s o).1 <;> rfl
  call := by
    rintro b c ⟨b', hb, hc⟩ s k
    obtain hd | ⟨d, hd, hr⟩ := h.call hb s k
    · exact Or.inl hd
    · obtain hf | ⟨d', hd', hr'⟩ := h'.call hc s k
      · exact hf.elim
      · rw [hd] at hd' hr'
        exact Or.inr ⟨d', hd', d, hr, hr'⟩
  close := by
    rintro b c ⟨b', hb, hc⟩ id hid kind
    obtain hd | ⟨d, hd, hr⟩ := h.close hb hid kind
    · exact Or.inl hd
    · obtain hf | ⟨d', hd', hr'⟩ := h'.close hc (hC hid) kind
      · exact hf.elim
      · rw [hd] at hd' hr'
        exact Or.inr ⟨d', hd', d, hr, hr'⟩

theorem mirrors_eq : Mirrors id (fun _ => True) Eq fun _ => False where
  next _ := trivial
  openScope := by
    rintro b _ rfl s o
    refine Or.inr ⟨_, ?_, rfl⟩
    obtain ⟨r, c, s'⟩ := b.openScope s o
    cases r <;> rfl
  call := by
    rintro b _ rfl s c
    exact Or.inr ⟨_, rfl, rfl⟩
  close := by
    rintro b _ rfl id - kind
    exact Or.inr ⟨_, rfl, rfl⟩

theorem finishes_eq : Finishes Eq := by
  rintro b _ rfl
  exact ⟨rfl, rfl⟩

end Builder

/-- The guard of the scope in the other world. -/
def Guard.move (σ : SessionId) (γ : Nat → Nat) (g : Guard) : Guard :=
  if g.session = σ then { g with frame := γ g.frame } else g

/-- Worlds that differ at most in the builder of session `σ`. If that session is still to be
entered, new builders are related. -/
structure World.Beside (σ : SessionId) (R : Builder → Builder → Prop) (w w' : World) : Prop where
  entered : w.entered ≤ σ → ∀ c, R { config := c } { config := c }
  builders : ∃ b', R (w.builder σ) b' ∧ w' = { w with builder := update w.builder σ b' }

namespace World.Beside

variable {σ : SessionId} {γ : Nat → Nat} {C : Nat → Prop} {R : Builder → Builder → Prop}
  {D : Builder → Prop} {w w' : World} (h : w.Beside σ R w')

include h

theorem live : w'.live = w.live := by
  obtain ⟨b', -, rfl⟩ := h.builders
  rfl

theorem supply : w'.supply = w.supply := by
  obtain ⟨b', -, rfl⟩ := h.builders
  rfl

theorem own : R (w.builder σ) (w'.builder σ) := by
  obtain ⟨b', hb, rfl⟩ := h.builders
  simpa only [update_self] using hb

theorem other {id : SessionId} (hid : id ≠ σ) : w'.builder id = w.builder id := by
  obtain ⟨b', -, rfl⟩ := h.builders
  exact update_of_ne _ _ hid

/-- Both builders of the session take a step. -/
theorem update_own {b b' : Builder} (hb : R b b') (s : Supply) :
    Beside σ R { w with supply := s, builder := update w.builder σ b }
      { w' with supply := s, builder := update w'.builder σ b' } where
  entered := h.entered
  builders := by
    obtain ⟨c', -, rfl⟩ := h.builders
    refine ⟨b', by simpa only [update_self] using hb, ?_⟩
    simp only [update_eq, Function.update_idem]

theorem update_other {id : SessionId} (hid : id ≠ σ) (b : Builder) (s : Supply) :
    Beside σ R { w with supply := s, builder := update w.builder id b }
      { w' with supply := s, builder := update w'.builder id b } where
  entered := h.entered
  builders := by
    obtain ⟨c', hc, rfl⟩ := h.builders
    refine ⟨c', by simpa only [update_of_ne _ _ hid.symm] using hc, ?_⟩
    simp only [update_eq, Function.update_comm hid]

theorem change_own {b b' : Builder} (hb : R b b') :
    Beside σ R { w with builder := update w.builder σ b }
      { w' with builder := update w'.builder σ b' } := by
  have hu := h.update_own hb w.supply
  have hs : { w' with supply := w.supply, builder := update w'.builder σ b' } =
      { w' with builder := update w'.builder σ b' } := by rw [← h.supply]
  rwa [hs] at hu

theorem change_other {id : SessionId} (hid : id ≠ σ) (b : Builder) :
    Beside σ R { w with builder := update w.builder id b }
      { w' with builder := update w'.builder id b } := by
  have hu := h.update_other hid b w.supply
  have hs : { w' with supply := w.supply, builder := update w'.builder id b } =
      { w' with builder := update w'.builder id b } := by rw [← h.supply]
  rwa [hs] at hu

/-- The first builder alone takes a step, and is then related to the second in another way. -/
theorem change_first {R' : Builder → Builder → Prop} (hid : σ < w.entered) {b : Builder}
    (hb : R' b (w'.builder σ)) : Beside σ R' { w with builder := update w.builder σ b } w' where
  entered hle := absurd hid (Nat.not_lt_of_le hle)
  builders := by
    obtain ⟨c', -, rfl⟩ := h.builders
    refine ⟨c', ?_, ?_⟩
    · simpa only [update_self] using hb
    · simp only [update_eq, Function.update_idem]

theorem leave (id : SessionId) : (w.leave id).Beside σ R (w'.leave id) where
  entered := h.entered
  builders := by
    obtain ⟨c', hc, rfl⟩ := h.builders
    exact ⟨c', hc, rfl⟩

theorem mint {α : Type} (f : Supply → α × Supply) :
    (w'.mint f).1 = (w.mint f).1 ∧ (w.mint f).2.Beside σ R (w'.mint f).2 := by
  obtain ⟨c', hc, rfl⟩ := h.builders
  exact ⟨rfl, h.entered, c', hc, rfl⟩

theorem declare (es : List Expr) (d : DataType) (o : BufferOptions) :
    (w'.declare es d o).1 = (w.declare es d o).1 ∧
      (w.declare es d o).2.Beside σ R (w'.declare es d o).2 := by
  rw [World.declare, World.declare, h.supply]
  cases Buffer.declare es d o w.supply with
  | error e => exact ⟨rfl, h⟩
  | ok p =>
      obtain ⟨c', hc, rfl⟩ := h.builders
      exact ⟨rfl, h.entered, c', hc, rfl⟩

theorem enter (t : ThreadId) (c : Config) :
    (w'.enter t c).1 = (w.enter t c).1 ∧ (w.enter t c).2.Beside σ R (w'.enter t c).2 := by
  rw [World.enter, World.enter, h.live]
  cases w.live t with
  | some id => exact ⟨rfl, h⟩
  | none =>
      obtain ⟨c', hc, rfl⟩ := h.builders
      refine ⟨rfl, fun hlt => h.entered (Nat.le_of_succ_le hlt), ?_⟩
      by_cases hid : w.entered = σ
      · refine ⟨{ config := c }, ?_, ?_⟩
        · simpa only [hid, update_self] using h.entered (Nat.le_of_eq hid) c
        · simp only [hid, update_eq, Function.update_idem]
      · refine ⟨c', by simpa only [update_of_ne _ _ (Ne.symm hid)] using hc, ?_⟩
        simp only [update_eq, Function.update_comm hid]

theorem openScope (hm : Builder.Mirrors γ C R D) (t : ThreadId) (o : Opening) :
    D ((w.openScope t o).2.builder σ) ∨
      (w'.openScope t o).1 = (w.openScope t o).1.map (fun r => (r.1.move σ γ, r.2)) ∧
        (w.openScope t o).2.Beside σ R (w'.openScope t o).2 := by
  cases ht : w.live t with
  | none =>
      rw [openScope_of_idle ht, openScope_of_idle (h.live ▸ ht)]
      exact Or.inr ⟨rfl, h⟩
  | some id =>
      rw [openScope_of_live ht, openScope_of_live (h.live ▸ ht), h.supply]
      by_cases hid : id = σ
      · subst hid
        obtain hd | ⟨c', hc, hr⟩ := hm.openScope h.own w.supply o
        · exact Or.inl (by simpa only [update_self] using hd)
        · rw [hc]
          generalize (w.builder id).openScope w.supply o = x at hr ⊢
          obtain ⟨r, c, s⟩ := x
          refine Or.inr ⟨?_, h.update_own hr s⟩
          cases r <;> simp [Except.map, Guard.move]
      · rw [h.other hid]
        generalize (w.builder id).openScope w.supply o = x
        obtain ⟨r, c, s⟩ := x
        refine Or.inr ⟨?_, h.update_other hid c s⟩
        cases r <;> simp [Except.map, Guard.move, hid]

theorem call (hm : Builder.Mirrors γ C R D) (t : ThreadId) (c : Call) :
    D ((w.call t c).2.builder σ) ∨
      (w'.call t c).1 = (w.call t c).1 ∧ (w.call t c).2.Beside σ R (w'.call t c).2 := by
  cases ht : w.live t with
  | none =>
      rw [call_of_idle ht, call_of_idle (h.live ▸ ht), h.supply]
      obtain ⟨b', hb, hw⟩ := h.builders
      exact Or.inr ⟨rfl, h.entered, b', hb, by rw [hw]⟩
  | some id =>
      rw [call_of_live ht, call_of_live (h.live ▸ ht), h.supply]
      by_cases hid : id = σ
      · subst hid
        obtain hd | ⟨c', hc, hr⟩ := hm.call h.own w.supply c
        · exact Or.inl (by simpa only [update_self] using hd)
        · rw [hc]
          exact Or.inr ⟨rfl, h.update_own hr _⟩
      · rw [h.other hid]
        exact Or.inr ⟨rfl, h.update_other hid _ _⟩

theorem close (hm : Builder.Mirrors γ C R D) {g : Guard} (hg : g.session = σ → C g.frame) :
    D ((w.close g).2.builder σ) ∨
      (w'.close (g.move σ γ)).1 = (w.close g).1 ∧
        (w.close g).2.Beside σ R (w'.close (g.move σ γ)).2 := by
  by_cases hid : g.session = σ
  · have hmove : g.move σ γ = { g with frame := γ g.frame } := if_pos hid
    rw [hmove, World.close, World.close]
    dsimp only
    rw [hid]
    obtain hd | ⟨c', hc, hr⟩ := hm.close h.own (hg hid) g.kind
    · exact Or.inl (by simpa only [update_self] using hd)
    · rw [hc]
      exact Or.inr ⟨rfl, h.change_own hr⟩
  · have hmove : g.move σ γ = g := if_neg hid
    rw [hmove, World.close, World.close, h.other hid]
    exact Or.inr ⟨rfl, h.change_other hid _⟩

theorem finish {id : SessionId} (hf : id = σ → Builder.Finishes R) :
    (w'.finish id).1.toOption = (w.finish id).1.toOption ∧
      (w.finish id).2.Beside σ R (w'.finish id).2 := by
  rw [World.finish, World.finish]
  by_cases hid : id = σ
  · subst hid
    obtain ⟨hr, hb⟩ := hf rfl h.own
    exact ⟨hr, (h.change_own hb).leave id⟩
  · rw [h.other hid]
    exact ⟨rfl, (h.change_other hid _).leave id⟩

end World.Beside

end TensorProgram
