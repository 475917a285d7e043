import TensorProgram.Proofs.Transaction

/-!
Failures leave nothing half-done. A refused opening or call, and a refused attempt to
close a scope that is not the innermost one, change nothing but the remembered mistake;
when the innermost scope cannot be closed, that one scope is gone and nothing else is
touched. Literal bounds that no word can tell apart leave no trace at all.
-/

namespace TensorProgram.Builder

theorem failed_operation_atomic (b : Builder) (s : Supply) :
    (∀ o e, (b.openScope s o).1 = .error (.refused e) →
      (b.openScope s o).2.1 = { b with firstError := b.firstError.or (some e) }) ∧
    (∀ c e, (b.call s c).1 = .error (.refused e) →
      (b.call s c).2.1 = { b with firstError := b.firstError.or (some e) }) ∧
    (∀ o v, (b.openScope s o).1 = .error (.overflow v) → (b.openScope s o).2.1 = b) ∧
    (∀ c v, (b.call s c).1 = .error (.overflow v) → (b.call s c).2.1 = b) ∧
    (∀ id kind e, (∀ f ∈ b.frames.head?, f.id ≠ id) → (b.close id kind).1 = .error e →
      (b.close id kind).2 = { b with firstError := b.firstError.or (some e) }) ∧
    (∀ f fs kind e, b.frames = f :: fs → (b.close f.id kind).1 = .error e →
      (b.close f.id kind).2 =
        { b with frames := fs, firstError := b.firstError.or (some e) }) := by
  refine ⟨?_, ?_, ?_, ?_, ?_, ?_⟩
  · intro o e h
    exact openScope_error (Prod.ext h rfl)
  · intro c e h
    exact call_error (Prod.ext h rfl)
  · intro o v h
    exact openScope_error (Prod.ext h rfl)
  · intro c v h
    exact call_error (Prod.ext h rfl)
  · intro id kind e hid h
    obtain ⟨e', hc⟩ := close_of_not_top kind hid
    rw [hc] at h ⊢
    cases h
    rfl
  · intro f fs kind e hf h
    rw [close_of_top kind hf] at h ⊢
    cases hr : (f.close b.config).bind { b with frames := fs }.delivered with
    | ok b' => simp [hr] at h
    | error e' =>
        simp only [hr] at h ⊢
        cases h
        rfl

/-- In a bare block with a predicate, which lies in a function. -/
theorem failed_operation_atomic_in_block :
    let outer : Frame := ⟨0, .func {}, []⟩
    let inner : Frame := ⟨1, .block { name := "b", bare := true, predicate := some default }, []⟩
    let b : Builder := { config := {}, frames := [inner, outer], nextId := 2 }
    (b.openScope .counting .primFunc).2.1 = { b with firstError := some (.nestedFunction .block) } ∧
    (b.call .counting (.guard default)).2.1 =
      { b with firstError := some (.duplicateSetting .block "where") } ∧
    (b.openScope .counting
      (.loop .serial (.int64 (-1)) (.int64 9223372036854775807) none)).2.1 = b ∧
    (b.close 0 .primFunc).2 =
      { b with firstError := some (.outOfOrderClose .primFunc .block) } ∧
    (b.close 1 .block).2 =
      { b with frames := [outer], firstError := some (.bareBlockPredicate "b") } := by
  intro outer inner b
  obtain ⟨hopen, hcall, hover, -, hbelow, htop⟩ := failed_operation_atomic b .counting
  refine ⟨hopen _ _ rfl, hcall _ _ rfl, hover _ _ rfl, hbelow _ _ _ ?_ rfl,
    htop inner _ _ _ rfl rfl⟩
  simp [b, inner]

end TensorProgram.Builder
