import TensorProgram.Proofs.Extension
import TensorProgram.Proofs.Handles

/-!
Footprints. In every state that a program can reach, an operation that goes through changes its
own place and nothing else, and extends what it finds there. It follows that a scope that stays
open keeps everything that is in it, whatever else the program does in the meantime.
-/

namespace TensorProgram

/-- What `b'` has of the scopes that could be open in `b` were open in it, and have only got
more, apart from what is behind the parameters `ids`. -/
structure Builder.Outgrows (ids : List VarId) (b b' : Builder) : Prop where
  nextId : b.nextId ≤ b'.nextId
  kept : ∀ f' ∈ b'.frames, f'.id < b.nextId → ∃ f ∈ b.frames, f.Extends ids f'

namespace Builder.Outgrows

variable {ids ids' : List VarId} {b b' b'' : Builder}

theorem of_frames (hn : b'.nextId = b.nextId) (hf : b'.frames ⊆ b.frames) : Outgrows ids b b' :=
  ⟨Nat.le_of_eq hn.symm, fun f' h _ => ⟨f', hf h, .refl f'⟩⟩

theorem mono (h : Outgrows ids b b') (hi : ids ⊆ ids') : Outgrows ids' b b' where
  nextId := h.nextId
  kept f' hf' hlt := by
    obtain ⟨f, hf, he⟩ := h.kept f' hf' hlt
    exact ⟨f, hf, he.mono hi⟩

theorem trans (h : Outgrows ids b b') (h' : Outgrows ids b' b'') : Outgrows ids b b'' where
  nextId := Nat.le_trans h.nextId h'.nextId
  kept := by
    intro f'' hf'' hlt
    obtain ⟨f', hf', he'⟩ := h'.kept f'' hf'' (Nat.lt_of_lt_of_le hlt h.nextId)
    obtain ⟨f, hf, he⟩ := h.kept f' hf' (he'.id ▸ hlt)
    exact ⟨f, hf, he.trans he'⟩

theorem of_extendsTop (h : ExtendsTop ids b b') : Outgrows ids b b' := by
  cases h with
  | @frame f f' fs top more =>
      refine ⟨Nat.le_refl _, fun g hg _ => ?_⟩
      obtain rfl | hg := List.mem_cons.1 hg
      · exact ⟨f, top ▸ List.mem_cons_self, more⟩
      · exact ⟨g, top ▸ List.mem_cons_of_mem f hg, .refl g⟩
  | result idle more => exact .of_frames rfl (List.Subset.refl _)

theorem of_registersThread {v : Var} {tag : String} (h : b.RegistersThread v tag b') :
    Outgrows ids b b' := by
  cases h with
  | @last above f g ts bottom inside function more =>
      refine ⟨Nat.le_refl _, fun f' hf' _ => ?_⟩
      obtain hf' | hf' := List.mem_append.1 hf'
      · exact ⟨f', bottom ▸ List.mem_append_left _ hf', .refl f'⟩
      · obtain rfl := List.mem_singleton.1 hf'
        refine ⟨f, bottom ▸ List.mem_append_right _ List.mem_cons_self, .of_scope ?_⟩
        rw [function]
        exact .func { FuncScope.Extends.refl ids g with threads := more ▸ List.prefix_append _ _ }

theorem of_callFootprint {s : Supply} {c : Call} {v : Value} (h : b.CallFootprint s c b') :
    Outgrows (Event.called s c v).handle?.toList b b' := by
  cases h with
  | thread only => exact .of_registersThread only
  | argument only => exact .of_extendsTop only
  | other _ _ only => exact (of_extendsTop only).mono (List.nil_subset _)

/-- The end of a session takes its result and leaves its scopes. -/
theorem finish (b : Builder) : Outgrows ids b b.finish.2 :=
  .of_frames b.finish_rest.2 (by rw [frames_finish]; exact List.Subset.refl _)

theorem took {e : Event} (hs : b.WellStacked) (hfl : b.Flat) (h : e.Took b b')
    (call : ∀ s c v, e = .called s c v → b.CallFootprint s c b') :
    Outgrows e.handle?.toList b b' := by
  cases e with
  | entered config => cases h
  | opened id o v =>
      obtain ⟨x, s, s', -, -, rfl⟩ := h
      refine ⟨Nat.le_succ _, fun f hf hlt => ?_⟩
      obtain rfl | hf := List.mem_cons.1 hf
      · exact absurd hlt (Nat.lt_irrefl _)
      · exact ⟨f, hf, .refl f⟩
  | called s c v => exact .of_callFootprint (call s c v rfl)
  | closed id =>
      obtain ⟨f, fs, p, hf, -, hc, hd⟩ := h
      have pop : Outgrows [] b { b with frames := fs } :=
        .of_frames rfl (hf ▸ List.subset_cons_self f fs)
      exact pop.trans (.of_extendsTop (.delivered hs.stacked hfl hf hc hd))
  | discarded id e =>
      obtain ⟨f, fs, hf, -, -, rfl⟩ := h
      exact .of_frames rfl (hf ▸ List.subset_cons_self f fs)
  | failed f =>
      obtain rfl := h
      cases f <;> exact .of_frames rfl (List.Subset.refl _)

end Builder.Outgrows

namespace Program

variable {supply : Supply} {acts : List Action} {p q : Program} {a : Action} {id : SessionId}

/-- What holds of every new builder, after every event and after the end of a session holds of the
builders of a program. -/
theorem builders_induction {I : Builder → Prop} (start : ∀ config, I { config })
    (took : ∀ {b b' e}, I b → Event.Took b b' e → I b') (finish : ∀ {b}, I b → I b.finish.2)
    (supply : Supply) (acts : List Action) (id : SessionId) :
    I ((run supply acts).world.builder id) := by
  have put {w : SessionId → Builder} {i : SessionId} {b : Builder} (h : ∀ id, I (w id))
      (hb : I b) : ∀ id, I (update w i b id) := by
    intro id
    rw [update]
    split
    · exact hb
    · exact h id
  induction acts using List.reverseRecOn generalizing id with
  | nil => exact start {}
  | append_singleton acts a ih =>
      rw [run_append]
      have hl := (run supply acts).step_leads a
      generalize (run supply acts).step a = q at hl
      cases hl with
      | entered t config free => exact put ih (start config) id
      | opened live done => exact put ih (took (ih _) (Builder.Step.opened done).took) id
      | called live done => exact put ih (took (ih _) (Builder.Step.called done).took) id
      | openFailed live done => exact put ih (took (ih _) (Builder.Step.openFailed done).took) id
      | callFailed live done => exact put ih (took (ih _) (Builder.Step.callFailed done).took) id
      | closed of held => exact put ih (took (ih _) (Builder.closeEvent_took _ _ _)) id
      | finished held => exact put ih (finish (ih _)) id
      | occupied _ _ _ | idle _ _ _ | spent _ _ | outside _ _ _ _ _ | left _ | lapsed _ _ =>
          exact ih id

theorem flat_run (supply : Supply) (acts : List Action) (id : SessionId) :
    ((run supply acts).world.builder id).Flat := by
  refine builders_induction ?_ (fun h => h.took) ?_ supply acts id
  · intro config f hf
    cases hf
  · intro b h
    exact h.of_stmts (by rw [Builder.frames_finish])

/-- Scopes are open only in sessions that have been entered. -/
theorem frames_of_entered_le (h : (run supply acts).world.entered ≤ id) :
    ((run supply acts).world.builder id).frames = [] := by
  induction acts using List.reverseRecOn with
  | nil => rfl
  | append_singleton acts a ih =>
      rw [run_append] at h ⊢
      have hp := sound_run supply acts
      have hl := (run supply acts).step_leads a
      generalize (run supply acts).step a = q at hl h
      have other {i : SessionId} {b : Builder} (hi : i < (run supply acts).world.entered)
          (h : (run supply acts).world.entered ≤ id) :
          (update (run supply acts).world.builder i b id).frames = [] := by
        rw [update_of_ne _ _ (Nat.ne_of_gt (Nat.lt_of_lt_of_le hi h))]
        exact ih h
      cases hl with
      | entered t config free =>
          have h' : (run supply acts).world.entered + 1 ≤ id := h
          change (update (run supply acts).world.builder _ { config } id).frames = []
          rw [update_of_ne _ _ (Nat.ne_of_gt h')]
          exact ih (Nat.le_of_succ_le h')
      | opened live _ | called live _ | openFailed live _ | callFailed live _ =>
          exact other (hp.live _ _ live) h
      | closed _ held => exact other (hp.guards _ held) h
      | finished held => exact other (hp.sessions _ held) h
      | occupied _ _ _ | idle _ _ _ | spent _ _ | outside _ _ _ _ _ | left _ | lapsed _ _ =>
          exact ih h

/-- A call made in a session that is live on a thread. -/
theorem callFootprint_run (hs : Function.Injective supply.stream) {t : ThreadId} {c : Call}
    {v : Value} {b : Builder} {s : Supply} (live : (run supply acts).world.live t = some id)
    (done : ((run supply acts).world.builder id).call (run supply acts).world.supply c =
      (.ok v, b, s)) :
    ((run supply acts).world.builder id).CallFootprint (run supply acts).world.supply c b :=
  (Builder.Step.called done).took.callFootprint ((guarded_run supply acts).builders id).stacked
    (notMem_threadIds hs live done)

/-- In one step of a program, a session that has been entered outgrows itself. Only a handle that
is made in the step may take a parameter's place. -/
theorem outgrows_step (hs : Function.Injective supply.stream) (a : Action)
    (hid : id < (run supply acts).world.entered) :
    ∃ since, ((run supply acts).step a).history id = (run supply acts).history id ++ since ∧
      Builder.Outgrows (since.filterMap Event.handle?) ((run supply acts).world.builder id)
        (((run supply acts).step a).world.builder id) := by
  have hw := (guarded_run supply acts).builders
  have hfl := flat_run supply acts
  have hl := (run supply acts).step_leads a
  generalize (run supply acts).step a = q at hl
  have rest {w : Builder} (h : Builder.Outgrows [] ((run supply acts).world.builder id) w) :
      ∃ since, (run supply acts).history id = (run supply acts).history id ++ since ∧
        Builder.Outgrows (since.filterMap Event.handle?) ((run supply acts).world.builder id) w :=
    ⟨[], (List.append_nil _).symm, h⟩
  have put {i : SessionId} {e : Event} {b : Builder}
      (h : i = id → Builder.Outgrows e.handle?.toList ((run supply acts).world.builder i) b) :
      ∃ since, about id ((run supply acts).log ++ [(i, e)]) =
          (run supply acts).history id ++ since ∧
        Builder.Outgrows (since.filterMap Event.handle?) ((run supply acts).world.builder id)
          (update (run supply acts).world.builder i b id) := by
    by_cases hi : i = id
    · subst hi
      refine ⟨[e], about_append_self _ _ _, ?_⟩
      rw [update_self, List.filterMap_cons, List.filterMap_nil]
      cases he : e.handle? <;> simpa [he] using h rfl
    · rw [about_append_of_ne hi, update_of_ne _ _ (Ne.symm hi)]
      exact rest (.of_frames rfl (List.Subset.refl _))
  cases hl with
  | entered t config free => exact put fun hi => absurd hi (Nat.ne_of_gt hid)
  | opened live done =>
      refine put fun _ => .took (hw _) (hfl _) (Builder.Step.opened done).took ?_
      intro _ _ _ he
      cases he
  | called live done =>
      refine put fun _ => .took (hw _) (hfl _) (Builder.Step.called done).took ?_
      intro _ _ _ he
      cases he
      exact callFootprint_run hs live done
  | openFailed live done =>
      refine put fun _ => .took (hw _) (hfl _) (Builder.Step.openFailed done).took ?_
      intro _ _ _ he
      cases he
  | callFailed live done =>
      refine put fun _ => .took (hw _) (hfl _) (Builder.Step.callFailed done).took ?_
      intro _ _ _ he
      cases he
  | @closed _ g of held =>
      refine put fun _ => .took (hw _) (hfl _) (Builder.closeEvent_took _ g.frame g.kind) ?_
      intro s c v he
      obtain h | ⟨e, h⟩ | ⟨e, h⟩ :=
        ((run supply acts).world.builder g.session).closeEvent_eq g.frame g.kind
      · cases h.symm.trans he
      · cases h.symm.trans he
      · cases h.symm.trans he
  | @finished i held =>
      refine rest ?_
      change Builder.Outgrows [] _ (update (run supply acts).world.builder i _ id)
      by_cases hi : id = i
      · rw [hi, update_self]
        exact .finish _
      · rw [update_of_ne _ _ hi]
        exact .of_frames rfl (List.Subset.refl _)
  | occupied _ _ _ | idle _ _ _ | spent _ _ | outside _ _ _ _ _ | left _ | lapsed _ _ =>
      exact rest (.of_frames rfl (List.Subset.refl _))

theorem outgrows_run (hs : Function.Injective supply.stream) (more : List Action)
    (hid : id < (run supply acts).world.entered) :
    id < (run supply (acts ++ more)).world.entered ∧
      ∃ since, (run supply (acts ++ more)).history id = (run supply acts).history id ++ since ∧
        Builder.Outgrows (since.filterMap Event.handle?) ((run supply acts).world.builder id)
          ((run supply (acts ++ more)).world.builder id) := by
  induction more using List.reverseRecOn with
  | nil =>
      rw [List.append_nil]
      exact ⟨hid, [], (List.append_nil _).symm, .of_frames rfl (List.Subset.refl _)⟩
  | append_singleton more a ih =>
      obtain ⟨hlt, since, hh, hg⟩ := ih
      obtain ⟨last, hh', hg'⟩ := outgrows_step hs a hlt
      rw [← List.append_assoc, run_append]
      refine ⟨Nat.lt_of_lt_of_le hlt (entered_le_step _ a), since ++ last, ?_, ?_⟩
      · rw [hh', hh, List.append_assoc]
      · rw [List.filterMap_append]
        exact (hg.mono (List.subset_append_left _ _)).trans
          (hg'.mono (List.subset_append_right _ _))

/-- Opening a scope adds one, and nothing else is changed. -/
theorem openScope_adds {w w' : World} {t : ThreadId} {o : Opening} {g : Guard} {v : Value}
    (h : w.openScope t o = (.ok (g, v), w')) :
    let b := w.builder g.session
    w.live t = some g.session ∧ ∃ scope, w' = { w with
      supply := w'.supply
      builder := update w.builder g.session { b with
        frames := { id := g.frame, scope, stmts := [] } :: b.frames
        nextId := b.nextId + 1 } } := by
  intro b
  cases live : w.live t with
  | none => simp [World.openScope_of_idle live] at h
  | some id =>
      rw [World.openScope_of_live live, Builder.openScope_eq] at h
      cases ho : o.scope (w.builder id) w.supply with
      | error f => simp [ho, Except.map] at h
      | ok x =>
          simp only [ho, Except.map, Prod.mk.injEq, Except.ok.injEq] at h
          obtain ⟨⟨rfl, -⟩, rfl⟩ := h
          exact ⟨rfl, x.1.1, rfl⟩

theorem call_footprint {supply : Supply} (hs : Function.Injective supply.stream)
    {acts : List Action} {w' : World} {t : ThreadId} {c : Call} {v : Value}
    (h : (run supply acts).world.call t c = (.ok v, w')) :
    let w := (run supply acts).world
    ∃ id b', w.live t = some id ∧ (w.builder id).CallFootprint w.supply c b' ∧
      w' = { w with supply := w'.supply, builder := update w.builder id b' } := by
  intro w
  cases live : w.live t with
  | none => simp [World.call_of_idle live, w] at h
  | some id =>
      obtain ⟨r, b', s, hr⟩ : ∃ r b' s, (w.builder id).call w.supply c = (r, b', s) :=
        ⟨_, _, _, rfl⟩
      rw [World.call_of_live live, hr] at h
      obtain ⟨rfl, rfl⟩ := Prod.mk.inj h
      exact ⟨id, b', rfl, callFootprint_run hs live hr, rfl⟩

/-- A scope goes, and the one around it gets longer. -/
theorem close_footprint (supply : Supply) (acts : List Action) {w' : World} {g : Guard}
    (h : (run supply acts).world.close g = (.ok (), w')) :
    let w := (run supply acts).world
    let b := w.builder g.session
    ∃ f fs b', b.frames = f :: fs ∧ f.id = g.frame ∧
      Builder.ExtendsTop [] { b with frames := fs } b' ∧
      w' = { w with builder := update w.builder g.session b' } := by
  intro w b
  obtain ⟨hr, rfl⟩ := Prod.mk.inj h
  have ht := b.closeEvent_took g.frame g.kind
  have he : b.closeEvent g.frame g.kind = .closed g.frame := by
    rw [Builder.closeEvent]
    exact hr ▸ rfl
  rw [he] at ht
  obtain ⟨f, fs, p, hf, hid, hc, hd⟩ := ht
  have hb := (guarded_run supply acts).builders g.session
  exact ⟨f, fs, _, hf, hid, .delivered hb.stacked (flat_run supply acts _) hf hc hd, rfl⟩

/-- A scope that is still open has only got more, apart from what is behind parameters that turned
out to be handles made since. -/
theorem extends_of_open {supply : Supply} (hs : Function.Injective supply.stream)
    (acts more : List Action) {id : SessionId} {f f' : Frame}
    (hf : f ∈ ((run supply acts).world.builder id).frames)
    (hf' : f' ∈ ((run supply (acts ++ more)).world.builder id).frames) (he : f'.id = f.id) :
    ∃ since, (run supply (acts ++ more)).history id = (run supply acts).history id ++ since ∧
      f.Extends (since.filterMap Event.handle?) f' := by
  have hid : id < (run supply acts).world.entered := by
    by_contra hle
    rw [frames_of_entered_le (Nat.le_of_not_lt hle)] at hf
    cases hf
  have ho := ((guarded_run supply acts).builders id).ordered
  rw [List.pairwise_cons] at ho
  have hlt := ho.1 _ (List.mem_map_of_mem hf)
  obtain ⟨-, since, hh, hg⟩ := outgrows_run hs more hid
  obtain ⟨f₀, hf₀, hext⟩ := hg.kept f' hf' (he ▸ hlt)
  have hnodup : (((run supply acts).world.builder id).frames.map Frame.id).Nodup :=
    ho.2.imp Nat.ne_of_gt
  obtain rfl : f₀ = f := List.inj_on_of_nodup_map hnodup hf₀ hf (hext.id.symm.trans he)
  exact ⟨since, hh, hext⟩

/-- Everything that an operation changes when it goes through, and that it is an addition, but for
a handle that takes a parameter's place. A scope that stays open keeps all else that is in it,
whatever the program does. -/
theorem footprints {supply : Supply} (hs : Function.Injective supply.stream)
    (acts more : List Action) :
    let w := (run supply acts).world
    (∀ t o g v w', w.openScope t o = (.ok (g, v), w') →
      let b := w.builder g.session
      w.live t = some g.session ∧ ∃ scope, w' = { w with
        supply := w'.supply
        builder := update w.builder g.session { b with
          frames := { id := g.frame, scope, stmts := [] } :: b.frames
          nextId := b.nextId + 1 } }) ∧
    (∀ t c v w', w.call t c = (.ok v, w') → ∃ id b', w.live t = some id ∧
      (w.builder id).CallFootprint w.supply c b' ∧
      w' = { w with supply := w'.supply, builder := update w.builder id b' }) ∧
    (∀ g w', w.close g = (.ok (), w') →
      let b := w.builder g.session
      ∃ f fs b', b.frames = f :: fs ∧ f.id = g.frame ∧
        Builder.ExtendsTop [] { b with frames := fs } b' ∧
        w' = { w with builder := update w.builder g.session b' }) ∧
    ∀ id, ∀ f ∈ (w.builder id).frames,
      ∀ f' ∈ ((run supply (acts ++ more)).world.builder id).frames, f'.id = f.id →
        ∃ since, (run supply (acts ++ more)).history id = (run supply acts).history id ++ since ∧
          f.Extends (since.filterMap Event.handle?) f' := by
  intro w
  refine ⟨?_, ?_, ?_, ?_⟩
  · exact fun t o g v w' h => openScope_adds h
  · exact fun t c v w' h => call_footprint hs h
  · exact fun g w' h => close_footprint supply acts h
  · exact fun id f hf f' hf' he => extends_of_open hs acts more hf hf' he

/-- A function with a buffer matched to its parameter and a loop in it. A thread is registered from
inside the loop; then the loop is closed and becomes a statement of the function, which is given
another buffer. -/
theorem footprints_threaded :
    let acts : List Action := [.enter 0 {}, .openScope 0 .primFunc,
      .call 0 (.matchBuffer (.param ownParam) [.int32 4] (.float 32) {}),
      .openScope 0 (.loop .serial (.int32 0) (.int32 8) none)]
    let more : List Action := [.call 0 (.envThread "threadIdx.x"), .close ⟨0, 1, .loops⟩,
      .call 0 (.argBuffer "A" handedBuffer)]
    let w := (run .counting acts).world
    let w' := (run .counting (acts ++ more)).world
    (∃ v b', (w.call 0 (.envThread "threadIdx.x")).1 = .ok v ∧
      (w.builder 0).CallFootprint w.supply (.envThread "threadIdx.x") b') ∧
    (∃ scope, ((w.openScope 0 (.branch default)).2.builder 0).frames =
      ⟨2, scope, []⟩ :: (w.builder 0).frames) ∧
    ∃ f ∈ (w.builder 0).frames, ∃ f' ∈ (w'.builder 0).frames, f.Extends [3] f' ∧
      f.stmts.length = 0 ∧ f'.stmts.length = 1 ∧
      ∃ g g' x, f.scope = .func g ∧ f'.scope = .func g' ∧
        g.bufferMap.entries = [(ownParam, x)] ∧ g'.bufferMap.entries[0]? = some (ownParam, x) := by
  intro acts more w w'
  have hinj : Function.Injective Supply.counting.stream := Function.injective_id
  obtain ⟨hopen, hcall, -, hlater⟩ := footprints hinj acts more
  refine ⟨?_, ?_, ?_⟩
  · obtain ⟨id, b', live, hb, -⟩ := hcall 0 (.envThread "threadIdx.x") _ _ rfl
    cases live
    exact ⟨_, b', rfl, hb⟩
  · obtain ⟨-, scope, hw⟩ := hopen 0 (.branch default) _ _ _ rfl
    exact ⟨scope, congrArg (fun w => (w.builder 0).frames) hw⟩
  · obtain ⟨since, hh, hext⟩ :=
      hlater 0 _ (List.mem_cons_of_mem _ List.mem_cons_self) _ List.mem_cons_self rfl
    have hsince : since.filterMap Event.handle? = [3] := by
      have hlist := congrArg (List.filterMap Event.handle?) hh
      rw [List.filterMap_append] at hlist
      exact hlist.symm
    rw [hsince] at hext
    exact ⟨_, List.mem_cons_of_mem _ List.mem_cons_self, _, List.mem_cons_self, hext, rfl, rfl,
      _, _, _, rfl, rfl, rfl, rfl⟩

/-- An argument takes the place of the buffer that was matched to what is its handle now: the
entry is where it was, with another buffer. -/
theorem usurped_entry_replaced :
    let w := (run .counting (usurping.take 3)).world
    let w' := (run .counting usurping).world
    let argument : Buffer := { handedBuffer with name := "A" }
    w' = (w.call 0 (.argBuffer "A" handedBuffer)).2 ∧
    (∃ v, (w.call 0 (.argBuffer "A" handedBuffer)).1 = .ok v) ∧
    ∃ f f' g g' p, (w.builder 0).frames = [f] ∧ (w'.builder 0).frames = [f'] ∧
      f.scope = .func g ∧ f'.scope = .func g' ∧ g.bufferMap.entries = [(p, usurpedBuffer)] ∧
      g'.bufferMap.entries = [(p, argument)] ∧ argument ≠ usurpedBuffer := by
  intro w w' argument
  have other : argument.name ≠ usurpedBuffer.name := by decide
  exact ⟨rfl, ⟨_, rfl⟩, _, _, _, _, _, rfl, rfl, rfl, rfl, rfl, rfl,
    fun h => other (congrArg Buffer.name h)⟩

end Program

end TensorProgram
