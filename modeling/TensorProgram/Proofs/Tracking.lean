import Mathlib.Data.List.Nodup
import TensorProgram.Proofs.Guards
import TensorProgram.Proofs.Replay
import TensorProgram.Proofs.Sessions

/-!
Runs with mistakes in them. Which scopes are open in a session, and what has been done directly in
each of them, can be read off its history whatever has gone wrong: what was refused is no part of
it, and a scope whose product was not accepted is gone with all that was done in it. This holds
for as long as there is anything open, also after the end of the session.
-/

namespace TensorProgram

theorem Builder.finish_of_frames {b : Builder} (h : b.frames ≠ []) :
    b.finish.2.result = b.result := by
  rw [finish]
  cases b.firstError with
  | some e => rfl
  | none =>
      have hn : ¬b.frames.isEmpty = true := mt List.isEmpty_iff.1 h
      dsimp only
      rw [if_neg hn]

/-- The number of a scope and its kind. -/
def Pending.key (x : Pending) : Nat × ScopeKind := (x.id, x.opening.kind)

/-- The scope `y` is the scope `x` at a later moment. -/
structure Pending.Lasts (x y : Pending) : Prop where
  id : y.id = x.id
  opening : y.opening = x.opening
  value : y.value = x.value
  items : x.items <+: y.items

namespace Pending.Lasts

variable {x y z : Pending}

theorem refl (x : Pending) : x.Lasts x := ⟨rfl, rfl, rfl, List.prefix_refl _⟩

theorem add (x : Pending) (i : Item) : x.Lasts { x with items := x.items ++ [i] } :=
  ⟨rfl, rfl, rfl, List.prefix_append _ _⟩

theorem trans (h : x.Lasts y) (h' : y.Lasts z) : x.Lasts z :=
  ⟨h'.id.trans h.id, h'.opening.trans h.opening, h'.value.trans h.value, h.items.trans h'.items⟩

end Pending.Lasts

namespace Nest

/-- The nest after one more event of any run. -/
def track (n : Nest) : Event → Nest
  | .discarded _ _ => { n with scopes := n.scopes.tail }
  | e => n.follow e

def tracked (H : List Event) : Nest := H.foldl track {}

theorem tracked_append (H : List Event) (e : Event) :
    tracked (H ++ [e]) = (tracked H).track e := by
  simp [tracked]

variable {c : Config} {n : Nest} {b b' : Builder} {e : Event}

/-- Every event keeps the nest and the builder in correspondence, mistakes included. -/
theorem Models.tracks (h : n.Models c b) (hc : b.config = c)
    (hs : Scope.Stacked (b.frames.map Frame.scope)) (ht : e.Took b b') :
    (n.track e).Models c b' := by
  cases e with
  | entered config => cases ht
  | opened id o v => exact h.took hc hs ht rfl
  | called s k v => exact h.took hc hs ht rfl
  | closed id => exact h.took hc hs ht rfl
  | discarded id e =>
      obtain ⟨f, fs, hf, -, -, rfl⟩ := ht
      obtain ⟨x, xs, hn, -, -, -, hrest⟩ := h.scopes.scopes_of_cons hf
      simp only [track, hn, List.tail_cons]
      exact ⟨hrest, h.result⟩
  | failed f =>
      obtain rfl := ht
      cases f with
      | refused e => exact ⟨h.scopes, h.result⟩
      | overflow o => exact h

/-- The calls among the items of the open scopes have been made. -/
theorem called_mem_of_tracked {H : List Event} : ∀ x ∈ (tracked H).scopes, ∀ s k u,
    .call s k u ∈ x.items → .called s k u ∈ H := by
  induction H using List.reverseRecOn with
  | nil => simp [tracked]
  | append_singleton H e ih =>
      rw [tracked_append]
      generalize tracked H = n at ih
      have old : ∀ x ∈ n.scopes, ∀ s k u, .call s k u ∈ x.items → .called s k u ∈ H ++ [e] :=
        fun x hx s k u hi => List.mem_append_left _ (ih x hx s k u hi)
      have add (i : Item) (xs : List Pending) (hxs : xs ⊆ n.scopes)
          (hi : ∀ s k u, i = .call s k u → .called s k u ∈ H ++ [e]) :
          ∀ x ∈ ({ n with scopes := xs }.add i).scopes, ∀ s k u, .call s k u ∈ x.items →
            .called s k u ∈ H ++ [e] := by
        cases xs with
        | nil => simp [Nest.add]
        | cons y ys =>
            rw [List.cons_subset] at hxs
            refine List.forall_mem_cons.2 ⟨?_, fun x hx => old x (hxs.2 hx)⟩
            intro s k u hm
            obtain hm | hm := List.mem_append.1 hm
            · exact old y hxs.1 s k u hm
            · exact hi s k u (List.mem_singleton.1 hm).symm
      cases e with
      | opened id o v => exact List.forall_mem_cons.2 ⟨by simp, old⟩
      | called s k u =>
          refine add (.call s k u) n.scopes (List.Subset.refl _) ?_
          rintro _ _ _ ⟨⟩
          simp
      | closed id =>
          simp only [track, follow]
          split
          · rename_i x xs hn
            refine add _ xs (by rw [hn]; exact List.subset_cons_self x xs) ?_
            rintro _ _ _ ⟨⟩
          · exact old
      | discarded id e => exact fun x hx => old x (List.mem_of_mem_tail hx)
      | entered _ | failed _ => exact old

/-- What holds of the items of every open scope holds after one more event, if it holds of no
items and of one more item whenever a call goes through or a scope is closed. -/
theorem Models.track_items {I : List Item → Prop} (hm : n.Models c b) (ht : e.Took b b')
    (start : I [])
    (call : ∀ s k u eff s' x xs, e = .called s k u → k.effect b s = .ok ((eff, u), s') →
      n.scopes = x :: xs → I x.items → I (x.items ++ [.call s k u]))
    (scope : ∀ y x xs, n.scopes = y :: x :: xs → I x.items →
      I (x.items ++ [.scope y.id y.opening y.value y.items]))
    (h : ∀ x ∈ n.scopes, I x.items) : ∀ x ∈ (n.track e).scopes, I x.items := by
  cases e with
  | entered config => cases ht
  | opened id o v => exact List.forall_mem_cons.2 ⟨start, h⟩
  | called s k u =>
      obtain ⟨eff, s', he, -⟩ := ht
      simp only [track, follow, add]
      cases hn : n.scopes with
      | nil => simp
      | cons x xs =>
          rw [hn, List.forall_mem_cons] at h
          exact List.forall_mem_cons.2 ⟨call s k u eff s' x xs rfl he hn h.1, h.2⟩
  | closed id =>
      obtain ⟨f, fs, p, hf, rfl, -⟩ := ht
      obtain ⟨y, ys, hn, hid, -⟩ := hm.scopes.scopes_of_cons hf
      rw [hn] at h
      simp only [track, follow, hn, add]
      cases ys with
      | nil => simp
      | cons x xs =>
          rw [List.forall_mem_cons, List.forall_mem_cons] at h
          rw [hid]
          exact List.forall_mem_cons.2 ⟨scope y x xs hn h.2.1, h.2.2⟩
  | discarded id e => exact fun x hx => h x (List.mem_of_mem_tail hx)
  | failed f => exact h

/-- No open scope loses what has been done in it, and a new one has a new number. -/
theorem Models.lasts_track (hm : n.Models c b) (ht : e.Took b b') :
    ∀ y ∈ (n.track e).scopes, (∃ x ∈ n.scopes, x.Lasts y) ∨ y.id = b.nextId := by
  have same {xs : List Pending} (hxs : xs ⊆ n.scopes) :
      ∀ y ∈ xs, (∃ x ∈ n.scopes, x.Lasts y) ∨ y.id = b.nextId :=
    fun y hy => .inl ⟨y, hxs hy, .refl y⟩
  have add (i : Item) (xs : List Pending) (hxs : xs ⊆ n.scopes) :
      ∀ y ∈ ({ n with scopes := xs }.add i).scopes,
        (∃ x ∈ n.scopes, x.Lasts y) ∨ y.id = b.nextId := by
    cases xs with
    | nil => simp [Nest.add]
    | cons x xs =>
        rw [List.cons_subset] at hxs
        exact List.forall_mem_cons.2 ⟨.inl ⟨x, hxs.1, .add x i⟩, same hxs.2⟩
  cases e with
  | entered config => cases ht
  | opened id o v =>
      obtain ⟨scope, s, s', -, hid, -⟩ := ht
      exact List.forall_mem_cons.2 ⟨.inr hid, same (List.Subset.refl _)⟩
  | called s k v => exact add _ n.scopes (List.Subset.refl _)
  | closed id =>
      obtain ⟨f, fs, p, hf, -, -, -⟩ := ht
      obtain ⟨x, xs, hn, -⟩ := hm.scopes.scopes_of_cons hf
      simp only [track, follow, hn]
      rw [← hn]
      exact add _ xs (by rw [hn]; exact List.subset_cons_self x xs)
  | discarded id e => exact same fun _ => List.mem_of_mem_tail
  | failed f => exact same (List.Subset.refl _)

theorem map_key_add (n : Nest) (i : Item) :
    (n.add i).scopes.map Pending.key = n.scopes.map Pending.key := by
  rw [add]
  split <;> simp [Pending.key, *]

/-- The scopes are numbered and of the kinds that the openings were of. -/
theorem keys_track (ht : e.Took b b') (h : n.scopes.map Pending.key = b.frames.map Frame.key) :
    (n.track e).scopes.map Pending.key = b'.frames.map Frame.key := by
  have hm := ht.moves
  cases e with
  | entered config => cases ht
  | opened id o v =>
      rw [hm.2.2, ← h]
      rfl
  | called s k v => exact (map_key_add n _).trans (h.trans hm.2.symm)
  | closed id =>
      obtain ⟨-, kind, hk⟩ := hm
      simp only [track, follow]
      cases hn : n.scopes with
      | nil => simp [hn, hk] at h
      | cons x xs =>
          dsimp only
          rw [map_key_add]
          rw [hn, hk, List.map_cons] at h
          exact (List.cons.inj h).2
  | discarded id e =>
      obtain ⟨-, kind, hk⟩ := hm
      rw [hk] at h
      rw [track, List.map_tail, h, List.tail_cons]
  | failed f => rw [hm.2, ← h]; rfl

end Nest

namespace Program

variable {supply : Supply} {acts : List Action} {p q : Program} {a : Action} {id : SessionId}

/-- What is open in session `id`, innermost first, as its history tells. -/
def pending (p : Program) (id : SessionId) : List Pending := (Nest.tracked (p.history id)).scopes

/-- What a step of the program comes to for session `id`. An event is one of a session that has
not ended or has scopes open; the end of a session takes the result if nothing is open. -/
inductive Passes (p q : Program) (id : SessionId) : Prop where
  | rest (history : q.history id = p.history id)
      (config : (q.world.builder id).config = (p.world.builder id).config)
      (frames : (q.world.builder id).frames = (p.world.builder id).frames)
      (nextId : (q.world.builder id).nextId = (p.world.builder id).nextId)
      (held : id ∈ q.sessions → id ∈ p.sessions)
      (result : id ∈ q.sessions ∨ (p.world.builder id).frames ≠ [] →
        (q.world.builder id).result = (p.world.builder id).result)
  | entered (config : Config) (new : p.history id = [])
      (history : q.history id = [.entered config])
      (builder : q.world.builder id = { config })
  | event {e : Event} (history : q.history id = p.history id ++ [e])
      (took : e.Took (p.world.builder id) (q.world.builder id))
      (active : id ∈ p.sessions ∨ (p.world.builder id).frames ≠ [])

/-- A step that leaves the builder of the session as it is. -/
theorem Passes.of_builder_eq (history : q.history id = p.history id)
    (builder : q.world.builder id = p.world.builder id)
    (held : id ∈ q.sessions → id ∈ p.sessions) : p.Passes q id :=
  .rest history (congrArg _ builder) (congrArg _ builder) (congrArg _ builder) held
    fun _ => congrArg _ builder

theorem Passes.same (h : q = p) : p.Passes q id := by
  subst h
  exact .of_builder_eq rfl rfl fun h => h

/-- An event of one session. -/
theorem passes_advance {i : SessionId} {e : Event} {b : Builder}
    (hl : q.log = p.log ++ [(i, e)]) (hs : q.sessions = p.sessions)
    (hb : q.world.builder = update p.world.builder i b) (ht : e.Took (p.world.builder i) b)
    (ho : i ∈ p.sessions ∨ (p.world.builder i).frames ≠ []) : p.Passes q id := by
  by_cases hi : i = id
  · subst hi
    refine .event (e := e) ?_ ?_ ho
    · rw [history, hl, about_append_self]
      rfl
    · rwa [hb, update_self]
  · refine .of_builder_eq ?_ ?_ (by rw [hs]; exact fun h => h)
    · rw [history, hl, about_append_of_ne hi]
      rfl
    · rw [hb, update_of_ne _ _ (Ne.symm hi)]

theorem passes (hp : p.Sound) (hs : p.Seated) (hg : p.Guarded) (a : Action) (id : SessionId) :
    p.Passes (p.step a) id := by
  have hl := p.step_leads a
  generalize p.step a = q at hl
  cases hl with
  | entered t config free =>
      by_cases hi : p.world.entered = id
      · subst hi
        refine .entered config hp.about_entered ?_ (update_self _ _ _)
        rw [history, note, about_append_self, hp.about_entered, List.nil_append]
      · refine .of_builder_eq ?_ (update_of_ne _ _ (Ne.symm hi)) ?_
        · rw [history, note, about_append_of_ne hi]
          rfl
        · intro hm
          exact (List.mem_cons.1 hm).resolve_left (Ne.symm hi)
  | opened live done =>
      exact passes_advance rfl rfl rfl (Builder.Step.opened done).took (.inl (hs.held _ _ live))
  | called live done =>
      exact passes_advance rfl rfl rfl (Builder.Step.called done).took (.inl (hs.held _ _ live))
  | openFailed live done =>
      exact passes_advance rfl rfl rfl (Builder.Step.openFailed done).took
        (.inl (hs.held _ _ live))
  | callFailed live done =>
      exact passes_advance rfl rfl rfl (Builder.Step.callFailed done).took
        (.inl (hs.held _ _ live))
  | @closed _ g of held =>
      refine passes_advance rfl rfl rfl (Builder.closeEvent_took _ g.frame g.kind) (.inr ?_)
      intro hn
      have hm := hg.opened g held
      rw [hn] at hm
      cases hm
  | idle _ _ _ | outside _ _ _ _ _ => exact .of_builder_eq rfl rfl fun h => h
  | @finished i held =>
      have hm (h : id ∈ p.sessions.filter (· ≠ i)) : id ∈ p.sessions ∧ id ≠ i := by
        simpa [List.mem_filter] using h
      by_cases hi : id = i
      · subst hi
        have hb : (p.world.finish id).2.builder id = (p.world.builder id).finish.2 :=
          update_self _ _ _
        obtain ⟨hc, hn⟩ := (p.world.builder id).finish_rest
        refine .rest rfl ?_ ?_ ?_ (fun h => (hm h).1) fun h => ?_
        · exact (congrArg _ hb).trans hc
        · exact (congrArg _ hb).trans (Builder.frames_finish _)
        · exact (congrArg _ hb).trans hn
        · refine (congrArg _ hb).trans (Builder.finish_of_frames (h.resolve_left ?_))
          exact fun h => (hm h).2 rfl
      · exact .of_builder_eq rfl (update_of_ne _ _ hi) fun h => (hm h).1
  | left held =>
      exact .of_builder_eq rfl rfl fun h => (List.mem_filter.1 h).1
  | occupied _ _ _ | spent _ _ | lapsed _ _ => exact .same rfl

/-- The nest that the history of session `id` tells of is that of its builder, unless the session
has ended with nothing open. -/
def Tracks (p : Program) (id : SessionId) : Prop :=
  (Nest.tracked (p.history id)).Models (p.world.builder id).config (p.world.builder id) ∨
    p.pending id = [] ∧ (p.world.builder id).frames = [] ∧ id ∉ p.sessions

theorem Tracks.models (h : p.Tracks id)
    (ho : id ∈ p.sessions ∨ (p.world.builder id).frames ≠ []) :
    (Nest.tracked (p.history id)).Models (p.world.builder id).config (p.world.builder id) := by
  obtain h | ⟨-, hf, hid⟩ := h
  · exact h
  · exact (ho.elim hid fun hn => hn hf).elim

theorem Tracks.passes (h : p.Tracks id) (hg : p.Guarded) (hq : p.Passes q id) : q.Tracks id := by
  cases hq with
  | rest history config frames nextId held result =>
      rw [Tracks, pending, history, frames]
      obtain h | ⟨hn, hf, hid⟩ := h
      · by_cases ho : id ∈ q.sessions ∨ (p.world.builder id).frames ≠ []
        · refine .inl ⟨?_, ?_⟩
          · rw [config, frames]
            exact h.scopes
          · rw [config, result ho]
            exact h.result
        · rw [not_or, not_not] at ho
          exact .inr ⟨(ho.2 ▸ h.scopes).scopes_eq_nil, ho.2, ho.1⟩
      · exact .inr ⟨hn, hf, fun hq => hid (held hq)⟩
  | entered config new history builder =>
      rw [Tracks, history, builder]
      exact .inl ⟨trivial, rfl⟩
  | event history took active =>
      have hm := (h.models active).tracks rfl (hg.builders id).stacked took
      rw [Tracks, history, Nest.tracked_append, took.config]
      exact .inl hm

theorem tracks_run (supply : Supply) (acts : List Action) (id : SessionId) :
    (run supply acts).Tracks id := by
  induction acts using List.reverseRecOn with
  | nil => exact .inl ⟨trivial, rfl⟩
  | append_singleton acts a ih =>
      have hg := guarded_run supply acts
      rw [run_append]
      exact ih.passes hg (passes (sound_run supply acts) (seated_run supply acts) hg a id)

/-- Whatever has gone wrong in a session, its open scopes hold what its history tells. -/
theorem shows_run (supply : Supply) (acts : List Action) (id : SessionId) :
    Nest.Shows ((run supply acts).world.builder id).config ((run supply acts).pending id)
      ((run supply acts).world.builder id).frames := by
  obtain h | ⟨hn, hf, -⟩ := tracks_run supply acts id
  · exact h.scopes
  · rw [hn, hf]
    trivial

/-- The open scopes have the numbers and kinds that the history tells. -/
theorem keys_run (supply : Supply) (acts : List Action) (id : SessionId) :
    ((run supply acts).pending id).map Pending.key =
      ((run supply acts).world.builder id).frames.map Frame.key := by
  induction acts using List.reverseRecOn with
  | nil => rfl
  | append_singleton acts a ih =>
      have hq := passes (sound_run supply acts) (seated_run supply acts) (guarded_run supply acts)
        a id
      rw [run_append]
      generalize (run supply acts).step a = q at hq
      cases hq with
      | rest history config frames _ _ _ => rw [pending, history, frames, ← ih, pending]
      | entered config new history builder =>
          rw [pending, history, builder]
          rfl
      | event history took active =>
          rw [pending, history, Nest.tracked_append]
          exact Nest.keys_track took ih

/-- What holds of the items of every scope when it is opened, and is kept when a call goes through
in it or a scope is closed in it, holds of the items of every open scope. -/
theorem items_run {I : List Item → Prop} (start : I [])
    (call : ∀ H b s k u eff s' x xs, H ++ [.called s k u] <+: (run supply acts).history id →
      (Nest.tracked H).Models b.config b → k.effect b s = .ok ((eff, u), s') →
      (Nest.tracked H).scopes = x :: xs → I x.items → I (x.items ++ [.call s k u]))
    (scope : ∀ n b y x xs, Nest.Models b.config n b → Scope.Stacked (b.frames.map Frame.scope) →
      n.scopes = y :: x :: xs → I x.items →
      I (x.items ++ [.scope y.id y.opening y.value y.items])) :
    ∀ x ∈ (run supply acts).pending id, I x.items := by
  induction acts using List.reverseRecOn with
  | nil => simp [pending, run, history, about, Nest.tracked]
  | append_singleton acts a ih =>
      have hg := guarded_run supply acts
      have hq := passes (sound_run supply acts) (seated_run supply acts) hg a id
      rw [run_append] at call ⊢
      generalize (run supply acts).step a = q at call hq
      cases hq with
      | rest history _ _ _ _ _ =>
          rw [history] at call
          rw [pending, history]
          exact ih call
      | entered config new history builder =>
          rw [pending, history]
          simp [Nest.tracked, Nest.track, Nest.follow]
      | @event e history took active =>
          rw [history] at call
          have hm := (tracks_run supply acts id).models active
          rw [pending, history, Nest.tracked_append]
          refine hm.track_items took start ?_ (scope _ _ · · · hm (hg.builders id).stacked) (ih ?_)
          · rintro s k u eff s' x xs rfl
            exact call _ _ s k u eff s' x xs (List.prefix_refl _) hm
          · intro H b s k u eff s' x xs hH
            exact call H b s k u eff s' x xs (hH.trans (List.prefix_append _ _))

/-- What has been done directly in a scope stays done for as long as the scope is open. -/
theorem pending_lasts {more : List Action} {x y : Pending}
    (hx : x ∈ (run supply acts).pending id) (hy : y ∈ (run supply (acts ++ more)).pending id)
    (he : y.id = x.id) : x.Lasts y := by
  have ordered := ((guarded_run supply acts).builders id).ordered
  have hids : ((run supply acts).pending id).map Pending.id =
      ((run supply acts).world.builder id).frames.map Frame.id := by
    have hk := congrArg (List.map Prod.fst) (keys_run supply acts id)
    rwa [List.map_map, List.map_map] at hk
  have hlt : x.id < ((run supply acts).world.builder id).nextId :=
    (List.pairwise_cons.1 ordered).1 x.id (hids ▸ List.mem_map_of_mem hx)
  -- The number of the scope is not used again, and the session is not entered again.
  suffices h : (run supply (acts ++ more)).history id ≠ [] ∧
      x.id < ((run supply (acts ++ more)).world.builder id).nextId ∧
      ∀ y ∈ (run supply (acts ++ more)).pending id, y.id = x.id → x.Lasts y from h.2.2 y hy he
  clear hy he y
  induction more using List.reverseRecOn with
  | nil =>
      rw [List.append_nil]
      refine ⟨?_, hlt, fun y hy he => ?_⟩
      · intro hn
        simp [pending, hn, Nest.tracked] at hx
      · rw [← hids] at ordered
        have hn : ((run supply acts).pending id).map Pending.id |>.Nodup :=
          (List.pairwise_cons.1 ordered).2.imp fun h => Nat.ne_of_gt h
        rw [List.inj_on_of_nodup_map hn hy hx he]
        exact .refl x
  | append_singleton more a ih =>
      have hg := guarded_run supply (acts ++ more)
      have hq := passes (sound_run supply _) (seated_run supply _) hg a id
      have hm := fun active => (tracks_run supply (acts ++ more) id).models active
      rw [← List.append_assoc, run_append]
      generalize (run supply (acts ++ more)).step a = q at hq
      obtain ⟨hold, hnext, hlast⟩ := ih
      cases hq with
      | rest history config frames nextId held result =>
          rw [pending, history, nextId]
          exact ⟨hold, hnext, hlast⟩
      | entered config new history builder => exact absurd new hold
      | @event e history took active =>
          rw [pending, history, Nest.tracked_append]
          refine ⟨by simp, ?_, fun y hy he => ?_⟩
          · exact Nat.lt_of_lt_of_le hnext took.moves.nextId_le
          · obtain ⟨z, hz, hzy⟩ | hy := (hm active).lasts_track took y hy
            · exact (hlast z hz (hzy.id.symm.trans he)).trans hzy
            · exact absurd (hy.symm.trans he) (Nat.ne_of_gt hnext)

/-- What has happened in a session has happened. -/
theorem history_lasts (supply : Supply) (acts more : List Action) (id : SessionId) :
    (run supply acts).history id <+: (run supply (acts ++ more)).history id := by
  induction more using List.reverseRecOn with
  | nil => exact (List.append_nil acts).symm ▸ List.prefix_refl _
  | append_singleton more a ih =>
      have hq := passes (sound_run supply (acts ++ more)) (seated_run supply _)
        (guarded_run supply _) a id
      rw [← List.append_assoc, run_append]
      generalize (run supply (acts ++ more)).step a = q at hq
      refine ih.trans ?_
      cases hq with
      | rest history _ _ _ _ _ => exact history ▸ List.prefix_refl _
      | entered config new _ _ =>
          rw [new]
          exact List.nil_prefix
      | event history _ _ =>
          rw [history]
          exact List.prefix_append _ _

/-- A scope that is opened is the innermost one, and nothing has been done in it. -/
theorem pending_opened {t : ThreadId} {o : Opening} {n : Nat} {kind : ScopeKind} {v : Value}
    {b : Builder} {s : Supply} (live : (run supply acts).world.live t = some id)
    (done : ((run supply acts).world.builder id).openScope (run supply acts).world.supply o =
      (.ok (n, kind, v), b, s)) :
    (run supply (acts ++ [.openScope t o])).pending id =
      ⟨n, o, v, []⟩ :: (run supply acts).pending id := by
  rw [run_append, step_openScope_of_live live done, pending, pending, history]
  dsimp only
  rw [log_advance, about_append_self, Nest.tracked_append]
  rfl

/-- A call that goes through is added to what has been done in the innermost scope. -/
theorem pending_call {t : ThreadId} {k : Call} {v : Value} {b : Builder} {s : Supply}
    {x : Pending} {xs : List Pending} (live : (run supply acts).world.live t = some id)
    (done : ((run supply acts).world.builder id).call (run supply acts).world.supply k =
      (.ok v, b, s)) (hn : (run supply acts).pending id = x :: xs) :
    (run supply (acts ++ [.call t k])).pending id =
      { x with items := x.items ++ [.call (run supply acts).world.supply k v] } :: xs := by
  rw [run_append, step_call_of_live live done]
  rw [pending] at hn ⊢
  rw [history, log_advance, about_append_self, Nest.tracked_append]
  change ((Nest.tracked ((run supply acts).history id)).add _).scopes = _
  rw [Nest.add, hn]

end Program

end TensorProgram
