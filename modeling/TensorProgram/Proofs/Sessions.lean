import TensorProgram.Proofs.Interleaving

/-!
Sessions. A session is live on the thread that it was entered on until it is finished or left,
and has that thread to itself. Its guards may outlive it: what becomes of them shows in the
builder of their own session and nowhere else, even where a later session has scopes of the same
numbers and kinds.
-/

namespace TensorProgram

theorem update_eq {α β : Type} [DecidableEq α] (f : α → β) (a : α) (b : β) :
    update f a b = Function.update f a b := by
  funext x
  simp [update, Function.update_apply]

/-- On this thread session `id` is live: every operation goes to its builder, and no other session
can be entered. -/
structure World.Serves (w : World) (t : ThreadId) (id : SessionId) : Prop where
  current : ∀ op, w.current t op = .ok id
  openScope : ∀ o r b s, (w.builder id).openScope w.supply o = (r, b, s) →
    w.openScope t o = (r.map fun x => (⟨id, x.1, x.2.1⟩, x.2.2),
      { w with supply := s, builder := update w.builder id b })
  call : ∀ c r b s, (w.builder id).call w.supply c = (r, b, s) →
    w.call t c = (r, { w with supply := s, builder := update w.builder id b })
  enter : ∀ config, w.enter t config = (.error .builderAlreadyActive, w)

/-- On this thread no session is live: there is nothing that an operation could go to, and a new
session can be entered. A call with an argument has made a handle for it by then, which is lost. -/
structure World.Idle (w : World) (t : ThreadId) : Prop where
  current : ∀ op, w.current t op = .error (.noActiveBuilder op)
  openScope : ∀ o, w.openScope t o = (.error (.refused (.noActiveBuilder o.op)), w)
  call : ∀ c, w.call t c =
    (.error (.refused (.noActiveBuilder c.op)), { w with supply := c.unserved w.supply })
  enter : ∀ config, w.enter t config = (.ok w.entered, { w with
    entered := w.entered + 1
    builder := update w.builder w.entered { config }
    live := update w.live t (some w.entered) })

namespace World

variable {w : World} {t : ThreadId}

theorem serves_of_live {id : SessionId} (h : w.live t = some id) : w.Serves t id where
  current op := by simp [current, h]
  openScope o r b s hr := by rw [openScope_of_live h, hr]
  call c r b s hr := by rw [call_of_live h, hr]
  enter config := by simp [enter, h]

theorem idle_of_live (h : w.live t = none) : w.Idle t where
  current op := by simp [current, h]
  openScope := openScope_of_idle h
  call := call_of_idle h
  enter config := by simp [enter, h]

theorem live_leave_iff {id id' : SessionId} :
    (w.leave id).live t = some id' ↔ w.live t = some id' ∧ id ≠ id' := by
  simp only [leave]
  split
  · rename_i hl
    simp only [reduceCtorEq, false_iff, not_and, not_not, hl, Option.some.injEq, imp_self]
  · rename_i hl
    refine ⟨fun h => ⟨h, ?_⟩, And.left⟩
    rintro rfl
    exact hl h

end World

namespace Program

variable {p q : Program} {a : Action} {k : SessionId}

/-- Every session in hand has a thread, every live session is in hand, and none has two threads. -/
structure Seated (p : Program) : Prop where
  held : ∀ t id, p.world.live t = some id → id ∈ p.sessions
  seat : ∀ id ∈ p.sessions, ∃ t, p.world.live t = some id
  single : ∀ t t' id, p.world.live t = some id → p.world.live t' = some id → t = t'

namespace Seated

theorem quiet (h : p.Seated) (hl : q.world.live = p.world.live) (hs : q.sessions = p.sessions) :
    q.Seated where
  held := hl ▸ hs ▸ h.held
  seat := hl ▸ hs ▸ h.seat
  single := hl ▸ h.single

theorem enter (h : p.Seated) (hp : p.Sound) {t : ThreadId} (ht : p.world.live t = none)
    (hl : q.world.live = update p.world.live t (some p.world.entered))
    (hs : q.sessions = p.world.entered :: p.sessions) : q.Seated := by
  have new (t' : ThreadId) : q.world.live t' = some p.world.entered ↔ t' = t := by
    rw [hl, update]
    split
    · simp [*]
    · rename_i hne
      exact iff_of_false (fun hl => Nat.lt_irrefl _ (hp.live t' _ hl)) hne
  have old {id : SessionId} (hne : id ≠ p.world.entered) (t' : ThreadId) :
      q.world.live t' = some id ↔ p.world.live t' = some id := by
    rw [hl, update]
    split
    · rename_i he
      simp [he, ht, hne.symm]
    · rfl
  constructor
  · intro t' id hl'
    rw [hs, List.mem_cons, or_iff_not_imp_left]
    intro hne
    exact h.held t' id ((old hne t').1 hl')
  · intro id hid
    rw [hs, List.mem_cons] at hid
    obtain rfl | hid := hid
    · exact ⟨t, (new t).2 rfl⟩
    · obtain ⟨t', ht'⟩ := h.seat id hid
      exact ⟨t', (old (Nat.ne_of_lt (hp.sessions id hid)) t').2 ht'⟩
  · intro t₁ t₂ id h₁ h₂
    by_cases hid : id = p.world.entered
    · subst hid
      exact ((new t₁).1 h₁).trans ((new t₂).1 h₂).symm
    · exact h.single t₁ t₂ id ((old hid t₁).1 h₁) ((old hid t₂).1 h₂)

/-- A session ends. -/
theorem ended (h : p.Seated) {id : SessionId} (hl : q.world.live = (p.world.leave id).live)
    (hs : q.sessions = p.sessions.filter (· ≠ id)) : q.Seated where
  held t id' ht := by
    rw [hl, World.live_leave_iff] at ht
    rw [hs, List.mem_filter, decide_eq_true_eq]
    exact ⟨h.held t id' ht.1, ht.2.symm⟩
  seat id' hid := by
    rw [hs, List.mem_filter, decide_eq_true_eq] at hid
    obtain ⟨t, ht⟩ := h.seat id' hid.1
    rw [hl]
    exact ⟨t, World.live_leave_iff.2 ⟨ht, hid.2.symm⟩⟩
  single t t' id' ht ht' := by
    rw [hl, World.live_leave_iff] at ht ht'
    exact h.single t t' id' ht.1 ht'.1

theorem leads (h : p.Seated) (hp : p.Sound) (hl : a.Leads p q) : q.Seated := by
  cases hl with
  | entered t config free => exact h.enter hp free rfl rfl
  | finished held => exact h.ended rfl rfl
  | left held => exact h.ended rfl rfl
  | opened _ _ | called _ _ | openFailed _ _ | callFailed _ _ | closed _ _ | idle _ _ _
  | outside _ _ _ _ _ => exact h.quiet rfl rfl
  | occupied _ _ _ | spent _ _ | lapsed _ _ => exact h

end Seated

theorem seated_run (supply : Supply) (acts : List Action) : (run supply acts).Seated := by
  induction acts using List.reverseRecOn with
  | nil => exact ⟨by simp [run, World.start], by simp [run], by simp [run, World.start]⟩
  | append_singleton acts a ih =>
      rw [run_append]
      exact ih.leads (sound_run supply acts) (step_leads _ a)

/-- Session `id` was entered on thread `t` and has not been ended since. -/
def LiveOn (supply : Supply) (acts : List Action) (t : ThreadId) (id : SessionId) : Prop :=
  ∃ pre config post, acts = pre ++ .enter t config :: post ∧
    ((run supply pre).world.enter t config).1 = .ok id ∧ ∀ a ∈ post, a.ended? ≠ some id

theorem liveOn_append {supply : Supply} {acts : List Action} {t : ThreadId} {id : SessionId} :
    LiveOn supply (acts ++ [a]) t id ↔ LiveOn supply acts t id ∧ a.ended? ≠ some id ∨
      ∃ config, a = .enter t config ∧ ((run supply acts).world.enter t config).1 = .ok id := by
  constructor
  · rintro ⟨pre, config, post, he, hid, hn⟩
    obtain rfl | ⟨post, b, rfl⟩ := List.eq_nil_or_concat post
    · obtain ⟨rfl, ha⟩ := List.append_inj' he rfl
      exact .inr ⟨config, List.singleton_inj.1 ha, hid⟩
    · rw [List.concat_eq_append, ← List.cons_append, ← List.append_assoc] at he
      obtain ⟨rfl, ha⟩ := List.append_inj' he rfl
      obtain rfl := List.singleton_inj.1 ha
      rw [List.concat_eq_append, List.forall_mem_append] at hn
      exact .inl ⟨⟨pre, config, post, rfl, hid, hn.1⟩, by simpa using hn.2⟩
  · rintro (⟨⟨pre, config, post, rfl, hid, hn⟩, ha⟩ | ⟨config, rfl, hid⟩)
    · refine ⟨pre, config, post ++ [a], by simp, hid, ?_⟩
      rw [List.forall_mem_append]
      exact ⟨hn, by simpa using ha⟩
    · exact ⟨acts, config, [], rfl, hid, by simp⟩

/-- What one action does to the live sessions. -/
theorem Seated.live_leads_iff (h : p.Seated) (hl : a.Leads p q) {t : ThreadId} {id : SessionId} :
    q.world.live t = some id ↔ p.world.live t = some id ∧ a.ended? ≠ some id ∨
      ∃ config, a = .enter t config ∧ (p.world.enter t config).1 = .ok id := by
  have same (hq : q.world.live = p.world.live) (hn : a.enters? = none)
      (he : p.world.live t = some id → a.ended? ≠ some id) : q.world.live t = some id ↔
        p.world.live t = some id ∧ a.ended? ≠ some id ∨
          ∃ config, a = .enter t config ∧ (p.world.enter t config).1 = .ok id := by
    have hx : ¬∃ config, a = .enter t config ∧ (p.world.enter t config).1 = .ok id := by
      rintro ⟨config, rfl, -⟩
      cases hn
    rw [hq, or_iff_left hx]
    exact ⟨fun ht => ⟨ht, he ht⟩, And.left⟩
  cases hl with
  | entered t' config free =>
      by_cases ht : t = t'
      · subst ht
        simp [note, update_self, World.enter, free, Action.ended?]
      · simp [note, update_of_ne _ _ ht, Action.ended?, Ne.symm ht]
  | occupied t' config busy =>
      have hx : ¬∃ c, Action.enter t' config = .enter t c ∧ (p.world.enter t c).1 = .ok id := by
        rintro ⟨c, he, hid⟩
        cases he
        simp [World.enter, busy] at hid
      rw [or_iff_left hx]
      simp [Action.ended?]
  | finished _ | left _ => simp [World.live_leave_iff, World.finish, Action.ended?]
  | opened _ _ | called _ _ | openFailed _ _ | callFailed _ _ =>
      exact same rfl rfl fun _ => by simp [Action.ended?]
  | idle on _ _ =>
      obtain ⟨hn, -, he⟩ := Action.of_thread on
      exact same rfl hn fun _ => by simp [he]
  | closed of _ | spent of _ =>
      obtain ⟨hn, -, he⟩ := Action.of_guard of
      exact same rfl hn fun _ => by simp [he]
  | outside hn _ _ he _ => exact same rfl hn fun _ => by simp [he]
  | lapsed of gone =>
      obtain ⟨hn, -, -⟩ := Action.of_ended of
      refine same rfl hn ?_
      intro ht he
      cases of.symm.trans he
      exact gone (h.held t id ht)

theorem live_iff_liveOn {supply : Supply} {acts : List Action} {t : ThreadId} {id : SessionId} :
    (run supply acts).world.live t = some id ↔ LiveOn supply acts t id := by
  induction acts using List.reverseRecOn with
  | nil => simp [run, World.start, LiveOn]
  | append_singleton acts a ih =>
      rw [run_append, (seated_run supply acts).live_leads_iff (step_leads _ a), ih, liveOn_append]

theorem mem_sessions_iff {supply : Supply} {acts : List Action} {id : SessionId} :
    id ∈ (run supply acts).sessions ↔ ∃ t, LiveOn supply acts t id := by
  constructor
  · intro hid
    obtain ⟨t, ht⟩ := (seated_run supply acts).seat id hid
    exact ⟨t, live_iff_liveOn.1 ht⟩
  · rintro ⟨t, ht⟩
    exact (seated_run supply acts).held t id (live_iff_liveOn.2 ht)

/-- The guard `g` comes from an opening on the thread that its session was live on. -/
def OpenedBy (supply : Supply) (acts : List Action) (g : Guard) : Prop :=
  ∃ pre t o v post, acts = pre ++ .openScope t o :: post ∧ LiveOn supply pre t g.session ∧
    ((run supply pre).world.openScope t o).1 = .ok (g, v)

theorem OpenedBy.append {supply : Supply} {acts : List Action} {g : Guard}
    (h : OpenedBy supply acts g) (a : Action) : OpenedBy supply (acts ++ [a]) g := by
  obtain ⟨pre, t, o, v, post, rfl, ht, ho⟩ := h
  exact ⟨pre, t, o, v, post ++ [a], by simp, ht, ho⟩

theorem openedBy_of_mem {supply : Supply} {acts : List Action} :
    ∀ g ∈ (run supply acts).guards, OpenedBy supply acts g := by
  induction acts using List.reverseRecOn with
  | nil => simp [run]
  | append_singleton acts a ih =>
      rw [run_append]
      have hl := step_leads (run supply acts) a
      generalize hq : (run supply acts).step a = q at hl
      intro g hg
      cases hl with
      | @opened t o id n kind v b s live done =>
          obtain rfl | hg := List.mem_cons.1 hg
          · refine ⟨acts, t, o, v, [], rfl, live_iff_liveOn.1 live, ?_⟩
            rw [World.openScope_of_live live, done]
            rfl
          · exact (ih g hg).append _
      | closed _ _ => exact (ih g (List.mem_of_mem_erase hg)).append _
      | entered _ _ _ | occupied _ _ _ | idle _ _ _ | called _ _ | openFailed _ _ | callFailed _ _
      | spent _ _ | outside _ _ _ _ _ | finished _ | left _ | lapsed _ _ =>
          exact (ih g hg).append _

/-- What there is to see of a program without looking at session `k`: its builder, its guards and
what the log says of it are hidden. -/
def without (p : Program) (k : SessionId) : Program where
  world := { p.world with builder := update p.world.builder k { config := {} } }
  guards := p.guards.filter (·.session ≠ k)
  sessions := p.sessions
  log := p.log.filter (·.1 ≠ k)

theorem without_advance {id : SessionId} (h : id ≠ k) (p : Program) (e : Event) (b : Builder)
    (s : Supply) : (p.advance id e b s).without k = (p.without k).advance id e b s := by
  simp [without, advance, note, h, update_eq, Function.update_comm h]

/-- Only the builder of a guard's own session is changed when it is closed. -/
theorem without_of_guard (hl : a.Leads p q) {g : Guard} (ha : a.guard? = some g) :
    q.without g.session = p.without g.session := by
  cases hl with
  | closed of _ =>
      cases ha.symm.trans of
      have hg : (p.guards.erase g).filter (·.session ≠ g.session) =
          p.guards.filter (·.session ≠ g.session) := by
        rw [← List.erase_filter, List.erase_of_not_mem]
        simp
      simp only [without, advance, note, hg, update_eq, Function.update_idem]
      simp
  | spent _ _ | occupied _ _ _ | lapsed _ _ => rfl
  | idle on _ _ =>
      obtain ⟨-, hn, -⟩ := Action.of_thread on
      cases hn.symm.trans ha
  | outside _ _ hn _ _ => cases hn.symm.trans ha
  | entered _ _ _ | opened _ _ | called _ _ | openFailed _ _ | callFailed _ _ | finished _
  | left _ => cases ha

/-- Session `k` is over: it was entered and is no longer in hand. -/
structure Past (p : Program) (k : SessionId) : Prop where
  entered : k < p.world.entered
  gone : k ∉ p.sessions

theorem Past.leads (h : p.Past k) (hl : a.Leads p q) : q.Past k := by
  cases hl with
  | entered t config free =>
      refine ⟨Nat.lt_succ_of_lt h.entered, ?_⟩
      rw [show Program.sessions _ = p.world.entered :: p.sessions from rfl, List.mem_cons, not_or]
      exact ⟨Nat.ne_of_lt h.entered, h.gone⟩
  | finished _ | left _ => exact ⟨h.entered, fun hk => h.gone (List.mem_filter.1 hk).1⟩
  | opened _ _ | called _ _ | openFailed _ _ | callFailed _ _ | closed _ _ | outside _ _ _ _ _
  | occupied _ _ _ | idle _ _ _ | spent _ _ | lapsed _ _ => exact ⟨h.entered, h.gone⟩

theorem close_without {g : Guard} (hg : g.session ≠ k) :
    (p.step (.close g)).without k = (p.without k).step (.close g) := by
  by_cases hm : g ∈ p.guards
  · simp [step, World.close, without, note, hm, hg, update_eq, Function.update_comm hg,
      List.erase_filter]
  · simp [step, without, hm]

namespace Past

/-- An operation goes to a session that is live, hence not to one that is over. -/
theorem other (h : p.Past k) (hp : p.Seated) {t : ThreadId} {id : SessionId}
    (ht : p.world.live t = some id) :
    id ≠ k ∧ (p.without k).world.builder id = p.world.builder id := by
  have hk : id ≠ k := fun he => h.gone (he ▸ hp.held t id ht)
  exact ⟨hk, update_of_ne _ _ hk⟩

theorem openScope_without (h : p.Past k) (hp : p.Seated) (t : ThreadId) (o : Opening) :
    (p.step (.openScope t o)).without k = (p.without k).step (.openScope t o) := by
  cases ht : p.world.live t with
  | none => rw [step_openScope_of_idle ht, step_openScope_of_idle (p := p.without k) ht]
  | some id =>
      obtain ⟨hk, hb⟩ := h.other hp ht
      obtain ⟨r, b, s, hr⟩ : ∃ r b s,
          (p.world.builder id).openScope p.world.supply o = (r, b, s) := ⟨_, _, _, rfl⟩
      rw [step_openScope_of_live ht hr, step_openScope_of_live (p := p.without k) ht (hb ▸ hr)]
      cases r with
      | error f => exact without_advance hk p _ b s
      | ok x => simp [without, advance, note, hk, update_eq, Function.update_comm hk]

theorem call_without (h : p.Past k) (hp : p.Seated) (t : ThreadId) (c : Call) :
    (p.step (.call t c)).without k = (p.without k).step (.call t c) := by
  cases ht : p.world.live t with
  | none =>
      rw [step_call_of_idle ht, step_call_of_idle (p := p.without k) ht]
      rfl
  | some id =>
      obtain ⟨hk, hb⟩ := h.other hp ht
      obtain ⟨r, b, s, hr⟩ : ∃ r b s,
          (p.world.builder id).call p.world.supply c = (r, b, s) := ⟨_, _, _, rfl⟩
      rw [step_call_of_live ht hr, step_call_of_live (p := p.without k) ht (hb ▸ hr)]
      cases r <;> exact without_advance hk p _ b s

/-- What is done with a session that is over is all that cannot be seen without looking at it. -/
theorem step_without (h : p.Past k) (hp : p.Seated) (ha : ∀ g ∈ a.guard?, g.session ≠ k) :
    (p.step a).without k = (p.without k).step a := by
  cases a with
  | enter t config =>
      cases ht : p.world.live t with
      | none =>
          have hk : p.world.entered ≠ k := Nat.ne_of_gt h.entered
          simp [step, World.enter, without, ht, note, hk, update_eq, Function.update_comm hk]
      | some id => simp [step, World.enter, without, ht]
  | openScope t o => exact h.openScope_without hp t o
  | call t c => exact h.call_without hp t c
  | close g | drop g => exact close_without (ha g rfl)
  | declare shape dtype o =>
      simp only [step, World.declare, without]
      split <;> rfl
  | mint n => rfl
  | finish id =>
      by_cases hid : id ∈ p.sessions
      · have hk : id ≠ k := fun he => h.gone (he ▸ hid)
        simp [step, World.finish, World.leave, without, hid, hk, update_eq, Function.update_comm hk]
      · simp [step, without, hid]
  | leave id =>
      by_cases hid : id ∈ p.sessions
      · simp [step, World.leave, without, hid]
      · simp [step, without, hid]

end Past

end Program

/-- The action closes no guard of session `k`. -/
def Action.spares (k : SessionId) (a : Action) : Bool := a.guard?.all (·.session ≠ k)

namespace Program

variable {p : Program} {k : SessionId}

theorem Past.foldl_without (h : p.Past k) (hp : p.Sound) (hs : p.Seated) (acts : List Action) :
    (acts.foldl step p).without k = (acts.filter (Action.spares k)).foldl step (p.without k) := by
  induction acts generalizing p with
  | nil => rfl
  | cons a acts ih =>
      have hl := p.step_leads a
      rw [List.foldl_cons, ih (h.leads hl) (hp.step a) (hs.leads hp hl)]
      cases ha : a.spares k with
      | true =>
          rw [List.filter_cons_of_pos ha, List.foldl_cons, h.step_without hs]
          intro g hg
          rw [Action.spares, hg, Option.all_some, decide_eq_true_eq] at ha
          exact ha
      | false =>
          rw [List.filter_cons_of_neg (by simp [ha])]
          cases hg : a.guard? with
          | none => simp [Action.spares, hg] at ha
          | some g =>
              obtain rfl : g.session = k := by simpa [Action.spares, hg] using ha
              rw [without_of_guard hl hg]

/-- A session that is over has no effect on the others through its guards, whatever is done with
them. -/
theorem without_run {supply : Supply} {acts : List Action} (h : (run supply acts).Past k)
    (rest : List Action) : (run supply (acts ++ rest)).without k =
      (run supply (acts ++ rest.filter (Action.spares k))).without k := by
  have hp := sound_run supply acts
  have hs := seated_run supply acts
  have hf (rest : List Action) : (run supply (acts ++ rest)).without k =
      (rest.filter (Action.spares k)).foldl step ((run supply acts).without k) := by
    rw [← h.foldl_without hp hs, run, List.foldl_append]
    rfl
  rw [hf, hf, List.filter_filter]
  simp

theorem Seated.live_leave (h : p.Seated) {t : ThreadId} {id : SessionId}
    (ht : p.world.live t = some id) : (p.world.leave id).live = update p.world.live t none := by
  funext t'
  rw [update]
  split
  · rename_i he
    simp [World.leave, he, ht]
  · rename_i he
    have hn : p.world.live t' ≠ some id := fun ht' => he (h.single t' t id ht' ht)
    simp [World.leave, hn]

theorem Seated.frees (h : p.Seated) {t : ThreadId} {id : SessionId} {a : Action}
    (ht : p.world.live t = some id) (ha : a.ended? = some id) :
    (p.step a).world.live = update p.world.live t none := by
  have hid := h.held t id ht
  rw [← h.live_leave ht]
  cases a with
  | finish _ | leave _ =>
      cases ha
      simp [step, World.finish, World.leave, hid]
  | _ => cases ha

/-- Sessions keep to themselves. One is live on the thread that it was entered on until it is
finished or left, and no other on that thread; operations go to it, and where there is none they
fail. Its guards work on it alone, and once it is over nothing but its own builder can tell what
becomes of them. -/
theorem sessions_isolated (supply : Supply) (acts : List Action) :
    let p := run supply acts
    (∀ t id, p.world.live t = some id ↔ LiveOn supply acts t id) ∧
    (∀ id, id ∈ p.sessions ↔ ∃ t, LiveOn supply acts t id) ∧
    (∀ t id id', LiveOn supply acts t id → LiveOn supply acts t id' → id = id') ∧
    (∀ t id, LiveOn supply acts t id →
      p.world.Serves t id ∧ ∀ config, p.step (.enter t config) = p) ∧
    (∀ t, (∀ id, ¬LiveOn supply acts t id) → p.world.Idle t) ∧
    (∀ t id a, LiveOn supply acts t id → a.ended? = some id →
      (p.step a).world.live = update p.world.live t none ∧ (p.step a).world.Idle t) ∧
    (∀ g ∈ p.guards, OpenedBy supply acts g) ∧
    (∀ a g, a.guard? = some g → (p.step a).without g.session = p.without g.session) ∧
    ∀ k, k < p.world.entered → k ∉ p.sessions → ∀ rest,
      (run supply (acts ++ rest)).without k =
        (run supply (acts ++ rest.filter (Action.spares k))).without k := by
  intro p
  have hs : p.Seated := seated_run supply acts
  have hl (t : ThreadId) (id : SessionId) :
      p.world.live t = some id ↔ LiveOn supply acts t id := live_iff_liveOn
  refine ⟨hl, fun _ => mem_sessions_iff, ?_, ?_, ?_, ?_, openedBy_of_mem, ?_, ?_⟩
  · intro t id id' h h'
    exact Option.some_inj.1 (((hl t id).2 h).symm.trans ((hl t id').2 h'))
  · intro t id h
    have hw := World.serves_of_live ((hl t id).2 h)
    exact ⟨hw, fun config => by simp [step, hw.enter config]⟩
  · intro t h
    refine World.idle_of_live (Option.eq_none_iff_forall_ne_some.2 ?_)
    intro id ht
    exact h id ((hl t id).1 ht)
  · intro t id a h ha
    have hf := hs.frees ((hl t id).2 h) ha
    exact ⟨hf, World.idle_of_live (by rw [hf, update_self])⟩
  · intro a g ha
    exact without_of_guard (p.step_leads a) ha
  · intro k hk hn rest
    exact without_run ⟨hk, hn⟩ rest

/-- Two sessions, one after the other on the same thread, each with a function open as its first
scope. The guard of the first is let go only then. -/
theorem sessions_isolated_stale :
    let acts : List Action :=
      [.enter 0 {}, .openScope 0 .primFunc, .leave 0, .enter 0 {}, .openScope 0 .primFunc]
    let late : Action := .drop ⟨0, 0, .primFunc⟩
    let close : Action := .close ⟨1, 0, .primFunc⟩
    let p := run .counting acts
    p.guards = [⟨1, 0, .primFunc⟩, ⟨0, 0, .primFunc⟩] ∧
      p.world.Serves 0 1 ∧ p.world.Idle 1 ∧ (p.step (.finish 1)).world.Idle 0 ∧
      (p.step late).without 0 = p.without 0 ∧
      (run .counting (acts ++ [late, close])).without 0 =
        (run .counting (acts ++ [close])).without 0 := by
  intro acts late close p
  obtain ⟨hl, -, -, hs, hi, he, -, hg, hk⟩ := sessions_isolated .counting acts
  have live : LiveOn .counting acts 0 1 := (hl 0 1).1 rfl
  have idle : ∀ id, ¬LiveOn .counting acts 1 id := by
    intro id h
    cases (hl 1 id).2 h
  exact ⟨rfl, (hs 0 1 live).1, hi 1 idle, (he 0 1 (.finish 1) live rfl).2,
    hg late ⟨0, 0, .primFunc⟩ rfl, hk 0 (by decide) (by decide) [late, close]⟩

end Program

end TensorProgram
