import TensorProgram.Proofs.Transaction

/-!
Histories. A program enters sessions on its threads, opens scopes, makes calls and lets
guards go, in any order; the log says what has come of it for each session. The history
of a session is a run of steps of its builder alone, whatever the other sessions and
threads do in between, and `Event.Took` says everything that one step can have done.
-/

namespace TensorProgram

/-- What has happened to the builder of a session. A scope is discarded when it was the
innermost one but what it makes was not accepted. -/
inductive Event where
  | entered (config : Config)
  | opened (id : Nat) (o : Opening) (value : Value)
  | called (s : Supply) (c : Call) (value : Value)
  | closed (id : Nat)
  | discarded (id : Nat) (e : BuildError)
  | failed (f : Failure)

def Builder.closeEvent (b : Builder) (id : Nat) (kind : ScopeKind) : Event :=
  match (b.close id kind).1 with
  | .ok () => .closed id
  | .error e =>
      if b.frames.head?.any (·.id = id) then .discarded id e else .failed (.refused e)

/-- What a program does as far as builders can tell. To mint is to make variables outside
of all sessions. -/
inductive Action where
  | enter (t : ThreadId) (config : Config)
  | openScope (t : ThreadId) (o : Opening)
  | call (t : ThreadId) (c : Call)
  | close (g : Guard)
  | drop (g : Guard)
  | declare (shape : List Expr) (dtype : DataType) (o : BufferOptions)
  | mint (n : Nat)
  | finish (id : SessionId)
  | leave (id : SessionId)

/-- A program as it runs: the world, the guards and sessions in its hands, and the log. -/
structure Program where
  world : World
  guards : List Guard := []
  sessions : List SessionId := []
  log : List (SessionId × Event) := []

namespace Program

def note (p : Program) (id : SessionId) (e : Event) : Program :=
  { p with log := p.log ++ [(id, e)] }

/-- A call that did not go through is noted if a session was there to receive it. -/
def noteFailure (p : Program) (t : ThreadId) (f : Failure) : Program :=
  match p.world.live t with
  | some id => p.note id (.failed f)
  | none => p

/-- Guards and sessions are used up by closing and finishing them. -/
def step (p : Program) : Action → Program
  | .enter t config =>
      match p.world.enter t config with
      | (.ok id, w) =>
          { p with world := w, sessions := id :: p.sessions }.note id (.entered config)
      | (.error _, w) => { p with world := w }
  | .openScope t o =>
      match p.world.openScope t o with
      | (.ok (g, v), w) =>
          { p with world := w, guards := g :: p.guards }.note g.session (.opened g.frame o v)
      | (.error f, w) => { p.noteFailure t f with world := w }
  | .call t c =>
      match p.world.call t c with
      | (.ok v, w) =>
          match p.world.live t with
          | some id => { p with world := w }.note id (.called p.world.supply c v)
          | none => { p with world := w }
      | (.error f, w) => { p.noteFailure t f with world := w }
  | .close g =>
      if g ∈ p.guards then
        { p with world := (p.world.close g).2, guards := p.guards.erase g }.note g.session
          ((p.world.builder g.session).closeEvent g.frame g.kind)
      else p
  | .drop g =>
      if g ∈ p.guards then
        { p with world := p.world.drop g, guards := p.guards.erase g }.note g.session
          ((p.world.builder g.session).closeEvent g.frame g.kind)
      else p
  | .declare shape dtype o => { p with world := (p.world.declare shape dtype o).2 }
  | .mint n =>
      { p with world := (p.world.mint fun s => ((), { s with used := s.used + n })).2 }
  | .finish id =>
      if id ∈ p.sessions then
        { p with world := (p.world.finish id).2, sessions := p.sessions.filter (· ≠ id) }
      else p
  | .leave id =>
      if id ∈ p.sessions then
        { p with world := p.world.leave id, sessions := p.sessions.filter (· ≠ id) }
      else p

/-- The program after the event `e`, by which the builder of session `id` has come to `b`. -/
def advance (p : Program) (id : SessionId) (e : Event) (b : Builder) (s : Supply) : Program :=
  { p with world := { p.world with supply := s, builder := update p.world.builder id b } }.note id e

def run (supply : Supply) (acts : List Action) : Program :=
  acts.foldl step { world := .start supply }

/-- What a log says of one session. -/
def about (id : SessionId) (log : List (SessionId × Event)) : List Event :=
  log.filterMap fun e => if e.1 = id then some e.2 else none

def history (p : Program) (id : SessionId) : List Event := about id p.log

end Program

/-- One step of a builder, by the operation that makes it. -/
inductive Builder.Step (b : Builder) : Event → Builder → Prop where
  | opened {s s' o id kind v b'} (h : b.openScope s o = (.ok (id, kind, v), b', s')) :
      Step b (.opened id o v) b'
  | called {s s' c v b'} (h : b.call s c = (.ok v, b', s')) : Step b (.called s c v) b'
  | openFailed {s s' o f b'} (h : b.openScope s o = (.error f, b', s')) : Step b (.failed f) b'
  | callFailed {s s' c f b'} (h : b.call s c = (.error f, b', s')) : Step b (.failed f) b'
  | close (id : Nat) (kind : ScopeKind) : Step b (b.closeEvent id kind) (b.close id kind).2

/-- The steps that lead from a new builder to `b`. -/
inductive Builder.Lived (config : Config) : List Event → Builder → Prop where
  | start : Lived config [] { config }
  | step {H b e b'} (past : Lived config H b) (last : b.Step e b') : Lived config (H ++ [e]) b'

/-- Everything that a step with this event can have done to the builder. -/
def Event.Took (b b' : Builder) : Event → Prop
  | .entered _ => False
  | .opened id o v => ∃ scope s s',
      o.scope b s = .ok ((scope, v), s') ∧ id = b.nextId ∧ b' = b.push scope
  | .called s c v => ∃ eff s', c.effect b s = .ok ((eff, v), s') ∧ b.performed eff = .ok b'
  | .closed id => ∃ f fs p, b.frames = f :: fs ∧ f.id = id ∧ f.close b.config = .ok p ∧
      { b with frames := fs }.delivered p = .ok b'
  | .discarded id e => ∃ f fs, b.frames = f :: fs ∧ f.id = id ∧
      (f.close b.config).bind { b with frames := fs }.delivered = .error e ∧
      b' = { b with frames := fs }.record e
  | .failed f => b' = b.failed f

theorem Builder.closeEvent_took (b : Builder) (id : Nat) (kind : ScopeKind) :
    (b.closeEvent id kind).Took b (b.close id kind).2 := by
  by_cases ht : ∃ f fs, b.frames = f :: fs ∧ f.id = id
  · obtain ⟨f, fs, hfs, rfl⟩ := ht
    have hc := close_of_top kind hfs
    cases hr : (f.close b.config).bind { b with frames := fs }.delivered with
    | error e =>
        have he : b.closeEvent f.id kind = .discarded f.id e := by
          simp [closeEvent, hc, hr, hfs]
        rw [he, hc, hr]
        exact ⟨f, fs, hfs, rfl, hr, rfl⟩
    | ok b' =>
        have he : b.closeEvent f.id kind = .closed f.id := by simp [closeEvent, hc, hr]
        cases hp : f.close b.config with
        | error e => simp [hp, Except.bind] at hr
        | ok p =>
            rw [he, hc, hr]
            exact ⟨f, fs, p, hfs, rfl, hp, by simpa [hp, Except.bind] using hr⟩
  · have hn : ∀ f ∈ b.frames.head?, f.id ≠ id := by
      intro f hf hid
      obtain ⟨fs, hfs⟩ := List.head?_eq_some_iff.1 hf
      exact ht ⟨f, fs, hfs, hid⟩
    have ha : b.frames.head?.any (·.id = id) = false := by
      cases hf : b.frames.head? with
      | none => rfl
      | some f => simpa using hn f hf
    obtain ⟨e, he⟩ := close_of_not_top kind hn
    simp [closeEvent, he, ha, Event.Took, failed]

theorem Builder.Step.took {b b' : Builder} {e : Event} (h : b.Step e b') : e.Took b b' := by
  cases h with
  | opened h =>
      obtain ⟨scope, hs, hid, -, hb⟩ := openScope_ok h
      exact ⟨scope, _, _, hs, hid, hb⟩
  | called h =>
      obtain ⟨eff, he, hb⟩ := call_ok h
      exact ⟨eff, _, he, hb⟩
  | openFailed h => exact openScope_error h
  | callFailed h => exact call_error h
  | close id kind => exact b.closeEvent_took id kind

namespace World

variable {w : World} {t : ThreadId}

theorem openScope_of_live {id : SessionId} (h : w.live t = some id) (o : Opening) :
    w.openScope t o = match (w.builder id).openScope w.supply o with
      | (r, b, s) => (r.map fun x => (⟨id, x.1, x.2.1⟩, x.2.2),
          { w with supply := s, builder := update w.builder id b }) := by
  simp [openScope, onBuilder, current, h]

theorem call_of_live {id : SessionId} (h : w.live t = some id) (c : Call) :
    w.call t c = match (w.builder id).call w.supply c with
      | (r, b, s) => (r, { w with supply := s, builder := update w.builder id b }) := by
  simp [call, onBuilder, current, h]

/-- A live session opens the scopes that its builder can make. -/
theorem openScope_ok_iff {id : SessionId} (h : w.live t = some id) (o : Opening) :
    (∃ r, (w.openScope t o).1 = .ok r) ↔ ∃ x, o.scope (w.builder id) w.supply = .ok x := by
  rw [openScope_of_live h, Builder.openScope_eq]
  cases o.scope (w.builder id) w.supply <;> simp [Except.map]

theorem openScope_opened {id : SessionId} (h : w.live t = some id) {o : Opening} {x : Scope}
    {v : Value} {s : Supply} (made : o.scope (w.builder id) w.supply = .ok ((x, v), s)) :
    w.openScope t o = (.ok (⟨id, (w.builder id).nextId, x.kind⟩, v),
      { w with supply := s, builder := update w.builder id ((w.builder id).push x) }) := by
  rw [openScope_of_live h, Builder.openScope_eq, made]
  rfl

/-- An opening that is refused is remembered. -/
theorem openScope_refused {id : SessionId} (h : w.live t = some id) {o : Opening} {e : BuildError}
    (refused : o.scope (w.builder id) w.supply = .error (.refused e)) :
    w.openScope t o = (.error (.refused e),
      { w with builder := update w.builder id ((w.builder id).record e) }) := by
  rw [openScope_of_live h, Builder.openScope_eq, refused]
  rfl

theorem openScope_of_idle (h : w.live t = none) (o : Opening) :
    w.openScope t o = (.error (.refused (.noActiveBuilder o.op)), w) := by
  simp [openScope, onBuilder, current, h]

theorem call_of_idle (h : w.live t = none) (c : Call) :
    w.call t c = (.error (.refused (.noActiveBuilder c.op)),
      { w with supply := c.unserved w.supply }) := by
  simp [call, onBuilder, current, h]

end World

theorem update_self {α β : Type} [DecidableEq α] (f : α → β) (a : α) (b : β) :
    update f a b a = b := by
  simp [update]

theorem update_of_ne {α β : Type} [DecidableEq α] (f : α → β) (b : β) {a c : α} (h : c ≠ a) :
    update f a b c = f c := by
  simp [update, h]

namespace Program

section Step

variable {p : Program} {t : ThreadId} {o : Opening} {c : Call} {id : SessionId} {b : Builder}
  {s : Supply}

theorem step_openScope_of_idle (h : p.world.live t = none) (o : Opening) :
    p.step (.openScope t o) = p := by
  simp [step, World.openScope_of_idle h, noteFailure, h]

theorem step_call_of_idle (h : p.world.live t = none) (c : Call) : p.step (.call t c) =
    { p with world := { p.world with supply := c.unserved p.world.supply } } := by
  simp [step, World.call_of_idle h, noteFailure, h]

theorem step_openScope_of_live {r : Except Failure (Nat × ScopeKind × Value)}
    (ht : p.world.live t = some id)
    (hr : (p.world.builder id).openScope p.world.supply o = (r, b, s)) :
    p.step (.openScope t o) = match r with
      | .ok (n, kind, v) =>
          { p.advance id (.opened n o v) b s with guards := ⟨id, n, kind⟩ :: p.guards }
      | .error f => p.advance id (.failed f) b s := by
  cases r with
  | error f =>
      simp [step, World.openScope_of_live ht, hr, Except.map, noteFailure, ht, advance, note]
  | ok x => simp [step, World.openScope_of_live ht, hr, Except.map, advance, note]

theorem step_call_of_live {r : Except Failure Value} (ht : p.world.live t = some id)
    (hr : (p.world.builder id).call p.world.supply c = (r, b, s)) :
    p.step (.call t c) = match r with
      | .ok v => p.advance id (.called p.world.supply c v) b s
      | .error f => p.advance id (.failed f) b s := by
  cases r with
  | error f => simp [step, World.call_of_live ht, hr, noteFailure, ht, advance, note]
  | ok v => simp [step, World.call_of_live ht, hr, ht, advance, note]

/-- It makes no difference whether a guard is closed or let go. -/
theorem step_drop (p : Program) (g : Guard) : p.step (.drop g) = p.step (.close g) := rfl

end Step

/-- Every session in hand has lived through its history, and nothing refers to a session
that is still to be entered. -/
structure Sound (p : Program) : Prop where
  live : ∀ t id, p.world.live t = some id → id < p.world.entered
  guards : ∀ g ∈ p.guards, g.session < p.world.entered
  sessions : ∀ id ∈ p.sessions, id < p.world.entered
  log : ∀ e ∈ p.log, e.1 < p.world.entered
  lived : ∀ id ∈ p.sessions, ∃ config H,
    about id p.log = .entered config :: H ∧ Builder.Lived config H (p.world.builder id)

theorem about_append_self (id : SessionId) (e : Event) (log : List (SessionId × Event)) :
    about id (log ++ [(id, e)]) = about id log ++ [e] := by
  simp [about]

theorem about_append_of_ne {id id' : SessionId} (h : id ≠ id') (e : Event)
    (log : List (SessionId × Event)) : about id' (log ++ [(id, e)]) = about id' log := by
  simp [about, h]

/-- The builder of one session takes a step, and all others stay as they are. -/
theorem Sound.builderStep {p : Program} (h : p.Sound) {id : SessionId} {e : Event} {b : Builder}
    (hid : id < p.world.entered) (hs : (p.world.builder id).Step e b) (s : Supply)
    {gs : List Guard} (hg : ∀ g ∈ gs, g.session < p.world.entered) :
    Sound
      { world := { p.world with supply := s, builder := update p.world.builder id b }
        guards := gs
        sessions := p.sessions
        log := p.log ++ [(id, e)] } where
  live := h.live
  guards := hg
  sessions := h.sessions
  log := by
    intro x hx
    rw [List.mem_append, List.mem_singleton] at hx
    obtain hx | rfl := hx
    · exact h.log x hx
    · exact hid
  lived := by
    intro id' hid'
    obtain ⟨config, H, hh, hl⟩ := h.lived id' hid'
    by_cases hi : id = id'
    · subst hi
      refine ⟨config, H ++ [e], ?_, ?_⟩
      · rw [about_append_self, hh, List.cons_append]
      · simpa only [update_self] using hl.step hs
    · refine ⟨config, H, ?_, ?_⟩
      · rw [about_append_of_ne hi, hh]
      · simpa only [update_of_ne _ _ (Ne.symm hi)] using hl

/-- What touches no builder that is in hand is no event. -/
theorem Sound.quiet {p : Program} (h : p.Sound) {w : World} {ids : List SessionId}
    (he : w.entered = p.world.entered) (hl : ∀ t id, w.live t = some id → p.world.live t = some id)
    (hi : ∀ id ∈ ids, id ∈ p.sessions ∧ w.builder id = p.world.builder id) :
    Sound { p with world := w, sessions := ids } where
  live t id ht := he ▸ h.live t id (hl t id ht)
  guards g hg := he ▸ h.guards g hg
  sessions id hid := he ▸ h.sessions id (hi id hid).1
  log e hx := he ▸ h.log e hx
  lived id hid := by
    obtain ⟨config, H, hh, hb⟩ := h.lived id (hi id hid).1
    exact ⟨config, H, hh, (hi id hid).2 ▸ hb⟩

/-- Nothing has been noted of a session before it is entered. -/
theorem Sound.about_entered {p : Program} (h : p.Sound) : about p.world.entered p.log = [] := by
  rw [about, List.filterMap_eq_nil_iff]
  intro e he
  simp [Nat.ne_of_lt (h.log e he)]

theorem Sound.enter {p : Program} (h : p.Sound) (t : ThreadId) (config : Config) :
    (p.step (.enter t config)).Sound := by
  cases ht : p.world.live t with
  | some id =>
      have hs : p.step (.enter t config) = p := by simp [step, World.enter, ht]
      rwa [hs]
  | none =>
      simp only [step, World.enter, ht, note]
      refine ⟨?_, ?_, ?_, ?_, ?_⟩
      · intro t' id hl
        by_cases htt : t' = t
        · subst htt
          simp only [update_self, Option.some.injEq] at hl
          subst hl
          exact Nat.lt_succ_self _
        · simp only [update_of_ne _ _ htt] at hl
          exact Nat.lt_succ_of_lt (h.live t' id hl)
      · intro g hg
        exact Nat.lt_succ_of_lt (h.guards g hg)
      · intro id hid
        obtain rfl | hid := List.mem_cons.1 hid
        · exact Nat.lt_succ_self _
        · exact Nat.lt_succ_of_lt (h.sessions id hid)
      · intro e he
        rw [List.mem_append, List.mem_singleton] at he
        obtain he | rfl := he
        · exact Nat.lt_succ_of_lt (h.log e he)
        · exact Nat.lt_succ_self _
      · intro id hid
        obtain rfl | hid := List.mem_cons.1 hid
        · refine ⟨config, [], by rw [about_append_self, h.about_entered, List.nil_append], ?_⟩
          simpa only [update_self] using Builder.Lived.start
        · have hne : p.world.entered ≠ id := Nat.ne_of_gt (h.sessions id hid)
          obtain ⟨config', H, hh, hb⟩ := h.lived id hid
          refine ⟨config', H, ?_, ?_⟩
          · rw [about_append_of_ne hne, hh]
          · simpa only [update_of_ne _ _ hne.symm] using hb

theorem Sound.openScope {p : Program} (h : p.Sound) (t : ThreadId) (o : Opening) :
    (p.step (.openScope t o)).Sound := by
  cases ht : p.world.live t with
  | none => rwa [step_openScope_of_idle ht]
  | some id =>
      have hid := h.live t id ht
      obtain ⟨r, b, s, hr⟩ : ∃ r b s,
          (p.world.builder id).openScope p.world.supply o = (r, b, s) := ⟨_, _, _, rfl⟩
      rw [step_openScope_of_live ht hr]
      cases r with
      | error f => exact h.builderStep hid (.openFailed hr) s h.guards
      | ok x =>
          refine h.builderStep hid (.opened hr) s fun g hg => ?_
          obtain rfl | hg := List.mem_cons.1 hg
          · exact hid
          · exact h.guards g hg

theorem Sound.call {p : Program} (h : p.Sound) (t : ThreadId) (c : Call) :
    (p.step (.call t c)).Sound := by
  cases ht : p.world.live t with
  | none =>
      rw [step_call_of_idle ht]
      exact ⟨h.live, h.guards, h.sessions, h.log, h.lived⟩
  | some id =>
      have hid := h.live t id ht
      obtain ⟨r, b, s, hr⟩ : ∃ r b s,
          (p.world.builder id).call p.world.supply c = (r, b, s) := ⟨_, _, _, rfl⟩
      rw [step_call_of_live ht hr]
      cases r with
      | error f => exact h.builderStep hid (.callFailed hr) s h.guards
      | ok v => exact h.builderStep hid (.called hr) s h.guards

theorem Sound.close {p : Program} (h : p.Sound) (g : Guard) : (p.step (.close g)).Sound := by
  by_cases hg : g ∈ p.guards
  · simp only [step, World.close, hg, if_true, note]
    exact h.builderStep (h.guards g hg) (.close g.frame g.kind) p.world.supply
      fun g' hg' => h.guards g' (List.mem_of_mem_erase hg')
  · have hs : p.step (.close g) = p := by simp [step, hg]
    rwa [hs]

/-- A thread that a session leaves is live for no other. -/
theorem live_leave {w : World} {id id' : SessionId} {t : ThreadId}
    (h : (w.leave id).live t = some id') : w.live t = some id' := by
  simp only [World.leave] at h
  split at h
  · cases h
  · exact h

theorem Sound.step {p : Program} (h : p.Sound) (a : Action) : (p.step a).Sound := by
  cases a with
  | enter t config => exact h.enter t config
  | openScope t o => exact h.openScope t o
  | call t c => exact h.call t c
  | close g => exact h.close g
  | drop g => exact step_drop p g ▸ h.close g
  | declare shape dtype o =>
      simp only [Program.step, World.declare]
      split
      · exact h.quiet rfl (fun _ _ ht => ht) fun id hid => ⟨hid, rfl⟩
      · exact h.quiet rfl (fun _ _ ht => ht) fun id hid => ⟨hid, rfl⟩
  | mint n => exact h.quiet rfl (fun _ _ ht => ht) fun id hid => ⟨hid, rfl⟩
  | finish id =>
      simp only [Program.step]
      split
      · refine h.quiet rfl (fun _ _ ht => live_leave ht) fun id' hid' => ?_
        rw [List.mem_filter, decide_eq_true_eq] at hid'
        exact ⟨hid'.1, update_of_ne _ _ hid'.2⟩
      · exact h
  | leave id =>
      simp only [Program.step]
      split
      · refine h.quiet rfl (fun _ _ ht => live_leave ht) fun id' hid' => ?_
        exact ⟨(List.mem_filter.1 hid').1, rfl⟩
      · exact h

theorem sound_start (supply : Supply) : Sound { world := .start supply } where
  live := by simp [World.start]
  guards := by simp
  sessions := by simp
  log := by simp
  lived := by simp

theorem Sound.foldl {p : Program} (h : p.Sound) (acts : List Action) :
    (acts.foldl Program.step p).Sound := by
  induction acts generalizing p with
  | nil => exact h
  | cons a acts ih => exact ih (h.step a)

theorem sound_run (supply : Supply) (acts : List Action) : (run supply acts).Sound :=
  (sound_start supply).foldl acts

/-- A session that is in hand has got where it is by steps of its own builder. -/
theorem lived_run {supply : Supply} {acts : List Action} {id : SessionId}
    (h : id ∈ (run supply acts).sessions) :
    ∃ config H, (run supply acts).history id = .entered config :: H ∧
      Builder.Lived config H ((run supply acts).world.builder id) :=
  (sound_run supply acts).lived id h

end Program

end TensorProgram
