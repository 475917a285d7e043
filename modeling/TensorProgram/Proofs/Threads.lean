import TensorProgram.Proofs.Branches
import TensorProgram.Proofs.Unwinding

/-!
Threads. A function keeps the threads that have been registered inside it, from whatever depth they
were registered and whatever has been closed since. They are found again under their identity, and
they stay as they were registered: each launch makes a node of its own, with its own extent.
-/

namespace TensorProgram

namespace Event

/-- The thread that the event registers, under its tag. -/
def thread? : Event → Option (Var × String)
  | .called _ (.envThread tag) (.var v) => some (v, tag)
  | _ => none

/-- The thread `x` was registered while the scope `k` was open. -/
def RegisteredIn (k : Nat × ScopeKind) (x : Var × String) : List Event → Prop :=
  Happened fun past e => e.thread? = some x ∧ k ∈ unclosed past

/-- What may be found under `var` among the threads of `k`: a thread of this identity that was
registered there, which has no domain yet, or nothing if there is none. -/
def Finds (H : List Event) (k : Nat × ScopeKind) (var : Var) : Option IterVar → Prop
  | some t => ∃ x, RegisteredIn k x H ∧ x.1.id = var.id ∧ t = ⟨none, x.1, .threadIndex, x.2⟩
  | none => ∀ x, RegisteredIn k x H → x.1.id ≠ var.id

variable {k : Nat × ScopeKind} {x : Var × String} {H : List Event} {e : Event} {var : Var}
  {t : Option IterVar}

theorem registeredIn_snoc : RegisteredIn k x (H ++ [e]) ↔
    RegisteredIn k x H ∨ e.thread? = some x ∧ k ∈ unclosed H :=
  happened_snoc

theorem RegisteredIn.opened (h : RegisteredIn k x H) : k ∈ H.filterMap opened? := by
  obtain ⟨past, e, ⟨rest, rfl⟩, -, hk⟩ := h
  rw [List.append_assoc, List.filterMap_append]
  exact List.mem_append_left _ (List.mem_filter.1 hk).1

theorem registeredIn_entered {config : Config} :
    RegisteredIn k x (.entered config :: H) ↔ RegisteredIn k x H :=
  happened_entered (fun h => by cases h.1) fun _ _ => Iff.rfl

theorem finds_snoc_of_quiet (he : e.thread? = none) :
    Finds (H ++ [e]) k var t ↔ Finds H k var t := by
  have same {x : Var × String} : RegisteredIn k x (H ++ [e]) ↔ RegisteredIn k x H := by
    simp [registeredIn_snoc, he]
  cases t <;> simp only [Finds, same]

/-- A thread that is registered once more is the one that is found. -/
theorem Finds.insert {m : OrderedMap Var IterVar} {w : Var} {tag : String}
    (h : Finds H k var (m.get? var)) (he : e.thread? = some (w, tag)) (hk : k ∈ unclosed H) :
    Finds (H ++ [e]) k var ((m.insert w (.thread none w tag)).get? var) := by
  rw [OrderedMap.get?_insert]
  split
  · rename_i hw
    exact ⟨(w, tag), registeredIn_snoc.2 (.inr ⟨he, hk⟩), hw.symm, rfl⟩
  · rename_i hw
    cases hm : m.get? var with
    | some t =>
        rw [hm] at h
        obtain ⟨x, hx, hid, rfl⟩ := h
        exact ⟨x, registeredIn_snoc.2 (.inl hx), hid, rfl⟩
    | none =>
        rw [hm] at h
        intro x hx hid
        obtain hx | ⟨hx, -⟩ := registeredIn_snoc.1 hx
        · exact h x hx hid
        · cases he.symm.trans hx
          exact hw hid.symm

theorem id_mem_minted (h : e.thread? = some x) : x.1.id ∈ e.minted := by
  unfold thread? at h
  split at h
  · cases h
    exact List.mem_cons_self
  · cases h

/-- Where no identity is handed out twice, a thread is registered once. -/
theorem RegisteredIn.unique {y : Var × String} (hn : (H.flatMap minted).Nodup)
    (hx : RegisteredIn k x H) (hy : RegisteredIn k y H) (he : x.1.id = y.1.id) : x = y := by
  obtain ⟨past, d, hp, hd, -⟩ := hx
  obtain ⟨past', e, hp', he', -⟩ := hy
  have hde : d = e := by
    refine eq_of_nodup_flatMap hn (hp.subset (by simp)) (hp'.subset (by simp)) (id_mem_minted hd) ?_
    rw [he]
    exact id_mem_minted he'
  rw [hde, he'] at hd
  exact (Option.some.inj hd).symm

end Event

/-- The threads of a function. -/
def Scope.threads? (x : Scope) : Option (OrderedMap Var IterVar) := x.func?.map FuncScope.threads

theorem Scope.steady_threads : Scope.Steady Scope.threads? where
  init _ _ := rfl
  branch _ _ := rfl

theorem Scope.Refines.threads? {x y : Scope} (h : x.Refines y) : y.threads? = x.threads? := by
  cases h with
  | block _ => rfl
  | func h => exact congrArg some h

/-- A function is opened without threads. -/
theorem Opening.Makes.threads? {b : Builder} {o : Opening} {v : Value} {x : Scope}
    (h : o.Makes b v x) {m : OrderedMap Var IterVar} (hm : x.threads? = some m) : m = ∅ := by
  cases h with
  | primFunc _ _ => exact (Option.some.inj hm).symm
  | _ => cases hm

namespace Builder

variable {b : Builder}

/-- A thread goes to the function, which is outermost. -/
theorem threads_registerThread (hs : Scope.Stacked (b.frames.map Frame.scope)) (v : Var)
    (tag : String) : (b.registerThread v tag).told Scope.threads? =
      (b.told Scope.threads?).map fun r => (r.1, r.2.map (·.insert v (.thread none v tag))) := by
  rw [told, told, registerThread]
  dsimp only
  generalize b.frames = fs at hs
  induction fs with
  | nil => rfl
  | cons f fs ih =>
      obtain ⟨hf, -, hr⟩ := hs
      cases hx : f.scope with
      | func g =>
          rw [hx] at hf
          obtain rfl : fs = [] := List.map_eq_nil_iff.1 hf
          simp [updateFunc, hx, Frame.key, Frame.kind, Scope.kind, Scope.threads?, Scope.func?]
      | block _ | blockInit | branch _ | thenCase | elseCase | wrap _ =>
          simp only [updateFunc, hx, List.map_cons, ih hr]
          rfl

/-- The function is the only one. -/
theorem nearestFunc?_of_mem (hs : Scope.Stacked (b.frames.map Frame.scope)) {f : Frame}
    {g : FuncScope} (hf : f ∈ b.frames) (hg : f.scope = .func g) : b.nearestFunc? = some g := by
  rw [nearestFunc?]
  generalize b.frames = fs at hs hf
  induction fs with
  | nil => cases hf
  | cons f' fs ih =>
      obtain ⟨hx, -, hr⟩ := hs
      rw [List.findSome?_cons]
      obtain rfl | hf := List.mem_cons.1 hf
      · rw [hg]
        rfl
      · cases hf' : f'.scope with
        | func g' =>
            rw [hf'] at hx
            obtain rfl : fs = [] := List.map_eq_nil_iff.1 hx
            cases hf
        | block _ | blockInit | branch _ | thenCase | elseCase | wrap _ => exact ih hr hf

end Builder

/-- A call leaves the threads of the function alone or else registers one more. -/
theorem Call.Does.threads {b b' : Builder} {s : Supply} {c : Call} {v : Value} {eff : Effect}
    (h : c.Does b s v eff) (hp : b.performed eff = .ok b') :
    let e := Event.called s c v
    e.thread? = none ∧ b'.told Scope.threads? = b.told Scope.threads? ∨
    ∃ w tag, e.thread? = some (w, tag) ∧ b' = b.registerThread w tag := by
  intro e
  cases eff with
  | setTop y =>
      obtain ⟨x, top, hr⟩ := h.refines
      cases hp
      exact .inl ⟨by cases h <;> rfl, Builder.told_setTop_eq top hr.kind hr.threads?⟩
  | append stmt => exact .inl ⟨by cases h <;> rfl, Builder.told_appended hp⟩
  | registerThread w tag =>
      cases h
      cases hp
      exact .inr ⟨w, w.name, rfl, rfl⟩

/-- The functions that are open keep the threads that have been registered inside them. -/
def Builder.Registers (b : Builder) (H : List Event) : Prop :=
  ∀ r ∈ b.told Scope.threads?, ∀ m, r.2 = some m → ∀ var, Event.Finds H r.1 var (m.get? var)

theorem Builder.Registers.quiet {H : List Event} {b b' : Builder} {e : Event} (h : b.Registers H)
    (he : e.thread? = none) (ht : b'.told Scope.threads? ⊆ b.told Scope.threads?) :
    b'.Registers (H ++ [e]) := by
  intro r hr m hm var
  rw [Event.finds_snoc_of_quiet he]
  exact h r (ht hr) m hm var

namespace Builder.Lived

variable {config : Config} {H : List Event} {b : Builder}

theorem registers (h : Lived config H b) : b.Registers H := by
  induction h with
  | start => simp [Registers, told]
  | @step H b e b' past last ih =>
      have took := last.took
      cases e with
      | entered _ | failed _ | closed _ | discarded _ _ =>
          exact ih.quiet rfl (took.told_subset Scope.steady_threads rfl (by simp))
      | opened id o v =>
          obtain ⟨x, s, s', hx, rfl, rfl⟩ := took
          refine List.forall_mem_cons.2 ⟨fun m hm var => ?_, ih.quiet rfl (List.Subset.refl _)⟩
          -- Nothing has been registered in a scope that is only now opened.
          rw [Event.finds_snoc_of_quiet rfl, (Opening.scope_makes hx).threads? hm]
          exact fun y hy => absurd (past.lt_of_opened hy.opened) (Nat.lt_irrefl _)
      | called s c v =>
          obtain ⟨eff, s', he, hp⟩ := took
          obtain ⟨hn, ht⟩ | ⟨w, tag, hw, rfl⟩ := (Call.effect_does he).threads hp
          · exact ih.quiet hn (by rw [ht]; exact List.Subset.refl _)
          · intro r hr m hm var
            rw [threads_registerThread past.stacked] at hr
            obtain ⟨r₀, hr₀, rfl⟩ := List.mem_map.1 hr
            obtain ⟨m₀, hm₀, rfl⟩ := Option.map_eq_some_iff.1 hm
            have hopen : r₀.1 ∈ Event.unclosed H := (past.mem_unclosed_iff _).2 ⟨_, hr₀⟩
            exact (ih r₀ hr₀ m₀ hm₀ var).insert hw hopen

/-- The function that is open is the one whose threads are looked up. -/
theorem finds (h : Lived config H b) {k : Nat} (hk : (k, .primFunc) ∈ Event.unclosed H) :
    ∃ g, b.nearestFunc? = some g ∧
      ∀ var, Event.Finds H (k, .primFunc) var (g.threads.get? var) := by
  rw [h.unclosed_eq, List.mem_reverse] at hk
  obtain ⟨f, hf, hkey⟩ := List.mem_map.1 hk
  obtain ⟨g, hg⟩ := Scope.eq_func (congrArg Prod.snd hkey : f.scope.kind = .primFunc)
  have hr : ((k, .primFunc), some g.threads) ∈ b.told Scope.threads? :=
    List.mem_map.2 ⟨f, hf, by rw [hkey, hg]; rfl⟩
  exact ⟨g, nearestFunc?_of_mem h.stacked hf hg, h.registers _ hr _ rfl⟩

theorem nearestFunc?_eq_none (h : Lived config H b)
    (hn : ∀ k, (k, .primFunc) ∉ Event.unclosed H) : b.nearestFunc? = none := by
  rw [nearestFunc?, List.findSome?_eq_none_iff]
  intro f hf
  cases hx : f.scope with
  | func g =>
      refine absurd ?_ (hn f.id)
      rw [h.unclosed_eq, List.mem_reverse]
      exact List.mem_map.2 ⟨f, hf, by rw [Frame.key, Frame.kind, hx]; rfl⟩
  | _ => rfl

end Builder.Lived

/-! Launches. -/

/-- The scope that was opened first of those that are open. -/
def Builder.outermost? (b : Builder) : Option (Nat × ScopeKind) :=
  (b.frames.map Frame.key).getLast?

/-- There is something around a thread that is launched, for as long as the scope is open. -/
theorem Event.Took.outermost {b b' : Builder} {e : Event} (h : e.Took b b')
    (hb : ∀ k, b.outermost? = some k → k.2 ≠ .launchThread) :
    ∀ k, b'.outermost? = some k → k.2 ≠ .launchThread := by
  have hm := h.moves
  rw [Builder.outermost?] at hb ⊢
  cases e with
  | opened id o v =>
      rw [hm.2.2]
      cases hk : b.frames.map Frame.key with
      | cons l ls =>
          rw [List.getLast?_cons_cons, ← hk]
          exact hb
      | nil =>
          rintro _ ⟨⟩ ho
          obtain ⟨x, s, s', hx, -, -⟩ := h
          cases Opening.scope_makes hx with
          | launchThread _ _ inside _ =>
              rw [Builder.nearestFunc?, List.map_eq_nil_iff.1 hk] at inside
              cases inside
          | _ => cases ho
  | closed id | discarded id _ =>
      obtain ⟨-, kind, hf⟩ := hm
      rw [hf] at hb
      cases hk : b'.frames.map Frame.key with
      | nil => simp
      | cons l ls =>
          rw [hk, List.getLast?_cons_cons] at hb
          exact hb
  | entered _ | called _ _ _ | failed _ =>
      rw [hm.2]
      exact hb

/-- The head of a launch of the thread `x`. -/
def Head.launch (x : Var × String) (extent : Expr) : Head :=
  .attr (.iterVar ⟨some ⟨.int 0 x.1.dtype, extent⟩, x.1, .threadIndex, x.2⟩) "thread_extent" extent

namespace Opening

variable {b : Builder} {var : Var}

theorem scope_launch {x : Var × String}
    (found : registeredThread b var = .ok ⟨none, x.1, .threadIndex, x.2⟩) (extent : Expr) (s : Supply) :
    (launchThread var extent).scope b s =
      .ok ((.wrap { kind := .launchThread, heads := [.launch x extent] }, .var x.1), s) := by
  rw [Opening.scope, Attempt.bind_apply, Attempt.check_apply, found]
  rfl

theorem scope_launch_refused {e : BuildError} (missing : registeredThread b var = .error e)
    (extent : Expr) (s : Supply) :
    (launchThread var extent).scope b s = .error (.refused e) := by
  rw [Opening.scope, Attempt.bind_apply, Attempt.check_apply, missing]

end Opening

namespace Program

variable {supply : Supply} {acts : List Action} {t : ThreadId} {id : SessionId}

theorem outermost_run (supply : Supply) (acts : List Action) (id : SessionId) :
    ∀ k, ((run supply acts).world.builder id).outermost? = some k → k.2 ≠ .launchThread := by
  induction acts using List.reverseRecOn with
  | nil => simp [Builder.outermost?, run, World.start]
  | append_singleton acts a ih =>
      have hq := passes (sound_run supply acts) (seated_run supply acts) (guarded_run supply acts)
        a id
      rw [run_append]
      generalize (run supply acts).step a = q at hq
      cases hq with
      | rest _ _ frames _ _ _ => rwa [Builder.outermost?, frames]
      | entered _ _ _ builder => simp [Builder.outermost?, builder]
      | event _ took _ => exact took.outermost ih

/-- The launch of the thread `x`, which was registered in the function `k`, with `extent`. -/
structure Launches (supply : Supply) (acts : List Action) (t : ThreadId) (id : SessionId)
    (var : Var) (extent : Expr) (k : Nat × ScopeKind) (x : Var × String) : Prop where
  opened :
    let w := (run supply acts).world
    let scope := Scope.wrap { kind := .launchThread, heads := [.launch x extent] }
    w.openScope t (.launchThread var extent) =
      (.ok (⟨id, (w.builder id).nextId, .launchThread⟩, .var x.1),
        { w with builder := update w.builder id ((w.builder id).push scope) })
  /-- Whatever comes in between, the scope is closed to one node around what was done in it. -/
  closed (more : List Action) (f : Frame) (fs : List Frame) :
    let n := ((run supply acts).world.builder id).nextId
    let w := (run supply (acts ++ .openScope t (.launchThread var extent) :: more)).world
    let b := w.builder id
    b.frames = f :: fs → f.id = n → ∃ g gs, fs = g :: gs ∧
      let node := Stmt.under (.launch x extent) (.sequence f.stmts)
      let around : Frame := { g with stmts := g.stmts ++ [node] }
      w.close ⟨id, n, .launchThread⟩ =
        (.ok (), { w with builder := update w.builder id { b with frames := around :: gs } })
  /-- The thread stays registered. -/
  stays (more : List Action) : Event.RegisteredIn k x ((run supply (acts ++ more)).history id)

/-- A launch that has been opened is the scope of one head, for as long as it is open. -/
theorem launched {var : Var} {extent : Expr} {x : Var × String} (hx : x.2 = x.1.name)
    (live : (run supply acts).world.live t = some id)
    (found : Opening.registeredThread ((run supply acts).world.builder id) var =
      .ok ⟨none, x.1, .threadIndex, x.2⟩) {more : List Action} {f : Frame} {fs : List Frame}
    (hf : ((run supply (acts ++ .openScope t (.launchThread var extent) :: more)).world.builder
      id).frames = f :: fs) (hid : f.id = ((run supply acts).world.builder id).nextId) :
    f.kind = .launchThread ∧
      ∃ w, f.scope = .wrap w ∧ w.heads = [.launch x extent] := by
  have hp := pending_opened live (by rw [Builder.openScope_eq, Opening.scope_launch found extent])
  rw [List.append_cons] at hf
  obtain ⟨y, ys, hy, shows⟩ := (shows_run supply _ id).scopes_of_cons hf
  have lasts := pending_lasts (by rw [hp]; exact List.mem_cons_self)
    (by rw [hy]; exact List.mem_cons_self) (shows.1.symm.trans hid)
  have hk := keys_run supply (acts ++ [.openScope t (.launchThread var extent)] ++ more) id
  rw [hy, hf] at hk
  have hkind : y.opening.kind = f.kind := congrArg Prod.snd (List.cons.inj hk).1
  have hshow := shows.2.1
  rw [lasts.opening] at hkind hshow
  rw [lasts.value] at hshow
  refine ⟨hkind.symm, ?_⟩
  generalize f.scope = scope at hshow
  cases hshow with
  | wrap _ hw =>
      refine ⟨_, rfl, hw.trans ?_⟩
      simp only [Opening.heads, Value.asVar, Head.launch, hx]

theorem registeredThread_unopened (live : (run supply acts).world.live t = some id)
    (hn : ∀ k, (k, .primFunc) ∉ Event.unclosed ((run supply acts).history id)) (var : Var) :
    Opening.registeredThread ((run supply acts).world.builder id) var =
      .error (.noEnclosingScope "launch_thread" .primFunc) := by
  obtain ⟨config, H, hh, hl⟩ := lived_run ((seated_run supply acts).held t id live)
  rw [hh] at hn
  rw [Opening.registeredThread, hl.nearestFunc?_eq_none hn]
  rfl

/-- The threads that are found in an open function are those registered inside it. A thread was
registered under the tag that its variable is named by. -/
theorem registeredThread_cases (live : (run supply acts).world.live t = some id) {k : Nat}
    (hk : (k, .primFunc) ∈ Event.unclosed ((run supply acts).history id)) (var : Var) :
    let H := (run supply acts).history id
    let found := Opening.registeredThread ((run supply acts).world.builder id) var
    (∃ x, Event.RegisteredIn (k, .primFunc) x H ∧ x.1.id = var.id ∧ x.2 = x.1.name ∧
      found = .ok ⟨none, x.1, .threadIndex, x.2⟩) ∨
    (∀ x, Event.RegisteredIn (k, .primFunc) x H → x.1.id ≠ var.id) ∧
      found = .error (.unknownEnvThread var.text) := by
  obtain ⟨config, H, hh, hl⟩ := lived_run ((seated_run supply acts).held t id live)
  rw [hh] at hk ⊢
  obtain ⟨g, hg, finds⟩ := hl.finds hk
  have found := finds var
  simp only [Event.registeredIn_entered, Opening.registeredThread, hg]
  cases ht : g.threads.get? var with
  | none =>
      rw [ht] at found
      exact .inr ⟨found, rfl⟩
  | some u =>
      rw [ht] at found
      obtain ⟨x, hx, hid, rfl⟩ := found
      have hname := congrArg IterVar.tag (Nest.registered_thread hl.stacked hg ht)
      exact .inl ⟨x, hx, hid, hname, rfl⟩

theorem launches_of_registered (hs : Function.Injective supply.stream)
    (live : (run supply acts).world.live t = some id) {k : Nat}
    (hk : (k, .primFunc) ∈ Event.unclosed ((run supply acts).history id)) {var : Var}
    {x : Var × String} (hx : Event.RegisteredIn (k, .primFunc) x ((run supply acts).history id))
    (hid : x.1.id = var.id) (extent : Expr) :
    Launches supply acts t id var extent (k, .primFunc) x := by
  obtain ⟨y, hy, hyid, hname, found⟩ | ⟨hn, -⟩ := registeredThread_cases live hk var
  · obtain rfl : y = x := hy.unique (minted_nodup hs acts id) hx (hyid.trans hid.symm)
    constructor
    · exact World.openScope_opened live (Opening.scope_launch found extent _)
    · intro more f fs n w b hf hfid
      obtain ⟨hkind, z, hz, hheads⟩ := launched hname live found hf hfid
      cases fs with
      | nil =>
          have houter := outermost_run supply
            (acts ++ .openScope t (.launchThread var extent) :: more) id f.key
          rw [Builder.outermost?, show Builder.frames _ = [f] from hf] at houter
          exact absurd hkind (houter rfl)
      | cons g gs =>
          have hclose : f.close (w.builder id).config =
              .ok (.stmts [.under (.launch y extent) (.sequence f.stmts)]) := by
            simp only [Frame.close, hz, Wrapper.close, hheads]
            rfl
          have hc := World.close_of_top (w := w) hf .launchThread
          rw [hfid, hclose, Except.bind, Builder.delivered, Nest.appendedAll_of_top rfl] at hc
          exact ⟨g, gs, rfl, hc⟩
    · exact fun more => hx.mono (history_lasts supply acts more id)
  · exact absurd hid (hn x hx)

/-- A thread is launched in a function in which it has been registered, wherever that was and under
whatever name it is launched; there is no function, or the thread is unknown, otherwise. Each
launch makes a node of its own around its body, from the thread as it was registered and from the
extent of this launch. -/
theorem launch_thread_registered (supply : Supply) (acts : List Action) (t : ThreadId) (var : Var)
    (extent : Expr) :
    let p := run supply acts
    let w := p.world
    let r := w.openScope t (.launchThread var extent)
    ((∃ g, r.1 = .ok g) ↔ ∃ id k x, w.live t = some id ∧
      (k, .primFunc) ∈ Event.unclosed (p.history id) ∧
      Event.RegisteredIn (k, .primFunc) x (p.history id) ∧ x.1.id = var.id) ∧
    ∀ id, w.live t = some id →
      let refused (e : BuildError) : Except Failure (Guard × Value) × World :=
        (.error (.refused e),
          { w with builder := update w.builder id ((w.builder id).record e) })
      ((∀ k, (k, .primFunc) ∉ Event.unclosed (p.history id)) →
        r = refused (.noEnclosingScope "launch_thread" .primFunc)) ∧
      ∀ k, (k, .primFunc) ∈ Event.unclosed (p.history id) →
        ((∀ x, Event.RegisteredIn (k, .primFunc) x (p.history id) → x.1.id ≠ var.id) →
          r = refused (.unknownEnvThread var.text)) ∧
        (Function.Injective supply.stream → ∀ x,
          Event.RegisteredIn (k, .primFunc) x (p.history id) → x.1.id = var.id →
          Launches supply acts t id var extent (k, .primFunc) x) := by
  intro p w r
  constructor
  · constructor
    · rintro ⟨g, hg⟩
      cases live : w.live t with
      | none => simp [r, World.openScope_of_idle live] at hg
      | some id =>
          have refused {e : BuildError}
              (missing : Opening.registeredThread (w.builder id) var = .error e) : False := by
            have hr := World.openScope_refused live (Opening.scope_launch_refused missing extent _)
            rw [show r = _ from hr] at hg
            cases hg
          by_cases hopen : ∃ k, (k, .primFunc) ∈ Event.unclosed (p.history id)
          · obtain ⟨k, hk⟩ := hopen
            obtain ⟨x, hx, hid, -, -⟩ | ⟨-, missing⟩ := registeredThread_cases live hk var
            · exact ⟨id, k, x, rfl, hk, hx, hid⟩
            · exact (refused missing).elim
          · exact (refused (registeredThread_unopened live (not_exists.1 hopen) var)).elim
    · rintro ⟨id, k, x, live, hk, hx, hid⟩
      obtain ⟨y, -, -, -, found⟩ | ⟨hn, -⟩ := registeredThread_cases live hk var
      · exact ⟨_, congrArg Prod.fst (World.openScope_opened live (Opening.scope_launch found extent _))⟩
      · exact absurd hid (hn x hx)
  · intro id live refused
    refine ⟨fun hn => ?_, fun k hk => ⟨fun hn => ?_, fun hs x hx hid => ?_⟩⟩
    · have missing := registeredThread_unopened live hn var
      exact World.openScope_refused live (Opening.scope_launch_refused missing extent _)
    · obtain ⟨x, hx, hid, -, -⟩ | ⟨-, missing⟩ := registeredThread_cases live hk var
      · exact absurd hid (hn x hx)
      · exact World.openScope_refused live (Opening.scope_launch_refused missing extent _)
    · exact launches_of_registered hs live hk hx hid extent

/-- The thread that `threading` registers. -/
def threadingVar : Var := ⟨0, "threadIdx.x", .int 32, none⟩

/-- A function in which a thread is launched that was registered in a block. The block is closed. -/
def threading : List Action := [.enter 0 {}, .openScope 0 .primFunc,
  .openScope 0 (.block "B" false), .call 0 (.envThread "threadIdx.x"), .close ⟨0, 1, .block⟩,
  .openScope 0 (.launchThread threadingVar (.int32 4))]

/-- The thread can be launched once more inside, under another name and with another extent. When
there was no function, and before it was registered, it could not. -/
theorem launch_thread_registered_renamed :
    let v := threadingVar.renamed "x"
    let attempt (acts : List Action) :=
      ((run .counting acts).world.openScope 0 (.launchThread v (.int32 8))).1
    attempt (threading.take 1) =
      .error (.refused (.noEnclosingScope "launch_thread" .primFunc)) ∧
    attempt (threading.take 3) = .error (.refused (.unknownEnvThread "x")) ∧
    (∃ g, attempt threading = .ok g) ∧
    Launches .counting threading 0 0 v (.int32 8) (0, .primFunc)
      (threadingVar, "threadIdx.x") := by
  intro v attempt
  have registered : Event.RegisteredIn (0, .primFunc) (threadingVar, "threadIdx.x")
      ((run .counting threading).history 0) :=
    ⟨[_, _, _], _, ⟨_, rfl⟩, rfl, by decide⟩
  obtain ⟨accepted, later⟩ := launch_thread_registered .counting threading 0 v (.int32 8)
  refine ⟨?_, ?_, accepted.2 ⟨0, 0, _, rfl, by decide, registered, rfl⟩,
    (later 0 rfl).2 0 (by decide) |>.2 Function.injective_id _ registered rfl⟩
  · obtain ⟨-, early⟩ := launch_thread_registered .counting (threading.take 1) 0 v (.int32 8)
    exact congrArg Prod.fst ((early 0 rfl).1 fun k hk => by cases hk)
  · obtain ⟨-, early⟩ := launch_thread_registered .counting (threading.take 3) 0 v (.int32 8)
    refine congrArg Prod.fst (((early 0 rfl).2 0 (by decide)).1 fun x hx => ?_)
    obtain ⟨past, e, hp, he, -⟩ := hx
    have hm := hp.subset (List.mem_append_right past (List.mem_singleton_self e))
    change e ∈ [_, _, _] at hm
    simp only [List.mem_cons, List.not_mem_nil, or_false] at hm
    obtain rfl | rfl | rfl := hm <;> cases he

end Program

end TensorProgram
