import TensorProgram.World

/-!
The operations on a builder as transactions. Each operation, which is carried out in
place, is given once more as a function that makes the new builder or refuses; what a
call does is first worked out as one effect and then performed. The two agree, and an
operation that fails leaves the builder that it found: whatever it looks at or mints
before it fails, it has written nothing.
-/

namespace TensorProgram

section

variable {α β ε : Type}

@[simp]
theorem ok_bind (a : α) (f : α → Except ε β) : (Except.ok a >>= f) = f a := rfl

@[simp]
theorem error_bind (e : ε) (f : α → Except ε β) : (Except.error e >>= f) = .error e := rfl

@[simp]
theorem pure_eq_ok (a : α) : (pure a : Except ε α) = .ok a := rfl

@[simp]
theorem throw_eq_error (e : ε) : (throw e : Except ε α) = .error e := rfl

end

/-- A step of an operation that works in place, and what comes after it. -/
@[simp]
theorem bind_inPlace {ε σ α β : Type} (x : ExceptT ε (StateM σ) α)
    (f : α → ExceptT ε (StateM σ) β) (s : σ) :
    (x >>= f) s = match x s with
      | (.ok a, s') => f a s'
      | (.error e, s') => (.error e, s') := by
  have hb : (x >>= f) s = ExceptT.bindCont f (x s).1 (x s).2 := rfl
  rw [hb]
  cases x s with
  | mk r s' =>
      cases r with
      | error e => rfl
      | ok a => rfl

namespace Change

variable {α β : Type}

@[simp]
theorem pure_apply (a : α) (b : Builder) : (pure a : Change α) b = (.ok a, b) := rfl

@[simp]
theorem throw_apply (e : BuildError) (b : Builder) : (throw e : Change α) b = (.error e, b) := rfl

@[simp]
theorem get_apply (b : Builder) : (get : Change Builder) b = (.ok b, b) := rfl

@[simp]
theorem look_apply (f : Builder → Except BuildError α) (b : Builder) :
    look f b = (f b, b) := rfl

@[simp]
theorem write_apply (f : Builder → Builder) (b : Builder) : write f b = (.ok (), f b) := rfl

@[simp]
theorem takeResult_apply (b : Builder) :
    takeResult b = (.ok b.result, { b with result := none }) := rfl

@[simp]
theorem setResult_apply (r : Output) (b : Builder) :
    setResult r b = (.ok (), { b with result := some r }) := rfl

end Change

namespace Builder

/-- The outcome of a change to `b` that makes a new builder or nothing. -/
def settle (b : Builder) : Except BuildError Builder → Except BuildError Unit × Builder
  | .ok b' => (.ok (), b')
  | .error e => (.error e, b)

/-- The builder with `s` delivered to it. -/
def appended (b : Builder) (s : Stmt) : Except BuildError Builder :=
  match b.frames with
  | f :: fs => .ok { b with frames := { f with stmts := f.stmts ++ [s] } :: fs }
  | [] =>
      match b.result with
      | none => .ok { b with result := some (.stmt s) }
      | some (.stmt r) => .ok { b with result := some (.stmt (.sequence [r, s])) }
      | some (.func _) => .error .statementAfterFunction

def appendedAll (b : Builder) : List Stmt → Except BuildError Builder
  | [] => .ok b
  | s :: ss => (b.appended s).bind (·.appendedAll ss)

/-- The builder with the product of a removed scope delivered to it. -/
def delivered (b : Builder) : Product → Except BuildError Builder
  | .stmts ss => b.appendedAll ss
  | .func f =>
      match b.topKind? with
      | some top => .error (.nestedFunction top)
      | none =>
          if b.result.isSome then .error .functionAfterResult
          else .ok { b with result := some (.func f) }
  | .blockInit s =>
      (b.topBlock "init").map fun x => b.setTop (.block { x with init := some s })
  | .thenCase s =>
      (b.topBranch "then_").map fun i => b.setTop (.branch { i with thenCase := some s })
  | .elseCase s =>
      (b.topBranch "else_").map fun i => b.setTop (.branch { i with elseCase := some s })

end Builder

open Builder

theorem Change.append_eq (s : Stmt) (b : Builder) :
    Change.append s b = b.settle (b.appended s) := by
  cases hf : b.frames with
  | cons f fs => simp [Change.append, appended, settle, hf]
  | nil =>
      cases hr : b.result with
      | none => simp [Change.append, appended, settle, hf, hr]
      | some r =>
          cases r with
          | stmt r => simp [Change.append, appended, settle, hf, hr]
          | func g =>
              -- The result is taken out and, as the statement is refused, put back.
              have hb : { b with frames := [], result := some (.func g) } = b := by rw [← hf, ← hr]
              simp [Change.append, appended, settle, hf, hr, hb]

/-- Only a function that is the result keeps statements out. -/
theorem Builder.appended_eq_error_iff {b : Builder} {s : Stmt} {e : BuildError} :
    b.appended s = .error e ↔
      b.frames = [] ∧ (∃ f, b.result = some (.func f)) ∧ e = .statementAfterFunction := by
  rw [appended]
  cases b.frames with
  | cons f fs => simp
  | nil =>
      cases b.result with
      | none => simp
      | some r => cases r <;> simp [eq_comm]

/-- A statement joins the innermost scope or, when none is open, the result. -/
theorem Builder.appended_eq_ok {b b' : Builder} {s : Stmt} (h : b.appended s = .ok b') :
    (∃ f fs, b.frames = f :: fs ∧
      b' = { b with frames := { f with stmts := f.stmts ++ [s] } :: fs }) ∨
    (b.frames = [] ∧ ∃ r, b' = { b with result := some (.stmt r) }) := by
  rw [appended] at h
  cases hf : b.frames with
  | cons f fs =>
      simp only [hf, Except.ok.injEq] at h
      exact Or.inl ⟨f, fs, rfl, h.symm⟩
  | nil =>
      simp only [hf] at h
      refine Or.inr ⟨rfl, ?_⟩
      cases hr : b.result with
      | none =>
          simp only [hr, Except.ok.injEq] at h
          exact ⟨s, by rw [← h, ← hf]⟩
      | some r =>
          cases r with
          | stmt r =>
              simp only [hr, Except.ok.injEq] at h
              exact ⟨.sequence [r, s], by rw [← h, ← hf]⟩
          | func g => simp [hr] at h

theorem Builder.appended_accepts {b b' : Builder} {s : Stmt} (h : b.appended s = .ok b') :
    b'.frames ≠ [] ∨ ∃ r, b'.result = some (.stmt r) := by
  obtain ⟨f, fs, -, rfl⟩ | ⟨-, r, rfl⟩ := appended_eq_ok h
  · exact Or.inl (List.cons_ne_nil _ _)
  · exact Or.inr ⟨r, rfl⟩

/-- What holds between a builder and the one after a statement holds after any number. -/
theorem Builder.appendedAll_induction {R : Builder → Builder → Prop} (refl : ∀ b, R b b)
    (trans : ∀ {a b c}, R a b → R b c → R a c)
    (append : ∀ {b b' s}, b.appended s = .ok b' → R b b') {ss : List Stmt} {b b' : Builder}
    (h : b.appendedAll ss = .ok b') : R b b' := by
  induction ss generalizing b with
  | nil =>
      cases h
      exact refl _
  | cons s ss ih =>
      cases hs : b.appended s with
      | error e => simp [appendedAll, hs, Except.bind] at h
      | ok b'' =>
          rw [appendedAll, hs] at h
          exact trans (append hs) (ih h)

/-- Once a statement is accepted, so are all that follow. -/
theorem Builder.appendedAll_of_accepts (ss : List Stmt) {b : Builder}
    (h : b.frames ≠ [] ∨ ∃ r, b.result = some (.stmt r)) :
    ∃ b', b.appendedAll ss = .ok b' := by
  induction ss generalizing b with
  | nil => exact ⟨b, rfl⟩
  | cons s ss ih =>
      cases hs : b.appended s with
      | ok b' =>
          obtain ⟨b'', h'⟩ := ih (appended_accepts hs)
          exact ⟨b'', by simpa [appendedAll, hs, Except.bind] using h'⟩
      | error e =>
          obtain ⟨hf, ⟨g, hg⟩, -⟩ := appended_eq_error_iff.1 hs
          obtain h | ⟨r, hr⟩ := h
          · exact absurd hf h
          · rw [hr] at hg
            cases hg

theorem Change.appendAll_eq (ss : List Stmt) (b : Builder) :
    Change.appendAll ss b = b.settle (b.appendedAll ss) := by
  induction ss generalizing b with
  | nil => rfl
  | cons s ss ih =>
      simp only [Change.appendAll, bind_inPlace, Change.append_eq, appendedAll]
      cases hs : b.appended s with
      | error e => rfl
      | ok b' =>
          -- No later statement is refused, so there is no half-written list to undo.
          obtain ⟨b'', h'⟩ := appendedAll_of_accepts ss (appended_accepts hs)
          simp [settle, ih, h', Except.bind]

theorem Change.deliver_eq (p : Product) (b : Builder) :
    Change.deliver p b = b.settle (b.delivered p) := by
  cases p with
  | stmts ss => exact Change.appendAll_eq ss b
  | func f =>
      cases ht : b.topKind? with
      | some top => simp [Change.deliver, delivered, settle, ht]
      | none => cases hr : b.result <;> simp [Change.deliver, delivered, settle, ht, hr]
  | blockInit s =>
      cases h : b.topBlock "init" <;> simp [Change.deliver, delivered, settle, Except.map, h]
  | thenCase s =>
      cases h : b.topBranch "then_" <;> simp [Change.deliver, delivered, settle, Except.map, h]
  | elseCase s =>
      cases h : b.topBranch "else_" <;> simp [Change.deliver, delivered, settle, Except.map, h]

namespace Edit

variable {α β : Type}

@[simp]
theorem pure_apply (a : α) (p : Builder × Supply) : (pure a : Edit α) p = (.ok a, p) := rfl

@[simp]
theorem map_apply (f : α → β) (x : Edit α) (p : Builder × Supply) :
    (f <$> x) p = match x p with
      | (.ok a, p') => (.ok (f a), p')
      | (.error e, p') => (.error e, p') := by
  rw [← bind_pure_comp, bind_inPlace]
  rcases x p with ⟨_ | _, _⟩ <;> rfl

@[simp]
theorem get_apply (p : Builder × Supply) : (get : Edit (Builder × Supply)) p = (.ok p, p) := rfl

@[simp]
theorem refuse_apply (e : BuildError) (p : Builder × Supply) :
    (refuse e : Edit α) p = (.error (.refused e), p) := rfl

@[simp]
theorem write_apply (f : Builder → Builder) (b : Builder) (s : Supply) :
    write f (b, s) = (.ok (), f b, s) := rfl

theorem look_apply (f : Builder → Except BuildError α) (b : Builder) (s : Supply) :
    look f (b, s) = match f b with
      | .ok a => (.ok a, b, s)
      | .error e => (.error (.refused e), b, s) := by
  cases h : f b <;> simp [look, change, h]

theorem change_append_apply (stmt : Stmt) (b : Builder) (s : Supply) :
    change (.append stmt) (b, s) = match b.appended stmt with
      | .ok b' => (.ok (), b', s)
      | .error e => (.error (.refused e), b, s) := by
  cases h : b.appended stmt <;> simp [change, Change.append_eq, settle, h]

theorem attempt_apply (x : Builder → Attempt α) (b : Builder) (s : Supply) :
    attempt x (b, s) = match x b s with
      | .ok (a, s') => (.ok a, b, s')
      | .error e => (.error e, b, s) := rfl

end Edit

namespace Attempt

variable {α β : Type}

theorem bind_apply (x : Attempt α) (f : α → Attempt β) (s : Supply) :
    (x >>= f) s = match x s with
      | .ok (a, s') => f a s'
      | .error e => .error e := by
  have hb : (x >>= f) s = (x s).bind fun p => f p.1 p.2 := rfl
  rw [hb]
  cases x s with
  | error e => rfl
  | ok p => rfl

theorem pure_apply (a : α) (s : Supply) : (pure a : Attempt α) s = .ok (a, s) := rfl

theorem check_apply (x : Except BuildError α) (s : Supply) :
    check x s = match x with
      | .ok a => .ok (a, s)
      | .error e => .error (.refused e) := by
  cases x <;> rfl

theorem exact_apply (x : Except Overflow α) (s : Supply) :
    exact x s = match x with
      | .ok a => .ok (a, s)
      | .error o => .error (.overflow o) := by
  cases x <;> rfl

theorem refuse_apply (e : BuildError) (s : Supply) :
    (refuse e : Attempt α) s = .error (.refused e) := rfl

theorem fresh_apply (name : String) (dtype : DataType) (s : Supply) :
    fresh name dtype s = .ok (Var.fresh name dtype s) := rfl

theorem declare_apply (shape : List Expr) (dtype : DataType) (o : BufferOptions) (s : Supply) :
    declare shape dtype o s = match Buffer.declare shape dtype o s with
      | .ok r => .ok r
      | .error e => .error (.refused e) := by
  have hd : declare shape dtype o s = (check (Buffer.declare shape dtype o s) >>= fun r =>
      fun _ => .ok r) s := by
    rfl
  rw [hd, bind_apply, check_apply]
  cases Buffer.declare shape dtype o s <;> rfl

theorem bind_eq_ok {x : Attempt α} {f : α → Attempt β} {s : Supply} {r : β × Supply} :
    (x >>= f) s = .ok r ↔ ∃ a s', x s = .ok (a, s') ∧ f a s' = .ok r := by
  rw [bind_apply]
  cases x s with
  | error e => simp
  | ok p =>
      constructor
      · intro h
        exact ⟨p.1, p.2, rfl, h⟩
      · intro h
        obtain ⟨a, s', hp, h⟩ := h
        cases hp
        exact h

theorem pure_eq_ok {a : α} {s : Supply} {r : α × Supply} :
    (pure a : Attempt α) s = .ok r ↔ r = (a, s) := by
  rw [pure_apply, Except.ok.injEq, eq_comm]

theorem check_eq_ok {x : Except BuildError α} {s : Supply} {r : α × Supply} :
    check x s = .ok r ↔ x = .ok r.1 ∧ r.2 = s := by
  rw [check_apply]
  cases x with
  | error e => simp
  | ok a => simp [Prod.ext_iff, eq_comm]

theorem exact_eq_ok {x : Except Overflow α} {s : Supply} {r : α × Supply} :
    exact x s = .ok r ↔ x = .ok r.1 ∧ r.2 = s := by
  rw [exact_apply]
  cases x with
  | error o => simp
  | ok a => simp [Prod.ext_iff, eq_comm]

theorem fresh_eq_ok {name : String} {dtype : DataType} {s : Supply} {r : Var × Supply} :
    fresh name dtype s = .ok r ↔ r = Var.fresh name dtype s := by
  rw [fresh_apply, Except.ok.injEq, eq_comm]

theorem declare_eq_ok {shape : List Expr} {dtype : DataType} {o : BufferOptions} {s : Supply}
    {r : Buffer × Supply} :
    declare shape dtype o s = .ok r ↔ Buffer.declare shape dtype o s = .ok r := by
  rw [declare_apply]
  cases Buffer.declare shape dtype o s <;> simp

end Attempt

/-- The one way in which a successful call changes the builder. -/
inductive Effect where
  | setTop (s : Scope)
  | registerThread (v : Var) (tag : String)
  | append (s : Stmt)

def Builder.performed (b : Builder) : Effect → Except BuildError Builder
  | .setTop s => .ok (b.setTop s)
  | .registerThread v tag => .ok (b.registerThread v tag)
  | .append s => b.appended s

namespace Call

variable {α : Type}

def blockEffect (b : Builder) (op field : String) (old : BlockScope → Option α)
    (set : BlockScope → BlockScope) : Except BuildError Effect := do
  let x ← b.topBlock op
  if (old x).isSome then throw (.duplicateSetting .block field)
  else return .setTop (.block (set x))

def funcEffect (b : Builder) (op : String) (old : FuncScope → Option α)
    (set : FuncScope → FuncScope) : Except BuildError Effect := do
  let f ← b.topFunc op
  if (old f).isSome then throw (.duplicateSetting .primFunc op)
  else return .setTop (.func (set f))

def ownEffect (b : Builder) (buffer : Buffer) : Except BuildError Effect :=
  match b.top? Scope.block?, b.top? Scope.func? with
  | some x, _ => return .setTop (.block { x with allocs := x.allocs ++ [buffer] })
  | none, some f => return .setTop (.func { f with allocs := f.allocs ++ [buffer] })
  | none, none => throw (b.misplaced "alloc_buffer" .block)

def matchEffect (b : Builder) (buffer : Buffer) : MatchTarget → Except BuildError Effect
  | .param v => do
      let f ← b.topFunc "match_buffer"
      if f.bufferMap.contains v then throw (.parameterMatched v.text)
      else return .setTop (.func { f with bufferMap := f.bufferMap.insert v buffer })
  | .region source => do
      let x ← b.topBlock "match_buffer"
      return .setTop (.block { x with matched := x.matched ++ [⟨buffer, source⟩] })

def preflattenEffect (b : Builder) (of buffer : Buffer) : Except BuildError Effect := do
  let f ← b.topFunc "preflattened_buffer"
  match f.bufferMap.entries.find? fun e => e.2.sameAs of with
  | none => throw (.bufferUnmatched of.name)
  | some (v, _) =>
      if f.preflattened.contains v then
        throw (.duplicateSetting .primFunc "preflattened_buffer")
      else return .setTop (.func { f with preflattened := f.preflattened.insert v buffer })

/-- The axes for all letters, if none is refused. -/
def remapAxes (b : Builder) (dtype : Option DataType) :
    List (Char × Expr) → Attempt (List (IterVar × Expr))
  | [] => return []
  | (c, e) :: r => return (← remapAxis b dtype c e) :: (← remapAxes b dtype r)

/-- The supply after the axes that are made before one is refused. -/
def afterAxes (b : Builder) (dtype : Option DataType) : List (Char × Expr) → Supply → Supply
  | [], s => s
  | (c, e) :: r, s =>
      match remapAxis b dtype c e s with
      | .ok (_, s') => afterAxes b dtype r s'
      | .error _ => s

/-- What the call is going to do, and the value that it gives back. -/
def effect (b : Builder) : Call → Attempt (Effect × Value)
  | .guard predicate => return (← .check (blockEffect b "where_" "where" (·.predicate)
      fun x => { x with predicate := some predicate }), .unit)
  | .reads regions => return (← .check (blockEffect b "reads" "reads" (·.reads)
      fun x => { x with reads := some regions }), .unit)
  | .writes regions => return (← .check (blockEffect b "writes" "writes" (·.writes)
      fun x => { x with writes := some regions }), .unit)
  | .blockAttrs attrs => return (← .check (blockEffect b "block_attrs" "block_attrs"
      (·.annotations) fun x => { x with annotations := some attrs }), .unit)
  | .allocBuffer shape dtype options => do
      let buffer ← .declare shape dtype (options.alignmentOr b.config.alignment)
      return (← .check (ownEffect b buffer), .buffer buffer)
  | .matchBuffer target shape dtype options => do
      let buffer ← .declare shape dtype (options.alignmentOr b.config.alignment)
      return (← .check (matchEffect b buffer target), .buffer buffer)
  | .preflattenedBuffer of shape dtype options => do
      let buffer ← .declare shape dtype { options with data := options.data.or (some of.data) }
      return (← .check (preflattenEffect b of buffer), .buffer buffer)
  | .argVar name v => do
      let f ← .check (b.topFunc "arg")
      let v := v.renamed name
      return (.setTop (.func { f with params := f.params ++ [v] }), .var v)
  | .argBuffer name buffer => do
      let v ← .fresh name .handle
      let f ← .check (b.topFunc "arg")
      let buffer := { buffer with name }
      return (.setTop (.func { f with
        params := f.params ++ [v], bufferMap := f.bufferMap.insert v buffer }), .buffer buffer)
  | .funcName name => return (← .check (funcEffect b "func_name" (·.name)
      fun f => { f with name := some name }), .unit)
  | .funcAttrs attrs => return (← .check (funcEffect b "func_attrs" (·.attrs)
      fun f => { f with attrs := some attrs }), .unit)
  | .funcRet type => return (← .check (funcEffect b "func_ret" (·.retType)
      fun f => { f with retType := some type }), .type type)
  | .envThread tag => do
      if b.nearestFunc?.isNone then .refuse (.noEnclosingScope "env_thread" .primFunc)
      else
        let v ← .fresh tag b.config.indexType
        return (.registerThread v tag, .var v)
  | .store buffer value indices => do
      .check (checkRank "buffer_store" "indices" indices.length buffer)
      return (.append (.store buffer (value.castTo buffer.dtype) indices), .unit)
  | .prefetch buffer bounds => do
      .check (checkRank "prefetch" "bounds" bounds.length buffer)
      return (.append (.prefetch buffer bounds), .unit)
  | .evaluate value => return (.append (.evaluate value), .unit)
  | .axis kind dom binding dtype => do
      let x ← .check (b.topBlock kind.op)
      let v ← .fresh "v" (dtype.getD binding.dtype)
      return (.setTop (.block { x with axes := x.axes ++ [(.axis dom v kind.iterKind, binding)] }),
        .var v)
  | .remap kinds bindings dtype => do
      if kinds.length ≠ bindings.length then
        .refuse (.bindingCount kinds.length bindings.length)
      else
        let x ← .check (b.topBlock "axis::remap")
        let axes ← remapAxes b dtype (kinds.toList.zip bindings)
        return (.setTop (.block { x with axes := x.axes ++ axes }),
          .vars (axes.map fun a => a.1.var))

end Call

namespace Edit

variable {α β : Type}

/-- What an operation on `b` comes to that is worked out as the first argument says: the
effect and nothing else, or a failure that leaves `b` and may have used up variables. -/
def Settles (b : Builder) :
    Except Failure ((Effect × α) × Supply) → Except Failure α × Builder × Supply → Prop
  | .error e, r => ∃ s', r = (.error e, b, s')
  | .ok ((eff, a), s'), r =>
      r = match b.performed eff with
        | .ok b' => (.ok a, b', s')
        | .error e => (.error (.refused e), b, s')

def Transacts (x : Edit α) (t : Builder → Attempt (Effect × α)) : Prop :=
  ∀ b s, Settles b (t b s) (x (b, s))

def perform (u : Builder → Except BuildError Effect) : Edit Unit := fun (b, s) =>
  match u b with
  | .error e => (.error (.refused e), b, s)
  | .ok eff =>
      match b.performed eff with
      | .ok b' => (.ok (), b', s)
      | .error e => (.error (.refused e), b, s)

theorem transacts_perform (u : Builder → Except BuildError Effect) (a : α) :
    Transacts (do perform u; return a) fun b => return (← .check (u b), a) := by
  intro b s
  cases hu : u b with
  | error e =>
      simp only [Attempt.bind_apply, Attempt.check_apply, hu]
      exact ⟨s, by simp [perform, hu]⟩
  | ok eff =>
      simp only [Attempt.bind_apply, Attempt.check_apply, Attempt.pure_apply, hu, Settles]
      cases hp : b.performed eff <;> simp [perform, hu, hp]

/-- What is found out first, and the variables minted for it, change nothing. -/
theorem transacts_attempt_bind {x : Builder → Attempt β} {f : β → Edit α}
    {t : β → Builder → Attempt (Effect × α)} (h : ∀ c, Transacts (f c) (t c)) :
    Transacts (attempt x >>= f) fun b => x b >>= fun c => t c b := by
  intro b s
  cases hx : x b s with
  | error e =>
      simp only [Attempt.bind_apply, bind_inPlace, attempt_apply, hx]
      exact ⟨s, rfl⟩
  | ok p =>
      have hc := h p.1 b p.2
      simpa only [Attempt.bind_apply, bind_inPlace, attempt_apply, hx] using hc

theorem transacts_look_bind {f : Builder → Except BuildError β} {g : β → Edit α}
    {t : β → Builder → Attempt (Effect × α)}
    (h : ∀ c b s, f b = .ok c → Settles b (t c b s) (g c (b, s))) :
    Transacts (look f >>= g) fun b => Attempt.check (f b) >>= fun c => t c b := by
  intro b s
  cases hf : f b with
  | error e =>
      simp only [Attempt.bind_apply, Attempt.check_apply, hf]
      exact ⟨s, by simp [look_apply, hf]⟩
  | ok c =>
      have hc := h c b s hf
      simpa only [Attempt.bind_apply, Attempt.check_apply, bind_inPlace, look_apply, hf] using hc

theorem transacts_refuse_or {p : Prop} [Decidable p] (e : BuildError) {x : Edit α}
    {t : Builder → Attempt (Effect × α)} (h : Transacts x t) :
    Transacts (if p then refuse e else x) fun b => if p then .refuse e else t b := by
  intro b s
  split
  · exact ⟨s, rfl⟩
  · exact h b s

end Edit

namespace Builder

theorem topBlock_eq_ok_iff {b : Builder} {op : String} {x : BlockScope} :
    b.topBlock op = .ok x ↔ ∃ f fs, b.frames = f :: fs ∧ f.scope = .block x := by
  rw [topBlock, top?]
  cases b.frames with
  | nil => simp
  | cons f fs =>
      cases h : f.scope <;>
        simp [h, Scope.block?]

theorem topFunc_eq_ok_iff {b : Builder} {op : String} {g : FuncScope} :
    b.topFunc op = .ok g ↔ ∃ f fs, b.frames = f :: fs ∧ f.scope = .func g := by
  rw [topFunc, top?]
  cases b.frames with
  | nil => simp
  | cons f fs =>
      cases h : f.scope <;>
        simp [h, Scope.func?]

theorem topBranch_eq_ok_iff {b : Builder} {op : String} {i : BranchScope} :
    b.topBranch op = .ok i ↔ ∃ f fs, b.frames = f :: fs ∧ f.scope = .branch i := by
  rw [topBranch, top?]
  cases b.frames with
  | nil => simp
  | cons f fs =>
      cases h : f.scope <;>
        simp [h, Scope.branch?]

theorem setTop_setTop (b : Builder) (x y : Scope) : (b.setTop x).setTop y = b.setTop y := by
  cases h : b.frames <;> simp [setTop, h]

theorem setTop_self {b : Builder} {f : Frame} {fs : List Frame} (h : b.frames = f :: fs) :
    b.setTop f.scope = b := by
  rw [setTop, h]
  simp only [← h]

theorem frames_setTop {b : Builder} {f : Frame} {fs : List Frame} (h : b.frames = f :: fs)
    (x : Scope) : (b.setTop x).frames = { f with scope := x } :: fs := by
  rw [setTop, h]

theorem result_setTop (b : Builder) (x : Scope) : (b.setTop x).result = b.result := by
  rw [setTop]
  cases b.frames <;> rfl

end Builder

namespace Call

variable {α : Type}

theorem setBlock_eq (op field : String) (old : BlockScope → Option α)
    (set : BlockScope → BlockScope) :
    setBlock op field old set = .perform fun b => blockEffect b op field old set := by
  funext ⟨b, s⟩
  cases h : b.topBlock op with
  | error e => simp [setBlock, blockEffect, Edit.perform, Edit.look_apply, h]
  | ok x =>
      cases ho : old x <;>
        simp [setBlock, blockEffect, Edit.perform, Edit.look_apply, h, ho, performed]

theorem setFunc_eq (op : String) (old : FuncScope → Option α) (set : FuncScope → FuncScope) :
    setFunc op old set = .perform fun b => funcEffect b op old set := by
  funext ⟨b, s⟩
  cases h : b.topFunc op with
  | error e => simp [setFunc, funcEffect, Edit.perform, Edit.look_apply, h]
  | ok f =>
      cases ho : old f <;>
        simp [setFunc, funcEffect, Edit.perform, Edit.look_apply, h, ho, performed]

theorem own_eq (buffer : Buffer) : own buffer = .perform fun b => ownEffect b buffer := by
  funext ⟨b, s⟩
  simp only [own, ownEffect, Edit.perform, bind_inPlace, Edit.get_apply]
  cases b.top? Scope.block? with
  | some x => rfl
  | none => cases b.top? Scope.func? <;> rfl

theorem matchTo_eq (buffer : Buffer) (target : MatchTarget) :
    matchTo buffer target = .perform fun b => matchEffect b buffer target := by
  funext ⟨b, s⟩
  cases target with
  | param v =>
      simp only [matchTo, matchEffect, Edit.perform, bind_inPlace, Edit.look_apply]
      cases b.topFunc "match_buffer" with
      | error e => rfl
      | ok f =>
          simp only [ok_bind]
          split <;> rfl
  | region source =>
      simp only [matchTo, matchEffect, Edit.perform, bind_inPlace, Edit.look_apply]
      cases b.topBlock "match_buffer" <;> rfl

theorem preflatten_eq (of buffer : Buffer) :
    preflatten of buffer = .perform fun b => preflattenEffect b of buffer := by
  funext ⟨b, s⟩
  simp only [preflatten, preflattenEffect, Edit.perform, bind_inPlace, Edit.look_apply]
  cases b.topFunc "preflattened_buffer" with
  | error e => rfl
  | ok f =>
      simp only [ok_bind]
      cases f.bufferMap.entries.find? fun e => e.2.sameAs of with
      | none => rfl
      | some e =>
          dsimp only
          split <;> rfl

/-- Axes that are added one by one are added together. -/
theorem addAxes_apply (op : String) (as : List (IterVar × Expr)) {b : Builder} {x : BlockScope}
    (h : b.topBlock op = .ok x) (s : Supply) :
    addAxes op as (b, s) = (.ok (), b.setTop (.block { x with axes := x.axes ++ as }), s) := by
  induction as generalizing b x with
  | nil =>
      obtain ⟨f, fs, hf, hx⟩ := topBlock_eq_ok_iff.1 h
      have hb : b.setTop (.block x) = b := hx ▸ setTop_self hf
      simp [addAxes, hb]
  | cons a as ih =>
      obtain ⟨f, fs, hf, hx⟩ := topBlock_eq_ok_iff.1 h
      have ht : (b.setTop (.block { x with axes := x.axes ++ [a] })).topBlock op =
          .ok { x with axes := x.axes ++ [a] } :=
        topBlock_eq_ok_iff.2 ⟨_, fs, frames_setTop hf _, rfl⟩
      simp [addAxes, Edit.look_apply, h, ih ht, setTop_setTop, List.append_assoc]

theorem makeAxes_apply (dtype : Option DataType) (ps : List (Char × Expr)) (b : Builder)
    (s : Supply) : makeAxes dtype ps (b, s) = match remapAxes b dtype ps s with
      | .ok (as, s') => (.ok as, b, s')
      | .error f => (.error f, b, afterAxes b dtype ps s) := by
  induction ps generalizing s with
  | nil => rfl
  | cons p ps ih =>
      simp only [makeAxes, remapAxes, afterAxes, bind_inPlace, Edit.attempt_apply,
        Attempt.bind_apply]
      cases remapAxis b dtype p.1 p.2 s with
      | error f => rfl
      | ok r =>
          simp only [ih]
          cases remapAxes b dtype ps r.2 <;> rfl

theorem run_transacts (c : Call) : Edit.Transacts c.run fun b => c.effect b := by
  cases c with
  | guard p => simpa only [run, setBlock_eq, effect] using Edit.transacts_perform _ _
  | reads rs => simpa only [run, setBlock_eq, effect] using Edit.transacts_perform _ _
  | writes rs => simpa only [run, setBlock_eq, effect] using Edit.transacts_perform _ _
  | blockAttrs m => simpa only [run, setBlock_eq, effect] using Edit.transacts_perform _ _
  | funcName n => simpa only [run, setFunc_eq, effect] using Edit.transacts_perform _ _
  | funcAttrs m => simpa only [run, setFunc_eq, effect] using Edit.transacts_perform _ _
  | funcRet t => simpa only [run, setFunc_eq, effect] using Edit.transacts_perform _ _
  | allocBuffer shape dtype options =>
      simp only [run, own_eq, effect]
      exact Edit.transacts_attempt_bind fun buffer => Edit.transacts_perform _ _
  | matchBuffer target shape dtype options =>
      simp only [run, matchTo_eq, effect]
      exact Edit.transacts_attempt_bind fun buffer => Edit.transacts_perform _ _
  | preflattenedBuffer of shape dtype options =>
      simp only [run, preflatten_eq, effect]
      exact Edit.transacts_attempt_bind fun buffer => Edit.transacts_perform _ _
  | argVar name v =>
      refine Edit.transacts_look_bind fun f b s h => ?_
      simp [Edit.Settles, Attempt.pure_apply, performed]
  | argBuffer name buffer =>
      refine Edit.transacts_attempt_bind fun v => Edit.transacts_look_bind fun f b s h => ?_
      simp [Edit.Settles, Attempt.pure_apply, performed, setTop_setTop]
  | envThread tag =>
      intro b s
      simp only [run, effect, bind_inPlace, Edit.get_apply]
      split
      · exact ⟨s, rfl⟩
      · rfl
  | store buffer value indices =>
      refine Edit.transacts_look_bind fun _ b s h => ?_
      cases hp : b.appended (.store buffer (value.castTo buffer.dtype) indices) <;>
        simp [Edit.Settles, Attempt.pure_apply, performed, Edit.change_append_apply, hp]
  | prefetch buffer bounds =>
      refine Edit.transacts_look_bind fun _ b s h => ?_
      cases hp : b.appended (.prefetch buffer bounds) <;>
        simp [Edit.Settles, Attempt.pure_apply, performed, Edit.change_append_apply, hp]
  | evaluate value =>
      intro b s
      cases hp : b.appended (.evaluate value) <;>
        simp [run, effect, Edit.Settles, Attempt.pure_apply, performed, Edit.change_append_apply,
          hp]
  | axis kind dom binding dtype =>
      refine Edit.transacts_look_bind fun x b s h => ?_
      simp [Edit.Settles, Edit.fresh, Edit.attempt_apply, Attempt.bind_apply,
        Attempt.fresh_apply, Attempt.pure_apply, performed, addAxes_apply _ _ h]
  | remap kinds bindings dtype =>
      refine Edit.transacts_refuse_or _ (Edit.transacts_look_bind fun x b s h => ?_)
      cases ha : remapAxes b dtype (kinds.toList.zip bindings) s with
      | error e => simp [Edit.Settles, makeAxes_apply, Attempt.bind_apply, ha]
      | ok p =>
          simp [Edit.Settles, makeAxes_apply, Attempt.bind_apply, Attempt.pure_apply, ha,
            performed, addAxes_apply _ _ h]

end Call

namespace Builder

/-- What a failed operation leaves of the builder. -/
def failed (b : Builder) : Failure → Builder
  | .refused e => b.record e
  | .overflow _ => b

variable {b b' : Builder} {s s' : Supply}

theorem call_ok {c : Call} {v : Value} (h : b.call s c = (.ok v, b', s')) :
    ∃ eff, c.effect b s = .ok ((eff, v), s') ∧ b.performed eff = .ok b' := by
  have ht := Call.run_transacts c b s
  simp only [call, edit] at h
  cases hc : c.effect b s with
  | error f =>
      obtain ⟨s'', hr⟩ := by simpa only [Edit.Settles, hc] using ht
      cases f <;> simp [hr] at h
  | ok p =>
      obtain ⟨⟨eff, w⟩, s''⟩ := p
      simp only [Edit.Settles, hc] at ht
      cases hp : b.performed eff with
      | error e => simp [ht, hp] at h
      | ok b'' =>
          simp only [ht, hp, Prod.mk.injEq, Except.ok.injEq] at h
          obtain ⟨rfl, rfl, rfl⟩ := h
          exact ⟨eff, rfl, hp⟩

theorem call_error {c : Call} {f : Failure} (h : b.call s c = (.error f, b', s')) :
    b' = b.failed f := by
  have ht := Call.run_transacts c b s
  simp only [call, edit] at h
  cases hc : c.effect b s with
  | error g =>
      obtain ⟨s'', hr⟩ := by simpa only [Edit.Settles, hc] using ht
      cases g with
      | refused e | overflow o =>
          simp only [hr, Prod.mk.injEq, Except.error.injEq] at h
          obtain ⟨rfl, rfl, -⟩ := h
          rfl
  | ok p =>
      obtain ⟨⟨eff, w⟩, s''⟩ := p
      simp only [Edit.Settles, hc] at ht
      cases hp : b.performed eff with
      | ok b'' => simp [ht, hp] at h
      | error e =>
          simp only [ht, hp, Prod.mk.injEq, Except.error.injEq] at h
          obtain ⟨rfl, rfl, -⟩ := h
          rfl

/-- An opening is the scope that it makes, pushed, or else its failure. -/
theorem openScope_eq (b : Builder) (s : Supply) (o : Opening) :
    b.openScope s o = match o.scope b s with
      | .ok ((scope, v), s') => (.ok (b.nextId, scope.kind, v), b.push scope, s')
      | .error f => (.error f, b.failed f, s) := by
  cases ho : o.scope b s with
  | error f =>
      cases f <;> simp [openScope, edit, Edit.attempt_apply, ho, failed]
  | ok p => simp [openScope, edit, Edit.attempt_apply, ho]

theorem openScope_ok {o : Opening} {id : Nat} {kind : ScopeKind} {v : Value}
    (h : b.openScope s o = (.ok (id, kind, v), b', s')) :
    ∃ scope, o.scope b s = .ok ((scope, v), s') ∧ id = b.nextId ∧ kind = scope.kind ∧
      b' = b.push scope := by
  cases ho : o.scope b s with
  | error f => cases f <;> simp [openScope, edit, Edit.attempt_apply, ho] at h
  | ok p =>
      obtain ⟨⟨scope, w⟩, s''⟩ := p
      simp only [openScope, edit, bind_inPlace, Edit.attempt_apply, Edit.get_apply,
        Edit.write_apply, Edit.pure_apply, ho, Prod.mk.injEq, Except.ok.injEq] at h
      obtain ⟨⟨rfl, rfl, rfl⟩, rfl, rfl⟩ := h
      exact ⟨scope, rfl, rfl, rfl, rfl⟩

theorem openScope_error {o : Opening} {f : Failure}
    (h : b.openScope s o = (.error f, b', s')) : b' = b.failed f := by
  cases ho : o.scope b s with
  | error g =>
      cases g with
      | refused e | overflow e =>
          simp only [openScope, edit, bind_inPlace, Edit.attempt_apply, ho, Prod.mk.injEq,
            Except.error.injEq] at h
          obtain ⟨rfl, rfl, -⟩ := h
          rfl
  | ok p => simp [openScope, edit, Edit.attempt_apply, ho] at h

/-- A scope that is not the innermost one stays open. -/
theorem close_of_not_top {id : Nat} (kind : ScopeKind) (h : ∀ f ∈ b.frames.head?, f.id ≠ id) :
    ∃ e, b.close id kind = (.error e, b.record e) := by
  cases hf : b.frames with
  | nil => exact ⟨.frameNotOpen kind, by simp [close, Change.close, hf]⟩
  | cons f fs =>
      have hid : f.id ≠ id := h f (by simp [hf])
      by_cases ha : ∃ g, g ∈ fs ∧ g.id = id
      · exact ⟨.outOfOrderClose kind f.kind, by simp [close, Change.close, hf, hid, ha]⟩
      · exact ⟨.frameNotOpen kind, by simp [close, Change.close, hf, hid, ha]⟩

/-- The innermost scope is removed, whatever becomes of its product. -/
theorem close_of_top {f : Frame} {fs : List Frame} (kind : ScopeKind) (h : b.frames = f :: fs) :
    b.close f.id kind =
      match (f.close b.config).bind { b with frames := fs }.delivered with
      | .ok b' => (.ok (), b')
      | .error e => (.error e, { b with frames := fs }.record e) := by
  cases hp : f.close b.config with
  | error e => simp [close, Change.close, h, hp, Except.bind]
  | ok p =>
      cases hd : { b with frames := fs }.delivered p <;>
        simp [close, Change.close, h, hp, hd, Except.bind, Change.deliver_eq, settle]

end Builder

end TensorProgram
