import TensorProgram.Builder.Call

/-!
Sessions on threads. At most one session is live on a thread, and the calls made on
the thread go to its builder. A guard belongs to the session that opened its scope,
and so does closing it, whatever session is live then.
-/

namespace TensorProgram

abbrev ThreadId := Nat
abbrev SessionId := Nat

/-- The right to close one scope. -/
structure Guard where
  session : SessionId
  frame : Nat
  kind : ScopeKind
  deriving DecidableEq, Repr

structure World where
  supply : Supply
  /-- The number of sessions entered so far, which is the next session. -/
  entered : Nat
  builder : SessionId → Builder
  live : ThreadId → Option SessionId

/-- The map `f` with `b` for `a`. -/
def update {α β : Type} [DecidableEq α] (f : α → β) (a : α) (b : β) : α → β :=
  fun x => if x = a then b else f x

namespace World

def start (supply : Supply) : World where
  supply
  entered := 0
  builder := fun _ => { config := {} }
  live := fun _ => none

/-- Starts a session on a thread on which none is live. -/
def enter (w : World) (t : ThreadId) (config : Config) : Except BuildError SessionId × World :=
  match w.live t with
  | some _ => (.error .builderAlreadyActive, w)
  | none => (.ok w.entered, { w with
      entered := w.entered + 1
      builder := update w.builder w.entered { config }
      live := update w.live t (some w.entered) })

/-- The session that `op`, called on thread `t`, is for. -/
def current (w : World) (t : ThreadId) (op : String) : Except BuildError SessionId :=
  match w.live t with
  | some id => return id
  | none => throw (.noActiveBuilder op)

/-- Runs an operation on the builder of the session that is live on `t`. If there is none, the
supply is `unserved` then. -/
def onBuilder {α : Type} (w : World) (t : ThreadId) (op : String) (unserved : Supply)
    (act : SessionId → Builder → Supply → Except Failure α × Builder × Supply) :
    Except Failure α × World :=
  match w.current t op with
  | .error e => (.error (.refused e), { w with supply := unserved })
  | .ok id =>
      let (r, b, s) := act id (w.builder id) w.supply
      (r, { w with supply := s, builder := update w.builder id b })

def openScope (w : World) (t : ThreadId) (o : Opening) : Except Failure (Guard × Value) × World :=
  w.onBuilder t o.op w.supply fun id b s =>
    let (r, b, s) := b.openScope s o
    (r.map fun (frame, kind, value) => (⟨id, frame, kind⟩, value), b, s)

def call (w : World) (t : ThreadId) (c : Call) : Except Failure Value × World :=
  w.onBuilder t c.op (c.unserved w.supply) fun _ b s => b.call s c

/-- Closes the scope of a guard. -/
def close (w : World) (g : Guard) : Except BuildError Unit × World :=
  let (r, b) := (w.builder g.session).close g.frame g.kind
  (r, { w with builder := update w.builder g.session b })

/-- Lets a guard go: its scope is closed, and what is wrong with it shows at the end of the
session only. -/
def drop (w : World) (g : Guard) : World := (w.close g).2

/-- Frees the thread of a session. -/
def leave (w : World) (id : SessionId) : World :=
  { w with live := fun t => if w.live t = some id then none else w.live t }

/-- Ends a session and takes its output. -/
def finish (w : World) (id : SessionId) : Except BuildError Output × World :=
  let (r, b) := (w.builder id).finish
  (r, { w with builder := update w.builder id b }.leave id)

/-- Makes a value that needs new variables but no session. -/
def mint {α : Type} (w : World) (f : Supply → α × Supply) : α × World :=
  let (a, s) := f w.supply
  (a, { w with supply := s })

/-- Declares a buffer outside every session: no session remembers a mistake in it. -/
def declare (w : World) (shape : List Expr) (dtype : DataType) (o : BufferOptions) :
    Except BuildError Buffer × World :=
  match Buffer.declare shape dtype o w.supply with
  | .ok (b, s) => (.ok b, { w with supply := s })
  | .error e => (.error e, w)

end World

end TensorProgram
