import TensorProgram.Fingerprint
import TensorProgram.Module

/-!
Tuning tasks: the tensor functions that a module calls, each structure once, in
the order of first calls, with the number of calls.
-/

namespace TensorProgram

structure Task where
  /-- The first callee with this structure. -/
  name : String
  func : PrimFunc
  target : String
  /-- The number of calls of functions with this structure. -/
  weight : Nat

namespace Task

/-- Counts one more call of a function whose fingerprint is `key`. `new` is its task if it is
the first one. -/
def tally (key : Fingerprint) (new : Task) : List (Fingerprint × Task) → List (Fingerprint × Task)
  | [] => [(key, new)]
  | (k, t) :: r =>
      if k = key then (k, { t with weight := t.weight + 1 }) :: r else (k, t) :: tally key new r

end Task

namespace Module

/-- Counts the calls one by one; the first callee that is not registered is an error. -/
def tallyCalls (m : Module) (target : String) :
    List (Fingerprint × Task) → List (String × String) →
      Except TaskError (List (Fingerprint × Task))
  | tasks, [] => return tasks
  | tasks, (caller, callee) :: calls =>
      match m.primByName? callee with
      | none => throw (.unknownFunction caller callee)
      | some f => m.tallyCalls target (Task.tally f.fingerprint ⟨callee, f, target, 1⟩ tasks) calls

/-- The tasks of all calls, in order of first calls. -/
def tasks (m : Module) (target : String) : Except TaskError (List Task) :=
  return (← m.tallyCalls target [] m.kernelCalls).map Prod.snd

end Module

end TensorProgram
