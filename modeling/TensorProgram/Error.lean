import TensorProgram.DataType
import TensorProgram.Word

/-!
Everything that can be wrong with a call, its wording, and the classes into which
mistakes fall. The wording of every refusal is in this module and nowhere else.
-/

namespace TensorProgram

/-- The kinds of scope that can be open. -/
inductive ScopeKind where
  | primFunc
  | block
  | blockInit
  | loops
  | branch
  | thenCase
  | elseCase
  | whileLoop
  | bind
  | allocate
  | allocateConst
  | attr
  | assert
  | launchThread
  | realize
  deriving DecidableEq, Repr

namespace ScopeKind

def text : ScopeKind → String
  | .primFunc => "prim_func"
  | .block => "block"
  | .blockInit => "init"
  | .loops => "for"
  | .branch => "if"
  | .thenCase => "then"
  | .elseCase => "else"
  | .whileLoop => "while"
  | .bind => "let"
  | .allocate => "allocate"
  | .allocateConst => "allocate_const"
  | .attr => "attr"
  | .assert => "assert"
  | .launchThread => "launch_thread"
  | .realize => "realize"

def all : List ScopeKind :=
  [.primFunc, .block, .blockInit, .loops, .branch, .thenCase, .elseCase, .whileLoop, .bind,
    .allocate, .allocateConst, .attr, .assert, .launchThread, .realize]

end ScopeKind

/-- The class of mistake that an error reports. -/
inductive ErrorCategory where
  /-- A call in the wrong scope, or with no builder at all. -/
  | scopeMismatch
  | duplicateSetting
  /-- Branches out of the order if, then, else. -/
  | pairingViolation
  /-- Wrong lengths, ranges or bindings. -/
  | argumentShape
  | unclosedScope
  deriving DecidableEq, Repr

def ErrorCategory.name : ErrorCategory → String
  | .scopeMismatch => "ScopeMismatch"
  | .duplicateSetting => "DuplicateSetting"
  | .pairingViolation => "PairingViolation"
  | .argumentShape => "ArgumentShape"
  | .unclosedScope => "UnclosedScope"

/-- A mistake in building a program. `op` is the call that was refused. -/
inductive BuildError where
  | noActiveBuilder (op : String)
  | builderAlreadyActive
  | noEnclosingScope (op : String) (expected : ScopeKind)
  | scopeMismatch (op : String) (expected found : ScopeKind)
  | outOfOrderClose (closing top : ScopeKind)
  | frameNotOpen (kind : ScopeKind)
  | nestedFunction (found : ScopeKind)
  | duplicateSetting (kind : ScopeKind) (field : String)
  | pairing (op detail : String)
  | argumentShape (op detail : String)
  | invalidFunction (detail : String)
  | invalidBlock (name detail : String)
  | undeclaredBuffer (op buffer : String)
  | unknownEnvThread (var : String)
  | unclosedScope (kinds : List ScopeKind)
  | missingResult
  | unexpectedResult (expected found : String)
  deriving DecidableEq, Repr

namespace BuildError

/-- The name of the cause. -/
def name : BuildError → String
  | .noActiveBuilder _ => "NoActiveBuilder"
  | .builderAlreadyActive => "BuilderAlreadyActive"
  | .noEnclosingScope _ _ => "NoEnclosingScope"
  | .scopeMismatch _ _ _ => "ScopeMismatch"
  | .outOfOrderClose _ _ => "OutOfOrderClose"
  | .frameNotOpen _ => "FrameNotOpen"
  | .nestedFunction _ => "NestedFunction"
  | .duplicateSetting _ _ => "DuplicateSetting"
  | .pairing _ _ => "Pairing"
  | .argumentShape _ _ => "ArgumentShape"
  | .invalidFunction _ => "InvalidFunction"
  | .invalidBlock _ _ => "InvalidBlock"
  | .undeclaredBuffer _ _ => "UndeclaredBuffer"
  | .unknownEnvThread _ => "UnknownEnvThread"
  | .unclosedScope _ => "UnclosedScope"
  | .missingResult => "MissingResult"
  | .unexpectedResult _ _ => "UnexpectedResult"

def message : BuildError → String
  | .noActiveBuilder op =>
      "'" ++ op ++ "' called with no active builder; open one with IRBuilder::enter() first"
  | .builderAlreadyActive =>
      "a builder is already active on this thread; finish it before entering another"
  | .noEnclosingScope op expected =>
      "'" ++ op ++ "' needs an enclosing " ++ expected.text ++ " scope, but none is open"
  | .scopeMismatch op expected found =>
      "'" ++ op ++ "' must be called directly inside a " ++ expected.text ++
        " scope, but the innermost open scope is " ++ found.text
  | .outOfOrderClose closing top =>
      "cannot close " ++ closing.text ++ " scope while " ++ top.text ++
        " scope is still open inside it; close scopes innermost first"
  | .frameNotOpen kind => kind.text ++ " scope is not open"
  | .nestedFunction found =>
      "prim_func must be the outermost scope, but it was opened inside " ++ found.text
  | .duplicateSetting kind field =>
      "'" ++ field ++ "' is already set on this " ++ kind.text ++ " scope; it can only be set once"
  | .pairing op detail => "'" ++ op ++ "': " ++ detail
  | .argumentShape op detail => "'" ++ op ++ "': " ++ detail
  | .invalidFunction detail => "invalid function: " ++ detail
  | .invalidBlock name detail => "invalid block '" ++ name ++ "': " ++ detail
  | .undeclaredBuffer op buffer =>
      "'" ++ op ++ "': buffer '" ++ buffer ++ "' is not declared in any enclosing scope"
  | .unknownEnvThread var =>
      "'" ++ var ++
        "' is not an environment thread created with env_thread in the enclosing function"
  | .unclosedScope kinds =>
      "builder finished with unclosed scopes: " ++ " > ".intercalate (kinds.map ScopeKind.text)
  | .missingResult => "builder finished without producing any IR"
  | .unexpectedResult expected found =>
      "builder produced a " ++ found ++ ", expected a " ++ expected

def category : BuildError → ErrorCategory
  | .noActiveBuilder _ | .builderAlreadyActive | .noEnclosingScope _ _ | .scopeMismatch _ _ _
  | .outOfOrderClose _ _ | .frameNotOpen _ | .nestedFunction _ | .undeclaredBuffer _ _
  | .unknownEnvThread _ => .scopeMismatch
  | .duplicateSetting _ _ => .duplicateSetting
  | .pairing _ _ => .pairingViolation
  | .argumentShape _ _ | .invalidFunction _ | .invalidBlock _ _ | .unexpectedResult _ _ =>
      .argumentShape
  | .unclosedScope _ | .missingResult => .unclosedScope

/-! Causes that share a constructor. -/

def functionAfterResult : BuildError :=
  .argumentShape "prim_func" "the session already produced a result"

def statementAfterFunction : BuildError :=
  .argumentShape "append" "cannot add statements after the session produced a function"

def emptyRange (op : String) (lo hi : Int64) : BuildError :=
  .argumentShape op ("loop range [" ++ toString lo.toInt ++ ", " ++ toString hi.toInt ++
    ") is empty")

def thenOutsideIf : BuildError := .pairing "then_" "then_ must be opened directly inside if_"
def secondThen : BuildError := .pairing "then_" "this if_ already has a then_ branch"
def elseOutsideIf : BuildError := .pairing "else_" "else_ must be opened directly inside if_"
def elseBeforeThen : BuildError := .pairing "else_" "else_ must follow a closed then_ branch"
def secondElse : BuildError := .pairing "else_" "this if_ already has an else_ branch"

def statementInIf : BuildError :=
  .pairing "if_" "statements inside if_ must be placed in a then_ or else_ branch"

def ifWithoutThen : BuildError := .pairing "if_" "if_ scope closed without a then_ branch"

def noExtents : BuildError := .argumentShape "allocate" "at least one extent is required"

def negativeExtent (extent : Int64) : BuildError :=
  .argumentShape "allocate_const" ("extent " ++ toString extent.toInt ++ " is negative")

def extentsTooLarge : BuildError :=
  .argumentShape "allocate_const" "extent product overflows i64"

def constantCount (size : Int64) (given : Nat) : BuildError :=
  .argumentShape "allocate_const" ("extents hold " ++ toString size.toInt ++ " elements but " ++
    toString given ++ " values were given")

def constantKind (dtype : DataType) : BuildError :=
  .argumentShape "allocate_const" ("constant data does not match dtype " ++ dtype.text)

def regionRank (given : Nat) (buffer : String) (rank : Nat) : BuildError :=
  .argumentShape "realize" ("region has " ++ toString given ++ " ranges but buffer '" ++ buffer ++
    "' has rank " ++ toString rank)

/-- `what` is what there must be as many of as dimensions. -/
def accessRank (op what : String) (given : Nat) (buffer : String) (rank : Nat) : BuildError :=
  .argumentShape op (toString given ++ " " ++ what ++ " given for buffer '" ++ buffer ++
    "' of rank " ++ toString rank)

def unknownBufferKind (given : String) : BuildError :=
  .argumentShape "buffer_decl" ("unknown buffer_type '" ++ given ++
    "', expected 'default' or 'auto_broadcast'")

def strideCount (given rank : Nat) : BuildError :=
  .argumentShape "buffer_decl" (toString given ++ " strides given for a buffer of rank " ++
    toString rank)

def separatorOrder (separators : List Int64) (rank : Nat) : BuildError :=
  .argumentShape "buffer_decl" ("axis separators [" ++
    ", ".intercalate (separators.map fun s => toString s.toInt) ++
    "] must be strictly increasing and inside 1.." ++ toString rank)

def parameterMatched (param : String) : BuildError :=
  .argumentShape "match_buffer" ("parameter '" ++ param ++ "' is already matched to a buffer")

def bufferUnmatched (buffer : String) : BuildError :=
  .argumentShape "preflattened_buffer" ("buffer '" ++ buffer ++
    "' is not matched to any parameter")

def bindingCount (kinds bindings : Nat) : BuildError :=
  .argumentShape "axis::remap" (toString kinds ++ " kinds given for " ++ toString bindings ++
    " bindings")

def unknownAxis (kind : Char) : BuildError :=
  .argumentShape "axis::remap" ("unknown axis kind '" ++ toString kind ++
    "', expected 'S' or 'R'")

def bindingNotVar : BuildError :=
  .argumentShape "axis::remap" "every binding must be a loop variable"

def bindingNotLoop (var : String) : BuildError :=
  .argumentShape "axis::remap" ("'" ++ var ++ "' is not bound by an enclosing loop")

def repeatedParameter (param : String) : BuildError :=
  .invalidFunction ("parameter '" ++ param ++ "' is declared more than once")

def unknownParameter (param : String) : BuildError :=
  .invalidFunction ("buffer is matched to '" ++ param ++
    "', which is not a parameter of this function")

def bareBlockBinds (name : String) : BuildError :=
  .invalidBlock name "a block built with no_realize cannot bind iteration variables"

def bareBlockPredicate (name : String) : BuildError :=
  .invalidBlock name "a block built with no_realize cannot carry a predicate"

end BuildError

inductive ModuleError where
  | duplicateFunction (name : String)
  | unnamedFunction
  deriving DecidableEq, Repr

def ModuleError.name : ModuleError → String
  | .duplicateFunction _ => "DuplicateFunction"
  | .unnamedFunction => "UnnamedFunction"

def ModuleError.message : ModuleError → String
  | .duplicateFunction name => "'" ++ name ++ "' is already defined in this module"
  | .unnamedFunction =>
      "function has no name; set one with func_name or register it with an explicit name"

inductive TaskError where
  | unknownFunction (caller callee : String)
  deriving DecidableEq, Repr

def TaskError.name : TaskError → String
  | .unknownFunction _ _ => "UnknownFunction"

def TaskError.message : TaskError → String
  | .unknownFunction caller callee =>
      "in '" ++ caller ++ "': call_tir target '" ++ callee ++
        "' is not a primitive function of this module"

inductive Error where
  | build (e : BuildError)
  | module (e : ModuleError)
  | task (e : TaskError)
  deriving DecidableEq, Repr

namespace Error

def message : Error → String
  | .build e => "[build error] " ++ e.message
  | .module e => "[module error] " ++ e.message
  | .task e => "[task extraction error] " ++ e.message

/-- The code that stays when wordings change. -/
def code : Error → String
  | .build e =>
      match e.category with
      | .scopeMismatch => "E0100"
      | .duplicateSetting => "E0101"
      | .pairingViolation => "E0102"
      | .argumentShape => "E0103"
      | .unclosedScope => "E0104"
  | .module (.duplicateFunction _) => "E0200"
  | .module .unnamedFunction => "E0201"
  | .task _ => "E0300"

end Error

end TensorProgram
