import Mender.Exceptions
import Mender.Syntax.Name

/-!
# Scopes, bindings and accesses

A module has a tree of scopes: the builtin names, its global names, and one scope for each class,
function and comprehension. A binding gives a meaning to a name in one scope; an access asks for the
meaning of a name from one scope.

Scopes are numbered from the outside in, so the scope around a scope has a smaller number. Bindings
and accesses of one scope carry an index that counts the binding statements before them.
-/

namespace Mender.Scope

open Syntax

inductive Level where
  | builtin | module | classBody | function | comprehension
  deriving DecidableEq, Repr, Inhabited

/-- What made a binding: the language, an import statement, or another node of the module. -/
inductive Origin where
  | builtin
  | imported (statement : Nat)
  | defined (node : Nat)
  deriving DecidableEq, Repr, Inhabited

/-- A name that is bound in a scope, with what binds it. -/
structure Binding where
  name : String
  scope : Nat
  index : Nat
  origin : Origin
  number : Nat
  deriving DecidableEq, Repr, Inhabited

/-- A use of a name. -/
structure Access where
  name : String
  scope : Nat
  index : Nat
  /-- the node that stands for the use; none if it is inside a quoted annotation -/
  node : Option Nat
  number : Nat
  deriving DecidableEq, Repr, Inhabited

structure Frame where
  level : Level
  parent : Nat
  /-- names that `global` and `nonlocal` hand to another scope -/
  redirects : List (String × Nat) := []
  count : Nat := 0
  deriving Inhabited

def builtinNames : List String :=
  Exceptions.builtin ++ ["Ellipsis", "EnvironmentError", "False", "IOError", "None", "NotImplemented", "True",
    "__build_class__", "__debug__", "__doc__", "__import__", "__loader__", "__name__", "__package__", "__spec__", "abs",
    "aiter", "all", "anext", "any", "ascii", "bin", "bool", "breakpoint", "bytearray", "bytes", "callable", "chr",
    "classmethod", "compile", "complex", "copyright", "credits", "delattr", "dict", "dir", "divmod", "enumerate",
    "eval", "exec", "exit", "filter", "float", "format", "frozenset", "getattr", "globals", "hasattr", "hash", "help",
    "hex", "id", "input", "int", "isinstance", "issubclass", "iter", "len", "license", "list", "locals", "map", "max",
    "memoryview", "min", "next", "object", "oct", "open", "ord", "pow", "print", "property", "quit", "range", "repr",
    "reversed", "round", "set", "setattr", "slice", "sorted", "staticmethod", "str", "sum", "super", "tuple", "type",
    "vars", "zip"]

/-- The scopes of a module, with all that is bound and used in them. -/
structure Scopes where
  frames : Array Frame
  bindings : Array Binding
  accesses : Array Access := #[]
  scopeOf : Array (Option Nat)

namespace Scopes

def builtinScope : Nat := 0

def moduleScope : Nat := 1

variable (s : Scopes) (b : Binding) (a : Access) (scope : Nat) (n : Node) (name : String)

def frame (i : Nat) : Frame := s.frames.getD i ⟨.builtin, 0, [], 0⟩

/-- The bindings of a name in the scope itself. -/
def bound : List Binding := (s.bindings.filter fun b => b.scope == scope && b.name == name).toList

def lookupTo (s : Scopes) : Nat → Nat → String → Bool → List Binding
  | 0, _, _, _ => []
  | fuel + 1, scope, name, inside =>
    if scope == builtinScope then
      if builtinNames.contains name then [⟨name, builtinScope, 0, .builtin, s.bindings.size⟩]
      else []
    else
      let f := s.frame scope
      if f.level == .classBody && inside then s.lookupTo fuel f.parent name true
      else
        match f.redirects.find? (·.1 == name) with
        | some (_, target) => s.lookupTo fuel target name true
        | none =>
          match s.bound scope name with
          | [] => s.lookupTo fuel f.parent name true
          | bs => bs

/-- The bindings of a name as seen from a scope. Scopes lie in each other, so the fuel does not run out. -/
def lookup : List Binding := s.lookupTo (2 * s.frames.size + 2) scope name false

def contains : Bool := ! (s.lookup scope name).isEmpty

/-- Does the binding come before the access? Those of other scopes always do. -/
def isEarlier : Bool := b.scope != a.scope || b.index < a.index

/-- The bindings that an access may mean: those of its name that come before it, or, if all come
later, those of the scope around. -/
def referents : List Binding :=
  let all := s.lookup a.scope a.name
  let earlier := all.filter (isEarlier · a)
  if earlier.isEmpty && ! all.isEmpty then s.lookup (s.frame a.scope).parent a.name else earlier

/-- The bindings that count an access as theirs: a binding that comes too late passes it on to the
scope around its own. -/
def claimantsTo (s : Scopes) : Nat → Nat → Access → List Binding
  | 0, _, _ => []
  | fuel + 1, scope, a =>
    (s.lookup scope a.name).flatMap fun b =>
      if isEarlier b a then [b]
      else if b.scope == builtinScope then []
      else s.claimantsTo fuel (s.frame b.scope).parent a

def references : List Access :=
  (s.accesses.filter fun a => a.name == b.name &&
    (s.claimantsTo (s.frames.size + 1) a.scope a).any (·.number == b.number)).toList

def scope? : Option Nat := n.mark.bind fun m => (s.scopeOf.getD m none)

def accessesOf : List Access :=
  match n.simpleName? with
  | some name => (s.accesses.filter fun a => a.scope == scope && a.name == name).toList
  | none => []

def importedNames (statement : Node) (full : String) : List String :=
  let module := if statement.kind == .importFrom then statement.moduleName else ""
  statement.aliases.filterMap fun a =>
    let real := a.importedName
    let known := (a.importedAs?).getD real
    if full == known || Text.begins (known ++ ".") full then
      some ((if module.isEmpty then real else module ++ "." ++ real) ++ String.ofList (full.toList.drop known.length))
    else none

/-- The full names that a dotted expression may have by the imports seen from a scope; `at_` finds the
node of a mark. -/
def qualified (at_ : Nat → Option Node) (s : Scopes) (scope : Nat) (n : Node) : List String :=
  match n.fullName? with
  | none => []
  | some full =>
    let parts := Text.pieces '.' full
    let known := (List.range parts.length).findSome? fun i =>
      match s.lookup scope (String.intercalate "." (parts.take (parts.length - i))) with
      | [] => none
      | bs => some bs
    (known.getD []).flatMap fun b =>
      match b.origin with
      | .imported m => ((at_ m).map (importedNames · full)).getD []
      | _ => []

end Scopes

end Mender.Scope
