import Mender.Syntax.Node
import Mender.Text.Search

/-!
# Names

The names by which expressions, definitions and imports are known.
-/

namespace Mender.Syntax.Node

variable (n : Node) (name : String) (a : Node)

/-- The dotted name of a node. An expression without a name counts as `None` in front of a dot. -/
def fullName? : Node → Option String
  | .mk .name t _ _ => some t
  | .mk .member _ [_, value, _, attr, _] _ => some ((fullName? value).getD "None" ++ "." ++ attr.text)
  | .mk .call _ [_, func, _, _, _, _] _ => fullName? func
  | .mk .subscript _ [_, value, _, _, _, _, _] _ => fullName? value
  | .mk .functionDef _ [_, _, _, _, _, name, _, _, _, _, _, _] _ => fullName? name
  | .mk .classDef _ [_, _, _, _, name, _, _, _, _, _, _, _] _ => fullName? name
  | .mk .decorator _ [_, _, decorator, _] _ => fullName? decorator
  | _ => none

/-- The name under which a scope counts accesses of a node: dotted names have none. -/
def simpleName? : Node → Option String
  | .mk .name t _ _ => some t
  | .mk .call _ [_, func, _, _, _, _] _ => simpleName? func
  | .mk .subscript _ [_, value, _, _, _, _, _] _ => simpleName? value
  | .mk .functionDef _ [_, _, _, _, _, name, _, _, _, _, _, _] _ => simpleName? name
  | .mk .classDef _ [_, _, _, _, name, _, _, _, _, _, _, _] _ => simpleName? name
  | _ => none

/-- A dotted name and its beginnings, longest first, each with its node. A call in between starts the
name anew; behind any other expression there is no name. -/
def dottedNames : Node → List (String × Node)
  | .mk .name t ps m => [(t, .mk .name t ps m)]
  | .mk .member t [l, value, d, attr, r] m =>
    match dottedNames value with
    | [] => []
    | (name, node) :: rest =>
      if value.kind == .call then (name, node) :: rest
      else (name ++ "." ++ attr.text, .mk .member t [l, value, d, attr, r] m) ::
        (name, node) :: rest
  | .mk .call _ [_, func, _, _, _, _] _ =>
    if func.kind == .name || func.kind == .member then dottedNames func else []
  | _ => []

def leftExpressions : Node → List Node
  | .mk .member t [l, value, d, attr, r] m => .mk .member t [l, value, d, attr, r] m :: leftExpressions value
  | .mk .call t [l, func, a, b, c, r] m => .mk .call t [l, func, a, b, c, r] m :: leftExpressions func
  | .mk .subscript t [l, value, a, b, c, d, r] m => .mk .subscript t [l, value, a, b, c, d, r] m :: leftExpressions value
  | n => [n]

/-- The expression at the left end of a chain of attributes and method calls. -/
def leftmost : Node → Node
  | .mk .member _ [_, value, _, _, _] _ => leftmost value
  | .mk .call t [l, func, a, b, c, r] m =>
    if func.kind == .member then leftmost func else .mk .call t [l, func, a, b, c, r] m
  | n => n

def importedName : String := ((a.get .name).fullName?).getD ""

def importedAs? : Option String :=
  if (a.get .asname).isPresent then some ((a.get .asname).get .name).text else none

/-- The names that an alias binds. -/
def namesBound : List String := (a.importedAs?.map fun name => [name]).getD ((a.get .name).dottedNames.map (·.1))

def aliases : List Node := n.list .names

/-- The name of the module in an import. A from-import begins with its dots; of several modules in
one statement the first counts. -/
def moduleName : String :=
  match n.kind with
  | .importFrom =>
    String.ofList (List.replicate (n.list .relative).length '.') ++ ((n.get .module).fullName?).getD ""
  | .importStatement => (n.aliases.head?.map importedName).getD ""
  | _ => ""

def ofDotted : Node :=
  match Text.pieces '.' name with
  | [] => make .name [] name
  | first :: rest =>
    rest.foldl (fun e part => make .member [(.value, e), (.attr, make .name [] part)])
      (make .name [] first)

def ofName : Node := make .name [] name

end Mender.Syntax.Node
