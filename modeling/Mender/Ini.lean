import Mender.Text.Number

/-!
# INI files

An INI file has sections with options. The value of an option may go on over lines that are indented more than
the option, and may refer to other options. The section `DEFAULT` holds values for all others.
-/

namespace Mender.Ini

open String

abbrev Options := List (String × List String)

/-- The sections of a file, in the order of their first headers. -/
structure Document where
  common : Options := []
  sections : List (String × Options) := []

def commonName : String := "DEFAULT"

/-- Where the reader stands: the document so far, the section and the option that lines may belong to, and the
indentation of that option. -/
structure State where
  document : Document := {}
  current : Option String := none
  option : Option String := none
  indent : Nat := 0
  isSound : Bool := true

variable (value : List Char) (s : State) (d : Document) (own : Options) (section_ name : String)

def Document.options? : Option Options :=
  if section_ == commonName then some d.common else (d.sections.find? (·.1 == section_)).map (·.2)

def Document.update (f : Options → Options) : Document :=
  if section_ == commonName then { d with common := f d.common }
  else { d with sections := d.sections.map fun s => if s.1 == section_ then (s.1, f s.2) else s }

def State.extend (line : String) : State :=
  match s.current, s.option with
  | some c, some o =>
    { s with document := s.document.update c fun os => os.map fun e => if e.1 == o then (o, e.2 ++ [line]) else e }
  | _, _ => s

def header? : Option String :=
  match value with
  | '[' :: rest =>
    let inside := ((rest.reverse.dropWhile (· != ']')).drop 1).reverse
    if inside.isEmpty then none else some (ofList inside)
  | _ => none

def option? : Option (String × String) :=
  let name := value.takeWhile fun c => c != '=' && c != ':'
  match value.drop name.length with
  | _ :: rest => some (Text.trim (ofList name), Text.trim (ofList rest))
  | [] => none

def State.enter : Option State :=
  let s := { s with current := some name, option := none }
  if name == commonName then some s
  else if s.document.sections.any (·.1 == name) then none
  else some { s with document.sections := s.document.sections ++ [(name, [])] }

def State.define (value : String) : Option State :=
  let key := Text.lower name
  if ((s.document.options? section_).getD []).any (·.1 == key) then none
  else some { s with
    document := s.document.update section_ (· ++ [(key, [value])])
    option := some key, isSound := s.isSound && ! name.isEmpty }

def State.line (s : State) (line : String) : Option State :=
  let cs := line.toList
  let value := Text.trimRight (Text.trimLeft cs)
  match value with
  | [] => some (s.extend "")
  | '#' :: _ | ';' :: _ => some s
  | _ =>
    let indent := (cs.takeWhile Text.isSpace).length
    if s.current.isSome && s.option.isSome && s.indent < indent then
      some (s.extend (ofList value))
    else
      let s := { s with indent }
      match header? value with
      | some name => s.enter name
      | none =>
        match s.current, option? value with
        | none, _ => none
        | some c, some (name, v) => s.define c name v
        | some _, none => some { s with isSound := false }

def read? (text : String) : Option Document := do
  let final ← (Text.pieces '\n' text).foldlM State.line {}
  if final.isSound then return final.document else none

def joined (lines : List String) : String := ofList (Text.trimRight ("\n".intercalate lines).toList)

/-- Replace references `%(name)s` by the values of other options; `depth` bounds how deep they go and `fuel`
how many there are. -/
def expand? (find : String → Option String) : Nat → Nat → List Char → Option (List Char)
  | 0, _, _ => none
  | _, 0, _ => none
  | depth + 1, fuel + 1, cs =>
    let plain := cs.takeWhile (· != '%')
    match cs.drop plain.length with
    | [] => some plain
    | _ :: '%' :: rest => (expand? find (depth + 1) fuel rest).map fun r => plain ++ '%' :: r
    | _ :: '(' :: rest =>
      let name := rest.takeWhile (· != ')')
      match name, rest.drop name.length with
      | _ :: _, ')' :: 's' :: rest => do
        let v ← find (Text.lower (ofList name))
        let inner ← if v.contains '%' then expand? find depth fuel v.toList else some v.toList
        let r ← expand? find (depth + 1) fuel rest
        return plain ++ inner ++ r
      | _, _ => none
    | _ => none

def Document.lookup : Option String := ((own ++ d.common).find? (·.1 == name)).map fun e => joined e.2

/-- The value of an option with its references replaced; the empty text if there is no such option, and nothing
if a reference leads nowhere. -/
def value? : Option String :=
  match d.lookup own name with
  | none => some ""
  | some v =>
    let size := v.length + (own ++ d.common).foldl (fun n e => n + (joined e.2).length) 1
    (expand? (d.lookup own) 10 (size + 1) v.toList).map ofList

end Mender.Ini
