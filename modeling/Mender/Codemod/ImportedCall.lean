import Mender.Codemod.Basic

/-!
# Calls of imported functions

Two codemods look for calls of functions of certain modules, however these were imported, and call other
functions instead. The imports are brought in order right after the calls, and once more when all is done.
-/

namespace Mender.Codemod

open Syntax

def positionalCount (args : List Node) : Nat := (args.takeWhile fun a => ! (a.get .keyword).isPresent).length

namespace Task

variable (t : Task)

/-- Replace the calls of imported functions with known names: `mend` gets the full name of the function, the
call as it was, and as it is now. -/
def atImportedCalls (isKnown : String → Bool) (mend : String → Node → Node → Work Node) : Pass Notes where
  leave old new := do
    if old.kind != .call then return .keep new
    if ! (← t.allows old) then return .keep new
    let name ← t.facts.baseName? (old.get .func)
    if (← t.facts.importedFrom? old).isNone then return .keep new
    match name with
    | some name =>
      if ! isKnown name then return .keep new
      t.report old
      return .keep (← mend name old new)
    | none => return .keep new

def importedCommand (pass : Pass Notes) : Work.Result :=
  t.withScopes do
    let (module, notes) ← t.command pass
    return (← notes.settleImports module, notes)

/-! ## Secure connections -/

def plainPools : List String := ["urllib3.HTTPConnectionPool", "urllib3.connectionpool.HTTPConnectionPool"]

/-- The tenth argument of a pool has another place in secure pools, so it is given by keyword. -/
def poolArgs (args : List Node) : Except Fault (List Node) := do
  match args[9]? with
  | some a =>
    if positionalCount args == 10 then
      return args.set 9 (← (a.set .keyword (Node.ofName "_proxy_config")).sound)
    else return args
  | none => return args

def secureConnections : Work.Result :=
  t.importedCommand (t.atImportedCalls plainPools.contains fun _ old new => do
    let args ← poolArgs (new.list .args)
    if (old.get .func).kind == .member then
      let func ← ((new.get .func).set .attr (Node.ofName "HTTPSConnectionPool")).sound
      (new.setAll [(.args, Node.seq args), (.func, func)]).sound
    else
      require "urllib3"
      t.release old
      (new.setAll [(.args, Node.seq args), (.func, Node.ofDotted "urllib3.HTTPSConnectionPool")]).sound)

/-! ## XML -/

/-- The modules that read XML, with those that do so safely, and their functions. -/
def xmlModules : List (String × String × List String) :=
  let tree := ["parse", "fromstring", "iterparse", "XMLParser"]
  let dom := ["parse", "parseString"]
  [("xml.etree.ElementTree", "defusedxml.ElementTree", tree), ("xml.etree.cElementTree", "defusedxml.ElementTree", tree),
    ("xml.sax", "defusedxml.sax", ["parse", "make_parser", "parseString"]),
    ("xml.dom.minidom", "defusedxml.minidom", dom), ("xml.dom.pulldom", "defusedxml.pulldom", dom)]

def safeReader? (name : String) : Option (String × String) :=
  let found := xmlModules.flatMap fun (module, safe, functions) =>
    (functions.filter fun f => module ++ "." ++ f == name).map fun f => (safe, f)
  found.head?

def defuseXml : Work.Result :=
  t.importedCommand (t.atImportedCalls (fun name => (safeReader? name).isSome) fun name old new => do
    match safeReader? name with
    | none => return new
    | some (module, function) =>
      require module
      t.release old
      dependOn .defusedXml
      (new.set .func (Node.ofDotted (module ++ "." ++ function))).sound)

end Task

end Mender.Codemod
