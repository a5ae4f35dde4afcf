import Mender.Codemod.Basic

/-!
# Safer arguments

Many functions are safe or unsafe depending on one argument. The codemods here give the calls that a
scanner has found the arguments that they should have. `Task.setKeywords` is the common part: arguments
are chosen by keyword and taken from the call as it was found.
-/

namespace Mender.Codemod

open Syntax Edit

/-- Give a call the arguments that it had, with some of them set anew. -/
def withKeywords (wishes : List NewArg) (old new : Node) : Except Fault Node := do
  if ! old.has .args then .error (.unexpected "")
  setArgs new (← replaceArgs (old.list .args) wishes)

namespace Task

variable (t : Task)

def setKeywords (wishes : List NewArg) : Pass Notes := t.atFindings fun old new => withKeywords wishes old new

def addTimeouts : Work.Result := t.command (t.atFindings fun _ new => addArg new "timeout" "60")

def verifyCertificates : Work.Result := t.command (t.setKeywords [⟨"verify", "True", false⟩])

def enableAutoescape : Work.Result := t.command (t.setKeywords [⟨"autoescape", "True", true⟩])

def useSafeType : Work.Result := t.command (t.setKeywords [⟨"typ", "\"safe\"", false⟩])

/-- Parsers of XML resolve no entities, use no network and read no document types. -/
def restrictParsers : Work.Result :=
  t.command (t.setKeywords [⟨"resolve_entities", "False", true⟩, ⟨"no_network", "True", false⟩,
    ⟨"dtd_validation", "False", false⟩])

def useRestrictedParser : Work.Result :=
  t.command (t.atFindings fun old new => do
    t.release old
    require "lxml.etree"
    withKeywords [⟨"parser", "lxml.etree.XMLParser(resolve_entities=False)", true⟩] old new)

def isStrictSameSite (a : Node) : Bool :=
  hasKeyword "samesite" a && (a.get .value).kind == .simpleString && (a.get .value).text == "'Strict'"

/-- Cookies are sent over secure connections only, hidden from scripts, and kept to their site. -/
def secureCookies : Work.Result :=
  t.command (t.atFindings fun old new => do
    if ! old.has .args then throw .noSuchPart
    let sameSite := if (old.list .args).any isStrictSameSite then []
      else [NewArg.mk "samesite" "'Lax'" true]
    withKeywords ([⟨"secure", "True", true⟩, ⟨"httponly", "True", true⟩] ++ sameSite) old new)

def setContentType : Work.Result := t.command (t.atFindings fun _ new => addArg new "content_type" "\"application/json\"")

def limitLines : Work.Result :=
  t.command (t.atFindings fun _ new => setArgs new [arg (Node.make .integer [] "5_000_000")])

/-! ## Arguments that hold more -/

def mentions (text part : String) : Bool := Text.holds part text

def checkedOption (e : Node) : Except Fault Node := do
  if ! e.has .key then throw .noSuchPart
  let key := e.get .key
  if key.kind == .simpleString && mentions key.text "verify" then
    let key ← expression key.text
    return Node.make .dictElement [(.key, key), (.value, Node.ofName "True")]
  else return e

def checkedOptions (a : Node) : Except Fault Node := do
  if hasKeyword "options" a && (a.get .value).kind == .dict then
    let elements ← ((a.get .value).list .elements).mapM checkedOption
    keywordArg "options" (a.get .equal) (Node.make .dict [(.elements, Node.seq elements)])
  else return a

def allChecked (args : List Node) : Except Fault (List Node) := args.mapM checkedOptions

def verifyTokens : Work.Result :=
  t.command (t.atFindings fun old new => do
    if ! old.has .args then throw (.unexpected "")
    let args ← replaceArgs (old.list .args) [⟨"verify", "True", false⟩]
    setArgs new (← allChecked args))

/-! ## Modules under another name -/

/-- The name under which a node uses a module; if it is the module's own, the import is needed. -/
def moduleFor (n : Node) (module : String) : Work String := do
  let asName ← t.facts.aliasedModule? n module
  let name := (asName.filter (! ·.isEmpty)).getD module
  if name == module then require module
  return name

def useSafeLoader : Work.Result :=
  t.withScopes (t.command (t.atFindings fun old new => do
    let name ← t.moduleFor old "yaml"
    if ! new.has .args then throw .noSuchPart
    match new.list .args with
    | first :: second :: _ => setArgs new [first, ← (second.set .value (← expression (name ++ ".SafeLoader"))).sound]
    | _ => throw .outOfRange))

def safeProtocol : String := "ssl.PROTOCOL_TLS_CLIENT"

def upgradeProtocol : Work.Result :=
  t.command (t.atFindings fun old new => do
    t.release old
    require "ssl"
    if ! old.has .args then throw .noSuchPart
    match old.list .args with
    | [a] =>
      if (a.get .keyword).isPresent then withKeywords [⟨"protocol", safeProtocol, true⟩] old new
      else setArgs new [← makeArg safeProtocol]
    | _ => withKeywords [⟨"protocol", safeProtocol, true⟩] old new)

end Task

end Mender.Codemod
