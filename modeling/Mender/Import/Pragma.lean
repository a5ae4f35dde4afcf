import Mender.Text.Printable

/-!
# Comments that speak to linters

A comment can ask linters to be silent about unused imports: `# noqa`, or a list of directives such as
`# pylint: disable=unused-import`. A directive is a keyword, an equals sign and some messages. What
comes behind a mistake in such a list is passed over, and so is the directive that holds it.
-/

namespace Mender.Import.Pragma

variable (c : Char) (comment : String)

def isNoqa : Bool :=
  match comment.toList with
  | '#' :: rest => ((rest.dropWhile Text.isSpace).take 4).map Char.toLower == ['n', 'o', 'q', 'a']
  | _ => false

inductive Word where
  | keyword (s : String)
  | message (s : String)
  | equals
  deriving DecidableEq, Repr

def messageKeywords : List String := ["disable-next", "disable-msg", "enable-msg", "disable", "enable"]

def keywords : List String := ["disable-next", "disable-all", "disable-msg", "enable-msg", "skip-file", "disable", "enable"]

private def isWord : Bool := Text.isAlnum c || c == '_'

private def isMessageChar : Bool := c.isAlphanum || c == '-' || c == '_'

/-- The word at the front of a text, and how many characters it has. `inWord` tells whether a word
character stands right before. -/
def word? (inWord : Bool) (cs : List Char) : Option (Word × Nat) :=
  let keyword := if inWord then none else keywords.find? fun k =>
    k.toList.isPrefixOf cs && ! ((cs.drop k.length).head?.map isWord).getD false
  match keyword with
  | some k => some (.keyword k, k.length)
  | none =>
    let run := cs.takeWhile isMessageChar
    if run.length ≥ 2 then some (.message (String.ofList run), run.length)
    else match cs with
      | '=' :: _ => some (.equals, 1)
      | c :: rest =>
        if ['C', 'R', 'E', 'I', 'W', 'F'].contains c then
          let digits := rest.takeWhile fun d => (Text.decimalValue? d).isSome
          some (.message (String.ofList (c :: digits)), digits.length + 1)
        else none
      | [] => none

/-- The words of a text; what is no word is passed over. `fuel` bounds the steps. -/
def wordsTo : Nat → Bool → List Char → List Word
  | 0, _, _ => []
  | _, _, [] => []
  | fuel + 1, inWord, c :: cs =>
    match word? inWord (c :: cs) with
    | some (w, n) =>
      let last := ((c :: cs).drop (n - 1)).head?
      w :: wordsTo fuel ((last.map isWord).getD false) ((c :: cs).drop n)
    | none => wordsTo fuel (isWord c) cs

def words (s : String) : List Word := wordsTo (s.length + 1) false s.toList

structure Directive where
  keyword : String
  messages : List String
  deriving DecidableEq, Repr

def Directive.isComplete (d : Directive) : Bool := ! d.messages.isEmpty || ! messageKeywords.contains d.keyword

/-- The directives of a list of words, up to the first mistake. `current` is the directive being read,
and `pending` tells whether an equals sign has to follow. -/
def directivesOf (current : Option Directive) (pending : Bool) : List Word → List Directive
  | [] => (current.filter (·.isComplete)).toList
  | .equals :: rest => if pending then directivesOf current false rest else []
  | .keyword k :: rest =>
    if pending then []
    else
      let next := directivesOf (some ⟨k, []⟩) (messageKeywords.contains k) rest
      match current with
      | some d => if d.isComplete then d :: next else []
      | none => next
  | .message m :: rest =>
    if pending then []
    else directivesOf (current.map fun d => { d with messages := d.messages ++ [m] }) false rest

def directives : List Directive := directivesOf none false (words comment)

def silences (keyword comment : String) : Bool :=
  (directives comment).any fun d => d.keyword == keyword &&
    (d.messages.contains "unused-import" || d.messages.contains "W0611")

end Mender.Import.Pragma
