import Mender.Text.Number

/-!
# Versions of packages

A version has an epoch, a release, and perhaps marks for releases that come before or after it. The same
version can be written in many ways (`1.0` and `v1.0.0`, `1a1` and `1.ALPHA-1`); `Version.canonical` chooses
one.
-/

namespace Mender.Version

variable (s : String) (words : List (String × String)) (cs : List Char)

def digits : List Char × List Char := (cs.takeWhile Char.isDigit, cs.dropWhile Char.isDigit)

def plainNumber (ds : List Char) : String := toString (ds.foldl (fun n c => n * 10 + (c.toNat - '0'.toNat)) 0)

def skipDivider : List Char → List Char
  | c :: rest => if c == '-' || c == '_' || c == '.' then rest else c :: rest
  | [] => []

def word? : Option (String × List Char) :=
  (words.find? fun w => w.1.toList.isPrefixOf cs).map fun w => (w.2, cs.drop w.1.length)

/-- A mark with its number: dividers may stand around the word, and a missing number is zero. -/
def mark : Option (String × List Char) :=
  (word? words (skipDivider cs)).map fun (label, rest) =>
    let (ds, rest) := digits (skipDivider rest)
    (label ++ plainNumber ds, rest)

/-- Words for releases that come before, longer ones first. -/
def earlyWords : List (String × String) :=
  [("alpha", "a"), ("beta", "b"), ("preview", "rc"), ("pre", "rc"), ("rc", "rc"), ("a", "a"), ("b", "b"), ("c", "rc")]

/-- The mark of a release that comes after: a word or just a hyphen. -/
def lateMark : Option (String × List Char) :=
  let (ds, rest) := digits (if cs.head? == some '-' then cs.tail else [])
  if ds.isEmpty then mark [("post", ".post"), ("rev", ".post"), ("r", ".post")] cs
  else some (".post" ++ plainNumber ds, rest)

def release? : Nat → List Char → Option (List String × List Char)
  | 0, _ => none
  | fuel + 1, cs =>
    let (ds, rest) := digits cs
    if ds.isEmpty then none
    else
      let more := if rest.head? == some '.' then release? fuel rest.tail else none
      some ((more.getD ([], rest)).map (plainNumber ds :: ·) id)

/-- Leave out zeros at the end of a release, but not its first number. -/
def trimRelease : List String → List String
  | [] => []
  | n :: ns => n :: (ns.reverse.dropWhile (· == "0")).reverse

def localPart : String := if cs.all Char.isDigit then plainNumber cs else String.ofList cs

def localParts? : Option (List String) :=
  let parts := cs.splitBy fun a b => ! isDivider a && ! isDivider b
  let words := parts.filter fun p => ! p.all isDivider
  if cs.all (fun c => c.isAlphanum || isDivider c) && parts.length == 2 * words.length - 1 &&
      parts.all (fun p => ! p.all isDivider || p.length == 1) && ! words.isEmpty &&
      ! (cs.head?.any isDivider) then
    some (words.map localPart)
  else none
where
  isDivider (c : Char) : Bool := c == '-' || c == '_' || c == '.'

def canonical? : Option String := do
  let cs := (Text.lower (Text.trim s)).toList
  let cs := match cs with
    | 'v' :: rest => rest
    | _ => cs
  let (epoch, cs) := match digits cs with
    | (d :: ds, '!' :: rest) => (plainNumber (d :: ds), rest)
    | _ => ("0", cs)
  let (numbers, cs) ← release? (cs.length + 1) cs
  let (early, cs) := (mark earlyWords cs).getD ("", cs)
  let (late, cs) := (lateMark cs).getD ("", cs)
  let (dev, cs) := (mark [("dev", ".dev")] cs).getD ("", cs)
  let own ← match cs with
    | [] => some ""
    | '+' :: rest => (localParts? rest).map fun ps => "+" ++ ".".intercalate ps
    | _ => none
  return (if epoch == "0" then "" else epoch ++ "!") ++ ".".intercalate (trimRelease numbers) ++ early ++ late ++ dev ++ own

def canonical : String := (canonical? s).getD s

end Mender.Version
