import Mender.Text.Search

/-!
# Letters, digits and case

Which characters make up words, which are decimal digits, and how letters change case, by the
tables of the Unicode standard (version 14). ASCII is decided without a table.
-/

namespace Mender.Text

variable (s : String) (c : Char)

/-- Whether a number falls into a run. A table of runs has the lengths of the stretches outside and inside of them, in turn
and from zero on. -/
def inRuns : List Nat → Nat → Bool
  | out :: size :: rest, n => out ≤ n && (n < out + size || inRuns rest (n - (out + size)))
  | _, _ => false

/-- The numbers in a packed table. A number ends with a digit from `0` to `P`, and those from `Q` to `Z` in front of it, which
stand for one to ten, tell how many times 33 it has. -/
def unpacked (table : String) : List Nat :=
  let digits := (table.toList.filter (· != '\n')).map (·.toNat - 48)
  (digits.foldl (fun (found, high) d => if d < 33 then ((33 * high + d) :: found, 0) else (found, 10 * high + d - 32))
    ([], 0)).1.reverse

/-- The letters and numerals beyond ASCII. -/
private def letterRuns : List Nat := unpacked "
U51721132131G1O1QSM4<>57111SN51224116113111D1RA1T78U11Q5216Q8R5K44Q<Q:E:421S011?27?21@11NMRG;1>Q:92415F419131GI7;5H16AQ9
QIQE31B17:4:1@48222F17113431@1=2134<262186422F17121212O4117:23@9131F17121531B1?24:91;8222F17121531N2134:17;1163314321112
32333<F1E=B8131G1@31J321224:871148131G1:1531O2124:12A9131Q821@1531:4C165B3H191127O:AQ?12<79:Q6211151H111:129125119:24P1O
D<81Q3K5S@Q:D;66443132734=<11:6Q511512Q:1Z3142711142Q8142Q0142711142?1QH142R1>D3@@RD263QXJ2A1J5R93;7B=C>B>=13?QCQ21413:6
:F:6RG752Q1115R4:OQ6Q725;Q;4J6;Q4G9QDQ::6:=1RKQ>A83:Q8N=QGJQ3L:3Q@297Q:23Q841612315UKQOX>262Q526281111111O2QD17113317342
64=5317S@2265;6=S21412:1135611111141;2455411QIRR0QKR<FQY3NST:VO6432912Q511512QG71@G9717171717171717R>1QT73I975254RD631RH
145Q:1RL34:PQ?@P:N81?P:Q6?YGQYYIQOVWQ>R1Q=2X53LDQ>@O2R>Q692S42QO521115H@13141G=6:QC>QAL:H631121Q5:GIM7Q>L;651I1Q8G3184:6
G313QA1132252111H32;73<6262697171Q:1>6S@=:6SSXB<G4Q@RUV4QQ32S7Q57<5511:1=151112121S9Q0QQ0BQO2QEQ7<SA51T3C:7J6J;RG3626262
3Q2<1J1C121?2>Q1SH<Q<<QHA2W=M3Q@@K4Q39N5Q5:N2Q34815Q9TJ2:6Q34Q34Q78QC<;1?17121;1?1712R1Y>9F:8H61Q919R36211Q;12312G2O2Q58
9Q?C125Q04JR4QG4D2Q>?4131M:9GO1PP81L65@QE:F2K5JG7R>R7QFQB=QB7Q9<:XNO1Q962R<Q78F;4KBQ=LDG<QDJN1221=Q<PI7:9Q3?:41218Q231<Q
?>4;;114D;B1IRB711141?1:7Q>A:;8222F17121531B1<5TJQDB45:53NQ?D2118:U1Q>Q84Q3Q?D1;:Q5Q:=17:QEKE<47UDQ;SARA<82128121H?111>:
R482Q6@111L1:Q771E1;Q=C1BR7WP91Q4A1?M5NS=7121Q5E19:66121P>17:Y=CUH1?EQ:RWOS3S<AUOWYMRO?SR?QRRGQWFRVQDQW87O1:6R=1:6NBQ?@4
<:171E5CQZLRES6R951R0=QO211LQXUO8SWAQ99RVZI417121XKQ<3A48QR0VYOS85=397:QWRJDS9IT3RC1R5122122241<11171QP1428171L141511371
Z:2I1I1O1I1O1I1O1I1O1I182QAUT:OQTCQ<:72:41YHNBQ;4:SX0714121?1UP29Q?R2714:RSPQJ1314R:Q<1?UM41K1211211:1411116141111113121
12111111111121124171414111:1A53151AQWC=XT?:SQ7QRYTBPQRUL7VH2QWTD>RRV?YT1QV>TUEQTYF"

def isAlnum : Bool :=
  if c.toNat < 128 then c.isAlphanum
  else inRuns letterRuns c.toNat

/-- Characters of an identifier: ASCII letters, digits and the underscore, and all beyond ASCII. -/
def isWordChar : Bool := c == '_' || c.isAlphanum || 128 ≤ c.toNat

/-- The digits zero of the scripts beyond ASCII; each is followed by its digits one to nine. -/
private def zeros : List Nat :=
  [1632, 1776, 1984, 2406, 2534, 2662, 2790, 2918, 3046, 3174, 3302, 3430, 3558, 3664, 3792, 3872, 4160, 4240, 6112,
    6160, 6470, 6608, 6784, 6800, 6992, 7088, 7232, 7248, 42528, 43216, 43264, 43472, 43504, 43600, 44016, 65296, 66720,
    68912, 69734, 69872, 69942, 70096, 70384, 70736, 70864, 71248, 71360, 71472, 71904, 72016, 72784, 73040, 73120,
    92768, 92864, 93008, 120782, 120792, 120802, 120812, 120822, 123200, 123632, 125264, 130032]

def decimalValue? : Option Nat :=
  if c.toNat < 128 then if c.isDigit then some (c.toNat - 48) else none
  else (zeros.find? fun z => z ≤ c.toNat && c.toNat < z + 10).map (c.toNat - ·)

def hexValue? : Option Nat :=
  if c.isDigit then some (c.toNat - 48)
  else if 'a' ≤ c ∧ c ≤ 'f' then some (c.toNat - 87)
  else if 'A' ≤ c ∧ c ≤ 'F' then some (c.toNat - 55)
  else none

def hexNumber? (cs : List Char) : Option Nat :=
  cs.foldl (fun acc c => acc.bind fun n => (hexValue? c).map (n * 16 + ·)) (some 0)

/-- What letters behind a backslash stand for, in most notations. -/
def escapeFor? : Char → Option Char
  | '\\' => some '\\' | '"' => some '"' | 'b' => some '\x08' | 'f' => some '\x0c'
  | 'n' => some '\n' | 'r' => some '\r' | 't' => some '\t' | _ => none

/-- Every `step`-th character from `lo` to `hi` has its lower case `shift` further on. In the table a letter is followed by its
lower case, and the first and the last letter of a run by the lower case of the first. The letters of a run stand next to each
other, or their lower cases stand between them. -/
private def lowerRuns : List (Nat × Nat × Nat × Int) := (wordsOf [
  "ÀÖà ØÞø ĀĮā ĲĶĳ ĹŇĺ ŊŶŋ Ÿÿ ŹŽź Ɓɓ ƂƄƃ Ɔɔ Ƈƈ ƉƊɖ Ƌƌ Ǝǝ Əə Ɛɛ Ƒƒ Ɠɠ Ɣɣ Ɩɩ Ɨɨ Ƙƙ Ɯɯ Ɲɲ Ɵɵ ƠƤơ Ʀʀ Ƨƨ Ʃʃ Ƭƭ Ʈʈ Ưư",
  "ƱƲʊ ƳƵƴ Ʒʒ Ƹƹ Ƽƽ Ǆǆ ǅǆ Ǉǉ ǈǉ Ǌǌ ǋǛǌ ǞǮǟ Ǳǳ ǲǴǳ Ƕƕ Ƿƿ ǸȞǹ Ƞƞ ȢȲȣ Ⱥⱥ Ȼȼ Ƚƚ Ⱦⱦ Ɂɂ Ƀƀ Ʉʉ Ʌʌ ɆɎɇ ͰͲͱ Ͷͷ Ϳϳ Άά ΈΊέ",
  "Όό ΎΏύ ΑΡα ΣΫσ Ϗϗ ϘϮϙ ϴθ Ϸϸ Ϲϲ Ϻϻ ϽϿͻ ЀЏѐ АЯа ѠҀѡ ҊҾҋ Ӏӏ ӁӍӂ ӐԮӑ ԱՖա ႠჅⴀ Ⴧⴧ Ⴭⴭ ᎠᏯꭰ ᏰᏵᏸ ᲐᲺა ᲽᲿჽ ḀẔḁ ẞß ẠỾạ ἈἏἀ",
  "ἘἝἐ ἨἯἠ ἸἿἰ ὈὍὀ Ὑὑ Ὓὓ Ὕὕ Ὗὗ ὨὯὠ ᾈᾏᾀ ᾘᾟᾐ ᾨᾯᾠ ᾸᾹᾰ ᾺΆὰ ᾼᾳ ῈΉὲ ῌῃ ῘῙῐ ῚΊὶ ῨῩῠ ῪΎὺ Ῥῥ ῸΌὸ ῺΏὼ ῼῳ Ωω Kk Åå Ⅎⅎ ⅠⅯⅰ Ↄↄ",
  "ⒶⓏⓐ ⰀⰯⰰ Ⱡⱡ Ɫɫ Ᵽᵽ Ɽɽ ⱧⱫⱨ Ɑɑ Ɱɱ Ɐɐ Ɒɒ Ⱳⱳ Ⱶⱶ ⱾⱿȿ ⲀⳢⲁ ⳫⳭⳬ Ⳳⳳ ꙀꙬꙁ ꚀꚚꚁ ꜢꜮꜣ ꜲꝮꜳ ꝹꝻꝺ Ᵹᵹ ꝾꞆꝿ Ꞌꞌ Ɥɥ ꞐꞒꞑ ꞖꞨꞗ Ɦɦ Ɜɜ Ɡɡ Ɬɬ",
  "Ɪɪ Ʞʞ Ʇʇ Ʝʝ Ꭓꭓ ꞴꟂꞵ Ꞔꞔ Ʂʂ Ᶎᶎ ꟇꟉꟈ Ꟑꟑ ꟖꟘꟗ Ꟶꟶ ＡＺａ 𐐀𐐧𐐨 𐒰𐓓𐓘 𐕰𐕺𐖗 𐕼𐖊𐖣 𐖌𐖒𐖳 𐖔𐖕𐖻 𐲀𐲲𐳀 𑢠𑢿𑣀 𖹀𖹟𖹠 𞤀𞤡𞤢"]).map fun w =>
  match w.map Char.toNat with
  | [letter, low] => (letter, letter, 1, (low : Int) - letter)
  | [lo, hi, low] => (lo, hi, if low = lo + 1 then 2 else 1, (low : Int) - lo)
  | _ => (1, 0, 1, 0)

/-- Upper case, the way back from lower case. -/
private def upperRuns : List (Nat × Nat × Nat × Int) :=
  lowerRuns.map fun (lo, hi, step, shift) => (Int.toNat (lo + shift), Int.toNat (hi + shift), step, -shift)

/-- Sixteen letters with a small iota each, which becomes a letter of its own. -/
private def withIota (first upper : Nat) : List (List Nat) := (List.range 16).map fun i => [first + i, upper + i % 8, 921]

/-- Letters whose upper case is another one, or several letters, which stand behind them in the table. -/
private def upperSpecial : List (List Nat) :=
  withIota 8064 7944 ++ withIota 8080 7976 ++ withIota 8096 8040 ++ (wordsOf [
  "µΜ ßSS ıI ŉʼN ſS ǅǄ ǈǇ ǋǊ ǰJ̌ ǲǱ ͅΙ ΐΪ́ ΰΫ́ ςΣ ϐΒ ϑΘ ϕΦ ϖΠ ϰΚ ϱΡ ϵΕ ևԵՒ ᲀВ ᲁД ᲂО ᲃС ᲄТ ᲅТ ᲆЪ ᲇѢ ᲈꙊ ẖH̱ ẗT̈",
  "ẘW̊ ẙY̊ ẚAʾ ẛṠ ὐΥ̓ ὒΥ̓̀ ὔΥ̓́ ὖΥ̓͂ ᾲᾺΙ ᾳΑΙ ᾴΆΙ ᾶΑ͂ ᾷΑ͂Ι ᾼΑΙ ιΙ ῂῊΙ ῃΗΙ ῄΉΙ ῆΗ͂ ῇΗ͂Ι ῌΗΙ ῒΪ̀ ΐΪ́ ῖΙ͂ ῗΪ͂ ῢΫ̀",
  "ΰΫ́ ῤΡ̓ ῦΥ͂ ῧΫ͂ ῲῺΙ ῳΩΙ ῴΏΙ ῶΩ͂ ῷΩ͂Ι ῼΩΙ ﬀFF ﬁFI ﬂFL ﬃFFI ﬄFFL ﬅST ﬆST ﬓՄՆ ﬔՄԵ ﬕՄԻ ﬖՎՆ ﬗՄԽ"]).map (·.map Char.toNat)

private def shiftBy (runs : List (Nat × Nat × Nat × Int)) (c : Char) : Char :=
  match runs.find? fun r => r.1 ≤ c.toNat && c.toNat ≤ r.2.1 && (c.toNat - r.1) % r.2.2.1 == 0 with
  | some r => Char.ofNat (Int.toNat (c.toNat + r.2.2.2))
  | none => c

def lowerChar : List Char :=
  if c.toNat < 128 then [c.toLower]
  else if c.toNat = 304 then ['i', Char.ofNat 775]
  else [shiftBy lowerRuns c]

def upperChar : List Char :=
  if c.toNat < 128 then [c.toUpper]
  else match upperSpecial.find? (·.head? == some c.toNat) with
    | some e => e.tail.map Char.ofNat
    | none => [shiftBy upperRuns c]

def lower : String := String.ofList (s.toList.flatMap lowerChar)

def upper : String := String.ofList (s.toList.flatMap upperChar)

end Mender.Text
