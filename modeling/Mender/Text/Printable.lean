import Mender.Text.Letter

/-!
# Characters that can be shown

Control characters, separators other than the space, private and unassigned characters cannot be
shown as they are. The table gives those beyond ASCII, by the Unicode standard (version 14).
-/

namespace Mender.Text

/-- The characters beyond ASCII that cannot be shown. -/
private def hiddenRuns : List Nat := unpacked "
SMQ0<1RQE2647111D1QR11Q52QA231QF8K46AF1UK1Q?2QJ2S2>QJ2Q@2?1L211;5O9R81TM18222F1711342922248142152I2316422F17121212211542
233174117A:319131F1712152:131321?42<771318222F1712152922237342152B:216331432111232333<4533142161>E5=131G1@29131472132124
2:7F131G1:152913147262142:12==131QB13164@2J131B3H191127314611186:23<QI4MQ4211151H111G2511162:24PR61Q34Q61Q31?1=Q4V011512
QQ>142711142Q8142Q0142711142?1QH142R12P3J6RD262QY=1L3RG7F9H9D<=1312<RL2:6:6>1;6RG7Q:5R4:O1<4<413Q925;Q;4J6;3QM2QP1M2;6:6
>2OQ@R;3Q>1SA8QK3?3QK7Q:2;8Q:5QV6262Q526281111111O2QD1?1>261C2319AH8Q>A22K1=3Q0?Q0?T84QZ3I;EUTN2P1ZC5Q<11512QG72>H971717
17171717171SKQ1J1RG<V@J<5QN1RD2S45Q:1RL1RB<Q>1XXWF3QF9ZBDUC8V5521115HQJ3:6QG8R48<6SA;N3R<1;4Q01QF9>2:2S4HL:6262697171QK4
SK2:6SSXB<G4Q@RUV4QQ32S7Q57<55J151112121SJ@QS@2QE71PQ96QB1C14451T34UI362626233717=22<1J1C121?2>Q1SH534Q<3RF1=31Q>Q=SOM3Q
@?L4Q39N5Q:5N1Q44>Q9TJ2:6Q34Q34Q78QC;<1?17121;1?1712R1Y>9F:8H61Q919R36211Q;12312G1R689Q?C125Q03K51QOQG4D2QA1258131M234:7
97QOPQ64<9QE3M2K5J74<7R>R7QFQB=QB7Q=8:XNO1Q91322R<Q78Q9FJQ5LDG9R<4Q39QM15=I7:6QD1B8Q69RN1D;B1Q;QP711141?1;6QJ5:6418222F1
712151:22232161572735T7RJ15NR68:U1QE2Q5Q1R3;:6=CQI6:QEK2?4GUDQKS1RA<82128121N122<9:R482Q=2;KR68RA=R7WP91Q<1>:M3P2F1>R771
21Q;3112198:66121Q412167:Y=IUB1?QA=RWPS3S<15;UOWYMS0=SR?QRRGQWFRVQDQW87O1:4R?1:6N26:R4::171E5CQZLRIS2R94QH7AQO5;2>QXUO8S
WAQ99RVZI417121XKQ<3A48QR0VYOS85=397:24QTRBQ=2G9SAQKW?:Q62R88S=ER4TFD<RE9IT3RC1R5122122241<11171QP1428171L141511371Z:2XL
2RQ9?51?SS?OVK71A271215V?Q<3>2:42YGOAQI51SWK714121?1UP2@Q8R:4:42RSJR2R:QLUM41K1211211:1411116141111113121121111111111211
24171414111:1A53151AQC2X6Q;4S1<?2?1?1Q4:U9QGM=Q;4972>6TFRYK5@3=3SA<RG7<41?<4QG8:6Q78N22R<Z:<>2535379M3;56::68879T?1QFQ4:
SQ7QRYTBPQRUL7VH2QWTD>RRV?YT1QV>TUEQTYFRQVZS>W9UYTRJ"

def isPrintable (c : Char) : Bool :=
  if c.toNat < 128 then 32 ≤ c.toNat && c.toNat < 127
  else ! inRuns hiddenRuns c.toNat

def isSpace (c : Char) : Bool :=
  let n := c.toNat
  (9 ≤ n && n ≤ 13) || (28 ≤ n && n ≤ 32) || n == 0x85 || n == 0xA0 || n == 0x1680 ||
    (0x2000 ≤ n && n ≤ 0x200A) || n == 0x2028 || n == 0x2029 || n == 0x202F || n == 0x205F ||
    n == 0x3000

end Mender.Text
