import Intake.Unicode.CodeSet

/-!
# Composed texts

Whether a text is in normal form C, for the characters that stand for themselves
in domain names: its marks are in canonical order, and no two of its characters
have a composed form that they could be written as.
-/

namespace Intake.Unicode

structure CodeClass where
  range : CodeRange
  value : Nat

/-- Reads a range and a number, joined by a colon. -/
def CodeClass.read? (cs : List Char) : Option CodeClass :=
  match Text.pieces ':' cs with
  | (range, value :: _) => (CodeRange.read? range).map (⟨·, Nat.ofDigitChars 10 value 0⟩)
  | _ => none

/-- A character, and those with which it is composed when it follows one of them. -/
structure Composition where
  second : Nat
  firsts : CodeSet

/-- Reads a character and ranges with commas between them, joined by a colon. -/
def Composition.read? (cs : List Char) : Option Composition :=
  match Text.pieces ':' cs with
  | (second, firsts :: _) =>
    (Numeral.readHex second).map (⟨·, ⟨(Text.allPieces ',' firsts).filterMap CodeRange.read?⟩⟩)
  | _ => none

/-- The canonical combining classes that are not zero. -/
def combiningClasses : List CodeClass :=
  List.filterMap CodeClass.read? <| words [
    "300-314:230 315:232 316-319:220 31a:232 31b:216 31c-320:220 321-322:202 323-326:220",
    "327-328:202 329-333:220 334-338:1 339-33c:220 33d-33f:230 342:230 346:230 347-349:220",
    "34a-34c:230 34d-34e:220 350-352:230 353-356:220 357:230 358:232 359-35a:220 35b:230 35c:233",
    "35d-35e:234 35f:233 360-361:234 362:233 363-36f:230 483-487:230 591:220 592-595:230 596:220",
    "597-599:230 59a:222 59b:220 59c-5a1:230 5a2-5a7:220 5a8-5a9:230 5aa:220 5ab-5ac:230 5ad:222",
    "5ae:228 5af:230 5b0:10 5b1:11 5b2:12 5b3:13 5b4:14 5b5:15 5b6:16 5b7:17 5b8:18 5b9-5ba:19",
    "5bb:20 5bc:21 5bd:22 5bf:23 5c1:24 5c2:25 5c4:230 5c5:220 5c7:18 610-617:230 618:30 619:31",
    "61a:32 64b:27 64c:28 64d:29 64e:30 64f:31 650:32 651:33 652:34 653-654:230 655-656:220",
    "657-65b:230 65c:220 65d-65e:230 65f:220 670:35 6d6-6dc:230 6df-6e2:230 6e3:220 6e4:230",
    "6e7-6e8:230 6ea:220 6eb-6ec:230 6ed:220 711:36 730:230 731:220 732-733:230 734:220",
    "735-736:230 737-739:220 73a:230 73b-73c:220 73d:230 73e:220 73f-741:230 742:220 743:230",
    "744:220 745:230 746:220 747:230 748:220 749-74a:230 7eb-7f1:230 7f2:220 7f3:230 7fd:220",
    "816-819:230 81b-823:230 825-827:230 829-82d:230 859-85b:220 898:230 899-89b:220 89c-89f:230",
    "8ca-8ce:230 8cf-8d3:220 8d4-8e1:230 8e3:220 8e4-8e5:230 8e6:220 8e7-8e8:230 8e9:220",
    "8ea-8ec:230 8ed-8ef:220 8f0:27 8f1:28 8f2:29 8f3-8f5:230 8f6:220 8f7-8f8:230 8f9-8fa:220",
    "8fb-8ff:230 93c:7 94d:9 951:230 952:220 953-954:230 9bc:7 9cd:9 9fe:230 a3c:7 a4d:9 abc:7",
    "acd:9 b3c:7 b4d:9 bcd:9 c3c:7 c4d:9 c55:84 c56:91 cbc:7 ccd:9 d3b-d3c:9 d4d:9 dca:9",
    "e38-e39:103 e3a:9 e48-e4b:107 eb8-eb9:118 eba:9 ec8-ecb:122 f18-f19:220 f35:220 f37:220",
    "f39:216 f71:129 f72:130 f74:132 f7a-f7d:130 f80:130 f82-f83:230 f84:9 f86-f87:230 fc6:220",
    "1037:7 1039-103a:9 108d:220 135d-135f:230 1714-1715:9 1734:9 17d2:9 17dd:230 18a9:228",
    "1939:222 193a:230 193b:220 1a17:230 1a18:220 1a60:9 1a75-1a7c:230 1a7f:220 1ab0-1ab4:230",
    "1ab5-1aba:220 1abb-1abc:230 1abd:220 1abf-1ac0:220 1ac1-1ac2:230 1ac3-1ac4:220 1ac5-1ac9:230",
    "1aca:220 1acb-1ace:230 1b34:7 1b44:9 1b6b:230 1b6c:220 1b6d-1b73:230 1baa-1bab:9 1be6:7",
    "1bf2-1bf3:9 1c37:7 1cd0-1cd2:230 1cd4:1 1cd5-1cd9:220 1cda-1cdb:230 1cdc-1cdf:220 1ce0:230",
    "1ce2-1ce8:1 1ced:220 1cf4:230 1cf8-1cf9:230 1dc0-1dc1:230 1dc2:220 1dc3-1dc9:230 1dca:220",
    "1dcb-1dcc:230 1dcd:234 1dce:214 1dcf:220 1dd0:202 1dd1-1df5:230 1df6:232 1df7-1df8:228",
    "1df9:220 1dfa:218 1dfb:230 1dfc:233 1dfd:220 1dfe:230 1dff:220 20d0-20d1:230 20d2-20d3:1",
    "20d4-20d7:230 20d8-20da:1 20db-20dc:230 20e1:230 20e5-20e6:1 20e7:230 20e8:220 20e9:230",
    "20ea-20eb:1 20ec-20ef:220 20f0:230 2cef-2cf1:230 2d7f:9 2de0-2dff:230 302a:218 302b:228",
    "302c:232 302d:222 302e-302f:224 3099-309a:8 a66f:230 a674-a67d:230 a69e-a69f:230",
    "a6f0-a6f1:230 a806:9 a82c:9 a8c4:9 a8e0-a8f1:230 a92b-a92d:220 a953:9 a9b3:7 a9c0:9 aab0:230",
    "aab2-aab3:230 aab4:220 aab7-aab8:230 aabe-aabf:230 aac1:230 aaf6:9 abed:9 fb1e:26",
    "fe20-fe26:230 fe27-fe2d:220 fe2e-fe2f:230 101fd:220 102e0:220 10376-1037a:230 10a0d:220",
    "10a0f:230 10a38:230 10a39:1 10a3a:220 10a3f:9 10ae5:230 10ae6:220 10d24-10d27:230",
    "10eab-10eac:230 10efd-10eff:220 10f46-10f47:220 10f48-10f4a:230 10f4b:220 10f4c:230",
    "10f4d-10f50:220 10f82:230 10f83:220 10f84:230 10f85:220 11046:9 11070:9 1107f:9 110b9:9",
    "110ba:7 11100-11102:230 11133-11134:9 11173:7 111c0:9 111ca:7 11235:9 11236:7 112e9:7",
    "112ea:9 1133b-1133c:7 1134d:9 11366-1136c:230 11370-11374:230 11442:9 11446:7 1145e:230",
    "114c2:9 114c3:7 115bf:9 115c0:7 1163f:9 116b6:9 116b7:7 1172b:9 11839:9 1183a:7",
    "1193d-1193e:9 11943:7 119e0:9 11a34:9 11a47:9 11a99:9 11c3f:9 11d42:7 11d44-11d45:9 11d97:9",
    "11f41-11f42:9 16af0-16af4:1 16b30-16b36:230 16ff0-16ff1:6 1bc9e:1 1d165-1d166:216",
    "1d167-1d169:1 1d16d:226 1d16e-1d172:216 1d17b-1d182:220 1d185-1d189:230 1d18a-1d18b:220",
    "1d1aa-1d1ad:230 1d242-1d244:230 1e000-1e006:230 1e008-1e018:230 1e01b-1e021:230",
    "1e023-1e024:230 1e026-1e02a:230 1e08f:230 1e130-1e136:230 1e2ae:230 1e2ec-1e2ef:230",
    "1e4ec-1e4ed:232 1e4ee:220 1e4ef:230 1e8d0-1e8d6:220 1e944-1e949:230 1e94a:7"]

/-- The pairs of characters that have a composed form, those of Hangul apart. -/
def compositions : List Composition :=
  List.filterMap Composition.read? <| words [
    "300:61,65,69,6e-6f,75,77,79,e2,ea,f4,fc,103,113,14d,1a1,1b0,3b1,3b5,3b7,3b9,3bf,3c5",
    "300:3c9-3cb,435,438,1f00-1f01,1f10-1f11,1f20-1f21,1f30-1f31,1f40-1f41,1f50-1f51",
    "300:1f60-1f61",
    "301:61,63,65,67,69,6b-70,72-73,75,77,79-7a,e2,e5-e7,ea,ef,f4-f5,f8,fc,103,113,14d,169",
    "301:1a1,1b0,3b1,3b5,3b7,3b9,3bf,3c5,3c9-3cb,433,43a,1f00-1f01,1f10-1f11,1f20-1f21",
    "301:1f30-1f31,1f40-1f41,1f50-1f51,1f60-1f61",
    "302:61,63,65,67-6a,6f,73,75,77,79-7a,1ea1,1eb9,1ecd",
    "303:61,65,69,6e-6f,75-76,79,e2,ea,f4,103,1a1,1b0",
    "304:61,65,67,69,6f,75,79,e4,e6,f5-f6,fc,1eb,227,22f,3b1,3b9,3c5,438,443,1e37,1e5b",
    "306:61,65,67,69,6f,75,229,3b1,3b9,3c5,430,435-436,438,443,1ea1",
    "307:61-68,6d-70,72-74,77-7a,15b,161,1e63",
    "308:61,65,68-69,6f,74-75,77-79,f5,16b,3b9,3c5,430,435-438,43e,443,447,44b,44d,456,4d9",
    "308:4e9 309:61,65,69,6f,75,79,e2,ea,f4,103,1a1,1b0 30a:61,75,77,79 30b:6f,75,443",
    "30c:61,63-65,67-6c,6e-6f,72-75,7a,fc,292 30f:61,65,69,6f,72,75,475 311:61,65,69,6f,72,75",
    "313:3b1,3b5,3b7,3b9,3bf,3c1,3c5,3c9 314:3b1,3b5,3b7,3b9,3bf,3c1,3c5,3c9 31b:6f,75",
    "323:61-62,64-65,68-69,6b-6f,72-77,79-7a,1a1,1b0 324:75 325:61 326:73-74",
    "327:63-65,67-68,6b-6c,6e,72-74 328:61,65,69,6f,75 32d:64-65,6c,6e,74-75 32e:68 330:65,69,75",
    "331:62,64,68,6b-6c,6e,72,74,7a",
    "338:3d,2190,2192,2194,21d0,21d2,21d4,2203,2208,220b,2223,2225,223c,2243,2245,2248,224d",
    "338:2261,2264-2265,2272-2273,2276-2277,227a-227d,2282-2283,2286-2287,2291-2292,22a2",
    "338:22a8-22a9,22ab,22b2-22b5",
    "342:3b1,3b7,3b9,3c5,3c9-3cb,1f00-1f01,1f20-1f21,1f30-1f31,1f50-1f51,1f60-1f61 653:627",
    "654:627,648,64a,6c1,6d2,6d5 655:627 93c:928,930,933 9be:9c7 9d7:9c7 b3e:b47 b56:b47 b57:b47",
    "bbe:bc6-bc7 bd7:b92,bc6 c56:c46 cc2:cc6 cd5:cbf,cc6,cca cd6:cc6 d3e:d46-d47 d57:d46",
    "dca:dd9,ddc dcf:dd9 ddf:dd9 102e:1025",
    "1b35:1b05,1b07,1b09,1b0b,1b0d,1b11,1b3a,1b3c,1b3e-1b3f,1b42",
    "3099:3046,304b,304d,304f,3051,3053,3055,3057,3059,305b,305d,305f,3061,3064,3066,3068",
    "3099:306f,3072,3075,3078,307b,309d,30a6,30ab,30ad,30af,30b1,30b3,30b5,30b7,30b9,30bb",
    "3099:30bd,30bf,30c1,30c4,30c6,30c8,30cf,30d2,30d5,30d8,30db,30ef-30f2,30fd",
    "309a:306f,3072,3075,3078,307b,30cf,30d2,30d5,30d8,30db 110ba:11099,1109b,110a5",
    "11127:11131-11132 1133e:11347 11357:11347 114b0:114b9 114ba:114b9 114bd:114b9",
    "115af:115b8-115b9 11930:11935"]

def combiningClass (c : Char) : Nat :=
  match combiningClasses.find? (·.range.contains c) with
  | some k => k.value
  | none => 0

/-- Whether a character is a virama, a sign that joins the consonants around it. -/
def isVirama (c : Char) : Bool := combiningClass c == 9

/-- Whether two characters form a syllable of Hangul: a leading consonant and a vowel, or a
syllable without a trailing consonant and one. -/
def formsSyllable (a b : Nat) : Bool :=
  (0x1100 ≤ a && a < 0x1113 && 0x1161 ≤ b && b < 0x1176) ||
    (0xAC00 ≤ a && a < 0xD7A4 && (a - 0xAC00) % 28 == 0 && 0x11A8 ≤ b && b < 0x11C3)

def composes (a b : Char) : Bool :=
  formsSyllable a.toNat b.toNat ||
    compositions.any fun k => k.second == b.toNat && k.firsts.contains a

/-- Whether a text that follows a starter and marks up to a class is in normal form C. -/
def isComposedAfter (starter : Option Char) (lastClass : Nat) : List Char → Bool
  | [] => true
  | c :: rest =>
    let k := combiningClass c
    let ordered := k == 0 || lastClass ≤ k
    let composable := (lastClass == 0 || lastClass < k) && starter.any (composes · c)
    ordered && !composable && isComposedAfter (if k = 0 then some c else starter) k rest

def isComposed (cs : List Char) : Bool := isComposedAfter none 0 cs

end Intake.Unicode
