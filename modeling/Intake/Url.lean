import Intake.Url.Address
import Intake.Url.Domain

/-!
# URLs

Whether a text is an absolute URL with a host. Schemes of the web take any
slashes for the two before the host; the host of a `file` may be empty or
`localhost`, which is none; all other schemes take a host as it is.
-/

namespace Intake.Url

open Numeral (hexValue?)
open Text (allPieces)

/-! ### Hosts -/

/-- The bytes of a text, each percent sign with two hexadecimal digits for the byte they name. -/
def percentDecode : List Char → List UInt8
  | [] => []
  | '%' :: a :: b :: rest =>
    match hexValue? a, hexValue? b with
    | some high, some low => UInt8.ofNat (high * 16 + low) :: percentDecode rest
    | _, _ => '%'.toUInt8 :: percentDecode (a :: b :: rest)
  | c :: rest => c.toString.toUTF8.toList ++ percentDecode rest

def decodeUtf8 (bytes : List UInt8) : Option (List Char) :=
  (String.fromUTF8? ⟨bytes.toArray⟩).map String.toList

inductive Host where
  | name (labels : List (List Char))
  | ipv4
  | ipv6
  deriving DecidableEq, Repr

def readBracketed (cs : List Char) : Option Host :=
  if cs.getLast? = some ']' && Ipv6.isAddress cs.dropLast then some .ipv6 else none

/-- Reads the host of a scheme of the web or a `file`. -/
def readHost (cs : List Char) : Option Host :=
  match cs with
  | '[' :: address => readBracketed address
  | _ => do
    let labels ← Domain.labels? (← decodeUtf8 (percentDecode cs))
    if labels = [[]] then none
    else if Ipv4.endsInNumber labels then if Ipv4.isAddress labels then some .ipv4 else none
    else some (.name labels)

def isForbiddenOpaque (c : Char) : Bool :=
  c == '\x00' || "\t\n\r #/:<>?@[\\]^|".toList.contains c

def isOpaqueHost (cs : List Char) : Bool :=
  match cs with
  | '[' :: address => (readBracketed address).isSome
  | _ => !cs.any isForbiddenOpaque

/-! ### Parts of a URL -/

inductive SchemeType where
  | web
  | file
  | other
  deriving DecidableEq, Repr

def SchemeType.of (scheme : String) : SchemeType :=
  if scheme ∈ ["http", "https", "ws", "wss", "ftp"] then .web
  else if scheme = "file" then .file
  else .other

/-- Splits a URL after its scheme, which is in lower case then. -/
def splitScheme (cs : List Char) : Option (String × List Char) :=
  let inScheme (c : Char) : Bool := c.isAlphanum || c == '+' || c == '-' || c == '.'
  match cs.takeWhile inScheme, cs.dropWhile inScheme with
  | first :: scheme, ':' :: rest =>
    if first.isAlpha then some (String.ofList ((first :: scheme).map Char.toLower), rest) else none
  | _, _ => none

/-- Whether a character ends the part of a URL with the host. A backslash does so on the web. -/
def endsAuthority (t : SchemeType) (c : Char) : Bool :=
  c == '/' || c == '?' || c == '#' || (c == '\\' && t != .other)

def afterLastAt (cs : List Char) : List Char := (cs.reverse.takeWhile (· ≠ '@')).reverse

/-- Splits host and port at the first colon outside brackets. -/
def splitPort (bracketed : Bool) : List Char → List Char × Option (List Char)
  | [] => ([], none)
  | c :: rest =>
    if c = ':' && !bracketed then ([], some rest)
    else
      let (host, port) := splitPort (if c = '[' then true else if c = ']' then false else bracketed) rest
      (c :: host, port)

/-- A port is empty or a number of 16 bits. A backslash after it ends it with any scheme. -/
def isPort (cs : List Char) : Bool :=
  let digits := cs.takeWhile (· ≠ '\\')
  digits.all Char.isDigit && Nat.ofDigitChars 10 digits 0 < 65536

/-- Whether a host, and perhaps a port, come next, after the slashes. -/
def hasAuthority (t : SchemeType) (cs : List Char) : Bool :=
  let (host, port) := splitPort false (afterLastAt (cs.takeWhile (!endsAuthority t ·)))
  !host.isEmpty &&
    (if t = .web then (readHost host).isSome else isOpaqueHost host) && port.all isPort

/-! ### Files -/

/-- A letter and a colon or bar, the name of a drive. -/
def isDrive : List Char → Bool
  | [letter, mark] => letter.isAlpha && (mark == ':' || mark == '|')
  | _ => false

def isSingleDot (cs : List Char) : Bool := cs.map Char.toLower ∈ [".".toList, "%2e".toList]

def isDoubleDot (cs : List Char) : Bool :=
  cs.map Char.toLower ∈ ["..".toList, "%2e.".toList, ".%2e".toList, "%2e%2e".toList]

/-- Whether a path has a drive as its first segment, at a depth below its root. -/
def startsAtDrive (depth : Nat) : List (List Char) → Bool
  | [] => false
  | segment :: rest =>
    if isDoubleDot segment then startsAtDrive (depth - 1) rest
    else if isSingleDot segment then startsAtDrive depth rest
    else depth == 0 && isDrive segment || startsAtDrive (depth + 1) rest

/-- Whether the rest of a `file` URL has a host. A path that starts at a drive has none. -/
def fileHasHost (cs : List Char) : Bool :=
  match cs.map fun c => if c = '\\' then '/' else c with
  | '/' :: '/' :: rest =>
    let host := rest.takeWhile (!endsAuthority .file ·)
    let path := (rest.dropWhile (!endsAuthority .file ·)).takeWhile fun c => c != '?' && c != '#'
    !host.isEmpty && !isDrive host &&
      (match readHost host with
        | some h => h != .name ["localhost".toList]
        | none => false) && !startsAtDrive 0 (allPieces '/' (path.drop 1))
  | _ => false

/-! ### Whole URLs -/

/-- A URL without the characters that are skipped: controls and blanks at its ends, and tabs and
line breaks anywhere. -/
def strip (cs : List Char) : List Char :=
  let isControl (c : Char) : Bool := c.toNat ≤ 0x20
  let trimmed := ((cs.dropWhile isControl).reverse.dropWhile isControl).reverse
  trimmed.filter fun c => c != '\t' && c != '\n' && c != '\r'

def hasHost (cs : List Char) : Bool :=
  match splitScheme (strip cs) with
  | none => false
  | some (scheme, rest) =>
    match SchemeType.of scheme, rest with
    | .web, rest => hasAuthority .web (rest.dropWhile fun c => c == '/' || c == '\\')
    | .file, rest => fileHasHost rest
    | .other, '/' :: '/' :: rest => hasAuthority .other rest
    | .other, _ => false

end Intake.Url
