import Intake.Numeral.Hex
import Intake.Text.Segments

/-!
# Addresses

IPv4 addresses of up to four numbers, decimal, octal or hexadecimal, of which the
last fills the bytes that are left; and IPv6 addresses.
-/

namespace Intake.Url

open Numeral (hexValue? readHex)
open Text (allPieces)

namespace Ipv4

def isOctal (c : Char) : Bool := '0' ≤ c && c ≤ '7'

/-- Reads a number: hexadecimal after `0x`, which alone is zero, octal after `0`, else decimal. -/
def readNumber (cs : List Char) : Option Nat :=
  match cs with
  | [] => none
  | '0' :: 'x' :: digits | '0' :: 'X' :: digits => readHex digits
  | '0' :: d :: digits =>
    if (d :: digits).all isOctal then some (Nat.ofDigitChars 8 (d :: digits) 0) else none
  | digits => if digits.all Char.isDigit then some (Nat.ofDigitChars 10 digits 0) else none

/-- The labels without an empty one at the end. -/
def dropRoot (labels : List (List Char)) : List (List Char) :=
  match labels.reverse with
  | [] :: front => front.reverse
  | _ => labels

/-- Whether the last label is a number, so that the labels are no name. -/
def endsInNumber (labels : List (List Char)) : Bool :=
  match (dropRoot labels).getLast? with
  | some last => (!last.isEmpty && last.all Char.isDigit) || (readNumber last).isSome
  | none => false

def isAddress (labels : List (List Char)) : Bool :=
  match (dropRoot labels).mapM readNumber with
  | none => false
  | some numbers =>
    match numbers.reverse with
    | [] => false
    | last :: front =>
      front.length < 4 && front.all (· < 256) && last < Nat.pow 256 (4 - front.length)

end Ipv4

namespace Ipv6

/-- Up to four hexadecimal digits. -/
def isPiece (cs : List Char) : Bool :=
  0 < cs.length && cs.length ≤ 4 && cs.all fun c => (hexValue? c).isSome

/-- A byte in decimal digits without zeros in front. -/
def isByte (cs : List Char) : Bool :=
  match cs with
  | [] => false
  | ['0'] => true
  | d :: _ => d != '0' && cs.all Char.isDigit && Nat.ofDigitChars 10 cs 0 < 256

/-- An IPv4 address in decimal. -/
def isEmbedded (cs : List Char) : Bool :=
  let bytes := allPieces '.' cs
  bytes.length == 4 && bytes.all isByte

/-- The number of pieces in a text, of which the last may be an IPv4 address of two. -/
def countPieces (mayEmbed : Bool) (cs : List Char) : Option Nat :=
  if cs.isEmpty then some 0
  else
    let parts := allPieces ':' cs
    let front := parts.dropLast
    match parts.getLast? with
    | none => none
    | some last =>
      if !front.all isPiece then none
      else if isPiece last then some (front.length + 1)
      else if mayEmbed && isEmbedded last then some (front.length + 2)
      else none

def splitGap : List Char → Option (List Char × List Char)
  | ':' :: ':' :: rest => some ([], rest)
  | c :: rest => (splitGap rest).map fun (before, after) => (c :: before, after)
  | [] => none

/-- Whether a text is an address: eight pieces, or fewer with a gap for those left out. -/
def isAddress (cs : List Char) : Bool :=
  match splitGap cs with
  | none => countPieces true cs == some 8
  | some (before, after) =>
    match countPieces false before, countPieces true after with
    | some m, some n => m + n ≤ 7
    | _, _ => false

end Ipv6

end Intake.Url
