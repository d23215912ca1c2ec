/-
  QueryLint.Disk.Listing

  A tree of files as a flat list of names and contents, to be shown. Octets that are
  not UTF-8 are shown as the replacement character.
-/
import QueryLint.Disk.Basic

namespace QueryLint.Disk

/-- What octets a multi-octet character may continue with: how many, and the range of the first of
    them. -/
def continuation? (lead : UInt8) : Option (Nat × UInt8 × UInt8) :=
  if 0xC2 ≤ lead && lead ≤ 0xDF then some (1, 0x80, 0xBF)
  else if lead = 0xE0 then some (2, 0xA0, 0xBF)
  else if lead = 0xED then some (2, 0x80, 0x9F)
  else if 0xE1 ≤ lead && lead ≤ 0xEF then some (2, 0x80, 0xBF)
  else if lead = 0xF0 then some (3, 0x90, 0xBF)
  else if 0xF1 ≤ lead && lead ≤ 0xF3 then some (3, 0x80, 0xBF)
  else if lead = 0xF4 then some (3, 0x80, 0x8F)
  else none

/-- The bits of a lead octet that belong to the code point. -/
def leadBits (lead : UInt8) (more : Nat) : Nat :=
  lead.toNat % Nat.pow 2 (6 - more)

/-- A character under way: how many octets are still to come, the range of the next one, and the
    bits so far. -/
structure Unfinished where
  more : Nat
  low : UInt8
  high : UInt8
  bits : Nat

/-- A character begins with this octet: it is complete, or more must follow, or the octet begins
    none. -/
def beginChar (b : UInt8) : List Char × Option Unfinished :=
  if b < 0x80 then ([Char.ofNat b.toNat], none)
  else match continuation? b with
    | some (more, low, high) => ([], some ⟨more, low, high, leadBits b more⟩)
    | none => (['\ufffd'], none)

/-- Read one octet. A character that cannot go on with it is replaced, and the octet begins the
    next. -/
def readOctet (state : Option Unfinished) (b : UInt8) : List Char × Option Unfinished :=
  match state with
  | none => beginChar b
  | some p =>
    if p.low ≤ b && b ≤ p.high then
      let bits := p.bits * 64 + b.toNat % 64
      if p.more = 1 then ([Char.ofNat bits], none) else ([], some ⟨p.more - 1, 0x80, 0xBF, bits⟩)
    else
      let next := beginChar b
      ('\ufffd' :: next.1, next.2)

/-- The characters of octets, with a replacement character for each part that is no UTF-8. -/
def lossyChars (state : Option Unfinished) : List UInt8 → List Char
  | [] => if state.isSome then ['\ufffd'] else []
  | b :: bs =>
    let r := readOctet state b
    r.1 ++ lossyChars r.2 bs

/-- Octets as text. -/
def lossyText (content : ByteArray) : String :=
  String.ofList (lossyChars none content.toList)

/-- How a place is listed: a directory ends with a slash, a link with an at sign. Places outside the
    working directory are not listed. -/
def listed? : Place × Entry → Option (String × Option String)
  | (⟨.above 0, names⟩, .file content) => some ("/".intercalate names, some (lossyText content))
  | (⟨.above 0, names⟩, .directory) => some ("/".intercalate names ++ "/", none)
  | (⟨.above 0, names⟩, .link _) => some ("/".intercalate names ++ "@", none)
  | _ => none

/-- All places below the working directory with the texts of the files, in increasing order. -/
def listing (d : Disk) : List (String × Option String) :=
  (d.entries.filterMap listed?).mergeSort fun a b => a.1 ≤ b.1

end QueryLint.Disk
