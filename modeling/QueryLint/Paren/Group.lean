/-
  QueryLint.Paren.Group

  Parenthesised groups of raw query text, and how deep parenthesised `SELECT`s nest.
-/
import QueryLint.Crash
import QueryLint.Paren.Scan
import QueryLint.Text.Letter
import QueryLint.Text.Utf8

namespace QueryLint.Paren

open QueryLint.Text

/-- A pair of matching parentheses, by the octet offsets of its two characters. -/
structure Group where
  start : Nat
  stop : Nat
  deriving DecidableEq, Repr

/-- The text strictly between two parentheses, given their octet offsets. Offsets that bound no part
    of the text break the check down. -/
def between (cs : List Char) (start stop : Nat) : Except Crash (List Char) :=
  match slice? cs (start + 1) stop with
  | some body => .ok body
  | none => .error (.saying "text range is out of order, out of bounds or within a character")

/-- The text inside a group. -/
def Group.body (g : Group) (cs : List Char) : Except Crash (List Char) :=
  between cs g.start g.stop

/-- The groups closed by a sequence of parentheses, given the offsets of those open before it,
    innermost first. A closing parenthesis with none open is passed over. -/
def groupsFrom (opened : List Nat) : List Seen → List Group
  | [] => []
  | ⟨.opening, i⟩ :: rest => groupsFrom (i :: opened) rest
  | ⟨.closing, j⟩ :: rest =>
    match opened with
    | [] => groupsFrom [] rest
    | i :: outer => ⟨i, j⟩ :: groupsFrom outer rest

/-- The groups of a text, in the order they close. -/
def groups (cs : List Char) : List Group :=
  groupsFrom [] (seen cs)

/-! ## Nesting depth -/

/-- The state of the nesting counter. -/
structure Nesting where
  /-- The offsets of the parentheses now open, innermost first. -/
  opened : List Nat
  depth : Nat
  /-- The running maximum of the depth. -/
  highest : Nat
  deriving DecidableEq, Repr

/-- No parenthesis read. -/
def Nesting.start : Nesting :=
  ⟨[], 0, 0⟩

/-- One level up. The outermost level has none above it. -/
def levelUp (depth : Nat) : Except Crash Nat :=
  if depth = 0 then .error (.saying "attempt to subtract with overflow") else .ok (depth - 1)

/-- Read one parenthesis of the text. An opening one goes a level deeper. A closing one goes a level
    up, and takes one off the running maximum if its group does not mention `SELECT`, whichever
    group set that maximum. -/
def Nesting.step (cs : List Char) (n : Nesting) (p : Seen) : Except Crash Nesting :=
  match p.side with
  | .opening => .ok ⟨p.offset :: n.opened, n.depth + 1, max n.highest (n.depth + 1)⟩
  | .closing =>
    match n.opened with
    | [] => .ok n
    | i :: outer => do
      let depth ← levelUp n.depth
      let body ← between cs i p.offset
      return ⟨outer, depth, if mentionsSelect body then n.highest else n.highest - 1⟩

/-- Read parentheses one after another. -/
def Nesting.run (cs : List Char) (n : Nesting) : List Seen → Except Crash Nesting
  | [] => .ok n
  | p :: ps => do (← n.step cs p).run cs ps

/-- How deep the parenthesised `SELECT`s of a text nest. -/
def selectDepth (cs : List Char) : Except Crash Nat := do
  return (← Nesting.start.run cs (seen cs)).highest

end QueryLint.Paren
