/-
  QueryLint.Toml.Value

  TOML values and the lines of a TOML document. Tables are built up line by line: a
  table may be opened by a header, come into being as the parent of one, or be spelled
  out by dotted keys, and where it came from decides what may still be added to it.
-/
namespace QueryLint.Toml

/-- A TOML value. Of numbers with a fraction and of dates only the kind is kept. -/
inductive Value where
  | string (text : String)
  | integer (n : Int)
  | float
  | boolean (b : Bool)
  | dateTime
  | array (items : List Value)
  | table (entries : List (String × Value))
  deriving Repr

/-- A line of a document that says something. -/
inductive Line where
  /-- `path = value`, where the path is dotted if it has several keys. -/
  | entry (path : List String) (value : Value)
  /-- `[path]`. -/
  | header (path : List String)
  /-- `[[path]]`. -/
  | rowHeader (path : List String)
  deriving Repr

/-! ## Tables under construction -/

/-- Where a table came from. -/
inductive Origin where
  /-- From a header of its own. -/
  | header
  /-- From the header of a table below it. -/
  | implied
  /-- From a dotted key. -/
  | dotted
  deriving DecidableEq, Repr

/-- What a key stands for while a document is read. -/
inductive Node where
  /-- A value given whole, to which nothing can be added. -/
  | leaf (value : Value)
  | table (origin : Origin) (entries : List (String × Node))
  /-- The tables given by double-bracket headers, each a `table`, in order. -/
  | rows (tables : List Node)
  deriving Repr

/-- The keys of a table under construction. -/
abbrev Entries :=
  List (String × Node)

/-- Replace what a key stands for, or add the key at the end. -/
def Entries.set (key : String) (node : Node) : Entries → Entries
  | [] => [(key, node)]
  | (k, n) :: rest => if k == key then (key, node) :: rest else (k, n) :: Entries.set key node rest

/-- Edit the table at the end of a path, with the origin and keys of the table the path starts from.
    Missing tables are made on the way, with origin `made`. The path goes through the last row of a
    double-bracket table; it is refused where it meets a value given whole, and dotted keys may not
    enter a table that has a header of its own. -/
def alter (made : Origin) (edit : Origin → Entries → Option Entries) :
    Origin → List String → Entries → Option Entries
  | origin, [], es => edit origin es
  | _, key :: path, es =>
    match es.lookup key with
    | none => do
      let below ← alter made edit made path []
      return es.set key (.table made below)
    | some (.leaf _) => none
    | some (.table origin below) =>
      if made = .dotted && origin = .header then none
      else do
        let below ← alter made edit origin path below
        return es.set key (.table origin below)
    | some (.rows tables) =>
      match tables.getLast? with
      | some (.table origin below) => do
        let below ← alter made edit origin path below
        return es.set key (.rows (tables.dropLast ++ [.table origin below]))
      | _ => none

/-- Add a new key to a table. A dotted path must end in a table made by dotted keys, and a plain key
    must not be added to one. -/
def addKey (dotted : Bool) (key : String) (value : Value) (origin : Origin) (es : Entries) :
    Option Entries :=
  if (origin == .dotted) != dotted then none
  else match es.lookup key with
    | none => some (es ++ [(key, .leaf value)])
    | some _ => none

/-- Add `path = value` to a table. -/
def addEntry (path : List String) (value : Value) (origin : Origin) (es : Entries) :
    Option Entries :=
  match path.getLast? with
  | none => none
  | some key =>
    let parents := path.dropLast
    alter .dotted (addKey (!parents.isEmpty) key value) origin parents es

/-- Open a table by a header: it must be new, or known only as the parent of others. -/
def openTable (key : String) (_ : Origin) (es : Entries) : Option Entries :=
  match es.lookup key with
  | none => some (es.set key (.table .header []))
  | some (.table .implied below) => some (es.set key (.table .header below))
  | some _ => none

/-- Add a row to a double-bracket table, which must be new or have rows only. -/
def openRow (key : String) (_ : Origin) (es : Entries) : Option Entries :=
  match es.lookup key with
  | none => some (es.set key (.rows [.table .header []]))
  | some (.rows tables) => some (es.set key (.rows (tables ++ [.table .header []])))
  | some _ => none

/-- A document under construction: its keys and the header that entries now belong to. -/
structure Draft where
  entries : Entries
  current : List String

/-- Open what a header names, below the parents of its path. -/
def openAt (opener : String → Origin → Entries → Option Entries) (path : List String)
    (es : Entries) : Option Entries :=
  match path.getLast? with
  | none => none
  | some key => alter .implied (opener key) .header path.dropLast es

/-- Add one line to a document. -/
def Draft.add (d : Draft) : Line → Option Draft
  | .entry path value => do
    let entries ← alter .implied (addEntry path value) .header d.current d.entries
    return { d with entries }
  | .header path => do return ⟨← openAt openTable path d.entries, path⟩
  | .rowHeader path => do return ⟨← openAt openRow path d.entries, path⟩

mutual

/-- The value a finished node stands for. -/
def Node.value : Node → Value
  | .leaf value => value
  | .table _ entries => .table (entryValues entries)
  | .rows tables => .array (rowValues tables)

/-- The finished entries of a table. -/
def entryValues : List (String × Node) → List (String × Value)
  | [] => []
  | (key, node) :: rest => (key, node.value) :: entryValues rest

/-- The finished rows of a double-bracket table. -/
def rowValues : List Node → List Value
  | [] => []
  | node :: rest => node.value :: rowValues rest

end

/-- The table that a document's lines make up. -/
def ofLines? (lines : List Line) : Option (List (String × Value)) := do
  let draft ← lines.foldlM Draft.add ⟨[], []⟩
  return entryValues draft.entries

/-- The table that the pairs of an inline table make up. -/
def ofPairs? (pairs : List (List String × Value)) : Option (List (String × Value)) := do
  let entries ← pairs.foldlM (fun es pair => addEntry pair.1 pair.2 .header es) []
  return entryValues entries

end QueryLint.Toml
