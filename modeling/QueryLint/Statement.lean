/-
  QueryLint.Statement

  Statements: a query is classified by the text of its first token alone.
-/
import QueryLint.Token.Basic

namespace QueryLint

/-- What a statement does, as far as its leading keyword tells. -/
inductive Statement.Kind where
  | select
  | insert
  | update
  | delete
  | create
  | drop
  | alter
  | unknown
  deriving DecidableEq, Repr

/-- The statement a token sequence starts with. -/
structure Statement where
  kind : Statement.Kind
  /-- The text of the first token, as it is. -/
  keyword : String
  deriving DecidableEq, Repr

namespace Statement

/-- The kinds with a leading keyword of their own, in the order they are listed. -/
def standardKinds : List Kind :=
  [.select, .insert, .update, .delete, .create, .drop, .alter]

/-- The name of a kind, which is its leading keyword where it has one. -/
def Kind.name : Kind → String
  | select => "SELECT"
  | insert => "INSERT"
  | update => "UPDATE"
  | delete => "DELETE"
  | create => "CREATE"
  | drop => "DROP"
  | alter => "ALTER"
  | unknown => "UNKNOWN"

/-- The kind of a leading keyword in upper case. -/
def Kind.ofKeyword (keyword : String) : Kind :=
  (standardKinds.find? fun kind => kind.name == keyword).getD .unknown

/-- Whether statements of this kind define data: `CREATE`, `DROP` and `ALTER` do. -/
def Kind.isDdl : Kind → Bool
  | create | drop | alter => true
  | _ => false

/-- The statement with this leading keyword. -/
def ofKeyword (keyword : String) : Statement :=
  ⟨Kind.ofKeyword keyword, keyword⟩

/-- The text of the first token. -/
def leadingText? (tokens : List Token) : Option String :=
  tokens.head?.map Token.text

/-- The statement a token sequence starts with; no tokens make no statement. -/
def classify? (tokens : List Token) : Option Statement :=
  (leadingText? tokens).map ofKeyword

/-- A standard kind is found again by its name. -/
theorem Kind.ofKeyword_name {kind : Kind} (h : kind ∈ standardKinds) :
    ofKeyword kind.name = kind := by
  cases kind with
  | unknown => simp [standardKinds] at h
  | _ => decide +kernel

@[simp]
theorem classify?_nil : classify? [] = none := rfl

@[simp]
theorem classify?_cons (t : Token) (ts : List Token) :
    classify? (t :: ts) = some (ofKeyword t.text) := rfl

end Statement

end QueryLint
