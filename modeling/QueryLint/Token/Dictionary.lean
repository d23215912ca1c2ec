/-
  QueryLint.Token.Dictionary

  The words that are not plain identifiers: reserved words and the names of
  aggregate functions. A word is looked up in any spelling of its letters, and only
  as a whole: the character after it must not be a word character.
-/
import QueryLint.Text.Letter
import QueryLint.Text.Word

namespace QueryLint.Token

open QueryLint.Text

/-- The reserved words. -/
def keywords : List String := [
    "SELECT", "FROM", "WHERE", "INSERT", "INTO", "VALUE", "VALUES", "UPDATE", "SET", "DELETE",
    "CREATE", "DROP", "ALTER", "TABLE", "IN", "LIMIT", "JOIN", "INNER", "LEFT", "RIGHT", "FULL",
    "OUTER", "CROSS", "ON", "AND", "OR", "NOT", "DISTINCT", "AS", "GROUP", "BY", "HAVING",
    "ORDER", "ASC", "DESC", "OFFSET", "UNION", "INTERSECT", "EXCEPT", "CASE", "WHEN", "THEN",
    "ELSE", "END", "BETWEEN", "LIKE", "EXISTS", "WITH", "RECURSIVE", "ALL", "ANY", "SOME",
    "CAST", "INTERVAL", "EXTRACT", "OVER", "PARTITION", "ROW", "ROWS", "PRECEDING", "FOLLOWING",
    "CURRENT", "UNBOUNDED", "RANGE", "EXCLUDE", "NULLS", "FIRST", "LAST", "PRIMARY", "FOREIGN",
    "KEY", "REFERENCES", "CONSTRAINT", "INDEX", "UNIQUE", "CHECK", "DEFAULT", "AUTO_INCREMENT",
    "COLLATE", "COMMENT", "ENGINE", "CHARACTER", "CHARSET", "UNSIGNED", "SIGNED", "ZEROFILL",
    "BINARY", "PRECISION", "SCALE", "DATE", "TIME", "TIMESTAMP", "DATETIME", "YEAR", "MONTH",
    "DAY", "HOUR", "MINUTE", "SECOND", "MICROSECOND", "WEEK", "QUARTER", "CENTURY", "DECADE",
    "AGE", "EPOCH", "TIMEZONE", "AT", "ZONE"]

/-- The names of aggregate functions. -/
def aggregates : List String := [
    "COUNT", "SUM", "AVG", "MIN", "MAX", "STRING_AGG", "ARRAY_AGG", "STDDEV", "VARIANCE",
    "MEDIAN", "MODE", "PERCENTILE", "LISTAGG"]

/-- Whether a word may end here: at the end of the text or before a character that cannot continue
    it. -/
def atWordEnd : List Char → Bool
  | [] => true
  | c :: _ => !isWord c

/-- Whether the text begins with a spelling of `word` that ends there. -/
def startsWithWord (word cs : List Char) : Bool :=
  spellsWord word cs && atWordEnd (cs.drop word.length)

/-- The length of the dictionary word a text begins with. -/
def wordLength? (dictionary : List (List Char)) (cs : List Char) : Option Nat :=
  (dictionary.find? fun word => startsWithWord word cs).map List.length

/-- The reserved words, letter by letter. -/
def keywordLetters : List (List Char) :=
  keywords.map String.toList

/-- The names of aggregate functions, letter by letter. -/
def aggregateLetters : List (List Char) :=
  aggregates.map String.toList

end QueryLint.Token
