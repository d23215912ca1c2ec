/-
  QueryLint.Crash

  A check that breaks down instead of giving an answer. A crash stays within the query
  it happened on, where it is reported as one fatal diagnostic.
-/
namespace QueryLint

/-- How a check broke down. -/
inductive Crash where
  /-- With a text that says why. -/
  | saying (text : String)
  /-- Without a readable text. -/
  | silent
  deriving DecidableEq, Repr

/-- What is reported about a crash. -/
def Crash.message : Crash → String
  | saying text => text
  | silent => "unexpected failure while validating query"

end QueryLint
