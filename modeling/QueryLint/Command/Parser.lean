/-
  QueryLint.Command.Parser

  Reading a command line. Options that are common to all commands stand before or after
  the command; the value of an option is the rest of its word or the next word. The value
  of a parameter is looked at when the next known argument is met, or at the end of the
  words, so that of two faults the one that is met first is reported.
-/
import QueryLint.Command.Basic

namespace QueryLint.Command

/-! ## The arguments that are known -/

/-- Where on the command line words stand. -/
inductive Level where
  | top
  | check
  | dialects
  deriving DecidableEq, Repr

/-- The commands. -/
inductive Name where
  | check
  | dialects
  | help
  deriving DecidableEq, Repr

/-- The command with a name. -/
def Name.ofString? : String → Option Name
  | "check" => some .check
  | "dialects" => some .dialects
  | "help" => some .help
  | _ => none

/-- What an option name stands for. -/
inductive Meaning where
  | parameter (p : Parameter)
  | flag (f : Flag)
  | text (r : Refusal)

/-- What a long option name, without its hyphens, stands for. -/
def Level.long? : Level → String → Option Meaning
  | _, "config" => some (.parameter .config)
  | _, "verbose" => some (.flag .verbose)
  | _, "help" => some (.text .help)
  | .top, "version" => some (.text .version)
  | .check, "dialect" => some (.parameter .dialect)
  | .check, "output" => some (.parameter .output)
  | .check, "split" => some (.parameter .split)
  | .check, "summary" => some (.parameter .summary)
  | .check, "extended" => some (.flag .extended)
  | .check, "no-fail" => some (.flag .noFail)
  | _, _ => none

/-- What a short option name stands for. -/
def Level.short? : Level → Char → Option Meaning
  | _, 'c' => some (.parameter .config)
  | _, 'v' => some (.flag .verbose)
  | _, 'h' => some (.text .help)
  | .top, 'V' => some (.text .version)
  | .check, 'd' => some (.parameter .dialect)
  | .check, 'o' => some (.parameter .output)
  | _, _ => none

/-! ## What has been given -/

/-- The values and flags given at one level. -/
structure Given where
  config : Option String := none
  path : Option String := none
  dialect : Option String := none
  output : Option String := none
  split : Option SplitMode := none
  summary : Option String := none
  verbose : Bool := false
  extended : Bool := false
  noFail : Bool := false

/-- The value of a path parameter, which is not empty. -/
def pathValue (p : Parameter) (value : String) : Except Refusal (Option String) :=
  if value.isEmpty then .error (.emptyValue p) else .ok (some value)

/-- Whether a parameter has been given. -/
def Given.has (g : Given) : Parameter → Bool
  | .config => g.config.isSome
  | .path => g.path.isSome
  | .dialect => g.dialect.isSome
  | .output => g.output.isSome
  | .split => g.split.isSome
  | .summary => g.summary.isSome

/-- Take the value of a parameter that has none yet. -/
def Given.setValue (g : Given) (p : Parameter) (value : String) : Except Refusal Given :=
  match p with
  | .config => return { g with config := ← pathValue p value }
  | .path => return { g with path := ← pathValue p value }
  | .dialect => .ok { g with dialect := some value }
  | .output => return { g with output := ← pathValue p value }
  | .split =>
    match SplitMode.parse value with
    | .ok mode => .ok { g with split := some mode }
    | .error e => .error (.badSplit e)
  | .summary => return { g with summary := ← pathValue p value }

/-- Take the value of a parameter. -/
def Given.store (g : Given) (p : Parameter) (value : String) : Except Refusal Given :=
  if g.has p then .error (.repeated p.spelling) else g.setValue p value

/-- Take a flag. -/
def Given.raise (g : Given) : Flag → Except Refusal Given
  | .verbose =>
    if g.verbose then .error (.repeated Flag.verbose.spelling) else .ok { g with verbose := true }
  | .extended =>
    if g.extended then .error (.repeated Flag.extended.spelling)
    else .ok { g with extended := true }
  | .noFail =>
    if g.noFail then .error (.repeated Flag.noFail.spelling) else .ok { g with noFail := true }

/-! ## Reading words -/

/-- A parameter whose value has not been looked at. -/
inductive Pending where
  | none
  /-- The value is the next word. -/
  | awaiting (p : Parameter)
  | valued (p : Parameter) (value : String)

/-- What is known after some words of one level. -/
structure State where
  given : Given := {}
  pending : Pending := .none
  /-- Whether the word for the path has been met. -/
  pathMet : Bool := false
  /-- Whether `--` has been met, after which no word is an option. -/
  plain : Bool := false

/-- Whether the next word is the value of an option. -/
def State.isAwaiting (s : State) : Bool :=
  match s.pending with
  | .awaiting _ => true
  | _ => false

/-- Look at the pending value. -/
def State.settle (s : State) : Except Refusal State :=
  match s.pending with
  | .none => .ok s
  | .awaiting p => .error (.missingValue p)
  | .valued p value => return { s with given := ← s.given.store p value, pending := .none }

/-- A parameter is met, with the value that stands in the same word, if one does. -/
def State.meetParameter (s : State) (p : Parameter) (attached : Option String) :
    Except Refusal State := do
  let s ← s.settle
  match attached with
  | some value => return { s with given := ← s.given.store p value }
  | none => return { s with pending := .awaiting p }

/-- A flag is met. -/
def State.meetFlag (s : State) (f : Flag) : Except Refusal State := do
  let s ← s.settle
  return { s with given := ← s.given.raise f }

/-- The part of an option word before the first `=`, and the part after it. -/
def cutValue (cs : List Char) : String × Option String :=
  let rest := cs.dropWhile (· != '=')
  (String.ofList (cs.takeWhile (· != '=')), rest.tail?.map String.ofList)

/-- A word that begins with two hyphens; `cs` is what follows them. -/
def State.meetLong (s : State) (level : Level) (cs : List Char) : Except Refusal State := do
  let (name, attached) := cutValue cs
  match level.long? name with
  | none => throw (.unknownArgument ("--" ++ name))
  | some (.parameter p) => s.meetParameter p attached
  | some (.flag f) =>
    if attached.isSome then throw (.unexpectedValue ("--" ++ name))
    s.meetFlag f
  | some (.text r) =>
    if attached.isSome then throw (.unexpectedValue ("--" ++ name))
    let _ ← s.settle
    throw r

/-- The value that stands in the same word as a short option, after an `=` or not. -/
def shortValue? : List Char → Option String
  | [] => none
  | '=' :: cs => some (String.ofList cs)
  | cs => some (String.ofList cs)

/-- Short options grouped in one word. The first one that takes a value takes the rest. -/
def State.meetShorts (s : State) (level : Level) : List Char → Except Refusal State
  | [] => .ok s
  | c :: cs => do
    match level.short? c with
    | none => throw (.unknownArgument (String.ofList ['-', c]))
    | some (.parameter p) => s.meetParameter p (shortValue? cs)
    | some (.flag f) => (← s.meetFlag f).meetShorts level cs
    | some (.text r) =>
      let _ ← s.settle
      throw r

/-- A word that is neither an option nor the value of one. -/
def State.meetPlain (s : State) (level : Level) (word : String) : Except Refusal State := do
  match level with
  | .check =>
    if s.pathMet then throw (.unknownArgument word)
    let s ← s.settle
    return { s with pending := .valued .path word, pathMet := true }
  | .dialects => throw (.unknownArgument word)
  | .top =>
    -- Only after `--` can the word be the name of a command here.
    throw (if (Name.ofString? word).isSome then .unknownArgument word else .unknownCommand word)

/-- One word. -/
def State.meet (s : State) (level : Level) (word : String) : Except Refusal State :=
  if s.plain then s.meetPlain level word
  else match word.toList with
    | ['-', '-'] => .ok { s with plain := true }
    | '-' :: '-' :: cs => s.meetLong level cs
    | '-' :: c :: cs => s.meetShorts level (c :: cs)
    | _ =>
      match s.pending with
      | .awaiting p => .ok { s with pending := .valued p word }
      | _ => s.meetPlain level word

/-- The words of a command. -/
def State.meetAll (s : State) (level : Level) : List String → Except Refusal State
  | [] => s.settle
  | word :: words => do (← s.meet level word).meetAll level words

/-! ## Commands -/

/-- The command a word at the top stands for: none if it is the value of an option, or stands after
    `--`. -/
def State.command? (s : State) (word : String) : Option Name :=
  if s.plain || s.isAwaiting then none else Name.ofString? word

/-- What `help` is asked about: nothing, or one command. -/
def helpOn : List String → Refusal
  | [] => .help
  | [word] => if (Name.ofString? word).isSome then .help else .unknownCommand word
  | word :: next :: _ => .unknownCommand (if (Name.ofString? word).isSome then next else word)

/-- The invocation that results from what is given before and after a command. The later of two
    settings files wins. -/
def Invocation.ofGiven (before after : Given) (task : Task) : Invocation :=
  ⟨after.config.or before.config, before.verbose || after.verbose, task⟩

/-- The words after the command `check`. -/
def parseCheck (words : List String) : Except Refusal (Given × Task) := do
  let g := (← State.meetAll {} .check words).given
  match g.path with
  | none => throw .missingPath
  | some path =>
    return (g, .check ⟨path, g.dialect, g.output, g.split, g.extended, g.summary, g.noFail⟩)

/-- The words after the command `dialects`. -/
def parseDialects (words : List String) : Except Refusal (Given × Task) := do
  return ((← State.meetAll {} .dialects words).given, .dialects)

/-- The words after a command. -/
def parseTask (name : Name) (words : List String) : Except Refusal (Given × Task) :=
  match name with
  | .check => parseCheck words
  | .dialects => parseDialects words
  | .help => .error (helpOn words)

/-- The words from the beginning on, `s` being what is known so far. -/
def parseFrom (s : State) : List String → Except Refusal Invocation
  | [] => do
    let s ← s.settle
    throw (if s.given.config.isSome || s.given.verbose then .missingCommand else .nothingGiven)
  | word :: words => do
    match s.command? word with
    | some name =>
      let (after, task) ← parseTask name words
      let s ← s.settle
      return .ofGiven s.given after task
    | none => parseFrom (← s.meet .top word) words

/-- What the words of a command line ask for. -/
def parse (words : List String) : Except Refusal Invocation :=
  parseFrom {} words

end QueryLint.Command
