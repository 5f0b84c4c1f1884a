import CasePlan.CommandLine.Suggestion
import CasePlan.Table

/-!
# Reading command lines

A command takes options, which are named, and arguments, which are told by their places.  `parse`
reads the words after a command.  A long option has its value after an equals sign or in the next
word; a short option has it in the rest of its word or in the next one.  After two hyphens
everything is an argument.
-/

namespace CasePlan.CommandLine

/-- How a parameter is given. -/
inductive Shape where
  /-- By its place; messages call it by a placeholder. -/
  | argument (placeholder : Text)
  /-- By one of its names, with a value. -/
  | option (names : List Text)
  /-- By a name that switches it on, or one that switches it off. -/
  | switch (on off : List Text)
  deriving DecidableEq, Repr

/-- Which values a parameter can have. -/
inductive ValueRule where
  /-- All. -/
  | any
  /-- Paths at which something exists. -/
  | existingPath
  /-- Some words. -/
  | oneOf (words : List Text)
  deriving DecidableEq, Repr

/-- A parameter of a command. -/
structure Parameter where
  /-- What the command calls it. -/
  key : Text
  /-- How it is given. -/
  shape : Shape
  /-- Whether it has to be given. -/
  isRequired : Bool := false
  /-- Which values it can have. -/
  rule : ValueRule := .any
  deriving DecidableEq, Repr

/-- A command and what it takes. -/
structure Command where
  /-- The words that call it. -/
  name : Text
  /-- Its parameters. -/
  parameters : List Parameter
  /-- What usage lines say after the options, besides the arguments. -/
  more : List Text := []
  /-- Whether options may follow arguments. -/
  isMixed : Bool := true
  deriving DecidableEq, Repr

/-- A mistake in a command line.  Some are reported with the usage of the command. -/
structure UsageError where
  /-- What is wrong. -/
  message : Text
  /-- Whether the usage is shown. -/
  showsUsage : Bool := true
  deriving DecidableEq, Repr

/-- The words of a command line, sorted out. -/
structure Parsed where
  /-- Options with their values, in order. -/
  options : List (Text × Text) := []
  /-- What is no option. -/
  positional : List Text := []
  deriving DecidableEq, Repr

/-- The value of a switch that is on. -/
def switchedOn : Text := "on"

/-- The value of a switch that is off. -/
def switchedOff : Text := "off"

/-- What a name in a command line stands for. -/
inductive Meaning where
  /-- An option that needs a value. -/
  | option (key : Text)
  /-- A switch and the value that it gets. -/
  | switch (key value : Text)
  deriving DecidableEq, Repr

namespace Parameter

/-- The names of a parameter that is no argument, with their meanings. -/
def meanings (p : Parameter) : List (Text × Meaning) :=
  match p.shape with
  | .argument _ => []
  | .option names => names.map (·, .option p.key)
  | .switch on off =>
    on.map (·, .switch p.key switchedOn) ++ off.map (·, .switch p.key switchedOff)

/-- How messages call a parameter. -/
def label (p : Parameter) : Text :=
  let quoted (t : Text) : Text := "'" ++ t ++ "'"
  match p.shape with
  | .argument placeholder =>
    quoted (if p.isRequired then placeholder else "[" ++ placeholder ++ "]")
  | .option names => Text.join " / " (names.map quoted)
  | .switch on _ => Text.join " / " (on.map quoted)

/-- The wording for a parameter that is not given. -/
def missingMessage (p : Parameter) : Text :=
  match p.shape with
  | .argument _ => "Missing argument " ++ p.label ++ "."
  | _ => "Missing option " ++ p.label ++ "."

end Parameter

namespace Command

/-- The parameter of every command that asks for help. -/
def help : Parameter := { key := "help", shape := .switch ["--help"] [] }

/-- All names of a command, with their meanings. -/
def meanings (c : Command) : List (Text × Meaning) :=
  (c.parameters ++ [help]).flatMap Parameter.meanings

/-- Whether a name is a long one. -/
def isLong (name : Text) : Bool := 2 < name.length

/-- The long names. -/
def longNames (c : Command) : List Text := (c.meanings.map (·.1)).filter isLong

/-- The meaning of a name. -/
def meaning? (c : Command) (name : Text) : Option Meaning := Table.get? name c.meanings

/-- The usage line. -/
def usage (c : Command) : Text :=
  let arguments := c.parameters.filterMap fun p =>
    match p.shape with
    | .argument placeholder =>
      some (if p.isRequired then placeholder else "[" ++ placeholder ++ "]")
    | _ => none
  "Usage: " ++ Text.join " " (c.name :: "[OPTIONS]" :: arguments ++ c.more)

/-- The wording of a mistake. -/
def report (c : Command) (e : UsageError) : Text :=
  let context : Text :=
    if e.showsUsage then
      c.usage ++ "\nTry '" ++ c.name ++ " --help' for help.\n\n"
    else []
  context ++ "Error: " ++ e.message ++ "\n"

/-! ## Reading -/

/-- The mistake of an option that does not exist. -/
def unknownOption (name : Text) (similar : List Text) : UsageError :=
  { message := "No such option " ++ name.quoted ++ "." ++ offer similar }

/-- The mistake of an option without a value. -/
def needsValue (name : Text) : UsageError :=
  { message := "Option " ++ name.quoted ++ " requires an argument.", showsUsage := false }

/-- The mistake of a switch with a value. -/
def takesNoValue (name : Text) : UsageError :=
  { message := "Option " ++ name.quoted ++ " does not take a value.", showsUsage := false }

/-- A word cut at its first equals sign. -/
def cutAtEquals (word : Text) : Text × Option Text :=
  match word.span (· ≠ CodePoint.ofChar '=') with
  | (name, []) => (name, none)
  | (name, _ :: value) => (name, some value)

/-- What a word of options says: options with values, and the name and key of one whose value is in
the next word. -/
structure Word where
  /-- Options with values. -/
  options : List (Text × Text) := []
  /-- The option that still needs a value. -/
  waiting? : Option (Text × Text) := none

/-- The short options in a word, letter by letter. -/
def readShort (c : Command) (done : List (Text × Text)) : Text → Except UsageError Word
  | [] => .ok { options := done }
  | letter :: rest =>
    let name : Text := ['-', letter]
    match c.meaning? name with
    | none => .error (unknownOption name [])
    | some (.switch key value) => readShort c (done ++ [(key, value)]) rest
    | some (.option key) =>
      match rest with
      | [] => .ok { options := done, waiting? := some (name, key) }
      | value => .ok { options := done ++ [(key, value)] }

/-- The options in a word that begins with a hyphen. -/
def readWord (c : Command) (word : Text) : Except UsageError Word :=
  let (name, attached?) := cutAtEquals word
  match if isLong name then c.meaning? name else none, attached? with
  | some (.option key), some value => .ok { options := [(key, value)] }
  | some (.option key), none => .ok { waiting? := some (name, key) }
  | some (.switch _ _), some _ => .error (takesNoValue name)
  | some (.switch key value), none => .ok { options := [(key, value)] }
  | none, _ =>
    match word with
    | _ :: d :: rest =>
      if d = '-' then .error (unknownOption name (suggestions name c.longNames))
      else readShort c [] (d :: rest)
    | _ => .ok {}

/-- Whether a word is read as options. -/
def isOptionWord (word : Text) : Bool :=
  1 < word.length && word.head? == some (CodePoint.ofChar '-')

/-- Sorts out the words after a command. -/
def parse (c : Command) (words : List Text) (done : Parsed) : Except UsageError Parsed :=
  match words with
  | [] => .ok done
  | word :: rest =>
    if word = ("--" : Text) then .ok { done with positional := done.positional ++ rest }
    else if isOptionWord word then
      match c.readWord word with
      | .error e => .error e
      | .ok read =>
        match read.waiting? with
        | none => c.parse rest { done with options := done.options ++ read.options }
        | some (name, key) =>
          match rest with
          | [] => .error (needsValue name)
          | value :: after =>
            c.parse after { done with options := done.options ++ read.options ++ [(key, value)] }
    else if c.isMixed then c.parse rest { done with positional := done.positional ++ [word] }
    else .ok { done with positional := done.positional ++ word :: rest }

/-! ## Values -/

/-- The parameters in the order in which their values are looked at: those given as options in the
order of the command line, then arguments, then all others. -/
def inOrder (c : Command) (parsed : Parsed) : List Parameter :=
  let isArgument (p : Parameter) : Bool := p.shape matches .argument _
  let given := (parsed.options.map (·.1)).eraseDups.filterMap fun key =>
    c.parameters.find? (·.key = key)
  let others := c.parameters.filter fun p => p ∉ given
  given ++ others.filter isArgument ++ others.filter (!isArgument ·)

/-- The values of all parameters; the last one of several counts. -/
def values (c : Command) (parsed : Parsed) : List (Text × Text) :=
  let arguments := c.parameters.filter fun p => p.shape matches .argument _
  parsed.options.reverse ++ (arguments.map (·.key)).zip parsed.positional

/-- The words that are left over. -/
def surplus (c : Command) (parsed : Parsed) : List Text :=
  parsed.positional.drop (c.parameters.filter fun p => p.shape matches .argument _).length

/-- The mistake of words that are left over. -/
def surplusError (words : List Text) : UsageError :=
  let noun : Text := if words.length = 1 then "argument" else "arguments"
  { message := "Got unexpected extra " ++ noun ++ " (" ++ Text.join " " words ++ ")" }

end Command

end CasePlan.CommandLine
