/-!
# Reading command lines

A command line is a sequence of options, flags and positional words, described by a list of
parameters. An option takes the next word as its value, or what is attached to it; a value that has
been collected is looked at when the next parameter comes, so that of two faults on a line the one
that shows first is reported. What the line leaves out may come from an environment variable, whose
value is held to the same rule, or from a default.
-/

namespace BuildFleet.CommandLine

/-- What can be wrong with a command line, or asked for instead of a command. -/
inductive UsageError where
  | displayHelp
  | displayHelpOnMissingArgumentOrSubcommand
  | displayVersion
  | missingSubcommand
  | invalidSubcommand
  | unknownArgument
  | invalidValue
  | valueValidation
  | missingRequiredArgument
  | argumentConflict
  | tooManyValues
  deriving DecidableEq, Repr

namespace UsageError

/-- The name of a kind of error. -/
def name : UsageError → String
  | displayHelp => "DisplayHelp"
  | displayHelpOnMissingArgumentOrSubcommand => "DisplayHelpOnMissingArgumentOrSubcommand"
  | displayVersion => "DisplayVersion"
  | missingSubcommand => "MissingSubcommand"
  | invalidSubcommand => "InvalidSubcommand"
  | unknownArgument => "UnknownArgument"
  | invalidValue => "InvalidValue"
  | valueValidation => "ValueValidation"
  | missingRequiredArgument => "MissingRequiredArgument"
  | argumentConflict => "ArgumentConflict"
  | tooManyValues => "TooManyValues"

/-- The exit status of the program: asking for help or for the version is no error. -/
def exitCode : UsageError → Nat
  | displayHelp | displayVersion => 0
  | _ => 2

end UsageError

/-! ## Parameters -/

/-- How a parameter appears on the line. -/
inductive Shape where
  /-- By its name or letter, without a value. -/
  | flag
  /-- By its name or letter, with a value. -/
  | option
  /-- As a word of its own. -/
  | positional
  /-- By its name or letter, to ask for something instead of a command. -/
  | request (instead : UsageError)
  deriving DecidableEq, Repr

/-- What the value of a parameter has to be. -/
inductive ValueRule where
  | anyText
  | nonEmptyText
  /-- A whole number of at most 64 bits; a plus may stand in front of it. -/
  | wholeNumber
  deriving DecidableEq, Repr

/-- The whole number of at most 64 bits that a text is. -/
def wholeNumber? (s : String) : Option Nat :=
  let digits := match s.toList with
    | '+' :: ds => ds
    | ds => ds
  if digits.isEmpty || !digits.all Char.isDigit then none
  else
    let n := digits.foldl (fun n d ↦ 10 * n + (d.toNat - 48)) 0
    if n < Nat.pow 2 64 then some n else none

/-- Holds a value to its rule. -/
def ValueRule.check (rule : ValueRule) (value : String) : Except UsageError Unit :=
  match rule with
  | anyText => .ok ()
  | nonEmptyText => if value.isEmpty then .error .invalidValue else .ok ()
  | wholeNumber => if (wholeNumber? value).isSome then .ok () else .error .valueValidation

/-- A parameter. -/
structure Parameter where
  /-- The name, which an option or a flag is written with after two dashes. -/
  name : String
  /-- The letter that may be written after one dash. -/
  letter : Option Char := none
  shape : Shape := .option
  rule : ValueRule := .anyText
  /-- The environment variable that may give the value. -/
  variableName? : Option String := none
  /-- The value when nothing gives one. -/
  default? : Option String := none
  required : Bool := false
  /-- The parameters that it cannot be given with. -/
  conflicts : List String := []
  deriving DecidableEq, Repr

/-- Where a value comes from; each origin yields to the later ones. -/
inductive Origin where
  | default
  | environment
  | line
  deriving DecidableEq, Repr

/-- A value as it was found. -/
structure Found where
  name : String
  origin : Origin
  /-- The text; flags have an empty one. -/
  value : String
  deriving DecidableEq, Repr

/-- The values found, newest first. -/
abbrev Findings := List Found

namespace Findings

/-- What has been found for a name. -/
def get? (fs : Findings) (name : String) : Option Found :=
  fs.find? (·.name == name)

/-- The value found for a name. -/
def value? (fs : Findings) (name : String) : Option String :=
  (fs.get? name).map (·.value)

/-- Whether anything has been found for a name, a default excepted. -/
def isGiven (fs : Findings) (name : String) : Bool :=
  (fs.get? name).any (·.origin != .default)

end Findings

/-! ## Words -/

/-- What a command takes: its parameters, and the words that lead on to other commands. -/
structure Grammar where
  parameters : List Parameter
  subcommands : List String := []

namespace Grammar

/-- The parameter with a name after two dashes. -/
def named? (g : Grammar) (name : List Char) : Option Parameter :=
  g.parameters.find? fun p ↦ p.shape != .positional && p.name.toList == name

/-- The parameter with a letter after one dash. -/
def lettered? (g : Grammar) (letter : Char) : Option Parameter :=
  g.parameters.find? fun p ↦ p.letter == some letter

/-- The positional parameters, in order. -/
def positionals (g : Grammar) : List Parameter :=
  g.parameters.filter (·.shape == .positional)

end Grammar

/-- The state of reading a line. -/
structure LineState where
  found : Findings := []
  /-- The parameter whose value is being collected, with the value if there is one yet. -/
  pending : Option (Parameter × Option String) := none
  /-- Whether the pending parameter takes the next word. -/
  awaiting : Bool := false
  /-- Whether two dashes have ended the options. -/
  trailing : Bool := false
  /-- The positional parameters that are still free. -/
  free : List Parameter

namespace LineState

/-- Takes a value for a parameter: it must be there, be the only one, and keep to the rule. -/
def accept (s : LineState) (p : Parameter) (value : Option String) : Except UsageError LineState :=
  match value with
  | none => .error .invalidValue
  | some v =>
    if (s.found.get? p.name).isSome then .error .argumentConflict
    else (p.rule.check v).map fun () ↦ { s with found := ⟨p.name, .line, v⟩ :: s.found }

/-- Takes the value that has been collected. -/
def settle (s : LineState) : Except UsageError LineState :=
  match s.pending with
  | none => .ok s
  | some (p, value) => accept { s with pending := none } p value

/-- Takes a flag. -/
def flag (s : LineState) (p : Parameter) : Except UsageError LineState := do
  let s ← settle s
  match p.shape with
  | .request instead => .error instead
  | _ => (accept s p (some "")).map fun s ↦ { s with awaiting := false }

/-- Takes an option with a value that is attached to it, or else with the next word. -/
def option (s : LineState) (p : Parameter) (attached : Option String) :
    Except UsageError LineState := do
  let s ← settle s
  match attached with
  | some v => (accept s p (some v)).map fun s ↦ { s with awaiting := false }
  | none => .ok { s with pending := some (p, none), awaiting := true }

/-- Takes a word after two dashes: a name, with a value after an equals sign or without. -/
def long (g : Grammar) (s : LineState) (word : List Char) : Except UsageError LineState :=
  let name := word.takeWhile (· != '=')
  let attached := match word.dropWhile (· != '=') with
    | [] => none
    | _ :: value => some (String.ofList value)
  match g.named? name with
  | none => .error .unknownArgument
  | some p =>
    if p.shape == .option then option s p attached
    else if attached.isSome then .error .tooManyValues
    else flag s p

/-- Takes the letters after one dash: flags, and at the end perhaps an option with its value, which
an equals sign may stand in front of. -/
def short (g : Grammar) (s : LineState) : List Char → Except UsageError LineState
  | [] => .ok s
  | c :: cs =>
    match g.lettered? c with
    | none => .error .unknownArgument
    | some p =>
      if p.shape == .option then
        option s p <|
          match cs with
          | [] => none
          | '=' :: value => some (String.ofList value)
          | value => some (String.ofList value)
      else (flag s p).bind fun s ↦ short g s cs

/-- Takes a word that is neither a value nor an option. -/
def word (g : Grammar) (s : LineState) (w : String) : Except UsageError LineState :=
  match s.free with
  | p :: free =>
    (settle s).map fun s ↦ { s with pending := some (p, some w), awaiting := false, free }
  | [] =>
    if g.subcommands.isEmpty || (s.trailing && g.subcommands.contains w) then
      .error .unknownArgument
    else .error .invalidSubcommand

/-- Takes one word that does not lead on to another command. -/
def next (g : Grammar) (s : LineState) (w : String) : Except UsageError LineState :=
  if s.trailing then word g s w
  else
    match w.toList with
    | '-' :: '-' :: [] => .ok { s with trailing := true }
    | '-' :: '-' :: name => long g s name
    | '-' :: c :: letters => short g s (c :: letters)
    | _ =>
      match s.awaiting, s.pending with
      | true, some (p, _) => .ok { s with pending := some (p, some w), awaiting := false }
      | _, _ => word g s w

/-- Takes the words of a line up to one that leads on to another command, which is given with the
words after it. -/
def words (g : Grammar) (s : LineState) :
    List String → Except UsageError (LineState × Option (String × List String))
  | [] => .ok (s, none)
  | w :: ws =>
    if !s.trailing && !s.awaiting && g.subcommands.contains w then .ok (s, some (w, ws))
    else (next g s w).bind fun s ↦ words g s ws

end LineState

/-! ## Completing a line -/

/-- The values of environment variables. -/
abbrev Environment := String → Option String

/-- Adds what the environment gives for parameters that the line leaves out. -/
def fromEnvironment (env : Environment) : List Parameter → Findings → Except UsageError Findings
  | [], found => .ok found
  | p :: ps, found =>
    match p.variableName?.bind env with
    | some v =>
      if (found.get? p.name).isSome then fromEnvironment env ps found
      else
        (p.rule.check v).bind fun () ↦
          fromEnvironment env ps (⟨p.name, .environment, v⟩ :: found)
    | none => fromEnvironment env ps found

/-- Adds the defaults of parameters that nothing has given. -/
def withDefaults (ps : List Parameter) (found : Findings) : Findings :=
  ps.filterMap (fun p ↦
    if (found.get? p.name).isSome then none
    else p.default?.map fun v ↦ ⟨p.name, .default, v⟩) ++ found

/-- Completes a line with what the environment and the defaults give. -/
def complete (g : Grammar) (env : Environment) (s : LineState) : Except UsageError Findings :=
  s.settle.bind fun s ↦
    (fromEnvironment env g.parameters s.found).map (withDefaults g.parameters)

/-- Whether two parameters are given that exclude each other. -/
def hasConflict (g : Grammar) (found : Findings) : Bool :=
  g.parameters.any fun p ↦ found.isGiven p.name && p.conflicts.any found.isGiven

/-- Whether a required parameter is not given. -/
def lacksRequired (g : Grammar) (found : Findings) : Bool :=
  g.parameters.any fun p ↦ p.required && !found.isGiven p.name

/-- Reads the words of a command that leads on to no other one. -/
def readCommand (g : Grammar) (env : Environment) (ws : List String) :
    Except UsageError Findings := do
  let (s, _) ← LineState.words g { free := g.positionals } ws
  let found ← complete g env s
  if hasConflict g found then .error .argumentConflict
  else if lacksRequired g found then .error .missingRequiredArgument
  else .ok found

/-- Of the values found for a name before and after the word that leads on to a command, the one of
the better origin; the later one if both have the same. -/
def better? (outer inner : Option Found) : Option Found :=
  match outer, inner with
  | some o, some i =>
    match o.origin, i.origin with
    | .line, .line | .environment, .environment | .default, .default => some i
    | .line, _ => some o
    | .environment, .default => some o
    | _, _ => some i
  | some o, none => some o
  | none, i => i

end BuildFleet.CommandLine
