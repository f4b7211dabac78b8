import GrammarText.Dialect

/-!
# Options of the command line

The value of an option stands in the argument after it or in the same one. Every option is given at
most once, and so is the file. All arguments after `--` are files.
-/

namespace GrammarText.CommandLine

/-- What is written of a grammar. -/
inductive Format where
  | json
  | grammar
deriving DecidableEq, Repr

/-- The format of that name, in which case counts. -/
def Format.ofName? : String → Option Format
  | "json" => some json
  | "grammar" => some grammar
  | _ => none

/-- Why arguments cannot be understood. -/
inductive UsageError where
  | unknownOption (argument : String)
  | missingValue (option : String)
  /-- A value is none that the option has. -/
  | badValue (option value : String)
  | needlessValue (option : String)
  | repeated (option : String)
  | secondFile (argument : String)
  | emptyFile
deriving DecidableEq, Repr

/-- The text shown to a person. -/
def UsageError.message : UsageError → String
  | unknownOption argument => "unexpected argument '" ++ argument ++ "'"
  | missingValue option => "a value is required for '" ++ option ++ "'"
  | badValue option value => "invalid value '" ++ value ++ "' for '" ++ option ++ "'"
  | needlessValue option => "unexpected value for '" ++ option ++ "'"
  | repeated option => "'" ++ option ++ "' cannot be used multiple times"
  | secondFile argument => "unexpected argument '" ++ argument ++ "'"
  | emptyFile => "a value is required for the file"

/-- What the arguments say, as far as they have been read. -/
structure Arguments where
  dialect : Option Dialect := none
  /-- What is written. -/
  format : Option Format := none
  compact : Bool := false
  file : Option String := none
deriving DecidableEq, Repr

/-- An option that has a value. -/
inductive Valued where
  | dialect
  | format
deriving DecidableEq, Repr

/-- The long name of an option. -/
def Valued.name : Valued → String
  | dialect => "--dialect"
  | format => "--format"

namespace Arguments

/-- Gives an option its value. -/
def set (arguments : Arguments) (option : Valued) (value : String) : Except UsageError Arguments :=
  match option with
  | .dialect =>
    if arguments.dialect.isSome then .error (.repeated option.name)
    else
      match Dialect.ofName value with
      | .ok dialect => .ok { arguments with dialect := some dialect }
      | .error _ => .error (.badValue option.name value)
  | .format =>
    if arguments.format.isSome then .error (.repeated option.name)
    else
      match Format.ofName? value with
      | some format => .ok { arguments with format := some format }
      | none => .error (.badValue option.name value)

/-- Takes an argument as the file. -/
def setFile (arguments : Arguments) (argument : String) : Except UsageError Arguments :=
  if argument.isEmpty then .error .emptyFile
  else if arguments.file.isSome then .error (.secondFile argument)
  else .ok { arguments with file := some argument }

end Arguments

/-- What one argument is. -/
inductive Argument where
  /-- The mark after which all arguments are files. -/
  | endOfOptions
  | compact
  /-- An option together with its value. -/
  | withValue (option : Valued) (value : String)
  /-- An option whose value is the next argument. -/
  | beforeValue (option : Valued)
  | file (name : String)
  /-- Nothing that can be understood. -/
  | bad (error : UsageError)
deriving DecidableEq, Repr

/-- A value that is written in the same argument as a short option, perhaps after an equals sign. -/
def Argument.short (option : Valued) : List Char → Argument
  | [] => beforeValue option
  | '=' :: value => withValue option (String.ofList value)
  | value => withValue option (String.ofList value)

/-- A long option, from its name and what stands after an equals sign. -/
def Argument.long (argument name : String) (value : Option String) : Argument :=
  match name, value with
  | "dialect", none => beforeValue .dialect
  | "dialect", some value => withValue .dialect value
  | "format", none => beforeValue .format
  | "format", some value => withValue .format value
  | "compact", none => compact
  | "compact", some _ => bad (.needlessValue "--compact")
  | _, _ => bad (.unknownOption argument)

/-- Tells what an argument is. A single hyphen is a file. -/
def Argument.ofString (argument : String) : Argument :=
  match argument.toList with
  | ['-', '-'] => endOfOptions
  | '-' :: '-' :: option =>
    match splitAround? ['='] option with
    | some (name, value) => long argument (String.ofList name) (some (String.ofList value))
    | none => long argument (String.ofList option) none
  | '-' :: 'd' :: value => short .dialect value
  | '-' :: 'f' :: value => short .format value
  | '-' :: _ :: _ => bad (.unknownOption argument)
  | _ => file argument

/-- Reads arguments to the end. An argument that starts like an option is never the value of the one
before it. -/
def Arguments.read (arguments : Arguments) : List String → Except UsageError Arguments
  | [] => .ok arguments
  | first :: more =>
    match Argument.ofString first with
    | .endOfOptions => more.foldlM setFile arguments
    | .compact =>
      if arguments.compact then .error (.repeated "--compact")
      else Arguments.read { arguments with compact := true } more
    | .withValue option value => do (← arguments.set option value).read more
    | .beforeValue option =>
      match more with
      | value :: more =>
        match Argument.ofString value with
        | .file value => do (← arguments.set option value).read more
        | _ => .error (.missingValue option.name)
      | [] => .error (.missingValue option.name)
    | .file name => do (← arguments.setFile name).read more
    | .bad error => .error error

/-- Where the input comes from. -/
inductive Source where
  | standardInput
  | file (name : String)
deriving DecidableEq, Repr

/-- What the program is asked to do. -/
structure Options where
  dialect : Dialect
  /-- What is written. -/
  format : Format
  compact : Bool
  source : Source
deriving DecidableEq, Repr

/-- What the program is asked to do if nothing else is said: to read ISO grammars from standard
input, and to write JSON. A hyphen in place of a file is standard input too. -/
def Arguments.options (arguments : Arguments) : Options where
  dialect := arguments.dialect.getD .iso
  format := arguments.format.getD .json
  compact := arguments.compact
  source :=
    match arguments.file with
    | none => .standardInput
    | some "-" => .standardInput
    | some name => .file name

/-- Reads the arguments of the program. -/
def Options.ofArguments (arguments : List String) : Except UsageError Options :=
  (Arguments.read {} arguments).map Arguments.options

end GrammarText.CommandLine
