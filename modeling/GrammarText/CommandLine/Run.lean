import GrammarText.CommandLine.Options

/-!
# One run of the program

From the options and the input to the exit code and the output. Reading the input and writing the
output is left to whoever calls.
-/

namespace GrammarText.CommandLine

/-- Why there is no input. -/
inductive ReadFault where
  | missing
  | directory
  /-- A part of the path is a file and not a directory. -/
  | notDirectory
  /-- The input is not UTF-8. -/
  | notUnicode
  /-- Another cause, in the words of the system. -/
  | other (cause : String)
deriving DecidableEq, Repr

/-- The wording of a cause. -/
def ReadFault.message : ReadFault → String
  | missing => "No such file or directory (os error 2)"
  | directory => "Is a directory (os error 21)"
  | notDirectory => "Not a directory (os error 20)"
  | notUnicode => "stream did not contain valid UTF-8"
  | other cause => cause

/-- What was to be done, when reading fails. -/
def Source.purpose : Source → String
  | standardInput => "read grammar from stdin"
  | file name => "read grammar file: " ++ name

/-- What a run comes to. -/
structure Outcome where
  code : Nat
  /-- The text for standard output. -/
  output : String
  /-- The text for standard error. -/
  complaint : String
deriving DecidableEq, Repr

namespace Outcome

/-- The program has done what it was asked. -/
def success (output : String) : Outcome := ⟨0, output ++ "\n", ""⟩

/-- The program could not do what it was asked; `purpose` is what it was about. -/
def failure (purpose cause : String) : Outcome :=
  ⟨1, "", "Error: " ++ purpose ++ "\n\nCaused by:\n    " ++ cause ++ "\n"⟩

/-- The program was not asked properly. -/
def misuse (error : UsageError) : Outcome := ⟨2, "", "error: " ++ error.message ++ "\n"⟩

end Outcome

/-- What is written of a grammar. -/
def Options.render (options : Options) (grammar : Grammar) : String :=
  match options.format with
  | .grammar => grammar.print
  | .json => if options.compact then grammar.toJson.compact else grammar.toJson.pretty

/-- Does what is asked with an input that has been read. -/
def Options.runOn (options : Options) (text : String) : Outcome :=
  match Grammar.parse options.dialect text with
  | .ok grammar => .success (options.render grammar)
  | .error d => .failure ("parse " ++ options.dialect.name ++ " grammar") d.message

/-- Does what is asked. `input` is what came of reading the source. -/
def Options.run (options : Options) (input : Except ReadFault ByteArray) : Outcome :=
  match input with
  | .error fault => .failure options.source.purpose fault.message
  | .ok bytes =>
    match String.fromUTF8? bytes with
    | some text => options.runOn text
    | none => .failure options.source.purpose ReadFault.notUnicode.message

end GrammarText.CommandLine
