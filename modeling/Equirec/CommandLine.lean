import Equirec.Source

/-!
# The command

The command checks the program in a file. `Request.ofArguments?` reads its arguments, and
`Request.answer` says what it prints and with which status it ends, given what reading the file came
to. Nothing here touches a real file.
-/
namespace Equirec

/-- One argument of the command, by its form. -/
inductive Argument where
  /-- The end of the options. -/
  | separator
  /-- The option for the language, together with its name. -/
  | variantName (name : String)
  /-- The option for the language, whose name is the next argument. -/
  | variantNext
  /-- The option that turns the check of conditions off. -/
  | uncheckedConditions
  /-- The option that turns the copies of environments off. -/
  | leakyEnvironments
  /-- An option that the command does not have. -/
  | unknownOption
  /-- Anything that is not an option. -/
  | plain (text : String)
  deriving DecidableEq

namespace Argument

/-- A long option by its name, and by its value when one follows after an equals sign. -/
def ofLongOption (name : String) (value? : Option String) : Argument :=
  match name, value? with
  | "variant", some value => variantName value
  | "variant", none => variantNext
  | "unchecked-conditions", none => uncheckedConditions
  | "leaky-environments", none => leakyEnvironments
  | _, _ => unknownOption

/-- The form of an argument. A short option may be followed by its value at once, with or without
an equals sign; a single dash is not an option. -/
def ofText (text : String) : Argument :=
  match text.toList with
  | ['-', '-'] => separator
  | '-' :: '-' :: rest =>
    let name := String.ofList (rest.takeWhile (· != '='))
    match rest.dropWhile (· != '=') with
    | _ :: value => ofLongOption name (some (String.ofList value))
    | [] => ofLongOption name none
  | ['-', 'v'] => variantNext
  | '-' :: 'v' :: '=' :: value => variantName (String.ofList value)
  | '-' :: 'v' :: value => variantName (String.ofList value)
  | '-' :: _ :: _ => unknownOption
  | _ => plain text

end Argument

/-- What the command is asked to do. -/
structure Request where
  /-- The path of the file. -/
  file : String
  /-- The language to check it in. -/
  variant : Variant := .subtyping
  /-- The switches of the checker. -/
  options : Options := {}
  deriving DecidableEq

/-- What is known of a request while its arguments are read. -/
structure Draft where
  /-- The file, once it is given. -/
  file? : Option String := none
  /-- The language, once it is given. -/
  variant? : Option Variant := none
  /-- Whether conditions go unchecked. -/
  uncheckedConditions : Bool := false
  /-- Whether environments go uncopied. -/
  leakyEnvironments : Bool := false
  /-- Whether the next argument has to name the language. -/
  awaitsVariant : Bool := false
  /-- Whether no more options follow. -/
  optionsEnded : Bool := false
  deriving DecidableEq

namespace Draft

/-- The draft with its file, which may be given once and not as an empty path. -/
def giveFile (draft : Draft) (path : String) : Option Draft :=
  if draft.file?.isSome || path.isEmpty then none else some { draft with file? := some path }

/-- The draft with its language, which may be given once. -/
def giveVariant (draft : Draft) (name : String) : Option Draft := do
  let variant ← Variant.ofName? name
  if draft.variant?.isSome then none
  else some { draft with variant? := some variant, awaitsVariant := false }

/-- The draft with one more argument before the end of the options. -/
def giveArgument (draft : Draft) : Argument → Option Draft
  | .separator => some { draft with optionsEnded := true }
  | .variantName name => draft.giveVariant name
  | .variantNext => some { draft with awaitsVariant := true }
  | .uncheckedConditions =>
    if draft.uncheckedConditions then none else some { draft with uncheckedConditions := true }
  | .leakyEnvironments =>
    if draft.leakyEnvironments then none else some { draft with leakyEnvironments := true }
  | .unknownOption => none
  | .plain path => draft.giveFile path

/-- The draft with the text of one more argument. -/
def give (draft : Draft) (text : String) : Option Draft :=
  if draft.optionsEnded then draft.giveFile text
  else
    match draft.awaitsVariant, Argument.ofText text with
    | true, .plain name => draft.giveVariant name
    | true, _ => none
    | false, argument => draft.giveArgument argument

/-- The finished request. -/
def request? (draft : Draft) : Option Request := do
  let file ← draft.file?
  if draft.awaitsVariant then none
  else
    some
      { file
        variant := draft.variant?.getD .subtyping
        options :=
          { checkConditions := !draft.uncheckedConditions
            copyEnvironments := !draft.leakyEnvironments } }

end Draft

/-- The request that the arguments make, unless they are not what the command can take. -/
def Request.ofArguments? (arguments : List String) : Option Request := do
  let draft ← arguments.foldlM Draft.give {}
  draft.request?

/-- Why a file cannot be read as a program. -/
inductive ReadFailure where
  /-- There is no such file. -/
  | missing
  /-- The path is that of a directory. -/
  | directory
  /-- The path leads through a file. -/
  | notDirectory
  /-- The bytes of the file are not UTF-8. -/
  | notText
  deriving DecidableEq

/-- The reason that is given for a file that cannot be read. -/
def ReadFailure.message : ReadFailure → String
  | missing => "No such file or directory (os error 2)"
  | directory => "Is a directory (os error 21)"
  | notDirectory => "Not a directory (os error 20)"
  | notText => "stream did not contain valid UTF-8"

/-- The text of a file from its bytes. -/
def decodeFile (bytes : ByteArray) : Except ReadFailure String :=
  match String.fromUTF8? bytes with
  | some text => .ok text
  | none => .error .notText

/-- How the command ends. -/
structure Exit where
  /-- The exit status. -/
  status : UInt32
  /-- What goes to standard output. -/
  output : String := ""
  /-- What goes to standard error. -/
  errors : String := ""
  deriving DecidableEq

namespace Request

/-- What is said of the outcome of a check: the type of the program, or the fault with its source.
A check that uses up its allowance has nothing to say. -/
def verdict (request : Request) (text : String) : Except (Stop Fault) Ty → Exit
  | .ok type => { status := 0, output := type.render ++ "\n" }
  | .error (.fault fault) => { status := 1, errors := fault.render text request.file ++ "\n" }
  | .error .exhausted => { status := 1 }

/-- The outcome of checking a program as the request asks. -/
def check (request : Request) (text : String) : Except (Stop Fault) Ty := do
  let tokens ← (Token.scan text).mapError Stop.fault
  let term ← Term.ofTokens tokens
  (Checker.check { variant := request.variant, options := request.options } term {}).result

/-- How the command ends, given what reading the file came to. -/
def answer (request : Request) (content : Except ReadFailure ByteArray) : Exit :=
  match content.bind decodeFile with
  | .error failure =>
    { status := 1
      errors := "Failed to read " ++ request.file ++ ": " ++ failure.message ++ "\n" }
  | .ok text => request.verdict text (request.check text)

end Request

end Equirec
