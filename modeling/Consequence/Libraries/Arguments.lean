import Consequence.CommandLine.Options

/-!
# Command-line arguments

    [OPTIONS] RULES KNOWLEDGE STATEMENT

    -o, --output FILE          -f, --format text|json
        --max-free-symbols N   -v, --verbose
    -V, --version

Arguments are read from left to right and the first one that is wrong, or that asks for the version,
decides. The value of an option may be attached (`--format=json`, `-fjson`, `-f=json`) or follow as
the next argument, where it may not look like an option. Short options may share a dash, the last of
them taking a value. Behind `--` all arguments are paths.
-/

set_option autoImplicit false

namespace Consequence

/-- What the arguments ask for. -/
inductive Request where
  | version
  | check (options : Options)
  deriving DecidableEq, Repr

namespace Arguments

/-- The options that take a value. -/
inductive Setting where
  | output
  | format
  | maxFreeSymbols
  deriving DecidableEq, Repr

/-- The setting with a long name. -/
def Setting.ofName? (name : String) : Option Setting :=
  if name = "output" then some .output
  else if name = "format" then some .format
  else if name = "max-free-symbols" then some .maxFreeSymbols
  else none

/-- The setting with a short name. -/
def Setting.ofLetter? (c : Char) : Option Setting :=
  if c = 'o' then some .output
  else if c = 'f' then some .format
  else none

/-- What was given so far. -/
structure Draft where
  paths : List String := []
  output : Option String := none
  format : Option Format := none
  maxFreeSymbols : Option Nat := none
  verbose : Bool := false
  deriving DecidableEq, Repr

/-- The numbers of options are below `2 ^ 64`. -/
def numberBound : Nat := 18446744073709551616

/-- A whole number below the bound, digits with an optional plus sign. -/
def number? (text : String) : Option Nat :=
  let digits := match text.toList with
    | '+' :: cs => cs
    | cs => cs
  if digits.isEmpty || !digits.all Char.isDigit then none
  else
    let n := digits.foldl (fun n c => 10 * n + (c.toNat - '0'.toNat)) 0
    if n < numberBound then some n else none

/-- The format with a name. -/
def format? (name : String) : Option Format :=
  if name = "text" then some .text
  else if name = "json" then some .json
  else none

namespace Draft

/-- Takes the value of a setting, which may be given once. -/
def set (draft : Draft) (setting : Setting) (value : String) : Option Draft :=
  match setting with
  | .output =>
    if draft.output.isSome || value.isEmpty then none
    else some { draft with output := some value }
  | .format =>
    if draft.format.isSome then none
    else (format? value).map fun f => { draft with format := some f }
  | .maxFreeSymbols =>
    if draft.maxFreeSymbols.isSome then none
    else (number? value).map fun n => { draft with maxFreeSymbols := some n }

/-- Takes a path. There are three of them and none is empty. -/
def addPath (draft : Draft) (path : String) : Option Draft :=
  if path.isEmpty || 3 ≤ draft.paths.length then none
  else some { draft with paths := draft.paths ++ [path] }

/-- What was asked for when all arguments were read. -/
def finish (draft : Draft) : Option Request :=
  match draft.paths with
  | [rules, knowledge, statement] => some (.check {
      rules, knowledge, statement
      output := draft.output
      format := draft.format.getD .text
      verbose := draft.verbose
      maxFreeSymbols := draft.maxFreeSymbols })
  | _ => none

end Draft

/-- How reading goes on behind an argument. -/
inductive Step where
  /-- With the next argument. -/
  | next (draft : Draft)
  /-- With the value of a setting. -/
  | await (setting : Setting) (draft : Draft)
  /-- The version was asked for. -/
  | version
  /-- The argument is wrong. -/
  | refuse

/-- Goes on if there is a draft. -/
def Step.ofDraft? : Option Draft → Step
  | some draft => .next draft
  | none => .refuse

/-- The options that share one dash. -/
def letters (draft : Draft) : List Char → Step
  | [] => .next draft
  | c :: cs =>
    if c = 'v' then letters { draft with verbose := true } cs
    else if c = 'V' then .version
    else
      match Setting.ofLetter? c, cs with
      | none, _ => .refuse
      | some setting, [] => .await setting draft
      | some setting, '=' :: value => .ofDraft? (draft.set setting (String.ofList value))
      | some setting, value => .ofDraft? (draft.set setting (String.ofList value))

/-- An option behind two dashes: its name, and perhaps a value behind an equals sign. -/
def long (draft : Draft) (text : List Char) : Step :=
  let name := String.ofList (text.takeWhile (· ≠ '='))
  match Setting.ofName? name, text.dropWhile (· ≠ '=') with
  | some setting, [] => .await setting draft
  | some setting, _ :: value => .ofDraft? (draft.set setting (String.ofList value))
  | none, [] =>
    if name = "verbose" then .next { draft with verbose := true }
    else if name = "version" then .version
    else .refuse
  | none, _ :: _ => .refuse

/-- Reads one argument. A single dash is a path. -/
def one (draft : Draft) (argument : String) : Step :=
  match argument.toList with
  | '-' :: '-' :: text => long draft text
  | '-' :: c :: cs => letters draft (c :: cs)
  | _ => .ofDraft? (draft.addPath argument)

/-- An argument that may be the value of an option. -/
def isValue (argument : String) : Bool :=
  match argument.toList with
  | '-' :: _ :: _ => false
  | _ => true

/-- Reads all arguments. There is no request if they are wrong. -/
def read (draft : Draft) : List String → Option Request
  | [] => draft.finish
  | "--" :: paths => (paths.foldlM Draft.addPath draft).bind Draft.finish
  | argument :: arguments =>
    match one draft argument with
    | .next draft => read draft arguments
    | .version => some .version
    | .refuse => none
    | .await setting draft =>
      match arguments with
      | [] => none
      | value :: arguments =>
        if isValue value then (draft.set setting value).bind (read · arguments) else none

end Arguments

/-- The options that the arguments of a command line give, or the exit where they give none: because they
are wrong, or because the version was asked for. -/
def Options.ofArguments (arguments : List String) : Except Exit Options :=
  match Arguments.read {} arguments with
  | some (.check options) => .ok options
  | some .version => .error { code := 0, stdout := "entail 0.3.0\n" }
  | none =>
    .error { code := 2, stderr := "Usage: entail [OPTIONS] <RULES> <KNOWLEDGE> <STATEMENT>\n" }

end Consequence
