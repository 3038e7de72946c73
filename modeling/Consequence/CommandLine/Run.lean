import Consequence.CommandLine.Files
import Consequence.Libraries.Standard

/-!
# Runs of the program

A run reads the rules and the knowledge, which together are the base, then the statement, checks it
and writes the outcome. The first step that fails ends the run, before anything is written.
-/

set_option autoImplicit false

namespace Consequence

/-- Why a run fails. -/
inductive Problem where
  | unreadable (path : String) (problem : FileProblem)
  | unwritable (path : String) (problem : FileProblem)
  | rejected (error : Error)
  deriving DecidableEq, Repr

/-- What is written about a problem. -/
def Problem.report (libraries : Libraries) : Problem → String
  | unreadable path problem => s!"Error: Failed to read {path}: {problem.text}\n"
  | unwritable path problem => s!"Error: Failed to write verdict to {path}: {problem.text}\n"
  | rejected error => error.report libraries.report ++ "\n"

namespace Options

variable {m : Type → Type} [Monad m]

/-- The limits of a check. -/
def limits (options : Options) : Limits :=
  { freeSymbols := options.maxFreeSymbols }

/-- Reads a file. Its path is the id of the source. -/
def source (files : Files m) (path : String) : ExceptT Problem m Source := do
  match ← files.read path with
  | .ok text => return ⟨path, text⟩
  | .error problem => throw (.unreadable path problem)

/-- Goes on with a result, without its warnings. -/
def accept {α : Type} (x : Reporting α) : ExceptT Problem m α :=
  match x.outcome.1 with
  | .ok a => return a
  | .error e => throw (.rejected e)

/-- Reads a file and adds its clauses to a base. -/
def load (files : Files m) (kb : KnowledgeBase) (path : String) :
    ExceptT Problem m KnowledgeBase := do
  let read ← source files path
  return (← accept (kb.add read)).2

/-- Reads the three files and checks the statement. -/
def check (options : Options) (files : Files m) : ExceptT Problem m CheckedStatement := do
  let kb ← load files { limits := options.limits } options.rules
  let kb ← load files kb options.knowledge
  let base ← accept (Reporting.ofExcept kb.validate)
  let text ← source files options.statement
  let statement ← accept (Statement.ofSource text options.limits)
  let entailment ← accept (Reporting.ofExcept (base.judge statement))
  return { base, statement, entailment }

/-- The outcome as it is written. -/
def rendered (options : Options) (libraries : Libraries) (checked : CheckedStatement) : String :=
  checked.render libraries.document options.format options.verbose

/-- The clauses and counts that a run shows on request, in front of everything else. -/
def shown (options : Options) (libraries : Libraries) (checked : CheckedStatement) : String :=
  if options.verbose && options.format = .text then checked.details libraries.table else ""

/-- Runs a check and writes its outcome to the output file, or else to standard output. -/
def run (options : Options) (libraries : Libraries) (files : Files m) : m Exit := do
  match ← (options.check files).run with
  | .error problem => return { code := 1, stderr := problem.report libraries }
  | .ok checked =>
    let rendered := options.rendered libraries checked
    let shown := options.shown libraries checked
    match options.output with
    | none => return { code := 0, stdout := rendered, stderr := shown }
    | some path =>
      match ← files.write path rendered with
      | .ok () => return { code := 0, stderr := shown }
      | .error problem =>
        return { code := 1, stderr := shown ++ (Problem.unwritable path problem).report libraries }

end Options

/-- Runs the program with the given arguments. -/
def run {m : Type → Type} [Monad m] (files : Files m) (arguments : List String)
    (libraries : Libraries := .standard) : m Exit :=
  match libraries.options arguments with
  | .error exit => return exit
  | .ok options => options.run libraries files

end Consequence
