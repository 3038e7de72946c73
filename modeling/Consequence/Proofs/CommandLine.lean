import Consequence.CommandLine.Run
import Consequence.Proofs.Directory
import Consequence.Proofs.Sharpening

/-!
# The command line and the library

A run of the program on files in memory, beside what the library answers for the texts of the files. The
program does not ask the library for the whole check: it loads and validates the base before it reads the
statement, so the order of the steps decides which problem is reported.

* `Options.Answered`: the library, asked about the texts of the three files, gives this entailment.
* `Options.Checks`, `Options.FailsWith`: all steps succeed, or one is the first that fails.
* `Options.checks_or_failsWith`, `Options.answered_iff`: there is no third way, and the first is that of
  the library.
* `Options.run_agrees`: exit code, outputs and files of any run.
-/

set_option autoImplicit false

namespace Consequence

/-! ## What the library answers -/

namespace KnowledgeBase

variable {kb larger : KnowledgeBase} {source : Source} {count : Nat}

/-- A new base under the limits takes in two sources, then a statement is checked against it. -/
def consult (limits : Limits) (rules knowledge statement : Source) : Reporting Entailment := do
  let (_, kb) ← ({ limits } : KnowledgeBase).add rules
  let (_, kb) ← kb.add knowledge
  kb.check statement

theorem appends_check : (kb.check source).Appends :=
  (Reporting.appends_ofExcept _).bind fun _ =>
    (Statement.appends_ofSource _ _).bind fun _ => Reporting.appends_ofExcept _

theorem appends_add : (kb.add source).Appends := fun before => by
  have hread : source.clauses kb.limits before = _ := Source.appends_clauses before
  rw [outcome_add, add]
  rcases hresult : (source.clauses kb.limits).outcome with ⟨e | read, given⟩
  · rw [hresult] at hread
    rw [addSource_of_error hread]
    rfl
  · rw [hresult] at hread
    rw [addSource_of_ok hread]
    rfl

theorem limits_of_add (h : (kb.add source).outcome.1 = .ok (count, larger)) :
    larger.limits = kb.limits := by
  obtain ⟨read, -, -, rfl⟩ := add_eq_ok_iff.1 h
  rfl

theorem consult_eq_ok_iff {limits : Limits} {rules knowledge statement : Source} {e : Entailment} :
    (consult limits rules knowledge statement).outcome.1 = .ok e ↔
      ∃ first second, (({ limits } : KnowledgeBase).add rules).outcome.1 = .ok first ∧
        (first.2.add knowledge).outcome.1 = .ok second ∧
        (second.2.check statement).outcome.1 = .ok e := by
  unfold consult
  rw [Reporting.bind_eq_ok_iff fun first => appends_add.bind fun second => appends_check]
  simp only [Reporting.bind_eq_ok_iff fun second => appends_check, exists_and_left]

end KnowledgeBase

/-! ## What the program does on files in memory -/

/-- A computation gives the result and leaves the files as they are. -/
def Gives {α : Type} (x : ExceptT Problem (StateM Directory) α) (directory : Directory)
    (result : Except Problem α) : Prop :=
  x.run.run directory = (result, directory)

namespace Gives

variable {α β : Type} {x : ExceptT Problem (StateM Directory) α}
  {f : α → ExceptT Problem (StateM Directory) β} {directory : Directory} {a : α}
  {result : Except Problem β} {problem : Problem}

/-- Behind a step that succeeds the next one goes on from the same files. -/
theorem bind (hx : Gives x directory (.ok a)) (hf : Gives (f a) directory result) :
    Gives (x >>= f) directory result := by
  unfold Gives at hx hf ⊢
  rw [ExceptT.run_bind, run_bind hx]
  exact hf

/-- A step that fails is the last one. -/
theorem bind_error (hx : Gives x directory (.error problem)) :
    Gives (x >>= f) directory (.error problem) := by
  unfold Gives at hx ⊢
  rw [ExceptT.run_bind, run_bind hx]
  rfl

end Gives

namespace Options

variable {options : Options} {libraries : Libraries} {directory : Directory} {kb larger : KnowledgeBase}
  {path text : String} {base : ValidBase} {statement : Statement} {checked : CheckedStatement}
  {problem : Problem} {reason : FileProblem} {e : Error}

theorem gives_read (directory : Directory) (path : String) :
    Gives (liftM (Directory.access.read path)) directory (.ok (directory.read path)) := rfl

theorem gives_source (h : directory.read path = .ok text) :
    Gives (source Directory.access path) directory (.ok ⟨path, text⟩) := by
  refine (gives_read directory path).bind ?_
  rw [h]
  rfl

theorem gives_source_error (h : directory.read path = .error reason) :
    Gives (source Directory.access path) directory (.error (.unreadable path reason)) := by
  refine (gives_read directory path).bind ?_
  rw [h]
  rfl

theorem gives_accept {α : Type} {x : Reporting α} {a : α} (h : x.outcome.1 = .ok a) :
    Gives (accept x) directory (.ok a) := by
  unfold accept
  rw [h]
  rfl

theorem gives_accept_error {α : Type} {x : Reporting α} (h : x.outcome.1 = .error e) :
    Gives (accept x) directory (.error (.rejected e)) := by
  unfold accept
  rw [h]
  rfl

theorem gives_ofExcept {α : Type} {r : Except Error α} {a : α} (h : r = .ok a) :
    Gives (accept (Reporting.ofExcept r)) directory (.ok a) :=
  gives_accept (by rw [Reporting.outcome_ofExcept, h])

theorem gives_ofExcept_error {α : Type} {r : Except Error α} (h : r = .error e) :
    Gives (accept (Reporting.ofExcept r)) directory (.error (.rejected e)) :=
  gives_accept_error (by rw [Reporting.outcome_ofExcept, h])

/-! ## The steps of a check -/

/-- The base takes in the file under the path. -/
def Loads (directory : Directory) (kb : KnowledgeBase) (path : String) (larger : KnowledgeBase) :
    Prop :=
  ∃ text count, directory.read path = .ok text ∧ (kb.add ⟨path, text⟩).outcome.1 = .ok (count, larger)

/-- The base does not take in the file under the path, since it cannot be read or its clauses
cannot. -/
inductive LoadFails (directory : Directory) (kb : KnowledgeBase) (path : String) : Problem → Prop
  | unreadable {reason : FileProblem} (h : directory.read path = .error reason) :
    LoadFails directory kb path (.unreadable path reason)
  | rejected {text : String} {e : Error} (hread : directory.read path = .ok text)
    (h : (kb.add ⟨path, text⟩).outcome.1 = .error e) : LoadFails directory kb path (.rejected e)

/-- The two files of the base are loaded into it and it is valid. -/
def HasBase (options : Options) (directory : Directory) (base : ValidBase) : Prop :=
  ∃ first second, Loads directory { limits := options.limits } options.rules first ∧
    Loads directory first options.knowledge second ∧ second.validate = .ok base

/-- The statement file holds the statement. -/
def Asks (options : Options) (directory : Directory) (statement : Statement) : Prop :=
  ∃ text, directory.read options.statement = .ok text ∧
    (Statement.ofSource ⟨options.statement, text⟩ options.limits).outcome.1 = .ok statement

/-- All steps of a check succeed. -/
structure Checks (options : Options) (directory : Directory) (checked : CheckedStatement) : Prop where
  base : options.HasBase directory checked.base
  statement : options.Asks directory checked.statement
  entailment : checked.base.judge checked.statement = .ok checked.entailment

/-- The problem of the first step of a check that fails. Each step comes with the success of those in
front of it. -/
inductive FailsWith (options : Options) (directory : Directory) : Problem → Prop
  | rules {problem : Problem}
    (h : LoadFails directory { limits := options.limits } options.rules problem) :
    FailsWith options directory problem
  | knowledge {first : KnowledgeBase} {problem : Problem}
    (hfirst : Loads directory { limits := options.limits } options.rules first)
    (h : LoadFails directory first options.knowledge problem) : FailsWith options directory problem
  | base {first second : KnowledgeBase} {e : Error}
    (hfirst : Loads directory { limits := options.limits } options.rules first)
    (hsecond : Loads directory first options.knowledge second) (h : second.validate = .error e) :
    FailsWith options directory (.rejected e)
  | unreadable {base : ValidBase} {reason : FileProblem} (hbase : options.HasBase directory base)
    (h : directory.read options.statement = .error reason) :
    FailsWith options directory (.unreadable options.statement reason)
  | statement {base : ValidBase} {text : String} {e : Error} (hbase : options.HasBase directory base)
    (hread : directory.read options.statement = .ok text)
    (h : (Statement.ofSource ⟨options.statement, text⟩ options.limits).outcome.1 = .error e) :
    FailsWith options directory (.rejected e)
  | freeSymbols {base : ValidBase} {statement : Statement} {e : Error}
    (hbase : options.HasBase directory base) (hstatement : options.Asks directory statement)
    (h : base.judge statement = .error e) : FailsWith options directory (.rejected e)

theorem loads_or_loadFails (directory : Directory) (kb : KnowledgeBase) (path : String) :
    (∃ larger, Loads directory kb path larger) ∨ ∃ problem, LoadFails directory kb path problem := by
  cases hread : directory.read path with
  | error reason => exact .inr ⟨_, .unreadable hread⟩
  | ok text =>
    cases hadd : (kb.add ⟨path, text⟩).outcome.1 with
    | error e => exact .inr ⟨_, .rejected hread hadd⟩
    | ok added => exact .inl ⟨added.2, text, added.1, hread, hadd⟩

/-- All steps succeed, or one is the first that fails. -/
theorem checks_or_failsWith (options : Options) (directory : Directory) :
    (∃ checked, options.Checks directory checked) ∨
      ∃ problem, options.FailsWith directory problem := by
  obtain ⟨first, hfirst⟩ | ⟨problem, h⟩ :=
    loads_or_loadFails directory { limits := options.limits } options.rules
  case inr => exact .inr ⟨problem, .rules h⟩
  obtain ⟨second, hsecond⟩ | ⟨problem, h⟩ := loads_or_loadFails directory first options.knowledge
  case inr => exact .inr ⟨problem, .knowledge hfirst h⟩
  cases hvalid : second.validate with
  | error e => exact .inr ⟨_, .base hfirst hsecond hvalid⟩
  | ok base =>
    have hbase : options.HasBase directory base := ⟨first, second, hfirst, hsecond, hvalid⟩
    cases hread : directory.read options.statement with
    | error reason => exact .inr ⟨_, .unreadable hbase hread⟩
    | ok text =>
      cases hstatement :
          (Statement.ofSource ⟨options.statement, text⟩ options.limits).outcome.1 with
      | error e => exact .inr ⟨_, .statement hbase hread hstatement⟩
      | ok statement =>
        have hasks : options.Asks directory statement := ⟨text, hread, hstatement⟩
        cases hjudge : base.judge statement with
        | error e => exact .inr ⟨_, .freeSymbols hbase hasks hjudge⟩
        | ok entailment => exact .inl ⟨⟨base, statement, entailment⟩, hbase, hasks, hjudge⟩

/-! ## The program takes these steps -/

theorem gives_load (h : Loads directory kb path larger) :
    Gives (load Directory.access kb path) directory (.ok larger) := by
  obtain ⟨text, count, hread, hadd⟩ := h
  exact (gives_source hread).bind ((gives_accept hadd).bind rfl)

theorem gives_load_error (h : LoadFails directory kb path problem) :
    Gives (load Directory.access kb path) directory (.error problem) := by
  cases h with
  | unreadable h => exact (gives_source_error h).bind_error
  | rejected hread h => exact (gives_source hread).bind (gives_accept_error h).bind_error

/-- With a base a check goes on as it does behind the base. -/
theorem HasBase.gives_check {result : Except Problem CheckedStatement}
    (h : options.HasBase directory base)
    (hrest : Gives (do
      let text ← source Directory.access options.statement
      let statement ← accept (Statement.ofSource text options.limits)
      let entailment ← accept (Reporting.ofExcept (base.judge statement))
      return { base, statement, entailment }) directory result) :
    Gives (options.check Directory.access) directory result := by
  obtain ⟨first, second, hfirst, hsecond, hvalid⟩ := h
  exact (gives_load hfirst).bind <| (gives_load hsecond).bind <| (gives_ofExcept hvalid).bind hrest

theorem gives_check (h : options.Checks directory checked) :
    Gives (options.check Directory.access) directory (.ok checked) := by
  obtain ⟨text, hread, hstatement⟩ := h.statement
  refine h.base.gives_check ?_
  exact (gives_source hread).bind <| (gives_accept hstatement).bind <|
    (gives_ofExcept h.entailment).bind rfl

theorem gives_check_error (h : options.FailsWith directory problem) :
    Gives (options.check Directory.access) directory (.error problem) := by
  cases h with
  | rules h => exact (gives_load_error h).bind_error
  | knowledge hfirst h => exact (gives_load hfirst).bind (gives_load_error h).bind_error
  | base hfirst hsecond h =>
    exact (gives_load hfirst).bind <| (gives_load hsecond).bind (gives_ofExcept_error h).bind_error
  | unreadable hbase h => exact hbase.gives_check (gives_source_error h).bind_error
  | statement hbase hread h =>
    exact hbase.gives_check ((gives_source hread).bind (gives_accept_error h).bind_error)
  | freeSymbols hbase hasks h =>
    obtain ⟨text, hread, hstatement⟩ := hasks
    exact hbase.gives_check <| (gives_source hread).bind <| (gives_accept hstatement).bind
      (gives_ofExcept_error h).bind_error

/-- A check gives a problem just if it is that of the first step that fails. -/
theorem gives_check_error_iff :
    Gives (options.check Directory.access) directory (.error problem) ↔
      options.FailsWith directory problem := by
  refine ⟨fun h => ?_, gives_check_error⟩
  obtain ⟨checked, hchecked⟩ | ⟨found, hfails⟩ := options.checks_or_failsWith directory
  · rw [Gives, gives_check hchecked] at h
    cases h
  · rw [Gives, gives_check_error hfails] at h
    cases h
    exact hfails

/-- A check succeeds in one way. -/
theorem Checks.unique {again : CheckedStatement} (h : options.Checks directory checked)
    (hagain : options.Checks directory again) : again = checked := by
  have hcheck := gives_check h
  rw [Gives, gives_check hagain] at hcheck
  cases hcheck
  rfl

/-- A check does not succeed where one of its steps fails. -/
theorem Checks.not_failsWith (h : options.Checks directory checked) :
    ¬options.FailsWith directory problem := fun hfails => by
  have hcheck := gives_check h
  rw [Gives, gives_check_error hfails] at hcheck
  cases hcheck

/-! ## The library answers alike -/

/-- The library, asked about the texts of the three files, gives the entailment. -/
def Answered (options : Options) (directory : Directory) (e : Entailment) : Prop :=
  ∃ rules knowledge statement, directory.read options.rules = .ok rules ∧
    directory.read options.knowledge = .ok knowledge ∧
    directory.read options.statement = .ok statement ∧
    (KnowledgeBase.consult options.limits ⟨options.rules, rules⟩ ⟨options.knowledge, knowledge⟩
      ⟨options.statement, statement⟩).outcome.1 = .ok e

/-- The library answers just if all steps of the program succeed, and then alike. -/
theorem answered_iff {entailment : Entailment} :
    options.Answered directory entailment ↔
      ∃ checked, options.Checks directory checked ∧ checked.entailment = entailment := by
  constructor
  · rintro ⟨rules, knowledge, text, hrules, hknowledge, hread, hconsult⟩
    obtain ⟨first, second, hfirst, hsecond, hcheck⟩ := KnowledgeBase.consult_eq_ok_iff.1 hconsult
    obtain ⟨base, statement, hvalid, hstatement, hjudge⟩ := KnowledgeBase.check_eq_ok_iff.1 hcheck
    rw [KnowledgeBase.limits_of_add hsecond, KnowledgeBase.limits_of_add hfirst] at hstatement
    refine ⟨⟨base, statement, entailment⟩, ⟨?base, ⟨text, hread, hstatement⟩, hjudge⟩, rfl⟩
    case base =>
      exact ⟨first.2, second.2, ⟨rules, first.1, hrules, hfirst⟩,
        ⟨knowledge, second.1, hknowledge, hsecond⟩, hvalid⟩
  · rintro ⟨checked, ⟨hbase, ⟨text, hread, hstatement⟩, hjudge⟩, rfl⟩
    obtain ⟨first, second, ⟨rules, n, hrules, hfirst⟩, ⟨knowledge, k, hknowledge, hsecond⟩, hvalid⟩ :=
      hbase
    have hlimits : second.limits = options.limits :=
      (KnowledgeBase.limits_of_add hsecond).trans (KnowledgeBase.limits_of_add hfirst)
    rw [← hlimits] at hstatement
    refine ⟨rules, knowledge, text, hrules, hknowledge, hread, ?_⟩
    exact KnowledgeBase.consult_eq_ok_iff.2 ⟨_, _, hfirst, hsecond,
      KnowledgeBase.check_eq_ok_iff.2 ⟨_, _, hvalid, hstatement, hjudge⟩⟩

/-! ## Exits -/

/-- What a run on files in memory leaves behind. -/
def exit (options : Options) (libraries : Libraries) (directory : Directory) : Exit :=
  ((options.run libraries Directory.access).run directory).1

/-- The files after a run. -/
def filesAfter (options : Options) (libraries : Libraries) (directory : Directory) : Directory :=
  ((options.run libraries Directory.access).run directory).2

/-- The run wrote the text and nothing else: into the output file or, without one, to standard output. -/
def Delivers (options : Options) (libraries : Libraries) (directory : Directory) (text : String) : Prop :=
  match options.output with
  | none =>
    (options.exit libraries directory).stdout = text ∧
      options.filesAfter libraries directory = directory
  | some path =>
    (options.exit libraries directory).stdout = "" ∧
      directory.write path text = .ok (options.filesAfter libraries directory) ∧
      (options.filesAfter libraries directory).read path = .ok text

/-- All steps of the check succeed and the output file cannot be written, which the run reports. -/
def OutputFails (options : Options) (libraries : Libraries) (directory : Directory) : Prop :=
  ∃ checked path reason, options.Checks directory checked ∧ options.output = some path ∧
    directory.write path (options.rendered libraries checked) = .error reason ∧
    (options.exit libraries directory).stderr =
      options.shown libraries checked ++ (Problem.unwritable path reason).report libraries

/-- The ways in which a run may end: with the problem of its check, with the outcome on standard output or
in a file, or with the problem of that file. -/
inductive Ends (options : Options) (libraries : Libraries) (directory : Directory) :
    Exit × Directory → Prop
  | failed {problem : Problem} (h : options.FailsWith directory problem) :
    Ends options libraries directory ({ code := 1, stderr := problem.report libraries }, directory)
  | printed {checked : CheckedStatement} (h : options.Checks directory checked)
    (houtput : options.output = none) :
    Ends options libraries directory ({
      code := 0
      stdout := options.rendered libraries checked
      stderr := options.shown libraries checked }, directory)
  | written {checked : CheckedStatement} {path : String} {after : Directory}
    (h : options.Checks directory checked) (houtput : options.output = some path)
    (hwrite : directory.write path (options.rendered libraries checked) = .ok after) :
    Ends options libraries directory ({ code := 0, stderr := options.shown libraries checked }, after)
  | unwritable {checked : CheckedStatement} {path : String} {reason : FileProblem}
    (h : options.Checks directory checked) (houtput : options.output = some path)
    (hwrite : directory.write path (options.rendered libraries checked) = .error reason) :
    Ends options libraries directory ({
      code := 1
      stderr := options.shown libraries checked ++
        (Problem.unwritable path reason).report libraries }, directory)

/-- A run whose check fails reports the problem and leaves the files as they are. -/
theorem run_of_failsWith (h : options.FailsWith directory problem) :
    (options.run libraries Directory.access).run directory =
      ({ code := 1, stderr := problem.report libraries }, directory) := by
  have hcheck : (options.check Directory.access).run.run directory = (.error problem, directory) :=
    gives_check_error h
  unfold Options.run
  rw [run_bind hcheck]
  rfl

/-- A run whose check succeeds writes the outcome. -/
theorem run_of_checks (h : options.Checks directory checked) :
    (options.run libraries Directory.access).run directory =
      match options.output with
      | none => ({
          code := 0
          stdout := options.rendered libraries checked
          stderr := options.shown libraries checked }, directory)
      | some path =>
        match directory.write path (options.rendered libraries checked) with
        | .ok after => ({ code := 0, stderr := options.shown libraries checked }, after)
        | .error reason => ({
            code := 1
            stderr := options.shown libraries checked ++
              (Problem.unwritable path reason).report libraries }, directory) := by
  have hcheck : (options.check Directory.access).run.run directory = (.ok checked, directory) :=
    gives_check h
  unfold Options.run
  rw [run_bind hcheck]
  dsimp only
  cases options.output with
  | none => rfl
  | some path =>
    dsimp only
    rw [run_bind (directory.run_write path (options.rendered libraries checked))]
    cases directory.write path (options.rendered libraries checked) with
    | ok after => rfl
    | error reason => rfl

theorem ends_of_checks (h : options.Checks directory checked) :
    options.Ends libraries directory ((options.run libraries Directory.access).run directory) := by
  rw [run_of_checks h]
  cases houtput : options.output with
  | none => exact .printed h houtput
  | some path =>
    dsimp only
    cases hwrite : directory.write path (options.rendered libraries checked) with
    | ok after => exact .written h houtput hwrite
    | error reason => exact .unwritable h houtput hwrite

/-- A run ends in one of these ways. -/
theorem ends_run (options : Options) (libraries : Libraries) (directory : Directory) :
    options.Ends libraries directory
      (options.exit libraries directory, options.filesAfter libraries directory) := by
  obtain ⟨checked, h⟩ | ⟨problem, h⟩ := options.checks_or_failsWith directory
  · exact ends_of_checks h
  · have hrun : options.Ends libraries directory _ := Ends.failed h
    rwa [← run_of_failsWith h] at hrun

/-- A run exits with 0 just if the library answers and the output file can be written. -/
theorem code_eq_zero_iff :
    (options.exit libraries directory).code = 0 ↔
      (∃ e, options.Answered directory e) ∧ ∀ path ∈ options.output, directory.Writable path := by
  have hends := options.ends_run libraries directory
  generalize options.exit libraries directory = exit,
    options.filesAfter libraries directory = after at hends ⊢
  cases hends with
  | failed h =>
    refine iff_of_false (show (1 : UInt8) ≠ 0 by decide) ?_
    rintro ⟨⟨e, hanswered⟩, -⟩
    obtain ⟨checked, hchecked, -⟩ := answered_iff.1 hanswered
    exact hchecked.not_failsWith h
  | @printed checked h houtput =>
    refine iff_of_true rfl ⟨⟨_, answered_iff.2 ⟨checked, h, rfl⟩⟩, ?_⟩
    rw [houtput]
    rintro path ⟨⟩
  | @written checked path _ h houtput hwrite =>
    refine iff_of_true rfl ⟨⟨_, answered_iff.2 ⟨checked, h, rfl⟩⟩, ?_⟩
    rw [houtput]
    rintro path ⟨⟩
    exact (Directory.writable_iff _).2 ⟨_, hwrite⟩
  | @unwritable checked path reason h houtput hwrite =>
    refine iff_of_false (show (1 : UInt8) ≠ 0 by decide) ?_
    rintro ⟨-, hwritable⟩
    obtain ⟨after, hafter⟩ := (Directory.writable_iff _).1 (hwritable path houtput)
    rw [hwrite] at hafter
    cases hafter

/-- A run that exits with 0 delivers the outcome of its check. -/
theorem delivers_of_checks (hchecked : options.Checks directory checked)
    (hcode : (options.exit libraries directory).code = 0) :
    options.Delivers libraries directory (options.rendered libraries checked) := by
  have hends := options.ends_run libraries directory
  unfold Delivers
  generalize options.exit libraries directory = exit,
    options.filesAfter libraries directory = after at hcode hends ⊢
  cases hends with
  | failed h => exact absurd hcode (show (1 : UInt8) ≠ 0 by decide)
  | printed h houtput =>
    obtain rfl := hchecked.unique h
    rw [houtput]
    exact ⟨rfl, rfl⟩
  | written h houtput hwrite =>
    obtain rfl := hchecked.unique h
    rw [houtput]
    exact ⟨rfl, hwrite, Directory.read_of_write hwrite⟩
  | unwritable h => exact absurd hcode (show (1 : UInt8) ≠ 0 by decide)

/-- A run that does not exit with 0 exits with 1, writes nothing but a problem and leaves the files as
they are. -/
theorem failure_of_code_ne_zero (hcode : (options.exit libraries directory).code ≠ 0) :
    (options.exit libraries directory).code = 1 ∧ (options.exit libraries directory).stdout = "" ∧
      options.filesAfter libraries directory = directory ∧
      ((∃ problem, options.FailsWith directory problem) ∨ options.OutputFails libraries directory) := by
  have hends := options.ends_run libraries directory
  unfold OutputFails
  generalize options.exit libraries directory = exit,
    options.filesAfter libraries directory = after at hcode hends ⊢
  cases hends with
  | failed h => exact ⟨rfl, rfl, rfl, .inl ⟨_, h⟩⟩
  | printed => exact absurd rfl hcode
  | written => exact absurd rfl hcode
  | unwritable h houtput hwrite =>
    exact ⟨rfl, rfl, rfl, .inr ⟨_, _, _, h, houtput, hwrite, rfl⟩⟩

/-- Rules that say `(or p q)` and `(not p)`, no further knowledge, and a file that asks for `q`. -/
def asking : Directory :=
  .ofList [("r", "(or p q)\n(not p)".toUTF8), ("k", "".toUTF8), ("s", "q".toUTF8)]

/-- The clauses of the rules. -/
def askingRules : List Clause :=
  [⟨.node .or [.atom "p", .atom "q"], "r", ⟨0, 8, 1, 1⟩⟩,
    ⟨.node .not [.atom "p"], "r", ⟨9, 16, 2, 1⟩⟩]

/-- The base that the files make. -/
def askingBase : KnowledgeBase :=
  (KnowledgeBase.extend {} ⟨"r", "(or p q)\n(not p)"⟩ askingRules).extend ⟨"k", ""⟩ []

/-- A run on these files says that the statement follows. -/
example : (exit ⟨"r", "k", "s", none, .text, false, none⟩ libraries asking).stdout =
    "definitely true\n" := by
  have hrules : Loads asking {} "r" (.extend {} ⟨"r", "(or p q)\n(not p)"⟩ askingRules) :=
    ⟨_, _, by cbv, KnowledgeBase.add_eq_ok_iff.2 ⟨askingRules, by cbv, rfl, rfl⟩⟩
  have hknowledge : Loads asking (.extend {} ⟨"r", "(or p q)\n(not p)"⟩ askingRules) "k" askingBase :=
    ⟨_, _, by cbv, KnowledgeBase.add_eq_ok_iff.2 ⟨[], by cbv, rfl, rfl⟩⟩
  have hvalid := askingBase.rejection?_eq_none_iff.1 (by cbv)
  let statement : Statement := ⟨⟨.atom "q", "s", ⟨0, 1, 1, 1⟩⟩, ValidBase.askingQ.wellFormed⟩
  have hchecks : Checks ⟨"r", "k", "s", none, .text, false, none⟩ asking
      ⟨⟨askingBase, hvalid⟩, statement, ValidBase.tabulate ⟨askingBase, hvalid⟩ statement⟩ := {
    base := ⟨_, _, hrules, hknowledge, KnowledgeBase.validate_eq_ok_iff.2 rfl⟩
    statement := ⟨"q", by cbv, Statement.ofSource_eq_ok_iff.2 (by cbv)⟩
    entailment := ValidBase.judge_unlimited rfl statement }
  rw [exit, run_of_checks hchecks]
  cbv

end Options

end Consequence
