import Rollbook.Database.Beside
import Rollbook.Schema.Migration
import Rollbook.Startup
import Rollbook.Text.Styled
/-
  Rollbook.Installer — the program that prepares and removes the database file.

  With the argument `clean` it deletes the file, with `fresh` it deletes the file
  and prepares a new one, and with anything else it prepares the one that is there.
  Preparing applies all migrations one after the other and does not record them:
  what exists already is left as it is, so a second run changes nothing.

  The file it deletes is the one whose path the setting spells, the file it
  prepares is the one that the locator made from that path names. A step that fails
  leaves the changes it had made.
-/

namespace Rollbook.Installer

open Rollbook.Text

inductive Command where
  | clean
  | fresh
  | prepare
  deriving DecidableEq, Repr

/-- The command in the first argument; the others are not looked at. -/
def Command.ofArguments : List String → Command
  | "clean" :: _ => .clean
  | "fresh" :: _ => .fresh
  | _ => .prepare

/-- Why the program fails. -/
inductive Problem where
  | cannotDelete (path : String) (why : Disk.Fault)
  | cannotMakeFolder (path : String) (why : Disk.Fault)
  | cannotOpen (path : String) (why : DbError)
  | stepFailed (name : String) (why : DbError)
  deriving DecidableEq, Repr

namespace Problem

def message : Problem → String
  | .cannotDelete path why => s!"cannot delete attendance database {path}: {why.message}"
  | .cannotMakeFolder path why => s!"cannot create directory for {path}: {why.message}"
  | .cannotOpen path why => s!"cannot open attendance database {path}: {why.message}"
  | .stepFailed name why => s!"attendance schema step {name} failed: {why.message}"

/-- The text that is printed about a problem. -/
def text (coloured : Bool) (p : Problem) : String :=
  styled coloured .boldRed "error:" ++ " " ++ p.message

end Problem

/-- A line that the program prints. -/
inductive Line where
  | deleted (path : String)
  | nothingToDelete (path : String)
  | applying (path : String)
  | step (number total : Nat) (name : String) (success : Bool)
  | ready (total : Nat)
  deriving DecidableEq, Repr

namespace Line

/-- The column at which the outcome of a step stands. -/
def outcomeColumn : Nat := 80

/-- The beginning of a step's line, filled up with points. -/
def stepLabel (number total : Nat) (name : String) : String :=
  let label := s!"[{number}/{total}] {name}"
  label ++ String.ofList (List.replicate (outcomeColumn - label.utf8ByteSize) '.')

/-- The text of a line; `elapsed` says how long a step took. -/
def text (coloured : Bool) (elapsed : String) : Line → String
  | .deleted path => s!"Deleted attendance database: {path}"
  | .nothingToDelete path => s!"No attendance database at {path}"
  | .applying path => "Applying attendance schema to " ++ styled coloured .bold path
  | .step n total name true =>
    stepLabel n total name ++ " " ++ styled coloured .green "done" ++ " " ++
      styled coloured .dim s!"({elapsed})"
  | .step n total name false => stepLabel n total name ++ " " ++ styled coloured .red "failed"
  | .ready total => s!"Attendance schema ready ({total} steps)"

end Line

/-- What became of a piece of work: the lines printed, its end, and the files after it. -/
structure Work where
  lines : List Line
  result : Except Problem Unit
  disk : Disk

namespace Work

/-- Goes on with more work unless the first failed. -/
def andThen (w : Work) (next : Disk → Work) : Work :=
  match w.result with
  | .error _ => w
  | .ok () =>
    let more := next w.disk
    { more with lines := w.lines ++ more.lines }

end Work

/-! ## The pieces -/

/-- The path that a setting spells: without one scheme in front and without parameters. -/
def pathOf (setting : String) : String :=
  let cs := setting.toList
  let rest :=
    if "sqlite://".toList.isPrefixOf cs then cs.drop 9
    else if "sqlite:".toList.isPrefixOf cs then cs.drop 7
    else cs
  String.ofList (rest.takeWhile (· ≠ '?'))

/-- The locator under which the database of a path is prepared. -/
def locatorOf (path : String) : String := s!"sqlite://{path}?mode=rwc"

def deleteFile (path : String) (d : Disk) : Work :=
  if d.isThere (Path.ofText path) then
    match d.removeFile (Path.ofText path) with
    | .ok d => ⟨[.deleted path], .ok (), d⟩
    | .error why => ⟨[], .error (.cannotDelete path why), d⟩
  else ⟨[.nothingToDelete path], .ok (), d⟩

/-- Makes the folder of a path. -/
def makeFolder (path : String) (d : Disk) : Work :=
  match (Path.ofText path).parent? with
  | none => ⟨[], .ok (), d⟩
  | some folder =>
    match d.makeFolders folder with
    | (.ok (), d) => ⟨[], .ok (), d⟩
    | (.error why, d) => ⟨[], .error (.cannotMakeFolder path why), d⟩

/-- Applies migrations to an open database, the first of which has the given number. -/
def applySteps (number total : Nat) (c : Connection) (d : Disk) : List Migration → Work
  | [] => ⟨[.ready total], .ok (), d⟩
  | m :: ms =>
    match c.applyChanges d m.up with
    | (.error why, _, d) =>
      ⟨[.step number total m.name false], .error (.stepFailed m.name why), d⟩
    | (.ok (), c, d) =>
      let rest := applySteps (number + 1) total c d ms
      { rest with lines := .step number total m.name true :: rest.lines }

def applySchema (path : String) (d : Disk) : Work :=
  match d.openLocator (locatorOf path) with
  | .error why => ⟨[], .error (.cannotOpen path why), d⟩
  | .ok (c, d) =>
    let w := applySteps 1 Migration.all.length c d Migration.all
    { w with lines := .applying path :: w.lines }

def prepare (path : String) (d : Disk) : Work := (makeFolder path d).andThen (applySchema path)

def perform (command : Command) (path : String) (d : Disk) : Work :=
  match command with
  | .clean => deleteFile path d
  | .fresh => (deleteFile path d).andThen (prepare path)
  | .prepare => prepare path d

/-! ## The program -/

/-- How the program ends. -/
inductive Ending where
  | success
  | failure (why : Problem)
  | aborted (why : Abort)
  deriving DecidableEq, Repr

def Ending.code : Ending → Nat
  | .success => 0
  | .failure _ => 1
  | .aborted _ => 101

structure Outcome where
  lines : List Line
  ending : Ending
  disk : Disk
  environment : Environment

/-- What is printed is coloured: on demand always, else on a terminal unless that is not wanted. -/
def Outcome.isColoured (o : Outcome) (onTerminal : Bool) : Bool :=
  if (o.environment.get? "CLICOLOR_FORCE").any (· ≠ "0") then true
  else if (o.environment.get? "NO_COLOR").isSome then false
  else onTerminal && o.environment.get? "CLICOLOR" ≠ some "0"

/-- The variable that says how many threads do the work. -/
def threadsVariable : String := "TOKIO_WORKER_THREADS"

/-- A number of threads as it is written, in digits and perhaps with a plus sign in front. -/
def threads? (text : String) : Option Nat :=
  let digits := match text.toList with
    | '+' :: cs => cs
    | cs => cs
  if !digits.isEmpty && digits.all Char.isDigit then some (value digits) else none

/-- One thread at least, and not more than can be counted in a list. -/
def areUsable (threads : Nat) : Bool := 0 < threads && threads < 1152921504606846976

/-- The program from reading its settings on. -/
def work (arguments : List String) (disk : Disk) (environment : Environment) : Outcome :=
  match (Program.start disk environment).init ".env" with
  | (.error why, p) => ⟨[], .aborted why, p.disk, p.environment⟩
  | (.ok settings, p) =>
    match p.initLogger settings.logLevel settings.logFile with
    | (.error why, p) => ⟨[], .aborted why, p.disk, p.environment⟩
    | (.ok _, p) =>
      let w := perform (.ofArguments arguments) (pathOf settings.database) p.disk
      match w.result with
      | .ok () => ⟨w.lines, .success, w.disk, p.environment⟩
      | .error why => ⟨w.lines, .failure why, w.disk, p.environment⟩

/-- A run of the program. -/
def run (arguments : List String) (disk : Disk) (environment : Environment) : Outcome :=
  match environment.get? threadsVariable with
  | none => work arguments disk environment
  | some text =>
    if (threads? text).any areUsable then work arguments disk environment
    else ⟨[], .aborted (.badThreads text), disk, environment⟩

end Rollbook.Installer
