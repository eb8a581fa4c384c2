import Rollbook.Database.Open
import Rollbook.LogLevel
import Rollbook.Settings
/-
  Rollbook.Startup — what a program does before its work: read its settings, open
  its log, connect to its database.

  The settings are read once. Whoever asks first reads them, and all others are
  given the same, even after more variables were loaded from a file. There is one
  logger as well, and a second one is refused. Where a log cannot be had the
  program gives up; folders and files that were made until then stay.
-/

namespace Rollbook

/-- Why a program gives up. -/
inductive Abort where
  /-- So many threads cannot be had. -/
  | badThreads (text : String)
  | refusedVariable (why : Environment.Refusal)
  | noLogFolder
  | noLogFile
  | loggerInUse
  deriving DecidableEq, Repr

def Abort.message : Abort → String
  | .badThreads text => "Cannot work with " ++ text ++ " threads"
  | .refusedVariable why => why.message
  | .noLogFolder => "Failed to create log directory"
  | .noLogFile => "Cannot open log file"
  | .loggerInUse => "Failed to initialize logger"

/-- A running program as far as its start is concerned. -/
structure Program where
  disk : Disk
  environment : Environment
  /-- The settings, once they have been asked for. -/
  settings : Option Settings
  /-- The level of the logger, once there is one. -/
  logger : Option LogLevel

namespace Program

def start (disk : Disk) (environment : Environment) : Program := ⟨disk, environment, none, none⟩

/-! ## Settings -/

/-- The text of the file of that name in a folder or the nearest folder above it. A folder of that
    name is passed over; a name that leads through a file ends the search. -/
def findFrom (d : Disk) (name : Path) (folder : Place) : Nat → Option String
  | 0 => none
  | levels + 1 =>
    match d.resolveIn folder name with
    | .ok (_, some (.file (.text s))) => some s
    | .ok (_, some (.file (.database _))) => none
    | .ok _ | .error .missing => findFrom d name folder.dropLast levels
    | .error _ => none

/-- Loads the variables of a file, if it is found in the working folder or above. A line that cannot
    be read ends this without more ado. -/
def loadFile (p : Program) (name : String) : Except Abort Unit × Program :=
  match findFrom p.disk (Path.ofText name) p.disk.current (p.disk.current.length + 1) with
  | none => (.ok (), p)
  | some text =>
    let (environment, stop) := EnvFile.load text p.environment
    let result := match stop with
      | some (.refused why) => .error (.refusedVariable why)
      | _ => .ok ()
    (result, { p with environment })

/-- The settings, read from the environment if nobody has asked for them. -/
def get (p : Program) : Settings × Program :=
  match p.settings with
  | some s => (s, p)
  | none =>
    let s := Settings.ofEnvironment p.environment
    (s, { p with settings := some s })

/-- Makes the folder of a file unless it is the working folder. -/
def makeFolderOf (p : Program) (file : String) : Except Abort Unit × Program :=
  match (Path.ofText file).parent? with
  | none => (.ok (), p)
  | some folder =>
    let (r, disk) := p.disk.makeFolders folder
    (r.mapError fun _ => .noLogFolder, { p with disk })

/-- The settings of a program without any, for which the folder of the log is made; if that fails
    they count as not read. -/
def readSettings (p : Program) : Except Abort Settings × Program :=
  let s := Settings.ofEnvironment p.environment
  match p.makeFolderOf s.logFile with
  | (.ok (), p) => (.ok s, { p with settings := some s })
  | (.error e, p) => (.error e, p)

/-- Loads a file of variables and answers the settings. -/
def init (p : Program) (file : String) : Except Abort Settings × Program :=
  match p.loadFile file with
  | (.error e, p) => (.error e, p)
  | (.ok (), p) =>
    match p.settings with
    | some s => (.ok s, p)
    | none => p.readSettings

/-! ## The log -/

/-- The folder of a file where it is missing, and only then. -/
def ensureFolderOf (p : Program) (file : String) : Except Abort Unit × Program :=
  match (Path.ofText file).parent? with
  | none => (.ok (), p)
  | some folder => if p.disk.isThere folder then (.ok (), p) else p.makeFolderOf file

/-- Opens a log. Warnings are written at every level, so the loudest level asked for is answered. -/
def initLogger (p : Program) (level file : String) : Except Abort LogLevel × Program :=
  match p.ensureFolderOf file with
  | (.error e, p) => (.error e, p)
  | (.ok (), p) =>
    match p.disk.openForAppend (Path.ofText file) with
    | .error _ => (.error .noLogFile, p)
    | .ok disk =>
      let p := { p with disk }
      match p.logger with
      | some _ => (.error .loggerInUse, p)
      | none =>
        let loudest := (LogLevel.ofSetting level).max .warn
        (.ok loudest, { p with logger := some loudest })

/-! ## The database -/

/-- Connects to the database of the settings. The folder of a database that is set by its path is
    made as far as possible. -/
def connect (p : Program) : Except DbError Connection × Program :=
  let (s, p) := p.get
  let disk :=
    if Locator.isLocator s.database then p.disk
    else match (Path.ofText s.database).parent? with
      | some folder => (p.disk.makeFolders folder).2
      | none => p.disk
  match disk.openLocator (Locator.ofSetting s.database) with
  | .ok (c, disk) => (.ok c, { p with disk })
  | .error e => (.error e, { p with disk })

end Program

end Rollbook
