import Rollbook.Database.Kept
import Rollbook.Installer
/-
  Rollbook.Main — the installer at the command line.

  The installer is a function on a tree of files. What it can look at is read into
  such a tree first: the files of variables, and every place on the way to the log
  and to the database. Afterwards the differences are carried out.
-/

namespace Rollbook.Main

/-- The path of a place. -/
def pathOf (place : Place) : String := "/" ++ String.intercalate "/" place

/-- What is at a place, if it can be read. A file that is no text is taken for some text. -/
def readNode (place : Place) : IO (Option Node) := do
  try
    let s ← IO.FS.readFile (pathOf place)
    match Database.ofKept? s with
    | some d => return some (.file (.database d))
    | none => return some (.file (.text s))
  catch e =>
    match e with
    | .noFileOrDirectory .. => return none
    | .inappropriateType .. => return some (.folder [])
    | .userError _ => return some (.file (.text "no text"))
    | _ => return some (.folder [])

/-- The places on the way along a path, two dots going back up. -/
def placesOn (current : Place) (p : Path) : List Place :=
  let step (place : Place) (name : String) : Place :=
    if name = "." then place else if name = ".." then place.dropLast else place ++ [name]
  let start := if p.absolute then [] else current
  (List.range (p.names.length + 1)).map fun n => (p.names.take n).foldl step start

/-- The tree with everything read that is at these places. -/
def look (d : Disk) (places : List Place) : IO Disk := do
  let mut d := d
  for place in places do
    if (d.node? place).isNone then
      if let some node ← readNode place then d := d.put place node
  return d

/-- The words of a text that may be names of variables. -/
def wordsOf (text : String) : List String :=
  let pick (keep : Char → Bool) : List String :=
    (text.toList.foldr (fun c (word, words) =>
      if keep c then (c :: word, words)
      else ([], if word.isEmpty then words else String.ofList word :: words)) ([], []))
    |> fun (word, words) => if word.isEmpty then words else String.ofList word :: words
  (pick Text.isAlphanumeric ++ pick EnvFile.isNameChar).eraseDups

def readEnvironment (names : List String) : IO Environment := do
  let mut found := []
  for name in names do
    if let some value ← IO.getEnv name then found := found ++ [(name, value)]
  return .ofPairs found

/-- The variables that the program looks at whatever its files say. -/
def ownVariables : List String :=
  ["PROJECT_NAME", "LOG_LEVEL", "LOG_FILE", "DATABASE_URL", "CLICOLOR_FORCE", "NO_COLOR", "CLICOLOR",
   Installer.threadsVariable]

/-- The paths that are looked at when the database of a path is prepared. -/
def pathsFor (database : String) : List String :=
  match Locator.target? (Installer.locatorOf database) with
  | .ok (.file path manner) =>
    [path, path ++ Disk.journalEnding, path ++ Disk.logEnding, path ++ Disk.sharingEnding] ++
      manner.model.toList
  | _ => []

def carryOut (before after : Disk) : IO Unit := do
  for (place, _) in before.entries do
    if (after.node? place).isNone then IO.FS.removeFile (pathOf place)
  for (place, contents) in after.entries do
    match before.node? place, contents with
    | none, none => IO.FS.createDir (pathOf place)
    | none, some (.text s) => IO.FS.writeFile (pathOf place) s
    | _, some (.database d) => IO.FS.writeFile (pathOf place) d.kept
    | _, _ => pure ()

end Rollbook.Main

open Rollbook Rollbook.Main in
def main (arguments : List String) : IO UInt32 := do
  let started ← IO.monoMsNow
  let current := (Path.ofText (toString (← IO.currentDir))).names
  let folders := (List.range (current.length + 1)).map fun n => current.take n
  let disk ← look (.new current) (folders.map (· ++ [".env"]))
  let fileText := (Program.findFrom disk (Path.ofText ".env") current (current.length + 1)).getD ""
  let environment ← readEnvironment (ownVariables ++ wordsOf fileText)
  let settings := ((Program.start disk environment).loadFile ".env").2.get.1
  let database := Installer.pathOf settings.database
  let disk ← look disk ((settings.logFile :: database :: pathsFor database).flatMap fun path =>
    placesOn current (Path.ofText path))
  let outcome := Installer.run arguments disk environment
  carryOut disk outcome.disk
  let elapsed := s!"{(← IO.monoMsNow) - started}ms"
  let coloured := outcome.isColoured (← (← IO.getStdout).isTty)
  for line in outcome.lines do IO.println (line.text coloured elapsed)
  match outcome.ending with
  | .success => pure ()
  | .failure why => IO.eprintln (why.text coloured)
  | .aborted why => IO.eprintln why.message
  return UInt32.ofNat outcome.ending.code
