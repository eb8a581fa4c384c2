import Rollbook.Settings.EnvFile
/-
  Rollbook.Settings — what can be set about a program, and the defaults.
-/

namespace Rollbook

structure Settings where
  project : String
  logLevel : String
  logFile : String
  /-- A locator or a path. -/
  database : String
  deriving DecidableEq, Repr

namespace Settings

/-- The settings in an environment; a variable that is set to nothing counts. -/
def ofEnvironment (e : Environment) : Settings where
  project := (e.get? "PROJECT_NAME").getD "attendance-core"
  logLevel := (e.get? "LOG_LEVEL").getD "info"
  logFile := (e.get? "LOG_FILE").getD "logs/attendance.log"
  database := (e.get? "DATABASE_URL").getD "data/attendance.db"

end Settings

end Rollbook
