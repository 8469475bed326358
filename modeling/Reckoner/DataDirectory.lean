/-!
# Where data is kept

The settings and the database lie in one directory: the one that is named explicitly, or else a
hidden one in the home directory.
-/

namespace Reckoner

/-- A path with a name behind it, joined by one slash. -/
def joinPath (directory name : String) : String :=
  if directory.isEmpty || directory.toList.getLast? == some '/' then directory ++ name
  else directory ++ "/" ++ name

/-- The data directory, from the one that is named explicitly and the home directory. -/
def dataDirectory (named : Option String) (home : String) : String :=
  named.getD (joinPath home ".exprflow")

/-- The address of the database in a data directory. -/
def databaseUrl (directory : String) : String := "sqlite://" ++ directory ++ "/exprflow.db"

/-- The file of the settings. -/
def settingsPath (directory : String) : String := joinPath directory "config.toml"

/-- The file of the tables. -/
def tablesPath (directory : String) : String := joinPath directory "exprflow.tables"

/-- The file that is locked while the tables are in use. -/
def lockPath (directory : String) : String := joinPath directory "exprflow.lock"

end Reckoner
