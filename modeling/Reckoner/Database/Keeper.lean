import Reckoner.DataDirectory
import Reckoner.Database.Basic
import Reckoner.Database.File

/-!
# The database on disk

The tables lie in a file of the data directory. Whoever uses them locks another file meanwhile, so
that programs which run at the same time take turns. A changed file replaces the one before as a
whole.
-/

namespace Reckoner.Database

/-- Reads the tables; a file that is not there holds none. -/
def readTables (path : String) : IO Tables := do
  match ← (IO.FS.readFile path).toBaseIO with
  | .ok text =>
    match Tables.ofText? text with
    | some tables => return tables
    | none => throw (IO.userError (path ++ " holds no tables"))
  | .error (.noFileOrDirectory ..) => return Tables.empty
  | .error e => throw e

/-- Writes the tables. -/
def writeTables (path : String) (tables : Tables) : IO Unit := do
  let draft := path ++ ".new"
  IO.FS.writeFile draft tables.toText
  IO.FS.rename draft path

/-- Lets something act on the database in a directory. -/
def act {α : Type} (directory : String) (f : Database → α × Database) : IO α := do
  IO.FS.createDirAll directory
  let lock ← IO.FS.Handle.mk (lockPath directory) .append
  lock.lock
  try
    let path := tablesPath directory
    let before ← readTables path
    let (value, after) := f (ofTables before)
    if after.tables ≠ before then writeTables path after.tables
    return value
  finally
    lock.unlock

end Reckoner.Database
