import Reckoner.Database.Tables

/-!
# The database

Tables behind two connections: one for reading, and one for all that writes, transactions of the
scheduler included. What is asked over a closed connection fails.
-/

namespace Reckoner

/-- Tables and the connections to them. -/
structure Database where
  /-- The rows. -/
  tables : Tables
  /-- Whether the connection for reading is open. -/
  readable : Bool
  /-- Whether the connection for writing is open. -/
  writable : Bool
deriving DecidableEq, Repr

namespace Database

/-- Tables with both connections open. -/
def ofTables (tables : Tables) : Database := ⟨tables, true, true⟩

/-- The error of a request over a closed connection. -/
def closed : StoreError := .query "the connection is closed"

/-- Reads from the tables. -/
def read {α : Type} (db : Database) (f : Tables → Except StoreError α) : Except StoreError α :=
  if db.readable then f db.tables else .error closed

/-- Changes the tables. -/
def write {α : Type} (db : Database) (f : Tables → Except StoreError (α × Tables)) :
    Except StoreError (α × Database) :=
  if db.writable then (f db.tables).map fun (value, tables) => (value, { db with tables })
  else .error closed

/-- The database as a store. -/
def store : Store Database where
  admits db := if db.writable then .ok () else .error .connection
  answer now q db := (db.tables.answer now q).map fun (answer, tables) => (answer, { db with tables })
  create now userId formula graph db := db.write (·.create now userId formula graph)
  find id userId db := db.read (·.find id userId)
  listByUser userId db := db.read (·.listByUser userId)
  listTasks id db := db.read (·.listTasks id)

end Database

end Reckoner
