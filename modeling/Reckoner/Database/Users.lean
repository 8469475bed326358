import Reckoner.Database.Basic
import Reckoner.Digest.Sha256
import Reckoner.Text.Hex
import Reckoner.Text.Utf8

/-!
# Users and their keys

A user has a name of its own and gets a key, which is shown once; the database keeps only its
digest. Whoever sends a key is the user whose key it is. The time of use is noted at most once a
minute, and noting it may fail without consequence.
-/

namespace Reckoner

/-- What a new user is told. -/
structure Credentials where
  userId : UserId
  /-- The key of the user. -/
  apiKey : String
deriving DecidableEq, Repr

/-- The key made from random bytes. -/
def keyOfEntropy (entropy : List UInt8) : String := "exf_" ++ Text.hex entropy

/-- What is kept of a key. -/
def keyDigest (key : String) : String := Text.hex (Sha256.digest (Text.toBytes key))

/-- Whether a use at a given time is noted for a key with this note: if a minute has passed since
then, and if the note is missing or cannot be read. -/
def needsStamp (lastUsedAt : Option String) (now : Instant) : Bool :=
  match lastUsedAt.bind Instant.ofRfc3339? with
  | some last => 60000000000 ≤ now.elapsed last
  | none => true

namespace Tables

/-- Adds a user with a key. -/
def createUser (t : Tables) (name key : String) : Except StoreError (Credentials × Tables) :=
  if t.users.any (·.name == name) then
    .error (.conflict ("user '" ++ name ++ "' already exists"))
  else if t.keys.any (·.digest == keyDigest key) then .error (.query "the key is in use")
  else
    let userId := t.lastUser + 1
    .ok (⟨userId, key⟩,
      { t with
        users := t.users ++ [⟨userId, name⟩]
        keys := t.keys ++ [⟨keyDigest key, userId, none⟩]
        lastUser := userId })

/-- The row of a key. -/
def key? (t : Tables) (key : String) : Option KeyRow := t.keys.find? (·.digest == keyDigest key)

/-- Notes the use of a key. -/
def stamp (t : Tables) (key : String) (now : Instant) : Tables :=
  (t.reviseKey (keyDigest key) fun row => { row with lastUsedAt := some now.stored }).2

end Tables

namespace Database

/-- Adds a user with a key made from random bytes. -/
def createUser (db : Database) (entropy : List UInt8) (name : String) :
    Except StoreError (Credentials × Database) :=
  db.write (·.createUser name (keyOfEntropy entropy))

/-- The user whose key this is, if it is anybody's. -/
def authenticate (db : Database) (now : Instant) (key : String) :
    Except StoreError (Option UserId) × Database :=
  match db.read fun t => .ok (t.key? key) with
  | .error e => (.error e, db)
  | .ok none => (.ok none, db)
  | .ok (some row) =>
    let after :=
      if db.writable && needsStamp row.lastUsedAt now then
        { db with tables := db.tables.stamp key now }
      else db
    (.ok (some row.userId), after)

end Database

end Reckoner
