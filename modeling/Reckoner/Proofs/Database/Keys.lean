import Mathlib.Data.List.Nodup
import Reckoner.Database.Users
import Reckoner.Proofs.Database.Provenance

/-!
# Keys and their users

A key tells its user by its digest, so two keys with the same digest could not be told apart: what
is said of a key here is said of one that SHA-256 distinguishes from all that were given out. That
no two users have keys with the same digest needs no assumption, for such a user is not added.
-/

namespace Reckoner

/-! ## Digests -/

theorem Text.hexDigit_inj : ∀ a < 16, ∀ b < 16, hexDigit a = hexDigit b → a = b := by decide

/-- Bytes are told by their digits. -/
theorem Text.hex_injective : Function.Injective hex := by
  intro xs ys h
  replace h := String.ofList_injective h
  induction xs generalizing ys with
  | nil =>
    cases ys with
    | nil => rfl
    | cons y ys => cases h
  | cons x xs ih =>
    cases ys with
    | nil => cases h
    | cons y ys =>
      simp only [List.flatMap_cons, List.cons_append, List.nil_append, List.cons.injEq] at h
      obtain ⟨hhigh, hlow, hrest⟩ := h
      have hx : x.toNat < 256 := x.toNat_lt
      have hy : y.toNat < 256 := y.toNat_lt
      have hhigh := hexDigit_inj _ (by omega) _ (by omega) hhigh
      have hlow := hexDigit_inj _ (by omega) _ (by omega) hlow
      have hxy : x = y := UInt8.toNat_inj.mp (by omega)
      rw [hxy, ih hrest]

/-- No two of these texts have the same digest. -/
def Sha256.Distinguishes (texts : List String) : Prop :=
  ∀ a ∈ texts, ∀ b ∈ texts, digest (Text.toBytes a) = digest (Text.toBytes b) → a = b

/-- Fewer texts are distinguished all the more. -/
theorem Sha256.Distinguishes.mono {texts fewer : List String} (h : Distinguishes texts)
    (hsubset : fewer ⊆ texts) : Distinguishes fewer :=
  fun a ha b hb => h a (hsubset ha) b (hsubset hb)

/-- Keys that are distinguished are told by what is kept of them. -/
theorem Sha256.Distinguishes.eq_of_keyDigest_eq {texts : List String} (h : Distinguishes texts)
    {a b : String} (ha : a ∈ texts) (hb : b ∈ texts) (heq : keyDigest a = keyDigest b) : a = b :=
  h a ha b hb (Text.hex_injective heq)

/-! ## Users who were added -/

/-- A user who was added: the name, and what was told. -/
structure Enrolment where
  name : String
  credentials : Credentials
deriving DecidableEq, Repr

/-- What ties a key to its user. -/
def KeyRow.binding (row : KeyRow) : String × UserId := (row.digest, row.userId)

namespace Enrolment

/-- The row of the user. -/
def user (e : Enrolment) : UserRow := ⟨e.credentials.userId, e.name⟩

/-- What ties the key to the user. -/
def binding (e : Enrolment) : String × UserId :=
  (keyDigest e.credentials.apiKey, e.credentials.userId)

/-- The keys that were given out. -/
def keys (es : List Enrolment) : List String := es.map (·.credentials.apiKey)

/-- A key was given to a user. -/
def Issued (es : List Enrolment) (user : UserId) (key : String) : Prop :=
  ⟨user, key⟩ ∈ es.map (·.credentials)

theorem Issued.exists {es : List Enrolment} {user : UserId} {key : String}
    (h : Issued es user key) : ∃ e ∈ es, e.credentials = ⟨user, key⟩ := List.mem_map.mp h

end Enrolment

open Enrolment (Issued)

/-- The users and keys of the tables are those that were added. -/
structure Tables.Enrols (t : Tables) (es : List Enrolment) : Prop where
  users_eq : t.users = es.map (·.user)
  bindings_eq : t.keys.map (·.binding) = es.map (·.binding)
  digests : (t.keys.map (·.digest)).Nodup
  lastUser : ∀ e ∈ es, e.credentials.userId ≤ t.lastUser

namespace Tables.Enrols

variable {t after : Tables} {es : List Enrolment}

theorem empty : Tables.empty.Enrols [] := ⟨rfl, rfl, List.nodup_nil, by simp⟩

/-- The rest of the tables does not matter, nor does the use of keys. -/
theorem congr (h : t.Enrols es) (husers : after.users = t.users)
    (hbindings : after.keys.map (·.binding) = t.keys.map (·.binding))
    (hlast : after.lastUser = t.lastUser) : after.Enrols es := by
  have hdigests : ∀ rows : List KeyRow,
      rows.map (·.digest) = (rows.map (·.binding)).map Prod.fst := by
    intro rows
    rw [List.map_map]
    rfl
  refine ⟨husers.trans h.users_eq, hbindings.trans h.bindings_eq, ?_, hlast ▸ h.lastUser⟩
  rw [hdigests, hbindings, ← hdigests]
  exact h.digests

/-- What the scheduler keeps. -/
theorem of_keeps (h : t.Enrols es) (hkeeps : t.Keeps after) : after.Enrols es :=
  h.congr hkeeps.users_eq (by rw [hkeeps.keys_eq]) hkeeps.lastUser_eq

/-- A user who was added is there. -/
theorem any_user (h : t.Enrols es) {user : UserId} {key : String} (hissued : Issued es user key) :
    t.users.any (·.id == user) = true := by
  obtain ⟨e, he, hcredentials⟩ := hissued.exists
  rw [h.users_eq, List.any_map, List.any_eq_true]
  refine ⟨e, he, ?_⟩
  simp [Enrolment.user, hcredentials]

/-- A name is taken if it was given to a user who was added. -/
theorem any_name_iff (h : t.Enrols es) (name : String) :
    t.users.any (·.name == name) = true ↔ ∃ e ∈ es, e.name = name := by
  rw [h.users_eq, List.any_map, List.any_eq_true]
  simp [Enrolment.user]

/-- A digest is in use if it is that of a key that was given out. -/
theorem any_digest_iff (h : t.Enrols es) (digest : String) :
    t.keys.any (·.digest == digest) = true ↔ ∃ key ∈ Enrolment.keys es, keyDigest key = digest := by
  have hany : t.keys.any (·.digest == digest) =
      (t.keys.map (·.binding)).any (·.1 == digest) := by
    rw [List.any_map]
    rfl
  rw [hany, h.bindings_eq, List.any_map, List.any_eq_true]
  simp [Enrolment.keys, Enrolment.binding]

/-- A key is found by its digest. -/
theorem key?_eq_some (h : t.Enrols es) {row : KeyRow} (hrow : row ∈ t.keys) {key : String}
    (hdigest : row.digest = keyDigest key) : t.key? key = some row := by
  cases hfound : t.key? key with
  | none => exact absurd hdigest (by simpa using List.find?_eq_none.mp hfound row hrow)
  | some other =>
    have hother : other.digest = keyDigest key := by simpa using List.find?_some hfound
    rw [List.inj_on_of_nodup_map h.digests (List.mem_of_find?_eq_some hfound) hrow
      (hother.trans hdigest.symm)]

/-- A key tells the user to whom it was given, and no other. -/
theorem map_key?_eq_some_iff (h : t.Enrols es) {key : String}
    (hkey : Sha256.Distinguishes (key :: Enrolment.keys es)) (user : UserId) :
    (t.key? key).map (·.userId) = some user ↔ Issued es user key := by
  constructor
  · intro hfound
    obtain ⟨row, hrow, rfl⟩ := Option.map_eq_some_iff.mp hfound
    have hdigest : row.digest = keyDigest key := by simpa using List.find?_some hrow
    have hbinding := List.mem_map_of_mem (List.mem_of_find?_eq_some hrow) (f := KeyRow.binding)
    rw [h.bindings_eq] at hbinding
    obtain ⟨e, he, hsame⟩ := List.mem_map.mp hbinding
    obtain ⟨hkeyDigest, huser⟩ := Prod.mk.inj hsame
    have hapiKey := List.mem_map_of_mem he (f := fun e : Enrolment => e.credentials.apiKey)
    have hsameKey := hkey.eq_of_keyDigest_eq (List.mem_cons_of_mem _ hapiKey) List.mem_cons_self
      (hkeyDigest.trans hdigest)
    refine List.mem_map.mpr ⟨e, he, ?_⟩
    rw [← huser, ← hsameKey]
  · intro hissued
    obtain ⟨e, he, hcredentials⟩ := hissued.exists
    have hbinding := List.mem_map_of_mem he (f := Enrolment.binding)
    rw [← h.bindings_eq] at hbinding
    obtain ⟨row, hrow, hsame⟩ := List.mem_map.mp hbinding
    simp only [Enrolment.binding, hcredentials] at hsame
    obtain ⟨hdigest, huser⟩ := Prod.mk.inj hsame
    rw [h.key?_eq_some hrow hdigest, Option.map_some]
    exact congrArg some huser

/-! ## Adding users -/

/-- A name that is taken is not given again. -/
theorem createUser_taken (h : t.Enrols es) {e : Enrolment} (he : e ∈ es) (key : String) :
    t.createUser e.name key = .error (.conflict ("user '" ++ e.name ++ "' already exists")) :=
  if_pos ((h.any_name_iff e.name).mpr ⟨e, he, rfl⟩)

/-- A user with a new name and a new key is added under a new number. -/
theorem createUser_fresh (h : t.Enrols es) {name key : String} (hname : ∀ e ∈ es, e.name ≠ name)
    (hkey : key ∉ Enrolment.keys es) (hdistinct : Sha256.Distinguishes (key :: Enrolment.keys es)) :
    ∃ userId after, t.createUser name key = .ok (⟨userId, key⟩, after) ∧
      ∀ e ∈ es, e.credentials.userId ≠ userId := by
  have hname : ¬t.users.any (·.name == name) = true := by
    rw [h.any_name_iff]
    rintro ⟨e, he, heq⟩
    exact hname e he heq
  have hdigest : ¬t.keys.any (·.digest == keyDigest key) = true := by
    rw [h.any_digest_iff]
    rintro ⟨other, hother, heq⟩
    have hsame := hdistinct.eq_of_keyDigest_eq (List.mem_cons_of_mem _ hother)
      List.mem_cons_self heq
    exact hkey (hsame ▸ hother)
  refine ⟨t.lastUser + 1, _, (if_neg hname).trans (if_neg hdigest), fun e he => ?_⟩
  exact Int.ne_of_lt (Int.lt_add_one_of_le (h.lastUser e he))

/-- A user who is added comes behind the others. -/
theorem createUser (h : t.Enrols es) {name key : String} {c : Credentials}
    (hcreate : t.createUser name key = .ok (c, after)) : after.Enrols (es ++ [⟨name, c⟩]) := by
  unfold Tables.createUser at hcreate
  split_ifs at hcreate with hname hdigest
  obtain ⟨rfl, rfl⟩ := Prod.mk.inj (Except.ok.inj hcreate)
  refine ⟨?_, ?_, ?_, fun e he => ?_⟩
  · simp [h.users_eq, Enrolment.user]
  · rw [List.map_append, h.bindings_eq, List.map_append]
    rfl
  · have hnew : keyDigest key ∉ t.keys.map (·.digest) := by simpa using hdigest
    rw [List.map_append]
    exact h.digests.append (List.nodup_singleton _) (by simpa using hnew)
  · rw [List.mem_append, List.mem_singleton] at he
    obtain he | rfl := he
    · exact Int.le_of_lt (Int.lt_add_one_of_le (h.lastUser e he))
    · exact Int.le_refl (t.lastUser + 1)

end Tables.Enrols

/-! ## The use of keys -/

/-- Uses of keys may have been noted. -/
def Database.Stamped (db after : Database) : Prop :=
  ∃ keys : List KeyRow, keys.map (·.binding) = db.tables.keys.map (·.binding) ∧
    after = { db with tables := { db.tables with keys } }

theorem Database.Stamped.refl (db : Database) : db.Stamped db := ⟨db.tables.keys, rfl, rfl⟩

/-- Whoever sends a key is told by its row; at most the use of the key is noted, and only of one
that was found. -/
theorem Database.authenticate_spec {db : Database} (hreadable : db.readable = true) (now : Instant)
    (key : String) : ∃ after,
      db.authenticate now key = (.ok ((db.tables.key? key).map (·.userId)), after) ∧
        db.Stamped after ∧ (db.tables.key? key = none → after = db) := by
  have hstamp : db.Stamped { db with tables := db.tables.stamp key now } := by
    refine ⟨(db.tables.stamp key now).keys, ?_, rfl⟩
    simp only [Tables.stamp, Tables.reviseKey, List.map_map]
    refine List.map_congr_left fun row _ => ?_
    rw [Function.comp_apply]
    split_ifs <;> rfl
  unfold Database.authenticate Database.read
  rw [if_pos hreadable]
  dsimp only
  cases db.tables.key? key with
  | none => exact ⟨db, rfl, .refl db, fun _ => rfl⟩
  | some row =>
    refine ⟨_, rfl, ?_, nofun⟩
    split_ifs
    · exact hstamp
    · exact .refl db

end Reckoner
