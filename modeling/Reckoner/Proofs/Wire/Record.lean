import Reckoner.Proofs.Wire.Token
import Reckoner.Wire.Record

/-!
# Records that have been written

A record is read back from the map that it is written as, whatever stands behind it: each entry is
read into the slot of its field, so that behind the entries of the first fields the slots of the
others are still empty.
-/

namespace Reckoner.Wire

/-! ## Values -/

/-- An integer of 64 bits. -/
def IsInt64 (n : Int) : Prop := -0x8000000000000000 ≤ n ∧ n < 0x8000000000000000

instance (n : Int) : Decidable (IsInt64 n) := inferInstanceAs (Decidable (_ ∧ _))

/-- A value that a field of this kind can hold and a message can carry. -/
def Value.Fits : Kind → Value → Prop
  | .integer, integer n => IsInt64 n
  | .number, number _ => True
  | .text, text s => (Text.toBytes s).length < 0x100000000
  | .operands, operands _ => True
  | _, _ => False

/-- An integer of 64 bits is read back. -/
theorem exists_read?_writeInteger {n : Int} (h : IsInt64 n) (rest : List UInt8) :
    ∃ token, Token.read? (writeInteger n ++ rest) = some (token, rest) ∧
      token.integer? = some n := by
  obtain ⟨hlow, hhigh⟩ := h
  by_cases hn : 0 ≤ n
  · refine ⟨_, read?_writeInteger_of_nonneg hn hhigh rest, ?_⟩
    have hlt : n.toNat < 0x8000000000000000 := by omega
    simp only [Token.integer?, hlt, if_true, Int.toNat_of_nonneg hn]
  · exact ⟨_, read?_writeInteger_of_neg (Int.lt_of_not_ge hn) hlow rest, rfl⟩

/-- An operand is read back, missing or not. -/
theorem exists_read?_writeOperand (operand : Option Binary64) (rest : List UInt8) :
    ∃ token, Token.read? (writeOperand operand ++ rest) = some (token, rest) ∧
      token.operand? = some operand := by
  cases operand with
  | none => exact ⟨.nil, rfl, rfl⟩
  | some x => exact ⟨.number x, read?_writeNumber x rest, rfl⟩

/-- Two operands are read back. -/
theorem readOperands?_append (args : Operands (Option Binary64)) (rest : List UInt8) :
    readOperands? (writeOperand args.left ++ (writeOperand args.right ++ rest)) =
      some (args, rest) := by
  obtain ⟨left, hleft, hleftOperand⟩ :=
    exists_read?_writeOperand args.left (writeOperand args.right ++ rest)
  obtain ⟨right, hright, hrightOperand⟩ := exists_read?_writeOperand args.right rest
  simp [readOperands?, hleft, hright, hleftOperand, hrightOperand]

/-- A value is read back. -/
theorem Value.read?_write {kind : Kind} {value : Value} (h : value.Fits kind)
    (rest : List UInt8) : Value.read? kind (value.write ++ rest) = some (value, rest) := by
  cases kind <;> cases value <;> try exact absurd h id
  case integer.integer n =>
    obtain ⟨token, hread, hinteger⟩ := exists_read?_writeInteger h rest
    simp [Value.read?, Value.write, hread, hinteger]
  case number.number x =>
    simp [Value.read?, Value.write, read?_writeNumber, Token.number?]
  case text.text s =>
    simp [Value.read?, Value.write, read?_writeText h, Token.text?]
  case operands.operands args =>
    have hhead := @read?_writeHead_array 2 (by decide)
      (writeOperand args.left ++ (writeOperand args.right ++ rest))
    simp [Value.read?, Value.write, hhead, readOperands?_append]

/-! ## Entries -/

/-- Fields that can be told apart by their names, and that a small map can hold. -/
structure Sound (fields : List Field) : Prop where
  /-- No two fields have the same name. -/
  nodup : (fields.map fun field => Text.toBytes field.name).Nodup
  length_lt : fields.length < 16
  name_lt : ∀ field ∈ fields, (Text.toBytes field.name).length < 0x100000000

/-- The values fit the fields, one by one. -/
abbrev Fitting (fields : List Field) (values : List Value) : Prop :=
  List.Forall₂ (fun field value => value.Fits field.kind) fields values

/-- A name names its field. -/
theorem Key.ofToken?_name {fields before later : List Field} {field : Field}
    (hnodup : (fields.map fun field => Text.toBytes field.name).Nodup)
    (hfields : fields = before ++ field :: later) :
    Key.ofToken? fields (.bytes (Text.toBytes field.name)) = some (.known before.length) := by
  have hfind : fields.findIdx? (fun other => Text.toBytes other.name == Text.toBytes field.name) =
      some before.length := by
    subst hfields
    refine List.findIdx?_eq_some_iff_getElem.mpr ⟨by simp, by simp, fun j hj => ?_⟩
    rw [List.map_append, List.nodup_append] at hnodup
    have hne := hnodup.2.2 _ (List.mem_map_of_mem (List.getElem_mem hj)) _
      (List.mem_map_of_mem (List.mem_cons_self ..))
    simpa [List.getElem_append_left hj] using hne
  simp only [Key.ofToken?, hfind]

/-- An entry is read into the slot of its field, if that is empty. -/
theorem readEntry?_append {fields before later : List Field} {field : Field} {value : Value}
    {slots others : Slots} (hfields : Sound fields) (heq : fields = before ++ field :: later)
    (hslots : slots.length = before.length) (hvalue : value.Fits field.kind) (rest : List UInt8) :
    readEntry? fields (slots ++ none :: others)
        (writeText field.name ++ (value.write ++ rest)) =
      some (slots ++ some value :: others, rest) := by
  have hname : (Text.toBytes field.name).length < 0x100000000 :=
    hfields.name_lt field (heq ▸ List.mem_append_right _ (List.mem_cons_self ..))
  have hfield : fields[before.length]? = some field := by simp [heq]
  have hslot : (slots ++ none :: others)[before.length]? = some none := by simp [← hslots]
  have hset : (slots ++ none :: others).set before.length (some value) =
      slots ++ some value :: others := by simp [← hslots]
  unfold readEntry?
  simp [read?_writeText hname, Key.ofToken?_name hfields.nodup heq, hfield, hslot,
    Value.read?_write hvalue, hset]

/-- The entries of the fields behind some others fill the slots that are still empty. -/
theorem readEntries?_append {fields before later : List Field} {earlier values : List Value}
    (hfields : Sound fields) (heq : fields = before ++ later)
    (hearlier : earlier.length = before.length) (hvalues : Fitting later values)
    (rest : List UInt8) :
    readEntries? fields later.length (earlier.map some ++ later.map fun _ => none)
        (writeFields later values ++ rest) = some ((earlier ++ values).map some, rest) := by
  induction hvalues generalizing before earlier with
  | nil => simp [readEntries?, writeFields]
  | @cons field value later values hvalue _ ih =>
    have hentry : readEntry? fields (earlier.map some ++ none :: later.map fun _ => none)
        (writeText field.name ++ (value.write ++ (writeFields later values ++ rest))) =
        some (earlier.map some ++ some value :: later.map fun _ => none,
          writeFields later values ++ rest) :=
      readEntry?_append hfields heq (by simpa using hearlier) hvalue _
    have hnext := @ih (before ++ [field]) (earlier ++ [value]) (by simp [heq]) (by simp [hearlier])
    have hbytes : writeFields (field :: later) (value :: values) ++ rest =
        writeText field.name ++ (value.write ++ (writeFields later values ++ rest)) := by
      simp [writeFields]
    rw [hbytes, List.length_cons, List.map_cons, readEntries?, hentry]
    simpa using hnext

/-! ## Records -/

/-- When all slots are filled, no fallback is needed. -/
theorem complete?_map_some {fields : List Field} {values : List Value}
    (h : Fitting fields values) : complete? fields (values.map some) = some values := by
  unfold complete?
  induction h with
  | nil => rfl
  | cons _ _ ih => simp [ih]

/-- A record is read back. -/
theorem readRecord?_append {fields : List Field} {values : List Value} (hfields : Sound fields)
    (hvalues : Fitting fields values) (rest : List UInt8) :
    readRecord? fields (writeRecord fields values ++ rest) = some values := by
  have hentries := @readEntries?_append fields [] fields [] values hfields rfl rfl hvalues rest
  rw [List.map_nil, List.nil_append, List.nil_append] at hentries
  have hhead := read?_writeHead_map hfields.length_lt (writeFields fields values ++ rest)
  rw [writeRecord, List.append_assoc]
  simp only [readRecord?, hhead, hentries, complete?_map_some hvalues, Option.bind_eq_bind,
    Option.bind_some]

end Reckoner.Wire
