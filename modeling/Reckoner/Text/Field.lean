/-!
# Fields of a line

Several texts in one line stand apart by tabs. Within a text, a tab and a line break are written
with a backslash and a letter, and a backslash is written twice. A text is read back from its
written form (`readField?_writeField`).
-/

namespace Reckoner.Text

/-- The written form of a text; it holds no tab and no line break. -/
def writeField : List Char → List Char
  | [] => []
  | '\\' :: rest => '\\' :: '\\' :: writeField rest
  | '\t' :: rest => '\\' :: 't' :: writeField rest
  | '\n' :: rest => '\\' :: 'n' :: writeField rest
  | c :: rest => c :: writeField rest

/-- The text with a written form. A backslash must not stand in front of anything else than what
it is written for. -/
def readField? : List Char → Option (List Char)
  | [] => some []
  | '\\' :: '\\' :: rest => (readField? rest).map ('\\' :: ·)
  | '\\' :: 't' :: rest => (readField? rest).map ('\t' :: ·)
  | '\\' :: 'n' :: rest => (readField? rest).map ('\n' :: ·)
  | '\\' :: _ => none
  | c :: rest => (readField? rest).map (c :: ·)

/-- A text is read back from its written form. -/
@[simp] theorem readField?_writeField (text : List Char) :
    readField? (writeField text) = some text := by
  fun_induction writeField text with
  | case1 => rfl
  | case2 rest ih => simp [readField?, ih]
  | case3 rest ih => simp [readField?, ih]
  | case4 rest ih => simp [readField?, ih]
  | case5 c rest hb ht hn ih =>
    rw [readField?.eq_def]
    split <;> simp_all

/-- A line of texts. -/
def joinFields (fields : List String) : String :=
  "\t".intercalate (fields.map fun field => String.ofList (writeField field.toList))

/-- The texts of a line. -/
def splitFields? (line : String) : Option (List String) :=
  (line.splitOn "\t").mapM fun field => (readField? field.toList).map String.ofList

end Reckoner.Text
