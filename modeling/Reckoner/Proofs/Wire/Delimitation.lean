import Reckoner.Proofs.Wire.Message

/-!
# Where a message ends

A reader of the wire looks at no byte behind what it reads: with more bytes behind, it reads the
same and leaves them as well (`Frontal`). This is shown along the composition of the readers. So
two things follow for a message that has been written: it is read back whatever stands behind it,
and when it has been cut off anywhere nothing is read, since what is read of its front would leave
the bytes that were cut off unread.
-/

namespace Reckoner.Wire

/-- Reads something at the front of some bytes, and gives what stands behind it. -/
abbrev Reader (α : Type) : Type := List UInt8 → Option (α × List UInt8)

/-- A reader that looks at no byte behind what it reads. -/
def Frontal {α : Type} (read : Reader α) : Prop :=
  ∀ ⦃bytes value rest⦄, read bytes = some (value, rest) →
    ∀ more, read (bytes ++ more) = some (value, rest ++ more)

/-! ## Composition -/

namespace Frontal

variable {α β : Type} {read : Reader α}

/-- A reader that never reads anything. -/
theorem never : Frontal fun _ => (none : Option (α × List UInt8)) := by
  intro bytes value rest h
  cases h

/-- A reader of nothing, with a value of its own. -/
theorem pure (value : α) : Frontal fun bytes => some (value, bytes) := by
  intro bytes read rest h more
  cases h
  rfl

/-- One reader behind another, which it may depend on. -/
theorem bind (h : Frontal read) {next : α → Reader β} (hnext : ∀ value, Frontal (next value)) :
    Frontal fun bytes => (read bytes).bind fun (value, rest) => next value rest := by
  intro bytes result rest hread more
  obtain ⟨⟨value, behind⟩, hfirst, hsecond⟩ := Option.bind_eq_some_iff.mp hread
  have hfirst := h hfirst more
  have hsecond := hnext value hsecond more
  simp only [hfirst, Option.bind_some]
  exact hsecond

/-- What is read may be given another form. -/
theorem map (h : Frontal read) (f : α → β) :
    Frontal fun bytes => (read bytes).map fun (value, rest) => (f value, rest) := by
  intro bytes result rest hread more
  obtain ⟨⟨value, behind⟩, hfirst, hresult⟩ := Option.map_eq_some_iff.mp hread
  cases hresult
  simp only [h hfirst more, Option.map_some]

/-- What is read may be refused. -/
theorem given (o : Option α) {next : α → Reader β} (hnext : ∀ value, Frontal (next value)) :
    Frontal fun bytes => o.bind fun value => next value bytes := by
  cases o with
  | none => exact never
  | some value => exact hnext value

/-- Nothing may be read unless something holds. -/
theorem provided (p : Prop) [Decidable p] (h : Frontal read) :
    Frontal fun bytes => if p then read bytes else none := by
  by_cases hp : p
  · simpa only [if_pos hp] using h
  · simpa only [if_neg hp] using never

/-- A reader of all of some bytes reads nothing of a proper front of them. -/
theorem eq_none_of_lt (h : Frontal read) {front behind : List UInt8} {value : α}
    (hbehind : behind ≠ []) (hread : read (front ++ behind) = some (value, [])) :
    read front = none := by
  cases hfront : read front with
  | none => rfl
  | some result =>
    obtain ⟨other, rest⟩ := result
    have hmore := h hfront behind
    rw [hread] at hmore
    have hrest : [] = rest ++ behind := (Prod.mk.inj (Option.some.inj hmore)).2
    exact absurd (List.append_eq_nil_iff.mp hrest.symm).2 hbehind

end Frontal

/-! ## Tokens -/

/-- So many bytes. -/
theorem frontal_split? (count : Nat) : Frontal (split? count) := by
  intro bytes front rest h more
  unfold split? at h ⊢
  split_ifs at h with hcount
  cases h
  have hlonger : count ≤ (bytes ++ more).length := by simp; omega
  rw [if_pos hlonger, List.take_append_of_le_length hcount, List.drop_append_of_le_length hcount]

/-- A number of so many bytes. -/
theorem frontal_readNatural? (width : Nat) : Frontal (readNatural? width) :=
  (frontal_split? width).map _

/-- A number with a sign of so many bytes. -/
theorem frontal_readSigned? (width : Nat) : Frontal (readSigned? width) :=
  (frontal_readNatural? width).map fun n =>
    if 2 * n < byteCapacity width then (n : Int) else (n : Int) - byteCapacity width

/-- Bytes behind their length. -/
theorem frontal_readSized? (width : Nat) : Frontal (readSized? width) :=
  (frontal_readNatural? width).bind frontal_split?

/-- The data of an extension behind its length. -/
theorem frontal_readExtension (width : Nat) :
    Frontal fun rest => Token.readMarked?.readExtension rest width :=
  (frontal_readNatural? width).bind fun count =>
    (frontal_split? (count + 1)).bind fun payload => .pure (Token.extension payload)

/-- What a marker announces. -/
theorem frontal_readMarked? (marker : Nat) : Frontal (Token.readMarked? marker) := by
  intro bytes token rest h more
  unfold Token.readMarked? at h ⊢
  split at h
  case h_1 | h_2 | h_3 => cases h; rfl
  case h_7 | h_8 | h_9 => exact frontal_readExtension _ h more
  case h_10 =>
    exact (frontal_readNatural? 4).map
      (fun n => Token.number (Binary64.ofBinary32 n.toUInt32)) h more
  case h_11 => exact (frontal_readNatural? 8).map (fun n => Token.number ⟨n.toUInt64⟩) h more
  case h_32 => cases h
  all_goals first
    | exact (frontal_split? _).map _ h more
    | exact (frontal_readNatural? _).map _ h more
    | exact (frontal_readSigned? _).map _ h more
    | exact (frontal_readSized? _).map _ h more

/-- A token. -/
theorem frontal_read? : Frontal Token.read? := by
  intro bytes token rest h more
  cases bytes with
  | nil => cases h
  | cons first bytes =>
    rw [List.cons_append]
    unfold Token.read? at h ⊢
    dsimp only at h ⊢
    split_ifs at h ⊢
    case pos => cases h; rfl
    case pos => cases h; rfl
    case pos => cases h; rfl
    case pos => exact (frontal_split? _).map Token.bytes h more
    case pos => exact frontal_readMarked? _ h more
    case neg => cases h; rfl

/-! ## Skipping -/

/-- What is skipped with some fuel is skipped with more, and with more bytes behind it. -/
theorem skipOpen?_append {fuel more : Nat} {wanted : List Nat} {bytes rest : List UInt8}
    (h : skipOpen? fuel wanted bytes = some rest) (hmore : fuel ≤ more) (behind : List UInt8) :
    skipOpen? more wanted (bytes ++ behind) = some (rest ++ behind) := by
  -- The induction follows the reading; the larger fuel is never exhausted before the smaller one.
  induction fuel, wanted, bytes using skipOpen?.induct generalizing more with
  | case1 fuel bytes =>
    unfold skipOpen? at h ⊢
    cases h
    rfl
  | case2 => cases h
  | case3 fuel outer bytes ih =>
    obtain ⟨more, rfl⟩ := Nat.exists_eq_add_one_of_ne_zero (Nat.ne_zero_of_lt hmore)
    rw [skipOpen?] at h ⊢
    exact ih h (Nat.le_of_succ_le_succ hmore)
  | case4 fuel wanted outer bytes ihInner ihNext =>
    obtain ⟨more, rfl⟩ := Nat.exists_eq_add_one_of_ne_zero (Nat.ne_zero_of_lt hmore)
    have hfuel := Nat.le_of_succ_le_succ hmore
    rw [skipOpen?] at h ⊢
    obtain ⟨⟨token, left⟩, htoken, hleft⟩ := Option.bind_eq_some_iff.mp h
    rw [frontal_read? htoken behind]
    cases token
    case array count | map count =>
      dsimp only [Option.bind_eq_bind, Option.bind_some] at hleft ⊢
      split_ifs at hleft ⊢
      exact ihInner _ left hleft hfuel
    all_goals exact ihNext left hleft hfuel

/-- One value, skipped. -/
theorem skip?_append {bytes rest : List UInt8} (h : skip? bytes = some rest)
    (behind : List UInt8) : skip? (bytes ++ behind) = some (rest ++ behind) :=
  have hmore : 2 * bytes.length + 2 ≤ 2 * (bytes ++ behind).length + 2 := by
    simp only [List.length_append]
    omega
  skipOpen?_append h hmore behind

/-! ## Values -/

/-- Two operands. -/
theorem frontal_readOperands? : Frontal readOperands? :=
  frontal_read?.bind fun left => frontal_read?.bind fun right =>
    .given left.operand? fun left => .given right.operand? fun right =>
      .pure (Operands.mk left right)

/-- A value. -/
theorem Value.frontal_read? (kind : Kind) : Frontal (Value.read? kind) := by
  cases kind with
  | integer =>
    exact Wire.frontal_read?.bind fun token =>
      .given token.integer? fun n => .pure (Value.integer n)
  | number =>
    exact Wire.frontal_read?.bind fun token =>
      .given token.number? fun x => .pure (Value.number x)
  | text =>
    exact Wire.frontal_read?.bind fun token => .given token.text? fun s => .pure (Value.text s)
  | operands =>
    exact Wire.frontal_read?.bind fun token => .provided (token = .array 2)
      (frontal_readOperands?.bind fun args => .pure (Value.operands args))

/-! ## Records -/

/-- One entry of a map. -/
theorem frontal_readEntry? (fields : List Field) (slots : Slots) :
    Frontal <| readEntry? fields slots := by
  intro bytes result rest h more
  unfold readEntry? at h ⊢
  obtain ⟨⟨token, behind⟩, htoken, h⟩ := Option.bind_eq_some_iff.mp h
  obtain ⟨key, hkey, h⟩ := Option.bind_eq_some_iff.mp h
  simp only [frontal_read? htoken more, hkey, Option.bind_eq_bind, Option.bind_some]
  cases key with
  | unknown =>
    obtain ⟨left, hleft, hresult⟩ := Option.bind_eq_some_iff.mp h
    cases hresult
    simp only [skip?_append hleft more, Option.bind_some]
    rfl
  | known position =>
    obtain ⟨field, hfield, h⟩ := Option.bind_eq_some_iff.mp h
    simp only [hfield, Option.bind_some]
    dsimp only at h
    split at h
    · exact (Value.frontal_read? field.kind).bind
        (fun value => .pure (slots.set position (some value))) h more
    · cases h

/-- So many entries of a map. -/
theorem frontal_readEntries? (fields : List Field) (count : Nat) (slots : Slots) :
    Frontal (readEntries? fields count slots) := by
  induction count generalizing slots with
  | zero => exact .pure slots
  | succ count ih =>
    have hentry := frontal_readEntry? fields slots
    exact hentry.bind fun slots => ih slots

/-- So many elements of an array. -/
theorem frontal_readElements? (fields : List Field) (count : Nat) :
    Frontal (readElements? fields count) := by
  induction fields generalizing count with
  | nil =>
    cases count with
    | zero => exact .pure []
    | succ count => exact .never
  | cons field fields ih =>
    cases count with
    | zero => exact .pure _
    | succ count =>
      exact (Value.frontal_read? field.kind).bind fun value =>
        (ih count).bind fun slots => .pure (some value :: slots)

/-- Reads the slots of the record that a token begins. -/
def readSlots? (fields : List Field) : Token → Reader Slots
  | .map count => readEntries? fields count (fields.map fun _ => none)
  | .array count => readElements? fields count
  | _ => fun _ => none

/-- The slots of a record. -/
theorem frontal_readSlots? (fields : List Field) (token : Token) :
    Frontal (readSlots? fields token) := by
  cases token
  case map count => exact frontal_readEntries? fields count _
  case array count => exact frontal_readElements? fields count
  all_goals exact .never

/-- Reads a record as `readRecord?` does, and gives what stands behind it. -/
def readWhole? (fields : List Field) : Reader (List Value) := fun bytes => do
  let (token, rest) ← Token.read? bytes
  let (slots, rest) ← readSlots? fields token rest
  return (← complete? fields slots, rest)

/-- A record is read in the same way when what stands behind it is not asked for. -/
theorem readRecord?_eq (fields : List Field) (bytes : List UInt8) :
    readRecord? fields bytes = (readWhole? fields bytes).map Prod.fst := by
  unfold readRecord? readWhole?
  simp only [Option.bind_eq_bind, Option.map_bind, Function.comp_def, Option.pure_def,
    Option.map_some, Option.bind_fun_some]
  congr 1
  funext ⟨token, rest⟩
  cases token <;> rfl

/-- A record. -/
theorem frontal_readWhole? (fields : List Field) : Frontal (readWhole? fields) :=
  frontal_read?.bind fun token => (frontal_readSlots? fields token).bind fun slots =>
    .given (complete? fields slots) fun values => .pure values

/-- A record is read back, and what stands behind it is left. -/
theorem readWhole?_append {fields : List Field} {values : List Value} (hfields : Sound fields)
    (hvalues : Fitting fields values) (rest : List UInt8) :
    readWhole? fields (writeRecord fields values ++ rest) = some (values, rest) := by
  have hentries := @readEntries?_append fields [] fields [] values hfields rfl rfl hvalues rest
  rw [List.map_nil, List.nil_append, List.nil_append] at hentries
  have hhead := read?_writeHead_map hfields.length_lt (writeFields fields values ++ rest)
  rw [writeRecord, List.append_assoc]
  simp only [readWhole?, readSlots?, hhead, hentries, complete?_map_some hvalues,
    Option.bind_eq_bind, Option.bind_some]
  rfl

/-- Of a record that has been cut off nothing is read. -/
theorem readRecord?_cut {fields : List Field} {values : List Value} (hfields : Sound fields)
    (hvalues : Fitting fields values) {front : List UInt8}
    (hfront : front <+: writeRecord fields values) (hcut : front ≠ writeRecord fields values) :
    readRecord? fields front = none := by
  obtain ⟨behind, hbehind⟩ := hfront
  have hne : behind ≠ [] := by
    rintro rfl
    exact hcut (by simpa using hbehind)
  have hwhole := readWhole?_append hfields hvalues []
  rw [List.append_nil, ← hbehind] at hwhole
  rw [readRecord?_eq, (frontal_readWhole? fields).eq_none_of_lt hne hwhole, Option.map_none]

end Reckoner.Wire

namespace Reckoner

open Wire

/-! ## Messages -/

/-- A report that a message can carry: its numbers have 64 bits, and the length of its error 32. -/
structure Report.Fits (report : Report) : Prop where
  id : IsInt64 report.id
  expressionId : IsInt64 report.expressionId
  error : (Text.toBytes report.error).length < 0x100000000

/-- An assignment that a message can carry: its numbers have 64 bits, and the lengths of its texts
32. -/
structure Assignment.Fits (a : Assignment) : Prop where
  id : IsInt64 a.id
  expressionId : IsInt64 a.expressionId
  operation : (Text.toBytes a.operation).length < 0x100000000
  error : (Text.toBytes a.error).length < 0x100000000

/-- The values of a report that fits. -/
theorem Report.Fits.fitting {report : Report} (h : report.Fits) :
    Fitting Report.fields report.values :=
  .cons h.id (.cons h.expressionId (.cons trivial (.cons h.error .nil)))

/-- The values of an assignment that fits. -/
theorem Assignment.Fits.fitting {a : Assignment} (h : a.Fits) :
    Fitting Assignment.fields a.values :=
  .cons h.id (.cons trivial (.cons h.operation (.cons h.expressionId (.cons h.error .nil))))

/-- How a message is delimited by itself: its bytes are read back whatever stands behind them, and
no proper front of them is a message. -/
structure Delimited {α : Type} (encode : α → List UInt8) (decode? : List UInt8 → Option α)
    (message : α) : Prop where
  /-- The message is read back, and nothing behind it makes a difference. -/
  back : ∀ rest, decode? (encode message ++ rest) = some message
  /-- A message that has been cut off is not read. -/
  cut : ∀ front, front <+: encode message → front ≠ encode message → decode? front = none

/-- **The codec is lossless and delimits itself.** A report and an assignment that a message can
carry are read back from their bytes, floats bit for bit, whatever stands behind these; and from no
proper front of the bytes is anything read. -/
theorem messages_delimited :
    (∀ report : Report, report.Fits → Delimited Report.encode Report.decode? report) ∧
      ∀ a : Assignment, a.Fits → Delimited Assignment.encode Assignment.decode? a := by
  constructor
  · intro report h
    refine ⟨Report.decode?_encode_append h.id h.expressionId h.error, fun front hfront hcut => ?_⟩
    simp [Report.decode?, readRecord?_cut Report.sound_fields h.fitting hfront hcut]
  · intro a h
    refine ⟨Assignment.decode?_encode_append h.id h.expressionId h.operation h.error,
      fun front hfront hcut => ?_⟩
    simp [Assignment.decode?, readRecord?_cut Assignment.sound_fields h.fitting hfront hcut]

/-- A report of a result that is no number, with a payload of its own, and an assignment with a
negative zero and a missing operand. -/
theorem messages_delimited_sample :
    Delimited Report.encode Report.decode?
        ⟨7, -1, ⟨0x7ff8000000000123⟩, "division by zero"⟩ ∧
      Delimited Assignment.encode Assignment.decode?
        ⟨0x7fffffffffffffff, ⟨some ⟨0x8000000000000000⟩, Option.none⟩, "+",
          -0x8000000000000000, ""⟩ :=
  ⟨messages_delimited.1 _ ⟨by decide, by decide, by decide⟩,
    messages_delimited.2 _ ⟨by decide, by decide, by decide, by decide⟩⟩

end Reckoner
