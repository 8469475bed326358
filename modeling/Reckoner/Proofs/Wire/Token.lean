import Mathlib.Tactic.Common
import Reckoner.Wire.Token

/-!
# Tokens that have been written

What is written of an integer, a number, a text or the head of a record is read back, whatever
stands behind it, and what stands behind it is left.
-/

namespace Reckoner.Wire

/-! ## Markers -/

/-- A number below 256 is one byte. -/
theorem bigEndian_one (n : Nat) : bigEndian 1 n = [n.toUInt8] := by
  simp [bigEndian, byteCapacity]

/-- A token that is one byte with its value in it. -/
theorem Token.read?_single {n : Nat} (h : n < 256) (rest : List UInt8) :
    Token.read? (bigEndian 1 n ++ rest) =
      if n < 0x80 then some (.unsigned n, rest)
      else if n < 0x90 then some (.map (n - 0x80), rest)
      else if n < 0xa0 then some (.array (n - 0x90), rest)
      else if n < 0xc0 then
        (split? (n - 0xa0) rest).map fun (payload, behind) => (.bytes payload, behind)
      else if n < 0xe0 then readMarked? n rest
      else some (.signed ((n : Int) - 256), rest) := by
  rw [bigEndian_one]
  change Token.read? (n.toUInt8 :: rest) = _
  have hbyte : n.toUInt8.toNat = n := UInt8.toNat_ofNat_of_lt' h
  simp only [Token.read?, hbyte]

/-- The marker of a token that needs more bytes. -/
theorem Token.read?_marked {marker : UInt8} (hlow : 0xc0 ≤ marker.toNat)
    (hhigh : marker.toNat < 0xe0) (rest : List UInt8) :
    Token.read? (marker :: rest) = Token.readMarked? marker.toNat rest := by
  unfold Token.read?
  have h : ¬marker.toNat < 0x80 ∧ ¬marker.toNat < 0x90 ∧ ¬marker.toNat < 0xa0 ∧
      ¬marker.toNat < 0xc0 := by omega
  simp only [h, if_false, hhigh, if_true]

/-- A length that fits and so many bytes are read back. -/
theorem readSized?_append {width : Nat} {payload : List UInt8}
    (h : payload.length < byteCapacity width) (rest : List UInt8) :
    readSized? width (bigEndian width payload.length ++ payload ++ rest) =
      some (payload, rest) := by
  unfold readSized?
  rw [List.append_assoc, readNatural?_bigEndian h]
  exact split?_append payload rest

/-- A number in two's complement is read back. -/
theorem readSigned?_bigEndian {width : Nat} {n : Int} (hneg : n < 0)
    (hfits : -(byteCapacity width : Int) ≤ 2 * n) (rest : List UInt8) :
    readSigned? width (bigEndian width (n + byteCapacity width).toNat ++ rest) =
      some (n, rest) := by
  have hn : ((n + byteCapacity width).toNat : Int) = n + byteCapacity width :=
    Int.toNat_of_nonneg (by omega)
  have hlt : (n + byteCapacity width).toNat < byteCapacity width := by omega
  unfold readSigned?
  rw [readNatural?_bigEndian hlt, Option.map_some]
  have hsign : ¬2 * (n + byteCapacity width).toNat < byteCapacity width := by omega
  simp only [if_neg hsign, hn, Int.add_sub_cancel]

/-- An integer without a sign behind the marker for its width. -/
theorem read?_unsigned {marker : UInt8} {width n : Nat}
    (hmarker : (marker, width) ∈ [((0xcc : UInt8), 1), (0xcd, 2), (0xce, 4), (0xcf, 8)])
    (h : n < byteCapacity width) (rest : List UInt8) :
    Token.read? (marker :: bigEndian width n ++ rest) = some (.unsigned n, rest) := by
  have hread := readNatural?_bigEndian h rest
  simp only [List.mem_cons, Prod.mk.injEq, List.not_mem_nil, or_false] at hmarker
  rw [List.cons_append]
  obtain ⟨rfl, rfl⟩ | ⟨rfl, rfl⟩ | ⟨rfl, rfl⟩ | ⟨rfl, rfl⟩ := hmarker <;>
    rw [Token.read?_marked (by decide) (by decide)] <;>
    simp [Token.readMarked?, hread]

/-- An integer with a sign behind the marker for its width. -/
theorem read?_signed {marker : UInt8} {width : Nat} {n : Int}
    (hmarker : (marker, width) ∈ [((0xd0 : UInt8), 1), (0xd1, 2), (0xd2, 4), (0xd3, 8)])
    (hneg : n < 0) (h : -(byteCapacity width : Int) ≤ 2 * n) (rest : List UInt8) :
    Token.read? (marker :: bigEndian width (n + byteCapacity width).toNat ++ rest) =
      some (.signed n, rest) := by
  have hread := readSigned?_bigEndian hneg h rest
  simp only [List.mem_cons, Prod.mk.injEq, List.not_mem_nil, or_false] at hmarker
  rw [List.cons_append]
  obtain ⟨rfl, rfl⟩ | ⟨rfl, rfl⟩ | ⟨rfl, rfl⟩ | ⟨rfl, rfl⟩ := hmarker <;>
    rw [Token.read?_marked (by decide) (by decide)] <;>
    simp [Token.readMarked?, hread]

/-- Bytes behind the marker for the width of their length. -/
theorem read?_sized {marker : UInt8} {width : Nat} {payload : List UInt8}
    (hmarker : (marker, width) ∈ [((0xd9 : UInt8), 1), (0xda, 2), (0xdb, 4)])
    (h : payload.length < byteCapacity width) (rest : List UInt8) :
    Token.read? (marker :: bigEndian width payload.length ++ payload ++ rest) =
      some (.bytes payload, rest) := by
  have hread := readSized?_append h rest
  simp only [List.mem_cons, Prod.mk.injEq, List.not_mem_nil, or_false] at hmarker
  rw [List.cons_append, List.cons_append]
  obtain ⟨rfl, rfl⟩ | ⟨rfl, rfl⟩ | ⟨rfl, rfl⟩ := hmarker <;>
    rw [Token.read?_marked (by decide) (by decide)] <;>
    simp only [Token.readMarked?, hread]
  all_goals rfl

/-! ## What is written -/

/-- A number is read back, bit for bit. -/
theorem read?_writeNumber (x : Binary64) (rest : List UInt8) :
    Token.read? (writeNumber x ++ rest) = some (.number x, rest) := by
  have hfits : x.bits.toNat < byteCapacity 8 := x.bits.toNat_lt
  have hread := readNatural?_bigEndian hfits rest
  rw [writeNumber, List.cons_append, Token.read?_marked (by decide) (by decide)]
  simp [Token.readMarked?, hread]

/-- A text is read back, as its bytes. -/
theorem read?_writeText {text : String} (h : (Text.toBytes text).length < 0x100000000)
    (rest : List UInt8) :
    Token.read? (writeText text ++ rest) = some (.bytes (Text.toBytes text), rest) := by
  unfold writeText
  dsimp only
  generalize Text.toBytes text = payload at h ⊢
  split_ifs with hshort hbyte hword
  · have hhead : 0xa0 + payload.length < 256 := by omega
    have hmark : ¬0xa0 + payload.length < 0x80 ∧ ¬0xa0 + payload.length < 0x90 ∧
        ¬0xa0 + payload.length < 0xa0 ∧ 0xa0 + payload.length < 0xc0 := by omega
    rw [List.append_assoc, Token.read?_single hhead]
    simp only [hmark, if_false, if_true, Nat.add_sub_cancel_left, split?_append, Option.map_some]
  · exact read?_sized (by decide) hbyte rest
  · exact read?_sized (by decide) hword rest
  · exact read?_sized (by decide) h rest

/-- An integer that is not negative is read back. -/
theorem read?_writeInteger_of_nonneg {n : Int} (hn : 0 ≤ n) (h : n < 0x8000000000000000)
    (rest : List UInt8) :
    Token.read? (writeInteger n ++ rest) = some (.unsigned n.toNat, rest) := by
  unfold writeInteger
  rw [if_pos hn]
  dsimp only
  have hlt : n.toNat < 0x8000000000000000 := by omega
  generalize n.toNat = k at hlt ⊢
  split_ifs with hsingle hbyte hword hlong
  · rw [Token.read?_single (by omega), if_pos hsingle]
  · exact read?_unsigned (by decide) hbyte rest
  · exact read?_unsigned (by decide) hword rest
  · exact read?_unsigned (by decide) hlong rest
  · exact read?_unsigned (by decide) (Nat.lt_trans hlt (by decide)) rest

/-- A negative integer is read back. -/
theorem read?_writeInteger_of_neg {n : Int} (hn : n < 0) (h : -0x8000000000000000 ≤ n)
    (rest : List UInt8) :
    Token.read? (writeInteger n ++ rest) = some (.signed n, rest) := by
  unfold writeInteger
  rw [if_neg (Int.not_le_of_gt hn)]
  split_ifs with hsingle hbyte hword hlong
  · have hmark : 0xe0 ≤ (n + 256).toNat ∧ (n + 256).toNat < 256 := by omega
    have hback : ((n + 256).toNat : Int) - 256 = n := by omega
    have hbelow : ¬(n + 256).toNat < 0x80 ∧ ¬(n + 256).toNat < 0x90 ∧ ¬(n + 256).toNat < 0xa0 ∧
        ¬(n + 256).toNat < 0xc0 ∧ ¬(n + 256).toNat < 0xe0 := by omega
    rw [Token.read?_single hmark.2]
    simp only [hbelow, if_false, hback]
  · exact @read?_signed _ 1 n (by decide) hn (by simp only [byteCapacity]; omega) rest
  · exact @read?_signed _ 2 n (by decide) hn (by simp only [byteCapacity]; omega) rest
  · exact @read?_signed _ 4 n (by decide) hn (by simp only [byteCapacity]; omega) rest
  · exact @read?_signed _ 8 n (by decide) hn (by simp only [byteCapacity]; omega) rest

/-- The head of a map is read back. -/
theorem read?_writeHead_map {count : Nat} (h : count < 16) (rest : List UInt8) :
    Token.read? (writeHead 0x80 count ++ rest) = some (.map count, rest) := by
  rw [writeHead, Token.read?_single (by omega), if_neg (by omega), if_pos (by omega),
    Nat.add_sub_cancel_left]

/-- The head of an array is read back. -/
theorem read?_writeHead_array {count : Nat} (h : count < 16) (rest : List UInt8) :
    Token.read? (writeHead 0x90 count ++ rest) = some (.array count, rest) := by
  rw [writeHead, Token.read?_single (by omega), if_neg (by omega), if_neg (by omega),
    if_pos (by omega), Nat.add_sub_cancel_left]

end Reckoner.Wire
