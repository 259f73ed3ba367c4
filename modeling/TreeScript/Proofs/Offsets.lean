import Mathlib.Data.List.Induction
import TreeScript.Proofs.Places

/-!
# Offsets in bytes

Lines and columns of a text, told by its bytes: a line begins behind each byte of a line feed, and
columns count the bytes behind it. No other character has such a byte in its encoding, so this is also
how positions are found character by character, and the offset of a line and a column leads back to the
byte, be it the first one of a character or not.
-/

namespace TreeScript.Text

/-! ## 1. Bytes -/

/-- The bytes of a text. -/
def bytes (s : String) : List UInt8 :=
  s.toUTF8.data.toList

theorem bytes_eq_flatMap (s : String) : bytes s = s.toList.flatMap String.utf8EncodeChar := by
  calc bytes s
    _ = bytes (String.ofList s.toList) := by rw [String.ofList_toList]
    _ = s.toList.flatMap String.utf8EncodeChar := by
      rw [bytes, String.toUTF8_eq_toByteArray, String.toByteArray_ofList, List.utf8Encode,
        List.data_toByteArray]

theorem size_eq_length (cs : List Char) : size cs = (cs.flatMap String.utf8EncodeChar).length := by
  induction cs with
  | nil => rfl
  | cons c cs ih =>
    rw [size, ih, List.flatMap_cons, List.length_append, String.length_utf8EncodeChar]

theorem size_toList (s : String) : size s.toList = s.utf8ByteSize := by
  rw [size_eq_length, ← bytes_eq_flatMap]
  rfl

/-- The byte of a line feed. -/
def lineFeed : UInt8 := 10

/-- A character beyond the first 128 has only bytes with the highest bit set. -/
theorem high_of_mem_utf8EncodeChar {c : Char} (hc : 127 < c.val.toNat) :
    ∀ b ∈ String.utf8EncodeChar c, 128 ≤ b.toNat := by
  have hhigh {n : Nat} (hlow : 128 ≤ n) (hlt : n < 256) : 128 ≤ (UInt8.ofNat n).toNat := by
    rwa [UInt8.toNat_ofNat_of_lt' hlt]
  intro b hb
  simp only [String.utf8EncodeChar, if_neg (Nat.not_le.2 hc)] at hb
  split at hb
  · simp only [List.mem_cons, List.not_mem_nil, or_false] at hb
    rcases hb with rfl | rfl <;> exact hhigh (by omega) (by omega)
  split at hb
  · simp only [List.mem_cons, List.not_mem_nil, or_false] at hb
    rcases hb with rfl | rfl | rfl <;> exact hhigh (by omega) (by omega)
  · simp only [List.mem_cons, List.not_mem_nil, or_false] at hb
    rcases hb with rfl | rfl | rfl | rfl <;> exact hhigh (by omega) (by omega)

/-- No other character has the byte of a line feed. -/
theorem lineFeed_notMem {c : Char} (h : c ≠ '\n') : lineFeed ∉ String.utf8EncodeChar c := by
  intro hmem
  by_cases hc : c.val.toNat ≤ 127
  · simp only [String.utf8EncodeChar, if_pos hc, List.mem_singleton] at hmem
    have hvalue : 10 = (UInt8.ofNat c.val.toNat).toNat := congrArg UInt8.toNat hmem
    rw [UInt8.toNat_ofNat_of_lt' (Nat.lt_of_le_of_lt hc (by decide))] at hvalue
    exact h (Char.toNat_inj.1 hvalue.symm)
  · exact absurd (high_of_mem_utf8EncodeChar (Nat.not_le.1 hc) _ hmem) (by decide)

/-! ## 2. Positions by bytes -/

/-- The position behind one more byte. -/
def Position.step (p : Position) (b : UInt8) : Position :=
  if b = lineFeed then ⟨p.line + 1, 0⟩ else ⟨p.line, p.column + 1⟩

theorem foldl_step_of_notMem {bs : List UInt8} (h : lineFeed ∉ bs) (p : Position) :
    bs.foldl Position.step p = ⟨p.line, p.column + bs.length⟩ := by
  induction bs generalizing p with
  | nil => rfl
  | cons b bs ih =>
    obtain ⟨hb, hbs⟩ := not_or.1 (mt List.mem_cons.2 h)
    rw [List.foldl_cons, Position.step, if_neg (Ne.symm hb), ih hbs, List.length_cons, Nat.add_assoc,
      Nat.add_comm 1]

/-- Moving on by characters is moving on by bytes. -/
theorem Position.advance_eq_foldl (p : Position) (offset : Nat) (cs : List Char) :
    Position.advance p offset cs =
      ((cs.flatMap String.utf8EncodeChar).take offset).foldl Position.step p := by
  induction cs generalizing p offset with
  | nil =>
    rw [List.flatMap_nil, List.take_nil]
    rfl
  | cons c cs ih =>
    have hlength := String.length_utf8EncodeChar c
    rw [Position.advance, List.flatMap_cons, List.take_append, List.foldl_append, hlength]
    by_cases hinside : offset < c.utf8Size
    · -- some bytes of the character, and none of them a line feed
      have hfeed : lineFeed ∉ (String.utf8EncodeChar c).take offset := by
        by_cases hc : c = '\n'
        · rw [hc] at hinside
          rw [Nat.lt_one_iff.1 hinside, List.take_zero]
          exact List.not_mem_nil
        · exact fun hmem => lineFeed_notMem hc (List.mem_of_mem_take hmem)
      rw [if_pos hinside, Nat.sub_eq_zero_of_le (Nat.le_of_lt hinside), List.take_zero,
        foldl_step_of_notMem hfeed, List.length_take, hlength, Nat.min_eq_left (Nat.le_of_lt hinside)]
      rfl
    · rw [if_neg hinside, List.take_of_length_le (by omega)]
      by_cases hc : c = '\n'
      · rw [if_pos hc, ih, hc]
        rfl
      · rw [if_neg hc, ih, foldl_step_of_notMem (lineFeed_notMem hc), hlength]

/-- The line of a byte of a text, counted from 1: the number of line feeds before it. -/
def lineOf (s : String) (i : Nat) : Nat :=
  1 + ((bytes s).take i).count lineFeed

/-- The column of a byte of a text, counted from 1: the number of bytes before it behind the last line
feed. -/
def columnOf (s : String) (i : Nat) : Nat :=
  1 + (((bytes s).take i).reverse.takeWhile (· ≠ lineFeed)).length

theorem foldl_step_eq (bs : List UInt8) :
    bs.foldl Position.step ⟨1, 0⟩ =
      ⟨1 + bs.count lineFeed, (bs.reverse.takeWhile (· ≠ lineFeed)).length⟩ := by
  induction bs using List.reverseRecOn with
  | nil => rfl
  | append_singleton bs b ih =>
    rw [List.foldl_append, ih, List.count_append, List.reverse_append]
    by_cases hb : b = lineFeed
    · simp [Position.step, hb, Nat.add_assoc]
    · simp [Position.step, hb]

theorem ofOffset_eq (s : String) (i : Nat) :
    (Position.ofOffset s.toList i).line = lineOf s i ∧
      (Position.ofOffset s.toList i).column + 1 = columnOf s i := by
  rw [Position.ofOffset, Position.advance_eq_foldl, ← bytes_eq_flatMap, foldl_step_eq]
  exact ⟨rfl, Nat.add_comm _ 1⟩

theorem offsetOf_le (cs : List Char) (line column : Nat) : offsetOf cs line column ≤ size cs := by
  rw [offsetOf]
  split
  · assumption
  · exact Nat.min_le_right _ _

/-- In a text whose size is a word, the offset is a sum of words that is cut off at the end. -/
theorem offsetOf_eq_word {cs : List Char} (h : size cs < UInt64.size) (line column : Nat) :
    offsetOf cs line column =
      min (UInt64.ofNat (size ((pieces cs).take (line - 1)).flatten) +
        UInt64.ofNat (column - 1)).toNat (size cs) := by
  have hword (a b : Nat) : (UInt64.ofNat a + UInt64.ofNat b).toNat = (a + b) % UInt64.size := by
    rw [← UInt64.ofNat_add]
    rfl
  rw [offsetOf, hword]
  generalize size ((pieces cs).take (line - 1)).flatten + (column - 1) = offset
  split
  next hle => rw [Nat.mod_eq_of_lt (Nat.lt_of_le_of_lt hle h), Nat.min_eq_left hle]
  next => rfl

/-- Line and column of a byte lead back to it, and no line and column lead out of the text, although
their offset is a sum of words that may wrap around. -/
theorem offsetOf_exact (s : String) :
    (∀ i ≤ s.utf8ByteSize, offsetOf s.toList (lineOf s i) (columnOf s i) = i) ∧
      (∀ line column, offsetOf s.toList line column ≤ s.utf8ByteSize) ∧
      (s.utf8ByteSize < UInt64.size → ∀ line column, offsetOf s.toList line column =
        min (UInt64.ofNat (size ((pieces s.toList).take (line - 1)).flatten) +
          UInt64.ofNat (column - 1)).toNat s.utf8ByteSize) := by
  rw [← size_toList]
  refine ⟨fun i hi => ?_, offsetOf_le s.toList, offsetOf_eq_word⟩
  obtain ⟨hline, hcolumn⟩ := ofOffset_eq s i
  rw [← hline, ← hcolumn, offsetOf_ofOffset hi]

/-- In a text of two bytes and two lines, the end is found again, and a column that is too large leads
to the start, where the sum of words has wrapped around. -/
theorem shortText_offset :
    2 ≤ "a\n".utf8ByteSize ∧ lineOf "a\n" 2 = 2 ∧ columnOf "a\n" 2 = 1 ∧
      offsetOf "a\n".toList 2 1 = 2 ∧ "a\n".utf8ByteSize < UInt64.size ∧
      offsetOf "a\n".toList 2 18446744073709551615 =
        min (UInt64.ofNat 2 + UInt64.ofNat 18446744073709551614).toNat 2 ∧
      offsetOf "a\n".toList 2 18446744073709551615 = 0 := by
  obtain ⟨hback, -, hword⟩ := offsetOf_exact "a\n"
  exact ⟨by decide, by decide, by decide, hback 2 (by decide), by decide, hword (by decide) 2 _,
    by decide⟩

example : offsetOf "é\n\n漢".toList 3 2 = 5 ∧ lineOf "é\n\n漢" 5 = 3 ∧ columnOf "é\n\n漢" 5 = 2 := by
  decide

end TreeScript.Text
