import Mathlib.Data.List.Induction
import Mathlib.Data.List.TakeWhile
import TreeScript.Proofs.TextLines
import TreeScript.Version

/-!
# Texts of versions

The texts that are read as a version, told as a grammar: one numeral, or two with a dot between them, and
blanks around. A numeral may have a plus sign and leading zeros. Reading gives the numbers that the
numerals stand for, as long as both fit in 32 bits.
-/

namespace TreeScript

/-! ## 1. Blanks around a text -/

namespace Text

/-- What a text is without the blanks around it: only blanks are left out, and none is left at the
ends. -/
structure Strips (cs core : List Char) : Prop where
  framed : ∃ front back, cs = front ++ core ++ back ∧ (∀ c ∈ front, isBlank c) ∧ ∀ c ∈ back, isBlank c
  first : ∀ c ∈ core.head?, ¬ isBlank c
  last : ∀ c ∈ core.getLast?, ¬ isBlank c

theorem not_isBlank_head?_dropWhile (cs : List Char) :
    ∀ c ∈ (cs.dropWhile isBlank).head?, ¬ isBlank c := by
  intro c hc
  have hnot := List.head?_dropWhile_not isBlank cs
  rw [Option.mem_def.1 hc] at hnot
  rw [hnot]
  exact Bool.false_ne_true

theorem dropWhile_isBlank_eq_self {cs : List Char} (h : ∀ c ∈ cs.head?, ¬ isBlank c) :
    cs.dropWhile isBlank = cs := by
  cases cs with
  | nil => rfl
  | cons c cs => exact List.dropWhile_cons_of_neg (h c rfl)

theorem trimEnd_append_blanks {core back : List Char} (hback : ∀ c ∈ back, isBlank c)
    (hlast : ∀ c ∈ core.getLast?, ¬ isBlank c) : trimEnd (core ++ back) = core := by
  have hreverse : ∀ c ∈ back.reverse, isBlank c := fun c hc => hback c (List.mem_reverse.1 hc)
  rw [← List.head?_reverse] at hlast
  rw [trimEnd, List.reverse_append, List.dropWhile_append_of_pos hreverse,
    dropWhile_isBlank_eq_self hlast, List.reverse_reverse]

theorem exists_trimEnd (cs : List Char) :
    ∃ back, cs = trimEnd cs ++ back ∧ (∀ c ∈ back, isBlank c) ∧
      ∀ c ∈ (trimEnd cs).getLast?, ¬ isBlank c := by
  refine ⟨(cs.reverse.takeWhile isBlank).reverse, ?_, ?_, ?_⟩
  · rw [trimEnd, ← List.reverse_append, List.takeWhile_append_dropWhile, List.reverse_reverse]
  · intro c hc
    exact List.mem_takeWhile_imp (List.mem_reverse.1 hc)
  · rw [trimEnd, List.getLast?_reverse]
    exact not_isBlank_head?_dropWhile cs.reverse

/-- Trimming gives the text without the blanks around it, and there is only one. -/
theorem trimBlank_eq_iff {cs core : List Char} : trimBlank cs = core ↔ Strips cs core := by
  constructor
  · rintro rfl
    obtain ⟨back, hcs, hback, hlast⟩ := exists_trimEnd (cs.dropWhile isBlank)
    refine ⟨⟨cs.takeWhile isBlank, back, ?_, fun c => List.mem_takeWhile_imp, hback⟩, ?_, hlast⟩
    · rw [trimBlank, List.append_assoc, ← hcs, List.takeWhile_append_dropWhile]
    · -- what is kept starts where the rest of the text does
      intro c hc
      apply not_isBlank_head?_dropWhile cs
      rw [hcs, List.head?_append, ← trimBlank, Option.mem_def.1 hc]
      rfl
  · rintro ⟨⟨front, back, rfl, hfront, hback⟩, hfirst, hlast⟩
    rw [trimBlank, List.append_assoc, List.dropWhile_append_of_pos hfront]
    cases core with
    | nil =>
      -- a text of blanks only
      rw [List.nil_append, List.dropWhile_eq_nil_iff.2 hback]
      rfl
    | cons c core =>
      rw [List.cons_append, List.dropWhile_cons_of_neg (hfirst c rfl)]
      exact trimEnd_append_blanks hback hlast

theorem Strips.of_notBlank {cs : List Char} (h : ∀ c ∈ cs, ¬ isBlank c) : Strips cs cs where
  framed := ⟨[], [], by simp⟩
  first c hc := h c (List.mem_of_mem_head? hc)
  last c hc := h c (List.mem_of_getLast? hc)

end Text

namespace Version

/-! ## 2. Numerals -/

/-- Decimal digits, at least one, and the number that they stand for. -/
inductive Digits : List Char → Nat → Prop where
  | one {digit : Nat} (h : digit < 10) : Digits [digit.digitChar] digit
  | more {cs : List Char} {n digit : Nat} (hn : Digits cs n) (h : digit < 10) :
    Digits (cs ++ [digit.digitChar]) (10 * n + digit)

/-- Digits, behind a plus sign or not. -/
inductive Numeral : List Char → Nat → Prop where
  | plain {cs : List Char} {n : Nat} (h : Digits cs n) : Numeral cs n
  | signed {cs : List Char} {n : Nat} (h : Digits cs n) : Numeral ('+' :: cs) n

theorem valueOf_append (cs : List Char) (c : Char) :
    valueOf (cs ++ [c]) = 10 * valueOf cs + (c.toNat - 48) := by
  rw [valueOf, List.foldl_append, Nat.mul_comm]
  rfl

theorem digitChar_of_isDigit {c : Char} (h : c.isDigit) :
    c.toNat - 48 < 10 ∧ (c.toNat - 48).digitChar = c := by
  obtain ⟨hlow, hhigh⟩ := Char.isDigit_iff_toNat.1 h
  rw [show '0'.toNat = 48 from rfl] at hlow
  rw [show '9'.toNat = 57 from rfl] at hhigh
  refine ⟨by omega, Char.toNat_inj.1 ?_⟩
  rw [Nat.toNat_digitChar_of_lt_ten (by omega)]
  omega

/-- Digits are the texts of digit characters, and stand for their value. -/
theorem digits_iff {cs : List Char} {n : Nat} :
    Digits cs n ↔ cs ≠ [] ∧ (∀ c ∈ cs, c.isDigit) ∧ valueOf cs = n := by
  constructor
  · intro h
    induction h with
    | @one digit h =>
      have hvalue : valueOf [digit.digitChar] = digit := by
        rw [← List.nil_append [digit.digitChar], valueOf_append,
          Nat.toNat_digitChar_sub_48_of_lt_ten h]
        exact Nat.zero_add digit
      exact ⟨List.cons_ne_nil _ _, by simp [Nat.isDigit_digitChar, h], hvalue⟩
    | more hn h ih =>
      obtain ⟨-, hdigits, rfl⟩ := ih
      refine ⟨by simp, ?_, ?_⟩
      · rw [List.forall_mem_append, List.forall_mem_singleton]
        exact ⟨hdigits, by simp [Nat.isDigit_digitChar, h]⟩
      · rw [valueOf_append, Nat.toNat_digitChar_sub_48_of_lt_ten h]
  · rintro ⟨hne, hdigits, rfl⟩
    -- along the digits from the last one, which is the lowest
    induction cs using List.reverseRecOn with
    | nil => exact absurd rfl hne
    | append_singleton cs c ih =>
      rw [List.forall_mem_append, List.forall_mem_singleton] at hdigits
      obtain ⟨hlt, hchar⟩ := digitChar_of_isDigit hdigits.2
      rw [valueOf_append]
      by_cases hcs : cs = []
      · rw [hcs, show valueOf [] = 0 from rfl, Nat.mul_zero, Nat.zero_add, List.nil_append]
        simpa only [hchar] using Digits.one hlt
      · simpa only [hchar] using Digits.more (ih hcs hdigits.1) hlt

theorem Digits.isDigit {cs : List Char} {n : Nat} (h : Digits cs n) : ∀ c ∈ cs, c.isDigit :=
  (digits_iff.1 h).2.1

theorem Numeral.mem {cs : List Char} {n : Nat} (h : Numeral cs n) : ∀ c ∈ cs, c = '+' ∨ c.isDigit := by
  cases h with
  | plain h => exact fun c hc => .inr (h.isDigit c hc)
  | signed h => exact List.forall_mem_cons.2 ⟨.inl rfl, fun c hc => .inr (h.isDigit c hc)⟩

theorem Numeral.dot_notMem {cs : List Char} {n : Nat} (h : Numeral cs n) : '.' ∉ cs :=
  fun hdot => absurd (h.mem _ hdot) (by decide)

theorem Numeral.not_isBlank {cs : List Char} {n : Nat} (h : Numeral cs n) :
    ∀ c ∈ cs, ¬ Text.isBlank c := by
  intro c hc
  rcases h.mem c hc with rfl | hdigit
  · decide
  · obtain ⟨hlt, hchar⟩ := digitChar_of_isDigit hdigit
    have hdigits : ∀ digit < 10, ¬ Text.isBlank digit.digitChar := by decide
    rw [← hchar]
    exact hdigits _ hlt

/-- The test that digits have to pass: there are some, and their number has 32 bits. -/
theorem digits_toNat_iff {digits : List Char} {n : UInt32} :
    (if digits ≠ [] ∧ digits.all Char.isDigit ∧ valueOf digits < UInt32.size then
      some (UInt32.ofNat (valueOf digits)) else none) = some n ↔ Digits digits n.toNat := by
  rw [digits_iff, Option.ite_none_right_eq_some, List.all_eq_true, Option.some.injEq]
  constructor
  · rintro ⟨⟨hne, hall, hlt⟩, rfl⟩
    exact ⟨hne, hall, (UInt32.toNat_ofNat_of_lt' hlt).symm⟩
  · rintro ⟨hne, hall, hvalue⟩
    rw [hvalue]
    exact ⟨⟨hne, hall, n.toNat_lt⟩, UInt32.ofNat_toNat⟩

/-- A number is read off the numerals for it. -/
theorem number?_eq_some_iff {cs : List Char} {n : UInt32} :
    number? cs = some n ↔ Numeral cs n.toNat := by
  simp only [number?]
  split
  next digits =>
    -- no digit looks like the sign
    rw [digits_toNat_iff]
    refine ⟨.signed, fun h => ?_⟩
    cases h with
    | plain h => exact absurd (h.isDigit _ List.mem_cons_self) (by decide)
    | signed h => exact h
  next hplus =>
    rw [digits_toNat_iff]
    refine ⟨.plain, fun h => ?_⟩
    cases h with
    | plain h => exact h
    | signed h => exact absurd rfl (hplus _)

theorem digits_repr (n : Nat) : Digits n.repr.toList n := by
  rw [digits_iff, Nat.toList_repr]
  refine ⟨Nat.toDigits_ne_nil, fun c hc => Nat.isDigit_of_mem_toDigits (by decide) (by decide) hc, ?_⟩
  calc valueOf (Nat.toDigits 10 n)
    _ = Nat.ofDigitChars 10 (Nat.toDigits 10 n) 0 := by
      simp only [valueOf, Nat.ofDigitChars, Nat.mul_comm]
    _ = n := Nat.ofDigitChars_ten_toDigits

/-! ## 3. Versions -/

/-- A text of a version with its two numbers, however large. The second one is zero if it is not
written. -/
inductive Written : List Char → Nat → Nat → Prop where
  | major {cs : List Char} {a : Nat} (ha : Numeral cs a) : Written cs a 0
  | both {front back : List Char} {a b : Nat} (ha : Numeral front a) (hb : Numeral back b) :
    Written (front ++ '.' :: back) a b

theorem Written.not_isBlank {cs : List Char} {a b : Nat} (h : Written cs a b) :
    ∀ c ∈ cs, ¬ Text.isBlank c := by
  cases h with
  | major ha => exact ha.not_isBlank
  | both ha hb =>
    rw [List.forall_mem_append, List.forall_mem_cons]
    exact ⟨ha.not_isBlank, by decide, hb.not_isBlank⟩

theorem written_iff_of_notMem {cs : List Char} {a b : Nat} (h : '.' ∉ cs) :
    Written cs a b ↔ Numeral cs a ∧ b = 0 := by
  constructor
  · intro hwritten
    cases hwritten with
    | major ha => exact ⟨ha, rfl⟩
    | both ha hb => exact absurd (List.mem_append_right _ List.mem_cons_self) h
  · rintro ⟨ha, rfl⟩
    exact .major ha

/-- The first dot is the one between the numerals. -/
theorem written_append_iff {front back : List Char} {a b : Nat} (h : '.' ∉ front) :
    Written (front ++ '.' :: back) a b ↔ Numeral front a ∧ Numeral back b := by
  constructor
  · intro hwritten
    generalize hcs : front ++ '.' :: back = cs at hwritten
    cases hwritten with
    | major ha => exact absurd (hcs ▸ List.mem_append_right _ List.mem_cons_self) ha.dot_notMem
    | both ha hb =>
      obtain ⟨rfl, rfl⟩ := Text.cut_inj h ha.dot_notMem hcs
      exact ⟨ha, hb⟩
  · rintro ⟨ha, hb⟩
    exact .both ha hb

/-- The numbers are what stands before and behind the first dot. -/
theorem parse?_eq_some_iff_trimBlank {s : String} {v : Version} :
    parse? s = some v ↔ Written (Text.trimBlank s.toList) v.major.toNat v.minor.toNat := by
  obtain ⟨major, minor⟩ := v
  simp only [parse?]
  generalize Text.trimBlank s.toList = cs
  by_cases hdot : '.' ∈ cs
  · obtain ⟨front, back, rfl, hfront⟩ := List.eq_append_cons_of_mem hdot
    have hbefore : ∀ c ∈ front, decide (c ≠ '.') = true := fun c hc =>
      decide_eq_true fun heq => hfront (heq ▸ hc)
    rw [List.takeWhile_append_of_pos hbefore, List.dropWhile_append_of_pos hbefore]
    simp [Option.bind_eq_some_iff, number?_eq_some_iff, written_append_iff hfront]
  · -- one numeral alone, and the minor number is the zero that was not written
    have hall : ∀ c ∈ cs, decide (c ≠ '.') = true := fun c hc =>
      decide_eq_true fun heq => hdot (heq ▸ hc)
    have hzero : 0 = minor ↔ minor.toNat = 0 := eq_comm.trans UInt32.toNat_inj.symm
    rw [List.takeWhile_eq_self_iff.2 hall, List.dropWhile_eq_nil_iff.2 hall]
    simp [Option.bind_eq_some_iff, number?_eq_some_iff, written_iff_of_notMem hdot, hzero]

theorem parse?_eq_some_iff {s : String} {v : Version} :
    parse? s = some v ↔
      ∃ core, Text.Strips s.toList core ∧ Written core v.major.toNat v.minor.toNat := by
  simp only [parse?_eq_some_iff_trimBlank, ← Text.trimBlank_eq_iff, exists_eq_left']

theorem parse?_eq_none_iff {s : String} :
    parse? s = none ↔
      ∀ core a b, Text.Strips s.toList core → Written core a b →
        UInt32.size ≤ a ∨ UInt32.size ≤ b := by
  rw [Option.eq_none_iff_forall_ne_some]
  constructor
  · intro hnone core a b hcore hwritten
    by_contra hfits
    obtain ⟨ha, hb⟩ := not_or.1 hfits
    refine hnone ⟨UInt32.ofNat a, UInt32.ofNat b⟩ (parse?_eq_some_iff.2 ⟨core, hcore, ?_⟩)
    show Written core (UInt32.ofNat a).toNat (UInt32.ofNat b).toNat
    rwa [UInt32.toNat_ofNat_of_lt' (Nat.not_le.1 ha), UInt32.toNat_ofNat_of_lt' (Nat.not_le.1 hb)]
  · intro hlarge v hv
    -- what was read fits
    obtain ⟨core, hcore, hwritten⟩ := parse?_eq_some_iff.1 hv
    rcases hlarge core _ _ hcore hwritten with hmajor | hminor
    · exact absurd v.major.toNat_lt (Nat.not_lt.2 hmajor)
    · exact absurd v.minor.toNat_lt (Nat.not_lt.2 hminor)

theorem written_text (v : Version) : Written v.text.toList v.major.toNat v.minor.toNat := by
  rw [text, String.toList_append, String.toList_append, List.append_assoc]
  exact .both (.plain (digits_repr _)) (.plain (digits_repr _))

theorem parse?_text (v : Version) : parse? v.text = some v := by
  have hwritten := written_text v
  exact parse?_eq_some_iff.2 ⟨_, .of_notBlank hwritten.not_isBlank, hwritten⟩

/-- Versions are read exactly: a text is read as a version just when it is the text of one, with blanks
around it or not, and both numbers have 32 bits. The text that shows a version is read as this version. -/
theorem parse?_exact :
    (∀ (s : String) (v : Version), parse? s = some v ↔
      ∃ core, Text.Strips s.toList core ∧ Written core v.major.toNat v.minor.toNat) ∧
    (∀ s : String, parse? s = none ↔
      ∀ core a b, Text.Strips s.toList core → Written core a b →
        UInt32.size ≤ a ∨ UInt32.size ≤ b) ∧
    ∀ v : Version, parse? v.text = some v := by
  refine ⟨?_, ?_, parse?_text⟩
  · intro s v
    exact parse?_eq_some_iff
  · intro s
    exact parse?_eq_none_iff

example :
    parse? "\u3000+007.4294967295\n" = some ⟨7, 4294967295⟩ ∧ parse? "1.2.3" = none ∧
      parse? "1." = none ∧ parse? "1 .2" = none ∧ parse? "-1" = none ∧ parse? "4294967296" = none := by
  decide

end Version

end TreeScript
