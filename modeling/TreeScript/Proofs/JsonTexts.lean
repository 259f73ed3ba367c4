import TreeScript.Json.Reader
import TreeScript.Json.Value

/-!
# JSON texts

A JSON value has many texts, which differ in the blanks between their tokens. `Written` says which
they are; the pretty text and the compact one are among them. The tokens of such a text are read back
as what was written: escapes give the characters of a string, digits a natural.
-/

namespace TreeScript.Json

/-! ## 1. Blanks -/

/-- A text of blanks. -/
def Blanks (cs : List Char) : Prop :=
  ∀ c ∈ cs, isBlank c

theorem blanks_nil : Blanks [] := by
  simp [Blanks]

theorem blanks_space : Blanks [' '] := by
  simp [Blanks, isBlank]

theorem blanks_newLine (level : Nat) : Blanks (newLine level) := by
  intro c hc
  rcases List.mem_cons.1 hc with rfl | hc
  · rfl
  · rw [List.eq_of_mem_replicate hc]
    rfl

theorem skipBlank_append {blanks : List Char} (h : Blanks blanks) (cs : List Char) :
    skipBlank (blanks ++ cs) = skipBlank cs :=
  List.dropWhile_append_of_pos h

theorem skipBlank_of_blanks {blanks : List Char} (h : Blanks blanks) : skipBlank blanks = [] := by
  have happend := skipBlank_append h []
  rwa [List.append_nil] at happend

/-- Blanks are skipped up to the first character that is none. -/
theorem skipBlank_append_cons {blanks : List Char} (h : Blanks blanks) {c : Char}
    (hc : isBlank c = false) (cs : List Char) : skipBlank (blanks ++ c :: cs) = c :: cs := by
  rw [skipBlank_append h, skipBlank, List.dropWhile_cons, hc]
  rfl

theorem skipColon_append {blanks : List Char} (h : Blanks blanks) (cs : List Char) :
    skipColon (blanks ++ ':' :: cs) = .ok cs := by
  rw [skipColon, skipBlank_append_cons h rfl]
  rfl

/-! ## 2. Texts of values -/

mutual

/-- The texts of a value, without blanks in front or behind. -/
inductive Written : Value → List Char → Prop where
  | null : Written .null ['n', 'u', 'l', 'l']
  | natural (n : Nat) : Written (.natural n) n.repr.toList
  | string (s : String) : Written (.string s) (stringText s)
  | emptyList {blanks : List Char} (hblanks : Blanks blanks) :
    Written (.list []) ('[' :: (blanks ++ [']']))
  | list {item : Value} {items : List Value} {blanks text tail : List Char}
    (hblanks : Blanks blanks) (hitem : Written item text) (htail : ItemsBehind items tail) :
    Written (.list (item :: items)) ('[' :: (blanks ++ (text ++ tail)))
  | emptyObject {blanks : List Char} (hblanks : Blanks blanks) :
    Written (.object []) ('\x7b' :: (blanks ++ ['\x7d']))
  | object {key : String} {value : Value} {members : List (String × Value)}
    {blanks colon blanks' text tail : List Char}
    (hblanks : Blanks blanks) (hcolon : Blanks colon) (hblanks' : Blanks blanks')
    (hvalue : Written value text) (htail : MembersBehind members tail) :
    Written (.object ((key, value) :: members))
      ('\x7b' :: (blanks ++ (stringText key ++ (colon ++ ':' :: (blanks' ++ (text ++ tail))))))

/-- The texts of the items behind the first one, up to the closing bracket. -/
inductive ItemsBehind : List Value → List Char → Prop where
  | close {blanks : List Char} (hblanks : Blanks blanks) : ItemsBehind [] (blanks ++ [']'])
  | next {item : Value} {items : List Value} {comma blanks text tail : List Char}
    (hcomma : Blanks comma) (hblanks : Blanks blanks) (hitem : Written item text)
    (htail : ItemsBehind items tail) :
    ItemsBehind (item :: items) (comma ++ ',' :: (blanks ++ (text ++ tail)))

/-- The texts of the members behind the first one, up to the closing bracket. -/
inductive MembersBehind : List (String × Value) → List Char → Prop where
  | close {blanks : List Char} (hblanks : Blanks blanks) :
    MembersBehind [] (blanks ++ ['\x7d'])
  | next {key : String} {value : Value} {members : List (String × Value)}
    {comma blanks colon blanks' text tail : List Char}
    (hcomma : Blanks comma) (hblanks : Blanks blanks) (hcolon : Blanks colon)
    (hblanks' : Blanks blanks') (hvalue : Written value text)
    (htail : MembersBehind members tail) :
    MembersBehind ((key, value) :: members) (comma ++ ',' :: (blanks ++
      (stringText key ++ (colon ++ ':' :: (blanks' ++ (text ++ tail))))))

end

mutual

/-- The pretty text is a text of its value. -/
theorem written_pretty (level : Nat) (value : Value) : Written value (value.pretty level) := by
  cases value with
  | null => exact .null
  | natural n => exact .natural n
  | string s => exact .string s
  | list items =>
    cases items with
    | nil => exact .emptyList blanks_nil
    | cons item items =>
      exact .list (blanks_newLine _) (written_pretty _ item) (itemsBehind_pretty level items)
  | object members =>
    cases members with
    | nil => exact .emptyObject blanks_nil
    | cons member members =>
      obtain ⟨key, value⟩ := member
      exact .object (blanks_newLine _) blanks_nil blanks_space (written_pretty _ value)
        (membersBehind_pretty level members)

theorem itemsBehind_pretty (level : Nat) (items : List Value) :
    ItemsBehind items (prettyItems level items) := by
  cases items with
  | nil => exact .close (blanks_newLine level)
  | cons item items =>
    exact .next blanks_nil (blanks_newLine _) (written_pretty _ item)
      (itemsBehind_pretty level items)

theorem membersBehind_pretty (level : Nat) (members : List (String × Value)) :
    MembersBehind members (prettyMembers level members) := by
  cases members with
  | nil => exact .close (blanks_newLine level)
  | cons member members =>
    obtain ⟨key, value⟩ := member
    exact .next blanks_nil (blanks_newLine _) blanks_nil blanks_space (written_pretty _ value)
      (membersBehind_pretty level members)

end

mutual

/-- The compact text is a text of its value. -/
theorem written_compact (value : Value) : Written value value.compact := by
  cases value with
  | null => exact .null
  | natural n => exact .natural n
  | string s => exact .string s
  | list items =>
    cases items with
    | nil => exact .emptyList blanks_nil
    | cons item items =>
      obtain ⟨tail, heq, htail⟩ := itemsBehind_compact item items
      rw [Value.compact, heq]
      exact .list blanks_nil (written_compact item) htail
  | object members =>
    cases members with
    | nil => exact .emptyObject blanks_nil
    | cons member members =>
      obtain ⟨key, value⟩ := member
      obtain ⟨tail, heq, htail⟩ := membersBehind_compact key value members
      rw [Value.compact, heq]
      exact .object blanks_nil blanks_nil blanks_nil (written_compact value) htail

theorem itemsBehind_compact (item : Value) (items : List Value) :
    ∃ tail, compactItems (item :: items) ++ [']'] = item.compact ++ tail ∧ ItemsBehind items tail := by
  cases items with
  | nil => exact ⟨[']'], by rw [compactItems], .close blanks_nil⟩
  | cons next items =>
    obtain ⟨tail, heq, htail⟩ := itemsBehind_compact next items
    refine ⟨',' :: (next.compact ++ tail), ?_, .next blanks_nil blanks_nil (written_compact next) htail⟩
    rw [compactItems, ← heq, List.append_assoc, List.cons_append]
    exact List.cons_ne_nil _ _

theorem membersBehind_compact (key : String) (value : Value) (members : List (String × Value)) :
    ∃ tail, compactMembers ((key, value) :: members) ++ ['\x7d'] =
        stringText key ++ ':' :: (value.compact ++ tail) ∧ MembersBehind members tail := by
  cases members with
  | nil =>
    refine ⟨['\x7d'], ?_, .close blanks_nil⟩
    rw [compactMembers, List.append_assoc, List.cons_append]
  | cons member members =>
    obtain ⟨next, nextValue⟩ := member
    obtain ⟨tail, heq, htail⟩ := membersBehind_compact next nextValue members
    refine ⟨',' :: (stringText next ++ ':' :: (nextValue.compact ++ tail)), ?_,
      .next blanks_nil blanks_nil blanks_nil blanks_nil (written_compact nextValue) htail⟩
    rw [compactMembers, ← heq]
    · simp only [List.append_assoc, List.cons_append]
    · exact List.cons_ne_nil _ _

end

/-! ## 3. Strings -/

theorem readStringFrom_quote (read rest : List Char) :
    readStringFrom read ('"' :: rest) = .ok (String.ofList read.reverse, rest) := by
  rw [readStringFrom, if_pos rfl]

theorem readStringFrom_escape {read cs rest : List Char} {c : Char}
    (h : readEscape cs = .ok (c, rest)) :
    readStringFrom read ('\\' :: cs) = readStringFrom (c :: read) rest := by
  rw [readStringFrom, if_neg (by decide), if_pos rfl]
  split
  next heq => cases h.symm.trans heq
  next heq =>
    cases h.symm.trans heq
    rfl

theorem readStringFrom_plain {read rest : List Char} {c : Char} (hquote : c ≠ '"')
    (hescape : c ≠ '\\') (hcontrol : ¬ c.toNat < 0x20) :
    readStringFrom read (c :: rest) = readStringFrom (c :: read) rest := by
  rw [readStringFrom, if_neg hquote, if_neg hescape, if_neg hcontrol]

theorem hexDigit?_hexDigit {n : Nat} (h : n < 16) : hexDigit? (hexDigit n) = some n := by
  have hall : ∀ n < 16, hexDigit? (hexDigit n) = some n := by decide
  exact hall n h

/-- A control character that has no letter of its own is read back from its code. -/
theorem readEscape_control {n : Nat} (h : n < 0x20) (rest : List Char) :
    readEscape ('u' :: '0' :: '0' :: hexDigit (n / 16) :: hexDigit (n % 16) :: rest) =
      .ok (Char.ofNat n, rest) := by
  have hhigh := hexDigit?_hexDigit (show n / 16 < 16 by omega)
  have hlow := hexDigit?_hexDigit (show n % 16 < 16 by omega)
  have hhex : readHex ('0' :: '0' :: hexDigit (n / 16) :: hexDigit (n % 16) :: rest) =
      .ok (n, rest) := by
    simp only [readHex, show hexDigit? '0' = some 0 from rfl, hhigh, hlow]
    congr 2
    omega
  -- no code below a blank is a surrogate
  have htrailing : isTrailingSurrogate n = false := by
    simp [isTrailingSurrogate]
    omega
  have hleading : isLeadingSurrogate n = false := by
    simp [isLeadingSurrogate]
    omega
  show readUnicode _ = _
  simp only [readUnicode, hhex, htrailing, hleading, Bool.false_eq_true, if_false]

/-- What is written for a character is read back as the character. -/
theorem readStringFrom_escapeChar (read : List Char) (c : Char) (rest : List Char) :
    readStringFrom read (escapeChar c ++ rest) = readStringFrom (c :: read) rest := by
  unfold escapeChar
  split
  case h_8 hquote hescape _ _ _ _ _ =>
    split
    next hcontrol =>
      have hread := readEscape_control hcontrol rest
      rw [Char.ofNat_toNat] at hread
      exact readStringFrom_escape hread
    next hcontrol => exact readStringFrom_plain hquote hescape hcontrol
  all_goals exact readStringFrom_escape rfl

/-- A string is read back up to its closing quote. -/
theorem readStringFrom_flatMap (read cs rest : List Char) :
    readStringFrom read (cs.flatMap escapeChar ++ '"' :: rest) =
      .ok (String.ofList (read.reverse ++ cs), rest) := by
  induction cs generalizing read with
  | nil => rw [List.flatMap_nil, List.nil_append, readStringFrom_quote, List.append_nil]
  | cons c cs ih =>
    rw [List.flatMap_cons, List.append_assoc, readStringFrom_escapeChar, ih, List.reverse_cons,
      List.append_assoc]
    rfl

theorem readString_flatMap (s : String) (rest : List Char) :
    readString (s.toList.flatMap escapeChar ++ '"' :: rest) = .ok (s, rest) := by
  rw [readString, readStringFrom_flatMap, List.reverse_nil, List.nil_append, String.ofList_toList]

theorem stringText_append (s : String) (rest : List Char) :
    stringText s ++ rest = '"' :: (s.toList.flatMap escapeChar ++ '"' :: rest) := by
  rw [stringText, List.cons_append, List.append_assoc]
  rfl

/-! ## 4. Naturals -/

/-- What may stand behind a value: the end of the text, a blank, a comma or a closing bracket. -/
def Ends (rest : List Char) : Prop :=
  ∀ c ∈ rest.head?, isBlank c ∨ c = ',' ∨ c = ']' ∨ c = '\x7d'

theorem ends_append_cons {blanks : List Char} (h : Blanks blanks) {c : Char}
    (hc : c = ',' ∨ c = ']' ∨ c = '\x7d') (cs : List Char) : Ends (blanks ++ c :: cs) := by
  cases blanks with
  | nil => simpa [Ends] using .inr hc
  | cons blank blanks => simpa [Ends] using .inl (h blank List.mem_cons_self)

/-- No number goes on behind a value. -/
theorem Ends.not_number {c : Char} {rest : List Char} (h : Ends (c :: rest)) :
    c.isDigit = false ∧ c ≠ '.' ∧ c ≠ 'e' ∧ c ≠ 'E' := by
  have hc := h c rfl
  simp only [isBlank, decide_eq_true_eq] at hc
  rcases hc with (rfl | rfl | rfl | rfl) | rfl | rfl | rfl <;> decide

/-- Digits are absorbed as a whole as long as their value fits. -/
theorem absorb_eq {digits : List Char} {significand : Nat}
    (h : Nat.ofDigitChars 10 digits significand ≤ maxSignificand) :
    absorb significand digits = (Nat.ofDigitChars 10 digits significand, []) := by
  induction digits generalizing significand with
  | nil => rfl
  | cons d ds ih =>
    rw [Nat.ofDigitChars_cons, Nat.mul_comm] at h ⊢
    -- the value of a part of the digits is not greater than that of all of them
    have hpart : significand * 10 + digitValue d ≤ maxSignificand := by
      refine Nat.le_trans ?_ h
      rw [Nat.ofDigitChars_eq_ofDigitChars_zero]
      have hpow : 0 < 10 ^ ds.length := Nat.pow_pos (by decide)
      exact Nat.le_trans (Nat.le_mul_of_pos_left _ hpow) (Nat.le_add_right _ _)
    rw [absorb, if_pos hpart]
    exact ih h

/-- The first digit of a natural is zero only for zero. -/
theorem head?_toDigits {n : Nat} (h : 0 < n) : (Nat.toDigits 10 n).head? ≠ some '0' := by
  induction n using Nat.strongRecOn with
  | ind n ih =>
    rw [Nat.toDigits_eq_if (by decide)]
    split
    next hlt =>
      have hall : ∀ n < 10, 0 < n → [n.digitChar].head? ≠ some '0' := by decide
      exact hall n hlt h
    next hle =>
      -- the last digit is not the first one, since there are more before it
      cases hfront : Nat.toDigits 10 (n / 10) with
      | nil => exact absurd hfront Nat.toDigits_ne_nil
      | cons c cs =>
        have hhead := ih (n / 10) (by omega) (by omega)
        rwa [hfront] at hhead

theorem Ends.not_digit {rest : List Char} (h : Ends rest) : startsWithDigit rest = false := by
  cases rest with
  | nil => rfl
  | cons c rest => exact h.not_number.1

/-- The digits in front of the end of a value are all of its digits. -/
theorem Ends.digits {digits rest : List Char} (h : Ends rest) (hdigits : ∀ c ∈ digits, c.isDigit) :
    (digits ++ rest).takeWhile Char.isDigit = digits ∧
      (digits ++ rest).dropWhile Char.isDigit = rest := by
  rw [List.takeWhile_append_of_pos hdigits, List.dropWhile_append_of_pos hdigits]
  cases rest with
  | nil => simp
  | cons c rest => simp [h.not_number.1]

theorem readAfterWhole_ends {rest : List Char} (h : Ends rest) (n : Nat) :
    readAfterWhole true n 0 rest = .ok (.integer n, rest) := by
  cases rest with
  | nil => rfl
  | cons c rest =>
    obtain ⟨-, hpoint, he, hE⟩ := h.not_number
    unfold readAfterWhole
    split
    next heq => exact absurd (List.cons.inj heq).1 hpoint
    next heq => exact absurd (List.cons.inj heq).1 he
    next heq => exact absurd (List.cons.inj heq).1 hE
    next => rfl

theorem exists_repr_eq_cons (n : Nat) : ∃ c cs, n.repr.toList = c :: cs ∧ c.isDigit := by
  have hdigits : ∀ c ∈ n.repr.toList, c.isDigit := by
    rw [Nat.toList_repr]
    exact fun c hc => Nat.isDigit_of_mem_toDigits (by decide) (by decide) hc
  cases hcs : n.repr.toList with
  | nil => exact absurd (Nat.toList_repr ▸ hcs) Nat.toDigits_ne_nil
  | cons c cs => exact ⟨c, cs, rfl, hdigits c (hcs ▸ List.mem_cons_self)⟩

/-- A natural of 64 bits is read back from its digits. -/
theorem readNumber_repr {n : Nat} (hn : n ≤ maxSignificand) {rest : List Char} (hrest : Ends rest) :
    readNumber true (n.repr.toList ++ rest) = .ok (.integer n, rest) := by
  rw [Nat.toList_repr]
  by_cases hzero : n = 0
  · subst hzero
    show readNumber true ('0' :: rest) = _
    rw [readNumber, if_pos rfl, hrest.not_digit]
    exact readAfterWhole_ends hrest 0
  · have hdigits : ∀ c ∈ Nat.toDigits 10 n, c.isDigit := fun c hc =>
      Nat.isDigit_of_mem_toDigits (by decide) (by decide) hc
    have hvalue : Nat.ofDigitChars 10 (Nat.toDigits 10 n) 0 = n := Nat.ofDigitChars_ten_toDigits
    have hhead := head?_toDigits (Nat.pos_of_ne_zero hzero)
    obtain ⟨htake, hdrop⟩ := hrest.digits hdigits
    have habsorb : absorb 0 (Nat.toDigits 10 n) = (n, []) := by
      rw [absorb_eq (by rwa [hvalue]), hvalue]
    -- the number has a first digit, which is not the zero that stands alone
    cases hcs : Nat.toDigits 10 n with
    | nil => exact absurd hcs Nat.toDigits_ne_nil
    | cons c cs =>
      rw [hcs] at hdigits hhead htake hdrop habsorb
      rw [List.cons_append] at htake hdrop ⊢
      rw [readNumber, if_neg (fun hc => hhead (by rw [hc]; rfl)),
        if_pos (hdigits c List.mem_cons_self), htake, hdrop, habsorb]
      exact readAfterWhole_ends hrest n

/-! ## 5. Where texts start and end -/

/-- A value starts with a character that is neither a blank nor closes a list, and only `null` with
the letter of `null`. -/
theorem Written.starts {value : Value} {text : List Char} (h : Written value text) :
    ∃ c cs, text = c :: cs ∧ isBlank c = false ∧ c ≠ ']' ∧ (c = 'n' → value = .null) := by
  cases h with
  | null => exact ⟨_, _, rfl, rfl, by decide, fun _ => rfl⟩
  | natural n =>
    obtain ⟨c, cs, heq, hdigit⟩ := exists_repr_eq_cons n
    refine ⟨c, cs, heq, ?_, ?_, ?_⟩
    · rw [← Bool.not_eq_true]
      intro hblank
      simp only [isBlank, decide_eq_true_eq] at hblank
      rcases hblank with rfl | rfl | rfl | rfl <;> cases hdigit
    · rintro rfl
      cases hdigit
    · rintro rfl
      cases hdigit
  | string s => exact ⟨_, _, rfl, rfl, by decide, fun hc => absurd hc (by decide)⟩
  | emptyList | list => exact ⟨_, _, rfl, rfl, by decide, fun hc => absurd hc (by decide)⟩
  | emptyObject | object => exact ⟨_, _, rfl, rfl, by decide, fun hc => absurd hc (by decide)⟩

theorem ItemsBehind.ends {items : List Value} {tail : List Char} (h : ItemsBehind items tail)
    (rest : List Char) : Ends (tail ++ rest) := by
  cases h with
  | close hblanks =>
    rw [List.append_assoc]
    exact ends_append_cons hblanks (by decide) _
  | next hcomma =>
    rw [List.append_assoc]
    exact ends_append_cons hcomma (by decide) _

theorem MembersBehind.ends {members : List (String × Value)} {tail : List Char}
    (h : MembersBehind members tail) (rest : List Char) : Ends (tail ++ rest) := by
  cases h with
  | close hblanks =>
    rw [List.append_assoc]
    exact ends_append_cons hblanks (by decide) _
  | next hcomma =>
    rw [List.append_assoc]
    exact ends_append_cons hcomma (by decide) _

end TreeScript.Json
