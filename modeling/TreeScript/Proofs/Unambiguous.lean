import Mathlib
import TreeScript.Proofs.Listing

/-!
# Listings are unambiguous

Two instructions that look the same in a listing are the same, and two executables with one header and
one listing have the same code. Operands start at a fixed column behind mnemonics that do not reach it,
a target has no blank in it, and a quoted text can be read from left to right in one way only.
-/

namespace TreeScript

/-! ## 1. Quoted texts -/

namespace Text

/-- The character that a letter stands for behind a backslash. -/
def ofLetter? : Char → Option Char
  | '"' => some '"'
  | '\\' => some '\\'
  | 'n' => some '\n'
  | 'r' => some '\r'
  | 't' => some '\t'
  | '0' => some '\x00'
  | _ => none

/-- The ways to write a character inside quotes. -/
inductive Quotes (c : Char) : List Char → Prop where
  | letter {l : Char} (h : ofLetter? l = some c) : Quotes c ['\\', l]
  | code : Quotes c ('\\' :: 'u' :: '\x7b' :: (Nat.toDigits 16 c.toNat ++ ['\x7d']))
  | plain (h : c ≠ '\\') : Quotes c [c]

theorem quotes_quoteChar (c : Char) : Quotes c (quoteChar c) := by
  unfold quoteChar
  split
  case h_7 hescape _ _ _ _ =>
    split
    · exact .code
    · exact .plain hescape
  all_goals exact .letter rfl

theorem Quotes.ne_nil {c : Char} {text : List Char} (h : Quotes c text) : text ≠ [] := by
  cases h <;> exact List.cons_ne_nil _ _

/-- The first character that is written inside quotes, and what follows, are read in one way only. -/
theorem Quotes.append_inj {c d : Char} {text text' rest rest' : List Char} (hc : Quotes c text)
    (hd : Quotes d text') (h : text ++ rest = text' ++ rest') : c = d ∧ rest = rest' := by
  cases hc with
  | @letter l hl =>
    cases hd with
    | @letter l' hl' =>
      obtain ⟨hletter, hrest⟩ := List.cons.inj (List.cons.inj h).2
      rw [hletter] at hl
      exact ⟨Option.some.inj (hl.symm.trans hl'), hrest⟩
    | code =>
      -- the letter of a code stands for no character
      have hletter : l = 'u' := (List.cons.inj (List.cons.inj h).2).1
      rw [hletter] at hl
      cases hl
    | plain hplain => exact absurd (List.cons.inj h).1.symm hplain
  | code =>
    cases hd with
    | @letter l hl =>
      have hletter : 'u' = l := (List.cons.inj (List.cons.inj h).2).1
      rw [← hletter] at hl
      cases hl
    | code =>
      have hcode := (List.cons.inj (List.cons.inj (List.cons.inj h).2).2).2
      simp only [List.append_eq, List.append_assoc, List.singleton_append] at hcode
      have hbrace : ∀ n, '\x7d' ∉ Nat.toDigits 16 n :=
        notMem_toDigits (by decide) (by decide) (by decide)
      obtain ⟨hdigits, hrest⟩ := cut_inj (hbrace _) (hbrace _) hcode
      exact ⟨Char.toNat_inj.1 (toDigits_inj (by decide) (by decide) hdigits), hrest⟩
    | plain hplain => exact absurd (List.cons.inj h).1.symm hplain
  | plain hplain =>
    cases hd with
    | letter | code => exact absurd (List.cons.inj h).1 hplain
    | plain => exact List.cons.inj h

theorem flatMap_quoteChar_inj {cs ds : List Char}
    (h : cs.flatMap quoteChar = ds.flatMap quoteChar) : cs = ds := by
  induction cs generalizing ds with
  | nil =>
    cases ds with
    | nil => rfl
    | cons d ds =>
      exact absurd (List.append_eq_nil_iff.1 h.symm).1 (quotes_quoteChar d).ne_nil
  | cons c cs ih =>
    cases ds with
    | nil => exact absurd (List.append_eq_nil_iff.1 h).1 (quotes_quoteChar c).ne_nil
    | cons d ds =>
      rw [List.flatMap_cons, List.flatMap_cons] at h
      obtain ⟨rfl, hrest⟩ := (quotes_quoteChar c).append_inj (quotes_quoteChar d) h
      rw [ih hrest]

theorem quoted_inj {s t : String} (h : quoted s = quoted t) : s = t := by
  have hchars := (List.cons.inj (String.ofList_inj.1 h)).2
  exact String.toList_inj.1 (flatMap_quoteChar_inj (List.append_cancel_right hchars))

end Text

/-! ## 2. Instructions -/

namespace Instruction

theorem addressText_inj {m n : Nat} (h : addressText m = addressText n) : m = n :=
  Nat.repr_inj.1 ((String.append_right_inj "@").1 h)

theorem targetText_inj {target target' : Option Nat} (h : targetText target = targetText target') :
    target = target' := by
  have hmark (n : Nat) : addressText n ≠ "?" := by
    intro h
    have hchars := congrArg String.toList h
    rw [addressText, String.toList_append] at hchars
    exact absurd (List.cons.inj hchars).1 (by decide)
  cases target with
  | none =>
    cases target' with
    | none => rfl
    | some n => exact absurd h.symm (hmark n)
  | some m =>
    cases target' with
    | none => exact absurd h (hmark m)
    | some n => rw [addressText_inj h]

theorem blank_notMem_targetText (target : Option Nat) : ' ' ∉ (targetText target).toList := by
  cases target with
  | none => decide
  | some n =>
    rw [targetText, addressText, String.toList_append, List.mem_append, not_or]
    exact ⟨by decide, Text.notMem_repr (by decide) n⟩

/-- A text before a target is all that stands before the last blank. -/
theorem append_targetText_inj {front front' : String} {target target' : Option Nat}
    (h : front ++ " " ++ targetText target = front' ++ " " ++ targetText target') :
    front = front' ∧ target = target' := by
  have hchars := congrArg String.toList h
  simp only [String.toList_append, List.append_assoc] at hchars
  obtain ⟨hfront, htarget⟩ := Text.cut_last_inj (blank_notMem_targetText target)
    (blank_notMem_targetText target') hchars
  exact ⟨String.toList_inj.1 hfront, targetText_inj (String.toList_inj.1 htarget)⟩

theorem condition_inj {condition condition' : Condition} (h : condition.name = condition'.name) :
    condition = condition' := by
  cases condition <;> cases condition' <;> first | rfl | exact absurd h (by decide)

/-- The instructions with a mnemonic. -/
def Called : String → Instruction → Prop
  | "nop", i => i = .nop
  | "eval", i => ∃ expression, i = .eval expression
  | "store", i => ∃ name, i = .store name
  | "new", i => ∃ name, i = .declareNew name
  | "enter", i => i = .scopeEnter
  | "exit", i => i = .scopeExit
  | "reduce", i => ∃ name, i = .bufferReduce name
  | "mask", i => ∃ name, i = .mask name
  | "merge", i => ∃ name, i = .merge name
  | "mvright", i => i = .moveRight
  | "arith", i => ∃ operator, i = .arith operator
  | "load", i => ∃ text, i = .loadLiteral text
  | "clear", i => ∃ name, i = .clearBuffer name
  | "fault", i => i = .fault
  | "fetch", i => ∃ name, i = .fetch name
  | "jcond", i => ∃ condition target, i = .condJump condition target
  | "call", i => ∃ name, i = .call name
  | "exec", i => ∃ name, i = .exec name
  | "gosub", i => ∃ name, i = .subroutine name
  | "jump", i => ∃ target, i = .jump target
  | "goto", i => ∃ label target, i = .goto label target
  | "assert", i => ∃ condition target, i = .assert condition target
  | "mcall", i => ∃ method, i = .memberCall method
  | _, _ => False

theorem called_mnemonic (instruction : Instruction) : Called instruction.mnemonic instruction := by
  cases instruction with
  | nop | scopeEnter | scopeExit | moveRight | fault => exact rfl
  | condJump condition target | assert condition target => exact ⟨condition, target, rfl⟩
  | goto label target => exact ⟨label, target, rfl⟩
  | _ operand => exact ⟨operand, rfl⟩

/-- An instruction is given by its mnemonic and its operands. -/
theorem eq_of_parts {first second : Instruction} (hmnemonic : first.mnemonic = second.mnemonic)
    (hoperands : first.operands? = second.operands?) : first = second := by
  have hcalled : Called first.mnemonic second := hmnemonic ▸ called_mnemonic second
  cases first with
  | nop | scopeEnter | scopeExit | moveRight | fault => exact Eq.symm hcalled
  | eval s | loadLiteral s =>
    obtain ⟨t, rfl⟩ := hcalled
    rw [Text.quoted_inj (Option.some.inj hoperands)]
  | store s | declareNew s | bufferReduce s | mask s | merge s | arith s | clearBuffer s | fetch s
  | call s | exec s | subroutine s | memberCall s =>
    obtain ⟨t, rfl⟩ := hcalled
    rw [show s = t from Option.some.inj hoperands]
  | jump target =>
    obtain ⟨target', rfl⟩ := hcalled
    rw [addressText_inj (Option.some.inj hoperands)]
  | condJump condition target | assert condition target =>
    obtain ⟨condition', target', rfl⟩ := hcalled
    obtain ⟨hcondition, rfl⟩ := append_targetText_inj (Option.some.inj hoperands)
    rw [condition_inj hcondition]
  | goto label target =>
    obtain ⟨label', target', rfl⟩ := hcalled
    obtain ⟨rfl, rfl⟩ := append_targetText_inj (Option.some.inj hoperands)
    rfl

theorem mnemonic_facts (instruction : Instruction) :
    instruction.mnemonic.toList.length < operandColumn ∧ ' ' ∉ instruction.mnemonic.toList := by
  unfold mnemonic
  split <;> decide

/-- A mnemonic ends at the first blank of its columns. -/
theorem rightpad_mnemonic_inj {first second : Instruction}
    (h : List.rightpad operandColumn ' ' first.mnemonic.toList =
      List.rightpad operandColumn ' ' second.mnemonic.toList) : first.mnemonic = second.mnemonic := by
  obtain ⟨hlength, hblank⟩ := first.mnemonic_facts
  obtain ⟨hlength', hblank'⟩ := second.mnemonic_facts
  rw [List.rightpad, List.rightpad, ← Nat.sub_add_cancel (Nat.sub_pos_of_lt hlength),
    ← Nat.sub_add_cancel (Nat.sub_pos_of_lt hlength'), List.replicate_succ, List.replicate_succ] at h
  exact String.toList_inj.1 (Text.cut_inj hblank hblank' h).1

theorem text_of_none {instruction : Instruction} (h : instruction.operands? = none) :
    instruction.text = instruction.mnemonic := by
  rw [text, h]

theorem toList_text_of_some {instruction : Instruction} {operands : String}
    (h : instruction.operands? = some operands) :
    instruction.text.toList =
      List.rightpad operandColumn ' ' instruction.mnemonic.toList ++ operands.toList := by
  rw [text, h, String.toList_append, String.toList_ofList]

theorem length_rightpad_mnemonic (instruction : Instruction) :
    (List.rightpad operandColumn ' ' instruction.mnemonic.toList).length = operandColumn := by
  rw [List.length_rightpad]
  exact Nat.max_eq_left (Nat.le_of_lt instruction.mnemonic_facts.1)

/-- With operands, an instruction reaches the column of operands; without, it does not. -/
theorem text_ne {first second : Instruction} {operands : String} (hfirst : first.operands? = none)
    (hsecond : second.operands? = some operands) : first.text ≠ second.text := by
  intro h
  have hlength := congrArg List.length (congrArg String.toList h)
  rw [text_of_none hfirst, toList_text_of_some hsecond, List.length_append,
    length_rightpad_mnemonic] at hlength
  have hshort := first.mnemonic_facts.1
  omega

/-- Instructions with the same text are the same. -/
theorem text_inj {first second : Instruction} (h : first.text = second.text) : first = second := by
  cases hfirst : first.operands? with
  | none =>
    cases hsecond : second.operands? with
    | none =>
      rw [text_of_none hfirst, text_of_none hsecond] at h
      exact eq_of_parts h (hfirst.trans hsecond.symm)
    | some operands => exact absurd h (text_ne hfirst hsecond)
  | some operands =>
    cases hsecond : second.operands? with
    | none => exact absurd h.symm (text_ne hsecond hfirst)
    | some operands' =>
      have hchars := congrArg String.toList h
      rw [toList_text_of_some hfirst, toList_text_of_some hsecond] at hchars
      obtain ⟨hmnemonic, hoperands⟩ := List.append_inj hchars
        ((length_rightpad_mnemonic first).trans (length_rightpad_mnemonic second).symm)
      apply eq_of_parts (rightpad_mnemonic_inj hmnemonic)
      rw [hfirst, hsecond, String.toList_inj.1 hoperands]

end Instruction

/-! ## 3. Executables -/

theorem Code.line_inj {first second : Code} (hsize : first.size = second.size) {address : Nat}
    {instruction instruction' : Instruction}
    (h : first.line address instruction = second.line address instruction') :
    instruction = instruction' := by
  rw [Code.line, Code.line, hsize] at h
  exact Instruction.text_inj ((String.append_right_inj _).1 h)

/-- A code is given by the lines of its listing. -/
theorem Code.listing_inj {first second : Code} (h : Code.listing first = Code.listing second) :
    first = second := by
  have hsize : first.size = second.size := by
    rw [← Code.length_listing, h, Code.length_listing]
  apply Array.ext_getElem?
  intro address
  have hat : (Code.listing first)[address]? = (Code.listing second)[address]? := by rw [h]
  rw [Code.getElem?_listing, Code.getElem?_listing] at hat
  cases hfirst : first[address]? with
  | none =>
    rw [hfirst, Option.map_none] at hat
    exact (Option.map_eq_none_iff.1 hat.symm).symm
  | some instruction =>
    rw [hfirst, Option.map_some] at hat
    obtain ⟨instruction', hsecond, hline⟩ := Option.map_eq_some_iff.1 hat.symm
    rw [hsecond, Code.line_inj hsize hline.symm]

namespace Executable

/-- Executables with the same header and the same listing have the same code, if no operand that is
shown as it is has a line feed. Literals and expressions may be any texts. -/
theorem code_eq_of_listing_eq {first second : Executable} (hheader : first.header = second.header)
    (hfirst : ∀ instruction ∈ first.code, instruction.Unbroken)
    (hsecond : ∀ instruction ∈ second.code, instruction.Unbroken)
    (h : first.listing = second.listing) : first.code = second.code := by
  have hpieces : Text.pieces first.listing.toList = Text.pieces second.listing.toList := by rw [h]
  -- the header has the same pieces in both, however its texts break lines
  rw [pieces_listing, pieces_listing, hheader] at hpieces
  have hcode := List.append_cancel_left hpieces
  rw [Text.flatMap_pieces ((Code.unbroken_iff_listing _).2 hfirst),
    Text.flatMap_pieces ((Code.unbroken_iff_listing _).2 hsecond)] at hcode
  apply Code.listing_inj
  refine (List.map_inj_right fun line line' hline => ?_).1 hcode
  exact String.toList_inj.1 (List.append_cancel_right hline)

/-- Lines that come close to each other: names that end like targets, an empty name, and literals with
quotes, backslashes, line feeds and hidden characters. -/
def lookalikes : Executable where
  header := { name := "two\nlines", version := ⟨1, 0⟩ }
  code := #[
    .store "a @1", .store "", .goto "a" (some 1), .goto "a ?" none, .goto "" none,
    .loadLiteral "\\n", .loadLiteral "\n", .eval "\"\x07\"", .eval "\\u\x7b7\x7d", .jump 1,
    .condJump .done none, .fault]

/-- The same, with the code put together from two parts. -/
def lookalikesJoined : Executable where
  header := lookalikes.header
  code := lookalikes.code.extract 0 5 ++ lookalikes.code.extract 5 12

theorem lookalikes_code_eq :
    (∀ instruction ∈ lookalikes.code, instruction.Unbroken) ∧
      (∀ instruction ∈ lookalikesJoined.code, instruction.Unbroken) ∧
      lookalikes.listing = lookalikesJoined.listing ∧ lookalikes.code = lookalikesJoined.code := by
  have hfirst : ∀ instruction ∈ lookalikes.code, instruction.Unbroken := by decide
  have hsecond : ∀ instruction ∈ lookalikesJoined.code, instruction.Unbroken := by decide
  have hlisting : lookalikes.listing = lookalikesJoined.listing := rfl
  exact ⟨hfirst, hsecond, hlisting, code_eq_of_listing_eq rfl hfirst hsecond hlisting⟩

end Executable

end TreeScript
