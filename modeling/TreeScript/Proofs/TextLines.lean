import TreeScript.Text.Lines
import TreeScript.Text.Quoted

/-!
# Line feeds

Texts that are put together from lines, and what cutting them at their line feeds gives. A line that has
a line feed in it falls apart; one that has none, like a quoted text or a number, comes back whole.

A text that is written behind a semicolon may still be cut into lines that all start with one:
`feedsMarked` says when. `cut_inj` takes a text apart at a mark.
-/

namespace TreeScript.Text

/-! ## 1. Cutting lines that stand in a row -/

theorem piecesFrom_append (line cs rest : List Char) :
    piecesFrom line (cs ++ '\n' :: rest) = piecesFrom line (cs ++ ['\n']) ++ pieces rest := by
  induction cs generalizing line with
  | nil => rfl
  | cons c cs ih =>
    rw [List.cons_append, List.cons_append, piecesFrom, piecesFrom]
    split
    · rw [ih, List.cons_append]
    · exact ih (c :: line)

/-- Lines in a row are cut one by one. -/
theorem pieces_lines (lines : List (List Char)) :
    pieces (lines.flatMap (· ++ ['\n'])) = lines.flatMap fun line => pieces (line ++ ['\n']) := by
  induction lines with
  | nil => rfl
  | cons line lines ih =>
    rw [List.flatMap_cons, List.flatMap_cons, ← ih, List.append_assoc, List.singleton_append]
    exact piecesFrom_append [] line _

theorem piecesFrom_of_notMem {cs : List Char} (h : '\n' ∉ cs) (line : List Char) :
    piecesFrom line (cs ++ ['\n']) = [line.reverse ++ cs ++ ['\n']] := by
  induction cs generalizing line with
  | nil =>
    rw [List.nil_append, piecesFrom, if_pos rfl, List.reverse_cons, List.append_nil]
    rfl
  | cons c cs ih =>
    obtain ⟨hc, hcs⟩ := not_or.1 (mt List.mem_cons.2 h)
    rw [List.cons_append, piecesFrom, if_neg (Ne.symm hc), ih hcs, List.reverse_cons,
      List.append_assoc line.reverse, List.singleton_append]

/-- A line without a line feed is not cut. -/
theorem pieces_of_notMem {cs : List Char} (h : '\n' ∉ cs) : pieces (cs ++ ['\n']) = [cs ++ ['\n']] :=
  piecesFrom_of_notMem h []

/-- A piece has a line feed at its end and nowhere else, except for the last one, which has none if the
text has none at its end. -/
theorem mem_piecesFrom {line cs piece : List Char} (hline : '\n' ∉ line)
    (h : piece ∈ piecesFrom line cs) :
    ∃ front, '\n' ∉ front ∧
      (piece = front ++ ['\n'] ∨ piece = front ∧ cs.getLast? ≠ some '\n') := by
  have hfront : '\n' ∉ line.reverse := mt List.mem_reverse.1 hline
  induction cs generalizing line with
  | nil =>
    rw [piecesFrom] at h
    split at h
    · cases h
    · exact ⟨line.reverse, hfront, .inr ⟨List.mem_singleton.1 h, by decide⟩⟩
  | cons c cs ih =>
    rw [piecesFrom] at h
    split at h
    next hfeed =>
      rcases List.mem_cons.1 h with rfl | h
      · exact ⟨line.reverse, hfront, .inl (by rw [List.reverse_cons, hfeed])⟩
      · cases cs with
        | nil => cases h
        | cons next cs =>
          rw [List.getLast?_cons_cons]
          exact ih List.not_mem_nil h List.not_mem_nil
    next hfeed =>
      have hlonger : '\n' ∉ c :: line := mt List.mem_cons.1 (not_or.2 ⟨Ne.symm hfeed, hline⟩)
      obtain ⟨front, hnone, hpiece⟩ := ih hlonger h (mt List.mem_reverse.1 hlonger)
      refine ⟨front, hnone, hpiece.imp_right fun hlast => ⟨hlast.1, ?_⟩⟩
      cases cs with
      | nil => exact fun heq => hfeed (Option.some.inj heq)
      | cons next cs =>
        rw [List.getLast?_cons_cons]
        exact hlast.2

theorem mem_pieces {cs piece : List Char} (h : piece ∈ pieces cs) :
    ∃ front, '\n' ∉ front ∧ (piece = front ++ ['\n'] ∨ piece = front) := by
  obtain ⟨front, hfront, hpiece⟩ := mem_piecesFrom List.not_mem_nil h
  exact ⟨front, hfront, hpiece.imp_right And.left⟩

theorem mem_pieces_line {cs piece : List Char} (h : piece ∈ pieces (cs ++ ['\n'])) :
    ∃ front, '\n' ∉ front ∧ piece = front ++ ['\n'] := by
  obtain ⟨front, hfront, hpiece | ⟨-, hlast⟩⟩ := mem_piecesFrom List.not_mem_nil h
  · exact ⟨front, hfront, hpiece⟩
  · exact absurd List.getLast?_concat hlast

/-- Lines without line feeds come back whole. -/
theorem flatMap_pieces {lines : List String} (h : ∀ line ∈ lines, '\n' ∉ line.toList) :
    (lines.flatMap fun line => pieces (line.toList ++ ['\n'])) =
      lines.map fun line => line.toList ++ ['\n'] := by
  induction lines with
  | nil => rfl
  | cons line lines ih =>
    rw [List.forall_mem_cons] at h
    rw [List.flatMap_cons, List.map_cons, pieces_of_notMem h.1, ih h.2, List.singleton_append]

theorem exists_lines {texts : List (List Char)}
    (h : ∀ piece ∈ texts, ∃ front, '\n' ∉ front ∧ piece = front ++ ['\n']) :
    ∃ lines : List String, texts = lines.map fun line => line.toList ++ ['\n'] := by
  induction texts with
  | nil => exact ⟨[], rfl⟩
  | cons piece texts ih =>
    rw [List.forall_mem_cons] at h
    obtain ⟨⟨front, -, rfl⟩, htexts⟩ := h
    obtain ⟨lines, rfl⟩ := ih htexts
    exact ⟨String.ofList front :: lines, by rw [List.map_cons, String.toList_ofList]⟩

theorem notMem_dropLineEnd {front piece : List Char} (hfront : '\n' ∉ front)
    (h : piece = front ++ ['\n'] ∨ piece = front) : '\n' ∉ dropLineEnd piece := by
  unfold dropLineEnd
  rcases h with rfl | rfl
  · rw [List.reverse_append, List.reverse_singleton, List.singleton_append]
    split
    next rest heq =>
      intro hmem
      refine hfront (List.mem_reverse.1 ?_)
      rw [(List.cons.inj heq).2]
      exact List.mem_cons_of_mem _ (List.mem_reverse.1 hmem)
    next rest _ heq =>
      rw [← (List.cons.inj heq).2, List.reverse_reverse]
      exact hfront
    next hnone => exact absurd rfl (hnone front.reverse)
  · split
    next heq => exact absurd (List.mem_reverse.1 (heq ▸ List.mem_cons_self)) hfront
    next heq => exact absurd (List.mem_reverse.1 (heq ▸ List.mem_cons_self)) hfront
    next => exact hfront

/-- The lines of a text have no line feeds. -/
theorem notMem_of_mem_lines {s line : String} (h : line ∈ lines s) : '\n' ∉ line.toList := by
  obtain ⟨piece, hpiece, rfl⟩ := List.mem_map.1 h
  obtain ⟨front, hfront, hcases⟩ := mem_pieces hpiece
  rw [String.toList_ofList]
  exact notMem_dropLineEnd hfront hcases

/-! ## 2. Lines behind a semicolon -/

/-- Whether a semicolon follows every line feed. -/
def feedsMarked : List Char → Bool
  | [] => true
  | c :: cs => (c != '\n' || cs.head? == some ';') && feedsMarked cs

theorem feedsMarked_of_notMem {cs : List Char} (h : '\n' ∉ cs) : feedsMarked cs := by
  induction cs with
  | nil => rfl
  | cons c cs ih =>
    obtain ⟨hc, hcs⟩ := not_or.1 (mt List.mem_cons.2 h)
    rw [feedsMarked, ih hcs, bne_iff_ne.2 (Ne.symm hc)]
    rfl

/-- Behind a text without line feeds the marks are those of what follows. -/
theorem feedsMarked_append_of_notMem {front : List Char} (h : '\n' ∉ front) (cs : List Char) :
    feedsMarked (front ++ cs) = feedsMarked cs := by
  induction front with
  | nil => rfl
  | cons c front ih =>
    obtain ⟨hc, hfront⟩ := not_or.1 (mt List.mem_cons.2 h)
    rw [List.cons_append, feedsMarked, ih hfront, bne_iff_ne.2 (Ne.symm hc), Bool.true_or,
      Bool.true_and]

/-- What follows cannot mark a line feed at the end unless it starts with a semicolon. -/
theorem feedsMarked_append {rest : List Char} (h : rest.head? ≠ some ';') (cs : List Char) :
    feedsMarked (cs ++ rest) = (feedsMarked cs && feedsMarked rest) := by
  induction cs with
  | nil => rfl
  | cons c cs ih =>
    rw [List.cons_append, feedsMarked, feedsMarked, ih, Bool.and_assoc]
    cases cs with
    | nil =>
      rw [List.nil_append, beq_eq_false_iff_ne.2 h]
      rfl
    | cons next cs => rfl

theorem piecesFrom_marked (line cs : List Char) :
    (∀ piece ∈ piecesFrom line (cs ++ ['\n']), piece.head? = some ';') ↔
      (line.reverse ++ cs).head? = some ';' ∧ feedsMarked cs := by
  -- a line in progress may be empty, and then what follows has to start with the semicolon
  induction cs generalizing line with
  | nil =>
    rw [List.nil_append, piecesFrom, if_pos rfl, List.reverse_cons, List.append_nil]
    cases line.reverse with
    | nil => simp [piecesFrom]
    | cons c cs => simp [piecesFrom, feedsMarked]
  | cons c cs ih =>
    rw [List.cons_append, piecesFrom]
    split
    next hfeed =>
      rw [List.forall_mem_cons, ih, List.reverse_cons, hfeed, List.reverse_nil, List.nil_append,
        feedsMarked]
      cases line.reverse with
      | nil => simp
      | cons first front => simp
    next hfeed =>
      rw [ih, List.reverse_cons, List.append_assoc, List.singleton_append, feedsMarked,
        bne_iff_ne.2 hfeed, Bool.true_or, Bool.true_and]

/-- All lines of a text start with a semicolon just when the text does and one follows every line
feed. -/
theorem pieces_marked (cs : List Char) :
    (∀ piece ∈ pieces (cs ++ ['\n']), piece.head? = some ';') ↔
      cs.head? = some ';' ∧ feedsMarked cs :=
  piecesFrom_marked [] cs

/-! ## 3. Texts without line feeds -/

/-- What is the character of no digit is in no number. -/
theorem notMem_toDigits {c : Char} (hc : ∀ digit < 16, digit.digitChar ≠ c) {base : Nat}
    (hlow : 1 < base) (hhigh : base ≤ 16) (n : Nat) : c ∉ Nat.toDigits base n := by
  induction n using Nat.strongRecOn with
  | ind n ih =>
    rw [Nat.toDigits_eq_if hlow]
    split
    next hsmall => exact fun h => hc n (by omega) (List.mem_singleton.1 h).symm
    next hlarge =>
      have hdigit : n % base < 16 := Nat.lt_of_lt_of_le (Nat.mod_lt n (by omega)) hhigh
      rw [List.mem_append, not_or]
      exact ⟨ih _ (Nat.div_lt_self (by omega) hlow),
        fun h => hc _ hdigit (List.mem_singleton.1 h).symm⟩

theorem notMem_repr {c : Char} (hc : ∀ digit < 16, digit.digitChar ≠ c) (n : Nat) :
    c ∉ n.repr.toList := by
  rw [Nat.toList_repr]
  exact notMem_toDigits hc (by decide) (by decide) n

theorem notMem_quoteChar (c : Char) : '\n' ∉ quoteChar c := by
  unfold quoteChar
  split
  · decide
  · decide
  · decide
  · decide
  · decide
  · decide
  next hfeed _ _ _ =>
    split
    · rw [List.mem_cons, List.mem_cons, List.mem_cons, List.mem_append, not_or, not_or, not_or, not_or]
      exact ⟨by decide, by decide, by decide, notMem_toDigits (by decide) (by decide) (by decide) _,
        by decide⟩
    · exact fun h => hfeed (List.mem_singleton.1 h).symm

/-- A quoted text is one line. -/
theorem notMem_quoted (s : String) : '\n' ∉ (quoted s).toList := by
  rw [quoted, String.toList_ofList, List.mem_cons, List.mem_append, List.mem_flatMap, not_or, not_or]
  refine ⟨by decide, ?_, by decide⟩
  rintro ⟨c, -, h⟩
  exact notMem_quoteChar c h

/-! ## 4. Texts that are taken apart -/

/-- Texts that are cut at the first of their marks have equal parts. -/
theorem cut_inj {mark : Char} {front front' back back' : List Char} (hfront : mark ∉ front)
    (hfront' : mark ∉ front') (h : front ++ mark :: back = front' ++ mark :: back') :
    front = front' ∧ back = back' := by
  induction front generalizing front' with
  | nil =>
    cases front' with
    | nil => exact ⟨rfl, (List.cons.inj h).2⟩
    | cons c cs => exact absurd ((List.cons.inj h).1 ▸ List.mem_cons_self) hfront'
  | cons c cs ih =>
    cases front' with
    | nil => exact absurd ((List.cons.inj h).1 ▸ List.mem_cons_self) hfront
    | cons d ds =>
      obtain ⟨rfl, hrest⟩ := List.cons.inj h
      obtain ⟨rfl, hback⟩ := ih (mt (List.mem_cons_of_mem c) hfront)
        (mt (List.mem_cons_of_mem c) hfront') hrest
      exact ⟨rfl, hback⟩

theorem cut_last_inj {mark : Char} {front front' back back' : List Char} (hback : mark ∉ back)
    (hback' : mark ∉ back') (h : front ++ mark :: back = front' ++ mark :: back') :
    front = front' ∧ back = back' := by
  -- the last mark is the first one from behind
  have hreverse := congrArg List.reverse h
  simp only [List.reverse_append, List.reverse_cons, List.append_assoc, List.singleton_append]
    at hreverse
  obtain ⟨hbacks, hfronts⟩ := cut_inj (mt List.mem_reverse.1 hback) (mt List.mem_reverse.1 hback')
    hreverse
  exact ⟨List.reverse_inj.1 hfronts, List.reverse_inj.1 hbacks⟩

theorem digitChar_inj : ∀ m < 16, ∀ n < 16, m.digitChar = n.digitChar → m = n := by
  decide

theorem toDigits_inj {base : Nat} (hlow : 1 < base) (hhigh : base ≤ 16) {m n : Nat}
    (h : Nat.toDigits base m = Nat.toDigits base n) : m = n := by
  induction m using Nat.strongRecOn generalizing n with
  | ind m ih =>
    rw [Nat.toDigits_eq_if hlow, Nat.toDigits_eq_if (n := n) hlow] at h
    -- a number of one digit has nothing before its last digit, a longer one has
    by_cases hm : m < base <;> by_cases hn : n < base
    · rw [if_pos hm, if_pos hn] at h
      exact digitChar_inj m (by omega) n (by omega) (List.singleton_inj.1 h)
    · rw [if_pos hm, if_neg hn, ← List.nil_append [m.digitChar]] at h
      exact absurd (List.append_inj' h rfl).1.symm Nat.toDigits_ne_nil
    · rw [if_neg hm, if_pos hn, ← List.nil_append [n.digitChar]] at h
      exact absurd (List.append_inj' h rfl).1 Nat.toDigits_ne_nil
    · rw [if_neg hm, if_neg hn] at h
      obtain ⟨hfront, hlast⟩ := List.append_inj' h rfl
      have hquotient : m / base = n / base := ih _ (Nat.div_lt_self (by omega) hlow) hfront
      have hdigit : ∀ k, k % base < 16 := fun k =>
        Nat.lt_of_lt_of_le (Nat.mod_lt k (by omega)) hhigh
      have hremainder : m % base = n % base :=
        digitChar_inj _ (hdigit m) _ (hdigit n) (List.singleton_inj.1 hlast)
      rw [← Nat.div_add_mod m base, ← Nat.div_add_mod n base, hquotient, hremainder]

end TreeScript.Text
