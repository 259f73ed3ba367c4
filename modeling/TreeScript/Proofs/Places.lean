import Mathlib
import TreeScript.Document.Report
import TreeScript.Proofs.Run
import TreeScript.Proofs.TextLines

/-!
# Places in reports

A document error counts bytes and ends lines at line feeds. Its report takes the byte offset for a
number of characters and ends lines at seven characters. The report names the line of the error where
both ways of counting meet: always if the text before the error has only characters of one byte, and
no line ends but line feeds, alone or behind a carriage return.
-/

namespace TreeScript

/-! ## 1. Offsets and positions -/

namespace Text

theorem size_append (front back : List Char) : size (front ++ back) = size front + size back := by
  induction front with
  | nil => exact (Nat.zero_add _).symm
  | cons c front ih => rw [List.cons_append, size, ih, size, Nat.add_assoc]

theorem size_reverse (cs : List Char) : size cs.reverse = size cs := by
  induction cs with
  | nil => rfl
  | cons c cs ih =>
    rw [List.reverse_cons, size_append, ih, size, Nat.add_comm]
    rfl

theorem Position.advance_zero (p : Position) (cs : List Char) : Position.advance p 0 cs = p := by
  cases cs with
  | nil => rfl
  | cons c cs => exact if_pos c.utf8Size_pos

theorem Position.advance_succ {c : Char} (hc : c.utf8Size = 1) (p : Position) (n : Nat)
    (cs : List Char) :
    Position.advance p (n + 1) (c :: cs) =
      if c = '\n' then Position.advance ⟨p.line + 1, 0⟩ n cs
      else Position.advance ⟨p.line, p.column + 1⟩ n cs := by
  rw [Position.advance, if_neg (by omega), hc, Nat.add_sub_cancel]

/-- The lines before a position and its column make up the bytes before it. -/
theorem size_before_advance {offset : Nat} {cs : List Char} (h : offset ≤ size cs) (line : List Char)
    (number : Nat) :
    number ≤ (Position.advance ⟨number, size line⟩ offset cs).line ∧
      size ((piecesFrom line cs).take
          ((Position.advance ⟨number, size line⟩ offset cs).line - number)).flatten +
        (Position.advance ⟨number, size line⟩ offset cs).column = size line + offset := by
  induction cs generalizing offset line number with
  | nil =>
    obtain rfl : offset = 0 := Nat.le_zero.1 h
    simp [Position.advance, size]
  | cons c cs ih =>
    rw [size] at h
    rw [Position.advance, piecesFrom]
    by_cases hinside : offset < c.utf8Size
    · rw [if_pos hinside]
      simp [size]
    rw [if_neg hinside]
    have hrest : offset - c.utf8Size ≤ size cs := by omega
    by_cases hfeed : c = '\n'
    · -- the line ends here, and the next one is empty so far
      rw [if_pos hfeed, if_pos hfeed]
      obtain ⟨hle, hsize⟩ := ih hrest [] (number + 1)
      rw [show size [] = 0 from rfl] at hle hsize
      generalize Position.advance ⟨number + 1, 0⟩ (offset - c.utf8Size) cs = p at hle hsize ⊢
      refine ⟨by omega, ?_⟩
      rw [show p.line - number = p.line - (number + 1) + 1 by omega, List.take_succ_cons,
        List.flatten_cons, size_append, size_reverse, size]
      omega
    · rw [if_neg hfeed, if_neg hfeed]
      have hline : size line + c.utf8Size = size (c :: line) := Nat.add_comm _ _
      obtain ⟨hle, hsize⟩ := ih hrest (c :: line) number
      rw [← hline] at hle hsize
      refine ⟨hle, hsize.trans ?_⟩
      omega

/-- Going to a position and back leads to the same offset. -/
theorem offsetOf_ofOffset {offset : Nat} {cs : List Char} (h : offset ≤ size cs) :
    offsetOf cs (Position.ofOffset cs offset).line ((Position.ofOffset cs offset).column + 1) =
      offset := by
  have hsize := (size_before_advance h [] 1).2
  rw [show size [] = 0 from rfl, Nat.zero_add] at hsize
  simp only [offsetOf, pieces, Position.ofOffset, Nat.add_sub_cancel, hsize, if_pos h]

/-- A position stands for a byte of a text. Columns of bytes count from 1. -/
def Denotes (cs : List Char) (position : Position) (byte : Nat) : Prop :=
  byte < size cs ∧ 0 < position.column ∧
    Position.ofOffset cs byte = ⟨position.line, position.column - 1⟩
deriving Decidable

theorem Denotes.offsetOf_eq {cs : List Char} {position : Position} {byte : Nat}
    (h : Denotes cs position byte) : offsetOf cs position.line position.column = byte := by
  obtain ⟨hbyte, hcolumn, hposition⟩ := h
  have hback := offsetOf_ofOffset (Nat.le_of_lt hbyte)
  rw [hposition] at hback
  rwa [Nat.sub_add_cancel hcolumn] at hback

end Text

open TreeScript.Text (Position Denotes size)

/-! ## 2. Lines of a report -/

namespace Report

theorem start_le_of_mem_numberLines {number start : Nat} {lines : List (List Char)} {line : Line}
    (h : line ∈ numberLines number start lines) : start ≤ line.start := by
  induction lines generalizing number start with
  | nil => cases h
  | cons chars rest ih =>
    rcases List.mem_cons.1 h with rfl | h
    · exact Nat.le_refl start
    · exact Nat.le_trans (Nat.le_add_right ..) (ih h)

theorem lineAt?_cons {line : Line} {offset : Nat} (h : line.start ≤ offset) (lines : List Line) :
    lineAt? (line :: lines) offset = some ((lineAt? lines offset).getD line) := by
  have hkept : (decide (line.start ≤ offset)) = true := decide_eq_true h
  rw [lineAt?, List.filter_cons, if_pos hkept, List.getLast?_cons]
  rfl

theorem lineAt?_first {number start offset : Nat} {chars : List Char} {rest : List (List Char)}
    (h : start ≤ offset) (hrest : rest = [] ∨ offset < start + chars.length) :
    lineAt? (numberLines number start (chars :: rest)) offset = some ⟨number, start, chars⟩ := by
  have hnone : lineAt? (numberLines (number + 1) (start + chars.length) rest) offset = none := by
    rcases hrest with rfl | hlt
    · rfl
    · rw [lineAt?, List.getLast?_eq_none_iff, List.filter_eq_nil_iff]
      intro line hline
      have hstart := start_le_of_mem_numberLines hline
      rw [decide_eq_true_eq]
      omega
  rw [numberLines, lineAt?_cons h, hnone, Option.getD_none]

theorem lineAt?_later {number start offset : Nat} {chars : List Char} {rest : List (List Char)}
    (h : start + chars.length ≤ offset) (hrest : rest ≠ []) :
    lineAt? (numberLines number start (chars :: rest)) offset =
      lineAt? (numberLines (number + 1) (start + chars.length) rest) offset := by
  obtain ⟨next, rest, rfl⟩ := List.exists_cons_of_ne_nil hrest
  rw [numberLines, lineAt?_cons (Nat.le_trans (Nat.le_add_right ..) h), numberLines, lineAt?_cons h,
    Option.getD_some]

/-- The number of lines that end within the first `n` characters of a text. An end with nothing behind
it starts no line and does not count. -/
def linesEnded (n : Nat) : List Char → Nat
  | [] => 0
  | '\r' :: '\n' :: cs => if n < 2 ∨ cs = [] then 0 else linesEnded (n - 2) cs + 1
  | c :: cs =>
    if n < 1 ∨ cs = [] then 0
    else if endsLine c then linesEnded (n - 1) cs + 1
    else linesEnded (n - 1) cs

theorem linesEnded_zero (cs : List Char) : linesEnded 0 cs = 0 := by
  unfold linesEnded
  split
  · rfl
  · exact if_pos (.inl (by decide))
  · exact if_pos (.inl (by decide))

theorem cutLines_ne_nil {line cs : List Char} (h : line ≠ [] ∨ cs ≠ []) : cutLines line cs ≠ [] := by
  fun_induction cutLines line cs with
  | case1 line hempty =>
    rcases h with h | h
    · exact absurd (List.isEmpty_iff.1 hempty) h
    · exact absurd rfl h
  | case2 => exact List.cons_ne_nil _ _
  | case3 => exact List.cons_ne_nil _ _
  | case4 => exact List.cons_ne_nil _ _
  | case5 line c cs _ _ ih => exact ih (.inl (List.cons_ne_nil _ _))

/-- The line at an offset once a line has ended by `width` characters: this one, or one behind it. -/
theorem lineAt?_closed {number start offset length width : Nat} {chars cs : List Char}
    (h : start ≤ offset) (hwidth : 0 < width) (hlength : chars.length = length + width)
    (hbehind : cs ≠ [] → start + chars.length ≤ offset →
      ∃ found, lineAt? (numberLines (number + 1) (start + chars.length) (cutLines [] cs)) offset =
        some found ∧ found.number = number + 1 + linesEnded (offset - (start + chars.length)) cs) :
    ∃ found, lineAt? (numberLines number start (chars :: cutLines [] cs)) offset = some found ∧
      found.number = number + if offset - (start + length) < width ∨ cs = [] then 0
        else linesEnded (offset - (start + length) - width) cs + 1 := by
  split
  next hlast =>
    refine ⟨_, lineAt?_first h ?_, rfl⟩
    rcases hlast with hlt | rfl
    · right
      omega
    · exact .inl rfl
  next hlast =>
    obtain ⟨hge, hcs⟩ := not_or.1 hlast
    have hle : start + chars.length ≤ offset := by omega
    obtain ⟨found, hfound, hnumber⟩ := hbehind hcs hle
    refine ⟨found, (lineAt?_later hle (cutLines_ne_nil (.inr hcs))).trans hfound, ?_⟩
    rw [hnumber, hlength, Nat.sub_sub, Nat.add_assoc start]
    omega

/-- The line at an offset is found by counting the ends before it. -/
theorem lineAt?_cutLines {line cs : List Char} (hne : line ≠ [] ∨ cs ≠ []) (number : Nat)
    {start offset : Nat} (h : start ≤ offset) :
    ∃ found, lineAt? (numberLines number start (cutLines line cs)) offset = some found ∧
      found.number = number + linesEnded (offset - (start + line.length)) cs := by
  -- the offset may still lie in the line in progress: the difference is 0 then, and no end is counted
  fun_induction cutLines line cs generalizing number start with
  | case1 line hempty =>
    rcases hne with hne | hne
    · exact absurd (List.isEmpty_iff.1 hempty) hne
    · exact absurd rfl hne
  | case2 line hempty => exact ⟨_, lineAt?_first h (.inl rfl), rfl⟩
  | case3 line cs ih =>
    rw [linesEnded]
    apply lineAt?_closed h (by decide) List.length_reverse
    intro hcs hbehind
    exact ih (.inr hcs) (number + 1) hbehind
  | case4 line c cs hpair hends ih =>
    rw [linesEnded.eq_3 _ _ _ hpair, if_pos hends]
    apply lineAt?_closed h (by decide) List.length_reverse
    intro hcs hbehind
    exact ih (.inr hcs) (number + 1) hbehind
  | case5 line c cs hpair hends ih =>
    -- the same line goes on, one character longer
    obtain ⟨found, hfound, hnumber⟩ := ih (.inl (List.cons_ne_nil c line)) number h
    refine ⟨found, hfound, hnumber.trans ?_⟩
    rw [linesEnded.eq_3 _ _ _ hpair, if_neg hends, List.length_cons, Nat.sub_sub, Nat.add_assoc]
    split
    next hlast =>
      rcases hlast with hzero | rfl
      · rw [show offset - (start + (line.length + 1)) = 0 by omega, linesEnded_zero]
      · rfl
    next => rfl

theorem lineAt?_sourceLines (cs : List Char) (offset : Nat) :
    ∃ found, lineAt? (numberLines 1 0 (sourceLines cs)) offset = some found ∧
      found.number = linesEnded offset cs + 1 := by
  rw [sourceLines]
  split
  next hempty =>
    rw [List.isEmpty_iff.1 hempty]
    exact ⟨_, lineAt?_first (Nat.zero_le offset) (.inl rfl), rfl⟩
  next hempty =>
    have hcs : cs ≠ [] := fun hnil => hempty (List.isEmpty_iff.2 hnil)
    obtain ⟨found, hfound, hnumber⟩ := @lineAt?_cutLines [] cs (.inr hcs) 1 0 offset (Nat.zero_le _)
    exact ⟨found, hfound, hnumber.trans (Nat.add_comm _ _)⟩

/-! ## 3. Texts that are counted alike -/

/-- Whether the first `n` characters of a text have one byte each, and only line feeds end lines among
them, alone or behind a carriage return. -/
def plainTo : Nat → List Char → Bool
  | 0, _ => true
  | _, [] => true
  | n + 1, c :: cs =>
    c.utf8Size == 1 && (!endsLine c || c == '\n' || c == '\r' && cs.head? == some '\n') && plainTo n cs

theorem plainTo_cons {n : Nat} {c : Char} {cs : List Char} :
    plainTo (n + 1) (c :: cs) ↔
      c.utf8Size = 1 ∧ (endsLine c → c = '\n' ∨ c = '\r' ∧ cs.head? = some '\n') ∧ plainTo n cs := by
  rw [plainTo]
  cases endsLine c <;> simp [and_assoc]

theorem lt_length_of_plainTo {cs : List Char} {n : Nat} (h : plainTo n cs) (hn : n < size cs) :
    n < cs.length := by
  induction cs generalizing n with
  | nil => cases hn
  | cons c cs ih =>
    cases n with
    | zero => exact Nat.succ_pos _
    | succ n =>
      obtain ⟨hone, -, hplain⟩ := plainTo_cons.1 h
      rw [size] at hn
      exact Nat.succ_lt_succ (ih hplain (by omega))

/-- In a plain text the lines that end are those of the line feeds. -/
theorem advance_line_of_plainTo {cs : List Char} {n : Nat} (h : plainTo n cs) (hn : n < size cs)
    (p : Position) : (Position.advance p n cs).line = p.line + linesEnded n cs := by
  fun_induction linesEnded n cs generalizing p with
  | case1 => cases hn
  | case2 n cs hlast =>
    -- between the two characters of a line end the line goes on
    rcases n with - | - | n
    · rw [Position.advance_zero]
      rfl
    · rw [Position.advance_succ (by decide), if_neg (by decide), Position.advance_zero]
      rfl
    · rcases hlast with hlt | rfl
      · omega
      · exact absurd hn (by rw [show size ['\r', '\n'] = 2 by decide]; omega)
  | case3 n cs hlast ih =>
    obtain ⟨hge, -⟩ := not_or.1 hlast
    obtain ⟨n, rfl⟩ : ∃ m, n = m + 2 := ⟨n - 2, by omega⟩
    have hsize : size ('\r' :: '\n' :: cs) = size cs + 2 := by
      rw [size, size, show '\r'.utf8Size = 1 by decide, show '\n'.utf8Size = 1 by decide]
      omega
    have hplain : plainTo n cs := (plainTo_cons.1 (plainTo_cons.1 h).2.2).2.2
    rw [Nat.add_sub_cancel] at ih ⊢
    rw [Position.advance_succ (by decide), if_neg (by decide), Position.advance_succ (by decide),
      if_pos rfl, ih hplain (by omega)]
    show p.line + 1 + linesEnded n cs = p.line + (linesEnded n cs + 1)
    omega
  | case4 n c cs hpair hlast =>
    rcases n with - | n
    · rw [Position.advance_zero]
      rfl
    · have hone : c.utf8Size = 1 := (plainTo_cons.1 h).1
      rcases hlast with hlt | rfl
      · omega
      · rw [size, size] at hn
        omega
  | case5 n c cs hpair hlast hends ih =>
    obtain ⟨hge, -⟩ := not_or.1 hlast
    obtain ⟨n, rfl⟩ : ∃ m, n = m + 1 := ⟨n - 1, by omega⟩
    obtain ⟨hone, hfeed, hplain⟩ := plainTo_cons.1 h
    rw [size, hone] at hn
    -- a carriage return before a line feed is the case of the pair
    have hc : c = '\n' := by
      rcases hfeed hends with hc | ⟨hc, hnext⟩
      · exact hc
      · obtain ⟨rest, hrest⟩ := List.head?_eq_some_iff.1 hnext
        exact (hpair rest hc hrest).elim
    rw [Nat.add_sub_cancel] at ih ⊢
    rw [Position.advance_succ hone, if_pos hc, ih hplain (by omega)]
    show p.line + 1 + linesEnded n cs = p.line + (linesEnded n cs + 1)
    omega
  | case6 n c cs hpair hlast hends ih =>
    obtain ⟨hge, -⟩ := not_or.1 hlast
    obtain ⟨n, rfl⟩ : ∃ m, n = m + 1 := ⟨n - 1, by omega⟩
    obtain ⟨hone, -, hplain⟩ := plainTo_cons.1 h
    have hc : c ≠ '\n' := by
      rintro rfl
      exact hends (by decide)
    rw [size, hone] at hn
    rw [Nat.add_sub_cancel] at ih ⊢
    rw [Position.advance_succ hone, if_neg hc, ih hplain (by omega)]

/-! ## 4. The place that a report names -/

/-- A report says, behind its title and a margin, that it is about a line of a file. -/
def Names (report path : String) (line : Nat) : Prop :=
  ∃ title margin rest : String, ∃ column : Nat, '\n' ∉ title.toList ∧ (∀ c ∈ margin.toList, c = ' ') ∧
    report = title ++ "\n" ++ margin ++ "╭─[ " ++ path ++ ":" ++ line.repr ++ ":" ++ column.repr ++
      " ]" ++ "\n" ++ rest

/-- A report names one line at most. -/
theorem Names.line_inj {report path : String} {line line' : Nat} (h : Names report path line)
    (h' : Names report path line') : line = line' := by
  obtain ⟨title, margin, rest, column, htitle, hmargin, rfl⟩ := h
  obtain ⟨title', margin', rest', column', htitle', hmargin', heq⟩ := h'
  -- the title ends at the first line feed, the margin at the frame, and the path is known
  have hchars := congrArg String.toList heq
  simp only [String.toList_append, List.append_assoc] at hchars
  have hframe : ∀ {blanks : String}, (∀ c ∈ blanks.toList, c = ' ') → '╭' ∉ blanks.toList :=
    fun hblanks hmem => absurd (hblanks _ hmem) (by decide)
  have hdigits : ∀ n : Nat, ':' ∉ n.repr.toList := Text.notMem_repr (by decide)
  obtain ⟨-, hbehind⟩ := Text.cut_inj htitle htitle' hchars
  obtain ⟨-, hplace : ['─', '[', ' '] ++ _ = ['─', '[', ' '] ++ _⟩ :=
    Text.cut_inj (hframe hmargin) (hframe hmargin') hbehind
  have hnumbers := List.append_cancel_left (List.append_cancel_left hplace)
  obtain ⟨hline, -⟩ := Text.cut_inj (hdigits line) (hdigits line') (List.cons.inj hnumbers).2
  exact Nat.repr_inj.1 (String.toList_inj.1 hline)

theorem body_of_lt {content : Content} {source : Source}
    (h : source.text.toList.length < content.label.first) : body content source = [] :=
  if_pos h

/-- A report that marks the place it names shows the line of this place by its number. -/
theorem exists_body {content : Content} {source : Source} (hlabel : content.label.first = content.place)
    (h : content.place ≤ source.text.toList.length) :
    ∃ (margin : String) (column : Nat) (rest : List String), (∀ c ∈ margin.toList, c = ' ') ∧
      body content source =
        (margin ++ "╭─[ " ++ source.path ++ ":" ++
          ((linesEnded content.place source.text.toList + 1).repr ++ ":" ++ column.repr) ++ " ]") ::
            rest := by
  obtain ⟨found, hfound, hnumber⟩ := lineAt?_sourceLines source.text.toList content.place
  unfold body
  simp only [hlabel, if_neg (Nat.not_lt.2 h), hfound, hnumber]
  refine ⟨_, _, _, fun c hc => ?_, rfl⟩
  rw [String.toList_ofList] at hc
  exact List.eq_of_mem_replicate hc

/-- The first line of a report. -/
def heading (content : Content) : String :=
  "[" ++ content.code ++ "] Error: " ++ content.title

theorem text_eq (content : Content) (source : Source) :
    text content source =
      heading content ++ "\n" ++ String.join ((body content source).map (· ++ "\n")) :=
  String.join_cons

/-- What a report names: nothing if its place is behind the text, else the line of the place. -/
theorem names_text {content : Content} {source : Source} (hlabel : content.label.first = content.place)
    (hheading : '\n' ∉ (heading content).toList) (line : Nat) :
    Names (text content source) source.path line ↔
      content.place ≤ source.text.toList.length ∧
        line = linesEnded content.place source.text.toList + 1 := by
  rw [text_eq]
  by_cases h : content.place ≤ source.text.toList.length
  · obtain ⟨margin, column, rest, hmargin, hbody⟩ := exists_body hlabel h
    have hnames : Names (heading content ++ "\n" ++
        String.join ((body content source).map (· ++ "\n"))) source.path
        (linesEnded content.place source.text.toList + 1) := by
      refine ⟨_, margin, String.join (rest.map (· ++ "\n")), column, hheading, hmargin, ?_⟩
      rw [hbody, List.map_cons, String.join_cons]
      simp only [String.append_assoc]
    constructor
    · intro hline
      exact ⟨h, hline.line_inj hnames⟩
    · rintro ⟨-, rfl⟩
      exact hnames
  · -- nothing stands behind the heading
    refine ⟨?_, fun hline => absurd hline.1 h⟩
    rintro ⟨title, margin, rest, column, htitle, -, heq⟩
    rw [body_of_lt (by omega)] at heq
    have hchars := congrArg String.toList heq
    simp only [String.toList_append, List.append_assoc] at hchars
    obtain ⟨-, hbehind : [] = margin.toList ++ ('╭' :: _)⟩ := Text.cut_inj hheading htitle hchars
    exact absurd (List.append_eq_nil_iff.1 hbehind.symm).2 (List.cons_ne_nil _ _)

end Report

/-! ## 5. Errors of documents -/

namespace DocumentError

theorem names_malformed {source : Source} {position : Position} {byte : Nat}
    (h : Denotes source.text.toList position byte) (path : File.Path) (message : String) (line : Nat) :
    Report.Names ((malformed path position message).report source) source.path line ↔
      byte ≤ source.text.toList.length ∧
        line = Report.linesEnded byte source.text.toList + 1 := by
  rw [report, h.offsetOf_eq]
  refine Report.names_text rfl ?_ line
  simp [Report.heading]

end DocumentError

namespace Document

theorem path_of_parse {source : Source} {path : File.Path} {position : Position} {message : String}
    (h : parse source = .error (.malformed path position message)) : path = source.path := by
  unfold parse errorOfFault at h
  split at h
  · cases h
  · split at h <;> cases h <;> rfl

/-- Where the report of a malformed document says that the error is. The line is counted in characters
up to the byte of the error; it is the line of the error if the text before it is plain. -/
theorem parse_error_located {source : Source} {path : File.Path} {position : Position}
    {message : String} (herror : parse source = .error (.malformed path position message)) {byte : Nat}
    (hbyte : Denotes source.text.toList position byte) :
    (∀ line, Report.Names ((DocumentError.malformed path position message).report source) path line ↔
      byte ≤ source.text.toList.length ∧
        line = Report.linesEnded byte source.text.toList + 1) ∧
    (Report.plainTo byte source.text.toList →
      Report.Names ((DocumentError.malformed path position message).report source) path
        position.line) := by
  obtain rfl := path_of_parse herror
  have hnames := DocumentError.names_malformed hbyte source.path message
  refine ⟨hnames, fun hplain => (hnames _).2 ⟨?_, ?_⟩⟩
  · exact Nat.le_of_lt (Report.lt_length_of_plainTo hplain hbyte.1)
  · have hline : (Position.ofOffset source.text.toList byte).line = position.line := by
      rw [hbyte.2.2]
    rw [← hline, Position.ofOffset, Report.advance_line_of_plainTo hplain hbyte.1, Nat.add_comm]

/-- A second comma on the second line of a document. -/
def doubledComma : Source :=
  ⟨"\x7b\r\n  \"tag\": \"script\",,\r\n\x7d", "bad.json"⟩

theorem parse_doubledComma : parse doubledComma =
    .error (.malformed "bad.json" ⟨2, 19⟩ "key must be a string at line 2 column 19") :=
  Fallible.eq_error_of_failure? (by decide +kernel)

theorem doubledComma_located :
    parse doubledComma =
      .error (.malformed "bad.json" ⟨2, 19⟩ "key must be a string at line 2 column 19") ∧
    Denotes doubledComma.text.toList ⟨2, 19⟩ 21 ∧ Report.plainTo 21 doubledComma.text.toList ∧
    Report.Names
      ((DocumentError.malformed "bad.json" ⟨2, 19⟩ "key must be a string at line 2 column 19").report
        doubledComma) "bad.json" 2 := by
  have hbyte : Denotes doubledComma.text.toList ⟨2, 19⟩ 21 := by decide +kernel
  have hplain : Report.plainTo 21 doubledComma.text.toList := by decide +kernel
  exact ⟨parse_doubledComma, hbyte, hplain, (parse_error_located parse_doubledComma hbyte).2 hplain⟩

/-- A colon is missing behind a name with two characters of two bytes. -/
def missingColon : Source :=
  ⟨"\x7b\"éé\" 1\n\x7d", "doc.json"⟩

/-- The byte of the error is on the first line, but the eighth character is on the second. -/
theorem missingColon_mislocated :
    parse missingColon = .error (.malformed "doc.json" ⟨1, 9⟩ "expected `:` at line 1 column 9") ∧
    Denotes missingColon.text.toList ⟨1, 9⟩ 8 ∧
    ¬ Report.Names
      ((DocumentError.malformed "doc.json" ⟨1, 9⟩ "expected `:` at line 1 column 9").report
        missingColon) "doc.json" 1 ∧
    Report.Names
      ((DocumentError.malformed "doc.json" ⟨1, 9⟩ "expected `:` at line 1 column 9").report
        missingColon) "doc.json" 2 := by
  have hbyte : Denotes missingColon.text.toList ⟨1, 9⟩ 8 := by decide +kernel
  have hnames := DocumentError.names_malformed hbyte "doc.json" "expected `:` at line 1 column 9"
  refine ⟨Fallible.eq_error_of_failure? (by decide +kernel), hbyte, fun hfirst => ?_, ?_⟩
  · exact absurd ((hnames 1).1 hfirst) (by decide +kernel)
  · exact (hnames 2).2 (by decide +kernel)

end Document

end TreeScript
