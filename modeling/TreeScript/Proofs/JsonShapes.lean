import TreeScript.Proofs.JsonTexts

/-!
# Shapes of JSON

A reader reads a value as `a` if it takes every text of the value and gives `a`, whatever stands
behind it. This is put together along the shapes: from what is read of the items of a list to the
list, from what is read of the members of an object to a map or a record, from the value of a variant
to the variant.
-/

namespace TreeScript.Json

/-- A reader takes every text of a value and gives `a`. -/
def Reads {α : Type} (reader : Reader α) (value : Value) (a : α) : Prop :=
  ∀ text blanks rest : List Char, Written value text → Blanks blanks → Ends rest →
    reader.run (blanks ++ (text ++ rest)) = .ok (a, rest)

variable {α β σ : Type}

theorem Reads.run {reader : Reader α} {value : Value} {a : α} (h : Reads reader value a)
    {text rest : List Char} (htext : Written value text) (hrest : Ends rest) :
    reader.run (text ++ rest) = .ok (a, rest) :=
  h text [] rest htext blanks_nil hrest

/-! ## 1. Scalars -/

theorem string_reads (s : String) : Reads string (.string s) s := by
  intro text blanks rest htext hblanks hrest
  cases htext
  show readQuoted _ = _
  rw [readQuoted, stringText_append, skipBlank_append_cons hblanks rfl]
  exact readString_flatMap s rest

/-- Where a text starts is found behind the blanks. -/
theorem skipBlank_written {value : Value} {text blanks : List Char} (h : Written value text)
    (hblanks : Blanks blanks) (rest : List Char) :
    skipBlank (blanks ++ (text ++ rest)) = text ++ rest := by
  obtain ⟨c, cs, rfl, hblank, -⟩ := h.starts
  exact skipBlank_append_cons hblanks hblank _

theorem natural_reads {n limit : Nat} (expected : String) (h : n ≤ limit)
    (hlimit : limit ≤ maxSignificand) : Reads (natural expected limit) (.natural n) n := by
  intro text blanks rest htext hblanks hrest
  have hskip := skipBlank_written htext hblanks rest
  cases htext
  have hread := readNumber_repr (Nat.le_trans h hlimit) hrest
  obtain ⟨c, cs, heq, hdigit⟩ := exists_repr_eq_cons n
  have hminus : c ≠ '-' := by
    rintro rfl
    cases hdigit
  show readNatural _ _ _ = _
  rw [readNatural, hskip]
  rw [heq, List.cons_append] at hread ⊢
  simp only [if_neg hminus, if_pos hdigit, hread, naturalOf]
  rw [if_pos h]

theorem Reads.map {reader : Reader α} {value : Value} {a : α} (h : Reads reader value a)
    (f : α → β) : Reads (Text.Reader.map f reader) value (f a) := by
  intro text blanks rest htext hblanks hrest
  show Text.Reader.runMap f reader _ = _
  rw [Text.Reader.runMap, h text blanks rest htext hblanks hrest]

theorem optional_reads_null (reader : Reader α) : Reads (optional reader) .null none := by
  intro text blanks rest htext hblanks hrest
  have hskip := skipBlank_written htext hblanks rest
  cases htext
  show readOptional reader _ = _
  rw [readOptional, hskip]
  rfl

theorem optional_reads_some {reader : Reader α} {value : Value} {a : α} (h : Reads reader value a)
    (hnull : value ≠ .null) : Reads (optional reader) value (some a) := by
  intro text blanks rest htext hblanks hrest
  obtain ⟨c, cs, rfl, hblank, -, hn⟩ := htext.starts
  have hread := h.map some _ blanks rest htext hblanks hrest
  show readOptional reader _ = _
  rw [readOptional, skipBlank_written htext hblanks rest]
  -- the text does not start like `null`, so it is left to the reader
  split
  next heq => exact absurd (hn (List.cons.inj heq).1) hnull
  next => exact hread

/-! ## 2. Lists -/

theorem readItems_last {item : Reader α} {read : List α} {cs rest rest' : List Char} {a : α}
    (h : item.run cs = .ok (a, rest)) (hclose : skipBlank rest = ']' :: rest') :
    readItems item read cs = .ok ((a :: read).reverse, rest') := by
  rw [readItems]
  split
  next heq => cases h.symm.trans heq
  next heq =>
    cases h.symm.trans heq
    split
    next hnil => cases hclose.symm.trans hnil
    next hcons =>
      cases hclose.symm.trans hcons
      rw [if_pos rfl]

theorem readItems_next {item : Reader α} {read : List α} {cs rest rest' rest'' : List Char} {a : α}
    {d : Char} (h : item.run cs = .ok (a, rest)) (hcomma : skipBlank rest = ',' :: rest')
    (hnext : skipBlank rest' = d :: rest'') (hd : d ≠ ']') :
    readItems item read cs = readItems item (a :: read) (d :: rest'') := by
  rw [readItems]
  split
  next heq => cases h.symm.trans heq
  next heq =>
    cases h.symm.trans heq
    split
    next hnil => cases hcomma.symm.trans hnil
    next hcons =>
      cases hcomma.symm.trans hcons
      rw [if_neg (by decide), if_pos rfl]
      split
      next hnil => cases hnext.symm.trans hnil
      next hcons' =>
        cases hnext.symm.trans hcons'
        rw [if_neg hd]

/-- Items are read back in their order. -/
theorem readItems_written {item : Reader α} {write : α → Value} {a : α} {as : List α}
    (hreads : ∀ b ∈ a :: as, Reads item (write b) b) (read : List α) {text tail : List Char}
    (htext : Written (write a) text) (htail : ItemsBehind (as.map write) tail) (rest : List Char) :
    readItems item read (text ++ (tail ++ rest)) = .ok (read.reverse ++ a :: as, rest) := by
  have hfirst := (hreads a List.mem_cons_self).run htext (htail.ends rest)
  induction as generalizing a read text tail with
  | nil =>
    cases htail with
    | close hblanks =>
      rw [List.append_assoc] at hfirst ⊢
      rw [readItems_last hfirst (skipBlank_append_cons hblanks rfl rest), List.reverse_cons]
  | cons b bs ih =>
    cases htail with
    | next hcomma hblanks hitem htail =>
      have hreads' : ∀ b' ∈ b :: bs, Reads item (write b') b' := fun b' hb' =>
        hreads b' (List.mem_cons_of_mem a hb')
      have hbehind := ih hreads' (a :: read) hitem htail
        ((hreads' b List.mem_cons_self).run hitem (htail.ends rest))
      obtain ⟨c, cs, rfl, hblank, hc, -⟩ := hitem.starts
      simp only [List.append_assoc, List.cons_append] at hfirst hbehind ⊢
      rw [readItems_next hfirst (skipBlank_append_cons hcomma rfl _)
        (skipBlank_append_cons hblanks hblank _) hc, hbehind, List.reverse_cons, List.append_assoc]
      rfl

theorem list_reads {item : Reader α} {write : α → Value} {as : List α}
    (hreads : ∀ a ∈ as, Reads item (write a) a) {depth : Nat} (hdepth : depth ≠ 0) :
    Reads (list depth item) (.list (as.map write)) as := by
  intro text blanks rest htext hblanks hrest
  show readList depth item _ = _
  rw [readList, skipBlank_written htext hblanks]
  cases as with
  | nil =>
    cases htext with
    | emptyList hinner =>
      simp only [List.cons_append, List.append_assoc, if_true, if_neg hdepth,
        skipBlank_append_cons hinner (c := ']') rfl]
      rfl
  | cons a as =>
    cases htext with
    | list hinner hitem htail =>
      have hitems := readItems_written hreads [] hitem htail rest
      obtain ⟨c, cs, rfl, hblank, hc, -⟩ := hitem.starts
      simp only [List.cons_append, List.append_assoc, if_true, if_neg hdepth,
        skipBlank_append_cons hinner hblank, if_neg hc] at hitems ⊢
      exact hitems

/-! ## 3. Objects -/

/-- A value under a key is taken from every text of it, and turns what was collected before into what
is collected then. -/
def Takes (member : Member σ) (s : σ) (key : String) (value : Value) (s' : σ) : Prop :=
  ∀ colon blanks text rest : List Char, Blanks colon → Blanks blanks → Written value text → Ends rest →
    member.run s key (colon ++ ':' :: (blanks ++ (text ++ rest))) = .ok (s', rest)

/-- Members that are collected one after the other. -/
inductive Gathers (member : Member σ) : σ → List (String × Value) → σ → Prop where
  | nil {s : σ} : Gathers member s [] s
  | cons {s s' s'' : σ} {key : String} {value : Value} {members : List (String × Value)}
    (first : Takes member s key value s') (behind : Gathers member s' members s'') :
    Gathers member s ((key, value) :: members) s''

theorem readMembers_last {member : Member σ} {s s' : σ} {key : String}
    {cs rest rest' rest'' : List Char} (hkey : readString cs = .ok (key, rest))
    (hmember : member.run s key rest = .ok (s', rest'))
    (hclose : skipBlank rest' = '\x7d' :: rest'') :
    readMembers member s cs = .ok (s', rest'') := by
  rw [readMembers]
  split
  next heq => cases hkey.symm.trans heq
  next heq =>
    cases hkey.symm.trans heq
    split
    next heq' => cases hmember.symm.trans heq'
    next heq' =>
      cases hmember.symm.trans heq'
      split
      next hnil => cases hclose.symm.trans hnil
      next hcons =>
        cases hclose.symm.trans hcons
        rw [if_pos rfl]

theorem readMembers_next {member : Member σ} {s s' : σ} {key : String}
    {cs rest rest' rest'' next : List Char} (hkey : readString cs = .ok (key, rest))
    (hmember : member.run s key rest = .ok (s', rest'))
    (hcomma : skipBlank rest' = ',' :: rest'') (hnext : skipBlank rest'' = '"' :: next) :
    readMembers member s cs = readMembers member s' next := by
  rw [readMembers]
  split
  next heq => cases hkey.symm.trans heq
  next heq =>
    cases hkey.symm.trans heq
    split
    next heq' => cases hmember.symm.trans heq'
    next heq' =>
      cases hmember.symm.trans heq'
      split
      next hnil => cases hcomma.symm.trans hnil
      next hcons =>
        cases hcomma.symm.trans hcons
        rw [if_neg (by decide), if_pos rfl]
        split
        next hnil => cases hnext.symm.trans hnil
        next hcons' =>
          cases hnext.symm.trans hcons'
          rw [if_pos rfl]

/-- Members are collected from behind the quote of the first key on. -/
theorem readMembers_written {member : Member σ} {s s' : σ} {key : String} {value : Value}
    {members : List (String × Value)} (hgathers : Gathers member s ((key, value) :: members) s')
    {colon blanks text tail : List Char} (hcolon : Blanks colon) (hblanks : Blanks blanks)
    (htext : Written value text) (htail : MembersBehind members tail) (rest : List Char) :
    readMembers member s (key.toList.flatMap escapeChar ++ '"' ::
      (colon ++ ':' :: (blanks ++ (text ++ (tail ++ rest))))) = .ok (s', rest) := by
  induction members generalizing s key value colon blanks text tail with
  | nil =>
    cases hgathers with
    | cons first behind =>
      cases behind
      have hmember := first _ _ _ _ hcolon hblanks htext (htail.ends rest)
      cases htail with
      | close hclose =>
        rw [List.append_assoc] at hmember ⊢
        exact readMembers_last (readString_flatMap key _) hmember
          (skipBlank_append_cons hclose rfl rest)
  | cons next members ih =>
    cases hgathers with
    | cons first behind =>
      have hmember := first _ _ _ _ hcolon hblanks htext (htail.ends rest)
      cases htail with
      | next hcomma hnext hcolon' hblanks' hvalue htail =>
        have hbehind := ih behind hcolon' hblanks' hvalue htail
        simp only [List.append_assoc, List.cons_append, stringText_append] at hmember hbehind ⊢
        rw [readMembers_next (readString_flatMap key _) hmember (skipBlank_append_cons hcomma rfl _)
          (skipBlank_append_cons hnext rfl _), hbehind]

/-- The members of an object are collected from its text behind the opening bracket. -/
theorem readObject_written {member : Member σ} {s s' : σ} {members : List (String × Value)}
    (hgathers : Gathers member s members s') {text : List Char} (htext : Written (.object members) text)
    (rest : List Char) :
    ∃ body, text ++ rest = '\x7b' :: body ∧ readObject member s body = .ok (s', rest) := by
  cases htext with
  | emptyObject hinner =>
    cases hgathers
    refine ⟨_, rfl, ?_⟩
    simp only [readObject, List.append_assoc, List.append_eq,
      skipBlank_append_cons hinner (c := '\x7d') rfl, List.cons_append, if_true, List.nil_append]
  | object hinner hcolon hblanks' hvalue htail =>
    have hmembers := readMembers_written hgathers hcolon hblanks' hvalue htail rest
    refine ⟨_, rfl, ?_⟩
    simp only [readObject, List.append_assoc, List.append_eq, List.cons_append, stringText_append,
      skipBlank_append_cons hinner (c := '"') rfl, if_true] at hmembers ⊢
    exact hmembers

/-! ## 4. Maps -/

theorem entry_takes {reader : Reader α} {value : Value} {a : α} (h : Reads reader value a)
    (entries : List (String × α)) (key : String) :
    Takes (entry reader) entries key value ((key, a) :: entries) := by
  intro colon blanks text rest hcolon hblanks htext hrest
  show readEntry reader entries key _ = _
  simp only [readEntry, skipColon_append hcolon, h _ _ _ htext hblanks hrest]

theorem entries_gathers {reader : Reader α} {write : α → Value} {entries : List (String × α)}
    (hreads : ∀ entry ∈ entries, Reads reader (write entry.2) entry.2) (before : List (String × α)) :
    Gathers (entry reader) before (entries.map fun entry => (entry.1, write entry.2))
      (entries.reverse ++ before) := by
  induction entries generalizing before with
  | nil => exact .nil
  | cons first entries ih =>
    rw [List.forall_mem_cons] at hreads
    have hbehind := ih hreads.2 (first :: before)
    rw [List.reverse_cons, List.append_assoc]
    exact .cons (entry_takes hreads.1 before first.1) hbehind

/-- The entries of a map are read back in their order. -/
theorem map_reads {reader : Reader α} {write : α → Value} {entries : List (String × α)}
    (hreads : ∀ entry ∈ entries, Reads reader (write entry.2) entry.2) {depth : Nat}
    (hdepth : depth ≠ 0) :
    Reads (map depth reader) (.object (entries.map fun entry => (entry.1, write entry.2))) entries := by
  intro text blanks rest htext hblanks hrest
  obtain ⟨body, hbody, hread⟩ := readObject_written (entries_gathers hreads []) htext rest
  show readMap depth reader _ = _
  rw [readMap, skipBlank_written htext hblanks, hbody]
  simp only [hread, if_true, if_neg hdepth, List.append_nil, List.reverse_reverse]

/-! ## 5. Records -/

/-- Members that fill the fields of a record one after the other: each names a field that was empty,
and its value is read as what is stored. -/
inductive Fills (fields : List (Field σ)) : σ → List (String × Value) → σ → Prop where
  | nil {s : σ} : Fills fields s [] s
  | cons {s s' : σ} {key : String} {value : Value} {members : List (String × Value)}
    {field : Field σ} {store : σ → σ}
    (found : fields.find? (fun field => field.name == key) = some field)
    (empty : field.filled s = false) (reads : Reads field.reader value store)
    (behind : Fills fields (store s) members s') : Fills fields s ((key, value) :: members) s'

theorem Fills.append {fields : List (Field σ)} {s s' s'' : σ} {first second : List (String × Value)}
    (h : Fills fields s first s') (h' : Fills fields s' second s'') :
    Fills fields s (first ++ second) s'' := by
  induction h with
  | nil => exact h'
  | cons found empty reads _ ih => exact .cons found empty reads (ih h')

theorem field_takes {fields : List (Field σ)} {s : σ} {key : String} {value : Value}
    {field : Field σ} {store : σ → σ}
    (hfound : fields.find? (fun field => field.name == key) = some field)
    (hempty : field.filled s = false) (hreads : Reads field.reader value store) :
    Takes (fieldMember fields) s key value (store s) := by
  intro colon blanks text rest hcolon hblanks htext hrest
  show readField fields s key _ = _
  simp only [readField, hfound, hempty, skipColon_append hcolon, hreads _ _ _ htext hblanks hrest,
    Bool.false_eq_true, if_false]

theorem Fills.gathers {fields : List (Field σ)} {s s' : σ} {members : List (String × Value)}
    (h : Fills fields s members s') : Gathers (fieldMember fields) s members s' := by
  induction h with
  | nil => exact .nil
  | cons found empty reads _ ih => exact .cons (field_takes found empty reads) ih

theorem record_reads {r : Record σ α} {members : List (String × Value)} {s : σ} {a : α}
    (hfills : Fills r.fields r.initial members s) (hfinish : r.finish s = .ok a) {depth : Nat}
    (hdepth : depth ≠ 0) : Reads (record depth r) (.object members) a := by
  intro text blanks rest htext hblanks hrest
  obtain ⟨body, hbody, hread⟩ := readObject_written hfills.gathers htext rest
  show readRecord depth r _ = _
  rw [readRecord, skipBlank_written htext hblanks, hbody]
  simp only [hread, hfinish, or_true, if_true, if_neg hdepth, Char.reduceEq, if_false]

/-! ## 6. Variants -/

section Variants

variable {plain : String → Option α} {payload : String → Option (Reader α)} {name : String} {a : α}

theorem variant_reads_plain (h : plain name = some a) (depth : Nat) :
    Reads (variant depth plain payload) (.string name) a := by
  intro text blanks rest htext hblanks hrest
  cases htext
  show readVariant depth plain payload _ = _
  rw [readVariant, stringText_append, skipBlank_append_cons hblanks rfl]
  simp only [if_true, readString_flatMap, h]

theorem readPayload_reads {reader : Reader α} {value : Value} (h : Reads reader value a)
    {colon blanks close text : List Char} (hcolon : Blanks colon) (hblanks : Blanks blanks)
    (htext : Written value text) (hclose : Blanks close) (rest : List Char) :
    readPayload reader (colon ++ ':' :: (blanks ++ (text ++ (close ++ '\x7d' :: rest)))) =
      .ok (a, rest) := by
  have hends := ends_append_cons hclose (c := '\x7d') (by decide) rest
  simp only [readPayload, skipColon_append hcolon, h _ _ _ htext hblanks hends,
    skipBlank_append_cons hclose (c := '\x7d') rfl, if_true]

theorem variant_reads_keyed {reader : Reader α} {value : Value} (hplain : plain name = none)
    (hpayload : payload name = some reader) (h : Reads reader value a) {depth : Nat}
    (hdepth : depth ≠ 0) : Reads (variant depth plain payload) (.object [(name, value)]) a := by
  intro text blanks rest htext hblanks hrest
  have hskip := skipBlank_written htext hblanks rest
  cases htext with
  | object hinner hcolon hblanks' hvalue htail =>
    cases htail with
    | close hclose =>
      have hread := readPayload_reads h hcolon hblanks' hvalue hclose rest
      show readVariant depth plain payload _ = _
      rw [readVariant, hskip]
      simp only [List.cons_append, List.append_assoc, if_neg hdepth, readKeyed, stringText_append,
        skipBlank_append_cons hinner (c := '"') rfl, readString_flatMap, hplain, hpayload,
        Option.map_none, if_true, Char.reduceEq, if_false, List.nil_append] at hread ⊢
      exact hread

end Variants

/-! ## 7. Whole texts -/

/-- A text of a value is read as a whole, also with blanks around it. -/
theorem Reads.read {reader : Reader α} {value : Value} {a : α} (h : Reads reader value a)
    {text before behind : List Char} (htext : Written value text) (hbefore : Blanks before)
    (hbehind : Blanks behind) : Json.read reader (before ++ (text ++ behind)) = .ok a := by
  have hends : Ends behind := by
    intro c hc
    exact .inl (hbehind c (List.mem_of_mem_head? hc))
  rw [Json.read, h text before behind htext hbefore hends]
  simp only [skipBlank_of_blanks hbehind]

end TreeScript.Json
