import TreeScript.File.Tree
import TreeScript.Proofs.Run

/-!
# File trees under operations

What operations on files do to a tree. Reading leaves it as it is, making directories keeps every
file, and writing a text replaces the contents of one file: the one that the path leads to.
-/

namespace TreeScript.File

/-! ## 1. What a computation does to its state -/

/-- A computation that takes every state to one that is related to it. -/
def Along {σ α : Type} (R : σ → σ → Prop) (x : StateM σ α) : Prop :=
  ∀ s, R s (x s).2

theorem Along.bind {σ α β : Type} {R : σ → σ → Prop} (trans : ∀ {a b c}, R a b → R b c → R a c)
    {x : StateM σ α} {f : α → StateM σ β} (hx : Along R x) (hf : ∀ a, Along R (f a)) :
    Along R (x >>= f) := by
  intro s
  exact trans (hx s) (hf (x s).1 (x s).2)

/-! ## 2. Contents -/

theorem readText_apply (path : Path) (tree : Tree) :
    (readText path : StateM Tree (Except Error String)) tree = (tree.readText path, tree) :=
  rfl

namespace Tree

/-- The contents of the file at a place. -/
def contents? (tree : Tree) (location : Location) : Option ByteArray :=
  tree.files.lookup location

theorem lookup_filter_ne (files : List (Location × ByteArray)) {location other : Location}
    (h : other ≠ location) :
    (files.filter (·.1 ≠ location)).lookup other = files.lookup other := by
  induction files with
  | nil => rfl
  | cons file files ih =>
    obtain ⟨place, contents⟩ := file
    rw [List.filter_cons]
    by_cases hplace : place = location
    · -- the entry that is left out is not the one that is looked up
      have hother : (other == place) = false := by
        rw [hplace]
        exact beq_eq_false_iff_ne.2 h
      rw [if_neg (by simpa using hplace), ih, List.lookup_cons, hother]
    · rw [if_pos (by simpa using hplace), List.lookup_cons, List.lookup_cons, ih]

theorem contents?_setFile (tree : Tree) (location : Location) (contents : ByteArray) :
    (tree.setFile location contents).contents? location = some contents := by
  rw [contents?, setFile, List.lookup_cons, beq_self_eq_true]

theorem contents?_setFile_of_ne (tree : Tree) {location other : Location} (contents : ByteArray)
    (h : other ≠ location) :
    (tree.setFile location contents).contents? other = tree.contents? other := by
  rw [contents?, setFile, List.lookup_cons, beq_eq_false_iff_ne.2 h]
  exact lookup_filter_ne tree.files h

theorem entry?_eq_directory {tree : Tree} {location : Location} :
    tree.entry? location = some .directory ↔
      tree.contents? location = none ∧ (location = [] ∨ location ∈ tree.directories) := by
  unfold entry? contents?
  cases tree.files.lookup location with
  | some contents => exact ⟨nofun, nofun⟩
  | none =>
    dsimp only
    split
    · rename_i hdirectory
      exact ⟨fun _ => ⟨rfl, hdirectory⟩, fun _ => rfl⟩
    · rename_i hdirectory
      exact ⟨nofun, fun h => absurd h.2 hdirectory⟩

/-! ## 3. Making directories -/

/-- A tree in which every directory of another one is still a directory. -/
structure Grows (before after : Tree) : Prop where
  home : after.home = before.home
  directories : ∀ place, before.entry? place = some .directory →
    after.entry? place = some .directory

theorem Grows.trans {first second third : Tree} (h : Grows first second) (h' : Grows second third) :
    Grows first third :=
  ⟨h'.home.trans h.home, fun place hplace => h'.directories place (h.directories place hplace)⟩

theorem Grows.setFile {tree : Tree} {location : Location}
    (h : tree.entry? location ≠ some .directory) (contents : ByteArray) :
    Grows tree (tree.setFile location contents) where
  home := rfl
  directories place hplace := by
    have hne : place ≠ location := fun heq => h (heq ▸ hplace)
    rw [entry?_eq_directory] at hplace ⊢
    exact ⟨(contents?_setFile_of_ne tree contents hne).trans hplace.1, hplace.2⟩

/-- A tree with the same files, in which directories may have been made. -/
structure Keeps (before after : Tree) : Prop extends Grows before after where
  files : after.files = before.files

theorem Keeps.refl (tree : Tree) : Keeps tree tree :=
  ⟨⟨rfl, fun _ h => h⟩, rfl⟩

theorem Keeps.trans {first second third : Tree} (h : Keeps first second) (h' : Keeps second third) :
    Keeps first third :=
  ⟨h.toGrows.trans h'.toGrows, h'.files.trans h.files⟩

theorem Keeps.contents? {before after : Tree} (h : Keeps before after) (place : Location) :
    after.contents? place = before.contents? place := by
  rw [Tree.contents?, Tree.contents?, h.files]

theorem Keeps.addDirectory (tree : Tree) (location : Location) :
    Keeps tree (tree.addDirectory location) where
  home := rfl
  directories place hplace := by
    rw [entry?_eq_directory] at hplace ⊢
    exact ⟨hplace.1, hplace.2.imp_right (List.mem_cons_of_mem location)⟩
  files := rfl

theorem makeDirectory_keeps {tree after : Tree} {path : Path}
    (h : tree.makeDirectory path = .ok after) : Keeps tree after := by
  simp only [makeDirectory, bind, Except.bind] at h
  split at h
  · cases h
  · split at h
    · cases h
      exact .addDirectory tree _
    · cases h

theorem change_of_ok {operation : Tree → Except Error Tree} {tree after : Tree}
    (h : operation tree = .ok after) : Tree.change operation tree = (.ok (), after) := by
  rw [Tree.change, Stateful.bind_apply, Stateful.get_apply]
  simp only [h]
  rfl

theorem change_of_error {operation : Tree → Except Error Tree} {tree : Tree} {error : Error}
    (h : operation tree = .error error) : Tree.change operation tree = (.error error, tree) := by
  rw [Tree.change, Stateful.bind_apply, Stateful.get_apply]
  simp only [h]
  rfl

end Tree

open TreeScript.File.Tree

theorem makeDirectory_along (path : Path) :
    Along Keeps (makeDirectory path : StateM Tree (Except Error Unit)) := by
  intro tree
  show Keeps tree (Tree.change (fun tree => tree.makeDirectory path) tree).2
  cases hmade : tree.makeDirectory path with
  | error error =>
    rw [change_of_error hmade]
    exact .refl tree
  | ok after =>
    rw [change_of_ok hmade]
    exact makeDirectory_keeps hmade

theorem orDirectory_along (path : Path) (error : Error) :
    Along Keeps (do return if ← isDirectory path then .ok () else .error error :
      StateM Tree (Except Error Unit)) :=
  fun tree => .refl tree

theorem ensureDirectory_along (path : Path) :
    Along Keeps (ensureDirectory path : StateM Tree (Except Error Unit)) := by
  refine Along.bind .trans (makeDirectory_along path) fun made => ?_
  cases made with
  | ok => exact fun tree => .refl tree
  | error error => exact orDirectory_along path error

theorem makeDirectoriesIn_along (paths : List Path) :
    Along Keeps (makeDirectoriesIn paths : StateM Tree (Except Error Unit)) := by
  induction paths with
  | nil => exact fun tree => .refl tree
  | cons path parents ih =>
    rw [makeDirectoriesIn]
    split
    · exact fun tree => .refl tree
    -- only where the directory above is missing are the parents gone through
    · refine Along.bind .trans (makeDirectory_along path) fun made => ?_
      split
      · refine Along.bind .trans ih fun above => ?_
        cases above with
        | ok => exact ensureDirectory_along path
        | error error => exact fun tree => .refl tree
      · exact fun tree => .refl tree
      · exact orDirectory_along path _

/-! ## 4. Names -/

namespace Path

theorem namesFrom_append_slash (name cs ds : List Char) :
    namesFrom name (cs ++ '/' :: ds) = namesFrom name cs ++ namesFrom [] ds := by
  induction cs generalizing name with
  | nil => rfl
  | cons c cs ih =>
    rw [List.cons_append, namesFrom, namesFrom]
    split
    · rw [ih, List.cons_append]
    · rw [ih]

theorem namesFrom_of_notMem {cs : List Char} (h : '/' ∉ cs) (name : List Char) :
    namesFrom name cs = [String.ofList (name.reverse ++ cs)] := by
  induction cs generalizing name with
  | nil => rw [namesFrom, List.append_nil]
  | cons c cs ih =>
    rw [List.mem_cons, not_or] at h
    rw [namesFrom, if_neg (Ne.symm h.1), ih h.2, List.reverse_cons, List.append_assoc]
    rfl

theorem names_of_notMem {name : String} (h : '/' ∉ name.toList) : names name = [name] := by
  rw [names, namesFrom_of_notMem h, List.reverse_nil, List.nil_append, String.ofList_toList]

theorem namesFrom_ne_nil (name cs : List Char) : namesFrom name cs ≠ [] := by
  induction cs generalizing name with
  | nil => exact List.cons_ne_nil _ _
  | cons c cs ih =>
    rw [namesFrom]
    split
    · exact List.cons_ne_nil _ _
    · exact ih _

/-- A last name is empty only behind a slash, or where there is no text at all. -/
theorem slash_of_getLast?_namesFrom {name cs : List Char}
    (h : (namesFrom name cs).getLast? = some "") :
    cs.getLast? = some '/' ∨ cs = [] ∧ name = [] := by
  induction cs generalizing name with
  | nil =>
    have hname : String.ofList name.reverse = "" := Option.some.inj h
    refine .inr ⟨rfl, List.reverse_eq_nil_iff.1 ?_⟩
    rw [← String.toList_ofList (l := name.reverse), hname]
    rfl
  | cons c cs ih =>
    -- a slash starts a new name, and any other character makes the current one nonempty
    rw [List.getLast?_cons]
    rw [namesFrom] at h
    split at h
    · rename_i hc
      rw [List.getLast?_cons_of_ne_nil (namesFrom_ne_nil _ _)] at h
      rcases ih h with hlast | ⟨rfl, -⟩
      · rw [hlast]
        exact .inl rfl
      · rw [hc]
        exact .inl rfl
    · rcases ih h with hlast | ⟨-, hname⟩
      · rw [hlast]
        exact .inl rfl
      · cases hname

theorem notMem_of_mem_namesFrom {part cs : List Char} (hpart : '/' ∉ part) {name : String}
    (h : name ∈ namesFrom part cs) : '/' ∉ name.toList := by
  induction cs generalizing part with
  | nil =>
    rw [namesFrom, List.mem_singleton] at h
    rw [h, String.toList_ofList, List.mem_reverse]
    exact hpart
  | cons c cs ih =>
    rw [namesFrom] at h
    split at h
    · rcases List.mem_cons.1 h with rfl | h
      · rw [String.toList_ofList, List.mem_reverse]
        exact hpart
      · exact ih List.not_mem_nil h
    · rename_i hc
      refine ih ?_ h
      rw [List.mem_cons, not_or]
      exact ⟨Ne.symm hc, hpart⟩

theorem mem_of_lastName? {names : List String} {name : String} (h : lastName? names = some name) :
    name ∈ names := by
  fun_induction lastName? names with
  | case1 => cases h
  | case2 first => exact List.mem_singleton.2 (Option.some.inj h).symm
  | case3 _ next rest _ ih => exact List.mem_cons_of_mem _ (ih h)
  | case4 => exact List.mem_cons.2 (.inl (Option.some.inj h).symm)

theorem mem_of_mem_stemOf {name : String} {c : Char} (h : c ∈ (stemOf name).toList) :
    c ∈ name.toList := by
  unfold stemOf at h
  simp only at h
  split at h
  · exact h
  · rw [String.toList_ofList, List.mem_reverse] at h
    exact List.mem_reverse.1 (List.mem_of_mem_drop h)

theorem notMem_of_stem? {path : Path} {stem : String} (h : stem? path = some stem) :
    '/' ∉ stem.toList := by
  unfold stem? at h
  split at h
  · cases h
  · rename_i name hname
    split at h
    · cases h
    · cases h
      have hmem := List.mem_reverse.1 (mem_of_lastName? hname)
      exact fun hslash => notMem_of_mem_namesFrom List.not_mem_nil hmem (mem_of_mem_stemOf hslash)

theorem isAbsolute_of_notMem {name : String} (h : '/' ∉ name.toList) : isAbsolute name = false := by
  rw [isAbsolute, decide_eq_false_iff_not]
  exact fun hhead => h (List.mem_of_head? hhead)

/-- The names of a file in a directory are those of the directory, but for what a slash at its end
adds to them. -/
theorem names_join {directory name : Path} (hdirectory : directory ≠ "")
    (h : '/' ∉ name.toList) : ∃ rest front, join directory name = directory ++ rest ∧
      names (join directory name) = front ++ [name] ∧
      (names directory = front ∨ names directory = front ++ [""]) := by
  have hnames : namesFrom [] name.toList = [name] := names_of_notMem h
  rw [join, if_neg (by rw [isAbsolute_of_notMem h]; exact Bool.false_ne_true)]
  by_cases hlast : directory.toList.getLast? = some '/'
  · obtain ⟨front, hfront⟩ := List.getLast?_eq_some_iff.1 hlast
    rw [if_pos (.inr hlast)]
    refine ⟨name, namesFrom [] front, rfl, ?_, .inr ?_⟩
    · rw [names, String.toList_append, hfront, List.append_assoc, List.singleton_append,
        namesFrom_append_slash, hnames]
    · rw [names, hfront, namesFrom_append_slash]
      rfl
  · rw [if_neg (not_or.2 ⟨hdirectory, hlast⟩)]
    refine ⟨"/" ++ name, names directory, String.append_assoc, ?_, .inl rfl⟩
    rw [names, String.append_assoc, String.toList_append, String.toList_append]
    exact (namesFrom_append_slash [] directory.toList name.toList).trans (by rw [hnames]; rfl)

end Path

/-! ## 5. Looking up -/

namespace Tree

variable {tree : Tree} {path : Path}

theorem step_congr {tree after : Tree} {here : Location}
    (h : after.entry? here = tree.entry? here) (name : String) :
    after.step here name = tree.step here name := by
  rw [step, step, h]

theorem directory_of_step {here next : Location} {name : String}
    (h : tree.step here name = .ok next) : tree.entry? here = some .directory := by
  unfold step at h
  split at h
  · cases h
  · cases h
  · assumption

theorem step_silent {here : Location} {name : String} (h : tree.entry? here = some .directory)
    (hname : Path.isSilent name) : tree.step here name = .ok here := by
  unfold step
  rw [h]
  exact if_pos hname

theorem eq_append_of_step {here next : Location} {name : String}
    (h : tree.step here name = .ok next) (hsilent : ¬ Path.isSilent name) (hup : name ≠ "..") :
    next = here ++ [name] := by
  unfold step at h
  rw [directory_of_step h] at h
  simp only [if_neg hsilent, if_neg hup] at h
  split at h
  · cases h
  · exact (Except.ok.inj h).symm

/-- What a path has to be before any name of it is looked at. -/
structure Admissible (path : Path) : Prop where
  nonempty : path ≠ ""
  noNul : '\x00' ∉ path.toList
  size : path.utf8ByteSize ≤ maxPathSize

/-- Where the first name of a path is looked up. -/
def start (tree : Tree) (path : Path) : Location :=
  if Path.isAbsolute path then [] else tree.home

theorem follow_of_admissible (h : Admissible path) (names : List String) :
    tree.follow path names = names.foldlM tree.step (tree.start path) := by
  rw [follow, if_neg h.nonempty, if_neg, if_neg (Nat.not_lt.2 h.size), start]
  rw [List.contains_iff_mem]
  exact h.noNul

theorem follow_eq_ok {names : List String} {place : Location}
    (h : tree.follow path names = .ok place) :
    Admissible path ∧ names.foldlM tree.step (tree.start path) = .ok place := by
  unfold follow at h
  split at h
  · cases h
  · rename_i hempty
    split at h
    · cases h
    · rename_i hnul
      split at h
      · cases h
      · rename_i hsize
        rw [List.contains_iff_mem] at hnul
        exact ⟨⟨hempty, hnul, Nat.not_lt.1 hsize⟩, h⟩

theorem Grows.foldlM_step {after : Tree} (hgrows : Grows tree after) {names : List String}
    {here place : Location} (h : names.foldlM tree.step here = .ok place) :
    names.foldlM after.step here = .ok place := by
  induction names generalizing here with
  | nil => exact h
  | cons name names ih =>
    rw [List.foldlM_cons] at h ⊢
    obtain ⟨next, hnext, hrest⟩ := Fallible.bind_eq_ok.1 h
    -- a step that is taken starts at a directory, and that is still one
    have hhere := directory_of_step hnext
    rw [step_congr ((hgrows.directories here hhere).trans hhere.symm), hnext]
    exact ih hrest

/-- The way to a place is not lost as long as directories stay. -/
theorem Grows.locate {after : Tree} (hgrows : Grows tree after) {place : Location}
    (h : tree.locate path = .ok place) : after.locate path = .ok place := by
  obtain ⟨hpath, hfold⟩ := follow_eq_ok h
  rw [Tree.locate, follow_of_admissible hpath, start, hgrows.home]
  exact hgrows.foldlM_step hfold

/-! ## 6. Files in directories -/

/-- The place of a directory. The empty path is the working directory. -/
def placeOf (tree : Tree) (directory : Path) : Except Error Location :=
  if directory = "" then .ok tree.home else tree.locate directory

theorem Admissible.of_append {base rest : Path} (h : Admissible (base ++ rest))
    (hbase : base ≠ "") : Admissible base where
  nonempty := hbase
  noNul hmem := h.noNul (by
    rw [String.toList_append]
    exact List.mem_append_left _ hmem)
  size := by
    have hsize := h.size
    rw [String.utf8ByteSize_append] at hsize
    omega

theorem start_append {base : Path} (hbase : base ≠ "") (rest : Path) :
    tree.start (base ++ rest) = tree.start base := by
  have hhead : (base ++ rest).toList.head? = base.toList.head? := by
    have hnil : base.toList ≠ [] := fun hnil => hbase (String.toList_eq_nil_iff.1 hnil)
    rw [String.toList_append, List.head?_append, List.head?_eq_some_head hnil, Option.some_or]
  rw [start, start, Path.isAbsolute, Path.isAbsolute, hhead]

theorem foldlM_append_eq_ok {here place : Location} (front : List String) {name : String}
    (h : (front ++ [name]).foldlM tree.step here = .ok place) :
    ∃ base, front.foldlM tree.step here = .ok base ∧ tree.step base name = .ok place := by
  rw [List.foldlM_append] at h
  obtain ⟨base, hbase, hstep⟩ := Fallible.bind_eq_ok.1 h
  rw [List.foldlM_cons] at hstep
  obtain ⟨next, hnext, hlast⟩ := Fallible.bind_eq_ok.1 hstep
  cases hlast
  exact ⟨base, hbase, hnext⟩

/-- A file in a directory lies in the place of the directory, under its own name. -/
theorem locate_join {directory name : Path} {place : Location}
    (h : tree.locate (Path.join directory name) = .ok place) (hslash : '/' ∉ name.toList)
    (hsilent : ¬ Path.isSilent name) (hup : name ≠ "..") :
    ∃ base, tree.placeOf directory = .ok base ∧ place = base ++ [name] := by
  obtain ⟨hpath, hfold⟩ := follow_eq_ok h
  by_cases hdirectory : directory = ""
  · have habsolute := Path.isAbsolute_of_notMem hslash
    have hjoin : Path.join "" name = name := by
      rw [Path.join, if_neg (by rw [habsolute]; exact Bool.false_ne_true), if_pos (.inl rfl),
        String.empty_append]
    rw [hdirectory, hjoin, Path.names_of_notMem hslash, start, habsolute] at hfold
    obtain ⟨base, hbase, hstep⟩ := foldlM_append_eq_ok [] hfold
    cases hbase
    exact ⟨tree.home, if_pos hdirectory, eq_append_of_step hstep hsilent hup⟩
  · obtain ⟨rest, front, hjoin, hnames, hfront⟩ := Path.names_join hdirectory hslash
    rw [hnames, hjoin, start_append hdirectory] at hfold
    obtain ⟨base, hbase, hstep⟩ := foldlM_append_eq_ok front hfold
    refine ⟨base, ?_, eq_append_of_step hstep hsilent hup⟩
    rw [placeOf, if_neg hdirectory, locate,
      follow_of_admissible ((hjoin ▸ hpath).of_append hdirectory)]
    rcases hfront with hfront | hfront
    · rw [hfront, hbase]
    · -- the empty name behind a slash at the end stays where it is
      rw [hfront, List.foldlM_append, hbase]
      show ([""].foldlM tree.step base) = .ok base
      rw [List.foldlM_cons, step_silent (directory_of_step hstep) (by decide)]
      rfl

/-! ## 7. Writing -/

theorem innerNames_eq_names (hpath : path ≠ "") (h : path.toList.getLast? ≠ some '/') :
    innerNames path = Path.names path := by
  have hlast : (Path.names path).reverse.head? ≠ some "" := by
    rw [List.head?_reverse]
    intro hempty
    rcases Path.slash_of_getLast?_namesFrom hempty with hslash | ⟨hnil, -⟩
    · exact h hslash
    · exact hpath (String.toList_eq_nil_iff.1 hnil)
  unfold innerNames
  cases hnames : (Path.names path).reverse with
  | nil => exact absurd (List.reverse_eq_nil_iff.1 hnames) (Path.namesFrom_ne_nil _ _)
  | cons name rest =>
    rw [hnames] at hlast
    rw [List.dropWhile_cons_of_neg (by simpa using hlast), ← hnames, List.reverse_reverse]

/-- What writing a text does: it sets the file that the path leads to. -/
theorem writeText_eq_ok {after : Tree} {text : String} (h : tree.writeText path text = .ok after) :
    ∃ place, tree.locate path = .ok place ∧ tree.entry? place ≠ some .directory ∧
      after = tree.setFile place text.toUTF8 := by
  simp only [writeText] at h
  split at h
  · obtain ⟨_, -, h⟩ := Fallible.bind_eq_ok.1 h
    obtain ⟨_, -, h⟩ := Fallible.bind_eq_ok.1 h
    cases h
  · rename_i hslash
    obtain ⟨place, hplace, h⟩ := Fallible.bind_eq_ok.1 h
    rw [innerNames_eq_names (follow_eq_ok hplace).1.nonempty hslash] at hplace
    refine ⟨place, hplace, ?_⟩
    split at h
    · cases h
    · rename_i hentry
      exact ⟨fun hdirectory => hentry hdirectory, (Except.ok.inj h).symm⟩

/-- Contents that differ at one place only, which holds a text afterwards. -/
structure Replaces (before after : Tree) (place : Location) (text : String) : Prop where
  written : after.contents? place = some text.toUTF8
  others : ∀ other ≠ place, after.contents? other = before.contents? other

theorem writeText_replaces {after : Tree} {text : String}
    (h : tree.writeText path text = .ok after) :
    Grows tree after ∧ ∃ place, after.locate path = .ok place ∧ Replaces tree after place text := by
  obtain ⟨place, hplace, hentry, rfl⟩ := writeText_eq_ok h
  have hgrows := Grows.setFile hentry text.toUTF8
  refine ⟨hgrows, place, hgrows.locate hplace, contents?_setFile tree place _, ?_⟩
  exact fun other hother => contents?_setFile_of_ne tree _ hother

end Tree

end TreeScript.File
