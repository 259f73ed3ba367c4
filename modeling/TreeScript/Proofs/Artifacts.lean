import TreeScript.Executable
import TreeScript.Proofs.JsonShapes

/-!
# Artifacts that are read back

The JSON text of an executable is read back as the same executable: every instruction with its
operands, a pending target as pending, and of the header what is there and what is absent. All that
is asked is that addresses have 64 bits.
-/

namespace TreeScript

open Json

/-! ## 1. Instructions -/

namespace Instruction

/-- An instruction whose target, if it has one, is an address of 64 bits. -/
def Addressable (instruction : Instruction) : Prop :=
  ∀ target ∈ instruction.target?, target < UInt64.size

theorem addressReader_reads {target : Nat} (h : target < UInt64.size) :
    Reads addressReader (.natural target) target :=
  natural_reads _ (Nat.le_of_lt_succ h) (by decide)

theorem target_reads {target : Option Nat} (h : ∀ t ∈ target, t < UInt64.size) :
    Reads (Json.optional addressReader) (targetToJson target) target := by
  cases target with
  | none => exact optional_reads_null _
  | some t => exact optional_reads_some (addressReader_reads (h t rfl)) nofun

theorem conditionReader_reads (depth : Nat) (condition : Condition) :
    Reads (conditionReader depth) (.string condition.name) condition :=
  variant_reads_plain (by cases condition <;> rfl) depth

/-- An operand and a target are read back, also if the target is pending. -/
theorem targetRecord_reads {α : Type} {name field : String} {operand : Json.Reader α}
    {make : α → Option Nat → Instruction} {value : Json.Value} {a : α} {target : Option Nat}
    (hfield : field ≠ "target") (hoperand : Reads operand value a)
    (htarget : ∀ t ∈ target, t < UInt64.size) {depth : Nat} (hdepth : depth ≠ 0) :
    Reads (Json.record depth (targetRecord name field operand make))
      (.object [(field, value), ("target", targetToJson target)]) (make a target) := by
  have hfirst : (targetRecord name field operand make).fields.find?
      (fun other => other.name == field) = some _ := List.find?_cons_of_pos (beq_self_eq_true field)
  have hsecond : (targetRecord name field operand make).fields.find?
      (fun other => other.name == "target") = some _ :=
    (List.find?_cons_of_neg (by simpa using hfield)).trans (List.find?_cons_of_pos rfl)
  refine record_reads (s := (some a, some target)) ?_ rfl hdepth
  apply Fills.cons hfirst rfl (hoperand.map _)
  exact .cons hsecond rfl ((target_reads htarget).map _) .nil

section Shapes

variable {depth : Nat} {name : String}

theorem reads_plain {instruction : Instruction} (h : plain? name = some instruction) :
    Reads (reader depth) (.string name) instruction :=
  variant_reads_plain h depth

theorem reads_keyed {operands : Json.Reader Instruction} {value : Json.Value}
    {instruction : Instruction} (hplain : plain? name = none)
    (hpayload : payload? (depth - 1) name = some operands)
    (h : Reads operands value instruction) (hdepth : 1 < depth) :
    Reads (reader depth) (.object [(name, value)]) instruction :=
  variant_reads_keyed hplain hpayload h (by omega)

theorem reads_named {make : String → Instruction} (hplain : plain? name = none)
    (hpayload : payload? (depth - 1) name = some (Json.string.map make)) (s : String)
    (hdepth : 1 < depth) : Reads (reader depth) (.object [(name, .string s)]) (make s) :=
  reads_keyed hplain hpayload ((string_reads s).map make) hdepth

end Shapes

/-- An instruction is read back from any text of its JSON. -/
theorem reader_reads {instruction : Instruction} (h : instruction.Addressable) {depth : Nat}
    (hdepth : 1 < depth) : Reads (reader depth) instruction.toJson instruction := by
  have hinner : depth - 1 ≠ 0 := by omega
  cases instruction with
  | nop | scopeEnter | scopeExit | moveRight | fault => exact reads_plain rfl
  | eval s | store s | declareNew s | bufferReduce s | mask s | merge s | arith s | loadLiteral s
  | clearBuffer s | fetch s | call s | exec s | subroutine s | memberCall s =>
    exact reads_named rfl rfl s hdepth
  | jump target =>
    exact reads_keyed rfl rfl ((addressReader_reads (h target rfl)).map Instruction.jump) hdepth
  | condJump condition target =>
    exact reads_keyed rfl rfl
      (targetRecord_reads (by decide) (conditionReader_reads _ condition) h hinner) hdepth
  | assert condition target =>
    exact reads_keyed rfl rfl
      (targetRecord_reads (by decide) (conditionReader_reads _ condition) h hinner) hdepth
  | goto label target =>
    exact reads_keyed rfl rfl
      (targetRecord_reads (by decide) (string_reads label) h hinner) hdepth

end Instruction

/-! ## 2. Headers -/

/-- A member that may be absent fills its field, or leaves it empty. -/
theorem fills_optionalMember {α σ : Type} {fields : List (Json.Field σ)} {s s' : σ} {key : String}
    {write : α → Json.Value} {value : Option α} (hnone : value = none → s = s')
    (hsome : ∀ a, value = some a → Fills fields s [(key, write a)] s') :
    Fills fields s (optionalMember key (value.map write)) s' := by
  cases value with
  | none =>
    cases hnone rfl
    exact .nil
  | some a => exact hsome a rfl

theorem OutputVariable.layout_reads (output : OutputVariable) {depth : Nat} (hdepth : depth ≠ 0) :
    Reads (Json.record depth layout) output.toJson output := by
  obtain ⟨name, typeTag⟩ := output
  refine record_reads (s := ⟨some name, typeTag.map some⟩) ?_ (by cases typeTag <;> rfl) hdepth
  apply Fills.cons rfl rfl ((string_reads name).map _)
  apply fills_optionalMember
  · rintro rfl
    rfl
  · rintro tag rfl
    exact .cons rfl rfl ((optional_reads_some (string_reads tag) nofun).map _) .nil

theorem versionReader_reads (number : UInt32) :
    Reads versionReader (.natural number.toNat) number := by
  have hreads : Reads (Json.natural "a version number" 0xffffffff) (.natural number.toNat)
      number.toNat :=
    natural_reads _ (Nat.le_of_lt_succ number.toNat_lt) (by decide)
  have hmap := hreads.map UInt32.ofNat
  rwa [UInt32.ofNat_toNat] at hmap

theorem Header.layout_reads (header : Header) {depth : Nat} (hdepth : 1 < depth) :
    Reads (Json.record depth (layout (depth - 1))) header.toJson header := by
  obtain ⟨name, uid, ⟨major, minor⟩, note, output⟩ := header
  -- the fields are filled from the first one to the last one; an absent one stays empty
  have hname : Fills (layout (depth - 1)).fields {} [("name", .string name)]
      { name := some name } := .cons rfl rfl ((string_reads name).map _) .nil
  have huid : Fills (layout (depth - 1)).fields { name := some name }
      (optionalMember "uid" (uid.map .string)) { name := some name, uid := uid.map some } := by
    apply fills_optionalMember
    · rintro rfl
      rfl
    · rintro uid rfl
      exact .cons rfl rfl ((optional_reads_some (string_reads uid) nofun).map _) .nil
  have hversion : Fills (layout (depth - 1)).fields { name := some name, uid := uid.map some }
      [("major", .natural major.toNat), ("minor", .natural minor.toNat)]
      { name := some name, uid := uid.map some, major := some major, minor := some minor } :=
    .cons rfl rfl ((versionReader_reads major).map _)
      (.cons rfl rfl ((versionReader_reads minor).map _) .nil)
  have hnote : Fills (layout (depth - 1)).fields
      { name := some name, uid := uid.map some, major := some major, minor := some minor }
      (optionalMember "note" (note.map .string))
      { name := some name, uid := uid.map some, major := some major, minor := some minor
        note := note.map some } := by
    apply fills_optionalMember
    · rintro rfl
      rfl
    · rintro note rfl
      exact .cons rfl rfl ((optional_reads_some (string_reads note) nofun).map _) .nil
  have houtput : Fills (layout (depth - 1)).fields
      { name := some name, uid := uid.map some, major := some major, minor := some minor
        note := note.map some }
      (optionalMember "output" (output.map OutputVariable.toJson))
      { name := some name, uid := uid.map some, major := some major, minor := some minor
        note := note.map some, output := output.map some } := by
    apply fills_optionalMember
    · rintro rfl
      rfl
    · rintro output rfl
      have hreads := output.layout_reads (show depth - 1 ≠ 0 by omega)
      exact .cons rfl rfl ((optional_reads_some hreads nofun).map _) .nil
  refine record_reads ((((hname.append huid).append hversion).append hnote).append houtput) ?_
    (by omega)
  cases uid <;> cases note <;> cases output <;> rfl

/-! ## 3. Executables -/

namespace Executable

theorem layout_reads {executable : Executable}
    (h : ∀ instruction ∈ executable.code, instruction.Addressable) {depth : Nat}
    (hdepth : 3 < depth) :
    Reads (Json.record depth (layout (depth - 1))) executable.toJson executable := by
  obtain ⟨header, code⟩ := executable
  have hheader := header.layout_reads (show 1 < depth - 1 by omega)
  have hcode : Reads (Json.list (depth - 1) (Instruction.reader (depth - 1 - 1)))
      (.list (code.toList.map Instruction.toJson)) code.toList :=
    list_reads
      (fun instruction hmem => Instruction.reader_reads (h instruction (Array.mem_def.2 hmem))
        (by omega))
      (by omega)
  refine record_reads (s := ⟨some header, some code.toList⟩) ?_ rfl (by omega)
  exact .cons rfl rfl (hheader.map _) (.cons rfl rfl (hcode.map _) .nil)

/-- The JSON text of an executable is read back as the executable, whatever its strings hold,
whether or not its targets are set, and whichever fields of its header are absent. Addresses have
64 bits. -/
theorem read_jsonText (executable : Executable)
    (h : ∀ instruction ∈ executable.code, ∀ target ∈ instruction.target?, target < UInt64.size) :
    read executable.jsonText.toList = .ok executable := by
  have hreads := layout_reads h (show 3 < Json.maxDepth by decide)
  have hread := hreads.read (written_pretty 0 executable.toJson) blanks_nil blanks_nil
  rw [List.nil_append, List.append_nil] at hread
  rw [jsonText, String.toList_ofList]
  exact hread

/-- An executable with the greatest version and address, pending targets, an absent identifier and
type, and strings of quotes, backslashes, control characters and letters of several bytes. -/
def awkward : Executable where
  header :=
    { name := "\"quoted\" \\ /"
      version := ⟨0xffffffff, 0⟩
      note := some "\x00\x08\t\n\x0c\r\x1f\x7f"
      output := some { name := "éあ😀" } }
  code := #[
    .loadLiteral "", .eval "a\n\"b\"", .scopeEnter, .condJump .done none,
    .goto "\\u0041" (some 0xffffffffffffffff), .assert .not (some 0), .jump 10, .nop]

theorem read_awkward :
    (∀ instruction ∈ awkward.code, ∀ target ∈ instruction.target?, target < UInt64.size) ∧
      read awkward.jsonText.toList = .ok awkward := by
  have haddresses : ∀ instruction ∈ awkward.code, ∀ target ∈ instruction.target?,
      target < UInt64.size := by decide
  exact ⟨haddresses, read_jsonText awkward haddresses⟩

end Executable

end TreeScript
