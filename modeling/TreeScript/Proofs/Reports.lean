import TreeScript.Diagnostics
import TreeScript.Proofs.Run

/-!
# Lists of diagnostics

Reporting entries one after the other. Whether a compile succeeds depends on the number of errors
alone, so what matters about a list of entries is whether it holds an error.
-/

namespace TreeScript

/-! ## 1. Entries without errors -/

/-- Whether an entry is an error. -/
def Diagnostic.isError (entry : Diagnostic) : Bool :=
  entry.severity = .error

/-- Entries that do not keep a compile from succeeding. -/
def Errorless (entries : List Diagnostic) : Prop :=
  ∀ entry ∈ entries, entry.isError = false

@[simp] theorem errorless_nil : Errorless [] := by
  intro entry h
  cases h

@[simp] theorem errorless_append {first second : List Diagnostic} :
    Errorless (first ++ second) ↔ Errorless first ∧ Errorless second := by
  unfold Errorless
  constructor
  · intro h
    exact ⟨fun entry hentry => h entry (List.mem_append_left _ hentry),
      fun entry hentry => h entry (List.mem_append_right _ hentry)⟩
  · rintro ⟨hfirst, hsecond⟩ entry hentry
    rcases List.mem_append.1 hentry with hentry | hentry
    · exact hfirst entry hentry
    · exact hsecond entry hentry

@[simp] theorem errorless_cons {entry : Diagnostic} {entries : List Diagnostic} :
    Errorless (entry :: entries) ↔ entry.isError = false ∧ Errorless entries := by
  unfold Errorless
  exact List.forall_mem_cons

theorem errorless_flatMap {α : Type} {f : α → List Diagnostic} {xs : List α} :
    Errorless (xs.flatMap f) ↔ ∀ x ∈ xs, Errorless (f x) := by
  unfold Errorless
  constructor
  · intro h x hx entry hentry
    exact h entry (List.mem_flatMap.2 ⟨x, hx, hentry⟩)
  · intro h entry hentry
    obtain ⟨x, hx, hentry⟩ := List.mem_flatMap.1 hentry
    exact h x hx entry hentry

/-! ## 2. Reporting in a row -/

namespace Diagnostics

/-- Reports entries in their order. -/
def reportAll (d : Diagnostics) (entries : List Diagnostic) : Diagnostics :=
  entries.foldl report d

@[simp] theorem reportAll_nil (d : Diagnostics) : d.reportAll [] = d := rfl

@[simp] theorem reportAll_append (d : Diagnostics) (first second : List Diagnostic) :
    d.reportAll (first ++ second) = (d.reportAll first).reportAll second :=
  List.foldl_append

theorem reportAll_singleton (d : Diagnostics) (entry : Diagnostic) :
    d.reportAll [entry] = d.report entry := rfl

theorem entries_reportAll (d : Diagnostics) (entries : List Diagnostic) :
    (d.reportAll entries).entries = d.entries ++ entries.toArray := by
  induction entries generalizing d with
  | nil => exact Array.append_empty.symm
  | cons entry entries ih =>
    change ((d.report entry).reportAll entries).entries = _
    rw [ih, report]
    simp

theorem errors_reportAll (d : Diagnostics) (entries : List Diagnostic) :
    (d.reportAll entries).errors = d.errors + entries.countP Diagnostic.isError := by
  induction entries generalizing d with
  | nil => rfl
  | cons entry entries ih =>
    change ((d.report entry).reportAll entries).errors = _
    rw [ih, List.countP_cons]
    by_cases herror : entry.severity = .error
    · simp only [report, Diagnostic.isError, herror, if_true, decide_true]
      omega
    · simp only [report, Diagnostic.isError, herror, if_false, decide_false, Bool.false_eq_true]
      omega

theorem warnings_reportAll (d : Diagnostics) (entries : List Diagnostic) :
    (d.reportAll entries).warnings =
      d.warnings + entries.countP fun entry => entry.severity = .warning := by
  induction entries generalizing d with
  | nil => rfl
  | cons entry entries ih =>
    change ((d.report entry).reportAll entries).warnings = _
    rw [ih, List.countP_cons]
    by_cases hwarning : entry.severity = .warning
    · simp only [report, hwarning, if_true, decide_true]
      omega
    · simp only [report, hwarning, if_false, decide_false, Bool.false_eq_true]
      omega

theorem counts_reportAll_errors {α : Type} {f : α → Diagnostic} (hf : ∀ x, (f x).severity = .error)
    (xs : List α) (d : Diagnostics) :
    (d.reportAll (xs.map f)).errors = d.errors + xs.length ∧
      (d.reportAll (xs.map f)).warnings = d.warnings := by
  rw [errors_reportAll, warnings_reportAll, List.countP_map, List.countP_map,
    List.countP_eq_length.2, List.countP_eq_zero.2]
  · exact ⟨rfl, rfl⟩
  · intro x _
    simp [hf x]
  · intro x _
    exact decide_eq_true (hf x)

theorem counts_reportAll_warnings {α : Type} {f : α → Diagnostic}
    (hf : ∀ x, (f x).severity = .warning) (xs : List α) (d : Diagnostics) :
    (d.reportAll (xs.map f)).errors = d.errors ∧
      (d.reportAll (xs.map f)).warnings = d.warnings + xs.length := by
  rw [errors_reportAll, warnings_reportAll, List.countP_map, List.countP_map,
    List.countP_eq_zero.2, List.countP_eq_length.2]
  · exact ⟨rfl, rfl⟩
  · intro x _
    exact decide_eq_true (hf x)
  · intro x _
    simp [Diagnostic.isError, hf x]

/-- Entries leave the number of errors as it is just when none of them is an error. -/
theorem errors_reportAll_eq_iff (d : Diagnostics) (entries : List Diagnostic) :
    (d.reportAll entries).errors = d.errors ↔ Errorless entries := by
  rw [errors_reportAll, Nat.add_eq_left, List.countP_eq_zero]
  simp only [Errorless, Bool.not_eq_true]

/-- There are no errors just when there were none before and none is among the entries. -/
theorem hasErrors_reportAll (d : Diagnostics) (entries : List Diagnostic) :
    (d.reportAll entries).hasErrors = false ↔ d.hasErrors = false ∧ Errorless entries := by
  rw [← errors_reportAll_eq_iff d entries]
  simp only [hasErrors, decide_eq_false_iff_not, Nat.not_lt, Nat.le_zero, errors_reportAll]
  omega

end Diagnostics

/-- Reporting an entry for each member of a list. -/
theorem Reporting.forM_report_map {α : Type} (f : α → Diagnostic) (xs : List α) (d : Diagnostics) :
    (xs.forM fun x => Reporting.report (f x)) d = ((), d.reportAll (xs.map f)) := by
  induction xs generalizing d with
  | nil => rfl
  | cons x xs ih => exact ih (d.report (f x))

theorem Reporting.forM_report (entries : List Diagnostic) (d : Diagnostics) :
    (entries.forM Reporting.report) d = ((), d.reportAll entries) := by
  have h := Reporting.forM_report_map id entries d
  rwa [List.map_id] at h

end TreeScript
