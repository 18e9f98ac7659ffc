import ConditionalForm.CommandLine.Run
import Mathlib.Algebra.Ring.Nat
import Mathlib.Data.List.Basic

set_option autoImplicit false

namespace ConditionalForm.Lint

namespace FileReport

variable (file : FileReport)

theorem status_error_iff : file.status = .error ↔ ∃ d ∈ file.diagnostics, d.isError = true := by
  rw [status, ← List.any_eq_true]
  cases file.diagnostics.any Diagnostic.isError <;> cases file.diagnostics.isEmpty <;> simp

theorem status_ok_iff : file.status = .ok ↔ file.diagnostics = [] := by
  rw [status]
  cases found : file.diagnostics with
  | nil => exact ⟨fun _ => rfl, fun _ => rfl⟩
  | cons d tail => cases (d :: tail).any Diagnostic.isError <;> simp

theorem fails_iff (strict : Bool) :
    file.fails strict = true ↔ ∃ d ∈ file.diagnostics, d.isError = true ∨ strict = true := by
  have by_status : file.fails strict = true ↔ file.status = .error ∨ strict = true ∧ ¬file.status = .ok := by
    rw [fails]
    cases file.status <;> simp
  rw [by_status, file.status_error_iff, file.status_ok_iff]
  constructor
  · rintro (⟨d, member, error⟩ | ⟨strictly, some_found⟩)
    · exact ⟨d, member, .inl error⟩
    · obtain ⟨first, member⟩ := List.exists_mem_of_ne_nil _ some_found
      exact ⟨first, member, .inr strictly⟩
  · rintro ⟨d, member, error | strictly⟩
    · exact .inl ⟨d, member, error⟩
    · exact .inr ⟨strictly, List.ne_nil_of_mem member⟩

end FileReport

namespace Report

variable (report : Report)

theorem mem_diagnostics_iff (d : Diagnostic) :
    d ∈ report.diagnostics ↔ ∃ file ∈ report.files, d ∈ file.diagnostics :=
  List.mem_flatMap

theorem failed_le_checked : report.failed ≤ report.checked := List.length_filter_le _ _

theorem passed_add_failed : report.passed + report.failed = report.checked :=
  Nat.sub_add_cancel report.failed_le_checked

theorem errors_add_warnings : report.errors + report.warnings = report.diagnostics.length :=
  (List.length_eq_length_filter_add Diagnostic.isError).symm

theorem errors_none_iff : report.errors = 0 ↔ ∀ d ∈ report.diagnostics, ¬d.isError = true := by
  simp [errors, List.filter_eq_nil_iff]

theorem warnings_none_iff : report.warnings = 0 ↔ ∀ d ∈ report.diagnostics, d.isError = true := by
  simp [warnings, List.filter_eq_nil_iff]

theorem failed_none_iff :
    report.failed = 0 ↔ ∀ d ∈ report.diagnostics, ¬(d.isError = true ∨ report.strict = true) := by
  rw [failed, List.length_eq_zero_iff, List.filter_eq_nil_iff]
  constructor
  · intro passing d found failing
    obtain ⟨file, listed, member⟩ := (report.mem_diagnostics_iff d).mp found
    exact passing file listed ((file.fails_iff report.strict).mpr ⟨d, member, failing⟩)
  · intro harmless file listed failing
    obtain ⟨d, member, harm⟩ := (file.fails_iff report.strict).mp failing
    exact harmless d ((report.mem_diagnostics_iff d).mpr ⟨file, listed, member⟩) harm

theorem is_ok_iff : report.isOk = true ↔ report.errors = 0 := beq_iff_eq

theorem succeeds_iff : report.succeeds = true ↔
    report.isOk = true ∧ (report.strict = true → report.warnings = 0) := by
  rw [succeeds, Bool.and_eq_true]
  cases report.strict <;> simp

-- Strictly judged, a report without errors and without warnings has no findings at all; otherwise only its errors
-- are held against a file. This is where the count by file meets the count by finding.
theorem failed_none_iff_succeeds : report.failed = 0 ↔ report.succeeds = true := by
  rw [report.failed_none_iff, report.succeeds_iff, report.is_ok_iff, report.errors_none_iff,
    report.warnings_none_iff]
  constructor
  · intro harmless
    refine ⟨fun d found error => harmless d found (.inl error), fun strictly d found => ?_⟩
    exact absurd (.inr strictly) (harmless d found)
  · rintro ⟨mild, only_errors⟩ d found (error | strictly)
    · exact mild d found error
    · exact mild d found (only_errors strictly d found)

structure Consistent : Prop where
  failed_among_checked : report.failed ≤ report.checked
  passed_or_failed : report.passed + report.failed = report.checked
  one_result_each : report.checked = report.files.length
  all_findings_counted :
    report.errors + report.warnings = (report.files.map fun file => file.diagnostics.length).sum
  ok_without_findings : ∀ file ∈ report.files, file.status = .ok ↔ file.diagnostics = []
  error_with_error : ∀ file ∈ report.files,
    file.status = .error ↔ ∃ d ∈ file.diagnostics, d.finding.severity = .error
  none_failed : report.failed = 0 ↔
    report.isOk = true ∧ (report.strict = true → report.warnings = 0)

theorem consistent : report.Consistent where
  failed_among_checked := report.failed_le_checked
  passed_or_failed := report.passed_add_failed
  one_result_each := rfl
  all_findings_counted := report.errors_add_warnings.trans List.length_flatMap
  ok_without_findings file _ := file.status_ok_iff
  error_with_error file _ := by
    simp only [file.status_error_iff, Diagnostic.isError, beq_iff_eq]
  none_failed := report.failed_none_iff_succeeds.trans report.succeeds_iff

end Report

def schemaFiles (tree : FileTree) (path : String) : List (String × String) :=
  match tree.at? path with
  | some (.file _) => if isSchemaName (Text.afterLast '/' path) then [("", path)] else []
  | some .directory =>
      ((tree.filesBelow (FilePath.ofString path)).filter fun file =>
        isSchemaName (file.getLast?.getD "")).map fun file =>
          ("/".intercalate file, FilePath.append path ("/".intercalate file))
  | none => []

theorem inspect_files (tree : FileTree) (path : String) (strict : Bool) :
    (inspect tree path strict).files =
      (schemaFiles tree path).map fun file => inspectFile tree file.1 file.2 := by
  simp only [inspect, schemaFiles]
  cases tree.at? path with
  | none => rfl
  | some node =>
      cases node with
      | file bytes => cases isSchemaName (Text.afterLast '/' path) <;> rfl
      | directory =>
          simp only [List.map_map]
          rfl

theorem lint_code (tree : FileTree) (layout : Json → String) (path format : String) (strict quiet : Bool) :
    ((CommandLine.Command.lint path format strict quiet).run tree layout).code =
      if (tree.at? path).isNone then 2 else if (inspect tree path strict).failed = 0 then 0 else 1 := by
  rw [CommandLine.Command.run, CommandLine.Command.runLint]
  cases tree.at? path with
  | none => rfl
  | some node =>
      simp only [(inspect tree path strict).failed_none_iff_succeeds]
      rfl

theorem report_totals_agree :
    (∀ report : Report, report.Consistent) ∧
    ∀ (tree : FileTree) (path : String) (strict : Bool),
      (inspect tree path strict).strict = strict ∧
      (inspect tree path strict).checked = (schemaFiles tree path).length ∧
      (inspect tree path strict).files =
        (schemaFiles tree path).map (fun file => inspectFile tree file.1 file.2) ∧
      ∀ (layout : Json → String) (format : String) (quiet : Bool),
        ((CommandLine.Command.lint path format strict quiet).run tree layout).code =
          if (tree.at? path).isNone then 2 else if (inspect tree path strict).failed = 0 then 0 else 1 := by
  refine ⟨Report.consistent, fun tree path strict => ⟨rfl, ?_, inspect_files tree path strict, ?_⟩⟩
  · rw [Report.checked, inspect_files, List.length_map]
  · exact fun layout format quiet => lint_code tree layout path format strict quiet

end ConditionalForm.Lint
