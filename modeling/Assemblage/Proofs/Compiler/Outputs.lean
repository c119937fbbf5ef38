import Assemblage.Proofs.Compiler.Run
import Assemblage.Proofs.Text.Contents

/-!
# The outputs of a compiler

A report is read line by line, and a line that holds nothing is no diagnostic. So the diagnostics of
two texts with a line feed between them are those of the one and then those of the other
(`Report.diagnosticsIn_seam`), however the first one ends and the second one starts.

Main statement: a compilation finds the diagnostics of both outputs of the compiler, one after the
other (`CompilerConfig.compile_outputs`).
-/

namespace Assemblage
set_option autoImplicit false
open Assemblage.Text

namespace Report

theorem diagnostics_eq_filledLines (report : List Char) :
    diagnostics report = (filledLines isAnyBreak report).filterMap diagnostic? := by
  have hnil : diagnostic? [] = none := rfl
  rw [diagnostics, filledLines, List.filterMap_filter]
  refine List.filterMap_congr fun line _ => ?_
  by_cases hline : line = []
  · rw [hline, hnil]
    rfl
  · rw [if_pos (bne_iff_ne.mpr hline)]

theorem diagnosticsIn_seam (folder a b : List Char) :
    diagnosticsIn folder (a ++ '\n' :: b) = diagnosticsIn folder a ++ diagnosticsIn folder b := by
  have hfeed : isAnyBreak '\n' = true := by decide
  simp only [diagnosticsIn, diagnostics_eq_filledLines, filledLines_seam hfeed,
    List.filterMap_append, List.map_append]

end Report

namespace CompilerConfig

theorem found_eq (stdout stderr : String) :
    found stdout stderr = Report.diagnosticsIn folder.toString.toList stdout.toList ++
      Report.diagnosticsIn folder.toString.toList stderr.toList := by
  have hnil (d : List Char) : Report.diagnosticsIn d [] = [] := by
    simp [Report.diagnosticsIn, Report.diagnostics_eq_filledLines, filledLines_nil]
  unfold found joinOutputs
  split_ifs with hout herr
  · rw [hout, String.toList_empty, hnil, List.nil_append]
  · rw [herr, String.toList_empty, hnil, List.append_nil]
  · exact Report.diagnosticsIn_seam _ _ _

/-- A result holds what was found, and an error of its own only if the run failed and no error was
found. -/
theorem diagnostics_judge (code : Int) (stdout stderr : String) (artifact : Option Bytes) :
    let result := judge code (joinOutputs stdout stderr) artifact
    result.diagnostics = found stdout stderr ++
      if result.artifact.isSome || (found stdout stderr).any Diagnostic.isError then []
      else [.ofMessage (exitMessage code (joinOutputs stdout stderr))] := by
  intro result
  by_cases hgood : Good code (found stdout stderr) artifact
  · have hresult : result = ⟨artifact, found stdout stderr⟩ := judge_of_good hgood
    rw [hresult, hgood.artifact]
    simp
  · have hfailed : Failed code stdout stderr result := judge_of_not_good hgood
    rw [hfailed.diagnostics, hfailed.artifact]
    simp

theorem compile_eq_ok {c : CompilerConfig} {run : Invocation → RunOutcome} {t : FileTree}
    {r : CompileRequest} {result : CompileResult} (h : (c.compile run t r).result = .ok result) :
    ∃ start code stdout stderr artifact left, (c.compile run t r).invocations = [start] ∧
      run start = .finished code stdout stderr artifact ∧
      result = judge code (joinOutputs stdout stderr) left := by
  unfold compile at h ⊢
  cases hprepare : prepare t r with
  | error fault =>
    rw [hprepare] at h
    cases h
  | ok prepared =>
    rw [hprepare] at h
    dsimp only at h ⊢
    cases hrun : run (c.invocation prepared r) with
    | missing =>
      rw [hrun] at h
      cases h
    | timedOut =>
      rw [hrun] at h
      cases h
    | finished code stdout stderr artifact =>
      rw [hrun] at h
      cases h
      exact ⟨_, code, stdout, stderr, artifact, _, rfl, hrun, rfl⟩

/-- **Nothing happens at the seam of two outputs.** A line feed between two texts parts their
diagnostics, for every folder that is left out of the locations. A compilation that has a result
thus has the diagnostics of the standard output and then those of the error output; only a run
that failed without an error among them gets one more, which quotes the outputs. -/
theorem compile_outputs :
    (∀ folder a b, Report.diagnosticsIn folder (a ++ '\n' :: b) =
      Report.diagnosticsIn folder a ++ Report.diagnosticsIn folder b) ∧
    ∀ (c : CompilerConfig) (run : Invocation → RunOutcome) (t : FileTree) (r : CompileRequest)
      (result : CompileResult), (c.compile run t r).result = .ok result →
      ∃ start code stdout stderr artifact, (c.compile run t r).invocations = [start] ∧
        run start = .finished code stdout stderr artifact ∧
        let outputs := Report.diagnosticsIn folder.toString.toList stdout.toList ++
          Report.diagnosticsIn folder.toString.toList stderr.toList
        result.diagnostics = outputs ++
          if result.artifact.isSome || outputs.any Diagnostic.isError then []
          else [.ofMessage (exitMessage code (joinOutputs stdout stderr))] := by
  refine ⟨Report.diagnosticsIn_seam, fun c run t r result h => ?_⟩
  obtain ⟨start, code, stdout, stderr, artifact, left, hinvocations, hrun, rfl⟩ := compile_eq_ok h
  refine ⟨start, code, stdout, stderr, artifact, hinvocations, hrun, ?_⟩
  intro outputs
  have hfound : found stdout stderr = outputs := found_eq stdout stderr
  rw [← hfound]
  exact diagnostics_judge code stdout stderr left

/-- The standard output ends in a carriage return, which the line feed behind it joins. -/
theorem compile_outputs_return :
    let stdout := "a(1,2): error CS1: m\r"
    let stderr := "\n warning CS2: n"
    let result : CompileResult :=
      ⟨none, [⟨.error, "m", some "CS1", some "a(1,2)"⟩, ⟨.warning, "n", some "CS2", none⟩]⟩
    (usual.compile (fun _ => .finished 1 stdout stderr none) .empty ⟨["x"], [], "S"⟩).result =
        .ok result ∧
      result.diagnostics = Report.diagnosticsIn folder.toString.toList stdout.toList ++
        Report.diagnosticsIn folder.toString.toList stderr.toList := by
  intro stdout stderr result
  have hfree : FileTree.empty.Free folder.parts := by
    constructor <;> simp [FileTree.empty]
  have hjudge : judge 1 (joinOutputs stdout stderr) none = result := by decide +kernel
  have hresult : (usual.compile (fun _ => .finished 1 stdout stderr none) .empty
      ⟨["x"], [], "S"⟩).result = .ok result := by
    rw [compile_eq _ _ hfree (by decide), conclude, hjudge]
  obtain ⟨start, code, out, err, artifact, -, hrun, hdiagnostics⟩ :=
    compile_outputs.2 _ _ _ _ _ hresult
  have herror : (Report.diagnosticsIn folder.toString.toList stdout.toList ++
      Report.diagnosticsIn folder.toString.toList stderr.toList).any Diagnostic.isError = true := by
    decide +kernel
  obtain ⟨-, rfl, rfl, -⟩ := RunOutcome.finished.inj hrun
  dsimp only at hdiagnostics
  rw [herror, Bool.or_true, if_pos rfl, List.append_nil] at hdiagnostics
  exact ⟨hresult, hdiagnostics⟩

end CompilerConfig

end Assemblage
