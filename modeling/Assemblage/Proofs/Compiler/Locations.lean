import Assemblage.Compiler.Report
import Assemblage.Proofs.Text.Lines
import Mathlib.Data.List.Forall2

/-!
# Locations seen from a folder

Leaving a folder out of a report changes nothing but locations, and these only where they begin with
the folder's text. A location inside the folder becomes the path from there
(`seenFrom_cutFolder_iff`). One whose text goes on from that of the folder without a separator, such
as a file in a folder with a longer name, loses the folder's text all the same
(`location_beside`).

Main statement: `diagnosticsIn_localized`.
-/

namespace Assemblage.Report
set_option autoImplicit false
open Assemblage.Text

variable {folder location : List Char}

/-- Whether a location lies inside a folder: a separator stands behind the folder's text. -/
def Inside (folder location : List Char) : Prop :=
  folder ≠ [] ∧ ∃ c rest, isSeparator c = true ∧ location = folder ++ c :: rest

/-- Whether a location begins with the text of a folder that it does not lie in. -/
def Beside (folder location : List Char) : Prop :=
  folder ≠ [] ∧ folder <+: location ∧ ¬ Inside folder location

/-- How a location looks from a folder: inside, it goes on behind the folder and all separators
there; outside, it stays as it is. -/
structure SeenFrom (folder location seen : List Char) : Prop where
  inside : Inside folder location → ∃ separators, location = folder ++ (separators ++ seen) ∧
    (∀ c ∈ separators, isSeparator c = true) ∧ ∀ c ∈ seen.head?, isSeparator c = false
  outside : ¬ Inside folder location → seen = location

theorem cutFolder_append (h : folder ≠ []) (rest : List Char) :
    cutFolder folder (folder ++ rest) = rest.dropWhile isSeparator := by
  have hprefix : folder.isPrefixOf (folder ++ rest) = true :=
    List.isPrefixOf_iff_prefix.mpr (List.prefix_append folder rest)
  simp [cutFolder, h, hprefix]

theorem cutFolder_of_not_prefix (h : ¬ (folder ≠ [] ∧ folder <+: location)) :
    cutFolder folder location = location := by
  have hcond : ¬ (!folder.isEmpty && folder.isPrefixOf location) = true := by
    simpa [← List.isPrefixOf_iff_prefix] using h
  rw [cutFolder, if_neg hcond]

theorem cutFolder_of_inside (h : Inside folder location) :
    ∃ separators, location = folder ++ (separators ++ cutFolder folder location) ∧
      (∀ c ∈ separators, isSeparator c = true) ∧
      ∀ c ∈ (cutFolder folder location).head?, isSeparator c = false := by
  obtain ⟨hne, c, rest, -, rfl⟩ := h
  rw [cutFolder_append hne]
  refine ⟨(c :: rest).takeWhile isSeparator, ?_, fun a ha => List.mem_takeWhile_imp ha,
    head?_dropWhile_false⟩
  rw [List.takeWhile_append_dropWhile]

theorem cutFolder_of_beside (h : Beside folder location) :
    location = folder ++ cutFolder folder location := by
  obtain ⟨hne, ⟨rest, rfl⟩, hnot⟩ := h
  rw [cutFolder_append hne]
  cases rest with
  | nil => rfl
  | cons c rest =>
    have hc : ¬ isSeparator c = true := fun hc => hnot ⟨hne, c, rest, hc, rfl⟩
    rw [List.dropWhile_cons_of_neg hc]

/-- A location is seen from a folder as it should be unless it lies beside it. -/
theorem seenFrom_cutFolder_iff :
    SeenFrom folder location (cutFolder folder location) ↔ ¬ Beside folder location := by
  constructor
  · intro hseen hbeside
    -- A location that stayed as it is would still begin with the folder, which is not empty.
    have hcut := cutFolder_of_beside hbeside
    rw [hseen.outside hbeside.2.2] at hcut
    exact hbeside.1 (List.self_eq_append_left.mp hcut)
  · intro hnot
    refine ⟨cutFolder_of_inside, fun houtside => cutFolder_of_not_prefix ?_⟩
    rintro ⟨hne, hprefix⟩
    exact hnot ⟨hne, hprefix, houtside⟩

/-- What leaving a folder out does to a diagnostic. -/
structure Localized (folder : List Char) (d seen : Diagnostic) : Prop where
  severity : seen.severity = d.severity
  code : seen.code = d.code
  message : seen.message = d.message
  location : Option.Rel (fun before after =>
    (SeenFrom folder before.toList after.toList ↔ ¬ Beside folder before.toList) ∧
      (Beside folder before.toList → before.toList = folder ++ after.toList))
    d.location seen.location

theorem localized_localize (folder : List Char) (d : Diagnostic) :
    Localized folder d (localize folder d) := by
  refine ⟨rfl, rfl, rfl, ?_⟩
  cases hlocation : d.location with
  | none =>
    rw [localize, hlocation]
    exact .none
  | some location =>
    rw [localize, hlocation]
    refine .some ?_
    rw [String.toList_ofList]
    exact ⟨seenFrom_cutFolder_iff, cutFolder_of_beside⟩

/-- **Leaving a folder out** keeps every diagnostic with its severity, code and message. A location
is seen from the folder exactly if it does not lie beside it; otherwise it loses the folder's
text. -/
theorem diagnosticsIn_localized (folder report : List Char) :
    List.Forall₂ (Localized folder) (diagnostics report) (diagnosticsIn folder report) := by
  rw [diagnosticsIn, List.forall₂_map_right_iff]
  exact List.forall₂_same.mpr fun d _ => localized_localize folder d

/-- A file in a folder whose name goes on from that of the folder left out. -/
theorem location_beside :
    let folder := "/tmp/build".toList
    let report := "/tmp/build2/A.cs(1,2): error CS1: m".toList
    ¬ Inside folder "/tmp/build2/A.cs(1,2)".toList ∧
      (diagnostics report).map Diagnostic.location = [some "/tmp/build2/A.cs(1,2)"] ∧
      (diagnosticsIn folder report).map Diagnostic.location = [some "2/A.cs(1,2)"] := by
  intro folder report
  have hreport : diagnostics report =
      [⟨.error, "m", some "CS1", some "/tmp/build2/A.cs(1,2)"⟩] := by
    rw [show report = _ from String.toList_ofList]
    decide +kernel
  rw [diagnosticsIn, hreport]
  refine ⟨?_, rfl, by decide +kernel⟩
  rintro ⟨-, c, rest, hc, h⟩
  have hsplit : "/tmp/build2/A.cs(1,2)".toList =
      "/tmp/build".toList ++ '2' :: "/A.cs(1,2)".toList := by decide
  obtain ⟨rfl, -⟩ := List.cons.inj (List.append_cancel_left (hsplit.symm.trans h))
  exact absurd hc (by decide)

end Assemblage.Report
