import Assemblage.Command.Execute
import Assemblage.Proofs.Command.Tags
import Assemblage.Proofs.Compiler.Outputs
import Assemblage.Proofs.Compiler.Report

/-!
# Messages and their tags

What build and preview show is one of a few messages (`Message`). Each has tags of its own and
shows texts from outside: names of files, paths, texts of faults, what the compiler said. The codes
of diagnostics hold letters and digits only (`Diagnostic.Coded`), and most other texts are escaped.
Four messages show a text as it is (`Message.raw`), and the tags of that text are read as well
(`Message.tags_shown`).
-/

namespace Assemblage
set_option autoImplicit false

/-! ## Codes -/

/-- Whether the code of a diagnostic, if there is one, opens no tag. -/
def Diagnostic.Coded (d : Diagnostic) : Prop := '[' ∉ (d.code.getD "").toList

namespace Report
open Text Matcher

theorem runOf_ne {p : Char → Bool} {a : Char} (h : p a = false) :
    runOf p ≤ runOf (· != a) := by
  intro w hw c hc
  have hne : c ≠ a := by
    rintro rfl
    have hclass := hw c hc
    rw [h] at hclass
    cases hclass
  exact bne_iff_ne.mpr hne

theorem Reads.coded {line : List Char} {d : Diagnostic} (h : Reads line d) : d.Coded := by
  have hcode : Grammar.code ≤ runOf (· != '[') :=
    code_le_runOf (runOf_ne (by decide)) (runOf_ne (by decide))
  cases h with
  | bare hc | located _ _ _ _ hc =>
    rw [Diagnostic.Coded, Option.getD_some, String.toList_ofList]
    exact fun hmem => absurd (hcode hc _ hmem) (by decide)

theorem coded_of_mem {folder report : List Char} :
    ∀ d ∈ diagnosticsIn folder report, d.Coded := by
  intro d hd
  obtain ⟨e, he, rfl⟩ := List.mem_map.mp hd
  obtain ⟨line, -, hline⟩ := List.mem_filterMap.mp he
  exact (diagnostic?_eq_some_iff.mp hline).coded

end Report

theorem CompilerConfig.coded_of_compile {c : CompilerConfig} {run : Invocation → RunOutcome}
    {t : FileTree} {r : CompileRequest} {result : CompileResult}
    (h : (c.compile run t r).result = .ok result) : ∀ d ∈ result.diagnostics, d.Coded := by
  obtain ⟨start, code, stdout, stderr, artifact, left, -, -, rfl⟩ := compile_eq_ok h
  rw [diagnostics_judge]
  intro d hd
  rcases List.mem_append.mp hd with hd | hd
  · exact Report.coded_of_mem d hd
  · split at hd
    · cases hd
    · rw [List.mem_singleton.mp hd]
      exact List.not_mem_nil

/-! ## Messages -/

namespace Shown

/-- The texts that are read as markup. -/
def markups : Shown → List String
  | markup text => [text]
  | panel text => [text]
  | table title columns rows => title :: (columns ++ rows.flatten)
  | code _ => []

/-- The contents of all tags. -/
def tags (s : Shown) : List String := s.markups.flatMap Markup.tags

end Shown

/-- What build and preview can show. -/
inductive Message where
  | banner
  | heading (kind : AssetKind)
  | names (kind : AssetKind) (list : List String)
  | skipped (kind : AssetKind) (message : String)
  | error (message : String)
  | failure (kind : AssetKind)
  | delivered (path : String)
  | results (diagnostics : List Diagnostic) (coded : ∀ d ∈ diagnostics, d.Coded)
  | complete
  | failures (kinds : List AssetKind)
  | misconfigured (message : String)
  | wrote (path : String)
  | source (text : String)

namespace Message

def shown : Message → Shown
  | banner => Command.banner
  | heading kind => .markup s!"\n[bold cyan]Building {kind.name}[/bold cyan]"
  | names kind list => Build.namesLine kind list
  | skipped kind message =>
    .markup ("[yellow]⚠ " ++ Markup.escape message ++ s!"; skipping {kind.name}[/yellow]")
  | error message => Build.errorLine message
  | failure kind => Build.failureLine kind
  | delivered path => .markup ("[green]✓[/green] Output .dll to file path: " ++ path)
  | results diagnostics _ => Build.diagnosticsTable diagnostics
  | complete => .markup "\n[bold green]✓ All builds complete[/bold green]"
  | failures kinds =>
    .markup ("\n[bold red]Failed builds:[/bold red] " ++
      ", ".intercalate (kinds.map AssetKind.name))
  | misconfigured message => .markup ("[bold red]Configuration Error:[/bold red] " ++ message)
  | wrote path => .markup s!"[green]✓[/green] Wrote {path}"
  | source text => .code text

/-- The tags of the message itself. -/
def own : Message → List String
  | banner | heading _ => ["bold cyan", "/bold cyan"]
  | skipped .. => ["yellow", "/yellow"]
  | error _ | failure _ | failures _ | misconfigured _ => ["bold red", "/bold red"]
  | delivered _ | wrote _ => ["green", "/green"]
  | complete => ["bold green", "/bold green"]
  | results [] _ => ["dim", "/dim"]
  | results diagnostics _ =>
    diagnostics.flatMap fun d => [Build.style d.severity, "/" ++ Build.style d.severity]
  | names .. | source _ => []

/-- The text from outside that the message shows as it is. -/
def raw : Message → String
  | names _ list => ", ".intercalate list
  | delivered path => path
  | misconfigured message => message
  | wrote path => path
  | _ => ""

end Message

open Markup (tags_append tags_escape tags_escape_append tags_of_not_mem)

theorem tags_markup (text : String) : (Shown.markup text).tags = Markup.tags text := by
  rw [Shown.tags, Shown.markups, List.flatMap_singleton]

/-- Words that are over keep their tags, whatever text stands behind them. -/
theorem tags_words {words : String} {own : List String}
    (hover : Markup.isOver words.toList = true) (hwords : Markup.tags words = own)
    (text : String) : (Shown.markup (words ++ text)).tags = own ++ Markup.tags text := by
  rw [tags_markup, tags_append hover, hwords]

theorem tags_namesLine (kind : AssetKind) (names : List String) :
    (Build.namesLine kind names).tags = Markup.tags (", ".intercalate names) := by
  have hover : Markup.isOver s!"Building the following {kind.name}: ".toList = true := by
    cases kind <;> decide +kernel
  have hwords : Markup.tags s!"Building the following {kind.name}: " = [] := by
    cases kind <;> decide +kernel
  show (Shown.markup (s!"Building the following {kind.name}: " ++ ite _ _ _)).tags = _
  rw [tags_words hover hwords, List.nil_append]
  split
  · next hempty =>
    rw [hempty]
    decide +kernel
  · rfl

theorem not_mem_intercalate {c : Char} {sep : List Char} (hsep : c ∉ sep)
    {ls : List (List Char)} (h : ∀ l ∈ ls, c ∉ l) : c ∉ sep.intercalate ls := by
  induction ls with
  | nil => exact List.not_mem_nil
  | cons l ls ih =>
    obtain ⟨hl, hls⟩ := List.forall_mem_cons.mp h
    cases ls with
    | nil => simpa using hl
    | cons m ls =>
      rw [List.intercalate_cons_of_ne_nil (List.cons_ne_nil m ls)]
      simp [hl, hsep, ih hls]

theorem not_mem_kindNames (kinds : List AssetKind) :
    '[' ∉ (", ".intercalate (kinds.map AssetKind.name)).toList := by
  rw [String.toList_intercalate]
  refine not_mem_intercalate (by decide) fun l hl => ?_
  obtain ⟨name, hname, rfl⟩ := List.mem_map.mp hl
  obtain ⟨kind, -, rfl⟩ := List.mem_map.mp hname
  cases kind <;> decide

/-- A row shows the tags of its severity. -/
theorem tags_row {d : Diagnostic} (h : d.Coded) :
    (Build.row d).flatMap Markup.tags =
      [Build.style d.severity, "/" ++ Build.style d.severity] := by
  have hstyled : Markup.tags (Markup.styled (Build.style d.severity) d.severity.name) =
      [Build.style d.severity, "/" ++ Build.style d.severity] := by
    cases d.severity <;> decide +kernel
  simp only [Build.row, List.flatMap_cons, List.flatMap_nil, hstyled, tags_of_not_mem h,
    tags_escape, List.append_nil]

theorem tags_diagnosticsTable {diagnostics : List Diagnostic}
    (h : ∀ d ∈ diagnostics, d.Coded) :
    (Build.diagnosticsTable diagnostics).tags = (Message.results diagnostics h).own := by
  cases diagnostics with
  | nil =>
    show _ = ["dim", "/dim"]
    decide +kernel
  | cons d rest =>
    have hrows : ((d :: rest).map Build.row).flatten.flatMap Markup.tags =
        (d :: rest).flatMap fun d => [Build.style d.severity, "/" ++ Build.style d.severity] := by
      rw [List.flatten_eq_flatMap, List.flatMap_map, List.flatMap_assoc]
      exact List.flatMap_congr fun d hd => tags_row (h d hd)
    have hhead : ("Diagnostic results" :: ["Severity", "Code", "Location", "Message"]).flatMap
        Markup.tags = [] := by decide +kernel
    show (("Diagnostic results" :: ["Severity", "Code", "Location", "Message"]) ++ _).flatMap
      Markup.tags = _
    rw [List.flatMap_append, hhead, List.nil_append, hrows]
    rfl

theorem tags_skipped (kind : AssetKind) (message : String) :
    (Message.skipped kind message).shown.tags = ["yellow", "/yellow"] := by
  have hover : Markup.isOver "[yellow]⚠ ".toList = true := by decide +kernel
  have hwords : Markup.tags "[yellow]⚠ " = ["yellow"] := by decide +kernel
  have hfresh : Markup.isFresh s!"; skipping {kind.name}[/yellow]".toList = true := by
    cases kind <;> decide +kernel
  have hend : Markup.tags s!"; skipping {kind.name}[/yellow]" = ["/yellow"] := by
    cases kind <;> decide +kernel
  rw [Message.shown, String.append_assoc, tags_words hover hwords, tags_escape_append _ hfresh, hend]
  rfl

/-- The tags of a message are its own, and those of the text that it shows as it is. -/
theorem Message.tags_shown (m : Message) : m.shown.tags = m.own ++ Markup.tags m.raw := by
  have hred : Markup.tags "[bold red]Error:[/bold red] " = ["bold red", "/bold red"] := by
    decide +kernel
  cases m with
  | names kind list => exact tags_namesLine kind list
  | delivered path =>
    have hwords : Markup.tags "[green]✓[/green] Output .dll to file path: " =
        ["green", "/green"] := by decide +kernel
    exact tags_words (by decide +kernel) hwords path
  | misconfigured message =>
    have hwords : Markup.tags "[bold red]Configuration Error:[/bold red] " =
        ["bold red", "/bold red"] := by decide +kernel
    exact tags_words (by decide +kernel) hwords message
  | wrote path =>
    have hwords : Markup.tags "[green]✓[/green] Wrote " = ["green", "/green"] := by decide +kernel
    exact tags_words (by decide +kernel) hwords path
  | error message =>
    have hescaped := tags_words (by decide +kernel) hred (Markup.escape message)
    rw [tags_escape] at hescaped
    exact hescaped
  | failures kinds =>
    have hwords : Markup.tags "\n[bold red]Failed builds:[/bold red] " =
        ["bold red", "/bold red"] := by decide +kernel
    have hkinds := tags_words (by decide +kernel) hwords (", ".intercalate (kinds.map AssetKind.name))
    rw [tags_of_not_mem (not_mem_kindNames kinds)] at hkinds
    exact hkinds
  | skipped kind message => exact tags_skipped kind message
  | results diagnostics coded =>
    exact (tags_diagnosticsTable coded).trans (List.append_nil _).symm
  | banner =>
    show Command.banner.tags = ["bold cyan", "/bold cyan"]
    decide +kernel
  | heading kind =>
    show (Shown.markup _).tags = ["bold cyan", "/bold cyan"]
    cases kind <;> decide +kernel
  | failure kind =>
    show (Build.failureLine kind).tags = ["bold red", "/bold red"]
    cases kind <;> decide +kernel
  | complete =>
    show (Shown.markup _).tags = ["bold green", "/bold green"]
    decide +kernel
  | source text => exact (List.append_nil _).symm

end Assemblage
