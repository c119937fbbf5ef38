import Assemblage.Proofs.Build.Attempts
import Assemblage.Proofs.Command.Messages

/-!
# What runs show

A run of build or preview shows messages and nothing else: each part of it shows some (`Told`), and
parts that follow one another show theirs one after the other. So the tags that are read are those
of the messages, and of the few texts that messages show as they are.

Main statement: `Command.shown_tags`. A file can bring a tag with its name:
`Command.preview_bracketed_name`.
-/

namespace Assemblage
set_option autoImplicit false

theorem Builder.coded_of_compile {b : Builder} {c : CompilerConfig}
    {run : Invocation → RunOutcome} {t : FileTree} {output : Path} {assembly : Option String}
    {r : CompileResult} (h : (b.compile (c.compile run) t output assembly).result = .ok r) :
    ∀ d ∈ r.diagnostics, d.Coded := by
  cases b.attempted (c.compile run) t output assembly with
  | stopped _ hresult | unwritten _ _ _ hresult =>
    rw [hresult] at h
    cases h
  | unproductive hcompiler _ hresult | written hcompiler _ _ hresult =>
    rw [hresult] at h
    cases h
    exact CompilerConfig.coded_of_compile hcompiler

/-! ## Parts of a run -/

/-- Whether all that is shown are messages. -/
def Told (shown : List Shown) : Prop :=
  ∃ messages : List Message, shown = messages.map Message.shown

theorem Told.nil : Told [] := ⟨[], rfl⟩

theorem Told.cons (m : Message) {shown : List Shown} (h : Told shown) :
    Told (m.shown :: shown) := by
  obtain ⟨messages, rfl⟩ := h
  exact ⟨m :: messages, rfl⟩

theorem Told.append {shown more : List Shown} (h : Told shown) (hmore : Told more) :
    Told (shown ++ more) := by
  obtain ⟨messages, rfl⟩ := h
  obtain ⟨others, rfl⟩ := hmore
  exact ⟨messages ++ others, List.map_append.symm⟩

theorem Told.one (m : Message) : Told [m.shown] := .cons m .nil

theorem Told.andThen {α β : Type} {s : Session α} {next : α → FileTree → Session β}
    (h : Told s.shown) (hnext : ∀ a t, Told (next a t).shown) : Told (s.andThen next).shown := by
  unfold Session.andThen
  cases s.outcome with
  | error stopped => exact h
  | ok a => exact h.append (hnext a s.files)

namespace Build
variable (env : Surroundings) (c : BuildConfig) (kind : AssetKind) (t : FileTree)

theorem told_gatherFragments : Told (gatherFragments c kind t).shown := by
  unfold gatherFragments
  dsimp only
  cases Discovery.fragments t (c.kind kind).directory (c.kind kind).patterns c.exclude
      c.recursive with
  | error fault => exact .nil
  | ok fragments => exact .one (.names kind _)

theorem shown_gatherFragments {fragments : List Fragment}
    (h : Discovery.fragments t (c.kind kind).directory (c.kind kind).patterns c.exclude
      c.recursive = .ok fragments) :
    (gatherFragments c kind t).shown =
      [(Message.names kind (fragments.filterMap Fragment.source)).shown] := by
  unfold gatherFragments
  dsimp only
  rw [h]
  rfl

theorem told_gather [Stack] : Told (gather c kind t).shown := by
  cases kind with
  | scripts => exact told_gatherFragments c .scripts t
  | systems => exact told_gatherFragments c .systems t
  | scenes =>
    show Told (gatherScenes c t).shown
    unfold gatherScenes
    dsimp only
    cases Discovery.scenes t c.scenes.directory c.scenes.patterns c.exclude c.recursive with
    | error fault => exact .nil
    | ok scenes => exact .one (.names .scenes _)

theorem told_refuse (fault : GatherFault) : Told (refuse kind t fault).shown := by
  have hfailed (message : String) : Told [errorLine message, failureLine kind] :=
    .cons (.error message) (.one (.failure kind))
  cases fault with
  | input fault =>
    cases fault with
    | missingFolder folder => exact .one (.skipped kind _)
    | _ => exact hfailed _
  | embed fault =>
    unfold refuse
    dsimp only
    cases fault.message? with
    | none => exact .nil
    | some message => exact hfailed message

theorem told_compile (b : Builder) : Told (compile env c kind b t).shown := by
  unfold compile
  dsimp only
  cases hresult : (b.compile (c.compiler.compile env.run) t (c.kind kind).output none).result with
  | ok r =>
    have htable : Told [diagnosticsTable r.diagnostics] :=
      .one (.results r.diagnostics (Builder.coded_of_compile hresult))
    have hline : Told [resultLine env.here kind (c.kind kind).output r] := by
      unfold resultLine
      cases r.succeeded with
      | false => exact .one (.failure kind)
      | true => exact .one (.delivered _)
    exact hline.append htable
  | error fault =>
    cases fault with
    | output fault => exact .nil
    | compiler fault =>
      cases fault with
      | files fault | noExecutable => exact .nil
      | missing executable | timedOut seconds => exact .one (.error _)

theorem told_one [Stack] : Told (one env c kind t).shown := by
  unfold one
  split
  · exact .nil
  · refine .append (.cons (.heading kind) (told_gather c kind t)) ?_
    cases (gather c kind t).outcome with
    | error fault => exact told_refuse kind t fault
    | ok b => exact told_compile env c kind t b

theorem told_several [Stack] (kinds : List AssetKind) : Told (several env c kinds t).shown := by
  induction kinds generalizing t with
  | nil => exact .nil
  | cons kind rest ih =>
    refine .andThen (told_one env c kind t) fun verdict u => ?_
    exact .andThen (ih u) fun verdicts v => .nil

theorem told_all [Stack] : Told (all env c t).shown := by
  refine .andThen (told_several env c t AssetKind.all) fun verdicts u => ?_
  show Told [(close c.strict verdicts).1]
  unfold close
  dsimp only
  split
  · exact .one .complete
  · exact .one (.failures _)

end Build

namespace Command
variable (env : Surroundings) (t : FileTree) (config : Option String) (o : Overrides)

theorem told_withConfiguration [Stack] [Streaming] {next : BuildConfig → Session Nat}
    (h : ∀ c, Told (next c).shown) : Told (withConfiguration t config o next).shown := by
  unfold withConfiguration
  cases configuration t config o with
  | ok c => exact h c
  | error fault =>
    dsimp only
    cases fault.message? with
    | none => exact .nil
    | some message => exact .one (.misconfigured message)

theorem told_runBuild [Stack] [Streaming] : Told (runBuild env config o t).shown :=
  .cons .banner (told_withConfiguration t config o fun c => Build.told_all env c t)

theorem told_present (source : String) (output : Option String) :
    Told (present source output t).shown := by
  unfold present
  cases output with
  | none => exact .one (.source source)
  | some output =>
    dsimp only
    cases t.write (Path.ofString output) (Text.encodeUtf8 source.toList) with
    | ok u => exact .one (.wrote output)
    | error fault => exact .nil

theorem told_refusePreview (fault : GatherFault) : Told (refusePreview t fault).shown := by
  cases fault with
  | input fault => exact .one (.error fault.message)
  | embed fault =>
    unfold refusePreview
    dsimp only
    cases fault.message? with
    | none => exact .nil
    | some message => exact .one (.error message)

theorem told_runPreview [Stack] [Streaming] (kind : AssetKind) (output : Option String) :
    Told (runPreview kind config o output t).shown := by
  refine told_withConfiguration t config o fun c => ?_
  refine .append (Build.told_gather c kind t) ?_
  dsimp only [Session.noticing]
  cases (Build.gather c kind t).outcome with
  | ok b => exact told_present t b.source output
  | error fault => exact told_refusePreview t fault

/-- **What comes from outside brings no tag, unless it is shown as it is.** All that a run of build
or preview shows are messages, and the tags of a message are its own and those of the one text that
it does not escape: the names of what is built, the path of an artifact or of a written source, the
fault of a configuration. All other messages have their own tags alone, whatever names, texts and
answers of the compiler went into them. -/
theorem shown_tags [Stack] [Streaming] (env : Surroundings) (t : FileTree)
    (config : Option String) (o : Overrides) :
    (∃ messages : List Message, (runBuild env config o t).shown = messages.map Message.shown) ∧
    (∀ kind output, ∃ messages : List Message,
      (runPreview kind config o output t).shown = messages.map Message.shown) ∧
    ∀ m : Message, m.shown.tags = m.own ++ Markup.tags m.raw :=
  ⟨told_runBuild env t config o, told_runPreview t config o, Message.tags_shown⟩

/-- The name of a script is read as a tag when it is announced. -/
theorem preview_bracketed_name :
    let args := ["preview", "--directory", "S"]
    let t : FileTree := ⟨[["S"]], [(["S", "[red].cs"], [])]⟩
    let m : Message := .names .scripts ["[red].cs"]
    (runLine ⟨fun _ => .missing, "/"⟩ t args).shown.head? = some m.shown ∧
      m.own = [] ∧ m.shown.tags = ["red"] := by
  intro args t m
  let o : Overrides := { Overrides.none with scripts := ⟨some ⟨0, ["S"]⟩, none⟩ }
  have hread : read? args = some (.preview .scripts none o none) := by decide +kernel
  have hwanted : (Discovery.filesBelow t ["S"]).filter
      (Discovery.isWanted KindConfig.usualPatterns BuildConfig.usualExclude false) =
        [["[red].cs"]] := by cbv
  have hfind : Discovery.find t ⟨0, ["S"]⟩ KindConfig.usualPatterns BuildConfig.usualExclude
      false = .ok [["[red].cs"]] := by
    show Except.ok (List.mergeSort ((Discovery.filesBelow t ["S"]).filter _) _) = _
    rw [hwanted, List.mergeSort_singleton]
  have htext : Discovery.read t ⟨0, ["S", "[red].cs"]⟩ = .ok "" := by decide +kernel
  have hfragments : Discovery.fragments t ⟨0, ["S"]⟩ KindConfig.usualPatterns
      BuildConfig.usualExclude false = .ok [⟨"", none, some "[red].cs"⟩] := by
    show (Discovery.find t _ KindConfig.usualPatterns _ _ >>= _) = _
    rw [hfind]
    show (Discovery.read t ⟨0, ["S", "[red].cs"]⟩ >>= _) >>= _ = _
    rw [htext]
    rfl
  have hgather : (Build.gather (o.apply .usual) .scripts t).shown = [m.shown] :=
    Build.shown_gatherFragments (o.apply .usual) .scripts t hfragments
  refine ⟨?_, rfl, by decide +kernel⟩
  rw [runLine, hread]
  show ((Build.gather (o.apply .usual) .scripts t).shown ++ _).head? = _
  rw [hgather]
  rfl

end Command

end Assemblage
