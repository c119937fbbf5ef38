import Assemblage.Command.Execute
import Assemblage.Proofs.Build.Delivery
import Assemblage.Proofs.Compiler.Run

/-!
# What one kind does

What a kind does depends on the tree only through the files that it finds, and all that it leaves in
the tree is its output, with the folders around it (`Build.one_leaves`). So a kind notices nothing
of a growth of the tree aside of its folder: it has the same verdict, shows and reports the same,
and starts the compiler in the same way (`Build.one_grown`).
-/

namespace Assemblage
set_option autoImplicit false
open Assemblage.Text (Bytes)

/-! ## Parts of a run -/

namespace Session
variable {α β : Type}

theorem andThen_of_ok {s : Session α} {a : α} (h : s.outcome = .ok a)
    (next : α → FileTree → Session β) :
    s.andThen next = ⟨(next a s.files).outcome, s.shown ++ (next a s.files).shown,
      s.notices ++ (next a s.files).notices, s.invocations ++ (next a s.files).invocations,
      (next a s.files).files⟩ := by
  rw [andThen, h]

theorem outcome_andThen_eq_ok {s : Session α} {next : α → FileTree → Session β} {b : β}
    (h : (s.andThen next).outcome = .ok b) :
    ∃ a, s.outcome = .ok a ∧ (next a s.files).outcome = .ok b := by
  cases ha : s.outcome with
  | error stopped =>
    rw [andThen, ha] at h
    cases h
  | ok a =>
    rw [andThen_of_ok ha] at h
    exact ⟨a, rfl, h⟩

/-- Whether two parts of runs are the same but for the files that they leave. -/
structure Same (s s' : Session α) : Prop where
  outcome : s.outcome = s'.outcome
  shown : s.shown = s'.shown
  notices : s.notices = s'.notices
  invocations : s.invocations = s'.invocations

theorem Same.framed {s s' : Session α} (h : s.Same s') (notices : List Notice)
    (shown : List Shown) :
    ((s.noticing notices).showing shown).Same ((s'.noticing notices).showing shown) where
  outcome := h.outcome
  shown := congrArg (shown ++ ·) h.shown
  notices := congrArg (notices ++ ·) h.notices
  invocations := h.invocations

end Session

/-! ## The builder of a kind -/

namespace Builder

theorem settings_addAll (b : Builder) (fragments : List Fragment) :
    (b.addAll fragments).1.settings = b.settings := by
  induction fragments generalizing b with
  | nil => rfl
  | cons f rest ih => exact ih _

end Builder

namespace SceneBuilder

theorem settings_addPayload (s : SceneBuilder) (owner : String) (payload : Bytes) :
    (s.addPayload owner payload).builder.builder.settings = s.builder.settings := by
  unfold addPayload
  dsimp only
  split <;> rfl

theorem settings_addRead (s : SceneBuilder) (name : String) (world : Except SceneFault World) :
    (s.addRead name world).builder.builder.settings = s.builder.settings := by
  unfold addRead
  split
  · rfl
  · split
    · rfl
    · exact s.settings_addPayload _ _

theorem settings_addScenes (s : SceneBuilder) (scenes : List (String × Except SceneFault World)) :
    (s.addScenes scenes).builder.builder.settings = s.builder.settings := by
  induction scenes generalizing s with
  | nil => rfl
  | cons scene rest ih =>
    rw [addScenes]
    dsimp only
    split
    · exact s.settings_addRead _ _
    · exact (ih _).trans (s.settings_addRead _ _)

end SceneBuilder

namespace Build

theorem settings_of_gather [Stack] {c : BuildConfig} {kind : AssetKind} {t : FileTree} {b : Builder}
    (h : (gather c kind t).outcome = .ok b) : b.settings = c.settings kind := by
  have hfragments : ∀ kind, (gatherFragments c kind t).outcome = .ok b →
      b.settings = c.settings kind := by
    intro kind h
    unfold gatherFragments at h
    dsimp only at h
    split at h
    · cases h
    · cases h
      exact Builder.settings_addAll _ _
  cases kind with
  | scripts => exact hfragments .scripts h
  | systems => exact hfragments .systems h
  | scenes =>
    have h : (gatherScenes c t).outcome = .ok b := h
    unfold gatherScenes at h
    dsimp only at h
    split at h
    · cases h
    · dsimp only at h
      split at h
      · cases h
        rw [SceneBuilder.settings_addScenes]
        unfold SceneBuilder.ofSettings
        dsimp only
        split
        · unfold Builder.addEpilogue
          split <;> rfl
        · rfl
      · cases h

end Build

/-! ## Compiling a builder -/

namespace CompilerConfig

/-- A run that gives a product has left it as its artifact. -/
theorem artifact_of_conclude {c : CompilerConfig} {outcome : RunOutcome} {r : CompileResult}
    {bytes : Bytes} (h : c.conclude outcome = .ok r) (hproduct : r.product? = some bytes) :
    ∃ code stdout stderr, outcome = .finished code stdout stderr (some bytes) := by
  cases outcome with
  | missing | timedOut => cases h
  | finished code stdout stderr artifact =>
    cases h
    have hsucceeded : (judge code (joinOutputs stdout stderr) artifact).succeeded = true := by
      rw [CompileResult.succeeded, hproduct]
      rfl
    have hgood := succeeded_judge.mp hsucceeded
    rw [judge_of_good hgood, CompileResult.product?] at hproduct
    split at hproduct
    · obtain rfl : artifact = some bytes := hproduct
      exact ⟨code, stdout, stderr, rfl⟩
    · cases hproduct

end CompilerConfig

namespace Build
open FileTree (Grown Free)

/-- The start of the compiler for a builder. -/
def start (c : BuildConfig) (b : Builder) : Invocation := c.compiler.start (b.request none)

/-- What becomes of the start of the compiler. -/
def answer (env : Surroundings) (c : BuildConfig) (b : Builder) :
    Except CompilerFault CompileResult :=
  c.compiler.conclude (env.run (start c b))

/-- What is reported about the result of a builder. -/
def resultNotices (b : Builder) (r : CompileResult) : List Notice :=
  if r.succeeded then [] else [.failedCompile (b.request none).assembly]

/-- What is done with the answer of the compiler. -/
def finish (env : Surroundings) (c : BuildConfig) (kind : AssetKind) (b : Builder)
    (t : FileTree) : Session Verdict :=
  match answer env c b with
  | .error fault =>
    match fault.message? with
    | some message => ⟨.ok .failure, [errorLine message], [], [start c b], t⟩
    | none => ⟨.error .noExecutable, [], [], [start c b], t⟩
  | .ok r =>
    match Builder.deliver t (c.kind kind).output r with
    | .error fault =>
      ⟨.error (.files fault), [], resultNotices b r, [start c b],
        t.attemptFolder (c.kind kind).output.parent⟩
    | .ok files =>
      ⟨.ok (if r.succeeded then .success else .failure),
        [resultLine env.here kind (c.kind kind).output r, diagnosticsTable r.diagnostics],
        resultNotices b r, [start c b], files⟩

theorem compile_eq_finish (env : Surroundings) (c : BuildConfig) (kind : AssetKind) {b : Builder}
    {t : FileTree} (hfree : t.Free CompilerConfig.folder.parts)
    (hname : '/' ∉ b.settings.assembly.toList) :
    compile env c kind b t = finish env c kind b t := by
  have hcompile := CompilerConfig.compile_eq c.compiler env.run (r := b.request none) hfree hname
  have hattempt : b.compile (c.compiler.compile env.run) t (c.kind kind).output none =
      match answer env c b with
      | .error fault => ⟨.error (.compiler fault), [], [start c b], t⟩
      | .ok r =>
        match Builder.deliver t (c.kind kind).output r with
        | .error fault =>
          ⟨.error (.output fault), resultNotices b r, [start c b],
            t.attemptFolder (c.kind kind).output.parent⟩
        | .ok files => ⟨.ok r, resultNotices b r, [start c b], files⟩ := by
    simp only [Builder.compile, hcompile]
    rfl
  simp only [compile, hattempt, finish]
  cases hanswer : answer env c b with
  | error fault =>
    cases fault with
    | files fault =>
      -- the folder of the run is free, so that every file in it can be written
      exfalso
      unfold answer at hanswer
      cases hrun : env.run (start c b) with
      | missing =>
        rw [hrun, CompilerConfig.conclude] at hanswer
        cases hcommand : c.compiler.command.head? <;> simp [hcommand] at hanswer
      | timedOut =>
        rw [hrun] at hanswer
        cases hanswer
      | finished =>
        rw [hrun] at hanswer
        cases hanswer
    | _ => rfl
  | ok r =>
    dsimp only
    cases Builder.deliver t (c.kind kind).output r <;> rfl

/-! ## What a kind leaves -/

/-- What a kind with a verdict leaves in a tree: the artifact of its start of the compiler at its
output if it succeeded, and nothing otherwise. -/
inductive Leaves (env : Surroundings) (output : Path) (t : FileTree) (s : Session Verdict)
    (verdict : Verdict) : Prop
  | kept (hverdict : verdict ≠ .success) (hfiles : s.files = t)
  | written {start : Invocation} {code : Int} {stdout stderr : String} {bytes : Bytes}
    (hverdict : verdict = .success) (hstart : s.invocations = [start])
    (hrun : env.run start = .finished code stdout stderr (some bytes))
    (hgrown : t.Grown [output] s.files) (hbytes : s.files.bytes? output.place = some bytes)

namespace Leaves
variable {env : Surroundings} {output : Path} {t u : FileTree} {s s' : Session Verdict}
  {verdict : Verdict}

theorem framed (h : Leaves env output t s verdict) (notices : List Notice) (shown : List Shown) :
    Leaves env output t ((s.noticing notices).showing shown) verdict := by
  cases h with
  | kept hverdict hfiles => exact .kept hverdict hfiles
  | written hverdict hstart hrun hgrown hbytes =>
    exact .written hverdict hstart hrun hgrown hbytes

theorem grown (h : Leaves env output t s verdict) :
    ∃ qs, t.Grown qs s.files ∧ ∀ p ∈ qs, p = output := by
  cases h with
  | kept _ hfiles => exact ⟨[], hfiles ▸ .refl t, nofun⟩
  | written _ _ _ hgrown _ => exact ⟨_, hgrown, fun p hp => List.mem_singleton.mp hp⟩

theorem of_success (h : Leaves env output t s .success) :
    ∃ start code stdout stderr bytes, s.invocations = [start] ∧
      env.run start = .finished code stdout stderr (some bytes) ∧
      s.files.bytes? output.place = some bytes := by
  cases h with
  | kept hverdict => exact absurd rfl hverdict
  | written _ hstart hrun _ hbytes => exact ⟨_, _, _, _, _, hstart, hrun, hbytes⟩

theorem files_of_ne (h : Leaves env output t s verdict) (hverdict : verdict ≠ .success) :
    s.files = t := by
  cases h with
  | kept _ hfiles => exact hfiles
  | written hsuccess => exact absurd hsuccess hverdict

theorem bytes_of_ne (h : Leaves env output t s verdict) {n : List String} (hn : n ≠ output.place) :
    s.files.bytes? n = t.bytes? n := by
  obtain ⟨qs, hgrown, hqs⟩ := h.grown
  refine hgrown.bytes n fun p hp => ?_
  rw [hqs p hp]
  exact hn

/-- The output is the same in trees in which it was the same, if the compiler started in the same
way. -/
theorem output_eq (h : Leaves env output t s verdict) (h' : Leaves env output u s' verdict)
    (hinvocations : s.invocations = s'.invocations)
    (houtput : t.bytes? output.place = u.bytes? output.place) :
    s.files.bytes? output.place = s'.files.bytes? output.place := by
  cases h with
  | kept hverdict hfiles =>
    cases h' with
    | kept _ hfiles' => rw [hfiles, hfiles', houtput]
    | written hverdict' => exact absurd hverdict' hverdict
  | written hverdict hstart hrun _ hbytes =>
    cases h' with
    | kept hverdict' => exact absurd hverdict hverdict'
    | written _ hstart' hrun' _ hbytes' =>
      rw [hstart, hstart'] at hinvocations
      cases hinvocations
      rw [hrun] at hrun'
      cases hrun'
      rw [hbytes, hbytes']

end Leaves

section Kind
variable {env : Surroundings} {c : BuildConfig} {kind : AssetKind} {b : Builder} {t u : FileTree}
  {ps : List Path} {verdict : Verdict}

theorem finish_leaves (h : (finish env c kind b t).outcome = .ok verdict) :
    Leaves env (c.kind kind).output t (finish env c kind b t) verdict := by
  unfold finish at h ⊢
  cases hanswer : answer env c b with
  | error fault =>
    rw [hanswer] at h
    dsimp only at h ⊢
    cases hmessage : fault.message? with
    | none =>
      rw [hmessage] at h
      cases h
    | some message =>
      rw [hmessage] at h
      cases h
      exact .kept nofun rfl
  | ok r =>
    rw [hanswer] at h
    dsimp only at h ⊢
    cases hdeliver : Builder.deliver t (c.kind kind).output r with
    | error fault =>
      rw [hdeliver] at h
      cases h
    | ok files =>
      rw [hdeliver] at h
      cases h
      rcases Builder.deliver_eq_ok hdeliver with ⟨hproduct, rfl⟩ |
        ⟨bytes, v, hproduct, hmake, hwrite⟩
      · exact .kept (by simp [CompileResult.succeeded, hproduct]) rfl
      · obtain ⟨code, stdout, stderr, hrun⟩ := CompilerConfig.artifact_of_conclude hanswer hproduct
        obtain ⟨hgrown, hbytes⟩ := Grown.of_write hmake hwrite
        exact .written (by simp [CompileResult.succeeded, hproduct]) rfl hrun hgrown hbytes

theorem refuse_leaves {output : Path} {fault : GatherFault}
    (h : (refuse kind t fault).outcome = .ok verdict) :
    Leaves env output t (refuse kind t fault) verdict := by
  unfold refuse at h ⊢
  split at h
  · cases h
    exact .kept nofun rfl
  · cases h
    exact .kept nofun rfl
  · next fault =>
    cases hmessage : fault.message? with
    | none =>
      rw [hmessage] at h
      cases h
    | some message =>
      rw [hmessage] at h
      cases h
      exact .kept nofun rfl

theorem one_of_enabled [Stack] (henabled : (c.kind kind).enabled = true) :
    one env c kind t =
      ((match (gather c kind t).outcome with
        | .error fault => refuse kind t fault
        | .ok builder => compile env c kind builder t).noticing (gather c kind t).notices).showing
          (.markup s!"\n[bold cyan]Building {kind.name}[/bold cyan]" ::
            (gather c kind t).shown) := by
  rw [one, henabled]
  rfl

theorem one_of_disabled [Stack] (hdisabled : (c.kind kind).enabled = false) :
    one env c kind t = .done t .skipped := by
  rw [one, hdisabled]
  rfl

variable (hname : '/' ∉ (c.settings kind).assembly.toList)
include hname

/-- **What one kind leaves.** -/
theorem one_leaves [Stack] (hfree : t.Free CompilerConfig.folder.parts)
    (h : (one env c kind t).outcome = .ok verdict) :
    Leaves env (c.kind kind).output t (one env c kind t) verdict := by
  cases henabled : (c.kind kind).enabled with
  | false =>
    rw [one_of_disabled henabled] at h ⊢
    cases h
    exact .kept nofun rfl
  | true =>
    rw [one_of_enabled henabled] at h ⊢
    refine .framed ?_ _ _
    cases hgather : (gather c kind t).outcome with
    | error fault =>
      rw [hgather] at h
      exact refuse_leaves h
    | ok b =>
      rw [hgather] at h
      have hbuilder : '/' ∉ b.settings.assembly.toList := by
        rw [settings_of_gather hgather]
        exact hname
      have h : (compile env c kind b t).outcome = .ok verdict := h
      show Leaves _ _ _ (compile env c kind b t) _
      rw [compile_eq_finish env c kind hfree hbuilder] at h ⊢
      exact finish_leaves h

omit hname in
theorem gather_of_grown [Stack] (hgrown : t.Grown ps u) (htree : t.Proper)
    (haside : t.Aside ps (c.kind kind).directory) : gather c kind u = gather c kind t := by
  cases kind with
  | scripts | systems =>
    simp only [gather, gatherFragments]
    rw [hgrown.fragments htree haside]
  | scenes =>
    have hscenes := hgrown.scenes htree haside
    simp only [BuildConfig.kind] at hscenes
    simp only [gather, gatherScenes, hscenes]

omit hname in
theorem refuse_same (fault : GatherFault) : (refuse kind t fault).Same (refuse kind u fault) := by
  unfold refuse
  split
  · exact ⟨rfl, rfl, rfl, rfl⟩
  · exact ⟨rfl, rfl, rfl, rfl⟩
  · next fault => cases fault.message? <;> exact ⟨rfl, rfl, rfl, rfl⟩

omit hname in
theorem finish_same (hgrown : t.Grown ps u) (h : (finish env c kind b u).outcome = .ok verdict) :
    (finish env c kind b t).Same (finish env c kind b u) := by
  unfold finish at h ⊢
  cases hanswer : answer env c b with
  | error fault =>
    dsimp only
    cases fault.message? <;> exact ⟨rfl, rfl, rfl, rfl⟩
  | ok r =>
    rw [hanswer] at h
    dsimp only at h ⊢
    cases hdeliver : Builder.deliver u (c.kind kind).output r with
    | error fault =>
      rw [hdeliver] at h
      cases h
    | ok files =>
      obtain ⟨files', hdeliver'⟩ := Builder.deliver_of_grown hgrown hdeliver
      rw [hdeliver']
      exact ⟨rfl, rfl, rfl, rfl⟩

/-- **One kind notices nothing** of a growth of the tree aside of its folder. -/
theorem one_grown [Stack] (hgrown : t.Grown ps u) (htree : t.Proper)
    (haside : t.Aside ps (c.kind kind).directory) (hfree : t.Free CompilerConfig.folder.parts)
    (hfree' : u.Free CompilerConfig.folder.parts) (h : (one env c kind u).outcome = .ok verdict) :
    (one env c kind t).Same (one env c kind u) := by
  cases henabled : (c.kind kind).enabled with
  | false =>
    rw [one_of_disabled henabled, one_of_disabled henabled]
    exact ⟨rfl, rfl, rfl, rfl⟩
  | true =>
    rw [one_of_enabled henabled] at h
    rw [one_of_enabled henabled, one_of_enabled henabled]
    rw [gather_of_grown hgrown htree haside] at h ⊢
    refine .framed ?_ _ _
    cases hgather : (gather c kind t).outcome with
    | error fault => exact refuse_same fault
    | ok b =>
      rw [hgather] at h
      have hbuilder : '/' ∉ b.settings.assembly.toList := by
        rw [settings_of_gather hgather]
        exact hname
      have h : (compile env c kind b u).outcome = .ok verdict := h
      show (compile env c kind b t).Same (compile env c kind b u)
      rw [compile_eq_finish env c kind hfree' hbuilder] at h ⊢
      rw [compile_eq_finish env c kind hfree hbuilder]
      exact finish_same hgrown h

end Kind

end Build
end Assemblage
