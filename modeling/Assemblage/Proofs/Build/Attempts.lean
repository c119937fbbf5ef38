import Assemblage.Proofs.Build.Delivery
import Assemblage.Proofs.Build.Merge
import Assemblage.Proofs.Build.Scenes

/-!
# Attempts to compile

A builder can be asked to compile at any time, and fragments can be added after that. What an
attempt does depends on what the compiler makes of the request (`Builder.Attempted`): the artifact
is written only if the result holds one and no error beside it, and a result that holds none leaves
all files as they are.

Main statement: no attempt is seen by the builder. After any calls it is what it is after those
without the attempts, and each attempt asks the compiler for the one source of what was added before
it (`Workplace.run_attempts`). An artifact that cannot be written keeps the result from its caller:
`Workplace.run_below_artifact`.
-/

namespace Assemblage
set_option autoImplicit false
open Assemblage.Text (Bytes)

/-! ## One attempt -/

namespace Builder

/-- What an attempt to compile may come to, by what the compiler made of the request. -/
inductive Attempted (c : Compilation) (output : Path) (a : Attempt) : Prop
  | stopped {fault : CompilerFault} (hcompiler : c.result = .error fault)
    (hresult : a.result = .error (.compiler fault)) (hfiles : a.files = c.files)
  | unproductive {r : CompileResult} (hcompiler : c.result = .ok r)
    (hproduct : ∀ bytes, ¬ r.Produces bytes) (hresult : a.result = .ok r)
    (hfiles : a.files = c.files)
  | written {r : CompileResult} {bytes : Bytes} (hcompiler : c.result = .ok r)
    (hproduct : r.Produces bytes) (houtput : c.files.Deliverable output)
    (hresult : a.result = .ok r) (hread : a.files.read output = .ok bytes)
    (hgrown : c.files.Grown [output] a.files)
  | unwritten {r : CompileResult} {bytes : Bytes} {fault : FileFault} (hcompiler : c.result = .ok r)
    (hproduct : r.Produces bytes) (houtput : ¬ c.files.Deliverable output)
    (hresult : a.result = .error (.output fault))
    (hopened : c.files.Opened output.parent.parts a.files)

theorem attempted (b : Builder) (gateway : FileTree → CompileRequest → Compilation) (t : FileTree)
    (output : Path) (assembly : Option String) :
    Attempted (gateway t (b.request assembly)) output (b.compile gateway t output assembly) := by
  rw [compile]
  cases hcompiler : (gateway t (b.request assembly)).result with
  | error fault => exact .stopped hcompiler rfl rfl
  | ok r =>
    dsimp only
    cases hdeliver : deliver (gateway t (b.request assembly)).files output r with
    | ok u =>
      rcases deliver_eq_ok hdeliver with ⟨hnone, rfl⟩ | ⟨bytes, v, hproduct, hmake, hwrite⟩
      · refine .unproductive hcompiler (fun bytes hbytes => ?_) rfl rfl
        rw [CompileResult.product?_eq_some.mpr hbytes] at hnone
        cases hnone
      · exact .written hcompiler (CompileResult.product?_eq_some.mp hproduct)
          (.of_write hmake hwrite) rfl (FileTree.read_of_write hwrite)
          (FileTree.Grown.of_write hmake hwrite).1
    | error fault =>
      cases hproduct : r.product? with
      | none =>
        rw [deliver, hproduct] at hdeliver
        cases hdeliver
      | some bytes =>
        refine .unwritten hcompiler (CompileResult.product?_eq_some.mp hproduct) (fun h => ?_) rfl
          (FileTree.opened_attemptFolder _ _)
        obtain ⟨u, hu⟩ := (deliverable_iff hproduct).mp h
        rw [hu] at hdeliver
        cases hdeliver

/-- An attempt asks the compiler once: only the answer to its request matters. -/
theorem compile_congr (b : Builder) {gateway gateway' : FileTree → CompileRequest → Compilation}
    {t : FileTree} {assembly : Option String}
    (h : gateway t (b.request assembly) = gateway' t (b.request assembly)) (output : Path) :
    b.compile gateway t output assembly = b.compile gateway' t output assembly := by
  rw [compile, compile, h]

theorem invocations_compile (b : Builder) (gateway : FileTree → CompileRequest → Compilation)
    (t : FileTree) (output : Path) (assembly : Option String) :
    (b.compile gateway t output assembly).invocations =
      (gateway t (b.request assembly)).invocations := by
  rw [compile]
  split
  · rfl
  · dsimp only
    split <;> rfl

end Builder

/-! ## Calls -/

/-- A call on a builder of any kind, and the compiler that an attempt is made with. -/
inductive BuildCall where
  | plain (c : BuilderCall)
  | embed (c : SceneCall)
  | compile (gateway : FileTree → CompileRequest → Compilation) (output : Path)
    (assembly : Option String)

inductive BuildAnswer where
  | plain (answer : BuilderAnswer)
  | embedded (notices : List Notice) (outcome : Except EmbedFault Blob)
  | compiled (attempt : Attempt)

def BuildCall.isCompile : BuildCall → Bool
  | compile .. => true
  | _ => false

def BuildAnswer.isCompiled : BuildAnswer → Bool
  | compiled _ => true
  | _ => false

/-- The calls that are no attempts. -/
def BuildCall.others (calls : List BuildCall) : List BuildCall :=
  calls.filter fun c => !c.isCompile

def BuildAnswer.others (answers : List BuildAnswer) : List BuildAnswer :=
  answers.filter fun a => !a.isCompiled

/-- A builder, and the files that it writes among. One of scripts or systems is a builder of scenes
that is given none. -/
structure Workplace where
  builder : SceneBuilder
  files : FileTree

namespace Workplace

def inner (w : Workplace) : Builder := w.builder.builder

def call (w : Workplace) : BuildCall → Workplace × BuildAnswer
  | .plain c =>
    let step := w.inner.call c
    (⟨{ w.builder with builder := step.1 }, w.files⟩, .plain step.2)
  | .embed c =>
    let step := w.builder.call c
    (⟨step.builder, w.files⟩, .embedded step.notices step.outcome)
  | .compile gateway output assembly =>
    let attempt := w.inner.compile gateway w.files output assembly
    (⟨w.builder, attempt.files⟩, .compiled attempt)

def run (w : Workplace) : List BuildCall → Workplace × List BuildAnswer
  | [] => (w, [])
  | c :: rest =>
    let first := w.call c
    let more := first.1.run rest
    (more.1, first.2 :: more.2)

theorem run_append (w : Workplace) (calls more : List BuildCall) :
    w.run (calls ++ more) =
      (((w.run calls).1.run more).1, (w.run calls).2 ++ ((w.run calls).1.run more).2) := by
  induction calls generalizing w with
  | nil => rfl
  | cons c rest ih => simp only [List.cons_append, run, ih]

theorem length_run (w : Workplace) (calls : List BuildCall) :
    (w.run calls).2.length = calls.length := by
  induction calls generalizing w with
  | nil => rfl
  | cons c rest ih => rw [run, List.length_cons, List.length_cons, ih]

/-! ## Runs without their attempts -/

theorem call_plain {w w' : Workplace} (h : w.builder = w'.builder) {c : BuildCall}
    (hc : c.isCompile = false) :
    (w.call c).1.builder = (w'.call c).1.builder ∧ (w.call c).2 = (w'.call c).2 ∧
      (w.call c).2.isCompiled = false := by
  cases c with
  | plain c => exact ⟨by simp only [call, inner, h], by simp only [call, inner, h], rfl⟩
  | embed c => exact ⟨by simp only [call, h], by simp only [call, h], rfl⟩
  | compile gateway output assembly => cases hc

theorem run_others {w w' : Workplace} (h : w.builder = w'.builder) (calls : List BuildCall) :
    (w.run calls).1.builder = (w'.run (BuildCall.others calls)).1.builder ∧
      BuildAnswer.others (w.run calls).2 = (w'.run (BuildCall.others calls)).2 := by
  induction calls generalizing w w' with
  | nil => exact ⟨h, rfl⟩
  | cons c rest ih =>
    cases hc : c.isCompile with
    | true =>
      cases c with
      | compile gateway output assembly =>
        -- the attempt changes the files only
        have hsame : (w.call (.compile gateway output assembly)).1.builder = w'.builder := h
        exact ih hsame
      | _ => cases hc
    | false =>
      obtain ⟨hbuilder, hanswer, hother⟩ := call_plain h hc
      obtain ⟨hrun, hanswers⟩ := ih hbuilder
      have hcalls : BuildCall.others (c :: rest) = c :: BuildCall.others rest := by
        simp [BuildCall.others, hc]
      rw [hcalls, run, run]
      refine ⟨hrun, ?_⟩
      rw [← hanswers, ← hanswer]
      simp [BuildAnswer.others, hother]

/-- **No attempt to compile is seen by the builder.** After any calls the builder is the one after
the same calls without the attempts, and the other answers are the same; so are its source and its
count of fragments. An attempt, at any place among the calls, hands the compiler one text, the
source that those without the attempts before it would give, and depends on nothing but the answer;
what comes of it is as in `Builder.Attempted`. -/
theorem run_attempts (w : Workplace) (calls : List BuildCall) :
    (w.run calls).1.builder = (w.run (BuildCall.others calls)).1.builder ∧
    BuildAnswer.others (w.run calls).2 = (w.run (BuildCall.others calls)).2 ∧
    ∀ before gateway output assembly after,
      calls = before ++ .compile gateway output assembly :: after →
      let now := (w.run before).1
      let request := now.inner.request assembly
      let attempt := now.inner.compile gateway now.files output assembly
      request.sources = [(w.run (BuildCall.others before)).1.inner.source] ∧
      (w.run calls).2[before.length]? = some (.compiled attempt) ∧
      (w.run calls).1 = ((⟨now.builder, attempt.files⟩ : Workplace).run after).1 ∧
      attempt.invocations = (gateway now.files request).invocations ∧
      (∀ gateway', gateway' now.files request = gateway now.files request →
        now.inner.compile gateway' now.files output assembly = attempt) ∧
      Builder.Attempted (gateway now.files request) output attempt := by
  obtain ⟨hbuilder, hanswers⟩ := run_others (rfl : w.builder = w.builder) calls
  refine ⟨hbuilder, hanswers, ?_⟩
  rintro before gateway output assembly after rfl
  intro now request attempt
  have hbefore : now.builder = (w.run (BuildCall.others before)).1.builder :=
    (run_others rfl before).1
  have hsources : request.sources = [(w.run (BuildCall.others before)).1.inner.source] := by
    show [now.builder.builder.source] = _
    rw [hbefore]
    rfl
  have hanswer : (w.run (before ++ .compile gateway output assembly :: after)).2[before.length]? =
      some (.compiled attempt) := by
    rw [run_append, ← w.length_run before, List.getElem?_append_right (Nat.le_refl _), Nat.sub_self]
    rfl
  exact ⟨hsources, hanswer, by rw [run_append]; rfl,
    now.inner.invocations_compile gateway now.files output assembly,
    fun gateway' h => now.inner.compile_congr h output,
    now.inner.attempted gateway now.files output assembly⟩

/-- An artifact that comes with an error is not written, the next one is; both attempts compile what
was added before them. -/
theorem run_attempts_rejected_first :
    let rejected : CompileResult := ⟨some [77], [.ofMessage "no"]⟩
    let accepted : CompileResult := ⟨some [77, 90], []⟩
    let answers (r : CompileResult) : FileTree → CompileRequest → Compilation :=
      fun t _ => ⟨.ok r, [], t⟩
    let one : BuildCall := .plain (.add ⟨"using A;\nclass C {}", none, none⟩)
    let two : BuildCall := .plain (.add ⟨"using B;\nclass D {}", some "N", none⟩)
    let calls := [one, .compile (answers rejected) (.ofString "out/o.dll") none, two,
      .compile (answers accepted) (.ofString "out/o.dll") none]
    let w : Workplace := ⟨⟨.ofSettings AssetKind.scripts.settings, .usual, []⟩, .empty⟩
    (w.run calls).1.builder = (w.run [one, two]).1.builder ∧
    (∃ first, (w.run calls).2[1]? = some (.compiled first) ∧ first.result = .ok rejected ∧
      first.files = .empty) ∧
    (∃ second, (w.run calls).2[3]? = some (.compiled second) ∧ second.result = .ok accepted ∧
      second.files.read (.ofString "out/o.dll") = .ok [77, 90]) := by
  intro rejected accepted answers one two calls w
  obtain ⟨hbuilder, -, hattempts⟩ := run_attempts w calls
  obtain ⟨-, hfirst, -⟩ := hattempts [one] _ _ _ _ rfl
  obtain ⟨-, hsecond, -⟩ := hattempts (calls.take 3) _ _ _ _ rfl
  exact ⟨hbuilder, ⟨_, hfirst, rfl, rfl⟩, ⟨_, hsecond, rfl, rfl⟩⟩

/-- A compilation that produced an artifact has no result where the artifact cannot be written: no
folder can be made at the place of a file. -/
theorem run_below_artifact :
    let accepted : CompileResult := ⟨some [77, 90], []⟩
    let gateway : FileTree → CompileRequest → Compilation := fun t _ => ⟨.ok accepted, [], t⟩
    let calls := [.compile gateway (.ofString "s.dll") none,
      .compile gateway (.ofString "s.dll/x.dll") none]
    let w : Workplace := ⟨⟨.ofSettings AssetKind.scripts.settings, .usual, []⟩, .empty⟩
    accepted.Produces [77, 90] ∧
    ∃ first second, (w.run calls).2 = [.compiled first, .compiled second] ∧
      first.result = .ok accepted ∧ second.result = .error (.output .taken) ∧
      second.files.read (.ofString "s.dll/x.dll") = .error .notFolder := by
  intro accepted gateway calls w
  exact ⟨⟨rfl, nofun⟩, _, _, rfl, rfl, rfl, rfl⟩

end Workplace

end Assemblage
