import Assemblage.Proofs.Command.Kind
import Assemblage.Proofs.Config.Outputs

/-!
# Kinds that do not disturb one another

Kinds are built one after another in one tree, so that each finds the tree grown by the outputs of
those before. If these are aside of its folder (`BuildConfig.Apart`), it does what it does in the
tree at the start (`Build.one_step`); and so does every kind of a run (`Build.several_undisturbed`),
as if the other kinds were disabled (`Build.several_only`).

Main statement: `Command.build_isolated`. That the way to a folder may not step back out of a folder
that another kind makes cannot be left out (`Command.build_stepping_back`).
-/

namespace Assemblage
set_option autoImplicit false

/-! ## Kinds apart -/

namespace BuildConfig

/-- The configuration with all kinds but one disabled. -/
def only (c : BuildConfig) (kind : AssetKind) : BuildConfig :=
  let keep (other : AssetKind) : KindConfig :=
    if other = kind then c.kind other else { c.kind other with enabled := false }
  { c with scripts := keep .scripts, systems := keep .systems, scenes := keep .scenes }

/-- Whether the outputs of the enabled kinds are different files, and none of their paths steps into
the folder of another one. -/
structure Separate (c : BuildConfig) : Prop where
  distinct : ∀ j k, j ≠ k → (c.kind j).enabled = true → (c.kind k).enabled = true →
    (c.kind j).output.place ≠ (c.kind k).output.place
  outside : ∀ j k, j ≠ k → (c.kind j).enabled = true → (c.kind k).enabled = true →
    ∀ n ∈ (c.kind k).output.places, ¬ (c.kind j).directory.place <+: n

/-- Whether no way to a folder steps back out of one that the output of another kind is yet to
make. -/
def Straight (c : BuildConfig) (t : FileTree) : Prop :=
  ∀ j k, j ≠ k → (c.kind j).enabled = true → (c.kind k).enabled = true →
    ∀ n ∈ (c.kind j).directory.places, n ∈ (c.kind k).output.parent.places →
      t.isFolder n = true ∨ n <+: (c.kind j).directory.place

/-- Whether no path of an output steps into the folder of the runs of the compiler. -/
def Clear (c : BuildConfig) : Prop :=
  ∀ kind, (c.kind kind).enabled = true →
    ∀ n ∈ (c.kind kind).output.places, ¬ CompilerConfig.folder.parts <+: n

/-- Whether the kinds of a configuration cannot disturb one another in a tree, where the folder of
the runs of the compiler is a new one. -/
structure Apart (c : BuildConfig) (t : FileTree) : Prop extends c.Separate where
  straight : c.Straight t
  fresh : t.Free CompilerConfig.folder.parts
  clear : c.Clear

instance (c : BuildConfig) : Decidable c.Separate :=
  decidable_of_iff
    ((∀ j k, j ≠ k → (c.kind j).enabled = true → (c.kind k).enabled = true →
        (c.kind j).output.place ≠ (c.kind k).output.place) ∧
      ∀ j k, j ≠ k → (c.kind j).enabled = true → (c.kind k).enabled = true →
        ∀ n ∈ (c.kind k).output.places, ¬ (c.kind j).directory.place <+: n)
    ⟨fun h => ⟨h.1, h.2⟩, fun h => ⟨h.distinct, h.outside⟩⟩

instance (c : BuildConfig) (t : FileTree) : Decidable (c.Straight t) :=
  inferInstanceAs (Decidable (∀ j k, j ≠ k → (c.kind j).enabled = true →
    (c.kind k).enabled = true → ∀ n ∈ _, n ∈ _ → _ ∨ _))

instance (c : BuildConfig) : Decidable c.Clear :=
  inferInstanceAs (Decidable (∀ kind, (c.kind kind).enabled = true → ∀ n ∈ _, ¬ _ <+: n))

instance (c : BuildConfig) (t : FileTree) : Decidable (c.Apart t) :=
  decidable_of_iff
    (c.Separate ∧ c.Straight t ∧ t.Free CompilerConfig.folder.parts ∧ c.Clear)
    ⟨fun h => ⟨h.1, h.2.1, h.2.2.1, h.2.2.2⟩,
      fun h => ⟨h.toSeparate, h.straight, h.fresh, h.clear⟩⟩

/-- Whether paths are outputs of enabled kinds, but of none of those given. -/
def OutputsBut (c : BuildConfig) (kinds : List AssetKind) (ps : List Path) : Prop :=
  ∀ p ∈ ps, ∃ kind, kind ∉ kinds ∧ (c.kind kind).enabled = true ∧ p = (c.kind kind).output

section Apart
variable {c : BuildConfig} {t u : FileTree} {kind : AssetKind} {kinds rest : List AssetKind}
  {ps qs : List Path}

theorem OutputsBut.tail (h : c.OutputsBut (kind :: rest) ps) : c.OutputsBut rest ps := by
  intro p hp
  obtain ⟨j, hj, hout⟩ := h p hp
  exact ⟨j, fun hmem => hj (List.mem_cons_of_mem _ hmem), hout⟩

theorem OutputsBut.ne (h : c.OutputsBut (kind :: rest) ps) {p : Path} (hp : p ∈ ps) :
    ∃ j, kind ≠ j ∧ (c.kind j).enabled = true ∧ p = (c.kind j).output := by
  obtain ⟨j, hj, hout⟩ := h p hp
  exact ⟨j, fun heq => hj (heq ▸ List.mem_cons_self), hout⟩

theorem OutputsBut.append (h : c.OutputsBut kinds ps) (hqs : c.OutputsBut kinds qs) :
    c.OutputsBut kinds (ps ++ qs) :=
  fun p hp => (List.mem_append.mp hp).elim (h p) (hqs p)

theorem Apart.aside (h : c.Apart t) (henabled : (c.kind kind).enabled = true)
    (hps : c.OutputsBut (kind :: rest) ps) : t.Aside ps (c.kind kind).directory := by
  constructor
  · intro p hp
    obtain ⟨j, hj, hjenabled, rfl⟩ := hps.ne hp
    exact h.outside kind j hj henabled hjenabled
  · intro p hp
    obtain ⟨j, hj, hjenabled, rfl⟩ := hps.ne hp
    exact h.straight kind j hj henabled hjenabled

theorem Apart.bytes (h : c.Apart t) (hgrown : t.Grown ps u)
    (henabled : (c.kind kind).enabled = true) (hps : c.OutputsBut (kind :: rest) ps) :
    u.bytes? (c.kind kind).output.place = t.bytes? (c.kind kind).output.place := by
  refine hgrown.bytes _ fun p hp => ?_
  obtain ⟨j, hj, hjenabled, rfl⟩ := hps.ne hp
  exact h.distinct kind j hj henabled hjenabled

theorem Apart.free (h : c.Apart t) (hgrown : t.Grown ps u) (hps : c.OutputsBut kinds ps) :
    u.Free CompilerConfig.folder.parts := by
  refine hgrown.free (by decide) (fun p hp => ?_) h.fresh
  obtain ⟨j, -, hjenabled, rfl⟩ := hps p hp
  exact h.clear j hjenabled

end Apart

end BuildConfig

namespace Build
variable {env : Surroundings} {c : BuildConfig} {t u : FileTree}

theorem one_only [Stack] (env : Surroundings) (c : BuildConfig) (kind : AssetKind) (t : FileTree) :
    one env (c.only kind) kind t = one env c kind t := by
  cases kind <;> rfl

theorem one_other [Stack] {kind other : AssetKind} (h : other ≠ kind) :
    one env (c.only kind) other t = .done t .skipped := by
  apply one_of_disabled
  cases kind <;> cases other <;> first | exact absurd rfl h | rfl

def verdict [Stack] (env : Surroundings) (c : BuildConfig) (t : FileTree) (kind : AssetKind) :
    Verdict :=
  match (one env c kind t).outcome with
  | .ok verdict => verdict
  | .error _ => .failure

theorem verdict_of_ok [Stack] {kind : AssetKind} {v : Verdict}
    (h : (one env c kind t).outcome = .ok v) : verdict env c t kind = v := by
  rw [verdict, h]

/-! ## Runs over kinds -/

theorem several_cons [Stack] {kind : AssetKind} {v : Verdict}
    (h : (one env c kind t).outcome = .ok v) (rest : List AssetKind) :
    several env c (kind :: rest) t =
      ⟨(several env c rest (one env c kind t).files).outcome.map fun verdicts =>
          (kind, v) :: verdicts,
        (one env c kind t).shown ++ (several env c rest (one env c kind t).files).shown,
        (one env c kind t).notices ++ (several env c rest (one env c kind t).files).notices,
        (one env c kind t).invocations ++
          (several env c rest (one env c kind t).files).invocations,
        (several env c rest (one env c kind t).files).files⟩ := by
  rw [several, Session.andThen_of_ok h]
  cases hrest : (several env c rest (one env c kind t).files).outcome with
  | error stopped =>
    simp only [Session.andThen, hrest]
    rfl
  | ok verdicts =>
    simp only [Session.andThen_of_ok hrest, Session.done, List.append_nil]
    rfl

theorem several_skipped [Stack] {kind : AssetKind} {kinds : List AssetKind} (h : kind ∉ kinds) :
    several env (c.only kind) kinds t = .done t (kinds.map fun other => (other, .skipped)) := by
  induction kinds with
  | nil => rfl
  | cons other rest ih =>
    rw [List.mem_cons, not_or] at h
    have hother : one env (c.only kind) other t = .done t .skipped := one_other (Ne.symm h.1)
    rw [several_cons (by rw [hother]; rfl), hother]
    simp only [Session.done, ih h.2, List.nil_append, List.map_cons]
    rfl

theorem several_only [Stack] {kind : AssetKind} {v : Verdict}
    (h : (one env c kind t).outcome = .ok v) {kinds : List AssetKind} (hnodup : kinds.Nodup)
    (hmem : kind ∈ kinds) :
    several env (c.only kind) kinds t =
      ⟨.ok (kinds.map fun k => (k, if k = kind then v else .skipped)),
        (one env c kind t).shown, (one env c kind t).notices, (one env c kind t).invocations,
        (one env c kind t).files⟩ := by
  induction kinds with
  | nil => cases hmem
  | cons other rest ih =>
    obtain ⟨hnew, hnodup⟩ := List.nodup_cons.mp hnodup
    by_cases hother : other = kind
    · subst hother
      rw [several_cons (by rw [one_only, h]), several_skipped hnew, one_only]
      have hskipped : (rest.map fun k => (k, if k = other then v else .skipped)) =
          rest.map fun k => (k, .skipped) := by
        refine List.map_congr_left fun k hk => ?_
        rw [if_neg (ne_of_mem_of_not_mem hk hnew)]
      simp only [Session.done, List.append_nil, List.map_cons, if_pos, hskipped]
      rfl
    · have hmem := (List.mem_cons.mp hmem).resolve_left (Ne.symm hother)
      have hskipped : one env (c.only kind) other t = .done t .skipped := one_other hother
      rw [several_cons (by rw [hskipped]; rfl), hskipped]
      simp only [Session.done, ih hnodup hmem, List.nil_append, List.map_cons, if_neg hother]
      rfl

/-- What a run over kinds does in a tree, if it does with each kind what is done in another tree. -/
structure Undisturbed [Stack] (env : Surroundings) (c : BuildConfig) (t u : FileTree)
    (kinds : List AssetKind) (s : Session (List (AssetKind × Verdict))) : Prop where
  each : ∀ kind ∈ kinds, (one env c kind t).outcome = .ok (verdict env c t kind)
  outcome : s.outcome = .ok (kinds.map fun kind => (kind, verdict env c t kind))
  shown : s.shown = kinds.flatMap fun kind => (one env c kind t).shown
  notices : s.notices = kinds.flatMap fun kind => (one env c kind t).notices
  invocations : s.invocations = kinds.flatMap fun kind => (one env c kind t).invocations
  output : ∀ kind ∈ kinds, (c.kind kind).enabled = true →
    s.files.bytes? (c.kind kind).output.place =
      (one env c kind t).files.bytes? (c.kind kind).output.place
  others : ∀ n, (∀ kind ∈ kinds, (c.kind kind).enabled = true → n ≠ (c.kind kind).output.place) →
    s.files.bytes? n = u.bytes? n

section Run
variable (hnames : ∀ kind, '/' ∉ (c.settings kind).assembly.toList) (htree : t.Proper)
  (hapart : c.Apart t)
include hnames htree hapart

/-- One kind, after others. -/
theorem one_step [Stack] {kind : AssetKind} {rest : List AssetKind} (hnew : kind ∉ rest)
    {ps : List Path} (hgrown : t.Grown ps u) (hps : c.OutputsBut (kind :: rest) ps)
    {v : Verdict} (h : (one env c kind u).outcome = .ok v) :
    (one env c kind t).Same (one env c kind u) ∧
      (∃ qs, t.Grown qs (one env c kind u).files ∧ c.OutputsBut rest qs) ∧
      ((c.kind kind).enabled = true →
        (one env c kind u).files.bytes? (c.kind kind).output.place =
          (one env c kind t).files.bytes? (c.kind kind).output.place) ∧
      ∀ n, ((c.kind kind).enabled = true → n ≠ (c.kind kind).output.place) →
        (one env c kind u).files.bytes? n = u.bytes? n := by
  cases henabled : (c.kind kind).enabled with
  | false =>
    rw [one_of_disabled henabled, one_of_disabled henabled]
    exact ⟨⟨rfl, rfl, rfl, rfl⟩, ⟨ps, hgrown, hps.tail⟩, nofun, fun _ _ => rfl⟩
  | true =>
    have hfree := hapart.free hgrown hps
    have hsame := one_grown (hnames kind) hgrown htree (hapart.aside henabled hps) hapart.fresh
      hfree h
    have hleaves := one_leaves (hnames kind) hfree h
    have halone := one_leaves (hnames kind) hapart.fresh (hsame.outcome.trans h)
    obtain ⟨qs, hwritten, hqs⟩ := hleaves.grown
    have hnewest : c.OutputsBut rest qs := fun p hp => ⟨kind, hnew, henabled, hqs p hp⟩
    have houtput := hapart.bytes hgrown henabled hps
    exact ⟨hsame, ⟨_, hgrown.trans hwritten, hps.tail.append hnewest⟩,
      fun _ => hleaves.output_eq halone hsame.invocations.symm houtput,
      fun n hn => hleaves.bytes_of_ne (hn rfl)⟩

/-- **A run over kinds does with each what is done with it in the tree at the start.** -/
theorem several_undisturbed [Stack] {kinds : List AssetKind} (hnodup : kinds.Nodup) {ps : List Path}
    (hgrown : t.Grown ps u) (hps : c.OutputsBut kinds ps)
    {verdicts : List (AssetKind × Verdict)}
    (h : (several env c kinds u).outcome = .ok verdicts) :
    Undisturbed env c t u kinds (several env c kinds u) := by
  -- on the kinds that are left: the tree has grown by outputs of those before
  induction kinds generalizing u ps verdicts with
  | nil => exact ⟨nofun, rfl, rfl, rfl, rfl, nofun, fun _ _ => rfl⟩
  | cons kind rest ih =>
    obtain ⟨hnew, hnodup⟩ := List.nodup_cons.mp hnodup
    obtain ⟨v, hv, hrest⟩ := Session.outcome_andThen_eq_ok h
    obtain ⟨verdicts', hrest, -⟩ := Session.outcome_andThen_eq_ok hrest
    obtain ⟨hsame, ⟨qs, hgrown', hqs⟩, houtput, hothers⟩ :=
      one_step hnames htree hapart hnew hgrown hps hv
    have hmore := ih hnodup hgrown' hqs hrest
    have hverdict := verdict_of_ok (hsame.outcome.trans hv)
    rw [several_cons hv]
    constructor
    · exact List.forall_mem_cons.mpr ⟨by rw [hverdict, hsame.outcome, hv], hmore.each⟩
    · rw [hmore.outcome, List.map_cons, hverdict]
      rfl
    · rw [hmore.shown, List.flatMap_cons, hsame.shown]
    · rw [hmore.notices, List.flatMap_cons, hsame.notices]
    · rw [hmore.invocations, List.flatMap_cons, hsame.invocations]
    · intro other hother henabled
      rcases List.mem_cons.mp hother with rfl | hother
      · rw [← houtput henabled]
        refine hmore.others _ fun k hk hkenabled => ?_
        exact hapart.distinct other k (ne_of_mem_of_not_mem hk hnew).symm henabled hkenabled
      · exact hmore.output other hother henabled
    · intro n hn
      obtain ⟨hkind, hothers'⟩ := List.forall_mem_cons.mp hn
      exact (hmore.others n hothers').trans (hothers n hkind)

end Run

/-! ## Whole runs -/

theorem failed_isEmpty {verdicts : List (AssetKind × Verdict)} :
    (failed verdicts).isEmpty = true ↔ ∀ v ∈ verdicts, v.2 ≠ .failure := by
  simp [failed, List.filter_eq_nil_iff]

/-- The exit code is one for a failure that is taken strictly, and zero otherwise. -/
theorem close_code (strict : Bool) (verdicts : List (AssetKind × Verdict)) :
    ((close strict verdicts).2 = 0 ∨ (close strict verdicts).2 = 1) ∧
      ((close strict verdicts).2 = 1 ↔ strict = true ∧ ∃ v ∈ verdicts, v.2 = .failure) := by
  unfold close
  dsimp only
  split
  · next hnone =>
    have hall := failed_isEmpty.mp hnone
    refine ⟨.inl rfl, nofun, fun ⟨_, v, hv, hfailure⟩ => absurd hfailure (hall v hv)⟩
  · next hsome =>
    have hexists : ∃ v ∈ verdicts, v.2 = .failure := by
      by_contra hnone
      exact hsome (failed_isEmpty.mpr fun v hv hfailure => hnone ⟨v, hv, hfailure⟩)
    cases strict with
    | false => exact ⟨.inl rfl, nofun, fun ⟨hstrict, _⟩ => nomatch hstrict⟩
    | true => exact ⟨.inr rfl, fun _ => ⟨rfl, hexists⟩, fun _ => rfl⟩

theorem all_eq [Stack] {verdicts : List (AssetKind × Verdict)}
    (h : (several env c AssetKind.all t).outcome = .ok verdicts) :
    all env c t =
      ⟨.ok (close c.strict verdicts).2,
        (several env c AssetKind.all t).shown ++ [(close c.strict verdicts).1],
        (several env c AssetKind.all t).notices, (several env c AssetKind.all t).invocations,
        (several env c AssetKind.all t).files⟩ := by
  rw [all, Session.andThen_of_ok h]
  simp only [Session.done, Session.showing, List.append_nil]

end Build

namespace Command

theorem runLine_build [Stack] [Streaming] {env : Surroundings} {t : FileTree} {args : List String}
    {config : Option String} {o : Overrides} {c : BuildConfig}
    (hread : read? args = some (.build config o)) (hconfig : configuration t config o = .ok c) :
    runLine env t args = (Build.all env c t).showing [banner] := by
  rw [runLine, hread]
  show (withConfiguration t config o _).showing [banner] = _
  rw [withConfiguration, hconfig]

/-- **The kinds of a build do not disturb one another**, if they are apart and the run does not
stop. They are tried in their order, and what is shown, reported and compiled is what each of them
does as the only one; each has the verdict that it has as the only one, and leaves the same output:
the artifact of its run of the compiler if it succeeded, and what was there before if not. The exit
code is one exactly for a failure that is taken strictly, and zero otherwise. -/
theorem build_isolated [Stack] [Streaming] {env : Surroundings} {t : FileTree} {args : List String}
    {config : Option String} {o : Overrides} {c : BuildConfig} {code : Nat}
    (hread : read? args = some (.build config o)) (hconfig : configuration t config o = .ok c)
    (htree : t.Proper) (hapart : c.Apart t) (hcode : (runLine env t args).outcome = .ok code) :
    let session := runLine env t args
    let alone (kind : AssetKind) := Build.several env (c.only kind) AssetKind.all t
    ∃ verdict : AssetKind → Verdict,
      (∀ kind, (alone kind).outcome =
        .ok (AssetKind.all.map fun k => (k, if k = kind then verdict kind else .skipped))) ∧
      (session.shown = banner :: AssetKind.all.flatMap (fun kind => (alone kind).shown) ++
        [(Build.close c.strict (AssetKind.all.map fun kind => (kind, verdict kind))).1]) ∧
      session.notices = AssetKind.all.flatMap (fun kind => (alone kind).notices) ∧
      session.invocations = AssetKind.all.flatMap (fun kind => (alone kind).invocations) ∧
      (∀ kind, (c.kind kind).enabled = true →
        let place := (c.kind kind).output.place
        session.files.bytes? place = (alone kind).files.bytes? place ∧
        (verdict kind = .success → ∃ start code stdout stderr bytes,
          (alone kind).invocations = [start] ∧
          env.run start = .finished code stdout stderr (some bytes) ∧
          session.files.bytes? place = some bytes) ∧
        (verdict kind ≠ .success → session.files.bytes? place = t.bytes? place)) ∧
      (code = 0 ∨ code = 1) ∧
      (code = 1 ↔ c.strict = true ∧ ∃ kind, verdict kind = .failure) := by
  intro session alone
  have hnames := slash_not_mem_assembly hread hconfig
  have hsession : session = (Build.all env c t).showing [banner] := runLine_build hread hconfig
  have hcode : (Build.all env c t).outcome = .ok code := by
    rw [← hcode]
    exact (congrArg Session.outcome hsession).symm
  obtain ⟨verdicts, hverdicts, -⟩ := Session.outcome_andThen_eq_ok hcode
  have hrun := Build.several_undisturbed hnames htree hapart (by decide) (.refl t) nofun hverdicts
  have hall := Build.all_eq hrun.outcome
  have halone : ∀ kind, alone kind = _ := fun kind =>
    Build.several_only (hrun.each kind kind.mem_all) (by decide) kind.mem_all
  rw [hall] at hsession hcode
  have hclose := Build.close_code c.strict
    (AssetKind.all.map fun kind => (kind, Build.verdict env c t kind))
  rw [Except.ok.inj hcode] at hclose
  refine ⟨Build.verdict env c t, fun kind => by rw [halone], ?_, ?_, ?_, ?_, hclose.1, ?_⟩
  · rw [hsession, Session.showing]
    simp only [hrun.shown, halone, List.cons_append, List.nil_append]
  · rw [hsession, Session.showing]
    simp only [hrun.notices, halone]
  · rw [hsession, Session.showing]
    simp only [hrun.invocations, halone]
  · intro kind henabled place
    have houtput : session.files.bytes? place = (alone kind).files.bytes? place := by
      rw [hsession, halone]
      exact hrun.output kind kind.mem_all henabled
    have hleaves := Build.one_leaves (hnames kind) hapart.fresh (hrun.each kind kind.mem_all)
    rw [houtput, halone]
    refine ⟨rfl, fun hverdict => ?_, fun hverdict => ?_⟩
    · rw [hverdict] at hleaves
      exact hleaves.of_success
    · show (Build.one env c kind t).files.bytes? place = _
      rw [hleaves.files_of_ne hverdict]
  · rw [hclose.2]
    simp only [List.mem_map, exists_exists_and_eq_and]
    refine and_congr_right fun _ => ⟨fun ⟨kind, _, h⟩ => ⟨kind, h⟩, fun ⟨kind, h⟩ => ?_⟩
    exact ⟨kind, kind.mem_all, h⟩

theorem ok_of_toOption {ε α : Type} {e : Except ε α} {a : α} (h : e.toOption = some a) :
    e = .ok a := by
  cases e with
  | error f => cases h
  | ok b => exact congrArg Except.ok (Option.some.inj h)

/-- The compiler refuses the scripts: their output is as before, and the scenes are built. -/
theorem build_isolated_refused :
    let args := ["build", "--script-directory", "S", "--script-output", "a.dll",
      "--scene-directory", "C", "--scene-output", "b.dll"]
    let o : Overrides := { Overrides.none with
      scripts := ⟨some ⟨0, ["S"]⟩, some ⟨0, ["a.dll"]⟩⟩
      scenes := ⟨some ⟨0, ["C"]⟩, some ⟨0, ["b.dll"]⟩⟩ }
    let c := o.apply .usual
    let t : FileTree := ⟨[["S"], ["C"]], [(["a.dll"], [7])]⟩
    let refused (start : Invocation) : Bool :=
      start.command.contains "-out:grapplebuild-tmp/a.dll"
    let env : Surroundings :=
      ⟨fun start => .finished (if refused start then 1 else 0) "" "" (some [1]), "/"⟩
    read? args = some (.build none o) ∧ configuration t none o = .ok c ∧ t.Proper ∧ c.Apart t ∧
      (runLine env t args).outcome = .ok 0 ∧
      (runLine env t args).files.bytes? ["a.dll"] = some [7] ∧
      (runLine env t args).files.bytes? ["b.dll"] = some [1] := by
  intro args o c t refused env
  have hread : read? args = some (.build none o) := by decide +kernel
  have hproper : t.Proper := by decide
  have hapart : c.Apart t := by decide +kernel
  have hcode : (runLine env t args).outcome = .ok 0 := ok_of_toOption (by decide +kernel)
  obtain ⟨verdict, halone, -, -, -, houtput, -⟩ :=
    build_isolated hread rfl hproper hapart hcode
  have hscripts : (Build.several env (c.only .scripts) AssetKind.all t).outcome =
      .ok [(.scripts, .failure), (.systems, .skipped), (.scenes, .skipped)] :=
    ok_of_toOption (by decide +kernel)
  have hscenes : (Build.several env (c.only .scenes) AssetKind.all t).outcome =
      .ok [(.scripts, .skipped), (.systems, .skipped), (.scenes, .success)] :=
    ok_of_toOption (by decide +kernel)
  have hfailure : verdict .scripts = .failure := by
    simpa [AssetKind.all] using (halone .scripts).symm.trans hscripts
  have hsuccess : verdict .scenes = .success := by
    simpa [AssetKind.all] using (halone .scenes).symm.trans hscenes
  obtain ⟨-, -, hkept⟩ := houtput .scripts rfl
  obtain ⟨-, hwritten, -⟩ := houtput .scenes rfl
  obtain ⟨start, code, stdout, stderr, bytes, -, hrun, hbytes⟩ := hwritten hsuccess
  cases hrun
  exact ⟨hread, rfl, hproper, hapart, hcode, hkept (by rw [hfailure]; decide), hbytes⟩

/-- The way to the scenes steps back out of a folder that the output of the scripts makes: the
scenes are built behind the scripts, and skipped as the only kind. -/
theorem build_stepping_back :
    let args := ["build", "--script-directory", "S", "--script-output", "x/a.dll",
      "--scene-directory", "x/../C"]
    let o : Overrides := { Overrides.none with
      scripts := ⟨some ⟨0, ["S"]⟩, some ⟨0, ["x", "a.dll"]⟩⟩
      scenes := ⟨some ⟨0, ["x", "..", "C"]⟩, none⟩ }
    let c := o.apply .usual
    let t : FileTree := ⟨[["S"], ["C"]], []⟩
    let env : Surroundings := ⟨fun _ => .finished 0 "" "" (some [1]), "/"⟩
    let alone := Build.several env (c.only .scenes) AssetKind.all t
    read? args = some (.build none o) ∧ configuration t none o = .ok c ∧ t.Proper ∧
      c.Separate ∧ t.Free CompilerConfig.folder.parts ∧ c.Clear ∧
      (runLine env t args).outcome = .ok 0 ∧
      (runLine env t args).invocations.length = 2 ∧
      (runLine env t args).files.bytes? c.scenes.output.place = some [1] ∧
      alone.outcome = .ok (AssetKind.all.map fun kind => (kind, .skipped)) ∧
      alone.invocations = [] ∧ alone.files.bytes? c.scenes.output.place = none := by
  intro args o c t env alone
  refine ⟨by decide +kernel, rfl, by decide, by decide +kernel, by decide, by decide +kernel,
    ok_of_toOption (by decide +kernel), by decide +kernel, by decide +kernel,
    ok_of_toOption (by decide +kernel), by decide +kernel, by decide +kernel⟩

end Command
end Assemblage
