import CompileFail.Cli.Run
import CompileFail.Proofs.CopiesInProject
import CompileFail.Proofs.SynthesisProtocol
import Mathlib.Logic.Relation

/-! The set-up of a run. Its steps are taken in a fixed order, each of them in the tree that the steps before
it have left, and none is taken behind one that has failed. Up to the full build nothing but programs changes
a file; behind it one file is touched, and no line is checked before all of the steps have succeeded. -/

namespace CompileFail

/-- Whether the event belongs to the check of lines, and not to what comes before it. -/
def Event.isOfChecks : Event → Bool
  | .wrote _ | .compiled _ _ | .removed _ | .reported _ => true
  | .logged _ | .built _ | .touched _ => false

/-- The entries of the log do not belong to the checks. -/
theorem Event.forall_isOfChecks_eq_false {events : List Event}
    (h : ∀ event ∈ events.filter Event.isDeed, event.isOfChecks = false) :
    ∀ event ∈ events, event.isOfChecks = false := by
  intro event hevent
  cases event with
  | logged entry => rfl
  | _ => exact h _ (List.mem_filter.mpr ⟨hevent, rfl⟩)

theorem Session.steps_eq_nil {s : Session} (h : ∀ event ∈ s.events, event.isOfChecks = false) : s.steps = [] := by
  refine List.filterMap_eq_nil_iff.mpr fun event hevent => ?_
  have hchecks := h event hevent
  cases event with
  | reported step => cases hchecks
  | _ => rfl

/-- One tree becomes another by programs that are run, and by nothing else. -/
def Program.Leads (runner : Program.Runner) : FileTree → FileTree → Prop :=
  Relation.ReflTransGen fun tree after => ∃ command, after = (runner command tree).2

/-- One tree becomes another by programs that are run and by at most one file that is touched. -/
def Program.LeadsTouching (runner : Program.Runner) (tree after : FileTree) : Prop :=
  Program.Leads runner tree after ∨ ∃ between file touched, Program.Leads runner tree between ∧
    between.touch file = .ok touched ∧ Program.Leads runner touched after

variable {runner : Program.Runner} {tree : FileTree}

theorem Program.leads_run (runner : Program.Runner) (command : Program.Command) (tree : FileTree) :
    Program.Leads runner tree (Program.run runner command tree).2 := by
  refine Relation.ReflTransGen.single ⟨command, ?_⟩
  rw [Program.run]
  split <;> next heq => rw [heq]

theorem Program.Leads.leadsTouching {between after : FileTree} (h : Program.Leads runner tree between)
    (hafter : Program.LeadsTouching runner between after) : Program.LeadsTouching runner tree after := by
  rcases hafter with hafter | ⟨last, file, touched, hlast, htouch, hafter⟩
  · exact Or.inl (h.trans hafter)
  · exact Or.inr ⟨last, file, touched, h.trans hlast, htouch, hafter⟩

theorem BuildSystem.leads_ofProgram (toolchain : Settings.Toolchain) (runner : Program.Runner) (dir : Path)
    (configuration : Text) (mode : Build.Mode) (tree : FileTree) :
    Program.Leads runner tree (BuildSystem.ofProgram toolchain runner dir configuration mode tree).2 :=
  Program.leads_run ..

theorem Toolchain.does_captureEnvironment_of_run {present : Environment} {script : Path} {output : Program.Output}
    {after : FileTree} (hscript : tree.isFile script = true)
    (hrun : Program.run runner (captureCommand script) tree = (.ok output, after)) :
    (captureEnvironment runner present script).Does tree
      (.ok (present.overlay (Environment.definitions output.stdout))) after [] := by
  refine .after_inspect ?_
  rw [hscript]
  exact (Act.does_of_change hrun).bind ((Act.does_pure ..).after_log ..)

theorem Toolchain.does_captureEnvironment (runner : Program.Runner) (present : Environment) (script : Path)
    (tree : FileTree) : ∃ result after,
      (Toolchain.captureEnvironment runner present script).Does tree result after [] ∧
        Program.Leads runner tree after := by
  cases hscript : tree.isFile script with
  | false =>
      have hpresent : (captureEnvironment runner present script).Does tree (.ok present) tree [] := by
        refine .after_inspect ?_
        rw [hscript]
        exact (Act.does_pure ..).after_log ..
      exact ⟨_, _, hpresent, Relation.ReflTransGen.refl⟩
  | true =>
      have hleads := Program.leads_run runner (captureCommand script) tree
      rcases hrun : Program.run runner (captureCommand script) tree with ⟨fault | output, after⟩
      all_goals rw [hrun] at hleads
      · have hfails : (captureEnvironment runner present script).Does tree (.error fault) after [] := by
          refine .after_inspect ?_
          rw [hscript]
          exact (Act.does_of_change hrun).bind_error
        exact ⟨_, _, hfails, hleads⟩
      · exact ⟨_, _, does_captureEnvironment_of_run hscript hrun, hleads⟩

/-! ### The template -/

section Template

variable {system : BuildSystem} {layout : Layout} {configuration : Text} {settings : Settings.Check}

theorem Build.fullResult_eq_ok_iff {result : Except Fault Program.Output} :
    Build.fullResult configuration result = .ok () ↔ ∃ output, result = .ok output ∧ output.success = true := by
  cases result with
  | error fault => simp [Build.fullResult]
  | ok output =>
      rw [Build.fullResult]
      constructor
      · intro h
        split_ifs at h with hsuccess
        exact ⟨output, rfl, hsuccess⟩
      · rintro ⟨output, ⟨⟩, hsuccess⟩
        rw [if_pos hsuccess]

/-- A file is made stale by touching it, or nothing is done. -/
theorem does_makeStale (settings : Settings.Check) (layout : Layout) (tree : FileTree) :
    (∃ fault, (makeStale settings layout).Does tree (.error fault) tree []) ∨
      ∃ file touched, tree.touch file = .ok touched ∧
        (makeStale settings layout).Does tree (.ok ()) touched [.touched file] := by
  cases hsmallest : smallestSourceFile settings layout.targetDir tree with
  | none => exact Or.inl ⟨_, does_makeStale_of_none hsmallest⟩
  | some file =>
      rcases does_touch file tree with ⟨touched, hok, htouch⟩ | ⟨e, -, htouch⟩
      · exact Or.inr ⟨file, touched, hok, does_makeStale_of_some hsmallest htouch⟩
      · exact Or.inl ⟨_, does_makeStale_of_some hsmallest htouch⟩

/-- What the template does to the files. Without a full build that succeeds it fails, and it touches
nothing. -/
theorem does_synthesize (hsystem : ∀ dir configuration mode tree,
      Program.Leads runner tree (system dir configuration mode tree).2)
    (layout : Layout) (configuration : Text) (settings : Settings.Check) (tree : FileTree) :
    ∃ result after deeds,
      (Recipe.synthesize system layout configuration settings).Does tree result after deeds ∧
      (∀ event ∈ deeds, event.isOfChecks = false) ∧ Program.LeadsTouching runner tree after ∧
      ((¬∃ output, (system layout.solutionDir configuration .full tree).1 = .ok output ∧ output.success = true) →
        (∃ fault, result = .error fault) ∧ (∀ file, .touched file ∉ deeds) ∧
          Program.Leads runner tree after) := by
  have hbuild := hsystem layout.solutionDir configuration .full tree
  cases hfull : Build.fullResult configuration (system layout.solutionDir configuration .full tree).1 with
  | error fault =>
      exact ⟨_, _, _, does_synthesize_of_error hfull, by simp [Event.isOfChecks], Or.inl hbuild,
        fun _ => ⟨⟨fault, rfl⟩, by simp, hbuild⟩⟩
  | ok _ =>
      have hsucceeded := Build.fullResult_eq_ok_iff.mp hfull
      rcases does_makeStale settings layout (system layout.solutionDir configuration .full tree).2 with
        ⟨fault, hstale⟩ | ⟨file, touched, htouch, hstale⟩
      · exact ⟨_, _, _, does_synthesize_of_makeStale_error hfull rfl hstale, by simp [Event.isOfChecks],
          Or.inl hbuild, fun h => absurd hsucceeded h⟩
      · exact ⟨_, _, _, does_synthesize_of_makeStale hfull rfl hstale, by simp [Event.isOfChecks],
          Or.inr ⟨_, file, touched, hbuild, htouch, hsystem ..⟩, fun h => absurd hsucceeded h⟩

end Template

namespace Cli

variable {surroundings : Surroundings} {arguments : Arguments} {settings : Settings} {found : Survey}
  {captured built : FileTree} {recipe : Recipe} {files : List Path}

/-! ### The steps in their order -/

/-- The steps before the first build succeed, one after another: the settings are loaded, the workers are
counted, the target and the tools are there, the environment is captured, which leaves the tree `captured`,
and the layout is discovered. -/
structure Surveyed (surroundings : Surroundings) (arguments : Arguments) (tree : FileTree) (settings : Settings)
    (found : Survey) (captured : FileTree) : Prop where
  loaded : settingsFor arguments tree = .ok settings
  counted : Options.ofArguments arguments.path arguments.configuration arguments.workers = .ok found.options
  resolved : resolve found.options.path tree = .ok found.target
  accepted : Target.validate settings.check found.target tree = .ok ()
  equipped : Toolchain.validate settings.toolchain tree = .ok ()
  captures : (Toolchain.captureEnvironment surroundings.runner surroundings.env
    settings.toolchain.vcvars).Does tree (.ok found.env) captured []
  discovers : (Layout.discover (Target.dirOf captured found.target)).Does captured (.ok found.layout) captured []

/-- The system that builds the solution. -/
def Surroundings.buildSystem (surroundings : Surroundings) (settings : Settings) : BuildSystem :=
  .ofProgram settings.toolchain surroundings.runner

/-- Behind these steps the full build succeeds as well. -/
def FullyBuilt (surroundings : Surroundings) (arguments : Arguments) (tree : FileTree) : Prop :=
  ∃ settings found captured, Surveyed surroundings arguments tree settings found captured ∧
    ∃ output, (surroundings.buildSystem settings found.layout.solutionDir found.options.configuration .full
      captured).1 = .ok output ∧ output.success = true

/-- All steps of the set-up succeed: behind the survey the template is built, which leaves the tree `built`, and
the files are listed. -/
structure Prepared (surroundings : Surroundings) (arguments : Arguments) (tree : FileTree) (settings : Settings)
    (found : Survey) (captured : FileTree) (recipe : Recipe) (files : List Path) (built : FileTree) : Prop
    extends Surveyed surroundings arguments tree settings found captured where
  synthesizes : ∃ deeds, (Recipe.synthesize (surroundings.buildSystem settings) found.layout
    found.options.configuration settings.check).Does captured (.ok recipe) built deeds
  lists : Target.sourceFiles settings.check found.target built = .ok files

/-- The plan that the steps amount to. -/
def Survey.plan (found : Survey) (surroundings : Surroundings) (settings : Settings) (recipe : Recipe)
    (files : List Path) : Plan where
  verifier :=
    { compiler := Compiler.ofRecipe recipe found.env surroundings.runner
      configuration := found.options.configuration
      toolName := settings.check.toolName }
  files := files
  workers := found.options.workers
  titleRoot := found.layout.targetDir

theorem does_survey (h : Surveyed surroundings arguments tree settings found captured) :
    (survey surroundings settings arguments).Does tree (.ok found) captured [] :=
  .after_inspect? h.counted (.after_inspect? h.resolved (.after_inspect? h.accepted (.after_inspect? h.equipped
    (h.captures.bind (.after_inspect (h.discovers.bind ((Act.does_pure ..).after_log ..)))))))

/-- The survey builds and touches nothing, and it comes to an end only behind steps that all succeed. -/
theorem ends_survey (surroundings : Surroundings) (hloaded : settingsFor arguments tree = .ok settings) :
    (survey surroundings settings arguments).Ends tree fun result after deeds =>
      deeds = [] ∧ Program.Leads surroundings.runner tree after ∧
        ∀ found, result = .ok found → Surveyed surroundings arguments tree settings found after := by
  have hstays : Program.Leads surroundings.runner tree tree := Relation.ReflTransGen.refl
  refine (Act.does_inspect? ..).ends_bind (fun _ _ => ⟨rfl, hstays, nofun⟩) fun options hcounted => ?_
  refine (Act.does_inspect? ..).ends_bind (fun _ _ => ⟨rfl, hstays, nofun⟩) fun target hresolved => ?_
  refine (Act.does_inspect? ..).ends_bind (fun _ _ => ⟨rfl, hstays, nofun⟩) fun _ haccepted => ?_
  refine (Act.does_inspect? ..).ends_bind (fun _ _ => ⟨rfl, hstays, nofun⟩) fun _ hequipped => ?_
  obtain ⟨env?, captured, hcaptures, hleads⟩ := Toolchain.does_captureEnvironment surroundings.runner
    surroundings.env settings.toolchain.vcvars tree
  refine hcaptures.ends_bind (fun _ _ => ⟨rfl, hleads, nofun⟩) fun env henv => ?_
  subst henv
  refine (Act.does_inspect ..).ends_bind (fun _ _ => ⟨rfl, hleads, nofun⟩) fun dir hdir => ?_
  obtain rfl := Except.ok.inj hdir
  have hdiscovers := Layout.does_discover (Target.dirOf captured target) captured
  refine hdiscovers.ends_bind (fun _ _ => ⟨rfl, hleads, nofun⟩) fun layout hlayout => ?_
  rw [hlayout] at hdiscovers
  refine ⟨_, _, _, (Act.does_pure ..).after_log .., rfl, hleads, ?_⟩
  rintro found ⟨⟩
  exact ⟨hloaded, hcounted, hresolved, haccepted, hequipped, hcaptures, hdiscovers⟩

theorem does_prepare
    (h : Prepared surroundings arguments tree settings found captured recipe files built) :
    ∃ deeds, (prepare surroundings settings arguments).Does tree
      (.ok (found.plan surroundings settings recipe files)) built deeds := by
  obtain ⟨deeds, hsynthesizes⟩ := h.synthesizes
  have hcollects := Target.does_collect settings.check found.target built
  rw [h.lists] at hcollects
  exact ⟨_, (does_survey h.toSurveyed).bind (hsynthesizes.bind (hcollects.bind (Act.does_pure ..)))⟩

/-- A template is only built behind a full build that succeeds. -/
theorem Surveyed.fullyBuilt (h : Surveyed surroundings arguments tree settings found captured)
    {deeds : List Event} (hsynthesizes : (Recipe.synthesize (surroundings.buildSystem settings) found.layout
      found.options.configuration settings.check).Does captured (.ok recipe) built deeds) :
    FullyBuilt surroundings arguments tree := by
  obtain ⟨result, _, _, hdoes, -, -, hunbuilt⟩ :=
    does_synthesize (BuildSystem.leads_ofProgram settings.toolchain surroundings.runner) found.layout
      found.options.configuration settings.check captured
  by_contra hnot
  obtain ⟨⟨fault, rfl⟩, -⟩ := hunbuilt fun hbuild => hnot ⟨settings, found, captured, h, hbuild⟩
  cases (hdoes.unique hsynthesizes).1

theorem Prepared.fullyBuilt
    (h : Prepared surroundings arguments tree settings found captured recipe files built) :
    FullyBuilt surroundings arguments tree := by
  obtain ⟨deeds, hsynthesizes⟩ := h.synthesizes
  exact h.toSurveyed.fullyBuilt hsynthesizes

/-- The set-up checks no line. Without a full build that succeeds it fails and touches nothing, and it comes to
an end only behind steps that all succeed. -/
theorem ends_prepare (surroundings : Surroundings) (hloaded : settingsFor arguments tree = .ok settings) :
    (prepare surroundings settings arguments).Ends tree fun result after deeds =>
      (∀ event ∈ deeds, event.isOfChecks = false) ∧
      Program.LeadsTouching surroundings.runner tree after ∧
      (¬FullyBuilt surroundings arguments tree →
        (∃ fault, result = .error fault) ∧ (∀ file, .touched file ∉ deeds) ∧
          Program.Leads surroundings.runner tree after) ∧
      ∀ plan, result = .ok plan → ∃ found captured recipe files,
        Prepared surroundings arguments tree settings found captured recipe files after := by
  obtain ⟨found?, captured, deeds, hsurvey, rfl, hleads, hsurveyed⟩ :=
    ends_survey surroundings hloaded
  refine hsurvey.ends_bind (fun fault _ => ⟨by simp, Or.inl hleads, fun _ => ⟨⟨fault, rfl⟩, by simp, hleads⟩,
    nofun⟩) fun found hfound => ?_
  have hsurveyed := hsurveyed found hfound
  obtain ⟨recipe?, built, deeds, hsynthesizes, hdeeds, htouching, hunbuilt⟩ :=
    does_synthesize (BuildSystem.leads_ofProgram settings.toolchain surroundings.runner) found.layout
      found.options.configuration settings.check captured
  have htouching := hleads.leadsTouching htouching
  have hunbuilt (h : ¬FullyBuilt surroundings arguments tree) :=
    hunbuilt fun hbuild => h ⟨settings, found, captured, hsurveyed, hbuild⟩
  refine hsynthesizes.ends_bind (fun fault _ => ⟨hdeeds, htouching, fun h => ⟨⟨fault, rfl⟩, ?_⟩, nofun⟩)
    fun recipe hrecipe => ?_
  · obtain ⟨-, huntouched, hbuilt⟩ := hunbuilt h
    exact ⟨huntouched, hleads.trans hbuilt⟩
  subst hrecipe
  have hfully := hsurveyed.fullyBuilt hsynthesizes
  refine (Target.does_collect ..).ends_bind (fun _ _ => ?_) fun files hfiles => ?_
  · exact ⟨by simpa using hdeeds, htouching, fun h => absurd hfully h, nofun⟩
  · refine ⟨_, _, _, Act.does_pure .., by simpa using hdeeds, htouching, fun h => absurd hfully h, ?_⟩
    exact fun _ _ => ⟨found, captured, recipe, files, hsurveyed, ⟨deeds, hsynthesizes⟩, hfiles⟩

end Cli

end CompileFail
