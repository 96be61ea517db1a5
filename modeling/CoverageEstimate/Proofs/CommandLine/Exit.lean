/-
# How an analysis ends

A request to analyze a project is refused for one of four reasons, each of which supposes that the ones
before it do not hold.  Where none of them holds the project is analyzed: the patterns have been checked
and the directory is there, so nothing fails any more.  What is left to decide is whether the coverage
that is asked for is reached, and the exit code and the report both say so.
-/
import CoverageEstimate.CommandLine.Analyze
import CoverageEstimate.Proofs.Config.Choice
import CoverageEstimate.Proofs.Report.Verdicts

namespace CoverageEstimate

/-! ## Directories and minimum coverages -/

/-- The check of a path accepts just directories. -/
lemma FileSystem.isDirectory_iff {files : FileSystem} {path : String} :
    files.isDirectory path = true ↔ ∃ name es, files.entry path = .ok (.directory name es) := by
  rw [isDirectory]
  constructor
  · intro h
    split at h
    · rename_i e hentry
      cases e with
      | directory name es => exact ⟨name, es, hentry⟩
      | file | link => exact absurd h (by simp [Entry.isDirectory])
    · exact absurd h (by simp)
  · rintro ⟨name, es, hentry⟩
    rw [hentry]
    rfl

/-- The minimum is reached just when there is none above the coverage. -/
lemma Report.meets_iff {report : Report} {minimum : Option Float} :
    report.meets minimum = true ↔
      ∀ m, minimum = some m → m ≤ report.summary.overallCoveragePercentage := by
  cases minimum with
  | none => simp [meets]
  | some m => simp [meets]

lemma Report.meets_eq_false_iff {report : Report} {minimum : Option Float} :
    report.meets minimum = false ↔
      ∃ m, minimum = some m ∧ ¬m ≤ report.summary.overallCoveragePercentage := by
  rw [← Bool.not_eq_true, meets_iff]
  simp only [not_forall, exists_prop]

namespace CommandLine

/-! ## What a request works with -/

/-- A path leads to a directory, and `root` is its path without links. -/
structure IsRoot (files : FileSystem) (path root : String) : Prop where
  real : ∃ place, files.realPlace path = .ok place ∧ root = FileSystem.pathOf place
  directory : ∃ name es, files.entry root = .ok (.directory name es)

/-- What counts of a value on the command line and one in a file. -/
inductive Replaces {α : Type} : Option α → Option α → Option α → Prop
  | given (value : α) (before : Option α) : Replaces (some value) before (some value)
  | absent (before : Option α) : Replaces none before before

namespace AnalyzeRequest

/-- A configuration that holds is the one of the file, save for what the command line says. -/
structure IsEffective (r : AnalyzeRequest) (c effective : Config) : Prop where
  excludedPaths : effective.excludedPaths = c.excludedPaths
  arguments : effective.dart.arguments = c.dart.arguments
  parser : Replaces r.dartParser c.dart.parser effective.dart.parser
  time : Replaces r.parserTimeout c.dart.timeoutSeconds effective.dart.timeoutSeconds
  jobs : Replaces r.jobs c.jobs effective.jobs
  minimum : Replaces r.minimumCoverage c.minimumCoverage effective.minimumCoverage

/-- A request can be carried out with a plan. -/
structure IsPlanned (r : AnalyzeRequest) (s : Surroundings) (p : AnalyzePlan) : Prop where
  root : IsRoot s.files r.path p.root
  chosen : Config.IsChosen s.files s.userConfig r.config p.root p.configPath
  config : ∃ c, Config.Loads s.files p.configPath c ∧ r.IsEffective c p.config
  valid : p.config.IsValid

/-- A request is refused: for its format, for its path, for the file of its configuration, or for what
the configuration says together with the command line. -/
inductive IsRefused (r : AnalyzeRequest) (s : Surroundings) : Prop
  /-- There is no such format. -/
  | format (hpretty : r.format ≠ "pretty") (hjson : r.format ≠ "json")
  /-- There is no such directory. -/
  | path (h : ∀ root, ¬IsRoot s.files r.path root)
  /-- The configuration cannot be loaded. -/
  | load {root : String} {chosen : Option String} (hroot : IsRoot s.files r.path root)
      (hchosen : Config.IsChosen s.files s.userConfig r.config root chosen)
      (h : ∀ c, ¬Config.Loads s.files chosen c)
  /-- The configuration cannot be used with what the command line says in it. -/
  | invalid {root : String} {chosen : Option String} {c effective : Config}
      (hroot : IsRoot s.files r.path root)
      (hchosen : Config.IsChosen s.files s.userConfig r.config root chosen)
      (hloads : Config.Loads s.files chosen c) (heffective : r.IsEffective c effective)
      (h : ¬effective.IsValid)

/-- A report is the one that a plan leads to. -/
def IsReportOf (files : FileSystem) (p : AnalyzePlan) (report : Report) : Prop :=
  ∃ exclusions warned,
    List.Forall₂ (fun pattern glob => Glob.ofText pattern = .ok glob) p.config.excludedPaths
      exclusions ∧
    (project files p.root p.config).run files exclusions = .ok warned ∧ warned.result = report

/-- An outcome shows a report, and whether the coverage that is asked for is reached: by its exit code,
and by the verdicts in the report for a reader. -/
structure Shows (r : AnalyzeRequest) (showsStyles : Bool) (p : AnalyzePlan) (report : Report)
    (o : Outcome) : Prop where
  output : r.format = "json" ∧ o.output = report.toJson ++ "\n" ∨
    r.format = "pretty" ∧
      o.output = Text.renderSpans showsStyles (report.prettySpans (r.heading p))
  reached : o.status.code = 0 ↔
    ∀ m, p.config.minimumCoverage = some m → m ≤ report.summary.overallCoveragePercentage
  missed : o.status.code = 1 ↔
    ∃ m, p.config.minimumCoverage = some m ∧ ¬m ≤ report.summary.overallCoveragePercentage
  verdicts_reached : o.status.code = 0 → verdictsIn (report.prettySpans (r.heading p)) =
    "✓ PASS" :: if p.config.minimumCoverage.isSome then ["PASSED"] else []
  verdicts_missed : o.status.code = 1 → verdictsIn (report.prettySpans (r.heading p)) =
    ["✗ FAIL", "FAILED"]

end AnalyzeRequest

/-! ## Formats and codes -/

lemma Format.ofWord?_eq_some_iff {word : String} {format : Format} :
    ofWord? word = some format ↔
      word = "json" ∧ format = .json ∨ word = "pretty" ∧ format = .pretty := by
  rw [ofWord?]
  split
  · simp_all [eq_comm]
  · split <;> simp_all [eq_comm]

lemma Format.ofWord?_eq_none_iff {word : String} :
    ofWord? word = none ↔ word ≠ "pretty" ∧ word ≠ "json" := by
  rw [ofWord?]
  split
  · simp_all
  · split <;> simp_all

lemma Status.code_of_meets (isReached : Bool) :
    (if isReached then Status.success else Status.insufficient).code =
      if isReached then 0 else 1 := by
  cases isReached <;> rfl

/-! ## Plans -/

lemma replaces_iff {α : Type} {flag before after : Option α} :
    Replaces flag before after ↔ flag.or before = after := by
  constructor
  · rintro (⟨value, before⟩ | before)
    · rfl
    · rfl
  · rintro rfl
    cases flag with
    | some value => exact .given value before
    | none => exact .absent before

namespace AnalyzeRequest

variable {r : AnalyzeRequest} {s : Surroundings} {files : FileSystem} {p : AnalyzePlan}

lemma isEffective_iff {c effective : Config} :
    r.IsEffective c effective ↔ r.override c = effective := by
  constructor
  · rintro ⟨hpaths, harguments, hparser, htime, hjobs, hminimum⟩
    rw [replaces_iff] at hparser htime hjobs hminimum
    obtain ⟨paths, ⟨parser, arguments, time⟩, jobs, minimum⟩ := effective
    simp_all [override]
  · rintro rfl
    exact ⟨rfl, rfl, replaces_iff.mpr rfl, replaces_iff.mpr rfl, replaces_iff.mpr rfl,
      replaces_iff.mpr rfl⟩

lemma isRoot_iff {root : String} :
    IsRoot files r.path root ↔ r.projectRoot files = .ok root := by
  rw [projectRoot]
  constructor
  · rintro ⟨⟨place, hplace, rfl⟩, hdirectory⟩
    rw [hplace]
    dsimp only
    rw [if_pos (FileSystem.isDirectory_iff.mpr hdirectory)]
  · intro h
    split at h
    · exact absurd h (by simp)
    · rename_i place hplace
      dsimp only at h
      split at h
      · rename_i hdirectory
        obtain rfl := Except.ok.inj h
        exact ⟨⟨place, hplace, rfl⟩, FileSystem.isDirectory_iff.mp hdirectory⟩
      · exact absurd h (by simp)

/-- A request has a plan just when one can be made. -/
lemma isPlanned_iff : r.IsPlanned s p ↔ r.plan s.files s.userConfig = .ok p := by
  constructor
  · rintro ⟨hroot, hchosen, ⟨c, hloads, heffective⟩, hvalid⟩
    rw [plan, isRoot_iff.mp hroot]
    dsimp only
    rw [Config.load_eq_ok_iff.mpr ⟨hchosen, hloads⟩]
    dsimp only
    rw [isEffective_iff.mp heffective, Config.validate_eq_ok_iff.mpr hvalid]
  · intro h
    rw [plan] at h
    split at h
    · exact absurd h (by simp)
    · rename_i root hroot
      split at h
      · exact absurd h (by simp)
      · rename_i c path hload
        dsimp only at h
        split at h
        · exact absurd h (by simp)
        · rename_i hvalid
          obtain rfl := Except.ok.inj h
          obtain ⟨hchosen, hloads⟩ := Config.load_eq_ok_iff.mp hload
          exact ⟨isRoot_iff.mpr hroot, hchosen, ⟨c, hloads, isEffective_iff.mpr rfl⟩,
            Config.validate_eq_ok_iff.mp hvalid⟩

/-! ## Refusals -/

/-- A request with a plan is refused only for its format. -/
lemma IsPlanned.not_isRefused (h : r.IsPlanned s p) (hformat : Format.ofWord? r.format ≠ none) :
    ¬r.IsRefused s := by
  obtain ⟨hroot, hchosen, ⟨c, hloads, heffective⟩, hvalid⟩ := h
  -- the directory, the file and the configuration of the plan are the only ones there are
  have sameRoot : ∀ root, IsRoot s.files r.path root → root = p.root := fun root h =>
    Except.ok.inj ((isRoot_iff.mp h).symm.trans (isRoot_iff.mp hroot))
  have sameFile : ∀ chosen, Config.IsChosen s.files s.userConfig r.config p.root chosen →
      chosen = p.configPath := fun chosen h =>
    (Config.isChosen_iff.mp h).symm.trans (Config.isChosen_iff.mp hchosen)
  intro refused
  cases refused with
  | format hpretty hjson => exact hformat (Format.ofWord?_eq_none_iff.mpr ⟨hpretty, hjson⟩)
  | path h => exact h _ hroot
  | load hroot' hchosen' h =>
    obtain rfl := sameRoot _ hroot'
    obtain rfl := sameFile _ hchosen'
    exact h c hloads
  | invalid hroot' hchosen' hloads' heffective' h =>
    obtain rfl := sameRoot _ hroot'
    obtain rfl := sameFile _ hchosen'
    obtain rfl := hloads.unique hloads'
    rw [← isEffective_iff.mp heffective', isEffective_iff.mp heffective] at h
    exact h hvalid

/-- A request without a plan is refused. -/
lemma isRefused_of_not_isPlanned (h : ∀ p, ¬r.IsPlanned s p) : r.IsRefused s := by
  by_cases hroot : ∃ root, IsRoot s.files r.path root
  · obtain ⟨root, hroot⟩ := hroot
    obtain ⟨chosen, hchosen⟩ := Config.exists_isChosen s.files s.userConfig r.config root
    by_cases hloads : ∃ c, Config.Loads s.files chosen c
    · obtain ⟨c, hloads⟩ := hloads
      refine .invalid hroot hchosen hloads (isEffective_iff.mpr rfl) fun hvalid => ?_
      exact h ⟨root, r.override c, chosen⟩
        ⟨hroot, hchosen, ⟨c, hloads, isEffective_iff.mpr rfl⟩, hvalid⟩
    · exact .load hroot hchosen (not_exists.mp hloads)
  · exact .path (not_exists.mp hroot)

/-! ## Reports -/

/-- A plan always leads to a report. -/
lemma IsPlanned.exists_report (h : r.IsPlanned s p) :
    ∃ warned, report s.files p = .ok warned ∧ IsReportOf s.files p warned.result := by
  obtain ⟨exclusions, hexclusions⟩ := Exclusions.exists_ofPatterns_eq_ok h.valid.patterns
  have hscan : ∃ warned,
      (project s.files p.root p.config).run s.files exclusions = .ok warned := by
    obtain ⟨name, es, hentry⟩ := h.root.directory
    have hroot : (project s.files p.root p.config).root = p.root := rfl
    exact ⟨_, by rw [Project.run, hroot, FileSystem.scan, hentry]⟩
  obtain ⟨warned, hrun⟩ := hscan
  refine ⟨warned, ?_, exclusions, warned, Exclusions.ofPatterns_eq_ok_iff.mp hexclusions, hrun,
    rfl⟩
  rw [report, Config.exclusions, hexclusions]
  dsimp only
  rw [hrun]

/-- An outcome with the output and the status of a report shows it. -/
lemma shows_of_format {format : Format} {report : Report} {o : Outcome} {showsStyles : Bool}
    (hformat : Format.ofWord? r.format = some format)
    (houtput : o.output = r.output showsStyles p report format)
    (hstatus : o.status =
      if report.meets p.config.minimumCoverage then .success else .insufficient) :
    r.Shows showsStyles p report o := by
  have hcode : o.status.code = if report.meets p.config.minimumCoverage then 0 else 1 := by
    rw [hstatus, Status.code_of_meets]
  have hverdicts := report.verdictsIn_prettySpans (r.heading p)
  have hminimum : (r.heading p).minimum = p.config.minimumCoverage := rfl
  rw [hminimum] at hverdicts
  refine ⟨?_, ?_, ?_, fun hzero => ?_, fun hone => ?_⟩
  · rcases Format.ofWord?_eq_some_iff.mp hformat with ⟨hjson, rfl⟩ | ⟨hpretty, rfl⟩
    · exact .inl ⟨hjson, houtput⟩
    · exact .inr ⟨hpretty, houtput⟩
  · rw [hcode, ← Report.meets_iff]
    simp
  · rw [hcode, ← Report.meets_eq_false_iff]
    simp
  · have hmeets : report.meets p.config.minimumCoverage = true := by simpa [hcode] using hzero
    rw [hverdicts, if_pos hmeets, if_pos hmeets]
  · have hmeets : report.meets p.config.minimumCoverage = false := by simpa [hcode] using hone
    obtain ⟨m, hm, -⟩ := Report.meets_eq_false_iff.mp hmeets
    rw [hverdicts, hmeets, hm]
    rfl

/-! ## Outcomes -/

/-- A request that is refused fails before anything is printed. -/
lemma IsRefused.attempt_eq (h : r.IsRefused s) :
    ∃ reason, r.attempt s = .ok (.failure s.files reason) := by
  rw [attempt]
  split
  · exact ⟨_, rfl⟩
  · rename_i format hformat
    split
    · exact ⟨_, rfl⟩
    · rename_i p hplan
      refine absurd h ((isPlanned_iff.mpr hplan).not_isRefused ?_)
      simp [hformat]

/-- A request that is not refused is carried out with a plan. -/
lemma exists_plan_of_not_isRefused (h : ¬r.IsRefused s) :
    ∃ p report o, r.IsPlanned s p ∧ IsReportOf s.files p report ∧ r.attempt s = .ok o ∧
      r.Shows s.showsStyles p report o := by
  cases hformat : Format.ofWord? r.format with
  | none =>
    obtain ⟨hpretty, hjson⟩ := Format.ofWord?_eq_none_iff.mp hformat
    exact absurd (.format hpretty hjson) h
  | some format =>
    obtain ⟨p, hplanned⟩ : ∃ p, r.IsPlanned s p := by
      by_contra hnone
      exact h (isRefused_of_not_isPlanned (not_exists.mp hnone))
    obtain ⟨warned, hreport, isReport⟩ := hplanned.exists_report
    obtain ⟨o, hattempt, houtput, hstatus⟩ : ∃ o, r.attempt s = .ok o ∧
        o.output = r.output s.showsStyles p warned.result format ∧
        o.status = if warned.result.meets p.config.minimumCoverage then .success
          else .insufficient := by
      rw [attempt, hformat, isPlanned_iff.mp hplanned]
      dsimp only
      rw [hreport]
      exact ⟨_, rfl, rfl, rfl⟩
    exact ⟨p, warned.result, o, hplanned, isReport, hattempt,
      shows_of_format hformat houtput hstatus⟩

/-- An outcome that shows a report says whether the minimum is reached and nothing else. -/
lemma Shows.code_ne_two {showsStyles : Bool} {report : Report} {o : Outcome}
    (h : r.Shows showsStyles p report o) : o.status.code ≠ 2 := by
  by_cases hreached : ∀ m, p.config.minimumCoverage = some m →
      m ≤ report.summary.overallCoveragePercentage
  · simp [h.reached.mpr hreached]
  · simp only [not_forall, exists_prop] at hreached
    simp [h.missed.mpr hreached]

lemma run_eq_of_attempt_eq {o : Outcome} (h : r.attempt s = .ok o) : r.run s = o := by
  rw [run, h]

/-- **How an analysis ends.**  It always ends in an outcome.  The exit code is 2, and nothing is printed,
just when the request is refused; otherwise the outcome shows the report of a plan. -/
theorem attempt_decided (r : AnalyzeRequest) (s : Surroundings) :
    r.attempt s = .ok (r.run s) ∧
      ((r.run s).status.code = 2 ∧ (r.run s).output = "" ↔ r.IsRefused s) ∧
      (¬r.IsRefused s → ∃ p report, r.IsPlanned s p ∧ IsReportOf s.files p report ∧
        r.Shows s.showsStyles p report (r.run s)) := by
  by_cases h : r.IsRefused s
  · obtain ⟨reason, hattempt⟩ := h.attempt_eq
    rw [run_eq_of_attempt_eq hattempt]
    exact ⟨hattempt, iff_of_true ⟨rfl, rfl⟩ h, absurd h⟩
  · obtain ⟨p, report, o, hplanned, hreport, hattempt, hshows⟩ := exists_plan_of_not_isRefused h
    rw [run_eq_of_attempt_eq hattempt]
    exact ⟨hattempt, iff_of_false (fun htwo => hshows.code_ne_two htwo.1) h,
      fun _ => ⟨p, report, hplanned, hreport, hshows⟩⟩

end AnalyzeRequest

end CommandLine

end CoverageEstimate
