/-
  Quorum/Proofs/Command/ExitCode.lean
  ===================================
  **The exit code of a run.**

  Whoever calls the program from a script has the exit code and nothing else.  A run needs
  settings with a key, a task and a fleet before it asks the service for anything; it is
  `Ready` when it has them, and is turned away without a request when it has not
  (`perform_run_turnedAway`).  What comes after that can fail in several ways, each with its own
  message, and a report can be written or not: the code is zero exactly when there is a
  report that is done (`perform_run_exitCode`).
-/
import Mathlib
import Quorum.Command.Session

namespace Quorum.Command

variable {w : World} {o : RunOrder} {settings : Settings} {task : String} {f : Fleet}

/-! ### What a run needs -/

/-- A run has what it needs before its first request: valid settings with a key, a task that
    is not blank and a fleet. -/
structure World.Ready (w : World) (o : RunOrder) (settings : Settings) (task : String)
    (f : Fleet) : Prop where
  valid : w.settings = .ok settings
  keyed : settings.isConfigured = true
  given : w.task o = .ok task
  worded : task.toList.all Text.isBlank = false
  loaded : w.fleet settings o.fleetFile = .ok f

/-- The run of a fleet against a task, answered by the replies there are. -/
def World.served (w : World) (settings : Settings) (o : RunOrder) (task : String) (f : Fleet) :
    FleetRun :=
  let mission : Service.ServedMission :=
    ⟨settings, f, o.timeout.map .double, w.runId, w.epoch⟩
  (mission.run (.text task) (Mission.deadlineOr settings (o.deadline.map .double)) w.replies).1

/-- A run has what it needs, and its report is done. -/
def World.Delivers (w : World) (o : RunOrder) : Prop :=
  ∃ settings task f report, w.Ready o settings task f
    ∧ (w.served settings o task f).ending = .ok report ∧ report.status = .done

/-! ### Turned away -/

/-- A command ends with the code for a failure and has asked the service for nothing. -/
structure Session.TurnedAway (s : Session) : Prop where
  code : s.exitCode = 1
  quiet : s.transcript.requests = []

/-- Settings break a command off with the code for a failure. -/
theorem World.settings_exitCode {why : Breakdown} (h : w.settings = .error why) :
    why.exitCode = 1 := by
  unfold World.settings at h
  cases henv : w.envFile with
  | error problem =>
    rw [henv] at h
    cases h
    rfl
  | ok envFile =>
    rw [henv] at h
    cases hread : Settings.ofSources ⟨[], w.environment, envFile⟩ with
    | error fault =>
      simp only [Except.mapError, bind, Except.bind, hread] at h
      cases h
      rfl
    | ok settings =>
      simp only [Except.mapError, bind, Except.bind, hread] at h
      cases h

/-- The transcript of a run before anything is displayed. -/
def World.opening (settings : Settings) (o : RunOrder) : Transcript :=
  { logging := some (settings.logLevel, if o.jsonLogs then .json else settings.logFormat) }

/-- A run that has what it needs is carried out. -/
theorem World.Ready.perform_eq (h : w.Ready o settings task f) :
    (Order.run o).perform w = w.runFleet settings o task f (World.opening settings o) := by
  simp [Order.perform, h.valid, World.run, h.keyed, h.given, h.worded, h.loaded, World.opening]

/-- A run that lacks something is turned away. -/
theorem perform_run_turnedAway (h : ¬ ∃ settings task f, w.Ready o settings task f) :
    ((Order.run o).perform w).TurnedAway := by
  rw [Order.perform]
  cases hvalid : w.settings with
  | error why => exact ⟨World.settings_exitCode hvalid, rfl⟩
  | ok settings =>
    dsimp only [World.run]
    cases hkeyed : settings.isConfigured with
    | false => exact ⟨rfl, rfl⟩
    | true =>
      simp only [Bool.not_true, Bool.false_eq_true, if_false]
      cases hgiven : w.task o with
      | error problem => exact ⟨rfl, rfl⟩
      | ok task =>
        cases hworded : task.toList.all Text.isBlank with
        | true =>
          simp only [hworded, if_true]
          exact ⟨rfl, rfl⟩
        | false =>
          simp only [hworded, Bool.false_eq_true, if_false]
          cases hloaded : w.fleet settings o.fleetFile with
          | ok f => exact absurd ⟨settings, task, f, hvalid, hkeyed, hgiven, hworded, hloaded⟩ h
          | error e =>
            dsimp only
            split <;> exact ⟨rfl, rfl⟩

/-! ### Carried out -/

/-- A run that is carried out succeeds exactly if its report is done, and ends with the code
    for a failure otherwise; what is displayed and written has no part in it. -/
theorem runFleet_exitCode (t : Transcript) :
    (w.runFleet settings o task f t).exitCode =
      match (w.served settings o task f).ending with
      | .ok report => if report.status = .done then 0 else 1
      | .error _ => 1 := by
  unfold World.runFleet World.served
  dsimp only
  split
  case h_1 report hending =>
    rw [hending]
    simp [Session.exitCode, Transcript.exit, FleetReport.succeeded]
  all_goals
    rename_i hending
    rw [hending]
    rfl

theorem exitCode_of_delivers (h : w.Delivers o) : ((Order.run o).perform w).exitCode = 0 := by
  obtain ⟨settings, task, f, report, hready, hending, hdone⟩ := h
  rw [hready.perform_eq, runFleet_exitCode, hending]
  exact if_pos hdone

theorem exitCode_of_not_delivers (h : ¬ w.Delivers o) :
    ((Order.run o).perform w).exitCode = 1 := by
  by_cases hready : ∃ settings task f, w.Ready o settings task f
  · obtain ⟨settings, task, f, hready⟩ := hready
    rw [hready.perform_eq, runFleet_exitCode]
    split
    · rename_i report hending
      exact if_neg fun hdone => h ⟨settings, task, f, report, hready, hending, hdone⟩
    · rfl
  · exact (perform_run_turnedAway hready).code

/-- The same run, displayed and exported in another way. -/
def RunOrder.presented (o : RunOrder) (verbose : Bool) (exportFormat output : Option String) :
    RunOrder :=
  { o with verbose := verbose, exportFormat := exportFormat, output := output }

theorem ready_presented_iff (verbose : Bool) (exportFormat output : Option String) :
    w.Ready (o.presented verbose exportFormat output) settings task f ↔
      w.Ready o settings task f :=
  ⟨fun h => ⟨h.valid, h.keyed, h.given, h.worded, h.loaded⟩,
    fun h => ⟨h.valid, h.keyed, h.given, h.worded, h.loaded⟩⟩

/-- How a run is displayed and exported has no part in what it needs and how it ends. -/
theorem delivers_presented_iff (verbose : Bool) (exportFormat output : Option String) :
    w.Delivers (o.presented verbose exportFormat output) ↔ w.Delivers o := by
  simp only [World.Delivers, ready_presented_iff]
  rfl

/-- Runs that deliver alike end with the same code. -/
theorem exitCode_congr {o' : RunOrder} (h : w.Delivers o' ↔ w.Delivers o) :
    ((Order.run o').perform w).exitCode = ((Order.run o).perform w).exitCode := by
  by_cases hdelivers : w.Delivers o
  · rw [exitCode_of_delivers hdelivers, exitCode_of_delivers (h.mpr hdelivers)]
  · rw [exitCode_of_not_delivers hdelivers, exitCode_of_not_delivers (mt h.mp hdelivers)]

/-- **The exit code tells the truth.**  A command line for a run ends with zero exactly if
    the settings are valid and hold a key, the task is not blank, the fleet is loaded and the
    report of its run is done, and with one otherwise.  Without settings, task or fleet
    nothing is asked of the service, and neither how much is displayed nor the report that
    is written, or fails to be, changes the code. -/
theorem perform_run_exitCode {words : List String}
    (hwords : Order.ofWords w.files words = .ok (.run o)) :
    ((perform w words).exitCode = 0 ↔ w.Delivers o) ∧
    (¬ w.Delivers o → (perform w words).exitCode = 1) ∧
    ((¬ ∃ settings task f, w.Ready o settings task f) →
      (perform w words).transcript.requests = []) ∧
    ∀ verbose exportFormat output,
      ((Order.run (o.presented verbose exportFormat output)).perform w).exitCode =
        (perform w words).exitCode := by
  have hperform : perform w words = (Order.run o).perform w := by rw [perform, hwords]
  rw [hperform]
  refine ⟨⟨fun hzero => ?_, exitCode_of_delivers⟩, exitCode_of_not_delivers, fun hlacks => ?_,
    fun v e t => exitCode_congr (delivers_presented_iff v e t)⟩
  · by_contra hfails
    exact Nat.zero_ne_one (hzero.symm.trans (exitCode_of_not_delivers hfails))
  · exact (perform_run_turnedAway hlacks).quiet

/-! ### A command line -/

/-- A directory with a fleet file. -/
def deskFiles : FileTree :=
  let text := "metadata:\n  name: desk\nspec:\n  agents:\n    - name: ann\n"
  ⟨[(["desk.yaml"], text.toUTF8.toList)]⟩

/-- Run the fleet of the desk. -/
def deskWords : List String := ["run", "desk.yaml", "--task", "Is it raining?"]

/-- What these words ask for. -/
def deskOrder : RunOrder where
  fleetFile := "desk.yaml"
  task := some "Is it raining?"
  taskFile := none
  deadline := none
  timeout := none
  exportFormat := none
  output := none
  verbose := false
  jsonLogs := false

theorem ofWords_deskWords : Order.ofWords deskFiles deskWords = .ok (.run deskOrder) := by
  have hprogram : Words.read Flag.program false deskWords = .ok ⟨[], deskWords⟩ := by
    have hrun : isOption "run" = false := by decide +kernel
    rw [Words.read.eq_def]
    simp [deskWords, hrun]
  have hrun : Words.read Flag.run true deskWords.tail =
      .ok ⟨[(.task, "Is it raining?")], ["desk.yaml"]⟩ := by
    have hfile : isOption "desk.yaml" = false := by decide +kernel
    have htask : isOption "--task" = true := by decide +kernel
    have hread : readOption Flag.run "--task" = .ok ⟨[], some (.task, "--task")⟩ := by cbv
    rw [Words.read.eq_def]
    simp only [deskWords, List.tail_cons, hfile]
    rw [Words.read.eq_def]
    simp only [htask, hread]
    rw [Words.read.eq_def]
    rfl
  have harguments : checkArguments deskFiles ["desk.yaml"] = .ok "desk.yaml" := by
    have hplace : deskFiles.placeToRead "desk.yaml" = .ok ["desk.yaml"] := by decide +kernel
    simp [checkArguments, checkFile, hplace]
  have hofRun : Order.ofRun deskFiles deskWords.tail = .ok (.run deskOrder) := by
    simp only [Order.ofRun, hrun, bind, Except.bind]
    rw [show Order.urgent? ⟨[(.task, "Is it raining?")], ["desk.yaml"]⟩ = none from rfl]
    simp only [harguments]
    rfl
  have hwords : Order.ofWords deskFiles deskWords = Order.ofRun deskFiles deskWords.tail := by
    rw [Order.ofWords, hprogram]
    rfl
  exact hwords.trans hofRun

/-- The desk has a key, and the service one reply for it. -/
def deskWorld : World where
  files := deskFiles
  environment := [("ANTHROPIC_API_KEY", "sk-ant-1")]
  replies := [⟨0, .ok "Not yet."⟩]
  runId := "run-1"
  epoch := ⟨0, some 0⟩

/-- The run of the desk delivers, and would end with the same code if its report were
    exported anywhere in any format. -/
theorem deskWorld_exitCode :
    Order.ofWords deskWorld.files deskWords = .ok (.run deskOrder) ∧
    (perform deskWorld deskWords).exitCode = 0 ∧ deskWorld.Delivers deskOrder ∧
    ∀ verbose exportFormat output,
      ((Order.run (deskOrder.presented verbose exportFormat output)).perform
        deskWorld).exitCode = 0 := by
  have hcode := perform_run_exitCode (w := deskWorld) ofWords_deskWords
  have hzero : (perform deskWorld deskWords).exitCode = 0 := by decide +kernel
  exact ⟨ofWords_deskWords, hzero, hcode.1.mp hzero, fun v e t => (hcode.2.2.2 v e t).trans hzero⟩

/-- Without a key the desk is turned away. -/
example : (perform { deskWorld with environment := [] } deskWords).exitCode = 1 := by
  decide +kernel

end Quorum.Command
