import Mathlib
import ScoreDesk.CommandLine.Run
import ScoreDesk.Proofs.Report.Placement

namespace ScoreDesk

namespace Report

theorem Diagnostic.colon_mem_display (d : Diagnostic) : ':' ∈ d.display.toList := by
  simp [display]

theorem Json.opening_mem_diagnostics (shown : List Diagnostic) :
    '[' ∈ (Json.diagnostics shown).toList := by
  unfold Json.diagnostics Json.bracket
  split
  · simp
  · obtain ⟨second, rest, closed⟩ := List.exists_cons_of_ne_nil
      (List.append_ne_nil_of_right_ne_nil (indent (separate (shown.map diagnostic)))
        (List.cons_ne_nil "]" []))
    rw [List.append_assoc, closed]
    simp [String.toList_intercalate, List.intercalate]

end Report

namespace CommandLine

open Check (Checker tidy)
open Report (Analysis Document Strategy)

namespace Desk

variable (d : Desk) {lines : List String}

theorem toList_stdout_printLines (lines : List String) :
    (d.printLines lines).stdout.toList =
      d.stdout.toList ++ lines.flatMap fun line => line.toList ++ ['\n'] := by
  induction lines generalizing d with
  | nil => simp [printLines]
  | cons line rest ih =>
    have first : d.printLines (line :: rest) = (d.print line).printLines rest := rfl
    rw [first, ih]
    simp [print]

theorem printLines_ne_of_mem {line text : String} {c : Char} (member : line ∈ lines)
    (inside : c ∈ line.toList) (foreign : c ∉ text.toList) :
    (d.printLines lines).stdout ≠ d.stdout ++ text := by
  intro printed
  rw [← String.toList_inj, toList_stdout_printLines, String.toList_append,
    List.append_right_inj] at printed
  rw [← printed, List.mem_flatMap] at foreign
  exact foreign ⟨line, member, List.mem_append_left _ inside⟩

@[simp] theorem stderr_printLines (lines : List String) :
    (d.printLines lines).stderr = d.stderr := by
  induction lines generalizing d with
  | nil => rfl
  | cons line rest ih => exact ih (d.print line)

end Desk

/-- No diagnostic reads like the line that stands where there is none, and no JSON text does. -/
theorem prints_no_problems_iff (d : Desk) (json : Bool) (a : Analysis) :
    (d.printLines (if json then [Report.Json.diagnostics a.diagnostics]
      else analysisLines a)).stdout = d.stdout ++ "No problems found\n" ↔
      json = false ∧ a.diagnostics = [] := by
  cases json with
  | true =>
    have differs : (d.printLines [Report.Json.diagnostics a.diagnostics]).stdout ≠
        d.stdout ++ "No problems found\n" :=
      d.printLines_ne_of_mem (List.mem_singleton_self _)
        (Report.Json.opening_mem_diagnostics a.diagnostics) (by decide)
    simp [differs]
  | false =>
    simp only [Bool.false_eq_true, ↓reduceIte, true_and]
    unfold analysisLines
    cases shown : a.diagnostics with
    | nil => simp [Desk.printLines, Desk.print, String.append_assoc]
    | cons diagnostic rest =>
      have differs : (d.printLines (diagnostic.display :: rest.map (·.display))).stdout ≠
          d.stdout ++ "No problems found\n" :=
        d.printLines_ne_of_mem List.mem_cons_self diagnostic.colon_mem_display (by decide)
      simp [differs]

section

variable {settings : Settings} {file : Path} {desk : Desk} {document : Document} {stderr : String}
  {machine : Machine}

theorem check_of_output (grouped json : Bool)
    (loaded : Document.load desk.machine.tree file = .ok document)
    (ran : (Checker.ofSettings settings).check desk.machine document =
      (some (.ok stderr), machine)) :
    check settings file grouped json desk =
      let strategy : Strategy := if grouped then .grouped else .structured
      let tree := tidy machine.tree document.dir
      let analysis := Analysis.ofOutput tree document strategy stderr
      let lines := if json then [Report.Json.diagnostics analysis.diagnostics]
        else analysisLines analysis
      (.ended (verdictOf file analysis),
        { desk with machine := { machine with tree } }.printLines lines) := by
  unfold check
  rw [loaded]
  simp only [ran]
  rfl

end

/-- A check that the compiler came back from ends, and fails exactly if the compiler reported an
    error that can be placed; then it has not said that there are no problems. It says so exactly if
    it writes text and none of the records can be placed. A record that cannot be placed does not
    count, whatever its severity. -/
theorem check_fails_iff_placed_error (settings : Settings) (file : Path) (grouped json : Bool)
    (desk : Desk) (document : Document) (stderr : String) (machine : Machine)
    (loaded : Document.load desk.machine.tree file = .ok document)
    (ran : (Checker.ofSettings settings).check desk.machine document =
      (some (.ok stderr), machine)) :
    let strategy : Strategy := if grouped then .grouped else .structured
    let tree := tidy machine.tree document.dir
    let records := (Report.read strategy stderr).records
    let failed : Prop := ∃ r ∈ records, r.severity = .error ∧ r.Placed tree document
    ∃ outcome after, check settings file grouped json desk = (.ended outcome, after) ∧
      (failed → outcome = .error { message := s!"{file} has errors" } ∧
        Progress.conclude (.ended outcome) after =
          (1, after.note s!"Error: {file} has errors") ∧
        after.stdout ≠ desk.stdout ++ "No problems found\n") ∧
      (¬ failed → outcome = .ok () ∧ Progress.conclude (.ended outcome) after = (0, after)) ∧
      (after.stdout = desk.stdout ++ "No problems found\n" ↔
        json = false ∧ ∀ r ∈ records, ¬ r.Placed tree document) ∧
      after.stderr = desk.stderr := by
  intro strategy tree records failed
  let analysis := Analysis.ofOutput tree document strategy stderr
  have errors : analysis.hasErrors = true ↔ failed := Analysis.hasErrors_ofOutput
  have silent := prints_no_problems_iff { desk with machine := { machine with tree } } json analysis
  rw [Analysis.ofOutput_diagnostics_eq_nil_iff] at silent
  refine ⟨_, _, check_of_output grouped json loaded ran, ?_, ?_, silent, by simp⟩
  · intro found
    have verdict : verdictOf file analysis = .error { message := s!"{file} has errors" } :=
      if_pos (errors.mpr found)
    refine ⟨verdict, ?_, fun printed => ?_⟩
    · rw [verdict]
      simp only [Progress.conclude, Failure.text, Desk.note, String.append_assoc,
        String.append_empty]
      rfl
    · obtain ⟨r, member, -, placed⟩ := found
      exact (silent.mp printed).2 r member placed
  · intro none
    have verdict : verdictOf file analysis = .ok () :=
      if_neg fun error => none (errors.mp error)
    exact ⟨verdict, by rw [verdict]; rfl⟩

def Desk.withReport (report : String) : Desk :=
  let compiler : Program := fun _ tree => (.ends [] (Text.Utf8.encode report) (some 1), tree)
  let tree : FileTree :=
    ⟨[], [(["score.ly"], .file (Text.Utf8.encode "\x7b c \x7d\n")), (["lilypond"], .file [])]⟩
  .start ⟨tree, { entries := [] }, .absent, [(["lilypond"], compiler)], []⟩ []

theorem withReport_loaded (report : String) :
    Document.load (Desk.withReport report).machine.tree ⟨"score.ly"⟩ =
      .ok ⟨⟨"score.ly"⟩, "\x7b c \x7d\n"⟩ := by
  change Document.load (Desk.withReport "").machine.tree _ = _
  decide +kernel

theorem faulty_score_check_fails :
    let settings := Settings.default.set .lilypondPath "/lilypond"
    let report := "-:1:3: error: not a note name\nmissing.ily:1:1: error: cannot find file\n"
    let document : Document := ⟨⟨"score.ly"⟩, "\x7b c \x7d\n"⟩
    ∃ machine, (Checker.ofSettings settings).check (Desk.withReport report).machine document =
        (some (.ok report), machine) ∧
      ∃ outcome after,
        check settings ⟨"score.ly"⟩ false false (Desk.withReport report) =
          (.ended outcome, after) ∧
        (Progress.conclude (.ended outcome) after).1 = 1 ∧
        (Progress.conclude (.ended outcome) after).2.stderr = "Error: score.ly has errors\n" := by
  intro settings report document
  have ran : (Checker.ofSettings settings).check (Desk.withReport report).machine document =
      (some (.ok report), ((Checker.ofSettings settings).check
        (Desk.withReport report).machine document).2) :=
    Prod.ext (by decide +kernel) rfl
  refine ⟨_, ran, ?_⟩
  obtain ⟨outcome, after, ended, fails, -, -, quiet⟩ := check_fails_iff_placed_error settings
    ⟨"score.ly"⟩ false false _ _ _ _ (withReport_loaded report) ran
  obtain ⟨-, concluded, -⟩ := fails (by decide +kernel)
  refine ⟨outcome, after, ended, by rw [concluded], ?_⟩
  rw [concluded, Desk.note, quiet]
  change (Desk.withReport report).stderr ++ _ ++ _ = _
  decide +kernel

/-- All that the compiler finds fault with is a file that is not there. -/
theorem unplaced_error_goes_unnoticed :
    let settings := Settings.default.set .lilypondPath "/lilypond"
    let report := "missing.ily:1:1: error: cannot find file\n"
    let document : Document := ⟨⟨"score.ly"⟩, "\x7b c \x7d\n"⟩
    ∃ machine, Document.load (Desk.withReport report).machine.tree ⟨"score.ly"⟩ = .ok document ∧
      (Checker.ofSettings settings).check (Desk.withReport report).machine document =
        (some (.ok report), machine) ∧
      (∃ r ∈ (Report.read .structured report).records, r.severity = .error) ∧
      ∃ outcome after,
        check settings ⟨"score.ly"⟩ false false (Desk.withReport report) =
          (.ended outcome, after) ∧
        (Progress.conclude (.ended outcome) after).1 = 0 ∧
        after.stdout = "No problems found\n" := by
  intro settings report document
  have ran : (Checker.ofSettings settings).check (Desk.withReport report).machine document =
      (some (.ok report), ((Checker.ofSettings settings).check
        (Desk.withReport report).machine document).2) :=
    Prod.ext (by decide +kernel) rfl
  have ended := check_of_output false false (withReport_loaded report) ran
  refine ⟨_, withReport_loaded report, ran, by decide +kernel, _, _, ended, ?_, ?_⟩
  · decide +kernel
  · decide +kernel

end CommandLine

end ScoreDesk
