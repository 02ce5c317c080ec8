import Mathlib
import ScoreDesk.Check.Checker
import ScoreDesk.Compile.Compiler
import ScoreDesk.Report.Diagnostic
import ScoreDesk.Proofs.Text.Octets

namespace ScoreDesk

namespace Report

theorem cutLine_dropReturn (line : List Char) : cutLine (Text.dropReturn line) = cutLine line := by
  rcases List.eq_nil_or_concat' line with rfl | ⟨before, c, rfl⟩
  · rfl
  by_cases returned : c = '\r'
  · have dropped : Text.dropReturn (before ++ [c]) = before := by
      simp [Text.dropReturn, returned]
    have stopped : ['\r'].takeWhile (· != '\r') = [] := rfl
    rw [dropped, cutLine, cutLine, returned, List.takeWhile_append, stopped, List.append_nil]
    split
    · next whole => exact (List.takeWhile_prefix _).eq_of_length whole
    · rfl
  · have kept : Text.dropReturn (before ++ [c]) = before ++ [c] := by
      simp [Text.dropReturn, returned]
    rw [kept]

theorem structuredEntry?_dropReturn (line : List Char) :
    structuredEntry? (Text.dropReturn line) = structuredEntry? line := by
  unfold structuredEntry?
  rw [cutLine_dropReturn]

theorem structuredEntries_eq (s : List Char) :
    structuredEntries s = (Text.lines s).filterMap structuredEntry? := by
  obtain ⟨before, last, pieces⟩ := Text.exists_pieces '\n' s
  have ended : (before.map Text.dropReturn).filterMap structuredEntry? =
      before.filterMap structuredEntry? := by
    rw [List.filterMap_map]
    exact List.filterMap_congr fun line _ => structuredEntry?_dropReturn line
  rw [Text.lines_of_pieces pieces, structuredEntries, pieces, List.filterMap_append,
    List.filterMap_append, ended]
  cases last <;> rfl

theorem structuredEntries_flatMap {lines : List (List Char)} (clean : ∀ line ∈ lines, '\n' ∉ line) :
    structuredEntries (lines.flatMap (· ++ ['\n'])) = lines.filterMap structuredEntry? := by
  unfold structuredEntries
  rw [Text.splitAt_flatMap clean, List.filterMap_append]
  exact List.append_nil _

end Report

open Report (Analysis Document readStructured)
open Text (Bytes)
open Text.Stream (textLines)
open Text.Utf8 (decode encode)

namespace Compile

theorem toList_collect (lines : List (List Char)) :
    (collect (lines.map .ofList)).toList = lines.flatMap (· ++ ['\n']) := by
  simp [collect, List.flatMap_map]

/-- The lines that were heard, put together again, hold the messages of what was written. -/
theorem readStructured_collect (text : String) :
    readStructured (collect (textLines (encode text))) = readStructured text := by
  unfold readStructured
  rw [Text.Stream.textLines_encode, toList_collect,
    Report.structuredEntries_flatMap fun _ => Text.lineFeed_not_mem_lines,
    ← Report.structuredEntries_eq]

theorem complete_stderr (compiler : Compiler) (run : Nat) (target : Path) (stdout stderr : Bytes)
    (outcome : Outcome) :
    (compiler.complete run target stdout stderr outcome).1.stderr = collect (textLines stderr) :=
  rfl

/-- Whatever a compiler writes, and however it ends its lines, a run reads from the lines that it
heard what a check reads from the whole. So after those lines a run echoes, one for one, the
messages that a check of the same output goes by. -/
theorem echoed_messages_are_checked (text : String) :
    readStructured (collect (textLines (encode text))) = readStructured text ∧
    (∀ (stdout : Bytes) (outcome : Outcome) (tree : FileTree) (document : Document),
      runLines stdout (encode text) outcome =
        textLines stdout ++ textLines (encode text) ++
          (Analysis.ofOutput tree document .structured text).records.map (·.logLine) ++
          outcome.lines) ∧
    (∀ (compiler : Compiler) (run : Nat) (target : Path) (stdout : Bytes) (outcome : Outcome),
      readStructured (compiler.complete run target stdout (encode text) outcome).1.stderr =
          readStructured text ∧
        (compiler.complete run target stdout (encode text) outcome).2.lines =
          compiler.lines ++ (runLines stdout (encode text) outcome).map Text.trimmedEnd) ∧
    (∀ (checker : Check.Checker) (machine after : Machine) (document : Document) (stdout : Bytes)
      (code : Option Nat),
      machine.launch checker.program document.dir (checkArgs checker.additional) document.text =
        (.ok (.ends stdout (encode text) code), after) →
      checker.check machine document = (some (.ok text), after)) := by
  have same := readStructured_collect text
  refine ⟨same, ?_, ?_, ?_⟩
  · intro stdout outcome tree document
    have echoed : messageLines (collect (textLines (encode text))) =
        (Analysis.ofOutput tree document .structured text).records.map (·.logLine) := by
      rw [messageLines, same]
      rfl
    rw [runLines, echoed]
  · intro compiler run target stdout outcome
    exact ⟨by rw [complete_stderr, same], rfl⟩
  · intro checker machine after document stdout code ran
    rw [Check.Checker.check, ran]
    show (some (Except.ok (decode (encode text))), after) = _
    rw [Text.Utf8.decode_encode]

theorem echoes_of_mixed_line_ends :
    let text :=
      "-:1:3: error: odd\r\nsee\r-:9:9: error: hid\n-:2:1: warning: late\r\r\n-:3:1: error: end"
    let lilypond : Program := fun _ tree => (.ends [] (encode text) (some 1), tree)
    let machine : Machine :=
      ⟨⟨[], [(["lilypond"], .file [])]⟩, { entries := [] }, .absent, [(["lilypond"], lilypond)], []⟩
    let checker : Check.Checker := ⟨⟨"/lilypond"⟩, []⟩
    let document : Document := ⟨⟨"score.ly"⟩, "c"⟩
    (∃ after, checker.check machine document = (some (.ok text), after)) ∧
      runLines [] (encode text) (.failed (some 1)) =
        textLines (encode text) ++
          ["ERROR: -:1:3: error: odd", "WARNING: -:2:1: warning: late",
            "ERROR: -:3:1: error: end", "Compilation failed"] := by
  intro text lilypond machine checker document
  obtain ⟨-, echoed, -, checked⟩ := echoed_messages_are_checked text
  let launched := machine.launch checker.program document.dir (checkArgs checker.additional)
    document.text
  have answered : launched.1 = .ok (.ends [] (encode text) (some 1)) := by decide +kernel
  have ran : launched = (.ok (.ends [] (encode text) (some 1)), launched.2) := by rw [← answered]
  refine ⟨⟨launched.2, checked checker machine launched.2 document [] (some 1) ran⟩, ?_⟩
  rw [echoed [] (.failed (some 1)) machine.tree document]
  have messages : (Analysis.ofOutput machine.tree document .structured text).records.map
      (·.logLine) =
        ["ERROR: -:1:3: error: odd", "WARNING: -:2:1: warning: late",
          "ERROR: -:3:1: error: end"] := by
    decide +kernel
  have unheard : textLines [] = [] := by decide
  rw [messages, unheard, List.nil_append, List.append_assoc]
  rfl

end Compile

end ScoreDesk
