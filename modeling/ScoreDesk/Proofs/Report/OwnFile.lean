import Mathlib
import ScoreDesk.Proofs.Report.Placement

namespace ScoreDesk

theorem FileTree.exists?_of_locate? {tree : FileTree} {path : Path} {place : Place}
    (located : tree.locate? path = some place) : tree.exists? path = true := by
  obtain ⟨found, at_place, -⟩ := Option.map_eq_some_iff.mp located
  rw [exists?, at_place]
  rfl

namespace Report

/-- A record leads to the document's own file, however its path is spelled: an absolute one is taken
    as it is, and any other one from the directory of the document. -/
def Record.LeadsToOwn (tree : FileTree) (document : Document) (r : Record) : Prop :=
  ∃ place, tree.locate? document.path = some place ∧
    tree.locate? (document.dir.join ⟨r.file⟩) = some place

section OwnFile

variable {tree : FileTree} {document : Document} {r : Record}

theorem sameFile_of_locate? {p q : Path} {place : Place} (first : tree.locate? p = some place)
    (second : tree.locate? q = some place) : Document.sameFile tree p q = true := by
  rw [Document.sameFile, first, second]
  exact beq_self_eq_true place

theorem Record.LeadsToOwn.shownFile_of_absolute (own : r.LeadsToOwn tree document)
    (absolute : Path.isAbsolute ⟨r.file⟩) : r.shownFile tree document = document.path := by
  obtain ⟨place, here, there⟩ := own
  rw [Path.join_of_isAbsolute _ absolute] at there
  rw [Record.shownFile, if_pos absolute, if_pos (sameFile_of_locate? here there)]

theorem shownFile_of_relative (relative : ¬ Path.isAbsolute ⟨r.file⟩) :
    r.shownFile tree document = document.dir.join ⟨r.file⟩ :=
  if_neg relative

theorem Record.LeadsToOwn.locate?_shownFile (own : r.LeadsToOwn tree document) :
    tree.locate? (r.shownFile tree document) = tree.locate? document.path := by
  by_cases absolute : Path.isAbsolute ⟨r.file⟩
  · rw [own.shownFile_of_absolute absolute]
  · obtain ⟨place, here, there⟩ := own
    rw [shownFile_of_relative absolute, there, here]

theorem Record.LeadsToOwn.same_shownFile (own : r.LeadsToOwn tree document)
    (same : (document.dir.join ⟨r.file⟩).same document.path) :
    (r.shownFile tree document).same document.path := by
  by_cases absolute : Path.isAbsolute ⟨r.file⟩
  · rw [own.shownFile_of_absolute absolute]
    exact decide_eq_true rfl
  · rwa [shownFile_of_relative absolute]

theorem exists_name_of_includeLine? {reported : String} {line : Nat}
    (included : document.includeLine? reported = some line) :
    ∃ name, Path.fileName? ⟨reported⟩ = some name := by
  simp only [Document.includeLine?, Option.bind_eq_bind, Option.bind_eq_some_iff] at included
  obtain ⟨name, named, -⟩ := included
  exact ⟨name, named⟩

/-- A record that leads to the document's own file is always shown, in that file. Where the document
    includes a file of the reported name, it is shown on the line of the include, with its place in
    the message; otherwise at the reported place with its own message, and under the path of the
    document itself if the report is absolute or spells the path like the document. (The tree has no
    links and no access rights, so a place has one canonical path and it is always found.) -/
theorem own_file_report_shown (own : r.LeadsToOwn tree document) :
    ∃ d, r.resolve tree document = .ok d ∧ d.severity = r.severity ∧
      (∀ line, r.file ≠ standardInput → document.includeLine? r.file = some line →
        d.file = document.path ∧ d.span = ⟨⟨line, 0⟩, ⟨line + 1, 0⟩⟩ ∧
          ∃ name, Path.fileName? ⟨r.file⟩ = some name ∧
            d.message = name ++ s!":{r.line + 1}: " ++ r.message) ∧
      (r.file = standardInput ∨ document.includeLine? r.file = none →
        d.span = ⟨⟨r.line, 0⟩, ⟨r.line, r.column⟩⟩ ∧ d.message = r.message ∧
          tree.locate? d.file = tree.locate? document.path ∧
          (r.file = standardInput ∨ Path.isAbsolute ⟨r.file⟩ → d.file = document.path) ∧
          ((document.dir.join ⟨r.file⟩).same document.path → d.file.same document.path)) := by
  by_cases stdin : r.file = standardInput
  · refine ⟨_, resolve_standardInput stdin, rfl, fun line reported => absurd stdin reported, ?_⟩
    exact fun _ => ⟨rfl, rfl, rfl, fun _ => rfl, fun _ => decide_eq_true rfl⟩
  · cases included : document.includeLine? r.file with
    | some line =>
      refine ⟨_, resolve_included stdin included, rfl, ?_, ?_⟩
      · intro line' _ same
        obtain rfl := Option.some.inj same
        obtain ⟨name, named⟩ := exists_name_of_includeLine? included
        exact ⟨rfl, rfl, name, named, by rw [named]; rfl⟩
      · rintro (reported | none)
        · exact absurd reported stdin
        · cases none
    | none =>
      have there : tree.exists? (document.dir.join ⟨r.file⟩) := by
        obtain ⟨place, -, located⟩ := own
        exact FileTree.exists?_of_locate? located
      refine ⟨_, resolve_there stdin included there, rfl, ?_, fun _ => ⟨rfl, rfl, ?_, ?_, ?_⟩⟩
      · intro line _ found
        cases found
      · exact own.locate?_shownFile
      · intro whole
        exact own.shownFile_of_absolute (whole.resolve_left stdin)
      · exact own.same_shownFile

end OwnFile

def scoreTree : FileTree :=
  ⟨["home"], [(["home"], .dir), (["home", "parts"], .dir), (["home", "score.ly"], .file [])]⟩

theorem roundabout_report_shown_in_document :
    let document : Document := ⟨⟨"score.ly"⟩, "\x7b c \x7d\n"⟩
    let r : Record := ⟨"/home//parts/../score.ly", 3, 2, .error, "bad", ""⟩
    r.LeadsToOwn scoreTree document ∧ document.includeLine? r.file = none ∧
      ∃ d, r.resolve scoreTree document = .ok d ∧ d.file = document.path ∧
        d.span = ⟨⟨3, 0⟩, ⟨3, 2⟩⟩ ∧ d.message = "bad" := by
  intro document r
  have own : r.LeadsToOwn scoreTree document :=
    ⟨["home", "score.ly"], by decide +kernel, by decide +kernel⟩
  have none : document.includeLine? r.file = Option.none := by decide +kernel
  obtain ⟨d, resolved, -, -, shown⟩ := own_file_report_shown own
  obtain ⟨span, message, -, file, -⟩ := shown (.inr none)
  exact ⟨own, none, d, resolved, file (.inr (by decide +kernel)), span, message⟩

/-- A report on the document's own file may be shown elsewhere: on the line that includes another
    file of the same name, or under another spelling of the path. -/
theorem own_report_shown_elsewhere :
    let including : Document := ⟨⟨"/home/score.ly"⟩, "\\include \"parts/score.ly\"\n"⟩
    let absolute : Record := ⟨"/home/score.ly", 3, 2, .error, "bad", ""⟩
    let plain : Document := ⟨⟨"score.ly"⟩, "\x7b c \x7d\n"⟩
    let relative : Record := ⟨"score.ly", 3, 2, .error, "bad", ""⟩
    (absolute.LeadsToOwn scoreTree including ∧
      absolute.resolve scoreTree including =
        .ok ⟨including.path, ⟨⟨0, 0⟩, ⟨1, 0⟩⟩, .error, "score.ly:4: bad"⟩) ∧
    (relative.LeadsToOwn scoreTree plain ∧
      ∃ d, relative.resolve scoreTree plain = .ok d ∧ ¬ d.file.same plain.path) := by
  intro including absolute plain relative
  refine ⟨⟨⟨["home", "score.ly"], by decide +kernel, by decide +kernel⟩, by decide +kernel⟩, ?_⟩
  refine ⟨⟨["home", "score.ly"], by decide +kernel, by decide +kernel⟩, ?_⟩
  exact ⟨⟨⟨"./score.ly"⟩, ⟨⟨3, 0⟩, ⟨3, 2⟩⟩, .error, "bad"⟩, by decide +kernel, by decide +kernel⟩

end Report

end ScoreDesk
