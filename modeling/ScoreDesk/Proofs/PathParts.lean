import Mathlib
import ScoreDesk.Path
import ScoreDesk.Proofs.Text.Scan

namespace ScoreDesk.Path

structure IsFileName (name : String) : Prop where
  nonempty : name ≠ ""
  dot : name ≠ "."
  dots : name ≠ ".."
  whole : '/' ∉ name.toList

theorem isFileName_iff {name : String} :
    IsFileName name ↔ name ≠ "" ∧ name ≠ "." ∧ name ≠ ".." ∧ '/' ∉ name.toList :=
  ⟨fun h => ⟨h.nonempty, h.dot, h.dots, h.whole⟩, fun ⟨a, b, c, d⟩ => ⟨a, b, c, d⟩⟩

instance : DecidablePred IsFileName := fun _ => decidable_of_iff _ isFileName_iff.symm

section Pieces

variable {leading : Bool} {piece : List Char} {pieces : List (List Char)} {name : String}

theorem pieceComponent?_of_isFileName (leading : Bool) (fit : IsFileName name) :
    pieceComponent? leading name.toList = some (.name name) := by
  have dot : name.toList ≠ ['.'] := fun same => fit.dot (String.toList_inj.1 same)
  have dots : name.toList ≠ ['.', '.'] := fun same => fit.dots (String.toList_inj.1 same)
  simp [pieceComponent?, fit.nonempty, dot, dots]

theorem of_pieceComponent?_eq_name (read : pieceComponent? leading piece = some (.name name))
    (whole : '/' ∉ piece) : piece = name.toList ∧ IsFileName name := by
  unfold pieceComponent? at read
  split_ifs at read with empty dot first dots
  · cases read
  · cases read
  obtain rfl := Component.name.inj (Option.some.inj read)
  refine ⟨String.toList_ofList.symm, ?_, ?_, ?_, by rwa [String.toList_ofList]⟩
  · rintro same
    exact empty (by simpa using congrArg String.toList same)
  · rintro same
    exact dot (by simpa using congrArg String.toList same)
  · rintro same
    exact dots (by simpa using congrArg String.toList same)

theorem root_not_mem_relativeComponents (leading : Bool) (pieces : List (List Char)) :
    .root ∉ relativeComponents leading pieces := by
  have other (leading : Bool) (piece : List Char) : pieceComponent? leading piece ≠ some .root := by
    unfold pieceComponent?
    split_ifs <;> simp
  cases pieces with
  | nil => exact List.not_mem_nil
  | cons piece rest => simp [relativeComponents, other]

theorem relativeComponents_append (leading : Bool) (before after : List (List Char)) :
    relativeComponents leading (before ++ after) =
      relativeComponents leading before ++
        relativeComponents (leading && before.isEmpty) after := by
  have inner (pieces : List (List Char)) :
      relativeComponents false pieces = pieces.filterMap (pieceComponent? false) := by
    cases pieces with
    | nil => rfl
    | cons piece rest =>
      rw [relativeComponents, List.filterMap_cons]
      cases pieceComponent? false piece <;> rfl
  cases before with
  | nil => simp [relativeComponents]
  | cons piece rest =>
    rw [List.cons_append, relativeComponents, relativeComponents, List.filterMap_append,
      List.append_assoc, List.isEmpty_cons, Bool.and_false, inner after]

theorem dropSilent_isPrefix (leading : Bool) (pieces : List (List Char)) :
    dropSilent leading pieces <+: pieces := by
  induction pieces generalizing leading with
  | nil => exact List.prefix_rfl
  | cons piece rest ih =>
    rw [dropSilent]
    split
    · split
      · exact ⟨rest, rfl⟩
      · exact List.nil_prefix
    · exact List.cons_prefix_cons.2 ⟨rfl, ih false⟩

theorem dropSilent_cases (leading : Bool) (pieces : List (List Char)) :
    dropSilent leading pieces = [] ∧ relativeComponents leading pieces = [] ∨
      ∃ before last component, dropSilent leading pieces = before ++ [last] ∧
        pieceComponent? (leading && before.isEmpty) last = some component ∧
        relativeComponents leading pieces = relativeComponents leading before ++ [component] := by
  induction pieces generalizing leading with
  | nil => exact .inl ⟨rfl, rfl⟩
  | cons piece rest ih =>
    have parts : relativeComponents leading (piece :: rest) =
        (pieceComponent? leading piece).toList ++ relativeComponents false rest := by
      have split := relativeComponents_append leading [piece] rest
      simpa [relativeComponents] using split
    rw [parts, dropSilent]
    rcases ih false with ⟨silent, none⟩ | ⟨before, last, component, kept, named, behind⟩
    · rw [silent, none, List.append_nil]
      cases here : pieceComponent? leading piece with
      | none => exact .inl ⟨rfl, rfl⟩
      | some component => exact .inr ⟨[], piece, component, rfl, by simpa using here, rfl⟩
    · refine .inr ⟨piece :: before, last, component, ?_, by simpa using named, ?_⟩
      · rw [kept]
        cases before <;> rfl
      · have front := relativeComponents_append leading [piece] before
        rw [behind, ← List.append_assoc]
        simpa [relativeComponents] using front.symm

theorem dropSilent_append_of_some {last : List Char} {component : Component}
    {before : List (List Char)}
    (named : pieceComponent? (leading && before.isEmpty) last = some component) :
    dropSilent leading (before ++ [last]) = before ++ [last] := by
  induction before generalizing leading with
  | nil =>
    have some : (pieceComponent? leading last).isSome = true := by
      simpa using congrArg Option.isSome named
    rw [List.nil_append, dropSilent, dropSilent, if_pos some]
  | cons piece rest ih =>
    have behind : dropSilent false (rest ++ [last]) = rest ++ [last] := ih (by simpa using named)
    rw [List.cons_append, dropSilent, behind]
    cases rest <;> rfl

theorem dropSilent_dropSilent (leading : Bool) (pieces : List (List Char)) :
    dropSilent leading (dropSilent leading pieces) = dropSilent leading pieces := by
  rcases dropSilent_cases leading pieces with ⟨silent, -⟩ |
    ⟨before, last, component, kept, named, -⟩
  · rw [silent]
    rfl
  · rw [kept, dropSilent_append_of_some named]

theorem relativeComponents_dropSilent (leading : Bool) (pieces : List (List Char)) :
    relativeComponents leading (dropSilent leading pieces) =
      relativeComponents leading pieces := by
  rcases dropSilent_cases leading pieces with ⟨silent, none⟩ |
    ⟨before, last, component, kept, named, all⟩
  · rw [silent, none]
    rfl
  · rw [kept, all, relativeComponents_append]
    simp [relativeComponents, named]

end Pieces

/-- Pieces that a path can be made of: none of them holds a slash, and a relative path does not
    begin with an empty one. -/
structure Fit (absolute : Bool) (pieces : List (List Char)) : Prop where
  whole : ∀ piece ∈ pieces, '/' ∉ piece
  start : absolute = false → pieces.head? ≠ some []

section OfPieces

variable {absolute : Bool} {pieces : List (List Char)}

theorem toList_ofPieces (absolute : Bool) (pieces : List (List Char)) :
    (ofPieces absolute pieces).text.toList =
      (if absolute then ['/'] else []) ++ ['/'].intercalate pieces :=
  String.toList_ofList

theorem Fit.head?_intercalate (fit : Fit false pieces) :
    (['/'].intercalate pieces).head? ≠ some '/' := by
  cases pieces with
  | nil => simp
  | cons piece rest =>
    have start : piece ≠ [] := by simpa using fit.start rfl
    obtain ⟨c, more, rfl⟩ := List.exists_cons_of_ne_nil start
    have whole := fit.whole _ List.mem_cons_self
    cases rest with
    | nil => simpa using fun same => whole (by simp [same])
    | cons next rest => simpa [List.intercalate_cons_cons] using fun same => whole (by simp [same])

theorem Fit.isAbsolute_ofPieces (fit : Fit absolute pieces) :
    (ofPieces absolute pieces).isAbsolute = absolute := by
  unfold isAbsolute
  rw [toList_ofPieces]
  cases absolute with
  | true => rfl
  | false => simpa using fit.head?_intercalate

theorem pieces_of_absolute {p : Path} {body : List Char} (text : p.text.toList = '/' :: body) :
    p.pieces = Text.splitAt '/' body := by
  unfold pieces
  simp only [text]

theorem pieces_of_relative {p : Path} (relative : p.isAbsolute = false) :
    p.pieces = Text.splitAt '/' p.text.toList := by
  unfold pieces
  split
  · rename_i body text
    simp [isAbsolute, text] at relative
  · rfl

theorem Fit.pieces_ofPieces (fit : Fit absolute pieces) (nonempty : pieces ≠ []) :
    (ofPieces absolute pieces).pieces = pieces := by
  have again : Text.splitAt '/' (['/'].intercalate pieces) = pieces := by
    rw [Text.splitAt_eq_splitOn]
    exact List.splitOn_intercalate '/' fit.whole nonempty
  cases absolute with
  | true => exact (pieces_of_absolute (toList_ofPieces true pieces)).trans again
  | false =>
    rw [pieces_of_relative fit.isAbsolute_ofPieces, toList_ofPieces]
    exact again

theorem pieces_ofPieces_nil (absolute : Bool) : (ofPieces absolute []).pieces = [[]] := by
  cases absolute <;> rfl

theorem components_eq (p : Path) : p.components =
    (if p.isAbsolute then [.root] else []) ++ relativeComponents (!p.isAbsolute) p.pieces := by
  unfold components
  cases p.isAbsolute <;> rfl

theorem Fit.components_ofPieces (fit : Fit absolute pieces) :
    (ofPieces absolute pieces).components =
      (if absolute then [.root] else []) ++ relativeComponents (!absolute) pieces := by
  rw [components_eq, fit.isAbsolute_ofPieces]
  by_cases nonempty : pieces = []
  · subst nonempty
    rw [pieces_ofPieces_nil]
    rfl
  · rw [fit.pieces_ofPieces nonempty]

theorem Fit.of_isPrefix {before : List (List Char)} (fit : Fit absolute pieces)
    (front : before <+: pieces) : Fit absolute before := by
  refine ⟨fun piece member => fit.whole piece (front.subset member), fun relative => ?_⟩
  obtain ⟨after, rfl⟩ := front
  cases before with
  | nil => simp
  | cons piece rest => exact fit.start relative

theorem fit_dropSilent (p : Path) : Fit p.isAbsolute (dropSilent (!p.isAbsolute) p.pieces) := by
  have front := dropSilent_isPrefix (!p.isAbsolute) p.pieces
  have whole : ∀ piece ∈ p.pieces, '/' ∉ piece := by
    intro piece member
    unfold pieces at member
    split at member <;> exact Text.not_mem_of_mem_splitAt member
  refine ⟨fun piece member => whole piece (front.subset member), fun relative => ?_⟩
  rw [relative, pieces_of_relative relative]
  cases text : p.text.toList with
  | nil => simp [Text.splitAt, dropSilent, pieceComponent?]
  | cons c rest =>
    have other : c ≠ '/' := by simpa [isAbsolute, text] using relative
    obtain ⟨piece, more, split⟩ := List.exists_cons_of_ne_nil (Text.splitAt_ne_nil '/' rest)
    rw [Text.splitAt, if_neg other, split]
    have begins := dropSilent_isPrefix true ((c :: piece) :: more)
    intro empty
    obtain ⟨after, same⟩ := begins
    cases kept : dropSilent true ((c :: piece) :: more) with
    | nil => simp [kept] at empty
    | cons first behind => simp_all

theorem Fit.append_last {before : List (List Char)} {last : List Char} (fit : Fit absolute before)
    (whole : '/' ∉ last) (nonempty : last ≠ []) : Fit absolute (before ++ [last]) := by
  refine ⟨fun piece member => ?_, fun relative => ?_⟩
  · rcases List.mem_append.1 member with earlier | behind
    · exact fit.whole piece earlier
    · rwa [List.mem_singleton.1 behind]
  · cases before with
    | nil => simpa using nonempty
    | cons piece rest => exact fit.start relative

theorem Fit.append_name {before : List (List Char)} (fit : Fit absolute before) {name : String}
    (proper : IsFileName name) : Fit absolute (before ++ [name.toList]) :=
  fit.append_last proper.whole (by simpa using proper.nonempty)

end OfPieces

def lead (p : Path) : List (List Char) :=
  (dropSilent (!p.isAbsolute) p.pieces).dropLast

def besides (p : Path) (name : String) : Path :=
  ofPieces p.isAbsolute (p.lead ++ [name.toList])

section FileName

variable {p : Path} {name other : String}

theorem fit_lead (p : Path) : Fit p.isAbsolute p.lead :=
  (fit_dropSilent p).of_isPrefix (List.dropLast_prefix _)

theorem dropSilent_of_fileName? (named : p.fileName? = some name) :
    dropSilent (!p.isAbsolute) p.pieces = p.lead ++ [name.toList] ∧ IsFileName name ∧
      p.components = (if p.isAbsolute then [.root] else []) ++
        relativeComponents (!p.isAbsolute) p.lead ++ [.name name] := by
  unfold fileName? at named
  unfold lead
  rw [components_eq] at named ⊢
  rcases dropSilent_cases (!p.isAbsolute) p.pieces with ⟨silent, none⟩ |
    ⟨before, last, component, kept, here, all⟩
  · rw [none] at named
    split_ifs at named <;> cases named
  · rw [all, ← List.append_assoc, List.getLast?_concat] at named
    cases component with
    | name text =>
      obtain rfl := Option.some.inj named
      have whole := (fit_dropSilent p).whole last (by rw [kept]; simp)
      obtain ⟨rfl, proper⟩ := of_pieceComponent?_eq_name here whole
      rw [kept, all, List.dropLast_concat]
      exact ⟨rfl, proper, (List.append_assoc ..).symm⟩
    | _ => cases named

theorem isFileName_of_fileName? (named : p.fileName? = some name) : IsFileName name :=
  (dropSilent_of_fileName? named).2.1

theorem isAbsolute_besides (p : Path) (proper : IsFileName name) :
    (p.besides name).isAbsolute = p.isAbsolute :=
  ((fit_lead p).append_name proper).isAbsolute_ofPieces

theorem lead_besides (p : Path) (proper : IsFileName name) : (p.besides name).lead = p.lead := by
  have pieces : (p.besides name).pieces = p.lead ++ [name.toList] :=
    ((fit_lead p).append_name proper).pieces_ofPieces (by simp)
  unfold lead at pieces ⊢
  rw [isAbsolute_besides p proper, pieces,
    dropSilent_append_of_some (pieceComponent?_of_isFileName _ proper), List.dropLast_concat]

theorem components_besides (p : Path) (proper : IsFileName name) :
    (p.besides name).components = (if p.isAbsolute then [.root] else []) ++
      relativeComponents (!p.isAbsolute) p.lead ++ [.name name] := by
  refine ((fit_lead p).append_name proper).components_ofPieces.trans ?_
  rw [relativeComponents_append, ← List.append_assoc]
  simp [relativeComponents, pieceComponent?_of_isFileName _ proper]

theorem fileName?_besides_dots (p : Path) : (p.besides "..").fileName? = none := by
  have fit : Fit p.isAbsolute (p.lead ++ [['.', '.']]) :=
    (fit_lead p).append_last (by decide) (by decide)
  have ends : (p.besides "..").components = (if p.isAbsolute then [.root] else []) ++
      relativeComponents (!p.isAbsolute) p.lead ++ [.up] := by
    refine fit.components_ofPieces.trans ?_
    rw [relativeComponents_append, ← List.append_assoc]
    rfl
  unfold fileName?
  rw [ends, List.getLast?_concat]

theorem fileName?_besides (p : Path) (proper : IsFileName name) :
    (p.besides name).fileName? = some name := by
  unfold fileName?
  rw [components_besides p proper, List.getLast?_concat]

def dirPieces (p : Path) : List (List Char) :=
  let before := dropSilent (!p.isAbsolute) p.lead
  if p.isAbsolute = false ∧ before = [] then [['.']] else before

theorem fit_dirPieces (p : Path) : Fit p.isAbsolute p.dirPieces := by
  unfold dirPieces
  dsimp only
  split
  · exact ⟨by simp, by simp⟩
  · exact (fit_lead p).of_isPrefix (dropSilent_isPrefix _ _)

theorem dirPieces_ne_nil (relative : p.isAbsolute = false) : p.dirPieces ≠ [] := by
  simp only [dirPieces, relative, true_and]
  split <;> simp_all

theorem dropSilent_dirPieces (p : Path) :
    dropSilent (!p.isAbsolute) p.dirPieces = p.dirPieces := by
  unfold dirPieces
  dsimp only
  split
  · rename_i here
    rw [here.1]
    rfl
  · exact dropSilent_dropSilent _ _

theorem relativeComponents_dirPieces (p : Path) :
    relativeComponents (!p.isAbsolute) p.dirPieces =
      if p.isAbsolute = false ∧ relativeComponents (!p.isAbsolute) p.lead = [] then [.here]
      else relativeComponents (!p.isAbsolute) p.lead := by
  have silent : dropSilent (!p.isAbsolute) p.lead = [] ↔
      relativeComponents (!p.isAbsolute) p.lead = [] := by
    rcases dropSilent_cases (!p.isAbsolute) p.lead with ⟨silent, none⟩ |
      ⟨before, last, component, kept, -, all⟩
    · simp [silent, none]
    · simp [kept, all]
  unfold dirPieces
  simp only [silent]
  split
  · rename_i here
    rw [here.1]
    rfl
  · exact relativeComponents_dropSilent _ _

theorem isEmpty_ofPieces {absolute : Bool} {pieces : List (List Char)} (fit : Fit absolute pieces) :
    (ofPieces absolute pieces).text.isEmpty = true ↔ absolute = false ∧ pieces = [] := by
  rw [String.isEmpty_iff, ← String.toList_inj, toList_ofPieces]
  cases absolute with
  | true => simp
  | false =>
    cases pieces with
    | nil => simp
    | cons piece rest =>
      have start : piece ≠ [] := by simpa using fit.start rfl
      cases rest <;> simp [start, List.intercalate_cons_cons]

theorem dirOrHere_of_silent (silent : dropSilent (!p.isAbsolute) p.pieces = []) :
    p.dirOrHere = ofPieces false [['.']] := by
  unfold dirOrHere parent?
  simp only [silent]
  rfl

theorem dirOrHere_of_parent (names : dropSilent (!p.isAbsolute) p.pieces ≠ []) :
    p.dirOrHere = ofPieces p.isAbsolute p.dirPieces := by
  have parent : p.parent? =
      some (ofPieces p.isAbsolute (dropSilent (!p.isAbsolute) p.lead)) := by
    unfold parent?
    dsimp only
    split
    · rename_i none
      exact absurd none names
    · rfl
  have front := dropSilent_isPrefix (!p.isAbsolute) p.lead
  have empty := isEmpty_ofPieces ((fit_lead p).of_isPrefix front)
  unfold dirOrHere dirPieces
  rw [parent]
  dsimp only
  simp only [empty]
  split
  · rename_i here
    rw [here.1]
    rfl
  · rfl

theorem dirOrHere_eq (named : p.fileName? = some name) :
    p.dirOrHere = ofPieces p.isAbsolute p.dirPieces := by
  obtain ⟨kept, -, -⟩ := dropSilent_of_fileName? named
  exact dirOrHere_of_parent (by simp [kept])

theorem components_dirOrHere (named : p.fileName? = some name) :
    p.dirOrHere.components =
      if p.components.dropLast = [] then [.here] else p.components.dropLast := by
  obtain ⟨-, -, all⟩ := dropSilent_of_fileName? named
  rw [dirOrHere_eq named, (fit_dirPieces p).components_ofPieces, relativeComponents_dirPieces, all,
    List.dropLast_concat]
  cases p.isAbsolute <;> simp

theorem dirOrHere_besides (named : p.fileName? = some name) (proper : IsFileName other) :
    (p.besides other).dirOrHere = p.dirOrHere := by
  rw [dirOrHere_eq (fileName?_besides p proper), dirOrHere_eq named]
  unfold dirPieces
  rw [isAbsolute_besides p proper, lead_besides p proper]

theorem join_relative {dir : Path} (proper : IsFileName name) : dir.join ⟨name⟩ =
    if dir.text.isEmpty then ⟨name⟩
    else if dir.text.toList.getLast? = some '/' then ⟨dir.text ++ name⟩
    else ⟨dir.text ++ "/" ++ name⟩ := by
  have relative : isAbsolute ⟨name⟩ = false := by
    refine decide_eq_false fun slash => proper.whole ?_
    exact List.mem_of_mem_head? slash
  unfold join
  rw [relative, Bool.false_or]

theorem intercalate_concat (sep last : List Char) {before : List (List Char)} (some : before ≠ []) :
    sep.intercalate (before ++ [last]) = sep.intercalate before ++ sep ++ last := by
  induction before with
  | nil => exact absurd rfl some
  | cons piece rest ih =>
    cases rest with
    | nil => simp [List.intercalate_cons_cons]
    | cons next rest =>
      have behind := ih (by simp)
      rw [List.cons_append, List.cons_append, List.intercalate_cons_cons, ← List.cons_append,
        behind, List.intercalate_cons_cons]
      simp

theorem exists_front_of_ofPieces (absolute : Bool) (before : List (List Char)) :
    ∃ front, ∀ last, (ofPieces absolute (before ++ [last])).text.toList = front ++ last := by
  by_cases none : before = []
  · refine ⟨if absolute then ['/'] else [], fun last => ?_⟩
    rw [toList_ofPieces, none, List.nil_append, List.intercalate_singleton]
  · refine ⟨(if absolute then ['/'] else []) ++ (['/'].intercalate before ++ ['/']), fun last => ?_⟩
    rw [toList_ofPieces, intercalate_concat _ _ none, ← List.append_assoc]

theorem join_ofPieces {absolute : Bool} {pieces : List (List Char)} (fit : Fit absolute pieces)
    (kept : dropSilent (!absolute) pieces = pieces) (nonempty : absolute = false → pieces ≠ [])
    (proper : IsFileName name) :
    (ofPieces absolute pieces).join ⟨name⟩ = ofPieces absolute (pieces ++ [name.toList]) := by
  have full : (ofPieces absolute pieces).text.isEmpty = false := by
    rw [← Bool.not_eq_true, isEmpty_ofPieces fit]
    exact fun both => nonempty both.1 both.2
  rw [join_relative proper, full]
  rcases dropSilent_cases (!absolute) pieces with ⟨silent, -⟩ |
    ⟨before, last, component, all, here, -⟩
  · obtain rfl : pieces = [] := kept.symm.trans silent
    obtain rfl : absolute = true := by simpa using nonempty
    refine congrArg Path.mk (String.toList_inj.1 ?_)
    simp [ofPieces]
  · obtain rfl : pieces = before ++ [last] := kept.symm.trans all
    have unended : (ofPieces absolute (before ++ [last])).text.toList.getLast? ≠ some '/' := by
      obtain ⟨front, text⟩ := exists_front_of_ofPieces absolute before
      have named : last ≠ [] := by
        rintro rfl
        cases here
      rw [text, List.getLast?_append_of_ne_nil _ named]
      exact fun slash => fit.whole last (by simp) (List.mem_of_getLast? slash)
    rw [if_neg (by simp), if_neg unended]
    have behind : ['/'].intercalate (before ++ [last] ++ [name.toList]) =
        ['/'].intercalate (before ++ [last]) ++ ['/'] ++ name.toList :=
      intercalate_concat _ _ (by simp)
    refine congrArg Path.mk (String.toList_inj.1 ?_)
    rw [String.toList_append, String.toList_append, toList_ofPieces, String.toList_ofList, behind]
    simp

theorem join_dirOrHere (named : p.fileName? = some name) (proper : IsFileName other) :
    p.dirOrHere.join ⟨other⟩ = ofPieces p.isAbsolute (p.dirPieces ++ [other.toList]) := by
  rw [dirOrHere_eq named]
  exact join_ofPieces (fit_dirPieces p) (dropSilent_dirPieces p) dirPieces_ne_nil proper

theorem components_join_ofPieces {absolute : Bool} {pieces : List (List Char)}
    (fit : Fit absolute pieces) (kept : dropSilent (!absolute) pieces = pieces)
    (nonempty : absolute = false → pieces ≠ []) (proper : IsFileName name) :
    ((ofPieces absolute pieces).join ⟨name⟩).components =
      (ofPieces absolute pieces).components ++ [.name name] := by
  rw [join_ofPieces fit kept nonempty proper, (fit.append_name proper).components_ofPieces,
    fit.components_ofPieces, relativeComponents_append]
  simp [relativeComponents, pieceComponent?_of_isFileName _ proper]

theorem components_join (p : Path) (proper : IsFileName other) :
    (p.dirOrHere.join ⟨other⟩).components = p.dirOrHere.components ++ [.name other] := by
  by_cases silent : dropSilent (!p.isAbsolute) p.pieces = []
  · rw [dirOrHere_of_silent silent]
    have fit : Fit false [['.']] := ⟨by simp, by simp⟩
    exact components_join_ofPieces fit rfl (by simp) proper
  · rw [dirOrHere_of_parent silent]
    exact components_join_ofPieces (fit_dirPieces p) (dropSilent_dirPieces p) dirPieces_ne_nil
      proper

theorem fileName?_join (p : Path) (proper : IsFileName other) :
    (p.dirOrHere.join ⟨other⟩).fileName? = some other := by
  unfold fileName?
  rw [components_join p proper, List.getLast?_concat]

theorem dirOrHere_join (named : p.fileName? = some name) (proper : IsFileName other) :
    (p.dirOrHere.join ⟨other⟩).dirOrHere = p.dirOrHere := by
  have fit := (fit_dirPieces p).append_name proper
  have joined := join_dirOrHere named proper
  have absolute : (p.dirOrHere.join ⟨other⟩).isAbsolute = p.isAbsolute := by
    rw [joined]
    exact fit.isAbsolute_ofPieces
  have front : (p.dirOrHere.join ⟨other⟩).lead = p.dirPieces := by
    unfold lead
    rw [absolute, joined, fit.pieces_ofPieces (by simp),
      dropSilent_append_of_some (pieceComponent?_of_isFileName _ proper), List.dropLast_concat]
  have back : (p.dirOrHere.join ⟨other⟩).dirPieces = p.dirPieces := by
    rw [dirPieces, absolute, front, dropSilent_dirPieces, if_neg]
    exact fun both => dirPieces_ne_nil both.1 both.2
  rw [dirOrHere_eq (fileName?_join p proper), absolute, back, ← dirOrHere_eq named]

theorem isEmpty_dirOrHere (p : Path) : p.dirOrHere.text.isEmpty = false := by
  unfold dirOrHere
  split
  · split
    · rfl
    · rename_i full
      exact Bool.eq_false_of_not_eq_true full
  · rfl

theorem exists_join_text {dir : Path} (full : dir.text.isEmpty = false) :
    ∃ between, ∀ name, IsFileName name → (dir.join ⟨name⟩).text = dir.text ++ between ++ name := by
  by_cases ended : dir.text.toList.getLast? = some '/'
  · refine ⟨"", fun name proper => ?_⟩
    rw [join_relative proper, full, if_neg (by simp), if_pos ended, String.append_empty]
  · refine ⟨"/", fun name proper => ?_⟩
    rw [join_relative proper, full, if_neg (by simp), if_neg ended]

end FileName

section Extension

variable {p : Path} {name stem suffix : String}

theorem besides_append (p : Path) (name suffix : String) :
    (p.besides (name ++ suffix)).text = (p.besides name).text ++ suffix := by
  obtain ⟨front, text⟩ := exists_front_of_ofPieces p.isAbsolute p.lead
  rw [← String.toList_inj, String.toList_append, besides, besides, text, text, String.toList_append,
    List.append_assoc]

theorem splitExtension_isPrefix (name : List Char) : (splitExtension name).1 <+: name := by
  unfold splitExtension
  dsimp only
  split
  · exact List.prefix_rfl
  · exact List.take_prefix _ _

theorem splitExtension_ne_nil {chars : List Char} (nonempty : chars ≠ []) :
    (splitExtension chars).1 ≠ [] := by
  unfold splitExtension
  dsimp only
  split
  · exact nonempty
  · rename_i some
    simpa using some

theorem slash_not_mem_stem (proper : IsFileName name)
    (cut : (splitExtension name.toList).1 = stem.toList) : '/' ∉ stem.toList := by
  have front := splitExtension_isPrefix name.toList
  rw [cut] at front
  exact fun slash => proper.whole (front.subset slash)

theorem isFileName_stem (proper : IsFileName name)
    (cut : (splitExtension name.toList).1 = stem.toList) (dot : stem ≠ ".") (dots : stem ≠ "..") :
    IsFileName stem := by
  have some : name.toList ≠ [] := by simpa using proper.nonempty
  have nonempty := splitExtension_ne_nil some
  rw [cut] at nonempty
  refine ⟨fun none => nonempty (by rw [none]; rfl), dot, dots, slash_not_mem_stem proper cut⟩

theorem isFileName_append (whole : '/' ∉ stem.toList) (wholeSuffix : '/' ∉ suffix.toList)
    (long : 2 < suffix.length) : IsFileName (stem ++ suffix) := by
  have longer (text : String) (short : text.length ≤ 2) : stem ++ suffix ≠ text := by
    rintro rfl
    rw [String.length_append] at short
    omega
  exact ⟨longer "" (by decide), longer "." (by decide), longer ".." (by decide),
    by simp [whole, wholeSuffix]⟩

theorem withoutExtension_eq (named : p.fileName? = some name)
    (cut : (splitExtension name.toList).1 = stem.toList) (dot : stem ≠ ".") :
    p.withoutExtension = p.besides stem := by
  have kept (ends : Bool) : Path.stem ends name.toList = stem.toList := by
    unfold Path.stem
    split
    · rename_i only
      rw [only] at cut
      have same : stem = "." := String.toList_inj.1 cut.symm
      exact absurd same dot
    · rename_i parts
      rw [← cut, parts]
  unfold withoutExtension
  rw [named]
  dsimp only
  rw [kept]
  rfl

end Extension

end ScoreDesk.Path
