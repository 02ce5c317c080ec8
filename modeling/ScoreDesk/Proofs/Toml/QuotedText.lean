import Mathlib
import ScoreDesk.Proofs.Text.Scan
import ScoreDesk.Toml.Lexeme

namespace ScoreDesk.Toml

namespace Quoted

theorem escape_cases (c : Char) :
    (escape c).1 = [c] ∧ isControl c = false ∧ c ≠ backslash ∨
      (∃ letter, (escape c).1 = [backslash, letter] ∧ Lexeme.letterEscape? letter = some c) ∨
        (escape c).1 = unicodeEscape c ∧ isControl c = true := by
  unfold escape
  by_cases b : c = '\x08'
  · exact .inr (.inl ⟨'b', by simp [b], by rw [b]; rfl⟩)
  by_cases t : c = '\t'
  · exact .inr (.inl ⟨'t', by simp [t], by rw [t]; rfl⟩)
  by_cases f : c = '\x0c'
  · exact .inr (.inl ⟨'f', by simp [f], by rw [f]; rfl⟩)
  by_cases r : c = '\r'
  · exact .inr (.inl ⟨'r', by simp [r], by rw [r]; rfl⟩)
  by_cases e : c = backslash
  · exact .inr (.inl ⟨backslash, by simp [e, backslash], by rw [e]; rfl⟩)
  rw [if_neg b, if_neg t, if_neg f, if_neg r, if_neg e]
  cases control : isControl c with
  | true => exact .inr (.inr ⟨rfl, rfl⟩)
  | false => exact .inl ⟨rfl, rfl, e⟩

def Admits : QuoteForm → List Char → Prop
  | .basic, _ => True
  | .literal, s => ∀ c ∈ s, needsEscape c = false ∧ c ≠ '\n' ∧ c ≠ apostrophe
  | .multiBasic, _ => True
  | .multiLiteral, s => hasTriple apostrophe s = false ∧ ∀ c ∈ s, needsEscape c = false

theorem form_admits (s : List Char) : Admits (form s) s := by
  have raw (none : (!s.any needsEscape) = true) : ∀ c ∈ s, needsEscape c = false := by
    simpa using none
  unfold form
  dsimp only
  split
  · trivial
  split
  · rename_i literal
    simp only [Bool.and_eq_true, Bool.not_eq_true', List.contains_eq_mem,
      decide_eq_false_iff_not] at literal
    obtain ⟨⟨none, noApostrophe⟩, noNewline⟩ := literal
    exact fun c member => ⟨raw (by simpa using none) c member,
      fun same => noNewline (same ▸ member), fun same => noApostrophe (same ▸ member)⟩
  split
  · trivial
  split
  · rename_i multi
    simp only [Bool.and_eq_true] at multi
    exact ⟨by simpa using multi.2, raw multi.1⟩
  split <;> trivial

theorem scalar?_unicodeEscape {c : Char} (control : isControl c = true) :
    Text.scalar? ((unicodeEscape c).drop 2) = some c := by
  have small : c.toNat < 128 := by
    simp only [isControl, Bool.or_eq_true, decide_eq_true_eq, beq_iff_eq] at control
    rcases control with low | rfl
    · omega
    · decide
  have all : ∀ n : Fin 128, Text.scalar? ((unicodeEscape (Char.ofNat n)).drop 2) =
      some (Char.ofNat n) := by decide
  exact Text.of_ascii (p := fun c => Text.scalar? ((unicodeEscape c).drop 2) = some c) all small

end Quoted

namespace Lexeme

open Quoted (quote apostrophe backslash)

theorem isPlain_of_not_control {c : Char} (ordinary : Quoted.isControl c = false) :
    isPlain c = true := by
  simp [isPlain, ordinary]

structure ReadsEscapes (read : Reader (List Char)) : Prop where
  plain : ∀ {c : Char} (rest : List Char), isPlain c = true → c ≠ quote → c ≠ backslash →
    read (c :: rest) = (read rest).map (consFst c)
  letter : ∀ {c letter : Char} (rest : List Char), letterEscape? letter = some c →
    read (backslash :: letter :: rest) = (read rest).map (consFst c)
  unicode : ∀ {x a b c d : Char} (rest : List Char), Text.scalar? [a, b, c, d] = some x →
    read (backslash :: 'u' :: a :: b :: c :: d :: rest) = (read rest).map (consFst x)

theorem ReadsEscapes.escape {read : Reader (List Char)} (reads : ReadsEscapes read) {c : Char}
    (inner : c ≠ quote) (rest : List Char) :
    read ((Quoted.escape c).1 ++ rest) = (read rest).map (consFst c) := by
  rcases Quoted.escape_cases c with ⟨self, ordinary, other⟩ | ⟨letter, short, named⟩ |
    ⟨long, control⟩
  · rw [self]
    exact reads.plain rest (isPlain_of_not_control ordinary) inner other
  · rw [short]
    exact reads.letter rest named
  · rw [long]
    exact reads.unicode rest (Quoted.scalar?_unicodeEscape control)

theorem bind_eq_map_consFst {x : Option Char} {c : Char} (read : Option (List Char × List Char))
    (known : x = some c) :
    (do return consFst (← x) (← read)) = read.map (consFst c) := by
  subst known
  cases read <;> rfl

theorem basicBody_readsEscapes : ReadsEscapes basicBody where
  plain := by
    intro c rest plain inner other
    rw [basicBody.eq_6 c rest inner (fun _ _ _ _ _ same _ => other same)
      (fun _ _ _ _ _ _ _ _ _ same _ => other same) (fun _ _ same _ => other same), if_pos plain]
  letter := by
    intro c letter rest named
    have notu : letter ≠ 'u' := by rintro rfl; cases named
    have notU : letter ≠ 'U' := by rintro rfl; cases named
    exact (basicBody.eq_5 letter rest (fun _ _ _ _ _ same _ => notu same)
      (fun _ _ _ _ _ _ _ _ _ same _ => notU same)).trans (bind_eq_map_consFst _ named)
  unicode := fun rest known => (basicBody.eq_3 ..).trans (bind_eq_map_consFst _ known)

theorem breaksLine_of_letter {c letter : Char} (rest : List Char)
    (named : letterEscape? letter = some c) : breaksLine (letter :: rest) = false := by
  unfold letterEscape? at named
  split at named <;> cases named <;> rfl

theorem multiBasicBody_readsEscapes : ReadsEscapes (multiBasicBody false) where
  plain := by
    intro c rest plain inner other
    have notReturn : c ≠ '\r' := by rintro rfl; exact absurd plain (by decide)
    have notNewline : c ≠ '\n' := by rintro rfl; exact absurd plain (by decide)
    rw [multiBasicBody.eq_8 false c rest (fun _ same _ => inner same)
      (fun _ same _ => notReturn same) notNewline (fun _ _ _ _ _ same _ => other same)
      (fun _ _ _ _ _ _ _ _ _ same _ => other same) (fun _ _ same _ => other same)]
    simp [plain]
  letter := by
    intro c letter rest named
    have notu : letter ≠ 'u' := by rintro rfl; cases named
    have notU : letter ≠ 'U' := by rintro rfl; cases named
    have same := multiBasicBody.eq_7 false letter rest (fun _ _ _ _ _ same _ => notu same)
      (fun _ _ _ _ _ _ _ _ _ same _ => notU same)
    rw [breaksLine_of_letter rest named] at same
    exact same.trans (bind_eq_map_consFst _ named)
  unicode := fun rest known => (multiBasicBody.eq_5 ..).trans (bind_eq_map_consFst _ known)

theorem basicBody_quoted (s rest : List Char) :
    basicBody (Quoted.basicBody s ++ quote :: rest) = some (s, rest) := by
  induction s with
  | nil => rfl
  | cons c behind ih =>
    rw [Quoted.basicBody, List.append_assoc]
    have letter {c : Char} (letter : Char) (named : letterEscape? letter = some c) :
        basicBody (backslash :: letter :: (Quoted.basicBody behind ++ quote :: rest)) =
          some (c :: behind, rest) := by
      rw [basicBody_readsEscapes.letter _ named, ih]
      rfl
    by_cases quoted : c = quote
    · subst quoted
      exact letter quote rfl
    · by_cases newline : c = '\n'
      · subst newline
        exact letter 'n' rfl
      · rw [if_neg quoted, if_neg newline, basicBody_readsEscapes.escape quoted, ih]
        rfl

theorem literalBody_quoted {s : List Char}
    (plain : ∀ c ∈ s, isPlain c = true ∧ c ≠ apostrophe) (rest : List Char) :
    literalBody (s ++ apostrophe :: rest) = some (s, rest) := by
  induction s with
  | nil => rfl
  | cons c behind ih =>
    obtain ⟨here, inner⟩ := plain c (by simp)
    rw [List.cons_append, literalBody.eq_3 _ _ inner, if_pos here,
      ih fun d member => plain d (by simp [member])]
    rfl

theorem closing_of_head {quote : Char} {rest : List Char} (behind : ∀ c ∈ rest.head?, c ≠ quote) :
    closing quote rest = ([], rest) ∧ closing quote (quote :: rest) = ([quote], rest) ∧
      closing quote (quote :: quote :: rest) = ([quote, quote], rest) := by
  cases rest with
  | nil => simp [closing]
  | cons c more =>
    have other : c ≠ quote := behind c rfl
    cases more <;> simp [closing, other]

theorem multiBasicBody_quote {rest : List Char}
    (apart : ∀ behind, rest ≠ quote :: quote :: behind) :
    multiBasicBody false (quote :: rest) = (multiBasicBody false rest).map (consFst quote) := by
  have plain : isPlain quote = true := by decide
  have distinct {c : Char} (other : quote ≠ c) (same : quote = c) : False := other same
  rw [multiBasicBody.eq_8 false quote rest (fun behind _ same => apart behind same)
    (fun _ same => absurd same (by decide)) (distinct (by decide))
    (fun _ _ _ _ _ same => absurd same (by decide))
    (fun _ _ _ _ _ _ _ _ _ same => absurd same (by decide))
    (fun _ _ same => absurd same (by decide))]
  simp [plain]

theorem multiBasicBody_quotes {run : Nat} (short : run ≤ 2) {c : Char} (other : c ≠ quote)
    (rest : List Char) :
    multiBasicBody false (List.replicate run quote ++ c :: rest) =
      (multiBasicBody false (c :: rest)).map fun r => (List.replicate run quote ++ r.1, r.2) := by
  have one : multiBasicBody false (quote :: c :: rest) =
      (multiBasicBody false (c :: rest)).map (consFst quote) :=
    multiBasicBody_quote fun behind same => other (List.cons.inj same).1
  have two : multiBasicBody false (quote :: quote :: c :: rest) =
      (multiBasicBody false (quote :: c :: rest)).map (consFst quote) :=
    multiBasicBody_quote fun behind same => other (List.cons.inj (List.cons.inj same).2).1
  have cases : run = 0 ∨ run = 1 ∨ run = 2 := by omega
  rcases cases with rfl | rfl | rfl
  · exact Option.map_id'.symm
  · exact one
  · rw [one, Option.map_map] at two
    exact two

theorem escape_head (c : Char) : ∃ first rest, (Quoted.escape c).1 = first :: rest ∧
    isPlain first = true ∧ (c ≠ quote → first ≠ quote) := by
  rcases Quoted.escape_cases c with ⟨self, ordinary, _⟩ | ⟨letter, short, _⟩ | ⟨long, _⟩
  · exact ⟨c, [], self, isPlain_of_not_control ordinary, id⟩
  · exact ⟨backslash, [letter], short, by decide, fun _ => by decide⟩
  · exact ⟨backslash, _, long, by decide, fun _ => by decide⟩

-- The induction carries the quotes that were written since the last other character: the reader
-- has to see what follows them before it can tell them from closing quotes.
theorem multiBasicBody_quoted (run : Nat) (short : run ≤ 2) (s : List Char) {rest : List Char}
    (behind : ∀ c ∈ rest.head?, c ≠ quote) :
    multiBasicBody false (List.replicate run quote ++
        (Quoted.multiBasicBody run s ++ quote :: quote :: quote :: rest)) =
      some (List.replicate run quote ++ s, rest) := by
  induction s generalizing run with
  | nil =>
    obtain ⟨none, one, two⟩ := closing_of_head behind
    have cases : run = 0 ∨ run = 1 ∨ run = 2 := by omega
    rcases cases with rfl | rfl | rfl
    · exact (multiBasicBody.eq_2 ..).trans (congrArg some none)
    · exact (multiBasicBody.eq_2 ..).trans (congrArg some one)
    · exact (multiBasicBody.eq_2 ..).trans (congrArg some two)
  | cons c more ih =>
    have other {c first : Char} {tail : List Char} (apart : first ≠ quote)
        (written : multiBasicBody false (first :: tail) = some (c :: more, rest)) :
        multiBasicBody false (List.replicate run quote ++ first :: tail) =
          some (List.replicate run quote ++ c :: more, rest) := by
      rw [multiBasicBody_quotes short apart, written]
      rfl
    have zero := ih 0 (by decide)
    simp only [List.replicate_zero, List.nil_append] at zero
    rw [Quoted.multiBasicBody]
    by_cases quoted : c = quote
    · subst quoted
      rw [if_pos rfl]
      by_cases full : run = 2
      · rw [if_pos full]
        refine other (by decide) ((multiBasicBody_readsEscapes.letter (c := quote) _ rfl).trans ?_)
        exact congrArg _ zero
      · rw [if_neg full]
        have next := ih (run + 1) (by omega)
        rw [List.replicate_succ', List.append_assoc, List.append_assoc] at next
        exact next
    · rw [if_neg quoted]
      by_cases newline : c = '\n'
      · subst newline
        exact other (by decide)
          ((multiBasicBody.eq_4 ..).trans (congrArg (Option.map (consFst '\n')) zero))
      · rw [if_neg newline, List.append_assoc]
        obtain ⟨first, tail, split, _, apart⟩ := escape_head c
        have read := multiBasicBody_readsEscapes.escape quoted
          (Quoted.multiBasicBody 0 more ++ quote :: quote :: quote :: rest)
        rw [zero, split] at read
        rw [split]
        exact other (apart quoted) read

theorem multiLiteralBody_plain {c : Char} (plain : isPlain c = true) {rest : List Char}
    (apart : ∀ behind, c :: rest ≠ apostrophe :: apostrophe :: apostrophe :: behind) :
    multiLiteralBody (c :: rest) = (multiLiteralBody rest).map (consFst c) := by
  have notReturn : c ≠ '\r' := by rintro rfl; exact absurd plain (by decide)
  have notNewline : c ≠ '\n' := by rintro rfl; exact absurd plain (by decide)
  rw [multiLiteralBody.eq_5 c rest (fun behind here same => apart behind (by rw [here, same]; rfl))
    (fun _ same _ => notReturn same) notNewline, if_pos plain]

theorem hasTriple_of_cons {c d : Char} {s : List Char}
    (none : Quoted.hasTriple d (c :: s) = false) : Quoted.hasTriple d s = false := by
  match s with
  | [] => rfl
  | [a] => rfl
  | a :: b :: rest => exact (Bool.or_eq_false_iff.1 none).2

theorem multiLiteralBody_quoted {s : List Char} (single : Quoted.hasTriple apostrophe s = false)
    (plain : ∀ c ∈ s, isPlain c = true ∨ c = '\n') {rest : List Char}
    (behind : ∀ c ∈ rest.head?, c ≠ apostrophe) :
    multiLiteralBody (s ++ apostrophe :: apostrophe :: apostrophe :: rest) = some (s, rest) := by
  obtain ⟨none, one, two⟩ := closing_of_head behind
  induction s with
  | nil => exact (multiLiteralBody.eq_2 ..).trans (congrArg some none)
  | cons c more ih =>
    have read := ih (hasTriple_of_cons single) fun d member => plain d (by simp [member])
    by_cases newline : c = '\n'
    · subst newline
      exact (multiLiteralBody.eq_4 ..).trans (congrArg _ read)
    · have here : isPlain c = true := (plain c (by simp)).resolve_right newline
      by_cases ends : c :: more = [apostrophe] ∨ c :: more = [apostrophe, apostrophe]
      · rcases ends with ends | ends
        · rw [ends]
          exact (multiLiteralBody.eq_2 ..).trans (congrArg some one)
        · rw [ends]
          exact (multiLiteralBody.eq_2 ..).trans (congrArg some two)
      · refine (multiLiteralBody_plain here fun behind same => ?_).trans (congrArg _ read)
        match more, same with
        | [], same => exact ends (.inl (by rw [(List.cons.inj same).1]))
        | [d], same =>
          obtain ⟨first, second⟩ := List.cons.inj same
          exact ends (.inr (by rw [first, (List.cons.inj second).1]))
        | d :: e :: rest, same =>
          obtain ⟨first, second⟩ := List.cons.inj same
          obtain ⟨second, third⟩ := List.cons.inj second
          have all : c = apostrophe ∧ d = apostrophe ∧ e = apostrophe :=
            ⟨first, second, (List.cons.inj third).1⟩
          simp [Quoted.hasTriple, all] at single

theorem dropFirstNewline_plain {c : Char} (plain : isPlain c = true) (rest : List Char) :
    dropFirstNewline (c :: rest) = c :: rest := by
  have notReturn : c ≠ '\r' := by rintro rfl; exact absurd plain (by decide)
  have notNewline : c ≠ '\n' := by rintro rfl; exact absurd plain (by decide)
  simp [dropFirstNewline, newline?.eq_3, notReturn, notNewline]

theorem dropFirstNewline_opening (newline : Bool) (text : List Char)
    (plain : newline = false → ∀ c ∈ text.head?, isPlain c = true) :
    dropFirstNewline ((if newline then ['\n'] else []) ++ text) = text := by
  cases newline with
  | true => rfl
  | false =>
    cases text with
    | nil => rfl
    | cons c rest => exact dropFirstNewline_plain (plain rfl c rfl) rest

theorem basicBody_head (s : List Char) : ∀ c ∈ (Quoted.basicBody s).head?, c ≠ quote := by
  intro c member
  cases s with
  | nil => cases member
  | cons d rest =>
    rw [Quoted.basicBody] at member
    by_cases quoted : d = quote
    · rw [if_pos quoted] at member
      cases member
      decide
    · by_cases newline : d = '\n'
      · rw [if_neg quoted, if_pos newline] at member
        cases member
        decide
      · rw [if_neg quoted, if_neg newline] at member
        obtain ⟨first, tail, split, _, apart⟩ := escape_head d
        rw [split] at member
        cases member
        exact apart quoted

theorem multiBasicBody_head {s : List Char} (noNewline : '\n' ∉ s) :
    ∀ c ∈ (Quoted.multiBasicBody 0 s).head?, isPlain c = true := by
  intro c member
  cases s with
  | nil => cases member
  | cons d rest =>
    rw [Quoted.multiBasicBody] at member
    by_cases quoted : d = quote
    · rw [if_pos quoted] at member
      cases member
      decide
    · have other : d ≠ '\n' := fun same => noNewline (by simp [same])
      rw [if_neg quoted, if_neg other] at member
      obtain ⟨first, tail, split, plain, _⟩ := escape_head d
      rw [split] at member
      cases member
      exact plain

theorem isPlain_or_newline {c : Char} (raw : Quoted.needsEscape c = false) :
    isPlain c = true ∨ c = '\n' := by
  by_cases newline : c = '\n'
  · exact .inr newline
  · refine .inl ?_
    by_cases tab : c = '\t'
    · simp [isPlain, tab]
    · have ordinary : Quoted.isControl c = false := by
        simpa [Quoted.needsEscape, tab, newline] using raw
      exact isPlain_of_not_control ordinary

theorem no_triple_opening {q : Char} {body rest : List Char} (inner : ∀ c ∈ body.head?, c ≠ q)
    (behind : ∀ c ∈ rest.head?, c ≠ q) (more : List Char) :
    body ++ q :: rest ≠ q :: q :: more := by
  intro same
  cases body with
  | nil => exact behind q (by rw [(List.cons.inj same).2]; rfl) rfl
  | cons c tail => exact inner c rfl (List.cons.inj same).1

/-- A text is read back as it was written, unless another quote follows. -/
theorem text?_encode {form : QuoteForm} {s : List Char} (admits : Quoted.Admits form s)
    {rest : List Char} (behind : ∀ c ∈ rest.head?, c ≠ quote ∧ c ≠ apostrophe) :
    text? (Quoted.encode form s ++ rest) = some (s, rest) := by
  have noQuote : ∀ c ∈ rest.head?, c ≠ quote := fun c member => (behind c member).1
  have noApostrophe : ∀ c ∈ rest.head?, c ≠ apostrophe := fun c member => (behind c member).2
  unfold Quoted.encode
  cases form with
  | basic =>
    have apart := no_triple_opening (basicBody_head s) noQuote
    have read : text? (quote :: (Quoted.basicBody s ++ quote :: rest)) = some (s, rest) :=
      (text?.eq_3 _ apart).trans (basicBody_quoted s rest)
    simpa [Quoted.delimiter, Quoted.isMulti, Quoted.body] using read
  | literal =>
    have plain : ∀ c ∈ s, isPlain c = true ∧ c ≠ apostrophe := fun c member =>
      ⟨(isPlain_or_newline (admits c member).1).resolve_right (admits c member).2.1,
        (admits c member).2.2⟩
    have inner : ∀ c ∈ s.head?, c ≠ apostrophe := fun c member =>
      (plain c (List.mem_of_mem_head? member)).2
    have apart := no_triple_opening inner noApostrophe
    have read : text? (apostrophe :: (s ++ apostrophe :: rest)) = some (s, rest) :=
      (text?.eq_4 _ apart).trans (literalBody_quoted plain rest)
    simpa [Quoted.delimiter, Quoted.isMulti, Quoted.body] using read
  | multiBasic =>
    have opening := dropFirstNewline_opening (s.contains '\n')
      (Quoted.multiBasicBody 0 s ++ quote :: quote :: quote :: rest) fun none => by
      have noNewline : '\n' ∉ s := by simpa using none
      have plain := multiBasicBody_head noNewline
      cases body : Quoted.multiBasicBody 0 s with
      | nil => rintro c ⟨⟩; decide
      | cons d tail => rwa [body] at plain
    have read := multiBasicBody_quoted 0 (by decide) s noQuote
    rw [List.replicate_zero, List.nil_append, ← opening] at read
    have whole : text? (quote :: quote :: quote :: _) = some (s, rest) :=
      (text?.eq_1 _).trans read
    simpa [Quoted.delimiter, Quoted.isMulti, Quoted.body] using whole
  | multiLiteral =>
    obtain ⟨single, unescaped⟩ := admits
    have raw : ∀ c ∈ s, isPlain c = true ∨ c = '\n' := fun c member =>
      isPlain_or_newline (unescaped c member)
    have opening := dropFirstNewline_opening (s.contains '\n')
      (s ++ apostrophe :: apostrophe :: apostrophe :: rest) fun none => by
      have noNewline : '\n' ∉ s := by simpa using none
      cases s with
      | nil => rintro c ⟨⟩; decide
      | cons d tail =>
        rintro c ⟨⟩
        exact (raw d (by simp)).resolve_right fun same => noNewline (by simp [same])
    have read := multiLiteralBody_quoted single raw noApostrophe
    rw [← opening] at read
    have whole : text? (apostrophe :: apostrophe :: apostrophe :: _) = some (s, rest) :=
      (text?.eq_2 _).trans read
    simpa [Quoted.delimiter, Quoted.isMulti, Quoted.body] using whole

end Lexeme

end ScoreDesk.Toml
