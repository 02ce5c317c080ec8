import Mathlib
import ScoreDesk.Proofs.Toml.ValueText

namespace ScoreDesk.Toml

namespace Items

theorem put_append {key : String} {items : Items} (absent : items.lookup key = none)
    (item : Item) (more : Items) : put key item (items ++ more) = items ++ put key item more := by
  induction items with
  | nil => rfl
  | cons entry rest ih =>
    obtain ⟨k, i⟩ := entry
    by_cases same : k = key
    · simp [same] at absent
    · have behind : rest.lookup key = none := by
        rwa [List.lookup_cons, beq_false_of_ne (Ne.symm same)] at absent
      rw [List.cons_append, put, if_neg same, ih behind]
      rfl

theorem put_new {key : String} {items : Items} (absent : items.lookup key = none) (item : Item) :
    put key item items = items ++ [(key, item)] := by
  have added := put_append absent item []
  rwa [List.append_nil] at added

theorem put_last {key : String} {items : Items} (absent : items.lookup key = none)
    (old item : Item) : put key item (items ++ [(key, old)]) = items ++ [(key, item)] := by
  rw [put_append absent, put, if_pos rfl]

theorem lookup_last {key : String} {items : Items} (absent : items.lookup key = none)
    (item : Item) : (items ++ [(key, item)]).lookup key = some item := by
  rw [List.lookup_append, absent, Option.none_or, List.lookup_cons_self]

theorem openTable_new {name : String} {items : Items} (absent : items.lookup name = none) :
    items.openTable [name] = some (items ++ [(name, .table .header [])]) := by
  rw [← put_new absent]
  simp [openTable, alter, absent]

theorem assign_new {key : String} {items : Items} (absent : items.lookup key = none)
    (value : Value) : items.assign [key] value .header = some (items ++ [(key, .value value)]) := by
  rw [← put_new absent]
  simp [assign, alter, absent]

theorem alter_last {name : String} {items : Items} (absent : items.lookup name = none)
    {change : Origin → Items → Option Items} {entries changed : Items}
    (step : change .header entries = some changed) :
    alter false change [name] .header (items ++ [(name, .table .header entries)]) =
      some (items ++ [(name, .table .header changed)]) := by
  simp [alter, lookup_last absent, step, put_last absent]

end Items

namespace Reader

open Lexeme

section Keys

variable {name : List Char} {c stop : Char}

theorem ne_of_isBareKey (bare : isBareKey c = true) {d : Char} (other : isBareKey d = false) :
    c ≠ d :=
  fun same => Bool.false_ne_true (other.symm.trans (same ▸ bare))

theorem isWhite_of_isBareKey (bare : isBareKey c = true) : isWhite c = false := by
  simp [isWhite, ne_of_isBareKey bare (d := ' ') (by decide),
    ne_of_isBareKey bare (d := '\t') (by decide)]

theorem head_ne_of_bare (nonempty : name ≠ []) (bare : ∀ c ∈ name, isBareKey c = true) {d : Char}
    (other : isBareKey d = false) (rest more : List Char) : name ++ rest ≠ d :: more := by
  obtain ⟨c, tail, rfl⟩ := List.exists_cons_of_ne_nil nonempty
  intro same
  exact ne_of_isBareKey (bare c List.mem_cons_self) other (List.cons.inj same).1

theorem skipWhite_of_bare (nonempty : name ≠ []) (bare : ∀ c ∈ name, isBareKey c = true)
    (rest : List Char) : skipWhite (name ++ rest) = name ++ rest := by
  obtain ⟨c, tail, rfl⟩ := List.exists_cons_of_ne_nil nonempty
  exact skipWhite_cons (isWhite_of_isBareKey (bare c List.mem_cons_self)) _

theorem simpleKey?_of_bare (nonempty : name ≠ []) (bare : ∀ c ∈ name, isBareKey c = true)
    (outside : isBareKey stop = false) (rest : List Char) :
    simpleKey? (name ++ stop :: rest) = some (.ofList name, stop :: rest) := by
  have begins {d : Char} (other : isBareKey d = false) (more : List Char) :
      name ++ stop :: rest ≠ d :: more := head_ne_of_bare nonempty bare other _ more
  rw [simpleKey?.eq_3 _ (begins (by decide)) (begins (by decide)),
    Text.takeWhile_until bare outside, Text.dropWhile_until bare outside]
  cases name with
  | nil => exact absurd rfl nonempty
  | cons c more => rfl

theorem key?_of_bare (nonempty : name ≠ []) (bare : ∀ c ∈ name, isBareKey c = true)
    (outside : isBareKey stop = false) {rest behind : List Char}
    (skipped : skipWhite (stop :: rest) = behind) (noDot : ∀ more, behind ≠ '.' :: more) :
    key? (name ++ stop :: rest) = some ([.ofList name], behind) := by
  unfold key? depthLimit
  rw [dottedKey?, simpleKey?_of_bare nonempty bare outside, Option.bind_eq_bind, Option.bind_some]
  dsimp only
  rw [skipped]
  split
  · rename_i more
    exact absurd rfl (noDot more)
  · rfl

end Keys

/-- A stretch of a document takes a reading from one state to another, whatever follows it. It has
    no more statements than characters. -/
def Reads (text : List Char) (p q : Progress) : Prop :=
  ∃ n ≤ text.length, ∀ fuel rest,
    statements? (fuel + n) p (text ++ rest) = statements? fuel q rest

namespace Reads

theorem refl (p : Progress) : Reads [] p p :=
  ⟨0, le_refl _, fun _ _ => rfl⟩

theorem trans {a b : List Char} {p q r : Progress} (first : Reads a p q) (second : Reads b q r) :
    Reads (a ++ b) p r := by
  obtain ⟨m, short, first⟩ := first
  obtain ⟨n, short', second⟩ := second
  refine ⟨n + m, by simp; omega, fun fuel rest => ?_⟩
  rw [← Nat.add_assoc, List.append_assoc, first, second]

theorem finish {text : List Char} {p q : Progress} (reads : Reads text p q) :
    statements? (text.length + 1) p text = some q.items := by
  obtain ⟨n, short, reads⟩ := reads
  have whole := reads (text.length - n + 1) []
  rw [List.append_nil, show text.length - n + 1 + n = text.length + 1 by omega] at whole
  rw [whole]
  rfl

theorem of_statement {text : List Char} {p q : Progress} (nonempty : text ≠ [])
    (ink : ∀ rest, skipWhite (text ++ rest) = text ++ rest)
    (step : ∀ rest, statement? p (text ++ rest) = some (q, rest)) : Reads text p q := by
  refine ⟨1, List.length_pos_of_ne_nil nonempty, fun fuel rest => ?_⟩
  have here := step rest
  rw [statements?, ink rest]
  split
  · rename_i empty
    exact absurd (List.append_eq_nil_iff.1 empty).1 nonempty
  · rw [here]
    rfl

theorem newline (p : Progress) : Reads ['\n'] p p :=
  of_statement (by simp) (skipWhite_cons (by decide)) fun _ => rfl

theorem comment {words : List Char} (plain : ∀ c ∈ words, isPlain c = true) (p : Progress) :
    Reads ('#' :: (words ++ ['\n'])) p p := by
  refine of_statement (by simp) (fun _ => skipWhite_cons (by decide) _) fun rest => ?_
  have layout : '#' :: (words ++ ['\n']) ++ rest = '#' :: (words ++ '\n' :: rest) := by simp
  have lineEnd : lineEnd? ('#' :: (words ++ '\n' :: rest)) = some rest := by
    unfold lineEnd?
    rw [skipWhite_cons (by decide), skipComment, Text.dropWhile_until plain (by decide)]
    rfl
  rw [layout, statement?.eq_3, lineEnd]
  rfl

section Tables

variable {name key : List Char} {items entries : Items}

theorem header (nonempty : name ≠ []) (bare : ∀ c ∈ name, isBareKey c = true)
    (absent : items.lookup (.ofList name) = none) (current : List String) :
    Reads ('[' :: (name ++ [']', '\n'])) ⟨items, current⟩
      ⟨items ++ [(.ofList name, .table .header [])], [.ofList name]⟩ := by
  refine of_statement (by simp) (fun _ => skipWhite_cons (by decide) _) fun rest => ?_
  have layout : '[' :: (name ++ [']', '\n']) ++ rest = '[' :: (name ++ ']' :: '\n' :: rest) := by
    simp
  have single := head_ne_of_bare nonempty bare (d := '[') (by decide) (']' :: '\n' :: rest)
  have found : key? (name ++ ']' :: '\n' :: rest) = some ([.ofList name], ']' :: '\n' :: rest) :=
    key?_of_bare nonempty bare (by decide) (skipWhite_cons (by decide) _) (by simp)
  have closed : skipChar? ']' (']' :: '\n' :: rest) = some ('\n' :: rest) := rfl
  have lineEnd : lineEnd? ('\n' :: rest) = some rest := rfl
  rw [layout, statement?.eq_2 _ _ single, skipWhite_of_bare nonempty bare, found,
    Option.bind_eq_bind, Option.bind_some]
  dsimp only
  rw [closed, Option.bind_eq_bind, Option.bind_some, Items.openTable_new absent, lineEnd]
  rfl

theorem assignment {text : List Char} {value : Value} {table : String} (nonempty : key ≠ [])
    (bare : ∀ c ∈ key, isBareKey c = true) (written : ReadsValue text value)
    (absent : items.lookup table = none) (unset : entries.lookup (.ofList key) = none) :
    Reads (key ++ ' ' :: '=' :: ' ' :: (text ++ ['\n']))
      ⟨items ++ [(table, .table .header entries)], [table]⟩
      ⟨items ++ [(table, .table .header (entries ++ [(.ofList key, .value value)]))], [table]⟩ := by
  have begins {d : Char} (other : isBareKey d = false) (rest more : List Char) :
      key ++ rest ≠ d :: more := head_ne_of_bare nonempty bare other rest more
  refine of_statement (by simp) (fun rest => ?_) fun rest => ?_
  · rw [List.append_assoc]
    exact skipWhite_of_bare nonempty bare _
  · have layout : key ++ ' ' :: '=' :: ' ' :: (text ++ ['\n']) ++ rest =
        key ++ ' ' :: '=' :: ' ' :: (text ++ '\n' :: rest) := by simp
    have found : key? (key ++ ' ' :: '=' :: ' ' :: (text ++ '\n' :: rest)) =
        some ([.ofList key], '=' :: ' ' :: (text ++ '\n' :: rest)) :=
      key?_of_bare nonempty bare (by decide) rfl (by simp)
    have equals : skipChar? '=' ('=' :: ' ' :: (text ++ '\n' :: rest)) =
        some (' ' :: (text ++ '\n' :: rest)) := rfl
    have blank : skipWhite (' ' :: (text ++ '\n' :: rest)) = text ++ '\n' :: rest :=
      written.begins _
    have lineEnd : lineEnd? ('\n' :: rest) = some rest := rfl
    rw [layout, statement?.eq_6 _ _ (fun _ => begins (by decide) _ _)
      (fun _ => begins (by decide) _ _) (fun _ => begins (by decide) _ _)
      (fun _ => begins (by decide) _ _) (fun _ => begins (by decide) _ _), found,
      Option.bind_eq_bind, Option.bind_some]
    dsimp only
    rw [equals, Option.bind_eq_bind, Option.bind_some, blank, written.read, Option.bind_eq_bind,
      Option.bind_some]
    dsimp only
    rw [Items.alter_last absent (Items.assign_new unset value), lineEnd]
    rfl

end Tables

end Reads

end Reader

end ScoreDesk.Toml
