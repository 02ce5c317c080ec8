import Mathlib
import ScoreDesk.Proofs.Toml.Statements
import ScoreDesk.Settings.Layer

namespace ScoreDesk

open Toml (Items)
open Toml.Reader (Reads ReadsValue)

section Lookup

variable {α β : Type} {f : α → String}

theorem lookup_map_of_not_mem {l : List α} {key : String} (fresh : key ∉ l.map f) (v : α → β) :
    (l.map fun a => (f a, v a)).lookup key = none := by
  rw [List.lookup_eq_none_iff]
  intro entry member
  obtain ⟨a, inside, rfl⟩ := List.mem_map.1 member
  have other : key ≠ f a := fun same => fresh (same ▸ List.mem_map_of_mem inside)
  simp [other]

theorem lookup_map_of_mem {l : List α} (distinct : (l.map f).Nodup) {a : α} (member : a ∈ l)
    (v : α → β) : (l.map fun a => (f a, v a)).lookup (f a) = some (v a) := by
  induction l with
  | nil => cases member
  | cons b rest ih =>
    rw [List.map_cons, List.nodup_cons] at distinct
    rcases List.mem_cons.1 member with rfl | behind
    · exact List.lookup_cons_self
    · have other : f a ≠ f b := fun same => distinct.1 (same ▸ List.mem_map_of_mem behind)
      rw [List.map_cons, List.lookup_cons, beq_false_of_ne other]
      exact ih distinct.2 behind

theorem not_mem_before {before rest : List α} {a : α}
    (distinct : ((before ++ a :: rest).map f).Nodup) : f a ∉ before.map f := by
  rw [List.map_append, List.map_cons] at distinct
  intro member
  exact (List.nodup_append.1 distinct).2.2 _ member _ List.mem_cons_self rfl

end Lookup

/-- Whether a document can hold a value: its integers are signed and have 64 bits. -/
def SettingKind.Fits : (k : SettingKind) → k.Value → Prop
  | .count, n => n < 2 ^ 63
  | _, _ => True

def SettingKind.encode : (k : SettingKind) → k.Value → Toml.Value
  | .text, s => .text s
  | .flag, b => .flag b
  | .count, n => .integer n

theorem SettingKind.write_readsValue {form : List Char → Toml.QuoteForm}
    (admits : ∀ s, Toml.Quoted.Admits (form s) s) {k : SettingKind} {v : k.Value}
    (fits : k.Fits v) : ReadsValue (k.write form v).toList (k.encode v) := by
  cases k with
  | text =>
    have written := Toml.Reader.encode_readsValue (admits (String.toList v))
    rw [String.ofList_toList] at written
    simpa [SettingKind.write, SettingKind.encode] using written
  | flag => exact Toml.Reader.flag_readsValue v
  | count => exact Toml.Reader.natural_readsValue fits

theorem SettingKind.decode?_encode {k : SettingKind} {v : k.Value} (fits : k.Fits v) :
    k.decode? (k.encode v) = some v := by
  cases k with
  | text => rfl
  | flag => rfl
  | count =>
    have decoded (n : Nat) (small : n < 2 ^ 63) :
        SettingKind.decode? .count (.integer n) = some n := by
      have low : 0 ≤ (n : Int) := Int.natCast_nonneg n
      have high : (n : Int) < countLimit := by unfold countLimit; omega
      rw [SettingKind.decode?, if_pos (And.intro low high), Int.toNat_natCast]
    exact decoded v fits

theorem SettingKind.settle?_encode {k : SettingKind} (v : k.Value) :
    (k.encode v).settle? = some (k.encode v) := by
  cases k <;> rfl

theorem keys_distinct (g : SettingGroup) : (g.settings.map Setting.key).Nodup := by
  cases g <;> decide

theorem names_distinct : (SettingGroup.all.map SettingGroup.name).Nodup := by decide

theorem key_bare (s : Setting) :
    s.key.toList ≠ [] ∧ ∀ c ∈ s.key.toList, Toml.Lexeme.isBareKey c = true := by
  rw [← List.all_eq_true]
  cases s <;> decide

theorem name_bare (g : SettingGroup) :
    g.name.toList ≠ [] ∧ ∀ c ∈ g.name.toList, Toml.Lexeme.isBareKey c = true := by
  rw [← List.all_eq_true]
  cases g <;> decide

theorem key_ne_timeKey (s : Setting) : s.key ≠ Toml.timeKey := by
  cases s <;> decide

namespace Settings

def entries (settings : Settings) (l : List Setting) : Items :=
  l.map fun s => (s.key, .value (s.kind.encode (settings.value s)))

def tables (settings : Settings) (groups : List SettingGroup) : Items :=
  groups.map fun g => (g.name, .table .header (settings.entries g.settings))

def Writable (settings : Settings) : Prop :=
  ∀ s : Setting, s.kind.Fits (settings.value s)

variable {settings : Settings} {form : List Char → Toml.QuoteForm}

theorem writable_of_counts (debounce : settings.debounceMs < 2 ^ 63)
    (poll : settings.pollIntervalMs < 2 ^ 63) : settings.Writable := by
  intro s
  cases s with
  | debounceMs => exact debounce
  | pollIntervalMs => exact poll
  | _ => trivial

theorem toList_settingLine (s : Setting) : (settings.settingLine form s).toList =
    s.key.toList ++ ' ' :: '=' :: ' ' ::
      ((s.kind.write form (settings.value s)).toList ++ ['\n']) := by
  simp [settingLine]

theorem toList_groupText (g : SettingGroup) : (settings.groupText form g).toList =
    '[' :: (g.name.toList ++ [']', '\n']) ++
      g.settings.flatMap fun s => (settings.settingLine form s).toList := by
  simp [groupText, String.toList_join, List.flatMap, Function.comp_def]

-- The induction is on the lines that are left; those that were read are in the last table already.
theorem lines_read (admits : ∀ s, Toml.Quoted.Admits (form s) s) (writable : settings.Writable) {items : Items} {name : String}
    (absent : items.lookup name = none) (done l : List Setting)
    (distinct : ((done ++ l).map Setting.key).Nodup) :
    Reads (l.flatMap fun s => (settings.settingLine form s).toList)
      ⟨items ++ [(name, .table .header (settings.entries done))], [name]⟩
      ⟨items ++ [(name, .table .header (settings.entries (done ++ l)))], [name]⟩ := by
  induction l generalizing done with
  | nil =>
    rw [List.append_nil]
    exact Reads.refl _
  | cons s rest ih =>
    have unset : (settings.entries done).lookup (.ofList s.key.toList) = none := by
      rw [String.ofList_toList]
      exact lookup_map_of_not_mem (not_mem_before distinct) _
    have line := Reads.assignment (key_bare s).1 (key_bare s).2
      (SettingKind.write_readsValue admits (writable s)) absent unset
    rw [← toList_settingLine, String.ofList_toList] at line
    have more := ih (done ++ [s]) (by simpa using distinct)
    rw [List.append_assoc, List.singleton_append] at more
    have grown : settings.entries (done ++ [s]) =
        settings.entries done ++ [(s.key, .value (s.kind.encode (settings.value s)))] :=
      List.map_append
    rw [grown] at more
    exact line.trans more

theorem group_reads (admits : ∀ s, Toml.Quoted.Admits (form s) s) (writable : settings.Writable) {items : Items} {g : SettingGroup}
    (absent : items.lookup g.name = none) (current : List String) :
    Reads (settings.groupText form g).toList ⟨items, current⟩
      ⟨items ++ [(g.name, .table .header (settings.entries g.settings))], [g.name]⟩ := by
  have closed : items.lookup (.ofList g.name.toList) = none := by rwa [String.ofList_toList]
  have header := Reads.header (name_bare g).1 (name_bare g).2 closed current
  rw [String.ofList_toList] at header
  rw [toList_groupText]
  exact header.trans (lines_read admits writable absent [] g.settings (keys_distinct g))

theorem groups_read (admits : ∀ s, Toml.Quoted.Admits (form s) s) (writable : settings.Writable) (done l : List SettingGroup)
    (distinct : ((done ++ l).map SettingGroup.name).Nodup) (current : List String) :
    ∃ last, Reads ("\n".intercalate (l.map (settings.groupText form))).toList
      ⟨settings.tables done, current⟩ ⟨settings.tables (done ++ l), last⟩ := by
  induction l generalizing done current with
  | nil =>
    rw [List.append_nil]
    exact ⟨current, Reads.refl _⟩
  | cons g rest ih =>
    have absent : (settings.tables done).lookup g.name = none :=
      lookup_map_of_not_mem (not_mem_before distinct) _
    have group := group_reads admits writable absent current
    have grown : settings.tables (done ++ [g]) = settings.tables done ++
        [(g.name, .table .header (settings.entries g.settings))] := List.map_append
    rw [← grown] at group
    cases rest with
    | nil => exact ⟨[g.name], group⟩
    | cons h more =>
      obtain ⟨last, behind⟩ := ih (done ++ [g]) (by simpa using distinct) [g.name]
      rw [List.append_assoc, List.singleton_append] at behind
      refine ⟨last, ?_⟩
      rw [List.map_cons, List.map_cons, String.intercalate_cons_cons, String.toList_append,
        String.toList_append, ← List.map_cons]
      exact (group.trans (Reads.newline _)).trans behind

theorem toList_toTextIn (settings : Settings) : (settings.toTextIn form).toList =
    '#' :: (" lilyctl configuration".toList ++ ['\n']) ++ (['\n'] ++
      ("\n".intercalate (SettingGroup.all.map (settings.groupText form))).toList) := by
  have heading : "# lilyctl configuration\n\n".toList =
      '#' :: (" lilyctl configuration".toList ++ ['\n']) ++ ['\n'] := by simp
  let groups := ("\n".intercalate (SettingGroup.all.map (settings.groupText form))).toList
  -- A rewrite with the heading would compare it with every other text here.
  calc (settings.toTextIn form).toList
      _ = "# lilyctl configuration\n\n".toList ++ groups := String.toList_append
      _ = '#' :: (" lilyctl configuration".toList ++ ['\n']) ++ ['\n'] ++ groups :=
        congrArg (· ++ groups) heading
      _ = '#' :: (" lilyctl configuration".toList ++ ['\n']) ++ (['\n'] ++ groups) :=
        List.append_assoc ..

theorem statements?_toTextIn (admits : ∀ s, Toml.Quoted.Admits (form s) s)
    (writable : settings.Writable) :
    let text := (settings.toTextIn form).toList
    Toml.Reader.statements? (text.length + 1) ⟨[], []⟩ text =
      some (settings.tables SettingGroup.all) := by
  intro text
  have plain : ∀ c ∈ " lilyctl configuration".toList, Toml.Lexeme.isPlain c = true :=
    List.all_eq_true.1 (by decide)
  obtain ⟨last, groups⟩ := groups_read admits writable [] SettingGroup.all names_distinct []
  have whole := (Reads.comment plain _).trans ((Reads.newline _).trans groups)
  rw [← toList_toTextIn] at whole
  exact whole.finish

def rows (settings : Settings) (l : List Setting) : Toml.Table :=
  l.map fun s => (s.key, s.kind.encode (settings.value s))

def table (settings : Settings) (groups : List SettingGroup) : Toml.Table :=
  groups.map fun g => (g.name, .table (settings.rows g.settings))

theorem entryValues_entries (l : List Setting) :
    Toml.entryValues (settings.entries l) = settings.rows l := by
  induction l with
  | nil => rfl
  | cons s rest ih =>
    rw [entries, List.map_cons, Toml.entryValues, Toml.Item.toValue]
    exact congrArg _ ih

theorem entryValues_tables (groups : List SettingGroup) :
    Toml.entryValues (settings.tables groups) = settings.table groups := by
  induction groups with
  | nil => rfl
  | cons g rest ih =>
    rw [tables, List.map_cons, Toml.entryValues, Toml.Item.toValue, entryValues_entries]
    exact congrArg _ ih

theorem settleEntries?_rows (l : List Setting) :
    Toml.settleEntries? (settings.rows l) = some (settings.rows l) := by
  induction l with
  | nil => rfl
  | cons s rest ih =>
    have behind : Toml.settleEntries? (rest.map fun s =>
        (s.key, s.kind.encode (settings.value s))) = some (settings.rows rest) := ih
    rw [rows, List.map_cons, Toml.settleEntries?, SettingKind.settle?_encode, behind]
    rfl

theorem timeEntry?_rows (l : List Setting) : Toml.Table.timeEntry? (settings.rows l) = none := by
  cases l with
  | nil => rfl
  | cons s rest => exact if_neg (key_ne_timeKey s)

theorem settleEntries?_table (groups : List SettingGroup) :
    Toml.settleEntries? (settings.table groups) = some (settings.table groups) := by
  induction groups with
  | nil => rfl
  | cons g rest ih =>
    have behind : Toml.settleEntries? (rest.map fun g =>
        (g.name, .table (settings.rows g.settings))) = some (settings.table rest) := ih
    rw [table, List.map_cons, Toml.settleEntries?, Toml.Value.settle?, timeEntry?_rows,
      settleEntries?_rows, behind]
    rfl

theorem read?_toTextIn (admits : ∀ s, Toml.Quoted.Admits (form s) s)
    (writable : settings.Writable) :
    Toml.read? (settings.toTextIn form) = some (settings.table SettingGroup.all) := by
  have read := statements?_toTextIn admits writable
  unfold Toml.read?
  split
  · rename_i marked
    rw [toList_toTextIn] at marked
    cases (List.cons.inj marked).1
  · dsimp only
    rw [read, Option.bind_eq_bind, Option.bind_some, entryValues_tables, settleEntries?_table]

theorem lookup_table (g : SettingGroup) : (settings.table SettingGroup.all).lookup g.name =
    some (.table (settings.rows g.settings)) := by
  have known : g ∈ SettingGroup.all := by cases g <;> decide
  exact lookup_map_of_mem names_distinct known _

theorem lookup_rows (s : Setting) : (settings.rows s.group.settings).lookup s.key =
    some (s.kind.encode (settings.value s)) := by
  have listed : s ∈ s.group.settings := by cases s <;> decide
  exact lookup_map_of_mem (keys_distinct s.group) listed _

theorem inTable_table (writable : settings.Writable) (s : Setting) :
    s.inTable (settings.table SettingGroup.all) = .value (settings.value s) := by
  unfold Setting.inTable
  rw [lookup_table]
  dsimp only
  rw [Setting.inGroup, lookup_rows, Setting.decodeField, SettingKind.decode?_encode (writable s)]

theorem ofTable?_table (writable : settings.Writable) :
    ofTable? (settings.table SettingGroup.all) = some settings := by
  have right : ¬ Setting.all.any (·.isWrong (settings.table SettingGroup.all)) := by
    simp [Setting.isWrong, inTable_table writable]
  rw [ofTable?, if_neg right]
  refine congrArg some (Settings.ext fun s => ?_)
  dsimp only
  rw [inTable_table writable]

theorem read?_toText (writable : settings.Writable) :
    Toml.read? settings.toText = some (settings.table SettingGroup.all) :=
  read?_toTextIn Toml.Quoted.form_admits writable

/-- Settings are read back from the document that they are written as, whatever forms its texts
    have, if the forms can hold them. -/
theorem ofTable?_read?_toText (settings : Settings) (debounce : settings.debounceMs < 2 ^ 63)
    (poll : settings.pollIntervalMs < 2 ^ 63) :
    (∀ form : List Char → Toml.QuoteForm, (∀ s, Toml.Quoted.Admits (form s) s) →
      (Toml.read? (settings.toTextIn form)).bind ofTable? = some settings) ∧
    (Toml.read? settings.toText).bind ofTable? = some settings := by
  have writable := writable_of_counts debounce poll
  have back (form : List Char → Toml.QuoteForm) (admits : ∀ s, Toml.Quoted.Admits (form s) s) :
      (Toml.read? (settings.toTextIn form)).bind ofTable? = some settings := by
    rw [read?_toTextIn admits writable, Option.bind_some, ofTable?_table writable]
  exact ⟨back, back _ Toml.Quoted.form_admits⟩

theorem awkward_texts_read_back :
    let settings := ((default.set .additionalArgs "\"\"\"\"\n\x27\x27\x27\t\\").set .mainFile
      "\n\x00\r\n").set .logLevel "\x27\""
    settings.debounceMs < 2 ^ 63 ∧ settings.pollIntervalMs < 2 ^ 63 ∧
      (Toml.read? settings.toText).bind ofTable? = some settings ∧
      (Toml.read? (settings.toTextIn fun _ => .multiBasic)).bind ofTable? = some settings :=
  have back := ofTable?_read?_toText _ (by decide) (by decide)
  ⟨by decide, by decide, back.2, back.1 _ fun _ => trivial⟩

end Settings

end ScoreDesk
