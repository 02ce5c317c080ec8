import Mathlib
import ScoreDesk.Proofs.Settings.RoundTrip
import ScoreDesk.Proofs.Settings.VariableOrder
import ScoreDesk.Proofs.Text.Octets
import ScoreDesk.Proofs.Text.Scan

namespace ScoreDesk

theorem Text.eq_append_of_splitOnce {c : Char} {s before after : List Char}
    (split : splitOnce c s = some (before, after)) : s = before ++ c :: after := by
  induction s generalizing before with
  | nil => cases split
  | cons d rest ih =>
    rw [splitOnce] at split
    split_ifs at split with here
    · obtain ⟨rfl, rfl⟩ := Prod.mk.inj (Option.some.inj split)
      rw [here, List.nil_append]
    · obtain ⟨⟨l, r⟩, behind, same⟩ := Option.map_eq_some_iff.1 split
      obtain ⟨rfl, rfl⟩ := Prod.mk.inj same
      rw [ih behind, List.cons_append]

namespace Environment

variable {env : Environment} {name key path : String}

def without (env : Environment) (name : String) : Environment :=
  { env with entries := env.entries.filter (·.1 ≠ name) }

/-- A path that starts with a variable. Behind the name there is nothing, a slash or an equals sign:
    the value of a variable is found by any equals sign of its entry. -/
def RefersTo (path name : String) : Prop :=
  (('$' :: name.toList).isPrefixOf? path.toList).any
    (fun rest => rest.head?.all fun c => c = '/' || c = '=') = true

instance (path name : String) : Decidable (RefersTo path name) :=
  inferInstanceAs (Decidable (_ = true))

theorem refersTo_of_toList_eq {rest : List Char} (text : path.toList = '$' :: (name.toList ++ rest))
    (behind : ∀ c, rest.head? = some c → c = '/' ∨ c = '=') : RefersTo path name := by
  have found : ('$' :: name.toList).isPrefixOf? path.toList = some rest :=
    List.isPrefixOf?_eq_some_iff_append_eq.2 text.symm
  rw [RefersTo, found]
  cases rest with
  | nil => rfl
  | cons c more => simpa using behind c rfl

theorem filterMap_without {α : Type} {f g : String × String → Option α}
    (gone : ∀ entry ∈ env.entries, entry.1 = name → f entry = none)
    (kept : ∀ entry ∈ env.entries, entry.1 ≠ name → g entry = f entry) :
    (env.without name).entries.filterMap g = env.entries.filterMap f := by
  unfold without
  rw [List.filterMap_filter]
  refine List.filterMap_congr fun entry member => ?_
  by_cases same : entry.1 = name
  · simp [same, gone entry member same]
  · simp [same, kept entry member same]

theorem lookup_without (other : key ≠ name) :
    (env.without name).entries.lookup key = env.entries.lookup key := by
  unfold without
  dsimp only
  induction env.entries with
  | nil => rfl
  | cons entry rest ih =>
    obtain ⟨k, text⟩ := entry
    by_cases gone : k = name
    · subst gone
      rw [List.filter_cons_of_neg (by simp), ih, List.lookup_cons, beq_false_of_ne other]
    · rw [List.filter_cons_of_pos (by simpa using gone), List.lookup_cons, List.lookup_cons, ih]

theorem name_eq_or_isPrefix {n name text : List Char} (plain : '=' ∉ name)
    (found : n ++ ['='] <+: name ++ '=' :: text) : n = name ∨ name ++ ['='] <+: n := by
  have own : name ++ ['='] <+: name ++ '=' :: text := ⟨text, by simp⟩
  rcases List.prefix_or_prefix_of_prefix found own with short | long
  · rcases List.prefix_concat_iff.1 short with same | inside
    · exact .inl (List.append_cancel_right same)
    · exact absurd (inside.subset (by simp)) plain
  · rcases List.prefix_concat_iff.1 long with same | inside
    · exact .inl (List.append_cancel_right same).symm
    · exact .inr inside

theorem value?_without (plain : '=' ∉ name.toList) (other : key ≠ name)
    (apart : ¬ name.toList ++ ['='] <+: key.toList) :
    (env.without name).value? key = env.value? key := by
  unfold value?
  split
  · rfl
  · rw [← List.head?_filterMap, ← List.head?_filterMap]
    refine congrArg List.head? (filterMap_without ?_ fun _ _ _ => rfl)
    rintro ⟨k, text⟩ - rfl
    rw [Option.map_eq_none_iff, ← Option.not_isSome_iff_eq_none,
      List.isSome_isPrefixOf?_eq_isPrefixOf, List.isPrefixOf_iff_prefix]
    intro found
    have parts : key.toList ++ ['='] <+: k.toList ++ '=' :: text.toList := by simpa using found
    rcases name_eq_or_isPrefix plain parts with same | inside
    · exact other (String.toList_inj.1 same)
    · exact apart inside

theorem homeDirectory?_without (other : name ≠ "HOME") :
    (env.without name).homeDirectory? = env.homeDirectory? := by
  unfold homeDirectory?
  rw [lookup_without (Ne.symm other)]
  rfl

theorem expand_without (plain : '=' ∉ name.toList) (home : name ≠ "HOME")
    (free : ¬ RefersTo path name) : (env.without name).expand path = env.expand path := by
  have same {n rest : List Char} (text : path.toList = '$' :: (n ++ rest))
      (behind : ∀ c, rest.head? = some c → c = '/') :
      (env.without name).value? (.ofList n) = env.value? (.ofList n) := by
    refine value?_without plain ?_ ?_
    · rintro rfl
      exact free (refersTo_of_toList_eq (by simpa using text) fun c first => .inl (behind c first))
    · rw [String.toList_ofList]
      rintro ⟨more, rfl⟩
      have entry : path.toList = '$' :: (name.toList ++ '=' :: (more ++ rest)) := by
        simpa using text
      exact free (refersTo_of_toList_eq entry fun c first => .inr (Option.some.inj first).symm)
  unfold expand
  split
  · rw [homeDirectory?_without home]
  · rename_i rest text
    split
    · rename_i n behind split
      rw [Text.eq_append_of_splitOnce split] at text
      rw [same text fun c first => (Option.some.inj first).symm]
    · have alone : path.toList = '$' :: (rest ++ []) := by simpa using text
      rw [same alone (by simp)]
  · rfl

theorem userConfig?_without (home : name ≠ "HOME") (directory : name ≠ "XDG_CONFIG_HOME") :
    (env.without name).userConfig? = env.userConfig? := by
  unfold userConfig? configDirectory?
  rw [lookup_without (Ne.symm directory), homeDirectory?_without home]

end Environment

namespace Setting

theorem plain_of_overridden? {name : String} {s : Setting} (known : overridden? name = some s) :
    '=' ∉ name.toList ∧ name ≠ "HOME" ∧ name ≠ "XDG_CONFIG_HOME" := by
  have all : ∀ n ∈ s.variableNames, '=' ∉ n.toList ∧ n ≠ "HOME" ∧ n ≠ "XDG_CONFIG_HOME" := by
    cases s <;> decide
  exact all name (mem_variableNames_iff.2 known)

theorem parse?_of_ne {env : Environment} {s : Setting} {text : String} (other : s ≠ lilypondPath) :
    s.parse? env text = s.kind.parse? text := by
  cases s with
  | lilypondPath => exact absurd rfl other
  | _ => rfl

end Setting

namespace SettingKind

def written? : SettingKind → String → Option Toml.Value
  | .text, s => some (.text s)
  | .count, s => (SettingKind.count.parse? s).map fun n => .integer (n : Nat)
  | .flag, _ => none

theorem parse?_count_lt {s : String} {n : Nat} (parsed : SettingKind.count.parse? s = some n) :
    n < countLimit := by
  have digits {chars : List Char} (read : Text.natBelow? countLimit chars = some n) :
      n < countLimit := by
    have some : chars ≠ [] := by
      rintro rfl
      cases read
    exact ((Text.natBelow?_eq_some_iff (by decide) some).1 read).2.2
  change Text.signedNatBelow? countLimit (Text.trim s.toList) = some n at parsed
  unfold Text.signedNatBelow? at parsed
  split at parsed <;> exact digits parsed

theorem decode?_of_written? {k : SettingKind} {s : String} {v : Toml.Value}
    (written : k.written? s = some v) : ∃ w, k.parse? s = some w ∧ k.decode? v = some w := by
  cases k with
  | text =>
    obtain rfl : .text s = v := Option.some.inj written
    exact ⟨s, rfl, rfl⟩
  | flag => cases written
  | count =>
    obtain ⟨n, parsed, rfl⟩ := Option.map_eq_some_iff.1 written
    refine ⟨n, parsed, ?_⟩
    have small : (0 : Int) ≤ (n : Nat) ∧ ((n : Nat) : Int) < countLimit :=
      ⟨Int.natCast_nonneg n, Int.ofNat_lt.2 (parse?_count_lt parsed)⟩
    rw [decode?, if_pos small, Int.toNat_natCast]

end SettingKind

namespace Settings

variable {tree tree' : FileTree} {env : Environment} {named : Option Path} {files : List Path}
  {file : Path} {settings : Settings} {s t : Setting} {v : Toml.Value} {name text : String}

def effective (env : Environment) (tables : List Toml.Table) : Settings :=
  set ⟨Setting.layered env tables⟩ .lilypondPath
    (env.expand (Setting.layered env tables .lilypondPath)).text

theorem value_effective_lilypondPath (env : Environment) (tables : List Toml.Table) :
    (effective env tables).value .lilypondPath =
      (env.expand (Setting.layered env tables .lilypondPath)).text :=
  value_set_self ..

theorem value_effective_of_ne (env : Environment) (tables : List Toml.Table)
    (other : t ≠ .lilypondPath) :
    (effective env tables).value t = Setting.layered env tables t :=
  value_set_of_ne _ _ (Ne.symm other)

theorem loads_iff
    (sectioned : ∀ table ∈ documents tree (configFiles tree env named), Sectioned table) :
    (∃ sources, load tree env named = .ok (settings, sources)) ↔
      (∀ file ∈ configFiles tree env named, ∃ table, loadLayer tree file = .ok table) ∧
        settings = effective env (documents tree (configFiles tree env named)) := by
  have reached {before : Settings}
      (layers : loadLayers tree (configFiles tree env named) = .ok before) :
      (before.overrideAll env env.entries).1 =
        ⟨Setting.layered env (documents tree (configFiles tree env named))⟩ := by
    obtain ⟨merged, again, said⟩ := exists_loadLayers sectioned (each_of_loadLayers layers)
    obtain rfl : before = merged := Except.ok.inj (layers.symm.trans again)
    refine ext fun s => ?_
    rw [(overrideAll_spec env before env.entries).1 s, said s]
    change _ = Option.getD (Option.or _ _) _
    cases (env.entries.filterMap (s.variableValue? env)).getLast? <;> rfl
  constructor
  · rintro ⟨sources, done⟩
    obtain ⟨before, layers, same⟩ := load_eq_ok_iff.1 done
    rw [reached layers] at same
    exact ⟨each_of_loadLayers layers, (Prod.mk.inj same).1⟩
  · rintro ⟨each, rfl⟩
    obtain ⟨before, layers, -⟩ := exists_loadLayers sectioned each
    refine ⟨⟨configFiles tree env named, (before.overrideAll env env.entries).2⟩,
      load_eq_ok_iff.2 ⟨before, layers, ?_⟩⟩
    rw [reached layers]
    rfl

structure SaysInstead (s : Setting) (v : Toml.Value) (table table' : Toml.Table) : Prop where
  said : s.entry? table' = some v
  others : ∀ t ≠ s, t.entry? table' = t.entry? table

theorem SaysInstead.layer {table table' : Toml.Table} (instead : SaysInstead s v table table')
    (layer : Layer table) (sectioned : Sectioned table') (right : (s.kind.decode? v).isSome) :
    Layer table' := by
  refine ⟨sectioned, fun t value found => ?_⟩
  by_cases same : t = s
  · subst same
    obtain rfl := Option.some.inj (instead.said.symm.trans found)
    exact Option.isSome_iff_exists.1 right
  · rw [instead.others t same] at found
    exact layer.typed t value found

end Settings

theorem FileTree.readText_of_read {tree : FileTree} {file : Path} {text : String}
    (held : tree.read file = .ok (Text.Utf8.encode text)) : tree.readText file = .ok text := by
  have decoded : Text.Utf8.decode? (Text.Utf8.encode text) = some text := by
    rw [Text.Utf8.encode, Text.Utf8.decode?_flatMap, String.ofList_toList]
  unfold readText
  simp only [held, bind, Except.bind, decoded]

def FileTree.document? (tree : FileTree) (file : Path) : Option Toml.Table :=
  (tree.readText file).toOption.bind Toml.read?

theorem FileTree.document?_eq_some_iff {tree : FileTree} {file : Path} {table : Toml.Table} :
    tree.document? file = some table ↔
      ∃ text, tree.readText file = .ok text ∧ Toml.read? text = some table := by
  unfold document?
  cases tree.readText file <;> simp [Except.toOption]

namespace Settings

def WrittenInto (tree tree' : FileTree) (s : Setting) (v : Toml.Value) (file : Path) : Prop :=
  ∃ table table', tree.document? file = some table ∧ tree'.document? file = some table' ∧
    SaysInstead s v table table'

/-- A value is written into the last of some files, and nothing else is changed in any of them. (The
    last may be among the others under another name.) -/
structure Written (tree tree' : FileTree) (files : List Path) (s : Setting) (v : Toml.Value) :
    Prop where
  each : ∀ file ∈ files, tree'.readText file = tree.readText file ∨
    WrittenInto tree tree' s v file
  last : ∃ file, files.getLast? = some file ∧ WrittenInto tree tree' s v file

variable {tree tree' : FileTree} {env : Environment} {named : Option Path} {files : List Path}
  {file : Path} {settings : Settings} {s t : Setting} {v : Toml.Value} {name text : String}

theorem filterMap_documents (tree : FileTree) (files : List Path) (t : Setting) :
    (documents tree files).filterMap t.fileValue? =
      files.filterMap fun file => (tree.document? file).bind t.fileValue? :=
  List.filterMap_filterMap

theorem Written.others (written : Written tree tree' files s v) (other : t ≠ s) :
    (documents tree' files).filterMap t.fileValue? =
      (documents tree files).filterMap t.fileValue? := by
  rw [filterMap_documents, filterMap_documents]
  refine List.filterMap_congr fun file member => ?_
  rcases written.each file member with same | ⟨table, table', before, after, instead⟩
  · unfold FileTree.document?
    rw [same]
  · rw [before, after]
    change (t.entry? table').bind _ = (t.entry? table).bind _
    rw [instead.others t other]

theorem Written.last_value (written : Written tree tree' files s v) {w : s.Value}
    (right : s.kind.decode? v = some w) :
    ((documents tree' files).filterMap s.fileValue?).getLast? = some w := by
  obtain ⟨file, last, table, table', -, after, instead⟩ := written.last
  obtain ⟨front, rfl⟩ := List.getLast?_eq_some_iff.1 last
  have value : (tree'.document? file).bind s.fileValue? = some w := by
    rw [after, Option.bind_some, Setting.fileValue?, instead.said]
    exact right
  have single : [file].filterMap (fun file => (tree'.document? file).bind s.fileValue?) = [w] :=
    List.filterMap_cons_some value
  rw [filterMap_documents, List.filterMap_append, single, List.getLast?_concat]

theorem Written.fine (written : Written tree tree' files s v)
    (sectioned : ∀ table ∈ documents tree files, Sectioned table)
    (sectioned' : ∀ table ∈ documents tree' files, Sectioned table)
    (right : (s.kind.decode? v).isSome) (member : file ∈ files)
    (fine : ∃ table, loadLayer tree file = .ok table) :
    ∃ table, loadLayer tree' file = .ok table := by
  obtain ⟨old, loaded⟩ := fine
  rcases written.each file member with same | ⟨table, table', before, after, instead⟩
  · refine ⟨old, ?_⟩
    unfold loadLayer at loaded ⊢
    rwa [same]
  · obtain ⟨text, read, found, -⟩ := loadLayer_eq_ok_iff.1 loaded
    obtain rfl : old = table := Option.some.inj
      ((FileTree.document?_eq_some_iff.2 ⟨text, read, found⟩).symm.trans before)
    obtain ⟨text', read', found'⟩ := FileTree.document?_eq_some_iff.1 after
    have layer := (layer_of_loadLayer member sectioned loaded).1
    have apart := sectioned' table' (mem_documents member read' found')
    have layer' := instead.layer layer apart right
    exact ⟨table', loadLayer_eq_ok_iff.2
      ⟨text', read', found', (ofTable?_isSome_iff apart).2 layer'⟩⟩

theorem configFiles_without (home : name ≠ "HOME") (directory : name ≠ "XDG_CONFIG_HOME") :
    configFiles tree (env.without name) named = configFiles tree env named := by
  unfold configFiles
  rw [Environment.userConfig?_without home directory]

/-- The one variable that gives a setting a value. -/
structure Decides (env : Environment) (name text : String) (s : Setting) : Prop where
  known : overridden? name = some s
  present : (name, text) ∈ env.entries
  alone : ∀ entry ∈ env.entries, overridden? entry.1 = some s → entry = (name, text)

/-- Nothing is found by a variable where the path of the compiler is expanded: neither where it
    comes from its own variable, nor at last, when it has come from there or from the documents. A
    path that its own variable gives must be the same after that. -/
structure PathApart (env : Environment) (tables : List Toml.Table) (name text : String)
    (s : Setting) : Prop where
  given : ∀ path, ("LILYCTL_LILYPOND_PATH", path) ∈ env.entries → ¬ Environment.RefersTo path name
  reached : s ≠ .lilypondPath →
    ¬ Environment.RefersTo (Setting.layered env tables .lilypondPath) name
  settled : s = .lilypondPath → env.expand (env.expand text).text = env.expand text

theorem Decides.other_variables (decides : Decides env name text s) (other : t ≠ s)
    (given : ∀ path, ("LILYCTL_LILYPOND_PATH", path) ∈ env.entries → ¬ Environment.RefersTo path name) :
    (env.without name).entries.filterMap (t.variableValue? (env.without name)) =
      env.entries.filterMap (t.variableValue? env) := by
  obtain ⟨plain, home, -⟩ := Setting.plain_of_overridden? decides.known
  refine Environment.filterMap_without (fun entry _ same => if_neg ?_) fun entry member _ => ?_
  · rw [same, decides.known]
    exact fun both => other (Option.some.inj both).symm
  · unfold Setting.variableValue?
    by_cases own : overridden? entry.1 = some t
    · rw [if_pos own, if_pos own]
      by_cases path : t = .lilypondPath
      · subst path
        obtain ⟨n, value⟩ := entry
        obtain rfl : n = "LILYCTL_LILYPOND_PATH" :=
          List.mem_singleton.1 (Setting.mem_variableNames_iff.2 own)
        exact congrArg (fun path : Path => some path.text)
          (Environment.expand_without plain home (given value member))
      · rw [Setting.parse?_of_ne path, Setting.parse?_of_ne path]
    · rw [if_neg own, if_neg own]

theorem Decides.no_variable (decides : Decides env name text s) :
    (env.without name).entries.filterMap (s.variableValue? (env.without name)) = [] := by
  refine List.filterMap_eq_nil_iff.2 fun entry member => if_neg fun own => ?_
  obtain ⟨inside, other⟩ := List.mem_filter.1 member
  rw [decides.alone entry inside own] at other
  simp at other

theorem Decides.own_variable (decides : Decides env name text s) {w : s.Value}
    (parsed : s.parse? env text = some w) :
    (env.entries.filterMap (s.variableValue? env)).getLast? = some w := by
  have member : w ∈ env.entries.filterMap (s.variableValue? env) :=
    List.mem_filterMap.2 ⟨(name, text), decides.present, (if_pos decides.known).trans parsed⟩
  cases last : (env.entries.filterMap (s.variableValue? env)).getLast? with
  | none =>
    rw [List.getLast?_eq_none_iff.1 last] at member
    cases member
  | some x =>
    obtain ⟨entry, inside, given⟩ := List.mem_filterMap.1 (List.mem_of_getLast? last)
    obtain ⟨own, read⟩ := known_of_variableValue? given
    rw [decides.alone entry inside own, parsed] at read
    exact read.symm

/-- Before the path of the compiler is expanded, all settings are what they are with the variable,
    but for a path that the variable gives: that one stands there as it is written. -/
theorem Written.layered_eq (written : Written tree tree' files s v)
    (decides : Decides env name text s) (value : s.kind.written? text = some v)
    (given : ∀ path, ("LILYCTL_LILYPOND_PATH", path) ∈ env.entries → ¬ Environment.RefersTo path name)
    (unexpanded : s = .lilypondPath → t ≠ .lilypondPath) :
    Setting.layered (env.without name) (documents tree' files) t =
      Setting.layered env (documents tree files) t := by
  unfold Setting.layered
  by_cases same : t = s
  · subst same
    obtain ⟨w, parsed, right⟩ := SettingKind.decode?_of_written? value
    have path : t ≠ .lilypondPath := fun path => unexpanded path path
    rw [decides.no_variable, written.last_value right,
      decides.own_variable ((Setting.parse?_of_ne path).trans parsed)]
    rfl
  · rw [decides.other_variables same given, written.others same]

theorem Written.expand_layered_eq (written : Written tree tree' files s v)
    (decides : Decides env name text s) (value : s.kind.written? text = some v)
    (apart : PathApart env (documents tree files) name text s) :
    Environment.expand (env.without name)
        (Setting.layered (env.without name) (documents tree' files) .lilypondPath) =
      env.expand (Setting.layered env (documents tree files) .lilypondPath) := by
  obtain ⟨plain, home, -⟩ := Setting.plain_of_overridden? decides.known
  by_cases own : s = .lilypondPath
  · subst own
    obtain ⟨w, parsed, right⟩ := SettingKind.decode?_of_written? value
    obtain rfl : text = w := Option.some.inj parsed
    obtain rfl : name = "LILYCTL_LILYPOND_PATH" :=
      List.mem_singleton.1 (Setting.mem_variableNames_iff.2 decides.known)
    have fromFile : Setting.layered (env.without "LILYCTL_LILYPOND_PATH") (documents tree' files)
        .lilypondPath = text := by
      unfold Setting.layered
      rw [decides.no_variable, written.last_value right]
      rfl
    have fromVariable : Setting.layered env (documents tree files) .lilypondPath =
        (env.expand text).text := by
      unfold Setting.layered
      rw [decides.own_variable (w := (env.expand text).text) rfl]
      rfl
    rw [fromFile, fromVariable, apart.settled rfl,
      Environment.expand_without plain home (apart.given text decides.present)]
  · rw [written.layered_eq decides value apart.given fun same => absurd same own,
      Environment.expand_without plain home (apart.reached own)]

theorem Written.effective_eq (written : Written tree tree' files s v)
    (decides : Decides env name text s) (value : s.kind.written? text = some v)
    (apart : PathApart env (documents tree files) name text s) :
    effective (env.without name) (documents tree' files) =
      effective env (documents tree files) := by
  refine ext fun t => ?_
  by_cases path : t = .lilypondPath
  · subst path
    rw [value_effective_lilypondPath, value_effective_lilypondPath]
    exact congrArg Path.text (written.expand_layered_eq decides value apart)
  · rw [value_effective_of_ne _ _ path, value_effective_of_ne _ _ path]
    exact written.layered_eq decides value apart.given fun _ => path

/-- A setting means the same from a variable as from the last file. Settings are loaded with the
    variable exactly if they are loaded without it when its value is written into that file, and if
    the files were fine before. -/
theorem variable_means_as_written (decides : Decides env name text s)
    (value : s.kind.written? text = some v)
    (found : configFiles tree' env named = configFiles tree env named)
    (written : Written tree tree' (configFiles tree env named) s v)
    (sectioned : ∀ table ∈ documents tree (configFiles tree env named), Sectioned table)
    (sectioned' : ∀ table ∈ documents tree' (configFiles tree env named), Sectioned table)
    (apart : PathApart env (documents tree (configFiles tree env named)) name text s)
    (settings : Settings) :
    (∃ sources, load tree env named = .ok (settings, sources)) ↔
      (∃ sources, load tree' (env.without name) named = .ok (settings, sources)) ∧
        ∀ file ∈ configFiles tree env named, ∃ table, loadLayer tree file = .ok table := by
  obtain ⟨-, home, directory⟩ := Setting.plain_of_overridden? decides.known
  obtain ⟨w, -, right⟩ := SettingKind.decode?_of_written? value
  have files : configFiles tree' (env.without name) named = configFiles tree env named :=
    (configFiles_without home directory).trans found
  have same := written.effective_eq decides value apart
  rw [loads_iff sectioned, loads_iff (by rwa [files]), files, same]
  constructor
  · rintro ⟨each, rfl⟩
    refine ⟨⟨fun file member => ?_, rfl⟩, each⟩
    exact written.fine sectioned sectioned' (by simp [right]) member (each file member)
  · rintro ⟨⟨-, rfl⟩, each⟩
    exact ⟨each, rfl⟩

section WrittenOut

variable {w : s.Value}

theorem entry?_table (settings : Settings) (s : Setting) :
    s.entry? (settings.table SettingGroup.all) = some (s.kind.encode (settings.value s)) := by
  unfold Setting.entry?
  rw [lookup_table]
  exact lookup_rows s

theorem sectioned_table (settings : Settings) : Sectioned (settings.table SettingGroup.all) := by
  intro g known
  rw [lookup_table]
  rfl

theorem document?_toText (writable : settings.Writable)
    (read : tree.readText file = .ok settings.toText) :
    tree.document? file = some (settings.table SettingGroup.all) :=
  FileTree.document?_eq_some_iff.2 ⟨_, read, read?_toText writable⟩

theorem documents_toText (writable : settings.Writable)
    (read : tree.readText file = .ok settings.toText) :
    documents tree [file] = [settings.table SettingGroup.all] :=
  List.filterMap_cons_some (document?_toText writable read)

theorem loadLayer_toText (writable : settings.Writable)
    (read : tree.readText file = .ok settings.toText) :
    loadLayer tree file = .ok (settings.table SettingGroup.all) := by
  refine loadLayer_eq_ok_iff.2 ⟨_, read, read?_toText writable, ?_⟩
  refine (ofTable?_isSome_iff (sectioned_table settings)).2 ⟨sectioned_table settings, ?_⟩
  intro s v found
  obtain rfl := Option.some.inj ((entry?_table settings s).symm.trans found)
  exact ⟨_, SettingKind.decode?_encode (writable s)⟩

theorem Writable.set (writable : settings.Writable) (fits : s.kind.Fits w) :
    (settings.set s w).Writable := by
  intro t
  by_cases same : s = t
  · subst same
    rwa [value_set_self]
  · rw [value_set_of_ne _ _ same]
    exact writable t

theorem Written.of_toText (writable : settings.Writable) (fits : s.kind.Fits w)
    (read : tree.readText file = .ok settings.toText)
    (read' : tree'.readText file = .ok (settings.set s w).toText) :
    Written tree tree' [file] s (s.kind.encode w) := by
  have writable' := writable.set fits
  have into : WrittenInto tree tree' s (s.kind.encode w) file := by
    refine ⟨_, _, document?_toText writable read, document?_toText writable' read', ?_,
      fun t other => ?_⟩
    · rw [entry?_table, value_set_self]
    · rw [entry?_table, entry?_table, value_set_of_ne _ _ (Ne.symm other)]
  exact ⟨fun other member => .inr (List.mem_singleton.1 member ▸ into), file, rfl, into⟩

end WrittenOut

/-- The path of the compiler from its variable, and from a file of settings that said another. -/
theorem compiler_path_written_into_file :
    let said (settings : Settings) : FileTree :=
      ⟨[], [(["lilyctl.toml"], .file (Text.Utf8.encode settings.toText))]⟩
    let env : Environment := { entries := [("HOME", "/home"), ("TOOLS", "/opt"),
      ("LILYCTL_LILYPOND_PATH", "$TOOLS/lilypond")] }
    let tree := said default
    let tree' := said (default.set .lilypondPath "$TOOLS/lilypond")
    ∃ settings sources sources', load tree env none = .ok (settings, sources) ∧
      load tree' (env.without "LILYCTL_LILYPOND_PATH") none = .ok (settings, sources') ∧
      settings.lilypondPath = ⟨"/opt/lilypond"⟩ := by
  intro said env tree tree'
  have files : configFiles tree env none = [localConfig] := by decide +kernel
  have found : configFiles tree' env none = configFiles tree env none := by decide +kernel
  have writable : default.Writable := writable_of_counts (by decide) (by decide)
  have writable' : (default.set .lilypondPath "$TOOLS/lilypond").Writable := writable.set trivial
  have reads (settings : Settings) : (said settings).readText localConfig = .ok settings.toText :=
    FileTree.readText_of_read rfl
  have sectioned : ∀ table ∈ documents tree (configFiles tree env none), Sectioned table := by
    rw [files, documents_toText writable (reads _)]
    exact List.forall_mem_singleton.2 (sectioned_table _)
  have sectioned' : ∀ table ∈ documents tree' (configFiles tree env none), Sectioned table := by
    rw [files, documents_toText writable' (reads _)]
    exact List.forall_mem_singleton.2 (sectioned_table _)
  have written : Written tree tree' (configFiles tree env none) .lilypondPath
      (.text "$TOOLS/lilypond") := by
    rw [files]
    exact .of_toText writable trivial (reads _) (reads _)
  have decides : Decides env "LILYCTL_LILYPOND_PATH" "$TOOLS/lilypond" .lilypondPath :=
    ⟨by decide +kernel, by decide +kernel, by decide +kernel⟩
  have apart : PathApart env (documents tree (configFiles tree env none)) "LILYCTL_LILYPOND_PATH"
      "$TOOLS/lilypond" .lilypondPath := by
    refine ⟨fun path member => ?_, fun other => absurd rfl other, fun _ => by decide +kernel⟩
    obtain rfl : path = "$TOOLS/lilypond" := by simpa [env] using member
    decide +kernel
  have fine : ∀ file ∈ configFiles tree env none, ∃ table, loadLayer tree file = .ok table := by
    rw [files]
    exact List.forall_mem_singleton.2 ⟨_, loadLayer_toText writable (reads _)⟩
  obtain ⟨sources, done⟩ := (loads_iff sectioned).2 ⟨fine, rfl⟩
  obtain ⟨⟨sources', again⟩, -⟩ := (variable_means_as_written decides rfl found written sectioned
    sectioned' apart _).1 ⟨sources, done⟩
  exact ⟨_, sources, sources', done, again, by decide +kernel⟩

/-- Four ways in which a variable and a file differ: a number that is too large for a document; a
    path that goes through the variable itself; a group that an earlier file has as an array, which
    the last one replaces; and a path that is expanded twice where the variable gives it. -/
theorem variable_and_file_differ :
    let config (text : String) : List (Place × Node) :=
      [(["lilyctl.toml"], .file (Text.Utf8.encode text))]
    let user : List (Place × Node) := [(["home"], .dir), (["home", ".config"], .dir),
      (["home", ".config", "lilyctl"], .dir), (["home", ".config", "lilyctl", "config.toml"],
        .file (Text.Utf8.encode "intellisense = [false, 7]"))]
    let home := ("HOME", "/home")
    let loaded (nodes : List (Place × Node)) (entries : List (String × String)) :
        Option Settings := (load ⟨[], nodes⟩ { entries } none).toOption.map (·.1)
    let large := 9223372036854775808
    ((loaded (config "") [home, ("LILYCTL_DEBOUNCE_MS", toString large)]).map debounceMs =
        some large ∧
      (loaded (config ("[intellisense]\ndebounce_ms = " ++ toString large)) [home]).map debounceMs =
        none) ∧
    ((loaded (config "[general]\nlilypond_path = \"$LILYCTL_MAIN_FILE\"")
          [home, ("LILYCTL_MAIN_FILE", "m.ly")]).map lilypondPath = some ⟨"m.ly"⟩ ∧
      (loaded (config ("[general]\nlilypond_path = \"$LILYCTL_MAIN_FILE\"\n" ++
          "[compilation]\nmain_file = \"m.ly\"")) [home]).map lilypondPath =
        some ⟨"$LILYCTL_MAIN_FILE"⟩) ∧
    ((loaded (user ++ config "") [home, ("LILYCTL_DEBOUNCE_MS", "5")]).map intellisenseEnabled =
        some false ∧
      (loaded (user ++ config "[intellisense]\ndebounce_ms = 5") [home]).map intellisenseEnabled =
        some true) ∧
    (loaded (config "") [home, ("TOOL", "~/lily"), ("LILYCTL_LILYPOND_PATH", "$TOOL")]).map
        lilypondPath = some ⟨"/home/lily"⟩ ∧
      (loaded (config "[general]\nlilypond_path = \"$TOOL\"") [home, ("TOOL", "~/lily")]).map
        lilypondPath = some ⟨"~/lily"⟩ := by
  refine ⟨⟨?_, ?_⟩, ⟨?_, ?_⟩, ⟨?_, ?_⟩, ?_, ?_⟩
  all_goals decide +kernel

end Settings

end ScoreDesk
