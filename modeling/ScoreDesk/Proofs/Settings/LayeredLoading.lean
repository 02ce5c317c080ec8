import Mathlib
import ScoreDesk.Proofs.Toml.DistinctKeys
import ScoreDesk.Settings.Environment

namespace ScoreDesk

namespace Toml

def Value.isTable : Value → Bool
  | .table _ => true
  | _ => false

theorem Value.exists_of_isTable {value : Value} (table : value.isTable = true) :
    ∃ entries, value = .table entries := by
  cases value with
  | table entries => exact ⟨entries, rfl⟩
  | _ => cases table

theorem Value.merge_plain (base : Value) {overlay : Value} (plain : overlay.isTable = false) :
    base.merge overlay = overlay := by
  cases overlay with
  | table entries => cases plain
  | _ => rfl

variable {key : String}

theorem lookup_cons_ite (k : String) (v : Value) (rest : Table) :
    List.lookup key ((k, v) :: rest) = if key = k then some v else rest.lookup key := by
  rw [List.lookup_cons]
  by_cases here : key = k
  · rw [if_pos here, beq_iff_eq.2 here]
  · rw [if_neg here, beq_false_of_ne here]

theorem Table.lookup_put (table : Table) (value : Value) (other : String) :
    (table.put key value).lookup other =
      if other = key then some value else table.lookup other := by
  induction table with
  | nil => exact lookup_cons_ite ..
  | cons entry rest ih =>
    obtain ⟨k, v⟩ := entry
    rw [Table.put]
    by_cases same : k = key
    · subst same
      rw [if_pos rfl, lookup_cons_ite, lookup_cons_ite]
      split <;> rfl
    · rw [if_neg same, lookup_cons_ite, lookup_cons_ite, ih]
      by_cases here : other = k
      · rw [if_pos here, if_pos here, if_neg (here ▸ same)]
      · rw [if_neg here, if_neg here]

theorem lookup_mergeEntries_of_not_mem {overlay : List (String × Value)}
    (absent : key ∉ overlay.map Prod.fst) (base : Table) :
    (mergeEntries base overlay).lookup key = base.lookup key := by
  induction overlay generalizing base with
  | nil => rfl
  | cons entry rest ih =>
    rw [List.map_cons, List.mem_cons, not_or] at absent
    rw [mergeEntries, ih absent.2, Table.lookup_put, if_neg absent.1]

theorem Table.lookup_merge {overlay : Table} (keys : (overlay.map Prod.fst).Nodup) (base : Table) :
    (base.merge overlay).lookup key =
      match overlay.lookup key with
      | some value => some (((base.lookup key).map (·.merge value)).getD value)
      | none => base.lookup key := by
  unfold Table.merge
  induction overlay generalizing base with
  | nil => rfl
  | cons entry rest ih =>
    obtain ⟨k, v⟩ := entry
    rw [List.map_cons, List.nodup_cons] at keys
    rw [mergeEntries, lookup_cons_ite]
    by_cases here : key = k
    · subst here
      rw [lookup_mergeEntries_of_not_mem keys.1, Table.lookup_put, if_pos rfl, if_pos rfl]
      cases base.lookup key <;> rfl
    · rw [ih keys.2, Table.lookup_put, if_neg here, if_neg here]

end Toml

namespace Setting

def entry? (s : Setting) (table : Toml.Table) : Option Toml.Value :=
  match table.lookup s.group.name with
  | some (.table entries) => entries.lookup s.key
  | _ => none

def fileValue? (s : Setting) (table : Toml.Table) : Option s.Value :=
  (s.entry? table).bind s.kind.decode?

/-- The value that a variable gives to a setting, if it is one for this setting and its text is
    valid. -/
def variableValue? (env : Environment) (s : Setting) (entry : String × String) : Option s.Value :=
  if overridden? entry.1 = some s then s.parse? env entry.2 else none

/-- The value of the last variable that gives one, else of the last document that does, else the
    default. -/
def layered (env : Environment) (tables : List Toml.Table) (s : Setting) : s.Value :=
  ((env.entries.filterMap (s.variableValue? env)).getLast?.or
    (tables.filterMap s.fileValue?).getLast?).getD s.default

end Setting

namespace Settings

def Sectioned (table : Toml.Table) : Prop :=
  ∀ g ∈ SettingGroup.all, (table.lookup g.name).all (·.isTable) = true

instance : DecidablePred Sectioned := fun table =>
  inferInstanceAs (Decidable (∀ g ∈ SettingGroup.all, (table.lookup g.name).all (·.isTable) = true))

theorem Sectioned.exists_entries {table : Toml.Table} (sectioned : Sectioned table)
    {g : SettingGroup} {v : Toml.Value} (found : table.lookup g.name = some v) :
    ∃ entries, v = .table entries := by
  have known : g ∈ SettingGroup.all := by cases g <;> decide
  have each := sectioned g known
  rw [found] at each
  exact Toml.Value.exists_of_isTable each

structure Layer (table : Toml.Table) : Prop where
  sectioned : Sectioned table
  typed : ∀ (s : Setting) (v : Toml.Value), s.entry? table = some v → ∃ w, s.kind.decode? v = some w

variable {base overlay table : Toml.Table} {s : Setting}

theorem isTable_of_decode? {k : SettingKind} {v : Toml.Value} {w : k.Value}
    (decoded : k.decode? v = some w) : v.isTable = false := by
  cases v with
  | table entries => cases k <;> cases decoded
  | _ => rfl

theorem inTable_eq (sectioned : Sectioned table) (s : Setting) :
    s.inTable table = s.decodeField (s.entry? table) := by
  unfold Setting.inTable Setting.entry?
  cases found : table.lookup s.group.name with
  | none => rfl
  | some v =>
    obtain ⟨entries, rfl⟩ := sectioned.exists_entries found
    rfl

theorem isWrong_iff (sectioned : Sectioned table) (s : Setting) :
    s.isWrong table = true ↔ ∃ v, s.entry? table = some v ∧ s.kind.decode? v = none := by
  unfold Setting.isWrong
  rw [inTable_eq sectioned]
  cases s.entry? table with
  | none => simp [Setting.decodeField]
  | some v => cases decoded : s.kind.decode? v <;> simp [Setting.decodeField, decoded]

theorem ofTable?_isSome_iff (sectioned : Sectioned table) :
    (ofTable? table).isSome = true ↔ Layer table := by
  have right : (ofTable? table).isSome = true ↔ ∀ s : Setting, s.isWrong table = false := by
    unfold ofTable?
    split
    · rename_i wrong
      obtain ⟨s, -, wrong⟩ := List.any_eq_true.1 wrong
      simpa using ⟨s, wrong⟩
    · rename_i right
      simpa [Setting.mem_all] using right
  rw [right]
  constructor
  · refine fun right => ⟨sectioned, fun s v found => ?_⟩
    cases decoded : s.kind.decode? v with
    | some w => exact ⟨w, rfl⟩
    | none =>
      have wrong := (isWrong_iff sectioned s).2 ⟨v, found, decoded⟩
      rw [right s] at wrong
      cases wrong
  · intro layer s
    by_contra wrong
    obtain ⟨v, found, undecoded⟩ := (isWrong_iff sectioned s).1 (Bool.eq_true_of_not_eq_false wrong)
    obtain ⟨w, decoded⟩ := layer.typed s v found
    rw [undecoded] at decoded
    cases decoded

theorem value_of_ofTable? {settings : Settings} (sectioned : Sectioned table)
    (read : ofTable? table = some settings) (s : Setting) :
    settings.value s = (s.fileValue? table).getD s.default := by
  unfold ofTable? at read
  split at read
  · cases read
  · obtain rfl := Option.some.inj read
    dsimp only
    rw [inTable_eq sectioned, Setting.fileValue?]
    cases s.entry? table with
    | none => rfl
    | some v =>
      rw [Setting.decodeField, Option.bind_some]
      cases s.kind.decode? v <;> rfl

theorem Sectioned.merge (sectioned : Sectioned base) (laid : Sectioned overlay)
    (keys : (overlay.map Prod.fst).Nodup) : Sectioned (base.merge overlay) := by
  intro g known
  rw [Toml.Table.lookup_merge keys]
  cases above : overlay.lookup g.name with
  | none => exact sectioned g known
  | some new =>
    obtain ⟨entries, rfl⟩ := laid.exists_entries above
    cases below : base.lookup g.name with
    | none => rfl
    | some old =>
      obtain ⟨before, rfl⟩ := sectioned.exists_entries below
      rfl

theorem entry?_merge (sectioned : Sectioned base) (laid : Layer overlay)
    (distinct : overlay.Distinct) (s : Setting) :
    s.entry? (base.merge overlay) = (s.entry? overlay).or (s.entry? base) := by
  have typed := laid.typed s
  unfold Setting.entry? at typed ⊢
  rw [Toml.Table.lookup_merge distinct.keys]
  cases above : overlay.lookup s.group.name with
  | none => rfl
  | some new =>
    obtain ⟨entries, rfl⟩ := laid.sectioned.exists_entries above
    rw [above] at typed
    dsimp only at typed ⊢
    cases below : base.lookup s.group.name with
    | none => simp
    | some old =>
      obtain ⟨before, rfl⟩ := sectioned.exists_entries below
      have keys : (entries.map Prod.fst).Nodup := by
        cases distinct.all _ (Toml.mem_of_lookup above) with
        | table keys _ => exact keys
      change (Toml.Table.merge before entries).lookup s.key = _
      rw [Toml.Table.lookup_merge keys]
      cases here : entries.lookup s.key with
      | none => rfl
      | some v =>
        obtain ⟨w, decoded⟩ := typed v here
        have plain := isTable_of_decode? decoded
        cases before.lookup s.key with
        | none => rfl
        | some earlier => exact congrArg some (earlier.merge_plain plain)

theorem Layer.merge (under : Layer base) (laid : Layer overlay) (distinct : overlay.Distinct) :
    Layer (base.merge overlay) := by
  refine ⟨under.sectioned.merge laid.sectioned distinct.keys, fun s v found => ?_⟩
  rw [entry?_merge under.sectioned laid distinct, Option.or_eq_some_iff] at found
  rcases found with above | ⟨-, below⟩
  · exact laid.typed s v above
  · exact under.typed s v below

theorem fileValue?_merge (under : Layer base) (laid : Layer overlay) (distinct : overlay.Distinct)
    (s : Setting) :
    s.fileValue? (base.merge overlay) = (s.fileValue? overlay).or (s.fileValue? base) := by
  unfold Setting.fileValue?
  rw [entry?_merge under.sectioned laid distinct]
  cases above : s.entry? overlay with
  | none => rfl
  | some v =>
    obtain ⟨w, decoded⟩ := laid.typed s v above
    rw [Option.some_or, Option.bind_some, decoded]
    rfl

theorem nil_layer : Layer [] where
  sectioned g _ := rfl
  typed s v found := by cases found

-- By induction on the documents that are left; the others are merged already.
theorem foldl_merge {tables : List Toml.Table} (under : Layer base)
    (layers : ∀ table ∈ tables, Layer table ∧ table.Distinct) :
    Layer (tables.foldl Toml.Table.merge base) ∧
      ∀ s : Setting, s.fileValue? (tables.foldl Toml.Table.merge base) =
        (tables.filterMap s.fileValue?).getLast?.or (s.fileValue? base) := by
  induction tables generalizing base with
  | nil => exact ⟨under, fun s => rfl⟩
  | cons table rest ih =>
    obtain ⟨laid, distinct⟩ := layers table List.mem_cons_self
    obtain ⟨layer, values⟩ := ih (under.merge laid distinct) fun other member =>
      layers other (List.mem_cons_of_mem _ member)
    refine ⟨layer, fun s => ?_⟩
    rw [List.foldl_cons, values s, fileValue?_merge under laid distinct, List.filterMap_cons]
    cases s.fileValue? table with
    | none => rfl
    | some v =>
      rw [List.getLast?_cons]
      cases (rest.filterMap s.fileValue?).getLast? <;> rfl

end Settings

def documents (tree : FileTree) (files : List Path) : List Toml.Table :=
  files.filterMap fun file => (tree.readText file).toOption.bind Toml.read?

section Files

variable {tree : FileTree} {file : Path} {files : List Path} {table : Toml.Table}

theorem loadLayer_eq_ok_iff : loadLayer tree file = .ok table ↔
    ∃ text, tree.readText file = .ok text ∧ Toml.read? text = some table ∧
      (Settings.ofTable? table).isSome = true := by
  unfold loadLayer
  constructor
  · intro loaded
    split at loaded
    · cases loaded
    · rename_i text read
      split at loaded
      · cases loaded
      · rename_i document found
        split at loaded
        · rename_i valid
          obtain rfl := Except.ok.inj loaded
          exact ⟨text, read, found, valid⟩
        · cases loaded
  · rintro ⟨text, read, found, valid⟩
    rw [read]
    dsimp only
    rw [found]
    exact if_pos valid

theorem mem_documents (member : file ∈ files) {text : String} (read : tree.readText file = .ok text)
    (found : Toml.read? text = some table) : table ∈ documents tree files := by
  refine List.mem_filterMap.2 ⟨file, member, ?_⟩
  rw [read]
  exact found

theorem documents_cons (loaded : loadLayer tree file = .ok table) (rest : List Path) :
    documents tree (file :: rest) = table :: documents tree rest := by
  obtain ⟨text, read, found, -⟩ := loadLayer_eq_ok_iff.1 loaded
  exact List.filterMap_cons_some (by rw [read]; exact found)

theorem mapM_loadLayer_eq_ok_iff {tables : List Toml.Table} :
    files.mapM (loadLayer tree) = .ok tables ↔
      tables = documents tree files ∧ ∀ file ∈ files, ∃ table, loadLayer tree file = .ok table := by
  induction files generalizing tables with
  | nil => simp [documents, pure, Except.pure, eq_comm]
  | cons file rest ih =>
    rw [List.mapM_cons, List.forall_mem_cons]
    cases loaded : loadLayer tree file with
    | error e =>
      constructor
      · intro failed
        cases failed
      · rintro ⟨-, ⟨table, fine⟩, -⟩
        cases fine
    | ok table =>
      rw [documents_cons loaded]
      constructor
      · intro listed
        obtain ⟨others, behind, rfl⟩ : ∃ others, rest.mapM (loadLayer tree) = .ok others ∧
            tables = table :: others := by
          cases behind : rest.mapM (loadLayer tree) with
          | error e =>
            rw [behind] at listed
            cases listed
          | ok others =>
            rw [behind] at listed
            exact ⟨others, rfl, (Except.ok.inj listed).symm⟩
        obtain ⟨rfl, each⟩ := ih.1 behind
        exact ⟨rfl, ⟨table, rfl⟩, each⟩
      · rintro ⟨rfl, -, each⟩
        rw [ih.2 ⟨rfl, each⟩]
        rfl

theorem layer_of_loadLayer (member : file ∈ files)
    (sectioned : ∀ table ∈ documents tree files, Settings.Sectioned table)
    (loaded : loadLayer tree file = .ok table) : Settings.Layer table ∧ table.Distinct := by
  obtain ⟨text, read, found, valid⟩ := loadLayer_eq_ok_iff.1 loaded
  have apart := sectioned table (mem_documents member read found)
  exact ⟨(Settings.ofTable?_isSome_iff apart).1 valid, Toml.read?_distinct found⟩

theorem layer_of_mem_documents (each : ∀ file ∈ files, ∃ table, loadLayer tree file = .ok table)
    (sectioned : ∀ table ∈ documents tree files, Settings.Sectioned table)
    (member : table ∈ documents tree files) : Settings.Layer table ∧ table.Distinct := by
  obtain ⟨file, inside, read⟩ := List.mem_filterMap.1 member
  obtain ⟨other, loaded⟩ := each file inside
  obtain ⟨text, found, document, -⟩ := loadLayer_eq_ok_iff.1 loaded
  have same : other = table := by
    rw [found] at read
    exact Option.some.inj (document.symm.trans read)
  exact layer_of_loadLayer inside sectioned (same ▸ loaded)

theorem exists_loadLayers (sectioned : ∀ table ∈ documents tree files, Settings.Sectioned table)
    (each : ∀ file ∈ files, ∃ table, loadLayer tree file = .ok table) :
    ∃ settings, loadLayers tree files = .ok settings ∧ ∀ s : Setting, settings.value s =
      ((documents tree files).filterMap s.fileValue?).getLast?.getD s.default := by
  have tables := mapM_loadLayer_eq_ok_iff.2 ⟨rfl, each⟩
  obtain ⟨layer, values⟩ := Settings.foldl_merge Settings.nil_layer fun table member =>
    layer_of_mem_documents each sectioned member
  obtain ⟨settings, read⟩ := Option.isSome_iff_exists.1
    ((Settings.ofTable?_isSome_iff layer.sectioned).2 layer)
  refine ⟨settings, ?_, fun s => ?_⟩
  · unfold loadLayers
    simp only [tables, read, bind, Except.bind]
    rfl
  · rw [Settings.value_of_ofTable? layer.sectioned read, values]
    exact congrArg (Option.getD · _) (Option.or_none)

theorem each_of_loadLayers {settings : Settings} (loaded : loadLayers tree files = .ok settings) :
    ∀ file ∈ files, ∃ table, loadLayer tree file = .ok table := by
  unfold loadLayers at loaded
  cases tables : files.mapM (loadLayer tree) with
  | error e =>
    rw [tables] at loaded
    cases loaded
  | ok tables' => exact (mapM_loadLayer_eq_ok_iff.1 tables).2

end Files

def Environment.applied (env : Environment) (entries : List (String × String)) : List String :=
  (entries.filter fun entry => Setting.all.any fun s => (s.variableValue? env entry).isSome).map
    (·.1)

section Variables

variable {env : Environment} {settings : Settings} {entry : String × String} {s : Setting}

theorem known_of_variableValue? {v : s.Value} (given : s.variableValue? env entry = some v) :
    overridden? entry.1 = some s ∧ s.parse? env entry.2 = some v := by
  unfold Setting.variableValue? at given
  split at given
  · rename_i known
    exact ⟨known, given⟩
  · cases given

theorem variableValue?_of_ne {v : s.Value} (given : s.variableValue? env entry = some v)
    {t : Setting} (other : s ≠ t) : t.variableValue? env entry = none := by
  refine if_neg fun known => other ?_
  exact Option.some.inj ((known_of_variableValue? given).1.symm.trans known)

theorem override?_of_value {v : s.Value} (given : s.variableValue? env entry = some v) :
    settings.override? env entry.1 entry.2 = some (settings.set s v) := by
  obtain ⟨known, parsed⟩ := known_of_variableValue? given
  simp [Settings.override?, known, parsed]

theorem override?_of_none (given : ∀ s : Setting, s.variableValue? env entry = none) :
    settings.override? env entry.1 entry.2 = none := by
  unfold Settings.override?
  cases known : overridden? entry.1 with
  | none => rfl
  | some s =>
    have unparsed : s.parse? env entry.2 = none := by
      rw [← given s, Setting.variableValue?, if_pos known]
    simp [unparsed]

-- By induction on the variables that are left.
theorem overrideAll_spec (env : Environment) (settings : Settings)
    (entries : List (String × String)) :
    (∀ s : Setting, (settings.overrideAll env entries).1.value s =
      (entries.filterMap (s.variableValue? env)).getLast?.getD (settings.value s)) ∧
    (settings.overrideAll env entries).2 = env.applied entries := by
  induction entries generalizing settings with
  | nil => exact ⟨fun s => rfl, rfl⟩
  | cons entry rest ih =>
    obtain ⟨name, text⟩ := entry
    rw [Settings.overrideAll]
    by_cases given : ∃ (s : Setting) (v : s.Value), s.variableValue? env (name, text) = some v
    · obtain ⟨s, v, given⟩ := given
      have changed : settings.override? env name text = some (settings.set s v) :=
        override?_of_value given
      obtain ⟨values, names⟩ := ih (settings.set s v)
      have applied : env.applied ((name, text) :: rest) = name :: env.applied rest := by
        have applies : Setting.all.any (fun s => (s.variableValue? env (name, text)).isSome) :=
          List.any_eq_true.2 ⟨s, s.mem_all, by rw [given]; rfl⟩
        simp [Environment.applied, applies]
      rw [changed, applied, ← names]
      refine ⟨fun t => ?_, rfl⟩
      change ((settings.set s v).overrideAll env rest).1.value t = _
      rw [values t, List.filterMap_cons]
      by_cases same : s = t
      · subst same
        rw [given, Settings.value_set_self]
        dsimp only
        rw [List.getLast?_cons, Option.getD_some]
      · rw [variableValue?_of_ne given same, Settings.value_set_of_ne settings v same]
    · have none (s : Setting) : s.variableValue? env (name, text) = none := by
        by_contra some
        obtain ⟨v, some⟩ := Option.ne_none_iff_exists'.1 some
        exact given ⟨s, v, some⟩
      have unchanged : settings.override? env name text = Option.none := override?_of_none none
      obtain ⟨values, names⟩ := ih settings
      rw [unchanged]
      refine ⟨fun s => ?_, ?_⟩
      · rw [List.filterMap_cons, none s]
        exact values s
      · refine names.trans ?_
        simp [Environment.applied, none]

end Variables

namespace Settings

variable {tree : FileTree} {env : Environment} {named : Option Path}

theorem load_eq_ok_iff {loaded : Settings × Sources} :
    load tree env named = .ok loaded ↔
      ∃ settings, loadLayers tree (configFiles tree env named) = .ok settings ∧
        loaded = ((settings.overrideAll env env.entries).1.set .lilypondPath
          (env.expand (settings.overrideAll env env.entries).1.lilypondPath.text).text,
          ⟨configFiles tree env named, (settings.overrideAll env env.entries).2⟩) := by
  unfold load
  cases layers : loadLayers tree (configFiles tree env named) with
  | error e => simp [layers, bind, Except.bind]
  | ok settings => simp [layers, bind, Except.bind, pure, Except.pure, eq_comm]

/-- Whatever files are found and whatever the environment is, as long as known groups are tables in
    those files. Settings are loaded exactly when each file is fine on its own: it can be read, it
    is a document, and what it says for settings is of the right kind. Then each setting has the
    value of the last variable that gives it one, else of the last file that does, else its default,
    and the path of the compiler is expanded after that. The sources are all files, and the names of
    the variables that gave a value. -/
theorem last_layer_wins (tree : FileTree) (env : Environment) (named : Option Path)
    (sectioned : ∀ table ∈ documents tree (configFiles tree env named), Sectioned table) :
    let files := configFiles tree env named
    let layered := Setting.layered env (documents tree files)
    ((∃ loaded, load tree env named = .ok loaded) ↔
      ∀ file ∈ files, ∃ table, loadLayer tree file = .ok table) ∧
    (∀ file ∈ files, ∀ table, loadLayer tree file = .ok table ↔
      ∃ text, tree.readText file = .ok text ∧ Toml.read? text = some table ∧
        ∀ (s : Setting) (v : Toml.Value), s.entry? table = some v →
          ∃ w, s.kind.decode? v = some w) ∧
    ∀ settings sources, load tree env named = .ok (settings, sources) →
      (∀ s ≠ .lilypondPath, settings.value s = layered s) ∧
      settings.lilypondPath = env.expand (layered .lilypondPath) ∧
      sources.files = files ∧ sources.overrides = env.applied env.entries := by
  intro files layered
  refine ⟨⟨?_, ?_⟩, ?_, ?_⟩
  · rintro ⟨loaded, done⟩
    obtain ⟨settings, layers, -⟩ := load_eq_ok_iff.1 done
    exact each_of_loadLayers layers
  · intro each
    obtain ⟨settings, layers, -⟩ := exists_loadLayers sectioned each
    exact ⟨_, load_eq_ok_iff.2 ⟨settings, layers, rfl⟩⟩
  · intro file member table
    rw [loadLayer_eq_ok_iff]
    refine exists_congr fun text => and_congr_right fun read => and_congr_right fun found => ?_
    have apart := sectioned table (mem_documents member read found)
    rw [ofTable?_isSome_iff apart]
    exact ⟨fun layer => layer.typed, fun typed => ⟨apart, typed⟩⟩
  · intro settings sources done
    obtain ⟨before, layers, same⟩ := load_eq_ok_iff.1 done
    obtain ⟨rfl, rfl⟩ := Prod.mk.inj same
    obtain ⟨merged, again, said⟩ := exists_loadLayers sectioned (each_of_loadLayers layers)
    obtain rfl : before = merged := Except.ok.inj (layers.symm.trans again)
    obtain ⟨values, names⟩ := overrideAll_spec env before env.entries
    have value (s : Setting) : (before.overrideAll env env.entries).1.value s = layered s := by
      rw [values s, said s]
      change _ = Option.getD (Option.or _ _) _
      cases (env.entries.filterMap (s.variableValue? env)).getLast? <;> rfl
    refine ⟨fun s other => ?_, ?_, rfl, names⟩
    · exact (value_set_of_ne _ _ (Ne.symm other)).trans (value s)
    · rw [← value .lilypondPath]
      exact congrArg Path.mk (value_set_self ..)

/-- The last file sets the delay, the last valid variable the switch; keys that are no settings and
    a number that is none do nothing. -/
theorem valid_variable_wins_over_files :
    let tree : FileTree := ⟨[], [(["etc"], .dir), (["etc", "lilyctl"], .dir),
      (["etc", "lilyctl", "config.toml"],
        .file (Text.Utf8.encode "[intellisense]\ndebounce_ms = 9")),
      (["lilyctl.toml"], .file (Text.Utf8.encode "intellisense = \x7bdebounce_ms = 7, x = 1\x7d"))]⟩
    let env : Environment := { entries := [("HOME", "/home"), ("LILYCTL_INTELLISENSE", "no"),
      ("LILYCTL_DEBOUNCE_MS", "soon")] }
    (∀ table ∈ documents tree (configFiles tree env none), Sectioned table) ∧
      ∃ settings sources, load tree env none = .ok (settings, sources) ∧
        settings.debounceMs = 7 ∧ settings.intellisenseEnabled = false ∧
        settings.lilypondPath = ⟨"lilypond"⟩ ∧
        sources.files = [systemConfig, localConfig] ∧
        sources.overrides = ["LILYCTL_INTELLISENSE"] := by
  intro tree env
  have sectioned : ∀ table ∈ documents tree (configFiles tree env none), Sectioned table := by
    decide +kernel
  refine ⟨sectioned, ?_⟩
  have fine : ∀ file ∈ configFiles tree env none, (loadLayer tree file).toOption.isSome = true := by
    decide +kernel
  obtain ⟨loads, -, values⟩ := last_layer_wins tree env none sectioned
  obtain ⟨⟨settings, sources⟩, done⟩ := loads.2 fun file member => by
    have here := fine file member
    cases loaded : loadLayer tree file with
    | error e => simp [loaded, Except.toOption] at here
    | ok table => exact ⟨table, rfl⟩
  obtain ⟨value, path, files, overrides⟩ := values settings sources done
  let layered := Setting.layered env (documents tree (configFiles tree env none))
  have delay : debounceMs ⟨layered⟩ = 7 := by decide +kernel
  have switch : intellisenseEnabled ⟨layered⟩ = false := by decide +kernel
  refine ⟨settings, sources, done, ?_, ?_, ?_, ?_, ?_⟩
  · exact (value .debounceMs (by decide)).trans delay
  · exact (value .intellisenseEnabled (by decide)).trans switch
  · rw [path]
    decide +kernel
  · rw [files]
    decide +kernel
  · rw [overrides]
    decide +kernel

end Settings

end ScoreDesk
