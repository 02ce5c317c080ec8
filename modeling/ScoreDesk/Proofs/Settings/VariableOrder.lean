import Mathlib
import ScoreDesk.CommandLine.LogFilter
import ScoreDesk.Proofs.Settings.LayeredLoading

namespace ScoreDesk

namespace Setting

def variableNames : Setting → List String
  | lilypondPath => ["LILYCTL_LILYPOND_PATH"]
  | additionalArgs => ["LILYCTL_ADDITIONAL_ARGS"]
  | mainFile => ["LILYCTL_MAIN_FILE"]
  | intellisenseEnabled => ["LILYCTL_INTELLISENSE"]
  | debounceMs => ["LILYCTL_DEBOUNCE_MS"]
  | midiInput => ["LILYCTL_MIDI_INPUT"]
  | accidentals => ["LILYCTL_ACCIDENTALS"]
  | chordMode => ["LILYCTL_CHORD_MODE"]
  | relativeMode => ["LILYCTL_RELATIVE_MODE"]
  | midiOutput => ["LILYCTL_MIDI_OUTPUT"]
  | logLevel => ["LILYCTL_LOG_LEVEL", "RUST_LOG"]
  | compileMainFileOnSave | compileOnSave | pollIntervalMs => []

variable {s : Setting} {name other : String}

theorem mem_variableNames_iff : name ∈ s.variableNames ↔ overridden? name = some s := by
  constructor
  · have all : ∀ n ∈ s.variableNames, overridden? n = some s := by cases s <;> decide
    exact all name
  · intro known
    unfold overridden? at known
    split at known <;> cases known <;> decide

theorem eq_of_mem_variableNames (single : s ≠ logLevel) (first : name ∈ s.variableNames)
    (second : other ∈ s.variableNames) : name = other := by
  cases s <;> simp_all [variableNames]

end Setting

theorem eq_of_perm_of_alike {α : Type} {l l' : List α} (perm : l.Perm l')
    (alike : ∀ a ∈ l, ∀ b ∈ l, a = b) : l = l' := by
  have always (l : List α) : l.Pairwise fun _ _ => True :=
    List.pairwise_of_forall fun _ _ => trivial
  refine List.Perm.eq_of_pairwise ?_ (always l) (always l') perm
  intro a b here there _ _
  exact alike a here b (perm.mem_iff.2 there)

namespace Settings

variable {env : Environment} {settings : Settings} {entries other : List (String × String)}
  {s : Setting}

def Agree (env : Environment) (entries : List (String × String)) (s : Setting) : Prop :=
  ∀ a ∈ entries.filterMap (s.variableValue? env),
    ∀ b ∈ entries.filterMap (s.variableValue? env), a = b

theorem value_overrideAll_of_agree (perm : other.Perm entries)
    (agree : Agree env entries s) :
    (settings.overrideAll env other).1.value s = (settings.overrideAll env entries).1.value s := by
  have same := eq_of_perm_of_alike (perm.symm.filterMap (s.variableValue? env)) agree
  rw [(overrideAll_spec env settings other).1, (overrideAll_spec env settings entries).1, same]

theorem agree_of_text (texts : ∀ n ∈ s.variableNames, ∀ n' ∈ s.variableNames, ∀ a b,
    (n, a) ∈ entries → (n', b) ∈ entries → a = b) : Agree env entries s := by
  intro a here b there
  obtain ⟨⟨n, text⟩, first, given⟩ := List.mem_filterMap.1 here
  obtain ⟨⟨n', text'⟩, second, given'⟩ := List.mem_filterMap.1 there
  obtain ⟨known, parsed⟩ := known_of_variableValue? given
  obtain ⟨known', parsed'⟩ := known_of_variableValue? given'
  obtain rfl : text = text' := texts n (Setting.mem_variableNames_iff.2 known) n'
    (Setting.mem_variableNames_iff.2 known') text text' first second
  exact Option.some.inj (parsed.symm.trans parsed')

theorem text_eq_of_distinct (distinct : (entries.map Prod.fst).Nodup) {name a b : String}
    (here : (name, a) ∈ entries) (there : (name, b) ∈ entries) : a = b :=
  congrArg Prod.snd (List.inj_on_of_nodup_map distinct here there rfl)

theorem agree_of_ne_logLevel (distinct : (entries.map Prod.fst).Nodup)
    (single : s ≠ .logLevel) : Agree env entries s := by
  refine agree_of_text fun n known n' known' a b here there => ?_
  obtain rfl := Setting.eq_of_mem_variableNames single known known'
  exact text_eq_of_distinct distinct here there

theorem agree_logLevel (distinct : (entries.map Prod.fst).Nodup)
    (same : ∀ a b, ("LILYCTL_LOG_LEVEL", a) ∈ entries → ("RUST_LOG", b) ∈ entries → a = b) :
    Agree env entries .logLevel := by
  refine agree_of_text fun n known n' known' a b here there => ?_
  simp only [Setting.variableNames, List.mem_cons, List.not_mem_nil, or_false] at known known'
  rcases known with rfl | rfl <;> rcases known' with rfl | rfl
  · exact text_eq_of_distinct distinct here there
  · exact same a b here there
  · exact (same b a there here).symm
  · exact text_eq_of_distinct distinct here there

theorem exists_order_setting {entry : String × String} (present : entry ∈ entries)
    {v : s.Value} (given : s.variableValue? env entry = some v) :
    ∃ other : List (String × String), other.Perm entries ∧
      (settings.overrideAll env other).1.value s = v := by
  refine ⟨entries.erase entry ++ [entry], ?_, ?_⟩
  · exact (List.perm_append_singleton _ _).trans (List.perm_cons_erase present).symm
  · rw [(overrideAll_spec env settings _).1, List.filterMap_append, List.filterMap_cons_some given,
      List.filterMap_nil, List.getLast?_concat, Option.getD_some]

/-- Whatever the settings, the variables and the environment are: the order of the variables decides
    neither which of them are applied nor what any other setting than the log level is. It does not
    decide the log level either, exactly if its two variables do not stand there with different
    values. -/
theorem order_immaterial_iff (env : Environment) (settings : Settings)
    (entries : List (String × String)) (distinct : (entries.map Prod.fst).Nodup) :
    (∀ other : List (String × String), other.Perm entries →
      ((settings.overrideAll env other).2.Perm (settings.overrideAll env entries).2 ∧
        ∀ s ≠ .logLevel, (settings.overrideAll env other).1.value s =
          (settings.overrideAll env entries).1.value s)) ∧
    ((∀ other : List (String × String), other.Perm entries →
        (settings.overrideAll env other).1 = (settings.overrideAll env entries).1) ↔
      ∀ a b, ("LILYCTL_LOG_LEVEL", a) ∈ entries → ("RUST_LOG", b) ∈ entries → a = b) := by
  refine ⟨fun other perm => ⟨?_, fun s single => ?_⟩, fun all a b here there => ?_,
    fun same other perm => ext fun s => ?_⟩
  · rw [(overrideAll_spec env settings other).2, (overrideAll_spec env settings entries).2]
    exact (perm.filter _).map _
  · exact value_overrideAll_of_agree perm (agree_of_ne_logLevel distinct single)
  · have given (name text : String) (known : overridden? name = some .logLevel) :
        Setting.logLevel.variableValue? env (name, text) = some text := if_pos known
    obtain ⟨first, perm, setsFirst⟩ :=
      exists_order_setting here (given "LILYCTL_LOG_LEVEL" a rfl)
    obtain ⟨second, perm', setsSecond⟩ := exists_order_setting there (given "RUST_LOG" b rfl)
    rw [all first perm] at setsFirst
    rw [all second perm'] at setsSecond
    exact setsFirst.symm.trans setsSecond
  · by_cases single : s = .logLevel
    · subst single
      exact value_overrideAll_of_agree perm (agree_logLevel distinct same)
    · exact value_overrideAll_of_agree perm (agree_of_ne_logLevel distinct single)

/-- Twelve variables and one that is none, in two orders. The values for the log level are the same,
    one number is none, and the path is expanded by the environment, not by the list. -/
theorem variables_reversed_do_the_same :
    let entries : List (String × String) := [("RUST_LOG", "debug"),
      ("LILYCTL_LILYPOND_PATH", "$TOOLS/lilypond"), ("LILYCTL_ADDITIONAL_ARGS", "-dx"),
      ("LILYCTL_MAIN_FILE", "main.ly"), ("LILYCTL_INTELLISENSE", " NO "),
      ("LILYCTL_DEBOUNCE_MS", "soon"), ("LILYCTL_MIDI_INPUT", "Keys"),
      ("LILYCTL_ACCIDENTALS", "flats"), ("HOME", "/home"), ("LILYCTL_CHORD_MODE", "on"),
      ("LILYCTL_RELATIVE_MODE", "1"), ("LILYCTL_MIDI_OUTPUT", ""), ("LILYCTL_LOG_LEVEL", "debug")]
    let env : Environment := { entries := [("TOOLS", "/opt")] }
    (entries.map Prod.fst).Nodup ∧
      (default.overrideAll env entries.reverse).1 = (default.overrideAll env entries).1 ∧
      (default.overrideAll env entries.reverse).1.logLevel = "debug" := by
  intro entries env
  have distinct : (entries.map Prod.fst).Nodup := by decide +kernel
  have same : ∀ a b, ("LILYCTL_LOG_LEVEL", a) ∈ entries → ("RUST_LOG", b) ∈ entries → a = b := by
    intro a b here there
    obtain rfl : a = "debug" := by simpa [entries] using here
    obtain rfl : b = "debug" := by simpa [entries] using there
    rfl
  refine ⟨distinct, ?_, by decide +kernel⟩
  exact (order_immaterial_iff env default entries distinct).2.2 same _ entries.reverse_perm

/-- With both variables set, the log level is that of the one that happens to stand last, where the
    log filter takes the same one in any case. -/
theorem log_level_left_to_order :
    let first : List (String × String) := [("LILYCTL_LOG_LEVEL", "warn"), ("RUST_LOG", "trace")]
    let second : List (String × String) := [("RUST_LOG", "trace"), ("LILYCTL_LOG_LEVEL", "warn")]
    second.Perm first ∧ (first.map Prod.fst).Nodup ∧
      (default.overrideAll { entries := [] } first).1.logLevel = "trace" ∧
      (default.overrideAll { entries := [] } second).1.logLevel = "warn" ∧
      (default.overrideAll { entries := [] } second).1 ≠ (default.overrideAll { entries := [] } first).1 ∧
      ∀ configured, CommandLine.logDirectives (some "trace") false configured = "trace" := by
  intro first second
  have level : (default.overrideAll { entries := [] } first).1.logLevel = "trace" := by decide +kernel
  have level' : (default.overrideAll { entries := [] } second).1.logLevel = "warn" := by decide +kernel
  refine ⟨.swap _ _ _, by decide, level, level', fun same => ?_, fun configured => ?_⟩
  · rw [same, level] at level'
    exact absurd level' (by decide)
  · have given : ((some "trace").map Text.trimmed).filter (!·.isEmpty) = some "trace" := by
      decide +kernel
    rw [CommandLine.logDirectives, given]

end Settings

end ScoreDesk
