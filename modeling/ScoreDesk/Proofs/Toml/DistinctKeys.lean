import Mathlib
import ScoreDesk.Toml.Document

namespace ScoreDesk.Toml

/-- No table in a value has a key twice, however deep it lies. -/
inductive Value.Distinct : Value → Prop where
  | text (s : String) : Value.Distinct (.text s)
  | integer (n : Int) : Value.Distinct (.integer n)
  | float (lexeme : String) : Value.Distinct (.float lexeme)
  | flag (b : Bool) : Value.Distinct (.flag b)
  | time (s : String) : Value.Distinct (.time s)
  | array {items : List Value} (all : ∀ v ∈ items, v.Distinct) : Value.Distinct (.array items)
  | table {entries : List (String × Value)} (keys : (entries.map Prod.fst).Nodup)
      (all : ∀ entry ∈ entries, entry.2.Distinct) : Value.Distinct (.table entries)

inductive Item.Distinct : Item → Prop where
  | value {v : Value} (distinct : v.Distinct) : Item.Distinct (.value v)
  | table (origin : Origin) {entries : List (String × Item)} (keys : (entries.map Prod.fst).Nodup)
      (all : ∀ entry ∈ entries, entry.2.Distinct) : Item.Distinct (.table origin entries)
  | tables {elements : List (List (String × Item))}
      (keys : ∀ element ∈ elements, (element.map Prod.fst).Nodup)
      (all : ∀ element ∈ elements, ∀ entry ∈ element, entry.2.Distinct) :
      Item.Distinct (.tables elements)

structure Table.Distinct (table : Table) : Prop where
  keys : (table.map Prod.fst).Nodup
  all : ∀ entry ∈ table, entry.2.Distinct

structure Items.Distinct (items : Items) : Prop where
  keys : (items.map Prod.fst).Nodup
  all : ∀ entry ∈ items, entry.2.Distinct

theorem mem_of_lookup {α : Type} {entries : List (String × α)} {key : String} {a : α}
    (found : entries.lookup key = some a) : (key, a) ∈ entries := by
  obtain ⟨before, after, rfl, -⟩ := List.lookup_eq_some_iff.1 found
  simp

theorem Item.Distinct.entries {origin : Origin} {entries : Items}
    (distinct : (Item.table origin entries).Distinct) : entries.Distinct := by
  cases distinct with
  | table _ keys all => exact ⟨keys, all⟩

theorem Item.Distinct.elements {elements : List Items}
    (distinct : (Item.tables elements).Distinct) :
    ∀ element ∈ elements, Items.Distinct element := by
  cases distinct with
  | tables keys all => exact fun element member => ⟨keys element member, all element member⟩

namespace Items

variable {items : Items} {key : String} {item : Item}

theorem nil_distinct : Distinct [] := ⟨List.nodup_nil, by simp⟩

theorem Distinct.table (distinct : items.Distinct) (origin : Origin) :
    (Item.table origin items).Distinct :=
  .table origin distinct.keys distinct.all

theorem tables_distinct {elements : List Items} (each : ∀ element ∈ elements, Distinct element) :
    (Item.tables elements).Distinct :=
  .tables (fun element member => (each element member).keys)
    fun element member => (each element member).all

theorem Distinct.lookup (distinct : items.Distinct) (found : items.lookup key = some item) :
    item.Distinct :=
  distinct.all _ (mem_of_lookup found)

theorem mem_put {entry : String × Item} (member : entry ∈ put key item items) :
    entry = (key, item) ∨ entry ∈ items := by
  induction items with
  | nil => exact .inl (List.mem_singleton.1 member)
  | cons first rest ih =>
    obtain ⟨k, i⟩ := first
    rw [put] at member
    split at member
    · rename_i same
      subst same
      rcases List.mem_cons.1 member with here | behind
      · exact .inl here
      · exact .inr (List.mem_cons_of_mem _ behind)
    · rcases List.mem_cons.1 member with here | behind
      · exact .inr (here ▸ List.mem_cons_self)
      · exact (ih behind).imp_right (List.mem_cons_of_mem _)

theorem Distinct.put (distinct : items.Distinct) (item_distinct : item.Distinct) :
    (put key item items).Distinct := by
  refine ⟨?_, fun entry member => ?_⟩
  · replace distinct := distinct.keys
    induction items with
    | nil => exact List.nodup_singleton _
    | cons first rest ih =>
      obtain ⟨k, i⟩ := first
      rw [Items.put]
      split
      · exact distinct
      · rename_i other
        rw [List.map_cons, List.nodup_cons] at distinct ⊢
        refine ⟨fun again => ?_, ih distinct.2⟩
        obtain ⟨entry, member, same⟩ := List.mem_map.1 again
        rcases mem_put member with rfl | old
        · exact other same.symm
        · exact distinct.1 (same ▸ List.mem_map_of_mem old)
  · rcases mem_put member with rfl | old
    · exact item_distinct
    · exact distinct.all entry old

theorem Distinct.erase (distinct : items.Distinct) : (erase key items).Distinct := by
  refine ⟨?_, fun entry member => distinct.all entry (List.mem_filter.1 member).1⟩
  exact distinct.keys.sublist (List.filter_sublist.map _)

-- The path is followed as `alter` does it; only its end makes a change.
theorem Distinct.alter {dotted : Bool} {change : Origin → Items → Option Items}
    (keeps : ∀ origin items changed, Distinct items → change origin items = some changed →
      Distinct changed) {path : List String} {origin : Origin} {altered : Items}
    (distinct : items.Distinct) (done : alter dotted change path origin items = some altered) :
    altered.Distinct := by
  induction path generalizing origin items altered with
  | nil => exact keeps origin items altered distinct done
  | cons key path ih =>
    rw [Items.alter] at done
    split at done
    · obtain ⟨inner, step, made⟩ := Option.bind_eq_some_iff.1 done
      obtain rfl := Option.some.inj made
      exact distinct.put ((ih nil_distinct step).table _)
    · cases done
    · rename_i origin inner found
      split at done
      · cases done
      · obtain ⟨changed, step, rfl⟩ := Option.map_eq_some_iff.1 done
        exact distinct.put ((ih (distinct.lookup found).entries step).table _)
    · rename_i elements found
      split at done
      · cases done
      · rename_i last ends
        obtain ⟨changed, step, rfl⟩ := Option.map_eq_some_iff.1 done
        have each := (distinct.lookup found).elements
        have member := List.mem_of_getLast? ends
        refine distinct.put (tables_distinct fun element inside => ?_)
        rcases List.mem_append.1 inside with old | new
        · exact each element (List.dropLast_subset _ old)
        · obtain rfl := List.mem_singleton.1 new
          exact ih (each last member) step

theorem Distinct.openTable {path : List String} {opened : Items} (distinct : items.Distinct)
    (done : items.openTable path = some opened) : opened.Distinct := by
  obtain ⟨key, -, step⟩ := Option.bind_eq_some_iff.1 done
  refine distinct.alter (fun _ items changed distinct made => ?_) step
  split at made
  · obtain rfl := Option.some.inj made
    exact distinct.put (nil_distinct.table _)
  · rename_i inner found
    obtain rfl := Option.some.inj made
    exact distinct.erase.put ((distinct.lookup found).entries.table _)
  · cases made

theorem Distinct.openElement {path : List String} {opened : Items} (distinct : items.Distinct)
    (done : items.openElement path = some opened) : opened.Distinct := by
  obtain ⟨key, -, step⟩ := Option.bind_eq_some_iff.1 done
  refine distinct.alter (fun _ items changed distinct made => ?_) step
  split at made
  · obtain rfl := Option.some.inj made
    refine distinct.put (tables_distinct fun element inside => ?_)
    obtain rfl := List.mem_singleton.1 inside
    exact nil_distinct
  · rename_i elements found
    obtain rfl := Option.some.inj made
    refine distinct.put (tables_distinct fun element inside => ?_)
    rcases List.mem_append.1 inside with old | new
    · exact (distinct.lookup found).elements element old
    · obtain rfl := List.mem_singleton.1 new
      exact nil_distinct
  · cases made

theorem Distinct.assign {path : List String} {value : Value} {origin : Origin} {assigned : Items}
    (distinct : items.Distinct) (value_distinct : value.Distinct)
    (done : items.assign path value origin = some assigned) : assigned.Distinct := by
  obtain ⟨key, -, step⟩ := Option.bind_eq_some_iff.1 done
  refine distinct.alter (fun _ items changed distinct made => ?_) step
  split at made
  · cases made
  · split at made
    · obtain rfl := Option.some.inj made
      exact distinct.put (.value value_distinct)
    · cases made

end Items

theorem entryValues_eq_map (items : Items) :
    entryValues items = items.map fun entry => (entry.1, entry.2.toValue) := by
  induction items with
  | nil => rfl
  | cons entry rest ih => exact congrArg (_ :: ·) ih

theorem elementValues_eq_map (elements : List Items) :
    elementValues elements = elements.map fun element => .table (entryValues element) := by
  induction elements with
  | nil => rfl
  | cons element rest ih => exact congrArg (_ :: ·) ih

theorem map_fst_entryValues (items : Items) :
    (entryValues items).map Prod.fst = items.map Prod.fst := by
  rw [entryValues_eq_map, List.map_map]
  rfl

theorem Item.Distinct.toValue {item : Item} (distinct : item.Distinct) :
    item.toValue.Distinct := by
  have entryValues {items : Items} (ih : ∀ entry ∈ items, entry.2.toValue.Distinct) :
      ∀ entry ∈ entryValues items, entry.2.Distinct := by
    rw [entryValues_eq_map, List.forall_mem_map]
    exact ih
  induction distinct with
  | value distinct => exact distinct
  | table origin keys all ih =>
    exact .table (by rwa [map_fst_entryValues]) (entryValues ih)
  | tables keys all ih =>
    rw [Item.toValue, elementValues_eq_map]
    refine .array (List.forall_mem_map.2 fun element member => ?_)
    exact .table (by rw [map_fst_entryValues]; exact keys element member)
      (entryValues (ih element member))

theorem Items.Distinct.entryValues {items : Items} (distinct : items.Distinct) :
    Table.Distinct (entryValues items) := by
  refine ⟨by rw [map_fst_entryValues]; exact distinct.keys, ?_⟩
  rw [entryValues_eq_map, List.forall_mem_map]
  exact fun entry member => (distinct.all entry member).toValue

namespace Reader

theorem bare?_distinct {s rest : List Char} {v : Value} (found : bare? s = some (v, rest)) :
    v.Distinct := by
  unfold bare? at found
  dsimp only at found
  split at found
  · cases found
    exact .flag true
  · split at found
    · cases found
      exact .flag false
    · split at found
      · obtain ⟨behind, -, made⟩ := Option.bind_eq_some_iff.1 found
        split at made
        · cases made
          exact .time _
        · cases made
          exact .time _
      · split at found
        · cases found
          exact .time _
        · split at found
          · cases found
            exact .integer _
          · split at found
            · cases found
              exact .float _
            · cases found

structure ReadsDistinct (fuel : Nat) : Prop where
  value : ∀ depth s v rest, value? fuel depth s = some (v, rest) → v.Distinct
  elements : ∀ depth s vs rest, elements? fuel depth s = some (vs, rest) → ∀ v ∈ vs, v.Distinct
  pairs : ∀ depth (items : Items) s (read : Items) rest, items.Distinct →
    pairs? fuel depth items s = some (read, rest) → read.Distinct

variable {fuel : Nat}

theorem ReadsDistinct.value_succ (ih : ReadsDistinct fuel) (depth : Nat) (s : List Char)
    (v : Value) (rest : List Char) (found : value? (fuel + 1) depth s = some (v, rest)) :
    v.Distinct := by
  rw [value?.eq_def] at found
  dsimp only at found
  split at found
  · obtain ⟨_, -, made⟩ := Option.map_eq_some_iff.1 found
    cases made
    exact .text _
  · obtain ⟨_, -, made⟩ := Option.map_eq_some_iff.1 found
    cases made
    exact .text _
  · split at found
    · cases found
    · obtain ⟨⟨vs, _⟩, read, made⟩ := Option.map_eq_some_iff.1 found
      cases made
      exact .array (ih.elements _ _ vs _ read)
  · split at found
    · cases found
    · split at found
      · cases found
        exact .table List.nodup_nil (by simp)
      · obtain ⟨⟨items, _⟩, read, made⟩ := Option.bind_eq_some_iff.1 found
        cases made
        exact ((ih.pairs _ _ _ items _ Items.nil_distinct read).table .header).toValue
  · exact bare?_distinct found

theorem ReadsDistinct.elements_succ (ih : ReadsDistinct fuel) (depth : Nat) (s : List Char)
    (vs : List Value) (rest : List Char) (found : elements? (fuel + 1) depth s = some (vs, rest)) :
    ∀ v ∈ vs, v.Distinct := by
  rw [elements?.eq_def] at found
  dsimp only at found
  obtain ⟨_, -, found⟩ := Option.bind_eq_some_iff.1 found
  split at found
  · cases found
    simp
  · obtain ⟨⟨first, _⟩, read, found⟩ := Option.bind_eq_some_iff.1 found
    have first_distinct := ih.value _ _ first _ read
    obtain ⟨_, -, found⟩ := Option.bind_eq_some_iff.1 found
    split at found
    · obtain ⟨⟨others, _⟩, read, made⟩ := Option.bind_eq_some_iff.1 found
      cases made
      exact List.forall_mem_cons.2 ⟨first_distinct, ih.elements _ _ others _ read⟩
    · cases found
      simpa using first_distinct
    · cases found

theorem ReadsDistinct.pairs_succ (ih : ReadsDistinct fuel) (depth : Nat) (items : Items)
    (s : List Char) (read : Items) (rest : List Char) (distinct : items.Distinct)
    (found : pairs? (fuel + 1) depth items s = some (read, rest)) : read.Distinct := by
  rw [pairs?.eq_def] at found
  dsimp only at found
  obtain ⟨⟨key, _⟩, -, found⟩ := Option.bind_eq_some_iff.1 found
  obtain ⟨_, -, found⟩ := Option.bind_eq_some_iff.1 found
  obtain ⟨⟨v, _⟩, value, found⟩ := Option.bind_eq_some_iff.1 found
  obtain ⟨more, assigned, found⟩ := Option.bind_eq_some_iff.1 found
  have more_distinct := distinct.assign (ih.value _ _ v _ value) assigned
  split at found
  · exact ih.pairs _ more _ read _ more_distinct found
  · cases found
    exact more_distinct
  · cases found

-- The three readers call each other, each time with less fuel.
theorem readsDistinct (fuel : Nat) : ReadsDistinct fuel := by
  induction fuel with
  | zero => exact ⟨by simp [value?], by simp [elements?], by simp [pairs?]⟩
  | succ fuel ih => exact ⟨ih.value_succ, ih.elements_succ, ih.pairs_succ⟩

theorem statement?_distinct {p q : Progress} {s rest : List Char} (distinct : p.items.Distinct)
    (found : statement? p s = some (q, rest)) : q.items.Distinct := by
  unfold statement? at found
  split at found
  · obtain ⟨⟨path, _⟩, -, found⟩ := Option.bind_eq_some_iff.1 found
    obtain ⟨_, -, found⟩ := Option.bind_eq_some_iff.1 found
    obtain ⟨_, -, found⟩ := Option.bind_eq_some_iff.1 found
    obtain ⟨items, opened, found⟩ := Option.bind_eq_some_iff.1 found
    obtain ⟨_, -, made⟩ := Option.bind_eq_some_iff.1 found
    cases made
    exact distinct.openElement opened
  · obtain ⟨⟨path, _⟩, -, found⟩ := Option.bind_eq_some_iff.1 found
    obtain ⟨_, -, found⟩ := Option.bind_eq_some_iff.1 found
    obtain ⟨items, opened, found⟩ := Option.bind_eq_some_iff.1 found
    obtain ⟨_, -, made⟩ := Option.bind_eq_some_iff.1 found
    cases made
    exact distinct.openTable opened
  · obtain ⟨_, -, made⟩ := Option.bind_eq_some_iff.1 found
    cases made
    exact distinct
  · cases found
    exact distinct
  · cases found
    exact distinct
  · obtain ⟨⟨path, _⟩, -, found⟩ := Option.bind_eq_some_iff.1 found
    obtain ⟨_, -, found⟩ := Option.bind_eq_some_iff.1 found
    obtain ⟨⟨v, _⟩, value, found⟩ := Option.bind_eq_some_iff.1 found
    obtain ⟨items, assigned, found⟩ := Option.bind_eq_some_iff.1 found
    obtain ⟨_, -, made⟩ := Option.bind_eq_some_iff.1 found
    cases made
    have value_distinct := (readsDistinct _).value _ _ v _ value
    exact distinct.alter (fun _ _ _ inner done => inner.assign value_distinct done) assigned

theorem statements?_distinct {fuel : Nat} {p : Progress} {s : List Char} {items : Items}
    (distinct : p.items.Distinct) (found : statements? fuel p s = some items) :
    items.Distinct := by
  induction fuel generalizing p s with
  | zero => cases found
  | succ fuel ih =>
    rw [statements?] at found
    split at found
    · cases found
      exact distinct
    · obtain ⟨⟨q, rest⟩, step, found⟩ := Option.bind_eq_some_iff.1 found
      exact ih (statement?_distinct distinct step) found

end Reader

theorem exists_of_settleItems? {items settled : List Value}
    (done : settleItems? items = some settled) :
    ∀ v ∈ settled, ∃ old ∈ items, old.settle? = some v := by
  induction items generalizing settled with
  | nil =>
    cases done
    simp
  | cons item rest ih =>
    obtain ⟨v, here, done⟩ := Option.bind_eq_some_iff.1 done
    obtain ⟨others, behind, made⟩ := Option.bind_eq_some_iff.1 done
    cases made
    refine List.forall_mem_cons.2 ⟨⟨item, List.mem_cons_self, here⟩, fun v member => ?_⟩
    obtain ⟨old, inside, settle⟩ := ih behind v member
    exact ⟨old, List.mem_cons_of_mem _ inside, settle⟩

theorem map_fst_settleEntries? {table settled : List (String × Value)}
    (done : settleEntries? table = some settled) :
    settled.map Prod.fst = table.map Prod.fst := by
  induction table generalizing settled with
  | nil =>
    cases done
    rfl
  | cons entry rest ih =>
    obtain ⟨v, -, done⟩ := Option.bind_eq_some_iff.1 done
    obtain ⟨others, behind, made⟩ := Option.bind_eq_some_iff.1 done
    cases made
    exact congrArg (entry.1 :: ·) (ih behind)

theorem settleItems?_map_snd {table settled : List (String × Value)}
    (done : settleEntries? table = some settled) :
    settleItems? (table.map Prod.snd) = some (settled.map Prod.snd) := by
  induction table generalizing settled with
  | nil =>
    cases done
    rfl
  | cons entry rest ih =>
    obtain ⟨v, here, done⟩ := Option.bind_eq_some_iff.1 done
    obtain ⟨others, behind, made⟩ := Option.bind_eq_some_iff.1 done
    cases made
    rw [List.map_cons, settleItems?, here, ih behind]
    rfl

theorem settleEntries?_keeps {table settled : List (String × Value)}
    (done : settleEntries? table = some settled) (keys : (table.map Prod.fst).Nodup)
    (each : ∀ entry ∈ table, ∀ v, entry.2.settle? = some v → v.Distinct) :
    Table.Distinct settled := by
  refine ⟨by rwa [map_fst_settleEntries? done], fun entry member => ?_⟩
  obtain ⟨old, inside, settle⟩ :=
    exists_of_settleItems? (settleItems?_map_snd done) entry.2 (List.mem_map_of_mem member)
  obtain ⟨before, listed, rfl⟩ := List.mem_map.1 inside
  exact each before listed entry.2 settle

theorem Value.Distinct.settle? {v settled : Value} (distinct : v.Distinct)
    (done : v.settle? = some settled) : settled.Distinct := by
  induction distinct generalizing settled with
  | text | integer | float | flag | time =>
    cases done
    constructor
  | array all ih =>
    obtain ⟨others, step, rfl⟩ := Option.map_eq_some_iff.1 done
    refine .array fun v member => ?_
    obtain ⟨old, inside, settle⟩ := exists_of_settleItems? step v member
    exact ih old inside settle
  | table keys all ih =>
    rw [Value.settle?] at done
    split at done
    · rename_i v _
      cases v with
      | text s =>
        obtain ⟨time, -, rfl⟩ := Option.map_eq_some_iff.1 done
        exact .time _
      | _ => cases done
    · obtain ⟨others, step, rfl⟩ := Option.map_eq_some_iff.1 done
      have distinct := settleEntries?_keeps step keys fun entry member _ => ih entry member
      exact .table distinct.keys distinct.all

theorem read?_distinct {text : String} {table : Table} (found : read? text = some table) :
    table.Distinct := by
  obtain ⟨items, read, settled⟩ := Option.bind_eq_some_iff.1 found
  have distinct := Reader.statements?_distinct Items.nil_distinct read
  have values := distinct.entryValues
  exact settleEntries?_keeps settled values.keys fun entry member _ =>
    (values.all entry member).settle?

end ScoreDesk.Toml
