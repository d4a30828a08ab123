import Mathlib.Algebra.BigOperators.Group.List.Basic
import Mathlib.Algebra.Order.Ring.Int
import Mathlib.Data.List.AList

/-! Finite maps with an iteration order, as association lists without repeated keys.
The association list of Mathlib carries the key invariant; this module adds the in-place
update, the search over values and the sum over values that containers of records need.
-/

namespace Foundation

abbrev Table (κ ν : Type*) := AList (fun _ : κ => ν)

namespace Table

variable {κ ν ν' : Type*}

def values (table : Table κ ν) : List ν := table.entries.map Sigma.snd

def sum (table : Table κ ν) (measure : ν → Int) : Int :=
  (table.entries.map (fun entry => measure entry.2)).sum

def search (table : Table κ ν) (wanted : κ → ν → Bool) : Option ((_ : κ) × ν) :=
  table.entries.find? (fun entry => wanted entry.1 entry.2)

def mapValues (table : Table κ ν) (f : ν → ν') : Table κ ν' :=
  ⟨table.entries.map (fun entry => ⟨entry.1, f entry.2⟩), by
    simpa [List.NodupKeys, List.keys, Function.comp_def] using table.nodupKeys⟩

def mapEntries (table : Table κ ν) (f : κ → ν → ν') : Table κ ν' :=
  ⟨table.entries.map (fun entry => ⟨entry.1, f entry.1 entry.2⟩), by
    simpa [List.NodupKeys, List.keys, Function.comp_def] using table.nodupKeys⟩

def filter (table : Table κ ν) (keep : κ → ν → Bool) : Table κ ν :=
  ⟨table.entries.filter (fun entry => keep entry.1 entry.2),
    table.nodupKeys.sublist List.filter_sublist⟩

variable [DecidableEq κ]

def get? (table : Table κ ν) (key : κ) : Option ν := table.lookup key

/-- Change the value stored under a key in place; a missing key changes nothing. -/
def modify (table : Table κ ν) (key : κ) (change : ν → ν) : Table κ ν :=
  ⟨table.entries.map (fun entry => if entry.1 = key then ⟨entry.1, change entry.2⟩ else entry), by
    have keys : ∀ entry : (_ : κ) × ν,
        (if entry.1 = key then (⟨entry.1, change entry.2⟩ : (_ : κ) × ν) else entry).1 = entry.1 := by
      intro entry
      split <;> rfl
    simpa [List.NodupKeys, List.keys, Function.comp_def, keys] using table.nodupKeys⟩

def emplace (table : Table κ ν) (key : κ) (value : ν) : Table κ ν :=
  if (table.get? key).isSome then table else AList.insert key value table

def put (table : Table κ ν) (key : κ) (value : ν) : Table κ ν :=
  if (table.get? key).isSome then table.modify key (fun _ => value)
  else AList.insert key value table

def remove (table : Table κ ν) (key : κ) : Table κ ν := AList.erase key table

-- Lookups after each operation

@[simp] theorem get?_empty (key : κ) : get? (∅ : Table κ ν) key = none := rfl

private theorem dlookup_change (entries : List ((_ : κ) × ν)) (key other : κ) (change : ν → ν)
    : (entries.map (fun entry =>
          if entry.1 = key then (⟨entry.1, change entry.2⟩ : (_ : κ) × ν) else entry)).dlookup other
      = if other = key then (entries.dlookup other).map change else entries.dlookup other := by
  induction entries with
  | nil => simp
  | cons entry rest ih =>
      obtain ⟨stored, value⟩ := entry
      by_cases here : other = stored
      · subst here
        by_cases same : other = key
        · subst same
          simp
        · simp [same]
      · rw [List.map_cons, List.dlookup_cons_ne _ _ (by split <;> exact here), ih,
          List.dlookup_cons_ne _ _ here]

@[simp] theorem get?_mapEntries (table : Table κ ν) (f : κ → ν → ν') (key : κ)
    : (table.mapEntries f).get? key = (table.get? key).map (f key) := by
  unfold mapEntries get? AList.lookup
  dsimp only
  induction table.entries with
  | nil => rfl
  | cons entry rest ih =>
      obtain ⟨stored, value⟩ := entry
      by_cases here : key = stored
      · subst here
        simp
      · rw [List.map_cons, List.dlookup_cons_ne _ _ here, ih, List.dlookup_cons_ne _ _ here]

theorem get?_modify (table : Table κ ν) (key other : κ) (change : ν → ν)
    : (table.modify key change).get? other
      = if other = key then (table.get? other).map change else table.get? other :=
  dlookup_change table.entries key other change

@[simp] theorem get?_modify_self (table : Table κ ν) (key : κ) (change : ν → ν)
    : (table.modify key change).get? key = (table.get? key).map change := by
  simp [get?_modify]

theorem get?_modify_of_ne (table : Table κ ν) {key other : κ} (change : ν → ν) (h : other ≠ key)
    : (table.modify key change).get? other = table.get? other := by
  simp [get?_modify, h]

/-- Changes that agree on the stored value are the same change. -/
theorem modify_congr {table : Table κ ν} {key : κ} {value : ν} (found : table.get? key = some value)
    {change other : ν → ν} (agree : change value = other value)
    : table.modify key change = table.modify key other := by
  refine AList.ext (List.map_congr_left (fun entry member => ?_))
  by_cases here : entry.1 = key
  · have stored : table.get? key = some entry.2 := by
      subst here
      exact AList.mem_lookup_iff.mpr member
    obtain rfl := Option.some.inj (found.symm.trans stored)
    rw [if_pos here, if_pos here, agree]
  · rw [if_neg here, if_neg here]

/-- A missing key changes nothing. -/
theorem modify_of_absent {table : Table κ ν} {key : κ} (absent : table.get? key = none)
    (change : ν → ν)
    : table.modify key change = table := by
  refine AList.ext ((List.map_congr_left (fun entry member => ?_)).trans (List.map_id _))
  rw [id, if_neg]
  intro here
  have stored : table.get? entry.1 = some entry.2 := AList.mem_lookup_iff.mpr member
  rw [here, absent] at stored
  cases stored

/-- Two changes under one key are one change. -/
theorem modify_modify (table : Table κ ν) (key : κ) (change later : ν → ν)
    : (table.modify key change).modify key later
      = table.modify key (fun value => later (change value)) := by
  refine AList.ext ((List.map_map).trans (List.map_congr_left (fun entry _ => ?_)))
  rw [Function.comp_apply]
  by_cases here : entry.1 = key
  · simp only [here, if_true]
  · simp only [here, if_false]

theorem get?_remove (table : Table κ ν) (key other : κ)
    : (table.remove key).get? other = if other = key then none else table.get? other := by
  by_cases same : other = key
  · subst same
    simp [remove, get?, AList.lookup_erase]
  · simp [remove, get?, same, AList.lookup_erase_ne same]

@[simp] theorem get?_remove_self (table : Table κ ν) (key : κ)
    : (table.remove key).get? key = none := by
  simp [get?_remove]

theorem get?_remove_of_ne (table : Table κ ν) {key other : κ} (h : other ≠ key)
    : (table.remove key).get? other = table.get? other := by
  simp [get?_remove, h]

/-- Removing a stored key leaves fewer entries. -/
theorem length_remove_lt {table : Table κ ν} {key : κ} {value : ν}
    (found : table.get? key = some value)
    : (table.remove key).entries.length < table.entries.length := by
  have stored : (table.get? key).isSome := by simp [found]
  have member : key ∈ table.keys := AList.mem_keys.mp (AList.lookup_isSome.mp stored)
  have shorter := List.length_erase_of_mem member
  have positive := List.length_pos_of_mem member
  have kept := congrArg List.length (AList.keys_erase key table)
  simp only [AList.keys, List.keys, List.length_map] at shorter positive kept
  rw [remove, kept, shorter]
  omega

/-- Removing a missing key changes nothing. -/
theorem remove_of_absent {table : Table κ ν} {key : κ} (absent : table.get? key = none)
    : table.remove key = table :=
  AList.ext (List.kerase_of_notMem_keys (AList.lookup_eq_none.mp absent))

theorem get?_emplace (table : Table κ ν) (key other : κ) (value : ν)
    : (table.emplace key value).get? other
      = if other = key then some ((table.get? key).getD value) else table.get? other := by
  unfold emplace
  cases found : table.get? key with
  | some stored =>
      by_cases same : other = key
      · simp [same, found]
      · simp [same]
  | none =>
      by_cases same : other = key
      · subst same
        simp [get?, AList.lookup_insert]
      · simp [get?, same, AList.lookup_insert_ne same]

theorem get?_put (table : Table κ ν) (key other : κ) (value : ν)
    : (table.put key value).get? other
      = if other = key then some value else table.get? other := by
  unfold put
  cases found : table.get? key with
  | some stored =>
      by_cases same : other = key
      · simp [same, found]
      · simp [same, get?_modify_of_ne]
  | none =>
      by_cases same : other = key
      · subst same
        simp [get?, AList.lookup_insert]
      · simp [get?, same, AList.lookup_insert_ne same]

private theorem dlookup_mapValues (entries : List ((_ : κ) × ν)) (f : ν → ν') (key : κ)
    : ((entries.map (fun entry => (⟨entry.1, f entry.2⟩ : (_ : κ) × ν'))).dlookup key : Option ν')
      = (entries.dlookup key : Option ν).map f := by
  induction entries with
  | nil => rfl
  | cons entry rest ih =>
      obtain ⟨stored, value⟩ := entry
      by_cases here : key = stored
      · subst here
        simp
      · rw [List.map_cons, List.dlookup_cons_ne _ _ here, ih, List.dlookup_cons_ne _ _ here]

@[simp] theorem get?_mapValues (table : Table κ ν) (f : ν → ν') (key : κ)
    : (table.mapValues f).get? key = (table.get? key).map f :=
  dlookup_mapValues table.entries f key

theorem get?_eq_some_iff {table : Table κ ν} {key : κ} {value : ν}
    : table.get? key = some value ↔ ⟨key, value⟩ ∈ table.entries :=
  AList.mem_lookup_iff

theorem get?_filter (table : Table κ ν) (keep : κ → ν → Bool) (key : κ)
    : (table.filter keep).get? key = (table.get? key).filter (keep key) := by
  apply Option.ext
  intro value
  rw [get?_eq_some_iff, Option.filter_eq_some_iff, get?_eq_some_iff]
  exact List.mem_filter

-- Values and sums

/-- A stored value is one some key finds. -/
theorem mem_values_iff {table : Table κ ν} {value : ν}
    : value ∈ table.values ↔ ∃ key, table.get? key = some value := by
  simp only [values, List.mem_map, get?_eq_some_iff]
  constructor
  · rintro ⟨⟨key, stored⟩, member, rfl⟩
    exact ⟨key, member⟩
  · rintro ⟨key, member⟩
    exact ⟨⟨key, value⟩, member, rfl⟩

/-- A successful search names a stored entry that passes the test. -/
theorem get?_of_search {table : Table κ ν} {wanted : κ → ν → Bool} {entry : (_ : κ) × ν}
    (h : table.search wanted = some entry)
    : table.get? entry.1 = some entry.2 ∧ wanted entry.1 entry.2 = true :=
  ⟨get?_eq_some_iff.mpr (List.mem_of_find?_eq_some h), by simpa using List.find?_some h⟩

/-- A search passes over a change that its test does not see. -/
theorem search_modify {table : Table κ ν} {key : κ} {change : ν → ν} (wanted : κ → ν → Bool)
    (same : ∀ value, wanted key (change value) = wanted key value)
    : (table.modify key change).search wanted
      = (table.search wanted).map (fun entry =>
          if entry.1 = key then ⟨entry.1, change entry.2⟩ else entry) := by
  unfold search modify
  rw [List.find?_map]
  congr 2
  funext entry
  simp only [Function.comp_apply]
  split
  · next here => rw [here, same, ← here]
  · rfl

/-- A search finds a new entry where it passes the test, and otherwise what it found before. -/
theorem search_put_of_absent {table : Table κ ν} {key : κ} (absent : table.get? key = none)
    {value : ν} {wanted : κ → ν → Bool}
    : (table.put key value).search wanted
      = if wanted key value then some ⟨key, value⟩ else table.search wanted := by
  have missing : key ∉ table := AList.lookup_eq_none.mp absent
  unfold put search
  rw [absent, if_neg (by simp), AList.entries_insert_of_notMem missing, List.find?_cons]
  split
  · next yes => rw [if_pos yes]
  · next no => rw [if_neg (by simp [no])]

private theorem sum_map_change {entries : List ((_ : κ) × ν)} (distinct : entries.NodupKeys)
    {key : κ} {value : ν} (found : entries.dlookup key = some value)
    (change : ν → ν) (measure : ν → Int)
    : ((entries.map (fun entry =>
          if entry.1 = key then (⟨entry.1, change entry.2⟩ : (_ : κ) × ν) else entry)).map
            (fun entry => measure entry.2)).sum
      = (entries.map (fun entry => measure entry.2)).sum - measure value + measure (change value) := by
  induction entries with
  | nil => simp at found
  | cons entry rest ih =>
      obtain ⟨stored, here⟩ := entry
      have tail := List.nodupKeys_cons.mp distinct
      by_cases same : key = stored
      · subst same
        have unchanged : rest.map (fun entry => if entry.1 = key then
            (⟨entry.1, change entry.2⟩ : (_ : κ) × ν) else entry) = rest := by
          calc
            rest.map _ = rest.map id := by
              refine List.map_congr_left (fun entry member => if_neg ?_)
              rintro rfl
              have repeated : entry.1 ∈ rest.keys := List.mem_keys_of_mem member
              exact tail.1 repeated
            _ = rest := List.map_id rest
        rw [List.dlookup_cons_eq, Option.some.injEq] at found
        subst found
        simp only [List.map_cons, if_true, unchanged, List.sum_cons]
        omega
      · rw [List.dlookup_cons_ne _ _ same] at found
        have next := ih tail.2 found
        have other : ¬ stored = key := fun h => same h.symm
        simp only [List.map_cons, List.sum_cons, if_neg other] at next ⊢
        omega

/-- A change in place moves the sum by what it does to the stored value's measure. -/
theorem sum_modify {table : Table κ ν} {key : κ} {value : ν} (found : table.get? key = some value)
    (change : ν → ν) (measure : ν → Int)
    : (table.modify key change).sum measure
      = table.sum measure - measure value + measure (change value) :=
  sum_map_change table.nodupKeys found change measure

private theorem sum_kerase {entries : List ((_ : κ) × ν)} {key : κ} {value : ν}
    (found : entries.dlookup key = some value) (measure : ν → Int)
    : ((entries.kerase key).map (fun entry => measure entry.2)).sum
      = (entries.map (fun entry => measure entry.2)).sum - measure value := by
  induction entries with
  | nil => simp at found
  | cons entry rest ih =>
      obtain ⟨stored, here⟩ := entry
      by_cases same : key = stored
      · subst same
        rw [List.dlookup_cons_eq, Option.some.injEq] at found
        subst found
        have erased : List.kerase key ((⟨key, here⟩ : (_ : κ) × ν) :: rest) = rest :=
          List.kerase_cons_eq rfl
        rw [erased, List.map_cons, List.sum_cons]
        exact (add_sub_cancel_left (measure here) _).symm
      · rw [List.dlookup_cons_ne _ _ same] at found
        have next := ih found
        rw [List.kerase_cons_ne same, List.map_cons, List.map_cons, List.sum_cons, List.sum_cons]
        omega

/-- Removing an entry takes its measure out of the sum. -/
theorem sum_remove {table : Table κ ν} {key : κ} {value : ν} (found : table.get? key = some value)
    (measure : ν → Int)
    : (table.remove key).sum measure = table.sum measure - measure value :=
  sum_kerase found measure

/-- A new entry adds its measure to the sum. -/
theorem sum_emplace {table : Table κ ν} {key : κ} (absent : table.get? key = none)
    (value : ν) (measure : ν → Int)
    : (table.emplace key value).sum measure = table.sum measure + measure value := by
  have unchanged : table.entries.kerase key = table.entries :=
    List.kerase_of_notMem_keys (AList.lookup_eq_none.mp absent)
  unfold emplace sum
  rw [absent, if_neg (by simp), AList.entries_insert, unchanged, List.map_cons,
    List.sum_cons]
  exact add_comm (measure value) _

omit [DecidableEq κ] in
omit [DecidableEq κ] in
def count (table : Table κ ν) (wanted : ν → Bool) : Nat := table.values.countP wanted

omit [DecidableEq κ] in
/-- Counting is summing an indicator. -/
theorem count_eq_sum (table : Table κ ν) (wanted : ν → Bool)
    : (table.count wanted : Int) = table.sum (fun value => if wanted value then 1 else 0) := by
  unfold count values sum
  rw [List.countP_map]
  induction table.entries with
  | nil => rfl
  | cons entry rest ih =>
      rw [List.map_cons, List.sum_cons, List.countP_cons, ← ih, Function.comp_apply]
      push_cast
      exact add_comm _ _

omit [DecidableEq κ] in
theorem count_mapValues (table : Table κ ν) (f : ν → ν') (wanted : ν' → Bool)
    : (table.mapValues f).count wanted = table.count (fun value => wanted (f value)) := by
  simp [count, values, mapValues, List.countP_map, Function.comp_def]

omit [DecidableEq κ] in
theorem count_filter (table : Table κ ν) (keep wanted : ν → Bool)
    : (table.filter (fun _ value => keep value)).count wanted
      = table.count (fun value => wanted value && keep value) := by
  unfold count values filter
  rw [List.countP_map, List.countP_filter, List.countP_map]
  rfl

theorem count_modify {table : Table κ ν} {key : κ} {value : ν} (found : table.get? key = some value)
    (change : ν → ν) (wanted : ν → Bool)
    : (table.modify key change).count wanted + (if wanted value then 1 else 0)
      = table.count wanted + if wanted (change value) then 1 else 0 := by
  have moved := sum_modify found change (fun value => if wanted value then 1 else 0)
  rw [← count_eq_sum, ← count_eq_sum] at moved
  split at moved <;> split at moved <;> simp_all only [if_true, if_false, Bool.false_eq_true] <;>
    omega

/-- A change that the predicate does not see. -/
theorem count_modify_of_same (table : Table κ ν) (key : κ) {change : ν → ν} {wanted : ν → Bool}
    (same : ∀ value, wanted (change value) = wanted value)
    : (table.modify key change).count wanted = table.count wanted := by
  unfold count values modify
  rw [List.map_map, List.countP_map, List.countP_map]
  refine List.countP_congr (fun entry _ => ?_)
  rw [Function.comp_apply, Function.comp_apply, Function.comp_apply]
  split
  · rw [same]
  · rfl

theorem count_remove {table : Table κ ν} {key : κ} {value : ν} (found : table.get? key = some value)
    (wanted : ν → Bool)
    : (table.remove key).count wanted + (if wanted value then 1 else 0) = table.count wanted := by
  have moved := sum_remove found (fun value => if wanted value then 1 else 0)
  rw [← count_eq_sum, ← count_eq_sum] at moved
  split at moved <;> simp_all only [if_true, if_false, Bool.false_eq_true] <;> omega

/-- A value under a new key is counted once. -/
theorem count_put {table : Table κ ν} {key : κ} (absent : table.get? key = none) (value : ν)
    (wanted : ν → Bool)
    : (table.put key value).count wanted
      = table.count wanted + if wanted value then 1 else 0 := by
  have moved := sum_emplace absent value (fun value => if wanted value then 1 else 0)
  have same : table.put key value = table.emplace key value := by
    unfold put emplace
    rw [absent]
    rfl
  rw [← same, ← count_eq_sum, ← count_eq_sum] at moved
  split at moved <;> simp_all only [if_true, if_false, Bool.false_eq_true] <;> omega

theorem mem_keys_iff {table : Table κ ν} {key : κ} : key ∈ table.keys ↔ (table.get? key).isSome :=
  AList.mem_keys.symm.trans AList.lookup_isSome.symm

end Table

end Foundation
