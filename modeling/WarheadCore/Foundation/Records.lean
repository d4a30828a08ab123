import Mathlib.Data.List.Nodup
import Mathlib.Data.List.Perm.Subperm

/-! Lists of records that are found by a key: the first record with a key is the one that lookups,
changes in place and removals mean.
-/

namespace Foundation.Records

variable {α κ : Type*} [DecidableEq κ] (key : α → κ)

def find (records : List α) (wanted : κ) : Option α :=
  records.find? (fun record => decide (key record = wanted))

def update (wanted : κ) (change : α → α) : List α → List α
  | [] => []
  | record :: rest =>
      if key record = wanted then change record :: rest else record :: update wanted change rest

def erase (records : List α) (wanted : κ) : List α :=
  records.eraseP (fun record => decide (key record = wanted))

variable {key} {records : List α} {wanted other : κ} {record : α} {change : α → α}

/-- A record that is found is in the list and has the key. -/
theorem mem_of_find (found : find key records wanted = some record)
    : record ∈ records ∧ key record = wanted := by
  unfold find at found
  exact ⟨List.mem_of_find?_eq_some found, by simpa using List.find?_some found⟩

/-- No record is found exactly when the key is not among the keys. -/
theorem find_eq_none : find key records wanted = none ↔ wanted ∉ records.map key := by
  simp [find]

/-- Among distinct keys every record is found under its own. -/
theorem find_of_mem (distinct : (records.map key).Nodup) (member : record ∈ records)
    : find key records (key record) = some record := by
  induction records with
  | nil => cases member
  | cons head rest ih =>
      rw [List.map_cons, List.nodup_cons] at distinct
      rcases List.mem_cons.mp member with rfl | later
      · simp [find]
      · have different : key head ≠ key record := by
          intro same
          exact distinct.1 (same ▸ List.mem_map_of_mem later)
        have rest := ih distinct.2 later
        unfold find at rest ⊢
        rw [List.find?_cons_of_neg (by simpa using different), rest]

theorem find_append_single (records : List α) (record : α) (wanted : κ)
    (fresh : key record ∉ records.map key)
    : find key (records ++ [record]) wanted
      = if wanted = key record then some record else find key records wanted := by
  have before := find_eq_none.mpr fresh
  unfold find at before ⊢
  rw [List.find?_append]
  by_cases here : wanted = key record
  · subst here
    rw [before]
    simp
  · rw [if_neg here]
    have other : ¬ key record = wanted := fun same => here same.symm
    simp [other]

/-- A change that keeps the key keeps all keys. -/
theorem keys_update (keeps : ∀ record, key (change record) = key record)
    : (update key wanted change records).map key = records.map key := by
  induction records with
  | nil => rfl
  | cons head rest ih =>
      unfold update
      split
      · rw [List.map_cons, List.map_cons, keeps]
      · rw [List.map_cons, List.map_cons, ih]

theorem find_update (keeps : ∀ record, key (change record) = key record)
    : find key (update key wanted change records) other
      = if other = wanted then (find key records wanted).map change else find key records other := by
  induction records with
  | nil => simp [find, update]
  | cons head rest ih =>
      unfold update
      by_cases first : key head = wanted
      · rw [if_pos first]
        by_cases here : other = wanted
        · simp [find, keeps, first, here]
        · have away : ¬ wanted = other := fun same => here same.symm
          simp [find, keeps, first, here, away]
      · rw [if_neg first]
        unfold find at ih ⊢
        by_cases here : other = wanted
        · subst here
          simpa [first] using ih
        · by_cases stored : key head = other
          · simp [stored, here]
          · simpa [stored, here] using ih

/-- A changed list holds the changed record and the others. -/
theorem mem_update {changed : α} (member : changed ∈ update key wanted change records)
    : changed ∈ records ∨ ∃ record, find key records wanted = some record ∧ changed = change record := by
  induction records with
  | nil => cases member
  | cons head rest ih =>
      unfold update at member
      split at member
      · rename_i first
        rcases List.mem_cons.mp member with rfl | later
        · exact .inr ⟨head, by simp [find, first], rfl⟩
        · exact .inl (List.mem_cons_of_mem _ later)
      · rename_i first
        rcases List.mem_cons.mp member with rfl | later
        · exact .inl List.mem_cons_self
        · rcases ih later with old | ⟨record, found, same⟩
          · exact .inl (List.mem_cons_of_mem _ old)
          · refine .inr ⟨record, ?_, same⟩
            unfold find at found ⊢
            rw [List.find?_cons_of_neg (by simpa using first), found]

/-- Changing a record changes a count by the difference. -/
theorem countP_update (found : find key records wanted = some record) (p : α → Bool)
    : (update key wanted change records).countP p + (if p record then 1 else 0)
      = records.countP p + (if p (change record) then 1 else 0) := by
  induction records with
  | nil => cases found
  | cons head rest ih =>
      unfold update
      by_cases first : key head = wanted
      · obtain rfl : head = record := by simpa [find, first] using found
        rw [if_pos first, List.countP_cons, List.countP_cons]
        omega
      · have later : find key rest wanted = some record := by simpa [find, first] using found
        have rest := ih later
        rw [if_neg first, List.countP_cons, List.countP_cons]
        omega

/-- A change that leaves the record it finds changes nothing. -/
theorem update_of_fixed (fixed : ∀ record, find key records wanted = some record → change record = record)
    : update key wanted change records = records := by
  induction records with
  | nil => rfl
  | cons head rest ih =>
      unfold update
      by_cases first : key head = wanted
      · rw [if_pos first, fixed head (by simp [find, first])]
      · rw [if_neg first, ih]
        intro record later
        exact fixed record (by simpa [find, first] using later)

/-- Removing a record lowers a count by what it contributed. -/
theorem countP_erase (found : find key records wanted = some record) (p : α → Bool)
    : (erase key records wanted).countP p + (if p record then 1 else 0) = records.countP p := by
  induction records with
  | nil => cases found
  | cons head rest ih =>
      by_cases first : key head = wanted
      · obtain rfl : head = record := by simpa [find, first] using found
        simp [erase, first, List.countP_cons]
      · have later : find key rest wanted = some record := by simpa [find, first] using found
        have rest := ih later
        simp only [erase, first, decide_false, Bool.false_eq_true, not_false_eq_true,
          List.eraseP_cons_of_neg, List.countP_cons] at rest ⊢
        omega

theorem erase_sublist (records : List α) (wanted : κ) : (erase key records wanted).Sublist records :=
  List.eraseP_sublist

theorem erase_of_absent (absent : find key records wanted = none)
    : erase key records wanted = records := by
  refine List.eraseP_of_forall_not (fun record member same => ?_)
  exact find_eq_none.mp absent (of_decide_eq_true same ▸ List.mem_map_of_mem member)

theorem find_erase (distinct : (records.map key).Nodup)
    : find key (erase key records wanted) other
      = if other = wanted then none else find key records other := by
  induction records with
  | nil => simp [find, erase]
  | cons head rest ih =>
      rw [List.map_cons, List.nodup_cons] at distinct
      by_cases first : key head = wanted
      · have gone : erase key (head :: rest) wanted = rest := by simp [erase, first]
        rw [gone]
        by_cases here : other = wanted
        · rw [if_pos here]
          exact find_eq_none.mpr (here ▸ first ▸ distinct.1)
        · have away : ¬ key head = other := fun same => here (same.symm.trans first)
          rw [if_neg here]
          simp [find, away]
      · have kept : erase key (head :: rest) wanted = head :: erase key rest wanted := by
          simp [erase, first]
        rw [kept]
        have rest := ih distinct.2
        unfold find at rest ⊢
        by_cases stored : key head = other
        · have away : ¬ other = wanted := fun same => first (stored.trans same)
          simp [stored, away]
        · simpa [stored] using rest

-- Views of the records

section View

variable {β : Type*} {key' : β → κ} {view : α → β} (same : ∀ record, key' (view record) = key record)

/-- A change that the view does not see leaves the view. -/
theorem map_update_of_unseen (unseen : ∀ record, view (change record) = view record)
    (records : List α) (wanted : κ)
    : (update key wanted change records).map view = records.map view := by
  induction records with
  | nil => rfl
  | cons head rest ih =>
      rw [update]
      split
      · rw [List.map_cons, List.map_cons, unseen]
      · rw [List.map_cons, List.map_cons, ih]

include same

theorem find_map (records : List α) (wanted : κ)
    : find key' (records.map view) wanted = (find key records wanted).map view := by
  unfold find
  rw [List.find?_map]
  congr 2
  funext record
  simp [same]

theorem map_erase (records : List α) (wanted : κ)
    : (erase key records wanted).map view = erase key' (records.map view) wanted := by
  unfold erase
  rw [List.eraseP_map]
  congr 2
  funext record
  simp [same]

theorem map_update {change' : β → β} (agree : ∀ record, view (change record) = change' (view record))
    (records : List α) (wanted : κ)
    : (update key wanted change records).map view = update key' wanted change' (records.map view) := by
  induction records with
  | nil => rfl
  | cons head rest ih =>
      rw [List.map_cons, update, update, same]
      split
      · rw [List.map_cons, agree]
      · rw [List.map_cons, ih]

end View

end Foundation.Records
