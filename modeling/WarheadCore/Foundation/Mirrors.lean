import WarheadCore.Foundation.Tables

/-! Tables that mirror a list of records, a row for each one under its key.
Records are added, changed in place and taken away, with one statement on the table each time; what
is read back from the table is the list again, up to its order.
-/

namespace Foundation

/-- The table holds exactly the rows of the records, whose keys are different. -/
structure Mirrors {α ρ : Type*} (key : α → Nat) (row : α → ρ) (records : List α)
    (table : Table Nat ρ) : Prop where
  distinct : (records.map key).Nodup
  rows
    : ∀ id stored, table.get? id = some stored
        ↔ ∃ record ∈ records, key record = id ∧ row record = stored

namespace Mirrors

variable {α ρ : Type*} {key : α → Nat} {row : α → ρ} {records : List α} {table : Table Nat ρ}
  {record : α}

theorem nil : Mirrors key row [] (∅ : Table Nat ρ) where
  distinct := List.nodup_nil
  rows := by simp

/-- Records with the same key are the same. -/
theorem eq_of_key (mirrors : Mirrors key row records table) {other : α}
    (member : record ∈ records) (also : other ∈ records) (same : key record = key other)
    : record = other :=
  List.inj_on_of_nodup_map mirrors.distinct member also same

theorem perm (mirrors : Mirrors key row records table) {others : List α}
    (same : records.Perm others)
    : Mirrors key row others table where
  distinct := (same.map key).nodup_iff.mp mirrors.distinct
  rows := by
    intro id stored
    rw [mirrors.rows]
    exact exists_congr (fun record => and_congr_left (fun _ => same.mem_iff))

/-- A record with a new key. -/
theorem append (mirrors : Mirrors key row records table) (fresh : key record ∉ records.map key)
    : Mirrors key row (records ++ [record]) (table.put (key record) (row record)) where
  distinct := by
    rw [List.map_append, List.map_singleton]
    exact List.nodup_append.mpr ⟨mirrors.distinct, List.nodup_singleton _,
      fun id member other single => by
        rintro rfl
        exact fresh (List.mem_singleton.mp single ▸ member)⟩
  rows := by
    intro id stored
    rw [Table.get?_put]
    split
    · next here =>
        subst here
        constructor
        · intro same
          exact ⟨record, by simp, rfl, Option.some.inj same⟩
        · rintro ⟨other, member, same, rfl⟩
          rcases List.mem_append.mp member with old | new
          · exact (fresh (List.mem_map.mpr ⟨other, old, same⟩)).elim
          · rw [List.mem_singleton.mp new]
    · next ne =>
        rw [mirrors.rows]
        constructor
        · rintro ⟨other, member, same⟩
          exact ⟨other, List.mem_append_left _ member, same⟩
        · rintro ⟨other, member, same, eq⟩
          rcases List.mem_append.mp member with old | new
          · exact ⟨other, old, same, eq⟩
          · rw [List.mem_singleton.mp new] at same
            exact (ne same.symm).elim

variable [DecidableEq α]

/-- A record that is taken away. -/
theorem erase (mirrors : Mirrors key row records table) (member : record ∈ records)
    : Mirrors key row (records.erase record) (table.remove (key record)) where
  distinct := mirrors.distinct.sublist (List.erase_sublist.map key)
  rows := by
    intro id stored
    have nodup : records.Nodup := mirrors.distinct.of_map
    rw [Table.get?_remove]
    split
    · next here =>
        subst here
        refine ⟨fun none_ => (by cases none_), ?_⟩
        rintro ⟨other, left, same, -⟩
        obtain ⟨ne, also⟩ := nodup.mem_erase_iff.mp left
        exact (ne (mirrors.eq_of_key also member same)).elim
    · next ne =>
        rw [mirrors.rows]
        refine exists_congr (fun other => and_congr_left (fun same => ?_))
        rw [nodup.mem_erase_iff]
        refine ⟨fun also => ⟨?_, also⟩, And.right⟩
        rintro rfl
        exact ne same.1.symm

/-- A record that is changed in place, under its key. -/
theorem change (mirrors : Mirrors key row records table) (member : record ∈ records) {after : α}
    (same : key after = key record)
    : Mirrors key row (records.map (fun other => if other = record then after else other))
        (table.put (key record) (row after)) where
  distinct := by
    have keys : (records.map (fun other => if other = record then after else other)).map key
        = records.map key := by
      rw [List.map_map]
      refine List.map_congr_left (fun other _ => ?_)
      rw [Function.comp_apply]
      split
      · next here => rw [here, same]
      · rfl
    rw [keys]
    exact mirrors.distinct
  rows := by
    intro id stored
    rw [Table.get?_put]
    split
    · next here =>
        subst here
        constructor
        · intro eq
          exact ⟨after, List.mem_map.mpr ⟨record, member, if_pos rfl⟩, same, Option.some.inj eq⟩
        · rintro ⟨other, mapped, keyed, rfl⟩
          obtain ⟨before, listed, rfl⟩ := List.mem_map.mp mapped
          split at keyed
          · next here => rw [if_pos here]
          · next ne => exact (ne (mirrors.eq_of_key listed member keyed)).elim
    · next ne =>
        rw [mirrors.rows]
        constructor
        · rintro ⟨other, listed, keyed, rfl⟩
          refine ⟨other, List.mem_map.mpr ⟨other, listed, if_neg ?_⟩, keyed, rfl⟩
          rintro rfl
          exact ne keyed.symm
        · rintro ⟨other, mapped, keyed, rfl⟩
          obtain ⟨before, listed, rfl⟩ := List.mem_map.mp mapped
          split at keyed
          · exact (ne (keyed.symm.trans same)).elim
          · next other => exact ⟨before, listed, keyed, by rw [if_neg other]⟩

omit [DecidableEq α] in
/-- The records are read back, when each row gives its record. -/
theorem map_entries_perm (mirrors : Mirrors key row records table) {load : Nat → ρ → α}
    (loads : ∀ record ∈ records, load (key record) (row record) = record)
    : (table.entries.map (fun entry => load entry.1 entry.2)).Perm records := by
  have read (entry : (_ : Nat) × ρ) (listed : entry ∈ table.entries)
      : ∃ record ∈ records, key record = entry.1 ∧ load entry.1 entry.2 = record := by
    have stored : table.get? entry.1 = some entry.2 := AList.mem_lookup_iff.mpr listed
    obtain ⟨record, member, keyed, rowed⟩ := (mirrors.rows _ _).mp stored
    exact ⟨record, member, keyed, by rw [← keyed, ← rowed, loads record member]⟩
  have keys : (table.entries.map (fun entry => load entry.1 entry.2)).map key
      = table.entries.map Sigma.fst := by
    rw [List.map_map]
    refine List.map_congr_left (fun entry listed => ?_)
    obtain ⟨record, -, keyed, loaded⟩ := read entry listed
    rw [Function.comp_apply, loaded, keyed]
  have nodup : (table.entries.map (fun entry => load entry.1 entry.2)).Nodup := by
    refine List.Nodup.of_map key ?_
    rw [keys]
    exact table.nodupKeys
  refine (List.perm_ext_iff_of_nodup nodup mirrors.distinct.of_map).mpr (fun record => ?_)
  constructor
  · intro mapped
    obtain ⟨entry, listed, rfl⟩ := List.mem_map.mp mapped
    obtain ⟨record, member, -, loaded⟩ := read entry listed
    exact loaded ▸ member
  · intro member
    have stored := (mirrors.rows (key record) (row record)).mpr ⟨record, member, rfl, rfl⟩
    refine List.mem_map.mpr ⟨⟨key record, row record⟩, AList.mem_lookup_iff.mp stored, ?_⟩
    exact loads record member

end Mirrors

end Foundation
