import WarheadCore.Cache.CharacterCache
import WarheadCore.Foundation.Runs

/-! The name index points to the entries under the names that they have, as long as no entry is
replaced or erased under another name than its own.
-/

namespace WarheadCore.Cache

open Foundation Foundation.Runs

-- The law

structure CharacterCache.Holds (cache : CharacterCache) (guid node : Nat) (name : String) : Prop where
  stored : cache._characterCacheStore.get? guid = some node
  live : ∃ entry, cache.object node = some entry ∧ entry.Guid = guid ∧ entry.Name = name

/-- A name leads to a node if and only if a character has that name, and then to its live entry. -/
def IndexLaw (world : World) : Prop :=
  ∀ name node, world.cache.getCharacterCacheByName name = some node
    ↔ ∃ guid, world.cache.Holds guid node name

namespace CharacterCache

def KeepsName (cache : CharacterCache) (guid : Nat) (name : String) : Prop :=
  ∀ entry, cache.getCharacterCacheByGuid guid = some entry → entry.Name = name

def Unused (cache : CharacterCache) (guid : Nat) (name : String) : Prop :=
  ∀ other entry, other ≠ guid → cache.getCharacterCacheByGuid other = some entry →
    entry.Name ≠ name

end CharacterCache

/-- No step takes a name that another cached character has, additions, refreshes and deletions come
with the name that the character is cached under, and a reload finds all names that are cached.
-/
def World.Tidy (world : World) : Step → Prop
  | .add guid row => world.cache.KeepsName guid row.name ∧ world.cache.Unused guid row.name
  | .rename guid name _ _ => world.cache.Unused guid name
  | .change _ _ => True
  | .refresh guid => ∀ row, world.database.characters.get? guid = some row →
      world.cache.KeepsName guid row.name ∧ world.cache.Unused guid row.name
  | .delete guid name => world.cache.KeepsName guid name
      ∧ (world.cache.getCharacterCacheByGuid guid = none → world.cache.Unused guid name)
  | .reload => ∀ guid entry, world.cache.getCharacterCacheByGuid guid = some entry →
      ∃ other row, world.database.characters.get? other = some row ∧ row.name = entry.Name

-- The invariant

namespace CharacterCache

structure Sound (pending : List String) (cache : CharacterCache) : Prop where
  live : ∀ guid node, cache._characterCacheStore.get? guid = some node →
    node < cache.allocated ∧ ∃ entry, cache.object node = some entry ∧ entry.Guid = guid
  index : ∀ name ∉ pending, ∀ node, cache._characterCacheByNameStore.get? name = some node
    ↔ ∃ guid, cache.Holds guid node name

variable {cache : CharacterCache} {pending : List String}

/-- Two characters have different nodes. -/
theorem Sound.guid_eq (sound : Sound pending cache) {guid other node : Nat}
    (here : cache._characterCacheStore.get? guid = some node)
    (there : cache._characterCacheStore.get? other = some node)
    : guid = other := by
  obtain ⟨-, entry, found, rfl⟩ := sound.live guid node here
  obtain ⟨-, same, found', rfl⟩ := sound.live other node there
  exact congrArg CharacterCacheEntry.Guid (Option.some.inj (found.symm.trans found'))

theorem Holds.cached {guid node : Nat} {name : String} (holds : cache.Holds guid node name)
    : ∃ entry, cache.getCharacterCacheByGuid guid = some entry ∧ entry.Name = name := by
  obtain ⟨entry, found, -, rfl⟩ := holds.live
  refine ⟨entry, ?_, rfl⟩
  unfold getCharacterCacheByGuid
  rw [holds.stored]
  exact found

/-- A cached entry is held by its node. -/
theorem Sound.holds_of_cached (sound : Sound pending cache) {guid : Nat}
    {entry : CharacterCacheEntry} (cached : cache.getCharacterCacheByGuid guid = some entry)
    : ∃ node, cache.Holds guid node entry.Name := by
  obtain ⟨node, stored, found⟩ := Option.bind_eq_some_iff.mp cached
  obtain ⟨-, same, found', isGuid⟩ := sound.live guid node stored
  obtain rfl := Option.some.inj (found.symm.trans found')
  exact ⟨node, stored, entry, found, isGuid, rfl⟩

/-- A name that leads somewhere leads to one character. -/
theorem Sound.holds_unique (sound : Sound pending cache) {guid other node node' : Nat}
    {name : String} (settled : name ∉ pending) (here : cache.Holds guid node name)
    (there : cache.Holds other node' name)
    : guid = other := by
  have first := (sound.index name settled node).mpr ⟨guid, here⟩
  have second := (sound.index name settled node').mpr ⟨other, there⟩
  obtain rfl := Option.some.inj (first.symm.trans second)
  exact sound.guid_eq here.stored there.stored

/-- An entry that is put under a name, beside the other entries: its old name no longer leads to
it.
-/
structure Placed (before after : CharacterCache) (guid node : Nat) (name : String) : Prop where
  store : ∀ other, after._characterCacheStore.get? other
    = if other = guid then some node else before._characterCacheStore.get? other
  apart : ∀ other, other ≠ guid → before._characterCacheStore.get? other ≠ some node
  entry : ∃ entry, after.object node = some entry ∧ entry.Guid = guid ∧ entry.Name = name
  others : ∀ other, other ≠ node → after.object other = before.object other
  allocated : before.allocated ≤ after.allocated ∧ node < after.allocated
  named : after._characterCacheByNameStore.get? name = some node
  unnamed : ∀ entry, before.getCharacterCacheByGuid guid = some entry → entry.Name ≠ name →
    after._characterCacheByNameStore.get? entry.Name = none
  byName : ∀ other, other ≠ name → (∀ entry, before.getCharacterCacheByGuid guid = some entry →
      entry.Name ≠ other) →
    after._characterCacheByNameStore.get? other = before._characterCacheByNameStore.get? other

/-- The other characters are cached as before. -/
theorem Placed.holds_iff {after : CharacterCache} {guid node : Nat} {name : String}
    (placed : Placed cache after guid node name) {other node' : Nat} (ne : other ≠ guid)
    (name' : String)
    : after.Holds other node' name' ↔ cache.Holds other node' name' := by
  have same := placed.store other
  rw [if_neg ne] at same
  constructor
  · rintro ⟨stored, entry, found, rest⟩
    rw [same] at stored
    have apart : node' ≠ node := by
      rintro rfl
      exact placed.apart other ne stored
    exact ⟨stored, entry, (placed.others node' apart).symm.trans found, rest⟩
  · rintro ⟨stored, entry, found, rest⟩
    have apart : node' ≠ node := by
      rintro rfl
      exact placed.apart other ne stored
    exact ⟨same.trans stored, entry, (placed.others node' apart).trans found, rest⟩

/-- Placing an entry under a name that is free keeps the cache sound, and settles the name. -/
theorem Sound.place (sound : Sound pending cache) {after : CharacterCache} {guid node : Nat}
    {name : String} (placed : Placed cache after guid node name)
    (unused : cache.Unused guid name) {left : List String}
    (settles : ∀ other ∈ pending, other ∉ left → other = name)
    : Sound left after where
  live := by
    intro other node' stored
    rw [placed.store] at stored
    split at stored
    · next here =>
        obtain rfl := Option.some.inj stored
        obtain ⟨entry, found, isGuid, -⟩ := placed.entry
        exact ⟨placed.allocated.2, entry, found, isGuid.trans here.symm⟩
    · next ne =>
        obtain ⟨bound, entry, found, isGuid⟩ := sound.live other node' stored
        have apart : node' ≠ node := by
          rintro rfl
          exact placed.apart other ne stored
        exact ⟨bound.trans_le placed.allocated.1, entry,
          (placed.others node' apart).trans found, isGuid⟩
  index := by
    intro other settled node'
    have here : after.Holds guid node name :=
      ⟨(placed.store guid).trans (if_pos rfl), placed.entry⟩
    rcases eq_or_ne other name with rfl | ne
    · rw [placed.named]
      constructor
      · intro same
        obtain rfl := Option.some.inj same
        exact ⟨guid, here⟩
      · rintro ⟨holder, holds⟩
        rcases eq_or_ne holder guid with rfl | different
        · exact here.stored.symm.trans holds.stored
        · obtain ⟨entry, cached, isName⟩ := ((placed.holds_iff different _).mp holds).cached
          exact (unused holder entry different cached isName).elim
    · have known : other ∉ pending := fun member => ne (settles other member settled)
      have elsewhere : (∃ holder, after.Holds holder node' other)
          ↔ ∃ holder, holder ≠ guid ∧ cache.Holds holder node' other := by
        refine exists_congr (fun holder => ?_)
        constructor
        · intro holds
          have different : holder ≠ guid := by
            rintro rfl
            obtain ⟨entry, found, -, isName⟩ := holds.live
            obtain ⟨entry', found', -, isName'⟩ := here.live
            obtain rfl := Option.some.inj (here.stored.symm.trans holds.stored)
            obtain rfl := Option.some.inj (found.symm.trans found')
            exact ne (isName.symm.trans isName')
          exact ⟨different, (placed.holds_iff different _).mp holds⟩
        · rintro ⟨different, holds⟩
          exact (placed.holds_iff different _).mpr holds
      rw [elsewhere]
      by_cases old : ∃ entry, cache.getCharacterCacheByGuid guid = some entry ∧ entry.Name = other
      · obtain ⟨entry, cached, rfl⟩ := old
        obtain ⟨before, held⟩ := sound.holds_of_cached cached
        rw [placed.unnamed entry cached ne]
        refine ⟨fun impossible => (by cases impossible), ?_⟩
        rintro ⟨holder, different, holds⟩
        exact (different (sound.holds_unique known holds held)).elim
      · rw [placed.byName other ne (fun entry cached isName => old ⟨entry, cached, isName⟩),
          sound.index other known]
        refine exists_congr (fun holder => ⟨fun holds => ⟨?_, holds⟩, And.right⟩)
        rintro rfl
        exact old holds.cached

-- Changes of entries

/-- Access finds the node of a character, or makes one that is no other's. -/
theorem Sound.access (sound : Sound pending cache) (guid : Nat)
    : (∀ other, (cache.access guid).1._characterCacheStore.get? other
        = if other = guid then some (cache.access guid).2
          else cache._characterCacheStore.get? other)
      ∧ (∀ other, other ≠ guid →
          cache._characterCacheStore.get? other ≠ some (cache.access guid).2)
      ∧ (∀ other, other ≠ (cache.access guid).2 →
          (cache.access guid).1.object other = cache.object other)
      ∧ cache.allocated ≤ (cache.access guid).1.allocated
      ∧ (cache.access guid).2 < (cache.access guid).1.allocated
      ∧ (cache.access guid).1._characterCacheByNameStore = cache._characterCacheByNameStore := by
  unfold CharacterCache.access
  split
  · next node stored =>
      refine ⟨fun other => ?_, fun other ne same => ne (sound.guid_eq same stored),
        fun _ _ => rfl, le_rfl, (sound.live guid node stored).1, rfl⟩
      split
      · next here => rw [here, stored]
      · rfl
  · refine ⟨fun other => Table.get?_put _ _ _ _, fun other _ same => ?_,
      fun other ne => Function.update_of_ne ne _ _, Nat.le_succ _, Nat.lt_succ_self _, rfl⟩
    exact Nat.lt_irrefl _ (sound.live other _ same).1

/-- An added character that keeps its name, or is new, is placed under its name. -/
theorem Sound.placed_add (sound : Sound pending cache) {guid : Nat} {row : CharacterRow}
    (keeps : cache.KeepsName guid row.name)
    : Placed cache (cache.addCharacterCacheEntry guid row) guid (cache.access guid).2 row.name := by
  obtain ⟨store, apart, others, more, bound, byName⟩ := sound.access guid
  unfold addCharacterCacheEntry
  dsimp only
  constructor
  case store => exact store
  case apart => exact apart
  case entry => exact ⟨_, Function.update_self .., rfl, rfl⟩
  case others => exact fun other ne => (Function.update_of_ne ne _ _).trans (others other ne)
  case allocated => exact ⟨more, bound⟩
  case named => exact (Table.get?_put _ _ _ _).trans (if_pos rfl)
  case unnamed => exact fun entry cached ne => (ne (keeps entry cached)).elim
  case byName =>
    intro other ne _
    dsimp only
    rw [Table.get?_put, if_neg ne, byName]

/-- A renamed character is placed under its new name. -/
theorem Sound.placed_update (sound : Sound pending cache) {guid node : Nat}
    (stored : cache._characterCacheStore.get? guid = some node) (name : String)
    (gender race : Option (BitVec 8))
    : Placed cache (cache.updateCharacterData guid name gender race) guid node name := by
  obtain ⟨bound, entry, found, isGuid⟩ := sound.live guid node stored
  have cached : cache.getCharacterCacheByGuid guid = some entry := by
    unfold getCharacterCacheByGuid
    rw [stored]
    exact found
  unfold updateCharacterData change
  rw [stored]
  dsimp only
  rw [found]
  constructor
  case store =>
    intro other
    split
    · next here => exact here ▸ stored
    · rfl
  case apart => exact fun other ne same => ne (sound.guid_eq same stored)
  case entry => exact ⟨_, Function.update_self .., isGuid, rfl⟩
  case others => exact fun other ne => Function.update_of_ne ne _ _
  case allocated => exact ⟨le_rfl, bound⟩
  case named => exact (Table.get?_put _ _ _ _).trans (if_pos rfl)
  case unnamed =>
    intro old same ne
    obtain rfl := Option.some.inj (cached.symm.trans same)
    dsimp only [Option.map_some, Option.getD_some]
    rw [Table.get?_put, if_neg ne, Table.get?_remove_self]
  case byName =>
    intro other ne old
    dsimp only [Option.map_some, Option.getD_some]
    rw [Table.get?_put, if_neg ne, Table.get?_remove_of_ne _ (old entry cached).symm]

/-- What is left after a deletion are the other characters. -/
theorem Sound.holds_delete (sound : Sound pending cache) {guid : Nat} {name : String}
    (other node : Nat) (name' : String)
    : (cache.deleteCharacterCacheEntry guid name).Holds other node name'
      ↔ other ≠ guid ∧ cache.Holds other node name' := by
  have others (ne : other ≠ guid) (here : cache._characterCacheStore.get? other = some node)
      : (cache.deleteCharacterCacheEntry guid name).object node = cache.object node := by
    unfold deleteCharacterCacheEntry
    dsimp only
    cases stored : cache._characterCacheStore.get? guid with
    | some erased =>
        refine Function.update_of_ne ?_ _ _
        rintro rfl
        exact ne (sound.guid_eq here stored)
    | none => rfl
  constructor
  · rintro ⟨stored, live⟩
    have same := Table.get?_remove cache._characterCacheStore guid other
    rcases eq_or_ne other guid with rfl | ne
    · rw [if_pos rfl] at same
      cases stored.symm.trans same
    · rw [if_neg ne] at same
      have before := same.symm.trans stored
      rw [others ne before] at live
      exact ⟨ne, before, live⟩
  · rintro ⟨ne, stored, live⟩
    rw [← others ne stored] at live
    exact ⟨(Table.get?_remove_of_ne _ ne).trans stored, live⟩

/-- A deletion under the name that a character has takes the character and its name away. -/
theorem Sound.delete (sound : Sound pending cache) {guid : Nat} {name : String}
    (keeps : cache.KeepsName guid name)
    (unused : cache.getCharacterCacheByGuid guid = none → cache.Unused guid name)
    : Sound pending (cache.deleteCharacterCacheEntry guid name) where
  live := by
    intro other node stored
    have same := Table.get?_remove cache._characterCacheStore guid other
    rcases eq_or_ne other guid with rfl | ne
    · rw [if_pos rfl] at same
      cases stored.symm.trans same
    · rw [if_neg ne] at same
      have before := same.symm.trans stored
      obtain ⟨bound, entry, found, isGuid⟩ := sound.live other node before
      have held : cache.Holds other node entry.Name := ⟨before, entry, found, isGuid, rfl⟩
      obtain ⟨-, entry, found, isGuid, -⟩ := (sound.holds_delete other node _).mpr ⟨ne, held⟩
      exact ⟨bound, entry, found, isGuid⟩
  index := by
    intro other settled node
    simp only [sound.holds_delete]
    change (cache._characterCacheByNameStore.remove name).get? other = some node ↔ _
    rcases eq_or_ne other name with rfl | ne
    · rw [Table.get?_remove_self]
      refine ⟨fun impossible => (by cases impossible), ?_⟩
      rintro ⟨holder, different, holds⟩
      obtain ⟨entry, cached, isName⟩ := holds.cached
      cases mine : cache.getCharacterCacheByGuid guid with
      | none => exact (unused mine holder entry different cached isName).elim
      | some own =>
          obtain ⟨node', held⟩ := sound.holds_of_cached mine
          rw [keeps own mine] at held
          exact (different (sound.holds_unique settled holds held)).elim
    · rw [Table.get?_remove_of_ne _ ne, sound.index other settled]
      refine exists_congr (fun holder => ⟨fun holds => ⟨?_, holds⟩, And.right⟩)
      rintro rfl
      obtain ⟨entry, cached, isName⟩ := holds.cached
      exact ne (isName.symm.trans (keeps entry cached))

/-- A change of an entry that keeps its guid and name. -/
theorem Sound.change (sound : Sound pending cache) (node : Nat)
    {change : CharacterCacheEntry → CharacterCacheEntry}
    (keeps : ∀ entry, (change entry).Guid = entry.Guid ∧ (change entry).Name = entry.Name)
    : Sound pending (cache.change node change) := by
  have object (other : Nat) : (cache.change node change).object other
      = if other = node then (cache.object other).map change else cache.object other := by
    unfold CharacterCache.change
    dsimp only
    split
    · next here => rw [here, Function.update_self]
    · next ne => rw [Function.update_of_ne ne]
  have holds (guid other : Nat) (name : String)
      : (cache.change node change).Holds guid other name ↔ cache.Holds guid other name := by
    have live : (∃ entry, (cache.change node change).object other = some entry
          ∧ entry.Guid = guid ∧ entry.Name = name)
        ↔ ∃ entry, cache.object other = some entry ∧ entry.Guid = guid ∧ entry.Name = name := by
      rw [object]
      split
      · constructor
        · rintro ⟨entry, found, isGuid, isName⟩
          obtain ⟨before, was, rfl⟩ := Option.map_eq_some_iff.mp found
          exact ⟨before, was, (keeps before).1.symm.trans isGuid,
            (keeps before).2.symm.trans isName⟩
        · rintro ⟨entry, found, isGuid, isName⟩
          exact ⟨change entry, Option.map_eq_some_iff.mpr ⟨entry, found, rfl⟩,
            (keeps entry).1.trans isGuid, (keeps entry).2.trans isName⟩
      · exact Iff.rfl
    exact ⟨fun held => ⟨held.stored, live.mp held.live⟩,
      fun held => ⟨held.stored, live.mpr held.live⟩⟩
  constructor
  case live =>
    intro guid other stored
    obtain ⟨bound, entry, found, isGuid⟩ := sound.live guid other stored
    obtain ⟨-, entry, found, isGuid, -⟩ := (holds guid other _).mpr ⟨stored, entry, found, isGuid, rfl⟩
    exact ⟨bound, entry, found, isGuid⟩
  case index =>
    intro name settled other
    simp only [holds]
    exact sound.index name settled other

/-- Mail counts are no names. -/
theorem Sound.updateMailCounts (sound : Sound pending cache) (counts : List (Nat × Nat))
    : Sound pending (cache.updateMailCounts counts) := by
  unfold CharacterCache.updateMailCounts
  induction counts generalizing cache with
  | nil => exact sound
  | cons count rest ih =>
      refine ih ?_
      dsimp only
      unfold updateCharacterMailCount
      split
      · exact sound
      · exact sound.change _ (fun _ => ⟨rfl, rfl⟩)

-- Reloads

/-- After an addition under a free name the character has its new entry, the others have theirs. -/
theorem Sound.cached_add (sound : Sound pending cache) {guid : Nat} {row : CharacterRow}
    (keeps : cache.KeepsName guid row.name) {other : Nat} {entry : CharacterCacheEntry}
    (cached : (cache.addCharacterCacheEntry guid row).getCharacterCacheByGuid other = some entry)
    : other = guid ∧ entry.Name = row.name
      ∨ other ≠ guid ∧ cache.getCharacterCacheByGuid other = some entry := by
  have placed := sound.placed_add keeps
  obtain ⟨node, stored, found⟩ := Option.bind_eq_some_iff.mp cached
  rw [placed.store] at stored
  split at stored
  · next here =>
      obtain rfl := Option.some.inj stored
      obtain ⟨entry', found', -, isName⟩ := placed.entry
      obtain rfl := Option.some.inj (found.symm.trans found')
      exact .inl ⟨here, isName⟩
  · next ne =>
      have apart : node ≠ (cache.access guid).2 := by
        rintro rfl
        exact placed.apart other ne stored
      refine .inr ⟨ne, Option.bind_eq_some_iff.mpr ⟨node, stored, ?_⟩⟩
      exact (placed.others node apart).symm.trans found

/-- Adding characters with different guids and names, none of them cached before, settles the names.
Witness: induction on the rows; each is new for the cache with the rows before it.
-/
theorem Sound.addRows {rows : List ((_ : Nat) × CharacterRow)} (guids : rows.NodupKeys)
    (names : (rows.map (fun row => row.2.name)).Nodup)
    (sound : Sound (rows.map (fun row => row.2.name)) cache)
    (fresh : ∀ guid entry, cache.getCharacterCacheByGuid guid = some entry →
      guid ∉ rows.keys ∧ entry.Name ∉ rows.map (fun row => row.2.name))
    : Sound [] (rows.foldl (fun cache row => cache.addCharacterCacheEntry row.1 row.2) cache) := by
  induction rows generalizing cache with
  | nil => exact sound
  | cons row rest ih =>
      obtain ⟨newGuid, guids⟩ := List.nodupKeys_cons.mp guids
      obtain ⟨newName, names⟩ := List.nodup_cons.mp names
      have keeps : cache.KeepsName row.1 row.2.name :=
        fun entry cached => ((fresh row.1 entry cached).1 List.mem_cons_self).elim
      have unused : cache.Unused row.1 row.2.name := by
        rintro other entry - cached isName
        exact (fresh other entry cached).2 (isName ▸ List.mem_cons_self)
      refine ih guids names ?_ ?_
      · refine sound.place (sound.placed_add keeps) unused (fun other member left => ?_)
        exact (List.mem_cons.mp member).resolve_right left
      · intro guid entry cached
        rcases sound.cached_add keeps cached with ⟨rfl, isName⟩ | ⟨-, before⟩
        · exact ⟨newGuid, isName ▸ newName⟩
        · obtain ⟨otherGuid, otherName⟩ := fresh guid entry before
          exact ⟨fun member => otherGuid (List.mem_cons_of_mem _ member),
            fun member => otherName (List.mem_cons_of_mem _ member)⟩

end CharacterCache

-- Steps

open CharacterCache

def Database.Distinct (database : Database) : Prop :=
  ∀ guid row other row', database.characters.get? guid = some row →
    database.characters.get? other = some row' → row.name = row'.name → guid = other

namespace World

structure Sound (world : World) : Prop where
  distinct : world.database.Distinct
  cache : CharacterCache.Sound [] world.cache

theorem initial_sound : Sound {} where
  distinct := fun _ _ _ _ => nofun
  cache :=
    { live := fun _ _ => nofun
      index := fun _ _ _ => ⟨nofun, fun ⟨_, held⟩ => nomatch held.stored⟩ }

variable {world : World}

theorem distinct_put (distinct : world.database.Distinct) {guid : Nat} {row : CharacterRow}
    (free : world.database.free guid row.name = true)
    : Database.Distinct
        { world.database with characters := world.database.characters.put guid row } := by
  have others {other : Nat} {row' : CharacterRow}
      (stored : world.database.characters.get? other = some row') (ne : other ≠ guid)
      : row'.name ≠ row.name := by
    have test := List.all_eq_true.mp free ⟨other, row'⟩ (Table.get?_eq_some_iff.mp stored)
    simpa [ne] using test
  intro first row₁ second row₂ here there same
  rw [Table.get?_put] at here there
  split at here
  · next isFirst =>
      obtain rfl := Option.some.inj here
      split at there
      · next isSecond => exact isFirst.trans isSecond.symm
      · next ne => exact (others there ne same.symm).elim
  · next ne =>
      split at there
      · obtain rfl := Option.some.inj there
        exact (others here ne same).elim
      · exact distinct first row₁ second row₂ here there same

/-- A write of a row keeps names distinct, or changes nothing. -/
theorem Sound.write (sound : world.Sound) {guid : Nat} {row : CharacterRow}
    {cache : CharacterCache} (kept : CharacterCache.Sound [] cache)
    : (world.write guid row cache).Sound := by
  unfold World.write
  split
  · next free => exact ⟨distinct_put sound.distinct free, kept⟩
  · exact sound

theorem Sound.reload (sound : world.Sound) (tidy : world.Tidy .reload)
    : (world.step .reload).Sound := by
  refine ⟨sound.distinct, ?_⟩
  have names : (world.database.characters.entries.map (fun row => row.2.name)).Nodup := by
    refine List.Nodup.map_on ?_ world.database.characters.nodupKeys.nodup
    intro first here second there same
    refine world.database.characters.nodupKeys.eq_of_fst_eq here there ?_
    exact sound.distinct first.1 first.2 second.1 second.2 (Table.get?_eq_some_iff.mpr here)
      (Table.get?_eq_some_iff.mpr there) same
  have cleared : CharacterCache.Sound
      (world.database.characters.entries.map (fun row => row.2.name)) world.cache.clearStore := by
    constructor
    case live => exact fun _ _ => nofun
    case index =>
      intro name settled node
      refine ⟨fun indexed => ?_, fun ⟨_, held⟩ => nomatch held.stored⟩
      obtain ⟨guid, held⟩ := (sound.cache.index name (by simp) node).mp indexed
      obtain ⟨entry, cached, rfl⟩ := held.cached
      obtain ⟨other, row, stored, same⟩ := tidy guid entry cached
      exact (settled (List.mem_map.mpr ⟨⟨other, row⟩, Table.get?_eq_some_iff.mp stored, same⟩)).elim
  have added := cleared.addRows world.database.characters.nodupKeys names (fun _ _ => nofun)
  change CharacterCache.Sound [] (world.cache.loadCharacterCacheStorage world.database)
  unfold loadCharacterCacheStorage
  dsimp only
  split
  · exact added
  · exact added.updateMailCounts _

/-- Every tidy step keeps the cache sound. -/
theorem Sound.step (sound : world.Sound) {input : Step} (tidy : world.Tidy input)
    : (world.step input).Sound := by
  cases input with
  | add guid row =>
      exact sound.write (sound.cache.place (sound.cache.placed_add tidy.1) tidy.2
        (fun _ fresh => (by cases fresh)))
  | rename guid name gender race =>
      cases found : world.database.characters.get? guid with
      | none =>
          have same : world.step (.rename guid name gender race) = world := by
            simp only [World.step, found]
          rwa [same]
      | some row =>
          simp only [World.step, found]
          refine sound.write ?_
          cases stored : world.cache._characterCacheStore.get? guid with
          | none =>
              unfold updateCharacterData
              rw [stored]
              exact sound.cache
          | some node =>
              exact sound.cache.place (sound.cache.placed_update stored name gender race) tidy
                (fun _ fresh => (by cases fresh))
  | change guid row => exact sound.write sound.cache
  | refresh guid =>
      refine ⟨sound.distinct, ?_⟩
      change CharacterCache.Sound [] (world.cache.refreshCacheEntry world.database guid)
      unfold refreshCacheEntry
      split
      · exact sound.cache
      · next row stored =>
          obtain ⟨keeps, unused⟩ := tidy row stored
          have deleted := sound.cache.delete keeps (fun _ => unused)
          have names {other : Nat} {entry : CharacterCacheEntry}
              (cached : (world.cache.deleteCharacterCacheEntry guid row.name).getCharacterCacheByGuid
                other = some entry)
              : other ≠ guid ∧ entry.Name ≠ row.name := by
            obtain ⟨node, held⟩ := deleted.holds_of_cached cached
            obtain ⟨ne, held⟩ := (sound.cache.holds_delete other node _).mp held
            obtain ⟨before, cached, isName⟩ := held.cached
            exact ⟨ne, isName ▸ unused other before ne cached⟩
          refine (deleted.place (deleted.placed_add ?_) ?_ (fun _ fresh => (by cases fresh))).updateMailCounts _
          · exact fun entry cached => ((names cached).1 rfl).elim
          · exact fun other entry _ cached => (names cached).2
  | delete guid name =>
      refine ⟨?_, sound.cache.delete tidy.1 tidy.2⟩
      intro first row₁ second row₂ here there same
      have before {other : Nat} {row : CharacterRow}
          (stored : (world.database.characters.remove guid).get? other = some row)
          : world.database.characters.get? other = some row := by
        rw [Table.get?_remove] at stored
        split at stored
        · cases stored
        · exact stored
      exact sound.distinct first row₁ second row₂ (before here) (before there) same
  | reload => exact sound.reload tidy

end World

open World

/-- In every run of tidy steps, names lead to the live entries of the characters that have them. -/
theorem name_index_points_to_live_entries (steps : List Step) (tidy : EachStep step Tidy {} steps)
    : EachState step IndexLaw {} steps := by
  have kept (world : World) (input : Step) (sound : world.Sound) (tidy : world.Tidy input)
      : (world.step input).Sound :=
    sound.step tidy
  refine (eachState_of_invariant kept World.initial_sound tidy).imp (fun world sound => ?_)
  exact fun name => sound.cache.index name (by simp)

/-- A character is made and renamed. -/
theorem name_index_points_to_live_entries_applied
    : EachState step IndexLaw {} [.add 1 { name := "Ann" }, .rename 1 "Bea" none none] :=
  name_index_points_to_live_entries _ (by
    refine ⟨⟨fun _ => nofun, fun _ _ _ => nofun⟩, ?_, trivial⟩
    intro other entry ne cached
    rcases World.initial_sound.cache.cached_add (fun _ => nofun) cached with ⟨same, -⟩ | ⟨-, none_⟩
    · exact (ne same).elim
    · cases none_)

/-- The row of a cached character gets another name, then the entry is refreshed. -/
def renamedInDatabase : List Step :=
  [.add 1 { name := "Ann" }, .change 1 { name := "Bea" }, .refresh 1]

/-- The row of a cached character gets another name, then the cache is loaded again. -/
def renamedBeforeReload : List Step :=
  [.add 1 { name := "Ann" }, .change 1 { name := "Bea" }, .reload]

/-- After both runs the old name still leads to the node of the entry that was erased. -/
theorem old_name_left_in_index
    : (¬ ∀ steps, EachState step IndexLaw {} steps)
      ∧ (run step {} renamedInDatabase).cache.getCharacterCacheByName "Ann" = some 0
      ∧ ((run step {} renamedInDatabase).cache.object 0).isNone = true
      ∧ (run step {} renamedBeforeReload).cache.getCharacterCacheByName "Ann" = some 0
      ∧ ((run step {} renamedBeforeReload).cache.object 0).isNone = true := by
  have indexed : (run step {} renamedInDatabase).cache.getCharacterCacheByName "Ann" = some 0 := by
    decide +kernel
  have gone : ((run step {} renamedInDatabase).cache.object 0).isNone = true := by
    decide +kernel
  refine ⟨fun law => ?_, indexed, gone, by decide +kernel, by decide +kernel⟩
  obtain ⟨guid, held⟩ := ((law renamedInDatabase).last "Ann" 0).mp indexed
  obtain ⟨entry, found, -⟩ := held.live
  rw [found] at gone
  cases gone

end WarheadCore.Cache
