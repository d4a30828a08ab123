import Mathlib.Data.List.GetD
import WarheadCore.Foundation.Tables

/-! The templates from which loot is generated: how the loader builds them from a table, how
Process rolls for their entries and groups through references, and the search for quest drops.
-/

namespace WarheadCore.Looting.Templates

open Foundation

/-- What is rolled for with a chance, in the arithmetic of the chances. A reference leads to another
template; a negative one keeps the entry in its group.
-/
structure LootStoreItem (F : Type) where
  itemid : Nat
  reference : Int := 0
  chance : F
  needsQuest : Bool := false
  lootmode : BitVec 16 := 1
  groupid : BitVec 7 := 0
  mincount : BitVec 8 := 1
  maxcount : BitVec 8 := 1
deriving DecidableEq

structure LootGroup (F : Type) where
  explicitlyChanced : List (LootStoreItem F) := []
  equalChanced : List (LootStoreItem F) := []
deriving DecidableEq

structure LootTemplate (F : Type) where
  entries : List (LootStoreItem F) := []
  groups : List (Option (LootGroup F)) := []
deriving DecidableEq

abbrev LootTemplateMap (F : Type) := Table Nat (LootTemplate F)

structure ItemTemplate where
  maxStackSize : Nat
  stackable : 0 < maxStackSize
  inventoryType : Nat := 0

/-- The templates of the items, and the rates of the configuration, which those of floats are
applied with already.
-/
structure Config (F : Type) where
  getItemTemplate : Nat → Option ItemTemplate
  /-- The rate for the quality of an item. -/
  qualityModifier : Nat → F
  /-- Rate.Drop.Item.Referenced -/
  referenced : F
  /-- A count of references with Rate.Drop.Item.ReferencedAmount. -/
  referencedAmount : Nat → Nat
  /-- Rate.Drop.Item.GroupAmount -/
  groupAmount : Nat

variable {F : Type}

-- Loading

/-- Checks correctness of values. Whether a referenced template exists is not among them. -/
def LootStoreItem.isValid [LT F] [DecidableLT F] [DecidableEq F] [OfScientific F]
    (config : Config F) (item : LootStoreItem F)
    : Bool :=
  if item.groupid.toNat ≥ 2 ^ 7 then false
  else if item.mincount = 0 then false
  else if item.reference = 0 then
    if (config.getItemTemplate item.itemid).isNone then false
    else if item.chance = 0.0 ∧ item.groupid = 0 then false
    else if item.chance ≠ 0.0 ∧ item.chance < 0.000001 then false
    else if item.maxcount < item.mincount then false
    else true
  else if item.needsQuest then true
  else item.chance ≠ 0.0

section Entries

variable [DecidableEq F] [OfScientific F]

def LootGroup.addEntry (group : LootGroup F) (item : LootStoreItem F) : LootGroup F :=
  if item.chance ≠ 0.0 then
    { group with explicitlyChanced := group.explicitlyChanced ++ [item] }
  else { group with equalChanced := group.equalChanced ++ [item] }

/-- Adds an entry to its group, which is made where it is missing. A reference that is positive
counts as an entry without a group.
-/
def LootTemplate.addEntry (template : LootTemplate F) (item : LootStoreItem F) : LootTemplate F :=
  if 0 < item.groupid ∧ item.reference ≤ 0 then
    let missing := item.groupid.toNat - template.groups.length
    let groups := template.groups ++ List.replicate missing none
    { template with
        groups :=
          groups.modify (item.groupid.toNat - 1)
            (fun group => some ((group.getD {}).addEntry item)) }
  else { template with entries := template.entries ++ [item] }

end Entries

def LootGroup.items (group : LootGroup F) : List (LootStoreItem F) :=
  group.explicitlyChanced ++ group.equalChanced

def LootTemplate.allGroups (template : LootTemplate F) : List (LootGroup F) :=
  template.groups.filterMap id

def LootGroup.rawTotalChance [Add F] [OfScientific F] (group : LootGroup F) : F :=
  group.explicitlyChanced.foldl
    (fun result item => if item.needsQuest then result else result + item.chance) 0.0

def LootGroup.verify [Add F] [LT F] [DecidableLT F] [OfScientific F] (group : LootGroup F) : Bool :=
  ¬101.0 < group.rawTotalChance
    ∧ ¬(¬group.rawTotalChance < 100.0 ∧ group.equalChanced ≠ [])

/-- Verify of a template passes without a report; it checks the groups only. -/
def LootTemplate.verify [Add F] [LT F] [DecidableLT F] [OfScientific F]
    (template : LootTemplate F)
    : Bool :=
  template.allGroups.all LootGroup.verify

/-- What one call of the generator may come to: a chance of rand_chance, or a number that urand maps
into its range.
-/
structure Draw (F : Type) where
  chance : F
  index : Nat

def Draw.urand (draw : Draw F) (min max : Nat) : Nat := min + draw.index % (max - min + 1)

/-- An item that was added to the loot, with what limits its duplicates. -/
structure LootItem where
  itemid : Nat
  groupid : BitVec 7
deriving DecidableEq

/-- The loot as far as templates read and fill it, and the draws that are still to come. -/
structure Processing (F : Type) where
  items : List LootItem := []
  questItems : List LootItem := []
  draws : Nat → Draw F

namespace Processing

def next (state : Processing F) : Draw F := state.draws 0

def drawn (state : Processing F) : Processing F :=
  { state with draws := fun position => state.draws (position + 1) }

/-- The loop of AddItem: as many stacks as there are, while there is room for them. -/
def addStacks (item : LootStoreItem F) : Nat → Processing F → Processing F
  | 0, state => state
  | number + 1, state =>
      if item.needsQuest then
        if state.questItems.length < 32 then
          addStacks item number
            { state with questItems := state.questItems ++ [⟨item.itemid, item.groupid⟩] }
        else state
      else
        if state.items.length < 18 then
          addStacks item number
            { state with items := state.items ++ [⟨item.itemid, item.groupid⟩] }
        else state

def addItem (config : Config F) (item : LootStoreItem F) (state : Processing F) : Processing F :=
  match config.getItemTemplate item.itemid with
  | none => state
  | some proto =>
      let count := state.next.urand item.mincount.toNat item.maxcount.toNat
      let number :=
        count / proto.maxStackSize + if count % proto.maxStackSize ≠ 0 then 1 else 0
      state.drawn.addStacks item number

end Processing

/-- LootGroupInvalidSelector: items that do not drop in this mode or of which the loot has enough;
47242 is the Trophy of the Crusade.
-/
def invalidSelector (config : Config F) (state : Processing F) (lootMode : BitVec 16)
    (item : LootStoreItem F)
    : Bool :=
  if item.lootmode &&& lootMode = 0 then true
  else if item.reference = 0 then
    match config.getItemTemplate item.itemid with
    | none => true
    | some proto =>
        let foundDuplicates := state.items.count ⟨item.itemid, item.groupid⟩
        if proto.inventoryType = 0 then 3 ≤ foundDuplicates ∧ item.itemid ≠ 47242
        else 1 ≤ foundDuplicates
  else false

section Roll

variable [LT F] [DecidableLT F] [OfScientific F]

def LootStoreItem.roll [Mul F] (config : Config F) (rate : Bool) (item : LootStoreItem F)
    (state : Processing F)
    : Bool × Processing F :=
  if ¬item.chance < 100.0 then (true, state)
  else
    let modifier :=
      if ¬rate then 1.0
      else if item.reference ≠ 0 then config.referenced
      else config.qualityModifier item.itemid
    (state.next.chance < item.chance * modifier, state.drawn)

def rollChanced [Sub F] : List (LootStoreItem F) → F → Option (LootStoreItem F)
  | [], _ => none
  | item :: rest, roll =>
      if ¬item.chance < 100.0 then some item
      else if roll - item.chance < 0.0 then some item
      else rollChanced rest (roll - item.chance)

/-- The roll for the explicitly chanced entries of a group, with the state after it. -/
def LootGroup.rollExplicit [Sub F] (config : Config F) (lootMode : BitVec 16)
    (group : LootGroup F) (state : Processing F)
    : Option (LootStoreItem F) × Processing F :=
  let possibleLoot :=
    group.explicitlyChanced.filter (fun item => !invalidSelector config state lootMode item)
  if possibleLoot.isEmpty then (none, state)
  else (rollChanced possibleLoot state.next.chance, state.drawn)

/-- Roll of a group: the explicitly chanced entries are checked first, and if none is selected one
is taken from the equal-chanced part.
-/
def LootGroup.roll [Sub F] (config : Config F) (lootMode : BitVec 16) (group : LootGroup F)
    (state : Processing F)
    : Option (LootStoreItem F) × Processing F :=
  let explicit := group.rollExplicit config lootMode state
  if explicit.1.isSome then explicit
  else
    let possibleLoot :=
      group.equalChanced.filter (fun item => !invalidSelector config explicit.2 lootMode item)
    if possibleLoot.isEmpty then (none, explicit.2)
    else
      (possibleLoot[explicit.2.next.urand 0 (possibleLoot.length - 1)]?, explicit.2.drawn)

-- Process

/-- Process of a group. A reference goes on with its template; after another item the group is
processed again as long as there are iterations left, quest items excepted.
-/
def LootGroup.process [Sub F] (config : Config F) (lootMode : BitVec 16)
    (onReference : LootStoreItem F → Processing F → Option (Processing F)) (group : LootGroup F)
    (nonRefIterationsLeft : Nat) (state : Processing F)
    : Option (Processing F) :=
  match group.roll config lootMode state with
  | (none, rolled) => some rolled
  | (some item, rolled) =>
      if item.reference ≠ 0 then onReference item rolled
      else if 1 < nonRefIterationsLeft ∧ !item.needsQuest then
        group.process config lootMode onReference (nonRefIterationsLeft - 1)
          (rolled.addItem config item)
      else some (rolled.addItem config item)
termination_by nonRefIterationsLeft
decreasing_by omega

/-- A template with the group that is asked for, 0 for all of it, and whether it is at the top. -/
structure Call (F : Type) where
  template : LootTemplate F
  groupId : Nat := 0
  isTopLevel : Bool := true

/-- A reference is processed as often as its count and the rate say, where it leads to a template
of the reference store.
-/
def processReference (config : Config F) (reference : LootTemplateMap F)
    (recurse : Call F → Processing F → Option (Processing F)) (item : LootStoreItem F)
    (state : Processing F)
    : Option (Processing F) :=
  match reference.get? item.reference.natAbs with
  | none => some state
  | some referenced =>
      (List.range (config.referencedAmount item.maxcount.toNat)).foldlM
        (fun state _loop => recurse ⟨referenced, item.groupid.toNat, false⟩ state) state

def LootStoreItem.process [Mul F] (config : Config F) (rate : Bool) (lootMode : BitVec 16)
    (onReference : LootStoreItem F → Processing F → Option (Processing F))
    (state : Processing F) (item : LootStoreItem F)
    : Option (Processing F) :=
  if item.lootmode &&& lootMode = 0 then some state
  else
    let rolled := item.roll config rate state
    if ¬rolled.1 then some rolled.2
    else if item.reference ≠ 0 then onReference item rolled.2
    else some (rolled.2.addItem config item)

def Call.iterations (config : Config F) (call : Call F) : Nat :=
  if call.isTopLevel then config.groupAmount else 0

/-- Process of a template, with what it does at a reference: the group that is asked for, or all
entries without a group and then all groups.
-/
def Call.process [Sub F] [Mul F] (config : Config F) (rate : Bool) (lootMode : BitVec 16)
    (onReference : LootStoreItem F → Processing F → Option (Processing F)) (call : Call F)
    (state : Processing F)
    : Option (Processing F) :=
  if call.groupId ≠ 0 then
    match call.template.groups[call.groupId - 1]? with
    | some (some group) =>
        group.process config lootMode onReference (call.iterations config) state
    | _ => some state
  else
    (call.template.entries.foldlM
        (LootStoreItem.process config rate lootMode onReference) state).bind
      (call.template.allGroups.foldlM
        (fun state group =>
          group.process config lootMode onReference (call.iterations config) state))

/-- Process with a bound on the depth of references; none where the bound is reached. -/
def process [Sub F] [Mul F] (config : Config F) (reference : LootTemplateMap F) (rate : Bool)
    (lootMode : BitVec 16)
    : Nat → Call F → Processing F → Option (Processing F)
  | 0, _, _ => none
  | fuel + 1, call, state =>
      call.process config rate lootMode
        (processReference config reference (process config reference rate lootMode fuel)) state

end Roll

-- The search for quest drops

/-- One after the other, the first that finds a drop ends the search. -/
def anyM {α : Type} (found : α → Option Bool) : List α → Option Bool
  | [] => some false
  | first :: rest =>
      match found first with
      | none => none
      | some true => some true
      | some false => anyM found rest

/-- The search in an entry: a reference is looked up in the store that is passed. -/
def LootStoreItem.hasDrop (wanted : LootStoreItem F → Bool) (store : LootTemplateMap F)
    (recurse : LootTemplate F → Nat → Option Bool) (item : LootStoreItem F)
    : Option Bool :=
  if item.reference ≠ 0 then
    match store.get? item.reference.natAbs with
    | none => some false
    | some referenced => recurse referenced item.groupid.toNat
  else some (wanted item)

/-- The entries that a search or a call of a template passes: those of the group that is asked for,
or those without a group and then those of all groups.
-/
def LootTemplate.items (template : LootTemplate F) (groupId : Nat) : List (LootStoreItem F) :=
  if groupId ≠ 0 then
    match template.groups[groupId - 1]? with
    | some (some group) => group.items
    | _ => []
  else template.entries ++ template.allGroups.flatMap LootGroup.items

/-- The search of HasQuestDrop and HasQuestDropForPlayer, with a bound on the depth of references;
none where the bound is reached.
-/
def hasDrop (wanted : LootStoreItem F → Bool) (store : LootTemplateMap F)
    : Nat → LootTemplate F → Nat → Option Bool
  | 0, _, _ => none
  | fuel + 1, template, groupId =>
      anyM (LootStoreItem.hasDrop wanted store (hasDrop wanted store fuel))
        (template.items groupId)

end WarheadCore.Looting.Templates
