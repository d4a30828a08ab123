import WarheadCore.Foundation.Tables

/-! The character cache with its name index, beside the characters of the database. -/

namespace WarheadCore.Cache

open Foundation

structure CharacterRow where
  name : String
  account : Nat := 0
  race : BitVec 8 := 0
  gender : BitVec 8 := 0
  playerClass : BitVec 8 := 0
  level : BitVec 8 := 0

structure CharacterCacheEntry where
  Guid : Nat := 0
  Name : String := ""
  AccountId : Nat := 0
  Class : BitVec 8 := 0
  Race : BitVec 8 := 0
  Sex : BitVec 8 := 0
  Level : BitVec 8 := 0
  MailCount : BitVec 8 := 0
  GuildId : Nat := 0
  ArenaTeamId : List Nat := [0, 0, 0]
  GroupGuid : Nat := 0

/-- The tables of the database that the cache reads: characters, and the number of mails by
receiver.
-/
structure Database where
  characters : Table Nat CharacterRow := ∅
  mails : Table Nat Nat := ∅

/-- The cache: the entries are the nodes of the map by guid, named by the number of their
allocation, and the index points to them. The object of a node that was erased is gone.
-/
structure CharacterCache where
  _characterCacheStore : Table Nat Nat := ∅
  _characterCacheByNameStore : Table String Nat := ∅
  object : Nat → Option CharacterCacheEntry := fun _ => none
  allocated : Nat := 0

namespace CharacterCache

variable (cache : CharacterCache)

-- Lookups

def getCharacterCacheByGuid (guid : Nat) : Option CharacterCacheEntry :=
  (cache._characterCacheStore.get? guid).bind cache.object

/-- The pointer of the index; what it points to may be gone. -/
def getCharacterCacheByName (name : String) : Option Nat :=
  cache._characterCacheByNameStore.get? name

-- Changes of entries

/-- The node that operator[] of the map by guid gives, made if there is none. -/
def access (guid : Nat) : CharacterCache × Nat :=
  match cache._characterCacheStore.get? guid with
  | some node => (cache, node)
  | none =>
      ({ cache with
          _characterCacheStore := cache._characterCacheStore.put guid cache.allocated
          object := Function.update cache.object cache.allocated (some {})
          allocated := cache.allocated + 1 }, cache.allocated)

def addCharacterCacheEntry (guid : Nat) (row : CharacterRow) : CharacterCache :=
  let (accessed, node) := cache.access guid
  let data := (accessed.object node).getD {}
  let filled := { data with
    Guid := guid
    Name := row.name
    AccountId := row.account
    Race := row.race
    Sex := row.gender
    Class := row.playerClass
    Level := row.level
    GuildId := 0
    ArenaTeamId := [0, 0, 0] }
  { accessed with
    object := Function.update accessed.object node (some filled)
    _characterCacheByNameStore := accessed._characterCacheByNameStore.put row.name node }

def deleteCharacterCacheEntry (guid : Nat) (name : String) : CharacterCache :=
  { cache with
    _characterCacheStore := cache._characterCacheStore.remove guid
    object :=
      match cache._characterCacheStore.get? guid with
      | some node => Function.update cache.object node none
      | none => cache.object
    _characterCacheByNameStore := cache._characterCacheByNameStore.remove name }

def change (node : Nat) (change : CharacterCacheEntry → CharacterCacheEntry) : CharacterCache :=
  { cache with object := Function.update cache.object node ((cache.object node).map change) }

def updateCharacterData (guid : Nat) (name : String) (gender race : Option (BitVec 8))
    : CharacterCache :=
  match cache._characterCacheStore.get? guid with
  | none => cache
  | some node =>
      let oldName := ((cache.object node).map CharacterCacheEntry.Name).getD ""
      let changed := cache.change node (fun entry => { entry with
        Name := name
        Sex := gender.getD entry.Sex
        Race := race.getD entry.Race })
      { changed with
        _characterCacheByNameStore :=
          (changed._characterCacheByNameStore.remove oldName).put name node }

def updateCharacterMailCount (guid count : Nat) : CharacterCache :=
  match cache._characterCacheStore.get? guid with
  | none => cache
  | some node => cache.change node (fun entry => { entry with MailCount := BitVec.ofNat 8 count })

-- Reads of the database

def updateMailCounts (counts : List (Nat × Nat)) : CharacterCache :=
  counts.foldl (fun cache (guid, count) => cache.updateCharacterMailCount guid count) cache

def clearStore : CharacterCache :=
  { cache with
    _characterCacheStore := ∅
    object := fun node =>
      if node ∈ cache._characterCacheStore.values then none else cache.object node }

/-- LoadCharacterCacheStorage; an empty result ends it early. -/
def loadCharacterCacheStorage (database : Database) : CharacterCache :=
  let added := database.characters.entries.foldl
    (fun cache row => cache.addCharacterCacheEntry row.1 row.2) cache.clearStore
  if database.characters.entries = [] then added
  else added.updateMailCounts (database.mails.entries.map (fun count => (count.1, count.2)))

def refreshCacheEntry (database : Database) (guid : Nat) : CharacterCache :=
  match database.characters.get? guid with
  | none => cache
  | some row =>
      let added := (cache.deleteCharacterCacheEntry guid row.name).addCharacterCacheEntry guid row
      added.updateMailCounts ((database.mails.get? guid).toList.map (fun count => (guid, count)))

end CharacterCache

-- Steps

structure World where
  database : Database := {}
  cache : CharacterCache := {}

def Database.free (database : Database) (guid : Nat) (name : String) : Bool :=
  database.characters.entries.all (fun row => row.1 == guid || row.2.name != name)

/-- Characters that are made, renamed and deleted, with what this does to the cache, changes of
rows by others, and the two reads of the database.
-/
inductive Step where
  | add (guid : Nat) (row : CharacterRow)
  | rename (guid : Nat) (name : String) (gender race : Option (BitVec 8))
  | change (guid : Nat) (row : CharacterRow)
  | refresh (guid : Nat)
  | delete (guid : Nat) (name : String)
  | reload

namespace World

variable (world : World)

/-- A row of the table is written; names of characters are distinct. -/
def write (guid : Nat) (row : CharacterRow) (cache : CharacterCache) : World :=
  if world.database.free guid row.name then
    { database := { world.database with characters := world.database.characters.put guid row }
      cache }
  else world

def step : Step → World
  | .add guid row => world.write guid row (world.cache.addCharacterCacheEntry guid row)
  | .rename guid name gender race =>
      match world.database.characters.get? guid with
      | none => world
      | some row =>
          let renamed : CharacterRow := { row with
            name
            gender := gender.getD row.gender
            race := race.getD row.race }
          world.write guid renamed (world.cache.updateCharacterData guid name gender race)
  | .change guid row => world.write guid row world.cache
  | .refresh guid => { world with cache := world.cache.refreshCacheEntry world.database guid }
  | .delete guid name =>
      { database :=
          { world.database with characters := world.database.characters.remove guid }
        cache := world.cache.deleteCharacterCacheEntry guid name }
  | .reload => { world with cache := world.cache.loadCharacterCacheStorage world.database }

end World

end WarheadCore.Cache
