import WarheadCore.Reputation.Counters

/-! The states that `Initialize` and `LoadFromDB` leave, faction by faction.
Every faction with a place in the list starts anew, and a row replaces what it names.
-/

namespace WarheadCore.Reputation

open Foundation (Table toUInt8 toInt32)

namespace ReputationMgr

variable {owner : Owner} {mgr : ReputationMgr} {entry : FactionEntry}
  {listID : Nat} {faction : FactionState}

-- Initial states

/-- The factions of a list have their initial states, and there are no others. -/
structure Started (owner : Owner) (factions : Table Nat FactionState) (done : List FactionEntry)
    : Prop where
  present : ∀ entry ∈ done, entry.canHaveReputation = true
    → factions.get? entry.listID = some (newFaction owner entry)
  only : ∀ {listID faction}, factions.get? listID = some faction
    → ∃ entry ∈ done, entry.canHaveReputation = true ∧ entry.listID = listID

theorem factions_initializeFaction (mgr : ReputationMgr) (entry : FactionEntry)
    : (mgr.initializeFaction owner entry).factions
      = if entry.canHaveReputation then mgr.factions.put entry.listID (newFaction owner entry)
        else mgr.factions := by
  unfold initializeFaction updateRankCounters
  split
  · dsimp only
    split <;> rfl
  · rfl

/-- A faction that is initialised takes a place that was free. -/
theorem Started.absent {done : List FactionEntry} (started : Started owner mgr.factions done)
    (known : ∀ entry ∈ done, owner.Known entry) (known' : owner.Known entry) (fresh : entry ∉ done)
    (listed : entry.canHaveReputation = true)
    : mgr.factions.get? entry.listID = none := by
  cases found : mgr.factions.get? entry.listID with
  | none => rfl
  | some faction =>
      obtain ⟨other, member, _, place⟩ := started.only found
      obtain rfl := known'.eq_of_listID (known other member) listed place.symm
      exact absurd member fresh

theorem Started.initializeFaction {done : List FactionEntry}
    (started : Started owner mgr.factions done) (known : ∀ entry ∈ done, owner.Known entry)
    (known' : owner.Known entry) (fresh : entry ∉ done)
    : Started owner (mgr.initializeFaction owner entry).factions (done ++ [entry]) := by
  rw [factions_initializeFaction]
  split
  · next listed =>
      refine ⟨fun other member listed' => ?_, fun {place faction} found => ?_⟩
      · rw [Table.get?_put]
        rcases List.mem_append.mp member with earlier | here
        · have apart : other.listID ≠ entry.listID := by
            intro same
            obtain rfl := known'.eq_of_listID (known other earlier) listed same.symm
            exact fresh earlier
          rw [if_neg apart]
          exact started.present other earlier listed'
        · obtain rfl := List.mem_singleton.mp here
          rw [if_pos rfl]
      · rw [Table.get?_put] at found
        split at found
        · next here => exact ⟨entry, by simp, listed, here.symm⟩
        · obtain ⟨other, member, rest⟩ := started.only found
          exact ⟨other, List.mem_append_left _ member, rest⟩
  · next unlisted =>
      refine ⟨fun other member listed' => ?_, fun {place faction} found => ?_⟩
      · rcases List.mem_append.mp member with earlier | here
        · exact started.present other earlier listed'
        · obtain rfl := List.mem_singleton.mp here
          exact absurd listed' unlisted
      · obtain ⟨other, member, rest⟩ := started.only found
        exact ⟨other, List.mem_append_left _ member, rest⟩

theorem Started.indexed {factions : Table Nat FactionState} {done : List FactionEntry}
    (started : Started owner factions done) (known : ∀ entry ∈ done, owner.Known entry)
    : Indexed owner factions := by
  intro listID faction found
  obtain ⟨entry, member, listed, rfl⟩ := started.only found
  obtain rfl := Option.some.inj (found.symm.trans (started.present entry member listed))
  exact ⟨entry, known entry member, rfl, listed, rfl⟩

/-- What every turn of the loop of `Initialize` keeps holds at its end. -/
theorem initialize_induct {P : List FactionEntry → ReputationMgr → Prop} (initial : P [] {})
    (step
      : ∀ done mgr entry, (∀ entry ∈ done, owner.Known entry) → owner.Known entry → entry ∉ done
          → P done mgr → P (done ++ [entry]) (mgr.initializeFaction owner entry))
    : P owner.store.rows (initialize_ owner) := by
  have distinct : owner.store.rows.Nodup := owner.store.distinct.of_map
  have known : ∀ entry ∈ owner.store.rows, owner.Known entry := fun _ member => member
  unfold initialize_
  have pass (rest done : List FactionEntry) (mgr : ReputationMgr) (before : P done mgr)
      (distinct : (done ++ rest).Nodup) (known : ∀ entry ∈ done ++ rest, owner.Known entry)
      : P (done ++ rest) (rest.foldl (initializeFaction owner) mgr) := by
    induction rest generalizing done mgr with
    | nil => simpa using before
    | cons entry rest ih =>
        have apart : entry ∉ done := by
          intro member
          exact (List.nodup_append.mp distinct).2.2 entry member entry List.mem_cons_self rfl
        have next := step done mgr entry
          (fun other member => known other (List.mem_append_left _ member))
          (known entry (List.mem_append_right _ List.mem_cons_self)) apart before
        have all : done ++ entry :: rest = done ++ [entry] ++ rest := by simp
        rw [all] at distinct known ⊢
        exact ih (done ++ [entry]) _ next distinct known
  exact pass owner.store.rows [] {} initial distinct known

theorem started_initial (owner : Owner)
    : Started owner (initialize_ owner).factions owner.store.rows := by
  refine initialize_induct (P := fun done mgr => Started owner mgr.factions done) ?_ ?_
  · exact ⟨fun entry member => absurd member (List.not_mem_nil), fun none_ => nomatch none_⟩
  · exact fun done mgr entry known known' fresh started =>
      started.initializeFaction known known' fresh

-- Loaded states

def loadedState (row : Row) (rank : ReputationRank) (faction : FactionState) : FactionState :=
  let standing := { faction with standing := row.standing }
  restoreFlags (if row.flags.visible then standing.setVisible else standing) row rank

def loadedRank (owner : Owner) (entry : FactionEntry) (row : Row) : ReputationRank :=
  reputationToRank (toInt32 (owner.getBaseReputation entry + row.standing))

def loadedFaction (owner : Owner) (rows : Table Nat Row) (entry : FactionEntry) : FactionState :=
  match rows.get? entry.id with
  | some row => loadedState row (loadedRank owner entry row) (newFaction owner entry)
  | none => newFaction owner entry

/-- A row changes the state of its faction only, at some rank. -/
theorem exists_factions_loadRow {id : Nat} (found : owner.lookupEntry id = some entry)
    (listed : entry.canHaveReputation = true) (row : Row)
    : ∃ rank, (mgr.loadRow owner id row).factions
          = mgr.factions.modify entry.listID (loadedState row rank)
        ∧ ((mgr.factions.get? entry.listID).isSome → rank = loadedRank owner entry row) := by
  let counted := (mgr.changeState entry.listID
    (fun faction => { faction with standing := row.standing })).updateRankCounters
      (reputationToRank (owner.getBaseReputation entry)) (loadedRank owner entry row)
  let shown := if row.flags.visible then counted.setVisibleState entry.listID else counted
  have factions : shown.factions = mgr.factions.modify entry.listID (fun faction =>
      let standing := { faction with standing := row.standing }
      if row.flags.visible then standing.setVisible else standing) := by
    dsimp only [shown]
    split
    · exact (factions_setVisibleState _ _).trans (Table.modify_modify _ _ _ _)
    · rfl
  refine ⟨shown.getRank owner (some entry), ?_, fun some_ => ?_⟩
  · have whole : (mgr.loadRow owner id row).factions = shown.factions.modify entry.listID
        (fun faction => restoreFlags faction row (shown.getRank owner (some entry))) := by
      rw [loadRow, found]
      dsimp only
      rw [if_pos listed]
      rfl
    rw [whole, factions, Table.modify_modify]
    rfl
  · obtain ⟨faction, there⟩ := Option.isSome_iff_exists.mp some_
    have state : (shown.getState entry).map FactionState.standing = some row.standing := by
      rw [getState, if_pos listed, factions, Table.get?_modify_self, there]
      dsimp only [Option.map_some]
      split
      · exact congrArg some (fields_setVisible _).2
      · rfl
    obtain ⟨loaded, here, standing⟩ := Option.map_eq_some_iff.mp state
    rw [getRank, getReputation, here]
    exact congrArg (fun standing => reputationToRank (toInt32 (owner.getBaseReputation entry
      + standing))) standing

/-- A row changes the state of its faction, at the rank that it gives it. -/
theorem factions_loadRow {id : Nat} (found : owner.lookupEntry id = some entry)
    (listed : entry.canHaveReputation = true) (row : Row)
    (there : mgr.factions.get? entry.listID = some faction)
    : (mgr.loadRow owner id row).factions
      = mgr.factions.modify entry.listID (loadedState row (loadedRank owner entry row)) := by
  obtain ⟨rank, changed, same⟩ := @exists_factions_loadRow owner mgr entry id found listed row
  rw [changed, same (there ▸ rfl)]

def Described (owner : Owner) (rows : Table Nat Row) (rest : List ((_ : Nat) × Row))
    (mgr : ReputationMgr) : Prop :=
  ∀ entry, owner.Known entry → entry.canHaveReputation = true
    → mgr.factions.get? entry.listID
      = some (if entry.id ∈ rest.map Sigma.fst then newFaction owner entry
        else loadedFaction owner rows entry)

/-- What every turn of the loop of `LoadFromDB` keeps holds at its end. -/
theorem load_induct {rows : Table Nat Row} {P : List ((_ : Nat) × Row) → ReputationMgr → Prop}
    (initial : P rows.entries (initialize_ owner))
    (step
      : ∀ id row rest mgr, id ∉ rest.map Sigma.fst → rows.get? id = some row
          → P (⟨id, row⟩ :: rest) mgr → P rest (mgr.loadRow owner id row))
    : P [] (loadFromDB owner rows) := by
  have distinct := rows.nodupKeys
  have stored : ∀ entry ∈ rows.entries, rows.get? entry.1 = some entry.2 :=
    fun _ member => Table.get?_eq_some_iff.mpr member
  unfold loadFromDB
  generalize rows.entries = rest at initial distinct stored
  generalize initialize_ owner = mgr at initial ⊢
  induction rest generalizing mgr with
  | nil => exact initial
  | cons head rest ih =>
      have apart := (List.nodupKeys_cons.mp distinct).1
      have next := step head.1 head.2 rest mgr apart (stored head List.mem_cons_self) initial
      exact ih (List.nodupKeys_cons.mp distinct).2
        (fun entry member => stored entry (List.mem_cons_of_mem _ member)) _ next

theorem Described.loadRow {rows : Table Nat Row} {id : Nat} {row : Row}
    {rest : List ((_ : Nat) × Row)} (described : Described owner rows (⟨id, row⟩ :: rest) mgr)
    (fresh : id ∉ rest.map Sigma.fst) (stored : rows.get? id = some row)
    : Described owner rows rest (mgr.loadRow owner id row) := by
  intro entry known listed
  have before := described entry known listed
  rw [List.map_cons] at before
  by_cases here : entry.id = id
  · subst here
    rw [if_pos List.mem_cons_self] at before
    rw [factions_loadRow known.lookupEntry listed row before, Table.get?_modify_self, before,
      if_neg fresh, loadedFaction, stored]
    rfl
  · have waiting : entry.id ∈ id :: rest.map Sigma.fst ↔ entry.id ∈ rest.map Sigma.fst := by
      simp [here]
    have kept : (mgr.loadRow owner id row).factions.get? entry.listID
        = mgr.factions.get? entry.listID := by
      cases found : owner.lookupEntry id with
      | none => rw [ReputationMgr.loadRow, found]
      | some other =>
          obtain ⟨known', same⟩ := Owner.known_of_lookupEntry found
          cases listed' : other.canHaveReputation with
          | false =>
              rw [ReputationMgr.loadRow, found]
              dsimp only
              rw [listed']
              rfl
          | true =>
              have apart : entry.listID ≠ other.listID := by
                intro place
                obtain rfl := known.eq_of_listID known' listed place
                exact here same
              rw [factions_loadRow found listed' row (described other known' listed'),
                Table.get?_modify_of_ne _ _ apart]
    rw [kept, before]
    simp only [waiting]

theorem described_initial (owner : Owner) (rows : Table Nat Row)
    : Described owner rows rows.entries (initialize_ owner) := by
  intro entry known listed
  rw [(started_initial owner).present entry known listed]
  split
  · rfl
  · next absent =>
      have none_ : rows.get? entry.id = none := by
        cases stored : rows.get? entry.id with
        | none => rfl
        | some row =>
            exact absurd (List.mem_map_of_mem (Table.get?_eq_some_iff.mp stored)) absent
      rw [loadedFaction, none_]

theorem get?_loadFromDB (rows : Table Nat Row) (known : owner.Known entry)
    (listed : entry.canHaveReputation = true)
    : (loadFromDB owner rows).factions.get? entry.listID
      = some (loadedFaction owner rows entry) := by
  have described : Described owner rows [] (loadFromDB owner rows) :=
    load_induct (described_initial owner rows)
      (fun _ _ _ _ fresh stored described => described.loadRow fresh stored)
  rw [described entry known listed]
  rfl

theorem fields_loadedState (row : Row) (rank : ReputationRank) (faction : FactionState)
    : (loadedState row rank faction).id = faction.id
      ∧ (loadedState row rank faction).standing = row.standing := by
  have restored := unseen_restoreFlags row rank
  unfold loadedState
  dsimp only
  rw [restored.id, restored.standing]
  split
  · exact fields_setVisible _
  · exact ⟨rfl, rfl⟩

/-- Loading keeps every state at the place of its faction. -/
theorem indexed_loadRow (indexed : Indexed owner mgr.factions) (id : Nat) (row : Row)
    : Indexed owner (mgr.loadRow owner id row).factions := by
  cases found : owner.lookupEntry id with
  | none =>
      rw [ReputationMgr.loadRow, found]
      exact indexed
  | some entry =>
      cases listed : entry.canHaveReputation with
      | false =>
          rw [ReputationMgr.loadRow, found]
          dsimp only
          rw [listed]
          exact indexed
      | true =>
          obtain ⟨rank, changed, _⟩ := @exists_factions_loadRow owner mgr entry id found listed row
          rw [changed]
          exact Indexed.modify indexed (fun faction => (fields_loadedState row rank faction).1)

/-- Loading leaves no states but those of the factions in the list. -/
theorem indexed_loadFromDB (owner : Owner) (rows : Table Nat Row)
    : Indexed owner (loadFromDB owner rows).factions :=
  load_induct (P := fun _ mgr => Indexed owner mgr.factions)
    ((started_initial owner).indexed (fun _ member => member))
    (fun id row _ _ _ _ indexed => indexed_loadRow indexed id row)

end ReputationMgr

end WarheadCore.Reputation
