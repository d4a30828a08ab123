import WarheadCore.Guilds.RosterChanges

/-! What a restart makes of a kept guild, and runs of a guild from its creation.
Loading brings back the roster less the members whose character is gone, and Validate changes
it only where the leader or the guild master rank needs repair. In a run the guild stays kept, and
every request makes one of the roster changes.
-/

namespace WarheadCore.Guilds

open Foundation WarheadCore.Player

/-- Every rank of the second roster comes from the first or is one that a repair hands out. -/
structure Roster.Draws (before after : Roster) : Prop where
  count : after.rankCount = before.rankCount
  ranks : ∀ guid rank, after.rank guid = some rank
    → rank = grGuildmaster ∨ rank = grOfficer ∨ rank = before.rankCount - 1
      ∨ before.rank guid = some rank

theorem Roster.Draws.refl (roster : Roster)
    : roster.Draws roster := ⟨rfl, fun _ _ held => .inr (.inr (.inr held))⟩

/-- Repairs in sequence, by following a rank back through the second one. -/
theorem Roster.Draws.trans {first second third : Roster} (left : first.Draws second)
    (right : second.Draws third)
    : first.Draws third := by
  refine ⟨right.count.trans left.count, ?_⟩
  intro guid rank held
  rcases right.ranks guid rank held with master | officer | lowest | before
  · exact .inl master
  · exact .inr (.inl officer)
  · rw [left.count] at lowest
    exact .inr (.inr (.inl lowest))
  · exact left.ranks guid rank before

-- Loading

/-- Loading rank rows appends their ranks and touches nothing else. -/
theorem foldl_loadRankFromDB (rows : List RankRow) (guild : Guild)
    : rows.foldl Guild.loadRankFromDB guild
      = { guild with ranks := guild.ranks ++ rows.map RankRow.load } := by
  induction rows generalizing guild with
  | nil => simp
  | cons row rest ih => simp [ih, Guild.loadRankFromDB]

/-- Rows in the order of their ids stay as they are under the ORDER BY of the query. -/
theorem mergeSort_rows {rows : List RankRow} {count : Nat}
    (h : rows.map RankRow.rid = List.range count)
    : rows.mergeSort (fun a b => a.rid ≤ b.rid) = rows := by
  apply List.mergeSort_of_pairwise
  have sorted : (rows.map RankRow.rid).Pairwise (· ≤ ·) := by
    rw [h]
    exact List.pairwise_le_range
  simpa [List.pairwise_map] using sorted

/-- How far the member rows are loaded: a row still to come has no member yet, and every other
row belongs to a member of its rank.
-/
structure MembersLoaded (original : Table Nat Nat) (live : LiveGuild)
    (rest : List ((_ : Nat) × Nat)) : Prop where
  ahead : ∀ row ∈ rest, live.guild.members.get? row.1 = none
    ∧ live.db.guildMember.get? row.1 = some row.2
  done : ∀ guid, guid ∉ rest.map Sigma.fst
    → live.db.guildMember.get? guid = (live.guild.members.get? guid).map Member.rankId
  origin : ∀ guid member, live.guild.members.get? guid = some member
    → original.get? guid = some member.rankId

/-- One row loaded keeps the account, by cases on the character's stats. -/
theorem MembersLoaded.next {original : Table Nat Nat} {live : LiveGuild}
    {characters : Nat → Option CharacterRow} {row : (_ : Nat) × Nat}
    {rest : List ((_ : Nat) × Nat)} (h : MembersLoaded original live (row :: rest))
    (distinct : row.1 ∉ rest.map Sigma.fst) (listed : original.get? row.1 = some row.2)
    : MembersLoaded original (live.loadMemberFromDB characters row) rest := by
  obtain ⟨absent, stored⟩ := h.ahead row List.mem_cons_self
  have apart : ∀ later ∈ rest, later.1 ≠ row.1 := by
    intro later member same
    exact distinct (same ▸ List.mem_map_of_mem member)
  unfold LiveGuild.loadMemberFromDB
  simp only [Guild.getMember, absent, Option.isSome_none, Bool.false_eq_true, if_false]
  have rank : (loadMember row.2 (live.db.guildMemberWithdraw.get? row.1)
      (characters row.1)).rankId = row.2 := rfl
  generalize loadMember row.2 (live.db.guildMemberWithdraw.get? row.1) (characters row.1) = member
    at rank ⊢
  split
  · refine ⟨?_, ?_, ?_⟩
    · intro later present
      obtain ⟨none, some⟩ := h.ahead later (List.mem_cons_of_mem _ present)
      exact ⟨by simp [Table.get?_emplace, apart later present, none], some⟩
    · intro guid processed
      by_cases same : guid = row.1
      · subst same
        simp [Table.get?_emplace, absent, stored, rank]
      · have before := h.done guid (by simp [same, processed])
        simpa [Table.get?_emplace, same] using before
    · intro guid found held
      by_cases same : guid = row.1
      · subst same
        simp only [Table.get?_emplace, if_true, absent, Option.getD_none, Option.some.injEq] at held
        rw [listed, ← held, rank]
      · simp only [Table.get?_emplace, same, if_false] at held
        exact h.origin guid found held
  · refine ⟨?_, ?_, ?_⟩
    · intro later present
      obtain ⟨none, some⟩ := h.ahead later (List.mem_cons_of_mem _ present)
      exact ⟨none, by simp [Table.get?_remove, apart later present, some]⟩
    · intro guid processed
      by_cases same : guid = row.1
      · subst same
        simp [absent]
      · have before := h.done guid (by simp [same, processed])
        simpa [Table.get?_remove, same] using before
    · exact h.origin

/-- All rows loaded, by induction on the rows still to come. -/
theorem MembersLoaded.all {original : Table Nat Nat} {characters : Nat → Option CharacterRow}
    (rows : List ((_ : Nat) × Nat)) {live : LiveGuild} (h : MembersLoaded original live rows)
    (distinct : (rows.map Sigma.fst).Nodup)
    (listed : ∀ row ∈ rows, original.get? row.1 = some row.2)
    : MembersLoaded original (rows.foldl (LiveGuild.loadMemberFromDB characters) live) [] := by
  induction rows generalizing live with
  | nil => exact h
  | cons row rest ih =>
      rw [List.map_cons, List.nodup_cons] at distinct
      exact ih (h.next distinct.1 (listed row List.mem_cons_self)) distinct.2
        (fun later member => listed later (List.mem_cons_of_mem _ member))

/-- Loading members touches the members and their rows only. -/
theorem foldl_loadMemberFromDB_frame (characters : Nat → Option CharacterRow)
    (rows : List ((_ : Nat) × Nat)) (live : LiveGuild)
    : ∃ members guildMember, rows.foldl (LiveGuild.loadMemberFromDB characters) live
      = { guild := { live.guild with members }, db := { live.db with guildMember } } := by
  induction rows generalizing live with
  | nil => exact ⟨_, _, rfl⟩
  | cons row rest ih =>
      rw [List.foldl_cons]
      obtain ⟨members, guildMember, loaded⟩ := ih (live.loadMemberFromDB characters row)
      rw [loaded]
      unfold LiveGuild.loadMemberFromDB
      split
      · exact ⟨members, guildMember, rfl⟩
      · simp only
        split <;> exact ⟨members, guildMember, rfl⟩

/-- The ranks of a kept guild come back in sequence. -/
theorem LiveGuild.Kept.loadRanks {live : LiveGuild} (h : live.Kept) (row : GuildRow)
    : loadRanks row live.db
      = { guild := { loadFromDB row live.db.guildBankTabs with
            ranks := live.db.guildRank.map RankRow.load }
          db := live.db } := by
  unfold WarheadCore.Guilds.loadRanks
  rw [mergeSort_rows h.rows, foldl_loadRankFromDB]
  rfl

/-- After the members, the definition and the ranks are still those of the rows. -/
theorem LiveGuild.Kept.loadMembers_shape {live : LiveGuild} (h : live.Kept) (row : GuildRow)
    (characters : Nat → Option CharacterRow)
    : ∃ members guildMember, loadMembers characters row live.db
      = { guild := { loadFromDB row live.db.guildBankTabs with
            ranks := live.db.guildRank.map RankRow.load, members }
          db := { live.db with guildMember } } := by
  unfold WarheadCore.Guilds.loadMembers
  rw [h.loadRanks]
  exact foldl_loadMemberFromDB_frame characters live.db.guildMember.entries _

/-- Before the first row all members are still to come, after the last row none is. -/
theorem LiveGuild.Kept.membersLoaded {live : LiveGuild} (h : live.Kept) (row : GuildRow)
    (characters : Nat → Option CharacterRow)
    : MembersLoaded live.db.guildMember (loadMembers characters row live.db) [] := by
  have begun : MembersLoaded live.db.guildMember
      (WarheadCore.Guilds.loadRanks row live.db) live.db.guildMember.entries := by
    rw [h.loadRanks]
    refine ⟨?_, ?_, ?_⟩
    · exact fun row present => ⟨rfl, Table.get?_eq_some_iff.mpr present⟩
    · intro guid absent
      have none : live.db.guildMember.get? guid = none := by
        by_contra present
        obtain ⟨rank, stored⟩ := Option.ne_none_iff_exists'.mp present
        exact absent (List.mem_map_of_mem (Table.get?_eq_some_iff.mp stored))
      simpa [loadFromDB] using none
    · intro guid member held
      simp [loadFromDB] at held
  exact begun.all live.db.guildMember.entries live.db.guildMember.nodupKeys
    (fun row present => Table.get?_eq_some_iff.mpr present)

/-- A kept guild comes back kept, with the leader of its row and no new ranks. -/
theorem LiveGuild.Kept.loadRows {live : LiveGuild} (h : live.Kept) {row : GuildRow}
    (found : live.db.guild = some row) (characters : Nat → Option CharacterRow)
    : (loadRows characters row live.db).Kept
      ∧ live.guild.roster.Draws (loadRows characters row live.db).guild.roster := by
  obtain ⟨stored, found', _, members⟩ := h.row
  rw [found, Option.some.injEq] at found'
  subst found'
  have rights : SameStanding (loadMembers characters row live.db)
      (WarheadCore.Guilds.loadRows characters row live.db) :=
    .foldl (fun live row => sameStanding_setRankBankTabRightsAndSlots live _ _ _) _ _
  have loaded := h.membersLoaded row characters
  obtain ⟨loadedMembers, loadedRows, shape⟩ := h.loadMembers_shape row characters
  generalize loadMembers characters row live.db = joined at rights loaded shape
  have ids := congrArg List.length h.rows
  simp only [List.length_map, List.length_range] at ids
  have ranks : ∀ guid rank, joined.guild.roster.rank guid = some rank
      → live.guild.roster.rank guid = some rank := by
    intro guid rank held
    obtain ⟨member, here, rfl⟩ := Option.map_eq_some_iff.mp held
    rw [← members]
    exact loaded.origin guid member here
  have joinedKept : joined.Kept := by
    refine ⟨?_, ?_, ?_, ?_, ?_, fun guid rank held => h.bounded guid rank (ranks guid rank held)⟩
    · simpa [shape, ids] using h.enough
    · simpa [shape, ids] using h.few
    · have sameIds : RankInfo.rankId ∘ RankRow.load = RankRow.rid := rfl
      simp [shape, ids, sameIds, h.rows]
    · simp [shape, ids, h.rows]
    · have same : joined.db.guildMember.get?
          = fun guid => (joined.guild.members.get? guid).map Member.rankId :=
        funext fun guid => loaded.done guid (by simp)
      rw [shape] at same ⊢
      simp only at same
      simp [GuildDatabase.roster, Guild.roster, found, same, loadFromDB]
  refine ⟨joinedKept.same rights, ?_⟩
  rw [rights.roster]
  refine ⟨?_, fun guid rank held => .inr (.inr (.inr (ranks guid rank held)))⟩
  simp [shape, Guild.roster, ids]

-- Validation

/-- In a kept guild no rank is broken, and only its tab rights are filled in. -/
theorem LiveGuild.Kept.validateRank {live : LiveGuild} (h : live.Kept) {rankId : Nat}
    (inside : rankId < live.guild.ranks.length)
    : (LiveGuild.validateRank (false, live) rankId).1 = false
      ∧ SameStanding live (LiveGuild.validateRank (false, live) rankId).2 := by
  obtain ⟨info, found, id⟩ := h.rankInfo inside
  unfold LiveGuild.validateRank
  simp only [found, id, ne_eq, not_true_eq_false, if_false, true_and]
  obtain ⟨sameId, rights, sameDb⟩ :=
    createMissingTabsIfNeeded_spec info live.guild.purchasedTabs live.db
  rw [sameDb]
  refine ⟨?_, rfl, roster_modifyRank _ _ _, rfl⟩
  apply ids_modifyRank
  intro stored here
  have same : live.guild.ranks[rankId]? = some info := by
    unfold Guild.getRankInfo at found
    split at found
    · exact found
    · cases found
  rw [here, Option.some.injEq] at same
  rw [sameId, same]

/-- The first loop of Validate leaves the roster of a kept guild alone. -/
theorem LiveGuild.Kept.validateRanks {live : LiveGuild} (h : live.Kept)
    : SameStanding live live.validateRanks := by
  have loop : ∀ count ≤ live.guild.ranks.length,
      ((List.range count).foldl LiveGuild.validateRank (false, live)).1 = false
        ∧ SameStanding live ((List.range count).foldl LiveGuild.validateRank (false, live)).2 := by
    intro count
    induction count with
    | zero => exact fun _ => ⟨rfl, .refl live⟩
    | succ count ih =>
        intro inside
        obtain ⟨sound, same⟩ := ih (by omega)
        rw [List.range_succ, List.foldl_append]
        generalize (List.range count).foldl LiveGuild.validateRank (false, live) = state
          at sound same ⊢
        obtain ⟨broken, checked⟩ := state
        simp only at sound same
        subst sound
        have length : checked.guild.ranks.length = live.guild.ranks.length := by
          simpa using congrArg List.length same.ids
        have next : count < checked.guild.ranks.length := by omega
        obtain ⟨next, still⟩ := (h.same same).validateRank next
        exact ⟨next, same.trans still⟩
  have enough := h.enough
  have few := h.few
  obtain ⟨sound, same⟩ := loop _ le_rfl
  unfold LiveGuild.validateRanks
  simp only [h.ranksSize]
  have sound' : ¬(decide (live.guild.ranks.length < guildRanksMinCount)
      || decide (live.guild.ranks.length > guildRanksMaxCount)) = true := by
    simp only [Bool.or_eq_true, decide_eq_true_eq]
    omega
  rw [if_neg sound']
  generalize (List.range live.guild.ranks.length).foldl LiveGuild.validateRank (false, live)
    = state at sound same ⊢
  simp only [sound, Bool.false_eq_true, if_false]
  exact same

/-- A loop that changes the rank of all wrong members, read at one guid. -/
theorem rank_changeRankOfAll (live : LiveGuild) (wrong : Nat → Member → Bool) (newRank guid : Nat)
    : (live.changeRankOfAll wrong newRank).guild.roster.rank guid
      = (live.guild.members.get? guid).map
          (fun member => if wrong guid member then newRank else member.rankId) := by
  have loop : ∀ (entries : List ((_ : Nat) × Member)) (live : LiveGuild),
      (entries.foldl (fun live entry =>
          if wrong entry.1 entry.2 then live.changeRank entry.1 newRank else live)
        live).guild.roster.rank guid
      = if entries.any (fun entry => entry.1 == guid && wrong entry.1 entry.2)
        then (live.guild.roster.rank guid).map (fun _ => newRank)
        else live.guild.roster.rank guid := by
    intro entries
    induction entries with
    | nil => simp
    | cons entry rest ih =>
        intro live
        rw [List.foldl_cons, ih, List.any_cons]
        cases here : wrong entry.1 entry.2 with
        | false => rw [Bool.and_false, Bool.false_or, if_neg Bool.false_ne_true]
        | true =>
            by_cases mine : entry.1 = guid
            · subst mine
              simp [Roster.assign, Function.comp_def]
            · have head : (entry.1 == guid && true) = false := by simp [mine]
              rw [head, Bool.false_or, if_pos rfl, roster_changeRank]
              simp only [Roster.assign, if_neg (Ne.symm mine)]
  unfold LiveGuild.changeRankOfAll
  rw [loop]
  cases found : live.guild.members.get? guid with
  | none => simp [Guild.roster, found]
  | some member =>
      have listed : live.guild.members.entries.any
          (fun entry => entry.1 == guid && wrong entry.1 entry.2) = wrong guid member := by
        rw [Bool.eq_iff_iff, List.any_eq_true]
        constructor
        · rintro ⟨⟨other, stored⟩, present, bad⟩
          rw [Bool.and_eq_true, beq_iff_eq] at bad
          obtain ⟨rfl, bad⟩ := bad
          have same := Table.get?_eq_some_iff.mpr present
          rw [found, Option.some.injEq] at same
          exact same ▸ bad
        · exact fun bad => ⟨⟨guid, member⟩, Table.get?_eq_some_iff.mp found, by simp [bad]⟩
      simp only [listed, Guild.roster, found, Option.map_some]
      split <;> rfl

/-- The loop keeps the guild, its leader and its rank table. -/
theorem LiveGuild.Kept.changeRankOfAll {live : LiveGuild} (h : live.Kept)
    (wrong : Nat → Member → Bool) {newRank : Nat} (small : newRank < guildRanksMaxCount)
    : (live.changeRankOfAll wrong newRank).Kept
      ∧ (live.changeRankOfAll wrong newRank).guild.leaderGuid = live.guild.leaderGuid
      ∧ (live.changeRankOfAll wrong newRank).guild.ranks = live.guild.ranks := by
  unfold LiveGuild.changeRankOfAll
  generalize live.guild.members.entries = entries
  induction entries generalizing live with
  | nil => exact ⟨h, rfl, rfl⟩
  | cons entry rest ih =>
      rw [List.foldl_cons]
      split
      · exact ih (h.changeRank entry.1 small)
      · exact ih h

/-- The loop draws its ranks from the guild and the new rank. -/
theorem LiveGuild.Kept.draws_changeRankOfAll {live : LiveGuild} (h : live.Kept)
    (wrong : Nat → Member → Bool) {newRank : Nat} (small : newRank < guildRanksMaxCount)
    (handed : newRank = grOfficer ∨ newRank = live.guild.roster.rankCount - 1)
    : live.guild.roster.Draws (live.changeRankOfAll wrong newRank).guild.roster := by
  refine ⟨by simp [Guild.roster, (h.changeRankOfAll wrong small).2.2], ?_⟩
  intro guid rank held
  rw [rank_changeRankOfAll] at held
  obtain ⟨member, found, ranked⟩ := Option.map_eq_some_iff.mp held
  split at ranked
  · subst ranked
    rcases handed with officer | lowest
    · exact .inr (.inl officer)
    · exact .inr (.inr (.inl lowest))
  · exact .inr (.inr (.inr (by simp [Guild.roster, found, ranked])))

/-- A new leader draws on nothing but his own new rank. -/
theorem Roster.draws_lead (roster : Roster) (guid : Nat)
    : roster.Draws (roster.lead guid) := by
  refine ⟨rfl, ?_⟩
  intro other rank held
  simp only [Roster.lead, Roster.assign] at held
  split at held
  · obtain ⟨_, _, rfl⟩ := Option.map_eq_some_iff.mp held
    exact .inl rfl
  · exact .inr (.inr (.inr held))

theorem Roster.draws_erase (roster : Roster) (guid : Nat)
    : roster.Draws (roster.erase guid) := by
  refine ⟨rfl, ?_⟩
  intro other rank held
  simp only [Roster.erase] at held
  split at held
  · cases held
  · exact .inr (.inr (.inr held))

/-- A validated leader is a member of the first rank, if the guild is still there. -/
structure Persisted.Led (persisted : Persisted) (before : Roster) : Prop where
  kept : ∀ guild, persisted.guild = some guild → LiveGuild.Kept { guild, db := persisted.db }
  draws : ∀ guild, persisted.guild = some guild → before.Draws guild.roster
  leads : ∀ guild, persisted.guild = some guild
    → guild.roster.rank guild.leaderGuid = some grGuildmaster

/-- The repair of the leader, by cases on whether he is there and holds his rank. -/
theorem LiveGuild.Kept.validateLeader {live : LiveGuild} (h : live.Kept)
    : live.validateLeader.Led live.guild.roster := by
  unfold LiveGuild.validateLeader
  split
  · unfold LiveGuild.deleteMember
    rw [if_pos rfl]
    split
    · constructor <;> rintro guild ⟨⟩
    · rename_i newLeader found
      obtain ⟨other, stored⟩ := Guild.nextLeader_spec found
      have member : live.guild.roster.rank newLeader.1 = some newLeader.2.rankId := by
        simp [Guild.roster, stored]
      constructor
      · rintro guild ⟨⟩
        exact (h.setLeaderGuid newLeader.1).eraseMember _
      · rintro guild ⟨⟩
        rw [roster_eraseMember, roster_setLeaderGuid]
        exact (live.guild.roster.draws_lead newLeader.1).trans (Roster.draws_erase _ _)
      · rintro guild ⟨⟩
        rw [roster_eraseMember, roster_setLeaderGuid]
        change ((live.guild.roster.lead newLeader.1).erase live.guild.leaderGuid).rank newLeader.1
          = some grGuildmaster
        simp [Roster.erase, Roster.lead, Roster.assign, other, member]
  · rename_i leader present
    split
    · rename_i master
      constructor
      · rintro guild ⟨⟩
        exact h
      · rintro guild ⟨⟩
        exact .refl _
      · rintro guild ⟨⟩
        rw [rank_of_getMember present, master]
    · constructor
      · rintro guild ⟨⟩
        exact h.setLeaderGuid _
      · rintro guild ⟨⟩
        rw [roster_setLeaderGuid]
        exact Roster.draws_lead _ _
      · rintro guild ⟨⟩
        rw [roster_setLeaderGuid]
        change (live.guild.roster.lead live.guild.leaderGuid).rank live.guild.leaderGuid
          = some grGuildmaster
        simp [Roster.lead, Roster.assign, rank_of_getMember present]

/-- Demoting the other guild masters leaves the leader as the only one. -/
theorem LiveGuild.Kept.validateGuildMasters {live : LiveGuild} (h : live.Kept)
    (leads : live.guild.roster.rank live.guild.leaderGuid = some grGuildmaster)
    : live.validateGuildMasters.guild.roster.rank live.validateGuildMasters.guild.leaderGuid
        = some grGuildmaster
      ∧ ∀ guid, live.validateGuildMasters.guild.roster.rank guid = some grGuildmaster
          → guid = live.validateGuildMasters.guild.leaderGuid := by
  have small : grOfficer < guildRanksMaxCount := by decide
  unfold LiveGuild.validateGuildMasters
  rw [(h.changeRankOfAll _ small).2.1]
  constructor
  · rw [rank_changeRankOfAll]
    obtain ⟨member, found, master⟩ := Option.map_eq_some_iff.mp leads
    simp [found, master]
  · intro guid held
    rw [rank_changeRankOfAll] at held
    obtain ⟨member, found, ranked⟩ := Option.map_eq_some_iff.mp held
    split at ranked
    · cases ranked
    · rename_i sound
      simpa [ranked] using sound

/-- What Validate makes of a kept guild: loaded ranks are sound, so only members, leader and
guild masters can change.
-/
theorem LiveGuild.Kept.validate {live : LiveGuild} (h : live.Kept) (allowMultiple : Bool)
    : (live.validate allowMultiple).Led live.guild.roster
      ∧ (allowMultiple = false → ∀ guild, (live.validate allowMultiple).guild = some guild
        → ∀ guid, guild.roster.rank guid = some grGuildmaster → guid = guild.leaderGuid) := by
  have same := h.validateRanks
  have ranked := h.same same
  generalize sound : live.validateRanks = checked at same ranked
  have few := ranked.few
  have enough := ranked.enough
  simp only [guildRanksMaxCount, guildRanksMinCount] at few enough
  have lowest : checked.guild.getLowestRankId < guildRanksMaxCount := by
    rw [ranked.lowestRankId, guildRanksMaxCount]
    omega
  have members := (ranked.changeRankOfAll
    (fun _ member => member.rankId > checked.guild.getRanksSize) lowest).1
  have drawn := ranked.draws_changeRankOfAll
    (fun _ member => member.rankId > checked.guild.getRanksSize) lowest
    (.inr (by rw [ranked.lowestRankId]; rfl))
  rw [same.roster] at drawn
  have leader := members.validateLeader
  unfold LiveGuild.validate
  rw [sound]
  change checked.validateMembers.validateLeader.Led checked.validateMembers.guild.roster at leader
  generalize checked.validateMembers.validateLeader = repaired at leader ⊢
  obtain ⟨guild, db⟩ := repaired
  cases guild with
  | none =>
      refine ⟨⟨?_, ?_, ?_⟩, ?_⟩
      · rintro guild ⟨⟩
      · rintro guild ⟨⟩
      · rintro guild ⟨⟩
      · rintro _ guild ⟨⟩
  | some guild =>
      have kept := leader.kept guild rfl
      have draws := drawn.trans (leader.draws guild rfl)
      have leads := leader.leads guild rfl
      cases allowMultiple with
      | true =>
          simp only [if_true]
          refine ⟨⟨leader.kept, ?_, leader.leads⟩, ?_⟩
          · rintro guild ⟨⟩
            exact draws
          · intro impossible
            cases impossible
      | false =>
          have small : grOfficer < guildRanksMaxCount := by decide
          obtain ⟨still, unique⟩ := kept.validateGuildMasters leads
          simp only [Bool.false_eq_true, if_false]
          refine ⟨⟨?_, ?_, ?_⟩, ?_⟩
          · rintro _ ⟨⟩
            change (LiveGuild.validateGuildMasters { guild, db }).Kept
            exact (kept.changeRankOfAll _ small).1
          · rintro guild ⟨⟩
            exact draws.trans (kept.draws_changeRankOfAll _ small (.inl rfl))
          · rintro guild ⟨⟩
            exact still
          · rintro _ guild ⟨⟩
            exact unique

/-- A restart follows: the guild is gone, or reloaded with a leader of the first rank. -/
theorem restart_follows {live : LiveGuild} (h : live.Kept) (allowMultiple : Bool)
    (characters : Nat → Option CharacterRow)
    : (restart allowMultiple characters live.db).Follows allowMultiple live.guild
        (.restart characters) := by
  obtain ⟨row, found, _⟩ := h.row
  unfold restart
  simp only [found]
  split
  · exact ⟨.disbanded _, fun guild impossible => by cases impossible⟩
  · obtain ⟨loaded, draws⟩ := h.loadRows found characters
    obtain ⟨led, unique⟩ := loaded.validate allowMultiple
    generalize (loadRows characters row live.db).validate allowMultiple = persisted
      at led unique ⊢
    obtain ⟨guild, db⟩ := persisted
    cases guild with
    | none => exact ⟨.disbanded _, fun guild impossible => by cases impossible⟩
    | some guild =>
        have drawn := draws.trans (led.draws guild rfl)
        exact ⟨.reloaded drawn.count drawn.ranks (led.leads guild rfl)
          (fun single => unique single guild rfl), led.kept⟩

open Foundation.Runs

-- Creation

/-- Adding tabs to all ranks keeps their ids and writes only bank rights, by induction over the
ranks.
-/
theorem foldl_addTabsToRank (tabs : Nat) (infos done : List RankInfo) (db : GuildDatabase)
    : (infos.foldl (addTabsToRank tabs) (done, db)).1.map RankInfo.rankId
        = (done ++ infos).map RankInfo.rankId
      ∧ ∃ rights, (infos.foldl (addTabsToRank tabs) (done, db)).2
          = { db with guildBankRight := rights } := by
  induction infos generalizing done db with
  | nil => exact ⟨by simp, db.guildBankRight, rfl⟩
  | cons info rest ih =>
      obtain ⟨sameId, rights, sameDb⟩ := createMissingTabsIfNeeded_spec info tabs db
      obtain ⟨ids, later, written⟩ := ih (done ++ [(info.createMissingTabsIfNeeded tabs db).1])
        { db with guildBankRight := rights }
      simp only [List.foldl_cons, addTabsToRank, sameDb]
      refine ⟨?_, later, written⟩
      simpa [sameId] using ids

/-- A new bank tab leaves the roster alone. -/
theorem sameStanding_createNewBankTab (live : LiveGuild)
    : SameStanding live live.createNewBankTab := by
  obtain ⟨ids, rights, written⟩ := foldl_addTabsToRank (live.guild.purchasedTabs + 1)
    live.guild.ranks [] { live.db with guildBankTabs := live.guild.purchasedTabs + 1 }
  have count := congrArg List.length ids
  simp only [List.length_map, List.nil_append] at count
  unfold LiveGuild.createNewBankTab
  simp only [written]
  exact ⟨ids, rfl, by simp [Guild.roster, count], rfl⟩

/-- A guild without bank tabs is kept, with five ranks and the leader as its only member. -/
theorem found_kept (name : String) (leader : Nat) (stats : CharacterRow)
    : (found name leader stats).Kept
      ∧ (found name leader stats).guild.roster
        = { leader, rankCount := 5
            rank := fun guid => if guid = leader then some grGuildmaster else none } := by
  unfold found LiveGuild.createDefaultGuildRanks
  obtain ⟨infos, rows, rights, made, ids, rids⟩ := @foldl_createRank_spec defaultGuildRanks
    { guild := { name, leaderGuid := leader, bankMoney := 0, purchasedTabs := 0, ranks := []
                 members := ∅ }
      db := { guild := some { name, leaderguid := leader, bankMoney := 0 }, guildBankTabs := 0
              guildRank := [], guildMember := ∅, guildBankRight := ∅, guildMemberWithdraw := ∅ } }
    (by simp [defaultGuildRanks, guildRanksMaxCount]) rfl rfl
  have infoCount := congrArg List.length ids
  have rowCount := congrArg List.length rids
  simp only [List.length_map, List.length_range] at infoCount rowCount
  have five : ([] : List RankInfo).length + defaultGuildRanks.length = 5 := rfl
  simp only [five] at ids rids infoCount rowCount
  have notNone : ¬(0 = 0xFF) := by decide
  simp only [made, LiveGuild.addMember, Candidate.guildId, Candidate.member, Guild.getMember,
    grGuildmaster, guildRankNone, notNone, ne_eq, not_true_eq_false, if_false, Table.get?_empty,
    Option.isSome_none, Bool.false_eq_true]
  have roster : ∀ guid, ((Table.emplace ∅ leader ({ stats with rankId := 0 } : Member)).get?
      guid).map Member.rankId = if guid = leader then some 0 else none := by
    intro guid
    rw [Table.get?_emplace]
    split <;> simp
  refine ⟨⟨?_, ?_, ?_, ?_, ?_, ?_⟩, ?_⟩
  · simp [infoCount, guildRanksMinCount]
  · simp [infoCount, guildRanksMaxCount]
  · simp [ids, infoCount]
  · simp [rids, infoCount]
  · simp only [GuildDatabase.roster, Guild.roster, Option.map_some, rowCount, infoCount, roster,
      Option.some.injEq, Roster.mk.injEq, true_and]
    funext guid
    rw [Table.get?_emplace]
    split <;> simp
  · intro guid rank held
    simp only [Guild.roster, roster] at held
    split at held
    · cases held
      decide
    · cases held
  · simp only [Guild.roster, roster, infoCount]

/-- A created guild is kept, with five ranks and the leader as its only member. -/
theorem create_kept (name : String) (leader : Nat) (stats : CharacterRow) (bankInitialTabs : Nat)
    : (create name leader stats bankInitialTabs).Kept
      ∧ (create name leader stats bankInitialTabs).guild.roster
        = { leader, rankCount := 5
            rank := fun guid => if guid = leader then some grGuildmaster else none } := by
  have tabs : SameStanding (found name leader stats) (create name leader stats bankInitialTabs) :=
    .foldl (fun live _ => sameStanding_createNewBankTab live) _ (List.range bankInitialTabs)
  obtain ⟨kept, roster⟩ := found_kept name leader stats
  exact ⟨kept.same tabs, tabs.roster.trans roster⟩

-- Every request

/-- Every request to a kept guild follows the list of roster changes, by cases on the request. -/
theorem handle_follows (config : GuildConfig) (system : GuildSystem) {live : LiveGuild}
    (h : live.Kept) (persisted : system.persisted = live.persist) (request : GuildRequest)
    : (LiveGuild.handle config system live request).persisted.Follows
        config.allowMultipleGuildMaster live.guild request := by
  have refused : system.persisted.Follows config.allowMultipleGuildMaster live.guild request := by
    rw [persisted]
    exact h.follows_self
  cases request with
  | setLeader player name => exact handleSetLeader_follows h player name
  | updateMemberRank player name demote =>
      cases demote with
      | true => exact handleUpdateMemberRank_demote_follows h player name
      | false => exact handleUpdateMemberRank_promote_follows h player name
  | setRankInfo player rankId name rights moneyPerDay rightsAndSlots =>
      exact handleSetRankInfo_follows h player rankId name rights moneyPerDay rightsAndSlots
  | addNewRank player name => exact handleAddNewRank_follows h player name
  | removeLowestRank player => exact handleRemoveLowestRank_follows h player
  | inviteMember player name invitee =>
      unfold LiveGuild.handle
      simp only
      split <;> exact refused
  | acceptMember player sameTeamAsLeader stats guildId =>
      unfold LiveGuild.handle
      simp only
      split
      · exact handleAcceptMember_follows h _ player sameTeamAsLeader stats guildId
      · exact refused
  | declineInvitation player => exact refused
  | leaveMember player => exact handleLeaveMember_follows h player
  | removeMember player name => exact handleRemoveMember_follows h player name
  | disband player => exact handleDisband_follows h player
  | depositMoney player amount =>
      unfold LiveGuild.handle
      simp only
      split
      · exact h.follows_same (handleMemberDepositMoney_same live _ amount)
      · exact refused
  | withdrawMoney player amount =>
      unfold LiveGuild.handle
      simp only
      split
      · exact h.follows_same (handleMemberWithdrawMoney_same live player _ amount false)
      · exact refused
  | repair player costs =>
      exact h.follows_same (handleMemberWithdrawMoney_same live player _ costs true)
  | addMember guid candidate => exact h.addMember guid candidate
  | deleteMember guid => exact h.deleteMember guid
  | resetTimes => exact h.follows_same (sameStanding_resetTimes live)
  | restart characters => exact restart_follows h config.allowMultipleGuildMaster characters

def GuildSystem.Kept (system : GuildSystem) : Prop :=
  ∀ guild, system.persisted.guild = some guild →
    LiveGuild.Kept { guild, db := system.persisted.db }

/-- A step of a system with a guild is the handling of the request. -/
theorem step_of_guild (config : GuildConfig) {system : GuildSystem} {guild : Guild}
    (found : system.persisted.guild = some guild) (request : GuildRequest)
    : step config system request
      = LiveGuild.handle config system { guild, db := system.persisted.db } request := by
  unfold step
  rw [found]

/-- One step from a kept guild is a roster change. -/
theorem step_follows (config : GuildConfig) {system : GuildSystem} {guild : Guild}
    (h : system.Kept) (found : system.persisted.guild = some guild) (request : GuildRequest)
    : (step config system request).persisted.Follows config.allowMultipleGuildMaster guild
        request := by
  rw [step_of_guild config found]
  refine handle_follows config system (h guild found) ?_ request
  rw [LiveGuild.persist, ← found]

/-- Every step keeps the guild. -/
theorem step_kept (config : GuildConfig) {system : GuildSystem} (h : system.Kept)
    (request : GuildRequest)
    : (step config system request).Kept := by
  cases found : system.persisted.guild with
  | none =>
      have same : step config system request = system := by
        unfold step
        rw [found]
      rw [same]
      exact h
  | some guild => exact (step_follows config h found request).kept

def startSystem (name : String) (leader : Nat) (stats : CharacterRow) (bankInitialTabs : Nat)
    (money : Nat → Nat)
    : GuildSystem := {
  persisted := (create name leader stats bankInitialTabs).persist
  money
  invited := fun _ => false
}

theorem startSystem_kept (name : String) (leader : Nat) (stats : CharacterRow)
    (bankInitialTabs : Nat) (money : Nat → Nat)
    : (startSystem name leader stats bankInitialTabs money).Kept := by
  rintro guild ⟨⟩
  exact (create_kept name leader stats bankInitialTabs).1

/-- In every run of requests and restarts the guild that is left has between five and ten ranks with
ids in sequence, and its rows tell its leader, its ranks and the rank of each member as memory does.
-/
theorem guild_is_kept (config : GuildConfig) (name : String) (leader : Nat) (stats : CharacterRow)
    (bankInitialTabs : Nat) (money : Nat → Nat) (requests : List GuildRequest)
    : EachState (step config) GuildSystem.Kept
        (startSystem name leader stats bankInitialTabs money) requests :=
  @eachState_of_step _ _ (step config) GuildSystem.Kept
    (fun _ request kept => step_kept config kept request) _
    (startSystem_kept name leader stats bankInitialTabs money) requests

end WarheadCore.Guilds
