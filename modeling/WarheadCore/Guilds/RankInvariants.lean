import WarheadCore.Guilds.RosterRuns

/-! Whether the guild has one leader, and whether every member's rank exists.
The leader is stored twice, as a guid and as a member of the first rank; the two part only where
a leader hands the guild over to himself. The rank table and the members change in different
handlers, and only the removal of the lowest rank can leave a member with a rank that is gone.
-/

namespace WarheadCore.Guilds

open Foundation Foundation.Runs WarheadCore.Player

/-- The leader's guid is that of a member of the first rank, and where the configuration allows
no other guild master there is none.
-/
structure Guild.SoundlyLed (allowMultiple : Bool) (guild : Guild) : Prop where
  leads : ∃ leader, guild.members.get? guild.leaderGuid = some leader
    ∧ leader.rankId = grGuildmaster
  unique : allowMultiple = false → ∀ guid member, guild.members.get? guid = some member
    → member.rankId = grGuildmaster → guid = guild.leaderGuid

def GuildSystem.SoundlyLed (config : GuildConfig) (system : GuildSystem) : Prop :=
  ∀ guild, system.persisted.guild = some guild →
    guild.SoundlyLed config.allowMultipleGuildMaster

def NamesAnother (system : GuildSystem) : GuildRequest → Prop
  | .setLeader player name => ∀ guild newLeader, system.persisted.guild = some guild →
      guild.isLeader player = true → guild.getMemberByName name = some newLeader →
      newLeader.1 ≠ player
  | _ => True

structure Roster.Led (allowMultiple : Bool) (roster : Roster) : Prop where
  leads : roster.rank roster.leader = some grGuildmaster
  unique : allowMultiple = false → ∀ guid, roster.rank guid = some grGuildmaster
    → guid = roster.leader

/-- The roster decides whether a guild is soundly led. -/
theorem Guild.soundlyLed_iff (allowMultiple : Bool) (guild : Guild)
    : guild.SoundlyLed allowMultiple ↔ guild.roster.Led allowMultiple := by
  constructor
  · rintro ⟨leads, unique⟩
    refine ⟨Option.map_eq_some_iff.mpr leads, ?_⟩
    intro single guid held
    obtain ⟨member, stored, master⟩ := Option.map_eq_some_iff.mp held
    exact unique single guid member stored master
  · rintro ⟨leads, unique⟩
    refine ⟨Option.map_eq_some_iff.mp leads, ?_⟩
    intro single guid member stored master
    exact unique single guid (Option.map_eq_some_iff.mpr ⟨member, stored, master⟩)

/-- A roster change keeps the leadership sound unless it names the one who leads, by cases on the
change.
-/
theorem RosterChange.led {allowMultiple : Bool} {before : Guild} {request : GuildRequest}
    {after : Roster} (h : RosterChange allowMultiple before request (some after))
    (enough : guildRanksMinCount ≤ before.roster.rankCount)
    (led : before.roster.Led allowMultiple)
    (another : ∀ player name newLeader, request = .setLeader player name
      → before.isLeader player = true → before.getMemberByName name = some newLeader
      → newLeader.1 ≠ player)
    : after.Led allowMultiple := by
  obtain ⟨leads, unique⟩ := led
  simp only [guildRanksMinCount] at enough
  cases h with
  | unchanged => exact ⟨leads, unique⟩
  | leaderSet isLeader old found =>
      rename_i player name newLeader
      have apart := another player name newLeader rfl isLeader found
      have member := rank_of_found found
      constructor
      · simp [Roster.assign, Roster.lead, apart, member]
      · intro single guid held
        simp only [Roster.assign, Roster.lead] at held ⊢
        split at held
        · obtain ⟨_, _, officer⟩ := Option.map_eq_some_iff.mp held
          cases officer
        · rename_i notOld
          split at held
          · assumption
          · -- A guild master who is neither of the two would be the old leader.
            have same := unique single guid held
            rw [before.isLeader_iff] at isLeader
            rcases isLeader with leader | master
            · exact absurd (same.trans leader.symm) notOld
            · exact absurd (same.trans (unique single player master).symm) notOld
  | demoted held below room =>
      constructor
      · simp only [Roster.assign]
        split
        · rename_i same
          rw [← same, leads, Option.some.injEq] at held
          simp only [grGuildmaster] at held
          omega
        · exact leads
      · intro single guid master
        simp only [Roster.assign] at master ⊢
        split at master
        · obtain ⟨_, _, zero⟩ := Option.map_eq_some_iff.mp master
          cases zero
        · exact unique single guid master
  | promoted held below =>
      constructor
      · simp only [Roster.assign]
        split
        · rename_i same
          rw [← same, leads, Option.some.injEq] at held
          cases held
        · exact leads
      · intro single guid master
        simp only [Roster.assign] at master ⊢
        split at master
        · obtain ⟨_, _, zero⟩ := Option.map_eq_some_iff.mp master
          simp only [grGuildmaster] at zero
          omega
        · exact unique single guid master
  | rankAdded room => exact ⟨leads, unique⟩
  | rankRemoved isLeader spare => exact ⟨leads, unique⟩
  | joined _ fresh =>
      constructor
      · simp only [Roster.enrol]
        split
        · rename_i same
          rw [← same, leads] at fresh
          cases fresh
        · exact leads
      · intro single guid master
        simp only [Roster.enrol] at master ⊢
        split at master
        · simp only [grGuildmaster, Option.some.injEq] at master
          omega
        · exact unique single guid master
  | left _ follower =>
      constructor
      · simpa [Roster.erase, Ne.symm follower] using leads
      · intro single guid master
        simp only [Roster.erase] at master ⊢
        split at master
        · cases master
        · exact unique single guid master
  | succeeded _ apart member =>
      obtain ⟨rank, held⟩ := Option.isSome_iff_exists.mp member
      constructor
      · simp [Roster.erase, Roster.lead, Roster.assign, apart, held]
      · intro single guid master
        simp only [Roster.erase, Roster.lead, Roster.assign] at master ⊢
        split at master
        · cases master
        · rename_i notOld
          split at master
          · assumption
          · exact absurd (unique single guid master) notOld
  | reloaded count ranks isLeader single => exact ⟨isLeader, single⟩

/-- One step keeps the leadership sound unless a leader names himself. -/
theorem step_soundlyLed (config : GuildConfig) {system : GuildSystem} {request : GuildRequest}
    (kept : system.Kept) (led : system.SoundlyLed config) (another : NamesAnother system request)
    : (step config system request).SoundlyLed config := by
  intro after still
  cases found : system.persisted.guild with
  | none =>
      unfold step at still
      rw [found] at still
      rw [found] at still
      cases still
  | some guild =>
      have follows := step_follows config kept found request
      have change := follows.change
      rw [still] at change
      refine (after.soundlyLed_iff _).mpr (change.led (kept guild found).enough
        ((guild.soundlyLed_iff _).mp (led guild found)) ?_)
      rintro player name newLeader rfl leads named
      exact another guild newLeader found leads named

/-- In every run of a new guild in which no leader names himself as the new leader, the leader is a
member of the first rank, and the only one unless several are allowed, in every state reached.
Witness: one step keeps a kept and soundly led guild.
-/
theorem soundly_led_while_leaders_name_others (config : GuildConfig) (name : String)
    (leader : Nat) (stats : CharacterRow) (bankInitialTabs : Nat) (money : Nat → Nat)
    (requests : List GuildRequest)
    (others : EachStep (step config) NamesAnother
      (startSystem name leader stats bankInitialTabs money) requests)
    : EachState (step config) (GuildSystem.SoundlyLed config)
        (startSystem name leader stats bankInitialTabs money) requests := by
  have start := startSystem_kept name leader stats bankInitialTabs money
  have led : (startSystem name leader stats bankInitialTabs money).SoundlyLed config := by
    rintro guild ⟨⟩
    refine (Guild.soundlyLed_iff _ _).mpr ?_
    rw [(create_kept name leader stats bankInitialTabs).2]
    refine ⟨by simp, ?_⟩
    intro _ guid held
    simp only at held
    split at held
    · assumption
    · cases held
  have preserved : ∀ system request, system.Kept ∧ system.SoundlyLed config
      → NamesAnother system request
      → (step config system request).Kept ∧ (step config system request).SoundlyLed config :=
    fun system request both another =>
      ⟨step_kept config both.1 request, step_soundlyLed config both.1 both.2 another⟩
  exact (eachState_of_invariant preserved ⟨start, led⟩ others).imp (fun _ both => both.2)

/-- A hand-over to a second member. -/
theorem soundly_led_while_leaders_name_others_applied
    : EachState (step { allowTwoSideInteractionGuild := false, allowMultipleGuildMaster := false })
        (GuildSystem.SoundlyLed
          { allowTwoSideInteractionGuild := false, allowMultipleGuildMaster := false })
        (startSystem "Order" 1 { name := "Ann", level := 80, playerClass := 1 } 0 (fun _ => 0))
        [.addMember 2 (.offline (some { name := "Bob", level := 10, playerClass := 2 }) 0),
          .setLeader 1 "Bob"] := by
  refine soundly_led_while_leaders_name_others _ _ _ _ _ _ _ ⟨trivial, ?_, trivial⟩
  intro guild newLeader found _ named
  have bob : ((step
      { allowTwoSideInteractionGuild := false, allowMultipleGuildMaster := false }
      (startSystem "Order" 1 { name := "Ann", level := 80, playerClass := 1 } 0 (fun _ => 0))
      (.addMember 2 (.offline (some { name := "Bob", level := 10, playerClass := 2 }) 0))
      ).persisted.guild.bind
        (fun guild => (guild.getMemberByName "Bob").map (fun entry => entry.1)))
      = some 2 := by decide +kernel
  rw [found, Option.bind_some, named, Option.map_some, Option.some.injEq] at bob
  omega

/-- A leader who names himself is demoted as the old leader, so not every run is soundly led. -/
theorem leader_who_names_himself_is_demoted
    : ¬ ∀ (config : GuildConfig) (name : String) (leader : Nat) (stats : CharacterRow)
        (bankInitialTabs : Nat) (money : Nat → Nat) (requests : List GuildRequest),
        EachState (step config) (GuildSystem.SoundlyLed config)
          (startSystem name leader stats bankInitialTabs money) requests := by
  intro claim
  have last := (claim { allowTwoSideInteractionGuild := false, allowMultipleGuildMaster := false }
    "Order" 1 { name := "Ann", level := 80, playerClass := 1 } 0 (fun _ => 0)
    [.setLeader 1 "Ann"]).last
  have outcome : ((run (step {
      allowTwoSideInteractionGuild := false, allowMultipleGuildMaster := false })
      (startSystem "Order" 1 { name := "Ann", level := 80, playerClass := 1 } 0 (fun _ => 0))
      [.setLeader 1 "Ann"]).persisted.guild.map
        (fun guild => (guild.members.get? guild.leaderGuid).map Member.rankId))
      = some (some grOfficer) := by decide +kernel
  obtain ⟨guild, found, demoted⟩ := Option.map_eq_some_iff.mp outcome
  obtain ⟨leader, stored, master⟩ := (last guild found).leads
  rw [stored, Option.map_some, Option.some.injEq, master] at demoted
  cases demoted

-- Ranks that exist

/-- The member's rank id is inside the rank table, and every lookup by it reads his own rank. -/
structure Guild.FindsOwnRank (guild : Guild) (member : Member) (info : RankInfo) : Prop where
  inside : member.rankId < guild.ranks.length
  found : guild.getRankInfo member.rankId = some info
  own : info.rankId = member.rankId
  rights : guild.getRankRights member.rankId = info.rights
  bankMoneyPerDay
    : guild.getRankBankMoneyPerDay member.rankId = toInt32 info.bankMoneyPerDay
  bankTabSlotsPerDay
    : ∀ tabId < guild.purchasedTabs,
        guild.getRankBankTabSlotsPerDay member.rankId tabId = info.getBankTabSlotsPerDay tabId

def Guild.RanksValid (guild : Guild) : Prop :=
  ∀ guid member, guild.members.get? guid = some member →
    ∃ info, guild.FindsOwnRank member info

def GuildSystem.RanksValid (system : GuildSystem) : Prop :=
  ∀ guild, system.persisted.guild = some guild → guild.RanksValid

def RemovesUnheldRank (system : GuildSystem) : GuildRequest → Prop
  | .removeLowestRank player => ∀ guild, system.persisted.guild = some guild →
      guild.isLeader player = true → guildRanksMinCount < guild.getRanksSize →
      ∀ guid member, guild.members.get? guid = some member →
        member.rankId ≠ guild.getLowestRankId
  | _ => True

def Roster.Inside (roster : Roster) : Prop :=
  ∀ guid rank, roster.rank guid = some rank → rank < roster.rankCount

/-- In a kept guild the ranks are valid when they are inside the roster's rank table. -/
theorem LiveGuild.Kept.ranksValid_iff {live : LiveGuild} (h : live.Kept)
    : live.guild.RanksValid ↔ live.guild.roster.Inside := by
  constructor
  · intro valid guid rank held
    obtain ⟨member, found, rfl⟩ := Option.map_eq_some_iff.mp held
    obtain ⟨info, own⟩ := valid guid member found
    exact own.inside
  · intro inside guid member found
    have below : member.rankId < live.guild.ranks.length :=
      inside guid member.rankId (rank_of_getMember found)
    obtain ⟨info, here, own⟩ := h.rankInfo below
    refine ⟨info, below, here, own, ?_, ?_, ?_⟩
    · simp [Guild.getRankRights, here]
    · simp [Guild.getRankBankMoneyPerDay, here]
    · intro tabId purchased
      simp [Guild.getRankBankTabSlotsPerDay, here, purchased]

/-- A roster change keeps the ranks inside unless it removes a rank that a member holds, by cases
on the change.
-/
theorem RosterChange.inside {allowMultiple : Bool} {before : Guild} {request : GuildRequest}
    {after : Roster} (h : RosterChange allowMultiple before request (some after))
    (enough : guildRanksMinCount ≤ before.roster.rankCount) (inside : before.roster.Inside)
    (unheld : ∀ player, request = .removeLowestRank player → before.isLeader player = true
      → guildRanksMinCount < before.roster.rankCount
      → ∀ guid rank, before.roster.rank guid = some rank → rank ≠ before.roster.rankCount - 1)
    : after.Inside := by
  simp only [guildRanksMinCount] at enough unheld
  intro other rank held
  cases h with
  | unchanged => exact inside other rank held
  | leaderSet leads old found =>
      simp only [Roster.assign, Roster.lead, grGuildmaster, grOfficer] at held ⊢
      split at held
      · obtain ⟨_, _, rfl⟩ := Option.map_eq_some_iff.mp held
        omega
      · split at held
        · obtain ⟨_, _, rfl⟩ := Option.map_eq_some_iff.mp held
          omega
        · exact inside other rank held
  | demoted old below room =>
      simp only [Roster.assign] at held ⊢
      split at held
      · obtain ⟨_, _, rfl⟩ := Option.map_eq_some_iff.mp held
        exact room
      · exact inside other rank held
  | promoted old below =>
      have known := inside _ _ old
      simp only [Roster.assign] at held ⊢
      split at held
      · obtain ⟨_, _, rfl⟩ := Option.map_eq_some_iff.mp held
        omega
      · exact inside other rank held
  | rankAdded room =>
      have known := inside other rank held
      simp only
      omega
  | rankRemoved leads spare =>
      simp only [guildRanksMinCount] at spare
      have known := inside other rank held
      have free := unheld _ rfl leads spare other rank held
      simp only
      omega
  | joined _ fresh =>
      simp only [Roster.enrol] at held ⊢
      split at held
      · cases held
        omega
      · exact inside other rank held
  | left _ follower =>
      simp only [Roster.erase] at held ⊢
      split at held
      · cases held
      · exact inside other rank held
  | succeeded _ apart member =>
      simp only [Roster.erase, Roster.lead, Roster.assign, grGuildmaster] at held ⊢
      split at held
      · cases held
      · split at held
        · obtain ⟨_, _, rfl⟩ := Option.map_eq_some_iff.mp held
          omega
        · exact inside other rank held
  | reloaded count ranks leads unique =>
      rw [count]
      rcases ranks other rank held with master | officer | lowest | old
      · simp only [grGuildmaster] at master
        omega
      · simp only [grOfficer] at officer
        omega
      · omega
      · exact inside other rank old

/-- One step keeps the ranks valid unless it removes a rank that a member holds. -/
theorem step_ranksValid (config : GuildConfig) {system : GuildSystem} {request : GuildRequest}
    (kept : system.Kept) (valid : system.RanksValid) (unheld : RemovesUnheldRank system request)
    : (step config system request).RanksValid := by
  intro after still
  cases found : system.persisted.guild with
  | none =>
      unfold step at still
      rw [found] at still
      rw [found] at still
      cases still
  | some guild =>
      have keptGuild := kept guild found
      have follows := step_follows config kept found request
      have change := follows.change
      rw [still] at change
      refine (follows.kept after still).ranksValid_iff.mpr ?_
      refine change.inside keptGuild.enough (keptGuild.ranksValid_iff.mp (valid guild found)) ?_
      rintro player rfl leads spare guid rank held
      obtain ⟨member, stored, rfl⟩ := Option.map_eq_some_iff.mp held
      have free := unheld guild found leads
        (by rw [keptGuild.ranksSize]; exact spare) guid member stored
      rwa [keptGuild.lowestRankId] at free

/-- A removal that a leader may make leaves the ranks valid exactly when no member held the rank,
since every member's rank is still there or the one removed.
-/
theorem handleRemoveLowestRank_valid_iff {live : LiveGuild} (h : live.Kept)
    (valid : live.guild.RanksValid) {player : Nat} (leads : live.guild.isLeader player = true)
    (spare : guildRanksMinCount < live.guild.ranks.length)
    : (∀ guild, (handleRemoveLowestRank live player).persisted.guild = some guild
          → guild.RanksValid)
        ↔ ∀ guid member, live.guild.members.get? guid = some member
            → member.rankId ≠ live.guild.getLowestRankId := by
  obtain ⟨kept, roster⟩ := h.removeLowestRank spare
    (live.db.guildBankRight.filter (fun key _ => key.2 != live.guild.ranks.length - 1))
  have removed : (handleRemoveLowestRank live player).persisted.guild
      = some { live.guild with ranks := live.guild.ranks.take (live.guild.ranks.length - 1) } := by
    have allowed : (decide (live.guild.ranks.length ≤ guildRanksMinCount)
        || decide (live.guild.ranks.length - 1 ≥ live.guild.ranks.length)
        || !live.guild.isLeader player) = false := by
      simp only [leads, Bool.not_true, Bool.or_false, Bool.or_eq_false_iff,
        decide_eq_false_iff_not]
      omega
    simp only [handleRemoveLowestRank, handleRemoveRank, h.ranksSize, h.lowestRankId, allowed]
    rfl
  have inside := h.ranksValid_iff.mp valid
  rw [removed, h.lowestRankId]
  constructor
  · intro after guid member stored same
    have below := kept.ranksValid_iff.mp (after _ rfl) guid member.rankId
      (by rw [roster]; simp [Guild.roster, stored])
    rw [roster, same] at below
    exact Nat.lt_irrefl _ below
  · rintro unheld guild ⟨⟩
    refine kept.ranksValid_iff.mpr ?_
    rw [roster]
    intro guid rank held
    obtain ⟨member, stored, rfl⟩ := Option.map_eq_some_iff.mp held
    have below : member.rankId < live.guild.ranks.length :=
      inside guid member.rankId (rank_of_getMember stored)
    have free := unheld guid member stored
    simp only [Guild.roster]
    omega

/-- In every run of a new guild in which no removed rank is held by a member, every member finds
his own rank in every state reached, restarts included. Witness: one step keeps a kept guild
with valid ranks.
-/
theorem ranks_valid_while_removed_ranks_unheld (config : GuildConfig) (name : String)
    (leader : Nat) (stats : CharacterRow) (bankInitialTabs : Nat) (money : Nat → Nat)
    (requests : List GuildRequest)
    (unheld : EachStep (step config) RemovesUnheldRank
      (startSystem name leader stats bankInitialTabs money) requests)
    : EachState (step config) GuildSystem.RanksValid
        (startSystem name leader stats bankInitialTabs money) requests := by
  have start := startSystem_kept name leader stats bankInitialTabs money
  have valid : (startSystem name leader stats bankInitialTabs money).RanksValid := by
    rintro guild ⟨⟩
    obtain ⟨kept, roster⟩ := create_kept name leader stats bankInitialTabs
    refine kept.ranksValid_iff.mpr ?_
    rw [roster]
    intro guid rank held
    simp only at held
    split at held
    · cases held
      exact Nat.zero_lt_succ 4
    · cases held
  have preserved : ∀ system request, system.Kept ∧ system.RanksValid
      → RemovesUnheldRank system request
      → (step config system request).Kept ∧ (step config system request).RanksValid :=
    fun system request both unheld =>
      ⟨step_kept config both.1 request, step_ranksValid config both.1 both.2 unheld⟩
  exact (eachState_of_invariant preserved ⟨start, valid⟩ unheld).imp (fun _ both => both.2)

/-- A run that adds a rank and removes no held one, with a restart at its end. -/
theorem ranks_valid_while_removed_ranks_unheld_applied
    : EachState (step { allowTwoSideInteractionGuild := false, allowMultipleGuildMaster := false })
        GuildSystem.RanksValid
        (startSystem "Order" 1 { name := "Ann", level := 80, playerClass := 1 } 0 (fun _ => 0))
        [.addNewRank 1 "Recruit",
          .restart (fun _ => some { name := "Ann", level := 80, playerClass := 1 })] :=
  ranks_valid_while_removed_ranks_unheld _ _ _ _ _ _ _ ⟨trivial, trivial, trivial⟩

/-- A guild whose leader adds a rank, in which a recruit joins with that rank, and whose leader
then removes it.
-/
def removedRankRun : List GuildRequest := [
  .addNewRank 1 "Recruit",
  .inviteMember 1 "Bob" (some {
    guid := 2, name := "Bob", ignoresInviter := false, sameTeam := true, guildId := 0
    guildIdInvited := 0 }),
  .acceptMember 2 true { name := "Bob", level := 10, playerClass := 2 } 0,
  .removeLowestRank 1
]

/-- The recruit keeps a rank id that no longer exists, so not every run is valid. -/
theorem removed_rank_stays_with_its_member
    : ¬ ∀ (config : GuildConfig) (name : String) (leader : Nat) (stats : CharacterRow)
        (bankInitialTabs : Nat) (money : Nat → Nat) (requests : List GuildRequest),
        EachState (step config) GuildSystem.RanksValid
          (startSystem name leader stats bankInitialTabs money) requests := by
  intro claim
  have last := (claim { allowTwoSideInteractionGuild := false, allowMultipleGuildMaster := false }
    "Order" 1 { name := "Ann", level := 80, playerClass := 1 } 0 (fun _ => 0)
    removedRankRun).last
  have outcome : ((run (step {
      allowTwoSideInteractionGuild := false, allowMultipleGuildMaster := false })
      (startSystem "Order" 1 { name := "Ann", level := 80, playerClass := 1 } 0 (fun _ => 0))
      removedRankRun).persisted.guild.map
        (fun guild => (guild.ranks.length, (guild.members.get? 2).map Member.rankId)))
      = some (5, some 5) := by decide +kernel
  obtain ⟨guild, found, counted⟩ := Option.map_eq_some_iff.mp outcome
  rw [Prod.mk.injEq] at counted
  obtain ⟨member, stored, rank⟩ := Option.map_eq_some_iff.mp counted.2
  obtain ⟨info, own⟩ := last guild found 2 member stored
  have inside := own.inside
  rw [counted.1, rank] at inside
  exact Nat.lt_irrefl 5 inside

end WarheadCore.Guilds
