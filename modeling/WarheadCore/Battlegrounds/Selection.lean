import WarheadCore.Battlegrounds.QueueRuns

/-! The selection pools of a queue: what filling them from a list of groups keeps, and what the
matches that are found from them are made of.
-/

namespace WarheadCore.Battlegrounds

open Foundation.Runs

-- Pools that are filled from a list

namespace BattlegroundQueue

def size (queue : BattlegroundQueue) (group : Nat) : Nat := (queue.info group).players.length

/-- A pool of distinct groups of a list that are not invited; it counts their players, and not more
than a limit.
-/
structure Selected (queue : BattlegroundQueue) (groups : List Nat) (limit : Nat)
    (pool : SelectionPool)
    : Prop where
  distinct : pool.selectedGroups.Nodup
  listed : ∀ group ∈ pool.selectedGroups, group ∈ groups
  uninvited : ∀ group ∈ pool.selectedGroups, queue.isInvited group = false
  counted : pool.playerCount = (pool.selectedGroups.map queue.size).sum
  within : pool.playerCount ≤ limit

variable {queue : BattlegroundQueue} {groups : List Nat} {limit : Nat} {pool : SelectionPool}

theorem Selected.empty : queue.Selected groups limit {} where
  distinct := .nil
  listed _ member := by cases member
  uninvited _ member := by cases member
  counted := rfl
  within := Nat.zero_le limit

/-- A pool stays as it is, or takes a group that fits and is not invited. -/
theorem pool_addGroup_cases (queue : BattlegroundQueue) (pool : SelectionPool)
    (group desiredCount : Nat)
    : (queue.isInvited group = false → desiredCount < pool.playerCount + queue.size group)
        ∧ pool.addGroup queue group desiredCount = (pool, decide (pool.playerCount < desiredCount))
      ∨ queue.isInvited group = false ∧ pool.playerCount + queue.size group ≤ desiredCount
        ∧ pool.addGroup queue group desiredCount
          = ({ selectedGroups := pool.selectedGroups ++ [group]
               playerCount := pool.playerCount + queue.size group }, true) := by
  unfold SelectionPool.addGroup
  dsimp only
  split
  · next fits =>
      obtain ⟨free, room⟩ := Bool.and_eq_true_iff.mp fits
      exact .inr ⟨by simpa using free, of_decide_eq_true room, rfl⟩
  · next full =>
      refine .inl ⟨fun free => ?_, rfl⟩
      rw [free] at full
      simp only [Bool.not_false, Bool.true_and, decide_eq_true_eq] at full
      exact Nat.not_le.mp full

/-- A pool that takes a group of the list that it does not have yet stays within the limit. -/
theorem Selected.addGroup (selected : queue.Selected groups limit pool) {group desiredCount : Nat}
    (member : group ∈ groups) (fresh : group ∉ pool.selectedGroups) (bounded : desiredCount ≤ limit)
    : queue.Selected groups limit (pool.addGroup queue group desiredCount).1 := by
  rcases pool_addGroup_cases queue pool group desiredCount with ⟨-, same⟩ | ⟨free, room, added⟩
  · rw [same]
    exact selected
  · rw [added]
    constructor
    case distinct =>
      refine List.nodup_append.mpr ⟨selected.distinct, List.nodup_singleton group, ?_⟩
      intro other inPool new isNew same
      rw [List.mem_singleton] at isNew
      exact fresh (isNew ▸ same ▸ inPool)
    case listed =>
      intro other inPool
      rcases List.mem_append.mp inPool with old | new
      · exact selected.listed other old
      · rwa [List.mem_singleton.mp new]
    case uninvited =>
      intro other inPool
      rcases List.mem_append.mp inPool with old | new
      · exact selected.uninvited other old
      · rwa [List.mem_singleton.mp new]
    case counted =>
      change pool.playerCount + queue.size group = _
      rw [selected.counted]
      simp
    case within => exact room.trans bounded

/-- Groups of the pool after an addition are those before it and at most the new one. -/
theorem mem_addGroup {group desiredCount other : Nat}
    (member : other ∈ (pool.addGroup queue group desiredCount).1.selectedGroups)
    : other ∈ pool.selectedGroups ∨ other = group := by
  rcases pool_addGroup_cases queue pool group desiredCount with ⟨-, same⟩ | ⟨-, -, added⟩
  · rw [same] at member
    exact .inl member
  · rw [added] at member
    exact (List.mem_append.mp member).imp_right List.mem_singleton.mp

theorem playerCount_le_addGroup (group desiredCount : Nat)
    : pool.playerCount ≤ (pool.addGroup queue group desiredCount).1.playerCount := by
  rcases pool_addGroup_cases queue pool group desiredCount with ⟨-, same⟩ | ⟨-, -, added⟩
  · rw [same]
  · rw [added]
    exact Nat.le_add_right _ _

/-- Groups that are still to come: distinct groups of the list, none of them in the pool. -/
structure Remaining (groups : List Nat) (pool : SelectionPool) (rest : List Nat) : Prop where
  distinct : rest.Nodup
  listed : ∀ group ∈ rest, group ∈ groups
  fresh : ∀ group ∈ rest, group ∉ pool.selectedGroups

theorem Remaining.tail {group : Nat} {rest : List Nat}
    (remaining : Remaining groups pool (group :: rest))
    : Remaining groups pool rest where
  distinct := (List.nodup_cons.mp remaining.distinct).2
  listed other member := remaining.listed other (List.mem_cons_of_mem _ member)
  fresh other member := remaining.fresh other (List.mem_cons_of_mem _ member)

theorem Remaining.addGroup {group desiredCount : Nat} {rest : List Nat}
    (remaining : Remaining groups pool (group :: rest))
    : Remaining groups (pool.addGroup queue group desiredCount).1 rest where
  distinct := remaining.tail.distinct
  listed := remaining.tail.listed
  fresh other member inPool := by
    rcases mem_addGroup inPool with old | rfl
    · exact remaining.tail.fresh other member old
    · exact (List.nodup_cons.mp remaining.distinct).1 member

/-- The loop that fills a pool from a list keeps what a pool is made of. -/
theorem Selected.topUp {desiredCount : Nat} (bounded : desiredCount ≤ limit) {rest : List Nat}
    (selected : queue.Selected groups limit pool) (remaining : Remaining groups pool rest)
    : queue.Selected groups limit (queue.topUp desiredCount pool rest)
      ∧ pool.playerCount ≤ (queue.topUp desiredCount pool rest).playerCount := by
  induction rest generalizing pool with
  | nil => exact ⟨selected, le_rfl⟩
  | cons group rest ih =>
      unfold BattlegroundQueue.topUp
      split
      · exact ih selected remaining.tail
      · have added := selected.addGroup (remaining.listed group List.mem_cons_self)
          (remaining.fresh group List.mem_cons_self) bounded
        have grows := @playerCount_le_addGroup queue pool group desiredCount
        have remains := @Remaining.addGroup queue groups pool group desiredCount rest remaining
        split
        · next filled outcome =>
            rw [outcome] at added grows remains
            exact ⟨(ih added remains).1, grows.trans (ih added remains).2⟩
        · next filled outcome =>
            rw [outcome] at added grows
            exact ⟨added, grows⟩

/-- The first loop over the groups of a team fills a pool and leaves groups that are not in it. -/
theorem Selected.fillPool {minPlayers maxPlayers : Nat} (bounded : maxPlayers ≤ limit)
    {rest : List Nat} (selected : queue.Selected groups limit pool)
    (remaining : Remaining groups pool rest)
    : queue.Selected groups limit (queue.fillPool minPlayers maxPlayers pool rest).1
      ∧ Remaining groups (queue.fillPool minPlayers maxPlayers pool rest).1
          (queue.fillPool minPlayers maxPlayers pool rest).2 := by
  induction rest generalizing pool with
  | nil => exact ⟨selected, remaining⟩
  | cons group rest ih =>
      unfold BattlegroundQueue.fillPool
      split
      · exact ih selected remaining.tail
      · have added := selected.addGroup (remaining.listed group List.mem_cons_self)
          (remaining.fresh group List.mem_cons_self) bounded
        have remains := @Remaining.addGroup queue groups pool group maxPlayers rest remaining
        dsimp only
        split
        · exact ⟨added, remains⟩
        · exact ih added remains

/-- All groups of a list of a sound queue are still to come for an empty pool. -/
theorem Sound.remaining (sound : queue.Sound) (bracketId : Nat) (type : GroupType)
    : Remaining (queue.queuedGroups bracketId type) {} (queue.queuedGroups bracketId type) where
  distinct := sound.once bracketId type
  listed _ member := member
  fresh _ _ inPool := by cases inPool

/-- Every state that a queue reaches is good. -/
theorem Good.reached (calls : List QueueCall) : (run BattlegroundQueue.step {} calls).Good :=
  @run_of_invariant _ _ BattlegroundQueue.step Good (fun _ _ => True)
    (fun _ call good _ => good.step call) _ calls good_empty
    (eachStep_of_forall (fun _ _ => trivial) _ _)

theorem Sound.reached (calls : List QueueCall) : (run step {} calls).Sound :=
  (Good.reached calls).sound

-- Normal matches

/-- The pools of a normal match: distinct groups of the normal lists of both teams that are not
invited, with enough players and not too many, and balanced teams if they shall be.
-/
structure MatchedNormally (queue : BattlegroundQueue) (bracketId minPlayers maxPlayers : Nat)
    (balanced : Bool) (pools : SelectionPools)
    : Prop where
  selected
    : ∀ team, queue.Selected (queue.queuedGroups bracketId (.normal team)) maxPlayers (pools team)
  distinct : ((pools .alliance).selectedGroups ++ (pools .horde).selectedGroups).Nodup
  enough : ∀ team, minPlayers ≤ (pools team).playerCount
  balance
    : balanced = true
        → ((pools .horde).playerCount : Int) - (pools .alliance).playerCount ≤ 2
          ∧ ((pools .alliance).playerCount : Int) - (pools .horde).playerCount ≤ 2

/-- Without a test, a match can start when both pools have enough players. -/
theorem enough_of_canStartMatch {pools : SelectionPools} {minPlayers : Nat}
    (starts : canStartMatch pools minPlayers false = true) (team : TeamId)
    : minPlayers ≤ (pools team).playerCount := by
  unfold canStartMatch at starts
  simp at starts
  cases team with
  | alliance => exact starts.1
  | horde => exact starts.2

/-- The pools of both teams have no group in common. -/
theorem Sound.nodup_pools (sound : queue.Sound) {bracketId : Nat} {pools : SelectionPools}
    (selected
      : ∀ team, queue.Selected (queue.queuedGroups bracketId (.normal team)) limit (pools team))
    : ((pools .alliance).selectedGroups ++ (pools .horde).selectedGroups).Nodup := by
  refine List.nodup_append.mpr ⟨(selected .alliance).distinct, (selected .horde).distinct, ?_⟩
  rintro group here _ there rfl
  have sides := sound.list_eq ((selected .alliance).listed group here)
    ((selected .horde).listed group there)
  cases sides.2

/-- The pools of CheckNormalMatch, whether a match starts with them or not. -/
theorem Sound.checkNormalMatch (sound : queue.Sound)
    (bracketId minPlayers maxPlayers : Nat) (balanced testing : Bool) (team : TeamId)
    : queue.Selected (queue.queuedGroups bracketId (.normal team)) maxPlayers
        ((queue.checkNormalMatch bracketId minPlayers maxPlayers balanced testing).1 team) := by
  have filled (team : TeamId) :=
    @Selected.fillPool queue (queue.queuedGroups bracketId (.normal team)) maxPlayers {} minPlayers
      maxPlayers le_rfl _ .empty (sound.remaining bracketId (.normal team))
  -- the third loop adds to the smaller side what it lacks to the greater one
  have topped (fewer : TeamId)
      : queue.Selected (queue.queuedGroups bracketId (.normal team)) maxPlayers
        (Function.update (fun team => (queue.fillPool minPlayers maxPlayers {}
        (queue.queuedGroups bracketId (.normal team))).1) fewer
        (queue.topUp (queue.fillPool minPlayers maxPlayers {}
          (queue.queuedGroups bracketId (.normal fewer.other))).1.playerCount
          (queue.fillPool minPlayers maxPlayers {}
            (queue.queuedGroups bracketId (.normal fewer))).1
          (queue.fillPool minPlayers maxPlayers {}
            (queue.queuedGroups bracketId (.normal fewer))).2) team) := by
    rcases eq_or_ne team fewer with rfl | other
    · rw [Function.update_self]
      exact (Selected.topUp (filled team.other).1.within (filled team).1 (filled team).2).1
    · rw [Function.update_of_ne other]
      exact (filled team).1
  unfold BattlegroundQueue.checkNormalMatch
  dsimp only
  split
  · exact topped _
  · exact (filled team).1

end BattlegroundQueue

open BattlegroundQueue

/-- In every queue that calls reach, a match that CheckNormalMatch finds outside of tests has
between the least and the greatest number of players on both sides, in distinct groups that are
listed for their side and not invited, and with balancing no side has more than two players more.
The call takes no part in the queue: it returns the pools alone.
-/
theorem normal_matches_are_filled (calls : List QueueCall)
    (bracketId minPlayers maxPlayers : Nat) (balanced : Bool)
    : let queue := run step {} calls
      let found := queue.checkNormalMatch bracketId minPlayers maxPlayers balanced false
      found.2 = true → queue.MatchedNormally bracketId minPlayers maxPlayers balanced found.1 := by
  intro queue found starts
  have sound : queue.Sound := Sound.reached calls
  have selected := sound.checkNormalMatch bracketId minPlayers maxPlayers balanced false
  have result : found.2 = true → (∀ team, minPlayers ≤ (found.1 team).playerCount)
      ∧ (balanced = true → ((found.1 .horde).playerCount : Int)
        - (found.1 .alliance).playerCount ≤ 2
        ∧ ((found.1 .alliance).playerCount : Int) - (found.1 .horde).playerCount ≤ 2) := by
    unfold found BattlegroundQueue.checkNormalMatch
    dsimp only
    split
    · intro starts
      obtain ⟨close, canStart⟩ := Bool.and_eq_true_iff.mp starts
      dsimp only at close canStart ⊢
      have difference := of_decide_eq_true close
      refine ⟨enough_of_canStartMatch canStart, fun _ => ?_⟩
      omega
    · next unbalanced =>
        intro starts
        dsimp only at starts ⊢
        have enough := enough_of_canStartMatch starts
        refine ⟨enough, fun isBalanced => (unbalanced ?_).elim⟩
        rw [Bool.and_eq_true_iff, Bool.and_eq_true_iff]
        exact ⟨⟨isBalanced, decide_eq_true (enough .horde)⟩, decide_eq_true (enough .alliance)⟩
  obtain ⟨enough, balance⟩ := result starts
  exact ⟨selected, sound.nodup_pools selected, enough, balance⟩

/-- Players who join alone or with others for battlegrounds of the first bracket. -/
def joining (leader : Nat) (leaderTeam : TeamId) (others : List Nat) (isPremade : Bool)
    : QueueCall :=
  .addGroup { isEnableSystem := false, maxPlayersCountInGroup := 0 }
    { leader
      leaderTeam
      group := some ⟨leader :: others, List.mem_cons_self⟩
      membersCount := others.length + 1
      bracketId := 0
      arenaType := 0
      isRated := false
      isPremade
      matchmakerRating := 0
      arenaTeamId := 0
      opponentsArenaTeamId := 0
      gameTime := 0 }

/-- Two against two: one side is a group, the other one joined separately. -/
theorem normal_matches_are_filled_applied
    : (run step {} [joining 1 .alliance [2] false, joining 3 .horde [] false,
          joining 4 .horde [] false]).MatchedNormally 0 1 2 true
        ((run step {} [joining 1 .alliance [2] false, joining 3 .horde [] false,
          joining 4 .horde [] false]).checkNormalMatch 0 1 2 true false).1 :=
  normal_matches_are_filled _ 0 1 2 true (by decide +kernel)

-- Premade matches

namespace BattlegroundQueue

variable {queue : BattlegroundQueue}

def premadeCount (queue : BattlegroundQueue) (bracketId maxPlayersPerTeam : Nat) (team : TeamId)
    : Nat :=
  match (queue.queuedGroups bracketId (.premade team)).find?
      (fun group => !queue.isInvited group) with
  | none => 0
  | some group => if queue.size group ≤ maxPlayersPerTeam then queue.size group else 0

def biggerCount (queue : BattlegroundQueue) (bracketId maxPlayersPerTeam : Nat) : Nat :=
  max (queue.premadeCount bracketId maxPlayersPerTeam .alliance)
    (queue.premadeCount bracketId maxPlayersPerTeam .horde)

/-- The pools of a premade match are topped up: a side has as many players as the bigger premade
group, or no further group of its normal list fits; and no side has too many players.
-/
def ToppedUp (queue : BattlegroundQueue) (bracketId maxPlayersPerTeam : Nat)
    (pools : SelectionPools)
    : Prop :=
  ∀ team, (pools team).playerCount ≤ maxPlayersPerTeam
    ∧ ((pools team).playerCount ≥ queue.biggerCount bracketId maxPlayersPerTeam
      ∨ ∀ group ∈ queue.queuedGroups bracketId (.normal team), queue.isInvited group = false
          → group ∉ (pools team).selectedGroups
            → (pools team).playerCount + queue.size group
              > queue.biggerCount bracketId maxPlayersPerTeam)

/-- The premade groups of both teams are of one size, or every group of the smaller team's normal
list that is not invited is larger than their difference.
-/
def NothingFits (queue : BattlegroundQueue) (bracketId maxPlayersPerTeam : Nat) : Prop :=
  ∀ team, queue.premadeCount bracketId maxPlayersPerTeam team
      = queue.biggerCount bracketId maxPlayersPerTeam
    ∨ ∀ group ∈ queue.queuedGroups bracketId (.normal team), queue.isInvited group = false
        → queue.premadeCount bracketId maxPlayersPerTeam team + queue.size group
          > queue.biggerCount bracketId maxPlayersPerTeam

/-- A pool that has the desired count takes no group with players. -/
theorem topUp_of_le {desiredCount : Nat} {pool : SelectionPool}
    (full : desiredCount ≤ pool.playerCount) {groups : List Nat}
    (manned : ∀ group ∈ groups, 0 < queue.size group)
    : queue.topUp desiredCount pool groups = pool := by
  induction groups with
  | nil => rfl
  | cons group rest ih =>
      unfold topUp
      split
      · exact ih (fun other member => manned other (List.mem_cons_of_mem _ member))
      · rcases pool_addGroup_cases queue pool group desiredCount with ⟨-, same⟩ | ⟨-, room, -⟩
        · rw [same, decide_eq_false (Nat.not_lt.mpr full)]
        · have positive := manned group List.mem_cons_self
          omega

theorem Sound.size_pos (sound : queue.Sound) {bracketId group : Nat} {type : GroupType}
    (member : group ∈ queue.queuedGroups bracketId type)
    : 0 < queue.size group :=
  List.length_pos_iff.mpr (sound.held member).manned

/-- The pools of a premade match are those of the premade groups alone. -/
theorem Sound.checkPremadeMatch (sound : queue.Sound) {bracketId minPlayers maxPlayers : Nat}
    {timeBefore : Int} {pools : SelectionPools}
    (found : pools ∈ (queue.checkPremadeMatch bracketId minPlayers maxPlayers timeBefore).2)
    (team : TeamId)
    : (pools team).playerCount = queue.premadeCount bracketId maxPlayers team
      ∧ ∀ group ∈ (pools team).selectedGroups,
          group ∈ queue.queuedGroups bracketId (.premade team) := by
  unfold BattlegroundQueue.checkPremadeMatch at found
  dsimp only at found
  -- the limit is the smaller of the two sizes, so that no normal group is added to either pool
  have alone (group limit : Nat) (team : TeamId)
      (listed : (queue.queuedGroups bracketId (.premade team)).find?
        (fun group => !queue.isInvited group) = some group)
      (full : limit ≤ (({} : SelectionPool).addGroup queue group maxPlayers).1.playerCount)
      : (queue.topUp limit (({} : SelectionPool).addGroup queue group maxPlayers).1
          (queue.queuedGroups bracketId (.normal team))).playerCount
          = queue.premadeCount bracketId maxPlayers team
        ∧ ∀ other ∈ (queue.topUp limit (({} : SelectionPool).addGroup queue group maxPlayers).1
            (queue.queuedGroups bracketId (.normal team))).selectedGroups,
          other ∈ queue.queuedGroups bracketId (.premade team) := by
    rw [topUp_of_le full (fun _ member => sound.size_pos member)]
    unfold premadeCount
    rw [listed]
    dsimp only
    rcases pool_addGroup_cases queue {} group maxPlayers with ⟨full, same⟩ | ⟨-, room, added⟩
    · have free := List.find?_some listed
      have large := full (by simpa using free)
      rw [same, if_neg (by simpa using large)]
      exact ⟨rfl, fun other member => (by cases member)⟩
    · rw [added]
      have fits : queue.size group ≤ maxPlayers := by simpa using room
      rw [if_pos fits]
      refine ⟨Nat.zero_add _, fun other member => ?_⟩
      rw [List.mem_singleton.mp member]
      exact List.mem_of_find?_eq_some listed
  split at found
  · next aliGroup hordeGroup ali horde =>
      cases found
      cases team with
      | alliance => exact alone aliGroup _ .alliance ali (Nat.min_le_left _ _)
      | horde => exact alone hordeGroup _ .horde horde (Nat.min_le_right _ _)
  · cases found

end BattlegroundQueue

/-- In every queue that calls reach, the pools of a premade match are topped up if and only if
nothing fits. The comment of the source asks to add groups up to the size of the bigger premade
group, but the limit is the smaller size.
-/
theorem premade_matches_topped_up_iff (calls : List QueueCall)
    (bracketId minPlayersPerTeam maxPlayersPerTeam : Nat) (timeBefore : Int)
    : let queue := run step {} calls
      ∀ pools ∈ (queue.checkPremadeMatch bracketId minPlayersPerTeam maxPlayersPerTeam
          timeBefore).2,
        queue.ToppedUp bracketId maxPlayersPerTeam pools
          ↔ queue.NothingFits bracketId maxPlayersPerTeam := by
  intro queue pools found
  have sound : queue.Sound := Sound.reached calls
  have alone := sound.checkPremadeMatch found
  have apart (team : TeamId) {group : Nat}
      (normal : group ∈ queue.queuedGroups bracketId (.normal team))
      : group ∉ (pools team).selectedGroups := by
    intro selected
    have types := sound.list_eq normal ((alone team).2 group selected)
    cases types.2
  have small (team : TeamId)
      : queue.premadeCount bracketId maxPlayersPerTeam team ≤ maxPlayersPerTeam := by
    unfold BattlegroundQueue.premadeCount
    split
    · exact Nat.zero_le _
    · split
      · assumption
      · exact Nat.zero_le _
  have smaller (team : TeamId) : queue.premadeCount bracketId maxPlayersPerTeam team
      ≤ queue.biggerCount bracketId maxPlayersPerTeam := by
    cases team with
    | alliance => exact Nat.le_max_left _ _
    | horde => exact Nat.le_max_right _ _
  constructor
  · intro topped team
    obtain ⟨-, reached | full⟩ := topped team
    · rw [(alone team).1] at reached
      exact .inl (Nat.le_antisymm (smaller team) reached)
    · rw [(alone team).1] at full
      exact .inr (fun group member free => full group member free (apart team member))
  · intro nothing team
    rw [(alone team).1]
    refine ⟨small team, (nothing team).imp (fun same => Nat.le_of_eq same.symm) ?_⟩
    exact fun full group member free _ => full group member free

/-- A premade group of two against one of one, and nobody else. -/
theorem premade_matches_topped_up_iff_applied
    : ∃ pools ∈ ((run step {} [joining 1 .alliance [2] true,
          joining 3 .horde [] true]).checkPremadeMatch 0 1 10 0).2,
        (run step {} [joining 1 .alliance [2] true, joining 3 .horde [] true]).ToppedUp 0 10 pools
          ↔ (run step {} [joining 1 .alliance [2] true, joining 3 .horde [] true]).NothingFits
            0 10 := by
  have matched : ((run step {} [joining 1 .alliance [2] true,
      joining 3 .horde [] true]).checkPremadeMatch 0 1 10 0).2.isSome = true := by
    decide +kernel
  obtain ⟨pools, found⟩ := Option.isSome_iff_exists.mp matched
  exact ⟨pools, found, premade_matches_topped_up_iff _ 0 1 10 0 pools found⟩

/-- A premade group of two against one of one: a player in the normal queue would make them even,
but is not added.
-/
theorem smaller_premade_not_topped_up
    : ¬ ∀ (calls : List QueueCall) (bracketId minPlayersPerTeam maxPlayersPerTeam : Nat)
        (timeBefore : Int),
        ∀ pools ∈ ((run step {} calls).checkPremadeMatch bracketId minPlayersPerTeam
            maxPlayersPerTeam timeBefore).2,
          (run step {} calls).ToppedUp bracketId maxPlayersPerTeam pools := by
  intro law
  have missed : ∃ pools ∈ ((run step {} [joining 1 .alliance [2] true, joining 3 .horde [] true,
        joining 4 .horde [] false]).checkPremadeMatch 0 1 10 0).2,
      (pools .horde).playerCount = 1
        ∧ ∃ group ∈ (run step {} [joining 1 .alliance [2] true, joining 3 .horde [] true,
            joining 4 .horde [] false]).queuedGroups 0 (.normal .horde),
          (run step {} [joining 1 .alliance [2] true, joining 3 .horde [] true,
            joining 4 .horde [] false]).isInvited group = false
          ∧ group ∉ (pools .horde).selectedGroups
          ∧ (run step {} [joining 1 .alliance [2] true, joining 3 .horde [] true,
            joining 4 .horde [] false]).size group = 1 := by
    decide +kernel
  have bigger : (run step {} [joining 1 .alliance [2] true, joining 3 .horde [] true,
      joining 4 .horde [] false]).biggerCount 0 10 = 2 := by
    decide +kernel
  obtain ⟨pools, found, count, group, listed, free, apart, size⟩ := missed
  obtain ⟨-, reached | full⟩ := law _ 0 1 10 0 pools found .horde
  · rw [count, bigger] at reached
    omega
  · have larger := full group listed free apart
    rw [count, size, bigger] at larger
    omega

end WarheadCore.Battlegrounds
