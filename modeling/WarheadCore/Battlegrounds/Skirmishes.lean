import WarheadCore.Battlegrounds.Selection

/-! Skirmishes of one faction: how CheckSkirmishForSameFaction divides the groups of a team's list
into two pools, which groups change their side for it, and when it reads a pool without groups.
-/

namespace WarheadCore.Battlegrounds

open Foundation.Runs

namespace BattlegroundQueue

variable {queue after : BattlegroundQueue} {bracketId : Nat} {team : TeamId}

-- Groups that change their side

/-- Groups of a team's normal list changed their side: they are in front of the other team's list,
the last one first, and nothing else changed.
-/
structure SidesChanged (queue after : BattlegroundQueue) (bracketId : Nat) (team : TeamId)
    (groups : List Nat)
    : Prop where
  left
    : after.queuedGroups bracketId (.normal team)
      = (queue.queuedGroups bracketId (.normal team)).filter (· ∉ groups)
  joined
    : after.queuedGroups bracketId (.normal team.other)
      = groups.reverse ++ queue.queuedGroups bracketId (.normal team.other)
  elsewhere
    : ∀ bracket type, ¬ (bracket = bracketId ∧ (type = .normal team ∨ type = .normal team.other))
        → after.queuedGroups bracket type = queue.queuedGroups bracket type
  changed
    : ∀ group ∈ groups,
        after.info group
          = { queue.info group with teamId := team.other, groupType := .normal team.other }
  others : ∀ group, group ∉ groups → after.info group = queue.info group

theorem normal_ne_other (team : TeamId) : GroupType.normal team ≠ .normal team.other := by
  cases team <;> decide

theorem SidesChanged.nil (queue : BattlegroundQueue) (bracketId : Nat) (team : TeamId)
    : SidesChanged queue queue bracketId team [] where
  left := by simp
  joined := rfl
  elsewhere _ _ _ := rfl
  changed _ member := by cases member
  others _ _ := rfl

/-- One group that is listed after the iterator changes its side. -/
theorem sidesChanged_changeSide {position group : Nat}
    (distinct : (queue.queuedGroups bracketId (.normal team)).Nodup)
    (later : group ∈ (queue.queuedGroups bracketId (.normal team)).drop (position + 1))
    : SidesChanged queue (changeSide bracketId position team queue group) bracketId team
        [group] where
  left := by
    rw [changeSide_queuedGroups, eraseAfter_eq_erase distinct later, distinct.erase_eq_filter]
    apply List.filter_congr
    intro other _
    rw [Bool.eq_iff_iff]
    simp
  joined := by
    have apart := normal_ne_other team
    rw [changeSide, moveGroup_queuedGroups apart, if_neg (fun same => apart same.2.symm),
      if_pos ⟨rfl, rfl⟩]
    rfl
  elsewhere bracket type away := by
    rw [changeSide, moveGroup_queuedGroups (normal_ne_other team),
      if_neg (fun same => away ⟨same.1, .inl same.2⟩),
      if_neg (fun same => away ⟨same.1, .inr same.2⟩)]
    rfl
  changed other member := by
    rw [List.mem_singleton.mp member, changeSide, moveGroup_info_self, change_info_self]
  others other apart := by
    have different : other ≠ group := fun same => apart (List.mem_singleton.mpr same)
    rw [changeSide, moveGroup_info_of_ne different, change_info_of_ne different]

/-- Another group changes its side before the others. -/
theorem SidesChanged.cons {middle : BattlegroundQueue} {group : Nat} {rest : List Nat}
    (first : SidesChanged queue middle bracketId team [group])
    (later : SidesChanged middle after bracketId team rest) (fresh : group ∉ rest)
    : SidesChanged queue after bracketId team (group :: rest) where
  left := by
    rw [later.left, first.left, List.filter_filter]
    apply List.filter_congr
    intro other _
    simp [Bool.and_comm]
  joined := by
    rw [later.joined, first.joined]
    simp
  elsewhere bracket type away := by
    rw [later.elsewhere bracket type away, first.elsewhere bracket type away]
  changed other member := by
    rcases List.mem_cons.mp member with rfl | member
    · rw [later.others other fresh, first.changed other List.mem_cons_self]
    · have different : other ≠ group := fun same => fresh (same ▸ member)
      rw [later.changed other member, first.others other (by simpa using different)]
  others other away := by
    rw [List.mem_cons, not_or] at away
    obtain ⟨different, outside⟩ := away
    rw [later.others other outside, first.others other (by simpa using different)]

/-- The loop over the second pool moves all its groups.
Witness: induction on the groups, all after the iterator; the next ones stay there.
-/
theorem Good.sidesChanged (good : queue.Good) {position : Nat} {groups : List Nat}
    (distinct : groups.Nodup)
    (later
      : ∀ group ∈ groups,
          group ∈ (queue.queuedGroups bracketId (.normal team)).drop (position + 1))
    : SidesChanged queue (groups.foldl (BattlegroundQueue.changeSide bracketId position team)
        queue) bracketId team groups := by
  induction groups generalizing queue with
  | nil => exact .nil queue bracketId team
  | cons group rest ih =>
      obtain ⟨fresh, distinct⟩ := List.nodup_cons.mp distinct
      have here := later group List.mem_cons_self
      have first := sidesChanged_changeSide (good.sound.once bracketId (.normal team)) here
      refine first.cons (ih (good.changeSide here) distinct ?_) fresh
      intro other member
      have different : other ≠ group := fun same => fresh (same ▸ member)
      rw [changeSide_queuedGroups, drop_eraseAfter here]
      exact (List.mem_erase_of_ne different).mpr (later other (List.mem_cons_of_mem _ member))

-- The order of the pools

/-- A pool takes groups of a list in its order, and those that remain come after them. -/
theorem fillPool_sublist (queue : BattlegroundQueue) (minPlayers maxPlayers : Nat)
    (pool : SelectionPool) (groups : List Nat)
    : ((queue.fillPool minPlayers maxPlayers pool groups).1.selectedGroups
        ++ (queue.fillPool minPlayers maxPlayers pool groups).2).Sublist
        (pool.selectedGroups ++ groups) := by
  induction groups generalizing pool with
  | nil => exact List.Sublist.refl _
  | cons group rest ih =>
      have shorter : (pool.selectedGroups ++ rest).Sublist (pool.selectedGroups ++ group :: rest) :=
        (List.sublist_cons_self group rest).append_left _
      have taken : ((pool.addGroup queue group maxPlayers).1.selectedGroups ++ rest).Sublist
          (pool.selectedGroups ++ group :: rest) := by
        rcases addGroup_cases pool queue group maxPlayers with ⟨-, grown⟩ | same
        · rw [grown, List.append_assoc]
          exact List.Sublist.refl _
        · rwa [same]
      unfold BattlegroundQueue.fillPool
      dsimp only
      split
      · exact (ih pool).trans shorter
      · split
        · exact taken
        · exact (ih _).trans taken

/-- The pools of CheckNormalMatch have their groups in the order of the lists. -/
theorem checkNormalMatch_sublist (queue : BattlegroundQueue)
    (bracketId minPlayers maxPlayers : Nat) (balanced testing : Bool) (team : TeamId)
    : ((queue.checkNormalMatch bracketId minPlayers maxPlayers balanced testing).1
        team).selectedGroups.Sublist (queue.queuedGroups bracketId (.normal team)) := by
  have filled (team : TeamId) := queue.fillPool_sublist minPlayers maxPlayers {}
    (queue.queuedGroups bracketId (.normal team))
  have alone (team : TeamId) : (queue.fillPool minPlayers maxPlayers {}
      (queue.queuedGroups bracketId (.normal team))).1.selectedGroups.Sublist
      (queue.queuedGroups bracketId (.normal team)) :=
    (List.sublist_append_left _ _).trans (filled team)
  have topped (fewer : TeamId) (desiredCount : Nat)
      : (Function.update (fun team => (queue.fillPool minPlayers maxPlayers {}
          (queue.queuedGroups bracketId (.normal team))).1) fewer
          (queue.topUp desiredCount (queue.fillPool minPlayers maxPlayers {}
              (queue.queuedGroups bracketId (.normal fewer))).1
            (queue.fillPool minPlayers maxPlayers {}
              (queue.queuedGroups bracketId (.normal fewer))).2) team).selectedGroups.Sublist
        (queue.queuedGroups bracketId (.normal team)) := by
    rcases eq_or_ne team fewer with rfl | other
    · rw [Function.update_self]
      exact (queue.topUp_sublist desiredCount _ _).trans (filled team)
    · rw [Function.update_of_ne other]
      exact alone team
  unfold checkNormalMatch
  dsimp only
  split
  · exact topped _ _
  · exact alone team

/-- Groups that were taken in the order of a list are not after the last one. -/
theorem not_mem_drop_of_getLast? {chosen groups : List Nat} {group : Nat}
    (order : chosen.Sublist groups) (distinct : groups.Nodup)
    (last : chosen.getLast? = some group)
    : ∀ other ∈ chosen, other ∉ groups.drop (groups.idxOf group + 1) := by
  obtain ⟨before, rfl⟩ := List.getLast?_eq_some_iff.mp last
  obtain ⟨front, back, rfl, inFront, inBack⟩ := List.append_sublist_iff.mp order
  obtain ⟨skipped, rest, rfl⟩ := List.append_of_mem (List.singleton_sublist.mp inBack)
  rw [← List.append_assoc] at distinct ⊢
  obtain ⟨-, tail, apart⟩ := List.nodup_append.mp distinct
  have fresh : group ∉ front ++ skipped :=
    fun earlier => apart group earlier group List.mem_cons_self rfl
  rw [List.idxOf_append_of_notMem fresh, List.idxOf_cons_self, Nat.add_zero,
    List.drop_append, List.drop_of_length_le (Nat.le_succ _), List.nil_append,
    Nat.add_sub_cancel_left, List.drop_one, List.tail_cons]
  intro other member there
  rcases List.mem_append.mp member with earlier | same
  · exact apart other (List.mem_append_left _ (inFront.subset earlier)) other
      (List.mem_cons_of_mem _ there) rfl
  · rw [List.mem_singleton.mp same] at there
    exact (List.nodup_cons.mp tail).1 there

-- Divisions

def poolPlayers (queue : BattlegroundQueue) (pool : SelectionPool) : List Nat :=
  pool.selectedGroups.flatMap (fun group => (queue.info group).players)

/-- Groups of a team's list make two pools with enough distinct players each, and exactly those of
the second pool changed their side.
-/
structure Divided (queue after : BattlegroundQueue) (bracketId minPlayersPerTeam : Nat)
    (team : TeamId) (pools : SelectionPools)
    : Prop where
  listed
    : ∀ side, ∀ group ∈ (pools side).selectedGroups,
        group ∈ queue.queuedGroups bracketId (.normal team) ∧ queue.isInvited group = false
  distinct : (queue.poolPlayers (pools team) ++ queue.poolPlayers (pools team.other)).Nodup
  enough : ∀ side, minPlayersPerTeam ≤ (queue.poolPlayers (pools side)).length
  moved : SidesChanged queue after bracketId team (pools team.other).selectedGroups

def skirmishTeam (pools : SelectionPools) (minPlayersPerTeam : Nat) : TeamId :=
  if (pools .horde).playerCount = minPlayersPerTeam then .horde else .alliance

/-- CheckSkirmishForSameFaction does not return at once and takes the last element of a list
without elements.
-/
def TakesBackOfEmpty (pools : SelectionPools) (minPlayersPerTeam : Nat) : Prop :=
  ¬ ((pools .alliance).playerCount < minPlayersPerTeam
      ∧ (pools .horde).playerCount < minPlayersPerTeam)
    ∧ (pools (skirmishTeam pools minPlayersPerTeam)).selectedGroups = []

instance (pools : SelectionPools) (minPlayersPerTeam : Nat)
    : Decidable (TakesBackOfEmpty pools minPlayersPerTeam) :=
  inferInstanceAs (Decidable (_ ∧ _))

/-- CheckSkirmishForSameFaction takes the last element of no empty list, and when it returns true it
has divided the groups of a team.
-/
structure SkirmishLaw (queue : BattlegroundQueue) (pools : SelectionPools)
    (bracketId minPlayersPerTeam : Nat)
    : Prop where
  defined : ¬ TakesBackOfEmpty pools minPlayersPerTeam
  divided
    : ∀ after divided,
        queue.checkSkirmishForSameFaction pools bracketId minPlayersPerTeam = some (after, divided)
          → ∃ team, queue.Divided after bracketId minPlayersPerTeam team divided

/-- Distinct listed groups have distinct players. -/
theorem Sound.nodup_players (sound : queue.Sound) {type : GroupType} {groups : List Nat}
    (distinct : groups.Nodup) (listed : ∀ group ∈ groups, group ∈ queue.queuedGroups bracketId type)
    : (groups.flatMap (fun group => (queue.info group).players)).Nodup := by
  refine List.nodup_flatMap.mpr ⟨?_, distinct.imp_of_mem ?_⟩
  · exact fun group member => (sound.held (listed group member)).distinct
  · intro one other oneMember otherMember different guid ofOne ofOther
    have owner := (sound.held (listed one oneMember)).owned guid ofOne
    rw [(sound.held (listed other otherMember)).owned guid ofOther] at owner
    exact different (Option.some.inj owner).symm

theorem Selected.length_poolPlayers {groups : List Nat} {limit : Nat} {pool : SelectionPool}
    (selected : queue.Selected groups limit pool)
    : (queue.poolPlayers pool).length = pool.playerCount := by
  rw [poolPlayers, List.length_flatMap, selected.counted]
  rfl

theorem Sound.remaining_drop (sound : queue.Sound) (bracketId position : Nat) (type : GroupType)
    : Remaining (queue.queuedGroups bracketId type) {}
        ((queue.queuedGroups bracketId type).drop position) where
  distinct := (sound.once bracketId type).sublist (List.drop_sublist _ _)
  listed _ member := List.mem_of_mem_drop member
  fresh _ _ inPool := by cases inPool

/-- A pool of a team's list and a second one of the groups after it divide the list. -/
theorem Good.divide (good : queue.Good) {pools : SelectionPools} {second : SelectionPool}
    {minPlayersPerTeam limit position : Nat}
    (selected : queue.Selected (queue.queuedGroups bracketId (.normal team)) limit (pools team))
    (others
      : queue.Selected (queue.queuedGroups bracketId (.normal team)) minPlayersPerTeam second)
    (before
      : ∀ group ∈ (pools team).selectedGroups,
          group ∉ (queue.queuedGroups bracketId (.normal team)).drop (position + 1))
    (later
      : ∀ group ∈ second.selectedGroups,
          group ∈ (queue.queuedGroups bracketId (.normal team)).drop (position + 1))
    (enough : minPlayersPerTeam ≤ (pools team).playerCount)
    (full : second.playerCount = minPlayersPerTeam)
    : queue.Divided
        (second.selectedGroups.foldl (BattlegroundQueue.changeSide bracketId position team) queue)
        bracketId minPlayersPerTeam team (Function.update pools team.other second) := by
  have different : team ≠ team.other := by
    cases team <;> decide
  have kept : Function.update pools team.other second team = pools team :=
    Function.update_of_ne different _ _
  have placed : Function.update pools team.other second team.other = second :=
    Function.update_self _ _ _
  have sides {P : SelectionPool → Prop} (first : P (pools team)) (other : P second) (side : TeamId)
      : P (Function.update pools team.other second side) := by
    rcases eq_or_ne side team.other with rfl | same
    · rwa [placed]
    · have isTeam : side = team := by
        cases side <;> cases team <;> first | rfl | exact (same rfl).elim
      rwa [isTeam, kept]
  constructor
  case listed =>
    intro side
    exact sides
      (P := fun pool => ∀ group ∈ pool.selectedGroups,
        group ∈ queue.queuedGroups bracketId (.normal team) ∧ queue.isInvited group = false)
      (fun group member => ⟨selected.listed group member, selected.uninvited group member⟩)
      (fun group member => ⟨others.listed group member, others.uninvited group member⟩) side
  case distinct =>
    rw [kept, placed, poolPlayers, poolPlayers, ← List.flatMap_append]
    have listed : ∀ group ∈ (pools team).selectedGroups ++ second.selectedGroups,
        group ∈ queue.queuedGroups bracketId (.normal team) := by
      intro group member
      rcases List.mem_append.mp member with first | next
      · exact selected.listed group first
      · exact others.listed group next
    refine good.sound.nodup_players ?_ listed
    refine List.nodup_append.mpr ⟨selected.distinct, others.distinct, ?_⟩
    intro one member other inSecond same
    exact before one member (same ▸ later other inSecond)
  case enough =>
    intro side
    refine sides (P := fun pool => minPlayersPerTeam ≤ (queue.poolPlayers pool).length) ?_ ?_ side
    · rwa [selected.length_poolPlayers]
    · rw [others.length_poolPlayers, full]
  case moved =>
    rw [placed]
    exact good.sidesChanged others.distinct later

/-- What CheckSkirmishForSameFaction returns for pools in the order of the lists, when the pool that
it divides has enough players.
-/
theorem Good.divided (good : queue.Good) {pools : SelectionPools} {minPlayersPerTeam limit : Nat}
    (selected
      : ∀ team, queue.Selected (queue.queuedGroups bracketId (.normal team)) limit (pools team))
    (ordered
      : ∀ team, (pools team).selectedGroups.Sublist (queue.queuedGroups bracketId (.normal team)))
    (enough : minPlayersPerTeam ≤ (pools (skirmishTeam pools minPlayersPerTeam)).playerCount)
    {divided : SelectionPools}
    (found
      : queue.checkSkirmishForSameFaction pools bracketId minPlayersPerTeam = some (after, divided))
    : queue.Divided after bracketId minPlayersPerTeam (skirmishTeam pools minPlayersPerTeam)
        divided := by
  unfold skirmishTeam at enough ⊢
  unfold BattlegroundQueue.checkSkirmishForSameFaction at found
  dsimp only at found
  generalize (if (pools .horde).playerCount = minPlayersPerTeam then TeamId.horde
    else .alliance) = team at found enough ⊢
  split at found
  · cases found
  · split at found
    · cases found
    · rename_i ginfo last
      split at found
      · split at found
        · cases found
        · next full =>
            rw [Decidable.not_not] at full
            obtain ⟨rfl, rfl⟩ := Prod.mk.inj (Option.some.inj found)
            have others := (Selected.topUp (Nat.le_refl minPlayersPerTeam)
              (@Selected.empty queue (queue.queuedGroups bracketId (.normal team)) _)
              (good.sound.remaining_drop bracketId
                ((queue.queuedGroups bracketId (.normal team)).idxOf ginfo + 1)
                (.normal team))).1
            have chosen := topUp_sublist queue minPlayersPerTeam {}
              ((queue.queuedGroups bracketId (.normal team)).drop
                ((queue.queuedGroups bracketId (.normal team)).idxOf ginfo + 1))
            have before := not_mem_drop_of_getLast? (ordered team)
              (good.sound.once bracketId (.normal team)) last
            exact good.divide (selected team) others before
              (fun group member => chosen.subset member) enough full
      · cases found

/-- A skirmish keeps its law when no team is short of players while the horde has too many. -/
theorem Good.skirmishLaw (good : queue.Good) {pools : SelectionPools}
    {minPlayersPerTeam limit : Nat}
    (selected
      : ∀ team, queue.Selected (queue.queuedGroups bracketId (.normal team)) limit (pools team))
    (ordered
      : ∀ team, (pools team).selectedGroups.Sublist (queue.queuedGroups bracketId (.normal team)))
    (positive : 0 < minPlayersPerTeam)
    (fits
      : ¬ ((pools .alliance).playerCount < minPlayersPerTeam
          ∧ minPlayersPerTeam < (pools .horde).playerCount))
    : queue.SkirmishLaw pools bracketId minPlayersPerTeam := by
  have enough (goesOn : ¬ ((pools .alliance).playerCount < minPlayersPerTeam
        ∧ (pools .horde).playerCount < minPlayersPerTeam))
      : minPlayersPerTeam ≤ (pools (skirmishTeam pools minPlayersPerTeam)).playerCount := by
    unfold skirmishTeam
    split
    · next same => exact same.ge
    · omega
  constructor
  case defined =>
    rintro ⟨goesOn, nobody⟩
    have counted := (selected (skirmishTeam pools minPlayersPerTeam)).counted
    rw [nobody] at counted
    have players := enough goesOn
    rw [counted] at players
    exact absurd positive (Nat.not_lt.mpr players)
  case divided =>
    intro after divided found
    have goesOn : ¬ ((pools .alliance).playerCount < minPlayersPerTeam
        ∧ (pools .horde).playerCount < minPlayersPerTeam) := by
      rintro ⟨short, alsoShort⟩
      unfold BattlegroundQueue.checkSkirmishForSameFaction at found
      rw [if_pos (by simp [short, alsoShort])] at found
      cases found
    exact ⟨_, good.divided selected ordered (enough goesOn) found⟩

/-- A pool that counts no players has no groups. -/
theorem Sound.selectedGroups_eq_nil (sound : queue.Sound) {type : GroupType} {limit : Nat}
    {pool : SelectionPool}
    (selected : queue.Selected (queue.queuedGroups bracketId type) limit pool)
    (nobody : pool.playerCount = 0)
    : pool.selectedGroups = [] := by
  cases groups : pool.selectedGroups with
  | nil => rfl
  | cons group rest =>
      have listed := selected.listed group (groups ▸ List.mem_cons_self)
      have positive := sound.size_pos listed
      rw [selected.counted, groups, List.map_cons, List.sum_cons] at nobody
      omega

/-- Without players to wait for, a match starts at once. -/
theorem Sound.checkNormalMatch_zero (sound : queue.Sound) (bracketId : Nat) (balanced : Bool)
    : (queue.checkNormalMatch bracketId 0 0 balanced false).2 = true := by
  have counts (team : TeamId)
      : ((queue.checkNormalMatch bracketId 0 0 balanced false).1 team).playerCount = 0 :=
    Nat.le_zero.mp (sound.checkNormalMatch bracketId 0 0 balanced false team).within
  have horde := counts .horde
  have alliance := counts .alliance
  unfold BattlegroundQueue.checkNormalMatch at horde alliance ⊢
  dsimp only at horde alliance ⊢
  split
  · next both =>
      rw [if_pos both] at horde alliance
      dsimp only at horde alliance ⊢
      rw [horde, alliance]
      simp [canStartMatch]
  · simp [canStartMatch]

end BattlegroundQueue

open BattlegroundQueue

/-- In every queue that calls reach, when an update of an arena finds no normal match, its skirmish
of one faction keeps its law if and only if the alliance's pool is not short of players while the
horde's has more than enough. With the least number of players for a test, a single horde group of
two makes it take the last element of the alliance's empty pool.
-/
theorem skirmishes_are_divided_iff (calls : List QueueCall) (update : QueueUpdate)
    (template : Template) (isArena : template.isArena = true)
    : let queue := update.fillings.foldl (fill update.bracketId) (run step {} calls)
      let minPlayersPerTeam := update.minPlayersPerTeam template
      let found := queue.checkNormalMatch update.bracketId minPlayersPerTeam
        (update.maxPlayersPerTeam template) update.balanced false
      found.2 = false
        → (queue.SkirmishLaw found.1 update.bracketId minPlayersPerTeam
          ↔ ¬ ((found.1 .alliance).playerCount < minPlayersPerTeam
            ∧ minPlayersPerTeam < (found.1 .horde).playerCount)) := by
  intro queue minPlayersPerTeam found unmatched
  have good : queue.Good := (Good.reached calls).fills update.bracketId update.fillings
  have selected := good.sound.checkNormalMatch update.bracketId minPlayersPerTeam
    (update.maxPlayersPerTeam template) update.balanced false
  have ordered := queue.checkNormalMatch_sublist update.bracketId minPlayersPerTeam
    (update.maxPlayersPerTeam template) update.balanced false
  have bounds : minPlayersPerTeam = 1
      ∨ minPlayersPerTeam = update.maxPlayersPerTeam template := by
    unfold minPlayersPerTeam QueueUpdate.minPlayersPerTeam QueueUpdate.maxPlayersPerTeam
    rw [if_pos isArena, if_pos isArena]
    split
    · exact .inl rfl
    · exact .inr rfl
  constructor
  · rintro law ⟨short, large⟩
    rcases bounds with test | same
    · -- the alliance's pool counts no players, so that it has no groups, and it is to be divided
      rw [test] at short large
      have chosen : skirmishTeam found.1 1 = .alliance := if_neg large.ne'
      refine law.defined ⟨fun both => ?_, ?_⟩
      · rw [test] at both
        exact absurd both.2 large.le.not_gt
      · rw [test, chosen]
        exact good.sound.selectedGroups_eq_nil (selected .alliance) (Nat.lt_one_iff.mp short)
    · exact absurd (selected .horde).within (Nat.not_le.mpr (same.symm.trans_lt large))
  · have positive : 0 < minPlayersPerTeam := by
      rcases bounds with test | same
      · rw [test]
        exact Nat.one_pos
      · -- with no players at least and at most, a normal match is found
        rcases Nat.eq_zero_or_pos minPlayersPerTeam with none | some
        · have starts := good.sound.checkNormalMatch_zero update.bracketId update.balanced
          unfold found at unmatched
          rw [← same, none, starts] at unmatched
          cases unmatched
        · exact some
    exact good.skirmishLaw selected ordered positive

def skirmishing (leader other : Nat) : QueueCall :=
  .addGroup { isEnableSystem := false, maxPlayersCountInGroup := 0 }
    { leader
      leaderTeam := .horde
      group := some ⟨[leader, other], List.mem_cons_self⟩
      membersCount := 2
      bracketId := 0
      arenaType := 2
      isRated := false
      isPremade := false
      matchmakerRating := 0
      arenaTeamId := 0
      opponentsArenaTeamId := 0
      gameTime := 0 }

def skirmishUpdate (arenaTesting : Bool) : QueueUpdate where
  bracketId := 0
  arenaType := 2
  isRated := false
  arenaRating := 0
  fillings := []
  template := some {
    isArena := true, isRandom := false, minPlayersPerTeam := 2, maxPlayersPerTeam := 2 }
  testing := false
  arenaTesting
  balanced := false
  gameTime := 0
  premadeGroupWaitForMatch := 0
  maxRatingDifference := 0
  ratingDiscardTimer := 0
  previousOpponentsDiscardTimer := 0
  crossFactionMatch := none
  premadeInstance := none
  normalInstance := some 7
  ratedInstance := none

/-- Two groups of the horde, without a test. -/
theorem skirmishes_are_divided_iff_applied
    : let queue := run step {} [skirmishing 1 2, skirmishing 3 4]
      queue.SkirmishLaw (queue.checkNormalMatch 0 2 2 false false).1 0 2 :=
  (skirmishes_are_divided_iff [skirmishing 1 2, skirmishing 3 4] (skirmishUpdate false)
    { isArena := true, isRandom := false, minPlayersPerTeam := 2, maxPlayersPerTeam := 2 } rfl
    (by decide +kernel)).mpr (by decide +kernel)

/-- With the least number of players for a test, one group of the horde makes the update take the
last element of the alliance's empty pool.
-/
theorem skirmish_takes_back_of_empty
    : ¬ ∀ (calls : List QueueCall) (update : QueueUpdate) (template : Template),
        template.isArena = true
          → let queue := update.fillings.foldl (fill update.bracketId) (run step {} calls)
            let minPlayersPerTeam := update.minPlayersPerTeam template
            let found := queue.checkNormalMatch update.bracketId minPlayersPerTeam
              (update.maxPlayersPerTeam template) update.balanced false
            found.2 = false
              → queue.SkirmishLaw found.1 update.bracketId minPlayersPerTeam := by
  intro law
  have broken := (law [skirmishing 1 2] (skirmishUpdate true)
    { isArena := true, isRandom := false, minPlayersPerTeam := 2, maxPlayersPerTeam := 2 } rfl
    (by decide +kernel)).defined
  exact broken (by decide +kernel)

end WarheadCore.Battlegrounds
