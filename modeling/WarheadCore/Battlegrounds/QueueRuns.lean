import WarheadCore.Battlegrounds.Matchmaking
import WarheadCore.Battlegrounds.QueueRepresentation
import WarheadCore.Foundation.Runs

/-! Every run of a battleground queue keeps its players and its lists of groups in agreement: the
moves of the updates change a group's type and its list together.
-/

namespace WarheadCore.Battlegrounds

open Foundation

namespace BattlegroundQueue

variable {queue : BattlegroundQueue}

-- Invitations and sides

/-- A change of a group that keeps its own side changes no side. -/
theorem Sided.change {except : List Nat} (sided : queue.Sided except) {group : Nat}
    {change : GroupQueueInfo → GroupQueueInfo}
    (same : (change (queue.info group)).teamId = (queue.info group).teamId)
    : (queue.change group change).Sided except := by
  intro bracketId team other member outside
  by_cases here : other = group
  · subst here
    rw [change_info_self, same]
    exact sided bracketId team other member outside
  · rw [change_info_of_ne here]
    exact sided bracketId team other member outside

theorem Sound.inviteGroupToBG (good : queue.Sound) (group instanceId : Nat) (teamId : TeamId)
    : (queue.inviteGroupToBG group instanceId teamId).Sound :=
  good.change (fun _ => rfl) (fun _ => rfl) (fun _ => rfl) (fun _ => rfl)

theorem Good.inviteAllGroupsToBg (good : queue.Good) (pools : SelectionPools) (instanceId : Nat)
    : (queue.inviteAllGroupsToBg pools instanceId).Good := by
  unfold BattlegroundQueue.inviteAllGroupsToBg
  induction (pools .alliance).selectedGroups ++ (pools .horde).selectedGroups generalizing queue with
  | nil => exact good
  | cons group rest ih =>
      exact ih ⟨good.sound.inviteGroupToBG group instanceId _, good.sided.change rfl⟩

/-- Sides that the cross-faction module gives to its own groups are none of premade groups. -/
theorem Good.assignSides (good : queue.Good) (bracketId : Nat) (sides : List (Nat × TeamId))
    : (queue.assignSides bracketId sides).Good := by
  unfold BattlegroundQueue.assignSides
  induction sides generalizing queue with
  | nil => exact good
  | cons side rest ih =>
      rw [List.foldl_cons]
      apply ih
      split
      · rename_i member
        refine ⟨good.sound.change (fun _ => rfl) (fun _ => rfl) (fun _ => rfl) (fun _ => rfl), ?_⟩
        intro bracket team other there outside
        have different : other ≠ side.1 := by
          rintro rfl
          cases (good.sound.list_eq member there).2
        rw [change_info_of_ne different]
        exact good.sided bracket team other there outside
      · exact good

theorem Good.fill (good : queue.Good) (bracketId : Nat) (filling : Filling)
    : (queue.fill bracketId filling).Good :=
  (good.assignSides bracketId filling.sides).inviteAllGroupsToBg filling.pools filling.instanceId

theorem Good.fills (good : queue.Good) (bracketId : Nat) (fillings : List Filling)
    : (fillings.foldl (BattlegroundQueue.fill bracketId) queue).Good := by
  induction fillings generalizing queue with
  | nil => exact good
  | cons filling rest ih => exact ih (good.fill bracketId filling)

-- Premade groups and skirmishes

/-- A move to a list of normal groups changes no side of a premade group. -/
theorem Good.moveToNormal (good : queue.Good) {bracketId group : Nat} {origin : GroupType}
    {team : TeamId} {removal : List Nat → List Nat}
    (member : group ∈ queue.queuedGroups bracketId origin) (different : origin ≠ .normal team)
    (removed : removal (queue.queuedGroups bracketId origin)
      = (queue.queuedGroups bracketId origin).erase group)
    : (queue.moveGroup bracketId group origin (.normal team) removal).Good where
  sound := good.sound.moveGroup member different removed
  sided bracket side other there outside := by
    rw [mem_moveGroup good.sound member different removed] at there
    split at there
    · cases there.2
    · rename_i apart
      rw [moveGroup_info_of_ne apart]
      exact good.sided bracket side other there outside

theorem Good.movePremade (good : queue.Good) (bracketId minPlayersPerTeam : Nat) (timeBefore : Int)
    (team : TeamId)
    : (queue.movePremade bracketId minPlayersPerTeam timeBefore team).Good := by
  unfold BattlegroundQueue.movePremade
  split
  · exact good
  · rename_i group rest listed
    dsimp only
    split
    · have member : group ∈ queue.queuedGroups bracketId (.premade team) := by
        rw [listed]
        exact List.mem_cons_self
      exact good.moveToNormal member (by simp) rfl
    · exact good

theorem Good.checkPremadeMatch (good : queue.Good)
    (bracketId minPlayersPerTeam maxPlayersPerTeam : Nat) (timeBefore : Int)
    : (queue.checkPremadeMatch bracketId minPlayersPerTeam maxPlayersPerTeam timeBefore).1.Good := by
  unfold BattlegroundQueue.checkPremadeMatch
  dsimp only
  split
  · exact good
  · exact (good.movePremade _ _ _ _).movePremade _ _ _ _

/-- A pool takes the group and says so, or it stays as it is. -/
theorem addGroup_cases (pool : SelectionPool) (queue : BattlegroundQueue) (group desiredCount : Nat)
    : ((pool.addGroup queue group desiredCount).2 = true
        ∧ (pool.addGroup queue group desiredCount).1.selectedGroups = pool.selectedGroups ++ [group])
      ∨ (pool.addGroup queue group desiredCount).1 = pool := by
  unfold SelectionPool.addGroup
  dsimp only
  split
  · exact .inl ⟨rfl, rfl⟩
  · exact .inr rfl

/-- A pool takes groups of the list in its order. -/
theorem topUp_sublist (queue : BattlegroundQueue) (desiredCount : Nat) (pool : SelectionPool)
    (groups : List Nat)
    : (queue.topUp desiredCount pool groups).selectedGroups.Sublist
        (pool.selectedGroups ++ groups) := by
  induction groups generalizing pool with
  | nil => simp [topUp]
  | cons group rest ih =>
      have shorter : (pool.selectedGroups ++ rest).Sublist (pool.selectedGroups ++ group :: rest) :=
        (List.sublist_cons_self group rest).append_left _
      have cases := addGroup_cases pool queue group desiredCount
      rw [topUp]
      split
      · exact (ih pool).trans shorter
      · split
        · rename_i next added
          rw [added] at cases
          rcases cases with ⟨-, grown⟩ | rfl
          · have taken : next.selectedGroups = pool.selectedGroups ++ [group] := grown
            have later := ih next
            rwa [taken, List.append_assoc, List.singleton_append] at later
          · exact (ih next).trans shorter
        · rename_i next added
          rw [added] at cases
          rcases cases with ⟨impossible, -⟩ | rfl
          · cases impossible
          · exact List.sublist_append_left _ _

/-- Erasing after an iterator erases the group, when it is there. -/
theorem eraseAfter_eq_erase {groups : List Nat} {position group : Nat} (distinct : groups.Nodup)
    (later : group ∈ groups.drop (position + 1))
    : eraseAfter position group groups = groups.erase group := by
  have split := List.take_append_drop (position + 1) groups
  have before : group ∉ groups.take (position + 1) := by
    intro earlier
    rw [← split] at distinct
    exact (List.nodup_append.mp distinct).2.2 group earlier group later rfl
  conv_rhs => rw [← split]
  exact (List.erase_append_right _ before).symm

/-- What is after the iterator when a group there is erased. -/
theorem drop_eraseAfter {groups : List Nat} {position group : Nat}
    (later : group ∈ groups.drop (position + 1))
    : (eraseAfter position group groups).drop (position + 1)
      = (groups.drop (position + 1)).erase group := by
  have long : position + 1 < groups.length := by
    have := List.length_pos_of_mem later
    rw [List.length_drop] at this
    omega
  apply List.drop_left'
  rw [List.length_take]
  omega

/-- A group of the same faction that changes its side keeps the queue good. -/
theorem Good.changeSide (good : queue.Good) {bracketId position group : Nat} {team : TeamId}
    (later : group ∈ (queue.queuedGroups bracketId (.normal team)).drop (position + 1))
    : (changeSide bracketId position team queue group).Good := by
  have member := List.mem_of_mem_drop later
  have recolored : (queue.change group (fun ginfo => { ginfo with teamId := team.other })).Good := by
    refine ⟨good.sound.change (fun _ => rfl) (fun _ => rfl) (fun _ => rfl) (fun _ => rfl), ?_⟩
    intro bracket side other there outside
    have different : other ≠ group := by
      rintro rfl
      cases (good.sound.list_eq member there).2
    rw [change_info_of_ne different]
    exact good.sided bracket side other there outside
  have apart : GroupType.normal team ≠ .normal team.other := by
    cases team <;> decide
  exact recolored.moveToNormal member apart
    (eraseAfter_eq_erase (good.sound.once bracketId (.normal team)) later)

theorem changeSide_queuedGroups (bracketId position group : Nat) (team : TeamId)
    : (changeSide bracketId position team queue group).queuedGroups bracketId (.normal team)
      = eraseAfter position group (queue.queuedGroups bracketId (.normal team)) := by
  have apart : GroupType.normal team ≠ .normal team.other := by
    cases team <;> decide
  rw [BattlegroundQueue.changeSide, moveGroup_queuedGroups apart, if_pos ⟨rfl, rfl⟩,
    change_queuedGroups]

/-- The side changes of a skirmish.
Witness: induction on the groups, all after the iterator; the next ones stay there.
-/
theorem Good.changeSides (good : queue.Good) {bracketId position : Nat} {team : TeamId}
    {groups : List Nat} (distinct : groups.Nodup)
    (later
      : ∀ group ∈ groups,
          group ∈ (queue.queuedGroups bracketId (.normal team)).drop (position + 1))
    : (groups.foldl (BattlegroundQueue.changeSide bracketId position team) queue).Good := by
  induction groups generalizing queue with
  | nil => exact good
  | cons group rest ih =>
      obtain ⟨apart, distinct⟩ := List.nodup_cons.mp distinct
      have here := later group List.mem_cons_self
      rw [List.foldl_cons]
      apply ih (good.changeSide here) distinct
      intro other member
      have different : other ≠ group := by
        rintro rfl
        exact apart member
      rw [changeSide_queuedGroups, drop_eraseAfter here]
      exact (List.mem_erase_of_ne different).mpr (later other (List.mem_cons_of_mem _ member))

theorem Good.checkSkirmishForSameFaction (good : queue.Good) {pools : SelectionPools}
    {bracketId minPlayersPerTeam : Nat} {moved : BattlegroundQueue × SelectionPools}
    (found
      : queue.checkSkirmishForSameFaction pools bracketId minPlayersPerTeam = some moved)
    : moved.1.Good := by
  unfold BattlegroundQueue.checkSkirmishForSameFaction at found
  dsimp only at found
  generalize (if (pools .horde).playerCount = minPlayersPerTeam then TeamId.horde
    else .alliance) = team at found
  split at found
  · cases found
  · split at found
    · cases found
    · rename_i ginfo _
      split at found
      · split at found
        · cases found
        · obtain rfl := Option.some.inj found
          have chosen := topUp_sublist queue minPlayersPerTeam {}
            ((queue.queuedGroups bracketId (.normal team)).drop
              ((queue.queuedGroups bracketId (.normal team)).idxOf ginfo + 1))
          have all := good.sound.once bracketId (.normal team)
          exact good.changeSides ((all.sublist (List.drop_sublist _ _)).sublist chosen)
            (fun group member => chosen.subset member)
      · cases found

-- Rated arenas

section Rated

variable {bracketId group : Nat} {team side : TeamId} {except : List Nat}

/-- The list and the side of the other groups stay when a team takes its side. -/
theorem takeSide_info_of_ne {other : Nat} (different : other ≠ group)
    : (queue.takeSide bracketId team group).info other = queue.info other := by
  unfold takeSide
  split
  · exact moveGroup_info_of_ne different
  · rfl

variable (good : queue.Sound) (member : group ∈ queue.queuedGroups bracketId (.premade side))
  (own : (queue.info group).teamId = side)

include good member own

/-- A team that takes a side is in the list of that side, the others are where they were. -/
theorem mem_takeSide {bracket other : Nat} {stored : GroupType}
    : other ∈ (queue.takeSide bracketId team group).queuedGroups bracket stored
      ↔ if other = group then bracket = bracketId ∧ stored = .premade team
        else other ∈ queue.queuedGroups bracket stored := by
  unfold takeSide
  split
  · rename_i changes
    have origin : team.other = side := by
      cases team <;> cases side <;> simp_all [TeamId.other]
    rw [origin]
    refine mem_moveGroup good member ?_ rfl
    rintro same
    exact changes (own.trans (GroupType.premade.inj same))
  · rename_i stays
    obtain rfl : side = team := own.symm.trans (not_not.mp stays)
    split
    · rename_i same
      subst same
      exact ⟨fun there => good.list_eq member there, fun ⟨here, type⟩ => here ▸ type ▸ member⟩
    · exact Iff.rfl

theorem Sound.takeSide : (queue.takeSide bracketId team group).Sound := by
  unfold BattlegroundQueue.takeSide
  split
  · rename_i changes
    have origin : team.other = side := by
      cases team <;> cases side <;> simp_all [TeamId.other]
    rw [origin]
    refine good.moveGroup member ?_ rfl
    rintro same
    exact changes (own.trans (GroupType.premade.inj same))
  · exact good

/-- Only the team that takes a side may be where it does not belong. -/
theorem Sided.takeSide (sided : queue.Sided except)
    : (queue.takeSide bracketId team group).Sided (group :: except) := by
  intro bracket stored other there outside
  obtain ⟨different, outside⟩ := not_or.mp (mt List.mem_cons.mpr outside)
  rw [mem_takeSide good member own, if_neg different] at there
  rw [takeSide_info_of_ne different]
  exact sided bracket stored other there outside

end Rated

/-- A team that is invited for the side of its list belongs there. -/
theorem Sided.inviteGroupToBG {bracketId group instanceId : Nat} {team : TeamId}
    {except : List Nat} (good : queue.Sound)
    (member : group ∈ queue.queuedGroups bracketId (.premade team))
    (sided : queue.Sided (group :: except))
    : (queue.inviteGroupToBG group instanceId team).Sided except := by
  intro bracket stored other there outside
  by_cases same : other = group
  · subst same
    rw [BattlegroundQueue.inviteGroupToBG, change_info_self]
    exact (GroupType.premade.inj (good.list_eq member there).2).symm
  · rw [BattlegroundQueue.inviteGroupToBG, change_info_of_ne same]
    exact sided bracket stored other there (by simp [same, outside])

/-- A rated match of two teams, each with the side of its list, keeps the queue good. -/
theorem Good.startRatedMatch (good : queue.Good) {bracketId aTeam hTeam : Nat} {aSide hSide : TeamId}
    (arena : Nat) (aMember : aTeam ∈ queue.queuedGroups bracketId (.premade aSide))
    (hMember : hTeam ∈ queue.queuedGroups bracketId (.premade hSide)) (apart : hTeam ≠ aTeam)
    : (queue.startRatedMatch bracketId aTeam hTeam arena).Good := by
  have aOwn := good.sided bracketId aSide aTeam aMember List.not_mem_nil
  have hOwn := good.sided bracketId hSide hTeam hMember List.not_mem_nil
  -- after the first move
  have first : (queue.takeSide bracketId .alliance aTeam).Sound :=
    good.sound.takeSide aMember aOwn
  have aSided : (queue.takeSide bracketId .alliance aTeam).Sided [aTeam] :=
    Sided.takeSide good.sound aMember aOwn good.sided
  have hThere : hTeam ∈ (queue.takeSide bracketId .alliance aTeam).queuedGroups bracketId
      (.premade hSide) := by
    rw [mem_takeSide good.sound aMember aOwn, if_neg apart]
    exact hMember
  have hSame : ((queue.takeSide bracketId .alliance aTeam).info hTeam).teamId = hSide := by
    rw [takeSide_info_of_ne apart]
    exact hOwn
  -- after the second
  have second : ((queue.takeSide bracketId .alliance aTeam).takeSide bracketId .horde hTeam).Sound :=
    first.takeSide hThere hSame
  have bothSided : ((queue.takeSide bracketId .alliance aTeam).takeSide bracketId .horde
      hTeam).Sided [hTeam, aTeam] :=
    Sided.takeSide first hThere hSame aSided
  have aFinal : aTeam ∈ ((queue.takeSide bracketId .alliance aTeam).takeSide bracketId .horde
      hTeam).queuedGroups bracketId (.premade .alliance) := by
    rw [mem_takeSide first hThere hSame, if_neg (Ne.symm apart),
      mem_takeSide good.sound aMember aOwn, if_pos rfl]
    exact ⟨rfl, rfl⟩
  have hFinal : hTeam ∈ ((queue.takeSide bracketId .alliance aTeam).takeSide bracketId .horde
      hTeam).queuedGroups bracketId (.premade .horde) := by
    rw [mem_takeSide first hThere hSame, if_pos rfl]
    exact ⟨rfl, rfl⟩
  constructor
  · exact (second.inviteGroupToBG aTeam arena .alliance).inviteGroupToBG hTeam arena .horde
  · apply Sided.inviteGroupToBG (second.inviteGroupToBG aTeam arena .alliance) hFinal
    intro bracket stored other there outside
    refine Sided.inviteGroupToBG second aFinal ?_ bracket stored other there outside
    intro bracket stored other there outside
    exact bothSided bracket stored other there (by simpa [and_comm] using outside)

theorem mem_foundTeams {bracketId group : Nat} {search : RatedSearch} {team : TeamId}
    (found : (team, group) ∈ queue.foundTeams bracketId search)
    : group ∈ queue.queuedGroups bracketId (.premade team) := by
  obtain ⟨_, -, first⟩ := List.mem_filterMap.mp found
  obtain ⟨_, suitable, same⟩ := Option.map_eq_some_iff.mp first
  obtain ⟨rfl, rfl⟩ := Prod.mk.inj same
  exact List.mem_of_find?_eq_some suitable

/-- At most one team is found for each side. -/
theorem foundTeams_nodup (queue : BattlegroundQueue) (bracketId : Nat) (search : RatedSearch)
    : ((queue.foundTeams bracketId search).map Prod.fst).Nodup := by
  unfold foundTeams
  cases alliance : (queue.queuedGroups bracketId (.premade .alliance)).find?
      (queue.isSuitable search)
    <;> cases horde : (queue.queuedGroups bracketId (.premade .horde)).find?
      (queue.isSuitable search)
    <;> simp [alliance, horde]

/-- The two teams of a rated match are different and wait in the lists of rated teams. -/
theorem ratedTeams_spec (good : queue.Sound) {bracketId aTeam hTeam : Nat} {search : RatedSearch}
    (found : queue.ratedTeams bracketId search = some (aTeam, hTeam))
    : (∃ side, aTeam ∈ queue.queuedGroups bracketId (.premade side))
      ∧ (∃ side, hTeam ∈ queue.queuedGroups bracketId (.premade side))
      ∧ hTeam ≠ aTeam := by
  have distinct := foundTeams_nodup queue bracketId search
  unfold ratedTeams at found
  split at found
  · cases found
  · rename_i team first alone
    have firstMember := mem_foundTeams (alone ▸ List.mem_singleton_self _)
    obtain ⟨second, opponent, same⟩ := Option.map_eq_some_iff.mp found
    obtain ⟨rfl, rfl⟩ := Prod.mk.inj same
    refine ⟨⟨team, firstMember⟩,
      ⟨team, List.mem_of_mem_drop (List.mem_of_find?_eq_some opponent)⟩, ?_⟩
    rintro rfl
    have suits := List.find?_some opponent
    simp [isOpponent] at suits
  · rename_i aSide first hSide second rest both
    obtain ⟨rfl, rfl⟩ := Prod.mk.inj (Option.some.inj found)
    have aMember := mem_foundTeams (both ▸ List.mem_cons_self)
    have hMember := mem_foundTeams (both ▸ List.mem_cons_of_mem _ List.mem_cons_self)
    refine ⟨⟨aSide, aMember⟩, ⟨hSide, hMember⟩, ?_⟩
    rintro rfl
    have sameSide := GroupType.premade.inj (good.list_eq aMember hMember).2
    simp [both, sameSide] at distinct

-- Updates and runs

theorem Good.premade (good : queue.Good) {update : QueueUpdate} {template : Template}
    {matched : BattlegroundQueue} (done : update.premade template queue = some matched)
    : matched.Good := by
  unfold QueueUpdate.premade at done
  split at done
  · have checked := good.checkPremadeMatch update.bracketId (update.minPlayersPerTeam template)
      (update.maxPlayersPerTeam template) (update.gameTime - update.premadeGroupWaitForMatch)
    split at done <;> rename_i result <;> rw [result] at checked
    · obtain rfl := Option.some.inj done
      exact checked
    · obtain ⟨bg, -, rfl⟩ := Option.map_eq_some_iff.mp done
      exact checked.inviteAllGroupsToBg _ bg
  · obtain rfl := Option.some.inj done
    exact good

theorem Good.normalMatch (good : queue.Good) (update : QueueUpdate) (template : Template)
    : (update.normalMatch template queue).1.Good := by
  unfold QueueUpdate.normalMatch
  dsimp only
  split
  · exact good.assignSides _ _
  · split
    · exact good
    · split
      · split
        · rename_i found
          exact good.checkSkirmishForSameFaction found
        · exact good
      · exact good

theorem Good.normal (good : queue.Good) (update : QueueUpdate) (template : Template)
    : (update.normal template queue).Good := by
  have checked := good.normalMatch update template
  unfold QueueUpdate.normal
  split <;> rename_i result <;> rw [result] at checked
  · exact checked
  · split
    · exact checked
    · exact checked.inviteAllGroupsToBg _ _

theorem Good.rated (good : queue.Good) (update : QueueUpdate) : (update.rated queue).Good := by
  unfold QueueUpdate.rated
  split
  · exact good
  · split
    · rename_i found _
      obtain ⟨⟨_, aMember⟩, ⟨_, hMember⟩, apart⟩ := ratedTeams_spec good.sound found
      exact good.startRatedMatch _ aMember hMember apart
    · exact good

/-- An update keeps the queue good. -/
theorem Good.update (good : queue.Good) (update : QueueUpdate) : (queue.update update).Good := by
  have filled := good.fills update.bracketId update.fillings
  unfold BattlegroundQueue.update
  split
  · exact good
  · dsimp only
    split
    · exact filled
    · split
      · exact filled
      · rename_i matched
        have next := filled.premade matched
        split
        · exact next.normal update _
        · split
          · exact next.rated update
          · exact next

theorem Good.step (good : queue.Good) (call : QueueCall) : (queue.step call).Good := by
  cases call with
  | addGroup settings joining =>
      change ((queue.addGroup settings joining).getD queue).Good
      cases done : queue.addGroup settings joining with
      | none => exact good
      | some added => exact good.addGroup done
  | removePlayer guid => exact good.removePlayer guid
  | update update => exact good.update update

theorem good_empty : ({} : BattlegroundQueue).Good where
  sound := {
    once := fun _ _ => List.nodup_nil
    filed := nofun
    held := nofun
    mapped := nofun
  }
  sided := nofun

/-- Every player of the queue is mapped to a group that is once in the lists, in that of its own
bracket and type, and that has him once; every group in a list has players, all mapped to it.
-/
def Represented (queue : BattlegroundQueue) : Prop :=
  (∀ guid group, queue.queuedPlayers.get? guid = some group →
    (queue.info group).deleted = false
      ∧ (∀ bracketId type,
          (queue.queuedGroups bracketId type).count group
            = if bracketId = (queue.info group).bracketId ∧ type = (queue.info group).groupType
              then 1 else 0)
      ∧ (queue.info group).players.count guid = 1)
  ∧ ∀ bracketId type, ∀ group ∈ queue.queuedGroups bracketId type,
      (queue.info group).players ≠ []
        ∧ ∀ guid ∈ (queue.info group).players, queue.queuedPlayers.get? guid = some group

theorem Sound.represented (good : queue.Sound) : queue.Represented := by
  refine ⟨?_, fun bracketId type group member => ⟨(good.held member).manned, (good.held member).owned⟩⟩
  intro guid group found
  obtain ⟨listed, inside⟩ := good.mapped found
  refine ⟨(good.held listed).live, ?_, List.count_eq_one_of_mem (good.held listed).distinct inside⟩
  intro bracketId type
  split
  · rename_i own
    rw [own.1, own.2]
    exact List.count_eq_one_of_mem (good.once _ _) listed
  · rename_i apart
    exact List.count_eq_zero_of_not_mem (fun there => apart (good.list_eq listed there))

end BattlegroundQueue

/-- In every run of a queue, its players and its lists of groups tell the same in every state.
Witness: every call keeps the lists sound, and the premade groups on the side of their list.
-/
theorem queue_represents_groups (calls : List QueueCall)
    : Runs.EachState BattlegroundQueue.step BattlegroundQueue.Represented {} calls := by
  have good := @Runs.eachState_of_invariant _ _ BattlegroundQueue.step BattlegroundQueue.Good
    (fun _ _ => True) (fun _ call good _ => good.step call) _ calls BattlegroundQueue.good_empty
    (Runs.eachStep_of_forall (fun _ _ => trivial) _ _)
  exact good.imp (fun _ good => good.sound.represented)

/-- In every run the groups in the premade list of a team play for that team. -/
theorem premade_groups_are_sided (calls : List QueueCall)
    : Runs.EachState BattlegroundQueue.step
        (fun queue => ∀ bracketId team, ∀ group ∈ queue.queuedGroups bracketId (.premade team),
          (queue.info group).teamId = team)
        {} calls := by
  have good := @Runs.eachState_of_step _ _ BattlegroundQueue.step BattlegroundQueue.Good
    (fun _ call good => good.step call) _ BattlegroundQueue.good_empty calls
  exact good.imp (fun _ good bracketId team group member =>
    good.sided bracketId team group member List.not_mem_nil)

end WarheadCore.Battlegrounds
