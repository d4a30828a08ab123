import WarheadCore.Battlegrounds.Queue

/-! The players of a battleground queue and its lists of groups tell the same: every player's group
is once in the lists, where its own fields say, and every listed group has players and is theirs.
-/

namespace WarheadCore.Battlegrounds

open Foundation

namespace BattlegroundQueue

structure Held (queue : BattlegroundQueue) (group : Nat) : Prop where
  live : (queue.info group).deleted = false
  allocated : group < queue.allocated
  manned : (queue.info group).players ≠ []
  distinct : (queue.info group).players.Nodup
  owned : ∀ guid ∈ (queue.info group).players, queue.queuedPlayers.get? guid = some group

structure Sound (queue : BattlegroundQueue) : Prop where
  once : ∀ bracketId type, (queue.queuedGroups bracketId type).Nodup
  filed
    : ∀ {bracketId type group}, group ∈ queue.queuedGroups bracketId type
        → (queue.info group).bracketId = bracketId ∧ (queue.info group).groupType = type
  held : ∀ {bracketId type group}, group ∈ queue.queuedGroups bracketId type → queue.Held group
  mapped
    : ∀ {guid group}, queue.queuedPlayers.get? guid = some group
        → group ∈ queue.queuedGroups (queue.info group).bracketId (queue.info group).groupType
          ∧ guid ∈ (queue.info group).players

/-- The premade groups in the list of a team play for it, but for the groups in `except`. -/
def Sided (queue : BattlegroundQueue) (except : List Nat) : Prop :=
  ∀ bracketId team, ∀ group ∈ queue.queuedGroups bracketId (.premade team),
    group ∉ except → (queue.info group).teamId = team

structure Good (queue : BattlegroundQueue) : Prop where
  sound : queue.Sound
  sided : queue.Sided []

variable {queue : BattlegroundQueue}

-- Changes of one group and of one list

@[simp] theorem change_info_self (group : Nat) (change : GroupQueueInfo → GroupQueueInfo)
    : (queue.change group change).info group = change (queue.info group) := by
  simp [BattlegroundQueue.change]

theorem change_info_of_ne {group other : Nat} (different : other ≠ group)
    (change : GroupQueueInfo → GroupQueueInfo)
    : (queue.change group change).info other = queue.info other := by
  simp [BattlegroundQueue.change, different]

@[simp] theorem change_queuedGroups (group : Nat) (change : GroupQueueInfo → GroupQueueInfo)
    : (queue.change group change).queuedGroups = queue.queuedGroups := rfl

@[simp] theorem change_queuedPlayers (group : Nat) (change : GroupQueueInfo → GroupQueueInfo)
    : (queue.change group change).queuedPlayers = queue.queuedPlayers := rfl

/-- A field that a change keeps is the same for all groups. -/
theorem change_view {β : Type*} (view : GroupQueueInfo → β)
    {change : GroupQueueInfo → GroupQueueInfo} (keeps : ∀ ginfo, view (change ginfo) = view ginfo)
    (group other : Nat)
    : view ((queue.change group change).info other) = view (queue.info other) := by
  by_cases same : other = group
  · rw [same, change_info_self, keeps]
  · rw [change_info_of_ne same]

@[simp] theorem relist_info (bracketId : Nat) (type : GroupType) (change : List Nat → List Nat)
    : (queue.relist bracketId type change).info = queue.info := rfl

theorem relist_queuedGroups (bracketId bracket : Nat) (type stored : GroupType)
    (change : List Nat → List Nat)
    : (queue.relist bracketId type change).queuedGroups bracket stored
      = if bracket = bracketId ∧ stored = type then change (queue.queuedGroups bracket stored)
        else queue.queuedGroups bracket stored := rfl

/-- A listed group is in one list only. -/
theorem Sound.list_eq (good : queue.Sound) {bracketId bracket group : Nat}
    {type stored : GroupType} (here : group ∈ queue.queuedGroups bracketId type)
    (there : group ∈ queue.queuedGroups bracket stored)
    : bracket = bracketId ∧ stored = type :=
  ⟨(good.filed there).1.symm.trans (good.filed here).1,
    (good.filed there).2.symm.trans (good.filed here).2⟩

/-- A queue with the same players and lists, whose groups differ in other fields, is sound too. -/
theorem Sound.change (good : queue.Sound) {group : Nat} {change : GroupQueueInfo → GroupQueueInfo}
    (players : ∀ ginfo, (change ginfo).players = ginfo.players)
    (bracketId : ∀ ginfo, (change ginfo).bracketId = ginfo.bracketId)
    (groupType : ∀ ginfo, (change ginfo).groupType = ginfo.groupType)
    (deleted : ∀ ginfo, (change ginfo).deleted = ginfo.deleted)
    : (queue.change group change).Sound where
  once := good.once
  filed member := by
    rw [change_view _ bracketId, change_view _ groupType]
    exact good.filed member
  held {_ _ other} member := by
    have held := good.held member
    constructor
    · rw [change_view _ deleted]
      exact held.live
    · exact held.allocated
    · rw [change_view _ players]
      exact held.manned
    · rw [change_view _ players]
      exact held.distinct
    · rw [change_view _ players]
      exact held.owned
  mapped found := by
    rw [change_view _ bracketId, change_view _ groupType, change_view _ players]
    exact good.mapped found

-- Moves between lists

section Moves

variable {bracketId group : Nat} {origin target : GroupType} {removal : List Nat → List Nat}

theorem moveGroup_info_self
    : (queue.moveGroup bracketId group origin target removal).info group
      = { queue.info group with groupType := target } := by
  simp [moveGroup]

theorem moveGroup_info_of_ne {other : Nat} (different : other ≠ group)
    : (queue.moveGroup bracketId group origin target removal).info other = queue.info other := by
  simp only [moveGroup, relist_info]
  exact change_info_of_ne different _

/-- A move leaves every field of the groups but the type of the one that moves. -/
theorem moveGroup_view {β : Type*} (view : GroupQueueInfo → β)
    (keeps : ∀ ginfo, view { ginfo with groupType := target } = view ginfo) (other : Nat)
    : view ((queue.moveGroup bracketId group origin target removal).info other)
      = view (queue.info other) := by
  simp only [moveGroup, relist_info]
  exact change_view view keeps group other

theorem moveGroup_queuedGroups (different : origin ≠ target) (bracket : Nat) (stored : GroupType)
    : (queue.moveGroup bracketId group origin target removal).queuedGroups bracket stored
      = if bracket = bracketId ∧ stored = origin then removal (queue.queuedGroups bracket stored)
        else if bracket = bracketId ∧ stored = target then
          group :: queue.queuedGroups bracket stored
        else queue.queuedGroups bracket stored := by
  simp only [moveGroup, relist_queuedGroups, change_queuedGroups]
  by_cases here : bracket = bracketId ∧ stored = origin
  · obtain ⟨rfl, rfl⟩ := here
    simp [different]
  · simp [here]

variable (good : queue.Sound) (member : group ∈ queue.queuedGroups bracketId origin)
  (different : origin ≠ target)
  (removed : removal (queue.queuedGroups bracketId origin)
    = (queue.queuedGroups bracketId origin).erase group)

include good member different removed

/-- The group that moves is in the list of its new type, the others are where they were. -/
theorem mem_moveGroup {bracket other : Nat} {stored : GroupType}
    : other ∈ (queue.moveGroup bracketId group origin target removal).queuedGroups bracket stored
      ↔ if other = group then bracket = bracketId ∧ stored = target
        else other ∈ queue.queuedGroups bracket stored := by
  rw [moveGroup_queuedGroups different]
  by_cases inOrigin : bracket = bracketId ∧ stored = origin
  · obtain ⟨rfl, rfl⟩ := inOrigin
    rw [if_pos ⟨rfl, rfl⟩, removed, (good.once _ _).mem_erase_iff]
    by_cases same : other = group
    · simp [same, different]
    · simp [same]
  · rw [if_neg inOrigin]
    by_cases inTarget : bracket = bracketId ∧ stored = target
    · rw [if_pos inTarget, List.mem_cons]
      by_cases same : other = group
      · simp [same, inTarget]
      · simp [same]
    · rw [if_neg inTarget]
      by_cases same : other = group
      · subst same
        rw [if_pos rfl]
        exact iff_of_false (fun there => inOrigin (good.list_eq member there)) inTarget
      · rw [if_neg same]

/-- A move of a listed group keeps the queue sound. -/
theorem Sound.moveGroup
    : (queue.moveGroup bracketId group origin target removal).Sound where
  once bracket stored := by
    rw [moveGroup_queuedGroups different]
    split
    · rename_i here
      rw [here.1, here.2, removed]
      exact (good.once _ _).erase _
    · split
      · rename_i here
        refine List.nodup_cons.mpr ⟨fun there => ?_, good.once _ _⟩
        have same := (good.list_eq member there).2
        exact different (same.symm.trans here.2)
      · exact good.once _ _
  filed {bracket stored other} there := by
    rw [mem_moveGroup good member different removed] at there
    split at there
    · rename_i same
      rw [same, moveGroup_info_self]
      exact ⟨(good.filed member).1.trans there.1.symm, there.2.symm⟩
    · rename_i apart
      rw [moveGroup_info_of_ne apart]
      exact good.filed there
  held {bracket stored other} there := by
    have held : queue.Held other := by
      rw [mem_moveGroup good member different removed] at there
      split at there
      · rename_i same
        exact same ▸ good.held member
      · exact good.held there
    constructor
    · rw [moveGroup_view (·.deleted) (fun _ => rfl)]
      exact held.live
    · exact held.allocated
    · rw [moveGroup_view (·.players) (fun _ => rfl)]
      exact held.manned
    · rw [moveGroup_view (·.players) (fun _ => rfl)]
      exact held.distinct
    · rw [moveGroup_view (·.players) (fun _ => rfl)]
      exact held.owned
  mapped {guid other} found := by
    obtain ⟨listed, inside⟩ := good.mapped found
    rw [mem_moveGroup good member different removed,
      moveGroup_view (·.bracketId) (fun _ => rfl), moveGroup_view (·.players) (fun _ => rfl)]
    refine ⟨?_, inside⟩
    split
    · rename_i same
      rw [same, moveGroup_info_self]
      exact ⟨(good.filed member).1, rfl⟩
    · rename_i apart
      rw [moveGroup_info_of_ne apart]
      exact listed

end Moves

-- AddGroup

structure Enlisted (queue queued : BattlegroundQueue) (group : Nat) (players : List Nat) : Prop where
  lists : queued.queuedGroups = queue.queuedGroups
  allocated : queued.allocated = queue.allocated
  info
    : queued.info
      = (queue.change group (fun ginfo => { ginfo with players := ginfo.players ++ players })).info
  mapped
    : ∀ guid,
        queued.queuedPlayers.get? guid
          = if guid ∈ players then some group else queue.queuedPlayers.get? guid
  distinct : players.Nodup
  fresh : ∀ guid ∈ players, queue.queuedPlayers.get? guid = none

theorem enlisted_nil (queue : BattlegroundQueue) (group : Nat) : Enlisted queue queue group [] where
  lists := rfl
  allocated := rfl
  info := by simp [BattlegroundQueue.change]
  mapped := by simp
  distinct := List.nodup_nil
  fresh := by simp

/-- The players of a group are queued one by one.
Witness: induction on the players; each is new, so he is none of those before him.
-/
theorem enlisted_of_foldlM {players : List Nat} {group : Nat} {queued : BattlegroundQueue}
    (done : players.foldlM (queuePlayer group) queue = some queued)
    : Enlisted queue queued group players := by
  induction players generalizing queue with
  | nil =>
      obtain rfl : queue = queued := Option.some.inj done
      exact enlisted_nil queue group
  | cons guid rest ih =>
      rw [List.foldlM_cons, queuePlayer] at done
      split at done
      · cases done
      · rename_i unqueued
        have absent : queue.queuedPlayers.get? guid = none := by simpa using unqueued
        have later := ih done
        have apart : guid ∉ rest := by
          intro again
          simpa [Table.get?_put] using later.fresh guid again
        constructor
        · exact later.lists
        · exact later.allocated
        · rw [later.info]
          simp [BattlegroundQueue.change]
        · intro other
          rw [later.mapped other, change_queuedPlayers, Table.get?_put]
          by_cases same : other = guid
          · simp [same]
          · simp [same]
        · exact List.nodup_cons.mpr ⟨apart, later.distinct⟩
        · intro other member
          rcases List.mem_cons.mp member with rfl | inRest
          · exact absent
          · have fresh := later.fresh other inRest
            rw [change_queuedPlayers, Table.get?_put] at fresh
            split at fresh
            · cases fresh
            · exact fresh

theorem joining_players_ne_nil (joining : Joining) : joining.players ≠ [] := by
  unfold Joining.players
  split
  · rename_i group _
    exact List.ne_nil_of_mem group.property
  · simp

/-- The script may change the type of a new group, and nothing else. -/
theorem onAddGroupToBGQueue_cases (settings : CFBG) (joining : Joining)
    : settings.onAddGroupToBGQueue joining joining.groupQueueInfo = joining.groupQueueInfo
      ∨ settings.onAddGroupToBGQueue joining joining.groupQueueInfo
          = { joining.groupQueueInfo with groupType := .cfbg } := by
  unfold CFBG.onAddGroupToBGQueue
  split
  · exact .inl rfl
  · split
    · exact .inl rfl
    · exact .inr rfl

/-- A group that the queue has not allocated yet is nowhere in it. -/
theorem Sound.not_listed (good : queue.Sound) {bracketId : Nat} {type : GroupType}
    : queue.allocated ∉ queue.queuedGroups bracketId type :=
  fun member => Nat.lt_irrefl _ (good.held member).allocated

section NewGroup

variable {ginfo : GroupQueueInfo} {players : List Nat} {added : BattlegroundQueue}

/-- What AddGroup makes of a queue: a new group in one list, and its players. -/
structure Added (queue added : BattlegroundQueue) (ginfo : GroupQueueInfo) (players : List Nat)
    : Prop where
  self : added.info queue.allocated = { ginfo with players := players }
  others : ∀ other, other ≠ queue.allocated → added.info other = queue.info other
  lists
    : added.queuedGroups
      = (queue.relist ginfo.bracketId ginfo.groupType (· ++ [queue.allocated])).queuedGroups
  allocated : added.allocated = queue.allocated + 1
  mapped
    : ∀ guid,
        added.queuedPlayers.get? guid
          = if guid ∈ players then some queue.allocated else queue.queuedPlayers.get? guid
  distinct : players.Nodup
  fresh : ∀ guid ∈ players, queue.queuedPlayers.get? guid = none

theorem added_of_addGroup {settings : CFBG} {joining : Joining}
    (done : queue.addGroup settings joining = some added)
    : Added queue added (settings.onAddGroupToBGQueue joining joining.groupQueueInfo)
        joining.players := by
  obtain ⟨queued, enlisting, last⟩ := Option.bind_eq_some_iff.mp done
  obtain rfl := Option.some.inj last
  have enlisted := enlisted_of_foldlM enlisting
  have unmanned : (settings.onAddGroupToBGQueue joining joining.groupQueueInfo).players = [] := by
    rcases onAddGroupToBGQueue_cases settings joining with same | same <;> rw [same] <;> rfl
  have bracket : (settings.onAddGroupToBGQueue joining joining.groupQueueInfo).bracketId
      = joining.bracketId := by
    rcases onAddGroupToBGQueue_cases settings joining with same | same <;> rw [same] <;> rfl
  constructor
  · rw [relist_info, enlisted.info, change_info_self]
    simp [unmanned]
  · intro other different
    rw [relist_info, enlisted.info, change_info_of_ne different]
    simp [different]
  · rw [bracket]
    funext bracketId type
    rw [relist_queuedGroups, relist_queuedGroups, enlisted.lists]
  · exact enlisted.allocated
  · exact enlisted.mapped
  · exact enlisted.distinct
  · exact enlisted.fresh

theorem Added.mem_lists (new : Added queue added ginfo players) {bracketId group : Nat}
    {type : GroupType}
    : group ∈ added.queuedGroups bracketId type
      ↔ group ∈ queue.queuedGroups bracketId type
        ∨ group = queue.allocated ∧ bracketId = ginfo.bracketId ∧ type = ginfo.groupType := by
  rw [new.lists, relist_queuedGroups]
  split
  · rename_i here
    simp [here]
  · rename_i apart
    simp [apart]

/-- A new group with players keeps the queue sound. -/
theorem Added.sound (new : Added queue added ginfo players) (good : queue.Sound)
    (manned : players ≠ []) (live : ginfo.deleted = false)
    : added.Sound where
  once bracketId type := by
    rw [new.lists, relist_queuedGroups]
    split
    · refine List.nodup_append.mpr ⟨good.once _ _, by simp, ?_⟩
      rintro other there _ here rfl
      exact good.not_listed (List.mem_singleton.mp here ▸ there)
    · exact good.once _ _
  filed {bracketId type group} member := by
    rcases new.mem_lists.mp member with old | ⟨rfl, rfl, rfl⟩
    · rw [new.others group (fun same => good.not_listed (same ▸ old))]
      exact good.filed old
    · rw [new.self]
      exact ⟨rfl, rfl⟩
  held {bracketId type group} member := by
    rcases new.mem_lists.mp member with old | ⟨rfl, rfl, rfl⟩
    · have held := good.held old
      have same := new.others group (fun same => good.not_listed (same ▸ old))
      constructor
      · rw [same]
        exact held.live
      · rw [new.allocated]
        exact Nat.lt_succ_of_lt held.allocated
      · rw [same]
        exact held.manned
      · rw [same]
        exact held.distinct
      · intro guid inside
        rw [same] at inside
        have owned := held.owned guid inside
        rw [new.mapped, if_neg (fun joined => by simp [new.fresh guid joined] at owned), owned]
    · constructor
      · rw [new.self]
        exact live
      · rw [new.allocated]
        exact Nat.lt_succ_self _
      · rw [new.self]
        exact manned
      · rw [new.self]
        exact new.distinct
      · intro guid inside
        rw [new.self] at inside
        rw [new.mapped, if_pos inside]
  mapped {guid group} found := by
    rw [new.mapped] at found
    rw [new.mem_lists]
    split at found
    · rename_i joined
      obtain rfl := Option.some.inj found
      rw [new.self]
      exact ⟨.inr ⟨rfl, rfl, rfl⟩, joined⟩
    · obtain ⟨listed, inside⟩ := good.mapped found
      rw [new.others group (fun same => good.not_listed (same ▸ listed))]
      exact ⟨.inl listed, inside⟩

end NewGroup

theorem Good.addGroup (good : queue.Good) {settings : CFBG} {joining : Joining}
    {added : BattlegroundQueue} (done : queue.addGroup settings joining = some added)
    : added.Good := by
  have new := added_of_addGroup done
  have cases := onAddGroupToBGQueue_cases settings joining
  constructor
  · apply new.sound good.sound (joining_players_ne_nil joining)
    rcases cases with same | same <;> rw [same] <;> rfl
  · intro bracketId team group member outside
    rcases new.mem_lists.mp member with old | ⟨rfl, -, type⟩
    · rw [new.others group (fun same => good.sound.not_listed (same ▸ old))]
      exact good.sided bracketId team group old outside
    · rw [new.self]
      rcases cases with same | same
      · rw [same] at type ⊢
        change GroupType.premade team
          = if !joining.isRated && !joining.isPremade then .normal joining.leaderTeam
            else .premade joining.leaderTeam at type
        split at type
        · cases type
        · exact (GroupType.premade.inj type).symm
      · rw [same] at type
        cases type

-- RemovePlayer

section TakePlayer

variable {guid group : Nat}

theorem takePlayer_get? (other : Nat)
    : (queue.takePlayer group guid).queuedPlayers.get? other
      = if other = guid then none else queue.queuedPlayers.get? other := by
  rw [takePlayer, Table.get?_remove]

theorem takePlayer_players_self
    : ((queue.takePlayer group guid).info group).players
      = (queue.info group).players.filter (fun player => player ≠ guid) := by
  simp [takePlayer]

theorem takePlayer_info_of_ne {other : Nat} (different : other ≠ group)
    : (queue.takePlayer group guid).info other = queue.info other := by
  simp only [takePlayer]
  exact change_info_of_ne different _

/-- A player who leaves changes only the players of his group. -/
theorem takePlayer_view {β : Type*} (view : GroupQueueInfo → β)
    (keeps : ∀ ginfo players, view { ginfo with players := players } = view ginfo) (other : Nat)
    : view ((queue.takePlayer group guid).info other) = view (queue.info other) := by
  simp only [takePlayer]
  exact change_view view (fun ginfo => keeps ginfo _) group other

variable (good : queue.Sound) (found : queue.queuedPlayers.get? guid = some group)

include good found

/-- The other groups hold what they held when a player leaves. -/
theorem Sound.held_takePlayer {bracketId other : Nat} {type : GroupType}
    (listed : other ∈ queue.queuedGroups bracketId type) (different : other ≠ group)
    : (queue.takePlayer group guid).Held other := by
  have held := good.held listed
  have same := @takePlayer_info_of_ne queue guid group other different
  constructor
  · rw [same]
    exact held.live
  · exact held.allocated
  · rw [same]
    exact held.manned
  · rw [same]
    exact held.distinct
  · intro player inside
    rw [same] at inside
    have owned := held.owned player inside
    rw [takePlayer_get?, if_neg ?_, owned]
    rintro rfl
    exact different (Option.some.inj (owned.symm.trans found))

/-- Who is still mapped after a player left was mapped before, and is still in his group. -/
theorem Sound.mapped_takePlayer {player other : Nat}
    (mapped : (queue.takePlayer group guid).queuedPlayers.get? player = some other)
    : other ∈ queue.queuedGroups (queue.info other).bracketId (queue.info other).groupType
      ∧ player ∈ ((queue.takePlayer group guid).info other).players := by
  rw [takePlayer_get?] at mapped
  split at mapped
  · cases mapped
  · rename_i apart
    obtain ⟨listed, inside⟩ := good.mapped mapped
    refine ⟨listed, ?_⟩
    by_cases same : other = group
    · subst same
      rw [takePlayer_players_self]
      exact List.mem_filter.mpr ⟨inside, by simpa using apart⟩
    · rw [takePlayer_info_of_ne same]
      exact inside

/-- A player who leaves keeps the queue sound while others of his group are left. -/
theorem Sound.takePlayer (manned : ((queue.takePlayer group guid).info group).players ≠ [])
    : (queue.takePlayer group guid).Sound where
  once := good.once
  filed member := by
    rw [takePlayer_view (·.bracketId) (fun _ _ => rfl), takePlayer_view (·.groupType) (fun _ _ => rfl)]
    exact good.filed member
  held {_ _ other} member := by
    by_cases same : other = group
    · subst same
      have held := good.held member
      constructor
      · rw [takePlayer_view (·.deleted) (fun _ _ => rfl)]
        exact held.live
      · exact held.allocated
      · exact manned
      · rw [takePlayer_players_self]
        exact held.distinct.filter _
      · intro player inside
        rw [takePlayer_players_self, List.mem_filter] at inside
        rw [takePlayer_get?, if_neg (by simpa using inside.2)]
        exact held.owned player inside.1
    · exact good.held_takePlayer found member same
  mapped {player other} mapped := by
    rw [takePlayer_view (·.bracketId) (fun _ _ => rfl), takePlayer_view (·.groupType) (fun _ _ => rfl)]
    exact good.mapped_takePlayer found mapped

/-- The list of a deleted group keeps the others. -/
theorem Sound.mem_deleteGroup {bracketId other : Nat} {type : GroupType}
    : other ∈ ((queue.takePlayer group guid).deleteGroup group).queuedGroups bracketId type
      ↔ other ∈ queue.queuedGroups bracketId type ∧ other ≠ group := by
  have listed := (good.mapped found).1
  rw [deleteGroup, change_queuedGroups, relist_queuedGroups,
    takePlayer_view (·.bracketId) (fun _ _ => rfl), takePlayer_view (·.groupType) (fun _ _ => rfl)]
  split
  · exact (good.once _ _).mem_erase_iff.trans and_comm
  · rename_i apart
    refine ⟨fun member => ⟨member, ?_⟩, fun member => member.1⟩
    rintro rfl
    exact apart (good.list_eq listed member)

/-- A group whose last player leaves is taken from the queue. -/
theorem Sound.deleteGroup (unmanned : ((queue.takePlayer group guid).info group).players = [])
    : ((queue.takePlayer group guid).deleteGroup group).Sound := by
  have info {other : Nat} (different : other ≠ group)
      : ((queue.takePlayer group guid).deleteGroup group).info other = queue.info other := by
    rw [BattlegroundQueue.deleteGroup, change_info_of_ne different, relist_info,
      takePlayer_info_of_ne different]
  constructor
  · intro bracketId type
    rw [BattlegroundQueue.deleteGroup, change_queuedGroups, relist_queuedGroups]
    split
    · exact (good.once _ _).erase _
    · exact good.once _ _
  · intro bracketId type other member
    obtain ⟨listed, different⟩ := (good.mem_deleteGroup found).mp member
    rw [info different]
    exact good.filed listed
  · intro bracketId type other member
    obtain ⟨listed, different⟩ := (good.mem_deleteGroup found).mp member
    have held := good.held_takePlayer found listed different
    have same := @takePlayer_info_of_ne queue guid group other different
    constructor
    · rw [info different, ← same]
      exact held.live
    · exact held.allocated
    · rw [info different, ← same]
      exact held.manned
    · rw [info different, ← same]
      exact held.distinct
    · rw [info different, ← same]
      exact held.owned
  · intro player other mapped
    obtain ⟨listed, inside⟩ := good.mapped_takePlayer found mapped
    have different : other ≠ group := by
      rintro rfl
      rw [unmanned] at inside
      cases inside
    rw [good.mem_deleteGroup found, info different]
    exact ⟨⟨listed, different⟩, by rwa [takePlayer_info_of_ne different] at inside⟩

end TakePlayer

/-- A player who leaves changes no side. -/
theorem Sided.takePlayer {except : List Nat} (sided : queue.Sided except) (guid group : Nat)
    : (queue.takePlayer group guid).Sided except := by
  intro bracketId team other member outside
  rw [takePlayer_view (·.teamId) (fun _ _ => rfl)]
  exact sided bracketId team other member outside

theorem Good.takePlayer (good : queue.Good) {guid group : Nat}
    (found : queue.queuedPlayers.get? guid = some group)
    (manned : ((queue.takePlayer group guid).info group).players ≠ [])
    : (queue.takePlayer group guid).Good where
  sound := good.sound.takePlayer found manned
  sided := good.sided.takePlayer guid group

theorem Good.deleteGroup (good : queue.Good) {guid group : Nat}
    (found : queue.queuedPlayers.get? guid = some group)
    (unmanned : ((queue.takePlayer group guid).info group).players = [])
    : ((queue.takePlayer group guid).deleteGroup group).Good where
  sound := good.sound.deleteGroup found unmanned
  sided bracketId team other member outside := by
    obtain ⟨listed, different⟩ := (good.sound.mem_deleteGroup found).mp member
    rw [BattlegroundQueue.deleteGroup, change_info_of_ne different, relist_info,
      takePlayer_info_of_ne different]
    exact good.sided bracketId team other listed outside

/-- RemovePlayer keeps the queue good.
Witness: induction along the calls, each for a player that is still queued.
-/
theorem Good.removePlayer (good : queue.Good) (guid : Nat) : (queue.removePlayer guid).Good := by
  fun_induction BattlegroundQueue.removePlayer queue guid with
  | case1 queue guid absent => exact good
  | case2 queue guid group found ginfo listed taken unmanned =>
      exact good.deleteGroup found unmanned
  | case3 queue guid group found ginfo listed taken first rest players leaves ih =>
      exact ih (good.takePlayer found (by simp [taken] at players; simp [players]))
  | case4 queue guid group found ginfo listed taken first rest players stays =>
      exact good.takePlayer found (by simp [taken] at players; simp [players])
  | case5 queue guid group found ginfo unlisted => exact good

end BattlegroundQueue

end WarheadCore.Battlegrounds
