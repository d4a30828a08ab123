import WarheadCore.Battlegrounds.Selection

/-! FillPlayersToBG: how the pools of both teams are filled for a battleground with free slots, and
balanced by kicking groups and adding others.
-/

namespace WarheadCore.Battlegrounds

open Foundation.Runs BattlegroundQueue

-- Kicking a group

/-- BattlegroundQueueInvitationType. -/
inductive InvitationType where
  | noBalance | balanced | even
deriving DecidableEq

/-- The search of KickGroup: the group to kick, and whether its size is a proper one. -/
def groupToKick (queue : BattlegroundQueue) (size : Nat) (chosen : Nat × Bool) (ginfo : Nat)
    : Nat × Bool :=
  if ((queue.size ginfo : Int) - size).natAbs ≤ 1 then (ginfo, true)
  else if !chosen.2 && queue.size ginfo ≥ queue.size chosen.1 then (ginfo, chosen.2)
  else chosen

def SelectionPool.kickGroup (pool : SelectionPool) (queue : BattlegroundQueue) (size : Nat)
    : SelectionPool × Bool :=
  match pool.selectedGroups with
  | [] => (pool, false)
  | front :: _ =>
      let (kicked, foundProper) := pool.selectedGroups.foldl (groupToKick queue size) (front, false)
      ({ selectedGroups := pool.selectedGroups.filter (· != kicked)
         playerCount := pool.playerCount - queue.size kicked },
        if foundProper then false else queue.size kicked > size)

-- Filling the pools

/-- A team while its pool is filled: the groups from the iterator on, and `added`, all groups that
were ever added to the pool.
-/
structure Side where
  pool : SelectionPool := {}
  rest : List Nat := []
  added : List Nat := []

def Side.fill (queue : BattlegroundQueue) (desiredCount : Nat) (pool : SelectionPool)
    (added : List Nat)
    : List Nat → Side
  | [] => { pool, rest := [], added }
  | group :: rest =>
      match pool.addGroup queue group desiredCount with
      | (filled, true) =>
          Side.fill queue desiredCount filled
            (added ++ filled.selectedGroups.drop pool.selectedGroups.length) rest
      | (_, false) => { pool, rest := group :: rest, added }

/-- The free slots of both teams, as the even teams of the invitation type reduce them. -/
def evenSlots (invitationType : InvitationType) (freeSlots queued : TeamId → Nat) (team : TeamId)
    : Int :=
  if invitationType = .even ∧ freeSlots .horde = 1 ∧ freeSlots .alliance = 1
      ∧ queued .alliance ≠ queued .horde then
    max ((freeSlots team : Int) - max ((queued team : Int) - queued team.other) 0) 0
  else freeSlots team

structure Balancing where
  free : TeamId → Int
  sides : TeamId → Side

namespace Balancing

variable (queue : BattlegroundQueue)

def diff (balancing : Balancing) (team : TeamId) : Int :=
  balancing.free team - (balancing.sides team).pool.playerCount

def unbalanced (balancing : Balancing) : Bool :=
  (balancing.diff .alliance - balancing.diff .horde).natAbs > 1
    && ((balancing.sides .horde).pool.playerCount > 0
      || (balancing.sides .alliance).pool.playerCount > 0)

def kickAndFill (balancing : Balancing) (team : TeamId) : Balancing :=
  let side := balancing.sides team
  let diff := balancing.diff
  match side.pool.kickGroup queue (diff team.other - diff team).toNat with
  | (kicked, true) =>
      let desiredCount : Int :=
        if balancing.free team ≥ diff team.other then balancing.free team - diff team.other else 0
      { balancing with
        sides := Function.update balancing.sides team
          (Side.fill queue desiredCount.toNat kicked side.added side.rest) }
  | (kicked, false) =>
      { balancing with
        sides := Function.update balancing.sides team { side with pool := kicked } }

/-- The body of the loop for the team that has less free space left; none where it breaks. -/
def rebalance (balancing : Balancing) (team : TeamId) : Balancing × Bool :=
  let diff := balancing.diff
  let next := balancing.kickAndFill queue team
  if (next.sides team).pool.playerCount = 0 then
    if balancing.free team ≤ diff team.other + 1 then (next, true)
    else
      let other := next.sides team.other
      let kicked := (other.pool.kickGroup queue (diff team.other - diff team).toNat).1
      ({ next with
         sides := Function.update next.sides team.other { other with pool := kicked } }, false)
  else (next, false)

/-- The loop that balances the pools; none when the fuel is used up before it ends. -/
def balance : Nat → Balancing → Option Balancing
  | 0, _ => none
  | fuel + 1, balancing =>
      if balancing.unbalanced then
        match balancing.rebalance queue
            (if balancing.diff .alliance < balancing.diff .horde then .alliance else .horde) with
        | (next, true) => some next
        | (next, false) => balance fuel next
      else some balancing

end Balancing

/-- FillPlayersToBG, when no script fills the pools: the sides that it leaves. -/
def BattlegroundQueue.fillPlayersToBG (queue : BattlegroundQueue) (bracketId : Nat)
    (freeSlots : TeamId → Nat) (invitationType : InvitationType)
    : Option (TeamId → Side) :=
  let groups (team : TeamId) := queue.queuedGroups bracketId (.normal team)
  let free := evenSlots invitationType freeSlots (fun team => (groups team).length)
  let sides (team : TeamId) := Side.fill queue (free team).toNat {} [] (groups team)
  if invitationType = .noBalance then some sides
  else
    (Balancing.balance queue (2 * ((groups .alliance).length + (groups .horde).length) + 1)
      { free, sides }).map Balancing.sides

-- What filling and kicking keep of a side

/-- A side whose pool holds groups of a list. Every group was added at most once, and those from the
iterator on not yet.
-/
structure Side.Good (queue : BattlegroundQueue) (groups : List Nat) (limit : Nat) (side : Side)
    : Prop where
  selected : queue.Selected groups limit side.pool
  distinct : side.rest.Nodup
  listed : ∀ group ∈ side.rest, group ∈ groups
  once : side.added.Nodup
  known : ∀ group ∈ side.pool.selectedGroups, group ∈ side.added
  fresh : ∀ group ∈ side.rest, group ∉ side.added

/-- What is left to do for a side: every step of the loop makes it smaller for one side. -/
def Side.work (side : Side) : Nat := 2 * side.rest.length + side.pool.selectedGroups.length

section

variable {queue : BattlegroundQueue} {groups : List Nat} {limit : Nat} {pool : SelectionPool}

/-- Adding groups from the iterator on keeps a side good, and there is not more left to do. -/
theorem Side.Good.fill {desiredCount : Nat} (bounded : desiredCount ≤ limit) {added rest : List Nat}
    (good : Side.Good queue groups limit { pool, rest, added })
    : (Side.fill queue desiredCount pool added rest).Good queue groups limit
      ∧ (Side.fill queue desiredCount pool added rest).work
        ≤ 2 * rest.length + pool.selectedGroups.length := by
  induction rest generalizing pool added with
  | nil => exact ⟨good, le_rfl⟩
  | cons group rest ih =>
      have distinct := List.nodup_cons.mp good.distinct
      have inGroups := good.listed group List.mem_cons_self
      have notAdded := good.fresh group List.mem_cons_self
      have notSelected (member : group ∈ pool.selectedGroups) : False :=
        notAdded (good.known group member)
      have selected := good.selected.addGroup inGroups notSelected bounded
      unfold Side.fill
      rcases BattlegroundQueue.pool_addGroup_cases queue pool group desiredCount
        with ⟨-, same⟩ | ⟨-, -, grown⟩
      · rw [same]
        cases decide (pool.playerCount < desiredCount) with
        | false => exact ⟨good, le_rfl⟩
        | true =>
            dsimp only
            rw [List.drop_length, List.append_nil]
            have later := @ih pool added { good with
              distinct := distinct.2
              listed := fun other member => good.listed other (List.mem_cons_of_mem _ member)
              fresh := fun other member => good.fresh other (List.mem_cons_of_mem _ member) }
            refine ⟨later.1, later.2.trans ?_⟩
            rw [List.length_cons]
            omega
      · rw [grown] at selected ⊢
        dsimp only at selected ⊢
        rw [List.drop_left]
        have later := @ih _ (added ++ [group])
          { selected
            distinct := distinct.2
            listed := fun other member => good.listed other (List.mem_cons_of_mem _ member)
            once := by
              refine List.nodup_append.mpr ⟨good.once, List.nodup_singleton group, ?_⟩
              rintro other before new isNew rfl
              rw [List.mem_singleton.mp isNew] at before
              exact notAdded before
            known := by
              intro other member
              rcases List.mem_append.mp member with old | new
              · exact List.mem_append_left _ (good.known other old)
              · exact List.mem_append_right _ new
            fresh := by
              intro other member isAdded
              rcases List.mem_append.mp isAdded with old | new
              · exact good.fresh other (List.mem_cons_of_mem _ member) old
              · rw [List.mem_singleton.mp new] at member
                exact distinct.1 member }
        refine ⟨later.1, later.2.trans ?_⟩
        simp only [List.length_append, List.length_cons, List.length_nil]
        omega

/-- The search of KickGroup ends with a group of the pool. -/
theorem groupToKick_mem {size : Nat} {candidates : List Nat} {chosen : Nat × Bool}
    {kept : Nat → Prop} (first : kept chosen.1) (each : ∀ group ∈ candidates, kept group)
    : kept (candidates.foldl (groupToKick queue size) chosen).1 := by
  induction candidates generalizing chosen with
  | nil => exact first
  | cons group rest ih =>
      refine ih ?_ (fun other member => each other (List.mem_cons_of_mem _ member))
      unfold groupToKick
      split
      · exact each group List.mem_cons_self
      · split
        · exact each group List.mem_cons_self
        · exact first

/-- A kick takes one group out of a pool that has any. -/
theorem kickGroup_cases (queue : BattlegroundQueue) (pool : SelectionPool) (size : Nat)
    : pool.selectedGroups = [] ∧ pool.kickGroup queue size = (pool, false)
      ∨ ∃ kicked ∈ pool.selectedGroups,
          (pool.kickGroup queue size).1
            = { selectedGroups := pool.selectedGroups.filter (· != kicked)
                playerCount := pool.playerCount - queue.size kicked } := by
  unfold SelectionPool.kickGroup
  cases selected : pool.selectedGroups with
  | nil => exact .inl ⟨rfl, rfl⟩
  | cons front rest =>
      have member : ((front :: rest).foldl (groupToKick queue size) (front, false)).1
          ∈ front :: rest :=
        groupToKick_mem List.mem_cons_self (fun _ member => member)
      exact .inr ⟨_, member, rfl⟩

/-- A kick keeps a side good, and there is not more left to do; there is less if the pool had a
group.
-/
theorem Side.Good.kick {side : Side} (good : side.Good queue groups limit) (size : Nat)
    : Side.Good queue groups limit { side with pool := (side.pool.kickGroup queue size).1 }
      ∧ (side.pool.kickGroup queue size).1.selectedGroups.length
        ≤ side.pool.selectedGroups.length
      ∧ (side.pool.selectedGroups ≠ []
        → (side.pool.kickGroup queue size).1.selectedGroups.length
          < side.pool.selectedGroups.length) := by
  rcases kickGroup_cases queue side.pool size with ⟨empty, same⟩ | ⟨kicked, member, outcome⟩
  · rw [same]
    exact ⟨good, le_rfl, fun some => (some empty).elim⟩
  · have erased : side.pool.selectedGroups.filter (· != kicked)
        = side.pool.selectedGroups.erase kicked :=
      (good.selected.distinct.erase_eq_filter kicked).symm
    have sum : queue.size kicked + ((side.pool.selectedGroups.erase kicked).map queue.size).sum
        = (side.pool.selectedGroups.map queue.size).sum :=
      List.sum_map_erase queue.size member
    have length := List.length_erase_of_mem member
    have positive := List.length_pos_of_mem member
    have counted := good.selected.counted
    have within := good.selected.within
    rw [outcome, erased]
    dsimp only
    refine ⟨{ good with selected := ?_, known := ?_ }, by omega, fun _ => by omega⟩
    · constructor
      case distinct => exact good.selected.distinct.erase kicked
      case listed => exact fun group kept => good.selected.listed group (List.mem_of_mem_erase kept)
      case uninvited =>
        exact fun group kept => good.selected.uninvited group (List.mem_of_mem_erase kept)
      case counted =>
        dsimp only
        omega
      case within =>
        dsimp only
        omega
    · exact fun group kept => good.known group (List.mem_of_mem_erase kept)

end

-- Balancing

namespace Balancing

variable {queue : BattlegroundQueue} {groups : TeamId → List Nat} {balancing : Balancing}

structure Good (queue : BattlegroundQueue) (groups : TeamId → List Nat) (balancing : Balancing)
    : Prop where
  free : ∀ team, 0 ≤ balancing.free team
  sides : ∀ team, (balancing.sides team).Good queue (groups team) (balancing.free team).toNat

def work (balancing : Balancing) : Nat :=
  (balancing.sides .alliance).work + (balancing.sides .horde).work

theorem work_update (team : TeamId) (side : Side)
    : work { balancing with sides := Function.update balancing.sides team side }
        + (balancing.sides team).work
      = balancing.work + side.work := by
  cases team with
  | alliance =>
      simp [work]
      omega
  | horde =>
      simp [work]
      omega

/-- A side with less to do leaves less to do. -/
theorem work_lt {team : TeamId} {side : Side} (less : side.work < (balancing.sides team).work)
    : work { balancing with sides := Function.update balancing.sides team side }
      < balancing.work := by
  have updated := @work_update balancing team side
  omega

theorem work_le {team : TeamId} {side : Side} (less : side.work ≤ (balancing.sides team).work)
    : work { balancing with sides := Function.update balancing.sides team side }
      ≤ balancing.work := by
  have updated := @work_update balancing team side
  omega

theorem Good.update (good : balancing.Good queue groups) {team : TeamId} {side : Side}
    (new : side.Good queue (groups team) (balancing.free team).toNat)
    : Good queue groups { balancing with sides := Function.update balancing.sides team side } where
  free := good.free
  sides other := by
    rcases eq_or_ne other team with rfl | ne
    · change (Function.update balancing.sides other side other).Good _ _ _
      rwa [Function.update_self]
    · change (Function.update balancing.sides team side other).Good _ _ _
      rw [Function.update_of_ne ne]
      exact good.sides other

/-- The free space of a team is not negative. -/
theorem Good.diff_nonneg (good : balancing.Good queue groups) (team : TeamId)
    : 0 ≤ balancing.diff team := by
  have within := (good.sides team).selected.within
  have free := good.free team
  unfold diff
  omega

/-- A kick of a team that has groups keeps both sides good, and leaves less to do. -/
theorem Good.kickAndFill (good : balancing.Good queue groups) (team : TeamId)
    : (balancing.kickAndFill queue team).Good queue groups
      ∧ (balancing.kickAndFill queue team).free = balancing.free
      ∧ ((balancing.sides team).pool.selectedGroups ≠ []
        → (balancing.kickAndFill queue team).work < balancing.work)
      ∧ ((balancing.sides team).pool.selectedGroups = []
        → balancing.kickAndFill queue team = balancing) := by
  have side := good.sides team
  have kicked := side.kick (balancing.diff team.other - balancing.diff team).toNat
  have room := good.diff_nonneg team.other
  unfold Balancing.kickAndFill
  dsimp only
  split
  · next smaller outcome =>
      rw [outcome] at kicked
      have bounded : (if balancing.free team ≥ balancing.diff team.other
          then balancing.free team - balancing.diff team.other else 0).toNat
            ≤ (balancing.free team).toNat := by
        split <;> omega
      have filled := kicked.1.fill bounded
      refine ⟨good.update filled.1, rfl, fun nonempty => work_lt ?_, fun empty => ?_⟩
      · have fewer := kicked.2.2 nonempty
        have before : (balancing.sides team).work = 2 * (balancing.sides team).rest.length
          + (balancing.sides team).pool.selectedGroups.length := rfl
        dsimp only at fewer
        exact filled.2.trans_lt (by dsimp only; omega)
      · unfold SelectionPool.kickGroup at outcome
        rw [empty] at outcome
        cases outcome
  · next smaller outcome =>
      rw [outcome] at kicked
      refine ⟨good.update kicked.1, rfl, fun nonempty => work_lt ?_, fun empty => ?_⟩
      · have fewer := kicked.2.2 nonempty
        dsimp only at fewer
        simp only [Side.work]
        omega
      · unfold SelectionPool.kickGroup at outcome
        rw [empty] at outcome
        obtain ⟨rfl, -⟩ := Prod.mk.inj outcome
        have same : { balancing.sides team with pool := (balancing.sides team).pool }
          = balancing.sides team := rfl
        rw [same, Function.update_eq_self]

/-- A step of the loop breaks it, or leaves less to do. -/
theorem Good.rebalance (good : balancing.Good queue groups) {team : TeamId}
    (less : balancing.diff team < balancing.diff team.other)
    : (balancing.rebalance queue team).1.Good queue groups
      ∧ (balancing.rebalance queue team).1.free = balancing.free
      ∧ ((balancing.rebalance queue team).2 = true
        ∨ (balancing.rebalance queue team).1.work < balancing.work) := by
  obtain ⟨next, free, fewer, stays⟩ := good.kickAndFill team
  unfold Balancing.rebalance
  dsimp only
  by_cases empty : (balancing.sides team).pool.selectedGroups = []
  · -- nobody is left to kick, and the other side has more free space: the loop breaks
    have none : (balancing.sides team).pool.playerCount = 0 := by
      rw [(good.sides team).selected.counted, empty]
      rfl
    have room : balancing.free team ≤ balancing.diff team.other + 1 := by
      have here : balancing.diff team = balancing.free team - 0 := by
        unfold diff
        rw [none]
        rfl
      omega
    rw [stays empty, if_pos none, if_pos room]
    exact ⟨good, rfl, .inl rfl⟩
  · have smaller := fewer empty
    split
    · split
      · exact ⟨next, free, .inl rfl⟩
      · have kicked := (next.sides team.other).kick
          (balancing.diff team.other - balancing.diff team).toNat
        refine ⟨next.update kicked.1, free, .inr ((work_le ?_).trans_lt smaller)⟩
        have fewer := kicked.2.1
        simp only [Side.work]
        omega
    · exact ⟨next, free, .inr smaller⟩

/-- With as much fuel as there is to do, the loop ends and leaves both sides good. -/
theorem Good.balance (good : balancing.Good queue groups) {fuel : Nat}
    (enough : balancing.work < fuel)
    : ∃ balanced, balancing.balance queue fuel = some balanced ∧ balanced.Good queue groups
        ∧ balanced.free = balancing.free := by
  induction fuel generalizing balancing with
  | zero => omega
  | succ fuel ih =>
      unfold Balancing.balance
      split
      · next unbalanced =>
          have less : balancing.diff (if balancing.diff .alliance < balancing.diff .horde
              then TeamId.alliance else .horde)
              < balancing.diff (if balancing.diff .alliance < balancing.diff .horde
                then TeamId.alliance else .horde).other := by
            unfold Balancing.unbalanced at unbalanced
            simp only [Bool.and_eq_true, decide_eq_true_eq] at unbalanced
            have apart := unbalanced.1
            split
            · next smaller => exact smaller
            · next larger =>
                change balancing.diff .horde < balancing.diff .alliance
                omega
          have stepped := good.rebalance less
          split
          · next next outcome =>
              rw [outcome] at stepped
              exact ⟨next, rfl, stepped.1, stepped.2.1⟩
          · next next outcome =>
              rw [outcome] at stepped
              have smaller := stepped.2.2.resolve_left Bool.false_ne_true
              dsimp only at smaller
              have kept : next.Good queue groups := stepped.1
              obtain ⟨balanced, ends, kept, same⟩ := ih kept (by omega)
              exact ⟨balanced, ends, kept, same.trans stepped.2.1⟩
      · exact ⟨balancing, rfl, good, rfl⟩

end Balancing

theorem evenSlots_bounds (invitationType : InvitationType) (freeSlots queued : TeamId → Nat)
    (team : TeamId)
    : 0 ≤ evenSlots invitationType freeSlots queued team
      ∧ (evenSlots invitationType freeSlots queued team).toNat ≤ freeSlots team := by
  unfold evenSlots
  split <;> omega

/-- A pool within fewer free slots is within the free slots. -/
theorem BattlegroundQueue.Selected.mono {queue : BattlegroundQueue} {groups : List Nat}
    {limit larger : Nat} {pool : SelectionPool} (selected : queue.Selected groups limit pool)
    (bounded : limit ≤ larger)
    : queue.Selected groups larger pool where
  distinct := selected.distinct
  listed := selected.listed
  uninvited := selected.uninvited
  counted := selected.counted
  within := selected.within.trans bounded

/-- The first loops fill a pool from the list of a team, and leave no more to do than the list has.
-/
theorem Sound.filled {queue : BattlegroundQueue} (sound : queue.Sound) (bracketId : Nat)
    (type : GroupType) (free : Nat)
    : (Side.fill queue free {} [] (queue.queuedGroups bracketId type)).Good queue
          (queue.queuedGroups bracketId type) free
      ∧ (Side.fill queue free {} [] (queue.queuedGroups bracketId type)).work
        ≤ 2 * (queue.queuedGroups bracketId type).length := by
  have remaining := sound.remaining bracketId type
  apply Side.Good.fill le_rfl
  constructor
  case selected => exact .empty
  case distinct => exact remaining.distinct
  case listed => exact remaining.listed
  case once => exact .nil
  case known => exact fun group member => by cases member
  case fresh => exact fun group _ member => by cases member

/-- Whatever happened to a queue before: filling the pools for a battleground ends, whatever its
free slots are. The pool of a team then holds distinct groups of the normal list without a pending
invitation; it counts their players, and not more than the team has free slots. No group was added
twice, so one that was kicked is not selected again.
-/
theorem filled_pools_are_sound (calls : List QueueCall) (bracketId : Nat) (freeSlots : TeamId → Nat)
    (invitationType : InvitationType)
    : let queue := run step {} calls
      ∃ sides, queue.fillPlayersToBG bracketId freeSlots invitationType = some sides
        ∧ ∀ team, queue.Selected (queue.queuedGroups bracketId (.normal team)) (freeSlots team)
            (sides team).pool
          ∧ (sides team).added.Nodup
          ∧ ∀ group ∈ (sides team).pool.selectedGroups, group ∈ (sides team).added := by
  intro queue
  have sound : queue.Sound := Sound.reached calls
  let groups (team : TeamId) := queue.queuedGroups bracketId (.normal team)
  let free := evenSlots invitationType freeSlots (fun team => (groups team).length)
  have bounds := evenSlots_bounds invitationType freeSlots (fun team => (groups team).length)
  have filled (team : TeamId) := Sound.filled sound bracketId (.normal team) (free team).toNat
  let sides (team : TeamId) := Side.fill queue (free team).toNat {} [] (groups team)
  have same : queue.fillPlayersToBG bracketId freeSlots invitationType
      = if invitationType = .noBalance then some sides
        else (Balancing.balance queue (2 * ((groups .alliance).length + (groups .horde).length) + 1)
          { free, sides }).map Balancing.sides := rfl
  rw [same]
  split
  · refine ⟨sides, rfl, fun team => ⟨?_, (filled team).1.once, (filled team).1.known⟩⟩
    exact (filled team).1.selected.mono (bounds team).2
  · have good : Balancing.Good queue groups { free, sides } :=
      { free := fun team => (bounds team).1, sides := fun team => (filled team).1 }
    have enough : Balancing.work { free, sides }
        < 2 * ((groups .alliance).length + (groups .horde).length) + 1 := by
      have alliance : (sides .alliance).work ≤ 2 * (groups .alliance).length := (filled _).2
      have horde : (sides .horde).work ≤ 2 * (groups .horde).length := (filled _).2
      unfold Balancing.work
      dsimp only
      omega
    obtain ⟨balanced, outcome, kept, unchanged⟩ := good.balance enough
    rw [outcome]
    refine ⟨balanced.sides, rfl, fun team => ⟨?_, (kept.sides team).once, (kept.sides team).known⟩⟩
    refine (kept.sides team).selected.mono ?_
    rw [unchanged]
    exact (bounds team).2

end WarheadCore.Battlegrounds
