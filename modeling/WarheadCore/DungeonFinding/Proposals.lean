import WarheadCore.DungeonFinding.QueueRemoval
import WarheadCore.DungeonFinding.States

/-! Proposals of the dungeon finder: the answers of their players, their timeouts, and what both do
to the queues and to the states of players and groups. Messages, the cooldown of those who do not
accept and the statistics of waiting times are left out.
-/

namespace WarheadCore.DungeonFinding

open Foundation

/-- The LfgUpdateType that a proposal is removed with. -/
inductive ProposalRemoval where
  | failed
  | declined
deriving DecidableEq

structure StoredPlayer where
  role : BitVec 8 := 0
  accept : LfgAnswer := .pending
  group : Nat := 0

structure StoredProposal where
  dungeonId : Nat := 0
  group : Nat := 0
  isNew : Bool := true
  cancelTime : Int := 0
  queues : Lfg5Guids
  players : Table Nat StoredPlayer

/-- LFGMgr, as far as proposals go; a player or group without data has that of its constructor. -/
structure ProposalMgr where
  testing : Bool := false
  isGroup : Nat → Bool
  maxKickCount : Nat := 0
  getTeam : Nat → Nat
  players : Nat → LfgPlayerData := fun _ => {}
  groups : Nat → LfgGroupData := fun _ => { kicksLeft := maxKickCount }
  queuesStore : Nat → LFGQueue := fun _ => {}
  proposalsStore : Table Nat StoredProposal := ∅

/-- The groups that MakeNewGroup leaves, and the group that it leaves each player in. -/
structure Formation where
  groups : Nat → LfgGroupData
  groupOf : Nat → Nat

def guidSet : List Nat → List Nat
  | [] => []
  | guid :: rest =>
      if guid ∈ guidSet rest then guidSet rest else (guidSet rest).orderedInsert (· ≤ ·) guid

namespace StoredPlayer

/-- The guid that the player is queued with: the group's, if there is one, else the own. -/
def entry (player : StoredPlayer) (guid : Nat) : Nat :=
  if player.group ≠ 0 then player.group else guid

def noAnswer (type : ProposalRemoval) (player : StoredPlayer) : StoredPlayer :=
  if type = .failed ∧ player.accept = .pending then { player with accept := .deny } else player

def refuses (type : ProposalRemoval) (player : StoredPlayer) : Bool :=
  player.accept ≠ .agree && (player.accept = .deny || type = .failed)

end StoredPlayer

namespace ProposalMgr

-- States and queues

def setState (mgr : ProposalMgr) (guid : Nat) (state : LfgState) : ProposalMgr :=
  if mgr.isGroup guid then
    { mgr with
      groups := Function.update mgr.groups guid
        ((mgr.groups guid).setState mgr.maxKickCount state) }
  else
    { mgr with players := Function.update mgr.players guid ((mgr.players guid).setState state) }

def restoreState (mgr : ProposalMgr) (guid : Nat) : ProposalMgr :=
  if mgr.isGroup guid then
    { mgr with groups := Function.update mgr.groups guid (mgr.groups guid).restoreState }
  else { mgr with players := Function.update mgr.players guid (mgr.players guid).restoreState }

def changeQueue (mgr : ProposalMgr) (guid : Nat) (change : LFGQueue → LFGQueue) : ProposalMgr :=
  { mgr with
    queuesStore := Function.update mgr.queuesStore (mgr.getTeam guid)
      (change (mgr.queuesStore (mgr.getTeam guid))) }

/-- MakeNewGroup; it changes groups and who is in them. -/
def makeNewGroup (mgr : ProposalMgr) (formation : Formation) : ProposalMgr :=
  { mgr with
    groups := formation.groups
    players := fun guid => { mgr.players guid with group := formation.groupOf guid } }

def eraseProposal (mgr : ProposalMgr) (proposalId : Nat) : ProposalMgr :=
  { mgr with proposalsStore := mgr.proposalsStore.remove proposalId }

-- RemoveProposal

def toRemove (type : ProposalRemoval) (players : Table Nat StoredPlayer) : List Nat :=
  guidSet ((players.entries.filter (fun slot => slot.2.refuses type)).map
    (fun slot => slot.2.entry slot.1))

/-- What a removed proposal does to the state of a player, and of the group that is queued. -/
def notify (gone : List Nat) (mgr : ProposalMgr) (guid : Nat) (player : StoredPlayer)
    : ProposalMgr :=
  if player.entry guid ∈ gone then
    let restored := mgr.restoreState guid
    if player.entry guid ≠ guid then restored.restoreState player.group else restored
  else
    let queued := mgr.setState guid .queued
    if player.entry guid ≠ guid then queued.setState (player.entry guid) .queued else queued

/-- The queue after some entries of a proposal are removed and the others are added again. -/
def requeue (gone : List Nat) (queues : Lfg5Guids) (queue : LFGQueue) : LFGQueue :=
  (gone.foldl Lfg5Guids.remove queues).entries.foldl
    (fun queue guid => queue.addToQueue guid true)
    (gone.foldl (fun queue guid => queue.removeFromQueue guid false) queue)

def removeProposal (mgr : ProposalMgr) (proposalId : Nat) (proposal : StoredProposal)
    (type : ProposalRemoval)
    : ProposalMgr :=
  let players := proposal.players.mapValues (StoredPlayer.noAnswer type)
  let gone := toRemove type players
  let notified := players.entries.foldl (fun mgr slot => notify gone mgr slot.1 slot.2) mgr
  let requeued :=
    match players.entries with
    | [] => notified
    | first :: _ => notified.changeQueue first.1 (requeue gone proposal.queues)
  requeued.eraseProposal proposalId

-- UpdateProposal and Update

def succeedProposal (mgr : ProposalMgr) (proposalId guid : Nat) (proposal : StoredProposal)
    (formation : Formation)
    : ProposalMgr :=
  let entered := proposal.players.entries.foldl (fun mgr slot => mgr.setState slot.1 .dungeon) mgr
  let dequeued := entered.changeQueue guid (fun queue =>
    proposal.queues.entries.foldl LFGQueue.removeQueueData queue)
  (dequeued.makeNewGroup formation).eraseProposal proposalId

def answered (proposal : StoredProposal) (guid : Nat) (accept : Bool) : StoredProposal :=
  { proposal with
    players := proposal.players.modify guid
      (fun player => { player with accept := .ofBool accept }) }

def allAnswered (proposal : StoredProposal) : Bool :=
  proposal.players.values.all (fun player => player.accept = .agree)

def updateProposal (mgr : ProposalMgr) (proposalId guid : Nat) (accept : Bool)
    (formation : Formation)
    : ProposalMgr :=
  match mgr.proposalsStore.get? proposalId with
  | none => mgr
  | some proposal =>
      if (proposal.players.get? guid).isNone then mgr
      else
        let proposal := answered proposal guid accept
        if !accept then mgr.removeProposal proposalId proposal .declined
        else if !mgr.testing && !allAnswered proposal then
          { mgr with proposalsStore := mgr.proposalsStore.put proposalId proposal }
        else mgr.succeedProposal proposalId guid proposal formation

def checkProposal (mgr : ProposalMgr) (proposalId : Nat) (currTime : Int) : ProposalMgr :=
  match mgr.proposalsStore.get? proposalId with
  | none => mgr
  | some proposal =>
      if proposal.cancelTime < currTime then mgr.removeProposal proposalId proposal .failed
      else mgr

end ProposalMgr

/-- An answer of somebody to some proposal, and a look at whether a proposal has timed out. -/
inductive ProposalEvent where
  | answer (proposalId guid : Nat) (accept : Bool) (formation : Formation)
  | check (proposalId : Nat) (currTime : Int)

def ProposalMgr.step (mgr : ProposalMgr) : ProposalEvent → ProposalMgr
  | .answer proposalId guid accept formation => mgr.updateProposal proposalId guid accept formation
  | .check proposalId currTime => mgr.checkProposal proposalId currTime

-- The entries of a proposal

@[simp] theorem mem_guidSet {guids : List Nat} {guid : Nat}
    : guid ∈ guidSet guids ↔ guid ∈ guids := by
  induction guids with
  | nil => rfl
  | cons first rest ih =>
      unfold guidSet
      split
      · rename_i there
        rw [ih, List.mem_cons]
        refine ⟨.inr, ?_⟩
        rintro (rfl | later)
        · simpa [ih] using there
        · exact later
      · rw [List.mem_orderedInsert, ih, List.mem_cons]

/-- Leaving out one guid and then others. -/
theorem filter_notMem_cons (guids : List Nat) (first : Nat) (rest : List Nat)
    : (guids.filter (fun guid => guid ≠ first)).filter (fun guid => guid ∉ rest)
      = guids.filter (fun guid => guid ∉ first :: rest) := by
  rw [List.filter_filter]
  apply List.filter_congr
  intro guid _
  simp [not_or, Bool.and_comm]

/-- The entries that are left of a key when some are removed. -/
theorem entries_removals {key : Lfg5Guids} (packed : key.Packed) (distinct : key.entries.Nodup)
    {gone : List Nat} (some_ : ∀ guid ∈ gone, guid ≠ 0)
    : (gone.foldl Lfg5Guids.remove key).entries
      = key.entries.filter (fun guid => guid ∉ gone) := by
  induction gone generalizing key with
  | nil => simp
  | cons first rest ih =>
      have removed := packed.entries_remove distinct (some_ first List.mem_cons_self)
      rw [List.foldl_cons, ih (packed.remove first) (removed ▸ distinct.filter _)
        (fun guid member => some_ guid (List.mem_cons_of_mem _ member)), removed,
        filter_notMem_cons]

/-- The entries to remove are those of the players who refuse. -/
theorem mem_toRemove {type : ProposalRemoval} {players : Table Nat StoredPlayer} {entry : Nat}
    : entry ∈ ProposalMgr.toRemove type players
      ↔ ∃ guid player, players.get? guid = some player ∧ player.refuses type = true
          ∧ player.entry guid = entry := by
  unfold ProposalMgr.toRemove
  simp only [mem_guidSet, List.mem_map, List.mem_filter, Table.get?_eq_some_iff, Sigma.exists]
  grind

-- The queue of a removed proposal

namespace LFGQueue

variable {queue : LFGQueue}

theorem stored_removals {gone : List Nat} {guid : Nat}
    : (gone.foldl (fun queue guid => queue.removeFromQueue guid false) queue).Stored guid
      ↔ queue.Stored guid ∧ guid ∉ gone := by
  induction gone generalizing queue with
  | nil => simp
  | cons first rest ih =>
      rw [List.foldl_cons, ih, List.mem_cons, not_or]
      have removed : (queue.removeFromQueue first false).Stored guid
          ↔ queue.Stored guid ∧ guid ≠ first := by
        unfold Stored
        rw [get?_removeFromQueue]
        split
        · rename_i same
          simp [same.1]
        · rename_i different
          simp only [and_true] at different
          simp [different]
      rw [removed, and_assoc]

theorem newToQueueStore_removals {gone : List Nat}
    : (gone.foldl (fun queue guid => queue.removeFromQueue guid false) queue).newToQueueStore
      = queue.newToQueueStore.filter (fun guid => guid ∉ gone) := by
  induction gone generalizing queue with
  | nil => simp
  | cons first rest ih =>
      have removed : (queue.removeFromQueue first false).newToQueueStore
          = queue.newToQueueStore.filter (fun guid => guid ≠ first) := rfl
      rw [List.foldl_cons, ih, removed, filter_notMem_cons]

/-- A removal does not make the queue mention a guid. -/
theorem mentions_of_removeFromQueue {guid other : Nat} {partial_ : Bool}
    (mentions : (queue.removeFromQueue other partial_).Mentions guid)
    : queue.Mentions guid := by
  rcases mentions with isNew | restored | ⟨key, member, has⟩ | ⟨key, member, has⟩ |
    ⟨stored, data, found, has⟩
  · exact .inl (List.mem_of_mem_filter isNew)
  · exact .inr (.inl (List.mem_of_mem_filter restored))
  · obtain ⟨old, there, rfl⟩ := List.mem_map.mp member
    split at has
    · simp at has
    · exact .inr (.inr (.inl ⟨old, there, has⟩))
  · exact .inr (.inr (.inr (.inl ⟨key, List.mem_of_mem_filter member, has⟩)))
  · rw [get?_removeFromQueue] at found
    split at found
    · cases found
    · obtain ⟨old, there, rfl⟩ := Option.map_eq_some_iff.mp found
      exact .inr (.inr (.inr (.inr ⟨stored, old, there, hasGuid_of_forgetBest has⟩)))

/-- After some removals nothing mentions what was removed.
Witness: its own removal clears it, and no later one brings it back.
-/
theorem not_mentions_removals {gone : List Nat} {guid : Nat} (member : guid ∈ gone)
    : ¬ (gone.foldl (fun queue guid => queue.removeFromQueue guid false) queue).Mentions guid := by
  have kept (rest : List Nat) (queue : LFGQueue) (absent : ¬ queue.Mentions guid)
      : ¬ (rest.foldl (fun queue gone => queue.removeFromQueue gone false) queue).Mentions
          guid := by
    induction rest generalizing queue with
    | nil => exact absent
    | cons first rest ih =>
        exact ih _ (fun mentions => absent (mentions_of_removeFromQueue mentions))
  induction gone generalizing queue with
  | nil => cases member
  | cons first rest ih =>
      rcases List.mem_cons.mp member with rfl | later
      · exact kept rest _ (not_mentions_removeFromQueue queue guid)
      · exact ih later

/-- Entries that are added again, of which the queue still has the data. -/
theorem additions_eq {entries : List Nat} (stored : ∀ guid ∈ entries, queue.Stored guid)
    : entries.foldl (fun queue guid => queue.addToQueue guid true) queue
      = { queue with
          newToQueueStore := entries.reverse ++ queue.newToQueueStore
          restoredAfterProposal := queue.restoredAfterProposal ++ entries } := by
  induction entries generalizing queue with
  | nil => simp
  | cons first rest ih =>
      have added : queue.addToQueue first true = queue.addToNewQueue first true :=
        if_pos (stored first List.mem_cons_self)
      have others : ∀ guid ∈ rest, (queue.addToNewQueue first true).Stored guid :=
        fun guid member => stored guid (List.mem_cons_of_mem _ member)
      rw [List.foldl_cons, added, ih others]
      simp [addToNewQueue]

end LFGQueue

/-- What requeueing leaves: the removed entries are gone, the others in front of those that wait. -/
structure Requeued (before after : LFGQueue) (entries gone : List Nat) : Prop where
  stored : ∀ guid, after.Stored guid ↔ before.Stored guid ∧ guid ∉ gone
  waiting
    : after.newToQueueStore
      = (entries.filter (fun guid => guid ∉ gone)).reverse
        ++ before.newToQueueStore.filter (fun guid => guid ∉ gone)
  forgotten : ∀ guid ∈ gone, ¬ after.Mentions guid

theorem requeued_of_requeue {queue : LFGQueue} {queues : Lfg5Guids} {gone : List Nat}
    (packed : queues.Packed) (distinct : queues.entries.Nodup)
    (stored : ∀ guid ∈ queues.entries, queue.Stored guid)
    (included : ∀ guid ∈ gone, guid ∈ queues.entries)
    : Requeued queue (ProposalMgr.requeue gone queues queue) queues.entries gone := by
  have left_ := entries_removals packed distinct
    (fun guid member => (Lfg5Guids.mem_of_mem_entries (included guid member)).1)
  have there : ∀ guid ∈ (gone.foldl Lfg5Guids.remove queues).entries,
      (gone.foldl (fun queue guid => queue.removeFromQueue guid false) queue).Stored guid := by
    intro guid member
    rw [left_, List.mem_filter] at member
    exact LFGQueue.stored_removals.mpr ⟨stored guid member.1, by simpa using member.2⟩
  unfold ProposalMgr.requeue
  rw [LFGQueue.additions_eq there, left_]
  refine ⟨fun guid => LFGQueue.stored_removals, ?_, fun guid member mentions => ?_⟩
  · dsimp only
    rw [LFGQueue.newToQueueStore_removals]
  · -- what is added again is not what was removed
    rcases mentions with isNew | restored | others
    · rcases List.mem_append.mp isNew with again | before
      · exact absurd member (by simpa using (List.mem_filter.mp (List.mem_reverse.mp again)).2)
      · exact LFGQueue.not_mentions_removals member (.inl before)
    · rcases List.mem_append.mp restored with before | again
      · exact LFGQueue.not_mentions_removals member (.inr (.inl before))
      · exact absurd member (by simpa using (List.mem_filter.mp again).2)
    · exact LFGQueue.not_mentions_removals member (.inr (.inr others))

-- States

/-- The player does not use the raid browser, now or after a proposal. -/
structure Outside (data : LfgPlayerData) : Prop where
  state : data.state ≠ .raidBrowser
  oldState : data.oldState ≠ .raidBrowser

theorem Outside.setState {data : LfgPlayerData} (outside : Outside data) {state : LfgState}
    (other : state ≠ .raidBrowser)
    : Outside (data.setState state) := by
  refine ⟨(LfgPlayerData.setState_of_ne outside.state state).symm ▸ other, ?_⟩
  unfold LfgPlayerData.setState
  rw [if_neg (fun blocked => outside.state blocked.1)]
  cases state <;> first | exact outside.oldState | exact other

theorem Outside.restoreState {data : LfgPlayerData} (outside : Outside data)
    : Outside data.restoreState := by
  unfold LfgPlayerData.restoreState
  rw [if_neg (fun blocked => outside.state blocked.1)]
  exact ⟨outside.oldState, outside.oldState⟩

namespace ProposalMgr

variable {mgr : ProposalMgr}

/-- Only the states of players and groups are different, and nobody got into the raid browser. -/
structure Restated (before after : ProposalMgr) : Prop where
  testing : after.testing = before.testing
  isGroup : after.isGroup = before.isGroup
  getTeam : after.getTeam = before.getTeam
  queuesStore : after.queuesStore = before.queuesStore
  proposalsStore : after.proposalsStore = before.proposalsStore
  outside : ∀ guid, Outside (before.players guid) → Outside (after.players guid)

theorem Restated.refl (mgr : ProposalMgr) : Restated mgr mgr :=
  ⟨rfl, rfl, rfl, rfl, rfl, fun _ => id⟩

theorem Restated.trans {before between after : ProposalMgr} (first : Restated before between)
    (second : Restated between after)
    : Restated before after :=
  ⟨second.testing.trans first.testing, second.isGroup.trans first.isGroup,
    second.getTeam.trans first.getTeam, second.queuesStore.trans first.queuesStore,
    second.proposalsStore.trans first.proposalsStore,
    fun guid outside => second.outside guid (first.outside guid outside)⟩

theorem restated_setState (mgr : ProposalMgr) (guid : Nat) {state : LfgState}
    (other : state ≠ .raidBrowser)
    : Restated mgr (mgr.setState guid state) := by
  unfold setState
  split
  · exact ⟨rfl, rfl, rfl, rfl, rfl, fun _ => id⟩
  · refine ⟨rfl, rfl, rfl, rfl, rfl, fun player outside => ?_⟩
    by_cases same : player = guid
    · subst same
      simpa using outside.setState other
    · simpa [Function.update_of_ne same] using outside

theorem restated_restoreState (mgr : ProposalMgr) (guid : Nat)
    : Restated mgr (mgr.restoreState guid) := by
  unfold restoreState
  split
  · exact ⟨rfl, rfl, rfl, rfl, rfl, fun _ => id⟩
  · refine ⟨rfl, rfl, rfl, rfl, rfl, fun player outside => ?_⟩
    by_cases same : player = guid
    · subst same
      simpa using outside.restoreState
    · simpa [Function.update_of_ne same] using outside

theorem restated_notify (gone : List Nat) (mgr : ProposalMgr) (guid : Nat) (player : StoredPlayer)
    : Restated mgr (notify gone mgr guid player) := by
  unfold notify
  dsimp only
  have restored := restated_restoreState mgr guid
  have queued := @restated_setState mgr guid .queued (by decide)
  split
  · split
    · exact restored.trans (restated_restoreState _ _)
    · exact restored
  · split
    · exact queued.trans (restated_setState _ _ (by decide))
    · exact queued

/-- A pass over players that changes states only. -/
theorem restated_foldl {turn : ProposalMgr → (_ : Nat) × StoredPlayer → ProposalMgr}
    (each : ∀ mgr slot, Restated mgr (turn mgr slot)) (slots : List ((_ : Nat) × StoredPlayer))
    (mgr : ProposalMgr)
    : Restated mgr (slots.foldl turn mgr) := by
  induction slots generalizing mgr with
  | nil => exact .refl mgr
  | cons slot rest ih => exact (each mgr slot).trans (ih _)

theorem players_setState (mgr : ProposalMgr) (guid : Nat) (state : LfgState)
    : (mgr.setState guid state).players
      = if mgr.isGroup guid then mgr.players
        else Function.update mgr.players guid ((mgr.players guid).setState state) := by
  unfold setState
  split <;> rfl

theorem players_restoreState (mgr : ProposalMgr) (guid : Nat)
    : (mgr.restoreState guid).players
      = if mgr.isGroup guid then mgr.players
        else Function.update mgr.players guid (mgr.players guid).restoreState := by
  unfold restoreState
  split <;> rfl

/-- What a removed proposal does to the state of one player who is no group. -/
theorem players_notify {gone : List Nat} {guid : Nat} {player : StoredPlayer}
    (single : mgr.isGroup guid = false)
    (grouped : player.group ≠ 0 → mgr.isGroup player.group = true)
    : (notify gone mgr guid player).players
      = Function.update mgr.players guid
          (if player.entry guid ∈ gone then (mgr.players guid).restoreState
            else (mgr.players guid).setState .queued) := by
  have group
      : player.entry guid ≠ guid →
          mgr.isGroup player.group = true ∧ player.entry guid = player.group := by
    unfold StoredPlayer.entry
    split
    · rename_i some_
      exact fun _ => ⟨grouped some_, rfl⟩
    · exact fun different => absurd rfl different
  have restored : (mgr.restoreState guid).players
      = Function.update mgr.players guid (mgr.players guid).restoreState := by
    rw [players_restoreState, if_neg (by simp [single])]
  have queued : (mgr.setState guid .queued).players
      = Function.update mgr.players guid ((mgr.players guid).setState .queued) := by
    rw [players_setState, if_neg (by simp [single])]
  have kind : (mgr.setState guid .queued).isGroup = mgr.isGroup :=
    (restated_setState mgr guid (by decide)).isGroup
  unfold notify
  dsimp only
  split
  · split
    · rename_i different
      rw [players_restoreState, (restated_restoreState mgr guid).isGroup,
        if_pos (group different).1, restored]
    · exact restored
  · split
    · rename_i different
      rw [players_setState, kind, (group different).2, if_pos (group different).1, queued]
    · exact queued

/-- What a removed proposal does to the states of its players, each of whom is visited once.
Witness: induction on the players; a later turn is about another player.
-/
theorem players_notifications {gone : List Nat} {slots : List ((_ : Nat) × StoredPlayer)}
    (distinct : slots.NodupKeys) (single : ∀ slot ∈ slots, mgr.isGroup slot.1 = false)
    (grouped : ∀ slot ∈ slots, slot.2.group ≠ 0 → mgr.isGroup slot.2.group = true)
    : let notified := slots.foldl (fun mgr slot => notify gone mgr slot.1 slot.2) mgr
      (∀ slot ∈ slots, notified.players slot.1
          = if slot.2.entry slot.1 ∈ gone then (mgr.players slot.1).restoreState
            else (mgr.players slot.1).setState .queued)
        ∧ ∀ guid ∉ slots.keys, notified.players guid = mgr.players guid := by
  induction slots generalizing mgr with
  | nil => exact ⟨fun _ member => absurd member List.not_mem_nil, fun _ _ => rfl⟩
  | cons first rest ih =>
      obtain ⟨fresh, others⟩ := List.nodupKeys_cons.mp distinct
      have here := @players_notify mgr gone first.1 first.2 (single first List.mem_cons_self)
        (grouped first List.mem_cons_self)
      have kind := (restated_notify gone mgr first.1 first.2).isGroup
      obtain ⟨visited, passed⟩ := @ih (notify gone mgr first.1 first.2) others
        (fun slot member => kind ▸ single slot (List.mem_cons_of_mem _ member))
        (fun slot member => kind ▸ grouped slot (List.mem_cons_of_mem _ member))
      dsimp only at visited passed ⊢
      rw [List.foldl_cons]
      constructor
      · intro slot member
        rcases List.mem_cons.mp member with rfl | later
        · rw [passed _ fresh, here, Function.update_self]
        · have different : slot.1 ≠ first.1 :=
            fun same => fresh (same ▸ List.mem_keys_of_mem later)
          rw [visited slot later, here, Function.update_of_ne different]
      · intro guid absent
        rw [List.keys_cons, List.mem_cons, not_or] at absent
        rw [passed guid absent.2, here, Function.update_of_ne absent.1]

end ProposalMgr

end WarheadCore.DungeonFinding
