import WarheadCore.DungeonFinding.Proposals

/-! How proposals end: only when all players have accepted do they leave together; else the entries
of those who did not accept leave the queue, and all others are queued again, once.
-/

namespace WarheadCore.DungeonFinding

open Foundation

def StoredPlayer.AtFault (type : ProposalRemoval) (player : StoredPlayer) : Prop :=
  player.accept = .deny ∨ type = .failed ∧ player.accept = .pending

def StoredProposal.AtFault (proposal : StoredProposal) (type : ProposalRemoval) (entry : Nat)
    : Prop :=
  ∃ guid player, proposal.players.get? guid = some player ∧ player.entry guid = entry
    ∧ player.AtFault type

/-- A proposal after an event: an answer of one of its players is recorded. -/
def StoredProposal.recorded (proposal : StoredProposal) (proposalId : Nat)
    : ProposalEvent → StoredProposal
  | .answer answeredId guid accept _ =>
      if answeredId = proposalId then ProposalMgr.answered proposal guid accept else proposal
  | .check _ _ => proposal

namespace ProposalMgr

variable {mgr : ProposalMgr}

-- Sound proposals

/-- A proposal for entries of one queue, which keeps their data while they are not searched for:
every player is of one of the entries, and none uses the raid browser.
-/
structure Fits (mgr : ProposalMgr) (proposal : StoredProposal) (team : Nat) : Prop where
  some_ : proposal.players.entries ≠ []
  packed : proposal.queues.Packed
  distinct : proposal.queues.entries.Nodup
  listed
    : ∀ {guid player}, proposal.players.get? guid = some player →
        player.entry guid ∈ proposal.queues.entries
  single : ∀ {guid player}, proposal.players.get? guid = some player → mgr.isGroup guid = false
  grouped
    : ∀ {guid player}, proposal.players.get? guid = some player → player.group ≠ 0 →
        mgr.isGroup player.group = true
  outside : ∀ {guid player}, proposal.players.get? guid = some player → Outside (mgr.players guid)
  sameTeam : ∀ {guid player}, proposal.players.get? guid = some player → mgr.getTeam guid = team
  queued : ∀ entry ∈ proposal.queues.entries, (mgr.queuesStore team).Stored entry
  taken : ∀ entry ∈ proposal.queues.entries, entry ∉ (mgr.queuesStore team).newToQueueStore

structure Sound (mgr : ProposalMgr) : Prop where
  fits
    : ∀ {id proposal}, mgr.proposalsStore.get? id = some proposal → ∃ team, mgr.Fits proposal team
  apart
    : ∀ {id other proposal proposal'}, mgr.proposalsStore.get? id = some proposal →
        mgr.proposalsStore.get? other = some proposal' → id ≠ other →
        ∀ entry ∈ proposal.queues.entries, entry ∉ proposal'.queues.entries

-- How a proposal ends

/-- All players accepted, unless the dungeon finder is tested, and they leave the queue together. -/
structure Succeeded (before after : ProposalMgr) (proposal : StoredProposal) (team : Nat)
    : Prop where
  sameTeam
    : ∀ guid player, proposal.players.get? guid = some player → before.getTeam guid = team
  agreed
    : before.testing = true
      ∨ ∀ guid player, proposal.players.get? guid = some player → player.accept = .agree
  left_ : ∀ entry ∈ proposal.queues.entries, ¬ (after.queuesStore team).Stored entry
  states
    : ∀ guid player, proposal.players.get? guid = some player →
        (after.players guid).state = .dungeon

/-- The entries at fault leave the queue, the others are in it once, with their players queued. -/
structure Withdrawn (before after : ProposalMgr) (proposal : StoredProposal)
    (type : ProposalRemoval) (team : Nat)
    : Prop where
  sameTeam
    : ∀ guid player, proposal.players.get? guid = some player → before.getTeam guid = team
  removed
    : ∀ entry ∈ proposal.queues.entries, proposal.AtFault type entry →
        ¬ (after.queuesStore team).Stored entry ∧ ¬ (after.queuesStore team).Mentions entry
  readded
    : ∀ entry ∈ proposal.queues.entries, ¬ proposal.AtFault type entry →
        (after.queuesStore team).Stored entry
        ∧ (after.queuesStore team).newToQueueStore.count entry = 1
  states
    : ∀ guid player, proposal.players.get? guid = some player →
        ¬ proposal.AtFault type (player.entry guid) → (after.players guid).state = .queued
  others
    : ∀ entry ∉ proposal.queues.entries,
        ((after.queuesStore team).Stored entry ↔ (before.queuesStore team).Stored entry)
        ∧ (after.queuesStore team).newToQueueStore.count entry
          = (before.queuesStore team).newToQueueStore.count entry
  elsewhere : ∀ other, other ≠ team → after.queuesStore other = before.queuesStore other

/-- An acceptance that leaves others to be asked, or anything else that decides nothing. -/
def Undecided (mgr : ProposalMgr) (id : Nat) (proposal : StoredProposal) : ProposalEvent → Prop
  | .answer answeredId guid accept _ =>
      answeredId = id → (proposal.players.get? guid).isSome →
        accept = true ∧ mgr.testing = false ∧ allAnswered proposal = false
  | .check checkedId currTime => checkedId = id → ¬ proposal.cancelTime < currTime

/-- What an event comes to for a proposal, with the answers recorded. -/
inductive Outcome (before after : ProposalMgr) (event : ProposalEvent) (id : Nat)
    (proposal : StoredProposal)
    : Prop where
  | stays (kept : after.proposalsStore.get? id = some proposal)
      (undecided : before.Undecided id proposal event)
  | succeeded {guid formation team} (accepted : event = .answer id guid true formation)
      (gone : after.proposalsStore.get? id = none)
      (together : Succeeded before after proposal team)
  | declined {guid formation team} (refused : event = .answer id guid false formation)
      (player : (proposal.players.get? guid).isSome)
      (gone : after.proposalsStore.get? id = none)
      (withdrawn : Withdrawn before after proposal .declined team)
  | failed {currTime team} (checked : event = .check id currTime)
      (late : proposal.cancelTime < currTime)
      (gone : after.proposalsStore.get? id = none)
      (withdrawn : Withdrawn before after proposal .failed team)

/-- Every proposal stays or ends as it should, and none that ended comes back. -/
def Obeys (mgr : ProposalMgr) (event : ProposalEvent) : Prop :=
  (∀ id, mgr.proposalsStore.get? id = none → (mgr.step event).proposalsStore.get? id = none)
  ∧ ∀ id proposal, mgr.proposalsStore.get? id = some proposal →
      Outcome mgr (mgr.step event) event id (proposal.recorded id event)

-- Removals

@[simp] theorem entry_noAnswer (type : ProposalRemoval) (player : StoredPlayer) (guid : Nat)
    : (player.noAnswer type).entry guid = player.entry guid := by
  unfold StoredPlayer.noAnswer
  split <;> rfl

theorem refuses_noAnswer (type : ProposalRemoval) (player : StoredPlayer)
    : (player.noAnswer type).refuses type = true ↔ player.AtFault type := by
  unfold StoredPlayer.noAnswer StoredPlayer.AtFault StoredPlayer.refuses
  rcases player with ⟨role, accept, group⟩
  cases type <;> cases accept <;> simp

/-- What RemoveProposal removes from the queue are the entries at fault. -/
theorem mem_toRemove_noAnswer {proposal : StoredProposal} {type : ProposalRemoval} {entry : Nat}
    : entry ∈ toRemove type (proposal.players.mapValues (StoredPlayer.noAnswer type))
      ↔ proposal.AtFault type entry := by
  rw [mem_toRemove]
  simp only [Table.get?_mapValues, Option.map_eq_some_iff]
  constructor
  · rintro ⟨guid, _, ⟨player, found, rfl⟩, refuses, rfl⟩
    exact ⟨guid, player, found, (entry_noAnswer _ _ _).symm, (refuses_noAnswer _ _).mp refuses⟩
  · rintro ⟨guid, player, found, rfl, fault⟩
    exact ⟨guid, _, ⟨player, found, rfl⟩, (refuses_noAnswer _ _).mpr fault, entry_noAnswer _ _ _⟩

structure Ended (before after : ProposalMgr) (id team : Nat) : Prop where
  testing : after.testing = before.testing
  isGroup : after.isGroup = before.isGroup
  getTeam : after.getTeam = before.getTeam
  proposalsStore : after.proposalsStore = before.proposalsStore.remove id
  elsewhere : ∀ other, other ≠ team → after.queuesStore other = before.queuesStore other
  outside : ∀ guid, Outside (before.players guid) → Outside (after.players guid)

/-- RemoveProposal of a sound proposal.
Witness: the players are visited once each, and the queue is that of any of them.
-/
theorem removeProposal_spec {proposal : StoredProposal} {team : Nat}
    (fits : mgr.Fits proposal team) (id : Nat) (type : ProposalRemoval)
    : let after := mgr.removeProposal id proposal type
      let gone := toRemove type (proposal.players.mapValues (StoredPlayer.noAnswer type))
      Ended mgr after id team
        ∧ Requeued (mgr.queuesStore team) (after.queuesStore team) proposal.queues.entries gone
        ∧ ∀ guid player, proposal.players.get? guid = some player → player.entry guid ∉ gone →
            (after.players guid).state = .queued := by
  dsimp only
  unfold removeProposal
  dsimp only
  have included : ∀ entry ∈ toRemove type (proposal.players.mapValues (StoredPlayer.noAnswer type)),
      entry ∈ proposal.queues.entries := by
    intro entry member
    obtain ⟨guid, player, found, rfl, -⟩ := mem_toRemove_noAnswer.mp member
    exact fits.listed found
  generalize toRemove type (proposal.players.mapValues (StoredPlayer.noAnswer type)) = gone
    at included
  have slots : ∀ slot ∈ (proposal.players.mapValues (StoredPlayer.noAnswer type)).entries,
      ∃ player, proposal.players.get? slot.1 = some player ∧ slot.2 = player.noAnswer type := by
    intro slot member
    have found := Table.get?_eq_some_iff.mpr member
    rw [Table.get?_mapValues] at found
    obtain ⟨player, there, same⟩ := Option.map_eq_some_iff.mp found
    exact ⟨player, there, same.symm⟩
  have distinct := (proposal.players.mapValues (StoredPlayer.noAnswer type)).nodupKeys
  have values (guid : Nat) (player : StoredPlayer)
      (found : proposal.players.get? guid = some player)
      : ⟨guid, player.noAnswer type⟩
        ∈ (proposal.players.mapValues (StoredPlayer.noAnswer type)).entries := by
    rw [← Table.get?_eq_some_iff, Table.get?_mapValues, found]
    rfl
  have some_ : (proposal.players.mapValues (StoredPlayer.noAnswer type)).entries ≠ [] := by
    simpa [Table.mapValues] using fits.some_
  generalize (proposal.players.mapValues (StoredPlayer.noAnswer type)).entries = players
    at slots distinct values some_
  have single : ∀ slot ∈ players, mgr.isGroup slot.1 = false := by
    intro slot member
    obtain ⟨player, found, -⟩ := slots slot member
    exact fits.single found
  have grouped : ∀ slot ∈ players, slot.2.group ≠ 0 → mgr.isGroup slot.2.group = true := by
    intro slot member
    obtain ⟨player, found, same⟩ := slots slot member
    have group : slot.2.group = player.group := by
      rw [same]
      unfold StoredPlayer.noAnswer
      split <;> rfl
    rw [group]
    exact fits.grouped found
  obtain ⟨visited, -⟩ := @players_notifications mgr gone players distinct single grouped
  have restated :=
    restated_foldl (fun mgr slot => restated_notify gone mgr slot.1 slot.2) players mgr
  generalize players.foldl (fun mgr slot => notify gone mgr slot.1 slot.2) mgr = notified
    at visited restated
  cases players with
  | nil => exact absurd rfl some_
  | cons first rest =>
      obtain ⟨player, found, -⟩ := slots first List.mem_cons_self
      have team : notified.getTeam first.1 = team := by rw [restated.getTeam, fits.sameTeam found]
      have requeued := requeued_of_requeue fits.packed fits.distinct fits.queued included
      dsimp only [changeQueue, eraseProposal]
      rw [team, restated.queuesStore]
      refine ⟨⟨restated.testing, restated.isGroup, restated.getTeam, ?_, ?_, restated.outside⟩,
        ?_, ?_⟩
      · rw [restated.proposalsStore]
      · intro other different
        exact Function.update_of_ne different _ _
      · rw [Function.update_self]
        exact requeued
      · intro guid player there kept
        rw [visited _ (values guid player there), entry_noAnswer, if_neg kept]
        exact LfgPlayerData.setState_of_ne (fits.outside there).state _

/-- How often an entry waits after some entries were requeued. -/
theorem count_of_requeued {before after : LFGQueue} {entries gone : List Nat}
    (requeued : Requeued before after entries gone) {entry : Nat} (kept : entry ∉ gone)
    : after.newToQueueStore.count entry
      = entries.count entry + before.newToQueueStore.count entry := by
  rw [requeued.waiting, List.count_append, List.count_reverse,
    List.count_filter (by simpa using kept), List.count_filter (by simpa using kept)]

/-- A removed proposal is withdrawn: the entries at fault go, the others wait once. -/
theorem withdrawn_of_removeProposal {proposal : StoredProposal} {team : Nat}
    (fits : mgr.Fits proposal team) (id : Nat) (type : ProposalRemoval)
    : Withdrawn mgr (mgr.removeProposal id proposal type) proposal type team := by
  obtain ⟨ended, requeued, queued⟩ := removeProposal_spec fits id type
  refine ⟨fun _ _ => fits.sameTeam, ?_, ?_, ?_, ?_, ended.elsewhere⟩
  · intro entry _ fault
    have gone := mem_toRemove_noAnswer.mpr fault
    exact ⟨fun stored => ((requeued.stored entry).mp stored).2 gone, requeued.forgotten entry gone⟩
  · intro entry member innocent
    have kept := mt mem_toRemove_noAnswer.mp innocent
    refine ⟨(requeued.stored entry).mpr ⟨fits.queued entry member, kept⟩, ?_⟩
    rw [count_of_requeued requeued kept, List.count_eq_one_of_mem fits.distinct member,
      List.count_eq_zero_of_not_mem (fits.taken entry member)]
  · intro guid player found innocent
    exact queued guid player found (mt mem_toRemove_noAnswer.mp innocent)
  · intro entry absent
    have kept : entry ∉ toRemove type
        (proposal.players.mapValues (StoredPlayer.noAnswer type)) := by
      intro gone
      obtain ⟨guid, player, found, rfl, -⟩ := mem_toRemove_noAnswer.mp gone
      exact absent (fits.listed found)
    refine ⟨(requeued.stored entry).trans (and_iff_left kept), ?_⟩
    rw [count_of_requeued requeued kept, List.count_eq_zero_of_not_mem absent, Nat.zero_add]

-- Successes

theorem stored_removeQueueData {queue : LFGQueue} {entries : List Nat} {guid : Nat}
    : (entries.foldl LFGQueue.removeQueueData queue).Stored guid
      ↔ queue.Stored guid ∧ guid ∉ entries := by
  induction entries generalizing queue with
  | nil => simp
  | cons first rest ih =>
      rw [List.foldl_cons, ih, List.mem_cons, not_or]
      unfold LFGQueue.Stored LFGQueue.removeQueueData
      dsimp only
      rw [Table.get?_remove]
      by_cases same : guid = first <;> simp [same]

theorem newToQueueStore_removeQueueData (queue : LFGQueue) (entries : List Nat)
    : (entries.foldl LFGQueue.removeQueueData queue).newToQueueStore = queue.newToQueueStore := by
  induction entries generalizing queue with
  | nil => rfl
  | cons first rest ih => exact ih _

/-- The players of a proposal that succeeds enter the dungeon. -/
theorem players_entered {slots : List ((_ : Nat) × StoredPlayer)}
    (single : ∀ slot ∈ slots, mgr.isGroup slot.1 = false)
    (outside : ∀ slot ∈ slots, Outside (mgr.players slot.1))
    : ∀ slot ∈ slots,
        ((slots.foldl (fun mgr slot => mgr.setState slot.1 .dungeon) mgr).players slot.1).state
          = .dungeon := by
  have kept (rest : List ((_ : Nat) × StoredPlayer)) (mgr : ProposalMgr) (guid : Nat)
      (there : (mgr.players guid).state = .dungeon)
      : ((rest.foldl (fun mgr slot => mgr.setState slot.1 .dungeon) mgr).players guid).state
        = .dungeon := by
    induction rest generalizing mgr with
    | nil => exact there
    | cons first rest ih =>
        refine ih _ ?_
        rw [players_setState]
        split
        · exact there
        · by_cases same : guid = first.1
          · subst same
            rw [Function.update_self]
            exact LfgPlayerData.setState_of_ne (by simp [there]) _
          · rw [Function.update_of_ne same]
            exact there
  induction slots generalizing mgr with
  | nil => exact fun _ member => absurd member List.not_mem_nil
  | cons first rest ih =>
      intro slot member
      have restated := @restated_setState mgr first.1 .dungeon (by decide)
      rcases List.mem_cons.mp member with rfl | later
      · refine kept rest _ _ ?_
        rw [players_setState, if_neg (by simp [single slot List.mem_cons_self]),
          Function.update_self]
        exact LfgPlayerData.setState_of_ne (outside slot List.mem_cons_self).state _
      · refine @ih (mgr.setState first.1 .dungeon) (fun slot member => ?_) (fun slot member => ?_)
          slot later
        · rw [restated.isGroup]
          exact single slot (List.mem_cons_of_mem _ member)
        · exact restated.outside _ (outside slot (List.mem_cons_of_mem _ member))

/-- UpdateProposal, once all players of a sound proposal have accepted. -/
theorem succeedProposal_spec {proposal : StoredProposal} {team guid : Nat} {player : StoredPlayer}
    (fits : mgr.Fits proposal team) (found : proposal.players.get? guid = some player) (id : Nat)
    (formation : Formation)
    : let after := mgr.succeedProposal id guid proposal formation
      Ended mgr after id team
        ∧ (∀ entry, (after.queuesStore team).Stored entry
            ↔ (mgr.queuesStore team).Stored entry ∧ entry ∉ proposal.queues.entries)
        ∧ (after.queuesStore team).newToQueueStore = (mgr.queuesStore team).newToQueueStore
        ∧ ∀ guid player, proposal.players.get? guid = some player →
            (after.players guid).state = .dungeon := by
  have entered := @players_entered mgr proposal.players.entries
    (fun slot member => fits.single (Table.get?_eq_some_iff.mpr member))
    (fun slot member => fits.outside (Table.get?_eq_some_iff.mpr member))
  have restated :=
    restated_foldl (fun mgr slot => @restated_setState mgr slot.1 .dungeon (by decide))
      proposal.players.entries mgr
  dsimp only
  unfold succeedProposal
  dsimp only
  generalize proposal.players.entries.foldl (fun mgr slot => mgr.setState slot.1 .dungeon) mgr
    = later at entered restated
  have team : later.getTeam guid = team := by rw [restated.getTeam, fits.sameTeam found]
  dsimp only [changeQueue, makeNewGroup, eraseProposal]
  rw [team, restated.queuesStore]
  refine ⟨⟨restated.testing, restated.isGroup, restated.getTeam, ?_, ?_, ?_⟩, ?_, ?_, ?_⟩
  · rw [restated.proposalsStore]
  · intro other different
    exact Function.update_of_ne different _ _
  · intro guid outside
    exact ⟨(restated.outside guid outside).state, (restated.outside guid outside).oldState⟩
  · intro entry
    rw [Function.update_self]
    exact stored_removeQueueData
  · rw [Function.update_self, newToQueueStore_removeQueueData]
  · intro guid player there
    exact entered ⟨guid, player⟩ (Table.get?_eq_some_iff.mp there)

-- Soundness is kept

structure Untouched (before after : LFGQueue) (entries : List Nat) : Prop where
  stored : ∀ entry ∉ entries, before.Stored entry → after.Stored entry
  waiting : ∀ entry ∉ entries, entry ∈ after.newToQueueStore → entry ∈ before.newToQueueStore

theorem Withdrawn.untouched {before after : ProposalMgr} {proposal : StoredProposal}
    {type : ProposalRemoval} {team : Nat} (withdrawn : Withdrawn before after proposal type team)
    : Untouched (before.queuesStore team) (after.queuesStore team) proposal.queues.entries := by
  refine ⟨fun entry absent => (withdrawn.others entry absent).1.mpr, fun entry absent waits => ?_⟩
  rw [← List.count_pos_iff] at waits ⊢
  rw [← (withdrawn.others entry absent).2]
  exact waits

/-- The end of a proposal leaves another one sound. -/
theorem Fits.ended {before after : ProposalMgr} {proposal other : StoredProposal}
    {id team team' : Nat} (fits : before.Fits other team') (ended : Ended before after id team)
    (untouched
      : Untouched (before.queuesStore team) (after.queuesStore team) proposal.queues.entries)
    (apart : ∀ entry ∈ other.queues.entries, entry ∉ proposal.queues.entries)
    : after.Fits other team' where
  some_ := fits.some_
  packed := fits.packed
  distinct := fits.distinct
  listed := fits.listed
  single found := by
    rw [ended.isGroup]
    exact fits.single found
  grouped found := by
    rw [ended.isGroup]
    exact fits.grouped found
  outside found := ended.outside _ (fits.outside found)
  sameTeam found := by
    rw [ended.getTeam]
    exact fits.sameTeam found
  queued entry member := by
    by_cases same : team' = team
    · subst same
      exact untouched.stored entry (apart entry member) (fits.queued entry member)
    · rw [ended.elsewhere team' same]
      exact fits.queued entry member
  taken entry member := by
    by_cases same : team' = team
    · subst same
      exact fun waits =>
        fits.taken entry member (untouched.waiting entry (apart entry member) waits)
    · rw [ended.elsewhere team' same]
      exact fits.taken entry member

/-- The end of one proposal leaves the others sound. -/
theorem Sound.ended {after : ProposalMgr} (sound : mgr.Sound) {id team : Nat}
    {stored proposal : StoredProposal} (found : mgr.proposalsStore.get? id = some stored)
    (same : proposal.queues = stored.queues) (ended : Ended mgr after id team)
    (untouched
      : Untouched (mgr.queuesStore team) (after.queuesStore team) proposal.queues.entries)
    : after.Sound := by
  have kept {other : Nat} {proposal' : StoredProposal}
      (there : after.proposalsStore.get? other = some proposal')
      : other ≠ id ∧ mgr.proposalsStore.get? other = some proposal' := by
    rw [ended.proposalsStore, Table.get?_remove] at there
    split at there
    · cases there
    · exact ⟨‹_›, there⟩
  constructor
  · intro other proposal' there
    obtain ⟨different, there⟩ := kept there
    obtain ⟨team', fits⟩ := sound.fits there
    exact ⟨team', fits.ended ended untouched (same ▸ sound.apart there found different)⟩
  · intro first second _ _ here there different
    exact sound.apart (kept here).2 (kept there).2 different

/-- Who a player of a proposal was before an answer. -/
theorem get?_answered {proposal : StoredProposal} {guid other : Nat} {accept : Bool}
    {player : StoredPlayer}
    (found : (answered proposal guid accept).players.get? other = some player)
    : ∃ before, proposal.players.get? other = some before ∧ player.group = before.group := by
  unfold answered at found
  rw [Table.get?_modify] at found
  split at found
  · obtain ⟨before, there, rfl⟩ := Option.map_eq_some_iff.mp found
    exact ⟨before, there, rfl⟩
  · exact ⟨player, found, rfl⟩

theorem isSome_answered (proposal : StoredProposal) (guid other : Nat) (accept : Bool)
    : ((answered proposal guid accept).players.get? other).isSome
      = (proposal.players.get? other).isSome := by
  unfold answered
  rw [Table.get?_modify]
  split
  · rw [Option.isSome_map]
  · rfl

/-- An answer of an outsider is none. -/
theorem answered_of_absent {proposal : StoredProposal} {guid : Nat}
    (absent : proposal.players.get? guid = none) (accept : Bool)
    : answered proposal guid accept = proposal := by
  unfold answered
  rw [Table.modify_of_absent absent]

/-- An answer leaves a proposal sound. -/
theorem Fits.answered {proposal : StoredProposal} {team : Nat} (fits : mgr.Fits proposal team)
    (guid : Nat) (accept : Bool)
    : mgr.Fits (answered proposal guid accept) team where
  some_ := by
    unfold ProposalMgr.answered Table.modify
    simpa using fits.some_
  packed := fits.packed
  distinct := fits.distinct
  listed found := by
    obtain ⟨before, there, group⟩ := get?_answered found
    have listed := fits.listed there
    unfold StoredPlayer.entry at listed ⊢
    rw [group]
    exact listed
  single found := by
    obtain ⟨before, there, -⟩ := get?_answered found
    exact fits.single there
  grouped found := by
    obtain ⟨before, there, group⟩ := get?_answered found
    rw [group]
    exact fits.grouped there
  outside found := by
    obtain ⟨before, there, -⟩ := get?_answered found
    exact fits.outside there
  sameTeam found := by
    obtain ⟨before, there, -⟩ := get?_answered found
    exact fits.sameTeam there
  queued := fits.queued
  taken := fits.taken

-- Steps and runs

/-- A step is about one proposal; the law for that one is the law for all. -/
theorem obeys_of_outcome {event : ProposalEvent} {id : Nat} {proposal : StoredProposal}
    (about : ∀ other, other ≠ id → ∀ proposal',
      proposal'.recorded other event = proposal' ∧ mgr.Undecided other proposal' event)
    (found : mgr.proposalsStore.get? id = some proposal)
    (others : ∀ other, other ≠ id →
      (mgr.step event).proposalsStore.get? other = mgr.proposalsStore.get? other)
    (outcome : Outcome mgr (mgr.step event) event id (proposal.recorded id event))
    : Obeys mgr event := by
  constructor
  · intro other absent
    by_cases same : other = id
    · subst same
      rw [found] at absent
      cases absent
    · rw [others other same]
      exact absent
  · intro other proposal' there
    by_cases same : other = id
    · subst same
      obtain rfl := Option.some.inj (found.symm.trans there)
      exact outcome
    · obtain ⟨recorded, undecided⟩ := about other same proposal'
      rw [recorded]
      exact .stays ((others other same).trans there) undecided

/-- An end of a proposal is about no other. -/
theorem get?_of_ended {after : ProposalMgr} {id team : Nat} (ended : Ended mgr after id team)
    : after.proposalsStore.get? id = none
      ∧ ∀ other, other ≠ id →
          after.proposalsStore.get? other = mgr.proposalsStore.get? other := by
  rw [ended.proposalsStore]
  exact ⟨Table.get?_remove_self _ _, fun other different => Table.get?_remove_of_ne _ different⟩

/-- A step that changes nothing obeys the law if it decides nothing. -/
theorem obeys_of_unchanged {event : ProposalEvent} (same : mgr.step event = mgr)
    (still : ∀ id proposal, mgr.proposalsStore.get? id = some proposal →
      proposal.recorded id event = proposal ∧ mgr.Undecided id proposal event)
    : Obeys mgr event := by
  refine ⟨fun id absent => by rw [same]; exact absent, fun id proposal found => ?_⟩
  obtain ⟨recorded, undecided⟩ := still id proposal found
  rw [recorded]
  exact .stays (by rw [same]; exact found) undecided

/-- A recorded answer keeps all proposals sound. -/
theorem Sound.record (sound : mgr.Sound) {id : Nat} {stored proposal : StoredProposal}
    (found : mgr.proposalsStore.get? id = some stored) (same : proposal.queues = stored.queues)
    {team : Nat} (fits : mgr.Fits proposal team)
    : ({ mgr with proposalsStore := mgr.proposalsStore.put id proposal } : ProposalMgr).Sound := by
  have kept {other : Nat} {proposal' : StoredProposal}
      (there : (mgr.proposalsStore.put id proposal).get? other = some proposal')
      : ∃ before, mgr.proposalsStore.get? other = some before ∧ proposal'.queues = before.queues
          ∧ ∃ team, mgr.Fits proposal' team := by
    rw [Table.get?_put] at there
    split at there
    · rename_i here
      obtain rfl := Option.some.inj there
      exact ⟨stored, here ▸ found, same, team, fits⟩
    · exact ⟨proposal', there, rfl, sound.fits there⟩
  constructor
  · intro other proposal' there
    obtain ⟨-, -, -, team', fits'⟩ := kept there
    exact ⟨team', { fits' with }⟩
  · intro first second _ _ here there different
    obtain ⟨before, here, queues, -⟩ := kept here
    obtain ⟨before', there, queues', -⟩ := kept there
    rw [queues, queues']
    exact sound.apart here there different

/-- The answer of a player of a proposal keeps all proposals sound and obeys the law.
Witness: a refusal removes the proposal, the last acceptance lets it succeed, and any other is only
recorded.
-/
theorem answer_of_player (sound : mgr.Sound) {id guid : Nat} {proposal : StoredProposal}
    {player : StoredPlayer} (found : mgr.proposalsStore.get? id = some proposal)
    (member : proposal.players.get? guid = some player) (accept : Bool) (formation : Formation)
    : (mgr.step (.answer id guid accept formation)).Sound
      ∧ (∀ other, other ≠ id →
          (mgr.step (.answer id guid accept formation)).proposalsStore.get? other
            = mgr.proposalsStore.get? other)
      ∧ Outcome mgr (mgr.step (.answer id guid accept formation))
          (.answer id guid accept formation) id (answered proposal guid accept) := by
  obtain ⟨team, before⟩ := sound.fits found
  have fits := before.answered guid accept
  have there := isSome_answered proposal guid guid accept
  rw [member] at there
  cases accept with
  | false =>
      have step : mgr.step (.answer id guid false formation)
          = mgr.removeProposal id (answered proposal guid false) .declined := by
        simp [ProposalMgr.step, updateProposal, found, member]
      have ended := (removeProposal_spec fits id .declined).1
      have withdrawn := withdrawn_of_removeProposal fits id .declined
      obtain ⟨gone, others⟩ := get?_of_ended ended
      rw [step]
      exact ⟨sound.ended found rfl ended withdrawn.untouched, others,
        .declined rfl there gone withdrawn⟩
  | true =>
      by_cases asking : mgr.testing = false ∧ allAnswered (answered proposal guid true) = false
      · have step : mgr.step (.answer id guid true formation)
            = { mgr with
                proposalsStore := mgr.proposalsStore.put id (answered proposal guid true) } := by
          simp [ProposalMgr.step, updateProposal, found, member, asking.1, asking.2]
        rw [step]
        refine ⟨sound.record found rfl fits, fun other different => ?_, .stays ?_ ?_⟩
        · dsimp only
          rw [Table.get?_put, if_neg different]
        · dsimp only
          rw [Table.get?_put, if_pos rfl]
        · exact fun _ _ => ⟨rfl, asking⟩
      · have step : mgr.step (.answer id guid true formation)
            = mgr.succeedProposal id guid (answered proposal guid true) formation := by
          have decided : (!mgr.testing && !allAnswered (answered proposal guid true)) = false := by
            simpa using asking
          simp [ProposalMgr.step, updateProposal, found, member, decided]
        obtain ⟨player', there'⟩ := Option.isSome_iff_exists.mp there
        obtain ⟨ended, stored, waiting, entered⟩ := succeedProposal_spec fits there' id formation
        obtain ⟨gone, others⟩ := get?_of_ended ended
        have agreed : mgr.testing = true
            ∨ ∀ other player', (answered proposal guid true).players.get? other = some player' →
                player'.accept = .agree := by
          by_cases testing : mgr.testing = true
          · exact .inl testing
          · have all : allAnswered (answered proposal guid true) = true := by
              simpa [testing] using asking
            refine .inr (fun other player' found' => ?_)
            have each := List.all_eq_true.mp all player' (Table.mem_values_iff.mpr ⟨other, found'⟩)
            simpa using each
        have untouched : Untouched (mgr.queuesStore team)
            ((mgr.succeedProposal id guid (answered proposal guid true) formation).queuesStore team)
            proposal.queues.entries :=
          ⟨fun entry absent before => (stored entry).mpr ⟨before, absent⟩,
            fun entry _ waits => waiting ▸ waits⟩
        rw [step]
        exact ⟨sound.ended found rfl ended untouched, others,
          .succeeded rfl gone ⟨fun _ _ => fits.sameTeam, agreed,
            fun entry present left_ => ((stored entry).mp left_).2 present, entered⟩⟩

/-- An answer keeps all proposals sound and obeys the law. -/
theorem answer_spec (sound : mgr.Sound) (id guid : Nat) (accept : Bool) (formation : Formation)
    : (mgr.step (.answer id guid accept formation)).Sound
      ∧ Obeys mgr (.answer id guid accept formation) := by
  have about : ∀ other, other ≠ id → ∀ proposal' : StoredProposal,
      proposal'.recorded other (.answer id guid accept formation) = proposal'
        ∧ mgr.Undecided other proposal' (.answer id guid accept formation) :=
    fun other different proposal' =>
      ⟨if_neg (Ne.symm different), fun same => absurd same.symm different⟩
  cases found : mgr.proposalsStore.get? id with
  | none =>
      have step : mgr.step (.answer id guid accept formation) = mgr := by
        simp only [step, updateProposal, found]
      refine ⟨by rw [step]; exact sound, obeys_of_unchanged step (fun other proposal' there => ?_)⟩
      refine about other ?_ proposal'
      rintro rfl
      rw [found] at there
      cases there
  | some proposal =>
      cases member : proposal.players.get? guid with
      | none =>
          have step : mgr.step (.answer id guid accept formation) = mgr := by
            simp only [step, updateProposal, found, member, Option.isNone_none, if_true]
          refine ⟨by rw [step]; exact sound,
            obeys_of_unchanged step (fun other proposal' there => ?_)⟩
          by_cases same : other = id
          · subst same
            obtain rfl := Option.some.inj (found.symm.trans there)
            refine ⟨(if_pos rfl).trans (answered_of_absent member accept), fun _ some_ => ?_⟩
            rw [member] at some_
            cases some_
          · exact about other same proposal'
      | some player =>
          obtain ⟨sound', others, outcome⟩ := answer_of_player sound found member accept formation
          refine ⟨sound', obeys_of_outcome about found others ?_⟩
          have recorded : proposal.recorded id (.answer id guid accept formation)
              = answered proposal guid accept :=
            if_pos rfl
          rw [recorded]
          exact outcome

/-- A look at a proposal keeps all proposals sound and obeys the law. -/
theorem check_spec (sound : mgr.Sound) (id : Nat) (currTime : Int)
    : (mgr.step (.check id currTime)).Sound ∧ Obeys mgr (.check id currTime) := by
  cases found : mgr.proposalsStore.get? id with
  | none =>
      have step : mgr.step (.check id currTime) = mgr := by
        simp only [step, checkProposal, found]
      refine ⟨by rw [step]; exact sound, obeys_of_unchanged step (fun other proposal' there => ?_)⟩
      refine ⟨rfl, fun same => ?_⟩
      subst same
      rw [found] at there
      cases there
  | some proposal =>
      by_cases late : proposal.cancelTime < currTime
      · have step : mgr.step (.check id currTime) = mgr.removeProposal id proposal .failed := by
          simp only [step, checkProposal, found, if_pos late]
        obtain ⟨team, fits⟩ := sound.fits found
        have ended := (removeProposal_spec fits id .failed).1
        have withdrawn := withdrawn_of_removeProposal fits id .failed
        obtain ⟨gone, others⟩ := get?_of_ended ended
        refine ⟨?_, obeys_of_outcome (fun other different _ =>
          ⟨rfl, fun same => absurd same.symm different⟩) found ?_ ?_⟩
        · rw [step]
          exact sound.ended found rfl ended withdrawn.untouched
        · rw [step]
          exact others
        · rw [step]
          exact .failed rfl late gone withdrawn
      · have step : mgr.step (.check id currTime) = mgr := by
          simp only [step, checkProposal, found, if_neg late]
        refine ⟨by rw [step]; exact sound,
          obeys_of_unchanged step (fun other proposal' there => ?_)⟩
        refine ⟨rfl, fun same => ?_⟩
        subst same
        obtain rfl := Option.some.inj (found.symm.trans there)
        exact late

theorem step_spec (sound : mgr.Sound) (event : ProposalEvent)
    : (mgr.step event).Sound ∧ Obeys mgr event := by
  cases event with
  | answer id guid accept formation => exact answer_spec sound id guid accept formation
  | check id currTime => exact check_spec sound id currTime

/-- A proposal that is gone does not come back, as no step brings one. -/
theorem gone_of_run {events : List ProposalEvent} (obeyed : Runs.EachStep step Obeys mgr events)
    {id : Nat} (gone : mgr.proposalsStore.get? id = none)
    : (Runs.run step mgr events).proposalsStore.get? id = none := by
  induction events generalizing mgr with
  | nil => exact gone
  | cons event rest ih => exact ih obeyed.2 (obeyed.1.1 id gone)

/-- In every run of answers and timeouts, a proposal succeeds only when all players have accepted,
unless the dungeon finder is tested. Else it is removed once; the entries of those who declined, or
did not answer in time, leave the queue, and every other is in it once, with its players queued.
Witness: every step keeps the proposals sound, and what it does is said of one of them.
-/
theorem proposals_end_once (mgr : ProposalMgr) (sound : mgr.Sound) (events : List ProposalEvent)
    : Runs.EachStep step Obeys mgr events
      ∧ ∀ first later, events = first ++ later → ∀ id,
          (Runs.run step mgr first).proposalsStore.get? id = none →
          (Runs.run step mgr events).proposalsStore.get? id = none := by
  have obeyed : Runs.EachStep step Obeys mgr events :=
    @Runs.eachStep_of_invariant _ _ step Sound (fun _ _ => True)
      (fun _ event sound _ => (step_spec sound event).1) Obeys
      (fun _ event sound _ => (step_spec sound event).2) _ events sound
      (Runs.eachStep_of_forall (fun _ _ => trivial) _ _)
  refine ⟨obeyed, ?_⟩
  rintro first later rfl id gone
  rw [Runs.run_append]
  exact gone_of_run (Runs.eachStep_append.mp obeyed).2 gone

def pairEntry : LfgQueueData :=
  LfgQueueJoin.data ⟨0, {206}, [(1, Role.tank.flag), (2, Role.healer.flag)], by simp [maxGroupSize]⟩

def loneEntry : LfgQueueData :=
  LfgQueueJoin.data ⟨0, {206}, [(3, Role.damage.flag)], by simp [maxGroupSize]⟩

/-- A dungeon that is offered to a group of two and to a third player, until a time. -/
def offeredDungeon : StoredProposal where
  dungeonId := 206
  cancelTime := 40
  queues := { guid0 := 3, guid1 := 100 }
  players :=
    (((∅ : Table Nat StoredPlayer).put 1 { role := Role.tank.flag, group := 100 }).put 2
      { role := Role.healer.flag, group := 100 }).put 3 { role := Role.damage.flag }

/-- Three players are asked, while the dungeon finder is tested or not. -/
def askedThree (testing : Bool) : ProposalMgr where
  testing
  isGroup guid := guid = 100
  getTeam _ := 0
  players _ := { state := .proposal }
  queuesStore _ :=
    { queueDataStore := ((∅ : Table Nat LfgQueueData).put 100 pairEntry).put 3 loneEntry }
  proposalsStore := (∅ : Table Nat StoredProposal).put 7 offeredDungeon

theorem get?_offeredDungeon {guid : Nat} {player : StoredPlayer}
    (found : offeredDungeon.players.get? guid = some player)
    : (guid = 1 ∨ guid = 2) ∧ player.group = 100 ∨ guid = 3 ∧ player.group = 0 := by
  unfold offeredDungeon at found
  simp only [Table.get?_put, Table.get?_empty] at found
  split at found
  · obtain rfl := Option.some.inj found
    exact .inr ⟨‹_›, rfl⟩
  · split at found
    · obtain rfl := Option.some.inj found
      exact .inl ⟨.inr ‹_›, rfl⟩
    · split at found
      · obtain rfl := Option.some.inj found
        exact .inl ⟨.inl ‹_›, rfl⟩
      · cases found

theorem sound_askedThree (testing : Bool) : (askedThree testing).Sound := by
  have only {id : Nat} {proposal : StoredProposal}
      (found : (askedThree testing).proposalsStore.get? id = some proposal)
      : id = 7 ∧ proposal = offeredDungeon := by
    unfold askedThree at found
    simp only [Table.get?_put, Table.get?_empty] at found
    split at found
    · exact ⟨‹_›, (Option.some.inj found).symm⟩
    · cases found
  have entries : offeredDungeon.queues.entries = [3, 100] := by decide
  constructor
  · intro id proposal found
    obtain ⟨-, rfl⟩ := only found
    refine ⟨0, by decide, ⟨by decide, by decide, by decide, by decide⟩, by decide,
      ?_, ?_, ?_, ?_, ?_, ?_, ?_⟩
    · intro guid player there
      rw [entries]
      unfold StoredPlayer.entry
      rcases get?_offeredDungeon there with ⟨-, group⟩ | ⟨rfl, group⟩ <;> simp [group]
    · intro guid player there
      rcases get?_offeredDungeon there with ⟨rfl | rfl, -⟩ | ⟨rfl, -⟩ <;> rfl
    · intro guid player there some_
      rcases get?_offeredDungeon there with ⟨-, group⟩ | ⟨-, group⟩
      · rw [group]
        rfl
      · exact absurd group some_
    · exact fun _ => ⟨by simp [askedThree], by simp [askedThree]⟩
    · exact fun _ => rfl
    · rw [entries]
      dsimp only [LFGQueue.Stored, askedThree]
      decide
    · rw [entries]
      dsimp only [askedThree]
      decide
  · intro id other proposal proposal' here there different
    exact absurd ((only here).1.trans (only there).1.symm) different

def noFormation : Formation where
  groups _ := { kicksLeft := 0 }
  groupOf _ := 0

/-- Witness: of three players one accepts and nobody else answers in time. -/
theorem proposals_end_once_applied
    : Runs.EachStep step Obeys (askedThree false)
        [.answer 7 9 false noFormation, .answer 7 3 true noFormation, .check 7 41]
      ∧ ((askedThree false).step (.answer 7 3 true noFormation)).proposalsStore.get? 7
          = some (answered offeredDungeon 3 true) :=
  ⟨(proposals_end_once (askedThree false) (sound_askedThree false) _).1, rfl⟩

/-- While the dungeon finder is tested, one acceptance is enough: the proposal succeeds, and the
other two players enter the dungeon without having answered.
-/
theorem test_mode_does_not_wait
    : (askedThree true).Sound
      ∧ (let after := (askedThree true).step (.answer 7 3 true noFormation)
        after.proposalsStore.get? 7 = none
          ∧ ∀ guid ∈ [1, 2],
              (after.players guid).state = .dungeon
              ∧ ((offeredDungeon.players.get? guid).map StoredPlayer.accept) = some .pending) :=
  ⟨sound_askedThree true, by decide +kernel⟩

end ProposalMgr

end WarheadCore.DungeonFinding
