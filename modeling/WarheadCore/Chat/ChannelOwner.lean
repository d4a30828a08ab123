import WarheadCore.Chat.Channel
import WarheadCore.Foundation.Runs

/-! The owner of a channel is a member, and the only one with the owner's flag, and no member is
banned. An owner who leaves a channel without ownership stays its recorded owner, though: nobody
clears the record then.
-/

namespace WarheadCore.Chat

open Foundation (Table toUInt32)
open Foundation.Runs (EachState EachStep)

namespace Channel

variable {around : Surroundings} {channel : Channel} {guid : Nat}

-- Lookups after each change

theorem get?_changePlayer (change : PlayerInfo → PlayerInfo) (other : Nat)
    : (channel.changePlayer guid change).playersStore.get? other
      = if other = guid then some (change ((channel.playersStore.get? guid).getD {}))
        else channel.playersStore.get? other :=
  Table.get?_put _ _ _ _

theorem get?_erasePlayer (other : Nat)
    : (channel.erasePlayer guid).playersStore.get? other
      = if other = guid then none else channel.playersStore.get? other :=
  Table.get?_remove _ _ _

/-- Who is on the channel after a member changes. -/
theorem isOn_changePlayer (change : PlayerInfo → PlayerInfo) (other : Nat)
    : (channel.changePlayer guid change).isOn other
      = (decide (other = guid) || channel.isOn other) := by
  unfold isOn
  rw [get?_changePlayer]
  split <;> simp_all

theorem isOn_erasePlayer (other : Nat)
    : (channel.erasePlayer guid).isOn other = (!decide (other = guid) && channel.isOn other) := by
  unfold isOn
  rw [get?_erasePlayer]
  split <;> simp_all

theorem isOn_clearOwner (other : Nat) : channel.clearOwner.isOn other = channel.isOn other := by
  unfold isOn clearOwner
  split
  · dsimp only
    rw [Table.get?_modify]
    split <;> simp
  · rfl

/-- A new owner is on the channel, and nobody else comes to it. -/
theorem isOn_setOwner (owner : Option Nat) (other : Nat)
    : (channel.setOwner owner).isOn other = (owner == some other || channel.isOn other) := by
  cases owner with
  | none => exact isOn_clearOwner other
  | some owner =>
      refine (isOn_changePlayer _ other).trans ?_
      have same : (decide (other = owner)) = (some owner == some other) := by
        rcases eq_or_ne other owner with rfl | ne
        · simp
        · simp [ne, ne.symm]
      rw [same]
      exact congrArg _ (isOn_clearOwner other)

/-- Setting the owner changes nothing but the members and the recorded owner. -/
theorem setOwner_eq (owner : Option Nat)
    : channel.setOwner owner
      = { channel with
          ownerGUID := owner, playersStore := (channel.setOwner owner).playersStore } := by
  have cleared : channel.clearOwner
      = { channel with playersStore := channel.clearOwner.playersStore } := by
    unfold clearOwner
    split <;> rfl
  unfold setOwner
  rw [cleared]
  cases owner <;> rfl

/-- A picked owner is one of the members. -/
theorem mem_of_pickOwner {guids : List Nat} (picked : pickOwner around guids = some guid)
    : guid ∈ guids := by
  induction guids with
  | nil => cases picked
  | cons head rest ih =>
      unfold pickOwner at picked
      split at picked
      · exact Option.some.inj picked ▸ List.mem_cons_self
      · cases found : pickOwner around rest with
        | none =>
            rw [found] at picked
            exact Option.some.inj picked ▸ List.mem_cons_self
        | some other =>
            rw [found] at picked
            obtain rfl := Option.some.inj picked
            exact List.mem_cons_of_mem _ (ih found)

theorem isOn_of_pickOwner (picked : pickOwner around channel.playersStore.keys = some guid)
    : channel.isOn guid = true :=
  AList.lookup_isSome.mpr (AList.mem_keys.mp (mem_of_pickOwner picked))

-- The owner

def Flagged (channel : Channel) : Prop :=
  ∀ guid info, channel.playersStore.get? guid = some info → info.isOwner = true →
    channel.ownerGUID = some guid

/-- The recorded owner is a member with the owner's flag, and the only one. -/
structure OwnerHeld (channel : Channel) : Prop where
  flagged : channel.Flagged
  present
    : ∀ guid, channel.ownerGUID = some guid →
        ∃ info, channel.playersStore.get? guid = some info ∧ info.isOwner = true

/-- A change of a member that leaves its owner's flag as it is keeps the owner. -/
theorem OwnerHeld.changePlayer (held : channel.OwnerHeld) {change : PlayerInfo → PlayerInfo}
    (same
      : (change ((channel.playersStore.get? guid).getD {})).isOwner
        = ((channel.playersStore.get? guid).getD {}).isOwner)
    : (channel.changePlayer guid change).OwnerHeld where
  flagged := by
    intro other info found flag
    rw [get?_changePlayer] at found
    split at found
    · next here =>
        subst here
        obtain rfl := Option.some.inj found
        rw [same] at flag
        cases stored : channel.playersStore.get? other with
        | none => simp [stored] at flag
        | some info =>
            rw [stored] at flag
            exact held.flagged other info stored flag
    · exact held.flagged other info found flag
  present := by
    intro other owner
    obtain ⟨info, found, flag⟩ := held.present other owner
    rw [get?_changePlayer]
    split
    · next here =>
        subst here
        refine ⟨_, rfl, ?_⟩
        rw [same, found]
        exact flag
    · exact ⟨info, found, flag⟩

/-- A member who is not the owner goes. -/
theorem OwnerHeld.erasePlayer (held : channel.OwnerHeld) (other : channel.ownerGUID ≠ some guid)
    : (channel.erasePlayer guid).OwnerHeld where
  flagged := by
    intro member info found flag
    rw [get?_erasePlayer] at found
    split at found
    · cases found
    · exact held.flagged member info found flag
  present := by
    intro owner recorded
    have ne : owner ≠ guid := fun same => other (same ▸ recorded)
    obtain ⟨info, found, flag⟩ := held.present owner recorded
    exact ⟨info, by rw [get?_erasePlayer, if_neg ne, found], flag⟩

theorem Flagged.erasePlayer (flagged : channel.Flagged) : (channel.erasePlayer guid).Flagged := by
  intro member info found flag
  rw [get?_erasePlayer] at found
  split at found
  · cases found
  · exact flagged member info found flag

/-- Nobody has the owner's flag once that of the recorded owner is cleared. -/
theorem Flagged.clearOwner (flagged : channel.Flagged) {guid : Nat} {info : PlayerInfo}
    (found : channel.clearOwner.playersStore.get? guid = some info)
    : info.isOwner = false := by
  by_contra flag
  have flag : info.isOwner = true := by simpa using flag
  unfold Channel.clearOwner at found
  split at found
  · next old recorded =>
      dsimp only at found
      rw [Table.get?_modify] at found
      split at found
      · obtain ⟨before, -, rfl⟩ := Option.map_eq_some_iff.mp found
        cases flag
      · next ne =>
          exact ne (Option.some.inj (recorded.symm.trans (flagged guid info found flag))).symm
  · next recorded =>
      cases recorded.symm.trans (flagged guid info found flag)

/-- A new owner is recorded and flagged, whoever the owner was before. -/
theorem Flagged.setOwner (flagged : channel.Flagged) (owner : Option Nat)
    : (channel.setOwner owner).OwnerHeld := by
  have unflagged := @Flagged.clearOwner channel flagged
  cases owner with
  | none =>
      refine ⟨fun guid info found flag => ?_, fun guid recorded => nomatch recorded⟩
      rw [unflagged found] at flag
      cases flag
  | some owner =>
      refine ⟨fun guid info found flag => ?_, fun guid recorded => ?_⟩
      · replace found := (get?_changePlayer _ guid).symm.trans found
        split at found
        · next here => exact congrArg some here.symm
        · rw [unflagged found] at flag
          cases flag
      · obtain rfl := Option.some.inj recorded
        exact ⟨_, (get?_changePlayer _ owner).trans (if_pos rfl), rfl⟩

-- Requests

/-- The owner is held, no member is banned, and a built-in channel has no ownership. -/
structure Sound (around : Surroundings) (channel : Channel) : Prop extends OwnerHeld channel where
  custom : channel.ownership = true → channel.isConstant = false
  unbanned : ∀ guid, channel.isOn guid = true → channel.isBanned around guid = false

/-- A change of a player who is not banned. -/
theorem Sound.changePlayer (sound : channel.Sound around) {change : PlayerInfo → PlayerInfo}
    (same
      : (change ((channel.playersStore.get? guid).getD {})).isOwner
        = ((channel.playersStore.get? guid).getD {}).isOwner)
    (free : channel.isBanned around guid = false)
    : (channel.changePlayer guid change).Sound around where
  toOwnerHeld := sound.toOwnerHeld.changePlayer same
  custom := sound.custom
  unbanned := by
    intro other member
    rw [isOn_changePlayer, Bool.or_eq_true, decide_eq_true_eq] at member
    rcases member with rfl | member
    · exact free
    · exact sound.unbanned other member

/-- A new owner who is not banned. -/
theorem Sound.setOwner (flagged : channel.Flagged)
    (custom : channel.ownership = true → channel.isConstant = false)
    (unbanned : ∀ guid, channel.isOn guid = true → channel.isBanned around guid = false)
    {owner : Option Nat} (isOwnerGM : Bool)
    (free : ∀ guid, owner = some guid → channel.isBanned around guid = false)
    : ({ channel with isOwnerGM }.setOwner owner).Sound around where
  toOwnerHeld := @Flagged.setOwner { channel with isOwnerGM } flagged owner
  custom := by
    rw [setOwner_eq]
    exact custom
  unbanned := by
    intro other member
    unfold isBanned
    rw [setOwner_eq]
    rw [isOn_setOwner, Bool.or_eq_true, beq_iff_eq] at member
    exact member.elim (free other) (unbanned other)

/-- A ban that is lifted. -/
theorem Sound.removeBan (sound : channel.Sound around) (guid : Nat)
    : { channel with bannedStore := channel.bannedStore.remove guid }.Sound around where
  flagged := sound.flagged
  present := sound.present
  custom := sound.custom
  unbanned := by
    intro other member
    have free := sound.unbanned other member
    unfold isBanned at free ⊢
    rw [Table.get?_remove]
    split
    · rfl
    · exact free

structure SoundWith (around : Surroundings) (guid : Nat) (channel : Channel) : Prop
    extends Sound around channel where
  member : channel.isOn guid = true

/-- A change of a member that leaves the owner's flag alone. -/
theorem SoundWith.changePlayer (sound : channel.SoundWith around guid)
    {change : PlayerInfo → PlayerInfo} (same : ∀ info, (change info).isOwner = info.isOwner)
    : (channel.changePlayer guid change).SoundWith around guid where
  toSound := sound.toSound.changePlayer (same _) (sound.unbanned guid sound.member)
  member := by rw [isOn_changePlayer, decide_eq_true rfl, Bool.true_or]

theorem SoundWith.joinModerators (sound : channel.SoundWith around guid)
    : (channel.joinModerators around guid).SoundWith around guid := by
  unfold Channel.joinModerators
  split
  · exact sound.changePlayer (fun _ => rfl)
  · exact sound

theorem SoundWith.joinOwner (sound : channel.SoundWith around guid)
    : (channel.joinOwner around guid).SoundWith around guid := by
  unfold Channel.joinOwner
  split
  · refine ⟨Sound.setOwner sound.flagged sound.custom sound.unbanned _ (fun owner named => ?_), ?_⟩
    · exact Option.some.inj named ▸ sound.unbanned guid sound.member
    · rw [isOn_setOwner, beq_self_eq_true, Bool.true_or]
  · exact sound

/-- A player who joined may become a moderator, the owner and muted. -/
theorem SoundWith.handleCustom (sound : channel.SoundWith around guid)
    : (channel.handleCustom around guid).SoundWith around guid := by
  unfold Channel.handleCustom
  split
  · exact sound.joinModerators.joinOwner.changePlayer (fun _ => rfl)
  · exact sound.joinModerators.joinOwner

/-- A player who joins is not banned, and has no flag of the owner until it is the owner. -/
theorem Sound.joinChannel (sound : channel.Sound around) (pass : String)
    : (channel.joinChannel around guid pass).Sound around := by
  unfold Channel.joinChannel
  dsimp only
  split
  · exact sound
  · next absent =>
      split
      · exact sound
      · next free =>
          have none_ : channel.playersStore.get? guid = none := by simpa [isOn] using absent
          have joined := @Sound.changePlayer around channel guid sound
            (fun _ => { gmStatus := (around.info guid).isGM }) (by rw [none_]; rfl)
            (by simpa using free)
          split
          · exact sound
          · split
            · exact sound
            · split
              · exact joined
              · refine (SoundWith.handleCustom ⟨joined, ?_⟩).toSound
                rw [isOn_changePlayer, decide_eq_true rfl, Bool.true_or]

/-- The members whom a removal leaves are not banned, when it bans nobody else. -/
theorem Sound.unbanned_erasePlayer (sound : channel.Sound around) {bannedStore : Table Nat Nat}
    (bans
      : ∀ other, other ≠ guid → bannedStore.get? other = channel.bannedStore.get? other)
    (other : Nat) (member : ({ channel with bannedStore }.erasePlayer guid).isOn other = true)
    : other ≠ guid
      ∧ ({ channel with bannedStore }.erasePlayer guid).isBanned around other = false := by
  rw [isOn_erasePlayer, Bool.and_eq_true, Bool.not_eq_true', decide_eq_false_iff_not] at member
  refine ⟨member.1, ?_⟩
  have free := sound.unbanned other member.2
  unfold isBanned at free ⊢
  dsimp only [Channel.erasePlayer]
  rw [bans other member.1]
  exact free

/-- The owner who leaves a channel with ownership is replaced. -/
theorem Sound.leaveChannel (sound : channel.Sound around)
    (replaced : channel.ownership = true ∨ channel.ownerGUID ≠ some guid)
    : (channel.leaveChannel around guid).Sound around := by
  unfold Channel.leaveChannel
  split
  · exact sound
  · next info found =>
      have left := fun other member =>
        (@unbanned_erasePlayer around channel guid sound _ (fun _ _ => rfl) other member).2
      have flagged : (channel.erasePlayer guid).Flagged := sound.flagged.erasePlayer
      dsimp only
      split
      · split
        · next owner picked =>
            refine Sound.setOwner flagged sound.custom left _ (fun guid named => ?_)
            exact left guid (Option.some.inj named ▸ isOn_of_pickOwner picked)
        · exact Sound.setOwner flagged sound.custom left _ (fun guid named => nomatch named)
      · next kept =>
          refine ⟨sound.erasePlayer (fun owner => ?_), sound.custom, left⟩
          obtain ⟨info', found', flag⟩ := sound.present guid owner
          obtain rfl := Option.some.inj (found.symm.trans found')
          rcases replaced with owned | other
          · exact kept (by simp [owned, sound.custom owned, flag])
          · exact other owner

/-- The player who kicks or bans is on the channel. -/
theorem isOn_of_kickVictim {good victim : Nat} {badname : Option Nat} {ban : Bool}
    (picked : channel.kickVictim around good badname ban = some victim)
    : channel.isOn good = true := by
  unfold kickVictim at picked
  dsimp only at picked
  split at picked
  · cases picked
  · next member => simpa using member

/-- A ban changes the ban of its victim only. -/
theorem banVictim_eq (ban : Bool)
    : ∃ bannedStore : Table Nat Nat,
        (if ban then channel.banVictim around guid else channel) = { channel with bannedStore }
        ∧ ∀ other, other ≠ guid → bannedStore.get? other = channel.bannedStore.get? other := by
  unfold banVictim
  split
  · split
    · exact ⟨_, rfl, fun _ _ => rfl⟩
    · refine ⟨_, rfl, fun other ne => ?_⟩
      rw [Table.get?_put, if_neg ne]
  · exact ⟨_, rfl, fun _ _ => rfl⟩

/-- An owner who is kicked or banned is replaced by the player who does it, or by another member. -/
theorem Sound.kickOrBan (sound : channel.Sound around) {good : Nat} {badname : Option Nat}
    {ban : Bool}
    (replaced
      : channel.ownership = true
        ∨ ∀ victim, channel.kickVictim around good badname ban = some victim →
            channel.ownerGUID ≠ some victim)
    : (channel.kickOrBan around good badname ban).Sound around := by
  unfold Channel.kickOrBan
  split
  · exact sound
  · next victim picked =>
      obtain ⟨bannedStore, banned, bans⟩ := @banVictim_eq around channel victim ban
      have left := sound.unbanned_erasePlayer bans
      have flagged := @Flagged.erasePlayer { channel with bannedStore } victim sound.flagged
      rw [banned]
      dsimp only
      split
      · refine @Sound.setOwner around _ flagged sound.custom
          (fun other member => (left other member).2) _ _ (fun guid named => (left guid ?_).2)
        split at named
        · next ne =>
            obtain rfl := Option.some.inj named
            rw [isOn_erasePlayer, decide_eq_false ne]
            exact isOn_of_kickVictim picked
        · exact isOn_of_pickOwner named
      · next kept =>
          refine ⟨@OwnerHeld.erasePlayer { channel with bannedStore } victim
            ⟨sound.flagged, sound.present⟩ (fun owner => ?_), sound.custom,
            fun other member => (left other member).2⟩
          have owner : channel.ownerGUID = some victim := owner
          rcases replaced with owned | other
          · exact kept (by rw [owner, owned, beq_self_eq_true, Bool.true_and])
          · exact other victim picked owner

/-- An unban leaves fewer bans. -/
theorem Sound.unBanGuid (sound : channel.Sound around)
    : (channel.unBanGuid around guid).Sound around := by
  unfold Channel.unBanGuid
  split
  · exact sound.removeBan guid
  · exact sound

theorem Sound.unBan (sound : channel.Sound around) (good : Nat) (badname : Option Nat)
    : (channel.unBan around good badname).Sound around := by
  unfold Channel.unBan
  dsimp only
  split
  · exact sound
  · split
    · exact sound
    · split
      · next victim =>
          split
          · exact sound
          · split
            · exact sound
            · exact sound.removeBan victim
      · exact sound

theorem Sound.setPassword (sound : channel.Sound around) (pass : String)
    : (channel.setPassword around guid pass).Sound around := by
  unfold Channel.setPassword
  split
  · exact sound
  · split
    · exact sound
    · split
      · exact sound
      · exact ⟨⟨sound.flagged, sound.present⟩, sound.custom, sound.unbanned⟩

theorem Sound.toggleAnnounce (sound : channel.Sound around)
    : (channel.toggleAnnounce around guid).Sound around := by
  unfold Channel.toggleAnnounce
  split
  · exact sound
  · split
    · exact sound
    · split
      · exact sound
      · exact ⟨⟨sound.flagged, sound.present⟩, sound.custom, sound.unbanned⟩

/-- A mode is set for a member. -/
theorem Sound.setMode (sound : channel.Sound around) (p2n : Option Nat) (mod set : Bool)
    : (channel.setMode around guid p2n mod set).Sound around := by
  unfold Channel.setMode
  dsimp only
  split
  · exact sound
  · split
    · exact sound
    · split
      · exact sound
      · split
        · exact sound
        · next victim _ =>
            split
            · exact sound
            · next found =>
                have member : channel.isOn victim = true := by
                  rw [Bool.or_eq_true, not_or] at found
                  simpa using found.1
                have changed (change : PlayerInfo → PlayerInfo)
                    (same : ∀ info, (change info).isOwner = info.isOwner)
                    : (channel.changePlayer victim change).Sound around :=
                  sound.changePlayer (same _) (sound.unbanned victim member)
                split
                · exact sound
                · split
                  · split
                    · exact sound
                    · exact changed _ (fun _ => rfl)
                  · split
                    · exact sound
                    · exact changed _ (fun _ => rfl)

/-- An owner who is named is on the channel. -/
theorem Sound.setOwnerByName (sound : channel.Sound around) (newname : Option Nat)
    : (channel.setOwnerByName around guid newname).Sound around := by
  unfold Channel.setOwnerByName
  dsimp only
  split
  · exact sound
  · split
    · exact sound
    · split
      · exact sound
      · next victim _ =>
          split
          · exact sound
          · next found =>
              have member : channel.isOn victim = true := by
                rw [Bool.or_eq_true, not_or] at found
                simpa using found.1
              refine Sound.setOwner sound.flagged sound.custom sound.unbanned channel.isOwnerGM
                (fun guid named => ?_)
              exact Option.some.inj named ▸ sound.unbanned victim member

/-- As time passes, fewer players are banned. -/
theorem Sound.later (sound : channel.Sound around) {later : Surroundings}
    (passes : around.now ≤ later.now)
    : channel.Sound later where
  toOwnerHeld := sound.toOwnerHeld
  custom := sound.custom
  unbanned := by
    intro guid member
    have free := sound.unbanned guid member
    unfold isBanned at free ⊢
    cases found : channel.bannedStore.get? guid with
    | none => rfl
    | some time =>
        rw [found, Option.any_some, decide_eq_false_iff_not] at free
        rw [Option.any_some, decide_eq_false_iff_not]
        omega

end Channel

-- Runs

namespace World

def clock (world : World) : Surroundings where
  now := world.now

/-- The recorded owner is on the channel and the only member with the owner's flag, and no member is
banned.
-/
structure Accounted (world : World) : Prop where
  owner
    : ∀ guid, world.channel.ownerGUID = some guid →
        ∃ info, world.channel.playersStore.get? guid = some info ∧ info.isOwner = true
          ∧ ∀ other info', world.channel.playersStore.get? other = some info' →
              info'.isOwner = true → other = guid
  unbanned
    : ∀ guid, world.channel.isOn guid = true →
        world.channel.isBanned world.clock guid = false

/-- The recorded owner is not removed from a channel without ownership. -/
def KeepsOwner (world : World) (turn : Turn) : Prop :=
  world.channel.ownership = true ∨
  match turn.request with
  | .logout guid => world.channel.ownerGUID ≠ some guid
  | .leaveChannel guid => world.channel.ownerGUID ≠ some guid
  | .kickOrBan good badname ban =>
      ∀ victim, world.channel.kickVictim (world.around turn) good badname ban = some victim →
        world.channel.ownerGUID ≠ some victim
  | _ => True

def Sound (world : World) : Prop := world.channel.Sound world.clock

/-- One request keeps a sound channel sound, unless the owner is lost. -/
theorem sound_step {world : World} {turn : Turn} (sound : world.Sound)
    (keeps : world.KeepsOwner turn)
    : (world.step turn).Sound := by
  have before : world.channel.Sound (world.around turn) :=
    Channel.Sound.later sound (Nat.le_add_right _ _)
  have after : (world.handle turn).Sound (world.around turn) := by
    unfold handle
    unfold KeepsOwner at keeps
    dsimp only
    cases request : turn.request with
    | login guid => exact before
    | logout guid => exact before.leaveChannel (by simpa [request] using keeps)
    | joinChannel guid pass =>
        dsimp only
        split
        · exact before.joinChannel pass
        · exact before
    | leaveChannel guid => exact before.leaveChannel (by simpa [request] using keeps)
    | kickOrBan good badname ban => exact before.kickOrBan (by simpa [request] using keeps)
    | unBan good badname => exact before.unBan good badname
    | unBanGuid guid => exact before.unBanGuid
    | setPassword guid pass => exact before.setPassword pass
    | setMode guid p2n mod set => exact before.setMode p2n mod set
    | setOwner guid newname => exact before.setOwnerByName newname
    | toggleAnnounce guid => exact before.toggleAnnounce
  exact after.later (le_refl _)

/-- A new channel has no members. -/
theorem sound_start (origin : Origin) (announce ownership : Bool) (password : String)
    (bannedStore : Table Nat Nat) (now : Nat)
    : (start origin announce ownership password bannedStore now).Sound := by
  have custom : (Channel.new origin announce ownership).ownership = true →
      (Channel.new origin announce ownership).isConstant = false := by
    cases origin with
    | builtIn isLFG => exact fun owned => (nomatch owned)
    | custom rights => exact fun _ => rfl
  cases origin with
  | builtIn isLFG =>
      exact ⟨⟨fun guid info found => (nomatch found), fun guid owner => (nomatch owner)⟩, custom,
        fun guid member => (nomatch member)⟩
  | custom rights =>
      exact ⟨⟨fun guid info found => (nomatch found), fun guid owner => (nomatch owner)⟩, custom,
        fun guid member => (nomatch member)⟩

theorem Sound.accounted {world : World} (sound : world.Sound) : world.Accounted where
  owner := by
    intro guid owner
    obtain ⟨info, found, flag⟩ := sound.present guid owner
    refine ⟨info, found, flag, fun other info' found' flag' => ?_⟩
    exact Option.some.inj ((sound.flagged other info' found' flag').symm.trans owner)
  unbanned := sound.unbanned

/-- A recorded owner who was erased is missing. -/
theorem not_accounted_of_erased {world : World} {channel : Channel} {guid : Nat}
    (owner : channel.ownerGUID = some guid) (state : world.channel = channel.erasePlayer guid)
    : ¬ world.Accounted := by
  intro accounted
  obtain ⟨info, found, -⟩ := accounted.owner guid (by rw [state]; exact owner)
  rw [state, Channel.get?_erasePlayer, if_pos rfl] at found
  cases found

/-- An owner who is removed stays the recorded owner of a channel without ownership. -/
theorem not_accounted_of_lost {world : World} {turn : Turn} (sound : world.Sound)
    (lost : ¬ world.KeepsOwner turn)
    : ¬ (world.step turn).Accounted := by
  unfold KeepsOwner at lost
  rw [not_or, Bool.not_eq_true] at lost
  obtain ⟨unowned, removed⟩ := lost
  have leaves (guid : Nat) (owner : world.channel.ownerGUID = some guid)
      : world.channel.leaveChannel (world.around turn) guid = world.channel.erasePlayer guid := by
    obtain ⟨info, found, -⟩ := sound.present guid owner
    simp [Channel.leaveChannel, found, unowned]
  cases request : turn.request with
  | logout guid =>
      have owner : world.channel.ownerGUID = some guid := by simpa [request] using removed
      refine not_accounted_of_erased owner ?_
      simp only [step, handle, request, leaves guid owner]
  | leaveChannel guid =>
      have owner : world.channel.ownerGUID = some guid := by simpa [request] using removed
      refine not_accounted_of_erased owner ?_
      simp only [step, handle, request, leaves guid owner]
  | kickOrBan good badname ban =>
      simp only [request, not_forall, not_not] at removed
      obtain ⟨victim, picked, owner⟩ := removed
      obtain ⟨bannedStore, banned, -⟩ := @Channel.banVictim_eq (world.around turn) world.channel
        victim ban
      have kept : { world.channel with bannedStore }.ownerGUID = some victim := owner
      refine not_accounted_of_erased kept ?_
      simp only [step, handle, request, Channel.kickOrBan, picked, banned, unowned, Bool.and_false]
      rfl
  | login | joinChannel | unBan | unBanGuid | setPassword | setMode | setOwner | toggleAnnounce =>
      simp [request] at removed

/-- The owner is accounted for and nobody on the channel is banned in every state of a run in which
a channel without ownership does not lose its recorded owner.
-/
theorem owner_accounted_while_kept (origin : Origin) (announce ownership : Bool)
    (password : String) (bannedStore : Table Nat Nat) (now : Nat) (turns : List Turn)
    (keeps
      : EachStep step KeepsOwner (start origin announce ownership password bannedStore now) turns)
    : EachState step Accounted (start origin announce ownership password bannedStore now) turns :=
  (Foundation.Runs.eachState_of_invariant (fun _ _ => sound_step)
    (sound_start origin announce ownership password bannedStore now) keeps).imp
    (fun _ => Sound.accounted)

/-- A game master and a player on a channel without ownership, whose owner the player becomes and
then leaves.
-/
def abandoned : List Turn :=
  let info := fun guid => if guid = 1 then { security := 6 } else ({} : PlayerData)
  [{ info, request := .login 1 }, { info, request := .login 2 },
    { info, request := .joinChannel 1 "" }, { info, request := .joinChannel 2 "" },
    { info, request := .setOwner 1 (some 2) }, { info, request := .leaveChannel 2 }]

/-- Until the player leaves, the owner is accounted for. -/
theorem owner_accounted_while_kept_applied
    : EachState step Accounted
        (start (.custom { noOwnership := true }) true true "" ∅ 0) (abandoned.take 5) :=
  owner_accounted_while_kept (.custom { noOwnership := true }) true true "" ∅ 0 (abandoned.take 5)
    ⟨Or.inr trivial, Or.inr trivial, Or.inr trivial, Or.inr trivial, Or.inr trivial, trivial⟩

/-- The player who left is still the recorded owner. -/
theorem owner_stays_recorded
    : ¬ ∀ origin announce ownership password bannedStore now turns,
        EachState step Accounted (start origin announce ownership password bannedStore now)
          turns := by
  intro law
  have last := (law (.custom { noOwnership := true }) true true "" ∅ 0 abandoned).last
  obtain ⟨info, found, -⟩ := last.owner 2 (by decide +kernel)
  have gone : (Foundation.Runs.run step (start (.custom { noOwnership := true }) true true "" ∅ 0)
      abandoned).channel.isOn 2 = false := by decide +kernel
  rw [Channel.isOn, found] at gone
  cases gone

end World

end WarheadCore.Chat
