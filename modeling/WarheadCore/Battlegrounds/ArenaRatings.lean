import WarheadCore.Foundation.Runs

/-! The ratings of an arena team and of its members, which matches change.
Ratings are unsigned numbers of 16 bits. A change is checked against 0 only, so that a rating which
would exceed 65535 starts from 0 again.
-/

namespace WarheadCore.Battlegrounds.ArenaTeams

open Foundation.Runs

-- Members and teams

structure RatedMember where
  guid : Nat
  weekGames : UInt16 := 0
  weekWins : UInt16 := 0
  seasonGames : UInt16 := 0
  seasonWins : UInt16 := 0
  personalRating : UInt16
  matchMakerRating : UInt16
  maxMMR : UInt16

structure ArenaTeamStats where
  rating : UInt16
  weekGames : UInt16 := 0
  weekWins : UInt16 := 0
  seasonGames : UInt16 := 0
  seasonWins : UInt16 := 0
  rank : Nat := 0

structure RatedTeam where
  stats : ArenaTeamStats
  members : List RatedMember

def modifyRating (rating : UInt16) (mod : Int) : UInt16 :=
  if (rating.toNat : Int) + mod < 0 then 0 else UInt16.ofNat ((rating.toNat : Int) + mod).toNat

namespace RatedMember

def modifyPersonalRating (member : RatedMember) (mod : Int) : RatedMember :=
  { member with personalRating := modifyRating member.personalRating mod }

/-- How much a loss may take: not more than leaves the configured drop from the best rating. -/
def allowedDrop (maxAllowedDrop : Int) (member : RatedMember) (mod : Int) : Int :=
  min (max (-((member.matchMakerRating.toNat : Int) - member.maxMMR.toNat + maxAllowedDrop)) mod) 0

def modifyMatchmakerRating (maxAllowedDrop : Int) (member : RatedMember) (mod : Int)
    : RatedMember :=
  let mod := if mod < 0 then member.allowedDrop maxAllowedDrop mod else mod
  let matchMakerRating := modifyRating member.matchMakerRating mod
  { member with
    matchMakerRating
    maxMMR := if matchMakerRating > member.maxMMR then matchMakerRating else member.maxMMR }

def lose (maxAllowedDrop : Int) (member : RatedMember) (mod matchmakerRatingChange : Int)
    : RatedMember :=
  let rated := (member.modifyPersonalRating mod).modifyMatchmakerRating maxAllowedDrop
    matchmakerRatingChange
  { rated with
    weekGames := rated.weekGames + 1
    seasonGames := rated.seasonGames + 1 }

/-- A member who won; his matchmaker rating is not lifted over the team's rating. -/
def win (maxAllowedDrop : Int) (teamRating : UInt16) (member : RatedMember)
    (mod matchmakerRatingChange : Int)
    : RatedMember :=
  let rated := member.modifyPersonalRating mod
  let rated :=
    if rated.matchMakerRating < teamRating then
      rated.modifyMatchmakerRating maxAllowedDrop
        (min matchmakerRatingChange
          ((teamRating.toNat : Int) - rated.matchMakerRating.toNat))
    else rated
  { rated with
    weekGames := rated.weekGames + 1
    seasonGames := rated.seasonGames + 1
    seasonWins := rated.seasonWins + 1
    weekWins := rated.weekWins + 1 }

end RatedMember

def modifyMember (guid : Nat) (change : RatedMember → RatedMember)
    : List RatedMember → List RatedMember
  | [] => []
  | member :: rest =>
      if member.guid = guid then change member :: rest
      else member :: modifyMember guid change rest

namespace RatedTeam

def member? (team : RatedTeam) (guid : Nat) : Option RatedMember :=
  team.members.find? (fun member => member.guid = guid)

/-- `ArenaTeam::FinishGame`, with the ratings of the registered teams of the type. -/
def finishGame (team : RatedTeam) (mod : Int) (ratings : List UInt16) : RatedTeam :=
  let rating := modifyRating team.stats.rating mod
  { team with stats := { team.stats with
      rating
      weekGames := team.stats.weekGames + 1
      seasonGames := team.stats.seasonGames + 1
      rank := 1 + ratings.countP (· > rating) } }

def wonAgainst (team : RatedTeam) (ratingChange : Int) (ratings : List UInt16) : RatedTeam :=
  let finished := team.finishGame ratingChange ratings
  { finished with stats := { finished.stats with
      weekWins := finished.stats.weekWins + 1
      seasonWins := finished.stats.seasonWins + 1 } }

def lostAgainst (team : RatedTeam) (ratingChange : Int) (ratings : List UInt16) : RatedTeam :=
  team.finishGame ratingChange ratings

def memberLost (maxAllowedDrop : Int) (team : RatedTeam) (guid : Nat)
    (mod matchmakerRatingChange : Int)
    : RatedTeam :=
  { team with
    members := modifyMember guid
      (fun member => member.lose maxAllowedDrop mod matchmakerRatingChange) team.members }

def memberWon (maxAllowedDrop : Int) (team : RatedTeam) (guid : Nat)
    (mod matchmakerRatingChange : Int)
    : RatedTeam :=
  { team with
    members := modifyMember guid
      (fun member => member.win maxAllowedDrop team.stats.rating mod matchmakerRatingChange)
      team.members }

end RatedTeam

/-- What matches do to a team, with the changes that were computed for them. A member who left the
queue or the arena lost as well.
-/
inductive RatingAction where
  | finishGame (mod : Int) (ratings : List UInt16)
  | wonAgainst (ratingChange : Int) (ratings : List UInt16)
  | lostAgainst (ratingChange : Int) (ratings : List UInt16)
  | memberWon (guid : Nat) (mod matchmakerRatingChange : Int)
  | memberLost (guid : Nat) (mod matchmakerRatingChange : Int)

def ratingStep (maxAllowedDrop : Int) (team : RatedTeam) : RatingAction → RatedTeam
  | .finishGame mod ratings => team.finishGame mod ratings
  | .wonAgainst ratingChange ratings => team.wonAgainst ratingChange ratings
  | .lostAgainst ratingChange ratings => team.lostAgainst ratingChange ratings
  | .memberWon guid mod change => team.memberWon maxAllowedDrop guid mod change
  | .memberLost guid mod change => team.memberLost maxAllowedDrop guid mod change

-- Laws of ratings

/-- A rating after a change: what they add up to, or 0 where this is negative. -/
def NoWrap (before : UInt16) (mod : Int) (after : UInt16) : Prop :=
  (after.toNat : Int) = max 0 ((before.toNat : Int) + mod)

/-- A win: the personal rating does not wrap, and the matchmaker rating follows the sign of its
change and is not lifted over the team's rating.
-/
structure WinLaw (teamRating : UInt16) (mod matchmakerRatingChange : Int)
    (member after : RatedMember)
    : Prop where
  personal : NoWrap member.personalRating mod after.personalRating
  raised : 0 ≤ matchmakerRatingChange → member.matchMakerRating ≤ after.matchMakerRating
  lowered : matchmakerRatingChange ≤ 0 → after.matchMakerRating ≤ member.matchMakerRating
  capped
    : after.matchMakerRating.toNat ≤ max member.matchMakerRating.toNat teamRating.toNat

/-- A loss: the personal rating does not wrap, nor does a matchmaker rating that is raised; a lowered
one stays within the allowed drop from the best one.
-/
structure LossLaw (maxAllowedDrop mod matchmakerRatingChange : Int) (member after : RatedMember)
    : Prop where
  personal : NoWrap member.personalRating mod after.personalRating
  raised
    : 0 ≤ matchmakerRatingChange
        → NoWrap member.matchMakerRating matchmakerRatingChange after.matchMakerRating
  lowered : matchmakerRatingChange ≤ 0 → after.matchMakerRating ≤ member.matchMakerRating
  dropped
    : min (member.matchMakerRating.toNat : Int) (member.maxMMR.toNat - maxAllowedDrop)
        ≤ after.matchMakerRating.toNat

def RatingLaw (maxAllowedDrop : Int) (team : RatedTeam) (action : RatingAction)
    (after : RatedTeam)
    : Prop :=
  match action with
  | .finishGame mod _ => NoWrap team.stats.rating mod after.stats.rating
  | .wonAgainst ratingChange _ => NoWrap team.stats.rating ratingChange after.stats.rating
  | .lostAgainst ratingChange _ => NoWrap team.stats.rating ratingChange after.stats.rating
  | .memberWon guid mod change =>
      ∀ member, team.member? guid = some member
        → ∃ changed, after.member? guid = some changed
          ∧ WinLaw team.stats.rating mod change member changed
  | .memberLost guid mod change =>
      ∀ member, team.member? guid = some member
        → ∃ changed, after.member? guid = some changed
          ∧ LossLaw maxAllowedDrop mod change member changed

/-- The changes of a step lift no rating over 65535; for a win the matchmaker rating is no matter. -/
def RatingAction.Fits (team : RatedTeam) : RatingAction → Prop
  | .finishGame mod _ => (team.stats.rating.toNat : Int) + mod ≤ 65535
  | .wonAgainst ratingChange _ => (team.stats.rating.toNat : Int) + ratingChange ≤ 65535
  | .lostAgainst ratingChange _ => (team.stats.rating.toNat : Int) + ratingChange ≤ 65535
  | .memberWon guid mod _ =>
      ∀ member, team.member? guid = some member
        → (member.personalRating.toNat : Int) + mod ≤ 65535
  | .memberLost guid mod change =>
      ∀ member, team.member? guid = some member
        → (member.personalRating.toNat : Int) + mod ≤ 65535
          ∧ (member.matchMakerRating.toNat : Int) + change ≤ 65535

/-- The best matchmaker rating of a member is not below the current one. -/
def RatedMember.Tracked (member : RatedMember) : Prop := member.matchMakerRating ≤ member.maxMMR

def RatedTeam.Tracked (team : RatedTeam) : Prop := ∀ member ∈ team.members, member.Tracked

-- One rating

theorem toNat_modifyRating (rating : UInt16) (mod : Int)
    : ((modifyRating rating mod).toNat : Int)
      = if (rating.toNat : Int) + mod < 0 then 0 else ((rating.toNat : Int) + mod) % 65536 := by
  unfold modifyRating
  split
  · rfl
  · rw [UInt16.toNat_ofNat']
    omega

theorem noWrap_iff (rating : UInt16) (mod : Int)
    : NoWrap rating mod (modifyRating rating mod) ↔ (rating.toNat : Int) + mod ≤ 65535 := by
  unfold NoWrap
  rw [toNat_modifyRating]
  have range := rating.toNat_lt
  split <;> omega

variable {maxAllowedDrop : Int} {member : RatedMember} {team : RatedTeam}

/-- The best rating is at least the new one. -/
theorem RatedMember.tracked_modifyMatchmakerRating (member : RatedMember) (mod : Int)
    : (member.modifyMatchmakerRating maxAllowedDrop mod).Tracked := by
  unfold RatedMember.modifyMatchmakerRating RatedMember.Tracked
  dsimp only
  generalize modifyRating _ _ = rating
  split
  · exact UInt16.le_refl rating
  · next notAbove => exact UInt16.not_lt.mp notAbove

/-- A change that is not negative is made as it is. -/
theorem RatedMember.raise_matchMakerRating (maxAllowedDrop : Int) (member : RatedMember)
    {mod : Int} (nonneg : 0 ≤ mod)
    : (member.modifyMatchmakerRating maxAllowedDrop mod).matchMakerRating
      = modifyRating member.matchMakerRating mod := by
  unfold RatedMember.modifyMatchmakerRating
  dsimp only
  rw [if_neg (Int.not_lt.mpr nonneg)]

/-- A negative change lowers the rating, but not beyond the allowed drop. -/
theorem RatedMember.lower_matchMakerRating (maxAllowedDrop : Int) (member : RatedMember)
    {mod : Int} (negative : mod < 0)
    : let after := (member.modifyMatchmakerRating maxAllowedDrop mod).matchMakerRating
      after ≤ member.matchMakerRating
        ∧ min (member.matchMakerRating.toNat : Int) (member.maxMMR.toNat - maxAllowedDrop)
          ≤ after.toNat := by
  unfold RatedMember.modifyMatchmakerRating
  dsimp only
  rw [if_pos negative, UInt16.le_iff_toNat_le]
  have exact_ := toNat_modifyRating member.matchMakerRating
    (member.allowedDrop maxAllowedDrop mod)
  have range := member.matchMakerRating.toNat_lt
  unfold RatedMember.allowedDrop at exact_ ⊢
  split at exact_ <;> omega

-- Wins and losses

/-- A win changes the matchmaker rating below the team's rating only, and not beyond it. -/
theorem RatedMember.win_matchMakerRating (teamRating : UInt16) (mod change : Int)
    : (member.win maxAllowedDrop teamRating mod change).matchMakerRating
      = if member.matchMakerRating < teamRating then
          (member.modifyMatchmakerRating maxAllowedDrop
            (min change ((teamRating.toNat : Int) - member.matchMakerRating.toNat))).matchMakerRating
        else member.matchMakerRating := by
  unfold RatedMember.win RatedMember.modifyPersonalRating
  dsimp only
  split <;> rfl

/-- The part of the law of wins that holds of all changes. -/
theorem RatedMember.win_within (maxAllowedDrop : Int) (member : RatedMember)
    (teamRating : UInt16) (mod change : Int)
    : let after := (member.win maxAllowedDrop teamRating mod change).matchMakerRating
      (0 ≤ change → member.matchMakerRating ≤ after)
        ∧ (change ≤ 0 → after ≤ member.matchMakerRating)
        ∧ after.toNat ≤ max member.matchMakerRating.toNat teamRating.toNat := by
  dsimp only
  rw [RatedMember.win_matchMakerRating]
  have range := teamRating.toNat_lt
  split
  · next below =>
      generalize capped : min change ((teamRating.toNat : Int) - member.matchMakerRating.toNat)
        = applied
      rw [UInt16.lt_iff_toNat_lt] at below
      rw [UInt16.le_iff_toNat_le, UInt16.le_iff_toNat_le]
      by_cases negative : applied < 0
      · have lower := (member.lower_matchMakerRating maxAllowedDrop negative).1
        rw [UInt16.le_iff_toNat_le] at lower
        exact ⟨fun nonneg => by omega, fun _ => lower, by omega⟩
      · rw [member.raise_matchMakerRating maxAllowedDrop (Int.not_lt.mp negative)]
        have exact_ := toNat_modifyRating member.matchMakerRating applied
        rw [if_neg (by omega)] at exact_
        exact ⟨fun _ => by omega, fun _ => by omega, by omega⟩
  · exact ⟨fun _ => UInt16.le_refl _, fun _ => UInt16.le_refl _, Nat.le_max_left _ _⟩

/-- A win obeys its law if and only if the personal rating does not exceed 65535. -/
theorem RatedMember.winLaw_iff (teamRating : UInt16) (mod change : Int)
    : WinLaw teamRating mod change member (member.win maxAllowedDrop teamRating mod change)
      ↔ (member.personalRating.toNat : Int) + mod ≤ 65535 := by
  have personal : (member.win maxAllowedDrop teamRating mod change).personalRating
      = modifyRating member.personalRating mod := by
    unfold RatedMember.win
    dsimp only
    split <;> rfl
  obtain ⟨raised, lowered, capped⟩ := member.win_within maxAllowedDrop teamRating mod change
  rw [← noWrap_iff, ← personal]
  exact ⟨fun law => law.personal, fun kept => ⟨kept, raised, lowered, capped⟩⟩

/-- A loss obeys its law if and only if neither rating exceeds 65535. -/
theorem RatedMember.lossLaw_iff (mod change : Int)
    : LossLaw maxAllowedDrop mod change member (member.lose maxAllowedDrop mod change)
      ↔ (member.personalRating.toNat : Int) + mod ≤ 65535
        ∧ (member.matchMakerRating.toNat : Int) + change ≤ 65535 := by
  have range := member.matchMakerRating.toNat_lt
  rw [← noWrap_iff]
  by_cases negative : change < 0
  · obtain ⟨lowered, dropped⟩ :=
      (member.modifyPersonalRating mod).lower_matchMakerRating maxAllowedDrop negative
    constructor
    · exact fun law => ⟨law.personal, by omega⟩
    · exact fun kept => ⟨kept.1, fun nonneg => by omega, fun _ => lowered, dropped⟩
  · have after : (member.lose maxAllowedDrop mod change).matchMakerRating
        = modifyRating member.matchMakerRating change :=
      (member.modifyPersonalRating mod).raise_matchMakerRating maxAllowedDrop
        (Int.not_lt.mp negative)
    rw [← noWrap_iff, ← after]
    constructor
    · exact fun law => ⟨law.personal, law.raised (Int.not_lt.mp negative)⟩
    · rintro ⟨personal, raised⟩
      refine ⟨personal, fun _ => raised, fun nonpos => ?_, ?_⟩
      · rw [UInt16.le_iff_toNat_le]
        unfold NoWrap at raised
        omega
      · unfold NoWrap at raised
        omega

-- Runs

/-- The member with a guid after the loop for him. -/
theorem find?_modifyMember {guid : Nat} {change : RatedMember → RatedMember}
    (kept : ∀ member, (change member).guid = member.guid) (members : List RatedMember)
    : (modifyMember guid change members).find? (fun member => member.guid = guid)
      = (members.find? (fun member => member.guid = guid)).map change := by
  induction members with
  | nil => rfl
  | cons member rest ih =>
      unfold modifyMember
      split
      · next here => simp [here, kept]
      · next other => simp [other, ih]

theorem forall_modifyMember {guid : Nat} {change : RatedMember → RatedMember}
    {good : RatedMember → Prop} (changed : ∀ member, good member → good (change member))
    {members : List RatedMember} (all : ∀ member ∈ members, good member)
    : ∀ member ∈ modifyMember guid change members, good member := by
  induction members with
  | nil => exact all
  | cons member rest ih =>
      obtain ⟨first, later⟩ := List.forall_mem_cons.mp all
      unfold modifyMember
      split
      · exact List.forall_mem_cons.mpr ⟨changed member first, later⟩
      · exact List.forall_mem_cons.mpr ⟨first, ih later⟩

theorem RatedMember.tracked_lose (member : RatedMember) (mod change : Int)
    : (member.lose maxAllowedDrop mod change).Tracked :=
  (member.modifyPersonalRating mod).tracked_modifyMatchmakerRating change

theorem RatedMember.tracked_win (tracked : member.Tracked) (teamRating : UInt16)
    (mod change : Int)
    : (member.win maxAllowedDrop teamRating mod change).Tracked := by
  unfold RatedMember.win
  dsimp only
  split
  · exact (member.modifyPersonalRating mod).tracked_modifyMatchmakerRating _
  · exact tracked

/-- One step keeps the best ratings. -/
theorem tracked_ratingStep (tracked : team.Tracked) (action : RatingAction)
    : (ratingStep maxAllowedDrop team action).Tracked := by
  cases action with
  | finishGame mod ratings => exact tracked
  | wonAgainst ratingChange ratings => exact tracked
  | lostAgainst ratingChange ratings => exact tracked
  | memberLost guid mod change =>
      exact forall_modifyMember (fun member _ => member.tracked_lose mod change) tracked
  | memberWon guid mod change =>
      exact forall_modifyMember
        (fun member tracked => RatedMember.tracked_win tracked team.stats.rating mod change) tracked

/-- What is asked of a member after a step, when the step changes him. -/
theorem member_law_iff {guid : Nat} {change : RatedMember → RatedMember}
    (kept : ∀ member, (change member).guid = member.guid)
    {P : RatedMember → RatedMember → Prop} {Q : RatedMember → Prop}
    (exact_ : ∀ member, P member (change member) ↔ Q member)
    : (∀ member, team.member? guid = some member
          → ∃ changed,
              ({ team with members := modifyMember guid change team.members } : RatedTeam).member? guid
                = some changed
              ∧ P member changed)
        ↔ ∀ member, team.member? guid = some member → Q member := by
  refine forall_congr' (fun member => imp_congr_right (fun found => ?_))
  have after : ({ team with members := modifyMember guid change team.members } : RatedTeam).member?
      guid = some (change member) := by
    unfold RatedTeam.member? at found ⊢
    rw [find?_modifyMember kept, found]
    rfl
  rw [after, ← exact_]
  exact ⟨fun ⟨changed, same, holds⟩ => Option.some.inj same ▸ holds, fun holds => ⟨_, rfl, holds⟩⟩

/-- One step obeys the law of ratings if and only if no rating exceeds 65535. -/
theorem ratingLaw_iff (action : RatingAction)
    : RatingLaw maxAllowedDrop team action (ratingStep maxAllowedDrop team action)
      ↔ action.Fits team := by
  cases action with
  | finishGame mod ratings => exact noWrap_iff team.stats.rating mod
  | wonAgainst ratingChange ratings => exact noWrap_iff team.stats.rating ratingChange
  | lostAgainst ratingChange ratings => exact noWrap_iff team.stats.rating ratingChange
  | memberWon guid mod change =>
      refine member_law_iff (P := WinLaw team.stats.rating mod change) (fun member => ?_)
        (fun member => member.winLaw_iff team.stats.rating mod change)
      unfold RatedMember.win
      dsimp only
      split <;> rfl
  | memberLost guid mod change =>
      have kept (member : RatedMember)
          : (member.lose maxAllowedDrop mod change).guid = member.guid :=
        rfl
      exact member_law_iff (P := LossLaw maxAllowedDrop mod change) kept
        (fun member => member.lossLaw_iff mod change)

/-- The best ratings are kept in every run, and every step obeys the law of ratings if and only if no
change lifts a rating over 65535.
-/
theorem ratings_are_bounded_iff (maxAllowedDrop : Int) (team : RatedTeam) (tracked : team.Tracked)
    (actions : List RatingAction)
    : EachState (ratingStep maxAllowedDrop) RatedTeam.Tracked team actions
      ∧ (EachStep (ratingStep maxAllowedDrop) (fun team action =>
            RatingLaw maxAllowedDrop team action (ratingStep maxAllowedDrop team action))
          team actions
        ↔ EachStep (ratingStep maxAllowedDrop) (fun team action => action.Fits team)
          team actions) := by
  have preserved (team : RatedTeam) (action : RatingAction) (tracked : team.Tracked) (_ : True)
      : (ratingStep maxAllowedDrop team action).Tracked :=
    tracked_ratingStep tracked action
  have free : EachStep (ratingStep maxAllowedDrop) (fun _ _ => True) team actions :=
    eachStep_of_forall (fun _ _ => trivial) team actions
  exact ⟨eachState_of_invariant preserved tracked free,
    eachStep_congr_of_invariant preserved (fun _ action _ _ => ratingLaw_iff action) tracked free⟩

/-- A team with one member, whose ratings are as high as they can be. -/
def bestTeam : RatedTeam where
  stats := { rating := 1500 }
  members := [{ guid := 1, personalRating := 65535, matchMakerRating := 65535, maxMMR := 65535 }]

theorem bestTeam_tracked : bestTeam.Tracked := by
  unfold RatedTeam.Tracked RatedMember.Tracked bestTeam
  decide

theorem ratings_are_bounded_iff_applied
    : EachState (ratingStep 500) RatedTeam.Tracked bestTeam [.memberLost 1 (-12) (-12)]
      ∧ (EachStep (ratingStep 500) (fun team action =>
            RatingLaw 500 team action (ratingStep 500 team action))
          bestTeam [.memberLost 1 (-12) (-12)]
        ↔ EachStep (ratingStep 500) (fun team action => action.Fits team)
          bestTeam [.memberLost 1 (-12) (-12)]) :=
  ratings_are_bounded_iff 500 bestTeam bestTeam_tracked [.memberLost 1 (-12) (-12)]

/-- A win takes the personal rating from 65535 to 0; a loss with a matchmaker rating that is raised by
one takes that from 65535 to 0, although a drop of 500 is allowed.
-/
theorem ratings_start_again
    : ((ratingStep 500 bestTeam (.memberWon 1 1 0)).member? 1).map (·.personalRating) = some 0
      ∧ ((ratingStep 500 bestTeam (.memberLost 1 0 1)).member? 1).map (·.matchMakerRating) = some 0
      ∧ ¬ RatingLaw 500 bestTeam (.memberWon 1 1 0) (ratingStep 500 bestTeam (.memberWon 1 1 0))
      ∧ ¬ RatingLaw 500 bestTeam (.memberLost 1 0 1)
          (ratingStep 500 bestTeam (.memberLost 1 0 1)) := by
  refine ⟨by decide, by decide, fun law => ?_, fun law => ?_⟩
  · obtain ⟨changed, found, wins⟩ := law _ rfl
    have after : changed.personalRating = 0 := by
      rw [← Option.some.inj found]
      decide
    have wraps := wins.personal
    rw [NoWrap, after] at wraps
    exact absurd wraps (by decide)
  · obtain ⟨changed, found, loses⟩ := law _ rfl
    have after : changed.matchMakerRating = 0 := by
      rw [← Option.some.inj found]
      decide
    have low := loses.dropped
    rw [after] at low
    exact absurd low (by decide)

end WarheadCore.Battlegrounds.ArenaTeams
