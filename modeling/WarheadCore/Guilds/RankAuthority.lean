import Mathlib.Data.Nat.Bitwise
import WarheadCore.Guilds.RosterRuns

/-! Whom the holder of a rank may promote, demote or remove.
The checks compare the ranks of both members; the right itself counts as held as soon as the
rights of the rank differ from the bit that every right carries.
-/

namespace WarheadCore.Guilds

open Foundation Foundation.Runs

-- Requests about other members

/-- The requests that change the rank of another member or remove him. -/
inductive RankRequest where
  | updateMemberRank (name : String) (demote : Bool)
  | removeMember (name : String)

namespace RankRequest

def name : RankRequest → String
  | .updateMemberRank name _ => name
  | .removeMember name => name

def right : RankRequest → Nat
  | .updateMemberRank _ demote => if demote then grRightDemote else grRightPromote
  | .removeMember _ => grRightRemove

def handle (live : LiveGuild) (player : Nat) : RankRequest → Persisted
  | .updateMemberRank name demote => (handleUpdateMemberRank live player name demote).persisted
  | .removeMember name => (handleRemoveMember live player name).persisted

def Due (lowest mine theirs : Nat) : RankRequest → Prop
  | .updateMemberRank _ demote =>
      if demote then mine < theirs ∧ theirs < lowest else toUInt8 (mine + 1) < theirs
  | .removeMember _ => mine < theirs

def effect (live : LiveGuild) (guid : Nat) (member : Member) : RankRequest → Persisted
  | .updateMemberRank _ demote =>
      (live.changeRank guid
        (toUInt8 (if demote then (member.rankId : Int) + 1 else member.rankId - 1))).persist
  | .removeMember _ => live.deleteMember guid

end RankRequest

def Guild.Carries (guild : Guild) (rankId right : Nat) : Prop :=
  guild.getRankRights rankId &&& (right ^^^ grRightEmpty) ≠ 0

def Guild.CarriesEmpty (guild : Guild) (rankId : Nat) : Prop :=
  guild.getRankRights rankId &&& grRightEmpty ≠ 0

/-- _HasRankRight holds with the right's own bit, but also without the bit that all rights share.
-/
theorem Guild.hasRankRight_iff {guild : Guild} {player : Nat} {me : Member}
    (acts : guild.getMember player = some me) (request : RankRequest)
    : guild.hasRankRight player request.right = true
      ↔ guild.Carries me.rankId request.right ∨ ¬guild.CarriesEmpty me.rankId := by
  unfold Guild.hasRankRight Guild.Carries Guild.CarriesEmpty
  rw [acts]
  dsimp only
  generalize guild.getRankRights me.rankId = rights
  have bits (k : Nat) : rights &&& 2 ^ k = (rights.testBit k).toNat * 2 ^ k :=
    Nat.and_two_pow rights k
  have split (k : Nat) : rights &&& (2 ^ 6 ||| 2 ^ k) = (rights &&& 2 ^ 6) ||| (rights &&& 2 ^ k) :=
    Nat.and_or_distrib_left rights (2 ^ 6) (2 ^ k)
  have each (k : Nat) (known : k = 5 ∨ k = 7 ∨ k = 8)
      : ((rights &&& (2 ^ 6 ||| 2 ^ k)) != 2 ^ 6) = true
        ↔ rights &&& 2 ^ k ≠ 0 ∨ ¬rights &&& 2 ^ 6 ≠ 0 := by
    rw [split, bits, bits]
    rcases known with rfl | rfl | rfl <;> cases rights.testBit 6 <;> cases rights.testBit _ <;>
      decide
  cases request with
  | removeMember name =>
      simpa [RankRequest.right, grRightRemove, grRightEmpty] using each 5 (.inl rfl)
  | updateMemberRank name demote =>
      cases demote with
      | false =>
          simpa [RankRequest.right, grRightPromote, grRightEmpty] using each 7 (.inr (.inl rfl))
      | true =>
          simpa [RankRequest.right, grRightDemote, grRightEmpty] using each 8 (.inr (.inr rfl))

section

variable {live : LiveGuild} {player guid : Nat} {me member : Member} {request : RankRequest}

/-- A request that passes the checks takes effect. -/
theorem RankRequest.handle_of_due (acts : live.guild.getMember player = some me)
    (named : live.guild.getMemberByName request.name = some ⟨guid, member⟩) (other : guid ≠ player)
    (right : live.guild.hasRankRight player request.right = true)
    (due : request.Due live.guild.getLowestRankId me.rankId member.rankId)
    : request.handle live player = request.effect live guid member := by
  cases request with
  | updateMemberRank name demote =>
      have named : live.guild.getMemberByName name = some ⟨guid, member⟩ := named
      have right : live.guild.hasRankRight player
        (if demote then grRightDemote else grRightPromote) = true := right
      unfold handle handleUpdateMemberRank
      dsimp only
      rw [right, Bool.not_true, if_neg Bool.false_ne_true, named]
      dsimp only
      rw [if_neg other, acts]
      cases demote with
      | true =>
          obtain ⟨below, above⟩ : me.rankId < member.rankId
            ∧ member.rankId < live.guild.getLowestRankId := due
          simp [effect, Member.isRankNotLower, Nat.not_le.mpr below, Nat.not_le.mpr above,
            LiveGuild.silent]
      | false =>
          have below : toUInt8 (me.rankId + 1) < member.rankId := due
          simp [effect, Member.isRankNotLower, Nat.not_le.mpr below, LiveGuild.silent]
  | removeMember name =>
      have named : live.guild.getMemberByName name = some ⟨guid, member⟩ := named
      have right : live.guild.hasRankRight player grRightRemove = true := right
      have below : me.rankId < member.rankId := due
      have follower : member.rankId ≠ grGuildmaster := Nat.ne_zero_of_lt below
      change (handleRemoveMember live player name).persisted = _
      unfold handleRemoveMember
      rw [right, Bool.not_true, if_neg Bool.false_ne_true, named]
      dsimp only
      rw [if_neg follower, acts]
      simp [effect, Member.isRankNotLower, Nat.not_le.mpr below]

/-- A request changes nothing, or it passed the check of the right and those of the ranks. -/
theorem RankRequest.handle_cases (live : LiveGuild) (player : Nat) (request : RankRequest)
    : request.handle live player = live.persist
      ∨ ∃ me guid member, live.guild.getMember player = some me
        ∧ live.guild.getMemberByName request.name = some ⟨guid, member⟩ ∧ guid ≠ player
        ∧ live.guild.hasRankRight player request.right = true
        ∧ request.Due live.guild.getLowestRankId me.rankId member.rankId := by
  cases right : live.guild.hasRankRight player request.right with
  | false =>
      left
      cases request with
      | updateMemberRank name demote =>
          have right : live.guild.hasRankRight player
            (if demote then grRightDemote else grRightPromote) = false := right
          change (handleUpdateMemberRank live player name demote).persisted = _
          unfold handleUpdateMemberRank
          dsimp only
          rw [right]
          rfl
      | removeMember name =>
          have right : live.guild.hasRankRight player grRightRemove = false := right
          change (handleRemoveMember live player name).persisted = _
          unfold handleRemoveMember
          rw [right]
          rfl
  | true =>
      cases request with
      | updateMemberRank name demote =>
          have right : live.guild.hasRankRight player
            (if demote then grRightDemote else grRightPromote) = true := right
          change (handleUpdateMemberRank live player name demote).persisted = _ ∨ _
          unfold handleUpdateMemberRank
          dsimp only
          rw [right, Bool.not_true, if_neg Bool.false_ne_true]
          split
          · exact .inl rfl
          · next guid member named =>
              split
              · exact .inl rfl
              · next other =>
                  split
                  · exact .inl rfl
                  · next me acts =>
                      cases demote with
                      | true =>
                          rw [if_pos rfl]
                          split
                          · exact .inl rfl
                          · next below =>
                              split
                              · exact .inl rfl
                              · next above =>
                                  have lower : me.rankId < member.rankId := by
                                    simpa [Member.isRankNotLower] using below
                                  exact .inr ⟨me, guid, member, acts, named, other, rfl, lower,
                                    Nat.not_le.mp above⟩
                      | false =>
                          rw [if_neg Bool.false_ne_true]
                          split
                          · exact .inl rfl
                          · next below =>
                              have lower : toUInt8 (me.rankId + 1) < member.rankId := by
                                simpa [Member.isRankNotLower] using below
                              exact .inr ⟨me, guid, member, acts, named, other, rfl, lower⟩
      | removeMember name =>
          have right : live.guild.hasRankRight player grRightRemove = true := right
          change (handleRemoveMember live player name).persisted = _ ∨ _
          unfold handleRemoveMember
          rw [right, Bool.not_true, if_neg Bool.false_ne_true]
          split
          · exact .inl rfl
          · next guid member named =>
              split
              · exact .inl rfl
              · dsimp only
                cases acts : live.guild.getMember player with
                | none => exact .inl rfl
                | some me =>
                    dsimp only
                    split
                    · next outranked =>
                        have below : me.rankId < member.rankId := by
                          simpa [Member.isRankNotLower] using outranked
                        refine .inr ⟨me, guid, member, rfl, named, ?_, rfl, below⟩
                        rintro rfl
                        have stored := Guild.get?_of_getMemberByName named
                        rw [Guild.getMember, stored] at acts
                        obtain rfl := Option.some.inj acts
                        exact Nat.lt_irrefl _ below
                    · exact .inl rfl

end

-- Members after a request

/-- The record of a member that is left, if the guild and he are still there. -/
def Persisted.member (persisted : Persisted) (guid : Nat) : Option Member :=
  persisted.guild.bind (fun guild => guild.getMember guid)

section

variable {live : LiveGuild} {guid : Nat}

theorem member_changeRank (live : LiveGuild) (guid newRank other : Nat)
    : (live.changeRank guid newRank).persist.member other
      = if other = guid then
          (live.guild.getMember other).map (fun member => { member with rankId := newRank })
        else live.guild.getMember other :=
  Table.get?_modify live.guild.members guid other _

/-- Only a member who is not the leader is removed without anything else. -/
theorem member_deleteMember_of_ne (follower : live.guild.leaderGuid ≠ guid) (other : Nat)
    : (live.deleteMember guid).member other
      = if other = guid then none else live.guild.getMember other := by
  unfold LiveGuild.deleteMember
  rw [if_neg follower]
  exact Table.get?_remove live.guild.members guid other

/-- A leader who is removed is succeeded by another member. -/
theorem member_deleteMember_leader {entry : (_ : Nat) × Member}
    (leads : live.guild.leaderGuid = guid) (next : live.guild.nextLeader guid = some entry)
    (other : Nat)
    : (live.deleteMember guid).member other
      = if other = guid then none
        else if other = entry.1 then some { entry.2 with rankId := grGuildmaster }
        else live.guild.getMember other := by
  have stored := (Guild.nextLeader_spec next).2
  unfold LiveGuild.deleteMember
  rw [if_pos leads, next]
  dsimp only
  change (Table.get? (Table.remove (Table.modify live.guild.members entry.1 _) guid) other) = _
  rw [Table.get?_remove, Table.get?_modify]
  split
  · rfl
  · split
    · next same =>
        rw [same, stored]
        rfl
    · rfl

/-- The search for the next leader ends with somebody of at most a rank that it meets. -/
theorem foldl_considerLeader_le {leaving bound : Nat} {entries : List ((_ : Nat) × Member)}
    {best : Option ((_ : Nat) × Member)}
    (met : (∃ chosen, best = some chosen ∧ chosen.2.rankId ≤ bound)
      ∨ ∃ entry ∈ entries, entry.1 ≠ leaving ∧ entry.2.rankId ≤ bound)
    : ∃ chosen, entries.foldl (considerLeader leaving) best = some chosen
        ∧ chosen.2.rankId ≤ bound := by
  induction entries generalizing best with
  | nil =>
      rcases met with found | ⟨entry, member, -⟩
      · exact found
      · cases member
  | cons head rest ih =>
      refine ih ?_
      unfold considerLeader
      rcases met with ⟨chosen, rfl, low⟩ | ⟨entry, member, stays, low⟩
      · left
        split
        · exact ⟨chosen, rfl, low⟩
        · dsimp only
          split
          · next better => exact ⟨head, rfl, by omega⟩
          · exact ⟨chosen, rfl, low⟩
      · rcases List.mem_cons.mp member with rfl | later
        · left
          rw [if_neg stays]
          split
          · exact ⟨entry, rfl, low⟩
          · next chosen =>
              split
              · exact ⟨entry, rfl, low⟩
              · next better => exact ⟨chosen, rfl, by omega⟩
        · exact .inr ⟨entry, later, stays, low⟩

/-- The next leader is of at most the rank of every other member. -/
theorem Guild.nextLeader_le {guild : Guild} {other : Nat} {member : Member} (leaving : Nat)
    (stored : guild.getMember other = some member) (stays : other ≠ leaving)
    : ∃ entry, guild.nextLeader leaving = some entry ∧ entry.2.rankId ≤ member.rankId :=
  foldl_considerLeader_le
    (.inr ⟨⟨other, member⟩, Table.get?_eq_some_iff.mp stored, stays, le_rfl⟩)

end

-- Authority

namespace RankRequest

/-- A request changes or removes a member only if the rank of the one who sends it carries the
right and is higher than that of the member; nobody reaches the rank of the sender, and nobody
is demoted beyond the lowest rank.
-/
def Authorised (live : LiveGuild) (player : Nat) (request : RankRequest) : Prop :=
  ∀ guid, (request.handle live player).member guid ≠ live.guild.getMember guid →
    ∃ me member, live.guild.getMember player = some me ∧ live.guild.getMember guid = some member
      ∧ live.guild.Carries me.rankId request.right ∧ me.rankId < member.rankId
      ∧ ∀ changed, (request.handle live player).member guid = some changed →
        me.rankId < changed.rankId
        ∧ (member.rankId < changed.rankId → changed.rankId ≤ live.guild.getLowestRankId)

/-- A promotion does not come from the rank that stands for none; a leader is removed only where
another guild master is left to succeed.
-/
def Orderly (live : LiveGuild) (mine guid : Nat) : RankRequest → Prop
  | .updateMemberRank _ demote => demote = false → mine ≠ guildRankNone
  | .removeMember _ => live.guild.leaderGuid = guid → ∃ other master,
      other ≠ guid ∧ live.guild.getMember other = some master ∧ master.rankId = grGuildmaster

/-- Where the ranks of both members allow a request, the sender's rank carries the right and the
request is orderly, or it carries the bit that all rights share without the right.
-/
def Entitled (live : LiveGuild) (player : Nat) (request : RankRequest) : Prop :=
  ∀ me guid member, live.guild.getMember player = some me →
    live.guild.getMemberByName request.name = some ⟨guid, member⟩ → guid ≠ player →
    request.Due live.guild.getLowestRankId me.rankId member.rankId →
      live.guild.Carries me.rankId request.right ∧ request.Orderly live me.rankId guid
      ∨ ¬live.guild.Carries me.rankId request.right ∧ live.guild.CarriesEmpty me.rankId

section

variable {live : LiveGuild} {player guid : Nat} {me member : Member} {request : RankRequest}

/-- A request that the ranks of both members allow changes the member that it names. -/
theorem effect_ne (stored : live.guild.getMember guid = some member)
    (due : request.Due live.guild.getLowestRankId me.rankId member.rankId)
    : (request.effect live guid member).member guid ≠ live.guild.getMember guid := by
  cases request with
  | updateMemberRank name demote =>
      have changed : toUInt8 (if demote then (member.rankId : Int) + 1 else member.rankId - 1)
          ≠ member.rankId := by
        cases demote with
        | true =>
            have above : member.rankId < live.guild.getLowestRankId := due.2
            have lowest : live.guild.getLowestRankId < 0x100 := toUInt8_lt _
            unfold toUInt8
            simp only [if_true]
            omega
        | false =>
            have below : toUInt8 (me.rankId + 1) < member.rankId := due
            unfold toUInt8
            simp only [Bool.false_eq_true, if_false]
            omega
      unfold effect
      dsimp only
      rw [member_changeRank, if_pos rfl, stored, Option.map_some]
      intro same
      exact changed (congrArg Member.rankId (Option.some.inj same))
  | removeMember name =>
      unfold effect
      dsimp only
      rw [stored]
      by_cases leads : live.guild.leaderGuid = guid
      · cases next : live.guild.nextLeader guid with
        | none =>
            unfold LiveGuild.deleteMember
            rw [if_pos leads, next]
            exact Option.some_ne_none member |>.symm
        | some entry =>
            rw [member_deleteMember_leader leads next, if_pos rfl]
            exact Option.some_ne_none member |>.symm
      · rw [member_deleteMember_of_ne leads, if_pos rfl]
        exact Option.some_ne_none member |>.symm

/-- An authorised sender is entitled: what a request would do otherwise shows on the member that it
names, or on the member who succeeds a leader.
-/
theorem Authorised.entitled (authorised : request.Authorised live player)
    (bytes : ∀ guid member, live.guild.getMember guid = some member → member.rankId < 2 ^ 8)
    : request.Entitled live player := by
  intro me guid member acts named other due
  have stored : live.guild.getMember guid = some member := Guild.get?_of_getMemberByName named
  have right := Guild.hasRankRight_iff acts request
  cases held : live.guild.hasRankRight player request.right with
  | false =>
      rw [held] at right
      have neither := mt right.mpr Bool.false_ne_true
      push Not at neither
      exact .inr neither
  | true =>
      have outcome := handle_of_due acts named other held due
      have each (guid : Nat) := authorised guid
      rw [outcome] at each
      obtain ⟨me', member', acts', stored', carries, below, -⟩ :=
        each guid (effect_ne stored due)
      obtain rfl := Option.some.inj (acts.symm.trans acts')
      obtain rfl := Option.some.inj (stored.symm.trans stored')
      refine .inl ⟨carries, ?_⟩
      cases request with
      | updateMemberRank name demote =>
          intro _ noRank
          have byte := bytes guid member stored
          rw [noRank, guildRankNone] at below
          omega
      | removeMember name =>
          intro leads
          obtain ⟨entry, next, low⟩ := Guild.nextLeader_le guid acts (Ne.symm other)
          obtain ⟨stays, found⟩ := Guild.nextLeader_spec next
          refine ⟨entry.1, entry.2, stays, found, ?_⟩
          by_contra lower
          have changed : (live.deleteMember guid).member entry.1
              ≠ live.guild.getMember entry.1 := by
            rw [member_deleteMember_leader leads next, if_neg stays, if_pos rfl]
            intro same
            have same := Option.some.inj (same.trans found)
            exact lower (congrArg Member.rankId same).symm
          obtain ⟨me', member', acts', stored', -, higher, -⟩ := each entry.1 changed
          obtain rfl := Option.some.inj (acts.symm.trans acts')
          obtain rfl := Option.some.inj (found.symm.trans stored')
          omega

/-- An entitled sender is authorised. -/
theorem Entitled.authorised (entitled : request.Entitled live player)
    (bytes : ∀ guid member, live.guild.getMember guid = some member → member.rankId < 2 ^ 8)
    : request.Authorised live player := by
  intro changed differs
  rcases handle_cases live player request with same | ⟨me, guid, member, acts, named, other, held,
    due⟩
  · rw [same] at differs
    exact (differs rfl).elim
  · have stored : live.guild.getMember guid = some member := Guild.get?_of_getMemberByName named
    obtain ⟨carries, orderly⟩ : live.guild.Carries me.rankId request.right
        ∧ request.Orderly live me.rankId guid := by
      rcases entitled me guid member acts named other due with fine | ⟨lacks, empty⟩
      · exact fine
      · rcases (Guild.hasRankRight_iff acts request).mp held with carries | missing
        · exact (lacks carries).elim
        · exact (missing empty).elim
    rw [handle_of_due acts named other held due] at differs ⊢
    cases request with
    | updateMemberRank name demote =>
        unfold effect at differs ⊢
        dsimp only at differs ⊢
        rw [member_changeRank] at differs ⊢
        have here : changed = guid := by
          by_contra elsewhere
          rw [if_neg elsewhere] at differs
          exact differs rfl
        subst here
        rw [if_pos rfl, stored, Option.map_some]
        cases demote with
        | true =>
            have below : me.rankId < member.rankId := due.1
            have above : member.rankId < live.guild.getLowestRankId := due.2
            have lowest : live.guild.getLowestRankId < 0x100 := toUInt8_lt _
            refine ⟨me, member, acts, rfl, carries, below, fun after same => ?_⟩
            obtain rfl := Option.some.inj same
            unfold toUInt8
            simp only [if_true]
            omega
        | false =>
            have small := bytes player me acts
            have byte := bytes changed member stored
            have ranked : me.rankId ≠ 0xFF := orderly rfl
            have below : toUInt8 (me.rankId + 1) < member.rankId := due
            unfold toUInt8 at below
            refine ⟨me, member, acts, rfl, carries, by omega, fun after same => ?_⟩
            obtain rfl := Option.some.inj same
            unfold toUInt8
            simp only [Bool.false_eq_true, if_false]
            omega
    | removeMember name =>
        have below : me.rankId < member.rankId := due
        unfold effect at differs ⊢
        dsimp only at differs ⊢
        have gone : changed = guid ∧ (live.deleteMember guid).member changed = none := by
          by_cases leads : live.guild.leaderGuid = guid
          · obtain ⟨master, record, stays, found, first⟩ := orderly leads
            obtain ⟨entry, next, low⟩ := Guild.nextLeader_le guid found stays
            have successor := (Guild.nextLeader_spec next).2
            rw [member_deleteMember_leader leads next] at differs ⊢
            by_cases here : changed = guid
            · exact ⟨here, if_pos here⟩
            · rw [if_neg here] at differs
              by_cases succeeds : changed = entry.1
              · rw [if_pos succeeds, succeeds] at differs
                have same : entry.2.rankId = grGuildmaster := by
                  rw [first, grGuildmaster] at low
                  exact Nat.le_zero.mp low
                rw [← same] at differs
                exact (differs successor.symm).elim
              · rw [if_neg succeeds] at differs
                exact (differs rfl).elim
          · rw [member_deleteMember_of_ne leads] at differs ⊢
            by_cases here : changed = guid
            · exact ⟨here, if_pos here⟩
            · rw [if_neg here] at differs
              exact (differs rfl).elim
        rw [gone.2, gone.1]
        exact ⟨me, member, acts, stored, carries, below, fun after same => by cases same⟩

/-- A guild master stays, and stays the leader if he is, whatever others request. -/
theorem handle_keeps_master {master : Member} (stored : live.guild.getMember guid = some master)
    (first : master.rankId = grGuildmaster)
    : ∃ guild, (request.handle live player).guild = some guild
        ∧ guild.getMember guid = some master
        ∧ (live.guild.leaderGuid = guid → guild.leaderGuid = guid) := by
  rcases handle_cases live player request with same | ⟨me, target, member, acts, named, other, held,
    due⟩
  · rw [same]
    exact ⟨live.guild, rfl, stored, id⟩
  · rw [handle_of_due acts named other held due]
    have listed : live.guild.getMember target = some member := Guild.get?_of_getMemberByName named
    have lower : member.rankId ≠ grGuildmaster := by
      cases request with
      | updateMemberRank name demote =>
          cases demote with
          | true => exact Nat.ne_zero_of_lt due.1
          | false => exact Nat.ne_zero_of_lt due
      | removeMember name => exact Nat.ne_zero_of_lt due
    have apart : guid ≠ target := by
      rintro rfl
      obtain rfl := Option.some.inj (stored.symm.trans listed)
      exact lower first
    cases request with
    | updateMemberRank name demote =>
        refine ⟨_, rfl, ?_, id⟩
        have kept := member_changeRank live target
          (toUInt8 (if demote then (member.rankId : Int) + 1 else member.rankId - 1)) guid
        rw [if_neg apart, stored] at kept
        exact kept
    | removeMember name =>
        unfold effect
        dsimp only
        by_cases leads : live.guild.leaderGuid = target
        · obtain ⟨entry, next, -⟩ := Guild.nextLeader_le target stored apart
          have kept := member_deleteMember_leader leads next guid
          have successor := (Guild.nextLeader_spec next).2
          have record : (live.deleteMember target).member guid = some master := by
            rw [kept, if_neg apart]
            split
            · next same =>
                rw [← same] at successor
                obtain rfl := Option.some.inj (stored.symm.trans successor)
                rw [← first]
            · exact stored
          obtain ⟨guild, found, has⟩ := Option.bind_eq_some_iff.mp record
          exact ⟨guild, found, has, fun mine => (apart (mine.symm.trans leads)).elim⟩
        · refine ⟨(live.eraseMember target).guild, ?_, ?_, id⟩
          · unfold LiveGuild.deleteMember
            rw [if_neg leads]
            rfl
          · exact (Table.get?_remove_of_ne live.guild.members apart).trans stored

end

def sent (player : Nat) : RankRequest → GuildRequest
  | .updateMemberRank name demote => .updateMemberRank player name demote
  | .removeMember name => .removeMember player name

theorem step_sent (config : GuildConfig) {system : GuildSystem} {guild : Guild}
    (found : system.persisted.guild = some guild) (player : Nat) (request : RankRequest)
    : (step config system (request.sent player)).persisted
      = request.handle { guild, db := system.persisted.db } player := by
  rw [step_of_guild config found]
  cases request with
  | updateMemberRank name demote => rfl
  | removeMember name => rfl

end RankRequest

/-- A guild where a guild master holds his rank, and leads if he did. -/
def KeepsMaster (guid : Nat) (master : Member) (leads : Prop) (system : GuildSystem) : Prop :=
  ∃ guild, system.persisted.guild = some guild ∧ guild.getMember guid = some master
    ∧ (leads → guild.leaderGuid = guid)

/-- In every guild, whatever its ranks and rights are, a promotion, demotion or removal is
authorised if and only if the one who asks for it is entitled to it. And over any run of such
requests, by whoever they are, a guild master is neither removed nor demoted, and leads the guild if
he did.
-/
theorem rank_requests_authorised_iff (config : GuildConfig) {system : GuildSystem} {guild : Guild}
    (found : system.persisted.guild = some guild)
    (bytes : ∀ guid member, guild.getMember guid = some member → member.rankId < 2 ^ 8)
    : (∀ player (request : RankRequest),
        request.Authorised { guild, db := system.persisted.db } player
          ↔ request.Entitled { guild, db := system.persisted.db } player)
      ∧ ∀ guid master, guild.getMember guid = some master → master.rankId = grGuildmaster →
        ∀ calls : List (Nat × RankRequest),
          EachState (step config) (KeepsMaster guid master (guild.leaderGuid = guid)) system
            (calls.map (fun call => call.2.sent call.1)) := by
  constructor
  · exact fun player request => ⟨fun authorised => authorised.entitled bytes,
      fun entitled => entitled.authorised bytes⟩
  · intro guid master stored first calls
    have start : KeepsMaster guid master (guild.leaderGuid = guid) system :=
      ⟨guild, found, stored, id⟩
    clear found bytes stored
    induction calls generalizing system with
    | nil => exact start
    | cons call rest ih =>
        refine ⟨start, ih ?_⟩
        obtain ⟨now, found, stored, leads⟩ := start
        obtain ⟨later, left, kept, stays⟩ := @RankRequest.handle_keeps_master
          { guild := now, db := system.persisted.db } call.1 guid call.2 master stored first
        refine ⟨later, ?_, kept, fun leader => stays (leads leader)⟩
        rw [RankRequest.step_sent config found]
        exact left

/-- A guild of three: its leader promotes the second member and takes all rights from his rank. -/
def guildOfThree : GuildSystem :=
  run (step { allowTwoSideInteractionGuild := false, allowMultipleGuildMaster := false })
    (startSystem "Order" 1 { name := "Ann", level := 80, playerClass := 1 } 0 (fun _ => 0))
    [.addMember 2 (.offline (some { name := "Bob", level := 10, playerClass := 2 }) 0),
      .addMember 3 (.offline (some { name := "Cid", level := 10, playerClass := 3 }) 0),
      .updateMemberRank 1 "Bob" false,
      .setRankInfo 1 3 "Member" 0 0 []]

theorem guildOfThree_kept : guildOfThree.Kept :=
  @run_of_invariant _ _ (step _) GuildSystem.Kept (fun _ _ => True)
    (fun _ request kept _ => step_kept _ kept request) _ _
    (startSystem_kept "Order" 1 { name := "Ann", level := 80, playerClass := 1 } 0 (fun _ => 0))
    (eachStep_of_forall (fun _ _ => trivial) _ _)

/-- The leader of the three, whom the second member tries to demote and to remove. -/
theorem rank_requests_authorised_iff_applied
    : ∃ guild master, guildOfThree.persisted.guild = some guild
        ∧ guild.getMember 1 = some master
        ∧ ((RankRequest.removeMember "Cid").Authorised { guild, db := guildOfThree.persisted.db } 2
          ↔ (RankRequest.removeMember "Cid").Entitled { guild, db := guildOfThree.persisted.db } 2)
        ∧ EachState
          (step { allowTwoSideInteractionGuild := false, allowMultipleGuildMaster := false })
          (KeepsMaster 1 master (guild.leaderGuid = 1)) guildOfThree
          [.updateMemberRank 2 "Ann" true, .removeMember 2 "Ann"] := by
  have outcome : (guildOfThree.persisted.guild.bind (fun guild => guild.getMember 1)).map
      Member.rankId = some grGuildmaster := by decide +kernel
  obtain ⟨master, record, first⟩ := Option.map_eq_some_iff.mp outcome
  obtain ⟨guild, found, stored⟩ := Option.bind_eq_some_iff.mp record
  have bytes (guid : Nat) (member : Member) (held : guild.getMember guid = some member)
      : member.rankId < 2 ^ 8 := by
    have bounded := (guildOfThree_kept guild found).bounded guid member.rankId
      (rank_of_getMember held)
    rw [guildRanksMaxCount] at bounded
    omega
  have both := rank_requests_authorised_iff
    { allowTwoSideInteractionGuild := false, allowMultipleGuildMaster := false } found bytes
  exact ⟨guild, master, found, stored, both.1 2 _,
    both.2 1 master stored first [(2, .updateMemberRank "Ann" true), (2, .removeMember "Ann")]⟩

/-- The second member has no rights at all, and removes the third one. -/
theorem ranks_without_rights_remove_members
    : ¬ ∀ guild, guildOfThree.persisted.guild = some guild →
        (RankRequest.removeMember "Cid").Authorised { guild, db := guildOfThree.persisted.db }
          2 := by
  intro claim
  have before : (guildOfThree.persisted.guild.bind (fun guild => guild.getMember 3)).isSome
      = true := by decide +kernel
  have rights : (guildOfThree.persisted.guild.bind (fun guild => (guild.getMember 2).map
      (fun me => guild.getRankRights me.rankId))) = some 0 := by decide +kernel
  have after : (guildOfThree.persisted.guild.bind (fun guild =>
      ((RankRequest.removeMember "Cid").handle { guild, db := guildOfThree.persisted.db }
        2).member 3)).isNone = true := by decide +kernel
  obtain ⟨member, record⟩ := Option.isSome_iff_exists.mp before
  obtain ⟨guild, found, stored⟩ := Option.bind_eq_some_iff.mp record
  rw [found, Option.bind_some] at rights after
  obtain ⟨me, acts, empty⟩ := Option.map_eq_some_iff.mp rights
  have gone := Option.isNone_iff_eq_none.mp after
  obtain ⟨me', _, acts', -, carries, -, -⟩ := claim guild found 3
    (by rw [gone, stored]; exact (Option.some_ne_none member).symm)
  obtain rfl := Option.some.inj (acts.symm.trans acts')
  unfold Guild.Carries at carries
  rw [empty] at carries
  exact carries (Nat.zero_and _)

end WarheadCore.Guilds
