import WarheadCore.Guilds.RosterRuns

/-! What a member can take from the guild bank between two daily resets.
The counter of a member never passes the limit of his rank, whichever kind of withdrawal he
makes; the kind itself is never looked at, so the right to repairs also pays out gold.
-/

namespace WarheadCore.Guilds

open Foundation Foundation.Runs WarheadCore.Player

/-- Deposits, withdrawals and repairs: the requests that move money only. -/
def GuildRequest.IsBankMoney : GuildRequest → Prop
  | .depositMoney _ _ | .withdrawMoney _ _ | .repair _ _ => True
  | _ => False

def GuildSystem.pays (system : GuildSystem) (player amount : Nat) (repair : Bool) : Bool :=
  match system.persisted.guild with
  | none => false
  | some guild => (handleMemberWithdrawMoney { guild, db := system.persisted.db } player
      (system.money player) amount repair).1

def takenBy (guid : Nat) (system : GuildSystem) : GuildRequest → Int
  | .withdrawMoney player amount =>
      if player = guid ∧ amount ≠ 0 ∧ system.pays player amount false
      then (min amount maxMoneyAmount : Nat) else 0
  | .repair player costs =>
      if player = guid ∧ system.pays player costs true
      then (min costs maxMoneyAmount : Nat) else 0
  | _ => 0

/-- A plain withdrawal of a player is paid only when his rank may withdraw gold. -/
def PlainNeedsGold (guid : Nat) (system : GuildSystem) : GuildRequest → Prop
  | .withdrawMoney player amount => player = guid → amount ≠ 0 → system.pays guid amount false →
      ∀ guild member, system.persisted.guild = some guild →
        guild.members.get? guid = some member →
        guild.getRankRights member.rankId &&& grRightWithdrawGold ≠ 0
  | _ => True

/-- A plain withdrawal is asked for with the right to gold, or without the right to repairs, or
for more than the bank, the limit or the purse allow.
-/
def AskedWithRight (guid : Nat) (system : GuildSystem) : GuildRequest → Prop
  | .withdrawMoney player amount => player = guid → amount ≠ 0 →
      ∀ guild member, system.persisted.guild = some guild →
        guild.members.get? guid = some member →
        guild.getRankRights member.rankId &&& grRightWithdrawGold ≠ 0
          ∨ guild.getRankRights member.rankId &&& grRightWithdrawRepair = 0
          ∨ guild.bankMoney < min amount maxMoneyAmount
          ∨ guild.getRankBankMoneyPerDay member.rankId - member.bankWithdraw[moneyCell]
              < min amount maxMoneyAmount
          ∨ maxMoneyAmount ≤ system.money guid + min amount maxMoneyAmount
  | _ => True

/-- A member below the guild master whose counter is within the limit of his rank, the ranks and
his own rank being fixed, among purses within the cap.
-/
structure WithinLimit (guid : Nat) (ranks : List RankInfo) (rankId : Nat) (system : GuildSystem)
    (guild : Guild) (member : Member) : Prop where
  found : system.persisted.guild = some guild
  stored : guild.members.get? guid = some member
  table : guild.ranks = ranks
  ranked : member.rankId = rankId
  counted : 0 ≤ member.bankWithdraw[moneyCell]
  limited : member.bankWithdraw[moneyCell] ≤ max 0 (guild.getRankBankMoneyPerDay rankId)
  purses : ∀ player, system.money player ≤ maxMoneyAmount

-- One withdrawal

/-- A limit read as a signed number is in the signed range. -/
theorem getRankBankMoneyPerDay_range (guild : Guild) (rankId : Nat)
    : -0x80000000 ≤ guild.getRankBankMoneyPerDay rankId
      ∧ guild.getRankBankMoneyPerDay rankId < 0x80000000 := by
  unfold Guild.getRankBankMoneyPerDay
  split
  · exact toInt32_range _
  · constructor <;> decide

/-- What is left of the limit, as long as the counter is within it. -/
theorem getMemberRemainingMoney_eq {guild : Guild} {member : Member}
    (ordinary : member.rankId ≠ grGuildmaster) (counted : 0 ≤ member.bankWithdraw[moneyCell])
    (limited : member.bankWithdraw[moneyCell]
      ≤ max 0 (guild.getRankBankMoneyPerDay member.rankId))
    : guild.getMemberRemainingMoney member
      = if guild.getRankRights member.rankId &&& (grRightWithdrawRepair ||| grRightWithdrawGold) ≠ 0
        then max 0 (guild.getRankBankMoneyPerDay member.rankId - member.bankWithdraw[moneyCell])
        else 0 := by
  have range := getRankBankMoneyPerDay_range guild member.rankId
  unfold Guild.getMemberRemainingMoney Member.getBankWithdrawValue
  rw [if_neg ordinary]
  split
  · simp only
    rw [toInt32_of_range (by omega) (by omega)]
    split <;> omega
  · rfl

/-- The withdrawal handler, said once: refused with nothing changed, or paid from a bank that has
the amount, to a member who has it left, into a purse that takes it.
-/
theorem handleMemberWithdrawMoney_cases (live : LiveGuild) (player money amount : Nat)
    (repair : Bool)
    : handleMemberWithdrawMoney live player money amount repair = (false, live, money)
      ∨ ∃ member purse, live.guild.getMember player = some member
        ∧ min amount maxMoneyAmount ≤ live.guild.bankMoney
        ∧ min amount maxMoneyAmount ≤ toUInt32 (live.guild.getMemberRemainingMoney member)
        ∧ (if repair then (true, money) else modifyMoney money (min amount maxMoneyAmount : Nat))
          = (true, purse)
        ∧ handleMemberWithdrawMoney live player money amount repair
          = (true, (live.updateBankWithdrawValue player member moneyCell
              (min amount maxMoneyAmount)).modifyBankMoney (min amount maxMoneyAmount) false,
              purse) := by
  unfold handleMemberWithdrawMoney
  simp only
  split
  · exact .inl rfl
  · rename_i enough
    split
    · exact .inl rfl
    · rename_i member stored
      split
      · exact .inl rfl
      · rename_i left
        generalize (if repair then (true, money)
          else modifyMoney money (min amount maxMoneyAmount : Nat)) = result
        obtain ⟨taken, purse⟩ := result
        cases taken with
        | false => exact .inl rfl
        | true =>
            exact .inr ⟨member, purse, stored, Nat.not_lt.mp enough, Nat.not_lt.mp left, rfl, rfl⟩

/-- The deposit handler, said once: refused with nothing changed, or the amount moves from the purse
to the bank.
-/
theorem handleMemberDepositMoney_cases (live : LiveGuild) {money amount : Nat}
    (cap : money ≤ maxMoneyAmount) (enough : amount ≤ money)
    : (∃ reply, handleMemberDepositMoney live money amount = (some reply, live, money))
      ∨ handleMemberDepositMoney live money amount
        = (none, live.modifyBankMoney amount true, money - amount) := by
  have signed : toInt32 amount = amount := by
    simp only [maxMoneyAmount] at cap
    exact toInt32_of_range (by omega) (by omega)
  unfold handleMemberDepositMoney
  rw [signed, modifyMoney_neg cap enough]
  split
  · exact .inl ⟨_, rfl⟩
  · exact .inr rfl

/-- The mask of both withdrawal rights asks for one of them. -/
theorem withdrawRights_iff (rights : Nat)
    : rights &&& (grRightWithdrawRepair ||| grRightWithdrawGold) ≠ 0
      ↔ rights &&& grRightWithdrawRepair ≠ 0 ∨ rights &&& grRightWithdrawGold ≠ 0 := by
  rw [Nat.and_or_distrib_left, Ne, Nat.or_eq_zero_iff]
  tauto

section Step

variable {guid rankId : Nat} {ranks : List RankInfo} {system : GuildSystem} {guild : Guild}
  {member : Member}

/-- When a plain withdrawal is paid. The right to gold is not among the conditions. -/
theorem WithinLimit.pays_plain_iff (h : WithinLimit guid ranks rankId system guild member)
    (ordinary : rankId ≠ grGuildmaster) {amount : Nat} (positive : amount ≠ 0)
    : system.pays guid amount false = true
      ↔ (guild.getRankRights rankId &&& grRightWithdrawRepair ≠ 0
          ∨ guild.getRankRights rankId &&& grRightWithdrawGold ≠ 0)
        ∧ min amount maxMoneyAmount ≤ guild.bankMoney
        ∧ (min amount maxMoneyAmount : Nat)
            ≤ guild.getRankBankMoneyPerDay rankId - member.bankWithdraw[moneyCell]
        ∧ system.money guid + min amount maxMoneyAmount < maxMoneyAmount := by
  obtain ⟨found, stored, -, ranked, counted, limited, purses⟩ := h
  subst ranked
  have present : guild.getMember guid = some member := stored
  have range := getRankBankMoneyPerDay_range guild member.rankId
  have some : 0 < min amount maxMoneyAmount := by
    simp only [maxMoneyAmount]
    omega
  have capped : min amount maxMoneyAmount ≤ maxMoneyAmount := Nat.min_le_right _ _
  unfold GuildSystem.pays handleMemberWithdrawMoney
  simp only [found, present, Bool.false_eq_true, if_false,
    modifyMoney_pos (purses guid) some capped,
    getMemberRemainingMoney_eq ordinary counted limited, ← withdrawRights_iff]
  generalize min amount maxMoneyAmount = taken at some capped ⊢
  by_cases bank : guild.bankMoney < taken
  · rw [if_pos bank]
    simp only [Bool.false_eq_true, false_iff]
    omega
  · rw [if_neg bank]
    by_cases rights : guild.getRankRights member.rankId
        &&& (grRightWithdrawRepair ||| grRightWithdrawGold) ≠ 0
    · rw [if_pos rights]
      have left : toUInt32 (max 0
          (guild.getRankBankMoneyPerDay member.rankId - member.bankWithdraw[moneyCell])) < taken
          ↔ guild.getRankBankMoneyPerDay member.rankId - member.bankWithdraw[moneyCell]
            < (taken : Int) := by
        unfold toUInt32
        omega
      simp only [left]
      split
      · simp only [Bool.false_eq_true, false_iff]
        omega
      · by_cases room : system.money guid + taken < maxMoneyAmount
        · simp only [if_pos room, if_true, true_iff]
          exact ⟨rights, by omega, by omega, by omega⟩
        · simp only [if_neg room, Bool.false_eq_true, if_false, false_iff]
          omega
    · rw [if_neg rights]
      have nothing : toUInt32 0 < taken := by
        unfold toUInt32
        omega
      rw [if_pos nothing]
      simp only [Bool.false_eq_true, false_iff]
      exact fun all => rights all.1

/-- A single plain withdrawal obeys the right to gold exactly when it is asked for with right. -/
theorem WithinLimit.plainNeedsGold_iff (h : WithinLimit guid ranks rankId system guild member)
    (ordinary : rankId ≠ grGuildmaster) (request : GuildRequest)
    : PlainNeedsGold guid system request ↔ AskedWithRight guid system request := by
  cases request with
  | withdrawMoney player amount =>
      simp only [PlainNeedsGold, AskedWithRight]
      refine forall_congr' fun _ => forall_congr' fun positive => ?_
      rw [h.pays_plain_iff ordinary positive]
      have only : ∀ P : Guild → Member → Prop, (∀ other stored,
          system.persisted.guild = some other → other.members.get? guid = some stored →
          P other stored) ↔ P guild member := by
        intro P
        constructor
        · exact fun all => all guild member h.found h.stored
        · intro here other stored found same
          rw [h.found, Option.some.injEq] at found
          subst found
          rw [h.stored, Option.some.injEq] at same
          exact same ▸ here
      rw [only (fun guild member =>
        guild.getRankRights member.rankId &&& grRightWithdrawGold ≠ 0), only (fun guild member =>
        guild.getRankRights member.rankId &&& grRightWithdrawGold ≠ 0
          ∨ guild.getRankRights member.rankId &&& grRightWithdrawRepair = 0
          ∨ guild.bankMoney < min amount maxMoneyAmount
          ∨ guild.getRankBankMoneyPerDay member.rankId - member.bankWithdraw[moneyCell]
              < min amount maxMoneyAmount
          ∨ maxMoneyAmount ≤ system.money guid + min amount maxMoneyAmount), h.ranked]
      by_cases gold : guild.getRankRights rankId &&& grRightWithdrawGold ≠ 0
      · simp [gold]
      · by_cases repair : guild.getRankRights rankId &&& grRightWithdrawRepair = 0
        · simp [gold, repair]
        · simp only [ne_eq, repair, not_false_eq_true, true_or, true_and, gold, false_or, imp_false]
          omega
  | _ => exact Iff.rfl

/-- A purse that pays or is paid stays within the cap. -/
theorem WithinLimit.purse (h : WithinLimit guid ranks rankId system guild member)
    {player purse : Nat} (bounded : purse ≤ maxMoneyAmount) (other : Nat)
    : Function.update system.money player purse other ≤ maxMoneyAmount := by
  rw [Function.update_apply]
  split
  · exact bounded
  · exact h.purses other

/-- A withdrawal or a repair of any member keeps the counter within the limit and moves it by
exactly what the member takes.
-/
theorem WithinLimit.withdraw (h : WithinLimit guid ranks rankId system guild member)
    (ordinary : rankId ≠ grGuildmaster) (player amount : Nat) (repair : Bool)
    : ∃ guild' member', WithinLimit guid ranks rankId
        (system.paid (handleMemberWithdrawMoney { guild, db := system.persisted.db } player
            (system.money player) amount repair).2.1 player
          (handleMemberWithdrawMoney { guild, db := system.persisted.db } player
            (system.money player) amount repair).2.2) guild' member'
      ∧ member'.bankWithdraw[moneyCell] = member.bankWithdraw[moneyCell]
        + if player = guid ∧ system.pays player amount repair = true
          then ((min amount maxMoneyAmount : Nat) : Int) else 0 := by
  have pays : system.pays player amount repair
      = (handleMemberWithdrawMoney { guild, db := system.persisted.db } player
        (system.money player) amount repair).1 := by
    unfold GuildSystem.pays
    rw [h.found]
  rw [pays]
  rcases handleMemberWithdrawMoney_cases { guild, db := system.persisted.db } player
    (system.money player) amount repair with refused | ⟨payer, purse, present, -, left, paid, done⟩
  · -- Nothing changed.
    simp only [refused, Bool.false_eq_true, and_false, if_false, Int.add_zero]
    refine ⟨guild, member, ?_, rfl⟩
    exact ⟨rfl, h.stored, h.table, h.ranked, h.counted, h.limited,
      fun other => h.purse (h.purses player) other⟩
  · simp only [done, and_true]
    have small : min amount maxMoneyAmount ≤ maxMoneyAmount := Nat.min_le_right _ _
    have bounded : purse ≤ maxMoneyAmount := by
      have changed : (modifyMoney (system.money player) (min amount maxMoneyAmount : Nat)).2
          ≤ maxMoneyAmount := modifyMoney_le (h.purses player) (by omega) (by omega)
      cases repair with
      | true =>
          cases paid
          exact h.purses player
      | false =>
          simp only [Bool.false_eq_true, if_false] at paid
          rwa [paid] at changed
    generalize min amount maxMoneyAmount = taken at *
    simp only [maxMoneyAmount] at small
    by_cases mine : player = guid
    · subst mine
      have same : payer = member := by
        have stored : guild.members.get? player = some payer := present
        rw [h.stored, Option.some.injEq] at stored
        exact stored.symm
      subst same
      have ranked := h.ranked
      subst ranked
      have range := getRankBankMoneyPerDay_range guild payer.rankId
      have counted := h.counted
      have limited := h.limited
      rw [getMemberRemainingMoney_eq ordinary counted limited] at left
      have within : (taken : Int) = 0
          ∨ payer.bankWithdraw[moneyCell] + taken ≤ guild.getRankBankMoneyPerDay payer.rankId := by
        unfold toUInt32 at left
        split at left <;> omega
      have exact' : toInt32 (payer.bankWithdraw[moneyCell] + taken)
          = payer.bankWithdraw[moneyCell] + taken :=
        toInt32_of_range (by omega) (by omega)
      have cell : (payer.bankWithdraw.set moneyCell
          (toInt32 (payer.bankWithdraw[moneyCell] + taken)))[moneyCell]
          = payer.bankWithdraw[moneyCell] + taken := by
        simp only [Fin.getElem_fin, Vector.getElem_set_self] at exact' ⊢
        exact exact'
      generalize counter : payer.bankWithdraw.set moneyCell
        (toInt32 (payer.bankWithdraw[moneyCell] + taken)) = bankWithdraw at cell
      refine ⟨_, { payer with bankWithdraw }, ⟨rfl, ?_, h.table, rfl, ?_, ?_,
        fun other => h.purse bounded other⟩, ?_⟩
      · simp only [LiveGuild.modifyBankMoney, LiveGuild.updateBankWithdrawValue,
          Table.get?_modify_self, h.stored, Option.map_some, counter]
      · simp only [cell]
        omega
      · change bankWithdraw[moneyCell] ≤ max 0 (guild.getRankBankMoneyPerDay payer.rankId)
        omega
      · simp only [cell, if_true]
    · refine ⟨_, member, ⟨rfl, ?_, h.table, h.ranked, h.counted, h.limited,
        fun other => h.purse bounded other⟩, ?_⟩
      · simp only [LiveGuild.modifyBankMoney, LiveGuild.updateBankWithdrawValue]
        rw [Table.get?_modify_of_ne _ _ (Ne.symm mine)]
        exact h.stored
      · simp [mine]

/-- A deposit of any member leaves the counter alone. -/
theorem WithinLimit.deposit (h : WithinLimit guid ranks rankId system guild member)
    {player amount : Nat} (enough : amount ≤ system.money player)
    : ∃ guild' member', WithinLimit guid ranks rankId
        (system.paid (handleMemberDepositMoney { guild, db := system.persisted.db }
            (system.money player) amount).2.1 player
          (handleMemberDepositMoney { guild, db := system.persisted.db }
            (system.money player) amount).2.2) guild' member'
      ∧ member'.bankWithdraw[moneyCell] = member.bankWithdraw[moneyCell] := by
  have cap := h.purses player
  rcases handleMemberDepositMoney_cases { guild, db := system.persisted.db } cap enough
    with ⟨reply, refused⟩ | done
  · rw [refused]
    exact ⟨guild, member, ⟨rfl, h.stored, h.table, h.ranked, h.counted, h.limited,
      fun other => h.purse cap other⟩, rfl⟩
  · rw [done]
    exact ⟨_, member, ⟨rfl, h.stored, h.table, h.ranked, h.counted, h.limited,
      fun other => h.purse (Nat.le_trans (Nat.sub_le _ _) cap) other⟩, rfl⟩

/-- A bank request keeps the counter within the limit, by cases on the request. -/
theorem WithinLimit.step (h : WithinLimit guid ranks rankId system guild member)
    (ordinary : rankId ≠ grGuildmaster) (config : GuildConfig) {request : GuildRequest}
    (bank : request.IsBankMoney)
    : ∃ guild' member',
        WithinLimit guid ranks rankId (Guilds.step config system request) guild' member'
      ∧ member'.bankWithdraw[moneyCell]
        = member.bankWithdraw[moneyCell] + takenBy guid system request := by
  rw [step_of_guild config h.found]
  cases request with
  | depositMoney player amount =>
      simp only [LiveGuild.handle, takenBy, Int.add_zero]
      split
      · rename_i asked
        have enough : amount ≤ system.money player := by
          simpa [hasEnoughMoney] using asked.2
        exact h.deposit enough
      · exact ⟨guild, member, h, rfl⟩
  | withdrawMoney player amount =>
      simp only [LiveGuild.handle, takenBy]
      split
      · rename_i positive
        have same : (player = guid ∧ amount ≠ 0 ∧ system.pays player amount false = true)
            ↔ (player = guid ∧ system.pays player amount false = true) := by
          simp [positive]
        simp only [same]
        exact h.withdraw ordinary player amount false
      · rename_i zero
        refine ⟨guild, member, h, ?_⟩
        rw [if_neg (fun all => zero all.2.1), Int.add_zero]
  | repair player costs => exact h.withdraw ordinary player costs true
  | _ => exact bank.elim

end Step

-- Runs

def moneyTaken (guid : Nat) (system : GuildSystem) : Int :=
  match system.persisted.guild with
  | none => 0
  | some guild => match guild.members.get? guid with
    | none => 0
    | some member => member.bankWithdraw[moneyCell]

theorem WithinLimit.moneyTaken {guid rankId : Nat} {ranks : List RankInfo}
    {system : GuildSystem} {guild : Guild} {member : Member}
    (h : WithinLimit guid ranks rankId system guild member)
    : moneyTaken guid system = member.bankWithdraw[moneyCell] := by
  simp [Guilds.moneyTaken, h.found, h.stored]


/-- The limit of a rank is read from the rank table only. -/
theorem getRankBankMoneyPerDay_congr {guild other : Guild} (same : guild.ranks = other.ranks)
    (rankId : Nat)
    : guild.getRankBankMoneyPerDay rankId = other.getRankBankMoneyPerDay rankId := by
  unfold Guild.getRankBankMoneyPerDay Guild.getRankInfo Guild.getRanksSize
  rw [same]

/-- Over every run of bank requests by any members that starts after a daily reset, a member below
the guild master takes at most his rank's limit in all; and his plain withdrawals all obey the
right to gold exactly when each is asked for with right. Witness: the counter moves by what is
taken and stays within the limit.
-/
theorem withdrawals_within_limit_iff_asked_with_right (config : GuildConfig)
    {system : GuildSystem} {guild : Guild} {guid : Nat} {member : Member} {info : RankInfo}
    (found : system.persisted.guild = some guild)
    (stored : guild.members.get? guid = some member)
    (ordinary : member.rankId ≠ grGuildmaster)
    (ranked : guild.getRankInfo member.rankId = some info)
    (reset : member.bankWithdraw[moneyCell] = 0)
    (limit : info.bankMoneyPerDay < 0x100000000)
    (purses : ∀ player, system.money player ≤ maxMoneyAmount)
    {requests : List GuildRequest} (bank : EachStep (step config)
      (fun _ request => request.IsBankMoney) system requests)
    : total (step config) (takenBy guid) system requests ≤ info.bankMoneyPerDay
      ∧ (EachStep (step config) (PlainNeedsGold guid) system requests
          ↔ EachStep (step config) (AskedWithRight guid) system requests) := by
  let within (system : GuildSystem) : Prop :=
    ∃ after left, WithinLimit guid guild.ranks member.rankId system after left
  have start : WithinLimit guid guild.ranks member.rankId system guild member :=
    ⟨found, stored, rfl, rfl, by omega, by omega, purses⟩
  have preserved : ∀ state request, within state → request.IsBankMoney
      → within (step config state request) := by
    rintro state request ⟨before, was, here⟩ money
    obtain ⟨after, left, next, -⟩ := here.step ordinary config money
    exact ⟨after, left, next⟩
  have moved : ∀ state request, within state → request.IsBankMoney
      → moneyTaken guid (step config state request)
        = moneyTaken guid state + takenBy guid state request := by
    rintro state request ⟨before, was, here⟩ money
    obtain ⟨after, left, next, changed⟩ := here.step ordinary config money
    rw [next.moneyTaken, here.moneyTaken]
    exact changed
  have counted := measure_run_of_invariant preserved moved ⟨guild, member, start⟩ bank
  constructor
  · obtain ⟨after, left, last⟩ := run_of_invariant preserved ⟨guild, member, start⟩ bank
    rw [last.moneyTaken, start.moneyTaken, reset, Int.zero_add] at counted
    have limited := last.limited
    rw [getRankBankMoneyPerDay_congr last.table] at limited
    have perDay : guild.getRankBankMoneyPerDay member.rankId = toInt32 info.bankMoneyPerDay := by
      unfold Guild.getRankBankMoneyPerDay
      rw [ranked]
    rw [perDay] at limited
    rcases toInt32_eq_or_neg limit with same | negative <;> omega
  · refine eachStep_congr_of_invariant preserved ?_ ⟨guild, member, start⟩ bank
    rintro state request ⟨before, was, here⟩ -
    exact here.plainNeedsGold_iff ordinary request

/-- A guild whose fifth rank has the given rights and a limit of a hundred, one member of that
rank, and five hundred in the bank.
-/
def bankingGuild (rights : Nat) : GuildSystem :=
  run (step { allowTwoSideInteractionGuild := false, allowMultipleGuildMaster := false })
    (startSystem "Order" 1 { name := "Ann", level := 80, playerClass := 1 } 0 (fun _ => 1000))
    [.addMember 2 (.offline (some { name := "Bob", level := 10, playerClass := 2 }) 0),
      .setRankInfo 1 4 "Initiate" rights 100 [], .depositMoney 1 500]

/-- Two withdrawals and a repair of the member, among empty purses. -/
theorem withdrawals_within_limit_iff_asked_with_right_applied
    : let system := { bankingGuild (grRightEmpty ||| grRightWithdrawGold) with
        money := fun _ => 0 }
      let config : GuildConfig := {
        allowTwoSideInteractionGuild := false, allowMultipleGuildMaster := false }
      let requests : List GuildRequest :=
        [.withdrawMoney 2 60, .repair 2 30, .withdrawMoney 2 60]
      total (step config) (takenBy 2) system requests ≤ (100 : Nat)
        ∧ (EachStep (step config) (PlainNeedsGold 2) system requests
          ↔ EachStep (step config) (AskedWithRight 2) system requests) := by
  have standing : (bankingGuild (grRightEmpty ||| grRightWithdrawGold)).persisted.guild.bind
      (fun guild => (guild.members.get? 2).bind (fun member =>
        (guild.getRankInfo member.rankId).map (fun info =>
          (member.rankId, member.bankWithdraw[moneyCell], info.bankMoneyPerDay))))
      = some (4, 0, 100) := by decide +kernel
  obtain ⟨guild, found, held⟩ := Option.bind_eq_some_iff.mp standing
  obtain ⟨member, stored, ranked⟩ := Option.bind_eq_some_iff.mp held
  obtain ⟨info, listed, numbers⟩ := Option.map_eq_some_iff.mp ranked
  rw [Prod.mk.injEq, Prod.mk.injEq] at numbers
  obtain ⟨rank, reset, limit⟩ := numbers
  intro system config requests
  rw [← limit]
  exact @withdrawals_within_limit_iff_asked_with_right config system _ _ _ _ found stored
    (by rw [rank]; decide) listed reset (by rw [limit]; decide) (fun _ => Nat.zero_le _)
    _ ⟨trivial, trivial, trivial, trivial⟩

/-- With the right to repairs alone a member draws gold for his own purse. -/
theorem repair_right_pays_out_gold
    : ¬ ∀ (config : GuildConfig) (system : GuildSystem) (guild : Guild) (guid : Nat)
        (member : Member) (requests : List GuildRequest),
        system.persisted.guild = some guild → guild.members.get? guid = some member →
        member.rankId ≠ grGuildmaster →
        EachStep (step config) (PlainNeedsGold guid) system requests := by
  intro claim
  have paid : ((bankingGuild (grRightEmpty ||| grRightWithdrawRepair)).persisted.guild.bind
        (fun guild => (guild.members.get? 2).map (fun member => (member.rankId,
          guild.getRankRights member.rankId &&& grRightWithdrawGold))),
      (bankingGuild (grRightEmpty ||| grRightWithdrawRepair)).pays 2 60 false)
      = (some (4, 0), true) := by decide +kernel
  rw [Prod.mk.injEq] at paid
  obtain ⟨guild, found, held⟩ := Option.bind_eq_some_iff.mp paid.1
  obtain ⟨member, stored, ranked⟩ := Option.map_eq_some_iff.mp held
  rw [Prod.mk.injEq] at ranked
  have ordinary : member.rankId ≠ grGuildmaster := by
    rw [ranked.1]
    decide
  have obeyed := claim { allowTwoSideInteractionGuild := false, allowMultipleGuildMaster := false }
    _ guild 2 member [.withdrawMoney 2 60] found stored ordinary
  exact obeyed.1 rfl (by decide) paid.2 guild member found stored ranked.2

end WarheadCore.Guilds
