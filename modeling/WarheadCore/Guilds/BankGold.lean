import WarheadCore.Foundation.Agenda
import WarheadCore.Guilds.WithdrawLimit

/-! Gold between the guild bank and the purses of the players.
Every request moves one amount from one side to the other or is refused with nothing changed;
only a repair takes gold out of the game.
-/

namespace WarheadCore.Guilds

open Foundation Foundation.Runs WarheadCore.Player

def GuildSystem.bankMoney (system : GuildSystem) : Nat :=
  match system.persisted.guild with
  | none => 0
  | some guild => guild.bankMoney

def GuildSystem.gold (players : List Nat) (system : GuildSystem) : Int :=
  system.bankMoney + ((players.map system.money).sum : Nat)

def GuildRequest.sender : GuildRequest → Option Nat
  | .depositMoney player _ | .withdrawMoney player _ | .repair player _ => some player
  | _ => none

def GuildSystem.takes (system : GuildSystem) (player amount : Nat) : Bool :=
  match system.persisted.guild with
  | none => false
  | some guild =>
      amount ≠ 0 ∧ hasEnoughMoney (system.money player) amount
        ∧ (handleMemberDepositMoney { guild, db := system.persisted.db } (system.money player)
            amount).1 = none

def GuildSystem.accepts (system : GuildSystem) : GuildRequest → Bool
  | .depositMoney player amount => system.takes player amount
  | .withdrawMoney player amount => amount ≠ 0 ∧ system.pays player amount false
  | .repair player costs => system.pays player costs true
  | _ => false

/-- What a repair takes from the bank: its costs, clamped like every withdrawal. -/
def repairPaid (system : GuildSystem) : GuildRequest → Nat
  | .repair player costs => if system.pays player costs true then min costs maxMoneyAmount else 0
  | _ => 0

/-- A standing guild among purses within the cap, its balance within a bound. -/
structure Solvent (bound : Nat) (system : GuildSystem) : Prop where
  guild : system.persisted.guild.isSome
  balance : system.bankMoney ≤ bound
  purses : ∀ player, system.money player ≤ maxMoneyAmount

-- One request

/-- Writing back what a handler left untouched changes nothing. -/
theorem GuildSystem.paid_self {system : GuildSystem} {guild : Guild}
    (found : system.persisted.guild = some guild) (player : Nat)
    : system.paid { guild, db := system.persisted.db } player (system.money player) = system := by
  unfold GuildSystem.paid LiveGuild.persist
  rw [Function.update_eq_self, ← found]

/-- A purse that changes moves the sum of the purses by its own change. -/
theorem sum_purses_update {players : List Nat} (distinct : players.Nodup) {player : Nat}
    (listed : player ∈ players) (money : Nat → Nat) (purse : Nat)
    : (players.map (Function.update money player purse)).sum + money player
      = (players.map money).sum + purse := by
  have before := ((List.perm_cons_erase listed).map money).sum_eq
  have after : (players.map (Function.update money player purse)).sum
      = (purse :: (players.erase player).map money).sum :=
    (perm_map_update distinct listed (fun _ purse => purse) money purse).sum_eq
  rw [List.map_cons, List.sum_cons] at before
  rw [List.sum_cons] at after
  omega

section Step

variable {bound : Nat} {system : GuildSystem} {guild : Guild} (solvent : Solvent bound system)
  (found : system.persisted.guild = some guild)

include solvent found

/-- A deposit moves the amount from the purse to the bank, or nothing at all. -/
theorem deposit_cases (config : GuildConfig) (player amount : Nat)
    (room : guildBankMoneyLimit ≤ bound)
    : (system.accepts (.depositMoney player amount) = false
        ∧ step config system (.depositMoney player amount) = system)
      ∨ (system.accepts (.depositMoney player amount) = true
        ∧ amount ≤ system.money player ∧ guild.bankMoney + amount ≤ bound
        ∧ step config system (.depositMoney player amount)
          = system.paid (LiveGuild.modifyBankMoney { guild, db := system.persisted.db } amount true)
              player (system.money player - amount)) := by
  rw [step_of_guild config found]
  simp only [LiveGuild.handle, GuildSystem.accepts, GuildSystem.takes, found]
  by_cases asked : amount ≠ 0 ∧ hasEnoughMoney (system.money player) amount = true
  · rw [if_pos asked]
    have enough : amount ≤ system.money player := by simpa [hasEnoughMoney] using asked.2
    by_cases full : guild.bankMoney > guildBankMoneyLimit - amount
    · left
      have refused : handleMemberDepositMoney { guild, db := system.persisted.db }
          (system.money player) amount
          = (some { type := .moveItem, errCode := .bankFull },
              { guild, db := system.persisted.db }, system.money player) := if_pos full
      rw [refused]
      exact ⟨by simp, system.paid_self found player⟩
    · right
      have cap := solvent.purses player
      rcases handleMemberDepositMoney_cases { guild, db := system.persisted.db } cap enough
        with ⟨reply, refused⟩ | done
      · have taken : (handleMemberDepositMoney { guild, db := system.persisted.db }
            (system.money player) amount).1 = none := by
          unfold handleMemberDepositMoney
          rw [if_neg full]
        rw [refused] at taken
        cases taken
      · rw [done]
        refine ⟨by simp [asked], enough, ?_, rfl⟩
        unfold guildBankMoneyLimit at *
        unfold maxMoneyAmount at cap
        omega
  · rw [if_neg asked]
    left
    refine ⟨?_, rfl⟩
    have : ¬ (amount ≠ 0 ∧ hasEnoughMoney (system.money player) amount = true
        ∧ (handleMemberDepositMoney { guild, db := system.persisted.db } (system.money player)
            amount).1 = none) := fun all => asked ⟨all.1, all.2.1⟩
    simpa using this

/-- A withdrawal or a repair moves the clamped amount out of the bank, or nothing at all. -/
theorem withdraw_cases (player amount : Nat) (repair : Bool)
    : (system.pays player amount repair = false
        ∧ system.paid (handleMemberWithdrawMoney { guild, db := system.persisted.db } player
            (system.money player) amount repair).2.1 player
          (handleMemberWithdrawMoney { guild, db := system.persisted.db } player
            (system.money player) amount repair).2.2 = system)
      ∨ (system.pays player amount repair = true
        ∧ min amount maxMoneyAmount ≤ guild.bankMoney
        ∧ ∃ live purse,
            live.guild.bankMoney = guild.bankMoney - min amount maxMoneyAmount
            ∧ purse ≤ maxMoneyAmount
            ∧ purse = system.money player + (if repair then 0 else min amount maxMoneyAmount)
            ∧ system.paid (handleMemberWithdrawMoney { guild, db := system.persisted.db } player
                (system.money player) amount repair).2.1 player
              (handleMemberWithdrawMoney { guild, db := system.persisted.db } player
                (system.money player) amount repair).2.2 = system.paid live player purse) := by
  have cap := solvent.purses player
  unfold GuildSystem.pays
  rw [found]
  rcases handleMemberWithdrawMoney_cases { guild, db := system.persisted.db } player
    (system.money player) amount repair with refused | ⟨payer, purse, _, enough, _, paid, done⟩
  · left
    simp only [refused]
    exact ⟨trivial, system.paid_self found player⟩
  · right
    simp only [done]
    have small : min amount maxMoneyAmount ≤ maxMoneyAmount := Nat.min_le_right _ _
    generalize min amount maxMoneyAmount = taken at *
    refine ⟨trivial, enough, _, purse, ?_, ?_, ?_, rfl⟩
    · have covered : ¬ guild.bankMoney < taken := Nat.not_lt.mpr enough
      simp [LiveGuild.modifyBankMoney, LiveGuild.updateBankWithdrawValue, covered]
    all_goals
      cases repair with
      | true =>
          cases paid
          simp [cap]
      | false =>
          simp only [Bool.false_eq_true, if_false] at paid ⊢
          rcases Nat.eq_zero_or_pos taken with rfl | positive
          · simp only [Nat.cast_zero, modifyMoney, if_true, Prod.mk.injEq, true_and] at paid
            omega
          · rw [modifyMoney_pos cap positive small] at paid
            split at paid
            · simp only [Prod.mk.injEq, true_and] at paid
              omega
            · simp at paid

end Step

/-- One request keeps the bank solvent, changes the gold by what a repair takes, and changes
nothing when it is not accepted.
-/
theorem Solvent.step {bound : Nat} {system : GuildSystem} (solvent : Solvent bound system)
    (room : guildBankMoneyLimit ≤ bound) (config : GuildConfig) {players : List Nat}
    (distinct : players.Nodup) {request : GuildRequest} (bank : request.IsBankMoney)
    (listed : ∀ player, request.sender = some player → player ∈ players)
    : Solvent bound (Guilds.step config system request)
      ∧ (Guilds.step config system request).gold players
        = system.gold players - repairPaid system request
      ∧ (system.accepts request = false → Guilds.step config system request = system) := by
  obtain ⟨guild, found⟩ := Option.isSome_iff_exists.mp solvent.guild
  have balance : system.bankMoney = guild.bankMoney := by
    simp [GuildSystem.bankMoney, found]
  have bounded := solvent.balance
  rw [balance] at bounded
  have kept (live : LiveGuild) (player purse : Nat) (within : live.guild.bankMoney ≤ bound)
      (cap : purse ≤ maxMoneyAmount) : Solvent bound (system.paid live player purse) := by
    refine ⟨rfl, within, fun other => ?_⟩
    simp only [GuildSystem.paid, Function.update_apply]
    split
    · exact cap
    · exact solvent.purses other
  have moved (live : LiveGuild) (player purse : Nat) (member : player ∈ players)
      : (system.paid live player purse).gold players
        = system.gold players + (live.guild.bankMoney - guild.bankMoney)
          + (purse - system.money player) := by
    have sums := sum_purses_update distinct member system.money purse
    have after : (system.paid live player purse).bankMoney = live.guild.bankMoney := rfl
    have purses : (system.paid live player purse).money
        = Function.update system.money player purse := rfl
    simp only [GuildSystem.gold, balance, after, purses]
    omega
  have withdrawn (player amount : Nat) (repair : Bool) (member : player ∈ players)
      {after : GuildSystem} (same : after
        = system.paid (handleMemberWithdrawMoney { guild, db := system.persisted.db } player
            (system.money player) amount repair).2.1 player
          (handleMemberWithdrawMoney { guild, db := system.persisted.db } player
            (system.money player) amount repair).2.2)
      : Solvent bound after
        ∧ after.gold players = system.gold players
            - (if repair = true ∧ system.pays player amount repair = true
                then min amount maxMoneyAmount else 0 : Nat)
        ∧ (system.pays player amount repair = false → after = system) := by
    subst same
    rcases withdraw_cases solvent found player amount repair with
      ⟨refused, unchanged⟩ | ⟨pays, enough, live, purse, left, cap, paid, done⟩
    · rw [unchanged]
      exact ⟨solvent, by simp [refused], fun _ => rfl⟩
    · rw [done]
      refine ⟨kept live player purse (by omega) cap, ?_, fun refused => ?_⟩
      · rw [moved live player purse member, left, paid]
        cases repair <;> simp [pays] <;> omega
      · rw [pays] at refused
        cases refused
  cases request with
  | depositMoney player amount =>
      have member := listed player rfl
      rcases deposit_cases solvent found config player amount room with
        ⟨refused, unchanged⟩ | ⟨accepted, enough, fits, done⟩
      · rw [unchanged]
        exact ⟨solvent, by simp [repairPaid], fun _ => rfl⟩
      · rw [done]
        have cap := solvent.purses player
        refine ⟨kept _ player _ fits (by omega), ?_, fun refused => ?_⟩
        · rw [moved _ player _ member]
          simp only [LiveGuild.modifyBankMoney, if_true, repairPaid]
          omega
        · rw [accepted] at refused
          cases refused
  | withdrawMoney player amount =>
      have member := listed player rfl
      rw [step_of_guild config found]
      simp only [LiveGuild.handle, GuildSystem.accepts, repairPaid]
      split
      · rename_i positive
        obtain ⟨after, gold, silent⟩ := withdrawn player amount false member rfl
        exact ⟨after, by simpa using gold, fun refused => silent (by simpa [positive] using refused)⟩
      · exact ⟨solvent, by simp, fun _ => rfl⟩
  | repair player costs =>
      have member := listed player rfl
      rw [step_of_guild config found]
      obtain ⟨after, gold, silent⟩ := withdrawn player costs true member rfl
      exact ⟨after, by simpa [LiveGuild.handle, repairPaid] using gold, silent⟩
  | _ => exact bank.elim

-- Runs

/-- Over every run of bank requests by any members the balance and the purses together lose
exactly what repairs take, the amount clamped to the money cap; a request that is not accepted
changes nothing, and the balance stays within the larger of its start and the limit of the bank.
Witness: each request keeps the bank solvent and changes the gold by what a repair takes.
-/
theorem bank_gold_is_conserved (config : GuildConfig) {system : GuildSystem}
    (standing : system.persisted.guild.isSome) (representable : system.bankMoney < 2 ^ 64)
    (purses : ∀ player, system.money player ≤ maxMoneyAmount)
    {players : List Nat} (distinct : players.Nodup)
    {requests : List GuildRequest} (bank : ∀ request ∈ requests, request.IsBankMoney)
    (listed : ∀ request ∈ requests, ∀ player, request.sender = some player → player ∈ players)
    : (run (step config) system requests).gold players
        = system.gold players
          - total (step config) (fun system request => repairPaid system request) system requests
      ∧ EachStep (step config)
          (fun system request => system.accepts request = false → step config system request = system)
          system requests
      ∧ EachState (step config)
          (fun state => state.bankMoney ≤ max system.bankMoney guildBankMoneyLimit
            ∧ state.bankMoney < 2 ^ 64)
          system requests := by
  let bound := max system.bankMoney guildBankMoneyLimit
  have solvent : Solvent bound system := ⟨standing, Nat.le_max_left _ _, purses⟩
  have room : guildBankMoneyLimit ≤ bound := Nat.le_max_right _ _
  have small : bound < 2 ^ 64 := Nat.max_lt.mpr ⟨representable, by decide⟩
  let allowed (request : GuildRequest) : Prop :=
    request.IsBankMoney ∧ ∀ player, request.sender = some player → player ∈ players
  have guarded : EachStep (step config) (fun _ request => True ∧ allowed request) system requests :=
    (eachStep_of_forall (fun _ _ => trivial) system requests).and_forall
      (fun request member => ⟨bank request member, listed request member⟩)
  have one (state : GuildSystem) (request : GuildRequest) (here : Solvent bound state)
      (ok : True ∧ allowed request) := here.step room config distinct ok.2.1 ok.2.2
  have preserved := fun state request here ok => (one state request here ok).1
  refine ⟨?_, ?_, ?_⟩
  · have lost := @measure_run_of_invariant _ _ _ _ _ preserved
      (fun state => - state.gold players) (fun state request => repairPaid state request)
      (fun state request here ok => by
        have := (one state request here ok).2.1
        omega) _ _ solvent guarded
    omega
  · exact eachStep_of_invariant preserved
      (fun state request here ok => (one state request here ok).2.2) solvent guarded
  · refine EachState.imp (fun state here => ?_) (eachState_of_invariant preserved solvent guarded)
    exact ⟨here.balance, Nat.lt_of_le_of_lt here.balance small⟩

def wealthyGuild (balance : Nat) : GuildSystem :=
  let system := bankingGuild (grRightEmpty ||| grRightWithdrawGold)
  { system with persisted := { system.persisted with
      guild := system.persisted.guild.map (fun guild => { guild with bankMoney := balance }) } }

/-- A deposit, a refused withdrawal, a paid one and a repair. -/
theorem bank_gold_is_conserved_applied
    : let config : GuildConfig := {
        allowTwoSideInteractionGuild := false, allowMultipleGuildMaster := false }
      let system := { wealthyGuild 500 with money := fun _ => 300 }
      let requests : List GuildRequest :=
        [.depositMoney 1 100, .withdrawMoney 2 700, .withdrawMoney 2 60, .repair 1 50]
      (run (step config) system requests).gold [1, 2]
        = system.gold [1, 2]
          - total (step config) (fun system request => repairPaid system request) system requests
        ∧ EachStep (step config) (fun system request =>
            system.accepts request = false → step config system request = system) system requests
        ∧ EachState (step config)
            (fun state => state.bankMoney ≤ max system.bankMoney guildBankMoneyLimit
              ∧ state.bankMoney < 2 ^ 64) system requests := by
  intro config system requests
  refine bank_gold_is_conserved config (by decide +kernel) (by decide +kernel)
    (fun _ => show 300 ≤ maxMoneyAmount by decide) (by decide) ?_ ?_
  · simp [requests, GuildRequest.IsBankMoney]
  · simp [requests, GuildRequest.sender]

/-- A repair that costs more than the money cap is paid, but only the cap leaves the bank. -/
theorem costly_repair_is_clamped
    : ¬ ∀ (config : GuildConfig) (system : GuildSystem) (player costs : Nat),
        system.accepts (.repair player costs) = true →
        (step config system (.repair player costs)).bankMoney = system.bankMoney - costs := by
  intro claim
  have paid : (wealthyGuild 3000000000).accepts (.repair 1 2500000000) = true := by
    decide +kernel
  have left := claim { allowTwoSideInteractionGuild := false, allowMultipleGuildMaster := false }
    (wealthyGuild 3000000000) 1 2500000000 paid
  have clamped : (step { allowTwoSideInteractionGuild := false, allowMultipleGuildMaster := false }
      (wealthyGuild 3000000000) (.repair 1 2500000000)).bankMoney = 852516354 := by
    decide +kernel
  rw [clamped] at left
  revert left
  decide +kernel

end WarheadCore.Guilds
