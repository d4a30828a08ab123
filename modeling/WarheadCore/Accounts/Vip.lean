import WarheadCore.Foundation.Runs
import WarheadCore.Foundation.Tables

/-! Accounts with VIP status: the command that unbinds a player's instances, with the time that has
to pass before it can be used again, and the task that removes accounts whose status has ended.
-/

namespace WarheadCore.Accounts

open Foundation Foundation.Runs

-- Unbinding instances

/-- A use of the command, and what it finds. The loops walk over maps from which they erase, so that
the instances to which they come after the first one are up to those maps.
-/
structure UnbindCommand where
  guid : Nat
  time : Int
  isEnable : Bool := true
  isVip : Bool := true
  /-- `CanUseUnbindCommands` of the player's level, where the level is known. -/
  canUseUnbindCommands : Option Bool := some true
  mapId : Nat := 0
  /-- The entries that are visited, each a difficulty and a map. -/
  visited : List (Nat × Nat)

structure UnbindMgr where
  storeUnbind : Table Nat Int := ∅
  boundInstances : Nat → List (Nat × Nat) := fun _ => []
  /-- The unbinds of the run that succeeded, recorded besides: players and times. -/
  unbinds : List (Nat × Int) := []

section Unbinds

variable (unbindDuration : Int)

/-- The command ends before its loops. -/
def isRejected (mgr : UnbindMgr) (command : UnbindCommand) : Bool :=
  !command.isEnable || !command.isVip || command.canUseUnbindCommands != some true
    || (mgr.storeUnbind.get? command.guid).any
        (fun unbindTime => decide (command.time - unbindTime < unbindDuration))

def UnbindMgr.unbound (mgr : UnbindMgr) (command : UnbindCommand) : List (Nat × Nat) :=
  command.visited.filter (fun entry =>
    command.mapId ≠ entry.2 && decide (entry ∈ mgr.boundInstances command.guid))

def unBindInstances (mgr : UnbindMgr) (command : UnbindCommand) : UnbindMgr :=
  if isRejected unbindDuration mgr command then mgr
  else
    let unbound := mgr.unbound command
    if unbound.isEmpty then mgr
    else
      { storeUnbind := mgr.storeUnbind.emplace command.guid command.time
        boundInstances := Function.update mgr.boundInstances command.guid
          ((mgr.boundInstances command.guid).filter (· ∉ unbound))
        unbinds := mgr.unbinds ++ [(command.guid, command.time)] }

/-- Unbinds of one player are apart. -/
def Spaced (mgr : UnbindMgr) : Prop :=
  mgr.unbinds.Pairwise fun first later =>
    first.1 = later.1 → first.2 + unbindDuration ≤ later.2

/-- The entry of the player is not older than what the player has unbound. -/
def EntryIsLast (mgr : UnbindMgr) (command : UnbindCommand) : Prop :=
  ∀ unbind ∈ mgr.unbinds, unbind.1 = command.guid →
    (mgr.storeUnbind.get? command.guid).any (fun unbindTime => decide (unbind.2 ≤ unbindTime))
      = true

theorem unBindInstances_of_isRejected (mgr : UnbindMgr) (command : UnbindCommand)
    (rejected : isRejected unbindDuration mgr command = true)
    : unBindInstances unbindDuration mgr command = mgr :=
  if_pos rejected

/-- What is not rejected comes late enough after the entry, and so after all unbinds before. -/
theorem Spaced.unBindInstances {mgr : UnbindMgr} {command : UnbindCommand}
    (spaced : Spaced unbindDuration mgr) (last : EntryIsLast mgr command)
    : Spaced unbindDuration (unBindInstances unbindDuration mgr command) := by
  unfold Accounts.unBindInstances
  split
  · exact spaced
  · rename_i passed
    dsimp only
    split
    · exact spaced
    · refine List.pairwise_append.mpr ⟨spaced, List.pairwise_singleton _ _, ?_⟩
      intro first member later new same
      obtain rfl := List.mem_singleton.mp new
      obtain ⟨unbindTime, found, le⟩ := (Option.any_eq_true _ _).mp (last first member same)
      have le := of_decide_eq_true le
      have late : ¬command.time - unbindTime < unbindDuration := by
        intro early
        exact passed (by simp [isRejected, found, early])
      dsimp only
      omega

/-- In every run in which the entry of a player is the last unbind whenever the command is used, the
unbinds of a player are apart, and a rejected command changes nothing.
-/
theorem unbinds_spaced (start : UnbindMgr) (fresh : start.unbinds = [])
    (commands : List UnbindCommand)
    (last : EachStep (unBindInstances unbindDuration) EntryIsLast start commands)
    : EachState (unBindInstances unbindDuration) (Spaced unbindDuration) start commands
      ∧ EachStep (unBindInstances unbindDuration)
          (fun mgr command => isRejected unbindDuration mgr command = true →
            unBindInstances unbindDuration mgr command = mgr) start commands := by
  refine ⟨eachState_of_invariant (fun mgr command spaced last => spaced.unBindInstances _ last)
    ?_ last, eachStep_of_forall (unBindInstances_of_isRejected unbindDuration) _ _⟩
  unfold Spaced
  rw [fresh]
  exact List.Pairwise.nil

end Unbinds

/-- The player 1 unbinds an instance at each of these times. -/
def unbindsAt (times : List Int) : List UnbindCommand :=
  times.map fun time => { guid := 1, time, visited := [(0, 36 + time.toNat)] }

def boundPlayer : UnbindMgr := { boundInstances := fun _ => [(0, 36), (0, 46), (0, 47)] }

theorem unbinds_spaced_applied
    : EachState (unBindInstances 10) (Spaced 10) boundPlayer (unbindsAt [0, 10]) :=
  (unbinds_spaced 10 boundPlayer rfl (unbindsAt [0, 10])
    ⟨fun _ member => absurd member List.not_mem_nil, by
      intro unbind member _
      obtain rfl := List.mem_singleton.mp member
      rfl, trivial⟩).1

/-- The third unbind is a second after the second one, since the entry is still the first. -/
theorem third_unbind_comes_early
    : ∃ commands : List UnbindCommand,
        commands.Pairwise (fun first later => first.time ≤ later.time)
        ∧ ¬EachState (unBindInstances 10) (Spaced 10) boundPlayer commands := by
  refine ⟨unbindsAt [0, 10, 11], by decide, fun spaced => ?_⟩
  have early := spaced.last
  revert early
  unfold Spaced
  decide

-- The end of a status

structure VipInfo where
  accountID : Nat
  level : Nat
  startTime : Int
  endTime : Int

/-- A row of `account_premium`. -/
structure PremiumRow where
  accountID : Nat
  level : Nat
  isActive : Bool
deriving DecidableEq

structure VipMgr where
  store : Table Nat VipInfo := ∅
  premium : List PremiumRow := []

/-- UPDATE `account_premium` SET `IsActive` = 0 for the active rows of the account. -/
def setInactive (accountID : Nat) (rows : List PremiumRow) : List PremiumRow :=
  rows.map (fun row =>
    if row.accountID = accountID ∧ row.isActive then { row with isActive := false } else row)

/-- `Vip::UnSet`, which calls `Vip::Delete`. -/
def VipMgr.unSet (mgr : VipMgr) (accountID : Nat) : VipMgr :=
  match mgr.store.get? accountID with
  | none => mgr
  | some _ =>
      { store := mgr.store.remove accountID, premium := setInactive accountID mgr.premium }

/-- The loop of the task, which goes on from one entry of the store to the next. From an entry that
is no longer in the store it cannot go on.
-/
def removeExpired (now : Int) : List ((_ : Nat) × VipInfo) → VipMgr → Option VipMgr
  | [], mgr => some mgr
  | ⟨accountID, vipInfo⟩ :: rest, mgr =>
      let mgr := if now ≥ vipInfo.endTime then mgr.unSet accountID else mgr
      if (mgr.store.get? accountID).isSome then removeExpired now rest mgr else none

def VipMgr.sweep (mgr : VipMgr) (now : Int) : Option VipMgr :=
  removeExpired now mgr.store.entries mgr

def VipMgr.isExpired (mgr : VipMgr) (now : Int) (accountID : Nat) : Bool :=
  (mgr.store.get? accountID).any (fun vipInfo => vipInfo.endTime ≤ now)

/-- The task removes the accounts whose time is over, and marks their rows. -/
def VipMgr.SweptTo (mgr : VipMgr) (now : Int) (swept : VipMgr) : Prop :=
  (∀ accountID, swept.store.get? accountID
    = if mgr.isExpired now accountID then none else mgr.store.get? accountID)
  ∧ swept.premium = mgr.premium.map (fun row =>
      if mgr.isExpired now row.accountID then { row with isActive := false } else row)

theorem removeExpired_of_running {now : Int} {mgr : VipMgr} (entries : List ((_ : Nat) × VipInfo))
    (there : ∀ entry ∈ entries, (mgr.store.get? entry.1).isSome)
    (running : ∀ entry ∈ entries, now < entry.2.endTime)
    : removeExpired now entries mgr = some mgr := by
  induction entries with
  | nil => rfl
  | cons entry entries ih =>
      have after : ¬now ≥ entry.2.endTime :=
        Int.not_le.mpr (running entry List.mem_cons_self)
      simp only [removeExpired, if_neg after, there entry List.mem_cons_self, if_true]
      exact ih (fun other member => there other (List.mem_cons_of_mem _ member))
        (fun other member => running other (List.mem_cons_of_mem _ member))

/-- The loop ends at the first account whose time is over. -/
theorem removeExpired_of_expired {now : Int} {mgr : VipMgr} {entries : List ((_ : Nat) × VipInfo)}
    {expired : (_ : Nat) × VipInfo} (member : expired ∈ entries)
    (over_ : expired.2.endTime ≤ now)
    : removeExpired now entries mgr = none := by
  induction entries generalizing mgr with
  | nil => cases member
  | cons entry entries ih =>
      unfold removeExpired
      dsimp only
      by_cases ended : now ≥ entry.2.endTime
      · rw [if_pos ended, if_neg]
        unfold VipMgr.unSet
        split
        · rename_i absent
          simp [absent]
        · simp
      · rw [if_neg ended]
        rcases List.mem_cons.mp member with rfl | member
        · exact absurd over_ ended
        · split
          · exact ih member
          · rfl

/-- The task ends with the expired accounts removed and marked if and only if there are none. -/
theorem exists_sweep_iff (mgr : VipMgr) (now : Int)
    : (∃ swept, mgr.sweep now = some swept ∧ mgr.SweptTo now swept)
      ↔ ∀ accountID vipInfo, mgr.store.get? accountID = some vipInfo → now < vipInfo.endTime := by
  constructor
  · rintro ⟨swept, ran, -⟩ accountID vipInfo found
    by_contra over_
    rw [VipMgr.sweep, removeExpired_of_expired (Table.get?_eq_some_iff.mp found)
      (Int.not_lt.mp over_)] at ran
    cases ran
  · intro running
    have none_ : ∀ accountID, mgr.isExpired now accountID = false := by
      intro accountID
      unfold VipMgr.isExpired
      cases found : mgr.store.get? accountID with
      | none => rfl
      | some vipInfo =>
          simpa using running accountID vipInfo found
    refine ⟨mgr, removeExpired_of_running _ (fun entry member => ?_) (fun entry member => ?_),
      fun accountID => by rw [none_]; rfl, ?_⟩
    · rw [Table.get?_eq_some_iff.mpr member]
      rfl
    · exact running _ _ (Table.get?_eq_some_iff.mpr member)
    · simp only [none_, Bool.false_eq_true, if_false, List.map_id']

/-- An account whose time is over is erased under the loop. -/
theorem sweep_of_expired_account
    : ∃ mgr : VipMgr, ¬∃ swept, mgr.sweep 100 = some swept ∧ mgr.SweptTo 100 swept := by
  refine ⟨{ store := Table.put ∅ 7 ⟨7, 1, 0, 50⟩ }, ?_⟩
  rintro ⟨swept, ran, -⟩
  cases ran

end WarheadCore.Accounts
