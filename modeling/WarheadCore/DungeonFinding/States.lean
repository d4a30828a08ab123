import Mathlib.Data.List.Basic

/-! The states of players and groups in the dungeon finder. -/

namespace WarheadCore.DungeonFinding

inductive LfgState where
  | none
  | rolecheck
  | queued
  | proposal
  | boot
  | dungeon
  | finishedDungeon
  | raidBrowser
deriving DecidableEq

inductive LfgAnswer where
  | pending
  | deny
  | agree
deriving DecidableEq

def LfgAnswer.ofBool (accept : Bool) : LfgAnswer := if accept then .agree else .deny

structure LfgPlayerData where
  state : LfgState := .none
  oldState : LfgState := .none
  canOverrideRBState : Bool := false
  group : Nat := 0

/-- SetState of a player; who uses the raid browser stays in it, unless that may be overridden. -/
def LfgPlayerData.setState (data : LfgPlayerData) (state : LfgState) : LfgPlayerData :=
  if data.state = .raidBrowser ∧ state ≠ .raidBrowser ∧ ¬ data.canOverrideRBState then data
  else
    match state with
    | .none | .finishedDungeon | .dungeon => { data with state, oldState := state }
    | _ => { data with state }

def LfgPlayerData.restoreState (data : LfgPlayerData) : LfgPlayerData :=
  if data.state = .raidBrowser ∧ data.oldState ≠ .raidBrowser ∧ ¬ data.canOverrideRBState then data
  else { data with state := data.oldState }

structure LfgGroupData where
  state : LfgState := .none
  oldState : LfgState := .none
  kicksLeft : Nat
  players : List Nat := []

def LfgGroupData.setState (data : LfgGroupData) (maxKickCount : Nat) (state : LfgState)
    : LfgGroupData :=
  match state with
  | .none => { data with state, oldState := state, kicksLeft := maxKickCount }
  | .finishedDungeon | .dungeon => { data with state, oldState := state }
  | _ => { data with state }

def LfgGroupData.restoreState (data : LfgGroupData) : LfgGroupData :=
  { data with state := data.oldState }

-- What a state becomes

/-- A player who is not in the raid browser gets any state. -/
theorem LfgPlayerData.setState_of_ne {data : LfgPlayerData} (outside : data.state ≠ .raidBrowser)
    (state : LfgState)
    : (data.setState state).state = state := by
  unfold setState
  rw [if_neg (fun held => outside held.1)]
  cases state <;> rfl

end WarheadCore.DungeonFinding
