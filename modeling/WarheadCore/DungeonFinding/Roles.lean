import Mathlib.Algebra.BigOperators.Group.List.Basic
import WarheadCore.Foundation.MachineIntegers

/-! The roles that players of the dungeon finder select, and the search for an assignment of one
role to each.
-/

namespace WarheadCore.DungeonFinding

/-- The roles to be filled; the leader's flag is none of them. -/
inductive Role where
  | damage | healer | tank
deriving DecidableEq

def Role.flag : Role → BitVec 8
  | .damage => 0x08
  | .healer => 0x04
  | .tank => 0x02

def playerRoleNone : BitVec 8 := 0x00
def playerRoleLeader : BitVec 8 := 0x01

def Role.needed : Role → Nat
  | .damage => 3
  | .healer => 1
  | .tank => 1

abbrev LfgRolesMap := List (Nat × BitVec 8)

structure RoleCounts where
  damage : Nat := 0
  healer : Nat := 0
  tank : Nat := 0

namespace RoleCounts

def get (counts : RoleCounts) : Role → Nat
  | .damage => counts.damage
  | .healer => counts.healer
  | .tank => counts.tank

def increment (counts : RoleCounts) : Role → RoleCounts
  | .damage => { counts with damage := counts.damage + 1 }
  | .healer => { counts with healer := counts.healer + 1 }
  | .tank => { counts with tank := counts.tank + 1 }

def total (counts : RoleCounts) : Nat := counts.tank + counts.healer + counts.damage

def code (counts : RoleCounts) : Nat := 8 * counts.tank + 4 * counts.healer + counts.damage

end RoleCounts

/-- What CheckGroupRoles returns when it is not 0, and the roles it leaves assigned. -/
abbrev Assignment := Nat × LfgRolesMap

/-- The code of CheckGroupRoles for one role of a player: a player with more roles is tried without
this one, a player with this role only is counted. The error is what CheckGroupRoles returns at
once.
-/
def visitRole (role : Role) (selected : BitVec 8)
    (without : selected &&& role.flag ≠ 0 → Option Assignment) (counts : RoleCounts)
    : Except (Option Assignment) RoleCounts :=
  if has : selected &&& role.flag ≠ 0 then
    if selected ≠ role.flag then
      match without has with
      | some assignment => .error (some assignment)
      | none => .ok counts
    else if counts.get role = role.needed then .error none
    else .ok (counts.increment role)
  else .ok counts

/-- The roles of all players as numbers, which every recursion of CheckGroupRoles lowers. -/
def weight (groles : LfgRolesMap) : Nat := (groles.map (fun slot => slot.2.toNat)).sum

theorem weight_append (first later : LfgRolesMap)
    : weight (first ++ later) = weight first + weight later := by
  simp [weight]

theorem weight_cons (slot : Nat × BitVec 8) (rest : LfgRolesMap)
    : weight (slot :: rest) = slot.2.toNat + weight rest := by
  simp [weight]

/-- Taking a selected role from a player leaves a smaller number. -/
theorem toNat_sub_flag_lt {selected : BitVec 8} {role : Role} (has : selected &&& role.flag ≠ 0)
    : (selected - role.flag).toNat < selected.toNat := by
  revert has
  cases role <;> revert selected <;> decide +kernel

/-- The loop of CheckGroupRoles: the players before the iterator, and those from it on. -/
def checkRolesFrom (before after : LfgRolesMap) (counts : RoleCounts) : Option Assignment :=
  match after with
  | [] =>
      if counts.total = before.length % 2 ^ 8 then some (counts.code, before) else none
  | it :: rest =>
      if it.2 = playerRoleNone then none
      else
        let visit (counts : RoleCounts) (role : Role) : Except (Option Assignment) RoleCounts :=
          visitRole role it.2 (fun _has =>
            checkRolesFrom [] (before ++ (it.1, it.2 - role.flag) :: rest) {}) counts
        match [Role.damage, .healer, .tank].foldlM visit counts with
        | .error result => result
        | .ok counts => checkRolesFrom (before ++ [it]) rest counts
termination_by (weight (before ++ after), after.length)
decreasing_by
  · apply Prod.Lex.left
    have := toNat_sub_flag_lt _has
    simp only [List.nil_append, weight_append, weight_cons]
    omega
  · simp only [List.append_assoc, List.singleton_append]
    apply Prod.Lex.right
    simp

def removeLeaderFlag (groles : LfgRolesMap) : LfgRolesMap :=
  groles.map (fun slot => (slot.1, slot.2 &&& ~~~playerRoleLeader))

/-- CheckGroupRoles; none where it returns 0. -/
def checkGroupRoles (groles : LfgRolesMap) : Option Assignment :=
  if groles.isEmpty then none else checkRolesFrom [] (removeLeaderFlag groles) {}

/-- The roles that CheckGroupRoles leaves; a failed search puts back all that it took. -/
def rolesAfterCheck (groles : LfgRolesMap) : LfgRolesMap :=
  match checkGroupRoles groles with
  | some assignment => assignment.2
  | none => removeLeaderFlag groles

-- Assignments are sound

/-- The counts tell how many players have each role alone, and none is above what is needed. -/
structure RoleCounts.Counts (counts : RoleCounts) (groles : LfgRolesMap) : Prop where
  exact_ : ∀ role, counts.get role = groles.countP (fun slot => slot.2 = role.flag)
  bounded : ∀ role, counts.get role ≤ role.needed

theorem RoleCounts.get_increment (counts : RoleCounts) (role other : Role)
    : (counts.increment role).get other = counts.get other + if other = role then 1 else 0 := by
  cases role <;> cases other <;> rfl

/-- What one role of a player comes to. -/
theorem visitRole_cases (role : Role) (selected : BitVec 8)
    (without : selected &&& role.flag ≠ 0 → Option Assignment) (counts : RoleCounts)
    : (∃ has assignment, without has = some assignment
        ∧ visitRole role selected without counts = .error (some assignment))
      ∨ visitRole role selected without counts = .error none
      ∨ selected = role.flag ∧ counts.get role ≠ role.needed
        ∧ visitRole role selected without counts = .ok (counts.increment role)
      ∨ selected ≠ role.flag ∧ visitRole role selected without counts = .ok counts := by
  unfold visitRole
  split
  · rename_i has
    split
    · rename_i more
      split
      · rename_i assignment found
        exact .inl ⟨has, assignment, found, rfl⟩
      · exact .inr (.inr (.inr ⟨more, rfl⟩))
    · rename_i alone
      split
      · exact .inr (.inl rfl)
      · rename_i wanted
        exact .inr (.inr (.inl ⟨not_not.mp alone, wanted, rfl⟩))
  · rename_i lacks
    refine .inr (.inr (.inr ⟨?_, rfl⟩))
    rintro rfl
    exact lacks (by cases role <;> decide)

theorem flag_injective {role other : Role} (same : role.flag = other.flag) : role = other := by
  revert same
  cases role <;> cases other <;> decide

section Visit

variable {selected : BitVec 8}
  {without : (role : Role) → selected &&& role.flag ≠ 0 → Option Assignment}

/-- An assignment that is returned at once was found without one of the roles. -/
theorem visit_error {roles : List Role} {counts : RoleCounts} {assignment : Assignment}
    (found
      : roles.foldlM (fun counts role => visitRole role selected (without role) counts) counts
        = .error (some assignment))
    : ∃ role has, without role has = some assignment := by
  induction roles generalizing counts with
  | nil => cases found
  | cons role rest ih =>
      rw [List.foldlM_cons] at found
      rcases visitRole_cases role selected (without role) counts with
        ⟨has, other, inner, same⟩ | same | ⟨-, -, same⟩ | ⟨-, same⟩ <;> rw [same] at found
      · obtain rfl : other = assignment := Option.some.inj (Except.error.inj found)
        exact ⟨role, has, inner⟩
      · cases Except.error.inj found
      · exact ih found
      · exact ih found

/-- A player who is passed is counted for his role, if he has one only. -/
theorem visit_ok {roles : List Role} (distinct : roles.Nodup) {counts counted : RoleCounts}
    (passed
      : roles.foldlM (fun counts role => visitRole role selected (without role) counts) counts
        = .ok counted)
    (bounded : ∀ role, counts.get role ≤ role.needed)
    : ∀ role,
        counted.get role = counts.get role + (if role ∈ roles ∧ selected = role.flag then 1 else 0)
        ∧ counted.get role ≤ role.needed := by
  induction roles generalizing counts with
  | nil =>
      obtain rfl : counts = counted := Except.ok.inj passed
      intro role
      simpa using bounded role
  | cons first rest ih =>
      obtain ⟨apart, distinct⟩ := List.nodup_cons.mp distinct
      rw [List.foldlM_cons] at passed
      rcases visitRole_cases first selected (without first) counts with
        ⟨_, _, _, same⟩ | same | ⟨alone, wanted, same⟩ | ⟨other, same⟩ <;> rw [same] at passed
      · cases passed
      · cases passed
      · have next : ∀ role, (counts.increment first).get role ≤ role.needed := by
          intro role
          rw [RoleCounts.get_increment]
          split
          · rename_i here
            subst here
            have := bounded role
            omega
          · exact bounded role
        intro role
        have later := ih distinct passed next role
        refine ⟨?_, later.2⟩
        rw [later.1, RoleCounts.get_increment]
        by_cases here : role = first
        · subst here
          simp [apart, alone]
        · have no : selected ≠ role.flag := fun own => here (flag_injective (own.symm.trans alone))
          simp [here, no]
      · intro role
        have later := ih distinct passed bounded role
        refine ⟨?_, later.2⟩
        rw [later.1]
        by_cases here : role = first
        · subst here
          simp [other]
        · simp [here]

end Visit

/-- The counts stay right as the loop goes on to the next player. -/
theorem RoleCounts.Counts.visited {counts counted : RoleCounts} {before : LfgRolesMap}
    {it : Nat × BitVec 8} {without : (role : Role) → it.2 &&& role.flag ≠ 0 → Option Assignment}
    (right : counts.Counts before)
    (passed
      : [Role.damage, .healer, .tank].foldlM
          (fun counts role => visitRole role it.2 (without role) counts) counts
        = .ok counted)
    : counted.Counts (before ++ [it]) := by
  have passed := visit_ok (by decide) passed right.bounded
  refine ⟨fun role => ?_, fun role => (passed role).2⟩
  rw [(passed role).1, right.exact_, List.countP_append, List.countP_singleton]
  cases role <;> simp

/-- A player with one role that is still needed is counted for it. -/
theorem checkRolesFrom_single {role : Role} {counts : RoleCounts}
    (wanted : counts.get role ≠ role.needed) (before rest : LfgRolesMap) (guid : Nat)
    : checkRolesFrom before ((guid, role.flag) :: rest) counts
      = checkRolesFrom (before ++ [(guid, role.flag)]) rest (counts.increment role) := by
  rw [checkRolesFrom]
  cases role <;>
    simp_all [visitRole, Role.flag, Role.needed, playerRoleNone, Except.bind, bind, pure,
      Except.pure]

def Assigns (groles result : LfgRolesMap) : Prop :=
  List.Forall₂ (fun slot assigned =>
    assigned.1 = slot.1 ∧ ∃ role : Role, assigned.2 = role.flag ∧ slot.2 &&& role.flag ≠ 0)
    groles result

/-- What is selected without a role was selected before. -/
theorem selected_of_sub {selected : BitVec 8} {role other : Role}
    (has : selected &&& role.flag ≠ 0) (still : (selected - role.flag) &&& other.flag ≠ 0)
    : selected &&& other.flag ≠ 0 := by
  revert has still
  cases role <;> cases other <;> revert selected <;> decide +kernel

/-- An assignment of fewer selected roles is one of the roles selected before. -/
theorem assigns_of_narrowed {before rest result : LfgRolesMap} {guid : Nat} {selected : BitVec 8}
    {role : Role} (has : selected &&& role.flag ≠ 0)
    (assigned : Assigns (before ++ (guid, selected - role.flag) :: rest) result)
    : Assigns (before ++ (guid, selected) :: rest) result := by
  induction before generalizing result with
  | nil =>
      cases assigned with
      | cons first later =>
          obtain ⟨same, other, own, still⟩ := first
          exact .cons ⟨same, other, own, selected_of_sub has still⟩ later
  | cons slot before ih =>
      cases assigned with
      | cons first later => exact .cons first (ih later)

def singles (groles : LfgRolesMap) : Nat :=
  groles.countP (fun slot => slot.2 = Role.tank.flag)
    + groles.countP (fun slot => slot.2 = Role.healer.flag)
    + groles.countP (fun slot => slot.2 = Role.damage.flag)

theorem singles_cons_of_single {slot : Nat × BitVec 8} {role : Role} (own : slot.2 = role.flag)
    (rest : LfgRolesMap)
    : singles (slot :: rest) = singles rest + 1 := by
  unfold singles
  rw [List.countP_cons, List.countP_cons, List.countP_cons]
  cases role <;> simp [own, Role.flag] <;> omega

theorem singles_cons_of_other {slot : Nat × BitVec 8} (other : ∀ role : Role, slot.2 ≠ role.flag)
    (rest : LfgRolesMap)
    : singles (slot :: rest) = singles rest := by
  unfold singles
  rw [List.countP_cons, List.countP_cons, List.countP_cons]
  simp [other]

/-- Players who are all counted have one role each. -/
theorem single_of_singles {groles : LfgRolesMap}
    : singles groles ≤ groles.length
      ∧ (singles groles = groles.length → ∀ slot ∈ groles, ∃ role : Role, slot.2 = role.flag) := by
  induction groles with
  | nil => simp [singles]
  | cons slot rest ih =>
      rw [List.length_cons]
      by_cases single : ∃ role : Role, slot.2 = role.flag
      · obtain ⟨role, own⟩ := single
        rw [singles_cons_of_single own]
        refine ⟨by omega, fun all other member => ?_⟩
        rcases List.mem_cons.mp member with rfl | later
        · exact ⟨role, own⟩
        · exact ih.2 (by omega) other later
      · rw [singles_cons_of_other (fun role own => single ⟨role, own⟩)]
        exact ⟨by omega, fun all => by omega⟩

theorem assigns_self {groles : LfgRolesMap} (single : ∀ slot ∈ groles, ∃ role : Role, slot.2 = role.flag)
    : Assigns groles groles := by
  apply List.forall₂_same.mpr
  intro slot member
  obtain ⟨role, own⟩ := single slot member
  exact ⟨rfl, role, own, by rw [own]; cases role <;> decide⟩

structure Assigned (groles : LfgRolesMap) (assignment : Assignment) : Prop where
  assigns : Assigns groles assignment.2
  counts
    : ∃ counts : RoleCounts,
        counts.Counts assignment.2
        ∧ counts.total = assignment.2.length
        ∧ assignment.1 = counts.code

theorem RoleCounts.counts_nil : ({} : RoleCounts).Counts [] :=
  ⟨fun role => by cases role <;> rfl, fun role => by cases role <;> simp [RoleCounts.get]⟩

theorem RoleCounts.Counts.total_eq {counts : RoleCounts} {groles : LfgRolesMap}
    (counted : counts.Counts groles)
    : counts.total = singles groles := by
  unfold singles RoleCounts.total
  rw [← counted.exact_, ← counted.exact_, ← counted.exact_]
  rfl

/-- Players whose counts come to their number have one role each. -/
theorem RoleCounts.Counts.single {counts : RoleCounts} {groles : LfgRolesMap}
    (counted : counts.Counts groles) (all : counts.total = groles.length)
    : ∀ slot ∈ groles, ∃ role : Role, slot.2 = role.flag := by
  apply single_of_singles.2
  rw [← all]
  exact counted.total_eq.symm

theorem singles_of_single {groles : LfgRolesMap}
    (single : ∀ slot ∈ groles, ∃ role : Role, slot.2 = role.flag)
    : singles groles = groles.length := by
  induction groles with
  | nil => rfl
  | cons slot rest ih =>
      obtain ⟨role, own⟩ := single slot List.mem_cons_self
      rw [singles_cons_of_single own, List.length_cons]
      rw [ih (fun other member => single other (List.mem_cons_of_mem _ member))]

/-- What is true of players who are all counted, and of players one of whose roles was taken only
if of them before, is true of what the loop of CheckGroupRoles finds.
Witness: induction along the recursion.
-/
theorem checkRolesFrom_rule {P : LfgRolesMap → Assignment → Prop}
    (counted
      : ∀ groles (counts : RoleCounts),
          counts.Counts groles → counts.total = groles.length → P groles (counts.code, groles))
    (narrowed
      : ∀ before rest (slot : Nat × BitVec 8) (role : Role) assignment,
          slot.2 &&& role.flag ≠ 0 →
          P (before ++ (slot.1, slot.2 - role.flag) :: rest) assignment →
          P (before ++ slot :: rest) assignment)
    {before after : LfgRolesMap} {counts : RoleCounts} {assignment : Assignment}
    (found : checkRolesFrom before after counts = some assignment)
    (counts_ : counts.Counts before) (short : (before ++ after).length < 2 ^ 8)
    : P (before ++ after) assignment := by
  induction before, after, counts using checkRolesFrom.induct with
  | case1 before counts all =>
      rw [checkRolesFrom, if_pos all] at found
      obtain rfl := Option.some.inj found
      rw [List.append_nil] at short ⊢
      rw [Nat.mod_eq_of_lt short] at all
      exact counted before counts counts_ all
  | case2 before counts missing =>
      rw [checkRolesFrom, if_neg missing] at found
      cases found
  | case3 before counts it rest none_ =>
      rw [checkRolesFrom, if_pos none_] at found
      cases found
  | case4 before counts it rest some_ visit result visited ih =>
      rw [checkRolesFrom, if_neg some_] at found
      dsimp only at found
      rw [visited] at found
      obtain rfl : result = some assignment := found
      obtain ⟨role, has, inner⟩ := visit_error visited
      have same : (before ++ (it.1, it.2 - role.flag) :: rest).length
          = (before ++ it :: rest).length := by
        simp
      apply narrowed before rest it role assignment has
      exact ih role has inner RoleCounts.counts_nil (by rw [List.nil_append, same]; exact short)
  | case5 before counts it rest some_ visit next visited ih1 ih2 =>
      rw [checkRolesFrom, if_neg some_] at found
      dsimp only at found
      rw [visited] at found
      have later := counts_.visited visited
      rw [List.append_cons] at short ⊢
      exact ih2 found later short

/-- The loop of CheckGroupRoles finds assignments only.
Witness: an assignment found without a role of a player is one.
-/
theorem assigned_of_checkRolesFrom {before after : LfgRolesMap} {counts : RoleCounts}
    {assignment : Assignment} (found : checkRolesFrom before after counts = some assignment)
    (counted : counts.Counts before) (short : (before ++ after).length < 2 ^ 8)
    : Assigned (before ++ after) assignment := by
  refine checkRolesFrom_rule ?_ ?_ found counted short
  · intro groles counts counted all
    exact ⟨assigns_self (counted.single all), counts, counted, all, rfl⟩
  · rintro before rest slot role assignment has ⟨assigns, counts⟩
    exact ⟨assigns_of_narrowed has assigns, counts⟩

/-- What CheckGroupRoles finds gives every player one role of those he selected. -/
theorem assigned_of_checkGroupRoles {groles : LfgRolesMap} {assignment : Assignment}
    (found : checkGroupRoles groles = some assignment) (short : groles.length < 2 ^ 8)
    : Assigned (removeLeaderFlag groles) assignment := by
  unfold checkGroupRoles at found
  split at found
  · cases found
  · apply @assigned_of_checkRolesFrom [] _ _ _ found RoleCounts.counts_nil
    simpa [removeLeaderFlag] using short

end WarheadCore.DungeonFinding
