import WarheadCore.DungeonFinding.Roles

/-! CheckGroupRoles as the code runs it: the recursion works on the caller's map, takes a role from
a player before it tries the others and gives it back when they failed. The search of Roles is what
it comes to, and that search misses no assignment.
-/

namespace WarheadCore.DungeonFinding

-- The function on the shared map

namespace RoleChecks

/-- The value that CheckGroupRoles returns, and the map as it leaves it. -/
abbrev Returned := Nat × LfgRolesMap

/-- Either CheckGroupRoles has returned, or it goes on with the map and the counts. -/
abbrev Visited := Except Returned (LfgRolesMap × RoleCounts)

def second (groles : LfgRolesMap) (it : Nat) : BitVec 8 := (groles.getD it (0, 0)).2

def setSecond (groles : LfgRolesMap) (it : Nat) (roles : BitVec 8) : LfgRolesMap :=
  groles.modify it (fun slot => (slot.1, roles))

section Loop

-- What CheckGroupRoles without removal of the leader's flag does; none where it does not return.
variable (recurse : LfgRolesMap → Option Returned)

def visit (it : Nat) (role : Role) (groles : LfgRolesMap) (counts : RoleCounts) : Option Visited :=
  if second groles it &&& role.flag ≠ 0 then
    if second groles it ≠ role.flag then
      match recurse (setSecond groles it (second groles it - role.flag)) with
      | none => none
      | some (x, tried) =>
          if x ≠ 0 then some (.error (x, tried))
          else some (.ok (setSecond tried it (second tried it + role.flag), counts))
    else if counts.get role = role.needed then some (.error (0, groles))
    else some (.ok (groles, counts.increment role))
  else some (.ok (groles, counts))

/-- The three roles of the player at the iterator, in the order of the code. -/
def visitAll (it : Nat) : List Role → LfgRolesMap → RoleCounts → Option Visited
  | [], groles, counts => some (.ok (groles, counts))
  | role :: rest, groles, counts =>
      match visit recurse it role groles counts with
      | none => none
      | some (.error returned) => some (.error returned)
      | some (.ok (groles, counts)) => visitAll it rest groles counts

def loop : List Nat → LfgRolesMap → RoleCounts → Option Returned
  | [], groles, counts =>
      some (if counts.total = groles.length % 2 ^ 8 then counts.code else 0, groles)
  | it :: rest, groles, counts =>
      if second groles it = playerRoleNone then some (0, groles)
      else
        match visitAll recurse it [.damage, .healer, .tank] groles counts with
        | none => none
        | some (.error returned) => some returned
        | some (.ok (groles, counts)) => loop rest groles counts

end Loop

/-- CheckGroupRoles with a bound on the depth of the recursion; none where the bound is reached. -/
def checkGroupRoles : Nat → LfgRolesMap → Bool → Option Returned
  | 0, _, _ => none
  | fuel + 1, groles, removeFlag =>
      if groles.isEmpty then some (0, groles)
      else
        loop (fun tried => checkGroupRoles fuel tried false) (List.range groles.length)
          (if removeFlag then removeLeaderFlag groles else groles) {}

end RoleChecks

-- A failing search restores the map

namespace RoleChecks

/-- What the search of Roles gives, as the code returns it: a failure leaves the map. -/
def returned (groles : LfgRolesMap) : Option Assignment → Returned
  | some assignment => assignment
  | none => (0, groles)

theorem second_at (before rest : LfgRolesMap) (slot : Nat × BitVec 8)
    : second (before ++ slot :: rest) before.length = slot.2 := by
  simp [second]

theorem setSecond_at (before rest : LfgRolesMap) (slot : Nat × BitVec 8) (roles : BitVec 8)
    : setSecond (before ++ slot :: rest) before.length roles
      = before ++ (slot.1, roles) :: rest := by
  simp [setSecond, List.modify_eq_take_cons_drop]

/-- A value that was found is not the 0 of a failure. -/
theorem code_ne_zero {groles : LfgRolesMap} {assignment : Assignment}
    (assigned : Assigned groles assignment) (some_ : groles ≠ [])
    : assignment.1 ≠ 0 := by
  obtain ⟨counts, -, all, same⟩ := assigned.counts
  have length := assigned.assigns.length_eq
  have := List.length_pos_of_ne_nil some_
  rw [same]
  unfold RoleCounts.total at all
  unfold RoleCounts.code
  omega

def visited (groles : LfgRolesMap) : Except (Option Assignment) RoleCounts → Visited
  | .error result => .error (returned groles result)
  | .ok counts => .ok (groles, counts)

/-- The recursion does what the search of Roles does, on every map of fewer roles. -/
def Refines (recurse : LfgRolesMap → Option Returned) (groles : LfgRolesMap) : Prop :=
  ∀ tried, weight tried < weight groles → tried.length = groles.length →
    recurse tried = some (returned tried (checkRolesFrom [] tried {}))
    ∧ ∀ assignment, checkRolesFrom [] tried {} = some assignment → assignment.1 ≠ 0

section Loop

variable {recurse : LfgRolesMap → Option Returned}

/-- One role of a player. A role that was taken is given back where the others do not do. -/
theorem visit_eq {before rest : LfgRolesMap} {slot : Nat × BitVec 8} {groles : LfgRolesMap}
    (here : groles = before ++ slot :: rest) (refines : Refines recurse groles) (role : Role)
    (counts : RoleCounts)
    : visit recurse before.length role groles counts
      = some (visited groles
          (visitRole role slot.2
            (fun _ => checkRolesFrom [] (before ++ (slot.1, slot.2 - role.flag) :: rest) {})
            counts)) := by
  subst here
  unfold visit visitRole
  rw [second_at, setSecond_at]
  by_cases has : slot.2 &&& role.flag ≠ 0
  · rw [if_pos has, dif_pos has]
    by_cases more : slot.2 ≠ role.flag
    · rw [if_pos more, if_pos more]
      have fewer : weight (before ++ (slot.1, slot.2 - role.flag) :: rest)
          < weight (before ++ slot :: rest) := by
        have := toNat_sub_flag_lt has
        simp only [weight_append, weight_cons]
        omega
      obtain ⟨same, found⟩ := refines _ fewer (by simp)
      rw [same]
      cases result : checkRolesFrom [] (before ++ (slot.1, slot.2 - role.flag) :: rest) {} with
      | some assignment => exact if_pos (found assignment result)
      | none =>
          dsimp only [returned, visited]
          rw [if_neg (not_not.mpr rfl), second_at, setSecond_at]
          rw [BitVec.sub_add_cancel]
    · rw [if_neg more, if_neg more]
      split <;> rfl
  · rw [if_neg has, dif_neg has]
    rfl

theorem visitAll_eq {before rest : LfgRolesMap} {slot : Nat × BitVec 8} {groles : LfgRolesMap}
    (here : groles = before ++ slot :: rest) (refines : Refines recurse groles)
    (roles : List Role) (counts : RoleCounts)
    : visitAll recurse before.length roles groles counts
      = some (visited groles
          (roles.foldlM
            (fun counts role =>
              visitRole role slot.2
                (fun _ => checkRolesFrom [] (before ++ (slot.1, slot.2 - role.flag) :: rest) {})
                counts)
            counts)) := by
  induction roles generalizing counts with
  | nil => rfl
  | cons role rest ih =>
      rw [visitAll, visit_eq here refines, List.foldlM_cons]
      cases visitRole role slot.2 _ counts with
      | error result => rfl
      | ok counts => exact ih counts

/-- The loop does what the search of Roles does, and leaves the map where that fails. -/
theorem loop_eq {after before groles : LfgRolesMap} (here : groles = before ++ after)
    (refines : Refines recurse groles) (counts : RoleCounts)
    : loop recurse (List.range' before.length after.length) groles counts
      = some (returned groles (checkRolesFrom before after counts)) := by
  induction after generalizing before counts with
  | nil =>
      rw [List.append_nil] at here
      subst here
      rw [checkRolesFrom]
      dsimp only [List.length_nil, List.range', loop]
      split <;> rfl
  | cons slot rest ih =>
      rw [checkRolesFrom, List.length_cons, List.range'_succ, loop]
      have own : second groles before.length = slot.2 := by
        rw [here, second_at]
      rw [own]
      split
      · rfl
      · rw [visitAll_eq here refines]
        dsimp only
        cases @List.foldlM (Except (Option Assignment)) _ RoleCounts Role _ counts
          [.damage, .healer, .tank] with
        | error result => rfl
        | ok counts =>
            have later := @ih (before ++ [slot]) (by rw [here, List.append_cons]) counts
            rw [List.length_append, List.length_singleton] at later
            exact later

end Loop

/-- A map with players on it is searched within as many steps as its roles come to. -/
theorem checkGroupRoles_eq {fuel : Nat} {groles : LfgRolesMap} (enough : weight groles < fuel)
    (some_ : groles ≠ []) (short : groles.length < 2 ^ 8)
    : checkGroupRoles fuel groles false
      = some (returned groles (checkRolesFrom [] groles {})) := by
  induction fuel generalizing groles with
  | zero => omega
  | succ fuel ih =>
      rw [checkGroupRoles, if_neg (by rwa [List.isEmpty_iff]), if_neg Bool.false_ne_true]
      rw [List.range_eq_range']
      refine loop_eq (List.nil_append groles).symm ?_ {}
      intro tried fewer same
      have players : tried ≠ [] := by
        intro empty
        rw [empty] at same
        exact some_ (List.length_eq_zero_iff.mp same.symm)
      refine ⟨ih (by omega) players (by omega), ?_⟩
      intro assignment found
      have short : ([] ++ tried).length < 2 ^ 8 := by
        rw [List.nil_append, same]
        exact short
      exact code_ne_zero (assigned_of_checkRolesFrom found RoleCounts.counts_nil short) players

end RoleChecks

-- The search misses no assignment

/-- One role for every player, of those he selected, and of no role more than are needed. -/
structure Fills (groles result : LfgRolesMap) : Prop where
  assigns : Assigns groles result
  bounded : ∀ role : Role, result.countP (fun slot => slot.2 = role.flag) ≤ role.needed

def RolesOnly (groles : LfgRolesMap) : Prop :=
  ∀ slot ∈ groles, slot.2 &&& ~~~(Role.tank.flag ||| Role.healer.flag ||| Role.damage.flag) = 0

structure Fillable (groles : LfgRolesMap) : Prop where
  rolesOnly : RolesOnly groles
  fills : ∃ result, Fills groles result

/-- The role that an assignment gives a player is all that matters of his mask. -/
theorem assigns_at {before rest result : LfgRolesMap} {slot : Nat × BitVec 8}
    (assigned : Assigns (before ++ slot :: rest) result)
    : ∃ role : Role, slot.2 &&& role.flag ≠ 0
      ∧ ∀ roles, roles &&& role.flag ≠ 0 →
        Assigns (before ++ (slot.1, roles) :: rest) result := by
  induction before generalizing result with
  | nil =>
      cases assigned with
      | cons first later =>
          obtain ⟨same, role, own, has⟩ := first
          exact ⟨role, has, fun roles selected => .cons ⟨same, role, own, selected⟩ later⟩
  | cons other before ih =>
      cases assigned with
      | cons first later =>
          obtain ⟨role, has, change⟩ := ih later
          exact ⟨role, has, fun roles selected => .cons first (change roles selected)⟩

theorem flag_of_selected {role other : Role} (selected : role.flag &&& other.flag ≠ 0)
    : other = role := by
  revert selected
  cases role <;> cases other <;> decide

/-- Who has one role only is given that one. -/
theorem countP_le_of_assigns {groles result : LfgRolesMap} (assigned : Assigns groles result)
    (role : Role)
    : groles.countP (fun slot => slot.2 = role.flag)
      ≤ result.countP (fun slot => slot.2 = role.flag) := by
  induction assigned with
  | nil => exact Nat.le_refl _
  | @cons slot given groles result first later ih =>
      obtain ⟨-, other, own, has⟩ := first
      rw [List.countP_cons, List.countP_cons]
      by_cases single : slot.2 = role.flag
      · obtain rfl : other = role := flag_of_selected (by rwa [single] at has)
        simp only [single, own, decide_true, if_true]
        omega
      · simp only [single, decide_false, Bool.false_eq_true, if_false]
        omega

/-- A player with more than one role keeps the one he is given when another is taken. -/
theorem exists_narrowed {selected : BitVec 8} {role : Role}
    (only : selected &&& ~~~(Role.tank.flag ||| Role.healer.flag ||| Role.damage.flag) = 0)
    (has : selected &&& role.flag ≠ 0) (more : selected ≠ role.flag)
    : ∃ other : Role, selected &&& other.flag ≠ 0
      ∧ (selected - other.flag) &&& role.flag ≠ 0
      ∧ (selected - other.flag)
        &&& ~~~(Role.tank.flag ||| Role.healer.flag ||| Role.damage.flag) = 0 := by
  have choose : ∀ selected : BitVec 8,
      selected &&& ~~~(Role.tank.flag ||| Role.healer.flag ||| Role.damage.flag) = 0 →
      selected &&& role.flag ≠ 0 → selected ≠ role.flag →
      ∃ other ∈ [Role.damage, .healer, .tank], selected &&& other.flag ≠ 0
        ∧ (selected - other.flag) &&& role.flag ≠ 0
        ∧ (selected - other.flag)
          &&& ~~~(Role.tank.flag ||| Role.healer.flag ||| Role.damage.flag) = 0 := by
    cases role <;> decide +kernel
  obtain ⟨other, -, found⟩ := choose selected only has more
  exact ⟨other, found⟩

theorem rolesOnly_replaced {before rest : LfgRolesMap} {slot replaced : Nat × BitVec 8}
    (only : RolesOnly (before ++ slot :: rest))
    (own : replaced.2 &&& ~~~(Role.tank.flag ||| Role.healer.flag ||| Role.damage.flag) = 0)
    : RolesOnly (before ++ replaced :: rest) := by
  intro other member
  rcases List.mem_append.mp member with early | late
  · exact only other (List.mem_append_left _ early)
  · rcases List.mem_cons.mp late with rfl | late
    · exact own
    · exact only other (List.mem_append_right _ (List.mem_cons_of_mem _ late))

theorem rolesOnly_of_sub {selected : BitVec 8} {role : Role} (has : selected &&& role.flag ≠ 0)
    (only
      : (selected - role.flag)
          &&& ~~~(Role.tank.flag ||| Role.healer.flag ||| Role.damage.flag) = 0)
    : selected &&& ~~~(Role.tank.flag ||| Role.healer.flag ||| Role.damage.flag) = 0 := by
  revert has only
  cases role <;> revert selected <;> decide +kernel

/-- Where a player has more than one role, one of them can be taken. -/
theorem Fillable.narrowed {before rest : LfgRolesMap} {slot : Nat × BitVec 8}
    (fillable : Fillable (before ++ slot :: rest)) (more : ∀ role : Role, slot.2 ≠ role.flag)
    : ∃ role : Role, slot.2 &&& role.flag ≠ 0
      ∧ Fillable (before ++ (slot.1, slot.2 - role.flag) :: rest) := by
  obtain ⟨only, result, assigns, bounded⟩ := fillable
  obtain ⟨given, has, change⟩ := assigns_at assigns
  obtain ⟨other, taken, still, clean⟩ :=
    exists_narrowed (only slot (by simp)) has (more given)
  exact ⟨other, taken, rolesOnly_replaced only clean, result, change _ still, bounded⟩

/-- What was found has the flags of roles only: the search takes nothing else from a player. -/
theorem rolesOnly_of_checkRolesFrom {before after : LfgRolesMap} {counts : RoleCounts}
    {assignment : Assignment} (found : checkRolesFrom before after counts = some assignment)
    (counted : counts.Counts before) (short : (before ++ after).length < 2 ^ 8)
    : RolesOnly (before ++ after) := by
  refine @checkRolesFrom_rule (fun groles _ => RolesOnly groles) ?_ ?_ _ _ _ _ found counted short
  · intro groles counts counted all slot member
    obtain ⟨role, own⟩ := counted.single all slot member
    rw [own]
    cases role <;> decide
  · intro before rest slot role assignment has only
    refine rolesOnly_replaced only (rolesOnly_of_sub has ?_)
    exact only (slot.1, slot.2 - role.flag) (by simp)

/-- A player with one role is refused where enough players have it alone. -/
theorem visitRole_refused {role : Role} {selected : BitVec 8}
    {without : selected &&& role.flag ≠ 0 → Option Assignment} {counts : RoleCounts}
    (refused : visitRole role selected without counts = .error none)
    : selected = role.flag ∧ counts.get role = role.needed := by
  unfold visitRole at refused
  split at refused
  · split at refused
    · split at refused <;> cases refused
    · rename_i alone
      split at refused
      · rename_i enough
        exact ⟨not_not.mp alone, enough⟩
      · cases refused
  · cases refused

/-- A role of a player with more roles is passed only where the search without it fails. -/
theorem visitRole_passed {role : Role} {selected : BitVec 8}
    {without : selected &&& role.flag ≠ 0 → Option Assignment} {counts counted : RoleCounts}
    (passed : visitRole role selected without counts = .ok counted)
    (has : selected &&& role.flag ≠ 0) (more : selected ≠ role.flag)
    : without has = none := by
  unfold visitRole at passed
  rw [dif_pos has, if_pos more] at passed
  split at passed
  · cases passed
  · assumption

section Visit

variable {selected : BitVec 8}
  {without : (role : Role) → selected &&& role.flag ≠ 0 → Option Assignment}

theorem visit_refused {roles : List Role} (distinct : roles.Nodup) {counts : RoleCounts}
    (refused
      : roles.foldlM (fun counts role => visitRole role selected (without role) counts) counts
        = .error none)
    : ∃ role ∈ roles, selected = role.flag ∧ counts.get role = role.needed := by
  induction roles generalizing counts with
  | nil => cases refused
  | cons first rest ih =>
      obtain ⟨apart, distinct⟩ := List.nodup_cons.mp distinct
      rw [List.foldlM_cons] at refused
      rcases visitRole_cases first selected (without first) counts with
        ⟨_, _, _, same⟩ | same | ⟨alone, -, same⟩ | ⟨-, same⟩
      · rw [same] at refused
        cases refused
      · exact ⟨first, List.mem_cons_self, visitRole_refused same⟩
      · rw [same] at refused
        obtain ⟨role, member, own, -⟩ := ih distinct refused
        exact absurd (flag_injective (own.symm.trans alone) ▸ member) apart
      · rw [same] at refused
        obtain ⟨role, member, found⟩ := ih distinct refused
        exact ⟨role, List.mem_cons_of_mem _ member, found⟩

theorem visit_passed {roles : List Role} {counts counted : RoleCounts}
    (passed
      : roles.foldlM (fun counts role => visitRole role selected (without role) counts) counts
        = .ok counted)
    : ∀ role ∈ roles, ∀ has, selected ≠ role.flag → without role has = none := by
  induction roles generalizing counts with
  | nil => simp
  | cons first rest ih =>
      rw [List.foldlM_cons] at passed
      cases step : visitRole first selected (without first) counts with
      | error result =>
          rw [step] at passed
          cases passed
      | ok next =>
          rw [step] at passed
          intro role member has more
          rcases List.mem_cons.mp member with rfl | later
          · exact visitRole_passed step has more
          · exact ih passed role later has more

end Visit

/-- No role is given more players than it needs, so no player has it alone beyond those. -/
theorem not_fillable_of_full {before rest : LfgRolesMap} {it : Nat × BitVec 8}
    {counts : RoleCounts} (counted : counts.Counts before) {role : Role} (own : it.2 = role.flag)
    (full : counts.get role = role.needed)
    : ¬Fillable (before ++ it :: rest) := by
  rintro ⟨-, result, assigns, bounded⟩
  have more := countP_le_of_assigns assigns role
  rw [List.countP_append, List.countP_cons_of_pos (by simpa using own)] at more
  have := counted.exact_ role
  have := bounded role
  omega

/-- Where the loop of CheckGroupRoles fails, the players cannot all be given a role.
Witness: induction along the recursion. A player with more than one role was passed only after the
search failed without each of them, so that nothing fits from then on.
-/
theorem not_fillable_of_checkRolesFrom {before after : LfgRolesMap} {counts : RoleCounts}
    (failed : checkRolesFrom before after counts = none) (counted : counts.Counts before)
    (short : (before ++ after).length < 2 ^ 8)
    (single
      : (∀ slot ∈ before, ∃ role : Role, slot.2 = role.flag) ∨ ¬Fillable (before ++ after))
    : ¬Fillable (before ++ after) := by
  induction before, after, counts using checkRolesFrom.induct with
  | case1 before counts all =>
      rw [checkRolesFrom, if_pos all] at failed
      cases failed
  | case2 before counts missing =>
      rcases single with single | nothing
      · rw [List.append_nil] at short
        rw [Nat.mod_eq_of_lt short] at missing
        exact absurd (counted.total_eq.trans (singles_of_single single)) missing
      · exact nothing
  | case3 before counts it rest none_ =>
      rintro ⟨-, result, assigns, -⟩
      obtain ⟨role, has, -⟩ := assigns_at assigns
      rw [none_] at has
      exact has (BitVec.zero_and)
  | case4 before counts it rest some_ visit result visited ih =>
      rw [checkRolesFrom, if_neg some_] at failed
      dsimp only at failed
      rw [visited] at failed
      obtain rfl : result = none := failed
      obtain ⟨role, -, own, full⟩ := visit_refused (by decide) visited
      exact not_fillable_of_full counted own full
  | case5 before counts it rest some_ visit next visited ih1 ih2 =>
      rw [checkRolesFrom, if_neg some_] at failed
      dsimp only at failed
      rw [visited] at failed
      have same (role : Role) : (before ++ (it.1, it.2 - role.flag) :: rest).length
          = (before ++ it :: rest).length := by
        simp
      rw [List.append_cons] at short single ⊢
      apply ih2 failed (counted.visited visited) short
      by_cases one : ∃ role : Role, it.2 = role.flag
      · refine single.imp_left (fun single slot member => ?_)
        rcases List.mem_append.mp member with early | here
        · exact single slot early
        · rw [List.mem_singleton.mp here]
          exact one
      · right
        rw [← List.append_cons]
        intro fillable
        obtain ⟨role, has, fewer⟩ := fillable.narrowed (fun role own => one ⟨role, own⟩)
        have alone : it.2 ≠ role.flag := fun own => one ⟨role, own⟩
        have failed := visit_passed visited role (by cases role <;> decide) has alone
        refine ih1 role has failed RoleCounts.counts_nil ?_ (.inl ?_) fewer
        · rw [List.nil_append, same, List.append_cons]
          exact short
        · simp

-- What CheckGroupRoles decides

def Assignable (groles : LfgRolesMap) : Prop := ∃ result, Fills groles result

/-- What CheckGroupRoles asks besides: there are players, and no mask has a flag that is neither
the leader's nor a role's.
-/
structure Accepted (groles : LfgRolesMap) : Prop where
  players : groles ≠ []
  known
    : ∀ slot ∈ groles,
        slot.2
          &&& ~~~(playerRoleLeader ||| Role.tank.flag ||| Role.healer.flag ||| Role.damage.flag)
        = 0

/-- CheckGroupRoles returns, whatever the depth of the recursion from some on, and its value and
the map it leaves tell whether the roles can be filled.
-/
structure Decides (possible : Prop) (groles : LfgRolesMap) (value : Nat) (left : LfgRolesMap)
    : Prop where
  returns
    : ∃ enough, ∀ fuel ≥ enough, RoleChecks.checkGroupRoles fuel groles true = some (value, left)
  nonzero : value ≠ 0 ↔ possible
  fills : value ≠ 0 → Fills groles left
  encodes
    : value ≠ 0 →
        ∃ counts : RoleCounts,
          counts.Counts left
          ∧ counts.code = value
          ∧ ∀ other : RoleCounts,
              (∀ role, other.get role ≤ role.needed) → other.code = value → other = counts
  unchanged : value = 0 → left = removeLeaderFlag groles

theorem assigns_removeLeaderFlag (groles result : LfgRolesMap)
    : Assigns (removeLeaderFlag groles) result ↔ Assigns groles result := by
  have same : ∀ (selected : BitVec 8) (role : Role),
      selected &&& ~~~playerRoleLeader &&& role.flag ≠ 0 ↔ selected &&& role.flag ≠ 0 := by
    intro selected role
    cases role <;> revert selected <;> decide +kernel
  unfold Assigns removeLeaderFlag
  rw [List.forall₂_map_left_iff]
  simp only [same]

theorem fillable_removeLeaderFlag_iff {groles : LfgRolesMap} (players : groles ≠ [])
    : Fillable (removeLeaderFlag groles) ↔ Accepted groles ∧ Assignable groles := by
  have same : ∀ selected : BitVec 8,
      selected &&& ~~~playerRoleLeader
          &&& ~~~(Role.tank.flag ||| Role.healer.flag ||| Role.damage.flag) = 0
        ↔ selected
          &&& ~~~(playerRoleLeader ||| Role.tank.flag ||| Role.healer.flag ||| Role.damage.flag)
          = 0 := by
    decide +kernel
  constructor
  · rintro ⟨only, result, assigns, bounded⟩
    refine ⟨⟨players, fun slot member => ?_⟩, result, ?_, bounded⟩
    · exact (same slot.2).mp (only _ (List.mem_map_of_mem member))
    · exact (assigns_removeLeaderFlag groles result).mp assigns
  · rintro ⟨⟨-, known⟩, result, assigns, bounded⟩
    refine ⟨fun slot member => ?_, result, ?_, bounded⟩
    · obtain ⟨own, there, rfl⟩ := List.mem_map.mp member
      exact (same own.2).mpr (known own there)
    · exact (assigns_removeLeaderFlag groles result).mpr assigns

theorem removeLeaderFlag_length (groles : LfgRolesMap)
    : (removeLeaderFlag groles).length = groles.length := by
  simp [removeLeaderFlag]

/-- CheckGroupRoles returns what the search of Roles gives. -/
theorem RoleChecks.checkGroupRoles_returns {groles : LfgRolesMap} (short : groles.length < 2 ^ 8)
    : ∃ enough, ∀ fuel ≥ enough,
        checkGroupRoles fuel groles true
        = some (returned (removeLeaderFlag groles) (DungeonFinding.checkGroupRoles groles)) := by
  refine ⟨weight (removeLeaderFlag groles) + 1, fun fuel enough => ?_⟩
  obtain ⟨fuel, rfl⟩ := Nat.exists_eq_add_of_le' (show 1 ≤ fuel by omega)
  rw [checkGroupRoles, DungeonFinding.checkGroupRoles]
  split
  · rename_i none_
    obtain rfl := List.isEmpty_iff.mp none_
    rfl
  · rename_i some_
    have length := removeLeaderFlag_length groles
    rw [if_pos rfl, List.range_eq_range', ← length]
    refine loop_eq (List.nil_append _).symm ?_ {}
    intro tried fewer same
    have players : tried ≠ [] := by
      rintro rfl
      rw [List.isEmpty_iff, ← List.length_eq_zero_iff, ← length, ← same] at some_
      exact some_ rfl
    have short : ([] ++ tried).length < 2 ^ 8 := by
      rw [List.nil_append, same, length]
      exact short
    refine ⟨checkGroupRoles_eq (by omega) players short, ?_⟩
    intro assignment found
    exact code_ne_zero (assigned_of_checkRolesFrom found RoleCounts.counts_nil short) players

/-- The search succeeds just where CheckGroupRoles takes the masks and they can be filled. -/
theorem checkGroupRoles_eq_none_iff {groles : LfgRolesMap} (short : groles.length < 2 ^ 8)
    : checkGroupRoles groles = none ↔ ¬(Accepted groles ∧ Assignable groles) := by
  unfold checkGroupRoles
  split
  · rename_i none_
    simp only [true_iff]
    rintro ⟨⟨players, -⟩, -⟩
    exact players (List.isEmpty_iff.mp none_)
  · rename_i some_
    rw [← fillable_removeLeaderFlag_iff (by rwa [List.isEmpty_iff] at some_)]
    have short : ([] ++ removeLeaderFlag groles).length < 2 ^ 8 := by
      rw [List.nil_append, removeLeaderFlag_length]
      exact short
    constructor
    · intro failed
      exact not_fillable_of_checkRolesFrom failed RoleCounts.counts_nil short (.inl (by simp))
    · intro nothing
      cases found : checkRolesFrom [] (removeLeaderFlag groles) {} with
      | none => rfl
      | some assignment =>
          have assigned := assigned_of_checkRolesFrom found RoleCounts.counts_nil short
          obtain ⟨counts, counted, -, -⟩ := assigned.counts
          have only := rolesOnly_of_checkRolesFrom found RoleCounts.counts_nil short
          refine absurd ⟨only, assignment.2, assigned.assigns, fun role => ?_⟩ nothing
          rw [← counted.exact_]
          exact counted.bounded role

/-- The value tells the counts apart, as long as none is above what is needed. -/
theorem RoleCounts.eq_of_code {counts other : RoleCounts}
    (bounded : ∀ role, counts.get role ≤ role.needed)
    (bounded' : ∀ role, other.get role ≤ role.needed) (same : other.code = counts.code)
    : other = counts := by
  have damage : counts.damage ≤ 3 := bounded .damage
  have healer : counts.healer ≤ 1 := bounded .healer
  have damage' : other.damage ≤ 3 := bounded' .damage
  have healer' : other.healer ≤ 1 := bounded' .healer
  unfold code at same
  cases counts
  cases other
  simp only [mk.injEq] at *
  omega

/-- A search that finds roles leaves them, and one that finds none leaves what was selected. -/
theorem decides_of_iff {groles : LfgRolesMap} {possible : Prop} (short : groles.length < 2 ^ 8)
    (found : checkGroupRoles groles ≠ none ↔ possible)
    : ∃ value left, Decides possible groles value left := by
  have returns := RoleChecks.checkGroupRoles_returns short
  cases result : checkGroupRoles groles with
  | none =>
      rw [result] at returns found
      exact ⟨0, removeLeaderFlag groles, returns, by simpa using found, by simp, by simp, by simp⟩
  | some assignment =>
      rw [result] at returns found
      obtain ⟨assigns, counts, counted, all, code⟩ := assigned_of_checkGroupRoles result short
      have players : removeLeaderFlag groles ≠ [] := by
        intro none_
        obtain rfl := List.map_eq_nil_iff.mp none_
        cases result
      have nonzero := RoleChecks.code_ne_zero ⟨assigns, counts, counted, all, code⟩ players
      refine ⟨assignment.1, assignment.2, returns, ?_, ?_, ?_, ?_⟩
      · simpa [nonzero] using found
      · intro _
        refine ⟨(assigns_removeLeaderFlag groles _).mp assigns, fun role => ?_⟩
        rw [← counted.exact_]
        exact counted.bounded role
      · intro _
        refine ⟨counts, counted, code.symm, fun other bounded same => ?_⟩
        exact RoleCounts.eq_of_code counted.bounded bounded (same.trans code)
      · exact fun zero => absurd zero nonzero

/-- CheckGroupRoles returns a value other than 0 just where there are players whose masks have no
flag but the leader's and the roles', and every one can be given one of the roles he chose. The map
then has such roles and the value tells how many there are of each. Otherwise only the leader's
flags are gone.
-/
theorem role_check_decides (groles : LfgRolesMap) (few : groles.length ≤ 5)
    : ∃ value left, Decides (Accepted groles ∧ Assignable groles) groles value left := by
  have short : groles.length < 2 ^ 8 := by
    omega
  refine decides_of_iff short ?_
  rw [ne_eq, checkGroupRoles_eq_none_iff short, not_not]

theorem role_check_decides_applied
    : ∃ value left,
        Decides (Accepted [(1, 0x0D), (2, 0x08)] ∧ Assignable [(1, 0x0D), (2, 0x08)])
          [(1, 0x0D), (2, 0x08)] value left :=
  role_check_decides [(1, 0x0D), (2, 0x08)] (by decide)

/-- What decides is determined by the map. -/
theorem Decides.possible_iff {possible other : Prop} {groles left left' : LfgRolesMap}
    {value value' : Nat} (first : Decides possible groles value left)
    (second : Decides other groles value' left')
    : possible ↔ other := by
  obtain ⟨enough, returns⟩ := first.returns
  obtain ⟨enough', returns'⟩ := second.returns
  have same := (returns (max enough enough') (le_max_left _ _)).symm.trans
    (returns' (max enough enough') (le_max_right _ _))
  obtain ⟨rfl, rfl⟩ : value = value' ∧ left = left' := by
    simpa using same
  rw [← first.nonzero, ← second.nonzero]

/-- Masks alone do not decide: no player at all, and a player who chose damage and has a flag that
is no role, could be given roles and are refused.
-/
theorem assignable_is_not_enough
    : (¬∃ value left, Decides (Assignable []) [] value left)
      ∧ ¬∃ value left, Decides (Assignable [(1, 0x18)]) [(1, 0x18)] value left := by
  constructor
  · rintro ⟨value, left, decides⟩
    have refused : checkGroupRoles [] ≠ none ↔ False := by
      simp [checkGroupRoles]
    obtain ⟨_, _, actual⟩ := decides_of_iff (by decide) refused
    refine (decides.possible_iff actual).mp ⟨[], .nil, ?_⟩
    intro role
    simp
  · rintro ⟨value, left, decides⟩
    have refused : checkGroupRoles [(1, 0x18)] ≠ none ↔ False := by
      rw [ne_eq, checkGroupRoles_eq_none_iff (by decide), not_not, iff_false]
      rintro ⟨⟨-, known⟩, -⟩
      exact absurd (known (1, 0x18) (by simp)) (by decide)
    obtain ⟨_, _, actual⟩ := decides_of_iff (by decide) refused
    refine (decides.possible_iff actual).mp ⟨[(1, 0x08)], ?_, ?_⟩
    · exact .cons ⟨rfl, .damage, rfl, by decide⟩ .nil
    · intro role
      cases role <;> decide

end WarheadCore.DungeonFinding
