import WarheadCore.Battlegrounds.Matchmaking

/-! The two teams of a rated arena. A team that has to be found in the list of the other one is
compared with it, in one direction; two teams from both lists are not compared at all.
-/

namespace WarheadCore.Battlegrounds

variable {queue : BattlegroundQueue} {search : RatedSearch} {bracketId : Nat}

-- Which match an update starts

/-- The rating of a team is in the range of the search, or the team waited too long for it. -/
def Reachable (queue : BattlegroundQueue) (search : RatedSearch) (group : Nat) : Prop :=
  search.arenaMinRating ≤ (queue.info group).arenaMatchmakerRating
      ∧ (queue.info group).arenaMatchmakerRating ≤ search.arenaMaxRating
    ∨ (queue.info group).joinTime < search.discardTime

/-- A team played last against another one, and did not wait too long since. -/
def Records (queue : BattlegroundQueue) (search : RatedSearch) (group other : Nat) : Prop :=
  (queue.info group).previousOpponentsTeamId = (queue.info other).arenaTeamId
    ∧ ¬ (queue.info group).joinTime < search.discardOpponentsTime

instance (queue : BattlegroundQueue) (search : RatedSearch) (group other : Nat)
    : Decidable (Records queue search group other) :=
  inferInstanceAs (Decidable (_ ∧ ¬ _))

def Available (queue : BattlegroundQueue) (bracketId : Nat) (search : RatedSearch) (team : TeamId)
    : Prop :=
  ∃ group ∈ queue.queuedGroups bracketId (.premade team), queue.isSuitable search group

theorem isOpponent_iff {first group : Nat}
    : queue.isOpponent search first group
      ↔ queue.isSuitable search group ∧ ¬ Records queue search group first
        ∧ (queue.info first).arenaTeamId ≠ (queue.info group).arenaTeamId := by
  have apart (own previous : Nat) (waited : Prop)
      : (own ≠ previous ∨ waited) ↔ ¬ (previous = own ∧ ¬ waited) := by
    rw [not_and, not_not, imp_iff_not_or]
    exact or_congr_left ne_comm
  unfold BattlegroundQueue.isOpponent Records
  simp only [Bool.and_eq_true, Bool.or_eq_true, decide_eq_true_eq]
  rw [apart, and_assoc]

/-- What the scans certify of the teams that they find: both may play, and one that was looked for
in the list of the other does not record it and is of another team.
-/
theorem ratedTeams_spec {aTeam hTeam : Nat}
    (scanned : queue.ratedTeams bracketId search = some (aTeam, hTeam))
    : (queue.isSuitable search aTeam ∧ queue.isSuitable search hTeam)
      ∧ ((∀ team, Available queue bracketId search team)
        ∨ ¬ (∀ team, Available queue bracketId search team)
          ∧ ¬ Records queue search hTeam aTeam
          ∧ (queue.info aTeam).arenaTeamId ≠ (queue.info hTeam).arenaTeamId) := by
  have available (team : TeamId) (group : Nat)
      (found
        : (queue.queuedGroups bracketId (.premade team)).find? (queue.isSuitable search)
          = some group)
      : queue.isSuitable search group ∧ Available queue bracketId search team :=
    ⟨List.find?_some found, group, List.mem_of_find?_eq_some found, List.find?_some found⟩
  have missing (team : TeamId)
      (found
        : (queue.queuedGroups bracketId (.premade team)).find? (queue.isSuitable search) = none)
      : ¬ ∀ team, Available queue bracketId search team := by
    intro all
    obtain ⟨group, member, suits⟩ := all team
    exact List.find?_eq_none.mp found group member suits
  have alone (team : TeamId) (first : Nat) (suits : queue.isSuitable search first)
      (second
        : ((((queue.queuedGroups bracketId (.premade team)).drop
            ((queue.queuedGroups bracketId (.premade team)).idxOf first)).find?
              (queue.isOpponent search first)).map (first, ·)) = some (aTeam, hTeam))
      : (queue.isSuitable search aTeam ∧ queue.isSuitable search hTeam)
        ∧ ¬ Records queue search hTeam aTeam
        ∧ (queue.info aTeam).arenaTeamId ≠ (queue.info hTeam).arenaTeamId := by
    obtain ⟨group, later, same⟩ := Option.map_eq_some_iff.mp second
    obtain ⟨rfl, rfl⟩ := Prod.mk.inj same
    obtain ⟨suits', apart, different⟩ := isOpponent_iff.mp (List.find?_some later)
    exact ⟨⟨suits, suits'⟩, apart, different⟩
  unfold BattlegroundQueue.ratedTeams BattlegroundQueue.foundTeams at scanned
  cases first : (queue.queuedGroups bracketId (.premade .alliance)).find?
      (queue.isSuitable search) with
  | none =>
      cases second : (queue.queuedGroups bracketId (.premade .horde)).find?
          (queue.isSuitable search) with
      | none => simp [first, second] at scanned
      | some hTeam' =>
          simp only [first, second, List.filterMap_cons, List.filterMap_nil, Option.map_none,
            Option.map_some] at scanned
          obtain ⟨suits, apart⟩ := alone .horde hTeam' (available .horde hTeam' second).1 scanned
          exact ⟨suits, .inr ⟨missing .alliance first, apart⟩⟩
  | some aTeam' =>
      cases second : (queue.queuedGroups bracketId (.premade .horde)).find?
          (queue.isSuitable search) with
      | none =>
          simp only [first, second, List.filterMap_cons, List.filterMap_nil, Option.map_none,
            Option.map_some] at scanned
          obtain ⟨suits, apart⟩ :=
            alone .alliance aTeam' (available .alliance aTeam' first).1 scanned
          exact ⟨suits, .inr ⟨missing .horde second, apart⟩⟩
      | some hTeam' =>
          simp only [first, second, List.filterMap_cons, List.filterMap_nil,
            Option.map_some] at scanned
          obtain ⟨rfl, rfl⟩ := Prod.mk.inj (Option.some.inj scanned)
          refine ⟨⟨(available .alliance _ first).1, (available .horde _ second).1⟩, .inl ?_⟩
          rintro (_ | _)
          · exact (available .alliance _ first).2
          · exact (available .horde _ second).2

end WarheadCore.Battlegrounds
