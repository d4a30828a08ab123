import WarheadCore.Foundation.Runs
import WarheadCore.Reputation.Spillover

/-! What gains preserve. A call changes one faction after another, and scripts and quests start
further calls, so a fact about managers is carried through by what it says of one faction.
-/

namespace WarheadCore.Reputation

open Foundation (Table roundBinary32 Runs.EachAttempt)

-- Ranks and bounds

theorem rankBelow_lt (standing limit : Int) (ranks : Nat)
    : rankBelow standing limit (ranks + 1) < ranks + 1 := by
  induction ranks generalizing limit with
  | zero =>
      unfold rankBelow
      split <;> exact Nat.zero_lt_one
  | succ ranks ih =>
      unfold rankBelow
      split
      · exact Nat.lt_succ_self _
      · exact (ih _).trans (Nat.lt_succ_self _)

theorem reputationToRank_lt (standing : Int) : reputationToRank standing < 8 := rankBelow_lt _ _ 7

/-- The end of every rank but the last lies in the rank and within the bounds. -/
theorem reputationToRank_rankToStanding
    : ∀ rank < 7, reputationToRank (reputationRankToStanding rank) = rank
        ∧ InBounds (reputationRankToStanding rank) := by
  decide

namespace Owner

variable {owner : Owner}

def Known (owner : Owner) (entry : FactionEntry) : Prop := entry ∈ owner.store.rows

theorem known_of_lookupEntry {id : Nat} {entry : FactionEntry}
    (found : owner.lookupEntry id = some entry)
    : owner.Known entry ∧ entry.id = id :=
  ⟨List.mem_of_find?_eq_some found, by simpa using List.find?_some found⟩

theorem known_of_getFactionTeamList {team : Nat} {flist : List FactionEntry}
    (found : owner.getFactionTeamList team = some flist) {entry : FactionEntry}
    (member : entry ∈ flist)
    : owner.Known entry := by
  unfold getFactionTeamList at found
  dsimp only at found
  split at found
  · cases found
  · obtain rfl := Option.some.inj found
    exact (List.mem_filter.mp member).1

theorem Known.lookupEntry {entry : FactionEntry} (known : owner.Known entry)
    : owner.lookupEntry entry.id = some entry := by
  have distinct := owner.store.distinct
  unfold Known at known
  unfold Owner.lookupEntry
  generalize owner.store.rows = rows at known distinct ⊢
  induction rows with
  | nil => cases known
  | cons head rest ih =>
      rw [List.map_cons, List.nodup_cons] at distinct
      rcases List.mem_cons.mp known with rfl | later
      · simp
      · have apart : ¬ head.id = entry.id :=
          fun same => distinct.1 (same ▸ List.mem_map_of_mem later)
        rw [List.find?_cons_of_neg (by simpa using apart), ih later distinct.2]

theorem Known.baseOf {entry : FactionEntry} (known : owner.Known entry)
    : owner.baseOf entry.id = owner.getBaseReputation entry := by
  rw [Owner.baseOf, known.lookupEntry]
  rfl

end Owner

namespace ReputationMgr

variable {owner : Owner} {settings : Settings} {mgr next : ReputationMgr} {entry : FactionEntry}

theorem inBounds_clampStanding (standing : Int) : InBounds (clampStanding standing) := by
  unfold clampStanding
  split
  · decide
  · next below =>
      split
      · decide
      · next above => exact ⟨not_lt.mp above, not_lt.mp below⟩

/-- Capping computes the rank of what it leaves, within the bounds. -/
theorem capStanding_spec {standing : Int} (bounded : InBounds standing)
    (repMaxCap : Option ReputationRank)
    : (capStanding standing repMaxCap).2 = reputationToRank (capStanding standing repMaxCap).1
      ∧ InBounds (capStanding standing repMaxCap).1 := by
  unfold capStanding
  cases repMaxCap with
  | none => exact ⟨rfl, bounded⟩
  | some cap =>
      dsimp only
      split
      · next above =>
          have low : cap < 7 := above.trans_le (Nat.le_of_lt_succ (reputationToRank_lt standing))
          obtain ⟨rank, inside⟩ := reputationToRank_rankToStanding cap low
          exact ⟨rank.symm, inside⟩
      · exact ⟨rfl, bounded⟩

/-- What the scripts are asked about lies within the bounds, at the rank that goes with it. -/
theorem proposedStanding_spec (settings : Settings) (faction : FactionState) (base : Int)
    (stand : ℚ) (incremental : Bool) (repMaxCap : Option ReputationRank)
    : let proposed := proposedStanding settings faction base stand incremental repMaxCap
      proposed.2 = reputationToRank proposed.1 ∧ InBounds proposed.1 :=
  capStanding_spec (inBounds_clampStanding _) repMaxCap

-- Steady changes

section Steady

variable (owner settings) (steady : Int → Int → Prop)
  (modify : ReputationMgr → FactionEntry → ℚ → Bool → Option ReputationMgr)
  (quiet : ReputationMgr → FactionEntry → ℚ → Bool → Prop)

def SteadyReward (mgr : ReputationMgr) (reward : QuestReward) : Prop :=
  ∀ entry, owner.lookupEntry reward.faction = some entry
    → quiet mgr entry reward.rep reward.noSpillOver

/-- What the scripts let through goes steadily with what they were asked about, and what scripts
and quests start is quiet.
-/
def SteadyOne (mgr : ReputationMgr) (entry : FactionEntry) (stand : ℚ) (incremental : Bool)
    (repMaxCap : Option ReputationRank) : Prop :=
  ∀ faction, mgr.factions.get? entry.listID = some faction →
    let proposed := proposedStanding settings faction (owner.getBaseReputation entry) stand
      incremental repMaxCap
    match onPlayerReputationChange entry.id settings.scripts proposed.1 with
    | .allowed standing =>
        let accepted := mgr.acceptStanding owner entry faction standing proposed.2
        steady proposed.1 standing
          ∧ Runs.EachAttempt (rewardReputation owner modify) (SteadyReward owner quiet) accepted
            (settings.rewards accepted entry.id)
    | .redirected own standing =>
        ∀ other, owner.lookupEntry own = some other
          → quiet (mgr.toggleRounding entry.listID) other
              (mgr.redirectedGain owner entry standing) false

def SteadySpill (incremental : Bool) (mgr : ReputationMgr) (change : Spill) : Prop :=
  change.maxRank.any (fun maxRank => maxRank < mgr.getRank owner change.faction) = false
    → ∀ entry, change.faction = some entry
      → SteadyOne owner settings steady modify quiet mgr entry change.standing incremental
        change.repMaxCap

def SteadySet (mgr : ReputationMgr) (entry : FactionEntry) (standing : ℚ)
    (incremental noSpillOver : Bool) (repMaxCap : Option ReputationRank) : Prop :=
  Runs.EachAttempt (spill owner settings modify incremental)
    (SteadySpill owner settings steady modify quiet incremental) mgr
    (changes owner mgr entry standing incremental noSpillOver repMaxCap)

end Steady

/-- Steadiness of what scripts and quests start, as deep as the fuel says. -/
def SteadyModify (owner : Owner) (settings : Settings) (steady : Int → Int → Prop)
    : Nat → ReputationMgr → FactionEntry → ℚ → Bool → Prop
  | 0, _, _, _, _ => True
  | fuel + 1, mgr, entry, standing, noSpillOver =>
      SteadySet owner settings steady (modifyReputation owner settings fuel)
        (SteadyModify owner settings steady fuel) mgr entry standing true noSpillOver none

def Steady (owner : Owner) (steady : Int → Int → Prop) (mgr : ReputationMgr) (turn : Turn) : Prop :=
  let modify := modifyReputation owner turn.settings turn.fuel
  let quiet := SteadyModify owner turn.settings steady turn.fuel
  match turn.call with
  | .setReputation faction standing incremental noSpillOver repMaxCap =>
      ∀ entry, owner.lookupEntry faction = some entry
        → SteadySet owner turn.settings steady modify quiet mgr entry standing incremental
          noSpillOver repMaxCap
  | .setOneFactionReputation faction stand incremental repMaxCap =>
      ∀ entry, owner.lookupEntry faction = some entry
        → SteadyOne owner turn.settings steady modify quiet mgr entry stand incremental repMaxCap
  | _ => True

-- What steady changes preserve

structure Carried (owner : Owner) (steady : Int → Int → Prop) (inv : ReputationMgr → Prop)
    : Prop where
  toggled : ∀ {mgr}, inv mgr → ∀ listID, inv (mgr.toggleRounding listID)
  accepted : ∀ {mgr entry faction proposed standing}, inv mgr → owner.Known entry
    → mgr.factions.get? entry.listID = some faction → InBounds proposed → steady proposed standing
    → inv (mgr.acceptStanding owner entry faction standing (reputationToRank proposed))
  sent : ∀ {mgr}, inv mgr → inv mgr.sendState

variable {steady : Int → Int → Prop} {inv : ReputationMgr → Prop}

def Keeping (owner : Owner) (inv : ReputationMgr → Prop)
    (modify : ReputationMgr → FactionEntry → ℚ → Bool → Option ReputationMgr)
    (quiet : ReputationMgr → FactionEntry → ℚ → Bool → Prop) : Prop :=
  ∀ {mgr next entry standing noSpillOver}, inv mgr → owner.Known entry
    → quiet mgr entry standing noSpillOver → modify mgr entry standing noSpillOver = some next
    → inv next

section Keeping

variable {modify : ReputationMgr → FactionEntry → ℚ → Bool → Option ReputationMgr}
  {quiet : ReputationMgr → FactionEntry → ℚ → Bool → Prop}
  (carried : Carried owner steady inv) (keeping : Keeping owner inv modify quiet)

include keeping

theorem inv_rewardReputation {reward : QuestReward} (holds : inv mgr)
    (quietly : SteadyReward owner quiet mgr reward)
    (done : rewardReputation owner modify mgr reward = some next)
    : inv next := by
  unfold rewardReputation at done
  split at done
  · next entry found =>
      exact keeping holds (Owner.known_of_lookupEntry found).1 (quietly entry found) done
  · obtain rfl := Option.some.inj done
    exact holds

include carried

theorem inv_setOneFactionReputation {stand : ℚ} {incremental : Bool}
    {repMaxCap : Option ReputationRank} (holds : inv mgr) (known : owner.Known entry)
    (steadily
      : SteadyOne owner settings steady modify quiet mgr entry stand incremental repMaxCap)
    (done
      : mgr.setOneFactionReputation owner settings modify entry stand incremental repMaxCap
          = some next)
    : inv next := by
  unfold setOneFactionReputation at done
  split at done
  · obtain rfl := Option.some.inj done
    exact holds
  · next faction found =>
      have asked := steadily faction found
      obtain ⟨rank, inside⟩ := proposedStanding_spec settings faction
        (owner.getBaseReputation entry) stand incremental repMaxCap
      dsimp only at asked done
      split at done
      · next standing answer =>
          rw [answer] at asked
          have accepted := carried.accepted holds known found inside asked.1
          rw [← rank] at accepted
          exact Foundation.Runs.foldlM_of_invariant
            (fun _ _ _ _ holds quietly done => inv_rewardReputation keeping holds quietly done)
            accepted asked.2 done
      · next own standing answer =>
          rw [answer] at asked
          obtain ⟨other, there, last⟩ := Option.bind_eq_some_iff.mp done
          exact keeping (carried.toggled holds entry.listID) (Owner.known_of_lookupEntry there).1
            (asked other there) last

theorem inv_spill {incremental : Bool} {change : Spill} (holds : inv mgr)
    (known : ∀ entry, change.faction = some entry → owner.Known entry)
    (steadily : SteadySpill owner settings steady modify quiet incremental mgr change)
    (done : spill owner settings modify incremental mgr change = some next)
    : inv next := by
  unfold spill at done
  split at done
  · obtain rfl := Option.some.inj done
    exact holds
  · next within =>
      split at done
      · next entry found =>
          exact inv_setOneFactionReputation carried keeping holds (known entry found)
            (steadily (Bool.eq_false_iff.mpr within) entry found) done
      · cases done

end Keeping

/-- The factions that a call changes are factions of the store. -/
theorem known_of_spills {standing : ℚ} {incremental : Bool} {change : Spill}
    (member : change ∈ spills owner mgr entry standing incremental) {other : FactionEntry}
    (changed : change.faction = some other)
    : owner.Known other := by
  have listed {flist : List FactionEntry} {team : Nat} {out : ℚ}
      (found : owner.getFactionTeamList team = some flist)
      (member : change ∈ listSpills entry flist out incremental)
      : owner.Known other := by
    obtain ⟨one, kept, rfl⟩ := List.mem_map.mp member
    obtain rfl := Option.some.inj changed
    exact Owner.known_of_getFactionTeamList found (List.mem_filter.mp kept).1
  unfold spills at member
  split at member
  · obtain ⟨row, _, rfl⟩ := List.mem_map.mp member
    exact (Owner.known_of_lookupEntry changed).1
  · split at member
    · next found => exact listed found member
    · split at member
      · dsimp only at member
        split at member
        · next parent found =>
            split at member
            · obtain rfl := List.mem_singleton.mp member
              obtain rfl := Option.some.inj changed
              exact (Owner.known_of_lookupEntry found).1
            · split at member
              · next found => exact listed found member
              · cases member
        · cases member
      · cases member

theorem known_of_changes {standing : ℚ} {incremental noSpillOver : Bool}
    {repMaxCap : Option ReputationRank} (known : owner.Known entry) {change : Spill}
    (member : change ∈ changes owner mgr entry standing incremental noSpillOver repMaxCap)
    {other : FactionEntry} (changed : change.faction = some other)
    : owner.Known other := by
  unfold changes at member
  rcases List.mem_append.mp member with spilled | last
  · cases noSpillOver with
    | true => cases spilled
    | false => exact known_of_spills spilled changed
  · obtain rfl := List.mem_singleton.mp last
    obtain rfl := Option.some.inj changed
    exact known

section Keeping

variable {modify : ReputationMgr → FactionEntry → ℚ → Bool → Option ReputationMgr}
  {quiet : ReputationMgr → FactionEntry → ℚ → Bool → Prop}
  (carried : Carried owner steady inv) (keeping : Keeping owner inv modify quiet)

include carried keeping

theorem inv_setReputation {standing : ℚ} {incremental noSpillOver : Bool}
    {repMaxCap : Option ReputationRank} (holds : inv mgr) (known : owner.Known entry)
    (steadily
      : SteadySet owner settings steady modify quiet mgr entry standing incremental noSpillOver
          repMaxCap)
    (done
      : mgr.setReputation owner settings modify entry standing incremental noSpillOver repMaxCap
          = some next)
    : inv next := by
  obtain ⟨changed, there, last⟩ := Option.bind_eq_some_iff.mp done
  obtain rfl := Option.some.inj last
  have kept := Foundation.Runs.foldlM_of_invariant
    (fun _ _ _ member holds steadily done => inv_spill carried keeping holds
      (fun _ changed => known_of_changes known member changed) steadily done)
    holds steadily there
  split
  · exact carried.sent kept
  · exact kept

end Keeping

/-- By induction on how deep gains are followed. -/
theorem keeping_modifyReputation (carried : Carried owner steady inv) (settings : Settings)
    (fuel : Nat)
    : Keeping owner inv (modifyReputation owner settings fuel)
        (SteadyModify owner settings steady fuel) := by
  induction fuel with
  | zero => exact fun _ _ _ none_ => nomatch none_
  | succ fuel ih =>
      intro mgr next entry standing noSpillOver holds known steadily done
      exact inv_setReputation carried ih holds known steadily done

section Always

def Anyhow : Int → Int → Prop := fun _ _ => True

variable {modify : ReputationMgr → FactionEntry → ℚ → Bool → Option ReputationMgr}
  {quiet : ReputationMgr → FactionEntry → ℚ → Bool → Prop}
  (always : ∀ mgr entry standing noSpillOver, quiet mgr entry standing noSpillOver)

include always

theorem steadyOne_anyhow (mgr : ReputationMgr) (entry : FactionEntry) (stand : ℚ)
    (incremental : Bool) (repMaxCap : Option ReputationRank)
    : SteadyOne owner settings Anyhow modify quiet mgr entry stand incremental repMaxCap := by
  intro faction _
  dsimp only
  split
  · refine ⟨trivial, Foundation.Runs.eachAttempt_of_forall (fun mgr reward => ?_) _ _⟩
    exact fun entry _ => always mgr entry _ _
  · exact fun other _ => always _ other _ _

theorem steadySet_anyhow (mgr : ReputationMgr) (entry : FactionEntry) (standing : ℚ)
    (incremental noSpillOver : Bool) (repMaxCap : Option ReputationRank)
    : SteadySet owner settings Anyhow modify quiet mgr entry standing incremental noSpillOver
        repMaxCap := by
  unfold SteadySet
  refine Foundation.Runs.eachAttempt_of_forall (fun mgr change => ?_) _ _
  exact fun _ entry _ => steadyOne_anyhow always mgr entry _ _ _

end Always

theorem steadyModify_anyhow (settings : Settings) (fuel : Nat) (mgr : ReputationMgr)
    (entry : FactionEntry) (standing : ℚ) (noSpillOver : Bool)
    : SteadyModify owner settings Anyhow fuel mgr entry standing noSpillOver := by
  induction fuel generalizing mgr entry standing noSpillOver with
  | zero => trivial
  | succ fuel ih => exact steadySet_anyhow ih mgr entry standing true noSpillOver none

/-- Every call is steady when nothing is asked of the scripts. -/
theorem steady_anyhow (mgr : ReputationMgr) (turn : Turn) : mgr.Steady owner Anyhow turn := by
  obtain ⟨settings, fuel, call⟩ := turn
  have always := @steadyModify_anyhow owner settings fuel
  cases call with
  | setReputation => exact fun entry _ => steadySet_anyhow always mgr entry _ _ _ _
  | setOneFactionReputation => exact fun entry _ => steadyOne_anyhow always mgr entry _ _ _
  | _ => trivial

end ReputationMgr

end WarheadCore.Reputation
