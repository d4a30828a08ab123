import WarheadCore.Combat.ThreatMgr
import WarheadCore.Foundation.Runs

/-! References and containers stay in step: every change of a reference keeps its flag, its
container and the current victim together, so every call does.
-/

namespace WarheadCore.Combat.ThreatMgr

open Foundation (Table Runs.EachState Runs.EachStep)

variable {units : Units} {mgr next : ThreatMgr} {id : Nat}

def Known (mgr : ThreatMgr) (id : Nat) : Prop := ∃ ref, mgr.refs.get? id = some ref

/-- Flags, containers and the current victim agree, and no two references mean one unit. -/
structure Sound (mgr : ThreatMgr) : Prop where
  onlineOnce : mgr.threatContainer.threatList.Nodup
  offlineOnce : mgr.threatOfflineContainer.threatList.Nodup
  online : ∀ {id ref}, mgr.refs.get? id = some ref
    → (id ∈ mgr.threatContainer.threatList ↔ ref.isOnline = true)
  offline : ∀ {id ref}, mgr.refs.get? id = some ref
    → (id ∈ mgr.threatOfflineContainer.threatList ↔ ref.isOnline = false)
  known : ∀ {id}, id ∈ mgr.threatContainer.threatList ∨ id ∈ mgr.threatOfflineContainer.threatList
    → mgr.Known id
  distinct : ∀ {id other ref ref'}, mgr.refs.get? id = some ref → mgr.refs.get? other = some ref'
    → ref.unitGuid = ref'.unitGuid → id = other
  victim : ∀ {id}, mgr.currentVictim = some id → id ∈ mgr.threatContainer.threatList
  fresh : ∀ {id ref}, mgr.refs.get? id = some ref → id < mgr.nextRef
  linked : ∀ {id ref}, mgr.refs.get? id = some ref → ref.valid = true

/-- A manager without references. -/
theorem sound_clearReferences (mgr : ThreatMgr) : mgr.clearReferences.Sound where
  onlineOnce := List.nodup_nil
  offlineOnce := List.nodup_nil
  online found := nomatch found
  offline found := nomatch found
  known listed := by simp [clearReferences] at listed
  distinct found := nomatch found
  victim none_ := nomatch none_
  fresh found := nomatch found
  linked found := nomatch found

structure Keeps (mgr next : ThreatMgr) : Prop where
  sound : next.Sound
  known : ∀ {id}, mgr.Known id → next.Known id

theorem Keeps.refl (sound : mgr.Sound) : Keeps mgr mgr := ⟨sound, fun known => known⟩

theorem Keeps.trans {middle : ThreatMgr} (first : Keeps mgr middle) (later : Keeps middle next)
    : Keeps mgr next :=
  ⟨later.sound, fun known => later.known (first.known known)⟩

-- Changes of one reference

theorem ref_of_get? {ref : HostileReference} (found : mgr.refs.get? id = some ref)
    : mgr.ref id = ref := by
  rw [ThreatMgr.ref, found]
  rfl

theorem ref_changeRef {ref : HostileReference} (found : mgr.refs.get? id = some ref)
    (change : HostileReference → HostileReference)
    : (mgr.changeRef id change).ref id = change ref := by
  refine ref_of_get? ?_
  rw [changeRef, Table.get?_modify_self, found]
  rfl

/-- A change of a reference that keeps its unit, its flag and its link. -/
theorem Sound.changeRef (sound : mgr.Sound) (id : Nat)
    {change : HostileReference → HostileReference}
    (same : ∀ ref, (change ref).unitGuid = ref.unitGuid ∧ (change ref).isOnline = ref.isOnline
      ∧ (ref.valid = true → (change ref).valid = true))
    : Keeps mgr (mgr.changeRef id change) := by
  have old {other : Nat} {later : HostileReference}
      (found : (mgr.changeRef id change).refs.get? other = some later)
      : ∃ ref, mgr.refs.get? other = some ref ∧ later.unitGuid = ref.unitGuid
        ∧ later.isOnline = ref.isOnline ∧ (ref.valid = true → later.valid = true) := by
    rw [ThreatMgr.changeRef, Table.get?_modify] at found
    split at found
    · next here =>
        obtain ⟨ref, there, rfl⟩ := Option.map_eq_some_iff.mp found
        exact ⟨ref, here ▸ there, same ref⟩
    · exact ⟨later, found, rfl, rfl, fun valid => valid⟩
  have known {other : Nat} (known : mgr.Known other) : (mgr.changeRef id change).Known other := by
    obtain ⟨ref, found⟩ := known
    rw [Known, ThreatMgr.changeRef, Table.get?_modify]
    split
    · next here => exact ⟨change ref, by rw [found]; rfl⟩
    · exact ⟨ref, found⟩
  refine ⟨⟨sound.onlineOnce, sound.offlineOnce, fun found => ?_, fun found => ?_,
    fun listed => known (sound.known listed), fun found found' equal => ?_, sound.victim,
    fun found => ?_, fun found => ?_⟩, known⟩
  · obtain ⟨ref, there, _, flag, _⟩ := old found
    rw [flag]
    exact sound.online there
  · obtain ⟨ref, there, _, flag, _⟩ := old found
    rw [flag]
    exact sound.offline there
  · obtain ⟨ref, there, unit, _⟩ := old found
    obtain ⟨ref', there', unit', _⟩ := old found'
    exact sound.distinct there there' (unit ▸ unit' ▸ equal)
  · obtain ⟨ref, there, _⟩ := old found
    exact sound.fresh there
  · obtain ⟨ref, there, _, _, valid⟩ := old found
    exact valid (sound.linked there)

theorem Sound.setDirty (sound : mgr.Sound) (isDirty : Bool) : Keeps mgr (mgr.setDirty isDirty) :=
  ⟨⟨sound.onlineOnce, sound.offlineOnce, sound.online, sound.offline, sound.known, sound.distinct,
    sound.victim, sound.fresh, sound.linked⟩, fun known => known⟩

/-- What leaves the online container is not the victim any more. -/
theorem dropVictim_fields (mgr : ThreatMgr) (id : Nat)
    : (mgr.dropVictim id).refs = mgr.refs ∧ (mgr.dropVictim id).nextRef = mgr.nextRef
      ∧ (mgr.dropVictim id).threatContainer.threatList = mgr.threatContainer.threatList
      ∧ (mgr.dropVictim id).threatOfflineContainer = mgr.threatOfflineContainer
      ∧ ∀ victim, (mgr.dropVictim id).currentVictim = some victim
        → mgr.currentVictim = some victim ∧ victim ≠ id := by
  unfold dropVictim
  split
  · exact ⟨rfl, rfl, rfl, rfl, fun victim none_ => nomatch none_⟩
  · next other =>
      exact ⟨rfl, rfl, rfl, rfl, fun victim chosen => ⟨chosen, fun same => other (same ▸ chosen)⟩⟩

theorem refs_processThreatEvent (mgr : ThreatMgr) (id : Nat) (event : ThreatRefStatusChangeEvent)
    : (mgr.processThreatEvent id event).refs = mgr.refs := by
  have dropped := (dropVictim_fields mgr id).1
  cases event with
  | threatChange value =>
      rw [processThreatEvent]
      split <;> rfl
  | onlineStatus =>
      rw [processThreatEvent]
      split
      · exact dropped
      · dsimp only
        split <;> rfl
  | removeFromList =>
      rw [processThreatEvent]
      split <;> exact dropped

/-- A reference that changes its flag changes its container. -/
theorem Sound.moved (sound : mgr.Sound) {ref : HostileReference}
    (found : mgr.refs.get? id = some ref) {isOnline : Bool}
    (refs : next.refs = mgr.refs.modify id (fun ref => { ref with isOnline }))
    (counter : next.nextRef = mgr.nextRef)
    (onlineOnce : next.threatContainer.threatList.Nodup)
    (offlineOnce : next.threatOfflineContainer.threatList.Nodup)
    (online
      : ∀ other, other ∈ next.threatContainer.threatList
          ↔ if other = id then isOnline = true else other ∈ mgr.threatContainer.threatList)
    (offline
      : ∀ other, other ∈ next.threatOfflineContainer.threatList
          ↔ if other = id then isOnline = false else other ∈ mgr.threatOfflineContainer.threatList)
    (victim
      : ∀ chosen, next.currentVictim = some chosen
          → mgr.currentVictim = some chosen ∧ (isOnline = false → chosen ≠ id))
    : Keeps mgr next := by
  have old {other : Nat} {later : HostileReference} (there : next.refs.get? other = some later)
      : ∃ ref, mgr.refs.get? other = some ref ∧ later.unitGuid = ref.unitGuid
        ∧ later.isOnline = (if other = id then isOnline else ref.isOnline)
        ∧ later.valid = ref.valid := by
    rw [refs, Table.get?_modify] at there
    split at there
    · next here =>
        obtain ⟨ref, known, rfl⟩ := Option.map_eq_some_iff.mp there
        exact ⟨ref, known, rfl, (if_pos here).symm, rfl⟩
    · next apart => exact ⟨later, there, rfl, (if_neg apart).symm, rfl⟩
  have known {other : Nat} (known : mgr.Known other) : next.Known other := by
    obtain ⟨ref, found⟩ := known
    rw [Known, refs, Table.get?_modify, found]
    split
    · exact ⟨_, rfl⟩
    · exact ⟨_, rfl⟩
  refine ⟨⟨onlineOnce, offlineOnce, fun there => ?_, fun there => ?_, fun listed => ?_,
    fun there there' equal => ?_, fun chosen => ?_, fun there => ?_, fun there => ?_⟩, known⟩
  · obtain ⟨ref, before, _, flag, _⟩ := old there
    rw [online, flag]
    split
    · exact Iff.rfl
    · exact sound.online before
  · obtain ⟨ref, before, _, flag, _⟩ := old there
    rw [offline, flag]
    split
    · exact Iff.rfl
    · exact sound.offline before
  · rw [online, offline] at listed
    split at listed
    · next here => exact here ▸ known ⟨ref, found⟩
    · exact known (sound.known listed)
  · obtain ⟨_, before, unit, _⟩ := old there
    obtain ⟨_, before', unit', _⟩ := old there'
    exact sound.distinct before before' (unit ▸ unit' ▸ equal)
  · obtain ⟨before, stays⟩ := victim _ chosen
    have listed := sound.victim before
    rw [online]
    split
    · next here =>
        cases isOnline with
        | true => rfl
        | false => exact absurd here (stays rfl)
    · exact listed
  · obtain ⟨_, before, _⟩ := old there
    exact counter ▸ sound.fresh before
  · obtain ⟨_, before, _, _, valid⟩ := old there
    exact valid.trans (sound.linked before)

theorem mem_remove {container : ThreatContainer} {other : Nat}
    : other ∈ (container.remove id).threatList ↔ other ∈ container.threatList ∧ other ≠ id := by
  simp [ThreatContainer.remove]

theorem mem_addReference {container : ThreatContainer} {other : Nat}
    : other ∈ (container.addReference id).threatList ↔ other ∈ container.threatList ∨ other = id := by
  simp [ThreatContainer.addReference]

theorem nodup_remove {container : ThreatContainer} (once : container.threatList.Nodup)
    : (container.remove id).threatList.Nodup :=
  once.filter _

theorem nodup_addReference {container : ThreatContainer} (once : container.threatList.Nodup)
    (absent : id ∉ container.threatList)
    : (container.addReference id).threatList.Nodup := by
  refine List.nodup_append.mpr ⟨once, List.nodup_singleton id, fun other listed last member same => ?_⟩
  rw [List.mem_singleton] at member
  exact absent (member ▸ same ▸ listed)

/-- A status change carries the reference to the container that its flag names. -/
theorem Sound.setOnlineOfflineState (sound : mgr.Sound) (known : mgr.Known id) (isOnline : Bool)
    : Keeps mgr (mgr.setOnlineOfflineState id isOnline) := by
  obtain ⟨ref, found⟩ := known
  have flag := ref_of_get? found
  unfold ThreatMgr.setOnlineOfflineState
  split
  · next differs =>
      rw [flag] at differs
      have changed := ref_changeRef found (fun ref => { ref with isOnline })
      cases isOnline with
      | false =>
          have was : ref.isOnline = true := by simpa using differs
          have absent : id ∉ mgr.threatOfflineContainer.threatList := by
            rw [sound.offline found, was]
            exact Bool.noConfusion
          simp only [processThreatEvent, changed, Bool.not_false, if_true]
          obtain ⟨refs, counter, online, offline, victim⟩ := dropVictim_fields
            (mgr.changeRef id (fun ref => { ref with isOnline := false })) id
          refine sound.moved found refs counter
            (nodup_remove (online ▸ sound.onlineOnce))
            (nodup_addReference (offline ▸ sound.offlineOnce) (offline ▸ absent))
            (fun other => ?_) (fun other => ?_)
            (fun chosen there => ⟨(victim chosen there).1, fun _ => (victim chosen there).2⟩)
          · rw [mem_remove, online]
            split
            · next here => simp [here]
            · next apart => simp [apart, ThreatMgr.changeRef]
          · rw [mem_addReference, offline]
            split
            · next here => simp [here]
            · next apart => simp [apart, ThreatMgr.changeRef]
      | true =>
          have was : ref.isOnline = false := by simpa using differs
          have absent : id ∉ mgr.threatContainer.threatList := by
            rw [sound.online found, was]
            exact Bool.noConfusion
          simp only [processThreatEvent, changed, Bool.not_true, Bool.false_eq_true, if_false]
          split
          all_goals
            refine sound.moved found rfl rfl (nodup_addReference sound.onlineOnce absent)
              (nodup_remove sound.offlineOnce) (fun other => ?_) (fun other => ?_)
              (fun chosen there => ⟨there, Bool.noConfusion⟩)
            · rw [mem_addReference]
              by_cases here : other = id
              · simp [here]
              · simp [here, ThreatMgr.changeRef, ThreatMgr.setDirty]
            · rw [mem_remove]
              by_cases here : other = id
              · simp [here]
              · simp [here, ThreatMgr.changeRef, ThreatMgr.setDirty]
  · exact .refl sound

theorem isOnline_setOnlineOfflineState {ref : HostileReference}
    (found : mgr.refs.get? id = some ref) (isOnline : Bool)
    : ((mgr.setOnlineOfflineState id isOnline).ref id).isOnline = isOnline := by
  unfold ThreatMgr.setOnlineOfflineState
  split
  · rw [ThreatMgr.ref, refs_processThreatEvent]
    exact congrArg HostileReference.isOnline
      (ref_changeRef found (fun ref => { ref with isOnline }))
  · next same => simpa using same

theorem Sound.updateOnlineStatus (sound : mgr.Sound) (known : mgr.Known id)
    : Keeps mgr (mgr.updateOnlineStatus units id) := by
  have relinked : Keeps mgr (mgr.relink units id) := by
    unfold relink
    split
    · exact sound.changeRef id (fun _ => ⟨rfl, rfl, fun _ => rfl⟩)
    · exact .refl sound
  exact relinked.trans (relinked.sound.setOnlineOfflineState (relinked.known known) _)

theorem Sound.checkOnline (sound : mgr.Sound) (known : mgr.Known id)
    : Keeps mgr (mgr.checkOnline units id) := by
  unfold ThreatMgr.checkOnline
  split
  · exact .refl sound
  · exact sound.updateOnlineStatus known

theorem Sound.fireThreatChange (sound : mgr.Sound) (id : Nat) (modThreat : ℚ)
    : Keeps mgr (mgr.fireThreatChange id modThreat) := by
  unfold ThreatMgr.fireThreatChange
  split
  · rw [processThreatEvent]
    split
    · exact sound.setDirty true
    · exact .refl sound
  · exact .refl sound

theorem Sound.changeThreat (sound : mgr.Sound) (known : mgr.Known id) (modThreat : ℚ)
    : Keeps mgr (mgr.changeThreat units id modThreat) := by
  have raised : Keeps mgr (mgr.changeRef id (fun ref =>
      { ref with threat := ref.threat + modThreat })) :=
    sound.changeRef id (fun _ => ⟨rfl, rfl, fun valid => valid⟩)
  have placed := raised.trans (@Sound.checkOnline units _ _ raised.sound (raised.known known))
  exact placed.trans (placed.sound.fireThreatChange id modThreat)

-- References that come and go

/-- A reference that is listed for a unit means that unit. -/
theorem of_getReferenceByTarget {container : ThreatContainer} {victim : Nat}
    (found : mgr.getReferenceByTarget container victim = some id)
    : id ∈ container.threatList ∧ (mgr.ref id).unitGuid = victim :=
  ⟨List.mem_of_find?_eq_some found, by simpa using List.find?_some found⟩

theorem Sound.known_of_findReference (sound : mgr.Sound) {victim : Nat}
    (found : mgr.findReference victim = some id)
    : mgr.Known id := by
  rcases Option.or_eq_some_iff.mp found with online | ⟨_, offline⟩
  · exact sound.known (.inl (of_getReferenceByTarget online).1)
  · exact sound.known (.inr (of_getReferenceByTarget offline).1)

/-- A unit without a listed reference has none at all. -/
theorem Sound.unreferenced (sound : mgr.Sound) {victim : Nat}
    (none_ : mgr.findReference victim = none) {ref : HostileReference}
    (found : mgr.refs.get? id = some ref)
    : ref.unitGuid ≠ victim := by
  intro same
  obtain ⟨online, offline⟩ := Option.or_eq_none_iff.mp none_
  have unit : (mgr.ref id).unitGuid = victim := (ref_of_get? found) ▸ same
  cases flag : ref.isOnline with
  | true =>
      have other := List.find?_eq_none.mp online id ((sound.online found).mpr flag)
      exact absurd unit (by simpa using other)
  | false =>
      have other := List.find?_eq_none.mp offline id ((sound.offline found).mpr flag)
      exact absurd unit (by simpa using other)

theorem Sound.newReference (sound : mgr.Sound) {victim : Nat}
    (none_ : mgr.findReference victim = none)
    : Keeps mgr (mgr.newReference victim) ∧ (mgr.newReference victim).Known mgr.nextRef := by
  have old {other : Nat} {later : HostileReference}
      (there : (mgr.newReference victim).refs.get? other = some later)
      : (other = mgr.nextRef ∧ later = { unitGuid := victim })
        ∨ other ≠ mgr.nextRef ∧ mgr.refs.get? other = some later := by
    rw [ThreatMgr.newReference, Table.get?_put] at there
    split at there
    · next here => exact .inl ⟨here, (Option.some.inj there).symm⟩
    · next apart => exact .inr ⟨apart, there⟩
  have unlisted : mgr.nextRef ∉ mgr.threatContainer.threatList
      ∧ mgr.nextRef ∉ mgr.threatOfflineContainer.threatList := by
    constructor <;> intro listed
    · obtain ⟨ref, found⟩ := sound.known (.inl listed)
      exact absurd (sound.fresh found) (lt_irrefl _)
    · obtain ⟨ref, found⟩ := sound.known (.inr listed)
      exact absurd (sound.fresh found) (lt_irrefl _)
  have created : (mgr.newReference victim).Known mgr.nextRef :=
    ⟨{ unitGuid := victim }, (Table.get?_put _ _ _ _).trans (if_pos rfl)⟩
  have known {other : Nat} (known : mgr.Known other) : (mgr.newReference victim).Known other := by
    obtain ⟨ref, found⟩ := known
    exact ⟨ref, (Table.get?_put _ _ _ _).trans ((if_neg (sound.fresh found).ne).trans found)⟩
  refine ⟨⟨⟨nodup_addReference sound.onlineOnce unlisted.1, sound.offlineOnce, fun there => ?_,
    fun there => ?_, fun listed => ?_, fun there there' equal => ?_,
    fun chosen => mem_addReference.mpr (.inl (sound.victim chosen)), fun there => ?_,
    fun there => ?_⟩, known⟩, created⟩
  · rcases old there with ⟨rfl, rfl⟩ | ⟨apart, before⟩
    · simp [ThreatMgr.newReference, ThreatContainer.addReference]
    · rw [← sound.online before]
      simp [ThreatMgr.newReference, ThreatContainer.addReference, apart]
  · rcases old there with ⟨rfl, rfl⟩ | ⟨apart, before⟩
    · simpa [ThreatMgr.newReference] using unlisted.2
    · exact sound.offline before
  · rcases listed with online | offline
    · rcases mem_addReference.mp online with before | rfl
      · exact known (sound.known (.inl before))
      · exact created
    · exact known (sound.known (.inr offline))
  · rcases old there with ⟨rfl, rfl⟩ | ⟨_, before⟩
    · rcases old there' with ⟨rfl, rfl⟩ | ⟨_, before'⟩
      · rfl
      · exact absurd equal.symm (sound.unreferenced none_ before')
    · rcases old there' with ⟨rfl, rfl⟩ | ⟨_, before'⟩
      · exact absurd equal (sound.unreferenced none_ before)
      · exact sound.distinct before before' equal
  · rcases old there with ⟨rfl, rfl⟩ | ⟨_, before⟩
    · exact Nat.lt_succ_self _
    · exact Nat.lt_succ_of_lt (sound.fresh before)
  · rcases old there with ⟨rfl, rfl⟩ | ⟨_, before⟩
    · rfl
    · exact sound.linked before

/-- What `removeReference` leaves of the manager: the reference is in no container. -/
theorem Sound.removeReference (sound : mgr.Sound) (known : mgr.Known id)
    : (mgr.removeReference id).Sound := by
  obtain ⟨ref, found⟩ := known
  have offline := sound.setOnlineOfflineState ⟨ref, found⟩ false
  have flag := isOnline_setOnlineOfflineState found false
  unfold ThreatMgr.removeReference
  generalize mgr.setOnlineOfflineState id false = left_ at offline flag ⊢
  have sound := offline.sound
  obtain ⟨later, there⟩ := offline.known ⟨ref, found⟩
  have closed : (((left_.changeRef id (fun ref => { ref with valid := false })).dropVictim id).ref
      id).isOnline = false := by
    rw [ThreatMgr.ref, (dropVictim_fields _ _).1, ← ThreatMgr.ref, ref_changeRef there,
      ← ref_of_get? there]
    exact flag
  obtain ⟨refs, counter, online, offlineList, victim⟩ := dropVictim_fields
    (left_.changeRef id (fun ref => { ref with valid := false })) id
  simp only [processThreatEvent, closed, Bool.false_eq_true, if_false, refs]
  have unlisted : id ∉ left_.threatContainer.threatList := by
    rw [sound.online there, ← ref_of_get? there, flag]
    exact Bool.noConfusion
  have old {other : Nat} {kept : HostileReference}
      (there : ((left_.refs.modify id (fun ref => { ref with valid := false })).remove id).get? other
        = some kept)
      : other ≠ id ∧ left_.refs.get? other = some kept := by
    rw [Table.get?_remove] at there
    split at there
    · cases there
    · next apart => exact ⟨apart, (Table.get?_modify_of_ne _ _ apart) ▸ there⟩
  refine ⟨online ▸ sound.onlineOnce, nodup_remove (offlineList ▸ sound.offlineOnce),
    fun known => ?_, fun known => ?_, fun listed => ?_, fun known known' equal => ?_,
    fun chosen => online ▸ sound.victim (victim _ chosen).1, fun known => ?_, fun known => ?_⟩
  · rw [online]
    exact sound.online (old known).2
  · rw [mem_remove, offlineList, ← sound.offline (old known).2]
    exact and_iff_left (old known).1
  · have apart {other : Nat} (listed : other ∈ left_.threatContainer.threatList
        ∨ other ∈ left_.threatOfflineContainer.threatList) (apart : other ≠ id)
        : ∃ kept, ((left_.refs.modify id (fun ref => { ref with valid := false })).remove id).get?
            other = some kept := by
      obtain ⟨kept, known⟩ := sound.known listed
      exact ⟨kept, (Table.get?_remove_of_ne _ apart).trans
        ((Table.get?_modify_of_ne _ _ apart).trans known)⟩
    rcases listed with inOnline | inOffline
    · rw [online] at inOnline
      exact apart (.inl inOnline) (fun same => unlisted (same ▸ inOnline))
    · rw [mem_remove, offlineList] at inOffline
      exact apart (.inr inOffline.1) inOffline.2
  · exact sound.distinct (old known).2 (old known').2 equal
  · exact counter ▸ sound.fresh (old known).2
  · exact sound.linked (old known).2

-- Added threat

def Reliable (add : ThreatMgr → Nat → ℚ → Option ThreatMgr) : Prop :=
  ∀ {mgr id modThreat next}, mgr.Sound → mgr.Known id → add mgr id modThreat = some next
    → Keeps mgr next

section Adding

variable {add : ThreatMgr → Nat → ℚ → Option ThreatMgr} (reliable : Reliable add)
  {victim : Nat} {threat : ℚ}

include reliable

theorem Sound.addThreatToReference (sound : mgr.Sound)
    (added : mgr.addThreatToReference units add victim threat = some next)
    : Keeps mgr next := by
  unfold ThreatMgr.addThreatToReference at added
  split at added
  · next found => exact reliable sound (sound.known_of_findReference found) added
  · next none_ =>
      obtain ⟨created, known⟩ := sound.newReference none_
      obtain ⟨raised, there, last⟩ := Option.bind_eq_some_iff.mp added
      have kept := reliable created.sound known there
      split at last
      · obtain rfl := Option.some.inj last
        exact created.trans (kept.trans (kept.sound.setOnlineOfflineState (kept.known known) false))
      · obtain rfl := Option.some.inj last
        exact created.trans kept

theorem Sound.redirectThreat (sound : mgr.Sound)
    (added : mgr.redirectThreat units add victim threat = some next)
    : Keeps mgr next := by
  unfold ThreatMgr.redirectThreat at added
  split at added
  · exact sound.addThreatToReference reliable added
  · obtain rfl := Option.some.inj added
    exact .refl sound

theorem Sound.doAddThreat (sound : mgr.Sound)
    (added : mgr.doAddThreat units add victim threat = some next)
    : Keeps mgr next := by
  unfold ThreatMgr.doAddThreat at added
  split at added
  · split at added
    · obtain ⟨redirected, there, last⟩ := Option.bind_eq_some_iff.mp added
      have first := sound.redirectThreat reliable there
      exact first.trans (first.sound.addThreatToReference reliable last)
    · exact sound.addThreatToReference reliable added
  · exact sound.addThreatToReference reliable added

theorem Sound.addThreat (sound : mgr.Sound) {threatSpell : Option Nat}
    (added : mgr.addThreat units add victim threat threatSpell = some next)
    : Keeps mgr next := by
  unfold ThreatMgr.addThreat at added
  split at added
  · exact sound.doAddThreat reliable added
  · obtain rfl := Option.some.inj added
    exact .refl sound

end Adding

/-- Adding threat keeps the manager, by induction on the owners that are followed. -/
theorem reliable_referenceAddThreat (units : Units) (fuel : Nat)
    : Reliable (referenceAddThreat units fuel) := by
  induction fuel with
  | zero => exact fun _ _ none_ => nomatch none_
  | succ fuel ih =>
      intro mgr id modThreat next sound known added
      have changed := @Sound.changeThreat units mgr id sound known modThreat
      rw [referenceAddThreat] at added
      split at added
      · exact changed.trans (changed.sound.addThreat ih added)
      · obtain rfl := Option.some.inj added
        exact changed

-- Selection

theorem perm_update (mgr : ThreatMgr)
    : mgr.update.threatContainer.threatList.Perm mgr.threatContainer.threatList := by
  unfold update
  dsimp only
  split
  · exact List.perm_insertionSort _ _
  · exact List.Perm.refl _

/-- Sorting changes the order of the list and nothing else. -/
theorem Sound.update (sound : mgr.Sound) : mgr.update.Sound where
  onlineOnce := mgr.perm_update.nodup_iff.mpr sound.onlineOnce
  offlineOnce := sound.offlineOnce
  online found := mgr.perm_update.mem_iff.trans (sound.online found)
  offline found := sound.offline found
  known listed := sound.known (listed.imp_left mgr.perm_update.mem_iff.mp)
  distinct := sound.distinct
  victim chosen := mgr.perm_update.mem_iff.mpr (sound.victim chosen)
  fresh := sound.fresh
  linked := sound.linked

/-- A pass over the list finds a reference of the list or the victim it compares with, by induction
on the list.
-/
theorem mem_of_scan {currentVictim : Option Nat} {second : Bool} {list : List Nat}
    (found : mgr.scan units currentVictim second list = .found id)
    : id ∈ list ∨ currentVictim = some id := by
  induction list with
  | nil => cases found
  | cons head rest ih =>
      have later (found : mgr.scan units currentVictim second rest = .found id)
          : id ∈ head :: rest ∨ currentVictim = some id :=
        (ih found).imp_left (List.mem_cons_of_mem head)
      unfold scan at found
      dsimp only at found
      split at found
      · split at found
        · cases found
        · exact later found
      · split at found
        · split at found
          · obtain rfl := Scan.found.inj found
            exact .inl List.mem_cons_self
          · next victim =>
              split at found
              · obtain rfl := Scan.found.inj found
                exact .inl List.mem_cons_self
              · split at found
                · obtain rfl := Scan.found.inj found
                  exact .inl List.mem_cons_self
                · split at found
                  · split at found
                    · obtain rfl := Scan.found.inj found
                      exact .inl List.mem_cons_self
                    · exact later found
                  · obtain rfl := Scan.found.inj found
                    exact .inr rfl
        · exact later found

/-- The selected victim is listed. -/
theorem Sound.mem_of_selectNextVictim (sound : mgr.Sound)
    (selected : mgr.selectNextVictim units = some id)
    : id ∈ mgr.threatContainer.threatList := by
  have pass {second : Bool}
      (found : mgr.scan units (mgr.comparedVictim units) second mgr.threatContainer.threatList
        = .found id)
      : id ∈ mgr.threatContainer.threatList := by
    rcases mem_of_scan found with listed | compared
    · exact listed
    · exact sound.victim (Option.filter_eq_some_iff.mp compared).1
  unfold selectNextVictim at selected
  dsimp only at selected
  split at selected
  · next found =>
      obtain rfl := Option.some.inj selected
      exact pass found
  · cases selected
  · split at selected
    · next found =>
        obtain rfl := Option.some.inj selected
        exact pass found
    · cases selected

/-- The victim may be set to any reference of the online container. -/
theorem Sound.choose (sound : mgr.Sound) {chosen : Option Nat}
    (listed : ∀ {id}, chosen = some id → id ∈ mgr.threatContainer.threatList)
    : Sound { mgr with currentVictim := chosen } :=
  ⟨sound.onlineOnce, sound.offlineOnce, sound.online, sound.offline, sound.known, sound.distinct,
    listed, sound.fresh, sound.linked⟩

theorem Sound.getHostileTarget (sound : mgr.Sound) (units : Units)
    : (mgr.getHostileTarget units).Sound :=
  sound.update.choose (fun selected => sound.update.mem_of_selectNextVictim selected)

-- Calls

section Calls

variable {fuel : Nat}

theorem Sound.addThreatPercent (sound : mgr.Sound) (known : mgr.Known id) {percent : Int}
    (added : mgr.addThreatPercent units fuel id percent = some next)
    : next.Sound := by
  unfold ThreatMgr.addThreatPercent at added
  split at added
  · obtain rfl := Option.some.inj added
    exact sound
  · exact (reliable_referenceAddThreat units fuel sound known added).sound

theorem Sound.setTempThreatModifier (sound : mgr.Sound) (id : Nat) (threat : ℚ)
    : Keeps mgr (mgr.changeRef id (fun ref => { ref with tempThreatModifier := threat })) :=
  sound.changeRef id (fun _ => ⟨rfl, rfl, fun valid => valid⟩)

theorem Sound.addTempThreat (sound : mgr.Sound) (known : mgr.Known id) {threat : ℚ}
    (added : mgr.addTempThreat units fuel id threat = some next)
    : next.Sound := by
  have marked := sound.setTempThreatModifier id threat
  unfold ThreatMgr.addTempThreat at added
  dsimp only at added
  split at added
  · exact (reliable_referenceAddThreat units fuel marked.sound (marked.known known) added).sound
  · obtain rfl := Option.some.inj added
    exact marked.sound

theorem Sound.resetTempThreat (sound : mgr.Sound) (known : mgr.Known id)
    (added : mgr.resetTempThreat units fuel id = some next)
    : next.Sound := by
  unfold ThreatMgr.resetTempThreat at added
  split at added
  · obtain ⟨reset, there, last⟩ := Option.bind_eq_some_iff.mp added
    obtain rfl := Option.some.inj last
    have kept := reliable_referenceAddThreat units fuel sound known there
    exact (kept.sound.setTempThreatModifier id 0).sound
  · obtain rfl := Option.some.inj added
    exact sound

/-- A reference that a lookup returns is known. -/
theorem Sound.known_of_online (sound : mgr.Sound) {victim : Nat}
    (found : mgr.getReferenceByTarget mgr.threatContainer victim = some id)
    : mgr.Known id :=
  sound.known (.inl (of_getReferenceByTarget found).1)

theorem Sound.tauntApply (sound : mgr.Sound) {taunter : Nat}
    (added : mgr.tauntApply units fuel taunter = some next)
    : next.Sound := by
  unfold ThreatMgr.tauntApply at added
  split at added
  · next found _ =>
      split at added
      · exact sound.addTempThreat (sound.known_of_online found) added
      · obtain rfl := Option.some.inj added
        exact sound
  · obtain rfl := Option.some.inj added
    exact sound

theorem Sound.tauntFadeOut (sound : mgr.Sound) {taunter : Nat}
    (added : mgr.tauntFadeOut units fuel taunter = some next)
    : next.Sound := by
  unfold ThreatMgr.tauntFadeOut at added
  split at added
  · next found => exact sound.resetTempThreat (sound.known_of_online found) added
  · obtain rfl := Option.some.inj added
    exact sound

theorem Sound.modifyThreatByPercent (sound : mgr.Sound) {victim : Nat} {percent : Int}
    (added : mgr.modifyThreatByPercent units fuel victim percent = some next)
    : next.Sound := by
  unfold ThreatMgr.modifyThreatByPercent at added
  split at added
  · next found => exact sound.addThreatPercent (sound.known_of_online found) added
  · obtain rfl := Option.some.inj added
    exact sound

/-- A call on the reference of a victim. -/
theorem Sound.onReference (sound : mgr.Sound) {victim : Nat} {action : Nat → Option ThreatMgr}
    (done : mgr.onReference victim action = some next)
    (kept : ∀ {id}, mgr.Known id → action id = some next → next.Sound)
    : next.Sound := by
  unfold ThreatMgr.onReference at done
  split at done
  · next found => exact kept (sound.known_of_findReference found) done
  · obtain rfl := Option.some.inj done
    exact sound

end Calls

/-- Every call that returns keeps the manager sound. -/
theorem Sound.perform (sound : mgr.Sound) {turn : Turn} (done : mgr.perform turn = some next)
    : next.Sound := by
  obtain ⟨units, fuel, call⟩ := turn
  cases call with
  | addThreat => exact (sound.addThreat (reliable_referenceAddThreat units fuel) done).sound
  | doAddThreat => exact (sound.doAddThreat (reliable_referenceAddThreat units fuel) done).sound
  | modifyThreatByPercent => exact sound.modifyThreatByPercent done
  | addThreatPercent => exact sound.onReference done (fun known added => sound.addThreatPercent known added)
  | addTempThreat =>
      refine sound.onReference done (fun known added => ?_)
      split at added
      · exact sound.addTempThreat known added
      · obtain rfl := Option.some.inj added
        exact sound
  | resetTempThreat => exact sound.onReference done (fun known added => sound.resetTempThreat known added)
  | tauntApply => exact sound.tauntApply done
  | tauntFadeOut => exact sound.tauntFadeOut done
  | setCurrentVictim taunter =>
      obtain rfl := Option.some.inj done
      split
      · next found =>
          refine sound.choose (fun chosen => ?_)
          obtain rfl := Option.some.inj chosen
          exact (of_getReferenceByTarget found).1
      · exact sound
  | setOnlineOfflineState victim isOnline =>
      refine sound.onReference done (fun known added => ?_)
      obtain rfl := Option.some.inj added
      exact (sound.setOnlineOfflineState known isOnline).sound
  | updateOnlineStatus =>
      refine sound.onReference done (fun known added => ?_)
      obtain rfl := Option.some.inj added
      exact (sound.updateOnlineStatus known).sound
  | removeReference =>
      refine sound.onReference done (fun known added => ?_)
      obtain rfl := Option.some.inj added
      exact sound.removeReference known
  | clearReferences =>
      obtain rfl := Option.some.inj done
      exact mgr.sound_clearReferences
  | getHostileTarget =>
      obtain rfl := Option.some.inj done
      exact sound.getHostileTarget units

theorem Sound.step (sound : mgr.Sound) (turn : Turn) : (mgr.step turn).Sound := by
  unfold ThreatMgr.step
  cases done : mgr.perform turn with
  | none => exact sound
  | some next => exact sound.perform done

/-- Each reference stands once in the container that its flag names and not in the other one, a
unit has at most one reference, and the current victim is online.
-/
structure Contained (mgr : ThreatMgr) : Prop where
  counted : ∀ {id ref}, mgr.refs.get? id = some ref
    → mgr.threatContainer.threatList.count id = (if ref.isOnline then 1 else 0)
      ∧ mgr.threatOfflineContainer.threatList.count id = (if ref.isOnline then 0 else 1)
  known : ∀ {id}, id ∈ mgr.threatContainer.threatList ∨ id ∈ mgr.threatOfflineContainer.threatList
    → mgr.Known id
  oneForEach : ∀ {id other ref ref'}, mgr.refs.get? id = some ref → mgr.refs.get? other = some ref'
    → ref.unitGuid = ref'.unitGuid → id = other
  victim : ∀ {id}, mgr.currentVictim = some id → id ∈ mgr.threatContainer.threatList

theorem Sound.contained (sound : mgr.Sound) : mgr.Contained := by
  refine ⟨fun {id ref} found => ?_, sound.known, sound.distinct, sound.victim⟩
  have online := sound.online found
  have offline := sound.offline found
  rw [sound.onlineOnce.count, sound.offlineOnce.count]
  cases flag : ref.isOnline with
  | true => simp [online, offline, flag]
  | false => simp [online, offline, flag]

/-- Whatever is called on a threat manager, its containers stay in step with its references. -/
theorem threat_containers_agree (turns : List Turn)
    : Runs.EachState step Contained {} turns := by
  have kept (mgr : ThreatMgr) (turn : Turn) (sound : mgr.Sound) (_ : True)
      : (mgr.step turn).Sound :=
    sound.step turn
  have always : Runs.EachStep step (fun _ _ => True) ({} : ThreatMgr) turns :=
    Foundation.Runs.eachStep_of_forall (fun _ _ => trivial) _ _
  exact (Foundation.Runs.eachState_of_invariant kept (sound_clearReferences {}) always).imp
    (fun _ sound => sound.contained)

end WarheadCore.Combat.ThreatMgr
