import WarheadCore.Foundation.Runs
import WarheadCore.Mails.Handlers

/-! The mail count of the character cache against the mails of a character that are not deleted.
Every mail that is created or deleted moves both; a delete request for a mail that is deleted
already moves only the count.
-/

namespace WarheadCore.Mails

open Foundation WarheadCore.Items WarheadCore.Player

/-- A request of a player, or a mail that the game itself sends. -/
inductive Call where
  | turn (turn : Turn)
  | systemMail (receiver : Nat) (messageType : MailMessageType) (sender : Nat) (items : List Nat)
      (money deliverTime : Nat)

namespace World

def call (storage : PlayerStorage) (world : World) : Call → World
  | .turn turn => world.step storage turn
  | .systemMail receiver messageType sender items money deliverTime =>
      world.sendMailTo receiver messageType sender items money 0 deliverTime

/-- The mail count of every character is the number of his mails that are not deleted, and what is
still to be taken off it. Mail ids come from below the counter.
-/
structure Counted (extra : Nat → Nat) (world : World) : Prop where
  fresh : ∀ {mailId mail}, world.mails.get? mailId = some mail → mailId < world.nextMailId
  counts
    : ∀ {guid character}, world.characters.get? guid = some character
        → character.mailCount = world.liveMails guid + extra guid
  bounded
    : ∀ {guid character}, world.characters.get? guid = some character
        → character.mailCount < 0x100

/-- Exact counts can be computed. -/
theorem counted_of_entries {world : World}
    (each
      : (world.mails.entries.all (fun entry => decide (entry.1 < world.nextMailId))
          && world.characters.entries.all (fun entry =>
            decide (entry.2.mailCount = world.liveMails entry.1 ∧ entry.2.mailCount < 0x100))) = true)
    : Counted 0 world := by
  rw [Bool.and_eq_true, List.all_eq_true, List.all_eq_true] at each
  have character {guid : Nat} {character : Character}
      (found : world.characters.get? guid = some character) :=
    of_decide_eq_true (each.2 ⟨guid, character⟩ (Table.get?_eq_some_iff.mp found))
  exact ⟨fun {mailId mail} found =>
      of_decide_eq_true (each.1 ⟨mailId, mail⟩ (Table.get?_eq_some_iff.mp found)),
    fun found => (character found).1, fun found => (character found).2⟩

structure Uncounted (world next : World) : Prop where
  fresh
    : (∀ {mailId mail}, world.mails.get? mailId = some mail → mailId < world.nextMailId)
        → ∀ {mailId mail}, next.mails.get? mailId = some mail → mailId < next.nextMailId
  live : ∀ guid, next.liveMails guid = world.liveMails guid
  counts
    : ∀ guid, (next.characters.get? guid).map Character.mailCount
        = (world.characters.get? guid).map Character.mailCount

variable {extra : Nat → Nat} {world middle next : World}

theorem Uncounted.refl : Uncounted world world := ⟨id, fun _ => rfl, fun _ => rfl⟩

theorem Uncounted.trans (first : Uncounted world middle) (second : Uncounted middle next)
    : Uncounted world next :=
  ⟨fun fresh => second.fresh (first.fresh fresh),
    fun guid => (second.live guid).trans (first.live guid),
    fun guid => (second.counts guid).trans (first.counts guid)⟩

theorem Counted.uncounted (counted : Counted extra world) (unseen : Uncounted world next)
    : Counted extra next := by
  have before {guid : Nat} {character : Character} (found : next.characters.get? guid = some character)
      : ∃ old, world.characters.get? guid = some old ∧ old.mailCount = character.mailCount := by
    have same := unseen.counts guid
    rw [found, Option.map_some] at same
    exact Option.map_eq_some_iff.mp same.symm
  refine ⟨unseen.fresh counted.fresh, fun {guid character} found => ?_, fun {guid character} found => ?_⟩
  · obtain ⟨old, stored, same⟩ := before found
    rw [← same, counted.counts stored, unseen.live]
  · obtain ⟨old, stored, same⟩ := before found
    exact same ▸ counted.bounded stored

-- What is not counted

/-- A change of a character that keeps his mail count. -/
theorem uncounted_changeCharacter (world : World) (guid : Nat) {f : Character → Character}
    (same : ∀ character, (f character).mailCount = character.mailCount)
    : Uncounted world (world.changeCharacter guid f) where
  fresh := id
  live _ := rfl
  counts other := by
    rw [changeCharacter, Table.get?_modify]
    split
    · rw [Option.map_map]
      congr 1
      funext character
      exact same character
    · rfl

theorem uncounted_modifyMoney (world : World) (guid : Nat) (amount : Int)
    : Uncounted world (world.modifyMoney guid amount) :=
  uncounted_changeCharacter world guid (fun _ => rfl)

theorem uncounted_setMailsUpdated (world : World) (guid : Nat)
    : Uncounted world (world.setMailsUpdated guid) :=
  uncounted_changeCharacter world guid (fun _ => rfl)

/-- A change of a mail that keeps its owner, and that it is not deleted. -/
theorem uncounted_changeMail {mailId : Nat} {mail : Mail} {f : Mail → Mail}
    (found : world.mails.get? mailId = some mail) (live : mail.state ≠ .deleted)
    (owner : (f mail).receiver = mail.receiver) (stays : (f mail).state ≠ .deleted)
    : Uncounted world (world.changeMail mailId f) where
  fresh fresh := by
    intro other later there
    rw [changeMail, Table.get?_modify] at there
    split at there
    · next same =>
        subst same
        exact fresh found
    · exact fresh there
  live guid := by
    have moved := Table.count_modify found f
      (fun mail => decide (mail.receiver = guid ∧ mail.state ≠ .deleted))
    simp only [owner, live, stays, ne_eq, not_false_eq_true, and_true] at moved
    unfold liveMails changeMail
    simp only [ne_eq]
    omega
  counts _ := rfl

/-- Saving a player's mails drops deleted ones only. -/
theorem uncounted_purge (world : World) (player : Nat) : Uncounted world (world.purge player) where
  fresh fresh := by
    intro mailId mail found
    rw [purge, Table.get?_mapValues, Table.get?_filter] at found
    obtain ⟨stored, kept, _⟩ := Option.map_eq_some_iff.mp found
    exact fresh (Option.filter_eq_some_iff.mp kept).1
  live guid := by
    rw [liveMails, purge, Table.count_mapValues]
    refine (Table.count_filter world.mails (fun mail => !mail.isDeletedOf player) _).trans ?_
    refine congrArg world.mails.count (funext fun mail => ?_)
    unfold Mail.saved Mail.isDeletedOf
    by_cases mine : mail.receiver = player <;> cases state : mail.state <;> simp_all
  counts _ := rfl

theorem uncounted_saveMail (world : World) (player : Nat)
    : Uncounted world (world.saveMail player) := by
  unfold saveMail
  split
  · exact Uncounted.refl
  · refine Uncounted.trans (uncounted_purge world player)
      (uncounted_changeCharacter _ player (fun _ => rfl))

-- What is counted

theorem updateMailCount_characters (world : World) (guid other : Nat) (count : Int)
    : (world.updateMailCount guid count).characters.get? other
      = if other = guid then
          (world.characters.get? other).map (fun character =>
            if character.mailCount = 0 ∧ count < 0 then character
            else { character with mailCount := toUInt8 (character.mailCount + count) })
        else world.characters.get? other :=
  Table.get?_modify _ _ _ _

/-- A mail that is sent is counted, up to the end of the 8-bit counter. -/
theorem Counted.sendMailTo (counted : Counted extra world) {receiver : Nat}
    {messageType : MailMessageType} {sender : Nat} {items : List Nat} {money cod deliverTime : Nat}
    (room : world.exists_ receiver → world.liveMails receiver + extra receiver < 255)
    : Counted extra
        (world.sendMailTo receiver messageType sender items money cod deliverTime) := by
  let mail : Mail := { messageType, sender, receiver, items, money, cod, deliverTime }
  have absent : world.mails.get? world.nextMailId = none := by
    by_contra present
    obtain ⟨mail, found⟩ := Option.ne_none_iff_exists'.mp present
    exact absurd (counted.fresh found) (lt_irrefl _)
  have live (guid : Nat)
      : (world.sendMailTo receiver messageType sender items money cod deliverTime).liveMails guid
        = world.liveMails guid + if receiver = guid then 1 else 0 := by
    have added := Table.count_put absent mail
      (fun mail => decide (mail.receiver = guid ∧ mail.state ≠ .deleted))
    have here : decide (mail.receiver = guid ∧ mail.state ≠ .deleted) = decide (receiver = guid) := by
      simp [mail]
    simp only [here, decide_eq_true_eq] at added
    exact added
  refine ⟨fun {mailId other} found => ?_, fun {guid character} found => ?_,
    fun {guid character} found => ?_⟩
  · have stored : (world.mails.put world.nextMailId mail).get? mailId = some other := found
    rw [Table.get?_put] at stored
    split at stored
    · next same => exact same ▸ Nat.lt_succ_self _
    · exact (counted.fresh stored).trans (Nat.lt_succ_self _)
  all_goals
    rw [World.sendMailTo, updateMailCount_characters] at found
    split at found
  · next same =>
      subst same
      obtain ⟨old, stored, rfl⟩ := Option.map_eq_some_iff.mp found
      have counts := counted.counts stored
      have small := room (Option.isSome_iff_exists.mpr ⟨old, stored⟩)
      have added := live guid
      rw [if_pos rfl] at added
      rw [if_neg (by omega)]
      have more : ((old.mailCount : Int) + 1) = ((old.mailCount + 1 : Nat) : Int) := rfl
      rw [more, toUInt8_of_lt (by omega)]
      exact (congrArg (· + 1) counts).trans (by omega)
  · next other =>
      have added := live guid
      rw [if_neg (Ne.symm other)] at added
      exact (counted.counts found).trans (congrArg (· + extra guid) added.symm)
  · obtain ⟨old, stored, rfl⟩ := Option.map_eq_some_iff.mp found
    rw [if_neg (by omega)]
    exact toUInt8_lt ((old.mailCount : Int) + 1)
  · exact counted.bounded found

/-- A mail that is gone is taken off the count. -/
theorem Counted.takeOff {player : Nat} (counted : Counted (Pi.single player 1) world)
    : Counted 0 (world.updateMailCount player (-1)) := by
  refine ⟨counted.fresh, fun {guid character} found => ?_, fun {guid character} found => ?_⟩
  all_goals
    rw [updateMailCount_characters] at found
    split at found
  · next same =>
      subst same
      obtain ⟨old, stored, rfl⟩ := Option.map_eq_some_iff.mp found
      have counts := counted.counts stored
      have bounded := counted.bounded stored
      rw [Pi.single_eq_same] at counts
      rw [if_neg (by omega)]
      have less : ((old.mailCount : Int) + -1) = ((old.mailCount - 1 : Nat) : Int) := by omega
      rw [less, toUInt8_of_lt (by omega)]
      exact Nat.sub_eq_of_eq_add counts
  · next other =>
      have counts := counted.counts found
      rw [Pi.single_eq_of_ne other] at counts
      exact counts
  · next same =>
      subst same
      obtain ⟨old, stored, rfl⟩ := Option.map_eq_some_iff.mp found
      split
      · exact counted.bounded stored
      · exact toUInt8_lt _
  · exact counted.bounded found

/-- A world without one mail that was counted is one behind on its owner's count. -/
theorem Counted.dropped (counted : Counted 0 world) {player : Nat} {dropped : World}
    (characters : dropped.characters = world.characters)
    (fresh : ∀ {mailId mail}, dropped.mails.get? mailId = some mail → mailId < dropped.nextMailId)
    (less
      : ∀ guid, dropped.liveMails guid + (if player = guid then 1 else 0) = world.liveMails guid)
    : Counted (Pi.single player 1) dropped := by
  refine ⟨fresh, fun {guid character} stored => ?_, fun {guid character} stored => ?_⟩
  · rw [characters] at stored
    have counts := counted.counts stored
    have gone := less guid
    by_cases same : guid = player
    · subst same
      rw [Pi.single_eq_same]
      rw [if_pos rfl] at gone
      exact counts.trans gone.symm
    · rw [Pi.single_eq_of_ne same]
      rw [if_neg (Ne.symm same)] at gone
      exact counts.trans gone.symm
  · rw [characters] at stored
    exact counted.bounded stored

-- The requests

theorem uncounted_changeAccount (world : World) (mailId : Nat) (f : Account → Account)
    : Uncounted world (world.changeAccount mailId f) :=
  ⟨id, fun _ => rfl, fun _ => rfl⟩

theorem uncounted_holdings (world : World) (holdings : Holdings Place)
    : Uncounted world { world with holdings } :=
  ⟨id, fun _ => rfl, fun _ => rfl⟩

/-- The receiver of a mail has more mails, or fewer, than what is compared with the limit tells:
deleted ones that are not saved, or more than 16 bits hold.
-/
def MisleadsCheck (world : World) (connected : Nat → Bool) (receiver : Nat) : Prop :=
  connected receiver
    ∧ (world.liveMails receiver ≤ 100 ∧ 100 < world.mailSize receiver % 0x10000
      ∨ 100 < world.liveMails receiver ∧ world.mailSize receiver % 0x10000 ≤ 100)

instance (world : World) (connected : Nat → Bool) (receiver : Nat)
    : Decidable (world.MisleadsCheck connected receiver) :=
  inferInstanceAs (Decidable (_ ∧ _))

/-- A character who gets a mail has fewer than the 8-bit counter's 255. -/
def HasRoom (world : World) (guid : Nat) : Prop := world.exists_ guid → world.liveMails guid < 255

/-- A mail that is deleted is not deleted already, a character who gets a mail outside of the
limit's check has room in his counter, and that check sees what is there.
-/
def CountsOn (storage : PlayerStorage) (world : World) : Call → Prop
  | .systemMail receiver _ _ _ _ _ => world.HasRoom receiver
  | .turn turn =>
      ∀ character, world.characters.get? turn.player = some character →
        match turn.request with
        | .send packet => ¬ world.MisleadsCheck turn.connected packet.receiver
        | .delete canOpenMailBox mailId =>
            ∀ mail, world.getMail turn.player mailId = some mail → canOpenMailBox → mail.cod = 0
              → mail.state ≠ .deleted
        | .returnToSender canOpenMailBox mailId scriptRefuses =>
            ∀ mail, world.checkReturn turn canOpenMailBox mailId scriptRefuses = .ok mail
              → mail.isReturned → world.HasRoom mail.sender
        | .takeItem canOpenMailBox mailId itemLowGuid =>
            ∀ mail item dest,
              world.checkTakeItem storage turn character.money canOpenMailBox mailId itemLowGuid
                  = .ok (mail, item, dest)
                → mail.cod ≠ 0 → world.HasRoom mail.sender
        | .takeMoney _ _ | .save => True

/-- The check of the limit compares the number of mails that are not deleted. -/
theorem Counted.mailsCount_iff (counted : Counted 0 world) {connected : Nat → Bool} {receiver : Nat}
    (there : world.exists_ receiver) (fair : ¬ world.MisleadsCheck connected receiver)
    : 100 < world.mailsCount connected receiver ↔ 100 < world.liveMails receiver := by
  unfold mailsCount
  split
  · next online =>
      by_contra differ
      refine fair ⟨online, ?_⟩
      omega
  · obtain ⟨character, found⟩ := Option.isSome_iff_exists.mp there
    rw [found, Option.map_some, Option.getD_some, counted.counts found]
    rfl

theorem Counted.handleSendMail (counted : Counted 0 world) {turn : Turn} {purse : Nat}
    {packet : SendMail} (fair : ¬ world.MisleadsCheck turn.connected packet.receiver)
    : Counted 0 (world.handleSendMail turn purse packet).2 := by
  unfold World.handleSendMail
  split
  · next passed =>
      have sendable := sendable_of_check passed
      have few : world.liveMails packet.receiver ≤ 100 := by
        by_contra many
        have full := (counted.mailsCount_iff sendable.receiver fair).mpr (Nat.lt_of_not_le many)
        exact absurd sendable.room (Nat.not_le.mpr full)
      have paid := counted.uncounted (uncounted_modifyMoney world turn.player
        (-toInt32 packet.reqMoney))
      refine (paid.uncounted (uncounted_holdings _ _)).sendMailTo (fun _ => ?_)
      exact Nat.lt_of_le_of_lt few (by decide)
  · exact counted

theorem Counted.handleMailDelete (counted : Counted 0 world) {turn : Turn} {opens : Bool}
    {mailId : Nat}
    (once
      : ∀ mail, world.getMail turn.player mailId = some mail → opens → mail.cod = 0
          → mail.state ≠ .deleted)
    : Counted 0 (world.handleMailDelete turn opens mailId).2 := by
  unfold World.handleMailDelete
  split
  · exact counted
  · next opened =>
      have flagged := counted.uncounted (uncounted_setMailsUpdated world turn.player)
      dsimp only
      split
      · exact flagged
      · next mail found =>
          split
          · exact flagged
          · next free =>
              have live := once mail found (by simpa using opened) (not_not.mp free)
              obtain ⟨stored, mine⟩ := Option.filter_eq_some_iff.mp found
              have mine : mail.receiver = turn.player := of_decide_eq_true mine
              have gone : Counted (Pi.single turn.player 1)
                  ((world.setMailsUpdated turn.player).changeMail mailId
                    (fun mail => { mail with state := .deleted })) := by
                refine flagged.dropped rfl (fun {other later} there => ?_) (fun guid => ?_)
                · rw [changeMail, Table.get?_modify] at there
                  split at there
                  · next same =>
                      subst same
                      exact counted.fresh stored
                  · exact counted.fresh there
                · have moved := Table.count_modify stored
                    (fun mail => { mail with state := .deleted })
                    (fun mail => decide (mail.receiver = guid ∧ mail.state ≠ .deleted))
                  simp only [mine, live, ne_eq, not_false_eq_true, and_true, not_true_eq_false,
                    and_false, decide_false, decide_eq_true_eq, Bool.false_eq_true, if_false,
                    Nat.add_zero] at moved
                  exact moved
              exact gone.takeOff

theorem Counted.handleMailReturnToSender (counted : Counted 0 world) {turn : Turn}
    {opens scriptRefuses : Bool} {mailId : Nat}
    (room
      : ∀ mail, world.checkReturn turn opens mailId scriptRefuses = .ok mail → mail.isReturned
          → world.HasRoom mail.sender)
    : Counted 0 (world.handleMailReturnToSender turn opens mailId scriptRefuses).2 := by
  unfold World.handleMailReturnToSender
  split
  · exact counted
  · next mail passed =>
      obtain ⟨stored, mine, live⟩ := of_openMail (of_checkReturn passed)
      have less (guid : Nat)
          : World.liveMails { world with mails := world.mails.remove mailId } guid
              + (if turn.player = guid then 1 else 0)
            = world.liveMails guid := by
        have moved := Table.count_remove stored
          (fun mail => decide (mail.receiver = guid ∧ mail.state ≠ .deleted))
        simp only [mine, live, ne_eq, not_false_eq_true, and_true, decide_eq_true_eq] at moved
        exact moved
      have removed : Counted (Pi.single turn.player 1)
          { world with mails := world.mails.remove mailId } := by
        refine counted.dropped rfl (fun {other later} there => ?_) less
        rw [Table.get?_remove] at there
        split at there
        · cases there
        · exact counted.fresh there
      refine Counted.takeOff ?_
      split
      · next returned =>
          unfold sendReturnToSender
          dsimp only
          split
          · refine (removed.uncounted (uncounted_holdings _ _)).sendMailTo (fun there => ?_)
            have few := room mail passed returned there
            have same := less mail.sender
            by_cases own : mail.sender = turn.player
            · rw [own, Pi.single_eq_same]
              rw [own, if_pos rfl] at same
              rw [own] at few
              exact (congrArg (· < 255) same).mpr few
            · rw [Pi.single_eq_of_ne own]
              rw [if_neg (Ne.symm own)] at same
              exact (congrArg (· < 255) same).mpr few
          · exact removed.uncounted (uncounted_holdings _ _)
      · exact removed

theorem Counted.payCod (counted : Counted 0 world) (turn : Turn) (mailId : Nat) (mail : Mail)
    (room : world.HasRoom mail.sender)
    : Counted 0 (world.payCod turn mailId mail) := by
  unfold World.payCod
  dsimp only
  refine Counted.uncounted ?_ (uncounted_changeAccount _ _ _)
  refine Counted.uncounted ?_ (uncounted_modifyMoney _ _ _)
  split
  · exact (counted.sendMailTo room).uncounted (uncounted_changeAccount _ _ _)
  · exact counted

theorem Counted.handleMailTakeItem (counted : Counted 0 world) {storage : PlayerStorage}
    {turn : Turn} {purse : Nat} {opens : Bool} {mailId guid : Nat}
    (room
      : ∀ mail item dest, world.checkTakeItem storage turn purse opens mailId guid = .ok (mail, item, dest)
          → mail.cod ≠ 0 → world.HasRoom mail.sender)
    : Counted 0 (world.handleMailTakeItem storage turn purse opens mailId guid).2 := by
  unfold World.handleMailTakeItem
  split
  · exact counted
  · next mail item dest passed =>
      obtain ⟨stored, _, live⟩ := of_openMail (takeable_of_check passed).opened
      dsimp only
      refine Counted.uncounted ?_ (uncounted_saveMail _ turn.player)
      refine Counted.uncounted ?_ (uncounted_setMailsUpdated _ turn.player)
      refine Counted.uncounted ?_ (uncounted_holdings _ _)
      refine Counted.uncounted ?_ (uncounted_changeAccount _ _ _)
      split
      · next charged =>
          have paid := counted.payCod turn mailId mail (room mail item dest passed charged)
          have kept := (get?_payCod (counted.fresh stored) turn mailId mail).trans stored
          exact paid.uncounted (uncounted_changeMail kept live rfl (by simp))
      · exact counted.uncounted (uncounted_changeMail stored live rfl (by simp))

theorem Counted.handleMailTakeMoney (counted : Counted 0 world) (turn : Turn) (purse : Nat)
    (opens : Bool) (mailId : Nat)
    : Counted 0 (world.handleMailTakeMoney turn purse opens mailId).2 := by
  unfold World.handleMailTakeMoney
  split
  · exact counted
  · next mail passed =>
      obtain ⟨stored, _, live⟩ := of_openMail (of_checkTakeMoney passed).1
      dsimp only
      refine Counted.uncounted ?_ (uncounted_saveMail _ turn.player)
      refine Counted.uncounted ?_ (uncounted_setMailsUpdated _ turn.player)
      have paid := counted.uncounted (uncounted_modifyMoney world turn.player (toInt32 mail.money))
      have kept : (world.modifyMoney turn.player (toInt32 mail.money)).mails.get? mailId = some mail :=
        stored
      exact paid.uncounted (uncounted_changeMail kept live rfl (by simp))

-- Whole runs

/-- Every step that counts what it does keeps the counts exact, the requests in turn. -/
theorem Counted.call (counted : Counted 0 world) {storage : PlayerStorage} {call : Call}
    (counts : world.CountsOn storage call)
    : Counted 0 (world.call storage call) := by
  cases call with
  | systemMail receiver messageType sender items money deliverTime =>
      exact counted.sendMailTo counts
  | turn turn =>
      unfold World.call World.step World.handle
      dsimp only
      cases found : world.characters.get? turn.player with
      | none => exact counted
      | some character =>
          have counts := counts character found
          dsimp only at counts ⊢
          cases request : turn.request with
          | send packet =>
              rw [request] at counts
              exact counted.handleSendMail counts
          | delete opens mailId =>
              rw [request] at counts
              exact counted.handleMailDelete counts
          | returnToSender opens mailId scriptRefuses =>
              rw [request] at counts
              exact counted.handleMailReturnToSender counts
          | takeItem opens mailId guid =>
              rw [request] at counts
              exact counted.handleMailTakeItem counts
          | takeMoney opens mailId => exact counted.handleMailTakeMoney turn _ opens mailId
          | save => exact counted.uncounted (uncounted_saveMail world turn.player)

/-- The mail count of every character is the number of his mails that are not deleted. -/
def CountsAreExact (world : World) : Prop :=
  ∀ guid character, world.characters.get? guid = some character
    → character.mailCount = world.liveMails guid

/-- Where a player sends a mail to a character who exists, the limit is compared with the number of
the mails that are not deleted.
-/
def LimitIsExact (world : World) (call : Call) : Prop :=
  ∀ turn packet, call = .turn turn → turn.request = .send packet → world.exists_ turn.player
    → world.exists_ packet.receiver
    → (100 < world.mailsCount turn.connected packet.receiver ↔ 100 < world.liveMails packet.receiver)

theorem Counted.limitIsExact (counted : Counted 0 world) {storage : PlayerStorage} {call : Call}
    (counts : world.CountsOn storage call)
    : world.LimitIsExact call := by
  rintro turn packet rfl request player there
  obtain ⟨character, found⟩ := Option.isSome_iff_exists.mp player
  have fair := counts character found
  rw [request] at fair
  exact counted.mailsCount_iff there fair

/-- In every run that deletes no mail twice, in which no character gets a mail beyond his counter,
and in which the limit's check sees the mails that are there, the mail counts are exact and so is
the check.
-/
theorem mail_counts_are_exact {storage : PlayerStorage} {world : World} (start : Counted 0 world)
    {calls : List Call} (counts : Runs.EachStep (World.call storage) (CountsOn storage) world calls)
    : Runs.EachState (World.call storage) CountsAreExact world calls
      ∧ Runs.EachStep (World.call storage) LimitIsExact world calls := by
  have kept (world : World) (call : Call) (counted : Counted 0 world)
      (counts : world.CountsOn storage call) : Counted 0 (world.call storage call) :=
    counted.call counts
  refine ⟨?_, Runs.eachStep_of_invariant kept (fun _ _ counted counts =>
    counted.limitIsExact counts) start counts⟩
  refine (Runs.eachState_of_invariant kept start counts).imp (fun world counted => ?_)
  exact fun guid character found => counted.counts found

def twoMails : World where
  characters := ((∅ : Table Nat Character).put 1 { money := 500, mailCount := 2 }).put 2 { money := 500 }
  mails := ((∅ : Table Nat Mail).put 1 ⟨.normal, 2, 1, [], 0, 0, 0, .unchanged⟩).put 2
    ⟨.normal, 2, 1, [], 0, 0, 0, .unchanged⟩
  holdings := { items := ∅, nextGuid := 1 }
  nextMailId := 3

theorem twoMails_counted : Counted 0 twoMails := counted_of_entries (by decide +kernel)

def noBags : PlayerStorage where
  stackable _ := 20
  binds _ _ _ := false
  canStoreItem _ _ _ := .error 0

/-- Witness: a mail from the game, a mail that is deleted, and one that the second character sends. -/
theorem mail_counts_are_exact_applied
    : let calls : List Call := [.systemMail 1 .creature 7 [] 30 0,
        .turn { player := 1, request := .delete true 1 },
        .turn { player := 2, request := .send { receiver := 1, money := 20 } }]
      Runs.EachState (World.call noBags) CountsAreExact twoMails calls
        ∧ Runs.EachStep (World.call noBags) LimitIsExact twoMails calls := by
  intro calls
  have fair : ¬ (Runs.run (World.call noBags) twoMails (calls.take 2)).MisleadsCheck
      (fun _ => true) 1 := by decide +kernel
  refine mail_counts_are_exact twoMails_counted ⟨fun _ => ?_, fun _ _ mail found _ _ => ?_,
    fun _ _ => fair, trivial⟩
  · decide +kernel
  · have known : (twoMails.call noBags (.systemMail 1 .creature 7 [] 30 0)).getMail 1 1
        = some ⟨.normal, 2, 1, [], 0, 0, 0, .unchanged⟩ := by decide +kernel
    obtain rfl := Option.some.inj (known.symm.trans found)
    decide

/-- The claim fails where a mail is deleted twice: the count drops twice, and one mail is left. -/
theorem second_deletion_is_counted
    : let calls : List Call := [.turn { player := 1, request := .delete true 1 },
        .turn { player := 1, request := .delete true 1 }]
      let final := Runs.run (World.call noBags) twoMails calls
      final.liveMails 1 = 1 ∧ (final.characters.get? 1).map Character.mailCount = some 0
        ∧ ¬ Runs.EachState (World.call noBags) CountsAreExact twoMails calls := by
  refine ⟨by decide +kernel, by decide +kernel, fun each => ?_⟩
  have counted := each.last 1 { money := 500, mailsUpdated := true, mailCount := 0 } (by decide +kernel)
  exact absurd counted (by decide +kernel)

end World

end WarheadCore.Mails
