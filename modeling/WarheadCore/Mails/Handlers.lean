import WarheadCore.Mails.State

/-! The requests of a player at a mailbox, each with its checks in the order of the source, and what
the checks establish.
What the checks of other modules come to is part of a request.
-/

namespace WarheadCore.Mails

open Foundation WarheadCore.Items WarheadCore.Player

def MAX_MAIL_ITEMS : Nat := 12

def EQUIP_ERR_TOO_MUCH_GOLD : Nat := 77

def EQUIP_ERR_ITEM_NOT_FOUND : Nat := 23

/-- MailResponseResult, other than MAIL_OK. -/
inductive MailError where
  | equipError (code : Nat)
  | cannotSendToSelf
  | notEnoughMoney
  | recipientNotFound
  | notYourTeam
  | internalError
  | recipientCapReached
  | cantSendWrappedCod
  | tooManyAttachments
  | mailAttachmentInvalid
deriving DecidableEq

/-- What SendMailResult tells the client, if anything. -/
inductive Answer where
  | silence
  | ok
  | error (error : MailError)
deriving DecidableEq

/-- CMSG_SEND_MAIL, with what the checks of the receiver and of the items come to. -/
structure SendMail where
  crashesClient : Bool := false
  items : List Nat := []
  money : Nat := 0
  cod : Nat := 0
  canOpenMailBox : Bool := true
  levelTooLow : Bool := false
  receiver : Nat
  wrongTeam : Bool := false
  refuses : Nat → Option MailError := fun _ => none
  scriptRefuses : Bool := false
  deliverDelay : Nat := 0

/-- A request of a player, and the save that a player's session makes from time to time. -/
inductive Request where
  | send (packet : SendMail)
  | delete (canOpenMailBox : Bool) (mailId : Nat)
  | returnToSender (canOpenMailBox : Bool) (mailId : Nat) (scriptRefuses : Bool)
  | takeItem (canOpenMailBox : Bool) (mailId itemLowGuid : Nat)
  | takeMoney (canOpenMailBox : Bool) (mailId : Nat)
  | save

structure Turn where
  player : Nat
  now : Nat := 0
  connected : Nat → Bool := fun _ => true
  request : Request

/-- The postage: thirty copper for each item, and for a letter without any. -/
def SendMail.cost (packet : SendMail) : Nat :=
  if packet.items.length ≠ 0 then 30 * packet.items.length else 30

def SendMail.reqMoney (packet : SendMail) : Nat := toUInt32 ((packet.cost : Int) + packet.money)

/-- Only the mails of players are returned; others are deleted. -/
def Mail.isReturned (mail : Mail) : Bool := mail.messageType = .normal ∧ mail.sender ≠ 0

namespace World

def refusedItem (world : World) (player : Nat) (packet : SendMail) : Option MailError :=
  packet.items.findSome? (fun guid =>
    if guid = 0 then some .mailAttachmentInvalid
    else match world.getItemByGuid player guid with
      | none => some .mailAttachmentInvalid
      | some _ => packet.refuses guid)

def attach (world : World) (player : Nat) (packet : SendMail) : World :=
  let moves := (draftItems packet.items).filterMap (fun guid =>
    (world.getItemByGuid player guid).map (fun found =>
      (found.1, Place.mail packet.receiver guid)))
  { world with holdings := relocateAll world.holdings moves }

def checkSendMail (world : World) (turn : Turn) (purse : Nat) (packet : SendMail) : Answer :=
  if packet.crashesClient then .silence
  else if packet.items.length > MAX_MAIL_ITEMS then .error .tooManyAttachments
  else if ¬ packet.canOpenMailBox then .silence
  else if packet.levelTooLow then .silence
  else if ¬ world.exists_ packet.receiver then .error .recipientNotFound
  else if turn.player = packet.receiver then .error .cannotSendToSelf
  else if packet.money ≠ 0 ∧ packet.cod ≠ 0 then .error .internalError
  else if packet.reqMoney < packet.money then .error .notEnoughMoney
  else if ¬ hasEnoughMoney purse packet.reqMoney then .error .notEnoughMoney
  else if world.mailsCount turn.connected packet.receiver > 100 then .error .recipientCapReached
  else if packet.wrongTeam then .error .notYourTeam
  else
    match world.refusedItem turn.player packet with
    | some error => .error error
    | none =>
        if packet.items.length = 0 ∧ packet.scriptRefuses then .error .internalError else .ok

def handleSendMail (world : World) (turn : Turn) (purse : Nat) (packet : SendMail)
    : Answer × World :=
  match world.checkSendMail turn purse packet with
  | .ok =>
      let paid := world.modifyMoney turn.player (-toInt32 packet.reqMoney)
      let attached := paid.attach turn.player packet
      -- no charge is asked for a mail without items
      let cod := if packet.items.length = 0 then 0 else packet.cod
      (.ok, attached.sendMailTo packet.receiver .normal turn.player (draftItems packet.items)
        packet.money cod (turn.now + packet.deliverDelay))
  | refused => (refused, world)

def handleMailDelete (world : World) (turn : Turn) (canOpenMailBox : Bool) (mailId : Nat)
    : Answer × World :=
  if ¬ canOpenMailBox then (.silence, world)
  else
    let flagged := world.setMailsUpdated turn.player
    match world.getMail turn.player mailId with
    | none => (.ok, flagged)
    | some mail =>
        if mail.cod ≠ 0 then (.error .internalError, flagged)
        else
          (.ok, (flagged.changeMail mailId (fun mail => { mail with state := .deleted })).updateMailCount
            turn.player (-1))

def openMail (world : World) (turn : Turn) (mailId : Nat) : Option Mail :=
  (world.getMail turn.player mailId).filter (fun mail =>
    mail.state ≠ .deleted ∧ mail.deliverTime ≤ turn.now)

/-- SendReturnToSender, which destroys the items where the sender does not exist. -/
def sendReturnToSender (world : World) (turn : Turn) (mail : Mail) : World :=
  let items := draftItems (mail.items.filter (fun guid => (world.getMItem turn.player guid).isSome))
  if world.exists_ mail.sender then
    { world with
      holdings := relocateAll world.holdings (items.map (fun guid =>
        (.mail turn.player guid, .mail mail.sender guid)))
    }.sendMailTo mail.sender .normal mail.receiver items mail.money 0 turn.now
  else
    { world with
      holdings := bury world.holdings (fun place =>
        mail.items.any (fun guid => place = .mail turn.player guid)) }

def checkReturn (world : World) (turn : Turn) (canOpenMailBox : Bool) (mailId : Nat)
    (scriptRefuses : Bool) : Except Answer Mail :=
  if ¬ canOpenMailBox then .error .silence
  else
    match world.openMail turn mailId with
    | none => .error (.error .internalError)
    | some mail => if scriptRefuses then .error (.error .internalError) else .ok mail

def handleMailReturnToSender (world : World) (turn : Turn) (canOpenMailBox : Bool) (mailId : Nat)
    (scriptRefuses : Bool) : Answer × World :=
  match world.checkReturn turn canOpenMailBox mailId scriptRefuses with
  | .error refused => (refused, world)
  | .ok mail =>
      let removed := { world with mails := world.mails.remove mailId }
      let returned :=
        if mail.isReturned then removed.sendReturnToSender turn mail else removed
      (.ok, returned.updateMailCount turn.player (-1))

def payCod (world : World) (turn : Turn) (mailId : Nat) (mail : Mail) : World :=
  let sent :=
    if world.exists_ mail.sender then
      (world.sendMailTo mail.sender .normal mail.receiver [] mail.cod 0 turn.now).changeAccount mailId
        (fun account => { account with paid := account.paid ++ [mail.cod] })
    else world
  (sent.modifyMoney turn.player (-toInt32 mail.cod)).changeAccount mailId
    (fun account => { account with charged := account.charged ++ [mail.cod] })

/-- A payment leaves the mails that are there. -/
theorem get?_payCod {world : World} {other : Nat} (older : other < world.nextMailId) (turn : Turn)
    (mailId : Nat) (mail : Mail)
    : (world.payCod turn mailId mail).mails.get? other = world.mails.get? other := by
  unfold payCod
  dsimp only [changeAccount, modifyMoney, changeCharacter]
  split
  · exact (get?_sendMailTo ..).trans (if_neg (Nat.ne_of_lt older))
  · rfl

def checkTakeItem (world : World) (storage : PlayerStorage) (turn : Turn) (purse : Nat)
    (canOpenMailBox : Bool) (mailId itemLowGuid : Nat)
    : Except Answer (Mail × Item × List (Place × Nat)) :=
  if ¬ canOpenMailBox then .error .silence
  else
    match world.openMail turn mailId with
    | none => .error (.error .internalError)
    | some mail =>
        if itemLowGuid ∉ mail.items then .error (.error .internalError)
        else if ¬ hasEnoughMoney purse mail.cod then .error (.error .notEnoughMoney)
        else
          match world.getMItem turn.player itemLowGuid with
          | none => .error (.error (.equipError EQUIP_ERR_ITEM_NOT_FOUND))
          | some item =>
              match storage.canStoreItem world.holdings turn.player item with
              | .error code => .error (.error (.equipError code))
              | .ok dest => .ok (mail, item, dest)

def handleMailTakeItem (world : World) (storage : PlayerStorage) (turn : Turn) (purse : Nat)
    (canOpenMailBox : Bool) (mailId itemLowGuid : Nat) : Answer × World :=
  match world.checkTakeItem storage turn purse canOpenMailBox mailId itemLowGuid with
  | .error refused => (refused, world)
  | .ok (mail, item, dest) =>
      let paid := if mail.cod ≠ 0 then world.payCod turn mailId mail else world
      let emptied := paid.changeMail mailId (fun mail =>
        { mail with items := mail.items.erase itemLowGuid, cod := 0, state := .changed })
      let taken := emptied.changeAccount mailId (fun account =>
        { account with taken := account.taken ++ [itemLowGuid] })
      let stored := { taken with
        holdings := storeItem storage.rules item dest
          (taken.holdings.remove (.mail turn.player itemLowGuid)) }
      (.ok, (stored.setMailsUpdated turn.player).saveMail turn.player)

def checkTakeMoney (world : World) (turn : Turn) (purse : Nat) (canOpenMailBox : Bool)
    (mailId : Nat) : Except Answer Mail :=
  if ¬ canOpenMailBox then .error .silence
  else
    match world.openMail turn mailId with
    | none => .error (.error .internalError)
    | some mail =>
        if (Player.modifyMoney purse (toInt32 mail.money)).1 then .ok mail
        else .error (.error (.equipError EQUIP_ERR_TOO_MUCH_GOLD))

def handleMailTakeMoney (world : World) (turn : Turn) (purse : Nat) (canOpenMailBox : Bool)
    (mailId : Nat) : Answer × World :=
  match world.checkTakeMoney turn purse canOpenMailBox mailId with
  | .error refused => (refused, world)
  | .ok mail =>
      let paid := world.modifyMoney turn.player (toInt32 mail.money)
      let taken := paid.changeMail mailId (fun mail => { mail with money := 0, state := .changed })
      (.ok, (taken.setMailsUpdated turn.player).saveMail turn.player)

def handle (world : World) (storage : PlayerStorage) (turn : Turn) : Answer × World :=
  match world.characters.get? turn.player with
  | none => (.silence, world)
  | some character =>
      match turn.request with
      | .send packet => world.handleSendMail turn character.money packet
      | .delete canOpenMailBox mailId => world.handleMailDelete turn canOpenMailBox mailId
      | .returnToSender canOpenMailBox mailId scriptRefuses =>
          world.handleMailReturnToSender turn canOpenMailBox mailId scriptRefuses
      | .takeItem canOpenMailBox mailId itemLowGuid =>
          world.handleMailTakeItem storage turn character.money canOpenMailBox mailId itemLowGuid
      | .takeMoney canOpenMailBox mailId =>
          world.handleMailTakeMoney turn character.money canOpenMailBox mailId
      | .save => (.silence, world.saveMail turn.player)

def step (storage : PlayerStorage) (world : World) (turn : Turn) : World :=
  (world.handle storage turn).2

end World

-- What the checks establish

namespace World

variable {world : World} {storage : PlayerStorage} {turn : Turn} {purse : Nat}

/-- A check that is passed leaves the rest. -/
theorem ok_of_ite {c : Prop} [Decidable c] {refused rest : Answer}
    (passed : (if c then refused else rest) = .ok) (bad : refused ≠ .ok)
    : ¬ c ∧ rest = .ok := by
  split at passed
  · exact absurd passed bad
  · next h => exact ⟨h, passed⟩

theorem some_of_ite {α : Type} {c : Prop} [Decidable c] {refused : Answer} {rest : Except Answer α}
    {found : α} (passed : (if c then .error refused else rest) = Except.ok found)
    : ¬ c ∧ rest = .ok found := by
  split at passed
  · cases passed
  · next h => exact ⟨h, passed⟩

/-- A mail that may be sent: the receiver exists and has room, the sender has the money and every
attachment.
-/
structure Sendable (world : World) (turn : Turn) (purse : Nat) (packet : SendMail) : Prop where
  few : packet.items.length ≤ MAX_MAIL_ITEMS
  receiver : world.exists_ packet.receiver
  other : turn.player ≠ packet.receiver
  once : ¬ (packet.money ≠ 0 ∧ packet.cod ≠ 0)
  noOverflow : packet.money ≤ packet.reqMoney
  enough : packet.reqMoney ≤ purse
  room : world.mailsCount turn.connected packet.receiver ≤ 100
  attached : world.refusedItem turn.player packet = none

theorem sendable_of_check {packet : SendMail}
    (passed : world.checkSendMail turn purse packet = .ok)
    : Sendable world turn purse packet := by
  unfold checkSendMail at passed
  obtain ⟨_, passed⟩ := ok_of_ite passed (by simp)
  obtain ⟨few, passed⟩ := ok_of_ite passed (by simp)
  obtain ⟨_, passed⟩ := ok_of_ite passed (by simp)
  obtain ⟨_, passed⟩ := ok_of_ite passed (by simp)
  obtain ⟨receiver, passed⟩ := ok_of_ite passed (by simp)
  obtain ⟨other, passed⟩ := ok_of_ite passed (by simp)
  obtain ⟨once, passed⟩ := ok_of_ite passed (by simp)
  obtain ⟨noOverflow, passed⟩ := ok_of_ite passed (by simp)
  obtain ⟨enough, passed⟩ := ok_of_ite passed (by simp)
  obtain ⟨room, passed⟩ := ok_of_ite passed (by simp)
  obtain ⟨_, passed⟩ := ok_of_ite passed (by simp)
  split at passed
  · cases passed
  · next attached =>
      exact ⟨Nat.le_of_not_lt few, not_not.mp receiver, other, once, Nat.le_of_not_lt noOverflow,
        by simpa [hasEnoughMoney] using enough, Nat.le_of_not_lt room, attached⟩

/-- An open mail is one of the player's, not deleted. -/
theorem of_openMail {mailId : Nat} {mail : Mail} (found : world.openMail turn mailId = some mail)
    : world.mails.get? mailId = some mail ∧ mail.receiver = turn.player ∧ mail.state ≠ .deleted := by
  obtain ⟨owned, fresh⟩ := Option.filter_eq_some_iff.mp found
  obtain ⟨stored, mine⟩ := Option.filter_eq_some_iff.mp owned
  simp only [ne_eq, decide_eq_true_eq] at mine fresh
  exact ⟨stored, mine, fresh.1⟩

theorem of_checkReturn {opens scriptRefuses : Bool} {mailId : Nat} {mail : Mail}
    (passed : world.checkReturn turn opens mailId scriptRefuses = .ok mail)
    : world.openMail turn mailId = some mail := by
  unfold checkReturn at passed
  obtain ⟨_, passed⟩ := some_of_ite passed
  split at passed
  · cases passed
  · next found =>
      obtain ⟨_, passed⟩ := some_of_ite passed
      obtain rfl := Except.ok.inj passed
      exact found

/-- A mail whose item may be taken: the item is listed and there, the charge can be paid, and there
are places for it.
-/
structure Takeable (world : World) (storage : PlayerStorage) (turn : Turn) (purse mailId guid : Nat)
    (mail : Mail) (item : Item) (dest : List (Place × Nat)) : Prop where
  opened : world.openMail turn mailId = some mail
  listed : guid ∈ mail.items
  enough : mail.cod ≤ purse
  there : world.holdings.items.get? (.mail turn.player guid) = some item
  planned : storage.canStoreItem world.holdings turn.player item = .ok dest

theorem takeable_of_check {opens : Bool} {mailId guid : Nat} {mail : Mail} {item : Item}
    {dest : List (Place × Nat)}
    (passed : world.checkTakeItem storage turn purse opens mailId guid = .ok (mail, item, dest))
    : Takeable world storage turn purse mailId guid mail item dest := by
  unfold checkTakeItem at passed
  obtain ⟨_, passed⟩ := some_of_ite passed
  split at passed
  · cases passed
  · next opened =>
      obtain ⟨listed, passed⟩ := some_of_ite passed
      obtain ⟨enough, passed⟩ := some_of_ite passed
      split at passed
      · cases passed
      · next there =>
          split at passed
          · cases passed
          · next planned =>
              cases passed
              exact ⟨opened, not_not.mp listed, by simpa [hasEnoughMoney] using enough, there, planned⟩

theorem of_checkTakeMoney {opens : Bool} {mailId : Nat} {mail : Mail}
    (passed : world.checkTakeMoney turn purse opens mailId = .ok mail)
    : world.openMail turn mailId = some mail
      ∧ (Player.modifyMoney purse (toInt32 mail.money)).1 = true := by
  unfold checkTakeMoney at passed
  obtain ⟨_, passed⟩ := some_of_ite passed
  split at passed
  · cases passed
  · next found =>
      split at passed
      · next room =>
          obtain rfl := Except.ok.inj passed
          exact ⟨found, room⟩
      · cases passed

end World

end WarheadCore.Mails
