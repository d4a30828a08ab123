import Mathlib.Data.List.Sort
import WarheadCore.Items.Moves
import WarheadCore.Player.Money

/-! Mails, the items in them and the characters who own both.
The mails of all characters are one table by their ids: a character's m_mail while he is connected,
and his rows of the mail table otherwise. A deleted mail stays until its owner is saved.
-/

namespace WarheadCore.Mails

open Foundation WarheadCore.Items WarheadCore.Player

inductive MailMessageType where
  | normal
  | auction
  | creature
  | gameObject
  | calendar
deriving DecidableEq

inductive MailState where
  | unchanged
  | changed
  | deleted
deriving DecidableEq

/-- A mail; its messageID is the key under which it is kept, and `items` the guids of its items. -/
structure Mail where
  messageType : MailMessageType
  sender : Nat
  receiver : Nat
  items : List Nat
  money : Nat
  cod : Nat
  deliverTime : Nat
  state : MailState := .unchanged
deriving DecidableEq

def Mail.isDeletedOf (mail : Mail) (player : Nat) : Bool :=
  mail.receiver = player ∧ mail.state = .deleted

def Mail.saved (player : Nat) (mail : Mail) : Mail :=
  if mail.receiver = player ∧ mail.state = .changed then { mail with state := .unchanged } else mail

/-- Where an item is: in a slot of a player, or under its guid among the mailed items of one. -/
inductive Place where
  | inventory (player slot : Nat)
  | mail (player guid : Nat)
deriving DecidableEq

/-- A purse, the flag that the mails are to be saved, and the mail count of the character cache. -/
structure Character where
  money : Nat
  mailsUpdated : Bool := false
  mailCount : Nat := 0
deriving DecidableEq

/-- The history of a mail: its sender and charge when it was sent, what was charged and paid for it
since, and the items that were taken from it.
-/
structure Account where
  sender : Nat := 0
  cod : Nat := 0
  charged : List Nat := []
  paid : List Nat := []
  taken : List Nat := []

structure PlayerStorage where
  stackable : Nat → Int
  binds : Nat → Nat → Nat → Bool
  canStoreItem : Holdings Place → Nat → Item → Except Nat (List (Place × Nat))

def PlayerStorage.rules (storage : PlayerStorage) : ItemRules Place where
  stackable := storage.stackable
  binds entry
    | .inventory player slot => storage.binds entry player slot
    | .mail _ _ => false

structure World where
  characters : Table Nat Character
  mails : Table Nat Mail
  holdings : Holdings Place
  nextMailId : Nat
  accounts : Nat → Account := fun _ => {}

namespace World

-- Characters and their mails

def exists_ (world : World) (guid : Nat) : Bool := (world.characters.get? guid).isSome

def getMail (world : World) (player mailId : Nat) : Option Mail :=
  (world.mails.get? mailId).filter (fun mail => mail.receiver = player)

def changeCharacter (world : World) (guid : Nat) (f : Character → Character) : World :=
  { world with characters := world.characters.modify guid f }

def changeMail (world : World) (mailId : Nat) (f : Mail → Mail) : World :=
  { world with mails := world.mails.modify mailId f }

def changeAccount (world : World) (mailId : Nat) (f : Account → Account) : World :=
  { world with accounts := Function.update world.accounts mailId (f (world.accounts mailId)) }

def modifyMoney (world : World) (guid : Nat) (amount : Int) : World :=
  world.changeCharacter guid (fun character =>
    { character with money := (Player.modifyMoney character.money amount).2 })

def setMailsUpdated (world : World) (guid : Nat) : World :=
  world.changeCharacter guid (fun character => { character with mailsUpdated := true })

/-- UpdateCharacterMailCount, an 8-bit counter that is not decreased at zero. -/
def updateMailCount (world : World) (guid : Nat) (count : Int) : World :=
  world.changeCharacter guid (fun character =>
    if character.mailCount = 0 ∧ count < 0 then character
    else { character with mailCount := toUInt8 (character.mailCount + count) })

def mailSize (world : World) (guid : Nat) : Nat :=
  world.mails.count (fun mail => mail.receiver = guid)

def liveMails (world : World) (guid : Nat) : Nat :=
  world.mails.count (fun mail => mail.receiver = guid ∧ mail.state ≠ .deleted)

/-- What HandleSendMail takes for the number of the receiver's mails, in 16 bits. -/
def mailsCount (world : World) (connected : Nat → Bool) (receiver : Nat) : Nat :=
  if connected receiver then world.mailSize receiver % 0x10000
  else ((world.characters.get? receiver).map Character.mailCount).getD 0

-- Items

def getItemByGuid (world : World) (player guid : Nat) : Option ((_ : Place) × Item) :=
  world.holdings.items.search (fun place item =>
    (match place with
      | .inventory owner _ => owner = player
      | .mail _ _ => false)
    && item.guid = guid)

def getMItem (world : World) (player guid : Nat) : Option Item :=
  world.holdings.items.get? (.mail player guid)

end World

def draftItems (guids : List Nat) : List Nat := guids.dedup.insertionSort (· ≤ ·)

def relocate (holdings : Holdings Place) (move : Place × Place) : Holdings Place :=
  match holdings.items.get? move.1 with
  | some item => (holdings.remove move.1).put move.2 item
  | none => holdings

def relocateAll (holdings : Holdings Place) (moves : List (Place × Place)) : Holdings Place :=
  moves.foldl relocate holdings

def bury (holdings : Holdings Place) (buried : Place → Bool) : Holdings Place :=
  { holdings with items := holdings.items.filter (fun place _ => !buried place) }

namespace World

-- Sending and saving

def addMail (world : World) (mail : Mail) : World :=
  { world with
    mails := world.mails.put world.nextMailId mail
    nextMailId := world.nextMailId + 1
    accounts := Function.update world.accounts world.nextMailId
      { sender := mail.sender, cod := mail.cod } }

/-- MailDraft::SendMailTo, the items of the draft being with the receiver already. -/
def sendMailTo (world : World) (receiver : Nat) (messageType : MailMessageType) (sender : Nat)
    (items : List Nat) (money cod deliverTime : Nat) : World :=
  (world.addMail { messageType, sender, receiver, items, money, cod, deliverTime }).updateMailCount
    receiver 1

/-- What is under an id after a mail was sent. -/
theorem get?_sendMailTo (world : World) (receiver : Nat) (messageType : MailMessageType)
    (sender : Nat) (items : List Nat) (money cod deliverTime mailId : Nat)
    : (world.sendMailTo receiver messageType sender items money cod deliverTime).mails.get? mailId
      = if mailId = world.nextMailId then
          some { messageType, sender, receiver, items, money, cod, deliverTime }
        else world.mails.get? mailId :=
  Table.get?_put _ _ _ _

def inDeletedMail (world : World) (player : Nat) : Place → Bool
  | .inventory _ _ => false
  | .mail owner guid =>
      owner = player ∧ world.mails.values.any (fun mail =>
        mail.isDeletedOf player ∧ guid ∈ mail.items)

def purge (world : World) (player : Nat) : World :=
  { world with
    mails := (world.mails.filter (fun _ mail => !mail.isDeletedOf player)).mapValues
      (Mail.saved player)
    holdings := bury world.holdings (world.inDeletedMail player) }

def saveMail (world : World) (player : Nat) : World :=
  if world.mailSize player = 0 ∨ ¬ (world.characters.get? player).any Character.mailsUpdated then
    world
  else
    (world.purge player).changeCharacter player (fun character =>
      { character with mailsUpdated := false })

end World

end WarheadCore.Mails
