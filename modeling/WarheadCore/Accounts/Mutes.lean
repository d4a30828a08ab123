import Mathlib.Data.List.MinMax
import WarheadCore.Foundation.Runs

/-! Mutes of accounts: the mute dates of the sessions in memory, and the rows of account_muted. An
account can speak if and only if no mute of it is running, as long as no mute cuts another one short.
-/

namespace WarheadCore.Accounts

open Foundation Foundation.Runs

structure MuteRow where
  mutedate : Nat
  mutetime : Nat
  mutedby : String
  mutereason : String
  active : Bool := true

def MuteRow.muteEnd (row : MuteRow) : Nat := row.mutedate + row.mutetime

/-- A mute that was issued: since when it has been in effect, if it is, how long it lasts, and
whether it was lifted.
-/
structure Mute where
  effective : Option Nat
  duration : Nat
  lifted : Bool := false

/-- What concerns one account: whether it is online, its entry in the list of sessions and its rows
in the order of their ids. The mutes that were issued are recorded besides.
-/
structure Account where
  online : Bool := false
  session : Option Nat := none
  rows : List MuteRow := []
  mutes : List Mute := []

namespace Account

variable (account : Account) (now : Nat)

-- The list of sessions

def setMuteTime (muteDate : Nat) : Account :=
  { account with session := some muteDate }

def addMuteTime (muteTime : Nat) : Account :=
  account.setMuteTime (now + muteTime)

def getMuteDate : Nat := account.session.getD 0

def canSpeak : Bool := account.getMuteDate ≤ now

-- Statements on the rows

/-- LOGIN_INS_ACCOUNT_MUTE: a duration that is out of the range of its column is refused. -/
def insertRow (row : MuteRow) : Account :=
  { account with rows := if row.mutetime < 2 ^ 31 then account.rows ++ [row] else account.rows }

def deactivateRows : Account :=
  { account with rows := account.rows.map (fun row => { row with active := false }) }

def deactivateExpired : Account :=
  { account with
    rows := account.rows.map (fun row =>
      if row.mutetime > 0 ∧ row.mutedate > 0 ∧ now ≥ row.muteEnd then { row with active := false }
      else row) }

def activeRows : List MuteRow := account.rows.filter MuteRow.active

/-- The rows that LOGIN_SEL_ACCOUNT_MUTE may give: the active ones with the latest end. -/
def latestRows : List MuteRow :=
  account.activeRows.filter (fun row =>
    account.activeRows.all (fun other => other.muteEnd ≤ row.muteEnd))

def updateMuteAccount (muteDate : Nat) : Account :=
  { account with
    rows := account.rows.map (fun row =>
      if row.active then { row with mutedate := muteDate } else row) }

-- Mutes

def mutePlayer (addAfterLogin : Bool) (muteTime : Nat) (muteBy muteReason : String) : Account :=
  let muteDate := if addAfterLogin && !account.online then 0 else now
  let muted := if account.online then account.addMuteTime now muteTime else account
  let issued : Mute := {
    effective := if addAfterLogin && !account.online then none else some now
    duration := muteTime }
  { muted.insertRow ⟨muteDate, muteTime, muteBy, muteReason, true⟩ with
    mutes := account.mutes ++ [issued] }

def deleteMuteTime (delFromDB : Bool) : Account :=
  { if delFromDB then account.deactivateRows else account with session := none }

def unMutePlayer : Account :=
  { account.deleteMuteTime true with
    mutes := account.mutes.map (fun mute => { mute with lifted := true }) }

def checkMuteExpired : Account :=
  let muteTime := account.getMuteDate
  if muteTime = 0 ∨ muteTime > now then account else account.deleteMuteTime true

/-- LoginAccount with its callback: the row is one of those that the query may give. Mutes that were
to be in effect from the next login are so now.
-/
def loginAccount (choice : Nat) : Account :=
  let expired := account.deactivateExpired now
  let entered := { expired with
    online := true
    mutes := account.mutes.map (fun mute =>
      { mute with effective := some (mute.effective.getD now) }) }
  match expired.latestRows[choice % expired.latestRows.length]? with
  | none => entered
  | some row =>
      let mutedate := if row.mutedate = 0 then now else row.mutedate
      (entered.updateMuteAccount mutedate).setMuteTime (mutedate + row.mutetime)

def replaced : Account := account.deleteMuteTime false

def logout : Account :=
  { account.deleteMuteTime false with online := false }

end Account

-- Steps

structure MuteMgr where
  now : Nat := 1
  account : Nat → Account := fun _ => {}

inductive Step where
  | passes (seconds : Nat)
  | mute (account : Nat) (addAfterLogin : Bool) (muteTime : Nat) (muteBy muteReason : String)
  | unmute (account : Nat)
  | login (account choice : Nat)
  | replaced (account : Nat)
  | logout (account : Nat)
  | checkExpired (account : Nat)

namespace MuteMgr

variable (mgr : MuteMgr)

def change (account : Nat) (change : Account → Account) : MuteMgr :=
  { mgr with account := Function.update mgr.account account (change (mgr.account account)) }

/-- An account may log in while it is online: the older session ends at some later time. -/
def step : Step → MuteMgr
  | .passes seconds => { mgr with now := mgr.now + seconds }
  | .mute account addAfterLogin muteTime muteBy muteReason =>
      mgr.change account (fun account =>
        account.mutePlayer mgr.now addAfterLogin muteTime muteBy muteReason)
  | .unmute account => mgr.change account Account.unMutePlayer
  | .login account choice =>
      mgr.change account (fun account => account.loginAccount mgr.now choice)
  | .replaced account =>
      mgr.change account (fun account => if account.online then account.replaced else account)
  | .logout account =>
      mgr.change account (fun account => if account.online then account.logout else account)
  | .checkExpired account =>
      mgr.change account (fun account => account.checkMuteExpired mgr.now)

end MuteMgr

-- The law

namespace Account

def MutedUntil (account : Account) (finish : Nat) : Prop :=
  ∃ mute ∈ account.mutes, mute.lifted = false
    ∧ ∃ date, mute.effective = some date ∧ date + mute.duration = finish

/-- A mute of this duration that was not lifted is to be in effect from the next login. -/
def Awaits (account : Account) (duration : Nat) : Prop :=
  ∃ mute ∈ account.mutes, mute.lifted = false ∧ mute.effective = none ∧ mute.duration = duration

/-- The row that a login takes the mute from ends no earlier than the other rows, once they are
given the same date or have waited for this login.
-/
def LongestFirst (account : Account) (now : Nat) : Prop :=
  ∀ best ∈ account.latestRows, ∀ row ∈ account.activeRows,
    row.mutetime ≤ best.mutetime
    ∧ (row.mutedate = 0 →
      now + row.mutetime ≤ (if best.mutedate = 0 then now else best.mutedate) + best.mutetime)

end Account

/-- An online account can speak if and only if all its mutes have elapsed. -/
def SpeechLaw (mgr : MuteMgr) : Prop :=
  ∀ name, (mgr.account name).online →
    ((mgr.account name).canSpeak mgr.now
      ↔ ∀ finish, (mgr.account name).MutedUntil finish → finish ≤ mgr.now)

/-- Durations fit their column, a mute of an online account ends no earlier than what runs, a login
finds the longest mute first, and no replaced session ends during a mute.
-/
def MuteMgr.Tame (mgr : MuteMgr) : Step → Prop
  | .mute name _ muteTime _ _ => muteTime < 2 ^ 31
      ∧ ((mgr.account name).online → (mgr.account name).getMuteDate ≤ mgr.now + muteTime)
  | .login name _ => ((mgr.account name).deactivateExpired mgr.now).LongestFirst mgr.now
  | .replaced name => (mgr.account name).online → (mgr.account name).canSpeak mgr.now
  | .passes _ | .unmute _ | .logout _ | .checkExpired _ => True

instance (account : Account) (now : Nat) : Decidable (account.LongestFirst now) :=
  inferInstanceAs (Decidable (∀ best ∈ _, ∀ row ∈ _, _ ∧ _))

instance (mgr : MuteMgr) : DecidablePred mgr.Tame
  | .mute .. => inferInstanceAs (Decidable (_ ∧ (_ → _)))
  | .login .. => inferInstanceAs (Decidable (Account.LongestFirst _ _))
  | .replaced _ => inferInstanceAs (Decidable (_ → _))
  | .passes _ | .unmute _ | .logout _ | .checkExpired _ => inferInstanceAs (Decidable True)

-- What rows and sessions know of the mutes

namespace Account

/-- The active rows and the mutes that are not lifted have the same ends, as far as these are to
come.
-/
structure Recorded (account : Account) (now : Nat) : Prop where
  covered : ∀ finish, account.MutedUntil finish → now < finish →
    ∃ row ∈ account.activeRows, row.mutedate ≠ 0 ∧ finish ≤ row.muteEnd
  justified : ∀ row ∈ account.activeRows, row.mutedate ≠ 0 → now < row.muteEnd →
    ∃ finish, account.MutedUntil finish ∧ row.muteEnd ≤ finish
  waiting : ∀ duration, account.Awaits duration →
    ∃ row ∈ account.activeRows, row.mutedate = 0 ∧ row.mutetime = duration
  waited : ∀ row ∈ account.activeRows, row.mutedate = 0 → account.Awaits row.mutetime

/-- The session is muted until the latest end of the mutes, and so say the rows. -/
structure Enforced (account : Account) (now : Nat) : Prop where
  longest : ∀ finish, account.MutedUntil finish → now < finish → finish ≤ account.getMuteDate
  attained : now < account.getMuteDate →
    ∃ finish, account.MutedUntil finish ∧ account.getMuteDate ≤ finish
  settled : ∀ duration, ¬ account.Awaits duration
  bounded : ∀ row ∈ account.activeRows,
    row.mutedate ≠ 0 ∧ (now < row.muteEnd → row.muteEnd ≤ account.getMuteDate)
  kept : now < account.getMuteDate → ∃ row ∈ account.activeRows, account.getMuteDate ≤ row.muteEnd

structure Sound (account : Account) (now : Nat) : Prop where
  enforced : account.online → account.Enforced now
  recorded : ¬ account.online → account.session = none ∧ account.Recorded now

variable {account : Account} {now : Nat}

/-- The rows of an account that is muted rightly record its mutes. -/
theorem Enforced.recorded (enforced : account.Enforced now) : account.Recorded now where
  covered := by
    intro finish muted running
    have within := enforced.longest finish muted running
    obtain ⟨row, active, later⟩ := enforced.kept (running.trans_le within)
    exact ⟨row, active, (enforced.bounded row active).1, within.trans later⟩
  justified := by
    intro row active _ running
    have within := (enforced.bounded row active).2 running
    obtain ⟨finish, muted, later⟩ := enforced.attained (running.trans_le within)
    exact ⟨finish, muted, within.trans later⟩
  waiting := fun duration awaits => (enforced.settled duration awaits).elim
  waited := fun row active zero => ((enforced.bounded row active).1 zero).elim

/-- The law for one account. -/
theorem Enforced.canSpeak_iff (enforced : account.Enforced now)
    : account.canSpeak now ↔ ∀ finish, account.MutedUntil finish → finish ≤ now := by
  unfold canSpeak
  rw [decide_eq_true_iff]
  constructor
  · intro free finish muted
    by_contra running
    exact running ((enforced.longest finish muted (Nat.lt_of_not_le running)).trans free)
  · intro elapsed
    by_contra speechless
    obtain ⟨finish, muted, later⟩ := enforced.attained (Nat.lt_of_not_le speechless)
    exact speechless (later.trans (elapsed finish muted))

/-- Time that passes keeps what the session knows. -/
theorem Enforced.later (enforced : account.Enforced now) {time : Nat} (le : now ≤ time)
    : account.Enforced time where
  longest := fun finish muted running => enforced.longest finish muted (le.trans_lt running)
  attained := fun muted => enforced.attained (le.trans_lt muted)
  settled := enforced.settled
  bounded := fun row active => ⟨(enforced.bounded row active).1,
    fun running => (enforced.bounded row active).2 (le.trans_lt running)⟩
  kept := fun muted => enforced.kept (le.trans_lt muted)

/-- Time that passes keeps what the rows record. -/
theorem Recorded.later (recorded : account.Recorded now) {time : Nat} (le : now ≤ time)
    : account.Recorded time where
  covered := fun finish muted running => recorded.covered finish muted (le.trans_lt running)
  justified := fun row active date running =>
    recorded.justified row active date (le.trans_lt running)
  waiting := recorded.waiting
  waited := recorded.waited

-- Changes of the rows

theorem mem_activeRows {row : MuteRow}
    : row ∈ account.activeRows ↔ row ∈ account.rows ∧ row.active := by
  unfold activeRows
  exact List.mem_filter

theorem mem_latestRows {row : MuteRow}
    : row ∈ account.latestRows
      ↔ row ∈ account.activeRows ∧ ∀ other ∈ account.activeRows, other.muteEnd ≤ row.muteEnd := by
  unfold latestRows
  rw [List.mem_filter, List.all_eq_true]
  simp only [decide_eq_true_eq]

/-- When a row is active, one ends last. -/
theorem latestRows_ne_nil {row : MuteRow} (active : row ∈ account.activeRows)
    : account.latestRows ≠ [] := by
  intro empty
  cases latest : account.activeRows.argmax MuteRow.muteEnd with
  | none =>
      rw [List.argmax_eq_none.mp latest] at active
      cases active
  | some best =>
      have found : best ∈ account.latestRows := mem_latestRows.mpr
        ⟨List.argmax_mem latest, fun other member => List.le_of_mem_argmax member latest⟩
      rw [empty] at found
      cases found

/-- No row is active after all are deactivated. -/
theorem not_mem_deactivateRows {row : MuteRow} : row ∉ account.deactivateRows.activeRows := by
  intro member
  obtain ⟨known, active⟩ := mem_activeRows.mp member
  obtain ⟨before, -, rfl⟩ := List.mem_map.mp known
  cases active

/-- What is active after a new row. -/
theorem mem_insertRow {row added : MuteRow} (fits : added.mutetime < 2 ^ 31)
    (active : added.active)
    : row ∈ (account.insertRow added).activeRows ↔ row ∈ account.activeRows ∨ row = added := by
  rw [mem_activeRows, mem_activeRows]
  unfold insertRow
  rw [if_pos fits, List.mem_append, List.mem_singleton, or_and_right]
  exact or_congr_right (and_iff_left_of_imp (fun same => same ▸ active))

/-- The active rows that a login leaves are those that wait, have no duration or are running. -/
theorem mem_deactivateExpired {row : MuteRow}
    : row ∈ (account.deactivateExpired now).activeRows
      ↔ row ∈ account.activeRows
        ∧ ¬ (row.mutetime > 0 ∧ row.mutedate > 0 ∧ now ≥ row.muteEnd) := by
  rw [mem_activeRows, mem_activeRows]
  constructor
  · rintro ⟨known, active⟩
    obtain ⟨before, member, rfl⟩ := List.mem_map.mp known
    split at active
    · cases active
    · next stays =>
        rw [if_neg stays]
        exact ⟨⟨member, active⟩, stays⟩
  · rintro ⟨⟨known, active⟩, stays⟩
    exact ⟨List.mem_map.mpr ⟨row, known, if_neg stays⟩, active⟩

/-- Active rows are given the date. -/
theorem mem_updateMuteAccount {row : MuteRow} {muteDate : Nat}
    : row ∈ (account.updateMuteAccount muteDate).activeRows
      ↔ ∃ before ∈ account.activeRows, { before with mutedate := muteDate } = row := by
  simp only [mem_activeRows]
  constructor
  · rintro ⟨known, active⟩
    obtain ⟨before, member, rfl⟩ := List.mem_map.mp known
    by_cases was : before.active
    · exact ⟨before, ⟨member, was⟩, (if_pos was).symm⟩
    · rw [if_neg was] at active
      exact (was active).elim
  · rintro ⟨before, ⟨member, was⟩, rfl⟩
    exact ⟨List.mem_map.mpr ⟨before, member, if_pos was⟩, was⟩

-- Mutes

section MutePlayer

variable {addAfterLogin : Bool} {muteTime : Nat} {muteBy muteReason : String}

/-- The active rows after a mute. -/
theorem mem_rows_mutePlayer (fits : muteTime < 2 ^ 31) (row : MuteRow)
    : row ∈ (account.mutePlayer now addAfterLogin muteTime muteBy muteReason).activeRows
      ↔ row ∈ account.activeRows
        ∨ row = ⟨if addAfterLogin && !account.online then 0 else now, muteTime, muteBy, muteReason,
            true⟩ := by
  unfold Account.mutePlayer
  dsimp only
  cases account.online <;> exact mem_insertRow fits rfl

theorem mutes_mutePlayer
    : (account.mutePlayer now addAfterLogin muteTime muteBy muteReason).mutes
      = account.mutes
        ++ [⟨if addAfterLogin && !account.online then none else some now, muteTime, false⟩] := rfl

/-- A mute has an end when it takes effect at once. -/
theorem mutedUntil_mutePlayer (finish : Nat)
    : (account.mutePlayer now addAfterLogin muteTime muteBy muteReason).MutedUntil finish
      ↔ account.MutedUntil finish
        ∨ (addAfterLogin && !account.online) = false ∧ now + muteTime = finish := by
  unfold MutedUntil
  rw [mutes_mutePlayer]
  simp only [List.mem_append, List.mem_singleton, or_and_right, exists_or, exists_eq_left,
    true_and]
  refine or_congr_right ?_
  cases addAfterLogin && !account.online with
  | true => simp
  | false => simp

/-- It waits for the next login otherwise. -/
theorem awaits_mutePlayer (duration : Nat)
    : (account.mutePlayer now addAfterLogin muteTime muteBy muteReason).Awaits duration
      ↔ account.Awaits duration
        ∨ (addAfterLogin && !account.online) = true ∧ muteTime = duration := by
  unfold Awaits
  rw [mutes_mutePlayer]
  simp only [List.mem_append, List.mem_singleton, or_and_right, exists_or, exists_eq_left,
    true_and]
  refine or_congr_right ?_
  cases addAfterLogin && !account.online with
  | true => simp
  | false => simp

/-- A mute that ends no earlier than what runs is enforced. -/
theorem Enforced.mutePlayer (enforced : account.Enforced now) (start : 0 < now)
    (online : account.online) (fits : muteTime < 2 ^ 31)
    (longer : account.getMuteDate ≤ now + muteTime)
    : (account.mutePlayer now addAfterLogin muteTime muteBy muteReason).Enforced now := by
  have effective : (addAfterLogin && !account.online) = false := by
    rw [online]
    exact Bool.and_false _
  have rows := @mem_rows_mutePlayer account now addAfterLogin muteTime muteBy muteReason fits
  have date : (account.mutePlayer now addAfterLogin muteTime muteBy muteReason).getMuteDate
      = now + muteTime := by
    unfold Account.mutePlayer
    rw [if_pos online]
    rfl
  rw [effective] at rows
  constructor
  case longest =>
    intro finish muted running
    rw [date]
    rcases mutedUntil_mutePlayer finish |>.mp muted with old | ⟨-, same⟩
    · exact (enforced.longest finish old running).trans longer
    · exact same.ge
  case attained =>
    exact fun _ => ⟨_, (mutedUntil_mutePlayer _).mpr (Or.inr ⟨effective, rfl⟩), date.le⟩
  case settled =>
    intro duration awaits
    rcases awaits_mutePlayer duration |>.mp awaits with old | ⟨waits, -⟩
    · exact enforced.settled duration old
    · cases effective.symm.trans waits
  case bounded =>
    intro row member
    rw [date]
    rcases (rows row).mp member with old | rfl
    · exact ⟨(enforced.bounded row old).1,
        fun running => ((enforced.bounded row old).2 running).trans longer⟩
    · exact ⟨start.ne', fun _ => le_rfl⟩
  case kept => exact fun _ => ⟨_, (rows _).mpr (Or.inr rfl), date.le⟩

/-- A mute of an offline account is recorded. -/
theorem Recorded.mutePlayer (recorded : account.Recorded now) (start : 0 < now)
    (fits : muteTime < 2 ^ 31)
    : (account.mutePlayer now addAfterLogin muteTime muteBy muteReason).Recorded now := by
  have rows := @mem_rows_mutePlayer account now addAfterLogin muteTime muteBy muteReason fits
  constructor
  case covered =>
    intro finish muted running
    rcases mutedUntil_mutePlayer finish |>.mp muted with old | ⟨effective, same⟩
    · obtain ⟨row, active, rest⟩ := recorded.covered finish old running
      exact ⟨row, (rows row).mpr (Or.inl active), rest⟩
    · refine ⟨_, (rows _).mpr (Or.inr rfl), ?_⟩
      rw [effective]
      exact ⟨start.ne', same.ge⟩
  case justified =>
    intro row member date running
    rcases (rows row).mp member with old | rfl
    · obtain ⟨finish, muted, later⟩ := recorded.justified row old date running
      exact ⟨finish, mutedUntil_mutePlayer finish |>.mpr (Or.inl muted), later⟩
    · cases waits : addAfterLogin && !account.online with
      | true =>
          rw [waits] at date
          exact (date rfl).elim
      | false => exact ⟨now + muteTime, (mutedUntil_mutePlayer _).mpr (Or.inr ⟨waits, rfl⟩), le_rfl⟩
  case waiting =>
    intro duration awaits
    rcases awaits_mutePlayer duration |>.mp awaits with old | ⟨waits, same⟩
    · obtain ⟨row, active, rest⟩ := recorded.waiting duration old
      exact ⟨row, (rows row).mpr (Or.inl active), rest⟩
    · refine ⟨_, (rows _).mpr (Or.inr rfl), ?_⟩
      rw [waits]
      exact ⟨rfl, same⟩
  case waited =>
    intro row member date
    rcases (rows row).mp member with old | rfl
    · exact awaits_mutePlayer _ |>.mpr (Or.inl (recorded.waited row old date))
    · cases waits : addAfterLogin && !account.online with
      | true => exact awaits_mutePlayer _ |>.mpr (Or.inr ⟨waits, rfl⟩)
      | false =>
          rw [waits] at date
          exact (start.ne' date).elim

/-- A mute that cuts none short keeps the account sound. -/
theorem Sound.mutePlayer (sound : account.Sound now) (start : 0 < now) (fits : muteTime < 2 ^ 31)
    (longer : account.online → account.getMuteDate ≤ now + muteTime)
    : (account.mutePlayer now addAfterLogin muteTime muteBy muteReason).Sound now := by
  unfold Account.mutePlayer
  by_cases online : account.online
  · have enforced := @Enforced.mutePlayer account now addAfterLogin muteTime muteBy muteReason
      (sound.enforced online) start online fits (longer online)
    unfold Account.mutePlayer at enforced
    rw [if_pos online] at enforced ⊢
    exact ⟨fun _ => enforced, fun offline => (offline online).elim⟩
  · obtain ⟨session, recorded⟩ := sound.recorded online
    have after := @Recorded.mutePlayer account now addAfterLogin muteTime muteBy muteReason
      recorded start fits
    unfold Account.mutePlayer at after
    rw [if_neg online] at after ⊢
    exact ⟨fun impossible => (online impossible).elim, fun _ => ⟨session, after⟩⟩

end MutePlayer

-- Unmutes, expiries and ends of sessions

/-- An account without active rows, running mutes and an entry of a session is sound. -/
theorem Sound.free (rows : ∀ row, row ∉ account.activeRows) (session : account.session = none)
    (elapsed : ∀ finish, account.MutedUntil finish → finish ≤ now)
    (settled : ∀ duration, ¬ account.Awaits duration)
    : account.Sound now := by
  have date : account.getMuteDate = 0 := by
    unfold getMuteDate
    rw [session]
    rfl
  have speaks : ¬ now < account.getMuteDate := by
    rw [date]
    exact Nat.not_lt_zero now
  have enforced : account.Enforced now := {
    longest := fun finish muted running => ((elapsed finish muted).not_gt running).elim
    attained := fun muted => (speaks muted).elim
    settled := settled
    bounded := fun row active => (rows row active).elim
    kept := fun muted => (speaks muted).elim
  }
  exact ⟨fun _ => enforced, fun _ => ⟨session, enforced.recorded⟩⟩

/-- An unmute lifts all mutes. -/
theorem sound_unMutePlayer : account.unMutePlayer.Sound now := by
  have lifted (mute : Mute) (member : mute ∈ account.unMutePlayer.mutes) : mute.lifted = true := by
    obtain ⟨before, -, rfl⟩ := List.mem_map.mp member
    rfl
  apply Sound.free
  case rows => exact fun row => not_mem_deactivateRows
  case session => rfl
  case elapsed =>
    rintro finish ⟨mute, member, runs, -⟩
    cases (lifted mute member).symm.trans runs
  case settled =>
    rintro duration ⟨mute, member, runs, -⟩
    cases (lifted mute member).symm.trans runs

/-- What has expired leaves no mute that runs. -/
theorem Sound.checkMuteExpired (sound : account.Sound now)
    : (account.checkMuteExpired now).Sound now := by
  unfold Account.checkMuteExpired
  dsimp only
  split
  · exact sound
  · next expired =>
      obtain ⟨muted, elapsed⟩ := not_or.mp expired
      have online : account.online := by
        by_contra offline
        apply muted
        unfold getMuteDate
        rw [(sound.recorded offline).1]
        rfl
      have enforced := sound.enforced online
      have free : account.canSpeak now := decide_eq_true (Nat.le_of_not_lt elapsed)
      apply Sound.free
      case rows => exact fun row => not_mem_deactivateRows
      case session => rfl
      case elapsed => exact enforced.canSpeak_iff.mp free
      case settled => exact enforced.settled

/-- A session that is replaced while no mute runs takes none with it. -/
theorem Enforced.replaced (enforced : account.Enforced now) (free : account.canSpeak now)
    : account.replaced.Enforced now where
  longest := fun finish muted running =>
    ((enforced.canSpeak_iff.mp free finish muted).not_gt running).elim
  attained := fun muted => (Nat.not_lt_zero _ muted).elim
  settled := enforced.settled
  bounded := by
    intro row active
    obtain ⟨date, within⟩ := enforced.bounded row active
    refine ⟨date, fun running => ?_⟩
    exact ((within running).trans (of_decide_eq_true free)).not_gt running |>.elim
  kept := fun muted => (Nat.not_lt_zero _ muted).elim

-- Logins

/-- Rows that the login does not deactivate still record the mutes. -/
theorem Recorded.deactivateExpired (recorded : account.Recorded now)
    : (account.deactivateExpired now).Recorded now where
  covered := by
    intro finish muted running
    obtain ⟨row, active, date, later⟩ := recorded.covered finish muted running
    refine ⟨row, mem_deactivateExpired.mpr ⟨active, fun expired => ?_⟩, date, later⟩
    exact (expired.2.2.trans_lt running).not_ge later
  justified := fun row active => recorded.justified row (mem_deactivateExpired.mp active).1
  waiting := by
    intro duration awaits
    obtain ⟨row, active, date, same⟩ := recorded.waiting duration awaits
    exact ⟨row, mem_deactivateExpired.mpr ⟨active, fun expired => expired.2.1.ne' date⟩, date, same⟩
  waited := fun row active => recorded.waited row (mem_deactivateExpired.mp active).1

/-- With a login, what has waited for it is in effect. -/
theorem mutes_loginAccount (choice : Nat)
    : (account.loginAccount now choice).mutes
      = account.mutes.map
          (fun mute => { mute with effective := some (mute.effective.getD now) }) := by
  unfold Account.loginAccount
  dsimp only
  split <;> rfl

/-- The ends that mutes have after a login. -/
theorem mutedUntil_loginAccount (choice finish : Nat)
    : (account.loginAccount now choice).MutedUntil finish
      ↔ account.MutedUntil finish
        ∨ ∃ duration, account.Awaits duration ∧ now + duration = finish := by
  unfold MutedUntil
  rw [mutes_loginAccount]
  constructor
  · rintro ⟨_, member, lasts, date, effective, same⟩
    obtain ⟨mute, known, rfl⟩ := List.mem_map.mp member
    cases before : mute.effective with
    | some since =>
        dsimp only at effective
        rw [before] at effective
        obtain rfl := Option.some.inj effective
        exact Or.inl ⟨mute, known, lasts, since, before, same⟩
    | none =>
        dsimp only at effective
        rw [before] at effective
        obtain rfl := Option.some.inj effective
        exact Or.inr ⟨mute.duration, ⟨mute, known, lasts, before, rfl⟩, same⟩
  · rintro (⟨mute, known, lasts, date, effective, same⟩ | ⟨_, awaits, same⟩)
    · refine ⟨_, List.mem_map_of_mem known, lasts, date, ?_, same⟩
      dsimp only
      rw [effective]
      rfl
    · obtain ⟨mute, known, lasts, none, rfl⟩ := awaits
      refine ⟨_, List.mem_map_of_mem known, lasts, now, ?_, same⟩
      dsimp only
      rw [none]
      rfl

/-- After a login no mute waits. -/
theorem not_awaits_loginAccount (choice duration : Nat)
    : ¬ (account.loginAccount now choice).Awaits duration := by
  rintro ⟨mute, member, -, none, -⟩
  rw [mutes_loginAccount] at member
  obtain ⟨before, -, rfl⟩ := List.mem_map.mp member
  cases none

/-- A login leaves the account alone when no row is active, and otherwise takes one of the latest
rows.
-/
theorem loginAccount_cases (choice : Nat)
    : (∀ row, row ∉ (account.deactivateExpired now).activeRows)
        ∧ (account.loginAccount now choice).session = account.session
        ∧ (account.loginAccount now choice).activeRows
          = (account.deactivateExpired now).activeRows
      ∨ ∃ best ∈ (account.deactivateExpired now).latestRows,
          (account.loginAccount now choice).getMuteDate
            = (if best.mutedate = 0 then now else best.mutedate) + best.mutetime
          ∧ (account.loginAccount now choice).activeRows
            = ((account.deactivateExpired now).updateMuteAccount
                (if best.mutedate = 0 then now else best.mutedate)).activeRows := by
  unfold Account.loginAccount
  dsimp only
  split
  · next none =>
      refine Or.inl ⟨fun row active => ?_, rfl, rfl⟩
      have pos := List.length_pos_of_ne_nil (latestRows_ne_nil active)
      exact (Nat.mod_lt choice pos).not_ge (List.getElem?_eq_none_iff.mp none)
  · next best found => exact Or.inr ⟨best, List.mem_of_getElem? found, rfl, rfl⟩

/-- A login that finds the longest mute first enforces what the rows record. -/
theorem Recorded.login (recorded : account.Recorded now) (start : 0 < now) (choice : Nat)
    (speaks : now < account.getMuteDate →
      ∃ row ∈ account.activeRows, account.getMuteDate ≤ row.muteEnd)
    (longest : (account.deactivateExpired now).LongestFirst now)
    : (account.loginAccount now choice).Enforced now := by
  have left := recorded.deactivateExpired
  rcases @loginAccount_cases account now choice with
    ⟨empty, session, rows⟩ | ⟨best, latest, date, rows⟩
  · have free : ¬ now < (account.loginAccount now choice).getMuteDate := by
      unfold getMuteDate
      rw [session]
      intro muted
      obtain ⟨row, active, later⟩ := speaks muted
      refine empty row (mem_deactivateExpired.mpr ⟨active, fun expired => ?_⟩)
      exact (muted.trans_le later).not_ge expired.2.2
    constructor
    case longest =>
      intro finish muted running
      rcases (mutedUntil_loginAccount choice finish).mp muted with old | ⟨duration, awaits, -⟩
      · obtain ⟨row, active, -⟩ := left.covered finish old running
        exact (empty row active).elim
      · obtain ⟨row, active, -⟩ := left.waiting duration awaits
        exact (empty row active).elim
    case attained => exact fun muted => (free muted).elim
    case settled => exact not_awaits_loginAccount choice
    case bounded =>
      intro row member
      rw [rows] at member
      exact (empty row member).elim
    case kept => exact fun muted => (free muted).elim
  · obtain ⟨active, last⟩ := mem_latestRows.mp latest
    have since : best.mutedate ≤ if best.mutedate = 0 then now else best.mutedate := by
      split
      · next zero => exact zero.le.trans (Nat.zero_le now)
      · exact le_rfl
    constructor
    case longest =>
      intro finish muted running
      rw [date]
      rcases (mutedUntil_loginAccount choice finish).mp muted with old | ⟨duration, awaits, rfl⟩
      · obtain ⟨row, member, -, later⟩ := left.covered finish old running
        exact later.trans ((last row member).trans (Nat.add_le_add_right since _))
      · obtain ⟨row, member, zero, rfl⟩ := left.waiting duration awaits
        exact (longest best latest row member).2 zero
    case attained =>
      rw [date]
      intro running
      by_cases zero : best.mutedate = 0
      · rw [if_pos zero]
        refine ⟨_, (mutedUntil_loginAccount choice _).mpr (Or.inr ⟨_, left.waited best active zero,
          rfl⟩), le_rfl⟩
      · rw [if_neg zero] at running ⊢
        obtain ⟨finish, muted, later⟩ := left.justified best active zero running
        exact ⟨finish, (mutedUntil_loginAccount choice _).mpr (Or.inl muted), later⟩
    case settled => exact not_awaits_loginAccount choice
    case bounded =>
      intro row member
      rw [date]
      rw [rows] at member
      obtain ⟨before, was, rfl⟩ := mem_updateMuteAccount.mp member
      refine ⟨?_, fun _ => Nat.add_le_add_left (longest best latest before was).1 _⟩
      dsimp only
      split
      · exact start.ne'
      · next date => exact date
    case kept =>
      intro _
      rw [date, rows]
      exact ⟨_, mem_updateMuteAccount.mpr ⟨best, active, rfl⟩, le_rfl⟩

/-- The account is online after a login. -/
theorem online_loginAccount (choice : Nat) : (account.loginAccount now choice).online := by
  unfold Account.loginAccount
  dsimp only
  split <;> rfl

/-- A login keeps the account sound, whether it was online or not. -/
theorem Sound.login (sound : account.Sound now) (start : 0 < now) (choice : Nat)
    (longest : (account.deactivateExpired now).LongestFirst now)
    : (account.loginAccount now choice).Sound now := by
  refine ⟨fun _ => ?_, fun offline => (offline (online_loginAccount choice)).elim⟩
  by_cases online : account.online
  · have enforced := sound.enforced online
    exact enforced.recorded.login start choice enforced.kept longest
  · obtain ⟨session, recorded⟩ := sound.recorded online
    refine recorded.login start choice (fun muted => ?_) longest
    unfold getMuteDate at muted
    rw [session] at muted
    exact (Nat.not_lt_zero _ muted).elim

/-- What the rows record stays when the session ends. -/
theorem Sound.logout (sound : account.Sound now) : account.logout.Sound now := by
  refine ⟨fun online => (by cases online), fun _ => ⟨rfl, ?_⟩⟩
  by_cases online : account.online
  · exact { (sound.enforced online).recorded with }
  · exact { (sound.recorded online).2 with }

end Account

-- Runs

structure MuteMgr.Sound (mgr : MuteMgr) : Prop where
  start : 0 < mgr.now
  accounts : ∀ name, (mgr.account name).Sound mgr.now

theorem MuteMgr.sound_empty : MuteMgr.Sound {} where
  start := Nat.one_pos
  accounts := fun _ => Account.Sound.free (fun _ active => by cases active) rfl
    (by rintro _ ⟨_, member, -⟩; cases member) (by rintro _ ⟨_, member, -⟩; cases member)

/-- A change of one account that keeps it sound. -/
theorem MuteMgr.Sound.change {mgr : MuteMgr} (sound : mgr.Sound) (name : Nat)
    {change : Account → Account} (kept : (change (mgr.account name)).Sound mgr.now)
    : (mgr.change name change).Sound where
  start := sound.start
  accounts := by
    intro other
    unfold MuteMgr.change
    dsimp only
    rcases eq_or_ne other name with rfl | ne
    · rw [Function.update_self]
      exact kept
    · rw [Function.update_of_ne ne]
      exact sound.accounts other

/-- Every step that cuts no mute short keeps all accounts sound. -/
theorem MuteMgr.Sound.step {mgr : MuteMgr} (sound : mgr.Sound) (input : Step)
    (tame : mgr.Tame input)
    : (mgr.step input).Sound := by
  unfold MuteMgr.step
  cases input with
  | passes seconds =>
      have le := Nat.le_add_right mgr.now seconds
      exact ⟨sound.start.trans_le le, fun name => ⟨
        fun online => ((sound.accounts name).enforced online).later le,
        fun offline => ((sound.accounts name).recorded offline).imp_right (·.later le)⟩⟩
  | mute name addAfterLogin muteTime muteBy muteReason =>
      refine sound.change name ?_
      exact (sound.accounts name).mutePlayer sound.start tame.1 tame.2
  | unmute name => exact sound.change name Account.sound_unMutePlayer
  | login name choice =>
      refine sound.change name ?_
      exact (sound.accounts name).login sound.start choice tame
  | replaced name =>
      refine sound.change name ?_
      split
      · next online =>
          exact ⟨fun _ => ((sound.accounts name).enforced online).replaced (tame online),
            fun offline => (offline online).elim⟩
      · exact sound.accounts name
  | logout name =>
      refine sound.change name ?_
      split
      · exact (sound.accounts name).logout
      · exact sound.accounts name
  | checkExpired name =>
      refine sound.change name ?_
      exact (sound.accounts name).checkMuteExpired

/-- In every run of steps that cut no mute short, an online account can speak if and only if no mute
of it is running.
-/
theorem account_speaks_when_mutes_are_over (steps : List Step)
    (tame : EachStep MuteMgr.step MuteMgr.Tame {} steps)
    : EachState MuteMgr.step SpeechLaw {} steps := by
  have kept (mgr : MuteMgr) (input : Step) (sound : mgr.Sound) (tame : mgr.Tame input)
      : (mgr.step input).Sound := sound.step input tame
  have always := eachState_of_invariant kept MuteMgr.sound_empty tame
  exact always.imp
    (fun mgr sound name online => ((sound.accounts name).enforced online).canSpeak_iff)

theorem account_speaks_when_mutes_are_over_applied
    : EachState MuteMgr.step SpeechLaw {} [.mute 7 true 100 "" "", .login 7 0,
        .mute 7 false 200 "" "", .passes 150, .logout 7, .login 7 0, .passes 60, .checkExpired 7] :=
  account_speaks_when_mutes_are_over _
    ⟨by decide +kernel, by decide +kernel, by decide +kernel, by decide +kernel,
      by decide +kernel, by decide +kernel, by decide +kernel, by decide +kernel, trivial⟩

/-- A mute that ends before the current one of an online account replaces it. -/
theorem shorter_mute_ends_longer
    : ¬ ∀ steps, EachState MuteMgr.step SpeechLaw {} steps := by
  intro law
  have state := (law [.login 7 0, .mute 7 false 100 "" "", .mute 7 false 10 "" "", .passes 20]).last
  have speaks := (state 7 rfl).mp (by decide +kernel) 101
    ⟨⟨some 1, 100, false⟩, List.mem_cons_self, rfl, 1, rfl, rfl⟩
  exact absurd speaks (by decide +kernel)

end WarheadCore.Accounts
