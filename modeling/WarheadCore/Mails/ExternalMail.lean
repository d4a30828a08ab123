import WarheadCore.Inventory.ItemTemplates
import WarheadCore.Mails.Handlers

/-! Mails that are asked for in a table outside the game: the items of a request are put into
stacks, and the stacks into mails.
What the names, the items and the senders of the requests are is a parameter.
-/

namespace WarheadCore.Mails

open WarheadCore.Inventory (ItemTemplate)

-- Requests

structure ExternalRow where
  id : Nat
  playerName : String
  subject : String
  body : String
  money : Nat
  itemId : Nat
  itemCount : Nat
  creatureEntry : Nat

/-- `ExMail`; a stack is the entry of an item and a count. -/
structure ExMail where
  id : Nat
  playerGuid : Nat
  subject : String
  body : String
  money : Nat
  creatureEntry : Nat
  items : List (Nat × Nat) := []
  overCountItems : List (List (Nat × Nat)) := []

structure MailDraft where
  subject : String
  body : String
  money : Nat := 0
  items : List (Nat × Nat) := []

structure ExternalSources where
  normalizePlayerName : String → Option String
  getCharacterGuidByName : String → Nat
  getItemTemplate : Nat → Option ItemTemplate
  hasCreatureTemplate : Nat → Bool

theorem getMaxStackSize_pos (proto : ItemTemplate) : 0 < proto.getMaxStackSize := by
  have below := proto.stackable_lt
  unfold ItemTemplate.getMaxStackSize
  split
  · omega
  · unfold Foundation.toUInt32
    omega

namespace ExMail

/-- The loop of `ExMail::AddItems`; what is left of the count is at most a stack. -/
def fill (proto : ItemTemplate) (itemId itemCount : Nat) (mail : ExMail) : Nat × ExMail :=
  if proto.getMaxStackSize < itemCount then
    if mail.items.length ≤ MAX_MAIL_ITEMS then
      fill proto itemId (itemCount - proto.getMaxStackSize)
        { mail with items := mail.items ++ [(itemId, proto.getMaxStackSize)] }
    else
      fill proto itemId itemCount
        { mail with overCountItems := mail.overCountItems ++ [mail.items], items := [] }
  else (itemCount, mail)
termination_by (itemCount, mail.items.length)
decreasing_by
  · have positive := getMaxStackSize_pos proto
    exact Prod.Lex.left _ _ (by omega)
  · exact Prod.Lex.right _ (by simp only [List.length_nil]; omega)

/-- `ExMail::AddItems`; none where it answers no. -/
def addItems (sources : ExternalSources) (mail : ExMail) (itemId itemCount : Nat)
    : Option ExMail :=
  match sources.getItemTemplate itemId with
  | none => none
  | some proto =>
      if itemCount < 1 ∨ (0 < proto.maxCount ∧ Foundation.toUInt32 proto.maxCount < itemCount) then
        none
      else
        let (itemCount, mail) := mail.fill proto itemId itemCount
        let items := mail.items ++ [(itemId, itemCount)]
        some { mail with items, overCountItems := mail.overCountItems ++ [items] }

end ExMail

namespace ExternalSources

variable (sources : ExternalSources)

def createItem (itemId count : Nat) : Option (Nat × Nat) :=
  if count < 1 then none
  else
    (sources.getItemTemplate itemId).map (fun proto =>
      (itemId, if proto.getMaxStackSize < count then proto.getMaxStackSize else count))

def request (row : ExternalRow) : Option ExMail := do
  let playerName ← sources.normalizePlayerName row.playerName
  let playerGuid := sources.getCharacterGuidByName playerName
  if playerGuid = 0 then none
  else if (sources.getItemTemplate row.itemId).isNone then none
  else if !sources.hasCreatureTemplate row.creatureEntry then none
  else
    let mail : ExMail :=
      { id := row.id, playerGuid, subject := row.subject, body := row.body, money := row.money,
        creatureEntry := row.creatureEntry }
    mail.addItems sources row.itemId row.itemCount

def emplace (store : List ExMail) (row : ExternalRow) : List ExMail :=
  match sources.request row with
  | none => store
  | some mail => if store.any (fun other => other.id == mail.id) then store else store ++ [mail]

def draft (mail : ExMail) (items : List (Nat × Nat)) : MailDraft :=
  let empty : MailDraft := { subject := mail.subject, body := mail.body }
  let paid := if mail.money ≠ 0 then { empty with money := mail.money } else empty
  { paid with items := items.filterMap (fun item => sources.createItem item.1 item.2) }

/-- `ExternalMail::SendMailsAsync`: the mails that are sent for each of the requests. -/
def sendMailsAsync (rows : List ExternalRow) : List (Nat × List MailDraft) :=
  (rows.foldl sources.emplace []).map
    (fun mail => (mail.id, mail.overCountItems.map (sources.draft mail)))

end ExternalSources

-- Stacks

/-- What the loop does: it adds full stacks, and every list that it closes is too long. -/
structure Filled (proto : ItemTemplate) (itemId itemCount : Nat) (mail : ExMail) (rest : Nat)
    (after : ExMail) : Prop where
  sum
    : ∃ full, itemCount = full * proto.getMaxStackSize + rest
        ∧ (after.overCountItems ++ [after.items]).flatten
          = (mail.overCountItems ++ [mail.items]).flatten
            ++ List.replicate full (itemId, proto.getMaxStackSize)
  rest_le : rest ≤ proto.getMaxStackSize
  rest_pos : 0 < itemCount → 0 < rest
  closed
    : ∀ items ∈ after.overCountItems, items ∈ mail.overCountItems ∨ MAX_MAIL_ITEMS < items.length
  id : after.id = mail.id
  money : after.money = mail.money

/-- The loop, by induction on its steps. -/
theorem ExMail.filled (proto : ItemTemplate) (itemId itemCount : Nat) (mail : ExMail)
    : Filled proto itemId itemCount mail (mail.fill proto itemId itemCount).1
        (mail.fill proto itemId itemCount).2 := by
  induction itemCount, mail using ExMail.fill.induct proto itemId with
  | case1 itemCount mail more room ih =>
      rw [ExMail.fill, if_pos more, if_pos room]
      obtain ⟨full, count, flat⟩ := ih.sum
      refine { ih with sum := ⟨full + 1, ?_, ?_⟩, rest_pos := fun _ => ih.rest_pos (by omega) }
      · rw [Nat.succ_mul]
        omega
      · rw [flat]
        simp [List.replicate_succ]
  | case2 itemCount mail more long ih =>
      rw [ExMail.fill, if_pos more, if_neg long]
      obtain ⟨full, count, flat⟩ := ih.sum
      refine { ih with sum := ⟨full, count, ?_⟩, closed := fun items there => ?_ }
      · rw [flat]
        simp
      · rcases ih.closed items there with before | tooLong
        · rcases List.mem_append.mp before with before | here
          · exact .inl before
          · rw [List.mem_singleton.mp here]
            exact .inr (Nat.lt_of_not_le long)
        · exact .inr tooLong
  | case3 itemCount mail last =>
      rw [ExMail.fill, if_neg last]
      exact ⟨⟨0, by simp, by simp⟩, Nat.le_of_not_lt last, fun positive => positive,
        fun _ there => .inl there, rfl, rfl⟩

def IsStack (proto : ItemTemplate) (itemId : Nat) (item : Nat × Nat) : Prop :=
  item.1 = itemId ∧ 0 < item.2 ∧ item.2 ≤ proto.getMaxStackSize

/-- What a request that is accepted is split into: full stacks and one for what is left, in lists
of which all but the last are too long.
-/
structure Split (proto : ItemTemplate) (row : ExternalRow) (mail : ExMail) : Prop where
  lists
    : ∃ closed last full rest,
        mail.overCountItems = closed ++ [last ++ [(row.itemId, rest)]]
          ∧ (closed ++ [last]).flatten
            = List.replicate full (row.itemId, proto.getMaxStackSize)
          ∧ (∀ items ∈ closed, MAX_MAIL_ITEMS < items.length)
          ∧ row.itemCount = full * proto.getMaxStackSize + rest
          ∧ 0 < rest ∧ rest ≤ proto.getMaxStackSize
  id : mail.id = row.id
  money : mail.money = row.money

variable {sources : ExternalSources} {row : ExternalRow} {proto : ItemTemplate} {mail : ExMail}

theorem split_of_addItems (found : sources.getItemTemplate row.itemId = some proto)
    {start : ExMail} (empty : start.overCountItems = [] ∧ start.items = [])
    (same : start.id = row.id ∧ start.money = row.money)
    (added : start.addItems sources row.itemId row.itemCount = some mail)
    : Split proto row mail := by
  unfold ExMail.addItems at added
  rw [found] at added
  dsimp only at added
  split at added
  · cases added
  · rename_i accepted
    obtain rfl := Option.some.inj added
    have positive : 0 < row.itemCount := by
      by_contra none_
      exact accepted (.inl (by omega))
    have filled := ExMail.filled proto row.itemId row.itemCount start
    obtain ⟨full, count, flat⟩ := filled.sum
    rw [empty.1, empty.2] at flat
    refine ⟨⟨_, _, full, _, rfl, flat, fun items there => ?_, count, filled.rest_pos positive,
      filled.rest_le⟩, filled.id.trans same.1, filled.money.trans same.2⟩
    refine (filled.closed items there).resolve_left (fun before => ?_)
    rw [empty.1] at before
    cases before

theorem split_of_request (found : sources.getItemTemplate row.itemId = some proto)
    (asked : sources.request row = some mail)
    : Split proto row mail := by
  unfold ExternalSources.request at asked
  obtain ⟨playerName, -, asked⟩ := Option.bind_eq_some_iff.mp asked
  dsimp only at asked
  split at asked
  · cases asked
  · split at asked
    · cases asked
    · split at asked
      · cases asked
      · exact split_of_addItems found ⟨rfl, rfl⟩ ⟨rfl, rfl⟩ asked

-- Mails

structure Delivers (proto : ItemTemplate) (row : ExternalRow) (drafts : List MailDraft) : Prop where
  count : ((drafts.flatMap MailDraft.items).map Prod.snd).sum = row.itemCount
  each : ∀ draft ∈ drafts, ∀ item ∈ draft.items, IsStack proto row.itemId item
  attached : ∀ draft ∈ drafts, draft.items ≠ [] ∧ draft.items.length ≤ MAX_MAIL_ITEMS
  money : (drafts.map MailDraft.money).sum = row.money

/-- Items are created as they are asked for. -/
theorem draft_items (found : sources.getItemTemplate row.itemId = some proto)
    {items : List (Nat × Nat)} (allowed : ∀ item ∈ items, IsStack proto row.itemId item)
    : (sources.draft mail items).items = items := by
  have created (item : Nat × Nat) (there : item ∈ items)
      : sources.createItem item.1 item.2 = some item := by
    obtain ⟨entry, positive, most⟩ := allowed item there
    unfold ExternalSources.createItem
    rw [if_neg (by omega), entry, found, Option.map_some, if_neg (by omega), ← entry]
  unfold ExternalSources.draft
  dsimp only
  rw [List.filterMap_congr created, List.filterMap_some]

theorem draft_money (items : List (Nat × Nat))
    : (sources.draft mail items).money = mail.money := by
  unfold ExternalSources.draft
  dsimp only
  split
  · rfl
  · rename_i zero
    exact (not_ne_iff.mp zero).symm

/-- All the items of a request are stacks, however they are put into mails. -/
theorem Split.each (split : Split proto row mail) {items : List (Nat × Nat)}
    (listed : items ∈ mail.overCountItems)
    : ∀ item ∈ items, IsStack proto row.itemId item := by
  obtain ⟨closed, last, full, rest, lists, flat, -, -, positive, most⟩ := split.lists
  have fullStack (item : Nat × Nat) (there : item ∈ (closed ++ [last]).flatten)
      : IsStack proto row.itemId item := by
    rw [flat] at there
    rw [List.eq_of_mem_replicate there]
    exact ⟨rfl, getMaxStackSize_pos proto, le_rfl⟩
  rw [lists] at listed
  intro item there
  rcases List.mem_append.mp listed with early | final
  · exact fullStack item (List.mem_flatten.mpr ⟨items, List.mem_append_left _ early, there⟩)
  · rw [List.mem_singleton.mp final] at there
    rcases List.mem_append.mp there with before | own
    · exact fullStack item
        (List.mem_flatten.mpr ⟨last, List.mem_append_right _ (List.mem_singleton_self _), before⟩)
    · rw [List.mem_singleton.mp own]
      exact ⟨rfl, positive, most⟩

/-- The mails of a request are right if and only if its items fit into one mail. -/
theorem Split.delivers_iff (split : Split proto row mail)
    (found : sources.getItemTemplate row.itemId = some proto)
    : Delivers proto row (mail.overCountItems.map (sources.draft mail))
      ↔ row.itemCount ≤ MAX_MAIL_ITEMS * proto.getMaxStackSize := by
  have each := @split.each
  have items (listed : List (Nat × Nat)) (there : listed ∈ mail.overCountItems)
      : (sources.draft mail listed).items = listed :=
    draft_items found (each there)
  obtain ⟨closed, last, full, rest, lists, flat, long, count, positive, most⟩ := split.lists
  have stacksBelow := getMaxStackSize_pos proto
  constructor
  · intro delivers
    have fits (listed : List (Nat × Nat)) (there : listed ∈ mail.overCountItems)
        : listed.length ≤ MAX_MAIL_ITEMS := by
      have fits := (delivers.attached _ (List.mem_map_of_mem there)).2
      rwa [items listed there] at fits
    have none_ : closed = [] := List.eq_nil_iff_forall_not_mem.mpr (fun listed there =>
      (fits listed (lists ▸ List.mem_append_left _ there)).not_gt (long listed there))
    subst none_
    have lastFits := fits _ (lists ▸ List.mem_append_right _ (List.mem_singleton_self _))
    have size := congrArg List.length flat
    simp only [List.nil_append, List.flatten_cons, List.flatten_nil, List.append_nil,
      List.length_replicate] at size
    rw [List.length_append, size, List.length_singleton] at lastFits
    calc row.itemCount = full * proto.getMaxStackSize + rest := count
      _ ≤ full * proto.getMaxStackSize + proto.getMaxStackSize := Nat.add_le_add_left most _
      _ = (full + 1) * proto.getMaxStackSize := (Nat.succ_mul _ _).symm
      _ ≤ MAX_MAIL_ITEMS * proto.getMaxStackSize := Nat.mul_le_mul_right _ lastFits
  · intro few
    have fewFull : full < MAX_MAIL_ITEMS := by
      refine Nat.lt_of_mul_lt_mul_right (a := proto.getMaxStackSize) ?_
      omega
    have none_ : closed = [] := by
      refine List.eq_nil_iff_forall_not_mem.mpr (fun listed there => ?_)
      have part : listed.length ≤ (closed ++ [last]).flatten.length :=
        (List.sublist_flatten_of_mem (List.mem_append_left _ there)).length_le
      rw [flat, List.length_replicate] at part
      have tooLong := long listed there
      omega
    subst none_
    rw [List.nil_append, List.flatten_cons, List.flatten_nil, List.append_nil] at flat
    rw [List.nil_append, flat] at lists
    have held := items _ (lists ▸ List.mem_singleton_self _)
    rw [lists, List.map_singleton]
    refine ⟨?_, fun draft there => ?_, fun draft there => ?_, ?_⟩
    · simp [held, count]
    · rw [List.mem_singleton.mp there, held]
      exact each (lists ▸ List.mem_singleton_self _)
    · rw [List.mem_singleton.mp there, held]
      refine ⟨List.append_ne_nil_of_right_ne_nil _ (List.cons_ne_nil _ _), ?_⟩
      rw [List.length_append, List.length_replicate, List.length_singleton]
      exact fewFull
    · rw [List.map_singleton, List.sum_singleton, draft_money, split.money]

-- All requests

theorem template_of_request (asked : sources.request row = some mail)
    : ∃ proto, sources.getItemTemplate row.itemId = some proto := by
  cases found : sources.getItemTemplate row.itemId with
  | some proto => exact ⟨proto, rfl⟩
  | none =>
      unfold ExternalSources.request at asked
      obtain ⟨playerName, -, asked⟩ := Option.bind_eq_some_iff.mp asked
      dsimp only at asked
      rw [found, if_pos Option.isNone_none, ite_self] at asked
      cases asked

theorem id_of_request (asked : sources.request row = some mail) : mail.id = row.id := by
  obtain ⟨proto, found⟩ := template_of_request asked
  exact (split_of_request found asked).id

/-- Rows with ids of their own are all kept, by induction on the rows. -/
theorem mem_foldl_emplace {rows : List ExternalRow} {store : List ExMail}
    (distinct : (rows.map ExternalRow.id).Nodup)
    (apart : ∀ kept ∈ store, kept.id ∉ rows.map ExternalRow.id)
    : mail ∈ rows.foldl sources.emplace store
      ↔ mail ∈ store ∨ ∃ row ∈ rows, sources.request row = some mail := by
  induction rows generalizing store with
  | nil => simp
  | cons row rest ih =>
      obtain ⟨own, distinct⟩ := List.nodup_cons.mp distinct
      have apartRest (kept : ExMail) (there : kept ∈ store) : kept.id ∉ rest.map ExternalRow.id :=
        fun later => apart kept there (List.mem_cons_of_mem _ later)
      rw [List.foldl_cons, ExternalSources.emplace]
      cases asked : sources.request row with
      | none =>
          dsimp only
          rw [ih distinct apartRest]
          simp [asked]
      | some added =>
          have id := id_of_request asked
          have newId : store.any (fun other => other.id == added.id) = false := by
            refine List.any_eq_false.mpr (fun kept there same => ?_)
            refine apart kept there ?_
            rw [beq_iff_eq.mp same, id]
            exact List.mem_cons_self
          dsimp only
          rw [newId, if_neg Bool.false_ne_true, ih distinct ?_]
          · simp [asked, or_assoc, eq_comm]
          · intro kept there
            rcases List.mem_append.mp there with before | here
            · exact apartRest kept before
            · rw [List.mem_singleton.mp here, id]
              exact own

/-- What is sent for a request are the mails for its lists. -/
theorem mem_sendMailsAsync {rows : List ExternalRow}
    (distinct : (rows.map ExternalRow.id).Nodup) (listed : row ∈ rows)
    (asked : sources.request row = some mail) {sent : List MailDraft}
    : (row.id, sent) ∈ sources.sendMailsAsync rows
      ↔ sent = mail.overCountItems.map (sources.draft mail) := by
  unfold ExternalSources.sendMailsAsync
  rw [List.mem_map]
  constructor
  · rintro ⟨other, kept, same⟩
    obtain ⟨sameId, rfl⟩ := Prod.mk.inj same
    rcases (mem_foldl_emplace distinct (fun _ none_ => by cases none_)).mp kept
      with none_ | ⟨row', listed', asked'⟩
    · cases none_
    · have sameRow : row' = row := List.inj_on_of_nodup_map distinct listed' listed
        ((id_of_request asked').symm.trans sameId)
      rw [sameRow, asked] at asked'
      rw [Option.some.inj asked']
  · rintro rfl
    refine ⟨mail, ?_, by rw [id_of_request asked]⟩
    exact (mem_foldl_emplace distinct (fun _ none_ => by cases none_)).mpr
      (.inr ⟨row, listed, asked⟩)

/-- The mails that are sent for a request are right, if and only if its items fit into one mail. -/
theorem sendMailsAsync_delivers_iff {rows : List ExternalRow}
    (distinct : (rows.map ExternalRow.id).Nodup) (listed : row ∈ rows)
    (accepted : (sources.request row).isSome = true)
    (found : sources.getItemTemplate row.itemId = some proto)
    : (∃ drafts, (∀ sent, (row.id, sent) ∈ sources.sendMailsAsync rows ↔ sent = drafts)
        ∧ Delivers proto row drafts)
      ↔ row.itemCount ≤ MAX_MAIL_ITEMS * proto.getMaxStackSize := by
  obtain ⟨mail, asked⟩ := Option.isSome_iff_exists.mp accepted
  rw [← (split_of_request found asked).delivers_iff found]
  constructor
  · rintro ⟨drafts, sent, delivers⟩
    rwa [← (sent _).mp ((mem_sendMailsAsync distinct listed asked).mpr rfl)] at delivers
  · intro delivers
    exact ⟨_, fun _ => mem_sendMailsAsync distinct listed asked, delivers⟩

def singleItem : ItemTemplate where
  itemClass := 0
  subClass := 0
  inventoryType := 0
  stackable := 1
  maxCount := 0
  itemLimitCategory := 0
  bagFamily := 0
  containerSlots := 0
  stackable_lt := by decide
  containerSlots_le := by decide

def oneCharacter : ExternalSources where
  normalizePlayerName name := some name
  getCharacterGuidByName _ := 1
  getItemTemplate _ := some singleItem
  hasCreatureTemplate _ := true

def someItems (itemCount : Nat) : ExternalRow where
  id := 1
  playerName := "Thrall"
  subject := ""
  body := ""
  money := 5
  itemId := 1
  itemCount := itemCount
  creatureEntry := 1

theorem sendMailsAsync_delivers_iff_applied
    : (∃ drafts, (∀ sent, (1, sent) ∈ oneCharacter.sendMailsAsync [someItems 12] ↔ sent = drafts)
        ∧ Delivers singleItem (someItems 12) drafts)
      ↔ 12 ≤ MAX_MAIL_ITEMS * singleItem.getMaxStackSize :=
  sendMailsAsync_delivers_iff (by decide) (List.mem_singleton_self _) rfl rfl

/-- Thirteen items are sent in one mail. -/
theorem thirteen_items_in_one_mail
    : ¬ ∀ (sources : ExternalSources) (row : ExternalRow) (proto : ItemTemplate),
        (sources.request row).isSome = true →
        sources.getItemTemplate row.itemId = some proto →
        ∃ drafts, (∀ sent, (row.id, sent) ∈ sources.sendMailsAsync [row] ↔ sent = drafts)
          ∧ Delivers proto row drafts := by
  intro law
  obtain ⟨drafts, sent, delivers⟩ := law oneCharacter (someItems 13) singleItem rfl rfl
  obtain ⟨mail, asked⟩ : ∃ mail, oneCharacter.request (someItems 13) = some mail := ⟨_, rfl⟩
  have own := (sent _).mp
    ((mem_sendMailsAsync (by decide) (List.mem_singleton_self _) asked).mpr rfl)
  rw [← own, (split_of_request rfl asked).delivers_iff rfl] at delivers
  exact absurd delivers (by decide)

end WarheadCore.Mails
