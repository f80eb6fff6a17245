import FoundryLite.Library.Text

/-!
# Lists of quoted and bare items

A text that is a list of items between commas: an item is quoted, with space around it, or it is bare,
which is any text without a comma and without a quote. A quoted item may hold commas, and quotes of the
other kind.

A text has one reading at most (`reads_unique`), whether its items are what a reader expects of them or
not: a bare item may be blank.
-/

namespace QuotedList

def singleQuote : Char := Char.ofNat 39

def doubleQuote : Char := Char.ofNat 34

def isQuote (c : Char) : Bool := c == singleQuote || c == doubleQuote

/-- An item with the space around it. -/
inductive Item where
  | quoted (before : List Char) (quote : Char) (text after : List Char)
  | bare (text : List Char)

namespace Item

/-- The item as it stands in the list. -/
def render : Item → List Char
  | quoted before quote text after => before ++ quote :: (text ++ quote :: after)
  | bare text => text

/-- What the item says. -/
def value : Item → List Char
  | quoted _ _ text _ => text
  | bare text => Text.stripChars text

/-- The parts of the item are what they are read as. -/
def IsWritten : Item → Prop
  | quoted before quote text after => (∀ c ∈ before, Text.isSpace c = true) ∧ isQuote quote = true ∧
      quote ∉ text ∧ ∀ c ∈ after, Text.isSpace c = true
  | bare text => ',' ∉ text ∧ ∀ c ∈ text, isQuote c = false

/-- Nothing but space between two commas. -/
def IsBlank : Item → Prop
  | quoted _ _ _ _ => False
  | bare text => ∀ c ∈ text, Text.isSpace c = true

instance (item : Item) : Decidable item.IsBlank := by
  cases item with
  | quoted => exact inferInstanceAs (Decidable False)
  | bare text => exact inferInstanceAs (Decidable (∀ c ∈ text, Text.isSpace c = true))

end Item

/-- The items with commas between them. -/
def renderAll : List Item → List Char
  | [] => []
  | [item] => item.render
  | item :: items => item.render ++ ',' :: renderAll items

/-- The text is a list of these items. -/
structure Reads (raw : List Char) (items : List Item) : Prop where
  ne_nil : items ≠ []
  written : ∀ item ∈ items, item.IsWritten
  render : raw = renderAll items

/-- The text goes on behind the first item with a comma, or ends there. -/
def Ends (rest : List Char) : Prop := rest = [] ∨ ∃ more, rest = ',' :: more

theorem reads_cons {raw : List Char} {item : Item} {items : List Item} :
    Reads raw (item :: items) ↔ item.IsWritten ∧ (items = [] ∧ raw = item.render ∨
      ∃ more, Reads more items ∧ raw = item.render ++ ',' :: more) := by
  constructor
  · rintro ⟨-, hwritten, rfl⟩
    refine ⟨hwritten item List.mem_cons_self, ?_⟩
    cases items with
    | nil => exact .inl ⟨rfl, rfl⟩
    | cons next items =>
      exact .inr ⟨_, ⟨List.cons_ne_nil _ _, fun i hi => hwritten i (List.mem_cons_of_mem _ hi), rfl⟩,
        rfl⟩
  · rintro ⟨hitem, ⟨rfl, rfl⟩ | ⟨more, ⟨hne, hwritten, rfl⟩, rfl⟩⟩
    · exact ⟨List.cons_ne_nil _ _, by simpa using hitem, rfl⟩
    · refine ⟨List.cons_ne_nil _ _, List.forall_mem_cons.mpr ⟨hitem, hwritten⟩, ?_⟩
      cases items with
      | nil => exact absurd rfl hne
      | cons next items => rfl

/-! ### The first item of a text -/

/-- The item that a text begins with, if it has a reading. -/
def firstItem (raw : List Char) : Item :=
  match raw.dropWhile Text.isSpace with
  | quote :: rest =>
    if isQuote quote then
      .quoted (raw.takeWhile Text.isSpace) quote (rest.takeWhile (· != quote))
        (((rest.dropWhile (· != quote)).drop 1).takeWhile Text.isSpace)
    else .bare (raw.takeWhile (· != ','))
  | [] => .bare (raw.takeWhile (· != ','))

theorem isSpace_of_isQuote {c : Char} (h : isQuote c = true) : Text.isSpace c = false := by
  simp only [isQuote, Bool.or_eq_true, beq_iff_eq] at h
  rcases h with rfl | rfl <;> decide

theorem takeWhile_stop {p : Char → Bool} {l rest : List Char} (h : ∀ c ∈ l, p c = true)
    (hrest : ∀ c ∈ rest.head?, p c = false) : (l ++ rest).takeWhile p = l := by
  rw [List.takeWhile_append_of_pos h]
  cases rest with
  | nil => simp
  | cons c rest =>
    rw [List.takeWhile_cons_of_neg (by simp [hrest c rfl]), List.append_nil]

theorem dropWhile_stop {p : Char → Bool} {l rest : List Char} (h : ∀ c ∈ l, p c = true)
    (hrest : ∀ c ∈ rest.head?, p c = false) : (l ++ rest).dropWhile p = rest := by
  rw [List.dropWhile_append_of_pos h]
  cases rest with
  | nil => rfl
  | cons c rest => rw [List.dropWhile_cons_of_neg (by simp [hrest c rfl])]

theorem Ends.head {rest : List Char} (h : Ends rest) : ∀ c ∈ rest.head?, c = ',' := by
  rcases h with rfl | ⟨more, rfl⟩
  · simp
  · intro c hc
    exact (Option.some.inj hc).symm

/-- Space before an item goes away, and what follows the item stays. -/
theorem dropWhile_isSpace_append {text rest : List Char} (hrest : Ends rest) :
    (text ++ rest).dropWhile Text.isSpace = text.dropWhile Text.isSpace ++ rest := by
  rw [List.dropWhile_append]
  split_ifs with hblank
  · rw [List.isEmpty_iff.mp hblank, List.nil_append]
    rcases hrest with rfl | ⟨more, rfl⟩
    · rfl
    · exact List.dropWhile_cons_of_neg (by decide)
  · rfl

/-- What follows the space before a bare item is no quote. -/
theorem isQuote_head_of_bare {text rest : List Char} (htext : ∀ c ∈ text, isQuote c = false)
    (hrest : Ends rest) : ∀ c ∈ ((text ++ rest).dropWhile Text.isSpace).head?, isQuote c = false := by
  rw [dropWhile_isSpace_append hrest]
  intro c hc
  cases hdrop : text.dropWhile Text.isSpace with
  | nil =>
    rw [hdrop] at hc
    rw [hrest.head c hc]
    decide
  | cons d more =>
    rw [hdrop] at hc
    rw [← Option.some.inj hc]
    exact htext d ((List.dropWhile_suffix _).subset (hdrop ▸ List.mem_cons_self))

/-- The first item is read off the text. -/
theorem firstItem_render {item : Item} {rest : List Char} (h : item.IsWritten) (hrest : Ends rest) :
    firstItem (item.render ++ rest) = item := by
  cases item with
  | quoted before quote text after =>
    obtain ⟨hbefore, hquote, htext, hafter⟩ := h
    have hhead : ∀ more : List Char, ∀ c ∈ (quote :: more).head?, Text.isSpace c = false := by
      intro more c hc
      rw [← Option.some.inj hc]
      exact isSpace_of_isQuote hquote
    have hstop : ∀ more : List Char, ∀ c ∈ (quote :: more).head?, (c != quote) = false := by
      intro more c hc
      rw [← Option.some.inj hc]
      simp
    have htext' : ∀ c ∈ text, (c != quote) = true := by
      intro c hc
      exact bne_iff_ne.mpr fun heq => htext (heq ▸ hc)
    have hcomma : ∀ c ∈ rest.head?, Text.isSpace c = false := by
      intro c hc
      rw [hrest.head c hc]
      decide
    have hraw : (Item.quoted before quote text after).render ++ rest =
        before ++ quote :: (text ++ quote :: (after ++ rest)) := by
      simp [Item.render]
    rw [hraw, firstItem, dropWhile_stop hbefore (hhead _), takeWhile_stop hbefore (hhead _)]
    simp only [hquote, if_true]
    rw [takeWhile_stop htext' (hstop _), dropWhile_stop htext' (hstop _), List.drop_one, List.tail_cons,
      takeWhile_stop hafter hcomma]
  | bare text =>
    obtain ⟨hnone, hquote⟩ := h
    have hhead := isQuote_head_of_bare hquote hrest
    have htake : (text ++ rest).takeWhile (· != ',') = text := by
      refine takeWhile_stop (fun c hc => bne_iff_ne.mpr fun heq => hnone (heq ▸ hc)) ?_
      intro c hc
      rw [hrest.head c hc]
      decide
    rw [Item.render, firstItem, htake]
    cases hdrop : (text ++ rest).dropWhile Text.isSpace with
    | nil => rfl
    | cons c more =>
      rw [hdrop] at hhead
      simp [hhead c rfl]

/-- **A text is a list of items in one way at most.** -/
theorem reads_unique {raw : List Char} {items others : List Item} (h : Reads raw items)
    (hother : Reads raw others) : items = others := by
  induction items generalizing raw others with
  | nil => exact absurd rfl h.ne_nil
  | cons item items ih =>
    cases others with
    | nil => exact absurd rfl hother.ne_nil
    | cons other others =>
      obtain ⟨hitem, hrest⟩ := reads_cons.mp h
      obtain ⟨hotherItem, hotherRest⟩ := reads_cons.mp hother
      have hfirst : ∀ {item : Item} {items : List Item}, item.IsWritten →
          (items = [] ∧ raw = item.render ∨
            ∃ more, Reads more items ∧ raw = item.render ++ ',' :: more) →
          firstItem raw = item := by
        rintro item items hwritten (⟨-, rfl⟩ | ⟨more, -, rfl⟩)
        · have hend := firstItem_render hwritten (.inl rfl)
          rwa [List.append_nil] at hend
        · exact firstItem_render hwritten (.inr ⟨more, rfl⟩)
      obtain rfl : item = other := (hfirst hitem hrest).symm.trans (hfirst hotherItem hotherRest)
      congr 1
      rcases hrest with ⟨rfl, hraw⟩ | ⟨more, hmore, hraw⟩
      · rcases hotherRest with ⟨rfl, -⟩ | ⟨more, -, hmoreRaw⟩
        · rfl
        · have hnil : ',' :: more = [] := List.append_right_eq_self.mp (hmoreRaw.symm.trans hraw)
          cases hnil
      · rcases hotherRest with ⟨rfl, hend⟩ | ⟨moreOther, hmoreOther, hmoreRaw⟩
        · have hnil : ',' :: more = [] := List.append_right_eq_self.mp (hraw.symm.trans hend)
          cases hnil
        · obtain rfl : more = moreOther :=
            (List.cons.inj (List.append_cancel_left (hraw.symm.trans hmoreRaw))).2
          exact ih hmore hmoreOther

end QuotedList
