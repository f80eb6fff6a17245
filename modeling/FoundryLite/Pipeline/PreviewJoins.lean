import FoundryLite.Library.RelationalJoin
import FoundryLite.Pipeline.SecurityEnvelopes

/-!
# The join of a pipeline preview

A preview joins two lists of rows in a loop over the left rows and remembers the positions of the
right rows it has matched. A row is matched when its key value equals the left one in the sense of
the language, and the row made of two rows carries, whole, the security envelope of the one whose
classification is the stronger.

The join it previews is `ON left.key = right.key` (`sqlMatches`), where a missing value equals
nothing, and `SELECT *` keeps the columns of both sides. Here two missing values are equal:
`left_row.get(left_key) == row.get(right_key)` compares `None` with `None`; of a column that both sides
have, the right one's value is kept. And an envelope chosen by its classification alone says nothing about the other
fields of the envelope it displaces.

## Main results

* `joinRows_eq_map_joinSources`: the rows, by what they were built from.
* `joinRows_isSqlJoin_iff`: exactly when they are the relational join with safe envelopes.
-/

namespace FoundryLite.Pipeline.PreviewJoin

open SecurityEnvelope Join

/-- A preview row, read by column. -/
abbrev Row := Dict String Json

namespace Row

/-- `dict.get`. -/
def get (row : Row) (key : String) : Json := (row.get? key).getD .null

/-- A value that is a mapping. -/
def asMapping : Json → Option Mapping
  | .obj fields => some fields
  | _ => none

def envelope (row : Row) : Option Mapping := asMapping (row.get "securityEnvelope")

/-- The row without its envelope. -/
def columns (row : Row) : Row := row.erase "securityEnvelope"

end Row

/-! ### The source -/

inductive JoinType where
  | inner
  | left
  | right
  | fullOuter
  deriving DecidableEq

/-- The text of a join type in the configuration of a node. -/
def JoinType.text : JoinType → String
  | inner => "inner"
  | left => "left"
  | right => "right"
  | fullOuter => "full outer"

variable (env : LabelText)

/-- Whether `_stronger_security_envelope` takes the left one: its classification is unknown, or the
right one is known and not stronger. -/
def prefersLeft (left right : Mapping) : Bool :=
  match classificationRank env (fieldOf left "classification"),
    classificationRank env (fieldOf right "classification") with
  | none, _ => true
  | some _, none => false
  | some leftRank, some rightRank => rightRank ≤ leftRank

def strongerSecurityEnvelope (left right : Json) : Option Mapping :=
  match Row.asMapping left, Row.asMapping right with
  | none, rightEnv => rightEnv
  | some leftEnv, none => some leftEnv
  | some leftEnv, some rightEnv =>
    some (if prefersLeft env leftEnv rightEnv then leftEnv else rightEnv)

def mergedJoinRow (leftRow rightRow : Row) : Row :=
  let merged := leftRow.update rightRow
  match strongerSecurityEnvelope env (leftRow.get "securityEnvelope")
      (rightRow.get "securityEnvelope") with
  | some envelope => merged.insert "securityEnvelope" (.obj envelope)
  | none => merged.erase "securityEnvelope"

def keysMatch (leftKey rightKey : String) (leftRow rightRow : Row) : Bool :=
  Json.PyEq (leftRow.get leftKey) (rightRow.get rightKey)

/-- One turn of the loop over the left rows: the rows so far, and the matched positions. -/
def joinLeftRow (right : List Row) (leftKey rightKey joinType : String)
    (state : List Row × List ℕ) (leftRow : Row) : List Row × List ℕ :=
  let hits := right.zipIdx.filter fun entry => keysMatch leftKey rightKey leftRow entry.1
  let padded := if hits.isEmpty && joinType ∈ ["left", "full outer"] then [leftRow] else []
  (state.1 ++ hits.map (fun entry => mergedJoinRow env leftRow entry.1) ++ padded,
    state.2 ++ hits.map Prod.snd)

def leftJoinRows (left right : List Row) (leftKey rightKey joinType : String) :
    List Row × List ℕ :=
  left.foldl (joinLeftRow env right leftKey rightKey joinType) ([], [])

def joinRows (left right : List Row) (leftKey rightKey joinType : String) : List Row :=
  let (rows, matchedRight) := leftJoinRows env left right leftKey rightKey joinType
  if joinType ∈ ["right", "full outer"] then
    rows ++ (right.zipIdx.filter fun entry => entry.2 ∉ matchedRight).map Prod.fst
  else rows

/-! ### What the rows were built from -/

def JoinType.keepsLeft : JoinType → Bool
  | left | fullOuter => true
  | inner | right => false

def JoinType.keepsRight : JoinType → Bool
  | right | fullOuter => true
  | inner | left => false

/-- The row the loop makes of what it was built from. -/
def built : Pairing Row Row → Row
  | .both leftRow rightRow => mergedJoinRow env leftRow rightRow
  | .left row => row
  | .right row => row

def joinSources (left right : List Row) (leftKey rightKey : String) (type : JoinType) :
    List (Pairing Row Row) :=
  nested (keysMatch leftKey rightKey) type.keepsLeft type.keepsRight left right

variable {env} {left right : List Row} {leftKey rightKey : String} {type : JoinType}

theorem map_fst_filter_zipIdx (p : Row → Bool) (rows : List Row) (n : ℕ) :
    ((rows.zipIdx n).filter fun entry => p entry.1).map Prod.fst = rows.filter p := by
  induction rows generalizing n with
  | nil => rfl
  | cons row rows ih => cases h : p row <;> simp [h, ih]

theorem mem_keepsLeft : (decide (type.text ∈ ["left", "full outer"])) = type.keepsLeft := by
  cases type <;> decide

theorem mem_keepsRight : type.text ∈ ["right", "full outer"] ↔ type.keepsRight = true := by
  cases type <;> decide

/-- The pairings one left row gives rise to. -/
def leftPairings (right : List Row) (leftKey rightKey : String) (type : JoinType) (row : Row) :
    List (Pairing Row Row) :=
  (right.filter (keysMatch leftKey rightKey row)).map (Pairing.both row) ++
    if (right.filter (keysMatch leftKey rightKey row)).isEmpty && type.keepsLeft
    then [Pairing.left row] else []

/-- The positions one left row matches. -/
def leftPositions (right : List Row) (leftKey rightKey : String) (row : Row) : List ℕ :=
  (right.zipIdx.filter fun entry => keysMatch leftKey rightKey row entry.1).map Prod.snd

theorem joinLeftRow_eq (state : List Row × List ℕ) (row : Row) :
    joinLeftRow env right leftKey rightKey type.text state row =
      (state.1 ++ (leftPairings right leftKey rightKey type row).map (built env),
        state.2 ++ leftPositions right leftKey rightKey row) := by
  have hhits := map_fst_filter_zipIdx (keysMatch leftKey rightKey row) right 0
  rw [joinLeftRow, leftPairings, leftPositions, ← hhits, mem_keepsLeft, List.isEmpty_map]
  cases (right.zipIdx.filter fun entry => keysMatch leftKey rightKey row entry.1).isEmpty &&
    type.keepsLeft <;> simp [built]

theorem foldl_joinLeftRow (left : List Row) (state : List Row × List ℕ) :
    left.foldl (joinLeftRow env right leftKey rightKey type.text) state =
      (state.1 ++ (left.flatMap (leftPairings right leftKey rightKey type)).map (built env),
        state.2 ++ left.flatMap (leftPositions right leftKey rightKey)) := by
  induction left generalizing state with
  | nil => simp
  | cons row left ih =>
    rw [List.foldl_cons, ih, joinLeftRow_eq, List.flatMap_cons, List.flatMap_cons, List.map_append,
      List.append_assoc, List.append_assoc]

/-- A position is matched when the row there is. -/
theorem mem_flatMap_leftPositions {row : Row} {position : ℕ}
    (h : (row, position) ∈ right.zipIdx) :
    position ∈ left.flatMap (leftPositions right leftKey rightKey) ↔
      (left.any fun leftRow => keysMatch leftKey rightKey leftRow row) = true := by
  have hat : right[position]? = some row := List.mem_zipIdx_iff_getElem?.mp h
  simp only [List.mem_flatMap, leftPositions, List.mem_map, List.mem_filter, List.any_eq_true]
  constructor
  · rintro ⟨leftRow, hleft, ⟨row', position'⟩, ⟨hmem, hmatch⟩, rfl⟩
    have heq : right[position']? = some row' := List.mem_zipIdx_iff_getElem?.mp hmem
    rw [hat, Option.some.injEq] at heq
    exact ⟨leftRow, hleft, heq ▸ hmatch⟩
  · rintro ⟨leftRow, hleft, hmatch⟩
    exact ⟨leftRow, hleft, (row, position), ⟨h, hmatch⟩, rfl⟩

/-- The right rows at positions that were not matched are those that nothing matches. -/
theorem unmatched_eq_loneRight :
    (right.zipIdx.filter fun entry =>
      entry.2 ∉ left.flatMap (leftPositions right leftKey rightKey)).map Prod.fst =
      loneRight (keysMatch leftKey rightKey) left right := by
  rw [loneRight, ← map_fst_filter_zipIdx _ right 0]
  refine congrArg _ (List.filter_congr fun entry hentry => ?_)
  rw [decide_not]
  refine congrArg _ (Bool.eq_iff_iff.mpr ?_)
  rw [decide_eq_true_iff]
  exact mem_flatMap_leftPositions hentry

/-- **The rows of the join** are made of the pairings of the loop. -/
theorem joinRows_eq_map_joinSources : joinRows env left right leftKey rightKey type.text =
    (joinSources left right leftKey rightKey type).map (built env) := by
  rw [joinRows, leftJoinRows, foldl_joinLeftRow]
  dsimp only
  rw [List.nil_append, List.nil_append, unmatched_eq_loneRight, joinSources, nested, List.map_append]
  change _ = (left.flatMap (leftPairings right leftKey rightKey type)).map (built env) ++ _
  by_cases hkeeps : type.keepsRight = true
  · rw [if_pos (mem_keepsRight.mpr hkeeps), hkeeps, kept, if_pos rfl, List.map_map]
    exact congrArg _ (List.map_id _).symm
  · rw [if_neg (mt mem_keepsRight.mp hkeeps), kept, if_neg hkeeps, List.map_nil, List.map_nil,
      List.append_nil]

/-! ### The relational join -/

/-- `ON left.key = right.key`: a missing value, or a null, equals nothing. -/
def sqlMatches (leftKey rightKey : String) (leftRow rightRow : Row) : Bool :=
  leftRow.get leftKey ≠ .null && rightRow.get rightKey ≠ .null &&
    keysMatch leftKey rightKey leftRow rightRow

/-- `SELECT *`: a row of the join has the columns of both rows that it is built from, or those of the
one there is. -/
def sqlJoin (left right : List Row) (leftKey rightKey : String) (type : JoinType) :
    List (Pairing Row Row) :=
  outer (sqlMatches leftKey rightKey) type.keepsLeft type.keepsRight left right

/-- The rows agree in every column of the data that both have. The envelope is none. -/
def SharedAgree (leftRow rightRow : Row) : Prop :=
  ∀ column leftValue rightValue, leftRow.columns.get? column = some leftValue →
    rightRow.columns.get? column = some rightValue → leftValue = rightValue

/-- A row with one value for each column shows a row of the join: it has every value that one of the
sides has, and no others. -/
def Shows (row : Row) : Pairing Row Row → Prop
  | .both leftRow rightRow => ∀ column,
    (∀ value, leftRow.columns.get? column = some value → row.get? column = some value) ∧
    (∀ value, rightRow.columns.get? column = some value → row.get? column = some value) ∧
    ((row.get? column).isSome →
      (leftRow.columns.get? column).isSome ∨ (rightRow.columns.get? column).isSome)
  | .left leftRow => row = leftRow.columns
  | .right rightRow => row = rightRow.columns

/-- The columns of a row of the preview: the right one's where both rows have a column. -/
def joinedColumns : Pairing Row Row → Row
  | .both leftRow rightRow => Row.columns (leftRow.update rightRow)
  | .left row => row.columns
  | .right row => row.columns

/-- The rows a row of the join was built from. -/
def origins : Pairing Row Row → List Row
  | .both leftRow rightRow => [leftRow, rightRow]
  | .left row => [row]
  | .right row => [row]

/-- The rows are the relational join, and no row is less restricted than a row it was built from. -/
structure IsSqlJoin (env : LabelText) (left right : List Row) (leftKey rightKey : String)
    (type : JoinType) : Prop where
  rows : ∃ rows, rows.Perm (sqlJoin left right leftKey rightKey type) ∧
    List.Forall₂ Shows ((joinRows env left right leftKey rightKey type.text).map Row.columns) rows
  envelopes : ∀ source ∈ joinSources left right leftKey rightKey type,
    ∀ origin ∈ origins source, ∀ envelope ∈ origin.envelope,
      ∃ joined ∈ (built env source).envelope, Covers env joined envelope

def lacksKey (key : String) (row : Row) : Bool := row.get key = .null

/-- The envelope that is taken restricts what the other one does: it covers the other fields, and
two unknown labels are the same one. -/
def IsSafeChoice (env : LabelText) (left right : Mapping) : Prop :=
  (if prefersLeft env left right then CoversElsewhere env left right
    else CoversElsewhere env right left) ∧
  (classificationRank env (fieldOf left "classification") = none →
    classificationRank env (fieldOf right "classification") = none →
    normalizeClassification env (fieldOf left "classification") =
      normalizeClassification env (fieldOf right "classification"))

/-- When a preview join is safe: rows without a key do not show, rows that match agree in the columns
that both have, and of two envelopes that meet, the one that is taken restricts what the other does. -/
structure JoinsSafely (env : LabelText) (left right : List Row) (leftKey rightKey : String)
    (type : JoinType) : Prop where
  nulls : MarkedAgree joinedColumns type.keepsLeft type.keepsRight (lacksKey leftKey)
    (lacksKey rightKey) left right
  shared : ∀ leftRow ∈ left, ∀ rightRow ∈ right, sqlMatches leftKey rightKey leftRow rightRow →
    SharedAgree leftRow rightRow
  envelopes : ∀ leftRow ∈ left, ∀ rightRow ∈ right, keysMatch leftKey rightKey leftRow rightRow →
    ∀ leftEnv ∈ leftRow.envelope, ∀ rightEnv ∈ rightRow.envelope, IsSafeChoice env leftEnv rightEnv

theorem norm_eq_null_iff {value : Json} : Json.norm .python value = .null ↔ value = .null := by
  cases value <;> simp [Json.norm]

theorem pyEq_null_left_iff {value : Json} : Json.PyEq .null value ↔ value = .null :=
  eq_comm.trans norm_eq_null_iff

theorem pyEq_null_right_iff {value : Json} : Json.PyEq value .null ↔ value = .null :=
  norm_eq_null_iff

/-- Matching as the preview does is matching as the database does, and two missing keys. -/
theorem isLoosened_keysMatch : IsLoosened (sqlMatches leftKey rightKey)
    (keysMatch leftKey rightKey) (lacksKey leftKey) (lacksKey rightKey) where
  loose_iff leftRow rightRow := by
    by_cases hleft : leftRow.get leftKey = .null
    · simp [sqlMatches, lacksKey, keysMatch, hleft, pyEq_null_left_iff]
    · by_cases hright : rightRow.get rightKey = .null
      · simp [sqlMatches, lacksKey, keysMatch, hleft, hright, pyEq_null_right_iff]
      · simp [sqlMatches, lacksKey, hleft, hright]
  left leftRow rightRow h := by
    simp only [sqlMatches, Bool.and_eq_true, decide_eq_true_eq] at h
    simp [lacksKey, h.1.1]
  right leftRow rightRow h := by
    simp only [sqlMatches, Bool.and_eq_true, decide_eq_true_eq] at h
    simp [lacksKey, h.1.2]

theorem columns_insert (row : Row) (value : Json) :
    Row.columns (row.insert "securityEnvelope" value) = row.columns := by
  refine Dict.ext_get? fun key => ?_
  rw [Row.columns, Row.columns, Dict.get?_erase, Dict.get?_erase, Dict.get?_insert]
  split <;> simp_all

theorem columns_erase (row : Row) : Row.columns (row.erase "securityEnvelope") = row.columns := by
  refine Dict.ext_get? fun key => ?_
  rw [Row.columns, Row.columns, Dict.get?_erase, Dict.get?_erase]
  split <;> simp_all

@[simp]
theorem columns_built (source : Pairing Row Row) : (built env source).columns =
    joinedColumns source := by
  cases source with
  | both leftRow rightRow =>
    rw [built, mergedJoinRow, joinedColumns]
    cases strongerSecurityEnvelope env (leftRow.get "securityEnvelope")
        (rightRow.get "securityEnvelope") with
    | some envelope => exact columns_insert _ _
    | none => exact columns_erase _
  | left row => rfl
  | right row => rfl

theorem columns_update_get? (leftRow rightRow : Row) (column : String) :
    (Row.columns (leftRow.update rightRow)).get? column =
      (rightRow.columns.get? column).or (leftRow.columns.get? column) := by
  simp only [Row.columns, Dict.get?_erase, Dict.get?_update]
  split_ifs <;> rfl

/-- One value for a column is enough where the sides agree, and then it is the one of the preview. -/
theorem shows_iff {row : Row} {source : Pairing Row Row} : Shows row source ↔
    row = joinedColumns source ∧
      ∀ leftRow rightRow, source = .both leftRow rightRow → SharedAgree leftRow rightRow := by
  cases source with
  | both leftRow rightRow =>
    constructor
    · intro h
      refine ⟨Dict.ext_get? fun column => ?_, ?_⟩
      · rw [joinedColumns, columns_update_get?]
        obtain ⟨hleft, hright, hnone⟩ := h column
        cases hr : rightRow.columns.get? column with
        | some value => exact hright value hr
        | none =>
          cases hl : leftRow.columns.get? column with
          | some value => exact hleft value hl
          | none => simpa [hl, hr] using hnone
      · rintro _ _ ⟨⟩ column leftValue rightValue hl hr
        obtain ⟨hleft, hright, -⟩ := h column
        exact Option.some.inj ((hleft leftValue hl).symm.trans (hright rightValue hr))
    · rintro ⟨rfl, hagree⟩ column
      rw [joinedColumns, columns_update_get?]
      cases hr : rightRow.columns.get? column with
      | none => simp
      | some value =>
        exact ⟨fun other hl => by rw [hagree _ _ rfl column other value hl hr]; rfl, by simp, by simp⟩
  | left row => simp [Shows, joinedColumns]
  | right row => simp [Shows, joinedColumns]

theorem forall₂_shows_iff {rows : List Row} {sources : List (Pairing Row Row)} :
    List.Forall₂ Shows rows sources ↔ rows = sources.map joinedColumns ∧
      ∀ leftRow rightRow, .both leftRow rightRow ∈ sources → SharedAgree leftRow rightRow := by
  simp only [List.forall₂_iff_get, shows_iff]
  constructor
  · rintro ⟨hlength, hall⟩
    refine ⟨List.ext_getElem (by simpa using hlength) fun i hi _ => ?_, fun leftRow rightRow hmem => ?_⟩
    · simpa using (hall i hi (hlength ▸ hi)).1
    · obtain ⟨i, hi, heq⟩ := List.getElem_of_mem hmem
      exact (hall i (hlength ▸ hi) hi).2 leftRow rightRow heq
  · rintro ⟨rfl, hall⟩
    refine ⟨by simp, fun i _ hi => ⟨by simp, fun leftRow rightRow heq => ?_⟩⟩
    exact hall leftRow rightRow (heq ▸ List.getElem_mem hi)

theorem mem_outer_both {on : Row → Row → Bool} {keepLeft keepRight : Bool} {leftRow rightRow : Row} :
    Pairing.both leftRow rightRow ∈ outer on keepLeft keepRight left right ↔
      leftRow ∈ left ∧ rightRow ∈ right ∧ on leftRow rightRow = true := by
  simp only [outer, matched, List.mem_append, List.mem_flatMap, List.mem_map, List.mem_filter]
  constructor
  · rintro (⟨row, hrow, row', ⟨hrow', hmatch⟩, heq⟩ | ⟨row, -, heq⟩ | ⟨row, -, heq⟩)
    · obtain ⟨rfl, rfl⟩ := Pairing.both.inj heq
      exact ⟨hrow, hrow', hmatch⟩
    · cases heq
    · cases heq
  · rintro ⟨hleft, hright, hmatch⟩
    exact .inl ⟨leftRow, hleft, rightRow, ⟨hright, hmatch⟩, rfl⟩

/-- The rows show those of the relational join exactly when rows without a key do not show and rows
that match agree in the columns that both have. -/
theorem rows_iff : (∃ rows, rows.Perm (sqlJoin left right leftKey rightKey type) ∧
      List.Forall₂ Shows ((joinRows env left right leftKey rightKey type.text).map Row.columns)
        rows) ↔
    MarkedAgree joinedColumns type.keepsLeft type.keepsRight (lacksKey leftKey)
        (lacksKey rightKey) left right ∧
      ∀ leftRow ∈ left, ∀ rightRow ∈ right, sqlMatches leftKey rightKey leftRow rightRow →
        SharedAgree leftRow rightRow := by
  have hrows : (joinRows env left right leftKey rightKey type.text).map Row.columns =
      (joinSources left right leftKey rightKey type).map joinedColumns := by
    rw [joinRows_eq_map_joinSources, List.map_map]
    exact congrArg (List.map · _) (funext columns_built)
  have hperm : ((joinSources left right leftKey rightKey type).map joinedColumns).Perm
      ((sqlJoin left right leftKey rightKey type).map joinedColumns) ↔ _ :=
    (perm_congr (outer_nested.map _) (.refl _)).trans
      (isLoosened_keysMatch.map_outer_perm_iff joinedColumns)
  simp only [hrows, forall₂_shows_iff, ← hperm]
  constructor
  · rintro ⟨rows, hsame, heq, hagree⟩
    refine ⟨heq ▸ hsame.map _, fun leftRow hleft rightRow hright hmatch => ?_⟩
    exact hagree leftRow rightRow (hsame.mem_iff.mpr (mem_outer_both.mpr ⟨hleft, hright, hmatch⟩))
  · rintro ⟨hsame, hagree⟩
    obtain ⟨rows, heq, hrows⟩ := List.perm_comp_forall₂ hsame
      (List.forall₂_map_left_iff.mpr (List.forall₂_same.mpr fun source _ => rfl) :
        List.Forall₂ (fun row source => row = joinedColumns source) _ _)
    rw [← List.forall₂_map_right_iff, List.forall₂_eq_eq_eq] at heq
    refine ⟨rows, hrows, heq, fun leftRow rightRow hmem => ?_⟩
    obtain ⟨hleft, hright, hmatch⟩ := mem_outer_both.mp (hrows.mem_iff.mp hmem)
    exact hagree leftRow hleft rightRow hright hmatch

/-! ### Envelopes -/

theorem prefersLeft_iff {left right : Mapping} : prefersLeft env left right = true ↔
    classificationRank env (fieldOf left "classification") = none ∨
      ∃ leftRank rightRank, classificationRank env (fieldOf left "classification") = some leftRank ∧
        classificationRank env (fieldOf right "classification") = some rightRank ∧
        rightRank ≤ leftRank := by
  rw [prefersLeft]
  cases classificationRank env (fieldOf left "classification") with
  | none => simp
  | some leftRank =>
    cases classificationRank env (fieldOf right "classification") with
    | none => simp
    | some rightRank => simp

theorem envelope_mergedJoinRow (leftRow rightRow : Row) :
    (mergedJoinRow env leftRow rightRow).envelope =
      strongerSecurityEnvelope env (leftRow.get "securityEnvelope")
        (rightRow.get "securityEnvelope") := by
  rw [mergedJoinRow]
  cases strongerSecurityEnvelope env (leftRow.get "securityEnvelope")
      (rightRow.get "securityEnvelope") with
  | some envelope => simp [Row.envelope, Row.get, Row.asMapping, Dict.get?_insert]
  | none => simp [Row.envelope, Row.get, Row.asMapping, Dict.get?_erase]

/-- The envelope of a merged row, by those of the two rows. -/
theorem strongerSecurityEnvelope_get (leftRow rightRow : Row) :
    strongerSecurityEnvelope env (leftRow.get "securityEnvelope")
      (rightRow.get "securityEnvelope") =
    match leftRow.envelope, rightRow.envelope with
    | none, rightEnv => rightEnv
    | some leftEnv, none => some leftEnv
    | some leftEnv, some rightEnv =>
      some (if prefersLeft env leftEnv rightEnv then leftEnv else rightEnv) := rfl

/-- The taken classification is at least the other one, unless both labels are unknown. -/
theorem atLeast_of_prefersLeft {leftEnv rightEnv : Mapping}
    (hprefers : prefersLeft env leftEnv rightEnv = true) :
    AtLeast env (fieldOf leftEnv "classification") (fieldOf rightEnv "classification") ↔
      (classificationRank env (fieldOf leftEnv "classification") = none →
        classificationRank env (fieldOf rightEnv "classification") = none →
        normalizeClassification env (fieldOf leftEnv "classification") =
          normalizeClassification env (fieldOf rightEnv "classification")) := by
  rw [AtLeast]
  rcases prefersLeft_iff.mp hprefers with hnone | ⟨leftRank, rightRank, hleft, hright, hle⟩
  · rw [hnone]
    cases classificationRank env (fieldOf rightEnv "classification") <;> simp
  · simp [hleft, hright, hle]

theorem atLeast_of_not_prefersLeft {leftEnv rightEnv : Mapping}
    (hprefers : ¬ prefersLeft env leftEnv rightEnv = true) :
    AtLeast env (fieldOf rightEnv "classification") (fieldOf leftEnv "classification") := by
  rw [prefersLeft_iff] at hprefers
  push Not at hprefers
  obtain ⟨hknown, hranks⟩ := hprefers
  obtain ⟨leftRank, hleft⟩ := Option.ne_none_iff_exists'.mp hknown
  rw [AtLeast, hleft]
  cases hright : classificationRank env (fieldOf rightEnv "classification") with
  | none => trivial
  | some rightRank => exact (hranks leftRank rightRank hleft hright).le

/-- The envelope that is taken covers both exactly when it is a safe choice. -/
theorem covers_taken_iff {leftEnv rightEnv : Mapping} :
    (Covers env (if prefersLeft env leftEnv rightEnv then leftEnv else rightEnv) leftEnv ∧
      Covers env (if prefersLeft env leftEnv rightEnv then leftEnv else rightEnv) rightEnv) ↔
      IsSafeChoice env leftEnv rightEnv := by
  rw [IsSafeChoice]
  by_cases hprefers : prefersLeft env leftEnv rightEnv = true
  · rw [if_pos hprefers, if_pos hprefers, ← atLeast_of_prefersLeft hprefers]
    exact ⟨fun h => ⟨h.2.elsewhere, h.2.classification⟩, fun h => ⟨.refl _, h.2, h.1⟩⟩
  · rw [if_neg hprefers, if_neg hprefers]
    refine ⟨fun h => ⟨h.1.elsewhere, fun hnone => ?_⟩, fun h =>
      ⟨⟨atLeast_of_not_prefersLeft hprefers, h.1⟩, .refl _⟩⟩
    exact absurd (prefersLeft_iff.mpr (.inl hnone)) hprefers

/-- A row made of two rows restricts what they do exactly when their envelopes, if both have one,
are a safe choice. -/
theorem covers_merged_iff {leftRow rightRow : Row} :
    (∀ origin ∈ [leftRow, rightRow], ∀ envelope ∈ origin.envelope,
      ∃ joined ∈ (mergedJoinRow env leftRow rightRow).envelope, Covers env joined envelope) ↔
    ∀ leftEnv ∈ leftRow.envelope, ∀ rightEnv ∈ rightRow.envelope,
      IsSafeChoice env leftEnv rightEnv := by
  rw [envelope_mergedJoinRow, strongerSecurityEnvelope_get]
  cases hleft : leftRow.envelope with
  | none =>
    cases hright : rightRow.envelope with
    | none => simp [hleft, hright]
    | some rightEnv => simp [hleft, hright, Covers.refl]
  | some leftEnv =>
    cases hright : rightRow.envelope with
    | none => simp [hleft, hright, Covers.refl]
    | some rightEnv => simp [hleft, hright, covers_taken_iff]

theorem mem_joinSources_both {leftRow rightRow : Row} :
    Pairing.both leftRow rightRow ∈ joinSources left right leftKey rightKey type ↔
      leftRow ∈ left ∧ rightRow ∈ right ∧ keysMatch leftKey rightKey leftRow rightRow = true := by
  rw [joinSources, outer_nested.mem_iff, mem_outer_both]

/-- Every row is as restricted as those it was built from exactly when every choice between two
envelopes is safe. -/
theorem envelopes_iff : (∀ source ∈ joinSources left right leftKey rightKey type,
      ∀ origin ∈ origins source, ∀ envelope ∈ origin.envelope,
        ∃ joined ∈ (built env source).envelope, Covers env joined envelope) ↔
    ∀ leftRow ∈ left, ∀ rightRow ∈ right, keysMatch leftKey rightKey leftRow rightRow →
      ∀ leftEnv ∈ leftRow.envelope, ∀ rightEnv ∈ rightRow.envelope,
        IsSafeChoice env leftEnv rightEnv := by
  constructor
  · intro h leftRow hleft rightRow hright hmatch
    exact covers_merged_iff.mp (h _ (mem_joinSources_both.mpr ⟨hleft, hright, hmatch⟩))
  · intro h source hsource
    cases source with
    | both leftRow rightRow =>
      obtain ⟨hleft, hright, hmatch⟩ := mem_joinSources_both.mp hsource
      exact covers_merged_iff.mpr (h leftRow hleft rightRow hright hmatch)
    | left row =>
      intro origin horigin envelope henvelope
      exact ⟨envelope, List.mem_singleton.mp horigin ▸ henvelope, .refl _⟩
    | right row =>
      intro origin horigin envelope henvelope
      exact ⟨envelope, List.mem_singleton.mp horigin ▸ henvelope, .refl _⟩

/-- **The preview join is the relational join** with safe envelopes exactly when rows without a key
do not show, rows that match agree in the columns that both have, and every choice between two
envelopes is safe. -/
theorem joinRows_isSqlJoin_iff (env : LabelText) (left right : List Row) (leftKey rightKey : String)
    (type : JoinType) : IsSqlJoin env left right leftKey rightKey type ↔
      JoinsSafely env left right leftKey rightKey type :=
  ⟨fun h => ⟨(rows_iff.mp h.rows).1, (rows_iff.mp h.rows).2, envelopes_iff.mp h.envelopes⟩,
    fun h => ⟨rows_iff.mpr ⟨h.nulls, h.shared⟩, envelopes_iff.mpr h.envelopes⟩⟩

/-- **The rows of an inner join** show those of the relational join exactly when one of the sides has
the key in every row, and rows that match agree in the columns that both have. -/
theorem inner_rows_iff :
    (∃ rows, rows.Perm (sqlJoin left right leftKey rightKey .inner) ∧ List.Forall₂ Shows
        ((joinRows env left right leftKey rightKey JoinType.inner.text).map Row.columns) rows) ↔
      (left.any (lacksKey leftKey) = false ∨ right.any (lacksKey rightKey) = false) ∧
        ∀ leftRow ∈ left, ∀ rightRow ∈ right, sqlMatches leftKey rightKey leftRow rightRow →
          SharedAgree leftRow rightRow :=
  rows_iff.trans (and_congr_left' markedAgree_inner_iff)

/-- Label text in which only ASCII letters have a case, and no value has a text of its own. -/
def asciiLabels : LabelText where
  repr _ := ""
  digest _ := ""
  upper text := String.ofList (text.toList.map Char.toUpper)

/-- **Two rows without a key meet**: an inner join that the database leaves empty has a row. -/
theorem joinRows_null_keys : ¬ IsSqlJoin asciiLabels [Dict.ofList [("k", .null)]]
    [Dict.ofList [("k", .null)]] "k" "k" .inner := by
  intro h
  obtain ⟨rows, hrows, hshows⟩ := h.rows
  have hjoin := hshows.length_eq.trans hrows.length_eq
  revert hjoin
  decide +kernel

end FoundryLite.Pipeline.PreviewJoin
