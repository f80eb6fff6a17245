import FoundryLite.Serialiser
import FoundryLite.Library.Text

/-!
# Security envelopes and the order on them

An envelope is the governance record that travels with a row. Its classification is a label of a
lattice of four levels, where an unknown label counts as at least as strong as any known one. The
other fields that a check of the program reads are the tenant and the retention policy, which are
kept or lost, the policy versions, principal sets and markings, of which more is stricter, and the
legal hold with the modes under which holds and principal sets are read.

`Covers` is the order these checks give: field by field, one envelope is at least as restrictive as
the other. It is reflexive (`Covers.refl`) and not total.
-/

namespace FoundryLite.Pipeline.SecurityEnvelope

open Text

/-- The text forms of values, with `str.upper`. -/
structure LabelText extends Serialiser where
  upper : String → String

/-- `CLASSIFICATION_RANKS`: each level with the two names it may have. -/
def classificationRanks : List (String × ℕ) :=
  [("UNCLASSIFIED", 0), ("PUBLIC", 0), ("INTERNAL", 1), ("CONFIDENTIAL", 2), ("SECRET", 3),
    ("RESTRICTED", 3)]

/-- `dict.get` of a mapping. -/
def fieldOf (envelope : Mapping) (name : String) : Json := (envelope.lookup name).getD .null

variable (env : LabelText)

def normalizeClassification : Json → String
  | .str value => if strip value = "" then "UNCLASSIFIED" else env.upper (strip value)
  | _ => "UNCLASSIFIED"

def classificationRank (value : Json) : Option ℕ :=
  classificationRanks.lookup (normalizeClassification env value)

/-- `_text_values`: what a scalar field and a list field say together, in no order. -/
def textValues (envelope : Mapping) (scalarField : Option String) (listField : String) :
    List String :=
  let scalars := match scalarField.map (fieldOf envelope) with
    | some (.str value) => [strip value]
    | _ => []
  let listed := match fieldOf envelope listField with
    | .arr items => items.map fun item => strip (env.str item)
    | _ => []
  (scalars ++ listed).filter (· ≠ "")

/-- The fields that name what an envelope belongs to. -/
def identityFields : List String := ["tenantId", "retentionPolicyId"]

/-- The fields of which more is stricter. -/
def textFields : List (Option String × String) :=
  [(some "policyVersion", "policyVersions"),
    (some "allowedPrincipalSetId", "allowedPrincipalSetIds"), (none, "markings")]

/-- The fields that say how others are read, with the strict reading. -/
def modeFields : List (String × String) :=
  [("principalSetMode", "all_required"), ("legalHoldMode", "sticky")]

/-- Label by label: known labels by rank, and an unknown one above every known one. -/
def AtLeast (stronger weaker : Json) : Prop :=
  match classificationRank env stronger, classificationRank env weaker with
  | some rank, some rank' => rank' ≤ rank
  | none, some _ => True
  | some _, none => False
  | none, none => normalizeClassification env stronger = normalizeClassification env weaker

/-- At least as restrictive in every field but the classification. -/
structure CoversElsewhere (stronger weaker : Mapping) : Prop where
  identity : ∀ name ∈ identityFields, fieldOf weaker name = .null ∨
    Json.PyEq (fieldOf stronger name) (fieldOf weaker name)
  texts : ∀ names ∈ textFields, ∀ text ∈ textValues env weaker names.1 names.2,
    text ∈ textValues env stronger names.1 names.2
  hold : (fieldOf weaker "hasLegalHold").isTruthy → (fieldOf stronger "hasLegalHold").isTruthy
  modes : ∀ mode ∈ modeFields, fieldOf weaker mode.1 = .str mode.2 →
    fieldOf stronger mode.1 = .str mode.2

/-- At least as restrictive in every field. -/
structure Covers (stronger weaker : Mapping) : Prop where
  classification : AtLeast env (fieldOf stronger "classification") (fieldOf weaker "classification")
  elsewhere : CoversElsewhere env stronger weaker

variable {env}

@[refl]
theorem AtLeast.refl (label : Json) : AtLeast env label label := by
  rw [AtLeast]
  cases classificationRank env label with
  | none => rfl
  | some rank => exact le_rfl

@[refl]
theorem CoversElsewhere.refl (envelope : Mapping) : CoversElsewhere env envelope envelope where
  identity _ _ := .inr (.refl _)
  texts _ _ _ htext := htext
  hold h := h
  modes _ _ h := h

@[refl]
theorem Covers.refl (envelope : Mapping) : Covers env envelope envelope :=
  ⟨.refl _, .refl _⟩

end FoundryLite.Pipeline.SecurityEnvelope
