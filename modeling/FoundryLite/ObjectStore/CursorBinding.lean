import FoundryLite.ObjectStore.QueryCursor
import FoundryLite.ObjectStore.Store

/-!
# What a cursor is bound to

A cursor that a query accepts was issued, unless a signature was forged, and it was issued for the
tenant, the user, the order and the index version of the query. The object type is not among these.
What stands in for it is the version of the index, and two object types may have versions of the same
name: a position behind a row of the one is then accepted as a position among the rows of the other.
The filter is compared by sixteen digits of a checksum, which two filters may share.

## Main results

* `Accepts`, `decodeObjectQueryCursor_eq_ok_iff`: what a payload is accepted for.
* `Issue.comparesAs_of_accepts`: what an accepted cursor was issued for and what it is accepted for
  agree in everything that is compared.
* `cursor_bound_iff`: when every accepted cursor was issued for the query.
* `queryObjects_next`: a cursor goes on behind the page that it came with.
-/

namespace FoundryLite.ObjectQuery

open Except (bind_eq_ok_iff map_eq_ok_iff pure_eq_ok_iff)

variable {κ : Type} {env : CursorEnvironment κ}

/-! ### Terms of an order -/

theorem orderTerm_injective {a b : ObjectOrderBy}
    (h : a.property ++ (":" ++ a.direction.text) = b.property ++ (":" ++ b.direction.text)) :
    a = b := by
  obtain ⟨p, d⟩ := a
  obtain ⟨q, e⟩ := b
  have hlist := congrArg (fun s => s.toList.reverse) h
  cases d <;> cases e <;>
    simp [ObjectSortDirection.text, String.toList_append, ← String.toList_inj] at hlist ⊢
  all_goals exact hlist

theorem orderSignature_injective {xs ys : List ObjectOrderBy}
    (h : orderSignature xs = orderSignature ys) : xs = ys := by
  refine List.map_injective_iff.mpr (fun a b hab => ?_) (Json.arr.inj h)
  exact orderTerm_injective (Json.str.inj hab)

@[simp]
theorem norm_orderSignature (orderBy : List ObjectOrderBy) :
    Json.norm .text (orderSignature orderBy) = orderSignature orderBy := by
  simp [orderSignature, Json.norm, Json.normItems_eq_map, Function.comp_def]

/-! ### What a payload is accepted for -/

/-- A payload is accepted for a scope at a time, as a position. -/
structure Accepts (env : CursorEnvironment κ) (payload : Mapping) (scope : Scope) (now : ℤ)
    (position : Position) : Prop where
  tenant : payload.lookup "tenantId" = some (.str scope.tenantId)
  actor : payload.lookup "actorUserId" = some (.str scope.actorUserId)
  alive : ∃ expiresAt, payload.lookup "expiresAt" = some (.int expiresAt) ∧ now ≤ expiresAt
  version : payload.lookup "activeIndexVersion" = some (.str scope.activeIndexVersion)
  order : payload.lookup "order" = some (orderSignature scope.orderBy)
  shape : payload.lookup "shape" = some (.str (env.checksum scope.shape))
  values : payload.lookup "values" = some (.arr position.values)
  objectId : payload.lookup "objectId" = some (.str position.objectId)
  length : position.values.length = scope.orderBy.length

theorem requireCursorScope_eq_ok_iff {payload : Mapping} {scope : Scope} {now : ℤ} {u : Unit} :
    requireCursorScope payload scope now = .ok u ↔
      payload.lookup "tenantId" = some (.str scope.tenantId) ∧
        payload.lookup "actorUserId" = some (.str scope.actorUserId) ∧
          ∃ expiresAt, payload.lookup "expiresAt" = some (.int expiresAt) ∧ now ≤ expiresAt := by
  simp only [requireCursorScope, bind_eq_ok_iff, rejectIf_eq_ok_iff, not_not, exists_const]
  refine and_congr_right' (and_congr_right' ?_)
  split
  next expiresAt hexpires => simp [hexpires]
  next hother =>
    simp only [validationFailed_eq_ok_iff, false_iff, not_exists, not_and]
    exact fun expiresAt hexpires => (hother expiresAt hexpires).elim

theorem payloadPosition_eq_ok_iff {payload : Mapping} {orderBy : List ObjectOrderBy}
    {position : Position} : payloadPosition payload orderBy = .ok position ↔
      payload.lookup "values" = some (.arr position.values) ∧
        payload.lookup "objectId" = some (.str position.objectId) ∧
          position.values.length = orderBy.length := by
  obtain ⟨vs, id⟩ := position
  unfold payloadPosition
  split
  next values objectId hvalues hobject =>
    simp only [bind_eq_ok_iff, rejectIf_eq_ok_iff, not_not, exists_const,
      pure_eq_ok_iff, Position.mk.injEq, hvalues, hobject, Option.some.injEq,
      Json.arr.injEq, Json.str.injEq]
    constructor
    · rintro ⟨hlength, rfl, rfl⟩
      exact ⟨rfl, rfl, hlength⟩
    · rintro ⟨rfl, rfl, hlength⟩
      exact ⟨hlength, rfl, rfl⟩
  next hother =>
    simp only [validationFailed_eq_ok_iff, false_iff, not_and]
    exact fun hvalues hobject => (hother vs id hvalues hobject).elim

/-- A cursor is accepted when its payload is signed and accepted. -/
theorem decodeObjectQueryCursor_eq_ok_iff {c : κ} {scope : Scope} {now : ℤ} {position : Position} :
    decodeObjectQueryCursor env (some c) scope now = .ok (some position) ↔
      ∃ payload, env.decodeToken c = some (.obj payload) ∧
        requireValidSignature env payload = .ok () ∧ Accepts env payload scope now position := by
  have hpayload : ∀ payload, cursorPayload env c = .ok payload ↔
      env.decodeToken c = some (.obj payload) ∧ requireValidSignature env payload = .ok () := by
    intro payload
    unfold cursorPayload
    split
    next read hread =>
      simp only [bind_eq_ok_iff, pure_eq_ok_iff, hread, Option.some.injEq,
        Json.obj.injEq]
      constructor
      · rintro ⟨u, hvalid, rfl⟩
        exact ⟨rfl, hvalid⟩
      · rintro ⟨rfl, hvalid⟩
        exact ⟨(), hvalid, rfl⟩
    next hother =>
      simp only [validationFailed_eq_ok_iff, false_iff, not_and]
      exact fun hread => (hother payload hread).elim
  simp only [decodeObjectQueryCursor, bind_eq_ok_iff, hpayload,
    requireCursorScope_eq_ok_iff, rejectIf_eq_ok_iff, not_not, exists_const, map_eq_ok_iff,
    payloadPosition_eq_ok_iff, Option.some.injEq, and_assoc]
  refine exists_congr fun payload => and_congr_right' (and_congr_right' ?_)
  constructor
  · rintro ⟨htenant, hactor, halive, hversion, horder, hshape, a, hvalues, hobject, hlength, rfl⟩
    exact ⟨htenant, hactor, halive, hversion, horder, hshape, hvalues, hobject, hlength⟩
  · rintro ⟨htenant, hactor, halive, hversion, horder, hshape, hvalues, hobject, hlength⟩
    exact ⟨htenant, hactor, halive, hversion, horder, hshape, position, hvalues, hobject, hlength,
      rfl⟩

/-! ### What a cursor was issued for -/

/-- The payload without its signature is the one of an issue, as a text. -/
def PayloadOf (env : CursorEnvironment κ) (payload : Mapping) (issue : Issue) : Prop :=
  Json.norm .text (.obj (unsignedPayload payload)) = Json.norm .text (.obj (issue.payload env))

/-- Two scopes agree in what a cursor is compared by: of the filter, the digits of the checksum. -/
structure Scope.ComparesAs (env : CursorEnvironment κ) (A B : Scope) : Prop where
  tenant : A.tenantId = B.tenantId
  actor : A.actorUserId = B.actorUserId
  order : A.orderBy = B.orderBy
  version : A.activeIndexVersion = B.activeIndexVersion
  shape : env.checksum A.shape = env.checksum B.shape

/-- Two scopes are of the same tenant, user, filter, order and index version. -/
structure Scope.AgreesExceptType (A B : Scope) : Prop where
  tenant : A.tenantId = B.tenantId
  actor : A.actorUserId = B.actorUserId
  filter : Json.norm .text (.obj (A.filter.getD [])) = Json.norm .text (.obj (B.filter.getD []))
  order : A.orderBy = B.orderBy
  version : A.activeIndexVersion = B.activeIndexVersion

theorem Scope.shape_eq_shape_iff {A B : Scope} : A.shape = B.shape ↔
    Json.norm .text (.obj (A.filter.getD [])) = Json.norm .text (.obj (B.filter.getD [])) ∧
      A.orderBy = B.orderBy := by
  rw [Scope.shape, Scope.shape, Json.norm_obj_eq_iff]
  constructor
  · intro h
    have hfilter := h "filter"
    have horder := h "order"
    simp [List.lookup_cons] at hfilter horder
    exact ⟨hfilter, orderSignature_injective horder⟩
  · rintro ⟨hfilter, horder⟩ k
    simp only [List.lookup_cons, horder]
    split
    · simp [hfilter]
    · rfl

/-- What agrees is compared as equal. -/
theorem Scope.AgreesExceptType.comparesAs {A B : Scope} (h : A.AgreesExceptType B) :
    A.ComparesAs env B :=
  ⟨h.tenant, h.actor, h.order, h.version,
    congrArg env.checksum (Scope.shape_eq_shape_iff.mpr ⟨h.filter, h.order⟩)⟩

/-- What is compared as equal agrees, when the checksums come from one shape. -/
theorem Scope.ComparesAs.agreesExceptType {A B : Scope} (h : A.ComparesAs env B)
    (hshape : A.shape = B.shape) : A.AgreesExceptType B :=
  ⟨h.tenant, h.actor, (Scope.shape_eq_shape_iff.mp hshape).1, h.order, h.version⟩

theorem lookup_unsignedPayload {payload : Mapping} {k : String} (hk : k ≠ "signature") :
    (unsignedPayload payload).lookup k = payload.lookup k := by
  have hlookup := Dict.lookup_filter_fst (fun key => decide (key ≠ "signature")) payload k
  rwa [if_pos (decide_eq_true hk)] at hlookup

theorem lookup_unsignedPayload_signature (payload : Mapping) :
    (unsignedPayload payload).lookup "signature" = none :=
  Dict.lookup_filter_fst (fun key => decide (key ≠ "signature")) payload "signature"

/-- A payload says what its issue says, member by member. -/
theorem PayloadOf.lookup {payload : Mapping} {issue : Issue} (h : PayloadOf env payload issue)
    {k : String} (hk : k ≠ "signature") : (payload.lookup k).map (Json.norm .text) =
      ((issue.payload env).lookup k).map (Json.norm .text) := by
  rw [← lookup_unsignedPayload hk]
  exact Json.norm_obj_eq_iff.mp h k

/-- The position of an issue, with its values as they are written. -/
def Issue.IsPosition (issue : Issue) (position : Position) : Prop :=
  position.objectId = issue.objectId ∧
    position.values.map (Json.norm .text) = issue.values.map (Json.norm .text)

/-- A cursor is accepted for what compares as what it was issued for. -/
theorem Issue.comparesAs_of_accepts {payload : Mapping} {issue : Issue} {B : Scope} {now : ℤ}
    {position : Position} (hof : PayloadOf env payload issue)
    (haccepts : Accepts env payload B now position) :
    issue.scope.ComparesAs env B ∧ now ≤ issue.expiresAt ∧ issue.IsPosition position := by
  have htenant := hof.lookup (k := "tenantId") (by decide)
  have hactor := hof.lookup (k := "actorUserId") (by decide)
  have hexpires := hof.lookup (k := "expiresAt") (by decide)
  have hversion := hof.lookup (k := "activeIndexVersion") (by decide)
  have horder := hof.lookup (k := "order") (by decide)
  have hshape := hof.lookup (k := "shape") (by decide)
  have hvalues := hof.lookup (k := "values") (by decide)
  have hobject := hof.lookup (k := "objectId") (by decide)
  obtain ⟨expiresAt, hread, hnow⟩ := haccepts.alive
  simp [haccepts.tenant, Issue.payload, List.lookup_cons, Json.norm] at htenant
  simp [haccepts.actor, Issue.payload, List.lookup_cons, Json.norm] at hactor
  simp [hread, Issue.payload, List.lookup_cons, Json.norm] at hexpires
  simp [haccepts.version, Issue.payload, Json.norm] at hversion
  simp [haccepts.order, Issue.payload, List.lookup_cons] at horder
  simp [haccepts.shape, Issue.payload, List.lookup_cons, Json.norm] at hshape
  simp [haccepts.values, Issue.payload, List.lookup_cons, Json.norm, Json.normItems_eq_map] at hvalues
  simp [haccepts.objectId, Issue.payload, List.lookup_cons, Json.norm] at hobject
  exact ⟨⟨htenant.symm, hactor.symm, orderSignature_injective horder.symm, hversion.symm,
    hshape.symm⟩, hexpires ▸ hnow, hobject, hvalues⟩

/-! ### A cursor as it was issued -/

/-- The text of a signed payload reads back as its members, each as it is written. -/
theorem exists_signed_of_encode {issue : Issue} {c : κ} (hencode : issue.encode env = .ok c)
    (hcodec : ∀ payload, env.decodeToken (env.encodeToken (Json.norm .text (.obj payload))) =
      some (Json.norm .text (.obj payload))) :
    ∃ read signature, env.decodeToken c = some (.obj read) ∧
      payloadSignature env (issue.payload env) = .ok signature ∧
        ∀ k, read.lookup k = ((issue.payload env ++ [("signature", Json.str signature)]).lookup k).map
          (Json.norm .text) := by
  simp only [Issue.encode, signedPayload, bind_eq_ok_iff, pure_eq_ok_iff] at hencode
  obtain ⟨-, ⟨signature, hsignature, rfl⟩, rfl⟩ := hencode
  refine ⟨_, signature, hcodec _, hsignature, fun k => ?_⟩
  rw [Dict.lookup_canon, Json.lookup_normFields]

/-- A cursor that was issued carries its issue, is signed, and is accepted for every scope that
compares as the one it was issued for, whatever the object type. -/
theorem exists_accepts_of_encode {issue : Issue} {c : κ} (hencode : issue.encode env = .ok c)
    (hcodec : ∀ payload, env.decodeToken (env.encodeToken (Json.norm .text (.obj payload))) =
      some (Json.norm .text (.obj payload))) :
    ∃ read, env.decodeToken c = some (.obj read) ∧ PayloadOf env read issue ∧
      requireValidSignature env read = .ok () ∧
        ∀ B, issue.scope.ComparesAs env B → Accepts env read B issue.expiresAt
          ⟨issue.values.map (Json.norm .text), issue.objectId⟩ := by
  obtain ⟨read, signature, hread, hsignature, hlookup⟩ := exists_signed_of_encode hencode hcodec
  have hof : PayloadOf env read issue := by
    refine Json.norm_obj_eq_iff.mpr fun k => ?_
    by_cases hk : k = "signature"
    · rw [hk, lookup_unsignedPayload_signature]
      simp [Issue.payload, List.lookup_cons]
    · rw [lookup_unsignedPayload hk, hlookup, List.lookup_append, Option.map_map]
      have hlast : [("signature", Json.str signature)].lookup k = none := by
        simp [List.lookup_cons, beq_eq_false_iff_ne.mpr hk]
      rw [hlast, Option.or_none]
      exact congrArg (fun f => ((issue.payload env).lookup k).map f)
        (funext fun j => Json.norm_text_norm_text j)
  refine ⟨read, hread, hof, ?_, fun B hcompares => ?_⟩
  · have hprovided : read.lookup "signature" = some (.str signature) := by
      rw [hlookup]
      rfl
    have hkid : read.lookup "kid" = some (.str issue.kid) := by
      rw [hlookup]
      rfl
    have hexpected : payloadSignature env read = .ok signature := by
      have hissued : (issue.payload env).lookup "kid" = some (.str issue.kid) := rfl
      have hunsigned : Json.norm .text (.obj (unsignedPayload (issue.payload env))) =
          Json.norm .text (.obj (issue.payload env)) := rfl
      rw [← hsignature]
      simp only [payloadSignature, hkid, hissued]
      rw [show Json.norm .text (.obj (unsignedPayload read)) = _ from hof, hunsigned]
    simp [requireValidSignature, hprovided, hexpected]
  · obtain ⟨htenant, hactor, horder, hversion, hshape⟩ := hcompares
    refine ⟨?_, ?_, ⟨issue.expiresAt, ?_, le_rfl⟩, ?_, ?_, ?_, ?_, ?_, ?_⟩
    · rw [hlookup, ← htenant]
      rfl
    · rw [hlookup, ← hactor]
      rfl
    · rw [hlookup]
      rfl
    · rw [hlookup, ← hversion]
      rfl
    · rw [hlookup, ← horder, ← norm_orderSignature]
      rfl
    · rw [hlookup, ← hshape]
      rfl
    · rw [hlookup, ← Json.normItems_eq_map]
      rfl
    · rw [hlookup]
      rfl
    · rw [List.length_map, issue.length_values, horder]

/-! ### Bound cursors -/

/-- A cursor is one that was issued. -/
def Carries (env : CursorEnvironment κ) (c : κ) (issue : Issue) : Prop :=
  ∃ payload, env.decodeToken c = some (.obj payload) ∧ PayloadOf env payload issue

/-- Nobody but the process signs: a payload with a valid signature is one that was issued. -/
def Unforged (env : CursorEnvironment κ) (issued : List Issue) (c : κ) : Prop :=
  ∀ payload, env.decodeToken c = some (.obj payload) → requireValidSignature env payload = .ok () →
    ∃ issue ∈ issued, PayloadOf env payload issue

/-- A cursor that was issued for a query: of the same tenant, user, object type, filter, order and
index version, not expired, and read as the position it was issued with. -/
structure IssuedFor (issue : Issue) (B : Scope) (now : ℤ) (position : Position) : Prop where
  agrees : issue.scope.AgreesExceptType B
  objectType : issue.scope.objectTypeApiName = B.objectTypeApiName
  alive : now ≤ issue.expiresAt
  position : issue.IsPosition position

/-- Every cursor that a query accepts was issued, and only for it. -/
def CursorsBound (env : CursorEnvironment κ) (issued : List Issue) (B : Scope) : Prop :=
  ∀ c now position, Unforged env issued c →
    decodeObjectQueryCursor env (some c) B now = .ok (some position) →
      (∃ issue ∈ issued, Carries env c issue) ∧
        ∀ issue ∈ issued, Carries env c issue → IssuedFor issue B now position

/-- An issue is signed under a key that is still there. -/
def Issue.IsLive (env : CursorEnvironment κ) (issue : Issue) : Prop :=
  ∃ key, cursorSigningKey env issue.kid = .ok key

/-- Two object types do not share what their cursors are compared by. -/
def TypeDetermined (env : CursorEnvironment κ) (issued : List Issue) (B : Scope) : Prop :=
  ∀ issue ∈ issued, issue.IsLive env → issue.scope.AgreesExceptType B →
    issue.scope.objectTypeApiName = B.objectTypeApiName

/-- Two shapes do not share the digits that are kept of their digests. -/
def ShapeDetermined (env : CursorEnvironment κ) (issued : List Issue) (B : Scope) : Prop :=
  ∀ issue ∈ issued, issue.IsLive env → issue.scope.ComparesAs env B → issue.scope.shape = B.shape

/-- A payload whose signature is valid names a key that is still there. -/
theorem exists_key_of_valid {payload : Mapping} {issue : Issue}
    (hvalid : requireValidSignature env payload = .ok ()) (hof : PayloadOf env payload issue) :
    issue.IsLive env := by
  have hlookup := hof.lookup (k := "kid") (by decide)
  have hissued : (issue.payload env).lookup "kid" = some (.str issue.kid) := rfl
  unfold requireValidSignature payloadSignature at hvalid
  split at hvalid
  next provided hprovided =>
    split at hvalid
    next kid hkid =>
      simp only [bind_eq_ok_iff] at hvalid
      obtain ⟨expected, ⟨key, hkey, -⟩, -⟩ := hvalid
      simp [hkid, hissued, Json.norm] at hlookup
      exact ⟨key, hlookup ▸ hkey⟩
    next => simp at hvalid
  next => simp at hvalid

/-- A live issue is accepted by every query that compares as its own. -/
theorem decode_of_comparesAs {issued : List Issue} {B : Scope} {issue : Issue}
    (hissue : issue ∈ issued) (hlive : issue.IsLive env) (hcompares : issue.scope.ComparesAs env B)
    (hcodec : ∀ payload, env.decodeToken (env.encodeToken (Json.norm .text (.obj payload))) =
      some (Json.norm .text (.obj payload))) :
    ∃ c position, Unforged env issued c ∧ Carries env c issue ∧
      decodeObjectQueryCursor env (some c) B issue.expiresAt = .ok (some position) := by
  obtain ⟨key, hkey⟩ := hlive
  obtain ⟨c, hencode⟩ : ∃ c, issue.encode env = .ok c := by
    have hkid : (issue.payload env).lookup "kid" = some (.str issue.kid) := rfl
    simp only [Issue.encode, signedPayload, payloadSignature, hkid, hkey]
    exact ⟨_, rfl⟩
  obtain ⟨read, hread, hof, hvalid, haccepts⟩ := exists_accepts_of_encode hencode hcodec
  refine ⟨c, _, fun payload hpayload _ => ?_, ⟨read, hread, hof⟩,
    decodeObjectQueryCursor_eq_ok_iff.mpr ⟨read, hread, hvalid, haccepts B hcompares⟩⟩
  obtain rfl : read = payload := by
    simpa [hread] using hpayload
  exact ⟨issue, hissue, hof⟩

/-- **A cursor is bound to its query exactly when what is compared tells the queries apart.** The
cursors of a query are bound to it when no cursor was issued, under a key that is still there, with
the same tenant, user, order and index version, for another object type with the same filter, or for
another filter with the same digits of the checksum. -/
theorem cursor_bound_iff (env : CursorEnvironment κ) (issued : List Issue) (B : Scope)
    (hcodec : ∀ payload, env.decodeToken (env.encodeToken (Json.norm .text (.obj payload))) =
      some (Json.norm .text (.obj payload))) :
    CursorsBound env issued B ↔ TypeDetermined env issued B ∧ ShapeDetermined env issued B := by
  constructor
  · intro hbound
    have hissued : ∀ issue ∈ issued, issue.IsLive env → issue.scope.ComparesAs env B →
        issue.scope.AgreesExceptType B ∧ issue.scope.objectTypeApiName = B.objectTypeApiName := by
      intro issue hissue hlive hcompares
      obtain ⟨c, position, hunforged, hcarries, hdecode⟩ :=
        decode_of_comparesAs hissue hlive hcompares hcodec
      have hfor := (hbound c _ _ hunforged hdecode).2 issue hissue hcarries
      exact ⟨hfor.agrees, hfor.objectType⟩
    refine ⟨fun issue hissue hlive hagrees => ?_, fun issue hissue hlive hcompares => ?_⟩
    · exact (hissued issue hissue hlive hagrees.comparesAs).2
    · have hagrees := (hissued issue hissue hlive hcompares).1
      exact Scope.shape_eq_shape_iff.mpr ⟨hagrees.filter, hagrees.order⟩
  · rintro ⟨htype, hshape⟩ c now position hunforged hdecode
    obtain ⟨read, hread, hvalid, haccepts⟩ := decodeObjectQueryCursor_eq_ok_iff.mp hdecode
    refine ⟨?_, ?_⟩
    · obtain ⟨issue, hissue, hof⟩ := hunforged read hread hvalid
      exact ⟨issue, hissue, read, hread, hof⟩
    · rintro issue hissue ⟨payload, hpayload, hof⟩
      obtain rfl : read = payload := by
        simpa [hread] using hpayload
      obtain ⟨hcompares, hnow, hposition⟩ := issue.comparesAs_of_accepts hof haccepts
      have hlive := exists_key_of_valid hvalid hof
      have hagrees := hcompares.agreesExceptType (hshape issue hissue hlive hcompares)
      exact ⟨hagrees, htype issue hissue hlive hagrees, hnow, hposition⟩

/-! ### Two object types with one version name -/

/-- The keys of a process with no configuration, and the digits of the one payload below. -/
def localEnvironment : CursorEnvironment Json where
  hmac := fun _ _ => "006bb77f88a7996f914c662d4ad9c87f"
  sha256 := fun _ => "2952792d7db1a175bf5479a7057d428312de36f1f9fee15cd7b4264993a9836a"
  encodeToken := id
  decodeToken := some
  signingKeys := [("local-default", "foundry-lite-object-query-cursor-v1")]
  currentKeyId := "local-default"
  cursorTtlSeconds := 900

/-- Every object of a type whose index was never swapped, by name. -/
def byName (objectType : String) : Scope :=
  { tenantId := "acme", actorUserId := "alice", objectTypeApiName := objectType, filter := none
    orderBy := [⟨"name", .asc⟩], activeIndexVersion := "active" }

def ada : ObjectRecordRow := ⟨"p1", 1, [("name", .str "Ada")]⟩

def issuedByName (objectType : String) : Issue := issueOf localEnvironment (byName objectType) ada 1000

/-- The same object type has one version, and the one query one filter: its cursors are bound. -/
theorem cursorsBound_byName :
    CursorsBound localEnvironment [issuedByName "Person"] (byName "Person") := by
  refine (cursor_bound_iff localEnvironment _ _ (fun _ => rfl)).mpr ⟨?_, ?_⟩
  all_goals
    intro issue hissue _ _
    rw [List.mem_singleton.mp hissue]
    rfl

/-- A cursor behind a person goes on among the documents: both indexes are called active. -/
theorem not_cursorsBound : ¬ ∀ (env : CursorEnvironment Json) (issued : List Issue) (B : Scope),
    (∀ payload, env.decodeToken (env.encodeToken (Json.norm .text (.obj payload))) =
      some (Json.norm .text (.obj payload))) →
    (∀ issue ∈ issued, env.sha256 issue.scope.shape = env.sha256 B.shape →
      issue.scope.shape = B.shape) → CursorsBound env issued B := by
  intro hall
  have hbound := hall localEnvironment [issuedByName "Person"] (byName "Document") (fun _ => rfl)
    fun issue hissue _ => by
      rw [List.mem_singleton.mp hissue]
      rfl
  have hcompares : (byName "Person").ComparesAs localEnvironment (byName "Document") :=
    ⟨rfl, rfl, rfl, rfl, rfl⟩
  obtain ⟨c, position, hunforged, hcarries, hdecode⟩ :=
    decode_of_comparesAs (List.mem_singleton_self (issuedByName "Person")) ⟨_, rfl⟩ hcompares
      fun _ => rfl
  have hissued := (hbound c _ _ hunforged hdecode).2 _ (List.mem_singleton_self _) hcarries
  exact absurd hissued.objectType (by decide)

/-! ### Pages -/

/-- **A cursor goes on behind its page**: until it expires it is accepted for the same request, as the
position of the last row. -/
theorem queryObjects_next {world : World} {request : ObjectQueryRequest κ} {now issuedAt later : ℤ}
    {page : List ObjectRecordRow} {c : κ}
    (h : queryObjects env world request now issuedAt = .ok (page, some c))
    (hcodec : ∀ payload, env.decodeToken (env.encodeToken (Json.norm .text (.obj payload))) =
      some (Json.norm .text (.obj payload)))
    (hlater : later ≤ issuedAt + env.cursorTtlSeconds) :
    ∃ scope, queryScope world { request with cursor := some c } = .ok (some scope) ∧
      ∃ row ∈ page.getLast?, decodeObjectQueryCursor env (some c) scope later = .ok (some
        ⟨(issueOf env scope row issuedAt).values.map (Json.norm .text), row.objectId⟩) := by
  simp only [queryObjects, bind_eq_ok_iff] at h
  obtain ⟨limit, -, _ | scope, hscope, h⟩ := h
  · simp at h
  · simp only [bind_eq_ok_iff, pure_eq_ok_iff, Prod.mk.injEq] at h
    obtain ⟨-, -, records, -, next, hnext, rfl, rfl⟩ := h
    refine ⟨scope, hscope, ?_⟩
    unfold nextCursor at hnext
    split at hnext
    · simp at hnext
    · split at hnext
      next => simp at hnext
      next row hrow =>
        obtain ⟨_, hencode, hsome⟩ := map_eq_ok_iff.mp hnext
        obtain rfl := Option.some.inj hsome
        obtain ⟨read, hread, -, hvalid, haccepts⟩ := exists_accepts_of_encode hencode hcodec
        have haccepted := haccepts scope ⟨rfl, rfl, rfl, rfl, rfl⟩
        obtain ⟨expiresAt, hexpires, hle⟩ := haccepted.alive
        exact ⟨row, hrow, decodeObjectQueryCursor_eq_ok_iff.mpr ⟨read, hread, hvalid,
          { haccepted with alive := ⟨expiresAt, hexpires, hlater.trans hle⟩ }⟩⟩

/-- Two people, of one type. -/
def twoPeople : World where
  activeObjectType _ := .ok ⟨"active", [], fun _ => none⟩
  validateQueryShape _ _ _ _ := .ok ()
  queryActiveObjectRows _ _ limit := .ok ([ada, ⟨"p2", 1, [("name", .str "Grace")]⟩].take limit)

/-- The first person by name. -/
def firstPerson : ObjectQueryRequest Json :=
  ⟨⟨"acme", "alice", []⟩, "Person", none, [[("property", "name")]], 1, none⟩

theorem queryObjects_next_person : ∃ c,
    queryObjects localEnvironment twoPeople firstPerson 1000 1000 = .ok ([ada], some c) ∧
      decodeObjectQueryCursor localEnvironment (some c) (byName "Person") 1900 =
        .ok (some ⟨[.str "Ada"], "p1"⟩) := by
  have hpage : queryObjects localEnvironment twoPeople firstPerson 1000 1000 =
      .ok ([ada], some _) := rfl
  have hlater : (1900 : ℤ) ≤ 1000 + localEnvironment.cursorTtlSeconds := by decide
  obtain ⟨scope, hscope, row, hrow, hdecode⟩ := queryObjects_next hpage (fun _ => rfl) hlater
  cases hrow
  cases hscope
  exact ⟨_, hpage, hdecode⟩

end FoundryLite.ObjectQuery
