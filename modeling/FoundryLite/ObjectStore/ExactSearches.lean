import FoundryLite.ObjectStore.SearchAround

/-!
# Searches that are exact

A search that returns has followed what it read of the links, hop by hop, and has left out what the
caller may not see. It is exact if it has read enough of them. An object with more links than are
read is not an error, and the objects behind the others are missing from the result.

## Main results

* `searchesExactly_iff`: a search is exact exactly when what it reads leads wherever the links lead.
* `searchesExactly_of_fanout`: it does where no object has more links than are read.
* `not_searchesExactly`: it does not where an object has one more.
-/

namespace FoundryLite.SearchAround

open Except Traversal

variable {P : Type} {db : Database P} {caller : Caller P} {objectType : String}
  {definition : Json} {leg : Leg} {route : List Leg} {x y : String}

/-! ### What a search reads -/

/-- A hop reads a link from the one object to the other. -/
def Reads (db : Database P) (leg : Leg) (x y : String) : Prop := y ∈ searchAroundLinkTargets db leg x

/-- The links of an object that a hop is about. -/
def linksOf (db : Database P) (leg : Leg) (x : String) : List LinkRow :=
  db.links.filter fun row => row.linkTypeApiName = leg.linkApi && row.isActive &&
    (if leg.isOutgoing then row.fromApiName = leg.currentType && row.fromObjectId = x
      else row.toApiName = leg.currentType && row.toObjectId = x) && !row.deleted

def farEnd (leg : Leg) (row : LinkRow) : String :=
  if leg.isOutgoing then row.toObjectId else row.fromObjectId

/-- A hop reads the first links of an object, in the order of their far ends. -/
theorem searchAroundLinkTargets_eq : searchAroundLinkTargets db leg x =
    (((linksOf db leg x).mergeSort fun row row' =>
      db.textLe (farEnd leg row) (farEnd leg row')).take maxLinkFanout).map (farEnd leg) := by
  cases hleg : leg.isOutgoing with
  | true =>
    have hend : farEnd leg = LinkRow.toObjectId := funext fun row => by simp [farEnd, hleg]
    simp [searchAroundLinkTargets, activeLinksFrom, linksOf, hend, hleg, Bool.and_assoc]
  | false =>
    have hend : farEnd leg = LinkRow.fromObjectId := funext fun row => by simp [farEnd, hleg]
    simp [searchAroundLinkTargets, activeLinksTo, linksOf, hend, hleg, Bool.and_assoc]

theorem follows_iff : Follows db leg x y ↔ ∃ row ∈ linksOf db leg x, farEnd leg row = y := by
  cases hleg : leg.isOutgoing <;> simp [Follows, linksOf, farEnd, hleg, and_assoc] <;> grind

theorem follows_of_reads (h : Reads db leg x y) : Follows db leg x y := by
  rw [Reads, searchAroundLinkTargets_eq] at h
  obtain ⟨row, hrow, hy⟩ := List.mem_map.mp h
  exact follows_iff.mpr ⟨row, (List.mergeSort_perm _ _).mem_iff.mp (List.mem_of_mem_take hrow), hy⟩

/-- All links of an object are read if there are not too many. -/
theorem reads_of_follows (hfew : (linksOf db leg x).length ≤ maxLinkFanout)
    (h : Follows db leg x y) : Reads db leg x y := by
  obtain ⟨row, hrow, hy⟩ := follows_iff.mp h
  rw [Reads, searchAroundLinkTargets_eq, List.take_of_length_le (by rwa [List.length_mergeSort])]
  exact List.mem_map.mpr ⟨row, (List.mergeSort_perm _ _).mem_iff.mpr hrow, hy⟩

/-! ### The chain of hops -/

theorem searchAroundHop_eq_ok {current next : String × List String} {hop : String × LinkType} :
    searchAroundHop db current hop = .ok next ↔
      searchAroundNextObjectType hop.2 current.1 = .ok next.1 ∧
        boundedDistinct searchAroundResultLimit [] (current.2.flatMap (searchAroundLinkTargets db
          ⟨hop.1, current.1, decide (hop.2.fromApiName = current.1)⟩)) = some next.2 := by
  rw [searchAroundHop, bind_eq_ok_iff]
  constructor
  · rintro ⟨nextType, hnext, h⟩
    cases hids : boundedDistinct searchAroundResultLimit []
        (current.2.flatMap (searchAroundLinkTargets db
          ⟨hop.1, current.1, decide (hop.2.fromApiName = current.1)⟩)) with
    | none => simp [hids] at h
    | some ids =>
      simp only [hids, pure_eq_ok_iff] at h
      subst h
      exact ⟨hnext, rfl⟩
  · rintro ⟨hnext, hids⟩
    exact ⟨next.1, hnext, by simp only [hids]; rfl⟩

/-- The hops lead to a set where the chain leads to a type and the search along it does not give
up. -/
theorem foldlM_searchAroundHop_eq_ok {hops : List (String × LinkType)} {type type' : String}
    {ids ids' : List String} :
    hops.foldlM (searchAroundHop db) (type, ids) = .ok (type', ids') ↔
      ∃ route, legs type hops = .ok (type', route) ∧
        search (searchAroundLinkTargets db) searchAroundResultLimit route ids = some ids' := by
  induction hops generalizing type ids with
  | nil =>
    simp only [List.foldlM_nil, legs, pure_eq_ok_iff, Prod.mk.injEq]
    constructor
    · rintro ⟨rfl, rfl⟩
      exact ⟨[], ⟨rfl, rfl⟩, rfl⟩
    · rintro ⟨route, ⟨rfl, rfl⟩, h⟩
      exact ⟨rfl, Option.some.inj h⟩
  | cons hop hops ih =>
    simp only [List.foldlM_cons, legs, bind_eq_ok_iff, searchAroundHop_eq_ok]
    constructor
    · rintro ⟨⟨nextType, nextIds⟩, ⟨hnext, hids⟩, hrest⟩
      obtain ⟨route, hroute, hsearch⟩ := ih.mp hrest
      exact ⟨_, ⟨nextType, hnext, (type', route), hroute, rfl⟩, by
        rw [search, hids, Option.bind_some, hsearch]⟩
    · rintro ⟨_, ⟨nextType, hnext, ⟨resolvedType, route⟩, hroute, h⟩, hsearch⟩
      obtain ⟨rfl, rfl⟩ := Prod.mk.inj (pure_eq_ok_iff.mp h)
      obtain ⟨nextIds, hids, hrest⟩ := Option.bind_eq_some_iff.mp hsearch
      exact ⟨(nextType, nextIds), ⟨hnext, hids⟩, ih.mpr ⟨route, hroute, hrest⟩⟩

/-! ### What a search returns -/

/-- Of the records that are read, the one of an object is the one among all records. -/
theorem memberVisible_filter_contains {rowVisible : P → Checked Bool} {ids : List String}
    (hy : y ∈ ids) :
    memberVisible (db.records.filter fun row => row.objectTypeApiName = objectType &&
      ids.contains row.objectId && row.isActive && !row.deleted) rowVisible y =
        memberVisible (activeRecords db objectType) rowVisible y := by
  have hrecord : recordOf (db.records.filter fun row => row.objectTypeApiName = objectType &&
      ids.contains row.objectId && row.isActive && !row.deleted) y =
        recordOf (activeRecords db objectType) y := by
    rw [recordOf, recordOf, activeRecords, ← List.filter_reverse, ← List.filter_reverse,
      List.find?_filter, List.find?_filter]
    congr 1
    funext row
    by_cases hrow : row.objectId = y
    · simp [hrow, hy]
    · simp [hrow]
  rw [memberVisible, memberVisible, hrecord]

theorem visibleIds_eq_ok {isVisible : String → Checked Bool} {ids members : List String}
    (h : visibleIds isVisible ids = .ok members) :
    (∀ y ∈ ids, ∃ included, isVisible y = .ok included) ∧ members.Sublist ids ∧
      ∀ y, y ∈ members ↔ isVisible y = .ok true ∧ y ∈ ids := by
  induction ids generalizing members with
  | nil =>
    obtain rfl := pure_eq_ok_iff.mp h
    simp
  | cons x ids ih =>
    simp only [visibleIds, bind_eq_ok_iff, pure_eq_ok_iff] at h
    obtain ⟨included, hx, rest, hrest, rfl⟩ := h
    obtain ⟨hdecided, hsub, hmem⟩ := ih hrest
    refine ⟨List.forall_mem_cons.mpr ⟨⟨included, hx⟩, hdecided⟩, ?_, fun y => ?_⟩
    · split_ifs
      · exact hsub.cons_cons x
      · exact hsub.cons x
    · by_cases hy : y = x
      · subst hy
        cases included <;> simp [hx, hmem]
      · cases included <;> simp [hy, hmem]

theorem exists_visibleIds {isVisible : String → Checked Bool} {ids : List String}
    (h : ∀ y ∈ ids, ∃ included, isVisible y = .ok included) :
    ∃ members, visibleIds isVisible ids = .ok members := by
  induction ids with
  | nil => exact ⟨[], rfl⟩
  | cons x ids ih =>
    obtain ⟨⟨included, hx⟩, hrest⟩ := List.forall_mem_cons.mp h
    obtain ⟨rest, hrest⟩ := ih hrest
    exact ⟨_, bind_eq_ok_iff.mpr ⟨included, hx, bind_eq_ok_iff.mpr ⟨rest, hrest, rfl⟩⟩⟩

/-- The database takes the list of the objects that are reached. -/
def Takes (db : Database P) (ids : Set String) : Prop := ids = ∅ ∨ db.takesList ids.ncard = true

theorem ncard_mem_of_nodup {ids : List String} (h : ids.Nodup) :
    {y | y ∈ ids}.ncard = ids.length := by
  rw [Set.ncard, encard_mem_of_nodup h, ENat.toNat_natCast]

theorem takes_mem_iff {ids : List String} (h : ids.Nodup) :
    Takes db {y | y ∈ ids} ↔ ids = [] ∨ db.takesList ids.length = true := by
  rw [Takes, ncard_mem_of_nodup h, Set.eq_empty_iff_forall_notMem]
  exact or_congr_left List.eq_nil_iff_forall_not_mem.symm

/-- The type and its policies are there, and say of each of the objects whether it is visible. -/
def Decides (db : Database P) (caller : Caller P) (objectType : String) (ids : Set String) : Prop :=
  ∃ rowVisible, caller.rowScope objectType = .ok rowVisible ∧ ∀ y ∈ ids, ∃ included,
    memberVisible (activeRecords db objectType) rowVisible y = .ok included

/-- The records that are read are those that are there, as far as they are asked for. -/
theorem activeObjectRecordsByIds_eq_ok {ids : List String} {records : List (ObjectRecord P)}
    (h : activeObjectRecordsByIds db objectType ids = .ok records) :
    (ids = [] ∨ db.takesList ids.length = true) ∧ ∀ rowVisible, ∀ y ∈ ids,
      memberVisible records rowVisible y =
        memberVisible (activeRecords db objectType) rowVisible y := by
  unfold activeObjectRecordsByIds at h
  split_ifs at h with hempty htakes
  · exact ⟨.inl hempty, by simp [hempty]⟩
  · obtain rfl := pure_eq_ok_iff.mp h
    exact ⟨.inr htakes, fun _ _ hy => memberVisible_filter_contains hy⟩

theorem visibleSearchAroundMembers_eq_ok {ids members : List String} (hids : ids.Nodup)
    (h : visibleSearchAroundMembers db caller objectType ids = .ok members) :
    (Takes db {y | y ∈ ids} ∧ Decides db caller objectType {y | y ∈ ids}) ∧ members.Nodup ∧
      ∀ y, y ∈ members ↔ IsVisible db caller objectType y ∧ y ∈ ids := by
  obtain ⟨records, hrecords, h⟩ := bind_eq_ok_iff.mp h
  obtain ⟨rowVisible, hscope, hmembers⟩ := bind_eq_ok_iff.mp h
  obtain ⟨htakes, hsame⟩ := activeObjectRecordsByIds_eq_ok hrecords
  obtain ⟨hdecided, hsub, hmem⟩ := visibleIds_eq_ok hmembers
  refine ⟨⟨(takes_mem_iff hids).mpr htakes, rowVisible, hscope, fun y hy => ?_⟩,
    hids.sublist hsub, fun y => ?_⟩
  · rw [← hsame rowVisible y hy]
    exact hdecided y hy
  · rw [hmem]
    refine and_congr_left fun hy => ?_
    rw [hsame rowVisible y hy]
    constructor
    · exact fun hvisible => ⟨rowVisible, hscope, hvisible⟩
    · rintro ⟨rowVisible', hscope', hvisible⟩
      obtain rfl := Except.ok.inj (hscope.symm.trans hscope')
      exact hvisible

/-- A search that the database takes the list of returns, where it is decided what is visible. -/
theorem exists_visibleSearchAroundMembers {ids : List String} (hids : ids.Nodup)
    (htakes : Takes db {y | y ∈ ids}) (hdecides : Decides db caller objectType {y | y ∈ ids}) :
    ∃ members, visibleSearchAroundMembers db caller objectType ids = .ok members := by
  have hrecords : ∃ records, activeObjectRecordsByIds db objectType ids = .ok records := by
    unfold activeObjectRecordsByIds
    split_ifs with hempty hlist
    · exact ⟨_, rfl⟩
    · exact ⟨_, rfl⟩
    · exact absurd ((takes_mem_iff hids).mp htakes) (not_or.mpr ⟨hempty, hlist⟩)
  obtain ⟨records, hrecords⟩ := hrecords
  obtain ⟨rowVisible, hscope, hdecided⟩ := hdecides
  have hdecided' : ∀ y ∈ ids, ∃ included, memberVisible records rowVisible y = .ok included := by
    intro y hy
    rw [(activeObjectRecordsByIds_eq_ok hrecords).2 rowVisible y hy]
    exact hdecided y hy
  obtain ⟨members, hmembers⟩ := exists_visibleIds hdecided'
  exact ⟨members, bind_eq_ok_iff.mpr ⟨records, hrecords,
    bind_eq_ok_iff.mpr ⟨rowVisible, hscope, hmembers⟩⟩⟩

/-! ### Exactness -/

/-- No set on the way is too large, the database takes the last one, and it is decided what is
visible of it. -/
def Answers (db : Database P) (caller : Caller P) (objectType : String) (start : Set String)
    (route : List Leg) : Prop :=
  Fits (Reads db) searchAroundResultLimit start route ∧
    Takes db (Reached (Reads db) start route) ∧
      Decides db caller objectType (Reached (Reads db) start route)

theorem reached_reads_subset {start : Set String} :
    Reached (Reads db) start route ⊆ Reached (Follows db) start route :=
  reached_mono fun _ _ _ _ => follows_of_reads

theorem mem_eraseDups_set {start : List String} : {x | x ∈ start.eraseDups} = {x | x ∈ start} := by
  ext x
  exact List.mem_eraseDups

/-- **A search returns what is visible of what the links that it reads lead to, where it does not
give up.** -/
theorem members_eq_ok {ids : List String}
    (h : searchAroundObjectSetMembers db caller objectType definition = .ok ids) :
      ∃ start route, question caller objectType definition = .ok (start, route) ∧
        Answers db caller objectType {x | x ∈ start} route ∧ ids.Nodup ∧
          ∀ y, y ∈ ids ↔ IsVisible db caller objectType y ∧
            y ∈ Reached (Reads db) {x | x ∈ start} route := by
  simp only [searchAroundObjectSetMembers, resolveSearchAroundObjectIds, bind_eq_ok_iff,
    rejectIf_eq_ok_iff, not_not] at h
  obtain ⟨⟨sourceType, filterAst, hops⟩, hparts, sourceIds, hsource, ⟨⟩, hlinks,
    ⟨resolvedType, found⟩, ⟨resolved, hresolved, hfold⟩, ⟨⟩, htype, hvisible⟩ := h
  obtain rfl : resolvedType = objectType := htype
  obtain ⟨route, hroute, hsearch⟩ := foldlM_searchAroundHop_eq_ok.mp hfold
  obtain ⟨hnodup, hmem⟩ := search_eq_some hsearch (nodup_eraseDups _)
  rw [mem_eraseDups_set] at hmem
  have hreached : {y | y ∈ found} = Reached (Reads db) {x | x ∈ sourceIds} route := by
    ext y
    exact hmem y
  obtain ⟨hanswers, hids, hmembers⟩ := visibleSearchAroundMembers_eq_ok hnodup hvisible
  refine ⟨sourceIds, route, ?_, ⟨?_, hreached ▸ hanswers⟩, hids, fun y => ?_⟩
  · simp only [question, bind_eq_ok_iff, rejectIf_eq_ok_iff, not_not]
    exact ⟨_, hparts, _, hsource, (), hlinks, _, hresolved, _, hroute, (), rfl, rfl⟩
  · have hsome := search_isSome_iff.mp (Option.isSome_of_eq_some hsearch)
    rwa [mem_eraseDups_set] at hsome
  · rw [hmembers, ← hreached]
    rfl

theorem exists_members {start : List String}
    (hquestion : question caller objectType definition = .ok (start, route))
    (hanswers : Answers db caller objectType {x | x ∈ start} route) :
    ∃ ids, searchAroundObjectSetMembers db caller objectType definition = .ok ids := by
  simp only [question, bind_eq_ok_iff, rejectIf_eq_ok_iff, not_not, pure_eq_ok_iff,
    Prod.mk.injEq] at hquestion
  obtain ⟨⟨sourceType, filterAst, hops⟩, hparts, sourceIds, hsource, ⟨⟩, hlinks, resolved,
    hresolved, ⟨resolvedType, found⟩, hroute, ⟨⟩, htype, rfl, rfl⟩ := hquestion
  obtain ⟨hfits, htakes, hdecides⟩ := hanswers
  rw [← mem_eraseDups_set] at hfits htakes hdecides
  obtain ⟨ids, hsearch⟩ := Option.isSome_iff_exists.mp (search_isSome_iff.mpr hfits)
  obtain ⟨hnodup, hmem⟩ := search_eq_some hsearch (nodup_eraseDups _)
  have hreached : {y | y ∈ ids} = Reached (Reads db) {x | x ∈ sourceIds.eraseDups} found := by
    ext y
    exact hmem y
  obtain ⟨members, hmembers⟩ :=
    exists_visibleSearchAroundMembers hnodup (hreached ▸ htakes) (hreached ▸ hdecides)
  refine ⟨members, ?_⟩
  simp only [searchAroundObjectSetMembers, resolveSearchAroundObjectIds, bind_eq_ok_iff,
    rejectIf_eq_ok_iff, not_not]
  exact ⟨_, hparts, _, hsource, (), hlinks, (resolvedType, ids),
    ⟨resolved, hresolved, foldlM_searchAroundHop_eq_ok.mpr ⟨found, hroute, hsearch⟩⟩, (), htype,
    hmembers⟩

/-- **A search is exact exactly when, where it does not give up, the visible objects that the links
lead to are among those that the links it reads lead to.** -/
theorem searchesExactly_iff : SearchesExactly db caller objectType definition ↔
    ∀ start route, question caller objectType definition = .ok (start, route) →
      Answers db caller objectType {x | x ∈ start} route → ∀ y, IsVisible db caller objectType y →
        y ∈ Reached (Follows db) {x | x ∈ start} route →
          y ∈ Reached (Reads db) {x | x ∈ start} route := by
  constructor
  · intro h start route hquestion hanswers y hvisible hy
    obtain ⟨ids, hids⟩ := exists_members hquestion hanswers
    obtain ⟨start', route', hquestion', -, hexact⟩ := h ids hids
    obtain ⟨rfl, rfl⟩ := Prod.mk.inj (Except.ok.inj (hquestion'.symm.trans hquestion))
    obtain ⟨start', route', hquestion', -, -, hread⟩ := members_eq_ok hids
    obtain ⟨rfl, rfl⟩ := Prod.mk.inj (Except.ok.inj (hquestion'.symm.trans hquestion))
    exact ((hread y).mp ((hexact y).mpr ⟨hvisible, hy⟩)).2
  · intro h ids hids
    obtain ⟨start, route, hquestion, hanswers, hnodup, hread⟩ := members_eq_ok hids
    refine ⟨start, route, hquestion, hnodup, fun y => (hread y).trans ?_⟩
    exact and_congr_right fun hvisible => ⟨fun hy => reached_reads_subset hy,
      h start route hquestion hanswers y hvisible⟩

/-- **Where no object has more links of a type than are read, every search is exact.** -/
theorem searchesExactly_of_fanout (hfew : ∀ leg x, (linksOf db leg x).length ≤ maxLinkFanout) :
    SearchesExactly db caller objectType definition := by
  intro ids hids
  obtain ⟨start, route, hquestion, -, hnodup, hread⟩ := members_eq_ok hids
  refine ⟨start, route, hquestion, hnodup, fun y => (hread y).trans ?_⟩
  have hall : y ∈ Reached (Follows db) {x | x ∈ start} route →
      y ∈ Reached (Reads db) {x | x ∈ start} route :=
    fun hy => reached_mono (fun leg _ x y hfollows => reads_of_follows (hfew leg x) hfollows) hy
  exact and_congr_right fun _ => ⟨fun hy => reached_reads_subset hy, hall⟩

/-! ### A link too many -/

/-- The ids of the objects behind the links. -/
def targetId (i : ℕ) : String := String.ofList (List.replicate i 'x')

theorem targetId_injective : Function.Injective targetId := by
  intro i j h
  have hlists := String.ofList_injective h
  simpa using congrArg List.length hlists

def fanoutLink (i : ℕ) : LinkRow :=
  ⟨"OrderItem", "Order", "order-1", "Item", targetId i, true, false⟩

def fanoutRecord (i : ℕ) : ObjectRecord Unit := ⟨"Item", targetId i, true, false, ()⟩

/-- An order with `n` links. -/
def fanoutDatabase (n : ℕ) : Database Unit where
  links := (List.range n).map fanoutLink
  records := (List.range n).map fanoutRecord
  textLe := fun x y => decide (x ≤ y)
  takesList _ := true

def fanoutCaller : Caller Unit where
  linkTypes _ := some ⟨"Order", "Item"⟩
  mayReadLink _ := true
  rowScope _ := .ok fun _ => .ok true
  sourceIds _ _ := .ok ["order-1"]

def fanoutDefinition : Json :=
  .obj [("from", .obj [("objectType", .str "Order")]),
    ("hops", .arr [.obj [("link", .str "OrderItem")]])]

theorem searchesExactly_fanout : SearchesExactly (fanoutDatabase 2) fanoutCaller "Item"
    fanoutDefinition :=
  searchesExactly_of_fanout fun _ _ => (List.length_filter_le _ _).trans (by decide)

theorem question_fanout : question fanoutCaller "Item" fanoutDefinition =
    .ok (["order-1"], [⟨"OrderItem", "Order", true⟩]) := by
  rfl

theorem maxLinkFanout_le : maxLinkFanout ≤ searchAroundResultLimit := by
  unfold maxLinkFanout searchAroundResultLimit
  omega

theorem encard_reads_le : {y | Reads db leg x y}.encard ≤ maxLinkFanout := by
  have hset : {y | Reads db leg x y} = (searchAroundLinkTargets db leg x).toFinset := by
    ext y
    simp [Reads]
  rw [hset, Set.encard_coe_eq_coe_finsetCard, Nat.cast_le]
  refine (List.toFinset_card_le _).trans ?_
  rw [searchAroundLinkTargets_eq, List.length_map]
  exact List.length_take_le _ _

theorem isVisible_fanout {i n : ℕ} (hi : i < n) :
    IsVisible (fanoutDatabase n) fanoutCaller "Item" (targetId i) := by
  refine ⟨_, rfl, ?_⟩
  have hmem : fanoutRecord i ∈ activeRecords (fanoutDatabase n) "Item" :=
    List.mem_filter.mpr ⟨List.mem_map_of_mem (List.mem_range.mpr hi), by simp [fanoutRecord]⟩
  unfold memberVisible
  cases hfound : recordOf (activeRecords (fanoutDatabase n) "Item") (targetId i) with
  | some record => rfl
  | none =>
    have hnot := List.find?_eq_none.mp hfound _ (List.mem_reverse.mpr hmem)
    simp [fanoutRecord] at hnot

theorem follows_fanout {i n : ℕ} (hi : i < n) :
    Follows (fanoutDatabase n) ⟨"OrderItem", "Order", true⟩ "order-1" (targetId i) :=
  ⟨fanoutLink i, List.mem_map_of_mem (List.mem_range.mpr hi), rfl, rfl, rfl, rfl, rfl, rfl⟩

/-- A search is not exact where more objects are behind the links of an object than are read. -/
theorem le_maxLinkFanout_of_searchesExactly {n : ℕ}
    (h : SearchesExactly (fanoutDatabase n) fanoutCaller "Item" fanoutDefinition) :
    n ≤ maxLinkFanout := by
  have hexact := searchesExactly_iff.mp h _ _ question_fanout
  have hreached : Reached (Reads (fanoutDatabase n)) {x | x ∈ ["order-1"]}
      [⟨"OrderItem", "Order", true⟩] =
        {y | Reads (fanoutDatabase n) ⟨"OrderItem", "Order", true⟩ "order-1" y} := by
    ext y
    simp [mem_reached_singleton]
  have hanswers : Answers (fanoutDatabase n) fanoutCaller "Item" {x | x ∈ ["order-1"]}
      [⟨"OrderItem", "Order", true⟩] := by
    refine ⟨⟨?_, trivial⟩, .inr rfl, _, rfl, fun y _ => ?_⟩
    · rw [hreached]
      exact encard_reads_le.trans (Nat.cast_le.mpr maxLinkFanout_le)
    · unfold memberVisible
      split <;> exact ⟨_, rfl⟩
  have hsubset : targetId '' (Finset.range n) ⊆
      {y | Reads (fanoutDatabase n) ⟨"OrderItem", "Order", true⟩ "order-1" y} := by
    rintro _ ⟨i, hi, rfl⟩
    have hi' : i < n := Finset.mem_range.mp (Finset.mem_coe.mp hi)
    rw [← hreached]
    exact hexact hanswers (targetId i) (isVisible_fanout hi')
      (mem_reached_singleton.mpr ⟨"order-1", by simp, follows_fanout hi'⟩)
  have hcard := (Set.encard_le_encard hsubset).trans encard_reads_le
  rwa [targetId_injective.encard_image, Set.encard_coe_eq_coe_finsetCard, Finset.card_range,
    Nat.cast_le] at hcard

/-- An order has one link more than are read, and all items behind them are visible. -/
theorem not_searchesExactly : ¬ ∀ (db : Database Unit) (caller : Caller Unit) (objectType : String)
    (definition : Json), SearchesExactly db caller objectType definition := fun h =>
  absurd (le_maxLinkFanout_of_searchesExactly
    (h (fanoutDatabase (maxLinkFanout + 1)) fanoutCaller "Item" fanoutDefinition))
      (Nat.not_succ_le_self _)

end FoundryLite.SearchAround
