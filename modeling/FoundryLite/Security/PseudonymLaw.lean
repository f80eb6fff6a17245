import FoundryLite.Security.Privacy

/-!
# Reversible pseudonyms

A pseudonym leads back to its value as long as its key is never stored again for another one. Where the
digests do not collide, two values under one salt, field and scope have the same pseudonym exactly if
they have the same JSON document, and different values have the same document only where one of them has
a date, a decimal or the like in the place of its text.

## Main results

* `inverts_iff_unconfused`: over every run, the pseudonyms invert exactly if no such two values meet.
* `norm_eq_of_cellDoc_eq`: values without dates, decimals and the like never do.
-/

namespace FoundryLite.Security.Privacy

open JsonText Runs

variable {F O : Type} {texts : Texts F O}

/-! ### The law -/

/-- What a call has made of a value that its plan pseudonymises reversibly: a pseudonym, under which the
store has the value. -/
def LeadsBack (texts : Texts F O) (store : MappingStore F O) (call : Call F O) (fieldName : String)
    (value emitted : Cell F O) : Prop :=
  ∀ rule, call.plan.ruleOf fieldName = some rule → rule.mode = .pseudonymize → rule.isReversible = true →
    value ≠ .null → ∃ pseudonym, emitted = .str pseudonym ∧
      ∃ original, getOriginalValue store ⟨call.tenantId, call.plan.version texts, fieldName,
        effectiveScope call.tenantId rule, pseudonym⟩ = some original ∧ Same original value

/-- Reversible pseudonyms invert. -/
structure Inverts (texts : Texts F O) (s : State F O) : Prop where
  back : ∀ answered ∈ s.answered, List.Forall₂ (List.Forall₂ fun entry emitted =>
    emitted.1 = entry.1 ∧ LeadsBack texts s.store answered.call entry.1 entry.2 emitted.2)
      answered.call.rows answered.transformed
  /-- Two different values of one field and scope have different pseudonyms. -/
  apart : ∀ w ∈ s.written, ∀ w' ∈ s.written, w.record.key.fieldName = w'.record.key.fieldName →
    w.record.key.scope = w'.record.key.scope → w.record.key.pseudonym = w'.record.key.pseudonym →
    Same w.record.originalValue w'.record.originalValue

/-- No two different values under one salt, field and scope have the same JSON document. -/
def Unconfused (texts : Texts F O) (s : State F O) : Prop :=
  ∀ w ∈ s.written, ∀ w' ∈ s.written, w.salt = w'.salt → w.record.key.fieldName = w'.record.key.fieldName →
    w.record.key.scope = w'.record.key.scope →
    cellDoc texts w.record.originalValue = cellDoc texts w'.record.originalValue →
    Same w.record.originalValue w'.record.originalValue

def Written.message (texts : Texts F O) (w : Written F O) : List Char :=
  pseudonymMessage texts w.record.key.fieldName w.record.key.scope w.record.originalValue

/-- The truncated digests that were stored do not collide. -/
def NoCollision (texts : Texts F O) (s : State F O) : Prop :=
  ∀ w ∈ s.written, ∀ w' ∈ s.written,
    pseudonymOf texts w.salt (w.message texts) = pseudonymOf texts w'.salt (w'.message texts) →
    w.salt = w'.salt ∧ w.message texts = w'.message texts

/-! ### Documents of values -/

theorem fieldTokens_of_forall {fields : List (String × Doc)} (h : ∀ field ∈ fields, Tokens field.2) :
    FieldTokens fields := by
  induction fields with
  | nil => trivial
  | cons field fields ih =>
    obtain ⟨hfield, hfields⟩ := List.forall_mem_cons.mp h
    exact ⟨hfield, ih hfields⟩

theorem fieldTokens_canon {fields : List (String × Doc)} (h : ∀ field ∈ fields, Tokens field.2) :
    FieldTokens (Dict.canon fields) := by
  refine fieldTokens_of_forall fun field hfield => ?_
  obtain ⟨key, value⟩ := field
  exact h (key, value) (Dict.mem_of_lookup_eq_some (Dict.mem_canon_iff.mp hfield))

mutual

theorem tokens_cellDoc (texts : Texts F O) : ∀ value : Cell F O, Tokens (cellDoc texts value)
  | .null => trivial
  | .bool _ => trivial
  | .int n => token_intToken n
  | .float f => texts.float_token f
  | .str _ => trivial
  | .object _ => trivial
  | .list items => itemTokens_itemDocs texts items
  | .dict fields => fieldTokens_canon (tokens_fieldDocs texts fields)

theorem itemTokens_itemDocs (texts : Texts F O) : ∀ items : List (Cell F O), ItemTokens (itemDocs texts items)
  | [] => trivial
  | item :: items => ⟨tokens_cellDoc texts item, itemTokens_itemDocs texts items⟩

theorem tokens_fieldDocs (texts : Texts F O) :
    ∀ (fields : List (String × Cell F O)) (field : String × Doc), field ∈ fieldDocs texts fields →
      Tokens field.2
  | [], field, h => absurd h List.not_mem_nil
  | (key, value) :: fields, field, h => by
    rcases List.mem_cons.mp h with rfl | h
    · exact tokens_cellDoc texts value
    · exact tokens_fieldDocs texts fields field h

end

/-- **The digested text determines the field, the scope and the value's document.** -/
theorem pseudonymMessage_inj {fieldName fieldName' scope scope' : String} {value value' : Cell F O} :
    pseudonymMessage texts fieldName scope value = pseudonymMessage texts fieldName' scope' value' ↔
      fieldName = fieldName' ∧ scope = scope' ∧ cellDoc texts value = cellDoc texts value' := by
  constructor
  · intro h
    have htokens : ∀ (first second : String) (cell : Cell F O), Tokens (.obj [("fieldName", .str first),
        ("scope", .str second), ("value", cellDoc texts cell)]) :=
      fun _ _ cell => ⟨trivial, trivial, tokens_cellDoc texts cell, trivial⟩
    simpa using render_injective (htokens _ _ _) (htokens _ _ _) h
  · rintro ⟨rfl, rfl, hdoc⟩
    rw [pseudonymMessage, pseudonymMessage, hdoc]

/-! ### What a call stores -/

section Call

variable {tenantId : String} {plan : PrivacyTransformPlan} {hasStore : Bool}

/-- The entry is a value of a reversible field, and its mapping is among the stored ones. -/
def Recorded (texts : Texts F O) (tenantId : String) (plan : PrivacyTransformPlan)
    (stored : List (PrivacyMappingRecord F O)) (entry emitted : String × Cell F O) : Prop :=
  emitted.1 = entry.1 ∧ ∀ rule, plan.ruleOf entry.1 = some rule → rule.mode = .pseudonymize →
    rule.isReversible = true → entry.2 ≠ .null →
      reversibleMapping texts tenantId plan rule entry.2 ∈ stored ∧
        emitted.2 = .str (reversibleMapping texts tenantId plan rule entry.2).key.pseudonym

theorem Recorded.mono {stored stored' : List (PrivacyMappingRecord F O)} {entry emitted : String × Cell F O}
    (hsub : ∀ record ∈ stored, record ∈ stored') (h : Recorded texts tenantId plan stored entry emitted) :
    Recorded texts tenantId plan stored' entry emitted :=
  ⟨h.1, fun rule hrule hmode hreversible hvalue =>
    ⟨hsub _ (h.2 rule hrule hmode hreversible hvalue).1, (h.2 rule hrule hmode hreversible hvalue).2⟩⟩

theorem andThen_eq_ok {α β : Type} {first : Transformed F O α} {rest : α → Transformed F O β} {b : β}
    (h : (first.andThen rest).result = .ok b) : ∃ a, first.result = .ok a ∧ (rest a).result = .ok b ∧
      (first.andThen rest).stored = first.stored ++ (rest a).stored := by
  rw [Transformed.andThen] at h ⊢
  cases hfirst : first.result with
  | error message => simp [hfirst] at h
  | ok a =>
    simp only [hfirst] at h
    exact ⟨a, rfl, h, rfl⟩

theorem mem_andThen_stored {α β : Type} {first : Transformed F O α} {rest : α → Transformed F O β}
    {record : PrivacyMappingRecord F O} (h : record ∈ (first.andThen rest).stored) :
    record ∈ first.stored ∨ ∃ a, record ∈ (rest a).stored := by
  rw [Transformed.andThen] at h
  split at h
  · exact .inl h
  · rcases List.mem_append.mp h with h | h
    · exact .inl h
    · exact .inr ⟨_, h⟩

theorem transformField_spec {fieldName : String} {value emitted : Cell F O}
    (h : (transformField texts tenantId plan hasStore fieldName value).result = .ok emitted) :
    Recorded texts tenantId plan (transformField texts tenantId plan hasStore fieldName value).stored
      (fieldName, value) (fieldName, emitted) := by
  refine ⟨rfl, fun rule hrule hmode hreversible hvalue => ?_⟩
  simp only at hrule hvalue
  rw [transformField, hrule] at h ⊢
  simp only [transformValue, hmode] at h ⊢
  cases value with
  | null => exact absurd rfl hvalue
  | _ =>
    simp only [hreversible, if_true] at h ⊢
    cases hasStore with
    | false => simp at h
    | true =>
      simp only [if_true, Except.ok.injEq] at h ⊢
      exact ⟨List.mem_singleton.mpr rfl, h.symm⟩

theorem transformRow_spec {row out : Row F O}
    (h : (transformRow texts tenantId plan hasStore row).result = .ok out) :
    List.Forall₂ (Recorded texts tenantId plan (transformRow texts tenantId plan hasStore row).stored)
      row out := by
  induction row generalizing out with
  | nil =>
    obtain rfl := Except.ok.inj h
    exact .nil
  | cons entry row ih =>
    obtain ⟨fieldName, value⟩ := entry
    obtain ⟨emitted, hfield, hrest, hstored⟩ := andThen_eq_ok h
    obtain ⟨transformed, hrow, hout, hstored'⟩ := andThen_eq_ok hrest
    obtain rfl := Except.ok.inj hout
    rw [hstored'] at hstored
    have hall : (transformRow texts tenantId plan hasStore ((fieldName, value) :: row)).stored =
        (transformField texts tenantId plan hasStore fieldName value).stored ++
          ((transformRow texts tenantId plan hasStore row).stored ++ []) := hstored
    rw [hall]
    refine .cons ((transformField_spec hfield).mono fun r hr => List.mem_append_left _ hr)
      ((ih hrow).imp fun _ _ hentry => hentry.mono fun r hr => ?_)
    exact List.mem_append_right _ (List.mem_append_left _ hr)

theorem transformRows_spec {rows out : List (Row F O)}
    (h : (transformRows texts tenantId plan hasStore rows).result = .ok out) :
    List.Forall₂ (List.Forall₂ (Recorded texts tenantId plan
      (transformRows texts tenantId plan hasStore rows).stored)) rows out := by
  induction rows generalizing out with
  | nil =>
    obtain rfl := Except.ok.inj h
    exact .nil
  | cons row rows ih =>
    obtain ⟨transformed, hrow, hrest, hstored⟩ := andThen_eq_ok h
    obtain ⟨others, hrows, hout, hstored'⟩ := andThen_eq_ok hrest
    obtain rfl := Except.ok.inj hout
    rw [hstored'] at hstored
    have hall : (transformRows texts tenantId plan hasStore (row :: rows)).stored =
        (transformRow texts tenantId plan hasStore row).stored ++
          ((transformRows texts tenantId plan hasStore rows).stored ++ []) := hstored
    rw [hall]
    refine .cons ((transformRow_spec hrow).imp fun _ _ hentry => hentry.mono fun r hr =>
      List.mem_append_left _ hr) ((ih hrows).imp fun _ _ hothers => hothers.imp fun _ _ hentry =>
        hentry.mono fun r hr => ?_)
    exact List.mem_append_right _ (List.mem_append_left _ hr)

/-- A mapping as a call makes it. -/
def Formed (texts : Texts F O) (salt : String) (record : PrivacyMappingRecord F O) : Prop :=
  record.key.pseudonym = pseudonymOf texts salt
    (pseudonymMessage texts record.key.fieldName record.key.scope record.originalValue)

theorem formed_of_mem_transformField {fieldName : String} {value : Cell F O}
    {record : PrivacyMappingRecord F O}
    (h : record ∈ (transformField texts tenantId plan hasStore fieldName value).stored) :
    Formed texts plan.salt record := by
  rw [transformField] at h
  split at h
  · exact absurd h List.not_mem_nil
  · rw [transformValue.eq_def] at h
    split at h
    all_goals try exact absurd h List.not_mem_nil
    split_ifs at h
    · obtain rfl := List.mem_singleton.mp h
      rfl
    · exact absurd h List.not_mem_nil
    · exact absurd h List.not_mem_nil

theorem formed_of_mem_transformRow {row : Row F O} {record : PrivacyMappingRecord F O}
    (h : record ∈ (transformRow texts tenantId plan hasStore row).stored) :
    Formed texts plan.salt record := by
  induction row with
  | nil => exact absurd h List.not_mem_nil
  | cons entry row ih =>
    obtain ⟨fieldName, value⟩ := entry
    rcases mem_andThen_stored h with h | ⟨emitted, h⟩
    · exact formed_of_mem_transformField h
    · rcases mem_andThen_stored h with h | ⟨transformed, h⟩
      · exact ih h
      · exact absurd h List.not_mem_nil

theorem formed_of_mem_transformRows {rows : List (Row F O)} {record : PrivacyMappingRecord F O}
    (h : record ∈ (transformRows texts tenantId plan hasStore rows).stored) :
    Formed texts plan.salt record := by
  induction rows with
  | nil => exact absurd h List.not_mem_nil
  | cons row rows ih =>
    rcases mem_andThen_stored h with h | ⟨transformed, h⟩
    · exact formed_of_mem_transformRow h
    · rcases mem_andThen_stored h with h | ⟨others, h⟩
      · exact ih h
      · exact absurd h List.not_mem_nil

end Call

/-- **What a call stores**, and what it returns for it. -/
theorem transformPrivacyRows_spec (call : Call F O) :
    (∀ record ∈ (transformPrivacyRows texts call).stored, Formed texts call.plan.salt record) ∧
      ∀ out, (transformPrivacyRows texts call).result = .ok out →
        List.Forall₂ (List.Forall₂ (Recorded texts call.tenantId call.plan
          (transformPrivacyRows texts call).stored)) call.rows out := by
  rw [transformPrivacyRows]
  split_ifs
  · exact ⟨fun _ h => absurd h List.not_mem_nil, fun _ h => by simp at h⟩
  · split
    · exact ⟨fun _ h => absurd h List.not_mem_nil, fun _ h => by simp at h⟩
    · exact ⟨fun _ h => formed_of_mem_transformRows h, fun _ h => transformRows_spec h⟩

/-! ### Over a run -/

/-- What is found under a key was stored last, or before. -/
theorem lookup_foldl_storeMapping (records : List (PrivacyMappingRecord F O)) (store : MappingStore F O)
    (key : MappingKey) :
    (∃ record ∈ records, record.key = key ∧ (records.foldl storeMapping store).lookup key = some record) ∨
      ((∀ record ∈ records, record.key ≠ key) ∧
        (records.foldl storeMapping store).lookup key = store.lookup key) := by
  induction records generalizing store with
  | nil => exact .inr ⟨by simp, rfl⟩
  | cons record records ih =>
    rcases ih (storeMapping store record) with ⟨found, hfound, hkey, hlookup⟩ | ⟨hnone, hlookup⟩
    · exact .inl ⟨found, List.mem_cons_of_mem _ hfound, hkey, hlookup⟩
    · by_cases hkey : record.key = key
      · refine .inl ⟨record, List.mem_cons_self, hkey, ?_⟩
        rw [List.foldl_cons, hlookup, storeMapping, List.lookup_cons, beq_iff_eq.mpr hkey.symm]
      · refine .inr ⟨List.forall_mem_cons.mpr ⟨hkey, hnone⟩, ?_⟩
        rw [List.foldl_cons, hlookup, storeMapping, List.lookup_cons, beq_eq_false_iff_ne.mpr (Ne.symm hkey)]

/-- What holds after every run. -/
structure Inv (texts : Texts F O) (s : State F O) : Prop where
  formed : ∀ w ∈ s.written, Formed texts w.salt w.record
  /-- Under the key of every mapping stands one that was stored under it. -/
  found : ∀ w ∈ s.written, ∃ w' ∈ s.written, w'.record.key = w.record.key ∧
    s.store.lookup w.record.key = some w'.record
  recorded : ∀ answered ∈ s.answered, ∃ stored,
    (∀ record ∈ stored, (⟨answered.call.plan.salt, record⟩ : Written F O) ∈ s.written) ∧
      List.Forall₂ (List.Forall₂ (Recorded texts answered.call.tenantId answered.call.plan stored))
        answered.call.rows answered.transformed

theorem Inv.next {s t : State F O} {call : Call F O} (h : Inv texts s)
    (hnext : next texts s call = some t) : Inv texts t := by
  obtain rfl := (Option.some.inj hnext).symm
  obtain ⟨hformed, hreturned⟩ := @transformPrivacyRows_spec _ _ texts call
  refine ⟨fun w hw => ?_, fun w hw => ?_, ?_⟩
  · rcases List.mem_append.mp hw with hw | hw
    · exact h.formed w hw
    · obtain ⟨record, hrecord, rfl⟩ := List.mem_map.mp hw
      exact hformed record hrecord
  · rcases lookup_foldl_storeMapping (transformPrivacyRows texts call).stored s.store w.record.key with
      ⟨record, hrecord, hkey, hlookup⟩ | ⟨hnone, hlookup⟩
    · exact ⟨⟨call.plan.salt, record⟩, List.mem_append_right _ (List.mem_map_of_mem hrecord), hkey, hlookup⟩
    · rcases List.mem_append.mp hw with hw | hw
      · obtain ⟨w', hw', hkey, hfound⟩ := h.found w hw
        exact ⟨w', List.mem_append_left _ hw', hkey, hlookup.trans hfound⟩
      · obtain ⟨record, hrecord, rfl⟩ := List.mem_map.mp hw
        exact absurd rfl (hnone record hrecord)
  · have hbefore : ∀ answered ∈ s.answered, ∃ stored,
        (∀ record ∈ stored, (⟨answered.call.plan.salt, record⟩ : Written F O) ∈
          s.written ++ (transformPrivacyRows texts call).stored.map fun record => ⟨call.plan.salt, record⟩) ∧
        List.Forall₂ (List.Forall₂ (Recorded texts answered.call.tenantId answered.call.plan stored))
          answered.call.rows answered.transformed := by
      intro answered hanswered
      obtain ⟨stored, hstored, hrows⟩ := h.recorded answered hanswered
      exact ⟨stored, fun record hrecord => List.mem_append_left _ (hstored record hrecord), hrows⟩
    cases hresult : (transformPrivacyRows texts call).result with
    | error message => simpa only [hresult] using hbefore
    | ok out =>
      refine List.forall_mem_cons.mpr ⟨⟨_, fun record hrecord => ?_, hreturned out hresult⟩, hbefore⟩
      exact List.mem_append_right _ (List.mem_map_of_mem hrecord)

/-- **Over every run, reversible pseudonyms invert exactly if no two different values under one salt,
field and scope have the same JSON document.** -/
theorem inverts_iff_unconfused (texts : Texts F O) {history : List (Call F O)} {s : State F O}
    (h : Run (next texts) Always {} history s) (hdigests : NoCollision texts s) :
    Inverts texts s ↔ Unconfused texts s := by
  have hinv : Inv texts s := by
    refine h.invariant ⟨by simp, by simp, by simp⟩ ?_
    intro s call t _ hnext hinv
    exact hinv.next hnext
  -- Equal pseudonyms are pseudonyms of one document.
  have hdoc : ∀ w ∈ s.written, ∀ w' ∈ s.written, w.record.key.pseudonym = w'.record.key.pseudonym →
      w.salt = w'.salt ∧ w.record.key.fieldName = w'.record.key.fieldName ∧
        w.record.key.scope = w'.record.key.scope ∧
        cellDoc texts w.record.originalValue = cellDoc texts w'.record.originalValue := by
    intro w hw w' hw' hpseudonym
    have hdigest := hdigests w hw w' hw'
      (((hinv.formed w hw).symm.trans hpseudonym).trans (hinv.formed w' hw'))
    exact ⟨hdigest.1, pseudonymMessage_inj.mp hdigest.2⟩
  constructor
  · intro hinverts w hw w' hw' hsalt hfield hscope hcell
    refine hinverts.apart w hw w' hw' hfield hscope ?_
    rw [hinv.formed w hw, hinv.formed w' hw', hsalt, pseudonymMessage_inj.mpr ⟨hfield, hscope, hcell⟩]
  · intro hunconfused
    have happart : ∀ w ∈ s.written, ∀ w' ∈ s.written,
        w.record.key.pseudonym = w'.record.key.pseudonym →
        Same w.record.originalValue w'.record.originalValue := by
      intro w hw w' hw' hpseudonym
      obtain ⟨hsalt, hfield, hscope, hcell⟩ := hdoc w hw w' hw' hpseudonym
      exact hunconfused w hw w' hw' hsalt hfield hscope hcell
    refine ⟨fun answered hanswered => ?_, fun w hw w' hw' _ _ hpseudonym => happart w hw w' hw' hpseudonym⟩
    obtain ⟨stored, hstored, hrows⟩ := hinv.recorded answered hanswered
    refine hrows.imp fun _ _ hrow => hrow.imp fun entry emitted hentry => ⟨hentry.1, ?_⟩
    intro rule hrule hmode hreversible hvalue
    obtain ⟨hmem, hemitted⟩ := hentry.2 rule hrule hmode hreversible hvalue
    have hname : rule.fieldName = entry.1 := by
      have hfound := List.find?_some hrule
      simpa using hfound
    obtain ⟨w', hw', hkey, hlookup⟩ := hinv.found _ (hstored _ hmem)
    refine ⟨_, hemitted, w'.record.originalValue, ?_, ?_⟩
    · rw [getOriginalValue]
      have hkeyOf : (⟨answered.call.tenantId, answered.call.plan.version texts, entry.1,
          effectiveScope answered.call.tenantId rule,
          (reversibleMapping texts answered.call.tenantId answered.call.plan rule entry.2).key.pseudonym⟩ :
          MappingKey) =
          (reversibleMapping texts answered.call.tenantId answered.call.plan rule entry.2).key := by
        rw [← hname]
        rfl
      rw [hkeyOf, hlookup]
      rfl
    · exact happart w' hw' _ (hstored _ hmem) (congrArg MappingKey.pseudonym hkey)

/-! ### Values that JSON has a form for -/

mutual

/-- No date, decimal or the like is in the value. -/
def Plain : Cell F O → Prop
  | .object _ => False
  | .list items => PlainItems items
  | .dict fields => PlainFields fields
  | _ => True

def PlainItems : List (Cell F O) → Prop
  | [] => True
  | item :: items => Plain item ∧ PlainItems items

def PlainFields : List (String × Cell F O) → Prop
  | [] => True
  | (_, value) :: fields => Plain value ∧ PlainFields fields

end

theorem PlainItems.mem {items : List (Cell F O)} (h : PlainItems items) : ∀ item ∈ items, Plain item := by
  induction items with
  | nil => simp
  | cons item items ih => exact List.forall_mem_cons.mpr ⟨h.1, ih h.2⟩

theorem PlainFields.mem {fields : List (String × Cell F O)} (h : PlainFields fields) :
    ∀ field ∈ fields, Plain field.2 := by
  induction fields with
  | nil => simp
  | cons field fields ih => exact List.forall_mem_cons.mpr ⟨h.1, ih h.2⟩

theorem fieldDocs_eq_map (fields : List (String × Cell F O)) :
    fieldDocs texts fields = fields.map fun field => (field.1, cellDoc texts field.2) := by
  induction fields with
  | nil => rfl
  | cons field fields ih => rw [fieldDocs, ih, List.map_cons]

theorem normFields_eq_map (fields : List (String × Cell F O)) :
    normFields fields = fields.map fun field => (field.1, norm field.2) := by
  induction fields with
  | nil => rfl
  | cons field fields ih => rw [normFields, ih, List.map_cons]

theorem normItems_eq {items items' : List (Cell F O)} (hdocs : itemDocs texts items = itemDocs texts items')
    (hsame : ∀ a ∈ items, ∀ b ∈ items', cellDoc texts a = cellDoc texts b → norm a = norm b) :
    normItems items = normItems items' := by
  induction items generalizing items' with
  | nil =>
    cases items' with
    | nil => rfl
    | cons item' items' => simp [itemDocs] at hdocs
  | cons item items ih =>
    cases items' with
    | nil => simp [itemDocs] at hdocs
    | cons item' items' =>
      obtain ⟨hitem, hitems⟩ := List.cons.inj hdocs
      rw [normItems, normItems, hsame item List.mem_cons_self item' List.mem_cons_self hitem,
        ih hitems fun a ha b hb => hsame a (List.mem_cons_of_mem _ ha) b (List.mem_cons_of_mem _ hb)]

theorem canon_normFields_eq {fields fields' : List (String × Cell F O)}
    (hdocs : Dict.canon (fieldDocs texts fields) = Dict.canon (fieldDocs texts fields'))
    (hsame : ∀ a ∈ fields, ∀ b ∈ fields', cellDoc texts a.2 = cellDoc texts b.2 → norm a.2 = norm b.2) :
    Dict.canon (normFields fields) = Dict.canon (normFields fields') := by
  rw [Dict.canon_eq_canon_iff] at hdocs ⊢
  intro key
  have hkey := hdocs key
  rw [fieldDocs_eq_map, fieldDocs_eq_map, Dict.lookup_map_snd, Dict.lookup_map_snd] at hkey
  rw [normFields_eq_map, normFields_eq_map, Dict.lookup_map_snd, Dict.lookup_map_snd]
  cases hvalue : fields.lookup key with
  | none =>
    rw [hvalue, Option.map_none, eq_comm, Option.map_eq_none_iff] at hkey
    rw [hkey]
  | some value =>
    cases hvalue' : fields'.lookup key with
    | none => simp [hvalue, hvalue'] at hkey
    | some value' =>
      rw [hvalue, hvalue', Option.map_some, Option.map_some, Option.some.injEq] at hkey
      rw [Option.map_some, Option.map_some, hsame _ (Dict.mem_of_lookup_eq_some hvalue) _
        (Dict.mem_of_lookup_eq_some hvalue') hkey]

mutual

theorem norm_eq_of_cellDoc_eq : ∀ a : Cell F O, Plain a → ∀ b : Cell F O, Plain b →
    cellDoc texts a = cellDoc texts b → norm a = norm b
  | .null, _, b, hb, h => by cases b <;> simp_all [cellDoc, Plain]
  | .bool _, _, b, hb, h => by cases b <;> simp_all [cellDoc, Plain]
  | .int n, _, b, hb, h => by
    cases b with
    | int m =>
      have heq : n = m := intToken_injective (by simpa [cellDoc] using h)
      rw [heq]
    | float f => exact absurd (by simpa [cellDoc] using h.symm) (texts.float_ne_int f n)
    | _ => simp_all [cellDoc, Plain]
  | .float f, _, b, hb, h => by
    cases b with
    | int n => exact absurd (by simpa [cellDoc] using h) (texts.float_ne_int f n)
    | float g =>
      have heq : f = g := texts.float_injective (by simpa [cellDoc] using h)
      rw [heq]
    | _ => simp_all [cellDoc, Plain]
  | .str _, _, b, hb, h => by cases b <;> simp_all [cellDoc, Plain]
  | .object _, ha, _, _, _ => absurd ha id
  | .list items, ha, b, hb, h => by
    cases b with
    | list items' =>
      have hitems := items_norm_eq items
      rw [norm, norm, normItems_eq (by simpa [cellDoc] using h) fun a hmem c hc hdoc =>
        hitems a hmem (PlainItems.mem ha a hmem) c (PlainItems.mem hb c hc) hdoc]
    | _ => simp_all [cellDoc, Plain]
  | .dict fields, ha, b, hb, h => by
    cases b with
    | dict fields' =>
      have hfields := fields_norm_eq fields
      rw [norm, norm, canon_normFields_eq (by simpa [cellDoc] using h) fun a hmem c hc hdoc =>
        hfields a hmem (PlainFields.mem ha a hmem) c.2 (PlainFields.mem hb c hc) hdoc]
    | _ => simp_all [cellDoc, Plain]

theorem items_norm_eq : ∀ (items : List (Cell F O)) (a : Cell F O), a ∈ items → Plain a →
    ∀ b : Cell F O, Plain b → cellDoc texts a = cellDoc texts b → norm a = norm b
  | [], _, h => absurd h List.not_mem_nil
  | item :: items, a, h => by
    rcases List.mem_cons.mp h with heq | h
    · exact heq ▸ norm_eq_of_cellDoc_eq item
    · exact items_norm_eq items a h

theorem fields_norm_eq : ∀ (fields : List (String × Cell F O)) (a : String × Cell F O), a ∈ fields →
    Plain a.2 → ∀ b : Cell F O, Plain b → cellDoc texts a.2 = cellDoc texts b → norm a.2 = norm b
  | [], _, h => absurd h List.not_mem_nil
  | (key, value) :: fields, a, h => by
    rcases List.mem_cons.mp h with heq | h
    · exact heq ▸ norm_eq_of_cellDoc_eq value
    · exact fields_norm_eq fields a h

end

/-- **Values without dates, decimals and the like are never confused.** -/
theorem unconfused_of_plain {s : State F O} (h : ∀ w ∈ s.written, Plain w.record.originalValue) :
    Unconfused texts s :=
  fun w hw w' hw' _ _ _ hdoc => norm_eq_of_cellDoc_eq _ (h w hw) _ (h w' hw') hdoc

/-! ### A date and its text -/

instance (texts : Texts F O) (s : State F O) : Decidable (NoCollision texts s) :=
  inferInstanceAs (Decidable (∀ w ∈ s.written, ∀ w' ∈ s.written, _ → _))

/-- The digests of the calls below. Dates are given by their text, and no floats occur. -/
def sampleTexts : Texts Empty String where
  floatText f := f.elim
  float_token f := f.elim
  float_injective f := f.elim
  float_ne_int f := f.elim
  objectText date := date
  hmac _ message :=
    if message = pseudonymMessageText "7" then
      "74f5eb89388ca4546ffbf75561c0aaea36b4e6e6671333c1b5da1794c68f9af6"
    else if message = pseudonymMessageText (String.ofList (quote "2024-01-01")) then
      "c19dcb688e4a2d131e1d92e63f7080daa4e10cc1954bf4f53e1d6826eec89413"
    else ""
  sha256 message :=
    if message = "salt".toList then "63479ad69a090b258277ec8fba6f99419a2ffb248981510657c944ccd1148e97"
    else "160aead858674fcfba3570f257b67fd88dd3cbe9e0f92c92913cf81ad367d023"
  redactTextPii text := text
where
  pseudonymMessageText (value : String) : List Char :=
    '\x7b' :: (quote "fieldName" ++ ':' :: (quote "when" ++ ',' :: (quote "scope" ++ ':' ::
      (quote "tenant-a" ++ ',' :: (quote "value" ++ ':' :: (value.toList ++ ['\x7d']))))))

def sampleCall (value : Cell Empty String) : Call Empty String where
  rows := [[("when", value)]]
  tenantId := "tenant-a"
  plan := ⟨"plan", "salt", [⟨"when", .pseudonymize, "tenant", true⟩]⟩

theorem plain_sample : ∀ w ∈ ([⟨"salt", reversibleMapping sampleTexts "tenant-a" (sampleCall .null).plan
      ⟨"when", .pseudonymize, "tenant", true⟩ (.int 7)⟩,
    ⟨"salt", reversibleMapping sampleTexts "tenant-a" (sampleCall .null).plan
      ⟨"when", .pseudonymize, "tenant", true⟩ (.str "2024-01-01")⟩] : List (Written Empty String)),
    Plain w.record.originalValue := by
  simp [reversibleMapping, Plain]

/-- A number and a text lead back. -/
theorem inverts_iff_unconfused_two : ∃ s, Run (next sampleTexts) Always {}
      [sampleCall (.str "2024-01-01"), sampleCall (.int 7)] s ∧ Inverts sampleTexts s := by
  have hrun := run_always_iff.mpr (rfl : replay (next sampleTexts) {}
    [sampleCall (.str "2024-01-01"), sampleCall (.int 7)] = some _)
  refine ⟨_, hrun, (inverts_iff_unconfused sampleTexts hrun (by decide +kernel)).mpr
    (unconfused_of_plain plain_sample)⟩

/-- The date and its text have one pseudonym, and the pseudonym of the text leads to the date. -/
theorem not_inverts_of_date : ∃ s, Run (next sampleTexts) Always {}
      [sampleCall (.object "2024-01-01"), sampleCall (.str "2024-01-01")] s ∧
    NoCollision sampleTexts s ∧ ¬ Inverts sampleTexts s := by
  have hrun := run_always_iff.mpr (rfl : replay (next sampleTexts) {}
    [sampleCall (.object "2024-01-01"), sampleCall (.str "2024-01-01")] = some _)
  refine ⟨_, hrun, by decide +kernel, fun hinverts => ?_⟩
  have hsame := hinverts.apart
    ⟨"salt", reversibleMapping sampleTexts "tenant-a" (sampleCall .null).plan
      ⟨"when", .pseudonymize, "tenant", true⟩ (.object "2024-01-01")⟩ (List.mem_cons_of_mem _ List.mem_cons_self)
    ⟨"salt", reversibleMapping sampleTexts "tenant-a" (sampleCall .null).plan
      ⟨"when", .pseudonymize, "tenant", true⟩ (.str "2024-01-01")⟩ List.mem_cons_self rfl rfl (by decide +kernel)
  exact absurd hsame (by simp [Same, norm, reversibleMapping])

end FoundryLite.Security.Privacy
