import FoundryLite.Library.Table
import FoundryLite.Library.Transaction

/-!
# Two runs that one owner cannot tell apart

Two runs of a transaction are coupled when they start in related states and give the same answer,
or the same refusal, and end in related states again. Coupling passes through a sequence
(`Transaction.Couples.bind`), so it has to be shown of the primitive steps only.

The relation of interest is between tables that hold the same rows of one owner, whatever they hold
of others (`Table.SameOwn`). A lookup that is qualified by the owner answers alike in both. An
insertion does so too, if no row of another owner holds the primary key: that key is unique over
all owners.

## Main results

* `Transaction.Couples`, with `pure`, `throw`, `bind`, `mapM`.
* `Table.SameOwn.insert?`, `Table.SameOwn.modify`, `Table.SameOwn.deleteWhere`.
* `Transaction.Stays`: a reflexive and transitive relation between the states before and after.
-/

/-! ### Tables with the same rows of one owner -/

namespace Table

variable {ρ ι κ ω : Type*} {pk : ρ → ι} {uq : ρ → κ} [DecidableEq ω]

/-- Both tables hold the same rows of the owner, and no row of another owner has one of the keys
`D`. -/
structure SameOwn (owner : ρ → ω) (o : ω) (D : Set ι) (t t' : Table pk uq) : Prop where
  own : t.rows.filter (fun r => owner r = o) = t'.rows.filter fun r => owner r = o
  clear_left : ∀ r ∈ t.rows, owner r ≠ o → pk r ∉ D
  clear_right : ∀ r ∈ t'.rows, owner r ≠ o → pk r ∉ D

namespace SameOwn

variable {owner : ρ → ω} {o : ω} {D : Set ι} {t t' : Table pk uq} {r : ρ}

theorem symm (h : SameOwn owner o D t t') : SameOwn owner o D t' t :=
  ⟨h.own.symm, h.clear_right, h.clear_left⟩

theorem mono {E : Set ι} (h : SameOwn owner o D t t') (hE : E ⊆ D) : SameOwn owner o E t t' :=
  ⟨h.own, fun r hr hne hmem => h.clear_left r hr hne (hE hmem), fun r hr hne hmem =>
    h.clear_right r hr hne (hE hmem)⟩

theorem of_own (h : t.rows.filter (fun r => owner r = o) = t'.rows.filter fun r => owner r = o) :
    SameOwn owner o ∅ t t' :=
  ⟨h, fun _ _ _ hmem => hmem.elim, fun _ _ _ hmem => hmem.elim⟩

theorem mem_iff (h : SameOwn owner o D t t') (hr : owner r = o) : r ∈ t.rows ↔ r ∈ t'.rows := by
  have hfilter : ∀ u : Table pk uq, r ∈ u.rows ↔ r ∈ u.rows.filter fun r => owner r = o := by
    intro u
    simp [hr]
  rw [hfilter t, hfilter t', h.own]

/-- A scan for rows of the owner. -/
theorem find?_eq (h : SameOwn owner o D t t') (q : ρ → Bool) :
    (t.rows.find? fun r => owner r = o && q r) = t'.rows.find? fun r => owner r = o && q r := by
  have hfilter : ∀ u : Table pk uq, (u.rows.find? fun r => owner r = o && q r) =
      (u.rows.filter fun r => owner r = o).find? q := by
    intro u
    rw [List.find?_filter]
    congr 1
    funext r
    simp
  rw [hfilter t, hfilter t', h.own]

theorem filter_eq (h : SameOwn owner o D t t') (q : ρ → Bool) :
    (t.rows.filter fun r => owner r = o && q r) =
      t'.rows.filter fun r => owner r = o && q r := by
  have hfilter : ∀ u : Table pk uq, (u.rows.filter fun r => owner r = o && q r) =
      (u.rows.filter fun r => owner r = o).filter q := by
    intro u
    rw [List.filter_filter]
    exact List.filter_congr fun r _ => Bool.and_comm _ _
  rw [hfilter t, hfilter t', h.own]

theorem all_eq (h : SameOwn owner o D t t') {q : ρ → Bool} (hq : ∀ r, owner r ≠ o → q r = true) :
    t.rows.all q = t'.rows.all q := by
  have hfilter : ∀ u : Table pk uq,
      u.rows.all q = (u.rows.filter fun r => owner r = o).all q := by
    intro u
    rw [List.all_filter]
    refine List.all_congr rfl fun r => ?_
    by_cases hr : owner r = o
    · simp [hr]
    · simp [hr, hq r hr]
  rw [hfilter t, hfilter t', h.own]

/-- A lookup by a unique key that names the owner. -/
theorem get?_eq [DecidableEq κ] (h : SameOwn owner o D t t') {k : κ}
    (hk : ∀ r, uq r = k → owner r = o) : t.get? k = t'.get? k := by
  have hpred : (fun r => decide (uq r = k)) = fun r => owner r = o && decide (uq r = k) := by
    funext r
    by_cases hr : uq r = k
    · simp [hr, hk r hr]
    · simp [hr]
  rw [get?, get?, hpred]
  exact h.find?_eq fun r => uq r = k

variable [DecidableEq ι] [DecidableEq κ]

/-- Whether a row of the owner can be inserted depends on the owner's rows only. -/
theorem insert?_isSome_imp (h : SameOwn owner o D t t') (hpk : pk r ∈ D)
    (huq : ∀ x, uq x = uq r → owner x = o) (hsome : (t.insert? r).isSome) :
    (t'.insert? r).isSome := by
  obtain ⟨hpkfree, huqfree⟩ := insert?_isSome_iff.mp hsome
  refine insert?_isSome_iff.mpr ⟨fun hmem => ?_, fun hmem => ?_⟩
  · obtain ⟨x, hx, heq⟩ := List.mem_map.mp hmem
    have hown : owner x = o := by
      by_contra hne
      exact h.clear_right x hx hne (heq ▸ hpk)
    exact hpkfree (heq ▸ List.mem_map_of_mem ((h.mem_iff hown).mpr hx))
  · obtain ⟨x, hx, heq⟩ := List.mem_map.mp hmem
    exact huqfree (heq ▸ List.mem_map_of_mem ((h.mem_iff (huq x heq)).mpr hx))

/-- What an insertion makes of two such tables. -/
inductive Inserted (owner : ρ → ω) (o : ω) (D : Set ι) :
    Option (Table pk uq) → Option (Table pk uq) → Prop
  | refused : Inserted owner o D none none
  | done {t t' : Table pk uq} : SameOwn owner o D t t' → Inserted owner o D (some t) (some t')

omit [DecidableEq ι] [DecidableEq κ] in
theorem Inserted.cases {t t' : Option (Table pk uq)} (h : Inserted owner o D t t') :
    (t = none ∧ t' = none) ∨ ∃ a b, t = some a ∧ t' = some b ∧ SameOwn owner o D a b := by
  cases h with
  | refused => exact .inl ⟨rfl, rfl⟩
  | done h => exact .inr ⟨_, _, rfl, rfl, h⟩

/-- **An insertion succeeds in both tables or in neither**, if its primary key is not one of another
owner's. -/
theorem insert? (h : SameOwn owner o D t t') (hr : owner r = o) (hpk : pk r ∈ D)
    (huq : ∀ x, uq x = uq r → owner x = o) :
    Inserted owner o D (t.insert? r) (t'.insert? r) := by
  cases hleft : t.insert? r with
  | none =>
    cases hright : t'.insert? r with
    | none => exact .refused
    | some u =>
      have hsome := h.symm.insert?_isSome_imp hpk huq (by rw [hright]; rfl)
      simp [hleft] at hsome
  | some u =>
    obtain ⟨u', hright⟩ := Option.isSome_iff_exists.mp
      (h.insert?_isSome_imp hpk huq (by rw [hleft]; rfl))
    rw [hright]
    refine .done ⟨?_, fun x hx hne => ?_, fun x hx hne => ?_⟩
    · rw [rows_of_insert?_eq_some hleft, rows_of_insert?_eq_some hright, List.filter_append,
        List.filter_append, h.own]
    · rw [rows_of_insert?_eq_some hleft, List.mem_append, List.mem_singleton] at hx
      rcases hx with hx | rfl
      · exact h.clear_left x hx hne
      · exact absurd hr hne
    · rw [rows_of_insert?_eq_some hright, List.mem_append, List.mem_singleton] at hx
      rcases hx with hx | rfl
      · exact h.clear_right x hx hne
      · exact absurd hr hne

end SameOwn

section Writes

variable {owner : ρ → ω} {o : ω} {D : Set ι} {t t' : Table pk uq} {p : ρ → Bool}
  {u : Update pk uq}

/-- The rows of an owner after an update that changes no owner. -/
theorem filter_owner_modify (howner : ∀ r, owner (u.apply r) = owner r) :
    ((t.modify p u).rows.filter fun r => owner r = o) =
      (t.rows.filter fun r => owner r = o).map fun r => if p r then u.apply r else r := by
  rw [rows_modify, List.filter_map]
  congr 1
  refine List.filter_congr fun r _ => ?_
  rw [Function.comp_apply]
  split_ifs
  · rw [howner]
  · rfl

omit [DecidableEq ω] in
theorem clear_modify (howner : ∀ r, owner (u.apply r) = owner r)
    (h : ∀ r ∈ t.rows, owner r ≠ o → pk r ∉ D) :
    ∀ r ∈ (t.modify p u).rows, owner r ≠ o → pk r ∉ D := by
  intro r hr hne
  obtain ⟨old, hold, rfl⟩ := List.mem_map.mp hr
  split_ifs at hne ⊢
  · rw [u.pk_apply]
    exact h old hold (howner old ▸ hne)
  · exact h old hold hne

theorem SameOwn.modify (h : SameOwn owner o D t t') (howner : ∀ r, owner (u.apply r) = owner r) :
    SameOwn owner o D (t.modify p u) (t'.modify p u) where
  own := by rw [filter_owner_modify howner, filter_owner_modify howner, h.own]
  clear_left := clear_modify howner h.clear_left
  clear_right := clear_modify howner h.clear_right

theorem SameOwn.deleteWhere (h : SameOwn owner o D t t') :
    SameOwn owner o D (t.deleteWhere p) (t'.deleteWhere p) where
  own := by
    have hcomm : ∀ s : Table pk uq, ((s.deleteWhere p).rows.filter fun r => owner r = o) =
        (s.rows.filter fun r => owner r = o).filter fun r => !p r := by
      intro s
      rw [List.filter_filter]
      change List.filter _ (List.filter _ _) = _
      rw [List.filter_filter]
      exact List.filter_congr fun r _ => Bool.and_comm _ _
    rw [hcomm t, hcomm t', h.own]
  clear_left r hr := h.clear_left r (List.mem_of_mem_filter hr)
  clear_right r hr := h.clear_right r (List.mem_of_mem_filter hr)

/-! ### Writes on behalf of one owner -/

/-- Every other owner has the same rows in both tables. -/
def OthersKept (owner : ρ → ω) (o : ω) (t t' : Table pk uq) : Prop :=
  ∀ other ≠ o, t'.rows.filter (fun r => owner r = other) = t.rows.filter fun r => owner r = other

theorem OthersKept.refl (t : Table pk uq) : OthersKept owner o t t := fun _ _ => rfl

theorem OthersKept.trans {t'' : Table pk uq} (h : OthersKept owner o t t')
    (h' : OthersKept owner o t' t'') : OthersKept owner o t t'' :=
  fun other hne => (h' other hne).trans (h other hne)

theorem OthersKept.insert? [DecidableEq ι] [DecidableEq κ] {r : ρ} (hr : owner r = o)
    (h : t.insert? r = some t') : OthersKept owner o t t' := by
  intro other hne
  have hother : ¬ owner r = other := fun heq => hne (heq.symm.trans hr)
  rw [rows_of_insert?_eq_some h, List.filter_append]
  simp [hother]

theorem OthersKept.modify (hown : ∀ r ∈ t.rows, p r = true → owner r = o)
    (howner : ∀ r, owner (u.apply r) = owner r) : OthersKept owner o t (t.modify p u) := by
  intro other hne
  rw [filter_owner_modify howner]
  refine (List.map_congr_left fun r hr => ?_).trans (List.map_id _)
  obtain ⟨hmem, hother⟩ := List.mem_filter.mp hr
  have hp : ¬ p r = true := fun hp =>
    hne ((of_decide_eq_true hother).symm.trans (hown r hmem hp))
  simp [hp]

theorem OthersKept.deleteWhere (hown : ∀ r, p r = true → owner r = o) :
    OthersKept owner o t (t.deleteWhere p) := by
  intro other hne
  change List.filter _ (List.filter _ _) = _
  rw [List.filter_filter]
  refine List.filter_congr fun r _ => ?_
  by_cases hp : p r = true
  · have hother : ¬ owner r = other := fun heq => hne (heq.symm.trans (hown r hp))
    simp [hother]
  · simp [hp]

/-- A table that was written on behalf of another owner. -/
theorem SameOwn.of_othersKept {other : ω} {t'' : Table pk uq} (h : SameOwn owner o D t t'')
    (hkept : OthersKept owner other t t') (hne : o ≠ other) : SameOwn owner o ∅ t' t'' :=
  .of_own ((hkept o hne).trans h.own)

/-- A table that was only ever written on behalf of one owner holds rows of that owner. -/
theorem OthersKept.owner_eq (h : OthersKept owner o ∅ t) {r : ρ} (hr : r ∈ t.rows) :
    owner r = o := by
  by_contra hne
  have hmem : r ∈ t.rows.filter fun x => owner x = owner r :=
    List.mem_filter.mpr ⟨hr, decide_eq_true rfl⟩
  rw [h (owner r) hne] at hmem
  exact absurd hmem List.not_mem_nil

end Writes

end Table

namespace Transaction

variable {ε σ α β : Type} {R : σ → σ → Prop} {s t : σ}

/-! ### Coupled runs -/

/-- The two results are the same refusal, or the same answer in related states. -/
inductive Agree (R : σ → σ → Prop) : Except ε (α × σ) → Except ε (α × σ) → Prop
  | ok {a : α} {s t : σ} : R s t → Agree R (.ok (a, s)) (.ok (a, t))
  | error {e : ε} : Agree R (.error e) (.error e)

/-- From related states, the two transactions agree. -/
def Couples (R : σ → σ → Prop) (x y : Transaction ε σ α) : Prop :=
  ∀ s t, R s t → Agree R (x s) (y t)

theorem Agree.bind {x y : Except ε (α × σ)} {f g : α → Transaction ε σ β} (h : Agree R x y)
    (hf : ∀ a, Couples R (f a) (g a)) :
    Agree R (x >>= fun r => f r.1 r.2) (y >>= fun r => g r.1 r.2) := by
  cases h with
  | ok hR => exact hf _ _ _ hR
  | error => exact .error

/-- The second parts need to agree in the states that the first parts end in. -/
theorem Agree.bind_of {x y : Transaction ε σ α} {f g : α → Transaction ε σ β}
    (h : Agree R (x s) (y t)) (hf : ∀ a s' t', x s = .ok (a, s') → y t = .ok (a, t') → R s' t' →
      Agree R (f a s') (g a t')) : Agree R ((x >>= f) s) ((y >>= g) t) := by
  change Agree R (x s >>= fun r => f r.1 r.2) (y t >>= fun r => g r.1 r.2)
  generalize hx : x s = first at h ⊢
  generalize hy : y t = second at h ⊢
  cases h with
  | ok hR => exact hf _ _ _ hx hy hR
  | error => exact .error

theorem Couples.pure (a : α) : Couples R (Pure.pure a : Transaction ε σ α) (Pure.pure a) :=
  fun _ _ hR => .ok hR

theorem Couples.throw (e : ε) : Couples R (throw e : Transaction ε σ α) (throw e) :=
  fun _ _ _ => .error

theorem Couples.bind {x y : Transaction ε σ α} {f g : α → Transaction ε σ β} (hx : Couples R x y)
    (hf : ∀ a, Couples R (f a) (g a)) : Couples R (x >>= f) (y >>= g) :=
  fun s t hR => (hx s t hR).bind hf

/-- What is done to the state that was read. -/
theorem Agree.get_bind {f g : σ → Transaction ε σ β} (h : Agree R (f s s) (g t t)) :
    Agree R (((MonadState.get : Transaction ε σ σ) >>= f) s)
      (((MonadState.get : Transaction ε σ σ) >>= g) t) := h

theorem Couples.get_bind {f g : σ → Transaction ε σ β}
    (h : ∀ s t, R s t → Couples R (f s) (g t)) :
    Couples R ((MonadState.get : Transaction ε σ σ) >>= f)
      ((MonadState.get : Transaction ε σ σ) >>= g) :=
  fun s t hR => (h s t hR s t hR).get_bind

theorem Couples.modify {f g : σ → σ} (h : ∀ s t, R s t → R (f s) (g t)) :
    Couples R (modify f : Transaction ε σ PUnit) (modify g) :=
  fun s t hR => .ok (h s t hR)

/-- A part of the state is replaced by a new one, if there is one. -/
def replace {τ : Type} (new : σ → Option τ) (put : τ → σ → σ) (e : ε) : Transaction ε σ PUnit :=
  MonadState.get >>= fun s => Transaction.requireSome (new s) e >>= fun a => modifyThe σ (put a)

theorem replace_apply {τ : Type} {new : σ → Option τ} {put : τ → σ → σ} {e : ε} :
    replace new put e s =
      match new s with
      | some a => .ok (⟨⟩, put a s)
      | none => .error e := by
  change ((Transaction.requireSome (new s) e : Transaction ε σ τ) >>= fun a =>
    (modifyThe σ (put a) : Transaction ε σ PUnit)) s = _
  cases new s with
  | some a => rfl
  | none => rfl

theorem Couples.replace {τ : Type} {new : σ → Option τ} {put : τ → σ → σ} {e : ε}
    (h : ∀ s t, R s t → (new s = none ∧ new t = none) ∨
      ∃ a b, new s = some a ∧ new t = some b ∧ R (put a s) (put b t)) :
    Couples R (Transaction.replace new put e) (Transaction.replace new put e) := by
  intro s t hR
  rw [replace_apply, replace_apply]
  rcases h s t hR with ⟨hs, ht⟩ | ⟨a, b, hs, ht, hab⟩
  · rw [hs, ht]
    exact .error
  · rw [hs, ht]
    exact .ok hab

theorem Couples.require {holds : Bool} {e : ε} :
    Couples R (require holds e : Transaction ε σ Unit) (require holds e) := by
  cases holds with
  | true => exact Couples.pure ()
  | false => exact Couples.throw e

theorem Couples.requireSome {value? : Option α} {e : ε} :
    Couples R (requireSome value? e : Transaction ε σ α) (requireSome value? e) := by
  cases value? with
  | some a => exact Couples.pure a
  | none => exact Couples.throw e

theorem Couples.lift {x : Except ε α} :
    Couples R (liftM x : Transaction ε σ α) (liftM x) := by
  intro s t hR
  cases x with
  | ok a => exact .ok hR
  | error e => exact .error

theorem Couples.mapM {f g : α → Transaction ε σ β} {l : List α}
    (h : ∀ a ∈ l, Couples R (f a) (g a)) : Couples R (l.mapM f) (l.mapM g) := by
  induction l with
  | nil => exact Couples.pure []
  | cons a l ih =>
    rw [List.mapM_cons, List.mapM_cons]
    exact (h a List.mem_cons_self).bind fun _ =>
      (ih fun a ha => h a (List.mem_cons_of_mem _ ha)).bind fun _ => Couples.pure _

/-- A success ends in a state that the start is related to. -/
def Stays (R : σ → σ → Prop) (x : Transaction ε σ α) : Prop :=
  ∀ s a t, x s = .ok (a, t) → R s t

section Stays

variable (hrefl : ∀ s, R s s)

include hrefl

theorem Stays.pure (a : α) : Stays R (Pure.pure a : Transaction ε σ α) := by
  intro s a' t h
  obtain ⟨-, rfl⟩ := Prod.mk.inj (pure_eq_ok_iff.mp h)
  exact hrefl _

theorem Stays.require {holds : Bool} {e : ε} :
    Stays R (require holds e : Transaction ε σ Unit) := by
  intro s a t h
  obtain ⟨-, heq⟩ := require_eq_ok_iff.mp h
  rw [(Prod.mk.inj heq).2]
  exact hrefl t

theorem Stays.requireSome {value? : Option α} {e : ε} :
    Stays R (requireSome value? e : Transaction ε σ α) := by
  intro s a t h
  obtain ⟨value, -, heq⟩ := requireSome_eq_ok_iff.mp h
  rw [(Prod.mk.inj heq).2]
  exact hrefl t

theorem Stays.lift {x : Except ε α} : Stays R (liftM x : Transaction ε σ α) := by
  intro s a t h
  obtain ⟨value, -, heq⟩ := lift_eq_ok_iff.mp h
  rw [(Prod.mk.inj heq).2]
  exact hrefl t

end Stays

theorem Stays.bind (htrans : ∀ s t u, R s t → R t u → R s u) {x : Transaction ε σ α}
    {f : α → Transaction ε σ β} (hx : Stays R x) (hf : ∀ a, Stays R (f a)) :
    Stays R (x >>= f) := by
  intro s b u h
  obtain ⟨a, t, ha, hb⟩ := bind_eq_ok_iff.mp h
  exact htrans _ _ _ (hx s a t ha) (hf a t b u hb)

theorem Stays.get_bind {f : σ → Transaction ε σ β} (hf : ∀ s, Stays R (f s)) :
    Stays R ((MonadState.get : Transaction ε σ σ) >>= f) := by
  intro s b t h
  obtain ⟨a, s₁, ha, hb⟩ := bind_eq_ok_iff.mp h
  obtain ⟨rfl, rfl⟩ := Prod.mk.inj (get_eq_ok_iff.mp ha)
  exact hf _ _ b t hb

/-- Coupled transactions are answered alike, and leave related states. -/
theorem Agree.attempt {x y : Transaction ε σ α} (h : Agree R (x s) (y t)) (hR : R s t) :
    (x.attempt s).1 = (y.attempt t).1 ∧ R (x.attempt s).2 (y.attempt t).2 := by
  generalize hx : x s = first at h
  generalize hy : y t = second at h
  cases h with
  | ok hR' =>
    rw [attempt_of_ok hx, attempt_of_ok hy]
    exact ⟨rfl, hR'⟩
  | error =>
    rw [attempt_of_error hx, attempt_of_error hy]
    exact ⟨rfl, hR⟩

end Transaction
