import FoundryLite.Library.Fallible

/-!
# Transactions

A transaction is a computation over a state that may be refused. A refusal carries no state, so
the caller is left with the state it started from: that is `Transaction.attempt`, and atomicity is
its definition.

The lemmas read a successful run backwards. A sequence that succeeded ran each of its parts, and a
loop that succeeded ran its body once for each element, in order, each time from the state the one
before it left. `mapM_invariant` turns a fact about one round into a fact about the loop.

## Main results

* `Transaction.bind_eq_ok_iff`, `Transaction.mapM_append_eq_ok_iff`: success of a sequence.
* `Transaction.mapM_relates`, `Transaction.mapM_invariant`: from one round to the whole loop.
* `Transaction.exists_mapM_eq_ok`: when a loop succeeds.
* `Transaction.RefusedOnly`: what a transaction may be refused with.
* `Transaction.Keeps`: the parts of the state that a transaction does not write.
* `Transaction.zoom_eq_ok_iff`: success on a part of the state.
* `Transaction.attempt_of_error`: a refused transaction changes nothing.
-/

/-- A computation over a state `σ` that may be refused with an error. -/
abbrev Transaction (ε σ α : Type) := StateT σ (Except ε) α

namespace Transaction

variable {ε σ α β γ : Type} {s s' : σ}

/-! ### Primitive steps -/

@[simp]
theorem pure_eq_ok_iff {a : α} {r : α × σ} :
    (pure a : Transaction ε σ α) s = .ok r ↔ (a, s) = r := by
  change (.ok (a, s) : Except ε (α × σ)) = .ok r ↔ _
  rw [Except.ok.injEq]

@[simp]
theorem bind_eq_ok_iff {x : Transaction ε σ α} {f : α → Transaction ε σ β} {r : β × σ} :
    (x >>= f) s = .ok r ↔ ∃ a s₁, x s = .ok (a, s₁) ∧ f a s₁ = .ok r := by
  change (x s >>= fun p => f p.1 p.2) = .ok r ↔ _
  rw [Except.bind_eq_ok_iff]
  exact Prod.exists

theorem bind_eq_error_iff {x : Transaction ε σ α} {f : α → Transaction ε σ β} {e : ε} :
    (x >>= f) s = .error e ↔
      x s = .error e ∨ ∃ a s₁, x s = .ok (a, s₁) ∧ f a s₁ = .error e := by
  change (x s >>= fun p => f p.1 p.2) = .error e ↔ _
  cases x s with
  | error e' => simp [bind, Except.bind]
  | ok p => simp [bind, Except.bind, Prod.ext_iff]

@[simp]
theorem map_eq_ok_iff {x : Transaction ε σ α} {f : α → β} {r : β × σ} :
    (f <$> x) s = .ok r ↔ ∃ a s₁, x s = .ok (a, s₁) ∧ (f a, s₁) = r := by
  change (x s >>= fun p => pure (f p.1, p.2)) = .ok r ↔ _
  rw [Except.bind_eq_ok_iff]
  simp

@[simp]
theorem get_eq_ok_iff {r : σ × σ} : (get : Transaction ε σ σ) s = .ok r ↔ (s, s) = r := by
  simp [get, getThe, MonadStateOf.get, StateT.get, pure, Except.pure]

@[simp]
theorem set_eq_ok_iff {t : σ} {r : PUnit × σ} :
    (set t : Transaction ε σ PUnit) s = .ok r ↔ (PUnit.unit, t) = r := by
  change (.ok (PUnit.unit, t) : Except ε (PUnit × σ)) = .ok r ↔ _
  rw [Except.ok.injEq]

@[simp]
theorem modify_eq_ok_iff {f : σ → σ} {r : PUnit × σ} :
    (modify f : Transaction ε σ PUnit) s = .ok r ↔ (PUnit.unit, f s) = r := by
  simp [modify, modifyGet, MonadStateOf.modifyGet, StateT.modifyGet, pure, Except.pure]

@[simp]
theorem throw_eq_ok_iff {e : ε} {r : α × σ} :
    (throw e : Transaction ε σ α) s = .ok r ↔ False := by
  simp [throw, throwThe, MonadExceptOf.throw, StateT.lift, bind, Except.bind]

@[simp]
theorem lift_eq_ok_iff {x : Except ε α} {r : α × σ} :
    (liftM x : Transaction ε σ α) s = .ok r ↔ ∃ a, x = .ok a ∧ (a, s) = r := by
  change (x >>= fun a => pure (a, s)) = .ok r ↔ _
  rw [Except.bind_eq_ok_iff]
  simp

/-! ### Refusals -/

/-- Go on, or refuse with an error. -/
def require (holds : Bool) (e : ε) : Transaction ε σ Unit := if holds then pure () else throw e

/-- The value that is there, or refuse with an error. -/
def requireSome (value? : Option α) (e : ε) : Transaction ε σ α :=
  match value? with
  | some value => pure value
  | none => throw e

@[simp]
theorem require_eq_ok_iff {holds : Bool} {e : ε} {r : Unit × σ} :
    require holds e s = .ok r ↔ holds ∧ ((), s) = r := by
  cases holds <;> simp [require]

@[simp]
theorem requireSome_eq_ok_iff {value? : Option α} {e : ε} {r : α × σ} :
    requireSome value? e s = .ok r ↔ ∃ value, value? = some value ∧ (value, s) = r := by
  cases value? <;> simp [requireSome]

/-! ### Loops -/

theorem mapM_nil_eq_ok_iff {f : α → Transaction ε σ β} {r : List β × σ} :
    ([] : List α).mapM f s = .ok r ↔ ([], s) = r := by
  rw [List.mapM_nil, pure_eq_ok_iff]

theorem mapM_cons_eq_ok_iff {f : α → Transaction ε σ β} {a : α} {l : List α} {bs : List β} :
    (a :: l).mapM f s = .ok (bs, s') ↔
      ∃ b s₁ bs', f a s = .ok (b, s₁) ∧ l.mapM f s₁ = .ok (bs', s') ∧ b :: bs' = bs := by
  rw [List.mapM_cons]
  simp only [bind_eq_ok_iff, pure_eq_ok_iff, Prod.mk.injEq]
  constructor
  · rintro ⟨b, s₁, hb, bs', s₂, hbs, rfl, rfl⟩
    exact ⟨b, s₁, bs', hb, hbs, rfl⟩
  · rintro ⟨b, s₁, bs', hb, hbs, rfl⟩
    exact ⟨b, s₁, hb, bs', s', hbs, rfl, rfl⟩

theorem mapM_append_eq_ok_iff {f : α → Transaction ε σ β} {l m : List α} {cs : List β} :
    (l ++ m).mapM f s = .ok (cs, s') ↔
      ∃ bs s₁ bs', l.mapM f s = .ok (bs, s₁) ∧ m.mapM f s₁ = .ok (bs', s') ∧ bs ++ bs' = cs := by
  rw [List.mapM_append]
  simp only [bind_eq_ok_iff, pure_eq_ok_iff, Prod.mk.injEq]
  constructor
  · rintro ⟨bs, s₁, hl, bs', s₂, hm, rfl, rfl⟩
    exact ⟨bs, s₁, bs', hl, hm, rfl⟩
  · rintro ⟨bs, s₁, bs', hl, hm, rfl⟩
    exact ⟨bs, s₁, hl, bs', s', hm, rfl, rfl⟩

/-- A reflexive and transitive relation that every round respects holds across the loop. -/
theorem mapM_relates {f : α → Transaction ε σ β} (R : σ → σ → Prop) (hrefl : ∀ s, R s s)
    (htrans : ∀ s t u, R s t → R t u → R s u) {l : List α} {bs : List β}
    (hstep : ∀ a ∈ l, ∀ s b s', f a s = .ok (b, s') → R s s') (h : l.mapM f s = .ok (bs, s')) :
    R s s' := by
  induction l generalizing s bs with
  | nil =>
    obtain ⟨-, rfl⟩ := Prod.mk.inj (mapM_nil_eq_ok_iff.mp h)
    exact hrefl s
  | cons a l ih =>
    obtain ⟨b, s₁, bs', hb, hbs, -⟩ := mapM_cons_eq_ok_iff.mp h
    exact htrans _ _ _ (hstep a List.mem_cons_self _ _ _ hb)
      (ih (fun a ha => hstep a (List.mem_cons_of_mem _ ha)) hbs)

/-- An invariant that every round keeps is kept by the loop. -/
theorem mapM_invariant {f : α → Transaction ε σ β} (I : σ → Prop) {l : List α} {bs : List β}
    (hstep : ∀ a ∈ l, ∀ s b s', f a s = .ok (b, s') → I s → I s') (h : l.mapM f s = .ok (bs, s'))
    (hs : I s) : I s' :=
  mapM_relates (fun s t => I s → I t) (fun _ hs => hs) (fun _ _ _ hst htu hs => htu (hst hs))
    hstep h hs

/-- A loop succeeds when every round can succeed from the start and no round gets in the way of
another. -/
theorem exists_mapM_eq_ok {f : α → Transaction ε σ β} {P : α → σ → Prop} {apart : α → α → Prop}
    {l : List α} (hstep : ∀ a ∈ l, ∀ s, P a s → ∃ b s', f a s = .ok (b, s'))
    (hframe : ∀ a ∈ l, ∀ a' ∈ l, apart a a' → ∀ s b s', f a s = .ok (b, s') → P a' s → P a' s')
    (hl : l.Pairwise apart) (hs : ∀ a ∈ l, P a s) : ∃ bs s', l.mapM f s = .ok (bs, s') := by
  induction l generalizing s with
  | nil => exact ⟨[], s, mapM_nil_eq_ok_iff.mpr rfl⟩
  | cons a l ih =>
    have hmem : ∀ {x}, x ∈ l → x ∈ a :: l := fun hx => List.mem_cons_of_mem a hx
    obtain ⟨hhead, htail⟩ := List.pairwise_cons.mp hl
    obtain ⟨b, s₁, hb⟩ := hstep a List.mem_cons_self s (hs a List.mem_cons_self)
    obtain ⟨bs, s', hbs⟩ := ih (fun x hx => hstep x (hmem hx))
      (fun x hx y hy => hframe x (hmem hx) y (hmem hy)) htail fun x hx =>
        hframe a List.mem_cons_self x (hmem hx) (hhead x hx) s b s₁ hb (hs x (hmem hx))
    exact ⟨b :: bs, s', mapM_cons_eq_ok_iff.mpr ⟨b, s₁, bs, hb, hbs, rfl⟩⟩

/-! ### What a transaction is refused with -/

/-- Whatever the transaction is refused with is of a kind. -/
def RefusedOnly (P : ε → Prop) (x : Transaction ε σ α) : Prop := ∀ s e, x s = .error e → P e

namespace RefusedOnly

variable {P : ε → Prop}

theorem pure (a : α) : RefusedOnly P (Pure.pure a : Transaction ε σ α) := by
  intro s e h
  cases h

theorem throw {e : ε} (he : P e) : RefusedOnly P (throw e : Transaction ε σ α) := by
  intro s e' h
  cases h
  exact he

theorem bind {x : Transaction ε σ α} {f : α → Transaction ε σ β} (hx : RefusedOnly P x)
    (hf : ∀ a, RefusedOnly P (f a)) : RefusedOnly P (x >>= f) := by
  intro s e h
  rcases bind_eq_error_iff.mp h with h | ⟨a, s₁, -, h⟩
  · exact hx s e h
  · exact hf a s₁ e h

theorem require {holds : Bool} {e : ε} (he : P e) :
    RefusedOnly P (require holds e : Transaction ε σ Unit) := by
  cases holds
  · exact throw he
  · exact pure ()

theorem mapM {f : α → Transaction ε σ β} (hf : ∀ a, RefusedOnly P (f a)) (l : List α) :
    RefusedOnly P (l.mapM f) := by
  induction l with
  | nil =>
    rw [List.mapM_nil]
    exact pure []
  | cons a l ih =>
    rw [List.mapM_cons]
    exact bind (hf a) fun b => bind ih fun bs => pure (b :: bs)

end RefusedOnly

/-! ### What a transaction keeps -/

/-- A transaction that succeeds leaves this part of the state as it was. -/
def Keeps (part : σ → β) (x : Transaction ε σ α) : Prop :=
  ∀ s a s', x s = .ok (a, s') → part s' = part s

section Keeps

variable {part : σ → γ}

/-- What is kept, so is anything read off it. -/
theorem Keeps.comp {δ : Type} {x : Transaction ε σ α} (h : Keeps part x) (f : γ → δ) :
    Keeps (fun s => f (part s)) x := fun s a s' hx => congrArg f (h s a s' hx)

theorem Keeps.pure (a : α) : Keeps part (Pure.pure a : Transaction ε σ α) := by
  intro s a' s' h
  obtain ⟨-, rfl⟩ := Prod.mk.inj (pure_eq_ok_iff.mp h)
  rfl

theorem Keeps.throw (e : ε) : Keeps part (throw e : Transaction ε σ α) :=
  fun _ _ _ h => (throw_eq_ok_iff.mp h).elim

theorem Keeps.get : Keeps part (get : Transaction ε σ σ) := by
  intro s a s' h
  obtain ⟨-, rfl⟩ := Prod.mk.inj (get_eq_ok_iff.mp h)
  rfl

theorem Keeps.bind {x : Transaction ε σ α} {f : α → Transaction ε σ β} (hx : Keeps part x)
    (hf : ∀ a, Keeps part (f a)) : Keeps part (x >>= f) := by
  intro s b s' h
  obtain ⟨a, s₁, ha, hb⟩ := bind_eq_ok_iff.mp h
  exact (hf a s₁ b s' hb).trans (hx s a s₁ ha)

/-- What is done to the state that was read. -/
theorem Keeps.get_bind {f : σ → Transaction ε σ β}
    (hf : ∀ s b s', f s s = .ok (b, s') → part s' = part s) :
    Keeps part ((MonadState.get : Transaction ε σ σ) >>= f) := by
  intro s b s' h
  obtain ⟨a, s₁, ha, hb⟩ := bind_eq_ok_iff.mp h
  obtain ⟨rfl, rfl⟩ := Prod.mk.inj (get_eq_ok_iff.mp ha)
  exact hf _ b s' hb

theorem Keeps.map {x : Transaction ε σ α} {f : α → β} (hx : Keeps part x) :
    Keeps part (f <$> x) := by
  intro s b s' h
  obtain ⟨a, s₁, ha, heq⟩ := map_eq_ok_iff.mp h
  obtain ⟨-, rfl⟩ := Prod.mk.inj heq
  exact hx s a s₁ ha

theorem Keeps.modify {f : σ → σ} (hf : ∀ s, part (f s) = part s) :
    Keeps part (modify f : Transaction ε σ PUnit) := by
  intro s a s' h
  obtain ⟨-, rfl⟩ := Prod.mk.inj (modify_eq_ok_iff.mp h)
  exact hf s

theorem Keeps.require {holds : Bool} {e : ε} : Keeps part (require holds e) := by
  intro s a s' h
  obtain ⟨-, heq⟩ := require_eq_ok_iff.mp h
  rw [(Prod.mk.inj heq).2]

theorem Keeps.requireSome {value? : Option α} {e : ε} : Keeps part (requireSome value? e) := by
  intro s a s' h
  obtain ⟨value, -, heq⟩ := requireSome_eq_ok_iff.mp h
  rw [(Prod.mk.inj heq).2]

theorem Keeps.lift {x : Except ε α} : Keeps part (liftM x : Transaction ε σ α) := by
  intro s a s' h
  obtain ⟨value, -, heq⟩ := lift_eq_ok_iff.mp h
  rw [(Prod.mk.inj heq).2]

theorem Keeps.ite {p : Prop} [Decidable p] {x y : Transaction ε σ α} (hx : Keeps part x)
    (hy : Keeps part y) : Keeps part (if p then x else y) := by
  split_ifs
  · exact hx
  · exact hy

theorem Keeps.mapM {f : α → Transaction ε σ β} {l : List α} (hf : ∀ a, Keeps part (f a)) :
    Keeps part (l.mapM f) := fun _ _ _ h =>
  mapM_relates (fun s t => part t = part s) (fun _ => rfl) (fun _ _ _ hst htu => htu.trans hst)
    (fun a _ s b s' hb => hf a s b s' hb) h

end Keeps

/-! ### Part of the state -/

/-- Run a transaction on a part of a larger state. -/
def zoom {τ : Type} (part : τ → σ) (put : σ → τ → τ) (x : Transaction ε σ α) :
    Transaction ε τ α := fun t =>
  match x (part t) with
  | .ok (a, s) => .ok (a, put s t)
  | .error e => .error e

section Zoom

variable {τ : Type} {part : τ → σ} {put : σ → τ → τ} {x : Transaction ε σ α} {t t' : τ}

theorem zoom_eq_ok_iff {a : α} :
    zoom part put x t = .ok (a, t') ↔ ∃ s, x (part t) = .ok (a, s) ∧ put s t = t' := by
  rw [zoom]
  cases x (part t) <;> simp [and_comm, Prod.ext_iff]

end Zoom

/-! ### Atomicity -/

/-- Run a transaction: a refusal leaves the state as it was. -/
def attempt (x : Transaction ε σ α) (s : σ) : Except ε α × σ :=
  match x s with
  | .ok (a, s') => (.ok a, s')
  | .error e => (.error e, s)

theorem attempt_of_ok {x : Transaction ε σ α} {a : α} (h : x s = .ok (a, s')) :
    x.attempt s = (.ok a, s') := by
  rw [attempt, h]

theorem attempt_of_error {x : Transaction ε σ α} {e : ε} (h : x s = .error e) :
    x.attempt s = (.error e, s) := by
  rw [attempt, h]

theorem exists_eq_ok_of_isOk {x : Transaction ε σ α} (h : (x s).isOk = true) :
    ∃ a, x s = .ok (a, (x.attempt s).2) := by
  cases hx : x s with
  | ok r => exact ⟨r.1, by rw [attempt, hx]⟩
  | error e => simp [hx, Except.isOk, Except.toBool] at h

end Transaction
