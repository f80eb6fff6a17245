import FoundryLite.Library.Acyclic

/-!
# Depth-first exploration with a bound

From a node, its children are visited in the order in which they are listed, each one followed by
what it leads to, unless it was visited before; below a given depth nothing is visited. The result is
the list of what was visited, in order.

The bound makes the outcome depend on the listing: a node that is met late, on a long path, is not
explored again when a shorter path leads to it. What can be said in any case is that a node is
visited if all paths to it are within the bound, and only if some path is.

The order of the visits puts every node after one of its parents. It puts every node after all of
them exactly if of any two parents of a node one has an earlier child that leads to the other
(`forall_earlier_iff`), as long as the bound cuts nothing off.

## Main results

* `mem_explore_of_forall_steps`, `exists_steps_of_mem_explore`: what is visited.
* `exists_earlier_parent`: a node is visited after one of its parents.
* `forall_earlier_iff`: when it is visited after all of them.
-/

namespace DepthFirst

open Relation

variable {α : Type} [DecidableEq α]

/-! ### Positions in a list -/

/-- `a` stands before `b` in the list, or `b` is not in it. -/
def Earlier (l : List α) (a b : α) : Prop := l.idxOf a < l.idxOf b

section Earlier

variable {l m : List α} {a b c : α}

theorem Earlier.mem (h : Earlier l a b) : a ∈ l :=
  List.idxOf_lt_length_iff.mp (lt_of_lt_of_le h List.idxOf_le_length)

theorem Earlier.trans (h : Earlier l a b) (h' : Earlier l b c) : Earlier l a c := lt_trans h h'

theorem Earlier.ne (h : Earlier l a b) : a ≠ b := by
  rintro rfl
  exact lt_irrefl _ h

theorem Earlier.not_earlier (h : Earlier l a b) : ¬ Earlier l b a := lt_asymm h

theorem earlier_or_earlier (ha : a ∈ l) (hne : a ≠ b) : Earlier l a b ∨ Earlier l b a :=
  lt_or_gt_of_ne fun heq => hne ((List.idxOf_inj ha).mp heq)

theorem idxOf_of_initial (h : l <+: m) (ha : a ∈ l) : m.idxOf a = l.idxOf a := by
  obtain ⟨t, rfl⟩ := h
  exact List.idxOf_append_of_mem ha

theorem earlier_of_not_mem (h : l <+: m) (ha : a ∈ l) (hb : b ∉ l) : Earlier m a b := by
  obtain ⟨t, rfl⟩ := h
  rw [Earlier, List.idxOf_append_of_mem ha, List.idxOf_append_of_notMem hb]
  have := List.idxOf_lt_length_iff.mpr ha
  omega

theorem Earlier.of_initial (hab : Earlier l a b) (h : l <+: m) : Earlier m a b := by
  by_cases hb : b ∈ l
  · rw [Earlier, idxOf_of_initial h hab.mem, idxOf_of_initial h hb]
    exact hab
  · exact earlier_of_not_mem h hab.mem hb

theorem earlier_iff_of_initial (h : l <+: m) (hb : b ∈ l) : Earlier m a b ↔ Earlier l a b := by
  refine ⟨fun hab => ?_, fun hab => hab.of_initial h⟩
  by_cases ha : a ∈ l
  · rwa [Earlier, idxOf_of_initial h ha, idxOf_of_initial h hb] at hab
  · exact absurd (earlier_of_not_mem h hb ha) hab.not_earlier

theorem mem_of_earlier_append (h : Earlier (l ++ b :: m) a b) : a ∈ l := by
  by_contra ha
  have hb : (l ++ b :: m).idxOf b ≤ l.length := by
    by_cases hmem : b ∈ l
    · rw [List.idxOf_append_of_mem hmem]
      exact List.idxOf_le_length
    · rw [List.idxOf_append_of_notMem hmem]
      simp
  have hle : l.length ≤ (l ++ b :: m).idxOf a := by
    rw [List.idxOf_append_of_notMem ha]
    omega
  have hlt : (l ++ b :: m).idxOf a < (l ++ b :: m).idxOf b := h
  omega

end Earlier

/-! ### Exploring -/

/-- Visit what `u` leads to within `d` steps, after what was visited already. -/
def explore (children : α → List α) : ℕ → α → List α → List α
  | 0, _, order => order
  | d + 1, u, order =>
    (children u).foldl
      (fun order c => if c ∈ order then order else explore children d c (order ++ [c])) order

/-- Visit a child, unless it was visited before. -/
def visit (children : α → List α) (d : ℕ) (order : List α) (c : α) : List α :=
  if c ∈ order then order else explore children d c (order ++ [c])

variable {children : α → List α} {u v : α} {d : ℕ} {order : List α}

theorem explore_succ :
    explore children (d + 1) u order = (children u).foldl (visit children d) order := rfl

/-- A property of the children seen so far and of the order that every visit keeps. -/
theorem foldl_visit {P : List α → List α → Prop} (cs : List α) (hstart : P [] order)
    (hstep : ∀ done c rest R, cs = done ++ c :: rest → P done R →
      P (done ++ [c]) (visit children d R c)) : P cs (cs.foldl (visit children d) order) := by
  have hall : ∀ rest done R, cs = done ++ rest → P done R →
      P cs (rest.foldl (visit children d) R) := by
    intro rest
    induction rest with
    | nil =>
      intro done R hcs hP
      rw [List.append_nil] at hcs
      exact hcs ▸ hP
    | cons c rest ih =>
      intro done R hcs hP
      exact ih (done ++ [c]) _ (by simpa using hcs) (hstep done c rest R hcs hP)
  exact hall cs [] order rfl hstart

/-! ### Paths -/

/-- `b` is a child of `a`. -/
def Edge (children : α → List α) (a b : α) : Prop := b ∈ children a

/-- `b` is reached from `a` by a path of this length. -/
def Steps (children : α → List α) : ℕ → α → α → Prop
  | 0, a, b => a = b
  | k + 1, a, b => ∃ c ∈ children a, Steps children k c b

abbrev Leads (children : α → List α) : α → α → Prop := ReflTransGen (Edge children)

omit [DecidableEq α] in
theorem leads_iff_exists_steps {a b : α} :
    Leads children a b ↔ ∃ k, Steps children k a b := by
  constructor
  · intro h
    induction h using ReflTransGen.head_induction_on with
    | refl => exact ⟨0, rfl⟩
    | head hac _ ih =>
      obtain ⟨k, hk⟩ := ih
      exact ⟨k + 1, _, hac, hk⟩
  · rintro ⟨k, hk⟩
    induction k generalizing a with
    | zero => exact hk ▸ .refl
    | succ k ih =>
      obtain ⟨c, hc, hcb⟩ := hk
      exact .head hc (ih hcb)

/-! ### What is visited -/

theorem prefix_explore : order <+: explore children d u order := by
  induction d generalizing u order with
  | zero => exact List.prefix_refl order
  | succ d ih =>
    rw [explore_succ]
    refine foldl_visit (P := fun _ R => order <+: R) _ (List.prefix_refl order) ?_
    intro done c rest R _ hR
    unfold visit
    split_ifs
    · exact hR
    · exact hR.trans ((List.prefix_append R [c]).trans ih)

theorem nodup_explore (h : order.Nodup) : (explore children d u order).Nodup := by
  induction d generalizing u order with
  | zero => exact h
  | succ d ih =>
    rw [explore_succ]
    refine foldl_visit (P := fun _ R => R.Nodup) _ h ?_
    intro done c rest R _ hR
    unfold visit
    split_ifs with hc
    · exact hR
    · exact ih (List.nodup_append.mpr ⟨hR, List.nodup_singleton c, by
        rintro a ha b hb rfl
        exact hc (List.mem_singleton.mp hb ▸ ha)⟩)

/-- What is visited is within the bound. -/
theorem exists_steps_of_mem_explore (hv : v ∈ explore children d u order) :
    v ∈ order ∨ ∃ k, k ≤ d ∧ Steps children k u v := by
  induction d generalizing u order with
  | zero => exact .inl hv
  | succ d ih =>
    rw [explore_succ] at hv
    revert hv
    refine foldl_visit (P := fun _ R => v ∈ R → v ∈ order ∨ ∃ k, k ≤ d + 1 ∧ Steps children k u v)
      _ .inl ?_
    intro done c rest R hcs hR hv
    have hc : c ∈ children u := by rw [hcs]; simp
    unfold visit at hv
    split_ifs at hv
    · exact hR hv
    · rcases ih hv with hmem | ⟨k, hk, hsteps⟩
      · rcases List.mem_append.mp hmem with hmem | hmem
        · exact hR hmem
        · obtain rfl := List.mem_singleton.mp hmem
          exact .inr ⟨1, by omega, v, hc, rfl⟩
      · exact .inr ⟨k + 1, by omega, c, hc, hsteps⟩

theorem prefix_visit {c : α} : order <+: visit children d order c := by
  unfold visit
  split_ifs
  · exact List.prefix_refl order
  · exact (List.prefix_append order [c]).trans prefix_explore

/-- **A node that all paths reach within the bound is visited**, if each visited node that leads to
it was explored or is being explored. -/
theorem mem_explore_of_forall_steps (hacyclic : Acyclic (Edge children))
    (hbound : ∀ k, Steps children k u v → k ≤ d) (hv : TransGen (Edge children) u v)
    (hexplored : ∀ x ∈ order, TransGen (Edge children) u x → Leads children x v → v ∈ order) :
    v ∈ explore children d u order := by
  induction d generalizing u order with
  | zero =>
    obtain ⟨c, huc, hcv⟩ := TransGen.head'_iff.mp hv
    obtain ⟨k, hk⟩ := leads_iff_exists_steps.mp hcv
    exact absurd (hbound (k + 1) ⟨c, huc, hk⟩) (by omega)
  | succ d ih =>
    rw [explore_succ]
    -- Once a child that leads to `v` is considered, `v` is visited; before, no new node leads to it.
    have hfold := @foldl_visit _ _ children d order
      (fun done R => order <+: R ∧ ((∃ c ∈ done, Leads children c v) → v ∈ R) ∧
        ∀ x ∈ R, TransGen (Edge children) u x → Leads children x v → v ∈ R)
      (children u) ⟨List.prefix_refl order, by simp, hexplored⟩ ?_
    · obtain ⟨c, huc, hcv⟩ := TransGen.head'_iff.mp hv
      exact hfold.2.1 ⟨c, huc, hcv⟩
    · rintro done c rest R hcs ⟨hinit, hdone, hR⟩
      have huc : Edge children u c := by rw [Edge, hcs]; simp
      have hvisit : Leads children c v → v ∈ visit children d R c := by
        intro hcv
        unfold visit
        split_ifs with hc
        · exact hR c hc (.single huc) hcv
        · rcases reflTransGen_iff_eq_or_transGen.mp hcv with rfl | htrans
          · exact prefix_explore.subset (by simp)
          · refine ih (fun k hk => ?_) htrans fun x hx hcx hxv => ?_
            · have := hbound (k + 1) ⟨c, huc, hk⟩
              omega
            · rcases List.mem_append.mp hx with hx | hx
              · exact List.mem_append_left _ (hR x hx (.head huc hcx) hxv)
              · exact absurd (List.mem_singleton.mp hx ▸ hcx) (hacyclic c)
      refine ⟨hinit.trans prefix_visit, ?_, fun x hx hux hxv => ?_⟩
      · rintro ⟨c', hc', hcv⟩
        rcases List.mem_append.mp hc' with hc' | hc'
        · exact prefix_visit.subset (hdone ⟨c', hc', hcv⟩)
        · exact hvisit (List.mem_singleton.mp hc' ▸ hcv)
      · by_cases hold : x ∈ R
        · exact prefix_visit.subset (hR x hold hux hxv)
        · -- A new node is one that `c` leads to.
          refine hvisit (ReflTransGen.trans ?_ hxv)
          unfold visit at hx
          split_ifs at hx
          · exact absurd hx hold
          · rcases exists_steps_of_mem_explore hx with hx | ⟨k, -, hk⟩
            · rcases List.mem_append.mp hx with hx | hx
              · exact absurd hx hold
              · exact List.mem_singleton.mp hx ▸ .refl
            · exact leads_iff_exists_steps.mpr ⟨k, hk⟩

/-- **A node is visited after one of its parents.** -/
theorem exists_earlier_parent (hu : u ∈ order) (hv : v ∈ explore children d u order)
    (hnew : v ∉ order) :
    ∃ p, Edge children p v ∧ Earlier (explore children d u order) p v := by
  induction d generalizing u order with
  | zero => exact absurd hv hnew
  | succ d ih =>
    rw [explore_succ] at hv ⊢
    revert hv
    refine (foldl_visit (P := fun _ R => order <+: R ∧
      (v ∈ R → ∃ p, Edge children p v ∧ Earlier R p v)) _ ⟨List.prefix_refl order,
        fun hv => absurd hv hnew⟩ ?_).2
    rintro done c rest R hcs ⟨hinit, hR⟩
    have huc : Edge children u c := by rw [Edge, hcs]; simp
    refine ⟨hinit.trans prefix_visit, fun hv => ?_⟩
    by_cases hold : v ∈ R
    · obtain ⟨p, hpv, hearlier⟩ := hR hold
      exact ⟨p, hpv, hearlier.of_initial prefix_visit⟩
    · unfold visit at hv ⊢
      split_ifs at hv ⊢ with hc
      · exact absurd hv hold
      · by_cases hvc : v = c
        · exact ⟨u, hvc ▸ huc, earlier_of_not_mem
            ((List.prefix_append R [c]).trans prefix_explore) (hinit.subset hu) hold⟩
        · exact ih (by simp) hv (by simp [hold, hvc])

/-! ### Where the bound cuts nothing off -/

/-- What exploring the children `done` of `u` has added to `order`, where nothing is cut off. -/
structure Explored (children : α → List α) (u : α) (done order R : List α) : Prop where
  prefix_ : order <+: R
  mem : ∀ c ∈ done, c ∈ R
  leads : ∀ x ∈ R, x ∉ order → ∃ c ∈ done, Leads children c x
  closed : ∀ x ∈ R, x ∉ order → ∀ y, Leads children x y → y ∈ R
  /-- A node is visited for one of its parents, after what the earlier children lead to. -/
  parent : ∀ v ∈ R, v ∉ order → ∃ p, Edge children p v ∧ Earlier R p v ∧
    ∀ b, Earlier (children p) b v → ∀ y, Leads children b y → Earlier R y v
  /-- What is visited between a node and its child is what an earlier child leads to. -/
  between : ∀ v ∈ done, ∀ w, w ∉ order → Earlier R w v →
    ∃ b, Earlier (children u) b v ∧ Leads children b w
  between_new : ∀ p ∈ R, p ∉ order → ∀ v ∈ children p, ∀ w, Earlier R p w → Earlier R w v →
    ∃ b, Earlier (children p) b v ∧ Leads children b w

theorem Explored.start : Explored children u [] order order where
  prefix_ := List.prefix_refl order
  mem := by simp
  leads x hx hnew := absurd hx hnew
  closed x hx hnew := absurd hx hnew
  parent v hv hnew := absurd hv hnew
  between := by simp
  between_new p hp hnew := absurd hp hnew

section Visit

variable {done rest R : List α} {c : α}

/-- A child that was visited before is passed over. -/
theorem Explored.skip (h : Explored children u done order R) (hcs : children u = done ++ c :: rest)
    (hc : c ∈ R) : Explored children u (done ++ [c]) order R where
  prefix_ := h.prefix_
  mem x hx := by
    rcases List.mem_append.mp hx with hx | hx
    · exact h.mem x hx
    · exact List.mem_singleton.mp hx ▸ hc
  leads x hx hnew := by
    obtain ⟨b, hb, hbx⟩ := h.leads x hx hnew
    exact ⟨b, List.mem_append_left _ hb, hbx⟩
  closed := h.closed
  parent := h.parent
  between v hv w hw hwv := by
    by_cases hdone : v ∈ done
    · exact h.between v hdone w hw hwv
    · obtain rfl : v = c := by simpa [hdone] using hv
      obtain ⟨b, hb, hbw⟩ := h.leads w hwv.mem hw
      refine ⟨b, ?_, hbw⟩
      rw [hcs]
      exact earlier_of_not_mem (List.prefix_append done _) hb hdone
  between_new := h.between_new

/-- A child that is new is visited, and then explored. -/
theorem Explored.enter {R' : List α} (h : Explored children u done order R)
    (hcs : children u = done ++ c :: rest) (hc : c ∉ R) (hu : u ∈ order)
    (hacyclic : Acyclic (Edge children))
    (hclosed : ∀ x ∈ order, TransGen (Edge children) u x → ∀ y, Leads children x y → y ∈ order)
    (h' : Explored children c (children c) (R ++ [c]) R') :
    Explored children u (done ++ [c]) order R' := by
  have huc : Edge children u c := by rw [Edge, hcs]; simp
  have hRc : R <+: R ++ [c] := List.prefix_append R [c]
  have hR : R <+: R' := hRc.trans h'.prefix_
  have hcR' : c ∈ R' := h'.prefix_.subset (by simp)
  -- What a node below `u` leads to is in `R` as soon as the node is.
  have hbelow : ∀ x ∈ R, TransGen (Edge children) u x → ∀ y, Leads children x y → y ∈ R := by
    intro x hx hux y hxy
    by_cases hold : x ∈ order
    · exact h.prefix_.subset (hclosed x hold hux y hxy)
    · exact h.closed x hx hold y hxy
  have hcases : ∀ x ∈ R', x ∈ R ∨ x = c ∨ x ∉ R ++ [c] := by
    intro x _
    by_cases hx : x ∈ R
    · exact .inl hx
    · by_cases hxc : x = c
      · exact .inr (.inl hxc)
      · exact .inr (.inr (by simp [hx, hxc]))
  have hcloses : ∀ y, Leads children c y → y ∈ R' := by
    intro y hcy
    rcases hcy.cases_head with rfl | ⟨c', hcc', hcy⟩
    · exact hcR'
    · have hc' : c' ∈ R' := h'.mem c' hcc'
      rcases hcases c' hc' with hold | rfl | hnew
      · exact hR.subset (hbelow c' hold (.tail (.single huc) hcc') y hcy)
      · exact absurd (.single hcc') (hacyclic c')
      · exact h'.closed c' hc' hnew y hcy
  have hnot : c ∉ done := fun hmem => hc (h.mem c hmem)
  refine ⟨h.prefix_.trans hR, ?_, ?_, ?_, ?_, ?_, ?_⟩
  · intro x hx
    rcases List.mem_append.mp hx with hx | hx
    · exact hR.subset (h.mem x hx)
    · exact List.mem_singleton.mp hx ▸ hcR'
  · intro x hx hnew
    rcases hcases x hx with hold | rfl | hnew'
    · obtain ⟨b, hb, hbx⟩ := h.leads x hold hnew
      exact ⟨b, List.mem_append_left _ hb, hbx⟩
    · exact ⟨x, by simp, .refl⟩
    · obtain ⟨c', hc', hcx⟩ := h'.leads x hx hnew'
      exact ⟨c, by simp, .head hc' hcx⟩
  · intro x hx hnew y hxy
    rcases hcases x hx with hold | rfl | hnew'
    · exact hR.subset (h.closed x hold hnew y hxy)
    · exact hcloses y hxy
    · exact h'.closed x hx hnew' y hxy
  · intro v hv hnew
    rcases hcases v hv with hold | rfl | hnew'
    · obtain ⟨p, hpv, hearlier, hbefore⟩ := h.parent v hold hnew
      exact ⟨p, hpv, hearlier.of_initial hR, fun b hb y hy => (hbefore b hb y hy).of_initial hR⟩
    · refine ⟨u, huc, earlier_of_not_mem hR (h.prefix_.subset hu) hc, fun b hb y hy => ?_⟩
      rw [hcs] at hb
      have hbdone := mem_of_earlier_append hb
      have hub : Edge children u b := by rw [Edge, hcs]; simp [hbdone]
      exact earlier_of_not_mem hR (hbelow b (h.mem b hbdone) (.single hub) y hy) hc
    · exact h'.parent v hv hnew'
  · intro v hv w hw hwv
    by_cases hdone : v ∈ done
    · exact h.between v hdone w hw ((earlier_iff_of_initial hR (h.mem v hdone)).mp hwv)
    · obtain rfl : v = c := by simpa [hdone] using hv
      have hwR : w ∈ R := by
        by_contra hwR
        have hvw : Earlier R' v w := by
          refine earlier_of_not_mem h'.prefix_ (by simp) ?_
          simp [hwR, hwv.ne]
        exact hwv.not_earlier hvw
      obtain ⟨b, hb, hbw⟩ := h.leads w hwR hw
      refine ⟨b, ?_, hbw⟩
      rw [hcs]
      exact earlier_of_not_mem (List.prefix_append done _) hb hdone
  · intro p hp hnew v hv w hpw hwv
    rcases hcases p hp with hold | rfl | hnew'
    · have hvR : v ∈ R := h.closed p hold hnew v (.single hv)
      have hwv' := (earlier_iff_of_initial hR hvR).mp hwv
      exact h.between_new p hold hnew v hv w ((earlier_iff_of_initial hR hwv'.mem).mp hpw) hwv'
    · refine h'.between v hv w (fun hw => ?_) hwv
      rcases List.mem_append.mp hw with hw | hw
      · exact hpw.not_earlier (earlier_of_not_mem hR hw hc)
      · exact hpw.ne (List.mem_singleton.mp hw).symm
    · exact h'.between_new p hp hnew' v hv w hpw hwv

end Visit

/-- **What exploring a node adds**, where the bound cuts nothing off. -/
theorem explored_explore (hacyclic : Acyclic (Edge children))
    (hbound : ∀ k v, Steps children k u v → k ≤ d) (hu : u ∈ order)
    (hclosed : ∀ x ∈ order, TransGen (Edge children) u x → ∀ y, Leads children x y → y ∈ order) :
    Explored children u (children u) order (explore children d u order) := by
  induction d generalizing u order with
  | zero =>
    have hnone : children u = [] := List.eq_nil_iff_forall_not_mem.mpr fun c hc => by
      have := hbound 1 c ⟨c, hc, rfl⟩
      omega
    rw [hnone]
    exact .start
  | succ d ih =>
    rw [explore_succ]
    refine foldl_visit (P := fun done R => Explored children u done order R) _ .start ?_
    intro done c rest R hcs hR
    unfold visit
    split_ifs with hc
    · exact hR.skip hcs hc
    · have huc : Edge children u c := by rw [Edge, hcs]; simp
      refine hR.enter hcs hc hu hacyclic hclosed (ih (fun k v hk => ?_) (by simp) ?_)
      · have := hbound (k + 1) v ⟨c, huc, hk⟩
        omega
      · intro x hx hcx y hxy
        refine List.mem_append_left _ ?_
        rcases List.mem_append.mp hx with hx | hx
        · by_cases hold : x ∈ order
          · exact hR.prefix_.subset (hclosed x hold (.head huc hcx) y hxy)
          · exact hR.closed x hx hold y hxy
        · exact absurd (List.mem_singleton.mp hx ▸ hcx) (hacyclic c)

/-! ### When parents come first -/

/-- Of any two parents of a node, one has a child that is listed before the node and leads to the
other. -/
def ParentsChained (children : α → List α) (R : List α) : Prop :=
  ∀ p ∈ R, ∀ q ∈ R, p ≠ q → ∀ v, Edge children p v → Edge children q v →
    (∃ b, Earlier (children p) b v ∧ Leads children b q) ∨
      ∃ b, Earlier (children q) b v ∧ Leads children b p

/-- On a path that ends before it starts, a child comes before its parent. -/
theorem exists_edge_earlier {R : List α} {a b : α} (h : TransGen (Edge children) a b)
    (hba : Earlier R b a) :
    ∃ p v, Leads children a p ∧ Edge children p v ∧ Earlier R v p ∧
      R.idxOf v ≤ R.idxOf b := by
  induction h using TransGen.head_induction_on with
  | single hab => exact ⟨_, _, .refl, hab, hba, le_refl _⟩
  | @head a c hac hcb ih =>
    rcases lt_or_ge (R.idxOf b) (R.idxOf c) with hbc | hcb'
    · obtain ⟨p, v, hcp, hrest⟩ := ih hbc
      exact ⟨p, v, .head hac hcp, hrest⟩
    · exact ⟨a, c, .refl, hac, lt_of_le_of_lt hcb' hba, hcb'⟩

/-- **Parents come first exactly if they are chained.** -/
theorem forall_earlier_iff (hacyclic : Acyclic (Edge children))
    (hbound : ∀ k v, Steps children k u v → k ≤ d) :
    (∀ p ∈ explore children d u [u], ∀ v, Edge children p v →
        Earlier (explore children d u [u]) p v) ↔
      ParentsChained children (explore children d u [u]) := by
  have h : Explored children u (children u) [u] (explore children d u [u]) := by
    refine explored_explore hacyclic hbound (by simp) fun x hx hux y _ => ?_
    exact absurd (List.mem_singleton.mp hx ▸ hux) (hacyclic u)
  generalize explore children d u [u] = R at h
  have hclosed : ∀ x ∈ R, ∀ y, Leads children x y → y ∈ R := by
    intro x hx y hxy
    by_cases hxu : x = u
    · subst hxu
      rcases hxy.cases_head with rfl | ⟨c, hxc, hcy⟩
      · exact hx
      · refine h.closed c (h.mem c hxc) (fun hc => ?_) y hcy
        exact hacyclic c (.single (List.mem_singleton.mp hc ▸ hxc))
    · exact h.closed x hx (by simpa using hxu) y hxy
  constructor
  · intro htop p hp q hq hne v hpv hqv
    have hchain : ∀ p ∈ R, ∀ q, Earlier R p q → ∀ v, Edge children p v → Earlier R q v →
        ∃ b, Earlier (children p) b v ∧ Leads children b q := by
      intro p hp q hpq v hpv hqv
      by_cases hpu : p = u
      · subst hpu
        exact h.between v hpv q (by simpa using hpq.ne.symm) hqv
      · exact h.between_new p hp (by simpa using hpu) v hpv q hpq hqv
    rcases earlier_or_earlier hp hne with hpq | hqp
    · exact .inl (hchain p hp q hpq v hpv (htop q hq v hqv))
    · exact .inr (hchain q hq p hqp v hqv (htop p hp v hpv))
  · intro hchained
    have hall : ∀ n p v, p ∈ R → Edge children p v → R.idxOf v = n → Earlier R p v := by
      intro n
      induction n using Nat.strongRecOn with
      | ind n ih =>
        intro p v hp hpv hn
        have hne : p ≠ v := by
          rintro rfl
          exact hacyclic p (.single hpv)
        rcases earlier_or_earlier hp hne with hearlier | hvp
        · exact hearlier
        -- `v` was visited for a parent `q` that comes before it, and so before `p`.
        have hvu : v ∉ [u] := by
          intro hvu
          obtain rfl := List.mem_singleton.mp hvu
          by_cases hpu : p = v
          · exact hne hpu
          · obtain ⟨c, hvc, hcp⟩ := h.leads p hp (by simpa using hpu)
            exact hacyclic v (.head' hvc (hcp.tail hpv))
        obtain ⟨q, hqv, hqearlier, hbefore⟩ := h.parent v hvp.mem hvu
        rcases hchained q hqearlier.mem p hp (hqearlier.trans hvp).ne v hqv hpv with
          ⟨b, hb, hbp⟩ | ⟨b, hb, hbq⟩
        · exact hbefore b hb p hbp
        · have hpq : TransGen (Edge children) p q := .head' hb.mem hbq
          obtain ⟨p', v', hpp', hedge, hearlier', hle⟩ :=
            exists_edge_earlier hpq (hqearlier.trans hvp)
          have hlt : R.idxOf v' < n := hn ▸ lt_of_le_of_lt hle hqearlier
          exact absurd (ih _ hlt p' v' (hclosed p hp p' hpp') hedge rfl) hearlier'.not_earlier
    exact fun p hp v hpv => hall _ p v hp hpv rfl

end DepthFirst
