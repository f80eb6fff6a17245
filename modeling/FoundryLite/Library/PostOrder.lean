import FoundryLite.Library.Acyclic
import Mathlib

/-!
# Post-order with an explicit stack

Nodes with keys, each of which needs the nodes under some keys, are put in an order in which every node
stands behind the ones it needs. The search keeps its path on a stack, each node with the number of
needed keys it has looked at, and fails at a key under which there is no node, or at one that is on its
path already.

## Main results

* `order_spec`: what it returns, or why it fails.
-/

namespace PostOrder

open Relation

/-- Nodes that are found under their keys. -/
structure Graph (α κ : Type) where
  key : α → κ
  /-- The keys of the nodes that a node needs. -/
  needs : α → List κ
  find? : κ → Option α
  key_of_find? : ∀ k a, find? k = some a → key a = k

variable {α κ : Type} (G : Graph α κ)

/-! ### The search -/

/-- Why a search ends without an order. -/
inductive Failure (α κ : Type)
  | missing (a : α) (k : κ)
  | cycle

structure State (α κ : Type) where
  /-- The nodes on the path, the last one in front, with how many needed keys were looked at. -/
  stack : List (α × ℕ)
  onPath : List κ
  visited : List κ
  ordered : List α

section Search

variable [DecidableEq κ]

/-- Look at the next key that the last node on the path needs, or leave the node. -/
def step (s : State α κ) (a : α) (index : ℕ) (rest : List (α × ℕ)) :
    Except (Failure α κ) (State α κ) :=
  match (G.needs a)[index]? with
  | some k =>
    match G.find? k with
    | none => .error (.missing a k)
    | some b =>
      if G.key b ∈ s.visited then .ok { s with stack := (a, index + 1) :: rest }
      else if G.key b ∈ s.onPath then .error .cycle
      else .ok { s with stack := (b, 0) :: (a, index + 1) :: rest, onPath := G.key b :: s.onPath }
  | none => .ok ⟨rest, s.onPath.filter (· ≠ G.key a), G.key a :: s.visited, s.ordered ++ [a]⟩

/-- The loop; `none` when it is given too few rounds. -/
def visit : ℕ → State α κ → Option (Except (Failure α κ) (State α κ))
  | rounds, s =>
    match rounds, s.stack with
    | _, [] => some (.ok s)
    | 0, _ :: _ => none
    | rounds + 1, (a, index) :: rest =>
      match step G s a index rest with
      | .error failure => some (.error failure)
      | .ok t => visit rounds t

/-- The search from one node after another, unless it was visited. -/
def visitAll (rounds : ℕ) : List α → State α κ → Option (Except (Failure α κ) (State α κ))
  | [], s => some (.ok s)
  | root :: roots, s =>
    if G.key root ∈ s.visited then visitAll rounds roots s
    else
      match visit G rounds { s with stack := [(root, 0)], onPath := [G.key root] } with
      | some (.ok t) => visitAll rounds roots t
      | result => result

/-- The order in which the nodes are left. -/
def order (rounds : ℕ) (roots : List α) : Option (Except (Failure α κ) (List α)) :=
  (visitAll G rounds roots ⟨[], [], [], []⟩).map fun result => result.map State.ordered

end Search

/-! ### What a search keeps -/

/-- The node under the first key needs the second. -/
def Needs (k k' : κ) : Prop := ∃ a, G.find? k = some a ∧ k' ∈ G.needs a

/-- Every node of the list stands behind the ones it needs. -/
def Behind (l : List α) : Prop :=
  ∀ before a after, l = before ++ a :: after → ∀ k ∈ G.needs a, k ∈ before.map G.key

/-- The keys on the path. -/
def State.path (s : State α κ) : List κ := s.stack.map fun entry => G.key entry.1

/-- The rest of a path: each node has come to the node above it, with everything before visited. -/
def Below (visited : List κ) : κ → List (α × ℕ) → Prop
  | _, [] => True
  | above, (b, index) :: rest =>
    (∃ j, index = j + 1 ∧ (G.needs b)[j]? = some above ∧ ∀ k ∈ (G.needs b).take j, k ∈ visited) ∧
      Below visited (G.key b) rest

/-- A path: what the last node has looked at was visited. -/
def Path (visited : List κ) : List (α × ℕ) → Prop
  | [] => True
  | (a, index) :: rest =>
    (∀ k ∈ (G.needs a).take index, k ∈ visited) ∧ Below G visited (G.key a) rest

structure Inv (s : State α κ) : Prop where
  known : ∀ entry ∈ s.stack, G.find? (G.key entry.1) = some entry.1
  within : ∀ entry ∈ s.stack, entry.2 ≤ (G.needs entry.1).length
  waits : Path G s.visited s.stack
  onPath : ∀ k, k ∈ s.onPath ↔ k ∈ s.path G
  nodup : (s.path G).Nodup
  apart : ∀ k ∈ s.path G, k ∉ s.visited
  visited : ∀ k, k ∈ s.visited ↔ k ∈ s.ordered.map G.key
  ordered_nodup : (s.ordered.map G.key).Nodup
  ordered_known : ∀ a ∈ s.ordered, G.find? (G.key a) = some a
  behind : Behind G s.ordered

variable {G} {s t : State α κ} {a : α} {index : ℕ} {rest : List (α × ℕ)} {visited visited' : List κ}

theorem Below.mono (hsub : ∀ k ∈ visited, k ∈ visited') {above : κ} (h : Below G visited above rest) :
    Below G visited' above rest := by
  induction rest generalizing above with
  | nil => trivial
  | cons entry rest ih =>
    obtain ⟨⟨j, hindex, hget, hdone⟩, hrest⟩ := h
    exact ⟨⟨j, hindex, hget, fun k hk => hsub k (hdone k hk)⟩, ih hrest⟩

/-- A node on the path needs, over some steps, what is above it. -/
theorem Below.transGen (h : Below G visited (G.key a) rest)
    (hknown : ∀ entry ∈ rest, G.find? (G.key entry.1) = some entry.1) {k : κ}
    (hk : k ∈ rest.map fun entry => G.key entry.1) : TransGen (Needs G) k (G.key a) := by
  induction rest generalizing a with
  | nil => simp at hk
  | cons entry rest ih =>
    obtain ⟨b, index⟩ := entry
    obtain ⟨⟨j, -, hget, -⟩, hrest⟩ := h
    have hneeds : Needs G (G.key b) (G.key a) :=
      ⟨b, hknown (b, index) List.mem_cons_self, List.mem_of_getElem? hget⟩
    rcases List.mem_cons.mp hk with rfl | hk
    · exact .single hneeds
    · exact (ih hrest (fun entry hentry => hknown entry (List.mem_cons_of_mem _ hentry)) hk).tail hneeds

theorem mem_take_succ {l : List κ} {k : κ} {n : ℕ} (hget : l[n]? = some k) {P : κ → Prop} :
    (∀ x ∈ l.take (n + 1), P x) ↔ (∀ x ∈ l.take n, P x) ∧ P k := by
  rw [List.take_add_one, hget]
  simp [or_imp, forall_and]

/-- A node that is left goes behind the others. -/
theorem Behind.append {l : List α} (h : Behind G l) (ha : ∀ k ∈ G.needs a, k ∈ l.map G.key) :
    Behind G (l ++ [a]) := by
  intro before b after heq k hk
  rcases List.eq_nil_or_concat after with rfl | ⟨after', last, rfl⟩
  · obtain ⟨rfl, hlast⟩ := List.append_inj' heq rfl
    obtain rfl := List.singleton_injective hlast
    exact ha k hk
  · rw [List.concat_eq_append, ← List.cons_append, ← List.append_assoc] at heq
    obtain ⟨rfl, -⟩ := List.append_inj' heq rfl
    exact h before b after' rfl k hk

section Step

variable [DecidableEq κ]

/-- Why a search may fail. -/
def Sound (G : Graph α κ) : Failure α κ → Prop
  | .missing a k => G.find? (G.key a) = some a ∧ k ∈ G.needs a ∧ G.find? k = none
  | .cycle => ¬ Acyclic (Needs G)

/-- What one round can do. -/
theorem step_cases (hstep : step G s a index rest = .ok t) :
    (∃ k b, (G.needs a)[index]? = some k ∧ G.find? k = some b ∧ k ∈ s.visited ∧
        t = { s with stack := (a, index + 1) :: rest }) ∨
      (∃ k b, (G.needs a)[index]? = some k ∧ G.find? k = some b ∧ k ∉ s.visited ∧ k ∉ s.onPath ∧
        t = { s with stack := (b, 0) :: (a, index + 1) :: rest, onPath := k :: s.onPath }) ∨
      ((G.needs a).length ≤ index ∧
        t = ⟨rest, s.onPath.filter (· ≠ G.key a), G.key a :: s.visited, s.ordered ++ [a]⟩) := by
  rw [step] at hstep
  cases hget : (G.needs a)[index]? with
  | none =>
    simp only [hget, Except.ok.injEq] at hstep
    exact .inr (.inr ⟨List.getElem?_eq_none_iff.mp hget, hstep.symm⟩)
  | some k =>
    cases hfind : G.find? k with
    | none => simp [hget, hfind] at hstep
    | some b =>
      have hkey := G.key_of_find? k b hfind
      simp only [hget, hfind, hkey] at hstep
      split_ifs at hstep with hvisited honPath
      · exact .inl ⟨k, b, rfl, hfind, hvisited, (Except.ok.inj hstep).symm⟩
      · exact .inr (.inl ⟨k, b, rfl, hfind, hvisited, honPath, (Except.ok.inj hstep).symm⟩)

theorem Inv.step (h : Inv G s) (hstack : s.stack = (a, index) :: rest)
    (hstep : step G s a index rest = .ok t) : Inv G t := by
  have hwaits := h.waits
  have hknown := h.known
  have hwithin := h.within
  have honPath := h.onPath
  have hnodup := h.nodup
  have hapart := h.apart
  simp only [State.path, hstack, List.map_cons] at hwaits hknown hwithin honPath hnodup hapart
  obtain ⟨hdone, hbelow⟩ := hwaits
  obtain ⟨ha, hrest⟩ := List.forall_mem_cons.mp hknown
  obtain ⟨hle, hwithinRest⟩ := List.forall_mem_cons.mp hwithin
  rcases step_cases hstep with ⟨k, b, hget, hfind, hvisited, rfl⟩ |
    ⟨k, b, hget, hfind, hvisited, hfresh, rfl⟩ | ⟨hlength, rfl⟩
  · have hlt := (List.getElem?_eq_some_iff.mp hget).1
    refine ⟨List.forall_mem_cons.mpr ⟨ha, hrest⟩, List.forall_mem_cons.mpr ⟨hlt, hwithinRest⟩,
      ⟨(mem_take_succ hget).mpr ⟨hdone, hvisited⟩, hbelow⟩, ?_, ?_, ?_, h.visited, h.ordered_nodup,
      h.ordered_known, h.behind⟩
    · simpa only [State.path, List.map_cons] using honPath
    · simpa only [State.path, List.map_cons] using hnodup
    · simpa only [State.path, List.map_cons] using hapart
  · have hlt := (List.getElem?_eq_some_iff.mp hget).1
    have hkey := G.key_of_find? k b hfind
    refine ⟨?_, ?_, ?_, ?_, ?_, ?_, h.visited, h.ordered_nodup, h.ordered_known, h.behind⟩
    · exact List.forall_mem_cons.mpr ⟨hkey ▸ hfind, List.forall_mem_cons.mpr ⟨ha, hrest⟩⟩
    · exact List.forall_mem_cons.mpr ⟨Nat.zero_le _, List.forall_mem_cons.mpr ⟨hlt, hwithinRest⟩⟩
    · refine ⟨by simp, ⟨index, rfl, hkey ▸ hget, hdone⟩, hbelow⟩
    · intro k'
      simp only [State.path, List.map_cons, hkey, List.mem_cons, honPath]
    · simp only [State.path, List.map_cons, hkey]
      exact List.nodup_cons.mpr ⟨fun hmem => hfresh ((honPath k).mpr hmem), hnodup⟩
    · simp only [State.path, List.map_cons, hkey]
      exact List.forall_mem_cons.mpr ⟨hvisited, hapart⟩
  · have hall : ∀ k ∈ G.needs a, k ∈ s.visited := by
      rw [List.take_of_length_le hlength] at hdone
      exact hdone
    obtain ⟨hnot, hnodupRest⟩ := List.nodup_cons.mp hnodup
    obtain ⟨hunvisited, hapartRest⟩ := List.forall_mem_cons.mp hapart
    refine ⟨hrest, hwithinRest, ?_, ?_, hnodupRest, ?_, ?_, ?_, ?_, ?_⟩
    · -- The node below has come past the one that is left.
      cases rest with
      | nil => trivial
      | cons entry rest =>
        obtain ⟨⟨j, hindex, hget, hbefore⟩, hlower⟩ := hbelow
        refine ⟨?_, hlower.mono fun k hk => List.mem_cons_of_mem _ hk⟩
        rw [hindex, mem_take_succ hget]
        exact ⟨fun k hk => List.mem_cons_of_mem _ (hbefore k hk), List.mem_cons_self⟩
    · intro k
      simp only [State.path, List.mem_filter, honPath, List.mem_cons, decide_eq_true_eq]
      constructor
      · rintro ⟨rfl | hmem, hne⟩
        · exact absurd rfl hne
        · exact hmem
      · intro hmem
        exact ⟨.inr hmem, fun heq => hnot (heq ▸ hmem)⟩
    · intro k hk hmem
      rcases List.mem_cons.mp hmem with rfl | hmem
      · exact hnot hk
      · exact hapartRest k hk hmem
    · intro k
      rw [List.mem_cons, h.visited, List.map_append, List.mem_append, List.map_singleton,
        List.mem_singleton, or_comm]
    · rw [List.map_append, List.map_singleton, List.nodup_append]
      refine ⟨h.ordered_nodup, List.nodup_singleton _, ?_⟩
      rintro k hk k' hk' rfl
      rw [List.mem_singleton.mp hk', ← h.visited] at hk
      exact hunvisited hk
    · intro b hb
      rcases List.mem_append.mp hb with hb | hb
      · exact h.ordered_known b hb
      · exact List.mem_singleton.mp hb ▸ ha
    · exact h.behind.append fun k hk => (h.visited k).mp (hall k hk)

/-- A search fails for one of two reasons. -/
theorem Inv.sound (h : Inv G s) (hstack : s.stack = (a, index) :: rest) {failure : Failure α κ}
    (hstep : PostOrder.step G s a index rest = .error failure) : Sound G failure := by
  have ha : G.find? (G.key a) = some a := h.known (a, index) (by rw [hstack]; exact List.mem_cons_self)
  rw [PostOrder.step] at hstep
  cases hget : (G.needs a)[index]? with
  | none => simp [hget] at hstep
  | some k =>
    have hneeds := List.mem_of_getElem? hget
    cases hfind : G.find? k with
    | none =>
      simp only [hget, hfind, Except.error.injEq] at hstep
      exact hstep ▸ ⟨ha, hneeds, hfind⟩
    | some b =>
      have hkey := G.key_of_find? k b hfind
      simp only [hget, hfind, hkey] at hstep
      split_ifs at hstep with hvisited honPath
      obtain rfl := Except.error.inj hstep
      intro hacyclic
      have hmem := (h.onPath k).mp honPath
      rw [State.path, hstack, List.map_cons] at hmem
      -- The path leads from the node to the one that needs it.
      rcases List.mem_cons.mp hmem with heq | hmem
      · exact hacyclic k (.single ⟨a, by rw [heq]; exact ha, hneeds⟩)
      · have hwaits := h.waits
        rw [hstack] at hwaits
        have hpath := hwaits.2.transGen (fun entry hentry => h.known entry
          (by rw [hstack]; exact List.mem_cons_of_mem _ hentry)) hmem
        exact hacyclic k (hpath.tail ⟨a, ha, hneeds⟩)

/-! ### The search ends -/

variable (G)

/-- How many rounds a node takes. -/
def rounds (a : α) : ℕ := (G.needs a).length + 1

/-- How many rounds all the nodes take. -/
def work (nodes : List α) : ℕ := (nodes.map (rounds G)).sum

/-- The nodes that are neither visited nor on the path. -/
def untouched (nodes : List α) (s : State α κ) : List α :=
  nodes.filter fun a => G.key a ∉ s.visited ∧ G.key a ∉ s.path G

/-- How many rounds are left. -/
def left (nodes : List α) (s : State α κ) : ℕ :=
  work G (untouched G nodes s) + (s.stack.map fun entry => rounds G entry.1 - entry.2).sum

omit [DecidableEq κ] in
theorem work_filter_le {p q : α → Bool} (nodes : List α) (hsub : ∀ a ∈ nodes, q a → p a) :
    work G (nodes.filter q) ≤ work G (nodes.filter p) := by
  induction nodes with
  | nil => exact le_rfl
  | cons a nodes ih =>
    obtain ⟨ha, hnodes⟩ := List.forall_mem_cons.mp hsub
    have hrest := ih hnodes
    rw [List.filter_cons, List.filter_cons]
    by_cases hq : q a
    · rw [if_pos hq, if_pos (ha hq), work, work, List.map_cons, List.map_cons, List.sum_cons, List.sum_cons]
      exact Nat.add_le_add_left hrest _
    · rw [if_neg hq]
      split_ifs
      · rw [work, work, List.map_cons, List.sum_cons]
        exact hrest.trans (Nat.le_add_left _ _)
      · exact hrest

omit [DecidableEq κ] in
/-- A node that is taken out takes its rounds with it. -/
theorem work_filter_add_le {p q : α → Bool} {nodes : List α} (hsub : ∀ a ∈ nodes, q a → p a) {c : α}
    (hc : c ∈ nodes) (hp : p c) (hq : q c = false) :
    work G (nodes.filter q) + rounds G c ≤ work G (nodes.filter p) := by
  induction nodes with
  | nil => simp at hc
  | cons a nodes ih =>
    obtain ⟨ha, hnodes⟩ := List.forall_mem_cons.mp hsub
    rcases List.mem_cons.mp hc with rfl | hc
    · have hle := work_filter_le G nodes hnodes
      rw [List.filter_cons_of_neg (by simp [hq]), List.filter_cons_of_pos hp]
      simp only [work, List.map_cons, List.sum_cons] at hle ⊢
      omega
    · have hrest := ih hnodes hc
      rw [List.filter_cons, List.filter_cons]
      by_cases hqa : q a
      · rw [if_pos hqa, if_pos (ha hqa)]
        simp only [work, List.map_cons, List.sum_cons] at hrest ⊢
        omega
      · rw [if_neg hqa]
        split_ifs
        · simp only [work, List.map_cons, List.sum_cons] at hrest ⊢
          omega
        · exact hrest

variable {G} {nodes : List α}

/-- Every round uses up a round. -/
theorem Inv.left_lt (h : Inv G s) (hnodes : ∀ k a, G.find? k = some a → a ∈ nodes)
    (hstack : s.stack = (a, index) :: rest) (hstep : PostOrder.step G s a index rest = .ok t) :
    left G nodes t < left G nodes s := by
  have hwithin := h.within (a, index) (by rw [hstack]; exact List.mem_cons_self)
  simp only at hwithin
  rcases step_cases hstep with ⟨k, b, hget, hfind, hvisited, rfl⟩ |
    ⟨k, b, hget, hfind, hvisited, hfresh, rfl⟩ | ⟨hlength, rfl⟩
  · have hlt := (List.getElem?_eq_some_iff.mp hget).1
    simp only [left, untouched, State.path, hstack, List.map_cons, List.sum_cons, rounds]
    omega
  · have hlt := (List.getElem?_eq_some_iff.mp hget).1
    have hkey := G.key_of_find? k b hfind
    have hpath : k ∉ s.path G := fun hmem => hfresh ((h.onPath k).mpr hmem)
    have htaken := work_filter_add_le G (p := fun c => G.key c ∉ s.visited ∧ G.key c ∉ s.path G)
      (q := fun c => G.key c ∉ s.visited ∧ G.key c ∉ G.key b :: s.path G)
      (fun c (_ : c ∈ nodes) hc => by simp only [decide_eq_true_eq, List.mem_cons, not_or] at hc ⊢; exact ⟨hc.1, hc.2.2⟩)
      (hnodes k b hfind) (by simp [hkey, hvisited, hpath]) (by simp)
    simp only [State.path, hstack, List.map_cons] at htaken
    simp only [left, untouched, State.path, hstack, List.map_cons, List.sum_cons, rounds] at htaken ⊢
    omega
  · have hsame : untouched G nodes
        ⟨rest, s.onPath.filter (· ≠ G.key a), G.key a :: s.visited, s.ordered ++ [a]⟩ =
        untouched G nodes s := by
      refine List.filter_congr fun c _ => ?_
      simp only [State.path, hstack, List.map_cons, List.mem_cons, decide_eq_decide]
      tauto
    rw [left, left, hsame, hstack, List.map_cons, List.sum_cons, rounds]
    simp only
    omega

/-- What a round has seen stays seen. -/
theorem seen_step (hstack : s.stack = (a, index) :: rest) (hstep : step G s a index rest = .ok t) {k : κ}
    (hk : k ∈ s.visited ∨ k ∈ s.path G) : k ∈ t.visited ∨ k ∈ t.path G := by
  rcases step_cases hstep with ⟨_, b, -, -, -, rfl⟩ | ⟨_, b, -, -, -, -, rfl⟩ | ⟨-, rfl⟩
  all_goals simp only [State.path, hstack, List.map_cons, List.mem_cons] at hk ⊢
  · exact hk
  · exact hk.imp_right .inr
  · rcases hk with hk | rfl | hk
    · exact .inl (.inr hk)
    · exact .inl (.inl rfl)
    · exact .inr hk

/-- **A search ends**, with everything visited that it has seen, or with a reason. -/
theorem visit_spec (hnodes : ∀ k a, G.find? k = some a → a ∈ nodes) {n : ℕ} (h : Inv G s)
    (hleft : left G nodes s ≤ n) :
    (∃ t, visit G n s = some (.ok t) ∧ Inv G t ∧ t.stack = [] ∧
        ∀ k, k ∈ s.visited ∨ k ∈ s.path G → k ∈ t.visited) ∨
      ∃ failure, visit G n s = some (.error failure) ∧ Sound G failure := by
  induction n generalizing s with
  | zero =>
    cases hstack : s.stack with
    | nil =>
      refine .inl ⟨s, by simp [visit, hstack], h, hstack, fun k hk => ?_⟩
      simpa [State.path, hstack] using hk
    | cons entry rest =>
      have hwithin := h.within entry (by rw [hstack]; exact List.mem_cons_self)
      simp only [left, hstack, List.map_cons, List.sum_cons, rounds] at hleft
      omega
  | succ n ih =>
    cases hstack : s.stack with
    | nil =>
      refine .inl ⟨s, by simp [visit, hstack], h, hstack, fun k hk => ?_⟩
      simpa [State.path, hstack] using hk
    | cons entry rest =>
      obtain ⟨a, index⟩ := entry
      cases hstep : step G s a index rest with
      | error failure =>
        refine .inr ⟨failure, ?_, h.sound hstack hstep⟩
        rw [visit.eq_def]
        simp [hstack, hstep]
      | ok t =>
        have hlt := h.left_lt hnodes hstack hstep
        have hvisit : visit G (n + 1) s = visit G n t := by
          rw [visit.eq_def]
          simp [hstack, hstep]
        rw [hvisit]
        rcases ih (h.step hstack hstep) (by omega) with ⟨u, hu, hinv, hempty, hseen⟩ | hfailure
        · exact .inl ⟨u, hu, hinv, hempty, fun k hk => hseen k (seen_step hstack hstep hk)⟩
        · exact .inr hfailure

omit [DecidableEq κ] in
/-- A search from a node that was not visited. -/
theorem Inv.root (h : Inv G s) {root : α} (hroot : G.find? (G.key root) = some root)
    (hfresh : G.key root ∉ s.visited) :
    Inv G { s with stack := [(root, 0)], onPath := [G.key root] } where
  known := by simpa using hroot
  within := by simp
  waits := ⟨by simp, trivial⟩
  onPath _ := Iff.rfl
  nodup := List.nodup_singleton _
  apart k hk := List.mem_singleton.mp hk ▸ hfresh
  visited := h.visited
  ordered_nodup := h.ordered_nodup
  ordered_known := h.ordered_known
  behind := h.behind

theorem left_root_le {root : α} (hroot : root ∈ nodes) :
    left G nodes { s with stack := [(root, 0)], onPath := [G.key root] } ≤ work G nodes := by
  have htaken := work_filter_add_le G (p := fun _ => true)
    (q := fun c => G.key c ∉ s.visited ∧ G.key c ∉ [G.key root]) (fun c (_ : c ∈ nodes) _ => rfl) hroot rfl (by simp)
  rw [List.filter_true] at htaken
  simpa [left, untouched, State.path] using htaken

theorem visitAll_spec (hnodes : ∀ k a, G.find? k = some a → a ∈ nodes) {n : ℕ}
    (hwork : work G nodes ≤ n) {roots : List α} (hroots : ∀ root ∈ roots, G.find? (G.key root) = some root)
    (h : Inv G s) (hempty : s.stack = []) :
    (∃ t, visitAll G n roots s = some (.ok t) ∧ Inv G t ∧ (∀ k ∈ s.visited, k ∈ t.visited) ∧
        ∀ root ∈ roots, G.key root ∈ t.visited) ∨
      ∃ failure, visitAll G n roots s = some (.error failure) ∧ Sound G failure := by
  induction roots generalizing s with
  | nil => exact .inl ⟨s, rfl, h, fun _ hk => hk, by simp⟩
  | cons root roots ih =>
    obtain ⟨hroot, hrest⟩ := List.forall_mem_cons.mp hroots
    rw [visitAll]
    split_ifs with hvisited
    · rcases ih hrest h hempty with ⟨t, ht, hinv, hkept, hall⟩ | hfailure
      · exact .inl ⟨t, ht, hinv, hkept, List.forall_mem_cons.mpr ⟨hkept _ hvisited, hall⟩⟩
      · exact .inr hfailure
    · have hleft := (left_root_le (s := s) (hnodes _ _ hroot)).trans hwork
      rcases visit_spec hnodes (h.root hroot hvisited) hleft with
        ⟨t, ht, hinv, hdone, hseen⟩ | ⟨failure, hfailure, hsound⟩
      · rw [ht]
        rcases ih hrest hinv hdone with ⟨u, hu, hinv', hkept, hall⟩ | hfailure
        · refine .inl ⟨u, hu, hinv', fun k hk => hkept k (hseen k (.inl hk)), ?_⟩
          exact List.forall_mem_cons.mpr ⟨hkept _ (hseen _ (.inr List.mem_cons_self)), hall⟩
        · exact .inr hfailure
      · exact .inr ⟨failure, by rw [hfailure], hsound⟩

/-! ### The order -/

omit [DecidableEq κ] in
theorem Inv.start : Inv G ⟨[], [], [], []⟩ := by
  refine ⟨by simp, by simp, trivial, by simp [State.path], by simp [State.path], by simp [State.path],
    by simp, by simp, by simp, ?_⟩
  intro before a after heq
  exact absurd heq.symm (by simp)

/-- An order in which every node stands behind the ones it needs has no cycle. -/
theorem acyclic_of_behind {l : List α} (hbehind : Behind G l) (hnodup : (l.map G.key).Nodup)
    (hall : ∀ k a, G.find? k = some a → a ∈ l) : Acyclic (Needs G) := by
  refine acyclic_of_lt (f := fun k => l.length - (l.map G.key).idxOf k) ?_
  rintro k k' ⟨a, hfind, hneeds⟩
  obtain ⟨before, after, rfl⟩ := List.append_of_mem (hall k a hfind)
  have hmem := hbehind before a after rfl k' hneeds
  have hkey := G.key_of_find? k a hfind
  rw [List.map_append, List.map_cons, hkey] at hnodup
  have hnot : k ∉ before.map G.key := fun h =>
    (List.nodup_append.mp hnodup).2.2 k h k List.mem_cons_self rfl
  rw [List.map_append, List.map_cons, hkey, List.idxOf_append_of_mem hmem, List.idxOf_append_of_notMem hnot]
  have hlt := List.idxOf_lt_length_iff.mpr hmem
  simp only [List.length_append, List.length_cons, List.idxOf_cons_self, List.length_map] at hlt ⊢
  omega

/-- **The search ends, with every node once behind the ones it needs, or for one of two reasons.** -/
theorem order_spec (hfind : ∀ k a, G.find? k = some a ↔ a ∈ nodes ∧ G.key a = k)
    (hnodup : (nodes.map G.key).Nodup) {n : ℕ} (hwork : work G nodes ≤ n) :
    (∃ l, order G n nodes = some (.ok l) ∧ l.Perm nodes ∧ Behind G l) ∨
      ∃ failure, order G n nodes = some (.error failure) ∧ Sound G failure := by
  have hroots : ∀ a ∈ nodes, G.find? (G.key a) = some a := fun a ha => (hfind _ a).mpr ⟨ha, rfl⟩
  rcases visitAll_spec (fun k a h => ((hfind k a).mp h).1) hwork hroots Inv.start rfl with
    ⟨t, ht, hinv, -, hall⟩ | ⟨failure, hfailure, hsound⟩
  · refine .inl ⟨t.ordered, by simp [order, ht, Except.map], ?_, hinv.behind⟩
    refine (List.perm_ext_iff_of_nodup (List.Nodup.of_map _ hinv.ordered_nodup)
      (List.Nodup.of_map _ hnodup)).mpr fun a => ⟨fun ha => ?_, fun ha => ?_⟩
    · exact ((hfind _ a).mp (hinv.ordered_known a ha)).1
    · obtain ⟨b, hb, hkey⟩ := List.mem_map.mp ((hinv.visited _).mp (hall a ha))
      have hfound := hinv.ordered_known b hb
      rw [hkey, hroots a ha] at hfound
      exact Option.some.inj hfound ▸ hb
  · exact .inr ⟨failure, by simp [order, hfailure, Except.map], hsound⟩

/-- There is an order exactly if every needed node is there and none needs itself over others. -/
theorem order_eq_ok_iff (hfind : ∀ k a, G.find? k = some a ↔ a ∈ nodes ∧ G.key a = k)
    (hnodup : (nodes.map G.key).Nodup) {n : ℕ} (hwork : work G nodes ≤ n) :
    (∃ l, order G n nodes = some (.ok l)) ↔
      (∀ a ∈ nodes, ∀ k ∈ G.needs a, ∃ b ∈ nodes, G.key b = k) ∧ Acyclic (Needs G) := by
  constructor
  · rintro ⟨l, hl⟩
    rcases order_spec hfind hnodup hwork with ⟨l', hl', hperm, hbehind⟩ | ⟨failure, hfailure, -⟩
    · have hkeys : (l'.map G.key).Nodup := (hperm.map G.key).nodup_iff.mpr hnodup
      refine ⟨fun a ha k hk => ?_, acyclic_of_behind hbehind hkeys fun k a h =>
        hperm.mem_iff.mpr ((hfind k a).mp h).1⟩
      obtain ⟨before, after, rfl⟩ := List.append_of_mem (hperm.mem_iff.mpr ha)
      obtain ⟨b, hb, hkey⟩ := List.mem_map.mp (hbehind before a after rfl k hk)
      exact ⟨b, hperm.mem_iff.mp (List.mem_append_left _ hb), hkey⟩
    · rw [hl] at hfailure
      exact absurd hfailure (by simp)
  · rintro ⟨hall, hacyclic⟩
    rcases order_spec hfind hnodup hwork with ⟨l, hl, -, -⟩ | ⟨failure, -, hsound⟩
    · exact ⟨l, hl⟩
    · cases failure with
      | cycle => exact absurd hacyclic hsound
      | missing a k =>
        obtain ⟨ha, hk, hnone⟩ := hsound
        obtain ⟨b, hb, hkey⟩ := hall a ((hfind _ a).mp ha).1 k hk
        rw [(hfind k b).mpr ⟨hb, hkey⟩] at hnone
        exact absurd hnone (by simp)

end Step

end PostOrder
