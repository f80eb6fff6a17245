import Mathlib.Logic.Function.Basic
import Mathlib.Logic.Relation
import Mathlib.Tactic.SplitIfs

/-!
# Sessions under read committed

Several sessions each run one transaction over the same rows. A statement sees the committed rows
with the session's own writes over them, as they are at that moment. A row that a session has
written stays locked until the session ends: a statement of another session that would write it
waits. A commit publishes the writes of the session and an abort drops them, and a session may
abort at any point. Besides rows there is a journal that is only ever appended to, which takes no
locks.

A transaction is a `Program`, a tree of statements that branch on what they see. To reason about
one session among arbitrary others, name a relation `R` that every commit respects. Between two of
its statements a session finds the rows it has locked unchanged, and everything else changed as `R`
allows (`Interferes`). `Program.Ensures` says that a program ends with its postcondition under any
such interference, and `Invariant.of_reachable` turns proofs about each program alone into facts about
every reachable state of all of them.

## Main results

* `Program.Ensures.bind`: sequence.
* `Program.WritesOnly.ensures`: a program keeps what speaks of rows it never writes.
* `Invariant.of_reachable`: every commit in every interleaving meets its postcondition, and any
  two commits are ordered.
* `exists_reachable_of_run`: a session may run alone.
-/

namespace ReadCommitted

/-- Rows by key, and a journal. -/
structure Database (κ : Type) (ρ : κ → Type) (τ : Type) where
  row : ∀ k, ρ k
  journal : List τ

/-- The rows a session has written, and what it has appended to the journal. -/
structure Writes (κ : Type) (ρ : κ → Type) (τ : Type) where
  row : ∀ k, Option (ρ k)
  journal : List τ

/-- A transaction: its statements, each of which may branch on what it sees. -/
inductive Program (κ : Type) (ρ : κ → Type) (τ ε α : Type) : Type where
  | done (result : α)
  | fail (error : ε)
  | statement (write : Database κ ρ τ → Writes κ ρ τ)
      (next : Database κ ρ τ → Program κ ρ τ ε α)

variable {κ : Type} {ρ : κ → Type} {τ ε α β : Type}

/-! ### Writes -/

namespace Writes

instance : EmptyCollection (Writes κ ρ τ) := ⟨⟨fun _ => none, []⟩⟩

/-- The session holds the lock of this row. -/
def Locks (w : Writes κ ρ τ) (k : κ) : Prop := (w.row k).isSome

/-- What a session sees of the committed rows, or leaves of them. -/
def laidOver (w : Writes κ ρ τ) (db : Database κ ρ τ) : Database κ ρ τ where
  row k := (w.row k).getD (db.row k)
  journal := db.journal ++ w.journal

/-- The writes of one statement after another. -/
def andThen (w w' : Writes κ ρ τ) : Writes κ ρ τ where
  row k := (w'.row k).or (w.row k)
  journal := w.journal ++ w'.journal

/-- Write one row. -/
def put [DecidableEq κ] (k : κ) (value : ρ k) : Writes κ ρ τ where
  row := Function.update (fun _ => none) k (some value)
  journal := []

/-- Append one entry. -/
def append (entry : τ) : Writes κ ρ τ where
  row _ := none
  journal := [entry]

variable {w w' : Writes κ ρ τ} {db : Database κ ρ τ} {k : κ}

@[simp]
theorem row_empty : (∅ : Writes κ ρ τ).row k = none := rfl

@[simp]
theorem not_locks_empty : ¬ (∅ : Writes κ ρ τ).Locks k := by simp [Locks]

@[simp]
theorem not_locks_append {entry : τ} : ¬ (append entry : Writes κ ρ τ).Locks k := by
  simp [append, Locks]

@[simp]
theorem row_laidOver : (w.laidOver db).row k = (w.row k).getD (db.row k) := rfl

@[simp]
theorem row_andThen : (w.andThen w').row k = (w'.row k).or (w.row k) := rfl

theorem row_andThen_of_not_locks (h : ¬ w'.Locks k) : (w.andThen w').row k = w.row k := by
  rw [Locks, Option.not_isSome_iff_eq_none] at h
  rw [row_andThen, h, Option.none_or]

theorem row_laidOver_of_not_locks (h : ¬ w.Locks k) : (w.laidOver db).row k = db.row k := by
  rw [Locks, Option.not_isSome_iff_eq_none] at h
  rw [row_laidOver, h, Option.getD_none]

theorem locks_andThen_iff : (w.andThen w').Locks k ↔ w.Locks k ∨ w'.Locks k := by
  rw [Locks, row_andThen, Option.isSome_or, Bool.or_eq_true, or_comm]
  rfl

variable [DecidableEq κ]

@[simp]
theorem row_put_self {value : ρ k} : (put k value : Writes κ ρ τ).row k = some value := by
  simp [put]

theorem row_put_of_ne {k' : κ} {value : ρ k'} (h : k ≠ k') :
    (put k' value : Writes κ ρ τ).row k = none := by
  simp only [put, Function.update_of_ne h]

theorem locks_put_iff {k' : κ} {value : ρ k'} :
    (put k' value : Writes κ ρ τ).Locks k ↔ k = k' := by
  by_cases h : k = k'
  · subst h
    simp [Locks]
  · simp [Locks, row_put_of_ne h, h]

end Writes

/-! ### Programs -/

namespace Program

def bind (p : Program κ ρ τ ε α) (f : α → Program κ ρ τ ε β) : Program κ ρ τ ε β :=
  match p with
  | .done result => f result
  | .fail error => .fail error
  | .statement write next => .statement write fun view => (next view).bind f

instance : Monad (Program κ ρ τ ε) where
  pure := .done
  bind := .bind

instance : LawfulMonad (Program κ ρ τ ε) := LawfulMonad.mk' _
  (fun p => by
    change p.bind _ = p
    induction p with
    | done result => rfl
    | fail error => rfl
    | statement write next ih => exact congrArg _ (funext ih))
  (fun a f => rfl)
  (fun p f g => by
    change (p.bind f).bind g = p.bind fun a => (f a).bind g
    induction p with
    | done result => rfl
    | fail error => rfl
    | statement write next ih => exact congrArg _ (funext ih))

/-- Read something of what the session sees. -/
def query (read : Database κ ρ τ → α) : Program κ ρ τ ε α :=
  .statement (fun _ => ∅) fun view => .done (read view)

/-- Write something, and return something, depending on what the session sees. -/
def execute (write : Database κ ρ τ → α × Writes κ ρ τ) : Program κ ρ τ ε α :=
  .statement (fun view => (write view).2) fun view => .done (write view).1

/-- Run a program with no other session in between. -/
def run : Program κ ρ τ ε α → Writes κ ρ τ → Database κ ρ τ → Except ε (α × Writes κ ρ τ)
  | .done result, own, _ => .ok (result, own)
  | .fail error, _, _ => .error error
  | .statement write next, own, db =>
    (next (own.laidOver db)).run (own.andThen (write (own.laidOver db))) db

end Program

/-! ### Sessions side by side -/

/-- What has become of a session. A committed one is kept with what it wrote and the rows as they
were just before. -/
inductive Status (κ : Type) (ρ : κ → Type) (τ ε α : Type) : Type where
  | waiting
  | running (program : Program κ ρ τ ε α) (own : Writes κ ρ τ)
  | committed (result : α) (own : Writes κ ρ τ) (before : Database κ ρ τ)
  | aborted

structure System (ι κ : Type) (ρ : κ → Type) (τ ε α : Type) where
  db : Database κ ρ τ
  status : ι → Status κ ρ τ ε α

variable {ι : Type} {S S' : System ι κ ρ τ ε α} {programs : ι → Program κ ρ τ ε α}

namespace System

def initial (db : Database κ ρ τ) : System ι κ ρ τ ε α := ⟨db, fun _ => .waiting⟩

/-- A running session holds the lock of this row. -/
def Holds (S : System ι κ ρ τ ε α) (i : ι) (k : κ) : Prop :=
  ∃ program own, S.status i = .running program own ∧ own.Locks k

def setStatus [DecidableEq ι] (S : System ι κ ρ τ ε α) (i : ι) (status : Status κ ρ τ ε α) :
    System ι κ ρ τ ε α := { S with status := Function.update S.status i status }

variable [DecidableEq ι]

@[simp]
theorem status_setStatus {i j : ι} {status : Status κ ρ τ ε α} :
    (S.setStatus i status).status j = if j = i then status else S.status j :=
  Function.update_apply _ _ _ _

end System

/-- One step of one session. -/
inductive Step [DecidableEq ι] (programs : ι → Program κ ρ τ ε α) :
    System ι κ ρ τ ε α → System ι κ ρ τ ε α → Prop where
  | start {S : System ι κ ρ τ ε α} {i : ι} (hstatus : S.status i = .waiting) :
    Step programs S (S.setStatus i (.running (programs i) ∅))
  | execute {S : System ι κ ρ τ ε α} {i : ι} {write : Database κ ρ τ → Writes κ ρ τ}
    {next : Database κ ρ τ → Program κ ρ τ ε α} {own : Writes κ ρ τ}
    (hstatus : S.status i = .running (.statement write next) own)
    (hfree : ∀ j, j ≠ i → ∀ k, (write (own.laidOver S.db)).Locks k → ¬ S.Holds j k) :
    Step programs S (S.setStatus i
      (.running (next (own.laidOver S.db)) (own.andThen (write (own.laidOver S.db)))))
  | commit {S : System ι κ ρ τ ε α} {i : ι} {result : α} {own : Writes κ ρ τ}
    (hstatus : S.status i = .running (.done result) own) :
    Step programs S { S.setStatus i (.committed result own S.db) with db := own.laidOver S.db }
  | abort {S : System ι κ ρ τ ε α} {i : ι} {program : Program κ ρ τ ε α} {own : Writes κ ρ τ}
    (hstatus : S.status i = .running program own) :
    Step programs S (S.setStatus i .aborted)

/-- The states that some interleaving of the sessions leads to. -/
def Reachable [DecidableEq ι] (programs : ι → Program κ ρ τ ε α) (db : Database κ ρ τ)
    (S : System ι κ ρ τ ε α) : Prop :=
  Relation.ReflTransGen (Step programs) (.initial db) S

/-! ### Reasoning about one session -/

/-- What other sessions may do between two statements of a session that has written `own`, when
every commit respects `R`. -/
def Interferes (R : Database κ ρ τ → Database κ ρ τ → Prop) (own : Writes κ ρ τ)
    (db db' : Database κ ρ τ) : Prop :=
  R db db' ∧ ∀ k, own.Locks k → db'.row k = db.row k

namespace Program

/-- A program that ends does so with the postcondition, whatever others do in between. -/
def Ensures (R : Database κ ρ τ → Database κ ρ τ → Prop)
    (Q : α → Writes κ ρ τ → Database κ ρ τ → Prop) :
    Program κ ρ τ ε α → Writes κ ρ τ → Database κ ρ τ → Prop
  | .done result, own, db => ∀ db', Interferes R own db db' → Q result own db'
  | .fail _, _, _ => True
  | .statement write next, own, db => ∀ db', Interferes R own db db' →
    (next (own.laidOver db')).Ensures R Q (own.andThen (write (own.laidOver db'))) db'

/-- Every row that the program may write satisfies `p`. -/
def WritesOnly (p : κ → Prop) : Program κ ρ τ ε α → Prop
  | .done _ => True
  | .fail _ => True
  | .statement write next =>
    ∀ view, (∀ k, (write view).Locks k → p k) ∧ (next view).WritesOnly p

end Program

section Rules

variable {R : Database κ ρ τ → Database κ ρ τ → Prop} {own : Writes κ ρ τ}
  {db db' db'' : Database κ ρ τ} {p : Program κ ρ τ ε α}
  {Q Q' : α → Writes κ ρ τ → Database κ ρ τ → Prop}

theorem Interferes.refl (hrefl : ∀ db, R db db) : Interferes R own db db :=
  ⟨hrefl db, fun _ _ => rfl⟩

theorem Interferes.trans (htrans : ∀ a b c, R a b → R b c → R a c)
    (h : Interferes R own db db') (h' : Interferes R own db' db'') : Interferes R own db db'' :=
  ⟨htrans _ _ _ h.1 h'.1, fun k hk => (h'.2 k hk).trans (h.2 k hk)⟩

namespace Program

theorem Ensures.mono (htrans : ∀ a b c, R a b → R b c → R a c) (h : p.Ensures R Q own db)
    (hdb : Interferes R own db db') : p.Ensures R Q own db' := by
  cases p with
  | done result => exact fun db'' h' => h db'' (hdb.trans htrans h')
  | fail error => trivial
  | statement write next => exact fun db'' h' => h db'' (hdb.trans htrans h')

theorem Ensures.imp (h : p.Ensures R Q own db) (hQ : ∀ a own db, Q a own db → Q' a own db) :
    p.Ensures R Q' own db := by
  induction p generalizing own db with
  | done result => exact fun db' hdb => hQ _ _ _ (h db' hdb)
  | fail error => trivial
  | statement write next ih => exact fun db' hdb => ih _ (h db' hdb)

/-- **Sequence.** -/
theorem Ensures.bind (hrefl : ∀ db, R db db) {f : α → Program κ ρ τ ε β}
    {Q : β → Writes κ ρ τ → Database κ ρ τ → Prop}
    (h : p.Ensures R (fun a own db => (f a).Ensures R Q own db) own db) :
    (p >>= f).Ensures R Q own db := by
  change (p.bind f).Ensures R Q own db
  induction p generalizing own db with
  | done result => exact h db (.refl hrefl)
  | fail error => trivial
  | statement write next ih => exact fun db' hdb => ih _ (h db' hdb)

theorem ensures_query {read : Database κ ρ τ → α}
    (h : ∀ db', Interferes R own db db' → ∀ db'', Interferes R own db' db'' →
      Q (read (own.laidOver db')) own db'') :
    (query read : Program κ ρ τ ε α).Ensures R Q own db := by
  intro db' hdb db'' hdb'
  have hown : own.andThen ∅ = own := by
    cases own
    simp [Writes.andThen, EmptyCollection.emptyCollection]
  rw [hown] at hdb' ⊢
  exact h db' hdb db'' hdb'

theorem ensures_execute {write : Database κ ρ τ → α × Writes κ ρ τ}
    (h : ∀ db', Interferes R own db db' →
      ∀ db'', Interferes R (own.andThen (write (own.laidOver db')).2) db' db'' →
        Q (write (own.laidOver db')).1 (own.andThen (write (own.laidOver db')).2) db'') :
    (execute write : Program κ ρ τ ε α).Ensures R Q own db := h

/-- **Frame.** A program keeps whatever is stable under interference and does not speak of the rows
it may write. -/
theorem WritesOnly.ensures {P : κ → Prop} {J : Writes κ ρ τ → Database κ ρ τ → Prop}
    (hstable : ∀ own db db', J own db → Interferes R own db db' → J own db')
    (hframe : ∀ own db w, J own db → (∀ k, w.Locks k → P k) → J (own.andThen w) db)
    (hp : p.WritesOnly P) (h : J own db) : p.Ensures R (fun _ own db => J own db) own db := by
  induction p generalizing own db with
  | done result => exact fun db' hdb => hstable _ _ _ h hdb
  | fail error => trivial
  | statement write next ih =>
    intro db' hdb
    obtain ⟨hwrite, hnext⟩ := hp (own.laidOver db')
    exact ih _ hnext (hframe _ _ _ (hstable _ _ _ h hdb) hwrite)

section WritesOnly

variable {P : κ → Prop}

theorem WritesOnly.bind {f : α → Program κ ρ τ ε β} (hp : p.WritesOnly P)
    (hf : ∀ a, (f a).WritesOnly P) : (p >>= f).WritesOnly P := by
  change (p.bind f).WritesOnly P
  induction p with
  | done result => exact hf result
  | fail error => trivial
  | statement write next ih => exact fun view => ⟨(hp view).1, ih view (hp view).2⟩

theorem writesOnly_query {read : Database κ ρ τ → α} :
    (query read : Program κ ρ τ ε α).WritesOnly P :=
  fun _ => ⟨fun _ hk => absurd hk Writes.not_locks_empty, trivial⟩

theorem writesOnly_execute {write : Database κ ρ τ → α × Writes κ ρ τ}
    (h : ∀ view k, (write view).2.Locks k → P k) :
    (execute write : Program κ ρ τ ε α).WritesOnly P := fun view => ⟨h view, trivial⟩

theorem writesOnly_mapM {f : β → Program κ ρ τ ε α} {l : List β}
    (hf : ∀ b ∈ l, (f b).WritesOnly P) : (l.mapM f).WritesOnly P := by
  induction l with
  | nil =>
    rw [List.mapM_nil]
    trivial
  | cons b l ih =>
    rw [List.mapM_cons]
    refine .bind (hf b List.mem_cons_self) fun a => ?_
    exact .bind (ih fun b hb => hf b (List.mem_cons_of_mem _ hb)) fun as => trivial

end WritesOnly

end Program

end Rules

/-! ### Reasoning about all sessions -/

section Invariant

variable [DecidableEq ι] {R : Database κ ρ τ → Database κ ρ τ → Prop}
  {Q : ι → α → Writes κ ρ τ → Database κ ρ τ → Prop} {db₀ : Database κ ρ τ}

/-- What holds in every reachable state, for programs that ensure their postconditions. -/
structure Invariant (R : Database κ ρ τ → Database κ ρ τ → Prop)
    (Q : ι → α → Writes κ ρ τ → Database κ ρ τ → Prop) (programs : ι → Program κ ρ τ ε α)
    (db₀ : Database κ ρ τ) (S : System ι κ ρ τ ε α) : Prop where
  /-- The committed rows have changed as `R` allows. -/
  evolves : R db₀ S.db
  /-- Every running session is on its way to its postcondition. -/
  running : ∀ i p own, S.status i = .running p own → p.Ensures R (Q i) own S.db
  /-- No row is locked twice. -/
  exclusive : ∀ i j k, i ≠ j → S.Holds i k → ¬ S.Holds j k
  /-- Every committed session met its postcondition. -/
  committed : ∀ i a own before, S.status i = .committed a own before →
    R db₀ before ∧ Q i a own before ∧ R (own.laidOver before) S.db
  /-- Only committed sessions change rows. -/
  changed : ∀ k, S.db.row k ≠ db₀.row k →
    ∃ i a own before, S.status i = .committed a own before ∧ own.Locks k
  /-- One of two commits came first. -/
  ordered : ∀ i a own before j a' own' before', i ≠ j → S.status i = .committed a own before →
    S.status j = .committed a' own' before' → R (own.laidOver before) before' ∨ R (own'.laidOver before') before

variable {S S' : System ι κ ρ τ ε α}

theorem holds_setStatus {i j : ι} {status : Status κ ρ τ ε α} {k : κ} :
    (S.setStatus i status).Holds j k ↔
      if j = i then ∃ p own, status = .running p own ∧ own.Locks k else S.Holds j k := by
  rw [System.Holds]
  split_ifs with h <;> simp [h, System.Holds]

omit [DecidableEq ι] in
theorem Invariant.initial (hrefl : ∀ db, R db db) : Invariant R Q programs db₀ (.initial db₀) where
  evolves := hrefl db₀
  running i p own h := nomatch h
  exclusive i j k _ h := by
    obtain ⟨p, own, hstatus, -⟩ := h
    nomatch hstatus
  committed i a own before h := nomatch h
  changed k h := absurd rfl h
  ordered i a own before j a' own' before' _ h := nomatch h

/-- A step that publishes nothing keeps the invariant, when the session that made it is still on its
way and has taken no lock of another. -/
theorem Invariant.setStatus {i : ι} {status : Status κ ρ τ ε α}
    (h : Invariant R Q programs db₀ S) (hold : ∀ a own before, S.status i ≠ .committed a own before)
    (hnew : ∀ a own before, status ≠ .committed a own before)
    (hrunning : ∀ p own, status = .running p own → p.Ensures R (Q i) own S.db)
    (hlocks : ∀ p own k, status = .running p own → own.Locks k → ∀ j, j ≠ i → ¬ S.Holds j k) :
    Invariant R Q programs db₀ (S.setStatus i status) where
  evolves := h.evolves
  running j p own hj := by
    rw [System.status_setStatus] at hj
    split_ifs at hj with hji
    · subst hji
      exact hrunning p own hj
    · exact h.running j p own hj
  exclusive j j' k hne hj hj' := by
    rw [holds_setStatus] at hj hj'
    split_ifs at hj hj' with hji hji' hji'
    · exact hne (hji.trans hji'.symm)
    · obtain ⟨p, own, hstatus, hk⟩ := hj
      exact hlocks p own k hstatus hk j' hji' hj'
    · obtain ⟨p, own, hstatus, hk⟩ := hj'
      exact hlocks p own k hstatus hk j hji hj
    · exact h.exclusive j j' k hne hj hj'
  committed j a own before hj := by
    rw [System.status_setStatus] at hj
    split_ifs at hj with hji
    · exact absurd hj (hnew a own before)
    · exact h.committed j a own before hj
  changed k hk := by
    obtain ⟨j, a, own, before, hj, hlock⟩ := h.changed k hk
    have hji : j ≠ i := by
      rintro rfl
      exact hold a own before hj
    exact ⟨j, a, own, before, by rwa [System.status_setStatus, if_neg hji], hlock⟩
  ordered j a own before j' a' own' before' hne hj hj' := by
    rw [System.status_setStatus] at hj hj'
    split_ifs at hj hj' with hji hji'
    · exact absurd hj (hnew a own before)
    · exact absurd hj (hnew a own before)
    · exact absurd hj' (hnew a' own' before')
    · exact h.ordered j a own before j' a' own' before' hne hj hj'

/-- **A commit keeps the invariant.** -/
theorem Invariant.commit (hrefl : ∀ db, R db db) (htrans : ∀ a b c, R a b → R b c → R a c)
    (hcommit : ∀ i a own db, R db₀ db → Q i a own db → R db (own.laidOver db))
    {i : ι} {a : α} {own : Writes κ ρ τ} (h : Invariant R Q programs db₀ S)
    (hstatus : S.status i = .running (.done a) own) :
    Invariant R Q programs db₀
      { S.setStatus i (.committed a own S.db) with db := own.laidOver S.db } := by
  have hpost : Q i a own S.db := h.running i _ own hstatus S.db (.refl hrefl)
  have hR : R S.db (own.laidOver S.db) := hcommit i a own S.db h.evolves hpost
  -- the other sessions see a change of rows they have not locked
  have hother {j : ι} {p : Program κ ρ τ ε α} {own' : Writes κ ρ τ} (hji : j ≠ i)
      (hj : S.status j = .running p own') : Interferes R own' S.db (own.laidOver S.db) :=
    ⟨hR, fun k hk => Writes.row_laidOver_of_not_locks fun hown =>
      h.exclusive j i k hji ⟨p, own', hj, hk⟩ ⟨_, own, hstatus, hown⟩⟩
  have hstatus' (j : ι) : (System.status { S.setStatus i (.committed a own S.db) with
      db := own.laidOver S.db } j) = if j = i then .committed a own S.db else S.status j :=
    System.status_setStatus
  constructor
  · exact htrans _ _ _ h.evolves hR
  · intro j p own' hj
    rw [hstatus'] at hj
    split_ifs at hj with hji
    exact (h.running j p own' hj).mono htrans (hother hji hj)
  · intro j j' k hne hj hj'
    replace hj := holds_setStatus.mp hj
    replace hj' := holds_setStatus.mp hj'
    split_ifs at hj hj' with hji hji' hji'
    · obtain ⟨_, _, hstatus, -⟩ := hj
      nomatch hstatus
    · obtain ⟨_, _, hstatus, -⟩ := hj
      nomatch hstatus
    · obtain ⟨_, _, hstatus, -⟩ := hj'
      nomatch hstatus
    · exact h.exclusive j j' k hne hj hj'
  · intro j a' own' before hj
    rw [hstatus'] at hj
    split_ifs at hj with hji
    · obtain ⟨rfl, rfl, rfl⟩ := Status.committed.inj hj
      subst hji
      exact ⟨h.evolves, hpost, hrefl _⟩
    · obtain ⟨hbefore, hQ, hafter⟩ := h.committed j a' own' before hj
      exact ⟨hbefore, hQ, htrans _ _ _ hafter hR⟩
  · intro k hk
    by_cases hlock : own.Locks k
    · exact ⟨i, a, own, S.db, by rw [hstatus', if_pos rfl], hlock⟩
    · obtain ⟨j, a', own', before, hj, hlock'⟩ := h.changed k (by
        rwa [← Writes.row_laidOver_of_not_locks hlock])
      have hji : j ≠ i := by
        rintro rfl
        rw [hstatus] at hj
        nomatch hj
      exact ⟨j, a', own', before, by rw [hstatus', if_neg hji, hj], hlock'⟩
  · intro j a₁ own₁ before₁ j' a₂ own₂ before₂ hne hj hj'
    rw [hstatus'] at hj hj'
    split_ifs at hj hj' with hji hji' hji'
    · exact absurd (hji.trans hji'.symm) hne
    · obtain ⟨rfl, rfl, rfl⟩ := Status.committed.inj hj
      exact .inr (h.committed j' a₂ own₂ before₂ hj').2.2
    · obtain ⟨rfl, rfl, rfl⟩ := Status.committed.inj hj'
      exact .inl (h.committed j a₁ own₁ before₁ hj).2.2
    · exact h.ordered j a₁ own₁ before₁ j' a₂ own₂ before₂ hne hj hj'

/-- **Every reachable state keeps the invariant**, when each program ensures its postcondition
under interference, and the postcondition makes its commit one that `R` allows. -/
theorem Invariant.of_reachable (hrefl : ∀ db, R db db) (htrans : ∀ a b c, R a b → R b c → R a c)
    (hprograms : ∀ i db, R db₀ db → (programs i).Ensures R (Q i) ∅ db)
    (hcommit : ∀ i a own db, R db₀ db → Q i a own db → R db (own.laidOver db))
    (h : Reachable programs db₀ S) : Invariant R Q programs db₀ S := by
  induction h with
  | refl => exact .initial hrefl
  | tail _ hstep ih =>
    cases hstep with
    | start hstatus =>
      refine ih.setStatus (by simp [hstatus]) (by simp) (fun p own h => ?_) (fun p own k h hk => ?_)
      · obtain ⟨rfl, rfl⟩ := Status.running.inj h
        exact hprograms _ _ ih.evolves
      · obtain ⟨rfl, rfl⟩ := Status.running.inj h
        exact absurd hk Writes.not_locks_empty
    | @execute i write next own hstatus hfree =>
      refine ih.setStatus (by simp [hstatus]) (by simp) (fun p own' h => ?_) (fun p own' k h hk j hj => ?_)
      · obtain ⟨rfl, rfl⟩ := Status.running.inj h
        exact ih.running i _ _ hstatus _ (.refl hrefl)
      · obtain ⟨rfl, rfl⟩ := Status.running.inj h
        rcases Writes.locks_andThen_iff.mp hk with hk | hk
        · exact ih.exclusive i j k hj.symm ⟨_, own, hstatus, hk⟩
        · exact hfree j hj k hk
    | commit hstatus => exact ih.commit hrefl htrans hcommit hstatus
    | abort hstatus => exact ih.setStatus (by simp [hstatus]) (by simp) (by simp) (by simp)

end Invariant

/-! ### A session on its own -/

section Alone

variable [DecidableEq ι] {db : Database κ ρ τ} {i : ι}

/-- A statement of the only running session can always be executed. -/
theorem exists_reachable_of_run_aux {p : Program κ ρ τ ε α} {own own' : Writes κ ρ τ} {a : α}
    (hrun : p.run own S.db = .ok (a, own'))
    (hstatus : S.status i = .running p own) (halone : ∀ j, j ≠ i → ∀ k, ¬ S.Holds j k) :
    ∃ S', Relation.ReflTransGen (Step programs) S S' ∧ S'.db = own'.laidOver S.db ∧
      S'.status i = .committed a own' S.db ∧ ∀ j, j ≠ i → S'.status j = S.status j := by
  induction p generalizing own S with
  | done result =>
    obtain ⟨rfl, rfl⟩ := Prod.mk.inj (Except.ok.inj hrun)
    refine ⟨_, .single (.commit hstatus), rfl, ?_, fun j hj => ?_⟩
    · exact System.status_setStatus.trans (if_pos rfl)
    · exact System.status_setStatus.trans (if_neg hj)
  | fail error => nomatch hrun
  | statement write next ih =>
    have hstep : Step programs S _ := .execute hstatus fun j hj k _ => halone j hj k
    let S₁ := S.setStatus i
      (.running (next (own.laidOver S.db)) (own.andThen (write (own.laidOver S.db))))
    obtain ⟨S', hreach, hdb, hresult, hothers⟩ := ih (own.laidOver S.db) (S := S₁) hrun
      (System.status_setStatus.trans (if_pos rfl)) fun j hj k hk => by
        rw [holds_setStatus, if_neg hj] at hk
        exact halone j hj k hk
    refine ⟨S', .head hstep hreach, hdb, hresult, fun j hj => ?_⟩
    rw [hothers j hj, System.status_setStatus, if_neg hj]

/-- **A session may run on its own**, with no other session even started. -/
theorem exists_reachable_of_run (programs : ι → Program κ ρ τ ε α) (i : ι) {a : α}
    {own : Writes κ ρ τ}
    (hrun : (programs i).run ∅ db = .ok (a, own)) :
    ∃ S, Reachable programs db S ∧ S.db = own.laidOver db ∧ S.status i = .committed a own db ∧
      ∀ j, j ≠ i → S.status j = .waiting := by
  let S₁ : System ι κ ρ τ ε α := (System.initial db).setStatus i (.running (programs i) ∅)
  have hstart : Step programs (.initial db) S₁ := .start rfl
  obtain ⟨S, hreach, hdb, hresult, hothers⟩ := exists_reachable_of_run_aux (S := S₁) hrun
    (System.status_setStatus.trans (if_pos rfl)) fun j hj k hk => by
      rw [holds_setStatus, if_neg hj] at hk
      obtain ⟨_, _, h, -⟩ := hk
      nomatch h
  refine ⟨S, .head hstart hreach, hdb, hresult, fun j hj => ?_⟩
  rw [hothers j hj]
  exact System.status_setStatus.trans (if_neg hj)

end Alone

end ReadCommitted
