import FoundryLite.Aip.LogicOrder

/-!
# Two listings of one logic graph

The order of a run comes from the order in which the blocks are listed. What a block puts out depends
on it only through the block's reads, so two runs agree on every block that both execute as soon as
every read is of a block whose place, before the reader or after it, the dependencies fix (`Backed`).
Which blocks a run executes, and which output it ends with, is fixed by a block that every other one
leads to or comes after (`EndsAt`).

## Main results

* `logicGraph_spec`: the order, and what two listings have in common.
-/

namespace FoundryLite.Aip.LogicRuntime

open Relation
open Except (bind_eq_ok_iff pure_eq_ok_iff)

/-- The name that a condition or an output block reads. -/
def reads (block : LogicBlock) : Option String :=
  if block.kind = "Condition" ∨ block.kind = "Output" then
    match block.inputs.lookup "fromBlock" with
    | some (.str source) => some source
    | _ => none
  else none

/-- The dependencies say of every read whether the block that is read stands before the reader. -/
def Backed (blocks : List LogicBlock) : Prop :=
  ∀ block ∈ blocks, ∀ source, reads block = some source →
    TransGen (DependsOn blocks) block.blockId source ∨
      ReflTransGen (DependsOn blocks) source block.blockId ∨ ∀ other ∈ blocks, other.blockId ≠ source

/-- The broker's answer depends neither on the place of the call in the run nor on its time. -/
def Positionless (services : Services) : Prop :=
  ∀ request sequence occurredAt,
    services.execute { request with toolCall := { request.toolCall with sequence, occurredAt } } =
      services.execute request

/-- Every run ends at the block: the others lead to it or come after it, the approvals among them come
after it, and it is an approval itself or nothing comes after it. -/
structure EndsAt (blocks : List LogicBlock) (last : LogicBlock) : Prop where
  mem : last ∈ blocks
  compares : ∀ block ∈ blocks, block = last ∨
    TransGen (DependsOn blocks) last.blockId block.blockId ∨
      TransGen (DependsOn blocks) block.blockId last.blockId
  approvals : ∀ block ∈ blocks, block.kind = "HumanApproval" →
    block = last ∨ TransGen (DependsOn blocks) block.blockId last.blockId
  ends : last.kind = "HumanApproval" ∨ ∀ block ∈ blocks, last.blockId ∉ block.dependsOn

section Block

variable {services : Services} {now now' : ℕ → String} {request : LogicRunRequest} {block : LogicBlock}
  {state state' : String → Option Mapping} {n n' : ℕ}

theorem toolCallRequest_eq : toolCallRequest services now' request block n' =
    (toolCallRequest services now request block n).map fun toolCall =>
      { toolCall with sequence := n', occurredAt := textOr block.inputs "occurredAt" (now' n') } := by
  simp only [toolCallRequest]
  cases requiredInputText block "toolId" with
  | error failure => rfl
  | ok toolId =>
    cases requiredInputText block "version" with
    | error failure => rfl
    | ok version =>
      cases argumentsJson services (block.inputs.lookup "arguments") with
      | error failure => rfl
      | ok arguments => rfl

theorem callFunction_congr (hbroker : Positionless services) :
    callFunction services now request block n = callFunction services now' request block n' := by
  rw [callFunction, callFunction, @toolCallRequest_eq services now now' request block n n']
  cases toolCallRequest services now request block n with
  | error failure => rfl
  | ok toolCall =>
    have hanswer := hbroker ⟨toolCall, request.toolManifest, request.agentAllowedTools,
      request.modelAllowedClassifications, request.remainingTimeoutSeconds, request.maxToolOutputBytes⟩
      n' (textOr block.inputs "occurredAt" (now' n'))
    change (callService (services.execute _)).bind _ = (callService (services.execute _)).bind _
    rw [← hanswer]

/-- **A block puts out the same wherever it reads the same.** -/
theorem executeBlock_congr (hbroker : Positionless services)
    (hreads : ∀ source, reads block = some source → state source = state' source) :
    executeBlock services now request block state n = executeBlock services now' request block state' n' := by
  have hcondition : block.kind = "Condition" → conditionOutput block state = conditionOutput block state' := by
    intro hkind
    rw [conditionOutput, conditionOutput]
    cases hsource : requiredInputText block "fromBlock" with
    | error failure => rfl
    | ok source =>
      have hread : reads block = some source := by
        rw [requiredInputText] at hsource
        split at hsource
        · rename_i value hvalue
          rw [reads, if_pos (.inl hkind), hvalue]
          split_ifs at hsource
          · exact absurd hsource (by simp [schemaInvalid, logicRuntimeError])
          · exact congrArg some (Except.ok.inj hsource)
        · exact absurd hsource (by simp [schemaInvalid, logicRuntimeError])
      change Except.ok _ = Except.ok _
      rw [hreads source hread]
  have houtput : block.kind = "Output" → outputBlock block state = outputBlock block state' := by
    intro hkind
    rw [outputBlock, outputBlock]
    split
    · rename_i source hsource
      rw [hreads source (by rw [reads, if_pos (.inr hkind), hsource])]
    · rfl
  rw [executeBlock, executeBlock]
  refine ite_congr rfl (fun _ => rfl) fun _ => ?_
  refine ite_congr rfl hcondition fun _ => ?_
  refine ite_congr rfl (fun _ => callFunction_congr hbroker) fun _ => ?_
  refine ite_congr rfl (fun _ => rfl) fun _ => ite_congr rfl (fun _ => rfl) fun _ => ?_
  exact ite_congr rfl (fun _ => rfl) fun _ => ite_congr rfl houtput fun _ => rfl

end Block

/-! ### Runs over a list of blocks -/

section Runs

variable {services : Services} {now : ℕ → String} {request : LogicRunRequest} {block : LogicBlock}
  {done order : List LogicBlock} {s t : RunState}

/-- Blocks that all put something out, one after another. -/
def runDone (services : Services) (now : ℕ → String) (request : LogicRunRequest)
    (done : List LogicBlock) (s : RunState) : Logic RunState :=
  done.foldlM (runBlock services now request) s

theorem runDone_append_eq_ok_iff {rest : List LogicBlock} :
    runDone services now request (done ++ rest) s = .ok t ↔
      ∃ u, runDone services now request done s = .ok u ∧ runDone services now request rest u = .ok t := by
  rw [runDone, List.foldlM_append, bind_eq_ok_iff]
  rfl

theorem runDone_cons_eq_ok_iff :
    runDone services now request (block :: done) s = .ok t ↔
      ∃ output, executeBlock services now request block s.state.get? (s.results.length + 1) = .ok output ∧
        runDone services now request done
          ⟨s.state.insert block.blockId output, s.results ++ [blockResult services block output]⟩ = .ok t := by
  rw [runDone, List.foldlM_cons, bind_eq_ok_iff]
  simp only [runBlock, bind_eq_ok_iff, pure_eq_ok_iff]
  constructor
  · rintro ⟨_, ⟨output, houtput, rfl⟩, hrest⟩
    exact ⟨output, houtput, hrest⟩
  · rintro ⟨output, houtput, hrest⟩
    exact ⟨_, ⟨output, houtput, rfl⟩, hrest⟩

/-- Blocks put out nothing under other names. -/
theorem get?_runDone (h : runDone services now request done s = .ok t) {blockId : String}
    (hother : blockId ∉ done.map LogicBlock.blockId) : t.state.get? blockId = s.state.get? blockId := by
  induction done generalizing s with
  | nil =>
    obtain rfl : s = t := Except.ok.inj h
    rfl
  | cons block done ih =>
    obtain ⟨output, -, hrest⟩ := runDone_cons_eq_ok_iff.mp h
    obtain ⟨hne, hother⟩ := not_or.mp (mt List.mem_cons.mpr hother)
    rw [ih hrest hother, Dict.get?_insert, if_neg hne]

/-- The place of a block in a run: what it was executed on, and what it put out. -/
theorem runDone_middle {before after : List LogicBlock}
    (h : runDone services now request (before ++ block :: after) s = .ok t)
    (hnodup : ((before ++ block :: after).map LogicBlock.blockId).Nodup) :
    ∃ u output, runDone services now request before s = .ok u ∧
      executeBlock services now request block u.state.get? (u.results.length + 1) = .ok output ∧
      t.state.get? block.blockId = some output ∧
      ∀ c ∈ before, t.state.get? c.blockId = u.state.get? c.blockId := by
  obtain ⟨u, hu, hrest⟩ := runDone_append_eq_ok_iff.mp h
  rw [List.map_append, List.map_cons] at hnodup
  obtain ⟨-, hcons, hapart⟩ := List.nodup_append.mp hnodup
  refine ⟨u, ?_⟩
  obtain ⟨output, houtput, hafter⟩ := runDone_cons_eq_ok_iff.mp hrest
  refine ⟨output, hu, houtput, ?_, fun c hc => get?_runDone hrest fun hmem => ?_⟩
  · rw [get?_runDone hafter (List.nodup_cons.mp hcons).1, Dict.get?_insert, if_pos rfl]
  · exact hapart _ (List.mem_map_of_mem hc) _ hmem rfl

/-- The list of blocks that a run with this status executes. -/
def Ends (done rest : List LogicBlock) (status : String) : Prop :=
  status = "succeeded" ∧ rest = [] ∧ (∀ b ∈ done, b.kind ≠ "HumanApproval") ∨
    status = "waiting_human_review" ∧ ∃ first last, done = first ++ [last] ∧
      last.kind = "HumanApproval" ∧ ∀ b ∈ first, b.kind ≠ "HumanApproval"

theorem ends_cons_iff {rest : List LogicBlock} {status : String} :
    Ends (block :: done) rest status ↔ if block.kind = "HumanApproval" then
      status = "waiting_human_review" ∧ done = [] else Ends done rest status := by
  split_ifs with hkind
  · constructor
    · rintro (⟨-, -, hall⟩ | ⟨hstatus, first, last, heq, hlast, hfirst⟩)
      · exact absurd hkind (hall block List.mem_cons_self)
      · cases first with
        | nil => exact ⟨hstatus, (List.cons.inj heq).2⟩
        | cons b first =>
          obtain ⟨rfl, -⟩ := List.cons.inj heq
          exact absurd hkind (hfirst block List.mem_cons_self)
    · rintro ⟨hstatus, rfl⟩
      exact .inr ⟨hstatus, [], block, rfl, hkind, by simp⟩
  · constructor
    · rintro (⟨hstatus, hrest, hall⟩ | ⟨hstatus, first, last, heq, hlast, hfirst⟩)
      · exact .inl ⟨hstatus, hrest, fun b hb => hall b (List.mem_cons_of_mem _ hb)⟩
      · cases first with
        | nil =>
          obtain ⟨rfl, -⟩ := List.cons.inj heq
          exact absurd hlast hkind
        | cons b first =>
          obtain ⟨-, rfl⟩ := List.cons.inj heq
          exact .inr ⟨hstatus, first, last, rfl, hlast, fun c hc => hfirst c (List.mem_cons_of_mem _ hc)⟩
    · rintro (⟨hstatus, hrest, hall⟩ | ⟨hstatus, first, last, rfl, hlast, hfirst⟩)
      · exact .inl ⟨hstatus, hrest, List.forall_mem_cons.mpr ⟨hkind, hall⟩⟩
      · exact .inr ⟨hstatus, block :: first, last, rfl, hlast, List.forall_mem_cons.mpr ⟨hkind, hfirst⟩⟩

theorem not_ends_nil {rest : List LogicBlock} {status : String} (hne : rest ≠ []) :
    ¬ Ends [] rest status := by
  rintro (⟨-, hrest, -⟩ | ⟨-, first, last, heq, -⟩)
  · exact hne hrest
  · exact absurd heq (by simp)

/-- **How a run ends**: with everything executed, or at the first approval. -/
theorem runBlocks_eq_ok_iff {status : String} :
    runBlocks services now request order s = .ok (status, t) ↔
      ∃ done rest, order = done ++ rest ∧ runDone services now request done s = .ok t ∧
        (done ≠ [] → (s.results.length + done.length : ℤ) ≤ request.maxBlocks) ∧
        Ends done rest status := by
  induction order generalizing s with
  | nil =>
    rw [runBlocks, pure_eq_ok_iff, Prod.mk.injEq]
    constructor
    · rintro ⟨rfl, rfl⟩
      exact ⟨[], [], rfl, rfl, by simp, .inl ⟨rfl, rfl, by simp⟩⟩
    · rintro ⟨done, rest, heq, hdone, -, hends⟩
      obtain ⟨rfl, rfl⟩ := List.append_eq_nil_iff.mp heq.symm
      obtain rfl : s = t := Except.ok.inj hdone
      rcases hends with ⟨rfl, -, -⟩ | ⟨-, first, last, heq, -⟩
      · exact ⟨rfl, rfl⟩
      · exact absurd heq (by simp)
  | cons block order ih =>
    have hstep : runBlocks services now request (block :: order) s = .ok (status, t) ↔
        ¬ request.maxBlocks ≤ s.results.length ∧ ∃ output,
          executeBlock services now request block s.state.get? (s.results.length + 1) = .ok output ∧
          (if block.kind = "HumanApproval" then pure ("waiting_human_review",
              ⟨s.state.insert block.blockId output, s.results ++ [blockResult services block output]⟩)
            else runBlocks services now request order
              ⟨s.state.insert block.blockId output, s.results ++ [blockResult services block output]⟩) =
            Except.ok (status, t) := by
      rw [runBlocks]
      by_cases hbudget : request.maxBlocks ≤ s.results.length
      · simp [logicRuntimeError, hbudget]
      · rw [if_neg hbudget]
        simp only [runBlock, bind_eq_ok_iff, pure_eq_ok_iff]
        constructor
        · rintro ⟨_, ⟨output, houtput, rfl⟩, hrest⟩
          exact ⟨hbudget, output, houtput, hrest⟩
        · rintro ⟨-, output, houtput, hrest⟩
          exact ⟨_, ⟨output, houtput, rfl⟩, hrest⟩
    rw [hstep]
    constructor
    · rintro ⟨hbudget, output, houtput, hrest⟩
      split_ifs at hrest with hkind
      · obtain ⟨rfl, rfl⟩ := Prod.mk.inj (Except.ok.inj hrest)
        refine ⟨[block], order, rfl, runDone_cons_eq_ok_iff.mpr ⟨output, houtput, rfl⟩, fun _ => ?_, ?_⟩
        · rw [List.length_singleton]
          push_cast
          omega
        · rw [ends_cons_iff, if_pos hkind]
          exact ⟨rfl, rfl⟩
      · obtain ⟨done, rest, rfl, hdone, hroom, hends⟩ := ih.mp hrest
        refine ⟨block :: done, rest, rfl, runDone_cons_eq_ok_iff.mpr ⟨output, houtput, hdone⟩,
          fun _ => ?_, ?_⟩
        · rcases List.eq_nil_or_concat done with rfl | ⟨_, _, rfl⟩
          · simp only [List.length_singleton]
            push_cast
            omega
          · have hle := hroom (by simp)
            simp only [List.length_append, List.length_cons] at hle ⊢
            push_cast at hle ⊢
            omega
        · rw [ends_cons_iff, if_neg hkind]
          exact hends
    · rintro ⟨done, rest, heq, hdone, hroom, hends⟩
      cases done with
      | nil => exact absurd hends (not_ends_nil (by rw [List.nil_append] at heq; simp [← heq]))
      | cons b done =>
        obtain ⟨rfl, rfl⟩ := List.cons.inj heq
        obtain ⟨output, houtput, hrest⟩ := runDone_cons_eq_ok_iff.mp hdone
        have hle := hroom (List.cons_ne_nil _ _)
        rw [List.length_cons] at hle
        push_cast at hle
        refine ⟨by omega, output, houtput, ?_⟩
        rw [ends_cons_iff] at hends
        split_ifs at hends ⊢ with hkind
        · obtain ⟨rfl, rfl⟩ := hends
          obtain rfl := Except.ok.inj hrest
          rfl
        · refine ih.mpr ⟨done, rest, rfl, hrest, fun _ => ?_, hends⟩
          simp only [List.length_append, List.length_singleton]
          push_cast
          omega

end Runs

/-! ### Two orders of one graph -/

section Agreement

variable {services : Services} {now now' : ℕ → String} {request : LogicRunRequest} {block : LogicBlock}
  {blocks order order' before after before' after' : List LogicBlock} {s t : RunState}

/-- A block that two runs come to reads the same in both, if what both have executed agrees. -/
theorem reads_agree (hnodup : (blocks.map LogicBlock.blockId).Nodup) (horder : Ordered blocks order)
    (horder' : Ordered blocks order') (hbacked : Backed blocks) (heq : order = before ++ block :: after)
    (heq' : order' = before' ++ block :: after') (hs : runDone services now request before {} = .ok s)
    (ht : runDone services now' request before' {} = .ok t)
    (hsame : ∀ c ∈ before, c ∈ before' → s.state.get? c.blockId = t.state.get? c.blockId) :
    ∀ source, reads block = some source → s.state.get? source = t.state.get? source := by
  intro source hsource
  have hmem : ∀ c ∈ order, c ∈ blocks := fun c hc => horder.perm.mem_iff.mp hc
  have hmem' : ∀ c ∈ order', c ∈ blocks := fun c hc => horder'.perm.mem_iff.mp hc
  have hneither : source ∉ before.map LogicBlock.blockId → source ∉ before'.map LogicBlock.blockId →
      s.state.get? source = t.state.get? source := fun hout hout' =>
    (get?_runDone hs hout).trans (get?_runDone ht hout').symm
  rcases hbacked block (hmem block (by simp [heq])) source hsource with hbefore | hlater | hnone
  · obtain ⟨c, hc, hid⟩ := List.mem_map.mp (horder.mem_before hnodup heq hbefore)
    obtain ⟨c', hc', hid'⟩ := List.mem_map.mp (horder'.mem_before hnodup heq' hbefore)
    obtain rfl := List.inj_on_of_nodup_map hnodup (hmem c (by simp [heq, hc]))
      (hmem' c' (by simp [heq', hc'])) (hid.trans hid'.symm)
    exact hid ▸ hsame c hc hc'
  · exact hneither (horder.not_mem_before hnodup heq hlater) (horder'.not_mem_before hnodup heq' hlater)
  · refine hneither (fun hin => ?_) fun hin => ?_
    · obtain ⟨c, hc, hid⟩ := List.mem_map.mp hin
      exact hnone c (hmem c (by simp [heq, hc])) hid
    · obtain ⟨c, hc, hid⟩ := List.mem_map.mp hin
      exact hnone c (hmem' c (by simp [heq', hc])) hid

/-- **Whatever two runs both execute puts out the same in both.** -/
theorem runDone_agree (hbroker : Positionless services) (hnodup : (blocks.map LogicBlock.blockId).Nodup)
    (horder : Ordered blocks order) (horder' : Ordered blocks order') (hbacked : Backed blocks)
    (heq : order = before ++ after) (heq' : order' = before' ++ after')
    (hs : runDone services now request before {} = .ok s)
    (ht : runDone services now' request before' {} = .ok t) :
    ∀ c ∈ before, c ∈ before' → s.state.get? c.blockId = t.state.get? c.blockId := by
  have hids : ((order.map LogicBlock.blockId)).Nodup := (horder.perm.map _).nodup_iff.mpr hnodup
  have hids' : ((order'.map LogicBlock.blockId)).Nodup := (horder'.perm.map _).nodup_iff.mpr hnodup
  -- On the blocks executed in the first run, from the first one on.
  induction before using List.reverseRecOn generalizing after s with
  | nil => simp
  | append_singleton before block ih =>
    rw [List.append_assoc, List.singleton_append] at heq
    obtain ⟨u, hu, hlast⟩ := runDone_append_eq_ok_iff.mp hs
    obtain ⟨output, houtput, hdone⟩ := runDone_cons_eq_ok_iff.mp hlast
    obtain rfl := Except.ok.inj hdone
    have hearlier := ih heq hu
    intro c hc hc'
    rcases List.mem_append.mp hc with hc | hc
    · have hne : c.blockId ≠ block.blockId := by
        rw [heq, List.map_append, List.map_cons] at hids
        exact fun hid => (List.nodup_append.mp hids).2.2 _ (List.mem_map_of_mem hc) _ List.mem_cons_self hid
      rw [Dict.get?_insert, if_neg hne]
      exact hearlier c hc hc'
    · obtain rfl := List.mem_singleton.mp hc
      obtain ⟨first, second, rfl⟩ := List.append_of_mem hc'
      have hidsDone : ((first ++ c :: second).map LogicBlock.blockId).Nodup := by
        rw [heq', List.map_append] at hids'
        exact (List.nodup_append.mp hids').1
      obtain ⟨v, output', hv, houtput', hget, hkept⟩ := runDone_middle ht hidsDone
      have hreads := reads_agree hnodup horder horder' hbacked heq
        (heq'.trans (by rw [List.append_assoc, List.cons_append])) hu hv fun d hd hd' =>
          (hearlier d hd (List.mem_append_left _ hd')).trans (hkept d hd')
      rw [executeBlock_congr hbroker hreads, houtput'] at houtput
      rw [Dict.get?_insert, if_pos rfl, hget, Except.ok.inj houtput]

/-- Where one run has executed the blocks of another order, the other run executes them as well. -/
theorem runDone_transfer (hbroker : Positionless services)
    (hnodup : (blocks.map LogicBlock.blockId).Nodup) (horder : Ordered blocks order)
    (horder' : Ordered blocks order') (hbacked : Backed blocks) (heq : order = before ++ after)
    (heq' : order' = before' ++ after') (hs : runDone services now request before {} = .ok s)
    (hsub : ∀ c ∈ before', c ∈ before) : ∃ t, runDone services now' request before' {} = .ok t := by
  have hids : ((order.map LogicBlock.blockId)).Nodup := (horder.perm.map _).nodup_iff.mpr hnodup
  induction before' using List.reverseRecOn generalizing after' with
  | nil => exact ⟨{}, rfl⟩
  | append_singleton before' block ih =>
    rw [List.append_assoc, List.singleton_append] at heq'
    obtain ⟨v, hv⟩ := ih heq' fun c hc => hsub c (List.mem_append_left _ hc)
    obtain ⟨first, second, rfl⟩ := List.append_of_mem (hsub block (by simp))
    have hidsDone : ((first ++ block :: second).map LogicBlock.blockId).Nodup := by
      rw [heq, List.map_append] at hids
      exact (List.nodup_append.mp hids).1
    obtain ⟨u, output, hu, houtput, -, hkept⟩ := runDone_middle hs hidsDone
    have hagree := runDone_agree hbroker hnodup horder horder' hbacked heq heq' hs hv
    have hreads := reads_agree hnodup horder horder' hbacked
      (heq.trans (by rw [List.append_assoc, List.cons_append])) heq' hu hv fun d hd hd' =>
        (hkept d hd).symm.trans (hagree d (List.mem_append_left _ hd) hd')
    rw [executeBlock_congr hbroker hreads] at houtput
    exact ⟨_, runDone_append_eq_ok_iff.mpr ⟨v, hv, runDone_cons_eq_ok_iff.mpr ⟨output, houtput, rfl⟩⟩⟩

end Agreement

/-! ### Where every run ends -/

section Last

variable {services : Services} {now : ℕ → String} {request : LogicRunRequest} {last : LogicBlock}
  {blocks order before after done rest : List LogicBlock} {s t : RunState} {status : String}

/-- Before the last block stands what it depends on. -/
theorem EndsAt.mem_before_iff (h : EndsAt blocks last) (hnodup : (blocks.map LogicBlock.blockId).Nodup)
    (horder : Ordered blocks order) (heq : order = before ++ last :: after) {c : LogicBlock} :
    c ∈ before ↔ c ∈ blocks ∧ TransGen (DependsOn blocks) last.blockId c.blockId := by
  constructor
  · intro hc
    have hmem : c ∈ blocks := horder.perm.mem_iff.mp (by simp [heq, hc])
    refine ⟨hmem, ?_⟩
    rcases h.compares c hmem with rfl | hdepends | hlater
    · exact absurd (List.mem_map_of_mem hc) (horder.not_mem_before hnodup heq .refl)
    · exact hdepends
    · exact absurd (List.mem_map_of_mem hc) (horder.not_mem_before hnodup heq hlater.to_reflTransGen)
  · rintro ⟨hmem, hdepends⟩
    obtain ⟨c', hc', hid⟩ := List.mem_map.mp (horder.mem_before hnodup heq hdepends)
    have hmem' : c' ∈ blocks := horder.perm.mem_iff.mp (by simp [heq, hc'])
    exact List.inj_on_of_nodup_map hnodup hmem' hmem hid ▸ hc'

theorem EndsAt.forall_before (h : EndsAt blocks last) (hnodup : (blocks.map LogicBlock.blockId).Nodup)
    (horder : Ordered blocks order) (heq : order = before ++ last :: after) :
    ∀ c ∈ before, c.kind ≠ "HumanApproval" := by
  intro c hc hkind
  rcases h.approvals c (horder.perm.mem_iff.mp (by simp [heq, hc])) hkind with rfl | hlater
  · exact absurd (List.mem_map_of_mem hc) (horder.not_mem_before hnodup heq .refl)
  · exact absurd (List.mem_map_of_mem hc) (horder.not_mem_before hnodup heq hlater.to_reflTransGen)

/-- Nothing comes after a block on which nothing depends. -/
theorem not_transGen {k : String} (h : ∀ block ∈ blocks, last.blockId ∉ block.dependsOn) :
    ¬ TransGen (DependsOn blocks) k last.blockId := by
  intro hpath
  obtain ⟨_, -, b, hb, -, hdepends⟩ := TransGen.tail'_iff.mp hpath
  exact h b hb hdepends

theorem EndsAt.after_eq_nil (h : EndsAt blocks last) (hnodup : (blocks.map LogicBlock.blockId).Nodup)
    (horder : Ordered blocks order) (heq : order = before ++ last :: after)
    (hkind : last.kind ≠ "HumanApproval") : after = [] := by
  have hsink := h.ends.resolve_left hkind
  have hids : (order.map LogicBlock.blockId).Nodup := (horder.perm.map _).nodup_iff.mpr hnodup
  refine List.eq_nil_iff_forall_not_mem.mpr fun c hc => ?_
  have hmem : c ∈ blocks := horder.perm.mem_iff.mp (by simp [heq, hc])
  rw [heq, List.map_append, List.map_cons] at hids
  obtain ⟨-, hcons, hapart⟩ := List.nodup_append.mp hids
  rcases h.compares c hmem with rfl | hdepends | hlater
  · exact (List.nodup_cons.mp hcons).1 (List.mem_map_of_mem hc)
  · have hbefore := (h.mem_before_iff hnodup horder heq).mpr ⟨hmem, hdepends⟩
    exact hapart _ (List.mem_map_of_mem hbefore) _ (List.mem_cons_of_mem _ (List.mem_map_of_mem hc)) rfl
  · exact not_transGen hsink hlater

/-- The status that every run ends with. -/
def lastStatus (last : LogicBlock) : String :=
  if last.kind = "HumanApproval" then "waiting_human_review" else "succeeded"

/-- A list splits at its first approval in one way. -/
theorem append_cons_inj {xs ys us vs : List LogicBlock} {x y : LogicBlock}
    (heq : xs ++ x :: us = ys ++ y :: vs) (hx : x.kind = "HumanApproval") (hy : y.kind = "HumanApproval")
    (hxs : ∀ b ∈ xs, b.kind ≠ "HumanApproval") (hys : ∀ b ∈ ys, b.kind ≠ "HumanApproval") :
    xs = ys ∧ x = y ∧ us = vs := by
  induction xs generalizing ys with
  | nil =>
    cases ys with
    | nil =>
      obtain ⟨rfl, rfl⟩ := List.cons.inj heq
      exact ⟨rfl, rfl, rfl⟩
    | cons b ys =>
      obtain ⟨rfl, -⟩ := List.cons.inj heq
      exact absurd hx (hys x List.mem_cons_self)
  | cons a xs ih =>
    cases ys with
    | nil =>
      obtain ⟨rfl, -⟩ := List.cons.inj heq
      exact absurd hy (hxs a List.mem_cons_self)
    | cons b ys =>
      obtain ⟨rfl, hrest⟩ := List.cons.inj heq
      obtain ⟨rfl, hxy, huv⟩ := ih hrest (fun c hc => hxs c (List.mem_cons_of_mem _ hc))
        fun c hc => hys c (List.mem_cons_of_mem _ hc)
      exact ⟨rfl, hxy, huv⟩

theorem EndsAt.ends_iff (h : EndsAt blocks last) (hnodup : (blocks.map LogicBlock.blockId).Nodup)
    (horder : Ordered blocks order) (heq : order = before ++ last :: after)
    (hsplit : order = done ++ rest) :
    Ends done rest status ↔ done = before ++ [last] ∧ rest = after ∧ status = lastStatus last := by
  have hbefore := h.forall_before hnodup horder heq
  rw [lastStatus]
  split_ifs with hkind
  · constructor
    · rintro (⟨-, rfl, hall⟩ | ⟨hstatus, first, approval, rfl, happroval, hfirst⟩)
      · rw [List.append_nil] at hsplit
        exact absurd hkind (hall last (by simp [← hsplit, heq]))
      · -- Both split the order at its first approval.
        have hsame : first ++ approval :: rest = before ++ last :: after := by
          rw [← heq, hsplit, List.append_assoc, List.singleton_append]
        obtain ⟨rfl, rfl, rfl⟩ := append_cons_inj hsame happroval hkind hfirst hbefore
        exact ⟨rfl, rfl, hstatus⟩
    · rintro ⟨rfl, rfl, hstatus⟩
      exact .inr ⟨hstatus, before, last, rfl, hkind, hbefore⟩
  · have hafter := h.after_eq_nil hnodup horder heq hkind
    have hnone : ∀ c ∈ order, c.kind ≠ "HumanApproval" := by
      intro c hc happroval
      rw [heq, hafter] at hc
      rcases List.mem_append.mp hc with hc | hc
      · exact hbefore c hc happroval
      · exact hkind (List.mem_singleton.mp hc ▸ happroval)
    constructor
    · rintro (⟨hstatus, rfl, -⟩ | ⟨-, first, approval, rfl, happroval, -⟩)
      · rw [List.append_nil, heq, hafter] at hsplit
        exact ⟨hsplit.symm, hafter.symm, hstatus⟩
      · exact absurd happroval (hnone approval (by simp [hsplit]))
    · rintro ⟨rfl, rfl, hstatus⟩
      refine .inl ⟨hstatus, hafter, fun c hc => hnone c ?_⟩
      rw [hsplit]
      exact List.mem_append_left _ hc

/-- In whatever order they come, a run executes these blocks. -/
def Executes (blocks : List LogicBlock) (p : LogicBlock → Prop) : Prop :=
  (blocks.map LogicBlock.blockId).Nodup → ∀ order done rest status, Ordered blocks order →
    order = done ++ rest → Ends done rest status → ∀ c, c ∈ done ↔ c ∈ blocks ∧ p c

theorem EndsAt.executes (h : EndsAt blocks last) :
    Executes blocks fun c => c = last ∨ TransGen (DependsOn blocks) last.blockId c.blockId := by
  intro hnodup order done rest status horder hsplit hends c
  obtain ⟨before, after, heq⟩ := List.append_of_mem (horder.perm.mem_iff.mpr h.mem)
  obtain ⟨rfl, rfl, -⟩ := (h.ends_iff hnodup horder heq hsplit).mp hends
  rw [List.mem_append, List.mem_singleton, h.mem_before_iff hnodup horder heq]
  constructor
  · rintro (⟨hmem, hdepends⟩ | rfl)
    · exact ⟨hmem, .inr hdepends⟩
    · exact ⟨h.mem, .inl rfl⟩
  · rintro ⟨hmem, rfl | hdepends⟩
    · exact .inr rfl
    · exact .inl ⟨hmem, hdepends⟩

/-- Without approvals a run executes every block. -/
theorem executes_of_forall (h : ∀ b ∈ blocks, b.kind ≠ "HumanApproval") :
    Executes blocks fun _ => True := by
  rintro - order done rest status horder rfl (⟨-, rfl, -⟩ | ⟨-, first, last, rfl, hkind, -⟩) c
  · rw [← horder.perm.mem_iff, List.append_nil, and_true]
  · exact absurd hkind (h last (horder.perm.mem_iff.mp (by simp)))

/-- A run over an order stops behind its first approval, or at its end. -/
theorem exists_ends (order : List LogicBlock) :
    ∃ done rest status, order = done ++ rest ∧ Ends done rest status := by
  induction order with
  | nil => exact ⟨[], [], "succeeded", rfl, .inl ⟨rfl, rfl, by simp⟩⟩
  | cons block order ih =>
    by_cases hkind : block.kind = "HumanApproval"
    · refine ⟨[block], order, "waiting_human_review", rfl, ends_cons_iff.mpr ?_⟩
      rw [if_pos hkind]
      exact ⟨rfl, rfl⟩
    · obtain ⟨done, rest, status, rfl, hends⟩ := ih
      refine ⟨block :: done, rest, status, rfl, ends_cons_iff.mpr ?_⟩
      rwa [if_neg hkind]

/-- What a run has recorded of the blocks it has executed. -/
theorem results_runDone (h : runDone services now request done s = .ok t)
    (hnodup : (done.map LogicBlock.blockId).Nodup) : t.results = s.results ++
      done.map fun b => blockResult services b ((t.state.get? b.blockId).getD []) := by
  induction done generalizing s with
  | nil =>
    obtain rfl : s = t := Except.ok.inj h
    simp
  | cons block done ih =>
    obtain ⟨output, -, hrest⟩ := runDone_cons_eq_ok_iff.mp h
    obtain ⟨hfresh, hnodup⟩ := List.nodup_cons.mp hnodup
    rw [ih hrest hnodup, List.map_cons, get?_runDone hrest hfresh, Dict.get?_insert, if_pos rfl,
      Option.getD_some, List.append_assoc, List.singleton_append]

/-- The run ends with what the last executed block has put out. -/
theorem terminalOutput_eq {state : Dict String Mapping} {output : Mapping}
    (hlast : state.get? last.blockId = some output)
    (hafter : ∀ c ∈ after, state.get? c.blockId = none) :
    terminalOutput (before ++ last :: after) state = output := by
  rw [terminalOutput, List.reverse_append, List.reverse_cons, List.append_assoc, List.findSome?_append,
    List.findSome?_eq_none_iff.mpr fun c hc => hafter c (List.mem_reverse.mp hc), Option.none_or,
    List.singleton_append, List.findSome?_cons, hlast]
  rfl

end Last

/-! ### Two listings -/

section Listings

variable {services : Services} {now now' : ℕ → String} {request : LogicRunRequest}
  {blocks blocks' order : List LogicBlock} {rounds rounds' : ℕ} {r r' : LogicRunResult}

theorem dependsOn_perm (hperm : blocks.Perm blocks') : DependsOn blocks' = DependsOn blocks := by
  funext blockId dependencyId
  exact propext (exists_congr fun block => and_congr_left' hperm.mem_iff.symm)

theorem Accepted.of_perm (hperm : blocks.Perm blocks') (h : Accepted blocks) : Accepted blocks' := by
  refine ⟨fun block hblock => h.named block (hperm.mem_iff.mpr hblock),
    (hperm.map _).nodup_iff.mp h.distinct, fun block hblock => h.supported block (hperm.mem_iff.mpr hblock),
    fun block hblock dependencyId hdependency => ?_, dependsOn_perm hperm ▸ h.acyclic⟩
  obtain ⟨dependency, hmem, hid⟩ := h.present block (hperm.mem_iff.mpr hblock) dependencyId hdependency
  exact ⟨dependency, hperm.mem_iff.mp hmem, hid⟩

theorem Ordered.of_perm (hperm : blocks.Perm blocks') (h : Ordered blocks' order) : Ordered blocks order :=
  ⟨h.perm.trans hperm.symm, h.behind⟩

theorem Executes.of_perm {p : LogicBlock → Prop} (hperm : blocks.Perm blocks')
    (h : Executes blocks p) : Executes blocks' p := by
  intro hnodup order done rest status horder hsplit hends c
  rw [← hperm.mem_iff]
  exact h ((hperm.map _).nodup_iff.mpr hnodup) order done rest status (horder.of_perm hperm) hsplit hends c

theorem Backed.of_perm (hperm : blocks.Perm blocks') (h : Backed blocks) : Backed blocks' := by
  intro block hblock source hsource
  rw [dependsOn_perm hperm]
  exact (h block (hperm.mem_iff.mpr hblock) source hsource).imp_right
    fun hrest => hrest.imp_right fun hnone other hother => hnone other (hperm.mem_iff.mpr hother)

theorem EndsAt.of_perm {last : LogicBlock} (hperm : blocks.Perm blocks') (h : EndsAt blocks last) :
    EndsAt blocks' last := by
  refine ⟨hperm.mem_iff.mp h.mem, ?_, ?_, ?_⟩
  · rw [dependsOn_perm hperm]
    exact fun block hblock => h.compares block (hperm.mem_iff.mpr hblock)
  · rw [dependsOn_perm hperm]
    exact fun block hblock => h.approvals block (hperm.mem_iff.mpr hblock)
  · exact h.ends.imp_right fun hnone block hblock => hnone block (hperm.mem_iff.mpr hblock)

/-- A run does not execute two blocks of one name. -/
theorem Ordered.nodup_done {done rest : List LogicBlock} (h : Ordered blocks order)
    (hnodup : (blocks.map LogicBlock.blockId).Nodup) (heq : order = done ++ rest) :
    (done.map LogicBlock.blockId).Nodup := by
  have hids : ((done ++ rest).map LogicBlock.blockId).Nodup :=
    heq ▸ (h.perm.map _).nodup_iff.mpr hnodup
  rw [List.map_append] at hids
  exact (List.nodup_append.mp hids).1

/-- Whether a run is valid does not depend on how the blocks are listed. -/
theorem validateRequest_perm (hperm : request.blocks.Perm blocks') :
    validateRequest { request with blocks := blocks' } = validateRequest request := by
  have hnil : blocks' = [] ↔ request.blocks = [] := by
    rw [← List.length_eq_zero_iff, ← List.length_eq_zero_iff, hperm.length_eq]
  simp only [validateRequest, hnil, hperm.length_eq]

theorem validateRequest_eq_ok (h : validateRequest request = .ok ()) :
    (request.blocks.length : ℤ) ≤ request.maxBlocks := by
  simp only [validateRequest, bind_eq_ok_iff] at h
  obtain ⟨-, -, -, -, h⟩ := h
  split_ifs at h with h₁ h₂ h₃
  · simp [logicRuntimeError] at h
  · simp [logicRuntimeError] at h
  · simp [logicRuntimeError] at h
  · exact Int.not_lt.mp h₃

/-- **A run that completes** has an accepted graph, and executes its blocks in order. -/
theorem run_eq_ok (hrounds : enoughRounds request.blocks ≤ rounds)
    (h : run services now request rounds = some (.ok r)) :
    validateRequest request = .ok () ∧ Accepted request.blocks ∧
      services.aiRunExists request.aiRunId = true ∧
      ∃ order t, Ordered request.blocks order ∧ r.state = t.state ∧ r.blockResults = t.results ∧
        r.outputJson = terminalOutput order t.state ∧
        runBlocks services now request order {} = .ok (r.status, t) := by
  rw [run] at h
  cases hvalid : validateRequest request with
  | error failure => simp [hvalid] at h
  | ok =>
    obtain ⟨result, hresult, haccepted, hordered⟩ := topologicalOrder_spec hrounds
    simp only [hvalid, hresult, Option.map_some, Option.some.injEq] at h
    obtain ⟨order, rfl, hrun⟩ := bind_eq_ok_iff.mp h
    rw [runOrdered] at hrun
    split_ifs at hrun with hexists
    · simp only [bind_eq_ok_iff, pure_eq_ok_iff] at hrun
      obtain ⟨⟨status, t⟩, hblocks, rfl⟩ := hrun
      exact ⟨rfl, haccepted.mp ⟨order, rfl⟩, hexists, order, t, hordered order rfl, rfl, rfl, rfl, hblocks⟩
    · simp [logicRuntimeError] at hrun

/-- A run completes if the blocks of an accepted graph do. -/
theorem exists_run_eq_ok (hrounds : enoughRounds request.blocks ≤ rounds)
    (hvalid : validateRequest request = .ok ()) (haccepted : Accepted request.blocks)
    (hexists : services.aiRunExists request.aiRunId = true)
    (hblocks : ∀ order, Ordered request.blocks order →
      ∃ status t, runBlocks services now request order {} = .ok (status, t)) :
    ∃ r, run services now request rounds = some (.ok r) := by
  obtain ⟨result, hresult, hiff, hordered⟩ := topologicalOrder_spec hrounds
  obtain ⟨order, rfl⟩ := hiff.mpr haccepted
  obtain ⟨status, t, hrun⟩ := hblocks order (hordered order rfl)
  have hordered : ∃ r, runOrdered services now request (graphHash services request) order = .ok r := by
    rw [runOrdered, if_pos hexists, hrun]
    exact ⟨_, rfl⟩
  obtain ⟨r, hr⟩ := hordered
  refine ⟨r, ?_⟩
  rw [run]
  simp only [hvalid, hresult, Option.map_some, Option.some.injEq]
  exact hr

/-- The blocks that a run of an accepted graph executes. -/
theorem exists_done (hrounds : enoughRounds request.blocks ≤ rounds)
    (h : run services now request rounds = some (.ok r)) :
    ∃ order done rest t, Ordered request.blocks order ∧ order = done ++ rest ∧
      runDone services now request done {} = .ok t ∧ r.state = t.state ∧ r.blockResults = t.results ∧
      r.outputJson = terminalOutput order t.state ∧ Ends done rest r.status := by
  obtain ⟨-, -, -, order, t, hordered, hstate, hresults, houtput, hrun⟩ := run_eq_ok hrounds h
  obtain ⟨done, rest, heq, hdone, -, hends⟩ := runBlocks_eq_ok_iff.mp hrun
  exact ⟨order, done, rest, t, hordered, heq, hdone, hstate, hresults, houtput, hends⟩

/-- What a run knows of a block that it has executed. -/
theorem mem_of_get?_runDone {done : List LogicBlock} {t : RunState} {blockId : String} {output : Mapping}
    (h : runDone services now request done {} = .ok t) (hget : t.state.get? blockId = some output) :
    ∃ block ∈ done, block.blockId = blockId := by
  by_contra hnot
  rw [get?_runDone h fun hmem => hnot (List.mem_map.mp hmem)] at hget
  exact absurd hget (by simp)

/-- Whether a run that completes waits for a review depends on the blocks alone. -/
theorem status_eq {done rest : List LogicBlock} {status : String} (hordered : Ordered blocks order)
    (heq : order = done ++ rest) (hends : Ends done rest status) :
    status = if ∃ b ∈ blocks, b.kind = "HumanApproval" then "waiting_human_review" else "succeeded" := by
  rcases hends with ⟨rfl, rfl, hall⟩ | ⟨rfl, first, last, rfl, hlast, -⟩
  · rw [if_neg]
    rintro ⟨b, hb, hkind⟩
    rw [List.append_nil] at heq
    exact hall b (heq ▸ hordered.perm.mem_iff.mpr hb) hkind
  · rw [if_pos]
    exact ⟨last, hordered.perm.mem_iff.mp (by simp [heq]), hlast⟩

/-- **Two runs that complete agree** on what they both have executed. -/
theorem run_agree (hbroker : Positionless services) (hperm : request.blocks.Perm blocks')
    (hbacked : Backed request.blocks) (hrounds : enoughRounds request.blocks ≤ rounds)
    (hrounds' : enoughRounds blocks' ≤ rounds') (h : run services now request rounds = some (.ok r))
    (h' : run services now' { request with blocks := blocks' } rounds' = some (.ok r')) :
    r.status = r'.status ∧ ∀ blockId output output', r.state.get? blockId = some output →
      r'.state.get? blockId = some output' → output = output' := by
  obtain ⟨-, haccepted, -⟩ := run_eq_ok hrounds h
  have hnodup := haccepted.distinct
  obtain ⟨order, done, rest, t, hordered, heq, hdone, hstate, -, -, hends⟩ := exists_done hrounds h
  obtain ⟨order', done', rest', t', hordered', heq', hdone', hstate', -, -, hends'⟩ :=
    exists_done hrounds' h'
  have hback := hordered'.of_perm hperm
  refine ⟨?_, fun blockId output output' hget hget' => ?_⟩
  · rw [status_eq hordered heq hends, status_eq hback heq' hends']
  · rw [hstate] at hget
    rw [hstate'] at hget'
    obtain ⟨c, hc, rfl⟩ := mem_of_get?_runDone hdone hget
    obtain ⟨c', hc', hid⟩ := mem_of_get?_runDone hdone' hget'
    obtain rfl := List.inj_on_of_nodup_map hnodup (hback.perm.mem_iff.mp (by simp [heq', hc']))
      (hordered.perm.mem_iff.mp (by simp [heq, hc])) hid
    have hsame := runDone_agree hbroker hnodup hordered hback hbacked heq heq' hdone hdone' c' hc hc'
    rw [hget, hget'] at hsame
    exact Option.some.inj hsame

/-- **Where every order executes the same blocks**, one run completes if the other does. -/
theorem run_completes {p : LogicBlock → Prop} (hbroker : Positionless services)
    (hperm : request.blocks.Perm blocks') (hbacked : Backed request.blocks)
    (hrounds : enoughRounds request.blocks ≤ rounds) (hrounds' : enoughRounds blocks' ≤ rounds')
    (hexecutes : Executes request.blocks p) (h : run services now request rounds = some (.ok r)) :
    ∃ r', run services now' { request with blocks := blocks' } rounds' = some (.ok r') := by
  obtain ⟨hvalid, haccepted, hexists, -⟩ := run_eq_ok hrounds h
  have hnodup := haccepted.distinct
  obtain ⟨order, done, rest, t, hordered, heq, hdone, -, -, -, hends⟩ := exists_done hrounds h
  refine exists_run_eq_ok hrounds' ((validateRequest_perm hperm).trans hvalid) (haccepted.of_perm hperm)
    hexists fun order' hordered' => ?_
  have hback := hordered'.of_perm hperm
  obtain ⟨done', rest', status', heq', hends'⟩ := exists_ends order'
  have hsub : ∀ c ∈ done', c ∈ done := fun c hc =>
    (hexecutes hnodup order done rest r.status hordered heq hends c).mpr
      ((hexecutes hnodup order' done' rest' status' hback heq' hends' c).mp hc)
  obtain ⟨t', ht'⟩ := @runDone_transfer services now now' request _ order order' _ rest _ rest' t hbroker
    hnodup hordered hback hbacked heq heq' hdone hsub
  refine ⟨status', t', runBlocks_eq_ok_iff.mpr ⟨done', rest', heq', ht', fun _ => ?_, hends'⟩⟩
  have hlength := hback.perm.length_eq
  have hbudget := validateRequest_eq_ok hvalid
  rw [heq', List.length_append] at hlength
  simp only [List.length_nil]
  omega

theorem run_completes_iff {p : LogicBlock → Prop} (hbroker : Positionless services)
    (hperm : request.blocks.Perm blocks') (hbacked : Backed request.blocks)
    (hrounds : enoughRounds request.blocks ≤ rounds) (hrounds' : enoughRounds blocks' ≤ rounds')
    (hexecutes : Executes request.blocks p) :
    (∃ r, run services now request rounds = some (.ok r)) ↔
      ∃ r', run services now' { request with blocks := blocks' } rounds' = some (.ok r') := by
  constructor
  · rintro ⟨r, h⟩
    exact run_completes hbroker hperm hbacked hrounds hrounds' hexecutes h
  · rintro ⟨r', h'⟩
    exact @run_completes services now' now { request with blocks := blocks' } request.blocks rounds' rounds
      r' p hbroker hperm.symm (hbacked.of_perm hperm) hrounds' hrounds (hexecutes.of_perm hperm) h'

/-- **Where every order executes the same blocks**, two runs that complete have executed the same blocks,
with the same outputs. -/
theorem run_same {p : LogicBlock → Prop} (hbroker : Positionless services)
    (hperm : request.blocks.Perm blocks') (hbacked : Backed request.blocks)
    (hrounds : enoughRounds request.blocks ≤ rounds) (hrounds' : enoughRounds blocks' ≤ rounds')
    (hexecutes : Executes request.blocks p) (h : run services now request rounds = some (.ok r))
    (h' : run services now' { request with blocks := blocks' } rounds' = some (.ok r')) :
    r.blockResults.Perm r'.blockResults ∧ r.state = r'.state := by
  obtain ⟨-, haccepted, -⟩ := run_eq_ok hrounds h
  have hnodup := haccepted.distinct
  obtain ⟨order, done, rest, t, hordered, heq, hdone, hstate, hresults, -, hends⟩ :=
    exists_done hrounds h
  obtain ⟨order', done', rest', t', hordered', heq', hdone', hstate', hresults', -, hends'⟩ :=
    exists_done hrounds' h'
  have hback := hordered'.of_perm hperm
  have hids := hordered.nodup_done hnodup heq
  have hids' := hback.nodup_done hnodup heq'
  have hsame : ∀ c, c ∈ done ↔ c ∈ done' := fun c =>
    (hexecutes hnodup order done rest r.status hordered heq hends c).trans
      (hexecutes hnodup order' done' rest' r'.status hback heq' hends' c).symm
  have hagree := @runDone_agree services now now' request _ order order' done rest done' rest' t t' hbroker
    hnodup hordered hback hbacked heq heq' hdone hdone'
  have hstates : t.state = t'.state := by
    refine Dict.ext_get? fun blockId => ?_
    by_cases hin : blockId ∈ done.map LogicBlock.blockId
    · obtain ⟨c, hc, rfl⟩ := List.mem_map.mp hin
      exact hagree c hc ((hsame c).mp hc)
    · rw [get?_runDone hdone hin, get?_runDone hdone' fun hin' => hin ?_]
      obtain ⟨c, hc, rfl⟩ := List.mem_map.mp hin'
      exact List.mem_map_of_mem ((hsame c).mpr hc)
  have hdones : done.Perm done' :=
    (List.perm_ext_iff_of_nodup (.of_map _ hids) (.of_map _ hids')).mpr hsame
  refine ⟨?_, by rw [hstate, hstate', hstates]⟩
  rw [hresults, hresults', results_runDone hdone hids, results_runDone hdone' hids', hstates]
  exact hdones.map _

/-- **Where every run ends at one block**, its output is what the block has put out. -/
theorem run_last_output {last : LogicBlock} (hrounds : enoughRounds request.blocks ≤ rounds)
    (hlast : EndsAt request.blocks last) (h : run services now request rounds = some (.ok r)) :
    r.state.get? last.blockId = some r.outputJson := by
  obtain ⟨-, haccepted, -⟩ := run_eq_ok hrounds h
  obtain ⟨order, done, rest, t, hordered, heq, hdone, hstate, -, houtput, hends⟩ :=
    exists_done hrounds h
  obtain ⟨before, after, hsplit⟩ := List.append_of_mem (hordered.perm.mem_iff.mpr hlast.mem)
  obtain ⟨rfl, rfl, -⟩ := (hlast.ends_iff haccepted.distinct hordered hsplit heq).mp hends
  have hids : ((before ++ [last] ++ rest).map LogicBlock.blockId).Nodup :=
    heq ▸ (hordered.perm.map _).nodup_iff.mpr haccepted.distinct
  rw [List.map_append] at hids
  obtain ⟨hnodup, -, hapart⟩ := List.nodup_append.mp hids
  obtain ⟨_, output, -, -, hget, -⟩ := runDone_middle hdone hnodup
  have hafter : ∀ c ∈ rest, t.state.get? c.blockId = none := fun c hc =>
    get?_runDone hdone fun hin => hapart _ hin _ (List.mem_map_of_mem hc) rfl
  rw [hstate, houtput, hsplit, terminalOutput_eq hget hafter, hget]

end Listings

/-- **The order of a logic graph, and what two runs of its listings have in common.** -/
theorem logicGraph_spec :
    (∀ (blocks : List LogicBlock) (rounds : ℕ), enoughRounds blocks ≤ rounds →
      ∃ result, topologicalOrder rounds blocks = some result ∧
        ((∃ order, result = .ok order) ↔ Accepted blocks) ∧
        ∀ order, result = .ok order → Ordered blocks order) ∧
    ∀ (services : Services) (now now' : ℕ → String) (request : LogicRunRequest)
      (blocks' : List LogicBlock) (rounds rounds' : ℕ), Positionless services →
      request.blocks.Perm blocks' → Backed request.blocks → enoughRounds request.blocks ≤ rounds →
      enoughRounds blocks' ≤ rounds' →
      (∀ r r', run services now request rounds = some (.ok r) →
        run services now' { request with blocks := blocks' } rounds' = some (.ok r') →
        r.status = r'.status ∧ ∀ blockId output output', r.state.get? blockId = some output →
          r'.state.get? blockId = some output' → output = output') ∧
      ((∀ block ∈ request.blocks, block.kind ≠ "HumanApproval") →
        ((∃ r, run services now request rounds = some (.ok r)) ↔
          ∃ r', run services now' { request with blocks := blocks' } rounds' = some (.ok r')) ∧
        ∀ r r', run services now request rounds = some (.ok r) →
          run services now' { request with blocks := blocks' } rounds' = some (.ok r') →
          r.blockResults.Perm r'.blockResults ∧ r.state = r'.state) ∧
      ∀ last, EndsAt request.blocks last →
        ((∃ r, run services now request rounds = some (.ok r)) ↔
          ∃ r', run services now' { request with blocks := blocks' } rounds' = some (.ok r')) ∧
        ∀ r r', run services now request rounds = some (.ok r) →
          run services now' { request with blocks := blocks' } rounds' = some (.ok r') →
          r.blockResults.Perm r'.blockResults ∧ r.state = r'.state ∧ r.outputJson = r'.outputJson := by
  refine ⟨fun blocks rounds h => topologicalOrder_spec h, ?_⟩
  intro services now now' request blocks' rounds rounds' hbroker hperm hbacked hrounds hrounds'
  refine ⟨fun r r' h h' => run_agree hbroker hperm hbacked hrounds hrounds' h h', fun hkinds => ?_,
    fun last hlast => ⟨?_, fun r r' h h' => ?_⟩⟩
  · have hexecutes := executes_of_forall hkinds
    exact ⟨run_completes_iff hbroker hperm hbacked hrounds hrounds' hexecutes,
      fun r r' h h' => run_same hbroker hperm hbacked hrounds hrounds' hexecutes h h'⟩
  · exact run_completes_iff hbroker hperm hbacked hrounds hrounds' hlast.executes
  · obtain ⟨hresults, hstates⟩ :=
      run_same hbroker hperm hbacked hrounds hrounds' hlast.executes h h'
    refine ⟨hresults, hstates, Option.some.inj ?_⟩
    rw [← run_last_output hrounds hlast h, hstates,
      run_last_output hrounds' (hlast.of_perm hperm) h']

/-! ### Listings that differ -/

def sampleServices : Services where
  serialiser := ⟨fun _ => "", fun _ => ""⟩
  jsonBlock _ := ""
  aiRunExists _ := true
  execute request := .ok ⟨request.toolCall.toolCallId, "succeeded", [], "", ""⟩
  propose _ := .ok ⟨"", "", "", .null⟩

def sampleRequest (blocks : List LogicBlock) : LogicRunRequest :=
  { logicRunId := "logic", aiRunId := "ai", blocks, inputJson := [("question", .str "q")] }

def inputBlock : LogicBlock := { blockId := "input", kind := "Input" }

def outputBlockOf (dependsOn : List String) : LogicBlock :=
  { blockId := "output", kind := "Output", inputs := [("fromBlock", .str "input")], dependsOn }

def conditionBlock : LogicBlock :=
  { blockId := "condition", kind := "Condition",
    inputs := [("fromBlock", .str "input"), ("equals", .obj [("value", .obj [("question", .str "q")])])] }

/-- What a run has put out under a name. -/
def outputOf (result : Option (Logic LogicRunResult)) (blockId : String) : Option Mapping :=
  match result with
  | some (.ok r) => r.state.get? blockId
  | _ => none

/-- An output block that depends on what it puts out, listed behind it and before it. -/
theorem logicGraph_spec_output : ∃ r r',
    run sampleServices (fun _ => "") (sampleRequest [inputBlock, outputBlockOf ["input"]]) 10 =
      some (.ok r) ∧
    run sampleServices (fun _ => "") (sampleRequest [outputBlockOf ["input"], inputBlock]) 10 =
      some (.ok r') ∧ r.outputJson = r'.outputJson := by
  have hdepends : DependsOn [inputBlock, outputBlockOf ["input"]] "output" "input" :=
    ⟨outputBlockOf ["input"], by simp, rfl, by simp [outputBlockOf]⟩
  have hreads : reads inputBlock = none := by decide +kernel
  have hreads' : reads (outputBlockOf ["input"]) = some "input" := by decide +kernel
  obtain ⟨-, -, hlast⟩ := logicGraph_spec.2 sampleServices (fun _ => "") (fun _ => "")
    (sampleRequest [inputBlock, outputBlockOf ["input"]]) [outputBlockOf ["input"], inputBlock] 10 10
    (fun _ _ _ => rfl) (List.Perm.swap _ _ _)
    (by
      intro block hblock source hsource
      rcases List.mem_pair.mp hblock with rfl | rfl
      · rw [hreads] at hsource
        exact absurd hsource (by simp)
      · obtain rfl := Option.some.inj (hreads'.symm.trans hsource)
        exact .inl (.single hdepends))
    (by decide) (by decide)
  obtain ⟨hiff, hagree⟩ := hlast (outputBlockOf ["input"])
    ⟨by simp [sampleRequest], by
      intro block hblock
      rcases List.mem_pair.mp hblock with rfl | rfl
      · exact .inr (.inl (.single hdepends))
      · exact .inl rfl, by
      intro block hblock hkind
      rcases List.mem_pair.mp hblock with rfl | rfl
      · exact absurd hkind (by decide)
      · exact .inl rfl, .inr (by
      intro block hblock
      rcases List.mem_pair.mp hblock with rfl | rfl
      · decide
      · decide)⟩
  have hruns : (outputOf (run sampleServices (fun _ => "")
      (sampleRequest [inputBlock, outputBlockOf ["input"]]) 10) "output").isSome := by decide +kernel
  cases hrun : run sampleServices (fun _ => "") (sampleRequest [inputBlock, outputBlockOf ["input"]]) 10 with
  | none => simp [hrun, outputOf] at hruns
  | some result =>
    cases result with
    | error failure => simp [hrun, outputOf] at hruns
    | ok r =>
      obtain ⟨r', hr'⟩ := hiff.mp ⟨r, hrun⟩
      exact ⟨r, r', rfl, hr', (hagree r r' hrun hr').2.2⟩

/-- A block without a name has no order, though nothing else is wrong with it; and a condition that does
not depend on the block it reads holds in one listing and not in the other. -/
theorem not_order_and_listings :
    ((∃ failure, topologicalOrder 10 [{ blockId := "", kind := "Input" }] = some (.error failure)) ∧
      Acyclic (DependsOn [{ blockId := "", kind := "Input" }])) ∧
    outputOf (run sampleServices (fun _ => "") (sampleRequest [inputBlock, conditionBlock]) 10)
        "condition" = some [("condition", .bool true), ("sourceBlock", .str "input")] ∧
      outputOf (run sampleServices (fun _ => "") (sampleRequest [conditionBlock, inputBlock]) 10)
        "condition" = some [("condition", .bool false), ("sourceBlock", .str "input")] := by
  refine ⟨⟨⟨_, rfl⟩, acyclic_of_forall_not ?_⟩, by decide +kernel, by decide +kernel⟩
  rintro a b ⟨block, hblock, -, hdependency⟩
  obtain rfl := List.mem_singleton.mp hblock
  exact absurd hdependency List.not_mem_nil

end FoundryLite.Aip.LogicRuntime
