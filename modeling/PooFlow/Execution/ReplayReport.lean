import PooFlow.Execution.Observation
import PooFlow.Execution.Recovery

/-! `core/replay.ss`. The receipt of a flow is always `ok`, so the report of a run that returns is
valid, whatever failed in it. -/

namespace PooFlow.Execution

open Foundation Logged List
open Except (ok.inj)

variable {α : Type}

structure AuditEvent (α : Type) where
  path : List ℕ
  flow : String
  task : Option String
  kind : String
  nodeId : Option NodeId
  strategy : String
  policy : Policy
  adapterDecision : String
  requestId : Option α
  cache : CacheDecision α
  frontier : List NodeId
  status : String
  error : Option (Failure α)
  childCount : ℕ

def auditEvent (receipt : Receipt α) (path : List ℕ) : AuditEvent α where
  path := path
  flow := receipt.evidence.flow
  task := receipt.evidence.task
  kind := receipt.evidence.kind
  nodeId := receipt.evidence.nodeId
  strategy := receipt.evidence.strategy
  policy := receipt.evidence.policy
  adapterDecision := receipt.evidence.adapterDecision
  requestId := receipt.evidence.requestId
  cache := receipt.evidence.cache
  frontier := receipt.evidence.frontier
  status := receipt.evidence.status
  error := receipt.evidence.error
  childCount := receipt.children.length

structure AuditSummary (α : Type) where
  events : List (AuditEvent α)
  eventCount : ℕ
  adapterRequestCount : ℕ

def requestCount (requestId : Option α) : ℕ := if requestId.isSome then 1 else 0

mutual

def receiptAuditSummaryAt : Receipt α → List ℕ → AuditSummary α → AuditSummary α
  | .mk evidence children, path, summary => childrenAuditSummary children path 0
      ⟨auditEvent (.mk evidence children) path :: summary.events, summary.eventCount + 1,
        summary.adapterRequestCount + requestCount evidence.requestId⟩

def childrenAuditSummary : List (Receipt α) → List ℕ → ℕ → AuditSummary α → AuditSummary α
  | [], _, _, summary => summary
  | child :: children, parentPath, ordinal, summary =>
    childrenAuditSummary children parentPath (ordinal + 1)
      (receiptAuditSummaryAt child (parentPath ++ [ordinal]) summary)

end

/-- A `run-summary`. -/
structure RunSummary (α : Type) where
  flow : String
  kind : String
  status : String
  strategy : String
  policy : Policy
  frontier : List NodeId
  eventCount : ℕ
  adapterRequestCount : ℕ
  events : List (AuditEvent α)

/-- `receipt->run-summary`, with `receipt-audit-summary`. -/
def receiptRunSummary (receipt : Receipt α) : RunSummary α :=
  let summary := receiptAuditSummaryAt receipt [] ⟨[], 0, 0⟩
  { flow := receipt.evidence.flow
    kind := receipt.evidence.kind
    status := receipt.evidence.status
    strategy := receipt.evidence.strategy
    policy := receipt.evidence.policy
    frontier := receipt.evidence.frontier
    eventCount := summary.eventCount
    adapterRequestCount := summary.adapterRequestCount
    events := summary.events.reverse }

mutual

def receiptEventCount : Receipt α → ℕ
  | .mk _ children => 1 + receiptListEventCount children

def receiptListEventCount : List (Receipt α) → ℕ
  | [] => 0
  | receipt :: receipts => receiptEventCount receipt + receiptListEventCount receipts

end

mutual

def receiptAdapterRequestCount : Receipt α → ℕ
  | .mk evidence children =>
    requestCount evidence.requestId + receiptListAdapterRequestCount children

def receiptListAdapterRequestCount : List (Receipt α) → ℕ
  | [] => 0
  | receipt :: receipts =>
    receiptAdapterRequestCount receipt + receiptListAdapterRequestCount receipts

end

mutual

theorem auditSummaryAt_counts : ∀ (receipt : Receipt α) (path : List ℕ) (summary : AuditSummary α),
    (receiptAuditSummaryAt receipt path summary).eventCount =
        summary.eventCount + receiptEventCount receipt ∧
      (receiptAuditSummaryAt receipt path summary).adapterRequestCount =
        summary.adapterRequestCount + receiptAdapterRequestCount receipt
  | .mk evidence children, path, summary => by
    rw [receiptAuditSummaryAt, receiptEventCount, receiptAdapterRequestCount]
    obtain ⟨hevents, hrequests⟩ := childrenAuditSummary_counts children path 0
      ⟨auditEvent (.mk evidence children) path :: summary.events, summary.eventCount + 1,
        summary.adapterRequestCount + requestCount evidence.requestId⟩
    exact ⟨hevents.trans (Nat.add_assoc ..), hrequests.trans (Nat.add_assoc ..)⟩

theorem childrenAuditSummary_counts : ∀ (children : List (Receipt α)) (path : List ℕ)
    (ordinal : ℕ) (summary : AuditSummary α),
    (childrenAuditSummary children path ordinal summary).eventCount =
        summary.eventCount + receiptListEventCount children ∧
      (childrenAuditSummary children path ordinal summary).adapterRequestCount =
        summary.adapterRequestCount + receiptListAdapterRequestCount children
  | [], path, ordinal, summary => by
    rw [childrenAuditSummary, receiptListEventCount, receiptListAdapterRequestCount]
    exact ⟨rfl, rfl⟩
  | child :: children, path, ordinal, summary => by
    rw [childrenAuditSummary, receiptListEventCount, receiptListAdapterRequestCount]
    obtain ⟨hevents, hrequests⟩ := auditSummaryAt_counts child (path ++ [ordinal]) summary
    obtain ⟨hevents', hrequests'⟩ := childrenAuditSummary_counts children path (ordinal + 1)
      (receiptAuditSummaryAt child (path ++ [ordinal]) summary)
    rw [hevents] at hevents'
    rw [hrequests] at hrequests'
    exact ⟨hevents'.trans (Nat.add_assoc ..), hrequests'.trans (Nat.add_assoc ..)⟩

end

inductive Reason (α : Type) where
  | rootStatusMismatch (status : String)
  | rootFrontierMismatch (expected observed : List NodeId)
  | strategyMismatch (label : Option NodeId) (expected observed : String)
  | policyFrontierMismatch (label : Option NodeId) (expected observed : List NodeId)
  | childCountMismatch (expected observed : ℕ)
  | nodeIdMismatch (expected : NodeId) (observed : Option NodeId)
  | frontierMismatch (id : NodeId) (expected observed : List NodeId)
  | eventCountMismatch (expected observed : ℕ)
  | adapterRequestCountMismatch (expected observed : ℕ)

def mismatch {β : Type} [DecidableEq β] (expected observed : β) (reason : Reason α) :
    List (Reason α) :=
  if expected = observed then [] else [reason]

@[simp] theorem mismatch_self {β : Type} [DecidableEq β] (value : β) (reason : Reason α) :
    mismatch value value reason = [] :=
  if_pos rfl

def receiptPolicyReasons (receipt : Receipt α) (label : Option NodeId) : List (Reason α) :=
  mismatch receipt.evidence.strategy receipt.evidence.policy.strategy
      (.strategyMismatch label receipt.evidence.strategy receipt.evidence.policy.strategy) ++
    mismatch receipt.evidence.frontier receipt.evidence.policy.frontier
      (.policyFrontierMismatch label receipt.evidence.frontier receipt.evidence.policy.frontier)

def childReplayReason (plan : ExecutionPlan α) (child : Receipt α) (expectedNodeId : NodeId)
    (completedNodeIds : List NodeId) : List (Reason α) :=
  mismatch (some expectedNodeId) child.evidence.nodeId
      (.nodeIdMismatch expectedNodeId child.evidence.nodeId) ++
    (mismatch (readyNodeIds plan.nodes completedNodeIds) child.evidence.frontier
      (.frontierMismatch expectedNodeId (readyNodeIds plan.nodes completedNodeIds)
        child.evidence.frontier) ++
      receiptPolicyReasons child (some expectedNodeId))

def childReplayReasons (plan : ExecutionPlan α) :
    List (Receipt α) → List NodeId → List NodeId → List (Reason α)
  | child :: children, expectedNodeId :: expectedNodeIds, completedNodeIds =>
    childReplayReason plan child expectedNodeId completedNodeIds ++
      childReplayReasons plan children expectedNodeIds (expectedNodeId :: completedNodeIds)
  | _, _, _ => []

def summaryCountReasons (summary : RunSummary α) (receipt : Receipt α) : List (Reason α) :=
  mismatch (receiptEventCount receipt) summary.eventCount
      (.eventCountMismatch (receiptEventCount receipt) summary.eventCount) ++
    mismatch (receiptAdapterRequestCount receipt) summary.adapterRequestCount
      (.adapterRequestCountMismatch (receiptAdapterRequestCount receipt) summary.adapterRequestCount)

inductive ReplayStatus where
  | valid | invalid
deriving DecidableEq

structure ReplayReport (α : Type) where
  status : ReplayStatus
  reasons : List (Reason α)
  summary : RunSummary α
  expectedNodeIds : List NodeId
  observedNodeIds : List (Option NodeId)

def validateReplayReport (plan : ExecutionPlan α) (receipt : Receipt α) : ReplayReport α :=
  let summary := receiptRunSummary receipt
  let expectedNodeIds := planNodeIds plan
  let reasons :=
    mismatch receipt.evidence.status "ok" (.rootStatusMismatch receipt.evidence.status) ++
    (mismatch (readyNodeIds plan.nodes []) receipt.evidence.frontier
      (.rootFrontierMismatch (readyNodeIds plan.nodes []) receipt.evidence.frontier) ++
    (receiptPolicyReasons receipt none ++
    (mismatch expectedNodeIds.length receipt.children.length
      (.childCountMismatch expectedNodeIds.length receipt.children.length) ++
    (childReplayReasons plan receipt.children expectedNodeIds [] ++
      summaryCountReasons summary receipt))))
  { status := if reasons.isEmpty then .valid else .invalid
    reasons := reasons
    summary := summary
    expectedNodeIds := expectedNodeIds
    observedNodeIds := receipt.children.map fun child => child.evidence.nodeId }

/-- `replay-report-valid?`. -/
def ReplayReport.isValid (report : ReplayReport α) : Bool := report.status = .valid

def runnerRunReplayReport (runner : Runner α) (flow : Flow α) (input : Value α) :
    Exec α (ReplayReport α) := do
  let plan ← lift (runnerPlan runner flow.name (stepActions runner flow.steps))
  let result ← flow.run runner input
  return validateReplayReport plan result.2

theorem summaryCountReasons_nil (receipt : Receipt α) :
    summaryCountReasons (receiptRunSummary receipt) receipt = [] := by
  obtain ⟨hevents, hrequests⟩ := auditSummaryAt_counts receipt [] ⟨[], 0, 0⟩
  rw [summaryCountReasons, receiptRunSummary]
  dsimp only
  rw [hevents, hrequests, Nat.zero_add, Nat.zero_add, mismatch_self, mismatch_self]
  rfl

structure Witnessed (runner : Runner α) (id : Option NodeId) (frontier : List NodeId)
    (receipt : Receipt α) : Prop where
  nodeId : receipt.evidence.nodeId = id
  ready : receipt.evidence.frontier = frontier
  strategy : receipt.evidence.strategy = runner.strategy.name
  policy : receipt.evidence.policy = executionPolicy runner frontier

def Traces (runner : Runner α) (plan : ExecutionPlan α) :
    List (PlanNode α) → List NodeId → List (Receipt α) → Prop
  | [], _, receipts => receipts = []
  | node :: nodes, completed, receipts => ∃ receipt later, receipts = receipt :: later ∧
      Witnessed runner (some node.id) (readyNodeIds plan.nodes completed) receipt ∧
      Traces runner plan nodes (node.id :: completed) later

section

variable {runner : Runner α} {plan : ExecutionPlan α} {node : PlanNode α} {receipt : Receipt α}
  {id : Option NodeId} {frontier completed : List NodeId}

theorem Witnessed.policyReasons (h : Witnessed runner id frontier receipt) (label : Option NodeId) :
    receiptPolicyReasons receipt label = [] := by
  rw [receiptPolicyReasons, h.strategy, h.ready, h.policy, executionPolicy, mismatch_self,
    mismatch_self]
  rfl

variable {children : List (Receipt α)}

theorem Traces.reasons {nodes : List (PlanNode α)}
    (h : Traces runner plan nodes completed children) :
    childReplayReasons plan children (nodes.map PlanNode.id) completed = [] ∧
      children.length = nodes.length := by
  induction nodes generalizing completed children with
  | nil =>
    obtain rfl : children = [] := h
    exact ⟨rfl, rfl⟩
  | cons node nodes ih =>
    obtain ⟨receipt, later, rfl, hwitnessed, hlater⟩ := h
    obtain ⟨hreasons, hlength⟩ := ih hlater
    refine ⟨?_, congrArg Nat.succ hlength⟩
    rw [map_cons, childReplayReasons, hreasons, childReplayReason, hwitnessed.nodeId,
      hwitnessed.ready, hwitnessed.policyReasons, mismatch_self, mismatch_self]
    rfl

theorem valid_of_traces (hstatus : receipt.evidence.status = "ok")
    (hroot : Witnessed runner none (readyNodeIds plan.nodes []) receipt)
    (h : Traces runner plan plan.nodes [] receipt.children) :
    (validateReplayReport plan receipt).isValid = true := by
  obtain ⟨hreasons, hlength⟩ := h.reasons
  rw [validateReplayReport, ReplayReport.isValid]
  dsimp only
  rw [hstatus, hroot.ready, hroot.policyReasons, hlength, planNodeIds, hreasons,
    summaryCountReasons_nil, length_map]
  simp

def Returns (property : Receipt α → Prop) (_ : List (Event α))
    (result : Except (Raised α) (Value α × Receipt α)) : Prop :=
  ∀ value receipt, result = .ok (value, receipt) → property receipt

variable {property : Receipt α → Prop}

theorem returns_error {events : List (Event α)} (condition : Raised α) :
    Returns property events (.error condition) :=
  fun value receipt heq => by cases heq

variable {value : Value α}

theorem returns_ok {events : List (Event α)} (h : property receipt) :
    Returns property events (.ok (value, receipt)) := by
  intro value' receipt' heq
  obtain ⟨-, rfl⟩ := Prod.mk.inj (ok.inj heq)
  exact h

/-- The rule for what follows any run. -/
theorem returns_bind {β : Type} {first : Exec α β} {next : β → Exec α (Value α × Receipt α)}
    (hnext : ∀ value, (next value).Obeys (Returns property)) :
    (first >>= next).Obeys (Returns property) := by
  have hfirst : first.Obeys fun _ _ => True := fun log => trivial
  exact Obeys.bind hfirst (fun events condition _ => returns_error condition)
    fun events value _ => hnext value

theorem witnessed_localReceipt {flowName : String} {task : Option String} {kind : String}
    {input output : Value α} {cache : CacheDecision α} {status : String}
    {error : Option (Failure α)} :
    Witnessed runner id frontier (localReceipt runner flowName task kind id input output cache frontier
      status error children) :=
  ⟨rfl, rfl, rfl, rfl⟩

theorem witnessed_planNode (input : Value α) (frontier : List NodeId) :
    (runPlanNode runner plan node input frontier).Obeys
      (Returns (Witnessed runner (some node.id) frontier)) := by
  rw [runPlanNode]
  cases node.action with
  | task task =>
    dsimp only
    rw [runTask]
    refine returns_bind fun family => ?_
    split
    · exact returns_bind fun value => obeys_pure.2 (returns_ok witnessed_localReceipt)
    · split
      · exact returns_bind fun result => returns_bind fun _ =>
          obeys_pure.2 (returns_ok ⟨rfl, rfl, rfl, rfl⟩)
      · exact obeys_throw.2 (returns_error _)
  | flow nested =>
    exact returns_bind fun result => obeys_pure.2 (returns_ok witnessed_localReceipt)
  | «try» name source =>
    exact returns_bind fun projection => obeys_pure.2 (returns_ok witnessed_localReceipt)
  | kleisli name source binder =>
    refine returns_bind fun result => ?_
    cases firstFailedReceipt result.2 with
    | some failed => exact obeys_pure.2 (returns_ok witnessed_localReceipt)
    | none => exact returns_bind fun bound => obeys_pure.2 (returns_ok witnessed_localReceipt)
  | branch name left right => exact obeys_pure.2 (returns_ok witnessed_localReceipt)

theorem traces_planNodes (hstrategy : runner.strategy = localEager ∨
      runner.strategy = cachedLocalEager) (hplan : Chained plan.nodes) {done nodes : List (PlanNode α)}
    (hnodes : plan.nodes = done ++ nodes) (input : Value α) (receipts : List (Receipt α))
    (index : ValueIndex α) {state : FrontierState}
    (hstate : state.Tracks plan.nodes (done.map PlanNode.id).reverse) :
    (runPlanNodes runner plan nodes input receipts index state).Obeys fun _ result =>
      ∀ value children, result = .ok (value, children) → ∃ later,
        children.reverse = receipts.reverse ++ later ∧
          Traces runner plan nodes (done.map PlanNode.id).reverse later := by
  have hfrontiers : ∀ ids, admitReadyFrontier runner ids = .ok ids := by
    intro ids
    rw [admitReadyFrontier]
    rcases hstrategy with heq | heq <;> rw [heq] <;> exact if_pos (by decide)
  induction nodes generalizing done receipts index state with
  | nil =>
    refine obeys_lift_bind (fun condition _ value children heq => (by cases heq)) fun value _ =>
      obeys_pure.2 fun value' children heq => ?_
    obtain ⟨-, rfl⟩ := Prod.mk.inj (ok.inj heq)
    exact ⟨[], (append_nil _).symm, rfl⟩
  | cons node nodes ih =>
    have hmem : node ∈ plan.nodes := hnodes ▸ mem_append_right _ mem_cons_self
    have hordered := (pairwise_append.1 (hnodes ▸ hplan.ordered)).2.2
    -- the nodes that completed are the ones with smaller ordinals
    have hdone : ∀ other ∈ plan.nodes, other.id ∈ (done.map PlanNode.id).reverse →
        other.ordinal < node.ordinal := by
      intro other hother hid
      obtain ⟨earlier, hearlier, heq⟩ := mem_map.1 (mem_reverse.1 hid)
      have hsame : earlier = other :=
        hplan.id_injOn (hnodes ▸ mem_append_left _ hearlier) hother heq
      exact hsame ▸ hordered earlier hearlier node mem_cons_self
    have hfresh : node.id ∉ (done.map PlanNode.id).reverse :=
      fun hid => lt_irrefl _ (hdone node hmem hid)
    have hlater : ∀ other ∈ plan.nodes, node.id ∈ other.dependencies →
        other.id ∉ (done.map PlanNode.id).reverse := by
      intro other hother hdepends hid
      have hlt := hplan.earlier other hother node.id hdepends
      rw [hplan.ordinal node hmem] at hlt
      exact absurd (hdone other hother hid) (not_lt.2 hlt.le)
    have hnext := hstate.complete hplan hfresh hlater
    have hcompleted : node.id :: (done.map PlanNode.id).reverse =
        ((done ++ [node]).map PlanNode.id).reverse := by simp
    rw [runPlanNodes]
    refine obeys_lift_bind (fun condition _ value children heq => (by cases heq))
      fun frontier hfrontier =>
        obeys_lift_bind (fun condition _ value children heq => (by cases heq)) fun nodeInput _ => ?_
    obtain rfl : state.ready = frontier := ok.inj ((hfrontiers _).symm.trans hfrontier)
    -- the receipt of the node is witnessed with the frontier it ran in
    have hnode : (observed (wholeLabel node.id) (node.dependencies.map wholeLabel) nodes.isEmpty
        (runPlanNode runner plan node nodeInput state.ready)).Obeys
          (Returns (Witnessed runner (some node.id) state.ready)) :=
      Obeys.within (witnessed_planNode nodeInput state.ready) fun events result hreturns => hreturns
    refine Obeys.bind hnode (fun events condition _ value children heq => (by cases heq)) ?_
    rintro events ⟨value, receipt⟩ hreturns
    rw [hcompleted] at hnext
    refine (@ih (done ++ [node]) (by rw [hnodes, append_assoc]; rfl) (receipt :: receipts)
      _ _ hnext).mono fun later result hresult value' children heq => ?_
    obtain ⟨rest, hchildren, htraces⟩ := hresult value' children heq
    rw [reverse_cons, append_assoc] at hchildren
    refine ⟨receipt :: rest, hchildren, receipt, rest, rfl, ?_, hcompleted ▸ htraces⟩
    rw [← hstate.ready]
    exact hreturns value receipt rfl

end

section

variable {runner : Runner α}

theorem valid_of_runActions (hstrategy : runner.strategy = localEager ∨
      runner.strategy = cachedLocalEager) (flowName : String) (actions : List (Action α))
    (input : Value α) :
    (runActions runner flowName actions input).Obeys (Returns fun receipt => ∀ plan,
      runnerPlan runner flowName actions = .ok plan →
        (validateReplayReport plan receipt).isValid = true) := by
  rw [runActions]
  refine obeys_lift_bind (fun condition _ => returns_error condition) fun plan hplan =>
    obeys_lift_bind (fun condition _ => returns_error condition) fun _ _ =>
      obeys_lift_bind (fun condition _ => returns_error condition) fun frontier hfrontier => ?_
  have hchained : Chained plan.nodes := by
    rw [runnerPlan] at hplan
    split at hplan
    · cases hplan
    · split_ifs at hplan
      obtain rfl := ok.inj hplan
      exact chained_linearPlan flowName actions
  have hready : frontier = readyNodeIds plan.nodes [] := by
    rw [admitReadyFrontier] at hfrontier
    split_ifs at hfrontier
    exact (ok.inj hfrontier).symm.trans (tracks_makeFrontierState hchained).ready
  refine Obeys.bind (@traces_planNodes _ runner plan hstrategy hchained [] plan.nodes rfl input []
    (fun _ => none) _ (tracks_makeFrontierState hchained))
    (fun events condition _ => returns_error condition) ?_
  rintro events ⟨value, children⟩ hresult
  obtain ⟨later, hchildren, htraces⟩ := hresult value children rfl
  refine obeys_pure.2 (returns_ok fun plan' hplan' => ?_)
  obtain rfl : plan = plan' := ok.inj (hplan.symm.trans hplan')
  subst hready
  refine valid_of_traces rfl witnessed_localReceipt ?_
  rw [localReceipt, Receipt.children, show children.reverse = later from hchildren]
  exact htraces

/-- **The report of every run that returns is valid.** -/
theorem valid_of_run (hstrategy : runner.strategy = localEager ∨ runner.strategy = cachedLocalEager)
    (flow : Flow α) (input : Value α) (log : List (Event α)) {receipt : Receipt α}
    (hrun : ((flow.run runner input).run log).1 = .ok (value, receipt)) :
    ∃ report, ((runnerRunReplayReport runner flow input).run log).1 = .ok report ∧
      report.isValid = true := by
  cases flow with
  | mk name steps inputContract outputContract =>
    have hvalid := valid_of_runActions hstrategy name (stepActions runner steps) input log
    obtain ⟨plan, hplan⟩ : ∃ plan, runnerPlan runner name (stepActions runner steps) = .ok plan := by
      cases hplan : runnerPlan runner name (stepActions runner steps) with
      | ok plan => exact ⟨plan, rfl⟩
      | error condition =>
        rw [Flow.run, runActions, run_bind_fst, run_lift, hplan] at hrun
        cases hrun
    refine ⟨validateReplayReport plan receipt, ?_, hvalid value receipt hrun plan hplan⟩
    rw [runnerRunReplayReport, run_bind_fst, run_lift, Flow.name, Flow.steps, hplan]
    change ((_ >>= _ : Exec α (ReplayReport α)).run (log ++ [])).1 = _
    rw [append_nil, run_bind_fst, hrun]
    rfl

end

section

variable (runner : Runner α) (flow : Flow α) (input : Value α) (log : List (Event α))

/-- **Separation**: where the run returns, its report is valid if and only if no
receipt outside the subtrees of try receipts is failed. -/
def Separates : Prop :=
  ∀ value receipt, ((flow.run runner input).run log).1 = .ok (value, receipt) → ∃ report,
    ((runnerRunReplayReport runner flow input).run log).1 = .ok report ∧
      (report.isValid = true ↔ failedOutside receipt = false)

/-- Where the run returns, the adapter answered no request with a failure outside the
flows of try steps, and none in the flows of a bind outside of them but where a try
step's flow raised. -/
def NothingExposed : Prop :=
  ∀ value receipt, ((flow.run runner input).run log).1 = .ok (value, receipt) →
    anyExposed ((flow.run runner input).run log).2 = false

end

theorem failedOutside_eq_anyExposed {runner : Runner α} {flow : Flow α} {input : Value α}
    {log : List (Event α)} {receipt : Receipt α}
    (hrun : ((flow.run runner input).run log).1 = .ok (value, receipt)) :
    failedOutside receipt = anyExposed ((flow.run runner input).run log).2 :=
  ((observes_flow runner flow input log).2 value receipt hrun).outside

/-- **When valid reports tell successful runs from failed ones.** -/
theorem separates_iff {runner : Runner α}
    (hstrategy : runner.strategy = localEager ∨ runner.strategy = cachedLocalEager) (flow : Flow α)
    (input : Value α) (log : List (Event α)) :
    Separates runner flow input log ↔ NothingExposed runner flow input log := by
  constructor
  · intro h value receipt hrun
    obtain ⟨report, hreport, hiff⟩ := h value receipt hrun
    obtain ⟨report', hreport', hvalid⟩ := valid_of_run hstrategy flow input log hrun
    obtain rfl := Except.ok.inj (hreport.symm.trans hreport')
    rw [← failedOutside_eq_anyExposed hrun]
    exact hiff.1 hvalid
  · intro h value receipt hrun
    obtain ⟨report, hreport, hvalid⟩ := valid_of_run hstrategy flow input log hrun
    refine ⟨report, hreport, iff_of_true hvalid ?_⟩
    rw [failedOutside_eq_anyExposed hrun]
    exact h value receipt hrun

theorem separates_iff_demo : Separates demoRunner demoExternal (.atom ()) [] ↔
    NothingExposed demoRunner demoExternal (.atom ()) [] :=
  separates_iff (.inl rfl) demoExternal (.atom ()) []

/-- **A failed run with a valid report.** -/
theorem failed_run_valid : ¬Separates demoRunner demoExternal (.atom ()) [] := by
  intro h
  obtain ⟨value, receipt, hrun, hfailed⟩ : ∃ value receipt,
      ((demoExternal.run demoRunner (.atom ())).run []).1 = .ok (value, receipt) ∧
        failedOutside receipt = true := ⟨_, _, rfl, by decide⟩
  obtain ⟨report, hreport, hiff⟩ := h value receipt hrun
  obtain ⟨report', hreport', hvalid⟩ := valid_of_run (.inl rfl) demoExternal (.atom ()) [] hrun
  obtain rfl := Except.ok.inj (hreport.symm.trans hreport')
  rw [hiff.1 hvalid] at hfailed
  cases hfailed

end PooFlow.Execution
