import PooFlow.Foundation.Strong

/-! `graph/runtime-executor.ss`: a walk from the entry of a policy. A supplied choice is used up at
its node; a loop edge takes a unit of the fuel that all loops share. -/

namespace PooFlow.Control

open Foundation List

/-- `poo-flow-graph-edge`, with any symbol as its kind. -/
structure PooFlowGraphEdge (α : Type*) where
  fromId : α
  toId : α
  edgeKind : String := "dependency"
  deriving DecidableEq

structure PooFlowGraph (α : Type*) where
  graphId : α
  edges : List (PooFlowGraphEdge α)

structure PooFlowGraphBranchChoice (α : Type*) where
  fromId : α
  toId : α

structure PooFlowGraphRuntimePolicy (α : Type*) where
  name : String
  entryId : α
  finishId : α
  branchChoices : List (PooFlowGraphBranchChoice α)
  fuel : ℕ
  sandboxScopeContained : Bool
  toolPermissionsContained : Bool
  checkpointPersisted : Bool
  humanApprovalRequired : Bool
  humanApproved : Bool
  subagentsParented : Bool
  handoffRequired : Bool

inductive RuntimeDiagnostic (α : Type*) where
  | maxStepsExceeded (maxSteps : ℕ)
  | fuelExhausted (currentId : α)
  | deadEnd (currentId : α)
  | missingBranchTarget (toId : α)
  | missingBranchChoice (currentId : α)
  | sandboxScopeNotContained (policyName : String)
  | toolPermissionsNotContained (policyName : String)
  | checkpointNotPersisted (policyName : String)
  | humanApprovalMissing (policyName : String)
  | subagentsNotParented (policyName : String)
  | handoffNotReached (policyName : String)

/-- `poo-flow-graph-runtime-receipt-record`. -/
structure PooFlowGraphRuntimeReceipt (α : Type*) where
  kind : String
  schema : String
  graphId : α
  policyName : String
  entryId : α
  finishId : α
  trace : List α
  fuelBefore : ℤ
  fuelAfter : ℤ
  currentId : α
  finished : Bool
  loopFuelContained : Bool
  handoffReached : Bool
  sandboxScopeContained : Bool
  toolPermissionsContained : Bool
  checkpointPersisted : Bool
  humanApprovalRequired : Bool
  humanApproved : Bool
  humanApprovalSound : Bool
  subagentsParented : Bool
  diagnostics : List (RuntimeDiagnostic α)
  runtimeExecuted : Bool

/-- `runtime-loop-edge?`. -/
def PooFlowGraphEdge.IsLoop {α : Type*} (edge : PooFlowGraphEdge α) : Bool :=
  edge.edgeKind ∈ ["loop", "back-edge", "retry", "self-loop"]

/-- `runtime-conditional-edge?`. -/
def PooFlowGraphEdge.IsConditional {α : Type*} (edge : PooFlowGraphEdge α) : Bool :=
  edge.edgeKind ∈ ["conditional", "branch", "router"]

section

variable {α : Type*} [DecidableEq α]

def runtimeDiagnosticPrepend (diagnostics : List (RuntimeDiagnostic α)) (ok : Bool)
    (code : String → RuntimeDiagnostic α) (policyName : String) : List (RuntimeDiagnostic α) :=
  if ok then diagnostics else code policyName :: diagnostics

def runtimeFinalDiagnostics (diagnostics : List (RuntimeDiagnostic α))
    (policy : PooFlowGraphRuntimePolicy α) (handoffReached humanApprovalSound : Bool) :
    List (RuntimeDiagnostic α) :=
  let diagnostics := runtimeDiagnosticPrepend diagnostics policy.sandboxScopeContained
    .sandboxScopeNotContained policy.name
  let diagnostics := runtimeDiagnosticPrepend diagnostics policy.toolPermissionsContained
    .toolPermissionsNotContained policy.name
  let diagnostics := runtimeDiagnosticPrepend diagnostics policy.checkpointPersisted
    .checkpointNotPersisted policy.name
  let diagnostics := runtimeDiagnosticPrepend diagnostics humanApprovalSound
    .humanApprovalMissing policy.name
  let diagnostics := runtimeDiagnosticPrepend diagnostics policy.subagentsParented
    .subagentsNotParented policy.name
  runtimeDiagnosticPrepend diagnostics handoffReached .handoffNotReached policy.name

def runtimeReceipt (graph : PooFlowGraph α) (policy : PooFlowGraphRuntimePolicy α)
    (trace : List α) (fuelAfter : ℤ) (currentId : α) (finished : Bool)
    (diagnostics : List (RuntimeDiagnostic α)) : PooFlowGraphRuntimeReceipt α :=
  -- a run that did not finish has handed nothing off
  let handoffReached := finished && (!policy.handoffRequired || currentId = policy.finishId)
  let humanApprovalSound := !policy.humanApprovalRequired || policy.humanApproved
  { kind := "poo-flow.graph.runtime-receipt.v1"
    schema := "poo-flow.graph.runtime-receipt.v1"
    graphId := graph.graphId
    policyName := policy.name
    entryId := policy.entryId
    finishId := policy.finishId
    trace
    fuelBefore := policy.fuel
    fuelAfter
    currentId
    finished
    loopFuelContained := 0 ≤ fuelAfter
    handoffReached
    sandboxScopeContained := policy.sandboxScopeContained
    toolPermissionsContained := policy.toolPermissionsContained
    checkpointPersisted := policy.checkpointPersisted
    humanApprovalRequired := policy.humanApprovalRequired
    humanApproved := policy.humanApproved
    humanApprovalSound
    subagentsParented := policy.subagentsParented
    diagnostics := runtimeFinalDiagnostics diagnostics policy handoffReached humanApprovalSound
    runtimeExecuted := true }

def runtimeOutgoingEdges (currentId : α) (edges : List (PooFlowGraphEdge α)) :
    List (PooFlowGraphEdge α) :=
  edges.filter (currentId = ·.fromId)

def runtimeEdgeTo (targetId : α) (edges : List (PooFlowGraphEdge α)) :
    Option (PooFlowGraphEdge α) :=
  edges.find? (targetId = ·.toId)

def runtimeHasConditionalEdge (edges : List (PooFlowGraphEdge α)) : Bool :=
  edges.any (·.IsConditional)

def runtimeNextBranchChoiceRev (currentId : α) :
    List (PooFlowGraphBranchChoice α) → List (PooFlowGraphBranchChoice α) →
      Option (PooFlowGraphBranchChoice α) × List (PooFlowGraphBranchChoice α)
  | [], frontRev => (none, frontRev.reverse)
  | choice :: rest, frontRev =>
    if currentId = choice.fromId then (some choice, frontRev.reverse ++ rest)
    else runtimeNextBranchChoiceRev currentId rest (choice :: frontRev)

def runtimeNextBranchChoice (currentId : α) (branchChoices : List (PooFlowGraphBranchChoice α)) :
    Option (PooFlowGraphBranchChoice α) × List (PooFlowGraphBranchChoice α) :=
  runtimeNextBranchChoiceRev currentId branchChoices []

/-- `runtime-select-edge`: an edge or a diagnostic, and the choices that are left. -/
def runtimeSelectEdge (currentId : α) (edges : List (PooFlowGraphEdge α))
    (branchChoices : List (PooFlowGraphBranchChoice α)) :
    Except (RuntimeDiagnostic α) (PooFlowGraphEdge α) × List (PooFlowGraphBranchChoice α) :=
  match runtimeOutgoingEdges currentId edges with
  -- without an edge no choice is used up
  | [] => (.error (.deadEnd currentId), branchChoices)
  | first :: others =>
    match runtimeNextBranchChoice currentId branchChoices with
    | (some choice, branchChoices') =>
      match runtimeEdgeTo choice.toId (first :: others) with
      | some edge => (.ok edge, branchChoices')
      | none => (.error (.missingBranchTarget choice.toId), branchChoices')
    | (none, _) =>
      if runtimeHasConditionalEdge (first :: others) then
        (.error (.missingBranchChoice currentId), branchChoices)
      else (.ok first, branchChoices)

def runtimeWalk (graph : PooFlowGraph α) (policy : PooFlowGraphRuntimePolicy α) (maxSteps : ℕ)
    (currentId : α) (branchChoices : List (PooFlowGraphBranchChoice α)) (fuel : ℤ)
    (traceRev : List α) (stepCount : ℕ) (diagnosticsRev : List (RuntimeDiagnostic α)) :
    PooFlowGraphRuntimeReceipt α :=
  if maxSteps < stepCount then
    runtimeReceipt graph policy traceRev.reverse fuel currentId false
      (.maxStepsExceeded maxSteps :: diagnosticsRev).reverse
  else if currentId = policy.finishId then
    runtimeReceipt graph policy traceRev.reverse fuel currentId true diagnosticsRev.reverse
  else
    match runtimeSelectEdge currentId graph.edges branchChoices with
    | (.error diagnostic, _) =>
      runtimeReceipt graph policy traceRev.reverse fuel currentId false
        (diagnostic :: diagnosticsRev).reverse
    | (.ok edge, branchChoices') =>
      -- a loop edge is not taken without fuel
      if edge.IsLoop ∧ fuel = 0 then
        runtimeReceipt graph policy traceRev.reverse fuel currentId false
          (.fuelExhausted currentId :: diagnosticsRev).reverse
      else
        runtimeWalk graph policy maxSteps edge.toId branchChoices'
          (if edge.IsLoop then fuel - 1 else fuel) (edge.toId :: traceRev) (stepCount + 1)
          diagnosticsRev
termination_by maxSteps + 1 - stepCount

def pooFlowGraphRuntimeExecute (graph : PooFlowGraph α) (policy : PooFlowGraphRuntimePolicy α) :
    PooFlowGraphRuntimeReceipt α :=
  let maxSteps := 1 + (policy.fuel + 1) * (1 + graph.edges.length)
  runtimeWalk graph policy maxSteps policy.entryId policy.branchChoices policy.fuel
    [policy.entryId] 0 []

variable {currentId : α} {choices rest : List (PooFlowGraphBranchChoice α)}

variable {choice : PooFlowGraphBranchChoice α} {edges : List (PooFlowGraphEdge α)}
  {edge : PooFlowGraphEdge α}

theorem runtimeNextBranchChoiceRev_eq {frontRev : List (PooFlowGraphBranchChoice α)}
    (h : runtimeNextBranchChoiceRev currentId choices frontRev = (some choice, rest)) :
    choice.fromId = currentId ∧
      ∃ front back, choices = front ++ choice :: back ∧
        rest = frontRev.reverse ++ front ++ back := by
  induction choices generalizing frontRev with
  | nil => cases h
  | cons first others ih =>
    rw [runtimeNextBranchChoiceRev] at h
    split at h
    · next hfrom =>
      cases h
      exact ⟨hfrom.symm, [], others, rfl, by rw [append_nil]⟩
    · obtain ⟨hfrom, front, back, rfl, rfl⟩ := ih h
      refine ⟨hfrom, first :: front, back, rfl, ?_⟩
      rw [reverse_cons, append_assoc, append_assoc, append_assoc]
      rfl

theorem runtimeNextBranchChoice_eq
    (h : runtimeNextBranchChoice currentId choices = (some choice, rest)) :
    choice.fromId = currentId ∧
      ∃ front back, choices = front ++ choice :: back ∧ rest = front ++ back :=
  runtimeNextBranchChoiceRev_eq h

theorem mem_runtimeOutgoingEdges :
    edge ∈ runtimeOutgoingEdges currentId edges ↔ edge ∈ edges ∧ edge.fromId = currentId := by
  rw [runtimeOutgoingEdges, mem_filter, decide_eq_true_iff, eq_comm]

theorem runtimeSelectEdge_eq (h : runtimeSelectEdge currentId edges choices = (.ok edge, rest)) :
    edge ∈ edges ∧ edge.fromId = currentId ∧
      ((runtimeNextBranchChoice currentId choices).1 = none ∧ rest = choices ∨
        ∃ choice, runtimeNextBranchChoice currentId choices = (some choice, rest) ∧
          choice.toId = edge.toId) := by
  rw [runtimeSelectEdge] at h
  cases houtgoing : runtimeOutgoingEdges currentId edges with
  | nil =>
    rw [houtgoing] at h
    cases h
  | cons first others =>
    rw [houtgoing] at h
    rcases hchosen : runtimeNextBranchChoice currentId choices with ⟨chosen, choices'⟩
    have hleaves : ∀ edge ∈ first :: others, edge ∈ edges ∧ edge.fromId = currentId := by
      intro edge hedge
      rw [← houtgoing] at hedge
      exact mem_runtimeOutgoingEdges.1 hedge
    cases chosen with
    | none =>
      simp only [hchosen] at h
      split at h
      · cases h
      · cases h
        obtain ⟨hmem, hfrom⟩ := hleaves edge mem_cons_self
        exact ⟨hmem, hfrom, .inl ⟨rfl, rfl⟩⟩
    | some choice =>
      simp only [hchosen] at h
      split at h
      · next found hfound =>
        cases h
        obtain ⟨hmem, hfrom⟩ := hleaves edge (mem_of_find?_eq_some hfound)
        have hto := List.find?_some hfound
        exact ⟨hmem, hfrom, .inr ⟨choice, rfl, of_decide_eq_true hto⟩⟩
      · cases h

end

structure Leg (α : Type*) where
  edge : PooFlowGraphEdge α
  choice : Option (PooFlowGraphBranchChoice α)

section

variable {α : Type*}

def loopsTaken (legs : List (Leg α)) : ℕ := legs.countP (·.edge.IsLoop)

theorem loopsTaken_cons (leg : Leg α) (legs : List (Leg α)) :
    loopsTaken (leg :: legs) = loopsTaken legs + if leg.edge.IsLoop then 1 else 0 :=
  countP_cons

variable [DecidableEq α]

inductive Legs (edges : List (PooFlowGraphEdge α)) :
    α → List (PooFlowGraphBranchChoice α) → List (Leg α) → α →
      List (PooFlowGraphBranchChoice α) → Prop
  | nil (id : α) (choices : List (PooFlowGraphBranchChoice α)) : Legs edges id choices [] id choices
  | cons {id last : α} {choices choices' rest : List (PooFlowGraphBranchChoice α)} {leg : Leg α}
      {legs : List (Leg α)}
      (selected : runtimeSelectEdge id edges choices = (.ok leg.edge, choices'))
      (used : (runtimeNextBranchChoice id choices).1 = leg.choice)
      (later : Legs edges leg.edge.toId choices' legs last rest) :
      Legs edges id choices (leg :: legs) last rest

abbrev EdgeOf (edges : List (PooFlowGraphEdge α)) : α → α → Prop :=
  Leads (·.fromId) (·.toId) edges

def unlooped (edges : List (PooFlowGraphEdge α)) : List (PooFlowGraphEdge α) :=
  edges.filter (!·.IsLoop)

variable {edges : List (PooFlowGraphEdge α)} {id last : α}
  {choices rest : List (PooFlowGraphBranchChoice α)} {legs : List (Leg α)}

section

variable (h : Legs edges id choices legs last rest)

include h

/-- The ids that are passed are a walk. -/
theorem Legs.isChain : (id :: legs.map (·.edge.toId)).IsChain (EdgeOf edges) := by
  induction h with
  | nil id choices => exact isChain_singleton id
  | cons selected _ _ ih =>
    obtain ⟨hmem, hfrom, _⟩ := runtimeSelectEdge_eq selected
    exact isChain_cons_cons.2 ⟨⟨_, hmem, hfrom, rfl⟩, ih⟩

theorem Legs.perm : (legs.filterMap (·.choice) ++ rest).Perm choices := by
  induction h with
  | nil id choices => exact .refl _
  | @cons id last choices choices' rest leg legs selected used _ ih =>
    obtain ⟨_, _, ⟨hnone, rfl⟩ | ⟨choice, hchosen, _⟩⟩ := runtimeSelectEdge_eq selected
    · rw [filterMap_cons_none (used.symm.trans hnone)]
      exact ih
    · -- the choice is cut out of the ones that were left
      obtain ⟨_, front, back, rfl, rfl⟩ := runtimeNextBranchChoice_eq hchosen
      rw [hchosen] at used
      rw [filterMap_cons_some used.symm]
      exact (ih.cons choice).trans perm_middle.symm

theorem Legs.followed : ∀ leg ∈ legs, ∀ choice, leg.choice = some choice →
      choice.fromId = leg.edge.fromId ∧ choice.toId = leg.edge.toId := by
  induction h with
  | nil id choices => exact fun leg hleg => absurd hleg not_mem_nil
  | cons selected used _ ih =>
    intro leg' hleg choice hchoice
    rcases mem_cons.1 hleg with rfl | hleg
    · obtain ⟨_, hfrom, ⟨hnone, _⟩ | ⟨chosen, hchosen, hto⟩⟩ := runtimeSelectEdge_eq selected
      · rw [← used, hnone] at hchoice
        cases hchoice
      · rw [← used, hchosen] at hchoice
        obtain rfl := Option.some.inj hchoice
        exact ⟨(runtimeNextBranchChoice_eq hchosen).1.trans hfrom.symm, hto⟩
    · exact ih leg' hleg choice hchoice

/-- **The length of a walk** is bounded by the loop edges that it takes, if there is no
cycle of other edges. -/
theorem Legs.length_le (hacyclic : ∀ id, ¬Relation.TransGen (EdgeOf (unlooped edges)) id id) :
    legs.length ≤ loopsTaken legs * (1 + edges.length) +
      edgesAhead (·.fromId) (·.toId) (unlooped edges) id := by
  induction h with
  | nil id choices => exact Nat.zero_le _
  | @cons id last choices choices' rest leg legs selected _ _ ih =>
    obtain ⟨hmem, rfl, _⟩ := runtimeSelectEdge_eq selected
    rw [length_cons, loopsTaken_cons]
    cases hloop : leg.edge.IsLoop with
    | true =>
      -- a loop edge may put all other edges ahead again
      have hahead : edgesAhead (·.fromId) (·.toId) (unlooped edges) leg.edge.toId ≤ edges.length :=
        (edgesAhead_le _).trans (length_filter_le _ _)
      rw [if_pos rfl, Nat.add_mul, Nat.one_mul]
      omega
    | false =>
      have hunlooped : leg.edge ∈ unlooped edges :=
        mem_filter.2 ⟨hmem, by rw [hloop]; rfl⟩
      have hahead := edgesAhead_lt hacyclic hunlooped
      rw [if_neg Bool.false_ne_true, Nat.add_zero (loopsTaken legs)]
      omega

end

end

section

variable {α : Type*} [DecidableEq α]

structure Travelled (graph : PooFlowGraph α) (policy : PooFlowGraphRuntimePolicy α)
    (receipt : PooFlowGraphRuntimeReceipt α) (legs : List (Leg α))
    (rest : List (PooFlowGraphBranchChoice α)) : Prop where
  taken : Legs graph.edges policy.entryId policy.branchChoices legs receipt.currentId rest
  trace : receipt.trace = policy.entryId :: legs.map (·.edge.toId)
  isChain : receipt.trace.IsChain (EdgeOf graph.edges)
  fuelAfter : receipt.fuelAfter = policy.fuel - loopsTaken legs
  contained : 0 ≤ receipt.fuelAfter
  used : (legs.filterMap (·.choice) ++ rest).Perm policy.branchChoices
  followed : ∀ leg ∈ legs, ∀ choice, leg.choice = some choice →
    choice.fromId = leg.edge.fromId ∧ choice.toId = leg.edge.toId

variable {graph : PooFlowGraph α} {policy : PooFlowGraphRuntimePolicy α} {maxSteps : ℕ}

variable {diagnostics : List (RuntimeDiagnostic α)}

theorem maxStepsExceeded_mem_diagnostics
    {trace : List α} {fuelAfter : ℤ} {currentId : α} {finished : Bool} {steps : ℕ} :
    .maxStepsExceeded steps ∈
        (runtimeReceipt graph policy trace fuelAfter currentId finished diagnostics).diagnostics ↔
      .maxStepsExceeded steps ∈ diagnostics := by
  have hprepend : ∀ (diagnostics : List (RuntimeDiagnostic α)) (ok : Bool)
      (code : String → RuntimeDiagnostic α), (∀ name, .maxStepsExceeded steps ≠ code name) →
      (.maxStepsExceeded steps ∈ runtimeDiagnosticPrepend diagnostics ok code policy.name ↔
        .maxStepsExceeded steps ∈ diagnostics) := by
    intro diagnostics ok code hcode
    unfold runtimeDiagnosticPrepend
    split
    · exact Iff.rfl
    · rw [mem_cons, or_iff_right (hcode policy.name)]
  show _ ∈ runtimeFinalDiagnostics diagnostics policy _ _ ↔ _
  simp only [runtimeFinalDiagnostics]
  rw [hprepend _ _ _ (by simp), hprepend _ _ _ (by simp), hprepend _ _ _ (by simp),
    hprepend _ _ _ (by simp), hprepend _ _ _ (by simp), hprepend _ _ _ (by simp)]

/-- What a receipt says of a walk that has come to an id: some legs follow, and the walk
gives up on the steps only when there are too many. -/
def Walked (graph : PooFlowGraph α) (policy : PooFlowGraphRuntimePolicy α) (maxSteps : ℕ)
    (currentId : α) (branchChoices : List (PooFlowGraphBranchChoice α)) (fuel : ℤ)
    (traceRev : List α) (stepCount : ℕ) (receipt : PooFlowGraphRuntimeReceipt α) : Prop :=
  ∃ legs rest last finished diagnostics, Legs graph.edges currentId branchChoices legs last rest ∧
      receipt = runtimeReceipt graph policy (traceRev.reverse ++ legs.map (·.edge.toId))
        (fuel - loopsTaken legs) last finished diagnostics ∧
      0 ≤ fuel - loopsTaken legs ∧
      ∀ steps, .maxStepsExceeded steps ∈ diagnostics → maxSteps < stepCount + legs.length

section

variable {currentId : α} {branchChoices branchChoices' : List (PooFlowGraphBranchChoice α)}
  {fuel : ℤ} {traceRev : List α} {stepCount : ℕ}

theorem walked_stop (hfuel : 0 ≤ fuel) {finished : Bool}
    (hsteps : ∀ steps, .maxStepsExceeded steps ∈ diagnostics → maxSteps < stepCount) :
    Walked graph policy maxSteps currentId branchChoices fuel traceRev stepCount
      (runtimeReceipt graph policy traceRev.reverse fuel currentId finished diagnostics) := by
  refine ⟨[], branchChoices, currentId, finished, diagnostics, .nil _ _, ?_, ?_, hsteps⟩
  · rw [map_nil, append_nil, loopsTaken, countP_nil, Nat.cast_zero, sub_zero]
  · rw [loopsTaken, countP_nil, Nat.cast_zero, sub_zero]
    exact hfuel

theorem walked_leg {edge : PooFlowGraphEdge α} {receipt : PooFlowGraphRuntimeReceipt α}
    (hselect : runtimeSelectEdge currentId graph.edges branchChoices = (.ok edge, branchChoices'))
    (h : Walked graph policy maxSteps edge.toId branchChoices'
      (if edge.IsLoop then fuel - 1 else fuel) (edge.toId :: traceRev) (stepCount + 1) receipt) :
    Walked graph policy maxSteps currentId branchChoices fuel traceRev stepCount receipt := by
  obtain ⟨legs, rest, last, finished, diagnostics, hlegs, hreceipt, hcontained, hsteps⟩ := h
  have hspent : (if edge.IsLoop then fuel - 1 else fuel) - loopsTaken legs =
      fuel - loopsTaken (⟨edge, (runtimeNextBranchChoice currentId branchChoices).1⟩ :: legs) := by
    rw [loopsTaken_cons]
    split <;> omega
  rw [hspent] at hreceipt hcontained
  refine ⟨_ :: legs, rest, last, finished, diagnostics, .cons hselect rfl hlegs, ?_,
    hcontained, fun steps hmem => ?_⟩
  · rw [hreceipt, reverse_cons, append_assoc]
    rfl
  · have hover := hsteps steps hmem
    rw [length_cons]
    omega

theorem runtimeSelectEdge_diagnostic {diagnostic : RuntimeDiagnostic α}
    (h : runtimeSelectEdge currentId graph.edges branchChoices =
      (.error diagnostic, branchChoices')) (steps : ℕ) :
    diagnostic ≠ .maxStepsExceeded steps := by
  rintro rfl
  rw [runtimeSelectEdge] at h
  split at h
  · cases h
  split at h
  · split at h <;> cases h
  · split at h <;> cases h

/-- **Every walk** is one of legs. -/
theorem walked_runtimeWalk (hfuel : 0 ≤ fuel) :
    Walked graph policy maxSteps currentId branchChoices fuel traceRev stepCount
      (runtimeWalk graph policy maxSteps currentId branchChoices fuel traceRev stepCount []) := by
  induction hleft : maxSteps + 1 - stepCount generalizing currentId branchChoices fuel traceRev
      stepCount with
  | zero =>
    have hover : maxSteps < stepCount := by omega
    rw [runtimeWalk, if_pos hover]
    exact walked_stop hfuel fun _ _ => hover
  | succ left ih =>
    rw [runtimeWalk]
    split
    · next hover => exact walked_stop hfuel fun _ _ => hover
    split
    · exact walked_stop hfuel fun steps hmem => absurd hmem not_mem_nil
    split
    · next diagnostic _ hselect =>
      refine walked_stop hfuel fun steps hmem => ?_
      exact absurd (mem_singleton.1 hmem).symm (runtimeSelectEdge_diagnostic hselect steps)
    · next edge branchChoices' hselect =>
      split
      · refine walked_stop hfuel fun steps hmem => ?_
        cases mem_singleton.1 hmem
      · next hfuelled =>
        refine walked_leg hselect (ih ?_ (by omega))
        split
        · next hloop =>
          -- fuel was left for this loop edge
          have hleft : fuel ≠ 0 := fun hempty => hfuelled ⟨hloop, hempty⟩
          omega
        · exact hfuel

theorem walked_pooFlowGraphRuntimeExecute (graph : PooFlowGraph α)
    (policy : PooFlowGraphRuntimePolicy α) :
    Walked graph policy (1 + (policy.fuel + 1) * (1 + graph.edges.length)) policy.entryId
      policy.branchChoices policy.fuel [policy.entryId] 0
      (pooFlowGraphRuntimeExecute graph policy) :=
  walked_runtimeWalk (Int.natCast_nonneg _)

end

/-- **Runs of the executor are sound**: the trace is a walk of legs from the entry, loops
share the fuel and take no more than there is, each choice is used at most once, and the
steps suffice unless edges outside loops form a cycle. -/
theorem runtime_execute_sound (graph : PooFlowGraph α) (policy : PooFlowGraphRuntimePolicy α) :
    ∃ legs rest, Travelled graph policy (pooFlowGraphRuntimeExecute graph policy) legs rest ∧
      ((∀ id, ¬Relation.TransGen (EdgeOf (unlooped graph.edges)) id id) →
        ∀ steps, .maxStepsExceeded steps ∉
          (pooFlowGraphRuntimeExecute graph policy).diagnostics) := by
  obtain ⟨legs, rest, last, finished, diagnostics, hlegs, hreceipt, hcontained, hsteps⟩ :=
    walked_pooFlowGraphRuntimeExecute graph policy
  refine ⟨legs, rest, ?_, fun hacyclic steps hmem => ?_⟩
  · rw [hreceipt]
    exact ⟨hlegs, rfl, hlegs.isChain, rfl, hcontained, hlegs.perm, hlegs.followed⟩
  · rw [hreceipt, maxStepsExceeded_mem_diagnostics] at hmem
    have hover := hsteps steps hmem
    -- as many legs as steps are more than fuel and edges allow
    have hlength := hlegs.length_le hacyclic
    have hahead : edgesAhead (·.fromId) (·.toId) (unlooped graph.edges) policy.entryId ≤
        graph.edges.length := (edgesAhead_le _).trans (length_filter_le _ _)
    have hloops : loopsTaken legs * (1 + graph.edges.length) ≤
        policy.fuel * (1 + graph.edges.length) :=
      Nat.mul_le_mul_right _ (by omega)
    rw [Nat.add_mul, Nat.one_mul] at hover
    omega

end

def twoLoops : PooFlowGraph ℕ where
  graphId := 0
  edges := [⟨1, 1, "self-loop"⟩, ⟨1, 2, "dependency"⟩, ⟨2, 2, "self-loop"⟩, ⟨2, 3, "dependency"⟩]

def onceEach : PooFlowGraphRuntimePolicy ℕ where
  name := "once-each"
  entryId := 1
  finishId := 3
  branchChoices := [⟨1, 1⟩, ⟨1, 2⟩, ⟨2, 2⟩, ⟨2, 3⟩]
  fuel := 2
  sandboxScopeContained := true
  toolPermissionsContained := true
  checkpointPersisted := true
  humanApprovalRequired := false
  humanApproved := false
  subagentsParented := true
  handoffRequired := false

/-- **Loops share their fuel**: what is left is not what each loop alone has left. -/
theorem loops_share_fuel :
    ¬∀ (graph : PooFlowGraph ℕ) (policy : PooFlowGraphRuntimePolicy ℕ), ∃ legs rest,
      Travelled graph policy (pooFlowGraphRuntimeExecute graph policy) legs rest ∧
        ∀ loop ∈ graph.edges, loop.IsLoop →
          (pooFlowGraphRuntimeExecute graph policy).fuelAfter =
            policy.fuel - legs.countP (·.edge = loop) := by
  intro hall
  obtain ⟨legs, rest, htravelled, hloops⟩ := hall twoLoops onceEach
  have hspent : (pooFlowGraphRuntimeExecute twoLoops onceEach).fuelAfter = 0 := by
    decide +kernel
  have hshared : ∀ legs : List (Leg ℕ),
      legs.countP (·.edge = ⟨1, 1, "self-loop"⟩) + legs.countP (·.edge = ⟨2, 2, "self-loop"⟩) ≤
        loopsTaken legs := by
    intro legs
    induction legs with
    | nil => exact Nat.le_refl _
    | cons leg legs ih =>
      rw [loopsTaken_cons, countP_cons, countP_cons]
      -- no edge is both loops
      have hone : ((if leg.edge = ⟨1, 1, "self-loop"⟩ then 1 else 0) +
          if leg.edge = ⟨2, 2, "self-loop"⟩ then 1 else 0) ≤ if leg.edge.IsLoop then 1 else 0 := by
        by_cases hfirst : leg.edge = ⟨1, 1, "self-loop"⟩
        · rw [hfirst]
          decide
        · rw [if_neg hfirst]
          by_cases hsecond : leg.edge = ⟨2, 2, "self-loop"⟩
          · rw [hsecond]
            decide
          · rw [if_neg hsecond]
            exact Nat.zero_le _
      simp only [decide_eq_true_eq]
      omega
  have hboth := htravelled.fuelAfter
  have hfirst := hloops ⟨1, 1, "self-loop"⟩ (by decide) (by decide)
  have hsecond := hloops ⟨2, 2, "self-loop"⟩ (by decide) (by decide)
  rw [hspent] at hboth hfirst hsecond
  have htwo := hshared legs
  have hfuel : onceEach.fuel = 2 := rfl
  omega

end PooFlow.Control
