import PooFlow.Foundation.Sorting
import Mathlib.Data.Finset.Dedup
import Mathlib.Data.String.Basic

/-! `organization-bundle.ss`: canonical form and validation. Ids are values of any type; how they
are written, and the digest, are given. -/

namespace PooFlow.Semantic

open Foundation

def bundleSchema : String := "poo-flow.organization-bundle.draft.3"

def facetSchema : String := "poo-flow.organization-facet.draft.3"

def digestAlgorithm : String := "sha256"

inductive Datum (Id : Type) where
  | id (value : Id)
  | symbol (name : String)
  | text (value : String)
  | boolean (value : Bool)
  | number (value : ℤ)
  | list (items : List (Datum Id))

mutual

def Datum.equal {Id : Type} [DecidableEq Id] : Datum Id → Datum Id → Bool
  | .id value, .id value' => value = value'
  | .symbol name, .symbol name' => name = name'
  | .text value, .text value' => value = value'
  | .boolean value, .boolean value' => value = value'
  | .number value, .number value' => value = value'
  | .list items, .list items' => Datum.equalItems items items'
  | _, _ => false

def Datum.equalItems {Id : Type} [DecidableEq Id] : List (Datum Id) → List (Datum Id) → Bool
  | [], [] => true
  | item :: items, item' :: items' => Datum.equal item item' && Datum.equalItems items items'
  | _, _ => false

end

section

variable (Id : Type)

/-- `poo-flow-organization-agent`; a root has no parent. -/
structure Agent where
  id : Id
  principalId : Id
  roleId : Id
  parentId : Option Id
  authorities : List Id
  contextVisible : List Id

/-- `poo-flow-organization-capability`. -/
structure Capability where
  id : Id
  delegable : Bool

/-- `poo-flow-organization-delegation`. -/
structure Delegation where
  parentId : Id
  childId : Id
  capabilityId : Id
deriving DecidableEq

/-- `poo-flow-organization-context-projection`, whose id is that of its agent. -/
structure ContextProjection where
  agentId : Id
  visible : List Id

/-- `poo-flow-organization-tool-effect`. -/
structure ToolEffect where
  id : Id
  capabilityId : Id
  effectKind : Id

/-- `poo-flow-organization-protocol-transition`. -/
structure ProtocolTransition where
  id : Id
  participants : List Id
  capabilityId : Id

/-- `poo-flow-organization-evidence-obligation`. -/
structure EvidenceObligation where
  id : Id
  subjectId : Id
  targetKind : String
  targetId : Id

inductive Member where
  | principal (id : Id)
  | role (id : Id)
  | agent (value : Agent Id)
  | capability (value : Capability Id)
  | delegation (value : Delegation Id)
  | contextProjection (value : ContextProjection Id)
  | toolEffect (value : ToolEffect Id)
  | protocolTransition (value : ProtocolTransition Id)
  | evidenceObligation (value : EvidenceObligation Id)
  | other (id : Id)

/-- `poo-flow-organization-facet`. -/
structure Facet where
  schema : String
  facetName : String
  entities : List (Member Id)
  relations : List (Member Id)
  constraints : List Id

/-- `poo-flow-organization-bundle`. -/
structure Bundle where
  epoch : Datum Id
  organization : Facet Id
  authority : Facet Id
  context : Facet Id
  protocol : Facet Id
  evidence : Facet Id

end

variable {Id : Type}

namespace Member

def objectId : Member Id → Datum Id
  | .principal id => .id id
  | .role id => .id id
  | .agent value => .id value.id
  | .capability value => .id value.id
  | .delegation value => .list [.id value.parentId, .id value.childId, .id value.capabilityId]
  | .contextProjection value => .id value.agentId
  | .toolEffect value => .id value.id
  | .protocolTransition value => .id value.id
  | .evidenceObligation value => .id value.id
  | .other id => .id id

def principal? : Member Id → Option Id
  | .principal id => some id
  | _ => none

def role? : Member Id → Option Id
  | .role id => some id
  | _ => none

def agent? : Member Id → Option (Agent Id)
  | .agent value => some value
  | _ => none

def capability? : Member Id → Option (Capability Id)
  | .capability value => some value
  | _ => none

def delegation? : Member Id → Option (Delegation Id)
  | .delegation value => some value
  | _ => none

def contextProjection? : Member Id → Option (ContextProjection Id)
  | .contextProjection value => some value
  | _ => none

def toolEffect? : Member Id → Option (ToolEffect Id)
  | .toolEffect value => some value
  | _ => none

def protocolTransition? : Member Id → Option (ProtocolTransition Id)
  | .protocolTransition value => some value
  | _ => none

def evidenceObligation? : Member Id → Option (EvidenceObligation Id)
  | .evidenceObligation value => some value
  | _ => none

end Member

namespace Bundle

variable (bundle : Bundle Id)

def principals : List Id := bundle.organization.entities.filterMap Member.principal?

def roles : List Id := bundle.organization.entities.filterMap Member.role?

def agents : List (Agent Id) := bundle.organization.entities.filterMap Member.agent?

def capabilities : List (Capability Id) := bundle.authority.entities.filterMap Member.capability?

def delegations : List (Delegation Id) := bundle.authority.relations.filterMap Member.delegation?

def contexts : List (ContextProjection Id) :=
  bundle.context.entities.filterMap Member.contextProjection?

def effects : List (ToolEffect Id) := bundle.protocol.entities.filterMap Member.toolEffect?

def transitions : List (ProtocolTransition Id) :=
  bundle.protocol.entities.filterMap Member.protocolTransition?

def obligations : List (EvidenceObligation Id) :=
  bundle.evidence.entities.filterMap Member.evidenceObligation?

def roots : List (Agent Id) := bundle.agents.filter fun agent => agent.parentId.isNone

def children : List (Agent Id) := bundle.agents.filter fun agent => agent.parentId.isSome

end Bundle

/-- How ids are written: `semantic-id-string`, whether a value is written in one way
only, and the hexadecimal SHA-256 of a written value. -/
structure Writing (Id : Type) where
  idString : Datum Id → String
  stable : Id → Bool
  digest : Datum Id → String

inductive Unsupported (Id : Type) where
  | entity (value : Member Id)
  | relation (value : Member Id)

section

variable (writing : Writing Id)

def semanticSort (members : List (Member Id)) : List (Member Id) :=
  sortOn (fun member => writing.idString member.objectId) members

def semanticSymbolSort (values : List Id) : List (Datum Id) :=
  (sortOn (fun value => writing.idString (.id value)) values).map .id

def field (name : String) (value : Datum Id) : Datum Id := .list [.symbol name, value]

def sortedField (name : String) (values : List Id) : Datum Id :=
  .list (.symbol name :: semanticSymbolSort writing values)

def entityCanonical : Member Id → Except (Unsupported Id) (Datum Id)
  | .principal id => .ok (.list [.symbol "principal", .id id])
  | .role id => .ok (.list [.symbol "role", .id id])
  | .agent value => .ok (.list [.symbol "agent", .id value.id,
      field "principal" (.id value.principalId), field "role" (.id value.roleId),
      field "parent" (value.parentId.elim (.boolean false) .id),
      sortedField writing "authorities" value.authorities,
      sortedField writing "context-visible" value.contextVisible])
  | .capability value => .ok (.list [.symbol "capability", .id value.id,
      field "delegable?" (.boolean value.delegable)])
  | .contextProjection value => .ok (.list [.symbol "context-projection",
      field "agent" (.id value.agentId), sortedField writing "visible" value.visible])
  | .toolEffect value => .ok (.list [.symbol "tool-effect", .id value.id,
      field "capability" (.id value.capabilityId), field "effect-kind" (.id value.effectKind)])
  | .protocolTransition value => .ok (.list [.symbol "protocol-transition", .id value.id,
      sortedField writing "participants" value.participants,
      field "capability" (.id value.capabilityId)])
  | .evidenceObligation value => .ok (.list [.symbol "evidence-obligation", .id value.id,
      field "subject" (.id value.subjectId), field "target-kind" (.symbol value.targetKind),
      field "target" (.id value.targetId)])
  | .delegation value => .error (.entity (.delegation value))
  | .other id => .error (.entity (.other id))

/-- `delegation->canonical`. -/
def relationCanonical : Member Id → Except (Unsupported Id) (Datum Id)
  | .delegation value => .ok (.list [.symbol "delegation", field "parent" (.id value.parentId),
      field "child" (.id value.childId), field "capability" (.id value.capabilityId)])
  | value => .error (.relation value)

def facetCanonical (facet : Facet Id) : Except (Unsupported Id) (Datum Id) := do
  let entities ← (semanticSort writing facet.entities).mapM (entityCanonical writing)
  let relations ← (semanticSort writing facet.relations).mapM relationCanonical
  return .list [.symbol facet.facetName, field "schema" (.symbol facet.schema),
    .list (.symbol "entities" :: entities), .list (.symbol "relations" :: relations),
    sortedField writing "constraints" facet.constraints]

def outcomes : List String :=
  ["outcomes", "start", "allow", "deny", "timeout", "retry", "cancellation", "checkpoint",
    "restore", "stale-epoch", "evidence"]

/-- `poo-flow-organization-bundle-normalize/object`. -/
def Bundle.normalize (bundle : Bundle Id) : Except (Unsupported Id) (Datum Id) := do
  let organization ← facetCanonical writing bundle.organization
  let authority ← facetCanonical writing bundle.authority
  let context ← facetCanonical writing bundle.context
  let protocol ← facetCanonical writing bundle.protocol
  let evidence ← facetCanonical writing bundle.evidence
  return .list [.symbol bundleSchema, field "epoch" bundle.epoch, organization, authority,
    context, protocol, evidence, .list (outcomes.map .symbol)]

mutual

def stableSemanticValue : Datum Id → Bool
  | .id value => writing.stable value
  | .symbol _ => true
  | .text _ => true
  | .boolean _ => true
  | .number _ => true
  | .list items => stableSemanticValues items

def stableSemanticValues : List (Datum Id) → Bool
  | [] => true
  | item :: items => stableSemanticValue item && stableSemanticValues items

end

end

/-- `poo-flow.organization-bundle.identity.v1`. -/
structure Identity (Id : Type) where
  algorithm : String
  digest : String
  epoch : Datum Id

section

variable [DecidableEq Id]

structure Diagnostic (Id : Type) where
  code : String
  path : List (Datum Id)
  expected : Datum Id
  observed : Datum Id

/-- `reject!` when the check does not hold. -/
def unlessHolds (p : Prop) [Decidable p] (code : String) (path : List (Datum Id))
    (expected observed : Datum Id) : List (Diagnostic Id) :=
  if p then [] else [⟨code, path, expected, observed⟩]

def semanticSubset (child parent : List Id) : Bool := child.all fun value => value ∈ parent

def semanticUniqueCount {α : Type} [DecidableEq α] (values : List α) : ℕ := values.dedup.length

def semanticProperSubset (child parent : List Id) : Bool :=
  semanticSubset child parent && decide (semanticUniqueCount child < semanticUniqueCount parent)

/-- `poo-flow-semantic-adjacent-duplicate-identities`. -/
def adjacentDuplicates : List Id → List Id
  | first :: second :: rest =>
    if first = second then second :: adjacentDuplicates (second :: rest)
    else adjacentDuplicates (second :: rest)
  | _ => []

variable (writing : Writing Id) (bundle : Bundle Id)

def semanticDuplicateIds (ids : List Id) : List Id :=
  adjacentDuplicates (sortOn (fun id => writing.idString (.id id)) ids)

def facetDiagnostics : List (Diagnostic Id) :=
  [("organization", bundle.organization), ("authority", bundle.authority),
    ("context", bundle.context), ("protocol", bundle.protocol),
    ("evidence", bundle.evidence)].flatMap fun entry =>
      unlessHolds (entry.2.schema = facetSchema ∧ entry.2.facetName = entry.1) "invalid-facet"
        [.symbol "facets", .symbol entry.1] (.symbol "typed-facet") (.symbol "invalid")

def epochDiagnostics : List (Diagnostic Id) :=
  match bundle.epoch with
  | .number epoch => unlessHolds (0 ≤ epoch) "invalid-epoch" [.symbol "epoch"]
      (.symbol "nonnegative-integer") (.symbol "invalid")
  | _ => [⟨"invalid-epoch", [.symbol "epoch"], .symbol "nonnegative-integer", .symbol "invalid"⟩]

def memberDiagnostics : List (Diagnostic Id) :=
  [("principals", bundle.principals), ("roles", bundle.roles),
    ("agents", bundle.agents.map Agent.id), ("capabilities", bundle.capabilities.map Capability.id),
    ("context-projections", bundle.contexts.map ContextProjection.agentId),
    ("tool-effects", bundle.effects.map ToolEffect.id)].flatMap fun entry =>
      unlessHolds (entry.2 ≠ []) "missing-members" [.symbol entry.1] (.symbol "nonempty")
        (.symbol "empty") ++
      (semanticDuplicateIds writing entry.2).map fun id =>
        ⟨"duplicate-identity", [.symbol entry.1, .id id], .symbol "unique", .symbol "duplicate"⟩

def Bundle.universe : List (Id × String) :=
  bundle.principals.map (·, "principal") ++ bundle.roles.map (·, "role") ++
    bundle.agents.map (fun agent => (agent.id, "agent")) ++
    bundle.capabilities.map (fun capability => (capability.id, "capability")) ++
    bundle.effects.map (fun effect => (effect.id, "tool-effect")) ++
    bundle.transitions.map (fun transition => (transition.id, "protocol-transition")) ++
    bundle.obligations.map fun obligation => (obligation.id, "evidence-obligation")

def kindDiagnostics : List (Diagnostic Id) :=
  (semanticDuplicateIds writing (bundle.universe.map Prod.fst)).flatMap fun id =>
    let kinds := (bundle.universe.filter (·.1 = id)).map Prod.snd
    unlessHolds (¬1 < semanticUniqueCount kinds) "incompatible-shared-identity"
      [.symbol "identity-universe", .id id] (.symbol "one-kind") (.list (kinds.map .symbol))

def agentDiagnostics : List (Diagnostic Id) :=
  bundle.agents.flatMap fun agent =>
    unlessHolds (agent.principalId ∈ bundle.principals) "missing-principal"
      [.symbol "agents", .id agent.id, .symbol "principal"] (.symbol "declared")
      (.id agent.principalId) ++
    unlessHolds (agent.roleId ∈ bundle.roles) "missing-role"
      [.symbol "agents", .id agent.id, .symbol "role"] (.symbol "declared") (.id agent.roleId)

def Bundle.context? (id : Id) : Option (ContextProjection Id) :=
  bundle.contexts.find? fun context => context.agentId = id

def hierarchyDiagnostics (parent child : Agent Id) : List (Diagnostic Id) :=
  unlessHolds (child.parentId = some parent.id) "invalid-parent-binding"
    [.symbol "agents", .id child.id, .symbol "parent"] (.id parent.id)
    (child.parentId.elim (.boolean false) .id) ++
  unlessHolds (semanticProperSubset child.authorities parent.authorities = true)
    "authority-not-strict-subset" [.symbol "agents", .id child.id, .symbol "authorities"]
    (.symbol "strict-subset") (.list (child.authorities.map .id)) ++
  (match bundle.context? child.id with
  | none => [⟨"missing-context-projection", [.symbol "context-projections", .id child.id],
      .symbol "declared", .symbol "missing"⟩]
  | some context => unlessHolds (semanticSubset context.visible parent.contextVisible = true)
      "context-visibility-leak" [.symbol "context-projections", .id child.id, .symbol "visible"]
      (.symbol "parent-visible-subset") (.list (context.visible.map .id))) ++
  child.authorities.flatMap fun authority =>
    unlessHolds (⟨parent.id, child.id, authority⟩ ∈ bundle.delegations) "undelegated-authority"
      [.symbol "agents", .id child.id, .symbol "authorities", .id authority]
      (.symbol "explicit-delegation") (.symbol "missing")

def rootDiagnostics : List (Diagnostic Id) :=
  unlessHolds (bundle.roots.length = 1) "invalid-root-count" [.symbol "agents"] (.number 1)
    (.number bundle.roots.length) ++
  unlessHolds (bundle.children.length = 1) "invalid-child-count" [.symbol "agents"] (.number 1)
    (.number bundle.children.length) ++
  match bundle.roots, bundle.children with
  | [parent], [child] => hierarchyDiagnostics bundle parent child
  | _, _ => []

def effectDiagnostics : List (Diagnostic Id) :=
  bundle.effects.flatMap fun effect =>
    unlessHolds (effect.capabilityId ∈ bundle.capabilities.map Capability.id)
      "undeclared-tool-effect" [.symbol "tool-effects", .id effect.id, .symbol "capability"]
      (.symbol "declared") (.id effect.capabilityId)

def transitionDiagnostics : List (Diagnostic Id) :=
  bundle.transitions.flatMap fun transition =>
    (transition.participants.flatMap fun participant =>
      unlessHolds (participant ∈ bundle.agents.map Agent.id) "missing-protocol-participant"
        [.symbol "protocol", .id transition.id, .symbol "participants", .id participant]
        (.symbol "declared-agent") (.id participant)) ++
    unlessHolds (transition.capabilityId ∈ bundle.capabilities.map Capability.id)
      "unauthorized-protocol-capability" [.symbol "protocol", .id transition.id,
        .symbol "capability"] (.symbol "declared-capability") (.id transition.capabilityId)

def Bundle.targets (targetKind : String) : List Id :=
  if targetKind = "transition" then bundle.transitions.map ProtocolTransition.id
  else if targetKind = "effect" then bundle.effects.map ToolEffect.id
  else if targetKind = "subject" then bundle.agents.map Agent.id
  else []

def obligationDiagnostics : List (Diagnostic Id) :=
  bundle.obligations.flatMap fun obligation =>
    unlessHolds (obligation.subjectId ∈ bundle.agents.map Agent.id) "missing-evidence-subject"
      [.symbol "evidence", .id obligation.id, .symbol "subject"] (.symbol "declared-agent")
      (.id obligation.subjectId) ++
    unlessHolds (obligation.targetId ∈ bundle.targets obligation.targetKind)
      "missing-evidence-target" [.symbol "evidence", .id obligation.id, .symbol "target"]
      (.symbol obligation.targetKind) (.id obligation.targetId)

/-- `poo-flow-organization-bundle-identity` of a canonical form. -/
def identityOf (canonical : Datum Id) : Identity Id :=
  ⟨digestAlgorithm, writing.digest canonical, bundle.epoch⟩

def identityAlist (identity : Identity Id) : Datum Id :=
  .list [.list [.symbol "algorithm", .symbol identity.algorithm],
    .list [.symbol "digest", .text identity.digest], .list [.symbol "epoch", identity.epoch]]

def identityDiagnostics (canonical : Datum Id) (identity : Identity Id) : List (Diagnostic Id) :=
  unlessHolds (stableSemanticValue writing canonical = true) "unstable-semantic-value"
    [.symbol "bundle"] (.symbol "canonical") (.symbol "unstable") ++
  unlessHolds (identity.algorithm = digestAlgorithm ∧
      identity.digest = writing.digest canonical ∧
      identity.epoch.equal bundle.epoch = true) "bundle-identity-mismatch" [.symbol "identity"]
    (identityAlist (identityOf writing bundle canonical)) (identityAlist identity)

/-- `poo-flow.organization-bundle.validation-receipt.v1`. -/
structure Receipt (Id : Type) where
  identity : Option (Identity Id)
  accepted : Bool
  diagnostics : List (Diagnostic Id)

/-- `poo-flow-organization-bundle-validate/unsafe`; without an identity, that of the
bundle is taken. -/
def Bundle.validateUnsafe (identity : Option (Identity Id)) :
    Except (Unsupported Id) (Receipt Id) := do
  let canonical ← bundle.normalize writing
  let identity := identity.getD (identityOf writing bundle canonical)
  let diagnostics := facetDiagnostics bundle ++ epochDiagnostics bundle ++
    memberDiagnostics writing bundle ++ kindDiagnostics writing bundle ++
    agentDiagnostics bundle ++ rootDiagnostics bundle ++ effectDiagnostics bundle ++
    transitionDiagnostics bundle ++ obligationDiagnostics bundle ++
    identityDiagnostics writing bundle canonical identity
  return ⟨some identity, diagnostics.isEmpty, diagnostics⟩

def Bundle.validate (identity : Option (Identity Id)) : Receipt Id :=
  match bundle.validateUnsafe writing identity with
  | .ok receipt => receipt
  | .error _ => ⟨none, false, [⟨"unstable-semantic-value", [.symbol "bundle"],
      .symbol "canonical", .symbol "unstable"⟩]⟩

end

end PooFlow.Semantic
