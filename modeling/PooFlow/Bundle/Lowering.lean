import PooFlow.Foundation.Memory
import PooFlow.Temporal.Types

namespace PooFlow.Bundle

open Foundation Temporal

section

/-- A semantic identity; `other` is anything but a symbol, a string or a
natural number. -/
inductive SemanticId where
  | symbol (name : String)
  | text (value : String)
  | integer (value : ℕ)
  | other

def validUint64 (value : ℕ) : Bool := value < wordLimit

def validSemanticId : SemanticId → Bool
  | .symbol _ => true
  | .text value => value ≠ ""
  | .integer value => validUint64 value
  | .other => false

def semanticIdString : SemanticId → String
  | .symbol name => "symbol:" ++ name
  | .text value => "string:" ++ value
  | .integer value => "integer:" ++ toString value
  | .other => ""

/-- `digest-segment->uint64`. -/
def digestSegment (digest : Digest) (start : ℕ) : ℕ :=
  ((digest.bytes.drop start).take 8).foldl
    (fun accumulator byte => (accumulator * 256 + byte.toNat) % wordLimit) 0

/-- `feature-bundle-v1-compact-id`. -/
structure NativeId where
  domain : String
  source : SemanticId
  high : ℕ
  low : ℕ

def canonicalIdentity (domain : String) (source : SemanticId) : String :=
  "poo-flow.bundle-v1.id/" ++ domain ++ "/" ++ semanticIdString source

variable (sha256 : Bytes → Digest)

/-- `feature-bundle-v1-lower-compact-id`, of a valid source. -/
def lowerCompactId (domain : String) (source : SemanticId) : NativeId :=
  let digest := sha256 (encodeText (canonicalIdentity domain source))
  ⟨domain, source, digestSegment digest 0, digestSegment digest 8⟩

structure SymbolValue where
  domain : String
  source : SemanticId
  value : String
  symbolKind : ℕ

structure ComponentValue where
  caseId : SemanticId
  componentId : SemanticId
  objectId : SemanticId
  typeId : SemanticId
  contractId : SemanticId
  roleId : SemanticId
  capabilityId : SemanticId
  policyId : SemanticId
  strategyId : SemanticId
  adapterId : SemanticId
  projectionId : SemanticId
  compositionOrder : ℕ

structure EdgeValue where
  caseId : SemanticId
  sourceComponentId : SemanticId
  targetComponentId : SemanticId
  relationId : SemanticId
  compositionOrder : ℕ

structure EvidenceValue where
  caseId : SemanticId
  obligationId : SemanticId
  contractId : SemanticId
  evidenceTypeId : SemanticId
  proofSystemId : SemanticId
  compositionOrder : ℕ

def validSymbol (value : SymbolValue) : Bool :=
  validSemanticId value.source && value.value ≠ "" && value.symbolKind < 65536

def validComponent (value : ComponentValue) : Bool :=
  [value.caseId, value.componentId, value.objectId, value.typeId, value.contractId, value.roleId,
    value.capabilityId, value.policyId, value.strategyId, value.adapterId,
    value.projectionId].all validSemanticId && validUint64 value.compositionOrder

def validEdge (value : EdgeValue) : Bool :=
  [value.caseId, value.sourceComponentId, value.targetComponentId, value.relationId].all
    validSemanticId && validUint64 value.compositionOrder

def validEvidence (value : EvidenceValue) : Bool :=
  [value.caseId, value.obligationId, value.contractId, value.evidenceTypeId,
    value.proofSystemId].all validSemanticId && validUint64 value.compositionOrder

structure NativeSymbol where
  id : NativeId
  byteOffset : ℕ
  byteLength : ℕ
  symbolKind : ℕ
  flags : ℕ
  valueBytes : Bytes

structure NativeComponent where
  caseId : NativeId
  componentId : NativeId
  objectId : NativeId
  typeId : NativeId
  contractId : NativeId
  roleId : NativeId
  capabilityId : NativeId
  policyId : NativeId
  strategyId : NativeId
  adapterId : NativeId
  projectionId : NativeId
  compositionOrder : ℕ
  flags : ℕ
  reserved0 : ℕ
  reserved1 : ℕ

structure NativeEdge where
  caseId : NativeId
  sourceComponentId : NativeId
  targetComponentId : NativeId
  relationId : NativeId
  compositionOrder : ℕ
  flags : ℕ
  reserved0 : ℕ

structure NativeEvidence where
  caseId : NativeId
  obligationId : NativeId
  contractId : NativeId
  evidenceTypeId : NativeId
  proofSystemId : NativeId
  compositionOrder : ℕ
  flags : ℕ
  reserved0 : ℕ

def componentEnabledFlag : ℕ := 1

def lowerComponent (value : ComponentValue) : NativeComponent where
  caseId := lowerCompactId sha256 "case" value.caseId
  componentId := lowerCompactId sha256 "component" value.componentId
  objectId := lowerCompactId sha256 "object" value.objectId
  typeId := lowerCompactId sha256 "type" value.typeId
  contractId := lowerCompactId sha256 "contract" value.contractId
  roleId := lowerCompactId sha256 "role" value.roleId
  capabilityId := lowerCompactId sha256 "capability" value.capabilityId
  policyId := lowerCompactId sha256 "policy" value.policyId
  strategyId := lowerCompactId sha256 "strategy" value.strategyId
  adapterId := lowerCompactId sha256 "adapter" value.adapterId
  projectionId := lowerCompactId sha256 "projection" value.projectionId
  compositionOrder := value.compositionOrder
  flags := componentEnabledFlag
  reserved0 := 0
  reserved1 := 0

def lowerSymbol (value : SymbolValue) : NativeSymbol where
  id := lowerCompactId sha256 value.domain value.source
  byteOffset := 0
  byteLength := (encodeText value.value).length
  symbolKind := value.symbolKind
  flags := 0
  valueBytes := encodeText value.value

def lowerEdge (value : EdgeValue) : NativeEdge where
  caseId := lowerCompactId sha256 "case" value.caseId
  sourceComponentId := lowerCompactId sha256 "component" value.sourceComponentId
  targetComponentId := lowerCompactId sha256 "component" value.targetComponentId
  relationId := lowerCompactId sha256 "relation" value.relationId
  compositionOrder := value.compositionOrder
  flags := 0
  reserved0 := 0

def lowerEvidence (value : EvidenceValue) : NativeEvidence where
  caseId := lowerCompactId sha256 "case" value.caseId
  obligationId := lowerCompactId sha256 "obligation" value.obligationId
  contractId := lowerCompactId sha256 "contract" value.contractId
  evidenceTypeId := lowerCompactId sha256 "evidence-type" value.evidenceTypeId
  proofSystemId := lowerCompactId sha256 "proof-system" value.proofSystemId
  compositionOrder := value.compositionOrder
  flags := 0
  reserved0 := 0

def assignSymbolOffsets (values : List NativeSymbol) : List NativeSymbol :=
  (values.foldl (fun state value =>
    (state.1 + value.byteLength, { value with byteOffset := state.1 } :: state.2))
    (0, [])).2.reverse

end

def compareCompactIds (left right : NativeId) : Ordering :=
  if left.high < right.high ∨ left.high = right.high ∧ left.low < right.low then .lt
  else if left.high = right.high ∧ left.low = right.low then .eq
  else .gt

def compareIntegers (left right : ℕ) : Ordering :=
  if left < right then .lt else if left > right then .gt else .eq

def firstNonzeroComparison (comparisons : List Ordering) : Ordering :=
  (comparisons.find? (· ≠ .eq)).getD .eq

def compareSymbolRows (left right : NativeSymbol) : Ordering :=
  compareCompactIds left.id right.id

def compareComponentRows (left right : NativeComponent) : Ordering :=
  let caseOrder := compareCompactIds left.caseId right.caseId
  if caseOrder = .eq then compareCompactIds left.componentId right.componentId else caseOrder

def compareEdgeRows (left right : NativeEdge) : Ordering :=
  firstNonzeroComparison
    [compareCompactIds left.caseId right.caseId,
      compareCompactIds left.sourceComponentId right.sourceComponentId,
      compareIntegers left.compositionOrder right.compositionOrder,
      compareCompactIds left.targetComponentId right.targetComponentId,
      compareCompactIds left.relationId right.relationId]

def compareEvidenceRows (left right : NativeEvidence) : Ordering :=
  let caseOrder := compareCompactIds left.caseId right.caseId
  if caseOrder = .eq then compareCompactIds left.obligationId right.obligationId else caseOrder

def strictlyOrdered {ρ : Type} (compare : ρ → ρ → Ordering) : List ρ → Bool
  | [] => true
  | [_] => true
  | first :: second :: rest =>
    compare first second = .lt && strictlyOrdered compare (second :: rest)

/-- `list-sort`: a stable sort by a strict comparison. -/
def sortRows {ρ : Type} (compare : ρ → ρ → Ordering) (rows : List ρ) : List ρ :=
  rows.insertionSort fun left right => compare right left ≠ .lt

def alignUp (value alignment : ℕ) : ℕ :=
  (value + (alignment - 1)) / alignment * alignment

/-- `feature-bundle-v1-region`. -/
structure NativeRegion where
  name : String
  offset : ℕ
  length : ℕ
  stride : ℕ
  alignment : ℕ
  count : ℕ

def makeRegion (name : String) (offset count stride alignment : ℕ) : NativeRegion :=
  ⟨name, offset, count * stride, stride, alignment, count⟩

def NativeId.canonical (value : NativeId) : Datum :=
  .list [.integer value.high, .integer value.low]

def NativeComponent.canonical (value : NativeComponent) : Datum :=
  .list [value.caseId.canonical, value.componentId.canonical, value.objectId.canonical,
    value.typeId.canonical, value.contractId.canonical, value.roleId.canonical,
    value.capabilityId.canonical, value.policyId.canonical, value.strategyId.canonical,
    value.adapterId.canonical, value.projectionId.canonical, .integer value.compositionOrder,
    .integer value.flags, .integer value.reserved0, .integer value.reserved1]

def NativeSymbol.canonical (value : NativeSymbol) : Datum :=
  .list [value.id.canonical, .integer value.byteOffset, .integer value.byteLength,
    .integer value.symbolKind, .integer value.flags,
    .list (value.valueBytes.map fun byte => .integer byte.toNat)]

def NativeEdge.canonical (value : NativeEdge) : Datum :=
  .list [value.caseId.canonical, value.sourceComponentId.canonical,
    value.targetComponentId.canonical, value.relationId.canonical,
    .integer value.compositionOrder, .integer value.flags, .integer value.reserved0]

def NativeEvidence.canonical (value : NativeEvidence) : Datum :=
  .list [value.caseId.canonical, value.obligationId.canonical, value.contractId.canonical,
    value.evidenceTypeId.canonical, value.proofSystemId.canonical,
    .integer value.compositionOrder, .integer value.flags, .integer value.reserved0]

/-- `feature-bundle-v1-descriptor`. -/
structure NativeDescriptor where
  structSize : ℕ
  flags : ℕ
  schemaMajor : ℕ
  schemaMinor : ℕ
  reserved0 : ℕ
  bundleId : NativeId
  digest : Digest
  bundleEpoch : ℕ
  arenaBytes : ℕ
  symbols : NativeRegion
  components : NativeRegion
  edges : NativeRegion
  evidenceObligations : NativeRegion
  metadataBytes : NativeRegion
  reserved : List ℕ
  symbolRows : List NativeSymbol
  metadataImage : Bytes
  componentRows : List NativeComponent
  edgeRows : List NativeEdge
  evidenceRows : List NativeEvidence

variable (sha256 : Bytes → Digest) (write : Datum → String)

def bundleDigest (bundleId : NativeId) (symbols : List NativeSymbol)
    (components : List NativeComponent) (edges : List NativeEdge)
    (evidence : List NativeEvidence) : Digest :=
  sha256 (encodeText (write (.list [.symbol "poo-flow.bundle.1", bundleId.canonical,
    .list (symbols.map NativeSymbol.canonical), .list (components.map NativeComponent.canonical),
    .list (edges.map NativeEdge.canonical), .list (evidence.map NativeEvidence.canonical)])))

def symbolMetadataImage (symbols : List NativeSymbol) : Bytes :=
  symbols.foldr (fun symbol bytes => symbol.valueBytes ++ bytes) []

def rowAlignment : ℕ := 8

def arenaAlignment : ℕ := 64

def buildDescriptor (bundleId : NativeId) (bundleEpoch : ℕ) (symbols : List NativeSymbol)
    (components : List NativeComponent) (edges : List NativeEdge)
    (evidence : List NativeEvidence) : NativeDescriptor :=
  let metadataImage := symbolMetadataImage symbols
  let symbolRegion := makeRegion "symbols" 0 symbols.length 32 rowAlignment
  let componentOffset := alignUp symbolRegion.length rowAlignment
  let componentRegion :=
    makeRegion "components" componentOffset components.length 200 rowAlignment
  let edgeOffset := alignUp (componentOffset + componentRegion.length) rowAlignment
  let edgeRegion := makeRegion "edges" edgeOffset edges.length 80 rowAlignment
  let evidenceOffset := alignUp (edgeOffset + edgeRegion.length) rowAlignment
  let evidenceRegion :=
    makeRegion "evidence-obligations" evidenceOffset evidence.length 96 rowAlignment
  -- the metadata follows the evidence directly
  let metadataOffset := evidenceOffset + evidenceRegion.length
  let metadata := makeRegion "metadata-bytes" metadataOffset metadataImage.length 1 1
  let arenaBytes := max arenaAlignment (alignUp (metadataOffset + metadata.length) arenaAlignment)
  { structSize := 256
    flags := 3
    schemaMajor := 1
    schemaMinor := 0
    reserved0 := 0
    bundleId := bundleId
    digest := bundleDigest sha256 write bundleId symbols components edges evidence
    bundleEpoch := bundleEpoch
    arenaBytes := arenaBytes
    symbols := symbolRegion
    components := componentRegion
    edges := edgeRegion
    evidenceObligations := evidenceRegion
    metadataBytes := metadata
    reserved := [0, 0, 0, 0, 0, 0, 0]
    symbolRows := symbols
    metadataImage := metadataImage
    componentRows := components
    edgeRows := edges
    evidenceRows := evidence }

/-- `feature-bundle-v1-diagnostic`. -/
structure Diagnostic where
  code : String
  subject : SemanticId
  detail : String

/-- `feature-bundle-v1-lowering/with-symbols`, with the diagnostic of a rejected plan. -/
def loweringWithSymbols (bundleId : SemanticId) (bundleEpoch : ℕ) (symbols : List SymbolValue)
    (components : List ComponentValue) (edges : List EdgeValue) (evidence : List EvidenceValue) :
    Except Diagnostic NativeDescriptor := do
  guardElse (validSemanticId bundleId)
    ⟨"invalid-bundle-id", bundleId, "expected-nonempty-symbol-string-or-uint64"⟩
  guardElse (validUint64 bundleEpoch) ⟨"invalid-bundle-epoch", bundleId, "expected-uint64"⟩
  guardElse (symbols.all validSymbol) ⟨"invalid-symbol", bundleId, "expected-poo-native-symbol"⟩
  guardElse (components.all validComponent)
    ⟨"invalid-component", bundleId, "expected-poo-native-component"⟩
  guardElse (edges.all validEdge) ⟨"invalid-edge", bundleId, "expected-poo-native-edge"⟩
  guardElse (evidence.all validEvidence)
    ⟨"invalid-evidence", bundleId, "expected-poo-native-evidence"⟩
  let loweredSymbols := sortRows compareSymbolRows (symbols.map (lowerSymbol sha256))
  let nativeSymbols := assignSymbolOffsets loweredSymbols
  let nativeComponents := sortRows compareComponentRows (components.map (lowerComponent sha256))
  let nativeEdges := sortRows compareEdgeRows (edges.map (lowerEdge sha256))
  let nativeEvidence := sortRows compareEvidenceRows (evidence.map (lowerEvidence sha256))
  -- after the sort, two rows with one key are neighbours
  guardElse (strictlyOrdered compareSymbolRows nativeSymbols)
    ⟨"duplicate-symbol-key", bundleId, "symbol-ids-must-be-unique"⟩
  guardElse (strictlyOrdered compareComponentRows nativeComponents)
    ⟨"duplicate-component-key", bundleId, "case-id-and-component-id-must-be-unique"⟩
  guardElse (strictlyOrdered compareEdgeRows nativeEdges)
    ⟨"duplicate-edge-key", bundleId, "edge-key-must-be-unique"⟩
  guardElse (strictlyOrdered compareEvidenceRows nativeEvidence)
    ⟨"duplicate-evidence-key", bundleId, "case-id-and-obligation-id-must-be-unique"⟩
  return buildDescriptor sha256 write (lowerCompactId sha256 "bundle" bundleId) bundleEpoch
    nativeSymbols nativeComponents nativeEdges nativeEvidence

end PooFlow.Bundle
