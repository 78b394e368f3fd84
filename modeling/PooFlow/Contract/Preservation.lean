import PooFlow.Contract.Meaning
import PooFlow.Contract.Resolution

namespace PooFlow.Contract

open JsonDatum Foundation List Option
open Prod (snd mk.inj)

variable {pregexp : String → Option (String → Bool)} {root : JsonDatum}

namespace JsonValue

variable {value : JsonValue}

end JsonValue

variable {value : JsonValue} {constraint : Constraint}

variable {nodes : List Node} {schemas : List JsonDatum} {p legible : JsonDatum → Prop}
  {datum : JsonDatum}

/-- What a union says of its schemas. -/
def LogicalKind.Holds (p : JsonDatum → Prop) (schemas : List JsonDatum) : LogicalKind → Prop
  | .anyOf => ∃ schema ∈ schemas, p schema
  | .allOf => ∀ schema ∈ schemas, p schema
  | .oneOf => ExactlyOne p schemas

/-- The schemas of a union, as far as they are walked. -/
def LogicalKind.Walked (p legible : JsonDatum → Prop) (schemas : List JsonDatum) :
    LogicalKind → Prop
  | .anyOf => Stepwise (¬p ·) legible schemas
  | .allOf => Stepwise p legible schemas
  | .oneOf => ∀ schema ∈ schemas, legible schema

variable {schema entries : List Row} {properties : List (Property Node)}
  {rows : List (String × JsonValue)} {accepts legible : JsonDatum → JsonValue → Prop}
  {patterns : List (PatternProperty Node)}

section

variable {propertyEntries patternEntries : List Row} {additional : Additional Node}
  {additionalSchema : JsonDatum}

end

variable {keyword : String} {datum : JsonDatum}

theorem Only.absent {keywords : List String} (honly : Only keywords schema)
    {p : Prop} (hvalue : objectRef schema keyword = some datum)
    (hmem : keyword ∈ assertions.filter (· ∉ keywords)) : p := by
  obtain ⟨hassertion, hother⟩ := mem_filter.1 hmem
  rw [honly keyword hassertion (by simpa using hother)] at hvalue
  cases hvalue

theorem Plain.absent (hplain : Plain schema) {p : Prop}
    (hvalue : objectRef schema keyword = some datum)
    (hmem : keyword ∈ ["$ref", "allOf", "anyOf", "oneOf", "not", "enum", "const"]) : p := by
  rw [hplain keyword hmem] at hvalue
  cases hvalue

theorem Only.constraints {keywords : List String} (honly : Only keywords schema)
    (hfree : ∀ keyword ∈ assertions.drop 13, keyword ∉ keywords) :
    schemaConstraints schema = [] := by
  rw [eq_nil_iff_forall_not_mem]
  rintro ⟨keyword, bound⟩ hmem
  obtain ⟨hkeyword, hbound⟩ := mem_constraintsOf.1 hmem
  have hdrop : keyword.name ∈ assertions.drop 13 := by
    cases keyword <;> first | decide | simp at hkeyword
  rw [honly _ (mem_of_mem_drop hdrop) (hfree _ hdrop)] at hbound
  cases hbound

section

variable {follow : String → JsonValue → Prop} {rows : List Row}

end

section

variable {references : List (String × Node)}

variable {schema : JsonDatum} {rows entries : List Row} {additional : JsonDatum}

variable {schemas : JsonDatum} {properties patterns : List Row}

variable {value : JsonValue}

end

variable {row : Row} {fuel : ℕ} {entries : List Row} {nodes : List (String × Node)} {name : String}
  {definitions : Parsed (List (String × Node))}

/-- Definitions and their nodes, name by name. -/
def Parsings (pregexp : String → Option (String → Bool)) (fuel : ℕ) (entries : List Row)
    (nodes : List (String × Node)) : Prop :=
  List.Forall₂ (fun (entry : Row) (item : String × Node) => item.1 = entry.1.keySymbol ∧
    ∃ diagnostics, parse pregexp fuel (pairEntryValue entry.2) = some (item.2, diagnostics))
    entries nodes

theorem Parsings.find (hparsings : Parsings pregexp fuel entries nodes)
    (hkeys : ∀ entry ∈ entries, entry.1.keyString = some entry.1.keySymbol)
    (hvalues : ∀ entry ∈ entries, pairEntryValue entry.2 = entry.2) {target : JsonDatum}
    (htarget : objectRef entries name = some target) :
    ∃ node diagnostics, nodes.find? (·.1 = name) = some (name, node) ∧
      parse pregexp fuel target = some (node, diagnostics) := by
  induction hparsings with
  | nil => cases htarget
  | @cons entry item entries nodes hitem _ ih =>
    obtain ⟨key, node⟩ := item
    obtain ⟨rfl, diagnostics, hparse⟩ := hitem
    have hkey := hkeys entry (by simp)
    by_cases hname : entry.1.keySymbol = name
    · obtain rfl : entry.2 = target := by simpa [objectRef, hkey, hname] using htarget
      rw [hvalues entry (by simp)] at hparse
      exact ⟨node, diagnostics, by simp [hname], hparse⟩
    · have hrest : objectRef entries name = some target := by
        simpa [objectRef, hkey, hname] using htarget
      obtain ⟨found, diagnostics, hfind, hfound⟩ :=
        ih (fun entry h => hkeys entry (by simp [h])) (fun entry h => hvalues entry (by simp [h]))
          hrest
      exact ⟨found, diagnostics, by simpa [hname] using hfind, hfound⟩

end PooFlow.Contract
