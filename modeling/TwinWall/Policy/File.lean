import TwinWall.Json.Record
import TwinWall.Policy.Batch

/-! A policy file holds one record. Entries are kept as they are, whatever their form. -/
namespace TwinWall
namespace Policy

open Json

def actionWords : List (String × Action) := Action.all.map fun a => (a.text, a)

def defaultsFields : List (RecordField Defaults) :=
  [⟨"input", fun d st s => (wordOf actionWords d s).map fun p => ({ st with input := p.1 }, p.2)⟩,
    ⟨"forward", fun d st s =>
      (wordOf actionWords d s).map fun p => ({ st with forward := p.1 }, p.2)⟩,
    ⟨"output", fun d st s =>
      (wordOf actionWords d s).map fun p => ({ st with output := p.1 }, p.2)⟩]

def readDefaults (depth : Nat) : Reader Defaults :=
  recordOf "struct ChainPolicies" defaultsFields [] {} depth

namespace Spec

def fields : List (RecordField Spec) :=
  [⟨"rules", fun d st s => (listOf value d s).map fun p => ({ st with rules := p.1 }, p.2)⟩,
    ⟨"sets", fun d st s => (listOf value d s).map fun p => ({ st with sets := p.1 }, p.2)⟩,
    ⟨"nats", fun d st s => (listOf value d s).map fun p => ({ st with mappings := p.1 }, p.2)⟩,
    ⟨"policies", fun d st s => (readDefaults d s).map fun p => ({ st with defaults := p.1 }, p.2)⟩]

def read (text : String) : Except Fault Spec :=
  readAll (recordOf "struct PolicySpec" fields [] {} depthLimit) text

end Spec

def Defaults.toJson (d : Defaults) : Value :=
  .object [("input", .string d.input.text), ("forward", .string d.forward.text),
    ("output", .string d.output.text)]

/-- The record with its fields in their own order. -/
def Spec.toJson (s : Spec) : Value :=
  .object [("rules", .array s.rules), ("sets", .array s.sets), ("nats", .array s.mappings),
    ("policies", s.defaults.toJson)]

end Policy
end TwinWall
