import TwinWall.Audit.Moment
import TwinWall.Audit.RunId
import TwinWall.Json.Printer
import TwinWall.Json.Record
import TwinWall.Policy.Rule
import TwinWall.Text.Lines

/-! Events of the audit log: one for every operation that was run on the nodes or checked on this
machine. -/
namespace TwinWall
namespace Audit

open Json

inductive EventKind where
  | build
  | scrub
  | read
  | check
deriving DecidableEq, Repr

namespace EventKind

def all : List EventKind := [build, scrub, read, check]

def word : EventKind → String
  | build => "build"
  | scrub => "scrub"
  | read => "read"
  | check => "check"

def title : EventKind → String
  | build => "Build"
  | scrub => "Scrub"
  | read => "Read"
  | check => "Check"

end EventKind

/-- What an event tells, whenever and in whichever run it happened. -/
structure Report where
  kind : EventKind
  success : Bool
  details : Value
  error : Option String

structure Event where
  moment : Moment
  run : RunId
  report : Report

namespace Report

def targetDetails (t : Policy.Target) : List (String × Value) :=
  [("namespace", .string t.namespaceName), ("table", .string t.table),
    ("priority", .ofInt t.priority)]

def build (t : Policy.Target) (checksum : String) (error : Option String) (success : Bool) :
    Report :=
  ⟨.build, success, .record (targetDetails t ++ [("checksum", .string checksum)]), error⟩

def scrub (t : Policy.Target) (error : Option String) (success : Bool) : Report :=
  ⟨.scrub, success, .record (targetDetails t), error⟩

def read (t : Policy.Target) (differs success : Bool) : Report :=
  ⟨.read, success, .record (targetDetails t ++ [("differs", .bool differs)]), none⟩

def check (rules : Nat) (error : Option String) (success : Bool) : Report :=
  ⟨.check, success, .record [("rule_count", .ofNat rules)], error⟩

def fields (r : Report) : List (String × Value) :=
  [("event_type", .string r.kind.word), ("success", .bool r.success), ("details", r.details),
    ("error", match r.error with
      | some e => .string e
      | none => .null)]

/-- The target that the details name. -/
def targetText (r : Report) : String :=
  match (r.details.get? "namespace").bind Value.string?,
    (r.details.get? "table").bind Value.string? with
  | some n, some t => " " ++ n ++ "/" ++ t
  | _, _ => ""

end Report

namespace Event

/-- The record with its fields in their own order. -/
def toJson (e : Event) : Value :=
  .object (("timestamp", .string e.moment.text) :: ("run_id", .string e.run.text) ::
    e.report.fields)

/-- One line for the operator, with the first line of the error. -/
def summary (e : Event) : String :=
  e.moment.brief ++ " " ++ e.run.text ++ " " ++ e.report.kind.title ++ e.report.targetText ++
    " " ++ (if e.report.success then "ok" else "FAILED") ++
    match e.report.error with
    | some m => ": " ++ Text.firstLine m
    | none => ""

/-- Reads a text as something else, or says why it is none. -/
def parsed {α : Type} (expected reason : String) (f : String → Option α) : Reader α := fun s => do
  let (t, r) ← stringOf expected s
  match f t with
  | some x => .ok (x, r)
  | none => .error (.before (.unreadable reason) r)

def empty : Event := ⟨⟨⟨0, 1, 1⟩, 0, 0, 0⟩, 0, ⟨.build, false, .null, none⟩⟩

def kindWords : List (String × EventKind) := EventKind.all.map fun k => (k.word, k)

def fields : List (RecordField Event) :=
  [⟨"timestamp", fun _ st s =>
      (parsed "an RFC 3339 formatted date and time string" "input contains invalid characters"
        Moment.read? s).map fun p => ({ st with moment := p.1 }, p.2)⟩,
    ⟨"run_id", fun _ st s =>
      (parsed "a UUID string" "UUID parsing failed" RunId.read? s).map fun p =>
        ({ st with run := p.1 }, p.2)⟩,
    ⟨"event_type", fun d st s =>
      (wordOf kindWords d s).map fun p =>
        ({ st with report := { st.report with kind := p.1 } }, p.2)⟩,
    ⟨"success", fun _ st s =>
      (boolOf s).map fun p => ({ st with report := { st.report with success := p.1 } }, p.2)⟩,
    ⟨"details", fun d st s =>
      (value d s).map fun p => ({ st with report := { st.report with details := p.1 } }, p.2)⟩,
    ⟨"error", fun _ st s =>
      (optional (stringOf "a string") s).map fun p =>
        ({ st with report := { st.report with error := p.1 } }, p.2)⟩]

def required : List String := ["timestamp", "run_id", "event_type", "success", "details"]

def read (text : String) : Except Fault Event :=
  readAll (recordOf "struct AuditEvent" fields required empty depthLimit) text

end Event
end Audit
end TwinWall
