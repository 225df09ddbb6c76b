import TwinWall.Audit.Log
import TwinWall.Proofs.Audit.Stamps
import TwinWall.Proofs.Json.Compact
import TwinWall.Proofs.Json.RecordText
import TwinWall.Proofs.Text.Endings

/-! Events that are written as one line and read back. -/
namespace TwinWall
namespace Audit
namespace Event

open Json MemberText

/-- The events there are. Their details have whole numbers of 64 bits only, and are nested so deep at most
that they can be read. -/
structure Valid (e : Event) : Prop where
  moment : e.moment.Valid
  details : Plain (depthLimit - 1) e.report.details

/-- What a report tells of its target can be read. -/
theorem plain_targetDetails {d : Nat} {t : Policy.Target} (h : Fits t.priority) :
    ∀ p ∈ Report.targetDetails t, Plain d p.2 := by
  simp only [Report.targetDetails, List.forall_mem_cons]
  exact ⟨.string, .string, .whole h, nofun⟩

section Fields

variable {α : Type} {f : String → Option α} {w : String} {x : α}

theorem compact_string (w : String) : (Value.string w).compact.toList = (quoted w).toList := by
  rw [Value.compact]

theorem compact_bool (b : Bool) :
    (Value.bool b).compact.toList = (if b then "true" else "false").toList := by
  rw [Value.compact]

theorem takes_string (expected w : String) :
    Takes (stringOf expected) (Value.string w).compact.toList w := by
  have h := takes_stringOf expected (spells_string w)
  rw [String.ofList_toList] at h
  rwa [compact_string, toList_quoted]

theorem takes_parsed (h : f w = some x) (expected reason : String) :
    Takes (parsed expected reason f) (Value.string w).compact.toList x := by
  intro g r hg hr
  rw [parsed, takes_string expected w g r hg hr]
  simp [h, bind, Except.bind]

/-- The text that tells the error, or that there was none. -/
def errorValue : Option String → Value
  | some e => .string e
  | none => .null

theorem takes_error (error : Option String) :
    Takes (optional (stringOf "a string")) (errorValue error).compact.toList error := by
  cases error with
  | none => exact takes_optional_null _
  | some e =>
    have hhead : (Value.string e).compact.toList.head? ≠ some 'n' := by simp [compact_string]
    exact takes_optional (takes_string _ e) (begins_compact (.string (d := 0))) hhead

theorem lookup_kindWords (k : EventKind) : kindWords.lookup k.word = some k := by
  cases k <;> rfl

/-- A field whose value is printed without blanks. -/
theorem carries_compact {σ : Type} {fs : List (RecordField σ)} {g : RecordField σ} {d : Nat} {k : String}
    {v : Value} {st y : σ} {seen : List String} {ms : List MemberText} {last : σ × List String}
    (hfield : RecordField.find? fs k = some g) (hnew : k ∉ seen)
    (htakes : Takes (g.reader d st) v.compact.toList y)
    (hrest : Carries (RecordField.member fs d) (y, k :: seen) ms last) :
    Carries (RecordField.member fs d) (st, seen) (compactMember k v.compact.toList :: ms) last := by
  have hvalue : (compactMember k v.compact.toList).value = v.compact.toList := by rw [compactMember]
  rw [← hvalue] at htakes
  exact carries_field (m := compactMember k v.compact.toList) hfield hnew htakes hrest

end Fields

/-- The fields of an event with their values, in their own order. -/
theorem toJson_eq (e : Event) : e.toJson = .object [("timestamp", .string e.moment.text),
    ("run_id", .string e.run.text), ("event_type", .string e.report.kind.word),
    ("success", .bool e.report.success), ("details", e.report.details),
    ("error", errorValue e.report.error)] := by
  rw [toJson, Report.fields]
  cases e.report.error <;> rfl

/-- The fields fill in an event one after another, from whatever was there before. -/
theorem carries_fields {e : Event} (h : e.Valid) : Carries (RecordField.member fields (depthLimit - 1))
    (empty, []) [compactMember "timestamp" (Value.string e.moment.text).compact.toList,
      compactMember "run_id" (Value.string e.run.text).compact.toList,
      compactMember "event_type" (Value.string e.report.kind.word).compact.toList,
      compactMember "success" (Value.bool e.report.success).compact.toList,
      compactMember "details" e.report.details.compact.toList,
      compactMember "error" (errorValue e.report.error).compact.toList]
    (e, ["error", "details", "success", "event_type", "run_id", "timestamp"]) := by
  obtain ⟨moment, run, kind, success, details, error⟩ := e
  have hmoment := takes_parsed (Moment.read?_text h.moment)
    "an RFC 3339 formatted date and time string" "input contains invalid characters"
  have hrun := takes_parsed (RunId.read?_text run) "a UUID string" "UUID parsing failed"
  have hkind := takes_wordOf (lookup_kindWords kind) (depthLimit - 1)
  have hsuccess := takes_boolOf success
  have hdetails := takes_compact h.details
  have herror := takes_error error
  rw [← compact_string] at hkind
  rw [← compact_bool] at hsuccess
  refine carries_compact rfl (by simp)
    (hmoment.map fun x => Event.mk x 0 ⟨.build, false, .null, none⟩) ?_
  refine carries_compact rfl (by simp) (hrun.map fun x => Event.mk moment x ⟨.build, false, .null, none⟩) ?_
  refine carries_compact rfl (by simp) (hkind.map fun x => Event.mk moment run ⟨x, false, .null, none⟩) ?_
  refine carries_compact rfl (by simp)
    (hsuccess.map fun x => Event.mk moment run ⟨kind, x, .null, none⟩) ?_
  refine carries_compact rfl (by simp)
    (hdetails.map fun x => Event.mk moment run ⟨kind, success, x, none⟩) ?_
  exact carries_compact rfl (by simp)
    (herror.map fun x => Event.mk moment run ⟨kind, success, details, x⟩) .nil

/-- An event that is written is read back. -/
theorem read_compact {e : Event} (h : e.Valid) : Event.read e.toJson.compact = .ok e := by
  rw [toJson_eq]
  exact readAll_object (d := depthLimit - 1) gaps_nil gaps_nil (body_compact _) (carries_fields h)
    (by decide) (compact_object _)

theorem flat_errorValue (error : Option String) : Flat (errorValue error).compact := by
  cases error with
  | none => exact flat_compact (d := 0) .null
  | some e => exact flat_compact (d := 0) .string

/-- The text of an event is one line. -/
theorem flat_toJson {e : Event} (h : e.Valid) : Flat e.toJson.compact := by
  have hstring : ∀ s, Flat (Value.string s).compact := fun s => flat_compact (d := 0) .string
  have hbool : ∀ b, Flat (Value.bool b).compact := fun b => flat_compact (d := 0) .bool
  rw [toJson_eq, Value.compact, Value.compactMembers_eq_map]
  refine .braced (List.forall_mem_map.2 fun p hp => Flat.member ?_)
  simp only [List.mem_cons, List.not_mem_nil, or_false] at hp
  rcases hp with rfl | rfl | rfl | rfl | rfl | rfl
  · exact hstring _
  · exact hstring _
  · exact hstring _
  · exact hbool _
  · exact flat_compact h.details
  · exact flat_errorValue _

end Event

namespace Log

theorem unbroken_of_flat {s : String} (h : Json.Flat s) : Text.Unbroken s.toList := by
  intro c hc
  have hlow := h c hc
  constructor <;> (rintro rfl; exact absurd hlow (by decide))

/-- An event is a line by itself, which is read off the front. -/
theorem lines_line {e : Event} (h : e.Valid) (r : String) :
    Text.lines (line e ++ r) = e.toJson.compact :: Text.lines r := by
  have htext : (line e ++ r).toList = e.toJson.compact.toList ++ '\n' :: r.toList := by simp [line]
  rw [Text.lines, htext, Text.linesOf_lineFeed (unbroken_of_flat (Event.flat_toJson h)), List.map_cons,
    String.ofList_toList]
  rfl

end Log
end Audit
end TwinWall
