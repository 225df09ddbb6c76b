import TwinWall.Proofs.Audit.Entry
import TwinWall.Proofs.Text.Utf8

/-! What the log shows of its newest events. It looks at as many of the last lines as there are events asked
for, so a line among them that is no event takes the place of an event. -/
namespace TwinWall
namespace Audit
namespace Log

def eventOf? (l : String) : Option Event := (Event.read l).toOption

theorem eventOf?_compact {e : Event} (h : e.Valid) : eventOf? e.toJson.compact = some e := by
  rw [eventOf?, Event.read_compact h]
  rfl

/-- All events of a log, oldest first. -/
def events (text : String) : List Event := (Text.lines text).filterMap eventOf?

/-- The last lines of a log, newest first. -/
def lastLines (count : Nat) (text : String) : List String := (Text.lines text).reverse.take count

/-- The lines in front of those, newest first. -/
def olderLines (count : Nat) (text : String) : List String := (Text.lines text).reverse.drop count

theorem reverse_events (count : Nat) (text : String) : (events text).reverse =
    (lastLines count text).filterMap eventOf? ++ (olderLines count text).filterMap eventOf? := by
  rw [lastLines, olderLines, ← List.filterMap_append, List.take_append_drop, events,
    List.filterMap_reverse]

theorem newest_eq (count : Nat) (text : String) :
    newest count text = (lastLines count text).filterMap eventOf? := rfl

/-- How many events are shown: those among the last lines. -/
def shown (count : Nat) (text : String) : Nat := ((lastLines count text).filterMap eventOf?).length

theorem shown_le (count : Nat) (text : String) : shown count text ≤ count := by
  have hmap := List.length_filterMap_le eventOf? (lastLines count text)
  have htake : (lastLines count text).length ≤ count := List.length_take_le ..
  exact Nat.le_trans hmap htake

theorem shown_le_events (count : Nat) (text : String) : shown count text ≤ (events text).length := by
  have h := congrArg List.length (reverse_events count text)
  rw [List.length_reverse, List.length_append] at h
  rw [shown]
  omega

/-- No event is shown before a newer one, and none between two of them is left out. -/
theorem newest_eq_take (count : Nat) (text : String) :
    newest count text = (events text).reverse.take (shown count text) := by
  rw [reverse_events count text, shown, List.take_left, newest_eq]

/-- A beginning that is shorter than it might be lacks something. -/
theorem take_eq_take_of_le {α : Type} {l : List α} {m n : Nat} (h : m ≤ n) :
    l.take m = l.take n ↔ m = n ∨ l.length ≤ m := by
  rw [List.take_eq_take_iff]
  omega

theorem shown_eq_iff (count : Nat) (text : String) :
    shown count text = (lastLines count text).length ↔
      ∀ l ∈ lastLines count text, (eventOf? l).isSome := by
  rw [shown, List.filterMap_length_eq_length]

/-- All events are shown just if none stands in front of the last lines. -/
theorem events_le_shown_iff (count : Nat) (text : String) :
    (events text).length ≤ shown count text ↔ ∀ l ∈ olderLines count text, eventOf? l = none := by
  have h := congrArg List.length (reverse_events count text)
  rw [List.length_reverse, List.length_append] at h
  rw [← List.filterMap_eq_nil_iff, ← List.length_eq_zero_iff, shown]
  omega

theorem olderLines_eq_nil {count : Nat} {text : String}
    (h : (lastLines count text).length ≠ count) : olderLines count text = [] := by
  rw [lastLines, List.length_take] at h
  exact List.drop_eq_nil_of_le (by omega)

/-- The events that are shown are the newest of the log, in their order and without a gap, as many as there are
among the last lines. They are as many as were asked for, or all, just if each of these lines is an event
or no event stands in front of them. -/
theorem newest_settled (f : Files) (path : String) (count : Nat) :
    (recent f path count =
      (f.readText path).map fun text => (events text).reverse.take (shown count text)) ∧
    ∀ text : String, shown count text ≤ min count (events text).length ∧
      ((events text).reverse.take (shown count text) = (events text).reverse.take count ↔
        (∀ l ∈ lastLines count text, (eventOf? l).isSome) ∨
          ∀ l ∈ olderLines count text, eventOf? l = none) := by
  refine ⟨?_, fun text => ⟨?_, ?_⟩⟩
  · rw [recent]
    congr 1
    funext text
    exact newest_eq_take count text
  · exact Nat.le_min.2 ⟨shown_le count text, shown_le_events count text⟩
  · rw [take_eq_take_of_le (shown_le count text), List.length_reverse, events_le_shown_iff,
      ← shown_eq_iff]
    by_cases hfull : (lastLines count text).length = count
    · rw [hfull]
    · -- fewer lines than were asked for are all there are
      have holder : ∀ l ∈ olderLines count text, eventOf? l = none := by
        simp [olderLines_eq_nil hfull]
      exact iff_of_true (.inr holder) (.inr holder)

def scrubEvent : Event :=
  ⟨⟨⟨2026, 1, 1⟩, 750, 0, 0⟩, 0x67e5504410b1426f9247bb680e5fe0c8, .scrub ⟨"ns1100", "fw", 0⟩ none true⟩

theorem scrubEvent_valid : scrubEvent.Valid where
  moment := ⟨by decide, by decide, by decide, by decide⟩
  details := Json.plain_record (Event.plain_targetDetails ⟨by decide, by decide⟩)

/-- A line at which a writing broke off. -/
def tornLine : String := "\x7b\"timestamp\":\"2026-01-0"

def tornText : String := line scrubEvent ++ tornLine

/-- A tree with a log and nothing else. -/
def logFiles (text : String) : Files := { entries := [(["audit.log"], .file (Text.Utf8.encode text))] }

theorem lines_tornText : Text.lines tornText = [scrubEvent.toJson.compact, tornLine] := by
  rw [tornText, lines_line scrubEvent_valid]
  rfl

theorem eventOf?_tornLine : eventOf? tornLine = none := by decide +kernel

theorem readText_logFiles (text : String) : (logFiles text).readText "audit.log" = .ok text := by
  have hoctets : (logFiles text).readOctets "audit.log" = .ok (Text.Utf8.encode text) := by rfl
  rw [Files.readText, hoctets]
  simp [Text.Utf8.decode?_encode, bind, Except.bind]

/-- The newest event is asked for, and none is shown. -/
theorem torn_line_hides_event : recent (logFiles tornText) "audit.log" 1 = .ok [] ∧
    (events tornText).reverse.take 1 = [scrubEvent] := by
  constructor
  · rw [recent, readText_logFiles, Except.map, newest_eq, lastLines, lines_tornText]
    simp [eventOf?_tornLine]
  · rw [events, lines_tornText]
    simp [eventOf?_tornLine, eventOf?_compact scrubEvent_valid]

end Log
end Audit
end TwinWall
