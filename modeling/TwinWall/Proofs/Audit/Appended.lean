import TwinWall.Proofs.Audit.Newest
import TwinWall.Proofs.Files.Grown

/-! Events that are appended to a log one by one and shown again. -/
namespace TwinWall
namespace Audit
namespace Log

/-- A log that can be written and holds a text, which is empty if there is no file yet. -/
def Holds (f : Files) (path text : String) : Prop :=
  ∃ p b, f.writable path = .ok (p, b) ∧ Text.Utf8.decode? b = some text

/-- Nothing, or whole lines. -/
def Complete (text : String) : Prop := text = "" ∨ ∃ s, text = s ++ "\n"

/-- Appends events one by one. -/
def appendAll (f : Files) (path : String) (es : List Event) : Except FileError Files :=
  es.foldlM (fun f e => append f path e) f

variable {f : Files} {path text : String} {e : Event} {es : List Event}

/-- A line is added behind what is there. -/
theorem exists_append (h : Holds f path text) (e : Event) :
    ∃ g, append f path e = .ok g ∧ Holds g path (text ++ line e) ∧
      g.readText path = .ok (text ++ line e) := by
  obtain ⟨p, b, hwritable, hb⟩ := h
  obtain ⟨-, hagain, hread⟩ := Files.writable_put hwritable (b ++ Text.Utf8.encode (line e))
  have htext := Text.Utf8.decode?_append hb (line e)
  refine ⟨f.put p (.file (b ++ Text.Utf8.encode (line e))), ?_, ⟨p, _, hagain, htext⟩, ?_⟩
  · simp [append, Files.append, hwritable, bind, Except.bind]
  · simp [Files.readText, hread, htext, bind, Except.bind]

/-- The text behind which the lines of events stand. -/
def linesText (es : List Event) : String := String.join (es.map line)

theorem linesText_cons (e : Event) (es : List Event) : linesText (e :: es) = line e ++ linesText es := by
  simp [linesText]

/-- The lines of the events are added in their order. What is there can be read, unless there is no file. -/
theorem exists_appendAll (h : Holds f path text) (es : List Event) :
    ∃ g, appendAll f path es = .ok g ∧ Holds g path (text ++ linesText es) ∧
      (es ≠ [] ∨ f.readText path = .ok text → g.readText path = .ok (text ++ linesText es)) := by
  induction es generalizing f text with
  | nil =>
    have hnothing : text ++ linesText [] = text := by simp [linesText]
    rw [hnothing]
    exact ⟨f, rfl, h, fun hread => hread.resolve_left (fun hne => hne rfl)⟩
  | cons e es ih =>
    obtain ⟨g, happend, hg, hread⟩ := exists_append h e
    obtain ⟨g', hall, hg', hread'⟩ := ih hg
    rw [linesText_cons, ← String.append_assoc]
    refine ⟨g', ?_, hg', fun _ => hread' (.inr hread)⟩
    rw [appendAll, List.foldlM_cons, happend]
    exact hall

/-- What stands behind whole lines begins a line. -/
theorem lines_append (h : Complete text) (r : String) :
    Text.lines (text ++ r) = Text.lines text ++ Text.lines r := by
  rcases h with rfl | ⟨s, rfl⟩
  · rw [String.empty_append]
    rfl
  · have hwhole : (s ++ "\n" ++ r).toList = s.toList ++ '\n' :: r.toList := by simp
    have hfront : (s ++ "\n").toList = s.toList ++ ['\n'] := by simp
    rw [Text.lines, hwhole, Text.linesOf_append, List.map_append, ← hfront]
    rfl

theorem lines_linesText (h : ∀ e ∈ es, e.Valid) :
    Text.lines (linesText es) = es.map fun e => e.toJson.compact := by
  induction es with
  | nil => rfl
  | cons e es ih =>
    obtain ⟨he, hes⟩ := List.forall_mem_cons.1 h
    rw [linesText_cons, lines_line he, ih hes, List.map_cons]

theorem lines_appended (hcomplete : Complete text) (h : ∀ e ∈ es, e.Valid) :
    Text.lines (text ++ linesText es) = Text.lines text ++ es.map fun e => e.toJson.compact := by
  rw [lines_append hcomplete, lines_linesText h]

theorem filterMap_compact (h : ∀ e ∈ es, e.Valid) :
    (es.map fun e => e.toJson.compact).filterMap eventOf? = es := by
  induction es with
  | nil => rfl
  | cons e es ih =>
    obtain ⟨he, hes⟩ := List.forall_mem_cons.1 h
    rw [List.map_cons, List.filterMap_cons_some (eventOf?_compact he), ih hes]

theorem events_appended (hcomplete : Complete text) (h : ∀ e ∈ es, e.Valid) :
    events (text ++ linesText es) = events text ++ es := by
  rw [events, lines_appended hcomplete h, List.filterMap_append, filterMap_compact h]
  rfl

/-- Where every line is an event, as many are shown as are asked for. -/
theorem newest_of_events (h : ∀ l ∈ Text.lines text, (eventOf? l).isSome) (k : Nat) :
    newest k text = (events text).reverse.take k := by
  have hlast : ∀ l ∈ lastLines k text, (eventOf? l).isSome := fun l hl =>
    h l (List.mem_reverse.1 (List.mem_of_mem_take hl))
  have hall : (events text).length = (Text.lines text).length := List.filterMap_length_eq_length.2 h
  have hshown := (shown_eq_iff k text).2 hlast
  rw [newest_eq_take, take_eq_take_of_le (shown_le k text), hshown, lastLines, List.length_take,
    List.length_reverse, List.length_reverse, hall]
  omega

theorem complete_linesText (h : Complete text) (es : List Event) : Complete (text ++ linesText es) := by
  induction es generalizing text with
  | nil => simpa [linesText] using h
  | cons e es ih =>
    rw [linesText_cons, ← String.append_assoc]
    exact ih (.inr ⟨text ++ e.toJson.compact, by rw [line, String.append_assoc]⟩)

/-- Events that are appended to a log of whole lines are shown as they were, the newest first and before those
that were there. Each of them adds one line. -/
theorem appended_settled (hlog : Holds f path text) (hcomplete : Complete text)
    (hlines : ∀ l ∈ Text.lines text, (eventOf? l).isSome) (hevents : ∀ e ∈ es, e.Valid) :
    (∀ s e t, es = s ++ e :: t → ∃ g u g' u', appendAll f path s = .ok g ∧ Holds g path u ∧
      append g path e = .ok g' ∧ Holds g' path u' ∧
      Text.lines u' = Text.lines u ++ [e.toJson.compact]) ∧
    ∃ g, appendAll f path es = .ok g ∧ (es ≠ [] ∨ f.readText path = .ok text →
      ∀ k, recent g path k = .ok ((es.reverse ++ (events text).reverse).take k) ∧
        (k ≤ es.length → recent g path k = .ok (es.reverse.take k))) := by
  constructor
  · rintro s e t rfl
    obtain ⟨he, -⟩ := List.forall_mem_cons.1 (List.forall_mem_append.1 hevents).2
    have hs := (List.forall_mem_append.1 hevents).1
    obtain ⟨g, hall, hg, -⟩ := exists_appendAll hlog s
    obtain ⟨g', happend, hg', -⟩ := exists_append hg e
    have hone : linesText [e] = line e := by simp [linesText]
    refine ⟨g, _, g', _, hall, hg, happend, hg', ?_⟩
    rw [← hone]
    exact lines_appended (complete_linesText hcomplete s) (List.forall_mem_singleton.2 he)
  · obtain ⟨g, hall, -, hread⟩ := exists_appendAll hlog es
    refine ⟨g, hall, fun hthere k => ?_⟩
    have hvalid : ∀ l ∈ Text.lines (text ++ linesText es), (eventOf? l).isSome := by
      rw [lines_appended hcomplete hevents, List.forall_mem_append, List.forall_mem_map]
      exact ⟨hlines, fun e he => by rw [eventOf?_compact (hevents e he)]; rfl⟩
    have hrecent : recent g path k = .ok ((es.reverse ++ (events text).reverse).take k) := by
      rw [recent, hread hthere, Except.map, newest_of_events hvalid, events_appended hcomplete hevents,
        List.reverse_append]
    refine ⟨hrecent, fun hk => ?_⟩
    rw [hrecent, List.take_append_of_le_length (by rwa [List.length_reverse])]

/-- An event whose error has line endings and other characters below the blank. -/
def buildEvent : Event :=
  ⟨⟨⟨2026, 1, 2⟩, 0, 60, 500000000⟩, 7, .build ⟨"ns1100", "fw", -150⟩ "9f86" (some "nft:\n\t\"\r\x01") false⟩

theorem buildEvent_valid : buildEvent.Valid where
  moment := ⟨by decide, by decide, by decide, by decide⟩
  details := by
    refine Json.plain_record (List.forall_mem_append.2 ⟨Event.plain_targetDetails ⟨by decide, by decide⟩, ?_⟩)
    exact List.forall_mem_singleton.2 .string

theorem appended_settled_two : ∃ g, appendAll {} "audit.log" [scrubEvent, buildEvent] = .ok g ∧
    recent g "audit.log" 1 = .ok [buildEvent] ∧
    recent g "audit.log" 2 = .ok [buildEvent, scrubEvent] := by
  have hlog : Holds {} "audit.log" "" := ⟨["audit.log"], [], by rfl, rfl⟩
  have hevents : ∀ e ∈ [scrubEvent, buildEvent], e.Valid := by
    simp only [List.forall_mem_cons]
    exact ⟨scrubEvent_valid, buildEvent_valid, nofun⟩
  obtain ⟨-, g, hall, hrecent⟩ := appended_settled hlog (.inl rfl) nofun hevents
  have hshown := hrecent (.inl (by simp))
  exact ⟨g, hall, (hshown 1).2 (by decide), (hshown 2).2 (by decide)⟩

end Log
end Audit
end TwinWall
