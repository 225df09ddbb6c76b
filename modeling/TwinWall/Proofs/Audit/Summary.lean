import TwinWall.Cli.Session
import TwinWall.Proofs.Audit.Newest
import TwinWall.Proofs.Document.Built

/-! How many lines an event takes when it is shown. An error is cut to its first line, and the names of a target
are not cut, so each line feed in a name begins another line. -/
namespace TwinWall
namespace Audit

open Policy

/-- How many line feeds there are in a text. -/
def feeds (s : String) : Nat := s.toList.count '\n'

@[simp] theorem feeds_append (s t : String) : feeds (s ++ t) = feeds s + feeds t := by
  simp [feeds]

theorem feeds_eq_zero {s : String} : feeds s = 0 ↔ '\n' ∉ s.toList := List.count_eq_zero

section Parts

@[simp] theorem feeds_padded (width n : Nat) : feeds (padded width n) = 0 :=
  feeds_eq_zero.2 fun h => absurd (isDigit_of_mem_padded h) (by decide)

@[simp] theorem feeds_yearText (year : Int) : feeds (yearText year) = 0 := by
  rw [yearText]
  split
  · exact feeds_padded _ _
  · rw [feeds_append, feeds_padded]
    split <;> rfl

@[simp] theorem feeds_brief (m : Moment) : feeds m.brief = 0 := by
  have hhyphen : feeds "-" = 0 := rfl
  have hblank : feeds " " = 0 := rfl
  have hcolon : feeds ":" = 0 := rfl
  simp [Moment.brief, Date.text, Moment.clock, hhyphen, hblank, hcolon]

@[simp] theorem feeds_runId (r : RunId) : feeds r.text = 0 := by
  rw [feeds_eq_zero, RunId.text, String.toList_ofList]
  intro h
  rcases Text.mem_of_splitOn (a := '-') h with h | ⟨g, hg, hc⟩
  · cases h
  · rw [RunId.splitOn_groups] at hg
    have hdigit : '\n' ∈ r.digits := by
      rw [← RunId.flatten_cut (RunId.sum_groupLengths r)]
      exact List.mem_flatten_of_mem hg hc
    exact absurd (RunId.isHex_of_mem_digits hdigit) (by decide)

@[simp] theorem feeds_title (k : EventKind) : feeds k.title = 0 := by
  cases k <;> rfl

@[simp] theorem feeds_firstLine (s : String) : feeds (Text.firstLine s) = 0 := by
  rw [feeds_eq_zero, Text.firstLine, Text.lines]
  cases hlines : Text.linesOf s.toList with
  | nil => simp
  | cons l ls =>
    have hl : '\n' ∉ l := Text.lf_notMem_linesOf (s := s.toList) (by simp [hlines])
    simpa using hl

end Parts

namespace Report

/-- The names of a target, if a report tells both. -/
def names? (r : Report) : Option (String × String) := do
  let n ← (r.details.get? "namespace").bind Json.Value.string?
  let t ← (r.details.get? "table").bind Json.Value.string?
  some (n, t)

/-- The line feeds in the names that a report tells. -/
def nameFeeds (r : Report) : Nat :=
  match r.names? with
  | some (n, t) => feeds n + feeds t
  | none => 0

theorem feeds_targetText (r : Report) : feeds r.targetText = r.nameFeeds := by
  have hblank : feeds " " = 0 := rfl
  have hslash : feeds "/" = 0 := rfl
  rw [targetText, nameFeeds, names?]
  cases (r.details.get? "namespace").bind Json.Value.string? with
  | none => rfl
  | some n =>
    cases (r.details.get? "table").bind Json.Value.string? with
    | none => rfl
    | some t => simp [hblank, hslash]

/-- Members with other keys change nothing. -/
theorem get?_foldl_insert {k : String} {l : List (String × Json.Value)} (h : ∀ p ∈ l, k ≠ p.1)
    (m : Json.Members) :
    Json.Members.get? k (l.foldl (fun m p => Json.Members.insert p.1 p.2 m) m) = Json.Members.get? k m := by
  induction l generalizing m with
  | nil => rfl
  | cons p l ih =>
    obtain ⟨hp, hl⟩ := List.forall_mem_cons.1 h
    rw [List.foldl_cons, ih hl, Json.Members.get?_insert_of_ne hp]

/-- A report of a target tells its names, whatever else it tells. -/
theorem nameFeeds_of_details {r : Report} {t : Target} {l : List (String × Json.Value)}
    (h : r.details = .record (targetDetails t ++ l))
    (hl : ∀ p ∈ l, "namespace" ≠ p.1 ∧ "table" ≠ p.1) :
    r.nameFeeds = feeds t.namespaceName + feeds t.table := by
  have hname : r.details.get? "namespace" = some (.string t.namespaceName) := by
    rw [h, Json.Value.record, Json.Members.ofList, Json.Value.get?, List.foldl_append,
      get?_foldl_insert fun p hp => (hl p hp).1]
    simp [targetDetails]
  have htable : r.details.get? "table" = some (.string t.table) := by
    rw [h, Json.Value.record, Json.Members.ofList, Json.Value.get?, List.foldl_append,
      get?_foldl_insert fun p hp => (hl p hp).2]
    simp [targetDetails]
  have hnames : r.names? = some (t.namespaceName, t.table) := by
    simp [names?, hname, htable, Json.Value.string?]
  rw [nameFeeds, hnames]

theorem nameFeeds_scrub (t : Target) (error : Option String) (success : Bool) :
    (scrub t error success).nameFeeds = feeds t.namespaceName + feeds t.table :=
  nameFeeds_of_details (l := []) rfl nofun

theorem nameFeeds_read (t : Target) (differs success : Bool) :
    (read t differs success).nameFeeds = feeds t.namespaceName + feeds t.table :=
  nameFeeds_of_details (l := [("differs", .bool differs)]) rfl (by simp)

/-- The names of a document that was built are single words. -/
theorem nameFeeds_build {s : Spec} {t : Target} {d : Document} (h : Document.build s t = .ok d)
    (checksum : String) (error : Option String) (success : Bool) :
    (build t checksum error success).nameFeeds = 0 := by
  obtain ⟨p, hbuilt⟩ := Document.built_of_build h
  have hname : feeds t.namespaceName = 0 := feeds_eq_zero.2 (hbuilt.namespaceName.isPlain.notMem (by decide))
  have htable : feeds t.table = 0 := feeds_eq_zero.2 (hbuilt.table.isPlain.notMem (by decide))
  rw [nameFeeds_of_details (t := t) (l := [("checksum", .string checksum)]) rfl (by simp), hname, htable]

theorem nameFeeds_check (rules : Nat) (error : Option String) (success : Bool) :
    (check rules error success).nameFeeds = 0 := by
  have hname : (check rules error success).details.get? "namespace" = none := by rfl
  have hnames : (check rules error success).names? = none := by simp [names?, hname]
  rw [nameFeeds, hnames]

end Report

/-- Nothing but the names of the target brings line feeds into what is shown of an event. -/
theorem feeds_summary (e : Event) : feeds e.summary = e.report.nameFeeds := by
  obtain ⟨moment, run, kind, success, details, error⟩ := e
  have hblank : feeds " " = 0 := rfl
  have hcolon : feeds ": " = 0 := rfl
  have hempty : feeds "" = 0 := rfl
  have hstatus : feeds (if success then "ok" else "FAILED") = 0 := by
    cases success <;> rfl
  cases error with
  | none => simp only [Event.summary, feeds_append, feeds_brief, feeds_runId, feeds_title,
      Report.feeds_targetText, hblank, hstatus, hempty, Nat.zero_add, Nat.add_zero]
  | some m => simp only [Event.summary, feeds_append, feeds_brief, feeds_runId, feeds_title,
      Report.feeds_targetText, hblank, hstatus, hcolon, feeds_firstLine, Nat.zero_add, Nat.add_zero]

/-- What is shown of some events, each with a line feed behind it. -/
def listing (l : List Event) : String := String.join (l.map fun e => e.summary ++ "\n")

theorem listing_cons (e : Event) (l : List Event) : listing (e :: l) = e.summary ++ "\n" ++ listing l := by
  simp [listing]

theorem feeds_listing (l : List Event) : feeds (listing l) = (l.map fun e => e.report.nameFeeds + 1).sum := by
  have hfeed : feeds "\n" = 1 := rfl
  induction l with
  | nil => rfl
  | cons e l ih =>
    rw [listing_cons, feeds_append, feeds_append, feeds_summary, hfeed, ih, List.map_cons, List.sum_cons]

theorem splitOn_listing {l : List Event} (h : ∀ e ∈ l, e.report.nameFeeds = 0) :
    (listing l).toList.splitOn '\n' = l.map (fun e => e.summary.toList) ++ [[]] := by
  have htext : (listing l).toList = Text.unlines (l.map fun e => e.summary.toList) := by
    induction l with
    | nil => rfl
    | cons e l ih =>
      rw [listing_cons, List.map_cons, Text.unlines_cons, ← ih (List.forall_mem_cons.1 h).2]
      simp
  have hlines : ∀ s ∈ l.map (fun e : Event => e.summary.toList), '\n' ∉ s := by
    rw [List.forall_mem_map]
    intro e he
    rw [← feeds_eq_zero, feeds_summary, h e he]
  have hsplit := Text.splitOn_unlines hlines []
  rwa [List.append_nil, ← htext, List.splitOn_nil] at hsplit

/-- The lines of a listing are the summaries just if none of them has a line feed. -/
theorem splitOn_listing_iff {l : List Event} :
    (listing l).toList.splitOn '\n' = l.map (fun e => e.summary.toList) ++ [[]] ↔
      ∀ e ∈ l, e.report.nameFeeds = 0 := by
  refine ⟨fun h e he => ?_, splitOn_listing⟩
  have hpiece : e.summary.toList ∈ (listing l).toList.splitOn '\n' := by
    rw [h]
    exact List.mem_append_left _ (List.mem_map.2 ⟨e, he, rfl⟩)
  rw [← feeds_summary, feeds_eq_zero]
  exact Text.notMem_of_mem_splitOn hpiece

theorem audit_of_recent {s : Cli.Surroundings} {w : Cli.World} {count : Nat} {l : List Event}
    (h : Log.recent w.files s.logPath count = .ok l) : (Cli.Session.audit s w count).2.stdout = listing l := by
  simp only [Cli.Session.audit, h, listing]

/-- Each event takes one line and another one for every line feed in the names that it tells, so the lines are
those of the events just if no name has one. The names are any where a table was scrubbed or read, and words of
a line where one was built. -/
theorem summary_settled (s : Cli.Surroundings) (w : Cli.World) (count : Nat) :
    (∀ e : Event, feeds e.summary = e.report.nameFeeds) ∧
    (∀ l : List Event, Log.recent w.files s.logPath count = .ok l →
      feeds (Cli.Session.audit s w count).2.stdout = (l.map fun e => e.report.nameFeeds + 1).sum ∧
      ((Cli.Session.audit s w count).2.stdout.toList.splitOn '\n' = l.map (fun e => e.summary.toList) ++ [[]] ↔
        ∀ e ∈ l, e.report.nameFeeds = 0)) ∧
    (∀ (t : Target) (error : Option String) (differs success : Bool),
      (Report.scrub t error success).nameFeeds = feeds t.namespaceName + feeds t.table ∧
      (Report.read t differs success).nameFeeds = feeds t.namespaceName + feeds t.table) ∧
    (∀ (s : Spec) (t : Target) (d : Document) (error : Option String) (success : Bool),
      Document.build s t = .ok d → (Report.build t d.checksum error success).nameFeeds = 0) ∧
    ∀ (rules : Nat) (error : Option String) (success : Bool),
      (Report.check rules error success).nameFeeds = 0 := by
  refine ⟨feeds_summary, fun l h => ?_, fun t error differs success => ?_,
    fun s t d error success h => Report.nameFeeds_build h _ _ _, Report.nameFeeds_check⟩
  · rw [audit_of_recent h]
    exact ⟨feeds_listing l, splitOn_listing_iff⟩
  · exact ⟨Report.nameFeeds_scrub t error success, Report.nameFeeds_read t differs success⟩

/-- A scrubbing of a namespace whose name goes on like the entry of another one. -/
def forgedEvent : Event :=
  ⟨⟨⟨2026, 1, 1⟩, 750, 0, 0⟩, 0x67e5504410b1426f9247bb680e5fe0c8,
    .scrub ⟨"ns1100/fw ok\n2026-01-02 00:00:00 67e55044-10b1-426f-9247-bb680e5fe0c8 Scrub ns2200", "fw", 0⟩
      none true⟩

def imitatedEvent : Event :=
  ⟨⟨⟨2026, 1, 2⟩, 0, 0, 0⟩, 0x67e5504410b1426f9247bb680e5fe0c8, .scrub ⟨"ns2200", "fw", 0⟩ none true⟩

/-- One event is shown as two are. -/
theorem name_imitates_event : Event.read forgedEvent.toJson.compact = .ok forgedEvent ∧
    0 < feeds forgedEvent.summary ∧
    listing [forgedEvent] = listing [Log.scrubEvent, imitatedEvent] := by
  have hvalid : forgedEvent.Valid :=
    ⟨⟨by decide, by decide, by decide, by decide⟩,
      Json.plain_record (Event.plain_targetDetails ⟨by decide, by decide⟩)⟩
  exact ⟨Event.read_compact hvalid, by decide +kernel, by decide +kernel⟩

end Audit
end TwinWall
