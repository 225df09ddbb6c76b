import Mathlib
import TwinWall.Policy.File
import TwinWall.Proofs.Json.RecordText
import TwinWall.Proofs.Json.Reread

/-! Policies that are read from a text. The sections of an object may stand in any order and layout, with other
members among them, and what is not there is left empty. A policy that has been read from any text of whole
numbers is read again from its print. -/
namespace TwinWall
namespace Policy

open Json

namespace Defaults

/-- The verdicts that are given, and the others as they are where nothing is given. -/
def part (x : Defaults) (given : List String) : Defaults where
  input := if "input" ∈ given then x.input else ({} : Defaults).input
  forward := if "forward" ∈ given then x.forward else ({} : Defaults).forward
  output := if "output" ∈ given then x.output else ({} : Defaults).output

/-- The texts of the verdict of a chain. -/
inductive Gives (x : Defaults) : String → List Char → Prop
  | input {t : List Char} (spells : Spells t x.input.text.toList) : Gives x "input" (inQuotes t)
  | forward {t : List Char} (spells : Spells t x.forward.text.toList) : Gives x "forward" (inQuotes t)
  | output {t : List Char} (spells : Spells t x.output.text.toList) : Gives x "output" (inQuotes t)

end Defaults

namespace Spec

/-- The sections that are given, and the others empty. -/
def part (s : Spec) (given : List String) : Spec where
  rules := if "rules" ∈ given then s.rules else []
  sets := if "sets" ∈ given then s.sets else []
  mappings := if "nats" ∈ given then s.mappings else []
  defaults := if "policies" ∈ given then s.defaults else {}

/-- The depth that is left for a section. -/
def sectionDepth : Nat := depthLimit - 1

/-- The texts of a section. Entries are the items of a list, as values of any form. -/
inductive Gives (s : Spec) : String → List Char → Prop
  | rules {t : List Char} (takes : Takes (value sectionDepth) t (.array s.rules)) : Gives s "rules" t
  | sets {t : List Char} (takes : Takes (value sectionDepth) t (.array s.sets)) : Gives s "sets" t
  | mappings {t : List Char} (takes : Takes (value sectionDepth) t (.array s.mappings)) : Gives s "nats" t
  | defaults {t : List Char} {ms : List MemberText} {x : Defaults} (fills : Fills defaultsFields x.Gives t ms)
    (same : s.defaults = x.part (ms.map MemberText.key)) : Gives s "policies" t

/-- The text of an object with some sections of a policy, each of them once, and other members. -/
def Holds (s : Spec) (text : String) (ms : List MemberText) : Prop :=
  ∃ g t g', Gaps g ∧ Fills fields s.Gives t ms ∧ Gaps g' ∧ text.toList = g ++ (t ++ g')

end Spec

section Reading

variable {d : Nat} {k : String} {t : List Char} {ms : List MemberText}

theorem lookup_actionWords (a : Action) : actionWords.lookup a.text = some a := by
  cases a <;> rfl

theorem Defaults.exists_field {x : Defaults} (h : x.Gives k t) :
    ∃ f, RecordField.find? defaultsFields k = some f ∧
      ∀ given, Takes (f.reader d (x.part given)) t (x.part (k :: given)) := by
  have hword : ∀ {a : Action} {t : List Char}, Spells t a.text.toList →
      Takes (wordOf actionWords d) (inQuotes t) a :=
    fun h => takes_wordOf_inQuotes (lookup_actionWords _) h d
  cases h with
  | input spells =>
    refine ⟨_, rfl, fun given => ?_⟩
    have hpart : x.part ("input" :: given) = { x.part given with input := x.input } := by simp [part]
    rw [hpart]
    exact (hword spells).map fun a => { x.part given with input := a }
  | forward spells =>
    refine ⟨_, rfl, fun given => ?_⟩
    have hpart : x.part ("forward" :: given) = { x.part given with forward := x.forward } := by simp [part]
    rw [hpart]
    exact (hword spells).map fun a => { x.part given with forward := a }
  | output spells =>
    refine ⟨_, rfl, fun given => ?_⟩
    have hpart : x.part ("output" :: given) = { x.part given with output := x.output } := by simp [part]
    rw [hpart]
    exact (hword spells).map fun a => { x.part given with output := a }

theorem Defaults.part_congr {x : Defaults} (l m : List String)
    (h : ∀ k ∈ defaultsFields.map RecordField.key, k ∈ l ↔ k ∈ m) : x.part l = x.part m := by
  simp only [part, h "input" (by decide), h "forward" (by decide), h "output" (by decide)]

theorem takes_defaults {x : Defaults} (h : Fills defaultsFields x.Gives t ms) :
    Takes (readDefaults (d + 1)) t (x.part (ms.map MemberText.key)) :=
  takes_fills (fun _ _ h => Defaults.exists_field h) Defaults.part_congr h

theorem Spec.exists_field {s : Spec} (h : s.Gives k t) : ∃ f, RecordField.find? fields k = some f ∧
    ∀ given, Takes (f.reader sectionDepth (s.part given)) t (s.part (k :: given)) := by
  cases h with
  | rules takes =>
    refine ⟨_, rfl, fun given => ?_⟩
    have hpart : s.part ("rules" :: given) = { s.part given with rules := s.rules } := by simp [part]
    rw [hpart]
    exact (takes_listOf takes).map fun l => { s.part given with rules := l }
  | sets takes =>
    refine ⟨_, rfl, fun given => ?_⟩
    have hpart : s.part ("sets" :: given) = { s.part given with sets := s.sets } := by simp [part]
    rw [hpart]
    exact (takes_listOf takes).map fun l => { s.part given with sets := l }
  | mappings takes =>
    refine ⟨_, rfl, fun given => ?_⟩
    have hpart : s.part ("nats" :: given) = { s.part given with mappings := s.mappings } := by simp [part]
    rw [hpart]
    exact (takes_listOf takes).map fun l => { s.part given with mappings := l }
  | defaults fills same =>
    refine ⟨_, rfl, fun given => ?_⟩
    have hpart : s.part ("policies" :: given) = { s.part given with defaults := s.defaults } := by
      simp [part]
    rw [hpart, same]
    exact (takes_defaults fills).map fun x => { s.part given with defaults := x }

theorem Spec.part_congr {s : Spec} (l m : List String)
    (h : ∀ k ∈ fields.map RecordField.key, k ∈ l ↔ k ∈ m) : s.part l = s.part m := by
  simp only [part, h "rules" (by decide), h "sets" (by decide), h "nats" (by decide),
    h "policies" (by decide)]

theorem Spec.read_holds {s : Spec} {text : String} (h : s.Holds text ms) :
    read text = .ok (s.part (ms.map MemberText.key)) := by
  obtain ⟨g, t, g', hg, hfills, hg', htext⟩ := h
  have htakes : Takes (recordOf "struct PolicySpec" fields [] {} depthLimit) t
      (s.part (ms.map MemberText.key)) := takes_fills (fun _ _ h => exists_field h) part_congr hfills
  exact readAll_takes htakes hg hg' htext

end Reading

section Rereading

/-- Entries that are read back wherever they stand in a section. -/
structure Spec.Faithful (s : Spec) : Prop where
  rules : ∀ v ∈ s.rules, Json.Faithful (sectionDepth - 1) v
  sets : ∀ v ∈ s.sets, Json.Faithful (sectionDepth - 1) v
  mappings : ∀ v ∈ s.mappings, Json.Faithful (sectionDepth - 1) v

theorem keeps_defaults {d : Nat} : Keeps (readDefaults (d + 1)) fun _ => True := by
  have hword := keeps_wordOf actionWords d
  refine keeps_recordOf trivial ?_
  simp only [defaultsFields, List.forall_mem_cons]
  exact ⟨fun st _ => hword.map (fun a => { st with input := a }) fun _ h => h,
    fun st _ => hword.map (fun a => { st with forward := a }) fun _ h => h,
    fun st _ => hword.map (fun a => { st with output := a }) fun _ h => h, nofun⟩

/-- Every field leaves the entries of the others as they are. -/
theorem Spec.keeps_fields : ∀ f ∈ fields, ∀ st, Faithful st → Keeps (f.reader sectionDepth st) Faithful := by
  have hlist : Keeps (listOf value sectionDepth) fun l => ∀ v ∈ l, Json.Faithful (sectionDepth - 1) v :=
    keeps_listOf (keeps_value (sectionDepth - 1))
  have hdefaults : Keeps (readDefaults sectionDepth) fun _ => True := keeps_defaults
  simp only [fields, List.forall_mem_cons]
  exact ⟨fun st hst => hlist.map (fun l => { st with rules := l }) fun _ hl => ⟨hl, hst.sets, hst.mappings⟩,
    fun st hst => hlist.map (fun l => { st with sets := l }) fun _ hl => ⟨hst.rules, hl, hst.mappings⟩,
    fun st hst => hlist.map (fun l => { st with mappings := l }) fun _ hl => ⟨hst.rules, hst.sets, hl⟩,
    fun st hst => hdefaults.map (fun x => { st with defaults := x })
      fun _ _ => ⟨hst.rules, hst.sets, hst.mappings⟩, nofun⟩

theorem Spec.faithful_of_read {text : String} {s : Spec} (htext : Integral text.toList)
    (h : read text = .ok s) : s.Faithful :=
  of_readAll (keeps_recordOf (d := sectionDepth) ⟨nofun, nofun, nofun⟩ keeps_fields) htext h

theorem fills_defaults (x : Defaults) : ∃ ms, Fills defaultsFields x.Gives x.toJson.compact.toList ms ∧
    x.part (ms.map MemberText.key) = x := by
  have hinput : x.Gives "input" (Value.string x.input.text).compact.toList :=
    (quoted_eq_inQuotes _).symm ▸ .input (spells_string _)
  have hforward : x.Gives "forward" (Value.string x.forward.text).compact.toList :=
    (quoted_eq_inQuotes _).symm ▸ .forward (spells_string _)
  have houtput : x.Gives "output" (Value.string x.output.text).compact.toList :=
    (quoted_eq_inQuotes _).symm ▸ .output (spells_string _)
  refine ⟨_, fills_compact (m := [("input", .string x.input.text), ("forward", .string x.forward.text),
    ("output", .string x.output.text)]) ?_ ?_, ?_⟩
  · simp only [List.forall_mem_cons]
    exact ⟨hinput, hforward, houtput, nofun⟩
  · simp only [List.map_cons, List.map_nil]
    decide
  · rw [key_compactMembers]
    rfl

theorem Spec.holds_compact {s : Spec} (h : s.Faithful) :
    ∃ ms, s.Holds s.toJson.compact ms ∧ s.part (ms.map MemberText.key) = s := by
  have htakes : ∀ {l : List Value}, (∀ v ∈ l, Json.Faithful (sectionDepth - 1) v) →
      Takes (value sectionDepth) (Value.array l).compact.toList (.array l) :=
    fun hl => takes_faithful (.array hl)
  have hdefaults : s.Gives "policies" s.defaults.toJson.compact.toList := by
    obtain ⟨ms, hfills, hsame⟩ := fills_defaults s.defaults
    exact .defaults hfills hsame.symm
  refine ⟨_, ⟨[], s.toJson.compact.toList, [], gaps_nil,
    fills_compact (m := [("rules", .array s.rules), ("sets", .array s.sets), ("nats", .array s.mappings),
      ("policies", s.defaults.toJson)]) ?_ ?_, gaps_nil, ?_⟩, ?_⟩
  · simp only [List.forall_mem_cons]
    exact ⟨.rules (htakes h.rules), .sets (htakes h.sets), .mappings (htakes h.mappings), hdefaults, nofun⟩
  · simp only [List.map_cons, List.map_nil]
    decide
  · rw [List.nil_append, List.append_nil]
  · rw [key_compactMembers]
    rfl

/-- What is printed is read back. -/
theorem Spec.read_compact {s : Spec} (h : s.Faithful) : read s.toJson.compact = .ok s := by
  obtain ⟨ms, hholds, hpart⟩ := holds_compact h
  rw [read_holds hholds, hpart]

end Rereading

/-- A policy that is read from a text of whole numbers, in whatever form, is read again from its print and is
checked with the same result. What is read from an object are the entries of its sections as they stand there. -/
theorem Spec.reread_settled :
    (∀ text s, read text = .ok s → Integral text.toList → read s.toJson.compact = .ok s ∧
      (read s.toJson.compact).map check = (read text).map check) ∧
    ∀ s text ms, Holds s text ms → read text = .ok (s.part (ms.map MemberText.key)) := by
  refine ⟨fun text s hread htext => ?_, fun s text ms h => read_holds h⟩
  have hagain := read_compact (faithful_of_read htext hread)
  exact ⟨hagain, by rw [hagain, hread]⟩

/-- Sections out of order, one of them missing, a list of verdicts, a key that is repeated, escapes, and numbers
at the ends of their range. -/
def oddText : String :=
  "\n\x7b\"x\":[\x7b\"\\u0022\":-0\x7d,\"4.5\"],\"nats\":[ \x7b\"b\":1,\t\"a\":[18446744073709551615," ++
    "-9223372036854775808],\"b\":-0\x7d ],\"policies\":[\"drop\",\x7b\"accept\":null\x7d]," ++
    "\"rules\":[\"\\ud83d\\ude00\\/1e9\"]\x7d "

def oddSpec : Spec where
  rules := [.string "😀/1e9"]
  mappings := [.object [("a", .array [.ofInt 18446744073709551615, .ofInt (-9223372036854775808)]),
    ("b", .number minusZero)]]
  defaults := { forward := .accept }

theorem read_oddText : Spec.read oddText = .ok oddSpec := by cbv

theorem integral_oddText : Integral oddText.toList := by decide +kernel

def looseMember (k : String) (t : List Char) : MemberText where
  before := [' ']
  spelling := k.toList.flatMap escape
  key := k
  left := ['\t']
  right := ['\n']
  value := t
  behind := [' ']
  gaps_before := by simp [Gaps, isGap]
  gaps_left := by simp [Gaps, isGap]
  gaps_right := by simp [Gaps, isGap]
  gaps_behind := by simp [Gaps, isGap]
  spells := spells_string k

def looseText : String := "\x7b \"x\"\t:\n1 , \"sets\"\t:\n[7] \x7d"

def looseMembers : List MemberText :=
  [looseMember "x" ['1'], looseMember "sets" (Value.array [.ofNat 7]).compact.toList]

theorem holds_looseText : Spec.Holds { sets := [.ofNat 7] } looseText looseMembers := by
  have hseven : Plain Spec.sectionDepth (.array [.ofNat 7]) :=
    .array (List.forall_mem_singleton.2 (.whole (by decide)))
  have hsets : Spec.Gives { sets := [.ofNat 7] } "sets" (Value.array [.ofNat 7]).compact.toList :=
    .sets (takes_compact hseven)
  have hone : NumberText ['1'] := .unsigned (w := ['1']) (.digits rfl (by decide) nofun) .none .none
  refine ⟨[], _, [], gaps_nil, ⟨⟨_, .some _ _, rfl⟩, ?_, ?_⟩, gaps_nil, ?_⟩
  · simp only [looseMembers, List.forall_mem_cons]
    exact ⟨.inr ⟨by decide, .number hone⟩, .inl hsets, nofun⟩
  · decide
  · decide +kernel

theorem Spec.reread_settled_odd : read oddText = .ok oddSpec ∧ Integral oddText.toList ∧
    read oddSpec.toJson.compact = .ok oddSpec ∧
    (read oddSpec.toJson.compact).map check = (read oddText).map check ∧
    Holds { sets := [.ofNat 7] } looseText looseMembers ∧
    read looseText = .ok { sets := [.ofNat 7] } := by
  obtain ⟨hagain, hcheck⟩ := reread_settled.1 _ _ read_oddText integral_oddText
  have hloose := reread_settled.2 _ _ _ holds_looseText
  exact ⟨read_oddText, integral_oddText, hagain, hcheck, holds_looseText, hloose⟩

end Policy
end TwinWall
