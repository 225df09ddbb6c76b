import TwinWall.Settings
import TwinWall.Proofs.Json.Compact
import TwinWall.Proofs.Json.Passed
import TwinWall.Proofs.Json.RecordText

/-! Settings that are read from an object which holds some of their fields. Members may stand in any order and
layout, with escapes of any kind, and other members may stand among them. -/
namespace TwinWall
namespace Settings

open Json MemberText

/-- Settings whose numbers are between the bounds of their fields. -/
structure InRange (c : Settings) : Prop where
  timeout : c.timeout ≤ greatestTimeout
  least : leastPriority ≤ c.priority
  greatest : c.priority ≤ greatestPriority

/-- The settings with the given fields, and with the others as they are where nothing is given. -/
def part (c : Settings) (given : List String) : Settings where
  topologyPath := if "topology_path" ∈ given then c.topologyPath else ({} : Settings).topologyPath
  user := if "ssh_user" ∈ given then c.user else ({} : Settings).user
  program := if "ssh_program" ∈ given then c.program else ({} : Settings).program
  timeout := if "connect_timeout_secs" ∈ given then c.timeout else ({} : Settings).timeout
  directory := if "temp_dir" ∈ given then c.directory else ({} : Settings).directory
  priority := if "default_priority" ∈ given then c.priority else ({} : Settings).priority

def keys : List String := fields.map RecordField.key

/-- The texts of the value that some settings have for a key. -/
inductive Gives (c : Settings) : String → List Char → Prop
  | topologyPath {t : List Char} (spells : Spells t c.topologyPath.toList) :
    Gives c "topology_path" (inQuotes t)
  | user {t : List Char} (spells : Spells t c.user.toList) : Gives c "ssh_user" (inQuotes t)
  | program {t : List Char} (spells : Spells t c.program.toList) : Gives c "ssh_program" (inQuotes t)
  | timeout : Gives c "connect_timeout_secs" (Decimal.ofInt c.timeout).toList
  | directory {t : List Char} (spells : Spells t c.directory.toList) : Gives c "temp_dir" (inQuotes t)
  | priority : Gives c "default_priority" (Decimal.ofInt c.priority).toList

/-- A field of the settings, or another member with any value. -/
inductive IsMember (c : Settings) (m : MemberText) : Prop
  | field (gives : Gives c m.key m.value)
  | other (unknown : m.key ∉ keys) (value : Grammar .value m.value)

/-- The text of an object with some fields of the settings, each of them once, and other members. -/
structure Holds (c : Settings) (text : String) (ms : List MemberText) : Prop where
  shape : ∃ g s g', Gaps g ∧ Body s ms ∧ Gaps g' ∧ text.toList = g ++ '\x7b' :: (s ++ '\x7d' :: g')
  members : ∀ m ∈ ms, IsMember c m
  once : ((ms.map MemberText.key).filter (· ∈ keys)).Nodup

variable {c : Settings} {k : String} {t : List Char} {given : List String}

theorem part_nil (c : Settings) : c.part [] = {} := by
  simp [part]

theorem takes_textField {w key expected : String} {f : Settings → String → Settings} {d : Nat}
    {st : Settings} (h : Spells t w.toList) :
    Takes ((textField key expected f).reader d st) (inQuotes t) (f st w) := by
  have htakes := takes_stringOf expected h
  rw [String.ofList_toList] at htakes
  exact htakes.map (f st)

theorem takes_wholeField {n low high : Int} {key expected : String} {f : Settings → Int → Settings}
    {d : Nat} {st : Settings} (hn : Fits n) (hlow : low ≤ n) (hhigh : n ≤ high) :
    Takes ((wholeField key expected low high f).reader d st) (Decimal.ofInt n).toList (f st n) :=
  (takes_wholeOf expected hn hlow hhigh).map (f st)

theorem fits_timeout (hc : c.InRange) : Fits c.timeout := by
  have htimeout := hc.timeout
  constructor
  · simp only [Number.greatestSigned]
    omega
  · simp only [greatestTimeout, Number.greatestUnsigned] at *
    omega

theorem fits_priority (hc : c.InRange) : Fits c.priority := by
  obtain ⟨-, hleast, hgreatest⟩ := hc
  simp only [leastPriority, greatestPriority] at *
  constructor
  · simp only [Number.greatestSigned]
    omega
  · simp only [Number.greatestUnsigned]
    omega

/-- A field is filled in from the value that is given for it, and the others stay as they are. -/
theorem exists_field (hc : c.InRange) (h : Gives c k t) : ∃ f, RecordField.find? fields k = some f ∧
    ∀ d given, Takes (f.reader d (c.part given)) t (c.part (k :: given)) := by
  cases h with
  | topologyPath spells =>
    refine ⟨textField "topology_path" "path string" fun st x => { st with topologyPath := x },
      rfl, fun d given => ?_⟩
    have hpart : c.part ("topology_path" :: given) =
        { c.part given with topologyPath := c.topologyPath } := by simp [part]
    rw [hpart]
    exact takes_textField spells
  | user spells =>
    refine ⟨textField "ssh_user" "a string" fun st x => { st with user := x },
      rfl, fun d given => ?_⟩
    have hpart : c.part ("ssh_user" :: given) = { c.part given with user := c.user } := by simp [part]
    rw [hpart]
    exact takes_textField spells
  | program spells =>
    refine ⟨textField "ssh_program" "a string" fun st x => { st with program := x },
      rfl, fun d given => ?_⟩
    have hpart : c.part ("ssh_program" :: given) = { c.part given with program := c.program } := by
      simp [part]
    rw [hpart]
    exact takes_textField spells
  | timeout =>
    refine ⟨wholeField "connect_timeout_secs" "u64" 0 greatestTimeout fun st x =>
      { st with timeout := x.toNat },
      rfl, fun d given => ?_⟩
    have hpart : c.part ("connect_timeout_secs" :: given) =
        { c.part given with timeout := (c.timeout : Int).toNat } := by simp [part]
    rw [hpart]
    exact takes_wholeField (fits_timeout hc) (Int.natCast_nonneg _) (Int.ofNat_le.2 hc.timeout)
  | directory spells =>
    refine ⟨textField "temp_dir" "path string" fun st x => { st with directory := x },
      rfl, fun d given => ?_⟩
    have hpart : c.part ("temp_dir" :: given) = { c.part given with directory := c.directory } := by
      simp [part]
    rw [hpart]
    exact takes_textField spells
  | priority =>
    refine ⟨wholeField "default_priority" "i32" leastPriority greatestPriority fun st x =>
      { st with priority := x },
      rfl, fun d given => ?_⟩
    have hpart : c.part ("default_priority" :: given) = { c.part given with priority := c.priority } := by
      simp [part]
    rw [hpart]
    exact takes_wholeField (fits_priority hc) hc.least hc.greatest

/-- The keys of the fields among some members, the last one first. -/
def seenAfter (seen : List String) (ms : List MemberText) : List String :=
  ((ms.map MemberText.key).filter (· ∈ keys)).reverse ++ seen

/-- Each member leaves the settings with the fields that have been given so far. -/
theorem carries_members {d : Nat} {ms : List MemberText} (hc : c.InRange)
    (hmembers : ∀ m ∈ ms, IsMember c m) (hnodup : (seenAfter given ms).Nodup) :
    Carries (RecordField.member fields d) (c.part given, given) ms
      (c.part (seenAfter given ms), seenAfter given ms) := by
  have hgives : ∀ k t, Gives c k t → ∃ f, RecordField.find? fields k = some f ∧
      ∀ given, Takes (f.reader d (c.part given)) t (c.part (k :: given)) := by
    intro k t h
    obtain ⟨f, hfind, htakes⟩ := exists_field hc h
    exact ⟨f, hfind, htakes d⟩
  refine carries_given hgives (fun m hm => ?_) hnodup
  cases hmembers m hm with
  | field gives => exact .inl gives
  | other unknown value => exact .inr ⟨unknown, value⟩

theorem part_congr {l m : List String} (h : ∀ k ∈ keys, k ∈ l ↔ k ∈ m) : c.part l = c.part m := by
  simp only [part, h "topology_path" (by decide), h "ssh_user" (by decide), h "ssh_program" (by decide),
    h "connect_timeout_secs" (by decide), h "temp_dir" (by decide), h "default_priority" (by decide)]

/-- An object with some of the fields gives the settings with these, and the others as they are without it. -/
theorem ofText_holds {text : String} {ms : List MemberText} (hc : c.InRange) (h : Holds c text ms) :
    ofText text = c.part (ms.map MemberText.key) := by
  obtain ⟨⟨g, s, g', hg, hbody, hg', htext⟩, hmembers, honce⟩ := h
  have hnodup : (seenAfter [] ms).Nodup := by
    rw [seenAfter, List.append_nil]
    exact (List.reverse_perm _).nodup_iff.2 honce
  have hcarries : Carries (RecordField.member fields (depthLimit - 1)) ({}, []) ms
      (c.part (seenAfter [] ms), seenAfter [] ms) := by
    rw [← part_nil c]
    exact carries_members hc hmembers hnodup
  have hread : read text = .ok (c.part (seenAfter [] ms)) :=
    readAll_object (d := depthLimit - 1) hg hg' hbody hcarries (by simp) htext
  rw [ofText, hread]
  refine part_congr fun k hk => ?_
  simp [seenAfter, hk]

section Saved

theorem gaps_lineFeed : Gaps ['\n'] := by simp [Gaps, isGap]

theorem gaps_blank : Gaps [' '] := by simp [Gaps, isGap]

theorem gaps_indent : Gaps ['\n', ' ', ' '] := by simp [Gaps, isGap]

/-- A member on a line of its own, as it is written in a file. -/
def savedMember (k : String) (t behind : List Char) (h : Gaps behind) : MemberText where
  before := ['\n', ' ', ' ']
  spelling := k.toList.flatMap escape
  key := k
  left := []
  right := [' ']
  value := t
  behind := behind
  gaps_before := gaps_indent
  gaps_left := gaps_nil
  gaps_right := gaps_blank
  gaps_behind := h
  spells := spells_string k

theorem text_savedMember (k : String) (t behind : List Char) (h : Gaps behind) :
    (savedMember k t behind h).text = '\n' :: ' ' :: ' ' :: ((quoted k).toList ++ ':' :: ' ' :: (t ++ behind)) := by
  simp [savedMember, MemberText.text, MemberText.tail]

/-- The members of the text that settings are saved as. -/
def savedMembers (c : Settings) : List MemberText :=
  [savedMember "topology_path" (quoted c.topologyPath).toList [] gaps_nil,
    savedMember "ssh_user" (quoted c.user).toList [] gaps_nil,
    savedMember "ssh_program" (quoted c.program).toList [] gaps_nil,
    savedMember "connect_timeout_secs" (Decimal.ofInt c.timeout).toList [] gaps_nil,
    savedMember "temp_dir" (quoted c.directory).toList [] gaps_nil,
    savedMember "default_priority" (Decimal.ofInt c.priority).toList ['\n'] gaps_lineFeed]

theorem isMember_savedMembers (c : Settings) : ∀ m ∈ c.savedMembers, IsMember c m := by
  simp only [savedMembers, List.forall_mem_cons, quoted_eq_inQuotes]
  exact ⟨.field (.topologyPath (spells_string _)), .field (.user (spells_string _)),
    .field (.program (spells_string _)), .field .timeout, .field (.directory (spells_string _)),
    .field .priority, nofun⟩

theorem key_savedMembers (c : Settings) : c.savedMembers.map MemberText.key = keys := rfl

theorem toList_pretty (c : Settings) : ∃ s, Body s c.savedMembers ∧
    c.toJson.pretty.toList = '\x7b' :: (s ++ ['\x7d']) := by
  refine ⟨_, .some _ _, ?_⟩
  simp [toJson, Value.pretty, Value.prettyAt, Value.prettyMembers, block, indent, text_savedMember, later,
    String.intercalate_cons_of_ne_nil, Value.ofNat, Value.ofInt, Number.text, -toList_quoted]

/-- What is saved holds all fields, so it is read back. -/
theorem ofText_pretty {c : Settings} (hc : c.InRange) : ofText c.toJson.pretty = c := by
  obtain ⟨s, hbody, htext⟩ := toList_pretty c
  have honce : ((c.savedMembers.map MemberText.key).filter (· ∈ keys)).Nodup := by
    rw [key_savedMembers]
    decide
  have hholds : Holds c c.toJson.pretty c.savedMembers :=
    ⟨⟨[], s, [], gaps_nil, hbody, gaps_nil, htext⟩, isMember_savedMembers c, honce⟩
  rw [ofText_holds hc hholds, key_savedMembers]
  rfl

end Saved

end Settings
end TwinWall
