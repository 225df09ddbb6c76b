import Mathlib
import TwinWall.Nft.Check
import TwinWall.Proofs.Text.Trimmed

/-! Why a document is refused. The status of nft alone decides, and whatever nft has written, a document that is
refused has a reason. A report that is no list of errors tells one error a line; the marks in front of an error
end in a blank, so they never take all of a line. -/
namespace TwinWall
namespace Nft

open Text

/-- A text that is not only blanks and does not end in one. -/
def Ends (s : List Char) : Prop := ∃ c, s.getLast? = some c ∧ isBlank c = false

section Marks

variable {p s t : List Char}

/-- A text some times in a row. -/
def repeated (p : List Char) (n : Nat) : List Char := (List.replicate n p).flatten

theorem repeated_succ (p : List Char) (n : Nat) : repeated p (n + 1) = p ++ repeated p n := rfl

theorem exists_dropRepeated (hp : p ≠ []) {n : Nat} (hn : s.length ≤ n) :
    (∃ k, s = repeated p k ++ dropRepeated p n s) ∧ ¬ p <+: dropRepeated p n s := by
  induction n generalizing s with
  | zero =>
    obtain rfl : s = [] := List.eq_nil_of_length_eq_zero (Nat.le_zero.1 hn)
    exact ⟨⟨0, rfl⟩, fun h => hp (List.prefix_nil.1 h)⟩
  | succ n ih =>
    rw [dropRepeated]
    split
    · next hmark =>
      obtain ⟨r, rfl⟩ := List.isPrefixOf_iff_prefix.1 hmark
      have hpos := List.length_pos_iff.2 hp
      rw [List.length_append] at hn
      rw [List.drop_left]
      obtain ⟨⟨k, hk⟩, hrest⟩ := ih (s := r) (by omega)
      refine ⟨⟨k + 1, ?_⟩, hrest⟩
      rw [repeated_succ, List.append_assoc, ← hk]
    · next hmark => exact ⟨⟨0, rfl⟩, fun h => hmark (List.isPrefixOf_iff_prefix.2 h)⟩

/-- A beginning is taken off as often as it is there. -/
theorem exists_dropAll (hp : p ≠ []) (s : List Char) :
    (∃ k, s = repeated p k ++ dropAll p s) ∧ ¬ p <+: dropAll p s :=
  exists_dropRepeated hp (Nat.le_refl s.length)

theorem getLast?_repeated (p : List Char) {k : Nat} (hk : k ≠ 0) :
    (repeated p k).getLast? = p.getLast? := by
  obtain ⟨k, rfl⟩ := Nat.exists_eq_succ_of_ne_zero hk
  induction k with
  | zero => rw [repeated_succ, repeated, List.replicate_zero, List.flatten_nil, List.append_nil]
  | succ k ih =>
    rw [repeated_succ, List.getLast?_append, ih (Nat.succ_ne_zero k)]
    cases p.getLast? <;> rfl

/-- What ends in a blank is not all of a text that does not. -/
theorem Ends.of_append {a b : List Char} (h : Ends (a ++ b))
    (ha : ∀ c ∈ a.getLast?, isBlank c = true) : Ends b := by
  obtain ⟨c, hc, hblank⟩ := h
  rw [List.getLast?_append] at hc
  cases hb : b.getLast? with
  | some d =>
    rw [hb] at hc
    cases hc
    exact ⟨_, hb, hblank⟩
  | none =>
    rw [hb, Option.none_or] at hc
    rw [ha c hc] at hblank
    cases hblank

theorem Ends.dropAll (hs : Ends s) (hp : ∃ c, p.getLast? = some c ∧ isBlank c = true) :
    Ends (dropAll p s) := by
  obtain ⟨c, hlast, hblank⟩ := hp
  have hne : p ≠ [] := by
    rintro rfl
    cases hlast
  obtain ⟨⟨k, hk⟩, -⟩ := exists_dropAll hne s
  have hmarks : ∀ d ∈ (repeated p k).getLast?, isBlank d = true := by
    intro d hd
    by_cases hzero : k = 0
    · subst hzero
      cases hd
    · rw [getLast?_repeated p hzero, hlast] at hd
      cases hd
      exact hblank
  rw [hk] at hs
  exact hs.of_append hmarks

end Marks

section Lines

/-- A line of a report, and the error that it tells: the end of what stands between its blanks, behind all marks,
first those of an error and then those of the program. -/
structure Tells (line : List Char) (error : String) : Prop where
  marked : ∃ t n m, Trims line t ∧
    t = repeated errorMark n ++ (repeated programMark m ++ error.toList) ∧
    ¬ errorMark <+: repeated programMark m ++ error.toList
  unmarked : ¬ programMark <+: error.toList
  ends : Ends error.toList

theorem ends_trimmed {line : List Char} (h : allBlank line = false) : Ends (trimmed line) := by
  have hne : trimmed line ≠ [] := fun hnil => by
    rw [trimmed_eq_nil_iff.1 hnil] at h
    cases h
  cases hlast : (trimmed line).getLast? with
  | none => exact absurd (List.getLast?_eq_none_iff.1 hlast) hne
  | some c => exact ⟨c, hlast, (trims_trimmed line).last c hlast⟩

theorem ends_unmarked {line : List Char} (h : allBlank line = false) : Ends (unmarked line) :=
  ((ends_trimmed h).dropAll ⟨' ', rfl, rfl⟩).dropAll ⟨' ', rfl, rfl⟩

theorem tells_unmarked {line : List Char} (h : allBlank line = false) :
    Tells line (String.ofList (unmarked line)) := by
  obtain ⟨⟨n, hn⟩, herror⟩ := exists_dropAll (p := errorMark) (by decide) (trimmed line)
  obtain ⟨⟨m, hm⟩, hprogram⟩ :=
    exists_dropAll (p := programMark) (by decide) (dropAll errorMark (trimmed line))
  rw [hm] at hn herror
  refine ⟨⟨trimmed line, n, m, trims_trimmed line, ?_, ?_⟩, ?_, ?_⟩ <;> rw [String.toList_ofList]
  · exact hn
  · exact herror
  · exact hprogram
  · exact ends_unmarked h

/-- The lines that are not only blanks. -/
def saidLines (report : String) : List (List Char) :=
  (linesOf report.toList).filter fun l => !allBlank l

theorem forall₂_tells {ls : List (List Char)} (h : ∀ l ∈ ls, allBlank l = false) :
    List.Forall₂ Tells ls (ls.map fun l => String.ofList (unmarked l)) := by
  rw [List.forall₂_map_right_iff, List.forall₂_same]
  exact fun l hl => tells_unmarked (h l hl)

theorem plainErrors_tell (report : String) :
    List.Forall₂ Tells (saidLines report) (plainErrors report.toList) := by
  have hfilter : (fun l : List Char => !(trimmed l).isEmpty) = fun l => !allBlank l := by
    funext l
    rw [Bool.not_inj_iff, Bool.eq_iff_iff, List.isEmpty_iff, trimmed_eq_nil_iff]
  rw [plainErrors, hfilter]
  exact forall₂_tells fun l hl => by simpa using (List.mem_filter.1 hl).2

end Lines

section Json

open Json

/-- A report that is a JSON object with a list of errors. -/
def HasErrors (report : String) (l : List Value) : Prop :=
  ∃ m, Json.read report = .ok (.object m) ∧ Members.get? "errors" m = some (.array l)

/-- The messages of errors. An error that is no object with a text as its message has none. -/
inductive Messages : List Value → List String → Prop
  | nil : Messages [] []
  | told {m : Members} {text : String} {l : List Value} {ts : List String}
    (message : Members.get? "message" m = some (.string text)) (rest : Messages l ts) :
    Messages (.object m :: l) (text :: ts)
  | silent {v : Value} {l : List Value} {ts : List String}
    (none : ∀ m text, v = .object m → Members.get? "message" m ≠ some (.string text))
    (rest : Messages l ts) : Messages (v :: l) ts

theorem get?_eq_some {v w : Value} {k : String} :
    v.get? k = some w ↔ ∃ m, v = .object m ∧ Members.get? k m = some w := by
  cases v <;> simp [Value.get?]

theorem string?_eq_some {v : Value} {s : String} : v.string? = some s ↔ v = .string s := by
  cases v <;> simp [Value.string?]

theorem array?_eq_some {v : Value} {l : List Value} : v.array? = some l ↔ v = .array l := by
  cases v <;> simp [Value.array?]

theorem messageOf?_eq_some {v : Value} {text : String} : messageOf? v = some text ↔
    ∃ m, v = .object m ∧ Members.get? "message" m = some (.string text) := by
  simp [messageOf?, Option.bind_eq_some_iff, get?_eq_some, string?_eq_some]

theorem messages_filterMap (l : List Value) : Messages l (l.filterMap messageOf?) := by
  induction l with
  | nil => exact .nil
  | cons v l ih =>
    cases hv : messageOf? v with
    | some text =>
      obtain ⟨m, rfl, hm⟩ := messageOf?_eq_some.1 hv
      rw [List.filterMap_cons_some hv]
      exact .told hm ih
    | none =>
      rw [List.filterMap_cons_none hv]
      refine .silent (fun m text hobject hmessage => ?_) ih
      rw [messageOf?_eq_some.2 ⟨m, hobject, hmessage⟩] at hv
      cases hv

theorem errorList?_eq_some {report : String} {l : List Value} :
    errorList? report = some l ↔ HasErrors report l := by
  rw [errorList?, HasErrors]
  cases Json.read report with
  | error f => simp
  | ok v => simp [Option.bind_eq_some_iff, get?_eq_some, array?_eq_some]

theorem errors_of_hasErrors {report : String} {l : List Value} (h : HasErrors report l) :
    Messages l (errors report) := by
  rw [errors, errorList?_eq_some.2 h]
  exact messages_filterMap l

theorem errors_of_not_hasErrors {report : String} (h : ∀ l, ¬ HasErrors report l) :
    List.Forall₂ Tells (saidLines report) (errors report) := by
  have hnone : errorList? report = none := by
    cases hlist : errorList? report with
    | none => rfl
    | some l => exact absurd (errorList?_eq_some.1 hlist) (h l)
  rw [errors, hnone]
  exact plainErrors_tell report

end Json

section Verdicts

open Program

/-- nft ran and did not end in success, with what it wrote for the operator. -/
inductive Failed : Ending → List UInt8 → Prop
  | status {n : Nat} {out err : List UInt8} (ne : n ≠ 0) : Failed (.exited n out err) err
  | signal {out err : List UInt8} {n : Nat} {dumped : Bool} : Failed (.killed out err n dumped) err

/-- What is said of a document, by how nft has ended. -/
structure Judged (ending : Ending) (v : Verdict) : Prop where
  accepted : v = .accepted ↔ ∃ out err, ending = .exited 0 out err
  refused : (∃ l, v = .refused l) ↔ ∃ err, Failed ending err
  reasons : ∀ l, v = .refused l → l ≠ []
  told : ∀ err, Failed ending err → errors (Utf8.mend err) ≠ [] →
    v = .refused (errors (Utf8.mend err))

theorem exists_refusal (ended : String) (err : List UInt8) :
    ∃ l, refusal ended err = .refused l ∧ l ≠ [] := by
  rw [refusal]
  split
  · exact ⟨_, rfl, by simp⟩
  · next hne => exact ⟨_, rfl, hne⟩

theorem refusal_of_errors (ended : String) {err : List UInt8} (h : errors (Utf8.mend err) ≠ []) :
    refusal ended err = .refused (errors (Utf8.mend err)) := by
  rw [refusal]
  split
  · next hnil => exact absurd hnil h
  · rfl

theorem judged_refusal {ending : Ending} {err : List UInt8} (h : Failed ending err) (ended : String) :
    Judged ending (refusal ended err) := by
  obtain ⟨l, hl, hne⟩ := exists_refusal ended err
  have hunique : ∀ err', Failed ending err' → err' = err := by
    cases h <;> (rintro _ ⟨⟩; rfl)
  refine ⟨?_, ⟨fun _ => ⟨err, h⟩, fun _ => ⟨l, hl⟩⟩, ?_, ?_⟩
  · rw [hl]
    constructor
    · rintro ⟨⟩
    · rintro ⟨out, err', rfl⟩
      cases h with
      | status ne => exact absurd rfl ne
  · intro l' hl'
    rw [hl] at hl'
    cases hl'
    exact hne
  · intro err' herr' herrors
    obtain rfl := hunique err' herr'
    exact refusal_of_errors ended herrors

theorem judged_notRun {ending : Ending} (hexited : ∀ out err, ending ≠ .exited 0 out err)
    (hfailed : ∀ err, ¬ Failed ending err) (reason : String) : Judged ending (.notRun reason) where
  accepted := ⟨nofun, fun ⟨out, err, h⟩ => absurd h (hexited out err)⟩
  refused := ⟨nofun, fun ⟨err, h⟩ => absurd h (hfailed err)⟩
  reasons := nofun
  told := fun err h => absurd h (hfailed err)

theorem judged_verdict (program : String) (ending : Ending) : Judged ending (verdict program ending) := by
  cases ending with
  | notStarted reason => exact judged_notRun (by simp) (by rintro _ ⟨⟩) _
  | unfed reason => exact judged_notRun (by simp) (by rintro _ ⟨⟩) _
  | killed out err signal dumped => exact judged_refusal .signal _
  | exited status out err =>
    rw [verdict]
    split
    · next hzero =>
      subst hzero
      refine ⟨⟨fun _ => ⟨out, err, rfl⟩, fun _ => rfl⟩, ⟨?_, ?_⟩, nofun, ?_⟩
      · rintro ⟨l, ⟨⟩⟩
      · rintro ⟨err', ⟨⟩⟩
        contradiction
      · rintro err' ⟨⟩
        contradiction
    · next hne => exact judged_refusal (.status hne) _

end Verdicts

/-- A refused document always comes with a reason. It is refused just if nft ran and did not end in success, and
then with every error of its report. A report with a list of errors tells their messages, and any other report
one error for each line that is not blank, in their order. -/
theorem reasons_settled :
    (∀ behaviour before program d, Judged
      (Program.start behaviour before (checkCall program d.text)).1
      (check behaviour before program d).1) ∧
    (∀ report, (∀ l, ¬ HasErrors report l) →
      List.Forall₂ Tells (saidLines report) (errors report)) ∧
    ∀ report l, HasErrors report l → Messages l (errors report) :=
  ⟨fun _ _ program _ => judged_verdict program _, fun _ => errors_of_not_hasErrors,
    fun _ _ => errors_of_hasErrors⟩

/-- Repeated marks, a line of blanks only, a line of marks only, and marks in the other order. -/
def plainReport : String :=
  "Error: nft: nft: bad token\r\n \u00a0\t\nError: Error:\n  nft: Error: no rule \n"

/-- Errors with a message, without one, with one that is no text, and with two. -/
def listReport : String :=
  "\x7b\"errors\": [\x7b\"message\": \"set web does not exist\"\x7d, 3, \x7b\"message\": null\x7d, " ++
    "\x7b\"message\": \"first\", \"message\": \"last\"\x7d]\x7d"

def listedErrors : List Json.Value :=
  [.object [("message", .string "set web does not exist")], .number (.whole 3),
    .object [("message", .null)], .object [("message", .string "last")]]

theorem hasErrors_listReport : HasErrors listReport listedErrors :=
  ⟨[("errors", .array listedErrors)], by cbv, rfl⟩

theorem not_hasErrors_plainReport : ∀ l, ¬ HasErrors plainReport l := by
  have hnone : errorList? plainReport = none := by cbv
  intro l hl
  rw [errorList?_eq_some.2 hl] at hnone
  cases hnone

theorem reasons_settled_odd :
    (∀ l, ¬ HasErrors plainReport l) ∧
    List.Forall₂ Tells (saidLines plainReport) ["bad token", "Error:", "Error: no rule"] ∧
    HasErrors listReport listedErrors ∧
    Messages listedErrors ["set web does not exist", "last"] := by
  have hplain : errors plainReport = ["bad token", "Error:", "Error: no rule"] := by cbv
  have hlist : errors listReport = ["set web does not exist", "last"] := by cbv
  have hsaid := reasons_settled.2.1 _ not_hasErrors_plainReport
  have hmessages := reasons_settled.2.2 _ _ hasErrors_listReport
  rw [hplain] at hsaid
  rw [hlist] at hmessages
  exact ⟨not_hasErrors_plainReport, hsaid, hasErrors_listReport, hmessages⟩

end Nft
end TwinWall
