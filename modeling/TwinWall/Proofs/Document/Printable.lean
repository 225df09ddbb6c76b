import TwinWall.Proofs.Document.Built
import TwinWall.Proofs.Policy.Kept

/-! The characters of a document. Whatever goes into a document was checked, so its lines are printable
ASCII from the first to the last. -/
namespace TwinWall
namespace Document

open Net Policy Text

/-- From the blank to the tilde. -/
def isPrintable (c : Char) : Bool := 32 ≤ c.toNat && c.toNat ≤ 126

def Printable (s : String) : Prop := ∀ c ∈ s.toList, isPrintable c = true

theorem isPrintable_of_isPlain {c : Char} (h : isPlain c = true) : isPrintable c = true :=
  of_forall_ascii (P := fun c => isPlain c = true → isPrintable c = true) (by decide)
    (toNat_lt_of_isPlain h) h

theorem printable_of_isPlain {s : String} (h : IsPlain s) : Printable s :=
  fun c hc => isPrintable_of_isPlain (h.plain c hc)

@[simp] theorem printable_append {s t : String} : Printable (s ++ t) ↔ Printable s ∧ Printable t := by
  simp [Printable, or_imp, forall_and]

theorem printable_intercalate {s : String} {ls : List String} (hs : Printable s)
    (h : ∀ l ∈ ls, Printable l) : Printable (s.intercalate ls) := by
  intro c hc
  rcases mem_intercalate hc with hc | ⟨l, hl, hc⟩
  · exact hs c hc
  · exact h l hl c hc

/-- What stands in every document around the words of its policy. -/
def fixedTexts : List String :=
  ["", " ", "    ", "        ", ", ", ";", "@", "\"", "\x7b ", " \x7d", " \x7b", "    \x7d", "\x7d",
    "table inet ", "set ", "chain ", "type ", "flags interval", "auto-merge", "elements = ", "type",
    "hook", "priority", "policy", "filter", "nat"]

theorem printable_fixed {s : String} (h : s ∈ fixedTexts) : Printable s := by
  have hall : ∀ s ∈ fixedTexts, s.toList.all isPrintable = true := by decide +kernel
  exact List.all_eq_true.1 (hall s h)

theorem printable_quote {s : String} (h : Printable s) : Printable (quote s) := by
  have hmark : Printable "\"" := printable_fixed (by decide)
  simp only [quote, printable_append]
  exact ⟨⟨hmark, h⟩, hmark⟩

theorem printable_braced {ls : List String} (h : ∀ l ∈ ls, Printable l) : Printable (braced ls) := by
  have hopen : Printable "\x7b " := printable_fixed (by decide)
  have hclose : Printable " \x7d" := printable_fixed (by decide)
  have hcomma : Printable ", " := printable_fixed (by decide)
  have hitems := printable_intercalate hcomma h
  simp only [braced, printable_append]
  exact ⟨⟨hopen, hitems⟩, hclose⟩

theorem printable_keyword {w : String} (h : w ∈ Clause.keywords) : Printable w :=
  printable_of_isPlain (Clause.isPlain_keyword h)

theorem Operand.printable_text {α : Type} {item : α → String} {p : α → Prop}
    (hp : ∀ x, p x → IsPlain (item x)) {o : Operand α} (h : o.Readable p) :
    Printable (o.text item) := by
  cases o with
  | set n =>
    have hat : Printable "@" := printable_fixed (by decide)
    exact printable_append.2 ⟨hat, printable_of_isPlain h⟩
  | one x => exact printable_of_isPlain (hp x h)
  | list l =>
    refine printable_braced fun w hw => ?_
    obtain ⟨x, hx, rfl⟩ := List.mem_map.1 hw
    exact printable_of_isPlain (hp x (h.2 x hx))

namespace Clause

theorem printable_tokens {c : Clause} (h : c.Readable) : ∀ t ∈ c.tokens, Printable t.text := by
  cases c with
  | incoming i =>
    simp only [tokens, List.forall_mem_cons]
    exact ⟨printable_keyword (by decide), printable_quote (printable_of_isPlain h), List.forall_mem_nil _⟩
  | outgoing o =>
    simp only [tokens, List.forall_mem_cons]
    exact ⟨printable_keyword (by decide), printable_quote (printable_of_isPlain h), List.forall_mem_nil _⟩
  | address f s o =>
    simp only [tokens, List.forall_mem_cons]
    refine ⟨?_, ?_, ?_, List.forall_mem_nil _⟩
    · cases f <;> exact printable_keyword (by decide)
    · cases s <;> exact printable_keyword (by decide)
    · rw [Operand.text_token]
      exact Operand.printable_text (fun n _ => n.isPlain_brief) h
  | log mark =>
    simp only [tokens, List.forall_mem_cons]
    exact ⟨printable_keyword (by decide), printable_keyword (by decide),
      printable_quote (printable_of_isPlain h), printable_keyword (by decide),
      printable_keyword (by decide), List.forall_mem_nil _⟩
  | protocol t =>
    simp only [tokens, List.forall_mem_cons]
    refine ⟨printable_keyword (by decide), printable_keyword (by decide), ?_, List.forall_mem_nil _⟩
    cases t <;> exact printable_keyword (by decide)
  | port t o =>
    simp only [tokens, List.forall_mem_cons]
    refine ⟨?_, printable_keyword (by decide), ?_, List.forall_mem_nil _⟩
    · cases t <;> exact printable_keyword (by decide)
    · rw [Operand.text_token]
      exact Operand.printable_text (fun e _ => e.isPlain_text) h.2
  | icmpType f names =>
    simp only [tokens, List.forall_mem_cons]
    refine ⟨?_, printable_keyword (by decide), ?_, List.forall_mem_nil _⟩
    · cases f <;> exact printable_keyword (by decide)
    · exact printable_braced fun n hn => printable_of_isPlain (h.2 n hn)
  | destinationTo n =>
    simp only [tokens, List.forall_mem_cons]
    exact ⟨printable_keyword (by decide), printable_keyword (by decide),
      printable_of_isPlain (Subnet.v4 n).isPlain_brief, List.forall_mem_nil _⟩
  | sourceTo n =>
    simp only [tokens, List.forall_mem_cons]
    exact ⟨printable_keyword (by decide), printable_keyword (by decide),
      printable_of_isPlain (Subnet.v4 n).isPlain_brief, List.forall_mem_nil _⟩
  | verdict a =>
    simp only [tokens, List.forall_mem_cons]
    refine ⟨?_, List.forall_mem_nil _⟩
    cases a <;> exact printable_keyword (by decide)
  | jump c =>
    simp only [tokens, List.forall_mem_cons]
    exact ⟨printable_keyword (by decide), printable_of_isPlain (isPlain_jumpName c), List.forall_mem_nil _⟩

end Clause

/-- Printable texts with blanks between them. -/
theorem printable_spaced {ls : List String} (h : ∀ l ∈ ls, Printable l) :
    Printable (" ".intercalate ls) :=
  printable_intercalate (printable_fixed (by decide)) h

theorem Line.printable_text {l : Line} (h : l.Readable) : Printable l.text := by
  refine printable_spaced fun w hw => ?_
  obtain ⟨c, hc, rfl⟩ := List.mem_map.1 hw
  rw [Clause.text_eq]
  refine printable_spaced fun w hw => ?_
  obtain ⟨t, ht, rfl⟩ := List.mem_map.1 hw
  exact Clause.printable_tokens (h.2 c hc) t ht

theorem Entry.printable_text (e : Entry) : Printable e.text := by
  have hkind : Printable e.kind.text := by
    cases e.kind <;> exact printable_fixed (by decide)
  have hhook := printable_of_isPlain (isPlain_chainNames.1 e.hook)
  have hpolicy : Printable e.policy.text := by
    cases e.policy <;> exact printable_keyword (by decide)
  have hpriority := printable_of_isPlain (isPlain_ofInt e.priority)
  have hend : Printable ";" := printable_fixed (by decide)
  rw [text_eq]
  refine printable_spaced ?_
  simp only [words, List.forall_mem_cons, printable_append]
  exact ⟨printable_fixed (by decide), hkind, printable_fixed (by decide), hhook,
    printable_fixed (by decide), ⟨hpriority, hend⟩, printable_fixed (by decide), ⟨hpolicy, hend⟩,
    List.forall_mem_nil _⟩

theorem printable_setLines {d : NamedSet} (h : d.Sound) : ∀ l ∈ setLines d, Printable l := by
  have htype : Printable "type " := printable_fixed (by decide)
  have hflags : ∀ l ∈ (if d.type.hasIntervals then ["flags interval", "auto-merge"] else []),
      Printable l := by
    intro l hl
    refine printable_fixed ?_
    split at hl
    · rcases List.mem_pair.1 hl with rfl | rfl <;> decide
    · cases hl
  have hword : Printable "elements = " := printable_fixed (by decide)
  have helements : Printable (braced (d.elements.map elementText)) := by
    refine printable_braced fun w hw => ?_
    obtain ⟨e, he, rfl⟩ := List.mem_map.1 hw
    exact printable_of_isPlain (plain_elementText (h.elements e he))
  intro l hl
  simp only [setLines, List.mem_append, List.mem_singleton] at hl
  rcases hl with (rfl | hl) | rfl
  · exact printable_append.2 ⟨htype, printable_of_isPlain (isPlain_setType d.type)⟩
  · exact hflags l hl
  · exact printable_append.2 ⟨hword, helements⟩

theorem printable_chainLines {c : Chain} (h : c.Readable) : ∀ l ∈ chainLinesText c, Printable l := by
  intro l hl
  rcases List.mem_append.1 hl with hl | hl
  · obtain ⟨e, -, rfl⟩ : ∃ e, c.entry = some e ∧ e.text = l := by simpa using hl
    exact e.printable_text
  · obtain ⟨l, hmem, rfl⟩ := List.mem_map.1 hl
    exact Line.printable_text (h.lines l hmem)

theorem printable_blockLines {kind name : String} {ls : List String} (hk : Printable kind)
    (hn : IsPlain name) (h : ∀ l ∈ ls, Printable l) :
    ∀ l ∈ blockLines (kind ++ name) ls, Printable l := by
  have hopen : Printable "    " ∧ Printable " \x7b" :=
    ⟨printable_fixed (by decide), printable_fixed (by decide)⟩
  have hindent : Printable "        " := printable_fixed (by decide)
  have hends : ∀ l ∈ ["    \x7d", ""], Printable l := by
    simp only [List.forall_mem_cons]
    exact ⟨printable_fixed (by decide), printable_fixed (by decide), List.forall_mem_nil _⟩
  intro l hl
  rcases List.mem_cons.1 hl with rfl | hl
  · simp only [printable_append]
    exact ⟨⟨hopen.1, hk, printable_of_isPlain hn⟩, hopen.2⟩
  · rcases List.mem_append.1 hl with hl | hl
    · obtain ⟨m, hm, rfl⟩ := List.mem_map.1 hl
      exact printable_append.2 ⟨hindent, h m hm⟩
    · exact hends l hl

theorem Table.printable_lines {t : Table} (h : t.Readable) : ∀ l ∈ t.lines, Printable l := by
  intro l hl
  simp only [lines, List.mem_cons, List.mem_append, List.mem_flatMap, List.not_mem_nil,
    or_false] at hl
  rcases hl with rfl | (⟨d, hd, hl⟩ | ⟨c, hc, hl⟩) | rfl
  · simp only [printable_append]
    exact ⟨⟨printable_fixed (by decide), printable_of_isPlain h.name⟩, printable_fixed (by decide)⟩
  · exact printable_blockLines (printable_fixed (by decide)) (h.sets d hd).name.isPlain
      (printable_setLines (h.sets d hd)) l hl
  · exact printable_blockLines (printable_fixed (by decide)) (h.chains c hc).name
      (printable_chainLines (h.chains c hc)) l hl
  · exact printable_fixed (by decide)

/-- The text of a table is cut into its lines, with nothing behind the last. -/
theorem Table.splitOn_text {t : Table} (h : t.Readable) :
    t.text.toList.splitOn '\n' = t.lines.map String.toList ++ [[]] := by
  have hlines : ∀ l ∈ t.lines.map String.toList, '\n' ∉ l := by
    intro l hl
    obtain ⟨m, hm, rfl⟩ := List.mem_map.1 hl
    exact feed_notMem_lines h m hm
  have hsplit := splitOn_unlines hlines []
  rw [List.append_nil] at hsplit
  rw [toList_text, feed, hsplit]
  simp

/-- What a check accepts is kept entry by entry, and what is built of it is printable line by line. -/
theorem kept_and_printable :
    (∀ v r, Rule.check v = .ok r → r.Kept v) ∧
    (∀ v d, NamedSet.check v = .ok d → d.Kept v) ∧
    ∀ s t d, build s t = .ok d →
      ∀ l ∈ d.text.toList.splitOn '\n', ∀ c ∈ l, isPrintable c = true := by
  refine ⟨fun v r => Rule.kept_of_check, fun v d => NamedSet.kept_of_check, fun s t d hd l hl => ?_⟩
  obtain ⟨p, hbuilt⟩ := built_of_build hd
  rw [text, Table.splitOn_text hbuilt.readable] at hl
  rcases List.mem_append.1 hl with hl | hl
  · obtain ⟨m, hm, rfl⟩ := List.mem_map.1 hl
    exact Table.printable_lines hbuilt.readable m hm
  · rw [List.mem_singleton.1 hl]
    exact List.forall_mem_nil _

/-- Ports of two networks, between any interface and one. -/
def guestValue : Json.Value :=
  .record [("action", .string "drop"), ("version", .ofNat 6), ("protocol", .string "udp"),
    ("source", .array [.string "fd00::/8", .string "::1"]), ("destination", .array [.string "@lab"]),
    ("port", .array [.string "8000-8080", .ofNat 443]), ("iiface", .string "any"),
    ("oiface", .string "wg-0.5")]

def guestRule : Rule where
  version := .v6
  source := .list [.v6 (.ofLen 0xfd000000000000000000000000000000 8), .v6 (.ofLen 1 128)]
  destination := .set "lab"
  protocol := .udp
  ports := .list [.range 8000 8080, .single 443]
  action := .drop
  log := false
  direction := .forward .any (.named "wg-0.5")
  order := 0

def printersValue : Json.Value :=
  .record [("name", .string "printers"), ("type", .string "ether_addr"),
    ("elements", .array [.string "AA-BB-CC-00-11-2F", .string "aa:bb:cc:00:11:30"])]

def printers : NamedSet :=
  ⟨"printers", .etherAddr, [.mac "aa:bb:cc:00:11:2f", .mac "aa:bb:cc:00:11:30"]⟩

theorem kept_and_printable_guest :
    (Rule.check guestValue = .ok guestRule ∧ guestRule.Kept guestValue) ∧
    (NamedSet.check printersValue = .ok printers ∧ printers.Kept printersValue) ∧
    ∃ d, build webSpec webTarget = .ok d ∧
      ∀ l ∈ d.text.toList.splitOn '\n', ∀ c ∈ l, isPrintable c = true := by
  have hrule : Rule.check guestValue = .ok guestRule := toOption_eq_some.1 (by decide +kernel)
  have hset : NamedSet.check printersValue = .ok printers := by rfl
  obtain ⟨d, hd⟩ := exists_webDocument
  obtain ⟨hrules, hsets, hlines⟩ := kept_and_printable
  exact ⟨⟨hrule, hrules _ _ hrule⟩, ⟨hset, hsets _ _ hset⟩, d, hd, hlines _ _ _ hd⟩

end Document
end TwinWall
