import TwinWall.Proofs.Document.Tokens

/-! The text of a table reads as that table. The text is first cut into its lines, and then block after
block is read back. -/
namespace TwinWall
namespace Document

open Net Policy Text

def blockLines (head : String) (lines : List String) : List String :=
  ("    " ++ head ++ " \x7b") :: (lines.map ("        " ++ ·) ++ ["    \x7d", ""])

def chainLinesText (c : Chain) : List String :=
  (c.entry.map Entry.text).toList ++ c.lines.map Line.text

/-- The lines of the text of a table. -/
def Table.lines (t : Table) : List String :=
  ("table inet " ++ t.name ++ " \x7b") ::
    (t.sets.flatMap (fun s => blockLines ("set " ++ s.name) (setLines s)) ++
      t.chains.flatMap (fun c => blockLines ("chain " ++ c.name) (chainLinesText c)) ++ ["\x7d"])

def feed (ls : List String) : List Char := unlines (ls.map String.toList)

@[simp] theorem feed_append (ls ms : List String) : feed (ls ++ ms) = feed ls ++ feed ms := by
  simp [feed]

theorem feed_cons (l : String) (ls : List String) :
    feed (l :: ls) = l.toList ++ '\n' :: feed ls := by
  simp [feed, unlines_cons]

@[simp] theorem feed_nil : feed [] = [] := rfl

theorem toList_blockText (head : String) (ls : List String) :
    (blockText head ls).toList = feed (blockLines head ls) := by
  have hlines : (String.join (ls.map fun l => "        " ++ l ++ "\n")).toList =
      feed (ls.map ("        " ++ ·)) := by
    induction ls with
    | nil => rfl
    | cons l ls ih =>
      rw [List.map_cons, List.map_cons, String.join_cons, String.toList_append, ih, feed_cons]
      simp
  simp [blockText, blockLines, feed_cons, hlines]

theorem toList_join_map {α : Type} {f : α → String} {g : α → List String} {l : List α}
    (h : ∀ x, (f x).toList = feed (g x)) : (String.join (l.map f)).toList = feed (l.flatMap g) := by
  induction l with
  | nil => rfl
  | cons x l ih =>
    rw [List.map_cons, String.join_cons, String.toList_append, ih, h, List.flatMap_cons, feed_append]

theorem Table.toList_text (t : Table) : t.text.toList = feed t.lines := by
  have hsets := toList_join_map (f := setText) (l := t.sets) fun s =>
    toList_blockText ("set " ++ s.name) (setLines s)
  have hchains := toList_join_map (f := Chain.text) (l := t.chains) fun c =>
    toList_blockText ("chain " ++ c.name) (chainLinesText c)
  simp only [text, lines, String.toList_append, hsets, hchains, feed_cons, feed_append, feed_nil]
  simp

/-- The words of the lines that have any. -/
def rowsOf (ls : List String) : List (List String) :=
  (ls.map fun l => words l.toList).filter (· ≠ [])

theorem rows_feed {ls : List String} (h : ∀ l ∈ ls, '\n' ∉ l.toList) : rows (feed ls) = rowsOf ls := by
  have hfeed : ∀ l ∈ ls.map String.toList, '\n' ∉ l := by
    intro l hl
    obtain ⟨s, hs, rfl⟩ := List.mem_map.1 hl
    exact h s hs
  rw [feed, rows_unlines hfeed, List.map_map]
  rfl

@[simp] theorem rowsOf_append (ls ms : List String) : rowsOf (ls ++ ms) = rowsOf ls ++ rowsOf ms := by
  simp [rowsOf]

theorem rowsOf_flatMap {α : Type} (f : α → List String) (l : List α) :
    rowsOf (l.flatMap f) = l.flatMap fun x => rowsOf (f x) := by
  induction l with
  | nil => rfl
  | cons x l ih => rw [List.flatMap_cons, rowsOf_append, ih, List.flatMap_cons]

theorem rowsOf_singleton {l : String} {ws : List String} (h : words l.toList = ws) (hne : ws ≠ []) :
    rowsOf [l] = [ws] := by
  simp [rowsOf, h, hne]

theorem words_two {v w : String} (hv : IsWord v) (s : List Char) (hw : words s = [w]) :
    words (v.toList ++ ' ' :: s) = [v, w] := by
  rw [words_append, words_word hv, hw]
  rfl

theorem words_indent (l : String) : words ("        " ++ l).toList = words l.toList := by
  simp

theorem rowsOf_indent (ls : List String) : rowsOf (ls.map ("        " ++ ·)) = rowsOf ls := by
  induction ls with
  | nil => rfl
  | cons l ls ih =>
    have hl : rowsOf ["        " ++ l] = rowsOf [l] := by
      rw [rowsOf, List.map_singleton, words_indent]
      rfl
    calc rowsOf ((l :: ls).map ("        " ++ ·))
        = rowsOf ["        " ++ l] ++ rowsOf (ls.map ("        " ++ ·)) := by
          rw [← rowsOf_append]
          rfl
      _ = rowsOf [l] ++ rowsOf ls := by rw [hl, ih]
      _ = rowsOf (l :: ls) := (rowsOf_append [l] ls).symm

theorem isWord_brace : IsWord "\x7b" ∧ IsWord "\x7d" :=
  ⟨⟨by decide, by decide, by decide⟩, ⟨by decide, by decide, by decide⟩⟩

theorem rowsOf_blockLines {kind name : String} (hk : IsWord kind) (hn : IsWord name)
    (ls : List String) :
    rowsOf (blockLines (kind ++ " " ++ name) ls) =
      [kind, name, "\x7b"] :: (rowsOf ls ++ [["\x7d"]]) := by
  have hhead : words ("    " ++ (kind ++ " " ++ name) ++ " \x7b").toList = [kind, name, "\x7b"] := by
    have htext : ("    " ++ (kind ++ " " ++ name) ++ " \x7b").toList =
        ' ' :: ' ' :: ' ' :: ' ' :: (kind.toList ++ ' ' :: (name.toList ++ ' ' :: "\x7b".toList)) := by
      simp
    rw [htext]
    simp only [words_blank]
    rw [words_append, words_append, words_word hk, words_word hn, words_word isWord_brace.1]
    rfl
  have htail : rowsOf ["    \x7d", ""] = [["\x7d"]] := by
    decide +kernel
  calc rowsOf (blockLines (kind ++ " " ++ name) ls)
      = rowsOf ["    " ++ (kind ++ " " ++ name) ++ " \x7b"] ++
          (rowsOf (ls.map ("        " ++ ·)) ++ rowsOf ["    \x7d", ""]) := by
        rw [← rowsOf_append, ← rowsOf_append]
        rfl
    _ = [[kind, name, "\x7b"]] ++ (rowsOf ls ++ [["\x7d"]]) := by
        rw [rowsOf_singleton hhead (by simp), rowsOf_indent, htail]
    _ = [kind, name, "\x7b"] :: (rowsOf ls ++ [["\x7d"]]) := rfl

theorem blocksFrom?_body {h : List String} {a b r : List (List String)}
    (hb : ∀ row ∈ b, row ≠ ["\x7d"]) :
    blocksFrom? (some (h, a)) (b ++ ["\x7d"] :: r) =
      (block? h (a ++ b)).bind fun x => (blocksFrom? none r).map (x :: ·) := by
  induction b generalizing a with
  | nil =>
    rw [List.nil_append, blocksFrom?, if_pos rfl, List.append_nil]
    cases block? h a <;> cases blocksFrom? none r <;> rfl
  | cons row b ih =>
    have ih := ih (a := a ++ [row]) fun x hx => hb x (by simp [hx])
    rw [List.cons_append, blocksFrom?, if_neg (hb row (by simp)), ih, List.append_assoc,
      List.singleton_append]

/-- A block is read off the front of the rows. -/
theorem blocksFrom?_block {k n : String} {b r : List (List String)}
    (hb : ∀ row ∈ b, row ≠ ["\x7d"]) :
    blocksFrom? none ([k, n, "\x7b"] :: (b ++ [["\x7d"]]) ++ r) =
      (block? [k, n] b).bind fun x => (blocksFrom? none r).map (x :: ·) := by
  have hbody := blocksFrom?_body (h := [k, n]) (a := []) (r := r) hb
  rw [List.cons_append, List.append_assoc, blocksFrom?, if_neg (by simp), if_pos (by rfl)]
  exact hbody

theorem plain_elementText {t : SetType} {e : SetElement} (h : e.OfType t) :
    IsPlain (elementText e) := by
  cases e with
  | network n => exact n.isPlain_brief
  | port p => exact p.isPlain_text
  | mac s =>
    cases t with
    | etherAddr => exact h
    | _ => exact h.elim

theorem element?_elementText {t : SetType} {e : SetElement} (h : e.OfType t) :
    element? t (elementText e) = some e := by
  cases t with
  | ipv4Addr =>
    cases e with
    | network n => rw [element?, elementText, (printing_subnet .v4).read n h, Option.map_some]
    | _ => exact h.elim
  | ipv6Addr =>
    cases e with
    | network n => rw [element?, elementText, (printing_subnet .v6).read n h, Option.map_some]
    | _ => exact h.elim
  | inetService =>
    cases e with
    | port p => rw [element?, elementText, printing_port.read p h, Option.map_some]
    | _ => exact h.elim
  | etherAddr =>
    cases e with
    | mac s => rfl
    | _ => exact h.elim

def elementsToken (s : NamedSet) : Token := .group (s.elements.map elementText)

theorem readable_elementsToken {s : NamedSet} (h : s.Sound) : (elementsToken s).Readable := by
  refine ⟨by simpa using h.elements_ne_nil, fun w hw => ?_⟩
  obtain ⟨e, he, rfl⟩ := List.mem_map.1 hw
  exact plain_elementText (h.elements e he)

theorem isPlain_setType (t : SetType) : IsPlain t.text := by
  have hmem : t ∈ SetType.all := by cases t <;> decide
  have hname : t.text ∈ SetType.all.map SetType.text := List.mem_map_of_mem hmem
  exact Clause.isPlain_fixedName
    (by simp only [Clause.fixedNames, List.mem_append, hname, or_true, true_or])

theorem isWord_of_all {w : String} (h : w.toList ≠ [] ∧ ' ' ∉ w.toList ∧ '\n' ∉ w.toList) :
    IsWord w := ⟨h.1, h.2.1, h.2.2⟩

theorem words_elements {s : NamedSet} (h : s.Sound) :
    words ("elements = " ++ braced (s.elements.map elementText)).toList =
      "elements" :: "=" :: (elementsToken s).words := by
  have htext : ("elements = " ++ braced (s.elements.map elementText)).toList =
      "elements".toList ++ ' ' :: ("=".toList ++ ' ' :: (elementsToken s).text.toList) := by
    simp [elementsToken]
  rw [htext, words_append, words_append, words_word (isWord_of_all (by decide)),
    words_word (isWord_of_all (by decide)), Token.words_text (readable_elementsToken h)]
  rfl

def flagRows (t : SetType) : List (List String) :=
  if t.hasIntervals then [["flags", "interval"], ["auto-merge"]] else []

theorem rowsOf_setLines {s : NamedSet} (h : s.Sound) :
    rowsOf (setLines s) =
      ["type", s.type.text] :: (flagRows s.type ++ ["elements" :: "=" :: (elementsToken s).words]) := by
  have htype : words ("type " ++ s.type.text).toList = ["type", s.type.text] := by
    have htext : ("type " ++ s.type.text).toList = "type".toList ++ ' ' :: s.type.text.toList := by
      simp
    rw [htext]
    exact words_two (isWord_of_all (by decide)) _ (words_word (isPlain_setType s.type).isWord)
  have hflags : rowsOf (if s.type.hasIntervals then ["flags interval", "auto-merge"] else []) =
      flagRows s.type := by
    cases s.type <;> decide +kernel
  rw [setLines, rowsOf_append, rowsOf_append, rowsOf_singleton htype (by simp), hflags,
    rowsOf_singleton (words_elements h) (by simp), List.append_assoc]
  rfl

theorem setBody?_rows {s : NamedSet} (h : s.Sound) :
    setBody? (rowsOf (setLines s)) = some (s.type, s.elements) := by
  have htokens : tokens? (elementsToken s).words = some [elementsToken s] := by
    have ht : ∀ t ∈ [elementsToken s], t.Readable := by simpa using readable_elementsToken h
    simpa using Token.tokens?_words ht
  have hread : (s.elements.map elementText).mapM (element? s.type) = some s.elements :=
    mapM_map_eq_some fun e he => element?_elementText (h.elements e he)
  have helements : elements? s.type ["elements" :: "=" :: (elementsToken s).words] =
      some s.elements := by
    rw [elements?, htokens]
    exact hread
  have htype : ∀ rs, setType? (["type", s.type.text] :: (flagRows s.type ++ rs)) = some (s.type, rs) := by
    intro rs
    cases s.type <;> rfl
  rw [rowsOf_setLines h, setBody?, htype]
  simp only [Option.bind_eq_bind, Option.bind_some]
  rw [helements, Option.bind_some]

theorem signed?_ofInt (n : Int) : Decimal.signed? (Decimal.ofInt n).toList = some n := by
  cases n with
  | ofNat n =>
    have hdash : '-' ∉ n.repr.toList := Address.notMem_repr (by decide)
    have hread := unsigned?_repr n
    rw [Decimal.ofInt]
    generalize n.repr.toList = s at *
    rw [Decimal.signed?.eq_def]
    split
    · exact absurd (List.mem_cons_self ..) hdash
    · rw [hread]
      rfl
  | negSucc n =>
    have htext : (Decimal.ofInt (.negSucc n)).toList = '-' :: (n + 1).repr.toList := by
      simp [Decimal.ofInt]
    rw [htext, Decimal.signed?, Decimal.digits?_repr]
    rfl

theorem isPlain_ofInt (n : Int) : IsPlain (Decimal.ofInt n) := by
  cases n with
  | ofNat n => exact isPlain_repr n
  | negSucc n =>
    refine ⟨by simp [Decimal.ofInt], fun c hc => ?_⟩
    have htext : (Decimal.ofInt (.negSucc n)).toList = '-' :: (n + 1).repr.toList := by
      simp [Decimal.ofInt]
    rw [htext] at hc
    rcases List.mem_cons.1 hc with rfl | hc
    · decide
    · exact (isPlain_repr (n + 1)).plain c hc

theorem isWord_marked {w : String} (h : IsPlain w) : IsWord (w ++ ";") := by
  refine ⟨by simp, ?_, ?_⟩
  · simpa using h.isWord.no_blank
  · simpa using h.isWord.no_feed

namespace Entry

def words (e : Entry) : List String :=
  ["type", e.kind.text, "hook", e.hook.text, "priority", Decimal.ofInt e.priority ++ ";", "policy",
    e.policy.text ++ ";"]

theorem isWord_of_mem_words (e : Entry) : ∀ w ∈ e.words, IsWord w := by
  have hkind : IsWord e.kind.text := by cases e.kind <;> exact isWord_of_all (by decide)
  have hhook : IsWord e.hook.text := by cases e.hook <;> exact isWord_of_all (by decide)
  have hpolicy : IsWord (e.policy.text ++ ";") := by
    cases e.policy <;> exact isWord_of_all (by decide)
  simp only [words, List.forall_mem_cons]
  exact ⟨isWord_of_all (by decide), hkind, isWord_of_all (by decide), hhook,
    isWord_of_all (by decide), isWord_marked (isPlain_ofInt e.priority), isWord_of_all (by decide),
    hpolicy, nofun⟩

theorem text_eq (e : Entry) : e.text = " ".intercalate e.words := by
  apply String.toList_inj.1
  simp [text, words]

theorem words_text (e : Entry) : Text.words e.text.toList = e.words := by
  rw [text_eq]
  exact words_joined_words e.isWord_of_mem_words

theorem feed_notMem_text (e : Entry) : '\n' ∉ e.text.toList := by
  rw [text_eq]
  intro hm
  rcases mem_intercalate hm with hm | ⟨w, hw, hm⟩
  · exact absurd hm (by simp)
  · exact (e.isWord_of_mem_words w hw).no_feed hm

theorem entry?_words (e : Entry) : entry? e.words = some e := by
  have hkind : hookKind? e.kind.text = some e.kind := by cases e.kind <;> rfl
  have hhook : hook? e.hook.text = some e.hook := by cases e.hook <;> rfl
  have hpriority : before? ';' (Decimal.ofInt e.priority ++ ";") = some (Decimal.ofInt e.priority) :=
    Token.before?_append ';' _
  have hpolicy : before? ';' (e.policy.text ++ ";") = some e.policy.text :=
    Token.before?_append ';' _
  have haction : action? e.policy.text = some e.policy := by cases e.policy <;> rfl
  simp only [words, entry?, hkind, hhook, hpriority, hpolicy, haction, signed?_ofInt, Option.bind_eq_bind,
    Option.bind_some]

end Entry

/-- The words that a clause starts with. -/
def heads : List String :=
  ["iifname", "oifname", "ip", "ip6", "log", "meta", "tcp", "udp", "esp", "icmp", "icmpv6", "dnat",
    "snat", "accept", "drop", "jump"]

theorem Clause.exists_head (c : Clause) :
    ∃ k ∈ heads, ∃ ws, c.tokens.flatMap Token.words = k :: ws := by
  cases c with
  | address f s o => exact ⟨headerWord f, by cases f <;> decide, _, rfl⟩
  | port t o => exact ⟨t.text, by cases t <;> decide, _, rfl⟩
  | icmpType f names => exact ⟨icmpWord f, by cases f <;> decide, _, rfl⟩
  | verdict a => exact ⟨a.text, by cases a <;> decide, _, rfl⟩
  | _ => exact ⟨_, by decide, _, rfl⟩

theorem Line.exists_head {l : Line} (h : l.Readable) :
    ∃ k ∈ heads, ∃ ws, words l.text.toList = k :: ws := by
  obtain ⟨c, r, rfl⟩ := List.exists_cons_of_ne_nil h.1
  obtain ⟨k, hk, ws, hws⟩ := c.exists_head
  refine ⟨k, hk, ws ++ (tokens r).flatMap Token.words, ?_⟩
  rw [Line.words_text h, tokens, List.flatMap_cons, List.flatMap_append, hws, List.cons_append]
  rfl

structure Chain.Readable (c : Chain) : Prop where
  name : IsPlain c.name
  lines : ∀ l ∈ c.lines, l.Readable

namespace Chain

def bodyRows (c : Chain) : List (List String) :=
  (c.entry.map Entry.words).toList ++ c.lines.map fun l => words l.text.toList

theorem rowsOf_lines {ls : List Line} (h : ∀ l ∈ ls, l.Readable) :
    rowsOf (ls.map Line.text) = ls.map fun l => words l.text.toList := by
  rw [rowsOf, List.map_map]
  refine List.filter_eq_self.2 fun r hr => ?_
  obtain ⟨l, hl, rfl⟩ := List.mem_map.1 hr
  obtain ⟨k, -, ws, hws⟩ := Line.exists_head (h l hl)
  simp [hws]

theorem rowsOf_body {c : Chain} (h : c.Readable) : rowsOf (chainLinesText c) = c.bodyRows := by
  rw [chainLinesText, rowsOf_append, rowsOf_lines h.lines, bodyRows]
  cases c.entry with
  | none => rfl
  | some e =>
    have he := rowsOf_singleton e.words_text (by simp [Entry.words])
    rw [Option.map_some, Option.map_some, Option.toList_some, Option.toList_some, he]

theorem mapM_line? {ls : List Line} (h : ∀ l ∈ ls, l.Readable) :
    (ls.map fun l => words l.text.toList).mapM line? = some ls :=
  mapM_map_eq_some fun l hl => Line.line?_words (h l hl)

theorem chainBody?_rows {c : Chain} (h : c.Readable) :
    chainBody? c.bodyRows = some (c.entry, c.lines) := by
  have hlines := mapM_line? h.lines
  cases he : c.entry with
  | none =>
    cases hl : c.lines with
    | nil => simp [bodyRows, he, hl, chainBody?]
    | cons l ls =>
      obtain ⟨k, hk, ws, hws⟩ := Line.exists_head (h.lines l (by simp [hl]))
      have hne : (words l.text.toList).head? ≠ some "type" := by
        rw [hws, List.head?_cons]
        rintro heq
        cases heq
        exact absurd hk (by decide)
      rw [hl, List.map_cons] at hlines
      rw [bodyRows, he, hl, Option.map_none, Option.toList_none, List.nil_append, List.map_cons,
        chainBody?, if_neg hne, hlines, Option.map_some]
  | some e =>
    have hhead : e.words.head? = some "type" := rfl
    rw [bodyRows, he, Option.map_some, Option.toList_some, List.singleton_append, chainBody?,
      if_pos hhead, e.entry?_words, hlines]
    rfl

end Chain

namespace Chain

theorem bodyRows_ne_brace {c : Chain} (h : c.Readable) : ∀ row ∈ c.bodyRows, row ≠ ["\x7d"] := by
  intro row hrow
  rcases List.mem_append.1 hrow with hrow | hrow
  · obtain ⟨e, -, rfl⟩ : ∃ e, c.entry = some e ∧ e.words = row := by simpa using hrow
    simp [Entry.words]
  · obtain ⟨l, hl, rfl⟩ := List.mem_map.1 hrow
    obtain ⟨k, hk, ws, hws⟩ := Line.exists_head (h.lines l hl)
    rw [hws]
    rintro heq
    cases heq
    exact absurd hk (by decide)

theorem feed_notMem_body {c : Chain} (h : c.Readable) : ∀ l ∈ chainLinesText c, '\n' ∉ l.toList := by
  intro l hl
  rcases List.mem_append.1 hl with hl | hl
  · obtain ⟨e, -, rfl⟩ : ∃ e, c.entry = some e ∧ e.text = l := by simpa using hl
    exact e.feed_notMem_text
  · obtain ⟨l, hmem, rfl⟩ := List.mem_map.1 hl
    exact Line.feed_notMem_text (h.lines l hmem)

end Chain

theorem setRows_ne_brace {s : NamedSet} (h : s.Sound) :
    ∀ row ∈ rowsOf (setLines s), row ≠ ["\x7d"] := by
  have hflags : ∀ row ∈ flagRows s.type, row ≠ ["\x7d"] := by
    cases s.type <;> decide
  rw [rowsOf_setLines h]
  intro row hrow
  rcases List.mem_cons.1 hrow with rfl | hrow
  · simp
  · rcases List.mem_append.1 hrow with hrow | hrow
    · exact hflags row hrow
    · rw [List.mem_singleton.1 hrow]
      simp

theorem feed_notMem_setLines {s : NamedSet} (h : s.Sound) : ∀ l ∈ setLines s, '\n' ∉ l.toList := by
  have htype : '\n' ∉ ("type " ++ s.type.text).toList := by
    cases s.type <;> decide
  have hflags : ∀ l ∈ (if s.type.hasIntervals then ["flags interval", "auto-merge"] else []),
      '\n' ∉ l.toList := by
    cases s.type <;> decide
  have helements := Token.feed_notMem_text (readable_elementsToken h)
  intro l hl
  simp only [setLines, List.mem_append, List.mem_singleton] at hl
  rcases hl with (rfl | hl) | rfl
  · exact htype
  · exact hflags l hl
  · simpa [elementsToken] using helements

theorem feed_notMem_blockLines {kind name : String} {ls : List String} (hk : IsWord kind)
    (hn : IsWord name) (h : ∀ l ∈ ls, '\n' ∉ l.toList) :
    ∀ l ∈ blockLines (kind ++ " " ++ name) ls, '\n' ∉ l.toList := by
  intro l hl
  rcases List.mem_cons.1 hl with rfl | hl
  · simpa using ⟨hk.no_feed, hn.no_feed⟩
  · rcases List.mem_append.1 hl with hl | hl
    · obtain ⟨m, hm, rfl⟩ := List.mem_map.1 hl
      simpa using h m hm
    · have hends : ∀ l ∈ ["    \x7d", ""], '\n' ∉ l.toList := by decide
      exact hends l hl

structure Table.Readable (t : Table) : Prop where
  name : IsPlain t.name
  sets : ∀ s ∈ t.sets, s.Sound
  chains : ∀ c ∈ t.chains, c.Readable

theorem isWord_kind : IsWord "set" ∧ IsWord "chain" :=
  ⟨isWord_of_all (by decide), isWord_of_all (by decide)⟩

def setRows (s : NamedSet) : List (List String) :=
  ["set", s.name, "\x7b"] :: (rowsOf (setLines s) ++ [["\x7d"]])

def Chain.rows (c : Chain) : List (List String) :=
  ["chain", c.name, "\x7b"] :: (c.bodyRows ++ [["\x7d"]])

theorem blocksFrom?_sets {sets : List NamedSet} (h : ∀ s ∈ sets, s.Sound)
    (r : List (List String)) :
    blocksFrom? none (sets.flatMap setRows ++ r) = (blocksFrom? none r).map (sets.map .set ++ ·) := by
  induction sets with
  | nil => simp
  | cons s sets ih =>
    have hs := h s (by simp)
    have ih := ih fun t ht => h t (by simp [ht])
    have hblock := blocksFrom?_block (k := "set") (n := s.name) (r := sets.flatMap setRows ++ r)
      (setRows_ne_brace hs)
    rw [List.flatMap_cons, List.append_assoc, setRows, hblock, block?, setBody?_rows hs, ih]
    cases blocksFrom? none r <;> rfl

theorem blocksFrom?_chains {chains : List Chain} (h : ∀ c ∈ chains, c.Readable)
    (r : List (List String)) :
    blocksFrom? none (chains.flatMap Chain.rows ++ r) =
      (blocksFrom? none r).map (chains.map .chain ++ ·) := by
  induction chains with
  | nil => simp
  | cons c chains ih =>
    have hc := h c (by simp)
    have ih := ih fun d hd => h d (by simp [hd])
    have hblock := blocksFrom?_block (k := "chain") (n := c.name)
      (r := chains.flatMap Chain.rows ++ r) (Chain.bodyRows_ne_brace hc)
    rw [List.flatMap_cons, List.append_assoc, Chain.rows, hblock, block?, Chain.chainBody?_rows hc,
      ih]
    cases blocksFrom? none r <;> rfl

namespace Table

theorem feed_notMem_lines {t : Table} (h : t.Readable) : ∀ l ∈ t.lines, '\n' ∉ l.toList := by
  intro l hl
  simp only [lines, List.mem_cons, List.mem_append, List.mem_flatMap, List.not_mem_nil,
    or_false] at hl
  rcases hl with rfl | (⟨s, hs, hl⟩ | ⟨c, hc, hl⟩) | rfl
  · simpa using h.name.isWord.no_feed
  · exact feed_notMem_blockLines isWord_kind.1 (h.sets s hs).name.isPlain.isWord
      (feed_notMem_setLines (h.sets s hs)) l hl
  · exact feed_notMem_blockLines isWord_kind.2 (h.chains c hc).name.isWord
      (Chain.feed_notMem_body (h.chains c hc)) l hl
  · decide

theorem rowsOf_lines {t : Table} (h : t.Readable) :
    rowsOf t.lines = ["table", "inet", t.name, "\x7b"] ::
      (t.sets.flatMap setRows ++ t.chains.flatMap Chain.rows ++ [["\x7d"]]) := by
  have hhead : words ("table inet " ++ t.name ++ " \x7b").toList =
      ["table", "inet", t.name, "\x7b"] := by
    have htext : ("table inet " ++ t.name ++ " \x7b").toList =
        "table".toList ++ ' ' :: ("inet".toList ++ ' ' :: (t.name.toList ++ ' ' :: "\x7b".toList)) := by
      simp
    rw [htext, words_append, words_append, words_append, words_word (isWord_of_all (by decide)),
      words_word (isWord_of_all (by decide)), words_word h.name.isWord, words_word isWord_brace.1]
    rfl
  have hsets : t.sets.flatMap (fun s => rowsOf (blockLines ("set " ++ s.name) (setLines s))) =
      t.sets.flatMap setRows :=
    List.flatMap_congr fun s hs =>
      rowsOf_blockLines isWord_kind.1 (h.sets s hs).name.isPlain.isWord (setLines s)
  have hchains : t.chains.flatMap
      (fun c => rowsOf (blockLines ("chain " ++ c.name) (chainLinesText c))) =
      t.chains.flatMap Chain.rows := by
    refine List.flatMap_congr fun c hc => ?_
    have hrows := rowsOf_blockLines isWord_kind.2 (h.chains c hc).name.isWord (chainLinesText c)
    rw [Chain.rowsOf_body (h.chains c hc)] at hrows
    exact hrows
  have hlast : rowsOf ["\x7d"] = [["\x7d"]] := by decide +kernel
  calc rowsOf t.lines
      = rowsOf ["table inet " ++ t.name ++ " \x7b"] ++
          (rowsOf (t.sets.flatMap fun s => blockLines ("set " ++ s.name) (setLines s)) ++
            rowsOf (t.chains.flatMap fun c => blockLines ("chain " ++ c.name) (chainLinesText c)) ++
            rowsOf ["\x7d"]) := by
        rw [← rowsOf_append, ← rowsOf_append, ← rowsOf_append]
        rfl
    _ = _ := by
        rw [rowsOf_singleton hhead (by simp), rowsOf_flatMap, rowsOf_flatMap, hsets, hchains, hlast]
        rfl

/-- The text of a table reads as the table. -/
theorem read?_text {t : Table} (h : t.Readable) : read? t.text = some t := by
  have hrows : rows t.text.toList = rowsOf t.lines := by
    rw [toList_text, rows_feed (feed_notMem_lines h)]
  have hblocks : blocksFrom? none
      (t.sets.flatMap setRows ++ t.chains.flatMap Chain.rows ++ [["\x7d"]]) =
      some (t.sets.map .set ++ t.chains.map .chain) := by
    rw [List.append_assoc, blocksFrom?_sets h.sets, blocksFrom?_chains h.chains]
    simp [blocksFrom?]
  have hsets : (t.sets.map Block.set ++ t.chains.map Block.chain).filterMap Block.set? = t.sets := by
    simp [Function.comp_def, Block.set?]
  have hchains : (t.sets.map Block.set ++ t.chains.map Block.chain).filterMap Block.chain? =
      t.chains := by
    simp [Function.comp_def, Block.chain?]
  rw [read?, hrows, rowsOf_lines h]
  simp only [hblocks, Option.map_some, hsets, hchains]

end Table

end Document
end TwinWall
