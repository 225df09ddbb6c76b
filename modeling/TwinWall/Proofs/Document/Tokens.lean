import Mathlib.Data.List.Basic
import TwinWall.Proofs.Document.Reading
import TwinWall.Proofs.Policy.PortText

/-! The line of a list of clauses, as words and as tokens. Each clause is followed from its text to its
words, from these to its tokens, and back to the clause. -/
namespace TwinWall
namespace Document

open Net Policy Text

namespace Token

def text : Token → String
  | word w => w
  | group l => braced l

@[simp] theorem text_word (w : String) : (word w).text = w := rfl

@[simp] theorem text_group (l : List String) : (group l).text = braced l := rfl

/-- The words of the items, all but the last with their comma. -/
def listed : List String → List String
  | [] => []
  | [x] => [x]
  | x :: r => (x ++ ",") :: listed r

def words : Token → List String
  | word w => [w]
  | group l => "\x7b" :: (listed l ++ ["\x7d"])

/-- What the reader takes for the token it was. -/
def Readable : Token → Prop
  | word w => IsWord w ∧ w ≠ "\x7b"
  | group l => l ≠ [] ∧ ∀ x ∈ l, IsPlain x

theorem words_listed {l : List String} (h : ∀ x ∈ l, IsPlain x) :
    Text.words (", ".intercalate l).toList = listed l := by
  induction l with
  | nil => simp [listed]
  | cons x l ih =>
    have hx := h x (by simp)
    have ih := ih fun y hy => h y (by simp [hy])
    cases l with
    | nil => simpa [listed] using words_word hx.isWord
    | cons y l =>
      have hcomma : IsWord (x ++ ",") := by
        refine ⟨by simp, ?_, ?_⟩
        · simpa using hx.isWord.no_blank
        · simpa using hx.isWord.no_feed
      have htext : (", ".intercalate (x :: y :: l)).toList =
          (x ++ ",").toList ++ ' ' :: (", ".intercalate (y :: l)).toList := by
        rw [String.intercalate_cons_of_ne_nil (by simp)]
        simp
      rw [htext, words_append, words_word hcomma, ih]
      rfl

theorem words_text {t : Token} (h : t.Readable) : Text.words t.text.toList = t.words := by
  cases t with
  | word w => exact words_word h.1
  | group l =>
    have htext : (braced l).toList = ['\x7b'] ++ ' ' :: ((", ".intercalate l).toList ++ ' ' :: ['\x7d']) := by
      simp [braced]
    rw [text, htext, words_append, words_append, words_listed h.2]
    rfl

theorem before?_append (mark : Char) (w : String) : before? mark (w ++ String.singleton mark) = some w := by
  simp [before?]

theorem items?_listed {l : List String} (h : l ≠ []) : items? (listed l) = some l := by
  induction l with
  | nil => exact absurd rfl h
  | cons x l ih =>
    cases l with
    | nil => rfl
    | cons y l =>
      have ih := ih (by simp)
      have hcomma : before? ',' (x ++ ",") = some x := before?_append ',' x
      cases hl : listed (y :: l) with
      | nil => simp [hl, items?] at ih
      | cons z zs =>
        rw [hl] at ih
        simp [listed, hl, items?, hcomma, ih]

theorem tokensFrom?_group {l ws r : List String} (h : "\x7d" ∉ ws) :
    tokensFrom? (some l) (ws ++ "\x7d" :: r) =
      (items? (l ++ ws)).bind fun items => (tokensFrom? none r).map (.group items :: ·) := by
  induction ws generalizing l with
  | nil =>
    rw [List.nil_append, tokensFrom?, if_pos rfl, List.append_nil]
    cases items? l <;> cases tokensFrom? none r <;> rfl
  | cons w ws ih =>
    have hw : w ≠ "\x7d" := fun hw => h (by simp [hw])
    have ih := ih (l := l ++ [w]) fun hm => h (by simp [hm])
    rw [List.cons_append, tokensFrom?, if_neg hw, ih, List.append_assoc, List.singleton_append]

theorem mem_listed {l : List String} {w : String} (h : w ∈ listed l) :
    ∃ x ∈ l, w = x ∨ w = x ++ "," := by
  induction l with
  | nil => cases h
  | cons x l ih =>
    cases l with
    | nil => exact ⟨x, by simp, Or.inl (by simpa [listed] using h)⟩
    | cons y l =>
      rcases List.mem_cons.1 h with h | h
      · exact ⟨x, by simp, Or.inr h⟩
      · obtain ⟨z, hz, hw⟩ := ih h
        exact ⟨z, List.mem_cons_of_mem _ hz, hw⟩

theorem brace_notMem_listed {l : List String} (h : ∀ x ∈ l, IsPlain x) : "\x7d" ∉ listed l := by
  intro hmem
  obtain ⟨x, hx, hw⟩ := mem_listed hmem
  have hbrace := (h x hx).notMem (c := '\x7d') (by decide)
  rcases hw with rfl | hw
  · exact hbrace (by simp)
  · have hlist : ['\x7d'] = x.toList ++ [','] := by simpa using congrArg String.toList hw
    have hlast := congrArg List.getLast? hlist
    simp at hlast

/-- Reading goes on behind a token with nothing left of it. -/
theorem tokensFrom?_words {t : Token} (h : t.Readable) (r : List String) :
    tokensFrom? none (t.words ++ r) = (tokensFrom? none r).map (t :: ·) := by
  cases t with
  | word w => rw [words, List.singleton_append, tokensFrom?, if_neg h.2]
  | group l =>
    have hitems := items?_listed h.1
    have hgroup := tokensFrom?_group (l := []) (r := r) (brace_notMem_listed h.2)
    rw [List.nil_append, hitems, Option.bind_some] at hgroup
    rw [words, List.cons_append, List.append_assoc, tokensFrom?, if_pos rfl]
    exact hgroup

theorem tokens?_words {ts : List Token} (h : ∀ t ∈ ts, t.Readable) :
    tokens? (ts.flatMap words) = some ts := by
  induction ts with
  | nil => rfl
  | cons t ts ih =>
    have ih := ih fun u hu => h u (by simp [hu])
    rw [tokens?] at ih ⊢
    rw [List.flatMap_cons, tokensFrom?_words (h t (by simp)), ih, Option.map_some]

theorem feed_notMem_text {t : Token} (h : t.Readable) : '\n' ∉ t.text.toList := by
  cases t with
  | word w => exact h.1.no_feed
  | group l =>
    have hitems : '\n' ∉ (", ".intercalate l).toList := by
      intro hm
      rcases mem_intercalate hm with hm | ⟨x, hx, hm⟩
      · exact absurd hm (by simp)
      · exact (h.2 x hx).isWord.no_feed hm
    simpa [text, braced] using hitems

end Token

/-- A way to write items as plain words, and the reading that gives them back. -/
structure Printing {α : Type} (item : α → String) (item? : String → Option α) (p : α → Prop) :
    Prop where
  plain : ∀ x, p x → IsPlain (item x)
  read : ∀ x, p x → item? (item x) = some x

theorem printing_subnet (f : Family) : Printing Subnet.brief (subnet? f) (·.family = f) := by
  refine ⟨fun n _ => n.isPlain_brief, fun n hn => ?_⟩
  cases n with
  | v4 n =>
    subst hn
    simp [subnet?, Subnet.brief, Subnet.family, n.read?_brief]
  | v6 n =>
    subst hn
    simp [subnet?, Subnet.brief, Subnet.family, n.read?_brief]

theorem printing_port : Printing PortEntry.text port? PortEntry.Sound :=
  ⟨fun e _ => e.isPlain_text, fun e he => by rw [port?, PortEntry.parse_text he]; rfl⟩

namespace Operand

variable {α : Type} {item : α → String} {item? : String → Option α} {p : α → Prop}

def token (item : α → String) : Operand α → Token
  | set n => .word ("@" ++ n)
  | one x => .word (item x)
  | list l => .group (l.map item)

def Readable (p : α → Prop) : Operand α → Prop
  | set n => IsPlain n
  | one x => p x
  | list l => l ≠ [] ∧ ∀ x ∈ l, p x

@[simp] theorem text_token (item : α → String) (o : Operand α) : (o.token item).text = o.text item := by
  cases o <;> rfl

theorem readable_token (hp : Printing item item? p) {o : Operand α} (h : o.Readable p) :
    (o.token item).Readable := by
  have hbrace : ∀ w, IsPlain w → w ≠ "\x7b" := by
    rintro w hw rfl
    exact hw.notMem (c := '\x7b') (by decide) (by simp)
  cases o with
  | set n =>
    refine ⟨⟨by simp, ?_, ?_⟩, ?_⟩
    · simpa using h.isWord.no_blank
    · simpa using h.isWord.no_feed
    · intro hn
      have hchars : '@' :: n.toList = ['\x7b'] := by simpa using congrArg String.toList hn
      cases hchars
  | one x => exact ⟨(hp.plain x h).isWord, hbrace _ (hp.plain x h)⟩
  | list l =>
    refine ⟨by simpa using h.1, fun w hw => ?_⟩
    obtain ⟨x, hx, rfl⟩ := List.mem_map.1 hw
    exact hp.plain x (h.2 x hx)

theorem operand?_token (hp : Printing item item? p) {o : Operand α} (h : o.Readable p) :
    operand? item? (o.token item) = some o := by
  cases o with
  | set n => simp [token, operand?]
  | one x =>
    have hat := (hp.plain x h).notMem (c := '@') (by decide)
    have hread := hp.read x h
    rw [token, operand?]
    split
    · rename_i r hr
      exact absurd (by simp [hr]) hat
    · rw [hread, Option.map_some]
  | list l =>
    have hread := mapM_map_eq_some fun x hx => hp.read x (h.2 x hx)
    rw [token, operand?, hread, Option.map_some]

end Operand

namespace Clause

def tokens : Clause → List Token
  | incoming i => [.word "iifname", .word (quote i)]
  | outgoing o => [.word "oifname", .word (quote o)]
  | address f s o => [.word (headerWord f), .word s.text, o.token Subnet.brief]
  | log mark =>
    [.word "log", .word "prefix", .word (quote mark), .word "level", .word "debug"]
  | protocol t => [.word "meta", .word "l4proto", .word t.text]
  | port t o => [.word t.text, .word "dport", o.token PortEntry.text]
  | icmpType f names => [.word (icmpWord f), .word "type", .group names]
  | destinationTo n => [.word "dnat", .word "to", .word n.brief]
  | sourceTo n => [.word "snat", .word "to", .word n.brief]
  | verdict a => [.word a.text]
  | jump c => [.word "jump", .word c.name]

def Readable : Clause → Prop
  | incoming i => IsPlain i
  | outgoing o => IsPlain o
  | address f _ o => o.Readable (·.family = f)
  | log mark => IsPlain mark
  | port t o => t ≠ .esp ∧ o.Readable PortEntry.Sound
  | icmpType _ names => names ≠ [] ∧ ∀ n ∈ names, IsPlain n
  | _ => True

theorem text_eq (c : Clause) : c.text = " ".intercalate (c.tokens.map Token.text) := by
  apply String.toList_inj.1
  cases c <;> simp [text, tokens]

/-- A word of the language itself. -/
theorem readable_word {w : String} (h : IsPlain w) : (Token.word w).Readable := by
  refine ⟨h.isWord, ?_⟩
  rintro rfl
  exact h.notMem (c := '\x7b') (by decide) (by simp)

theorem isPlain_of_all {w : String} (h : w.toList ≠ [] ∧ w.toList.all isPlain = true) : IsPlain w :=
  ⟨h.1, List.all_eq_true.1 h.2⟩

theorem readable_quote {s : String} (h : IsPlain s) : (Token.word (quote s)).Readable := by
  refine ⟨⟨by simp [quote], ?_, ?_⟩, ?_⟩
  · simpa [quote] using h.isWord.no_blank
  · simpa [quote] using h.isWord.no_feed
  · intro hq
    have hchars : '"' :: (s.toList ++ ['"']) = ['\x7b'] := by
      simpa [quote] using congrArg String.toList hq
    cases hchars

theorem quoted?_quote (s : String) : quoted? (quote s) = some s := by
  have hchars : (quote s).toList = '"' :: (s.toList ++ ['"']) := by simp [quote]
  rw [quoted?, hchars]
  simp [before?]

/-- The words of the language of tables. -/
def keywords : List String :=
  ["iifname", "oifname", "ip", "ip6", "saddr", "daddr", "log", "prefix", "level", "debug", "meta",
    "l4proto", "tcp", "udp", "esp", "dport", "icmp", "icmpv6", "type", "dnat", "snat", "to", "accept",
    "drop", "jump"]

theorem isPlain_keyword {w : String} (h : w ∈ keywords) : IsPlain w := by
  have hall : ∀ w ∈ keywords, w.toList ≠ [] ∧ w.toList.all isPlain = true := by decide +kernel
  exact isPlain_of_all (hall w h)

theorem readable_keyword {w : String} (h : w ∈ keywords) : (Token.word w).Readable :=
  readable_word (isPlain_keyword h)

/-- Names that every table may have: of chains and hooks, of types of sets, and of ICMP messages. -/
def fixedNames : List String :=
  JumpChain.all.map JumpChain.name ++
    ["prerouting", "input", "forward", "output", "postrouting"] ++ SetType.all.map SetType.text ++
    ["destination-unreachable", "echo-reply", "echo-request", "time-exceeded", "mld-listener-query",
      "nd-router-solicit", "nd-router-advert", "nd-neighbor-solicit", "nd-neighbor-advert"]

theorem isPlain_fixedName {w : String} (h : w ∈ fixedNames) : IsPlain w := by
  have hall : ∀ w ∈ fixedNames, w.toList ≠ [] ∧ w.toList.all isPlain = true := by decide +kernel
  exact isPlain_of_all (hall w h)

theorem isPlain_jumpName (c : JumpChain) : IsPlain c.name := by
  have hmem : c.name ∈ JumpChain.all.map JumpChain.name := List.mem_map_of_mem c.mem_all
  exact isPlain_fixedName (by simp only [fixedNames, List.mem_append, hmem, true_or])

theorem readable_tokens {c : Clause} (h : c.Readable) : ∀ t ∈ c.tokens, t.Readable := by
  cases c with
  | incoming i =>
    simp only [tokens, List.forall_mem_cons]
    exact ⟨readable_keyword (by decide), readable_quote h, nofun⟩
  | outgoing o =>
    simp only [tokens, List.forall_mem_cons]
    exact ⟨readable_keyword (by decide), readable_quote h, nofun⟩
  | address f s o =>
    have hheader : headerWord f ∈ keywords := by cases f <;> decide
    have hside : s.text ∈ keywords := by cases s <;> decide
    simp only [tokens, List.forall_mem_cons]
    exact ⟨readable_keyword hheader, readable_keyword hside,
      Operand.readable_token (printing_subnet f) h, nofun⟩
  | log mark =>
    simp only [tokens, List.forall_mem_cons]
    exact ⟨readable_keyword (by decide), readable_keyword (by decide), readable_quote h,
      readable_keyword (by decide), readable_keyword (by decide), nofun⟩
  | protocol p =>
    have hprotocol : p.text ∈ keywords := by cases p <;> decide
    simp only [tokens, List.forall_mem_cons]
    exact ⟨readable_keyword (by decide), readable_keyword (by decide), readable_keyword hprotocol,
      nofun⟩
  | port p o =>
    have hprotocol : p.text ∈ keywords := by cases p <;> decide
    simp only [tokens, List.forall_mem_cons]
    exact ⟨readable_keyword hprotocol, readable_keyword (by decide),
      Operand.readable_token printing_port h.2, nofun⟩
  | icmpType f names =>
    have hicmp : icmpWord f ∈ keywords := by cases f <;> decide
    simp only [tokens, List.forall_mem_cons]
    exact ⟨readable_keyword hicmp, readable_keyword (by decide), h, nofun⟩
  | destinationTo n =>
    simp only [tokens, List.forall_mem_cons]
    exact ⟨readable_keyword (by decide), readable_keyword (by decide), readable_word n.isPlain_brief,
      nofun⟩
  | sourceTo n =>
    simp only [tokens, List.forall_mem_cons]
    exact ⟨readable_keyword (by decide), readable_keyword (by decide), readable_word n.isPlain_brief,
      nofun⟩
  | verdict a =>
    have haction : a.text ∈ keywords := by cases a <;> decide
    simp only [tokens, List.forall_mem_cons]
    exact ⟨readable_keyword haction, nofun⟩
  | jump c =>
    simp only [tokens, List.forall_mem_cons]
    exact ⟨readable_keyword (by decide), readable_word (isPlain_jumpName c), nofun⟩

theorem side?_text (s : Side) : side? s.text = some s := by
  cases s <;> rfl

theorem transport?_text (t : Transport) : transport? t.text = some t := by
  cases t <;> rfl

theorem chainOfName?_name (c : JumpChain) : chainOfName? c.name = some c := by
  obtain ⟨k, a⟩ := c
  cases k <;> cases a <;> decide +kernel

/-- A clause is read off the front of its line. -/
theorem clauses?_tokens {c : Clause} (h : c.Readable) (r : List Token) :
    clauses? (c.tokens ++ r) = (clauses? r).map (c :: ·) := by
  cases c with
  | incoming i =>
    show (quoted? (quote i)).bind (fun i => (clauses? r).bind fun cs => _) = _
    rw [quoted?_quote]
    cases clauses? r <;> rfl
  | outgoing o =>
    show (quoted? (quote o)).bind (fun i => (clauses? r).bind fun cs => _) = _
    rw [quoted?_quote]
    cases clauses? r <;> rfl
  | address f s o =>
    have hread := Operand.operand?_token (printing_subnet f) h
    cases f with
    | v4 =>
      show (side? s.text).bind (fun s => (operand? (subnet? .v4) (o.token Subnet.brief)).bind fun o =>
        (clauses? r).bind fun cs => _) = _
      rw [side?_text, hread]
      cases clauses? r <;> rfl
    | v6 =>
      show (side? s.text).bind (fun s => (operand? (subnet? .v6) (o.token Subnet.brief)).bind fun o =>
        (clauses? r).bind fun cs => _) = _
      rw [side?_text, hread]
      cases clauses? r <;> rfl
  | log mark =>
    show (quoted? (quote mark)).bind (fun i => (clauses? r).bind fun cs => _) = _
    rw [quoted?_quote]
    cases clauses? r <;> rfl
  | protocol t =>
    show (transport? t.text).bind (fun i => (clauses? r).bind fun cs => _) = _
    rw [transport?_text]
    cases clauses? r <;> rfl
  | port t o =>
    have hread := Operand.operand?_token printing_port h.2
    cases t with
    | tcp =>
      show (operand? port? (o.token PortEntry.text)).bind (fun o =>
        (clauses? r).bind fun cs => _) = _
      rw [hread]
      cases clauses? r <;> rfl
    | udp =>
      show (operand? port? (o.token PortEntry.text)).bind (fun o =>
        (clauses? r).bind fun cs => _) = _
      rw [hread]
      cases clauses? r <;> rfl
    | esp => exact absurd rfl h.1
  | icmpType f names =>
    cases f with
    | v4 =>
      show (clauses? r).bind (fun cs => _) = _
      cases clauses? r <;> rfl
    | v6 =>
      show (clauses? r).bind (fun cs => _) = _
      cases clauses? r <;> rfl
  | destinationTo n =>
    show (Network.read? .v4 n.brief.toList).bind (fun n => (clauses? r).bind fun cs => _) = _
    rw [n.read?_brief]
    cases clauses? r <;> rfl
  | sourceTo n =>
    show (Network.read? .v4 n.brief.toList).bind (fun n => (clauses? r).bind fun cs => _) = _
    rw [n.read?_brief]
    cases clauses? r <;> rfl
  | verdict a =>
    cases a with
    | accept =>
      show (clauses? r).bind (fun cs => _) = _
      cases clauses? r <;> rfl
    | drop =>
      show (clauses? r).bind (fun cs => _) = _
      cases clauses? r <;> rfl
  | jump c =>
    show (chainOfName? c.name).bind (fun c => (clauses? r).bind fun cs => _) = _
    rw [chainOfName?_name]
    cases clauses? r <;> rfl

end Clause

namespace Line

def tokens (l : Line) : List Token := l.flatMap Clause.tokens

def Readable (l : Line) : Prop := l ≠ [] ∧ ∀ c ∈ l, c.Readable

theorem readable_tokens {l : Line} (h : l.Readable) : ∀ t ∈ l.tokens, t.Readable := by
  intro t ht
  obtain ⟨c, hc, ht⟩ := List.mem_flatMap.1 ht
  exact Clause.readable_tokens (h.2 c hc) t ht

theorem words_text {l : Line} (h : l.Readable) :
    words l.text.toList = l.tokens.flatMap Token.words := by
  have hclause : ∀ c ∈ l, words c.text.toList = c.tokens.flatMap Token.words := by
    intro c hc
    rw [Clause.text_eq, words_joined, List.flatMap_map]
    exact List.flatMap_congr fun t ht => Token.words_text (Clause.readable_tokens (h.2 c hc) t ht)
  rw [text, words_joined, List.flatMap_map, tokens, List.flatMap_assoc]
  exact List.flatMap_congr hclause

theorem clauses?_tokens {l : Line} (h : ∀ c ∈ l, c.Readable) : clauses? l.tokens = some l := by
  induction l with
  | nil => rfl
  | cons c l ih =>
    have ih := ih fun d hd => h d (by simp [hd])
    rw [tokens] at ih ⊢
    rw [List.flatMap_cons, Clause.clauses?_tokens (h c (by simp)), ih, Option.map_some]

/-- The words of a line read as its clauses. -/
theorem line?_words {l : Line} (h : l.Readable) : line? (words l.text.toList) = some l := by
  rw [line?, words_text h, Token.tokens?_words (readable_tokens h)]
  exact clauses?_tokens h.2

theorem feed_notMem_text {l : Line} (h : l.Readable) : '\n' ∉ l.text.toList := by
  intro hm
  rcases mem_intercalate hm with hm | ⟨w, hw, hm⟩
  · exact absurd hm (by simp)
  · obtain ⟨c, hc, rfl⟩ := List.mem_map.1 hw
    rw [Clause.text_eq] at hm
    rcases mem_intercalate hm with hm | ⟨v, hv, hm⟩
    · exact absurd hm (by simp)
    · obtain ⟨t, ht, rfl⟩ := List.mem_map.1 hv
      exact Token.feed_notMem_text (Clause.readable_tokens (h.2 c hc) t ht) hm

end Line

end Document
end TwinWall
