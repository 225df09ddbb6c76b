import TwinWall.Proofs.Document.Built

/-! What a word of a row may be between the other words of that row: one that refers to nothing, a set of
the type that the words in front of it require, or a jump to the chain that comes next. -/
namespace TwinWall
namespace Document

open Net Policy Text

/-- The type that a set must be declared with to stand behind these words. -/
def requiredType? : List String → Option String
  | ["ip", "saddr"] => some "ipv4_addr"
  | ["ip", "daddr"] => some "ipv4_addr"
  | ["ip6", "saddr"] => some "ipv6_addr"
  | ["ip6", "daddr"] => some "ipv6_addr"
  | ["tcp", "dport"] => some "inet_service"
  | ["udp", "dport"] => some "inet_service"
  | _ => none

/-- A word that refers to nothing. -/
structure Ordinary (w : String) : Prop where
  no_mark : '@' ∉ w.toList
  ne_jump : w ≠ "jump"

instance (w : String) : Decidable (Ordinary w) :=
  decidable_of_iff ('@' ∉ w.toList ∧ w ≠ "jump") ⟨fun h => ⟨h.1, h.2⟩, fun h => ⟨h.1, h.2⟩⟩

/-- What a word may be between the words before it and those behind it: it refers to nothing, or to a set
of the type that the words before it require, or to the chain that the next word names. -/
inductive Place (p : Ruleset) (pre : List String) : String → List String → Prop where
  | ordinary {w : String} {post : List String} (h : Ordinary w) : Place p pre w post
  | set {s : NamedSet} {head post : List String} (hs : s ∈ p.sets) (hhead : head <:+ pre)
      (htype : requiredType? head = some s.type.text) : Place p pre ("@" ++ s.name) post
  | jump {j : JumpChain} {post : List String} (hj : j ∈ jumpChains p.rules) :
      Place p pre "jump" (j.name :: post)

/-- Every word of the row is in such a place. -/
def Placed (p : Ruleset) (row : List String) : Prop :=
  ∀ pre w post, row = pre ++ w :: post → Place p pre w post

variable {p : Ruleset}

namespace Place

variable {pre post : List String} {w : String}

/-- More words on either side change nothing. -/
theorem extend (h : Place p pre w post) (more rest : List String) :
    Place p (more ++ pre) w (post ++ rest) := by
  cases h with
  | ordinary h => exact .ordinary h
  | set hs hhead htype => exact .set hs (hhead.trans (List.suffix_append more pre)) htype
  | jump hj => exact .jump hj

theorem set_of_mark (h : Place p pre w post) (hw : '@' ∈ w.toList) :
    ∃ s ∈ p.sets, w = "@" ++ s.name ∧ ∃ head, head <:+ pre ∧ requiredType? head = some s.type.text := by
  cases h with
  | ordinary h => exact absurd hw h.no_mark
  | set hs hhead htype => exact ⟨_, hs, rfl, _, hhead, htype⟩
  | jump hj => exact absurd hw (by decide)

theorem chain_of_jump (h : Place p pre w post) (hw : w = "jump") :
    ∃ j ∈ jumpChains p.rules, ∃ rest, post = j.name :: rest := by
  cases h with
  | ordinary h => exact absurd hw h.ne_jump
  | @set s =>
    have hlist : '@' :: s.name.toList = ['j', 'u', 'm', 'p'] := by simpa using congrArg String.toList hw
    cases hlist
  | jump hj => exact ⟨_, hj, _, rfl⟩

end Place

theorem placed_append {a b : List String} (ha : Placed p a) (hb : Placed p b) : Placed p (a ++ b) := by
  intro pre w post hrow
  rcases List.append_eq_append_iff.1 hrow with ⟨c, rfl, hc⟩ | ⟨c, rfl, hc⟩
  · simpa using (hb c w post hc).extend a []
  · cases c with
    | nil =>
      have hplace := hb [] w post hc.symm
      simpa using hplace.extend pre []
    | cons v c =>
      obtain ⟨rfl, rfl⟩ := List.cons.inj hc
      simpa using (ha pre w c rfl).extend [] b

theorem placed_flatMap {α : Type} {f : α → List String} {l : List α} (h : ∀ x ∈ l, Placed p (f x)) :
    Placed p (l.flatMap f) := by
  induction l with
  | nil =>
    intro pre w post hrow
    simp at hrow
  | cons x l ih =>
    rw [List.flatMap_cons]
    exact placed_append (h x (by simp)) (ih fun y hy => h y (by simp [hy]))

theorem placed_of_ordinary {row : List String} (h : ∀ w ∈ row, Ordinary w) : Placed p row := by
  rintro pre w post rfl
  exact .ordinary (h w (by simp))

/-- A set behind the words that require its type. -/
theorem placed_set {s : NamedSet} (hs : s ∈ p.sets) {head : List String} (hhead : ∀ w ∈ head, Ordinary w)
    (htype : requiredType? head = some s.type.text) : Placed p (head ++ ["@" ++ s.name]) := by
  intro pre w post hrow
  rcases List.eq_nil_or_concat post with rfl | ⟨init, last, rfl⟩
  · obtain ⟨rfl, hw⟩ := List.append_inj' hrow rfl
    obtain rfl : "@" ++ s.name = w := by simpa using hw
    exact .set hs (List.suffix_refl _) htype
  · have hcons : head ++ ["@" ++ s.name] = (pre ++ w :: init) ++ [last] := by simpa using hrow
    obtain ⟨rfl, -⟩ := List.append_inj' hcons rfl
    exact .ordinary (hhead w (by simp))

theorem placed_jump {j : JumpChain} (hj : j ∈ jumpChains p.rules) : Placed p ["jump", j.name] := by
  have hname : ∀ i ∈ JumpChain.all, Ordinary i.name := by decide
  intro pre w post hrow
  cases pre with
  | nil =>
    obtain ⟨rfl, rfl⟩ := List.cons.inj hrow
    exact .jump hj
  | cons v pre =>
    obtain ⟨-, hrow⟩ := List.cons.inj hrow
    have hw : w ∈ [j.name] := by simp [hrow]
    obtain rfl := List.mem_singleton.1 hw
    exact .ordinary (hname j j.mem_all)

theorem ordinary_of_plain {w : String} (h : IsPlain w) (hne : w ≠ "jump") : Ordinary w :=
  ⟨h.notMem (by decide), hne⟩

/-- A word with a mark of punctuation at its end. -/
theorem ordinary_marked {w : String} (h : IsPlain w) (mark : Char)
    (hmark : mark ≠ '@' ∧ mark ≠ 'p') : Ordinary (w ++ String.singleton mark) := by
  have hat : '@' ∉ w.toList := h.notMem (by decide)
  refine ⟨by simp [hat, hmark.1.symm], fun hjump => ?_⟩
  have hlist : w.toList ++ [mark] = ['j', 'u', 'm', 'p'] := by simpa using congrArg String.toList hjump
  have hlast := congrArg List.getLast? hlist
  simp [hmark.2] at hlast

theorem ordinary_quote {s : String} (h : IsPlain s) : Ordinary (quote s) := by
  have hat : '@' ∉ s.toList := h.notMem (by decide)
  refine ⟨by simpa [quote] using hat, fun hjump => ?_⟩
  have hlist : '"' :: (s.toList ++ ['"']) = ['j', 'u', 'm', 'p'] := by
    simpa [quote] using congrArg String.toList hjump
  cases hlist

theorem ordinary_brief (n : Network .v4) : Ordinary n.brief := by
  refine ordinary_of_plain n.isPlain_brief fun hjump => ?_
  have hread := n.read?_brief
  have hnone : Network.read? .v4 "jump".toList = none := by decide +kernel
  rw [hjump, hnone] at hread
  cases hread

theorem ordinary_group {l : List String} (h : ∀ x ∈ l, IsPlain x) (hjump : "jump" ∉ l) :
    ∀ w ∈ (Token.group l).words, Ordinary w := by
  intro w hw
  simp only [Token.words, List.mem_cons, List.mem_append, List.not_mem_nil, or_false] at hw
  rcases hw with rfl | hw | rfl
  · decide
  · obtain ⟨x, hx, rfl | rfl⟩ := Token.mem_listed hw
    · exact ordinary_of_plain (h w hx) fun heq => hjump (heq ▸ hx)
    · exact ordinary_marked (h x hx) ',' (by decide)
  · decide

/-- Items in print are not taken for a jump if the reader of items does not take a jump for one. -/
theorem ordinary_items {α : Type} {item : α → String} {item? : String → Option α} {q : α → Prop}
    (hq : Printing item item? q) (hjump : item? "jump" = none) {o : Operand α} (h : o.Readable q)
    (hset : ∀ n, o ≠ .set n) : ∀ w ∈ (o.token item).words, Ordinary w := by
  have hne : ∀ x, q x → item x ≠ "jump" := by
    intro x hx heq
    have hread := hq.read x hx
    rw [heq, hjump] at hread
    cases hread
  cases o with
  | set n => exact absurd rfl (hset n)
  | one x =>
    intro w hw
    obtain rfl := List.mem_singleton.1 hw
    exact ordinary_of_plain (hq.plain x h) (hne x h)
  | list l =>
    refine ordinary_group (fun w hw => ?_) fun hmem => ?_
    · obtain ⟨x, hx, rfl⟩ := List.mem_map.1 hw
      exact hq.plain x (h.2 x hx)
    · obtain ⟨x, hx, heq⟩ := List.mem_map.1 hmem
      exact hne x (h.2 x hx) heq

/-- An operand behind the words that say what it is compared with. -/
theorem placed_operand {α : Type} {item : α → String} {item? : String → Option α} {q : α → Prop}
    (hq : Printing item item? q) (hjump : item? "jump" = none) {o : Operand α} (h : o.Readable q)
    {head : List String} (hhead : ∀ w ∈ head, Ordinary w)
    (hset : ∀ n, o = .set n → ∃ s ∈ p.sets, s.name = n ∧ requiredType? head = some s.type.text) :
    Placed p (head ++ (o.token item).words) := by
  cases o with
  | set n =>
    obtain ⟨s, hs, rfl, htype⟩ := hset n rfl
    exact placed_set hs hhead htype
  | one x =>
    exact placed_append (placed_of_ordinary hhead)
      (placed_of_ordinary (ordinary_items hq hjump h nofun))
  | list l =>
    exact placed_append (placed_of_ordinary hhead)
      (placed_of_ordinary (ordinary_items hq hjump h nofun))

namespace Clause

/-- What a clause refers to is there. -/
def Resolved (p : Ruleset) : Clause → Prop
  | address f _ (.set n) => ∃ s ∈ p.sets, s.name = n ∧ s.type = .ofFamily f
  | port _ (.set n) => ∃ s ∈ p.sets, s.name = n ∧ s.type = .inetService
  | icmpType _ names => "jump" ∉ names
  | jump j => j ∈ jumpChains p.rules
  | _ => True

theorem placed_tokens {c : Clause} (h : c.Readable) (hr : c.Resolved p) :
    Placed p (c.tokens.flatMap Token.words) := by
  cases c with
  | incoming i =>
    refine placed_append (placed_of_ordinary (by decide)) (placed_of_ordinary ?_)
    simpa [Token.words] using ordinary_quote h
  | outgoing o =>
    refine placed_append (placed_of_ordinary (by decide)) (placed_of_ordinary ?_)
    simpa [Token.words] using ordinary_quote h
  | address f s o =>
    have hwords : (address f s o).tokens.flatMap Token.words =
        [headerWord f, s.text] ++ (o.token Subnet.brief).words := by
      simp [tokens, Token.words]
    have hjump : subnet? f "jump" = none := by cases f <;> decide +kernel
    have hhead : ∀ w ∈ [headerWord f, s.text], Ordinary w := by cases f <;> cases s <;> decide
    rw [hwords]
    refine placed_operand (printing_subnet f) hjump h hhead ?_
    rintro n rfl
    obtain ⟨d, hd, hname, htype⟩ := hr
    refine ⟨d, hd, hname, ?_⟩
    rw [htype]
    cases f <;> cases s <;> rfl
  | log m =>
    have hquote := ordinary_quote h
    refine placed_of_ordinary ?_
    simp only [tokens, List.flatMap_cons, List.flatMap_nil, Token.words, List.forall_mem_append]
    exact ⟨by decide, by decide, by simpa using hquote, by decide, by decide,
      List.forall_mem_nil _⟩
  | protocol q => exact placed_of_ordinary (by cases q <;> decide)
  | port q o =>
    have hwords : (port q o).tokens.flatMap Token.words =
        [q.text, "dport"] ++ (o.token PortEntry.text).words := by
      simp [tokens, Token.words]
    have hjump : port? "jump" = none := by decide +kernel
    have hhead : ∀ w ∈ [q.text, "dport"], Ordinary w := by cases q <;> decide
    rw [hwords]
    refine placed_operand printing_port hjump h.2 hhead ?_
    rintro n rfl
    obtain ⟨d, hd, hname, htype⟩ := hr
    refine ⟨d, hd, hname, ?_⟩
    rw [htype]
    cases q with
    | tcp => rfl
    | udp => rfl
    | esp => exact absurd rfl h.1
  | icmpType f names =>
    have hwords : (icmpType f names).tokens.flatMap Token.words =
        [icmpWord f, "type"] ++ (Token.group names).words := by
      simp [tokens, Token.words]
    have hhead : ∀ w ∈ [icmpWord f, "type"], Ordinary w := by cases f <;> decide
    rw [hwords]
    exact placed_append (placed_of_ordinary hhead) (placed_of_ordinary (ordinary_group h.2 hr))
  | destinationTo n =>
    have hbrief := ordinary_brief n
    refine placed_of_ordinary ?_
    simp only [tokens, List.flatMap_cons, List.flatMap_nil, Token.words, List.forall_mem_append]
    exact ⟨by decide, by decide, by simpa using hbrief, List.forall_mem_nil _⟩
  | sourceTo n =>
    have hbrief := ordinary_brief n
    refine placed_of_ordinary ?_
    simp only [tokens, List.flatMap_cons, List.flatMap_nil, Token.words, List.forall_mem_append]
    exact ⟨by decide, by decide, by simpa using hbrief, List.forall_mem_nil _⟩
  | verdict a => exact placed_of_ordinary (by cases a <;> decide)
  | jump j => exact placed_jump hr

end Clause

theorem Line.placed_words {l : Line} (h : l.Readable) (hr : ∀ c ∈ l, c.Resolved p) :
    Placed p (words l.text.toList) := by
  rw [Line.words_text h, tokens, List.flatMap_assoc]
  exact placed_flatMap fun c hc => Clause.placed_tokens (h.2 c hc) (hr c hc)

theorem Entry.ordinary_words (e : Entry) : ∀ w ∈ e.words, Ordinary w := by
  have hkind : Ordinary e.kind.text := by cases e.kind <;> decide
  have hhook : Ordinary e.hook.text := by cases e.hook <;> decide
  have hpolicy : Ordinary (e.policy.text ++ ";") := by cases e.policy <;> decide
  have hpriority : Ordinary (Decimal.ofInt e.priority ++ ";") :=
    ordinary_marked (isPlain_ofInt e.priority) ';' (by decide)
  simp only [words, List.forall_mem_cons]
  exact ⟨by decide, hkind, by decide, hhook, by decide, hpriority, by decide, hpolicy,
    List.forall_mem_nil _⟩

theorem Chain.placed_bodyRows {c : Chain} (h : c.Readable)
    (hr : ∀ l ∈ c.lines, ∀ d ∈ l, d.Resolved p) : ∀ row ∈ c.bodyRows, Placed p row := by
  intro row hrow
  rcases List.mem_append.1 hrow with hrow | hrow
  · obtain ⟨e, -, rfl⟩ : ∃ e, c.entry = some e ∧ e.words = row := by simpa using hrow
    exact placed_of_ordinary e.ordinary_words
  · obtain ⟨l, hl, rfl⟩ := List.mem_map.1 hrow
    exact Line.placed_words (h.lines l hl) (hr l hl)

/-- The lines of a jump chain refer to nothing. -/
theorem ordinary_jumpChain (j : JumpChain) : ∀ row ∈ (jumpChain j).bodyRows, ∀ w ∈ row, Ordinary w := by
  have hall : ∀ i ∈ JumpChain.all, ∀ l ∈ i.body, ∀ w ∈ (Line.tokens l).flatMap Token.words,
      Ordinary w := by
    decide +kernel
  intro row hrow
  obtain ⟨l, hl, rfl⟩ := List.mem_map.1 hrow
  rw [Line.words_text (readable_body j l hl)]
  exact hall j j.mem_all l hl

end Document
end TwinWall
