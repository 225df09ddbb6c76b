import TwinWall.Document.Table
import TwinWall.Proofs.Text.Words

/-! The table that a text describes. The text is cut into lines and words, the items between braces are
put together, and each line is read as clauses from the left. The words are those of the packet filter,
whatever a table is printed with. -/
namespace TwinWall
namespace Document

open Net Policy Text

/-- A word of a line, or all items between two braces. -/
inductive Token where
  | word (text : String)
  | group (items : List String)
deriving DecidableEq

/-- The text in front of a mark at its end. -/
def before? (mark : Char) (w : String) : Option String :=
  if w.toList.getLast? = some mark then some (String.ofList w.toList.dropLast) else none

/-- Items with a comma behind each but the last. -/
def items? : List String → Option (List String)
  | [] => none
  | [w] => some [w]
  | w :: r => do
    let x ← before? ',' w
    let xs ← items? r
    some (x :: xs)

/-- Reads on between braces, where the words so far are given, or outside of them. -/
def tokensFrom? : Option (List String) → List String → Option (List Token)
  | none, [] => some []
  | some _, [] => none
  | none, w :: r =>
    if w = "\x7b" then tokensFrom? (some []) r else (tokensFrom? none r).map (.word w :: ·)
  | some l, w :: r =>
    if w = "\x7d" then do
      let items ← items? l
      let ts ← tokensFrom? none r
      some (.group items :: ts)
    else tokensFrom? (some (l ++ [w])) r

def tokens? (ws : List String) : Option (List Token) := tokensFrom? none ws

/-- What stands between two quotes. -/
def quoted? (w : String) : Option String :=
  match w.toList with
  | '"' :: r => before? '"' (String.ofList r)
  | _ => none

def operand? {α : Type} (item? : String → Option α) : Token → Option (Operand α)
  | .word w =>
    match w.toList with
    | '@' :: r => some (.set (String.ofList r))
    | _ => (item? w).map .one
  | .group l => (l.mapM item?).map .list

def subnet? : Family → String → Option Subnet
  | .v4, w => (Network.read? .v4 w.toList).map .v4
  | .v6, w => (Network.read? .v6 w.toList).map .v6

def port? (w : String) : Option PortEntry := (PortEntry.parse w).toOption

def side? : String → Option Side
  | "saddr" => some .source
  | "daddr" => some .destination
  | _ => none

def transport? : String → Option Transport
  | "tcp" => some .tcp
  | "udp" => some .udp
  | "esp" => some .esp
  | _ => none

def action? : String → Option Action
  | "accept" => some .accept
  | "drop" => some .drop
  | _ => none

def chainOfName? : String → Option JumpChain
  | "icmp_accept" => some ⟨.icmp, .accept⟩
  | "icmp_drop" => some ⟨.icmp, .drop⟩
  | "icmp6_accept" => some ⟨.icmp6, .accept⟩
  | "icmp6_drop" => some ⟨.icmp6, .drop⟩
  | "dns_accept" => some ⟨.dns, .accept⟩
  | "dns_drop" => some ⟨.dns, .drop⟩
  | "vpn_accept" => some ⟨.vpn, .accept⟩
  | "vpn_drop" => some ⟨.vpn, .drop⟩
  | _ => none

/-- The clauses of a line, each known by its first word. -/
def clauses? : List Token → Option Line
  | [] => some []
  | .word "iifname" :: .word w :: r => do
    let i ← quoted? w
    let cs ← clauses? r
    some (.incoming i :: cs)
  | .word "oifname" :: .word w :: r => do
    let o ← quoted? w
    let cs ← clauses? r
    some (.outgoing o :: cs)
  | .word "ip" :: .word w :: o :: r => do
    let s ← side? w
    let o ← operand? (subnet? .v4) o
    let cs ← clauses? r
    some (.address .v4 s o :: cs)
  | .word "ip6" :: .word w :: o :: r => do
    let s ← side? w
    let o ← operand? (subnet? .v6) o
    let cs ← clauses? r
    some (.address .v6 s o :: cs)
  | .word "log" :: .word "prefix" :: .word w :: .word "level" :: .word "debug" :: r => do
    let mark ← quoted? w
    let cs ← clauses? r
    some (.log mark :: cs)
  | .word "meta" :: .word "l4proto" :: .word w :: r => do
    let t ← transport? w
    let cs ← clauses? r
    some (.protocol t :: cs)
  | .word "tcp" :: .word "dport" :: o :: r => do
    let o ← operand? port? o
    let cs ← clauses? r
    some (.port .tcp o :: cs)
  | .word "udp" :: .word "dport" :: o :: r => do
    let o ← operand? port? o
    let cs ← clauses? r
    some (.port .udp o :: cs)
  | .word "icmp" :: .word "type" :: .group l :: r => do
    let cs ← clauses? r
    some (.icmpType .v4 l :: cs)
  | .word "icmpv6" :: .word "type" :: .group l :: r => do
    let cs ← clauses? r
    some (.icmpType .v6 l :: cs)
  | .word "dnat" :: .word "to" :: .word w :: r => do
    let n ← Network.read? .v4 w.toList
    let cs ← clauses? r
    some (.destinationTo n :: cs)
  | .word "snat" :: .word "to" :: .word w :: r => do
    let n ← Network.read? .v4 w.toList
    let cs ← clauses? r
    some (.sourceTo n :: cs)
  | .word "accept" :: r => do
    let cs ← clauses? r
    some (.verdict .accept :: cs)
  | .word "drop" :: r => do
    let cs ← clauses? r
    some (.verdict .drop :: cs)
  | .word "jump" :: .word w :: r => do
    let c ← chainOfName? w
    let cs ← clauses? r
    some (.jump c :: cs)
  | _ => none

def line? (ws : List String) : Option Line := tokens? ws >>= clauses?

def hookKind? : String → Option HookKind
  | "filter" => some .filter
  | "nat" => some .nat
  | _ => none

def hook? : String → Option Hook
  | "prerouting" => some .prerouting
  | "input" => some .input
  | "forward" => some .forward
  | "output" => some .output
  | "postrouting" => some .postrouting
  | _ => none

/-- The first line of a chain that the packet filter enters by itself. -/
def entry? : List String → Option Entry
  | ["type", k, "hook", h, "priority", p, "policy", a] => do
    let kind ← hookKind? k
    let hook ← hook? h
    let priority ← before? ';' p >>= fun p => Decimal.signed? p.toList
    let policy ← before? ';' a >>= action?
    some { kind, hook, priority, policy }
  | _ => none

/-- The contents of a chain; jumps go to one that has no entry. -/
def chainBody? : List (List String) → Option (Option Entry × List Line)
  | [] => some (none, [])
  | r :: rs =>
    if r.head? = some "type" then do
      let e ← entry? r
      let ls ← rs.mapM line?
      some (some e, ls)
    else ((r :: rs).mapM line?).map (none, ·)

/-- An element as the type of its set has it. -/
def element? : SetType → String → Option SetElement
  | .ipv4Addr, w => (subnet? .v4 w).map .network
  | .ipv6Addr, w => (subnet? .v6 w).map .network
  | .inetService, w => (port? w).map .port
  | .etherAddr, w => some (.mac w)

def elements? (type : SetType) : List (List String) → Option (List SetElement)
  | ["elements" :: "=" :: ws] => do
    match ← tokens? ws with
    | [.group l] => l.mapM (element? type)
    | _ => none
  | _ => none

/-- The type of a set, with the lines behind it. Sets with ranges say so in two more lines. -/
def setType? : List (List String) → Option (SetType × List (List String))
  | ["type", "ipv4_addr"] :: ["flags", "interval"] :: ["auto-merge"] :: rs => some (.ipv4Addr, rs)
  | ["type", "ipv6_addr"] :: ["flags", "interval"] :: ["auto-merge"] :: rs => some (.ipv6Addr, rs)
  | ["type", "inet_service"] :: ["flags", "interval"] :: ["auto-merge"] :: rs => some (.inetService, rs)
  | ["type", "ether_addr"] :: rs => some (.etherAddr, rs)
  | _ => none

/-- The type of a set and its elements. -/
def setBody? (rs : List (List String)) : Option (SetType × List SetElement) := do
  let (type, rs) ← setType? rs
  let elements ← elements? type rs
  some (type, elements)

inductive Block where
  | set (set : NamedSet)
  | chain (chain : Chain)

def Block.set? : Block → Option NamedSet
  | set s => some s
  | chain _ => none

def Block.chain? : Block → Option Chain
  | set _ => none
  | chain c => some c

def block? : List String → List (List String) → Option Block
  | ["set", name], rs => (setBody? rs).map fun b => .set ⟨name, b.1, b.2⟩
  | ["chain", name], rs => (chainBody? rs).map fun b => .chain ⟨name, b.1, b.2⟩
  | _, _ => none

/-- Reads on inside a block, of which the head and the rows so far are given, or between blocks. -/
def blocksFrom? : Option (List String × List (List String)) → List (List String) →
    Option (List Block)
  | _, [] => none
  | none, r :: rs =>
    if r = ["\x7d"] then (if rs = [] then some [] else none)
    else if r.getLast? = some "\x7b" then blocksFrom? (some (r.dropLast, [])) rs
    else none
  | some (h, b), r :: rs =>
    if r = ["\x7d"] then do
      let x ← block? h b
      let xs ← blocksFrom? none rs
      some (x :: xs)
    else blocksFrom? (some (h, b ++ [r])) rs

def Table.read? (s : String) : Option Table :=
  match rows s.toList with
  | ["table", "inet", name, "\x7b"] :: rs =>
    (blocksFrom? none rs).map fun bs => ⟨name, bs.filterMap Block.set?, bs.filterMap Block.chain?⟩
  | _ => none

end Document
end TwinWall
