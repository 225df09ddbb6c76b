import TwinWall.Policy.Rule

/-! The parts of a line of a table. A line is a list of clauses, which the packet filter takes from the
left: a match lets the packet through to the next clause, a verdict or a jump ends the line. -/
namespace TwinWall
namespace Document

open Net Policy

/-- A chain that rules of one kind jump to. The kinds are declared in this order. -/
inductive JumpKind where
  | icmp
  | icmp6
  | dns
  | vpn
deriving DecidableEq, Repr

structure JumpChain where
  kind : JumpKind
  action : Action
deriving DecidableEq, Repr

inductive Side where
  | source
  | destination
deriving DecidableEq, Repr

inductive Transport where
  | tcp
  | udp
  | esp
deriving DecidableEq, Repr

/-- A declared set by its name, one element, or a list of elements. -/
inductive Operand (α : Type) where
  | set (name : String)
  | one (item : α)
  | list (items : List α)
deriving DecidableEq, Repr

inductive Clause where
  | incoming (interface : String)
  | outgoing (interface : String)
  | address (family : Family) (side : Side) (operand : Operand Subnet)
  | log (mark : String)
  | protocol (transport : Transport)
  | port (transport : Transport) (operand : Operand PortEntry)
  | icmpType (family : Family) (names : List String)
  | destinationTo (network : Network .v4)
  | sourceTo (network : Network .v4)
  | verdict (action : Action)
  | jump (chain : JumpChain)
deriving DecidableEq

abbrev Line := List Clause

namespace JumpKind

def text : JumpKind → String
  | icmp => "icmp"
  | icmp6 => "icmp6"
  | dns => "dns"
  | vpn => "vpn"

def all : List JumpKind := [icmp, icmp6, dns, vpn]

end JumpKind

namespace JumpChain

def name (c : JumpChain) : String := c.kind.text ++ "_" ++ c.action.text

/-- In the order in which a table declares them. -/
def all : List JumpChain := JumpKind.all.flatMap fun k => Action.all.map (⟨k, ·⟩)

theorem mem_all (c : JumpChain) : c ∈ all := by
  obtain ⟨k, a⟩ := c
  cases k <;> cases a <;> decide

end JumpChain

def Side.text : Side → String
  | source => "saddr"
  | destination => "daddr"

def Transport.text : Transport → String
  | tcp => "tcp"
  | udp => "udp"
  | esp => "esp"

/-- The word in front of what is matched in the header of a family. -/
def headerWord : Family → String
  | .v4 => "ip"
  | .v6 => "ip6"

def icmpWord : Family → String
  | .v4 => "icmp"
  | .v6 => "icmpv6"

def quote (s : String) : String := "\"" ++ s ++ "\""

def braced (items : List String) : String := "\x7b " ++ ", ".intercalate items ++ " \x7d"

def Operand.text {α : Type} (item : α → String) : Operand α → String
  | set n => "@" ++ n
  | one x => item x
  | list l => braced (l.map item)

namespace Clause

def text : Clause → String
  | incoming i => "iifname " ++ quote i
  | outgoing o => "oifname " ++ quote o
  | address f s o => headerWord f ++ " " ++ s.text ++ " " ++ o.text Subnet.brief
  | log mark => "log prefix " ++ quote mark ++ " level debug"
  | protocol t => "meta l4proto " ++ t.text
  | port t o => t.text ++ " dport " ++ o.text PortEntry.text
  | icmpType f names => icmpWord f ++ " type " ++ braced names
  | destinationTo n => "dnat to " ++ n.brief
  | sourceTo n => "snat to " ++ n.brief
  | verdict a => a.text
  | jump c => "jump " ++ c.name

end Clause

def Line.text (l : Line) : String := " ".intercalate (l.map Clause.text)

namespace JumpChain

/-- Lines of a jump chain, each of which gives the action of the chain. -/
def body (c : JumpChain) : List Line :=
  match c.kind with
  | .icmp =>
    [[.icmpType .v4
        ["destination-unreachable", "echo-reply", "echo-request", "time-exceeded"],
      .verdict c.action]]
  | .icmp6 =>
    [[.icmpType .v6
        ["echo-request", "mld-listener-query", "nd-router-solicit", "nd-router-advert",
          "nd-neighbor-solicit", "nd-neighbor-advert"],
      .verdict c.action]]
  | .dns =>
    [[.port .udp (.one (.single 53)), .verdict c.action],
      [.port .tcp (.one (.single 53)), .verdict c.action]]
  | .vpn =>
    [[.port .udp (.list [.single 500, .single 4500]), .verdict c.action],
      [.protocol .esp, .verdict c.action]]

end JumpChain
end Document
end TwinWall
