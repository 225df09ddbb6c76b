import TwinWall.Document.Compile

/-! A table with its sets and chains, and its text. A block of the text is indented by four blanks,
what is in it by eight, and an empty line follows each block. -/
namespace TwinWall
namespace Document

open Net Policy

inductive HookKind where
  | filter
  | nat
deriving DecidableEq, Repr

inductive Hook where
  | prerouting
  | input
  | forward
  | output
  | postrouting
deriving DecidableEq, Repr

/-- Where the packet filter enters a chain, and what it does at the end of it. -/
structure Entry where
  kind : HookKind
  hook : Hook
  priority : Int
  policy : Action
deriving DecidableEq, Repr

structure Chain where
  name : String
  entry : Option Entry
  lines : List Line
deriving DecidableEq

structure Table where
  name : String
  sets : List NamedSet
  chains : List Chain
deriving DecidableEq

def HookKind.text : HookKind → String
  | filter => "filter"
  | nat => "nat"

def Hook.text : Hook → String
  | prerouting => "prerouting"
  | input => "input"
  | forward => "forward"
  | output => "output"
  | postrouting => "postrouting"

def Hook.ofChain : FilterChain → Hook
  | .input => input
  | .forward => forward
  | .output => output

def Entry.text (e : Entry) : String :=
  "type " ++ e.kind.text ++ " hook " ++ e.hook.text ++ " priority " ++ Decimal.ofInt e.priority ++
    "; policy " ++ e.policy.text ++ ";"

def elementText : SetElement → String
  | .network n => n.brief
  | .port p => p.text
  | .mac s => s

/-- A block with a head and lines, and the empty line behind it. -/
def blockText (head : String) (lines : List String) : String :=
  "    " ++ head ++ " \x7b\n" ++ String.join (lines.map fun l => "        " ++ l ++ "\n") ++
    "    \x7d\n\n"

def setLines (s : NamedSet) : List String :=
  ["type " ++ s.type.text] ++ (if s.type.hasIntervals then ["flags interval", "auto-merge"] else []) ++
    ["elements = " ++ braced (s.elements.map elementText)]

def setText (s : NamedSet) : String := blockText ("set " ++ s.name) (setLines s)

def Chain.text (c : Chain) : String :=
  blockText ("chain " ++ c.name) ((c.entry.map Entry.text).toList ++ c.lines.map Line.text)

def Table.text (t : Table) : String :=
  "table inet " ++ t.name ++ " \x7b\n" ++ String.join (t.sets.map setText) ++
    String.join (t.chains.map Chain.text) ++ "\x7d\n"

def jumpChain (c : JumpChain) : Chain := ⟨c.name, none, c.body⟩

def filterChain (target : Target) (p : Ruleset) (c : FilterChain) : Chain :=
  ⟨c.text, some ⟨.filter, Hook.ofChain c, target.priority, p.defaults.get c⟩,
    chainLines target.logMark c p.rules⟩

/-- A chain of mapping lines, which is there only if it has lines. -/
def mappingChain (hook : Hook) (target : Target) (lines : List Line) : List Chain :=
  if lines.isEmpty then [] else [⟨hook.text, some ⟨.nat, hook, target.priority, .accept⟩, lines⟩]

/-- What jumps go to comes before the chains that hold the jumps. -/
def tableOf (p : Ruleset) (target : Target) : Table :=
  { name := target.table
    sets := p.sets
    chains :=
      (jumpChains p.rules).map jumpChain ++
        mappingChain .prerouting target (mappingLines .destination p.mappings) ++
        FilterChain.all.map (filterChain target p) ++
        mappingChain .postrouting target (mappingLines .source p.mappings) }

end Document
end TwinWall
