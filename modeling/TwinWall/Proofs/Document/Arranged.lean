import Mathlib.Data.List.Forall2
import TwinWall.Proofs.Document.Determined
import TwinWall.Proofs.Document.Outcome
import TwinWall.Proofs.Document.Sorted

/-! The order of rules as far as a document shows it. Rules of one chain and one order keep the order in
which they were given; where else a rule stood is not to be seen. -/
namespace TwinWall
namespace Document

open Policy

/-- The rules of a chain that have an order, one behind the other as they were given. -/
def turn (c : FilterChain) (k : Int) (rules : List Rule) : List Rule :=
  rules.filter fun r => r.order = k ∧ r.chain = c

/-- Lists of rules that differ at most in where rules of other chains or orders stand. -/
def SameTurns (rules others : List Rule) : Prop := ∀ c k, turn c k rules = turn c k others

/-- Whether the rule at one place comes before the rule at another. -/
def Before (rules : List Rule) (i j : Nat) : Prop :=
  ∃ r s, rules[i]? = some r ∧ rules[j]? = some s ∧ (r.order < s.order ∨ r.order = s.order ∧ i < j)

variable {rules others : List Rule} {c : FilterChain} {p : Ruleset} {t : Target}

namespace SameTurns

theorem rulesOf_eq (h : SameTurns rules others) (c : FilterChain) :
    rulesOf c rules = rulesOf c others := by
  refine sorted_eq_of_filter Rule.order fun k => ?_
  rw [List.filter_filter, List.filter_filter]
  simpa [turn, ← Bool.decide_and] using h c k

theorem chainLines_eq (h : SameTurns rules others) (mark : String) (c : FilterChain) :
    chainLines mark c rules = chainLines mark c others := by
  rw [chainLines, h.rulesOf_eq c, chainLines]

theorem alike (h : SameTurns p.rules rules) (mark : String) :
    Alike mark p { p with rules := rules } :=
  ⟨rfl, rfl, fun _ => rfl, h.chainLines_eq mark⟩

end SameTurns

theorem Before.ne {i j : Nat} (h : Before rules i j) : i ≠ j := by
  rintro rfl
  obtain ⟨r, s, hr, hs, hlt⟩ := h
  obtain rfl : r = s := Option.some.inj (hr.symm.trans hs)
  omega

end Document
end TwinWall
