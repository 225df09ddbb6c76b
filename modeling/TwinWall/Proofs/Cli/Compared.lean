import TwinWall.Proofs.Cli.ExitStatus
import TwinWall.Proofs.Deploy.Surveyed
import TwinWall.Proofs.Topology.Pair

/-! What a read of both nodes comes to. It makes its two calls in any case, reports the answers as they are,
and says that the tables are identical only if both nodes have given the same one. -/
namespace TwinWall
namespace Cli

open Deploy Policy Remote

/-- What a read says of tables that are the same. -/
def sameTables : String := "✓ Both nodes hold identical tables\n"

/-- The line above the difference of two tables. -/
def differenceHead (top : Topology) : String :=
  "# diff " ++ top.enabledHost ++ " -> " ++ top.disabledHost ++ "\n"

/-- What is said behind both tables, by the replies of the nodes, if their difference is asked for or not. -/
structure Compares (top : Topology) (difference : Bool) (a b : Reply) (said : String) : Prop where
  same : said = sameTables ↔ difference = true ∧ ∃ x, GaveTable a x ∧ GaveTable b x
  differing : ∀ d, said = differenceHead top ++ d ↔
    difference = true ∧ ∃ x y, GaveTable a x ∧ GaveTable b y ∧ Diff.lineDiff? x y = some d
  silent : said = "" ↔ difference = false ∨ (∀ x, ¬ GaveTable a x) ∨ ∀ y, ¬ GaveTable b y

theorem differenceHead_append_ne (top : Topology) (d : String) :
    differenceHead top ++ d ≠ "" ∧ differenceHead top ++ d ≠ sameTables := by
  have hfirst : (differenceHead top ++ d).toList.head? = some '#' := by simp [differenceHead]
  constructor
  · intro h
    rw [h] at hfirst
    cases hfirst
  · intro h
    rw [h] at hfirst
    exact absurd hfirst (by decide)

section Read

variable {top : Topology} {t : Target} {a b : Reply} {survey : Survey} {x y : String}

theorem compares_nothing (difference : Bool)
    (h : difference = false ∨ (∀ x, ¬ GaveTable a x) ∨ ∀ y, ¬ GaveTable b y) :
    Compares top difference a b "" := by
  have hnot : ∀ x y, difference = true → GaveTable a x → GaveTable b y → False := by
    rintro x y rfl hx hy
    rcases h with h | h | h
    · cases h
    · exact h x hx
    · exact h y hy
  refine ⟨iff_of_false (by decide) ?_, fun d => iff_of_false (differenceHead_append_ne top d).1.symm ?_,
    iff_of_true rfl h⟩
  · rintro ⟨hd, x, hx, hy⟩
    exact hnot x x hd hx hy
  · rintro ⟨hd, x, y, hx, hy, -⟩
    exact hnot x y hd hx hy

theorem compares_same (ha : GaveTable a x) (hb : GaveTable b x) : Compares top true a b sameTables := by
  refine ⟨iff_of_true rfl ⟨rfl, x, ha, hb⟩,
    fun d => iff_of_false (differenceHead_append_ne top d).2.symm ?_, iff_of_false (by decide) ?_⟩
  · rintro ⟨-, x', y', hx, hy, hd⟩
    rw [hx.unique ha, hy.unique hb, Diff.lineDiff?_eq_none_iff.2 rfl] at hd
    cases hd
  · rintro (h | h | h)
    · cases h
    · exact h x ha
    · exact h x hb

theorem compares_differing {d : String} (ha : GaveTable a x) (hb : GaveTable b y)
    (hd : Diff.lineDiff? x y = some d) : Compares top true a b (differenceHead top ++ d) := by
  refine ⟨iff_of_false (differenceHead_append_ne top d).2 ?_, fun d' => ?_,
    iff_of_false (differenceHead_append_ne top d).1 ?_⟩
  · rintro ⟨-, x', hx, hy⟩
    rw [← hx.unique ha, ← hy.unique hb, Diff.lineDiff?_eq_none_iff.2 rfl] at hd
    cases hd
  · constructor
    · intro h
      have heq : d = d' := by
        rw [← String.toList_inj] at h ⊢
        simpa using h
      exact ⟨rfl, x, y, ha, hb, heq ▸ hd⟩
    · rintro ⟨-, x', y', hx, hy, hd'⟩
      rw [hx.unique ha, hy.unique hb, hd, Option.some.injEq] at hd'
      rw [hd']
  · rintro (h | h | h)
    · cases h
    · exact h x ha
    · exact h y hb

theorem compares_differenceText (h : Surveyed top t a b survey) (difference : Bool) :
    Compares top difference a b (if difference then Session.differenceText survey top else "") := by
  cases difference with
  | false => exact compares_nothing false (.inl rfl)
  | true =>
    rw [if_pos rfl, Session.differenceText]
    cases hdiff : survey.difference? top with
    | some d =>
      obtain ⟨x, y, ha, hb, hd⟩ := (h.difference d).1 hdiff
      exact compares_differing ha hb hd
    | none =>
      have hsame : ∀ x y, GaveTable a x → GaveTable b y → x = y := by
        intro x y ha hb
        by_contra hne
        have hdiffers := h.differs.2 ⟨x, y, ha, hb, hne⟩
        rw [hdiff] at hdiffers
        cases hdiffers
      cases hsucceeded : survey.succeeded with
      | true =>
        obtain ⟨⟨x, ha⟩, y, hb⟩ := h.succeeded.1 hsucceeded
        obtain rfl := hsame x y ha hb
        exact compares_same ha hb
      | false =>
        refine compares_nothing true (.inr ?_)
        by_contra hnot
        push Not at hnot
        rw [h.succeeded.2 hnot] at hsucceeded
        cases hsucceeded

end Read

section Command

variable {s : Surroundings} {w : World} {r : Request} {words : List String} {target : TargetWords}
  {difference : Bool} {top : Topology}

theorem enabledHost_ne_of_topologyOf {settings : Settings}
    (h : Session.topologyOf w r settings = .ok top) : top.enabledHost ≠ top.disabledHost := by
  have hload := mapError_eq_ok.1 h
  rw [Topology.load] at hload
  split at hload
  · cases hload
  · exact Topology.enabledHost_ne_of_ofText hload

/-- What the command line has said of a read: both tables, and what the replies are compared to. -/
def Said (site : Site) (t : Target) (difference : Bool) (stdout : String) : Prop :=
  ∃ said, stdout = Session.nodeText (site.read t []).1 site.topology.enabled ++
      Session.nodeText (site.read t []).1 site.topology.disabled ++ said ∧
    Compares site.topology difference (site.executor [] (askEnabled site.topology t))
      (site.executor [askEnabled site.topology t] (askDisabled site.topology t)) said

theorem said_of_run (hread : Request.read words = .ok r) (haction : r.action = .read target difference)
    (htop : Session.topologyOf w r (settingsOf s w r) = .ok top) :
    Said (Session.siteOf s w (settingsOf s w r) top) (Session.targetOf (settingsOf s w r) target)
      difference (Session.run s w words).2.stdout := by
  have hrun : Session.run s w words = Session.answer s w r := by
    rw [Session.run, hread]
  have hsurveyed := surveyed_of_read (Session.siteOf s w (settingsOf s w r) top)
    (Session.targetOf (settingsOf s w r) target) [] (enabledHost_ne_of_topologyOf htop)
  refine ⟨_, ?_, compares_differenceText hsurveyed difference⟩
  rw [hrun, answer_read haction, Session.read, htop]
  simp [Topology.nodes, String.join, Session.siteOf]

end Command

/-- A read asks both nodes, whatever the first one answers, and keeps what they answer. It says that the tables
are identical just if both nodes have given the same table, and it leaves the nodes as they were. -/
theorem read_settled :
    (∀ (s : Site) (t : Target) (calls : List Call),
      s.topology.enabledHost ≠ s.topology.disabledHost →
        (s.read t calls).2 = calls ++ [askEnabled s.topology t, askDisabled s.topology t] ∧
        Surveyed s.topology t (s.executor calls (askEnabled s.topology t))
          (s.executor (calls ++ [askEnabled s.topology t]) (askDisabled s.topology t))
          (s.read t calls).1) ∧
    (∀ (s : Surroundings) (w : World) (words : List String) (r : Request) (target : TargetWords)
      (difference : Bool) (top : Topology), Request.read words = .ok r →
        r.action = .read target difference → Session.topologyOf w r (settingsOf s w r) = .ok top →
        Said (Session.siteOf s w (settingsOf s w r) top) (Session.targetOf (settingsOf s w r) target)
          difference (Session.run s w words).2.stdout) ∧
    ∀ (t : Target), t.check = .ok () → ∀ (faults : Faults) (w : Deploy.World) (top : Topology)
      (directory : String), w.after faults ((w.site faults top directory).read t []).2 = w := by
  refine ⟨fun s t calls hne => ⟨?_, surveyed_of_read s t calls hne⟩, ?_, ?_⟩
  · rw [read_eq]
  · intro s w words r target difference top
    exact said_of_run
  · intro t
    exact after_read

def plainTable : String := "table inet fw \x7b\n\x7d\n"

/-- Surroundings in which every program succeeds and writes one table. -/
def calmSurroundings : Surroundings :=
  { deadSurroundings with behaviour := fun _ _ => .exited 0 (Text.Utf8.encode plainTable) [] }

def calmRead : Request := deadRequest (.read deadTarget true)

def calmWords : List String := ["read", "ns1100", "fw", "-t", "/nodes.json", "--diff"]

def calmTarget : Target := ⟨"ns1100", "fw", 0⟩

def calmSite : Site :=
  Session.siteOf calmSurroundings deadWorld (settingsOf calmSurroundings deadWorld calmRead) deadTopology

theorem gaveTable_calm :
    GaveTable (calmSite.executor [] (askEnabled deadTopology calmTarget)) plainTable ∧
      GaveTable (calmSite.executor [askEnabled deadTopology calmTarget] (askDisabled deadTopology calmTarget))
        plainTable :=
  ⟨⟨"", toOption_eq_some.1 (by decide +kernel)⟩, "", toOption_eq_some.1 (by decide +kernel)⟩

/-- Both nodes give one table, and the read ends by saying so. -/
theorem read_settled_calm : deadTopology.enabledHost ≠ deadTopology.disabledHost ∧
    Request.read calmWords = .ok calmRead ∧
    Session.topologyOf deadWorld calmRead (settingsOf calmSurroundings deadWorld calmRead) =
      .ok deadTopology ∧
    calmTarget.check = .ok () ∧ (calmSite.read calmTarget []).1.succeeded = true ∧
    (∃ tables, (Session.run calmSurroundings deadWorld calmWords).2.stdout = tables ++ sameTables) ∧
    ∀ faults (w : Deploy.World),
      w.after faults ((w.site faults deadTopology "/tmp").read calmTarget []).2 = w := by
  have hne : deadTopology.enabledHost ≠ deadTopology.disabledHost := by decide
  have hread : Request.read calmWords = .ok calmRead := toOption_eq_some.1 (by decide +kernel)
  have htop : Session.topologyOf deadWorld calmRead (settingsOf calmSurroundings deadWorld calmRead) =
      .ok deadTopology := topologyOf_dead _ _
  have htarget : Session.targetOf (settingsOf calmSurroundings deadWorld calmRead) deadTarget =
      calmTarget := by decide +kernel
  have hcheck : calmTarget.check = .ok () := by rfl
  obtain ⟨ha, hb⟩ := gaveTable_calm
  obtain ⟨said, hstdout, hcompares⟩ :=
    read_settled.2.1 calmSurroundings deadWorld calmWords calmRead deadTarget true deadTopology hread rfl htop
  rw [htarget] at hcompares
  refine ⟨hne, hread, htop, hcheck, ?_, ?_, fun faults w => read_settled.2.2 _ hcheck faults w _ _⟩
  · exact (read_settled.1 calmSite calmTarget [] hne).2.succeeded.2 ⟨⟨_, ha⟩, _, hb⟩
  · exact ⟨_, hstdout.trans (congrArg _ (hcompares.same.2 ⟨rfl, _, ha, hb⟩))⟩

end Cli
end TwinWall
