import TwinWall.Proofs.Deploy.Effects
import TwinWall.Proofs.Deploy.Guard
import TwinWall.Proofs.Shell.Pipeline

/-! A scrub on nodes whose packet filter may break down. The status of a lookup is that of the search behind
the listing, so a listing that breaks down looks like a table that is not there. -/
namespace TwinWall
namespace Deploy

open Policy Remote Shell Text

inductive TableFamily where
  | ip
  | ip6
  | inet
  | arp
  | bridge
  | netdev
deriving DecidableEq

def TableFamily.text : TableFamily → String
  | ip => "ip"
  | ip6 => "ip6"
  | inet => "inet"
  | arp => "arp"
  | bridge => "bridge"
  | netdev => "netdev"

/-- A table that is loaded in a namespace. -/
structure Loaded where
  space : String
  family : TableFamily
  name : String
  text : String
deriving DecidableEq

namespace Loaded

/-- The line of the table in a listing. -/
def line (t : Loaded) : String := "table " ++ t.family.text ++ " " ++ t.name

def IsAt (t : Loaded) (key : String × String) : Prop :=
  t.space = key.1 ∧ t.family = .inet ∧ t.name = key.2

instance (t : Loaded) (key : String × String) : Decidable (t.IsAt key) :=
  inferInstanceAs (Decidable (_ ∧ _ ∧ _))

end Loaded

/-- An invocation of the packet filter that fails: it writes nothing to its output and changes nothing. -/
structure Breakdown where
  exit : Int
  stderr : String
  exit_ne : exit ≠ 0

/-- Which invocations fail, by the calls before them. Every call has one invocation at most. -/
abbrev Breakdowns := List Call → Call → Option Breakdown

/-- The tables of a host. -/
abbrev Tables := List Loaded

namespace Tables

def Has (s : Tables) (key : String × String) : Prop := ∃ t ∈ s, t.IsAt key

instance (s : Tables) (key : String × String) : Decidable (s.Has key) :=
  inferInstanceAs (Decidable (∃ t ∈ s, _))

def without (s : Tables) (key : String × String) : Tables := s.filter fun t => ¬ t.IsAt key

def listing (s : Tables) (space : String) : String :=
  String.ofList (unlines ((s.filter (·.space = space)).map (·.line.toList)))

/-- The packet filter in a namespace, as far as a scrub makes use of it. -/
def nft (s : Tables) (space : String) : List String → Tables × Output
  | ["list", "tables"] => (s, ⟨0, s.listing space, ""⟩)
  | ["delete", "table", "inet", name] =>
    if s.Has (space, name) then (s.without (space, name), accepted) else (s, missing)
  | _ => (s, ⟨1, "", "Error: syntax error\n"⟩)

def programs (broken : Option Breakdown) : Programs Tables
  | s, ⟨"ip" :: "netns" :: "exec" :: space :: "nft" :: args, none, none⟩, _ =>
    match broken with
    | some b => (s, ⟨b.exit, "", b.stderr⟩)
    | none => s.nft space args
  | s, ⟨["grep", "-qxF", line], none, none⟩, input => (s, grep line input)
  | s, _, _ => (s, notFound)

def respond (s : Tables) (broken : Option Breakdown) (command : String) : Tables × Output :=
  match pipeline? command with
  | some cs => runPipeline (programs broken) s "" cs
  | none => (s, notFound)

theorem not_has_without (s : Tables) (key : String × String) : ¬ (s.without key).Has key := by
  rintro ⟨t, ht, hat⟩
  have hkept := (List.mem_filter.1 ht).2
  exact of_decide_eq_true hkept hat

theorem without_of_not_has {s : Tables} {key : String × String} (h : ¬ s.Has key) :
    s.without key = s :=
  List.filter_eq_self.2 fun t ht => decide_eq_true fun hat => h ⟨t, ht, hat⟩

/-- A table that is loaded is in the listing of its namespace, if its name is one line. -/
theorem line_mem_listing {s : Tables} {key : String × String} (h : s.Has key) (hno : '\n' ∉ key.2.toList) :
    ("table inet " ++ key.2).toList ∈ linesRead (s.listing key.1).toList := by
  obtain ⟨t, ht, hspace, hfamily, hname⟩ := h
  have hline : t.line = "table inet " ++ key.2 := by
    rw [Loaded.line, hfamily, hname]
    rfl
  have hmem : t.line.toList ∈ (s.filter (·.space = key.1)).map (·.line.toList) :=
    List.mem_map.2 ⟨t, List.mem_filter.2 ⟨ht, by simpa using hspace⟩, rfl⟩
  rw [← hline, listing, String.toList_ofList]
  refine mem_linesRead hmem ?_
  rw [hline]
  simp [hno]

end Tables

namespace Plan

variable {p : Plan} {broken : Option Breakdown} {s : Tables}

/-- A target whose names are sound. -/
structure Sound (p : Plan) : Prop where
  namespaceName : IsName p.target.namespaceName
  table : IsName p.target.table

theorem respond_of_sound (hp : p.Sound) (broken : Option Breakdown) (s : Tables) {step : Step}
    (h : step ≠ .writing) :
    s.respond broken (p.command step) = runPipeline (Tables.programs broken) s "" (p.pipeline step) := by
  rw [Tables.respond, pipeline?_of_ne_writing hp.namespaceName hp.table h]

/-- A lookup changes nothing. -/
theorem state_lookingUp (hp : p.Sound) : (s.respond broken (p.command .lookingUp)).1 = s := by
  rw [respond_of_sound hp broken s (by decide)]
  cases broken <;> rfl

/-- The listing that breaks down has the status of a table that is not there. -/
theorem exit_lookingUp_of_broken (hp : p.Sound) (b : Breakdown) :
    (s.respond (some b) (p.command .lookingUp)).2.exit = 1 := by
  rw [respond_of_sound hp (some b) s (by decide)]
  exact congrArg Output.exit (grep_empty p.tableLine)

/-- A lookup whose listing does not break down finds a table that is there. -/
theorem exit_lookingUp_of_has (hp : p.Sound) (h : s.Has p.key) :
    (s.respond none (p.command .lookingUp)).2.exit = 0 := by
  have hno : '\n' ∉ p.key.2.toList := hp.table.isPlain.isWord.no_feed
  rw [respond_of_sound hp none s (by decide)]
  exact if_pos (Tables.line_mem_listing h hno)

theorem respond_flushing (hp : p.Sound) : s.respond none (p.command .flushing) =
    if s.Has p.key then (s.without p.key, accepted) else (s, missing) := by
  rw [respond_of_sound hp none s (by decide)]
  rfl

theorem exit_flushing_of_has (hp : p.Sound) (h : s.Has p.key) :
    (s.respond none (p.command .flushing)).2.exit = 0 := by
  rw [respond_flushing hp, if_pos h]
  rfl

/-- Only a deletion that did not break down, of a table that was there, succeeds. -/
theorem state_flushing (hp : p.Sound) (h : (s.respond broken (p.command .flushing)).2.exit = 0) :
    (s.respond broken (p.command .flushing)).1 = s.without p.key := by
  cases broken with
  | some b =>
    rw [respond_of_sound hp (some b) s (by decide)] at h
    exact absurd h b.exit_ne
  | none =>
    rw [respond_flushing hp] at h ⊢
    split
    · rfl
    · rename_i hnot
      rw [if_neg hnot] at h
      cases h

end Plan

/-- The tables of all hosts. -/
abbrev Hosts := String → Tables

namespace Hosts

def step (broken : Breakdowns) (calls : List Call) (w : Hosts) (call : Call) : Hosts :=
  Function.update w call.node.host ((w call.node.host).respond (broken calls call) call.command).1

def afterFrom (broken : Breakdowns) : List Call → Hosts → List Call → Hosts
  | _, w, [] => w
  | calls, w, c :: cs => afterFrom broken (calls ++ [c]) (step broken calls w c) cs

/-- The tables after calls that start from the given ones. -/
def after (broken : Breakdowns) (w : Hosts) (calls : List Call) : Hosts := afterFrom broken [] w calls

theorem afterFrom_append_singleton (broken : Breakdowns) (calls : List Call) (w : Hosts)
    (cs : List Call) (c : Call) : afterFrom broken calls w (cs ++ [c]) =
      step broken (calls ++ cs) (afterFrom broken calls w cs) c := by
  induction cs generalizing calls w with
  | nil => simp [afterFrom]
  | cons d cs ih => simp [afterFrom, ih]

theorem after_append_singleton (broken : Breakdowns) (w : Hosts) (calls : List Call) (call : Call) :
    w.after broken (calls ++ [call]) = step broken calls (w.after broken calls) call :=
  afterFrom_append_singleton broken [] w calls call

/-- Only the packet filter of a host may break down, and no call fails to reach it. -/
def executor (broken : Breakdowns) (w : Hosts) : Executor := fun calls call =>
  .ok ((w.after broken calls call.node.host).respond (broken calls call) call.command).2

def site (broken : Breakdowns) (w : Hosts) (topology : Topology) (directory : String) : Site :=
  ⟨w.executor broken, topology, directory⟩

end Hosts

section Node

variable {broken : Breakdowns} {w : Hosts} {p : Plan} {n : Node} {calls after : List Call}

/-- What a scrub of one node has come to: the table is removed, or the listing broke down and nothing
has changed. -/
inductive ScrubbedOn (broken : Breakdowns) (w : Hosts) (p : Plan) (n : Node) (calls after : List Call) : Prop
  | removed (listed : broken calls (p.call n .lookingUp) = none)
      (now : w.after broken after = Function.update (w.after broken calls) n.host
        ((w.after broken calls n.host).without p.key))
  | overlooked (unlisted : (broken calls (p.call n .lookingUp)).isSome = true)
      (now : w.after broken after = w.after broken calls)

theorem after_lookingUp (hp : p.Sound) :
    w.after broken (calls ++ [p.call n .lookingUp]) = w.after broken calls := by
  rw [Hosts.after_append_singleton]
  show Function.update (w.after broken calls) n.host ((w.after broken calls n.host).respond
    (broken calls (p.call n .lookingUp)) (p.command .lookingUp)).1 = _
  rw [Plan.state_lookingUp hp, Function.update_eq_self]

/-- Every call comes to its host, and is answered. -/
theorem exists_answer (broken : Breakdowns) (w : Hosts) (p : Plan) (n : Node) (calls : List Call)
    (step : Step) : ∃ out, w.executor broken calls (p.call n step) = .ok out := ⟨_, rfl⟩

theorem exit_lookingUp {out : Output} (asked : w.executor broken calls (p.call n .lookingUp) = .ok out) :
    out.exit = ((w.after broken calls n.host).respond (broken calls (p.call n .lookingUp))
      (p.command .lookingUp)).2.exit :=
  congrArg Output.exit (Except.ok.inj asked).symm

theorem after_flushing (hp : p.Sound) {out : Output}
    (asked : w.executor broken calls (p.call n .flushing) = .ok out) (h : out.exit = 0) :
    w.after broken (calls ++ [p.call n .flushing]) = Function.update (w.after broken calls) n.host
      ((w.after broken calls n.host).without p.key) := by
  rw [← Except.ok.inj asked] at h
  have hstate : ((w.after broken calls n.host).respond (broken calls (p.call n .flushing))
      (p.command .flushing)).1 = (w.after broken calls n.host).without p.key :=
    Plan.state_flushing hp h
  rw [Hosts.after_append_singleton, ← hstate]
  rfl

/-- A lookup with status one comes from a table that is not there or from a listing that broke down. -/
theorem scrubbedOn_of_exit_one (hp : p.Sound) {out : Output}
    (asked : w.executor broken calls (p.call n .lookingUp) = .ok out) (h : out.exit = 1) :
    ScrubbedOn broken w p n calls (calls ++ [p.call n .lookingUp]) := by
  cases hbroken : broken calls (p.call n .lookingUp) with
  | some b => exact .overlooked (by rw [hbroken]; rfl) (after_lookingUp hp)
  | none =>
    have hnot : ¬ (w.after broken calls n.host).Has p.key := by
      intro hhas
      have hexit := exit_lookingUp asked
      rw [hbroken, Plan.exit_lookingUp_of_has hp hhas, h] at hexit
      cases hexit
    refine .removed hbroken ((after_lookingUp hp).trans ?_)
    rw [Tables.without_of_not_has hnot, Function.update_eq_self]

/-- A lookup with status zero comes from a listing that did not break down. -/
theorem listed_of_exit_zero (hp : p.Sound) {out : Output}
    (asked : w.executor broken calls (p.call n .lookingUp) = .ok out) (h : out.exit = 0) :
    broken calls (p.call n .lookingUp) = none := by
  cases hbroken : broken calls (p.call n .lookingUp) with
  | none => rfl
  | some b =>
    have hexit := exit_lookingUp asked
    rw [hbroken, Plan.exit_lookingUp_of_broken hp, h] at hexit
    cases hexit

theorem Course.scrubbedOn (hp : p.Sound) {done : Record}
    (h : Course (w.executor broken) .scrub p n .lookingUp false calls done none) :
    ScrubbedOn broken w p n calls (calls ++ done.map (Done.call p)) := by
  cases h with
  | @last step loaded calls out asked passed ends =>
    have hexit : out.exit = 0 ∨ out.exit = 1 := by simpa [succeeds] using passed
    rcases hexit with hexit | hexit
    · rw [hexit] at ends
      cases ends
    · exact scrubbedOn_of_exit_one hp asked hexit
  | @next step follower loaded calls out done stop asked passed goes rest =>
    have hexit : out.exit = 0 ∨ out.exit = 1 := by simpa [succeeds] using passed
    rcases hexit with hexit | hexit
    · rw [hexit] at goes
      cases goes
      refine .removed (listed_of_exit_zero hp asked hexit) ?_
      cases rest with
      | @last step loaded calls' out' asked' passed' ends' =>
        have hflushed := after_flushing hp asked' (by simpa [succeeds] using passed')
        rw [after_lookingUp hp] at hflushed
        have hcalls : calls ++ [⟨n, .lookingUp, out⟩, ⟨n, .flushing, out'⟩].map (Done.call p) =
            calls ++ [p.call n .lookingUp] ++ [p.call n .flushing] := by
          simp [Done.call]
        rw [hcalls]
        exact hflushed
      | next asked' passed' goes' rest' => cases goes'
    · rw [hexit] at goes
      cases goes

theorem runOn_scrubbedOn (hp : p.Sound) {topology : Topology} {directory : String} {seed r : Record}
    (h : (w.site broken topology directory).runOn .scrub p n calls seed = (.ok r, after)) :
    ScrubbedOn broken w p n calls after := by
  obtain ⟨done, stop, hc, hs⟩ :=
    stepsFrom_course (w.site broken topology directory) .scrub n p .lookingUp false calls seed
  have hrun := hs.symm.trans h
  cases stop with
  | some x => cases hrun
  | none =>
    have hafter : calls ++ done.map (Done.call p) ++ Stop.calls p n none = after :=
      congrArg Prod.snd hrun
    rw [Stop.calls, Option.map_none, Option.toList_none, List.append_nil] at hafter
    rw [← hafter]
    exact hc.scrubbedOn hp

/-- A scrub leaves the tables of any host as they are, or without the one that it is to remove. -/
theorem ScrubbedOn.at_host (h : ScrubbedOn broken w p n calls after) (host : String) :
    w.after broken after host = w.after broken calls host ∨
      w.after broken after host = (w.after broken calls host).without p.key := by
  cases h with
  | overlooked _ now => exact Or.inl (congrFun now host)
  | removed _ now =>
    by_cases hhost : host = n.host
    · rw [now, hhost, Function.update_self]
      exact Or.inr rfl
    · rw [now, Function.update_of_ne hhost]
      exact Or.inl rfl

/-- The tables of another host are not touched. -/
theorem ScrubbedOn.elsewhere (h : ScrubbedOn broken w p n calls after) {host : String}
    (hne : host ≠ n.host) : w.after broken after host = w.after broken calls host := by
  cases h with
  | overlooked _ now => exact congrFun now host
  | removed _ now => rw [now, Function.update_of_ne hne]

theorem ScrubbedOn.has (h : ScrubbedOn broken w p n calls after) {host : String}
    (hhas : (w.after broken after host).Has p.key) : (w.after broken calls host).Has p.key := by
  rcases h.at_host host with hnow | hnow
  · rwa [hnow] at hhas
  · rw [hnow] at hhas
    exact absurd hhas (Tables.not_has_without _ _)

theorem ScrubbedOn.without_eq (h : ScrubbedOn broken w p n calls after) (host : String) :
    (w.after broken after host).without p.key = (w.after broken calls host).without p.key := by
  rcases h.at_host host with hnow | hnow
  · rw [hnow]
  · rw [hnow, Tables.without_of_not_has (Tables.not_has_without _ _)]

/-- The listing for the lookup on a node broke down in the course of some calls. -/
def Unlisted (broken : Breakdowns) (p : Plan) (n : Node) (calls after : List Call) : Prop :=
  ∃ before, calls <+: before ∧ before ++ [p.call n .lookingUp] <+: after ∧
    (broken before (p.call n .lookingUp)).isSome = true

theorem ScrubbedOn.gone_or_unlisted (h : ScrubbedOn broken w p n calls after)
    (hfirst : calls ++ [p.call n .lookingUp] <+: after) :
    ¬ (w.after broken after n.host).Has p.key ∨ Unlisted broken p n calls after := by
  cases h with
  | overlooked unlisted _ => exact Or.inr ⟨calls, List.prefix_rfl, hfirst, unlisted⟩
  | removed _ now =>
    rw [now, Function.update_self]
    exact Or.inl (Tables.not_has_without _ _)

theorem lookingUp_prefix {s : Site} {seed : Record} {outcome : Except Failure Record}
    (h : s.runOn .scrub p n calls seed = (outcome, after)) :
    calls ++ [p.call n .lookingUp] <+: after := by
  obtain ⟨more, hmore⟩ := runOn_first s .scrub p n calls seed
  rw [h] at hmore
  exact ⟨more, by simpa [Operation.first] using hmore.symm⟩

/-- A listing that breaks down lets the scrub of a node succeed, and nothing has changed. -/
theorem runOn_overlooked (hp : p.Sound)
    (hb : ∀ before, (broken before (p.call n .lookingUp)).isSome = true) (topology : Topology)
    (directory : String) (calls : List Call) (seed : Record) :
    ∃ r after, (w.site broken topology directory).runOn .scrub p n calls seed = (.ok r, after) ∧
      w.after broken after = w.after broken calls := by
  obtain ⟨b, hb⟩ := Option.isSome_iff_exists.1 (hb calls)
  obtain ⟨out, asked⟩ := exists_answer broken w p n calls .lookingUp
  have hexit : out.exit = 1 := by
    rw [exit_lookingUp asked, hb, Plan.exit_lookingUp_of_broken hp]
  have hc : Course (w.executor broken) .scrub p n .lookingUp false calls [⟨n, .lookingUp, out⟩] none :=
    .last asked (by rw [hexit]; rfl) (by rw [hexit]; rfl)
  refine ⟨_, _, hc.stepsFrom_eq (s := w.site broken topology directory) seed, ?_⟩
  have hcalls : calls ++ [⟨n, .lookingUp, out⟩].map (Done.call p) ++ Stop.calls p n none =
      calls ++ [p.call n .lookingUp] := by
    simp [Done.call, Stop.calls]
  rw [hcalls, after_lookingUp hp]

/-- A table that is there is removed if nothing breaks down. -/
theorem runOn_scrub_succeeds (hp : p.Sound) (hb : ∀ before call, broken before call = none)
    {calls : List Call} (hhas : (w.after broken calls n.host).Has p.key) (topology : Topology)
    (directory : String) (seed : Record) :
    ∃ r after, (w.site broken topology directory).runOn .scrub p n calls seed = (.ok r, after) := by
  obtain ⟨out, asked⟩ := exists_answer broken w p n calls .lookingUp
  obtain ⟨out', asked'⟩ := exists_answer broken w p n (calls ++ [p.call n .lookingUp]) .flushing
  have hlookup : out.exit = 0 := by
    rw [exit_lookingUp asked, hb, Plan.exit_lookingUp_of_has hp hhas]
  have hflush : out'.exit = 0 := by
    rw [← Except.ok.inj asked', hb, after_lookingUp hp]
    exact Plan.exit_flushing_of_has hp hhas
  have hc : Course (w.executor broken) .scrub p n .lookingUp false calls
      [⟨n, .lookingUp, out⟩, ⟨n, .flushing, out'⟩] none :=
    .next asked (by rw [hlookup]; rfl) (by rw [hlookup]; rfl)
      (.last asked' (by rw [hflush]; rfl) (by rw [hlookup]; rfl))
  exact ⟨_, _, hc.stepsFrom_eq (s := w.site broken topology directory) seed⟩

end Node

section Both

variable {broken : Breakdowns} {w : Hosts} {p : Plan} {topology : Topology} {directory : String}
  {calls after : List Call}

theorem runOnBoth_scrubbed (hp : p.Sound) {r : Record}
    (h : (w.site broken topology directory).runOnBoth .scrub p calls = (.ok r, after)) :
    (∀ n ∈ topology.nodes,
      ¬ (w.after broken after n.host).Has p.key ∨ Unlisted broken p n calls after) ∧
    ∀ host, (w.after broken after host).without p.key = (w.after broken calls host).without p.key := by
  rw [Site.runOnBoth] at h
  split at h
  · cases h
  · rename_i r₁ middle hfirst
    have henabled := runOn_scrubbedOn hp hfirst
    have hdisabled := runOn_scrubbedOn hp h
    have hmiddle := lookingUp_prefix hfirst
    have hafter := lookingUp_prefix h
    refine ⟨fun n hn => ?_, fun host => (hdisabled.without_eq host).trans (henabled.without_eq host)⟩
    rcases List.mem_cons.1 hn with rfl | hn
    · rcases henabled.gone_or_unlisted hmiddle with hgone | ⟨before, hcalls, hbefore, hbroken⟩
      · exact Or.inl fun hhas => hgone (hdisabled.has hhas)
      · exact Or.inr ⟨before, hcalls,
          hbefore.trans ((List.prefix_append _ _).trans hafter), hbroken⟩
    · obtain rfl := List.mem_singleton.1 hn
      rcases hdisabled.gone_or_unlisted hafter with hgone | ⟨before, hcalls, hbefore, hbroken⟩
      · exact Or.inl hgone
      · exact Or.inr ⟨before, ((List.prefix_append _ _).trans hmiddle).trans hcalls, hbefore, hbroken⟩

theorem runOnBoth_overlooked (hp : p.Sound)
    (hb : ∀ before, ∀ n ∈ topology.nodes, (broken before (p.call n .lookingUp)).isSome = true)
    (directory : String) (calls : List Call) :
    ∃ r after, (w.site broken topology directory).runOnBoth .scrub p calls = (.ok r, after) ∧
      w.after broken after = w.after broken calls := by
  obtain ⟨r, middle, hfirst, hmiddle⟩ := runOn_overlooked (w := w) (n := topology.enabled) hp
    (fun before => hb before _ (by simp [Topology.nodes])) topology directory calls []
  obtain ⟨r', after, hsecond, hafter⟩ := runOn_overlooked (w := w) (n := topology.disabled) hp
    (fun before => hb before _ (by simp [Topology.nodes])) topology directory middle r
  refine ⟨r', after, ?_, hafter.trans hmiddle⟩
  have hfirst : (w.site broken topology directory).runOn .scrub p
      (w.site broken topology directory).topology.enabled calls [] = (.ok r, middle) := hfirst
  rw [Site.runOnBoth, hfirst]
  exact hsecond

theorem runOnBoth_scrub_succeeds (hp : p.Sound) (hb : ∀ before call, broken before call = none)
    (hne : topology.enabledHost ≠ topology.disabledHost)
    (hhas : ∀ n ∈ topology.nodes, (w n.host).Has p.key) (directory : String) :
    ∃ r after, (w.site broken topology directory).runOnBoth .scrub p [] = (.ok r, after) := by
  have henabled : (w.after broken [] topology.enabled.host).Has p.key :=
    hhas topology.enabled (by simp [Topology.nodes])
  obtain ⟨r, middle, hfirst⟩ := runOn_scrub_succeeds hp hb henabled topology directory []
  have hdisabled : (w.after broken middle topology.disabledHost).Has p.key := by
    rw [(runOn_scrubbedOn hp hfirst).elsewhere hne.symm]
    exact hhas topology.disabled (by simp [Topology.nodes])
  obtain ⟨r', after, hsecond⟩ :=
    runOn_scrub_succeeds (n := topology.disabled) hp hb hdisabled topology directory r
  refine ⟨r', after, ?_⟩
  have hfirst : (w.site broken topology directory).runOn .scrub p
      (w.site broken topology directory).topology.enabled [] [] = (.ok r, middle) := hfirst
  rw [Site.runOnBoth, hfirst]
  exact hsecond

theorem sound_of_check {t : Target} (h : t.check = .ok ()) (directory document : String) :
    Plan.Sound ⟨t, directory, document⟩ :=
  ⟨(Document.isName_of_targetCheck h).1, (Document.isName_of_targetCheck h).2⟩

/-- A scrub that succeeds has removed its table from a node unless the listing for the lookup broke down
there, and has left all other tables. Where that listing breaks down on both nodes, the scrub succeeds
without removing anything. -/
theorem gone_or_unlisted_of_scrub {t : Target} (ht : t.check = .ok ()) :
    (∀ r after, (w.site broken topology directory).scrub t calls = (.ok r, after) →
      (∀ n ∈ topology.nodes, ¬ (w.after broken after n.host).Has (t.namespaceName, t.table) ∨
        Unlisted broken ⟨t, directory, ""⟩ n calls after) ∧
      ∀ host, (w.after broken after host).without (t.namespaceName, t.table) =
        (w.after broken calls host).without (t.namespaceName, t.table)) ∧
    ((∀ before, ∀ n ∈ topology.nodes,
        (broken before (Plan.call ⟨t, directory, ""⟩ n .lookingUp)).isSome = true) →
      ∃ r after, (w.site broken topology directory).scrub t calls = (.ok r, after) ∧
        w.after broken after = w.after broken calls) := by
  have hp : Plan.Sound ⟨t, directory, ""⟩ := sound_of_check ht directory ""
  exact ⟨fun r after h => runOnBoth_scrubbed hp h, fun hb => runOnBoth_overlooked hp hb directory calls⟩

end Both

/-- Two tables in one namespace. -/
def shelf : Tables :=
  [⟨"shop", .inet, "edge", "table inet edge \x7b\n\x7d\n"⟩,
    ⟨"shop", .inet, "nat", "table inet nat \x7b\n\x7d\n"⟩]

theorem shelf_has : shelf.Has ("shop", "edge") := by decide

theorem gone_or_unlisted_of_scrub_shelf : Document.webTarget.check = .ok () ∧
    ∃ r after, (Hosts.site (fun _ _ => none) (fun _ => shelf) ⟨"", "west", "east"⟩ "/tmp").scrub
      Document.webTarget [] = (.ok r, after) ∧
    ∀ n ∈ [Node.mk "west" .enabled, Node.mk "east" .disabled],
      ¬ (Hosts.after (fun _ _ => none) (fun _ => shelf) after n.host).Has ("shop", "edge") ∧
      (Hosts.after (fun _ _ => none) (fun _ => shelf) after n.host).without ("shop", "edge") =
        [⟨"shop", .inet, "nat", "table inet nat \x7b\n\x7d\n"⟩] := by
  have hcheck : Document.webTarget.check = .ok () := by rfl
  have hp : Plan.Sound ⟨Document.webTarget, "/tmp", ""⟩ := sound_of_check hcheck "/tmp" ""
  obtain ⟨r, after, hrun⟩ : ∃ r after,
      (Hosts.site (fun _ _ => none) (fun _ => shelf) ⟨"", "west", "east"⟩ "/tmp").scrub
        Document.webTarget [] = (.ok r, after) :=
    runOnBoth_scrub_succeeds hp (fun _ _ => rfl) (by decide) (fun _ _ => shelf_has) "/tmp"
  obtain ⟨hgone, hkept⟩ := (gone_or_unlisted_of_scrub hcheck).1 r after hrun
  have hnat : shelf.without ("shop", "edge") =
      [⟨"shop", .inet, "nat", "table inet nat \x7b\n\x7d\n"⟩] := by decide
  refine ⟨hcheck, r, after, hrun, fun n hn => ⟨?_, ?_⟩⟩
  · rcases hgone n hn with hgone | ⟨before, -, -, hbroken⟩
    · exact hgone
    · cases hbroken
  · exact (hkept n.host).trans hnat

/-- A packet filter that may not be used by whoever is logged in. -/
def unprivileged : Breakdowns := fun _ _ =>
  some ⟨1, "netlink: Error: cache initialization failed: Operation not permitted\n", by decide⟩

/-- The scrub succeeds, and the table is still loaded on both nodes. -/
theorem scrub_overlooks_table : Document.webTarget.check = .ok () ∧
    ∃ r after, (Hosts.site unprivileged (fun _ => shelf) ⟨"", "west", "east"⟩ "/tmp").scrub
      Document.webTarget [] = (.ok r, after) ∧
    ∀ n ∈ [Node.mk "west" .enabled, Node.mk "east" .disabled],
      (Hosts.after unprivileged (fun _ => shelf) after n.host).Has ("shop", "edge") := by
  have hcheck : Document.webTarget.check = .ok () := by rfl
  have hp : Plan.Sound ⟨Document.webTarget, "/tmp", ""⟩ := sound_of_check hcheck "/tmp" ""
  obtain ⟨r, after, hrun, hafter⟩ : ∃ r after,
      (Hosts.site unprivileged (fun _ => shelf) ⟨"", "west", "east"⟩ "/tmp").scrub
        Document.webTarget [] = (.ok r, after) ∧
      Hosts.after unprivileged (fun _ => shelf) after =
        Hosts.after unprivileged (fun _ => shelf) [] :=
    runOnBoth_overlooked hp (fun _ _ _ => rfl) "/tmp" []
  refine ⟨hcheck, r, after, hrun, fun n _ => ?_⟩
  rw [hafter]
  exact shelf_has

end Deploy
end TwinWall
