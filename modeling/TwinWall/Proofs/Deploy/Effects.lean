import Mathlib.Data.List.Basic
import TwinWall.Proofs.Deploy.Staged

/-! What the commands of a plan do to a node. The state of a node at each step of a build is known from the
state before it. -/
namespace TwinWall
namespace Deploy

open Policy Shell

namespace Plan

def key (p : Plan) : String × String := (p.target.namespaceName, p.target.table)

/-- A node when a build comes to a step on it. -/
def stateAt (p : Plan) (s : NodeState) : Step → NodeState
  | .writing => s
  | .checking => s.putFile p.path p.document
  | .lookingUp => s.putFile p.path p.document
  | .flushing => s.putFile p.path p.document
  | .applying => (s.putFile p.path p.document).dropTable p.key
  | .cleaning => (s.putFile p.path p.document).putTable p.key p.document
  | .listing => s

/-- A node after a build. -/
def installed (p : Plan) (s : NodeState) : NodeState :=
  (s.putTable p.key p.document).dropFile p.path

/-- A node as a build leaves it that ends or stops so. -/
def left (p : Plan) (s : NodeState) : Option Stop → NodeState
  | none => p.installed s
  | some x => p.stateAt s x.step

/-- A build comes to a node's flushing only if there is a table to flush. -/
structure At (p : Plan) (s : NodeState) (step : Step) (now : NodeState) : Prop where
  eq : now = p.stateAt s step
  loaded : step = .flushing → (s.tables p.key).isSome = true
  ne_listing : step ≠ .listing

/-- What a node has come to when the step that follows is known. -/
def Reaches (p : Plan) (s now : NodeState) : Option Step → Prop
  | some follower => At p s follower now
  | none => now = p.installed s

variable {p : Plan} {s now : NodeState} {step : Step}

theorem lists_tableLine (p : Plan) (s : NodeState) :
    s.lists p.target.namespaceName p.tableLine = (s.tables p.key).isSome := by
  have hstrip : "table inet ".toList.isPrefixOf? p.tableLine.toList = some p.target.table.toList :=
    List.isPrefixOf?_eq_some_iff_append_eq.2 (by simp [tableLine])
  simp only [NodeState.lists, hstrip, String.ofList_toList, key]

theorem perform_writing (p : Plan) (s : NodeState) :
    s.perform (p.pipeline .writing) = (s.putFile p.path p.document, accepted) := rfl

theorem perform_cleaning (p : Plan) (s : NodeState) :
    s.perform (p.pipeline .cleaning) = (s.dropFile p.path, accepted) := rfl

theorem perform_lookingUp (p : Plan) (s : NodeState) :
    s.perform (p.pipeline .lookingUp) =
      (s, ⟨if (s.tables p.key).isSome then 0 else 1, "", ""⟩) := by
  rw [← lists_tableLine]
  rfl

theorem perform_checking {text : String} (h : s.files p.path = some text) :
    s.perform (p.pipeline .checking) = (s, accepted) := by
  change (s, if (s.files p.path).isSome then accepted else missing) = _
  rw [h]
  rfl

theorem perform_flushing {text : String} (h : s.tables p.key = some text) :
    s.perform (p.pipeline .flushing) = (s.dropTable p.key, accepted) := by
  change s.deleteTable p.key = _
  rw [NodeState.deleteTable, h]

theorem perform_applying {text : String} (h : s.files p.path = some text) :
    s.perform (p.pipeline .applying) = (s.load p.target.namespaceName text, accepted) := by
  change s.loadFile p.target.namespaceName p.path = _
  rw [NodeState.loadFile, h]

theorem files_putFile (s : NodeState) (path text : String) :
    (s.putFile path text).files path = some text :=
  Function.update_self ..

theorem dropTable_of_none {k : String × String} (h : s.tables k = none) : s.dropTable k = s := by
  obtain ⟨files, tables⟩ := s
  simp only [NodeState.dropTable, NodeState.mk.injEq, true_and]
  exact Function.update_eq_self_iff.2 h.symm

theorem load_dropTable (hp : p.Fit) (s : NodeState) :
    (s.dropTable p.key).load p.target.namespaceName p.document = s.putTable p.key p.document := by
  have hnone : (s.dropTable p.key).tables p.key = none := Function.update_self ..
  rw [NodeState.load, hp.named]
  change (s.dropTable p.key).putTable p.key (((s.dropTable p.key).tables p.key).getD "" ++ _) = _
  rw [hnone]
  simp [NodeState.putTable, NodeState.dropTable]

/-- From the state of a step its command succeeds, and leads to the state of the step that follows or to
the one after the build. -/
theorem At.perform (hp : p.Fit) (h : At p s step now) (loaded : Bool) :
    succeeds step (now.perform (p.pipeline step)).2.exit = true ∧
      p.Reaches s (now.perform (p.pipeline step)).1
        (Operation.build.next? step
          (loadedAfter loaded step (now.perform (p.pipeline step)).2.exit)) := by
  obtain ⟨rfl, hloaded, hlisting⟩ := h
  have hfile := files_putFile s p.path p.document
  cases step with
  | writing => exact ⟨rfl, rfl, nofun, nofun⟩
  | checking =>
    have hfile : (p.stateAt s .checking).files p.path = some p.document := hfile
    rw [perform_checking hfile]
    exact ⟨rfl, rfl, nofun, nofun⟩
  | lookingUp =>
    have htables : (p.stateAt s .lookingUp).tables = s.tables := rfl
    rw [perform_lookingUp, htables]
    cases htable : (s.tables p.key).isSome with
    | true => exact ⟨rfl, rfl, fun _ => htable, nofun⟩
    | false =>
      have hnone : s.tables p.key = none := by simpa using htable
      have hdrop : (s.putFile p.path p.document).dropTable p.key = s.putFile p.path p.document :=
        dropTable_of_none hnone
      exact ⟨rfl, hdrop.symm, nofun, nofun⟩
  | flushing =>
    obtain ⟨text, htable⟩ := Option.isSome_iff_exists.1 (hloaded rfl)
    have htable : (p.stateAt s .flushing).tables p.key = some text := htable
    rw [perform_flushing htable]
    exact ⟨rfl, rfl, nofun, nofun⟩
  | applying =>
    have hfile : (p.stateAt s .applying).files p.path = some p.document := hfile
    rw [perform_applying hfile]
    exact ⟨rfl, load_dropTable hp (s.putFile p.path p.document), nofun, nofun⟩
  | cleaning =>
    have hdrop : ((s.putFile p.path p.document).putTable p.key p.document).dropFile p.path =
        p.installed s := by
      simp [installed, NodeState.putFile, NodeState.putTable, NodeState.dropFile]
    exact ⟨rfl, hdrop⟩
  | listing => exact absurd rfl hlisting

theorem respond_command (hp : p.Fit) (s : NodeState) (step : Step) :
    s.respond (p.command step) = s.perform (p.pipeline step) := by
  rw [NodeState.respond, pipeline?_command hp.namespaceName hp.table hp.stageable]

theorem isLookup_command (hp : p.Fit) (step : Step) :
    isLookup (p.command step) = decide (step = .lookingUp) := by
  rw [isLookup, pipeline?_command hp.namespaceName hp.table hp.stageable]
  cases step <;> rfl

end Plan

/-- What a plan has no business with is as it was. -/
structure Kept (p : Plan) (before after : NodeState) : Prop where
  tables : ∀ key, key ≠ p.key → after.tables key = before.tables key
  files : ∀ path, path ≠ p.path → after.files path = before.files path

/-- A node before and after a plan has been carried out on it. -/
structure Installed (p : Plan) (before after : NodeState) : Prop where
  table : after.tables p.key = some p.document
  unstaged : after.files p.path = none
  kept : Kept p before after

namespace Kept

variable {p q : Plan} {s t u : NodeState}

theorem refl (p : Plan) (s : NodeState) : Kept p s s := ⟨fun _ _ => rfl, fun _ _ => rfl⟩

theorem trans (hst : Kept p s t) (htu : Kept p t u) : Kept p s u :=
  ⟨fun key hne => (htu.tables key hne).trans (hst.tables key hne),
    fun path hne => (htu.files path hne).trans (hst.files path hne)⟩

/-- A document makes no difference to what is kept. -/
theorem congr (hkey : p.key = q.key) (hpath : p.path = q.path) (h : Kept p s t) : Kept q s t :=
  ⟨fun key hne => h.tables key (by rwa [hkey]), fun path hne => h.files path (by rwa [hpath])⟩

theorem putFile (h : Kept p s t) (text : String) : Kept p s (t.putFile p.path text) :=
  h.trans ⟨fun _ _ => rfl, fun _ hne => Function.update_of_ne hne ..⟩

theorem dropFile (h : Kept p s t) : Kept p s (t.dropFile p.path) :=
  h.trans ⟨fun _ _ => rfl, fun _ hne => Function.update_of_ne hne ..⟩

theorem putTable (h : Kept p s t) (text : String) : Kept p s (t.putTable p.key text) :=
  h.trans ⟨fun _ hne => Function.update_of_ne hne .., fun _ _ => rfl⟩

theorem dropTable (h : Kept p s t) : Kept p s (t.dropTable p.key) :=
  h.trans ⟨fun _ hne => Function.update_of_ne hne .., fun _ _ => rfl⟩

theorem stateAt (p : Plan) (s : NodeState) (step : Step) : Kept p s (p.stateAt s step) := by
  cases step with
  | writing => exact refl p s
  | checking => exact (refl p s).putFile _
  | lookingUp => exact (refl p s).putFile _
  | flushing => exact (refl p s).putFile _
  | applying => exact ((refl p s).putFile _).dropTable
  | cleaning => exact ((refl p s).putFile _).putTable _
  | listing => exact refl p s

theorem left (p : Plan) (s : NodeState) (stop : Option Stop) : Kept p s (p.left s stop) := by
  cases stop with
  | none => exact ((refl p s).putTable _).dropFile
  | some x => exact stateAt p s x.step

end Kept

namespace Installed

variable {p q : Plan} {s t u : NodeState}

theorem installed (p : Plan) (s : NodeState) : Installed p s (p.installed s) :=
  ⟨Function.update_self .., Function.update_self .., Kept.left p s none⟩

/-- What was done before at the same place leaves no trace. -/
theorem of_kept (htu : Installed p t u) (hst : Kept p s t) : Installed p s u :=
  ⟨htu.table, htu.unstaged, hst.trans htu.kept⟩

/-- Another time changes nothing more. -/
theorem again (hst : Installed p s t) (htu : Installed p t u) : u = t := by
  have htables : u.tables = t.tables := by
    funext key
    by_cases hkey : key = p.key
    · rw [hkey, htu.table, hst.table]
    · exact htu.kept.tables key hkey
  have hfiles : u.files = t.files := by
    funext path
    by_cases hpath : path = p.path
    · rw [hpath, htu.unstaged, hst.unstaged]
    · exact htu.kept.files path hpath
  obtain ⟨files, tables⟩ := t
  obtain ⟨files', tables'⟩ := u
  cases htables
  cases hfiles
  rfl

end Installed
end Deploy
end TwinWall
