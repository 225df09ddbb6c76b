import TwinWall.Proofs.Deploy.Staged

/-! What a node is told. The command that stages a document is one copy of exactly that document into one
file, and every other command is the words that are meant, from whatever directory. -/
namespace TwinWall
namespace Deploy

open Policy Shell Text

namespace Plan

variable {p : Plan}

/-- A document that loses or gains nothing on its way has lines, and none of them is the delimiter. -/
theorem stageable_of_pipeline (h : pipeline? (p.command .writing) = some (p.pipeline .writing)) :
    Stageable p.document := by
  rw [pipeline?_writing_eq] at h
  obtain ⟨x, hx, h⟩ := Option.bind_eq_some_iff.1 h
  obtain ⟨hbody, hlines⟩ := unlines_of_document? hx
  have hdocument : p.document.toList = x.1 := by
    split at h
    · have hinput : String.ofList x.1 = p.document := by simpa [pipeline] using h
      rw [← hinput, String.toList_ofList]
    · cases h
  refine ⟨_, fun hnil => ?_, hdocument.trans hbody, hlines⟩
  -- Without a line the document would be empty, and the line feed added to it would be a line.
  have hempty : p.document = "" := by
    rw [hnil, unlines_nil] at hbody
    exact String.toList_inj.1 (hdocument.trans hbody)
  have hended : (ended p.document).toList = ['\n'] := by
    rw [hempty]
    rfl
  rw [hended] at hnil
  have hsplit := List.splitOn_append_cons_of_beq [] (delimiter.toList ++ ['\n']) (beq_self_eq_true '\n')
  rw [List.nil_append, List.splitOn_nil] at hsplit
  rw [List.cons_append, List.nil_append, hsplit] at hnil
  simp [delimiter] at hnil

/-- Exactly the documents of lines other than the delimiter are staged as they are. -/
theorem pipeline?_writing_iff :
    pipeline? (p.command .writing) = some (p.pipeline .writing) ↔ Stageable p.document :=
  ⟨stageable_of_pipeline, pipeline?_writing⟩

/-- The command that stages a document copies it to the staged file and to no other, up to a last line that
is the only one to equal the delimiter. -/
structure HandedOver (p : Plan) : Prop where
  copied : pipeline? (p.command .writing) =
    some [{ words := ["cat"], output := some p.path, input := some p.document }]
  text : p.command .writing =
    "cat > " ++ Shell.word p.path ++ " <<'" ++ delimiter ++ "'\n" ++ p.document ++ delimiter ++ "\n"
  delimited : ∃ ls, p.document.toList = unlines ls ∧ ∀ l ∈ ls, '\n' ∉ l ∧ l ≠ delimiter.toList

theorem handedOver_iff : HandedOver p ↔ Stageable p.document := by
  constructor
  · exact fun h => pipeline?_writing_iff.1 h.copied
  · intro h
    obtain ⟨ls, -, htext, hls⟩ := id h
    exact
      { copied := pipeline?_writing_iff.2 h
        text := by rw [command, ended_of_stageable h]
        delimited := ⟨ls, htext, hls⟩ }

end Plan

/-- Every document that was built is staged whole, from whatever directory. -/
theorem handedOver_of_build {spec : Spec} {t : Target} {d : Document}
    (h : Document.build spec t = .ok d) (directory : String) :
    Plan.HandedOver ⟨t, directory, d.text⟩ :=
  Plan.handedOver_iff.2 (fit_of_build h directory).stageable

/-- A directory whose name has to be quoted, with a quote and a line feed in it. -/
def oddDirectory : String := "/var/it's $HOME; rm -r\n<<x"

theorem handedOver_of_build_web : ∃ d, Document.build Document.webSpec Document.webTarget = .ok d ∧
    pipeline? (Plan.command ⟨Document.webTarget, oddDirectory, d.text⟩ .writing) =
      some [{ words := ["cat"], output := some (oddDirectory ++ "/podfw_shop_edge.nft"),
              input := some d.text }] := by
  obtain ⟨d, hd⟩ := Document.exists_webDocument
  have hpath : Plan.path ⟨Document.webTarget, oddDirectory, d.text⟩ =
      oddDirectory ++ "/podfw_shop_edge.nft" := by
    show Plan.below oddDirectory (Plan.fileName Document.webTarget) = _
    decide +kernel
  have hcopied := (handedOver_of_build hd oddDirectory).copied
  rw [hpath] at hcopied
  exact ⟨d, hd, hcopied⟩

/-- A target whose names passed their check has its commands taken for the words that are meant and for
nothing else. The path is one word, the same wherever it stands. -/
theorem words_of_check {t : Target} (h : t.check = .ok ()) (directory document : String) :
    let p : Plan := ⟨t, directory, document⟩
    let nft := ["ip", "netns", "exec", t.namespaceName, "nft"]
    pipeline? (p.command .checking) = some [{ words := nft ++ ["--check", "--file", p.path] }] ∧
    pipeline? (p.command .lookingUp) = some [{ words := nft ++ ["list", "tables"] },
      { words := ["grep", "-qxF", "table inet " ++ t.table] }] ∧
    pipeline? (p.command .flushing) = some [{ words := nft ++ ["delete", "table", "inet", t.table] }] ∧
    pipeline? (p.command .applying) = some [{ words := nft ++ ["--file", p.path] }] ∧
    pipeline? (p.command .cleaning) = some [{ words := ["rm", "--force", p.path] }] ∧
    pipeline? (p.command .listing) = some [{ words := nft ++ ["list", "table", "inet", t.table] }] := by
  intro p nft
  obtain ⟨hn, ht⟩ := Document.isName_of_targetCheck h
  have hstep : ∀ step, step ≠ .writing → pipeline? (p.command step) = some (p.pipeline step) :=
    fun step hne => Plan.pipeline?_of_ne_writing hn ht hne
  exact ⟨hstep .checking nofun, hstep .lookingUp nofun, hstep .flushing nofun,
    hstep .applying nofun, hstep .cleaning nofun, hstep .listing nofun⟩

theorem words_of_check_odd : Document.webTarget.check = .ok () ∧
    pipeline? (Plan.command ⟨Document.webTarget, oddDirectory, ""⟩ .cleaning) =
      some [{ words := ["rm", "--force", oddDirectory ++ "/podfw_shop_edge.nft"] }] := by
  have hcheck : Document.webTarget.check = .ok () := by rfl
  have hpath : Plan.path ⟨Document.webTarget, oddDirectory, ""⟩ =
      oddDirectory ++ "/podfw_shop_edge.nft" := by
    decide +kernel
  obtain ⟨-, -, -, -, hcleaning, -⟩ := words_of_check hcheck oddDirectory ""
  rw [hpath] at hcleaning
  exact ⟨hcheck, hcleaning⟩

end Deploy
end TwinWall
