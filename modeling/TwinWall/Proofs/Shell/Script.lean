import TwinWall.Proofs.Text.Words

/-! The commands that a shell takes from a text: one line of words, with quotes removed, in a pipeline with
redirections, and behind it the here-documents of that line. A text that has anything else to be
interpreted has no reading here. -/
namespace TwinWall
namespace Shell

open Text

/-- A command with its words, the file its output goes to, and the document it reads. -/
structure Command where
  words : List String
  output : Option String := none
  input : Option String := none
deriving DecidableEq

/-- A word is told apart by whether any of it was quoted. -/
inductive Lexeme where
  | word (quoted : Bool) (text : String)
  | pipe
  | output
  | document
deriving DecidableEq

/-- A word that is not yet ended. -/
abbrev Draft := Option (Bool × List Char)

namespace Draft

def add (quoted : Bool) (c : Char) : Draft → Draft
  | none => some (quoted, [c])
  | some (q, s) => some (q || quoted, s ++ [c])

/-- Quotes make a word even if there is nothing between them. -/
def opened : Draft → Draft
  | none => some (true, [])
  | some (_, s) => some (true, s)

def lexemes : Draft → List Lexeme
  | none => []
  | some (q, s) => [.word q (String.ofList s)]

end Draft

/-- What the next character is behind: nothing special, an open quote, a backslash, or the first of two
marks of a document. -/
inductive Mode where
  | plain
  | quotes
  | escape
  | mark

/-- The lexemes up to the end of the line, and what comes behind it. -/
def line? : Mode → Draft → List Char → Option (List Lexeme × List Char)
  | .plain, w, [] => some (w.lexemes, [])
  | .quotes, _, [] => none
  | .escape, _, [] => none
  | .mark, _, [] => none
  | .quotes, w, c :: r => if c = '\x27' then line? .plain w r else line? .quotes (w.add true c) r
  | .escape, w, c :: r => if c = '\n' then line? .plain w r else line? .plain (w.add true c) r
  | .mark, _, c :: r =>
    if c = '<' ∧ r.head? ≠ some '-' then
      (line? .plain none r).map fun p => (.document :: p.1, p.2)
    else none
  | .plain, w, c :: r =>
    if c = '\n' then some (w.lexemes, r)
    else if c = ' ' then (line? .plain none r).map fun p => (w.lexemes ++ p.1, p.2)
    else if c = '\x27' then line? .quotes w.opened r
    else if c = '\\' then line? .escape w r
    else if c = '|' then (line? .plain none r).map fun p => (w.lexemes ++ .pipe :: p.1, p.2)
    else if c = '>' then
      if w = none then (line? .plain none r).map fun p => (.output :: p.1, p.2) else none
    else if c = '<' then if w = none then line? .mark none r else none
    else if isPlain c then line? .plain (w.add false c) r
    else none

/-- Words that a shell does not take for a command unless they are quoted. -/
def reservedWords : List String :=
  ["if", "then", "else", "elif", "fi", "do", "done", "case", "esac", "while", "until", "for", "in"]

/-- A command whose document is known by its delimiter only. -/
structure Simple where
  words : List String := []
  output : Option String := none
  delimiter : Option String := none
deriving DecidableEq

/-- The commands of a pipeline. The delimiter of a document has to be quoted, so that nothing in the
document is interpreted. -/
def simples? (c : Simple) : List Lexeme → Option (List Simple)
  | [] => if c.words = [] then none else some [c]
  | .word q w :: r =>
    if c.words = [] ∧ q = false ∧ w ∈ reservedWords then none
    else simples? { c with words := c.words ++ [w] } r
  | .pipe :: r => if c.words = [] then none else (simples? {} r).map (c :: ·)
  | .output :: .word _ p :: r =>
    if c.output = none then simples? { c with output := some p } r else none
  | .document :: .word true d :: r =>
    if c.delimiter = none then simples? { c with delimiter := some d } r else none
  | _ => none

/-- The lines up to the first that is the delimiter, and the lines behind that. -/
def document? (delimiter : List Char) (s : List Char) : Option (List Char × List Char) :=
  let lines := s.splitOn '\n'
  match lines.dropWhile (· ≠ delimiter) with
  | [] => none
  | _ :: r => some (unlines (lines.takeWhile (· ≠ delimiter)), List.intercalate ['\n'] r)

def commands? : List Simple → List Char → Option (List Command × List Char)
  | [], s => some ([], s)
  | c :: r, s =>
    match c.delimiter with
    | none => (commands? r s).map fun p => (⟨c.words, c.output, none⟩ :: p.1, p.2)
    | some d => do
      let (body, s) ← document? d.toList s
      let (cs, s) ← commands? r s
      some (⟨c.words, c.output, some (String.ofList body)⟩ :: cs, s)

/-- The pipeline of a text that is one line with its documents. -/
def pipeline? (s : String) : Option (List Command) := do
  let (ls, rest) ← line? .plain none s.toList
  let simples ← simples? {} ls
  let (cs, rest) ← commands? simples rest
  if rest = [] then some cs else none

end Shell
end TwinWall
