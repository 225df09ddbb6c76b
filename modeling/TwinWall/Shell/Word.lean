/-! A text as one word of a shell command. Inside single quotes only a single quote is special, so it
is written outside of them. -/
namespace TwinWall
namespace Shell

def wordChar (c : Char) : List Char :=
  if c = '\x27' then ['\x27', '\\', '\x27', '\x27'] else [c]

def word (s : String) : String :=
  "'" ++ String.ofList (s.toList.flatMap wordChar) ++ "'"

@[simp] theorem toList_word (s : String) :
    (word s).toList = '\x27' :: (s.toList.flatMap wordChar ++ ['\x27']) := by
  simp [word]

end Shell
end TwinWall
