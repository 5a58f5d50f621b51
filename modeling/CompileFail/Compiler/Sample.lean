import CompileFail.Compiler

/-! Compilers for trials, which know no language. One looks for a few tell-tale words, the other
answers by given rules. -/

namespace CompileFail.Compiler

/-- What is wrong with a line, with kind and code; comments are always right. -/
def complaint? (line : Text) : Option (Text × Text × Text) :=
  let code := Text.trimStart line
  if ("//" : Text).isPrefixOf code then none
  else if Text.contains "\"str\"" code then
    some ("error", "C2440", "'initializing': cannot convert from 'const char [4]' to 'int'")
  else if ("#error" : Text).isPrefixOf code then some ("fatal error", "C1189", "#error:  stop")
  else if Text.contains "warn_me" code then
    some ("warning", "C4996", "'warn_me': was declared deprecated")
  else none

/-- The diagnostic for the first line that is wrong. -/
def firstComplaint? (file : Path) (content : Text) : Option Text :=
  (Text.lines content).zipIdx.findSome? fun (line, index) =>
    (complaint? line).map fun (kind, code, message) =>
      file.display ++ ['('] ++ Text.ofNat (index + 1) ++ (",5): " : Text) ++ kind ++ [' '] ++ code ++
        (": " : Text) ++ message

/-- Repeats the name of the file and gives the first complaint, if there is one. -/
def trial : Compiler := ofAnswers fun file content =>
  let name := file.shownName
  match firstComplaint? file content with
  | some line => .ok ⟨false, some 2, name ++ ['\n'] ++ line ++ ['\n']⟩
  | none => .ok ⟨true, some 0, name ++ ['\n']⟩

/-- An answer and the files that it is given for: those of a name, those with a certain text, or
all. -/
structure Rule where
  name : Option Text
  contains : Option Text
  answer : Except Text (Bool × Text)

def Rule.covers (rule : Rule) (file : Path) (content : Text) : Bool :=
  (match rule.name with
    | some name => name == file.shownName
    | none => true) &&
  (match rule.contains with
    | some part => Text.contains part content
    | none => true)

/-- An output in which `@NAME@` stands for the name of the file and `@PATH@` for its path. -/
def fillIn (file : Path) (output : Text) : Text :=
  Text.replace "@PATH@" file.display
    (Text.replace "@NAME@" file.shownName output true) true

/-- Answers by the first rule that covers a file; other files compile. -/
def ofRules (rules : List Rule) : Compiler := ofAnswers fun file content =>
  match rules.find? (·.covers file content) with
  | some ⟨_, _, .error text⟩ => .error (.io (.other text))
  | some ⟨_, _, .ok (success, output)⟩ =>
    .ok ⟨success, some (if success then 0 else 1), fillIn file output⟩
  | none => .ok ⟨true, some 0, file.shownName ++ ['\n']⟩

end CompileFail.Compiler
