import CompileFail.Script.Syntax

/-! The tokens of scripts, and what is said about a script that breaks the grammar. -/

namespace CompileFail.Script

inductive Token where
  | endOfFile
  | newline
  | semicolon
  | ampersand
  | andIf
  | orIf
  | bar
  /-- A bar that takes the errors of a command along. -/
  | barBoth
  | opening
  | closing
  | caseEnd (kind : CaseEnd)
  | redirection (fd : Option Nat) (operator : Text)
  | word (word : Word)
  /-- A word that has a meaning of its own where it stands. -/
  | keyword (word : Text)

instance : Inhabited Token := ⟨.endOfFile⟩

namespace Token

/-- Words that have a meaning of their own where a command may start. -/
def keywords : Dialect → List Text
  | .dash =>
    ["!", "case", "do", "done", "elif", "else", "esac", "fi", "for", "if", "in", "then", "until",
     "while", "\x7b", "\x7d"]
  | .bash =>
    ["!", "case", "do", "done", "elif", "else", "esac", "fi", "for", "if", "in", "then", "until",
     "while", "\x7b", "\x7d", "function", "[["]

/-- Whether a list of commands ends before the token. -/
def endsList : Token → Bool
  | endOfFile | closing | caseEnd _ => true
  | keyword s =>
    (["do", "done", "elif", "else", "esac", "fi", "then", "\x7d"] : List Text).contains s
  | _ => false

/-- The token as scripts spell it. -/
def spelling : Token → Text
  | endOfFile => "end of file"
  | newline => "newline"
  | semicolon => ";"
  | ampersand => "&"
  | andIf => "&&"
  | orIf => "||"
  | bar => "|"
  | barBoth => "|&"
  | opening => "("
  | closing => ")"
  | caseEnd .stop => ";;"
  | caseEnd .fallThrough => ";&"
  | caseEnd .lookOn => ";;&"
  | redirection _ operator => operator
  | word w => (Word.text? w).getD "word"
  | keyword s => s

/-- The token as it is named in messages. -/
def name (token : Token) : Text :=
  match token with
  | endOfFile | newline => token.spelling
  | redirection .. => "redirection"
  | word _ => "word"
  | _ => '"' :: token.spelling ++ ['"']

end Token

/-- Why a script cannot be read. -/
inductive Offence where
  | unexpected (token : Token) (expected : Option Token)
  | unterminated (quote : Char)
  | other (message : Text)

structure SyntaxError where
  line : Nat
  offence : Offence

namespace Offence

/-- The longest message about an unexpected token. -/
def messageLimit : Nat := 63

/-- The wording of the plain shell. -/
def message : Offence → Text
  | unexpected token expected =>
    let wanted : Text := match expected with
      | some expected => (" (expecting " : Text) ++ expected.name ++ [')']
      | none => []
    (token.name ++ (" unexpected" : Text) ++ wanted).take messageLimit
  | unterminated '\x7d' => "Missing '\x7d'"
  | unterminated ')' => "Missing '))'"
  | unterminated '`' => "EOF in backquote substitution"
  | unterminated _ => "Unterminated quoted string"
  | other message => message

end Offence

end CompileFail.Script
