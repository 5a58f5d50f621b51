import CompileFail.Log

/-! What the program says about itself. On a terminal, headings are bold and underlined and what is
typed literally is bold. -/

namespace CompileFail.Cli

/-- A piece of a line of the help. -/
inductive HelpPiece where
  | plain (text : String)
  | heading (text : String)
  | literal (text : String)
deriving DecidableEq, Repr

def HelpPiece.render (inColour : Bool) : HelpPiece → Text
  | .plain text => text
  | .heading text =>
    if inColour then Log.escapeSequence ['1'] ++ Log.styled ['4'] text else text
  | .literal text => if inColour then Log.styled ['1'] text else text

abbrev HelpLine := List HelpPiece

/-- Lines with an end each. -/
def HelpLine.renderAll (inColour : Bool) (lines : List HelpLine) : Text :=
  lines.flatMap fun line => line.flatMap (HelpPiece.render inColour) ++ ['\n']

def versionText : Text := "checkce 0.1.0\n"

/-- A line without styles. -/
def line (text : String) : HelpLine := [.plain text]

def headline (text : String) : HelpLine := [.heading text]

/-- A line about an option with its short and its long form and what follows them. -/
def optionLine (short : Option String) (long rest : String) : HelpLine :=
  match short with
  | some short => [.plain "  ", .literal short, .plain ", ", .literal long, .plain rest]
  | none => [.plain "      ", .literal long, .plain rest]

private def head : List HelpLine :=
  [line "Checks '[CompilationError-*]' tags in .cpp files",
   [],
   [.heading "Usage:", .plain " ", .literal "checkce",
    .plain " [OPTIONS] [PATH] [CONFIGURATION] [WORKERS]"],
   [],
   headline "Arguments:"]

/-- The help that fits on a page. -/
def shortHelp : List HelpLine :=
  head ++ 
    [line "  [PATH]           A directory or a single .cpp file to process [default: .]",
     line "  [CONFIGURATION]  A solution configuration, must be present in the .sln file [default: Debug]",
     line "  [WORKERS]        Number of worker threads to use for the check, between 1-20 [default: 10]",
     [],
     headline "Options:",
     optionLine none "--config"
       " <CONFIG>  TOML file with toolchain locations and check settings",
     optionLine (some "-f") "--format"
       " <FORMAT>  Summary format [default: text] [possible values: text, json]",
     optionLine (some "-h") "--help"
       "             Print help (see more with '--help')",
     optionLine (some "-V") "--version"
       "          Print version"]

/-- The help in full. -/
def longHelp : List HelpLine :=
  head ++ 
    [line "  [PATH]",
     line "          A directory or a single .cpp file to process",
     line "          ",
     line "          [default: .]",
     [],
     line "  [CONFIGURATION]",
     line "          A solution configuration, must be present in the .sln file",
     line "          ",
     line "          [default: Debug]",
     [],
     line "  [WORKERS]",
     line "          Number of worker threads to use for the check, between 1-20",
     line "          ",
     line "          [default: 10]",
     [],
     headline "Options:",
     optionLine none "--config" " <CONFIG>",
     line "          TOML file with toolchain locations and check settings",
     [],
     optionLine (some "-f") "--format"
       " <FORMAT>",
     line "          Summary format",
     line "          ",
     line "          [default: text]",
     line "          [possible values: text, json]",
     [],
     optionLine (some "-h") "--help" "",
     line "          Print help (see a summary with '-h')",
     [],
     optionLine (some "-V") "--version" "",
     line "          Print version",
     [],
     line "The .sln file is searched in path, path\\.., path\\..\\.., etc. The search stops at the",
     line "first match. It is an error if that directory contains more than one .sln file.",
     [],
     line "A C++ project directory is a directory with a .vcxproj file. It is an error if it contains",
     line "more than one .vcxproj file. It must be the solution directory or a child of it.",
     line "'path' must be in a project directory (descendant-or-self).",
     [],
     line "Exit codes:",
     line "    0: The check passed for all (0 or more) .cpp files.",
     line "    1: The check failed at least once.",
     line "    2: Technical error (e.g. directory/file does not exist)."]

end CompileFail.Cli
