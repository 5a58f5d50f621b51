import CompileFail.Script.Start
import CompileFail.Utility.Awk.Run
import CompileFail.Utility.Characters
import CompileFail.Utility.Difference
import CompileFail.Utility.Finding
import CompileFail.Utility.Grep
import CompileFail.Utility.Sed.Run
import CompileFail.Utility.Sorting
import CompileFail.Utility.Starting
import CompileFail.Utility.Telling

/-! The programs that every host has: shells, and small programs that work on text and files. -/

namespace CompileFail.Utility

/-- The small programs that start no others, by their names. -/
def plain : List (String × Task Nat) :=
  [("[", bracket), ("arch", fact "x86_64"), ("base64", base64), ("basename", basename),
    ("cat", cat), ("chmod", chmod), ("cmp", cmp), ("comm", comm), ("cp", cp), ("cut", cut),
    ("date", date), ("dd", dd), ("diff", diff), ("dirname", dirname), ("echo", echo),
    ("egrep", Grep.run .extended), ("expand", expand), ("expr", expr), ("false", return 1),
    ("fgrep", Grep.run .fixed), ("fold", fold), ("grep", Grep.run .basic), ("groups", fact "root"),
    ("head", head), ("hostname", hostname), ("id", user), ("ln", ln), ("ls", ls), ("mkdir", mkdir),
    ("mktemp", mktemp), ("mv", mv), ("nl", nl), ("nproc", fact "1"), ("od", od), ("paste", paste),
    ("printenv", printenv), ("printf", printf), ("pwd", pwd), ("readlink", readlink),
    ("realpath", realpath), ("rev", rev), ("rm", rm), ("rmdir", rmdir), ("sed", Sed.sed),
    ("seq", seq), ("sleep", sleep), ("sort", sort), ("stat", stat), ("sync", return 0),
    ("tac", tac), ("tail", tail), ("tee", tee), ("test", test), ("touch", touch), ("tr", tr),
    ("true", return 0), ("truncate", truncate), ("tty", tty), ("uname", uname), ("uniq", uniq),
    ("wc", wc), ("which", which), ("whoami", fact "root"), ("yes", yes)]

/-- The programs that start others. -/
def starting : List (String × (Launcher → Task Nat)) :=
  [("env", env), ("find", Finding.find), ("mawk", Awk.awk), ("nice", nice),
    ("nohup", fun launch => startPlainly launch ""),
    ("setsid", fun launch => startPlainly launch "cfw"),
    ("stdbuf", fun launch => startPlainly launch "i:o:e:"), ("timeout", timeout),
    ("xargs", xargs)]

def shells : List (String × Script.Dialect) := [("bash", .bash), ("dash", .dash)]

/-- The names of the programs. -/
def names : List String := plain.map (·.1) ++ starting.map (·.1) ++ shells.map (·.1)

/-- Runs a program of a name; answers with the wait status. -/
def run (launch : Launcher) (name : Text) (p : Process) (m : Machine) : Nat × Machine :=
  let finish (task : Task Nat) : Nat × Machine :=
    let (code, m) := task.run p m
    (exitStatus code, m)
  let name := String.ofList name
  match shells.lookup name, plain.lookup name, starting.lookup name with
  | some dialect, _, _ => Script.Start.run dialect launch p m
  | _, some task, _ => finish task
  | _, _, some task => finish (task launch)
  | _, _, _ => (exitStatus 127, m)

end CompileFail.Utility
