import CompileFail.Proofs.CarriageReturns
import CompileFail.Proofs.PathTitles
import CompileFail.Proofs.SetUp

/-! The environment that is captured from a listing of variables. A listing has a line for each definition and
may have other lines among them; however its lines end, the definitions are read back from it one for one. Laid
over an environment they give each variable the value that is listed last for it, and leave the others alone. -/

namespace CompileFail

namespace Text

/-- How a line ends in front of the rest of a text: with a line feed, with a carriage return and a line feed, or,
at the very end, with neither. -/
inductive LineEnd : Text → Text → Prop
  | feed (rest : Text) : LineEnd ['\n'] rest
  | returnFeed (rest : Text) : LineEnd ['\r', '\n'] rest
  | missing : LineEnd [] []

variable {line terminator rest : Text}

/-- What ends a line leads to the start of another one, or to the end of the text. -/
theorem LineEnd.endsLine_or_eq_nil (h : LineEnd terminator rest) (line : Text) :
    EndsLine (line ++ terminator) ∨ rest = [] := by
  cases h with
  | feed => exact Or.inl (endsLine_feed line)
  | returnFeed =>
      rw [List.append_cons]
      exact Or.inl (endsLine_feed _)
  | missing => exact Or.inr rfl

theorem LineEnd.not_mem_dropLast (h : LineEnd terminator rest) (hline : '\n' ∉ line) :
    '\n' ∉ (line ++ terminator).dropLast := by
  cases h with
  | feed => rwa [List.dropLast_concat]
  | returnFeed =>
      rw [List.append_cons, List.dropLast_concat]
      simpa using hline
  | missing =>
      rw [List.append_nil]
      exact fun hmem => hline (List.dropLast_subset line hmem)

theorem LineEnd.splitTerminator_append (h : LineEnd terminator rest) (hreturn : '\r' ∉ line) (hline : '\n' ∉ line) :
    splitTerminator (line ++ terminator) = (line, terminator) := by
  cases h with
  | feed => exact splitTerminator_feed hreturn
  | returnFeed => exact splitTerminator_return line
  | missing => rw [List.append_nil, splitTerminator_of_not_mem hline]

end Text

namespace Environment

/-- A variable with a name and a value that can be listed on a line. -/
structure Listable (entry : Text × Text) : Prop where
  named : entry.1 ≠ []
  no_equals : '=' ∉ entry.1
  key_line : '\r' ∉ entry.1 ∧ '\n' ∉ entry.1
  value_line : '\r' ∉ entry.2 ∧ '\n' ∉ entry.2

/-- A listing of definitions, each on a line of its own and all of them in order. The other lines among them hold
no equals sign or start with one. -/
inductive Lists : List (Text × Text) → Text → Prop
  | nil : Lists [] []
  | definition {key value terminator rest : Text} {entries : List (Text × Text)}
      (hend : Text.LineEnd terminator rest) (h : Lists entries rest) :
      Lists ((key, value) :: entries) (key ++ '=' :: value ++ terminator ++ rest)
  | other {line terminator rest : Text} {entries : List (Text × Text)} (hline : '\n' ∉ line)
      (hother : '=' ∉ line ∨ line.head? = some '=') (hend : Text.LineEnd terminator rest)
      (h : Lists entries rest) : Lists entries (line ++ terminator ++ rest)

variable {key value line listing terminator rest : Text} {entries : List (Text × Text)}

/-! ### Reading a listing -/

theorem definitions_append_line (h : Text.LineEnd terminator rest) (line : Text) :
    definitions (line ++ terminator ++ rest) = definitions (line ++ terminator) ++ definitions rest := by
  rcases h.endsLine_or_eq_nil line with hends | rfl
  · rw [definitions, Text.lines_append hends, List.filterMap_append, List.filter_append, definitions, definitions]
  · rw [List.append_nil]
    exact (List.append_nil _).symm

theorem definitions_line (hentry : Listable (key, value)) (hend : Text.LineEnd terminator rest) :
    definitions (key ++ '=' :: value ++ terminator) = [(key, value)] := by
  have hreturn : '\r' ∉ key ++ '=' :: value := by simp [hentry.key_line.1, hentry.value_line.1]
  have hfeed : '\n' ∉ key ++ '=' :: value := by simp [hentry.key_line.2, hentry.value_line.2]
  have hsingle : Text.IsLine (key ++ '=' :: value ++ terminator) := ⟨by simp, hend.not_mem_dropLast hfeed⟩
  have hcut : Text.splitOnce? '=' (key ++ '=' :: value) = some (key, value) :=
    Text.splitOnce?_eq_some_iff.mpr ⟨rfl, hentry.no_equals⟩
  rw [definitions, Text.lines_of_isLine hsingle, hend.splitTerminator_append hreturn hfeed,
    List.filterMap_cons_some hcut, List.filterMap_nil]
  have hnamed : key ≠ [] := hentry.named
  simp [hnamed]

theorem definitions_eq_nil (h : ∀ line ∈ Text.lines listing, '=' ∉ line ∨ line.head? = some '=') :
    definitions listing = [] := by
  rw [definitions, List.filter_eq_nil_iff]
  rintro ⟨key, value⟩ hentry
  obtain ⟨line, hline, hcut⟩ := List.mem_filterMap.mp hentry
  obtain ⟨rfl, hkey⟩ := Text.splitOnce?_eq_some_iff.mp hcut
  rcases h _ hline with hno | hhead
  · simp at hno
  · cases key with
    | nil => simp
    | cons c key =>
        obtain rfl : c = '=' := by simpa using hhead
        simp at hkey

/-- What is shown of a line without definition does not have one either. -/
theorem definitions_other (hline : '\n' ∉ line) (hother : '=' ∉ line ∨ line.head? = some '=')
    (hend : Text.LineEnd terminator rest) : definitions (line ++ terminator) = [] := by
  have hterminator : '=' ∉ terminator := by cases hend <;> decide
  refine definitions_eq_nil fun shown hshown => ?_
  have hstart := Text.prefix_of_mem_lines (hend.not_mem_dropLast hline) hshown
  rcases hother with hno | hhead
  · refine Or.inl fun hmem => ?_
    rcases List.mem_append.mp (hstart.subset hmem) with hmem | hmem
    · exact hno hmem
    · exact hterminator hmem
  · cases shown with
    | nil => exact Or.inl List.not_mem_nil
    | cons c shown =>
        obtain ⟨tail, rfl⟩ := List.head?_eq_some_iff.mp hhead
        exact Or.inr (congrArg some (List.cons_prefix_cons.mp hstart).1)

/-- The induction goes along the lines of the listing. -/
theorem Lists.definitions_eq (h : Lists entries listing) (hentries : ∀ entry ∈ entries, Listable entry) :
    definitions listing = entries := by
  induction h with
  | nil => rfl
  | definition hend _ ih =>
      rw [List.forall_mem_cons] at hentries
      rw [definitions_append_line hend, definitions_line hentries.1 hend, ih hentries.2, List.singleton_append]
  | other hline hother hend _ ih =>
      rw [definitions_append_line hend, definitions_other hline hother hend, ih hentries, List.nil_append]

/-! ### Definitions over an environment -/

theorem get?_set (env : Environment) (key value name : Text) :
    (env.set key value).get? name = if name = key then some value else env.get? name := by
  simp only [get?, set, Std.ExtTreeMap.getElem?_insert, Std.compare_eq_iff_eq, @eq_comm _ name]

/-- Looked up from the back, the definitions come before the environment. -/
theorem get?_overlay (env : Environment) (entries : List (Text × Text)) (name : Text) :
    (env.overlay entries).get? name = (entries.reverse.lookup name).or (env.get? name) := by
  induction entries generalizing env with
  | nil => rfl
  | cons entry entries ih =>
      obtain ⟨key, value⟩ := entry
      have hset : (env.set key value).get? name = (List.lookup name [(key, value)]).or (env.get? name) := by
        rw [get?_set, List.lookup_cons, List.lookup_nil]
        by_cases hname : name = key
        · simp [hname]
        · simp [hname, beq_false_of_ne hname]
      calc (env.overlay ((key, value) :: entries)).get? name
          = ((env.set key value).overlay entries).get? name := rfl
        _ = (entries.reverse.lookup name).or ((env.set key value).get? name) := ih _
        _ = (((key, value) :: entries).reverse.lookup name).or (env.get? name) := by
          rw [hset, List.reverse_cons, List.lookup_append, Option.or_assoc]

end Environment

namespace Toolchain

/-- What a listing defines is read back from it in full and in order. When it is what the set-up script prints,
the capture comes to an environment in which each variable has the value listed last for it, or the present one
if none is listed, as it has in the present environment overlaid with the definitions. -/
theorem captured_as_listed {entries : List (Text × Text)} {listing : Text}
    (hentries : ∀ entry ∈ entries, Environment.Listable entry) (hlists : Environment.Lists entries listing) :
    Environment.definitions listing = entries ∧
    (∀ (present : Environment) (name : Text),
      (present.overlay (Environment.definitions listing)).get? name =
        (entries.reverse.lookup name).or (present.get? name)) ∧
    ∀ (runner : Program.Runner) (present : Environment) (script : Path) (tree after : FileTree)
      (output : Program.Output), tree.isFile script = true →
      runner (captureCommand script) tree = (.ok output, after) → output.stdout = listing →
      ∃ env, (captureEnvironment runner present script).Does tree (.ok env) after [] ∧
        ∀ name, env.get? name = (entries.reverse.lookup name).or (present.get? name) := by
  have hread := hlists.definitions_eq hentries
  have hoverlay (present : Environment) (name : Text) :
      (present.overlay (Environment.definitions listing)).get? name =
        (entries.reverse.lookup name).or (present.get? name) := by
    rw [hread]
    exact Environment.get?_overlay present entries name
  refine ⟨hread, hoverlay, ?_⟩
  rintro runner present script tree after output hscript hrunner rfl
  have hrun : Program.run runner (captureCommand script) tree = (.ok output, after) := by
    rw [Program.run, hrunner]
  exact ⟨_, does_captureEnvironment_of_run hscript hrun, hoverlay present⟩

/-- A variable that is listed twice, the second time without a value and without a line end, among lines that
are no definitions. -/
theorem captured_as_listed_repeated :
    let entries : List (Text × Text) := [("INCLUDE", "C:\\VC;"), ("A", "b=c"), ("PATH", "x"), ("A", "")]
    let listing : Text := "INCLUDE=C:\\VC;\r\nnone\r\r\n=C:=C:\\\nA=b=c\n\r\nPATH=x\r\nA="
    let tree := FileTree.ofEntries [(["v.bat"], .file (.text []) false 0)]
    let runner : Program.Runner := fun _ tree => (.ok ⟨false, some 1, listing, []⟩, tree)
    let present := Environment.ofList [("PATH", "old"), ("HOME", "h")]
    Environment.Lists entries listing ∧ Environment.definitions listing = entries ∧
      ∃ env, (captureEnvironment runner present "/v.bat").Does tree (.ok env) tree [] ∧
        env.get? "A" = some "" ∧ env.get? "PATH" = some "x" ∧ env.get? "HOME" = some "h" ∧
        env.get? "B" = none := by
  intro entries listing tree runner present
  have hlists : Environment.Lists entries listing :=
    @Environment.Lists.definition "INCLUDE" "C:\\VC;" _ _ _ (.returnFeed _) <|
    @Environment.Lists.other "none\r" _ _ _ (by decide) (Or.inl (by decide)) (.returnFeed _) <|
    @Environment.Lists.other "=C:=C:\\" _ _ _ (by decide) (Or.inr (by decide)) (.feed _) <|
    @Environment.Lists.definition "A" "b=c" _ _ _ (.feed _) <|
    @Environment.Lists.other "" _ _ _ (by decide) (Or.inl (by decide)) (.returnFeed _) <|
    @Environment.Lists.definition "PATH" "x" _ _ _ (.returnFeed _) <|
    @Environment.Lists.definition "A" "" _ _ _ .missing .nil
  have hentries : ∀ entry ∈ entries, Environment.Listable entry := by
    intro entry hentry
    simp only [entries, List.mem_cons, List.not_mem_nil, or_false] at hentry
    rcases hentry with rfl | rfl | rfl | rfl <;> exact ⟨by decide, by decide, by decide, by decide⟩
  obtain ⟨hread, -, hcaptured⟩ := captured_as_listed hentries hlists
  obtain ⟨env, hcaptures, hget⟩ := hcaptured runner present "/v.bat" tree tree _ (by decide +kernel) rfl rfl
  refine ⟨hlists, hread, env, hcaptures, ?_, ?_, ?_, ?_⟩ <;> rw [hget] <;> decide +kernel

end Toolchain

end CompileFail
