import TypedSql.Cli.Arguments
import TypedSql.Proofs.Pieces

/-!
# Reading a command line

Behind the operation, the arguments are read from the left, each option with its value. Options with
their values in the next arguments are put into the result one after the other
(`readOptions_separated`), so of each option the last value counts, whatever stands between
(`Cli.last_value_counts`). What a reader makes of an option does not depend on what stands in front
of it, provided that the option does not stand in the place of a value (`readOptions_congr`). So a value
may stand behind an equals sign instead, unless it looks like the same assignment again: of repeated
assignments in one argument only the innermost value is left (`Cli.spellings_agree_iff`).
-/

namespace TypedSql.Cli

/-! ### Single arguments -/

theorem flag_inj {name other : OptionName} (h : name.flag = other.flag) : name = other := by
  revert h
  cases name <;> cases other <;> decide

@[simp] theorem ofArgument_flag (name : OptionName) : Token.ofArgument name.flag = .option name := by
  cases name <;> decide

theorem eq_flag_of_ofArgument {argument : String} {name : OptionName}
    (h : Token.ofArgument argument = .option name) : argument = name.flag := by
  unfold Token.ofArgument at h
  split at h
  · cases h
  · split at h
    · next hfind =>
      cases h
      have hflag := List.find?_some hfind
      exact (beq_iff_eq.mp hflag).symm
    · split at h <;> cases h

/-! ### Beginnings taken away -/

section Strip

variable {start cs : List Char} {times times' : Nat}

theorem stripAll_append (rest : List Char) :
    stripAll start (times + 1) (start ++ rest) = stripAll start times rest := by
  rw [stripAll, List.isPrefixOf?_eq_some_iff_append_eq.mpr rfl]

theorem stripAll_of_not_begins (h : ¬ start <+: cs) : stripAll start times cs = cs := by
  cases times with
  | zero => rfl
  | succ times =>
    rw [stripAll]
    split
    · next rest hrest => exact absurd ⟨rest, List.isPrefixOf?_eq_some_iff_append_eq.mp hrest⟩ h
    · rfl

/-- Once a text is short enough, it does not matter how often a beginning may be taken away. -/
theorem stripAll_congr (hstart : start ≠ []) (h : cs.length ≤ times) (h' : cs.length ≤ times') :
    stripAll start times cs = stripAll start times' cs := by
  fun_induction stripAll start times cs generalizing times' with
  | case1 cs =>
    obtain rfl : cs = [] := List.length_eq_zero_iff.mp (Nat.le_zero.mp h)
    rw [stripAll_of_not_begins fun hbegins => hstart (List.prefix_nil.mp hbegins)]
  | case2 times cs rest hrest ih =>
    obtain rfl := List.isPrefixOf?_eq_some_iff_append_eq.mp hrest
    have hpos := List.length_pos_iff.mpr hstart
    rw [List.length_append] at h h'
    obtain ⟨times', rfl⟩ : ∃ n, times' = n + 1 := ⟨times' - 1, by omega⟩
    rw [stripAll_append]
    exact ih (by omega) (by omega)
  | case3 times cs hnone =>
    refine (stripAll_of_not_begins ?_).symm
    rintro ⟨rest, hrest⟩
    rw [List.isPrefixOf?_eq_some_iff_append_eq.mpr hrest] at hnone
    cases hnone

theorem length_stripAll_le : (stripAll start times cs).length ≤ cs.length := by
  fun_induction stripAll start times cs with
  | case1 => rfl
  | case2 times cs rest hrest ih =>
    rw [← List.isPrefixOf?_eq_some_iff_append_eq.mp hrest, List.length_append]
    omega
  | case3 => rfl

end Strip

/-! ### Assignments -/

/-- An option with its value behind an equals sign. -/
def joined (name : OptionName) (value : String) : String := name.flag ++ "=" ++ value

/-- What an assignment to an option begins with. -/
def lead (name : OptionName) : List Char := name.flag.toList ++ ['=']

/-- The value without the assignments to the same option in front of it. -/
def innermost (name : OptionName) (value : String) : String :=
  String.ofList (stripAll (lead name) value.toList.length value.toList)

theorem equals_notMem_flag (name : OptionName) : '=' ∉ name.flag.toList := by
  cases name <;> decide

theorem lead_ne_nil (name : OptionName) : lead name ≠ [] := by simp [lead]

theorem toList_joined (name : OptionName) (value : String) :
    (joined name value).toList = lead name ++ value.toList := by
  simp [joined, lead]

/-- An assignment is no text without an equals sign. -/
theorem joined_ne {argument : String} (h : '=' ∉ argument.toList) (name : OptionName) (value : String) :
    joined name value ≠ argument := by
  rintro rfl
  simp [toList_joined, lead] at h

/-- A text begins like an assignment when it is one. -/
theorem begins_lead_iff {name : OptionName} {value : String} :
    lead name <+: value.toList ↔ ∃ value', value = joined name value' := by
  constructor
  · rintro ⟨rest, hrest⟩
    refine ⟨String.ofList rest, String.toList_inj.mp ?_⟩
    rw [toList_joined, String.toList_ofList, hrest]
  · rintro ⟨value', rfl⟩
    exact ⟨value'.toList, (toList_joined name value').symm⟩

theorem lead_joined_iff {name other : OptionName} {value : String} :
    lead other <+: (joined name value).toList ↔ other = name := by
  constructor
  · rintro ⟨rest, hrest⟩
    simp only [toList_joined, lead, List.append_assoc, List.singleton_append] at hrest
    have hflag := Scan.eq_of_append_cons_eq (equals_notMem_flag other) (equals_notMem_flag name) hrest
    exact flag_inj (String.toList_inj.mp hflag)
  · rintro rfl
    exact begins_lead_iff.mpr ⟨value, rfl⟩

theorem innermost_of_ne {name : OptionName} {value : String}
    (h : ∀ value', value ≠ joined name value') : innermost name value = value := by
  have hbegins : ¬ lead name <+: value.toList := by
    rw [begins_lead_iff]
    exact not_exists.mpr h
  rw [innermost, stripAll_of_not_begins hbegins, String.ofList_toList]

theorem stripAll_joined {name : OptionName} {value : String} {times : Nat}
    (h : (joined name value).toList.length ≤ times) :
    String.ofList (stripAll (lead name) times (joined name value).toList) = innermost name value := by
  have hpos := List.length_pos_iff.mpr (lead_ne_nil name)
  rw [toList_joined, List.length_append] at h
  obtain ⟨times, rfl⟩ : ∃ n, times = n + 1 := ⟨times - 1, by omega⟩
  rw [toList_joined, stripAll_append, innermost,
    stripAll_congr (lead_ne_nil name) (by omega) (Nat.le_refl _)]

theorem innermost_joined (name : OptionName) (value : String) :
    innermost name (joined name value) = innermost name value :=
  stripAll_joined (Nat.le_refl _)

theorem innermost_ne_joined (name : OptionName) (value : String) :
    innermost name value ≠ joined name value := by
  intro h
  have hlength := congrArg (fun s => s.toList.length) h
  have hle : (stripAll (lead name) value.toList.length value.toList).length ≤ value.toList.length :=
    length_stripAll_le
  have hpos := List.length_pos_iff.mpr (lead_ne_nil name)
  simp only [innermost, String.toList_ofList, toList_joined, List.length_append] at hlength
  omega

theorem assignedValue?_eq (argument : String) (name : OptionName) :
    assignedValue? argument name =
      if (lead name).isPrefixOf argument.toList then
        some (String.ofList (stripAll (lead name) argument.toList.length argument.toList))
      else none := rfl

theorem assignedValue?_joined (name other : OptionName) (value : String) :
    assignedValue? (joined name value) other =
      if other = name then some (innermost name value) else none := by
  have hbegins : (lead other).isPrefixOf (joined name value).toList = true ↔ other = name := by
    rw [List.isPrefixOf_iff_prefix, lead_joined_iff]
  rw [assignedValue?_eq]
  by_cases h : other = name
  · subst h
    rw [if_pos rfl, if_pos (hbegins.mpr rfl), stripAll_joined (Nat.le_refl _)]
  · rw [if_neg h, if_neg (mt hbegins.mp h)]

@[simp] theorem ofArgument_joined (name : OptionName) (value : String) :
    Token.ofArgument (joined name value) = .assigned name (innermost name value) := by
  have hhelp : isHelp (joined name value) = false := by
    simp only [isHelp, Bool.or_eq_false_iff, beq_eq_false_iff_ne]
    exact ⟨joined_ne (by decide) name value, joined_ne (by decide) name value⟩
  have hflag : (OptionName.all.find? fun other => other.flag == joined name value) = none := by
    simp only [List.find?_eq_none, beq_iff_eq]
    exact fun other _ => (joined_ne (equals_notMem_flag other) name value).symm
  rw [Token.ofArgument, hhelp, hflag]
  cases name <;> simp [OptionName.all, assignedValue?_joined]

/-! ### Steps -/

section Steps

variable (operation : Operation) (o : Options)

theorem readOptions_flag (name : OptionName) (value : String) (rest : List String) :
    readOptions operation o (name.flag :: value :: rest) =
      readOptions operation (o.set name value) rest := by
  rw [readOptions, ofArgument_flag]

theorem readOptions_joined (name : OptionName) (value : String) (rest : List String) :
    readOptions operation o (joined name value :: rest) =
      readOptions operation (o.set name (innermost name value)) rest := by
  rw [readOptions, ofArgument_joined]

theorem readOptions_help {argument : String} (h : isHelp argument = true) (rest : List String) :
    readOptions operation o (argument :: rest) = .ok (.help (some operation)) := by
  rw [readOptions, Token.ofArgument, if_pos h]

theorem ofArguments_name (rest : List String) :
    Command.ofArguments (operation.name :: rest) = readOptions operation .default rest := by
  have hhelp : isHelp operation.name = false := by
    cases operation <;> decide
  rw [Command.ofArguments, hhelp, Operation.ofName?_name]
  rfl

end Steps

/-! ### Options with their values in the next arguments -/

/-- Options with their values, each in an argument of its own. -/
def separated (given : List (OptionName × String)) : List String :=
  given.flatMap fun option => [option.1.flag, option.2]

/-- The values that are given to an option, in order. -/
def valuesOf (name : OptionName) (given : List (OptionName × String)) : List String :=
  (given.filter fun option => option.1 = name).map Prod.snd

/-- The options with more values, one after the other. -/
def Options.setAll (o : Options) (given : List (OptionName × String)) : Options :=
  given.foldl (fun o option => o.set option.1 option.2) o

theorem readOptions_separated (operation : Operation) (o : Options) (given : List (OptionName × String))
    (rest : List String) :
    readOptions operation o (separated given ++ rest) = readOptions operation (o.setAll given) rest := by
  induction given generalizing o with
  | nil => rfl
  | cons option given ih =>
    show readOptions operation o (option.1.flag :: option.2 :: (separated given ++ rest)) = _
    rw [readOptions_flag, ih]
    rfl

theorem ofArguments_separated (operation : Operation) (given : List (OptionName × String)) :
    Command.ofArguments (operation.name :: separated given) =
      (Options.default.setAll given).command operation := by
  rw [ofArguments_name, ← List.append_nil (separated given), readOptions_separated]
  rfl

theorem valuesOf_cons (name : OptionName) (option : OptionName × String)
    (given : List (OptionName × String)) :
    valuesOf name (option :: given) =
      if option.1 = name then option.2 :: valuesOf name given else valuesOf name given := by
  by_cases h : option.1 = name <;> simp [valuesOf, h]

/-- Of each option the last value is there, or what was there before. -/
theorem setAll_eq (o : Options) (given : List (OptionName × String)) :
    o.setAll given =
      { config := (valuesOf .config given).getLast?.getD o.config
        table := (valuesOf .table given).getLast?.or o.table
        request := ((valuesOf .request given).getLast?.map Options.requestPath).getD o.request } := by
  induction given generalizing o with
  | nil => rfl
  | cons option given ih =>
    obtain ⟨name, value⟩ := option
    show (o.set name value).setAll given = _
    rw [ih]
    cases name <;> simp [valuesOf_cons, Options.set, List.getLast?_cons, Option.getD_map]

theorem getD_map_requestPath (last : Option String) :
    (last.map Options.requestPath).getD none = last.filter (· ≠ "-") := by
  cases last with
  | none => rfl
  | some value => by_cases hdash : value = "-" <;> simp [Options.requestPath, Option.filter, hdash]

/-- **Of each option the last value counts.** Options with any values, in any order, make a command
exactly when a table is among them. An option that is not given has its default, and a dash as the last
request means standard input. How the options of different names are mixed does not matter, and a request
for help behind them ends the reading. -/
theorem last_value_counts (operation : Operation) (given : List (OptionName × String)) :
    Command.ofArguments (operation.name :: separated given) =
        (match (valuesOf .table given).getLast? with
          | some table => .ok (.build operation ((valuesOf .config given).getLast?.getD "mapsql.toml") table
              ((valuesOf .request given).getLast?.filter (· ≠ "-")))
          | none => .error (.missingTable operation)) ∧
      (∀ given', (∀ name, valuesOf name given' = valuesOf name given) →
        Command.ofArguments (operation.name :: separated given') =
          Command.ofArguments (operation.name :: separated given)) ∧
      ∀ help ∈ ["-h", "--help"], ∀ rest,
        Command.ofArguments (operation.name :: (separated given ++ help :: rest)) =
          .ok (.help (some operation)) := by
  refine ⟨?_, ?_, ?_⟩
  · rw [ofArguments_separated, setAll_eq, ← getD_map_requestPath]
    cases (valuesOf .table given).getLast? with
    | none => rfl
    | some table => rfl
  · intro given' hsame
    rw [ofArguments_separated, ofArguments_separated, setAll_eq, setAll_eq, hsame, hsame, hsame]
  · intro help hhelp rest
    have hasks : isHelp help = true := by
      simpa [isHelp] using hhelp
    rw [ofArguments_name, readOptions_separated, readOptions_help _ _ hasks]

/-- Values that look like options, a request that is taken back, and another mixture of the same values.
A request for help is no value and ends the reading. -/
theorem last_value_counts_mixed :
    let given := [(.request, "a.json"), (.table, "--help"), (.config, "--table"), (.table, "-h"),
      (.request, "-")]
    let given' := [(.table, "--help"), (.table, "-h"), (.config, "--table"), (.request, "a.json"),
      (.request, "-")]
    separated given = ["--request", "a.json", "--table", "--help", "--config", "--table", "--table", "-h",
        "--request", "-"] ∧
      Command.ofArguments ("query" :: separated given) = .ok (.build .query "--table" "-h" none) ∧
      (∀ name, valuesOf name given' = valuesOf name given) ∧
      Command.ofArguments ("query" :: separated given') = .ok (.build .query "--table" "-h" none) ∧
      "-h" ∈ ["-h", "--help"] ∧
      Command.ofArguments ("query" :: (separated given ++ ["-h", "--table"])) =
        .ok (.help (some .query)) := by
  intro given given'
  obtain ⟨hlast, hmixed, hhelp⟩ := last_value_counts .query given
  have hsame (name : OptionName) : valuesOf name given' = valuesOf name given := by
    cases name <;> rfl
  have hmember : "-h" ∈ ["-h", "--help"] := by decide
  exact ⟨rfl, hlast, hsame, (hmixed given' hsame).trans hlast, hmember, hhelp "-h" hmember ["--table"]⟩

/-! ### The two spellings -/

/-- Arguments of which no option waits for its value: the next argument stands in the position of an
option. -/
inductive Complete : List String → Prop where
  | nil : Complete []
  | option {rest : List String} (name : OptionName) (value : String) (h : Complete rest) :
      Complete (name.flag :: value :: rest)
  | single {argument : String} {rest : List String} (hargument : ∀ name : OptionName, argument ≠ name.flag)
      (h : Complete rest) : Complete (argument :: rest)

/-- What is read the same by itself is read the same behind complete arguments. -/
theorem readOptions_congr {operation : Operation} {before tail tail' : List String}
    (hbefore : Complete before)
    (h : ∀ o, readOptions operation o tail = readOptions operation o tail') (o : Options) :
    readOptions operation o (before ++ tail) = readOptions operation o (before ++ tail') := by
  induction hbefore generalizing o with
  | nil => exact h o
  | option name value _ ih =>
    simp only [List.cons_append, readOptions_flag, ih]
  | @single argument rest hargument _ ih =>
    rw [List.cons_append, List.cons_append, readOptions, readOptions]
    cases hread : Token.ofArgument argument with
    | help => rfl
    | option name => exact absurd (eq_flag_of_ofArgument hread) (hargument name)
    | assigned name value => exact ih (o.set name value)
    | other => rfl

theorem ofArguments_congr {before tail tail' : List String} (hbefore : Complete before)
    (h : ∀ operation o, readOptions operation o tail = readOptions operation o tail') (first : String) :
    Command.ofArguments (first :: (before ++ tail)) = Command.ofArguments (first :: (before ++ tail')) := by
  simp only [Command.ofArguments]
  split
  · rfl
  · split
    · next operation _ => exact readOptions_congr hbefore (h operation) .default
    · rfl

/-- An assignment is read as the option with the innermost value in the next argument. -/
theorem ofArguments_joined {before : List String} (hbefore : Complete before) (name : OptionName)
    (first value : String) (after : List String) :
    Command.ofArguments (first :: (before ++ joined name value :: after)) =
      Command.ofArguments (first :: (before ++ name.flag :: innermost name value :: after)) :=
  ofArguments_congr hbefore (fun operation o => by rw [readOptions_joined, readOptions_flag]) first

/-- The value of an option shows in the command. -/
theorem exists_ofArguments_ne (name : OptionName) {value value' : String} (h : value ≠ value')
    (hdash : value' ≠ "-") :
    ∃ after, Command.ofArguments ("get" :: name.flag :: value :: after) ≠
      Command.ofArguments ("get" :: name.flag :: value' :: after) := by
  have hread (given : List (OptionName × String)) (value : String) :
      Command.ofArguments ("get" :: name.flag :: value :: separated given) =
        ((Options.default.set name value).setAll given).command .get :=
    ofArguments_separated .get ((name, value) :: given)
  cases name with
  | config =>
    refine ⟨separated [(.table, "t")], ?_⟩
    rw [hread, hread]
    simpa [Options.setAll, Options.set, Options.command] using h
  | table =>
    refine ⟨separated [], ?_⟩
    rw [hread, hread]
    simpa [Options.setAll, Options.set, Options.command] using h
  | request =>
    refine ⟨separated [(.table, "t")], ?_⟩
    rw [hread, hread]
    by_cases hvalue : value = "-"
    · simp [Options.setAll, Options.set, Options.command, Options.requestPath, hvalue, hdash]
    · simpa [Options.setAll, Options.set, Options.command, Options.requestPath, hvalue, hdash] using h

/-- **The two spellings agree** for a value, in the position of any option and whatever stands around
it, exactly when the value is not an assignment to the same option. Of an assignment of an assignment,
the inner one is read. -/
theorem spellings_agree_iff (name : OptionName) :
    (∀ value, (∀ first before after, Complete before →
        Command.ofArguments (first :: (before ++ joined name value :: after)) =
          Command.ofArguments (first :: (before ++ name.flag :: value :: after))) ↔
      ∀ value', value ≠ joined name value') ∧
    ∀ value first before after, Complete before →
      Command.ofArguments (first :: (before ++ joined name (joined name value) :: after)) =
        Command.ofArguments (first :: (before ++ joined name value :: after)) := by
  refine ⟨?_, ?_⟩
  · intro value
    constructor
    · rintro hagree value' rfl
      -- the value that is left differs from the one in the next argument, and some command shows it
      obtain ⟨after, hafter⟩ := exists_ofArguments_ne name (innermost_ne_joined name value')
        (joined_ne (by decide) name value')
      have hsame := hagree "get" [] after .nil
      rw [ofArguments_joined .nil, innermost_joined] at hsame
      exact hafter hsame
    · intro hne first before after hbefore
      rw [ofArguments_joined hbefore, innermost_of_ne hne]
  · intro value first before after hbefore
    rw [ofArguments_joined hbefore, ofArguments_joined hbefore, innermost_joined]

/-- Behind an option whose value asks for help and an assignment, a path is given in either spelling. A
path that is an assignment of another option stays as it is. -/
theorem spellings_agree_iff_behind_options :
    let before := ["--table", "--help", "--request=-"]
    Complete before ∧
      (∀ value', "--table=x" ≠ joined .config value') ∧
      Command.ofArguments ("get" :: (before ++ ["--config=--table=x"])) =
        Command.ofArguments ("get" :: (before ++ ["--config", "--table=x"])) ∧
      Command.ofArguments ("get" :: (before ++ ["--config=--config=x"])) =
        Command.ofArguments ("get" :: (before ++ ["--config=x"])) := by
  intro before
  have hbefore : Complete before :=
    .option .table "--help" (.single (fun name => by cases name <;> decide) .nil)
  have hne (value' : String) : "--table=x" ≠ joined .config value' := by
    intro h
    have hlead : lead .config <+: "--table=x".toList := begins_lead_iff.mpr ⟨value', h⟩
    revert hlead
    decide
  obtain ⟨hagree, hnested⟩ := spellings_agree_iff .config
  exact ⟨hbefore, hne, (hagree "--table=x").mpr hne "get" before [] hbefore,
    hnested "x" "get" before [] hbefore⟩

/-- A table that is written like an assignment of a table is found in the next argument, and not behind
an equals sign. -/
theorem spellings_disagree_on_assignment :
    Command.ofArguments ["get", "--table", "--table=t"] =
        .ok (.build .get "mapsql.toml" "--table=t" none) ∧
      Command.ofArguments ["get", "--table=--table=t"] = .ok (.build .get "mapsql.toml" "t" none) := by
  decide

end TypedSql.Cli
