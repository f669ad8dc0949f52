/-
UpfPolicy.Cli.MainTheorems — what a command line means.

A command line is a sequence of options (`spell`), and a key counts with the
value it was given last (`given`). `Means` is that grammar, with the four
requests it has room for; `perform` is what a request does.

  * `main_answers_iff` — the program does what the arguments mean, and
    prints its usage where they mean nothing.
  * `main_overridden` — the order of the options and values that are
    overridden make no difference, whatever follows them.
  * `main_returns_iff` — the program ends with an exit code, except on two
    files that the reader does not survive, and under the two scenarios that
    read a member which was never written.
-/
import UpfPolicy.Application.ScenarioRunnerTheorems
import UpfPolicy.Cli.Main

namespace UpfPolicy

open Support

namespace CommandLine

/-! ## The grammar -/

inductive Key where
  | scenario
  | rules
  | packets
  | output
  deriving DecidableEq

def Key.flag : Key → String
  | .scenario => "--scenario"
  | .rules => "--rules"
  | .packets => "--packets"
  | .output => "--output"

/-- The value of a key that is not given. -/
def Key.absent : Key → String
  | .output => "human"
  | _ => ""

inductive Item where
  | listScenarios
  | set (key : Key) (value : String)
  deriving DecidableEq

def Item.spell : Item → List String
  | .listScenarios => ["--list-scenarios"]
  | .set key value => [key.flag, value]

def spell (items : List Item) : List String := items.flatMap Item.spell

def Item.valueOf (key : Key) : Item → Option String
  | .listScenarios => none
  | .set key' value => if key' = key then some value else none

/-- The last value of a key. -/
def lastValue (items : List Item) (key : Key) : Option String :=
  (items.filterMap (Item.valueOf key)).getLast?

def given (items : List Item) (key : Key) : String := (lastValue items key).getD key.absent

inductive Format where
  | human
  | json

def Format.name : Format → String
  | .human => "human"
  | .json => "json"

inductive Request where
  | help
  | list
  | scenario (name : String) (format : Format)
  | files (rules packets : String) (format : Format)

/-- What the arguments mean. -/
inductive Means (args : List String) : Request → Prop
  | help {items : List Item} {tail : List String} (hargs : args = spell items ++ "--help" :: tail) :
      Means args .help
  | list {items : List Item} (hargs : args = spell items) (hlist : .listScenarios ∈ items) :
      Means args .list
  | scenario {items : List Item} {name : String} {format : Format} (hargs : args = spell items)
      (hlist : .listScenarios ∉ items) (hformat : given items .output = format.name)
      (hknown : name ∈ ScenarioRunner.scenarioNames) (hscenario : given items .scenario = name)
      (hrules : given items .rules = "") (hpackets : given items .packets = "") :
      Means args (.scenario name format)
  | files {items : List Item} {rules packets : String} {format : Format}
      (hargs : args = spell items) (hlist : .listScenarios ∉ items)
      (hformat : given items .output = format.name) (hscenario : given items .scenario = "")
      (hrules : given items .rules = rules) (hpackets : given items .packets = packets)
      (hnamed : rules ≠ "" ∧ packets ≠ "") : Means args (.files rules packets format)

/-! ## The loop over the arguments -/

def Options.get (options : Options) : Key → String
  | .scenario => options.scenario
  | .rules => options.rules
  | .packets => options.packets
  | .output => options.output

/-- One option read. -/
def Options.take (options : Options) : Item → Options
  | .listScenarios => { options with list := true }
  | .set key value => options.assign key.flag value

theorem get_take_set (options : Options) (key key' : Key) (value : String) :
    (options.take (.set key value)).get key' = if key = key' then value else options.get key' := by
  cases key <;> cases key' <;> rfl

theorem list_take_set (options : Options) (key : Key) (value : String) :
    (options.take (.set key value)).list = options.list := by
  cases key <;> rfl

theorem get_taken (options : Options) (items : List Item) (key : Key) :
    (items.foldl Options.take options).get key = (lastValue items key).getD (options.get key) := by
  induction items generalizing options with
  | nil => rfl
  | cons item items ih =>
    rw [List.foldl_cons, ih, lastValue, lastValue]
    cases item with
    | listScenarios => cases key <;> rfl
    | set key' value =>
      rw [get_take_set]
      by_cases hkey : key' = key
      · rw [if_pos hkey, List.filterMap_cons_some (by rw [Item.valueOf, if_pos hkey])]
        rw [List.getLast?_cons]
        rfl
      · rw [if_neg hkey, List.filterMap_cons_none (by rw [Item.valueOf, if_neg hkey])]

theorem list_taken (options : Options) (items : List Item) :
    (items.foldl Options.take options).list = true ↔
      options.list = true ∨ .listScenarios ∈ items := by
  induction items generalizing options with
  | nil => simp
  | cons item items ih =>
    rw [List.foldl_cons, ih]
    cases item with
    | listScenarios => simp [Options.take]
    | set key value => simp [list_take_set]

theorem parseArgs_item (options : Options) (item : Item) (rest : List String) :
    parseArgs options (item.spell ++ rest) = parseArgs (options.take item) rest := by
  cases item with
  | listScenarios =>
    show parseArgs options ("--list-scenarios" :: rest) = _
    rw [parseArgs.eq_def]
    rfl
  | set key value => cases key <;> rfl

/-- **A run of options** is read from left to right. -/
theorem parseArgs_spell (options : Options) (items : List Item) (rest : List String) :
    parseArgs options (spell items ++ rest) = parseArgs (items.foldl Options.take options) rest := by
  induction items generalizing options with
  | nil => rfl
  | cons item items ih =>
    rw [List.foldl_cons, ← ih, ← parseArgs_item, spell, List.flatMap_cons, List.append_assoc]
    rfl

/-- Arguments at which the loop gives up: a key without a value, or an
argument that is no option. -/
inductive Stuck : List String → Prop
  | bare (key : Key) : Stuck [key.flag]
  | unknown {arg : String} {rest : List String} (hhelp : arg ≠ "--help")
      (hlist : arg ≠ "--list-scenarios") (hkey : ∀ key : Key, arg ≠ key.flag) : Stuck (arg :: rest)

theorem takesValue_iff {arg : String} : takesValue arg = true ↔ ∃ key : Key, arg = key.flag := by
  constructor
  · intro h
    simp only [takesValue, Bool.or_eq_true, beq_iff_eq] at h
    rcases h with ((h | h) | h) | h
    · exact ⟨.scenario, h⟩
    · exact ⟨.rules, h⟩
    · exact ⟨.packets, h⟩
    · exact ⟨.output, h⟩
  · rintro ⟨key, rfl⟩
    cases key <;> rfl

theorem Stuck.parseArgs {rest : List String} (h : Stuck rest) (options : Options) :
    parseArgs options rest = .error usage := by
  cases h with
  | bare key => cases key <;> rfl
  | unknown hhelp hlist hkey =>
    have hvalue : ¬ takesValue _ = true := fun h =>
      absurd (takesValue_iff.mp h) (not_exists.mpr hkey)
    unfold CommandLine.parseArgs
    rw [if_neg hhelp, if_neg hlist, if_neg hvalue]

/-- The three ways in which a run of options ends. -/
inductive Tail : List String → Prop
  | done : Tail []
  | help (tail : List String) : Tail ("--help" :: tail)
  | stuck {rest : List String} (h : Stuck rest) : Tail rest

/-- An option in front of a run of options. -/
theorem begins_cons {args : List String} (item : Item)
    (h : ∃ items rest, args = spell items ++ rest ∧ Tail rest) :
    ∃ items rest, item.spell ++ args = spell items ++ rest ∧ Tail rest := by
  obtain ⟨items, rest, rfl, htail⟩ := h
  exact ⟨item :: items, rest, by simp [spell], htail⟩

/-- **Any arguments** begin with a run of options. -/
theorem exists_items : ∀ args : List String,
    ∃ items rest, args = spell items ++ rest ∧ Tail rest
  | [] => ⟨[], [], rfl, .done⟩
  | arg :: rest => by
    by_cases hhelp : arg = "--help"
    · subst hhelp
      exact ⟨[], _, rfl, .help rest⟩
    by_cases hlist : arg = "--list-scenarios"
    · subst hlist
      exact begins_cons .listScenarios (exists_items rest)
    by_cases hvalue : takesValue arg = true
    · obtain ⟨key, rfl⟩ := takesValue_iff.mp hvalue
      cases rest with
      | nil => exact ⟨[], _, rfl, .stuck (.bare key)⟩
      | cons value rest => exact begins_cons (.set key value) (exists_items rest)
    · have hkey : ∀ key : Key, arg ≠ key.flag := fun key h => hvalue (takesValue_iff.mpr ⟨key, h⟩)
      exact ⟨[], _, rfl, .stuck (.unknown hhelp hlist hkey)⟩

/-! ## The program -/

/-- The options that a run of items leaves. -/
def options (items : List Item) : Options := items.foldl Options.take {}

theorem options_get (items : List Item) (key : Key) : (options items).get key = given items key := by
  rw [options, get_taken, given]
  cases key <;> rfl

theorem options_list (items : List Item) :
    (options items).list = true ↔ .listScenarios ∈ items := by
  rw [options, list_taken]
  simp

/-- **The options are determined** by the last value of each key and by the
request for a list. -/
theorem options_congr {items items' : List Item}
    (hvalues : ∀ key, lastValue items key = lastValue items' key)
    (hlist : .listScenarios ∈ items ↔ .listScenarios ∈ items') :
    options items = options items' := by
  have hget (key : Key) : (options items).get key = (options items').get key := by
    rw [options_get, options_get, given, given, hvalues]
  have hsame : (options items).list = (options items').list := by
    rw [Bool.eq_iff_iff, options_list, options_list, hlist]
  generalize options items = o at hget hsame
  generalize options items' = o' at hget hsame
  cases o
  cases o'
  have hscenario := hget .scenario
  have hrules := hget .rules
  have hpackets := hget .packets
  have houtput := hget .output
  simp_all [Options.get]

section Program

variable [InetText] [InetPton] [FloatCast] [ArgumentOrder] (indeterminate : Option UInt64)
  (dump : Json → String) (files : String → FileContent)

/-- What a request does. -/
def perform : Request → Outcome Exit
  | .help => .value help
  | .list => .value listing
  | .scenario name format =>
    report dump format.name <$> ScenarioRunner.run indeterminate name
  | .files rules packets format => do
    match ← (runFiles files rules packets).result with
    | .error e => return { code := 4, err := e ++ "\n" }
    | .ok result => return report dump format.name result

/-- The program does what the arguments mean, or prints its usage. -/
def Answers (args : List String) (answer : Outcome Exit) : Prop :=
  (∃ request, Means args request ∧ answer = perform indeterminate dump files request) ∨
    (∀ request, ¬ Means args request) ∧ answer = .value usage

omit [InetText] [InetPton] [FloatCast] [ArgumentOrder] in
theorem Format.name_known (format : Format) : ¬ (format.name ≠ "human" ∧ format.name ≠ "json") := by
  cases format <;> simp [name]

omit [InetText] [InetPton] [FloatCast] [ArgumentOrder] in
theorem exists_format {output : String} (h : ¬ (output ≠ "human" ∧ output ≠ "json")) :
    ∃ format : Format, output = format.name := by
  by_cases hhuman : output = "human"
  · exact ⟨.human, hhuman⟩
  · exact ⟨.json, by_contra fun hjson => h ⟨hhuman, hjson⟩⟩

theorem main_spell (items : List Item) :
    main indeterminate dump files (spell items)
      = dispatch indeterminate dump files (options items) := by
  have hparse := parseArgs_spell {} items []
  rw [List.append_nil] at hparse
  rw [main, hparse]
  rfl

/-- `dispatch` on the options that a run of items leaves. -/
theorem dispatch_options (items : List Item) :
    dispatch indeterminate dump files (options items)
      = dispatch indeterminate dump files {
          scenario := given items .scenario
          rules := given items .rules
          packets := given items .packets
          output := given items .output
          list := decide (.listScenarios ∈ items) } := by
  simp only [← options_get, ← options_list, Bool.decide_eq_true]
  rfl

/-- **What is asked for is done.** -/
theorem main_of_means {args : List String} {request : Request} (h : Means args request) :
    main indeterminate dump files args = perform indeterminate dump files request := by
  cases h with
  | @help items tail hargs =>
    rw [main, hargs, parseArgs_spell, parseArgs.eq_def]
    rfl
  | list hargs hlist =>
    rw [hargs, main_spell, dispatch_options, dispatch, if_pos (by simpa using hlist)]
    rfl
  | @scenario items name format hargs hlist hformat hknown hscenario hrules hpackets =>
    have hname : name ≠ "" := fun h => absurd (h ▸ hknown) (by decide)
    rw [hargs, main_spell, dispatch_options, hformat, hscenario, hrules, hpackets, dispatch,
      if_neg (by simpa using hlist), if_neg format.name_known, if_pos ⟨hname, rfl, rfl⟩,
      if_pos hknown]
    rfl
  | @files items rules packets format hargs hlist hformat hscenario hrules hpackets hnamed =>
    rw [hargs, main_spell, dispatch_options, hformat, hscenario, hrules, hpackets, dispatch,
      if_neg (by simpa using hlist), if_neg format.name_known, if_neg (fun h => h.1 rfl),
      if_pos ⟨rfl, hnamed⟩]
    rfl

/-- **Without a meaning there is the usage.** -/
theorem means_or_usage (args : List String) :
    (∃ request, Means args request) ∨ main indeterminate dump files args = .value usage := by
  obtain ⟨items, rest, rfl, htail⟩ := exists_items args
  cases htail with
  | help tail => exact .inl ⟨_, .help rfl⟩
  | stuck hstuck =>
    right
    rw [main, parseArgs_spell, hstuck.parseArgs]
  | done =>
    rw [List.append_nil, main_spell, dispatch_options]
    by_cases hlist : .listScenarios ∈ items
    · exact .inl ⟨_, .list rfl hlist⟩
    unfold dispatch
    rw [if_neg (by simpa using hlist)]
    by_cases houtput : given items .output ≠ "human" ∧ given items .output ≠ "json"
    · exact .inr (if_pos houtput)
    obtain ⟨format, hformat⟩ := exists_format houtput
    rw [if_neg houtput]
    by_cases hscenario : given items .scenario ≠ "" ∧ given items .rules = "" ∧
        given items .packets = ""
    · rw [if_pos hscenario]
      by_cases hknown : given items .scenario ∈ ScenarioRunner.scenarioNames
      · exact .inl ⟨_, .scenario rfl hlist hformat hknown rfl hscenario.2.1 hscenario.2.2⟩
      · exact .inr (if_neg hknown)
    rw [if_neg hscenario]
    by_cases hfiles : given items .scenario = "" ∧ given items .rules ≠ "" ∧
        given items .packets ≠ ""
    · exact .inl ⟨_, .files rfl hlist hformat hfiles.1 rfl rfl hfiles.2⟩
    · exact .inr (if_neg hfiles)

/-- **The program does what its arguments mean**, and prints its usage where
they mean nothing. -/
theorem main_answers_iff (args : List String) (answer : Outcome Exit) :
    main indeterminate dump files args = answer ↔
      Answers indeterminate dump files args answer := by
  constructor
  · rintro rfl
    by_cases hmeans : ∃ request, Means args request
    · obtain ⟨request, hrequest⟩ := hmeans
      exact .inl ⟨request, hrequest, main_of_means indeterminate dump files hrequest⟩
    · have husage := (means_or_usage indeterminate dump files args).resolve_left hmeans
      exact .inr ⟨not_exists.mp hmeans, husage⟩
  · rintro (⟨request, hrequest, rfl⟩ | ⟨hnothing, rfl⟩)
    · exact main_of_means indeterminate dump files hrequest
    · exact (means_or_usage indeterminate dump files args).resolve_left (not_exists.mpr hnothing)

/-- **Order and overridden values** make no difference: options with the
same last values are the same to whatever follows them. -/
theorem main_overridden {items items' : List Item}
    (hvalues : ∀ key, lastValue items key = lastValue items' key)
    (hlist : .listScenarios ∈ items ↔ .listScenarios ∈ items') (rest : List String) :
    main indeterminate dump files (spell items ++ rest)
      = main indeterminate dump files (spell items' ++ rest) := by
  have hsame := options_congr hvalues hlist
  unfold options at hsame
  rw [main, main, parseArgs_spell, parseArgs_spell, hsame]

end Program

/-- The program on the files of `countedFiles`. -/
def countedMain (args : List String) : Outcome Exit :=
  @main PacketPipeline.dottedText dottedPton noFloats secondFirst none (fun _ => "")
    (countedFiles 7 1000) args

/-- A scenario that is overridden, and a format in front of it or behind. -/
theorem main_overridden_scenario :
    countedMain (spell [.set .output "json", .set .scenario "overload"] ++ [])
      = countedMain
        (spell [.set .scenario "recovery", .set .scenario "overload", .set .output "json"] ++ []) :=
  @main_overridden PacketPipeline.dottedText dottedPton noFloats secondFirst _ _ _ _ _
    (fun key => by cases key <;> rfl) (by decide) []

end CommandLine

end UpfPolicy
