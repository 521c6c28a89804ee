import MotokoDebugger.Lib.ShellWords
import Mathlib.Data.List.DropRight

/-!
# Command lines

`debugger/src/process.rs` and the aliases in `debugger/src/commands`: a line is split into words,
and for an alias the words are joined again and dispatched once more.

* `dispatchCommand`: the command that a line is for, with its arguments.
* `dispatch_alias_iff`: the lines that an alias passes on as if it had been replaced in them.
-/

namespace MotokoDebugger

namespace Debugger

open ShellWords

/-- `char::is_whitespace`: the characters with the Unicode property White_Space. -/
def isWhitespace (c : Char) : Bool :=
  (9 ≤ c.toNat ∧ c.toNat ≤ 13) ∨ (0x2000 ≤ c.toNat ∧ c.toNat ≤ 0x200a) ∨
    c.toNat ∈ [0x20, 0x85, 0xa0, 0x1680, 0x2028, 0x2029, 0x202f, 0x205f, 0x3000]

/-- `str::trim`. -/
def trim (s : List Char) : List Char := (s.dropWhile isWhitespace).rdropWhile isWhitespace

/-- `extract_command_name`. -/
def extractCommandName (s : String) : String :=
  String.ofList ((trim s.toList).takeWhile fun ch => !isWhitespace ch)

/-! ## Aliases -/

/-- `args[1..].join(" ")`, which panics without arguments. -/
def joinArgs : List String → Option String
  | [] => none
  | _ :: args => some (" ".intercalate args)

/-- `RunCommand::run`. -/
def runCommand (args : List String) : Option String :=
  if args.length = 1 then some "process launch init"
  else (joinArgs args).map ("process launch" ++ " " ++ ·)

/-- `BacktraceCommand::run`. -/
def backtraceCommand (_args : List String) : Option String := some "thread backtrace"

/-- `AliasBpCommand::run`. -/
def aliasBpCommand (args : List String) : Option String :=
  (joinArgs args).map ("breakpoint" ++ " " ++ ·)

/-! ## Dispatch -/

/-- The commands of a process by their names, and its aliases. -/
structure Process where
  commands : List String
  aliases : List (String × (List String → Option String))

/-- The process of the debugger. -/
def motokoProcess : Process where
  commands := ["thread", "list", "stack", "breakpoint", "local", "frame", "settings", "global",
    "process"]
  aliases := [("run", runCommand), ("bt", backtraceCommand), ("bp", aliasBpCommand)]

/-- What a line comes to: the end of the session, a command with its arguments, the list of the
commands, a message that there is no such command, an error of the splitter, or a panic. -/
inductive Dispatched where
  | exit
  | run (command : String) (args : List String)
  | help
  | notValid (name : String)
  | splitError
  | panic
deriving Repr, DecidableEq

/-- `Process::dispatch_command`, without the feature `remote-api`; `split` is `shell_words::split`,
and an alias takes one unit of fuel. -/
def dispatchCommand (split : String → Option (List String)) (process : Process) :
    Nat → String → Option Dispatched
  | 0, _ => none
  | fuel + 1, line =>
    let cmdName := extractCommandName line
    if cmdName = "exit" ∨ cmdName = "quit" then some .exit
    else
      match split line with
      | none => some .splitError
      | some args =>
        if cmdName ∈ process.commands then some (.run cmdName args)
        else
          match process.aliases.lookup cmdName with
          | some aliasCommand =>
            match aliasCommand args with
            | some line => dispatchCommand split process fuel line
            | none => some .panic
          | none => if cmdName = "help" then some .help else some (.notValid cmdName)

/-- `shell_words::split`, as documented: the words by the rules of a POSIX shell. -/
def SplitsLikeShell (split : String → Option (List String)) : Prop :=
  ∀ line, split line = (ShellWords.split line.toList).map fun words => words.map String.ofList

/-! ## Replacing an alias -/

/-- The aliases. -/
inductive Alias where
  | run | bt | bp
deriving Repr, DecidableEq

namespace Alias

def name : Alias → String
  | run => "run"
  | bt => "bt"
  | bp => "bp"

/-- The words that stand for an alias, in a line with the given words. -/
def expansion (aliasCommand : Alias) (words : List String) : List String :=
  match aliasCommand with
  | run => if words.length = 1 then ["process", "launch", "init"] else ["process", "launch"]
  | bt => ["thread", "backtrace"]
  | bp => ["breakpoint"]

/-- The alias is between shell blanks, what follows it stands for itself when it is joined, and
nothing follows `bt`. -/
structure PassedOn (aliasCommand : Alias) (before after : String) (words : List String) : Prop where
  blanksBefore : ∀ c ∈ before.toList, isBlank c = true
  blankAfter : ∀ c ∈ after.toList.head?, isBlank c = true
  plain : AllPlain ((words.drop 1).map String.toList)
  bare : aliasCommand = bt → words.drop 1 = []

end Alias

/-! ## Names of commands -/

/-- The first word of a line with respect to Unicode. -/
lemma takeWhile_trim {before name after : List Char} (hbefore : ∀ c ∈ before, isWhitespace c = true)
    (hne : name ≠ []) (hname : ∀ c ∈ name, isWhitespace c = false)
    (hafter : ∀ c ∈ after.head?, isWhitespace c = true) :
    (trim (before ++ name ++ after)).takeWhile (fun ch => !isWhitespace ch) = name := by
  have hdrop : (before ++ name ++ after).dropWhile isWhitespace = name ++ after := by
    rw [List.append_assoc, List.dropWhile_append_of_pos hbefore]
    cases name with
    | nil => exact absurd rfl hne
    | cons c name =>
      rw [List.cons_append, List.dropWhile_cons_of_neg]
      rw [hname c List.mem_cons_self]
      exact Bool.false_ne_true
  have hreverse : name.reverse.dropWhile isWhitespace = name.reverse := by
    cases hrev : name.reverse with
    | nil => rfl
    | cons c rest =>
      rw [List.dropWhile_cons_of_neg]
      rw [hname c (List.mem_reverse.mp (hrev ▸ List.mem_cons_self))]
      exact Bool.false_ne_true
  -- what is left of the rest still starts with white space
  have htrim : ∃ rest, trim (before ++ name ++ after) = name ++ rest ∧
      ∀ c ∈ rest.head?, isWhitespace c = true := by
    rw [trim, hdrop, List.rdropWhile, List.reverse_append, List.dropWhile_append]
    split
    · exact ⟨[], by rw [hreverse, List.reverse_reverse, List.append_nil], nofun⟩
    · refine ⟨(after.reverse.dropWhile isWhitespace).reverse, by simp, ?_⟩
      intro c hc
      have hprefix : after.rdropWhile isWhitespace <+: after := List.rdropWhile_prefix _ _
      obtain ⟨more, hmore⟩ := hprefix
      have hsome : (after.rdropWhile isWhitespace).head? = some c := hc
      apply hafter
      rw [← hmore, List.head?_append, hsome]
      rfl
  obtain ⟨rest, hrest, hhead⟩ := htrim
  rw [hrest, List.takeWhile_append_of_pos (by simpa using hname)]
  cases rest with
  | nil => simp
  | cons c rest => simp [hhead c rfl]

/-- The name of the command of a line. -/
lemma extractCommandName_eq {line name : String} {before after : List Char}
    (hline : line.toList = before ++ name.toList ++ after)
    (hbefore : ∀ c ∈ before, isWhitespace c = true) (hne : name.toList ≠ [])
    (hname : ∀ c ∈ name.toList, isWhitespace c = false)
    (hafter : ∀ c ∈ after.head?, isWhitespace c = true) : extractCommandName line = name := by
  rw [extractCommandName, hline, takeWhile_trim hbefore hne hname hafter, String.ofList_toList]

/-! ## White space in front of a line -/

/-- White space that is no blank of the shell stands for itself. -/
lemma ordinary_of_isWhitespace {c : Char} (h : isWhitespace c = true) (hblank : isBlank c = false) :
    Ordinary c ∧ c ≠ '#' := by
  have hne : ∀ d, isWhitespace d = false → c ≠ d := by
    intro d hd heq
    rw [heq, hd] at h
    exact Bool.false_ne_true h
  exact ⟨⟨hne _ (by decide), hne _ (by decide), hne _ (by decide), hblank⟩, hne _ (by decide)⟩

/-- The words of a text behind white space: words of its own, and the first word of the text behind
what the white space has begun. -/
def Puts (state : State) (word before : List Char) (own : List Word) (start : Word) : Prop :=
  ∀ c text, Ordinary c → c ≠ '#' → scan state word (before ++ c :: text) =
    (scan .delimiter [] (c :: text)).map fun words => own ++ extendFirst start words

/-- In front of a text there are only blanks, or there is a word that starts with other white
space. -/
def Begins (before : List Char) (own : List Word) (start : Word) : Prop :=
  ((∀ c ∈ before, isBlank c = true) ∧ own = [] ∧ start = []) ∨
    ∃ c word words, c ∈ before ∧ isBlank c = false ∧ own ++ [start] = (c :: word) :: words

lemma scan_whitespace {before : List Char} (h : ∀ c ∈ before, isWhitespace c = true) :
    (∃ own start, Puts .delimiter [] before own start ∧ Begins before own start) ∧
    ∀ word, ∃ own start, Puts .unquoted word before own start ∧
      ∃ more words, own ++ [start] = (word ++ more) :: words := by
  induction before with
  | nil =>
    constructor
    · refine ⟨[], [], ?_, .inl ⟨List.forall_mem_nil _, rfl, rfl⟩⟩
      intro c text hc hcomment
      have hstart := scan_plain (plain_singleton hc hcomment) text
      cases hscan : scan .delimiter [] (c :: text) with
      | none => exact hscan
      | some words =>
        obtain ⟨more, later, rfl⟩ := scan_unquoted_ne_nil (hstart ▸ hscan)
        exact hscan
    · intro word
      refine ⟨[], word, ?_, [], [], by rw [List.append_nil]; rfl⟩
      intro c text hc hcomment
      have hstart := scan_plain (plain_singleton hc hcomment) text
      have hword := scan_ordinary (List.forall_mem_singleton.mpr hc) word text
      show scan .unquoted word ([c] ++ text) = (scan .delimiter [] ([c] ++ text)).map _
      rw [hstart, hword, scan_inWord inWord_unquoted, scan_inWord inWord_unquoted [c],
        Option.map_map]
      congr 1
      funext words
      cases words <;> simp [extendFirst]
  | cons d before ih =>
    rw [List.forall_mem_cons] at h
    obtain ⟨⟨own, start, hputs, hbegins⟩, hword⟩ := ih h.2
    cases hblank : isBlank d with
    | true =>
      constructor
      · refine ⟨own, start, ?_, ?_⟩
        · intro c text hc hcomment
          rw [← hputs c text hc hcomment]
          exact scan_blanks (List.forall_mem_singleton.mpr hblank) _
        · rcases hbegins with ⟨hblanks, hown⟩ | ⟨c, first, words, hc, hother, hfirst⟩
          · exact .inl ⟨List.forall_mem_cons.mpr ⟨hblank, hblanks⟩, hown⟩
          · exact .inr ⟨c, first, words, List.mem_cons_of_mem _ hc, hother, hfirst⟩
      · intro word
        refine ⟨word :: own, start, ?_, [], own ++ [start], by rw [List.append_nil]; rfl⟩
        intro c text hc hcomment
        rw [List.cons_append, scan_blank word hblank, hputs c text hc hcomment, Option.map_map]
        rfl
    | false =>
      obtain ⟨hordinary, hcomment⟩ := ordinary_of_isWhitespace h.1 hblank
      constructor
      · obtain ⟨own, start, hputs, more, words, hfirst⟩ := hword [d]
        refine ⟨own, start, ?_, .inr ⟨d, more, words, List.mem_cons_self, hblank, hfirst⟩⟩
        intro c text hc hcomment'
        rw [← hputs c text hc hcomment']
        exact scan_plain (plain_singleton hordinary hcomment) _
      · intro word
        obtain ⟨own, start, hputs, more, words, hfirst⟩ := hword (word ++ [d])
        refine ⟨own, start, ?_, d :: more, words, by rw [hfirst, List.append_assoc]; rfl⟩
        intro c text hc hcomment'
        rw [← hputs c text hc hcomment']
        exact scan_ordinary (List.forall_mem_singleton.mpr hordinary) word _

/-! ## Dispatching an alias -/

section Dispatch

variable {split : String → Option (List String)} {line name : String} {before after : List Char}

/-- The names of the commands and aliases are plain words without white space. -/
lemma names_plain : ∀ name ∈ motokoProcess.commands ++ motokoProcess.aliases.map Prod.fst,
    name.toList ≠ [] ∧ (∀ c ∈ name.toList, isWhitespace c = false) ∧ name ≠ "exit" ∧
      name ≠ "quit" := by
  decide

lemma aliases_notMem :
    ∀ name ∈ motokoProcess.aliases.map Prod.fst, name ∉ motokoProcess.commands := by
  decide

/-- A line for a command. -/
lemma dispatch_command (hsplit : SplitsLikeShell split) (hmem : name ∈ motokoProcess.commands)
    (hline : line.toList = before ++ name.toList ++ after)
    (hbefore : ∀ c ∈ before, isWhitespace c = true)
    (hafter : ∀ c ∈ after.head?, isWhitespace c = true) (fuel : Nat) :
    dispatchCommand split motokoProcess (fuel + 1) line =
      some (match ShellWords.split line.toList with
        | some words => .run name (words.map String.ofList)
        | none => .splitError) := by
  obtain ⟨hne, hname, hexit, hquit⟩ := names_plain name (List.mem_append_left _ hmem)
  rw [dispatchCommand, extractCommandName_eq hline hbefore hne hname hafter, hsplit]
  simp only [hexit, hquit, or_self, if_false]
  cases ShellWords.split line.toList with
  | none => rfl
  | some words =>
    simp only [Option.map_some, hmem, if_true]

/-- A line for an alias. -/
lemma dispatch_aliasCommand {expand : List String → Option String} {words : List String}
    (hmem : name ∈ motokoProcess.aliases.map Prod.fst)
    (hlookup : motokoProcess.aliases.lookup name = some expand)
    (hline : line.toList = before ++ name.toList ++ after)
    (hbefore : ∀ c ∈ before, isWhitespace c = true)
    (hafter : ∀ c ∈ after.head?, isWhitespace c = true) (hwords : split line = some words)
    {expanded : String} (hexpand : expand words = some expanded) (fuel : Nat) :
    dispatchCommand split motokoProcess (fuel + 1) line =
      dispatchCommand split motokoProcess fuel expanded := by
  obtain ⟨hne, hname, hexit, hquit⟩ := names_plain name (List.mem_append_right _ hmem)
  have hcommand := aliases_notMem name hmem
  rw [dispatchCommand, extractCommandName_eq hline hbefore hne hname hafter, hwords]
  simp only [hexit, hquit, or_self, if_false, hcommand, hlookup, hexpand]

/-- What stands for an alias in front of its arguments, and the last word of it. -/
def Alias.frontOf (aliasCommand : Alias) (words : List String) : List String :=
  (aliasCommand.expansion words).dropLast

def Alias.lastOf (aliasCommand : Alias) (words : List String) : String :=
  (aliasCommand.expansion words).getLastD ""

/-- The arguments that an alias hands on, as they stand in the line that it makes. -/
def Alias.handsOn (aliasCommand : Alias) (words : List String) : String :=
  match aliasCommand with
  | .run => if words.length = 1 then "" else " " ++ " ".intercalate (words.drop 1)
  | .bt => ""
  | .bp => " " ++ " ".intercalate (words.drop 1)

/-- The line that an alias makes. -/
lemma dispatch_expanded (aliasCommand : Alias) {words : List String} (hne : words ≠ [])
    (hline : line.toList = before ++ aliasCommand.name.toList ++ after)
    (hbefore : ∀ c ∈ before, isWhitespace c = true)
    (hafter : ∀ c ∈ after.head?, isWhitespace c = true) (hwords : split line = some words)
    (fuel : Nat) :
    dispatchCommand split motokoProcess (fuel + 1) line =
      dispatchCommand split motokoProcess fuel
        (" ".intercalate (aliasCommand.expansion words) ++ aliasCommand.handsOn words) := by
  cases words with
  | nil => exact absurd rfl hne
  | cons first args =>
    cases aliasCommand with
    | run =>
      apply @dispatch_aliasCommand split line "run" before after runCommand (first :: args)
        (by decide) rfl hline hbefore hafter hwords
      by_cases hargs : args = []
      · subst hargs
        rfl
      · have hlength : (first :: args).length ≠ 1 := by
          simpa using hargs
        rw [runCommand, if_neg hlength, Alias.expansion, if_neg hlength, Alias.handsOn,
          if_neg hlength]
        rfl
    | bt =>
      exact @dispatch_aliasCommand split line "bt" before after backtraceCommand (first :: args)
        (by decide) rfl hline hbefore hafter hwords _ rfl fuel
    | bp =>
      exact @dispatch_aliasCommand split line "bp" before after aliasBpCommand (first :: args)
        (by decide) rfl hline hbefore hafter hwords _ rfl fuel

/-- The command of an alias. -/
def Alias.command : Alias → String
  | .run => "process"
  | .bt => "thread"
  | .bp => "breakpoint"

/-- What stands for an alias is plain and starts with its command. -/
lemma expansion_plain (aliasCommand : Alias) (words : List String) :
    (∀ word ∈ (aliasCommand.frontOf words).map String.toList, Plain word) ∧
      Plain (aliasCommand.lastOf words).toList ∧
      aliasCommand.expansion words = aliasCommand.frontOf words ++ [aliasCommand.lastOf words] ∧
      (aliasCommand.expansion words).head? = some aliasCommand.command := by
  have hconstant : ∀ (command : String) (expansion : List String),
      (∀ word ∈ (expansion.dropLast).map String.toList, Plain word) ∧
        Plain (expansion.getLastD "").toList ∧
        expansion = expansion.dropLast ++ [expansion.getLastD ""] ∧
        expansion.head? = some command →
      aliasCommand.expansion words = expansion → aliasCommand.command = command →
      (∀ word ∈ (aliasCommand.frontOf words).map String.toList, Plain word) ∧
        Plain (aliasCommand.lastOf words).toList ∧
        aliasCommand.expansion words = aliasCommand.frontOf words ++ [aliasCommand.lastOf words] ∧
        (aliasCommand.expansion words).head? = some aliasCommand.command := by
    intro command expansion h hexpansion hcommand
    rw [Alias.frontOf, Alias.lastOf, hexpansion, hcommand]
    exact h
  cases aliasCommand with
  | run =>
    by_cases hbare : words.length = 1
    · exact hconstant "process" ["process", "launch", "init"] (by decide) (if_pos hbare) rfl
    · exact hconstant "process" ["process", "launch"] (by decide) (if_neg hbare) rfl
  | bt => exact hconstant "thread" ["thread", "backtrace"] (by decide) rfl rfl
  | bp => exact hconstant "breakpoint" ["breakpoint"] (by decide) rfl rfl

/-- A line that starts with what stands for an alias. -/
lemma dispatch_expansion (hsplit : SplitsLikeShell split) (aliasCommand : Alias)
    (words : List String) (hline : line.toList =
      before ++ [' '].intercalate ((aliasCommand.expansion words).map String.toList) ++ after)
    (hbefore : ∀ c ∈ before, isWhitespace c = true)
    (hafter : ∀ c ∈ after.head?, isWhitespace c = true) (fuel : Nat) :
    dispatchCommand split motokoProcess (fuel + 1) line =
      some (match ShellWords.split line.toList with
        | some words => .run aliasCommand.command (words.map String.ofList)
        | none => .splitError) := by
  obtain ⟨_, _, _, hhead⟩ := expansion_plain aliasCommand words
  have hmem : aliasCommand.command ∈ motokoProcess.commands := by
    cases aliasCommand <;> decide
  cases hexpansion : aliasCommand.expansion words with
  | nil =>
    rw [hexpansion] at hhead
    cases hhead
  | cons command rest =>
    rw [hexpansion] at hhead hline
    cases hhead
    cases rest with
    | nil =>
      rw [List.map_singleton, List.intercalate_singleton] at hline
      exact dispatch_command hsplit hmem hline hbefore hafter fuel
    | cons other rest =>
      apply dispatch_command hsplit hmem _ hbefore _ fuel
      · exact ' ' :: ([' '].intercalate ((other :: rest).map String.toList) ++ after)
      · rw [hline, List.map_cons, List.map_cons, List.intercalate_cons_cons]
        simp
      · intro c hc
        cases hc
        decide

/-- The words of such a line. -/
lemma split_expansion (aliasCommand : Alias) (words : List String) (rest : List Char) :
    ShellWords.split ([' '].intercalate ((aliasCommand.expansion words).map String.toList) ++ rest) =
      (scan .unquoted (aliasCommand.lastOf words).toList rest).map
        ((aliasCommand.frontOf words).map String.toList ++ ·) := by
  obtain ⟨hfront, hlast, hexpansion, _⟩ := expansion_plain aliasCommand words
  rw [hexpansion, List.map_append]
  exact scan_join_append hfront hlast rest

/-- A word goes on behind white space unless that is a blank. -/
lemma more_eq_nil_iff {rest : List Char} (hrest : ∀ c ∈ rest.head?, isWhitespace c = true)
    {more : Word} {later : List Word} (h : scan .unquoted [] rest = some (more :: later)) :
    more = [] ↔ ∀ c ∈ rest.head?, isBlank c = true := by
  cases rest with
  | nil =>
    cases h
    exact iff_of_true rfl nofun
  | cons c rest =>
    have hc := hrest c rfl
    cases hblank : isBlank c with
    | true =>
      rw [scan_blank [] hblank] at h
      obtain ⟨words, _, heq⟩ := Option.map_eq_some_iff.mp h
      cases heq
      exact iff_of_true rfl (fun d hd => Option.some.inj hd ▸ hblank)
    | false =>
      have hordinary := (ordinary_of_isWhitespace hc hblank).1
      have hscan : scan .unquoted [c] rest = some (more :: later) := by
        rw [← h]
        exact (scan_ordinary (List.forall_mem_singleton.mpr hordinary) [] rest).symm
      obtain ⟨_, _, heq⟩ := scan_unquoted_ne_nil hscan
      cases heq
      refine iff_of_false (by simp) ?_
      intro hall
      rw [hall c rfl] at hblank
      cases hblank

/-- What an alias hands on comes to the given words. -/
lemma split_handsOn (aliasCommand : Alias) (words : List String) :
    ShellWords.split ([' '].intercalate ((aliasCommand.expansion words).map String.toList) ++
        (aliasCommand.handsOn words).toList) =
      if aliasCommand = .bt ∨ (aliasCommand = .run ∧ words.length = 1) then
        some ((aliasCommand.expansion words).map String.toList)
      else (ShellWords.split ([' '].intercalate ((words.drop 1).map String.toList))).map
        ((aliasCommand.expansion words).map String.toList ++ ·) := by
  obtain ⟨_, _, hexpansion, _⟩ := expansion_plain aliasCommand words
  have hbare : ShellWords.split ([' '].intercalate ((aliasCommand.expansion words).map
      String.toList) ++ "".toList) = some ((aliasCommand.expansion words).map String.toList) := by
    rw [split_expansion, hexpansion, List.map_append]
    rfl
  have hjoined : ShellWords.split ([' '].intercalate ((aliasCommand.expansion words).map
      String.toList) ++ (" " ++ " ".intercalate (words.drop 1)).toList) =
        (ShellWords.split ([' '].intercalate ((words.drop 1).map String.toList))).map
          ((aliasCommand.expansion words).map String.toList ++ ·) := by
    have hblank : (" " ++ " ".intercalate (words.drop 1)).toList =
        ' ' :: [' '].intercalate ((words.drop 1).map String.toList) := by
      rw [String.toList_append, String.toList_intercalate]
      rfl
    rw [split_expansion, hblank, scan_blank _ (by rfl), Option.map_map, hexpansion, List.map_append]
    congr 1
    funext rest
    simp
  cases aliasCommand with
  | run =>
    by_cases hlength : words.length = 1
    · rw [if_pos (.inr ⟨rfl, hlength⟩), Alias.handsOn, if_pos hlength]
      exact hbare
    · rw [if_neg (by simp [hlength]), Alias.handsOn, if_neg hlength]
      exact hjoined
  | bt =>
    rw [if_pos (.inl rfl)]
    exact hbare
  | bp =>
    rw [if_neg (by simp)]
    exact hjoined

lemma name_plain (aliasCommand : Alias) :
    Plain aliasCommand.name.toList ∧ Plain aliasCommand.command.toList := by
  cases aliasCommand <;> decide

lemma handsOn_blank (aliasCommand : Alias) (words : List String) :
    ∀ c ∈ (aliasCommand.handsOn words).toList.head?, isWhitespace c = true := by
  have hblank : ∀ text : String, ∀ c ∈ (" " ++ text).toList.head?, isWhitespace c = true := by
    intro text c hc
    rw [String.toList_append] at hc
    cases hc
    decide
  cases aliasCommand with
  | run =>
    rw [Alias.handsOn]
    split
    · exact nofun
    · exact hblank _
  | bt => exact nofun
  | bp => exact hblank _

/-- The text in front of which white space is put starts with a plain word. -/
lemma Puts.plain {state : State} {word : Word} {own : List Word} {start : Word}
    (h : Puts state word before own start) {first : Word} (hfirst : Plain first) (text : List Char) :
    scan state word (before ++ (first ++ text)) =
      (scan .delimiter [] (first ++ text)).map fun words => own ++ extendFirst start words := by
  obtain ⟨hne, hcomment, hordinary⟩ := hfirst
  cases first with
  | nil => exact absurd rfl hne
  | cons c rest =>
    exact h c (rest ++ text) (hordinary c List.mem_cons_self) fun heq => hcomment (congrArg some heq)

/-- What stands for an alias starts with its command. -/
lemma expansion_starts (aliasCommand : Alias) (words : List String) :
    ∃ rest, [' '].intercalate ((aliasCommand.expansion words).map String.toList) =
      aliasCommand.command.toList ++ rest := by
  obtain ⟨_, _, _, hhead⟩ := expansion_plain aliasCommand words
  cases hexpansion : aliasCommand.expansion words with
  | nil =>
    rw [hexpansion] at hhead
    cases hhead
  | cons command rest =>
    rw [hexpansion] at hhead
    cases hhead
    cases rest with
    | nil =>
      rw [List.map_singleton, List.intercalate_singleton]
      exact ⟨[], (List.append_nil _).symm⟩
    | cons other rest =>
      rw [List.map_cons, List.map_cons, List.intercalate_cons_cons, List.append_assoc]
      exact ⟨_, rfl⟩

/-- The first word behind white space that is no blank starts with that. -/
lemma head_of_begins {own words : List Word} {start first word : Word} {c : Char} {rest : List Word}
    (h : own ++ [start] = (c :: word) :: words) :
    ∃ more later, own ++ extendFirst start (first :: rest) = (c :: more) :: later := by
  cases own with
  | nil =>
    obtain ⟨rfl, _⟩ := List.cons.inj h
    exact ⟨word ++ first, rest, rfl⟩
  | cons _ own =>
    obtain ⟨rfl, _⟩ := List.cons.inj h
    exact ⟨word, _, rfl⟩

/-- What an alias makes of its words against what stands for it in its place. -/
lemma words_eq_iff (aliasCommand : Alias) {words : List String} {own later given : List Word}
    {start more : Word} (hbefore : ∀ c ∈ before, isWhitespace c = true)
    (hbegins : Begins before own start) :
    (aliasCommand.expansion words).map String.toList ++ given = own ++ extendFirst start
        ((aliasCommand.frontOf words).map String.toList ++
          ((aliasCommand.lastOf words).toList ++ more) :: later) ↔
      (∀ c ∈ before, isBlank c = true) ∧ more = [] ∧ given = later := by
  obtain ⟨_, _, hexpansion, hhead⟩ := expansion_plain aliasCommand words
  rcases hbegins with ⟨hblanks, rfl, rfl⟩ | ⟨c, word, rest, hc, hother, hfirst⟩
  · have hextend : ∀ (front : List Word) (last : Word),
        [] ++ extendFirst [] (front ++ last :: later) = front ++ last :: later := by
      intro front last
      cases front <;> rfl
    rw [hextend, hexpansion, List.map_append, List.append_assoc, List.append_cancel_left_eq,
      List.map_singleton, List.singleton_append, List.cons.injEq, List.self_eq_append_right,
      and_iff_right hblanks]
  · -- the command has no white space
    apply iff_of_false
    · intro heq
      obtain ⟨first, others, hcons⟩ : ∃ first others, (aliasCommand.frontOf words).map String.toList ++
          ((aliasCommand.lastOf words).toList ++ more) :: later = first :: others := by
        cases (aliasCommand.frontOf words).map String.toList <;> exact ⟨_, _, rfl⟩
      obtain ⟨text, others', htext⟩ := @head_of_begins _ _ _ first _ _ others hfirst
      have hcommand : aliasCommand.command.toList = c :: text := by
        rw [hcons, htext] at heq
        cases hlist : aliasCommand.expansion words with
        | nil =>
          rw [hlist] at hhead
          cases hhead
        | cons command _ =>
          rw [hlist] at hhead heq
          cases hhead
          exact (List.cons.inj heq).1
      have hmem : aliasCommand.command ∈
          motokoProcess.commands ++ motokoProcess.aliases.map Prod.fst := by
        cases aliasCommand <;> decide
      have hplain := (names_plain _ hmem).2.1 c (hcommand ▸ List.mem_cons_self)
      rw [hbefore c hc] at hplain
      cases hplain
    · intro h
      rw [h.1 c hc] at hother
      cases hother

end Dispatch

/-- The lines that an alias passes on as if what it stands for had been written in its place. -/
theorem dispatch_alias_iff {split : String → Option (List String)} (hsplit : SplitsLikeShell split)
    (aliasCommand : Alias) {before after : String} {words : List String}
    (hbefore : ∀ c ∈ before.toList, isWhitespace c = true)
    (hafter : ∀ c ∈ after.toList.head?, isWhitespace c = true)
    (hwords : split (before ++ aliasCommand.name ++ after) = some words) (fuel : Nat) :
    dispatchCommand split motokoProcess (fuel + 2) (before ++ aliasCommand.name ++ after) =
        dispatchCommand split motokoProcess (fuel + 2)
          (before ++ " ".intercalate (aliasCommand.expansion words) ++ after) ↔
      aliasCommand.PassedOn before after words := by
  have hline : (before ++ aliasCommand.name ++ after).toList =
      before.toList ++ aliasCommand.name.toList ++ after.toList := by
    rw [String.toList_append, String.toList_append]
  have hreplaced : (before ++ " ".intercalate (aliasCommand.expansion words) ++ after).toList =
      before.toList ++ [' '].intercalate ((aliasCommand.expansion words).map String.toList) ++
        after.toList := by
    rw [String.toList_append, String.toList_append, String.toList_intercalate]
    rfl
  have hmade : (" ".intercalate (aliasCommand.expansion words) ++ aliasCommand.handsOn words).toList =
      [] ++ [' '].intercalate ((aliasCommand.expansion words).map String.toList) ++
        (aliasCommand.handsOn words).toList := by
    rw [String.toList_append, String.toList_intercalate]
    rfl
  obtain ⟨⟨own, start, hputs, hbegins⟩, _⟩ := scan_whitespace hbefore
  -- the words of the line
  obtain ⟨more, later, hmore, hwordsEq⟩ : ∃ more later,
      scan .unquoted [] after.toList = some (more :: later) ∧ words = (own ++
        (start ++ (aliasCommand.name.toList ++ more)) :: later).map String.ofList := by
    obtain ⟨hname, _⟩ := name_plain aliasCommand
    rw [hsplit, hline, ShellWords.split, List.append_assoc, hputs.plain hname, scan_plain hname]
      at hwords
    obtain ⟨lineWords, hscan, rfl⟩ := Option.map_eq_some_iff.mp hwords
    obtain ⟨wordsAfter, hscanAfter, rfl⟩ := Option.map_eq_some_iff.mp hscan
    obtain ⟨more, later, hmore, rfl⟩ := scan_unquoted_rest hscanAfter
    exact ⟨more, later, hmore, rfl⟩
  have hne : words ≠ [] := by
    rw [hwordsEq]
    simp
  -- the words of the line with the alias replaced
  have hsplitReplaced : ShellWords.split (before ++ " ".intercalate (aliasCommand.expansion words) ++
      after).toList = some (own ++ extendFirst start ((aliasCommand.frontOf words).map String.toList ++
        ((aliasCommand.lastOf words).toList ++ more) :: later)) := by
    obtain ⟨_, hcommand⟩ := name_plain aliasCommand
    obtain ⟨rest, hrest⟩ := expansion_starts aliasCommand words
    have hjoined := split_expansion aliasCommand words after.toList
    rw [ShellWords.split, hrest, List.append_assoc] at hjoined
    rw [hreplaced, hrest, ShellWords.split, List.append_assoc, List.append_assoc,
      hputs.plain hcommand, hjoined, scan_inWord inWord_unquoted, hmore]
    rfl
  rw [dispatch_expanded aliasCommand hne hline hbefore hafter hwords,
    dispatch_expansion hsplit aliasCommand words hmade (List.forall_mem_nil _)
      (handsOn_blank _ _),
    dispatch_expansion hsplit aliasCommand words hreplaced hbefore hafter, hsplitReplaced, hmade,
    List.nil_append, split_handsOn]
  have hdrop : (∀ c ∈ before.toList, isBlank c = true) →
      (words.drop 1).map String.toList = later := by
    intro hblanks
    rcases hbegins with ⟨_, rfl, rfl⟩ | ⟨c, _, _, hc, hother, _⟩
    · rw [hwordsEq, ← List.map_drop, List.map_map]
      show later.map (String.toList ∘ String.ofList) = later
      have hid : String.toList ∘ String.ofList = id := funext fun _ => String.toList_ofList
      rw [hid, List.map_id]
    · rw [hblanks c hc] at hother
      cases hother
  have hequal : ∀ given : List Word,
      some (Dispatched.run aliasCommand.command
        (((aliasCommand.expansion words).map String.toList ++ given).map String.ofList)) =
        some (.run aliasCommand.command ((own ++ extendFirst start
          ((aliasCommand.frontOf words).map String.toList ++
            ((aliasCommand.lastOf words).toList ++ more) :: later)).map String.ofList)) ↔
      (∀ c ∈ before.toList, isBlank c = true) ∧ more = [] ∧ given = later := by
    intro given
    have hinjective : Function.Injective (List.map String.ofList) :=
      List.map_injective_iff.mpr fun _ _ => String.ofList_injective
    rw [← words_eq_iff aliasCommand hbefore hbegins, Option.some.injEq, Dispatched.run.injEq,
      hinjective.eq_iff]
    exact and_iff_right rfl
  by_cases hbare : aliasCommand = .bt ∨ (aliasCommand = .run ∧ words.length = 1)
  · rw [if_pos hbare, ← List.append_nil ((aliasCommand.expansion words).map String.toList)]
    show some (Dispatched.run aliasCommand.command _) = _ ↔ _
    rw [hequal []]
    constructor
    · intro h
      obtain ⟨hblanks, hmoreNil, hlater⟩ := h
      have hnil : words.drop 1 = [] := by
        rw [← List.map_eq_nil_iff, hdrop hblanks, ← hlater]
      exact ⟨hblanks, (more_eq_nil_iff hafter hmore).mp hmoreNil, by rw [hnil]; trivial, fun _ => hnil⟩
    · intro h
      have hnil : words.drop 1 = [] := by
        rcases hbare with hbt | ⟨_, hone⟩
        · exact h.bare hbt
        · exact List.drop_eq_nil_of_le hone.le
      refine ⟨h.blanksBefore, (more_eq_nil_iff hafter hmore).mpr h.blankAfter, ?_⟩
      rw [← hdrop h.blanksBefore, hnil]
      rfl
  · rw [if_neg hbare]
    cases hgiven : ShellWords.split ([' '].intercalate ((words.drop 1).map String.toList)) with
    | none =>
      apply iff_of_false nofun
      intro h
      rw [scan_join_iff.mpr h.plain] at hgiven
      cases hgiven
    | some given =>
      show some (Dispatched.run aliasCommand.command _) = _ ↔ _
      rw [hequal given]
      constructor
      · intro h
        obtain ⟨hblanks, hmoreNil, rfl⟩ := h
        refine ⟨hblanks, (more_eq_nil_iff hafter hmore).mp hmoreNil, ?_, fun hbt => absurd (.inl hbt) hbare⟩
        rw [hdrop hblanks] at hgiven ⊢
        exact scan_join_iff.mp hgiven
      · intro h
        refine ⟨h.blanksBefore, (more_eq_nil_iff hafter hmore).mpr h.blankAfter, ?_⟩
        rw [scan_join_iff.mpr h.plain] at hgiven
        rw [← hdrop h.blanksBefore]
        exact (Option.some.inj hgiven).symm

/-- A splitter by the rules of a shell. -/
def shellSplit (line : String) : Option (List String) :=
  (ShellWords.split line.toList).map fun words => words.map String.ofList

theorem dispatch_alias_iff_bp :
    dispatchCommand shellSplit motokoProcess 2 ("" ++ Alias.bp.name ++ " list") =
        dispatchCommand shellSplit motokoProcess 2
          ("" ++ " ".intercalate (Alias.bp.expansion ["bp", "list"]) ++ " list") ↔
      Alias.bp.PassedOn "" " list" ["bp", "list"] := by
  have hafter : ∀ c ∈ " list".toList.head?, isWhitespace c = true := by
    intro c hc
    rw [← Option.some.inj hc]
    rfl
  exact dispatch_alias_iff (fun _ => rfl) .bp (by decide) hafter (by decide) 0

/-- A quoted blank is not quoted again. -/
theorem dispatch_alias_quoted :
    ¬∀ (split : String → Option (List String)) (aliasCommand : Alias) (before after : String)
      (words : List String) (fuel : Nat), SplitsLikeShell split →
        (∀ c ∈ before.toList, isWhitespace c = true) →
        (∀ c ∈ after.toList.head?, isWhitespace c = true) →
        split (before ++ aliasCommand.name ++ after) = some words →
          dispatchCommand split motokoProcess (fuel + 2) (before ++ aliasCommand.name ++ after) =
            dispatchCommand split motokoProcess (fuel + 2)
              (before ++ " ".intercalate (aliasCommand.expansion words) ++ after) := by
  intro h
  have hafter : ∀ c ∈ " 'a b'".toList.head?, isWhitespace c = true := by
    intro c hc
    rw [← Option.some.inj hc]
    rfl
  have hquoted := h shellSplit .run "" " 'a b'" ["run", "a b"] 0 (fun _ => rfl) (by decide) hafter
    (by decide)
  exact absurd hquoted (by decide +kernel)

end Debugger

end MotokoDebugger
