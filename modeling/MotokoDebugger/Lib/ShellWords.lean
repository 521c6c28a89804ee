import Mathlib.Algebra.Ring.Nat
import Mathlib.Tactic.Common
import Mathlib.Data.List.Basic

/-!
# Words of a shell

The rules by which a POSIX shell splits a line into words, with quote removal and comments but
without expansions or operators.

* `scan`: the words of the rest of a line, from a state on.
* `scan_join_iff`: the words that are found again in the line that joins them with blanks.
-/

namespace ShellWords

abbrev Word := List Char

/-- Going through a list decides about its characters, where going through all characters is out of
the question. -/
instance (priority := high) decidableForallMem {p : Char → Prop} [DecidablePred p]
    (l : List Char) : Decidable (∀ c ∈ l, p c) := List.decidableBAll p l

/-- Between words, in a word, inside of quotes, behind a backslash, and in a comment. -/
inductive State where
  | delimiter | backslash | unquoted | unquotedBackslash
  | singleQuoted | doubleQuoted | doubleQuotedBackslash | comment
deriving Repr, DecidableEq

def singleQuote : Char := '\x27'

def doubleQuote : Char := '\x22'

def backslash : Char := '\x5c'

def backtick : Char := '\x60'

/-- The characters that separate words. -/
def isBlank (c : Char) : Bool := c = ' ' ∨ c = '\t' ∨ c = '\n'

/-- The words a character completes, and the state and the word after it. -/
structure Step where
  emits : List Word
  state : State
  word : Word

/-- The effect of a character. -/
def next (state : State) (word : Word) (c : Char) : Step :=
  match state with
  | .delimiter =>
    if c = singleQuote then ⟨[], .singleQuoted, word⟩
    else if c = doubleQuote then ⟨[], .doubleQuoted, word⟩
    else if c = backslash then ⟨[], .backslash, word⟩
    else if isBlank c then ⟨[], .delimiter, word⟩
    else if c = '#' then ⟨[], .comment, word⟩
    else ⟨[], .unquoted, word ++ [c]⟩
  | .backslash =>
    if c = '\n' then ⟨[], .delimiter, word⟩ else ⟨[], .unquoted, word ++ [c]⟩
  | .unquoted =>
    if c = singleQuote then ⟨[], .singleQuoted, word⟩
    else if c = doubleQuote then ⟨[], .doubleQuoted, word⟩
    else if c = backslash then ⟨[], .unquotedBackslash, word⟩
    else if isBlank c then ⟨[word], .delimiter, []⟩
    else ⟨[], .unquoted, word ++ [c]⟩
  | .unquotedBackslash =>
    if c = '\n' then ⟨[], .unquoted, word⟩ else ⟨[], .unquoted, word ++ [c]⟩
  | .singleQuoted =>
    if c = singleQuote then ⟨[], .unquoted, word⟩ else ⟨[], .singleQuoted, word ++ [c]⟩
  | .doubleQuoted =>
    if c = doubleQuote then ⟨[], .unquoted, word⟩
    else if c = backslash then ⟨[], .doubleQuotedBackslash, word⟩
    else ⟨[], .doubleQuoted, word ++ [c]⟩
  | .doubleQuotedBackslash =>
    if c = '\n' then ⟨[], .doubleQuoted, word⟩
    else if c = '$' ∨ c = backtick ∨ c = doubleQuote ∨ c = backslash then
      ⟨[], .doubleQuoted, word ++ [c]⟩
    else ⟨[], .doubleQuoted, word ++ [backslash, c]⟩
  | .comment =>
    if c = '\n' then ⟨[], .delimiter, word⟩ else ⟨[], .comment, word⟩

/-- The words at the end of the line; quotes must be closed. -/
def finish (state : State) (word : Word) : Option (List Word) :=
  match state with
  | .delimiter | .comment => some []
  | .backslash | .unquotedBackslash => some [word ++ [backslash]]
  | .unquoted => some [word]
  | .singleQuoted | .doubleQuoted | .doubleQuotedBackslash => none

/-- The words of the rest of a line, if its quotes are closed. -/
def scan (state : State) (word : Word) : List Char → Option (List Word)
  | [] => finish state word
  | c :: cs =>
    let step := next state word c
    (scan step.state step.word cs).map (step.emits ++ ·)

/-- The words of a line. -/
def split (line : List Char) : Option (List Word) := scan .delimiter [] line

/-! ## Plain words -/

/-- A character that stands for itself within a word. -/
def Ordinary (c : Char) : Prop :=
  c ≠ singleQuote ∧ c ≠ doubleQuote ∧ c ≠ backslash ∧ isBlank c = false

instance (c : Char) : Decidable (Ordinary c) := inferInstanceAs (Decidable (_ ∧ _))

/-- A word that stands for itself: of ordinary characters, and not the start of a comment. -/
def Plain (word : Word) : Prop :=
  word ≠ [] ∧ word.head? ≠ some '#' ∧ ∀ c ∈ word, Ordinary c

instance (word : Word) : Decidable (Plain word) := inferInstanceAs (Decidable (_ ∧ _))

/-- At the end of a line also a backslash stands for itself. -/
def PlainLast (word : Word) : Prop :=
  Plain word ∨ ∃ front, word = front ++ [backslash] ∧ (front = [] ∨ Plain front)

/-- Words that stand for themselves, one behind the other. -/
def AllPlain : List Word → Prop
  | [] => True
  | [word] => PlainLast word
  | word :: words => Plain word ∧ AllPlain words

lemma next_unquoted {word : Word} {c : Char} (h : Ordinary c) :
    next .unquoted word c = ⟨[], .unquoted, word ++ [c]⟩ := by
  obtain ⟨hsingle, hdouble, hbackslash, hblank⟩ := h
  simp [next, hsingle, hdouble, hbackslash, hblank]

lemma next_delimiter {word : Word} {c : Char} (h : Ordinary c) (hcomment : c ≠ '#') :
    next .delimiter word c = ⟨[], .unquoted, word ++ [c]⟩ := by
  obtain ⟨hsingle, hdouble, hbackslash, hblank⟩ := h
  simp [next, hsingle, hdouble, hbackslash, hblank, hcomment]

/-- Ordinary characters extend a word. -/
lemma scan_ordinary {chars : List Char} (h : ∀ c ∈ chars, Ordinary c) (word : Word)
    (rest : List Char) : scan .unquoted word (chars ++ rest) = scan .unquoted (word ++ chars) rest := by
  induction chars generalizing word with
  | nil => rw [List.nil_append, List.append_nil]
  | cons c chars ih =>
    rw [List.forall_mem_cons] at h
    rw [List.cons_append, scan, next_unquoted h.1]
    show (scan .unquoted (word ++ [c]) (chars ++ rest)).map ([] ++ ·) = _
    rw [ih h.2, List.append_assoc]
    exact Option.map_id'

lemma plain_singleton {c : Char} (h : Ordinary c) (hcomment : c ≠ '#') : Plain [c] := by
  refine ⟨List.cons_ne_nil _ _, ?_, List.forall_mem_singleton.mpr h⟩
  exact fun heq => hcomment (Option.some.inj heq)

/-- A plain word is read. -/
lemma scan_plain {word : Word} (h : Plain word) (rest : List Char) :
    scan .delimiter [] (word ++ rest) = scan .unquoted word rest := by
  obtain ⟨hne, hcomment, hordinary⟩ := h
  cases word with
  | nil => exact absurd rfl hne
  | cons c chars =>
    rw [List.forall_mem_cons] at hordinary
    have hc : c ≠ '#' := fun heq => hcomment (congrArg some heq)
    rw [List.cons_append, scan, next_delimiter hordinary.1 hc]
    show (scan .unquoted [c] (chars ++ rest)).map ([] ++ ·) = _
    rw [scan_ordinary hordinary.2]
    exact Option.map_id'

/-- A blank completes a word. -/
lemma scan_blank (word : Word) {c : Char} (h : isBlank c) (rest : List Char) :
    scan .unquoted word (c :: rest) = (scan .delimiter [] rest).map (word :: ·) := by
  have hnext : next .unquoted word c = ⟨[word], .delimiter, []⟩ := by
    have hc : c = ' ' ∨ c = '\t' ∨ c = '\n' := of_decide_eq_true h
    rcases hc with rfl | rfl | rfl <;> rfl
  rw [scan, hnext]
  rfl

/-- Blanks between words are skipped. -/
lemma scan_blanks {blanks : List Char} (h : ∀ c ∈ blanks, isBlank c) (rest : List Char) :
    scan .delimiter [] (blanks ++ rest) = scan .delimiter [] rest := by
  induction blanks with
  | nil => rfl
  | cons c blanks ih =>
    rw [List.forall_mem_cons] at h
    have hnext : next .delimiter [] c = ⟨[], .delimiter, []⟩ := by
      have hc : c = ' ' ∨ c = '\t' ∨ c = '\n' := of_decide_eq_true h.1
      rcases hc with rfl | rfl | rfl <;> rfl
    rw [List.cons_append, scan, hnext]
    show (scan .delimiter [] (blanks ++ rest)).map ([] ++ ·) = _
    rw [ih h.2]
    exact Option.map_id'

/-! ## Joined words -/

lemma allPlain_cons {word : Word} {words : List Word} (h : words ≠ []) :
    AllPlain (word :: words) ↔ Plain word ∧ AllPlain words := by
  cases words with
  | nil => exact absurd rfl h
  | cons _ _ => rfl

/-- The last word ends with the line. -/
lemma scan_plainLast {word : Word} (h : PlainLast word) :
    scan .delimiter [] word = some [word] := by
  rcases h with hplain | ⟨front, rfl, rfl | hfront⟩
  · have hscan := scan_plain hplain []
    rw [List.append_nil] at hscan
    rw [hscan]
    rfl
  · rfl
  · rw [scan_plain hfront]
    rfl

/-- Plain words are found again. -/
lemma scan_join {words : List Word} (h : AllPlain words) :
    scan .delimiter [] ([' '].intercalate words) = some words := by
  induction words with
  | nil => rfl
  | cons word words ih =>
    cases words with
    | nil =>
      rw [List.intercalate_singleton]
      exact scan_plainLast h
    | cons other words =>
      rw [allPlain_cons (List.cons_ne_nil _ _)] at h
      rw [List.intercalate_cons_cons, List.append_assoc, scan_plain h.1, List.singleton_append,
        scan_blank word (by rfl), ih h.2]
      rfl

/-- Plain words in front of a line. -/
lemma scan_join_append {front : List Word} (hfront : ∀ word ∈ front, Plain word) {last : Word}
    (hlast : Plain last) (rest : List Char) :
    scan .delimiter [] ([' '].intercalate (front ++ [last]) ++ rest) =
      (scan .unquoted last rest).map (front ++ ·) := by
  induction front with
  | nil =>
    rw [List.nil_append, List.intercalate_singleton, scan_plain hlast]
    exact Option.map_id'.symm
  | cons word front ih =>
    rw [List.forall_mem_cons] at hfront
    have hjoin : [' '].intercalate (word :: (front ++ [last])) =
        word ++ ' ' :: [' '].intercalate (front ++ [last]) := by
      cases hrest : front ++ [last] with
      | nil => simp at hrest
      | cons other words =>
        rw [List.intercalate_cons_cons, List.append_assoc]
        rfl
    rw [List.cons_append, hjoin, List.append_assoc, scan_plain hfront.1, List.cons_append,
      scan_blank word (by rfl), ih hfront.2, Option.map_map]
    rfl

/-- The characters of words, and one for the end of each. -/
def size (words : List Word) : Nat := (words.map fun word => word.length + 1).sum

@[simp] lemma size_nil : size [] = 0 := rfl

@[simp] lemma size_cons (word : Word) (words : List Word) :
    size (word :: words) = word.length + 1 + size words := by
  rw [size, List.map_cons, List.sum_cons]
  rfl

lemma size_append (words words' : List Word) : size (words ++ words') = size words + size words' := by
  rw [size, List.map_append, List.sum_append]
  rfl

/-- Joined words are as long as the words, with a blank for each end but the last. -/
lemma length_join {words : List Word} (h : words ≠ []) :
    ([' '].intercalate words).length + 1 = size words := by
  induction words with
  | nil => exact absurd rfl h
  | cons word words ih =>
    cases words with
    | nil =>
      rw [List.intercalate_singleton]
      simp
    | cons other words =>
      have hrest := ih (List.cons_ne_nil _ _)
      rw [List.intercalate_cons_cons, size_cons, ← hrest, List.length_append, List.length_append]
      simp
      omega

/-- What may still come of a state, besides the rest of the line: the word, its end, and a backslash
that may turn out to stand for itself. -/
def pending (state : State) (word : Word) : Nat :=
  match state with
  | .backslash | .unquotedBackslash | .doubleQuotedBackslash => word.length + 2
  | _ => word.length + 1

lemma size_finish {state : State} {word : Word} {words : List Word}
    (h : finish state word = some words) : size words ≤ pending state word := by
  cases state <;> cases h <;> simp [pending]

/-- No character yields more than itself. -/
lemma size_next (state : State) (word : Word) (c : Char) :
    size (next state word c).emits + pending (next state word c).state (next state word c).word ≤
      pending state word + 1 := by
  cases state <;> simp only [next] <;> repeat' split
  all_goals simp [pending]

/-- The words of a line are no longer than the line. -/
lemma size_scan {state : State} {word : Word} {rest : List Char} {words : List Word}
    (h : scan state word rest = some words) : size words ≤ rest.length + pending state word := by
  induction rest generalizing state word words with
  | nil =>
    have hfinish := size_finish h
    simpa using hfinish
  | cons c rest ih =>
    obtain ⟨later, hlater, rfl⟩ := Option.map_eq_some_iff.mp h
    have hnext := size_next state word c
    have hrest := ih hlater
    rw [size_append, List.length_cons]
    omega

/-- The word and the character are as long as what they yield. -/
def Lossless (state : State) (word : Word) (c : Char) : Prop :=
  pending state word + 1 =
    size (next state word c).emits + pending (next state word c).state (next state word c).word

/-- Between words this is a backslash or the first character of a word. -/
lemma lossless_delimiter {c : Char} (h : Lossless .delimiter [] c) :
    next .delimiter [] c = ⟨[], .backslash, []⟩ ∨
      next .delimiter [] c = ⟨[], .unquoted, [c]⟩ ∧ Plain [c] := by
  unfold Lossless next at h
  unfold next
  by_cases hsingle : c = singleQuote
  · simp [hsingle, pending] at h
  · by_cases hdouble : c = doubleQuote
    · simp [hdouble, pending, doubleQuote, singleQuote] at h
    · by_cases hbackslash : c = backslash
      · simp [hbackslash, backslash, singleQuote, doubleQuote]
      · cases hblank : isBlank c with
        | true => simp [hsingle, hdouble, hbackslash, hblank, pending] at h
        | false =>
          by_cases hcomment : c = '#'
          · simp [hcomment, singleQuote, doubleQuote, backslash, pending, isBlank] at h
          · simp [hsingle, hdouble, hbackslash, hblank, hcomment, Plain, Ordinary]

/-- In a word it is a backslash, a blank or an ordinary character. -/
lemma lossless_unquoted {word : Word} {c : Char} (h : Lossless .unquoted word c) :
    next .unquoted word c = ⟨[], .unquotedBackslash, word⟩ ∨
      next .unquoted word c = ⟨[word], .delimiter, []⟩ ∨
        next .unquoted word c = ⟨[], .unquoted, word ++ [c]⟩ ∧ Ordinary c := by
  unfold Lossless next at h
  unfold next
  by_cases hsingle : c = singleQuote
  · simp [hsingle, pending] at h
  · by_cases hdouble : c = doubleQuote
    · simp [hdouble, pending, doubleQuote, singleQuote] at h
    · by_cases hbackslash : c = backslash
      · simp [hbackslash, backslash, singleQuote, doubleQuote]
      · cases hblank : isBlank c with
        | true => simp [hsingle, hdouble, hbackslash]
        | false => simp [hsingle, hdouble, hbackslash, hblank, Ordinary]

/-- A backslash that stands for itself ends the line. -/
lemma not_lossless_backslash {word : Word} {c : Char} :
    ¬Lossless .backslash word c ∧ ¬Lossless .unquotedBackslash word c := by
  unfold Lossless next
  by_cases hnewline : c = '\n' <;> simp [hnewline, pending]

/-- Where the words are as long as the line, all its characters are. -/
lemma scan_lossless {state : State} {word : Word} {c : Char} {rest : List Char} {words : List Word}
    (h : scan state word (c :: rest) = some words)
    (hsize : size words = (c :: rest).length + pending state word) :
    Lossless state word c ∧ ∃ later, words = (next state word c).emits ++ later ∧
      scan (next state word c).state (next state word c).word rest = some later ∧
      size later = rest.length + pending (next state word c).state (next state word c).word := by
  obtain ⟨later, hlater, rfl⟩ := Option.map_eq_some_iff.mp h
  have hnext := size_next state word c
  have hrest := size_scan hlater
  rw [size_append, List.length_cons] at hsize
  refine ⟨?_, later, rfl, hlater, ?_⟩
  · unfold Lossless
    omega
  · omega

lemma plain_append {word : Word} {c : Char} (h : Plain word) (hc : Ordinary c) :
    Plain (word ++ [c]) := by
  obtain ⟨hne, hcomment, hordinary⟩ := h
  refine ⟨by simp, ?_, ?_⟩
  · rw [List.head?_append_of_ne_nil _ hne]
    exact hcomment
  · rw [List.forall_mem_append, List.forall_mem_singleton]
    exact ⟨hordinary, hc⟩

/-- Words that are as long as their line stand for themselves. -/
lemma allPlain_of_size (rest : List Char) :
    (∀ words, scan .delimiter [] rest = some words → size words = rest.length + 1 →
      AllPlain words ∧ words ≠ []) ∧
    ∀ word words, Plain word → scan .unquoted word rest = some words →
      size words = rest.length + (word.length + 1) → AllPlain words ∧ words ≠ [] := by
  induction rest with
  | nil =>
    constructor
    · intro words h hsize
      cases h
      simp at hsize
    · intro word words hplain h hsize
      cases h
      exact ⟨.inl hplain, List.cons_ne_nil _ _⟩
  | cons c rest ih =>
    -- after a backslash the line is at its end
    have hbackslash : ∀ word words, word = [] ∨ Plain word →
        scan .backslash word rest = some words ∨ scan .unquotedBackslash word rest = some words →
          size words = rest.length + (word.length + 2) → AllPlain words ∧ words ≠ [] := by
      intro word words hword h hsize
      cases rest with
      | nil =>
        have hwords : words = [word ++ [backslash]] := by
          rcases h with h | h <;> cases h <;> rfl
        rw [hwords]
        exact ⟨.inr ⟨word, rfl, hword⟩, List.cons_ne_nil _ _⟩
      | cons d rest =>
        rcases h with h | h
        · exact absurd (scan_lossless h hsize).1 not_lossless_backslash.1
        · exact absurd (scan_lossless h hsize).1 not_lossless_backslash.2
    constructor
    · intro words h hsize
      obtain ⟨hlossless, later, rfl, hlater, hsizeLater⟩ := scan_lossless h hsize
      rcases lossless_delimiter hlossless with hnext | ⟨hnext, hplain⟩
      · rw [hnext] at hlater hsizeLater ⊢
        exact hbackslash [] later (.inl rfl) (.inl hlater) hsizeLater
      · rw [hnext] at hlater hsizeLater ⊢
        exact ih.2 [c] later hplain hlater hsizeLater
    · intro word words hplain h hsize
      obtain ⟨hlossless, later, rfl, hlater, hsizeLater⟩ := scan_lossless h hsize
      rcases lossless_unquoted hlossless with hnext | hnext | ⟨hnext, hordinary⟩
      · rw [hnext] at hlater hsizeLater ⊢
        exact hbackslash word later (.inr hplain) (.inr hlater) hsizeLater
      · rw [hnext] at hlater hsizeLater ⊢
        obtain ⟨hall, hne⟩ := ih.1 later hlater hsizeLater
        exact ⟨(allPlain_cons hne).mpr ⟨hplain, hall⟩, List.cons_ne_nil _ _⟩
      · rw [hnext] at hlater hsizeLater ⊢
        exact ih.2 _ later (plain_append hplain hordinary) hlater hsizeLater

/-- The words that are found again in the line that joins them are those that stand for
themselves. -/
theorem scan_join_iff {words : List Word} :
    split ([' '].intercalate words) = some words ↔ AllPlain words := by
  constructor
  · intro h
    by_cases hne : words = []
    · rw [hne]
      trivial
    · exact ((allPlain_of_size _).1 words h (length_join hne).symm).1
  · exact scan_join

/-! ## Words that go on -/

/-- The words, the first of them behind what there is of it. -/
def extendFirst (word : Word) : List Word → List Word
  | [] => [word]
  | first :: words => (word ++ first) :: words

/-- In a word, or inside of quotes. -/
def State.InWord (state : State) : Prop :=
  state ≠ .delimiter ∧ state ≠ .backslash ∧ state ≠ .comment

/-- What a character does to a word does not depend on the word. -/
lemma next_inWord {state : State} (h : state.InWord) (word : Word) (c : Char) :
    (next state [] c = ⟨[[]], .delimiter, []⟩ ∧ next state word c = ⟨[word], .delimiter, []⟩) ∨
      ∃ state' more, state'.InWord ∧ next state [] c = ⟨[], state', more⟩ ∧
        next state word c = ⟨[], state', word ++ more⟩ := by
  obtain ⟨hdelimiter, hbackslash, hcomment⟩ := h
  cases state <;> simp only [next] <;> try contradiction
  all_goals repeat' split
  all_goals simp [State.InWord]

/-- The rest of a line goes on with any word in the same way. -/
lemma scan_inWord {state : State} (h : state.InWord) (word : Word) (rest : List Char) :
    scan state word rest = (scan state [] rest).map (extendFirst word) := by
  induction rest generalizing state word with
  | nil =>
    obtain ⟨hdelimiter, hbackslash, hcomment⟩ := h
    cases state <;> first | contradiction | simp [scan, finish, extendFirst]
  | cons c rest ih =>
    rw [scan, scan]
    rcases next_inWord h word c with ⟨hnil, hnext⟩ | ⟨state', more, hstate', hnil, hnext⟩
    · rw [hnil, hnext, Option.map_map]
      congr 1
      funext words
      simp [extendFirst]
    · rw [hnil, hnext, ih hstate' (word ++ more), ih hstate' more, Option.map_map, Option.map_map,
        Option.map_map]
      congr 1
      funext words
      cases words <;> simp [extendFirst]

lemma inWord_unquoted : State.unquoted.InWord := ⟨nofun, nofun, nofun⟩

/-- A word that has begun has an end. -/
lemma scan_unquoted_ne_nil {word : Word} {rest : List Char} {words : List Word}
    (h : scan .unquoted word rest = some words) : ∃ more later, words = (word ++ more) :: later := by
  rw [scan_inWord inWord_unquoted] at h
  obtain ⟨first, _, rfl⟩ := Option.map_eq_some_iff.mp h
  cases first with
  | nil => exact ⟨[], [], by rw [List.append_nil]; rfl⟩
  | cons more later => exact ⟨more, later, rfl⟩

/-- How a word goes on. -/
lemma scan_unquoted_rest {word : Word} {rest : List Char} {words : List Word}
    (h : scan .unquoted word rest = some words) :
    ∃ more later, scan .unquoted [] rest = some (more :: later) ∧ words = (word ++ more) :: later := by
  rw [scan_inWord inWord_unquoted] at h
  obtain ⟨first, hfirst, rfl⟩ := Option.map_eq_some_iff.mp h
  obtain ⟨more, later, rfl⟩ := scan_unquoted_ne_nil hfirst
  exact ⟨more, later, hfirst, rfl⟩

end ShellWords
