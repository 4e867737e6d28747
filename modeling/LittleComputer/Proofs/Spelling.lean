import LittleComputer.Installer
import LittleComputer.Proofs.Reading
import Mathlib.Data.List.Infix
import Mathlib.Data.List.Nodup
import Mathlib.Data.List.TakeWhile

/-! How the installer's options are spelled. No two of their words begin alike, so two dashes and any
beginning of a word stand for one option. What is given to an option follows an equals sign or is
the next argument, provided that this cannot be taken for an option itself. -/
namespace LittleComputer.Installer

open Arguments

def helpChoice : Choice Setting := { letter := some 'h', word := "help", effect := .help }

def userChoice : Choice Setting := { word := "user", effect := .set .forUser, exclusive := true }

def systemChoice : Choice Setting :=
  { word := "sys-prefix", effect := .set .forSystem, exclusive := true }

def directoryChoice : Choice Setting :=
  { word := "prefix", effect := .setTo .into, exclusive := true }

theorem choices_grammar :
    grammar.choices = [helpChoice, userChoice, systemChoice, directoryChoice] := rfl

theorem mem_choices {c : Choice Setting} : c ∈ grammar.choices ↔
    c = helpChoice ∨ c = userChoice ∨ c = systemChoice ∨ c = directoryChoice := by
  simp [choices_grammar]

theorem eq_of_common_beginning {c d : Choice Setting} (here : c ∈ grammar.choices)
    (there : d ∈ grammar.choices) {word : String} (some_char : word ≠ "")
    (begins : word.toList <+: c.word.toList) (begins' : word.toList <+: d.word.toList) : c = d := by
  obtain ⟨first, rest, spelled⟩ :=
    List.exists_cons_of_ne_nil fun none => some_char (String.toList_eq_nil_iff.mp none)
  rw [spelled] at begins begins'
  rw [mem_choices] at here there
  rcases here with rfl | rfl | rfl | rfl <;> rcases there with rfl | rfl | rfl | rfl <;>
    simp_all [helpChoice, userChoice, systemChoice, directoryChoice, List.cons_prefix_cons]

theorem nodup_choices : grammar.choices.Nodup := by
  have words : (grammar.choices.map Choice.word).Nodup := by decide
  exact List.Nodup.of_map Choice.word words

theorem startsWith_iff (c : Choice Setting) (word : String) :
    c.word.startsWith word = true ↔ word.toList <+: c.word.toList :=
  String.startsWith_string_iff

/-- A word stands for the one option that it is a beginning of. -/
theorem byWord_eq_singleton_iff {word : String} {c : Choice Setting} :
    grammar.byWord word = [c] ↔
      c ∈ grammar.choices ∧ word ≠ "" ∧ word.toList <+: c.word.toList := by
  have words_ne : ∀ d ∈ grammar.choices, d.word ≠ "" := by decide
  constructor
  · intro only
    unfold Grammar.byWord at only
    split at only
    next d whole =>
      obtain rfl : d = c := (List.cons.inj only).1
      obtain rfl : d.word = word := by simpa using List.find?_some whole
      have member := List.mem_of_find?_eq_some whole
      exact ⟨member, words_ne d member, List.prefix_refl _⟩
    next =>
      have found : c ∈ grammar.choices.filter (·.word.startsWith word) := by
        rw [only]
        exact List.mem_singleton_self c
      obtain ⟨member, starts⟩ := List.mem_filter.mp found
      refine ⟨member, ?_, (startsWith_iff c word).mp starts⟩
      rintro rfl
      have all : grammar.choices.filter (·.word.startsWith "") = grammar.choices :=
        List.filter_eq_self.mpr fun d _ => (startsWith_iff d "").mpr List.nil_prefix
      have four := congrArg List.length (all.symm.trans only)
      simp [choices_grammar] at four
  · rintro ⟨member, some_char, begins⟩
    unfold Grammar.byWord
    split
    next d whole =>
      obtain rfl : d.word = word := by simpa using List.find?_some whole
      rw [eq_of_common_beginning member (List.mem_of_find?_eq_some whole) some_char begins
        (List.prefix_refl _)]
    next =>
      have found : c ∈ grammar.choices.filter (·.word.startsWith word) :=
        List.mem_filter.mpr ⟨member, (startsWith_iff c word).mpr begins⟩
      have alike : ∀ d ∈ grammar.choices.filter (·.word.startsWith word), d = c := by
        intro d other
        obtain ⟨there, starts⟩ := List.mem_filter.mp other
        exact eq_of_common_beginning there member some_char ((startsWith_iff d word).mp starts) begins
      have distinct := nodup_choices.filter (·.word.startsWith word)
      exact List.perm_singleton.mp
        ((List.perm_ext_iff_of_nodup distinct (List.nodup_singleton c)).mpr fun d =>
          ⟨fun other => List.mem_singleton.mpr (alike d other),
            fun same => List.mem_singleton.mp same ▸ found⟩)

theorem byWord_eq_nil_iff {word : String} :
    grammar.byWord word = [] ↔ ∀ c ∈ grammar.choices, ¬ word.toList <+: c.word.toList := by
  unfold Grammar.byWord
  split
  next d whole =>
    obtain rfl : d.word = word := by simpa using List.find?_some whole
    have member := List.mem_of_find?_eq_some whole
    exact iff_of_false (List.cons_ne_nil _ _) fun none => none d member (List.prefix_refl _)
  next => simp only [List.filter_eq_nil_iff, startsWith_iff]

theorem no_equals_of_begins {c : Choice Setting} (member : c ∈ grammar.choices) {word : String}
    (begins : word.toList <+: c.word.toList) : '=' ∉ word.toList := by
  have words : ∀ d ∈ grammar.choices, '=' ∉ d.word.toList := by decide
  exact fun inside => words c member (begins.subset inside)

/-- A word's value as it is written after the word. -/
def valueText : Option String → String
  | none => ""
  | some value => "=" ++ value

theorem splitValue_append {word : String} (solid : '=' ∉ word.toList) (value : Option String) :
    Grammar.splitValue (word.toList ++ (valueText value).toList) = (word, value) := by
  have passed : ∀ letter ∈ word.toList, (letter != '=') = true := by
    intro letter inside
    rw [bne_iff_ne]
    rintro rfl
    exact solid inside
  cases value with
  | none => simp [Grammar.splitValue, valueText, List.takeWhile_eq_self_iff.mpr passed,
      List.dropWhile_eq_nil_iff.mpr passed]
  | some value => simp [Grammar.splitValue, valueText, List.takeWhile_append_of_pos passed,
      List.dropWhile_append_of_pos passed]

theorem append_valueText {text : List Char} {word : String} {value : Option String}
    (parted : Grammar.splitValue text = (word, value)) :
    text = word.toList ++ (valueText value).toList := by
  obtain ⟨rfl, rfl⟩ := Prod.mk.inj parted
  conv_lhs => rw [← List.takeWhile_append_dropWhile (p := (· != '=')) (l := text)]
  have ended := List.head?_dropWhile_not (· != '=') text
  split
  next first value rest =>
    obtain rfl : first = '=' := by simpa [rest] using ended
    simp [valueText, rest]
  next none => simp [valueText, none]

theorem toList_option (word : String) (value : Option String) :
    ("--" ++ word ++ valueText value).toList =
      '-' :: '-' :: (word.toList ++ (valueText value).toList) := by
  simp

theorem eq_of_splitValue {argument : String} {rest : List Char}
    (spelled : argument.toList = '-' :: '-' :: rest) {word : String} {value : Option String}
    (parted : Grammar.splitValue rest = (word, value)) :
    argument = "--" ++ word ++ valueText value := by
  apply String.toList_injective
  rw [spelled, append_valueText parted, toList_option]

theorem token_word {c : Choice Setting} (member : c ∈ grammar.choices) {word : String}
    (some_char : word ≠ "") (begins : word.toList <+: c.word.toList) (value : Option String) :
    grammar.token ("--" ++ word ++ valueText value) = .ok (.word c value) := by
  have parted := splitValue_append (no_equals_of_begins member begins) value
  have alone := byWord_eq_singleton_iff.mpr ⟨member, some_char, begins⟩
  unfold Grammar.token
  simp only [toList_option, parted, alone]

/-- What an argument can be told to be. -/
inductive Told (argument : String) : Token Setting → Prop
  | plain : Told argument (.plain argument)
  | unknown : Told argument (.unknown argument)
  | help (value : Option (List Char)) : Told argument (.letter helpChoice value)
  | word {c : Choice Setting} (member : c ∈ grammar.choices) {word : String}
      (some_char : word ≠ "") (begins : word.toList <+: c.word.toList) (value : Option String)
      (spelled : argument = "--" ++ word ++ valueText value) : Told argument (.word c value)

theorem told_leftover (argument : String) : Told argument (Grammar.leftover argument) := by
  unfold Grammar.leftover
  split
  · exact .plain
  · exact .unknown

/-- Help is the only option that has a letter. -/
theorem eq_of_byLetter? {letter : Char} {c : Choice Setting}
    (found : grammar.byLetter? letter = some c) : c = helpChoice ∧ letter = 'h' := by
  have member := List.mem_of_find?_eq_some found
  have lettered := List.find?_some found
  rcases mem_choices.mp member with rfl | rfl | rfl | rfl
  · simp only [helpChoice, Bool.and_eq_true, beq_iff_eq, Option.some.injEq] at lettered
    exact ⟨rfl, lettered.1.symm⟩
  all_goals simp [userChoice, systemChoice, directoryChoice] at lettered

theorem told_of_token {argument : String} {t : Token Setting}
    (read : grammar.token argument = .ok t) : Told argument t := by
  unfold Grammar.token at read
  split at read
  next rest spelled =>
    cases parted : Grammar.splitValue rest with
    | mk word value =>
      simp only [parted] at read
      split at read
      · obtain rfl := Except.ok.inj read
        exact told_leftover argument
      next c alone =>
        obtain rfl := Except.ok.inj read
        obtain ⟨member, some_char, begins⟩ := byWord_eq_singleton_iff.mp alone
        exact .word member some_char begins value (eq_of_splitValue spelled parted)
      · contradiction
  next letter rest _ spelled =>
    split at read <;> obtain rfl := Except.ok.inj read
    next => exact told_leftover argument
    next found => exact (eq_of_byLetter? found).1 ▸ .help none
    next value found => exact (eq_of_byLetter? found).1 ▸ .help (some value)
    next found _ _ => exact (eq_of_byLetter? found).1 ▸ .help _
  · obtain rfl := Except.ok.inj read
    exact .plain

/-- An argument that cannot be taken for an option, and so is a value of its own. -/
structure IsPlain (argument : String) : Prop where
  no_word : ∀ c ∈ grammar.choices, ∀ word value, argument = "--" ++ word ++ valueText value →
    ¬ word.toList <+: c.word.toList
  no_help : ∀ rest, argument.toList ≠ '-' :: 'h' :: rest
  dash : argument.toList.head? = some '-' →
    argument = "-" ∨ (Digit.isNegativeNumber argument.toList || argument.contains ' ') = true

theorem isPlain_of_head? {argument : String} (no_dash : argument.toList.head? ≠ some '-') :
    IsPlain argument where
  no_word := by
    rintro c _ word value rfl
    simp at no_dash
  no_help rest spelled := by simp [spelled] at no_dash
  dash dash := absurd dash no_dash

theorem IsPlain.no_separator {argument : String} (plain : IsPlain argument) : argument ≠ "--" := by
  rintro rfl
  exact plain.no_word helpChoice (by simp [mem_choices]) "" none rfl List.nil_prefix

theorem leftover_eq_plain_iff {argument : String} :
    (Grammar.leftover argument : Token Setting) = .plain argument ↔
      (Digit.isNegativeNumber argument.toList || argument.contains ' ') = true := by
  unfold Grammar.leftover
  split
  next holds => exact iff_of_true rfl holds
  next fails => exact iff_of_false (by rintro ⟨⟩) fails

theorem IsPlain.token {argument : String} (plain : IsPlain argument) :
    grammar.token argument = .ok (.plain argument) := by
  have left {first : Char} {rest : List Char} (spelled : argument.toList = '-' :: first :: rest) :
      (Grammar.leftover argument : Token Setting) = .plain argument := by
    obtain rfl | holds := plain.dash (by rw [spelled]; rfl)
    · simp at spelled
    · exact leftover_eq_plain_iff.mpr holds
  unfold Grammar.token
  split
  next rest spelled =>
    cases parted : Grammar.splitValue rest with
    | mk word value =>
      have nothing : grammar.byWord word = [] := byWord_eq_nil_iff.mpr fun c member =>
        plain.no_word c member word value (eq_of_splitValue spelled parted)
      simp only [nothing, left spelled]
  next letter rest _ spelled =>
    cases found : grammar.byLetter? letter with
    | none => simp only [left spelled]
    | some c =>
      obtain ⟨_, rfl⟩ := eq_of_byLetter? found
      exact absurd spelled (plain.no_help rest)
  · rfl

theorem isPlain_of_token {argument : String} (read : grammar.token argument = .ok (.plain argument)) :
    IsPlain argument := by
  unfold Grammar.token at read
  split at read
  next rest spelled =>
    cases parted : Grammar.splitValue rest with
    | mk word value =>
      simp only [parted] at read
      split at read
      next nothing =>
        refine ⟨?_, ?_, fun _ => .inr (leftover_eq_plain_iff.mp (Except.ok.inj read))⟩
        · rintro c member word' value' rfl begins
          have parted' := splitValue_append (no_equals_of_begins member begins) value'
          rw [toList_option] at spelled
          obtain ⟨_, _, rfl⟩ := spelled
          obtain ⟨rfl, rfl⟩ := Prod.mk.inj (parted.symm.trans parted')
          exact byWord_eq_nil_iff.mp nothing c member begins
        · intro rest' help
          rw [spelled] at help
          injection help with _ help
          injection help
          contradiction
      · cases read
      · cases read
  next letter rest one_dash spelled =>
    split at read
    next none_found =>
      refine ⟨?_, ?_, fun _ => .inr (leftover_eq_plain_iff.mp (Except.ok.inj read))⟩
      · rintro c _ word value rfl
        rw [toList_option] at spelled
        injection spelled with _ spelled
        injection spelled with second
        exact absurd second.symm one_dash
      · intro rest' help
        rw [spelled] at help
        injection help with _ help
        injection help with first
        subst first
        have lettered : grammar.byLetter? 'h' = some helpChoice := rfl
        rw [lettered] at none_found
        contradiction
    all_goals cases read
  next two_dashes short =>
    refine ⟨?_, fun rest help => short 'h' rest help, ?_⟩
    · rintro c _ word value rfl
      exact absurd (toList_option word value) (two_dashes _)
    · intro dash
      refine .inl (String.toList_injective ?_)
      cases spelled : argument.toList with
      | nil => simp [spelled] at dash
      | cons first rest =>
        obtain rfl : first = '-' := by simpa [spelled] using dash
        cases rest with
        | nil => rfl
        | cons letter rest => exact absurd spelled (short letter rest)

/-- One use of an option, which is written by some beginning of its word. -/
inductive Use where
  | user (word : String)
  | system (word : String)
  /-- A directory after an equals sign. -/
  | joined (word directory : String)
  /-- A directory as an argument of its own. -/
  | apart (word directory : String)

namespace Use

def choice : Use → Choice Setting
  | .user _ => userChoice
  | .system _ => systemChoice
  | .joined _ _ => directoryChoice
  | .apart _ _ => directoryChoice

def word : Use → String
  | .user word | .system word | .joined word _ | .apart word _ => word

def arguments : Use → List String
  | .user word => ["--" ++ word]
  | .system word => ["--" ++ word]
  | .joined word directory => ["--" ++ word ++ "=" ++ directory]
  | .apart word directory => ["--" ++ word, directory]

def setting : Use → Setting
  | .user _ => .forUser
  | .system _ => .forSystem
  | .joined _ directory => .into (attached directory)
  | .apart _ directory => .into directory

def tokens (u : Use) : List (Token Setting) :=
  match u with
  | .user _ | .system _ => [.word u.choice none]
  | .joined _ directory => [.word u.choice (some directory)]
  | .apart _ directory => [.word u.choice none, .plain directory]

structure Spelled (u : Use) : Prop where
  some_char : u.word ≠ ""
  begins : u.word.toList <+: u.choice.word.toList
  plain : ∀ word directory, u = .apart word directory → IsPlain directory

theorem spelled_apart {word directory : String} (some_char : word ≠ "")
    (begins : word.toList <+: directoryChoice.word.toList) (plain : IsPlain directory) :
    (apart word directory).Spelled := by
  refine ⟨some_char, begins, ?_⟩
  rintro _ _ ⟨⟩
  exact plain

theorem choice_mem (u : Use) : u.choice ∈ grammar.choices := by
  rw [mem_choices]
  cases u <;> simp [choice]

theorem choice_exclusive (u : Use) : u.choice.exclusive = true := by
  cases u <;> rfl

theorem Spelled.token {u : Use} (spelled : u.Spelled) (value : Option String) :
    grammar.token ("--" ++ u.word ++ valueText value) = .ok (.word u.choice value) :=
  token_word u.choice_mem spelled.some_char spelled.begins value

end Use

theorem Use.Spelled.ne_separator {u : Use} (spelled : u.Spelled) (text : String) :
    "--" ++ u.word ++ text ≠ "--" := by
  intro same
  have bare := congrArg String.toList same
  simp [spelled.some_char] at bare

theorem Use.Spelled.tokens_append {u : Use} (spelled : u.Spelled) (rest : List String) :
    grammar.tokens (u.arguments ++ rest) = (grammar.tokens rest).map (u.tokens ++ ·) := by
  have bare := grammar.tokens_cons (spelled.ne_separator (valueText none)) (spelled.token none)
  simp only [valueText, String.append_empty] at bare
  cases u with
  | user word => exact bare rest
  | system word => exact bare rest
  | joined word directory =>
    have read := spelled.token (some directory)
    have separate := spelled.ne_separator (valueText (some directory))
    simp only [valueText, ← String.append_assoc] at read separate
    exact grammar.tokens_cons separate read rest
  | apart word directory =>
    have plain := spelled.plain word directory rfl
    calc grammar.tokens (("--" ++ word) :: directory :: rest)
      _ = (grammar.tokens (directory :: rest)).map (.word directoryChoice none :: ·) :=
        bare (directory :: rest)
      _ = ((grammar.tokens rest).map (.plain directory :: ·)).map
          (.word directoryChoice none :: ·) := by
            rw [grammar.tokens_cons plain.no_separator plain.token]
      _ = _ := by cases grammar.tokens rest <;> rfl

theorem tokens_of_spelled {uses : List Use} (spelled : ∀ u ∈ uses, u.Spelled) :
    grammar.tokens (uses.flatMap Use.arguments) = .ok (uses.flatMap Use.tokens) := by
  induction uses with
  | nil => rfl
  | cons u rest ih =>
    have later := ih fun v member => spelled v (List.mem_cons_of_mem u member)
    rw [List.flatMap_cons, (spelled u List.mem_cons_self).tokens_append, later]
    rfl

end LittleComputer.Installer
