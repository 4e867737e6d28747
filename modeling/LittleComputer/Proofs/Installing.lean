import LittleComputer.Proofs.Spelling

/-! Where the specification goes. What the installer accepts is acted upon use by use: each puts its
setting behind the earlier ones unless it excludes one of them. So the place is the system's, the
last directory given unless that is empty, or the user's. -/
namespace LittleComputer.Installer

open Arguments

def Use.value : Use → String
  | .user _ | .system _ => ""
  | .joined _ directory => attached directory
  | .apart _ directory => directory

def Use.perform (u : Use) (p : Progress Setting) : Progress Setting :=
  { p with given := p.given ++ [u.choice], settings := p.settings ++ [u.setting] }

@[simp] theorem helpChoice_takesValue : helpChoice.takesValue = false := rfl

@[simp] theorem userChoice_takesValue : userChoice.takesValue = false := rfl

@[simp] theorem systemChoice_takesValue : systemChoice.takesValue = false := rfl

@[simp] theorem directoryChoice_takesValue : directoryChoice.takesValue = true := rfl

theorem proceed_tokens {p : Progress Setting} (closed : p.group = .closed) (u : Use)
    (rest : List (Token Setting)) :
    grammar.proceed (u.tokens ++ rest) p =
      (p.act u.choice u.value).bind (grammar.proceed rest) := by
  have stays := Progress.leaveGroup_of_closed closed
  cases u <;> simp only [Use.tokens, Use.choice, Use.value, List.cons_append, List.nil_append] <;>
    conv_lhs => unfold Grammar.proceed
  case user =>
    simp only [userChoice_takesValue, stays]
    cases p.act userChoice "" <;> rfl
  case system =>
    simp only [systemChoice_takesValue, stays]
    cases p.act systemChoice "" <;> rfl
  case joined _ directory =>
    simp only [directoryChoice_takesValue, stays]
    cases p.act directoryChoice (attached directory) <;> rfl
  case apart _ directory =>
    simp only [directoryChoice_takesValue, stays]
    cases p.act directoryChoice directory <;> rfl

theorem act_use (p : Progress Setting) (u : Use) :
    p.act u.choice u.value =
      match p.conflict? u.choice with
      | some earlier => .error (.refused (.conflict u.choice.label earlier.label))
      | none => .ok (u.perform p) := by
  unfold Progress.act
  cases p.conflict? u.choice <;> cases u <;> rfl

/-- Once the operands are over, a use is performed unless it is excluded. -/
theorem proceed_use {p q : Progress Setting} (closed : p.group = .closed) (u : Use)
    (rest : List (Token Setting)) :
    grammar.proceed (u.tokens ++ rest) p = .ok q ↔
      p.conflict? u.choice = none ∧ grammar.proceed rest (u.perform p) = .ok q := by
  rw [proceed_tokens closed, act_use]
  cases p.conflict? u.choice <;> simp [Except.bind]

theorem proceed_uses {p q : Progress Setting} (closed : p.group = .closed) (agree : Agree p.given)
    (uses : List Use) :
    grammar.proceed (uses.flatMap Use.tokens) p = .ok q ↔
      Agree (p.given ++ uses.map Use.choice) ∧
        q = { p with given := p.given ++ uses.map Use.choice,
                     settings := p.settings ++ uses.map Use.setting } := by
  induction uses generalizing p with
  | nil => simp [Grammar.proceed, agree, eq_comm]
  | cons u rest ih =>
    have split_given : p.given ++ (u :: rest).map Use.choice =
        (p.given ++ [u.choice]) ++ rest.map Use.choice := by simp
    rw [List.flatMap_cons, proceed_use closed, ← Progress.agree_append_iff agree, split_given]
    constructor
    · rintro ⟨first, later⟩
      obtain ⟨all, reached⟩ := (ih (p := u.perform p) closed first).mp later
      exact ⟨all, by simpa [Use.perform] using reached⟩
    · rintro ⟨all, reached⟩
      have first := all.subset (List.subset_append_left _ _)
      exact ⟨first, (ih (p := u.perform p) closed first).mpr
        ⟨all, by simpa [Use.perform] using reached⟩⟩

theorem surplus_ne_nil {ts : List (Token Setting)} {p q : Progress Setting} {text : String}
    (reached : grammar.proceed ts (p.addSurplus text) = .ok q) : q.surplus ≠ [] := by
  intro none_left
  have kept := grammar.surplus_proceed reached
  rw [none_left] at kept
  simp [Progress.addSurplus] at kept

theorem act_help (p : Progress Setting) : p.act helpChoice "" = .error .help := rfl

theorem actAll_help (p : Progress Setting) (more : List (Choice Setting)) :
    p.actAll (helpChoice :: more) = .error .help := rfl

/-- A directory that is not joined to its option is the next argument. -/
theorem directory_apart {p q : Progress Setting} {rest : List String} {ts : List (Token Setting)}
    (told : grammar.tokens rest = .ok ts)
    (reached : grammar.proceed (.word directoryChoice none :: ts) p = .ok q) :
    ∃ directory rest' ts', rest = directory :: rest' ∧ IsPlain directory ∧
      grammar.tokens rest' = .ok ts' ∧ ts = .plain directory :: ts' := by
  conv at reached => lhs; unfold Grammar.proceed
  simp only [directoryChoice_takesValue] at reached
  cases rest with
  | nil =>
    obtain rfl := Except.ok.inj told
    contradiction
  | cons directory rest =>
    obtain ⟨_, rfl⟩ | ⟨_, t, ts', read, told', rfl⟩ := grammar.tokens_cons_eq_ok told
    · contradiction
    · cases told_of_token read with
      | plain => exact ⟨directory, rest, ts', rfl, isPlain_of_token read, told', rfl⟩
      | _ => contradiction

theorem use_of_word {p q : Progress Setting} {rest : List String} {ts : List (Token Setting)}
    (told : grammar.tokens rest = .ok ts) {c : Choice Setting} (member : c ∈ grammar.choices)
    {word : String} (some_char : word ≠ "") (begins : word.toList <+: c.word.toList)
    {value : Option String} (reached : grammar.proceed (.word c value :: ts) p = .ok q) :
    ∃ u rest' ts', ("--" ++ word ++ valueText value) :: rest = Use.arguments u ++ rest' ∧
      u.Spelled ∧ grammar.tokens rest' = .ok ts' ∧ .word c value :: ts = u.tokens ++ ts' := by
  have acted := reached
  conv at acted => lhs; unfold Grammar.proceed
  rcases mem_choices.mp member with rfl | rfl | rfl | rfl
  · cases value <;> simp [act_help] at acted
  · cases value with
    | some value => simp at acted
    | none => exact ⟨.user word, rest, ts, by simp [valueText, Use.arguments],
        ⟨some_char, begins, by rintro _ _ ⟨⟩⟩, told, rfl⟩
  · cases value with
    | some value => simp at acted
    | none => exact ⟨.system word, rest, ts, by simp [valueText, Use.arguments],
        ⟨some_char, begins, by rintro _ _ ⟨⟩⟩, told, rfl⟩
  · cases value with
    | some directory => exact ⟨.joined word directory, rest, ts,
        by simp [valueText, Use.arguments, String.append_assoc],
        ⟨some_char, begins, by rintro _ _ ⟨⟩⟩, told, rfl⟩
    | none =>
      obtain ⟨directory, rest', ts', rfl, plain, told', rfl⟩ := directory_apart told reached
      exact ⟨.apart word directory, rest', ts', by simp [valueText, Use.arguments],
        Use.spelled_apart some_char begins plain, told', rfl⟩

theorem first_use {p q : Progress Setting} (closed : p.group = .closed) {argument : String}
    {rest : List String} {ts : List (Token Setting)}
    (told : grammar.tokens (argument :: rest) = .ok ts) (reached : grammar.proceed ts p = .ok q)
    (none_left : q.surplus = []) :
    ∃ u rest' ts', argument :: rest = Use.arguments u ++ rest' ∧ u.Spelled ∧
      grammar.tokens rest' = .ok ts' ∧ ts = u.tokens ++ ts' := by
  obtain ⟨_, rfl⟩ | ⟨_, t, later, read, told', rfl⟩ := grammar.tokens_cons_eq_ok told
  · simp only [Grammar.proceed, Progress.addSeparator, closed] at reached
    exact absurd none_left (surplus_ne_nil reached)
  cases told_of_token read with
  | plain =>
    simp only [Grammar.proceed, Progress.addPlain, closed] at reached
    exact absurd none_left (surplus_ne_nil reached)
  | unknown =>
    simp only [Grammar.proceed] at reached
    exact absurd none_left (surplus_ne_nil reached)
  | help value =>
    simp only [Grammar.proceed] at reached
    split at reached
    · contradiction
    next letters =>
      obtain ⟨more, rfl⟩ := grammar.letters_eq_cons letters
      simp [actAll_help] at reached
  | word member some_char begins value spelled =>
    subst spelled
    exact use_of_word told' member some_char begins reached

/-- The arguments that are accepted are uses, one after another. -/
theorem uses_of_proceed {p q : Progress Setting} (closed : p.group = .closed)
    {arguments : List String} {ts : List (Token Setting)} (told : grammar.tokens arguments = .ok ts)
    (reached : grammar.proceed ts p = .ok q) (none_left : q.surplus = []) :
    ∃ uses : List Use, arguments = uses.flatMap Use.arguments ∧ ∀ u ∈ uses, u.Spelled := by
  cases arguments with
  | nil => exact ⟨[], rfl, by simp⟩
  | cons argument rest =>
    obtain ⟨u, rest', ts', parted, spelled, told', rfl⟩ := first_use closed told reached none_left
    have later := ((proceed_use closed u ts').mp reached).2
    have shorter : rest'.length < (argument :: rest).length := by
      rw [parted]
      cases u <;> simp +arith [Use.arguments]
    obtain ⟨uses, made, others⟩ := uses_of_proceed (p := u.perform p) closed told' later none_left
    exact ⟨u :: uses, by rw [parted, made, List.flatMap_cons],
      List.forall_mem_cons.mpr ⟨spelled, others⟩⟩
termination_by arguments.length

/-- The arguments are uses of options that do not exclude each other. -/
structure Spells (uses : List Use) (arguments : List String) : Prop where
  written : arguments = uses.flatMap Use.arguments
  spelled : ∀ u ∈ uses, u.Spelled
  agree : Agree (uses.map Use.choice)

theorem Spells.read {uses : List Use} {arguments : List String} (spells : Spells uses arguments) :
    grammar.read arguments = .accepted (uses.map Use.setting) [] := by
  have told := tokens_of_spelled spells.spelled
  rw [← spells.written] at told
  let fresh : Progress Setting := { group := .closed }
  have reached := (proceed_uses (p := fresh) rfl (by simp [fresh, Agree]) uses).mpr
    ⟨by simpa [fresh] using spells.agree, rfl⟩
  have started : { group := if grammar.operands.isSome then .ahead else .closed } = fresh := rfl
  simp only [Grammar.read, told, started, reached]
  simp [Grammar.finish, grammar, fresh]

theorem spells_of_accepted {arguments : List String} {settings : List Setting}
    {operands : List String} (accepted : grammar.read arguments = .accepted settings operands) :
    ∃ uses, Spells uses arguments := by
  let fresh : Progress Setting := { group := .closed }
  have started : { group := if grammar.operands.isSome then .ahead else .closed } = fresh := rfl
  simp only [Grammar.read, started] at accepted
  split at accepted
  · contradiction
  next ts told =>
    split at accepted
    · contradiction
    · contradiction
    next q reached =>
      have none_left : q.surplus = [] := by
        by_contra some_left
        simp [Grammar.finish, grammar, some_left] at accepted
      obtain ⟨uses, written, spelled⟩ := uses_of_proceed rfl told reached none_left
      have told' := tokens_of_spelled spelled
      rw [← written, told] at told'
      obtain rfl := Except.ok.inj told'
      have agree := ((proceed_uses (p := fresh) rfl (by simp [fresh, Agree]) uses).mp reached).1
      exact ⟨uses, written, spelled, by simpa [fresh] using agree⟩

/-- The directory that a use asks for. A separator behind an equals sign asks for the empty one. -/
def Use.directory? : Use → Option String
  | .joined _ directory => some (attached directory)
  | .apart _ directory => some directory
  | _ => none

def lastDirectory? (uses : List Use) : Option String :=
  (uses.filterMap Use.directory?).getLast?

theorem contains_forSystem {uses : List Use} :
    (uses.map Use.setting).contains .forSystem = true ↔ ∃ word, .system word ∈ uses := by
  rw [List.contains_iff_mem, List.mem_map]
  constructor
  · rintro ⟨u, member, same⟩
    cases u with
    | system word => exact ⟨word, member⟩
    | _ => contradiction
  · rintro ⟨word, member⟩
    exact ⟨.system word, member, rfl⟩

theorem findSome?_settings {read : Setting → Option String}
    (directory : ∀ u : Use, read u.setting = u.directory?) (uses : List Use) :
    (uses.map Use.setting).reverse.findSome? read = lastDirectory? uses := by
  have same : read ∘ Use.setting = Use.directory? := funext directory
  rw [← List.getLast?_filterMap, List.filterMap_map, same, lastDirectory?]

/-- The system's place and a directory exclude each other. -/
theorem lastDirectory?_of_system {uses : List Use} (agree : Agree (uses.map Use.choice))
    {word : String} (system : .system word ∈ uses) : lastDirectory? uses = none := by
  have none_directory : ∀ u ∈ uses, u.directory? = none := by
    intro u member
    have same := agree _ (List.mem_map_of_mem member) _ (List.mem_map_of_mem system)
      u.choice_exclusive rfl
    cases u with
    | user | system => rfl
    | joined | apart => simp [Use.choice, systemChoice, directoryChoice] at same
  rw [lastDirectory?, List.filterMap_eq_nil_iff.mpr none_directory]
  rfl

theorem destination_of_system (host : Host) {uses : List Use} {word : String}
    (system : .system word ∈ uses) :
    destination host (uses.map Use.setting) = ⟨false, some host.directory⟩ :=
  if_pos (contains_forSystem.mpr ⟨word, system⟩)

theorem destination_of_no_system (host : Host) {uses : List Use}
    (none_system : ∀ word, .system word ∉ uses) :
    destination host (uses.map Use.setting) =
      if (lastDirectory? uses).getD "" = "" then ⟨true, none⟩
      else ⟨false, lastDirectory? uses⟩ := by
  have absent : ¬ (uses.map Use.setting).contains .forSystem = true := fun found =>
    let ⟨word, system⟩ := contains_forSystem.mp found
    none_system word system
  rw [destination, if_neg absent, findSome?_settings fun u => by cases u <;> rfl]
  cases lastDirectory? uses with
  | none => rfl
  | some directory => rfl

/-- The specification is installed once if the arguments spell uses of options, and else not at
all. It goes to the place that they ask for, except that the empty directory counts as none. -/
theorem specification_goes_where_asked_unless_empty (host : Host) (arguments : List String) :
    ((∃ settings operands, grammar.read arguments = .accepted settings operands) ↔
      ∃ uses, Spells uses arguments) ∧
    ((¬ ∃ uses, Spells uses arguments) → (invoke host arguments).requests = []) ∧
    ∀ uses, Spells uses arguments → ∃ r, (invoke host arguments).requests = [r] ∧
      r.name = "lc3vm" ∧ r.replace = true ∧
      (∀ directory, lastDirectory? uses = some directory →
        r.destination = if directory = "" then ⟨true, none⟩ else ⟨false, some directory⟩) ∧
      (∀ word, .system word ∈ uses → r.destination = ⟨false, some host.directory⟩) ∧
      (lastDirectory? uses = none → (∀ word, .system word ∉ uses) →
        r.destination = ⟨true, none⟩) := by
  refine ⟨⟨?_, ?_⟩, ?_, ?_⟩
  · rintro ⟨settings, operands, accepted⟩
    exact spells_of_accepted accepted
  · rintro ⟨uses, spells⟩
    exact ⟨_, _, spells.read⟩
  · intro unspelled
    cases read : grammar.read arguments with
    | help => simp [invoke, read]
    | refused r => simp [invoke, read]
    | accepted settings operands => exact absurd (spells_of_accepted read) unspelled
  · intro uses spells
    refine ⟨request host (destination host (uses.map Use.setting)), ?_, rfl, rfl, ?_, ?_, ?_⟩
    · simp [invoke, spells.read]
    · intro directory last
      have none_system : ∀ word, .system word ∉ uses := by
        intro word system
        rw [lastDirectory?_of_system spells.agree system] at last
        contradiction
      have placed := destination_of_no_system host none_system
      rw [last] at placed
      exact placed
    · exact fun word system => destination_of_system host system
    · intro none_last none_system
      have placed := destination_of_no_system host none_system
      rw [none_last] at placed
      exact placed

/-- Two directories, the first by the beginning of its option; the system's place; no arguments; and
a call for help. -/
theorem specification_goes_where_asked_last :
    let host : Host := ⟨"python3", "/usr"⟩
    let places (arguments : List String) :=
      (invoke host arguments).requests.map Request.destination
    places ["--p", "/srv", "--prefix=/opt"] = [⟨false, some "/opt"⟩] ∧
      places ["--sys"] = [⟨false, some "/usr"⟩] ∧ places [] = [⟨true, none⟩] ∧
      (invoke host ["--help"]).requests = [] := by
  intro host places
  have theory := specification_goes_where_asked_unless_empty host
  have first : (Use.apart "p" "/srv").Spelled :=
    Use.spelled_apart (by decide) (by decide) (isPlain_of_head? (by decide))
  have second : (Use.joined "prefix" "/opt").Spelled := ⟨by decide, by decide, by rintro _ _ ⟨⟩⟩
  have system : (Use.system "sys").Spelled := ⟨by decide, by decide, by rintro _ _ ⟨⟩⟩
  refine ⟨?_, ?_, ?_, ?_⟩
  · obtain ⟨r, requested, _, _, directories, _⟩ :=
      (theory ["--p", "/srv", "--prefix=/opt"]).2.2 [.apart "p" "/srv", .joined "prefix" "/opt"]
        ⟨by decide, by simp [first, second], by simp [Agree, Use.choice]⟩
    have last := directories "/opt" (by decide)
    simpa [places, requested] using last
  · obtain ⟨r, requested, _, _, _, systems, _⟩ :=
      (theory ["--sys"]).2.2 [.system "sys"]
        ⟨by decide, by simp [system], by simp [Agree]⟩
    have belongs := systems "sys" List.mem_cons_self
    simpa [places, requested] using belongs
  · obtain ⟨r, requested, _, _, _, _, users⟩ :=
      (theory []).2.2 [] ⟨by decide, by simp, by simp [Agree]⟩
    have own := users rfl (by simp)
    simpa [places, requested] using own
  · have refused : ¬ ∃ uses, Spells uses ["--help"] := by
      rw [← (theory ["--help"]).1]
      rintro ⟨settings, operands, accepted⟩
      have helped : grammar.read ["--help"] = .help := rfl
      simp [helped] at accepted
    exact (theory ["--help"]).2.1 refused

/-- The empty directory is one that is given, but the specification goes to the user's place. -/
theorem empty_directory_goes_to_user :
    let host : Host := ⟨"python3", "/usr"⟩
    let uses : List Use := [.apart "prefix" ""]
    Spells uses ["--prefix", ""] ∧ lastDirectory? uses = some "" ∧
      (invoke host ["--prefix", ""]).requests.map Request.destination = [⟨true, none⟩] ∧
      (invoke host ["--prefix", ""]).requests.map Request.destination ≠ [⟨false, some ""⟩] := by
  intro host uses
  have spelled : (Use.apart "prefix" "").Spelled :=
    Use.spelled_apart (by decide) (by decide) (isPlain_of_head? (by decide))
  have spells : Spells uses ["--prefix", ""] :=
    ⟨by decide, by simp [uses, spelled], by simp [uses, Agree, Use.choice]⟩
  exact ⟨spells, by decide, by decide, by decide⟩

end LittleComputer.Installer
