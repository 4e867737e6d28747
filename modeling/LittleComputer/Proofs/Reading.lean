import LittleComputer.Arguments

/-! What reading a command line keeps. The options given so far agree with each other, and what is
left over stays left over. -/
namespace LittleComputer.Arguments

variable {α : Type}

/-- No two of these options exclude each other. -/
def Agree (given : List (Choice α)) : Prop :=
  ∀ c ∈ given, ∀ d ∈ given, c.exclusive = true → d.exclusive = true → c.word = d.word

theorem Agree.subset {given more : List (Choice α)} (agree : Agree more) (part : given ⊆ more) :
    Agree given :=
  fun c here d there => agree c (part here) d (part there)

namespace Progress

variable {p q : Progress α} {c : Choice α}

theorem agree_append_iff (agree : Agree p.given) :
    Agree (p.given ++ [c]) ↔ p.conflict? c = none := by
  unfold Progress.conflict?
  constructor
  · intro longer
    split
    next exclusive =>
      refine List.find?_eq_none.mpr fun d earlier against => ?_
      simp only [Bool.and_eq_true, bne_iff_ne] at against
      exact against.2 (longer d (List.mem_append_left _ earlier) c
        (List.mem_append_right _ (List.mem_singleton_self c)) against.1 exclusive)
    · rfl
  · intro free
    have same : ∀ d ∈ p.given, d.exclusive = true → c.exclusive = true → d.word = c.word := by
      intro d earlier exclusive' exclusive
      rw [if_pos exclusive] at free
      simpa [exclusive'] using List.find?_eq_none.mp free d earlier
    intro d here e there exclusive exclusive'
    obtain here | here := List.mem_append.mp here <;>
      obtain there | there := List.mem_append.mp there
    · exact agree d here e there exclusive exclusive'
    · rw [List.mem_singleton.mp there] at exclusive' ⊢
      exact same d here exclusive exclusive'
    · rw [List.mem_singleton.mp here] at exclusive ⊢
      exact (same e there exclusive' exclusive).symm
    · rw [List.mem_singleton.mp here, List.mem_singleton.mp there]

theorem leaveGroup_of_closed (closed : p.group = .closed) : p.leaveGroup = p :=
  if_neg (by simp [closed])

theorem surplus_leaveGroup (p : Progress α) : p.leaveGroup.surplus = p.surplus := by
  unfold leaveGroup
  split <;> rfl

theorem surplus_addSurplus (p : Progress α) (text : String) :
    p.surplus <+: (p.addSurplus text).surplus :=
  List.prefix_append _ _

theorem surplus_addPlain (p : Progress α) (text : String) :
    p.surplus <+: (p.addPlain text).surplus := by
  unfold addPlain
  split
  · exact p.surplus_addSurplus text
  · exact List.prefix_refl _

theorem surplus_addSeparator (p : Progress α) (more : Bool) :
    p.surplus <+: (p.addSeparator more).surplus := by
  unfold addSeparator
  repeat' split
  all_goals first | exact p.surplus_addSurplus "--" | exact List.prefix_refl _

theorem surplus_act {value : String} (acted : p.act c value = .ok q) : q.surplus = p.surplus := by
  unfold act at acted
  split at acted
  · contradiction
  · split at acted
    · contradiction
    all_goals
      obtain rfl := Except.ok.inj acted
      rfl

theorem surplus_actAll {cs : List (Choice α)} (acted : p.actAll cs = .ok q) :
    q.surplus = p.surplus := by
  induction cs generalizing p with
  | nil =>
    obtain rfl := Except.ok.inj acted
    rfl
  | cons c rest ih =>
    simp only [actAll, List.foldlM_cons] at acted
    cases first : p.act c "" with
    | error e => simp [first, bind, Except.bind] at acted
    | ok r =>
      rw [first] at acted
      exact (ih acted).trans (surplus_act first)

end Progress

namespace Grammar

theorem letters_eq_cons (g : Grammar α) {c : Choice α} {value : Option (List Char)}
    {cs : List (Choice α)} (read : g.letters c value = .ok cs) : ∃ more, cs = c :: more := by
  cases value with
  | none => exact ⟨[], (Except.ok.inj read).symm⟩
  | some rest =>
    cases rest with
    | nil => contradiction
    | cons letter rest =>
      simp only [letters, cluster] at read
      split at read
      next next _ =>
        cases later : g.cluster next rest with
        | error r => simp [later, Except.map] at read
        | ok more =>
          rw [later] at read
          exact ⟨more, (Except.ok.inj read).symm⟩
      · contradiction

theorem tokens_cons (g : Grammar α) {argument : String} (no_separator : argument ≠ "--")
    {t : Token α} (read : g.token argument = .ok t) (rest : List String) :
    g.tokens (argument :: rest) = (g.tokens rest).map (t :: ·) := by
  rw [Grammar.tokens, if_neg no_separator, read]
  cases g.tokens rest <;> rfl

theorem tokens_cons_eq_ok (g : Grammar α) {argument : String} {rest : List String}
    {ts : List (Token α)} (read : g.tokens (argument :: rest) = .ok ts) :
    (argument = "--" ∧ ts = .separator :: rest.map .plain) ∨
      argument ≠ "--" ∧ ∃ t later, g.token argument = .ok t ∧ g.tokens rest = .ok later ∧
        ts = t :: later := by
  by_cases separator : argument = "--"
  · rw [Grammar.tokens, if_pos separator] at read
    exact .inl ⟨separator, (Except.ok.inj read).symm⟩
  · refine .inr ⟨separator, ?_⟩
    cases first : g.token argument with
    | error r => simp [Grammar.tokens, separator, first, bind, Except.bind] at read
    | ok t =>
      rw [g.tokens_cons separator first] at read
      cases later : g.tokens rest with
      | error r => simp [later, Except.map] at read
      | ok more =>
        rw [later] at read
        exact ⟨t, more, rfl, rfl, (Except.ok.inj read).symm⟩

/-- What is left over stays left over. -/
theorem surplus_proceed (g : Grammar α) {ts : List (Token α)} {p q : Progress α}
    (reached : g.proceed ts p = .ok q) : p.surplus <+: q.surplus := by
  fun_induction Grammar.proceed g ts p with
  | case1 p =>
    obtain rfl := Except.ok.inj reached
    exact List.prefix_refl _
  | case2 rest p ih => exact (p.surplus_addSeparator _).trans (ih reached)
  | case3 text rest p ih => exact (p.surplus_addPlain text).trans (ih reached)
  | case4 text rest p ih =>
    have kept := p.leaveGroup.surplus_addSurplus text
    rw [p.surplus_leaveGroup] at kept
    exact kept.trans (ih reached)
  | case7 c value rest p cs _ r acted ih =>
    rw [← p.surplus_leaveGroup, ← Progress.surplus_actAll acted]
    exact ih reached
  | case10 c rest p _ r acted ih
  | case12 c rest p value _ r acted ih
  | case14 c p value rest _ r acted ih =>
    rw [← p.surplus_leaveGroup, ← Progress.surplus_act acted]
    exact ih reached
  | _ => contradiction

end Grammar

end LittleComputer.Arguments
