import LittleComputer.Proofs.Endings
import LittleComputer.Proofs.Invocation

/-! The exit status of the command line. It is 1 exactly if an image cannot be loaded, in which case
nothing is executed; otherwise it tells which of halting, being at fault and exhausting the limit
comes first, and the instructions counted are those up to there. -/
namespace LittleComputer

namespace Machine

theorem Executes.count_after {κ : Type} [Console κ] {m : Machine κ} {n : Nat}
    (executed : m.Executes n) : (m.after n).state.count = m.state.count + n :=
  Machine.count_after fun k below => (executed k below).1

theorem Executes.count_after_succ {κ : Type} [Console κ] {m : Machine κ} {n : Nat}
    (executed : m.Executes n) (running : (m.after n).state.running = true) :
    (m.after (n + 1)).state.count = m.state.count + (n + 1) := by
  rw [← step_after, count_step running, executed.count_after, Nat.add_assoc]

theorem Halts.bytes_step {m : Machine Pipe} (halts : m.Halts) :
    m.step.2.console.display.bytes.toList =
      m.console.display.bytes.toList ++ Latin.lowBytes haltMessage := by
  rw [halts.step_eq, fetched_of_trap halts.2]
  exact Display.toList_write _ _

theorem HaltsAt.output_suffix {m : Machine Pipe} {k : Nat} (halts : m.HaltsAt k) :
    Latin.lowBytes haltMessage <:+ (m.after (k + 1)).console.display.bytes.toList := by
  rw [← step_after, halts.1.bytes_step]
  exact List.suffix_append _ _

end Machine

namespace CommandLine

open Machine

/-- What a process leaves behind that has loaded the images before one that cannot be loaded. -/
structure Refuses (files : Files) (before : List String) (name : String) (result : Result)
    (m : Machine Pipe) : Prop where
  pc : m.state.pc = 0x3000
  registers : ∀ r, m.state.reg r = 0
  count : m.state.count = 0
  output : result.output = []
  errors : ∃ reason, Image.Refused files name reason ∧
    result.errors = String.join (Image.truncations files before) ++
      ("failed to load image: " ++ name ++ " (" ++ reason ++ ")\n")

/-- The status of a process whose images are loaded, with what it has printed and counted, in terms
of the first of its machine's steps that halts or is at fault. -/
structure TellsEnding (loaded : Machine Pipe) (limit : Nat) (result : Result)
    (m : Machine Pipe) : Prop where
  completed : result.status = 0 ↔ ∃ k < limit, loaded.HaltsAt k
  faulted : result.status = 3 ↔ ∃ k < limit, loaded.FaultsAt k
  interrupted : result.status = 130 ↔
    ∀ k < limit, ¬ (loaded.after k).Halts ∧ ¬ (loaded.after k).Faults
  of_halts : ∀ k < limit, loaded.HaltsAt k →
    m.state.count = k + 1 ∧ Latin.lowBytes "HALT\n" <:+ result.output
  of_faults : ∀ k < limit, loaded.FaultsAt k → m.state.count = k + 1
  of_interrupted : result.status = 130 → m.state.count = limit
  /-- To halt is to execute one trap, and to be at fault is to fetch a word that is refused. -/
  halts : ∀ k, (loaded.after k).Halts ↔ (loaded.after k).state.running = true ∧
    (loaded.after k).word.code = 15 ∧ (loaded.after k).word.toNat % 256 = 0x25 :=
    fun _ => halts_iff
  faults : ∀ k, (loaded.after k).Faults ↔ (loaded.after k).state.running = true ∧
    ∃ f, (loaded.after k).word.fault? = some f := fun _ => faults_iff

namespace TellsEnding

variable {loaded m : Machine Pipe} {limit k : Nat} {result : Result}

theorem of_haltsAt (within : k < limit) (halts : loaded.HaltsAt k) (status : result.status = 0)
    (count : m.state.count = k + 1) (output : Latin.lowBytes haltMessage <:+ result.output) :
    TellsEnding loaded limit result m where
  completed := iff_of_true status ⟨k, within, halts⟩
  faulted := by
    rw [status]
    refine iff_of_false (by decide) ?_
    rintro ⟨j, _, faults⟩
    exact not_haltsAt_of_faultsAt faults halts
  interrupted := by
    rw [status]
    exact iff_of_false (by decide) fun neither => (neither k within).1 halts.1
  of_halts j _ other := by
    obtain rfl := other.unique halts
    exact ⟨count, output⟩
  of_faults j _ faults := absurd halts (not_haltsAt_of_faultsAt faults)
  of_interrupted interrupted := by
    rw [status] at interrupted
    cases interrupted

theorem of_faultsAt (within : k < limit) (faults : loaded.FaultsAt k) (status : result.status = 3)
    (count : m.state.count = k + 1) : TellsEnding loaded limit result m where
  completed := by
    rw [status]
    refine iff_of_false (by decide) ?_
    rintro ⟨j, _, halts⟩
    exact not_haltsAt_of_faultsAt faults halts
  faulted := iff_of_true status ⟨k, within, faults⟩
  interrupted := by
    rw [status]
    exact iff_of_false (by decide) fun neither => (neither k within).2 faults.1
  of_halts j _ halts := absurd halts (not_haltsAt_of_faultsAt faults)
  of_faults j _ other := by
    obtain rfl := other.unique faults
    exact count
  of_interrupted interrupted := by
    rw [status] at interrupted
    cases interrupted

theorem of_neither (neither : ∀ k < limit, ¬ (loaded.after k).Halts ∧ ¬ (loaded.after k).Faults)
    (status : result.status = 130) (count : m.state.count = limit) :
    TellsEnding loaded limit result m where
  completed := by
    rw [status]
    refine iff_of_false (by decide) ?_
    rintro ⟨j, within, halts⟩
    exact (neither j within).1 halts.1
  faulted := by
    rw [status]
    refine iff_of_false (by decide) ?_
    rintro ⟨j, within, faults⟩
    exact (neither j within).2 faults.1
  interrupted := iff_of_true status neither
  of_halts j within halts := absurd halts.1 (neither j within).1
  of_faults j within faults := absurd faults.1 (neither j within).2
  of_interrupted _ := count

end TellsEnding

theorem exitStatus_mem (verdict : Verdict) : exitStatus verdict ∈ [0, 1, 3, 130] := by
  cases verdict <;> simp [exitStatus]

section Accepted

variable {files : Files} {arguments : List String} {settings : List Unit} {names : List String}
  (accepted : grammar.read arguments = .accepted settings names) (input : List UInt8) (limit : Nat)

include accepted

theorem refuses_of_not_loadable {before after : List String} {name : String}
    (split : names = before ++ name :: after)
    (loadable : ∀ other ∈ before, Image.Loadable files other)
    (unloadable : ¬ Image.Loadable files name) :
    let result := invoke files arguments input limit
    result.status = 1 ∧ ∀ m ∈ result.machine, Refuses files before name result m := by
  intro result
  obtain ⟨cause, unread⟩ := Image.not_loadable_iff.mp unloadable
  have failed := loadImages_of_not_loadable (boot input) loadable unread after
  rw [← split] at failed
  obtain ⟨status, output, errors, m, machine, state⟩ :=
    invoke_of_accepted input files names accepted limit
  rw [runProgram_of_not_loaded failed] at status output errors state
  dsimp only at output errors state
  refine ⟨status, ?_⟩
  rintro m' machine'
  obtain rfl := Option.some.inj (machine.symm.trans machine')
  have fresh := state_loadImages_boot input files before
  rw [← state] at fresh
  obtain ⟨_, display, warned⟩ := console_loadImages_boot input files before
  constructor
  · rw [fresh]
    rfl
  · intro r
    rw [fresh]
    exact State.reg_initial r
  · rw [fresh]
    rfl
  · rw [output, display]
  · refine ⟨cause.message, Image.refused_iff.mpr ⟨cause, unread, rfl⟩, ?_⟩
    rw [errors, warned, String.join_append, complaint?_notLoaded]
    simp [String.join_cons]

theorem tellsEnding_of_loadable (loadable : ∀ name ∈ names, Image.Loadable files name)
    (texts : ((boot input).loadImages files names).2.TextsEnd limit) :
    let result := invoke files arguments input limit
    result.status ≠ 1 ∧ ∀ m ∈ result.machine,
      TellsEnding ((boot input).loadImages files names).2 limit result m := by
  intro result
  have complete : (boot input).loadImages files names =
      (none, ((boot input).loadImages files names).2) :=
    Prod.ext (loadImages_fst_eq_none _ loadable) rfl
  obtain ⟨status, output, errors, m, machine, state⟩ :=
    invoke_of_accepted input files names accepted limit
  rw [runProgram_of_loaded complete] at status output state
  have fresh := state_loadImages_boot input files names
  obtain ⟨closed, _⟩ := console_loadImages_boot input files names
  generalize ((boot input).loadImages files names).2 = loaded at *
  have running : loaded.state.running = true := by rw [fresh]; rfl
  have uncounted : loaded.state.count = 0 := by rw [fresh]; rfl
  suffices told : result.status ≠ 1 ∧ TellsEnding loaded limit result m by
    refine ⟨told.1, ?_⟩
    rintro m' machine'
    obtain rfl := Option.some.inj (machine.symm.trans machine')
    exact told.2
  obtain ⟨k, within, halts, executed, ran⟩ | ⟨k, within, faults, executed, f, ran⟩ |
    ⟨neither, executed, ran⟩ := (Pipe.answering _).run_cases ⟨closed, rfl⟩ running texts
  · rw [ran] at status output state
    have status : result.status = 0 := status
    have count := executed.count_after_succ halts.1.1
    rw [uncounted, Nat.zero_add, ← state] at count
    have suffix := halts.output_suffix
    rw [← output] at suffix
    exact ⟨by rw [status]; decide, .of_haltsAt within halts status count suffix⟩
  · rw [ran] at status state
    have status : result.status = 3 := status
    have count := executed.count_after_succ faults.1.running
    rw [uncounted, Nat.zero_add, ← state] at count
    exact ⟨by rw [status]; decide, .of_faultsAt within faults status count⟩
  · rw [ran] at status state
    have status : result.status = 130 := status
    have count := executed.count_after
    rw [uncounted, Nat.zero_add, ← state] at count
    exact ⟨by rw [status]; decide, .of_neither neither status count⟩

/-- The status of a process says whether its images could be loaded, and if so, how their run has
ended. -/
theorem exit_status_tells_ending
    (texts : (∀ name ∈ names, Image.Loadable files name) →
      ((boot input).loadImages files names).2.TextsEnd limit) :
    let result := invoke files arguments input limit
    ∃ m, result.machine = some m ∧ result.status ∈ [0, 1, 3, 130] ∧
      (result.status = 1 ↔ ∃ name ∈ names, ¬ Image.Loadable files name) ∧
      (∀ before name after, names = before ++ name :: after →
        (∀ other ∈ before, Image.Loadable files other) → ¬ Image.Loadable files name →
          Refuses files before name result m) ∧
      ((∀ name ∈ names, Image.Loadable files name) →
        TellsEnding ((boot input).loadImages files names).2 limit result m) := by
  intro result
  obtain ⟨status, _, _, m, machine, _⟩ := invoke_of_accepted input files names accepted limit
  refine ⟨m, machine, ?_, ?_, ?_, ?_⟩
  · rw [status]
    exact exitStatus_mem _
  · constructor
    · intro refused
      by_contra none_unloadable
      have loadable : ∀ name ∈ names, Image.Loadable files name := by
        intro name member
        by_contra unloadable
        exact none_unloadable ⟨name, member, unloadable⟩
      exact (tellsEnding_of_loadable accepted input limit loadable (texts loadable)).1 refused
    · intro unloadable
      obtain ⟨before, name, after, split, loadable, unloadable⟩ :=
        Image.exists_first_not_loadable unloadable
      exact (refuses_of_not_loadable accepted input limit split loadable unloadable).1
  · intro before name after split loadable unloadable
    exact (refuses_of_not_loadable accepted input limit split loadable unloadable).2 m machine
  · intro loadable
    exact (tellsEnding_of_loadable accepted input limit loadable (texts loadable)).2 m machine

end Accepted

/-- An image of a halt alone, one of a reserved word, and a file that is missing. -/
theorem exit_status_tells_ending_each_way :
    let files : Files := fun name =>
      if name = "halt.obj" then .ok #[0x30, 0x00, 0xF0, 0x25]
      else if name = "bad.obj" then .ok #[0x30, 0x00, 0xD0, 0x00]
      else .error (.missing name)
    (grammar.read ["halt.obj"] = .accepted [] ["halt.obj"] ∧
      ((boot [97]).loadImages files ["halt.obj"]).2.TextsEnd 1 ∧
      (invoke files ["halt.obj"] [97] 1).status = 0 ∧
      (∃ m, (invoke files ["halt.obj"] [97] 1).machine = some m ∧ m.state.count = 1) ∧
      [72, 65, 76, 84, 10] <:+ (invoke files ["halt.obj"] [97] 1).output) ∧
    ((invoke files ["bad.obj"] [97] 1).status = 3 ∧
      ∃ m, (invoke files ["bad.obj"] [97] 1).machine = some m ∧ m.state.count = 1) ∧
    (invoke files ["halt.obj", "no.obj"] [97] 1).status = 1 ∧
      (invoke files ["halt.obj", "no.obj"] [97] 1).output = [] ∧
      (invoke files ["halt.obj", "no.obj"] [97] 1).errors =
        "failed to load image: no.obj ([Errno 2] No such file or directory: 'no.obj')\n" := by
  intro files
  have halt : Image.ofFile files "halt.obj" = .ok ⟨0x3000, #[0xF025]⟩ := by decide
  have bad : Image.ofFile files "bad.obj" = .ok ⟨0x3000, #[0xD000]⟩ := by decide
  have missing : Image.ofFile files "no.obj" = .error (.unreadable (.missing "no.obj")) := by decide
  have alone {name : String} {image : Image} (read : Image.ofFile files name = .ok image) :
      ∀ other ∈ [name], Image.Loadable files other := by
    intro other member
    obtain rfl := List.mem_singleton.mp member
    exact Image.loadable_iff.mpr ⟨_, read⟩
  refine ⟨?_, ?_, ?_⟩
  · have accepted : grammar.read ["halt.obj"] = .accepted [] ["halt.obj"] := rfl
    obtain ⟨running, word, texts⟩ := begins_loadImages_boot [97] files halt
    obtain ⟨m, machine, _, _, _, tells⟩ := exit_status_tells_ending accepted [97] 1 fun _ => texts
    have ending := tells (alone halt)
    have halts := haltsAt_zero running word
    obtain ⟨count, output⟩ := ending.of_halts 0 Nat.one_pos halts
    have completed := ending.completed.mpr ⟨0, Nat.one_pos, halts⟩
    exact ⟨accepted, texts, completed, ⟨m, machine, count⟩, output⟩
  · have accepted : grammar.read ["bad.obj"] = .accepted [] ["bad.obj"] := rfl
    obtain ⟨running, word, texts⟩ := begins_loadImages_boot [97] files bad
    obtain ⟨m, machine, _, _, _, tells⟩ := exit_status_tells_ending accepted [97] 1 fun _ => texts
    have ending := tells (alone bad)
    have reserved : Word.fault? 0xD000 = some (.reserved 0xD000) := by decide
    have faults := faultsAt_zero running ((congrArg Word.fault? word).trans reserved)
    exact ⟨ending.faulted.mpr ⟨0, Nat.one_pos, faults⟩, m, machine,
      ending.of_faults 0 Nat.one_pos faults⟩
  · have accepted : grammar.read ["halt.obj", "no.obj"] = .accepted [] ["halt.obj", "no.obj"] := rfl
    have unloadable : ¬ Image.Loadable files "no.obj" := Image.not_loadable_iff.mpr ⟨_, missing⟩
    have member : "no.obj" ∈ ["halt.obj", "no.obj"] := by simp
    obtain ⟨m, _, _, status, refuses, _⟩ := exit_status_tells_ending accepted [97] 1 fun loadable =>
      absurd (loadable _ member) unloadable
    have refusal := refuses ["halt.obj"] "no.obj" [] rfl (alone halt) unloadable
    obtain ⟨reason, given, errors⟩ := refusal.errors
    obtain ⟨cause, unread, rfl⟩ := Image.refused_iff.mp given
    obtain rfl := Except.error.inj (missing.symm.trans unread)
    have silent : Image.truncations files ["halt.obj"] = [] := by decide
    refine ⟨status.mpr ⟨_, member, unloadable⟩, refusal.output, errors.trans ?_⟩
    rw [silent]
    decide +kernel

end CommandLine

end LittleComputer
