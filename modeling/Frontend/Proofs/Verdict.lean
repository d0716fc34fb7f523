import Frontend.Proofs.Diagnosis
import Frontend.Proofs.Fault
import Frontend.Proofs.Listing
import Frontend.Proofs.Report

namespace Frontend

open Lexeme

/-- A source with an integer literal above the largest 64-bit integer. -/
def HasOversized (s : List Char) : Prop :=
  ∃ before digits back, s = before ++ digits ++ back ∧ IsIntegerLiteral before digits back ∧
    Nat.pow 2 63 - 1 < Nat.ofDigitChars 10 digits 0

theorem hasOversized_iff {s : List Char} : HasOversized s ↔ ∃ m ∈ munches s, m.isOversized := by
  constructor
  · rintro ⟨before, digits, back, hs, hl, hlt⟩
    exact ⟨⟨before, .integer, digits⟩, mem_munches_iff.mpr ⟨back, hs, hl⟩,
      Munch.isOversized_iff.mpr ⟨rfl, hlt⟩⟩
  · rintro ⟨⟨before, rule, digits⟩, hm, ho⟩
    obtain ⟨rfl, hlt⟩ : rule = .integer ∧ _ := Munch.isOversized_iff.mp ho
    obtain ⟨back, hs, hl⟩ := mem_munches_iff.mp hm
    exact ⟨before, digits, back, hs, hl, hlt⟩

theorem hasOversized_of_tokenize_error {s : List Char} {e : LexError}
    (h : tokenize s = .error e) : HasOversized s := by
  obtain ⟨m, hfind, -⟩ := Option.map_eq_some_iff.mp (tokenize_eq_error_iff_munches.mp h)
  exact hasOversized_iff.mpr ⟨m, List.mem_of_find?_eq_some hfind, List.find?_some hfind⟩

theorem not_hasOversized_of_tokenize {s : List Char} {stream : TokenStream}
    (h : tokenize s = .ok stream) : ¬HasOversized s := by
  rw [hasOversized_iff]
  rintro ⟨m, hm, ho⟩
  obtain ⟨m', hfind⟩ := Option.isSome_iff_exists.mp (List.find?_isSome.mpr ⟨m, hm, ho⟩)
  have he := tokenize_eq_error_iff_munches.mpr (by rw [hfind]; rfl)
  rw [h] at he
  cases he

def errorsIn (s : List Char) : Nat := s.countP fun c => !isRecognized c

def warningsIn (s : List Char) : Nat := (sitesOf s).countP Site.isLoneReturn

theorem hadError_iff {s : List Char} {stream : TokenStream} (h : tokenize s = .ok stream) :
    stream.hadError ↔ 0 < errorsIn s := by
  rw [TokenStream.hadError, Sink.hasErrors_iff, errorCount_eq h, errorsIn]

theorem hadError_of_isEmpty {stream : TokenStream} (h : stream.sink.isEmpty) :
    stream.hadError = false := by
  rw [TokenStream.hadError, Sink.hasErrors_eq, List.isEmpty_iff.mp h]
  rfl

theorem errorsIn_eq_zero_iff {s : List Char} : errorsIn s = 0 ↔ ∀ c ∈ s, isRecognized c := by
  simp [errorsIn]

namespace Command

def countsText (file : String) (errors warnings : Nat) : String :=
  file ++ ": " ++ toString errors ++ " error(s), " ++ toString warnings ++ " warning(s)\n"

theorem exists_lex_of_ok (t : Terminal) {source : String} {stream : TokenStream}
    (h : tokenize source.toList = .ok stream) :
    ∃ shown, lex t source =
      .ok ⟨if stream.hadError then 1 else 0, listing stream, shown⟩ := by
  obtain ⟨shown, hs⟩ := exists_reportAll t (isAbout_of_mem_sink h)
  refine ⟨shown, ?_⟩
  simp only [lex, h, hs]
  rfl

theorem exists_lex_of_error (t : Terminal) {source : String} {e : LexError}
    (h : tokenize source.toList = .error e) : ∃ shown, lex t source = .ok ⟨1, "", shown⟩ := by
  obtain ⟨shown, hs⟩ := t.exists_report (isAbout_of_tokenize_error h)
  refine ⟨shown, ?_⟩
  simp only [lex, h, hs]
  rfl

theorem exists_check_of_clean (t : Terminal) (file : String) {source : String}
    {stream : TokenStream} (h : tokenize source.toList = .ok stream)
    (hempty : stream.sink.isEmpty) :
    ∃ shown, check t file source = .ok
      ⟨0, "✅ " ++ file ++ ": " ++ toString stream.size ++ " tokens, no diagnostics\n", shown⟩ := by
  obtain ⟨shown, hs⟩ := exists_reportAll t (isAbout_of_mem_sink h)
  refine ⟨shown, ?_⟩
  simp only [check, h, hs, hempty]
  rfl

theorem exists_check_of_errors (t : Terminal) (file : String) {source : String}
    {stream : TokenStream} (h : tokenize source.toList = .ok stream) (herror : stream.hadError) :
    ∃ shown, reportAll t source stream.sink.diagnostics = .ok shown ∧
      check t file source = .ok ⟨1, "", shown ++ "❌ " ++
        countsText file (errorsIn source.toList) (warningsIn source.toList)⟩ := by
  obtain ⟨shown, hs⟩ := exists_reportAll t (isAbout_of_mem_sink h)
  have hempty : stream.sink.isEmpty = false := by
    rw [Bool.eq_false_iff]
    intro hempty
    rw [hadError_of_isEmpty hempty] at herror
    contradiction
  refine ⟨shown, hs, ?_⟩
  simp only [check, h, hs, hempty, herror, errorCount_eq h, warningCount_eq h]
  rfl

theorem exists_check_of_warnings (t : Terminal) (file : String) {source : String}
    {stream : TokenStream} (h : tokenize source.toList = .ok stream)
    (hempty : stream.sink.isEmpty = false) (herror : stream.hadError = false) :
    ∃ shown, check t file source = .ok ⟨0, "⚠️  " ++
      countsText file (errorsIn source.toList) (warningsIn source.toList), shown⟩ := by
  obtain ⟨shown, hs⟩ := exists_reportAll t (isAbout_of_mem_sink h)
  refine ⟨shown, ?_⟩
  simp only [check, h, hs, hempty, herror, errorCount_eq h, warningCount_eq h]
  rfl

theorem exists_check_of_ok (t : Terminal) (file : String) {source : String} {stream : TokenStream}
    (h : tokenize source.toList = .ok stream) :
    ∃ outcome, check t file source = .ok outcome ∧
      outcome.exit = if stream.hadError then 1 else 0 := by
  cases herror : stream.hadError with
  | true =>
    obtain ⟨shown, -, hcheck⟩ := exists_check_of_errors t file h herror
    exact ⟨_, hcheck, rfl⟩
  | false =>
    cases hempty : stream.sink.isEmpty with
    | true =>
      obtain ⟨shown, hcheck⟩ := exists_check_of_clean t file h hempty
      exact ⟨_, hcheck, rfl⟩
    | false =>
      obtain ⟨shown, hcheck⟩ := exists_check_of_warnings t file h hempty herror
      exact ⟨_, hcheck, rfl⟩

theorem exists_check_of_error (t : Terminal) (file : String) {source : String} {e : LexError}
    (h : tokenize source.toList = .error e) :
    ∃ shown, check t file source =
      .ok ⟨1, "", shown ++ "❌ " ++ file ++ ": lexing aborted\n"⟩ := by
  obtain ⟨shown, hs⟩ := t.exists_report (isAbout_of_tokenize_error h)
  refine ⟨shown, ?_⟩
  simp only [check, h, hs]
  rfl

theorem run_lex {args : List String} {file : String} {colors : Bool}
    (h : parse? false args = some (.run ⟨.lex, file, colors⟩))
    {read : String → Except ReadFault String} {source : String} (hr : read file = .ok source)
    {outcome : Outcome} (ho : lex { colors } source = .ok outcome) : run args read = outcome := by
  simp only [run, h, Invocation.outcome, hr, ho]

theorem run_check {args : List String} {file : String} {colors : Bool}
    (h : parse? false args = some (.run ⟨.check, file, colors⟩))
    {read : String → Except ReadFault String} {source : String} (hr : read file = .ok source)
    {outcome : Outcome} (ho : check { colors } file source = .ok outcome) :
    run args read = outcome := by
  simp only [run, h, Invocation.outcome, hr, ho]

theorem exit_run_check {args : List String} {file : String} {colors : Bool}
    (h : parse? false args = some (.run ⟨.check, file, colors⟩))
    {read : String → Except ReadFault String} {source : String} (hr : read file = .ok source)
    {stream : TokenStream} (ht : tokenize source.toList = .ok stream) :
    (run args read).exit = if stream.hadError then 1 else 0 := by
  obtain ⟨outcome, hcheck, hexit⟩ := exists_check_of_ok { colors } file ht
  rw [run_check h hr hcheck, hexit]

/-- Both commands give one verdict on a source, which its characters and integer literals decide;
what they print of it is counted in it. -/
theorem run_lex_agrees_check {lexArgs checkArgs : List String} {file : String}
    {lexColors checkColors : Bool}
    (hl : parse? false lexArgs = some (.run ⟨.lex, file, lexColors⟩))
    (hc : parse? false checkArgs = some (.run ⟨.check, file, checkColors⟩))
    {read : String → Except ReadFault String} {source : String} (hr : read file = .ok source) :
    (run lexArgs read).exit = (run checkArgs read).exit ∧
    ((run lexArgs read).exit = 0 ↔
      (∀ c ∈ source.toList, isRecognized c) ∧ ¬HasOversized source.toList) ∧
    (∀ e, tokenize source.toList = .error e → (run lexArgs read).stdout = "") ∧
    ∀ stream, tokenize source.toList = .ok stream →
      (run lexArgs read).stdout.toList = stream.tokens.flatMap SpannedToken.line ∧
      (run lexArgs read).stdout.toList.count '\n' = stream.size ∧
      (stream.sink.isEmpty → (run checkArgs read).stdout =
        "✅ " ++ file ++ ": " ++ toString ((run lexArgs read).stdout.toList.count '\n') ++
          " tokens, no diagnostics\n") ∧
      (stream.sink.isEmpty = false →
        if 0 < errorsIn source.toList then
          ∃ shown, reportAll { colors := checkColors } source stream.sink.diagnostics = .ok shown ∧
            (run checkArgs read).stderr = shown ++ "❌ " ++
              countsText file (errorsIn source.toList) (warningsIn source.toList)
        else (run checkArgs read).stdout = "⚠️  " ++
          countsText file (errorsIn source.toList) (warningsIn source.toList)) := by
  cases ht : tokenize source.toList with
  | error e =>
    obtain ⟨shown, hlex⟩ := exists_lex_of_error { colors := lexColors } ht
    obtain ⟨shown', hcheck⟩ := exists_check_of_error { colors := checkColors } file ht
    have hover := hasOversized_of_tokenize_error ht
    rw [run_lex hl hr hlex, run_check hc hr hcheck]
    simp [hover]
  | ok stream =>
    obtain ⟨shown, hlex⟩ := exists_lex_of_ok { colors := lexColors } ht
    have hcount := count_listing fun t hm => (count_line_of_tokenize ht t hm).1
    have hover := not_hasOversized_of_tokenize ht
    have hclean : stream.hadError = false ↔ ∀ c ∈ source.toList, isRecognized c := by
      rw [← errorsIn_eq_zero_iff, Bool.eq_false_iff, ne_eq, hadError_iff ht]
      omega
    rw [run_lex hl hr hlex, ← hclean]
    refine ⟨(exit_run_check hc hr ht).symm, ?_, by simp, ?_⟩
    · cases stream.hadError <;> simp [hover]
    · rintro stream' ⟨⟩
      refine ⟨toList_listing stream, hcount, fun hempty => ?_, fun hempty => ?_⟩
      · obtain ⟨shown', hcheck⟩ := exists_check_of_clean { colors := checkColors } file ht hempty
        rw [run_check hc hr hcheck, hcount]
      · split
        · rename_i hpos
          obtain ⟨shown', hshown, hcheck⟩ := exists_check_of_errors { colors := checkColors } file
            ht ((hadError_iff ht).mpr hpos)
          exact ⟨shown', hshown, by rw [run_check hc hr hcheck]⟩
        · rename_i hpos
          obtain ⟨shown', hcheck⟩ := exists_check_of_warnings { colors := checkColors } file ht
            hempty (Bool.eq_false_iff.mpr (mt (hadError_iff ht).mp hpos))
          rw [run_check hc hr hcheck]

theorem run_lex_agrees_check_both_faults :
    let read : String → Except ReadFault String := fun _ => .ok "é\r1"
    (run ["--no-color", "lex", "m.ox"] read).exit = (run ["check", "m.ox"] read).exit ∧
      (run ["--no-color", "lex", "m.ox"] read).exit ≠ 0 ∧
      (run ["--no-color", "lex", "m.ox"] read).stdout.toList.count '\n' = 4 ∧
      ∃ shown, (run ["check", "m.ox"] read).stderr =
        shown ++ "❌ " ++ "m.ox: 1 error(s), 1 warning(s)\n" := by
  intro read
  have hl : parse? false ["--no-color", "lex", "m.ox"] = some (.run ⟨.lex, "m.ox", false⟩) := rfl
  have hc : parse? false ["check", "m.ox"] = some (.run ⟨.check, "m.ox", true⟩) := rfl
  have hr : read "m.ox" = .ok "é\r1" := rfl
  obtain ⟨hexit, hzero, -, hprinted⟩ := run_lex_agrees_check hl hc hr
  obtain ⟨-, hcount, -, hcounts⟩ := hprinted _ rfl
  obtain ⟨shown, -, hstderr⟩ := hcounts rfl
  refine ⟨hexit, ?_, hcount, shown, hstderr⟩
  rw [ne_eq, hzero]
  exact fun hclean => absurd (hclean.1 'é' (by decide)) (by decide)

end Command

end Frontend
