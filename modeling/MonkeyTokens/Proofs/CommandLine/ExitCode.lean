/-
How a command ends.

A command fails in five ways and in no other (`Refused`): a listing names no file, or its file
is not read, or is no text; the standard input of a session is no text; or the first argument is
no word that the command knows.  In each there is a complaint, and a complaint is never empty,
so that the exit code and the standard error tell the same.

What a command is asked is settled by its first argument, and for a listing by the second.  The
rest of the arguments is not looked at, and only a session looks at the standard input.  Here
this input just ends; what a session does where it breaks is said in `Session.Interruption`.
-/
import MonkeyTokens.CommandLine
import MonkeyTokens.Proofs.Session.Agreement

namespace MonkeyTokens

namespace CommandLine

/-! ### What makes a command fail -/

/-- The words that the command knows. -/
def words : List String :=
  ["lex", "repl", "help", "--help", "-h", "version", "--version", "-v"]

/-- The arguments with which a command fails, given the files that it finds and the bytes that
the standard input has before it ends. -/
inductive Refused (files : FileReader) (bytes : List UInt8) : List String → Prop where
  /-- A listing of no file. -/
  | unnamed : Refused files bytes ["lex"]
  /-- A file that cannot be read. -/
  | unread {path : String} {fault : ReadFault} (rest : List String)
      (h : files path = .error fault) : Refused files bytes ("lex" :: path :: rest)
  /-- A file that is no text. -/
  | undecodable {path : String} {data : List UInt8} (rest : List String)
      (h : files path = .ok data) (hdata : ∀ text, Utf8.bytes text ≠ data) :
      Refused files bytes ("lex" :: path :: rest)
  /-- A session on what is no text. -/
  | unreadable (rest : List String) (hbytes : ∀ text, Utf8.bytes text ≠ bytes) :
      Refused files bytes ("repl" :: rest)
  | unknown {word : String} (rest : List String) (h : word ∉ words) :
      Refused files bytes (word :: rest)

variable {files : FileReader} {bytes : List UInt8} {input : Input}

theorem ofArguments_unknown {word : String} (h : word ∉ words) (rest : List String) :
    Command.ofArguments (word :: rest) = .unknown word := by
  unfold words at h
  simp only [List.mem_cons, List.not_mem_nil, or_false, not_or] at h
  unfold Command.ofArguments
  split
  all_goals simp_all

/-- The words that are left ask for the usage or for the version, whatever comes after them. -/
theorem ofArguments_of_mem_words {word : String} (h : word ∈ words) (hlex : word ≠ "lex")
    (hrepl : word ≠ "repl") :
    (∀ rest, Command.ofArguments (word :: rest) = .usage)
      ∨ ∀ rest, Command.ofArguments (word :: rest) = .version := by
  unfold words at h
  simp only [List.mem_cons, List.not_mem_nil, or_false] at h
  rcases h with h | h | rfl | rfl | rfl | rfl | rfl | rfl
  · exact absurd h hlex
  · exact absurd h hrepl
  · exact .inl fun _ => rfl
  · exact .inl fun _ => rfl
  · exact .inl fun _ => rfl
  · exact .inr fun _ => rfl
  · exact .inr fun _ => rfl
  · exact .inr fun _ => rfl

/-- The first argument settles what is asked, except for the file of a listing. -/
theorem ofArguments_cons {word : String} (hlex : word ≠ "lex") (rest : List String) :
    Command.ofArguments (word :: rest) = Command.ofArguments [word] := by
  by_cases hword : word ∈ words
  · by_cases hrepl : word = "repl"
    · subst hrepl
      rfl
    · rcases ofArguments_of_mem_words hword hlex hrepl with h | h
      · rw [h, h]
      · rw [h, h]
  · rw [ofArguments_unknown hword, ofArguments_unknown hword]

/-! ### Complaints -/

/-- What a command complains of with these arguments, if it does. -/
def complaintOf (files : FileReader) (input : Input) (arguments : List String) : Option String :=
  complaint (.ofArguments arguments)
    (run ⟨files, input, none⟩ (.ofArguments arguments)).failure

/-- Without log lines a command is seen by its complaint and by what its run writes. -/
theorem report_quiet (arguments : List String) (files : FileReader) (input : Input) :
    report arguments ⟨files, input, none⟩
      = ⟨if (complaintOf files input arguments).isSome then 1 else 0,
          Utf8.bytes (written (run ⟨files, input, none⟩ (.ofArguments arguments)).effects),
          (complaintOf files input arguments).getD ""⟩ := by
  have hlog : ∀ events, String.join (Logger.standard.lines none events) = "" := fun _ => rfl
  rw [report, reportVia_eq]
  simp only [Sink.perform_unbounded_eq, hlog, String.empty_append]
  rfl

/-- A complaint says something. -/
theorem complaintOf_ne_empty {arguments : List String} {text : String}
    (h : complaintOf files input arguments = some text) : text ≠ "" := by
  intro hempty
  subst hempty
  unfold complaintOf complaint at h
  split at h
  · simp at h
  · simp at h
  · obtain ⟨failure, -, hwords⟩ := Option.map_eq_some_iff.1 h
    simp at hwords

/-- A file is listed exactly if its bytes are those of a text. -/
theorem failure_ofFile_eq_none {path : String} :
    (Listing.ofFile files path).failure = none ↔ ∃ text, files path = .ok (Utf8.bytes text) := by
  cases hread : files path with
  | error fault =>
      have hfailure : (Listing.ofFile files path).failure = some (.ofReadFault path fault) := by
        rw [Listing.ofFile, readSource, hread]
        rfl
      simp [hfailure]
  | ok data =>
      rw [Listing.failure_ofFile_eq_none_iff hread]
      simp [eq_comm]

theorem isSome_complaintOf_list (path : String) (rest : List String) :
    (complaintOf files input ("lex" :: path :: rest)).isSome = true
      ↔ ¬ ∃ text, files path = .ok (Utf8.bytes text) := by
  show (Option.map _ (Listing.ofFile files path).failure).isSome = true ↔ _
  rw [Option.isSome_map, Option.isSome_iff_ne_none, Ne, failure_ofFile_eq_none]

theorem isSome_complaintOf_session (hinput : input.fault = none) (rest : List String) :
    (complaintOf files input ("repl" :: rest)).isSome = true
      ↔ ¬ ∃ text, Utf8.bytes text = input.bytes := by
  obtain ⟨bytes, fault⟩ := input
  obtain rfl : fault = none := hinput
  show (Option.map _ (Session.run ⟨bytes, none⟩).failure).isSome = true ↔ _
  rw [Option.isSome_map, Option.isSome_iff_ne_none, Ne, Session.failure_run_eq_none_iff]

/-- The usage and the version can always be told. -/
theorem complaintOf_eq_none {word : String} (h : word ∈ words) (hlex : word ≠ "lex")
    (hrepl : word ≠ "repl") (rest : List String) :
    complaintOf files input (word :: rest) = none := by
  rcases ofArguments_of_mem_words h hlex hrepl with h | h
  · rw [complaintOf, h]
    rfl
  · rw [complaintOf, h]
    rfl

/-! ### Refusals -/

/-- Why arguments are refused, by their first word. -/
theorem Refused.reason {word : String} {rest : List String}
    (h : Refused files bytes (word :: rest)) :
    (word = "lex" ∧ ∀ path rest', rest = path :: rest' →
        ¬ ∃ text, files path = .ok (Utf8.bytes text))
      ∨ (word = "repl" ∧ ¬ ∃ text, Utf8.bytes text = bytes)
      ∨ word ∉ words := by
  cases h with
  | unnamed => exact .inl ⟨rfl, fun _ _ hrest => nomatch hrest⟩
  | unread rest hread =>
      refine .inl ⟨rfl, ?_⟩
      rintro path rest' ⟨⟩ ⟨text, htext⟩
      simp [htext] at hread
  | undecodable rest hread hdata =>
      refine .inl ⟨rfl, ?_⟩
      rintro path rest' ⟨⟩ ⟨text, htext⟩
      rw [htext, Except.ok.injEq] at hread
      exact hdata text hread
  | unreadable rest hbytes => exact .inr (.inl ⟨rfl, fun ⟨text, htext⟩ => hbytes text htext⟩)
  | unknown rest hword => exact .inr (.inr hword)

theorem refused_list_iff {path : String} {rest : List String} :
    Refused files bytes ("lex" :: path :: rest)
      ↔ ¬ ∃ text, files path = .ok (Utf8.bytes text) := by
  constructor
  · intro hrefused
    rcases hrefused.reason with ⟨-, h⟩ | ⟨h, -⟩ | h
    · exact h path rest rfl
    · exact absurd h (by decide)
    · exact absurd (by decide) h
  · intro hnot
    cases hread : files path with
    | error fault => exact .unread rest hread
    | ok data =>
        refine .undecodable rest hread ?_
        intro text htext
        exact hnot ⟨text, by rw [hread, htext]⟩

theorem refused_session_iff {rest : List String} :
    Refused files bytes ("repl" :: rest) ↔ ¬ ∃ text, Utf8.bytes text = bytes := by
  constructor
  · intro hrefused
    rcases hrefused.reason with ⟨h, -⟩ | ⟨-, h⟩ | h
    · exact absurd h (by decide)
    · exact h
    · exact absurd (by decide) h
  · intro hnot
    exact .unreadable rest fun text htext => hnot ⟨text, htext⟩

theorem not_refused_nil : ¬ Refused files bytes [] := by
  intro hrefused
  cases hrefused

theorem not_refused {word : String} (h : word ∈ words) (hlex : word ≠ "lex")
    (hrepl : word ≠ "repl") (rest : List String) : ¬ Refused files bytes (word :: rest) := by
  intro hrefused
  rcases hrefused.reason with ⟨hword, -⟩ | ⟨hword, -⟩ | hword
  · exact hlex hword
  · exact hrepl hword
  · exact hword h

/-- **There is a complaint exactly where the arguments are refused.** -/
theorem isSome_complaintOf (hinput : input.fault = none) (arguments : List String) :
    (complaintOf files input arguments).isSome = true ↔ Refused files input.bytes arguments := by
  rcases arguments with _ | ⟨word, rest⟩
  · exact iff_of_false Bool.false_ne_true not_refused_nil
  by_cases hword : word ∈ words
  · by_cases hlex : word = "lex"
    · subst hlex
      rcases rest with _ | ⟨path, rest⟩
      · exact iff_of_true rfl .unnamed
      · rw [isSome_complaintOf_list, refused_list_iff]
    by_cases hrepl : word = "repl"
    · subst hrepl
      rw [isSome_complaintOf_session hinput, refused_session_iff]
    rw [complaintOf_eq_none hword hlex hrepl]
    exact iff_of_false Bool.false_ne_true (not_refused hword hlex hrepl rest)
  · rw [complaintOf, ofArguments_unknown hword]
    exact iff_of_true rfl (.unknown rest hword)

/-- The exit code, the standard error and the refusal of the arguments tell the same. -/
theorem exitCode_report (arguments : List String) (files : FileReader)
    (hinput : input.fault = none) :
    ((report arguments ⟨files, input, none⟩).exitCode = 0
        ∨ (report arguments ⟨files, input, none⟩).exitCode = 1)
      ∧ ((report arguments ⟨files, input, none⟩).exitCode = 1
        ↔ (report arguments ⟨files, input, none⟩).stderr ≠ "")
      ∧ ((report arguments ⟨files, input, none⟩).exitCode = 1
        ↔ Refused files input.bytes arguments) := by
  rw [← isSome_complaintOf hinput, report_quiet]
  cases hcomplaint : complaintOf files input arguments with
  | none => simp
  | some text => simp [complaintOf_ne_empty hcomplaint]

/-! ### What is written -/

theorem written_ofFile_eq_empty {path : String}
    (h : ¬ ∃ text, files path = .ok (Utf8.bytes text)) :
    written (Listing.ofFile files path).effects = "" := by
  rw [← failure_ofFile_eq_none] at h
  unfold Listing.ofFile at h ⊢
  cases hsource : readSource files path with
  | error failure => rfl
  | ok text =>
      rw [hsource] at h
      exact absurd rfl h

theorem written_ofFile {path text : String} (h : files path = .ok (Utf8.bytes text)) :
    written (Listing.ofFile files path).effects = written (Listing.ofText path text).effects := by
  rw [Listing.ofFile_bytes h, Run.after, List.singleton_append, written_log]

/-- Only a session looks at the standard input. -/
theorem run_input {command : Command} (h : command ≠ .session) (files : FileReader)
    (input input' : Input) (logging : Option String) :
    run ⟨files, input, logging⟩ command = run ⟨files, input', logging⟩ command := by
  cases command with
  | session => exact absurd rfl h
  | usage => rfl
  | version => rfl
  | list path => rfl
  | listNothing => rfl
  | unknown word => rfl

theorem head?_of_ofArguments_eq_session {arguments : List String}
    (h : Command.ofArguments arguments = .session) : arguments.head? = some "repl" := by
  unfold Command.ofArguments at h
  split at h
  all_goals simp_all

/-! ### The contract -/

/-- **A command exits with 1 if it complains and with 0 if not, and it complains exactly where it
is refused.**  The standard input is one that just ends.

A listing that fails writes nothing, and one that does not writes the listing of the text of its
file under the path as it was given.  A session writes its banner and what it says, also where
it fails on the way.  Arguments that a command does not ask for make no difference, and neither
does the standard input to what is no session, even where it breaks. -/
theorem report_contract (arguments : List String) (files : FileReader) (input : Input)
    (hinput : input.fault = none) :
    ∃ seen, report arguments ⟨files, input, none⟩ = seen
      ∧ (seen.exitCode = 0 ∨ seen.exitCode = 1)
      ∧ (seen.exitCode = 1 ↔ seen.stderr ≠ "")
      ∧ (seen.exitCode = 1 ↔ Refused files input.bytes arguments)
      ∧ (∀ rest, arguments = "lex" :: rest → seen.exitCode = 1 → seen.stdout = [])
      ∧ (∀ rest, arguments = "lex" :: rest → seen.exitCode = 0 →
          ∃ path rest' text, rest = path :: rest' ∧ files path = .ok (Utf8.bytes text)
            ∧ seen.stdout = (Sink.unbounded.perform (Listing.ofText path text)).written)
      ∧ (∀ rest, arguments = "repl" :: rest → seen.stdout
          = Utf8.bytes banner ++ (Sink.unbounded.perform (Session.run input)).written)
      ∧ (∀ word rest, arguments = word :: rest → word ≠ "lex" →
          report [word] ⟨files, input, none⟩ = seen)
      ∧ (∀ path rest, arguments = "lex" :: path :: rest →
          report ["lex", path] ⟨files, input, none⟩ = seen)
      ∧ (arguments.head? ≠ some "repl" →
          ∀ input' : Input, report arguments ⟨files, input', none⟩ = seen) := by
  have hquiet := report_quiet arguments files input
  obtain ⟨hcodes, hstderr, hcode⟩ := exitCode_report arguments files hinput
  refine ⟨_, rfl, hcodes, hstderr, hcode, ?_, ?_, ?_, ?_, ?_, ?_⟩
  · rintro rest rfl hone
    rw [hquiet]
    rcases rest with _ | ⟨path, rest⟩
    · rfl
    · have hunread := written_ofFile_eq_empty (refused_list_iff.1 (hcode.1 hone))
      show Utf8.bytes (written (Listing.ofFile files path).effects) = []
      rw [hunread, Utf8.bytes_empty]
  · rintro rest rfl hzero
    have hnot : ¬ Refused files input.bytes ("lex" :: rest) := by
      rw [← hcode, hzero]
      decide
    rcases rest with _ | ⟨path, rest⟩
    · exact absurd .unnamed hnot
    · rw [refused_list_iff, Classical.not_not] at hnot
      obtain ⟨text, htext⟩ := hnot
      refine ⟨path, rest, text, rfl, htext, ?_⟩
      rw [hquiet, Sink.perform_unbounded_eq, ← written_ofFile htext]
      rfl
  · rintro rest rfl
    rw [hquiet, Sink.perform_unbounded_eq]
    show Utf8.bytes (written (.write banner :: (Session.run input).effects)) = _
    rw [written_write, Utf8.bytes_append]
  · rintro word rest rfl hword
    have hcommand := ofArguments_cons hword rest
    simp only [report, reportVia, hcommand]
  · rintro path rest rfl
    rfl
  · intro hhead input'
    have hcommand : Command.ofArguments arguments ≠ .session :=
      fun h => hhead (head?_of_ofArguments_eq_session h)
    simp only [report, reportVia, run_input hcommand files input' input]

/-- The second line of a session is no text. -/
theorem report_contract_no_text :
    (Input.ofBytes [0x28, 0x0A, 0xFF]).fault = none ∧ ∃ seen,
      report ["repl", "lex"] ⟨fun _ => .error .missing, .ofBytes [0x28, 0x0A, 0xFF], none⟩ = seen
      ∧ seen.exitCode = 1
      ∧ seen.stderr ≠ ""
      ∧ Refused (fun _ => .error .missing) [0x28, 0x0A, 0xFF] ["repl", "lex"]
      ∧ seen.stdout = Utf8.bytes banner
          ++ (Sink.unbounded.perform (Session.run (.ofBytes [0x28, 0x0A, 0xFF]))).written
      ∧ report ["repl"] ⟨fun _ => .error .missing, .ofBytes [0x28, 0x0A, 0xFF], none⟩ = seen := by
  have hinput : (Input.ofBytes [0x28, 0x0A, 0xFF]).fault = none := rfl
  obtain ⟨seen, hseen, -, hstderr, hrefused, -, -, hstdout, hrest, -⟩ :=
    report_contract ["repl", "lex"] (fun _ => .error .missing) _ hinput
  have hcode : seen.exitCode = 1 := by
    rw [← hseen]
    decide +kernel
  exact ⟨hinput, seen, hseen, hcode, hstderr.1 hcode, hrefused.1 hcode, hstdout ["lex"] rfl,
    hrest "repl" ["lex"] rfl (by decide)⟩

/-- What is seen of this session. -/
example : report ["repl", "lex"] ⟨fun _ => .error .missing, .ofBytes [0x28, 0x0A, 0xFF], none⟩
    = ⟨1, Utf8.bytes (banner ++ ">> .. "), "error: stream did not contain valid UTF-8\n"⟩ := by
  decide +kernel

end CommandLine

end MonkeyTokens
