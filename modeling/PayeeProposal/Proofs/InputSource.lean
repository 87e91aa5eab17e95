import PayeeProposal.Parameters
import PayeeProposal.Proofs.Blank
import PayeeProposal.Proofs.Spelling
import PayeeProposal.Proofs.Trailing.Reader

/-!
# Where a list of payees is written

A list of payees may be given on the command line or in a file that is named there. What is given
on the command line is trimmed before it is read, what is in a file is not, and it makes no
difference: the space that JSON allows around a text is blank, and the reader does not mind it.
Nothing else that is around a run has a say in what is read.
-/

namespace PayeeProposal

theorem Json.Around.pads {s t : String} (h : Json.Around s t.toList) : Text.Pads s t := by
  obtain ⟨before, after, hbefore, hafter, hs⟩ := h
  exact ⟨before, after, by rw [hs, List.append_assoc],
    fun c hc => Json.isBlank_of_isSpace (hbefore c hc),
    fun c hc => Json.isBlank_of_isSpace (hafter c hc)⟩

namespace PayeeInput

open Json (Around)

/-- What comes of a text: the list of payees that it holds, with the flag for payees without a
token account, or the failure for a text that holds none. -/
def outcome (allow : Bool) (s : String) : Except ProposeError PayeeInput :=
  match ofJson s with
  | .ok input => .ok { input with allowUnfunded := input.allowUnfunded || allow }
  | .error e => .error (.configuration (.unparsableInput e))

/-- Two outcomes agree: they are the same list of payees, or both say that there is none in the
text, though they may give other reasons for it. -/
inductive Agree : Except ProposeError PayeeInput → Except ProposeError PayeeInput → Prop
  | given (input : PayeeInput) : Agree (.ok input) (.ok input)
  | unparsable (e e' : Json.Failure) :
    Agree (.error (.configuration (.unparsableInput e)))
      (.error (.configuration (.unparsableInput e')))

/-! ## Space around the text -/

theorem form_indifferent : form.Indifferent := by
  have hassignment : Json.Indifferent Assignment.reader :=
    Json.record_indifferent (Assignment.twoFields.indifferent (fun s => ⟨_, _, rfl⟩)
      Json.string_indifferent Json.string_indifferent)
  exact twoFields.indifferent (fun s => ⟨_, _, rfl⟩) (Json.list_indifferent hassignment)
    Json.boolean_indifferent

theorem agree_around {s t : String} (h : Around s t.toList) (allow : Bool) :
    Agree (outcome allow t) (outcome allow s) := by
  rcases (Json.parse_around form_indifferent h).cases with
    ⟨input, -, ht, hs⟩ | ⟨e, e', ht, hs⟩
  · rw [outcome, outcome, ofJson, ofJson, ht, hs]
    exact .given _
  · rw [outcome, outcome, ofJson, ofJson, ht, hs]
    exact .unparsable _ _

/-! ## Where the text is -/

theorem load_of_textOf {files : Files} {arguments : ProposeArguments} {argument s : String}
    (hinput : arguments.input = some argument) (htext : textOf files argument = .ok s)
    (configured : Option String) (state : String) :
    load files arguments configured state = outcome arguments.allowUnfunded s := by
  simp only [load, hinput, ofArgument, htext, Traversal.ok_bind, outcome]
  cases ofJson s with
  | ok input => rfl
  | error e => rfl

/-- A text on the command line is trimmed, whatever the files are. -/
theorem textOf_inline {argument t : String} (hbrace : t.toList.head? = some '\x7b')
    (hbare : Text.Bare t) (hargument : Text.Pads argument t) (files : Files) :
    textOf files argument = .ok t := by
  simp only [textOf, Text.trim_of_pads hargument hbare, if_pos hbrace]

/-- Of all files the named one is looked at, and its text is left as it is. -/
theorem textOf_file {argument path s : String} (hbrace : path.toList.head? ≠ some '\x7b')
    (hbare : Text.Bare path) (hargument : Text.Pads argument path) {files : Files}
    (hfile : files path = .ok (.file (Text.utf8 s))) : textOf files argument = .ok s := by
  simp only [textOf, Text.trim_of_pads hargument hbare, if_neg hbrace, Files.readText, hfile,
    Text.ofUtf8?_eq_some_iff.mpr rfl]
  rfl

/-- A text that starts with a brace and does not end in a blank gives the same on the command line
and in a file that is named there, with any space around it: the same list of payees, or the
failure for a text that holds none. Each of the two outcomes is one for all runs, whatever other
files and arguments they have, and whatever is configured. -/
theorem load_inline_or_file {t padded argument path : String}
    (hbrace : t.toList.head? = some '\x7b')
    (hend : ∀ c, t.toList.getLast? = some c → Text.isBlank c = false)
    (hpadded : Around padded t.toList) (hpath : path.toList.head? ≠ some '\x7b')
    (hbare : Text.Bare path) (hargument : Text.Pads argument path) (allow : Bool) :
    ∃ inline file, Agree inline file ∧
      (∀ files arguments configured state, arguments.input = some padded →
        arguments.allowUnfunded = allow →
        load files arguments configured state = inline) ∧
      ∀ files arguments configured state, arguments.input = some argument →
        arguments.allowUnfunded = allow → files path = .ok (.file (Text.utf8 padded)) →
        load files arguments configured state = file := by
  have hfront : Text.Bare t := by
    refine ⟨fun c hc => ?_, hend⟩
    obtain rfl : '\x7b' = c := Option.some.inj (hbrace.symm.trans hc)
    rfl
  refine ⟨outcome allow t, outcome allow padded, agree_around hpadded allow, ?_, ?_⟩
  · rintro files arguments configured state hinput rfl
    exact load_of_textOf hinput (textOf_inline hbrace hfront hpadded.pads files) configured state
  · rintro files arguments configured state hinput rfl hfile
    exact load_of_textOf hinput (textOf_file hpath hbare hargument hfile) configured state

/-- A text with space around it, and a path with blanks around it. -/
theorem load_inline_or_file_padded :
    ∃ inline file, Agree inline file ∧
      (∀ files arguments configured state,
        arguments.input = some "\t\x7b\"allowFundRecipient\": true\x7d\r\n" →
        arguments.allowUnfunded = false →
        load files arguments configured state = inline) ∧
      ∀ files arguments configured state, arguments.input = some " payees.json " →
        arguments.allowUnfunded = false →
        files "payees.json" =
          .ok (.file (Text.utf8 "\t\x7b\"allowFundRecipient\": true\x7d\r\n")) →
        load files arguments configured state = file := by
  have hend : ∀ c, "\x7b\"allowFundRecipient\": true\x7d".toList.getLast? = some c →
      Text.isBlank c = false := by
    intro c hc
    obtain rfl : '\x7d' = c := by simpa using hc
    rfl
  have hpadded : Around "\t\x7b\"allowFundRecipient\": true\x7d\r\n"
      "\x7b\"allowFundRecipient\": true\x7d".toList :=
    ⟨['\t'], ['\r', '\n'], by simp [Json.Spaces, Json.isSpace],
      by simp [Json.Spaces, Json.isSpace], by decide⟩
  have hargument : Text.Pads " payees.json " "payees.json" :=
    ⟨[' '], [' '], by decide, by simp [Text.isBlank], by simp [Text.isBlank]⟩
  exact load_inline_or_file (by decide) hend hpadded (by decide)
    (Text.bare_of_forall (by simp [Text.isBlank])) hargument false

end PayeeInput

end PayeeProposal
