import PayeeProposal.Arguments
import PayeeProposal.Proofs.Traversal

/-!
# Command lines with the flag for payees without funds

The flag may stand behind all other words. A command line that is followed without it is then
followed with it, and says the same but for the flag; only a line that ends in a double dash takes
no more words.
-/

namespace PayeeProposal

open Traversal

/-- The same arguments with the flag set or not. -/
def ProposeArguments.withAllow (arguments : ProposeArguments) (allow : Bool) : ProposeArguments :=
  { arguments with allowUnfunded := allow }

/-- The same command line with the flag set or not. -/
def CommandLine.withAllow (line : CommandLine) (allow : Bool) : CommandLine :=
  { line with arguments := line.arguments.withAllow allow }

/-- The word for the flag. -/
def allowWord : String :=
  "--allow-unfunded-payee"

theorem getLast?_ne_of_cons {word last : String} {words : List String}
    (h : (word :: words).getLast? ≠ some last) : words.getLast? ≠ some last := by
  intro hlast
  rw [List.getLast?_cons, hlast] at h
  exact h rfl

namespace Given

variable {g g' : Given} {words : List String}

/-- What has been given, and the flag. -/
def allowing (g : Given) : Given :=
  { g with flags := .allowUnfunded :: g.flags }

theorem pending_settle (h : g.settle = .ok g') : g'.pending = none := by
  unfold settle at h
  split at h
  next hnone =>
    cases h
    exact hnone
  next name value _ =>
    cases value with
    | none => cases h
    | some value =>
      simp only [put] at h
      split at h
      · cases h
      · split at h
        · cases h
        · cases h
          rfl

theorem dashed?_allowWord (g : Given) :
    g.dashed? .propose allowWord = some (g.flag .allowUnfunded) := rfl

/-- The word for the flag settles what came before it, and nothing is left to settle. -/
theorem readPropose_allowWord (h : g.settle = .ok g')
    (hnew : g'.flags.contains .allowUnfunded = false) :
    g.readPropose [allowWord] = .ok g'.allowing := by
  have hflag : g.flag .allowUnfunded = .ok g'.allowing := by
    simp only [flag, h, ok_bind, hnew]
    rfl
  have hsettled : g'.allowing.settle = .ok g'.allowing := by
    have hnone : g'.pending = none := pending_settle h
    simp only [settle, show g'.allowing.pending = none from hnone]
  rw [readPropose, if_neg (by decide), dashed?_allowWord, hflag]
  exact hsettled

/-- Behind words that are followed, the word for the flag only adds the flag. -/
theorem readPropose_append (hlast : words.getLast? ≠ some "--")
    (h : g.readPropose words = .ok g') (hnew : g'.flags.contains .allowUnfunded = false) :
    g.readPropose (words ++ [allowWord]) = .ok g'.allowing := by
  induction words generalizing g with
  | nil => exact readPropose_allowWord h hnew
  | cons word words ih =>
    have hlast' := getLast?_ne_of_cons hlast
    rw [List.cons_append]
    rw [readPropose] at h ⊢
    by_cases hdash : word = "--"
    · -- a double dash that is followed ends the words
      rw [if_pos hdash] at h
      split at h
      next hempty =>
        rw [List.isEmpty_iff.mp hempty, hdash] at hlast
        exact absurd rfl hlast
      next => cases h
    · rw [if_neg hdash] at h ⊢
      cases hword : g.dashed? .propose word with
      | some given =>
        rw [hword] at h
        cases given with
        | error e => cases h
        | ok next => exact ih hlast' h
      | none =>
        simp only [hword] at h ⊢
        cases hawaiting : g.awaiting with
        | none =>
          rw [hawaiting] at h
          cases h
        | some name =>
          rw [hawaiting] at h
          exact ih hlast' h

end Given

namespace CommandLine

variable {g : Given} {words argv : List String} {word : String} {line : CommandLine}

theorem ofGiven_allowing (before behind : Given) :
    ofGiven before behind.allowing = (ofGiven before behind).withAllow true := by
  simp [ofGiven, Given.allowing, withAllow, ProposeArguments.withAllow]

theorem readCommand_append (hlast : words.getLast? ≠ some "--")
    (h : readCommand g word words = .ok line) (hnew : line.arguments.allowUnfunded = false) :
    readCommand g word (words ++ [allowWord]) = .ok (line.withAllow true) := by
  unfold readCommand at h ⊢
  by_cases hhelp : word = helpName
  · rw [if_pos hhelp] at h
    cases h
  · rw [if_neg hhelp] at h ⊢
    obtain ⟨behind, hbehind, h⟩ := bind_eq_ok.mp h
    obtain ⟨before, hbefore, h⟩ := bind_eq_ok.mp h
    cases Except.ok.inj h
    rw [Given.readPropose_append hlast hbehind hnew, ok_bind, hbefore, ok_bind,
      ofGiven_allowing]

/-- What is followed has a command, and behind it the flag is one more word of the command. -/
theorem readWords_append (hlast : words.getLast? ≠ some "--")
    (h : readWords g words = .ok line) (hnew : line.arguments.allowUnfunded = false) :
    readWords g (words ++ [allowWord]) = .ok (line.withAllow true) := by
  induction words generalizing g with
  | nil =>
    obtain ⟨_, -, h⟩ := bind_eq_ok.mp h
    cases h
  | cons word words ih =>
    have hlast' := getLast?_ne_of_cons hlast
    rw [List.cons_append]
    rw [readWords] at h ⊢
    by_cases hcommand : g.awaiting = none ∧ isCommand word
    · rw [if_pos hcommand] at h ⊢
      exact readCommand_append hlast' h hnew
    · rw [if_neg hcommand] at h ⊢
      by_cases hdash : word = "--"
      · -- nothing is followed behind a double dash before the command
        rw [if_pos hdash] at h
        cases words with
        | nil =>
          obtain ⟨_, -, h⟩ := bind_eq_ok.mp h
          cases h
        | cons _ _ => cases h
      · rw [if_neg hdash] at h ⊢
        cases hword : g.dashed? .general word with
        | some given =>
          rw [hword] at h
          cases given with
          | error e => cases h
          | ok next => exact ih hlast' h
        | none =>
          simp only [hword] at h ⊢
          cases hawaiting : g.awaiting with
          | none =>
            rw [hawaiting] at h
            cases h
          | some name =>
            rw [hawaiting] at h
            exact ih hlast' h

/-- A command line that is followed without the flag is followed with it as its last word. -/
theorem parse_append (hlast : argv.getLast? ≠ some "--") (h : parse argv = .ok line)
    (hnew : line.arguments.allowUnfunded = false) :
    parse (argv ++ [allowWord]) = .ok (line.withAllow true) := by
  unfold parse at h ⊢
  cases argv with
  | nil => cases h
  | cons name words =>
    exact readWords_append (getLast?_ne_of_cons hlast) h hnew

theorem withAllow_eq_self {allow : Bool} (h : line.arguments.allowUnfunded = allow) :
    line.withAllow allow = line := by
  subst h
  rfl

end CommandLine

end PayeeProposal
